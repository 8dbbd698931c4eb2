import MeridianKafka.Consumer.Sound

/-!
# A failed acknowledgement

An acknowledgement whose commit (or staging) raises should change nothing, so that
the same token can be tried again. `acknowledge` takes the contiguous run out of the
acknowledged set before it asks the client to commit, and does not put it back.

The offset being acknowledged loses nothing that way: its delivery stays in flight,
and a retry adds it again. The other offsets of the run were acknowledged before,
and nobody will add them again. So the call changes nothing exactly when the run is
the offset alone, that is, when the next offset is not acknowledged yet
(`failed_acknowledge_iff`).

"Nothing" is `Member.Agrees`: every book is the same, the acknowledged offsets of a
partition without an entry reading as none. A later call cannot tell two members
that agree apart (`acknowledge_agrees`).
-/

namespace MeridianKafka

open Framework

/-- Two members that no operation can tell apart. -/
structure Member.Agrees (m m' : Member) : Prop where
  history : m.history = m'.history
  command : m.state.command = m'.state.command
  assignmentEpoch : m.state.assignmentEpoch = m'.state.assignmentEpoch
  assigned : m.state.assigned = m'.state.assigned
  inflight : m.state.inflight = m'.state.inflight
  attempts : m.state.attempts = m'.state.attempts
  acknowledged : ∀ p, m.acknowledgedOf p = m'.acknowledgedOf p
  safeNext : m.state.safeNext = m'.state.safeNext
  paused : m.state.paused = m'.state.paused

namespace Member.Agrees

variable {m m' : Member}

theorem note (h : m.Agrees m') (p : ℕ) (w : Occurrence) : (m.note p w).Agrees (m'.note p w) where
  history := by simp [Member.note, h.history]
  command := h.command
  assignmentEpoch := h.assignmentEpoch
  assigned := h.assigned
  inflight := h.inflight
  attempts := h.attempts
  acknowledged := h.acknowledged
  safeNext := h.safeNext
  paused := h.paused

theorem setSafe (h : m.Agrees m') (p safe : ℕ) : (m.setSafe p safe).Agrees (m'.setSafe p safe) where
  history := h.history
  command := h.command
  assignmentEpoch := h.assignmentEpoch
  assigned := h.assigned
  inflight := h.inflight
  attempts := h.attempts
  acknowledged := h.acknowledged
  safeNext := by simp [Member.setSafe, h.safeNext]
  paused := h.paused

theorem settle (h : m.Agrees m') (p o : ℕ) (transactional : Bool) :
    (m.settle p o transactional).Agrees (m'.settle p o transactional) where
  history := by simp [Member.settle, h.history, h.safeNext]
  command := h.command
  assignmentEpoch := h.assignmentEpoch
  assigned := h.assigned
  inflight := by simp [Member.settle, h.inflight]
  attempts := by simp [Member.settle, h.attempts]
  acknowledged := h.acknowledged
  safeNext := h.safeNext
  paused := h.paused

theorem original (h : m.Agrees m') (p o : ℕ) : m.original p o = m'.original p o := by
  rw [Member.original, Member.original, h.safeNext]

theorem contiguous (h : m.Agrees m') (p o : ℕ) : m.contiguous p o = m'.contiguous p o := by
  rw [Member.contiguous, Member.contiguous, h.original, h.acknowledged]

/-- The acknowledged offsets after a collection. -/
theorem acknowledgedOf_collect (m : Member) (p q o : ℕ) :
    (m.collect p o).acknowledgedOf q =
      if q = p then (m.contiguous p o).2 else m.acknowledgedOf q := by
  unfold acknowledgedOf collect Dict.getD
  dsimp only
  rw [Dict.get?_set]
  split <;> rfl

theorem collect (h : m.Agrees m') (p o : ℕ) : (m.collect p o).Agrees (m'.collect p o) where
  history := h.history
  command := h.command
  assignmentEpoch := h.assignmentEpoch
  assigned := h.assigned
  inflight := h.inflight
  attempts := h.attempts
  acknowledged q := by
    rw [acknowledgedOf_collect, acknowledgedOf_collect, h.contiguous, h.acknowledged]
  safeNext := by simp [Member.collect, h.safeNext]
  paused := h.paused

/-- A collection that leaves the acknowledged offsets of a partition whose safe
offset is set leaves everything. -/
theorem of_collect {p o : ℕ} (hsafe : (m.state.safeNext.get? p).isSome)
    (hsame : (m.contiguous p o).2 = m.acknowledgedOf p) : m.Agrees (m.collect p o) where
  history := rfl
  command := rfl
  assignmentEpoch := rfl
  assigned := rfl
  inflight := rfl
  attempts := rfl
  acknowledged q := by
    rw [acknowledgedOf_collect]
    split
    · next h => rw [h, hsame]
    · rfl
  safeNext := by rw [Member.collect, Dict.setdefault, if_pos hsafe]
  paused := rfl

end Member.Agrees

namespace KafkaConsumerEngine

variable {Token : Type} {engine : KafkaConsumerEngine Token} {log : PartitionLog}
  {m m' : Member}

theorem completeAcknowledge_agrees (h : m.Agrees m') (command : AcknowledgeCommand Token)
    (c : DeliveryCoordinates) (committed : Bool) (transaction : Option KafkaTransactionBridge)
    (env : AcknowledgeEnv) :
    (completeAcknowledge m command c committed transaction env).1 =
        (completeAcknowledge m' command c committed transaction env).1 ∧
      (completeAcknowledge m command c committed transaction env).2.1.Agrees
        (completeAcknowledge m' command c committed transaction env).2.1 ∧
      (completeAcknowledge m command c committed transaction env).2.2 =
        (completeAcknowledge m' command c committed transaction env).2.2 := by
  have hsettle := h.settle c.partition c.offset transaction.isSome
  unfold completeAcknowledge
  dsimp only
  cases env.emit with
  | some raised => exact ⟨rfl, hsettle, rfl⟩
  | none =>
    refine ⟨?_, hsettle, rfl⟩
    rw [hsettle.safeNext]

/-- An acknowledgement cannot tell two members that agree apart: the same answer,
the same transaction, and members that agree again. -/
theorem acknowledge_agrees (h : m.Agrees m') (command : AcknowledgeCommand Token)
    (transaction : Option KafkaTransactionBridge) (env : AcknowledgeEnv) :
    (engine.acknowledge m command transaction env).1 =
        (engine.acknowledge m' command transaction env).1 ∧
      (engine.acknowledge m command transaction env).2.1.Agrees
        (engine.acknowledge m' command transaction env).2.1 ∧
      (engine.acknowledge m command transaction env).2.2 =
        (engine.acknowledge m' command transaction env).2.2 := by
  unfold acknowledge
  split
  · exact ⟨rfl, h, rfl⟩
  next c _ =>
  -- The guard reads nothing in which the two members differ.
  have hguard : acknowledgeGuard m c = acknowledgeGuard m' c := by
    unfold acknowledgeGuard
    rw [h.assignmentEpoch, h.inflight]
  unfold acknowledgeDelivery
  rw [hguard]
  split
  · exact ⟨rfl, h, rfl⟩
  dsimp only
  rw [h.original, h.contiguous]
  split
  · split
    · exact ⟨rfl, h.collect _ _, rfl⟩
    · exact completeAcknowledge_agrees (((h.collect _ _).note _ _).setSafe _ _) ..
  · exact completeAcknowledge_agrees (h.collect _ _) ..

/-- The acknowledgement gets to its client call, and the call raises. -/
structure FailedMove (engine : KafkaConsumerEngine Token) (m : Member)
    (command : AcknowledgeCommand Token) (transaction : Option KafkaTransactionBridge)
    (env : AcknowledgeEnv) (c : DeliveryCoordinates) : Prop where
  valid : engine.ValidToken m command env.nowMs c
  advances : m.original c.partition c.offset < (m.contiguous c.partition c.offset).1
  raises : MoveFails m command c transaction env

/-- The failed call leaves the member as it was, and a retry of the token that
succeeds goes as if the failure had not happened. -/
structure ChangesNothing (engine : KafkaConsumerEngine Token) (m : Member)
    (command : AcknowledgeCommand Token) (transaction : Option KafkaTransactionBridge)
    (env : AcknowledgeEnv) (c : DeliveryCoordinates) : Prop where
  unchanged : m.Agrees (engine.acknowledge m command transaction env).2.1
  retry : ∀ transaction' env', engine.ValidToken m command env'.nowMs c →
    ¬MoveFails m command c transaction' env' →
    let failed := (engine.acknowledge m command transaction env).2.1
    (engine.acknowledge m command transaction' env').1 =
        (engine.acknowledge failed command transaction' env').1 ∧
      (engine.acknowledge m command transaction' env').2.1.Agrees
        (engine.acknowledge failed command transaction' env').2.1 ∧
      (engine.acknowledge m command transaction' env').2.2 =
        (engine.acknowledge failed command transaction' env').2.2

/-- A failed call has collected the run and stopped. -/
theorem FailedMove.member {command : AcknowledgeCommand Token}
    {transaction : Option KafkaTransactionBridge} {env : AcknowledgeEnv} {c : DeliveryCoordinates}
    (h : FailedMove engine m command transaction env c) :
    (engine.acknowledge m command transaction env).2.1 = m.collect c.partition c.offset := by
  obtain ⟨raised, hraised⟩ := h.raises
  rw [h.valid.acknowledge_eq]
  unfold acknowledgeDelivery
  rw [h.valid.accepted]
  dsimp only
  rw [if_pos h.advances]
  rcases hmove : moveGroup command c.partition (m.contiguous c.partition c.offset).1 transaction
    env with ⟨raised' | moved, transaction'⟩
  · rfl
  · rw [hmove] at hraised
    simp at hraised

/-- **What a failed acknowledgement changes.** In every reachable state, a call whose
commit or staging raises changes nothing exactly when the offset after the one that
it acknowledges is not acknowledged yet. -/
theorem failed_acknowledge_iff (engine : KafkaConsumerEngine Token) (log : PartitionLog)
    (poll : PollCommand) (run : List (Action Token))
    (legal : (engine.machine log).Legal (.create poll) run) (command : AcknowledgeCommand Token)
    (transaction : Option KafkaTransactionBridge) (env : AcknowledgeEnv) (c : DeliveryCoordinates)
    (failed : FailedMove engine ((engine.machine log).play (.create poll) run) command transaction
      env c) :
    ChangesNothing engine ((engine.machine log).play (.create poll) run) command transaction env c ↔
      c.offset + 1 ∉ ((engine.machine log).play (.create poll) run).acknowledgedOf c.partition := by
  have hsound := sound_of_run poll run legal c.partition
  generalize (engine.machine log).play (.create poll) run = m at *
  have hmember := failed.member
  constructor
  · rintro ⟨hunchanged, -⟩ hnext
    -- The next offset leaves the set with the run.
    have hsame := hunchanged.acknowledged c.partition
    rw [hmember, Member.Agrees.acknowledgedOf_collect, if_pos rfl] at hsame
    exact hsound.next_notMem_contiguous failed.advances hnext (hsame ▸ hnext)
  · intro hnext
    have hunchanged : m.Agrees (engine.acknowledge m command transaction env).2.1 := by
      obtain ⟨inflight, hget, -⟩ := failed.valid.inflight
      rw [hmember]
      refine .of_collect (hsound.inflight_safe c.offset (by rw [hget]; rfl)) ?_
      exact hsound.contiguous_of_next_notMem failed.advances hnext
    exact ⟨hunchanged, fun transaction' env' _ _ => acknowledge_agrees hunchanged ..⟩

/-- The commit of record 0 raises while record 1 is in flight. -/
theorem failed_acknowledge_iff_alone :
    let m := (Sample.engine.machine (Sample.log [0, 1] [])).play (.create Sample.command)
      [.assigned [0], Sample.receive 0, Sample.receive 1]
    ChangesNothing Sample.engine m (Sample.acknowledgeCommand 0 1 1) none
        { nowMs := 1, commit := some .other } (Sample.coordinates 0 1 1) ↔
      0 + 1 ∉ m.acknowledgedOf 0 :=
  failed_acknowledge_iff Sample.engine (Sample.log [0, 1] []) Sample.command
    [.assigned [0], Sample.receive 0, Sample.receive 1] (by decide +kernel) _ none _
    (Sample.coordinates 0 1 1)
    ⟨⟨Sample.decodeDelivery_token 0 1 1 le_rfl, by decide +kernel⟩, by decide +kernel,
      moveFails_none.mpr rfl⟩

/-- **An acknowledged offset is forgotten.** Record 1 is acknowledged before record 0,
and the commit for record 0 raises: afterwards record 1 is neither in flight nor
acknowledged. -/
theorem failed_acknowledge_forgets :
    let log := Sample.log [0, 1] []
    let run := [.assigned [0], Sample.receive 0, Sample.receive 1, Sample.acknowledge 1]
    let m := (Sample.engine.machine log).play (.create Sample.command) run
    (Sample.engine.machine log).Legal (.create Sample.command) run ∧
      FailedMove Sample.engine m (Sample.acknowledgeCommand 0 1 1) none
        { nowMs := 1, commit := some .other } (Sample.coordinates 0 1 1) ∧
      ¬ChangesNothing Sample.engine m (Sample.acknowledgeCommand 0 1 1) none
        { nowMs := 1, commit := some .other } (Sample.coordinates 0 1 1) := by
  refine ⟨by decide +kernel, ⟨⟨Sample.decodeDelivery_token 0 1 1 le_rfl, by decide +kernel⟩,
    by decide +kernel, moveFails_none.mpr rfl⟩, fun h => ?_⟩
  exact absurd (h.unchanged.acknowledged 0) (by decide +kernel)

end KafkaConsumerEngine

end MeridianKafka
