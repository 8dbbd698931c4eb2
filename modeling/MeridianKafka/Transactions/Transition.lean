import MeridianKafka.Consumer.GroupPosition
import MeridianKafka.Transactions.ConsumePublish

/-!
# Group position and open transactions

`group_position` refuses the tokens of all deliveries before it by a new epoch. The
offsets that a transaction has staged are kept on the bridge, which the call does not
look at: a transaction that is open during the call may commit them afterwards and take
the group back to where a delivery from before the transition had brought it
(`staged_offset_undoes`).

When nothing of the group is staged at the call, the group stays at the target until a
delivery that was handed out after it is acknowledged, and every offset that a
transaction commits was staged by such an acknowledgement
(`transitions_stand_of_unstaged`).
-/

namespace MeridianKafka

open Framework

/-! ### What a call acknowledges and commits -/

/-- An acknowledgement of a session: the runtime it finds, its command, whether it is
part of a Kafka transaction, and its environment. -/
structure SessionAck (Token : Type) where
  runtime : KafkaAdapterRuntime
  command : AcknowledgeCommand Token
  transactional : Bool
  env : AcknowledgeEnv

namespace SessionAck

variable {Token : Type} (engine : KafkaConsumerEngine Token) (ack : SessionAck Token)

/-- The runtime after it. -/
def after : KafkaAdapterRuntime :=
  (ack.runtime.acknowledge engine ack.command ack.transactional ack.env).2

/-- It acknowledges a delivery of this record. -/
def Settles (g : GroupRef) (p o : ℕ) : Prop :=
  ack.command.group = g ∧ ∃ m m', ack.runtime.states.get? g = some m ∧
    (ack.after engine).states.get? g = some m' ∧
    (m'.ledger p).resolved = o :: (m.ledger p).resolved

/-- It stages this offset. -/
def Stages (topic : String) (p next : ℕ) : Prop :=
  ack.transactional ∧ (ack.after engine).transactionBridge.offsets.get? (topic, p) = some next ∧
    ack.runtime.transactionBridge.offsets.get? (topic, p) ≠ some next

end SessionAck

/-- The acknowledgement that a call of a session makes, if it comes to it. -/
def sessionAck {Token : Type} :
    RuntimeSessions × SessionCall Token → Option (SessionAck Token)
  | (s, .acknowledge i command env) =>
    match (s.sessions i).ensureBegun with
    | some _ => none
    | none => some ⟨s.runtime, command, (s.sessions i).active, env⟩
  | (s, .executeTransactional i command env) =>
    match (s.sessions i).ensureBegun with
    | some _ => none
    | none =>
      match
        if (s.sessions i).active then (.ok (), s.runtime.transactionBridge)
        else s.runtime.transactionBridge.begin env.begin.beginTransaction env.begin.emit
      with
      | (.error _, _) => none
      | (.ok (), bridge) =>
        match KafkaAdapterRuntime.publishOutputs { s.runtime with transactionBridge := bridge }
            command.outputs env with
        | .error _ => none
        | .ok _ =>
          some ⟨{ s.runtime with transactionBridge := bridge }, command.ackCommand, true,
            env.acknowledge⟩
  | _ => none

namespace SessionCall

variable {Token : Type}

/-- The call moves the group by hand. -/
def Repositions (g : GroupRef) : SessionCall Token → Prop
  | operate group (.groupPosition _ _) => group = g
  | _ => False

instance (g : GroupRef) : DecidablePred (@Repositions Token g)
  | .operate _ (.groupPosition _ _) => inferInstanceAs (Decidable (_ = _))
  | .operate _ (.expireInflight _) | .operate _ (.resumeDue _) | .operate _ (.receive _ _)
  | .operate _ (.acknowledge _ _ _) | .operate _ (.negativeAcknowledge _ _)
  | .operate _ (.assigned _) | .operate _ (.revoked _) | .join _ _ | .begin _ _
  | .acknowledge _ _ _ | .executeTransactional _ _ _ | .commit _ _ | .rollback _ _ => isFalse id

/-- The compiler has checked that each ConsumerGroup belongs to its one Subscription. -/
def Compiled (groupOf : String → GroupRef) : SessionCall Token → Prop
  | acknowledge _ command _ => groupOf command.consumerGroup.ref.str = command.group
  | executeTransactional _ command _ =>
    groupOf command.ackCommand.consumerGroup.ref.str = command.ackCommand.group
  | operate group (.groupPosition _ _) => groupOf group.2.str = group
  | _ => True

/-- A call of `group_position` finds nothing of its group staged. -/
def FindsUnstaged (s : RuntimeSessions) : SessionCall Token → Prop
  | operate group (.groupPosition _ _) =>
    s.runtime.transactionBridge.groupKey = some group.2.str →
      s.runtime.transactionBridge.offsets.entries = []
  | _ => True

instance (s : RuntimeSessions) : DecidablePred (@FindsUnstaged Token s)
  | .operate _ (.groupPosition _ _) => inferInstanceAs (Decidable (_ → _))
  | .operate _ (.expireInflight _) | .operate _ (.resumeDue _) | .operate _ (.receive _ _)
  | .operate _ (.acknowledge _ _ _) | .operate _ (.negativeAcknowledge _ _)
  | .operate _ (.assigned _) | .operate _ (.revoked _) | .join _ _ | .begin _ _
  | .acknowledge _ _ _ | .executeTransactional _ _ _ | .commit _ _ | .rollback _ _ => isTrue trivial

end SessionCall

namespace KafkaConsumerEngine

variable {Token : Type} (engine : KafkaConsumerEngine Token)

/-- The Kafka transaction that a call commits. -/
def committedTransaction : RuntimeSessions × SessionCall Token → Option KafkaTransaction
  | (s, .executeTransactional i command env) =>
    ((s.sessions i).executeTransactional s.runtime engine command env).transaction
  | (s, .commit i env) => ((s.sessions i).commit s.runtime env).transaction
  | _ => none

/-- The call hands out a record of the group. -/
def HandsOutTo (g : GroupRef) (p o : ℕ) : RuntimeSessions × SessionCall Token → Prop
  | (s, .operate group action) => group = g ∧ ∃ m d, s.runtime.states.get? g = some m ∧
      engine.handedOut m action = some d ∧ d.of p o
  | _ => False

/-- The call acknowledges or dead-letters a delivery of this record of the group. -/
def SettlesIn (g : GroupRef) (p o : ℕ) (x : RuntimeSessions × SessionCall Token) : Prop :=
  (∃ ack ∈ sessionAck x, ack.Settles engine g p o) ∨
    ∃ m action, x.2 = .operate g action ∧ x.1.runtime.states.get? g = some m ∧
      ((engine.next m action).ledger p).resolved = o :: (m.ledger p).resolved

/-- Where a call puts the group: the offset of its Kafka transaction, or its own last
commit. -/
def committedBy (g : GroupRef) (topic : String) (p : ℕ) (x : RuntimeSessions × SessionCall Token) :
    Option ℕ :=
  (((engine.committedTransaction x).filter (·.group = some g.2.str)).bind
    (·.offsets.get? (topic, p))).or <|
    match x.1.runtime.states.get? g, (engine.share x.1 x.2).runtime.states.get? g with
    | some m, some m' =>
      if (m'.ledger p).commits = (m.ledger p).commits then none else (m'.ledger p).commits.head?
    | _, _ => none

/-- The committed offset of a partition after some calls. -/
def positionAfter (g : GroupRef) (topic : String) (p : ℕ)
    (steps : List (RuntimeSessions × SessionCall Token)) : Option ℕ :=
  steps.foldl (fun position x => (engine.committedBy g topic p x).or position) none

/-- Some call acknowledges a delivery that was handed out before it in these steps. -/
def SettlesNew (g : GroupRef) (steps : List (RuntimeSessions × SessionCall Token)) : Prop :=
  ∃ before x after, steps = before ++ x :: after ∧
    ∃ p o, engine.SettlesIn g p o x ∧ ∃ z ∈ before, engine.HandsOutTo g p o z

/-- Some call stages this offset by an acknowledgement of a delivery that was handed out
before it in these steps. -/
def StagesNew (g : GroupRef) (topic : String) (p next : ℕ)
    (steps : List (RuntimeSessions × SessionCall Token)) : Prop :=
  ∃ before x after, steps = before ++ x :: after ∧
    ∃ ack ∈ sessionAck x, ack.Stages engine topic p next ∧
      ∃ o, ack.Settles engine g p o ∧ ∃ z ∈ before, engine.HandsOutTo g p o z

/-- A call of `group_position` with this target, and the calls after it, up to the next
such call. -/
structure Stands (g : GroupRef) (topic : String) (target : Dict ℕ ℕ)
    (transition : RuntimeSessions × SessionCall Token)
    (since : List (RuntimeSessions × SessionCall Token)) : Prop where
  /-- The group stays at the target until a delivery from after the call is
  acknowledged. -/
  stays : ∀ earlier later, since = earlier ++ later → ¬engine.SettlesNew g earlier →
    ∀ p t, target.get? p = some t →
      engine.positionAfter g topic p (transition :: earlier) = some t
  /-- What a transaction commits was staged by acknowledgements of such deliveries. -/
  staged : ∀ earlier x later, since = earlier ++ x :: later →
    ∀ tx, engine.committedTransaction x = some tx → tx.group = some g.2.str →
      ∀ topic p next, tx.offsets.get? (topic, p) = some next →
        engine.StagesNew g topic p next (earlier ++ [x])

/-- Every transition of a run stands. -/
def TransitionsStand (logs : GroupRef → PartitionLog) (start : RuntimeSessions)
    (run : List (SessionCall Token)) : Prop :=
  ∀ before g command env since rest,
    run = before ++ .operate g (.groupPosition command env) :: (since ++ rest) →
    (∀ call ∈ since, ¬call.Repositions g) →
    let s := (engine.sharing logs).play start before
    let transition : RuntimeSessions × SessionCall Token :=
      (s, .operate g (.groupPosition command env))
    ∀ m answer target, s.runtime.states.get? g = some m →
      (engine.groupPosition m command env).1 = .ok answer →
      decodePositions engine.cursor env.nowMs command.position command.stream = .ok target →
      engine.Stands g command.stream.topic target transition
        ((engine.sharing logs).steps (engine.share s transition.2) since)

variable {engine} {log : PartitionLog} {m : Member} {p o : ℕ}

/-! ### What one step of a member does to its deliveries -/

/-- Only a record that the client returns is put in flight. -/
theorem PartitionStep.inflight_of {a : Action Token} {L' : Ledger} {i : Inflight}
    (step : PartitionStep engine log m p a L') (h : L'.inflight o = some i) :
    ((m.ledger p).inflight o).isSome ∨
      ∃ message env, a = .receive (.record message) env ∧ message.partition = p ∧
        message.offset = o := by
  -- A delivery that leaves is not the one that is there.
  have hdrop : ∀ {k : ℕ}, Function.update (m.ledger p).inflight k none o = some i →
      ((m.ledger p).inflight o).isSome := by
    intro k hk
    rw [Function.update_apply] at hk
    split at hk
    · simp at hk
    · rw [hk]
      rfl
  have hack : ∀ {k : ℕ} {transactional : Bool} {fails : Prop} {L' : Ledger},
      (m.ledger p).AcknowledgeStep k transactional fails L' → L'.inflight o = some i →
      ((m.ledger p).inflight o).isSome := by
    intro k transactional fails L' hstep hi
    cases hstep with
    | failed => exact Option.isSome_of_eq_some hi
    | moved => exact hdrop hi
    | collected => exact hdrop hi
  cases step with
  | rewound =>
    have hi : (if o < _ then (m.ledger p).inflight o else none) = some i := h
    rw [Option.ite_none_right_eq_some] at hi
    exact Or.inl (Option.isSome_of_eq_some hi.2)
  | rejected =>
    rw [Ledger.reject_inflight] at h
    exact Or.inl (Option.isSome_of_eq_some h)
  | @delivered message env event expiresAtMs may here decodes =>
    rw [Ledger.handOut_inflight, Function.update_apply] at h
    split at h
    · next heq => exact Or.inr ⟨message, env, rfl, here, heq.symm⟩
    · exact Or.inl (Option.isSome_of_eq_some h)
  | acknowledged _ _ hstep => exact Or.inl (hack hstep h)
  | deadLettered _ _ hstep => exact Or.inl (hack hstep h)
  | dropped => exact Or.inl (hdrop h)
  | sought => exact Or.inl (hdrop h)
  | pausedAt => exact Or.inl (hdrop h)
  | revoked => exact absurd h (by simp [Ledger.revoke])
  | repositioned => exact absurd h (by simp [Ledger.reposition])
  | _ => exact Or.inl (Option.isSome_of_eq_some h)

/-- A record that is settled was in flight. -/
theorem PartitionStep.inflight_of_resolved {a : Action Token} {L' : Ledger}
    (step : PartitionStep engine log m p a L') (h : L'.resolved = o :: (m.ledger p).resolved) :
    ((m.ledger p).inflight o).isSome := by
  have hself : (m.ledger p).resolved ≠ o :: (m.ledger p).resolved :=
    fun heq => absurd (congrArg List.length heq) (by simp)
  -- A record is resolved only by a step that acknowledges, and a token is accepted only while its
  -- record is in flight.
  have hack : ∀ {c : DeliveryCoordinates} {command : AcknowledgeCommand Token} {nowMs : ℕ}
      {transactional : Bool} {fails : Prop} {L' : Ledger},
      engine.ValidToken m command nowMs c → c.partition = p →
      (m.ledger p).AcknowledgeStep c.offset transactional fails L' →
      L'.resolved = o :: (m.ledger p).resolved → ((m.ledger p).inflight o).isSome := by
    intro c command nowMs transactional fails L' hvalid hhere hstep hresolved
    obtain ⟨i, hi, -⟩ := hvalid.inflight
    rw [hhere] at hi
    suffices hoffset : c.offset = o from hoffset ▸ Option.isSome_of_eq_some hi
    cases hstep with
    | failed => exact absurd hresolved hself
    | moved => cases transactional <;> exact (List.cons.inj hresolved).1
    | collected => exact (List.cons.inj hresolved).1
  cases step with
  | rejected =>
    rw [Ledger.reject_resolved] at h
    exact absurd h hself
  | delivered =>
    rw [Ledger.handOut_resolved] at h
    exact absurd h hself
  | acknowledged valid here hstep => exact hack valid here hstep h
  | deadLettered valid here hstep => exact hack valid here hstep h
  | repositioned target =>
    have hresolved : ((m.ledger p).reposition target).resolved = (m.ledger p).resolved := by
      cases target <;> rfl
    exact absurd (hresolved.symm.trans h) hself
  | _ => exact absurd h hself

/-- A step that commits settles a record, unless the group is moved by hand; in a
transaction nothing is committed yet. -/
theorem PartitionStep.resolved_of_commits {a : Action Token} {L' : Ledger}
    (step : PartitionStep engine log m p a L') (h : L'.commits ≠ (m.ledger p).commits)
    (not_moved : ∀ command env, a ≠ .groupPosition command env) :
    (∃ o, L'.resolved = o :: (m.ledger p).resolved) ∧
      ∀ command transaction env, a = .acknowledge command transaction env →
        transaction = none := by
  -- Both paths that acknowledge, the acknowledgement itself and the one after a dead letter, commit
  -- by the same step of the ledger.
  have hack : ∀ {k : ℕ} {transactional : Bool} {fails : Prop} {L' : Ledger},
      (m.ledger p).AcknowledgeStep k transactional fails L' →
      L'.commits ≠ (m.ledger p).commits →
      (∃ o, L'.resolved = o :: (m.ledger p).resolved) ∧ transactional = false := by
    intro k transactional fails L' hstep hcommits
    cases hstep with
    | failed => exact absurd rfl hcommits
    | moved =>
      cases transactional with
      | false => exact ⟨⟨k, rfl⟩, rfl⟩
      | true => exact absurd rfl hcommits
    | collected => exact absurd rfl hcommits
  cases step with
  | rejected =>
    rw [Ledger.reject_commits] at h
    exact absurd rfl h
  | delivered =>
    rw [Ledger.handOut_commits] at h
    exact absurd rfl h
  | @acknowledged command transaction env _ _ _ _ hstep =>
    obtain ⟨hresolved, hplain⟩ := hack hstep h
    refine ⟨hresolved, fun command' transaction' env' heq => ?_⟩
    rw [Action.acknowledge.injEq] at heq
    rw [← heq.2.1]
    cases transaction with
    | none => rfl
    | some bridge => exact absurd hplain (by simp)
  | deadLettered _ _ hstep => exact ⟨(hack hstep h).1, fun _ _ _ heq => by simp at heq⟩
  | @repositioned command env target => exact absurd rfl (not_moved command env)
  | _ => exact absurd rfl h

end KafkaConsumerEngine

/-! ### What an acknowledgement stages -/

/-- Nothing is staged on the bridge, for no group. -/
structure KafkaTransactionBridge.Blank (bridge : KafkaTransactionBridge) : Prop where
  groupKey : bridge.groupKey = none
  offsets : bridge.offsets = .empty

/-- What is staged is staged for a group. -/
def KafkaTransactionBridge.Keyed (bridge : KafkaTransactionBridge) : Prop :=
  bridge.groupKey = none → bridge.offsets = .empty

/-- The bridge has this offset staged for the group. -/
structure KafkaTransactionBridge.Holds (bridge : KafkaTransactionBridge) (key topic : String)
    (p next : ℕ) : Prop where
  groupKey : bridge.groupKey = some key
  offset : bridge.offsets.get? (topic, p) = some next

theorem KafkaTransactionBridge.Blank.keyed {bridge : KafkaTransactionBridge} (h : bridge.Blank) :
    bridge.Keyed := fun _ => h.offsets

theorem KafkaTransactionBridge.Blank.not_holds {bridge : KafkaTransactionBridge} (h : bridge.Blank)
    {key topic : String} {p next : ℕ} : ¬bridge.Holds key topic p next :=
  fun holds => absurd (h.groupKey.symm.trans holds.groupKey) (by simp)

namespace SessionAck

variable {Token : Type} {engine : KafkaConsumerEngine Token} {ack : SessionAck Token}

/-- The member that an acknowledgement with a valid token finds and leaves. -/
theorem after_of_valid {m : Member} {c : DeliveryCoordinates}
    (member : ack.runtime.states.get? ack.command.group = some m)
    (transactional : ack.transactional = true)
    (valid : engine.ValidToken m ack.command ack.env.nowMs c) :
    (ack.after engine).states.get? ack.command.group =
        some (engine.acknowledge m ack.command (some ack.runtime.transactionBridge) ack.env).2.1 ∧
      (ack.after engine).transactionBridge =
        if m.original c.partition c.offset < (m.contiguous c.partition c.offset).1 then
          (ack.runtime.transactionBridge.stageOffset ack.command.consumerGroup.ref.str
            ack.env.consumerGroupMetadata ack.command.stream.topic c.partition
            (m.contiguous c.partition c.offset).1).2
        else ack.runtime.transactionBridge := by
  unfold after
  rw [transactional, KafkaAdapterRuntime.acknowledge_of_member engine _ member]
  dsimp only
  rw [if_pos rfl]
  refine ⟨Dict.get?_set_self .., ?_⟩
  rw [valid.transaction_eq]
  rfl

variable (engine ack) in
/-- An acknowledgement in a transaction stages, and settles its record, or leaves what
the bridge holds; the bridge stays keyed. -/
theorem stages_or_holds (keyed : ack.runtime.transactionBridge.Keyed)
    (transactional : ack.transactional = true) :
    (ack.after engine).transactionBridge.Keyed ∧
      ∀ key topic p next, (ack.after engine).transactionBridge.Holds key topic p next →
        ack.runtime.transactionBridge.Holds key topic p next ∨
          ack.command.consumerGroup.ref.str = key ∧ ack.Stages engine topic p next ∧
            ∃ o, ack.Settles engine ack.command.group p o := by
  -- An acknowledgement that is refused leaves the bridge.
  have hleft : (ack.after engine).transactionBridge = ack.runtime.transactionBridge →
      (ack.after engine).transactionBridge.Keyed ∧
        ∀ key topic p next, (ack.after engine).transactionBridge.Holds key topic p next →
          ack.runtime.transactionBridge.Holds key topic p next ∨
            ack.command.consumerGroup.ref.str = key ∧ ack.Stages engine topic p next ∧
              ∃ o, ack.Settles engine ack.command.group p o := by
    intro heq
    rw [heq]
    exact ⟨keyed, fun _ _ _ _ => Or.inl⟩
  cases hm : ack.runtime.states.get? ack.command.group with
  | none =>
    refine hleft ?_
    unfold after
    rw [KafkaAdapterRuntime.acknowledge_of_absent engine _ hm]
  | some m =>
  by_cases hvalid : ∃ c, engine.ValidToken m ack.command ack.env.nowMs c
  swap
  · refine hleft ?_
    obtain ⟨raised, hrefused⟩ := engine.acknowledge_of_invalid ack.command
      (some ack.runtime.transactionBridge) ack.env (not_exists.mp hvalid)
    unfold after
    rw [transactional, KafkaAdapterRuntime.acknowledge_of_member engine _ hm]
    dsimp only
    rw [if_pos rfl, hrefused]
    rfl
  obtain ⟨c, hvalid⟩ := hvalid
  obtain ⟨hmember, hbridge⟩ := after_of_valid hm transactional hvalid
  by_cases hadv : m.original c.partition c.offset < (m.contiguous c.partition c.offset).1
  swap
  · rw [if_neg hadv] at hbridge
    exact hleft hbridge
  rw [if_pos hadv] at hbridge
  -- The safe offset advances: the offset is staged, or staging raises.
  unfold KafkaTransactionBridge.stageOffset at hbridge
  split at hbridge
  · exact hleft hbridge
  next hactive =>
  split at hbridge
  · exact hleft hbridge
  next hgroup =>
  cases hmetadata : ack.env.consumerGroupMetadata with
  | error raised =>
    rw [hmetadata] at hbridge
    rw [hbridge]
    refine ⟨fun hnone => by simp at hnone, fun key topic p next holds => Or.inl ?_⟩
    obtain ⟨hkey, hoffset⟩ := holds
    refine ⟨?_, hoffset⟩
    -- Something is staged already, so there was a key, and it was this one.
    by_contra hne
    have hnone : ack.runtime.transactionBridge.groupKey = none := by
      by_contra hsome
      refine hgroup ?_
      have hne' : ack.runtime.transactionBridge.groupKey ≠
          some ack.command.consumerGroup.ref.str := fun heq => hne (heq.trans hkey)
      simp [Option.isSome_iff_ne_none.mpr hsome, hne']
    rw [keyed hnone] at hoffset
    simp at hoffset
  | ok metadata =>
    rw [hmetadata] at hbridge
    dsimp only at hbridge
    have hkeyof : (ack.after engine).transactionBridge.groupKey =
        some ack.command.consumerGroup.ref.str := by rw [hbridge]
    have hoffsetsof : (ack.after engine).transactionBridge.offsets =
        ack.runtime.transactionBridge.offsets.set (ack.command.stream.topic, c.partition)
          (max (m.contiguous c.partition c.offset).1
            (ack.runtime.transactionBridge.offsets.getD
              (ack.command.stream.topic, c.partition) 0)) := by rw [hbridge]
    refine ⟨fun hnone => absurd (hnone.symm.trans hkeyof) (by simp),
      fun key topic p next holds => ?_⟩
    obtain ⟨hkey, hoffset⟩ := holds
    obtain rfl : ack.command.consumerGroup.ref.str = key :=
      Option.some.inj (hkeyof.symm.trans hkey)
    by_cases hheld : ack.runtime.transactionBridge.offsets.get? (topic, p) = some next
    · refine Or.inl ⟨?_, hheld⟩
      by_contra hne
      have hnone : ack.runtime.transactionBridge.groupKey = none := by
        by_contra hsome
        refine hgroup ?_
        simp [Option.isSome_iff_ne_none.mpr hsome, hne]
      rw [keyed hnone] at hheld
      simp at hheld
    · refine Or.inr ⟨rfl, ⟨transactional, hoffset, hheld⟩, ?_⟩
      rw [hoffsetsof, Dict.get?_set] at hoffset
      split at hoffset
      swap
      · exact absurd hoffset hheld
      next heq =>
      obtain ⟨rfl, rfl⟩ := Prod.mk.inj heq
      refine ⟨c.offset, rfl, m, _, hm, hmember, ?_⟩
      -- Staging returned, so the acknowledgement went on to settle the delivery.
      have hreturns : ¬KafkaConsumerEngine.MoveFails m ack.command c
          (some ack.runtime.transactionBridge) ack.env := by
        rw [KafkaConsumerEngine.moveFails_some]
        rintro ⟨raised, hraised⟩
        unfold KafkaTransactionBridge.stageOffset at hraised
        rw [if_neg hactive, if_neg hgroup, hmetadata] at hraised
        simp at hraised
      have hstep := KafkaConsumerEngine.acknowledgeDelivery_step ack.command
        (some ack.runtime.transactionBridge) ack.env hvalid.accepted rfl
      rw [hvalid.acknowledge_eq]
      generalize (KafkaConsumerEngine.acknowledgeDelivery m ack.command c
        (some ack.runtime.transactionBridge) ack.env).2.1.ledger c.partition = L at hstep ⊢
      cases hstep with
      | failed _ raises => exact absurd raises hreturns
      | moved => rfl
      | collected waits => exact absurd hadv (not_lt.mpr waits)

end SessionAck

/-! ### What a call does to the bridge -/

namespace KafkaTransactionBridge

variable (bridge : KafkaTransactionBridge)

theorem blank_finish : bridge.finish.Blank := ⟨rfl, rfl⟩

/-- `begin` leaves the bridge, or starts with nothing staged. -/
theorem begin_blank (beginTransaction emit : Option Raised) :
    (bridge.begin beginTransaction emit).2 = bridge ∨
      (bridge.begin beginTransaction emit).2.Blank := by
  unfold KafkaTransactionBridge.begin
  split
  · exact Or.inl rfl
  cases beginTransaction with
  | some raised => exact Or.inl rfl
  | none => cases emit <;> exact Or.inr ⟨rfl, rfl⟩

/-- `abort` leaves an inactive bridge, and nothing staged otherwise. -/
theorem abort_blank (abortTransaction emit : Option Raised) :
    (bridge.abort abortTransaction emit).2 = bridge ∧ bridge.active = false ∨
      (bridge.abort abortTransaction emit).2.Blank := by
  unfold KafkaTransactionBridge.abort
  split
  · next hactive => exact Or.inl ⟨rfl, by simpa using hactive⟩
  · split <;> exact Or.inr bridge.blank_finish

/-- `commit` leaves an inactive bridge, and nothing staged otherwise. -/
theorem commit_blank (env : CommitEnv) :
    (bridge.commit env).2.1 = bridge ∧ bridge.active = false ∨ (bridge.commit env).2.1.Blank := by
  obtain ⟨inactive, raised, heq⟩ | ⟨-, -, raised, heq⟩ | ⟨-, -, answer, heq, -⟩ :=
    bridge.commit_cases env <;> rw [heq]
  · exact Or.inl ⟨rfl, inactive⟩
  · exact Or.inr bridge.blank_finish
  · exact Or.inr bridge.blank_finish

end KafkaTransactionBridge

namespace KafkaAdapterSession

variable (session : KafkaAdapterSession) (runtime : KafkaAdapterRuntime)

/-- Giving up leaves the bridge as the abort of its own transaction does. -/
theorem abandon_transactionBridge {α : Type} (owns : Bool) (raised : Raised)
    (env : SessionRollbackEnv) :
    (session.abandon (α := α) runtime owns raised env).runtime.transactionBridge =
      if owns && runtime.transactionBridge.active then
        (runtime.transactionBridge.abort env.abortTransaction env.emit).2
      else runtime.transactionBridge := by
  unfold abandon
  split
  · next heq =>
    split at heq
    · next hcond => rw [if_pos hcond, heq]
    · simp at heq
  · next bridge heq =>
    -- Recovering the groups leaves what the abort has left.
    have hbridge := KafkaAdapterRuntime.recoverTouchedGroups_bridge env.recover
      session.touchedGroups { runtime with transactionBridge := bridge }
    have hresult : bridge = if owns && runtime.transactionBridge.active then
        (runtime.transactionBridge.abort env.abortTransaction env.emit).2
        else runtime.transactionBridge := by
      split at heq
      · next hcond => rw [if_pos hcond, heq]
      · next hcond =>
        rw [if_neg hcond]
        exact (Prod.mk.inj heq).2.symm
    rw [← hresult]
    split <;> next hrecover => rw [hrecover] at hbridge; exact hbridge

/-- What giving up leaves on the bridge. -/
theorem abandon_blank {α : Type} (owns : Bool) (raised : Raised) (env : SessionRollbackEnv) :
    (session.abandon (α := α) runtime owns raised env).runtime.transactionBridge =
        runtime.transactionBridge ∧ (owns = true → runtime.transactionBridge.active = false) ∨
      (session.abandon (α := α) runtime owns raised env).runtime.transactionBridge.Blank := by
  rw [abandon_transactionBridge]
  split
  · next hcond =>
    rw [Bool.and_eq_true] at hcond
    rcases runtime.transactionBridge.abort_blank env.abortTransaction
      env.emit with ⟨-, hinactive⟩ | hblank
    · exact absurd (hcond.2.symm.trans hinactive) (by simp)
    · exact Or.inr hblank
  · next hcond => exact Or.inl ⟨rfl, fun howns => by simpa [howns] using hcond⟩

theorem commit_effect (env : SessionCommitEnv) :
    ((session.commit runtime env).runtime.transactionBridge = runtime.transactionBridge ∨
      (session.commit runtime env).runtime.transactionBridge.Blank) ∧
      ∀ tx, (session.commit runtime env).transaction = some tx →
        tx = ⟨runtime.transactionBridge.groupKey, runtime.transactionBridge.offsets⟩ := by
  by_cases hbegun : session.ensureOpen = none ∧ session.active
  swap
  · obtain ⟨-, hruntime, htransaction⟩ := session.commit_of_inactive runtime env hbegun
    exact ⟨Or.inl (by rw [hruntime]), fun tx htx => absurd (htransaction.symm.trans htx) (by simp)⟩
  have hblank := (runtime.transactionBridge.commit_blank env.commit).imp_left And.left
  obtain ⟨htransaction, hruntime⟩ := session.commit_of_active runtime env hbegun.1 hbegun.2
  refine ⟨?_, fun tx htx => ?_⟩
  · obtain ⟨-, heq⟩ | heq := hruntime <;> rw [heq]
    · exact hblank
    · rw [KafkaAdapterRuntime.recoverTouchedGroups_bridge]
      exact hblank
  · -- What the broker applies is what the bridge has staged.
    rw [htransaction] at htx
    obtain ⟨offsets, happlied, rfl⟩ := Option.map_eq_some_iff.mp htx
    rw [KafkaTransactionBridge.commit_applied happlied]

theorem rollback_effect (env : SessionRollbackEnv) :
    (session.rollback runtime env).runtime.transactionBridge = runtime.transactionBridge ∨
      (session.rollback runtime env).runtime.transactionBridge.Blank := by
  by_cases hbegun : session.ensureOpen = none ∧ session.active
  swap
  · exact Or.inl (by rw [(session.rollback_of_inactive runtime env hbegun).2])
  have hblank := runtime.transactionBridge.abort_blank env.abortTransaction env.emit
  rw [(session.rollback_of_active runtime env hbegun.1 hbegun.2).1,
    KafkaAdapterRuntime.recoverTouchedGroups_bridge]
  exact hblank.imp_left And.left

theorem begin_effect (env : SessionBeginEnv) :
    (session.begin runtime env).runtime.transactionBridge = runtime.transactionBridge ∨
      (session.begin runtime env).runtime.transactionBridge.Blank := by
  unfold begin
  split
  · exact Or.inl rfl
  split
  · exact Or.inl rfl
  split
  · exact Or.inl rfl
  have hblank := runtime.transactionBridge.begin_blank env.beginTransaction env.emit
  split <;> next hbegin => rw [hbegin] at hblank; exact hblank

variable {Token : Type} (engine : KafkaConsumerEngine Token)

/-- A consume-publish that comes to its acknowledgement leaves on the bridge what the
acknowledgement does, or nothing; what it commits was on the bridge then. -/
theorem executeTransactional_effect (s : RuntimeSessions) (i : ℕ)
    (command : TransactionalConsumePublishCommand Token) (env : ConsumePublishEnv) :
    let result := (s.sessions i).executeTransactional s.runtime engine command env
    (sessionAck (s, .executeTransactional i command env) = none ∧
      (result.runtime.transactionBridge = s.runtime.transactionBridge ∨
        result.runtime.transactionBridge.Blank) ∧ result.transaction = none) ∨
    ∃ ack, sessionAck (s, .executeTransactional i command env) = some ack ∧
      ack.command = command.ackCommand ∧ ack.transactional = true ∧
      ack.runtime.states = s.runtime.states ∧
      (ack.runtime.transactionBridge = s.runtime.transactionBridge ∨
        ack.runtime.transactionBridge.Blank) ∧
      (result.runtime.transactionBridge = (ack.after engine).transactionBridge ∨
        result.runtime.transactionBridge.Blank) ∧
      ∀ tx, result.transaction = some tx →
        tx = ⟨(ack.after engine).transactionBridge.groupKey,
          (ack.after engine).transactionBridge.offsets⟩ := by
  dsimp only
  unfold executeTransactional
  dsimp only [sessionAck]
  cases hbegun : (s.sessions i).ensureBegun with
  | some raised => exact Or.inl ⟨rfl, Or.inl rfl, rfl⟩
  | none =>
  dsimp only
  -- A session that is active goes on with its transaction; the call of another one begins and
  -- commits its own.
  cases hactive : (s.sessions i).active with
  | true =>
    rw [Bool.not_true, if_neg Bool.false_ne_true, if_pos rfl]
    dsimp only
    unfold KafkaAdapterRuntime.consumePublish
    cases hpublish : s.runtime.publishOutputs command.outputs env with
    -- What raises before the acknowledgement abandons the transaction, or leaves the bridge as it
    -- is.
    | error raised =>
      dsimp only
      refine Or.inl ⟨rfl, ?_, ?_⟩
      · exact (abandon_blank _ s.runtime false raised env.rollback).imp_left And.left
      · exact abandon_transaction _ s.runtime false raised env.rollback
    | ok receipts =>
      dsimp only
      refine Or.inr ⟨_, rfl, rfl, rfl, rfl, Or.inl rfl, ?_, ?_⟩
      all_goals
        unfold SessionAck.after
        dsimp only
        rcases s.runtime.acknowledge engine command.ackCommand true env.acknowledge with
          ⟨raised | acknowledged, runtime'⟩
      · exact (abandon_blank _ runtime' false raised env.rollback).imp_left And.left
      · exact Or.inl rfl
      · intro tx htx
        rw [show _ = none from abandon_transaction _ runtime' false raised env.rollback] at htx
        simp at htx
      · intro tx htx
        simp at htx
  | false =>
    rw [Bool.not_false, if_pos rfl, if_neg Bool.false_ne_true]
    have hblank := s.runtime.transactionBridge.begin_blank env.begin.beginTransaction
      env.begin.emit
    rcases hbegin : s.runtime.transactionBridge.begin env.begin.beginTransaction
      env.begin.emit with ⟨raised | ⟨⟨⟩⟩, bridge⟩ <;> rw [hbegin] at hblank
    · exact Or.inl ⟨rfl, hblank, rfl⟩
    obtain ⟨-, rfl⟩ := KafkaTransactionBridge.begin_ok hbegin
    dsimp only
    unfold KafkaAdapterRuntime.consumePublish
    cases hpublish : KafkaAdapterRuntime.publishOutputs
      { s.runtime with transactionBridge := { active := true, lease := true } } command.outputs
      env with
    | error raised =>
      dsimp only
      refine Or.inl ⟨rfl, Or.inr ?_, ?_⟩
      · exact (abandon_blank _ _ true raised env.rollback).resolve_left
          fun hsame => absurd (hsame.2 rfl) (by simp)
      · exact abandon_transaction _ _ true raised env.rollback
    | ok receipts =>
      dsimp only
      -- The outputs are published, and the acknowledgement finds the bridge that was begun.
      refine Or.inr ⟨_, rfl, rfl, rfl, rfl, Or.inr ⟨rfl, rfl⟩, ?_, ?_⟩
      all_goals
        unfold SessionAck.after
        dsimp only
        rcases KafkaAdapterRuntime.acknowledge
          { s.runtime with transactionBridge := { active := true, lease := true } } engine
          command.ackCommand true env.acknowledge with ⟨raised | acknowledged, runtime'⟩
      · exact (abandon_blank _ runtime' true raised env.rollback).imp_left And.left
      · dsimp only
        rw [if_pos rfl]
        have hblank := runtime'.transactionBridge.commit_blank env.commit
        rcases hcommit : runtime'.transactionBridge.commit env.commit with
          ⟨raised | ⟨⟨⟩⟩, bridge, applied⟩ <;> rw [hcommit] at hblank
        · refine (abandon_blank _ _ true raised env.rollback).elim (fun hsame => ?_) Or.inr
          dsimp only at hsame ⊢
          rw [hsame.1]
          exact hblank.imp_left And.left
        · exact hblank.imp_left And.left
      · intro tx htx
        rw [show _ = none from abandon_transaction _ runtime' true raised env.rollback] at htx
        simp at htx
      · intro tx htx
        dsimp only at htx
        rw [if_pos rfl] at htx
        -- What the brokers have taken are the offsets that the acknowledgement has staged.
        have happlied : ∀ offsets,
            (runtime'.transactionBridge.commit env.commit).2.2 = some offsets →
            offsets = runtime'.transactionBridge.offsets :=
          fun _ => KafkaTransactionBridge.commit_applied
        rcases hcommit : runtime'.transactionBridge.commit env.commit with
          ⟨raised | ⟨⟨⟩⟩, bridge, applied⟩ <;>
        · rw [hcommit] at happlied htx
          obtain ⟨offsets, hoffsets, rfl⟩ := Option.map_eq_some_iff.mp htx
          rw [happlied offsets hoffsets]

end KafkaAdapterSession

/-! ### What a call does, in a run -/

namespace KafkaConsumerEngine

variable {Token : Type} (engine : KafkaConsumerEngine Token) {logs : GroupRef → PartitionLog}
  {s : RuntimeSessions} {g : GroupRef} {p o : ℕ}

/-- The call stages this offset for the group with an acknowledgement that settles its
record. -/
def StagedBy (key topic : String) (p next : ℕ) (x : RuntimeSessions × SessionCall Token) : Prop :=
  ∃ ack ∈ sessionAck x, ack.command.consumerGroup.ref.str = key ∧
    ack.Stages engine topic p next ∧ ∃ o, ack.Settles engine ack.command.group p o

/-- What is staged after a call, or committed by it, was staged before, or the call has
staged it. -/
theorem holds_of_share (call : SessionCall Token) (keyed : s.runtime.transactionBridge.Keyed) :
    (engine.share s call).runtime.transactionBridge.Keyed ∧
      (∀ key topic p next,
        (engine.share s call).runtime.transactionBridge.Holds key topic p next →
          s.runtime.transactionBridge.Holds key topic p next ∨
            engine.StagedBy key topic p next (s, call)) ∧
      ∀ tx, engine.committedTransaction (s, call) = some tx → ∀ key topic p next,
        tx.group = some key → tx.offsets.get? (topic, p) = some next →
          s.runtime.transactionBridge.Holds key topic p next ∨
            engine.StagedBy key topic p next (s, call) := by
  -- A call that stages nothing leaves the bridge or clears it.
  have hleft : ∀ bridge : KafkaTransactionBridge,
      bridge = s.runtime.transactionBridge ∨ bridge.Blank →
      bridge.Keyed ∧ ∀ key topic p next, bridge.Holds key topic p next →
        s.runtime.transactionBridge.Holds key topic p next ∨
          engine.StagedBy key topic p next (s, call) := by
    rintro bridge (rfl | hblank)
    · exact ⟨keyed, fun _ _ _ _ => Or.inl⟩
    · exact ⟨hblank.keyed, fun _ _ _ _ holds => absurd holds hblank.not_holds⟩
  have hnone : engine.committedTransaction (s, call) = none →
      ∀ tx, engine.committedTransaction (s, call) = some tx → ∀ key topic p next,
        tx.group = some key → tx.offsets.get? (topic, p) = some next →
          s.runtime.transactionBridge.Holds key topic p next ∨
            engine.StagedBy key topic p next (s, call) :=
    fun hnone tx htx => absurd (hnone.symm.trans htx) (by simp)
  cases call with
  | join poll partitions =>
    have hbridge : (engine.share s (.join poll partitions)).runtime.transactionBridge =
        s.runtime.transactionBridge := by
      unfold share
      dsimp only
      split <;> rfl
    exact ⟨(hleft _ (Or.inl hbridge)).1, (hleft _ (Or.inl hbridge)).2, hnone rfl⟩
  | operate group action =>
    have hbridge : (engine.share s (.operate group action)).runtime.transactionBridge =
        s.runtime.transactionBridge := by
      unfold share
      dsimp only
      split <;> rfl
    exact ⟨(hleft _ (Or.inl hbridge)).1, (hleft _ (Or.inl hbridge)).2, hnone rfl⟩
  | begin i env =>
    have hbridge := (s.sessions i).begin_effect s.runtime env
    exact ⟨(hleft _ hbridge).1, (hleft _ hbridge).2, hnone rfl⟩
  | acknowledge i command env =>
    have hshare : (engine.share s (.acknowledge i command env)).runtime =
        ((s.sessions i).acknowledge s.runtime engine command env).runtime := rfl
    rw [hshare]
    unfold KafkaAdapterSession.acknowledge
    cases hbegun : (s.sessions i).ensureBegun with
    | some raised => exact ⟨(hleft _ (Or.inl rfl)).1, (hleft _ (Or.inl rfl)).2, hnone rfl⟩
    | none =>
    dsimp only
    cases hactive : (s.sessions i).active with
    | false =>
      have hbridge := s.runtime.acknowledge_bridge_of_plain engine command env
      exact ⟨(hleft _ (Or.inl hbridge)).1, (hleft _ (Or.inl hbridge)).2, hnone rfl⟩
    | true =>
      let ack : SessionAck Token := ⟨s.runtime, command, true, env⟩
      have hack : sessionAck (s, .acknowledge i command env) = some ack := by
        dsimp only [sessionAck]
        rw [hbegun, hactive]
      have hstages := SessionAck.stages_or_holds engine ack keyed rfl
      refine ⟨hstages.1, fun key topic p next holds => ?_, hnone rfl⟩
      exact (hstages.2 key topic p next holds).imp_right fun h => ⟨ack, hack, h⟩
  | executeTransactional i command env =>
    rcases KafkaAdapterSession.executeTransactional_effect engine s i command env with
      ⟨-, hbridge, htransaction⟩ |
      ⟨ack, hack, -, htransactional, -, hfound, hbridge, htransaction⟩
    · exact ⟨(hleft _ hbridge).1, (hleft _ hbridge).2, hnone htransaction⟩
    · have hstages := SessionAck.stages_or_holds engine ack (hleft _ hfound).1 htransactional
      -- What the acknowledgement found was there before, and what it left it has staged.
      have hafter : ∀ key topic p next,
          (ack.after engine).transactionBridge.Holds key topic p next →
          s.runtime.transactionBridge.Holds key topic p next ∨
            engine.StagedBy key topic p next (s, .executeTransactional i command env) :=
        fun key topic p next holds => (hstages.2 key topic p next holds).elim
          ((hleft _ hfound).2 key topic p next) fun h => Or.inr ⟨ack, hack, h⟩
      refine ⟨?_, fun key topic p next holds => ?_, fun tx htx key topic p next hkey hnext => ?_⟩
      · rcases hbridge with heq | hblank
        · exact heq ▸ hstages.1
        · exact hblank.keyed
      · rcases hbridge with heq | hblank
        · exact hafter key topic p next (heq ▸ holds)
        · exact absurd holds hblank.not_holds
      · obtain rfl := htransaction tx htx
        exact hafter key topic p next ⟨hkey, hnext⟩
  | commit i env =>
    obtain ⟨hbridge, htransaction⟩ := (s.sessions i).commit_effect s.runtime env
    refine ⟨(hleft _ hbridge).1, (hleft _ hbridge).2, fun tx htx key topic p next hkey hnext => ?_⟩
    obtain rfl := htransaction tx htx
    exact Or.inl ⟨hkey, hnext⟩
  | rollback i env =>
    have hbridge := (s.sessions i).rollback_effect s.runtime env
    exact ⟨(hleft _ hbridge).1, (hleft _ hbridge).2, hnone rfl⟩

variable {engine}

/-- The calls that come to an acknowledgement, and how it finds the runtime. -/
theorem sessionAck_cases {call : SessionCall Token} {ack : SessionAck Token}
    (h : sessionAck (s, call) = some ack) :
    (∃ i env, call = .acknowledge i ack.command env ∧ ack.runtime = s.runtime) ∨
      ∃ i command env bridge, call = .executeTransactional i command env ∧
        ack.command = command.ackCommand ∧
          ack.runtime = { s.runtime with transactionBridge := bridge } := by
  cases call with
  | acknowledge i command env =>
    dsimp only [sessionAck] at h
    split at h
    · simp at h
    · obtain rfl := Option.some.inj h
      exact Or.inl ⟨i, env, rfl, rfl⟩
  | executeTransactional i command env =>
    -- to begin and to publish come before the acknowledgement, and either may raise
    dsimp only [sessionAck] at h
    split at h
    · simp at h
    split at h
    · simp at h
    split at h
    · simp at h
    · obtain rfl := Option.some.inj h
      exact Or.inr ⟨i, command, env, _, rfl, rfl, rfl⟩
  | _ => simp [sessionAck] at h

/-- The acknowledgement of a call finds the members of the runtime. -/
theorem sessionAck_states {call : SessionCall Token} {ack : SessionAck Token}
    (h : sessionAck (s, call) = some ack) : ack.runtime.states = s.runtime.states := by
  rcases sessionAck_cases h with ⟨_, _, -, hruntime⟩ | ⟨_, _, _, _, -, -, hruntime⟩
  · rw [hruntime]
  · rw [hruntime]

/-- Before a call settles a record, the record is in flight. -/
theorem inflight_of_settlesIn {call : SessionCall Token} (may : MayCall logs s call)
    (h : engine.SettlesIn g p o (s, call)) :
    ∃ m i, s.runtime.states.get? g = some m ∧ (m.ledger p).inflight o = some i := by
  -- a delivery is settled by an acknowledgement of a session or by an action outside of one
  rcases h with ⟨ack, hack, rfl, m, m', hm, hm', hresolved⟩ | ⟨m, action, hcall, hm, hresolved⟩
  · rw [sessionAck_states hack] at hm
    have hacknowledges : ack.runtime.Acknowledges engine ack.transactional (ack.after engine) :=
      KafkaAdapterRuntime.acknowledge_acknowledges ack.command ack.transactional ack.env
    rcases hacknowledges _ m' hm' with hsame | ⟨m₀, command, transaction, env, hm₀, -, rfl⟩
    · rw [sessionAck_states hack] at hsame
      obtain rfl := Option.some.inj (hm.symm.trans hsame)
      exact absurd (congrArg List.length hresolved) (by simp)
    · rw [sessionAck_states hack] at hm₀
      obtain rfl := Option.some.inj (hm.symm.trans hm₀)
      obtain ⟨i, hi⟩ := Option.isSome_iff_exists.mp
        ((engine.acknowledge_step (logs ack.command.group) command transaction
          env).inflight_of_resolved hresolved)
      exact ⟨m, i, hm, hi⟩
  · obtain rfl : call = .operate g action := hcall
    obtain ⟨i, hi⟩ := Option.isSome_iff_exists.mp
      ((engine.next_step (logs g) (may.2 m hm)).inflight_of_resolved hresolved)
    exact ⟨m, i, hm, hi⟩

/-- What is in flight after a call was so before, or the call has handed it out. -/
theorem inflight_of_share {call : SessionCall Token} (may : MayCall logs s call) {m' : Member}
    {i : Inflight} (hm' : (engine.share s call).runtime.states.get? g = some m')
    (hi : (m'.ledger p).inflight o = some i) :
    (∃ m i, s.runtime.states.get? g = some m ∧ (m.ledger p).inflight o = some i) ∨
      engine.HandsOutTo g p o (s, call) := by
  have hsubset : s.runtime.states.get? g = some m' →
      ∃ m i, s.runtime.states.get? g = some m ∧ (m.ledger p).inflight o = some i :=
    fun hm => ⟨m', i, hm, hi⟩
  -- An acknowledgement puts nothing in flight.
  have hack : ∀ {transactional : Bool} {runtime' : KafkaAdapterRuntime},
      s.runtime.Acknowledges engine transactional runtime' → runtime'.states.get? g = some m' →
      ∃ m i, s.runtime.states.get? g = some m ∧ (m.ledger p).inflight o = some i := by
    intro transactional runtime' hacknowledges hm'
    rcases hacknowledges g m' hm' with hm | ⟨m, command, transaction, env, hm, -, rfl⟩
    · exact hsubset hm
    · rcases (engine.acknowledge_step (logs g) command transaction env).inflight_of hi with
        hold | ⟨message, env', heq, -⟩
      · obtain ⟨i, hi⟩ := Option.isSome_iff_exists.mp hold
        exact ⟨m, i, hm, hi⟩
      · simp at heq
  cases call with
  | join poll partitions =>
    unfold share at hm'
    dsimp only at hm'
    split at hm'
    · exact Or.inl (hsubset hm')
    · change (s.runtime.states.set poll.group (.joined poll partitions)).get? g = some m' at hm'
      rw [Dict.get?_set] at hm'
      split at hm'
      · obtain rfl := Option.some.inj hm'
        exact absurd hi (by simp [Member.ledger_joined, Ledger.empty])
      · exact Or.inl (hsubset hm')
  | operate group action =>
    unfold share at hm'
    dsimp only at hm'
    split at hm'
    · exact Or.inl (hsubset hm')
    next m hm =>
    change (s.runtime.states.set group (engine.next m action)).get? g = some m' at hm'
    rw [Dict.get?_set] at hm'
    split at hm'
    swap
    · exact Or.inl (hsubset hm')
    next heq =>
    obtain rfl := heq
    obtain rfl := Option.some.inj hm'
    rcases (engine.next_step (logs g) (may.2 m hm)).inflight_of hi with
      hold | ⟨message, env, rfl, hpartition, hoffset⟩
    · obtain ⟨i, hi⟩ := Option.isSome_iff_exists.mp hold
      exact Or.inl ⟨m, i, hm, hi⟩
    · rcases receive_cases engine m (.record message) env with
        ⟨-, hinflight, -⟩ | ⟨message', d, hsame, hsome, hout⟩
      · have hget : (engine.receive m (.record message) env).2.state.inflight.get? (p, o) =
            some i := hi
        rw [hinflight] at hget
        exact Or.inl ⟨m, i, hm, hget⟩
      · obtain rfl : message = message' := by simpa using hsame
        obtain rfl := hpartition
        obtain rfl := hoffset
        exact Or.inr ⟨rfl, m, d, hm, hsome, hout.here⟩
  | begin j env =>
    change ((s.sessions j).begin s.runtime env).runtime.states.get? g = some m' at hm'
    rw [KafkaAdapterSession.begin_states] at hm'
    exact Or.inl (hsubset hm')
  | acknowledge j command env =>
    exact Or.inl (hack ((s.sessions j).acknowledge_acknowledges engine s.runtime command env) hm')
  | executeTransactional j command env =>
    exact Or.inl (hack ((s.sessions j).executeTransactional_acknowledges engine s.runtime command
      env) hm')
  | commit j env => exact Or.inl (hsubset ((s.sessions j).get?_commit s.runtime env g m' hm'))
  | rollback j env => exact Or.inl (hsubset ((s.sessions j).get?_rollback s.runtime env g m' hm'))

/-- A call after which the member has committed settles a record of the group, unless it
moves the group by hand. -/
theorem settlesIn_of_commits {call : SessionCall Token} (may : MayCall logs s call)
    (not_moved : ¬call.Repositions g) {m m' : Member} (hm : s.runtime.states.get? g = some m)
    (hm' : (engine.share s call).runtime.states.get? g = some m')
    (commits : (m'.ledger p).commits ≠ (m.ledger p).commits) :
    ∃ o, engine.SettlesIn g p o (s, call) := by
  have hsubset : s.runtime.states.get? g ≠ some m' := by
    intro hsame
    obtain rfl := Option.some.inj (hm.symm.trans hsame)
    exact commits rfl
  -- An acknowledgement that commits is one without a transaction, and it resolves a record.
  have hack : ∀ {transactional : Bool} {runtime' : KafkaAdapterRuntime},
      s.runtime.Acknowledges engine transactional runtime' → runtime'.states.get? g = some m' →
      transactional = false ∧ ∃ o, (m'.ledger p).resolved = o :: (m.ledger p).resolved := by
    intro transactional runtime' hacknowledges hm'
    rcases hacknowledges g m' hm' with hsame | ⟨m₀, command, transaction, env, hm₀, htransaction,
      rfl⟩
    · exact absurd hsame hsubset
    · obtain rfl := Option.some.inj (hm.symm.trans hm₀)
      obtain ⟨hresolved, hplain⟩ := (engine.acknowledge_step (logs g) command transaction
        env).resolved_of_commits commits fun _ _ heq => by simp at heq
      obtain rfl := hplain command transaction env rfl
      exact ⟨htransaction.symm, hresolved⟩
  cases call with
  -- Joining a group adds a member where there was none.
  | join poll partitions =>
    unfold share at hm'
    dsimp only at hm'
    split at hm'
    · exact absurd hm' hsubset
    next hnew =>
    change (s.runtime.states.set poll.group (.joined poll partitions)).get? g = some m' at hm'
    rw [Dict.get?_set] at hm'
    split at hm'
    · next heq =>
      rw [← heq, hm] at hnew
      simp at hnew
    · exact absurd hm' hsubset
  | operate group action =>
    unfold share at hm'
    dsimp only at hm'
    split at hm'
    · exact absurd hm' hsubset
    next m₀ hm₀ =>
    change (s.runtime.states.set group (engine.next m₀ action)).get? g = some m' at hm'
    rw [Dict.get?_set] at hm'
    split at hm'
    swap
    · exact absurd hm' hsubset
    -- The action is one of the member of this group, and no reposition.
    next heq =>
    obtain rfl := heq
    obtain rfl := Option.some.inj hm'
    obtain rfl := Option.some.inj (hm.symm.trans hm₀)
    obtain ⟨⟨o, hresolved⟩, -⟩ := (engine.next_step (logs g)
      (may.2 m hm)).resolved_of_commits commits fun command env heq => by
        subst heq
        exact not_moved rfl
    exact ⟨o, Or.inr ⟨m, action, rfl, hm, hresolved⟩⟩
  | begin j env =>
    change ((s.sessions j).begin s.runtime env).runtime.states.get? g = some m' at hm'
    rw [KafkaAdapterSession.begin_states] at hm'
    exact absurd hm' hsubset
  | acknowledge j command env =>
    obtain ⟨hinactive, o, hresolved⟩ :=
      hack ((s.sessions j).acknowledge_acknowledges engine s.runtime command env) hm'
    change ((s.sessions j).acknowledge s.runtime engine command env).runtime.states.get? g =
      some m' at hm'
    unfold KafkaAdapterSession.acknowledge at hm'
    cases hbegun : (s.sessions j).ensureBegun with
    | some raised =>
      rw [hbegun] at hm'
      exact absurd hm' hsubset
    | none =>
      rw [hbegun] at hm'
      dsimp only at hm'
      refine ⟨o, Or.inl ⟨⟨s.runtime, command, (s.sessions j).active, env⟩, ?_, ?_, m, m', hm, hm',
        hresolved⟩⟩
      · dsimp only [sessionAck]
        rw [hbegun]
        rfl
      · -- Only the member of the command's group is another one.
        by_contra hne
        unfold KafkaAdapterRuntime.acknowledge at hm'
        split at hm'
        · exact hsubset hm'
        · dsimp only at hm'
          rw [Dict.get?_set, if_neg (Ne.symm hne)] at hm'
          exact hsubset hm'
  -- The acknowledgement of a consume-publish is always in a transaction, and commits nothing.
  | executeTransactional j command env =>
    exact absurd (hack ((s.sessions j).executeTransactional_acknowledges engine s.runtime command
      env) hm').1 (by simp)
  | commit j env => exact absurd ((s.sessions j).get?_commit s.runtime env g m' hm') hsubset
  | rollback j env => exact absurd ((s.sessions j).get?_rollback s.runtime env g m' hm') hsubset

/-! ### Since the transition -/

theorem StagesNew.settlesNew {topic : String} {next : ℕ}
    {steps : List (RuntimeSessions × SessionCall Token)}
    (h : engine.StagesNew g topic p next steps) : engine.SettlesNew g steps := by
  obtain ⟨before, x, after, rfl, ack, hack, -, o, hsettles, hout⟩ := h
  exact ⟨before, x, after, rfl, p, o, Or.inl ⟨ack, hack, hsettles⟩, hout⟩

theorem SettlesNew.append {steps : List (RuntimeSessions × SessionCall Token)}
    (h : engine.SettlesNew g steps) (later : List (RuntimeSessions × SessionCall Token)) :
    engine.SettlesNew g (steps ++ later) := by
  obtain ⟨before, x, after, rfl, hsettles⟩ := h
  exact ⟨before, x, after ++ later, by simp, hsettles⟩

theorem StagesNew.append {topic : String} {next : ℕ}
    {steps : List (RuntimeSessions × SessionCall Token)}
    (h : engine.StagesNew g topic p next steps)
    (later : List (RuntimeSessions × SessionCall Token)) :
    engine.StagesNew g topic p next (steps ++ later) := by
  obtain ⟨before, x, after, rfl, hstages⟩ := h
  exact ⟨before, x, after ++ later, by simp, hstages⟩

/-- Since the transition, what is in flight was handed out, and what is staged was
staged for such deliveries. -/
structure Renewed (engine : KafkaConsumerEngine Token) (g : GroupRef)
    (tr : List (RuntimeSessions × SessionCall Token)) (s : RuntimeSessions) : Prop where
  keyed : s.runtime.transactionBridge.Keyed
  inflight : ∀ m p o i, s.runtime.states.get? g = some m → (m.ledger p).inflight o = some i →
    ∃ z ∈ tr, engine.HandsOutTo g p o z
  staged : ∀ topic p next, s.runtime.transactionBridge.Holds g.2.str topic p next →
    engine.StagesNew g topic p next tr

/-- The compiler has checked the group of the acknowledgement that a call makes. -/
theorem sessionAck_compiled {groupOf : String → GroupRef} {call : SessionCall Token}
    {ack : SessionAck Token} (compiled : call.Compiled groupOf)
    (h : sessionAck (s, call) = some ack) :
    groupOf ack.command.consumerGroup.ref.str = ack.command.group := by
  rcases sessionAck_cases h with ⟨_, _, rfl, -⟩ | ⟨_, _, _, _, rfl, hcommand, -⟩
  · exact compiled
  · rw [hcommand]
    exact compiled

variable {tr : List (RuntimeSessions × SessionCall Token)} {groupOf : String → GroupRef}
  {call : SessionCall Token}

/-- A call that settles a record settles one that was handed out since. -/
theorem Renewed.handedOut (h : Renewed engine g tr s) (may : MayCall logs s call)
    (settles : engine.SettlesIn g p o (s, call)) : ∃ z ∈ tr, engine.HandsOutTo g p o z := by
  obtain ⟨m, i, hm, hi⟩ := inflight_of_settlesIn may settles
  exact h.inflight m p o i hm hi

/-- What is staged, or stages now, was staged since. -/
theorem Renewed.stagesNew (h : Renewed engine g tr s) (may : MayCall logs s call)
    (compiled : call.Compiled groupOf) (own : groupOf g.2.str = g) {topic : String} {next : ℕ}
    (holds : s.runtime.transactionBridge.Holds g.2.str topic p next ∨
      engine.StagedBy g.2.str topic p next (s, call)) :
    engine.StagesNew g topic p next (tr ++ [(s, call)]) := by
  rcases holds with hheld | ⟨ack, hack, hkey, hstages, o, hsettles⟩
  · exact (h.staged topic p next hheld).append _
  · have hgroup : ack.command.group = g := by
      rw [← sessionAck_compiled compiled hack, hkey, own]
    rw [hgroup] at hsettles
    exact ⟨tr, (s, call), [], rfl, ack, hack, hstages, o, hsettles,
      h.handedOut may (Or.inl ⟨ack, hack, hsettles⟩)⟩

/-- **One call** since the transition. -/
theorem Renewed.step (h : Renewed engine g tr s) (may : MayCall logs s call)
    (compiled : call.Compiled groupOf) (own : groupOf g.2.str = g) :
    Renewed engine g (tr ++ [(s, call)]) (engine.share s call) := by
  obtain ⟨hkeyed, hholds, -⟩ := engine.holds_of_share call h.keyed
  refine ⟨hkeyed, fun m' p o i hm' hi => ?_, fun topic p next holds => ?_⟩
  · rcases inflight_of_share may hm' hi with ⟨m, i, hm, hi⟩ | hout
    · obtain ⟨z, hz, hout⟩ := h.inflight m p o i hm hi
      exact ⟨z, List.mem_append_left _ hz, hout⟩
    · exact ⟨(s, call), List.mem_append_right _ List.mem_cons_self, hout⟩
  · exact h.stagesNew may compiled own (hholds _ topic p next holds)

/-- A call that puts the group anywhere acknowledges a delivery from since the
transition. -/
theorem Renewed.settlesNew (h : Renewed engine g tr s) (may : MayCall logs s call)
    (compiled : call.Compiled groupOf) (own : groupOf g.2.str = g)
    (not_moved : ¬call.Repositions g) {topic : String} {n : ℕ}
    (commits : engine.committedBy g topic p (s, call) = some n) :
    engine.SettlesNew g (tr ++ [(s, call)]) := by
  unfold committedBy at commits
  rw [Option.or_eq_some_iff] at commits
  rcases commits with hoffset | ⟨-, hcommit⟩
  -- an offset is committed with a transaction that stages it, or by a call outside of one
  · obtain ⟨tx, htx, hn⟩ := Option.bind_eq_some_iff.mp hoffset
    obtain ⟨htx, hkey⟩ := Option.filter_eq_some_iff.mp htx
    obtain ⟨-, -, htransaction⟩ := engine.holds_of_share call h.keyed
    exact (h.stagesNew may compiled own
      (htransaction tx htx _ topic p n (by simpa using hkey) hn)).settlesNew
  · dsimp only at hcommit
    split at hcommit
    swap
    · simp at hcommit
    next m m' hm hm' =>
    split at hcommit
    · simp at hcommit
    next hchanged =>
    obtain ⟨o, hsettles⟩ := settlesIn_of_commits may not_moved hm hm' hchanged
    exact ⟨tr, (s, call), [], rfl, p, o, hsettles, h.handedOut may hsettles⟩

/-- Calls that put the group nowhere leave it where it is. -/
theorem positionAfter_of_quiet {topic : String} {x : RuntimeSessions × SessionCall Token}
    {steps : List (RuntimeSessions × SessionCall Token)} {t : ℕ}
    (first : engine.committedBy g topic p x = some t)
    (quiet : ∀ y ∈ steps, engine.committedBy g topic p y = none) :
    engine.positionAfter g topic p (x :: steps) = some t := by
  unfold positionAfter
  rw [List.foldl_cons, first]
  change steps.foldl _ (some t) = _
  induction steps with
  | nil => rfl
  | cons y steps ih =>
    rw [List.foldl_cons, quiet y List.mem_cons_self]
    exact ih fun z hz => quiet z (List.mem_cons_of_mem _ hz)

/-- A call of `group_position` that is allowed puts the group at its target. -/
theorem committedBy_of_reposition {command : GroupPositionCommand Token} {env : GroupPositionEnv}
    {target : Dict ℕ ℕ} {t : ℕ} {m : Member} (hm : s.runtime.states.get? g = some m)
    (share : engine.share s (.operate g (.groupPosition command env)) =
      s.setMember g (m.reposition target)) (ht : target.get? p = some t) :
    engine.committedBy g command.stream.topic p (s, .operate g (.groupPosition command env)) =
      some t := by
  have hm' : (engine.share s (.operate g (.groupPosition command env))).runtime.states.get? g =
      some (m.reposition target) := by
    rw [share]
    exact Dict.get?_set_self ..
  have hcommits : ((m.reposition target).ledger p).commits = t :: (m.ledger p).commits := by
    rw [Member.ledger_reposition, ht]
    rfl
  unfold committedBy
  dsimp only [committedTransaction]
  rw [hm, hm']
  dsimp only
  rw [hcommits, if_neg (List.cons_ne_self t _)]
  rfl

/-- **Transitions stand** in every run in which a call of `group_position` finds nothing
of its group staged. -/
theorem transitions_stand_of_unstaged (groupOf : String → GroupRef) {start : RuntimeSessions}
    (fresh : start.Fresh) {run : List (SessionCall Token)}
    (legal : (engine.sharing logs).Legal start run)
    (compiled : ∀ call ∈ run, call.Compiled groupOf)
    (unstaged : ∀ x ∈ (engine.sharing logs).steps start run, x.2.FindsUnstaged x.1) :
    engine.TransitionsStand logs start run := by
  rintro before g command env since rest rfl hkeeps s transition m answer target hm hanswer hdecode
  have hcompiled : ∀ call ∈ since, call.Compiled groupOf := fun call hcall =>
    compiled call (by simp [hcall])
  have hown : groupOf g.2.str = g :=
    compiled (.operate g (.groupPosition command env)) (by simp)
  have hstaged := unstaged transition (by
    rw [Machine.steps_append]
    exact List.mem_append_right _ List.mem_cons_self)
  rw [Machine.legal_append, Machine.legal_cons, Machine.legal_append] at legal
  obtain ⟨hbefore, -, hsince, -⟩ := legal
  -- The bridge is keyed when the transition comes.
  have hkeyed : s.runtime.transactionBridge.Keyed := by
    refine Machine.play_induction (I := fun s => s.runtime.transactionBridge.Keyed)
      (C := fun _ _ => True) (fun s call h _ _ => (engine.holds_of_share call h).1)
      (fun _ => fresh.offsets) hbefore fun _ _ => trivial
  obtain ⟨target', htarget, hcommit, -, -⟩ := groupPosition_ok hanswer
  obtain rfl : target' = target :=
    Except.ok.inj ((of_groupPositionTarget htarget).decoded.symm.trans hdecode)
  have hshare : engine.share s transition.2 = s.setMember g (m.reposition target') := by
    refine (share_operate_of_some hm).trans ?_
    change s.setMember g (engine.groupPosition m command env).2 = _
    rw [groupPosition_committed htarget hcommit]
  have hrenewed : ∀ run₁ run₂, since = run₁ ++ run₂ →
      Renewed engine g ((engine.sharing logs).steps (engine.share s transition.2) run₁)
        ((engine.sharing logs).play (engine.share s transition.2) run₁) := by
    rintro run₁ run₂ rfl
    rw [Machine.legal_append] at hsince
    refine Machine.trace_induction (I := fun tr s => (∀ x ∈ tr, x.2.Compiled groupOf) →
      Renewed engine g tr s) ?_ (fun _ => ?_) hsince.1 fun x hx =>
        hcompiled _ (List.mem_append_left _ (Machine.mem_of_mem_steps hx))
    · intro tr s call ih may hall
      rw [List.forall_mem_append, List.forall_mem_singleton] at hall
      exact (ih hall.1).step may hall.2 hown
    · rw [hshare]
      refine ⟨hkeyed, fun m' p o i hm' hi => ?_, fun topic p next holds => ?_⟩
      · -- The call has cleared what was in flight.
        have hself : m' = m.reposition target' :=
          Option.some.inj (hm'.symm.trans (Dict.get?_set_self ..))
        rw [hself, Member.ledger_reposition] at hi
        simp [Ledger.reposition] at hi
      · have hempty : s.runtime.transactionBridge.offsets.entries = [] := hstaged holds.groupKey
        have hoffset := holds.offset
        change s.runtime.transactionBridge.offsets.get? (topic, p) = _ at hoffset
        rw [Dict.get?, hempty] at hoffset
        simp at hoffset
  -- Every later call of the run may be made, and was checked by the compiler.
  have hmay : ∀ run₁ call run₂, since = run₁ ++ call :: run₂ →
      MayCall logs ((engine.sharing logs).play (engine.share s transition.2) run₁) call ∧
        call.Compiled groupOf := by
    rintro run₁ call run₂ rfl
    rw [Machine.legal_append, Machine.legal_cons] at hsince
    exact ⟨hsince.2.1, hcompiled call (by simp)⟩
  constructor
  · intro earlier later hsplit hnew p t ht
    refine positionAfter_of_quiet (committedBy_of_reposition hm hshare ht) fun x hx => ?_
    obtain ⟨a, b, rfl⟩ := List.append_of_mem hx
    rw [List.append_assoc, List.cons_append] at hsplit
    obtain ⟨run₁, run₂, hrun, rfl, hplay⟩ := Machine.exists_of_steps_eq hsplit
    obtain ⟨hallowed, hchecked⟩ := hmay run₁ x.2 run₂ hrun
    have hbefore := hrenewed run₁ (x.2 :: run₂) hrun
    rw [hplay] at hallowed hbefore
    have hkept : ¬x.2.Repositions g := hkeeps x.2 (by rw [hrun]; simp)
    -- Otherwise this call settles a record that was handed out since.
    rw [Option.eq_none_iff_forall_ne_some]
    intro n hn
    refine hnew ?_
    have hsettles := (hbefore.settlesNew hallowed hchecked hown hkept hn).append b
    rwa [List.append_assoc, List.singleton_append] at hsettles
  · intro earlier x later hsplit tx htx hkey topic p next hnext
    obtain ⟨run₁, run₂, hrun, rfl, hplay⟩ := Machine.exists_of_steps_eq hsplit
    obtain ⟨hallowed, hchecked⟩ := hmay run₁ x.2 run₂ hrun
    have hbefore := hrenewed run₁ (x.2 :: run₂) hrun
    rw [hplay] at hallowed hbefore
    obtain ⟨-, -, htransaction⟩ := engine.holds_of_share x.2 hbefore.keyed
    exact hbefore.stagesNew hallowed hchecked hown (htransaction tx htx _ topic p next hkey hnext)

end KafkaConsumerEngine

namespace Sample

/-- Another client puts the group to this offset, from 0. -/
def putBack (offset : ℕ) : SessionCall TokenPayload :=
  .operate command.group
    (.groupPosition (groupPositionCommand 0 offset) (groupPositionEnv 0))

/-- Session 1 acknowledges record 0 in its transaction. -/
def staged : List (SessionCall TokenPayload) :=
  delivered ++ [.begin 1 {}, .acknowledge 1 (acknowledgeCommand 0 1 1) { nowMs := 1 }]

end Sample

namespace KafkaConsumerEngine

/-- The transaction begins after the transition. -/
theorem transitions_stand_of_unstaged_begin :
    Sample.engine.TransitionsStand (fun _ => Sample.log [0, 1] []) Sample.sessions
      (Sample.delivered ++ [Sample.putBack 0, .begin 1 {}, .commit 1 {}]) :=
  transitions_stand_of_unstaged (fun _ => Sample.command.group) Sample.sessions_fresh
    (by decide +kernel)
    (by simp [Sample.delivered, Sample.receive, Sample.putBack, SessionCall.Compiled])
    (by decide +kernel)

/-- **A staged offset undoes the transition.** The offset of record 0 is staged when the
group is put back to 0; the call returns, and the commit of the transaction puts the
group at 1. Nothing was handed out in between. -/
theorem staged_offset_undoes :
    (Sample.engine.sharing fun _ => Sample.log [0, 1] []).Legal Sample.sessions
        (Sample.staged ++ [Sample.putBack 0, .commit 1 {}]) ∧
      ¬Sample.engine.TransitionsStand (fun _ => Sample.log [0, 1] []) Sample.sessions
        (Sample.staged ++ [Sample.putBack 0, .commit 1 {}]) := by
  refine ⟨by decide +kernel, fun h => ?_⟩
  let s := (Sample.engine.sharing fun _ => Sample.log [0, 1] []).play Sample.sessions Sample.staged
  obtain ⟨m, hm⟩ : ∃ m, s.runtime.states.get? Sample.command.group = some m :=
    Option.isSome_iff_exists.mp (by decide +kernel)
  have hanswer : ((s.runtime.states.get? Sample.command.group).map fun m =>
      (Sample.engine.groupPosition m (Sample.groupPositionCommand 0 0)
        (Sample.groupPositionEnv 0)).1.isOk) = some true := by decide +kernel
  rw [hm] at hanswer
  obtain ⟨answer, hanswer⟩ : ∃ answer, (Sample.engine.groupPosition m
      (Sample.groupPositionCommand 0 0) (Sample.groupPositionEnv 0)).1 = .ok answer := by
    cases hresult : (Sample.engine.groupPosition m (Sample.groupPositionCommand 0 0)
      (Sample.groupPositionEnv 0)).1 with
    | error raised => simp [hresult, Except.isOk, Except.toBool] at hanswer
    | ok answer => exact ⟨answer, rfl⟩
  have hstands := h Sample.staged Sample.command.group _ _ [.commit 1 {}] [] rfl
    (by decide +kernel) m answer (Dict.empty.set 0 0) hm hanswer rfl
  have hposition := hstands.stays _ [] (List.append_nil _).symm ?_ 0 0 rfl
  · revert hposition
    decide +kernel
  · -- The commit is the only call since.
    rintro ⟨before, x, after, hsteps, p, o, -, z, hz, -⟩
    cases before with
    | nil => simp at hz
    | cons y before => simp at hsteps

end KafkaConsumerEngine

end MeridianKafka
