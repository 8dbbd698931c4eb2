import MeridianKafka.Transactions.Interleaving

/-!
# Transactional consume-publish

A committed Kafka transaction that carries the outputs of a consume-publish should
carry the consumed record too: a group offset of its partition beyond the record
(`KafkaTransaction.Covers`).

`acknowledge` stages an offset only when the safe offset of the partition advances.
A record that is acknowledged while an earlier one is outstanding waits in the
acknowledged set, so the transaction commits the outputs without it
(`consumePublish_without_source`).

`consumed_offset_iff` is exact, for a transaction of the call's own and for a Core
transaction in which other calls of the session, and of other sessions, take place
before and after: the transaction covers the record exactly when one of its
acknowledgements was made at the safe offset of the partition, with all offsets from
there up to the record acknowledged (`TransactionAck.Passes`).

The proof follows the staged offsets through the transaction. One acknowledgement
adds exactly what it passes (`acknowledge_covers`), and while a session has a Core
transaction the lease keeps every other session off the bridge (`core_covers`).
-/

namespace MeridianKafka

open Framework

/-- The transaction carries a group offset beyond the record. -/
def KafkaTransaction.Covers (transaction : KafkaTransaction) (topic : String) (p o : ℕ) : Prop :=
  ∃ next, transaction.offsets.get? (topic, p) = some next ∧ o < next

/-- The bridge has staged a group offset beyond the record. -/
def KafkaTransactionBridge.Covers (bridge : KafkaTransactionBridge) (topic : String) (p o : ℕ) :
    Prop :=
  ∃ next, bridge.offsets.get? (topic, p) = some next ∧ o < next

/-- An acknowledgement in a transaction: the runtime it finds, its command and its
environment. -/
structure TransactionAck (Token : Type) where
  runtime : KafkaAdapterRuntime
  command : AcknowledgeCommand Token
  env : AcknowledgeEnv

/-- The acknowledgement is made at the safe offset of the partition, staging returns,
and all offsets from there up to the record are acknowledged. -/
def TransactionAck.Passes {Token : Type} (engine : KafkaConsumerEngine Token)
    (ack : TransactionAck Token) (topic : String) (p o : ℕ) : Prop :=
  ∃ m c, ack.runtime.states.get? ack.command.group = some m ∧
    engine.ValidToken m ack.command ack.env.nowMs c ∧
    ack.command.stream.topic = topic ∧ c.partition = p ∧
    ¬KafkaConsumerEngine.MoveFails m ack.command c (some ack.runtime.transactionBridge) ack.env ∧
    c.offset = m.original p c.offset ∧
    ∀ k, c.offset ≤ k → k ≤ o → k = c.offset ∨ k ∈ m.acknowledgedOf p

/-! ### One acknowledgement -/

namespace Ledger

variable {L : Ledger} {o k : ℕ}

/-- How far the run of an acknowledgement at the safe offset goes. -/
theorem lt_contiguous_iff (h : o = L.original o) :
    k < (L.contiguous o).1 ↔ ∀ j, o ≤ j → j ≤ k → j = o ∨ j ∈ L.acknowledged := by
  have hfrontier := L.contiguous_isFrontier o
  rw [← h] at hfrontier
  constructor
  · intro hlt j hoj hjk
    have hj := hfrontier.covered j hoj (hjk.trans_lt hlt)
    exact Finset.mem_insert.mp (Finset.mem_coe.mp hj)
  · intro hall
    by_contra hle
    refine hfrontier.stops (Finset.mem_coe.mpr (Finset.mem_insert.mpr ?_))
    exact hall _ hfrontier.le (not_lt.mp hle)

end Ledger

namespace KafkaAdapterRuntime

variable {Token : Type} {engine : KafkaConsumerEngine Token} {runtime : KafkaAdapterRuntime}

/-- Staging covers what it covered before, and what lies below the staged offset. -/
theorem covers_set {offsets : Dict (String × ℕ) ℕ} {topic topic' : String} {p p' next o : ℕ} :
    (∃ n, (offsets.set (topic', p') (max next (offsets.getD (topic', p') 0))).get? (topic, p) =
        some n ∧ o < n) ↔
      (∃ n, offsets.get? (topic, p) = some n ∧ o < n) ∨ topic' = topic ∧ p' = p ∧ o < next := by
  rw [Dict.get?_set]
  by_cases h : (topic, p) = (topic', p')
  · rw [if_pos h]
    obtain ⟨rfl, rfl⟩ := Prod.mk.inj h
    unfold Dict.getD
    cases hold : offsets.get? (topic, p) with
    | none => simp
    | some old =>
      simp only [Option.getD_some, Option.some.injEq, exists_eq_left', lt_max_iff, true_and]
      exact or_comm
  · rw [if_neg h]
    have hne : ¬(topic' = topic ∧ p' = p ∧ o < next) := by
      rintro ⟨rfl, rfl, -⟩
      exact h rfl
    exact (or_iff_left hne).symm

variable (runtime) in
/-- **One acknowledgement in a transaction** adds to the staged offsets exactly what it
passes. -/
theorem acknowledge_covers (engine : KafkaConsumerEngine Token)
    (command : AcknowledgeCommand Token) (env : AcknowledgeEnv)
    (sound : ∀ m, runtime.states.get? command.group = some m → ∀ p, (m.ledger p).Sound)
    (topic : String) (p o : ℕ) :
    (runtime.acknowledge engine command true env).2.transactionBridge.Covers topic p o ↔
      runtime.transactionBridge.Covers topic p o ∨
        TransactionAck.Passes engine ⟨runtime, command, env⟩ topic p o := by
  unfold acknowledge
  cases hm : runtime.states.get? command.group with
  | none =>
    refine (or_iff_left ?_).symm
    rintro ⟨m, c, hm', -⟩
    rw [hm] at hm'
    simp at hm'
  | some m =>
    dsimp only
    rw [if_pos rfl]
    by_cases hvalid : ∃ c, engine.ValidToken m command env.nowMs c
    swap
    · obtain ⟨raised, hrefused⟩ := engine.acknowledge_of_invalid command
        (some runtime.transactionBridge) env (not_exists.mp hvalid)
      rw [hrefused]
      refine (or_iff_left ?_).symm
      rintro ⟨m', c, hm', hvalid', -⟩
      obtain rfl := Option.some.inj (hm.symm.trans hm')
      exact hvalid ⟨c, hvalid'⟩
    obtain ⟨c, hvalid⟩ := hvalid
    have hsound := sound m hm c.partition
    -- The member and the coordinates of a passing acknowledgement are these.
    have hpasses : TransactionAck.Passes engine ⟨runtime, command, env⟩ topic p o ↔
        command.stream.topic = topic ∧ c.partition = p ∧
        ¬KafkaConsumerEngine.MoveFails m command c (some runtime.transactionBridge) env ∧
        c.offset = m.original p c.offset ∧
        ∀ k, c.offset ≤ k → k ≤ o → k = c.offset ∨ k ∈ m.acknowledgedOf p := by
      constructor
      · rintro ⟨m', c', hm', hvalid', hrest⟩
        obtain rfl := Option.some.inj (hm.symm.trans hm')
        obtain rfl := Except.ok.inj (hvalid.decodes.symm.trans hvalid'.decodes)
        exact hrest
      · exact fun hrest => ⟨m, c, hm, hvalid, hrest⟩
    rw [hpasses, hvalid.transaction_eq]
    split
    · next hadv =>
      have hat : c.offset = m.original c.partition c.offset := hsound.advances_iff.mp hadv
      have hreach : o < (m.contiguous c.partition c.offset).1 ↔
          ∀ k, c.offset ≤ k → k ≤ o → k = c.offset ∨ k ∈ m.acknowledgedOf c.partition :=
        Ledger.lt_contiguous_iff (L := m.ledger c.partition) hat
      rcases runtime.transactionBridge.stageOffset_cases command.consumerGroup.ref.str
        env.consumerGroupMetadata command.stream.topic c.partition
        (m.contiguous c.partition c.offset).1 with ⟨raised, hraised, hoffsets⟩ | ⟨hok, hoffsets⟩
      · have hfails : KafkaConsumerEngine.MoveFails m command c (some runtime.transactionBridge)
            env := KafkaConsumerEngine.moveFails_some.mpr ⟨raised, hraised⟩
        have hsame : (Option.getD (some (runtime.transactionBridge.stageOffset
            command.consumerGroup.ref.str env.consumerGroupMetadata command.stream.topic c.partition
            (m.contiguous c.partition c.offset).1).2) runtime.transactionBridge).Covers topic p o ↔
              runtime.transactionBridge.Covers topic p o := by
          unfold KafkaTransactionBridge.Covers
          rw [Option.getD_some, hoffsets]
        rw [hsame]
        exact (or_iff_left fun h => h.2.2.1 hfails).symm
      · have hreturns : ¬KafkaConsumerEngine.MoveFails m command c
            (some runtime.transactionBridge) env := by
          rw [KafkaConsumerEngine.moveFails_some]
          rintro ⟨raised, hraised⟩
          rw [hok] at hraised
          simp at hraised
        unfold KafkaTransactionBridge.Covers
        rw [Option.getD_some, hoffsets, covers_set]
        refine or_congr_right ?_
        constructor
        · rintro ⟨htopic, rfl, hlt⟩
          exact ⟨htopic, rfl, hreturns, hat, hreach.mp hlt⟩
        · rintro ⟨htopic, rfl, -, -, hall⟩
          exact ⟨htopic, rfl, hreach.mpr hall⟩
    · next hadv =>
      refine (or_iff_left ?_).symm
      rintro ⟨-, rfl, -, hat, -⟩
      exact hadv (hsound.advances_iff.mpr hat)

end KafkaAdapterRuntime

/-! ### A Core transaction -/

/-- The acknowledgement that a call makes in the transaction of session `i`. -/
def transactionAck {Token : Type} (i : ℕ) :
    RuntimeSessions × SessionCall Token → Option (TransactionAck Token)
  | (s, .acknowledge j command env) => if j = i then some ⟨s.runtime, command, env⟩ else none
  | (s, .executeTransactional j command env) =>
    if j = i then
      match s.runtime.publishOutputs command.outputs env with
      | .ok _ => some ⟨s.runtime, command.ackCommand, env.acknowledge⟩
      | .error _ => none
    else none
  | _ => none

/-- The call ends the transaction of session `i`. -/
def SessionCall.Ends {Token : Type} (i : ℕ) : SessionCall Token → Prop
  | commit j _ | rollback j _ => j = i
  | _ => False

/-- Session `i` has a Core transaction. -/
structure RuntimeSessions.InTransaction (s : RuntimeSessions) (i : ℕ) : Prop where
  leased : s.Leased
  sound : KafkaConsumerEngine.SoundMembers s
  active : (s.sessions i).active = true
  opened : (s.sessions i).closed = false

namespace KafkaAdapterSession

variable {Token : Type} (engine : KafkaConsumerEngine Token) {session : KafkaAdapterSession}
  (runtime : KafkaAdapterRuntime)

theorem ensureBegun_of_active (hopen : session.closed = false) (hactive : session.active = true) :
    session.ensureBegun = none := by
  unfold ensureBegun ensureOpen
  simp [hopen, hactive]

/-- In a Core transaction, a consume-publish does to the bridge what its
acknowledgement does. -/
theorem executeTransactional_of_active (hopen : session.closed = false)
    (hactive : session.active = true) (command : TransactionalConsumePublishCommand Token)
    (env : ConsumePublishEnv) :
    (session.executeTransactional runtime engine command env).session.active = true ∧
      (session.executeTransactional runtime engine command env).session.closed = false ∧
      (session.executeTransactional runtime engine command env).runtime.transactionBridge =
        (runtime.consumePublish engine command env).2.transactionBridge := by
  unfold executeTransactional
  rw [ensureBegun_of_active hopen hactive]
  dsimp only
  rw [hactive, Bool.not_true, if_neg Bool.false_ne_true]
  dsimp only
  -- the session has not begun the transaction, so a raise leaves it open
  rcases runtime.consumePublish engine command env with ⟨raised | result, runtime'⟩
  · refine ⟨?_, ?_, ?_⟩
    · dsimp only
      rw [abandon_active]
    · dsimp only
      rw [abandon_closed]
      exact hopen
    · dsimp only
      rw [abandon_bridge]
  · exact ⟨rfl, hopen, rfl⟩

variable {runtime} in
/-- Without a Core transaction, it needs the lease. -/
theorem executeTransactional_of_lease (hinactive : session.active = false)
    (hlease : runtime.transactionBridge.lease = true)
    (command : TransactionalConsumePublishCommand Token) (env : ConsumePublishEnv) :
    (session.executeTransactional runtime engine command env).runtime = runtime := by
  unfold executeTransactional
  split
  · rfl
  dsimp only
  obtain ⟨raised, hbegin⟩ := KafkaTransactionBridge.begin_of_lease hlease
    env.begin.beginTransaction env.begin.emit
  rw [hinactive, Bool.not_false, if_pos rfl, hbegin]

theorem begin_of_active (hactive : session.active = true) (env : SessionBeginEnv) :
    (session.begin runtime env).session = session ∧
      (session.begin runtime env).runtime = runtime := by
  unfold begin
  split
  · exact ⟨rfl, rfl⟩
  split
  · exact ⟨rfl, rfl⟩
  · exact ⟨rfl, rfl⟩

variable {runtime} in
theorem begin_of_lease (hlease : runtime.transactionBridge.lease = true) (env : SessionBeginEnv) :
    (session.begin runtime env).runtime = runtime := by
  unfold begin
  split
  · rfl
  split
  · rfl
  split
  · rfl
  · obtain ⟨raised, hbegin⟩ := KafkaTransactionBridge.begin_of_lease hlease env.beginTransaction
      env.emit
    rw [hbegin]

end KafkaAdapterSession

namespace KafkaConsumerEngine

variable {Token : Type} {engine : KafkaConsumerEngine Token} {logs : GroupRef → PartitionLog}
  {s : RuntimeSessions} {i : ℕ}

/-- While a session has a Core transaction, the calls of the others leave the bridge. -/
theorem share_bridge_of_other (h : s.Leased) (hactive : (s.sessions i).active = true)
    {call : SessionCall Token} (hother : call.session ≠ some i) :
    (engine.share s call).runtime.transactionBridge = s.runtime.transactionBridge := by
  have hlease := h.held i hactive
  -- The lease is with the session, so no other one is active.
  have hinactive : ∀ j, some j ≠ some i → (s.sessions j).active = false := by
    intro j hj
    by_contra htaken
    exact hj (congrArg some (h.unique j i (by simpa using htaken) hactive))
  cases call with
  | join poll partitions =>
    unfold share
    dsimp only
    split <;> rfl
  | operate group action =>
    unfold share
    dsimp only
    split <;> rfl
  | begin j env =>
    show ((s.sessions j).begin s.runtime env).runtime.transactionBridge = _
    rw [KafkaAdapterSession.begin_of_lease hlease]
  | acknowledge j command env =>
    show ((s.sessions j).acknowledge s.runtime engine command env).runtime.transactionBridge = _
    unfold KafkaAdapterSession.acknowledge
    split
    · rfl
    · dsimp only
      rw [hinactive j hother, KafkaAdapterRuntime.acknowledge_bridge_of_plain]
  | executeTransactional j command env =>
    show ((s.sessions j).executeTransactional s.runtime engine command
      env).runtime.transactionBridge = _
    rw [KafkaAdapterSession.executeTransactional_of_lease engine (hinactive j hother) hlease]
  | commit j env =>
    show ((s.sessions j).commit s.runtime env).runtime.transactionBridge = _
    rw [((s.sessions j).commit_of_inactive s.runtime env (by simp [hinactive j hother])).2.1]
  | rollback j env =>
    show ((s.sessions j).rollback s.runtime env).runtime.transactionBridge = _
    rw [((s.sessions j).rollback_of_inactive s.runtime env (by simp [hinactive j hother])).2]

/-- **One call during a Core transaction** adds to its offsets what its acknowledgement
in the transaction passes, and nothing if it makes none. -/
theorem core_covers (h : s.InTransaction i) (call : SessionCall Token)
    (hkeeps : ¬call.Ends i)
    (topic : String) (p o : ℕ) :
    (engine.share s call).runtime.transactionBridge.Covers topic p o ↔
      s.runtime.transactionBridge.Covers topic p o ∨
        ∃ ack ∈ transactionAck i (s, call), ack.Passes engine topic p o := by
  -- A call that leaves the bridge acknowledges nothing in the transaction.
  have hleaves : ∀ {s' : RuntimeSessions}, s'.runtime.transactionBridge =
      s.runtime.transactionBridge → transactionAck i (s, call) = none →
      (s'.runtime.transactionBridge.Covers topic p o ↔
        s.runtime.transactionBridge.Covers topic p o ∨
          ∃ ack ∈ transactionAck i (s, call), ack.Passes engine topic p o) := by
    intro s' hbridge hnone
    rw [hbridge, hnone]
    simp
  by_cases hown : call.session = some i
  swap
  · refine hleaves (share_bridge_of_other h.leased h.active hown) ?_
    cases call with
    | acknowledge j | executeTransactional j => exact if_neg fun hj => hown (congrArg some hj)
    | _ => rfl
  cases call with
  | join poll partitions => simp [SessionCall.session] at hown
  | operate group action => simp [SessionCall.session] at hown
  | begin j env =>
    refine hleaves ?_ rfl
    show ((s.sessions j).begin s.runtime env).runtime.transactionBridge = _
    rw [KafkaAdapterSession.begin_of_lease (h.leased.held i h.active)]
  | acknowledge j command env =>
    obtain rfl : j = i := Option.some.inj hown
    have hcovers := s.runtime.acknowledge_covers engine command env
      (fun m hm => h.sound command.group m hm) topic p o
    show (((s.sessions j).acknowledge s.runtime engine command
      env).runtime.transactionBridge.Covers topic p o) ↔ _
    rw [KafkaAdapterSession.acknowledge_of_begun engine _ _
      (KafkaAdapterSession.ensureBegun_of_active h.opened h.active)]
    dsimp only
    rw [h.active, hcovers]
    simp [transactionAck]
  | executeTransactional j command env =>
    obtain rfl : j = i := Option.some.inj hown
    have hbridge := (KafkaAdapterSession.executeTransactional_of_active engine s.runtime
      h.opened h.active command env).2.2
    show (((s.sessions j).executeTransactional s.runtime engine command
      env).runtime.transactionBridge.Covers topic p o) ↔ _
    have hacks : transactionAck j (s, .executeTransactional j command env) =
        match s.runtime.publishOutputs command.outputs env with
        | .ok _ => some ⟨s.runtime, command.ackCommand, env.acknowledge⟩
        | .error _ => none := if_pos rfl
    rw [hbridge, hacks]
    unfold KafkaAdapterRuntime.consumePublish
    cases hpublish : s.runtime.publishOutputs command.outputs env with
    | error raised =>
      dsimp only
      simp
    | ok receipts =>
      have hcovers := s.runtime.acknowledge_covers engine command.ackCommand
        env.acknowledge (fun m hm => h.sound command.ackCommand.group m hm) topic p o
      dsimp only
      rcases hack : s.runtime.acknowledge engine command.ackCommand true env.acknowledge with
        ⟨_ | _, runtime'⟩ <;> rw [hack] at hcovers <;> dsimp only at hcovers ⊢ <;>
          rw [hcovers] <;> simp
  | commit j env => exact absurd (Option.some.inj hown) hkeeps
  | rollback j env => exact absurd (Option.some.inj hown) hkeeps

/-- Such a call leaves the transaction open. -/
theorem core_step (h : s.InTransaction i) (call : SessionCall Token)
    (hallowed : MayCall logs s call) (hkeeps : ¬call.Ends i) :
    (engine.share s call).InTransaction i := by
  have hsession : ((engine.share s call).sessions i).active = true ∧
      ((engine.share s call).sessions i).closed = false := by
    -- The calls of another session leave this one.
    have hput : ∀ {α : Type} (j : ℕ) (outcome : SessionOutcome α),
        (j = i → outcome.session.active = true ∧ outcome.session.closed = false) →
        ((s.put j outcome).sessions i).active = true ∧
          ((s.put j outcome).sessions i).closed = false := by
      intro α j outcome hown
      by_cases hj : j = i
      · subst hj
        rw [RuntimeSessions.put_self]
        exact hown rfl
      · rw [s.put_of_ne outcome (Ne.symm hj)]
        exact ⟨h.active, h.opened⟩
    cases call with
    | join poll partitions =>
      unfold share
      dsimp only
      split <;> exact ⟨h.active, h.opened⟩
    | operate group action =>
      unfold share
      dsimp only
      split <;> exact ⟨h.active, h.opened⟩
    | begin j env =>
      refine hput j _ fun hj => ?_
      subst hj
      rw [(KafkaAdapterSession.begin_of_active s.runtime h.active env).1]
      exact ⟨h.active, h.opened⟩
    | acknowledge j command env =>
      refine hput j _ fun hj => ?_
      subst hj
      rw [KafkaAdapterSession.acknowledge_of_begun engine _ _
        (KafkaAdapterSession.ensureBegun_of_active h.opened h.active)]
      dsimp only
      rw [if_pos h.active]
      exact ⟨h.active, h.opened⟩
    | executeTransactional j command env =>
      refine hput j _ fun hj => ?_
      subst hj
      have hactive := KafkaAdapterSession.executeTransactional_of_active engine s.runtime h.opened
        h.active command env
      exact ⟨hactive.1, hactive.2.1⟩
    | commit j env => exact hput j _ fun hj => absurd hj hkeeps
    | rollback j env => exact hput j _ fun hj => absurd hj hkeeps
  exact ⟨share_leased call h.leased, share_sound call hallowed h.sound, hsession.1, hsession.2⟩

theorem core_inTransaction (h : s.InTransaction i) {run : List (SessionCall Token)}
    (legal : (engine.sharing logs).Legal s run) (hkeeps : ∀ call ∈ run, ¬call.Ends i) :
    ((engine.sharing logs).play s run).InTransaction i :=
  Machine.play_induction (I := (·.InTransaction i)) (C := fun _ call => ¬call.Ends i)
    (fun _ call h => core_step h call) h legal
    fun x hx => hkeeps x.2 (Machine.mem_of_mem_steps hx)

/-- **The calls during a Core transaction** stage together what its acknowledgements
pass. -/
theorem core_run (h : s.InTransaction i)
    (hempty : s.runtime.transactionBridge.offsets = .empty) {run : List (SessionCall Token)}
    (legal : (engine.sharing logs).Legal s run) (hkeeps : ∀ call ∈ run, ¬call.Ends i)
    (topic : String) (p o : ℕ) :
    ((engine.sharing logs).play s run).runtime.transactionBridge.Covers topic p o ↔
      ∃ ack ∈ ((engine.sharing logs).steps s run).filterMap (transactionAck i),
        ack.Passes engine topic p o := by
  have hnothing : ¬s.runtime.transactionBridge.Covers topic p o := by
    rintro ⟨next, hnext, -⟩
    rw [hempty] at hnext
    exact absurd hnext (by simp)
  -- The induction carries that the transaction is open, for only then offsets are added.
  refine (Machine.trace_induction
    (I := fun tr s => (∀ x ∈ tr, ¬x.2.Ends i) → s.InTransaction i ∧
      (s.runtime.transactionBridge.Covers topic p o ↔
        ∃ ack ∈ tr.filterMap (transactionAck i), ack.Passes engine topic p o))
    ?_ ?_ legal fun x hx => hkeeps x.2 (Machine.mem_of_mem_steps hx)).2
  · intro tr s call htr hallowed hall
    rw [List.forall_mem_append, List.forall_mem_singleton] at hall
    obtain ⟨hopen, hcovers⟩ := htr hall.1
    refine ⟨core_step hopen call hallowed hall.2, ?_⟩
    change (engine.share s call).runtime.transactionBridge.Covers topic p o ↔ _
    rw [core_covers hopen call hall.2, hcovers, List.filterMap_append]
    simp only [List.mem_append, or_and_right, exists_or, List.filterMap_cons, List.filterMap_nil]
    refine or_congr_right ?_
    cases transactionAck i (s, call) <;> simp
  · intro _
    exact ⟨h, iff_of_false hnothing (by simp)⟩

end KafkaConsumerEngine

/-! ### The committed transaction -/

/-- What a commit applies is what was staged. -/
theorem KafkaTransactionBridge.commit_applied {bridge : KafkaTransactionBridge}
    {env : KafkaTransactionBridge.CommitEnv} {offsets : Dict (String × ℕ) ℕ}
    (h : (bridge.commit env).2.2 = some offsets) : offsets = bridge.offsets := by
  obtain ⟨-, raised, heq⟩ | ⟨-, -, raised, heq⟩ | ⟨-, -, answer, heq, -⟩ :=
    bridge.commit_cases env <;> rw [heq] at h
  · simp at h
  · simp at h
  · exact (Option.some.inj h).symm

namespace KafkaAdapterSession

variable {Token : Type} {engine : KafkaConsumerEngine Token} {session : KafkaAdapterSession}
  {runtime : KafkaAdapterRuntime}

theorem commit_transaction {env : SessionCommitEnv} {tx : KafkaTransaction}
    (h : (session.commit runtime env).transaction = some tx) :
    tx.offsets = runtime.transactionBridge.offsets := by
  by_cases hbegun : session.ensureOpen = none ∧ session.active
  swap
  · rw [(session.commit_of_inactive runtime env hbegun).2.2] at h
    simp at h
  rw [(session.commit_of_active runtime env hbegun.1 hbegun.2).1] at h
  obtain ⟨offsets, happlied, rfl⟩ := Option.map_eq_some_iff.mp h
  exact KafkaTransactionBridge.commit_applied happlied

/-- The member and the coordinates of an acknowledgement that answers success. -/
theorem exists_validToken {command : AcknowledgeCommand Token} {transactional : Bool}
    {env : AcknowledgeEnv} {result : KafkaConsumerEngine.Acknowledged}
    (h : (runtime.acknowledge engine command transactional env).1 = .ok result) :
    ∃ m c, runtime.states.get? command.group = some m ∧
      engine.ValidToken m command env.nowMs c := by
  unfold KafkaAdapterRuntime.acknowledge at h
  split at h
  · simp at h
  next m hm =>
  dsimp only at h
  by_contra hnone
  obtain ⟨raised, hrefused⟩ := engine.acknowledge_of_invalid command
    (if transactional then some runtime.transactionBridge else none) env
    fun c hvalid => hnone ⟨m, c, hm, hvalid⟩
  rw [hrefused] at h
  simp at h

/-- A consume-publish answers success when its acknowledgement does. -/
theorem consumePublish_ok {command : TransactionalConsumePublishCommand Token}
    {env : ConsumePublishEnv} {result : List String × KafkaConsumerEngine.Acknowledged}
    (h : (runtime.consumePublish engine command env).1 = .ok result) :
    (runtime.acknowledge engine command.ackCommand true env.acknowledge).1 = .ok result.2 ∧
      (runtime.consumePublish engine command env).2 =
        (runtime.acknowledge engine command.ackCommand true env.acknowledge).2 := by
  unfold KafkaAdapterRuntime.consumePublish at h ⊢
  split at h
  · simp at h
  rcases hack : runtime.acknowledge engine command.ackCommand true env.acknowledge with
    ⟨raised | acknowledged, runtime'⟩
  · rw [hack] at h
    simp at h
  · rw [hack] at h
    obtain rfl := Except.ok.inj h
    exact ⟨rfl, rfl⟩

/-- Giving up answers with what was raised. -/
theorem abandon_ne_ok {α : Type} (session : KafkaAdapterSession) (runtime : KafkaAdapterRuntime)
    (owns : Bool) (raised : Raised) (env : SessionRollbackEnv) (result : α) :
    (session.abandon runtime owns raised env).answer ≠ .ok result := by
  unfold abandon
  split
  · simp
  · split <;> simp

/-- In a Core transaction, a consume-publish that answers success has acknowledged. -/
theorem executeTransactional_ok_of_active (hactive : session.active = true)
    {command : TransactionalConsumePublishCommand Token} {env : ConsumePublishEnv}
    {result : List String × KafkaConsumerEngine.Acknowledged}
    (h : (session.executeTransactional runtime engine command env).answer = .ok result) :
    (runtime.acknowledge engine command.ackCommand true env.acknowledge).1 = .ok result.2 := by
  unfold executeTransactional at h
  split at h
  · simp [refuse] at h
  dsimp only at h
  rw [hactive, Bool.not_true, if_neg Bool.false_ne_true] at h
  dsimp only at h
  rcases hbody : runtime.consumePublish engine command env with ⟨raised | body, runtime'⟩ <;>
    rw [hbody] at h
  · exact (abandon_ne_ok _ _ _ _ _ _ h).elim
  · obtain rfl := Except.ok.inj h
    exact (consumePublish_ok (by rw [hbody])).1

end KafkaAdapterSession

/-- The runtime when its Kafka transaction has just begun. -/
def KafkaAdapterRuntime.opened (runtime : KafkaAdapterRuntime) : KafkaAdapterRuntime :=
  { runtime with transactionBridge := { active := true, lease := true } }

namespace KafkaAdapterSession

variable {Token : Type} {engine : KafkaConsumerEngine Token} {session : KafkaAdapterSession}
  {runtime : KafkaAdapterRuntime}

/-- In a Kafka transaction of its own, a consume-publish that answers success has
acknowledged, and has committed what the acknowledgement staged. -/
theorem executeTransactional_ok_of_inactive (hactive : session.active = false)
    {command : TransactionalConsumePublishCommand Token} {env : ConsumePublishEnv}
    {result : List String × KafkaConsumerEngine.Acknowledged}
    (h : (session.executeTransactional runtime engine command env).answer = .ok result) :
    (runtime.opened.acknowledge engine command.ackCommand true env.acknowledge).1 = .ok result.2 ∧
      ∀ tx, (session.executeTransactional runtime engine command env).transaction = some tx →
        tx.offsets = (runtime.opened.acknowledge engine command.ackCommand true
          env.acknowledge).2.transactionBridge.offsets := by
  unfold executeTransactional at h ⊢
  split at h
  · simp [refuse] at h
  next hbegun =>
  dsimp only at h ⊢
  rw [hactive, Bool.not_false, if_pos rfl] at h ⊢
  -- The call has returned, so each of its steps has: the begin, the body and the commit.
  rcases hbegin : runtime.transactionBridge.begin env.begin.beginTransaction env.begin.emit with
    ⟨raised | ⟨⟨⟩⟩, bridge⟩ <;> rw [hbegin] at h
  · simp at h
  obtain ⟨-, rfl⟩ := KafkaTransactionBridge.begin_ok hbegin
  dsimp only at h ⊢
  rw [show (⟨runtime.states, { active := true, lease := true }⟩ : KafkaAdapterRuntime) =
    runtime.opened from rfl] at h ⊢
  rcases hbody : runtime.opened.consumePublish engine command env with ⟨raised | body, runtime'⟩ <;>
    rw [hbody] at h
  · exact (abandon_ne_ok _ _ _ _ _ _ h).elim
  obtain ⟨hok, hruntime⟩ := consumePublish_ok (by rw [hbody])
  rw [hbody] at hruntime
  dsimp only at h ⊢
  rw [if_pos rfl] at h ⊢
  rcases hcommit : runtime'.transactionBridge.commit env.commit with
    ⟨raised | ⟨⟨⟩⟩, bridge, applied⟩ <;> rw [hcommit] at h
  · exact (abandon_ne_ok _ _ _ _ _ _ h).elim
  obtain rfl := Except.ok.inj h
  refine ⟨hok, fun tx htx => ?_⟩
  obtain ⟨offsets, rfl, rfl⟩ := Option.map_eq_some_iff.mp htx
  have happlied : (runtime'.transactionBridge.commit env.commit).2.2 = some offsets := by
    rw [hcommit]
  rw [← hruntime]
  exact KafkaTransactionBridge.commit_applied happlied

/-- A `begin` that answers success opens the transaction. -/
theorem begin_ok {env : SessionBeginEnv} (h : (session.begin runtime env).answer = .ok ()) :
    session.closed = false ∧
      (session.begin runtime env).session = { session with active := true } ∧
      (session.begin runtime env).runtime = runtime.opened := by
  unfold begin at h ⊢
  split at h
  · simp [refuse] at h
  next hopen =>
  have hclosed : session.closed = false := by simpa [ensureOpen] using hopen
  split at h
  · simp [refuse] at h
  next htransactional =>
  split at h
  · simp [refuse] at h
  next hinactive =>
  rw [if_neg htransactional, if_neg hinactive]
  split at h
  · simp at h
  next bridge hbegin =>
  obtain ⟨-, rfl⟩ := KafkaTransactionBridge.begin_ok hbegin
  exact ⟨hclosed, rfl, rfl⟩

end KafkaAdapterSession

namespace KafkaConsumerEngine

variable {Token : Type} (engine : KafkaConsumerEngine Token) (logs : GroupRef → PartitionLog)

/-- A consume-publish that answered success in a run of the sessions, in this state;
the acknowledgements that were made in its Kafka transaction; and the transaction,
which was committed. -/
inductive Executed (start : RuntimeSessions) (command : TransactionalConsumePublishCommand Token)
    (env : ConsumePublishEnv) :
    RuntimeSessions → List (TransactionAck Token) → KafkaTransaction → Prop
  /-- In a transaction of its own. -/
  | owned {run : List (SessionCall Token)} {s : RuntimeSessions} {i : ℕ}
      {result : List String × Acknowledged} {tx : KafkaTransaction}
      (legal : (engine.sharing logs).Legal start run)
      (reached : (engine.sharing logs).play start run = s)
      (inactive : (s.sessions i).active = false)
      (returned : ((s.sessions i).executeTransactional s.runtime engine command env).answer =
        .ok result)
      (committed : ((s.sessions i).executeTransactional s.runtime engine command
        env).transaction = some tx) :
      Executed start command env s
        [⟨s.runtime.opened, command.ackCommand, env.acknowledge⟩] tx
  /-- In the Core transaction of session `i`, among other calls. -/
  | core {before during : List (SessionCall Token)} {opened s : RuntimeSessions} {i : ℕ}
      {beginEnv : SessionBeginEnv} {commitEnv : SessionCommitEnv}
      {result : List String × Acknowledged} {tx : KafkaTransaction}
      (legal : (engine.sharing logs).Legal start (before ++ .begin i beginEnv :: during))
      (began : let s := (engine.sharing logs).play start before
        ((s.sessions i).begin s.runtime beginEnv).answer = .ok ())
      (reached : (engine.sharing logs).play start (before ++ [.begin i beginEnv]) = opened)
      (keeps : ∀ call ∈ during, ¬call.Ends i)
      (called : (s, .executeTransactional i command env) ∈ (engine.sharing logs).steps opened during)
      (returned : ((s.sessions i).executeTransactional s.runtime engine command env).answer =
        .ok result)
      (committed : let s := (engine.sharing logs).play opened during
        ((s.sessions i).commit s.runtime commitEnv).transaction = some tx) :
      Executed start command env s
        (((engine.sharing logs).steps opened during).filterMap (transactionAck i)) tx

variable {engine logs}

/-- A transaction covers what the staged offsets do. -/
theorem covers_of_offsets {tx : KafkaTransaction} {bridge : KafkaTransactionBridge}
    (h : tx.offsets = bridge.offsets) (topic : String) (p o : ℕ) :
    tx.Covers topic p o ↔ bridge.Covers topic p o := by
  unfold KafkaTransaction.Covers KafkaTransactionBridge.Covers
  rw [h]

/-- A Core transaction right after its `begin`. -/
theorem inTransaction_of_begin {start : RuntimeSessions} (fresh : start.Fresh)
    {before : List (SessionCall Token)} {i : ℕ} {env : SessionBeginEnv}
    (legal : (engine.sharing logs).Legal start before)
    (began : let s := (engine.sharing logs).play start before
      ((s.sessions i).begin s.runtime env).answer = .ok ()) :
    let opened := (engine.sharing logs).play start (before ++ [.begin i env])
    opened.InTransaction i ∧ opened.runtime.transactionBridge.offsets = .empty := by
  obtain ⟨hleased, hsound⟩ := sharing_invariants fresh legal
  intro opened
  have hopened : opened = engine.share ((engine.sharing logs).play start before) (.begin i env) :=
    (engine.sharing logs).play_append start before [.begin i env]
  generalize (engine.sharing logs).play start before = s at *
  obtain ⟨hclosed, hsession, hruntime⟩ := KafkaAdapterSession.begin_ok began
  -- Only this session has changed, and the bridge begins without offsets.
  have hself : opened.sessions i = { s.sessions i with active := true } := by
    rw [hopened, ← hsession]
    exact Function.update_self ..
  refine ⟨⟨?_, ?_, by rw [hself], by rw [hself]; exact hclosed⟩, ?_⟩
  · rw [hopened]
    exact share_leased _ hleased
  · rw [hopened]
    have hmay : MayCall logs s (.begin i env : SessionCall Token) := trivial
    exact share_sound _ hmay hsound
  · rw [hopened]
    change ((s.sessions i).begin s.runtime env).runtime.transactionBridge.offsets = _
    rw [hruntime]
    rfl

/-- **When a transactional consume-publish carries its source.** The Kafka transaction
of a consume-publish that answered success carries a group offset beyond the consumed
record exactly when one of its acknowledgements passes the record. -/
theorem consumed_offset_iff (engine : KafkaConsumerEngine Token) (logs : GroupRef → PartitionLog)
    (start : RuntimeSessions) (fresh : start.Fresh)
    (command : TransactionalConsumePublishCommand Token) (env : ConsumePublishEnv)
    (s : RuntimeSessions) (acks : List (TransactionAck Token)) (tx : KafkaTransaction)
    (executed : Executed engine logs start command env s acks tx) :
    ∃ m c, s.runtime.states.get? command.ackCommand.group = some m ∧
      engine.ValidToken m command.ackCommand env.acknowledge.nowMs c ∧
      (tx.Covers command.poll.stream.topic c.partition c.offset ↔
        ∃ ack ∈ acks, ack.Passes engine command.poll.stream.topic c.partition c.offset) := by
  cases executed with
  | @owned run _ i result _ legal reached inactive returned committed =>
    obtain ⟨hok, hoffsets⟩ := KafkaAdapterSession.executeTransactional_ok_of_inactive inactive
      returned
    obtain ⟨m, c, hm, hvalid⟩ := KafkaAdapterSession.exists_validToken hok
    obtain ⟨-, hsound⟩ := sharing_invariants fresh legal
    rw [reached] at hsound
    refine ⟨m, c, hm, hvalid, ?_⟩
    have hnothing : ¬s.runtime.opened.transactionBridge.Covers command.poll.stream.topic c.partition
        c.offset := by
      rintro ⟨next, hnext, -⟩
      exact absurd hnext (by simp [KafkaAdapterRuntime.opened])
    have hack := s.runtime.opened.acknowledge_covers engine command.ackCommand env.acknowledge
      (hsound command.ackCommand.group) command.poll.stream.topic c.partition c.offset
    rw [covers_of_offsets (hoffsets tx committed), hack, or_iff_right hnothing]
    simp only [List.mem_singleton, exists_eq_left]
  | @core before during opened _ i beginEnv commitEnv result _ legal began reached keeps called
      returned committed =>
    rw [Machine.legal_append, Machine.legal_cons] at legal
    obtain ⟨hbefore, -, hduring⟩ := legal
    obtain ⟨hopen, hempty⟩ := inTransaction_of_begin fresh hbefore began
    rw [reached] at hopen hempty
    rw [Machine.play_append, Machine.play_cons, Machine.play_nil] at reached
    rw [reached] at hduring
    -- The call finds the transaction open.
    obtain ⟨earlier, later, rfl, hs⟩ := Machine.exists_of_mem_steps called
    have hin : s.InTransaction i := by
      rw [Machine.legal_append] at hduring
      rw [← hs]
      exact core_inTransaction hopen hduring.1 fun call hcall =>
        keeps call (List.mem_append_left _ hcall)
    obtain ⟨m, c, hm, hvalid⟩ := KafkaAdapterSession.exists_validToken
      (KafkaAdapterSession.executeTransactional_ok_of_active hin.active returned)
    refine ⟨m, c, hm, hvalid, ?_⟩
    rw [covers_of_offsets (KafkaAdapterSession.commit_transaction committed)]
    exact core_run hopen hempty hduring keeps _ _ _

end KafkaConsumerEngine

namespace Sample

/-- One runtime with transactional sessions under the odd numbers. -/
def sessions : RuntimeSessions where
  sessions i := { transactional := i % 2 = 1 }

theorem sessions_fresh : sessions.Fresh :=
  ⟨rfl, rfl, rfl, fun _ => rfl, fun _ => rfl⟩

/-- The group joins, and records 0 and 1 of partition 0 are delivered. -/
def delivered : List (SessionCall TokenPayload) :=
  [.join command [0], .operate command.group (receive 0), .operate command.group (receive 1)]

/-- The source record at this offset, with one output. -/
def consumePublish (offset : ℕ) : TransactionalConsumePublishCommand TokenPayload where
  poll := command
  delivery := token offset 1 1
  outputs := [{ stream := orders, events := [event], idempotencyKey := none, batch := false }]

def consumePublishEnv : ConsumePublishEnv where
  publish _ _ := .ok ["receipt"]
  acknowledge := { nowMs := 1 }

end Sample

namespace KafkaConsumerEngine

/-- Record 0 is consumed at the safe offset. -/
theorem consumed_offset_iff_at_safe :
    let logs : GroupRef → PartitionLog := fun _ => Sample.log [0, 1] []
    let s := (Sample.engine.sharing logs).play Sample.sessions Sample.delivered
    let tx : KafkaTransaction := ⟨some "main:sales/workers", Dict.empty.set ("orders.v1", 0) 1⟩
    ∃ m c, s.runtime.states.get? Sample.command.group = some m ∧
      Sample.engine.ValidToken m (Sample.consumePublish 0).ackCommand 1 c ∧
      (tx.Covers "orders.v1" c.partition c.offset ↔
        ∃ ack ∈ [⟨s.runtime.opened, (Sample.consumePublish 0).ackCommand, { nowMs := 1 }⟩],
          TransactionAck.Passes Sample.engine ack "orders.v1" c.partition c.offset) :=
  consumed_offset_iff Sample.engine _ Sample.sessions Sample.sessions_fresh (Sample.consumePublish 0)
    Sample.consumePublishEnv _ _ _
    (.owned (i := 0) (by decide +kernel) rfl rfl
      (show _ = Except.ok (["receipt"], ⟨true, true, ⟨Sample.orders.ref, "orders.v1", 0, 1, none⟩⟩)
        by decide +kernel)
      (by decide +kernel))

/-- **The outputs are committed without their source.** Records 0 and 1 are delivered.
The consume-publish of record 1 succeeds, and its Kafka transaction carries no group
offset, since record 0 is still in flight. -/
theorem consumePublish_without_source :
    ∃ s acks tx m,
      Executed Sample.engine (fun _ => Sample.log [0, 1] []) Sample.sessions
        (Sample.consumePublish 1) Sample.consumePublishEnv s acks tx ∧
      s.runtime.states.get? Sample.command.group = some m ∧
      Sample.engine.ValidToken m (Sample.consumePublish 1).ackCommand 1
        (Sample.coordinates 1 1 1) ∧
      ¬tx.Covers "orders.v1" 0 1 := by
  let s := (Sample.engine.sharing fun _ => Sample.log [0, 1] []).play Sample.sessions
    Sample.delivered
  obtain ⟨m, hm⟩ : ∃ m, s.runtime.states.get? Sample.command.group = some m :=
    Option.isSome_iff_exists.mp (by decide +kernel)
  have hguard : (s.runtime.states.get? Sample.command.group).all
      fun m => acknowledgeGuard m (Sample.coordinates 1 1 1) = none := by decide +kernel
  rw [hm] at hguard
  refine ⟨s, _, ⟨none, .empty⟩, m, .owned (i := 0) (by decide +kernel) rfl rfl
    (show _ = Except.ok (["receipt"], ⟨true, false, ⟨Sample.orders.ref, "orders.v1", 0, 0, none⟩⟩)
      by decide +kernel) (by decide +kernel), hm,
    ⟨Sample.decodeDelivery_token 1 1 1 le_rfl, by simpa using hguard⟩, ?_⟩
  rintro ⟨next, hnext, -⟩
  exact absurd hnext (by simp)

end KafkaConsumerEngine

end MeridianKafka
