import MeridianKafka.Transactions.Lifecycle

/-!
# What a consume-publish that raises leaves in Kafka

A `TransactionBook` adds to the sessions of a runtime what Kafka sees: the records and
the offsets that the open Kafka transaction carries, each with the number of the call
that put it there, and those of the transactions that were committed. A transaction
begins empty when `begin_transaction` returns, and what it carries is gone when it ends
without a commit.

`_execute_transactional` aborts only a transaction of its own. In a Core transaction it
recovers the groups and raises, and what it has put into the transaction stays there,
for the next `commit` of the session. In its own transaction it also raises when the
telemetry sink does so after `commit_transaction` has returned.
-/

namespace MeridianKafka

open Framework

/-- What a Kafka transaction carries. -/
inductive TransactionEntry
  | record (record : ProducerRecord)
  | offset (offset : StagedOffset)

variable {Token : Type}

/-- The offset that `stage_offset` takes from an acknowledgement. -/
def SessionAck.stagedOffset (engine : KafkaConsumerEngine Token) (ack : SessionAck Token) :
    Option StagedOffset :=
  match ack.runtime.states.get? ack.command.group,
    engine.cursor.decodeDelivery ack.env.nowMs ack.command.delivery ack.command.subscription.ref
      ack.command.consumerGroup.ref ack.command.stream.topic with
  | some m, .ok c =>
    let groupKey := ack.command.consumerGroup.ref.str
    let safe := (m.contiguous c.partition c.offset).1
    if ack.transactional ∧ KafkaConsumerEngine.acknowledgeGuard m c = none ∧
        safe > m.original c.partition c.offset then
      match (ack.runtime.transactionBridge.stageOffset groupKey ack.env.consumerGroupMetadata
          ack.command.stream.topic c.partition safe).1 with
      | .ok () => some ⟨groupKey, ack.command.stream.topic, c.partition, safe⟩
      | .error _ => none
    else none
  | _, _ => none

/-- The records of the outputs that come to their publish. -/
def producedOutputs (env : ConsumePublishEnv) : List (PublishCommand × ℕ) → List ProducerRecord
  | [] => []
  | (output, place) :: rest =>
    env.produced place output ++
      match env.publish place output with
      | .ok _ => producedOutputs env rest
      | .error _ => []

/-- The records that a call gives to the transactional producer. -/
def recordsOf (s : RuntimeSessions) : SessionCall Token → List ProducerRecord
  | .executeTransactional i command env =>
    match (s.sessions i).consumePublishRuntime s.runtime env with
    | some runtime =>
      if runtime.transactionBridge.active then producedOutputs env command.outputs.zipIdx else []
    | none => []
  | _ => []

namespace KafkaConsumerEngine

variable (engine : KafkaConsumerEngine Token)

/-- What an action puts into the Kafka transaction. -/
def entriesOf (s : RuntimeSessions) : SessionAction Token → List TransactionEntry
  | .call call =>
    ((sessionAck (s, call)).bind (·.stagedOffset engine)).toList.map .offset ++
      (recordsOf s call).map .record
  | .publish i command env =>
    if (s.sessions i).ensureBegun = none ∧ (s.sessions i).active ∧
        s.runtime.transactionBridge.active then (env.produced command).map .record
    else []
  | _ => []

/-- The action is a consume-publish that raises. -/
def consumePublishRaises (s : RuntimeSessions) : SessionAction Token → Bool
  | .call (.executeTransactional i command env) =>
    !((s.sessions i).executeTransactional s.runtime engine command env).answer.isOk
  | _ => false

/-- A Kafka transaction is committed. -/
def commitsTransaction (s : RuntimeSessions) : SessionAction Token → Bool
  | .call call => (engine.committedTransaction (s, call)).isSome
  | _ => false

/-- A consume-publish within a Core transaction raises when something of it is in the
Kafka transaction. -/
def spoils (s : RuntimeSessions) : SessionAction Token → Bool
  | .call (.executeTransactional i command env) =>
    (s.sessions i).active &&
      engine.consumePublishRaises s (.call (.executeTransactional i command env)) &&
      !(engine.entriesOf s (.call (.executeTransactional i command env))).isEmpty
  | _ => false

end KafkaConsumerEngine

/-- The sessions of a runtime and what their Kafka transactions carry. -/
structure TransactionBook where
  sessions : RuntimeSessions
  /-- How many actions there were. -/
  calls : ℕ := 0
  /-- What the open Kafka transaction carries. -/
  contents : List (ℕ × TransactionEntry) := []
  /-- What was committed. -/
  committed : List (ℕ × TransactionEntry) := []
  /-- The consume-publish calls that raised. -/
  raised : List ℕ := []
  /-- `spoils` since the last `begin_transaction`. -/
  spoiled : Bool := false

namespace TransactionBook

variable (engine : KafkaConsumerEngine Token) (logs : GroupRef → PartitionLog)
  (book : TransactionBook)

/-- **No outputs of a failure**: nothing that a consume-publish which raised has put
into a Kafka transaction is committed. -/
def NoneOfRaised : Prop :=
  ∀ call ∈ book.raised, ∀ entry ∈ book.committed, entry.1 ≠ call

/-- What the Kafka transaction carries when an action ends or commits it. -/
def carried (action : SessionAction Token) : List (ℕ × TransactionEntry) :=
  (engine.entriesOf book.sessions action).map (book.calls, ·) ++
    if book.sessions.beginsTransaction action then [] else book.contents

/-- The book after an action. -/
def next (action : SessionAction Token) : TransactionBook where
  sessions := engine.act book.sessions action
  calls := book.calls + 1
  contents :=
    if (engine.act book.sessions action).runtime.transactionBridge.active then
      book.carried engine action
    else []
  committed :=
    if engine.commitsTransaction book.sessions action then
      book.carried engine action ++ book.committed
    else book.committed
  raised :=
    if engine.consumePublishRaises book.sessions action then book.calls :: book.raised
    else book.raised
  spoiled :=
    engine.spoils book.sessions action ||
      !book.sessions.beginsTransaction action && book.spoiled

/-- The sessions of one runtime, with what their Kafka transactions carry. -/
def machine : Machine TransactionBook (SessionAction Token) where
  allowed book := KafkaConsumerEngine.MayAct logs book.sessions
  next := next engine

/-- A Core transaction is not committed once a consume-publish in it has raised with
something in the Kafka transaction, and the telemetry sink lets a consume-publish return
whose own transaction was committed. -/
def CommitsUnspoiled : SessionAction Token → Prop
  | .call (.commit i env) =>
    (book.sessions.sessions i).active →
      (book.sessions.runtime.transactionBridge.sendOffsets env.commit).or
        env.commit.commitTransaction = none → book.spoiled = false
  | .call (.executeTransactional i _ env) =>
    (book.sessions.sessions i).active = false → env.commit.commitTransaction = none →
      env.commit.emit = none
  | _ => True

instance : DecidablePred (@CommitsUnspoiled Token book)
  | .call (.commit _ _) => inferInstanceAs (Decidable (_ → _ → _))
  | .call (.executeTransactional _ _ _) => inferInstanceAs (Decidable (_ → _ → _))
  | .call (.join _ _) | .call (.operate _ _) | .call (.begin _ _) | .call (.acknowledge _ _ _)
  | .call (.rollback _ _) | .publish _ _ _ | .close _ _ | .reorder _ _ => isTrue trivial

instance : Decidable book.NoneOfRaised :=
  inferInstanceAs (Decidable (∀ call ∈ book.raised, ∀ entry ∈ book.committed, entry.1 ≠ call))

instance (run : List (SessionAction Token)) : Decidable ((machine engine logs).Legal book run) :=
  inferInstanceAs (Decidable (∀ x ∈ (machine engine logs).steps book run,
    KafkaConsumerEngine.MayAct logs x.1.sessions x.2))

end TransactionBook

/-! ### How a transaction of its own ends -/

namespace KafkaAdapterSession

variable {engine : KafkaConsumerEngine Token} {session : KafkaAdapterSession}
  {runtime : KafkaAdapterRuntime} {command : TransactionalConsumePublishCommand Token}
  {env : ConsumePublishEnv}

theorem abandon_inactive {α : Type} (session : KafkaAdapterSession) (runtime : KafkaAdapterRuntime)
    (raised : Raised) (env : SessionRollbackEnv) :
    (session.abandon (α := α) runtime true raised env).runtime.transactionBridge.active =
      false := by
  rw [abandon_transactionBridge, Bool.true_and]
  split
  · next hactive =>
    rw [LeasedBridge.abort_bridge, if_pos hactive]
  · next hactive => simpa using hactive

/-- A Kafka transaction of its own has ended when the consume-publish ends. -/
theorem executeTransactional_inactive (own : session.active = false)
    (opens : (session.consumePublishRuntime runtime env).isSome) :
    (session.executeTransactional runtime engine command env).runtime.transactionBridge.active =
      false := by
  have hcases := session.consumePublish_cases engine runtime command env
  generalize session.executeTransactional runtime engine command env = outcome at hcases
  cases hcases with
  | refused _ _ stays => simp [stays] at opens
  | raised raised _ runtime' =>
    rw [own]
    exact abandon_inactive _ runtime' raised env.rollback
  | joined _ _ _ _ _ core => exact absurd (own.symm.trans core) (by simp)
  | undone _ raised _ runtime' bridge =>
    rw [own]
    exact abandon_inactive _ { runtime' with transactionBridge := bridge } raised env.rollback
  | owned _ _ runtime' bridge _ _ _ _ commits =>
    have hinactive := runtime'.transactionBridge.commit_inactive env.commit
    rw [commits] at hinactive
    exact hinactive

/-- The Kafka transaction that a consume-publish commits is its own, and the call returns
unless the telemetry sink raises then. -/
theorem executeTransactional_committed {tx : KafkaTransaction}
    (h : (session.executeTransactional runtime engine command env).transaction = some tx) :
    session.active = false ∧ (session.consumePublishRuntime runtime env).isSome ∧
      env.commit.commitTransaction = none ∧
      (env.commit.emit = none →
        (session.executeTransactional runtime engine command env).answer.isOk) := by
  have hcases := session.consumePublish_cases engine runtime command env
  generalize session.executeTransactional runtime engine command env = outcome at hcases h
  cases hcases with
  | refused => simp at h
  | raised raised _ runtime' =>
    rw [abandon_transaction] at h
    simp at h
  | joined => simp at h
  -- The transaction was committed, and the telemetry of the commit raised.
  | undone _ raised _ runtime' bridge applied opens _ own commits =>
    obtain ⟨offsets, rfl, -⟩ := Option.map_eq_some_iff.mp h
    obtain ⟨hsent, hreturns⟩ := runtime'.transactionBridge.commit_of_applied env.commit
      (by rw [commits])
    rw [Option.or_eq_none_iff] at hsent
    refine ⟨own, Option.isSome_of_eq_some opens, hsent.2, fun hemit => ?_⟩
    have hok := hreturns hemit
    rw [commits] at hok
    simp at hok
  | owned _ _ runtime' bridge applied opens _ own commits =>
    obtain ⟨offsets, rfl, -⟩ := Option.map_eq_some_iff.mp h
    obtain ⟨hsent, -⟩ := runtime'.transactionBridge.commit_of_applied env.commit
      (by rw [commits])
    rw [Option.or_eq_none_iff] at hsent
    exact ⟨own, Option.isSome_of_eq_some opens, hsent.2, fun _ => rfl⟩

/-- What a `commit` that commits has found. -/
theorem commit_of_transaction {env : SessionCommitEnv} {tx : KafkaTransaction}
    (h : (session.commit runtime env).transaction = some tx) :
    session.active = true ∧
      (runtime.transactionBridge.sendOffsets env.commit).or env.commit.commitTransaction = none := by
  by_cases hbegun : session.ensureOpen = none ∧ session.active
  swap
  · rw [(session.commit_of_inactive runtime env hbegun).2.2] at h
    simp at h
  refine ⟨hbegun.2, ?_⟩
  rw [(session.commit_of_active runtime env hbegun.1 hbegun.2).1] at h
  obtain ⟨offsets, happlied, -⟩ := Option.map_eq_some_iff.mp h
  exact (runtime.transactionBridge.commit_of_applied env.commit happlied).1

/-- A consume-publish that comes to its first publish without a Core transaction has
begun a Kafka transaction. -/
theorem begun_of_opens (own : session.active = false)
    (opens : (session.consumePublishRuntime runtime env).isSome) :
    session.ensureBegun = none ∧ runtime.transactionBridge.lease = false ∧
      env.begin.beginTransaction = none := by
  unfold consumePublishRuntime at opens
  cases hbegun : session.ensureBegun with
  | some raised => simp [hbegun] at opens
  | none =>
    rw [hbegun, own] at opens
    dsimp only at opens
    rw [if_neg Bool.false_ne_true] at opens
    rcases hbegin : runtime.transactionBridge.begin env.begin.beginTransaction env.begin.emit with
      ⟨raised | ⟨⟨⟩⟩, bridge⟩
    · simp [hbegin] at opens
    · obtain ⟨hlease, -⟩ := KafkaTransactionBridge.begin_ok hbegin
      exact ⟨rfl, hlease, KafkaTransactionBridge.client_of_begin hbegin⟩

end KafkaAdapterSession

/-! ### The invariant -/

namespace KafkaConsumerEngine

variable {engine : KafkaConsumerEngine Token} {s : RuntimeSessions} {action : SessionAction Token}

/-- An action spoils a transaction that was begun before it. -/
theorem not_begins_of_spoils (h : engine.spoils s action = true) :
    s.beginsTransaction action = false := by
  cases action with
  | call call =>
    cases call with
    | executeTransactional i command env =>
      have hactive : (s.sessions i).active = true := by
        simp only [spoils, Bool.and_eq_true] at h
        exact h.1.1
      simp [RuntimeSessions.beginsTransaction, hactive]
    | _ => simp [spoils] at h
  | _ => simp [spoils] at h

/-- What a consume-publish that raises has put into a Kafka transaction of its own is
gone when it ends. -/
theorem spoils_or_inactive (raises : engine.consumePublishRaises s action = true)
    (entries : engine.entriesOf s action ≠ []) :
    engine.spoils s action = true ∨
      (engine.act s action).runtime.transactionBridge.active = false := by
  cases action with
  | call call =>
    cases call with
    | executeTransactional i command env =>
      by_cases hactive : (s.sessions i).active = true
      · left
        simp [spoils, hactive, raises, entries]
      · right
        have hown : (s.sessions i).active = false := by simpa using hactive
        apply KafkaAdapterSession.executeTransactional_inactive hown
        -- A call that stops before its first publish puts nothing there.
        by_contra hstays
        have hnone : (s.sessions i).consumePublishRuntime s.runtime env = none := by
          simpa using hstays
        apply entries
        have hack := KafkaAdapterSession.sessionAck_of_stays command hnone
        simp [entriesOf, hack, recordsOf, hnone]
    | _ => simp [consumePublishRaises] at raises
  | _ => simp [consumePublishRaises] at raises

end KafkaConsumerEngine

namespace TransactionBook

variable {engine : KafkaConsumerEngine Token} {logs : GroupRef → PartitionLog}
  {book : TransactionBook}

/-- What carries `NoneOfRaised` along a run. -/
structure Unspoiled (book : TransactionBook) : Prop where
  raised : ∀ call ∈ book.raised, call < book.calls
  contents : ∀ entry ∈ book.contents, entry.1 < book.calls
  committed : ∀ entry ∈ book.committed, entry.1 < book.calls
  /-- Nothing of a failure is in the open transaction unless that is spoiled. -/
  clean : book.spoiled = false → ∀ call ∈ book.raised, ∀ entry ∈ book.contents, entry.1 ≠ call
  none : book.NoneOfRaised

/-- A transaction that is committed has just begun, or is not spoiled, and the action does
not raise. -/
theorem CommitsUnspoiled.commits {action : SessionAction Token}
    (careful : book.CommitsUnspoiled action)
    (commits : engine.commitsTransaction book.sessions action = true) :
    (book.sessions.beginsTransaction action = true ∨ book.spoiled = false) ∧
      engine.consumePublishRaises book.sessions action = false := by
  cases action with
  | call call =>
    obtain ⟨tx, htx⟩ := Option.isSome_iff_exists.mp commits
    cases call with
    | commit i env =>
      obtain ⟨hactive, hsent⟩ := KafkaAdapterSession.commit_of_transaction htx
      exact ⟨Or.inr (careful hactive hsent), rfl⟩
    | executeTransactional i command env =>
      obtain ⟨hown, hopens, hclient, hreturns⟩ :=
        KafkaAdapterSession.executeTransactional_committed htx
      obtain ⟨hbegun, hlease, hbegin⟩ := KafkaAdapterSession.begun_of_opens hown hopens
      refine ⟨Or.inl ?_, ?_⟩
      · simp [RuntimeSessions.beginsTransaction, hbegun, hown, hlease, hbegin]
      · have hok := hreturns (careful hown hclient)
        simpa [KafkaConsumerEngine.consumePublishRaises] using hok
    | _ => simp [KafkaConsumerEngine.committedTransaction] at htx
  | _ => simp [KafkaConsumerEngine.commitsTransaction] at commits

/-- What the Kafka transaction carries is of this action or was there before it, and then
the action has not begun it. -/
theorem mem_carried {action : SessionAction Token} {entry : ℕ × TransactionEntry}
    (h : entry ∈ book.carried engine action) :
    entry.1 = book.calls ∧ engine.entriesOf book.sessions action ≠ [] ∨
      entry ∈ book.contents ∧ book.sessions.beginsTransaction action = false := by
  unfold carried at h
  rcases List.mem_append.mp h with hnew | hold
  · left
    obtain ⟨x, hx, rfl⟩ := List.mem_map.mp hnew
    exact ⟨rfl, List.ne_nil_of_mem hx⟩
  · right
    split at hold
    · simp at hold
    · next hbegins => exact ⟨hold, by simpa using hbegins⟩

/-- **One action.** -/
theorem Unspoiled.step (h : book.Unspoiled) {action : SessionAction Token}
    (careful : book.CommitsUnspoiled action) : (book.next engine action).Unspoiled := by
  -- The calls that raised are this one or older.
  have hraised : ∀ call ∈ (book.next engine action).raised,
      call = book.calls ∧ engine.consumePublishRaises book.sessions action = true ∨
        call ∈ book.raised := by
    intro call hcall
    dsimp only [next] at hcall
    split at hcall
    · next hraises =>
      exact (List.mem_cons.mp hcall).imp_left fun heq => ⟨heq, hraises⟩
    · exact Or.inr hcall
  have hcarried : ∀ entry ∈ book.carried engine action, entry.1 < book.calls + 1 := by
    intro entry hentry
    rcases mem_carried hentry with ⟨heq, -⟩ | ⟨hold, -⟩
    · rw [heq]
      exact Nat.lt_succ_self _
    · exact (h.contents entry hold).trans (Nat.lt_succ_self _)
  constructor
  case raised =>
    intro call hcall
    rcases hraised call hcall with ⟨rfl, -⟩ | hold
    · exact Nat.lt_succ_self _
    · exact (h.raised call hold).trans (Nat.lt_succ_self _)
  case contents =>
    intro entry hentry
    dsimp only [next] at hentry
    split at hentry
    · exact hcarried entry hentry
    · simp at hentry
  case committed =>
    intro entry hentry
    dsimp only [next] at hentry
    split at hentry
    · exact (List.mem_append.mp hentry).elim (hcarried entry)
        fun hold => (h.committed entry hold).trans (Nat.lt_succ_self _)
    · exact (h.committed entry hentry).trans (Nat.lt_succ_self _)
  case clean =>
    intro hclean call hcall entry hentry heq
    obtain ⟨hspoils, hspoiled⟩ := Bool.or_eq_false_iff.mp hclean
    dsimp only [next] at hentry
    split at hentry
    swap
    · simp at hentry
    next hopen =>
    rcases hraised call hcall with ⟨rfl, hraises⟩ | hold <;>
      rcases mem_carried hentry with ⟨hnew, hentries⟩ | ⟨hthere, hbegins⟩
    · -- The action raises and leaves something of its own: it has spoiled the transaction.
      rcases KafkaConsumerEngine.spoils_or_inactive hraises hentries with hspoil | hinactive
      · exact absurd (hspoils.symm.trans hspoil) (by simp)
      · exact absurd (hinactive.symm.trans hopen) (by simp)
    · exact absurd (h.contents entry hthere) (by omega)
    · exact absurd (h.raised call hold) (by omega)
    · rw [hbegins, Bool.not_false, Bool.true_and] at hspoiled
      exact h.clean hspoiled call hold entry hthere heq
  case none =>
    intro call hcall entry hentry heq
    dsimp only [next] at hentry
    split at hentry
    swap
    · rcases hraised call hcall with ⟨rfl, -⟩ | hold
      · exact absurd (h.committed entry hentry) (by omega)
      · exact h.none call hold entry hentry heq
    next hcommits =>
    obtain ⟨hbegun, hreturns⟩ := careful.commits hcommits
    rcases hraised call hcall with ⟨-, hraises⟩ | hold
    · exact absurd (hreturns.symm.trans hraises) (by simp)
    rcases List.mem_append.mp hentry with hcarries | hthere
    swap
    · exact h.none call hold entry hthere heq
    rcases mem_carried hcarries with ⟨hnew, -⟩ | ⟨hthere, hbegins⟩
    · exact absurd (h.raised call hold) (by omega)
    · have hclean : book.spoiled = false :=
        hbegun.resolve_left fun hbegun => absurd (hbegins.symm.trans hbegun) (by simp)
      exact h.clean hclean call hold entry hthere heq

/-- **No outputs of a failure are committed** in a run whose Core transactions are not
committed once they are spoiled, and whose telemetry sink lets each consume-publish
return that has committed. -/
theorem none_of_raised_committed {start : RuntimeSessions} {run : List (SessionAction Token)}
    (legal : (machine engine logs).Legal { sessions := start } run)
    (careful : ∀ x ∈ (machine engine logs).steps { sessions := start } run,
      x.1.CommitsUnspoiled x.2) :
    ((machine engine logs).play { sessions := start } run).NoneOfRaised := by
  have hstart : Unspoiled { sessions := start } := by
    constructor <;> simp [NoneOfRaised]
  exact (Machine.play_induction (I := Unspoiled) (fun book action h _ hcareful => h.step hcareful)
    hstart legal careful).none

end TransactionBook

namespace Sample

/-- Session 1 has begun, and the consume-publish of record 0 raises once its output is
published. -/
def outputFailure : List (SessionAction TokenPayload) :=
  delivered.map .call ++
    [.call (.begin 1 {}),
      .call (.executeTransactional 1 (consumePublish 0)
        { consumePublishEnv with
          acknowledge := { nowMs := 1, consumerGroupMetadata := .error .other } })]

end Sample

namespace TransactionBook

/-- Session 1 rolls back, and session 0 executes a consume-publish of its own. -/
theorem none_of_raised_committed_rollback :
    ((machine Sample.engine fun _ => Sample.log [0, 1] []).play { sessions := Sample.sessions }
      (Sample.outputFailure ++ [.call (.rollback 1 {}),
        .call (.executeTransactional 0 (Sample.consumePublish 1)
          Sample.consumePublishEnv)])).NoneOfRaised :=
  none_of_raised_committed (by decide +kernel) (by decide +kernel)

/-- **The output of a failure is committed.** In the Core transaction of session 1 the
output of record 0 is published and its acknowledgement raises; the session commits, and
the output is committed without the offset of its source. -/
theorem output_of_failure_committed :
    let book := (machine Sample.engine fun _ => Sample.log [0, 1] []).play
      { sessions := Sample.sessions } (Sample.outputFailure ++ [.call (.commit 1 {})])
    (machine Sample.engine fun _ => Sample.log [0, 1] []).Legal { sessions := Sample.sessions }
        (Sample.outputFailure ++ [.call (.commit 1 {})]) ∧
      ¬book.NoneOfRaised := by
  decide +kernel

end TransactionBook

end MeridianKafka
