import MeridianKafka.Transactions.Lifecycle

/-!
# What is left of a transaction that did not commit

An acknowledgement inside a Kafka transaction moves the books of its member when the
offset is only staged, so a transaction that ends without a commit must take the member
out of the engine. An `AttemptBook` adds to the sessions how often each group was joined,
which tells a member from the one that replaces it, and which members the open
transaction of each session has acknowledged or tried to acknowledge on.

Every path recovers the touched groups one after another and stops at the first one whose
recovery raises. `commit` forgets the touched groups all the same; `rollback`, `close` and
a consume-publish in its own transaction keep them, and the last of these recovers nothing
when its abort raises.
-/

namespace MeridianKafka

open Framework

variable {Token : Type}

/-! ### Recovering the touched groups -/

namespace KafkaAdapterRuntime

variable (runtime : KafkaAdapterRuntime)

/-- Recovering a touched group raises. -/
def RecoverRaises (env : RecoverEnv) (group : GroupRef) : Prop :=
  (runtime.states.get? group).isSome ∧ (env group).isSome

instance (env : RecoverEnv) (group : GroupRef) : Decidable (runtime.RecoverRaises env group) :=
  inferInstanceAs (Decidable (_ ∧ _))

/-- The first group whose recovery raises is the last one with a member. -/
def RecoversBeforeRaise (env : RecoverEnv) : List GroupRef → Prop
  | [] => True
  | group :: groups =>
    if runtime.RecoverRaises env group then
      ∀ later ∈ groups, runtime.states.get? later = none
    else RecoversBeforeRaise env groups

instance RecoversBeforeRaise.decidable (env : RecoverEnv) :
    (groups : List GroupRef) → Decidable (runtime.RecoversBeforeRaise env groups)
  | [] => isTrue trivial
  | group :: groups =>
    have := RecoversBeforeRaise.decidable env groups
    inferInstanceAs (Decidable (if runtime.RecoverRaises env group then
      ∀ later ∈ groups, runtime.states.get? later = none
    else runtime.RecoversBeforeRaise env groups))

end KafkaAdapterRuntime

/-! ### Transactions that end without a commit -/

namespace KafkaConsumerEngine

variable (engine : KafkaConsumerEngine Token)

/-- The session whose Kafka transaction the action ends without a commit: the one of a
Core transaction, or the one of a consume-publish. -/
def endsUncommitted (s : RuntimeSessions) : SessionAction Token → Option ℕ
  | .call (.commit i env) =>
    if (s.sessions i).closed = false ∧ (s.sessions i).active = true ∧
        ((s.sessions i).commit s.runtime env).transaction.isNone then some i else none
  | .call (.rollback i _) | .close i _ =>
    if (s.sessions i).closed = false ∧ (s.sessions i).active = true then some i else none
  | .call (.executeTransactional i command env) =>
    if (s.sessions i).active = false ∧
        ((s.sessions i).consumePublishRuntime s.runtime env).isSome ∧
        ((s.sessions i).executeTransactional s.runtime engine command env).transaction.isNone then
      some i
    else none
  | _ => none

end KafkaConsumerEngine

/-- The sessions of a runtime, how often each group was joined, and where the open
transaction of each session has attempted an acknowledgement: at which join of which
group. -/
structure AttemptBook where
  sessions : RuntimeSessions
  joins : GroupRef → ℕ := fun _ => 0
  attempts : ℕ → List (GroupRef × ℕ) := fun _ => []

namespace AttemptBook

variable (engine : KafkaConsumerEngine Token) (logs : GroupRef → PartitionLog) (book : AttemptBook)

/-- Where an action of the session attempts an acknowledgement in a transaction. -/
def attempted (i : ℕ) : SessionAction Token → List (GroupRef × ℕ)
  | .call call =>
    if call.session = some i then
      ((sessionAck (book.sessions, call)).filter (·.transactional)).toList.map
        fun ack => (ack.command.group, book.joins ack.command.group)
    else []
  | _ => []

/-- How often each group was joined after an action. -/
def joinsAfter : SessionAction Token → GroupRef → ℕ
  | .call (.join poll _) =>
    if (book.sessions.runtime.states.get? poll.group).isSome then book.joins
    else Function.update book.joins poll.group (book.joins poll.group + 1)
  | _ => book.joins

/-- The book after an action. -/
def next (action : SessionAction Token) : AttemptBook where
  sessions := engine.act book.sessions action
  joins := book.joinsAfter action
  attempts i :=
    if ((engine.act book.sessions action).sessions i).active then
      book.attempted i action ++ book.attempts i
    else []

/-- The sessions of one runtime, with what their transactions attempt. -/
def machine : Machine AttemptBook (SessionAction Token) where
  allowed book := KafkaConsumerEngine.MayAct logs book.sessions
  next := next engine

/-- The member that the group had then is no longer in the engine. -/
def Discarded (attempt : GroupRef × ℕ) : Prop :=
  book.sessions.runtime.states.get? attempt.1 = none ∨ book.joins attempt.1 ≠ attempt.2

instance (attempt : GroupRef × ℕ) : Decidable (book.Discarded attempt) :=
  inferInstanceAs (Decidable (_ ∨ _))

/-- **No phantom progress**: when the action ends a transaction of a session without a
commit, every member that the transaction has attempted to acknowledge on is discarded, and
the session no longer lists its group. -/
def NoPhantom (action : SessionAction Token) : Prop :=
  ∀ i ∈ engine.endsUncommitted book.sessions action,
    ∀ attempt ∈ book.attempted i action ++ book.attempts i,
      (book.next engine action).Discarded attempt ∧
        attempt.1 ∉ ((book.next engine action).sessions.sessions i).touchedGroups

/-- The recovery of an action that ends a transaction without a commit gets through. When a
`commit` fails, only groups without a member come after one whose recovery raises.
Otherwise no recovery raises, nor the abort of a consume-publish whose acknowledgement has
raised in its own transaction. -/
def RecoveryGetsThrough (action : SessionAction Token) : Prop :=
  (engine.endsUncommitted book.sessions action).isSome →
    let s := book.sessions
    match action with
    | .call (.commit i env) =>
      s.runtime.RecoversBeforeRaise env.recover (s.sessions i).touchedGroups
    | .call (.rollback i env) | .close i env =>
      ∀ group ∈ (s.sessions i).touchedGroups, ¬s.runtime.RecoverRaises env.recover group
    | .call (.executeTransactional i command env) =>
      ∀ ack ∈ sessionAck (s, .executeTransactional i command env),
        ((ack.runtime.acknowledge engine ack.command ack.transactional ack.env).1.isOk = false →
          env.rollback.abortTransaction = none ∧ env.rollback.emit = none) ∧
        ∀ group ∈ ((s.sessions i).touch command.ackCommand.group).touchedGroups,
          ¬s.runtime.RecoverRaises env.rollback.recover group
    | _ => True

instance (action : SessionAction Token) : Decidable (book.NoPhantom engine action) :=
  inferInstanceAs (Decidable (∀ i ∈ engine.endsUncommitted book.sessions action,
    ∀ attempt ∈ book.attempted i action ++ book.attempts i,
      (book.next engine action).Discarded attempt ∧
        attempt.1 ∉ ((book.next engine action).sessions.sessions i).touchedGroups))

instance : DecidablePred (@RecoveryGetsThrough Token engine book)
  | .call (.commit _ _) => inferInstanceAs (Decidable (_ → KafkaAdapterRuntime.RecoversBeforeRaise ..))
  | .call (.rollback _ _) | .close _ _ => inferInstanceAs (Decidable (_ → ∀ group ∈ _, ¬_))
  | .call (.executeTransactional _ _ _) =>
    inferInstanceAs (Decidable (_ → ∀ ack ∈ sessionAck _, (_ → _ ∧ _) ∧ ∀ group ∈ _, ¬_))
  | .call (.join _ _) | .call (.operate _ _) | .call (.begin _ _) | .call (.acknowledge _ _ _)
  | .publish _ _ _ | .reorder _ _ => isTrue fun _ => trivial

instance (run : List (SessionAction Token)) : Decidable ((machine engine logs).Legal book run) :=
  inferInstanceAs (Decidable (∀ x ∈ (machine engine logs).steps book run,
    KafkaConsumerEngine.MayAct logs x.1.sessions x.2))

end AttemptBook

/-! ### What the recovery leaves -/

namespace KafkaAdapterRuntime

variable {runtime runtime' : KafkaAdapterRuntime}

/-- A group without a member still has none. -/
def KeepsAbsent (runtime runtime' : KafkaAdapterRuntime) : Prop :=
  ∀ group, runtime.states.get? group = none → runtime'.states.get? group = none

theorem KeepsAbsent.of_subset (h : ∀ group m, runtime'.states.get? group = some m →
    runtime.states.get? group = some m) : runtime.KeepsAbsent runtime' := by
  intro group habsent
  cases hm : runtime'.states.get? group with
  | none => rfl
  | some m => exact absurd (habsent.symm.trans (h group m hm)) (by simp)

theorem KeepsAbsent.of_evolves {engine : KafkaConsumerEngine Token} {logs : GroupRef → PartitionLog}
    (h : runtime.Evolves engine logs runtime') : runtime.KeepsAbsent runtime' := by
  intro group habsent
  cases hm' : runtime'.states.get? group with
  | none => rfl
  | some m' =>
    rcases h group m' hm' with hm | ⟨m, _, hm, -⟩ <;>
      exact absurd (habsent.symm.trans hm) (by simp)

theorem KeepsAbsent.of_acknowledges {engine : KafkaConsumerEngine Token} {transactional : Bool}
    (h : runtime.Acknowledges engine transactional runtime') : runtime.KeepsAbsent runtime' :=
  .of_evolves (h.evolves : runtime.Evolves engine (fun _ _ _ => none) runtime')

theorem RecoverRaises.of_keepsAbsent {env : RecoverEnv} {group : GroupRef}
    (h : runtime'.RecoverRaises env group) (keeps : runtime.KeepsAbsent runtime') :
    runtime.RecoverRaises env group := by
  refine ⟨?_, h.2⟩
  by_contra habsent
  have hnone := keeps group (by simpa using habsent)
  exact absurd h.1 (by simp [hnone])

variable (runtime)

theorem get?_recover_self (group : GroupRef) (raises : Option Raised) :
    (runtime.recover group raises).2.states.get? group = none := by
  unfold recover
  split
  · assumption
  · exact Dict.get?_erase_self ..

theorem recover_keepsAbsent (group : GroupRef) (raises : Option Raised) :
    runtime.KeepsAbsent (runtime.recover group raises).2 := by
  intro group' habsent
  unfold recover
  split
  · exact habsent
  · dsimp only
    rw [Dict.get?_erase]
    split
    · rfl
    · exact habsent

theorem recoverTouchedGroups_keepsAbsent (env : RecoverEnv) (groups : List GroupRef) :
    runtime.KeepsAbsent (recoverTouchedGroups env groups runtime).2 :=
  .of_subset (get?_recoverTouchedGroups env groups runtime)

theorem recover_raises_iff (env : RecoverEnv) (group : GroupRef) :
    (runtime.recover group (env group)).1.isSome ↔ runtime.RecoverRaises env group := by
  unfold recover RecoverRaises
  split <;> simp_all

/-- A recovery that gets through has discarded every group. -/
theorem get?_of_recovered (env : RecoverEnv) (groups : List GroupRef)
    (h : (recoverTouchedGroups env groups runtime).1 = none) :
    ∀ group ∈ groups, (recoverTouchedGroups env groups runtime).2.states.get? group = none := by
  induction groups generalizing runtime with
  | nil => simp
  | cons first groups ih =>
    have hself := runtime.get?_recover_self first (env first)
    rw [recoverTouchedGroups] at h ⊢
    rcases hr : runtime.recover first (env first) with ⟨raises, runtime'⟩
    rw [hr] at h hself
    cases raises with
    | some raised => simp at h
    | none =>
      intro group hgroup
      rcases List.mem_cons.mp hgroup with rfl | hrest
      · exact runtime'.recoverTouchedGroups_keepsAbsent env groups group hself
      · exact ih runtime' h group hrest

theorem recoverTouchedGroups_of_quiet (env : RecoverEnv) (groups : List GroupRef)
    (h : ∀ group ∈ groups, ¬runtime.RecoverRaises env group) :
    (recoverTouchedGroups env groups runtime).1 = none := by
  induction groups generalizing runtime with
  | nil => rfl
  | cons first groups ih =>
    have hquiet := mt (runtime.recover_raises_iff env first).mp (h first List.mem_cons_self)
    have hkeeps := runtime.recover_keepsAbsent first (env first)
    rw [recoverTouchedGroups]
    rcases hr : runtime.recover first (env first) with ⟨raises, runtime'⟩
    rw [hr] at hquiet hkeeps
    cases raises with
    | some raised => simp at hquiet
    | none =>
      apply ih runtime'
      intro group hgroup hraises
      exact h group (List.mem_cons_of_mem _ hgroup) (hraises.of_keepsAbsent hkeeps)

/-- Nothing raises when no group has a member. -/
theorem RecoversBeforeRaise.of_absent {env : RecoverEnv} {groups : List GroupRef}
    (h : ∀ group ∈ groups, runtime.states.get? group = none) :
    runtime.RecoversBeforeRaise env groups := by
  induction groups with
  | nil => trivial
  | cons first groups ih =>
    have hquiet : ¬runtime.RecoverRaises env first := by
      rintro ⟨hsome, -⟩
      simp [h first List.mem_cons_self] at hsome
    rw [RecoversBeforeRaise, if_neg hquiet]
    exact ih fun group hgroup => h group (List.mem_cons_of_mem _ hgroup)

variable {runtime} in
theorem RecoversBeforeRaise.of_keepsAbsent {env : RecoverEnv} {groups : List GroupRef}
    (h : runtime.RecoversBeforeRaise env groups) (keeps : runtime.KeepsAbsent runtime') :
    runtime'.RecoversBeforeRaise env groups := by
  induction groups with
  | nil => trivial
  | cons first groups ih =>
    rw [RecoversBeforeRaise] at h ⊢
    split at h
    · have habsent : ∀ group ∈ groups, runtime'.states.get? group = none :=
        fun group hgroup => keeps group (h group hgroup)
      split
      · exact habsent
      · exact .of_absent runtime' habsent
    · next hquiet =>
      rw [if_neg fun hraises => hquiet (hraises.of_keepsAbsent keeps)]
      exact ih h

/-- When the recovery that raises is the last one with a member, every group is
discarded. -/
theorem get?_of_recoversBeforeRaise (env : RecoverEnv) (groups : List GroupRef)
    (h : runtime.RecoversBeforeRaise env groups) :
    ∀ group ∈ groups, (recoverTouchedGroups env groups runtime).2.states.get? group = none := by
  induction groups generalizing runtime with
  | nil => simp
  | cons first groups ih =>
    have hself := runtime.get?_recover_self first (env first)
    have hkeeps := runtime.recover_keepsAbsent first (env first)
    have hraises := runtime.recover_raises_iff env first
    rw [RecoversBeforeRaise] at h
    rw [recoverTouchedGroups]
    rcases hr : runtime.recover first (env first) with ⟨raises, runtime'⟩
    rw [hr] at hself hkeeps hraises
    intro group hgroup
    -- Nothing is recovered after the first call that raises.
    cases raises with
    | some raised =>
      rw [if_pos (hraises.mp rfl)] at h
      rcases List.mem_cons.mp hgroup with rfl | hrest
      · exact hself
      · exact hkeeps group (h group hrest)
    | none =>
      rw [if_neg fun hraise => absurd (hraises.mpr hraise) (by simp)] at h
      rcases List.mem_cons.mp hgroup with rfl | hrest
      · exact runtime'.recoverTouchedGroups_keepsAbsent env groups group hself
      · exact ih runtime' (h.of_keepsAbsent hkeeps) group hrest

/-- A group is discarded when no recovery before it raises. -/
theorem get?_of_reached (env : RecoverEnv) (groups : List GroupRef) {group : GroupRef}
    (listed : group ∈ groups)
    (quiet : ∀ first ∈ groups.takeWhile (· ≠ group), ¬runtime.RecoverRaises env first) :
    (recoverTouchedGroups env groups runtime).2.states.get? group = none := by
  induction groups generalizing runtime with
  | nil => simp at listed
  | cons first groups ih =>
    have hself := runtime.get?_recover_self first (env first)
    have hkeeps := runtime.recover_keepsAbsent first (env first)
    have hraises := runtime.recover_raises_iff env first
    rw [recoverTouchedGroups]
    rcases hr : runtime.recover first (env first) with ⟨raises, runtime'⟩
    rw [hr] at hself hkeeps hraises
    by_cases heq : first = group
    · -- The recovery reaches the group, whether it raises there or not.
      subst heq
      cases raises with
      | some raised => exact hself
      | none => exact runtime'.recoverTouchedGroups_keepsAbsent env groups first hself
    · rw [List.takeWhile_cons_of_pos (by simpa using heq)] at quiet
      cases raises with
      | some raised => exact absurd (hraises.mp rfl) (quiet first List.mem_cons_self)
      | none =>
        refine ih runtime' ((List.mem_cons.mp listed).resolve_left (Ne.symm heq)) ?_
        intro later hlater hraise
        exact quiet later (List.mem_cons_of_mem _ hlater) (hraise.of_keepsAbsent hkeeps)

end KafkaAdapterRuntime

namespace KafkaAdapterSession

variable (session : KafkaAdapterSession) (runtime : KafkaAdapterRuntime)

/-- The bridge is finished by the `commit` of a session with a Core transaction. -/
theorem commit_transactionBridge (env : SessionCommitEnv) (hopen : session.closed = false)
    (hactive : session.active = true) :
    (session.commit runtime env).runtime.transactionBridge =
      (runtime.transactionBridge.commit env.commit).2.1 := by
  obtain ⟨-, ⟨-, heq⟩ | heq⟩ :=
    session.commit_of_active runtime env (session.ensureOpen_eq_none.mpr hopen) hactive <;> rw [heq]
  exact KafkaAdapterRuntime.recoverTouchedGroups_bridge ..

/-- A `commit` that does not commit recovers the touched groups. -/
theorem commit_of_uncommitted (env : SessionCommitEnv) (hopen : session.closed = false)
    (hactive : session.active = true)
    (uncommitted : (session.commit runtime env).transaction = none) :
    ∃ bridge, (session.commit runtime env).runtime =
      (KafkaAdapterRuntime.recoverTouchedGroups env.recover session.touchedGroups
        { runtime with transactionBridge := bridge }).2 := by
  obtain ⟨htransaction, ⟨hreturns, -⟩ | heq⟩ :=
    session.commit_of_active runtime env (session.ensureOpen_eq_none.mpr hopen) hactive
  · -- A commit that returns has committed.
    have happlied := runtime.transactionBridge.applied_of_commit env.commit hreturns
    rw [htransaction, Option.map_eq_none_iff] at uncommitted
    simp [uncommitted] at happlied
  · exact ⟨_, heq⟩

/-- A session lists none of its groups, and none of them has a member. -/
def DiscardsTouched (session' : KafkaAdapterSession) (runtime' : KafkaAdapterRuntime) : Prop :=
  session'.touchedGroups = [] ∧
    ∀ group ∈ session.touchedGroups, runtime'.states.get? group = none

theorem commit_discards (env : SessionCommitEnv) (hopen : session.closed = false)
    (hactive : session.active = true) (uncommitted : (session.commit runtime env).transaction = none)
    (h : runtime.RecoversBeforeRaise env.recover session.touchedGroups) :
    session.DiscardsTouched (session.commit runtime env).session
      (session.commit runtime env).runtime := by
  have hsession := session.commit_session runtime env (session.ensureOpen_eq_none.mpr hopen) hactive
  refine ⟨by rw [hsession], ?_⟩
  obtain ⟨bridge, hruntime⟩ := session.commit_of_uncommitted runtime env hopen hactive uncommitted
  rw [hruntime]
  exact KafkaAdapterRuntime.get?_of_recoversBeforeRaise _ env.recover session.touchedGroups
    (h.of_keepsAbsent fun _ => id)

theorem rollback_discards (env : SessionRollbackEnv) (hopen : session.closed = false)
    (hactive : session.active = true)
    (h : ∀ group ∈ session.touchedGroups, ¬runtime.RecoverRaises env.recover group) :
    session.DiscardsTouched (session.rollback runtime env).session
      (session.rollback runtime env).runtime := by
  obtain ⟨hruntime, hsession⟩ :=
    session.rollback_of_active runtime env (session.ensureOpen_eq_none.mpr hopen) hactive
  -- the abort leaves the groups alone, so each of them is recovered
  have hquiet := KafkaAdapterRuntime.recoverTouchedGroups_of_quiet
    { runtime with
      transactionBridge := (runtime.transactionBridge.abort env.abortTransaction env.emit).2 }
    env.recover session.touchedGroups h
  have hgone := KafkaAdapterRuntime.get?_of_recovered _ env.recover session.touchedGroups hquiet
  rw [hquiet] at hsession
  unfold DiscardsTouched
  rw [hruntime, hsession]
  exact ⟨rfl, hgone⟩

/-- `close` leaves the groups like `rollback`. -/
theorem close_discards (env : SessionRollbackEnv) (hopen : session.closed = false)
    (hactive : session.active = true)
    (h : ∀ group ∈ session.touchedGroups, ¬runtime.RecoverRaises env.recover group) :
    session.DiscardsTouched (session.close runtime env).session
      (session.close runtime env).runtime := by
  obtain ⟨hruntime, -, htouched⟩ := session.close_of_active runtime env hopen hactive
  unfold DiscardsTouched
  rw [hruntime, htouched]
  exact session.rollback_discards runtime env hopen hactive h

/-- Giving up keeps the touched groups, or discards them all. -/
theorem abandon_touched {α : Type} (owns : Bool) (raised : Raised) (env : SessionRollbackEnv) :
    (session.abandon (α := α) runtime owns raised env).session.touchedGroups =
        session.touchedGroups ∨
      session.DiscardsTouched (session.abandon (α := α) runtime owns raised env).session
        (session.abandon (α := α) runtime owns raised env).runtime := by
  unfold abandon
  split
  · exact Or.inl rfl
  next bridge _ =>
  have hgone := KafkaAdapterRuntime.get?_of_recovered
    { runtime with transactionBridge := bridge } env.recover session.touchedGroups
  split
  · exact Or.inl rfl
  · next hr =>
    rw [hr] at hgone
    exact Or.inr ⟨rfl, hgone rfl⟩

theorem abandon_discards {α : Type} (owns : Bool) (raised : Raised) (env : SessionRollbackEnv)
    (aborts : runtime.transactionBridge.active = true →
      env.abortTransaction = none ∧ env.emit = none)
    (h : ∀ group ∈ session.touchedGroups, ¬runtime.RecoverRaises env.recover group) :
    session.DiscardsTouched (session.abandon (α := α) runtime owns raised env).session
      (session.abandon (α := α) runtime owns raised env).runtime := by
  unfold abandon
  split
  · next aborted bridge heq =>
    -- The abort would have raised.
    split at heq
    · next hcond =>
      rw [Bool.and_eq_true] at hcond
      obtain ⟨hclient, hemit⟩ := aborts hcond.2
      unfold KafkaTransactionBridge.abort at heq
      rw [if_neg (by simp [hcond.2]), hclient, hemit] at heq
      simp at heq
    · simp at heq
  next bridge _ =>
  have hquiet := KafkaAdapterRuntime.recoverTouchedGroups_of_quiet
    { runtime with transactionBridge := bridge } env.recover session.touchedGroups h
  have hgone := KafkaAdapterRuntime.get?_of_recovered
    { runtime with transactionBridge := bridge } env.recover session.touchedGroups hquiet
  split
  · next hr => simp [hr] at hquiet
  · next hr =>
    rw [hr] at hgone
    exact ⟨rfl, hgone⟩

variable {session runtime} in
/-- A consume-publish in its own transaction, whose acknowledgement was attempted and which
did not commit. -/
theorem executeTransactional_discards (engine : KafkaConsumerEngine Token)
    {command : TransactionalConsumePublishCommand Token} {env : ConsumePublishEnv}
    {opened : KafkaAdapterRuntime} {receipts : List String} (own : session.active = false)
    (opens : session.consumePublishRuntime runtime env = some opened)
    (published : opened.publishOutputs command.outputs env = .ok receipts)
    (uncommitted : (session.executeTransactional runtime engine command env).transaction = none)
    (aborts : (opened.acknowledge engine command.ackCommand true env.acknowledge).1.isOk = false →
      env.rollback.abortTransaction = none ∧ env.rollback.emit = none)
    (h : ∀ group ∈ (session.touch command.ackCommand.group).touchedGroups,
      ¬runtime.RecoverRaises env.rollback.recover group) :
    (session.touch command.ackCommand.group).DiscardsTouched
      (session.executeTransactional runtime engine command env).session
      (session.executeTransactional runtime engine command env).runtime := by
  have hcases := session.consumePublish_cases engine runtime command env
  generalize session.executeTransactional runtime engine command env = outcome at hcases uncommitted
  -- The members are those from before the call.
  have hkeeps : ∀ {opened' runtime' : KafkaAdapterRuntime} {answer},
      session.consumePublishRuntime runtime env = some opened' →
      opened'.consumePublish engine command env = (answer, runtime') →
      ∀ group ∈ (session.touch command.ackCommand.group).touchedGroups,
        ¬runtime'.RecoverRaises env.rollback.recover group := by
    intro opened' runtime' answer hopens hbody group hgroup hraises
    have hstates : opened'.states = runtime.states := by
      unfold consumePublishRuntime at hopens
      split at hopens
      · simp at hopens
      split at hopens
      · simp at hopens
      · rw [← Option.some.inj hopens]
    have hacknowledges : opened'.Acknowledges engine true runtime' := by
      have hstep : opened'.Acknowledges engine true (opened'.consumePublish engine command env).2 :=
        KafkaAdapterRuntime.consumePublish_acknowledges command env
      rwa [hbody] at hstep
    apply h group hgroup
    refine hraises.of_keepsAbsent fun group' habsent => ?_
    exact KafkaAdapterRuntime.KeepsAbsent.of_acknowledges hacknowledges group'
      (by rw [hstates]; exact habsent)
  cases hcases with
  | refused _ _ stays => exact absurd (stays.symm.trans opens) (by simp)
  | raised raised opened' runtime' opens' body =>
    obtain rfl : opened = opened' := Option.some.inj (opens.symm.trans opens')
    refine abandon_discards _ runtime' _ raised env.rollback (fun _ => aborts ?_)
      (hkeeps opens' body)
    -- The outputs were published, so it is the acknowledgement that has raised.
    unfold KafkaAdapterRuntime.consumePublish at body
    rw [published] at body
    dsimp only at body
    split at body
    · next heq =>
      rw [heq]
      rfl
    · simp at body
  | joined _ _ _ _ _ core => exact absurd (own.symm.trans core) (by simp)
  | undone _ raised _ runtime' bridge _ opens' body _ commits =>
    have hinactive := runtime'.transactionBridge.commit_inactive env.commit
    rw [commits] at hinactive
    refine abandon_discards _ { runtime' with transactionBridge := bridge } _ raised env.rollback
      (fun hactive => absurd (hinactive.symm.trans hactive) (by simp))
      fun group hgroup hraises => hkeeps opens' body group hgroup hraises
  | owned _ _ runtime' _ applied _ _ _ commits =>
    have happlied := runtime'.transactionBridge.applied_of_commit env.commit (by rw [commits])
    rw [commits] at happlied
    dsimp only at uncommitted happlied
    rw [Option.map_eq_none_iff] at uncommitted
    simp [uncommitted] at happlied

end KafkaAdapterSession

/-! ### The invariant -/

namespace KafkaConsumerEngine

variable {engine : KafkaConsumerEngine Token} {logs : GroupRef → PartitionLog}
  {s : RuntimeSessions} {action : SessionAction Token}

/-- Only a join gives a group a member. -/
theorem act_absent (may : MayAct logs s action) {group : GroupRef}
    (absent : s.runtime.states.get? group = none)
    (hjoin : ∀ poll partitions, action = .call (.join poll partitions) → poll.group ≠ group) :
    (engine.act s action).runtime.states.get? group = none := by
  -- Only a `join` adds a member, and only to its own group.
  cases action with
  | call call =>
    by_cases hjoins : ∃ poll partitions, call = .join poll partitions
    · obtain ⟨poll, partitions, rfl⟩ := hjoins
      have hne : poll.group ≠ group := hjoin poll partitions rfl
      show (engine.share s (.join poll partitions)).runtime.states.get? group = none
      unfold share
      dsimp only
      split
      · exact absent
      · exact (Dict.get?_set_of_ne _ _ hne.symm).trans absent
    · exact KafkaAdapterRuntime.KeepsAbsent.of_evolves
        (share_evolves call may fun poll partitions heq => hjoins ⟨poll, partitions, heq⟩) group
        absent
  | publish i command env =>
    show ((s.sessions i).publish s.runtime command env).runtime.states.get? group = none
    rw [((s.sessions i).publish_keeps s.runtime command env).2]
    exact absent
  | close i env =>
    show ((s.sessions i).close s.runtime env).runtime.states.get? group = none
    by_cases h : (s.sessions i).closed = false ∧ (s.sessions i).active = true
    · rw [((s.sessions i).close_of_active s.runtime env h.1 h.2).1]
      exact KafkaAdapterRuntime.KeepsAbsent.of_subset ((s.sessions i).get?_rollback s.runtime env)
        group absent
    · rw [((s.sessions i).close_of_inactive s.runtime env h).1]
      exact absent
  | reorder i groups => exact absent

/-- A session whose transaction stays open keeps the groups it has touched, and touches
those of its acknowledgements, or discards their members. -/
theorem act_touched {i : ℕ} (may : MayAct logs s action) (hactive : (s.sessions i).active = true)
    (hstays : ((engine.act s action).sessions i).active = true) {group : GroupRef}
    (h : group ∈ (s.sessions i).touchedGroups ∨
      ∃ call, action = .call call ∧ call.session = some i ∧
        ∃ ack ∈ sessionAck (s, call), ack.command.group = group) :
    group ∈ ((engine.act s action).sessions i).touchedGroups ∨
      (engine.act s action).runtime.states.get? group = none := by
  by_cases hown : action.session = some i
  swap
  · -- Somebody else acts.
    rw [act_sessions_of_ne hown]
    rcases h with htouched | ⟨call, rfl, hcall, -⟩
    · exact Or.inl htouched
    · exact absurd hcall hown
  -- The calls that attempt no acknowledgement.
  have htouched : (∀ call, action = .call call → sessionAck (s, call) = none) →
      group ∈ (s.sessions i).touchedGroups := by
    intro hnone
    rcases h with htouched | ⟨call, rfl, -, ack, hack, -⟩
    · exact htouched
    · exact absurd ((hnone call rfl).symm.trans hack) (by simp)
  cases action with
  | call call =>
    cases call with
    | join poll partitions => simp [SessionAction.session, SessionCall.session] at hown
    | operate group action => simp [SessionAction.session, SessionCall.session] at hown
    | begin j env =>
      obtain rfl : j = i := Option.some.inj hown
      left
      show group ∈ ((s.put j ((s.sessions j).begin s.runtime env)).sessions j).touchedGroups
      rw [RuntimeSessions.put_self, (KafkaAdapterSession.begin_of_active s.runtime hactive env).1]
      exact htouched fun call heq => by cases heq; rfl
    | acknowledge j command env =>
      obtain rfl : j = i := Option.some.inj hown
      left
      show group ∈ ((s.put j ((s.sessions j).acknowledge s.runtime engine command
        env)).sessions j).touchedGroups
      rw [RuntimeSessions.put_self]
      unfold KafkaAdapterSession.acknowledge
      cases hbegun : (s.sessions j).ensureBegun with
      | some raised =>
        refine htouched fun call heq => ?_
        cases heq
        simp [sessionAck, hbegun]
      | none =>
        dsimp only
        rw [if_pos hactive]
        rcases h with htouched | ⟨call, heq, -, ack, hack, rfl⟩
        · exact List.mem_insert_of_mem htouched
        · cases heq
          simp only [sessionAck, hbegun, Option.mem_def, Option.some.injEq] at hack
          rw [← hack]
          exact List.mem_insert_self
    | executeTransactional j command env =>
      obtain rfl : j = i := Option.some.inj hown
      show group ∈ ((s.put j ((s.sessions j).executeTransactional s.runtime engine command
        env)).sessions j).touchedGroups ∨ _
      rw [RuntimeSessions.put_self]
      have hcases := (s.sessions j).consumePublish_cases engine s.runtime command env
      -- The group of the acknowledgement is touched before it.
      have htouch : group ∈ ((s.sessions j).touch command.ackCommand.group).touchedGroups := by
        rcases h with htouched | ⟨call, heq, -, ack, hack, rfl⟩
        · exact List.mem_insert_of_mem htouched
        · cases heq
          obtain ⟨_, _, -, -, rfl⟩ := KafkaAdapterSession.sessionAck_executeTransactional hack
          exact List.mem_insert_self
      show _ ∨ ((s.sessions j).executeTransactional s.runtime engine command
        env).runtime.states.get? group = none
      generalize (s.sessions j).executeTransactional s.runtime engine command env = outcome
        at hcases
      cases hcases with
      | refused _ _ stays =>
        refine Or.inl (htouched fun call heq => ?_)
        cases heq
        exact KafkaAdapterSession.sessionAck_of_stays command stays
      | raised raised _ runtime' =>
        rcases ((s.sessions j).touch command.ackCommand.group).abandon_touched
          (α := List String × Acknowledged) runtime' (!(s.sessions j).active) raised
          env.rollback with hkept | ⟨-, hgone⟩
        · exact Or.inl (hkept ▸ htouch)
        · exact Or.inr (hgone group htouch)
      | joined => exact Or.inl htouch
      | undone _ _ _ _ _ _ _ _ own => exact absurd (own.symm.trans hactive) (by simp)
      | owned _ _ _ _ _ _ _ own => exact absurd (own.symm.trans hactive) (by simp)
    | commit j env =>
      obtain rfl : j = i := Option.some.inj hown
      left
      change ((s.put j ((s.sessions j).commit s.runtime env)).sessions j).active = true at hstays
      show group ∈ ((s.put j ((s.sessions j).commit s.runtime env)).sessions j).touchedGroups
      rw [RuntimeSessions.put_self] at hstays ⊢
      by_cases hbegun : (s.sessions j).ensureOpen = none ∧ (s.sessions j).active = true
      · rw [(s.sessions j).commit_session s.runtime env hbegun.1 hbegun.2] at hstays
        simp at hstays
      · rw [((s.sessions j).commit_of_inactive s.runtime env hbegun).1]
        exact htouched fun call heq => by cases heq; rfl
    | rollback j env =>
      obtain rfl : j = i := Option.some.inj hown
      left
      change ((s.put j ((s.sessions j).rollback s.runtime env)).sessions j).active = true at hstays
      show group ∈ ((s.put j ((s.sessions j).rollback s.runtime env)).sessions j).touchedGroups
      rw [RuntimeSessions.put_self] at hstays ⊢
      by_cases hbegun : (s.sessions j).ensureOpen = none ∧ (s.sessions j).active = true
      · rw [(s.sessions j).rollback_inactive s.runtime env hbegun.1 hbegun.2] at hstays
        simp at hstays
      · rw [((s.sessions j).rollback_of_inactive s.runtime env hbegun).1]
        exact htouched fun call heq => by cases heq; rfl
  | publish j command env =>
    obtain rfl : j = i := Option.some.inj hown
    left
    show group ∈ ((s.put j ((s.sessions j).publish s.runtime command env)).sessions j).touchedGroups
    rw [RuntimeSessions.put_self, ((s.sessions j).publish_keeps s.runtime command env).1]
    exact htouched fun call heq => by cases heq
  | close j env =>
    obtain rfl : j = i := Option.some.inj hown
    left
    change ((s.put j ((s.sessions j).close s.runtime env)).sessions j).active = true at hstays
    show group ∈ ((s.put j ((s.sessions j).close s.runtime env)).sessions j).touchedGroups
    rw [RuntimeSessions.put_self] at hstays ⊢
    by_cases hbegun : (s.sessions j).closed = false ∧ (s.sessions j).active = true
    · rw [((s.sessions j).close_of_active s.runtime env hbegun.1 hbegun.2).2.1,
        (s.sessions j).rollback_inactive s.runtime env
          ((s.sessions j).ensureOpen_eq_none.mpr hbegun.1) hbegun.2] at hstays
      simp at hstays
    · rw [((s.sessions j).close_of_inactive s.runtime env hbegun).2.2]
      exact htouched fun call heq => by cases heq
  | reorder j groups =>
    obtain rfl : j = i := Option.some.inj hown
    left
    show group ∈ (Function.update s.sessions j
      { s.sessions j with touchedGroups := groups } j).touchedGroups
    rw [Function.update_self]
    have hperm : groups.Perm (s.sessions j).touchedGroups := may
    exact hperm.mem_iff.mpr (htouched fun call heq => by cases heq)

end KafkaConsumerEngine

namespace AttemptBook

variable {engine : KafkaConsumerEngine Token} {logs : GroupRef → PartitionLog}
  {book : AttemptBook} {action : SessionAction Token}

/-- Where an attempt was made, the group is touched, or the member is discarded. -/
structure Tracked (book : AttemptBook) : Prop where
  joined : ∀ i, ∀ attempt ∈ book.attempts i, attempt.2 ≤ book.joins attempt.1
  kept : ∀ i, ∀ attempt ∈ book.attempts i,
    attempt.1 ∈ (book.sessions.sessions i).touchedGroups ∨ book.Discarded attempt
  active : ∀ i, (book.sessions.sessions i).active = false → book.attempts i = []

variable (book action) in
theorem le_joinsAfter (group : GroupRef) : book.joins group ≤ book.joinsAfter action group := by
  unfold joinsAfter
  split
  · split
    · exact le_rfl
    · rw [Function.update_apply]
      split
      · next heq =>
        rw [heq]
        exact Nat.le_succ _
      · exact le_rfl
  · exact le_rfl

/-- What is discarded stays discarded: a group that is joined again has a new member. -/
theorem Discarded.next {attempt : GroupRef × ℕ} (h : book.Discarded attempt)
    (joined : attempt.2 ≤ book.joins attempt.1)
    (may : KafkaConsumerEngine.MayAct logs book.sessions action) :
    (book.next engine action).Discarded attempt := by
  rcases h with habsent | hold
  · by_cases hjoin : ∃ poll partitions, action = .call (.join poll partitions) ∧
        poll.group = attempt.1
    · obtain ⟨poll, partitions, rfl, hgroup⟩ := hjoin
      right
      show (if (book.sessions.runtime.states.get? poll.group).isSome then book.joins
        else Function.update book.joins poll.group (book.joins poll.group + 1)) attempt.1 ≠ attempt.2
      rw [hgroup, habsent, if_neg (by simp), Function.update_self]
      omega
    · left
      refine KafkaConsumerEngine.act_absent may habsent fun poll partitions heq hgroup => ?_
      exact hjoin ⟨poll, partitions, heq, hgroup⟩
  · right
    have hle := book.le_joinsAfter action attempt.1
    show book.joinsAfter action attempt.1 ≠ attempt.2
    omega

/-- What an action attempts is an acknowledgement of its session. -/
theorem mem_attempted {i : ℕ} {attempt : GroupRef × ℕ} (h : attempt ∈ book.attempted i action) :
    attempt.2 = book.joins attempt.1 ∧ ∃ call, action = .call call ∧ call.session = some i ∧
      ∃ ack ∈ sessionAck (book.sessions, call), ack.transactional = true ∧
        ack.command.group = attempt.1 := by
  cases action with
  | call call =>
    change attempt ∈ (if call.session = some i then _ else _) at h
    split at h
    · next hsession =>
      obtain ⟨ack, hack, rfl⟩ := List.mem_map.mp h
      obtain ⟨hack, htransactional⟩ := Option.filter_eq_some_iff.mp (Option.mem_toList.mp hack)
      exact ⟨rfl, call, rfl, hsession, ack, hack, htransactional, rfl⟩
    · simp at h
  | publish | close | reorder => simp [attempted] at h

/-- A session that begins a transaction attempts nothing in it yet. -/
theorem attempted_of_begins {i : ℕ} (hinactive : (book.sessions.sessions i).active = false)
    (hactive : ((engine.act book.sessions action).sessions i).active = true) :
    book.attempted i action = [] := by
  obtain ⟨env, rfl, -⟩ := KafkaConsumerEngine.begins_of_active hinactive hactive
  simp [attempted, sessionAck]

/-- **One action.** -/
theorem Tracked.step (h : book.Tracked)
    (may : KafkaConsumerEngine.MayAct logs book.sessions action) :
    (book.next engine action).Tracked := by
  -- An attempt in an open transaction is of this action or was there before.
  have hattempts : ∀ i, ∀ attempt ∈ (book.next engine action).attempts i,
      ((engine.act book.sessions action).sessions i).active = true ∧
        (attempt ∈ book.attempted i action ∨ attempt ∈ book.attempts i) := by
    intro i attempt hattempt
    change attempt ∈ (if _ then _ else _) at hattempt
    split at hattempt
    · next hactive => exact ⟨hactive, List.mem_append.mp hattempt⟩
    · simp at hattempt
  constructor
  case joined =>
    intro i attempt hattempt
    have hle := book.le_joinsAfter action attempt.1
    show attempt.2 ≤ book.joinsAfter action attempt.1
    rcases (hattempts i attempt hattempt).2 with hnew | hold
    · exact (mem_attempted hnew).1.trans_le hle
    · exact (h.joined i attempt hold).trans hle
  case kept =>
    intro i attempt hattempt
    obtain ⟨hstays, hmem⟩ := hattempts i attempt hattempt
    cases hactive : (book.sessions.sessions i).active with
    | false =>
      rw [attempted_of_begins hactive hstays, h.active i hactive] at hmem
      simp at hmem
    | true =>
      rcases hmem with hnew | hold
      · obtain ⟨-, call, hcall, hsession, ack, hack, -, hgroup⟩ := mem_attempted hnew
        exact (KafkaConsumerEngine.act_touched may hactive hstays
          (Or.inr ⟨call, hcall, hsession, ack, hack, hgroup⟩)).imp_right Or.inl
      · rcases h.kept i attempt hold with htouched | hgone
        · exact (KafkaConsumerEngine.act_touched may hactive hstays (Or.inl htouched)).imp_right
            Or.inl
        · exact Or.inr (hgone.next (h.joined i attempt hold) may)
  case active =>
    intro i hinactive
    have hended : ((engine.act book.sessions action).sessions i).active = false := hinactive
    show (if _ then _ else _) = _
    rw [if_neg (by simp [hended])]

/-- An action that discards the touched groups of its session discards every member that
its transaction has attempted to acknowledge on. -/
theorem Tracked.of_discards (h : book.Tracked) {i : ℕ}
    (may : KafkaConsumerEngine.MayAct logs book.sessions action)
    (quiet : book.attempted i action = [])
    (discards : (book.sessions.sessions i).DiscardsTouched
      ((engine.act book.sessions action).sessions i) (engine.act book.sessions action).runtime) :
    ∀ attempt ∈ book.attempted i action ++ book.attempts i,
      (book.next engine action).Discarded attempt ∧
        attempt.1 ∉ ((book.next engine action).sessions.sessions i).touchedGroups := by
  intro attempt hattempt
  rw [quiet, List.nil_append] at hattempt
  have hnone : attempt.1 ∉ ((engine.act book.sessions action).sessions i).touchedGroups := by
    rw [discards.1]
    exact List.not_mem_nil
  refine ⟨?_, hnone⟩
  rcases h.kept i attempt hattempt with htouched | hgone
  · exact Or.inl (discards.2 attempt.1 htouched)
  · exact hgone.next (h.joined i attempt hattempt) may

/-- **One transaction that ends without a commit.** -/
theorem Tracked.noPhantom (h : book.Tracked)
    (may : KafkaConsumerEngine.MayAct logs book.sessions action)
    (gets : book.RecoveryGetsThrough engine action) : book.NoPhantom engine action := by
  intro i hends
  have gets := gets (Option.isSome_of_mem hends)
  cases action with
  | call call =>
    cases call with
    | commit j env =>
      obtain ⟨hcond, hji⟩ := Option.ite_none_right_eq_some.mp hends
      obtain rfl := Option.some.inj hji
      obtain ⟨hopen, hactive, huncommitted⟩ := hcond
      refine h.of_discards may (by simp [attempted, sessionAck]) ?_
      show (book.sessions.sessions j).DiscardsTouched ((book.sessions.put j _).sessions j) _
      rw [RuntimeSessions.put_self]
      exact (book.sessions.sessions j).commit_discards book.sessions.runtime env hopen hactive
        (Option.isNone_iff_eq_none.mp huncommitted) gets
    | rollback j env =>
      obtain ⟨hcond, hji⟩ := Option.ite_none_right_eq_some.mp hends
      obtain rfl := Option.some.inj hji
      refine h.of_discards may (by simp [attempted, sessionAck]) ?_
      show (book.sessions.sessions j).DiscardsTouched ((book.sessions.put j _).sessions j) _
      rw [RuntimeSessions.put_self]
      exact (book.sessions.sessions j).rollback_discards book.sessions.runtime env hcond.1 hcond.2
        gets
    | executeTransactional j command env =>
      obtain ⟨hcond, hji⟩ := Option.ite_none_right_eq_some.mp hends
      obtain rfl := Option.some.inj hji
      obtain ⟨hown, -, huncommitted⟩ := hcond
      intro attempt hattempt
      -- The session had no transaction, so the attempt is this call's own.
      rw [h.active j hown, List.append_nil] at hattempt
      obtain ⟨-, call, heq, -, ack, hack, -, hgroup⟩ := mem_attempted hattempt
      cases heq
      obtain ⟨haborts, hquiet⟩ := gets ack hack
      obtain ⟨opened, receipts, hopens, hpublished, rfl⟩ :=
        KafkaAdapterSession.sessionAck_executeTransactional hack
      have hdiscards := KafkaAdapterSession.executeTransactional_discards engine hown hopens
        hpublished (Option.isNone_iff_eq_none.mp huncommitted) haborts hquiet
      have htouched : attempt.1 ∈
          ((book.sessions.sessions j).touch command.ackCommand.group).touchedGroups := by
        rw [← hgroup]
        exact List.mem_insert_self
      refine ⟨Or.inl (hdiscards.2 attempt.1 htouched), ?_⟩
      show attempt.1 ∉ ((book.sessions.put j _).sessions j).touchedGroups
      rw [RuntimeSessions.put_self, hdiscards.1]
      exact List.not_mem_nil
    | _ => simp [KafkaConsumerEngine.endsUncommitted] at hends
  | close j env =>
    obtain ⟨hcond, hji⟩ := Option.ite_none_right_eq_some.mp hends
    obtain rfl := Option.some.inj hji
    refine h.of_discards may rfl ?_
    show (book.sessions.sessions j).DiscardsTouched ((book.sessions.put j _).sessions j) _
    rw [RuntimeSessions.put_self]
    exact (book.sessions.sessions j).close_discards book.sessions.runtime env hcond.1 hcond.2 gets
  | _ => simp [KafkaConsumerEngine.endsUncommitted] at hends

/-- What each transaction without a commit owes, in a run. -/
def NoPhantomProgress (engine : KafkaConsumerEngine Token) (logs : GroupRef → PartitionLog)
    (start : RuntimeSessions) (run : List (SessionAction Token)) : Prop :=
  ∀ x ∈ (machine engine logs).steps { sessions := start } run, x.1.NoPhantom engine x.2

/-- **No phantom progress** in a run in which the recovery gets through whenever a
transaction ends without a commit. -/
theorem noPhantomProgress_of_recovers {start : RuntimeSessions} {run : List (SessionAction Token)}
    (legal : (machine engine logs).Legal { sessions := start } run)
    (recovers : ∀ x ∈ (machine engine logs).steps { sessions := start } run,
      x.1.RecoveryGetsThrough engine x.2) :
    NoPhantomProgress engine logs start run := by
  rintro ⟨book, action⟩ hx
  have may := legal _ hx
  have gets := recovers _ hx
  obtain ⟨before, after, rfl, rfl⟩ := Machine.exists_of_mem_steps hx
  rw [Machine.legal_append] at legal
  have hstart : Tracked { sessions := start } := by
    constructor <;> simp
  have htracked := Machine.play_induction (I := Tracked) (C := fun _ _ => True)
    (fun book action h may _ => h.step may) hstart legal.1 fun _ _ => trivial
  exact htracked.noPhantom may gets

end AttemptBook

namespace Sample

/-- The group of another Subscription to the same Stream. -/
def archive : PollCommand where
  subscription := { billing with ref := ⟨"main", "sales", "archive"⟩ }
  consumerGroup := { workers with ref := ⟨"main", "sales", "archivers"⟩ }
  stream := orders
  limit := 10
  waitTimeoutMs := 0

/-- A token that the group of the archive was never given. -/
def archiveAcknowledge : AcknowledgeCommand TokenPayload where
  subscription := archive.subscription
  consumerGroup := archive.consumerGroup
  stream := orders
  delivery := token 0 1 1

/-- Session 1 stages the offset of record 0 and tries to acknowledge for the archive, in one
transaction. -/
def twoGroups : List (SessionAction TokenPayload) :=
  delivered.map .call ++
    [.call (.join archive [0]), .call (.begin 1 {}),
      .call (.acknowledge 1 (acknowledgeCommand 0 1 1) { nowMs := 1 }),
      .call (.acknowledge 1 archiveAcknowledge { nowMs := 1 })]

/-- Recovering the archive raises when its consumer is closed. -/
def archiveFails : SessionRollbackEnv where
  recover group := if group = archive.group then some .other else none

end Sample

namespace AttemptBook

/-- The commit fails, and the archive, whose recovery raises, comes last. -/
theorem noPhantomProgress_of_recovers_last :
    NoPhantomProgress Sample.engine (fun _ => Sample.log [0, 1] []) Sample.sessions
      (Sample.twoGroups ++
        [.reorder 1 [Sample.command.group, Sample.archive.group],
          .call (.commit 1
            { commit := { commitTransaction := some .other }
              recover := Sample.archiveFails.recover })]) :=
  noPhantomProgress_of_recovers (by decide +kernel) (by decide +kernel)

/-- **Progress of a transaction that was rolled back.** The recovery of the archive raises
before the other group is recovered: its member stays, with a safe offset that was only
staged, and the session still lists both groups. -/
theorem phantom_progress :
    let run := Sample.twoGroups ++ [.call (.rollback 1 Sample.archiveFails)]
    let book := (machine Sample.engine fun _ => Sample.log [0, 1] []).play
      { sessions := Sample.sessions } run
    (machine Sample.engine fun _ => Sample.log [0, 1] []).Legal { sessions := Sample.sessions } run ∧
      ¬NoPhantomProgress Sample.engine (fun _ => Sample.log [0, 1] []) Sample.sessions run ∧
      (book.sessions.runtime.states.get? Sample.command.group).map (·.state.safeNext.get? 0) =
        some (some 1) ∧
      Sample.command.group ∈ (book.sessions.sessions 1).touchedGroups := by
  unfold NoPhantomProgress
  decide +kernel

end AttemptBook

end MeridianKafka
