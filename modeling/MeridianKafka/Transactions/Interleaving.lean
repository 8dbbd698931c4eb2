import MeridianKafka.Consumer.Sound
import MeridianKafka.Transactions.Session

/-!
# Sessions side by side

`KafkaConsumerEngine.sharing` is the machine of one runtime with any number of
sessions. Its labels are their calls, so a run is an interleaving of the calls of all
sessions. A call is one step: of a consume-publish, only the acknowledgement reads or
writes a member, and what others do between it and the two ends of the transaction
does not touch the bridge, so it may as well come before or after the call. The
operations of the group members that need no session (the parts of `poll`, negative
acknowledgements, the callbacks of a rebalance, `group_position`) are `operate`; the
first `poll` of a group is `join`.

Two invariants of every run are proved here. `Leased`: at most one session has a Core
transaction, and then the bridge is active and its lease is held. The books of every
member are sound (`share_sound`), because whatever the sessions do, a member only
ever takes the steps of `PartitionStep`.
-/

namespace MeridianKafka

open Framework

/-- A runtime with its sessions, by number. -/
structure RuntimeSessions where
  runtime : KafkaAdapterRuntime := {}
  sessions : ℕ → KafkaAdapterSession

namespace RuntimeSessions

/-- The sessions of a runtime that nobody has used yet. -/
structure Fresh (s : RuntimeSessions) : Prop where
  states : s.runtime.states = .empty
  lease : s.runtime.transactionBridge.lease = false
  offsets : s.runtime.transactionBridge.offsets = .empty
  inactive : ∀ i, (s.sessions i).active = false
  untouched : ∀ i, (s.sessions i).touchedGroups = []

/-- What a call of session `i` leaves. -/
def put {α : Type} (s : RuntimeSessions) (i : ℕ) (outcome : SessionOutcome α) : RuntimeSessions where
  runtime := outcome.runtime
  sessions := Function.update s.sessions i outcome.session

/-- A new state of a group member. -/
def setMember (s : RuntimeSessions) (group : GroupRef) (m : Member) : RuntimeSessions :=
  { s with runtime := { s.runtime with states := s.runtime.states.set group m } }

variable {α : Type} (s : RuntimeSessions) (i : ℕ) (outcome : SessionOutcome α)

@[simp] theorem put_runtime : (s.put i outcome).runtime = outcome.runtime := rfl

@[simp] theorem put_self : (s.put i outcome).sessions i = outcome.session :=
  Function.update_self ..

variable {i} in
theorem put_of_ne {j : ℕ} (h : j ≠ i) : (s.put i outcome).sessions j = s.sessions j :=
  Function.update_of_ne h ..

end RuntimeSessions

/-- The action passes no transaction. -/
def Action.Plain {Token : Type} : Action Token → Prop
  | acknowledge _ transaction _ => transaction = none
  | _ => True

instance {Token : Type} : DecidablePred (@Action.Plain Token)
  | .acknowledge _ transaction _ => inferInstanceAs (Decidable (transaction = none))
  | .expireInflight _ | .resumeDue _ | .receive _ _ | .negativeAcknowledge _ _ | .assigned _
  | .revoked _ | .groupPosition _ _ => isTrue trivial

/-- A call with its session, its command and its environment. -/
inductive SessionCall (Token : Type)
  /-- The first `poll` of a group: it subscribes, and partitions are assigned. -/
  | join (poll : PollCommand) (partitions : List ℕ)
  | operate (group : GroupRef) (action : Action Token)
  | begin (session : ℕ) (env : SessionBeginEnv)
  | acknowledge (session : ℕ) (command : AcknowledgeCommand Token) (env : AcknowledgeEnv)
  | executeTransactional (session : ℕ) (command : TransactionalConsumePublishCommand Token)
      (env : ConsumePublishEnv)
  | commit (session : ℕ) (env : SessionCommitEnv)
  | rollback (session : ℕ) (env : SessionRollbackEnv)

/-- The session whose call it is. -/
def SessionCall.session {Token : Type} : SessionCall Token → Option ℕ
  | .join _ _ | .operate _ _ => none
  | .begin i _ | .acknowledge i _ _ | .executeTransactional i _ _ | .commit i _ | .rollback i _ =>
    some i

namespace KafkaConsumerEngine

variable {Token : Type} (engine : KafkaConsumerEngine Token) (logs : GroupRef → PartitionLog)

/-- The runtime and its sessions after a call. -/
def share (s : RuntimeSessions) : SessionCall Token → RuntimeSessions
  | .join poll partitions =>
    if (s.runtime.states.get? poll.group).isSome then s
    else s.setMember poll.group (.joined poll partitions)
  | .operate group action =>
    match s.runtime.states.get? group with
    | none => s
    | some m => s.setMember group (engine.next m action)
  | .begin i env => s.put i ((s.sessions i).begin s.runtime env)
  | .acknowledge i command env => s.put i ((s.sessions i).acknowledge s.runtime engine command env)
  | .executeTransactional i command env =>
    s.put i ((s.sessions i).executeTransactional s.runtime engine command env)
  | .commit i env => s.put i ((s.sessions i).commit s.runtime env)
  | .rollback i env => s.put i ((s.sessions i).rollback s.runtime env)

variable {engine}

theorem share_operate_of_none {s : RuntimeSessions} {group : GroupRef} {action : Action Token}
    (found : s.runtime.states.get? group = none) : engine.share s (.operate group action) = s := by
  unfold share
  dsimp only
  rw [found]

theorem share_operate_of_some {s : RuntimeSessions} {group : GroupRef} {action : Action Token}
    {m : Member} (found : s.runtime.states.get? group = some m) :
    engine.share s (.operate group action) = s.setMember group (engine.next m action) := by
  unfold share
  dsimp only
  rw [found]

variable (engine)

/-- What the environment may do: the client of each group obeys the log of its topic,
and only sessions take part in a transaction. -/
def MayCall (s : RuntimeSessions) : SessionCall Token → Prop
  | .operate group action => action.Plain ∧
    ∀ m ∈ s.runtime.states.get? group, action.Allowed (logs group) m
  | _ => True

instance (s : RuntimeSessions) : DecidablePred (@MayCall Token logs s)
  | .operate _ _ => inferInstanceAs (Decidable (_ ∧ ∀ m ∈ _, _))
  | .join _ _ | .begin _ _ | .acknowledge _ _ _ | .executeTransactional _ _ _ | .commit _ _
  | .rollback _ _ => isTrue trivial

/-- The sessions of one runtime. -/
def sharing : Machine RuntimeSessions (SessionCall Token) where
  allowed := MayCall logs
  next := engine.share

instance (s : RuntimeSessions) (run : List (SessionCall Token)) :
    Decidable ((engine.sharing logs).Legal s run) :=
  inferInstanceAs (Decidable (∀ x ∈ (engine.sharing logs).steps s run, MayCall logs x.1 x.2))

end KafkaConsumerEngine

/-! ### The lease -/

/-- At most one session has a Core transaction, and the bridge is leased to it. -/
structure RuntimeSessions.Leased (s : RuntimeSessions) : Prop where
  held : ∀ i, (s.sessions i).active → s.runtime.transactionBridge.lease = true
  unique : ∀ i j, (s.sessions i).active → (s.sessions j).active → i = j

/-- What a call may do to the lease and to its session's Core transaction: nothing,
or take a free lease, or give the transaction up. -/
inductive LeaseStep (session : KafkaAdapterSession) (bridge : KafkaTransactionBridge)
    (session' : KafkaAdapterSession) (bridge' : KafkaTransactionBridge) : Prop
  | keeps (active : session'.active = session.active) (lease : bridge'.lease = bridge.lease)
  | free (lease : bridge.lease = false) (taken : session'.active → bridge'.lease = true)
  | ends (active : session.active) (inactive : session'.active = false)

theorem RuntimeSessions.Leased.put {α : Type} {s : RuntimeSessions} {i : ℕ}
    {outcome : SessionOutcome α} (h : s.Leased)
    (step : LeaseStep (s.sessions i) s.runtime.transactionBridge outcome.session
      outcome.runtime.transactionBridge) : (s.put i outcome).Leased := by
  have hself := s.put_self i outcome
  have hother : ∀ j, j ≠ i → (s.put i outcome).sessions j = s.sessions j :=
    fun j hj => s.put_of_ne outcome hj
  cases step with
  | keeps active lease =>
    have hactive : ∀ j, ((s.put i outcome).sessions j).active = (s.sessions j).active := by
      intro j
      by_cases hj : j = i
      · rw [hj, hself, active]
      · rw [hother j hj]
    refine ⟨fun j hj => lease.trans (h.held j (hactive j ▸ hj)), fun j k hj hk => ?_⟩
    exact h.unique j k (hactive j ▸ hj) (hactive k ▸ hk)
  | free lease taken =>
    -- Nobody else has a transaction, since the lease was free.
    have honly : ∀ j, ((s.put i outcome).sessions j).active → j = i := by
      intro j hj
      by_contra hne
      rw [hother j hne] at hj
      exact absurd (h.held j hj) (by simp [lease])
    refine ⟨fun j hj => ?_, fun j k hj hk => (honly j hj).trans (honly k hk).symm⟩
    obtain rfl := honly j hj
    exact taken (hself ▸ hj)
  | ends active inactive =>
    have hnone : ∀ j, ¬((s.put i outcome).sessions j).active := by
      intro j hj
      by_cases hne : j = i
      · rw [hne, hself, inactive] at hj
        exact absurd hj (by simp)
      · rw [hother j hne] at hj
        exact hne (h.unique j i hj active)
    exact ⟨fun j hj => absurd hj (hnone j), fun j _ hj => absurd hj (hnone j)⟩

namespace KafkaAdapterRuntime

variable {Token : Type} (engine : KafkaConsumerEngine Token) (runtime : KafkaAdapterRuntime)

theorem recover_bridge (group : GroupRef) (raises : Option Raised) :
    (runtime.recover group raises).2.transactionBridge = runtime.transactionBridge := by
  unfold recover
  split <;> rfl

theorem recoverTouchedGroups_bridge (env : RecoverEnv) (groups : List GroupRef)
    (runtime : KafkaAdapterRuntime) :
    (recoverTouchedGroups env groups runtime).2.transactionBridge = runtime.transactionBridge := by
  induction groups generalizing runtime with
  | nil => rfl
  | cons group groups ih =>
    have hbridge := runtime.recover_bridge group (env group)
    rw [recoverTouchedGroups]
    rcases hr : runtime.recover group (env group) with ⟨_ | _, runtime'⟩ <;> rw [hr] at hbridge
    · exact (ih runtime').trans hbridge
    · exact hbridge

theorem acknowledge_of_absent {command : AcknowledgeCommand Token}
    (absent : runtime.states.get? command.group = none) (transactional : Bool)
    (env : AcknowledgeEnv) : (runtime.acknowledge engine command transactional env).2 = runtime := by
  unfold acknowledge
  rw [absent]

/-- An acknowledgement puts the member back, and the bridge when it was in a transaction. -/
theorem acknowledge_of_member {command : AcknowledgeCommand Token} {m : Member}
    (member : runtime.states.get? command.group = some m) (transactional : Bool)
    (env : AcknowledgeEnv) :
    let acknowledged := engine.acknowledge m command
      (if transactional then some runtime.transactionBridge else none) env
    (runtime.acknowledge engine command transactional env).2 =
      { states := runtime.states.set command.group acknowledged.2.1
        transactionBridge := acknowledged.2.2.getD runtime.transactionBridge } := by
  unfold acknowledge
  rw [member]

/-- Without a transaction, an acknowledgement leaves the bridge. -/
theorem acknowledge_bridge_of_plain (command : AcknowledgeCommand Token) (env : AcknowledgeEnv) :
    (runtime.acknowledge engine command false env).2.transactionBridge =
      runtime.transactionBridge := by
  unfold acknowledge
  split
  · rfl
  · next m _ =>
    change (engine.acknowledge m command none env).2.2.getD runtime.transactionBridge = _
    rw [engine.acknowledge_none]
    rfl

/-- In a transaction, it leaves the bridge or stages on it. -/
theorem acknowledge_bridge (command : AcknowledgeCommand Token) (env : AcknowledgeEnv) :
    (runtime.acknowledge engine command true env).2.transactionBridge =
        runtime.transactionBridge ∨
      ∃ topic p next, (runtime.acknowledge engine command true env).2.transactionBridge =
        (runtime.transactionBridge.stageOffset command.consumerGroup.ref.str
          env.consumerGroupMetadata topic p next).2 := by
  unfold acknowledge
  split
  · exact Or.inl rfl
  next m _ =>
  dsimp only
  rw [if_pos rfl]
  -- only a valid token reaches the bridge
  by_cases hvalid : ∃ c, engine.ValidToken m command env.nowMs c
  · obtain ⟨c, hvalid⟩ := hvalid
    rw [hvalid.transaction_eq]
    split
    · exact Or.inr ⟨_, _, _, rfl⟩
    · exact Or.inl rfl
  · obtain ⟨raised, hrefused⟩ := engine.acknowledge_of_invalid command
      (some runtime.transactionBridge) env (not_exists.mp hvalid)
    rw [hrefused]
    exact Or.inl rfl

/-- Whoever holds the lease before an acknowledgement holds it afterwards. -/
theorem acknowledge_lease (command : AcknowledgeCommand Token) (transactional : Bool)
    (env : AcknowledgeEnv) :
    (runtime.acknowledge engine command transactional env).2.transactionBridge.lease =
      runtime.transactionBridge.lease := by
  cases transactional with
  | false => rw [acknowledge_bridge_of_plain]
  | true =>
    rcases runtime.acknowledge_bridge engine command env with heq | ⟨topic, p, next, heq⟩
    · rw [heq]
    · rw [heq, (KafkaTransactionBridge.stageOffset_keeps ..).2]

theorem consumePublish_lease (command : TransactionalConsumePublishCommand Token)
    (env : ConsumePublishEnv) :
    (runtime.consumePublish engine command env).2.transactionBridge.lease =
      runtime.transactionBridge.lease := by
  have hlease := runtime.acknowledge_lease engine command.ackCommand true env.acknowledge
  unfold consumePublish
  split
  · rfl
  · rcases hr : runtime.acknowledge engine command.ackCommand true env.acknowledge with
      ⟨_ | _, runtime'⟩ <;> rw [hr] at hlease <;> exact hlease

end KafkaAdapterRuntime

namespace KafkaAdapterSession

variable {Token : Type} (engine : KafkaConsumerEngine Token) (session : KafkaAdapterSession)
  (runtime : KafkaAdapterRuntime)

/-- A step of the lease, by the outcome of a call. -/
abbrev LeaseStepOf {α : Type} (outcome : SessionOutcome α) : Prop :=
  LeaseStep session runtime.transactionBridge outcome.session outcome.runtime.transactionBridge

theorem begin_leaseStep (env : SessionBeginEnv) :
    session.LeaseStepOf runtime (session.begin runtime env) := by
  unfold begin
  split
  · exact .keeps rfl rfl
  split
  · exact .keeps rfl rfl
  split
  · exact .keeps rfl rfl
  next hinactive =>
  -- a lease that is held makes `begin` raise and stays where it is
  cases hlease : runtime.transactionBridge.lease with
  | true =>
    obtain ⟨raised, hbegin⟩ := KafkaTransactionBridge.begin_of_lease hlease env.beginTransaction
      env.emit
    rw [hbegin]
    exact .keeps rfl rfl
  | false =>
    rcases hbegin : runtime.transactionBridge.begin env.beginTransaction env.emit with
      ⟨raised | ⟨⟨⟩⟩, bridge⟩
    · exact .free hlease fun hactive => absurd hactive hinactive
    · obtain ⟨-, rfl⟩ := KafkaTransactionBridge.begin_ok hbegin
      exact .free hlease fun _ => rfl

/-- A `commit` of an open session ends its transaction, whatever it raises. -/
theorem commit_session (env : SessionCommitEnv) (hopen : session.ensureOpen = none)
    (hactive : session.active) :
    (session.commit runtime env).session = { session with active := false, touchedGroups := [] } := by
  unfold commit
  rw [hopen]
  dsimp only
  rw [if_neg (by simp [hactive])]
  split <;> rfl

/-- A `commit` of an open session applies what its bridge applies, and recovers the touched
groups when it raises. -/
theorem commit_of_active (env : SessionCommitEnv) (hopen : session.ensureOpen = none)
    (hactive : session.active) :
    let committed := runtime.transactionBridge.commit env.commit
    (session.commit runtime env).transaction =
        committed.2.2.map (⟨runtime.transactionBridge.groupKey, ·⟩) ∧
      ((committed.1 = .ok () ∧ (session.commit runtime env).runtime =
          { runtime with transactionBridge := committed.2.1 }) ∨
        (session.commit runtime env).runtime =
          (KafkaAdapterRuntime.recoverTouchedGroups env.recover session.touchedGroups
            { runtime with transactionBridge := committed.2.1 }).2) := by
  unfold commit
  rw [hopen]
  dsimp only
  rw [if_neg (by simp [hactive])]
  rcases runtime.transactionBridge.commit env.commit with ⟨raised | ⟨⟨⟩⟩, bridge, applied⟩
  · exact ⟨rfl, Or.inr rfl⟩
  · exact ⟨rfl, Or.inl ⟨rfl, rfl⟩⟩

/-- A `commit` without a transaction is refused. -/
theorem commit_of_inactive (env : SessionCommitEnv)
    (h : ¬(session.ensureOpen = none ∧ session.active)) :
    (session.commit runtime env).session = session ∧
      (session.commit runtime env).runtime = runtime ∧
      (session.commit runtime env).transaction = none := by
  unfold commit
  cases hopen : session.ensureOpen with
  | some raised => exact ⟨rfl, rfl, rfl⟩
  | none =>
    have hinactive : (!session.active) = true := by simpa [hopen] using h
    dsimp only
    rw [if_pos hinactive]
    exact ⟨rfl, rfl, rfl⟩

theorem commit_leaseStep (env : SessionCommitEnv) :
    session.LeaseStepOf runtime (session.commit runtime env) := by
  by_cases h : session.ensureOpen = none ∧ session.active
  · exact .ends h.2 (by rw [session.commit_session runtime env h.1 h.2])
  · obtain ⟨hsession, hruntime, -⟩ := session.commit_of_inactive runtime env h
    exact .keeps (by rw [hsession]) (by rw [hruntime])

/-- A `rollback` without a transaction does nothing. -/
theorem rollback_of_inactive (env : SessionRollbackEnv)
    (h : ¬(session.ensureOpen = none ∧ session.active)) :
    (session.rollback runtime env).session = session ∧
      (session.rollback runtime env).runtime = runtime := by
  unfold rollback
  cases hopen : session.ensureOpen with
  | some raised => exact ⟨rfl, rfl⟩
  | none =>
    have hinactive : (!session.active) = true := by simpa [hopen] using h
    dsimp only
    rw [if_pos hinactive]
    exact ⟨rfl, rfl⟩

/-- A `rollback` recovers the touched groups after the abort, and lists them no more when
none of them raises. -/
theorem rollback_of_active (env : SessionRollbackEnv) (hopen : session.ensureOpen = none)
    (hactive : session.active) :
    let recovered := KafkaAdapterRuntime.recoverTouchedGroups env.recover session.touchedGroups
      { runtime with
        transactionBridge := (runtime.transactionBridge.abort env.abortTransaction env.emit).2 }
    (session.rollback runtime env).runtime = recovered.2 ∧
      (session.rollback runtime env).session =
        { session with
          active := false
          touchedGroups := if recovered.1.isSome then session.touchedGroups else [] } := by
  unfold rollback
  rw [hopen]
  dsimp only
  rw [if_neg (by simp [hactive])]
  rcases runtime.transactionBridge.abort env.abortTransaction env.emit with ⟨answer, bridge⟩
  dsimp only
  split <;> next hrecover =>
    rw [hrecover]
    exact ⟨rfl, rfl⟩

theorem rollback_inactive (env : SessionRollbackEnv) (hopen : session.ensureOpen = none)
    (hactive : session.active) : (session.rollback runtime env).session.active = false := by
  rw [(session.rollback_of_active runtime env hopen hactive).2]

theorem rollback_leaseStep (env : SessionRollbackEnv) :
    session.LeaseStepOf runtime (session.rollback runtime env) := by
  by_cases h : session.ensureOpen = none ∧ session.active
  · exact .ends h.2 (session.rollback_inactive runtime env h.1 h.2)
  · obtain ⟨hsession, hruntime⟩ := session.rollback_of_inactive runtime env h
    exact .keeps (by rw [hsession]) (by rw [hruntime])

theorem acknowledge_of_refused {raised : Raised} (refused : session.ensureBegun = some raised)
    (command : AcknowledgeCommand Token) (env : AcknowledgeEnv) :
    session.acknowledge runtime engine command env = session.refuse runtime raised := by
  unfold acknowledge
  rw [refused]

/-- The acknowledgement of a session that has begun is the one of its runtime. -/
theorem acknowledge_of_begun (begun : session.ensureBegun = none)
    (command : AcknowledgeCommand Token) (env : AcknowledgeEnv) :
    session.acknowledge runtime engine command env =
      { answer := (runtime.acknowledge engine command session.active env).1
        session :=
          if session.active then
            { session with touchedGroups := session.touchedGroups.insert command.group }
          else session
        runtime := (runtime.acknowledge engine command session.active env).2 } := by
  unfold acknowledge
  rw [begun]

theorem acknowledge_leaseStep (command : AcknowledgeCommand Token) (env : AcknowledgeEnv) :
    session.LeaseStepOf runtime (session.acknowledge runtime engine command env) := by
  unfold acknowledge
  split
  · exact .keeps rfl rfl
  · refine .keeps ?_ (runtime.acknowledge_lease engine command session.active env)
    dsimp only
    split <;> rfl

theorem abandon_active {α : Type} (owns : Bool) (raised : Raised) (env : SessionRollbackEnv) :
    (session.abandon (α := α) runtime owns raised env).session.active = session.active := by
  unfold abandon
  split
  · rfl
  · split <;> rfl

theorem abandon_closed {α : Type} (owns : Bool) (raised : Raised) (env : SessionRollbackEnv) :
    (session.abandon (α := α) runtime owns raised env).session.closed = session.closed := by
  unfold abandon
  split
  · rfl
  · split <;> rfl

/-- Within a Core transaction, giving up leaves the bridge. -/
theorem abandon_bridge {α : Type} (raised : Raised) (env : SessionRollbackEnv) :
    (session.abandon (α := α) runtime false raised env).runtime.transactionBridge =
      runtime.transactionBridge := by
  unfold abandon
  rw [Bool.false_and, if_neg Bool.false_ne_true]
  have hbridge := KafkaAdapterRuntime.recoverTouchedGroups_bridge env.recover session.touchedGroups
    runtime
  dsimp only
  split <;> next heq => rw [heq] at hbridge; exact hbridge

theorem executeTransactional_leaseStep (command : TransactionalConsumePublishCommand Token)
    (env : ConsumePublishEnv) :
    session.LeaseStepOf runtime (session.executeTransactional runtime engine command env) := by
  unfold executeTransactional
  split
  · exact .keeps rfl rfl
  dsimp only
  cases hactive : session.active with
  | true =>
    -- The transaction is the session's own, and only its offsets change.
    have hlease := runtime.consumePublish_lease engine command env
    rw [Bool.not_true, if_neg Bool.false_ne_true]
    dsimp only
    rcases hbody : runtime.consumePublish engine command env with ⟨raised | result, runtime'⟩
    · rw [hbody] at hlease
      refine .keeps ?_ ?_
      · dsimp only
        rw [abandon_active]
        exact hactive.symm
      · dsimp only
        rw [abandon_bridge]
        exact hlease
    · rw [hbody] at hlease
      exact .keeps hactive.symm hlease
  | false =>
    rw [Bool.not_false, if_pos rfl]
    cases hlease : runtime.transactionBridge.lease with
    | true =>
      obtain ⟨raised, hbegin⟩ := KafkaTransactionBridge.begin_of_lease hlease
        env.begin.beginTransaction env.begin.emit
      rw [hbegin]
      exact .keeps rfl rfl
    | false =>
      -- The session has no Core transaction before or after the call.
      refine .free hlease fun htaken => absurd htaken ?_
      rw [Bool.not_eq_true]
      split
      · exact hactive
      split
      · rw [abandon_active]
      · rw [if_pos rfl]
        split
        · rw [abandon_active]
        · rfl

end KafkaAdapterSession

namespace KafkaConsumerEngine

variable {Token : Type} {engine : KafkaConsumerEngine Token} {logs : GroupRef → PartitionLog}
  {s : RuntimeSessions}

/-- Every call keeps at most one Core transaction, with the lease. -/
theorem share_leased (call : SessionCall Token) (h : s.Leased) : (engine.share s call).Leased := by
  cases call with
  | join poll partitions =>
    unfold share
    dsimp only
    split
    · exact h
    · exact ⟨h.held, h.unique⟩
  | operate group action =>
    unfold share
    dsimp only
    split
    · exact h
    · exact ⟨h.held, h.unique⟩
  | begin i env => exact h.put ((s.sessions i).begin_leaseStep s.runtime env)
  | acknowledge i command env =>
    exact h.put ((s.sessions i).acknowledge_leaseStep engine s.runtime command env)
  | executeTransactional i command env =>
    exact h.put ((s.sessions i).executeTransactional_leaseStep engine s.runtime command env)
  | commit i env => exact h.put ((s.sessions i).commit_leaseStep s.runtime env)
  | rollback i env => exact h.put ((s.sessions i).rollback_leaseStep s.runtime env)

end KafkaConsumerEngine

/-! ### What the calls do to the members -/

namespace KafkaAdapterRuntime

variable {Token : Type} (engine : KafkaConsumerEngine Token) (logs : GroupRef → PartitionLog)
  {runtime runtime' : KafkaAdapterRuntime}

/-- Every member of the second runtime is a member of the first one, at most one
operation of the engine further. -/
def Evolves (runtime runtime' : KafkaAdapterRuntime) : Prop :=
  ∀ group m', runtime'.states.get? group = some m' → runtime.states.get? group = some m' ∨
    ∃ m a, runtime.states.get? group = some m ∧ a.Allowed (logs group) m ∧ m' = engine.next m a

/-- Every member of the second runtime is a member of the first one, at most one
acknowledgement further, in a transaction or without. -/
def Acknowledges (transactional : Bool) (runtime runtime' : KafkaAdapterRuntime) : Prop :=
  ∀ group m', runtime'.states.get? group = some m' → runtime.states.get? group = some m' ∨
    ∃ m command transaction env, runtime.states.get? group = some m ∧
      transaction.isSome = transactional ∧ m' = (engine.acknowledge m command transaction env).2.1

variable {engine logs}

theorem Acknowledges.of_subset {transactional : Bool} (h : ∀ group m,
    runtime'.states.get? group = some m → runtime.states.get? group = some m) :
    Acknowledges engine transactional runtime runtime' :=
  fun group m hm => Or.inl (h group m hm)

theorem Acknowledges.trans_subset {transactional : Bool} {runtime'' : KafkaAdapterRuntime}
    (h : Acknowledges engine transactional runtime runtime')
    (hsub : ∀ group m, runtime''.states.get? group = some m →
      runtime'.states.get? group = some m) : Acknowledges engine transactional runtime runtime'' :=
  fun group m hm => h group m (hsub group m hm)

/-- An acknowledgement is an operation. -/
theorem Acknowledges.evolves {transactional : Bool}
    (h : Acknowledges engine transactional runtime runtime') :
    Evolves engine logs runtime runtime' := by
  intro group m' hm'
  rcases h group m' hm' with hm | ⟨m, command, transaction, env, hm, -, rfl⟩
  · exact Or.inl hm
  · exact Or.inr ⟨m, .acknowledge command transaction env, hm, trivial, rfl⟩

theorem Evolves.of_subset (h : ∀ group m, runtime'.states.get? group = some m →
    runtime.states.get? group = some m) : Evolves engine logs runtime runtime' :=
  fun group m hm => Or.inl (h group m hm)

/-- The member after an operation in place of the member. -/
theorem Evolves.of_set {group : GroupRef} {m : Member} {a : Action Token}
    (hm : runtime.states.get? group = some m) (hallowed : a.Allowed (logs group) m)
    (hset : runtime'.states = runtime.states.set group (engine.next m a)) :
    Evolves engine logs runtime runtime' := by
  intro group' m' hm'
  rw [hset, Dict.get?_set] at hm'
  split at hm'
  · next heq =>
    obtain rfl := Option.some.inj hm'
    exact Or.inr ⟨m, a, heq ▸ hm, heq ▸ hallowed, rfl⟩
  · exact Or.inl hm'

theorem get?_recoverTouchedGroups (env : RecoverEnv) (groups : List GroupRef)
    (runtime : KafkaAdapterRuntime) (group : GroupRef) (m : Member)
    (h : (recoverTouchedGroups env groups runtime).2.states.get? group = some m) :
    runtime.states.get? group = some m := by
  -- a recovery erases the state of its own group or no state at all
  have hrecover : ∀ (runtime : KafkaAdapterRuntime) touched raises,
      (runtime.recover touched raises).2.states.get? group = some m →
      runtime.states.get? group = some m := by
    intro runtime touched raises hm
    unfold recover at hm
    split at hm
    · exact hm
    · dsimp only at hm
      rw [Dict.get?_erase] at hm
      split at hm
      · simp at hm
      · exact hm
  induction groups generalizing runtime with
  | nil => exact h
  | cons touched groups ih =>
    refine hrecover runtime touched (env touched) ?_
    rw [recoverTouchedGroups] at h
    rcases hr : runtime.recover touched (env touched) with ⟨_ | _, runtime'⟩ <;> rw [hr] at h
    · exact ih runtime' h
    · exact h

theorem acknowledge_acknowledges (command : AcknowledgeCommand Token) (transactional : Bool)
    (env : AcknowledgeEnv) :
    Acknowledges engine transactional runtime
      (runtime.acknowledge engine command transactional env).2 := by
  unfold acknowledge
  split
  · exact .of_subset fun _ _ => id
  next m hm =>
  intro group m' hm'
  dsimp only at hm'
  rw [Dict.get?_set] at hm'
  split at hm'
  · next heq =>
    obtain rfl := Option.some.inj hm'
    refine Or.inr ⟨m, command, _, env, heq ▸ hm, ?_, rfl⟩
    cases transactional <;> rfl
  · exact Or.inl hm'

theorem consumePublish_acknowledges (command : TransactionalConsumePublishCommand Token)
    (env : ConsumePublishEnv) :
    Acknowledges engine true runtime (runtime.consumePublish engine command env).2 := by
  have hack : Acknowledges engine true runtime _ :=
    acknowledge_acknowledges command.ackCommand true env.acknowledge
  unfold consumePublish
  split
  · exact .of_subset fun _ _ => id
  · rcases hr : runtime.acknowledge engine command.ackCommand true env.acknowledge with
      ⟨_ | _, runtime'⟩ <;> rw [hr] at hack <;> exact hack

end KafkaAdapterRuntime

namespace KafkaAdapterSession

open KafkaAdapterRuntime

variable {Token : Type} (engine : KafkaConsumerEngine Token) (session : KafkaAdapterSession)
  (runtime : KafkaAdapterRuntime)

/-- A commit takes members out of the engine at most. -/
theorem get?_commit (env : SessionCommitEnv) (group : GroupRef) (m : Member)
    (h : (session.commit runtime env).runtime.states.get? group = some m) :
    runtime.states.get? group = some m := by
  by_cases hbegun : session.ensureOpen = none ∧ session.active
  · obtain ⟨-, ⟨-, hruntime⟩ | hruntime⟩ :=
      session.commit_of_active runtime env hbegun.1 hbegun.2 <;> rw [hruntime] at h
    · exact h
    · have hstates := get?_recoverTouchedGroups _ _ _ _ _ h
      exact hstates
  · rwa [(session.commit_of_inactive runtime env hbegun).2.1] at h

theorem get?_rollback (env : SessionRollbackEnv) (group : GroupRef) (m : Member)
    (h : (session.rollback runtime env).runtime.states.get? group = some m) :
    runtime.states.get? group = some m := by
  by_cases hbegun : session.ensureOpen = none ∧ session.active
  · rw [(session.rollback_of_active runtime env hbegun.1 hbegun.2).1] at h
    have hstates := get?_recoverTouchedGroups _ _ _ _ _ h
    exact hstates
  · rwa [(session.rollback_of_inactive runtime env hbegun).2] at h

theorem get?_abandon {α : Type} (owns : Bool) (raised : Raised) (env : SessionRollbackEnv)
    (group : GroupRef) (m : Member)
    (h : (session.abandon (α := α) runtime owns raised env).runtime.states.get? group = some m) :
    runtime.states.get? group = some m := by
  unfold abandon at h
  split at h
  · exact h
  · next bridge _ =>
    have hrecover := get?_recoverTouchedGroups env.recover session.touchedGroups
      { runtime with transactionBridge := bridge } group m
    split at h <;> next heq => rw [heq] at hrecover; exact hrecover h

theorem begin_states (env : SessionBeginEnv) :
    (session.begin runtime env).runtime.states = runtime.states := by
  unfold begin
  split
  · rfl
  split
  · rfl
  split
  · rfl
  · split <;> rfl

theorem acknowledge_acknowledges (command : AcknowledgeCommand Token) (env : AcknowledgeEnv) :
    Acknowledges engine session.active runtime
      (session.acknowledge runtime engine command env).runtime := by
  unfold acknowledge
  split
  · exact .of_subset fun _ _ => id
  · exact KafkaAdapterRuntime.acknowledge_acknowledges command session.active env

theorem executeTransactional_acknowledges (command : TransactionalConsumePublishCommand Token)
    (env : ConsumePublishEnv) :
    Acknowledges engine true runtime
      (session.executeTransactional runtime engine command env).runtime := by
  unfold executeTransactional
  split
  · exact .of_subset fun _ _ => id
  dsimp only
  split
  · exact .of_subset fun _ _ => id
  next bridge _ =>
  -- The body acknowledges; what abandons it afterwards only drops states.
  have hbody : Acknowledges engine true { runtime with transactionBridge := bridge } _ :=
    consumePublish_acknowledges command env
  change Acknowledges engine true runtime _ at hbody
  split
  · next heq =>
    rw [heq] at hbody
    exact hbody.trans_subset (get?_abandon _ _ _ _ _)
  · next heq =>
    rw [heq] at hbody
    split
    · split
      · exact hbody.trans_subset (get?_abandon _ _ _ _ _)
      · exact hbody
    · exact hbody

end KafkaAdapterSession

namespace KafkaConsumerEngine

variable {Token : Type} {engine : KafkaConsumerEngine Token} {logs : GroupRef → PartitionLog}
  {s : RuntimeSessions}

/-- A call leaves each member, joins a group, or takes one member one operation
further. -/
theorem share_evolves (call : SessionCall Token) (hallowed : MayCall logs s call)
    (hjoin : ∀ poll partitions, call ≠ .join poll partitions) :
    s.runtime.Evolves engine logs (engine.share s call).runtime := by
  cases call with
  | join poll partitions => exact absurd rfl (hjoin poll partitions)
  | operate group action =>
    unfold share
    dsimp only
    split
    · exact .of_subset fun _ _ => id
    · next m hm => exact .of_set hm (hallowed.2 m hm) rfl
  | begin i env =>
    refine .of_subset fun group m hm => ?_
    change ((s.sessions i).begin s.runtime env).runtime.states.get? group = some m at hm
    rwa [KafkaAdapterSession.begin_states] at hm
  | acknowledge i command env =>
    exact ((s.sessions i).acknowledge_acknowledges engine s.runtime command env).evolves
  | executeTransactional i command env =>
    exact ((s.sessions i).executeTransactional_acknowledges engine s.runtime command env).evolves
  | commit i env => exact .of_subset ((s.sessions i).get?_commit s.runtime env)
  | rollback i env => exact .of_subset ((s.sessions i).get?_rollback s.runtime env)

/-- The books of all members are sound. -/
def SoundMembers (s : RuntimeSessions) : Prop :=
  ∀ group m, s.runtime.states.get? group = some m → ∀ p, (m.ledger p).Sound

theorem share_sound (call : SessionCall Token) (hallowed : MayCall logs s call)
    (h : SoundMembers s) : SoundMembers (engine.share s call) := by
  by_cases hjoin : ∃ poll partitions, call = .join poll partitions
  -- a member that joins has an empty ledger
  · obtain ⟨poll, partitions, rfl⟩ := hjoin
    intro group m hm p
    unfold share at hm
    dsimp only at hm
    split at hm
    · exact h group m hm p
    · change (s.runtime.states.set poll.group (.joined poll partitions)).get? group = some m at hm
      rw [Dict.get?_set] at hm
      split at hm
      · obtain rfl := Option.some.inj hm
        exact Ledger.Sound.empty
      · exact h group m hm p
  · simp only [not_exists] at hjoin
    intro group m' hm' p
    rcases share_evolves call hallowed hjoin group m' hm' with hm | ⟨m, a, hm, hmay, rfl⟩
    · exact h group m' hm p
    · exact (engine.next_step (logs group) hmay).sound (h group m hm p)

/-- What holds of every interleaving of the sessions. -/
theorem sharing_invariants {start : RuntimeSessions} (fresh : start.Fresh)
    {run : List (SessionCall Token)} (legal : (engine.sharing logs).Legal start run) :
    ((engine.sharing logs).play start run).Leased ∧
      SoundMembers ((engine.sharing logs).play start run) := by
  have hleased : start.Leased :=
    ⟨fun i hi => absurd hi (by simp [fresh.inactive]),
      fun i j hi => absurd hi (by simp [fresh.inactive])⟩
  have hsound : SoundMembers start := by
    intro group m hm
    rw [fresh.states] at hm
    exact absurd hm (by simp)
  refine Machine.play_induction (I := fun s => s.Leased ∧ SoundMembers s) (C := fun _ _ => True)
    ?_ ⟨hleased, hsound⟩ legal (fun _ _ => trivial)
  intro s call h hallowed _
  exact ⟨share_leased call h.1, share_sound call hallowed h.2⟩

end KafkaConsumerEngine

end MeridianKafka
