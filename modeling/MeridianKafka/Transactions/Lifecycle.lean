import MeridianKafka.Transactions.BridgeRuns
import MeridianKafka.Transactions.Transition

/-!
# Whole lives of sessions

`KafkaConsumerEngine.act` is what one runtime and its sessions do when the sessions may
do everything a session can: the calls of `sharing`, a publish, and `close`. The machines
of the next modules add what they remember of it. A publish reads no member and no session
state, so it leaves both; what it puts into an open Kafka transaction is in its
environment.

`consumePublish_cases` says once how a consume-publish can go; what it leaves of the
bridge, of the groups and of the session is read off its cases.

`_touched_groups` is a set, which Python iterates in an order of its own.
`SessionAction.reorder` puts the groups of a session into any order, so a run may
take any order whenever the groups are recovered.
-/

namespace MeridianKafka

open Framework

/-- `KafkaProducerEngine.publish` for the publish of a session. -/
structure SessionPublishEnv where
  publish : PublishCommand → Except Raised (List String)
  /-- The records that the client takes, also when the call raises. -/
  produced : PublishCommand → List ProducerRecord := fun command =>
    command.events.map (KafkaProducerEngine.record command.stream)

/-- The publish of `execute`: within a Core transaction it takes the transactional
producer. -/
def KafkaAdapterSession.publish (session : KafkaAdapterSession) (runtime : KafkaAdapterRuntime)
    (command : PublishCommand) (env : SessionPublishEnv) : SessionOutcome (List String) :=
  match session.ensureBegun with
  | some raised => session.refuse runtime raised
  | none =>
    if session.active && !runtime.transactionBridge.active then
      session.refuse runtime (.runtimeError "Kafka transaction is not active")
    else { answer := env.publish command, session, runtime }

/-- What a session of a runtime may do. -/
inductive SessionAction (Token : Type)
  | call (call : SessionCall Token)
  | publish (session : ℕ) (command : PublishCommand) (env : SessionPublishEnv)
  | close (session : ℕ) (env : SessionRollbackEnv)
  /-- The order in which the set of touched groups is iterated. -/
  | reorder (session : ℕ) (groups : List GroupRef)

/-- The session that acts. -/
def SessionAction.session {Token : Type} : SessionAction Token → Option ℕ
  | .call c => c.session
  | .publish i _ _ | .close i _ | .reorder i _ => some i

namespace KafkaConsumerEngine

variable {Token : Type} (engine : KafkaConsumerEngine Token) (logs : GroupRef → PartitionLog)

/-- The runtime and its sessions after an action. -/
def act (s : RuntimeSessions) : SessionAction Token → RuntimeSessions
  | .call call => engine.share s call
  | .publish i command env => s.put i ((s.sessions i).publish s.runtime command env)
  | .close i env => s.put i ((s.sessions i).close s.runtime env)
  | .reorder i groups =>
    { s with
      sessions := Function.update s.sessions i { s.sessions i with touchedGroups := groups } }

/-- What the environment may do. -/
def MayAct (s : RuntimeSessions) : SessionAction Token → Prop
  | .call call => MayCall logs s call
  | .reorder i groups => groups.Perm (s.sessions i).touchedGroups
  | _ => True

instance (s : RuntimeSessions) : DecidablePred (@MayAct Token logs s)
  | .call _ => inferInstanceAs (Decidable (MayCall logs s _))
  | .reorder _ _ => inferInstanceAs (Decidable (List.Perm _ _))
  | .publish _ _ _ | .close _ _ => isTrue trivial

end KafkaConsumerEngine

/-- `begin_transaction` is called and returns. -/
def RuntimeSessions.beginsTransaction {Token : Type} (s : RuntimeSessions) :
    SessionAction Token → Bool
  | .call (.begin i env) =>
    (s.sessions i).ensureOpen.isNone && (s.sessions i).transactional && !(s.sessions i).active &&
      !s.runtime.transactionBridge.lease && env.beginTransaction.isNone
  | .call (.executeTransactional i _ env) =>
    (s.sessions i).ensureBegun.isNone && !(s.sessions i).active &&
      !s.runtime.transactionBridge.lease && env.begin.beginTransaction.isNone
  | _ => false

/-! ### Open transactions -/

namespace KafkaAdapterRuntime

variable {Token : Type} (engine : KafkaConsumerEngine Token) (runtime : KafkaAdapterRuntime)

/-- Staging keeps the Kafka transaction open. -/
theorem acknowledge_active (command : AcknowledgeCommand Token) (env : AcknowledgeEnv) :
    (runtime.acknowledge engine command true env).2.transactionBridge.active =
      runtime.transactionBridge.active := by
  rcases runtime.acknowledge_bridge engine command env with heq | ⟨topic, p, next, heq⟩
  · rw [heq]
  · rw [heq, (KafkaTransactionBridge.stageOffset_keeps ..).1]

theorem consumePublish_active (command : TransactionalConsumePublishCommand Token)
    (env : ConsumePublishEnv) :
    (runtime.consumePublish engine command env).2.transactionBridge.active =
      runtime.transactionBridge.active := by
  have hactive := runtime.acknowledge_active engine command.ackCommand env.acknowledge
  unfold consumePublish
  split
  · rfl
  · rcases hr : runtime.acknowledge engine command.ackCommand true env.acknowledge with
      ⟨_ | _, runtime'⟩ <;> rw [hr] at hactive <;> exact hactive

end KafkaAdapterRuntime

/-! ### Publish and close -/

namespace KafkaAdapterSession

variable (session : KafkaAdapterSession) (runtime : KafkaAdapterRuntime)

theorem publish_keeps (command : PublishCommand) (env : SessionPublishEnv) :
    (session.publish runtime command env).session = session ∧
      (session.publish runtime command env).runtime = runtime := by
  unfold publish
  split
  · exact ⟨rfl, rfl⟩
  · split <;> exact ⟨rfl, rfl⟩

/-- `close` of an open session with a transaction leaves the runtime as its `rollback`
does, and of the session all but `closed`. -/
theorem close_of_active (env : SessionRollbackEnv) (hopen : session.closed = false)
    (hactive : session.active = true) :
    (session.close runtime env).runtime = (session.rollback runtime env).runtime ∧
      (session.close runtime env).session.active = (session.rollback runtime env).session.active ∧
      (session.close runtime env).session.touchedGroups =
        (session.rollback runtime env).session.touchedGroups := by
  unfold close
  rw [hopen, hactive, if_neg Bool.false_ne_true, if_pos rfl]
  dsimp only
  split <;> exact ⟨rfl, rfl, rfl⟩

/-- `close` without a transaction touches nothing but the session's own state. -/
theorem close_of_inactive (env : SessionRollbackEnv)
    (h : ¬(session.closed = false ∧ session.active = true)) :
    (session.close runtime env).runtime = runtime ∧
      (session.close runtime env).session.active = session.active ∧
      (session.close runtime env).session.touchedGroups = session.touchedGroups := by
  unfold close
  split
  · exact ⟨rfl, rfl, rfl⟩
  next hclosed =>
  have hinactive : ¬session.active = true := fun hactive => h ⟨by simpa using hclosed, hactive⟩
  rw [if_neg hinactive]
  exact ⟨rfl, rfl, rfl⟩

theorem ensureOpen_eq_none : session.ensureOpen = none ↔ session.closed = false := by
  unfold ensureOpen
  split <;> simp_all

theorem close_leaseStep (env : SessionRollbackEnv) :
    session.LeaseStepOf runtime (session.close runtime env) := by
  by_cases h : session.closed = false ∧ session.active = true
  · obtain ⟨-, hactive, -⟩ := session.close_of_active runtime env h.1 h.2
    refine .ends h.2 ?_
    rw [hactive]
    exact session.rollback_inactive runtime env (session.ensureOpen_eq_none.mpr h.1) h.2
  · obtain ⟨hruntime, hactive, -⟩ := session.close_of_inactive runtime env h
    exact .keeps hactive (by rw [hruntime])

theorem close_effect (env : SessionRollbackEnv) :
    (session.close runtime env).runtime.transactionBridge = runtime.transactionBridge ∨
      (session.close runtime env).runtime.transactionBridge.Blank := by
  by_cases h : session.closed = false ∧ session.active = true
  · rw [(session.close_of_active runtime env h.1 h.2).1]
    exact session.rollback_effect runtime env
  · rw [(session.close_of_inactive runtime env h).1]
    exact Or.inl rfl

end KafkaAdapterSession

/-! ### How a Kafka transaction begins and ends -/

namespace KafkaTransactionBridge

variable {bridge : KafkaTransactionBridge}

/-- The client call has returned when a `begin` returns. -/
theorem client_of_begin {beginTransaction emit : Option Raised} {bridge' : KafkaTransactionBridge}
    (h : bridge.begin beginTransaction emit = (.ok (), bridge')) : beginTransaction = none := by
  obtain ⟨hlease, -⟩ := begin_ok h
  unfold KafkaTransactionBridge.begin at h
  rw [if_neg (by simp [hlease])] at h
  cases beginTransaction with
  | none => rfl
  | some raised => simp at h

variable (bridge) in
/-- A commit is applied when neither of the two client calls raises; then it returns
unless the telemetry sink raises. -/
theorem commit_of_applied (env : CommitEnv) {offsets : Dict (String × ℕ) ℕ}
    (h : (bridge.commit env).2.2 = some offsets) :
    (bridge.sendOffsets env).or env.commitTransaction = none ∧
      (env.emit = none → (bridge.commit env).1 = .ok ()) := by
  obtain ⟨-, raised, heq⟩ | ⟨-, -, raised, heq⟩ | ⟨-, sent, answer, heq, returns⟩ :=
    bridge.commit_cases env <;> rw [heq] at h ⊢
  · simp at h
  · simp at h
  · exact ⟨sent, returns⟩

variable (bridge) in
/-- A commit that returns is applied. -/
theorem applied_of_commit (env : CommitEnv) (h : (bridge.commit env).1 = .ok ()) :
    (bridge.commit env).2.2.isSome := by
  obtain ⟨-, raised, heq⟩ | ⟨-, -, raised, heq⟩ | ⟨-, -, answer, heq, -⟩ :=
    bridge.commit_cases env <;> rw [heq] at h ⊢
  · simp at h
  · simp at h
  · rfl

theorem commit_inactive (env : CommitEnv) : (bridge.commit env).2.1.active = false := by
  rw [LeasedBridge.commit_bridge]
  split
  · rfl
  · next hactive => simpa using hactive

end KafkaTransactionBridge

/-! ### How a consume-publish goes -/

namespace KafkaAdapterSession

variable {Token : Type} (engine : KafkaConsumerEngine Token) (session : KafkaAdapterSession)
  (runtime : KafkaAdapterRuntime)

/-- The session when it has touched a group. -/
def touch (group : GroupRef) : KafkaAdapterSession :=
  { session with touchedGroups := session.touchedGroups.insert group }

/-- The runtime in which `_execute_transactional` publishes, if it comes to it. -/
def consumePublishRuntime (env : ConsumePublishEnv) : Option KafkaAdapterRuntime :=
  match session.ensureBegun with
  | some _ => none
  | none =>
    match
      if session.active then (.ok (), runtime.transactionBridge)
      else runtime.transactionBridge.begin env.begin.beginTransaction env.begin.emit
    with
    | (.error _, _) => none
    | (.ok (), bridge) => some { runtime with transactionBridge := bridge }

/-- The ways of a consume-publish. -/
inductive ConsumePublishCase (command : TransactionalConsumePublishCommand Token)
    (env : ConsumePublishEnv) :
    SessionOutcome (List String × KafkaConsumerEngine.Acknowledged) → Prop
  /-- It does not come to its first publish. -/
  | refused (raised : Raised) (bridge : KafkaTransactionBridge)
      (stays : session.consumePublishRuntime runtime env = none)
      (left : bridge = runtime.transactionBridge ∨
        bridge = (runtime.transactionBridge.begin env.begin.beginTransaction env.begin.emit).2) :
      ConsumePublishCase command env
        { answer := .error raised, session, runtime := { runtime with transactionBridge := bridge } }
  /-- An output or the acknowledgement raises. -/
  | raised (raised : Raised) (opened runtime' : KafkaAdapterRuntime)
      (opens : session.consumePublishRuntime runtime env = some opened)
      (body : opened.consumePublish engine command env = (.error raised, runtime')) :
      ConsumePublishCase command env
        ((session.touch command.ackCommand.group).abandon runtime' (!session.active) raised
          env.rollback)
  /-- It returns within the Core transaction. -/
  | joined (result : List String × KafkaConsumerEngine.Acknowledged)
      (opened runtime' : KafkaAdapterRuntime)
      (opens : session.consumePublishRuntime runtime env = some opened)
      (body : opened.consumePublish engine command env = (.ok result, runtime'))
      (core : session.active = true) :
      ConsumePublishCase command env
        { answer := .ok result
          session := session.touch command.ackCommand.group
          runtime := runtime' }
  /-- The commit of its own transaction raises. -/
  | undone (result : List String × KafkaConsumerEngine.Acknowledged) (raised : Raised)
      (opened runtime' : KafkaAdapterRuntime) (bridge : KafkaTransactionBridge)
      (applied : Option (Dict (String × ℕ) ℕ))
      (opens : session.consumePublishRuntime runtime env = some opened)
      (body : opened.consumePublish engine command env = (.ok result, runtime'))
      (own : session.active = false)
      (commits : runtime'.transactionBridge.commit env.commit = (.error raised, bridge, applied)) :
      ConsumePublishCase command env
        { (session.touch command.ackCommand.group).abandon
            { runtime' with transactionBridge := bridge } (!session.active) raised env.rollback
          with transaction := applied.map (⟨runtime'.transactionBridge.groupKey, ·⟩) }
  /-- Its own transaction is committed. -/
  | owned (result : List String × KafkaConsumerEngine.Acknowledged)
      (opened runtime' : KafkaAdapterRuntime) (bridge : KafkaTransactionBridge)
      (applied : Option (Dict (String × ℕ) ℕ))
      (opens : session.consumePublishRuntime runtime env = some opened)
      (body : opened.consumePublish engine command env = (.ok result, runtime'))
      (own : session.active = false)
      (commits : runtime'.transactionBridge.commit env.commit = (.ok (), bridge, applied)) :
      ConsumePublishCase command env
        { answer := .ok result
          session := { session with touchedGroups := [] }
          runtime := { runtime' with transactionBridge := bridge }
          transaction := applied.map (⟨runtime'.transactionBridge.groupKey, ·⟩) }

theorem consumePublish_cases (command : TransactionalConsumePublishCommand Token)
    (env : ConsumePublishEnv) :
    session.ConsumePublishCase engine runtime command env
      (session.executeTransactional runtime engine command env) := by
  unfold executeTransactional
  cases hbegun : session.ensureBegun with
  | some raised =>
    exact .refused raised runtime.transactionBridge (by rw [consumePublishRuntime, hbegun])
      (Or.inl rfl)
  | none =>
  cases hopens : (if session.active then (.ok (), runtime.transactionBridge)
      else runtime.transactionBridge.begin env.begin.beginTransaction env.begin.emit :
      Except Raised Unit × KafkaTransactionBridge) with
  | mk answer bridge =>
  -- The call tests whether it owns the transaction, which is whether the session is inactive.
  have howns : (if !session.active then
      runtime.transactionBridge.begin env.begin.beginTransaction env.begin.emit
      else (.ok (), runtime.transactionBridge)) = (answer, bridge) := by
    rw [← hopens]
    cases session.active <;> rfl
  dsimp only
  rw [howns]
  cases answer with
  | error raised =>
    refine .refused raised bridge (by rw [consumePublishRuntime, hbegun]; dsimp only; rw [hopens]) ?_
    split at hopens
    · simp at hopens
    · exact Or.inr (by rw [hopens])
  | ok _ =>
  have hruntime : session.consumePublishRuntime runtime env =
      some { runtime with transactionBridge := bridge } := by
    rw [consumePublishRuntime, hbegun]
    dsimp only
    rw [hopens]
  dsimp only
  cases hbody : KafkaAdapterRuntime.consumePublish { runtime with transactionBridge := bridge }
    engine command env with
  | mk answer runtime' =>
  cases answer with
  | error raised => exact .raised raised _ runtime' hruntime hbody
  | ok result =>
  dsimp only
  by_cases hactive : session.active = true
  · rw [if_neg (by simp [hactive])]
    exact .joined result _ runtime' hruntime hbody hactive
  · have hown : session.active = false := by simpa using hactive
    rw [if_pos (by simp [hown])]
    rcases hcommit : runtime'.transactionBridge.commit env.commit with
      ⟨raised | ⟨⟨⟩⟩, bridge, applied⟩
    · exact .undone result raised _ runtime' bridge applied hruntime hbody hown hcommit
    · exact .owned result _ runtime' bridge applied hruntime hbody hown hcommit

/-- It neither begins nor ends a Core transaction. -/
theorem executeTransactional_active (command : TransactionalConsumePublishCommand Token)
    (env : ConsumePublishEnv) :
    (session.executeTransactional runtime engine command env).session.active = session.active := by
  have hcases := session.consumePublish_cases engine runtime command env
  generalize session.executeTransactional runtime engine command env = outcome at hcases ⊢
  cases hcases with
  | refused => rfl
  | raised raised _ runtime' => exact abandon_active _ runtime' _ raised env.rollback
  | joined => rfl
  | undone _ raised _ runtime' bridge =>
    exact abandon_active _ { runtime' with transactionBridge := bridge } _ raised env.rollback
  | owned => rfl

/-- A `begin` after which the session has a Core transaction. -/
theorem begin_of_active_after {session : KafkaAdapterSession} {runtime : KafkaAdapterRuntime}
    {env : SessionBeginEnv} (hinactive : session.active = false)
    (hactive : (session.begin runtime env).session.active = true) :
    session.ensureOpen = none ∧ session.transactional = true ∧
      runtime.transactionBridge.lease = false ∧ env.beginTransaction = none ∧
      (session.begin runtime env).runtime.transactionBridge = { active := true, lease := true } := by
  -- A call that is refused leaves the session inactive.
  have hrefused : ∀ raised, (session.refuse (α := Unit) runtime raised).session.active ≠ true :=
    fun raised => by simp [refuse, hinactive]
  unfold begin at hactive ⊢
  cases hopen : session.ensureOpen with
  | some raised =>
    rw [hopen] at hactive
    exact absurd hactive (hrefused raised)
  | none =>
    rw [hopen] at hactive
    dsimp only at hactive ⊢
    cases htransactional : session.transactional with
    | false =>
      rw [htransactional, Bool.not_false, if_pos rfl] at hactive
      exact absurd hactive (hrefused _)
    | true =>
    rw [htransactional, Bool.not_true, if_neg Bool.false_ne_true, hinactive,
      if_neg Bool.false_ne_true] at hactive
    rw [Bool.not_true, if_neg Bool.false_ne_true, hinactive, if_neg Bool.false_ne_true]
    rcases hbegin : runtime.transactionBridge.begin env.beginTransaction env.emit with
      ⟨raised | ⟨⟨⟩⟩, bridge⟩
    · rw [hbegin] at hactive
      exact absurd (hinactive.symm.trans hactive) (by simp)
    · obtain ⟨hlease, rfl⟩ := KafkaTransactionBridge.begin_ok hbegin
      exact ⟨rfl, rfl, hlease, KafkaTransactionBridge.client_of_begin hbegin, rfl⟩

/-- A consume-publish comes to its acknowledgement when its outputs are published. -/
theorem sessionAck_executeTransactional {s : RuntimeSessions} {i : ℕ}
    {command : TransactionalConsumePublishCommand Token} {env : ConsumePublishEnv}
    {ack : SessionAck Token} (h : sessionAck (s, .executeTransactional i command env) = some ack) :
    ∃ opened receipts, (s.sessions i).consumePublishRuntime s.runtime env = some opened ∧
      opened.publishOutputs command.outputs env = .ok receipts ∧
      ack = ⟨opened, command.ackCommand, true, env.acknowledge⟩ := by
  unfold consumePublishRuntime
  dsimp only [sessionAck] at h
  cases hbegun : (s.sessions i).ensureBegun with
  | some raised => simp [hbegun] at h
  | none =>
  rw [hbegun] at h
  dsimp only at h ⊢
  rcases hopens : (if (s.sessions i).active then (.ok (), s.runtime.transactionBridge)
    else s.runtime.transactionBridge.begin env.begin.beginTransaction env.begin.emit :
    Except Raised Unit × KafkaTransactionBridge) with ⟨raised | ⟨⟨⟩⟩, bridge⟩
  · simp [hopens] at h
  rw [hopens] at h
  dsimp only at h
  cases hpublished : KafkaAdapterRuntime.publishOutputs
    { s.runtime with transactionBridge := bridge } command.outputs env with
  | error raised => simp [hpublished] at h
  | ok receipts =>
    rw [hpublished] at h
    exact ⟨_, receipts, rfl, hpublished, (Option.some.inj h).symm⟩

theorem sessionAck_of_stays {s : RuntimeSessions} {i : ℕ}
    (command : TransactionalConsumePublishCommand Token) {env : ConsumePublishEnv}
    (h : (s.sessions i).consumePublishRuntime s.runtime env = none) :
    sessionAck (s, .executeTransactional i command env) = none := by
  cases hack : sessionAck (s, .executeTransactional i command env) with
  | none => rfl
  | some ack =>
    obtain ⟨_, _, hopens, -⟩ := sessionAck_executeTransactional hack
    exact absurd (h.symm.trans hopens) (by simp)

end KafkaAdapterSession

namespace KafkaConsumerEngine

variable {Token : Type} {engine : KafkaConsumerEngine Token} {logs : GroupRef → PartitionLog}
  {s : RuntimeSessions}

/-- Only the session that acts changes. -/
theorem act_sessions_of_ne {action : SessionAction Token} {i : ℕ} (h : action.session ≠ some i) :
    (engine.act s action).sessions i = s.sessions i := by
  cases action with
  | call call =>
    cases call with
    | join poll partitions =>
      show (engine.share s (.join poll partitions)).sessions i = _
      unfold share
      dsimp only
      split <;> rfl
    | operate group action =>
      show (engine.share s (.operate group action)).sessions i = _
      unfold share
      dsimp only
      split <;> rfl
    | begin j | acknowledge j | executeTransactional j | commit j | rollback j =>
      exact s.put_of_ne _ fun heq => h (congrArg some heq.symm)
  | publish j | close j => exact s.put_of_ne _ fun heq => h (congrArg some heq.symm)
  | reorder j groups => exact Function.update_of_ne (fun heq => h (congrArg some heq.symm)) ..

/-- Every action keeps at most one Core transaction, with the lease. -/
theorem act_leased (action : SessionAction Token) (h : s.Leased) :
    (engine.act s action).Leased := by
  cases action with
  | call call => exact share_leased call h
  | publish i command env =>
    obtain ⟨hsession, hruntime⟩ := (s.sessions i).publish_keeps s.runtime command env
    exact h.put (.keeps (by rw [hsession]) (by rw [hruntime]))
  | close i env => exact h.put ((s.sessions i).close_leaseStep s.runtime env)
  | reorder i groups =>
    -- The order of the groups says nothing about the transaction.
    have hactive : ∀ j, ((engine.act s (.reorder i groups)).sessions j).active =
        (s.sessions j).active := by
      intro j
      show (Function.update s.sessions i { s.sessions i with touchedGroups := groups } j).active = _
      by_cases hj : j = i
      · rw [hj, Function.update_self]
      · rw [Function.update_of_ne hj]
    exact ⟨fun j hj => h.held j (hactive j ▸ hj),
      fun j k hj hk => h.unique j k (hactive j ▸ hj) (hactive k ▸ hk)⟩

/-- While a session has a Core transaction, what the others do leaves the bridge. -/
theorem act_bridge_of_other (h : s.Leased) {action : SessionAction Token} {i : ℕ}
    (hactive : (s.sessions i).active = true) (hother : action.session ≠ some i) :
    (engine.act s action).runtime.transactionBridge = s.runtime.transactionBridge := by
  cases action with
  | call call => exact share_bridge_of_other h hactive hother
  | publish j command env =>
    show ((s.sessions j).publish s.runtime command env).runtime.transactionBridge = _
    rw [((s.sessions j).publish_keeps s.runtime command env).2]
  | close j env =>
    have hinactive : ¬(s.sessions j).active = true := fun htaken =>
      hother (congrArg some (h.unique j i htaken hactive))
    show ((s.sessions j).close s.runtime env).runtime.transactionBridge = _
    rw [((s.sessions j).close_of_inactive s.runtime env fun hbegun => hinactive hbegun.2).1]
  | reorder j groups => rfl

/-- A session that keeps its Core transaction keeps the Kafka transaction open. -/
theorem act_bridge_active {action : SessionAction Token} {i : ℕ}
    (hown : action.session = some i) (hactive : (s.sessions i).active = true)
    (hstays : ((engine.act s action).sessions i).active = true) :
    (engine.act s action).runtime.transactionBridge.active =
      s.runtime.transactionBridge.active := by
  cases action with
  | call call =>
    cases call with
    | join | operate => simp [SessionAction.session, SessionCall.session] at hown
    | begin j env =>
      obtain rfl : j = i := Option.some.inj hown
      show ((s.sessions j).begin s.runtime env).runtime.transactionBridge.active = _
      rw [(KafkaAdapterSession.begin_of_active s.runtime hactive env).2]
    | acknowledge j command env =>
      obtain rfl : j = i := Option.some.inj hown
      show ((s.sessions j).acknowledge s.runtime engine command env).runtime.transactionBridge.active
        = _
      unfold KafkaAdapterSession.acknowledge
      split
      · rfl
      · dsimp only
        rw [hactive]
        exact s.runtime.acknowledge_active engine command env
    | executeTransactional j command env =>
      obtain rfl : j = i := Option.some.inj hown
      show ((s.sessions j).executeTransactional s.runtime engine command
        env).runtime.transactionBridge.active = _
      cases hclosed : (s.sessions j).closed with
      | false =>
        rw [(KafkaAdapterSession.executeTransactional_of_active engine s.runtime hclosed hactive
          command env).2.2]
        exact s.runtime.consumePublish_active engine command env
      | true =>
        unfold KafkaAdapterSession.executeTransactional
        simp [KafkaAdapterSession.ensureBegun, KafkaAdapterSession.ensureOpen, hclosed,
          KafkaAdapterSession.refuse]
    | commit j env =>
      obtain rfl : j = i := Option.some.inj hown
      change ((s.put j ((s.sessions j).commit s.runtime env)).sessions j).active = true at hstays
      show ((s.sessions j).commit s.runtime env).runtime.transactionBridge.active = _
      rw [RuntimeSessions.put_self] at hstays
      -- A commit that comes to the bridge ends the transaction of the session, which stays active
      -- here.
      by_cases hbegun : (s.sessions j).ensureOpen = none ∧ (s.sessions j).active = true
      · rw [(s.sessions j).commit_session s.runtime env hbegun.1 hbegun.2] at hstays
        simp at hstays
      · rw [((s.sessions j).commit_of_inactive s.runtime env hbegun).2.1]
    | rollback j env =>
      obtain rfl : j = i := Option.some.inj hown
      change ((s.put j ((s.sessions j).rollback s.runtime env)).sessions j).active = true at hstays
      show ((s.sessions j).rollback s.runtime env).runtime.transactionBridge.active = _
      rw [RuntimeSessions.put_self] at hstays
      by_cases hbegun : (s.sessions j).ensureOpen = none ∧ (s.sessions j).active = true
      · rw [(s.sessions j).rollback_inactive s.runtime env hbegun.1 hbegun.2] at hstays
        simp at hstays
      · rw [((s.sessions j).rollback_of_inactive s.runtime env hbegun).2]
  | publish j command env =>
    obtain rfl : j = i := Option.some.inj hown
    show ((s.sessions j).publish s.runtime command env).runtime.transactionBridge.active = _
    rw [((s.sessions j).publish_keeps s.runtime command env).2]
  | close j env =>
    obtain rfl : j = i := Option.some.inj hown
    change ((s.put j ((s.sessions j).close s.runtime env)).sessions j).active = true at hstays
    show ((s.sessions j).close s.runtime env).runtime.transactionBridge.active = _
    rw [RuntimeSessions.put_self] at hstays
    -- So does the rollback of a close.
    by_cases hbegun : (s.sessions j).closed = false ∧ (s.sessions j).active = true
    · rw [((s.sessions j).close_of_active s.runtime env hbegun.1 hbegun.2).2.1,
        (s.sessions j).rollback_inactive s.runtime env
          ((s.sessions j).ensureOpen_eq_none.mpr hbegun.1) hbegun.2] at hstays
      simp at hstays
    · rw [((s.sessions j).close_of_inactive s.runtime env hbegun).1]
  | reorder j groups => rfl

/-- A session that has a Core transaction only afterwards has begun it. -/
theorem begins_of_active {action : SessionAction Token} {i : ℕ}
    (hinactive : (s.sessions i).active = false)
    (hactive : ((engine.act s action).sessions i).active = true) :
    ∃ env, action = .call (.begin i env) ∧ s.beginsTransaction action = true ∧
      (engine.act s action).runtime.transactionBridge.active = true := by
  have hown : action.session = some i := by
    by_contra hother
    rw [act_sessions_of_ne hother] at hactive
    exact absurd (hinactive.symm.trans hactive) (by simp)
  -- Every other action of the session leaves it without one.
  have hstays : ∀ {α : Type} {outcome : SessionOutcome α},
      outcome.session.active = (s.sessions i).active →
      ((s.put i outcome).sessions i).active = true → False := by
    intro α outcome hsame htaken
    rw [RuntimeSessions.put_self, hsame, hinactive] at htaken
    simp at htaken
  cases action with
  | call call =>
    cases call with
    | join | operate => simp [SessionAction.session, SessionCall.session] at hown
    | begin j env =>
      obtain rfl : j = i := Option.some.inj hown
      change ((s.put j ((s.sessions j).begin s.runtime env)).sessions j).active = true at hactive
      rw [RuntimeSessions.put_self] at hactive
      refine ⟨env, rfl, ?_⟩
      show s.beginsTransaction (.call (.begin j env) : SessionAction Token) = true ∧
        ((s.sessions j).begin s.runtime env).runtime.transactionBridge.active = true
      obtain ⟨hopen, htransactional, hbegin⟩ := KafkaAdapterSession.begin_of_active_after
        hinactive hactive
      obtain ⟨hlease, hclient, hbridge⟩ := hbegin
      exact ⟨by simp [RuntimeSessions.beginsTransaction, hopen, htransactional, hinactive, hlease,
        hclient], by rw [hbridge]⟩
    | acknowledge j command env =>
      obtain rfl : j = i := Option.some.inj hown
      refine (hstays ?_ hactive).elim
      unfold KafkaAdapterSession.acknowledge
      split
      · rfl
      · dsimp only
        split <;> rfl
    | executeTransactional j command env =>
      obtain rfl : j = i := Option.some.inj hown
      exact (hstays ((s.sessions j).executeTransactional_active engine s.runtime command env)
        hactive).elim
    | commit j env =>
      obtain rfl : j = i := Option.some.inj hown
      refine (hstays ?_ hactive).elim
      rw [((s.sessions j).commit_of_inactive s.runtime env (by simp [hinactive])).1]
    | rollback j env =>
      obtain rfl : j = i := Option.some.inj hown
      refine (hstays ?_ hactive).elim
      rw [((s.sessions j).rollback_of_inactive s.runtime env (by simp [hinactive])).1]
  | publish j command env =>
    obtain rfl : j = i := Option.some.inj hown
    refine (hstays ?_ hactive).elim
    rw [((s.sessions j).publish_keeps s.runtime command env).1]
  | close j env =>
    obtain rfl : j = i := Option.some.inj hown
    refine (hstays ?_ hactive).elim
    exact ((s.sessions j).close_of_inactive s.runtime env (by simp [hinactive])).2.1
  | reorder j groups =>
    obtain rfl : j = i := Option.some.inj hown
    change (Function.update s.sessions j
      { s.sessions j with touchedGroups := groups } j).active = true at hactive
    rw [Function.update_self] at hactive
    exact absurd (hinactive.symm.trans hactive) (by simp)

end KafkaConsumerEngine

theorem RuntimeSessions.Fresh.leased {start : RuntimeSessions} (fresh : start.Fresh) :
    start.Leased :=
  ⟨fun i hi => absurd hi (by simp [fresh.inactive]),
    fun i j hi => absurd hi (by simp [fresh.inactive])⟩

end MeridianKafka
