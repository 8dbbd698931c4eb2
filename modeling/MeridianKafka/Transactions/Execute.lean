import MeridianKafka.Consumer.CompareAndSet
import MeridianKafka.Consumer.DeadLetter
import MeridianKafka.Probe.Engine
import MeridianKafka.Transactions.ConsumePublish

/-!
# The outcome of a request

`KafkaAdapterSession.execute` around the requests that move a group or commit a Kafka
transaction: the checks before the dispatch, the dispatch, and what still follows it. By
then the effect is on the brokers, and the call reports to the telemetry, probes the
cluster and serializes its result. Each of these can raise, and the caller then sees a
failure.

`committing` reads off a request what it commits, and what the calls after that raise
within the dispatch. A request that raises has had no effect exactly when nothing follows
its effect that raises (`harmless_iff`).
-/

namespace MeridianKafka

open Framework

/-- The committed group positions that the brokers hold, by group id, topic and
partition. -/
abbrev GroupPositions := String → String → ℕ → Option ℕ

/-- The offsets that a history commits, by partition, the last one first. -/
def commitsOf (history : List (ℕ × Occurrence)) : List (ℕ × ℕ) :=
  history.filterMap fun e => e.2.committed?.map (Prod.mk e.1)

/-- What a member has committed since. -/
def Member.commitsSince (m' m : Member) : List (ℕ × ℕ) := commitsOf (m'.since m)

/-- Commits of a group, the last one first, reach the brokers. -/
def GroupPositions.apply (positions : GroupPositions) (groupId topic : String)
    (commits : List (ℕ × ℕ)) : GroupPositions := fun g t p =>
  if g = groupId ∧ t = topic then (commits.lookup p).or (positions g t p) else positions g t p

/-! ### Requests -/

/-- A request, with what the collaborators of its engine answer. -/
inductive SessionRequest (Token : Type)
  | acknowledge (command : AcknowledgeCommand Token) (env : AcknowledgeEnv)
  | negativeAcknowledge (command : NegativeAcknowledgeCommand Token) (env : NegativeAcknowledgeEnv)
  /-- `join` is what creating and subscribing a consumer raises. -/
  | groupPosition (command : GroupPositionCommand Token) (join : Option Raised)
      (env : GroupPositionEnv)
  | transactionalConsumePublish (command : TransactionalConsumePublishCommand Token)
      (env : ConsumePublishEnv)

/-- The data of a result. -/
inductive SessionData
  | acknowledged (acknowledged : KafkaConsumerEngine.Acknowledged)
  | negativeAcknowledged (negativeAcknowledged : KafkaConsumerEngine.NegativeAcknowledged)
  | groupPosition (previousFingerprint newFingerprint : String)
  | consumePublished (receipts : List String) (acknowledgement : KafkaConsumerEngine.Acknowledged)
  deriving DecidableEq

def SessionRequest.operationContract {Token : Type} : SessionRequest Token → String
  | acknowledge _ _ => "meridian.streaming.acknowledge"
  | negativeAcknowledge _ _ => "meridian.streaming.negative-acknowledge"
  | groupPosition _ _ _ => "meridian.streaming.group-position"
  | transactionalConsumePublish _ _ => "meridian.streaming.transactional-consume-publish"

def GroupPositionCommand.group {Token : Type} (command : GroupPositionCommand Token) : GroupRef :=
  (command.subscription.ref, command.consumerGroup.ref)

/-- The poll with which `group_position` joins its group. -/
def GroupPositionCommand.poll {Token : Type} (command : GroupPositionCommand Token) :
    PollCommand where
  subscription := command.subscription
  consumerGroup := command.consumerGroup
  stream := command.stream
  limit := 1
  waitTimeoutMs := 0

/-- What is around the dispatch. -/
structure ExecuteEnv where
  /-- `_require_open`, before the dispatch. -/
  requireOpen : Option Raised := none
  tenant : Option String
  started : Option Raised := none
  compile : Option Raised := none
  /-- `_producer`, `_consumer` and `_bridge`. -/
  components : Option Raised := none
  completed : Option Raised := none
  /-- `_require_probe`, after the dispatch: the runtime may have been closed. -/
  requireProbe : Option Raised := none
  probe : ProbeEnv
  canonicalJsonBytes : Option Raised := none

/-- What a request ends with, and what it leaves on the brokers. -/
structure ExecuteOutcome where
  answer : Except Raised SessionData
  session : KafkaAdapterSession
  runtime : KafkaAdapterRuntime
  positions : GroupPositions
  transaction : Option KafkaTransaction := none

/-! ### The engine's operations on the member of a group -/

namespace KafkaAdapterRuntime

variable {Token : Type} (runtime : KafkaAdapterRuntime) (engine : KafkaConsumerEngine Token)

/-- The engine's `negative_acknowledge`, on the member of the command's group. -/
def negativeAcknowledge (command : NegativeAcknowledgeCommand Token)
    (env : NegativeAcknowledgeEnv) :
    Except Raised KafkaConsumerEngine.NegativeAcknowledged × KafkaAdapterRuntime :=
  match runtime.states.get? command.toAcknowledgeCommand.group with
  | none =>
    (.error (.failure
      { kind := .deliveryRejected
        message := "delivery has no active ConsumerGroup session" }), runtime)
  | some m =>
    match engine.negativeAcknowledge m command env with
    | (answer, m) =>
      (answer,
        { runtime with states := runtime.states.set command.toAcknowledgeCommand.group m })

/-- `_state`: the member of a group, which joins it if it has none. -/
def member (poll : PollCommand) (join : Option Raised) : Except Raised Member :=
  match runtime.states.get? poll.group with
  | some m => .ok m
  | none =>
    match join with
    | some raised => .error raised
    | none => .ok (.create poll)

/-- The engine's `group_position`, on the member of the command's group. -/
def groupPosition (command : GroupPositionCommand Token) (join : Option Raised)
    (env : GroupPositionEnv) : Except Raised (String × String) × KafkaAdapterRuntime :=
  match runtime.member command.poll join with
  | .error raised => (.error raised, runtime)
  | .ok m =>
    match engine.groupPosition m command env with
    | (answer, m) => (answer, { runtime with states := runtime.states.set command.group m })

/-- The group positions after a call has gone from one state of the runtime to another.
The consumer of the group commits for the id that it was created with; a member that was
not there before has no history. -/
def positionsAfter (after before : KafkaAdapterRuntime) (group : GroupRef) (topic : String)
    (positions : GroupPositions) : GroupPositions :=
  match after.states.get? group with
  | none => positions
  | some m' =>
    positions.apply m'.state.command.consumerGroup.groupId topic
      (m'.commitsSince ((before.states.get? group).getD (.create m'.state.command)))

end KafkaAdapterRuntime

/-! ### The request -/

namespace KafkaAdapterSession

variable {Token : Type} (session : KafkaAdapterSession) (runtime : KafkaAdapterRuntime)
  (engine : KafkaConsumerEngine Token) (positions : GroupPositions)

/-- A request that fails and leaves everything. -/
def fail (raised : Raised) : ExecuteOutcome where
  answer := .error raised
  session
  runtime
  positions

/-- `_dispatch`. The acknowledgement in a consume-publish commits nothing: it stages
(`commitsSince_acknowledge`). -/
def dispatch : SessionRequest Token → ExecuteOutcome
  | .acknowledge command env =>
    let outcome := session.acknowledge runtime engine command env
    { answer := outcome.answer.map .acknowledged
      session := outcome.session
      runtime := outcome.runtime
      positions :=
        outcome.runtime.positionsAfter runtime command.group command.stream.topic positions
      transaction := outcome.transaction }
  | .negativeAcknowledge command env =>
    if session.active then
      session.fail runtime positions
        (transactionFailure "negative acknowledgement is not valid inside a Core transaction")
    else
      match runtime.negativeAcknowledge engine command env with
      | (answer, after) =>
        { answer := answer.map .negativeAcknowledged
          session
          runtime := after
          positions := after.positionsAfter runtime command.toAcknowledgeCommand.group
            command.stream.topic positions }
  | .groupPosition command join env =>
    if session.active then
      session.fail runtime positions
        (transactionFailure "group-position transition is not valid inside a transaction")
    else
      match runtime.groupPosition engine command join env with
      | (answer, after) =>
        { answer := answer.map fun (previous, new) => .groupPosition previous new
          session
          runtime := after
          positions := after.positionsAfter runtime command.group command.stream.topic positions }
  | .transactionalConsumePublish command env =>
    let outcome := session.executeTransactional runtime engine command env
    { answer := outcome.answer.map fun (receipts, acknowledgement) =>
        .consumePublished receipts acknowledgement
      session := outcome.session
      runtime := outcome.runtime
      positions
      transaction := outcome.transaction }

/-- What `execute` does before the dispatch. -/
def beforeDispatch (request : SessionRequest Token) (env : ExecuteEnv) : Option Raised :=
  session.ensureOpen.or <| env.requireOpen.or <| session.ensureBegun.or <|
    (if env.tenant.isNone then
      some (.failure
        { kind := .streamingPolicyDenied
          message := "Kafka streaming Operations require a tenant scope"
          requirement := "operation.tenant" })
    else none).or <|
    env.started.or <|
    (env.compile.or env.components).map (·.meridian request.operationContract)

/-- What `execute` does after the dispatch: report, probe and serialize. -/
def afterDispatch (settings : KafkaBindingSettings) (env : ExecuteEnv) : Option Raised :=
  env.completed.or <| env.requireProbe.or <|
    (match KafkaProbeEngine.probe settings env.probe with
      | .error raised => some raised
      | .ok _ => none).or
    env.canonicalJsonBytes

/-- `execute`. -/
def execute (request : SessionRequest Token) (env : ExecuteEnv) : ExecuteOutcome :=
  match session.beforeDispatch request env with
  | some raised => session.fail runtime positions raised
  | none =>
    let outcome := session.dispatch runtime engine positions request
    match outcome.answer with
    | .error raised => { outcome with answer := .error (raised.meridian request.operationContract) }
    | .ok _ =>
      match afterDispatch engine.settings env with
      | some raised => { outcome with answer := .error raised }
      | none => outcome

end KafkaAdapterSession

/-! ### What a request commits -/

/-- What a request leaves on the brokers. -/
inductive Effect
  | commit (groupId topic : String) (offsets : List (ℕ × ℕ))
  | transaction (transaction : KafkaTransaction)

/-- The effect changes a committed position, or commits a Kafka transaction. -/
def Effect.Moves (positions : GroupPositions) : Effect → Prop
  | commit groupId topic offsets =>
    ∃ p offset, offsets.lookup p = some offset ∧ positions groupId topic p ≠ some offset
  | transaction _ => True

def Effect.positions (positions : GroupPositions) : Effect → GroupPositions
  | commit groupId topic offsets => positions.apply groupId topic offsets
  | transaction _ => positions

def Effect.transaction? : Effect → Option KafkaTransaction
  | commit _ _ _ => none
  | transaction committed => some committed

/-- An effect, and what the calls after it raise within the dispatch. -/
structure Committing where
  effect : Effect
  later : Option Raised

namespace KafkaConsumerEngine

variable {Token : Type} (engine : KafkaConsumerEngine Token)

/-- The offset that an acknowledgement without a transaction commits: the token is valid,
the safe offset moves, and the commit returns. -/
def acknowledgeCommits (m : Member) (command : AcknowledgeCommand Token) (env : AcknowledgeEnv) :
    Option (ℕ × ℕ) :=
  match engine.cursor.decodeDelivery env.nowMs command.delivery command.subscription.ref
      command.consumerGroup.ref command.stream.topic with
  | .error _ => none
  | .ok c =>
    let safe := (m.contiguous c.partition c.offset).1
    if acknowledgeGuard m c = none ∧ safe > m.original c.partition c.offset ∧ env.commit = none then
      some (c.partition, safe)
    else none

/-- The offset that a negative acknowledgement commits: the publication of the dead letter
returns, and the acknowledgement after it commits. -/
def negativeAcknowledgeCommits (m : Member) (command : NegativeAcknowledgeCommand Token)
    (env : NegativeAcknowledgeEnv) : Option (ℕ × ℕ) :=
  (engine.deadLetterPublish m command env.nowMs env.utcNow).bind fun publication =>
    match env.publish publication with
    | .error _ => none
    | .ok _ => engine.acknowledgeCommits m command.toAcknowledgeCommand env.acknowledge

/-- The positions that a call of `group_position` commits: its checks pass, and the commit
returns. -/
def groupPositionCommits (command : GroupPositionCommand Token) (env : GroupPositionEnv) :
    Option (Dict ℕ ℕ) :=
  match engine.groupPositionTarget command env with
  | .error _ => none
  | .ok (_, target) => if env.commit = none then some target else none

/-- What `group_position` raises after its commit: the fingerprint of the new positions,
and the report. -/
def groupPositionLater (command : GroupPositionCommand Token) (env : GroupPositionEnv)
    (target : Dict ℕ ℕ) : Option Raised :=
  match engine.cursor.groupPositionFingerprint command.stream.topic target with
  | .error raised => some raised
  | .ok _ => env.emit

end KafkaConsumerEngine

/-- The offsets that a commit applies. -/
def KafkaTransactionBridge.commits (bridge : KafkaTransactionBridge) (env : CommitEnv) :
    Option (Dict (String × ℕ) ℕ) :=
  if bridge.active ∧ (bridge.sendOffsets env).or env.commitTransaction = none then
    some bridge.offsets
  else none

namespace KafkaAdapterSession

variable {Token : Type} (session : KafkaAdapterSession) (runtime : KafkaAdapterRuntime)
  (engine : KafkaConsumerEngine Token)

/-- The Kafka transaction of its own that a consume-publish commits: the transaction
begins, the outputs are published, the source is acknowledged, and the commit returns. -/
def ownTransaction (command : TransactionalConsumePublishCommand Token) (env : ConsumePublishEnv) :
    Option KafkaTransaction :=
  match runtime.transactionBridge.begin env.begin.beginTransaction env.begin.emit with
  | (.error _, _) => none
  | (.ok (), bridge) =>
    match KafkaAdapterRuntime.consumePublish { runtime with transactionBridge := bridge } engine
        command env with
    | (.error _, _) => none
    | (.ok _, runtime) =>
      (runtime.transactionBridge.commits env.commit).map (⟨runtime.transactionBridge.groupKey, ·⟩)

/-- What a request that is dispatched commits, if it does. -/
def committing : SessionRequest Token → Option Committing
  | .acknowledge command env =>
    if session.active then none
    else
      (runtime.states.get? command.group).bind fun m =>
        (engine.acknowledgeCommits m command env).map fun commit =>
          ⟨.commit m.state.command.consumerGroup.groupId command.stream.topic [commit], env.emit⟩
  | .negativeAcknowledge command env =>
    if session.active then none
    else
      (runtime.states.get? command.toAcknowledgeCommand.group).bind fun m =>
        (engine.negativeAcknowledgeCommits m command env).map fun commit =>
          ⟨.commit m.state.command.consumerGroup.groupId command.stream.topic [commit],
            env.acknowledge.emit.or env.emit⟩
  | .groupPosition command join env =>
    if session.active then none
    else
      match runtime.member command.poll join with
      | .error _ => none
      | .ok m =>
        (engine.groupPositionCommits command env).map fun target =>
          ⟨.commit m.state.command.consumerGroup.groupId command.stream.topic target.entries,
            engine.groupPositionLater command env target⟩
  | .transactionalConsumePublish command env =>
    if session.active then none
    else
      (ownTransaction runtime engine command env).map fun transaction =>
        ⟨.transaction transaction, env.commit.emit⟩

end KafkaAdapterSession

/-- A request that raises has changed no committed group position and has committed no
Kafka transaction. -/
def ExecuteOutcome.Harmless (outcome : ExecuteOutcome) (positions : GroupPositions) : Prop :=
  (∃ raised, outcome.answer = .error raised) →
    outcome.positions = positions ∧ outcome.transaction = none

/-! ### Effects on the brokers -/

section Effects

variable {positions : GroupPositions} {groupId topic : String}

@[simp] theorem GroupPositions.apply_nil : positions.apply groupId topic [] = positions := by
  funext g t p
  unfold GroupPositions.apply
  split <;> rfl

/-- Commits leave the positions exactly when every one of them is where the group already
is. -/
theorem GroupPositions.apply_eq_self_iff {commits : List (ℕ × ℕ)} :
    positions.apply groupId topic commits = positions ↔
      ∀ p offset, commits.lookup p = some offset → positions groupId topic p = some offset := by
  constructor
  · intro h p offset hlookup
    rw [← h]
    unfold GroupPositions.apply
    rw [if_pos ⟨rfl, rfl⟩, hlookup]
    rfl
  · intro h
    funext g t p
    unfold GroupPositions.apply
    split
    · next hhere =>
      obtain ⟨rfl, rfl⟩ := hhere
      cases hlookup : commits.lookup p with
      | none => rfl
      | some offset => exact (h p offset hlookup).symm
    · rfl

/-- An effect leaves the brokers exactly when it moves nothing. -/
theorem Effect.not_moves_iff (effect : Effect) :
    ¬effect.Moves positions ↔ effect.positions positions = positions ∧ effect.transaction? = none := by
  cases effect with
  | commit groupId topic offsets =>
    change (¬∃ p offset, offsets.lookup p = some offset ∧ positions groupId topic p ≠ some offset) ↔
      positions.apply groupId topic offsets = positions ∧ none = none
    rw [GroupPositions.apply_eq_self_iff]
    simp only [not_exists, not_and, not_not]
    exact (and_iff_left trivial).symm
  | transaction committed =>
    refine iff_of_false (fun h => h trivial) fun h => ?_
    exact Option.some_ne_none _ h.2

end Effects

theorem Member.commitsSince_of_append {m m' : Member} (fresh : List (ℕ × Occurrence))
    (h : m'.history = fresh ++ m.history) : m'.commitsSince m = commitsOf fresh := by
  unfold Member.commitsSince Member.since
  rw [h, List.length_append, Nat.add_sub_cancel, List.take_left]

namespace KafkaConsumerEngine

variable {Token : Type} {engine : KafkaConsumerEngine Token} {m : Member}

section Acknowledge

variable {command : AcknowledgeCommand Token} {env : AcknowledgeEnv}

/-- An acknowledgement that commits only reports afterwards. -/
theorem acknowledge_of_commits {commit : ℕ × ℕ}
    (h : engine.acknowledgeCommits m command env = some commit) :
    ∃ c : DeliveryCoordinates, c.partition = commit.1 ∧
      engine.acknowledge m command none env =
        completeAcknowledge (((m.collect c.partition c.offset).note c.partition
          (.commit commit.2)).setSafe c.partition commit.2) command c true none env := by
  unfold acknowledgeCommits at h
  unfold acknowledge
  cases hdecodes : engine.cursor.decodeDelivery env.nowMs command.delivery
    command.subscription.ref command.consumerGroup.ref command.stream.topic with
  | error failure =>
    rw [hdecodes] at h
    simp at h
  | ok c =>
  rw [hdecodes] at h
  dsimp only at h ⊢
  split at h
  swap
  · simp at h
  -- The token was accepted, the group moves, and the client's commit returned.
  next hcommits =>
  obtain ⟨haccepted, hmoves, hreturns⟩ := hcommits
  obtain rfl := Option.some.inj h
  refine ⟨c, rfl, ?_⟩
  unfold acknowledgeDelivery
  rw [haccepted]
  dsimp only
  rw [if_pos hmoves]
  unfold moveGroup
  rw [hreturns]

/-- The commit of an acknowledgement is what its member has added. -/
theorem commitsSince_acknowledge_of_commits {commit : ℕ × ℕ}
    (h : engine.acknowledgeCommits m command env = some commit) :
    (engine.acknowledge m command none env).2.1.commitsSince m = [commit] := by
  obtain ⟨c, hpartition, heq⟩ := acknowledge_of_commits h
  rw [heq, completeAcknowledge_member]
  refine (Member.commitsSince_of_append [(c.partition, .acknowledged c.offset _ _),
    (c.partition, .commit commit.2)] rfl).trans ?_
  rw [hpartition]
  rfl

/-- An acknowledgement in a transaction commits nothing, and neither does one that comes to
no commit. -/
theorem commitsSince_acknowledge {transaction : Option KafkaTransactionBridge}
    (h : transaction = none → engine.acknowledgeCommits m command env = none) :
    (engine.acknowledge m command transaction env).2.1.commitsSince m = [] := by
  unfold acknowledgeCommits at h
  unfold acknowledge
  cases hdecodes : engine.cursor.decodeDelivery env.nowMs command.delivery
    command.subscription.ref command.consumerGroup.ref command.stream.topic with
  | error failure => exact Member.commitsSince_of_append [] rfl
  | ok c =>
  rw [hdecodes] at h
  dsimp only at h ⊢
  unfold acknowledgeDelivery
  cases haccepted : acknowledgeGuard m c with
  | some failure => exact Member.commitsSince_of_append [] rfl
  | none =>
  dsimp only
  split
  swap
  · -- The safe offset stays.
    rw [completeAcknowledge_member]
    exact Member.commitsSince_of_append [(c.partition, .acknowledged c.offset _ _)] rfl
  next hmoves =>
  generalize hmoved : moveGroup command c.partition (m.contiguous c.partition c.offset).1
    transaction env = moved
  obtain ⟨outcome, transaction'⟩ := moved
  cases outcome with
  | error raised => exact Member.commitsSince_of_append [] rfl
  | ok moved =>
    dsimp only
    rw [completeAcknowledge_member]
    obtain ⟨-, rfl⟩ := moveGroup_ok hmoved
    cases transaction with
    | some bridge =>
      exact Member.commitsSince_of_append [(c.partition, .acknowledged c.offset _ _),
        (c.partition, .staged _)] rfl
    | none =>
      -- Without a transaction the move is a commit.
      have hreturns : env.commit = none := by
        unfold moveGroup at hmoved
        dsimp only at hmoved
        cases hcommit : env.commit with
        | none => rfl
        | some raised =>
          rw [hcommit] at hmoved
          simp at hmoved
      have := h rfl
      rw [if_pos ⟨haccepted, hmoves, hreturns⟩] at this
      exact absurd this (Option.some_ne_none _)

theorem acknowledge_raises_iff_of_commits {commit : ℕ × ℕ}
    (h : engine.acknowledgeCommits m command env = some commit) :
    (∃ raised, (engine.acknowledge m command none env).1 = .error raised) ↔ env.emit ≠ none := by
  obtain ⟨c, -, heq⟩ := acknowledge_of_commits h
  rw [heq]
  unfold completeAcknowledge
  cases env.emit <;> simp

end Acknowledge

section NegativeAcknowledge

variable {command : NegativeAcknowledgeCommand Token} {env : NegativeAcknowledgeEnv}

/-- A negative acknowledgement that comes to no publication seeks and pauses at most. -/
theorem commitsSince_negativeAcknowledge_of_no_publication
    (h : engine.deadLetterPublish m command env.nowMs env.utcNow = none) :
    (engine.negativeAcknowledge m command env).2.commitsSince m = [] := by
  -- What its publication would answer is never read.
  rw [← negativeAcknowledge_of_no_publication h fun _ => .error .other]
  unfold negativeAcknowledge
  split
  · exact Member.commitsSince_of_append [] rfl
  next c hdecodes =>
  unfold negativeAcknowledgeDelivery
  split
  · exact Member.commitsSince_of_append [] rfl
  next inflight hguard =>
  split
  · unfold deadLetter
    split <;> exact Member.commitsSince_of_append [] rfl
  unfold scheduleRedelivery
  dsimp only
  split
  · exact Member.commitsSince_of_append [] rfl
  split
  swap
  · split <;> exact Member.commitsSince_of_append [(c.partition, .seek c.offset)] rfl
  split
  · exact Member.commitsSince_of_append [(c.partition, .seek c.offset)] rfl
  split <;>
    exact Member.commitsSince_of_append [(c.partition, .pause), (c.partition, .seek c.offset)] rfl

/-- The member after a negative acknowledgement that publishes is the member after its
acknowledgement. -/
theorem negativeAcknowledge_member_of_published {publication : PublishCommand} {eventId : String}
    (h : engine.deadLetterPublish m command env.nowMs env.utcNow = some publication)
    (published : env.publish publication = .ok eventId) :
    (engine.negativeAcknowledge m command env).2 =
        (engine.acknowledge m command.toAcknowledgeCommand none env.acknowledge).2.1 ∧
      ((∃ raised, (engine.negativeAcknowledge m command env).1 = .error raised) ↔
        (∃ raised, (engine.acknowledge m command.toAcknowledgeCommand none env.acknowledge).1 =
          .error raised) ∨ env.emit ≠ none) := by
  rw [negativeAcknowledge_of_publication h, published]
  dsimp only
  generalize engine.acknowledge m command.toAcknowledgeCommand none env.acknowledge = acknowledged
  obtain ⟨answer, m', transaction⟩ := acknowledged
  cases answer with
  | error raised => exact ⟨rfl, iff_of_true ⟨raised, rfl⟩ (Or.inl ⟨raised, rfl⟩)⟩
  | ok answer => cases env.emit <;> simp

theorem commitsSince_negativeAcknowledge :
    (engine.negativeAcknowledge m command env).2.commitsSince m =
      (engine.negativeAcknowledgeCommits m command env).toList := by
  unfold negativeAcknowledgeCommits
  cases hpublication : engine.deadLetterPublish m command env.nowMs env.utcNow with
  | none => exact commitsSince_negativeAcknowledge_of_no_publication hpublication
  | some publication =>
  rw [Option.bind_some]
  cases hpublished : env.publish publication with
  | error raised =>
    rw [negativeAcknowledge_of_publication hpublication, hpublished]
    exact Member.commitsSince_of_append [] rfl
  | ok eventId =>
  dsimp only
  rw [(negativeAcknowledge_member_of_published hpublication hpublished).1]
  cases hcommits : engine.acknowledgeCommits m command.toAcknowledgeCommand env.acknowledge with
  | none => exact commitsSince_acknowledge fun _ => hcommits
  | some commit => exact commitsSince_acknowledge_of_commits hcommits

theorem negativeAcknowledge_raises_iff_of_commits {commit : ℕ × ℕ}
    (h : engine.negativeAcknowledgeCommits m command env = some commit) :
    (∃ raised, (engine.negativeAcknowledge m command env).1 = .error raised) ↔
      env.acknowledge.emit.or env.emit ≠ none := by
  unfold negativeAcknowledgeCommits at h
  obtain ⟨publication, hpublication, h⟩ := Option.bind_eq_some_iff.mp h
  split at h
  · simp at h
  next eventId hpublished =>
  rw [(negativeAcknowledge_member_of_published hpublication hpublished).2,
    acknowledge_raises_iff_of_commits h]
  cases env.acknowledge.emit <;> simp

end NegativeAcknowledge

section GroupPosition

variable {command : GroupPositionCommand Token} {env : GroupPositionEnv}

theorem commitsSince_reposition (target : Dict ℕ ℕ) :
    (m.reposition target).commitsSince m = target.entries := by
  refine (Member.commitsSince_of_append (target.entries.map fun e => (e.1, .commit e.2)) rfl).trans ?_
  unfold commitsOf
  rw [List.filterMap_map]
  exact List.filterMap_some

theorem commitsSince_groupPosition :
    (engine.groupPosition m command env).2.commitsSince m =
      ((engine.groupPositionCommits command env).map Dict.entries).getD [] := by
  unfold groupPosition groupPositionCommits
  generalize engine.groupPositionTarget command env = checked
  cases checked with
  | error raised => exact Member.commitsSince_of_append [] rfl
  | ok checked =>
  obtain ⟨before, target⟩ := checked
  dsimp only
  cases env.commit with
  | some raised => exact Member.commitsSince_of_append [] rfl
  | none =>
    dsimp only
    rw [if_pos rfl]
    split
    · exact commitsSince_reposition target
    · split <;> exact commitsSince_reposition target

theorem groupPosition_raises_iff_of_commits {target : Dict ℕ ℕ}
    (h : engine.groupPositionCommits command env = some target) :
    (∃ raised, (engine.groupPosition m command env).1 = .error raised) ↔
      engine.groupPositionLater command env target ≠ none := by
  unfold groupPositionCommits at h
  unfold groupPosition groupPositionLater
  cases htarget : engine.groupPositionTarget command env with
  | error raised =>
    rw [htarget] at h
    simp at h
  | ok checked =>
  obtain ⟨before, target'⟩ := checked
  rw [htarget] at h
  dsimp only at h ⊢
  split at h
  swap
  · simp at h
  next hreturns =>
  obtain rfl := Option.some.inj h
  -- the commit has returned: what may raise now comes after it
  rw [hreturns]
  dsimp only
  cases engine.cursor.groupPositionFingerprint command.stream.topic target' with
  | error raised => simp
  | ok after => cases env.emit <;> simp

end GroupPosition

end KafkaConsumerEngine

namespace KafkaTransactionBridge

variable (bridge : KafkaTransactionBridge) (env : CommitEnv)

theorem commit_eq_commits : (bridge.commit env).2.2 = bridge.commits env := by
  unfold commit commits
  cases bridge.active with
  | false => rfl
  | true =>
    rw [Bool.not_true, if_neg Bool.false_ne_true]
    cases (bridge.sendOffsets env).or env.commitTransaction with
    | some raised => rfl
    | none => cases env.emit <;> rfl

variable {bridge env}

theorem commit_raises_iff_of_commits {offsets : Dict (String × ℕ) ℕ}
    (h : bridge.commits env = some offsets) :
    (∃ raised, (bridge.commit env).1 = .error raised) ↔ env.emit ≠ none := by
  unfold commits at h
  split at h
  swap
  · simp at h
  next hcommits =>
  unfold commit
  rw [hcommits.1, hcommits.2, Bool.not_true, if_neg Bool.false_ne_true]
  dsimp only
  cases env.emit <;> simp

end KafkaTransactionBridge

namespace KafkaAdapterSession

variable {Token : Type} {session : KafkaAdapterSession} {runtime : KafkaAdapterRuntime}
  {engine : KafkaConsumerEngine Token} {positions : GroupPositions}

theorem abandon_raises {α : Type} (owns : Bool) (raised : Raised) (env : SessionRollbackEnv) :
    ∃ raised', (session.abandon (α := α) runtime owns raised env).answer = .error raised' := by
  cases hanswer : (session.abandon (α := α) runtime owns raised env).answer with
  | error raised' => exact ⟨raised', rfl⟩
  | ok result => exact absurd hanswer (abandon_ne_ok session runtime owns raised env result)

section Transactional

variable {command : TransactionalConsumePublishCommand Token} {env : ConsumePublishEnv}

/-- In a Core transaction a consume-publish commits nothing. -/
theorem executeTransactional_transaction_of_active (hactive : session.active = true) :
    (session.executeTransactional runtime engine command env).transaction = none := by
  unfold executeTransactional
  split
  · rfl
  dsimp only
  rw [hactive, Bool.not_true, if_neg Bool.false_ne_true]
  dsimp only
  split
  · exact abandon_transaction _ _ _ _ _
  · rfl

variable (runtime engine command env) in
/-- A consume-publish in a transaction of its own. -/
theorem executeTransactional_own (hbegun : session.ensureBegun = none)
    (hactive : session.active = false) :
    (session.executeTransactional runtime engine command env).transaction =
        ownTransaction runtime engine command env ∧
      ((ownTransaction runtime engine command env).isSome →
        ((∃ raised, (session.executeTransactional runtime engine command env).answer =
          .error raised) ↔ env.commit.emit ≠ none)) := by
  unfold executeTransactional ownTransaction
  rw [hbegun, hactive]
  dsimp only
  rw [Bool.not_false, if_pos rfl]
  generalize runtime.transactionBridge.begin env.begin.beginTransaction env.begin.emit = begun
  obtain ⟨answer, bridge⟩ := begun
  cases answer with
  | error raised => exact ⟨rfl, fun h => by simp at h⟩
  | ok answer =>
  dsimp only
  generalize KafkaAdapterRuntime.consumePublish { runtime with transactionBridge := bridge } engine
    command env = published
  obtain ⟨answer, published⟩ := published
  cases answer with
  | error raised => exact ⟨abandon_transaction _ _ _ _ _, fun h => by simp at h⟩
  | ok result =>
  dsimp only
  rw [if_pos rfl, ← KafkaTransactionBridge.commit_eq_commits]
  -- Behind a commit that the brokers have taken only telemetry is left.
  have hraises : (published.transactionBridge.commit env.commit).2.2.isSome →
      ((∃ raised, (published.transactionBridge.commit env.commit).1 = .error raised) ↔
        env.commit.emit ≠ none) := by
    rw [KafkaTransactionBridge.commit_eq_commits]
    intro h
    obtain ⟨offsets, hoffsets⟩ := Option.isSome_iff_exists.mp h
    exact KafkaTransactionBridge.commit_raises_iff_of_commits hoffsets
  generalize published.transactionBridge.commit env.commit = committed at hraises ⊢
  obtain ⟨answer, bridge', applied⟩ := committed
  cases answer with
  | error raised =>
    refine ⟨rfl, fun h => ?_⟩
    rw [Option.isSome_map] at h
    exact iff_of_true (abandon_raises ..) ((hraises h).mp ⟨raised, rfl⟩)
  | ok answer =>
    refine ⟨rfl, fun h => ?_⟩
    rw [Option.isSome_map] at h
    refine iff_of_false (by simp) fun hemit => ?_
    obtain ⟨raised, heq⟩ := (hraises h).mpr hemit
    simp at heq

end Transactional

theorem positionsAfter_set (runtime : KafkaAdapterRuntime) (bridge : KafkaTransactionBridge)
    (group : GroupRef) (topic : String) {m m' : Member}
    (before : (runtime.states.get? group).getD (.create m'.state.command) = m) :
    KafkaAdapterRuntime.positionsAfter
        { states := runtime.states.set group m', transactionBridge := bridge } runtime group topic
        positions =
      positions.apply m'.state.command.consumerGroup.groupId topic (m'.commitsSince m) := by
  unfold KafkaAdapterRuntime.positionsAfter
  dsimp only
  rw [Dict.get?_set_self]
  dsimp only
  rw [before]

theorem positionsAfter_self (runtime : KafkaAdapterRuntime) (group : GroupRef) (topic : String) :
    runtime.positionsAfter runtime group topic positions = positions := by
  unfold KafkaAdapterRuntime.positionsAfter
  split
  · rfl
  next m hm =>
    rw [hm, Option.getD_some, Member.commitsSince_of_append [] rfl]
    exact GroupPositions.apply_nil


open KafkaConsumerEngine (commitsSince_acknowledge commitsSince_acknowledge_of_commits
  acknowledge_raises_iff_of_commits commitsSince_negativeAcknowledge
  negativeAcknowledge_raises_iff_of_commits commitsSince_groupPosition
  groupPosition_raises_iff_of_commits)

/-- The outcome of a dispatch that commits this, or nothing. -/
def Fulfils (outcome : ExecuteOutcome) (positions : GroupPositions) : Option Committing → Prop
  | none => outcome.positions = positions ∧ outcome.transaction = none
  | some c =>
    outcome.positions = c.effect.positions positions ∧
      outcome.transaction = c.effect.transaction? ∧
        ((∃ raised, outcome.answer = .error raised) ↔ c.later ≠ none)

theorem map_raises_iff {α β : Type} {answer : Except Raised α} (f : α → β) :
    (∃ raised, answer.map f = .error raised) ↔ ∃ raised, answer = .error raised := by
  cases answer <;> simp [Except.map]

theorem dispatch_acknowledge (begun : session.ensureBegun = none)
    (command : AcknowledgeCommand Token) (env : AcknowledgeEnv) :
    Fulfils (session.dispatch runtime engine positions (.acknowledge command env)) positions
      (session.committing runtime engine (.acknowledge command env)) := by
  unfold dispatch committing acknowledge
  rw [begun]
  dsimp only
  unfold KafkaAdapterRuntime.acknowledge
  cases before : runtime.states.get? command.group with
  | none =>
    -- The group has no member.
    cases session.active <;> exact ⟨positionsAfter_self .., rfl⟩
  | some m =>
  dsimp only
  cases active : session.active with
  | true =>
    rw [if_pos rfl, if_pos rfl]
    refine ⟨?_, rfl⟩
    dsimp only
    rw [positionsAfter_set (m := m) _ _ _ _ (by rw [before, Option.getD_some]),
      commitsSince_acknowledge fun h => ?_]
    · exact GroupPositions.apply_nil
    · exact absurd h (Option.some_ne_none _)
  | false =>
  rw [if_neg Bool.false_ne_true, if_neg Bool.false_ne_true, Option.bind_some]
  have hcommand : (engine.acknowledge m command none env).2.1.state.command = m.state.command :=
    engine.next_command (.acknowledge command none env)
  cases hcommits : engine.acknowledgeCommits m command env with
  | none =>
    refine ⟨?_, rfl⟩
    dsimp only
    rw [positionsAfter_set (m := m) _ _ _ _ (by rw [before, Option.getD_some]),
      commitsSince_acknowledge fun _ => hcommits]
    exact GroupPositions.apply_nil
  | some commit =>
    refine ⟨?_, rfl, ?_⟩
    · dsimp only
      rw [positionsAfter_set (m := m) _ _ _ _ (by rw [before, Option.getD_some]),
        commitsSince_acknowledge_of_commits hcommits, hcommand]
      rfl
    · exact (map_raises_iff _).trans (acknowledge_raises_iff_of_commits hcommits)

theorem dispatch_negativeAcknowledge (command : NegativeAcknowledgeCommand Token)
    (env : NegativeAcknowledgeEnv) :
    Fulfils (session.dispatch runtime engine positions (.negativeAcknowledge command env)) positions
      (session.committing runtime engine (.negativeAcknowledge command env)) := by
  unfold dispatch committing
  cases active : session.active with
  | true => exact ⟨rfl, rfl⟩
  | false =>
  dsimp only
  rw [if_neg Bool.false_ne_true, if_neg Bool.false_ne_true]
  unfold KafkaAdapterRuntime.negativeAcknowledge
  cases before : runtime.states.get? command.toAcknowledgeCommand.group with
  | none => exact ⟨positionsAfter_self .., rfl⟩
  | some m =>
  dsimp only
  have hcommand : (engine.negativeAcknowledge m command env).2.state.command = m.state.command :=
    engine.next_command (.negativeAcknowledge command env)
  -- What the broker's positions gain is what the call has appended to the member's commits.
  have hpositions : KafkaAdapterRuntime.positionsAfter
        { states := runtime.states.set command.toAcknowledgeCommand.group
            (engine.negativeAcknowledge m command env).2
          transactionBridge := runtime.transactionBridge }
        runtime command.toAcknowledgeCommand.group command.stream.topic positions =
      positions.apply m.state.command.consumerGroup.groupId command.stream.topic
        (engine.negativeAcknowledgeCommits m command env).toList := by
    rw [positionsAfter_set (m := m) _ _ _ _ (by rw [before, Option.getD_some]),
      commitsSince_negativeAcknowledge, hcommand]
  rw [Option.bind_some]
  cases hcommits : engine.negativeAcknowledgeCommits m command env with
  | none =>
    rw [hcommits] at hpositions
    exact ⟨hpositions.trans GroupPositions.apply_nil, rfl⟩
  | some commit =>
    rw [hcommits] at hpositions
    exact ⟨hpositions, rfl,
      (map_raises_iff _).trans (negativeAcknowledge_raises_iff_of_commits hcommits)⟩

theorem dispatch_groupPosition (command : GroupPositionCommand Token) (join : Option Raised)
    (env : GroupPositionEnv) :
    Fulfils (session.dispatch runtime engine positions (.groupPosition command join env)) positions
      (session.committing runtime engine (.groupPosition command join env)) := by
  unfold dispatch committing
  cases active : session.active with
  | true => exact ⟨rfl, rfl⟩
  | false =>
  dsimp only
  rw [if_neg Bool.false_ne_true, if_neg Bool.false_ne_true]
  unfold KafkaAdapterRuntime.groupPosition
  cases hmember : runtime.member command.poll join with
  | error raised => exact ⟨positionsAfter_self .., rfl⟩
  | ok m =>
  dsimp only
  have hcommand : (engine.groupPosition m command env).2.state.command = m.state.command :=
    engine.next_command (.groupPosition command env)
  -- The member is there, or the call has joined the group and begins with a fresh one.
  have hbefore : (runtime.states.get? command.group).getD
      (.create (engine.groupPosition m command env).2.state.command) = m := by
    rw [hcommand]
    unfold KafkaAdapterRuntime.member at hmember
    change (match runtime.states.get? command.group with
      | some m => .ok m
      | none => match join with
        | some raised => .error raised
        | none => .ok (.create command.poll)) = Except.ok m at hmember
    cases before : runtime.states.get? command.group with
    | some m' =>
      rw [before] at hmember
      exact Except.ok.inj hmember
    | none =>
      rw [before] at hmember
      cases join with
      | some raised => simp at hmember
      | none =>
        obtain rfl := Except.ok.inj hmember
        rfl
  have hpositions : KafkaAdapterRuntime.positionsAfter
        { states := runtime.states.set command.group (engine.groupPosition m command env).2
          transactionBridge := runtime.transactionBridge }
        runtime command.group command.stream.topic positions =
      positions.apply m.state.command.consumerGroup.groupId command.stream.topic
        (((engine.groupPositionCommits command env).map Dict.entries).getD []) := by
    rw [positionsAfter_set _ _ _ _ hbefore, commitsSince_groupPosition, hcommand]
  cases hcommits : engine.groupPositionCommits command env with
  | none =>
    rw [hcommits] at hpositions
    exact ⟨hpositions.trans GroupPositions.apply_nil, rfl⟩
  | some target =>
    rw [hcommits] at hpositions
    exact ⟨hpositions, rfl, (map_raises_iff _).trans (groupPosition_raises_iff_of_commits hcommits)⟩

theorem dispatch_transactionalConsumePublish (begun : session.ensureBegun = none)
    (command : TransactionalConsumePublishCommand Token) (env : ConsumePublishEnv) :
    Fulfils (session.dispatch runtime engine positions (.transactionalConsumePublish command env))
      positions (session.committing runtime engine (.transactionalConsumePublish command env)) := by
  unfold dispatch committing
  cases active : session.active with
  | true => exact ⟨rfl, executeTransactional_transaction_of_active active⟩
  | false =>
  dsimp only
  rw [if_neg Bool.false_ne_true]
  obtain ⟨htransaction, hraises⟩ :=
    executeTransactional_own runtime engine command env begun active
  cases hown : ownTransaction runtime engine command env with
  | none => exact ⟨rfl, htransaction.trans hown⟩
  | some transaction =>
    exact ⟨rfl, htransaction.trans hown, (map_raises_iff _).trans (hraises (by rw [hown]; rfl))⟩

variable (runtime engine positions) in
/-- **The dispatch commits what the request comes to**, and raises afterwards exactly when
a call after the commit does. -/
theorem dispatch_fulfils (begun : session.ensureBegun = none) (request : SessionRequest Token) :
    Fulfils (session.dispatch runtime engine positions request) positions
      (session.committing runtime engine request) := by
  cases request with
  | acknowledge command env => exact dispatch_acknowledge begun command env
  | negativeAcknowledge command env => exact dispatch_negativeAcknowledge command env
  | groupPosition command join env => exact dispatch_groupPosition command join env
  | transactionalConsumePublish command env =>
    exact dispatch_transactionalConsumePublish begun command env

variable (runtime engine positions) in
/-- What follows the dispatch leaves the brokers, and decides the answer with it. -/
theorem execute_of_dispatched {request : SessionRequest Token} {env : ExecuteEnv}
    (h : session.beforeDispatch request env = none) :
    let dispatched := session.dispatch runtime engine positions request
    let executed := session.execute runtime engine positions request env
    executed.positions = dispatched.positions ∧ executed.transaction = dispatched.transaction ∧
      ((∃ raised, executed.answer = .error raised) ↔
        (∃ raised, dispatched.answer = .error raised) ∨ afterDispatch engine.settings env ≠ none) := by
  dsimp only
  unfold execute
  rw [h]
  dsimp only
  cases hanswer : (session.dispatch runtime engine positions request).answer with
  | error raised => exact ⟨rfl, rfl, iff_of_true ⟨_, rfl⟩ (Or.inl ⟨raised, rfl⟩)⟩
  | ok data =>
    -- what comes after the dispatch raises or leaves the answer
    cases afterDispatch engine.settings env with
    | some raised => exact ⟨rfl, rfl, iff_of_true ⟨raised, rfl⟩ (Or.inr (Option.some_ne_none _))⟩
    | none =>
      refine ⟨rfl, rfl, ?_⟩
      dsimp only
      rw [hanswer]
      exact (or_iff_left fun hne => hne rfl).symm

/-- **A request that raises has had no effect** exactly when, once it is dispatched, every
call after a commit that moves something returns: the rest of the dispatch, the report,
the probe and the serialization. -/
theorem execute_harmless_iff (session : KafkaAdapterSession) (runtime : KafkaAdapterRuntime)
    (engine : KafkaConsumerEngine Token) (positions : GroupPositions)
    (request : SessionRequest Token) (env : ExecuteEnv) :
    (session.execute runtime engine positions request env).Harmless positions ↔
      (session.beforeDispatch request env = none →
        ∀ c ∈ session.committing runtime engine request, c.effect.Moves positions →
          c.later = none ∧ afterDispatch engine.settings env = none) := by
  cases hbefore : session.beforeDispatch request env with
  | some raised =>
    have hfails : session.execute runtime engine positions request env =
        session.fail runtime positions raised := by
      unfold execute
      rw [hbefore]
    rw [hfails]
    exact iff_of_true (fun _ => ⟨rfl, rfl⟩) fun h => absurd h (Option.some_ne_none _)
  | none =>
  rw [imp_iff_right rfl]
  have begun : session.ensureBegun = none := by
    unfold beforeDispatch at hbefore
    simp only [Option.or_eq_none_iff] at hbefore
    exact hbefore.2.2.1
  -- What is dispatched fulfils what the session commits to, and only what comes later can spoil it.
  have hfulfils := dispatch_fulfils runtime engine positions begun request
  obtain ⟨hpositions, htransaction, hraises⟩ :=
    execute_of_dispatched runtime engine positions hbefore
  unfold ExecuteOutcome.Harmless
  rw [hpositions, htransaction, hraises]
  cases hcommitting : session.committing runtime engine request with
  | none =>
    rw [hcommitting] at hfulfils
    exact iff_of_true (fun _ => hfulfils) fun c hc => absurd hc (Option.not_mem_none c)
  | some c =>
    rw [hcommitting] at hfulfils
    obtain ⟨hpositions, htransaction, hlater⟩ := hfulfils
    rw [hpositions, htransaction, hlater, ← c.effect.not_moves_iff]
    simp only [Option.mem_some_iff, forall_eq']
    constructor
    · intro h hmoves
      by_contra hnot
      exact h (by rwa [← not_and_or]) hmoves
    · rintro h hraises hmoves
      exact hraises.elim (fun hne => hne (h hmoves).1) fun hne => hne (h hmoves).2

end KafkaAdapterSession

namespace Sample

/-- The runtime after the records 0 and 1 have been delivered. -/
def deliveredRuntime : KafkaAdapterRuntime :=
  ((engine.sharing fun _ => log [0, 1] []).play sessions delivered).runtime

/-- Record 0 is acknowledged, and the brokers cannot be reached afterwards. -/
def unreachable : ExecuteEnv where
  tenant := some "tenant"
  probe :=
    { listTopics := .error (.kafka { code := .transport })
      apiVersions := fun _ _ => .error .other }

end Sample

namespace KafkaAdapterSession

/-- **A reported failure whose commit stands.** The commit of the acknowledgement returns,
and the probe at the end of the call fails. -/
theorem reported_failure_commits :
    ¬(execute { transactional := false } Sample.deliveredRuntime Sample.engine
      (fun _ _ _ => none) (.acknowledge (Sample.acknowledgeCommand 0 1 1) { nowMs := 1 })
      Sample.unreachable).Harmless fun _ _ _ => none := by
  intro h
  obtain ⟨hpositions, -⟩ := h ⟨.failure (normalizeKafkaError (.kafka { code := .transport })
    "meridian.kafka.probe"), by decide +kernel⟩
  have hmoved := congrFun (congrFun (congrFun hpositions "billing-workers") "orders.v1") 0
  revert hmoved
  decide +kernel

end KafkaAdapterSession

end MeridianKafka
