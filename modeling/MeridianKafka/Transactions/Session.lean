import MeridianKafka.Consumer.Group
import MeridianKafka.Producer.Engine

/-!
# Sessions

The sessions of a runtime share its consumer engine, which has one member for each
Subscription and ConsumerGroup, and its transaction bridge. A session with a Core
transaction passes the bridge to its acknowledgements; every other session
acknowledges without it.

Each call of a session is a function to a `SessionOutcome`: the answer, the session
and the runtime after the call, and the Kafka transaction that the call committed, if
it did. `recover` takes the member of a group out of the engine, so that the next
`poll` joins the group anew; a session does this to the groups it has touched when
its transaction did not commit.
-/

namespace MeridianKafka

open Framework

/-- A Subscription and a ConsumerGroup. -/
abbrev GroupRef := ResourceRef × ResourceRef

/-- What the sessions of a runtime share. -/
structure KafkaAdapterRuntime where
  /-- The group members of the consumer engine. -/
  states : Dict GroupRef Member := .empty
  transactionBridge : KafkaTransactionBridge := {}

structure KafkaAdapterSession where
  transactional : Bool
  active : Bool := false
  closed : Bool := false
  touchedGroups : List GroupRef := []

/-- A Kafka transaction that was committed: the group and the offsets it carries. -/
structure KafkaTransaction where
  group : Option String
  offsets : Dict (String × ℕ) ℕ
  deriving DecidableEq

/-- What a call of a session ends with. -/
structure SessionOutcome (α : Type) where
  answer : Except Raised α
  session : KafkaAdapterSession
  runtime : KafkaAdapterRuntime
  transaction : Option KafkaTransaction := none

/-- The Subscription and the ConsumerGroup of an acknowledgement. -/
def AcknowledgeCommand.group {Token : Type} (command : AcknowledgeCommand Token) : GroupRef :=
  (command.subscription.ref, command.consumerGroup.ref)

def PollCommand.group (command : PollCommand) : GroupRef :=
  (command.subscription.ref, command.consumerGroup.ref)

/-- The acknowledgement inside a transactional consume-publish. -/
def TransactionalConsumePublishCommand.ackCommand {Token : Type}
    (command : TransactionalConsumePublishCommand Token) : AcknowledgeCommand Token where
  subscription := command.poll.subscription
  consumerGroup := command.poll.consumerGroup
  stream := command.poll.stream
  delivery := command.delivery

/-! ### Environments -/

structure SessionBeginEnv where
  beginTransaction : Option Raised := none
  emit : Option Raised := none

/-- The outcomes of recovering a group: what closing its consumer, or reporting it,
raises. -/
abbrev RecoverEnv := GroupRef → Option Raised

structure SessionCommitEnv where
  commit : KafkaTransactionBridge.CommitEnv := {}
  recover : RecoverEnv := fun _ => none

structure SessionRollbackEnv where
  abortTransaction : Option Raised := none
  emit : Option Raised := none
  recover : RecoverEnv := fun _ => none

structure ConsumePublishEnv where
  begin : SessionBeginEnv := {}
  /-- `KafkaProducerEngine.publish` on the transactional producer, of the output at each
  place, by its receipts. -/
  publish : ℕ → PublishCommand → Except Raised (List String)
  /-- The records that the client takes for that output, also when the call raises. -/
  produced : ℕ → PublishCommand → List ProducerRecord := fun _ output =>
    output.events.map (KafkaProducerEngine.record output.stream)
  acknowledge : AcknowledgeEnv
  commit : KafkaTransactionBridge.CommitEnv := {}
  rollback : SessionRollbackEnv := {}

/-! ### The shared parts -/

namespace KafkaAdapterRuntime

variable {Token : Type} (runtime : KafkaAdapterRuntime)

/-- `recover` of the consumer engine. The member is gone whatever its consumer
raises when it is closed. -/
def recover (group : GroupRef) (raises : Option Raised) : Option Raised × KafkaAdapterRuntime :=
  match runtime.states.get? group with
  | none => (none, runtime)
  | some _ => (raises, { runtime with states := runtime.states.erase group })

/-- `_recover_touched_groups`. -/
def recoverTouchedGroups (env : RecoverEnv) :
    List GroupRef → KafkaAdapterRuntime → Option Raised × KafkaAdapterRuntime
  | [], runtime => (none, runtime)
  | group :: groups, runtime =>
    match runtime.recover group (env group) with
    | (some raised, runtime) => (some raised, runtime)
    | (none, runtime) => recoverTouchedGroups env groups runtime

/-- The engine's `acknowledge`, on the member of the command's group. -/
def acknowledge (engine : KafkaConsumerEngine Token) (command : AcknowledgeCommand Token)
    (transactional : Bool) (env : AcknowledgeEnv) :
    Except Raised KafkaConsumerEngine.Acknowledged × KafkaAdapterRuntime :=
  match runtime.states.get? command.group with
  | none =>
    (.error (.failure
      { kind := .deliveryRejected
        message := "delivery has no active ConsumerGroup session" }), runtime)
  | some m =>
    let transaction := if transactional then some runtime.transactionBridge else none
    match engine.acknowledge m command transaction env with
    | (answer, m, transaction) =>
      (answer,
        { states := runtime.states.set command.group m
          transactionBridge := transaction.getD runtime.transactionBridge })

/-- The outputs of a transactional consume-publish, published in order. -/
def publishOutputs (outputs : List PublishCommand) (env : ConsumePublishEnv) :
    Except Raised (List String) :=
  (outputs.zipIdx.mapM fun (output, place) =>
    if runtime.transactionBridge.active then env.publish place output
    else .error (.runtimeError "Kafka transaction is not active")).map List.flatten

/-- The body of a transactional consume-publish, within an open Kafka transaction:
publish the outputs, then acknowledge the source. -/
def consumePublish (engine : KafkaConsumerEngine Token)
    (command : TransactionalConsumePublishCommand Token) (env : ConsumePublishEnv) :
    Except Raised (List String × KafkaConsumerEngine.Acknowledged) × KafkaAdapterRuntime :=
  match runtime.publishOutputs command.outputs env with
  | .error raised => (.error raised, runtime)
  | .ok receipts =>
    match runtime.acknowledge engine command.ackCommand true env.acknowledge with
    | (.error raised, runtime) => (.error raised, runtime)
    | (.ok acknowledged, runtime) => (.ok (receipts, acknowledged), runtime)

end KafkaAdapterRuntime

/-! ### The calls of a session -/

namespace KafkaAdapterSession

variable {Token : Type} (session : KafkaAdapterSession) (runtime : KafkaAdapterRuntime)

/-- The call fails before it does anything. -/
def refuse {α : Type} (raised : Raised) : SessionOutcome α where
  answer := .error raised
  session
  runtime

def transactionFailure (message : String) : Raised :=
  .failure { kind := .kafkaTransactionAborted, message }

/-- What `execute` and the transaction calls check first. -/
def ensureOpen : Option Raised :=
  if session.closed then some (.runtimeError "Kafka Adapter session is closed") else none

/-- What `execute` checks before it dispatches. -/
def ensureBegun : Option Raised :=
  session.ensureOpen.or
    (if session.transactional && !session.active then
      some (transactionFailure "transactional session must begin before execution")
    else none)

/-- `begin`. -/
def begin (env : SessionBeginEnv) : SessionOutcome Unit :=
  match session.ensureOpen with
  | some raised => session.refuse runtime raised
  | none =>
    if !session.transactional then
      session.refuse runtime
        (transactionFailure "non-transactional session cannot begin a transaction")
    else if session.active then
      session.refuse runtime (transactionFailure "Kafka transaction is already active")
    else
      match runtime.transactionBridge.begin env.beginTransaction env.emit with
      | (.error raised, bridge) =>
        { answer := .error raised, session, runtime := { runtime with transactionBridge := bridge } }
      | (.ok (), bridge) =>
        { answer := .ok ()
          session := { session with active := true }
          runtime := { runtime with transactionBridge := bridge } }

/-- `commit`. A commit that raises recovers the touched groups. -/
def commit (env : SessionCommitEnv) : SessionOutcome Unit :=
  match session.ensureOpen with
  | some raised => session.refuse runtime raised
  | none =>
    if !session.active then
      session.refuse runtime (transactionFailure "Kafka transaction is not active")
    else
      let after := { session with active := false, touchedGroups := [] }
      match runtime.transactionBridge.commit env.commit with
      | (.ok (), bridge, applied) =>
        { answer := .ok ()
          session := after
          runtime := { runtime with transactionBridge := bridge }
          transaction := applied.map (⟨runtime.transactionBridge.groupKey, ·⟩) }
      | (.error raised, bridge, applied) =>
        match KafkaAdapterRuntime.recoverTouchedGroups env.recover session.touchedGroups
            { runtime with transactionBridge := bridge } with
        | (recovered, recoveredRuntime) =>
          { answer := .error (recovered.getD raised)
            session := after
            runtime := recoveredRuntime
            transaction := applied.map (⟨runtime.transactionBridge.groupKey, ·⟩) }

/-- `rollback`. The groups stay touched when their recovery raises. -/
def rollback (env : SessionRollbackEnv) : SessionOutcome Unit :=
  match session.ensureOpen with
  | some raised => session.refuse runtime raised
  | none =>
    if !session.active then { answer := .ok (), session, runtime }
    else
      match runtime.transactionBridge.abort env.abortTransaction env.emit with
      | (answer, bridge) =>
        match KafkaAdapterRuntime.recoverTouchedGroups env.recover session.touchedGroups
            { runtime with transactionBridge := bridge } with
        | (some raised, runtime) =>
          { answer := .error raised, session := { session with active := false }, runtime }
        | (none, runtime) =>
          { answer, session := { session with active := false, touchedGroups := [] }, runtime }

/-- `close`: an open transaction is rolled back first. A session whose rollback raises
stays open. -/
def close (env : SessionRollbackEnv) : SessionOutcome Unit :=
  if session.closed then { answer := .ok (), session, runtime }
  else if session.active then
    let outcome := session.rollback runtime env
    match outcome.answer with
    | .error _ => outcome
    | .ok () => { outcome with session := { outcome.session with closed := true } }
  else { answer := .ok (), session := { session with closed := true }, runtime }

/-- The acknowledgement of `execute`: within a Core transaction it takes the bridge
and touches its group. -/
def acknowledge (engine : KafkaConsumerEngine Token) (command : AcknowledgeCommand Token)
    (env : AcknowledgeEnv) : SessionOutcome KafkaConsumerEngine.Acknowledged :=
  match session.ensureBegun with
  | some raised => session.refuse runtime raised
  | none =>
    match runtime.acknowledge engine command session.active env with
    | (answer, runtime) =>
      { answer
        session :=
          if session.active then
            { session with touchedGroups := session.touchedGroups.insert command.group }
          else session
        runtime }

/-- The `except` branch of `_execute_transactional`: abort a transaction of its own,
then recover the touched groups. -/
def abandon {α : Type} (owns : Bool) (raised : Raised) (env : SessionRollbackEnv) :
    SessionOutcome α :=
  match
    if owns && runtime.transactionBridge.active then
      runtime.transactionBridge.abort env.abortTransaction env.emit
    else (.ok (), runtime.transactionBridge)
  with
  | (.error aborted, bridge) =>
    { answer := .error aborted, session, runtime := { runtime with transactionBridge := bridge } }
  | (.ok (), bridge) =>
    match KafkaAdapterRuntime.recoverTouchedGroups env.recover session.touchedGroups
        { runtime with transactionBridge := bridge } with
    | (some recovered, runtime) => { answer := .error recovered, session, runtime }
    | (none, runtime) =>
      { answer := .error raised, session := { session with touchedGroups := [] }, runtime }

/-- Giving up commits nothing. -/
theorem abandon_transaction {α : Type} (owns : Bool) (raised : Raised) (env : SessionRollbackEnv) :
    (session.abandon (α := α) runtime owns raised env).transaction = none := by
  unfold abandon
  split
  · rfl
  · split <;> rfl

/-- `_execute_transactional`, in a Core transaction or in a Kafka transaction of its
own. -/
def executeTransactional (engine : KafkaConsumerEngine Token)
    (command : TransactionalConsumePublishCommand Token) (env : ConsumePublishEnv) :
    SessionOutcome (List String × KafkaConsumerEngine.Acknowledged) :=
  match session.ensureBegun with
  | some raised => session.refuse runtime raised
  | none =>
    let owns := !session.active
    match
      if owns then runtime.transactionBridge.begin env.begin.beginTransaction env.begin.emit
      else (.ok (), runtime.transactionBridge)
    with
    | (.error raised, bridge) =>
      { answer := .error raised, session, runtime := { runtime with transactionBridge := bridge } }
    | (.ok (), bridge) =>
      let session :=
        { session with touchedGroups := session.touchedGroups.insert command.ackCommand.group }
      match KafkaAdapterRuntime.consumePublish { runtime with transactionBridge := bridge } engine
          command env with
      | (.error raised, runtime) => session.abandon runtime owns raised env.rollback
      | (.ok result, runtime) =>
        if owns then
          match runtime.transactionBridge.commit env.commit with
          | (.error raised, bridge, applied) =>
            { session.abandon { runtime with transactionBridge := bridge } owns raised env.rollback
              with transaction := applied.map (⟨runtime.transactionBridge.groupKey, ·⟩) }
          | (.ok (), bridge, applied) =>
            { answer := .ok result
              session := { session with touchedGroups := [] }
              runtime := { runtime with transactionBridge := bridge }
              transaction := applied.map (⟨runtime.transactionBridge.groupKey, ·⟩) }
        else { answer := .ok result, session, runtime }

end KafkaAdapterSession

end MeridianKafka
