import MeridianKafka.Consumer.Records
import MeridianKafka.Consumer.State
import MeridianKafka.Transactions.Bridge

/-!
# The consumer engine

The operations of `KafkaConsumerEngine` on one group member, each a function from
the member and an environment to a result and the member after it. The
environment of a call holds what the call reads from outside: the clocks, and the
outcome of every client call it may make, `none` for a call that returned. An
exception ends the call where it is raised and keeps the changes made up to there.

`poll` is a loop of turns, and a turn is three operations in a row:
`expireInflight`, `resumeDue`, and the client poll with the handling of its
response, `receive`. The loop itself is in `Consumer/Group.lean`, together with
the machine whose labels are the operations.
-/

namespace MeridianKafka

open Framework

/-- The collaborators of the engine that its group operations use. -/
structure KafkaConsumerEngine (Token : Type) where
  settings : KafkaBindingSettings
  cursor : KafkaCursorCodec Token
  parseEvent : EventParser

/-- What `poll` hands out for one record. -/
structure Delivery (Token : Type) where
  event : Event
  token : Token
  position : Position
  attempt : ℕ
  redelivered : Bool
  deliveredAt : String
  expiresAtMs : ℕ

/-! ### Environments -/

structure ExpireEnv where
  nowMs : ℕ
  /-- The outcome of the seek of each partition. -/
  seek : ℕ → Option Raised := fun _ => none
  emit : Option Raised := none

structure ResumeEnv where
  monotonicNs : ℕ
  seek : ℕ → Option Raised := fun _ => none
  resume : ℕ → Option Raised := fun _ => none

structure DeliveryEnv where
  monotonicNs : ℕ
  nowMs : ℕ
  utcNow : String := ""
  seek : Option Raised := none

/-- What `consumer.poll` ends with. -/
inductive PollResponse
  | raised (raised : Raised)
  | none
  | error (error : KafkaError)
  | record (message : Message)

structure AcknowledgeEnv where
  nowMs : ℕ
  commit : Option Raised := none
  consumerGroupMetadata : Except Raised String := .ok ""
  emit : Option Raised := none

structure NegativeAcknowledgeEnv where
  nowMs : ℕ
  monotonicNs : ℕ
  utcNow : String := ""
  /-- `KafkaProducerEngine.publish`, by the event id of its first receipt. -/
  publish : PublishCommand → Except Raised String
  acknowledge : AcknowledgeEnv
  seek : Option Raised := none
  pause : Option Raised := none
  emit : Option Raised := none

structure GroupPositionEnv where
  nowMs : ℕ
  listTopics : Except Raised (List (String × TopicMetadata))
  committed : Except Raised (List (ℕ × ℤ))
  /-- The watermarks that `_committed_positions` reads, and those of `_validate_bounds`. -/
  committedWatermarks : ℕ → Except Raised (ℕ × ℕ)
  boundWatermarks : ℕ → Except Raised (ℕ × ℕ)
  commit : Option Raised := none
  emit : Option Raised := none

namespace KafkaConsumerEngine

/-! ### Expiry and resumption -/

/-- The keys in flight whose deadline has passed, in insertion order. -/
def expired (m : Member) (nowMs : ℕ) : List (ℕ × ℕ) :=
  (m.state.inflight.entries.filter fun e => e.2.expiresAtMs ≤ nowMs).map Prod.fst

/-- The loop of `_expire_inflight` over the partitions to rewind. -/
def rewindLoop (env : ExpireEnv) : List (ℕ × ℕ) → Member → Except Raised Unit × Member
  | [], m => (.ok (), m)
  | (partition, offset) :: rest, m =>
    match env.seek partition with
    | some raised => (.error raised, m)
    | none => rewindLoop env rest (m.rewind partition offset)

/-- `_expire_inflight`: every partition with an expired delivery goes back to the
first of them. -/
def expireInflight (m : Member) (env : ExpireEnv) : Except Raised Unit × Member :=
  let expired := expired m env.nowMs
  if expired.isEmpty then (.ok (), m)
  else
    match rewindLoop env (Dict.groupMin expired).entries m with
    | (.error raised, m) => (.error raised, m)
    | (.ok (), m) =>
      match env.emit with
      | some raised => (.error raised, m)
      | none => (.ok (), m)

/-- The loop of `_resume_due` over the paused partitions. -/
def resumeLoop (env : ResumeEnv) : List (ℕ × PausedDelivery) → Member → Except Raised Unit × Member
  | [], m => (.ok (), m)
  | (partition, paused) :: rest, m =>
    if paused.resumeAt > env.monotonicNs then resumeLoop env rest m
    else
      match env.seek partition with
      | some raised => (.error raised, m)
      | none =>
        let m := m.note partition (.seek paused.offset)
        match env.resume partition with
        | some raised => (.error raised, m)
        | none => resumeLoop env rest ((m.note partition .resume).deletePaused partition)

/-- `_resume_due`: the paused partitions whose time has come. -/
def resumeDue (m : Member) (env : ResumeEnv) : Except Raised Unit × Member :=
  resumeLoop env m.state.paused.entries m

/-! ### Delivery -/

variable {Token : Type} (engine : KafkaConsumerEngine Token)

/-- The second half of `_delivery`: decode the record and hand it out. -/
def issueDelivery (m : Member) (message : Message) (env : DeliveryEnv) :
    Except Raised (Option (Delivery Token)) × Member :=
  let stream := m.state.command.stream
  match decodeEvent engine.parseEvent message stream with
  | .error raised => (.error raised, m.note message.partition (.rejected message.offset))
  | .ok event =>
    let attempt := m.state.attempts.getD (message.partition, message.offset) 0 + 1
    let expiresAtMs := env.nowMs + m.state.command.subscription.acknowledgementTimeoutMs
    let token := engine.cursor.encodeDelivery env.nowMs stream.topic
      { subscription := m.state.command.subscription.ref
        consumerGroup := m.state.command.consumerGroup.ref
        partition := message.partition
        offset := message.offset
        assignmentEpoch := m.state.assignmentEpoch
        attempt
        expiresAtMs }
    let position :=
      { resource := stream.ref
        topic := stream.topic
        partition := message.partition
        offset := message.offset
        logicalPartition := event.logicalPartitionKey }
    (.ok (some
      { event, token, position, attempt
        redelivered := attempt > 1
        deliveredAt := env.utcNow
        expiresAtMs }),
      m.issue message.partition message.offset event expiresAtMs)

/-- `_delivery`. A record at the paused offset of its partition goes back when its
time has not come. -/
def delivery (m : Member) (message : Message) (env : DeliveryEnv) :
    Except Raised (Option (Delivery Token)) × Member :=
  if message.topic ≠ m.state.command.stream.topic then
    (.error (.failure
      { kind := .invalidEvent
        message := "Kafka returned an Event from another physical mapping" }), m)
  else
    match (m.state.paused.get? message.partition).filter (·.offset = message.offset) with
    | none => engine.issueDelivery m message env
    | some paused =>
      if paused.resumeAt > env.monotonicNs then
        match env.seek with
        | some raised => (.error raised, m)
        | none => (.ok none, m.note message.partition (.seek message.offset))
      else engine.issueDelivery (m.deletePaused message.partition) message env

/-- The client poll of one turn and the handling of its response. -/
def receive (m : Member) (response : PollResponse) (env : DeliveryEnv) :
    Except Raised (Option (Delivery Token)) × Member :=
  match response with
  | .raised raised => (.error (.failure (normalizeKafkaError raised "meridian.streaming.poll")), m)
  | .none => (.ok none, m)
  | .error error =>
    if error.code = .partitionEof then (.ok none, m)
    else (.error (.failure (normalizeKafkaError (.kafka error) "meridian.streaming.poll")), m)
  | .record message =>
    engine.delivery (m.note message.partition (.returned message.offset)) message env

/-! ### Acknowledgement -/

/-- What `acknowledge` returns. -/
structure Acknowledged where
  acknowledged : Bool := true
  committed : Bool
  safePosition : Position
  deriving DecidableEq, Repr

/-- The guards of `acknowledge` on the coordinates of a token. -/
def acknowledgeGuard (m : Member) (c : DeliveryCoordinates) : Option Failure :=
  if c.assignmentEpoch ≠ m.state.assignmentEpoch then
    some { kind := .rebalanceConflict
           message := "delivery belongs to a revoked Kafka assignment"
           requirement := "delivery.group-generation" }
  else if (m.state.inflight.get? (c.partition, c.offset)).any fun inflight =>
      inflight.assignmentEpoch = m.state.assignmentEpoch && inflight.attempt = c.attempt then
    none
  else
    some { kind := .deliveryRejected
           message := "delivery is unknown, revoked, or already acknowledged" }

/-- Moving the group: a commit, or staging in the transaction. The outcome, the
occurrence to note when it succeeds, and the transaction after it. -/
def moveGroup (command : AcknowledgeCommand Token) (partition safe : ℕ)
    (transaction : Option KafkaTransactionBridge) (env : AcknowledgeEnv) :
    Except Raised Occurrence × Option KafkaTransactionBridge :=
  match transaction with
  | none =>
    match env.commit with
    | some raised =>
      (.error (.failure (normalizeKafkaError raised "meridian.streaming.acknowledge")), none)
    | none => (.ok (.commit safe), none)
  | some bridge =>
    match bridge.stageOffset command.consumerGroup.ref.str env.consumerGroupMetadata
        command.stream.topic partition safe with
    | (.error raised, bridge) => (.error raised, some bridge)
    | (.ok (), bridge) => (.ok (.staged safe), some bridge)

/-- The end of `acknowledge`: the delivery leaves the books, and the call reports. -/
def completeAcknowledge (m : Member) (command : AcknowledgeCommand Token)
    (c : DeliveryCoordinates) (committed : Bool) (transaction : Option KafkaTransactionBridge)
    (env : AcknowledgeEnv) : Except Raised Acknowledged × Member × Option KafkaTransactionBridge :=
  let m := m.settle c.partition c.offset transaction.isSome
  match env.emit with
  | some raised => (.error raised, m, transaction)
  | none =>
    (.ok
      { committed
        safePosition :=
          { resource := command.stream.ref
            topic := command.stream.topic
            partition := c.partition
            offset := m.state.safeNext.getD c.partition 0 } }, m, transaction)

/-- `acknowledge`, once the token is decoded. -/
def acknowledgeDelivery (m : Member) (command : AcknowledgeCommand Token)
    (c : DeliveryCoordinates) (transaction : Option KafkaTransactionBridge)
    (env : AcknowledgeEnv) : Except Raised Acknowledged × Member × Option KafkaTransactionBridge :=
  match acknowledgeGuard m c with
  | some failure => (.error (.failure failure), m, transaction)
  | none =>
    let safe := (m.contiguous c.partition c.offset).1
    let collected := m.collect c.partition c.offset
    if safe > m.original c.partition c.offset then
      match moveGroup command c.partition safe transaction env with
      | (.error raised, transaction) => (.error raised, collected, transaction)
      | (.ok moved, transaction) =>
        completeAcknowledge ((collected.note c.partition moved).setSafe c.partition safe) command c
          true transaction env
    else completeAcknowledge collected command c false transaction env

/-- `acknowledge`. -/
def acknowledge (m : Member) (command : AcknowledgeCommand Token)
    (transaction : Option KafkaTransactionBridge) (env : AcknowledgeEnv) :
    Except Raised Acknowledged × Member × Option KafkaTransactionBridge :=
  match engine.cursor.decodeDelivery env.nowMs command.delivery command.subscription.ref
      command.consumerGroup.ref command.stream.topic with
  | .error failure => (.error (.failure failure), m, transaction)
  | .ok c => acknowledgeDelivery m command c transaction env

/-! ### Negative acknowledgement -/

/-- What `negative_acknowledge` returns. -/
inductive NegativeAcknowledged
  | redeliveryScheduled (nextAttempt retryAfterMs : ℕ)
  | deadLettered (targetEventId : String) (sourceCommitted : Bool)
  deriving DecidableEq, Repr

/-- `_dead_letter_event`. -/
def deadLetterEvent (command : NegativeAcknowledgeCommand Token) (original : Event)
    (target : PhysicalStream) (attempt : ℕ) (utcNow : String) : Event :=
  let classification :=
    match command.classification with
    | some "" => "negative-acknowledgement"
    | some classification => classification
    | none => "negative-acknowledgement"
  { formatVersion := original.formatVersion
    eventId := "dlq-" ++ original.eventId ++ "-" ++ toString attempt
    stream := target.ref
    schema := target.schemaRef
    data := .obj
      [("originalEvent", original.toDict),
        ("sourceStream", .str original.stream.str),
        ("deliveryAttempt", .int attempt),
        ("failureClassification", .str classification),
        ("failingConsumer", .str command.consumerGroup.ref.str)]
    occurredAt := original.occurredAt
    producedAt := utcNow
    logicalPartitionKey := original.logicalPartitionKey
    headers := []
    traceContext := original.traceContext
    extensions := [("deadLetter", .bool true)] }

/-- The guards of `negative_acknowledge`; they find the entry in flight. -/
def negativeAcknowledgeGuard (m : Member) (c : DeliveryCoordinates) : Except Failure Inflight :=
  if c.assignmentEpoch ≠ m.state.assignmentEpoch then
    .error { kind := .rebalanceConflict
             message := "delivery belongs to a revoked Kafka assignment" }
  else
    match (m.state.inflight.get? (c.partition, c.offset)).filter (·.attempt = c.attempt) with
    | some inflight => .ok inflight
    | none =>
      .error { kind := .deliveryRejected
               message := "delivery is unknown, revoked, or already resolved" }

/-- The Dead Letter Stream of a delivery that has no attempt left. -/
def deadLetterStream (command : NegativeAcknowledgeCommand Token) (c : DeliveryCoordinates) :
    Option ResourceRef :=
  if c.attempt ≥ command.subscription.maxDeliveryAttempts then
    command.subscription.deadLetterStream
  else none

/-- The dead-letter branch: publish, then acknowledge the source. -/
def deadLetter (m : Member) (command : NegativeAcknowledgeCommand Token)
    (c : DeliveryCoordinates) (inflight : Inflight) (ref : ResourceRef)
    (env : NegativeAcknowledgeEnv) : Except Raised NegativeAcknowledged × Member :=
  match engine.settings.stream ref with
  | .error failure => (.error (.failure failure), m)
  | .ok target =>
    match env.publish
        { stream := target
          events := [deadLetterEvent command inflight.event target c.attempt env.utcNow]
          idempotencyKey :=
            "dead-letter-" ++ inflight.event.eventId ++ "-" ++ toString c.attempt
          batch := false } with
    | .error raised => (.error raised, m)
    | .ok targetEventId =>
      match engine.acknowledge m command.toAcknowledgeCommand none env.acknowledge with
      | (.error raised, m, _) => (.error raised, m)
      | (.ok acknowledged, m, _) =>
        match env.emit with
        | some raised => (.error raised, m)
        | none => (.ok (.deadLettered targetEventId acknowledged.committed), m)

/-- The redelivery branch: the delivery leaves the books before the client is
asked to seek and, for a retry in the future, to pause. -/
def scheduleRedelivery (m : Member) (command : NegativeAcknowledgeCommand Token)
    (c : DeliveryCoordinates) (env : NegativeAcknowledgeEnv) :
    Except Raised NegativeAcknowledged × Member :=
  let contract := some "meridian.streaming.negative-acknowledge"
  let m := m.dropInflight c.partition c.offset
  match env.seek with
  | some raised => (.error (.failure (normalizeKafkaError raised contract)), m)
  | none =>
    let m := m.note c.partition (.seek c.offset)
    if command.retryAfterMs > 0 then
      match env.pause with
      | some raised => (.error (.failure (normalizeKafkaError raised contract)), m)
      | none =>
        let m := (m.note c.partition .pause).setPaused c.partition
          ⟨c.offset, env.monotonicNs + command.retryAfterMs * 1000000⟩
        match env.emit with
        | some raised => (.error raised, m)
        | none => (.ok (.redeliveryScheduled (c.attempt + 1) command.retryAfterMs), m)
    else
      match env.emit with
      | some raised => (.error raised, m)
      | none => (.ok (.redeliveryScheduled (c.attempt + 1) command.retryAfterMs), m)

/-- `negative_acknowledge`, once the token is decoded. -/
def negativeAcknowledgeDelivery (m : Member) (command : NegativeAcknowledgeCommand Token)
    (c : DeliveryCoordinates) (env : NegativeAcknowledgeEnv) :
    Except Raised NegativeAcknowledged × Member :=
  match negativeAcknowledgeGuard m c with
  | .error failure => (.error (.failure failure), m)
  | .ok inflight =>
    match deadLetterStream command c with
    | some ref => engine.deadLetter m command c inflight ref env
    | none => scheduleRedelivery m command c env

/-- `negative_acknowledge`. -/
def negativeAcknowledge (m : Member) (command : NegativeAcknowledgeCommand Token)
    (env : NegativeAcknowledgeEnv) : Except Raised NegativeAcknowledged × Member :=
  match engine.cursor.decodeDelivery env.nowMs command.delivery command.subscription.ref
      command.consumerGroup.ref command.stream.topic with
  | .error failure => (.error (.failure failure), m)
  | .ok c => engine.negativeAcknowledgeDelivery m command c env

/-! ### Group position -/

/-- `_committed_positions`: a partition without a committed offset counts from its
low watermark. -/
def committedPositions (env : GroupPositionEnv) : Except Raised (Dict ℕ ℕ) :=
  match env.committed with
  | .error raised =>
    .error (.failure (normalizeKafkaError raised "meridian.streaming.group-position"))
  | .ok committed =>
    committed.foldlM (fun result (partition, offset) =>
      if offset ≥ 0 then .ok (result.set partition offset.toNat)
      else (env.committedWatermarks partition).map fun (low, _) => result.set partition low) .empty

/-- `_validate_bounds`. -/
def validateBounds (env : GroupPositionEnv) (positions : Dict ℕ ℕ) : Except Raised Unit :=
  positions.entries.forM fun (partition, offset) => do
    let (low, high) ← env.boundWatermarks partition
    if offset < low then
      throw (.failure { kind := .cursorExpired, requirement := "cursor.retained-range" })
    if offset > high then
      throw (.failure
        { kind := .retentionBoundaryExceeded
          message := "group position is beyond the retained high watermark" })

/-- The checks of `group_position` before its commit: the fingerprint of the
committed positions and the target. -/
def groupPositionTarget (command : GroupPositionCommand Token) (env : GroupPositionEnv) :
    Except Raised (String × Dict ℕ ℕ) := do
  let partitions ← partitionIds (← env.listTopics) command.stream.topic
  let before ← engine.cursor.groupPositionFingerprint command.stream.topic
    (← committedPositions env)
  if before ≠ command.expectedFingerprint then
    throw (.failure
      { kind := .groupPositionConflict
        message := "ConsumerGroup position compare-and-set failed" })
  let target ←
    match decodePositions engine.cursor env.nowMs command.position command.stream with
    | .ok target => pure target
    | .error failure => throw (.failure failure)
  if target.keys.toFinset ≠ partitions.toFinset then
    throw (.failure
      { kind := .invalidCursor
        message := "group-position requires one coordinate for every partition" })
  validateBounds env target
  return (before, target)

/-- `group_position`: the compare-and-set of the whole group position. Its answer is
the previous and the new fingerprint. -/
def groupPosition (m : Member) (command : GroupPositionCommand Token) (env : GroupPositionEnv) :
    Except Raised (String × String) × Member :=
  match engine.groupPositionTarget command env with
  | .error raised => (.error raised, m)
  | .ok (before, target) =>
    match env.commit with
    | some raised =>
      (.error (.failure (normalizeKafkaError raised "meridian.streaming.group-position")), m)
    | none =>
      let m := m.reposition target
      match engine.cursor.groupPositionFingerprint command.stream.topic target with
      | .error raised => (.error raised, m)
      | .ok after =>
        match env.emit with
        | some raised => (.error raised, m)
        | none => (.ok (before, after), m)

end KafkaConsumerEngine

end MeridianKafka
