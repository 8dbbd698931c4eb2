import MeridianKafka.Config.Settings

/-!
# The operation compiler

`KafkaOperationCompiler`: an Operation of the streaming catalog becomes a command of the
adapter. There is one method for each contract; each closes the input, looks its references
up in the settings, and checks what else it takes.

A method ends with a command, a failure, or a bare exception of one of the shared helpers.
What belongs to Meridian Core and to the streaming contract is a parameter.
-/

namespace MeridianKafka

open Framework

/-! ### Operations and commands -/

/-- An Operation, as far as the compiler reads it. -/
structure Operation where
  catalog : String
  operationContract : String
  operationVersion : String
  input : Value

structure SubscribeCommand where
  stream : PhysicalStream
  subscription : PhysicalSubscription

structure ValidateSchemaCommand where
  namespaceName : String
  name : String
  version : String
  expectedRegistryRevision : Option ℕ
  allowBreaking : Bool

structure ValidateResourceCommand where
  resource : PhysicalResourceConfig
  resourceType : String

inductive CompiledCommand
  | publish (command : PublishCommand)
  | subscribe (command : SubscribeCommand)
  | poll (command : PollCommand)
  | acknowledge (command : AcknowledgeCommand TokenValue)
  | negativeAcknowledge (command : NegativeAcknowledgeCommand TokenValue)
  | readRange (command : ReadRangeCommand TokenValue)
  | groupPosition (command : GroupPositionCommand TokenValue)
  | validateSchema (command : ValidateSchemaCommand)
  | validateResource (command : ValidateResourceCommand)
  | transactionalConsumePublish (command : TransactionalConsumePublishCommand TokenValue)

structure CompilerLibraries where
  core : CoreLibraries
  /-- `Event.from_mapping`; an `InvalidEvent` is let through as it is. -/
  eventFromMapping : List (Option String × Value) → Checked Event
  maxBatchSize : ℕ
  maxPollSize : ℕ
  maxRangeSize : ℕ
  maxWaitTimeoutMs : ℕ
  /-- `repr` of a text. -/
  reprText : String → String

def transactionOperationContract : String := "meridian.streaming.transactional-consume-publish"

def transactionOperationVersion : String := "1.0.0"

namespace KafkaOperationCompiler

def maxRetryAfterMs : ℕ := 86400000

/-- An `InvalidStreamingDefinition` with this text. -/
def definition (message : String) : Failure := { kind := .invalidStreamingDefinition, message }

/-! ### Fields -/

/-- `_closed`. -/
def closed (value : Value) (operationName : String) (required : List String)
    (optional : List String := []) : Checked (List (String × Value)) :=
  Checked.answering
    { kind := .invalidStreamingDefinition
      message := operationName ++ " Operation input contains unknown or missing fields"
      requirement := "operation.input" }
    (value.closedObject required optional)

/-- `_opaque`. -/
def tokenValue (value : Value) (fieldName : String) : Checked TokenValue :=
  match value with
  | .str _ => .text <$> value.boundedString 4096
  | .mapping fields => .ok (.mapping fields)
  | _ => Checked.fail (definition (fieldName ++ " must be opaque string or mapping Data"))

/-- `_optional_opaque`. -/
def optionalTokenValue (value : Value) (fieldName : String) : Checked (Option TokenValue) :=
  match value with
  | .null => .ok none
  | value => some <$> tokenValue value fieldName

/-- `_integer`. -/
def integer (value : Value) (fieldName : String) (minimum : ℕ) (maximum : Option ℕ) :
    Checked ℕ :=
  match value.integer minimum maximum with
  | some n => .ok n
  | none =>
    Checked.fail (definition
      (fieldName ++ " must be an integer no smaller than " ++ toString minimum ++
        maximum.elim "" fun m => " and no larger than " ++ toString m))

/-- `_boolean`. -/
def boolean (value : Value) (fieldName : String) : Checked Bool :=
  match value with
  | .bool b => .ok b
  | _ => Checked.fail (definition (fieldName ++ " must be boolean"))

/-- `_fingerprint`. -/
def fingerprint (value : Value) (fieldName : String) : Checked String := do
  let selected ← value.boundedString 71
  Checked.require (isFingerprint selected = true)
    (definition (fieldName ++ " must be a SHA-256 fingerprint"))
  return selected

/-- The items of an array, or else the failure. -/
def array (value : Value) (message : String) : Checked (List Value) :=
  match value with
  | .seq items => .ok items
  | _ => Checked.fail (definition message)

variable (lib : CompilerLibraries) (settings : KafkaBindingSettings)

/-- `_ref`, of a field. -/
def ref (input : List (String × Value)) (fieldName : String) : Checked ResourceRef := do
  lib.core.streamingRef (definition (fieldName ++ " is not a streaming Resource"))
    (← Value.field input fieldName)

/-- The Stream under a reference of the input. -/
def stream (input : List (String × Value)) (fieldName : String) : Checked PhysicalStream := do
  Checked.ofExcept (settings.stream (← ref lib input fieldName))

/-- The group, the Subscription and the Stream that an input is about. -/
def groupStream (input : List (String × Value)) :
    Checked (PhysicalSubscription × PhysicalConsumerGroup × PhysicalStream) := do
  let subscription ← ref lib input "subscription"
  let group ← ref lib input "consumerGroup"
  Checked.ofExcept (settings.groupStream subscription group)

/-! ### Publications -/

/-- `_event`. -/
def event (value : Value) (stream : PhysicalStream) : Checked Event :=
  match value with
  | .mapping fields => do
    let event ← Checked.answering
      { kind := .invalidEvent, message := "Event Data does not satisfy the released envelope" }
      (lib.eventFromMapping fields)
    Checked.require (event.stream = stream.ref)
      { kind := .invalidEvent
        message := "Event targets another Stream Resource"
        requirement := "event.stream"
        logicalReferences := [stream.ref.str] }
    Checked.require (event.schema = stream.schemaRef)
      { kind := .invalidEvent
        message := "Event does not use the active Schema reference"
        requirement := "event.schema"
        logicalReferences := [stream.ref.str] }
    return event
  | _ => Checked.fail { kind := .invalidEvent, message := "Event Data must be an object" }

/-- The events of a publication: those of an array, or one. -/
def events (data : Value) (batch : Bool) (stream : PhysicalStream) : Checked (List Event) :=
  if batch then do
    let rawEvents ← array data "publish-batch Data must be an array"
    Checked.require (1 ≤ rawEvents.length ∧ rawEvents.length ≤ lib.maxBatchSize)
      (definition
        ("publish-batch requires between 1 and " ++ toString lib.maxBatchSize ++ " Events"))
    rawEvents.mapM fun item => event lib item stream
  else do
    return [← event lib data stream]

/-- `_publish`. -/
def publish (value : Value) (batch : Bool) : Checked PublishCommand := do
  let value ← closed value (if batch then "publish-batch" else "publish") ["resource", "data"]
    ["idempotencyKey"]
  let stream ← stream lib settings value "resource"
  let events ← events lib (← Value.field value "data") batch stream
  let idempotencyKey ← ((value.lookup "idempotencyKey").getD .null).optionalString 512
  return { stream, events, idempotencyKey, batch }

/-! ### The other contracts -/

/-- `_subscribe`. -/
def subscribe (value : Value) : Checked SubscribeCommand := do
  let value ← closed value "subscribe" ["stream", "subscription", "options"]
  let stream ← stream lib settings value "stream"
  let subscription ← Checked.ofExcept (settings.subscription (← ref lib value "subscription"))
  Checked.require (subscription.stream = stream.ref)
    (definition "Subscription mapping belongs to another Stream")
  let options ← (← Value.field value "options").asObject
  Checked.require (options.isEmpty = true)
    { kind := .invalidStreamingDefinition
      message := "V1 Kafka subscribe options must be empty and provisioned by IaC"
      requirement := "subscription.lifecycle-authority" }
  return { stream, subscription }

/-- `_poll`. -/
def poll (value : Value) : Checked PollCommand := do
  let value ← closed value "poll" ["subscription", "consumerGroup", "limit", "waitTimeoutMs"]
  let (subscription, consumerGroup, stream) ← groupStream lib settings value
  return {
    subscription
    consumerGroup
    stream
    limit := ← integer (← Value.field value "limit") "limit" 1 lib.maxPollSize
    waitTimeoutMs := ← integer (← Value.field value "waitTimeoutMs") "waitTimeoutMs" 0
      lib.maxWaitTimeoutMs }

/-- `_acknowledge`. -/
def acknowledge (value : Value) : Checked (AcknowledgeCommand TokenValue) := do
  let value ← closed value "acknowledge" ["subscription", "consumerGroup", "delivery"]
  let (subscription, consumerGroup, stream) ← groupStream lib settings value
  return {
    subscription
    consumerGroup
    stream
    delivery := ← tokenValue (← Value.field value "delivery") "delivery" }

/-- `_negative_acknowledge`. -/
def negativeAcknowledge (value : Value) : Checked (NegativeAcknowledgeCommand TokenValue) := do
  let value ← closed value "negative-acknowledge" ["subscription", "consumerGroup", "delivery"]
    ["retryAfterMs", "classification"]
  let (subscription, consumerGroup, stream) ← groupStream lib settings value
  let classification ← ((value.lookup "classification").getD .null).optionalString 256
  return {
    subscription
    consumerGroup
    stream
    delivery := ← tokenValue (← Value.field value "delivery") "delivery"
    retryAfterMs := ← integer ((value.lookup "retryAfterMs").getD (.int 0)) "retryAfterMs" 0
      maxRetryAfterMs
    classification }

/-- `_read_range`. -/
def readRange (value : Value) : Checked (ReadRangeCommand TokenValue) := do
  let value ← closed value "read-range" ["resource", "start", "end", "cursor", "limit"]
  let stream ← stream lib settings value "resource"
  return {
    stream
    start := ← optionalTokenValue (← Value.field value "start") "start"
    stop := ← optionalTokenValue (← Value.field value "end") "end"
    cursor := ← optionalTokenValue (← Value.field value "cursor") "cursor"
    limit := ← integer (← Value.field value "limit") "limit" 1 lib.maxRangeSize }

/-- The value is `False`. -/
def isFalse : Value → Bool
  | .bool value => !value
  | _ => false

/-- `_replay`. -/
def replay (value : Value) : Checked (ReadRangeCommand TokenValue) := do
  let value ← closed value "replay"
    ["stream", "start", "end", "limit", "authorizationRef", "reason", "mutatesConsumerGroup"]
  Checked.require (isFalse (← Value.field value "mutatesConsumerGroup") = true)
    (definition "replay cannot mutate ConsumerGroup position")
  let stream ← stream lib settings value "stream"
  return {
    stream
    start := ← optionalTokenValue (← Value.field value "start") "start"
    stop := ← optionalTokenValue ((value.lookup "end").getD .null) "end"
    cursor := none
    limit := ← integer (← Value.field value "limit") "limit" 1 lib.maxRangeSize
    replay := true }

/-- `_group_position`. -/
def groupPosition (value : Value) : Checked (GroupPositionCommand TokenValue) := do
  let value ← closed value "group-position"
    ["subscription", "consumerGroup", "position", "expectedPositionFingerprint",
      "authorizationRef", "reason"]
  let (subscription, consumerGroup, stream) ← groupStream lib settings value
  return {
    subscription
    consumerGroup
    stream
    position := ← tokenValue (← Value.field value "position") "position"
    expectedFingerprint := ← fingerprint (← Value.field value "expectedPositionFingerprint")
      "expectedPositionFingerprint" }

/-- The revision of the registry that is expected, when one is given. -/
def expectedRevision : Value → Checked (Option ℕ)
  | .null => .ok none
  | value => some <$> integer value "expectedRegistryRevision" 0 none

/-- `_validate_schema`. -/
def validateSchema (value : Value) : Checked ValidateSchemaCommand := do
  let value ← closed value "publish-schema"
    ["namespace", "name", "version", "definition", "allowBreaking"] ["expectedRegistryRevision"]
  let _ ← (← Value.field value "definition").asObject
  return {
    namespaceName := ← (← Value.field value "namespace").boundedString 256
    name := ← (← Value.field value "name").boundedString 256
    version := ← (← Value.field value "version").boundedString 256
    expectedRegistryRevision := ← expectedRevision
      ((value.lookup "expectedRegistryRevision").getD .null)
    allowBreaking := ← boolean (← Value.field value "allowBreaking") "allowBreaking" }

/-- The type that goes with a mapping. -/
def resourceTypeOf : PhysicalResourceConfig → String
  | .stream _ => "stream"
  | .subscription _ => "subscription"
  | .consumerGroup _ => "consumer-group"

/-- `_validate_resource`. -/
def validateResource (value : Value) : Checked ValidateResourceCommand := do
  let value ← closed value "create-resource"
    ["namespace", "name", "resourceType", "schema", "options"]
  let _ ← (← Value.field value "options").asObject
  let namespaceName ← (← Value.field value "namespace").boundedString 256
  let name ← (← Value.field value "name").boundedString 256
  let ref ← lib.core.resourceRef "streaming" namespaceName name
  let resource ← Checked.ofExcept (settings.resource ref)
  let resourceType ← (← Value.field value "resourceType").boundedString 64
  Checked.require (resourceType = resourceTypeOf resource)
    (definition "Resource kind disagrees with the Binding mapping")
  return { resource, resourceType }

/-- `_transactional`. Its poll and its outputs are compiled as if they were Operations. -/
def transactional (value : Value) : Checked (TransactionalConsumePublishCommand TokenValue) := do
  Checked.require (settings.transactionEnabled = true)
    { kind := .streamingCapabilityMismatch
      message := "Binding does not enable transactional consume-publish"
      requirement := "transaction.binding" }
  let value ← closed value "transactional-consume-publish"
    ["subscription", "consumerGroup", "limit", "waitTimeoutMs", "delivery", "outputs"]
  let poll ← poll lib settings (.object
    [("subscription", ← Value.field value "subscription"),
      ("consumerGroup", ← Value.field value "consumerGroup"),
      ("limit", ← Value.field value "limit"),
      ("waitTimeoutMs", ← Value.field value "waitTimeoutMs")])
  let delivery ← tokenValue (← Value.field value "delivery") "delivery"
  let rawOutputs ← array (← Value.field value "outputs") "transaction outputs must be an array"
  Checked.require (1 ≤ rawOutputs.length ∧ rawOutputs.length ≤ lib.maxBatchSize)
    (definition
      ("transaction outputs requires between 1 and " ++ toString lib.maxBatchSize ++ " entries"))
  let outputs ← rawOutputs.mapM fun item => do
    publish lib settings (.object (← item.asObject)) false
  return { poll, delivery, outputs }

/-- The method of a contract. -/
def dispatch (operation : Operation) : Checked CompiledCommand :=
  let contract := operation.operationContract
  let value := operation.input
  if contract = "meridian.streaming.publish" then .publish <$> publish lib settings value false
  else if contract = "meridian.streaming.publish-batch" then
    .publish <$> publish lib settings value true
  else if contract = "meridian.streaming.subscribe" then
    .subscribe <$> subscribe lib settings value
  else if contract = "meridian.streaming.poll" then .poll <$> poll lib settings value
  else if contract = "meridian.streaming.acknowledge" then
    .acknowledge <$> acknowledge lib settings value
  else if contract = "meridian.streaming.negative-acknowledge" then
    .negativeAcknowledge <$> negativeAcknowledge lib settings value
  else if contract = "meridian.streaming.read-range" then
    .readRange <$> readRange lib settings value
  else if contract = "meridian.streaming.replay" then .readRange <$> replay lib settings value
  else if contract = "meridian.streaming.group-position" then
    .groupPosition <$> groupPosition lib settings value
  else if contract = "meridian.streaming.publish-schema" then
    .validateSchema <$> validateSchema value
  else if contract = "meridian.streaming.create-resource" then
    .validateResource <$> validateResource lib settings value
  else if contract = transactionOperationContract then do
    Checked.require (operation.operationVersion = transactionOperationVersion)
      { kind := .streamingCapabilityMismatch
        message := "transaction Operation version is unsupported" }
    .transactionalConsumePublish <$> transactional lib settings value
  else
    Checked.fail
      { kind := .streamingCapabilityMismatch
        message := "Kafka Adapter does not implement " ++ lib.reprText contract
        requirement := "operation.contract" }

/-- `compile`. -/
def compile (operation : Operation) : Checked CompiledCommand := do
  Checked.require (operation.catalog = "streaming")
    { kind := .streamingCapabilityMismatch
      message := "Kafka Adapter accepts only streaming Catalog Operations"
      requirement := "operation.catalog" }
  Checked.require (operation.operationVersion = "1.0.0")
    { kind := .streamingCapabilityMismatch
      message := "Kafka Adapter supports Streaming Operation version 1.0.0 only"
      requirement := "operation.version" }
  dispatch lib settings operation

end KafkaOperationCompiler

end MeridianKafka
