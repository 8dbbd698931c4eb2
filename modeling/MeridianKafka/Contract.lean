import MeridianKafka.Canonical

/-!
# Resources, events and commands

The data that the engines exchange: the logical references and the Event
envelope of the streaming contract, the physical mappings of a Binding with their
lookups, and the commands that the compiler hands to the engines.

An opaque delivery, cursor or position is a value of a type parameter `Token`: the engines
pass it to the cursor codec and never look inside. What the compiler puts there is a
`TokenValue`.
-/

namespace MeridianKafka

open Framework

/-! ### References and events -/

/-- A logical reference, `catalog:namespace/name`. -/
structure ResourceRef where
  catalog : String
  namespaceName : String
  name : String
  deriving DecidableEq, Repr

/-- The reference as a text. -/
def ResourceRef.str (ref : ResourceRef) : String :=
  ref.catalog ++ ":" ++ ref.namespaceName ++ "/" ++ ref.name

/-- The reference as a JSON object. -/
def ResourceRef.toDict (ref : ResourceRef) : Json :=
  .obj [("catalog", .str ref.catalog), ("namespace", .str ref.namespaceName),
    ("name", .str ref.name)]

structure SchemaRef where
  catalog : String
  namespaceName : String
  name : String
  version : String
  deriving DecidableEq, Repr

def SchemaRef.toDict (ref : SchemaRef) : Json :=
  .obj [("catalog", .str ref.catalog), ("namespace", .str ref.namespaceName),
    ("name", .str ref.name), ("version", .str ref.version)]

/-- The Event envelope. -/
structure Event where
  formatVersion : String
  eventId : String
  stream : ResourceRef
  schema : SchemaRef
  data : Json
  occurredAt : String
  producedAt : String
  logicalPartitionKey : Option String
  headers : List (String × Json)
  traceContext : List (String × Json)
  extensions : List (String × Json)

/-- The envelope as a JSON object. -/
def Event.toDict (event : Event) : Json :=
  .obj [("formatVersion", .str event.formatVersion),
    ("eventId", .str event.eventId),
    ("stream", event.stream.toDict),
    ("schema", event.schema.toDict),
    ("data", event.data),
    ("occurredAt", .str event.occurredAt),
    ("producedAt", .str event.producedAt),
    ("logicalPartitionKey", event.logicalPartitionKey.elim .null .str),
    ("headers", .obj event.headers),
    ("traceContext", .obj event.traceContext),
    ("extensions", .obj event.extensions)]

/-! ### Physical mappings -/

structure PhysicalStream where
  ref : ResourceRef
  topic : String
  schemaRef : SchemaRef
  schemaFingerprint : String
  compatibleSchemaFingerprints : List String
  resourceFingerprint : String
  logicalPartitions : ℕ
  retentionMs : ℕ
  compacted : Bool
  deriving DecidableEq, Repr

structure PhysicalSubscription where
  ref : ResourceRef
  stream : ResourceRef
  resourceFingerprint : String
  acknowledgementTimeoutMs : ℕ
  maxDeliveryAttempts : ℕ
  deadLetterStream : Option ResourceRef
  filter : List (String × Value)

structure PhysicalConsumerGroup where
  ref : ResourceRef
  subscription : ResourceRef
  groupId : String
  resourceFingerprint : String
  deriving DecidableEq, Repr

inductive PhysicalResourceConfig
  | stream (stream : PhysicalStream)
  | subscription (subscription : PhysicalSubscription)
  | consumerGroup (group : PhysicalConsumerGroup)

/-- The part of the Binding settings that the engines look resources up in. -/
structure KafkaBindingSettings where
  resources : Dict ResourceRef PhysicalResourceConfig
  operationTimeoutMs : ℕ := 30000
  transactionalId : Option String := none
  readCommitted : Bool := true

namespace KafkaBindingSettings

def transactionEnabled (settings : KafkaBindingSettings) : Bool :=
  settings.transactionalId.isSome && settings.readCommitted

def resource (settings : KafkaBindingSettings) (ref : ResourceRef) :
    Except Failure PhysicalResourceConfig :=
  match settings.resources.get? ref with
  | some selected => .ok selected
  | none =>
    .error
      { kind := .kafkaConfigurationError
        message := "Resource " ++ ref.str ++ " has no Kafka Binding mapping" }

def stream (settings : KafkaBindingSettings) (ref : ResourceRef) : Except Failure PhysicalStream :=
  match settings.resource ref with
  | .ok (.stream selected) => .ok selected
  | .ok _ =>
    .error
      { kind := .kafkaConfigurationError
        message := "Resource " ++ ref.str ++ " is not a Stream mapping" }
  | .error failure => .error failure

def subscription (settings : KafkaBindingSettings) (ref : ResourceRef) :
    Except Failure PhysicalSubscription :=
  match settings.resource ref with
  | .ok (.subscription selected) => .ok selected
  | .ok _ =>
    .error
      { kind := .kafkaConfigurationError
        message := "Resource " ++ ref.str ++ " is not a Subscription mapping" }
  | .error failure => .error failure

def consumerGroup (settings : KafkaBindingSettings) (ref : ResourceRef) :
    Except Failure PhysicalConsumerGroup :=
  match settings.resource ref with
  | .ok (.consumerGroup selected) => .ok selected
  | .ok _ =>
    .error
      { kind := .kafkaConfigurationError
        message := "Resource " ++ ref.str ++ " is not a ConsumerGroup mapping" }
  | .error failure => .error failure

/-- A group with its Subscription, which it has to belong to, and the Stream of that. -/
def groupStream (settings : KafkaBindingSettings) (subscriptionRef groupRef : ResourceRef) :
    Except Failure (PhysicalSubscription × PhysicalConsumerGroup × PhysicalStream) := do
  let subscription ← settings.subscription subscriptionRef
  let group ← settings.consumerGroup groupRef
  if group.subscription ≠ subscription.ref then
    throw
      { kind := .kafkaConfigurationError
        message := "ConsumerGroup mapping belongs to another Subscription Resource" }
  return (subscription, group, ← settings.stream subscription.stream)

variable {settings : KafkaBindingSettings} {ref : ResourceRef}

theorem resource_eq_ok_iff {resource : PhysicalResourceConfig} :
    settings.resource ref = .ok resource ↔ settings.resources.get? ref = some resource := by
  unfold KafkaBindingSettings.resource
  cases settings.resources.get? ref <;> simp

theorem stream_eq_ok_iff {s : PhysicalStream} :
    settings.stream ref = .ok s ↔ settings.resources.get? ref = some (.stream s) := by
  rw [← resource_eq_ok_iff]
  unfold KafkaBindingSettings.stream
  generalize settings.resource ref = found
  obtain failure | (s' | subscription | group) := found <;> simp

theorem subscription_eq_ok_iff {s : PhysicalSubscription} :
    settings.subscription ref = .ok s ↔ settings.resources.get? ref = some (.subscription s) := by
  rw [← resource_eq_ok_iff]
  unfold KafkaBindingSettings.subscription
  generalize settings.resource ref = found
  obtain failure | (s' | subscription | group) := found <;> simp

theorem consumerGroup_eq_ok_iff {g : PhysicalConsumerGroup} :
    settings.consumerGroup ref = .ok g ↔ settings.resources.get? ref = some (.consumerGroup g) := by
  rw [← resource_eq_ok_iff]
  unfold KafkaBindingSettings.consumerGroup
  generalize settings.resource ref = found
  obtain failure | (s' | subscription | group) := found <;> simp

theorem groupStream_eq_ok_iff {subscriptionRef groupRef : ResourceRef}
    {subscription : PhysicalSubscription} {group : PhysicalConsumerGroup} {s : PhysicalStream} :
    settings.groupStream subscriptionRef groupRef = .ok (subscription, group, s) ↔
      settings.resources.get? subscriptionRef = some (.subscription subscription) ∧
        settings.resources.get? groupRef = some (.consumerGroup group) ∧
          group.subscription = subscription.ref ∧
            settings.resources.get? subscription.stream = some (.stream s) := by
  rw [← subscription_eq_ok_iff, ← consumerGroup_eq_ok_iff, ← stream_eq_ok_iff]
  unfold groupStream
  constructor
  · intro h
    obtain ⟨sub, hsub, hrest⟩ := exists_of_bind_eq_ok h
    obtain ⟨g, hg, hlast⟩ := exists_of_bind_eq_ok hrest
    split at hlast
    · exact nomatch hlast
    · next hbelongs =>
      obtain ⟨s', hs', hmapped⟩ := exists_of_bind_eq_ok hlast
      obtain ⟨rfl, rfl, rfl⟩ := Except.ok.inj hmapped
      exact ⟨hsub, hg, not_not.mp hbelongs, hs'⟩
  · rintro ⟨hsub, hg, hbelongs, hs⟩
    rw [hsub, hg]
    change (if group.subscription ≠ subscription.ref then _ else _) = _
    rw [if_neg (not_not.mpr hbelongs), hs]
    rfl

end KafkaBindingSettings

/-! ### Commands -/

structure PublishCommand where
  stream : PhysicalStream
  events : List Event
  idempotencyKey : Option String
  batch : Bool

structure PollCommand where
  subscription : PhysicalSubscription
  consumerGroup : PhysicalConsumerGroup
  stream : PhysicalStream
  limit : ℕ
  waitTimeoutMs : ℕ

structure AcknowledgeCommand (Token : Type) where
  subscription : PhysicalSubscription
  consumerGroup : PhysicalConsumerGroup
  stream : PhysicalStream
  delivery : Token

structure NegativeAcknowledgeCommand (Token : Type) extends AcknowledgeCommand Token where
  retryAfterMs : ℕ
  classification : Option String

structure ReadRangeCommand (Token : Type) where
  stream : PhysicalStream
  start : Option Token
  stop : Option Token
  cursor : Option Token
  limit : ℕ
  replay : Bool := false

structure GroupPositionCommand (Token : Type) where
  subscription : PhysicalSubscription
  consumerGroup : PhysicalConsumerGroup
  stream : PhysicalStream
  position : Token
  expectedFingerprint : String

structure TransactionalConsumePublishCommand (Token : Type) where
  poll : PollCommand
  delivery : Token
  outputs : List PublishCommand

/-! ### Tokens -/

/-- A token that comes in: a text or a mapping. -/
inductive TokenValue
  | text (text : String)
  | mapping (fields : List (Option String × Value))

/-- The coordinates that a delivery token seals. -/
structure DeliveryCoordinates where
  subscription : ResourceRef
  consumerGroup : ResourceRef
  partition : ℕ
  offset : ℕ
  assignmentEpoch : ℕ
  attempt : ℕ
  expiresAtMs : ℕ
  deriving DecidableEq, Repr

/-- What tells the deliveries of a member apart: the record, the assignment and the
attempt. -/
structure DeliveryKey where
  partition : ℕ
  offset : ℕ
  assignmentEpoch : ℕ
  attempt : ℕ
  deriving DecidableEq, Repr

def DeliveryCoordinates.key (c : DeliveryCoordinates) : DeliveryKey where
  partition := c.partition
  offset := c.offset
  assignmentEpoch := c.assignmentEpoch
  attempt := c.attempt

/-- The cursor codec as the engines use it. `nowMs` is the wall clock that the
codec reads during the call. -/
structure KafkaCursorCodec (Token : Type) where
  encodeDelivery (nowMs : ℕ) (topic : String) (coordinates : DeliveryCoordinates) : Token
  decodeDelivery (nowMs : ℕ) (value : Token) (subscription consumerGroup : ResourceRef)
    (topic : String) : Except Failure DeliveryCoordinates
  encodeCursor (nowMs : ℕ) (resource : ResourceRef) (topic : String) (positions : Dict ℕ ℕ) :
    Except Raised Token
  decodeCursor (nowMs : ℕ) (value : Token) (resource : ResourceRef) (topic : String) :
    Except Failure (Dict ℕ ℕ)
  decodePosition (nowMs : ℕ) (value : Token) (resource : ResourceRef) (topic : String) :
    Except Failure (ℕ × ℕ)
  groupPositionFingerprint (topic : String) (positions : Dict ℕ ℕ) : Except Raised String

/-- The position that a call reports: the coordinates that its token seals. -/
structure Position where
  resource : ResourceRef
  topic : String
  partition : ℕ
  offset : ℕ
  logicalPartition : Option String := none
  deriving DecidableEq, Repr

end MeridianKafka
