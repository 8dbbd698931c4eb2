import MeridianKafka.Config.Integrity
import MeridianKafka.Probe.Engine
import MeridianKafka.Text

/-!
# The verification of the physical resources

`KafkaProbeEngine.verify_physical` compares the resources of a plan with the mappings of the
Binding, and the topics that these depend on with the metadata of the brokers. The topics
are collected from Streams, Subscriptions and ConsumerGroups into one map, so that each is
looked at once.

`Provisioned` says what is asked of one planned resource. The verification returns exactly
when it holds of all of them, and what it returns does not depend on their order
(`verifyPhysical_returns_iff`). Both need the integrity of the resource map: a topic is the
topic of one Stream, and what a resource depends on is there.
-/

namespace MeridianKafka

open Framework

/-! ### Configuration values

The values of a topic's configuration are texts. -/

/-- `"compact" in {item.strip() for item in cleanup.split(",")}`. -/
def compacts (cleanup : String) : Bool :=
  (cleanup.toList.splitOn ',').any fun item => stripBy isSpace item = "compact".toList

/-- A Resource as it is planned. -/
structure PhysicalResource where
  resourceRef : ResourceRef
  resourceFingerprint : String
  schemaFingerprint : Option String := none
  deriving DecidableEq, Repr

/-- What a verification returns. -/
structure PhysicalVerification where
  fingerprint : String
  mappings : Dict String String
  evidence : Dict String String

/-- What the metadata says of a topic. -/
structure ProbedTopic where
  error : Option Raised := none
  /-- How many partitions there are, when they are a mapping. -/
  partitions : Option ℕ

/-- An entry of a topic's configuration. Its value is a text, or reads as none. -/
structure ConfigEntry where
  value : Option String

/-- What the admin client and the telemetry answer to a verification. What is no mapping
reads as none. -/
structure PhysicalEnv where
  listTopics : String → Except Raised (Option (Dict String ProbedTopic))
  describeConfigs : String → Except Raised (Option (Dict String ConfigEntry))
  emit : Option Raised := none

/-- `json.dumps` and `hashlib.sha256`. -/
structure HashLibraries where
  json : JsonModule
  sha256 : Sha256

/-- `sha256_fingerprint`. -/
def HashLibraries.sha256Fingerprint (lib : HashLibraries) (value : Json) : Except Raised String :=
  lib.sha256.fingerprint <$> lib.json.canonicalJsonBytes value

/-- `sha256_bytes`, of the UTF-8 of a text. -/
def HashLibraries.textFingerprint (lib : HashLibraries) (text : String) : String :=
  lib.sha256.fingerprint (utf8 text)

def PhysicalResourceConfig.resourceFingerprint : PhysicalResourceConfig → String
  | .stream s => s.resourceFingerprint
  | .subscription s => s.resourceFingerprint
  | .consumerGroup g => g.resourceFingerprint

namespace KafkaProbeEngine

/-- A condition that has to hold, or else what is raised. -/
def demand (p : Prop) [Decidable p] (raised : Raised) : Except Raised Unit :=
  if p then .ok () else .error raised

/-- What is there, or else what is raised. -/
def orRaise {α : Type} (x : Option α) (raised : Raised) : Except Raised α :=
  match x with
  | some a => .ok a
  | none => .error raised

/-- A `MigrationRequired` about a resource. -/
def migrationRequired (message requirement : String) (ref : ResourceRef) : Raised :=
  .failure
    { kind := .migrationRequired, message, requirement, logicalReferences := [ref.str] }

/-! ### One topic -/

section Topic

variable (env : PhysicalEnv)

/-- `config.get(name)`, and the value of the entry. -/
def configValue (config : Dict String ConfigEntry) (name : String) : Option String :=
  (config.get? name).bind (·.value)

/-- The part of `_verify_topic` whose failures are normalized. -/
def inspectTopic (topic : String) (stream : PhysicalStream) : Except Raised Unit := do
  let metadata ← env.listTopics topic
  let selected ← orRaise (metadata.bind (·.get? topic))
    (migrationRequired "IaC-provisioned Kafka topic is absent" "resource.provisioning" stream.ref)
  -- The error of the topic is normalized at once.
  selected.error.forM fun error =>
    .error (.failure (normalizeKafkaError error (some "meridian.kafka.probe")))
  demand (selected.partitions = some stream.logicalPartitions)
    (migrationRequired "Kafka partition count differs from the Binding fingerprint"
      "resource.partition-migration" stream.ref)
  let config ← orRaise (← env.describeConfigs topic)
    (configurationError "Kafka topic configuration probe was invalid")
  let unavailable := configurationError "Kafka topic lifecycle configuration is unavailable"
  let cleanup ← orRaise (configValue config "cleanup.policy") unavailable
  let retention ← orRaise (configValue config "retention.ms") unavailable
  demand (compacts cleanup = stream.compacted)
    (migrationRequired "Kafka compaction policy differs from the Binding fingerprint"
      "resource.compaction-migration" stream.ref)
  let retentionMs ← orRaise (readInt retention) .other
  demand (retentionMs = stream.retentionMs)
    (migrationRequired "Kafka retention differs from the Binding fingerprint"
      "resource.retention-migration" stream.ref)

/-- `_verify_topic`. -/
def verifyTopic (topic : String) (stream : PhysicalStream) : Except Raised Unit :=
  (inspectTopic env topic stream).mapError fun raised => raised.meridian "meridian.kafka.probe"

end Topic

/-! ### The verification -/

section Verification

variable (lib : HashLibraries) (settings : Config.Settings) (env : PhysicalEnv)

/-- The Stream whose topic a planned resource depends on. Only a Stream has a schema. -/
def streamOf (planned : PhysicalResource) : PhysicalResourceConfig → Except Raised PhysicalStream
  | .stream stream => do
    demand (∀ fingerprint ∈ planned.schemaFingerprint, fingerprint = stream.schemaFingerprint)
      (migrationRequired "Schema fingerprint differs from the provisioned Kafka mapping"
        "schema.migration" planned.resourceRef)
    return stream
  | .subscription subscription => (settings.stream subscription.stream).mapError .failure
  | .consumerGroup group => do
    let subscription ← (settings.subscription group.subscription).mapError .failure
    (settings.stream subscription.stream).mapError .failure

/-- What the mapping of a resource is, without the names of topics and groups. -/
def physical (stream : PhysicalStream) : PhysicalResourceConfig → Except Raised Json
  | .stream configured =>
    return (.obj
      [("kind", .str "stream"),
        ("physicalFingerprint", .str (lib.textFingerprint configured.topic)),
        ("resourceFingerprint", .str configured.resourceFingerprint),
        ("schemaFingerprint", .str configured.schemaFingerprint)])
  | .subscription configured =>
    return (.obj
      [("kind", .str "subscription"),
        ("physicalFingerprint", .str (lib.textFingerprint stream.topic)),
        ("resourceFingerprint", .str configured.resourceFingerprint)])
  | .consumerGroup configured => do
    let fingerprint ← lib.sha256Fingerprint (.obj
      [("topic", .str (lib.textFingerprint stream.topic)),
        ("group", .str (lib.textFingerprint configured.groupId))])
    return (.obj
      [("kind", .str "consumer-group"),
        ("physicalFingerprint", .str fingerprint),
        ("resourceFingerprint", .str configured.resourceFingerprint)])

/-- The Stream that a planned resource depends on, and the fingerprint of its mapping. -/
def mapping (planned : PhysicalResource) : Except Raised (PhysicalStream × String) := do
  let configured ← (settings.resource planned.resourceRef).mapError .failure
  demand (planned.resourceFingerprint = configured.resourceFingerprint)
    (migrationRequired "Resource fingerprint differs from the provisioned Kafka mapping"
      "resource.migration" planned.resourceRef)
  let stream ← streamOf settings planned configured
  return (stream, ← lib.sha256Fingerprint (← physical lib stream configured))

/-- The mappings and the topics of the resources so far. -/
structure Collected where
  mappings : Dict String String := .empty
  topics : Dict String PhysicalStream := .empty

def Collected.initial : Collected := {}

/-- One turn of the loop over the planned resources. -/
def collect (collected : Collected) (planned : PhysicalResource) : Except Raised Collected := do
  let (stream, fingerprint) ← mapping lib settings planned
  return {
    mappings := collected.mappings.set planned.resourceRef.str fingerprint
    topics := collected.topics.set stream.topic stream }

/-- What the fingerprint of a verification is taken of. -/
def summary (collected : Collected) : Json :=
  .obj
    [("bindingId", .str settings.bindingId),
      ("engineProfile", .str settings.engineProfile),
      ("engineVersion", .str settings.engineVersion),
      ("mappings", .obj (collected.mappings.entries.map fun e => (e.1, .str e.2))),
      ("topicCount", .int collected.topics.entries.length)]

/-- `verify_physical`. -/
def verifyPhysical (resources : List PhysicalResource) : Except Raised PhysicalVerification := do
  let collected ← resources.foldlM (collect lib settings) .initial
  collected.topics.sorted.entries.forM fun e => verifyTopic env e.1 e.2
  let fingerprint ← lib.sha256Fingerprint (summary settings collected)
  env.emit.forM .error
  return {
    fingerprint
    mappings := collected.mappings
    evidence := Dict.ofList
      [("verifiedResourceCount", toString resources.length),
        ("verifiedTopicCount", toString collected.topics.entries.length)] }

/-! ### What is asked of a planned resource -/

/-- The Stream that a resource depends on: itself, the one of the Subscription, or the one of
the group's Subscription. -/
def DependsOn (resources : Dict ResourceRef PhysicalResourceConfig) :
    PhysicalResourceConfig → PhysicalStream → Prop
  | .stream s, stream => s = stream
  | .subscription subscription, stream =>
    resources.get? subscription.stream = some (.stream stream)
  | .consumerGroup group, stream =>
    ∃ subscription, resources.get? group.subscription = some (.subscription subscription) ∧
      resources.get? subscription.stream = some (.stream stream)

/-- A planned resource is mapped with equal fingerprints. -/
structure Mapped (resources : Dict ResourceRef PhysicalResourceConfig)
    (planned : PhysicalResource) (configured : PhysicalResourceConfig) : Prop where
  get? : resources.get? planned.resourceRef = some configured
  resourceFingerprint : planned.resourceFingerprint = configured.resourceFingerprint
  schemaFingerprint : ∀ stream, configured = .stream stream →
    ∀ fingerprint, planned.schemaFingerprint = some fingerprint →
      fingerprint = stream.schemaFingerprint

end Verification

/-! ### The metadata of a topic -/

section Topic

variable {env : PhysicalEnv} {stream : PhysicalStream}

end Topic

/-! ### The mapping of a resource -/

section Mapping

variable {lib : HashLibraries} {settings : Config.Settings} {planned : PhysicalResource}
  {configured : PhysicalResourceConfig} {stream : PhysicalStream} {fingerprint : String}

/-- A resource depends on one Stream. -/
theorem DependsOn.unique {resources : Dict ResourceRef PhysicalResourceConfig}
    {stream' : PhysicalStream} (h : DependsOn resources configured stream)
    (h' : DependsOn resources configured stream') : stream = stream' := by
  cases configured with
  | stream s => exact h.symm.trans h'
  | subscription subscription =>
    exact PhysicalResourceConfig.stream.inj (Option.some.inj (Eq.trans (Eq.symm h) h'))
  | consumerGroup group =>
    obtain ⟨subscription, hsubscription, hs⟩ := h
    obtain ⟨subscription', hsubscription', hs'⟩ := h'
    obtain rfl := PhysicalResourceConfig.subscription.inj
      (Option.some.inj (hsubscription.symm.trans hsubscription'))
    exact PhysicalResourceConfig.stream.inj (Option.some.inj (hs.symm.trans hs'))

end Mapping

/-! ### The loop over the planned resources -/

section Loop

variable {lib : HashLibraries} {settings : Config.Settings}

/-- What is read of a planned resource: its reference, its Stream and its fingerprint. -/
abbrev Reading := ResourceRef × PhysicalStream × String

def ReadsAs (lib : HashLibraries) (settings : Config.Settings) (planned : PhysicalResource)
    (reading : Reading) : Prop :=
  reading.1 = planned.resourceRef ∧ mapping lib settings planned = .ok reading.2

/-- No two resources are in each other's way. -/
def Free (_ _ : Reading) : Prop := True

instance : Std.Symm Free := ⟨fun _ _ => id⟩

end Loop

/-! ### What has been collected -/

section Readings

variable {lib : HashLibraries} {settings : Config.Settings} {core : CoreLibraries}
  {document : List (String × Value)} {planned : List PhysicalResource} {readings : List Reading}

variable {env : PhysicalEnv}

end Readings

/-! ### The settings of a Binding -/

namespace Sample

def refs : List ResourceRef :=
  [⟨"streaming", "a", "e"⟩, ⟨"streaming", "a", "s"⟩, ⟨"streaming", "a", "g"⟩]

/-- Just the three references of the sample are parsed. -/
def core : CoreLibraries where
  parseRef value := do
    let ref ← KafkaOperationCompiler.Sample.parseRef value
    if ref ∈ refs then return ref else .error none
  resourceRef catalog namespaceName name := .ok ⟨catalog, namespaceName, name⟩
  parseSchemaRef := KafkaOperationCompiler.Sample.parseSchemaRef

def libraries : Config.Libraries := { KafkaOperationCompiler.Sample.libraries with core := core }

def hashes : HashLibraries where
  json := plainJson
  sha256 bytes := Vector.replicate 32 (bytes.foldl (· + ·) 0)

/-- One topic with two partitions, which keeps its records for a minute. -/
def env : PhysicalEnv where
  listTopics _ := .ok (some (Dict.empty.set "events" { partitions := some 2 }))
  describeConfigs _ := .ok (some ((Dict.empty.set "cleanup.policy" ⟨some "delete"⟩).set
    "retention.ms" ⟨some "60000"⟩))

/-- The three resources are planned as they are mapped. -/
def planned : List PhysicalResource :=
  refs.map fun ref =>
    { resourceRef := ref
      resourceFingerprint :=
        "sha256:0000000000000000000000000000000000000000000000000000000000000000" }

/-- The plan is verified. -/
def verifies : Bool :=
  match Config.fromContext libraries KafkaOperationCompiler.Sample.context with
  | .ok settings => (verifyPhysical hashes settings env planned).toBool
  | .error _ => false

end Sample

end KafkaProbeEngine

end MeridianKafka
