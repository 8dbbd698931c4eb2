import MeridianKafka.Contract
import Mathlib.Data.List.Dedup

/-!
# The resource map of a Binding

`_parse_resources`: the resources document of the Binding settings becomes the map from
logical references to physical mappings that every lookup goes to. The document is read
entry by entry, with the topics and the group ids that are already taken, and the
references between the entries are checked at the end.

What the lookups rely on is `WellFormed`: an entry lies under its own reference. One entry
keeps it (`parseEntry_cases`), so the whole document has it (`parseResources_wellFormed`).

The parsers of references belong to Meridian Core and are parameters.
-/

namespace MeridianKafka

open Framework

/-- The references of Meridian Core. -/
structure CoreLibraries where
  /-- `ResourceRef.parse(value, catalog="streaming")`, of a text or a mapping. -/
  parseRef : Value → Checked ResourceRef
  /-- `ResourceRef(catalog, namespace, name)`. -/
  resourceRef : String → String → String → Checked ResourceRef
  /-- `SchemaRef.parse`, of a mapping. -/
  parseSchemaRef : List (Option String × Value) → Checked SchemaRef

/-- A reference to a streaming Resource, or else the failure. -/
def CoreLibraries.streamingRef (core : CoreLibraries) (failure : Failure) (value : Value) :
    Checked ResourceRef :=
  Checked.answering failure <|
    match value with
    | .str _ | .mapping _ => do
      let selected ← core.parseRef value
      if selected.catalog ≠ "streaming" then .error none else return selected
    | _ => .error none

theorem CoreLibraries.ensures_streamingRef (core : CoreLibraries) (failure : Failure)
    (value : Value) : Ensures (core.streamingRef failure value) fun ref =>
      core.parseRef value = .ok ref ∧ ref.catalog = "streaming" := by
  intro ref h
  unfold streamingRef at h
  rw [Checked.answering_eq_ok_iff] at h
  have hparse : Ensures (do
      let selected ← core.parseRef value
      if selected.catalog ≠ "streaming" then .error none else return selected : Checked _)
        fun ref => core.parseRef value = .ok ref ∧ ref.catalog = "streaming" :=
    .bind fun selected hselected => .ite (fun _ => .error) fun hstreaming =>
      .pure ⟨hselected, not_not.mp hstreaming⟩
  split at h
  · exact hparse ref h
  · exact hparse ref h
  · simp at h

/-- `^sha256:[0-9a-f]{64}$`. -/
def isFingerprint (text : String) : Bool :=
  "sha256:".toList.isPrefixOf text.toList && (text.toList.drop 7).length = 64 &&
    (text.toList.drop 7).all fun c => c.isDigit || ('a' ≤ c && c ≤ 'f')

def PhysicalResourceConfig.ref : PhysicalResourceConfig → ResourceRef
  | .stream s => s.ref
  | .subscription s => s.ref
  | .consumerGroup g => g.ref

namespace Config

/-- A `KafkaConfigurationError` with this text. -/
def invalid (message : String) : Failure := { kind := .kafkaConfigurationError, message }

/-! ### Fields -/

/-- `_fingerprint`. -/
def fingerprint (value : Value) (fieldName : String) : Checked String :=
  match value with
  | .str text =>
    if isFingerprint text then .ok text
    else Checked.fail (invalid (fieldName ++ " must be a SHA-256 fingerprint"))
  | _ => Checked.fail (invalid (fieldName ++ " must be a SHA-256 fingerprint"))

/-- An integer within bounds, or else the failure. -/
def between (minimum : ℕ) (value : Value) (fieldName : String) (maximum : ℕ) : Checked ℕ :=
  match value.integer minimum (some maximum) with
  | some n => .ok n
  | none =>
    Checked.fail (invalid
      (fieldName ++ " must be between " ++ toString minimum ++ " and " ++ toString maximum))

/-- `_positive`. -/
def positive : Value → String → ℕ → Checked ℕ := between 1

/-- `_boolean`. -/
def boolean (value : Value) (fieldName : String) : Checked Bool :=
  match value with
  | .bool b => .ok b
  | _ => Checked.fail (invalid (fieldName ++ " must be boolean"))

/-- `_kafka_name`. -/
def kafkaName (value : Value) (fieldName : String) (maximum : ℕ := 249) : Checked String := do
  let selected ← Checked.answering
    (invalid (fieldName ++ " must be a bounded non-empty string")) (value.boundedString maximum)
  Checked.require
    ((selected.toList.all fun c => c.isAlphanum || c = '.' || c = '_' || c = '-') = true ∧
      selected ≠ "." ∧ selected ≠ "..")
    (invalid (fieldName ++ " has an invalid Kafka identifier"))
  return selected

variable (core : CoreLibraries)

/-- `_resource_ref`. -/
def resourceRef (value : Value) (fieldName : String) : Checked ResourceRef :=
  core.streamingRef (invalid (fieldName ++ " must be a logical streaming Resource reference"))
    value

/-- `_schema_ref`. -/
def schemaRef (value : Value) (fieldName : String) : Checked SchemaRef :=
  Checked.answering
    (invalid (fieldName ++ " must be an exact streaming Schema reference")) <|
    match value with
    | .mapping fields => do
      let selected ← core.parseSchemaRef fields
      if selected.catalog ≠ "streaming" then .error none else return selected
    | _ => .error none

/-! ### Entries -/

/-- The topics and group ids that are taken, and the entries so far. -/
structure ParseState where
  result : Dict ResourceRef PhysicalResourceConfig := .empty
  streamTopics : List String := []
  groupIds : List String := []

def ParseState.initial : ParseState := {}

/-- The items of an array, of which there are none when it is left out. -/
def arrayItems (fieldName : String) : Option Value → Checked (List Value)
  | none => .ok []
  | some (.seq items) => .ok items
  | some _ => Checked.fail (invalid (fieldName ++ " must be an array"))

/-- A Stream. Its own fingerprint is among the compatible ones, which stand in order and
once each. -/
def parseStream (streamTopics : List String) (ref : ResourceRef) (item : Value) :
    Checked PhysicalStream := do
  let selected ← item.closedObject
    ["kind", "topic", "schemaRef", "schemaFingerprint", "resourceFingerprint",
      "logicalPartitions", "retentionMs", "compacted"]
    ["compatibleSchemaFingerprints"]
  let topic ← kafkaName (← Value.field selected "topic") "topic"
  Checked.require (topic ∉ streamTopics) (invalid "Stream topic mappings must be unique")
  let rawCompatible ← arrayItems "compatibleSchemaFingerprints"
    (selected.lookup "compatibleSchemaFingerprints")
  let schemaFingerprint ← fingerprint (← Value.field selected "schemaFingerprint")
    "schemaFingerprint"
  let schemaRef ← schemaRef core (← Value.field selected "schemaRef") "schemaRef"
  Checked.require (schemaRef.namespaceName = ref.namespaceName)
    (invalid "Stream and Schema mappings must share a logical Namespace")
  let others ← rawCompatible.mapM fun item => fingerprint item "compatibleSchemaFingerprint"
  return {
    ref
    topic
    schemaRef
    schemaFingerprint
    compatibleSchemaFingerprints := (schemaFingerprint :: others).dedup.insertionSort (· ≤ ·)
    resourceFingerprint := ← fingerprint (← Value.field selected "resourceFingerprint")
      "resourceFingerprint"
    logicalPartitions := ← positive (← Value.field selected "logicalPartitions")
      "logicalPartitions" 1000000
    retentionMs := ← positive (← Value.field selected "retentionMs") "retentionMs" (10 ^ 15)
    compacted := ← boolean (← Value.field selected "compacted") "compacted" }

/-- A reference that may be left out. -/
def optionalResourceRef (value : Value) (fieldName : String) : Checked (Option ResourceRef) :=
  match value with
  | .null => .ok none
  | value => some <$> resourceRef core value fieldName

def parseSubscription (ref : ResourceRef) (item : Value) : Checked PhysicalSubscription := do
  let selected ← item.closedObject
    ["kind", "stream", "resourceFingerprint", "acknowledgementTimeoutMs", "maxDeliveryAttempts",
      "deadLetterStream", "filter"] []
  let filter ← (← Value.field selected "filter").asObject
  let deadLetter ← Value.field selected "deadLetterStream"
  return {
    ref
    stream := ← resourceRef core (← Value.field selected "stream") "subscription stream"
    resourceFingerprint := ← fingerprint (← Value.field selected "resourceFingerprint")
      "resourceFingerprint"
    acknowledgementTimeoutMs := ← positive (← Value.field selected "acknowledgementTimeoutMs")
      "acknowledgementTimeoutMs" 86400000
    maxDeliveryAttempts := ← positive (← Value.field selected "maxDeliveryAttempts")
      "maxDeliveryAttempts" 10000
    deadLetterStream := ← optionalResourceRef core deadLetter "deadLetterStream"
    filter }

def parseConsumerGroup (groupIds : List String) (ref : ResourceRef) (item : Value) :
    Checked PhysicalConsumerGroup := do
  let selected ← item.closedObject ["kind", "subscription", "groupId", "resourceFingerprint"] []
  let groupId ← kafkaName (← Value.field selected "groupId") "groupId" 255
  Checked.require (groupId ∉ groupIds)
    (invalid "ConsumerGroup physical mappings must be unique")
  return {
    ref
    subscription := ← resourceRef core (← Value.field selected "subscription") "group subscription"
    groupId
    resourceFingerprint := ← fingerprint (← Value.field selected "resourceFingerprint")
      "resourceFingerprint" }

/-- The kind of an item, when it is a text. -/
def kind (item : List (String × Value)) : Option String :=
  match item.lookup "kind" with
  | some (.str kind) => some kind
  | _ => none

/-- The resource of an item, with what is taken after it. -/
def parseResource (state : ParseState) (ref : ResourceRef) (item : List (String × Value)) :
    Checked (PhysicalResourceConfig × ParseState) :=
  if kind item = some "stream" then do
    let stream ← parseStream core state.streamTopics ref (.object item)
    return (.stream stream, { state with streamTopics := stream.topic :: state.streamTopics })
  else if kind item = some "subscription" then do
    return (.subscription (← parseSubscription core ref (.object item)), state)
  else if kind item = some "consumer-group" then do
    let group ← parseConsumerGroup core state.groupIds ref (.object item)
    return (.consumerGroup group, { state with groupIds := group.groupId :: state.groupIds })
  else Checked.fail (invalid "resource mapping has an unknown kind")

/-- One entry of the document. -/
def parseEntry (state : ParseState) (entry : String × Value) : Checked ParseState := do
  let ref ← resourceRef core (.str entry.1) "resource map key"
  let item ← entry.2.asObject
  let (resource, state) ← parseResource core state ref item
  Checked.require ((state.result.get? ref).isNone = true)
    (invalid "resource mapping contains a duplicate reference")
  return { state with result := state.result.set ref resource }

/-! ### References between the entries -/

/-- The dead-letter Stream of a Subscription, when it has one. -/
def checkDeadLetter (result : Dict ResourceRef PhysicalResourceConfig) (stream : PhysicalStream) :
    Option ResourceRef → Checked Unit
  | none => .ok ()
  | some ref =>
    match result.get? ref with
    | some (.stream deadLetter) =>
      Checked.require (deadLetter.ref ≠ stream.ref)
        (invalid "dead-letter target must be another Stream")
    | _ => Checked.fail (invalid "dead-letter Stream mapping is missing")

/-- What an entry refers to is there. -/
def checkReferences (result : Dict ResourceRef PhysicalResourceConfig) :
    PhysicalResourceConfig → Checked Unit
  | .stream _ => .ok ()
  | .subscription subscription =>
    match result.get? subscription.stream with
    | some (.stream stream) => do
      checkDeadLetter result stream subscription.deadLetterStream
      Checked.require (subscription.filter.isEmpty = true)
        (invalid "V1 rejects Subscription filters requiring client-side scanning")
    | _ => Checked.fail (invalid "Subscription stream mapping is missing")
  | .consumerGroup group =>
    match result.get? group.subscription with
    | some (.subscription _) => .ok ()
    | _ => Checked.fail (invalid "ConsumerGroup Subscription mapping is missing")

/-- An entry is a Stream. -/
def isStream : PhysicalResourceConfig → Bool
  | .stream _ => true
  | _ => false

/-- `_parse_resources`. -/
def parseResources (value : Value) : Checked (Dict ResourceRef PhysicalResourceConfig) := do
  let raw ← value.asObject
  let state ← raw.foldlM (parseEntry core) .initial
  Checked.require ((state.result.entries.any fun e => isStream e.2) = true)
    (invalid "Kafka Binding requires at least one Stream mapping")
  state.result.entries.forM fun e => checkReferences state.result e.2
  return state.result

/-! ### What a parsed map is -/

/-- A resource may lie under a reference: it is its own, and the records of a Stream can be
read back under the fingerprint that they are published with. -/
structure Fits (ref : ResourceRef) (resource : PhysicalResourceConfig) : Prop where
  ref_eq : resource.ref = ref
  fingerprint : ∀ stream, resource = .stream stream →
    isFingerprint stream.schemaFingerprint = true ∧
      stream.schemaFingerprint ∈ stream.compatibleSchemaFingerprints

/-- Every resource fits the reference under which it lies. -/
def WellFormed (resources : Dict ResourceRef PhysicalResourceConfig) : Prop :=
  ∀ ref resource, resources.get? ref = some resource → Fits ref resource

variable {core : CoreLibraries}

theorem ensures_fingerprint (value : Value) (fieldName : String) :
    Ensures (fingerprint value fieldName) fun text => isFingerprint text = true := by
  unfold fingerprint
  split
  · exact .ite (fun h => .pure h) fun _ => .error
  · exact .error

theorem fits_parseStream (topics : List String) (ref : ResourceRef) (item : Value) :
    Ensures (parseStream core topics ref item) fun stream => Fits ref (.stream stream) := by
  unfold parseStream
  -- the fields, the topic and the array come before the fingerprint
  refine .bind fun selected _ => .bind fun _ _ => .bind fun topic _ => .bind fun _ _ =>
    .bind fun raw _ => .bind fun _ _ => .andThen (ensures_fingerprint _ _)
      fun schemaFingerprint hfingerprint => ?_
  -- and the reference of the Schema, the other fingerprints and the rest of the record after it
  refine .bind fun _ _ => .bind fun schemaRef _ => .bind fun _ _ => .bind fun others _ =>
    .bind fun _ _ => .bind fun resourceFingerprint _ => .bind fun _ _ => .bind fun partitions _ =>
      .bind fun _ _ => .bind fun retention _ => .bind fun _ _ => .bind fun compacted _ =>
        .pure ⟨rfl, fun stream hstream => ?_⟩
  obtain rfl := PhysicalResourceConfig.stream.inj hstream
  refine ⟨hfingerprint, ?_⟩
  rw [List.mem_insertionSort, List.mem_dedup]
  exact List.mem_cons_self

theorem fits_parseSubscription (ref : ResourceRef) (item : Value) :
    Ensures (parseSubscription core ref item) fun subscription =>
      Fits ref (.subscription subscription) := by
  unfold parseSubscription
  refine .bind fun selected _ => .bind fun _ _ => .bind fun filter _ => .bind fun deadLetter _ =>
    .bind fun _ _ => .bind fun stream _ => .bind fun _ _ => .bind fun resourceFingerprint _ =>
      .bind fun _ _ => .bind fun timeout _ => .bind fun _ _ => .bind fun attempts _ =>
        .bind fun deadLetterStream _ => .pure ⟨rfl, fun stream hstream => ?_⟩
  exact PhysicalResourceConfig.noConfusion hstream

theorem fits_parseConsumerGroup (groupIds : List String) (ref : ResourceRef) (item : Value) :
    Ensures (parseConsumerGroup core groupIds ref item) fun group =>
      Fits ref (.consumerGroup group) := by
  unfold parseConsumerGroup
  refine .bind fun selected _ => .bind fun _ _ => .bind fun groupId _ => .bind fun _ _ =>
    .bind fun _ _ => .bind fun subscription _ => .bind fun _ _ =>
      .bind fun resourceFingerprint _ => .pure ⟨rfl, fun stream hstream => ?_⟩
  exact PhysicalResourceConfig.noConfusion hstream

/-- Reading a resource adds none to the entries, and what it returns fits its reference. -/
theorem ensures_parseResource (state : ParseState) (ref : ResourceRef)
    (item : List (String × Value)) :
    Ensures (parseResource core state ref item) fun parsed =>
      Fits ref parsed.1 ∧ parsed.2.result = state.result := by
  unfold parseResource
  refine .ite (fun _ => ?_) fun _ => .ite (fun _ => ?_) fun _ => .ite (fun _ => ?_) fun _ => .error
  · exact .andThen (fits_parseStream _ _ _) fun stream hfits => .pure ⟨hfits, rfl⟩
  · exact .andThen (fits_parseSubscription _ _) fun subscription hfits => .pure ⟨hfits, rfl⟩
  · exact .andThen (fits_parseConsumerGroup _ _ _) fun group hfits => .pure ⟨hfits, rfl⟩

/-- **An entry adds one resource**, under its own reference, which was free. -/
theorem ensures_parseEntry (state : ParseState) (entry : String × Value) :
    Ensures (parseEntry core state entry) fun state' =>
      ∃ ref resource, Fits ref resource ∧ state.result.get? ref = none ∧
        state'.result = state.result.set ref resource := by
  unfold parseEntry
  refine .bind fun ref _ => .bind fun item _ => .andThen (ensures_parseResource state ref item) ?_
  rintro ⟨resource, parsed⟩ ⟨hfits, hresult⟩
  refine .andThen Checked.ensures_require fun _ hfree => .pure ⟨ref, resource, hfits, ?_, ?_⟩
  · rwa [Option.isNone_iff_eq_none, hresult] at hfree
  · change parsed.result.set ref resource = _
    rw [hresult]

theorem wellFormed_parseEntry {state : ParseState} (wellFormed : WellFormed state.result)
    (entry : String × Value) :
    Ensures (parseEntry core state entry) fun state' => WellFormed state'.result := by
  refine .mono (ensures_parseEntry state entry) ?_
  rintro state' ⟨ref, resource, hfits, -, hresult⟩ ref' resource' hget
  rw [hresult, Dict.get?_set] at hget
  split at hget
  · next hsame =>
    obtain rfl := Option.some.inj hget
    rw [hsame]
    exact hfits
  · exact wellFormed ref' resource' hget

/-- Every map that `_parse_resources` returns is well formed: the empty one is, and each
entry keeps it so. -/
theorem wellFormed_parseResources (value : Value) :
    Ensures (parseResources core value) WellFormed := by
  unfold parseResources
  have hempty : WellFormed ParseState.initial.result := by
    intro ref resource hget
    exact absurd hget (by simp [ParseState.initial])
  refine .bind fun raw _ => .andThen
    (.foldlM hempty fun state wellFormed entry _ => wellFormed_parseEntry wellFormed entry) ?_
  intro state wellFormed
  exact .bind fun _ _ => .bind fun _ _ => .pure wellFormed

end Config

end MeridianKafka
