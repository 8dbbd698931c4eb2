import MeridianKafka.Compiler.Compile
import MeridianKafka.Framework.Base64

/-!
# What a compiled command is about

`WellScoped` says what a command may rest on once the compiler has returned it: the input
was closed, each mapping in the command is the one that the Binding has under a reference of
the input, the mappings belong together, events name their Stream and its Schema, and counts
are within their bounds.

There is one rule for each helper of the compiler and one for each of its methods. That an
entry of the resource map lies under its own reference is the invariant of the parsed map;
it is what ties the references of the mappings to each other.
-/

namespace MeridianKafka

open Framework Config

/-! ### Scope -/

/-- All the required fields are there, and no field that is neither required nor optional. -/
structure ClosedInput (input : List (String × Value)) (required optional : List String) :
    Prop where
  present : ∀ field ∈ required, field ∈ input.map Prod.fst
  known : ∀ field ∈ input.map Prod.fst, field ∈ required ∨ field ∈ optional

/-- The contract that a command was compiled for. -/
def CompiledCommand.contract : CompiledCommand → String
  | .publish command =>
    if command.batch then "meridian.streaming.publish-batch" else "meridian.streaming.publish"
  | .subscribe _ => "meridian.streaming.subscribe"
  | .poll _ => "meridian.streaming.poll"
  | .acknowledge _ => "meridian.streaming.acknowledge"
  | .negativeAcknowledge _ => "meridian.streaming.negative-acknowledge"
  | .readRange command =>
    if command.replay then "meridian.streaming.replay" else "meridian.streaming.read-range"
  | .groupPosition _ => "meridian.streaming.group-position"
  | .validateSchema _ => "meridian.streaming.publish-schema"
  | .validateResource _ => "meridian.streaming.create-resource"
  | .transactionalConsumePublish _ => "meridian.streaming.transactional-consume-publish"

/-- The required and the optional fields of each contract. -/
def contractFields : List (String × List String × List String) :=
  [("meridian.streaming.publish", ["resource", "data"], ["idempotencyKey"]),
    ("meridian.streaming.publish-batch", ["resource", "data"], ["idempotencyKey"]),
    ("meridian.streaming.subscribe", ["stream", "subscription", "options"], []),
    ("meridian.streaming.poll", ["subscription", "consumerGroup", "limit", "waitTimeoutMs"], []),
    ("meridian.streaming.acknowledge", ["subscription", "consumerGroup", "delivery"], []),
    ("meridian.streaming.negative-acknowledge", ["subscription", "consumerGroup", "delivery"],
      ["retryAfterMs", "classification"]),
    ("meridian.streaming.read-range", ["resource", "start", "end", "cursor", "limit"], []),
    ("meridian.streaming.replay",
      ["stream", "start", "end", "limit", "authorizationRef", "reason", "mutatesConsumerGroup"],
      []),
    ("meridian.streaming.group-position",
      ["subscription", "consumerGroup", "position", "expectedPositionFingerprint",
        "authorizationRef", "reason"], []),
    ("meridian.streaming.publish-schema",
      ["namespace", "name", "version", "definition", "allowBreaking"],
      ["expectedRegistryRevision"]),
    ("meridian.streaming.create-resource",
      ["namespace", "name", "resourceType", "schema", "options"], []),
    ("meridian.streaming.transactional-consume-publish",
      ["subscription", "consumerGroup", "limit", "waitTimeoutMs", "delivery", "outputs"], [])]

namespace KafkaOperationCompiler

section Scope

variable (lib : CompilerLibraries) (settings : KafkaBindingSettings)

/-- The entry of the resource map under the reference in a field of the input. -/
def Mapped (input : List (String × Value)) (fieldName : String)
    (resource : PhysicalResourceConfig) : Prop :=
  ∃ value ref, input.lookup fieldName = some value ∧ lib.core.parseRef value = .ok ref ∧
    settings.resources.get? ref = some resource ∧ resource.ref = ref

/-- A number of the input within its bounds. -/
def Counted (input : List (String × Value)) (fieldName : String) (n minimum maximum : ℕ) : Prop :=
  input.lookup fieldName = some (.int n) ∧ minimum ≤ n ∧ n ≤ maximum

/-- The group belongs to the Subscription, and the Stream is the one of the Subscription. -/
structure GroupScoped (input : List (String × Value)) (subscription : PhysicalSubscription)
    (group : PhysicalConsumerGroup) (stream : PhysicalStream) : Prop where
  mapped_subscription : Mapped lib settings input "subscription" (.subscription subscription)
  mapped_group : Mapped lib settings input "consumerGroup" (.consumerGroup group)
  mapped_stream : settings.resources.get? subscription.stream = some (.stream stream)
  group_subscription : group.subscription = subscription.ref
  subscription_stream : subscription.stream = stream.ref

/-- The events of a publication name its Stream and the Schema of that. A batch has a bounded
number of events, any other publication has one. -/
structure PublishScoped (input : List (String × Value)) (command : PublishCommand) : Prop where
  stream : Mapped lib settings input "resource" (.stream command.stream)
  events : ∀ event ∈ command.events,
    event.stream = command.stream.ref ∧ event.schema = command.stream.schemaRef
  batch : command.batch = true →
    1 ≤ command.events.length ∧ command.events.length ≤ lib.maxBatchSize
  single : command.batch = false → command.events.length = 1

structure PollScoped (input : List (String × Value)) (command : PollCommand) : Prop where
  group : GroupScoped lib settings input command.subscription command.consumerGroup command.stream
  limit : Counted input "limit" command.limit 1 lib.maxPollSize
  waitTimeoutMs : Counted input "waitTimeoutMs" command.waitTimeoutMs 0 lib.maxWaitTimeoutMs

/-- An output of a transaction is the publication that its own input asks for. -/
def OutputScoped (item : Value) (command : PublishCommand) : Prop :=
  command.batch = false ∧ ∃ input, item.asObject = .ok input ∧
    ClosedInput input ["resource", "data"] ["idempotencyKey"] ∧
    PublishScoped lib settings input command

/-- Transactions are enabled, and the poll and each output is in scope. -/
structure TransactionScoped (input : List (String × Value))
    (command : TransactionalConsumePublishCommand TokenValue) : Prop where
  enabled : settings.transactionEnabled = true
  poll : PollScoped lib settings input command.poll
  outputs : ∃ items, input.lookup "outputs" = some (.seq items) ∧
    (1 ≤ items.length ∧ items.length ≤ lib.maxBatchSize) ∧
    List.Forall₂ (OutputScoped lib settings) items command.outputs

/-- The resource of a namespace and a name, of the type that the input says. -/
def ResourceScoped (input : List (String × Value)) (command : ValidateResourceCommand) : Prop :=
  ∃ namespaceName name ref, input.lookup "namespace" = some (.str namespaceName) ∧
    input.lookup "name" = some (.str name) ∧
    lib.core.resourceRef "streaming" namespaceName name = .ok ref ∧
    settings.resources.get? ref = some command.resource ∧ command.resource.ref = ref ∧
    input.lookup "resourceType" = some (.str (resourceTypeOf command.resource))

/-- What a command may be about, by its kind. -/
def Scoped (input : List (String × Value)) : CompiledCommand → Prop
  | .publish command => PublishScoped lib settings input command
  | .subscribe command =>
    Mapped lib settings input "stream" (.stream command.stream) ∧
      Mapped lib settings input "subscription" (.subscription command.subscription) ∧
      command.subscription.stream = command.stream.ref
  | .poll command => PollScoped lib settings input command
  | .acknowledge command =>
    GroupScoped lib settings input command.subscription command.consumerGroup command.stream
  | .negativeAcknowledge command =>
    GroupScoped lib settings input command.subscription command.consumerGroup command.stream ∧
      command.retryAfterMs ≤ maxRetryAfterMs
  | .readRange command =>
    Mapped lib settings input (if command.replay then "stream" else "resource")
        (.stream command.stream) ∧
      Counted input "limit" command.limit 1 lib.maxRangeSize
  | .groupPosition command =>
    GroupScoped lib settings input command.subscription command.consumerGroup command.stream
  | .validateSchema command =>
    ∀ revision ∈ command.expectedRegistryRevision,
      input.lookup "expectedRegistryRevision" = some (.int revision)
  | .validateResource command => ResourceScoped lib settings input command
  | .transactionalConsumePublish command => TransactionScoped lib settings input command

/-- A command in the scope of its Operation. -/
structure WellScoped (operation : Operation) (command : CompiledCommand) : Prop where
  catalog : operation.catalog = "streaming"
  version : operation.operationVersion = "1.0.0"
  contract : operation.operationContract = command.contract
  input : ∃ input required optional, operation.input.asObject = .ok input ∧
    contractFields.lookup command.contract = some (required, optional) ∧
    ClosedInput input required optional ∧ Scoped lib settings input command

/-- A value closes over these fields, and its fields satisfy the predicate. -/
def Closes (value : Value) (required optional : List String)
    (P : List (String × Value) → Prop) : Prop :=
  ∃ input, value.asObject = .ok input ∧ ClosedInput input required optional ∧ P input

end Scope

end KafkaOperationCompiler

/-! ### What the lookups ensure -/

namespace KafkaBindingSettings

variable {settings : KafkaBindingSettings}

theorem ensures_resource (ref : ResourceRef) : Ensures (settings.resource ref) fun resource =>
    settings.resources.get? ref = some resource := fun _ => resource_eq_ok_iff.mp

theorem ensures_stream (ref : ResourceRef) : Ensures (settings.stream ref) fun stream =>
    settings.resources.get? ref = some (.stream stream) := fun _ => stream_eq_ok_iff.mp

theorem ensures_subscription (ref : ResourceRef) :
    Ensures (settings.subscription ref) fun subscription =>
      settings.resources.get? ref = some (.subscription subscription) :=
  fun _ => subscription_eq_ok_iff.mp

/-- The three mappings of a group lie in the map, and the group belongs to the Subscription. -/
theorem ensures_groupStream (subscriptionRef groupRef : ResourceRef) :
    Ensures (settings.groupStream subscriptionRef groupRef) fun mapped =>
      settings.resources.get? subscriptionRef = some (.subscription mapped.1) ∧
      settings.resources.get? groupRef = some (.consumerGroup mapped.2.1) ∧
      mapped.2.1.subscription = mapped.1.ref ∧
      settings.resources.get? mapped.1.stream = some (.stream mapped.2.2) :=
  fun _ => groupStream_eq_ok_iff.mp

end KafkaBindingSettings

namespace KafkaOperationCompiler

/-! ### What the helpers ensure -/

section Helpers

variable {lib : CompilerLibraries} {settings : KafkaBindingSettings}

theorem closedInput_of_closedFields {required optional : List String}
    {input : List (String × Value)}
    (h : closedFields required optional (input.map Prod.fst) = true) :
    ClosedInput input required optional := by
  unfold closedFields at h
  rw [Bool.and_eq_true, List.all_eq_true, List.all_eq_true] at h
  obtain ⟨hpresent, hknown⟩ := h
  refine ⟨fun field hfield => ?_, fun field hfield => ?_⟩
  · simpa using hpresent field hfield
  · simpa using hknown field hfield

theorem ensures_closed (value : Value) (operationName : String) (required optional : List String) :
    Ensures (closed value operationName required optional) fun input =>
      value.asObject = .ok input ∧ ClosedInput input required optional := by
  intro input h
  unfold closed at h
  rw [Checked.answering_eq_ok_iff, Value.closedObject_eq_ok_iff] at h
  exact ⟨h.1, closedInput_of_closedFields h.2⟩

theorem ensures_field (input : List (String × Value)) (fieldName : String) :
    Ensures (Value.field input fieldName) fun value => input.lookup fieldName = some value :=
  fun _ h => Value.field_eq_ok_iff.mp h

theorem ensures_integer (value : Value) (fieldName : String) (minimum : ℕ) (maximum : Option ℕ) :
    Ensures (integer value fieldName minimum maximum) fun n =>
      value = .int n ∧ minimum ≤ n ∧ ∀ m ∈ maximum, n ≤ m := by
  unfold integer
  split
  · next n hn => exact .pure (Value.integer_eq_some_iff.mp hn)
  · exact .error

theorem ensures_array (value : Value) (message : String) :
    Ensures (array value message) fun items => value = .seq items := by
  unfold array
  split
  · exact .pure rfl
  · exact .error

/-- A number that is read from a field. -/
theorem ensures_counted (input : List (String × Value)) (fieldName : String)
    (minimum maximum : ℕ) {β : Type} {f : ℕ → Checked β} {P : β → Prop}
    (h : ∀ n, Counted input fieldName n minimum maximum → Ensures (f n) P) :
    Ensures (do
      let value ← Value.field input fieldName
      let n ← integer value fieldName minimum (some maximum)
      f n) P := by
  refine .andThen (ensures_field input fieldName) fun value hvalue => ?_
  refine .andThen (ensures_integer value fieldName minimum (some maximum)) ?_
  rintro n ⟨rfl, hminimum, hmaximum⟩
  exact h n ⟨hvalue, hminimum, hmaximum maximum rfl⟩

theorem ensures_ref (input : List (String × Value)) (fieldName : String) :
    Ensures (ref lib input fieldName) fun ref =>
      ∃ value, input.lookup fieldName = some value ∧ lib.core.parseRef value = .ok ref := by
  unfold ref
  refine .andThen (ensures_field input fieldName) fun value hvalue => ?_
  exact .mono (lib.core.ensures_streamingRef _ value) fun ref hparse => ⟨value, hvalue, hparse.1⟩

variable (wellFormed : WellFormed settings.resources)

include wellFormed

/-- The Stream that is found under a reference of the input has this reference. -/
theorem ensures_stream (input : List (String × Value)) (fieldName : String) :
    Ensures (stream lib settings input fieldName) fun stream =>
      Mapped lib settings input fieldName (.stream stream) := by
  unfold stream
  refine .andThen (ensures_ref input fieldName) ?_
  rintro ref ⟨value, hvalue, hparse⟩
  refine Checked.ensures_ofExcept (.mono (KafkaBindingSettings.ensures_stream ref) ?_)
  intro stream hget
  exact ⟨value, ref, hvalue, hparse, hget, (wellFormed ref _ hget).ref_eq⟩

theorem ensures_groupStream (input : List (String × Value)) :
    Ensures (groupStream lib settings input) fun mapped =>
      GroupScoped lib settings input mapped.1 mapped.2.1 mapped.2.2 := by
  unfold groupStream
  refine .andThen (ensures_ref input "subscription") ?_
  rintro subscriptionRef ⟨subscriptionValue, hsubscriptionValue, hsubscriptionParse⟩
  refine .andThen (ensures_ref input "consumerGroup") ?_
  rintro groupRef ⟨groupValue, hgroupValue, hgroupParse⟩
  refine Checked.ensures_ofExcept
    (.mono (KafkaBindingSettings.ensures_groupStream subscriptionRef groupRef) ?_)
  rintro ⟨subscription, group, stream⟩ ⟨hsubscription, hgroup, hbelongs, hstream⟩
  exact
    { mapped_subscription := ⟨subscriptionValue, subscriptionRef, hsubscriptionValue,
        hsubscriptionParse, hsubscription, (wellFormed _ _ hsubscription).ref_eq⟩
      mapped_group := ⟨groupValue, groupRef, hgroupValue, hgroupParse, hgroup,
        (wellFormed _ _ hgroup).ref_eq⟩
      mapped_stream := hstream
      group_subscription := hbelongs
      subscription_stream := (wellFormed _ _ hstream).ref_eq.symm }

end Helpers

/-! ### What the methods ensure -/

section Methods

variable {lib : CompilerLibraries} {settings : KafkaBindingSettings}

theorem ensures_event (value : Value) (stream : PhysicalStream) :
    Ensures (event lib value stream) fun event =>
      event.stream = stream.ref ∧ event.schema = stream.schemaRef := by
  unfold event
  split
  · refine .bind fun event _ => .andThen Checked.ensures_require fun _ hstream => ?_
    exact .andThen Checked.ensures_require fun _ hschema => .pure ⟨hstream, hschema⟩
  · exact .error

/-- The events of a publication, with their number. -/
theorem ensures_events (data : Value) (batch : Bool) (stream : PhysicalStream) :
    Ensures (events lib data batch stream) fun selected =>
      (∀ event ∈ selected, event.stream = stream.ref ∧ event.schema = stream.schemaRef) ∧
      (batch = true → 1 ≤ selected.length ∧ selected.length ≤ lib.maxBatchSize) ∧
      (batch = false → selected.length = 1) := by
  unfold events
  refine .ite (fun hbatch => ?_) fun hbatch => ?_
  · refine .bind fun rawEvents _ => .andThen Checked.ensures_require fun _ hbounds => ?_
    -- each event is checked alone; the bounds are those of the raw list
    refine .mono (.mapM fun item _ => ensures_event item stream) fun selected hselected => ?_
    have hlength : selected.length = rawEvents.length := hselected.length_eq.symm
    refine ⟨fun event hevent => ?_, fun _ => by rwa [hlength], fun hsingle => ?_⟩
    · obtain ⟨i, hi, rfl⟩ := List.getElem_of_mem hevent
      exact hselected.get (hlength ▸ hi) hi
    · exact absurd (hbatch.symm.trans hsingle) (by decide)
  · refine .andThen (ensures_event data stream) fun event hevent => .pure ⟨?_, ?_, ?_⟩
    · intro event' hmem
      obtain rfl := List.mem_singleton.mp hmem
      exact hevent
    · exact fun h => absurd h hbatch
    · exact fun _ => rfl

theorem ensures_expectedRevision (value : Value) :
    Ensures (expectedRevision value) fun expected =>
      ∀ revision ∈ expected, value = .int revision := by
  unfold expectedRevision
  split
  · exact .pure fun revision hrevision => absurd hrevision (by simp)
  · refine .map (.mono (ensures_integer value _ _ _) ?_)
    rintro n ⟨rfl, -⟩ revision hrevision
    obtain rfl := Option.some.inj hrevision
    rfl

variable (lib settings) in
theorem ensures_validateSchema (value : Value) :
    Ensures (validateSchema value) fun command =>
      Closes value ["namespace", "name", "version", "definition", "allowBreaking"]
        ["expectedRegistryRevision"] fun input =>
          Scoped lib settings input (.validateSchema command) := by
  unfold validateSchema
  refine .andThen (ensures_closed _ _ _ _) ?_
  rintro input ⟨hobject, hclosed⟩
  refine .bind fun _ _ => .bind fun _ _ => .bind fun _ _ => .bind fun namespaceName _ =>
    .bind fun _ _ => .bind fun name _ => .bind fun _ _ => .bind fun version _ => ?_
  refine .andThen (ensures_expectedRevision _) fun expected hexpected => ?_
  refine .bind fun _ _ => .bind fun allowBreaking _ => .pure ⟨input, hobject, hclosed, ?_⟩
  intro revision hrevision
  -- a field that is left out reads as null, which is no revision
  have hvalue := hexpected revision hrevision
  cases hlookup : input.lookup "expectedRegistryRevision" with
  | none =>
    rw [hlookup] at hvalue
    simp at hvalue
  | some found =>
    rw [hlookup] at hvalue
    exact congrArg some hvalue

variable (wellFormed : WellFormed settings.resources)

include wellFormed

theorem ensures_publish (value : Value) (batch : Bool) :
    Ensures (publish lib settings value batch) fun command => command.batch = batch ∧
      Closes value ["resource", "data"] ["idempotencyKey"] fun input =>
        PublishScoped lib settings input command := by
  unfold publish
  refine .andThen (ensures_closed _ _ _ _) ?_
  rintro input ⟨hobject, hclosed⟩
  refine .andThen (ensures_stream wellFormed input "resource") fun stream hstream => ?_
  refine .bind fun data _ => .andThen (ensures_events data batch stream) ?_
  rintro events ⟨hevents, hbatch, hsingle⟩
  refine .bind fun key _ => .pure ⟨rfl, input, hobject, hclosed, ?_⟩
  exact { stream := hstream, events := hevents, batch := hbatch, single := hsingle }

theorem ensures_subscribe (value : Value) :
    Ensures (subscribe lib settings value) fun command =>
      Closes value ["stream", "subscription", "options"] [] fun input =>
        Scoped lib settings input (.subscribe command) := by
  unfold subscribe
  refine .andThen (ensures_closed _ _ _ _) ?_
  rintro input ⟨hobject, hclosed⟩
  refine .andThen (ensures_stream wellFormed input "stream") fun stream hstream => ?_
  refine .andThen (ensures_ref input "subscription") ?_
  rintro ref ⟨value, hvalue, hparse⟩
  refine .andThen (Checked.ensures_ofExcept (KafkaBindingSettings.ensures_subscription ref))
    fun subscription hget => ?_
  refine .andThen Checked.ensures_require fun _ hbelongs => ?_
  refine .bind fun _ _ => .bind fun options _ => .bind fun _ _ => .pure ?_
  exact ⟨input, hobject, hclosed, hstream,
    ⟨value, ref, hvalue, hparse, hget, (wellFormed _ _ hget).ref_eq⟩, hbelongs⟩

theorem ensures_poll (value : Value) :
    Ensures (poll lib settings value) fun command =>
      Closes value ["subscription", "consumerGroup", "limit", "waitTimeoutMs"] [] fun input =>
        PollScoped lib settings input command := by
  unfold poll
  refine .andThen (ensures_closed _ _ _ _) ?_
  rintro input ⟨hobject, hclosed⟩
  refine .andThen (ensures_groupStream wellFormed input) ?_
  rintro ⟨subscription, group, stream⟩ hgroup
  refine ensures_counted input "limit" 1 lib.maxPollSize fun limit hlimit => ?_
  refine ensures_counted input "waitTimeoutMs" 0 lib.maxWaitTimeoutMs fun wait hwait => ?_
  exact .pure ⟨input, hobject, hclosed, hgroup, hlimit, hwait⟩

theorem ensures_acknowledge (value : Value) :
    Ensures (acknowledge lib settings value) fun command =>
      Closes value ["subscription", "consumerGroup", "delivery"] [] fun input =>
        Scoped lib settings input (.acknowledge command) := by
  unfold acknowledge
  refine .andThen (ensures_closed _ _ _ _) ?_
  rintro input ⟨hobject, hclosed⟩
  refine .andThen (ensures_groupStream wellFormed input) ?_
  rintro ⟨subscription, group, stream⟩ hgroup
  exact .bind fun _ _ => .bind fun delivery _ => .pure ⟨input, hobject, hclosed, hgroup⟩

theorem ensures_negativeAcknowledge (value : Value) :
    Ensures (negativeAcknowledge lib settings value) fun command =>
      Closes value ["subscription", "consumerGroup", "delivery"]
        ["retryAfterMs", "classification"] fun input =>
          Scoped lib settings input (.negativeAcknowledge command) := by
  unfold negativeAcknowledge
  refine .andThen (ensures_closed _ _ _ _) ?_
  rintro input ⟨hobject, hclosed⟩
  refine .andThen (ensures_groupStream wellFormed input) ?_
  rintro ⟨subscription, group, stream⟩ hgroup
  refine .bind fun classification _ => .bind fun _ _ => .bind fun delivery _ => ?_
  refine .andThen (ensures_integer _ _ _ _) ?_
  rintro retryAfterMs ⟨-, -, hmaximum⟩
  exact .pure ⟨input, hobject, hclosed, hgroup, hmaximum maxRetryAfterMs rfl⟩

theorem ensures_readRange (value : Value) :
    Ensures (readRange lib settings value) fun command => command.replay = false ∧
      Closes value ["resource", "start", "end", "cursor", "limit"] [] fun input =>
        Scoped lib settings input (.readRange command) := by
  unfold readRange
  refine .andThen (ensures_closed _ _ _ _) ?_
  rintro input ⟨hobject, hclosed⟩
  refine .andThen (ensures_stream wellFormed input "resource") fun stream hstream => ?_
  refine .bind fun _ _ => .bind fun start _ => .bind fun _ _ => .bind fun stop _ =>
    .bind fun _ _ => .bind fun cursor _ => ?_
  refine ensures_counted input "limit" 1 lib.maxRangeSize fun limit hlimit => ?_
  exact .pure ⟨rfl, input, hobject, hclosed, hstream, hlimit⟩

theorem ensures_replay (value : Value) :
    Ensures (replay lib settings value) fun command => command.replay = true ∧
      Closes value ["stream", "start", "end", "limit", "authorizationRef", "reason",
        "mutatesConsumerGroup"] [] fun input =>
          Scoped lib settings input (.readRange command) := by
  unfold replay
  refine .andThen (ensures_closed _ _ _ _) ?_
  rintro input ⟨hobject, hclosed⟩
  refine .bind fun _ _ => .bind fun _ _ => ?_
  refine .andThen (ensures_stream wellFormed input "stream") fun stream hstream => ?_
  refine .bind fun _ _ => .bind fun start _ => .bind fun stop _ => ?_
  refine ensures_counted input "limit" 1 lib.maxRangeSize fun limit hlimit => ?_
  exact .pure ⟨rfl, input, hobject, hclosed, hstream, hlimit⟩

theorem ensures_groupPosition (value : Value) :
    Ensures (groupPosition lib settings value) fun command =>
      Closes value ["subscription", "consumerGroup", "position", "expectedPositionFingerprint",
        "authorizationRef", "reason"] [] fun input =>
          Scoped lib settings input (.groupPosition command) := by
  unfold groupPosition
  refine .andThen (ensures_closed _ _ _ _) ?_
  rintro input ⟨hobject, hclosed⟩
  refine .andThen (ensures_groupStream wellFormed input) ?_
  rintro ⟨subscription, group, stream⟩ hgroup
  refine .bind fun _ _ => .bind fun position _ => .bind fun _ _ => .bind fun expected _ => ?_
  exact .pure ⟨input, hobject, hclosed, hgroup⟩

theorem ensures_validateResource (value : Value) :
    Ensures (validateResource lib settings value) fun command =>
      Closes value ["namespace", "name", "resourceType", "schema", "options"] [] fun input =>
        Scoped lib settings input (.validateResource command) := by
  unfold validateResource
  refine .andThen (ensures_closed _ _ _ _) ?_
  rintro input ⟨hobject, hclosed⟩
  -- A text that is read from a field is what the field holds.
  have htext : ∀ (fieldName : String) (maximum : ℕ) (value : Value),
      input.lookup fieldName = some value → Ensures (value.boundedString maximum) fun text =>
        input.lookup fieldName = some (.str text) := by
    intro fieldName maximum value hvalue text h
    rw [hvalue, (Value.boundedString_eq_ok_iff.mp h).1]
  refine .bind fun _ _ => .bind fun options _ => ?_
  refine .andThen (ensures_field input "namespace") fun value hvalue => ?_
  refine .andThen (htext _ _ value hvalue) fun namespaceName hnamespace => ?_
  refine .andThen (ensures_field input "name") fun value hvalue => ?_
  refine .andThen (htext _ _ value hvalue) fun name hname => .bind fun ref href => ?_
  refine .andThen (Checked.ensures_ofExcept (KafkaBindingSettings.ensures_resource ref))
    fun resource hget => ?_
  refine .andThen (ensures_field input "resourceType") fun value hvalue => ?_
  refine .andThen (htext _ _ value hvalue) fun resourceType htype => ?_
  refine .andThen Checked.ensures_require fun _ hkind => .pure ⟨input, hobject, hclosed, ?_⟩
  subst hkind
  exact ⟨namespaceName, name, ref, hnamespace, hname, href, hget, (wellFormed _ _ hget).ref_eq,
    htype⟩

omit wellFormed in
/-- A poll is in the scope of any input that has its four fields. -/
theorem PollScoped.of_lookup {input input' : List (String × Value)} {command : PollCommand}
    (h : PollScoped lib settings input command)
    (same : ∀ fieldName ∈ ["subscription", "consumerGroup", "limit", "waitTimeoutMs"],
      input.lookup fieldName = input'.lookup fieldName) :
    PollScoped lib settings input' command := by
  have hmapped : ∀ (fieldName : String) (resource : PhysicalResourceConfig),
      fieldName ∈ ["subscription", "consumerGroup", "limit", "waitTimeoutMs"] →
      Mapped lib settings input fieldName resource →
        Mapped lib settings input' fieldName resource := by
    rintro fieldName resource hmem ⟨value, ref, hvalue, hrest⟩
    exact ⟨value, ref, (same fieldName hmem) ▸ hvalue, hrest⟩
  obtain ⟨hgroup, ⟨hlimit, hlimitBounds⟩, hwait, hwaitBounds⟩ := h
  exact
    { group :=
        { hgroup with
          mapped_subscription := hmapped _ _ (by simp) hgroup.mapped_subscription
          mapped_group := hmapped _ _ (by simp) hgroup.mapped_group }
      limit := ⟨(same "limit" (by simp)) ▸ hlimit, hlimitBounds⟩
      waitTimeoutMs := ⟨(same "waitTimeoutMs" (by simp)) ▸ hwait, hwaitBounds⟩ }

theorem ensures_transactional (value : Value) :
    Ensures (transactional lib settings value) fun command =>
      Closes value ["subscription", "consumerGroup", "limit", "waitTimeoutMs", "delivery",
        "outputs"] [] fun input =>
          Scoped lib settings input (.transactionalConsumePublish command) := by
  unfold transactional
  refine .andThen Checked.ensures_require fun _ henabled => ?_
  refine .andThen (ensures_closed _ _ _ _) ?_
  rintro input ⟨hobject, hclosed⟩
  refine .andThen (ensures_field input "subscription") fun subscription hsubscription => ?_
  refine .andThen (ensures_field input "consumerGroup") fun group hgroup => ?_
  refine .andThen (ensures_field input "limit") fun limit hlimit => ?_
  refine .andThen (ensures_field input "waitTimeoutMs") fun wait hwait => ?_
  refine .andThen (ensures_poll wellFormed _) ?_
  -- The poll was compiled from a mapping of four fields of the input.
  rintro poll ⟨rebuilt, hrebuilt, -, hpoll⟩
  rw [Value.asObject_object] at hrebuilt
  obtain rfl := Except.ok.inj hrebuilt
  refine .bind fun _ _ => .bind fun delivery _ => ?_
  refine .andThen (ensures_field input "outputs") fun outputs houtputs => ?_
  refine .andThen (ensures_array outputs _) ?_
  rintro items rfl
  refine .andThen Checked.ensures_require fun _ hbounds => ?_
  refine .andThen (.mapM (S := OutputScoped lib settings) fun item _ => ?_)
    fun commands hcommands => .pure ⟨input, hobject, hclosed, ?_⟩
  · -- an output is the publication of the mapping that it is
    refine .bind fun fields hfields => .mono (ensures_publish wellFormed _ _) ?_
    rintro command ⟨hbatch, input, hinput, hclosed, hscoped⟩
    rw [Value.asObject_object] at hinput
    obtain rfl := Except.ok.inj hinput
    exact ⟨hbatch, fields, hfields, hclosed, hscoped⟩
  · refine { enabled := henabled, poll := hpoll.of_lookup ?_, outputs := ⟨items, houtputs, hbounds,
      hcommands⟩ }
    intro fieldName hmem
    simp only [List.mem_cons, List.not_mem_nil, or_false] at hmem
    rcases hmem with rfl | rfl | rfl | rfl
    · exact hsubscription.symm
    · exact hgroup.symm
    · exact hlimit.symm
    · exact hwait.symm

/-! ### What the compiler ensures -/

omit wellFormed in
/-- The command of a method, in the scope of its Operation. -/
theorem wellScoped_of_closes {operation : Operation} (catalog : operation.catalog = "streaming")
    (version : operation.operationVersion = "1.0.0") {command : CompiledCommand}
    (contract : operation.operationContract = command.contract) {required optional : List String}
    (fields : contractFields.lookup command.contract = some (required, optional))
    (closes : Closes operation.input required optional fun input =>
      Scoped lib settings input command) : WellScoped lib settings operation command := by
  obtain ⟨input, hobject, hclosed, hscoped⟩ := closes
  exact
    { catalog, version, contract
      input := ⟨input, required, optional, hobject, fields, hclosed, hscoped⟩ }

/-- One case for each contract. -/
theorem ensures_compile (operation : Operation) :
    Ensures (compile lib settings operation) (WellScoped lib settings operation) := by
  unfold compile
  refine .andThen Checked.ensures_require fun _ catalog => ?_
  refine .andThen Checked.ensures_require fun _ version => ?_
  unfold dispatch
  -- One goal for each contract; two pairs of them share a command, which tells them apart.
  refine .ite (fun contract => ?publish) fun _ => .ite (fun contract => ?batch) fun _ =>
    .ite (fun contract => ?subscribe) fun _ => .ite (fun contract => ?poll) fun _ =>
    .ite (fun contract => ?acknowledge) fun _ => .ite (fun contract => ?negative) fun _ =>
    .ite (fun contract => ?readRange) fun _ => .ite (fun contract => ?replay) fun _ =>
    .ite (fun contract => ?groupPosition) fun _ => .ite (fun contract => ?schema) fun _ =>
    .ite (fun contract => ?resource) fun _ => .ite (fun contract => ?transaction) fun _ => .error
  case publish =>
    refine .map (.mono (ensures_publish wellFormed operation.input false) ?_)
    rintro command ⟨hbatch, closes⟩
    have hcontract : (CompiledCommand.publish command).contract = "meridian.streaming.publish" :=
      if_neg (by simp [hbatch])
    refine wellScoped_of_closes catalog version (contract.trans hcontract.symm) ?_ closes
    rw [hcontract]
    rfl
  case batch =>
    refine .map (.mono (ensures_publish wellFormed operation.input true) ?_)
    rintro command ⟨hbatch, closes⟩
    have hcontract : (CompiledCommand.publish command).contract =
        "meridian.streaming.publish-batch" := if_pos hbatch
    refine wellScoped_of_closes catalog version (contract.trans hcontract.symm) ?_ closes
    rw [hcontract]
    rfl
  case subscribe =>
    refine .map (.mono (ensures_subscribe wellFormed operation.input) fun command closes => ?_)
    exact wellScoped_of_closes catalog version contract rfl closes
  case poll =>
    refine .map (.mono (ensures_poll wellFormed operation.input) fun command closes => ?_)
    exact wellScoped_of_closes catalog version contract rfl closes
  case acknowledge =>
    refine .map (.mono (ensures_acknowledge wellFormed operation.input) fun command closes => ?_)
    exact wellScoped_of_closes catalog version contract rfl closes
  case negative =>
    refine .map (.mono (ensures_negativeAcknowledge wellFormed operation.input)
      fun command closes => ?_)
    exact wellScoped_of_closes catalog version contract rfl closes
  case readRange =>
    refine .map (.mono (ensures_readRange wellFormed operation.input) ?_)
    rintro command ⟨hreplay, closes⟩
    have hcontract : (CompiledCommand.readRange command).contract =
        "meridian.streaming.read-range" := if_neg (by simp [hreplay])
    refine wellScoped_of_closes catalog version (contract.trans hcontract.symm) ?_ closes
    rw [hcontract]
    rfl
  case replay =>
    refine .map (.mono (ensures_replay wellFormed operation.input) ?_)
    rintro command ⟨hreplay, closes⟩
    have hcontract : (CompiledCommand.readRange command).contract =
        "meridian.streaming.replay" := if_pos hreplay
    refine wellScoped_of_closes catalog version (contract.trans hcontract.symm) ?_ closes
    rw [hcontract]
    rfl
  case groupPosition =>
    refine .map (.mono (ensures_groupPosition wellFormed operation.input) fun command closes => ?_)
    exact wellScoped_of_closes catalog version contract rfl closes
  case schema =>
    refine .map (.mono (ensures_validateSchema lib settings operation.input)
      fun command closes => ?_)
    exact wellScoped_of_closes catalog version contract rfl closes
  case resource =>
    refine .map (.mono (ensures_validateResource wellFormed operation.input)
      fun command closes => ?_)
    exact wellScoped_of_closes catalog version contract rfl closes
  case transaction =>
    refine .bind fun _ _ => .map
      (.mono (ensures_transactional wellFormed operation.input) fun command closes => ?_)
    exact wellScoped_of_closes catalog version contract rfl closes

end Methods

namespace Sample

/-- The three parts of a reference: `catalog:namespace/name`, or a mapping with these keys. -/
def parseRef : Value → Checked ResourceRef
  | .str text =>
    match (text.toList.splitOn ':').map (·.splitOn '/') with
    | [[catalog], [namespaceName, name]] =>
      .ok ⟨String.ofList catalog, String.ofList namespaceName, String.ofList name⟩
    | _ => .error none
  | .mapping [(some "catalog", .str catalog), (some "namespace", .str namespaceName),
      (some "name", .str name)] => .ok ⟨catalog, namespaceName, name⟩
  | _ => .error none

def parseSchemaRef : List (Option String × Value) → Checked SchemaRef
  | [(some "catalog", .str catalog), (some "namespace", .str namespaceName),
      (some "name", .str name), (some "version", .str version)] =>
    .ok ⟨catalog, namespaceName, name, version⟩
  | _ => .error none

def core : CoreLibraries where
  parseRef := parseRef
  resourceRef catalog namespaceName name := .ok ⟨catalog, namespaceName, name⟩
  parseSchemaRef := parseSchemaRef

/-- A credential, as a text and as the object that it holds. -/
def credential : String × Json :=
  ("\x7b\"password\":null,\"privateKeyPem\":null,\"privateKeyPassword\":null," ++
      "\"cursorKeys\":[\x7b\"id\":\"k\",\"keyBase64\":" ++
      "\"a2tra2tra2tra2tra2tra2tra2tra2tra2tra2tra2s=\",\"active\":true\x7d]\x7d",
    .obj
      [("password", .null), ("privateKeyPem", .null), ("privateKeyPassword", .null),
        ("cursorKeys", .arr
          [.obj
            [("id", .str "k"),
              ("keyBase64", .str "a2tra2tra2tra2tra2tra2tra2tra2tra2tra2tra2s="),
              ("active", .bool true)]])])

def libraries : Config.Libraries where
  core := core
  jsonLoads text := if text = credential.1 then .ok credential.2 else .error none
  b64decode text := Base64.decode (text.toList.filter (· ≠ '='))
  clientVersion := "2.15.0"
  coreDistributionVersion := "1.1.0"
  semanticsVersion := "2.0.1"
  streamingVersion := "1.0.1"

def fingerprint : Value :=
  .str "sha256:0000000000000000000000000000000000000000000000000000000000000000"

def schema : Value :=
  .object [("catalog", .str "streaming"), ("namespace", .str "a"), ("name", .str "v"),
    ("version", .str "1")]

def resources : Value :=
  .object
    [("streaming:a/e", .object
        [("kind", .str "stream"), ("topic", .str "events"), ("schemaRef", schema),
          ("schemaFingerprint", fingerprint), ("resourceFingerprint", fingerprint),
          ("logicalPartitions", .int 2), ("retentionMs", .int 60000), ("compacted", .bool false)]),
      ("streaming:a/s", .object
        [("kind", .str "subscription"), ("stream", .str "streaming:a/e"),
          ("resourceFingerprint", fingerprint), ("acknowledgementTimeoutMs", .int 5000),
          ("maxDeliveryAttempts", .int 2), ("deadLetterStream", .null), ("filter", .object [])]),
      ("streaming:a/g", .object
        [("kind", .str "consumer-group"), ("subscription", .str "streaming:a/s"),
          ("groupId", .str "group"), ("resourceFingerprint", fingerprint)])]

def context : AdapterCreateContext where
  binding :=
    { id := "binding"
      adapterId := "meridian.kafka"
      adapterContract := "1.0.0"
      engineProfile := "apache-kafka-test"
      engineVersion := "4.3.1"
      endpoint := "fake:9092"
      tls := { mode := .disabled }
      settings := .object
        [("clientId", .str "client"), ("cursorTtlMs", .int 60000), ("saslMechanism", .null),
          ("transactionalId", .str "tx"), ("readCommitted", .bool true),
          ("autoOffsetReset", .str "earliest"), ("sessionTimeoutMs", .int 10000),
          ("maxPollIntervalMs", .int 60000), ("allowPlaintextForTesting", .bool true),
          ("resources", resources)]
      operationTimeoutMs := 250 }
  identity := "p".toUTF8.data.toList
  credential := credential.1.toUTF8.data.toList

/-- The Event of a mapping with just these keys. -/
def eventFromMapping : List (Option String × Value) → Checked Event
  | [(some "eventId", .str eventId), (some "stream", stream), (some "schema", .mapping schema),
      (some "data", .null), (some "occurredAt", .str occurredAt)] => do
    return {
      formatVersion := "1.0.0"
      eventId
      stream := ← parseRef stream
      schema := ← parseSchemaRef schema
      data := .null
      occurredAt
      producedAt := occurredAt
      logicalPartitionKey := none
      headers := []
      traceContext := []
      extensions := [] }
  | _ => .error none

def compiler : CompilerLibraries where
  core := core
  eventFromMapping := eventFromMapping
  maxBatchSize := 100
  maxPollSize := 100
  maxRangeSize := 1000
  maxWaitTimeoutMs := 30000
  reprText text := "'" ++ text ++ "'"

/-- Consume one record and publish another. -/
def operation : Operation where
  catalog := "streaming"
  operationContract := transactionOperationContract
  operationVersion := "1.0.0"
  input := .object
    [("subscription", .str "streaming:a/s"), ("consumerGroup", .str "streaming:a/g"),
      ("limit", .int 1), ("waitTimeoutMs", .int 0), ("delivery", .str "token"),
      ("outputs", .seq
        [.object
          [("resource", .str "streaming:a/e"),
            ("data", .object
              [("eventId", .str "one"), ("stream", .str "streaming:a/e"), ("schema", schema),
                ("data", .null), ("occurredAt", .str "2026-01-01T00:00:00Z")])]])]

/-- Accepting the Binding and compiling the Operation. -/
def run : Checked CompiledCommand := do
  let settings ← fromContext libraries context
  compile compiler settings.toKafkaBindingSettings operation

theorem run_returns : run.toBool = true := by decide +kernel

theorem exists_run : ∃ command, run = .ok command := exists_ok_of_toBool run_returns

end Sample

/-- **Compiled commands are well scoped**, for the settings of every Binding that is
accepted. -/
theorem compiled_command_wellScoped (libraries : Config.Libraries) (lib : CompilerLibraries)
    {context : Config.AdapterCreateContext} {settings : Config.Settings}
    (accepted : fromContext libraries context = .ok settings) {operation : Operation}
    {command : CompiledCommand}
    (compiled : compile lib settings.toKafkaBindingSettings operation = .ok command) :
    WellScoped lib settings.toKafkaBindingSettings operation command :=
  ensures_compile (wellFormed_fromContext context settings accepted) operation command compiled

theorem transactional_command_wellScoped :
    ∃ settings command, fromContext Sample.libraries Sample.context = .ok settings ∧
      compile Sample.compiler settings.toKafkaBindingSettings Sample.operation = .ok command ∧
      WellScoped Sample.compiler settings.toKafkaBindingSettings Sample.operation command := by
  obtain ⟨command, hrun⟩ := Sample.exists_run
  unfold Sample.run at hrun
  obtain ⟨settings, accepted, compiled⟩ := exists_of_bind_eq_ok hrun
  exact ⟨settings, command, accepted, compiled,
    compiled_command_wellScoped Sample.libraries Sample.compiler accepted compiled⟩

end KafkaOperationCompiler

end MeridianKafka
