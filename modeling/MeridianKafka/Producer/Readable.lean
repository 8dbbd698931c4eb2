import MeridianKafka.Compiler.Scope
import MeridianKafka.Config.Client
import MeridianKafka.Consumer.Records
import MeridianKafka.Producer.Engine

/-!
# Published records can be read

The write path meets the read path: the compiler has checked the events of a publication,
the producer writes each as a record, and `_decode_event` reads the record back to the event
it was written from.

The two paths check different things. What makes them agree is that the event names the
Stream that the compiler has looked up, that the fingerprint in the headers is one of the
compatible ones of that Stream, and that the record is small enough to be read: the reader
has a bound, and the writer has none but the one of its client (`reads_record_iff`). A
producer that is configured by the adapter keeps the default of `message.max.bytes`, which is
below the bound of the reader.

What is assumed of the code outside: `json.loads` inverts canonical JSON,
`Event.from_mapping` gives the event back that `to_dict` has taken apart, and the client takes
no message above `message.max.bytes`.
-/

namespace MeridianKafka

open Framework

/-! ### Events and records as bytes -/

/-- Two events are equal: their mappings are compared without the order of the keys. -/
structure Event.Equal (event event' : Event) : Prop where
  formatVersion : event.formatVersion = event'.formatVersion
  eventId : event.eventId = event'.eventId
  stream : event.stream = event'.stream
  schema : event.schema = event'.schema
  data : event.data.sorted = event'.data.sorted
  occurredAt : event.occurredAt = event'.occurredAt
  producedAt : event.producedAt = event'.producedAt
  logicalPartitionKey : event.logicalPartitionKey = event'.logicalPartitionKey
  headers : Json.sortFields event.headers = Json.sortFields event'.headers
  traceContext : Json.sortFields event.traceContext = Json.sortFields event'.traceContext
  extensions : Json.sortFields event.extensions = Json.sortFields event'.extensions

/-- `Event.from_mapping(event.to_dict())` equals the event; the keys stand in order. -/
def Event.RoundTrips (fromMapping : List (String × Json) → Checked Event) (event : Event) : Prop :=
  ∀ fields, event.toDict.sorted = .obj fields →
    ∃ decoded, fromMapping fields = .ok decoded ∧ decoded.Equal event

/-- The parser of `_decode_event`, out of `json.loads` and `Event.from_mapping`. -/
def eventParser (json : JsonModule) (fromMapping : List (String × Json) → Checked Event) :
    EventParser := fun raw =>
  match json.loads raw with
  | some (.obj fields) => fromMapping fields
  | _ => .error none

/-- The header values as bytes: the fingerprint is encoded in ASCII, the others in UTF-8. -/
def encodeHeader (header : String × String) : Option (String × Option (List UInt8)) :=
  if header.1 = "meridian.schema-fingerprint" then
    (ascii header.2).map fun bytes => (header.1, some bytes)
  else some (header.1, some (utf8 header.2))

/-- The message that the topic holds for a record. -/
structure ProducerRecord.Stored (json : JsonModule) (record : ProducerRecord)
    (message : Message) : Prop where
  topic : message.topic = record.topic
  value : ∃ bytes, json.canonicalJsonBytes record.value = .ok bytes ∧ message.value = some bytes
  headers : record.headers.mapM encodeHeader = some message.headers

/-- Every message that the topic may hold for the record is read back as the event. -/
def ProducerRecord.ReadsAs (json : JsonModule) (parse : EventParser) (stream : PhysicalStream)
    (record : ProducerRecord) (event : Event) : Prop :=
  ∀ message, record.Stored json message →
    ∃ decoded, decodeEvent parse message stream = .ok decoded ∧ decoded.Equal event

/-- The bound of `_decode_event`. -/
def maxValueBytes : ℕ := 16 * 1024 * 1024

theorem asciiText_of_ascii {text : String} {bytes : List UInt8} (h : ascii text = some bytes) :
    asciiText bytes = text := by
  unfold ascii at h
  split at h
  · next hall =>
    obtain rfl := Option.some.inj h
    -- each of these characters is one byte, and no byte is filtered out
    have hchars : ∀ cs : List Char, (cs.all fun c => c.toNat < 128) = true →
        ((cs.map fun c => UInt8.ofNat c.toNat).filter (· < 128)).map
          (fun byte => Char.ofNat byte.toNat) = cs := by
      intro cs hcs
      induction cs with
      | nil => rfl
      | cons c cs ih =>
        rw [List.all_cons, Bool.and_eq_true, decide_eq_true_eq] at hcs
        have hbyte : (UInt8.ofNat c.toNat).toNat = c.toNat :=
          UInt8.toNat_ofNat_of_lt' (Nat.lt_trans hcs.1 (by decide))
        have hsmall : (UInt8.ofNat c.toNat < 128) = True := by
          rw [eq_iff_iff, UInt8.lt_iff_toNat_lt, hbyte]
          simpa using hcs.1
        rw [List.map_cons, List.filter_cons_of_pos (by simp [hsmall]), List.map_cons, hbyte,
          Char.ofNat_toNat, ih hcs.2]
    unfold asciiText
    rw [hchars _ hall, String.ofList_toList]
  · simp at h

/-! ### Reading a record back -/

section Read

variable {json : JsonModule} {fromMapping : List (String × Json) → Checked Event}
  {stream : PhysicalStream} {event : Event} {message : Message}

/-- The first value under the name of the fingerprint is the fingerprint of the Stream. -/
theorem header_stored (stored : (KafkaProducerEngine.record stream event).Stored json message) :
    ∃ bytes, header message "meridian.schema-fingerprint" = some bytes ∧
      asciiText bytes = stream.schemaFingerprint := by
  have hheaders := stored.headers
  unfold KafkaProducerEngine.record at hheaders
  rw [List.cons_append, List.cons_append, List.cons_append, List.nil_append] at hheaders
  generalize ((KafkaProducerEngine.traceparent event).map fun value =>
    ("traceparent", value)).toList = later at hheaders
  have hformat : encodeHeader ("meridian.format", event.formatVersion) =
      some ("meridian.format", some (utf8 event.formatVersion)) := if_neg (by simp)
  have hid : encodeHeader ("meridian.event-id", event.eventId) =
      some ("meridian.event-id", some (utf8 event.eventId)) := if_neg (by simp)
  have hfingerprint : encodeHeader ("meridian.schema-fingerprint", stream.schemaFingerprint) =
      (ascii stream.schemaFingerprint).map fun bytes =>
        ("meridian.schema-fingerprint", some bytes) := if_pos rfl
  rw [List.mapM_cons, hformat, List.mapM_cons, hid, List.mapM_cons, hfingerprint] at hheaders
  -- A fingerprint that is not ASCII cannot be encoded, and then nothing was stored.
  cases hascii : ascii stream.schemaFingerprint with
  | none =>
    rw [hascii] at hheaders
    simp at hheaders
  | some bytes =>
    refine ⟨bytes, ?_, asciiText_of_ascii hascii⟩
    rw [hascii] at hheaders
    cases hlater : later.mapM encodeHeader with
    | none =>
      rw [hlater] at hheaders
      simp at hheaders
    | some encoded =>
      rw [hlater] at hheaders
      obtain hmessage := Option.some.inj hheaders
      unfold header
      rw [← hmessage]
      rfl

variable (inverts : json.Inverts) (roundTrips : event.RoundTrips fromMapping)
  (names : event.stream = stream.ref)
  (compatible : stream.schemaFingerprint ∈ stream.compatibleSchemaFingerprints)
  (stored : (KafkaProducerEngine.record stream event).Stored json message)

include inverts roundTrips names compatible stored

/-- A record within the bound of the reader is read back. -/
theorem decodeEvent_stored {bytes : List UInt8}
    (hbytes : json.canonicalJsonBytes event.toDict = .ok bytes)
    (small : bytes.length ≤ maxValueBytes) :
    ∃ decoded, decodeEvent (eventParser json fromMapping) message stream = .ok decoded ∧
      decoded.Equal event := by
  obtain ⟨bytes', hbytes', hvalue⟩ := stored.value
  obtain rfl : bytes' = bytes := Except.ok.inj (hbytes'.symm.trans hbytes)
  obtain ⟨fingerprint, hheader, htext⟩ := header_stored stored
  -- what `json.loads` returns is the mapping of the event, and that makes an equal event
  have hloads := inverts.loads_canonicalJsonBytes hbytes
  obtain ⟨fields, hfields⟩ : ∃ fields, event.toDict.sorted = .obj fields :=
    ⟨_, Json.sorted_obj _⟩
  obtain ⟨decoded, hdecoded, hequal⟩ := roundTrips fields hfields
  have hparse : eventParser json fromMapping bytes' = .ok decoded := by
    unfold eventParser
    rw [hloads, hfields]
    exact hdecoded
  have hbound : ¬bytes'.length > 16 * 1024 * 1024 := not_lt.mpr small
  refine ⟨decoded, ?_, hequal⟩
  unfold decodeEvent
  rw [hvalue]
  dsimp only
  rw [if_neg hbound, hparse]
  dsimp only
  rw [if_neg (not_not.mpr (hequal.stream.trans names)), hheader, Option.any_some, htext,
    if_pos (decide_eq_true compatible)]

/-- **When a published record is read back**, whatever client has taken it: when its value is
within the bound of the reader. -/
theorem reads_record_iff {bytes : List UInt8}
    (hbytes : json.canonicalJsonBytes event.toDict = .ok bytes) :
    (∃ decoded, decodeEvent (eventParser json fromMapping) message stream = .ok decoded ∧
      decoded.Equal event) ↔ bytes.length ≤ maxValueBytes := by
  refine ⟨?_, decodeEvent_stored inverts roundTrips names compatible stored hbytes⟩
  rintro ⟨decoded, hdecoded, -⟩
  by_contra hlarge
  obtain ⟨bytes', hbytes', hvalue⟩ := stored.value
  obtain rfl : bytes' = bytes := Except.ok.inj (hbytes'.symm.trans hbytes)
  have hbound : bytes'.length > 16 * 1024 * 1024 := not_le.mp hlarge
  unfold decodeEvent at hdecoded
  rw [hvalue] at hdecoded
  dsimp only at hdecoded
  rw [if_pos hbound] at hdecoded
  simp at hdecoded

end Read

/-! ### What a publication writes -/

/-- The client has taken the record, whatever it raises after that. -/
def ProduceCalls.Taken : ProduceCalls → Prop
  | .taken _ => True
  | .full none rest => rest.Taken
  | _ => False

/-- The client takes no message above this size. -/
def PublishEnv.TakesUpTo (env : PublishEnv) (json : JsonModule) (command : PublishCommand)
    (maximum : ℕ) : Prop :=
  ∀ i event bytes, command.events[i]? = some event →
    json.canonicalJsonBytes event.toDict = .ok bytes → (env.produce i).Taken →
      bytes.length ≤ maximum

namespace KafkaProducerEngine

theorem mem_produceLoop {record written : ProducerRecord} {calls : ProduceCalls}
    (h : written ∈ (produceLoop record calls).2) : written = record ∧ calls.Taken := by
  induction calls with
  | taken poll =>
    cases poll with
    | none => exact ⟨List.mem_singleton.mp h, trivial⟩
    | some raised => exact ⟨List.mem_singleton.mp h, trivial⟩
  | raises raised => exact absurd h List.not_mem_nil
  | fullAtDeadline => exact absurd h List.not_mem_nil
  | full poll rest ih =>
    cases poll with
    | none => exact ih h
    | some raised => exact absurd h List.not_mem_nil

theorem produceLoop_ok {record : ProducerRecord} {calls : ProduceCalls}
    (h : (produceLoop record calls).1 = .ok ()) : (produceLoop record calls).2 = [record] := by
  induction calls with
  | taken poll =>
    cases poll with
    | none => rfl
    | some raised => rfl
  | raises raised => simp [produceLoop] at h
  | fullAtDeadline => simp [produceLoop] at h
  | full poll rest ih =>
    cases poll with
    | none => exact ih h
    | some raised => simp [produceLoop] at h

theorem mem_produceOne {stream : PhysicalStream} {event : Event} {written : ProducerRecord}
    {calls : ProduceCalls} (h : written ∈ (produceOne stream event calls).2) :
    written = record stream event ∧ calls.Taken := by
  unfold produceOne at h
  split at h
  · exact absurd h List.not_mem_nil
  · exact mem_produceLoop h

theorem produceOne_ok {stream : PhysicalStream} {event : Event} {calls : ProduceCalls}
    (h : (produceOne stream event calls).1 = .ok ()) :
    (produceOne stream event calls).2 = [record stream event] := by
  unfold produceOne at h ⊢
  split at h
  · simp at h
  · next hheaders =>
    rw [if_neg hheaders]
    exact produceLoop_ok h

/-- Every record that is written is the record of an event that the client has taken. -/
theorem mem_produceEvents {stream : PhysicalStream} {produce : ℕ → ProduceCalls}
    {events : List Event} {i : ℕ} {written : ProducerRecord}
    (h : written ∈ (produceEvents stream produce i events).2) :
    ∃ j event, events[j]? = some event ∧ written = record stream event ∧
      (produce (i + j)).Taken := by
  induction events generalizing i with
  | nil => exact absurd h List.not_mem_nil
  | cons event events ih =>
    -- The records of the call are those of the first event, and those of the rest if it was taken.
    have hmem : written ∈ (produceOne stream event (produce i)).2 ∨
        written ∈ (produceEvents stream produce (i + 1) events).2 := by
      rw [produceEvents] at h
      cases hone : produceOne stream event (produce i) with
      | mk answer records =>
        rw [hone] at h
        cases answer with
        | error raised => exact Or.inl h
        | ok u => exact List.mem_append.mp h
    cases hmem with
    | inl hfirst =>
      obtain ⟨hrecord, htaken⟩ := mem_produceOne hfirst
      exact ⟨0, event, rfl, hrecord, htaken⟩
    | inr hlater =>
      obtain ⟨j, event', hevent', hrecord, htaken⟩ := ih hlater
      refine ⟨j + 1, event', hevent', hrecord, ?_⟩
      rwa [show i + (j + 1) = i + 1 + j by omega]

theorem produceEvents_ok {stream : PhysicalStream} {produce : ℕ → ProduceCalls}
    {events : List Event} {i : ℕ} (h : (produceEvents stream produce i events).1 = .ok ()) :
    (produceEvents stream produce i events).2 = events.map (record stream) := by
  induction events generalizing i with
  | nil => rfl
  | cons event events ih =>
    have hone : (produceOne stream event (produce i)).1 = .ok () →
        (produceOne stream event (produce i)).2 = [record stream event] := produceOne_ok
    rw [produceEvents] at h ⊢
    generalize produceOne stream event (produce i) = outcome at h hone ⊢
    obtain ⟨answer, records⟩ := outcome
    cases answer with
    | error raised => simp at h
    | ok u =>
      have hrecords : records = [record stream event] := hone rfl
      change records ++ (produceEvents stream produce (i + 1) events).2 = _
      rw [ih h, hrecords]
      rfl

/-- When every event has been produced, the client has taken each of their records. -/
theorem taken_of_produceEvents_ok {stream : PhysicalStream} {produce : ℕ → ProduceCalls}
    {events : List Event} {i : ℕ} (h : (produceEvents stream produce i events).1 = .ok ()) {j : ℕ}
    (hj : j < events.length) : (produce (i + j)).Taken := by
  induction events generalizing i j with
  | nil => exact absurd hj (Nat.not_lt_zero j)
  | cons event events ih =>
    have hone : (produceOne stream event (produce i)).1 = .ok () →
        (produceOne stream event (produce i)).2 = [record stream event] := produceOne_ok
    have htaken : record stream event ∈ (produceOne stream event (produce i)).2 →
        record stream event = record stream event ∧ (produce i).Taken := mem_produceOne
    rw [produceEvents] at h
    generalize produceOne stream event (produce i) = outcome at h hone htaken
    obtain ⟨answer, records⟩ := outcome
    cases answer with
    | error raised => simp at h
    | ok u =>
      -- every event was taken: the one in question is this one or a later one
      cases j with
      | zero =>
        refine (htaken ?_).2
        rw [hone rfl]
        exact List.mem_singleton_self _
      | succ j =>
        have hlater := ih h (Nat.lt_of_succ_lt_succ hj)
        rwa [show i + (j + 1) = i + 1 + j by omega]

variable {engine : KafkaProducerEngine} {cache : IdempotencyCache} {command : PublishCommand}
  {transactional : Bool} {env : PublishEnv}

/-- A call replays, or it is a new publication, whose records are those of `send`. -/
theorem publish_produced :
    ((engine.publish cache command transactional env).produced = [] ∧
      ∀ rs, (engine.publish cache command transactional env).answer = .ok rs →
        ∃ key fingerprint, command.idempotencyKey = some key ∧
          cache.get? key = some (fingerprint, rs)) ∨
    ((engine.publish cache command transactional env).produced = (send command env).2 ∧
      ∀ rs, (engine.publish cache command transactional env).answer = .ok rs →
        (send command env).1 = .ok rs) := by
  -- Telemetry either lets the receipts through or raises.
  have hanswer : ∀ rs rs' : List PublishReceipt,
      (env.emit.elim (.ok rs) .error : Except Raised _) = .ok rs' → rs = rs' := by
    intro rs rs' h
    cases hemit : env.emit with
    | none => simpa [hemit] using h
    | some raised => simp [hemit] at h
  -- A publication that is made anew produces what it sends.
  have hnew : ∀ key fingerprint,
      (publishNew cache command key fingerprint env).produced = (send command env).2 ∧
      ∀ rs, (publishNew cache command key fingerprint env).answer = .ok rs →
        (send command env).1 = .ok rs := by
    intro key fingerprint
    rcases hsend : send command env with ⟨raised | rs, records⟩
    · rw [publishNew_of_raises hsend]
      exact ⟨rfl, fun rs h => by simp at h⟩
    · rw [publishNew_of_receipts hsend]
      exact ⟨rfl, fun rs' h => congrArg Except.ok (hanswer rs rs' h)⟩
  unfold publish
  cases hfingerprint : engine.sha256Fingerprint command.operation with
  | error raised => exact Or.inl ⟨rfl, fun rs h => by simp at h⟩
  | ok fingerprint =>
    dsimp only
    cases hkey : (if transactional then none else command.idempotencyKey) with
    | none => exact Or.inr (hnew none fingerprint)
    | some key =>
      have hcommand : command.idempotencyKey = some key := by
        split at hkey
        · simp at hkey
        · exact hkey
      dsimp only
      cases hfound : cache.get? key with
      | none => exact Or.inr (hnew (some key) fingerprint)
      | some found =>
        obtain ⟨remembered, rs⟩ := found
        dsimp only
        -- The key is taken: nothing is produced, and only the receipts of the same Event Data
        -- return.
        refine Or.inl ?_
        by_cases hsame : remembered ≠ fingerprint
        · rw [if_pos hsame]
          exact ⟨rfl, fun rs h => by simp at h⟩
        · rw [if_neg hsame]
          refine ⟨rfl, fun rs' h => ⟨key, remembered, hcommand, ?_⟩⟩
          rw [← hanswer rs rs' h, hfound]

end KafkaProducerEngine

/-! ### The two paths together -/

/-- The publications that a command makes. -/
def CompiledCommand.publications : CompiledCommand → List PublishCommand
  | .publish command => [command]
  | .transactionalConsumePublish command => command.outputs
  | _ => []

/-- A publication of a compiled command is about a Stream of the Binding, and its events name
this Stream. -/
theorem KafkaOperationCompiler.WellScoped.publication {lib : CompilerLibraries}
    {settings : KafkaBindingSettings} {operation : Operation} {compiled : CompiledCommand}
    (h : WellScoped lib settings operation compiled) {command : PublishCommand}
    (hmem : command ∈ compiled.publications) :
    (∃ ref, settings.resources.get? ref = some (.stream command.stream)) ∧
      ∀ event ∈ command.events, event.stream = command.stream.ref := by
  have hpublication : ∃ input, PublishScoped lib settings input command := by
    obtain ⟨input, -, -, -, -, -, hscoped⟩ := h.input
    cases compiled with
    | publish c =>
      obtain rfl := List.mem_singleton.mp hmem
      exact ⟨input, hscoped⟩
    | transactionalConsumePublish c =>
      obtain ⟨items, -, -, houtputs⟩ := hscoped.outputs
      obtain ⟨i, hi, rfl⟩ := List.getElem_of_mem hmem
      obtain ⟨-, fields, -, -, houtput⟩ := houtputs.get (houtputs.length_eq ▸ hi) hi
      exact ⟨fields, houtput⟩
    | subscribe _ | poll _ | acknowledge _ | negativeAcknowledge _ | readRange _
    | groupPosition _ | validateSchema _ | validateResource _ =>
      exact absurd hmem List.not_mem_nil
  obtain ⟨input, hpublication⟩ := hpublication
  obtain ⟨value, ref, -, -, hget, -⟩ := hpublication.stream
  exact ⟨⟨ref, hget⟩, fun event hevent => (hpublication.events event hevent).1⟩

section Publish

open Config KafkaProducerEngine

variable {libraries : Libraries} {lib : CompilerLibraries} {context : AdapterCreateContext}
  {settings : Settings} (accepted : fromContext libraries context = .ok settings)
  {operation : Operation} {compiled : CompiledCommand}
  (compiles : KafkaOperationCompiler.compile lib settings.toKafkaBindingSettings operation =
    .ok compiled)
  {command : PublishCommand} (publication : command ∈ compiled.publications)
  {json : JsonModule} (inverts : json.Inverts)
  {fromMapping : List (String × Json) → Checked Event}
  (roundTrips : ∀ event ∈ command.events, event.RoundTrips fromMapping)
  {transactional : Bool} {config : ClientConfig}
  (configured : settings.producerConfig transactional = .ok config)
  {env : PublishEnv} (client : env.TakesUpTo json command config.messageMaxBytes)

include accepted compiles publication inverts roundTrips configured client

/-- A record that the client has taken is read back as the event that it was written from. -/
theorem taken_record_readsAs {i : ℕ} {event : Event} (hevent : command.events[i]? = some event)
    (taken : (env.produce i).Taken) :
    (record command.stream event).ReadsAs json (eventParser json fromMapping) command.stream
      event := by
  have wellFormed := wellFormed_fromContext context settings accepted
  have hscoped := KafkaOperationCompiler.ensures_compile wellFormed operation compiled compiles
  obtain ⟨⟨ref, hget⟩, hnames⟩ := hscoped.publication publication
  have hcompatible := ((wellFormed ref _ hget).fingerprint _ rfl).2
  have hmem := List.mem_of_getElem? hevent
  intro message stored
  obtain ⟨bytes, hbytes, -⟩ := stored.value
  -- the client takes less than the reader: its configuration leaves the default in place
  have hsmall : bytes.length ≤ maxValueBytes := by
    calc bytes.length ≤ config.messageMaxBytes := client i event bytes hevent hbytes taken
      _ = 1000000 := Settings.messageMaxBytes_producerConfig transactional config configured
      _ ≤ maxValueBytes := by decide
  exact decodeEvent_stored inverts (roundTrips event hmem) (hnames event hmem) hcompatible stored
    hbytes hsmall

/-- Whatever a publication ends with, each record on the topic is read back as one of its
events. -/
theorem sent_record_readsAs {written : ProducerRecord} (h : written ∈ (send command env).2) :
    ∃ event ∈ command.events,
      written.ReadsAs json (eventParser json fromMapping) command.stream event := by
  rw [send_records] at h
  obtain ⟨j, event, hevent, rfl, htaken⟩ := mem_produceEvents h
  rw [Nat.zero_add] at htaken
  exact ⟨event, List.mem_of_getElem? hevent, taken_record_readsAs accepted compiles publication
    inverts roundTrips configured client hevent htaken⟩

/-- **Published records are readable.** When `publish` returns, it has replayed what an
earlier call has remembered under the application key, or it has written one record for each
event, in their order, and `_decode_event` reads each back as its event. -/
theorem published_records_readable {engine : KafkaProducerEngine} {cache : IdempotencyCache}
    {receipts : List PublishReceipt}
    (published : (engine.publish cache command transactional env).answer = .ok receipts) :
    ((engine.publish cache command transactional env).produced = [] ∧
      ∃ key fingerprint, command.idempotencyKey = some key ∧
        cache.get? key = some (fingerprint, receipts)) ∨
    List.Forall₂ (fun event written => written = record command.stream event ∧
        written.ReadsAs json (eventParser json fromMapping) command.stream event)
      command.events (engine.publish cache command transactional env).produced := by
  have hcases := @KafkaProducerEngine.publish_produced engine cache command transactional env
  cases hcases with
  | inl replayed => exact Or.inl ⟨replayed.1, replayed.2 receipts published⟩
  | inr sent =>
    -- nothing was replayed, so one record went out for each event
    obtain ⟨hproduced, hsent⟩ := sent
    obtain ⟨hok, -, -⟩ := send_eq_ok_iff.mp (hsent receipts published)
    refine Or.inr ?_
    rw [hproduced, send_records, produceEvents_ok hok, List.forall₂_map_right_iff,
      List.forall₂_same]
    intro event hevent
    obtain ⟨i, hi, rfl⟩ := List.getElem_of_mem hevent
    have htaken := taken_of_produceEvents_ok hok hi
    rw [Nat.zero_add] at htaken
    exact ⟨rfl, taken_record_readsAs accepted compiles publication inverts roundTrips configured
      client (List.getElem?_eq_getElem hi) htaken⟩

end Publish

namespace Published

open Config KafkaProducerEngine

/-! ### A client and a reader of event mappings -/

def text : Option Json → Checked String
  | some (.str value) => .ok value
  | _ => .error none

def optionalText : Option Json → Checked (Option String)
  | some .null => .ok none
  | some (.str value) => .ok (some value)
  | _ => .error none

def object : Option Json → Checked (List (String × Json))
  | some (.obj fields) => .ok fields
  | _ => .error none

def value : Option Json → Checked Json
  | some value => .ok value
  | none => .error none

def resourceRef (fields : List (String × Json)) : Checked ResourceRef := do
  return ⟨← text (fields.lookup "catalog"), ← text (fields.lookup "namespace"),
    ← text (fields.lookup "name")⟩

def schemaRef (fields : List (String × Json)) : Checked SchemaRef := do
  return ⟨← text (fields.lookup "catalog"), ← text (fields.lookup "namespace"),
    ← text (fields.lookup "name"), ← text (fields.lookup "version")⟩

/-- The Event whose fields a mapping holds. -/
def fromMapping (fields : List (String × Json)) : Checked Event := do
  return {
    formatVersion := ← text (fields.lookup "formatVersion")
    eventId := ← text (fields.lookup "eventId")
    stream := ← resourceRef (← object (fields.lookup "stream"))
    schema := ← schemaRef (← object (fields.lookup "schema"))
    data := ← value (fields.lookup "data")
    occurredAt := ← text (fields.lookup "occurredAt")
    producedAt := ← text (fields.lookup "producedAt")
    logicalPartitionKey := ← optionalText (fields.lookup "logicalPartitionKey")
    headers := ← object (fields.lookup "headers")
    traceContext := ← object (fields.lookup "traceContext")
    extensions := ← object (fields.lookup "extensions") }

theorem roundTrips (event : Event) : event.RoundTrips fromMapping := by
  intro fields hfields
  -- The dictionary is dumped with sorted keys: what comes back agrees with the event up to the
  -- order of its fields.
  have hsort : ∀ l, Json.sortFields (Json.sortFields l) = Json.sortFields l := by
    intro l
    have h := Json.sorted_sorted (.obj l)
    rw [Json.sorted_obj, Json.sorted_obj] at h
    exact Json.obj.inj h
  have hstream : ∀ ref : ResourceRef, resourceRef (Json.sortFields
      [("catalog", .str ref.catalog), ("namespace", .str ref.namespaceName),
        ("name", .str ref.name)]) = .ok ref := by
    intro ref
    unfold resourceRef
    simp only [Json.lookup_sortFields (show ([("catalog", Json.str ref.catalog),
      ("namespace", .str ref.namespaceName), ("name", .str ref.name)].map Prod.fst).Nodup
        by simp)]
    rfl
  have hschema : ∀ ref : SchemaRef, schemaRef (Json.sortFields
      [("catalog", .str ref.catalog), ("namespace", .str ref.namespaceName),
        ("name", .str ref.name), ("version", .str ref.version)]) = .ok ref := by
    intro ref
    unfold schemaRef
    simp only [Json.lookup_sortFields (show ([("catalog", Json.str ref.catalog),
      ("namespace", .str ref.namespaceName), ("name", .str ref.name),
      ("version", .str ref.version)].map Prod.fst).Nodup by simp)]
    rfl
  rw [Event.toDict, Json.sorted_obj] at hfields
  -- The eleven keys are distinct, so sorting them does not change what a lookup finds.
  have hlookup := fun key => Json.lookup_sortFields (show
    ([("formatVersion", Json.str event.formatVersion), ("eventId", .str event.eventId),
      ("stream", event.stream.toDict), ("schema", event.schema.toDict), ("data", event.data),
      ("occurredAt", .str event.occurredAt), ("producedAt", .str event.producedAt),
      ("logicalPartitionKey", event.logicalPartitionKey.elim .null .str),
      ("headers", .obj event.headers), ("traceContext", .obj event.traceContext),
      ("extensions", .obj event.extensions)].map Prod.fst).Nodup by simp) key
  rw [Json.obj.inj hfields] at hlookup
  have hkey : optionalText (some (event.logicalPartitionKey.elim Json.null Json.str).sorted) =
      .ok event.logicalPartitionKey := by
    cases event.logicalPartitionKey <;> rfl
  have hobject : ∀ l, object (some (Json.obj l).sorted) = .ok (Json.sortFields l) := by
    intro l
    rw [Json.sorted_obj]
    rfl
  -- `fromMapping` finds each field where `toDict` put it.
  have hread : fromMapping fields = .ok { event with
      data := event.data.sorted
      headers := Json.sortFields event.headers
      traceContext := Json.sortFields event.traceContext
      extensions := Json.sortFields event.extensions } := by
    unfold fromMapping
    simp only [hlookup]
    change (do
      let stream ← resourceRef (← object (some event.stream.toDict.sorted))
      let schema ← schemaRef (← object (some event.schema.toDict.sorted))
      let key ← optionalText (some (event.logicalPartitionKey.elim Json.null Json.str).sorted)
      let headers ← object (some (Json.obj event.headers).sorted)
      let traceContext ← object (some (Json.obj event.traceContext).sorted)
      let extensions ← object (some (Json.obj event.extensions).sorted)
      return {
        formatVersion := event.formatVersion, eventId := event.eventId, stream, schema
        data := event.data.sorted, occurredAt := event.occurredAt
        producedAt := event.producedAt, logicalPartitionKey := key, headers, traceContext
        extensions } : Checked Event) = _
    unfold ResourceRef.toDict SchemaRef.toDict
    simp only [hobject, hkey]
    change (do
      let stream ← resourceRef _
      let schema ← schemaRef _
      return { event with
        stream, schema
        data := event.data.sorted
        headers := Json.sortFields event.headers
        traceContext := Json.sortFields event.traceContext
        extensions := Json.sortFields event.extensions } : Checked Event) = _
    rw [hstream, hschema]
    rfl
  refine ⟨_, hread, ?_⟩
  exact
    { formatVersion := rfl, eventId := rfl, stream := rfl, schema := rfl
      data := Json.sorted_sorted event.data, occurredAt := rfl, producedAt := rfl
      logicalPartitionKey := rfl, headers := hsort event.headers
      traceContext := hsort event.traceContext, extensions := hsort event.extensions }

/-- The calls of a client that refuses a message above its size, and takes any other. -/
def calls (json : JsonModule) (maximum : ℕ) (event : Event) : ProduceCalls :=
  match json.canonicalJsonBytes event.toDict with
  | .error raised => .raises raised
  | .ok bytes => if bytes.length ≤ maximum then .taken none else .raises .other

/-- Such a client, which reports each record at the offset of its place. -/
def env (command : PublishCommand) : PublishEnv where
  produce i := (command.events[i]?).elim .fullAtDeadline (calls plainJson 1000000)
  report i := { message := some (0, i) }

theorem takesUpTo (command : PublishCommand) : (env command).TakesUpTo plainJson command 1000000 := by
  intro i event bytes hevent hbytes htaken
  by_contra hlarge
  have hcalls : (env command).produce i = .raises .other := by
    change (command.events[i]?).elim _ _ = _
    rw [hevent]
    change calls plainJson 1000000 event = _
    unfold calls
    rw [hbytes]
    exact if_neg hlarge
  rw [hcalls] at htaken
  exact htaken

def engine : KafkaProducerEngine where
  sha256Fingerprint _ :=
    .ok "sha256:0000000000000000000000000000000000000000000000000000000000000000"

/-- The calls of a publication inside a transaction, from the Binding to the receipts. -/
def run : Checked (List PublishReceipt) := do
  let settings ← fromContext KafkaOperationCompiler.Sample.libraries
    KafkaOperationCompiler.Sample.context
  let compiled ← KafkaOperationCompiler.compile KafkaOperationCompiler.Sample.compiler
    settings.toKafkaBindingSettings KafkaOperationCompiler.Sample.operation
  let _ ← Checked.ofExcept (settings.producerConfig true)
  match compiled.publications with
  | [command] =>
    match (engine.publish .empty command true (env command)).answer with
    | .ok receipts => .ok receipts
    | .error raised => .error (some raised)
  | _ => .error none

theorem run_returns : run.toBool = true := by decide +kernel

theorem exists_run : ∃ receipts, run = .ok receipts := exists_ok_of_toBool run_returns

end Published

theorem output_records_readable :
    ∃ settings compiled config command receipts,
      Config.fromContext KafkaOperationCompiler.Sample.libraries
        KafkaOperationCompiler.Sample.context = .ok settings ∧
      KafkaOperationCompiler.compile KafkaOperationCompiler.Sample.compiler
        settings.toKafkaBindingSettings KafkaOperationCompiler.Sample.operation = .ok compiled ∧
      settings.producerConfig true = .ok config ∧ compiled.publications = [command] ∧
      (Published.engine.publish .empty command true (Published.env command)).answer =
        .ok receipts ∧
      List.Forall₂ (fun event written =>
          written = KafkaProducerEngine.record command.stream event ∧
          written.ReadsAs plainJson (eventParser plainJson Published.fromMapping) command.stream
            event)
        command.events
        (Published.engine.publish .empty command true (Published.env command)).produced := by
  obtain ⟨receipts, hrun⟩ := Published.exists_run
  unfold Published.run at hrun
  obtain ⟨settings, accepted, hrun⟩ := exists_of_bind_eq_ok hrun
  obtain ⟨compiled, compiles, hrun⟩ := exists_of_bind_eq_ok hrun
  obtain ⟨config, hconfig, hrun⟩ := exists_of_bind_eq_ok hrun
  have configured := Checked.ofExcept_eq_ok_iff.mp hconfig
  -- The operation compiles to a single publication; the other lists contradict the run.
  cases hpublications : compiled.publications with
  | nil =>
    rw [hpublications] at hrun
    simp at hrun
  | cons command later =>
    cases later with
    | cons _ _ =>
      rw [hpublications] at hrun
      simp at hrun
    | nil =>
      rw [hpublications] at hrun
      dsimp only at hrun
      cases published :
          (Published.engine.publish .empty command true (Published.env command)).answer with
      | error raised =>
        rw [published] at hrun
        simp at hrun
      | ok receipts' =>
        have hmem : command ∈ compiled.publications := by
          rw [hpublications]
          exact List.mem_singleton_self command
        have hmaximum := Config.Settings.messageMaxBytes_producerConfig true config configured
        have client : (Published.env command).TakesUpTo plainJson command
            config.messageMaxBytes := by
          rw [hmaximum]
          exact Published.takesUpTo command
        have hreadable := published_records_readable accepted compiles hmem plainJson_inverts
          (fun event _ => Published.roundTrips event) configured client published
        refine ⟨settings, compiled, config, command, receipts', accepted, compiles, configured,
          hpublications, published, ?_⟩
        -- The cache was empty, so the answer was not a replay.
        cases hreadable with
        | inr readable => exact readable
        | inl replayed =>
          obtain ⟨-, key, fingerprint, -, hcached⟩ := replayed
          exact absurd hcached (by simp)

end MeridianKafka
