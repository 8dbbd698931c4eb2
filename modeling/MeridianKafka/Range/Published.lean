import MeridianKafka.Cursor.Sealing
import MeridianKafka.Producer.Callbacks
import Mathlib.Logic.Relation

/-!
# What is published is what is read

A topic that only publications write to, between the two sides of the adapter. Any number of
calls of `publish` may write to it, on any engines, with or without a transaction, one after
the other or at the same time, and whatever they end with (`TopicLog.Filled`).

Every record of such a topic is read back as an event that was published (`Filled.reads`), so
nothing in it makes a read fail. A range of it that is read page by page has each of its
records on one page, and an event that has a receipt is where its receipt says
(`published_events_paged`).

The writers need not have the Schema of the reader: it is enough that the reader takes theirs
for compatible (`PhysicalStream.ReadableAs`).
-/

namespace MeridianKafka

open Framework Config KafkaProducerEngine

/-! ### Publications -/

/-- A call of `publish`. -/
structure Publication where
  engine : KafkaProducerEngine
  cache : IdempotencyCache
  command : PublishCommand
  transactional : Bool
  env : PublishEnv

namespace Publication

variable (libraries : Libraries) (lib : CompilerLibraries) (json : JsonModule)
  (fromMapping : List (String × Json) → Checked Event) (x : Publication)

def outcome : PublishOutcome := x.engine.publish x.cache x.command x.transactional x.env

/-- The command was compiled for a Binding, and the producer is configured for it. -/
structure Accepted : Prop where
  compiled : ∃ context settings operation compiled config,
    fromContext libraries context = .ok settings ∧
    KafkaOperationCompiler.compile lib settings.toKafkaBindingSettings operation = .ok compiled ∧
    x.command ∈ compiled.publications ∧
    settings.producerConfig x.transactional = .ok config ∧
    x.env.TakesUpTo json x.command config.messageMaxBytes
  roundTrips : ∀ event ∈ x.command.events, event.RoundTrips fromMapping

/-- A place that a callback reports has the record, as soon as it can be read. -/
def ReportedIn (log : TopicLog) : Prop :=
  ∀ i event p o, x.command.events[i]? = some event → (x.env.report i).error = none →
    (x.env.report i).message = some (p, o) → o < log.high p →
      ∃ m, log.records p o = some m ∧ (record x.command.stream event).Stored json m

/-- The publication has written the event, and this is the receipt for it. -/
structure Returned (event : Event) (receipt : PublishReceipt) : Prop where
  wrote : x.outcome.produced ≠ []
  receipt : ∃ (receipts : List PublishReceipt) (i : ℕ), x.outcome.answer = .ok receipts ∧
    x.command.events[i]? = some event ∧ receipts[i]? = some receipt

variable {x}

/-- What a publication writes are records of its events. -/
theorem mem_produced {written : ProducerRecord} (h : written ∈ x.outcome.produced) :
    ∃ i event, x.command.events[i]? = some event ∧ written = record x.command.stream event ∧
      (x.env.produce i).Taken := by
  have hcases := @publish_produced x.engine x.cache x.command x.transactional x.env
  rcases hcases with ⟨hnone, -⟩ | ⟨hproduced, -⟩
  · rw [outcome, hnone] at h
    exact absurd h List.not_mem_nil
  · rw [outcome, hproduced, send_records] at h
    obtain ⟨i, event, hevent, hwritten, htaken⟩ := mem_produceEvents h
    rw [Nat.zero_add] at htaken
    exact ⟨i, event, hevent, hwritten, htaken⟩

/-- An event with a receipt has been written, and the place in the receipt is the one of its
callback. -/
theorem Returned.reported {event : Event} {receipt : PublishReceipt}
    (h : x.Returned event receipt) :
    ∃ i, x.command.events[i]? = some event ∧ (x.env.produce i).Taken ∧
      record x.command.stream event ∈ x.outcome.produced ∧ (x.env.report i).error = none ∧
      (x.env.report i).message = some (receipt.position.partition, receipt.position.offset) := by
  obtain ⟨receipts, i, hanswer, hevent, hreceipt⟩ := h.receipt
  have hcases := @publish_produced x.engine x.cache x.command x.transactional x.env
  rcases hcases with ⟨hnone, -⟩ | ⟨hproduced, hsent⟩
  · exact absurd hnone h.wrote
  · obtain ⟨hok, -, hreceipts⟩ := send_eq_ok_iff.mp (hsent receipts hanswer)
    obtain ⟨receipt', hreceipt', -, herror, hmessage⟩ := (receipts_ok hreceipts).2 i event hevent
    obtain rfl := Option.some.inj (hreceipt'.symm.trans hreceipt)
    have htaken := taken_of_produceEvents_ok hok (List.getElem?_eq_some_iff.mp hevent).1
    rw [Nat.zero_add] at herror hmessage htaken
    refine ⟨i, hevent, htaken, ?_, herror, hmessage⟩
    rw [outcome, hproduced, send_records, produceEvents_ok hok]
    exact List.mem_map_of_mem (List.mem_of_getElem? hevent)

end Publication

/-! ### Reading with another Schema -/

/-- The two name one Stream, and the Schema of the writer is compatible with that of the
reader. -/
structure PhysicalStream.ReadableAs (writer reader : PhysicalStream) : Prop where
  ref : writer.ref = reader.ref
  compatible : writer.schemaFingerprint ∈ reader.compatibleSchemaFingerprints

theorem decodeEvent_of_readableAs {json : JsonModule} {parse : EventParser}
    {writer reader : PhysicalStream} (h : writer.ReadableAs reader) {event decoded : Event}
    {m : Message} (stored : (record writer event).Stored json m)
    (hdecode : decodeEvent parse m writer = .ok decoded) :
    decodeEvent parse m reader = .ok decoded := by
  obtain ⟨fingerprint, hheader, htext⟩ := header_stored stored
  unfold decodeEvent at hdecode ⊢
  cases hvalue : m.value with
  | none =>
    rw [hvalue] at hdecode
    simp at hdecode
  | some raw =>
  rw [hvalue] at hdecode
  dsimp only at hdecode ⊢
  by_cases hlarge : raw.length > 16 * 1024 * 1024
  · rw [if_pos hlarge] at hdecode
    simp at hdecode
  rw [if_neg hlarge] at hdecode ⊢
  -- the two differ only in the fingerprints that they take
  cases hparse : parse raw with
  | error raised =>
    rw [hparse] at hdecode
    cases raised <;> simp at hdecode
  | ok parsed =>
  rw [hparse] at hdecode
  dsimp only at hdecode ⊢
  by_cases hother : parsed.stream ≠ writer.ref
  · rw [if_pos hother] at hdecode
    simp at hdecode
  rw [if_neg hother] at hdecode
  rw [if_neg (h.ref ▸ hother), hheader, Option.any_some, htext,
    if_pos (decide_eq_true h.compatible)]
  split at hdecode
  · exact hdecode
  · simp at hdecode

/-! ### Topics -/

section Topics

variable (libraries : Libraries) (lib : CompilerLibraries) (json : JsonModule)
  (fromMapping : List (String × Json) → Checked Event) (stream : PhysicalStream)

/-- The topic holds the message for a record that the publication has written. -/
structure Publication.Stores (x : Publication) (m : Message) : Prop where
  accepted : x.Accepted libraries lib json fromMapping
  readable : x.command.stream.ReadableAs stream
  written : ∃ written ∈ x.outcome.produced, written.Stored json m

/-- The message is the record of this event. -/
structure Publication.StoresAs (x : Publication) (m : Message) (event : Event) : Prop where
  stores : x.Stores libraries lib json fromMapping stream m
  taken : ∃ i, x.command.events[i]? = some event ∧ (x.env.produce i).Taken
  stored : (record x.command.stream event).Stored json m

namespace TopicLog

/-- From the one log to the other, the topic grows by records of publications. -/
structure Writes (log log' : TopicLog) : Prop where
  grows : log.Grows log'
  written : ∀ p o m, log.high p ≤ o → log'.records p o = some m →
    ∃ x : Publication, x.Stores libraries lib json fromMapping stream m

/-- A topic that was empty once, and that publications have written to since. -/
def Filled (log : TopicLog) : Prop :=
  ∃ empty : TopicLog, (∀ p o, empty.records p o = none) ∧
    Relation.ReflTransGen (Writes libraries lib json fromMapping stream) empty log

end TopicLog

variable {libraries lib json fromMapping stream}

theorem Publication.Stores.exists_event {x : Publication} {m : Message}
    (h : x.Stores libraries lib json fromMapping stream m) :
    ∃ event, x.StoresAs libraries lib json fromMapping stream m event := by
  obtain ⟨written, hwritten, hstored⟩ := h.written
  obtain ⟨i, event, hevent, rfl, htaken⟩ := Publication.mem_produced hwritten
  exact ⟨event, h, ⟨i, hevent, htaken⟩, hstored⟩

/-- A published event is read back. -/
theorem Publication.StoresAs.reads {x : Publication} {m : Message} {event : Event}
    (h : x.StoresAs libraries lib json fromMapping stream m event) (inverts : json.Inverts) :
    ∃ decoded, decodeEvent (eventParser json fromMapping) m stream = .ok decoded ∧
      decoded.Equal event := by
  obtain ⟨context, settings, operation, compiled, config, accepted, compiles, publication,
    configured, client⟩ := h.stores.accepted.compiled
  obtain ⟨i, hevent, htaken⟩ := h.taken
  obtain ⟨decoded, hdecode, hequal⟩ := taken_record_readsAs accepted compiles publication inverts
    h.stores.accepted.roundTrips configured client hevent htaken m h.stored
  exact ⟨decoded, decodeEvent_of_readableAs h.stores.readable h.stored hdecode, hequal⟩

/-- **Every record of a topic that only publications write to is a published event.** The
induction is on the growth of the topic. -/
theorem TopicLog.Filled.stores {log : TopicLog}
    (h : log.Filled libraries lib json fromMapping stream) {p o : ℕ} {m : Message}
    (hm : log.records p o = some m) :
    ∃ x : Publication, x.Stores libraries lib json fromMapping stream m := by
  obtain ⟨empty, hempty, hwrites⟩ := h
  induction hwrites with
  | refl =>
    rw [hempty] at hm
    simp at hm
  | @tail before after _ hstep ih =>
    -- the record is a new one, or it was there before
    rcases le_or_gt (before.high p) o with hnew | hold
    · exact hstep.written p o m hnew hm
    · rw [hstep.grows.records p o hold] at hm
      exact ih hm

/-- Every record of such a topic is read as the event that it was published from. -/
theorem TopicLog.Filled.reads {log : TopicLog}
    (h : log.Filled libraries lib json fromMapping stream) (inverts : json.Inverts) {p o : ℕ}
    {m : Message} (hm : log.records p o = some m) :
    ∃ (x : Publication) (event decoded : Event),
      x.StoresAs libraries lib json fromMapping stream m event ∧
      decodeEvent (eventParser json fromMapping) m stream = .ok decoded ∧ decoded.Equal event := by
  obtain ⟨x, hstores⟩ := h.stores hm
  obtain ⟨event, hstoresAs⟩ := hstores.exists_event
  obtain ⟨decoded, hdecode, hequal⟩ := hstoresAs.reads inverts
  exact ⟨x, event, decoded, hstoresAs, hdecode, hequal⟩

/-- The event of a receipt is read at the place in the receipt. -/
theorem Publication.Returned.reads {x : Publication} {event : Event} {receipt : PublishReceipt}
    (h : x.Returned event receipt) (accepted : x.Accepted libraries lib json fromMapping)
    (readable : x.command.stream.ReadableAs stream) (inverts : json.Inverts) {log : TopicLog}
    (reported : x.ReportedIn json log)
    (visible : receipt.position.offset < log.high receipt.position.partition) :
    ∃ (m : Message) (decoded : Event),
      log.records receipt.position.partition receipt.position.offset = some m ∧
      decodeEvent (eventParser json fromMapping) m stream = .ok decoded ∧ decoded.Equal event := by
  obtain ⟨i, hevent, htaken, hproduced, herror, hmessage⟩ := h.reported
  obtain ⟨m, hm, hstored⟩ := reported i event _ _ hevent herror hmessage visible
  have hstoresAs : x.StoresAs libraries lib json fromMapping stream m event :=
    ⟨⟨accepted, readable, _, hproduced, hstored⟩, ⟨i, hevent, htaken⟩, hstored⟩
  obtain ⟨decoded, hdecode, hequal⟩ := hstoresAs.reads inverts
  exact ⟨m, decoded, hm, hdecode, hequal⟩

end Topics

/-! ### Pages -/

namespace KafkaRangeReader

variable {Token : Type} {reader : KafkaRangeReader Token} {command : ReadRangeCommand Token}
  {bounds : RangeBounds}

/-- The events are those of their records. -/
def Decodes (reader : KafkaRangeReader Token) (stream : PhysicalStream) (events : List RangeEvent) :
    Prop :=
  ∀ e ∈ events, decodeEvent reader.parseEvent e.record stream = .ok e.event

theorem decodes_handle {s s' : RangeState} {poll : RangePoll}
    (h : reader.handle command bounds s poll = .ok s')
    (hs : reader.Decodes command.stream s.events) :
    reader.Decodes command.stream s'.events := by
  cases poll with
  | raised raised => simp [handle] at h
  | error error => simp [handle] at h
  | none =>
    obtain rfl := Except.ok.inj h
    exact hs
  | endOfPartition q offset =>
    rw [(advance_ok h).2.1]
    exact hs
  | record m =>
    unfold handle at h
    dsimp only at h
    split at h
    · simp at h
    next advanced hadvance =>
    have hevents := (advance_ok hadvance).2.1
    split at h
    · simp at h
    split at h
    · obtain rfl := Except.ok.inj h
      rw [hevents]
      exact hs
    split at h
    · simp at h
    next event hdecode =>
    obtain rfl := Except.ok.inj h
    intro e he
    rw [hevents, List.mem_append, List.mem_singleton] at he
    rcases he with he | rfl
    · exact hs e he
    · exact hdecode

theorem decodes_readLoop {polls : List RangePoll} {s s' : RangeState}
    (h : reader.readLoop command bounds s polls = .ok s')
    (hs : reader.Decodes command.stream s.events) : reader.Decodes command.stream s'.events := by
  induction polls generalizing s with
  | nil =>
    obtain rfl := Except.ok.inj h
    exact hs
  | cons poll polls ih =>
    rcases readLoop_cons h with ⟨rfl, -⟩ | ⟨t, hhandle, hloop, -⟩
    · exact hs
    · exact ih hloop (decodes_handle hhandle hs)

theorem decodes_read {env : RangeEnv} {page : RangePage Token}
    (h : reader.read command env = .ok page) : reader.Decodes command.stream page.events := by
  obtain ⟨bounds, s, -, hloop, -, hevents, -⟩ := read_ok h
  rw [hevents]
  exact decodes_readLoop hloop fun e he => absurd he List.not_mem_nil

theorem decodes_readPages {envs : List RangeEnv} {pages : List (RangePage Token)}
    (h : reader.readPages command envs = .ok pages) :
    reader.Decodes command.stream (pages.flatMap (·.events)) := by
  induction envs generalizing command pages with
  | nil =>
    obtain rfl := Except.ok.inj h
    exact fun e he => absurd he List.not_mem_nil
  | cons env envs ih =>
    unfold readPages at h
    split at h
    · simp at h
    next page hread =>
    have hpage := decodes_read hread
    split at h
    · split at h
      · simp at h
      next rest hrest =>
      obtain rfl := Except.ok.inj h
      intro e he
      rw [List.flatMap_cons, List.mem_append] at he
      exact he.elim (hpage e) (ih hrest e)
    · obtain rfl := Except.ok.inj h
      rwa [List.flatMap_singleton]

/-- The records of a partition in a list of pages. -/
theorem filter_map_record (pages : List (RangePage Token)) (p : ℕ) :
    ((pages.flatMap (·.events)).map RangeEvent.record).filter (fun m => m.partition = p) =
      pages.flatMap (·.recordsOf p) := by
  rw [List.map_flatMap, List.filter_flatMap]
  rfl

end KafkaRangeReader

/-- The events at one place of the topic, in a list of pages. -/
def eventsAt {Token : Type} (pages : List (RangePage Token)) (p o : ℕ) : List RangeEvent :=
  (pages.flatMap (·.events)).filter fun e => e.record.partition = p ∧ e.record.offset = o

/-- In pages that hold a range, each record of it is once. -/
theorem HoldRange.eventsAt_eq {Token : Type} {log : TopicLog} {partitions : List ℕ}
    {start ends : ℕ → ℕ} {pages : List (RangePage Token)}
    (h : HoldRange log partitions start ends pages) {p o : ℕ} {m : Message} (hp : p ∈ partitions)
    (hm : log.records p o = some m) (hstart : start p ≤ o) (hend : o < ends p) :
    ∃ e ∈ pages.flatMap (·.events), eventsAt pages p o = [e] ∧ e.record = m := by
  have hone : (eventsAt pages p o).map RangeEvent.record = [m] := by
    calc (eventsAt pages p o).map RangeEvent.record
        = (((pages.flatMap (·.events)).map RangeEvent.record).filter
            fun m => m.partition = p).filter fun m => m.offset = o := by
          unfold eventsAt
          rw [List.filter_filter, List.filter_map]
          congr 1
          refine List.filter_congr fun e _ => ?_
          simp [Bool.and_comm]
      _ = (log.visible p (start p) (ends p)).filter fun m => m.offset = o := by
          rw [KafkaRangeReader.filter_map_record, h.records p hp]
      _ = [m] := filter_window_eq (fun _ _ h => (log.keyed h).2) hm hstart hend
  obtain ⟨e, he, hrecord⟩ := List.map_eq_singleton_iff.mp hone
  have hmem : e ∈ eventsAt pages p o := he ▸ List.mem_singleton_self e
  exact ⟨e, List.mem_of_mem_filter hmem, he, hrecord⟩

namespace KafkaRangeReader

section Published

variable {libraries : Libraries} {lib : CompilerLibraries} {json : JsonModule}
  {fromMapping : List (String × Json) → Checked Event} {Token : Type}

/-- The pages of a range of such a topic hold its events. -/
structure HoldEvents (libraries : Libraries) (lib : CompilerLibraries) (json : JsonModule)
    (fromMapping : List (String × Json) → Checked Event) (stream : PhysicalStream) (log : TopicLog)
    (partitions : List ℕ) (start ends : ℕ → ℕ) (pages : List (RangePage Token)) : Prop where
  records : ∀ p ∈ partitions, pages.flatMap (·.recordsOf p) = log.visible p (start p) (ends p)
  published : ∀ p ∈ partitions, ∀ e ∈ pages.flatMap (·.events), e.record.partition = p →
    ∃ (x : Publication) (event : Event),
      x.StoresAs libraries lib json fromMapping stream e.record event ∧ e.event.Equal event
  /-- An event with a receipt is once on the pages, at the place in its receipt. -/
  receipted : ∀ (x : Publication) (event : Event) (receipt : PublishReceipt),
    x.Accepted libraries lib json fromMapping → x.command.stream.ReadableAs stream →
    x.ReportedIn json log → x.Returned event receipt → receipt.position.partition ∈ partitions →
    start receipt.position.partition ≤ receipt.position.offset →
    receipt.position.offset < ends receipt.position.partition →
      ∃ e, eventsAt pages receipt.position.partition receipt.position.offset = [e] ∧
        e.event.Equal event

/-- Pages that hold a range of a topic that was published hold its events. -/
theorem holdEvents_of_holdRange {reader : KafkaRangeReader Token}
    (parses : reader.parseEvent = eventParser json fromMapping) (inverts : json.Inverts)
    {log : TopicLog} {stream : PhysicalStream}
    (filled : log.Filled libraries lib json fromMapping stream) {partitions : List ℕ}
    {start ends : ℕ → ℕ} (reached : ∀ p ∈ partitions, ends p ≤ log.high p)
    {pages : List (RangePage Token)} (holds : HoldRange log partitions start ends pages)
    (decodes : reader.Decodes stream (pages.flatMap (·.events))) :
    HoldEvents libraries lib json fromMapping stream log partitions start ends pages := by
  unfold Decodes at decodes
  rw [parses] at decodes
  refine ⟨holds.records, fun p hp e he hpartition => ?_, ?_⟩
  · -- the record of the event is one of the topic
    have hmem : e.record ∈ pages.flatMap (·.recordsOf p) := by
      rw [← filter_map_record, List.mem_filter]
      exact ⟨List.mem_map_of_mem he, decide_eq_true hpartition⟩
    rw [holds.records p hp] at hmem
    obtain ⟨x, event, decoded, hstores, hdecode, hequal⟩ :=
      filled.reads inverts (TopicLog.mem_visible_iff.mp hmem).1
    obtain rfl : decoded = e.event := Except.ok.inj (hdecode.symm.trans (decodes e he))
    exact ⟨x, event, hstores, hequal⟩
  · intro x event receipt haccepted hreadable hreported hreturned hp hstart hend
    obtain ⟨m, decoded, hm, hdecode, hequal⟩ := hreturned.reads haccepted hreadable inverts
      hreported (hend.trans_le (reached _ hp))
    obtain ⟨e, he, hat, hrecord⟩ := holds.eventsAt_eq hp hm hstart hend
    rw [← hrecord] at hdecode
    obtain rfl : decoded = e.event := Except.ok.inj (hdecode.symm.trans (decodes e he))
    exact ⟨e, hat, hequal⟩

/-- The range reader of a runtime. -/
def ofRuntime (tokens : CodecLibraries) (fromMapping : List (String × Json) → Checked Event)
    (codec : SignedCursorCodec) : KafkaRangeReader String where
  cursor := codec.engineCodec tokens
  parseEvent := eventParser tokens.json fromMapping

/-- **What is published is what is read.** On a topic that only publications write to, whatever
they have written, a range is read page by page with the signed cursors of a runtime, and
nothing but the cursors can make that fail (`Smooth`). Then each of its records is on one page,
as the event that it was published from, and an event with a receipt is at the place in the
receipt. -/
theorem published_events_paged {tokens : CodecLibraries} (inverts : tokens.json.Inverts)
    {keys : List TokenKey} {ttlMs : ℕ} {codec : SignedCursorCodec}
    (created : SignedCursorCodec.create keys ttlMs = .ok codec)
    (unique : (keys.map TokenKey.keyId).Nodup) {log : TopicLog} {command : ReadRangeCommand String}
    (filled : log.Filled libraries lib tokens.json fromMapping command.stream)
    {partitions : List ℕ} (bounded : partitions.length ≤ maxCursorPartitions)
    {start ends : ℕ → ℕ} {env : RangeEnv} {envs : List RangeEnv} (limit : 1 ≤ command.limit)
    (begins : (ofRuntime tokens fromMapping codec).Names env.decodedMs command.stream partitions
      log.low start command.source)
    (retained : Retained log partitions start ends)
    (served : (ofRuntime tokens fromMapping codec).Served codec.ttlMs log partitions ends command
      (env :: envs))
    (long : (partitions.map fun p => ends p - start p).sum ≤ envs.length) :
    ((∃ pages, (ofRuntime tokens fromMapping codec).readPages command (env :: envs) = .ok pages) ↔
      (ofRuntime tokens fromMapping codec).Smooth command (env :: envs)) ∧
    ∀ pages, (ofRuntime tokens fromMapping codec).readPages command (env :: envs) = .ok pages →
      HoldEvents libraries lib tokens.json fromMapping command.stream log partitions start ends
        pages := by
  have hdecodable :
      Decodable (ofRuntime tokens fromMapping codec) command.stream log partitions := by
    intro p _ o m hm
    obtain ⟨-, -, decoded, -, hdecode, -⟩ := filled.reads inverts hm
    exact ⟨decoded, hdecode⟩
  have hspec := chainSpec (SignedCursorCodec.engineCodec_sealsCursors inverts created unique)
    bounded envs env command start limit hdecodable begins retained served long
  exact ⟨hspec.returns, fun pages hpages => holdEvents_of_holdRange rfl inverts filled
    retained.reached (hspec.holds pages hpages) (decodes_readPages hpages)⟩

end Published

end KafkaRangeReader

namespace PublishedSample

open KafkaOperationCompiler (compile)
open KafkaOperationCompiler.Sample (libraries context compiler operation)
open Sample (signingCodec signingKey)

def publication (command : PublishCommand) : Publication where
  engine := Published.engine
  cache := .empty
  command
  transactional := true
  env := Published.env command

/-- What the topic holds for an event, at its beginning. -/
def message (stream : PhysicalStream) (event : Event) : Option Message :=
  match plainJson.canonicalJsonBytes event.toDict,
    (record stream event).headers.mapM encodeHeader with
  | .ok bytes, some headers =>
    some { topic := stream.topic, partition := 0, offset := 0, value := some bytes, headers }
  | _, _ => none

/-- The payload of the cursor behind the first record is small enough to be signed. -/
def sealed (stream : PhysicalStream) : Bool :=
  (Sample.libraries.json.canonicalJsonBytes (.obj (SignedCursorCodec.payload Sample.libraries
    .cursor stream.ref stream.topic (.set .empty 0 1) 0 1000))).toOption.any (·.length ≤ 2900)

/-- What a publication of one event writes, and the receipt for it. -/
def written (command : PublishCommand) : Checked (Event × PublishReceipt × Message) :=
  match command.events, (publication command).outcome.answer with
  | [event], .ok [receipt] =>
    match message command.stream event with
    | some m =>
      if (publication command).outcome.produced ≠ [] ∧ receipt.position.partition = 0 ∧
          receipt.position.offset = 0 ∧
          command.stream.schemaFingerprint ∈ command.stream.compatibleSchemaFingerprints ∧
          sealed command.stream then
        .ok (event, receipt, m)
      else .error none
    | none => .error none
  | _, _ => .error none

/-- The publication of a compiled operation. -/
def run : Checked (PublishCommand × Event × PublishReceipt × Message) := do
  let settings ← fromContext libraries context
  let compiled ← compile compiler settings.toKafkaBindingSettings operation
  let _ ← Checked.ofExcept (settings.producerConfig true)
  match compiled.publications with
  | [command] => return (command, ← written command)
  | _ => .error none

theorem run_returns : run.toBool = true := by decide +kernel

theorem message_stored {stream : PhysicalStream} {event : Event} {m : Message}
    (h : message stream event = some m) :
    (record stream event).Stored plainJson m ∧ m.topic = stream.topic ∧ m.partition = 0 ∧
      m.offset = 0 := by
  unfold message at h
  split at h
  · next bytes headers hbytes hheaders =>
    obtain rfl := Option.some.inj h
    exact ⟨⟨rfl, ⟨bytes, hbytes, rfl⟩, hheaders⟩, rfl, rfl, rfl⟩
  · simp at h

/-- A publication with one event and the message that the topic holds for it. -/
structure Made (command : PublishCommand) (event : Event) (receipt : PublishReceipt) (m : Message) :
    Prop where
  accepted : (publication command).Accepted libraries compiler plainJson Published.fromMapping
  readable : command.stream.ReadableAs command.stream
  events : command.events = [event]
  returned : (publication command).Returned event receipt
  place : receipt.position.partition = 0 ∧ receipt.position.offset = 0
  stored : (record command.stream event).Stored plainJson m
  named : m.topic = command.stream.topic
  isSealed : sealed command.stream = true
  first : m.partition = 0 ∧ m.offset = 0

theorem made_of_run {command : PublishCommand} {event : Event} {receipt : PublishReceipt}
    {m : Message} (hrun : run = .ok (command, event, receipt, m)) :
    Made command event receipt m := by
  unfold run at hrun
  obtain ⟨settings, accepted, hrun⟩ := exists_of_bind_eq_ok hrun
  obtain ⟨compiled, compiles, hrun⟩ := exists_of_bind_eq_ok hrun
  obtain ⟨config, hconfig, hrun⟩ := exists_of_bind_eq_ok hrun
  have configured := Checked.ofExcept_eq_ok_iff.mp hconfig
  split at hrun
  swap
  · simp at hrun
  next command' hpublications =>
  obtain ⟨made, hwritten, hrun⟩ := exists_of_bind_eq_ok hrun
  obtain ⟨rfl, rfl⟩ := Prod.mk.inj (Except.ok.inj hrun)
  unfold written at hwritten
  split at hwritten
  swap
  · simp at hwritten
  next event' receipt' hevents hanswer =>
  split at hwritten
  swap
  · simp at hwritten
  next m' hm =>
  split at hwritten
  swap
  · simp at hwritten
  next hchecked =>
  obtain ⟨hwrote, hpartition, hoffset, hcompatible, hsealed⟩ := hchecked
  simp only [Except.ok.injEq, Prod.mk.injEq] at hwritten
  obtain ⟨rfl, rfl, rfl⟩ := hwritten
  obtain ⟨hstored, htopic, hfirst⟩ := message_stored hm
  have hmem : command' ∈ compiled.publications := hpublications ▸ List.mem_singleton_self _
  have client : (Published.env command').TakesUpTo plainJson command' config.messageMaxBytes := by
    rw [Settings.messageMaxBytes_producerConfig true config configured]
    exact Published.takesUpTo command'
  have hevent : command'.events[0]? = some event' := by
    rw [hevents]
    rfl
  exact
    { accepted :=
        { compiled := ⟨context, settings, operation, compiled, config, accepted, compiles, hmem,
            configured, client⟩
          roundTrips := fun event _ => Published.roundTrips event }
      readable := ⟨rfl, hcompatible⟩
      events := hevents
      returned := ⟨hwrote, [receipt'], 0, hanswer, hevent, rfl⟩
      place := ⟨hpartition, hoffset⟩
      stored := hstored
      named := htopic
      isSealed := hsealed
      first := hfirst }

theorem exists_made : ∃ command event receipt m, Made command event receipt m := by
  obtain ⟨⟨command, event, receipt, m⟩, hrun⟩ := exists_ok_of_toBool run_returns
  exact ⟨command, event, receipt, m, made_of_run hrun⟩

/-- A topic with this one message. -/
def topic (m : Message) : TopicLog where
  records p o := if p = m.partition ∧ o = m.offset then some m else none
  low _ := 0
  high p := if p = m.partition then m.offset + 1 else 0
  keyed h := by
    split at h
    · next hplace =>
      obtain rfl := Option.some.inj h
      exact ⟨hplace.1.symm, hplace.2.symm⟩
    · simp at h
  bounded h := by
    split at h
    · next hplace =>
      rw [if_pos hplace.1]
      omega
    · simp at h

def nothing : TopicLog where
  records _ _ := none
  low _ := 0
  high _ := 0
  keyed h := by simp at h
  bounded h := by simp at h

variable {command : PublishCommand} {event : Event} {receipt : PublishReceipt} {m : Message}

theorem Made.stores (h : Made command event receipt m) :
    (publication command).Stores libraries compiler plainJson Published.fromMapping command.stream
      m := by
  obtain ⟨-, -, -, hproduced, -⟩ := h.returned.reported
  exact ⟨h.accepted, h.readable, _, hproduced, h.stored⟩

theorem Made.filled (h : Made command event receipt m) :
    (topic m).Filled libraries compiler plainJson Published.fromMapping command.stream := by
  refine ⟨nothing, fun _ _ => rfl, .single ⟨⟨fun _ => Nat.zero_le _, fun _ o ho => ?_⟩, ?_⟩⟩
  · exact absurd ho (Nat.not_lt_zero o)
  · intro p o m' _ hm
    change (if p = m.partition ∧ o = m.offset then some m else none) = some m' at hm
    split at hm
    · obtain rfl := Option.some.inj hm
      exact ⟨_, h.stores⟩
    · simp at hm

theorem Made.reportedIn (h : Made command event receipt m) :
    (publication command).ReportedIn plainJson (topic m) := by
  intro i event' p o hevent _ hmessage hlt
  change command.events[i]? = some event' at hevent
  rw [h.events] at hevent
  obtain ⟨rfl, rfl⟩ : i = 0 ∧ event = event' := by
    cases i with
    | zero => exact ⟨rfl, Option.some.inj hevent⟩
    | succ i => simp at hevent
  obtain ⟨rfl, rfl⟩ := Prod.mk.inj (Option.some.inj hmessage)
  refine ⟨m, ?_, h.stored⟩
  change (if 0 = m.partition ∧ 0 = m.offset then some m else none) = some m
  rw [if_pos ⟨h.first.1.symm, h.first.2.symm⟩]

/-- A read of the one event. -/
def readOne (stream : PhysicalStream) : ReadRangeCommand String where
  stream
  start := none
  stop := none
  cursor := none
  limit := 1

def readEnv (m : Message) (topic : String) : RangeEnv where
  decodedMs := 0
  encodedMs := 0
  listTopics := .ok [(topic, { partitions := [0] })]
  watermarks _ := .ok (0, 1)
  polls := [.record m]

def reader : KafkaRangeReader String :=
  .ofRuntime Sample.libraries Published.fromMapping signingCodec

/-- The one record, of partition 0. -/
def bounds : RangeBounds := ⟨[0], .set .empty 0 0, .set .empty 0 1⟩

theorem finished_bounds : ¬bounds.Unfinished (.set .empty 0 1) := by decide

theorem resolve_readOne (stream : PhysicalStream) (m : Message) :
    reader.resolve (readOne stream) (readEnv m stream.topic) = .ok bounds := by
  have hpartitions :
      partitionIds [(stream.topic, { partitions := [0] })] stream.topic = .ok [0] := by
    unfold partitionIds
    rw [List.lookup_cons_self]
    rfl
  have htopics : (readEnv m stream.topic).listTopics =
      .ok [(stream.topic, { partitions := [0] })] := rfl
  unfold KafkaRangeReader.resolve
  rw [htopics]
  dsimp only
  rw [show (readOne stream).stream.topic = stream.topic from rfl, hpartitions]
  rfl

theorem Made.readLoop (h : Made command event receipt m) :
    ∃ decoded, reader.readLoop (readOne command.stream) bounds { positions := bounds.positions }
      [.record m] = .ok { positions := .set .empty 0 1, events := [⟨m, decoded⟩] } := by
  obtain ⟨event', hevent'⟩ := h.stores.exists_event
  obtain ⟨decoded, hdecode, -⟩ := hevent'.reads plainJson_inverts
  refine ⟨decoded, ?_⟩
  have hhandle : reader.handle (readOne command.stream) bounds { positions := bounds.positions }
      (.record m) = .ok { positions := .set .empty 0 1, events := [⟨m, decoded⟩] } := by
    unfold KafkaRangeReader.handle
    dsimp only
    rw [h.first.1, h.first.2]
    have hparses : decodeEvent reader.parseEvent m (readOne command.stream).stream = .ok decoded :=
      hdecode
    rw [hparses]
    rfl
  unfold KafkaRangeReader.readLoop
  rw [if_pos ⟨Nat.zero_lt_one, by decide⟩, hhandle]
  rfl

theorem Made.pageable (h : Made command event receipt m) :
    reader.Pageable (topic m) [0] (readOne command.stream) (readEnv m command.stream.topic) where
  topics := by
    refine ⟨_, rfl, ?_⟩
    change partitionIds [(command.stream.topic, { partitions := [0] })] command.stream.topic = _
    unfold partitionIds
    rw [List.lookup_cons_self]
    rfl
  watermarks p hp := by
    obtain rfl := List.mem_singleton.mp hp
    change Except.ok (0, 1) = Except.ok (0, if 0 = m.partition then m.offset + 1 else 0)
    rw [h.first.1, h.first.2]
    rfl
  returns := ⟨rfl, rfl, rfl, rfl⟩
  quiet poll hpoll := by
    obtain rfl := List.mem_singleton.mp hpoll
    exact ⟨fun _ => by simp, fun _ => by simp⟩
  feed bounds' hresolve := by
    obtain rfl := Except.ok.inj ((resolve_readOne _ _).symm.trans hresolve)
    refine .record ?_ (if_pos ⟨rfl, rfl⟩) ?_ ?_ .done
    · rw [h.first.1]
      exact List.mem_singleton_self 0
    · rw [h.first.1]
      exact Nat.zero_le _
    · rw [h.first.1, h.first.2]
      exact window_self
  deadline bounds' s hresolve hloop := by
    obtain rfl := Except.ok.inj ((resolve_readOne _ _).symm.trans hresolve)
    obtain ⟨decoded, hdecoded⟩ := h.readLoop
    obtain rfl := Except.ok.inj (hdecoded.symm.trans hloop)
    exact fun hcontinues => absurd hcontinues.1 (lt_irrefl 1)

theorem Made.served (h : Made command event receipt m) :
    reader.Served 1000 (topic m) [0] (topic m).high (readOne command.stream)
      [readEnv m command.stream.topic, readEnv m command.stream.topic] := by
  refine ⟨h.pageable, fun _ _ => rfl, fun next hnext => ?_, fun page hread htruncated => ?_⟩
  · obtain rfl := Option.some.inj hnext
    exact Nat.lt_of_sub_eq_succ rfl
  · -- the one page reaches the end
    obtain ⟨bounds', s, hresolve, hloop, -, -, -, htruncated'⟩ := KafkaRangeReader.read_ok hread
    obtain rfl := Except.ok.inj ((resolve_readOne _ _).symm.trans hresolve)
    obtain ⟨decoded, hdecoded⟩ := h.readLoop
    obtain rfl := Except.ok.inj (hdecoded.symm.trans hloop)
    exact absurd (htruncated'.mp htruncated) finished_bounds

/-- The coordinates behind the record are signed. -/
theorem Made.encodes (h : Made command event receipt m) :
    ∃ cursor, reader.cursor.encodeCursor 0 command.stream.ref command.stream.topic
      (.set .empty 0 1) = .ok cursor := by
  have hsmall := h.isSealed
  unfold sealed at hsmall
  cases canonical : Sample.libraries.json.canonicalJsonBytes (.obj (SignedCursorCodec.payload
      Sample.libraries .cursor command.stream.ref command.stream.topic (.set .empty 0 1) 0
      1000)) with
  | error raised =>
    rw [canonical] at hsmall
    exact absurd hsmall Bool.false_ne_true
  | ok bytes =>
    rw [canonical] at hsmall
    obtain ⟨value, hvalue⟩ := TokenCodec.exists_encode signingCodec.codec canonical
      (decide_eq_true_iff.mp hsmall)
    have hfew : TokenPayload.normalizePositions (.set .empty 0 1) = some (.set .empty 0 1) := by
      decide
    have hexpiry : signingCodec.expiry 0 none = 1000 := rfl
    refine ⟨value, ?_⟩
    change (signingCodec.encodeCursor Sample.libraries 0 command.stream.ref command.stream.topic
      (.set .empty 0 1) none).map Cursor.value = .ok value
    unfold SignedCursorCodec.encodeCursor
    rw [hfew, hexpiry]
    dsimp only
    rw [hvalue]
    rfl

theorem Made.smooth (h : Made command event receipt m) :
    reader.Smooth (readOne command.stream)
      [readEnv m command.stream.topic, readEnv m command.stream.topic] := by
  intro bounds' s hresolve hloop
  obtain rfl := Except.ok.inj ((resolve_readOne _ _).symm.trans hresolve)
  obtain ⟨decoded, hdecoded⟩ := h.readLoop
  obtain rfl := Except.ok.inj (hdecoded.symm.trans hloop)
  obtain ⟨cursor, hcursor⟩ := h.encodes
  exact ⟨cursor, hcursor, fun hunfinished => absurd hunfinished finished_bounds⟩

end PublishedSample

/-- An event is published, and read at the place in its receipt. -/
theorem published_event_read :
    ∃ command event receipt m pages e,
      (PublishedSample.publication command).Returned event receipt ∧
      PublishedSample.reader.readPages (PublishedSample.readOne command.stream)
        [PublishedSample.readEnv m command.stream.topic,
          PublishedSample.readEnv m command.stream.topic] = .ok pages ∧
      eventsAt pages receipt.position.partition receipt.position.offset = [e] ∧
      e.event.Equal event := by
  obtain ⟨command, event, receipt, m, h⟩ := PublishedSample.exists_made
  have hhigh : (PublishedSample.topic m).high 0 = 1 := by
    change (if 0 = m.partition then m.offset + 1 else 0) = 1
    rw [h.first.1, h.first.2]
    rfl
  have begins : PublishedSample.reader.Names 0 command.stream [0] (PublishedSample.topic m).low
      (fun _ => 0) none := fun _ _ => rfl
  have retained : KafkaRangeReader.Retained (PublishedSample.topic m) [0] (fun _ => 0)
      (PublishedSample.topic m).high :=
    ⟨fun _ _ => le_rfl, fun _ _ => Nat.zero_le _, fun _ _ => le_rfl⟩
  have created : SignedCursorCodec.create [Sample.signingKey] 1000 = .ok Sample.signingCodec := rfl
  obtain ⟨hreturns, hreads⟩ := @KafkaRangeReader.published_events_paged _ _ _ Sample.libraries
    plainJson_inverts _ _ _ created (List.nodup_singleton _) (PublishedSample.topic m)
    (PublishedSample.readOne command.stream) h.filled [0] (by decide) (fun _ => 0) _ _ _ le_rfl
    begins retained h.served (by simp [hhigh])
  obtain ⟨pages, hpages⟩ := hreturns.mpr h.smooth
  obtain ⟨hpartition, hoffset⟩ := h.place
  obtain ⟨e, hat, hequal⟩ := (hreads pages hpages).receipted (PublishedSample.publication command)
    event receipt h.accepted h.readable h.reportedIn h.returned (List.mem_singleton.mpr hpartition)
    (Nat.zero_le _) (by rw [hpartition, hoffset, hhigh]; exact Nat.zero_lt_one)
  exact ⟨command, event, receipt, m, pages, e, h.returned, hpages, hat, hequal⟩

end MeridianKafka
