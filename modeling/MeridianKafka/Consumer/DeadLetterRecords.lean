import MeridianKafka.Consumer.DeadLetter
import MeridianKafka.Producer.Replays
import MeridianKafka.Range.Published

/-!
# Dead letters can be read

A call that runs out of attempts publishes a dead letter, and only then acknowledges the source.
What is left of the source is the record on the Dead Letter Stream: whoever can read this Stream
must find the event there that could not be delivered.

The publication goes through the idempotency cache, so a call may come back with the receipts of
an earlier one and write nothing. `KafkaProducerEngine.Backed` is the invariant of the cache that
makes up for it: a record has been written for each event of a publication that is remembered.
With it, a call either leaves its group as it was, and the source unacknowledged, or its dead
letter is among the records of the run (`dead_letters_kept`).
-/

namespace MeridianKafka

open Framework

/-! ### Publications that are remembered -/

namespace KafkaProducerEngine

section Backed

variable (engine : KafkaProducerEngine) (json : JsonModule) (parse : EventParser)
  (P : PublishCommand → Prop)

/-- Whoever can read the Stream reads each event of the publication from one of the records. -/
def Written (records : List ProducerRecord) (command : PublishCommand) : Prop :=
  ∀ event ∈ command.events, ∃ written ∈ records, ∀ reader : PhysicalStream,
    command.stream.ReadableAs reader → written.ReadsAs json parse reader event

/-- A publication with this fingerprint has been written, and these are its receipts. -/
structure WrittenAs (records : List ProducerRecord) (fingerprint : String)
    (rs : List PublishReceipt) (command : PublishCommand) : Prop where
  of : P command
  fingerprint : engine.sha256Fingerprint command.operation = .ok fingerprint
  ids : rs.map PublishReceipt.eventId = command.events.map Event.eventId
  written : Written json parse records command

/-- What is remembered has been written. -/
def Backed (records : List ProducerRecord) (cache : IdempotencyCache) : Prop :=
  ∀ key fingerprint rs, cache.get? key = some (fingerprint, rs) →
    ∃ command, engine.WrittenAs json parse P records fingerprint rs command

variable {engine json parse P} {records : List ProducerRecord} {cache : IdempotencyCache}
  {command : PublishCommand} {fingerprint : String} {rs : List PublishReceipt} {env : PublishEnv}

theorem WrittenAs.append (h : engine.WrittenAs json parse P records fingerprint rs command)
    (later : List ProducerRecord) :
    engine.WrittenAs json parse P (records ++ later) fingerprint rs command := by
  refine { h with written := fun event hevent => ?_ }
  obtain ⟨written, hmem, hreads⟩ := h.written event hevent
  exact ⟨written, List.mem_append_left _ hmem, hreads⟩

theorem Backed.append (h : engine.Backed json parse P records cache)
    (later : List ProducerRecord) : engine.Backed json parse P (records ++ later) cache := by
  intro key fingerprint rs hfound
  obtain ⟨command, hwritten⟩ := h key fingerprint rs hfound
  exact ⟨command, hwritten.append later⟩

theorem Backed.remember (h : engine.Backed json parse P records cache)
    (written : engine.WrittenAs json parse P records fingerprint rs command) (key : String) :
    engine.Backed json parse P records (remember cache key fingerprint rs) := by
  intro key' fingerprint' rs' hfound
  have hset := Dict.get?_of_keepLast hfound
  rw [Dict.get?_moveToEnd, Dict.get?_set] at hset
  split at hset
  · obtain ⟨rfl, rfl⟩ := Prod.mk.inj (Option.some.inj hset)
    exact ⟨command, written⟩
  · exact h _ _ _ hset

theorem eq_of_elim {emit : Option Raised} {rs rs' : List PublishReceipt}
    (h : (emit.elim (.ok rs) .error : Except Raised (List PublishReceipt)) = .ok rs') :
    rs = rs' := by
  cases emit with
  | none => exact Except.ok.inj h
  | some raised => exact absurd h (by simp)

/-- **A call keeps the cache backed**, and what it returns are receipts of a publication with its
fingerprint that has been written by then. -/
theorem Backed.publish (h : engine.Backed json parse P records cache) (of : P command)
    (sends : ∀ rs, (send command env).1 = .ok rs →
      rs.map PublishReceipt.eventId = command.events.map Event.eventId ∧
        Written json parse (send command env).2 command) :
    engine.Backed json parse P (records ++ (engine.publish cache command false env).produced)
        (engine.publish cache command false env).cache ∧
      ∀ rs, (engine.publish cache command false env).answer = .ok rs →
        ∃ fingerprint command', engine.sha256Fingerprint command.operation = .ok fingerprint ∧
          engine.WrittenAs json parse P
            (records ++ (engine.publish cache command false env).produced) fingerprint rs
            command' := by
  cases hfingerprint : engine.sha256Fingerprint command.operation with
  | error raised =>
    have hpublish : engine.publish cache command false env =
        { answer := .error raised, cache, produced := [] } := by
      unfold KafkaProducerEngine.publish
      rw [hfingerprint]
    rw [hpublish]
    exact ⟨h.append [], fun rs hrs => by simp at hrs⟩
  | ok fingerprint =>
  -- a publication that is made anew is written by the call itself
  have hnew : ∀ key, engine.publish cache command false env =
        publishNew cache command key fingerprint env →
      engine.Backed json parse P (records ++ (engine.publish cache command false env).produced)
          (engine.publish cache command false env).cache ∧
        ∀ rs, (engine.publish cache command false env).answer = .ok rs →
          ∃ fingerprint' command', (.ok fingerprint : Except Raised String) = .ok fingerprint' ∧
            engine.WrittenAs json parse P
              (records ++ (engine.publish cache command false env).produced) fingerprint' rs
              command' := by
    intro key hpublish
    rw [hpublish]
    rcases hsend : send command env with ⟨raised | rs, sent⟩
    · rw [publishNew_of_raises hsend]
      exact ⟨h.append sent, fun rs hrs => by simp at hrs⟩
    obtain ⟨hids, hsent⟩ := sends rs (congrArg Prod.fst hsend)
    rw [hsend] at hsent
    have hwritten : engine.WrittenAs json parse P (records ++ sent) fingerprint rs command := by
      refine ⟨of, hfingerprint, hids, fun event hevent => ?_⟩
      obtain ⟨written, hmem, hreads⟩ := hsent event hevent
      exact ⟨written, List.mem_append_right _ hmem, hreads⟩
    rw [publishNew_of_receipts hsend]
    refine ⟨?_, fun rs' hrs' => ?_⟩
    · cases key with
      | none => exact h.append sent
      | some key => exact (h.append sent).remember hwritten key
    · obtain rfl := eq_of_elim hrs'
      exact ⟨fingerprint, command, rfl, hwritten⟩
  cases hkey : command.idempotencyKey with
  | none =>
    refine hnew none ?_
    unfold KafkaProducerEngine.publish
    rw [hfingerprint, hkey]
    rfl
  | some key =>
    rcases publish_cases hkey hfingerprint env with
      ⟨remembered, rs, -, -, hpublish⟩ | ⟨rs, hfound, hpublish⟩ | ⟨-, hpublish⟩
    · rw [hpublish]
      exact ⟨h.append [], fun rs hrs => by simp at hrs⟩
    · -- a replay returns what was remembered, and moves it to the end
      obtain ⟨command', hwritten⟩ := h key fingerprint rs hfound
      rw [hpublish]
      refine ⟨fun key' fingerprint' rs' hmoved => ?_, fun rs' hrs' => ?_⟩
      · rw [Dict.get?_moveToEnd] at hmoved
        exact h.append [] key' fingerprint' rs' hmoved
      · obtain rfl := eq_of_elim hrs'
        exact ⟨fingerprint, command', rfl, hwritten.append []⟩
    · exact hnew (some key) hpublish

end Backed

variable {json : JsonModule} {fromMapping : List (String × Json) → Checked Event}

/-- A message for the record of an event is read back by whoever can read the Stream. -/
theorem readsAs_of_readableAs {writer reader : PhysicalStream} {event : Event}
    (readable : writer.ReadableAs reader) (inverts : json.Inverts)
    (roundTrips : event.RoundTrips fromMapping) (names : event.stream = writer.ref)
    (small : ∀ bytes, json.canonicalJsonBytes event.toDict = .ok bytes →
      bytes.length ≤ maxValueBytes) :
    (record writer event).ReadsAs json (eventParser json fromMapping) reader event := by
  intro message stored
  obtain ⟨bytes, hbytes, -⟩ := stored.value
  -- a reader with the Schema of the writer reads it, and so does this one
  let own : PhysicalStream :=
    { writer with compatibleSchemaFingerprints := [writer.schemaFingerprint] }
  have hreadable : own.ReadableAs reader := ⟨readable.ref, readable.compatible⟩
  obtain ⟨decoded, hdecode, hequal⟩ :
      ∃ decoded, decodeEvent (eventParser json fromMapping) message own = .ok decoded ∧
        decoded.Equal event :=
    decodeEvent_stored inverts roundTrips names (List.mem_singleton_self _) stored hbytes
      (small bytes hbytes)
  exact ⟨decoded, decodeEvent_of_readableAs hreadable stored hdecode, hequal⟩

/-- A publication that has receipts has written its events. -/
theorem written_of_send {command : PublishCommand} {env : PublishEnv} {rs : List PublishReceipt}
    (inverts : json.Inverts) (roundTrips : ∀ event ∈ command.events, event.RoundTrips fromMapping)
    (names : ∀ event ∈ command.events, event.stream = command.stream.ref)
    (small : env.TakesUpTo json command maxValueBytes) (h : (send command env).1 = .ok rs) :
    rs.map PublishReceipt.eventId = command.events.map Event.eventId ∧
      Written json (eventParser json fromMapping) (send command env).2 command := by
  obtain ⟨hok, -, hreceipts⟩ := send_eq_ok_iff.mp h
  obtain ⟨hlength, hpairs⟩ := receipts_ok hreceipts
  constructor
  · refine List.ext_getElem (by simpa using hlength) fun i hi hi' => ?_
    rw [List.length_map] at hi hi'
    obtain ⟨receipt, hreceipt, hid, -⟩ := hpairs i _ (List.getElem?_eq_getElem hi')
    obtain ⟨_, hget⟩ := List.getElem?_eq_some_iff.mp hreceipt
    rw [List.getElem_map, List.getElem_map, hget, hid]
  · intro event hevent
    obtain ⟨i, hi, rfl⟩ := List.getElem_of_mem hevent
    have htaken := taken_of_produceEvents_ok hok hi
    rw [Nat.zero_add] at htaken
    refine ⟨record command.stream command.events[i], ?_, fun reader readable => ?_⟩
    · rw [send_records, produceEvents_ok hok]
      exact List.mem_map_of_mem hevent
    · exact readsAs_of_readableAs readable inverts (roundTrips _ hevent) (names _ hevent)
        fun bytes hbytes => small i _ bytes (List.getElem?_eq_getElem hi) hbytes htaken

end KafkaProducerEngine

/-! ### Dead letters -/

/-- The event is a dead letter of the original one, which can be restored from it. -/
structure Event.IsLetterOf (fromMapping : List (String × Json) → Checked Event)
    (letter original : Event) (attempt : ℕ) : Prop where
  id : letter.eventId = "dlq-" ++ original.eventId ++ "-" ++ toString attempt
  key : letter.logicalPartitionKey = original.logicalPartitionKey
  restores : original.RoundTrips fromMapping → ∃ data fields restored,
    letter.data.sorted = .obj data ∧ data.lookup "originalEvent" = some (.obj fields) ∧
      fromMapping fields = .ok restored ∧ restored.Equal original

namespace KafkaConsumerEngine

variable {Token : Type}

theorem isLetterOf_of_equal {fromMapping : List (String × Json) → Checked Event}
    {command : NegativeAcknowledgeCommand Token} {original letter : Event}
    {target : PhysicalStream} {attempt : ℕ} {utcNow : String}
    (h : letter.Equal (deadLetterEvent command original target attempt utcNow)) :
    letter.IsLetterOf fromMapping original attempt := by
  refine ⟨h.eventId, h.logicalPartitionKey, fun roundTrips => ?_⟩
  have hdata := h.data
  rw [deadLetterEvent, Json.sorted_obj] at hdata
  obtain ⟨fields, hfields⟩ : ∃ fields, original.toDict.sorted = .obj fields :=
    ⟨_, Json.sorted_obj _⟩
  obtain ⟨restored, hrestored, hequal⟩ := roundTrips fields hfields
  refine ⟨_, fields, restored, hdata, ?_, hrestored, hequal⟩
  rw [Json.lookup_sortFields (by simp), List.lookup_cons_self, Option.map_some, hfields]

/-! ### The publications of a run -/

variable (engine : KafkaConsumerEngine Token) (producer : KafkaProducerEngine)

/-- The publication that a call comes to, with the answers to it. -/
def publicationBy (s : PublishingRuntime) :
    PublishingCall Token → Option (PublishCommand × PublishEnv)
  | .negativeAcknowledge command env =>
    (s.states.get? command.group).bind fun m =>
      (engine.deadLetterPublish m command env.nowMs env.utcNow).map fun publication =>
        (publication, env.publish)
  | .publish command env => some (command, env)
  | .join _ _ | .operate _ _ => none

/-- What the client takes in a call. -/
def producedBy (s : PublishingRuntime) (call : PublishingCall Token) : List ProducerRecord :=
  (engine.publicationBy s call).elim [] fun x =>
    (producer.publish s.cache x.1 false x.2).produced

/-- The publications that the steps of a run come to. -/
def publicationsIn (steps : List (PublishingRuntime × PublishingCall Token)) :
    List (PublishCommand × PublishEnv) :=
  steps.filterMap fun x => engine.publicationBy x.1 x.2

def PublishedIn (steps : List (PublishingRuntime × PublishingCall Token))
    (command : PublishCommand) : Prop :=
  ∃ env, (command, env) ∈ engine.publicationsIn steps

/-- The records that are written in the steps of a run. -/
def producedIn (steps : List (PublishingRuntime × PublishingCall Token)) : List ProducerRecord :=
  steps.flatMap fun x => engine.producedBy producer x.1 x.2

/-- The publication is about a Stream of the Binding, as the compiler makes sure for those of the
application. -/
structure Scoped (command : PublishCommand) : Prop where
  stream : engine.settings.stream command.stream.ref = .ok command.stream
  names : ∀ event ∈ command.events, event.stream = command.stream.ref

/-- What is promised about a publication by the code outside. -/
structure Promised (json : JsonModule) (fromMapping : List (String × Json) → Checked Event)
    (x : PublishCommand × PublishEnv) : Prop where
  roundTrips : ∀ event ∈ x.1.events, event.RoundTrips fromMapping
  small : x.2.TakesUpTo json x.1 maxValueBytes

variable {engine producer}

/-- A call does with the cache what its publication does. -/
theorem publishNext_cache (s : PublishingRuntime) (call : PublishingCall Token) :
    (engine.publishNext producer s call).cache =
      (engine.publicationBy s call).elim s.cache fun x =>
        (producer.publish s.cache x.1 false x.2).cache := by
  cases call with
  | join poll partitions =>
    unfold publishNext
    dsimp only
    split <;> rfl
  | operate group action =>
    unfold publishNext
    dsimp only
    split <;> rfl
  | publish command env => rfl
  | negativeAcknowledge command env =>
    change ((engine.deadLetterOutcome producer s command env).map PublishOutcome.cache).getD _ = _
    unfold deadLetterOutcome publicationBy
    dsimp only
    cases s.states.get? command.group with
    | none => rfl
    | some m =>
      rw [Option.bind_some, Option.bind_some]
      cases engine.deadLetterPublish m command env.nowMs env.utcNow <;> rfl

/-- A dead letter is published to a Stream of the Binding. -/
theorem scoped_deadLetterPublish (wellFormed : Config.WellFormed engine.settings.resources)
    {m : Member}
    {command : NegativeAcknowledgeCommand Token} {publication : PublishCommand} {nowMs : ℕ}
    {utcNow : String}
    (h : engine.deadLetterPublish m command nowMs utcNow = some publication) :
    engine.Scoped publication := by
  obtain ⟨c, inflight, ref, target, -, -, -, htarget, rfl⟩ := exists_of_deadLetterPublish h
  have hget := KafkaBindingSettings.stream_eq_ok_iff.mp htarget
  have href : target.ref = ref := (wellFormed ref _ hget).ref_eq
  refine ⟨?_, fun event hevent => ?_⟩
  · change engine.settings.stream target.ref = .ok target
    rw [href, htarget]
  · rw [deadLetterCommand, List.mem_singleton] at hevent
    rw [hevent]
    rfl

section Runs

open KafkaProducerEngine (Backed Written WrittenAs send)

variable {json : JsonModule} {fromMapping : List (String × Json) → Checked Event}

/-- The fingerprints of these publications stand for their Event Data. -/
def Separates (producer : KafkaProducerEngine) (P : PublishCommand → Prop) : Prop :=
  ∀ command command' fingerprint, P command → P command' →
    producer.sha256Fingerprint command.operation = .ok fingerprint →
    producer.sha256Fingerprint command'.operation = .ok fingerprint → command.SameData command'

/-- One call keeps the cache backed by what has been written so far. -/
theorem backed_publishNext {P : PublishCommand → Prop} {s : PublishingRuntime}
    {call : PublishingCall Token} {records : List ProducerRecord} (inverts : json.Inverts)
    (ofBinding : ∀ command, P command → engine.Scoped command)
    (promised : ∀ x, engine.publicationBy s call = some x → P x.1 ∧ Promised json fromMapping x)
    (h : Backed producer json (eventParser json fromMapping) P records s.cache) :
    Backed producer json (eventParser json fromMapping) P
      (records ++ engine.producedBy producer s call)
      (engine.publishNext producer s call).cache := by
  rw [publishNext_cache, producedBy]
  cases hpublication : engine.publicationBy s call with
  | none => exact h.append []
  | some x =>
    obtain ⟨of, hpromised⟩ := promised x hpublication
    exact (h.publish of fun rs hrs => KafkaProducerEngine.written_of_send inverts
      hpromised.roundTrips (ofBinding _ of).names hpromised.small hrs).1

/-- Along every run what is remembered has been written. -/
theorem backed_play {P : PublishCommand → Prop} {start : PublishingRuntime}
    (fresh : start.cache = .empty) (inverts : json.Inverts) {run : List (PublishingCall Token)}
    (legal : (engine.publishing producer).Legal start run)
    (ofBinding : ∀ command, P command → engine.Scoped command)
    (promised : ∀ x ∈ engine.publicationsIn ((engine.publishing producer).steps start run),
      P x.1 ∧ Promised json fromMapping x) :
    Backed producer json (eventParser json fromMapping) P
      (engine.producedIn producer ((engine.publishing producer).steps start run))
      ((engine.publishing producer).play start run).cache := by
  refine Machine.trace_induction (I := fun tr s =>
    (∀ x ∈ engine.publicationsIn tr, P x.1 ∧ Promised json fromMapping x) →
      Backed producer json (eventParser json fromMapping) P (engine.producedIn producer tr)
        s.cache) ?_ ?_ legal promised
  · intro tr s call ih _ hpromised
    rw [publicationsIn, List.filterMap_append] at hpromised
    rw [producedIn, List.flatMap_append, List.flatMap_singleton]
    refine backed_publishNext inverts ofBinding (fun x hx => hpromised x ?_)
      (ih fun x hx => hpromised x (List.mem_append_left _ hx))
    exact List.mem_append_right _ (List.mem_filterMap.mpr ⟨_, List.mem_singleton_self _, hx⟩)
  · intro _ key fingerprint rs hfound
    rw [fresh] at hfound
    simp at hfound

/-! ### The letter of a delivery -/

/-- Whoever can read the Dead Letter Stream of a delivery reads its letter from one of the
records. -/
structure LetterKept (engine : KafkaConsumerEngine Token) (json : JsonModule)
    (fromMapping : List (String × Json) → Checked Event) (records : List ProducerRecord)
    (m : Member) (command : NegativeAcknowledgeCommand Token) (c : DeliveryCoordinates)
    (inflight : Inflight) (target : PhysicalStream) : Prop where
  inFlight : m.state.inflight.get? (c.partition, c.offset) = some inflight
  names : deadLetterStream command c = some target.ref
  found : engine.settings.stream target.ref = .ok target
  written : ∃ written ∈ records, ∀ reader message, target.ReadableAs reader →
    written.Stored json message → ∃ letter,
      decodeEvent (eventParser json fromMapping) message reader = .ok letter ∧
        letter.IsLetterOf fromMapping inflight.event c.attempt

/-- A delivery is dead-lettered by a publication only. -/
theorem exists_publication_of_deadLettered {m : Member}
    {command : NegativeAcknowledgeCommand Token} {env : NegativeAcknowledgeEnv} {id : String}
    {committed : Bool}
    (h : (engine.negativeAcknowledge m command env).1 = .ok (.deadLettered id committed)) :
    ∃ publication,
      engine.deadLetterPublish m command env.nowMs env.utcNow = some publication := by
  unfold negativeAcknowledge at h
  unfold deadLetterPublish
  cases hdecodes : engine.cursor.decodeDelivery env.nowMs command.delivery
    command.subscription.ref command.consumerGroup.ref command.stream.topic with
  | error failure =>
    rw [hdecodes] at h
    simp at h
  | ok c =>
  rw [hdecodes] at h
  dsimp only at h ⊢
  unfold negativeAcknowledgeDelivery at h
  cases hguard : negativeAcknowledgeGuard m c with
  | error failure =>
    rw [hguard] at h
    simp at h
  | ok inflight =>
  rw [hguard] at h
  dsimp only at h ⊢
  cases href : deadLetterStream command c with
  | none =>
    rw [href] at h
    dsimp only at h
    unfold scheduleRedelivery at h
    dsimp only at h
    split at h
    · simp at h
    split at h
    · split at h
      · simp at h
      split at h <;> simp at h
    · split at h <;> simp at h
  | some ref =>
  rw [href] at h
  dsimp only at h ⊢
  unfold deadLetter at h
  cases htarget : engine.settings.stream ref with
  | error failure =>
    rw [htarget] at h
    simp at h
  | ok target => exact ⟨_, rfl⟩

/-- The entry that the guards find is in flight. -/
theorem inflight_of_guard {m : Member} {c : DeliveryCoordinates} {inflight : Inflight}
    (h : negativeAcknowledgeGuard m c = .ok inflight) :
    m.state.inflight.get? (c.partition, c.offset) = some inflight := by
  unfold negativeAcknowledgeGuard at h
  split at h
  · simp at h
  split at h
  · next found hfound =>
    obtain rfl := Except.ok.inj h
    exact (Option.filter_eq_some_iff.mp hfound).1
  · simp at h

theorem firstReceipt_eq_ok {answer : Except Raised (List PublishReceipt)} {id : String}
    (h : DeadLetterEnv.firstReceipt answer = .ok id) :
    ∃ receipt later, answer = .ok (receipt :: later) ∧ receipt.eventId = id := by
  cases answer with
  | error raised => exact absurd h (by simp [DeadLetterEnv.firstReceipt])
  | ok rs =>
    cases rs with
    | nil => exact absurd h (by simp [DeadLetterEnv.firstReceipt])
    | cons receipt later => exact ⟨receipt, later, rfl, Except.ok.inj h⟩

/-- **A publication that returns has its letter among the records**: the call has written it, or it
was written with what the cache remembers. -/
theorem letterKept_of_publish {P : PublishCommand → Prop} {records : List ProducerRecord}
    {cache : IdempotencyCache} {m : Member} {command : NegativeAcknowledgeCommand Token}
    {env : DeadLetterEnv} {publication : PublishCommand} (inverts : json.Inverts)
    (wellFormed : Config.WellFormed engine.settings.resources)
    (ofBinding : ∀ command, P command → engine.Scoped command) (separates : Separates producer P)
    (backed : Backed producer json (eventParser json fromMapping) P records cache)
    (of : P publication) (promised : Promised json fromMapping (publication, env.publish))
    (publishes : engine.deadLetterPublish m command env.nowMs env.utcNow = some publication)
    {id : String} (h : (env.through producer cache).publish publication = .ok id) :
    ∃ c inflight target,
      engine.LetterKept json fromMapping
        (records ++ (producer.publish cache publication false env.publish).produced) m command c
        inflight target ∧
      id = "dlq-" ++ inflight.event.eventId ++ "-" ++ toString c.attempt := by
  obtain ⟨receipt, later, hanswer, rfl⟩ := firstReceipt_eq_ok h
  obtain ⟨fingerprint, command', hfingerprint, hwritten⟩ :=
    (backed.publish of fun rs hrs => KafkaProducerEngine.written_of_send inverts
      promised.roundTrips (ofBinding _ of).names promised.small hrs).2 _ hanswer
  obtain ⟨c, inflight, ref, target, -, hguard, href, htarget, rfl⟩ :=
    exists_of_deadLetterPublish publishes
  -- the receipts are those of a publication of this one event
  have hsame := separates _ _ fingerprint of hwritten.of hfingerprint hwritten.fingerprint
  obtain ⟨event, _, hequal, hnil, hevents⟩ := List.forall₂_cons_left_iff.mp hsame.events
  obtain rfl := List.forall₂_nil_left_iff.mp hnil
  have hids := hwritten.ids
  rw [hevents, List.map_cons, List.map_cons, List.map_nil, List.cons.injEq] at hids
  have hmem : event ∈ command'.events := by
    rw [hevents]
    exact List.mem_singleton_self _
  -- and the Binding has one Stream of this name
  have hown : target.ref = ref :=
    (wellFormed ref _ (KafkaBindingSettings.stream_eq_ok_iff.mp htarget)).ref_eq
  have hbinding := ofBinding _ hwritten.of
  have hstream : command'.stream = target := by
    have hfound := hbinding.stream
    rw [← hbinding.names event hmem, ← hequal.stream] at hfound
    change engine.settings.stream target.ref = _ at hfound
    rw [hown, htarget] at hfound
    exact (Except.ok.inj hfound).symm
  obtain ⟨written, hrecord, hreads⟩ := hwritten.written event hmem
  refine ⟨c, inflight, target, ⟨inflight_of_guard hguard, hown ▸ href, hown ▸ htarget, written,
    hrecord, fun reader message readable stored => ?_⟩, hids.1.trans hequal.eventId.symm⟩
  obtain ⟨letter, hdecode, hletter⟩ := hreads reader (hstream ▸ readable) message stored
  have hsorted := (Event.equal_iff.mp hletter).trans (Event.equal_iff.mp hequal).symm
  exact ⟨letter, hdecode, isLetterOf_of_equal (Event.equal_iff.mpr hsorted)⟩

/-- What a negative acknowledgement leaves of its group. -/
theorem get?_publishNext {s : PublishingRuntime} {command : NegativeAcknowledgeCommand Token}
    {env : DeadLetterEnv} {m : Member} (member : s.states.get? command.group = some m) :
    (engine.publishNext producer s (.negativeAcknowledge command env)).states.get?
        command.group =
      some (engine.negativeAcknowledge m command (env.through producer s.cache)).2 := by
  unfold publishNext
  dsimp only
  rw [member]
  exact Dict.get?_set_self ..

/-- Every publication of a run is about a Stream of the Binding, when those of the application
are. -/
theorem scoped_of_mem_publicationsIn (wellFormed : Config.WellFormed engine.settings.resources)
    {start : PublishingRuntime} {run : List (PublishingCall Token)}
    (ofBinding : ∀ command env, .publish command env ∈ run → engine.Scoped command)
    {x : PublishCommand × PublishEnv}
    (h : x ∈ engine.publicationsIn ((engine.publishing producer).steps start run)) :
    engine.Scoped x.1 := by
  obtain ⟨⟨s, call⟩, hstep, hpublication⟩ := List.mem_filterMap.mp h
  have hcall : call ∈ run := Machine.mem_of_mem_steps hstep
  cases call with
  | join poll partitions => exact absurd hpublication (by simp [publicationBy])
  | operate group action => exact absurd hpublication (by simp [publicationBy])
  | publish command env =>
    obtain rfl := Option.some.inj hpublication
    exact ofBinding command env hcall
  | negativeAcknowledge command env =>
    obtain ⟨m, -, hmap⟩ := Option.bind_eq_some_iff.mp hpublication
    obtain ⟨publication, hpublishes, rfl⟩ := Option.map_eq_some_iff.mp hmap
    exact scoped_deadLetterPublish wellFormed hpublishes

/-- **No dead letter is lost.** In a run of any number of groups through one producer engine, a
delivery that `negative_acknowledge` reports as dead-lettered has its letter among the records
that have been written by then, under the id that the report names: whoever can read the Dead
Letter Stream reads it, and restores the original event from it. And a call that comes to a dead
letter either raises and leaves its group as it was, the source unacknowledged, or the letter has
been written. -/
theorem dead_letters_kept (engine : KafkaConsumerEngine Token) (producer : KafkaProducerEngine)
    {json : JsonModule} {fromMapping : List (String × Json) → Checked Event}
    (inverts : json.Inverts) (wellFormed : Config.WellFormed engine.settings.resources)
    {start : PublishingRuntime} (fresh : start.cache = .empty)
    {run : List (PublishingCall Token)} (legal : (engine.publishing producer).Legal start run)
    (ofBinding : ∀ command env, .publish command env ∈ run → engine.Scoped command)
    (promised : ∀ x ∈ engine.publicationsIn ((engine.publishing producer).steps start run),
      Promised json fromMapping x)
    (separates :
      Separates producer (engine.PublishedIn ((engine.publishing producer).steps start run)))
    {before after : List (PublishingCall Token)} {command : NegativeAcknowledgeCommand Token}
    {env : DeadLetterEnv} (split : run = before ++ .negativeAcknowledge command env :: after)
    {m : Member}
    (member : ((engine.publishing producer).play start before).states.get? command.group =
      some m) :
    let s := (engine.publishing producer).play start before
    let records := engine.producedIn producer
      ((engine.publishing producer).steps start (before ++ [.negativeAcknowledge command env]))
    (∀ id committed, engine.negativeAcknowledgeAnswer producer s command env =
        .ok (.deadLettered id committed) → ∃ c inflight target,
      engine.LetterKept json fromMapping records m command c inflight target ∧
        id = "dlq-" ++ inflight.event.eventId ++ "-" ++ toString c.attempt) ∧
    ∀ publication,
      engine.deadLetterPublish m command env.nowMs env.utcNow = some publication →
        ((engine.publishNext producer s (.negativeAcknowledge command env)).states.get?
            command.group = some m ∧
          ∃ raised, engine.negativeAcknowledgeAnswer producer s command env = .error raised) ∨
        ∃ c inflight target,
          engine.LetterKept json fromMapping records m command c inflight target := by
  intro s records
  subst split
  rw [Machine.legal_append] at legal
  have hscoped : ∀ command', engine.PublishedIn ((engine.publishing producer).steps start
      (before ++ .negativeAcknowledge command env :: after)) command' →
      engine.Scoped command' := by
    rintro command' ⟨env', hmem⟩
    exact scoped_of_mem_publicationsIn wellFormed ofBinding hmem
  have hpublications : engine.publicationsIn ((engine.publishing producer).steps start
        (before ++ .negativeAcknowledge command env :: after)) =
      engine.publicationsIn ((engine.publishing producer).steps start before) ++
        engine.publicationsIn ((engine.publishing producer).steps s
          (.negativeAcknowledge command env :: after)) := by
    rw [Machine.steps_append, publicationsIn, List.filterMap_append]
    rfl
  have hbacked : Backed producer json (eventParser json fromMapping)
      (engine.PublishedIn ((engine.publishing producer).steps start
        (before ++ .negativeAcknowledge command env :: after)))
      (engine.producedIn producer ((engine.publishing producer).steps start before)) s.cache := by
    refine backed_play fresh inverts legal.1 hscoped fun x hx => ?_
    have hmem : x ∈ engine.publicationsIn ((engine.publishing producer).steps start
        (before ++ .negativeAcknowledge command env :: after)) := by
      rw [hpublications]
      exact List.mem_append_left _ hx
    exact ⟨⟨x.2, hmem⟩, promised x hmem⟩
  -- what the call adds to the records is what its publication has written
  have hkept : ∀ publication id,
      engine.deadLetterPublish m command env.nowMs env.utcNow = some publication →
      (env.through producer s.cache).publish publication = .ok id → ∃ c inflight target,
        engine.LetterKept json fromMapping records m command c inflight target ∧
          id = "dlq-" ++ inflight.event.eventId ++ "-" ++ toString c.attempt := by
    intro publication id hpublishes hid
    have hby : engine.publicationBy s (.negativeAcknowledge command env) =
        some (publication, env.publish) := by
      unfold publicationBy
      dsimp only
      rw [member, Option.bind_some, hpublishes, Option.map_some]
    have hmem : (publication, env.publish) ∈ engine.publicationsIn
        ((engine.publishing producer).steps start
          (before ++ .negativeAcknowledge command env :: after)) := by
      rw [hpublications]
      exact List.mem_append_right _ (List.mem_filterMap.mpr ⟨_, List.mem_cons_self, hby⟩)
    have hrecords : records = engine.producedIn producer
          ((engine.publishing producer).steps start before) ++
        (producer.publish s.cache publication false env.publish).produced := by
      change engine.producedIn producer _ = _
      rw [Machine.steps_append, producedIn, List.flatMap_append, Machine.steps_cons,
        Machine.steps_nil, List.flatMap_singleton, producedBy, hby]
      rfl
    rw [hrecords]
    exact letterKept_of_publish inverts wellFormed hscoped separates hbacked
      ⟨env.publish, hmem⟩ (promised _ hmem) hpublishes hid
  have hanswer : engine.negativeAcknowledgeAnswer producer s command env =
      (engine.negativeAcknowledge m command (env.through producer s.cache)).1 := by
    unfold negativeAcknowledgeAnswer
    rw [member]
  rw [hanswer]
  refine ⟨fun id committed h => ?_, fun publication hpublishes => ?_⟩
  · obtain ⟨publication, hpublishes⟩ := exists_publication_of_deadLettered h
    rw [negativeAcknowledge_of_publication hpublishes] at h
    split at h
    · simp at h
    next published hpublished =>
    -- the report names the id of the first receipt
    have hid : published = id := by
      split at h
      · simp at h
      split at h
      · simp at h
      · exact (NegativeAcknowledged.deadLettered.inj (Except.ok.inj h)).1
    exact hid ▸ hkept publication published hpublishes hpublished
  · have hthrough : engine.deadLetterPublish m command (env.through producer s.cache).nowMs
        (env.through producer s.cache).utcNow = some publication := hpublishes
    cases hpublished : (env.through producer s.cache).publish publication with
    | error raised =>
      have hcall : engine.negativeAcknowledge m command (env.through producer s.cache) =
          (.error raised, m) := by
        rw [negativeAcknowledge_of_publication hthrough, hpublished]
      refine Or.inl ⟨?_, raised, congrArg Prod.fst hcall⟩
      rw [get?_publishNext member, hcall]
    | ok id =>
      obtain ⟨c, inflight, target, hletter, -⟩ := hkept publication id hpublishes hpublished
      exact Or.inr ⟨c, inflight, target, hletter⟩

end Runs

end KafkaConsumerEngine

namespace DeadLetterSample

/-- A Dead Letter Stream whose records can be read back. -/
def letters : PhysicalStream :=
  let fingerprint := "sha256:0000000000000000000000000000000000000000000000000000000000000000"
  { Sample.deadLetters with
    schemaFingerprint := fingerprint
    compatibleSchemaFingerprints := [fingerprint] }

def engine : KafkaConsumerEngine TokenPayload :=
  { Sample.engine with
    settings := { resources := Dict.empty.set letters.ref (.stream letters) } }

theorem wellFormed : Config.WellFormed engine.settings.resources := by
  intro ref resource hget
  change (Dict.empty.set letters.ref (.stream letters)).get? ref = some resource at hget
  rw [Dict.get?_set] at hget
  split at hget
  · next heq =>
    obtain rfl := Option.some.inj hget
    refine ⟨heq.symm, fun stream hstream => ?_⟩
    obtain rfl := PhysicalResourceConfig.stream.inj hstream
    exact ⟨by decide +kernel, List.mem_singleton_self _⟩
  · simp at hget

/-- A group is given record 0 and gives it back. -/
def call : PublishingCall TokenPayload :=
  .negativeAcknowledge (Sample.giveBack Sample.workers) (Sample.deadLetterEnv "now")

def steps : List (PublishingRuntime × PublishingCall TokenPayload) :=
  (engine.publishing Sample.producer).steps {} (Sample.deliveredTo Sample.workers ++ [call])

/-- The value of the letter is small. -/
theorem small : ∀ x ∈ engine.publicationsIn steps, ∀ event ∈ x.1.events,
    event.toDict.byteSize ≤ maxValueBytes := by
  decide +kernel

theorem length_canonicalJsonBytes {value : Json} {bytes : List UInt8}
    (h : plainJson.canonicalJsonBytes value = .ok bytes) : bytes.length = value.byteSize := by
  unfold JsonModule.canonicalJsonBytes at h
  split at h
  · change (if value.sorted.floatFree = true then _ else _) = _ at h
    split at h
    · obtain rfl := Except.ok.inj h
      rw [Json.length_bytes, Json.byteSize_sorted]
    · simp at h
  · simp at h

theorem promised : ∀ x ∈ engine.publicationsIn steps,
    KafkaConsumerEngine.Promised plainJson Published.fromMapping x := by
  intro x hx
  refine ⟨fun event _ => Published.roundTrips event, fun i event bytes hevent hbytes _ => ?_⟩
  rw [length_canonicalJsonBytes hbytes]
  exact small x hx event (List.mem_of_getElem? hevent)

/-- There is one publication, and so nothing to confuse it with. -/
theorem separates : KafkaConsumerEngine.Separates Sample.producer (engine.PublishedIn steps) := by
  have hone : (engine.publicationsIn steps).length = 1 := by decide +kernel
  obtain ⟨x, hx⟩ := List.length_eq_one_iff.mp hone
  rintro command command' fingerprint ⟨env, hmem⟩ ⟨env', hmem'⟩ - -
  rw [hx, List.mem_singleton] at hmem hmem'
  obtain ⟨rfl, -⟩ := Prod.mk.inj (hmem.trans hmem'.symm)
  exact PublishCommand.sameData_iff.mpr rfl

end DeadLetterSample

/-- The letter of a delivery. -/
theorem dead_letter_kept :
    ∃ (m : Member) (c : DeliveryCoordinates) (inflight : Inflight) (target : PhysicalStream),
      DeadLetterSample.engine.LetterKept plainJson Published.fromMapping
        (DeadLetterSample.engine.producedIn Sample.producer DeadLetterSample.steps) m
        (Sample.giveBack Sample.workers) c inflight target := by
  let s := (DeadLetterSample.engine.publishing Sample.producer).play {}
    (Sample.deliveredTo Sample.workers)
  obtain ⟨m, hm⟩ : ∃ m, s.states.get? (Sample.giveBack Sample.workers).group = some m :=
    Option.isSome_iff_exists.mp (by decide +kernel)
  have hanswer : DeadLetterSample.engine.negativeAcknowledgeAnswer Sample.producer s
      (Sample.giveBack Sample.workers) (Sample.deadLetterEnv "now") =
        .ok (.deadLettered "dlq-event-1" true) := by
    decide +kernel
  obtain ⟨hkept, -⟩ := KafkaConsumerEngine.dead_letters_kept DeadLetterSample.engine
    Sample.producer plainJson_inverts DeadLetterSample.wellFormed rfl (by decide +kernel)
    (fun command env h => by simp [Sample.deliveredTo, DeadLetterSample.call] at h)
    DeadLetterSample.promised DeadLetterSample.separates rfl hm
  obtain ⟨c, inflight, target, hletter, -⟩ := hkept _ _ hanswer
  exact ⟨m, c, inflight, target, hletter⟩

end MeridianKafka
