import MeridianKafka.Contract

/-!
# The producer engine

`KafkaProducerEngine.publish`: the idempotency cache in front, the loop that hands each
event to the client, the flush, and the receipts. The environment of a call holds the
outcome of every client call that it may make and the report that the delivery callback
of each event has left when the receipts are made.

The cache is a dictionary in the order of use. A call with an idempotency key either
replays the receipts that it finds under the key, or is refused because they belong to
other Event Data, or publishes and remembers its receipts (`publish_cases`). A call on a
transactional producer does not look at the cache.

`sha256_fingerprint` is a parameter: the engine compares fingerprints and does nothing
else with them.
-/

namespace MeridianKafka

open Framework

/-- What the producer client is handed for one event. The value is the canonical text of
the object. -/
structure ProducerRecord where
  topic : String
  value : Json
  key : String
  headers : List (String × String)

structure PublishReceipt where
  eventId : String
  position : Position
  publishedAt : String
  deriving DecidableEq, Repr

/-- The client calls of `_produce_one`, up to the one that ends its loop. -/
inductive ProduceCalls
  /-- `produce` takes the record; what `poll(0)` raises after it. -/
  | taken (poll : Option Raised)
  /-- Serializing the event, or `produce`, raises. -/
  | raises (raised : Raised)
  /-- The queue is full, and the deadline has passed. -/
  | fullAtDeadline
  /-- The queue is full: what the waiting `poll` raises, and the calls after it. -/
  | full (poll : Option Raised) (rest : ProduceCalls)

/-- `_Delivery`: what the callback has reported, the coordinates of the message at last. -/
structure DeliveryReport where
  error : Option KafkaError := none
  message : Option (ℕ × ℕ) := none
  deriving DecidableEq, Repr

/-- The record is taken, and no call raises. -/
def ProduceCalls.Succeed : ProduceCalls → Prop
  | .taken none => True
  | .full none rest => rest.Succeed
  | _ => False

structure PublishEnv where
  /-- The calls for the event at this place of the command. -/
  produce : ℕ → ProduceCalls := fun _ => .taken none
  flush : Except Raised ℕ := .ok 0
  report : ℕ → DeliveryReport
  utcNow : ℕ → String := fun _ => ""
  emit : Option Raised := none

/-- Every Kafka call for a command of `n` events succeeds: each record is taken, the flush
leaves nothing behind, and each callback reports a message without an error. -/
structure PublishEnv.KafkaCallsSucceed (env : PublishEnv) (n : ℕ) : Prop where
  produce : ∀ i < n, (env.produce i).Succeed
  flush : env.flush = .ok 0
  error : ∀ i < n, (env.report i).error = none
  message : ∀ i < n, (env.report i).message.isSome

/-- The application keys with their fingerprints and receipts, the last used one at the
end. -/
abbrev IdempotencyCache := Dict String (String × List PublishReceipt)

/-- What a call of `publish` ends with: the answer, the cache, and the records that the
client took. -/
structure PublishOutcome where
  answer : Except Raised (List PublishReceipt)
  cache : IdempotencyCache
  produced : List ProducerRecord

structure KafkaProducerEngine where
  /-- `sha256_fingerprint` of a JSON value. -/
  sha256Fingerprint : Json → Except Raised String

/-- What the fingerprint of a publication covers. -/
def PublishCommand.operation (command : PublishCommand) : Json :=
  .obj [("stream", .str command.stream.ref.str),
    ("events", .arr (command.events.map Event.toDict))]

namespace KafkaProducerEngine

def maxIdempotencyEntries : ℕ := 10000

def operationContract : Option String := "meridian.streaming.publish"

/-! ### Producing -/

/-- `key.lower().startswith("meridian.")`. -/
def reservedHeader (name : String) : Bool :=
  "meridian.".toList.isPrefixOf (name.toList.map Char.toLower)

/-- The `traceparent` of an event, when it is a text with something in it. -/
def traceparent (event : Event) : Option String :=
  match event.traceContext.lookup "traceparent" with
  | some (.str value) => if value = "" then none else some value
  | _ => none

/-- The record of one event. An event without a logical partition key, or with an empty
one, goes by its id. -/
def record (stream : PhysicalStream) (event : Event) : ProducerRecord where
  topic := stream.topic
  value := event.toDict
  key := (event.logicalPartitionKey.filter (· ≠ "")).getD event.eventId
  headers :=
    [("meridian.format", event.formatVersion), ("meridian.event-id", event.eventId),
      ("meridian.schema-fingerprint", stream.schemaFingerprint)] ++
      ((traceparent event).map fun value => ("traceparent", value)).toList

/-- The loop of `_produce_one`, with the records that the client took. -/
def produceLoop (record : ProducerRecord) : ProduceCalls → Except Raised Unit × List ProducerRecord
  | .taken none => (.ok (), [record])
  | .taken (some raised) =>
    (.error (.failure (normalizeKafkaError raised operationContract)), [record])
  | .raises raised => (.error (.failure (normalizeKafkaError raised operationContract)), [])
  | .fullAtDeadline =>
    (.error (.failure
      { kind := .kafkaOperationFailed
        message := "Kafka producer queue remained full until the deadline"
        retryable := true }), [])
  | .full (some raised) _ => (.error raised, [])
  | .full none rest => produceLoop record rest

/-- `_produce_one`. -/
def produceOne (stream : PhysicalStream) (event : Event) (calls : ProduceCalls) :
    Except Raised Unit × List ProducerRecord :=
  if event.headers.any fun header => reservedHeader header.1 then
    (.error (.failure
      { kind := .invalidEvent
        message := "Event headers cannot use the reserved meridian. prefix"
        requirement := "event.headers" }), [])
  else produceLoop (record stream event) calls

/-- The events of a command from one place on, up to the one that raises. -/
def produceEvents (stream : PhysicalStream) (produce : ℕ → ProduceCalls) :
    ℕ → List Event → Except Raised Unit × List ProducerRecord
  | _, [] => (.ok (), [])
  | i, event :: events =>
    match produceOne stream event (produce i) with
    | (.error raised, records) => (.error raised, records)
    | (.ok (), records) =>
      match produceEvents stream produce (i + 1) events with
      | (answer, later) => (answer, records ++ later)

/-- The receipt of one event. -/
def receipt (stream : PhysicalStream) (event : Event) (report : DeliveryReport) (utcNow : String) :
    Except Raised PublishReceipt :=
  match report.error with
  | some error => .error (.failure (normalizeKafkaError (.kafka error) operationContract))
  | none =>
    match report.message with
    | none =>
      .error (.failure
        { kind := .kafkaOperationFailed
          message := "Kafka delivery callback did not return metadata" })
    | some (partition, offset) =>
      .ok
        { eventId := event.eventId
          position :=
            { resource := stream.ref
              topic := stream.topic
              partition
              offset
              logicalPartition := event.logicalPartitionKey }
          publishedAt := utcNow }

/-- The receipts of the events from one place on. -/
def receipts (stream : PhysicalStream) (env : PublishEnv) :
    ℕ → List Event → Except Raised (List PublishReceipt)
  | _, [] => .ok []
  | i, event :: events => do
    let first ← receipt stream event (env.report i) (env.utcNow i)
    let later ← receipts stream env (i + 1) events
    return first :: later

/-- Producing every event, flushing, and making the receipts. -/
def send (command : PublishCommand) (env : PublishEnv) :
    Except Raised (List PublishReceipt) × List ProducerRecord :=
  match produceEvents command.stream env.produce 0 command.events with
  | (.error raised, records) => (.error raised, records)
  | (.ok (), records) =>
    match env.flush with
    | .error raised => (.error raised, records)
    | .ok queued =>
      if queued ≠ 0 then
        (.error (.failure
          { kind := .kafkaOperationFailed
            message := "Kafka producer did not deliver every Event before the deadline"
            retryable := true }), records)
      else (receipts command.stream env 0 command.events, records)

/-! ### The idempotency cache -/

/-- Remember a publication under its key, and forget the keys used longest ago. -/
def remember (cache : IdempotencyCache) (key : String) (fingerprint : String)
    (receipts : List PublishReceipt) : IdempotencyCache :=
  ((cache.set key (fingerprint, receipts)).moveToEnd key).keepLast maxIdempotencyEntries

def keyReused : Failure where
  kind := .invalidEvent
  message := "idempotency key was reused with different Event Data"
  requirement := "publish.idempotency-key"

/-- The part of `publish` after the cache has been looked at. -/
def publishNew (cache : IdempotencyCache) (command : PublishCommand) (key : Option String)
    (fingerprint : String) (env : PublishEnv) : PublishOutcome :=
  match send command env with
  | (.error raised, records) => { answer := .error raised, cache, produced := records }
  | (.ok receipts, records) =>
    { answer := env.emit.elim (.ok receipts) .error
      cache := key.elim cache fun key => remember cache key fingerprint receipts
      produced := records }

variable (engine : KafkaProducerEngine)

/-- `publish`, on the engine's own producer or on the one of a transaction. -/
def publish (cache : IdempotencyCache) (command : PublishCommand) (transactional : Bool)
    (env : PublishEnv) : PublishOutcome :=
  match engine.sha256Fingerprint command.operation with
  | .error raised => { answer := .error raised, cache, produced := [] }
  | .ok fingerprint =>
    match if transactional then none else command.idempotencyKey with
    | none => publishNew cache command none fingerprint env
    | some key =>
      match cache.get? key with
      | none => publishNew cache command (some key) fingerprint env
      | some (remembered, receipts) =>
        if remembered ≠ fingerprint then
          { answer := .error (.failure keyReused), cache, produced := [] }
        else
          { answer := env.emit.elim (.ok receipts) .error
            cache := cache.moveToEnd key
            produced := [] }

/-! ### What a call does -/

/-- What is written is written before the flush. -/
theorem send_records (command : PublishCommand) (env : PublishEnv) :
    (send command env).2 = (produceEvents command.stream env.produce 0 command.events).2 := by
  unfold send
  generalize produceEvents command.stream env.produce 0 command.events = outcome
  obtain ⟨raised | ⟨⟨⟩⟩, records⟩ := outcome
  · rfl
  dsimp only
  cases env.flush with
  | error raised => rfl
  | ok queued =>
    dsimp only
    split <;> rfl

/-- There are receipts when every event has been produced and the flush leaves none behind. -/
theorem send_eq_ok_iff {command : PublishCommand} {env : PublishEnv} {rs : List PublishReceipt} :
    (send command env).1 = .ok rs ↔
      (produceEvents command.stream env.produce 0 command.events).1 = .ok () ∧
        env.flush = .ok 0 ∧ receipts command.stream env 0 command.events = .ok rs := by
  unfold send
  generalize produceEvents command.stream env.produce 0 command.events = outcome
  obtain ⟨raised | ⟨⟨⟩⟩, records⟩ := outcome
  · simp
  dsimp only
  cases env.flush with
  | error raised => simp
  | ok queued =>
    dsimp only
    by_cases hqueued : queued = 0
    · rw [if_neg (not_not.mpr hqueued), hqueued]
      simp
    · rw [if_pos hqueued]
      simp [hqueued]

theorem publishNew_of_raises {command : PublishCommand} {env : PublishEnv} {raised : Raised}
    {records : List ProducerRecord} (h : send command env = (.error raised, records))
    (cache : IdempotencyCache) (key : Option String) (fingerprint : String) :
    publishNew cache command key fingerprint env =
      { answer := .error raised, cache, produced := records } := by
  unfold publishNew
  rw [h]

theorem publishNew_of_receipts {command : PublishCommand} {env : PublishEnv}
    {rs : List PublishReceipt} {records : List ProducerRecord}
    (h : send command env = (.ok rs, records)) (cache : IdempotencyCache) (key : Option String)
    (fingerprint : String) :
    publishNew cache command key fingerprint env =
      { answer := env.emit.elim (.ok rs) .error
        cache := key.elim cache fun key => remember cache key fingerprint rs
        produced := records } := by
  unfold publishNew
  rw [h]

theorem produceLoop_of_succeed {record : ProducerRecord} {calls : ProduceCalls}
    (h : calls.Succeed) : produceLoop record calls = (.ok (), [record]) := by
  induction calls with
  | taken poll =>
    cases poll with
    | none => rfl
    | some raised => exact absurd h id
  | raises raised => exact absurd h id
  | fullAtDeadline => exact absurd h id
  | full poll rest ih =>
    cases poll with
    | none => exact ih h
    | some raised => exact absurd h id

/-- When the calls succeed, every event is produced, in the order of the command. -/
theorem produceEvents_of_succeed {stream : PhysicalStream} {produce : ℕ → ProduceCalls}
    {events : List Event} (plain : ∀ event ∈ events, ∀ header ∈ event.headers,
      ¬reservedHeader header.1) (i : ℕ)
    (h : ∀ j, i ≤ j → j < i + events.length → (produce j).Succeed) :
    produceEvents stream produce i events = (.ok (), events.map (record stream)) := by
  induction events generalizing i with
  | nil => rfl
  | cons event events ih =>
    have hheaders : ¬event.headers.any fun header => reservedHeader header.1 := by
      simpa using plain event List.mem_cons_self
    have hfirst : produceOne stream event (produce i) = (.ok (), [record stream event]) := by
      unfold produceOne
      rw [if_neg hheaders]
      exact produceLoop_of_succeed (h i le_rfl (by simp))
    have hlater := ih (fun e he => plain e (List.mem_cons_of_mem _ he)) (i + 1)
      fun j hle hlt => h j (by omega) (by simp only [List.length_cons]; omega)
    rw [produceEvents, hfirst]
    dsimp only
    rw [hlater]
    rfl

theorem receipts_of_reports {stream : PhysicalStream} {env : PublishEnv} {events : List Event}
    (i : ℕ) (error : ∀ j, i ≤ j → j < i + events.length → (env.report j).error = none)
    (message : ∀ j, i ≤ j → j < i + events.length → (env.report j).message.isSome) :
    ∃ rs, receipts stream env i events = .ok rs ∧
      rs.map PublishReceipt.eventId = events.map Event.eventId := by
  induction events generalizing i with
  | nil => exact ⟨[], rfl, rfl⟩
  | cons event events ih =>
    -- the later events report under the later indices
    obtain ⟨later, hlater, hids⟩ := ih (i + 1)
      (fun j hle hlt => error j (by omega) (by simp only [List.length_cons]; omega))
      (fun j hle hlt => message j (by omega) (by simp only [List.length_cons]; omega))
    obtain ⟨⟨partition, offset⟩, hmessage⟩ := Option.isSome_iff_exists.mp
      (message i le_rfl (by simp))
    have herror := error i le_rfl (by simp)
    have hfirst : ∃ first, receipt stream event (env.report i) (env.utcNow i) = .ok first ∧
        first.eventId = event.eventId := by
      unfold receipt
      rw [herror, hmessage]
      exact ⟨_, rfl, rfl⟩
    obtain ⟨first, hfirst, hid⟩ := hfirst
    refine ⟨first :: later, ?_, by rw [List.map_cons, List.map_cons, hid, hids]⟩
    rw [receipts, hfirst, hlater]
    rfl

/-- A publication whose Kafka calls succeed has a receipt for each event. -/
theorem send_of_succeed {command : PublishCommand} {env : PublishEnv}
    (plain : ∀ event ∈ command.events, ∀ header ∈ event.headers, ¬reservedHeader header.1)
    (h : env.KafkaCallsSucceed command.events.length) :
    ∃ rs, send command env = (.ok rs, command.events.map (record command.stream)) ∧
      rs.map PublishReceipt.eventId = command.events.map Event.eventId := by
  have hproduce : produceEvents command.stream env.produce 0 command.events =
      (.ok (), command.events.map (record command.stream)) :=
    produceEvents_of_succeed plain 0 fun j _ hlt => h.produce j (by omega)
  have hreports : ∃ rs, receipts command.stream env 0 command.events = .ok rs ∧
      rs.map PublishReceipt.eventId = command.events.map Event.eventId := by
    refine receipts_of_reports 0 (fun j _ hlt => ?_) (fun j _ hlt => ?_)
    · exact h.error j (by omega)
    · exact h.message j (by omega)
  obtain ⟨rs, hreceipts, hids⟩ := hreports
  refine ⟨rs, Prod.ext ?_ ?_, hids⟩
  · exact send_eq_ok_iff.mpr ⟨congrArg Prod.fst hproduce, h.flush, hreceipts⟩
  · exact (send_records command env).trans (congrArg Prod.snd hproduce)

/-- What is remembered is found. -/
theorem get?_remember (cache : IdempotencyCache) (key fingerprint : String)
    (receipts : List PublishReceipt) :
    (remember cache key fingerprint receipts).get? key = some (fingerprint, receipts) :=
  Dict.get?_keepLast_moveToEnd (Dict.get?_set_self ..) 9999

variable {engine}

/-- **The three ways of a call with an application key**, once its fingerprint is known:
it is refused, or it replays, or it publishes. -/
theorem publish_cases {cache : IdempotencyCache} {command : PublishCommand} {key : String}
    {fingerprint : String} (hkey : command.idempotencyKey = some key)
    (hfingerprint : engine.sha256Fingerprint command.operation = .ok fingerprint)
    (env : PublishEnv) :
    (∃ remembered rs, cache.get? key = some (remembered, rs) ∧ remembered ≠ fingerprint ∧
      engine.publish cache command false env =
        { answer := .error (.failure keyReused), cache, produced := [] }) ∨
    (∃ rs, cache.get? key = some (fingerprint, rs) ∧
      engine.publish cache command false env =
        { answer := env.emit.elim (.ok rs) .error
          cache := cache.moveToEnd key
          produced := [] }) ∨
    cache.get? key = none ∧
      engine.publish cache command false env =
        publishNew cache command (some key) fingerprint env := by
  unfold publish
  rw [hfingerprint, hkey]
  dsimp only
  rw [if_neg Bool.false_ne_true]
  dsimp only
  -- The cache knows the key with other data, with the same data, or not at all.
  rcases hfound : cache.get? key with _ | ⟨remembered, rs⟩
  · exact Or.inr (Or.inr ⟨rfl, rfl⟩)
  · dsimp only
    by_cases hsame : remembered = fingerprint
    · subst hsame
      rw [if_neg (not_not.mpr rfl)]
      exact Or.inr (Or.inl ⟨rs, rfl, rfl⟩)
    · rw [if_pos hsame]
      exact Or.inl ⟨remembered, rs, rfl, hsame, rfl⟩

/-- When the Kafka calls that it makes succeed, a call with an application key returns
exactly when the cache has nothing else under the key and the telemetry sink does not
raise. -/
theorem publish_ok_iff {cache : IdempotencyCache} {command : PublishCommand} {key : String}
    {env : PublishEnv} (hkey : command.idempotencyKey = some key)
    (plain : ∀ event ∈ command.events, ∀ header ∈ event.headers, ¬reservedHeader header.1)
    (calls : cache.get? key = none → env.KafkaCallsSucceed command.events.length) :
    (∃ rs, (engine.publish cache command false env).answer = .ok rs) ↔
      (∃ fingerprint, engine.sha256Fingerprint command.operation = .ok fingerprint ∧
        ∀ remembered rs, cache.get? key = some (remembered, rs) → remembered = fingerprint) ∧
      env.emit = none := by
  cases hfingerprint : engine.sha256Fingerprint command.operation with
  | error raised =>
    refine iff_of_false ?_ fun h => ?_
    · rintro ⟨rs, hrs⟩
      unfold publish at hrs
      rw [hfingerprint] at hrs
      simp at hrs
    · obtain ⟨⟨fingerprint, hsome, -⟩, -⟩ := h
      simp at hsome
  | ok fingerprint =>
    -- Once there are receipts only telemetry can raise.
    have helim : ∀ rs : List PublishReceipt,
        (∃ rs', (env.emit.elim (Except.ok rs) Except.error : Except Raised _) = .ok rs') ↔
          env.emit = none := by
      intro rs
      cases env.emit <;> simp
    have hsame : (∃ fingerprint', (Except.ok fingerprint : Except Raised String) =
          .ok fingerprint' ∧ ∀ remembered rs, cache.get? key = some (remembered, rs) →
            remembered = fingerprint') ↔
        ∀ remembered rs, cache.get? key = some (remembered, rs) → remembered = fingerprint := by
      simp
    rw [hsame]
    -- The key is taken by other Event Data, by the same, or free.
    rcases publish_cases hkey hfingerprint env with
      ⟨remembered, rs, hfound, hne, hpublish⟩ | ⟨rs, hfound, hpublish⟩ | ⟨hfree, hpublish⟩
    · refine iff_of_false ?_ fun h => hne (h.1 remembered rs hfound)
      rintro ⟨rs', hrs'⟩
      rw [hpublish] at hrs'
      simp at hrs'
    · rw [hpublish]
      refine (helim rs).trans (and_iff_right ?_).symm
      intro remembered rs' hfound'
      have heq := Option.some.inj (hfound.symm.trans hfound')
      exact (Prod.mk.inj heq).1.symm
    · obtain ⟨rs, hsend, -⟩ := send_of_succeed plain (calls hfree)
      rw [hpublish, publishNew_of_receipts hsend]
      refine (helim rs).trans (and_iff_right ?_).symm
      intro remembered rs' hfound
      exact absurd (hfree.symm.trans hfound) (by simp)

/-- Whatever a call with a key that is taken does, it produces nothing, and the key stays
taken. -/
theorem publish_of_taken {cache : IdempotencyCache} {command : PublishCommand} {key : String}
    (hkey : command.idempotencyKey = some key) (taken : (cache.get? key).isSome)
    (env : PublishEnv) :
    (engine.publish cache command false env).produced = [] ∧
      ((engine.publish cache command false env).cache.get? key).isSome := by
  cases hfingerprint : engine.sha256Fingerprint command.operation with
  | error raised =>
    unfold publish
    rw [hfingerprint]
    exact ⟨rfl, taken⟩
  | ok fingerprint =>
    -- a key that is taken leads to a replay or a conflict
    rcases publish_cases hkey hfingerprint env with
      ⟨remembered, rs, -, -, hpublish⟩ | ⟨rs, -, hpublish⟩ | ⟨hfree, -⟩
    · rw [hpublish]
      exact ⟨rfl, taken⟩
    · rw [hpublish]
      refine ⟨rfl, ?_⟩
      rwa [Dict.get?_moveToEnd]
    · rw [hfree] at taken
      exact absurd taken (by simp)

/-- A call that returns has taken its key. -/
theorem taken_of_publish_ok {cache : IdempotencyCache} {command : PublishCommand} {key : String}
    (hkey : command.idempotencyKey = some key) {env : PublishEnv} {rs : List PublishReceipt}
    (h : (engine.publish cache command false env).answer = .ok rs) :
    ((engine.publish cache command false env).cache.get? key).isSome := by
  by_cases htaken : (cache.get? key).isSome
  · exact (publish_of_taken hkey htaken env).2
  cases hfingerprint : engine.sha256Fingerprint command.operation with
  | error raised =>
    unfold publish at h
    rw [hfingerprint] at h
    simp at h
  | ok fingerprint =>
    rcases publish_cases hkey hfingerprint env with
      ⟨remembered, rs, hfound, -⟩ | ⟨rs, hfound, -⟩ | ⟨-, hpublish⟩
    · exact absurd (Option.isSome_of_eq_some hfound) htaken
    · exact absurd (Option.isSome_of_eq_some hfound) htaken
    · rw [hpublish] at h ⊢
      rcases hsend : send command env with ⟨raised | rs', records⟩
      · rw [publishNew_of_raises hsend] at h
        simp at h
      · rw [publishNew_of_receipts hsend]
        exact Option.isSome_of_eq_some (get?_remember cache key fingerprint rs')

/-- Every remembered publication has a receipt. -/
def Receipted (cache : IdempotencyCache) : Prop :=
  ∀ key fingerprint rs, cache.get? key = some (fingerprint, rs) → rs ≠ []

theorem receipts_ne_nil {stream : PhysicalStream} {env : PublishEnv} {events : List Event}
    (nonempty : events ≠ []) {i : ℕ} {rs : List PublishReceipt}
    (h : receipts stream env i events = .ok rs) : rs ≠ [] := by
  cases events with
  | nil => exact absurd rfl nonempty
  | cons event events =>
    rw [receipts] at h
    obtain ⟨first, -, h⟩ := exists_of_bind_eq_ok h
    obtain ⟨later, -, h⟩ := exists_of_bind_eq_ok h
    obtain rfl := Except.ok.inj h
    exact List.cons_ne_nil first later

theorem send_ne_nil {command : PublishCommand} {env : PublishEnv} {rs : List PublishReceipt}
    (nonempty : command.events ≠ []) (h : (send command env).1 = .ok rs) : rs ≠ [] := by
  obtain ⟨-, -, hreceipts⟩ := send_eq_ok_iff.mp h
  exact receipts_ne_nil nonempty hreceipts

variable (engine) in
/-- A call leaves a receipt with every remembered publication, and returns one. -/
theorem publish_receipted {cache : IdempotencyCache} (receipted : Receipted cache)
    {command : PublishCommand} (nonempty : command.events ≠ []) (transactional : Bool)
    (env : PublishEnv) :
    Receipted (engine.publish cache command transactional env).cache ∧
      ∀ rs, (engine.publish cache command transactional env).answer = .ok rs → rs ≠ [] := by
  -- A new entry holds what was sent, and that is one receipt for each event at least.
  have hnew : ∀ key fingerprint,
      Receipted (publishNew cache command key fingerprint env).cache ∧
        ∀ rs, (publishNew cache command key fingerprint env).answer = .ok rs → rs ≠ [] := by
    intro key fingerprint
    have hsend : ∀ rs, (send command env).1 = .ok rs → rs ≠ [] := fun rs => send_ne_nil nonempty
    rcases hsent : send command env with ⟨raised | rs, records⟩ <;> rw [hsent] at hsend
    · rw [publishNew_of_raises hsent]
      exact ⟨receipted, fun rs h => by simp at h⟩
    rw [publishNew_of_receipts hsent]
    refine ⟨?_, fun rs' h => ?_⟩
    · cases key with
      | none => exact receipted
      | some key =>
        intro key' fingerprint' rs' hfound
        have hset := Dict.get?_of_keepLast hfound
        rw [Dict.get?_moveToEnd, Dict.get?_set] at hset
        split at hset
        · obtain ⟨-, rfl⟩ := Prod.mk.inj (Option.some.inj hset)
          exact hsend _ rfl
        · exact receipted _ _ _ hset
    · obtain rfl : rs = rs' := by
        cases hemit : env.emit with
        | none => simpa [hemit] using h
        | some raised => simp [hemit] at h
      exact hsend _ rfl
  unfold publish
  split
  · exact ⟨receipted, fun rs h => by simp at h⟩
  split
  · exact hnew _ _
  split
  · exact hnew _ _
  next remembered rs hfound =>
  split
  · exact ⟨receipted, fun rs h => by simp at h⟩
  · -- A replay only moves its entry.
    refine ⟨fun key' fingerprint' rs' hmoved => ?_, fun rs' h => ?_⟩
    · rw [Dict.get?_moveToEnd] at hmoved
      exact receipted _ _ _ hmoved
    · obtain rfl : rs = rs' := by
        cases hemit : env.emit with
        | none => simpa [hemit] using h
        | some raised => simp [hemit] at h
      exact receipted _ _ _ hfound

end KafkaProducerEngine

end MeridianKafka
