import MeridianKafka.Framework.Machine
import MeridianKafka.Framework.Recency
import MeridianKafka.Producer.Refused

/-!
# Replays

The idempotency cache answers for the 10,000 application keys that were used last. A
`ReplayBook` is the cache next to the list of its uses: the calls that have published or
replayed under a key, each with its command and its receipts. One call keeps the two in step
(`keeps_next`), in a run of any length the cache then holds the last use of each of those
keys (`keeps_play`), and what a call does is decided by the last use of its key and the
number of other keys since (`replays_iff_recent`).

The cache compares fingerprints. That they stand for the Event Data is what is assumed of
SHA-256 and of canonical JSON (`Fingerprints`). A Stream is known by the text of its
reference.
-/

namespace MeridianKafka

open Framework

/-! ### Event Data -/

/-- Two commands publish the same events to the same Stream. -/
structure PublishCommand.SameData (command command' : PublishCommand) : Prop where
  stream : command.stream.ref.str = command'.stream.ref.str
  events : List.Forall₂ Event.Equal command.events command'.events

/-- Two references with the same canonical text. -/
theorem ResourceRef.eq_of_sorted {ref ref' : ResourceRef}
    (h : ref.toDict.sorted = ref'.toDict.sorted) : ref = ref' := by
  rw [ResourceRef.toDict, ResourceRef.toDict, Json.sorted_obj, Json.sorted_obj, Json.obj.injEq,
    Json.sortFields_eq_iff (by simp) (by simp)] at h
  cases ref
  cases ref'
  simpa [Json.sorted] using h

theorem SchemaRef.eq_of_sorted {ref ref' : SchemaRef}
    (h : ref.toDict.sorted = ref'.toDict.sorted) : ref = ref' := by
  rw [SchemaRef.toDict, SchemaRef.toDict, Json.sorted_obj, Json.sorted_obj, Json.obj.injEq,
    Json.sortFields_eq_iff (by simp) (by simp)] at h
  cases ref
  cases ref'
  simpa [Json.sorted] using h

/-- A text that may be missing, as a JSON value. -/
theorem elim_sorted_inj {text text' : Option String} :
    (text.elim Json.null Json.str).sorted = (text'.elim Json.null Json.str).sorted ↔
      text = text' := by
  cases text with
  | none => cases text' <;> simp [Json.sorted]
  | some text => cases text' <;> simp [Json.sorted]

/-- The canonical text of an event tells it apart from every other one. -/
theorem Event.equal_iff {event event' : Event} :
    event.Equal event' ↔ event.toDict.sorted = event'.toDict.sorted := by
  rw [Event.toDict, Event.toDict, Json.sorted_obj, Json.sorted_obj, Json.obj.injEq,
    Json.sortFields_eq_iff (by simp) (by simp)]
  simp only [List.map_cons, List.map_nil, List.cons.injEq, and_true, Json.sorted_obj,
    Json.obj.injEq, elim_sorted_inj]
  simp only [Json.sorted, Json.str.injEq]
  constructor
  · intro h
    exact ⟨h.formatVersion, h.eventId, congrArg (fun ref => ref.toDict.sorted) h.stream,
      congrArg (fun ref => ref.toDict.sorted) h.schema, h.data, h.occurredAt, h.producedAt,
      h.logicalPartitionKey, h.headers, h.traceContext, h.extensions⟩
  · rintro ⟨hformat, hid, hstream, hschema, hdata, hoccurred, hproduced, hkey, hheaders, htrace,
      hextensions⟩
    exact ⟨hformat, hid, ResourceRef.eq_of_sorted hstream, SchemaRef.eq_of_sorted hschema, hdata,
      hoccurred, hproduced, hkey, hheaders, htrace, hextensions⟩

/-- The canonical text of a publication tells its Event Data apart. -/
theorem PublishCommand.sameData_iff {command command' : PublishCommand} :
    command.SameData command' ↔ command.operation.sorted = command'.operation.sorted := by
  have hevents : List.Forall₂ Event.Equal command.events command'.events ↔
      command.events.map (fun event => event.toDict.sorted) =
        command'.events.map fun event => event.toDict.sorted := by
    rw [← List.forall₂_eq_eq_eq, List.forall₂_map_left_iff, List.forall₂_map_right_iff]
    exact ⟨fun h => h.imp fun _ _ => Event.equal_iff.mp,
      fun h => h.imp fun _ _ => Event.equal_iff.mpr⟩
  rw [PublishCommand.operation, PublishCommand.operation, Json.sorted_obj, Json.sorted_obj,
    Json.obj.injEq, Json.sortFields_eq_iff (by simp) (by simp)]
  simp only [List.map_cons, List.map_nil, List.cons.injEq, and_true, Json.sorted,
    Json.sortedItems_eq, List.map_map, Json.str.injEq, Json.arr.injEq]
  exact ⟨fun h => ⟨h.stream, hevents.mp h.events⟩, fun h => ⟨h.1, hevents.mpr h.2⟩⟩

namespace KafkaProducerEngine

/-- The fingerprint of a document is that of its canonical text, and no two texts share
one. -/
structure Fingerprints (engine : KafkaProducerEngine) : Prop where
  canonical : ∀ document document', document.sorted = document'.sorted →
    engine.sha256Fingerprint document = engine.sha256Fingerprint document'
  injective : ∀ document document' fingerprint,
    engine.sha256Fingerprint document = .ok fingerprint →
    engine.sha256Fingerprint document' = .ok fingerprint → document.sorted = document'.sorted

end KafkaProducerEngine

/-! ### Uses of a key -/

/-- A call of `publish`, with what its collaborators answer. -/
structure PublishRequest where
  command : PublishCommand
  transactional : Bool := false
  env : PublishEnv

/-- A call that has published or replayed under a key. -/
structure KeyUse where
  key : String
  command : PublishCommand
  receipts : List PublishReceipt

/-- The cache, and its uses, newest first. -/
structure ReplayBook where
  cache : IdempotencyCache := .empty
  uses : List KeyUse := []

namespace KafkaProducerEngine

variable (engine : KafkaProducerEngine)

/-- The receipts that a call comes to, whether or not telemetry lets it return them. -/
def receiptsOf (cache : IdempotencyCache) (call : PublishRequest) :
    Option (List PublishReceipt) :=
  match (engine.publish cache call.command call.transactional
      { call.env with emit := none }).answer with
  | .ok receipts => some receipts
  | .error _ => none

/-- One call after another. Only a call on the engine's own producer, with a key, uses it. -/
def replays : Machine ReplayBook PublishRequest where
  allowed _ _ := True
  next book call :=
    { cache := (engine.publish book.cache call.command call.transactional call.env).cache
      uses :=
        match if call.transactional then none else call.command.idempotencyKey,
          engine.receiptsOf book.cache call with
        | some key, some receipts => ⟨key, call.command, receipts⟩ :: book.uses
        | _, _ => book.uses }

/-- What the cache holds for a use. -/
def entryOf (use : KeyUse) : String × (String × List PublishReceipt) :=
  (use.key,
    (match engine.sha256Fingerprint use.command.operation with
      | .ok fingerprint => fingerprint
      | .error _ => "",
    use.receipts))

/-- The cache holds the keys used last, and each use has a fingerprint. -/
structure InStep (book : ReplayBook) : Prop where
  keeps : book.cache.Keeps maxIdempotencyEntries (book.uses.map engine.entryOf)
  fingerprint : ∀ use ∈ book.uses, ∃ fingerprint,
    engine.sha256Fingerprint use.command.operation = .ok fingerprint

variable {engine} {cache : IdempotencyCache} {command : PublishCommand} {key fingerprint : String}

/-! ### One call -/

/-- A call that has no key, or is on the producer of a transaction, goes past the cache. -/
theorem publish_of_unkeyed {transactional : Bool}
    (unkeyed : transactional = true ∨ command.idempotencyKey = none) (env : PublishEnv)
    (cache cache' : IdempotencyCache) :
    (engine.publish cache command transactional env).answer =
        (engine.publish cache' command transactional env).answer ∧
      (engine.publish cache command transactional env).produced =
        (engine.publish cache' command transactional env).produced ∧
      (engine.publish cache command transactional env).cache = cache := by
  -- Either way the call looks for no key.
  have hkey : (if transactional then none else command.idempotencyKey) = none := by
    cases unkeyed with
    | inl htransactional => rw [htransactional, if_pos rfl]
    | inr hnone => rw [hnone, ite_self]
  unfold publish
  cases engine.sha256Fingerprint command.operation with
  | error raised => exact ⟨rfl, rfl, rfl⟩
  | ok fingerprint =>
    dsimp only
    rw [hkey]
    rcases hsend : send command env with ⟨raised | receipts, records⟩
    · dsimp only
      rw [publishNew_of_raises hsend, publishNew_of_raises hsend]
      exact ⟨rfl, rfl, rfl⟩
    · dsimp only
      rw [publishNew_of_receipts hsend, publishNew_of_receipts hsend]
      exact ⟨rfl, rfl, rfl⟩

/-- A key that is taken by other Event Data. -/
theorem publish_of_conflict (hkey : command.idempotencyKey = some key)
    (hfingerprint : engine.sha256Fingerprint command.operation = .ok fingerprint)
    {remembered : String} {rs : List PublishReceipt}
    (found : cache.get? key = some (remembered, rs)) (hne : remembered ≠ fingerprint)
    (env : PublishEnv) :
    engine.publish cache command false env =
      { answer := .error (.failure keyReused), cache, produced := [] } := by
  obtain ⟨_, _, _, _, heq⟩ | ⟨rs', hfound, -⟩ | ⟨hfree, -⟩ := publish_cases hkey hfingerprint env
  · exact heq
  · obtain ⟨rfl, -⟩ := Prod.mk.inj (Option.some.inj (found.symm.trans hfound))
    exact absurd rfl hne
  · rw [found] at hfree
    simp at hfree

/-- A key that is taken by the same Event Data. -/
theorem publish_of_replay (hkey : command.idempotencyKey = some key)
    (hfingerprint : engine.sha256Fingerprint command.operation = .ok fingerprint)
    {rs : List PublishReceipt} (found : cache.get? key = some (fingerprint, rs))
    (env : PublishEnv) :
    engine.publish cache command false env =
      { answer := env.emit.elim (.ok rs) .error
        cache := cache.moveToEnd key
        produced := [] } := by
  obtain ⟨remembered, rs', hfound, hne, -⟩ | ⟨rs', hfound, heq⟩ | ⟨hfree, -⟩ :=
    publish_cases hkey hfingerprint env
  · obtain ⟨rfl, -⟩ := Prod.mk.inj (Option.some.inj (found.symm.trans hfound))
    exact absurd rfl hne
  · obtain ⟨-, rfl⟩ := Prod.mk.inj (Option.some.inj (found.symm.trans hfound))
    exact heq
  · rw [found] at hfree
    simp at hfree

/-- A key that is free. -/
theorem publish_of_free (hkey : command.idempotencyKey = some key)
    (hfingerprint : engine.sha256Fingerprint command.operation = .ok fingerprint)
    (free : cache.get? key = none) (env : PublishEnv) :
    engine.publish cache command false env =
      publishNew cache command (some key) fingerprint env := by
  obtain ⟨_, _, hfound, -⟩ | ⟨_, hfound, -⟩ | ⟨-, heq⟩ := publish_cases hkey hfingerprint env
  · rw [free] at hfound
    simp at hfound
  · rw [free] at hfound
    simp at hfound
  · exact heq

/-- Telemetry comes after the receipts. -/
theorem receipts_withoutEmit (stream : PhysicalStream) (env : PublishEnv) (i : ℕ)
    (events : List Event) :
    receipts stream { env with emit := none } i events = receipts stream env i events := by
  induction events generalizing i with
  | nil => rfl
  | cons event events ih =>
    -- A receipt is made of the report and the clock alone.
    rw [receipts, receipts, ih]

theorem send_withoutEmit (command : PublishCommand) (env : PublishEnv) :
    send command { env with emit := none } = send command env := by
  unfold send
  simp only [receipts_withoutEmit]

/-! ### Runs -/

/-- One call keeps the cache and its uses in step. -/
theorem keeps_next {book : ReplayBook} (h : engine.InStep book) (call : PublishRequest) :
    engine.InStep (engine.replays.next book call) := by
  obtain ⟨command, transactional, env⟩ := call
  -- the calls that do not use a key leave the book as it is
  have hidle : (engine.publish book.cache command transactional env).cache = book.cache →
      ((if transactional then none else command.idempotencyKey) = none ∨
        engine.receiptsOf book.cache ⟨command, transactional, env⟩ = none) →
      engine.InStep (engine.replays.next book ⟨command, transactional, env⟩) := by
    intro hcache hnone
    have hnext : engine.replays.next book ⟨command, transactional, env⟩ = book := by
      unfold replays
      dsimp only
      rw [hcache]
      cases hnone with
      | inl hkey => rw [hkey]
      | inr hreceipts =>
        rw [hreceipts]
        cases if transactional then none else command.idempotencyKey with
        | none => rfl
        | some key => rfl
    rwa [hnext]
  cases hkeyed : if transactional then none else command.idempotencyKey with
  | none =>
    refine hidle (publish_of_unkeyed ?_ env _ book.cache).2.2 (Or.inl hkeyed)
    cases transactional with
    | true => exact Or.inl rfl
    | false => exact Or.inr hkeyed
  | some key =>
    -- A key is used on the own producer only.
    cases transactional with
    | true => simp at hkeyed
    | false =>
      have hkey : command.idempotencyKey = some key := hkeyed
      cases hfingerprint : engine.sha256Fingerprint command.operation with
      | error raised =>
        have heq : ∀ env, engine.publish book.cache command false env =
            { answer := .error raised, cache := book.cache, produced := [] } := by
          intro env
          unfold publish
          rw [hfingerprint]
        refine hidle (by rw [heq]) (Or.inr ?_)
        unfold receiptsOf
        rw [heq]
      | ok fingerprint =>
        -- a use under the key, with its entry at the end of the cache
        have huse : ∀ rs cache', cache'.Keeps maxIdempotencyEntries
              ((key, (fingerprint, rs)) :: book.uses.map engine.entryOf) →
            (engine.publish book.cache command false env).cache = cache' →
            engine.receiptsOf book.cache ⟨command, false, env⟩ = some rs →
            engine.InStep (engine.replays.next book ⟨command, false, env⟩) := by
          intro rs cache' hkeeps hcache hreceipts
          have hnext : engine.replays.next book ⟨command, false, env⟩ =
              { cache := cache', uses := ⟨key, command, rs⟩ :: book.uses } := by
            unfold replays
            dsimp only
            rw [hcache, hreceipts, hkeyed]
          rw [hnext]
          refine ⟨?_, fun use hmem => ?_⟩
          · dsimp only
            rw [List.map_cons]
            unfold entryOf
            dsimp only
            rw [hfingerprint]
            exact hkeeps
          · cases List.mem_cons.mp hmem with
            | inl heq =>
              rw [heq]
              exact ⟨fingerprint, hfingerprint⟩
            | inr hold => exact h.fingerprint use hold
        cases hfound : book.cache.get? key with
        | some entry =>
          obtain ⟨remembered, rs⟩ := entry
          -- The key is taken: by the same Event Data, which is a use, or by other Event Data.
          by_cases hsame : remembered = fingerprint
          · subst hsame
            refine huse rs _ (h.keeps.moveToEnd hfound) ?_ ?_
            · rw [publish_of_replay hkey hfingerprint hfound]
            · unfold receiptsOf
              rw [publish_of_replay hkey hfingerprint hfound]
              rfl
          · refine hidle ?_ (Or.inr ?_)
            · rw [publish_of_conflict hkey hfingerprint hfound hsame]
            · unfold receiptsOf
              rw [publish_of_conflict hkey hfingerprint hfound hsame]
        | none =>
          -- The key is free: the call is a use when its publication comes to receipts.
          have hfree := publish_of_free hkey hfingerprint hfound
          have hreceipts : engine.receiptsOf book.cache ⟨command, false, env⟩ =
              match (send command env).1 with
              | .ok rs => some rs
              | .error _ => none := by
            unfold receiptsOf
            dsimp only
            rw [hfree]
            unfold publishNew
            rw [send_withoutEmit]
            generalize send command env = outcome
            obtain ⟨answer, records⟩ := outcome
            cases answer with
            | error raised => rfl
            | ok rs => rfl
          cases hsend : send command env with
          | mk answer records =>
            rw [hsend] at hreceipts
            cases answer with
            | error raised =>
              refine hidle ?_ (Or.inr hreceipts)
              rw [hfree, publishNew_of_raises hsend]
            | ok rs =>
              refine huse rs _ (h.keeps.touch key (fingerprint, rs)) ?_ hreceipts
              rw [hfree, publishNew_of_receipts hsend]
              rfl

/-- The cache and its uses are in step after every run. -/
theorem keeps_play (engine : KafkaProducerEngine) (run : List PublishRequest) :
    engine.InStep (engine.replays.play {} run) := by
  refine Machine.play_induction (I := engine.InStep) (C := fun _ _ => True)
    (fun book call h _ _ => keeps_next h call)
    ⟨Dict.keeps_empty _, fun use hmem => absurd hmem List.not_mem_nil⟩ ?_ ?_
  · exact fun _ _ => trivial
  · exact fun _ _ => trivial

end KafkaProducerEngine

namespace ReplayBook

/-- The last call that has published or replayed under the key. -/
def lastUse (book : ReplayBook) (key : String) : Option KeyUse :=
  book.uses.find? fun use => use.key = key

/-- The other keys that have been used since. -/
def others (book : ReplayBook) (key : String) : Finset String :=
  ((book.uses.takeWhile fun use => use.key ≠ key).map KeyUse.key).toFinset

end ReplayBook

namespace KafkaProducerEngine

variable {engine : KafkaProducerEngine} {command : PublishCommand} {env : PublishEnv}

/-- What the cache finds under a key is its last use, unless too many others came since. -/
theorem InStep.get?_cache {book : ReplayBook} (h : engine.InStep book) (key : String) :
    book.cache.get? key =
      if (book.others key).card < maxIdempotencyEntries then
        (book.lastUse key).map fun use => (engine.entryOf use).2
      else none := by
  -- The entries of the cache have the keys of the uses, so both count the same keys.
  have hsince : Dict.since (book.uses.map engine.entryOf) key = book.others key := by
    unfold Dict.since ReplayBook.others
    rw [List.takeWhile_map, List.map_map]
    rfl
  have hlookup : (book.uses.map engine.entryOf).lookup key =
      (book.lastUse key).map fun use => (engine.entryOf use).2 := by
    unfold ReplayBook.lastUse
    induction book.uses with
    | nil => rfl
    | cons use uses ih =>
      rw [List.map_cons, List.find?_cons]
      by_cases hkey : use.key = key
      · rw [decide_eq_true hkey, List.lookup_cons,
          show (key == (engine.entryOf use).1) = true from beq_iff_eq.mpr hkey.symm]
        rfl
      · rw [decide_eq_false hkey, List.lookup_cons,
          show (key == (engine.entryOf use).1) = false from beq_eq_false_iff_ne.mpr (Ne.symm hkey)]
        exact ih
  rw [h.keeps.get?_eq, hsince, hlookup]

/-- When all client calls succeed, a call that publishes anew produces every event, unless one
of them uses a reserved header. -/
theorem publish_anew {cache : IdempotencyCache} {key fingerprint : String}
    (hkey : command.idempotencyKey = some key)
    (hfingerprint : engine.sha256Fingerprint command.operation = .ok fingerprint)
    (free : cache.get? key = none) (succeed : env.KafkaCallsSucceed command.events.length) :
    ((∀ event ∈ command.events, usesReservedHeader event = false) →
      (engine.publish cache command false env).produced =
          command.events.map (record command.stream) ∧
        ∃ rs, (engine.publish cache command false env).answer = env.emit.elim (.ok rs) .error ∧
          rs.map PublishReceipt.eventId = command.events.map Event.eventId) ∧
    ((∃ event ∈ command.events, usesReservedHeader event = true) →
      (engine.publish cache command false env).answer = .error (.failure reservedHeaders) ∧
        (engine.publish cache command false env).cache = cache) := by
  refine ⟨fun plain => ?_, fun hreserved => ?_⟩
  · have hplain : ∀ event ∈ command.events, ∀ header ∈ event.headers,
        ¬reservedHeader header.1 = true := by
      intro event hevent header hheader hreserved
      have hany : usesReservedHeader event = true :=
        List.any_eq_true.mpr ⟨header, hheader, hreserved⟩
      rw [plain event hevent] at hany
      exact Bool.false_ne_true hany
    obtain ⟨rs, hsend, hids⟩ := send_of_succeed hplain succeed
    rw [publish_of_free hkey hfingerprint free, publishNew_of_receipts hsend]
    exact ⟨rfl, rs, rfl, hids⟩
  · have hex : ∃ (k : ℕ) (event : Event), command.events[k]? = some event ∧
        usesReservedHeader event = true := by
      obtain ⟨event, hevent, hevent'⟩ := hreserved
      obtain ⟨k, hk, rfl⟩ := List.getElem_of_mem hevent
      exact ⟨k, _, List.getElem?_eq_getElem hk, hevent'⟩
    -- The first event with such a header is where the loop stops.
    classical
    have hrefused : RefusedAt engine cache command false env (Nat.find hex) :=
      { fingerprint := ⟨fingerprint, hfingerprint⟩
        unused := fun _ key' hkey' => by
          obtain rfl := Option.some.inj (hkey.symm.trans hkey')
          exact free
        refused := Nat.find_spec hex
        before := fun j event hj hevent => by
          -- an event before the first refused one has plain headers
          have hplain : usesReservedHeader event = false := by
            rw [← Bool.not_eq_true]
            exact fun hevent' => Nat.find_min hex hj ⟨event, hevent, hevent'⟩
          obtain ⟨hlt, -⟩ := List.getElem?_eq_some_iff.mp hevent
          unfold produceOne
          rw [if_neg (by rw [← Bool.not_eq_true] at hplain; exact hplain),
            produceLoop_of_succeed (succeed.produce j hlt)] }
    rw [hrefused.publish_eq]
    exact ⟨rfl, rfl⟩

/-- **The cache answers for the 10,000 keys used last.** After any run, a call with a key that
was used, with fewer than 10,000 other keys used since, replays the receipts of the last use
when its Event Data is the same, and is refused otherwise. Any other call with a key publishes
anew: it produces every event, unless one uses a reserved header. A call without a key, or on
the producer of a transaction, neither reads nor changes the cache. -/
theorem replays_iff_recent (fingerprints : engine.Fingerprints) (run : List PublishRequest)
    (command : PublishCommand) (env : PublishEnv) :
    let book := engine.replays.play {} run
    (∀ key fingerprint, command.idempotencyKey = some key →
      engine.sha256Fingerprint command.operation = .ok fingerprint →
      (∀ use, book.lastUse key = some use → (book.others key).card < 10000 →
        (use.command.SameData command →
          (engine.publish book.cache command false env).answer =
              env.emit.elim (.ok use.receipts) .error ∧
            (engine.publish book.cache command false env).produced = []) ∧
        (¬use.command.SameData command →
          engine.publish book.cache command false env =
            { answer := .error (.failure keyReused), cache := book.cache, produced := [] })) ∧
      (book.lastUse key = none ∨ 10000 ≤ (book.others key).card →
        env.KafkaCallsSucceed command.events.length →
        ((∀ event ∈ command.events, usesReservedHeader event = false) →
          (engine.publish book.cache command false env).produced =
              command.events.map (record command.stream) ∧
            ∃ rs, (engine.publish book.cache command false env).answer =
                env.emit.elim (.ok rs) .error ∧
              rs.map PublishReceipt.eventId = command.events.map Event.eventId) ∧
        ((∃ event ∈ command.events, usesReservedHeader event = true) →
          (engine.publish book.cache command false env).answer =
              .error (.failure reservedHeaders) ∧
            (engine.publish book.cache command false env).cache = book.cache))) ∧
    ∀ transactional : Bool, transactional = true ∨ command.idempotencyKey = none →
      ∀ cache, (engine.publish book.cache command transactional env).answer =
          (engine.publish cache command transactional env).answer ∧
        (engine.publish book.cache command transactional env).produced =
          (engine.publish cache command transactional env).produced ∧
        (engine.publish book.cache command transactional env).cache = book.cache := by
  intro book
  refine ⟨fun key fingerprint hkey hfingerprint => ?_,
    fun transactional unkeyed cache => publish_of_unkeyed unkeyed env book.cache cache⟩
  have hstep : engine.InStep book := keeps_play engine run
  have hget := hstep.get?_cache key
  refine ⟨fun use hlast hfew => ?_, fun hold succeed => ?_⟩
  · rw [if_pos (show (book.others key).card < maxIdempotencyEntries from hfew), hlast] at hget
    -- The entry that the cache finds is that of the last use, with its fingerprint.
    obtain ⟨remembered, hremembered⟩ := hstep.fingerprint use (List.mem_of_find?_eq_some hlast)
    have hfound : book.cache.get? key = some (remembered, use.receipts) := by
      rw [hget, Option.map_some]
      unfold entryOf
      rw [hremembered]
    -- The fingerprints agree exactly when the Event Data is the same.
    refine ⟨fun hsame => ?_, fun hdiffer => ?_⟩
    · have heq : remembered = fingerprint := by
        have hcanonical := fingerprints.canonical _ _ (PublishCommand.sameData_iff.mp hsame)
        rw [hremembered, hfingerprint] at hcanonical
        exact Except.ok.inj hcanonical
      subst heq
      rw [publish_of_replay hkey hfingerprint hfound]
      exact ⟨rfl, rfl⟩
    · refine publish_of_conflict hkey hfingerprint hfound (fun heq => hdiffer ?_) env
      subst heq
      exact PublishCommand.sameData_iff.mpr (fingerprints.injective _ _ _ hremembered hfingerprint)
  · have hfree : book.cache.get? key = none := by
      rw [hget]
      cases hold with
      | inl hnone => rw [hnone, Option.map_none, ite_self]
      | inr hmany =>
        exact if_neg (not_lt.mpr (show maxIdempotencyEntries ≤ (book.others key).card from hmany))
    exact publish_anew hkey hfingerprint hfree succeed

end KafkaProducerEngine

/-! ### One key -/

namespace Replays

/-- The fingerprint is the canonical text itself. Documents with floating-point numbers have
none. -/
def engine : KafkaProducerEngine where
  sha256Fingerprint document :=
    if document.sorted.floatFree then .ok (String.ofList document.sorted.text)
    else .error .other

theorem fingerprints : engine.Fingerprints where
  canonical document document' hsame := by
    change (if document.sorted.floatFree then _ else _) = _
    rw [hsame]
    rfl
  injective document document' fingerprint hdocument hdocument' := by
    have htext : ∀ d : Json, engine.sha256Fingerprint d = .ok fingerprint →
        d.sorted.floatFree = true ∧ String.ofList d.sorted.text = fingerprint := by
      intro d hd
      change (if d.sorted.floatFree then _ else _) = _ at hd
      split at hd
      · next hfree => exact ⟨hfree, Except.ok.inj hd⟩
      · simp at hd
    obtain ⟨hfree, htext₁⟩ := htext document hdocument
    obtain ⟨hfree', htext₂⟩ := htext document' hdocument'
    -- A text is read back to the document that it was written for.
    have hbytes : document.sorted.bytes = document'.sorted.bytes := by
      unfold Json.bytes
      rw [htext₁, htext₂]
    have hread := Json.ofBytes_bytes hfree
    rw [hbytes, Json.ofBytes_bytes hfree'] at hread
    exact (Option.some.inj hread).symm

/-- A publication of one event under a key. -/
def command : PublishCommand where
  stream := Sample.orders
  events := [Sample.event]
  idempotencyKey := some "key"
  batch := false

def request : PublishRequest := { command, env := Refused.env }

end Replays

namespace KafkaProducerEngine

/-- The same call again. -/
theorem second_call_replays :
    (Replays.engine.publish (Replays.engine.replays.play {} [Replays.request]).cache
        Replays.command false Refused.env).produced = [] := by
  have hrecent := replays_iff_recent Replays.fingerprints [Replays.request] Replays.command
    Refused.env
  have hsame : Replays.command.SameData Replays.command := PublishCommand.sameData_iff.mpr rfl
  exact (((hrecent.1 "key" _ rfl rfl).1 _ rfl (by decide)).1 hsame).2

/-- A batch under a key that was never used, whose second event is refused: all client calls
succeed, and not every event is produced. -/
theorem refused_batch_not_anew :
    Replays.engine.Fingerprints ∧ Refused.command.idempotencyKey = some "key" ∧
      (Replays.engine.replays.play {} []).lastUse "key" = none ∧
      Refused.env.KafkaCallsSucceed Refused.command.events.length ∧
      (Replays.engine.publish (Replays.engine.replays.play {} []).cache Refused.command false
        Refused.env).produced ≠
        Refused.command.events.map (record Refused.command.stream) := by
  refine ⟨Replays.fingerprints, rfl, rfl,
    ⟨fun _ _ => trivial, rfl, fun _ _ => rfl, fun _ _ => rfl⟩, fun h => ?_⟩
  have hlength : (1 : ℕ) = 2 := congrArg List.length h
  exact absurd hlength (by decide)

end KafkaProducerEngine

end MeridianKafka
