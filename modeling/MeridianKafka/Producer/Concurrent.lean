import MeridianKafka.Consumer.Group
import MeridianKafka.Producer.Engine

/-!
# Publications from several threads

`publish` looks at the idempotency cache in one critical section and writes it in another,
and between the two it produces, flushes and makes the receipts without a lock. Here a call
is a thread that takes one step at a time (`PublishPhase`), and the steps of any number of
calls interleave. The client appends a message that it has taken once or not at all, at any
later time: a flush that times out takes nothing back.

An application key should stand for one publication. It does so in every run in which a
call that does not find its key is alone with it: no other call with the key is on its way
to the cache, and none has raised after the client took one of its events
(`once_of_alone`). Two calls that both look before either has stored publish twice
(`overlapping_publications_append_twice`).

A call that nobody interrupts is `publish` (`advance_alone`).
-/

namespace MeridianKafka

open Framework

/-- Where a call of `publish` has got to. -/
inductive PublishPhase
  | lookingUp
  /-- The events before this place have been handed to the client. -/
  | producing (fingerprint : String) (place : ℕ)
  | flushing (fingerprint : String)
  | collecting (fingerprint : String)
  | storing (fingerprint : String) (receipts : List PublishReceipt)
  | reporting (receipts : List PublishReceipt)
  | returned (receipts : List PublishReceipt)
  | raised (raised : Raised)

/-- The call has not found its key, and has not stored it yet. -/
def PublishPhase.busy : PublishPhase → Bool
  | .producing _ _ | .flushing _ | .collecting _ | .storing _ _ => true
  | _ => false

/-- The event of this place is behind the call. -/
def PublishPhase.Past (event : ℕ) : PublishPhase → Prop
  | .lookingUp => False
  | .producing _ place => event < place
  | _ => True

/-- The phase at the end of a call. -/
def PublishPhase.ended : Except Raised (List PublishReceipt) → PublishPhase
  | .ok receipts => .returned receipts
  | .error failure => .raised failure

structure PublishCall where
  command : PublishCommand
  phase : PublishPhase := .lookingUp

/-- A message that the client took: the call, and the place of its event. -/
abbrev Enqueued := ℕ × ℕ

/-- The calls of a producer engine, its cache, and what has become of their events. -/
structure PublishBook where
  cache : IdempotencyCache := .empty
  calls : ℕ → Option PublishCall := fun _ => none
  taken : List Enqueued := []
  /-- The messages in the topic, with their partition and offset. -/
  appended : List (Enqueued × (ℕ × ℕ)) := []

inductive PublishStep
  | start (id : ℕ) (command : PublishCommand)
  /-- The next step of a call. -/
  | advance (id : ℕ) (env : PublishEnv)
  | append (message : Enqueued) (position : ℕ × ℕ)

namespace KafkaProducerEngine

variable (engine : KafkaProducerEngine)

/-- One step of a call: the cache and the phase after it, and the place of the event that
the client took. A step is a critical section, or the work on one event. -/
def stepCall (cache : IdempotencyCache) (call : PublishCall) (env : PublishEnv) :
    IdempotencyCache × PublishPhase × Option ℕ :=
  let command := call.command
  match call.phase with
  | .lookingUp =>
    match engine.sha256Fingerprint command.operation with
    | .error raised => (cache, .raised raised, none)
    | .ok fingerprint =>
      match command.idempotencyKey with
      | none => (cache, .producing fingerprint 0, none)
      | some key =>
        match cache.get? key with
        | none => (cache, .producing fingerprint 0, none)
        | some (remembered, receipts) =>
          if remembered ≠ fingerprint then (cache, .raised (.failure keyReused), none)
          else (cache.moveToEnd key, .reporting receipts, none)
  | .producing fingerprint place =>
    match command.events[place]? with
    | none => (cache, .flushing fingerprint, none)
    | some event =>
      match produceOne command.stream event (env.produce place) with
      | (.error raised, records) =>
        (cache, .raised raised, if records.isEmpty then none else some place)
      | (.ok (), records) =>
        (cache, .producing fingerprint (place + 1), if records.isEmpty then none else some place)
  | .flushing fingerprint =>
    match env.flush with
    | .error raised => (cache, .raised raised, none)
    | .ok queued =>
      if queued ≠ 0 then
        (cache, .raised (.failure
          { kind := .kafkaOperationFailed
            message := "Kafka producer did not deliver every Event before the deadline"
            retryable := true }), none)
      else (cache, .collecting fingerprint, none)
  | .collecting fingerprint =>
    match receipts command.stream env 0 command.events with
    | .error raised => (cache, .raised raised, none)
    | .ok receipts => (cache, .storing fingerprint receipts, none)
  | .storing fingerprint receipts =>
    (command.idempotencyKey.elim cache fun key => remember cache key fingerprint receipts,
      .reporting receipts, none)
  | .reporting receipts => (cache, env.emit.elim (.returned receipts) .raised, none)
  | .returned receipts => (cache, .returned receipts, none)
  | .raised raised => (cache, .raised raised, none)

end KafkaProducerEngine

namespace PublishBook

variable (engine : KafkaProducerEngine) (book : PublishBook)

/-- The book after a step of a call. -/
def advance (id : ℕ) (env : PublishEnv) : PublishBook :=
  match book.calls id with
  | none => book
  | some call =>
    match engine.stepCall book.cache call env with
    | (cache, phase, took) =>
      { book with
        cache
        calls := Function.update book.calls id (some { call with phase })
        taken := book.taken ++ (took.map fun place => (id, place)).toList }

/-- The reports of the client: a message without an error is in the topic. -/
def Reported (id : ℕ) (env : PublishEnv) : Prop :=
  ∀ call ∈ book.calls id, ∀ place < call.command.events.length,
    (env.report place).error = none →
      ∀ position ∈ (env.report place).message, ((id, place), position) ∈ book.appended

/-- Threads start and take their steps in any order. The client appends a message that it
has taken, once. -/
def machine : Machine PublishBook PublishStep where
  allowed := fun book step =>
    match step with
    | .start id _ => book.calls id = none
    | .advance id env => book.Reported id env
    | .append message _ => message ∈ book.taken ∧ message ∉ book.appended.map Prod.fst
  next := fun book step =>
    match step with
    | .start id command =>
      { book with calls := Function.update book.calls id (some { command }) }
    | .advance id env => book.advance engine id env
    | .append message position => { book with appended := book.appended ++ [(message, position)] }

/-- The call goes by this key. -/
def HasKey (key : String) (id : ℕ) : Prop :=
  ∃ call ∈ book.calls id, call.command.idempotencyKey = some key

/-- The call with this key is on its way to the cache, or the client has taken one of its
events. -/
def Uses (key : String) (id : ℕ) : Prop :=
  ∃ call ∈ book.calls id, call.command.idempotencyKey = some key ∧
    (call.phase.busy ∨ ∃ place, (id, place) ∈ book.taken)

/-- The messages in the topic that are there through this key. -/
structure Once (key : String) : Prop where
  /-- No two messages carry the event of one place. -/
  appended : ∀ id id' place, book.HasKey key id → book.HasKey key id' →
    (id, place) ∈ book.appended.map Prod.fst → (id', place) ∈ book.appended.map Prod.fst → id = id'
  nodup : (book.appended.map Prod.fst).Nodup
  /-- The calls that return have the same receipts. -/
  receipts : ∀ id id' call call' rs rs', book.calls id = some call → book.calls id' = some call' →
    call.command.idempotencyKey = some key → call'.command.idempotencyKey = some key →
    call.phase = .returned rs → call'.phase = .returned rs' → rs = rs'

/-- A call that looks its key up and does not find it is alone with the key. -/
def Alone (key : String) : PublishStep → Prop
  | .advance id _ => ∀ call ∈ book.calls id, call.phase matches .lookingUp →
      call.command.idempotencyKey = some key → book.cache.get? key = none →
        ∀ other, ¬book.Uses key other
  | _ => True

end PublishBook

namespace KafkaProducerEngine

/-! ### What a step of a call can be -/

/-- Everything that one step of a call can do. -/
inductive CallStep (cache : IdempotencyCache) (command : PublishCommand) :
    PublishPhase → IdempotencyCache → PublishPhase → Option ℕ → Prop
  /-- The call raises; only in a step that produces may the client have taken something. -/
  | fails {phase : PublishPhase} (raised : Raised) :
      CallStep cache command phase cache (.raised raised) none
  | misses (fingerprint : String)
      (absent : ∀ key, command.idempotencyKey = some key → cache.get? key = none) :
      CallStep cache command .lookingUp cache (.producing fingerprint 0) none
  | replays {key fingerprint : String} {rs : List PublishReceipt}
      (named : command.idempotencyKey = some key)
      (found : cache.get? key = some (fingerprint, rs)) :
      CallStep cache command .lookingUp (cache.moveToEnd key) (.reporting rs) none
  | produces {fingerprint : String} {place : ℕ} {took : Option ℕ}
      (own : ∀ taken ∈ took, taken = place) :
      CallStep cache command (.producing fingerprint place) cache
        (.producing fingerprint (place + 1)) took
  | producesAndFails {fingerprint : String} {place : ℕ} (raised : Raised) :
      CallStep cache command (.producing fingerprint place) cache (.raised raised) (some place)
  | flushes {fingerprint : String} {place : ℕ} :
      CallStep cache command (.producing fingerprint place) cache (.flushing fingerprint) none
  | collects {fingerprint : String} :
      CallStep cache command (.flushing fingerprint) cache (.collecting fingerprint) none
  | completes {fingerprint : String} (rs : List PublishReceipt) :
      CallStep cache command (.collecting fingerprint) cache (.storing fingerprint rs) none
  | stores {fingerprint : String} {rs : List PublishReceipt} :
      CallStep cache command (.storing fingerprint rs)
        (command.idempotencyKey.elim cache fun key => remember cache key fingerprint rs)
        (.reporting rs) none
  | returns {rs : List PublishReceipt} :
      CallStep cache command (.reporting rs) cache (.returned rs) none
  | rests {rs : List PublishReceipt} :
      CallStep cache command (.returned rs) cache (.returned rs) none

theorem callStep_stepCall (engine : KafkaProducerEngine) (cache : IdempotencyCache)
    (call : PublishCall) (env : PublishEnv) :
    CallStep cache call.command call.phase (engine.stepCall cache call env).1
      (engine.stepCall cache call env).2.1 (engine.stepCall cache call env).2.2 := by
  obtain ⟨command, phase⟩ := call
  -- One phase after another, and in each of them what its collaborator answers.
  cases phase with
  | lookingUp =>
    dsimp only [stepCall]
    cases engine.sha256Fingerprint command.operation with
    | error raised => exact .fails raised
    | ok fingerprint =>
      dsimp only
      cases hkey : command.idempotencyKey with
      | none => exact .misses fingerprint fun key hk => by simp [hkey] at hk
      | some key =>
        dsimp only
        rcases hfound : cache.get? key with _ | ⟨remembered, rs⟩
        · refine .misses fingerprint fun key' hk => ?_
          obtain rfl := Option.some.inj (hkey.symm.trans hk)
          exact hfound
        · dsimp only
          by_cases hsame : remembered = fingerprint
          · rw [if_neg (not_not.mpr hsame)]
            exact .replays hkey hfound
          · rw [if_pos hsame]
            exact .fails _
  | producing fingerprint place =>
    dsimp only [stepCall]
    cases command.events[place]? with
    | none => exact .flushes
    | some event =>
      dsimp only
      rcases produceOne command.stream event (env.produce place) with ⟨raised | ⟨⟨⟩⟩, records⟩
      · dsimp only
        -- An event that fails may have had its record taken before.
        cases records.isEmpty with
        | true => exact .fails raised
        | false => exact .producesAndFails raised
      · refine .produces fun taken htaken => ?_
        cases hrecords : records.isEmpty <;> simp [hrecords] at htaken
        exact htaken.symm
  | flushing fingerprint =>
    dsimp only [stepCall]
    cases env.flush with
    | error raised => exact .fails raised
    | ok queued =>
      dsimp only
      by_cases hqueued : queued = 0
      · rw [if_neg (not_not.mpr hqueued)]
        exact .collects
      · rw [if_pos hqueued]
        exact .fails _
  | collecting fingerprint =>
    dsimp only [stepCall]
    cases receipts command.stream env 0 command.events with
    | error raised => exact .fails raised
    | ok rs => exact .completes rs
  | storing fingerprint rs => exact .stores
  | reporting rs =>
    dsimp only [stepCall]
    cases env.emit with
    | none => exact .returns
    | some raised => exact .fails raised
  | returned rs => exact .rests
  | raised raised => exact .fails raised

namespace CallStep

variable {cache cache' : IdempotencyCache} {command : PublishCommand}
  {phase phase' : PublishPhase} {took : Option ℕ}

/-- A call comes to hold its key by not finding it. -/
theorem busy (step : CallStep cache command phase cache' phase' took)
    (h : phase'.busy ∨ took.isSome) :
    phase.busy ∨ phase = .lookingUp ∧
      ∀ key, command.idempotencyKey = some key → cache.get? key = none := by
  cases step with
  | fails => simp [PublishPhase.busy] at h
  | misses _ absent => exact Or.inr ⟨rfl, absent⟩
  | replays => simp [PublishPhase.busy] at h
  | returns => simp [PublishPhase.busy] at h
  | rests => simp [PublishPhase.busy] at h
  | _ => exact Or.inl rfl

/-- The events of a call are taken in the order of their places. -/
theorem past (step : CallStep cache command phase cache' phase' took) :
    (∀ place, phase.Past place → phase'.Past place) ∧
      ∀ place, took = some place → phase'.Past place ∧ ¬phase.Past place ∧
        (∃ fingerprint, phase = .producing fingerprint place) := by
  cases step with
  | @produces fingerprint place took own =>
    refine ⟨fun i hi => Nat.lt_succ_of_lt hi, fun i hi => ?_⟩
    obtain rfl := own i hi
    exact ⟨Nat.lt_succ_self i, lt_irrefl i, fingerprint, rfl⟩
  | @producesAndFails fingerprint place raised =>
    refine ⟨fun _ _ => trivial, fun i hi => ?_⟩
    obtain rfl := Option.some.inj hi
    exact ⟨trivial, lt_irrefl place, fingerprint, rfl⟩
  | misses => exact ⟨fun _ hi => absurd hi id, fun _ hi => by simp at hi⟩
  | replays => exact ⟨fun _ hi => absurd hi id, fun _ hi => by simp at hi⟩
  | _ => exact ⟨fun _ _ => trivial, fun _ hi => by simp at hi⟩

/-- The receipts that a call is about to return are remembered under its key. -/
theorem remembered (step : CallStep cache command phase cache' phase' took) {key : String}
    (named : command.idempotencyKey = some key) {rs : List PublishReceipt}
    (h : phase' = .reporting rs ∨ phase' = .returned rs) :
    (phase = .reporting rs ∨ phase = .returned rs) ∨
      ∃ fingerprint, cache'.get? key = some (fingerprint, rs) := by
  -- only a replay and a store reach receipts from elsewhere, and both find them in the cache
  cases step with
  | @replays key' fingerprint rs' named' found =>
    obtain rfl := Option.some.inj (named.symm.trans named')
    have hsame : rs' = rs := by simpa using h
    rw [Dict.get?_moveToEnd, ← hsame]
    exact Or.inr ⟨fingerprint, found⟩
  | @stores fingerprint rs' =>
    have hsame : rs' = rs := by simpa using h
    rw [named, Option.elim_some, ← hsame]
    exact Or.inr ⟨fingerprint, get?_remember ..⟩
  | returns =>
    refine Or.inl (Or.inl ?_)
    simpa using h
  | rests =>
    refine Or.inl (Or.inr ?_)
    simpa using h
  | _ => simp at h

end CallStep

/-! ### A call that nobody interrupts -/

/-- The cache, the phase of a call, and the places of the events that were taken, after the
next step of the call. -/
def stepAlone (engine : KafkaProducerEngine) (command : PublishCommand) (env : PublishEnv)
    (s : IdempotencyCache × PublishPhase × List ℕ) : IdempotencyCache × PublishPhase × List ℕ :=
  match engine.stepCall s.1 ⟨command, s.2.1⟩ env with
  | (cache, phase, took) => (cache, phase, s.2.2 ++ took.toList)

/-- The loop that waits for room in the queue takes the record, or fails without it, or
with it. -/
theorem produceOne_cases (stream : PhysicalStream) (event : Event) (calls : ProduceCalls) :
    (∃ record, produceOne stream event calls = (.ok (), [record])) ∨
      ∃ raised, produceOne stream event calls = (.error raised, []) ∨
        ∃ record, produceOne stream event calls = (.error raised, [record]) := by
  -- however often the queue is full, the record is handed over once at most
  have hloop : ∀ record, (∃ record', produceLoop record calls = (.ok (), [record'])) ∨
      ∃ raised, produceLoop record calls = (.error raised, []) ∨
        ∃ record', produceLoop record calls = (.error raised, [record']) := by
    intro record
    induction calls with
    | taken poll =>
      cases poll with
      | none => exact Or.inl ⟨record, rfl⟩
      | some raised => exact Or.inr ⟨_, Or.inr ⟨record, rfl⟩⟩
    | raises raised => exact Or.inr ⟨_, Or.inl rfl⟩
    | fullAtDeadline => exact Or.inr ⟨_, Or.inl rfl⟩
    | full poll rest ih =>
      cases poll with
      | none => exact ih
      | some raised => exact Or.inr ⟨raised, Or.inl rfl⟩
  unfold produceOne
  split
  · exact Or.inr ⟨_, Or.inl rfl⟩
  · exact hloop _

variable {engine : KafkaProducerEngine} {command : PublishCommand} {env : PublishEnv}
  {cache : IdempotencyCache} {fingerprint : String} {places : List ℕ}

variable (engine env cache fingerprint places) in
/-- The steps that produce are `produceEvents`. -/
theorem stepAlone_produces (i : ℕ) (events : List Event) (rest : command.events.drop i = events) :
    ∃ n, (stepAlone engine command env)^[n] (cache, .producing fingerprint i, places) =
      (cache,
        match (produceEvents command.stream env.produce i events).1 with
        | .error raised => .raised raised
        | .ok () => .flushing fingerprint,
        places ++ List.range' i (produceEvents command.stream env.produce i events).2.length) := by
  -- By induction on the events that are left, one step for each and one to find the end.
  induction events generalizing i places with
  | nil =>
    refine ⟨1, ?_⟩
    have hend : command.events[i]? = none := by
      rw [List.getElem?_eq_none_iff]
      exact List.drop_eq_nil_iff.mp rest
    rw [Function.iterate_one]
    unfold stepAlone
    dsimp only [stepCall]
    rw [hend]
    rfl
  | cons event events ih =>
    have hevent : command.events[i]? = some event := by
      rw [← List.head?_drop, rest]
      rfl
    have hnext : command.events.drop (i + 1) = events := by
      rw [← List.tail_drop, rest]
      rfl
    have hstep : stepAlone engine command env (cache, .producing fingerprint i, places) =
        match produceOne command.stream event (env.produce i) with
        | (.error raised, records) =>
          (cache, .raised raised, places ++ (if records.isEmpty then none else some i).toList)
        | (.ok (), records) =>
          (cache, .producing fingerprint (i + 1),
            places ++ (if records.isEmpty then none else some i).toList) := by
      unfold stepAlone
      dsimp only [stepCall]
      rw [hevent]
      dsimp only
      rcases produceOne command.stream event (env.produce i) with ⟨raised | ⟨⟨⟩⟩, records⟩ <;> rfl
    rw [produceEvents]
    rcases produceOne_cases command.stream event (env.produce i) with
      ⟨record, heq⟩ | ⟨raised, heq | ⟨record, heq⟩⟩ <;> rw [heq] at hstep ⊢
    · -- The event is produced, and the steps for the others follow.
      obtain ⟨n, hn⟩ := ih (places ++ [i]) (i + 1) hnext
      refine ⟨n + 1, ?_⟩
      rw [Function.iterate_succ_apply, hstep]
      refine hn.trans ?_
      dsimp only
      rcases produceEvents command.stream env.produce (i + 1) events with ⟨answer, later⟩
      dsimp only
      rw [List.append_assoc, List.singleton_append, List.length_append, List.length_singleton,
        Nat.add_comm 1, List.range'_succ]
    · exact ⟨1, hstep⟩
    · exact ⟨1, hstep⟩

variable (engine env cache fingerprint) in
/-- The steps from the first event to the cache are `publishNew`. -/
theorem stepAlone_publishNew (hkey : Option String) (named : command.idempotencyKey = hkey) :
    ∃ n, (stepAlone engine command env)^[n] (cache, .producing fingerprint 0, []) =
      ((publishNew cache command hkey fingerprint env).cache,
        .ended (publishNew cache command hkey fingerprint env).answer,
        List.range (publishNew cache command hkey fingerprint env).produced.length) := by
  obtain ⟨n, hn⟩ := stepAlone_produces engine env cache fingerprint [] 0 command.events
    List.drop_zero
  rw [List.nil_append, ← List.range_eq_range'] at hn
  unfold publishNew send
  generalize produceEvents command.stream env.produce 0 command.events = outcome at hn ⊢
  obtain ⟨raised | ⟨⟨⟩⟩, records⟩ := outcome <;> dsimp only at hn ⊢
  · exact ⟨n, hn⟩
  -- From here on each phase takes one step.
  cases hflush : env.flush with
  | error raised =>
    refine ⟨n + 1, ?_⟩
    rw [Function.iterate_succ_apply', hn]
    dsimp only [stepAlone, stepCall]
    rw [hflush]
    dsimp only [Option.toList_none]
    rw [List.append_nil]
    rfl
  | ok queued =>
    dsimp only
    by_cases hqueued : queued = 0
    swap
    · refine ⟨n + 1, ?_⟩
      rw [Function.iterate_succ_apply', hn, if_pos hqueued]
      dsimp only [stepAlone, stepCall]
      rw [hflush]
      dsimp only
      rw [if_pos hqueued]
      dsimp only [Option.toList_none]
      rw [List.append_nil]
      rfl
    rw [if_neg (not_not.mpr hqueued)]
    have hcollecting : (stepAlone engine command env)^[n + 1]
        (cache, .producing fingerprint 0, []) =
          (cache, .collecting fingerprint, List.range records.length) := by
      rw [Function.iterate_succ_apply', hn]
      dsimp only [stepAlone, stepCall]
      rw [hflush]
      dsimp only
      rw [if_neg (not_not.mpr hqueued)]
      dsimp only [Option.toList_none]
      rw [List.append_nil]
    cases hreceipts : receipts command.stream env 0 command.events with
    | error raised =>
      refine ⟨n + 2, ?_⟩
      rw [Function.iterate_succ_apply', hcollecting]
      dsimp only [stepAlone, stepCall]
      rw [hreceipts]
      dsimp only [Option.toList_none]
      rw [List.append_nil]
      rfl
    | ok rs =>
      refine ⟨n + 4, ?_⟩
      rw [Function.iterate_succ_apply', Function.iterate_succ_apply', Function.iterate_succ_apply',
        hcollecting]
      dsimp only [stepAlone, stepCall]
      rw [hreceipts]
      dsimp only [Option.toList_none]
      rw [List.append_nil, List.append_nil, List.append_nil, named]
      cases env.emit <;> rfl

/-- **A call that nobody interrupts** is `publish`: it ends with the answer and the cache
of `publish`, and the client has taken as many records. -/
theorem stepAlone_publish (engine : KafkaProducerEngine) (cache : IdempotencyCache)
    (command : PublishCommand) (env : PublishEnv) :
    ∃ n, (stepAlone engine command env)^[n] (cache, .lookingUp, []) =
      ((engine.publish cache command false env).cache,
        .ended (engine.publish cache command false env).answer,
        List.range (engine.publish cache command false env).produced.length) := by
  have hfirst : ∀ (phase : PublishPhase) (cache' : IdempotencyCache),
      engine.stepCall cache ⟨command, .lookingUp⟩ env = (cache', phase, none) →
        stepAlone engine command env (cache, .lookingUp, []) = (cache', phase, []) := by
    intro phase cache' heq
    unfold stepAlone
    dsimp only
    rw [heq]
    rfl
  unfold publish
  cases hfingerprint : engine.sha256Fingerprint command.operation with
  | error raised =>
    refine ⟨1, hfirst _ _ ?_⟩
    dsimp only [stepCall]
    rw [hfingerprint]
    rfl
  | ok fingerprint =>
    dsimp only
    rw [if_neg Bool.false_ne_true]
    -- A call that does not find its key goes on to publish.
    have hmiss : ∀ key, command.idempotencyKey = key →
        engine.stepCall cache ⟨command, .lookingUp⟩ env =
          (cache, .producing fingerprint 0, none) →
        ∃ n, (stepAlone engine command env)^[n] (cache, .lookingUp, []) =
          ((publishNew cache command key fingerprint env).cache,
            .ended (publishNew cache command key fingerprint env).answer,
            List.range (publishNew cache command key fingerprint env).produced.length) := by
      intro key hkey heq
      obtain ⟨n, hn⟩ := stepAlone_publishNew engine env cache fingerprint key hkey
      exact ⟨n + 1, by rw [Function.iterate_succ_apply, hfirst _ _ heq]; exact hn⟩
    cases hkey : command.idempotencyKey with
    | none =>
      refine hmiss none hkey ?_
      dsimp only [stepCall]
      rw [hfingerprint, hkey]
    | some key =>
      dsimp only
      rcases hfound : cache.get? key with _ | ⟨remembered, rs⟩
      · refine hmiss (some key) hkey ?_
        dsimp only [stepCall]
        rw [hfingerprint, hkey]
        dsimp only
        rw [hfound]
      · dsimp only
        by_cases hsame : remembered = fingerprint
        swap
        · rw [if_pos hsame]
          refine ⟨1, hfirst _ _ ?_⟩
          dsimp only [stepCall]
          rw [hfingerprint, hkey]
          dsimp only
          rw [hfound]
          dsimp only
          rw [if_pos hsame]
          rfl
        rw [if_neg (not_not.mpr hsame)]
        refine ⟨2, ?_⟩
        have hreplay : engine.stepCall cache ⟨command, .lookingUp⟩ env =
            (cache.moveToEnd key, .reporting rs, none) := by
          dsimp only [stepCall]
          rw [hfingerprint, hkey]
          dsimp only
          rw [hfound]
          dsimp only
          rw [if_neg (not_not.mpr hsame)]
        rw [Function.iterate_succ_apply', Function.iterate_one, hfirst _ _ hreplay]
        dsimp only [stepAlone, stepCall]
        cases env.emit <;> rfl

/-- A cache that is small enough forgets nothing. -/
theorem get?_remember_of_ne {cache : IdempotencyCache} {keys : Finset String} {key other : String}
    (known : ∀ k, (cache.get? k).isSome → k ∈ keys) (hkey : key ∈ keys)
    (few : keys.card ≤ maxIdempotencyEntries) (hne : other ≠ key) (fingerprint : String)
    (rs : List PublishReceipt) :
    (remember cache key fingerprint rs).get? other = cache.get? other := by
  have hknown : ∀ k, (((cache.set key (fingerprint, rs)).moveToEnd key).get? k).isSome →
      k ∈ keys := by
    intro k hk
    rw [Dict.get?_moveToEnd, Dict.get?_set] at hk
    split at hk
    · next heq => exact heq ▸ hkey
    · exact known k hk
  unfold remember
  rw [Dict.keepLast_of_le ((Dict.length_entries_le hknown).trans few), Dict.get?_moveToEnd,
    Dict.get?_set_of_ne _ _ hne]

end KafkaProducerEngine

namespace PublishBook

open KafkaProducerEngine

variable {engine : KafkaProducerEngine} {book : PublishBook} {keys : Finset String} {key : String}

/-- What keeps a key to one publication. -/
structure OnceInvariant (keys : Finset String) (key : String) (book : PublishBook) : Prop where
  known : ∀ k, (book.cache.get? k).isSome → k ∈ keys
  named : ∀ id call, book.calls id = some call →
    ∀ k, call.command.idempotencyKey = some k → k ∈ keys
  past : ∀ id place, (id, place) ∈ book.taken →
    ∃ call, book.calls id = some call ∧ call.phase.Past place
  taken : book.taken.Nodup
  appended : (book.appended.map Prod.fst).Nodup ∧ book.appended.map Prod.fst ⊆ book.taken
  /-- As long as a call with the key is on its way to the cache, the key is free there. -/
  free : ∀ id call, book.calls id = some call → call.command.idempotencyKey = some key →
    call.phase.busy → book.cache.get? key = none
  single : ∀ id id', book.Uses key id → book.Uses key id' → id = id'
  agree : ∀ id call rs, book.calls id = some call → call.command.idempotencyKey = some key →
    (call.phase = .reporting rs ∨ call.phase = .returned rs) →
      ∃ fingerprint, book.cache.get? key = some (fingerprint, rs)

theorem OnceInvariant.once (h : OnceInvariant keys key book) : book.Once key where
  appended id id' place := by
    rintro ⟨call, hcall, hkey⟩ ⟨call', hcall', hkey'⟩ hmem hmem'
    exact h.single id id'
      ⟨call, hcall, hkey, Or.inr ⟨place, h.appended.2 hmem⟩⟩
      ⟨call', hcall', hkey', Or.inr ⟨place, h.appended.2 hmem'⟩⟩
  nodup := h.appended.1
  receipts id id' call call' rs rs' hcall hcall' hkey hkey' hreturned hreturned' := by
    obtain ⟨fingerprint, hget⟩ := h.agree id call rs hcall hkey (Or.inr hreturned)
    obtain ⟨fingerprint', hget'⟩ := h.agree id' call' rs' hcall' hkey' (Or.inr hreturned')
    exact (Prod.mk.inj (Option.some.inj (hget.symm.trans hget'))).2

theorem OnceInvariant.empty : OnceInvariant keys key {} where
  known k hk := by simp at hk
  named id call hcall := by simp at hcall
  past id place hmem := absurd hmem List.not_mem_nil
  taken := List.nodup_nil
  appended := ⟨List.nodup_nil, List.nil_subset _⟩
  free id call hcall := by simp at hcall
  single id id' h := by
    obtain ⟨call, hcall, -⟩ := h
    simp at hcall
  agree id call rs hcall := by simp at hcall

/-- A new call has done nothing yet. -/
theorem OnceInvariant.start (h : OnceInvariant keys key book) {id : ℕ} {command : PublishCommand}
    (fresh : book.calls id = none)
    (named : ∀ k, command.idempotencyKey = some k → k ∈ keys) :
    OnceInvariant keys key ((machine engine).next book (.start id command)) := by
  have hcalls : ∀ other call,
      (Function.update book.calls id (some { command }) : ℕ → Option PublishCall) other =
        some call → (other = id ∧ call = { command }) ∨ book.calls other = some call := by
    intro other call hcall
    rw [Function.update_apply] at hcall
    split at hcall
    · next heq => exact Or.inl ⟨heq, (Option.some.inj hcall).symm⟩
    · exact Or.inr hcall
  -- A call that has just started has used no key.
  have huses : ∀ other,
      ((machine engine).next book (.start id command)).Uses key other → book.Uses key other := by
    rintro other ⟨call, hcall, hkey, huse⟩
    rcases hcalls other call hcall with ⟨rfl, rfl⟩ | hold
    · rcases huse with hbusy | ⟨place, hplace⟩
      · simp [PublishPhase.busy] at hbusy
      · obtain ⟨call', hcall', -⟩ := h.past other place hplace
        rw [fresh] at hcall'
        simp at hcall'
    · exact ⟨call, hold, hkey, huse⟩
  refine ⟨h.known, fun other call hcall k hk => ?_, fun other place hplace => ?_, h.taken,
    h.appended, fun other call hcall hkey hbusy => ?_, fun other other' huse huse' => ?_,
    fun other call rs hcall hkey hphase => ?_⟩
  · rcases hcalls other call hcall with ⟨-, rfl⟩ | hold
    · exact named k hk
    · exact h.named other call hold k hk
  · obtain ⟨call, hcall, hpast⟩ := h.past other place hplace
    refine ⟨call, ?_, hpast⟩
    have hne : other ≠ id := by
      rintro rfl
      rw [fresh] at hcall
      simp at hcall
    exact (Function.update_of_ne hne _ _).trans hcall
  · rcases hcalls other call hcall with ⟨-, rfl⟩ | hold
    · simp [PublishPhase.busy] at hbusy
    · exact h.free other call hold hkey hbusy
  · exact h.single other other' (huses other huse) (huses other' huse')
  · rcases hcalls other call hcall with ⟨-, rfl⟩ | hold
    · rcases hphase with hphase | hphase <;> simp at hphase
    · exact h.agree other call rs hold hkey hphase

/-- The client appends a message that was not in the topic. -/
theorem OnceInvariant.append (h : OnceInvariant keys key book) {message : Enqueued}
    {position : ℕ × ℕ} (took : message ∈ book.taken)
    (fresh : message ∉ book.appended.map Prod.fst) :
    OnceInvariant keys key ((machine engine).next book (.append message position)) := by
  refine { h with appended := ?_ }
  change ((book.appended ++ [(message, position)]).map Prod.fst).Nodup ∧
    (book.appended ++ [(message, position)]).map Prod.fst ⊆ book.taken
  rw [List.map_append, List.map_singleton]
  refine ⟨?_, ?_⟩
  · refine List.nodup_append.mpr ⟨h.appended.1, List.nodup_singleton _, ?_⟩
    rintro old hold new hnew rfl
    have hsame : old = message := List.mem_singleton.mp hnew
    exact fresh (hsame ▸ hold)
  · intro other hother
    rcases List.mem_append.mp hother with hold | hnew
    · exact h.appended.2 hold
    · exact List.mem_singleton.mp hnew ▸ took

/-- What a step of one call does to the others, and to what is remembered under the key. -/
theorem OnceInvariant.get?_of_callStep (h : OnceInvariant keys key book)
    (few : keys.card ≤ maxIdempotencyEntries) {id : ℕ} {call : PublishCall}
    (hcall : book.calls id = some call) {cache : IdempotencyCache} {phase : PublishPhase}
    {took : Option ℕ} (step : CallStep book.cache call.command call.phase cache phase took) :
    (∀ k, (cache.get? k).isSome → k ∈ keys) ∧
      (cache.get? key = book.cache.get? key ∨
        ∃ fingerprint rs, call.phase = .storing fingerprint rs ∧
          call.command.idempotencyKey = some key ∧ phase = .reporting rs ∧
          cache.get? key = some (fingerprint, rs)) := by
  obtain ⟨command, current⟩ := call
  dsimp only at step ⊢
  cases step with
  | replays named found =>
    refine ⟨fun k hk => h.known k ?_, Or.inl (Dict.get?_moveToEnd ..)⟩
    rwa [Dict.get?_moveToEnd] at hk
  -- At most `maxIdempotencyEntries` keys are in use, so remembering one of them evicts none.
  | @stores fingerprint rs =>
    cases hkey : command.idempotencyKey with
    | none => exact ⟨h.known, Or.inl rfl⟩
    | some k =>
      have hk := h.named id _ hcall k hkey
      refine ⟨fun other hother => ?_, ?_⟩
      · by_cases hne : other = k
        · exact hne ▸ hk
        · refine h.known other ?_
          rwa [Option.elim_some, get?_remember_of_ne h.known hk few hne] at hother
      · by_cases hne : key = k
        · subst hne
          exact Or.inr ⟨fingerprint, rs, rfl, rfl, rfl, get?_remember ..⟩
        · exact Or.inl (get?_remember_of_ne h.known hk few hne ..)
  | _ => exact ⟨h.known, Or.inl rfl⟩

/-- **A step of a call** keeps the key to one publication, when a call that does not find
the key is alone with it. -/
theorem OnceInvariant.advance (h : OnceInvariant keys key book)
    (few : keys.card ≤ maxIdempotencyEntries) {id : ℕ} {env : PublishEnv}
    (alone : book.Alone key (.advance id env)) :
    OnceInvariant keys key (book.advance engine id env) := by
  cases hcall : book.calls id with
  | none =>
    unfold PublishBook.advance
    rw [hcall]
    exact h
  | some call =>
  have hstep := callStep_stepCall engine book.cache call env
  unfold PublishBook.advance
  rw [hcall]
  dsimp only
  generalize engine.stepCall book.cache call env = outcome at hstep ⊢
  obtain ⟨cache, phase, took⟩ := outcome
  dsimp only at hstep ⊢
  obtain ⟨hknown, hcache⟩ := h.get?_of_callStep few hcall hstep
  set book' : PublishBook :=
    { book with
      cache
      calls := Function.update book.calls id (some { call with phase })
      taken := book.taken ++ (took.map fun place => (id, place)).toList } with hbook'
  have hself : book'.calls id = some { call with phase } := Function.update_self ..
  have hothers : ∀ other, other ≠ id → book'.calls other = book.calls other :=
    fun other hne => Function.update_of_ne hne ..
  have htaken : ∀ other place, (other, place) ∈ book'.taken ↔
      (other, place) ∈ book.taken ∨ other = id ∧ took = some place := by
    intro other place
    change (other, place) ∈ book.taken ++ _ ↔ _
    rw [List.mem_append, Option.mem_toList, Option.map_eq_some_iff]
    constructor
    · rintro (hold | ⟨i, hi, heq⟩)
      · exact Or.inl hold
      · obtain ⟨rfl, rfl⟩ := Prod.mk.inj heq
        exact Or.inr ⟨rfl, hi⟩
    · rintro (hold | ⟨rfl, htook⟩)
      · exact Or.inl hold
      · exact Or.inr ⟨place, htook, rfl⟩
  -- A call holds the key when it did before, or when it has just not found it.
  have huses : ∀ other, book'.Uses key other → book.Uses key other ∨
      other = id ∧ ∀ third, ¬book.Uses key third := by
    rintro other ⟨call', hcall', hkey, huse⟩
    by_cases hne : other = id
    swap
    · rw [Option.mem_def, hothers other hne] at hcall'
      refine Or.inl ⟨call', hcall', hkey, huse.imp_right ?_⟩
      rintro ⟨place, hplace⟩
      exact ⟨place, ((htaken other place).mp hplace).resolve_right fun hnew => hne hnew.1⟩
    subst hne
    obtain rfl := Option.some.inj (hself.symm.trans hcall')
    by_cases hold : ∃ place, (other, place) ∈ book.taken
    · exact Or.inl ⟨call, hcall, hkey, Or.inr hold⟩
    have hbusy : phase.busy ∨ took.isSome := by
      refine huse.imp_right ?_
      rintro ⟨place, hplace⟩
      rcases (htaken other place).mp hplace with hplace | ⟨-, htook⟩
      · exact absurd ⟨place, hplace⟩ hold
      · exact Option.isSome_of_eq_some htook
    rcases hstep.busy hbusy with hbusy | ⟨hlooking, habsent⟩
    · exact Or.inl ⟨call, hcall, hkey, Or.inl hbusy⟩
    · refine Or.inr ⟨rfl, alone call hcall ?_ hkey (habsent key hkey)⟩
      rw [hlooking]
  have hsingle : ∀ other other', book'.Uses key other → book'.Uses key other' → other = other' := by
    intro other other' huse huse'
    rcases huses other huse with hold | ⟨rfl, hnone⟩ <;>
      rcases huses other' huse' with hold' | ⟨rfl, hnone'⟩
    · exact h.single other other' hold hold'
    · exact absurd hold (hnone' other)
    · exact absurd hold' (hnone other')
    · rfl
  refine ⟨hknown, fun other call' hcall' k hk => ?_, fun other place hplace => ?_, ?_,
    ⟨h.appended.1, fun message hmessage => ?_⟩, fun other call' hcall' hkey hbusy => ?_, hsingle,
    fun other call' rs hcall' hkey hphase => ?_⟩
  · by_cases hne : other = id
    · subst hne
      obtain rfl := Option.some.inj (hself.symm.trans hcall')
      exact h.named other call hcall k hk
    · rw [hothers other hne] at hcall'
      exact h.named other call' hcall' k hk
  · by_cases hne : other = id
    · subst hne
      refine ⟨_, hself, ?_⟩
      rcases (htaken other place).mp hplace with hold | ⟨-, htook⟩
      · obtain ⟨call', hcall', hpast⟩ := h.past other place hold
        obtain rfl := Option.some.inj (hcall.symm.trans hcall')
        exact hstep.past.1 place hpast
      · exact (hstep.past.2 place htook).1
    · obtain ⟨call', hcall', hpast⟩ :=
        h.past other place (((htaken other place).mp hplace).resolve_right fun hnew => hne hnew.1)
      exact ⟨call', (hothers other hne).trans hcall', hpast⟩
  · change (book.taken ++ _).Nodup
    cases htook : took with
    | none => simpa using h.taken
    | some place =>
      refine List.nodup_append.mpr ⟨h.taken, List.nodup_singleton _, ?_⟩
      rintro old hold new hnew rfl
      have hsame : old = (id, place) := List.mem_singleton.mp hnew
      obtain ⟨call', hcall', hpast⟩ := h.past id place (hsame ▸ hold)
      obtain rfl := Option.some.inj (hcall.symm.trans hcall')
      exact (hstep.past.2 place htook).2.1 hpast
  · exact List.mem_append_left _ (h.appended.2 hmessage)
  · -- While this call is on its way, nobody else stores the key.
    have hfree : cache.get? key = book.cache.get? key → cache.get? key = none := by
      intro heq
      rw [heq]
      by_cases hne : other = id
      · subst hne
        obtain rfl := Option.some.inj (hself.symm.trans hcall')
        rcases hstep.busy (Or.inl hbusy) with hold | ⟨-, habsent⟩
        · exact h.free other call hcall hkey hold
        · exact habsent key hkey
      · rw [hothers other hne] at hcall'
        exact h.free other call' hcall' hkey hbusy
    rcases hcache with heq | ⟨fingerprint, rs, hstoring, hown, hreporting, -⟩
    · exact hfree heq
    by_cases hne : other = id
    · subst hne
      obtain rfl := Option.some.inj (hself.symm.trans hcall')
      dsimp only at hbusy
      rw [hreporting] at hbusy
      simp [PublishPhase.busy] at hbusy
    · rw [hothers other hne] at hcall'
      refine absurd (h.single other id ⟨call', hcall', hkey, Or.inl hbusy⟩
        ⟨call, hcall, hown, Or.inl ?_⟩) hne
      rw [hstoring]
      rfl
  · by_cases hne : other = id
    · subst hne
      obtain rfl := Option.some.inj (hself.symm.trans hcall')
      rcases hstep.remembered hkey hphase with hold | hnow
      swap
      · exact hnow
      rcases hcache with heq | ⟨fingerprint, rs', hstoring, -⟩
      · change ∃ fingerprint, cache.get? key = _
        rw [heq]
        exact h.agree other call rs hcall hkey hold
      · rw [hstoring] at hold
        simp at hold
    · rw [hothers other hne] at hcall'
      have hagree := h.agree other call' rs hcall' hkey hphase
      rcases hcache with heq | ⟨fingerprint, rs', hstoring, hown, -⟩
      · change ∃ fingerprint, cache.get? key = _
        rw [heq]
        exact hagree
      · obtain ⟨fingerprint', hget⟩ := hagree
        have hnone := h.free id call hcall hown (by rw [hstoring]; rfl)
        rw [hnone] at hget
        simp at hget

/-- **One publication for each key** in every run of calls from any number of threads, in
which a call that looks the key up and does not find it is alone with it. The keys of the
run fit into the cache. -/
theorem once_of_alone (keys : Finset String) (few : (keys.erase key).card < maxIdempotencyEntries)
    {run : List PublishStep} (legal : (machine engine).Legal {} run)
    (named : ∀ id command, .start id command ∈ run →
      ∀ k, command.idempotencyKey = some k → k ∈ keys)
    (alone : ∀ x ∈ (machine engine).steps {} run, x.1.Alone key x.2) :
    ((machine engine).play {} run).Once key := by
  have hcard : keys.card ≤ maxIdempotencyEntries := by
    have hle := Finset.pred_card_le_card_erase (s := keys) (a := key)
    omega
  have hnamed : ∀ x ∈ (machine engine).steps {} run, ∀ id command, x.2 = .start id command →
      ∀ k, command.idempotencyKey = some k → k ∈ keys := by
    intro x hx id command heq
    exact named id command (heq ▸ Machine.mem_of_mem_steps hx)
  -- the invariant counts keys, so it needs what each start may name
  suffices hinv : OnceInvariant keys key ((machine engine).play {} run) from hinv.once
  refine Machine.play_induction
    (C := fun book step => book.Alone key step ∧ ∀ id command, step = .start id command →
      ∀ k, command.idempotencyKey = some k → k ∈ keys) ?_ .empty legal
    fun x hx => ⟨alone x hx, hnamed x hx⟩
  intro book step hbook hallowed hcondition
  cases step with
  | start id command => exact hbook.start hallowed (hcondition.2 id command rfl)
  | advance id env => exact hbook.advance hcard hcondition.1
  | append message position => exact hbook.append hallowed.1 hallowed.2

variable (engine) in
/-- The steps of one call that nobody interrupts. -/
theorem iterate_advance (book : PublishBook) (id : ℕ) (command : PublishCommand)
    (env : PublishEnv) (n : ℕ) (cache : IdempotencyCache) (phase : PublishPhase)
    (places : List ℕ) :
    (fun b => advance engine b id env)^[n]
      { book with
        cache
        calls := Function.update book.calls id (some ⟨command, phase⟩)
        taken := book.taken ++ places.map fun place => (id, place) } =
      let s := (stepAlone engine command env)^[n] (cache, phase, places)
      { book with
        cache := s.1
        calls := Function.update book.calls id (some ⟨command, s.2.1⟩)
        taken := book.taken ++ s.2.2.map fun place => (id, place) } := by
  -- By induction on the steps; the cache and the phase are those after the first one.
  induction n generalizing cache phase places with
  | zero => rfl
  | succ n ih =>
    rw [Function.iterate_succ_apply, Function.iterate_succ_apply]
    unfold advance
    dsimp only
    rw [Function.update_self]
    dsimp only [stepAlone]
    rcases engine.stepCall cache ⟨command, phase⟩ env with ⟨cache', phase', took⟩
    dsimp only
    rw [← ih cache' phase' (places ++ took.toList), Function.update_idem, List.map_append,
      List.append_assoc]
    cases took <;> rfl

/-- **A call that nobody interrupts** does to the book what `publish` does. -/
theorem advance_alone {id : ℕ} {command : PublishCommand}
    (hcall : book.calls id = some { command }) (env : PublishEnv) :
    ∃ n, (fun b => advance engine b id env)^[n] book =
      let outcome := engine.publish book.cache command false env
      { book with
        cache := outcome.cache
        calls := Function.update book.calls id (some ⟨command, .ended outcome.answer⟩)
        taken := book.taken ++
          (List.range outcome.produced.length).map fun place => (id, place) } := by
  obtain ⟨n, hn⟩ := stepAlone_publish engine book.cache command env
  have hsteps := iterate_advance engine book id command env n book.cache .lookingUp []
  rw [hn, List.map_nil, List.append_nil, ← hcall, Function.update_eq_self] at hsteps
  exact ⟨n, hsteps⟩

/-! ### Two calls with one key -/

theorem alone_of_not_lookingUp {id : ℕ} {env : PublishEnv}
    (h : ∀ call ∈ book.calls id, ¬(call.phase matches .lookingUp)) :
    book.Alone key (.advance id env) :=
  fun call hcall hlooking => absurd hlooking (h call hcall)

instance (book : PublishBook) (id : ℕ) (env : PublishEnv) : Decidable (book.Reported id env) :=
  inferInstanceAs (Decidable (∀ call ∈ book.calls id, ∀ place < call.command.events.length,
    _ → ∀ position ∈ (env.report place).message, _))

instance (engine : KafkaProducerEngine) (book : PublishBook) :
    DecidablePred ((machine engine).allowed book)
  | .start _ _ => inferInstanceAs (Decidable (_ = none))
  | .advance _ _ => inferInstanceAs (Decidable (Reported _ _ _))
  | .append _ _ => inferInstanceAs (Decidable (_ ∧ _))

instance (engine : KafkaProducerEngine) (book : PublishBook) (run : List PublishStep) :
    Decidable ((machine engine).Legal book run) :=
  inferInstanceAs (Decidable (∀ x ∈ (machine engine).steps book run,
    (machine engine).allowed x.1 x.2))

end PublishBook

namespace Sample

abbrev publisher : KafkaProducerEngine := ⟨fun _ => .ok "sha256:5"⟩

abbrev publication : PublishCommand where
  stream := orders
  events := [event]
  idempotencyKey := "order-1"
  batch := false

/-- The calls return, and each message is reported at this offset. -/
abbrev published (offset : ℕ) : PublishEnv where
  report _ := { message := some (0, offset) }

/-- The calls return, and nothing is reported yet. -/
abbrev unreported : PublishEnv where
  report _ := {}

end Sample

namespace PublishBook

open Sample

/-- A publication from its start to its receipts. -/
theorem once_of_alone_publication :
    ((machine publisher).play {} [.start 0 publication, .advance 0 unreported,
      .advance 0 unreported, .append (0, 0) (0, 7), .advance 0 unreported,
      .advance 0 unreported, .advance 0 (published 7), .advance 0 unreported,
      .advance 0 unreported]).Once "order-1" := by
  refine once_of_alone {"order-1"} (by decide) (by decide +kernel) ?_ ?_
  · intro id command hmem k hk
    obtain ⟨-, rfl⟩ : id = 0 ∧ command = publication := by simpa using hmem
    exact Finset.mem_singleton.mpr (Option.some.inj hk).symm
  · simp only [Machine.steps_cons, Machine.steps_nil, List.forall_mem_cons]
    refine ⟨trivial, ?_, alone_of_not_lookingUp (by decide +kernel), trivial,
      alone_of_not_lookingUp (by decide +kernel), alone_of_not_lookingUp (by decide +kernel),
      alone_of_not_lookingUp (by decide +kernel), alone_of_not_lookingUp (by decide +kernel),
      alone_of_not_lookingUp (by decide +kernel), fun x hx => absurd hx List.not_mem_nil⟩
    -- At the lookup the call itself is the only one.
    rintro - - - - - other ⟨call, hcall, -, hbusy | ⟨place, hplace⟩⟩
    · have hlooking : call = { command := publication } := by
        change (Function.update (fun _ => none) 0 (some { command := publication }) :
          ℕ → Option PublishCall) other = some call at hcall
        rw [Function.update_apply] at hcall
        split at hcall
        · exact (Option.some.inj hcall).symm
        · simp at hcall
      rw [hlooking] at hbusy
      simp [PublishPhase.busy] at hbusy
    · exact absurd hplace List.not_mem_nil

/-- **Two calls publish twice.** Both look the key up before either has stored it, and the
client appends an event for each of them. -/
theorem overlapping_publications_append_twice :
    let run := [.start 0 publication, .start 1 publication, .advance 0 unreported,
      .advance 1 unreported, .advance 0 unreported, .advance 1 unreported,
      .append (0, 0) (0, 7), .append (1, 0) (0, 8)]
    (machine publisher).Legal {} run ∧ ¬((machine publisher).play {} run).Once "order-1" := by
  refine ⟨by decide +kernel, fun h => ?_⟩
  refine absurd (h.appended 0 1 0 ⟨_, rfl, rfl⟩ ⟨_, rfl, rfl⟩ ?_ ?_) (by decide)
  · decide +kernel
  · decide +kernel

end PublishBook

end MeridianKafka
