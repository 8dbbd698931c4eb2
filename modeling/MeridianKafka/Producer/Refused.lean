import MeridianKafka.Producer.Readable
import MeridianKafka.Consumer.Group

/-!
# Refused batches

An event with a header under the reserved prefix is refused by `_produce_one`, in the same
loop that hands the events to the client. So a batch is refused as a whole only when its
first event is the refused one: whatever stands before the refused event has been produced
by then (`refused_batch_iff`).
-/

namespace MeridianKafka

open Framework

/-- How often `produce` is called for an event, up to the end of its loop. -/
def ProduceCalls.attempts : ProduceCalls → ℕ
  | .taken _ | .raises _ | .fullAtDeadline | .full (some _) _ => 1
  | .full none rest => rest.attempts + 1

theorem ProduceCalls.attempts_pos (calls : ProduceCalls) : 0 < calls.attempts := by
  cases calls with
  | full poll rest =>
    cases poll with
    | none => exact Nat.succ_pos _
    | some raised => exact Nat.one_pos
  | taken _ | raises _ | fullAtDeadline => exact Nat.one_pos

namespace KafkaProducerEngine

/-- A header of the event is under the reserved prefix. -/
def usesReservedHeader (event : Event) : Bool :=
  event.headers.any fun header => reservedHeader header.1

/-- What `_produce_one` raises about such an event. -/
def reservedHeaders : Failure where
  kind := .invalidEvent
  message := "Event headers cannot use the reserved meridian. prefix"
  requirement := "event.headers"

/-- How often `produce` is called for the events from one place on, up to the one that
raises. -/
def attempts (stream : PhysicalStream) (produce : ℕ → ProduceCalls) : ℕ → List Event → ℕ
  | _, [] => 0
  | i, event :: events =>
    if usesReservedHeader event then 0
    else
      match (produceOne stream event (produce i)).1 with
      | .error _ => (produce i).attempts
      | .ok () => (produce i).attempts + attempts stream produce (i + 1) events

/-- The call publishes anew, and is stopped by the headers of the event at this place: all
events before it have been produced. -/
structure RefusedAt (engine : KafkaProducerEngine) (cache : IdempotencyCache)
    (command : PublishCommand) (transactional : Bool) (env : PublishEnv) (k : ℕ) : Prop where
  fingerprint : ∃ fingerprint, engine.sha256Fingerprint command.operation = .ok fingerprint
  unused : transactional = false → ∀ key, command.idempotencyKey = some key →
    cache.get? key = none
  refused : ∃ event, command.events[k]? = some event ∧ usesReservedHeader event = true
  before : ∀ j event, j < k → command.events[j]? = some event →
    (produceOne command.stream event (env.produce j)).1 = .ok ()

theorem produceOne_of_reserved {stream : PhysicalStream} {event : Event} {calls : ProduceCalls}
    (h : usesReservedHeader event = true) :
    produceOne stream event calls = (.error (.failure reservedHeaders), []) := if_pos h

/-- An event that has been produced is not a refused one. -/
theorem not_reserved_of_produceOne_ok {stream : PhysicalStream} {event : Event}
    {calls : ProduceCalls} (h : (produceOne stream event calls).1 = .ok ()) :
    usesReservedHeader event = false := by
  rw [← Bool.not_eq_true]
  intro hreserved
  rw [produceOne_of_reserved hreserved] at h
  simp at h

/-- The loop stops at the first refused event, with the records of those before it. -/
theorem produceEvents_of_refused {stream : PhysicalStream} {produce : ℕ → ProduceCalls}
    {events : List Event} {i k : ℕ}
    (refused : ∃ event, events[k]? = some event ∧ usesReservedHeader event = true)
    (before : ∀ j event, j < k → events[j]? = some event →
      (produceOne stream event (produce (i + j))).1 = .ok ()) :
    produceEvents stream produce i events =
      (.error (.failure reservedHeaders), (events.take k).map (record stream)) := by
  induction events generalizing i k with
  | nil =>
    obtain ⟨event, hevent, -⟩ := refused
    simp at hevent
  | cons first events ih =>
    rw [produceEvents]
    cases k with
    | zero =>
      obtain ⟨event, hevent, hreserved⟩ := refused
      obtain rfl : first = event := by simpa using hevent
      rw [produceOne_of_reserved hreserved]
      rfl
    | succ k =>
      -- The first event is produced, and the refused one is among those after it.
      have hfirst : (produceOne stream first (produce i)).1 = .ok () :=
        before 0 first (Nat.succ_pos k) rfl
      have hrecords := produceOne_ok hfirst
      have hlater := @ih (i + 1) k refused fun j event hj hevent => by
        have hone := before (j + 1) event (Nat.succ_lt_succ hj) hevent
        rwa [show i + (j + 1) = i + 1 + j by omega] at hone
      generalize produceOne stream first (produce i) = outcome at hfirst hrecords ⊢
      obtain ⟨answer, records⟩ := outcome
      obtain rfl : answer = .ok () := hfirst
      obtain rfl : records = [record stream first] := hrecords
      dsimp only
      rw [hlater]
      rfl

/-- `produce` is never called exactly when there is no event before the refused one. -/
theorem attempts_eq_zero_iff {stream : PhysicalStream} {produce : ℕ → ProduceCalls}
    {events : List Event} {i : ℕ} :
    attempts stream produce i events = 0 ↔
      ∀ event ∈ events.head?, usesReservedHeader event = true := by
  cases events with
  | nil => simp [attempts]
  | cons first events =>
    rw [attempts]
    have hpos := (produce i).attempts_pos
    cases hfirst : usesReservedHeader first with
    | true => simp [hfirst]
    | false =>
      rw [if_neg Bool.false_ne_true]
      have hne : ¬∀ event ∈ (first :: events).head?, usesReservedHeader event = true := by
        intro h
        exact Bool.false_ne_true (hfirst.symm.trans (h first rfl))
      refine iff_of_false ?_ hne
      -- Whether or not the first event is produced, the client has been asked once at least.
      generalize produceOne stream first (produce i) = outcome
      obtain ⟨answer, records⟩ := outcome
      cases answer with
      | error raised =>
        dsimp only
        omega
      | ok u =>
        dsimp only
        omega

variable {engine : KafkaProducerEngine} {cache : IdempotencyCache} {command : PublishCommand}
  {transactional : Bool} {env : PublishEnv}

/-- A call that publishes anew, when its events are not all produced. -/
theorem RefusedAt.publish_eq {k : ℕ}
    (h : RefusedAt engine cache command transactional env k) :
    engine.publish cache command transactional env =
      { answer := .error (.failure reservedHeaders)
        cache
        produced := (command.events.take k).map (record command.stream) } := by
  obtain ⟨fingerprint, hfingerprint⟩ := h.fingerprint
  have hsend : send command env = (.error (.failure reservedHeaders),
      (command.events.take k).map (record command.stream)) := by
    unfold send
    rw [produceEvents_of_refused h.refused fun j event hj hevent => by
      rw [Nat.zero_add]
      exact h.before j event hj hevent]
  -- Without receipts nothing is remembered, whatever the key.
  have hnew : ∀ key, publishNew cache command key fingerprint env =
      { answer := .error (.failure reservedHeaders)
        cache
        produced := (command.events.take k).map (record command.stream) } := by
    exact fun key => publishNew_of_raises hsend cache key fingerprint
  unfold publish
  rw [hfingerprint]
  dsimp only
  cases transactional with
  | true => exact hnew none
  | false =>
    have hunused := h.unused rfl
    rw [if_neg Bool.false_ne_true]
    cases hkey : command.idempotencyKey with
    | none => exact hnew none
    | some key =>
      dsimp only
      rw [hunused key hkey]
      exact hnew (some key)

/-- **What a refused batch leaves.** The call raises `InvalidEvent`, and the client has taken
the events before the refused one. No call of `produce` has been made, and the cache is
unchanged, exactly when the refused event is the first. -/
theorem refused_batch_iff {k : ℕ} (refused : RefusedAt engine cache command transactional env k) :
    (engine.publish cache command transactional env).answer =
        .error (.failure reservedHeaders) ∧
      (engine.publish cache command transactional env).produced =
        (command.events.take k).map (record command.stream) ∧
      ((attempts command.stream env.produce 0 command.events = 0 ∧
          (engine.publish cache command transactional env).cache = cache) ↔
        ∀ event ∈ command.events.head?, usesReservedHeader event = true) := by
  rw [refused.publish_eq, attempts_eq_zero_iff]
  exact ⟨rfl, rfl, and_iff_left rfl⟩

end KafkaProducerEngine

/-! ### A batch of two -/

namespace Refused

/-- The second event has a header under the reserved prefix, in capital letters. -/
def command : PublishCommand where
  stream := Sample.orders
  events := [Sample.event, { Sample.event with headers := [("MERIDIAN.id", .str "1")] }]
  idempotencyKey := some "key"
  batch := true

/-- A client whose calls all succeed. -/
def env : PublishEnv where
  report i := { message := some (0, i) }

theorem refusedAt_one :
    KafkaProducerEngine.RefusedAt Published.engine .empty command false env 1 where
  fingerprint := ⟨_, rfl⟩
  unused _ _ _ := rfl
  refused := ⟨_, rfl, by decide⟩
  before j event hj hevent := by
    obtain rfl : j = 0 := Nat.lt_one_iff.mp hj
    obtain rfl : Sample.event = event := by simpa [command] using hevent
    rfl

end Refused

namespace KafkaProducerEngine

theorem second_event_refused :
    (Published.engine.publish .empty Refused.command false Refused.env).answer =
        .error (.failure reservedHeaders) ∧
      (Published.engine.publish .empty Refused.command false Refused.env).produced =
        (Refused.command.events.take 1).map (record Refused.command.stream) ∧
      ((attempts Refused.command.stream Refused.env.produce 0 Refused.command.events = 0 ∧
          (Published.engine.publish .empty Refused.command false Refused.env).cache = .empty) ↔
        ∀ event ∈ Refused.command.events.head?, usesReservedHeader event = true) :=
  refused_batch_iff Refused.refusedAt_one

/-- **Half a batch is published.** The second event is refused, and the record of the first
one has been handed to the client. -/
theorem refused_batch_has_produced :
    (Published.engine.publish .empty Refused.command false Refused.env).answer =
        .error (.failure reservedHeaders) ∧
      (Published.engine.publish .empty Refused.command false Refused.env).produced =
        [record Sample.orders Sample.event] ∧
      ¬attempts Refused.command.stream Refused.env.produce 0 Refused.command.events = 0 :=
  ⟨rfl, rfl, by decide⟩

end KafkaProducerEngine

end MeridianKafka
