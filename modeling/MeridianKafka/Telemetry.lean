import MeridianKafka.Canonical
import MeridianKafka.Framework.Dict
import MeridianKafka.Framework.Machine
import Mathlib.Data.List.DropRight

/-!
# Telemetry

The engines leave evidence of what they do: named events with attributes, of which the last
ones are kept and all of which go to the sink of the application. Any thread may emit.

`emit` is the function of the source, and a `Machine` takes it apart: a thread makes the event,
appends it under the lock, and gives it to the sink when the lock is free again, with the other
threads in between.

The attributes are of an arbitrary type `Raw`, and `str` makes texts of them.
-/

namespace MeridianKafka

open Framework

structure KafkaTelemetryEvent where
  name : String
  occurredAt : String
  attributes : Dict String String
  deriving DecidableEq

/-- The telemetry of an adapter, by the number of events that it keeps. -/
structure KafkaTelemetry where
  maximumEvents : ℕ
  bounded : 1 ≤ maximumEvents ∧ maximumEvents ≤ 100000

namespace KafkaTelemetry

def create (maximumEvents : ℤ := 4096) : Except Raised KafkaTelemetry :=
  if h : 1 ≤ maximumEvents ∧ maximumEvents ≤ 100000 then
    .ok ⟨maximumEvents.toNat, by omega⟩
  else .error .other

/-- `_FORBIDDEN_KEYS`. -/
def forbiddenKeys : List String :=
  ["secret", "password", "credential", "endpoint", "topic", "groupid"]

/-- `safe_key.lower().replace("_", "")`. Of the letters outside ASCII, two have an ASCII letter
in lower case, the Kelvin sign and the dotted capital I, and neither completes a forbidden
word. -/
def lowered (key : List Char) : List Char := (key.map Char.toLower).filter (· ≠ '_')

def mayExpose (key : String) : Bool :=
  forbiddenKeys.any fun word => word.toList <:+: lowered key.toList

section Emit

variable {Raw : Type} (str : Raw → Except Raised String)

/-- The checks of one attribute. -/
def safeAttribute (item : String × Raw) : Except Raised String :=
  if boundedString item.1 128 && !mayExpose item.1 then do
    let value ← str item.2
    if boundedString value 512 then .ok value else .error .other
  else .error .other

/-- The event of a call. -/
def event (name : String) (attributes : Dict String Raw) (utcText : String) :
    Except Raised KafkaTelemetryEvent := do
  let selected ← Dict.fillFrom (safeAttribute str) .empty attributes.entries
  if boundedString name 256 then
    return { name, occurredAt := utcText, attributes := selected.sorted }
  else .error .other

/-- `deque.append`, with a `maxlen`. -/
def append {α : Type} (maximum : ℕ) (events : List α) (event : α) : List α :=
  if events.length < maximum then events ++ [event] else events.tail ++ [event]

/-- `KafkaTelemetry.emit`, and the events that are kept after it. -/
def emit (telemetry : KafkaTelemetry) (sink : KafkaTelemetryEvent → Option Raised)
    (events : List KafkaTelemetryEvent) (name : String) (attributes : Dict String Raw)
    (utcText : String) : Except Raised Unit × List KafkaTelemetryEvent :=
  match event str name attributes utcText with
  | .error raised => (.error raised, events)
  | .ok event =>
    ((sink event).elim (.ok ()) .error, append telemetry.maximumEvents events event)

end Emit

/-! ### What an event holds -/

/-- A part of what is left after a map and a filter comes from a part of the list. -/
theorem exists_infix_of_infix_filter_map {α β : Type} {f : α → β} {p : β → Bool} {l : List α}
    {word : List β} (h : word <:+: (l.map f).filter p) :
    ∃ part, part <:+: l ∧ (part.map f).filter p = word := by
  obtain ⟨before, after, h⟩ := h
  obtain ⟨l₁, rest, hl, hfront, -⟩ := List.filter_eq_append_iff.mp h.symm
  obtain ⟨_, l₂, rfl, -, hpart⟩ := List.filter_eq_append_iff.mp hfront
  obtain ⟨k₁, k₂, rfl, hk, -⟩ := List.map_eq_append_iff.mp hl
  obtain ⟨m₁, m₂, rfl, -, rfl⟩ := List.map_eq_append_iff.mp hk
  exact ⟨m₂, ⟨m₁, k₂, rfl⟩, hpart⟩

/-- Some part of the text is a forbidden word, in whatever case and with underscores at
whatever places. -/
def Spells (text : List Char) : Prop :=
  ∃ part, part <:+: text ∧ ∃ word ∈ forbiddenKeys, lowered part = word.toList

theorem mayExpose_iff {key : String} : mayExpose key = true ↔ Spells key.toList := by
  unfold mayExpose
  rw [List.any_eq_true]
  constructor
  · rintro ⟨word, hword, h⟩
    obtain ⟨part, hpart, hlowered⟩ := exists_infix_of_infix_filter_map (of_decide_eq_true h)
    exact ⟨part, hpart, word, hword, hlowered⟩
  · rintro ⟨part, hpart, word, hword, hlowered⟩
    refine ⟨word, hword, decide_eq_true ?_⟩
    rw [← hlowered]
    exact (hpart.map Char.toLower).filter _

end KafkaTelemetry

/-- What an event may hold: bounded texts, in the order of the attribute names, and no name
that spells out what is private. -/
structure KafkaTelemetryEvent.Sanitised (event : KafkaTelemetryEvent) : Prop where
  name : boundedString event.name 256 = true
  sorted : event.attributes.keys.Pairwise (· < ·)
  key : ∀ k ∈ event.attributes.keys, boundedString k 128 = true
  value : ∀ k v, event.attributes.get? k = some v → boundedString v 512 = true
  hidden : ∀ k ∈ event.attributes.keys, ¬KafkaTelemetry.Spells k.toList

namespace KafkaTelemetry

variable {Raw : Type} {str : Raw → Except Raised String}

theorem safeAttribute_eq_ok_iff {item : String × Raw} {value : String} :
    safeAttribute str item = .ok value ↔ (boundedString item.1 128 = true ∧
      ¬Spells item.1.toList) ∧ str item.2 = .ok value ∧ boundedString value 512 = true := by
  unfold safeAttribute
  rw [← mayExpose_iff]
  by_cases hkey : boundedString item.1 128 = true ∧ ¬mayExpose item.1 = true
  · rw [if_pos (by simpa using hkey), and_iff_right hkey]
    constructor
    · intro h
      obtain ⟨made, hmade, h⟩ := exists_of_bind_eq_ok h
      split at h
      · next hbounded =>
        obtain rfl := Except.ok.inj h
        exact ⟨hmade, hbounded⟩
      · simp at h
    · rintro ⟨hmade, hbounded⟩
      rw [hmade]
      exact if_pos hbounded
  · rw [if_neg (by simpa using hkey)]
    exact iff_of_false (by simp) fun h => hkey h.1

/-- **A call is accepted** when its texts are bounded and its names expose nothing, and then
the event has an attribute for each of the call. -/
theorem event_eq_ok_iff {name utcText : String} {attributes : Dict String Raw}
    {e : KafkaTelemetryEvent} :
    event str name attributes utcText = .ok e ↔
      boundedString name 256 = true ∧ e.name = name ∧ e.occurredAt = utcText ∧
      ∃ selected : Dict String String, e.attributes = selected.sorted ∧
        selected.keys = attributes.keys ∧ ∀ k raw, attributes.get? k = some raw →
          ∃ value, selected.get? k = some value ∧ safeAttribute str (k, raw) = .ok value := by
  unfold event
  constructor
  · intro h
    obtain ⟨selected, hselected, h⟩ := exists_of_bind_eq_ok h
    split at h
    · next hname =>
      obtain rfl := Except.ok.inj h
      exact ⟨hname, rfl, rfl, selected, rfl, (Dict.fill_eq_ok_iff _).mp hselected⟩
    · simp at h
  · rintro ⟨hname, rfl, rfl, selected, hattributes, hkeys, hvalues⟩
    rw [(Dict.fill_eq_ok_iff _).mpr ⟨hkeys, hvalues⟩]
    simp [bind, Except.bind, hname, ← hattributes, pure, Except.pure]

/-- What is accepted is clean. -/
theorem sanitised_of_event {name utcText : String} {attributes : Dict String Raw}
    {e : KafkaTelemetryEvent} (h : event str name attributes utcText = .ok e) : e.Sanitised := by
  obtain ⟨hname, rfl, -, selected, hattributes, hkeys, hvalues⟩ := event_eq_ok_iff.mp h
  have hget : ∀ k, e.attributes.get? k = selected.get? k := by
    intro k
    rw [hattributes, Dict.get?_sorted]
  -- an attribute of the event has passed the checks
  have hchecked : ∀ k v, e.attributes.get? k = some v →
      (boundedString k 128 = true ∧ ¬Spells k.toList) ∧ boundedString v 512 = true := by
    intro k v hk
    rw [hget] at hk
    have hmem : k ∈ attributes.keys := by
      rw [← hkeys, ← Dict.get?_isSome_iff, hk]
      rfl
    obtain ⟨raw, hraw⟩ := Option.isSome_iff_exists.mp (Dict.get?_isSome_iff.mpr hmem)
    obtain ⟨value, hvalue, hsafe⟩ := hvalues k raw hraw
    obtain rfl := Option.some.inj (hk.symm.trans hvalue)
    obtain ⟨hkey, -, hbounded⟩ := safeAttribute_eq_ok_iff.mp hsafe
    exact ⟨hkey, hbounded⟩
  have hkey : ∀ k ∈ e.attributes.keys, boundedString k 128 = true ∧ ¬Spells k.toList := by
    intro k hk
    obtain ⟨v, hv⟩ := Option.isSome_iff_exists.mp (Dict.get?_isSome_iff.mpr hk)
    exact (hchecked k v hv).1
  exact ⟨hname, hattributes ▸ selected.pairwise_keys_sorted, fun k hk => (hkey k hk).1,
    fun k v hv => (hchecked k v hv).2, fun k hk => (hkey k hk).2⟩

/-! ### Threads -/

/-- Where a thread is in a call of `emit`. -/
inductive Stage
  | idle
  /-- The event is made, and the lock is next. -/
  | made (event : KafkaTelemetryEvent)
  /-- The event is kept, and the sink is next. -/
  | kept (event : KafkaTelemetryEvent)
  deriving DecidableEq

namespace Stage

def toKeep : Stage → Option KafkaTelemetryEvent
  | made event => some event
  | idle | kept _ => none

def toSend : Stage → Option KafkaTelemetryEvent
  | kept event => some event
  | idle | made _ => none

end Stage

/-- The events that are kept, and the threads. -/
structure Evidence where
  events : List KafkaTelemetryEvent := []
  stage : ℕ → Stage := fun _ => .idle

def Evidence.snapshot (s : Evidence) : List KafkaTelemetryEvent := s.events

def Evidence.names (s : Evidence) : List String := s.snapshot.map KafkaTelemetryEvent.name

/-- One turn of a thread. -/
inductive Turn (Raw : Type)
  /-- `emit` is called, and the checks raise or make the event. -/
  | call (thread : ℕ) (name : String) (attributes : Dict String Raw) (utcText : String)
  | append (thread : ℕ)
  /-- The sink is called, whatever it does with the event. -/
  | forward (thread : ℕ)

def Turn.Allowed (s : Evidence) : Turn Raw → Prop
  | call thread _ _ _ => s.stage thread = .idle
  | append thread => (s.stage thread).toKeep.isSome
  | forward thread => (s.stage thread).toSend.isSome

instance (s : Evidence) : DecidablePred (@Turn.Allowed Raw s)
  | .call _ _ _ _ | .append _ | .forward _ => by unfold Turn.Allowed; infer_instance

variable (telemetry : KafkaTelemetry) (str)

def next (s : Evidence) : Turn Raw → Evidence
  | .call thread name attributes utcText =>
    match event str name attributes utcText with
    | .error _ => s
    | .ok event => { s with stage := Function.update s.stage thread (.made event) }
  | .append thread =>
    match (s.stage thread).toKeep with
    | none => s
    | some event =>
      { events := append telemetry.maximumEvents s.events event
        stage := Function.update s.stage thread (.kept event) }
  | .forward thread => { s with stage := Function.update s.stage thread .idle }

def machine : Machine Evidence (Turn Raw) where
  allowed := Turn.Allowed
  next := telemetry.next str

instance (s : Evidence) (run : List (Turn Raw)) : Decidable ((telemetry.machine str).Legal s run) :=
  inferInstanceAs (Decidable (∀ x ∈ (telemetry.machine str).steps s run, x.2.Allowed x.1))

/-- The event that a step makes, with its thread. -/
def accepted (x : Evidence × Turn Raw) : Option (ℕ × KafkaTelemetryEvent) :=
  match x.2 with
  | .call thread name attributes utcText =>
    (event str name attributes utcText).toOption.map (thread, ·)
  | .append _ | .forward _ => none

/-- The event that a step keeps. -/
def appended (x : Evidence × Turn Raw) : Option (ℕ × KafkaTelemetryEvent) :=
  match x.2 with
  | .append thread => (x.1.stage thread).toKeep.map (thread, ·)
  | .call _ _ _ _ | .forward _ => none

/-- The event that a step gives to the sink. -/
def sent (x : Evidence × Turn Raw) : Option (ℕ × KafkaTelemetryEvent) :=
  match x.2 with
  | .forward thread => (x.1.stage thread).toSend.map (thread, ·)
  | .call _ _ _ _ | .append _ => none

/-- The events of a thread among the ones that the steps note. -/
def byThread {κ : Type} (note : κ → Option (ℕ × KafkaTelemetryEvent)) (tr : List κ)
    (thread : ℕ) : List KafkaTelemetryEvent :=
  ((tr.filterMap note).filter (·.1 = thread)).map Prod.snd

variable {telemetry str}

section ByThread

variable {κ : Type} {note : κ → Option (ℕ × KafkaTelemetryEvent)} {tr : List κ} {x : κ}

theorem filterMap_concat_of_none (h : note x = none) :
    (tr ++ [x]).filterMap note = tr.filterMap note := by
  rw [List.filterMap_append, List.filterMap_cons_none h, List.filterMap_nil, List.append_nil]

theorem byThread_concat_of_none (h : note x = none) (thread : ℕ) :
    byThread note (tr ++ [x]) thread = byThread note tr thread := by
  rw [byThread, filterMap_concat_of_none h, byThread]

theorem byThread_concat_self {thread : ℕ} {e : KafkaTelemetryEvent}
    (h : note x = some (thread, e)) :
    byThread note (tr ++ [x]) thread = byThread note tr thread ++ [e] := by
  rw [byThread, List.filterMap_append, List.filterMap_cons_some h, List.filterMap_nil,
    List.filter_append, List.map_append, List.filter_cons_of_pos (by simp)]
  rfl

theorem byThread_concat_of_ne {thread thread' : ℕ} {e : KafkaTelemetryEvent}
    (h : note x = some (thread, e)) (hne : thread' ≠ thread) :
    byThread note (tr ++ [x]) thread' = byThread note tr thread' := by
  rw [byThread, List.filterMap_append, List.filterMap_cons_some h, List.filterMap_nil,
    List.filter_append, List.map_append, List.filter_cons_of_neg (by simpa using hne.symm)]
  exact List.append_nil _

theorem mem_byThread_iff {thread : ℕ} {e : KafkaTelemetryEvent} :
    e ∈ byThread note tr thread ↔ ∃ x ∈ tr, note x = some (thread, e) := by
  simp [byThread]

end ByThread

/-- What is kept of a list is kept of it with one more. -/
theorem append_rtake {α : Type} {maximum : ℕ} (pos : 1 ≤ maximum) (l : List α) (event : α) :
    append maximum (l.rtake maximum) event = (l ++ [event]).rtake maximum := by
  unfold append
  rw [List.rtake, List.rtake, List.length_drop, List.length_append, List.length_singleton]
  split
  · next h =>
    have hall : l.length - maximum = 0 := by omega
    have hmore : l.length + 1 - maximum = 0 := by omega
    rw [hall, hmore, List.drop_zero, List.drop_zero]
  · next h =>
    have hmore : l.length + 1 - maximum = l.length - maximum + 1 := by omega
    rw [hmore, List.tail_drop, List.drop_append_of_le_length (by omega)]

/-! ### Runs -/

/-- What the steps have noted is where it should be: what was accepted and is not kept yet is in
the hands of its thread, and so is what is kept and was not sent yet. -/
structure Accounted (telemetry : KafkaTelemetry) (str : Raw → Except Raised String)
    (tr : List (Evidence × Turn Raw)) (s : Evidence) : Prop where
  events : s.events = ((tr.filterMap appended).map Prod.snd).rtake telemetry.maximumEvents
  accepted : ∀ thread, byThread (accepted str) tr thread =
    byThread appended tr thread ++ (s.stage thread).toKeep.toList
  appended : ∀ thread, byThread appended tr thread =
    byThread sent tr thread ++ (s.stage thread).toSend.toList
  sanitised : ∀ thread, ∀ e ∈ byThread (KafkaTelemetry.accepted str) tr thread, e.Sanitised

namespace Accounted

variable {tr : List (Evidence × Turn Raw)} {s : Evidence} {thread : ℕ}

theorem init : Accounted telemetry str [] {} where
  events := by simp
  accepted _ := rfl
  appended _ := rfl
  sanitised := by simp [byThread]

/-- A refused call leaves everything as it was. -/
theorem refuse (h : Accounted telemetry str tr s) {name utcText : String}
    {attributes : Dict String Raw} {raised : Raised}
    (hevent : event str name attributes utcText = .error raised) :
    Accounted telemetry str (tr ++ [(s, .call thread name attributes utcText)]) s := by
  have haccepted : KafkaTelemetry.accepted str
      (s, .call thread name attributes utcText) = none := by
    simp [KafkaTelemetry.accepted, hevent, Except.toOption]
  have happended : KafkaTelemetry.appended (s, Turn.call thread name attributes utcText) = none :=
    rfl
  have hsent : sent (s, Turn.call thread name attributes utcText) = none := rfl
  refine ⟨?_, fun i => ?_, fun i => ?_, fun i => ?_⟩
  · rw [filterMap_concat_of_none happended]
    exact h.events
  · rw [byThread_concat_of_none haccepted, byThread_concat_of_none happended]
    exact h.accepted i
  · rw [byThread_concat_of_none happended, byThread_concat_of_none hsent]
    exact h.appended i
  · rw [byThread_concat_of_none haccepted]
    exact h.sanitised i

/-- The event of an accepted call is in the hands of its thread. -/
theorem make (h : Accounted telemetry str tr s) {name utcText : String}
    {attributes : Dict String Raw} (idle : s.stage thread = .idle) {e : KafkaTelemetryEvent}
    (hevent : event str name attributes utcText = .ok e) :
    Accounted telemetry str (tr ++ [(s, .call thread name attributes utcText)])
      { s with stage := Function.update s.stage thread (.made e) } := by
  have haccepted : KafkaTelemetry.accepted str
      (s, .call thread name attributes utcText) = some (thread, e) := by
    simp [KafkaTelemetry.accepted, hevent, Except.toOption]
  have happended : KafkaTelemetry.appended (s, Turn.call thread name attributes utcText) = none :=
    rfl
  have hsent : sent (s, Turn.call thread name attributes utcText) = none := rfl
  refine ⟨?_, fun i => ?_, fun i => ?_, fun i => ?_⟩
  · rw [filterMap_concat_of_none happended]
    exact h.events
  · rw [byThread_concat_of_none happended]
    dsimp only
    by_cases hi : i = thread
    · subst hi
      rw [byThread_concat_self haccepted, h.accepted, idle, Function.update_self]
      simp [Stage.toKeep]
    · rw [byThread_concat_of_ne haccepted hi, Function.update_of_ne hi]
      exact h.accepted i
  · rw [byThread_concat_of_none happended, byThread_concat_of_none hsent, h.appended]
    dsimp only
    by_cases hi : i = thread
    · subst hi
      rw [idle, Function.update_self]
      rfl
    · rw [Function.update_of_ne hi]
  · intro e' he'
    by_cases hi : i = thread
    · -- the new event has passed the checks
      subst hi
      rw [byThread_concat_self haccepted, List.mem_append, List.mem_singleton] at he'
      rcases he' with he' | rfl
      · exact h.sanitised i e' he'
      · exact sanitised_of_event hevent
    · rw [byThread_concat_of_ne haccepted hi] at he'
      exact h.sanitised i e' he'

/-- An event goes from the hands of its thread into the ones that are kept. -/
theorem append (h : Accounted telemetry str tr s) {e : KafkaTelemetryEvent}
    (made : (s.stage thread).toKeep = some e) :
    Accounted telemetry str (tr ++ [(s, .append thread)])
      (telemetry.next str s (.append thread)) := by
  have haccepted : KafkaTelemetry.accepted str (s, .append thread) = none := rfl
  have happended : KafkaTelemetry.appended (s, (.append thread : Turn Raw)) = some (thread, e) := by
    simp [KafkaTelemetry.appended, made]
  have hsent : sent (s, (.append thread : Turn Raw)) = none := rfl
  have hstage : s.stage thread = .made e := by
    cases hs : s.stage thread <;> simp_all [Stage.toKeep]
  rw [next, made]
  refine ⟨?_, fun i => ?_, fun i => ?_, fun i => ?_⟩
  · rw [List.filterMap_append, List.filterMap_cons_some happended, List.filterMap_nil,
      List.map_append]
    change KafkaTelemetry.append _ s.events e = _
    rw [h.events, append_rtake telemetry.bounded.1]
    rfl
  · rw [byThread_concat_of_none haccepted, h.accepted]
    dsimp only
    by_cases hi : i = thread
    · subst hi
      rw [byThread_concat_self happended, made, Function.update_self]
      simp [Stage.toKeep]
    · rw [byThread_concat_of_ne happended hi, Function.update_of_ne hi]
  · rw [byThread_concat_of_none hsent]
    dsimp only
    by_cases hi : i = thread
    · subst hi
      rw [byThread_concat_self happended, h.appended, hstage, Function.update_self]
      simp [Stage.toSend]
    · rw [byThread_concat_of_ne happended hi, Function.update_of_ne hi]
      exact h.appended i
  · rw [byThread_concat_of_none haccepted]
    exact h.sanitised i

/-- A kept event goes from the hands of its thread to the sink. -/
theorem forward (h : Accounted telemetry str tr s) {e : KafkaTelemetryEvent}
    (kept : (s.stage thread).toSend = some e) :
    Accounted telemetry str (tr ++ [(s, .forward thread)])
      (telemetry.next str s (.forward thread)) := by
  have haccepted : KafkaTelemetry.accepted str (s, .forward thread) = none := rfl
  have happended : KafkaTelemetry.appended (s, (.forward thread : Turn Raw)) = none := rfl
  have hsent : sent (s, (.forward thread : Turn Raw)) = some (thread, e) := by
    simp [sent, kept]
  have hstage : s.stage thread = .kept e := by
    cases hs : s.stage thread <;> simp_all [Stage.toSend]
  rw [next]
  refine ⟨?_, fun i => ?_, fun i => ?_, fun i => ?_⟩
  · rw [filterMap_concat_of_none happended]
    exact h.events
  · rw [byThread_concat_of_none haccepted, byThread_concat_of_none happended, h.accepted]
    dsimp only
    by_cases hi : i = thread
    · subst hi
      rw [hstage, Function.update_self]
      rfl
    · rw [Function.update_of_ne hi]
  · rw [byThread_concat_of_none happended]
    dsimp only
    by_cases hi : i = thread
    · subst hi
      rw [byThread_concat_self hsent, h.appended, kept, Function.update_self]
      simp [Stage.toSend]
    · rw [byThread_concat_of_ne hsent hi, Function.update_of_ne hi]
      exact h.appended i
  · rw [byThread_concat_of_none haccepted]
    exact h.sanitised i

theorem of_run {run : List (Turn Raw)} (legal : (telemetry.machine str).Legal {} run) :
    Accounted telemetry str ((telemetry.machine str).steps {} run)
      ((telemetry.machine str).play {} run) := by
  refine Machine.trace_induction ?_ init legal
  intro tr s turn h allowed
  cases turn with
  | call thread name attributes utcText =>
    change Accounted telemetry str _
      (telemetry.next str s (.call thread name attributes utcText))
    rw [next]
    cases hevent : event str name attributes utcText with
    | error raised => exact h.refuse hevent
    | ok e => exact h.make allowed hevent
  | append thread =>
    obtain ⟨e, made⟩ := Option.isSome_iff_exists.mp allowed
    exact h.append made
  | forward thread =>
    obtain ⟨e, kept⟩ := Option.isSome_iff_exists.mp allowed
    exact h.forward kept

end Accounted

/-- The turns of a call. -/
def turns (str : Raw → Except Raised String) (thread : ℕ) (name : String)
    (attributes : Dict String Raw) (utcText : String) : List (Turn Raw) :=
  .call thread name attributes utcText ::
    match event str name attributes utcText with
    | .error _ => []
    | .ok _ => [.append thread, .forward thread]

/-- Without another thread in between, the turns are the call. -/
theorem play_turns (telemetry : KafkaTelemetry) (sink : KafkaTelemetryEvent → Option Raised)
    {s : Evidence} {thread : ℕ} (idle : s.stage thread = .idle) (name : String)
    (attributes : Dict String Raw) (utcText : String) :
    (telemetry.machine str).play s (turns str thread name attributes utcText) =
      { s with events := (telemetry.emit str sink s.events name attributes utcText).2 } := by
  unfold turns emit
  cases hevent : event str name attributes utcText with
  | error raised =>
    simp only [Machine.play_cons, Machine.play_nil, machine, next, hevent]
  | ok e =>
    simp only [Machine.play_cons, Machine.play_nil, machine, next, hevent, Function.update_self,
      Stage.toKeep, Function.update_idem]
    rw [← idle, Function.update_eq_self]

/-- **The evidence is what happened, and holds nothing private.** Whatever the threads do at the
same time, the events that are kept are the last ones appended, in their order; each accepted
event of a thread is appended once and sent once, in the order of its calls, the one at hand
apart; and no event that is kept or sent has a name that spells out what is private, or a text
that is not bounded. -/
theorem evidence_of_run (telemetry : KafkaTelemetry) (str : Raw → Except Raised String)
    {run : List (Turn Raw)} (legal : (telemetry.machine str).Legal {} run) :
    let s := (telemetry.machine str).play {} run
    let tr := (telemetry.machine str).steps {} run
    s.snapshot = ((tr.filterMap appended).map Prod.snd).rtake telemetry.maximumEvents ∧
      (∀ thread, byThread (accepted str) tr thread =
          byThread appended tr thread ++ (s.stage thread).toKeep.toList ∧
        byThread appended tr thread =
          byThread sent tr thread ++ (s.stage thread).toSend.toList) ∧
      ∀ e, (e ∈ s.snapshot ∨ ∃ thread, e ∈ byThread sent tr thread) → e.Sanitised := by
  have h := Accounted.of_run legal
  refine ⟨h.events, fun thread => ⟨h.accepted thread, h.appended thread⟩, ?_⟩
  -- what was appended was accepted
  have happended : ∀ thread, ∀ e ∈ byThread appended ((telemetry.machine str).steps {} run) thread,
      e.Sanitised := by
    intro thread e he
    refine h.sanitised thread e ?_
    rw [h.accepted]
    exact List.mem_append_left _ he
  rintro e (he | ⟨thread, he⟩)
  · have hkept : e ∈ ((((telemetry.machine str).steps {} run).filterMap appended).map Prod.snd) := by
      rw [Evidence.snapshot, h.events] at he
      exact List.mem_of_mem_drop he
    obtain ⟨⟨thread, e⟩, hmem, rfl⟩ := List.mem_map.mp hkept
    obtain ⟨x, hx, hnote⟩ := List.mem_filterMap.mp hmem
    exact happended thread e (mem_byThread_iff.mpr ⟨x, hx, hnote⟩)
  · refine happended thread e ?_
    rw [h.appended]
    exact List.mem_append_left _ he

end KafkaTelemetry

/-- The smallest telemetry. -/
def Sample.telemetry : KafkaTelemetry := ⟨1, by decide⟩

/-- Two threads, the second of which overtakes the first one; its next call names a topic. -/
def Sample.turns : List (KafkaTelemetry.Turn String) :=
  [.call 0 "meridian.kafka.poll.completed" (.ofList [("deliveryCount", "2")]) "t0",
    .call 1 "meridian.kafka.poll.completed" (.ofList [("deliveryCount", "0")]) "t1",
    .append 1, .append 0, .forward 1,
    .call 1 "meridian.kafka.poll.completed" (.ofList [("To_pic", "orders")]) "t2", .forward 0]

/-- The event of the first thread is appended last, and the other one is sent all the same. -/
theorem evidence_of_overtaking :
    let s := (Sample.telemetry.machine .ok).play {} Sample.turns
    let tr := (Sample.telemetry.machine .ok).steps {} Sample.turns
    s.snapshot.map KafkaTelemetryEvent.occurredAt = ["t0"] ∧
      KafkaTelemetry.byThread (KafkaTelemetry.accepted .ok) tr 1 =
        KafkaTelemetry.byThread KafkaTelemetry.sent tr 1 ∧
      ∀ e ∈ s.snapshot, e.Sanitised := by
  have legal : (Sample.telemetry.machine .ok).Legal {} Sample.turns := by decide +kernel
  obtain ⟨-, haccounted, hclean⟩ :=
    KafkaTelemetry.evidence_of_run Sample.telemetry .ok legal
  obtain ⟨haccepted, happended⟩ := haccounted 1
  refine ⟨by decide +kernel, ?_, fun e he => hclean e (Or.inl he)⟩
  exact (haccepted.trans (List.append_nil _)).trans (happended.trans (List.append_nil _))

end MeridianKafka
