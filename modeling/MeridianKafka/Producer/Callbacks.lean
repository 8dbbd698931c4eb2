import MeridianKafka.Producer.Refused

/-!
# Delivery callbacks

The client reports a delivery through the callback that was handed over with the message,
at any time of its own: while it takes another message, while it is polled, or while it is
flushed. A callback is a closure over the slot of its event, and the receipts are made of
the slots.

A `PublishSchedule` is one course of events on the side of the client: which calls of
`produce` find the queue full, and which callbacks run during which call. `run` is the
client under a schedule: it numbers the messages as it takes them, keeps the slot of each,
and fills the slots as the callbacks run. The environment of `publish` is then determined
(`PublishSchedule.env`).

What carries the result is `Paired`: as long as every event so far has been produced, the
number of a message is the place of its event, so a callback fills the slot of the event
whose record it reports.
-/

namespace MeridianKafka

open Framework

/-- A callback runs: the number of its message, and what it reports. -/
structure Callback where
  message : ℕ
  report : DeliveryReport

/-- The client calls for one event, each with the callbacks that run during it. -/
inductive ProduceSchedule
  /-- `produce` takes the record, and `poll(0)` follows. -/
  | taken (produce poll : List Callback)
  | raises (raised : Raised) (produce : List Callback)
  | fullAtDeadline (produce : List Callback)
  /-- The queue is full, and the engine polls before it tries again. -/
  | full (produce poll : List Callback) (rest : ProduceSchedule)

/-- The outcomes of these calls. -/
def ProduceSchedule.calls : ProduceSchedule → ProduceCalls
  | .taken _ _ => .taken none
  | .raises raised _ => .raises raised
  | .fullAtDeadline _ => .fullAtDeadline
  | .full _ _ rest => .full none rest.calls

/-- The side of the client in one call of `publish`. -/
structure PublishSchedule where
  produce : ℕ → ProduceSchedule
  flush : Except Raised ℕ := .ok 0
  flushCallbacks : List Callback := []
  utcNow : ℕ → String := fun _ => ""
  emit : Option Raised := none

/-- The client in the course of a call: the messages it has taken, each with the slot of its
callback, the slots, and the callbacks that have run, newest first. -/
structure Handover where
  submitted : List (ProducerRecord × ℕ) := []
  deliveries : List DeliveryReport
  ran : List (ℕ × DeliveryReport) := []

namespace Handover

/-- A callback runs, when the client has its message: `delivered` of `_produce_one`. -/
def runCallback (s : Handover) (callback : Callback) : Handover :=
  match s.submitted[callback.message]? with
  | none => s
  | some (_, slot) =>
    { s with
      deliveries := s.deliveries.set slot callback.report
      ran := (callback.message, callback.report) :: s.ran }

def runCallbacks (s : Handover) (callbacks : List Callback) : Handover :=
  callbacks.foldl runCallback s

/-- The client takes a message. -/
def submit (s : Handover) (record : ProducerRecord) (slot : ℕ) : Handover :=
  { s with submitted := s.submitted ++ [(record, slot)] }

/-- The loop of `_produce_one` on the side of the client. -/
def handOver (record : ProducerRecord) (slot : ℕ) : ProduceSchedule → Handover → Handover
  | .taken produce poll, s => ((s.submit record slot).runCallbacks produce).runCallbacks poll
  | .raises _ produce, s => s.runCallbacks produce
  | .fullAtDeadline produce, s => s.runCallbacks produce
  | .full produce poll rest, s =>
    handOver record slot rest ((s.runCallbacks produce).runCallbacks poll)

end Handover

namespace KafkaProducerEngine

/-- The loop over the events on the side of the client, up to the one that raises. -/
def handOverEvents (stream : PhysicalStream) (produce : ℕ → ProduceSchedule) :
    ℕ → List Event → Handover → Handover
  | _, [], s => s
  | i, event :: events, s =>
    if usesReservedHeader event then s
    else
      match (produceOne stream event (produce i).calls).1 with
      | .error _ => s.handOver (record stream event) i (produce i)
      | .ok () =>
        handOverEvents stream produce (i + 1) events
          (s.handOver (record stream event) i (produce i))

end KafkaProducerEngine

namespace PublishSchedule

open KafkaProducerEngine

variable (schedule : PublishSchedule) (command : PublishCommand)

/-- The client after the call: the slots are empty at first, and the flush comes when every
event has been produced. -/
def run : Handover :=
  let s := handOverEvents command.stream schedule.produce 0 command.events
    { deliveries := List.replicate command.events.length {} }
  match (produceEvents command.stream (fun i => (schedule.produce i).calls) 0 command.events).1 with
  | .error _ => s
  | .ok () => s.runCallbacks schedule.flushCallbacks

/-- The environment of the call. -/
def env : PublishEnv where
  produce i := (schedule.produce i).calls
  flush := schedule.flush
  report i := ((schedule.run command).deliveries[i]?).getD {}
  utcNow := schedule.utcNow
  emit := schedule.emit

end PublishSchedule

/-! ### Messages and slots -/

namespace Handover

/-- The messages are numbered like the slots of their callbacks, and each slot holds what the
last callback of its message has reported. -/
structure Paired (n : ℕ) (s : Handover) : Prop where
  slots : ∀ (j : ℕ) record slot, s.submitted[j]? = some (record, slot) → slot = j
  fits : s.submitted.length ≤ n
  length : s.deliveries.length = n
  filled : ∀ j < n, s.deliveries[j]? = some ((s.ran.lookup j).getD {})
  taken : ∀ x ∈ s.ran, x.1 < s.submitted.length

variable {n : ℕ} {s : Handover}

@[simp] theorem submitted_runCallback (s : Handover) (callback : Callback) :
    (s.runCallback callback).submitted = s.submitted := by
  unfold runCallback
  split
  · rfl
  · rfl

@[simp] theorem submitted_runCallbacks (s : Handover) (callbacks : List Callback) :
    (s.runCallbacks callbacks).submitted = s.submitted := by
  unfold runCallbacks
  induction callbacks generalizing s with
  | nil => rfl
  | cons callback callbacks ih => rw [List.foldl_cons, ih, submitted_runCallback]

theorem Paired.runCallback (h : s.Paired n) (callback : Callback) :
    (s.runCallback callback).Paired n := by
  unfold Handover.runCallback
  cases hmessage : s.submitted[callback.message]? with
  | none => exact h
  | some taken =>
    obtain ⟨record, slot⟩ := taken
    -- The callback of a message writes the slot of the same number.
    obtain rfl := h.slots _ _ _ hmessage
    obtain ⟨hlt, -⟩ := List.getElem?_eq_some_iff.mp hmessage
    refine ⟨h.slots, h.fits, ?_, fun j hj => ?_, fun x hx => ?_⟩
    · rw [List.length_set]
      exact h.length
    · dsimp only
      rw [List.getElem?_set, List.lookup_cons]
      -- The slot of this message has the new report, the others keep theirs.
      by_cases hsame : callback.message = j
      · rw [if_pos hsame, if_pos (by rw [h.length]; omega), hsame, beq_self_eq_true]
        rfl
      · rw [if_neg hsame, h.filled j hj, beq_eq_false_iff_ne.mpr (Ne.symm hsame)]
    · cases List.mem_cons.mp hx with
      | inl heq => rwa [heq]
      | inr hmem => exact h.taken x hmem

theorem Paired.runCallbacks (h : s.Paired n) (callbacks : List Callback) :
    (s.runCallbacks callbacks).Paired n := by
  unfold Handover.runCallbacks
  induction callbacks generalizing s with
  | nil => exact h
  | cons callback callbacks ih => exact ih (h.runCallback callback)

/-- The next message goes with the slot of the same number. -/
theorem Paired.submit (h : s.Paired n) (hlt : s.submitted.length < n) (record : ProducerRecord) :
    (s.submit record s.submitted.length).Paired n := by
  refine ⟨fun j record' slot hj => ?_, ?_, h.length, h.filled, fun x hx => ?_⟩
  · change (s.submitted ++ [(record, s.submitted.length)])[j]? = _ at hj
    by_cases hold : j < s.submitted.length
    · rw [List.getElem?_append_left hold] at hj
      exact h.slots j record' slot hj
    · rw [List.getElem?_append_right (not_lt.mp hold)] at hj
      obtain ⟨hindex, hentry⟩ := List.getElem?_eq_some_iff.mp hj
      rw [List.length_singleton] at hindex
      have hlast : j = s.submitted.length := by omega
      rw [hlast]
      simpa using (Prod.mk.inj (by simpa using hentry)).2.symm
  · change (s.submitted ++ [(record, s.submitted.length)]).length ≤ n
    rw [List.length_append, List.length_singleton]
    omega
  · change x.1 < (s.submitted ++ [(record, s.submitted.length)]).length
    rw [List.length_append, List.length_singleton]
    exact Nat.lt_succ_of_lt (h.taken x hx)

/-- An event that is produced adds its message, whatever happens on the way. -/
theorem Paired.handOver {record : ProducerRecord} {schedule : ProduceSchedule}
    (hok : (KafkaProducerEngine.produceLoop record schedule.calls).1 = .ok ())
    (h : s.Paired n) (hlt : s.submitted.length < n) :
    (s.handOver record s.submitted.length schedule).Paired n ∧
      (s.handOver record s.submitted.length schedule).submitted =
        s.submitted ++ [(record, s.submitted.length)] := by
  induction schedule generalizing s with
  | taken produce poll =>
    refine ⟨((h.submit hlt record).runCallbacks produce).runCallbacks poll, ?_⟩
    change (((s.submit _ _).runCallbacks produce).runCallbacks poll).submitted = _
    rw [submitted_runCallbacks, submitted_runCallbacks]
    rfl
  | raises raised produce => simp [ProduceSchedule.calls, KafkaProducerEngine.produceLoop] at hok
  | fullAtDeadline produce => simp [ProduceSchedule.calls, KafkaProducerEngine.produceLoop] at hok
  | full produce poll rest ih =>
    -- While the queue is full only callbacks run, so the message is still to be added.
    have hsubmitted : ((s.runCallbacks produce).runCallbacks poll).submitted = s.submitted := by
      rw [submitted_runCallbacks, submitted_runCallbacks]
    have hrest := ih hok ((h.runCallbacks produce).runCallbacks poll) (by rwa [hsubmitted])
    rw [hsubmitted] at hrest
    exact hrest

end Handover

namespace KafkaProducerEngine

/-- When every event is produced, the client has a message for each of them, in the order of
the batch. -/
theorem paired_handOverEvents {stream : PhysicalStream} {produce : ℕ → ProduceSchedule}
    {events : List Event} {n : ℕ} {s : Handover} (h : s.Paired n)
    (fits : s.submitted.length + events.length ≤ n)
    (hok : (produceEvents stream (fun i => (produce i).calls) s.submitted.length events).1 =
      .ok ()) :
    (handOverEvents stream produce s.submitted.length events s).Paired n ∧
      (handOverEvents stream produce s.submitted.length events s).submitted =
        s.submitted ++ (events.map (record stream)).zipIdx s.submitted.length := by
  induction events generalizing s with
  | nil => exact ⟨h, by simp [handOverEvents]⟩
  | cons event events ih =>
    rw [List.length_cons] at fits
    rw [produceEvents] at hok
    cases hone : produceOne stream event (produce s.submitted.length).calls with
    | mk answer records =>
      rw [hone] at hok
      cases answer with
      | error raised => simp at hok
      | ok u =>
        have hanswer : (produceOne stream event (produce s.submitted.length).calls).1 = .ok () := by
          rw [hone]
        -- The event was not refused, so it has gone through the loop of retries.
        have hplain := not_reserved_of_produceOne_ok hanswer
        have hloop : (produceLoop (record stream event) (produce s.submitted.length).calls).1 =
            .ok () := by
          unfold produceOne at hanswer
          rwa [if_neg (by simpa [usesReservedHeader] using hplain)] at hanswer
        obtain ⟨hpaired, hsubmitted⟩ := h.handOver hloop (by omega)
        have hlength : (s.handOver (record stream event) s.submitted.length
            (produce s.submitted.length)).submitted.length = s.submitted.length + 1 := by
          rw [hsubmitted, List.length_append, List.length_singleton]
        have hlater := ih hpaired (by omega) (by rw [hlength]; exact hok)
        rw [handOverEvents, hplain, if_neg Bool.false_ne_true, hanswer]
        dsimp only
        rw [hlength, hsubmitted] at hlater
        refine ⟨hlater.1, hlater.2.trans ?_⟩
        rw [List.append_assoc, List.map_cons, List.zipIdx_cons]
        rfl

/-- Receipts are made of reports without an error, with a message. -/
theorem receipts_ok {stream : PhysicalStream} {env : PublishEnv} {events : List Event} {i : ℕ}
    {rs : List PublishReceipt} (h : receipts stream env i events = .ok rs) :
    rs.length = events.length ∧ ∀ j event, events[j]? = some event →
      ∃ receipt : PublishReceipt, rs[j]? = some receipt ∧ receipt.eventId = event.eventId ∧
        (env.report (i + j)).error = none ∧
        (env.report (i + j)).message =
          some (receipt.position.partition, receipt.position.offset) := by
  induction events generalizing i rs with
  | nil =>
    obtain rfl := Except.ok.inj h
    exact ⟨rfl, fun j event hevent => by simp at hevent⟩
  | cons first events ih =>
    rw [receipts] at h
    obtain ⟨receipt, hreceipt, h⟩ := exists_of_bind_eq_ok h
    obtain ⟨later, hlater, h⟩ := exists_of_bind_eq_ok h
    obtain rfl := Except.ok.inj h
    obtain ⟨hlength, hpairs⟩ := ih hlater
    refine ⟨by rw [List.length_cons, List.length_cons, hlength], fun j event hevent => ?_⟩
    -- The event at the head is paired with slot `i`; the later ones by induction, one slot further
    -- on.
    cases j with
    | zero =>
      obtain rfl : first = event := by simpa using hevent
      refine ⟨receipt, rfl, ?_⟩
      rw [Nat.add_zero]
      unfold KafkaProducerEngine.receipt at hreceipt
      cases herror : (env.report i).error with
      | some error =>
        rw [herror] at hreceipt
        simp at hreceipt
      | none =>
        rw [herror] at hreceipt
        cases hmessage : (env.report i).message with
        | none =>
          rw [hmessage] at hreceipt
          simp at hreceipt
        | some place =>
          obtain ⟨partition, offset⟩ := place
          rw [hmessage] at hreceipt
          obtain rfl := Except.ok.inj hreceipt
          exact ⟨rfl, rfl, rfl⟩
    | succ j =>
      have hpair := hpairs j event hevent
      rwa [show i + 1 + j = i + (j + 1) by omega] at hpair

end KafkaProducerEngine

namespace PublishSchedule

open KafkaProducerEngine

variable {schedule : PublishSchedule} {command : PublishCommand}

/-- The client after a call that has produced every event. -/
theorem paired_run
    (hok : (produceEvents command.stream (schedule.env command).produce 0 command.events).1 =
      .ok ()) :
    (schedule.run command).Paired command.events.length ∧
      (schedule.run command).submitted = (command.events.map (record command.stream)).zipIdx := by
  -- The list of reports begins with an empty slot for each event.
  have hstart : (Handover.mk [] (List.replicate command.events.length {}) []).Paired
      command.events.length :=
    { slots := fun j record slot h => by simp at h
      fits := Nat.zero_le _
      length := List.length_replicate
      filled := fun j hj => by simp [hj]
      taken := fun x hx => absurd hx List.not_mem_nil }
  obtain ⟨hpaired, hsubmitted⟩ := paired_handOverEvents hstart (by simp) hok
  unfold run
  rw [show (produceEvents command.stream (fun i => (schedule.produce i).calls) 0
    command.events).1 = .ok () from hok]
  dsimp only
  refine ⟨hpaired.runCallbacks _, ?_⟩
  rw [Handover.submitted_runCallbacks]
  exact hsubmitted

end PublishSchedule

/-- **Each event is handed over once, in order, and has its own receipt.** A call that
returns has either replayed a publication, or produced each event once, in the order of the
batch; every callback has run and none has reported an error, nothing was left in the queue,
and the receipt of an event carries its id and what was reported for its own message. -/
theorem published_in_order {engine : KafkaProducerEngine} {cache : IdempotencyCache}
    {command : PublishCommand} {transactional : Bool} {schedule : PublishSchedule}
    {receipts : List PublishReceipt}
    (published : (engine.publish cache command transactional (schedule.env command)).answer =
      .ok receipts)
    (once : ((schedule.run command).ran.map Prod.fst).Nodup) :
    ((engine.publish cache command transactional (schedule.env command)).produced = [] ∧
      ∃ key fingerprint, command.idempotencyKey = some key ∧
        cache.get? key = some (fingerprint, receipts)) ∨
    (engine.publish cache command transactional (schedule.env command)).produced =
        command.events.map (KafkaProducerEngine.record command.stream) ∧
      (schedule.run command).submitted =
        (command.events.map (KafkaProducerEngine.record command.stream)).zipIdx ∧
      schedule.flush = .ok 0 ∧
      (∀ x ∈ (schedule.run command).ran, x.2.error = none) ∧
      receipts.length = command.events.length ∧
      ∀ i event, command.events[i]? = some event →
        ∃ receipt report, receipts[i]? = some receipt ∧ receipt.eventId = event.eventId ∧
          (i, report) ∈ (schedule.run command).ran ∧
          report.message = some (receipt.position.partition, receipt.position.offset) := by
  have hcases := @KafkaProducerEngine.publish_produced engine cache command transactional
    (schedule.env command)
  cases hcases with
  | inl replayed => exact Or.inl ⟨replayed.1, replayed.2 receipts published⟩
  | inr sent =>
    obtain ⟨hproduced, hsent⟩ := sent
    have hsend := hsent receipts published
    obtain ⟨hok, hflush, hreceipts⟩ := KafkaProducerEngine.send_eq_ok_iff.mp hsend
    obtain ⟨hlength, hpairs⟩ := KafkaProducerEngine.receipts_ok hreceipts
    obtain ⟨hpaired, hsubmitted⟩ := PublishSchedule.paired_run hok
    -- The receipts are made of what the slots hold in the end.
    have hreport : ∀ i < command.events.length, (schedule.env command).report i =
        ((schedule.run command).ran.lookup i).getD {} := by
      intro i hi
      change ((schedule.run command).deliveries[i]?).getD {} = _
      rw [hpaired.filled i hi]
      rfl
    refine Or.inr ⟨?_, hsubmitted, hflush, fun x hx => ?_, hlength, fun i event hevent => ?_⟩
    · rw [hproduced, KafkaProducerEngine.send_records]
      exact KafkaProducerEngine.produceEvents_ok hok
    · -- the callback of a message runs once, so its slot holds what it has reported
      have hlt := hpaired.taken x hx
      have hi : x.1 < command.events.length := hlt.trans_le hpaired.fits
      have hlookup : (schedule.run command).ran.lookup x.1 = some x.2 :=
        Dict.mem_entries_iff.mp (show x ∈ (Dict.mk (schedule.run command).ran once).entries from hx)
      obtain ⟨receipt, -, -, herror, -⟩ := hpairs x.1 _ (List.getElem?_eq_getElem hi)
      rw [Nat.zero_add, hreport x.1 hi, hlookup] at herror
      exact herror
    · obtain ⟨receipt, hreceipt, hid, -, hmessage⟩ := hpairs i event hevent
      obtain ⟨hi, -⟩ := List.getElem?_eq_some_iff.mp hevent
      rw [Nat.zero_add, hreport i hi] at hmessage
      -- A slot that no callback has filled has no message, and no receipt is made of it.
      cases hlookup : (schedule.run command).ran.lookup i with
      | none =>
        rw [hlookup] at hmessage
        simp at hmessage
      | some report =>
        rw [hlookup] at hmessage
        refine ⟨receipt, report, hreceipt, hid, ?_, hmessage⟩
        exact Dict.mem_entries_iff.mpr
          (show (Dict.mk (schedule.run command).ran once).get? i = some report from hlookup)

namespace Callbacks

/-- Two plain events. -/
def command : PublishCommand where
  stream := Sample.orders
  events := [Sample.event, { Sample.event with eventId := "second" }]
  idempotencyKey := none
  batch := true

/-- The queue is full for the second event until the first has been delivered, and the
callback of the second runs in the flush. -/
def schedule : PublishSchedule where
  produce i :=
    if i = 0 then .taken [] []
    else .full [] [⟨0, { message := some (3, 10) }⟩] (.taken [] [])
  flushCallbacks := [⟨1, { message := some (5, 20) }⟩]

end Callbacks

theorem second_event_waits_for_the_first :
    ∃ receipts,
      (Published.engine.publish .empty Callbacks.command false
        (Callbacks.schedule.env Callbacks.command)).answer = .ok receipts ∧
      (Published.engine.publish .empty Callbacks.command false
        (Callbacks.schedule.env Callbacks.command)).produced =
          Callbacks.command.events.map
            (KafkaProducerEngine.record Callbacks.command.stream) := by
  have published : (Published.engine.publish .empty Callbacks.command false
      (Callbacks.schedule.env Callbacks.command)).answer = .ok _ := rfl
  refine ⟨_, published, ?_⟩
  cases published_in_order published (by decide) with
  | inl replayed =>
    obtain ⟨-, key, fingerprint, hkey, -⟩ := replayed
    exact absurd hkey (by simp [Callbacks.command])
  | inr sent => exact sent.1

end MeridianKafka
