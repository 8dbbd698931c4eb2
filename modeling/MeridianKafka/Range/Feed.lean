import MeridianKafka.Consumer.Group
import MeridianKafka.Framework.Window
import MeridianKafka.Range.Reader

/-!
# What the range consumer returns

A `TopicLog` is a topic at one time: its visible records and the watermarks of its
partitions. `Feed` relates a log, the places that the consumer has fetched up to, and
the polls that it can answer with, in any interleaving of the partitions, while the log
changes. A record is the next visible one of its partition; the end of a partition is
reported at its high watermark when every visible record below it has been returned.

The loop of a read handles a prefix of the polls (`handled`). It carries each position
to the largest bound that a handled poll sets (`position_readLoop`), and the handled
records of a partition are exactly the visible ones between its positions before and
after the loop (`polled_of_feed`).
-/

namespace MeridianKafka

open Framework

/-- A topic at one time. -/
structure TopicLog where
  records : PartitionLog
  low : ℕ → ℕ
  high : ℕ → ℕ
  keyed : ∀ {p o m}, records p o = some m → m.partition = p ∧ m.offset = o
  bounded : ∀ {p o m}, records p o = some m → o < high p

namespace TopicLog

variable (log : TopicLog)

/-- The visible records of a partition in a range of offsets, in order. -/
def visible (p a b : ℕ) : List Message := window (log.records p) a b

/-- Records are appended: a log changes at its ends only. -/
structure Grows (log log' : TopicLog) : Prop where
  high : ∀ p, log.high p ≤ log'.high p
  records : ∀ p o, o < log.high p → log'.records p o = log.records p o

theorem Grows.refl : log.Grows log := ⟨fun _ => le_rfl, fun _ _ _ => rfl⟩

variable {log}

theorem Grows.trans {log' log'' : TopicLog} (h : log.Grows log') (h' : log'.Grows log'') :
    log.Grows log'' :=
  ⟨fun p => (h.high p).trans (h'.high p), fun p o ho =>
    (h'.records p o (ho.trans_le (h.high p))).trans (h.records p o ho)⟩

/-- Below the high watermark nothing changes. -/
theorem Grows.visible_eq {log' : TopicLog} (h : log.Grows log') {p a b : ℕ} (hb : b ≤ log.high p) :
    log'.visible p a b = log.visible p a b :=
  window_congr fun o _ ho => h.records p o (ho.trans_le hb)

theorem mem_visible_iff {p a b : ℕ} {m : Message} :
    m ∈ log.visible p a b ↔
      log.records p m.offset = some m ∧ a ≤ m.offset ∧ m.offset < b := by
  unfold visible
  rw [mem_window_iff]
  constructor
  · rintro ⟨o, ha, hb, ho⟩
    obtain rfl := (log.keyed ho).2
    exact ⟨ho, ha, hb⟩
  · rintro ⟨hrecord, ha, hb⟩
    exact ⟨m.offset, ha, hb, hrecord⟩

/-- The visible records of a range that lie below an offset. -/
theorem filter_visible (p a b e : ℕ) :
    ((log.visible p a b).filter fun m => m.offset < e) = log.visible p a (min b e) :=
  filter_window (fun _ _ h => (log.keyed h).2) e

end TopicLog

namespace RangePoll

/-- The record of a poll. -/
def record? : RangePoll → Option Message
  | record message => some message
  | _ => .none

/-- The bound below which a poll reports a partition to be read. -/
def bound (p : ℕ) : RangePoll → ℕ
  | endOfPartition q offset => if q = p then offset else 0
  | record message => if message.partition = p then message.offset + 1 else 0
  | _ => 0

end RangePoll

/-- The polls that the consumer may answer with: `fetch` is where it goes on in each of
the assigned partitions, and `changes` is what may happen to the log meanwhile. -/
inductive Feed (changes : TopicLog → TopicLog → Prop) (partitions : List ℕ) :
    TopicLog → (ℕ → ℕ) → List RangePoll → TopicLog → Prop
  | done {log : TopicLog} {fetch : ℕ → ℕ} : Feed changes partitions log fetch [] log
  | changed {log log' final : TopicLog} {fetch : ℕ → ℕ} {polls : List RangePoll}
      (change : changes log log') (rest : Feed changes partitions log' fetch polls final) :
      Feed changes partitions log fetch polls final
  | raised {log final : TopicLog} {fetch : ℕ → ℕ} {polls : List RangePoll} (raised : Raised)
      (rest : Feed changes partitions log fetch polls final) :
      Feed changes partitions log fetch (.raised raised :: polls) final
  | none {log final : TopicLog} {fetch : ℕ → ℕ} {polls : List RangePoll}
      (rest : Feed changes partitions log fetch polls final) :
      Feed changes partitions log fetch (.none :: polls) final
  | error {log final : TopicLog} {fetch : ℕ → ℕ} {polls : List RangePoll} (error : KafkaError)
      (rest : Feed changes partitions log fetch polls final) :
      Feed changes partitions log fetch (.error error :: polls) final
  | endOfPartition {log final : TopicLog} {fetch : ℕ → ℕ} {polls : List RangePoll} {p : ℕ}
      (assigned : p ∈ partitions) (drained : log.visible p (fetch p) (log.high p) = [])
      (rest : Feed changes partitions log fetch polls final) :
      Feed changes partitions log fetch (.endOfPartition p (log.high p) :: polls) final
  | record {log final : TopicLog} {fetch : ℕ → ℕ} {polls : List RangePoll} {m : Message}
      (assigned : m.partition ∈ partitions)
      (present : log.records m.partition m.offset = some m)
      (ahead : fetch m.partition ≤ m.offset)
      (next : log.visible m.partition (fetch m.partition) m.offset = [])
      (rest : Feed changes partitions log (Function.update fetch m.partition (m.offset + 1)) polls
        final) :
      Feed changes partitions log fetch (.record m :: polls) final

/-- The position of a partition. -/
def RangeState.position (s : RangeState) (p : ℕ) : ℕ := s.positions.getD p 0

/-- The state has a position for exactly these partitions. -/
def RangeState.Knows (s : RangeState) (partitions : List ℕ) : Prop :=
  ∀ p, (s.positions.get? p).isSome ↔ p ∈ partitions

namespace KafkaRangeReader

variable {Token : Type} (reader : KafkaRangeReader Token) (command : ReadRangeCommand Token)
  (bounds : RangeBounds)

/-- The polls that the loop handles. -/
def handled : RangeState → List RangePoll → List RangePoll
  | _, [] => []
  | s, poll :: polls =>
    if Continues command bounds s then
      poll :: match reader.handle command bounds s poll with
        | .error _ => []
        | .ok s => handled s polls
    else []

/-- The records that the loop handles. -/
def polled (s : RangeState) (polls : List RangePoll) : List Message :=
  (reader.handled command bounds s polls).filterMap RangePoll.record?

variable {reader command bounds} {s s' : RangeState}

/-! ### One poll -/

theorem advance_ok {q b : ℕ} (h : advance s q b = .ok s') :
    (∀ p, s'.position p = max (s.position p) (if q = p then b else 0)) ∧
      s'.events = s.events ∧ ∀ partitions, s.Knows partitions → s'.Knows partitions := by
  unfold advance at h
  split at h
  · simp at h
  next old hold =>
  obtain rfl := Except.ok.inj h
  refine ⟨fun p => ?_, rfl, fun partitions hknows p => ?_⟩
  · unfold RangeState.position Dict.getD
    dsimp only
    rw [Dict.get?_set]
    by_cases hp : p = q
    · subst hp
      rw [if_pos rfl, if_pos rfl, hold]
      rfl
    · rw [if_neg hp, if_neg (Ne.symm hp), Nat.max_zero]
  · rw [← hknows p]
    dsimp only
    rw [Dict.get?_set]
    by_cases hp : p = q
    · subst hp
      rw [if_pos rfl, hold]
      simp
    · rw [if_neg hp]

/-- **One handled poll** raises the positions to its bound, and takes its record when it
lies below the end of its partition. -/
theorem handle_ok {poll : RangePoll} (h : reader.handle command bounds s poll = .ok s') :
    (∀ p, s'.position p = max (s.position p) (poll.bound p)) ∧
      s'.events.map RangeEvent.record = s.events.map RangeEvent.record ++
        poll.record?.toList.filter (fun m => m.offset < bounds.ends.getD m.partition 0) ∧
      ∀ partitions, s.Knows partitions → s'.Knows partitions := by
  -- Each poll moves the position to its bound, and only a record adds an event.
  cases poll with
  | raised raised => simp [handle] at h
  | error error => simp [handle] at h
  | none =>
    obtain rfl := Except.ok.inj h
    exact ⟨fun p => (Nat.max_zero _).symm, by simp [RangePoll.record?], fun _ => id⟩
  | endOfPartition q offset =>
    obtain ⟨hposition, hevents, hknows⟩ := advance_ok h
    exact ⟨hposition, by simp [RangePoll.record?, hevents], hknows⟩
  | record m =>
    unfold handle at h
    dsimp only at h
    split at h
    · simp at h
    next advanced hadvance =>
    obtain ⟨hposition, hevents, hknows⟩ := advance_ok hadvance
    split at h
    · simp at h
    next stop hstop =>
    have hend : bounds.ends.getD m.partition 0 = stop := by
      unfold Dict.getD
      rw [hstop, Option.getD_some]
    split at h
    · next hpast =>
      obtain rfl := Except.ok.inj h
      refine ⟨hposition, ?_, hknows⟩
      simp [RangePoll.record?, hevents, hend, hpast]
    · next hbelow =>
      split at h
      · simp at h
      next event _ =>
      obtain rfl := Except.ok.inj h
      refine ⟨hposition, ?_, hknows⟩
      simp [RangePoll.record?, hevents, hend, not_le.mp hbelow]

/-! ### The loop -/

/-- A loop that returns either stops before its first poll or handles it. -/
theorem readLoop_cons {poll : RangePoll} {polls : List RangePoll}
    (h : reader.readLoop command bounds s (poll :: polls) = .ok s') :
    (s' = s ∧ reader.handled command bounds s (poll :: polls) = []) ∨
      ∃ t, reader.handle command bounds s poll = .ok t ∧
        reader.readLoop command bounds t polls = .ok s' ∧
        reader.handled command bounds s (poll :: polls) =
          poll :: reader.handled command bounds t polls := by
  unfold readLoop at h
  split at h
  · next hcontinues =>
    refine Or.inr ?_
    cases hhandle : reader.handle command bounds s poll with
    | error raised =>
      rw [hhandle] at h
      simp at h
    | ok t =>
      rw [hhandle] at h
      refine ⟨t, rfl, h, ?_⟩
      rw [handled, if_pos hcontinues, hhandle]
  · next hstops =>
    obtain rfl := Except.ok.inj h
    -- the loop has stopped before this poll
    refine Or.inl ⟨rfl, ?_⟩
    rw [handled, if_neg hstops]

/-- **The positions after the loop**: a partition stays below an offset exactly when no
handled poll goes beyond it. -/
theorem position_readLoop {polls : List RangePoll} {p e : ℕ}
    (h : reader.readLoop command bounds s polls = .ok s') :
    s'.position p ≤ e ↔
      s.position p ≤ e ∧ ∀ poll ∈ reader.handled command bounds s polls, poll.bound p ≤ e := by
  induction polls generalizing s with
  | nil =>
    obtain rfl := Except.ok.inj h
    simp [handled]
  | cons poll polls ih =>
    rcases readLoop_cons h with ⟨rfl, hhandled⟩ | ⟨t, hhandle, hloop, hhandled⟩
    · simp [hhandled]
    · rw [hhandled, ih hloop, (handle_ok hhandle).1 p, max_le_iff, List.forall_mem_cons, and_assoc]

theorem position_le_readLoop {polls : List RangePoll} (p : ℕ)
    (h : reader.readLoop command bounds s polls = .ok s') : s.position p ≤ s'.position p :=
  ((position_readLoop h).mp le_rfl).1

theorem knows_readLoop {polls : List RangePoll} {partitions : List ℕ}
    (h : reader.readLoop command bounds s polls = .ok s') (hknows : s.Knows partitions) :
    s'.Knows partitions := by
  induction polls generalizing s with
  | nil =>
    obtain rfl := Except.ok.inj h
    exact hknows
  | cons poll polls ih =>
    rcases readLoop_cons h with ⟨rfl, -⟩ | ⟨t, hhandle, hloop, -⟩
    · exact hknows
    · exact ih hloop ((handle_ok hhandle).2.2 partitions hknows)

/-- The loop takes the handled records that lie below the ends. -/
theorem events_readLoop {polls : List RangePoll}
    (h : reader.readLoop command bounds s polls = .ok s') :
    s'.events.map RangeEvent.record = s.events.map RangeEvent.record ++
      (reader.polled command bounds s polls).filter
        fun m => m.offset < bounds.ends.getD m.partition 0 := by
  unfold polled
  induction polls generalizing s with
  | nil =>
    obtain rfl := Except.ok.inj h
    simp [handled]
  | cons poll polls ih =>
    rcases readLoop_cons h with ⟨rfl, hhandled⟩ | ⟨t, hhandle, hloop, hhandled⟩
    · simp [hhandled]
    · rw [hhandled, ih hloop, (handle_ok hhandle).2.1, List.append_assoc, List.filterMap_cons]
      cases poll.record? with
      | none => simp
      | some m => rw [← List.filter_append]; rfl

/-! ### The feed -/

variable {changes : TopicLog → TopicLog → Prop} {log final : TopicLog} {fetch : ℕ → ℕ}
  {polls : List RangePoll}

theorem grows_of_feed {partitions : List ℕ}
    (hchanges : ∀ log log', changes log log' → log.Grows log')
    (feed : Feed changes partitions log fetch polls final) : log.Grows final := by
  induction feed with
  | done => exact .refl _
  | changed change _ ih => exact (hchanges _ _ change).trans ih
  | raised _ _ ih | none _ ih | error _ _ ih | endOfPartition _ _ _ ih | record _ _ _ _ _ ih =>
    exact ih

/-- The consumer has returned every visible record below the position of a partition. -/
structure Caught (log : TopicLog) (fetch : ℕ → ℕ) (s : RangeState) (p : ℕ) : Prop where
  fetched : fetch p ≤ s.position p
  known : s.position p ≤ log.high p
  nothing : log.visible p (fetch p) (s.position p) = []

/-- A loop that stops has handled nothing. -/
theorem Caught.stopped {p : ℕ} (h : Caught log fetch s p) (hgrows : log.Grows final) :
    s.position p ≤ final.high p ∧
      (([] : List RangePoll).filterMap RangePoll.record?).filter (fun m => m.partition = p) =
        final.visible p (s.position p) (s.position p) :=
  ⟨h.known.trans (hgrows.high p), window_self.symm⟩

/-- **The handled records of a partition** are the visible ones between its positions
before and after the loop, in order. -/
theorem polled_of_feed (hchanges : ∀ log log', changes log log' → log.Grows log')
    (feed : Feed changes bounds.partitions log fetch polls final)
    (hcaught : ∀ p ∈ bounds.partitions, Caught log fetch s p)
    (h : reader.readLoop command bounds s polls = .ok s') :
    ∀ p ∈ bounds.partitions, s'.position p ≤ final.high p ∧
      (reader.polled command bounds s polls).filter (fun m => m.partition = p) =
        final.visible p (s.position p) (s'.position p) := by
  unfold polled
  induction feed generalizing s with
  | @done log fetch =>
    obtain rfl := Except.ok.inj h
    exact fun p hp => (hcaught p hp).stopped (.refl log)
  | changed change rest ih =>
    have hgrows := hchanges _ _ change
    refine ih (fun p hp => ?_) h
    obtain ⟨hfetched, hknown, hnothing⟩ := hcaught p hp
    exact ⟨hfetched, hknown.trans (hgrows.high p), (hgrows.visible_eq hknown).trans hnothing⟩
  | raised raised rest ih =>
    intro p hp
    rcases readLoop_cons h with ⟨rfl, hhandled⟩ | ⟨t, hhandle, -, -⟩
    · rw [hhandled]
      exact (hcaught p hp).stopped (grows_of_feed hchanges rest)
    · simp [handle] at hhandle
  | none rest ih =>
    rcases readLoop_cons h with ⟨rfl, hhandled⟩ | ⟨t, hhandle, hloop, hhandled⟩
    · rw [hhandled]
      exact fun p hp => (hcaught p hp).stopped (grows_of_feed hchanges rest)
    · obtain rfl := Except.ok.inj hhandle
      rw [hhandled]
      exact ih hcaught hloop
  | error error rest ih =>
    intro p hp
    rcases readLoop_cons h with ⟨rfl, hhandled⟩ | ⟨t, hhandle, -, -⟩
    · rw [hhandled]
      exact (hcaught p hp).stopped (grows_of_feed hchanges rest)
    · simp [handle] at hhandle
  | @endOfPartition log final fetch polls q assigned drained rest ih =>
    have hgrows := grows_of_feed hchanges rest
    rcases readLoop_cons h with ⟨rfl, hhandled⟩ | ⟨t, hhandle, hloop, hhandled⟩
    · rw [hhandled]
      exact fun p hp => (hcaught p hp).stopped hgrows
    have hposition := (handle_ok hhandle).1
    have hcaught' : ∀ p ∈ bounds.partitions, Caught log fetch t p := by
      intro p hp
      obtain ⟨hfetched, hknown, hnothing⟩ := hcaught p hp
      by_cases hq : q = p
      · -- The partition has been read up to its high watermark.
        subst hq
        have hend : t.position q = log.high q := by
          rw [hposition, RangePoll.bound, if_pos rfl, max_eq_right hknown]
        rw [← hend] at drained
        exact ⟨hfetched.trans (hknown.trans hend.ge), hend.le, drained⟩
      · have hsame : t.position p = s.position p := by
          rw [hposition, RangePoll.bound, if_neg hq, Nat.max_zero]
        exact ⟨hsame ▸ hfetched, hsame ▸ hknown, hsame ▸ hnothing⟩
    rw [hhandled]
    intro p hp
    obtain ⟨hhigh, hpolled⟩ := ih hcaught' hloop p hp
    have hle : s.position p ≤ t.position p := by
      rw [hposition]
      exact le_max_left ..
    -- What was passed over is empty.
    have hskipped : final.visible p (s.position p) (t.position p) = [] := by
      rw [hgrows.visible_eq (hcaught' p hp).known]
      exact window_nil_of_nil (hcaught' p hp).nothing (hcaught p hp).fetched le_rfl
    have happend : final.visible p (s.position p) (t.position p) ++
        final.visible p (t.position p) (s'.position p) =
          final.visible p (s.position p) (s'.position p) :=
      window_append hle (position_le_readLoop p hloop)
    rw [hskipped, List.nil_append] at happend
    exact ⟨hhigh, hpolled.trans happend⟩
  | @record log final fetch polls m assigned present ahead next rest ih =>
    have hgrows := grows_of_feed hchanges rest
    rcases readLoop_cons h with ⟨rfl, hhandled⟩ | ⟨t, hhandle, hloop, hhandled⟩
    · rw [hhandled]
      exact fun p hp => (hcaught p hp).stopped hgrows
    have hposition := (handle_ok hhandle).1
    have hbefore : s.position m.partition ≤ m.offset := by
      by_contra hlt
      have hmem : m ∈ log.visible m.partition (fetch m.partition) (s.position m.partition) :=
        TopicLog.mem_visible_iff.mpr ⟨present, ahead, not_le.mp hlt⟩
      rw [(hcaught _ assigned).nothing] at hmem
      exact absurd hmem (by simp)
    have hself : t.position m.partition = m.offset + 1 := by
      rw [hposition, RangePoll.bound, if_pos rfl, max_eq_right (by omega)]
    have hother : ∀ p, m.partition ≠ p → t.position p = s.position p := by
      intro p hne
      rw [hposition, RangePoll.bound, if_neg hne, Nat.max_zero]
    have hcaught' : ∀ p ∈ bounds.partitions,
        Caught log (Function.update fetch m.partition (m.offset + 1)) t p := by
      intro p hp
      by_cases hq : m.partition = p
      · subst hq
        refine ⟨?_, ?_, ?_⟩
        · rw [Function.update_self, hself]
        · rw [hself]
          exact log.bounded present
        · rw [Function.update_self, hself]
          exact window_self
      · obtain ⟨hfetched, hknown, hnothing⟩ := hcaught p hp
        rw [← hother p hq] at hfetched hknown hnothing
        rw [← Function.update_of_ne (Ne.symm hq) (m.offset + 1) fetch] at hfetched hnothing
        exact ⟨hfetched, hknown, hnothing⟩
    rw [hhandled]
    intro p hp
    obtain ⟨hhigh, hpolled⟩ := ih hcaught' hloop p hp
    refine ⟨hhigh, ?_⟩
    rw [List.filterMap_cons]
    dsimp only [RangePoll.record?]
    by_cases hq : m.partition = p
    · subst hq
      have hone : final.visible m.partition (s.position m.partition) (m.offset + 1) = [m] := by
        rw [hgrows.visible_eq (log.bounded present)]
        exact window_succ present hbefore
          (window_nil_of_nil next (hcaught _ assigned).fetched le_rfl)
      have hle := position_le_readLoop m.partition hloop
      rw [hself] at hpolled hle
      rw [List.filter_cons_of_pos (by simp), hpolled, ← List.singleton_append, ← hone]
      exact window_append (by omega) hle
    · rw [List.filter_cons_of_neg (by simpa using hq), hpolled, hother p hq]

end KafkaRangeReader

namespace Sample

/-- A record of a partition. -/
def record (p o : ℕ) : Message := { message o with partition := p }

/-- A topic whose partitions have this many records. -/
def topicLog (sizes : ℕ → ℕ) : TopicLog where
  records p o := if o < sizes p then some (record p o) else none
  low _ := 0
  high := sizes
  keyed h := by
    split at h
    · obtain rfl := Option.some.inj h
      exact ⟨rfl, rfl⟩
    · simp at h
  bounded h := by
    split at h
    · assumption
    · simp at h

theorem topicLog_grows {sizes sizes' : ℕ → ℕ} (h : ∀ p, sizes p ≤ sizes' p) :
    (topicLog sizes).Grows (topicLog sizes') where
  high := h
  records p o ho := by
    have hbefore : o < sizes p := ho
    change (if o < sizes' p then some (record p o) else none) =
      if o < sizes p then some (record p o) else none
    rw [if_pos hbefore, if_pos (hbefore.trans_le (h p))]

def reader : KafkaRangeReader TokenPayload where
  cursor := payloadCodec 3600000
  parseEvent := engine.parseEvent

/-- A read of a topic with two partitions of this many records. -/
def rangeEnv (sizes : ℕ → ℕ) (polls : List RangePoll) : RangeEnv where
  decodedMs := 0
  encodedMs := 0
  listTopics := .ok [("orders.v1", { partitions := [0, 1] })]
  watermarks p := .ok (0, sizes p)
  polls

end Sample

end MeridianKafka
