import MeridianKafka.Range.Bounds
import MeridianKafka.Range.Feed

/-!
# Reading a range of a growing log

The cursor of a page should stand behind everything that the page has read and nothing
else: of every partition, the page holds exactly the visible records between the start
and the coordinate of its cursor, so that reading on from the cursor misses nothing.

A read without an end takes the high watermarks as its ends when it begins. A record
that is appended afterwards to a partition that is done, while another partition is
not, is polled, moves the position of its partition, and is dropped. The cursor then
stands behind a record that no page holds (`appended_record_is_skipped`).

`page_exact_iff` is exact: the page and its cursor agree exactly when no poll of the
loop returned a record at or past the high watermark that was taken at the start.
-/

namespace MeridianKafka

open Framework

/-- The consumer of a read: the watermarks are taken before it is assigned, and from the
positions of the range it is fed by the log, which changes meanwhile. -/
structure RangeEnv.ServedBy {Token : Type} (env : RangeEnv) (reader : KafkaRangeReader Token)
    (command : ReadRangeCommand Token) (changes : TopicLog → TopicLog → Prop)
    (log final : TopicLog) : Prop where
  watermarks : ∀ bounds, reader.resolve command env = .ok bounds → ∀ p ∈ bounds.partitions,
    ∀ low high, env.watermarks p = .ok (low, high) → high ≤ log.high p
  feed : ∀ bounds, reader.resolve command env = .ok bounds →
    Feed changes bounds.partitions log (fun p => bounds.positions.getD p 0) env.polls final

theorem assigned_of_feed {changes : TopicLog → TopicLog → Prop} {partitions : List ℕ}
    {log final : TopicLog} {fetch : ℕ → ℕ} {polls : List RangePoll}
    (feed : Feed changes partitions log fetch polls final) :
    ∀ m, .record m ∈ polls → m.partition ∈ partitions := by
  induction feed with
  | done => simp
  | changed _ _ ih => exact ih
  | raised _ _ ih | none _ ih | error _ _ ih | endOfPartition _ _ _ ih => simpa using ih
  | record assigned _ _ _ _ ih => simpa [assigned] using ih

namespace RangePage

variable {Token : Type}

/-- The records of one partition in a page. -/
def recordsOf (page : RangePage Token) (p : ℕ) : List Message :=
  (page.events.map RangeEvent.record).filter fun m => m.partition = p

end RangePage

namespace KafkaRangeReader

variable {Token : Type} {reader : KafkaRangeReader Token} {command : ReadRangeCommand Token}
  {bounds : RangeBounds} {env : RangeEnv}

theorem mem_polls_of_mem_handled {s : RangeState} {polls : List RangePoll} {poll : RangePoll}
    (h : poll ∈ reader.handled command bounds s polls) : poll ∈ polls := by
  induction polls generalizing s with
  | nil => simp [handled] at h
  | cons first polls ih =>
    unfold handled at h
    split at h
    · rw [List.mem_cons] at h
      rcases h with rfl | h
      · exact List.mem_cons_self
      · split at h
        · simp at h
        · exact List.mem_cons_of_mem _ (ih h)
    · simp at h

theorem mem_polled_iff {s : RangeState} {polls : List RangePoll} {m : Message} :
    m ∈ reader.polled command bounds s polls ↔
      .record m ∈ reader.handled command bounds s polls := by
  unfold polled
  rw [List.mem_filterMap]
  constructor
  · rintro ⟨poll, hpoll, hm⟩
    cases poll <;> simp [RangePoll.record?] at hm
    exact hm ▸ hpoll
  · exact fun h => ⟨_, h, rfl⟩

/-- The consumer begins where the range does. -/
theorem caught_of_resolve {changes : TopicLog → TopicLog → Prop} {log final : TopicLog}
    (hserved : env.ServedBy reader command changes log final)
    (hresolve : reader.resolve command env = .ok bounds) :
    ∀ p ∈ bounds.partitions,
      Caught log (fun p => bounds.positions.getD p 0) { positions := bounds.positions } p := by
  obtain ⟨lows, highs, positions, ends, h⟩ := resolve_iff.mp hresolve
  intro p hp
  refine ⟨le_rfl, ?_, window_self⟩
  have hposition : bounds.positions.getD p 0 = positions.getD p (lows.getD p 0) := by
    rw [h.positions, getD_complete hp]
  have hbounds := h.inBounds p hp
  calc bounds.positions.getD p 0 = positions.getD p (lows.getD p 0) := hposition
    _ ≤ ends.getD p (highs.getD p 0) := hbounds.ordered
    _ ≤ highs.getD p 0 := hbounds.reached
    _ ≤ log.high p :=
      hserved.watermarks bounds hresolve p hp _ _ ((readWatermarks_ok h.watermarks).1 p hp)

/-- The polled records of a partition, by the log. -/
theorem polled_of_served {changes : TopicLog → TopicLog → Prop} {log final : TopicLog}
    (hchanges : ∀ log log', changes log log' → log.Grows log')
    (hserved : env.ServedBy reader command changes log final)
    (hresolve : reader.resolve command env = .ok bounds) {s : RangeState}
    (hloop : reader.readLoop command bounds { positions := bounds.positions } env.polls = .ok s) :
    ∀ p ∈ bounds.partitions,
      (reader.polled command bounds { positions := bounds.positions } env.polls).filter
          (fun m => m.partition = p) =
        final.visible p (bounds.positions.getD p 0) (s.position p) :=
  fun p hp => (polled_of_feed hchanges (hserved.feed bounds hresolve)
    (caught_of_resolve hserved hresolve) hloop p hp).2

/-- **The records of a page**: of each partition, the visible ones between the start and
the coordinate of the cursor, as far as they lie below the end. -/
theorem recordsOf_page {changes : TopicLog → TopicLog → Prop} {log final : TopicLog}
    (hchanges : ∀ log log', changes log log' → log.Grows log')
    (hserved : env.ServedBy reader command changes log final)
    (hresolve : reader.resolve command env = .ok bounds) {page : RangePage Token}
    (hread : reader.read command env = .ok page) :
    ∀ p ∈ bounds.partitions,
      page.recordsOf p = final.visible p (bounds.positions.getD p 0)
        (min (page.positions.getD p 0) (bounds.ends.getD p 0)) := by
  intro p hp
  obtain ⟨bounds', s, hresolve', hloop, -, hevents, hpositions, -⟩ := read_ok hread
  obtain rfl := Except.ok.inj (hresolve'.symm.trans hresolve)
  have htaken := events_readLoop hloop
  rw [List.map_nil, List.nil_append] at htaken
  have hpolled := polled_of_served hchanges hserved hresolve hloop p hp
  -- The two filters of a page, by partition and by end, commute.
  have hcomm : page.recordsOf p =
      ((reader.polled command bounds' { positions := bounds'.positions } env.polls).filter
        (fun m => m.partition = p)).filter fun m => m.offset < bounds'.ends.getD p 0 := by
    unfold RangePage.recordsOf
    rw [hevents, htaken, List.filter_filter, List.filter_filter]
    refine List.filter_congr fun m _ => ?_
    by_cases hm : m.partition = p
    · rw [hm, Bool.and_comm]
    · simp [hm]
  rw [hcomm, hpolled, TopicLog.filter_visible, hpositions]
  rfl

/-- **When a page and its cursor agree.** For every read without an end that returns a
page while the log grows: the page holds of each partition exactly the visible records
between the start and the coordinate of the cursor, each once and in order, exactly when
no record that the loop polled lay at or past the high watermark taken at the start. -/
theorem page_exact_iff (reader : KafkaRangeReader Token) (command : ReadRangeCommand Token)
    (env : RangeEnv) (hend : command.stop = none) (log final : TopicLog)
    (hserved : env.ServedBy reader command TopicLog.Grows log final) (page : RangePage Token)
    (hread : reader.read command env = .ok page) :
    ∃ bounds, reader.resolve command env = .ok bounds ∧
      reader.cursor.encodeCursor env.encodedMs command.stream.ref command.stream.topic
        page.positions = .ok page.nextCursor ∧
      ((∀ p ∈ bounds.partitions, page.recordsOf p =
          final.visible p (bounds.positions.getD p 0) (page.positions.getD p 0)) ↔
        ∀ m ∈ reader.polled command bounds { positions := bounds.positions } env.polls,
          ∀ low high, env.watermarks m.partition = .ok (low, high) → m.offset < high) := by
  obtain ⟨bounds, s, hresolve, hloop, hencode, hevents, hpositions, -⟩ := read_ok hread
  refine ⟨bounds, hresolve, by rw [hpositions]; exact hencode, ?_⟩
  have hrecords := recordsOf_page (fun _ _ => id) hserved hresolve hread
  have hpolled := polled_of_served (fun _ _ => id) hserved hresolve hloop
  -- The ends of the range are the watermarks.
  have hwatermarks : ∀ p ∈ bounds.partitions,
      ∃ low, env.watermarks p = .ok (low, bounds.ends.getD p 0) := by
    obtain ⟨lows, highs, positions, ends, h⟩ := resolve_iff.mp hresolve
    intro p hp
    have hstop := h.stop
    rw [hend] at hstop
    obtain rfl := Except.ok.inj hstop
    have hself : bounds.ends.getD p 0 = highs.getD p 0 := by
      rw [h.ends, getD_complete hp]
      unfold Dict.getD
      cases highs.get? p <;> rfl
    exact ⟨lows.getD p 0, hself ▸ (readWatermarks_ok h.watermarks).1 p hp⟩
  constructor
  · intro hexact m hm low high hwatermark
    have hp : m.partition ∈ bounds.partitions :=
      assigned_of_feed (hserved.feed bounds hresolve) m
        (mem_polls_of_mem_handled (mem_polled_iff.mp hm))
    have hmem : m ∈ page.recordsOf m.partition := by
      rw [hexact _ hp, hpositions]
      change m ∈ final.visible _ _ (s.position _)
      rw [← hpolled _ hp]
      simpa using hm
    rw [hrecords _ hp] at hmem
    obtain ⟨low', hwatermark'⟩ := hwatermarks _ hp
    have hhigh : high = bounds.ends.getD m.partition 0 := by
      rw [hwatermark'] at hwatermark
      exact (Prod.mk.inj (Except.ok.inj hwatermark)).2.symm
    have hbelow := (TopicLog.mem_visible_iff.mp hmem).2.2
    omega
  · intro hbelow p hp
    rw [hrecords p hp, ← TopicLog.filter_visible, List.filter_eq_self]
    intro m hm
    rw [hpositions] at hm
    change m ∈ final.visible _ _ (s.position _) at hm
    rw [← hpolled p hp, List.mem_filter, decide_eq_true_eq] at hm
    obtain ⟨hm, rfl⟩ := hm
    obtain ⟨low, hwatermark⟩ := hwatermarks _ hp
    simpa using hbelow m hm low _ hwatermark

end KafkaRangeReader

namespace Sample

/-- Everything from the low watermarks on. -/
def readAll : ReadRangeCommand TokenPayload where
  stream := orders
  start := none
  stop := none
  cursor := none
  limit := 10

/-- The record that is appended to partition 0 is polled while partition 1 is still
being read. -/
def growingEnv : RangeEnv :=
  rangeEnv (fun _ => 1) [.record (record 0 0), .record (record 0 1), .record (record 1 0)]

/-- The log after the record was appended. -/
def grown : TopicLog := topicLog fun p => if p = 0 then 2 else 1

theorem resolve_readAll (polls : List RangePoll) :
    reader.resolve readAll (rangeEnv (fun _ => 1) polls) =
      .ok ⟨[0, 1], (Dict.empty.set 0 0).set 1 0, (Dict.empty.set 0 1).set 1 1⟩ := by
  have hnone : reader.resolve readAll (rangeEnv (fun _ => 1) []) =
      .ok ⟨[0, 1], (Dict.empty.set 0 0).set 1 0, (Dict.empty.set 0 1).set 1 1⟩ := by decide +kernel
  exact hnone

theorem topicLog_grows_grown : (topicLog fun _ => 1).Grows grown :=
  topicLog_grows fun p => by split <;> decide

theorem growingEnv_served :
    growingEnv.ServedBy reader readAll TopicLog.Grows (topicLog fun _ => 1) grown where
  watermarks bounds _ p _ low high h := by
    obtain ⟨-, rfl⟩ := Prod.mk.inj (Except.ok.inj h)
    exact le_rfl
  feed bounds h := by
    obtain rfl := Except.ok.inj ((resolve_readAll _).symm.trans h)
    refine .record (by decide) (by decide +kernel) (by decide) (by decide) ?_
    refine .changed topicLog_grows_grown ?_
    refine .record (by decide) (by decide +kernel) (by decide) (by decide) ?_
    exact .record (by decide) (by decide +kernel) (by decide) (by decide) .done

/-- No record is appended. -/
def stillEnv : RangeEnv := rangeEnv (fun _ => 1) [.record (record 0 0), .record (record 1 0)]

theorem stillEnv_served :
    stillEnv.ServedBy reader readAll TopicLog.Grows (topicLog fun _ => 1) (topicLog fun _ => 1) where
  watermarks bounds _ p _ low high h := by
    obtain ⟨-, rfl⟩ := Prod.mk.inj (Except.ok.inj h)
    exact le_rfl
  feed bounds h := by
    obtain rfl := Except.ok.inj ((resolve_readAll _).symm.trans h)
    refine .record (by decide) (by decide +kernel) (by decide) (by decide) ?_
    exact .record (by decide) (by decide +kernel) (by decide) (by decide) .done

end Sample

namespace KafkaRangeReader

theorem page_exact_iff_still :
    ∃ page bounds, Sample.reader.read Sample.readAll Sample.stillEnv = .ok page ∧
      Sample.reader.resolve Sample.readAll Sample.stillEnv = .ok bounds ∧
      ((∀ p ∈ bounds.partitions, page.recordsOf p =
          (Sample.topicLog fun _ => 1).visible p (bounds.positions.getD p 0)
            (page.positions.getD p 0)) ↔
        ∀ m ∈ Sample.reader.polled Sample.readAll bounds { positions := bounds.positions }
          Sample.stillEnv.polls, ∀ low high,
            Sample.stillEnv.watermarks m.partition = .ok (low, high) → m.offset < high) := by
  obtain ⟨page, hread⟩ : ∃ page, Sample.reader.read Sample.readAll Sample.stillEnv = .ok page :=
    exists_ok_of_toBool (by decide +kernel)
  obtain ⟨bounds, hresolve, -, hiff⟩ := page_exact_iff Sample.reader Sample.readAll Sample.stillEnv
    rfl _ _ Sample.stillEnv_served page hread
  exact ⟨page, bounds, hread, hresolve, hiff⟩

/-- **A record is skipped.** Two partitions hold one record each when the read begins.
Record 1 of partition 0 is appended and polled before partition 1 is read: the page
holds the two old records, and its cursor stands behind the new one. -/
theorem appended_record_is_skipped :
    Sample.growingEnv.ServedBy Sample.reader Sample.readAll TopicLog.Grows
        (Sample.topicLog fun _ => 1) Sample.grown ∧
      ∃ page, Sample.reader.read Sample.readAll Sample.growingEnv = .ok page ∧
        page.positions.getD 0 0 = 2 ∧ page.recordsOf 0 = [Sample.record 0 0] ∧
        Sample.grown.visible 0 0 2 = [Sample.record 0 0, Sample.record 0 1] := by
  refine ⟨Sample.growingEnv_served, ?_⟩
  obtain ⟨page, hread⟩ : ∃ page, Sample.reader.read Sample.readAll Sample.growingEnv = .ok page :=
    exists_ok_of_toBool (by decide +kernel)
  have hpage : ((Sample.reader.read Sample.readAll Sample.growingEnv).toOption.all fun page =>
      page.positions.getD 0 0 = 2 && page.recordsOf 0 = [Sample.record 0 0]) = true := by
    decide +kernel
  rw [hread] at hpage
  simp only [Except.toOption, Option.all_some, Bool.and_eq_true, decide_eq_true_eq] at hpage
  exact ⟨page, hread, hpage.1, hpage.2, by decide +kernel⟩

end KafkaRangeReader

end MeridianKafka
