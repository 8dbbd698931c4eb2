import MeridianKafka.Range.Growth
import Mathlib.Algebra.Order.BigOperators.Group.List
import Mathlib.Algebra.Order.Ring.Nat

/-!
# Reading a range page by page

A range with an end is read page by page: the cursor of a page that was cut short is the
start of the next one (`readPages`). On a log that stands still the pages together
should hold exactly the range, and no page should fail.

A page cut short by its limit may have polled a partition beyond its end: a record at or
past the end is dropped, but moves the position, and so does the report that the
partition has no more records. The cursor then lies past the end of the range, and the
next page fails, since its end precedes its start (`overshooting_page_ends_the_chain`).

`paging_iff` is exact. The chain succeeds exactly when no page that is cut short polls a
partition past its end, and the coordinates of every page fit into a cursor
(`Smooth`). Each page holds what lies between its start and its cursor
(`recordsOf_page`), windows that meet are joined, and a page that is cut short brings
the sum of what is left closer to zero (`left_decreases`).
-/

namespace MeridianKafka

open Framework

/-- A cursor gives its positions back until it expires. -/
def KafkaCursorCodec.SealsCursors {Token : Type} (cursor : KafkaCursorCodec Token) (lifeMs : ℕ) :
    Prop :=
  ∀ (issuedMs nowMs : ℕ) (resource : ResourceRef) (topic : String) (positions : Dict ℕ ℕ)
    (value : Token), cursor.encodeCursor issuedMs resource topic positions = .ok value →
    nowMs < issuedMs + lifeMs →
    ∃ positions', cursor.decodeCursor nowMs value resource topic = .ok positions' ∧
      ∀ p, positions'.get? p = positions.get? p

theorem payloadCodec_sealsCursors (ttlMs : ℕ) : (payloadCodec ttlMs).SealsCursors ttlMs :=
  fun _ _ _ _ _ _ => decodeCursor_of_encodeCursor

namespace KafkaRangeReader

variable {Token : Type} (reader : KafkaRangeReader Token)

/-- The read of a page whose predecessor ended with this cursor. -/
def after (command : ReadRangeCommand Token) (cursor : Token) : ReadRangeCommand Token :=
  { command with cursor := some cursor }

/-- Reads that go on from the cursor of the page before, until a page is not cut
short. -/
def readPages : ReadRangeCommand Token → List RangeEnv → Except Raised (List (RangePage Token))
  | _, [] => .ok []
  | command, env :: envs =>
    match reader.read command env with
    | .error raised => .error raised
    | .ok page =>
      if page.truncated then
        match readPages (after command page.nextCursor) envs with
        | .error raised => .error raised
        | .ok pages => .ok (page :: pages)
      else .ok [page]

/-- A text names this place in each of the partitions; a partition that it leaves out,
or that has no text, is at its watermark. -/
def Names (nowMs : ℕ) (stream : PhysicalStream) (partitions : List ℕ) (watermark place : ℕ → ℕ) :
    Option Token → Prop
  | none => ∀ p ∈ partitions, place p = watermark p
  | some value => ∃ positions, decodePositions reader.cursor nowMs value stream = .ok positions ∧
      (∀ p, (positions.get? p).isSome → p ∈ partitions) ∧
      ∀ p ∈ partitions, place p = positions.getD p (watermark p)

/-- A range within the watermarks. -/
structure Retained (log : TopicLog) (partitions : List ℕ) (start ends : ℕ → ℕ) : Prop where
  retained : ∀ p ∈ partitions, log.low p ≤ start p
  ordered : ∀ p ∈ partitions, start p ≤ ends p
  reached : ∀ p ∈ partitions, ends p ≤ log.high p

/-- A page is read from a log that stands still: no client call raises, and the deadline
is not reached. -/
structure Pageable (log : TopicLog) (partitions : List ℕ) (command : ReadRangeCommand Token)
    (env : RangeEnv) : Prop where
  topics : ∃ topics, env.listTopics = .ok topics ∧
    partitionIds topics command.stream.topic = .ok partitions
  watermarks : ∀ p ∈ partitions, env.watermarks p = .ok (log.low p, log.high p)
  returns : env.consumer = none ∧ env.assign = none ∧ env.emit = none ∧ env.close = none
  quiet : ∀ poll ∈ env.polls, (∀ raised, poll ≠ .raised raised) ∧ ∀ error, poll ≠ .error error
  feed : ∀ bounds, reader.resolve command env = .ok bounds →
    Feed (fun _ _ => False) partitions log (fun p => bounds.positions.getD p 0) env.polls log
  deadline : ∀ bounds s, reader.resolve command env = .ok bounds →
    reader.readLoop command bounds { positions := bounds.positions } env.polls = .ok s →
    ¬Continues command bounds s

/-- The environments of a chain of pages: each page finds the log, the end, and a cursor
that has not expired. -/
def Served (lifeMs : ℕ) (log : TopicLog) (partitions : List ℕ) (ends : ℕ → ℕ) :
    ReadRangeCommand Token → List RangeEnv → Prop
  | _, [] => True
  | command, env :: envs =>
    reader.Pageable log partitions command env ∧
      reader.Names env.decodedMs command.stream partitions log.high ends command.stop ∧
      (∀ next ∈ envs.head?, next.decodedMs < env.encodedMs + lifeMs) ∧
      ∀ page, reader.read command env = .ok page → page.truncated = true →
        Served lifeMs log partitions ends (after command page.nextCursor) envs

/-- No page that is cut short polls a partition past its end, and the coordinates of
every page fit into a cursor. -/
def Smooth : ReadRangeCommand Token → List RangeEnv → Prop
  | _, [] => True
  | command, env :: envs =>
    ∀ bounds s, reader.resolve command env = .ok bounds →
      reader.readLoop command bounds { positions := bounds.positions } env.polls = .ok s →
      ∃ cursor, reader.cursor.encodeCursor env.encodedMs command.stream.ref command.stream.topic
          s.positions = .ok cursor ∧
        (bounds.Unfinished s.positions →
          (∀ poll ∈ reader.handled command bounds { positions := bounds.positions } env.polls,
            ∀ p ∈ bounds.partitions, poll.bound p ≤ bounds.ends.getD p 0) ∧
          Smooth (after command cursor) envs)

end KafkaRangeReader

/-- The pages hold exactly the range: all but the last are cut short, which says that a
cursor still lies below the end of its partition. -/
structure HoldRange {Token : Type} (log : TopicLog) (partitions : List ℕ) (start ends : ℕ → ℕ)
    (pages : List (RangePage Token)) : Prop where
  cut : ∀ page ∈ pages.dropLast, page.truncated = true
  last : ∃ page ∈ pages.getLast?, page.truncated = false
  truncated_iff : ∀ page ∈ pages,
    page.truncated = true ↔ ∃ p ∈ partitions, page.positions.getD p 0 < ends p
  records : ∀ p ∈ partitions,
    pages.flatMap (·.recordsOf p) = log.visible p (start p) (ends p)

namespace KafkaRangeReader

variable {Token : Type} {reader : KafkaRangeReader Token} {log : TopicLog} {partitions : List ℕ}
  {start ends : ℕ → ℕ} {command : ReadRangeCommand Token} {env : RangeEnv} {bounds : RangeBounds}

/-! ### One page -/

theorem Resolved.knows {lows highs positions stops : Dict ℕ ℕ}
    (h : Resolved reader command env bounds lows highs positions stops) :
    RangeState.Knows { positions := bounds.positions } bounds.partitions ∧
      ∀ p ∈ bounds.partitions, (bounds.ends.get? p).isSome := by
  have hcomplete : ∀ (defaults d : Dict ℕ ℕ) (p : ℕ), p ∈ bounds.partitions →
      ((complete defaults bounds.partitions d).get? p).isSome := by
    intro defaults d p hp
    rw [get?_complete, if_pos hp]
    rfl
  refine ⟨fun p => ⟨fun hsome => ?_, fun hp => h.positions ▸ hcomplete lows positions p hp⟩,
    fun p hp => h.ends ▸ hcomplete highs stops p hp⟩
  have hknown := (Bool.or_eq_false_iff.mp h.known).1
  have hkey := List.any_eq_false.mp hknown p (Dict.get?_isSome_iff.mp hsome)
  simpa using hkey

/-- The watermarks of a page. -/
theorem readWatermarks_of_pageable (h : reader.Pageable log partitions command env)
    (lows highs : Dict ℕ ℕ) :
    ∃ lows' highs', readWatermarks env partitions lows highs = .ok (lows', highs') := by
  have hwatermarks := h.watermarks
  clear h
  induction partitions generalizing lows highs with
  | nil => exact ⟨lows, highs, rfl⟩
  | cons q rest ih =>
    unfold readWatermarks
    rw [hwatermarks q List.mem_cons_self]
    exact ih _ _ fun p hp => hwatermarks p (List.mem_cons_of_mem q hp)

/-- The places that a text names are those that the bounds are completed to. -/
theorem exists_decodeBound {nowMs : ℕ} {stream : PhysicalStream} {watermark place : ℕ → ℕ}
    {value : Option Token} (h : reader.Names nowMs stream partitions watermark place value)
    {defaults : Dict ℕ ℕ} (hdefaults : ∀ p, (defaults.get? p).isSome → p ∈ partitions)
    (hwatermark : ∀ p ∈ partitions, defaults.getD p 0 = watermark p) :
    ∃ positions, reader.decodeBound nowMs stream defaults value = .ok positions ∧
      (∀ p, (positions.get? p).isSome → p ∈ partitions) ∧
      ∀ p ∈ partitions, positions.getD p (defaults.getD p 0) = place p := by
  cases value with
  | none =>
    refine ⟨defaults, rfl, hdefaults, fun p hp => ?_⟩
    rw [h p hp, ← hwatermark p hp]
    unfold Dict.getD
    cases defaults.get? p <;> rfl
  | some value =>
    obtain ⟨positions, hdecode, hkeys, hplace⟩ := h
    exact ⟨positions, hdecode, hkeys, fun p hp => by rw [hplace p hp, hwatermark p hp]⟩

/-- What the bounds of a page are, and when it has any. -/
theorem resolve_of_names (hpage : reader.Pageable log partitions command env)
    (hbounded : partitions.length ≤ maxCursorPartitions)
    (hstart : reader.Names env.decodedMs command.stream partitions log.low start command.source)
    (hends : reader.Names env.decodedMs command.stream partitions log.high ends command.stop) :
    (∀ bounds, reader.resolve command env = .ok bounds → bounds.partitions = partitions ∧
      (∀ p ∈ partitions, bounds.positions.getD p 0 = start p ∧ bounds.ends.getD p 0 = ends p) ∧
      Retained log partitions start ends) ∧
    (Retained log partitions start ends → ∃ bounds, reader.resolve command env = .ok bounds) := by
  obtain ⟨topics, htopics, hpartitions⟩ := hpage.topics
  obtain ⟨lows, highs, hread⟩ := readWatermarks_of_pageable hpage .empty .empty
  obtain ⟨hin, hout⟩ := readWatermarks_ok hread
  have hwatermark : ∀ p ∈ partitions, lows.getD p 0 = log.low p ∧ highs.getD p 0 = log.high p := by
    intro p hp
    have hsame := (hin p hp).symm.trans (hpage.watermarks p hp)
    exact Prod.mk.inj (Except.ok.inj hsame)
  have hkeys : ∀ p, (lows.get? p).isSome ∨ (highs.get? p).isSome → p ∈ partitions := by
    intro p hsome
    by_contra hp
    rw [(hout p hp).1, (hout p hp).2] at hsome
    simp at hsome
  obtain ⟨positions, hsource, hpositionKeys, hposition⟩ := exists_decodeBound hstart
    (fun p hp => hkeys p (Or.inl hp)) fun p hp => (hwatermark p hp).1
  obtain ⟨stops, hstop, hstopKeys, hend⟩ := exists_decodeBound hends
    (fun p hp => hkeys p (Or.inr hp)) fun p hp => (hwatermark p hp).2
  -- The check of the bounds compares the positions with the watermarks that the brokers have.
  have hinBounds : (∀ p ∈ partitions, InBounds lows highs positions stops p) ↔
      Retained log partitions start ends := by
    constructor
    · intro h
      refine ⟨fun p hp => ?_, fun p hp => ?_, fun p hp => ?_⟩
      · rw [← (hwatermark p hp).1, ← hposition p hp]
        exact (h p hp).retained
      · rw [← hposition p hp, ← hend p hp]
        exact (h p hp).ordered
      · rw [← (hwatermark p hp).2, ← hend p hp]
        exact (h p hp).reached
    · rintro ⟨hretained, hordered, hreached⟩ p hp
      refine ⟨?_, ?_, ?_⟩
      · rw [hposition p hp, (hwatermark p hp).1]
        exact hretained p hp
      · rw [hposition p hp, hend p hp]
        exact hordered p hp
      · rw [hend p hp, (hwatermark p hp).2]
        exact hreached p hp
  constructor
  · intro bounds hresolve
    obtain ⟨lows', highs', positions', stops', h⟩ := resolve_iff.mp hresolve
    obtain ⟨topics', htopics', hpartitions'⟩ := h.topics
    obtain rfl := Except.ok.inj (htopics.symm.trans htopics')
    obtain rfl := Except.ok.inj (hpartitions.symm.trans hpartitions')
    obtain ⟨rfl, rfl⟩ := Prod.mk.inj (Except.ok.inj (hread.symm.trans h.watermarks))
    obtain rfl := Except.ok.inj (hsource.symm.trans h.source)
    obtain rfl := Except.ok.inj (hstop.symm.trans h.stop)
    refine ⟨rfl, fun p hp => ?_, hinBounds.mp h.inBounds⟩
    rw [h.positions, h.ends, getD_complete hp, getD_complete hp]
    exact ⟨hposition p hp, hend p hp⟩
  · intro hretained
    -- Nothing but the partitions of the topic has a position or an end.
    have hknown : ∀ (defaults d : Dict ℕ ℕ), (∀ p, (d.get? p).isSome → p ∈ partitions) →
        (complete defaults partitions d).keys.any (· ∉ partitions) = false := by
      intro defaults d hd
      refine List.any_eq_false.mpr fun p hp => ?_
      have hsome := Dict.get?_isSome_iff.mpr hp
      rw [get?_complete] at hsome
      split at hsome
      · simpa
      · simpa using hd p hsome
    refine ⟨⟨partitions, complete lows partitions positions, complete highs partitions stops⟩,
      resolve_iff.mpr ⟨lows, highs, positions, stops, ⟨topics, htopics, hpartitions⟩, hbounded,
        hread, hsource, hstop, hinBounds.mpr hretained, rfl, rfl, ?_⟩⟩
    rw [hknown lows positions hpositionKeys, hknown highs stops hstopKeys]
    rfl

/-! ### The loop returns -/

/-- Every record of the partitions parses. -/
def Decodable (reader : KafkaRangeReader Token) (stream : PhysicalStream) (log : TopicLog)
    (partitions : List ℕ) : Prop :=
  ∀ p ∈ partitions, ∀ o m, log.records p o = some m →
    ∃ event, decodeEvent reader.parseEvent m stream = .ok event

/-- A poll that the loop can handle. -/
def Handleable (reader : KafkaRangeReader Token) (stream : PhysicalStream) (partitions : List ℕ) :
    RangePoll → Prop
  | .raised _ | .error _ => False
  | .none => True
  | .endOfPartition p _ => p ∈ partitions
  | .record m => m.partition ∈ partitions ∧
      ∃ event, decodeEvent reader.parseEvent m stream = .ok event

theorem handleable_of_feed {final : TopicLog} {fetch : ℕ → ℕ} {polls : List RangePoll}
    {stream : PhysicalStream} (hdecodable : Decodable reader stream log partitions)
    (feed : Feed (fun _ _ => False) partitions log fetch polls final)
    (hquiet : ∀ poll ∈ polls, (∀ raised, poll ≠ .raised raised) ∧ ∀ error, poll ≠ .error error) :
    ∀ poll ∈ polls, Handleable reader stream partitions poll := by
  induction feed with
  | done => simp
  | changed change _ _ => exact absurd change id
  | raised raised _ _ => exact absurd rfl ((hquiet _ List.mem_cons_self).1 raised)
  | error error _ _ => exact absurd rfl ((hquiet _ List.mem_cons_self).2 error)
  | none _ ih =>
    rw [List.forall_mem_cons] at hquiet ⊢
    exact ⟨trivial, ih hdecodable hquiet.2⟩
  | endOfPartition assigned _ _ ih =>
    rw [List.forall_mem_cons] at hquiet ⊢
    exact ⟨assigned, ih hdecodable hquiet.2⟩
  | record assigned present _ _ _ ih =>
    rw [List.forall_mem_cons] at hquiet ⊢
    exact ⟨⟨assigned, hdecodable _ assigned _ _ present⟩, ih hdecodable hquiet.2⟩

theorem exists_advance {s : RangeState} {q b : ℕ} (hknows : s.Knows partitions)
    (hq : q ∈ partitions) : ∃ s', advance s q b = .ok s' := by
  obtain ⟨old, hold⟩ := Option.isSome_iff_exists.mp ((hknows q).mpr hq)
  unfold advance
  rw [hold]
  exact ⟨_, rfl⟩

theorem exists_handle {s : RangeState} {poll : RangePoll} (hknows : s.Knows bounds.partitions)
    (hends : ∀ p ∈ bounds.partitions, (bounds.ends.get? p).isSome)
    (h : Handleable reader command.stream bounds.partitions poll) :
    ∃ s', reader.handle command bounds s poll = .ok s' := by
  cases poll with
  | raised raised => exact absurd h id
  | error error => exact absurd h id
  | none => exact ⟨s, rfl⟩
  | endOfPartition q offset => exact exists_advance hknows h
  | record m =>
    obtain ⟨hq, event, hdecode⟩ := h
    -- a record moves its position on, and only one in front of the end is decoded
    obtain ⟨advanced, hadvance⟩ := exists_advance (b := m.offset + 1) hknows hq
    obtain ⟨stop, hstop⟩ := Option.isSome_iff_exists.mp (hends _ hq)
    unfold handle
    dsimp only
    rw [hadvance]
    dsimp only
    rw [hstop]
    dsimp only
    split
    · exact ⟨_, rfl⟩
    · rw [hdecode]
      exact ⟨_, rfl⟩

theorem exists_readLoop {s : RangeState} {polls : List RangePoll}
    (hknows : s.Knows bounds.partitions)
    (hends : ∀ p ∈ bounds.partitions, (bounds.ends.get? p).isSome)
    (h : ∀ poll ∈ polls, Handleable reader command.stream bounds.partitions poll) :
    ∃ s', reader.readLoop command bounds s polls = .ok s' := by
  induction polls generalizing s with
  | nil => exact ⟨s, rfl⟩
  | cons poll polls ih =>
    rw [List.forall_mem_cons] at h
    unfold readLoop
    split
    · obtain ⟨t, hhandle⟩ := exists_handle hknows hends h.1
      rw [hhandle]
      exact ih ((handle_ok hhandle).2.2 _ hknows) h.2
    · exact ⟨s, rfl⟩

/-! ### What a page leaves to read -/

/-- The bounds of a page and the end of its loop. -/
structure PageRun (reader : KafkaRangeReader Token) (log : TopicLog) (partitions : List ℕ)
    (start ends : ℕ → ℕ) (command : ReadRangeCommand Token) (env : RangeEnv) (bounds : RangeBounds)
    (s : RangeState) : Prop where
  resolves : reader.resolve command env = .ok bounds
  loops : reader.readLoop command bounds { positions := bounds.positions } env.polls = .ok s
  assigned : bounds.partitions = partitions
  starts : ∀ p ∈ partitions, bounds.positions.getD p 0 = start p
  stops : ∀ p ∈ partitions, bounds.ends.getD p 0 = ends p
  knows : s.Knows partitions
  served : env.ServedBy reader command (fun _ _ => False) log log

/-- **A page has bounds, and its loop returns.** -/
theorem exists_pageRun (hpage : reader.Pageable log partitions command env)
    (hdecodable : Decodable reader command.stream log partitions)
    (hbounded : partitions.length ≤ maxCursorPartitions)
    (hstart : reader.Names env.decodedMs command.stream partitions log.low start command.source)
    (hends : reader.Names env.decodedMs command.stream partitions log.high ends command.stop)
    (hretained : Retained log partitions start ends) :
    ∃ bounds s, PageRun reader log partitions start ends command env bounds s := by
  obtain ⟨hspec, hexists⟩ := resolve_of_names hpage hbounded hstart hends
  obtain ⟨bounds, hresolve⟩ := hexists hretained
  obtain ⟨rfl, hplaces, -⟩ := hspec bounds hresolve
  obtain ⟨lows, highs, positions, stops, hresolved⟩ := resolve_iff.mp hresolve
  obtain ⟨hknows, hknowsEnds⟩ := hresolved.knows
  have hhandleable := handleable_of_feed hdecodable (hpage.feed bounds hresolve) hpage.quiet
  -- no poll of the feed makes the loop raise, so it ends in a state
  obtain ⟨s, hloop⟩ := exists_readLoop hknows hknowsEnds hhandleable
  refine ⟨bounds, s, hresolve, hloop, rfl, fun p hp => (hplaces p hp).1,
    fun p hp => (hplaces p hp).2, knows_readLoop hloop hknows, ?_, fun bounds' h' => ?_⟩
  · intro bounds' h'
    obtain rfl := Except.ok.inj (hresolve.symm.trans h')
    intro p hp low high hwatermark
    have hsame := (hpage.watermarks p hp).symm.trans hwatermark
    exact (Prod.mk.inj (Except.ok.inj hsame)).2.ge
  · obtain rfl := Except.ok.inj (hresolve.symm.trans h')
    exact hpage.feed bounds hresolve

namespace PageRun

variable {s : RangeState}

/-- A page whose coordinates fit into a cursor is returned. -/
theorem read_eq (h : PageRun reader log partitions start ends command env bounds s)
    (hpage : reader.Pageable log partitions command env) {cursor : Token}
    (hencode : reader.cursor.encodeCursor env.encodedMs command.stream.ref command.stream.topic
      s.positions = .ok cursor) :
    reader.read command env = .ok
      { events := s.events, nextCursor := cursor, positions := s.positions
        truncated := bounds.Unfinished s.positions } := by
  obtain ⟨hconsumer, hassign, hemit, hclose⟩ := hpage.returns
  -- What the loop reads is what the page says; the rest of the call returns.
  have hreadPage : reader.readPage command env = .ok
      { events := s.events, nextCursor := cursor, positions := s.positions
        truncated := bounds.Unfinished s.positions } := by
    unfold readPage
    rw [h.resolves]
    dsimp only
    rw [hassign]
    dsimp only
    rw [h.loops]
    dsimp only
    rw [hencode]
    dsimp only
    rw [hemit]
  unfold read
  rw [hconsumer]
  dsimp only
  rw [hclose, hreadPage]

/-- A page is cut short when some partition has not reached its end. -/
theorem unfinished_iff (h : PageRun reader log partitions start ends command env bounds s) :
    bounds.Unfinished s.positions ↔ ∃ p ∈ partitions, s.position p < ends p := by
  unfold RangeBounds.Unfinished
  rw [h.assigned]
  refine exists_congr fun p => and_congr_right fun hp => ?_
  rw [h.stops p hp]
  rfl

/-- No partition is past its end exactly when no handled poll went there. -/
theorem within_iff (h : PageRun reader log partitions start ends command env bounds s)
    (hretained : Retained log partitions start ends) :
    (∀ poll ∈ reader.handled command bounds { positions := bounds.positions } env.polls,
        ∀ p ∈ bounds.partitions, poll.bound p ≤ bounds.ends.getD p 0) ↔
      ∀ p ∈ partitions, s.position p ≤ ends p := by
  have hbegin : ∀ p ∈ partitions,
      RangeState.position { positions := bounds.positions } p ≤ ends p :=
    fun p hp => (h.starts p hp).le.trans (hretained.ordered p hp)
  rw [h.assigned]
  constructor
  · intro hpolls p hp
    exact (position_readLoop h.loops).mpr
      ⟨hbegin p hp, fun poll hpoll => h.stops p hp ▸ hpolls poll hpoll p hp⟩
  · intro hwithin poll hpoll p hp
    rw [h.stops p hp]
    exact ((position_readLoop h.loops).mp (hwithin p hp)).2 poll hpoll

theorem start_le (h : PageRun reader log partitions start ends command env bounds s) {p : ℕ}
    (hp : p ∈ partitions) : start p ≤ s.position p :=
  (h.starts p hp).ge.trans (position_le_readLoop p h.loops)

/-- The records of the page, by the log. -/
theorem recordsOf (h : PageRun reader log partitions start ends command env bounds s)
    {page : RangePage Token} (hread : reader.read command env = .ok page)
    (hpositions : page.positions = s.positions) {p : ℕ} (hp : p ∈ partitions) :
    page.recordsOf p = log.visible p (start p) (min (s.position p) (ends p)) := by
  have hrecords := recordsOf_page (fun _ _ hfalse => absurd hfalse id) h.served h.resolves hread p
    (h.assigned ▸ hp)
  rw [h.starts p hp, h.stops p hp, hpositions] at hrecords
  exact hrecords

/-- **What is left decreases** with every page that is cut short, since its limit was
reached. -/
theorem left_decreases (h : PageRun reader log partitions start ends command env bounds s)
    (hpage : reader.Pageable log partitions command env) (hlimit : 1 ≤ command.limit)
    (hunfinished : bounds.Unfinished s.positions) :
    (partitions.map fun p => ends p - s.position p).sum <
      (partitions.map fun p => ends p - start p).sum := by
  have hfull : command.limit ≤ s.events.length := by
    by_contra hlt
    exact hpage.deadline bounds s h.resolves h.loops ⟨not_le.mp hlt, hunfinished⟩
  -- Some record was taken, and its partition has moved past it.
  obtain ⟨event, hevent⟩ := List.exists_mem_of_length_pos (hlimit.trans hfull)
  have htaken : event.record ∈ s.events.map RangeEvent.record := List.mem_map_of_mem hevent
  rw [events_readLoop h.loops, List.map_nil, List.nil_append, List.mem_filter,
    decide_eq_true_eq] at htaken
  obtain ⟨hpolled, hbelow⟩ := htaken
  have hp : event.record.partition ∈ partitions := h.assigned ▸ assigned_of_feed
    (h.served.feed bounds h.resolves) _ (mem_polls_of_mem_handled (mem_polled_iff.mp hpolled))
  rw [h.stops _ hp] at hbelow
  have hvisible : event.record ∈
      log.visible event.record.partition (bounds.positions.getD event.record.partition 0)
        (s.position event.record.partition) := by
    rw [← polled_of_served (fun _ _ hfalse => absurd hfalse id) h.served h.resolves h.loops _
      (h.assigned ▸ hp)]
    simpa using hpolled
  obtain ⟨-, hfrom, hto⟩ := TopicLog.mem_visible_iff.mp hvisible
  rw [h.starts _ hp] at hfrom
  refine List.sum_lt_sum _ _ (fun p hp => ?_) ⟨_, hp, ?_⟩
  · have := h.start_le hp
    omega
  · omega

/-- The cursor of a page names where the page ended. -/
theorem names_after (h : PageRun reader log partitions start ends command env bounds s)
    {lifeMs nowMs : ℕ} (hseals : reader.cursor.SealsCursors lifeMs) {cursor : Token}
    (hencode : reader.cursor.encodeCursor env.encodedMs command.stream.ref command.stream.topic
      s.positions = .ok cursor) (hlive : nowMs < env.encodedMs + lifeMs) :
    reader.Names nowMs command.stream partitions log.low s.position (some cursor) := by
  obtain ⟨positions, hdecode, hsame⟩ := hseals _ nowMs _ _ _ _ hencode hlive
  refine ⟨positions, ?_, fun p hp => (h.knows p).mp (hsame p ▸ hp), fun p hp => ?_⟩
  · unfold decodePositions
    rw [hdecode]
  · obtain ⟨position, hposition⟩ := Option.isSome_iff_exists.mp ((h.knows p).mpr hp)
    unfold RangeState.position Dict.getD
    rw [hsame p, hposition]
    rfl

end PageRun

end KafkaRangeReader

/-! ### The chain of pages -/

/-- A page that is cut short, before the pages of the rest. -/
theorem HoldRange.cons {Token : Type} {log : TopicLog} {partitions : List ℕ}
    {start ends position : ℕ → ℕ} {page : RangePage Token} {pages : List (RangePage Token)}
    (h : HoldRange log partitions position ends pages) (hcut : page.truncated = true)
    (htruncated : page.truncated = true ↔ ∃ p ∈ partitions, page.positions.getD p 0 < ends p)
    (hrecords : ∀ p ∈ partitions, page.recordsOf p = log.visible p (start p) (position p))
    (hstart : ∀ p ∈ partitions, start p ≤ position p)
    (hposition : ∀ p ∈ partitions, position p ≤ ends p) :
    HoldRange log partitions start ends (page :: pages) := by
  obtain ⟨last, hlast, hfull⟩ := h.last
  -- there is a page behind this one, so the cut one is not the last
  have hne : pages ≠ [] := by
    rintro rfl
    simp at hlast
  refine ⟨?_, ⟨last, ?_, hfull⟩, ?_, fun p hp => ?_⟩
  · rw [List.dropLast_cons_of_ne_nil hne, List.forall_mem_cons]
    exact ⟨hcut, h.cut⟩
  · rw [List.getLast?_cons_of_ne_nil hne]
    exact hlast
  · rw [List.forall_mem_cons]
    exact ⟨htruncated, h.truncated_iff⟩
  · rw [List.flatMap_cons, hrecords p hp, h.records p hp]
    exact window_append (hstart p hp) (hposition p hp)

namespace KafkaRangeReader

variable {Token : Type} {reader : KafkaRangeReader Token} {log : TopicLog} {partitions : List ℕ}
  {ends : ℕ → ℕ}

/-- If all pages of a chain are returned they hold the range, and they are returned
exactly when the chain is smooth. -/
structure ChainSpec (reader : KafkaRangeReader Token) (log : TopicLog) (partitions : List ℕ)
    (start ends : ℕ → ℕ) (command : ReadRangeCommand Token) (envs : List RangeEnv) : Prop where
  holds : ∀ pages, reader.readPages command envs = .ok pages →
    HoldRange log partitions start ends pages
  returns : (∃ pages, reader.readPages command envs = .ok pages) ↔ reader.Smooth command envs

variable {start : ℕ → ℕ} {command : ReadRangeCommand Token} {env : RangeEnv} {envs : List RangeEnv}
  {bounds : RangeBounds} {s : RangeState}

theorem PageRun.smooth_cons (h : PageRun reader log partitions start ends command env bounds s) :
    reader.Smooth command (env :: envs) ↔
      ∃ cursor, reader.cursor.encodeCursor env.encodedMs command.stream.ref command.stream.topic
          s.positions = .ok cursor ∧
        (bounds.Unfinished s.positions →
          (∀ poll ∈ reader.handled command bounds { positions := bounds.positions } env.polls,
            ∀ p ∈ bounds.partitions, poll.bound p ≤ bounds.ends.getD p 0) ∧
          reader.Smooth (after command cursor) envs) := by
  constructor
  · exact fun hsmooth => hsmooth bounds s h.resolves h.loops
  · intro hsmooth bounds' s' hresolves hloops
    obtain rfl := Except.ok.inj (h.resolves.symm.trans hresolves)
    obtain rfl := Except.ok.inj (h.loops.symm.trans hloops)
    exact hsmooth

/-- A page that fails ends the chain. -/
theorem readPages_of_error (h : ∀ page, reader.read command env ≠ .ok page)
    (pages : List (RangePage Token)) : reader.readPages command (env :: envs) ≠ .ok pages := by
  unfold readPages
  split
  · simp
  · next page hread => exact absurd hread (h page)

/-- A chain whose first page does not fit into a cursor. -/
theorem chainSpec_of_error (h : PageRun reader log partitions start ends command env bounds s)
    {raised : Raised}
    (hencode : reader.cursor.encodeCursor env.encodedMs command.stream.ref command.stream.topic
      s.positions = .error raised) :
    ChainSpec reader log partitions start ends command (env :: envs) := by
  -- a page holds its cursor, and none is encoded
  have hfails : ∀ page, reader.read command env ≠ .ok page := by
    intro page hread
    obtain ⟨bounds', s', hresolves, hloops, hok, -⟩ := read_ok hread
    obtain rfl := Except.ok.inj (h.resolves.symm.trans hresolves)
    obtain rfl := Except.ok.inj (h.loops.symm.trans hloops)
    rw [hencode] at hok
    simp at hok
  refine ⟨fun pages hpages => absurd hpages (readPages_of_error hfails pages), ?_⟩
  refine iff_of_false ?_ ?_
  · rintro ⟨pages, hpages⟩
    exact readPages_of_error hfails pages hpages
  · rw [h.smooth_cons]
    rintro ⟨cursor, hok, -⟩
    rw [hencode] at hok
    simp at hok

/-- A chain whose first page is not cut short. -/
theorem chainSpec_of_finished (h : PageRun reader log partitions start ends command env bounds s)
    (hpage : reader.Pageable log partitions command env) {cursor : Token}
    (hencode : reader.cursor.encodeCursor env.encodedMs command.stream.ref command.stream.topic
      s.positions = .ok cursor)
    (hfinished : ¬bounds.Unfinished s.positions) :
    ChainSpec reader log partitions start ends command (env :: envs) := by
  have hread := h.read_eq hpage hencode
  have hpages := readPages.eq_2 reader command env envs
  rw [hread] at hpages
  dsimp only at hpages
  rw [if_neg (by simpa using hfinished)] at hpages
  -- this page is the last one, and holds all of the range
  refine ⟨fun pages hok => ?_, iff_of_true ⟨_, hpages⟩ ?_⟩
  · obtain rfl := Except.ok.inj (hpages.symm.trans hok)
    have hnone := hfinished
    rw [h.unfinished_iff] at hnone
    refine ⟨by simp, by simpa using hfinished, ?_, fun p hp => ?_⟩
    · rw [List.forall_mem_singleton]
      exact iff_of_false (by simpa using hfinished) hnone
    · rw [List.flatMap_singleton, h.recordsOf hread rfl hp]
      have hend : ends p ≤ s.position p := not_lt.mp fun hlt => hnone ⟨p, hp, hlt⟩
      rw [min_eq_right hend]
  · rw [h.smooth_cons]
    exact ⟨cursor, hencode, fun hunfinished => absurd hunfinished hfinished⟩

/-- **The pages of a chain.** The induction is on the environments; there are at least
as many as what is left to read. -/
theorem chainSpec {lifeMs : ℕ} (hseals : reader.cursor.SealsCursors lifeMs)
    (hbounded : partitions.length ≤ maxCursorPartitions) (envs : List RangeEnv) :
    ∀ (env : RangeEnv) (command : ReadRangeCommand Token) (start : ℕ → ℕ),
      1 ≤ command.limit → Decodable reader command.stream log partitions →
      reader.Names env.decodedMs command.stream partitions log.low start command.source →
      Retained log partitions start ends →
      reader.Served lifeMs log partitions ends command (env :: envs) →
      (partitions.map fun p => ends p - start p).sum ≤ envs.length →
      ChainSpec reader log partitions start ends command (env :: envs) := by
  -- By induction on the reads that are left: each page leaves less of the range to be read.
  induction envs with
  | nil =>
    intro env command start hlimit hdecodable hnames hretained hserved hleft
    obtain ⟨hpage, hends, -, -⟩ := hserved
    obtain ⟨bounds, s, h⟩ := exists_pageRun hpage hdecodable hbounded hnames hends hretained
    cases hencode : reader.cursor.encodeCursor env.encodedMs command.stream.ref
      command.stream.topic s.positions with
    | error raised => exact chainSpec_of_error h hencode
    | ok cursor =>
      -- An unfinished page would have left less than nothing.
      refine chainSpec_of_finished h hpage hencode fun hunfinished => ?_
      have hless := h.left_decreases hpage hlimit hunfinished
      rw [List.length_nil] at hleft
      omega
  | cons next envs ih =>
    intro env command start hlimit hdecodable hnames hretained hserved hleft
    obtain ⟨hpage, hends, hlive, hnext⟩ := hserved
    obtain ⟨bounds, s, h⟩ := exists_pageRun hpage hdecodable hbounded hnames hends hretained
    cases hencode : reader.cursor.encodeCursor env.encodedMs command.stream.ref
      command.stream.topic s.positions with
    | error raised => exact chainSpec_of_error h hencode
    | ok cursor =>
      by_cases hunfinished : bounds.Unfinished s.positions
      swap
      · exact chainSpec_of_finished h hpage hencode hunfinished
      have hread := h.read_eq hpage hencode
      have hpages := readPages.eq_2 reader command env (next :: envs)
      rw [hread] at hpages
      dsimp only at hpages
      rw [if_pos (by simpa using hunfinished)] at hpages
      have hrest := hnext _ hread (by simpa using hunfinished)
      have hnames' : reader.Names next.decodedMs command.stream partitions log.low s.position
          (after command cursor).source := h.names_after hseals hencode (hlive next rfl)
      -- A page may have read beyond the range, and then the next read is refused.
      by_cases hwithin : ∀ p ∈ partitions, s.position p ≤ ends p
      · -- The next page begins where this one ended.
        have hretained' : Retained log partitions s.position ends :=
          ⟨fun p hp => (hretained.retained p hp).trans (h.start_le hp), hwithin,
            hretained.reached⟩
        have hless := h.left_decreases hpage hlimit hunfinished
        rw [List.length_cons] at hleft
        have hspec := ih next (after command cursor) s.position hlimit hdecodable hnames'
          hretained' hrest (by omega)
        refine ⟨fun pages hok => ?_, ?_⟩
        · rw [hpages] at hok
          split at hok
          · simp at hok
          next rest hrestPages =>
          obtain rfl := Except.ok.inj hok
          refine (hspec.holds rest hrestPages).cons (by simpa using hunfinished) ?_ (fun p hp => ?_)
            (fun p hp => h.start_le hp) hwithin
          · rw [decide_eq_true_eq]
            exact h.unfinished_iff
          · rw [h.recordsOf hread rfl hp, min_eq_left (hwithin p hp)]
        · have hreturns : (∃ pages, reader.readPages command (env :: next :: envs) = .ok pages) ↔
              ∃ pages, reader.readPages (after command cursor) (next :: envs) = .ok pages := by
            rw [hpages]
            constructor
            · rintro ⟨pages, hok⟩
              split at hok
              · simp at hok
              · next rest hrestPages => exact ⟨rest, hrestPages⟩
            · rintro ⟨rest, hrestPages⟩
              rw [hrestPages]
              exact ⟨_, rfl⟩
          rw [hreturns, hspec.returns, h.smooth_cons]
          constructor
          · exact fun hsmooth => ⟨cursor, hencode, fun _ =>
              ⟨(h.within_iff hretained).mpr hwithin, hsmooth⟩⟩
          · rintro ⟨cursor', hencode', hsmooth⟩
            obtain rfl := Except.ok.inj (hencode.symm.trans hencode')
            exact (hsmooth hunfinished).2
      · -- The end of the next page precedes its start.
        have hfails : ∀ page, reader.read (after command cursor) next ≠ .ok page := by
          intro page hok
          obtain ⟨bounds', -, hresolves, -⟩ := read_ok hok
          have hordered := ((resolve_of_names hrest.1 hbounded hnames' hrest.2.1).1 bounds'
            hresolves).2.2.ordered
          exact hwithin hordered
        have herror : ∀ pages, reader.readPages command (env :: next :: envs) ≠ .ok pages := by
          intro pages hok
          rw [hpages] at hok
          split at hok
          · simp at hok
          · next rest hrestPages => exact readPages_of_error hfails rest hrestPages
        refine ⟨fun pages hok => absurd hok (herror pages), iff_of_false ?_ ?_⟩
        · rintro ⟨pages, hok⟩
          exact herror pages hok
        · rw [h.smooth_cons]
          rintro ⟨cursor', -, hsmooth⟩
          exact hwithin ((h.within_iff hretained).mp (hsmooth hunfinished).1)

/-- **When paging equals one bounded read.** On a log that stands still, the pages of a
chain that is long enough are all returned and hold exactly the range, exactly when the
topic is within the partition bound and the chain is smooth: no page that is cut short
polls a partition past its end, and the coordinates of every page fit into a cursor. -/
theorem paging_iff (reader : KafkaRangeReader Token) (lifeMs : ℕ)
    (hseals : reader.cursor.SealsCursors lifeMs) (log : TopicLog) (partitions : List ℕ)
    (start ends : ℕ → ℕ) (command : ReadRangeCommand Token) (env : RangeEnv) (envs : List RangeEnv)
    (hlimit : 1 ≤ command.limit) (hdecodable : Decodable reader command.stream log partitions)
    (hstart : reader.Names env.decodedMs command.stream partitions log.low start command.source)
    (hretained : Retained log partitions start ends)
    (hserved : reader.Served lifeMs log partitions ends command (env :: envs))
    (hlong : (partitions.map fun p => ends p - start p).sum ≤ envs.length) :
    (∃ pages, reader.readPages command (env :: envs) = .ok pages ∧
        HoldRange log partitions start ends pages) ↔
      partitions.length ≤ maxCursorPartitions ∧ reader.Smooth command (env :: envs) := by
  by_cases hbounded : partitions.length ≤ maxCursorPartitions
  · have hspec := chainSpec hseals hbounded envs env command start hlimit hdecodable hstart
      hretained hserved hlong
    rw [and_iff_right hbounded, ← hspec.returns]
    constructor
    · rintro ⟨pages, hpages, -⟩
      exact ⟨pages, hpages⟩
    · rintro ⟨pages, hpages⟩
      exact ⟨pages, hpages, hspec.holds pages hpages⟩
  · -- A topic with too many partitions is refused.
    refine iff_of_false ?_ fun h => hbounded h.1
    rintro ⟨pages, hpages, -⟩
    refine readPages_of_error (fun page hread => ?_) pages hpages
    obtain ⟨bounds, -, hresolves, -⟩ := read_ok hread
    obtain ⟨_, _, _, _, hresolved⟩ := resolve_iff.mp hresolves
    obtain ⟨topics, htopics, hpartitions⟩ := hserved.1.topics
    obtain ⟨topics', htopics', hpartitions'⟩ := hresolved.topics
    obtain rfl := Except.ok.inj (htopics.symm.trans htopics')
    obtain rfl := Except.ok.inj (hpartitions.symm.trans hpartitions')
    exact hbounded hresolved.bounded

end KafkaRangeReader

namespace Sample

theorem decodable (sizes : ℕ → ℕ) :
    KafkaRangeReader.Decodable reader orders (topicLog sizes) [0, 1] := by
  have hmessage : ∃ event, decodeEvent reader.parseEvent (message 0) orders = .ok event :=
    exists_ok_of_toBool (by decide +kernel)
  intro p _ o m hm
  obtain ⟨event, hevent⟩ := hmessage
  have hrecord : m = record p o := by
    change (if o < sizes p then some (record p o) else none) = some m at hm
    split at hm
    · exact (Option.some.inj hm).symm
    · simp at hm
  subst hrecord
  exact ⟨event, hevent⟩

/-- A cursor for the end of a range. -/
def rangeEnd (ends : Dict ℕ ℕ) : TokenPayload where
  type := .cursor
  resource := orders.ref.str
  topic := orders.topic
  positions := ends
  issuedAtMs := 0
  expiresAtMs := 3600000

/-- From the low watermarks up to an end, in pages of two events. -/
def readUpTo (ends : Dict ℕ ℕ) : ReadRangeCommand TokenPayload :=
  { readAll with stop := some (rangeEnd ends), limit := 2 }

/-- The environment of a page, by what `resolve` and the loop end with. -/
theorem pageable {sizes : ℕ → ℕ} {command : ReadRangeCommand TokenPayload} {polls : List RangePoll}
    (htopic : command.stream.topic = "orders.v1")
    (hquiet : ∀ poll ∈ polls, poll.record?.isSome)
    (hresolve : ∀ bounds, reader.resolve command (rangeEnv sizes polls) = .ok bounds →
      Feed (fun _ _ => False) [0, 1] (topicLog sizes) (fun p => bounds.positions.getD p 0) polls
        (topicLog sizes) ∧
      ((reader.readLoop command bounds { positions := bounds.positions } polls).toOption.all
        fun s => ¬KafkaRangeReader.Continues command bounds s) = true) :
    reader.Pageable (topicLog sizes) [0, 1] command (rangeEnv sizes polls) where
  topics := by
    rw [htopic]
    exact ⟨_, rfl, by decide +kernel⟩
  watermarks p _ := rfl
  returns := ⟨rfl, rfl, rfl, rfl⟩
  quiet poll hpoll := by
    have hrecord := hquiet poll hpoll
    refine ⟨fun raised heq => ?_, fun error heq => ?_⟩ <;> rw [heq] at hrecord <;>
      simp [RangePoll.record?] at hrecord
  feed bounds h := (hresolve bounds h).1
  deadline bounds s h hloop := by
    have hstops := (hresolve bounds h).2
    change reader.readLoop command bounds { positions := bounds.positions } polls = .ok s at hloop
    rw [hloop] at hstops
    simpa [Except.toOption] using hstops

/-- The whole log of two records, as an explicit range. -/
def wholeRange : ReadRangeCommand TokenPayload := readUpTo ((Dict.empty.set 0 1).set 1 1)

theorem resolve_wholeRange (polls : List RangePoll) :
    reader.resolve wholeRange (rangeEnv (fun _ => 1) polls) =
      .ok ⟨[0, 1], (Dict.empty.set 0 0).set 1 0, (Dict.empty.set 0 1).set 1 1⟩ := by
  have hnone : reader.resolve wholeRange (rangeEnv (fun _ => 1) []) =
      .ok ⟨[0, 1], (Dict.empty.set 0 0).set 1 0, (Dict.empty.set 0 1).set 1 1⟩ := by decide +kernel
  exact hnone

theorem names_end {ends : Dict ℕ ℕ} {place : ℕ → ℕ} (watermark : ℕ → ℕ)
    (hdecodes : decodePositions reader.cursor 0 (rangeEnd ends) orders = .ok ends)
    (hkeys : ∀ p ∈ ends.keys, p ∈ [0, 1])
    (hplace : ∀ p ∈ [0, 1], place p = ends.getD p (watermark p)) :
    reader.Names 0 orders [0, 1] watermark place (some (rangeEnd ends)) :=
  ⟨ends, hdecodes, fun p hp => hkeys p (Dict.get?_isSome_iff.mp hp), hplace⟩

theorem stillEnv_pageable :
    reader.Pageable (topicLog fun _ => 1) [0, 1] wholeRange stillEnv := by
  refine pageable rfl (by decide +kernel) fun bounds h => ?_
  obtain rfl := Except.ok.inj ((resolve_wholeRange _).symm.trans h)
  refine ⟨?_, by decide +kernel⟩
  refine .record (by decide) (by decide +kernel) (by decide) (by decide) ?_
  exact .record (by decide) (by decide +kernel) (by decide) (by decide) .done

end Sample

namespace KafkaRangeReader

/-- Two records in one page. -/
theorem paging_iff_one_page :
    (∃ pages, Sample.reader.readPages Sample.wholeRange
          [Sample.stillEnv, Sample.stillEnv, Sample.stillEnv] = .ok pages ∧
        HoldRange (Sample.topicLog fun _ => 1) [0, 1] (fun _ => 0) (fun _ => 1) pages) ↔
      [0, 1].length ≤ maxCursorPartitions ∧
        Sample.reader.Smooth Sample.wholeRange
          [Sample.stillEnv, Sample.stillEnv, Sample.stillEnv] := by
  refine paging_iff Sample.reader 3600000 (payloadCodec_sealsCursors _)
    (Sample.topicLog fun _ => 1) [0, 1] (fun _ => 0) (fun _ => 1) Sample.wholeRange Sample.stillEnv
    [Sample.stillEnv, Sample.stillEnv] (by decide) (Sample.decodable _) (fun _ _ => rfl)
    ⟨fun _ _ => le_rfl, fun _ _ => Nat.zero_le 1, fun _ _ => le_rfl⟩ ?_ le_rfl
  refine ⟨Sample.stillEnv_pageable, Sample.names_end _ (by decide +kernel) (by decide)
    (by decide), ?_, fun page hread htruncated => ?_⟩
  · intro next hnext
    obtain rfl := Option.some.inj hnext
    decide
  · -- The first page is not cut short.
    have hfull : ((Sample.reader.read Sample.wholeRange Sample.stillEnv).toOption.all
        fun page => page.truncated = false) = true := by decide +kernel
    rw [hread] at hfull
    simp [Except.toOption, htruncated] at hfull

end KafkaRangeReader

namespace Sample

/-- One record of partition 0 and two of partition 1. -/
def splitEnds : Dict ℕ ℕ := (Dict.empty.set 0 1).set 1 2

/-- The page of two events, which polls both records of partition 0. -/
def cutEnv : RangeEnv :=
  rangeEnv (fun _ => 2) [.record (record 0 0), .record (record 0 1), .record (record 1 0)]

/-- The cursor of the page: partition 0 is past its end. -/
def cutCursor : TokenPayload := rangeEnd ((Dict.empty.set 0 2).set 1 1)

def nextEnv : RangeEnv := rangeEnv (fun _ => 2) []

theorem cutEnv_pageable :
    reader.Pageable (topicLog fun _ => 2) [0, 1] (readUpTo splitEnds) cutEnv := by
  have hresolve : reader.resolve (readUpTo splitEnds) cutEnv =
      .ok ⟨[0, 1], (Dict.empty.set 0 0).set 1 0, splitEnds⟩ := by decide +kernel
  refine pageable rfl (by decide +kernel) fun bounds h => ?_
  obtain rfl := Except.ok.inj (hresolve.symm.trans h)
  refine ⟨?_, by decide +kernel⟩
  refine .record (by decide) (by decide +kernel) (by decide) (by decide) ?_
  refine .record (by decide) (by decide +kernel) (by decide) (by decide) ?_
  exact .record (by decide) (by decide +kernel) (by decide) (by decide) .done

/-- The second page has no bounds. -/
theorem nextEnv_pageable : reader.Pageable (topicLog fun _ => 2) [0, 1]
    (KafkaRangeReader.after (readUpTo splitEnds) cutCursor) nextEnv := by
  have hfails : (reader.resolve (KafkaRangeReader.after (readUpTo splitEnds) cutCursor)
      nextEnv).toOption = none := by decide +kernel
  refine pageable rfl (by simp) fun bounds h => ?_
  change reader.resolve _ nextEnv = _ at h
  rw [h] at hfails
  simp [Except.toOption] at hfails

end Sample

namespace KafkaRangeReader

/-- **A page that is cut short can end the chain.** Both partitions hold two records, and
the range ends after one of partition 0 and two of partition 1. The first page of two
events polls both records of partition 0; the second page fails. -/
theorem overshooting_page_ends_the_chain :
    let log := Sample.topicLog fun _ => 2
    let ends p := Sample.splitEnds.getD p 0
    let command := Sample.readUpTo Sample.splitEnds
    Retained log [0, 1] (fun _ => 0) ends ∧
      Sample.reader.Names 0 Sample.orders [0, 1] log.low (fun _ => 0) command.source ∧
      Sample.reader.Served 3600000 log [0, 1] ends command [Sample.cutEnv, Sample.nextEnv] ∧
      Sample.reader.readPages command [Sample.cutEnv, Sample.nextEnv] = .error (.failure
        { kind := .retentionBoundaryExceeded, message := "range end precedes its start" }) := by
  intro log ends command
  have hends (nowMs : ℕ) (h : nowMs = 0) :
      Sample.reader.Names nowMs Sample.orders [0, 1] log.high ends command.stop := by
    subst h
    exact Sample.names_end _ (by decide +kernel) (by decide) (by decide)
  refine ⟨⟨fun _ _ => le_rfl, by decide, by decide⟩, fun _ _ => rfl,
    ⟨Sample.cutEnv_pageable, hends _ rfl, ?_, fun page hread _ => ?_⟩, ?_⟩
  · intro next hnext
    obtain rfl := Option.some.inj hnext
    decide
  · -- The first page goes past the end of one partition, and its cursor says so.
    have hcursor : (Sample.reader.read command Sample.cutEnv).toOption.map (·.nextCursor) =
        some Sample.cutCursor := by decide +kernel
    rw [hread] at hcursor
    have hnext : page.nextCursor = Sample.cutCursor := Option.some.inj hcursor
    rw [hnext]
    exact ⟨Sample.nextEnv_pageable, hends _ rfl, by simp, fun _ _ _ => trivial⟩
  · -- Resuming there, the second page finds that its end precedes its start.
    have hfails : (match Sample.reader.readPages command [Sample.cutEnv, Sample.nextEnv] with
        | .ok _ => none
        | .error raised => some raised) = some (Raised.failure
          { kind := .retentionBoundaryExceeded, message := "range end precedes its start" }) := by
      decide +kernel
    split at hfails
    · simp at hfails
    · next raised hraised => rw [hraised, Option.some.inj hfails]

end KafkaRangeReader

end MeridianKafka
