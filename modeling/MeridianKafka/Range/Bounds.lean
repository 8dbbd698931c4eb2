import MeridianKafka.Range.Reader

/-!
# The bounds of a range

`resolve` answers with bounds exactly when the checks of every partition pass
(`checkBounds_iff`): the position, or the low watermark where the text names none, is
retained and not beyond the end, and the end, or the high watermark, has been reached
by the log. `resolve_iff` lists everything that it has found out by then, and `read_ok`
what a read that answers consists of.
-/

namespace MeridianKafka

open Framework

namespace KafkaRangeReader

/-- Positions, with a default for each of the partitions. -/
def complete (defaults : Dict ℕ ℕ) (partitions : List ℕ) (d : Dict ℕ ℕ) : Dict ℕ ℕ :=
  partitions.foldl (fun d p => d.setdefault p (defaults.getD p 0)) d

/-- The checks of one partition pass. -/
structure InBounds (lows highs positions ends : Dict ℕ ℕ) (p : ℕ) : Prop where
  retained : lows.getD p 0 ≤ positions.getD p (lows.getD p 0)
  ordered : positions.getD p (lows.getD p 0) ≤ ends.getD p (highs.getD p 0)
  reached : ends.getD p (highs.getD p 0) ≤ highs.getD p 0

theorem getD_setdefault (d : Dict ℕ ℕ) (default : ℕ → ℕ) (p q : ℕ) :
    (d.setdefault q (default q)).getD p (default p) = d.getD p (default p) := by
  unfold Dict.getD
  rw [Dict.get?_setdefault]
  by_cases hp : p = q
  · subst hp
    rw [if_pos rfl, Option.getD_some]
  · rw [if_neg hp]

theorem get?_complete (defaults : Dict ℕ ℕ) (partitions : List ℕ) (d : Dict ℕ ℕ) (p : ℕ) :
    (complete defaults partitions d).get? p =
      if p ∈ partitions then some (d.getD p (defaults.getD p 0)) else d.get? p := by
  induction partitions generalizing d with
  | nil => simp [complete]
  | cons q rest ih =>
    have hfirst := ih (d.setdefault q (defaults.getD q 0))
    rw [getD_setdefault d (fun p => defaults.getD p 0)] at hfirst
    change (complete defaults rest (d.setdefault q (defaults.getD q 0))).get? p = _
    rw [hfirst, Dict.get?_setdefault]
    by_cases hrest : p ∈ rest
    · rw [if_pos hrest, if_pos (List.mem_cons_of_mem q hrest)]
    · rw [if_neg hrest]
      by_cases hq : p = q
      · subst hq
        rw [if_pos rfl, if_pos List.mem_cons_self]
        rfl
      · rw [if_neg hq, if_neg (by simp [hq, hrest])]

/-- The position that a partition of the range begins with. -/
theorem getD_complete {defaults : Dict ℕ ℕ} {partitions : List ℕ} {d : Dict ℕ ℕ} {p : ℕ}
    (hp : p ∈ partitions) :
    (complete defaults partitions d).getD p 0 = d.getD p (defaults.getD p 0) := by
  change ((complete defaults partitions d).get? p).getD 0 = _
  rw [get?_complete, if_pos hp, Option.getD_some]

/-- **The bounds loop** completes both ends, and passes when every partition does. -/
theorem checkBounds_iff {lows highs positions ends positions' ends' : Dict ℕ ℕ}
    {partitions : List ℕ} :
    checkBounds lows highs partitions positions ends = .ok (positions', ends') ↔
      (∀ p ∈ partitions, InBounds lows highs positions ends p) ∧
        complete lows partitions positions = positions' ∧
        complete highs partitions ends = ends' := by
  induction partitions generalizing positions ends with
  | nil => simp [checkBounds, complete]
  | cons q rest ih =>
    -- Filling in the defaults of `q` changes no partition's bounds, since absent ones already read
    -- as the watermarks.
    have hinBounds : ∀ p, InBounds lows highs (positions.setdefault q (lows.getD q 0))
        (ends.setdefault q (highs.getD q 0)) p ↔ InBounds lows highs positions ends p := by
      intro p
      have hposition := getD_setdefault positions (fun p => lows.getD p 0) p q
      have hend := getD_setdefault ends (fun p => highs.getD p 0) p q
      constructor
      · rintro ⟨hretained, hordered, hreached⟩
        rw [hposition] at hretained hordered
        rw [hend] at hordered hreached
        exact ⟨hretained, hordered, hreached⟩
      · rintro ⟨hretained, hordered, hreached⟩
        rw [← hposition] at hretained hordered
        rw [← hend] at hordered hreached
        exact ⟨hretained, hordered, hreached⟩
    have hself : ∀ (d : Dict ℕ ℕ) (v : ℕ), (d.setdefault q v).getD q 0 = d.getD q v := by
      intro d v
      change ((d.setdefault q v).get? q).getD 0 = _
      rw [Dict.get?_setdefault, if_pos rfl, Option.getD_some]
      rfl
    unfold checkBounds
    dsimp only
    rw [hself, hself, List.forall_mem_cons]
    -- The three comparisons of the source, each of which refutes a field of `InBounds`.
    split
    · next hlow =>
      refine iff_of_false (by simp) fun h => ?_
      exact absurd h.1.1.retained (by omega)
    split
    · next hhigh =>
      refine iff_of_false (by simp) fun h => ?_
      obtain ⟨-, hordered, hreached⟩ := h.1.1
      omega
    split
    · next hordered =>
      refine iff_of_false (by simp) fun h => ?_
      exact absurd h.1.1.ordered (by omega)
    · next hlow hhigh hordered =>
      have hfirst : InBounds lows highs positions ends q := ⟨by omega, by omega, by omega⟩
      rw [ih]
      simp only [hinBounds, hfirst, true_and]
      rfl

variable {Token : Type} {reader : KafkaRangeReader Token} {command : ReadRangeCommand Token}
  {env : RangeEnv} {bounds : RangeBounds}

/-- The watermarks of the partitions, when all of them could be read. -/
theorem readWatermarks_ok {partitions : List ℕ} {lows highs lows' highs' : Dict ℕ ℕ}
    (h : readWatermarks env partitions lows highs = .ok (lows', highs')) :
    (∀ p ∈ partitions, env.watermarks p = .ok (lows'.getD p 0, highs'.getD p 0)) ∧
    ∀ p, p ∉ partitions → lows'.get? p = lows.get? p ∧ highs'.get? p = highs.get? p := by
  induction partitions generalizing lows highs with
  | nil =>
    obtain ⟨rfl, rfl⟩ := Prod.mk.inj (Except.ok.inj h)
    exact ⟨by simp, fun p _ => ⟨rfl, rfl⟩⟩
  | cons q rest ih =>
    unfold readWatermarks at h
    split at h
    · simp at h
    next low high hwatermarks =>
    -- The entries of this partition stay unless it is read once more.
    obtain ⟨hin, hout⟩ := ih h
    refine ⟨fun p hp => ?_, fun p hp => ?_⟩
    · by_cases hrest : p ∈ rest
      · exact hin p hrest
      · obtain rfl : p = q := by simpa [hrest] using hp
        obtain ⟨hlow, hhigh⟩ := hout p hrest
        rw [Dict.get?_set_self] at hlow hhigh
        unfold Dict.getD
        rw [hlow, hhigh, hwatermarks]
        rfl
    · rw [List.mem_cons, not_or] at hp
      obtain ⟨hlow, hhigh⟩ := hout p hp.2
      rw [Dict.get?_set_of_ne _ _ hp.1] at hlow hhigh
      exact ⟨hlow, hhigh⟩

/-- Everything that `resolve` has found out when it answers. -/
structure Resolved (reader : KafkaRangeReader Token) (command : ReadRangeCommand Token)
    (env : RangeEnv) (bounds : RangeBounds) (lows highs positions ends : Dict ℕ ℕ) : Prop where
  topics : ∃ topics, env.listTopics = .ok topics ∧
    partitionIds topics command.stream.topic = .ok bounds.partitions
  bounded : bounds.partitions.length ≤ maxCursorPartitions
  watermarks : readWatermarks env bounds.partitions .empty .empty = .ok (lows, highs)
  source : reader.decodeBound env.decodedMs command.stream lows command.source = .ok positions
  stop : reader.decodeBound env.decodedMs command.stream highs command.stop = .ok ends
  inBounds : ∀ p ∈ bounds.partitions, InBounds lows highs positions ends p
  positions : bounds.positions = complete lows bounds.partitions positions
  ends : bounds.ends = complete highs bounds.partitions ends
  known : (bounds.positions.keys.any (· ∉ bounds.partitions) ||
    bounds.ends.keys.any (· ∉ bounds.partitions)) = false

theorem resolve_iff : reader.resolve command env = .ok bounds ↔
    ∃ lows highs positions ends, Resolved reader command env bounds lows highs positions ends := by
  constructor
  -- Each `split` is one of the early returns of `resolve`; the last branch names what was read.
  · intro h
    unfold resolve at h
    split at h
    · simp at h
    next topics htopics =>
    split at h
    · simp at h
    next partitions hpartitions =>
    split at h
    · simp at h
    next hbounded =>
    split at h
    · simp at h
    next lows highs hwatermarks =>
    split at h
    · simp at h
    next positions hsource =>
    split at h
    · simp at h
    next ends hstop =>
    split at h
    · simp at h
    next positions' ends' hcheck =>
    split at h
    · simp at h
    next hknown =>
    obtain rfl := Except.ok.inj h
    obtain ⟨hinBounds, hpositions, hends⟩ := checkBounds_iff.mp hcheck
    exact ⟨lows, highs, positions, ends, ⟨topics, htopics, hpartitions⟩, not_lt.mp hbounded,
      hwatermarks, hsource, hstop, hinBounds, hpositions.symm, hends.symm, by simpa using hknown⟩
  · rintro ⟨lows, highs, positions, ends, ⟨topics, htopics, hpartitions⟩, hbounded, hwatermarks,
      hsource, hstop, hinBounds, hpositions, hends, hknown⟩
    have hcheck := checkBounds_iff.mpr ⟨hinBounds, hpositions.symm, hends.symm⟩
    unfold resolve
    rw [htopics]
    dsimp only
    rw [hpartitions]
    dsimp only
    rw [if_neg (not_lt.mpr hbounded), hwatermarks]
    dsimp only
    rw [hsource]
    dsimp only
    rw [hstop]
    dsimp only
    rw [hcheck]
    dsimp only
    rw [hknown, if_neg Bool.false_ne_true]

/-- A read that answers has resolved its bounds, run its loop, and sealed the positions
that the loop ended with. -/
theorem read_ok {page : RangePage Token} (h : reader.read command env = .ok page) :
    ∃ bounds s, reader.resolve command env = .ok bounds ∧
      reader.readLoop command bounds { positions := bounds.positions } env.polls = .ok s ∧
      reader.cursor.encodeCursor env.encodedMs command.stream.ref command.stream.topic
        s.positions = .ok page.nextCursor ∧
      page.events = s.events ∧ page.positions = s.positions ∧
      (page.truncated = true ↔ bounds.Unfinished s.positions) := by
  unfold read at h
  split at h
  · simp at h
  split at h
  · simp at h
  split at h
  swap
  · simp at h
  swap
  · simp at h
  next hpage =>
  obtain rfl := Except.ok.inj h
  -- The branches of the source again: bounds, consumer, loop and cursor in turn.
  unfold readPage at hpage
  split at hpage
  · simp at hpage
  next bounds hresolve =>
  split at hpage
  · simp at hpage
  split at hpage
  · simp at hpage
  next s hloop =>
  split at hpage
  · simp at hpage
  next nextCursor hencode =>
  split at hpage
  · simp at hpage
  obtain rfl := Except.ok.inj hpage
  exact ⟨bounds, s, hresolve, hloop, hencode, rfl, rfl, by simp⟩

end KafkaRangeReader

end MeridianKafka
