import MeridianKafka.Framework.Dict

/-!
# Dictionaries of the keys used last

A dictionary that moves each key to its end when the key is used, and that drops its oldest
entries when there are more than `n`, holds the `n` keys that were used last, each with the
value of its last use.

`Keeps` says so, in terms of the list of all uses. It holds of the empty dictionary, and the
two ways of using a key keep it: writing it (`Keeps.touch`), and reading a key that is there
(`Keeps.moveToEnd`). What a lookup finds is then a matter of counting: a key is there as long
as fewer than `n` other keys have been used since (`Keeps.get?_eq`).
-/

namespace Framework

namespace Dict

variable {κ ν : Type*} [DecidableEq κ]

/-- The last use of each key, newest first. -/
def recent : List (κ × ν) → List (κ × ν)
  | [] => []
  | use :: uses => use :: (recent uses).filter fun e => e.1 ≠ use.1

/-- The keys that were used after the last use of `k`. -/
def since (uses : List (κ × ν)) (k : κ) : Finset κ :=
  ((uses.takeWhile fun e => e.1 ≠ k).map Prod.fst).toFinset

/-- The dictionary holds the `n` keys used last, the newest at its end. -/
def Keeps (d : Dict κ ν) (n : ℕ) (uses : List (κ × ν)) : Prop :=
  d.entries.reverse = (recent uses).take n

/-! ### The last use of each key -/

theorem nodup_recent (uses : List (κ × ν)) : ((recent uses).map Prod.fst).Nodup := by
  induction uses with
  | nil => exact List.nodup_nil
  | cons use uses ih =>
    rw [recent, List.map_cons, List.nodup_cons]
    refine ⟨fun hmem => ?_, ih.sublist (List.filter_sublist.map Prod.fst)⟩
    obtain ⟨e, he, hkey⟩ := List.mem_map.mp hmem
    exact of_decide_eq_true (List.mem_filter.mp he).2 hkey

theorem lookup_filter_ne (l : List (κ × ν)) {k k' : κ} (h : k ≠ k') :
    (l.filter fun e => e.1 ≠ k').lookup k = l.lookup k := by
  induction l with
  | nil => rfl
  | cons e l ih =>
    rw [List.filter_cons]
    by_cases he : e.1 = k'
    · have hne : (k == e.1) = false := beq_eq_false_iff_ne.mpr (he ▸ h)
      rw [if_neg (by simpa using he), ih, List.lookup_cons, hne]
    · rw [if_pos (by simpa using he), List.lookup_cons, List.lookup_cons, ih]

/-- The last use of a key is the first one in the list. -/
theorem lookup_recent (uses : List (κ × ν)) (k : κ) : (recent uses).lookup k = uses.lookup k := by
  induction uses with
  | nil => rfl
  | cons use uses ih =>
    rw [recent, List.lookup_cons, List.lookup_cons]
    by_cases hk : k = use.1
    · rw [beq_iff_eq.mpr hk]
    · rw [beq_eq_false_iff_ne.mpr hk, lookup_filter_ne _ hk, ih]

/-- What stands before a key is filtered like the whole list, when the key stays. -/
theorem takeWhile_filter_ne (l : List (κ × ν)) {k k' : κ} (h : k ≠ k') :
    (l.filter fun e => e.1 ≠ k').takeWhile (fun e => e.1 ≠ k) =
      (l.takeWhile fun e => e.1 ≠ k).filter fun e => e.1 ≠ k' := by
  induction l with
  | nil => rfl
  | cons e l ih =>
    rw [List.filter_cons]
    by_cases he : e.1 = k'
    · have hne : e.1 ≠ k := fun heq => h (heq.symm.trans he)
      rw [if_neg (by simpa using he), ih, List.takeWhile_cons, if_pos (by simpa using hne),
        List.filter_cons, if_neg (by simpa using he)]
    · rw [if_pos (by simpa using he), List.takeWhile_cons, List.takeWhile_cons]
      by_cases hk : e.1 = k
      · rw [if_neg (by simpa using hk), if_neg (by simpa using hk)]
        rfl
      · rw [if_pos (by simpa using hk), if_pos (by simpa using hk), List.filter_cons,
          if_pos (by simpa using he), ih]

/-- The keys that stand before a key are those used since, each once. -/
theorem length_takeWhile_recent (uses : List (κ × ν)) (k : κ) :
    ((recent uses).takeWhile fun e => e.1 ≠ k).length = (since uses k).card := by
  have hnodup : (((recent uses).takeWhile fun e => e.1 ≠ k).map Prod.fst).Nodup :=
    (nodup_recent uses).sublist ((List.takeWhile_sublist _).map Prod.fst)
  have hsame : (((recent uses).takeWhile fun e => e.1 ≠ k).map Prod.fst).toFinset =
      since uses k := by
    clear hnodup
    induction uses with
    | nil => rfl
    | cons use uses ih =>
      unfold since
      rw [recent, List.takeWhile_cons, List.takeWhile_cons]
      by_cases hk : use.1 = k
      · rw [if_neg (by simpa using hk), if_neg (by simpa using hk)]
      · rw [if_pos (by simpa using hk), if_pos (by simpa using hk),
          takeWhile_filter_ne _ (Ne.symm hk), List.map_cons, List.map_cons, List.toFinset_cons,
          List.toFinset_cons]
        rw [since] at ih
        rw [← ih]
        ext key
        simp only [Finset.mem_insert, List.mem_toFinset, List.mem_map, List.mem_filter,
          decide_eq_true_eq]
        constructor
        · rintro (hkey | ⟨e, ⟨he, -⟩, hkey⟩)
          · exact Or.inl hkey
          · exact Or.inr ⟨e, he, hkey⟩
        · rintro (hkey | ⟨e, he, hkey⟩)
          · exact Or.inl hkey
          -- The newest use of a key stands for its earlier ones.
          · by_cases hfirst : key = use.1
            · exact Or.inl hfirst
            · exact Or.inr ⟨e, ⟨he, hkey ▸ hfirst⟩, hkey⟩
  rw [← hsame, List.toFinset_card_of_nodup hnodup, List.length_map]

/-- A key is found among the first `n` when fewer than `n` stand before it. -/
theorem lookup_take (l : List (κ × ν)) (k : κ) (n : ℕ) :
    (l.take n).lookup k =
      if (l.takeWhile fun e => e.1 ≠ k).length < n then l.lookup k else none := by
  induction l generalizing n with
  | nil => simp
  | cons e l ih =>
    cases n with
    | zero => simp
    | succ n =>
      rw [List.take_succ_cons, List.lookup_cons, List.lookup_cons]
      by_cases hk : k = e.1
      · subst hk
        simp
      · have htake : ((e :: l).takeWhile fun e => e.1 ≠ k) = e :: l.takeWhile fun e => e.1 ≠ k :=
          List.takeWhile_cons_of_pos (by simpa using Ne.symm hk)
        rw [beq_eq_false_iff_ne.mpr hk, htake, List.length_cons]
        simp only [Nat.add_lt_add_iff_right]
        exact ih n

/-! ### Using a key -/

/-- Dropping the oldest makes room for one key, which may have been there. -/
theorem take_filter_take {l : List (κ × ν)} (nodup : (l.map Prod.fst).Nodup) (k : κ) (n : ℕ) :
    ((l.take (n + 1)).filter fun e => e.1 ≠ k).take n = (l.filter fun e => e.1 ≠ k).take n := by
  induction l generalizing n with
  | nil => rfl
  | cons e l ih =>
    rw [List.map_cons, List.nodup_cons] at nodup
    cases n with
    | zero => rw [List.take_zero, List.take_zero]
    | succ n =>
      rw [List.take_succ_cons, List.filter_cons, List.filter_cons]
      by_cases hk : e.1 = k
      · have hothers : ∀ l' ⊆ l, (l'.filter fun e => e.1 ≠ k) = l' := by
          intro l' hsub
          refine List.filter_eq_self.mpr fun e' he' => decide_eq_true fun heq => nodup.1 ?_
          exact List.mem_map.mpr ⟨e', hsub he', heq.trans hk.symm⟩
        rw [if_neg (by simpa using hk), if_neg (by simpa using hk),
          hothers _ (List.take_subset _ _), hothers _ (List.Subset.refl _), List.take_take,
          Nat.min_self]
      · rw [if_pos (by simpa using hk), if_pos (by simpa using hk), List.take_succ_cons,
          List.take_succ_cons, ih nodup.2]

/-- Writing a key changes nothing about the others. -/
theorem entries_erase_set (d : Dict κ ν) (k : κ) (v : ν) :
    ((d.set k v).erase k).entries = d.entries.filter fun e => e.1 ≠ k := by
  -- An entry that is overwritten in its place is dropped by the filter in both lists.
  have hoverwrite : ∀ l : List (κ × ν),
      ((l.map fun e => if e.1 = k then (k, v) else e).filter fun e => e.1 ≠ k) =
        l.filter fun e => e.1 ≠ k := by
    intro l
    induction l with
    | nil => rfl
    | cons e l ih =>
      rw [List.map_cons, List.filter_cons, List.filter_cons, ih]
      by_cases hk : e.1 = k
      · simp [hk]
      · simp [hk]
  change (d.set k v).entries.filter (fun e => e.1 ≠ k) = _
  unfold set
  split
  · exact hoverwrite d.entries
  · rw [List.filter_append]
    simp

omit [DecidableEq κ] in
/-- What is kept is the newest part. -/
theorem reverse_entries_keepLast (d : Dict κ ν) (n : ℕ) :
    (d.keepLast n).entries.reverse = d.entries.reverse.take n := by
  change (d.entries.drop (d.entries.length - n)).reverse = _
  rw [List.reverse_drop]
  by_cases h : n ≤ d.entries.length
  · rw [Nat.sub_sub_self h]
  · rw [Nat.sub_eq_zero_of_le (not_le.mp h).le, Nat.sub_zero, List.take_of_length_le (by simp),
      List.take_of_length_le (by rw [List.length_reverse]; omega)]

theorem keeps_empty (n : ℕ) : (empty : Dict κ ν).Keeps n [] := by
  unfold Keeps
  rw [recent, List.take_nil]
  rfl

variable {d : Dict κ ν} {n : ℕ} {uses : List (κ × ν)}

/-- A key is written. -/
theorem Keeps.touch (h : d.Keeps (n + 1) uses) (k : κ) (v : ν) :
    (((d.set k v).moveToEnd k).keepLast (n + 1)).Keeps (n + 1) ((k, v) :: uses) := by
  -- Newest first, the key that is written comes before the others.
  have hentries : ((d.set k v).moveToEnd k).entries.reverse =
      (k, v) :: d.entries.reverse.filter fun e => e.1 ≠ k := by
    rw [entries_moveToEnd (get?_set_self d k v), entries_erase_set, List.reverse_append,
      List.filter_reverse]
    rfl
  unfold Keeps at h ⊢
  rw [reverse_entries_keepLast, hentries, h, recent, List.take_succ_cons, List.take_succ_cons,
    take_filter_take (nodup_recent uses)]

/-- A key that is there is read. -/
theorem Keeps.moveToEnd (h : d.Keeps (n + 1) uses) {k : κ} {v : ν} (hget : d.get? k = some v) :
    (d.moveToEnd k).Keeps (n + 1) ((k, v) :: uses) := by
  have hentries : (d.moveToEnd k).entries.reverse =
      (k, v) :: d.entries.reverse.filter fun e => e.1 ≠ k := by
    rw [entries_moveToEnd hget, List.reverse_append, List.filter_reverse]
    rfl
  -- without the key there is room for one more
  have hfits : (d.entries.reverse.filter fun e => e.1 ≠ k).length ≤ n := by
    have hmem : (k, v) ∈ d.entries.reverse := List.mem_reverse.mpr (mem_entries_iff.mpr hget)
    have hlt : (d.entries.reverse.filter fun e => e.1 ≠ k).length < d.entries.reverse.length :=
      List.length_filter_lt_length_iff_exists.mpr ⟨(k, v), hmem, by simp⟩
    have hle : d.entries.reverse.length ≤ n + 1 := by
      rw [h]
      exact List.length_take_le ..
    omega
  unfold Keeps at h ⊢
  rw [hentries, recent, List.take_succ_cons, ← take_filter_take (nodup_recent uses), ← h,
    List.take_of_length_le hfits]

/-- **A key is there** as long as fewer than `n` other keys have been used since its last
use. -/
theorem Keeps.get?_eq (h : d.Keeps n uses) (k : κ) :
    d.get? k = if (since uses k).card < n then uses.lookup k else none := by
  have hreverse : d.get? k = d.entries.reverse.lookup k :=
    (lookup_eq_of_perm (List.reverse_perm d.entries).symm d.nodup k).symm
  rw [hreverse, h, lookup_take, length_takeWhile_recent, lookup_recent]

end Dict

end Framework
