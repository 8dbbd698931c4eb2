import Mathlib.Data.Finset.Card
import Mathlib.Data.List.Nodup
import Mathlib.Data.List.Basic
import Mathlib.Data.List.Sort
import Mathlib.Order.Lattice

/-!
# Insertion-ordered dictionaries

`Dict κ ν` is a finite map that remembers the order in which its keys were
first written: the reading of a mapping in a language whose loops over a mapping
visit the keys in insertion order. Mathlib's `AList` carries the same
no-duplicate invariant but writes at the front, so the order of a loop over it
would not be the program's.

Every operation is described by what it does to `Dict.get?`, and the
descriptions are `simp` lemmas, so a user never looks at `entries`:

* `get?_set`, `get?_setdefault`, `get?_erase`, `get?_filter` for the writes;
* `get?_moveToEnd`, `get?_keepLast_moveToEnd` for a dictionary in the order of use;
* `mem_entries_iff` for the loops, which walk over `entries`.

`Dict.groupMin` is the one loop that is common enough to be stated here: the
least value that a list of pairs holds for each key.
-/

namespace Framework

/-- A finite map with the insertion order of its keys. -/
structure Dict (κ ν : Type*) where
  entries : List (κ × ν)
  /-- No key is written twice. -/
  nodup : (entries.map Prod.fst).Nodup

namespace Dict

variable {κ ν : Type*}

/-- The dictionary without entries. -/
def empty : Dict κ ν := ⟨[], List.nodup_nil⟩

instance : Inhabited (Dict κ ν) := ⟨empty⟩

instance [DecidableEq κ] [DecidableEq ν] : DecidableEq (Dict κ ν) := fun d e =>
  decidable_of_iff (d.entries = e.entries) (by
    cases d; cases e; simp)

/-- A dictionary is its entries. -/
theorem entries_injective {d e : Dict κ ν} (h : d.entries = e.entries) : d = e := by
  cases d
  cases e
  obtain rfl := h
  rfl

/-- The comprehension that keeps the entries satisfying `p`, in their order. -/
def filter (d : Dict κ ν) (p : κ × ν → Bool) : Dict κ ν :=
  ⟨d.entries.filter p, d.nodup.sublist (List.filter_sublist.map Prod.fst)⟩

/-- The keys, in insertion order. -/
def keys (d : Dict κ ν) : List κ := d.entries.map Prod.fst

variable [DecidableEq κ]

/-- The value stored under a key. -/
def get? (d : Dict κ ν) (k : κ) : Option ν := d.entries.lookup k

/-- The value stored under a key, or a default. -/
def getD (d : Dict κ ν) (k : κ) (v : ν) : ν := (d.get? k).getD v

/-- Remove a key, if it is there. -/
def erase (d : Dict κ ν) (k : κ) : Dict κ ν := d.filter fun e => e.1 ≠ k

/-- The entries are exactly the pairs that `get?` finds. -/
theorem mem_entries_iff {d : Dict κ ν} {k : κ} {v : ν} :
    (k, v) ∈ d.entries ↔ d.get? k = some v := by
  obtain ⟨l, hl⟩ := d
  unfold get?
  induction l with
  | nil => simp
  | cons e l ih =>
    obtain ⟨k', v'⟩ := e
    rw [List.map_cons, List.nodup_cons] at hl
    rw [List.mem_cons, List.lookup_cons]
    by_cases h : k = k'
    · subst h
      have hk : (k, v) ∉ l := fun hm => hl.1 (List.mem_map.mpr ⟨_, hm, rfl⟩)
      simp [hk, eq_comm]
    · rw [beq_eq_false_iff_ne.mpr h]
      simpa [h] using ih hl.2

theorem get?_isSome_iff {d : Dict κ ν} {k : κ} : (d.get? k).isSome ↔ k ∈ d.keys := by
  rw [Option.isSome_iff_exists, keys, List.mem_map]
  constructor
  · rintro ⟨v, hv⟩
    exact ⟨(k, v), mem_entries_iff.mpr hv, rfl⟩
  · rintro ⟨⟨k', v⟩, hm, rfl⟩
    exact ⟨v, mem_entries_iff.mp hm⟩

/-- A key that is not among the keys of a list is not found in it. -/
theorem lookup_eq_none {l : List (κ × ν)} {k : κ} (h : k ∉ l.map Prod.fst) :
    l.lookup k = none := by
  rw [List.lookup_eq_none_iff]
  intro e he
  refine bne_iff_ne.mpr fun heq => h ?_
  exact heq ▸ List.mem_map.mpr ⟨e, he, rfl⟩

/-- Which of the pairs comes first does not matter when no key is written twice. -/
theorem lookup_eq_of_perm {l l' : List (κ × ν)} (hperm : l.Perm l')
    (hl : (l.map Prod.fst).Nodup) (k : κ) : l'.lookup k = l.lookup k := by
  have hl' : (l'.map Prod.fst).Nodup := (hperm.map Prod.fst).nodup_iff.mp hl
  change (Dict.mk l' hl').get? k = (Dict.mk l hl).get? k
  refine Option.ext fun v => ?_
  rw [← mem_entries_iff, ← mem_entries_iff]
  exact hperm.symm.mem_iff

theorem lookup_map {β : Type*} (l : List (κ × ν)) (f : ν → β) (k : κ) :
    (l.map fun e => (e.1, f e.2)).lookup k = (l.lookup k).map f := by
  induction l with
  | nil => rfl
  | cons e l ih =>
    rw [List.map_cons, List.lookup_cons, List.lookup_cons, ih]
    cases k == e.1 <;> rfl

@[simp] theorem get?_empty (k : κ) : (empty : Dict κ ν).get? k = none := rfl

/-! ### Writing a key -/

private theorem nodup_overwrite (d : Dict κ ν) (k : κ) (v : ν) :
    ((d.entries.map fun e => if e.1 = k then (k, v) else e).map Prod.fst).Nodup := by
  have hfst : (Prod.fst ∘ fun e : κ × ν => if e.1 = k then (k, v) else e) = Prod.fst := by
    funext e
    by_cases h : e.1 = k <;> simp [h]
  rw [List.map_map, hfst]
  exact d.nodup

private theorem nodup_append_new {d : Dict κ ν} {k : κ} (v : ν) (h : ¬(d.get? k).isSome) :
    ((d.entries ++ [(k, v)]).map Prod.fst).Nodup := by
  rw [List.map_append, List.nodup_append]
  refine ⟨d.nodup, List.nodup_singleton _, ?_⟩
  rintro a ha b hb rfl
  obtain rfl : a = k := by simpa using hb
  exact h (get?_isSome_iff.mpr ha)

/-- Write a key: in place when the key is there, at the end otherwise. -/
def set (d : Dict κ ν) (k : κ) (v : ν) : Dict κ ν :=
  if h : (d.get? k).isSome then
    ⟨d.entries.map fun e => if e.1 = k then (k, v) else e, d.nodup_overwrite k v⟩
  else ⟨d.entries ++ [(k, v)], nodup_append_new v h⟩

/-- Write a key only when it is missing. -/
def setdefault (d : Dict κ ν) (k : κ) (v : ν) : Dict κ ν :=
  if (d.get? k).isSome then d else d.set k v

/-- The entries after a write: the new pair, and the old pairs of the other keys. -/
theorem mem_entries_set {d : Dict κ ν} {k k' : κ} {v v' : ν} :
    (k', v') ∈ (d.set k v).entries ↔
      (k' = k ∧ v' = v) ∨ (k' ≠ k ∧ (k', v') ∈ d.entries) := by
  unfold set
  split
  -- The key is there: its value is replaced where it stands.
  · next h =>
    rw [List.mem_map]
    constructor
    · rintro ⟨⟨k₀, v₀⟩, hm, he⟩
      by_cases hk : k₀ = k
      · rw [if_pos hk, Prod.mk.injEq] at he
        exact Or.inl ⟨he.1.symm, he.2.symm⟩
      · rw [if_neg hk, Prod.mk.injEq] at he
        obtain ⟨rfl, rfl⟩ := he
        exact Or.inr ⟨hk, hm⟩
    · rintro (⟨rfl, rfl⟩ | ⟨hk, hm⟩)
      · obtain ⟨v₀, hv₀⟩ := Option.isSome_iff_exists.mp h
        exact ⟨(k', v₀), mem_entries_iff.mpr hv₀, if_pos rfl⟩
      · exact ⟨(k', v'), hm, if_neg hk⟩
  -- The key is new, and is appended.
  · next h =>
    rw [List.mem_append, List.mem_singleton, Prod.mk.injEq]
    constructor
    · rintro (hm | hm)
      · refine Or.inr ⟨?_, hm⟩
        rintro rfl
        exact h (Option.isSome_iff_exists.mpr ⟨v', mem_entries_iff.mp hm⟩)
      · exact Or.inl hm
    · rintro (hm | ⟨-, hm⟩)
      · exact Or.inr hm
      · exact Or.inl hm

/-- A new key is written at the end. -/
theorem entries_set_of_fresh {d : Dict κ ν} {k : κ} {v : ν} (h : d.get? k = none) :
    (d.set k v).entries = d.entries ++ [(k, v)] := by
  unfold set
  rw [dif_neg (by simp [h])]

/-- Reading after a write. -/
theorem get?_set (d : Dict κ ν) (k k' : κ) (v : ν) :
    (d.set k v).get? k' = if k' = k then some v else d.get? k' := by
  ext w
  rw [← mem_entries_iff, mem_entries_set]
  split
  · next h => simp [h, eq_comm]
  · next h => simp [h, mem_entries_iff]

@[simp] theorem get?_set_self (d : Dict κ ν) (k : κ) (v : ν) : (d.set k v).get? k = some v := by
  rw [get?_set, if_pos rfl]

@[simp] theorem get?_set_of_ne (d : Dict κ ν) {k k' : κ} (v : ν) (h : k' ≠ k) :
    (d.set k v).get? k' = d.get? k' := by
  rw [get?_set, if_neg h]

/-- The dictionary that a loop over pairs writes. -/
def ofList (l : List (κ × ν)) : Dict κ ν := l.foldl (fun d e => d.set e.1 e.2) empty

private theorem get?_foldl_set {l : List (κ × ν)} (nodup : (l.map Prod.fst).Nodup) (d : Dict κ ν)
    (k : κ) :
    (l.foldl (fun d e => d.set e.1 e.2) d).get? k = (l.lookup k).or (d.get? k) := by
  induction l generalizing d with
  | nil => rfl
  | cons e l ih =>
    rw [List.map_cons, List.nodup_cons] at nodup
    rw [List.foldl_cons, ih nodup.2, get?_set, List.lookup_cons]
    by_cases hk : k = e.1
    · rw [if_pos hk, beq_iff_eq.mpr hk, hk, lookup_eq_none nodup.1]
      rfl
    · rw [if_neg hk, beq_eq_false_iff_ne.mpr hk]

/-- The dictionary with these pairs written over it. -/
def update (d : Dict κ ν) (l : List (κ × ν)) : Dict κ ν := l.foldl (fun d e => d.set e.1 e.2) d

/-- A key that is not among the pairs keeps what it had. -/
theorem get?_update_of_not_mem {l : List (κ × ν)} {k : κ} (h : k ∉ l.map Prod.fst)
    (d : Dict κ ν) : (d.update l).get? k = d.get? k := by
  unfold update
  induction l generalizing d with
  | nil => rfl
  | cons e l ih =>
    rw [List.map_cons, List.mem_cons, not_or] at h
    rw [List.foldl_cons, ih h.2, get?_set_of_ne d e.2 h.1]

/-- Pairs without a repeated key are written over what was there. -/
theorem get?_update {l : List (κ × ν)} (nodup : (l.map Prod.fst).Nodup) (d : Dict κ ν) (k : κ) :
    (d.update l).get? k = (l.lookup k).or (d.get? k) := get?_foldl_set nodup d k

/-- A pair that is written is found again. -/
theorem get?_update_of_mem {l : List (κ × ν)} (nodup : (l.map Prod.fst).Nodup) {k : κ} {v : ν}
    (h : (k, v) ∈ l) (d : Dict κ ν) : (d.update l).get? k = some v := by
  have hlookup : (Dict.mk l nodup).get? k = some v := mem_entries_iff.mp h
  rw [get?] at hlookup
  rw [get?_update nodup, hlookup, Option.some_or]

omit [DecidableEq κ] in
/-- Pairs of one key that have one value. -/
def Agree (l : List (κ × ν)) : Prop := ∀ k v w, (k, v) ∈ l → (k, w) ∈ l → v = w

/-- Pairs without a repeated key are all found again. -/
theorem get?_ofList {l : List (κ × ν)} (nodup : (l.map Prod.fst).Nodup) (k : κ) :
    (ofList l).get? k = l.lookup k := by
  rw [ofList, get?_foldl_set nodup, get?_empty, Option.or_none]

theorem get?_ofList_eq_some_iff {l : List (κ × ν)} (nodup : (l.map Prod.fst).Nodup) {k : κ}
    {v : ν} : (ofList l).get? k = some v ↔ (k, v) ∈ l := by
  rw [get?_ofList nodup]
  exact (show (k, v) ∈ (Dict.mk l nodup).entries ↔ _ from mem_entries_iff).symm

theorem mem_keys_ofList {l : List (κ × ν)} {k : κ} : k ∈ (ofList l).keys ↔ k ∈ l.map Prod.fst := by
  have hloop : ∀ d : Dict κ ν, ((l.foldl (fun d e => d.set e.1 e.2) d).get? k).isSome ↔
      (d.get? k).isSome ∨ k ∈ l.map Prod.fst := by
    induction l with
    | nil => simp
    | cons e l ih =>
      intro d
      rw [List.foldl_cons, ih, get?_set, List.map_cons, List.mem_cons]
      by_cases hk : k = e.1
      · simp [hk]
      · simp [hk]
  rw [← get?_isSome_iff, ofList, hloop]
  simp

/-- No entry is lost exactly when no key is repeated. -/
theorem length_entries_ofList_iff {l : List (κ × ν)} :
    (ofList l).entries.length = l.length ↔ (l.map Prod.fst).Nodup := by
  have hkeys : (ofList l).keys.toFinset = (l.map Prod.fst).toFinset := by
    ext k
    rw [List.mem_toFinset, List.mem_toFinset, mem_keys_ofList]
  have hlength : (ofList l).entries.length = (l.map Prod.fst).toFinset.card := by
    rw [← hkeys, keys, List.toFinset_card_of_nodup (ofList l).nodup, List.length_map]
  rw [hlength, ← List.length_map Prod.fst]
  exact Multiset.toFinset_card_eq_card_iff_nodup

theorem get?_setdefault (d : Dict κ ν) (k k' : κ) (v : ν) :
    (d.setdefault k v).get? k' = if k' = k then some ((d.get? k).getD v) else d.get? k' := by
  unfold setdefault
  by_cases hk : k' = k
  · subst hk
    rw [if_pos rfl]
    cases h : d.get? k' with
    | none => simp
    | some w => simp [h]
  · rw [if_neg hk]
    split
    · rfl
    · exact get?_set_of_ne d v hk

/-! ### Removing entries -/

/-- A comprehension that keeps a whole key. -/
@[simp] theorem filter_true_eq (x : Option ν) : (x.filter fun _ => true) = x := by
  cases x <;> rfl

/-- Reading after a comprehension. -/
@[simp] theorem get?_filter (d : Dict κ ν) (p : κ × ν → Bool) (k : κ) :
    (d.filter p).get? k = (d.get? k).filter fun v => p (k, v) := by
  ext v
  rw [← mem_entries_iff, filter, List.mem_filter, mem_entries_iff, Option.filter_eq_some_iff]

/-- The pairs of one key, picked out of the entries. -/
theorem filterMap_entries {β : Type*} (d : Dict κ ν) (k : κ) (f : ν → β) :
    (d.entries.filterMap fun e => if e.1 = k then some (f e.2) else none) =
      ((d.get? k).map f).toList := by
  obtain ⟨l, hl⟩ := d
  unfold get?
  induction l with
  | nil => rfl
  | cons e l ih =>
    obtain ⟨k', v⟩ := e
    rw [List.map_cons, List.nodup_cons] at hl
    rw [List.filterMap_cons, List.lookup_cons]
    by_cases h : k' = k
    · subst h
      -- no other entry is under the key
      have hrest : ∀ e ∈ l, e.1 ≠ k' := fun e he hk =>
        hl.1 (List.mem_map.mpr ⟨e, he, hk⟩)
      have hnil : (l.filterMap fun e => if e.1 = k' then some (f e.2) else none) = [] := by
        rw [List.filterMap_eq_nil_iff]
        exact fun e he => if_neg (hrest e he)
      simp [hnil]
    · rw [beq_eq_false_iff_ne.mpr (Ne.symm h)]
      simpa [h] using ih hl.2

theorem get?_erase (d : Dict κ ν) (k k' : κ) :
    (d.erase k).get? k' = if k' = k then none else d.get? k' := by
  rw [erase, get?_filter]
  by_cases h : k' = k
  · subst h
    cases d.get? k' <;> simp
  · cases d.get? k' <;> simp [h]

@[simp] theorem get?_erase_self (d : Dict κ ν) (k : κ) : (d.erase k).get? k = none := by
  rw [get?_erase, if_pos rfl]

@[simp] theorem get?_erase_of_ne (d : Dict κ ν) {k k' : κ} (h : k' ≠ k) :
    (d.erase k).get? k' = d.get? k' := by
  rw [get?_erase, if_neg h]

/-! ### The order of use

A dictionary may keep its keys in the order in which they were last used: `moveToEnd`
makes a key the newest one, and `keepLast` drops the oldest keys. -/

/-- A key that is there becomes the newest one. -/
def moveToEnd (d : Dict κ ν) (k : κ) : Dict κ ν :=
  match d.get? k with
  | none => d
  | some v => (d.erase k).set k v

omit [DecidableEq κ] in
/-- Drop the oldest keys until at most `n` are left. -/
def keepLast (d : Dict κ ν) (n : ℕ) : Dict κ ν :=
  ⟨d.entries.drop (d.entries.length - n), d.nodup.sublist ((List.drop_sublist ..).map Prod.fst)⟩

@[simp] theorem get?_moveToEnd (d : Dict κ ν) (k k' : κ) : (d.moveToEnd k).get? k' = d.get? k' := by
  unfold moveToEnd
  split
  · rfl
  next v hv =>
  rw [get?_set]
  split
  · next h => rw [h, hv]
  · next h => exact get?_erase_of_ne d h

/-- The key that is used last stands at the end. -/
theorem entries_moveToEnd {d : Dict κ ν} {k : κ} {v : ν} (h : d.get? k = some v) :
    (d.moveToEnd k).entries = (d.erase k).entries ++ [(k, v)] := by
  unfold moveToEnd
  rw [h]
  exact entries_set_of_fresh (get?_erase_self d k)

/-- What is kept was there. -/
theorem get?_of_keepLast {d : Dict κ ν} {n : ℕ} {k : κ} {v : ν}
    (h : (d.keepLast n).get? k = some v) : d.get? k = some v := by
  rw [← mem_entries_iff] at h ⊢
  exact List.mem_of_mem_drop h

omit [DecidableEq κ] in
/-- A dictionary that is small enough is kept whole. -/
theorem keepLast_of_le {d : Dict κ ν} {n : ℕ} (h : d.entries.length ≤ n) : d.keepLast n = d := by
  unfold keepLast
  congr 1
  rw [Nat.sub_eq_zero_of_le h, List.drop_zero]

/-- A dictionary has at most as many entries as there are keys for it. -/
theorem length_entries_le {d : Dict κ ν} {keys : Finset κ}
    (h : ∀ k, (d.get? k).isSome → k ∈ keys) : d.entries.length ≤ keys.card := by
  have hsub : d.keys.toFinset ⊆ keys := fun k hk =>
    h k (get?_isSome_iff.mpr (List.mem_toFinset.mp hk))
  calc
    d.entries.length = d.keys.length := (List.length_map _).symm
    _ = d.keys.toFinset.card := (List.toFinset_card_of_nodup d.nodup).symm
    _ ≤ keys.card := Finset.card_le_card hsub

/-- The key that was used last is kept. -/
theorem get?_keepLast_moveToEnd {d : Dict κ ν} {k : κ} {v : ν} (h : d.get? k = some v) (n : ℕ) :
    ((d.moveToEnd k).keepLast (n + 1)).get? k = some v := by
  have hkept : (k, v) ∈ (d.moveToEnd k).entries.drop
      ((d.moveToEnd k).entries.length - (n + 1)) := by
    rw [entries_moveToEnd h, List.length_append, List.length_singleton,
      Nat.add_sub_add_right, List.drop_append_of_le_length (Nat.sub_le ..)]
    exact List.mem_append_right _ List.mem_cons_self
  exact mem_entries_iff.mp hkept

/-! ### Filling a dictionary -/

section Filling

variable {κ ν μ ε : Type} [DecidableEq κ] (f : κ × ν → Except ε μ)

/-- The loop that stores what a check makes of each entry, under the key of the entry. -/
def fillFrom (d : Dict κ μ) (l : List (κ × ν)) : Except ε (Dict κ μ) :=
  l.foldlM (fun d e => do return d.set e.1 (← f e)) d

theorem fillFrom_cons (d : Dict κ μ) (e : κ × ν) (l : List (κ × ν)) :
    fillFrom f d (e :: l) = f e >>= fun v => fillFrom f (d.set e.1 v) l := by
  rw [fillFrom, List.foldlM_cons, bind_assoc]
  rfl

theorem fillFrom_eq_ok_iff {l : List (κ × ν)} (nodup : (l.map Prod.fst).Nodup) {d r : Dict κ μ}
    (fresh : ∀ e ∈ l, d.get? e.1 = none) :
    fillFrom f d l = .ok r ↔ ∃ stored, r.entries = d.entries ++ stored ∧
      List.Forall₂ (fun e out => out.1 = e.1 ∧ f e = .ok out.2) l stored := by
  induction l generalizing d with
  | nil =>
    simp only [fillFrom, List.foldlM_nil, pure, Except.pure, Except.ok.injEq,
      List.forall₂_nil_left_iff]
    constructor
    · rintro rfl
      exact ⟨[], (List.append_nil _).symm, rfl⟩
    · rintro ⟨_, hentries, rfl⟩
      rw [List.append_nil] at hentries
      exact (entries_injective hentries).symm
  | cons e l ih =>
    rw [List.map_cons, List.nodup_cons] at nodup
    rw [List.forall_mem_cons] at fresh
    rw [fillFrom_cons]
    cases hf : f e with
    | error raised =>
      refine iff_of_false (by simp [bind, Except.bind]) ?_
      rintro ⟨stored, -, hstored⟩
      obtain ⟨out, stored, ⟨-, hout⟩, -, rfl⟩ := List.forall₂_cons_left_iff.mp hstored
      rw [hf] at hout
      simp at hout
    | ok value =>
      -- the key of this entry is not among the later ones
      have hfresh : ∀ e' ∈ l, (d.set e.1 value).get? e'.1 = none := by
        intro e' he'
        have hne : e'.1 ≠ e.1 := fun heq => nodup.1 (heq ▸ List.mem_map_of_mem he')
        rw [get?_set_of_ne _ _ hne]
        exact fresh.2 e' he'
      refine (ih nodup.2 hfresh).trans ?_
      rw [entries_set_of_fresh fresh.1]
      constructor
      · rintro ⟨stored, hentries, hstored⟩
        refine ⟨(e.1, value) :: stored, ?_, .cons ⟨rfl, hf⟩ hstored⟩
        rw [hentries, List.append_assoc, List.singleton_append]
      · rintro ⟨stored, hentries, hstored⟩
        obtain ⟨⟨k, v⟩, stored, ⟨rfl, hout⟩, hrest, rfl⟩ := List.forall₂_cons_left_iff.mp hstored
        rw [hf, Except.ok.injEq] at hout
        refine ⟨stored, ?_, hrest⟩
        rw [hentries, List.append_assoc, List.singleton_append, hout]

/-- The loop raises what the first check raises that does. -/
theorem fillFrom_eq_error_iff {l : List (κ × ν)} {d : Dict κ μ} {raised : ε} :
    fillFrom f d l = .error raised ↔ ∃ before e later, l = before ++ e :: later ∧
      f e = .error raised ∧ ∀ e' ∈ before, ∃ v, f e' = .ok v := by
  induction l generalizing d with
  | nil =>
    refine iff_of_false (by simp [fillFrom, pure, Except.pure]) ?_
    rintro ⟨before, e, later, hnil, -⟩
    exact absurd hnil (by simp)
  | cons e l ih =>
    rw [fillFrom_cons]
    cases hf : f e with
    | error raised' =>
      show Except.error raised' = Except.error raised ↔ _
      constructor
      · intro h
        exact ⟨[], e, l, rfl, hf.trans (congrArg Except.error (Except.error.inj h)), by simp⟩
      · rintro ⟨before, e', later, heq, he', hbefore⟩
        cases before with
        | nil =>
          obtain ⟨rfl, rfl⟩ := List.cons.inj heq
          exact congrArg Except.error (Except.error.inj (hf.symm.trans he'))
        | cons e'' before =>
          obtain ⟨rfl, rfl⟩ := List.cons.inj heq
          obtain ⟨v, hv⟩ := hbefore e List.mem_cons_self
          rw [hf] at hv
          simp at hv
    | ok value =>
      refine Iff.trans (b := fillFrom f (d.set e.1 value) l = .error raised) Iff.rfl (ih.trans ?_)
      constructor
      · rintro ⟨before, e', later, rfl, he', hbefore⟩
        refine ⟨e :: before, e', later, rfl, he', ?_⟩
        rw [List.forall_mem_cons]
        exact ⟨⟨value, hf⟩, hbefore⟩
      · rintro ⟨before, e', later, heq, he', hbefore⟩
        cases before with
        | nil =>
          obtain ⟨rfl, rfl⟩ := List.cons.inj heq
          rw [hf] at he'
          simp at he'
        | cons e'' before =>
          obtain ⟨rfl, rfl⟩ := List.cons.inj heq
          rw [List.forall_mem_cons] at hbefore
          exact ⟨before, e', later, rfl, he', hbefore.2⟩

omit [DecidableEq κ] in
/-- Two lists of entries go together key by key. -/
theorem forall₂_entries_iff {P : κ × ν → μ → Prop} {l : List (κ × ν)} {l' : List (κ × μ)}
    (nodup : (l.map Prod.fst).Nodup) :
    List.Forall₂ (fun e out => out.1 = e.1 ∧ P e out.2) l l' ↔
      l'.map Prod.fst = l.map Prod.fst ∧ ∀ e ∈ l, ∃ v, (e.1, v) ∈ l' ∧ P e v := by
  induction l generalizing l' with
  | nil => simp
  | cons e l ih =>
    rw [List.map_cons, List.nodup_cons] at nodup
    rw [List.forall₂_cons_left_iff, List.forall_mem_cons]
    constructor
    · rintro ⟨⟨k, v⟩, l', ⟨rfl, hP⟩, hrest, rfl⟩
      obtain ⟨hkeys, hvalues⟩ := (ih nodup.2).mp hrest
      refine ⟨by rw [List.map_cons, List.map_cons, hkeys], ⟨v, List.mem_cons_self, hP⟩, ?_⟩
      intro e' he'
      obtain ⟨v', hmem, hP'⟩ := hvalues e' he'
      exact ⟨v', List.mem_cons_of_mem _ hmem, hP'⟩
    · rintro ⟨hkeys, ⟨v, hmem, hP⟩, hvalues⟩
      cases l' with
      | nil => exact absurd hkeys (by simp)
      | cons out l' =>
      rw [List.map_cons, List.map_cons, List.cons.injEq] at hkeys
      obtain ⟨hkey, hkeys⟩ := hkeys
      have hout : (e.1, v) = out := by
        refine (List.mem_cons.mp hmem).resolve_right fun hlater => nodup.1 ?_
        rw [← hkeys]
        exact List.mem_map_of_mem hlater
      subst hout
      refine ⟨_, l', ⟨rfl, hP⟩, (ih nodup.2).mpr ⟨hkeys, ?_⟩, rfl⟩
      intro e' he'
      obtain ⟨v', hmem', hP'⟩ := hvalues e' he'
      refine ⟨v', (List.mem_cons.mp hmem').resolve_left ?_, hP'⟩
      intro heq
      rw [← (Prod.mk.inj heq).1] at nodup
      exact nodup.1 (List.mem_map_of_mem he')

/-- The loop over a dictionary returns when each check does, and then it has their results. -/
theorem fill_eq_ok_iff {d : Dict κ ν} {r : Dict κ μ} :
    fillFrom f empty d.entries = .ok r ↔ r.keys = d.keys ∧
      ∀ k v, d.get? k = some v → ∃ out, r.get? k = some out ∧ f (k, v) = .ok out := by
  rw [fillFrom_eq_ok_iff f d.nodup fun _ _ => rfl]
  have hstored : (∃ stored, r.entries = (empty : Dict κ μ).entries ++ stored ∧
      List.Forall₂ (fun e out => out.1 = e.1 ∧ f e = .ok out.2) d.entries stored) ↔
      List.Forall₂ (fun e out => out.1 = e.1 ∧ f e = .ok out.2) d.entries r.entries := by
    constructor
    · rintro ⟨stored, hentries, hstored⟩
      rw [show r.entries = stored from hentries]
      exact hstored
    · intro h
      exact ⟨r.entries, rfl, h⟩
  refine hstored.trans
    ((forall₂_entries_iff (P := fun e v => f e = .ok v) d.nodup).trans (and_congr_right fun _ => ?_))
  rw [Prod.forall]
  refine forall₂_congr fun k v => ?_
  simp only [mem_entries_iff]

end Filling

/-! ### Sorting the entries -/

section Sorted

variable [LinearOrder κ]

/-- The same map with its keys in ascending order. -/
def sorted (d : Dict κ ν) : Dict κ ν :=
  ⟨d.entries.insertionSort fun a b => a.1 ≤ b.1,
    ((List.perm_insertionSort _ d.entries).map Prod.fst).nodup_iff.mpr d.nodup⟩

@[simp] theorem get?_sorted (d : Dict κ ν) (k : κ) : d.sorted.get? k = d.get? k := by
  ext v
  rw [← mem_entries_iff, ← mem_entries_iff]
  exact (List.perm_insertionSort _ d.entries).mem_iff

omit [DecidableEq κ] in
theorem pairwise_keys_sorted (d : Dict κ ν) : d.sorted.keys.Pairwise (· < ·) := by
  have hle : d.sorted.keys.Pairwise (· ≤ ·) :=
    List.pairwise_map.mpr (List.pairwise_insertionSort _ d.entries)
  exact (hle.and d.sorted.nodup).imp fun h => lt_of_le_of_ne h.1 h.2

omit [LinearOrder κ] in
/-- Maps that read the same have the same pairs. -/
theorem perm_entries_of_get?_eq {d d' : Dict κ ν} (h : ∀ k, d.get? k = d'.get? k) :
    d.entries.Perm d'.entries := by
  have hnodup : ∀ d : Dict κ ν, d.entries.Nodup := fun d => d.nodup.of_map
  refine (List.perm_ext_iff_of_nodup (hnodup d) (hnodup d')).mpr fun e => ?_
  obtain ⟨k, v⟩ := e
  rw [mem_entries_iff, mem_entries_iff, h]

/-- The order of the writes is gone after sorting. -/
theorem sorted_eq_of_get?_eq {d d' : Dict κ ν} (h : ∀ k, d.get? k = d'.get? k) :
    d.sorted = d'.sorted := by
  have hperm : d.sorted.entries.Perm d'.sorted.entries :=
    perm_entries_of_get?_eq fun k => by rw [get?_sorted, get?_sorted, h]
  have hsorted : ∀ d : Dict κ ν, d.sorted.entries.Pairwise fun a b => a.1 ≤ b.1 :=
    fun d => List.pairwise_insertionSort _ _
  have hentries : d.sorted.entries = d'.sorted.entries := by
    refine hperm.eq_of_pairwise ?_ (hsorted d) (hsorted d')
    rintro ⟨k, v⟩ ⟨k', v'⟩ hmem hmem' hle hle'
    obtain rfl := le_antisymm hle hle'
    rw [mem_entries_iff, get?_sorted] at hmem hmem'
    rw [h] at hmem
    obtain rfl := Option.some.inj (hmem.symm.trans hmem')
    rfl
  exact entries_injective hentries

end Sorted

/-! ### The least value of each key -/

section GroupMin

variable [LinearOrder ν]

/-- One turn of the grouping loop: lower the entry of the pair's key. -/
def lower (d : Dict κ ν) (e : κ × ν) : Dict κ ν := d.set e.1 (min e.2 (d.getD e.1 e.2))

/-- The least value that the list holds for each key, with the keys in the order
of their first pair. -/
def groupMin (l : List (κ × ν)) : Dict κ ν := l.foldl lower empty

/-- What the loop knows after a prefix `l`: an entry is a pair of the prefix and a
lower bound of the pairs with its key, and every pair of the prefix has an entry. -/
structure IsGroupMin (d : Dict κ ν) (l : List (κ × ν)) : Prop where
  mem : ∀ k v, d.get? k = some v → (k, v) ∈ l
  le : ∀ k v w, d.get? k = some v → (k, w) ∈ l → v ≤ w
  total : ∀ k w, (k, w) ∈ l → (d.get? k).isSome

theorem IsGroupMin.lower {d : Dict κ ν} {l : List (κ × ν)} (h : IsGroupMin d l) (e : κ × ν) :
    IsGroupMin (d.lower e) (l ++ [e]) := by
  obtain ⟨k₀, w₀⟩ := e
  -- The entry of the key is lowered, and the others are as they were.
  have hread : ∀ k, (d.lower (k₀, w₀)).get? k =
      if k = k₀ then some (min w₀ ((d.get? k₀).getD w₀)) else d.get? k := fun k => get?_set ..
  refine ⟨fun k v hv => ?_, fun k v w hv hw => ?_, fun k w hw => ?_⟩
  · rw [hread] at hv
    split at hv
    · next hk =>
      subst hk
      obtain rfl := Option.some.inj hv
      cases ho : d.get? k with
      | none => simp
      | some u =>
        rcases le_total w₀ u with hle | hle
        · simp [hle]
        · simp [hle, h.mem k u ho]
    · exact List.mem_append_left _ (h.mem k v hv)
  · rw [hread] at hv
    rw [List.mem_append, List.mem_singleton, Prod.mk.injEq] at hw
    split at hv
    · next hk =>
      subst hk
      obtain rfl := Option.some.inj hv
      rcases hw with hw | ⟨-, rfl⟩
      · obtain ⟨u, hu⟩ := Option.isSome_iff_exists.mp (h.total k w hw)
        rw [hu]
        exact (min_le_right _ _).trans (h.le k u w hu hw)
      · exact min_le_left _ _
    · next hk =>
      rcases hw with hw | ⟨rfl, -⟩
      · exact h.le k v w hv hw
      · exact absurd rfl hk
  · rw [hread]
    split
    · rfl
    · next hk =>
      rcases List.mem_append.mp hw with hw | hw
      · exact h.total k w hw
      · exact absurd (by simpa using hw : k = k₀ ∧ w = w₀).1 hk

private theorem isGroupMin_foldl (l l' : List (κ × ν)) (d : Dict κ ν) (h : IsGroupMin d l') :
    IsGroupMin (l.foldl lower d) (l' ++ l) := by
  induction l generalizing d l' with
  | nil => simpa using h
  | cons e l ih =>
    have hstep := ih (l' ++ [e]) (d.lower e) (h.lower e)
    rwa [List.append_assoc, List.singleton_append] at hstep

/-- The grouping loop finds the least value of each key. -/
theorem isGroupMin_groupMin (l : List (κ × ν)) : IsGroupMin (groupMin l) l :=
  isGroupMin_foldl l [] empty ⟨by simp, by simp, by simp⟩

end GroupMin

end Dict

end Framework
