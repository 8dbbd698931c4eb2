import MeridianKafka.Framework.Json
import Mathlib.Data.List.Perm.Subperm

/-!
# Equal JSON values

`Json.same` compares two values as mappings are compared: two objects are the same when they have
as many fields and each field of the first is found in the second with the same value. Booleans,
numbers and texts are kept apart, at every depth.

When no key is repeated, the sorted form of a value is a normal form for this equality
(`sorted_eq_iff_same`), and so is its text: two values without floating-point numbers have the
same compact, sorted text exactly when they are the same (`sorted_bytes_eq_iff_same`).
-/

namespace Framework

namespace Json

mutual

/-- No key is repeated in an object, at any depth. -/
def keysDistinct : Json → Bool
  | .arr items => keysDistinctItems items
  | .obj fields => (fields.map Prod.fst).Nodup && keysDistinctFields fields
  | .null => true
  | .bool _ => true
  | .int _ => true
  | .float _ => true
  | .str _ => true

def keysDistinctItems : List Json → Bool
  | [] => true
  | item :: items => item.keysDistinct && keysDistinctItems items

def keysDistinctFields : List (String × Json) → Bool
  | [] => true
  | (_, value) :: fields => value.keysDistinct && keysDistinctFields fields

end

mutual

/-- Two values are equal but for the order of the fields of their objects. -/
def same : Json → Json → Bool
  | .null, .null => true
  | .bool b, .bool b' => b = b'
  | .int n, .int n' => n = n'
  | .float bits, .float bits' => bits = bits'
  | .str text, .str text' => text = text'
  | .arr items, .arr items' => sameItems items items'
  | .obj fields, .obj fields' => fields.length = fields'.length && sameFields fields fields'
  | _, _ => false

def sameItems : List Json → List Json → Bool
  | [], [] => true
  | item :: items, item' :: items' => item.same item' && sameItems items items'
  | _, _ => false

/-- Each field is found among the other ones, with the same value. -/
def sameFields : List (String × Json) → List (String × Json) → Bool
  | [], _ => true
  | (key, value) :: fields, fields' =>
    (match fields'.lookup key with
      | some value' => value.same value'
      | none => false) && sameFields fields fields'

end

theorem keysDistinctItems_eq (items : List Json) :
    keysDistinctItems items = items.all keysDistinct := by
  induction items with
  | nil => rfl
  | cons item items ih => rw [keysDistinctItems, ih, List.all_cons]

theorem keysDistinctFields_eq (fields : List (String × Json)) :
    keysDistinctFields fields = fields.all fun f => f.2.keysDistinct := by
  induction fields with
  | nil => rfl
  | cons field fields ih => rw [keysDistinctFields, ih, List.all_cons]

theorem keysDistinct_obj {fields : List (String × Json)} :
    (Json.obj fields).keysDistinct = true ↔
      (fields.map Prod.fst).Nodup ∧ ∀ f ∈ fields, f.2.keysDistinct = true := by
  rw [keysDistinct, Bool.and_eq_true, decide_eq_true_eq, keysDistinctFields_eq, List.all_eq_true]

/-! ### Objects -/

/-- A field of an object without repeated keys. -/
theorem lookup_eq_some_iff {fields : List (String × Json)} (nodup : (fields.map Prod.fst).Nodup)
    {key : String} {value : Json} : fields.lookup key = some value ↔ (key, value) ∈ fields :=
  (show (key, value) ∈ (Dict.mk fields nodup).entries ↔ _ from Dict.mem_entries_iff).symm

/-- Two sorted objects are equal when they read the same, whatever key is looked up. -/
theorem sortFields_eq_iff_lookup {fields fields' : List (String × Json)}
    (nodup : (fields.map Prod.fst).Nodup) (nodup' : (fields'.map Prod.fst).Nodup) :
    sortFields fields = sortFields fields' ↔
      ∀ key, (fields.lookup key).map sorted = (fields'.lookup key).map sorted := by
  constructor
  · intro h key
    rw [← lookup_sortFields nodup, ← lookup_sortFields nodup', h]
  · intro h
    have hfst : ∀ l : List (String × Json),
        (l.map fun f => (f.1, f.2.sorted)).map Prod.fst = l.map Prod.fst := fun l => by
      rw [List.map_map]
      rfl
    have hget : ∀ key, (fields.map fun f => (f.1, f.2.sorted)).lookup key =
        (fields'.map fun f => (f.1, f.2.sorted)).lookup key := by
      intro key
      rw [Dict.lookup_map, Dict.lookup_map]
      exact h key
    exact congrArg Dict.entries (@Dict.sorted_eq_of_get?_eq _ _ _ _
      ⟨_, (hfst fields).symm ▸ nodup⟩ ⟨_, (hfst fields').symm ▸ nodup'⟩ hget)

/-- It is enough to count the fields and to look those of the first object up. -/
theorem sortFields_eq_iff_forall {fields fields' : List (String × Json)}
    (nodup : (fields.map Prod.fst).Nodup) (nodup' : (fields'.map Prod.fst).Nodup) :
    sortFields fields = sortFields fields' ↔ fields.length = fields'.length ∧
      ∀ f ∈ fields, ∃ value', fields'.lookup f.1 = some value' ∧ f.2.sorted = value'.sorted := by
  constructor
  · intro h
    have hlength := congrArg List.length h
    rw [(perm_sortFields fields).length_eq, (perm_sortFields fields').length_eq, List.length_map,
      List.length_map] at hlength
    refine ⟨hlength, fun f hf => ?_⟩
    have hread := (sortFields_eq_iff_lookup nodup nodup').mp h f.1
    rw [(lookup_eq_some_iff nodup).mpr hf, Option.map_some] at hread
    obtain ⟨value', hvalue', heq⟩ := Option.map_eq_some_iff.mp hread.symm
    exact ⟨value', hvalue', heq.symm⟩
  · rintro ⟨hlength, hall⟩
    -- the keys of the first object are keys of the second one, and there are as many of them
    have hsubset : fields.map Prod.fst ⊆ fields'.map Prod.fst := by
      intro key hkey
      obtain ⟨f, hf, rfl⟩ := List.mem_map.mp hkey
      obtain ⟨value', hvalue', -⟩ := hall f hf
      exact List.mem_map.mpr ⟨_, (lookup_eq_some_iff nodup').mp hvalue', rfl⟩
    have hperm : (fields.map Prod.fst).Perm (fields'.map Prod.fst) :=
      (List.subperm_of_subset nodup hsubset).perm_of_length_le (by simp [hlength])
    refine (sortFields_eq_iff_lookup nodup nodup').mpr fun key => ?_
    by_cases hkey : key ∈ fields.map Prod.fst
    · obtain ⟨f, hf, rfl⟩ := List.mem_map.mp hkey
      obtain ⟨value', hvalue', heq⟩ := hall f hf
      rw [(lookup_eq_some_iff nodup).mpr hf, hvalue', Option.map_some, Option.map_some, heq]
    · rw [Dict.lookup_eq_none hkey, Dict.lookup_eq_none fun h => hkey (hperm.mem_iff.mpr h)]

/-! ### The normal form -/

mutual

/-- **The sorted form is a normal form.** -/
theorem sorted_eq_iff_same : ∀ {v w : Json}, v.keysDistinct = true → w.keysDistinct = true →
    (v.sorted = w.sorted ↔ v.same w = true)
  | .null, w, _, _ => by cases w <;> simp [sorted, same]
  | .bool b, w, _, _ => by cases w <;> simp [sorted, same]
  | .int n, w, _, _ => by cases w <;> simp [sorted, same]
  | .float bits, w, _, _ => by cases w <;> simp [sorted, same]
  | .str text, w, _, _ => by cases w <;> simp [sorted, same]
  | .arr items, w, hv, hw => by
    cases w with
    | arr items' =>
      rw [sorted, sorted, Json.arr.injEq, same]
      exact sortedItems_eq_iff_same hv hw
    | null | bool | int | float | str | obj => simp [sorted, same]
  | .obj fields, w, hv, hw => by
    cases w with
    | obj fields' =>
      obtain ⟨nodup, hfields⟩ := keysDistinct_obj.mp hv
      obtain ⟨nodup', hfields'⟩ := keysDistinct_obj.mp hw
      rw [sorted_obj, sorted_obj, Json.obj.injEq, sortFields_eq_iff_forall nodup nodup', same,
        Bool.and_eq_true, decide_eq_true_eq]
      refine and_congr_right fun _ => (sameFields_iff hfields fun key value' h => ?_).symm
      exact hfields' _ ((lookup_eq_some_iff nodup').mp h)
    | null | bool | int | float | str | arr => simp [sorted, same]

theorem sortedItems_eq_iff_same : ∀ {items items' : List Json},
    keysDistinctItems items = true → keysDistinctItems items' = true →
      (sortedItems items = sortedItems items' ↔ sameItems items items' = true)
  | [], [], _, _ => by simp [sameItems]
  | [], _ :: _, _, _ => by simp [sortedItems, sameItems]
  | _ :: _, [], _, _ => by simp [sortedItems, sameItems]
  | item :: items, item' :: items', h, h' => by
    rw [keysDistinctItems, Bool.and_eq_true] at h h'
    rw [sortedItems, sortedItems, List.cons.injEq, sameItems, Bool.and_eq_true,
      sorted_eq_iff_same h.1 h'.1, sortedItems_eq_iff_same h.2 h'.2]

theorem sameFields_iff : ∀ {fields fields' : List (String × Json)},
    (∀ f ∈ fields, f.2.keysDistinct = true) →
    (∀ key value', fields'.lookup key = some value' → value'.keysDistinct = true) →
      (sameFields fields fields' = true ↔
        ∀ f ∈ fields, ∃ value', fields'.lookup f.1 = some value' ∧ f.2.sorted = value'.sorted)
  | [], _, _, _ => by simp [sameFields]
  | (key, value) :: fields, fields', h, h' => by
    have hvalue := h (key, value) List.mem_cons_self
    have hfields := fun f hf => h f (List.mem_cons_of_mem _ hf)
    rw [sameFields, Bool.and_eq_true, sameFields_iff hfields h', List.forall_mem_cons]
    refine and_congr_left fun _ => ?_
    cases hlookup : fields'.lookup key with
    | none => simp
    | some value' =>
      dsimp only
      rw [← sorted_eq_iff_same hvalue (h' key value' hlookup)]
      simp

end

/-- **The text of a value is a faithful key**: it tells the value apart from every other one. -/
theorem sorted_bytes_eq_iff_same {v w : Json} (free : v.floatFree = true)
    (free' : w.floatFree = true) (distinct : v.keysDistinct = true)
    (distinct' : w.keysDistinct = true) :
    v.sorted.bytes = w.sorted.bytes ↔ v.same w = true := by
  rw [← sorted_eq_iff_same distinct distinct']
  refine ⟨fun h => ?_, congrArg bytes⟩
  -- the bytes are read back
  have hread := ofBytes_bytes ((floatFree_sorted v).trans free)
  rw [h, ofBytes_bytes ((floatFree_sorted w).trans free')] at hread
  exact (Option.some.inj hread).symm

end Json

end Framework
