import Mathlib.Data.List.Basic

/-!
# Attribute lists

A message such as `n=user,r=nonce` lists attributes: names with values, separated by commas.
`render` writes a list of attributes and `parse` reads one. A name ends at the first equals
sign, so that a value may have equals signs; neither may have a comma.

What is read is what was written (`parse_eq_some_iff`), and a message that is put together
from two has the attributes of both (`parse_append`). An attribute therefore comes from one
place: no part of a message adds one to another part, as long as it has no comma.

The letters are arbitrary, and so are the two that separate.
-/

namespace Framework

namespace Attributes

variable {α : Type} [DecidableEq α] (comma equals : α)

/-- An attribute: its name, and its value. -/
abbrev Attribute (α : Type) := List α × List α

/-- The attribute of an item, which has an equals sign. -/
def ofItem (item : List α) : Option (Attribute α) :=
  match item.dropWhile (· ≠ equals) with
  | [] => none
  | _ :: value => some (item.takeWhile (· ≠ equals), value)

def item (a : Attribute α) : List α := a.1 ++ equals :: a.2

def parse (text : List α) : Option (List (Attribute α)) := (text.splitOn comma).mapM (ofItem equals)

def render (l : List (Attribute α)) : List α := [comma].intercalate (l.map (item equals))

/-- An attribute that can be written. -/
structure WellFormed (a : Attribute α) : Prop where
  equals_notMem : equals ∉ a.1
  comma_notMem : comma ∉ item equals a

variable {comma equals}

theorem ofItem_eq_some_iff {text : List α} {a : Attribute α} :
    ofItem equals text = some a ↔ equals ∉ a.1 ∧ text = item equals a := by
  obtain ⟨name, value⟩ := a
  have hspan := List.takeWhile_append_dropWhile (p := (· ≠ equals)) (l := text)
  constructor
  · intro h
    unfold ofItem at h
    split at h
    · exact absurd h (by simp)
    · next c rest hdrop =>
      obtain ⟨rfl, rfl⟩ := Prod.mk.inj (Option.some.inj h)
      -- what is dropped begins with the equals sign
      have hc : c = equals := by
        have hhead := List.head?_dropWhile_not (· ≠ equals) text
        rw [hdrop] at hhead
        simpa using hhead
      subst hc
      refine ⟨fun hmem => ?_, ?_⟩
      · have hne := List.all_eq_true.mp List.all_takeWhile _ hmem
        simp at hne
      · rw [item, ← hdrop]
        exact hspan.symm
  · rintro ⟨hname, rfl⟩
    have hpos : ∀ c ∈ name, decide (c ≠ equals) = true := by
      intro c hc
      rw [decide_eq_true_eq]
      rintro rfl
      exact hname hc
    unfold ofItem item
    dsimp only
    rw [List.dropWhile_append_of_pos hpos, List.takeWhile_append_of_pos hpos,
      List.dropWhile_cons_of_neg (by simp), List.takeWhile_cons_of_neg (by simp), List.append_nil]

theorem mapM_ofItem_eq_some_iff {pieces : List (List α)} {l : List (Attribute α)} :
    pieces.mapM (ofItem equals) = some l ↔
      (∀ a ∈ l, equals ∉ a.1) ∧ pieces = l.map (item equals) := by
  induction pieces generalizing l with
  | nil =>
    rw [List.mapM_nil, Option.pure_def, Option.some_inj]
    constructor
    · rintro rfl
      exact ⟨by simp, rfl⟩
    · rintro ⟨-, h⟩
      exact (List.map_eq_nil_iff.mp h.symm).symm
  | cons piece pieces ih =>
    rw [List.mapM_cons]
    simp only [Option.bind_eq_bind, Option.bind_eq_some_iff, ofItem_eq_some_iff, ih,
      Option.pure_def, Option.some_inj]
    constructor
    · rintro ⟨a, ⟨ha, rfl⟩, l, ⟨hl, rfl⟩, rfl⟩
      refine ⟨?_, rfl⟩
      rintro a' (_ | ⟨_, h⟩)
      exacts [ha, hl a' h]
    · rintro ⟨hall, h⟩
      cases l with
      | nil => exact absurd h (by simp)
      | cons a l =>
        obtain ⟨rfl, rfl⟩ := List.cons.inj h
        exact ⟨a, ⟨hall a List.mem_cons_self, rfl⟩, l,
          ⟨fun a' h => hall a' (List.mem_cons_of_mem _ h), rfl⟩, rfl⟩

omit [DecidableEq α] in
theorem WellFormed.comma_notMem_value {a : Attribute α} (h : WellFormed comma equals a) :
    comma ∉ a.2 :=
  fun hmem => h.comma_notMem (List.mem_append_right _ (List.mem_cons_of_mem _ hmem))

theorem comma_notMem_of_mem_splitOn {text piece : List α} (h : piece ∈ text.splitOn comma) :
    comma ∉ piece := by
  induction text generalizing piece with
  | nil =>
    obtain rfl := List.mem_singleton.mp h
    exact List.not_mem_nil
  | cons c text ih =>
    -- a separator begins a new piece, any other letter goes to the first one
    rw [List.splitOn_cons_eq_if_modifyHead] at h
    split at h
    · rcases List.mem_cons.mp h with rfl | h
      · exact List.not_mem_nil
      · exact ih h
    · next hc =>
      obtain ⟨first, later, hsplit⟩ := List.exists_cons_of_ne_nil (List.splitOn_ne_nil comma text)
      rw [hsplit] at ih h
      rcases List.mem_cons.mp h with rfl | h
      · refine List.not_mem_cons_of_ne_of_not_mem ?_ (ih List.mem_cons_self)
        rintro rfl
        simp at hc
      · exact ih (List.mem_cons_of_mem _ h)

/-- **What is read is what was written.** -/
theorem parse_eq_some_iff {text : List α} {l : List (Attribute α)} :
    parse comma equals text = some l ↔
      l ≠ [] ∧ (∀ a ∈ l, WellFormed comma equals a) ∧ text = render comma equals l := by
  rw [parse, mapM_ofItem_eq_some_iff]
  constructor
  · rintro ⟨hnames, hsplit⟩
    refine ⟨?_, fun a ha => ⟨hnames a ha, ?_⟩, ?_⟩
    · rintro rfl
      exact List.splitOn_ne_nil _ _ hsplit
    · have hpiece : item equals a ∈ text.splitOn comma := by
        rw [hsplit]
        exact List.mem_map_of_mem ha
      exact comma_notMem_of_mem_splitOn hpiece
    · rw [render, ← hsplit, List.intercalate_splitOn]
  · rintro ⟨hne, hwell, rfl⟩
    refine ⟨fun a ha => (hwell a ha).equals_notMem, List.splitOn_intercalate comma ?_ (by simpa)⟩
    intro piece hpiece
    obtain ⟨a, ha, rfl⟩ := List.mem_map.mp hpiece
    exact (hwell a ha).comma_notMem

theorem parse_render {l : List (Attribute α)} (hne : l ≠ [])
    (hwell : ∀ a ∈ l, WellFormed comma equals a) :
    parse comma equals (render comma equals l) = some l :=
  parse_eq_some_iff.mpr ⟨hne, hwell, rfl⟩

/-- The attributes of a message that is put together from two. -/
theorem parse_append {text text' : List α} {l l' : List (Attribute α)}
    (h : parse comma equals text = some l) (h' : parse comma equals text' = some l') :
    parse comma equals (text ++ comma :: text') = some (l ++ l') := by
  unfold parse at h h' ⊢
  rw [List.splitOn_append_cons_self, List.mapM_append, h, h']
  rfl

/-- One attribute has as many items as there are. -/
theorem length_splitOn {text : List α} {l : List (Attribute α)}
    (h : parse comma equals text = some l) : (text.splitOn comma).length = l.length := by
  rw [(mapM_ofItem_eq_some_iff.mp h).2, List.length_map]

omit [DecidableEq α] in
theorem render_cons_cons (a b : Attribute α) (l : List (Attribute α)) :
    render comma equals (a :: b :: l) =
      item equals a ++ comma :: render comma equals (b :: l) := by
  show [comma].intercalate (item equals a :: item equals b :: l.map (item equals)) = _
  rw [List.intercalate_cons_cons, List.append_assoc]
  rfl

omit [DecidableEq α] in
@[simp] theorem render_singleton (a : Attribute α) : render comma equals [a] = item equals a :=
  List.intercalate_singleton

end Attributes

end Framework
