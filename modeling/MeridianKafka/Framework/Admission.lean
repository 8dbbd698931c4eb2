import MeridianKafka.Framework.Ensures
import Mathlib.Data.List.Pairwise
import Mathlib.Data.List.Perm.Basic

/-!
# Entries that are admitted one by one

A pass reads the entries of a list one after another. It refuses an entry that cannot be
read or that clashes with one before it, and its state says only what is taken so far: a
set of names, a set of numbers, the results.

`Admission` relates such a pass to what each entry is read as, and to when two of them get
along. One step is described once, sound and complete; then the pass accepts a list exactly
when its entries are read and get along pairwise (`Admission.run`, `Admission.exists_run`).
Where getting along is symmetric, this holds of every reordering too (`Admitted.perm`).
-/

namespace Framework

universe u v

variable {ε : Type u} {α β σ : Type v}

/-- Entries that are read and that get along pairwise. -/
structure Admitted (Reads : α → β → Prop) (Apart : β → β → Prop) (l : List α) (bs : List β) :
    Prop where
  reads : List.Forall₂ Reads l bs
  apart : bs.Pairwise Apart

private theorem exists_of_mem_right {R : α → β → Prop} {l : List α} {bs : List β}
    (h : List.Forall₂ R l bs) {b : β} (hb : b ∈ bs) : ∃ a ∈ l, R a b := by
  induction h with
  | nil => exact absurd hb List.not_mem_nil
  | @cons a c l bs hread _ ih =>
    obtain rfl | hb := List.mem_cons.mp hb
    · exact ⟨a, List.mem_cons_self, hread⟩
    · obtain ⟨a', ha', hread'⟩ := ih hb
      exact ⟨a', List.mem_cons_of_mem a ha', hread'⟩

section Admitted

variable {Reads : α → β → Prop} {Apart : β → β → Prop} {l l' : List α} {bs : List β}

theorem Admitted.exists_entry (admitted : Admitted Reads Apart l bs) {b : β} (h : b ∈ bs) :
    ∃ a ∈ l, Reads a b := exists_of_mem_right admitted.reads h

theorem Admitted.exists_reading (admitted : Admitted Reads Apart l bs) {a : α} (h : a ∈ l) :
    ∃ b ∈ bs, Reads a b := exists_of_mem_right admitted.reads.flip h

/-- Two readings of which one is not apart from the other are the same. -/
theorem Admitted.eq_of_not_apart [Std.Symm Apart] (admitted : Admitted Reads Apart l bs)
    {b c : β} (hb : b ∈ bs) (hc : c ∈ bs) (h : ¬Apart b c) : b = c := by
  by_contra hne
  exact h (admitted.apart.forall hb hc hne)

/-- **The order of the entries does not matter** where getting along is symmetric. -/
theorem Admitted.perm [Std.Symm Apart] (admitted : Admitted Reads Apart l bs)
    (hperm : l'.Perm l) : ∃ bs', Admitted Reads Apart l' bs' ∧ bs'.Perm bs := by
  obtain ⟨bs', hreads, hbs⟩ := List.perm_comp_forall₂ hperm admitted.reads
  exact ⟨bs', ⟨hreads, (hbs.pairwise_iff (symm_of Apart)).mpr admitted.apart⟩, hbs⟩

end Admitted

/-- A step that reads an entry and admits it when it gets along with those that the state
holds. -/
structure Admission (step : σ → α → Except ε σ) (Reads : α → β → Prop) (Apart : β → β → Prop)
    (Holds : σ → List β → Prop) : Prop where
  sound : ∀ {s seen a s'}, Holds s seen → step s a = .ok s' →
    ∃ b, Reads a b ∧ (∀ c ∈ seen, Apart c b) ∧ Holds s' (seen ++ [b])
  complete : ∀ {s seen a b}, Holds s seen → Reads a b → (∀ c ∈ seen, Apart c b) →
    ∃ s', step s a = .ok s' ∧ Holds s' (seen ++ [b])

namespace Admission

variable {step : σ → α → Except ε σ} {Reads : α → β → Prop} {Apart : β → β → Prop}
  {Holds : σ → List β → Prop}

/-- An entry that gets along with those before it keeps them apart pairwise. -/
theorem pairwise_concat {seen : List β} {b : β} (h : seen.Pairwise Apart)
    (hb : ∀ c ∈ seen, Apart c b) : (seen ++ [b]).Pairwise Apart := by
  refine List.pairwise_append.mpr ⟨h, List.pairwise_singleton _ _, fun c hc d hd => ?_⟩
  obtain rfl := List.mem_singleton.mp hd
  exact hb c hc

/-- What is read of the entries gets along with what the state held before. -/
theorem run_from (admission : Admission step Reads Apart Holds) {l : List α} {s s' : σ}
    {seen : List β} (holds : Holds s seen) (apart : seen.Pairwise Apart)
    (h : l.foldlM step s = .ok s') :
    ∃ bs, List.Forall₂ Reads l bs ∧ (seen ++ bs).Pairwise Apart ∧ Holds s' (seen ++ bs) := by
  induction l generalizing s seen with
  | nil =>
    obtain rfl := Except.ok.inj h
    refine ⟨[], .nil, ?_⟩
    rw [List.append_nil]
    exact ⟨apart, holds⟩
  | cons a l ih =>
    rw [List.foldlM_cons] at h
    cases hstep : step s a with
    | error e =>
      rw [hstep] at h
      exact nomatch h
    | ok s₁ =>
      rw [hstep] at h
      obtain ⟨b, hread, hb, hholds⟩ := admission.sound holds hstep
      -- The pass goes on from a state that holds one reading more.
      obtain ⟨bs, hreads, hapart, hlast⟩ := ih hholds (pairwise_concat apart hb) h
      rw [List.append_assoc] at hapart hlast
      exact ⟨b :: bs, .cons hread hreads, hapart, hlast⟩

theorem exists_run_from (admission : Admission step Reads Apart Holds) {l : List α} {bs : List β}
    (reads : List.Forall₂ Reads l bs) {s : σ} {seen : List β} (holds : Holds s seen)
    (apart : (seen ++ bs).Pairwise Apart) :
    ∃ s', l.foldlM step s = .ok s' ∧ Holds s' (seen ++ bs) := by
  induction reads generalizing s seen with
  | nil =>
    refine ⟨s, rfl, ?_⟩
    rwa [List.append_nil]
  | @cons a b l bs hread _ ih =>
    -- What is held comes before what is still to be read.
    have hb : ∀ c ∈ seen, Apart c b := fun c hc =>
      (List.pairwise_append.mp apart).2.2 c hc b List.mem_cons_self
    obtain ⟨s₁, hstep, hholds⟩ := admission.complete holds hread hb
    rw [← List.singleton_append, ← List.append_assoc] at apart
    obtain ⟨s', hrest, hlast⟩ := ih hholds apart
    refine ⟨s', ?_, ?_⟩
    · rw [List.foldlM_cons, hstep]
      exact hrest
    · rwa [List.append_assoc, List.singleton_append] at hlast

/-- **What a pass accepts is admitted**, and the state holds it. -/
theorem run (admission : Admission step Reads Apart Holds) {l : List α} {s₀ s : σ}
    (holds : Holds s₀ []) (h : l.foldlM step s₀ = .ok s) :
    ∃ bs, Admitted Reads Apart l bs ∧ Holds s bs := by
  obtain ⟨bs, reads, apart, hlast⟩ := admission.run_from holds .nil h
  exact ⟨bs, ⟨reads, apart⟩, hlast⟩

/-- **What is admitted is accepted** by the pass. -/
theorem exists_run (admission : Admission step Reads Apart Holds) {l : List α} {bs : List β}
    {s₀ : σ} (holds : Holds s₀ []) (admitted : Admitted Reads Apart l bs) :
    ∃ s, l.foldlM step s₀ = .ok s ∧ Holds s bs :=
  admission.exists_run_from admitted.reads holds admitted.apart

end Admission

end Framework
