import Mathlib.Data.Finset.Card
import Mathlib.Data.Finset.Max

/-!
# The frontier of a set of positions

A progress mark that may only move over positions already accounted for stops at
the first position that is missing. `IsFrontier A s n` says that `n` is that
position: everything from `s` up to `n` lies in `A`, and `n` does not.

`advance` is the loop that computes it and consumes the positions it passes:
while the mark is in the set, drop it and move on by one. `advance_spec` states
what the loop does; `IsFrontier.unique` makes the description complete.
-/

namespace Framework

/-- `n` is the first position at or above `s` that is not in `A`. -/
structure IsFrontier (A : Set ℕ) (s n : ℕ) : Prop where
  le : s ≤ n
  covered : ∀ k, s ≤ k → k < n → k ∈ A
  stops : n ∉ A

theorem IsFrontier.unique {A : Set ℕ} {s n m : ℕ} (hn : IsFrontier A s n)
    (hm : IsFrontier A s m) : n = m := by
  rcases lt_trichotomy n m with h | h | h
  · exact absurd (hm.covered n hn.le h) hn.stops
  · exact h
  · exact absurd (hn.covered m hm.le h) hm.stops

/-- A frontier does not pass a position that is missing. -/
theorem IsFrontier.le_of_notMem {A : Set ℕ} {s n k : ℕ} (hn : IsFrontier A s n)
    (hs : s ≤ k) (hk : k ∉ A) : n ≤ k := by
  by_contra hlt
  exact hk (hn.covered k hs (not_le.mp hlt))

/-- The frontier moves exactly when the mark itself is in the set. -/
theorem IsFrontier.lt_iff {A : Set ℕ} {s n : ℕ} (hn : IsFrontier A s n) : s < n ↔ s ∈ A := by
  refine ⟨fun h => hn.covered s le_rfl h, fun h => lt_of_le_of_ne hn.le ?_⟩
  rintro rfl
  exact hn.stops h

/-- The loop, with the number of turns it may still take. -/
def advanceLoop : ℕ → ℕ → Finset ℕ → ℕ × Finset ℕ
  | 0, s, A => (s, A)
  | fuel + 1, s, A => if s ∈ A then advanceLoop fuel (s + 1) (A.erase s) else (s, A)

/-- Move the mark `s` over the positions in `A`, dropping each of them. The loop
takes at most one turn per element. -/
def advance (s : ℕ) (A : Finset ℕ) : ℕ × Finset ℕ := advanceLoop A.card s A

private theorem advanceLoop_spec (fuel : ℕ) : ∀ (s : ℕ) (A : Finset ℕ), A.card ≤ fuel →
    IsFrontier (↑A : Set ℕ) s (advanceLoop fuel s A).1 ∧
    ∀ k, k ∈ (advanceLoop fuel s A).2 ↔ k ∈ A ∧ ¬(s ≤ k ∧ k < (advanceLoop fuel s A).1) := by
  induction fuel with
  | zero =>
    intro s A hA
    obtain rfl : A = ∅ := Finset.card_eq_zero.mp (Nat.le_zero.mp hA)
    refine ⟨⟨le_rfl, fun k h₁ h₂ => absurd h₂ (not_lt.mpr h₁), by simp⟩, fun k => ?_⟩
    simp [advanceLoop]
  | succ fuel ih =>
    intro s A hA
    unfold advanceLoop
    split
    · next hs =>
      -- Each turn takes one element out of the set, so the fuel suffices.
      have hcard : (A.erase s).card ≤ fuel := by
        rw [Finset.card_erase_of_mem hs]
        omega
      obtain ⟨hf, hmem⟩ := ih (s + 1) (A.erase s) hcard
      have hle := hf.le
      refine ⟨⟨by omega, fun k h₁ h₂ => ?_, fun h => ?_⟩, fun k => ?_⟩
      · rcases Nat.eq_or_lt_of_le h₁ with rfl | h
        · exact hs
        · exact Finset.mem_of_mem_erase (hf.covered k h h₂)
      · exact hf.stops (Finset.mem_coe.mpr (Finset.mem_erase.mpr ⟨by omega, h⟩))
      · rw [hmem, Finset.mem_erase]
        constructor
        · rintro ⟨⟨hne, hk⟩, hnot⟩
          exact ⟨hk, fun hlt => hnot ⟨by omega, hlt.2⟩⟩
        · rintro ⟨hk, hnot⟩
          refine ⟨⟨?_, hk⟩, fun hlt => hnot ⟨by omega, hlt.2⟩⟩
          rintro rfl
          exact hnot ⟨le_rfl, by omega⟩
    · next hs =>
      refine ⟨⟨le_rfl, fun k h₁ h₂ => absurd h₂ (not_lt.mpr h₁), by simpa using hs⟩, fun k => ?_⟩
      simp

/-- The loop ends at the frontier. -/
theorem advance_isFrontier (s : ℕ) (A : Finset ℕ) :
    IsFrontier (↑A : Set ℕ) s (advance s A).1 :=
  (advanceLoop_spec A.card s A le_rfl).1

/-- The loop consumes exactly the positions it passes. -/
theorem mem_advance (s : ℕ) (A : Finset ℕ) (k : ℕ) :
    k ∈ (advance s A).2 ↔ k ∈ A ∧ ¬(s ≤ k ∧ k < (advance s A).1) :=
  (advanceLoop_spec A.card s A le_rfl).2 k

end Framework
