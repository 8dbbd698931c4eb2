import Mathlib.Data.List.Basic
import Mathlib.Data.List.Range
import Mathlib.Order.MinMax

/-!
# Windows of a sparse sequence

A sequence with gaps is a partial function on the natural numbers. `window f a b` lists
its entries at the places `a, …, b - 1` in order. Windows that meet can be joined
(`window_append`), and cutting the entries at a place cuts the window
(`filter_window`).
-/

namespace Framework

variable {α : Type*} {f g : ℕ → Option α} {a b c : ℕ}

/-- The entries at the places from `a` up to `b`, without `b`. -/
def window (f : ℕ → Option α) (a b : ℕ) : List α := (List.range' a (b - a)).filterMap f

theorem window_of_le (h : b ≤ a) : window f a b = [] := by
  unfold window
  rw [Nat.sub_eq_zero_of_le h, List.range'_zero, List.filterMap_nil]

@[simp] theorem window_self : window f a a = [] := window_of_le le_rfl

theorem mem_window_iff {x : α} : x ∈ window f a b ↔ ∃ o, a ≤ o ∧ o < b ∧ f o = some x := by
  unfold window
  rw [List.mem_filterMap]
  refine exists_congr fun o => ?_
  rw [List.mem_range'_1, ← and_assoc]
  refine and_congr_left fun _ => and_congr_right fun _ => ?_
  omega

/-- Two windows that meet. -/
theorem window_append (hab : a ≤ b) (hbc : b ≤ c) :
    window f a b ++ window f b c = window f a c := by
  unfold window
  have hlength : c - a = (b - a) + (c - b) := by omega
  have hmeet : a + (b - a) = b := by omega
  rw [hlength, ← List.range'_append_1, hmeet, List.filterMap_append]

theorem window_eq_nil_iff : window f a b = [] ↔ ∀ o, a ≤ o → o < b → f o = none := by
  rw [List.eq_nil_iff_forall_not_mem]
  constructor
  · intro hnil o ha hb
    by_contra hsome
    obtain ⟨x, hx⟩ := Option.ne_none_iff_exists'.mp hsome
    exact hnil x (mem_window_iff.mpr ⟨o, ha, hb, hx⟩)
  · intro hnone x hx
    obtain ⟨o, ha, hb, ho⟩ := mem_window_iff.mp hx
    rw [hnone o ha hb] at ho
    simp at ho

/-- A window within an empty one. -/
theorem window_nil_of_nil {a' b' : ℕ} (h : window f a b = []) (ha : a ≤ a') (hb : b' ≤ b) :
    window f a' b' = [] :=
  window_eq_nil_iff.mpr fun o hao hob =>
    window_eq_nil_iff.mp h o (ha.trans hao) (hob.trans_le hb)

/-- Between the two places there is one entry, the last. -/
theorem window_succ {o : ℕ} {x : α} (hx : f o = some x) (ha : a ≤ o) (hnil : window f a o = []) :
    window f a (o + 1) = [x] := by
  have hlast : window f o (o + 1) = [x] := by
    unfold window
    rw [Nat.add_sub_cancel_left]
    simp [hx]
  rw [← window_append ha (Nat.le_succ o), hnil, hlast, List.nil_append]

theorem window_congr (h : ∀ o, a ≤ o → o < b → f o = g o) : window f a b = window g a b := by
  unfold window
  refine List.filterMap_congr fun o ho => ?_
  rw [List.mem_range'_1] at ho
  exact h o ho.1 (by omega)

/-- The entries of a window up to a place, where every entry knows its place. -/
theorem filter_window {key : α → ℕ} (hkey : ∀ o x, f o = some x → key x = o) (e : ℕ) :
    ((window f a b).filter fun x => key x < e) = window f a (min b e) := by
  rcases le_total (min b e) a with hle | hle
  · -- Nothing is below the place.
    rw [window_of_le hle, List.filter_eq_nil_iff]
    intro x hx
    obtain ⟨o, ha, hb, ho⟩ := mem_window_iff.mp hx
    have := hkey o x ho
    simp only [decide_eq_true_eq]
    omega
  · have hcut : window f a b = window f a (min b e) ++ window f (min b e) b :=
      (window_append hle (min_le_left b e)).symm
    rw [hcut, List.filter_append]
    have hkeep : ((window f a (min b e)).filter fun x => key x < e) = window f a (min b e) := by
      refine List.filter_eq_self.mpr fun x hx => ?_
      obtain ⟨o, -, hb, ho⟩ := mem_window_iff.mp hx
      have := hkey o x ho
      simp only [decide_eq_true_eq]
      omega
    have hdrop : ((window f (min b e) b).filter fun x => key x < e) = [] := by
      refine List.filter_eq_nil_iff.mpr fun x hx => ?_
      obtain ⟨o, ha, hb, ho⟩ := mem_window_iff.mp hx
      have := hkey o x ho
      simp only [decide_eq_true_eq]
      omega
    rw [hkeep, hdrop, List.append_nil]

/-- The entry of a place, where every entry knows its place. -/
theorem filter_window_eq {key : α → ℕ} (hkey : ∀ o x, f o = some x → key x = o) {o : ℕ} {x : α}
    (hx : f o = some x) (ha : a ≤ o) (hb : o < b) :
    ((window f a b).filter fun y => key y = o) = [x] := by
  have hdrop : ∀ c d, (∀ k, c ≤ k → k < d → k ≠ o) →
      ((window f c d).filter fun y => key y = o) = [] := by
    intro c d hne
    refine List.filter_eq_nil_iff.mpr fun y hy => ?_
    obtain ⟨k, hc, hd, hk⟩ := mem_window_iff.mp hy
    rw [decide_eq_true_eq, hkey k y hk]
    exact hne k hc hd
  have hcut : window f a b = window f a o ++ (window f o (o + 1) ++ window f (o + 1) b) := by
    rw [window_append (Nat.le_succ o) hb, window_append ha hb.le]
  have hone : window f o (o + 1) = [x] := window_succ hx le_rfl window_self
  rw [hcut, List.filter_append, List.filter_append, hone, hdrop a o fun k _ hk => hk.ne,
    hdrop (o + 1) b fun k hk _ => (Nat.lt_of_succ_le hk).ne']
  simp [hkey o x hx]

end Framework
