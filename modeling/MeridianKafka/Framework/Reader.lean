import MeridianKafka.Framework.Stateful
import MeridianKafka.Framework.BigEndian

/-!
# Readers

A `Reader` goes through a list from the front. A `Reading` is a program that takes pieces
off it and may raise, in which case it may have taken some already.

`Parses x Fails G` says that `x` accepts exactly the pieces of the grammar `G`: from a reader
within its data, it returns `a` when what is left begins with a piece that `G` gives the
value `a`, and then it has moved behind this piece. Otherwise it raises one of `Fails`, and
is still within its data. There is one rule for each way to put a reading together, so that
the grammar of a reading is found by following its text.
-/

namespace Framework

/-- A list, and how much of it has been read. -/
structure Reader (β : Type) where
  data : List β
  offset : ℕ := 0

namespace Reader

variable {β : Type} (r : Reader β)

/-- What has not been read. -/
def rest : List β := r.data.drop r.offset

/-- Nothing behind the end has been read. -/
def Within : Prop := r.offset ≤ r.data.length

def skip (n : ℕ) : Reader β := { r with offset := r.offset + n }

@[simp] theorem skip_zero : r.skip 0 = r := rfl

@[simp] theorem skip_skip (m n : ℕ) : (r.skip m).skip n = r.skip (m + n) := by
  unfold skip
  rw [Nat.add_assoc]

@[simp] theorem rest_skip (n : ℕ) : (r.skip n).rest = r.rest.drop n := by
  rw [rest, rest, List.drop_drop]
  rfl

theorem length_rest : r.rest.length = r.data.length - r.offset := List.length_drop ..

variable {r}

theorem Within.skip (h : r.Within) {l : List β} (hl : l <+: r.rest) : (r.skip l.length).Within := by
  have hle := hl.length_le
  rw [length_rest] at hle
  have hwithin : r.offset ≤ r.data.length := h
  show r.offset + l.length ≤ r.data.length
  omega

end Reader

abbrev Reading (β ε : Type) := Stateful ε (Reader β)

namespace Reading

open Stateful

variable {β ε α γ : Type}

/-- The next `size` items. -/
def take (truncated : ε) (size : ℤ) : Reading β ε (List β) := do
  let r ← get
  if size < 0 ∨ r.offset + size > r.data.length then throw truncated
  else do
    set (r.skip size.toNat)
    return r.rest.take size.toNat

/-- Nothing is left. -/
def finish (unexpected : ε) : Reading β ε Unit := do
  let r ← get
  if r.offset ≠ r.data.length then throw unexpected else return ()

theorem run_take (truncated : ε) (size : ℤ) (r : Reader β) :
    run (take truncated size) r =
      if size < 0 ∨ r.offset + size > r.data.length then (.error truncated, r)
      else (.ok (r.rest.take size.toNat), r.skip size.toNat) := by
  unfold take
  rw [run_bind, run_get]
  dsimp only
  split <;> rfl

theorem run_finish (unexpected : ε) (r : Reader β) :
    run (finish unexpected) r =
      if r.offset ≠ r.data.length then (.error unexpected, r) else (.ok (), r) := by
  unfold finish
  rw [run_bind, run_get]
  dsimp only
  split <;> rfl

/-- A reading accepts the pieces of a grammar, and raises on all others. -/
structure Parses (x : Reading β ε α) (Fails : ε → Prop) (G : List β → α → Prop) : Prop where
  ok_iff : ∀ r : Reader β, r.Within → ∀ a r',
    run x r = (.ok a, r') ↔ ∃ l, G l a ∧ l <+: r.rest ∧ r' = r.skip l.length
  fails : ∀ r : Reader β, r.Within → ∀ e r',
    run x r = (.error e, r') → Fails e ∧ r'.Within ∧ r'.data = r.data

namespace Parses

variable {Fails : ε → Prop} {G : List β → α → Prop} {x : Reading β ε α}

/-- The grammar may be put in another way. -/
theorem congr (h : Parses x Fails G) {G' : List β → α → Prop} (same : ∀ l a, G l a ↔ G' l a) :
    Parses x Fails G' where
  ok_iff r hr a r' := by
    rw [h.ok_iff r hr]
    exact exists_congr fun l => and_congr_left fun _ => same l a
  fails := h.fails

/-- A failure may be put in a larger class. -/
theorem weaken (h : Parses x Fails G) {Fails' : ε → Prop} (weaker : ∀ e, Fails e → Fails' e) :
    Parses x Fails' G where
  ok_iff := h.ok_iff
  fails r hr e r' hrun := by
    obtain ⟨hfails, hrest⟩ := h.fails r hr e r' hrun
    exact ⟨weaker e hfails, hrest⟩

theorem pure (a : α) :
    Parses (Pure.pure a : Reading β ε α) Fails fun l a' => l = [] ∧ a' = a where
  ok_iff r _ a' r' := by
    rw [run_pure, Prod.mk.injEq, Except.ok.injEq]
    constructor
    · rintro ⟨rfl, rfl⟩
      exact ⟨[], ⟨rfl, rfl⟩, List.nil_prefix, rfl⟩
    · rintro ⟨l, ⟨rfl, rfl⟩, -, rfl⟩
      exact ⟨rfl, rfl⟩
  fails r _ e r' h := by simp at h

theorem throw {e : ε} (fails : Fails e) :
    Parses (MonadExcept.throw e : Reading β ε α) Fails fun _ _ => False where
  ok_iff r _ a r' := by simp
  fails r hr e' r' h := by
    rw [run_throw, Prod.mk.injEq, Except.error.injEq] at h
    obtain ⟨rfl, rfl⟩ := h
    exact ⟨fails, hr, rfl⟩

theorem bind {f : α → Reading β ε γ} {H : α → List β → γ → Prop} (first : Parses x Fails G)
    (later : ∀ a, Parses (f a) Fails (H a)) :
    Parses (x >>= f) Fails fun l c => ∃ l₁ l₂ a, l = l₁ ++ l₂ ∧ G l₁ a ∧ H a l₂ c where
  ok_iff r hr c r' := by
    rw [run_bind_eq_ok_iff]
    constructor
    · rintro ⟨a, r₁, hx, hf⟩
      obtain ⟨l₁, hl₁, hpre, rfl⟩ := (first.ok_iff r hr a r₁).mp hx
      obtain ⟨l₂, hl₂, hpre', rfl⟩ := ((later a).ok_iff _ (hr.skip hpre) c r').mp hf
      refine ⟨l₁ ++ l₂, ⟨l₁, l₂, a, rfl, hl₁, hl₂⟩, ?_, by simp⟩
      -- the second piece stands behind the first one
      obtain ⟨rest, hrest⟩ := hpre
      rw [Reader.rest_skip, ← hrest, List.drop_left] at hpre'
      rw [← hrest]
      exact List.prefix_append_right_inj _ |>.mpr hpre'
    · rintro ⟨_, ⟨l₁, l₂, a, rfl, hl₁, hl₂⟩, hpre, rfl⟩
      have hfirst : l₁ <+: r.rest := (List.prefix_append _ _).trans hpre
      refine ⟨a, _, (first.ok_iff r hr a _).mpr ⟨l₁, hl₁, hfirst, rfl⟩, ?_⟩
      refine ((later a).ok_iff _ (hr.skip hfirst) c _).mpr ⟨l₂, hl₂, ?_, by simp⟩
      obtain ⟨rest, hrest⟩ := hpre
      rw [Reader.rest_skip, ← hrest, List.append_assoc, List.drop_left]
      exact List.prefix_append _ _
  fails r hr e r' h := by
    rcases hx : run x r with ⟨e' | a, r₁⟩
    · rw [run_bind_of_error hx, Prod.mk.injEq, Except.error.injEq] at h
      obtain ⟨rfl, rfl⟩ := h
      exact first.fails r hr e' r₁ hx
    · rw [run_bind_of_ok hx] at h
      obtain ⟨l, -, hpre, rfl⟩ := (first.ok_iff r hr a r₁).mp hx
      exact (later a).fails _ (hr.skip hpre) e r' h

theorem ite {c : Prop} [Decidable c] {y : Reading β ε α} {H : List β → α → Prop}
    (pos : c → Parses x Fails G) (neg : ¬c → Parses y Fails H) :
    Parses (if c then x else y) Fails fun l a => if c then G l a else H l a := by
  by_cases hc : c
  · simp only [if_pos hc]
    exact pos hc
  · simp only [if_neg hc]
    exact neg hc

theorem take {truncated : ε} (fails : Fails truncated) (size : ℤ) :
    Parses (Reading.take (β := β) truncated size) Fails
      fun l a => a = l ∧ (l.length : ℤ) = size where
  ok_iff r hr a r' := by
    have hlength := r.length_rest
    have hwithin : r.offset ≤ r.data.length := hr
    rw [run_take]
    split
    · next hbad =>
      -- no piece of this size is left
      refine iff_of_false (by simp) ?_
      rintro ⟨l, ⟨rfl, rfl⟩, hpre, -⟩
      have := hpre.length_le
      omega
    · next hgood =>
      rw [Prod.mk.injEq, Except.ok.injEq]
      constructor
      · rintro ⟨rfl, rfl⟩
        have hsize : (r.rest.take size.toNat).length = size.toNat := by
          rw [List.length_take]
          omega
        refine ⟨_, ⟨rfl, ?_⟩, List.take_prefix _ _, by rw [hsize]⟩
        rw [hsize]
        omega
      · rintro ⟨l, ⟨rfl, rfl⟩, hpre, rfl⟩
        rw [Int.toNat_natCast]
        exact ⟨(List.prefix_iff_eq_take.mp hpre).symm, rfl⟩
  fails r hr e r' h := by
    rw [run_take] at h
    split at h
    · obtain ⟨he, rfl⟩ := Prod.mk.inj h
      obtain rfl := Except.error.inj he
      exact ⟨fails, hr, rfl⟩
    · simp at h

/-- **A reading of everything.** With `finish` behind it, a reading accepts exactly the lists
of its grammar; it raises on every other list, and never reads behind the end. -/
theorem run_all (h : Parses x Fails G) {unexpected : ε} (fails : Fails unexpected)
    (data : List β) :
    (∀ a, (run (do let a ← x; finish unexpected; return a) ⟨data, 0⟩).1 = .ok a ↔ G data a) ∧
      ((∃ a, (run (do let a ← x; finish unexpected; return a) ⟨data, 0⟩).1 = .ok a) ∨
        ∃ e, (run (do let a ← x; finish unexpected; return a) ⟨data, 0⟩).1 = .error e ∧
          Fails e) ∧
      ∃ n ≤ data.length,
        (run (do let a ← x; finish unexpected; return a) ⟨data, 0⟩).2 = ⟨data, n⟩ := by
  have hstart : (Reader.mk data 0).Within := Nat.zero_le _
  rcases hx : run x ⟨data, 0⟩ with ⟨e | a, r⟩
  · obtain ⟨hfails, hwithin, hdata⟩ := h.fails _ hstart e r hx
    rw [run_bind_of_error hx]
    refine ⟨fun a => iff_of_false (by simp) fun hG => ?_, Or.inr ⟨e, rfl, hfails⟩, r.offset, ?_, ?_⟩
    · have hok := (h.ok_iff _ hstart a _).mpr ⟨data, hG, List.prefix_rfl, rfl⟩
      rw [hx] at hok
      simp at hok
    · rw [← show r.data = data from hdata]
      exact hwithin
    · rw [← show r.data = data from hdata]
  · obtain ⟨l, hG, hpre, rfl⟩ := (h.ok_iff _ hstart a r).mp hx
    have hwithin : l.length ≤ data.length := hpre.length_le
    have hfinish : run (do finish unexpected; return a : Reading β ε α)
        ((Reader.mk data 0).skip l.length) =
          if l.length = data.length then (.ok a, ⟨data, l.length⟩)
          else (.error unexpected, ⟨data, l.length⟩) := by
      have hskip : (Reader.mk data 0).skip l.length = ⟨data, l.length⟩ :=
        congrArg (Reader.mk data) (Nat.zero_add _)
      rw [hskip, run_bind, run_finish]
      dsimp only
      by_cases heq : l.length = data.length
      · rw [if_neg (not_not.mpr heq), if_pos heq]
        rfl
      · rw [if_pos heq, if_neg heq]
    rw [run_bind_of_ok hx, hfinish]
    by_cases heq : l.length = data.length
    · -- everything has been read
      obtain rfl : l = data := hpre.eq_of_length heq
      rw [if_pos rfl]
      refine ⟨fun a' => ⟨fun ha => ?_, fun hG' => ?_⟩, Or.inl ⟨a, rfl⟩, l.length, hwithin, rfl⟩
      · obtain rfl := Except.ok.inj ha
        exact hG
      · have hok := (h.ok_iff _ hstart a' _).mpr ⟨l, hG', List.prefix_rfl, rfl⟩
        rw [hx, Prod.mk.injEq] at hok
        exact hok.1
    · -- if the grammar had all of the data, the reading would have gone through it
      rw [if_neg heq]
      refine ⟨fun a' => iff_of_false (by simp) fun hG' => heq ?_,
        Or.inr ⟨unexpected, rfl, fails⟩, l.length, hwithin, rfl⟩
      have hok := (h.ok_iff _ hstart a' _).mpr ⟨data, hG', List.prefix_rfl, rfl⟩
      rw [hx, Prod.mk.injEq] at hok
      have hoffset := congrArg Reader.offset hok.2
      simpa [Reader.skip] using hoffset

end Parses

end Reading

end Framework
