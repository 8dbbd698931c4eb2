import Mathlib.Init

/-!
# Programs that change a state and may raise

A `Stateful` program changes its state also when it raises. `run` is what it does from a
state, and the lemmas `run_*` are its equations.

`Agrees R x y` relates two programs over different states: from related states they give the
same answer and go to related states. It is a congruence for the ways in which programs are
put together, so that programs over primitives that agree agree themselves.
-/

namespace Framework

abbrev Stateful (ε σ : Type) := ExceptT ε (StateM σ)

namespace Stateful

variable {ε σ τ α β : Type}

/-- The answer of a program, and the state after it. -/
def run (x : Stateful ε σ α) (s : σ) : Except ε α × σ := StateT.run (ExceptT.run x) s

/-- An answer that is known already. -/
def ofExcept (x : Except ε α) : Stateful ε σ α := ExceptT.mk (pure x)

@[simp] theorem run_pure (a : α) (s : σ) : run (pure a : Stateful ε σ α) s = (.ok a, s) := rfl

@[simp] theorem run_throw (e : ε) (s : σ) : run (throw e : Stateful ε σ α) s = (.error e, s) := rfl

@[simp] theorem run_ofExcept (x : Except ε α) (s : σ) :
    run (ofExcept x : Stateful ε σ α) s = (x, s) := rfl

@[simp] theorem run_get (s : σ) : run (get : Stateful ε σ σ) s = (.ok s, s) := rfl

@[simp] theorem run_set (s s' : σ) : run (set s' : Stateful ε σ PUnit) s = (.ok ⟨⟩, s') := rfl

@[simp] theorem run_modify (f : σ → σ) (s : σ) :
    run (modify f : Stateful ε σ PUnit) s = (.ok ⟨⟩, f s) := rfl

theorem run_bind (x : Stateful ε σ α) (f : α → Stateful ε σ β) (s : σ) :
    run (x >>= f) s =
      match run x s with
      | (.ok a, s') => run (f a) s'
      | (.error e, s') => (.error e, s') := by
  show (match run x s with | (a, s') => StateT.run (ExceptT.bindCont f a) s') = _
  rcases run x s with ⟨e | a, s'⟩ <;> rfl

theorem run_bind_of_ok {x : Stateful ε σ α} {s s' : σ} {a : α} (h : run x s = (.ok a, s'))
    (f : α → Stateful ε σ β) : run (x >>= f) s = run (f a) s' := by
  rw [run_bind, h]

theorem run_bind_of_error {x : Stateful ε σ α} {s s' : σ} {e : ε} (h : run x s = (.error e, s'))
    (f : α → Stateful ε σ β) : run (x >>= f) s = (.error e, s') := by
  rw [run_bind, h]

/-- A program that returns has had its first part return. -/
theorem run_bind_eq_ok_iff {x : Stateful ε σ α} {f : α → Stateful ε σ β} {s s' : σ} {b : β} :
    run (x >>= f) s = (.ok b, s') ↔
      ∃ a s₁, run x s = (.ok a, s₁) ∧ run (f a) s₁ = (.ok b, s') := by
  rw [run_bind]
  rcases run x s with ⟨e | a, s₁⟩
  · simp
  · simp only [Prod.mk.injEq, Except.ok.injEq]
    constructor
    · intro h
      exact ⟨a, s₁, ⟨rfl, rfl⟩, h⟩
    · rintro ⟨a', s₁', ⟨rfl, rfl⟩, h⟩
      exact h

/-! ### Programs that agree -/

/-- From related states the programs give one answer and go to related states. -/
def Agrees (R : σ → τ → Prop) (x : Stateful ε σ α) (y : Stateful ε τ α) : Prop :=
  ∀ s t, R s t → (run x s).1 = (run y t).1 ∧ R (run x s).2 (run y t).2

namespace Agrees

variable {R : σ → τ → Prop}

theorem pure (a : α) : Agrees R (Pure.pure a : Stateful ε σ α) (Pure.pure a) :=
  fun _ _ related => ⟨rfl, related⟩

theorem throw (e : ε) : Agrees R (MonadExcept.throw e : Stateful ε σ α) (MonadExcept.throw e) :=
  fun _ _ related => ⟨rfl, related⟩

theorem ofExcept (x : Except ε α) :
    Agrees R (Stateful.ofExcept x : Stateful ε σ α) (Stateful.ofExcept x) :=
  fun _ _ related => ⟨rfl, related⟩

theorem bind {x : Stateful ε σ α} {y : Stateful ε τ α} {f : α → Stateful ε σ β}
    {g : α → Stateful ε τ β} (first : Agrees R x y) (later : ∀ a, Agrees R (f a) (g a)) :
    Agrees R (x >>= f) (y >>= g) := by
  intro s t related
  obtain ⟨hanswer, hstate⟩ := first s t related
  rw [run_bind, run_bind]
  generalize run x s = here, run y t = there at hanswer hstate ⊢
  rcases here with ⟨e | a, s'⟩ <;> rcases there with ⟨e' | a', t'⟩
  · obtain rfl := Except.error.inj hanswer
    exact ⟨rfl, hstate⟩
  · exact absurd hanswer (by simp)
  · exact absurd hanswer (by simp)
  · obtain rfl := Except.ok.inj hanswer
    exact later a s' t' hstate

theorem ite {c : Prop} [Decidable c] {x x' : Stateful ε σ α} {y y' : Stateful ε τ α}
    (pos : c → Agrees R x y) (neg : ¬c → Agrees R x' y') :
    Agrees R (if c then x else x') (if c then y else y') := by
  by_cases hc : c
  · rw [if_pos hc, if_pos hc]
    exact pos hc
  · rw [if_neg hc, if_neg hc]
    exact neg hc

end Agrees

end Stateful

end Framework
