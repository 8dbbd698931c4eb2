import Mathlib.Data.List.Forall2

/-!
# What a computation ensures when it returns

`Ensures x P` is partial correctness of a computation `x : Except ε α`: a value that it
returns satisfies `P`. The rules follow the way `x` is written: `bind` for one step after
another, `pure` and `error` for its ends, `ite` for a choice, `mapM`, `foldlM` and `forM` for
the loops over a list. A proof about a function in `do` notation is the rules of its lines, in
their order; what a step ensures is looked up, not proved again.

`Raises x P` is the other half: an exception that `x` ends with satisfies `P`. Its rules are
of the same shapes; the rest of a sequence is looked at only where its beginning returns.
-/

namespace Framework

universe u v

variable {ε : Type u} {α β σ : Type v}

/-- What the computation returns satisfies the postcondition. -/
def Ensures (x : Except ε α) (P : α → Prop) : Prop := ∀ a, x = .ok a → P a

namespace Ensures

variable {x y : Except ε α} {f : α → Except ε β} {P Q : α → Prop} {R : β → Prop}

theorem mono (h : Ensures x P) (himp : ∀ a, P a → Q a) : Ensures x Q :=
  fun a ha => himp a (h a ha)

theorem pure {a : α} (h : P a) : Ensures (Except.ok a : Except ε α) P := by
  intro a' ha'
  obtain rfl := Except.ok.inj ha'
  exact h

theorem error {e : ε} : Ensures (Except.error e : Except ε α) P := by
  intro a ha
  simp at ha

/-- One step after another. The rest of the proof has the equation of the first. -/
theorem bind (h : ∀ a, x = .ok a → Ensures (f a) R) : Ensures (x >>= f) R := by
  intro b hb
  cases x with
  | error e => exact absurd hb (by simp [Bind.bind, Except.bind])
  | ok a => exact h a rfl b hb

/-- One step after another, where the first is known by what it ensures. -/
theorem andThen (hx : Ensures x P) (h : ∀ a, P a → Ensures (f a) R) : Ensures (x >>= f) R :=
  bind fun a ha => h a (hx a ha)

theorem map {g : α → β} (h : Ensures x fun a => R (g a)) : Ensures (g <$> x) R := by
  intro b hb
  cases x with
  | error e => exact absurd hb (by simp [Functor.map, Except.map])
  | ok a =>
    obtain rfl := Except.ok.inj hb
    exact h a rfl

theorem ite {c : Prop} [Decidable c] (hx : c → Ensures x P) (hy : ¬c → Ensures y P) :
    Ensures (if c then x else y) P := by
  split
  · next hc => exact hx hc
  · next hc => exact hy hc

/-- A loop that keeps an invariant ensures it. -/
theorem foldlM {I : σ → Prop} {step : σ → α → Except ε σ} {l : List α} {s : σ} (init : I s)
    (keeps : ∀ s, I s → ∀ a ∈ l, Ensures (step s a) I) : Ensures (l.foldlM step s) I := by
  induction l generalizing s with
  | nil => exact pure init
  | cons a l ih =>
    rw [List.foldlM_cons]
    refine andThen (keeps s init a List.mem_cons_self) fun s' hs' => ih hs' fun t ht b hb => ?_
    exact keeps t ht b (List.mem_cons_of_mem a hb)

/-- What is made of each item, in their order. -/
theorem mapM {S : α → β → Prop} {g : α → Except ε β} {l : List α}
    (h : ∀ a ∈ l, Ensures (g a) (S a)) : Ensures (l.mapM g) (List.Forall₂ S l) := by
  induction l with
  | nil => exact pure List.Forall₂.nil
  | cons a l ih =>
    rw [List.mapM_cons]
    refine andThen (h a List.mem_cons_self) fun b hb => ?_
    refine andThen (ih fun c hc => h c (List.mem_cons_of_mem a hc)) fun bs hbs => ?_
    exact pure (List.Forall₂.cons hb hbs)

/-- A loop of checks ensures each of them. -/
theorem forM {T : α → Prop} {check : α → Except ε PUnit} {l : List α}
    (h : ∀ a ∈ l, Ensures (check a) fun _ => T a) :
    Ensures (l.forM check) fun _ => ∀ a ∈ l, T a := by
  induction l with
  | nil => exact pure fun a ha => absurd ha List.not_mem_nil
  | cons a l ih =>
    change Ensures (check a >>= fun _ => l.forM check) _
    refine andThen (h a List.mem_cons_self) fun _ ha => ?_
    refine mono (ih fun b hb => h b (List.mem_cons_of_mem a hb)) fun _ hl b hb => ?_
    rcases List.mem_cons.mp hb with rfl | hb
    · exact ha
    · exact hl b hb

end Ensures

/-- What the computation raises satisfies the condition. -/
def Raises (x : Except ε α) (P : ε → Prop) : Prop := ∀ e, x = .error e → P e

namespace Raises

variable {x y : Except ε α} {f : α → Except ε β} {P Q : ε → Prop}

theorem mono (h : Raises x P) (himp : ∀ e, P e → Q e) : Raises x Q :=
  fun e he => himp e (h e he)

theorem pure {a : α} : Raises (Except.ok a : Except ε α) P := by
  intro e he
  simp at he

theorem error {e : ε} (h : P e) : Raises (Except.error e : Except ε α) P := by
  intro e' he'
  obtain rfl := Except.error.inj he'
  exact h

/-- One step after another. The second one has the equation of the first. -/
theorem bind (hx : Raises x P) (h : ∀ a, x = .ok a → Raises (f a) P) : Raises (x >>= f) P := by
  intro e he
  cases x with
  | error e' => exact hx e (congrArg _ (Except.error.inj he))
  | ok a => exact h a rfl e he

theorem map {g : α → β} (h : Raises x P) : Raises (g <$> x) P := by
  intro e he
  cases x with
  | error e' => exact h e (congrArg _ (Except.error.inj he))
  | ok a => exact absurd he (by simp [Functor.map, Except.map])

theorem ite {c : Prop} [Decidable c] (hx : c → Raises x P) (hy : ¬c → Raises y P) :
    Raises (if c then x else y) P := by
  split
  · next hc => exact hx hc
  · next hc => exact hy hc

/-- What is made of each item raises only this. -/
theorem mapM {g : α → Except ε β} {l : List α} (h : ∀ a ∈ l, Raises (g a) P) :
    Raises (l.mapM g) P := by
  induction l with
  | nil => exact pure
  | cons a l ih =>
    rw [List.mapM_cons]
    refine bind (h a List.mem_cons_self) fun b _ => ?_
    refine bind (ih fun c hc => h c (List.mem_cons_of_mem a hc)) fun bs _ => ?_
    exact pure

end Raises

end Framework
