import MeridianKafka.Framework.Stateful

/-!
# Programs and the steps they take

A program over a state takes steps, and what it has done is the list of these. There are two
ways to say which lists a program may go through.

`Takes Step x G` is exact and speaks of the runs that return: `x` returns `a` and goes from one
state to another exactly when steps that the grammar `G` gives the value `a` lead from the one
to the other (`Leads`).

`Moves R Step a b x` speaks of every run: whatever `x` ends with, it has left a list between its
states that leads an automaton on from `a`, and to `b` if it has returned. `R` may be any relation
that can be put together along an append.

For both there is one rule for each way to put a program together.
-/

namespace Framework

namespace Stateful

variable {κ ε σ τ α β : Type}

/-- The steps lead from a state to another one, one after the other. -/
def Leads (Step : κ → σ → σ → Prop) : List κ → σ → σ → Prop
  | [], s, s' => s' = s
  | k :: ks, s, s' => ∃ s₁, Step k s s₁ ∧ Leads Step ks s₁ s'

section Leads

variable {Step : κ → σ → σ → Prop}

@[simp] theorem leads_nil {s s' : σ} : Leads Step [] s s' ↔ s' = s := Iff.rfl

theorem leads_cons {k : κ} {ks : List κ} {s s' : σ} :
    Leads Step (k :: ks) s s' ↔ ∃ s₁, Step k s s₁ ∧ Leads Step ks s₁ s' := Iff.rfl

@[simp] theorem leads_singleton {k : κ} {s s' : σ} : Leads Step [k] s s' ↔ Step k s s' := by
  constructor
  · rintro ⟨s₁, hstep, rfl⟩
    exact hstep
  · intro hstep
    exact ⟨s', hstep, rfl⟩

theorem leads_append {ks ls : List κ} {s s' : σ} :
    Leads Step (ks ++ ls) s s' ↔ ∃ s₁, Leads Step ks s s₁ ∧ Leads Step ls s₁ s' := by
  induction ks generalizing s with
  | nil =>
    constructor
    · intro h
      exact ⟨s, rfl, h⟩
    · rintro ⟨s₁, rfl, h⟩
      exact h
  | cons k ks ih =>
    constructor
    · rintro ⟨s₁, hstep, hrest⟩
      obtain ⟨s₂, hks, hls⟩ := ih.mp hrest
      exact ⟨s₂, ⟨s₁, hstep, hks⟩, hls⟩
    · rintro ⟨s₂, ⟨s₁, hstep, hks⟩, hls⟩
      exact ⟨s₁, hstep, ih.mpr ⟨s₂, hks, hls⟩⟩

theorem Leads.mono {ks : List κ} {s s' : σ} (h : Leads Step ks s s') {Step' : κ → σ → σ → Prop}
    (weaker : ∀ k s s', Step k s s' → Step' k s s') : Leads Step' ks s s' := by
  induction ks generalizing s with
  | nil => exact h
  | cons k ks ih =>
    obtain ⟨s₁, hstep, hrest⟩ := h
    exact ⟨s₁, weaker k s s₁ hstep, ih hrest⟩

theorem Leads.exists_step_of_mem {ks : List κ} {s s' : σ} (h : Leads Step ks s s') {k : κ}
    (hk : k ∈ ks) : ∃ s₁ s₂, Step k s₁ s₂ := by
  induction ks generalizing s with
  | nil => exact absurd hk List.not_mem_nil
  | cons k' ks ih =>
    obtain ⟨s₁, hstep, hrest⟩ := h
    rcases List.mem_cons.mp hk with rfl | hk
    · exact ⟨s, s₁, hstep⟩
    · exact ih hrest hk

end Leads

/-! ### The runs that return -/

/-- The program returns exactly after the steps of the grammar. -/
def Takes (Step : κ → σ → σ → Prop) (x : Stateful ε σ α) (G : List κ → α → Prop) : Prop :=
  ∀ s a s', run x s = (.ok a, s') ↔ ∃ ks, G ks a ∧ Leads Step ks s s'

namespace Takes

variable {Step : κ → σ → σ → Prop} {x : Stateful ε σ α} {G : List κ → α → Prop}

/-- The grammar may be put in another way. -/
theorem congr (h : Takes Step x G) {G' : List κ → α → Prop} (same : ∀ ks a, G ks a ↔ G' ks a) :
    Takes Step x G' := by
  intro s a s'
  rw [h s a s']
  exact exists_congr fun ks => and_congr_left fun _ => same ks a

theorem ofExcept (answer : Except ε α) :
    Takes Step (Stateful.ofExcept answer) fun ks a => ks = [] ∧ answer = .ok a := by
  intro s a s'
  rw [run_ofExcept, Prod.mk.injEq]
  constructor
  · rintro ⟨h, rfl⟩
    exact ⟨[], ⟨rfl, h⟩, rfl⟩
  · rintro ⟨ks, ⟨rfl, h⟩, rfl⟩
    exact ⟨h, rfl⟩

theorem pure (a : α) :
    Takes Step (Pure.pure a : Stateful ε σ α) fun ks a' => ks = [] ∧ a' = a := by
  refine (ofExcept (.ok a)).congr fun ks a' => and_congr_right fun _ => ?_
  rw [Except.ok.injEq]
  exact eq_comm

theorem throw (e : ε) :
    Takes Step (MonadExcept.throw e : Stateful ε σ α) fun _ _ => False := by
  refine (ofExcept (.error e)).congr fun ks a => iff_of_false ?_ id
  rintro ⟨-, h⟩
  simp at h

theorem bind {f : α → Stateful ε σ β} {H : α → List κ → β → Prop} (first : Takes Step x G)
    (later : ∀ a, Takes Step (f a) (H a)) :
    Takes Step (x >>= f) fun ks b => ∃ ks₁ ks₂ a, ks = ks₁ ++ ks₂ ∧ G ks₁ a ∧ H a ks₂ b := by
  intro s b s'
  rw [run_bind_eq_ok_iff]
  constructor
  · rintro ⟨a, s₁, hx, hf⟩
    obtain ⟨ks₁, hG, hleads⟩ := (first s a s₁).mp hx
    obtain ⟨ks₂, hH, hleads'⟩ := (later a s₁ b s').mp hf
    exact ⟨ks₁ ++ ks₂, ⟨ks₁, ks₂, a, rfl, hG, hH⟩, leads_append.mpr ⟨s₁, hleads, hleads'⟩⟩
  · rintro ⟨_, ⟨ks₁, ks₂, a, rfl, hG, hH⟩, hleads⟩
    obtain ⟨s₁, hleads, hleads'⟩ := leads_append.mp hleads
    exact ⟨a, s₁, (first s a s₁).mpr ⟨ks₁, hG, hleads⟩,
      (later a s₁ b s').mpr ⟨ks₂, hH, hleads'⟩⟩

theorem ite {c : Prop} [Decidable c] {y : Stateful ε σ α} {H : List κ → α → Prop}
    (pos : c → Takes Step x G) (neg : ¬c → Takes Step y H) :
    Takes Step (if c then x else y) fun ks a => if c then G ks a else H ks a := by
  by_cases hc : c
  · simp only [if_pos hc]
    exact pos hc
  · simp only [if_neg hc]
    exact neg hc

end Takes

/-! ### Every run -/

/-- Lists are put together along an append, and an empty one is left where nothing happens. -/
structure Composes (R : List κ → σ → σ → Prop) : Prop where
  refl : ∀ s, R [] s s
  append : ∀ {ks ls s s₁ s'}, R ks s s₁ → R ls s₁ s' → R (ks ++ ls) s s'

/-- Whatever the program ends with, it has left a list that leads an automaton on from `a`, and
to `b` if it has returned. -/
def Moves (R : List κ → σ → σ → Prop) (Step : κ → τ → τ → Prop) (a b : τ)
    (x : Stateful ε σ α) : Prop :=
  ∀ s, ∃ ks t, R ks s (run x s).2 ∧ Leads Step ks a t ∧ ∀ v, (run x s).1 = .ok v → t = b

namespace Moves

variable {R : List κ → σ → σ → Prop} {Step : κ → τ → τ → Prop} {a b c : τ} {x : Stateful ε σ α}

theorem ofExcept (composes : Composes R) (answer : Except ε α) :
    Moves R Step a a (Stateful.ofExcept answer) :=
  fun s => ⟨[], a, composes.refl s, rfl, fun _ _ => rfl⟩

theorem pure (composes : Composes R) (v : α) :
    Moves R Step a a (Pure.pure v : Stateful ε σ α) :=
  ofExcept composes (.ok v)

theorem throw (composes : Composes R) (e : ε) :
    Moves R Step a b (MonadExcept.throw e : Stateful ε σ α) := by
  intro s
  refine ⟨[], a, composes.refl s, rfl, ?_⟩
  intro v h
  simp at h

/-- What the first part has left stays there when it raises. -/
theorem bind (composes : Composes R) {f : α → Stateful ε σ β} (first : Moves R Step a b x)
    (later : ∀ v, Moves R Step b c (f v)) : Moves R Step a c (x >>= f) := by
  intro s
  obtain ⟨ks, t, hR, hleads, hreturned⟩ := first s
  rcases hx : run x s with ⟨e | v, s₁⟩
  · rw [hx] at hR
    rw [run_bind_of_error hx]
    exact ⟨ks, t, hR, hleads, fun _ h => absurd h (by simp)⟩
  · rw [hx] at hR hreturned
    obtain rfl := hreturned v rfl
    obtain ⟨ls, t', hR', hleads', hreturned'⟩ := later v s₁
    rw [run_bind_of_ok hx]
    exact ⟨ks ++ ls, t', composes.append hR hR', leads_append.mpr ⟨t, hleads, hleads'⟩, hreturned'⟩

theorem ite {p : Prop} [Decidable p] {y : Stateful ε σ α} (pos : p → Moves R Step a b x)
    (neg : ¬p → Moves R Step a b y) : Moves R Step a b (if p then x else y) := by
  by_cases hp : p
  · rw [if_pos hp]
    exact pos hp
  · rw [if_neg hp]
    exact neg hp

theorem mono (h : Moves R Step a b x) {Step' : κ → τ → τ → Prop}
    (weaker : ∀ k t t', Step k t t' → Step' k t t') : Moves R Step' a b x := by
  intro s
  obtain ⟨ks, t, hR, hleads, hreturned⟩ := h s
  exact ⟨ks, t, hR, hleads.mono weaker, hreturned⟩

end Moves

end Stateful

end Framework
