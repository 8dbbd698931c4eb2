import Mathlib.Data.List.Basic

/-!
# Machines and their runs

A `Machine` is a deterministic transition function with a set of labels that the
environment may choose in each state. All nondeterminism sits in the labels: a
run is a list of labels, `Machine.play` is where it ends, and `Machine.steps`
lists the state and the label of every step it takes. A run is legal when the
environment was allowed each of its choices.

These rules carry every result about runs:

* `Machine.trace_induction`: an invariant that may speak about the steps taken so
  far;
* `Machine.play_induction`: an invariant of the state alone, for the runs whose
  steps all meet a condition, and `Machine.steps_induction` for the states on the way.
-/

namespace Framework

/-- A transition function whose labels are the choices of an environment. -/
structure Machine (State Label : Type*) where
  /-- The choices the environment has in a state. -/
  allowed : State → Label → Prop
  next : State → Label → State

namespace Machine

variable {State Label : Type*} (M : Machine State Label)

/-- The state at the end of a run. -/
def play (s : State) (ls : List Label) : State := ls.foldl M.next s

/-- The steps of a run: the state before each label, and the label. -/
def steps : State → List Label → List (State × Label)
  | _, [] => []
  | s, l :: ls => (s, l) :: steps (M.next s l) ls

/-- Every choice of the run was allowed. -/
def Legal (s : State) (ls : List Label) : Prop :=
  ∀ x ∈ M.steps s ls, M.allowed x.1 x.2

@[simp] theorem play_nil (s : State) : M.play s [] = s := rfl

@[simp] theorem play_cons (s : State) (l : Label) (ls : List Label) :
    M.play s (l :: ls) = M.play (M.next s l) ls := rfl

theorem play_append (s : State) (ls ls' : List Label) :
    M.play s (ls ++ ls') = M.play (M.play s ls) ls' := List.foldl_append ..

@[simp] theorem steps_nil (s : State) : M.steps s [] = [] := rfl

@[simp] theorem steps_cons (s : State) (l : Label) (ls : List Label) :
    M.steps s (l :: ls) = (s, l) :: M.steps (M.next s l) ls := rfl

theorem steps_append (s : State) (ls ls' : List Label) :
    M.steps s (ls ++ ls') = M.steps s ls ++ M.steps (M.play s ls) ls' := by
  induction ls generalizing s with
  | nil => rfl
  | cons l ls ih => rw [List.cons_append, steps_cons, steps_cons, ih]; rfl

@[simp] theorem legal_nil (s : State) : M.Legal s [] := by simp [Legal]

@[simp] theorem legal_cons (s : State) (l : Label) (ls : List Label) :
    M.Legal s (l :: ls) ↔ M.allowed s l ∧ M.Legal (M.next s l) ls := by
  simp [Legal]

theorem legal_append (s : State) (ls ls' : List Label) :
    M.Legal s (ls ++ ls') ↔ M.Legal s ls ∧ M.Legal (M.play s ls) ls' := by
  unfold Legal
  rw [steps_append]
  simp only [List.mem_append, or_imp, forall_and]

variable {M}

theorem mem_of_mem_steps {s : State} {ls : List Label} {x : State × Label}
    (h : x ∈ M.steps s ls) : x.2 ∈ ls := by
  induction ls generalizing s with
  | nil => simp at h
  | cons l ls ih =>
    rw [steps_cons, List.mem_cons] at h
    rcases h with rfl | h
    · exact List.mem_cons_self
    · exact List.mem_cons_of_mem _ (ih h)

variable (M) in
/-- Every label of a run is taken in one of its steps. -/
theorem exists_step_of_mem (s : State) {ls : List Label} {l : Label} (h : l ∈ ls) :
    ∃ x ∈ M.steps s ls, x.2 = l := by
  induction ls generalizing s with
  | nil => simp at h
  | cons first ls ih =>
    rcases List.mem_cons.mp h with rfl | h
    · exact ⟨(s, l), List.mem_cons_self, rfl⟩
    · obtain ⟨x, hx, hlabel⟩ := ih (M.next s first) h
      exact ⟨x, List.mem_cons_of_mem _ hx, hlabel⟩

/-- The state before a step is where the labels before it lead. -/
theorem exists_of_mem_steps {s s' : State} {ls : List Label} {l : Label}
    (h : (s', l) ∈ M.steps s ls) :
    ∃ before after, ls = before ++ l :: after ∧ M.play s before = s' := by
  induction ls generalizing s with
  | nil => simp at h
  | cons first ls ih =>
    rw [steps_cons, List.mem_cons, Prod.mk.injEq] at h
    rcases h with ⟨rfl, rfl⟩ | h
    · exact ⟨[], ls, rfl, rfl⟩
    · obtain ⟨before, after, rfl, hplay⟩ := ih h
      exact ⟨first :: before, after, rfl, hplay⟩

/-- A step splits the run where it takes place. -/
theorem exists_of_steps_eq {s s' : State} {ls : List Label} {l : Label}
    {before after : List (State × Label)} (h : M.steps s ls = before ++ (s', l) :: after) :
    ∃ ls₁ ls₂, ls = ls₁ ++ l :: ls₂ ∧ M.steps s ls₁ = before ∧ M.play s ls₁ = s' := by
  induction before generalizing s ls with
  | nil =>
    cases ls with
    | nil => simp at h
    | cons first ls =>
      rw [steps_cons, List.nil_append, List.cons.injEq, Prod.mk.injEq] at h
      obtain ⟨⟨rfl, rfl⟩, -⟩ := h
      exact ⟨[], ls, rfl, rfl, rfl⟩
  | cons x before ih =>
    cases ls with
    | nil => simp at h
    | cons first ls =>
      rw [steps_cons, List.cons_append, List.cons.injEq] at h
      obtain ⟨rfl, hrest⟩ := h
      obtain ⟨ls₁, ls₂, rfl, hsteps, hplay⟩ := ih hrest
      exact ⟨first :: ls₁, ls₂, rfl, by rw [steps_cons, hsteps], hplay⟩

/-- Two steps split the run where they take place. -/
theorem exists_of_steps_eq_between {s s₁ s₂ : State} {ls : List Label} {l₁ l₂ : Label}
    {before between after : List (State × Label)}
    (h : M.steps s ls = before ++ (s₁, l₁) :: between ++ (s₂, l₂) :: after) :
    ∃ ls₁ ls₂ ls₃, ls = ls₁ ++ l₁ :: (ls₂ ++ l₂ :: ls₃) ∧ M.steps s ls₁ = before ∧
      M.play s ls₁ = s₁ ∧ M.steps (M.next s₁ l₁) ls₂ = between ∧
      M.play (M.next s₁ l₁) ls₂ = s₂ := by
  obtain ⟨ls', ls₃, rfl, hsteps, rfl⟩ := exists_of_steps_eq h
  obtain ⟨ls₁, ls₂, rfl, rfl, rfl⟩ := exists_of_steps_eq hsteps
  rw [steps_append, List.append_cancel_left_eq, steps_cons, List.cons.injEq] at hsteps
  refine ⟨ls₁, ls₂, ls₃, by simp, rfl, rfl, hsteps.2, ?_⟩
  rw [play_append, play_cons]

/-- What did not hold at the start of a run and holds at its end has come about in one of
its steps. -/
theorem exists_mem_steps_of_not {P : State → Prop} {s : State} {ls : List Label} (hs : ¬P s)
    (hend : P (M.play s ls)) : ∃ x ∈ M.steps s ls, ¬P x.1 ∧ P (M.next x.1 x.2) := by
  induction ls generalizing s with
  | nil => exact absurd hend hs
  | cons l ls ih =>
    by_cases hnext : P (M.next s l)
    · exact ⟨(s, l), List.mem_cons_self, hs, hnext⟩
    · obtain ⟨x, hx, hchange⟩ := ih hnext hend
      exact ⟨x, List.mem_cons_of_mem _ hx, hchange⟩

/-- **The invariant rule, with the steps so far.** What holds at the start, of no
steps, and is carried over every legal step holds at the end of every legal run,
of all its steps. -/
theorem trace_induction {I : List (State × Label) → State → Prop}
    (hstep : ∀ tr s l, I tr s → M.allowed s l → I (tr ++ [(s, l)]) (M.next s l))
    {s : State} {ls : List Label} (hs : I [] s) (hlegal : M.Legal s ls) :
    I (M.steps s ls) (M.play s ls) := by
  suffices hgen : ∀ tr, I tr s → I (tr ++ M.steps s ls) (M.play s ls) from hgen [] hs
  clear hs
  induction ls generalizing s with
  | nil =>
    intro tr htr
    rwa [steps_nil, List.append_nil]
  | cons l ls ih =>
    intro tr htr
    rw [legal_cons] at hlegal
    have hnext := ih hlegal.2 (tr ++ [(s, l)]) (hstep tr s l htr hlegal.1)
    rwa [List.append_assoc, List.singleton_append] at hnext

/-- **The invariant rule.** What every legal step that meets `C` preserves holds
at the end of every legal run whose steps all meet `C`. -/
theorem play_induction {I : State → Prop} {C : State → Label → Prop}
    (hstep : ∀ s l, I s → M.allowed s l → C s l → I (M.next s l))
    {s : State} {ls : List Label} (hs : I s) (hlegal : M.Legal s ls)
    (hC : ∀ x ∈ M.steps s ls, C x.1 x.2) : I (M.play s ls) := by
  refine trace_induction (I := fun tr s => (∀ x ∈ tr, C x.1 x.2) → I s) ?_ (fun _ => hs) hlegal hC
  intro tr s l htr hallowed hall
  rw [List.forall_mem_append, List.forall_mem_singleton] at hall
  exact hstep s l (htr hall.1) hallowed hall.2

/-- **The invariant rule, at every step.** Each step of such a run starts in a state with
the invariant. -/
theorem steps_induction {I : State → Prop} {C : State → Label → Prop}
    (hstep : ∀ s l, I s → M.allowed s l → C s l → I (M.next s l))
    {s : State} {ls : List Label} (hs : I s) (hlegal : M.Legal s ls)
    (hC : ∀ x ∈ M.steps s ls, C x.1 x.2) : ∀ x ∈ M.steps s ls, I x.1 := by
  intro x hx
  obtain ⟨before, after, rfl, hplay⟩ := exists_of_mem_steps hx
  rw [legal_append] at hlegal
  rw [steps_append] at hC
  have hI := play_induction hstep hs hlegal.1 fun y hy => hC y (List.mem_append_left _ hy)
  rwa [hplay] at hI

end Machine

end Framework
