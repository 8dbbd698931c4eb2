import MeridianKafka.Transactions.Lifecycle

/-!
# Credential rotation under open sessions

`rotate_credentials` gives the runtime a new bridge and closes the old one afterwards. A
session does not keep its bridge: each call looks up the bridge of the runtime, and
`begin` looks it up before it waits for the lease. A `RotatingRuntime` has all bridges by
number, so the calls of the sessions may come before and after a rotation, a wait may
span it, and the old bridge may be closed at any time after it.

The Kafka transactions are counted as they are begun, by the `begin_transaction` that
returned; the runtime remembers the last one of each bridge and of each session. No call
reads these numbers.

The lease keeps the sessions of one bridge apart, so a session finds the transaction that
it has begun as long as the bridge it finds is the one it began on. That is so in every
run whose rotations are drained: none comes while the lease is held or somebody waits for
it. A call that holds the lease is one step here, since no drained rotation falls inside
it.
-/

namespace MeridianKafka

open Framework

variable {Token : Type}

/-- The call comes to wait for the lease. -/
def RuntimeSessions.NeedsLease (s : RuntimeSessions) : SessionAction Token → Prop
  | .call (.begin i _) =>
    (s.sessions i).ensureOpen = none ∧ (s.sessions i).transactional = true ∧
      (s.sessions i).active = false
  | .call (.executeTransactional i _ _) =>
    (s.sessions i).ensureBegun = none ∧ (s.sessions i).active = false
  | _ => False

instance (s : RuntimeSessions) : DecidablePred (@RuntimeSessions.NeedsLease Token s)
  | .call (.begin _ _) => inferInstanceAs (Decidable (_ ∧ _ ∧ _))
  | .call (.executeTransactional _ _ _) => inferInstanceAs (Decidable (_ ∧ _))
  | .call (.join _ _) | .call (.operate _ _) | .call (.acknowledge _ _ _) | .call (.commit _ _)
  | .call (.rollback _ _) | .publish _ _ _ | .close _ _ | .reorder _ _ => isFalse id

/-- A runtime whose bridge may be replaced, and its sessions. -/
structure RotatingRuntime (Token : Type) where
  bridges : ℕ → KafkaTransactionBridge := fun _ => {}
  /-- The number of the bridge that the runtime has. -/
  current : ℕ := 0
  states : Dict GroupRef Member := .empty
  sessions : ℕ → KafkaAdapterSession
  /-- The calls that wait for the lease, by session, each with the bridge it has found. -/
  waiting : Dict ℕ (ℕ × SessionCall Token) := .empty
  /-- How many Kafka transactions were begun. -/
  begun : ℕ := 0
  /-- The Kafka transaction that was begun last on each bridge. -/
  last : ℕ → ℕ := fun _ => 0
  /-- The Kafka transaction that each session has begun last. -/
  own : ℕ → ℕ := fun _ => 0

/-- What the sessions may do, and what becomes of the bridges. -/
inductive RotationStep (Token : Type)
  /-- A call that does not wait, with the bridge of the runtime. -/
  | act (action : SessionAction Token)
  /-- A call finds the bridge of the runtime and waits for its lease. -/
  | wait (session : ℕ) (call : SessionCall Token)
  /-- Its wait is over: it has the lease, or the lease has timed out. -/
  | proceed (session : ℕ)
  | rotate
  /-- A rotation closes the bridge that it has replaced. -/
  | close (bridge : ℕ) (abortTransaction emit flush : Option Raised)

namespace RotatingRuntime

variable (engine : KafkaConsumerEngine Token) (logs : GroupRef → PartitionLog)
  (s : RotatingRuntime Token)

/-- The runtime as a call sees it that has found this bridge. -/
def view (bridge : ℕ) : RuntimeSessions where
  runtime := { states := s.states, transactionBridge := s.bridges bridge }
  sessions := s.sessions

/-- An action with this bridge. -/
def perform (bridge : ℕ) (action : SessionAction Token) : RotatingRuntime Token :=
  let after := engine.act (s.view bridge) action
  let begins := (s.view bridge).beginsTransaction action
  { s with
    bridges := Function.update s.bridges bridge after.runtime.transactionBridge
    states := after.runtime.states
    sessions := after.sessions
    begun := if begins then s.begun + 1 else s.begun
    last := if begins then Function.update s.last bridge (s.begun + 1) else s.last
    own := fun i => if begins ∧ action.session = some i then s.begun + 1 else s.own i }

/-- The runtime after a step. -/
def next : RotationStep Token → RotatingRuntime Token
  | .act action => s.perform engine s.current action
  | .wait i call => { s with waiting := s.waiting.set i (s.current, call) }
  | .proceed i =>
    match s.waiting.get? i with
    | some (bridge, call) =>
      { s.perform engine bridge (.call call) with waiting := s.waiting.erase i }
    | none => s
  | .rotate =>
    { s with
      bridges := Function.update s.bridges (s.current + 1) {}
      current := s.current + 1
      states := .empty }
  | .close bridge abortTransaction emit flush =>
    { s with
      bridges := Function.update s.bridges bridge
        ((s.bridges bridge).close abortTransaction emit flush).2 }

/-- What may come next: a session makes one call at a time, and only a bridge that was
replaced is closed. -/
def MayStep : RotationStep Token → Prop
  | .act action =>
    KafkaConsumerEngine.MayAct logs (s.view s.current) action ∧
      ¬(s.view s.current).NeedsLease action ∧ ∀ i ∈ action.session, s.waiting.get? i = none
  | .wait i call =>
    call.session = some i ∧ (s.view s.current).NeedsLease (.call call) ∧ s.waiting.get? i = none
  | .close bridge _ _ _ => bridge < s.current
  | .proceed _ | .rotate => True

/-- The sessions of a runtime whose credentials are rotated. -/
def machine : Machine (RotatingRuntime Token) (RotationStep Token) where
  allowed := MayStep logs
  next := next engine

/-- The call uses the Kafka transaction of its session. -/
def UsesTransaction : SessionAction Token → Prop
  | .call (.acknowledge _ _ _) | .call (.executeTransactional _ _ _) | .call (.commit _ _)
  | .call (.rollback _ _) | .publish _ _ _ | .close _ _ => True
  | _ => False

/-- The call raises. -/
def raises (s : RuntimeSessions) : SessionAction Token → Bool
  | .call (.acknowledge i command env) =>
    !((s.sessions i).acknowledge s.runtime engine command env).answer.isOk
  | .call (.executeTransactional i command env) =>
    !((s.sessions i).executeTransactional s.runtime engine command env).answer.isOk
  | .call (.commit i env) => !((s.sessions i).commit s.runtime env).answer.isOk
  | .call (.rollback i env) => !((s.sessions i).rollback s.runtime env).answer.isOk
  | .publish i command env => !((s.sessions i).publish s.runtime command env).answer.isOk
  | .close i env => !((s.sessions i).close s.runtime env).answer.isOk
  | _ => false

/-- **Isolation**: a call that uses the transaction of its session finds the Kafka
transaction that this session has begun, open, or it raises and leaves the bridge that it
finds. -/
def Isolated : RotationStep Token → Prop
  | .act action => ∀ i ∈ action.session, UsesTransaction action → (s.sessions i).active = true →
      (s.bridges s.current).active = true ∧ s.last s.current = s.own i ∨
        raises engine (s.view s.current) action = true ∧
          (engine.act (s.view s.current) action).runtime.transactionBridge = s.bridges s.current
  | _ => True

/-- A rotation is drained: the lease is free, and nobody waits for it. -/
def Drained : RotationStep Token → Prop
  | .rotate => (s.bridges s.current).lease = false ∧ s.waiting.entries.isEmpty
  | _ => True

instance : DecidablePred (@MayStep Token logs s)
  | .act _ => inferInstanceAs (Decidable (KafkaConsumerEngine.MayAct logs _ _ ∧ ¬_ ∧ ∀ i ∈ _, _))
  | .wait _ _ => inferInstanceAs (Decidable (_ ∧ _ ∧ _))
  | .close _ _ _ _ => inferInstanceAs (Decidable (_ < _))
  | .proceed _ | .rotate => isTrue trivial

instance : DecidablePred (@Drained Token s)
  | .rotate => inferInstanceAs (Decidable (_ ∧ _))
  | .act _ | .wait _ _ | .proceed _ | .close _ _ _ _ => isTrue trivial

instance (run : List (RotationStep Token)) : Decidable ((machine engine logs).Legal s run) :=
  inferInstanceAs (Decidable (∀ x ∈ (machine engine logs).steps s run, x.1.MayStep logs x.2))

end RotatingRuntime

/-! ### The invariant -/

theorem RuntimeSessions.lease_of_begins {s : RuntimeSessions} {action : SessionAction Token}
    (h : s.beginsTransaction action = true) : s.runtime.transactionBridge.lease = false := by
  cases action with
  | call call =>
    cases call with
    | begin | executeTransactional =>
      simp only [beginsTransaction, Bool.and_eq_true, Bool.not_eq_true'] at h
      exact h.1.2
    | _ => simp [beginsTransaction] at h
  | _ => simp [beginsTransaction] at h

namespace RotatingRuntime

variable {engine : KafkaConsumerEngine Token} {logs : GroupRef → PartitionLog}
  {s : RotatingRuntime Token}

/-- Every open Core transaction is the one that its session has begun, on the bridge of the
runtime, and every wait is for the lease of that bridge. -/
structure Owned (s : RotatingRuntime Token) : Prop where
  leased : (s.view s.current).Leased
  active : ∀ i, (s.sessions i).active = true → (s.bridges s.current).active = true
  own : ∀ i, (s.sessions i).active = true → s.last s.current = s.own i
  waiting : ∀ i bridge call, s.waiting.get? i = some (bridge, call) → bridge = s.current

theorem perform_bridges (bridge : ℕ) (action : SessionAction Token) :
    (s.perform engine bridge action).bridges bridge =
      (engine.act (s.view bridge) action).runtime.transactionBridge := Function.update_self ..

variable (engine) in
/-- **One action** with the bridge of the runtime. -/
theorem Owned.perform (h : s.Owned) (action : SessionAction Token) :
    (s.perform engine s.current action).Owned := by
  have hview : (s.perform engine s.current action).view s.current =
      engine.act (s.view s.current) action := by
    unfold view
    rw [perform_bridges]
    rfl
  constructor
  case leased =>
    show ((s.perform engine s.current action).view s.current).Leased
    rw [hview]
    exact KafkaConsumerEngine.act_leased action h.leased
  case active =>
    intro i hactive
    show ((s.perform engine s.current action).bridges s.current).active = true
    rw [perform_bridges]
    cases hbefore : (s.sessions i).active with
    | false => exact (KafkaConsumerEngine.begins_of_active (s := s.view s.current) hbefore
        hactive).choose_spec.2.2
    | true =>
      have hopen : (s.view s.current).runtime.transactionBridge.active = true := h.active i hbefore
      by_cases hown : action.session = some i
      · exact (KafkaConsumerEngine.act_bridge_active (s := s.view s.current) hown hbefore
          hactive).trans hopen
      · rw [KafkaConsumerEngine.act_bridge_of_other h.leased hbefore hown]
        exact hopen
  case own =>
    intro i hactive
    show (if (s.view s.current).beginsTransaction action then
        Function.update s.last s.current (s.begun + 1) else s.last) s.current =
      if (s.view s.current).beginsTransaction action ∧ action.session = some i then s.begun + 1
      else s.own i
    cases hbefore : (s.sessions i).active with
    | false =>
      obtain ⟨env, rfl, hbegins, -⟩ := KafkaConsumerEngine.begins_of_active
        (s := s.view s.current) hbefore hactive
      rw [if_pos hbegins, if_pos ⟨hbegins, rfl⟩, Function.update_self]
    | true =>
      -- The session holds the lease, so nothing begins.
      have hnone : ¬(s.view s.current).beginsTransaction action = true := by
        intro hbegins
        have hheld := h.leased.held i hbefore
        exact absurd ((RuntimeSessions.lease_of_begins hbegins).symm.trans hheld) (by simp)
      rw [if_neg hnone, if_neg fun hbegins => hnone hbegins.1]
      exact h.own i hbefore
  case waiting => exact h.waiting

/-- **One step.** -/
theorem Owned.step (h : s.Owned) {step : RotationStep Token} (may : s.MayStep logs step)
    (drained : s.Drained step) : (s.next engine step).Owned := by
  cases step with
  | act action => exact h.perform engine action
  | wait i call =>
    refine ⟨h.leased, h.active, h.own, fun j bridge call' hwaits => ?_⟩
    change (s.waiting.set i (s.current, call)).get? j = some (bridge, call') at hwaits
    rw [Dict.get?_set] at hwaits
    split at hwaits
    · exact (congrArg Prod.fst (Option.some.inj hwaits)).symm
    · exact h.waiting j bridge call' hwaits
  | proceed i =>
    show Owned (match s.waiting.get? i with
      | some (bridge, call) =>
        { s.perform engine bridge (.call call) with waiting := s.waiting.erase i }
      | none => s)
    cases hwaits : s.waiting.get? i with
    | none => exact h
    | some entry =>
      obtain ⟨bridge, call⟩ := entry
      obtain rfl : bridge = s.current := h.waiting i bridge call hwaits
      have hperform := h.perform engine (.call call)
      refine ⟨hperform.leased, hperform.active, hperform.own, fun j bridge call' hwaits' => ?_⟩
      change (s.waiting.erase i).get? j = some (bridge, call') at hwaits'
      rw [Dict.get?_erase] at hwaits'
      split at hwaits'
      · simp at hwaits'
      · exact h.waiting j bridge call' hwaits'
  | rotate =>
    obtain ⟨hlease, hnobody⟩ := drained
    -- The lease is free, so no session has a transaction.
    have hinactive : ∀ i, ¬(s.sessions i).active = true := by
      intro i hactive
      have hheld : (s.bridges s.current).lease = true := h.leased.held i hactive
      exact absurd (hlease.symm.trans hheld) (by simp)
    refine ⟨⟨fun i hi => absurd hi (hinactive i), fun i _ hi => absurd hi (hinactive i)⟩,
      fun i hi => absurd hi (hinactive i), fun i hi => absurd hi (hinactive i),
      fun i bridge call hwaits => ?_⟩
    have hmem := Dict.mem_entries_iff.mpr hwaits
    change (i, bridge, call) ∈ s.waiting.entries at hmem
    rw [List.isEmpty_iff.mp hnobody] at hmem
    simp at hmem
  | close bridge abortTransaction emit flush =>
    have hother : bridge < s.current := may
    have hsame : (s.next engine (.close bridge abortTransaction emit flush)).bridges s.current =
        s.bridges s.current := Function.update_of_ne (Nat.ne_of_gt hother) ..
    refine ⟨⟨fun i hi => ?_, h.leased.unique⟩, fun i hi => ?_, h.own, h.waiting⟩
    · exact (congrArg KafkaTransactionBridge.lease hsame).trans (h.leased.held i hi)
    · exact (congrArg KafkaTransactionBridge.active hsame).trans (h.active i hi)

/-- The sessions before anybody has used them. -/
def fresh (sessions : ℕ → KafkaAdapterSession) : RotatingRuntime Token := { sessions }

/-- **Isolation** of the sessions, when every rotation is drained. -/
theorem isolated_of_drained {sessions : ℕ → KafkaAdapterSession}
    (inactive : ∀ i, (sessions i).active = false) {run : List (RotationStep Token)}
    (legal : (machine engine logs).Legal (fresh sessions) run)
    (drained : ∀ x ∈ (machine engine logs).steps (fresh sessions) run, x.1.Drained x.2) :
    ∀ x ∈ (machine engine logs).steps (fresh sessions) run, x.1.Isolated engine x.2 := by
  rintro ⟨s, step⟩ hx
  obtain ⟨before, after, rfl, rfl⟩ := Machine.exists_of_mem_steps hx
  rw [Machine.legal_append] at legal
  rw [Machine.steps_append] at drained
  -- nobody has a transaction at the start, so nobody has one of another runtime
  have hstart : Owned (fresh sessions : RotatingRuntime Token) := by
    have hnobody : ∀ i, ¬(sessions i).active = true := fun i => by simp [inactive i]
    refine ⟨⟨fun i hi => absurd hi (hnobody i), fun i _ hi => absurd hi (hnobody i)⟩,
      fun i hi => absurd hi (hnobody i), fun i hi => absurd hi (hnobody i), ?_⟩
    intro i bridge call hwaits
    simp [fresh] at hwaits
  have howned := Machine.play_induction (I := Owned) (C := Drained)
    (fun s step h may hdrained => h.step may hdrained) hstart legal.1
    fun x hx => drained x (List.mem_append_left _ hx)
  cases step with
  | act action => exact fun i _ _ hactive => Or.inl ⟨howned.active i hactive, howned.own i hactive⟩
  | _ => trivial

end RotatingRuntime

namespace Sample

/-- A session begins: it waits for the lease and gets it. -/
def begins (session : ℕ) : List (RotationStep TokenPayload) :=
  [.wait session (.begin session {}), .proceed session]

end Sample

namespace RotatingRuntime

/-- Session 1 has committed when the credentials are rotated, and session 3 begins then. -/
theorem isolated_of_drained_commit :
    let run := Sample.begins 1 ++ [.act (.call (.commit 1 {})), .rotate] ++ Sample.begins 3 ++
      [.act (.call (.commit 3 {}))]
    ∀ x ∈ (machine Sample.engine fun _ => Sample.log [0, 1] []).steps
      (fresh Sample.sessions.sessions) run, x.1.Isolated Sample.engine x.2 :=
  isolated_of_drained (fun _ => rfl) (by decide +kernel) (by decide +kernel)

/-- **A session commits the transaction of another one.** The credentials are rotated while
session 1 has a transaction. Session 3 begins on the new bridge, and the commit of session
1 returns and has committed the transaction of session 3. -/
theorem commit_of_another :
    let run := Sample.begins 1 ++ [.rotate] ++ Sample.begins 3
    let commit : RotationStep TokenPayload := .act (.call (.commit 1 {}))
    let M := machine Sample.engine fun _ => Sample.log [0, 1] []
    M.Legal (fresh Sample.sessions.sessions) (run ++ [commit]) ∧
      (∃ x ∈ M.steps (fresh Sample.sessions.sessions) (run ++ [commit]),
        ¬x.1.Isolated Sample.engine x.2) ∧
      let after := M.play (fresh Sample.sessions.sessions) (run ++ [commit])
      (after.bridges 1).active = false ∧ (after.sessions 3).active = true := by
  intro run commit M
  refine ⟨by decide +kernel, ⟨(M.play (fresh Sample.sessions.sessions) run, commit), ?_, ?_⟩,
    by decide +kernel⟩
  · rw [Machine.steps_append]
    exact List.mem_append_right _ List.mem_cons_self
  · intro hisolated
    rcases hisolated 1 rfl trivial (by decide +kernel) with ⟨-, hown⟩ | ⟨hraises, -⟩
    · revert hown
      decide +kernel
    · revert hraises
      decide +kernel

end RotatingRuntime

end MeridianKafka
