import MeridianKafka.Consumer.SafeCommit

/-!
# Acknowledgement progress

When every delivered record of a partition is acknowledged, the group should have
moved past all of them (`Ledger.CaughtUp`). The engine moves its safe offset one
integer at a time through the acknowledged offsets, so it stops for good

* at an offset that the log does not have: a compacted record, an aborted one or a
  transaction marker (`gap_stops_progress`);
* behind a commit that raised after the engine had already taken a longer run of
  acknowledged offsets out of its set (`LosesRun`).

`caughtUp_iff` says that nothing else stops it: in an assignment without expiry
and negative acknowledgement in which everything delivered is resolved, the group
has caught up exactly when the delivered offsets have no gap and no commit that
raised lost a run.

The proof follows the safe offset `s`. As long as no run is lost, the resolved
offsets at `s` or above are all in the acknowledged set (`Steady.NothingForgotten`)
while `s` is not, so a gapless set of resolved offsets lies below `s`. Once a run
is lost, one of its offsets is `Stuck`: resolved, out of the set, not in flight,
and never below `s` again, because the client does not go back.
-/

namespace MeridianKafka

open Framework

namespace Ledger

/-- The group's committed position and the last reported safe position are past
every delivered record. -/
structure CaughtUp (L : Ledger) : Prop where
  committed : ∃ n, L.commits.head? = some n ∧ ∀ d ∈ L.delivered, d < n
  reported : ∃ s, L.safePositions.head? = some s ∧ ∀ d ∈ L.delivered, d < s

/-- The delivered offsets are consecutive integers. -/
def Gapless (L : Ledger) : Prop :=
  ∀ a ∈ L.delivered, ∀ b ∈ L.delivered, ∀ k, a ≤ k → k ≤ b → k ∈ L.delivered

/-- A partition that is only read forward and acknowledged. -/
structure Steady (L : Ledger) : Prop where
  sound : L.Sound
  running : L.paused = none
  forward : ∀ d ∈ L.delivered, ∃ r, L.fetch = some r ∧ d < r
  inflight_delivered : ∀ o, (L.inflight o).isSome → o ∈ L.delivered ∧ o ∉ L.resolved
  resolved_delivered : ∀ o ∈ L.resolved, o ∈ L.delivered
  acknowledged_resolved : ∀ o ∈ L.acknowledged, o ∈ L.resolved
  unset : L.safeNext = none → L.delivered = []
  /-- The safe offset starts at the first delivery, moves over resolved offsets, and
  every move is committed. -/
  first : ∀ s, L.safeNext = some s → ∃ f ∈ L.delivered, f ≤ s ∧ (∀ d ∈ L.delivered, f ≤ d) ∧
    (∀ k, f ≤ k → k < s → k ∈ L.resolved) ∧ (s = f ∨ L.commits.head? = some s)
  committed : ∀ n, L.commits.head? = some n → L.safeNext = some n
  reported : L.safePositions.head? = if L.resolved = [] then none else L.safeNext

/-- Every resolved offset that the safe offset has not passed is in the set. -/
def NothingForgotten (L : Ledger) : Prop :=
  ∀ s, L.safeNext = some s → ∀ o ∈ L.resolved, s ≤ o → o ∈ L.acknowledged

/-- A resolved offset that the safe offset will not pass any more. -/
structure Stuck (L : Ledger) (offset : ℕ) : Prop where
  resolved : offset ∈ L.resolved
  forgotten : offset ∉ L.acknowledged
  ahead : ∀ s, L.safeNext = some s → s ≤ offset

variable {L L' : Ledger} {o : ℕ}

namespace Steady

theorem empty : Ledger.empty.Steady where
  sound := .empty
  running := rfl
  forward d hd := absurd hd List.not_mem_nil
  inflight_delivered o ho := absurd ho (by simp [Ledger.empty])
  resolved_delivered o ho := absurd ho List.not_mem_nil
  acknowledged_resolved o ho := absurd ho (by simp [Ledger.empty])
  unset _ := rfl
  first s hs := absurd hs (by simp [Ledger.empty])
  committed n hn := absurd hn (by simp [Ledger.empty, commits])
  reported := rfl

/-- The record at `o` was not delivered before, when the client only reads forward. -/
theorem notMem_of_next (h : L.Steady) (next : ∀ f, L.fetch = some f → f ≤ o) :
    ∀ d ∈ L.delivered, d < o := by
  intro d hd
  obtain ⟨r, hr, hlt⟩ := h.forward d hd
  exact hlt.trans_le (next r hr)

theorem reject (h : L.Steady) (next : ∀ f, L.fetch = some f → f ≤ o) : (L.reject o).Steady where
  sound := h.sound.congr (by simp) (by simp) (by simp)
  running := by
    cases hp : (L.reject o).paused with
    | none => rfl
    | some paused =>
      have hold := ((reject_paused o).mp hp).1
      rw [h.running] at hold
      simp at hold
  forward d hd := by
    rw [reject_delivered] at hd
    exact ⟨o + 1, by simp, (h.notMem_of_next next d hd).trans (Nat.lt_succ_self o)⟩
  inflight_delivered := by simpa using h.inflight_delivered
  resolved_delivered := by simpa using h.resolved_delivered
  acknowledged_resolved := by simpa using h.acknowledged_resolved
  unset := by simpa using h.unset
  first := by simpa using h.first
  committed := by simpa using h.committed
  reported := by simpa using h.reported

theorem handOut (h : L.Steady) (next : ∀ f, L.fetch = some f → f ≤ o) (event : Event)
    (epoch expiresAtMs : ℕ) : (L.handOut o event epoch expiresAtMs).Steady where
  sound := h.sound.handOut event epoch expiresAtMs
  running := by
    cases hp : (L.handOut o event epoch expiresAtMs).paused with
    | none => rfl
    | some paused =>
      have hold := ((handOut_paused ..).mp hp).1
      rw [h.running] at hold
      simp at hold
  forward d hd := by
    rw [handOut_delivered] at hd
    refine ⟨o + 1, by simp, ?_⟩
    rcases List.mem_cons.mp hd with rfl | hd
    · exact Nat.lt_succ_self _
    · exact (h.notMem_of_next next d hd).trans (Nat.lt_succ_self o)
  inflight_delivered k hk := by
    rw [handOut_inflight] at hk
    rw [handOut_delivered, handOut_resolved]
    by_cases heq : k = o
    · subst heq
      refine ⟨List.mem_cons_self, fun hres => ?_⟩
      exact absurd (h.notMem_of_next next k (h.resolved_delivered k hres)) (lt_irrefl k)
    · rw [Function.update_of_ne heq] at hk
      obtain ⟨hdel, hres⟩ := h.inflight_delivered k hk
      exact ⟨List.mem_cons_of_mem _ hdel, hres⟩
  resolved_delivered k hk := by
    rw [handOut_delivered]
    exact List.mem_cons_of_mem _ (h.resolved_delivered k (by simpa using hk))
  acknowledged_resolved := by simpa using h.acknowledged_resolved
  unset hnone := by simp at hnone
  first s hs := by
    obtain rfl : L.original o = s := by simpa using hs
    rw [handOut_delivered, handOut_resolved, handOut_commits]
    cases hold : L.safeNext with
    | none =>
      rw [original_of_none hold, h.unset hold]
      refine ⟨o, List.mem_cons_self, le_rfl, ?_, fun k hk hlt => ?_, Or.inl rfl⟩
      · simp
      · exact absurd hlt (not_lt.mpr hk)
    | some s =>
      obtain ⟨f, hf, hfs, hmin, hres, hcommit⟩ := h.first s hold
      rw [original_of_some hold]
      refine ⟨f, List.mem_cons_of_mem _ hf, hfs, fun d hd => ?_, hres, hcommit⟩
      rcases List.mem_cons.mp hd with rfl | hd
      · exact (h.notMem_of_next next f hf).le
      · exact hmin d hd
  committed n hn := by
    have hsafe := h.committed n (by simpa using hn)
    rw [handOut_safeNext, original_of_some hsafe]
  reported := by
    rw [handOut_safePositions, handOut_resolved, handOut_safeNext, h.reported]
    split
    · rfl
    · next hres =>
      -- Something is resolved, so the safe offset is there already.
      cases hold : L.safeNext with
      | none =>
        obtain ⟨d, hd⟩ := List.exists_mem_of_ne_nil _ hres
        have hdel := h.resolved_delivered d hd
        rw [h.unset hold] at hdel
        exact absurd hdel List.not_mem_nil
      | some s => rw [original_of_some hold]

theorem acknowledge {fails : Prop} (h : L.Steady) (hi : (L.inflight o).isSome)
    (step : L.AcknowledgeStep o false fails L') : L'.Steady := by
  have hsafe := h.sound.safeNext_of_inflight hi
  have hnew := h.inflight_delivered o hi
  obtain ⟨f, hf, hfs, hmin, hres, hcommit⟩ := h.first _ hsafe
  -- What stays in flight is unresolved, and what is resolved was delivered.
  have hflight : ∀ k, (Function.update L.inflight o none k).isSome →
      k ∈ L.delivered ∧ k ∉ o :: L.resolved := by
    intro k hk
    by_cases heq : k = o
    · simp [heq] at hk
    · rw [Function.update_of_ne heq] at hk
      obtain ⟨hdel, hnot⟩ := h.inflight_delivered k hk
      exact ⟨hdel, fun hmem => hnot ((List.mem_cons.mp hmem).resolve_left heq)⟩
  have hresolved : ∀ k ∈ o :: L.resolved, k ∈ L.delivered := by
    intro k hk
    rcases List.mem_cons.mp hk with rfl | hk
    · exact hnew.1
    · exact h.resolved_delivered k hk
  have hinsert : ∀ k, k ∈ insert o L.acknowledged → k ∈ o :: L.resolved := by
    intro k hk
    rcases Finset.mem_insert.mp hk with rfl | hk
    · exact List.mem_cons_self
    · exact List.mem_cons_of_mem _ (h.acknowledged_resolved k hk)
  have hsub : ∀ k ∈ (L.contiguous o).2, k ∈ o :: L.resolved := fun k hk =>
    hinsert k (Finset.mem_insert.mpr (mem_contiguous.mp hk).1)
  have hsound := Sound.of_acknowledge step
  cases step with
  -- The commit has raised: the books have dropped the run, and the safe offset stays.
  | failed hadv =>
    have hkept : (L.collect o).safeNext = L.safeNext := hsafe.symm
    exact ⟨hsound, h.running, h.forward, h.inflight_delivered, h.resolved_delivered,
      fun k hk => h.acknowledged_resolved k (h.sound.contiguous_subset hadv hk),
      fun hnone => h.unset (hkept.symm.trans hnone), fun s hs => h.first s (hkept.symm.trans hs),
      fun n hn => hkept.trans (h.committed n hn), by rw [hkept]; exact h.reported⟩
  -- The run from the safe offset has moved it, and everything below the new one is resolved.
  | moved hadv =>
    refine ⟨hsound, h.running, h.forward, hflight, hresolved, hsub,
      fun hnone => absurd hnone (by simp [settle, setSafe, note, collect]), ?_, ?_, rfl⟩
    · rintro s hs
      obtain rfl : (L.contiguous o).1 = s := Option.some.inj hs
      refine ⟨f, hf, hfs.trans hadv.le, hmin, fun k hk hks => ?_, Or.inr rfl⟩
      by_cases hlt : k < L.original o
      · exact List.mem_cons_of_mem _ (hres k hk hlt)
      · exact hinsert k ((L.contiguous_isFrontier o).covered k (not_lt.mp hlt) hks)
    · exact fun n hn => hn
  -- The record waits behind another one, and the safe offset stays.
  | collected hwait =>
    refine ⟨hsound, h.running, h.forward, hflight, hresolved, hsub,
      fun hnone => absurd hnone (by simp [settle, collect]), ?_, ?_, rfl⟩
    · rintro s hs
      obtain rfl : L.original o = s := Option.some.inj hs
      exact ⟨f, hf, hfs, hmin, fun k hk hks => List.mem_cons_of_mem _ (hres k hk hks), hcommit⟩
    · intro n hn
      have hcommitted := h.committed n hn
      rw [hsafe] at hcommitted
      exact hcommitted

end Steady

/-! ### Runs that are kept, and runs that are lost -/

/-- If the commit of this acknowledgement raises, a run of acknowledged offsets is
lost. -/
def AtRisk (L : Ledger) (offset : ℕ) : Prop :=
  offset = L.original offset ∧ offset + 1 ∈ L.acknowledged

theorem NothingForgotten.acknowledge {fails : Prop} (h : L.NothingForgotten) (steady : L.Steady)
    (hi : (L.inflight o).isSome) (kept : ¬(fails ∧ L.AtRisk o))
    (step : L.AcknowledgeStep o false fails L') : L'.NothingForgotten := by
  have hsafe := steady.sound.safeNext_of_inflight hi
  -- What is resolved at or above the new safe offset is still remembered.
  have hkeep : ∀ k ∈ o :: L.resolved, (L.contiguous o).1 ≤ k → k ∈ (L.contiguous o).2 := by
    intro k hk hle
    refine mem_contiguous.mpr ⟨?_, fun hlt => absurd hlt.2 (not_lt.mpr hle)⟩
    rcases List.mem_cons.mp hk with rfl | hk
    · exact Or.inl rfl
    · exact Or.inr (h _ hsafe k hk ((L.contiguous_isFrontier o).le.trans hle))
  cases step with
  | failed hadv raises =>
    intro s hs k hk hle
    obtain rfl : L.original o = s := Option.some.inj hs
    have hself := steady.sound.advances_iff.mp hadv
    have hrun : (L.collect o).acknowledged = L.acknowledged :=
      steady.sound.contiguous_of_next_notMem hadv fun hin => kept ⟨raises, hself, hin⟩
    rw [hrun]
    exact h _ hsafe k hk hle
  | moved =>
    intro s hs k hk hle
    obtain rfl : (L.contiguous o).1 = s := Option.some.inj hs
    exact hkeep k hk hle
  | collected hwait =>
    intro s hs k hk hle
    obtain rfl : L.original o = s := Option.some.inj hs
    exact hkeep k hk (hwait.trans hle)

/-- A lost run leaves an offset stuck. -/
theorem stuck_of_lost (steady : L.Steady) (risk : L.AtRisk o) : (L.collect o).Stuck (o + 1) where
  resolved := steady.acknowledged_resolved _ risk.2
  forgotten := steady.sound.next_notMem_contiguous (steady.sound.advances_iff.mpr risk.1) risk.2
  ahead s hs := by
    obtain rfl : L.original o = s := Option.some.inj hs
    exact risk.1.symm.le.trans (Nat.le_succ o)

theorem Stuck.acknowledge {fails : Prop} {k : ℕ} (h : L.Stuck k) (steady : L.Steady)
    (hi : (L.inflight o).isSome) (step : L.AcknowledgeStep o false fails L') : L'.Stuck k := by
  have hsafe := steady.sound.safeNext_of_inflight hi
  -- an inflight delivery has not been resolved, and the stuck one has
  have hne : k ≠ o := by
    rintro rfl
    exact (steady.inflight_delivered k hi).2 h.resolved
  have hnot : k ∉ insert o L.acknowledged := by
    intro hmem
    rcases Finset.mem_insert.mp hmem with heq | hmem
    · exact hne heq
    · exact h.forgotten hmem
  have hout : k ∉ (L.contiguous o).2 := fun hmem =>
    hnot (Finset.mem_insert.mpr (mem_contiguous.mp hmem).1)
  have hahead := h.ahead _ hsafe
  cases step with
  | failed => exact ⟨h.resolved, hout, fun s hs => Option.some.inj hs ▸ hahead⟩
  | moved =>
    refine ⟨List.mem_cons_of_mem _ h.resolved, hout, fun s hs => ?_⟩
    obtain rfl : (L.contiguous o).1 = s := Option.some.inj hs
    exact (L.contiguous_isFrontier o).le_of_notMem hahead hnot
  | collected =>
    exact ⟨List.mem_cons_of_mem _ h.resolved, hout, fun s hs => Option.some.inj hs ▸ hahead⟩

end Ledger

namespace KafkaConsumerEngine

variable {Token : Type} (engine : KafkaConsumerEngine Token) {log : PartitionLog}
  {m : Member} {p : ℕ}

/-- The operation neither expires nor gives back a delivery of the partition. -/
def Undisturbed (m : Member) (p : ℕ) : Action Token → Prop
  | .expireInflight env => ∀ offset, (p, offset) ∉ rewinds m env
  | .negativeAcknowledge command env =>
    (∀ c, engine.GoesBack m command env.nowMs c → c.partition ≠ p) ∧
    ∀ c, engine.ValidToken m command.toAcknowledgeCommand env.acknowledge.nowMs c → c.partition ≠ p
  | _ => True

/-- The operation is an acknowledgement whose commit raises while the next offset is
already acknowledged. -/
def LosesRun (m : Member) (p : ℕ) : Action Token → Prop
  | .acknowledge command none env =>
    ∃ c, engine.ValidToken m command env.nowMs c ∧ c.partition = p ∧ env.commit.isSome ∧
      (m.ledger p).AtRisk c.offset
  | _ => False

variable {engine} {L' : Ledger}

/-- What can happen to a partition that is only read forward and acknowledged. -/
theorem PartitionStep.steady_cases {a : Action Token}
    (step : PartitionStep engine log m p a L') (within : a.WithinAssignment)
    (undisturbed : engine.Undisturbed m p a) (steady : (m.ledger p).Steady) :
    L' = m.ledger p ∨
    (∃ o, (∀ f, (m.ledger p).fetch = some f → f ≤ o) ∧ (L' = (m.ledger p).reject o ∨
      ∃ event epoch expiresAtMs, L' = (m.ledger p).handOut o event epoch expiresAtMs)) ∨
    ∃ command env c, a = .acknowledge command none env ∧
      engine.ValidToken m command env.nowMs c ∧ c.partition = p ∧
      (m.ledger p).AcknowledgeStep c.offset false env.commit.isSome L' := by
  have running : ∀ paused, (m.ledger p).paused ≠ some paused := by
    intro paused
    rw [steady.running]
    exact (Option.some_ne_none paused).symm
  -- A steady partition has no paused record and no redelivery, which leaves poll and
  -- acknowledgement.
  cases step with
  | idle => exact Or.inl rfl
  | rewound hreached => exact absurd hreached (undisturbed _)
  | resumeSought pending => exact absurd pending (running _)
  | resumed pending => exact absurd pending (running _)
  | stuck _ _ pending => exact absurd pending (running _)
  | heldBack _ _ pending => exact absurd pending (running _)
  | rejected may here =>
    subst here
    exact Or.inr (Or.inl ⟨_, fun f hf => (may.next f hf).1, Or.inl rfl⟩)
  | delivered may here =>
    subst here
    exact Or.inr (Or.inl ⟨_, fun f hf => (may.next f hf).1, Or.inr ⟨_, _, _, rfl⟩⟩)
  | acknowledged valid here step =>
    obtain rfl : _ = none := within
    rw [moveFails_none] at step
    exact Or.inr (Or.inr ⟨_, _, _, rfl, valid, here, step⟩)
  | deadLettered valid here => exact absurd here (undisturbed.2 _ valid)
  | dropped back here => exact absurd here (undisturbed.1 _ back)
  | sought back here => exact absurd here (undisturbed.1 _ back)
  | pausedAt back here => exact absurd here (undisturbed.1 _ back)
  | revoked => exact within.elim
  | repositioned => exact within.elim

/-- An acknowledgement that loses a run collects it and stops. -/
theorem ledger_of_losesRun {a : Action Token} (steady : (m.ledger p).Steady)
    (loses : engine.LosesRun m p a) :
    ∃ o, (m.ledger p).AtRisk o ∧ (engine.next m a).ledger p = (m.ledger p).collect o ∧
      ((m.ledger p).inflight o).isSome ∧
      (m.ledger p).AcknowledgeStep o false True ((m.ledger p).collect o) := by
  cases a with
  | acknowledge command transaction env =>
    cases transaction with
    | some bridge => exact loses.elim
    | none =>
      obtain ⟨c, valid, here, raises, risk⟩ := loses
      subst here
      have hadv := steady.sound.advances_iff.mpr risk.1
      obtain ⟨inflight, hget, -⟩ := valid.inflight
      refine ⟨c.offset, risk, ?_, by rw [hget]; rfl, .failed hadv trivial⟩
      have hstep := acknowledgeDelivery_step command none env valid.accepted rfl
      change (engine.acknowledge m command none env).2.1.ledger c.partition = _
      rw [valid.acknowledge_eq]
      generalize (acknowledgeDelivery m command c none env).2.1.ledger c.partition = K at hstep
      -- the position advances and the commit raises: only the failed move is left
      cases hstep with
      | failed => rfl
      | moved _ returns => exact absurd (moveFails_none.mpr raises) returns
      | collected hwait => exact absurd hadv (not_lt.mpr hwait)
  | _ => exact loses.elim

/-- What the steps so far have to do with the ledger they have led to. -/
structure Followed (engine : KafkaConsumerEngine Token) (p : ℕ)
    (tr : List (Member × Action Token)) (L : Ledger) : Prop where
  steady : L.Steady
  kept : (∀ x ∈ tr, ¬engine.LosesRun x.1 p x.2) → L.NothingForgotten
  lost : (∃ x ∈ tr, engine.LosesRun x.1 p x.2) → ∃ k, L.Stuck k

theorem Followed.step {tr : List (Member × Action Token)} {a : Action Token}
    (h : Followed engine p tr (m.ledger p)) (hL' : (engine.next m a).ledger p = L')
    (step : PartitionStep engine log m p a L') (within : a.WithinAssignment)
    (undisturbed : engine.Undisturbed m p a) : Followed engine p (tr ++ [(m, a)]) L' := by
  -- A run is lost in this step, or one was lost before and its record is stuck already.
  have hlost : (∃ x ∈ tr ++ [(m, a)], engine.LosesRun x.1 p x.2) →
      (∃ k, (m.ledger p).Stuck k) ∨ engine.LosesRun m p a := by
    rintro ⟨x, hx, hloses⟩
    rcases List.mem_append.mp hx with hx | hx
    · exact Or.inl (h.lost ⟨x, hx, hloses⟩)
    · obtain rfl := List.mem_singleton.mp hx
      exact Or.inr hloses
  by_cases hloses : engine.LosesRun m p a
  · obtain ⟨o, risk, hend, hi, hack⟩ := ledger_of_losesRun h.steady hloses
    rw [← hL', hend]
    refine ⟨h.steady.acknowledge hi hack, fun hnone => ?_,
      fun _ => ⟨o + 1, Ledger.stuck_of_lost h.steady risk⟩⟩
    exact absurd hloses (hnone (m, a) (List.mem_append_right _ (List.mem_singleton_self _)))
  · have hkept : (∀ x ∈ tr ++ [(m, a)], ¬engine.LosesRun x.1 p x.2) →
        (m.ledger p).NothingForgotten := fun hall =>
      h.kept fun x hx => hall x (List.mem_append_left _ hx)
    have hstuck : (∃ x ∈ tr ++ [(m, a)], engine.LosesRun x.1 p x.2) →
        ∃ k, (m.ledger p).Stuck k := fun hex => (hlost hex).resolve_right hloses
    -- No run is lost in this step: it is idle, rejects or hands out the next record, or
    -- acknowledges.
    rcases step.steady_cases within undisturbed h.steady with
      rfl | ⟨o, hnext, rfl | ⟨event, epoch, expiresAtMs, rfl⟩⟩ |
        ⟨command, env, c, rfl, valid, here, hack⟩
    · exact ⟨h.steady, hkept, hstuck⟩
    · refine ⟨h.steady.reject hnext, fun hall => ?_, fun hex => ?_⟩
      · simpa [Ledger.NothingForgotten] using hkept hall
      · obtain ⟨k, hk⟩ := hstuck hex
        exact ⟨k, by simpa using hk.resolved, by simpa using hk.forgotten, by simpa using hk.ahead⟩
    · -- Once a record is resolved there is a safe offset, and handing out leaves it.
      have hsafe : ∀ k ∈ (m.ledger p).resolved,
          (m.ledger p).safeNext = some ((m.ledger p).original o) := by
        intro k hk
        cases hs : (m.ledger p).safeNext with
        | none =>
          have hdel := h.steady.resolved_delivered k hk
          rw [h.steady.unset hs] at hdel
          exact absurd hdel List.not_mem_nil
        | some s => rw [Ledger.original_of_some hs]
      refine ⟨h.steady.handOut hnext event epoch expiresAtMs, fun hall s hs k hk hle => ?_,
        fun hex => ?_⟩
      · rw [Ledger.handOut_resolved] at hk
        rw [Ledger.handOut_safeNext, ← hsafe k hk] at hs
        rw [Ledger.handOut_acknowledged]
        exact hkept hall s hs k hk hle
      · obtain ⟨k, hk⟩ := hstuck hex
        refine ⟨k, by simpa using hk.resolved, by simpa using hk.forgotten, fun s hs => ?_⟩
        rw [Ledger.handOut_safeNext, ← hsafe k hk.resolved] at hs
        exact hk.ahead s hs
    · subst here
      obtain ⟨inflight, hget, -⟩ := valid.inflight
      have hi : ((m.ledger c.partition).inflight c.offset).isSome := by rw [hget]; rfl
      refine ⟨h.steady.acknowledge hi hack, fun hall => ?_, fun hex => ?_⟩
      · refine (hkept hall).acknowledge h.steady hi (fun hrisk => hloses ?_) hack
        exact ⟨c, valid, rfl, hrisk.1, hrisk.2⟩
      · obtain ⟨k, hk⟩ := hstuck hex
        exact ⟨k, hk.acknowledge h.steady hi hack⟩

theorem AssignmentRun.followed {start : Member} {run : List (Action Token)}
    (assignment : engine.AssignmentRun log start p run)
    (undisturbed : ∀ x ∈ (engine.machine log).steps start run, engine.Undisturbed x.1 p x.2) :
    Followed engine p ((engine.machine log).steps start run)
      (engine.ledgerAfter log start p run) := by
  refine assignment.trace_induction (I := fun tr L =>
    (∀ x ∈ tr, engine.Undisturbed x.1 p x.2) → Followed engine p tr L) (fun _ => ?_) ?_ undisturbed
  · refine ⟨.empty, fun _ s hs => ?_, fun ⟨x, hx, _⟩ => absurd hx List.not_mem_nil⟩
    simp [Ledger.empty] at hs
  · intro tr m a L' hL' step within _ hI hall
    rw [List.forall_mem_append, List.forall_mem_singleton] at hall
    exact (hI hall.1).step hL' step within hall.2

/-- **When a group catches up.** In an assignment without expiry and negative
acknowledgement on the partition, in which something was delivered and everything
delivered has been acknowledged, the committed position and the last reported safe
position are past every delivered record exactly when the delivered offsets are
consecutive and no commit that raised lost a run. -/
theorem caughtUp_iff (engine : KafkaConsumerEngine Token) (log : PartitionLog) (start : Member)
    (p : ℕ) (run : List (Action Token)) (assignment : engine.AssignmentRun log start p run)
    (undisturbed : ∀ x ∈ (engine.machine log).steps start run, engine.Undisturbed x.1 p x.2)
    (some_delivered : (engine.ledgerAfter log start p run).delivered ≠ [])
    (all_acknowledged : ∀ d ∈ (engine.ledgerAfter log start p run).delivered,
      d ∈ (engine.ledgerAfter log start p run).resolved) :
    (engine.ledgerAfter log start p run).CaughtUp ↔
      (engine.ledgerAfter log start p run).Gapless ∧
        ∀ x ∈ (engine.machine log).steps start run, ¬engine.LosesRun x.1 p x.2 := by
  have hfollowed := assignment.followed undisturbed
  generalize engine.ledgerAfter log start p run = L at *
  have hsteady := hfollowed.steady
  obtain ⟨s, hs⟩ : ∃ s, L.safeNext = some s := by
    cases hs : L.safeNext with
    | none => exact absurd (hsteady.unset hs) some_delivered
    | some s => exact ⟨s, rfl⟩
  obtain ⟨f, hf, hfs, hmin, hres, hcommit⟩ := hsteady.first s hs
  have hreported : L.safePositions.head? = some s := by
    rw [hsteady.reported, if_neg, hs]
    exact List.ne_nil_of_mem (all_acknowledged f hf)
  have hcaught : L.CaughtUp ↔ ∀ d ∈ L.delivered, d < s := by
    constructor
    · rintro ⟨-, s', hs', hlt⟩
      rw [hreported] at hs'
      exact Option.some.inj hs' ▸ hlt
    · intro hlt
      refine ⟨⟨s, hcommit.resolve_left ?_, hlt⟩, ⟨s, hreported, hlt⟩⟩
      rintro rfl
      exact lt_irrefl _ (hlt _ hf)
  rw [hcaught]
  constructor
  · intro hlt
    refine ⟨fun a ha b hb k hak hkb => ?_, fun x hx hloses => ?_⟩
    · exact hsteady.resolved_delivered k
        (hres k ((hmin a ha).trans hak) (hkb.trans_lt (hlt b hb)))
    · obtain ⟨k, hk⟩ := hfollowed.lost ⟨x, hx, hloses⟩
      have hks := hlt k (hsteady.resolved_delivered k hk.resolved)
      exact absurd (hk.ahead s hs) (not_le.mpr hks)
  · rintro ⟨hgapless, hnone⟩ d hd
    by_contra hle
    -- The safe offset would itself be a delivered, resolved offset of the set.
    have hmem := hgapless f hf d hd s hfs (not_lt.mp hle)
    exact hsteady.sound.safe_notMem s hs
      (hfollowed.kept hnone s hs s (all_acknowledged s hmem) le_rfl)

/-- A run of receives and first-attempt acknowledgements disturbs nothing. -/
theorem undisturbed_of_within {start : Member} {run : List (Action Token)}
    (h : ∀ a ∈ run, ∀ x, engine.Undisturbed x p a) :
    ∀ x ∈ (engine.machine log).steps start run, engine.Undisturbed x.1 p x.2 :=
  fun x hx => h _ (Machine.mem_of_mem_steps hx) x.1

/-- Two consecutive records, acknowledged out of order. -/
theorem caughtUp_iff_consecutive :
    let run := [Sample.receive 0, Sample.receive 1, Sample.acknowledge 1, Sample.acknowledge 0]
    let log := Sample.log [0, 1] []
    let start := Member.joined Sample.command [0]
    (Sample.engine.ledgerAfter log start 0 run).CaughtUp ↔
      (Sample.engine.ledgerAfter log start 0 run).Gapless ∧
        ∀ x ∈ (Sample.engine.machine log).steps start run, ¬Sample.engine.LosesRun x.1 0 x.2 := by
  refine caughtUp_iff Sample.engine _ _ _ _ ⟨rfl, by decide +kernel, by decide +kernel⟩
    (undisturbed_of_within ?_) (by decide +kernel) (by decide +kernel)
  simp [Sample.receive, Sample.acknowledge, Undisturbed]

/-- **A gap stops progress.** The log has the records 0 and 2. Both are delivered and
acknowledged with success, and the group stays at 1. -/
theorem gap_stops_progress :
    let run := [Sample.receive 0, Sample.receive 2, Sample.acknowledge 0, Sample.acknowledge 2]
    let log := Sample.log [0, 2] []
    let start := Member.joined Sample.command [0]
    Sample.engine.AssignmentRun log start 0 run ∧
      (∀ x ∈ (Sample.engine.machine log).steps start run, Sample.engine.Undisturbed x.1 0 x.2) ∧
      (Sample.engine.ledgerAfter log start 0 run).delivered = [2, 0] ∧
      (Sample.engine.ledgerAfter log start 0 run).resolved = [2, 0] ∧
      ¬(Sample.engine.ledgerAfter log start 0 run).CaughtUp := by
  refine ⟨⟨rfl, by decide +kernel, by decide +kernel⟩, undisturbed_of_within ?_, by decide +kernel,
    by decide +kernel, ?_⟩
  · simp [Sample.receive, Sample.acknowledge, Undisturbed]
  · rintro ⟨⟨n, hn, hlt⟩, -⟩
    have hcommits : some n = some 1 := hn.symm.trans (by decide +kernel)
    obtain rfl := Option.some.inj hcommits
    exact absurd (hlt 2 (by decide +kernel)) (by decide)

end KafkaConsumerEngine

end MeridianKafka
