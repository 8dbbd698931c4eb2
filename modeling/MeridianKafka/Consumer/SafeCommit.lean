import MeridianKafka.Consumer.Sound

/-!
# Contiguous safe commit

Within one assignment, a commit of offset `n` covers only resolved deliveries:
every record that was delivered below `n` has been acknowledged with a valid token
or dead-lettered; and the committed offsets increase strictly.

The invariant is `Ledger.SafeCommit`. Its central clause (`first`) finds the
offset `f` at which the assignment delivered first: nothing was delivered below
`f`, the client never reads below `f` again, and every offset from `f` up to the
safe offset is resolved. What makes it survive is that the client only ever seeks
to offsets that were delivered, and that an acknowledged offset, once it has left
the set in a commit that failed, is still resolved: the invariant speaks about the
offsets that the safe offset has passed, and a failed commit does not move it.
-/

namespace MeridianKafka

open Framework

/-- What the safe offset and the commits of a partition stand on. -/
structure Ledger.SafeCommit (L : Ledger) : Prop where
  sound : L.Sound
  inflight_delivered : ∀ o, (L.inflight o).isSome → o ∈ L.delivered
  paused_delivered : ∀ paused, L.paused = some paused → paused.offset ∈ L.delivered
  acknowledged_resolved : ∀ o ∈ L.acknowledged, o ∈ L.resolved
  unset : L.safeNext = none → L.delivered = [] ∧ L.commits = []
  first : ∀ s, L.safeNext = some s → ∃ f ≤ s, (∀ k, f ≤ k → k < s → k ∈ L.resolved) ∧
    (∀ d ∈ L.delivered, f ≤ d) ∧ ∃ r, L.fetch = some r ∧ f ≤ r
  commits_le : ∀ s, L.safeNext = some s → ∀ n ∈ L.commits, n ≤ s
  commits_increase : L.commits.Pairwise (· > ·)

namespace Ledger.SafeCommit

variable {L L' : Ledger} {o : ℕ}

theorem empty : Ledger.empty.SafeCommit where
  sound := .empty
  inflight_delivered o h := absurd h (by simp [Ledger.empty])
  paused_delivered q h := absurd h (by simp [Ledger.empty])
  acknowledged_resolved o h := absurd h (by simp [Ledger.empty])
  unset _ := ⟨rfl, rfl⟩
  first s h := absurd h (by simp [Ledger.empty])
  commits_le s h := absurd h (by simp [Ledger.empty])
  commits_increase := List.Pairwise.nil

/-- Steps that resolve and deliver nothing: the books lose entries at most, and the
client reads on from a delivered offset or from further ahead. -/
theorem mono (h : L.SafeCommit) (hi : ∀ o, (L'.inflight o).isSome → (L.inflight o).isSome)
    (hp : ∀ paused, L'.paused = some paused → paused.offset ∈ L.delivered)
    (ha : L'.acknowledged ⊆ L.acknowledged) (hs : L'.safeNext = L.safeNext)
    (hd : L'.delivered = L.delivered) (hr : L'.resolved = L.resolved)
    (hc : L'.commits = L.commits)
    (hf : L'.fetch = L.fetch ∨ ∃ r, L'.fetch = some r ∧
      (r ∈ L.delivered ∨ ∀ r', L.fetch = some r' → r' ≤ r)) : L'.SafeCommit where
  sound := h.sound.mono hi ha hs
  inflight_delivered o ho := by rw [hd]; exact h.inflight_delivered o (hi o ho)
  paused_delivered paused hq := by rw [hd]; exact hp paused hq
  acknowledged_resolved o ho := by rw [hr]; exact h.acknowledged_resolved o (ha ho)
  unset := by rw [hs, hd, hc]; exact h.unset
  first s := by
    rw [hs, hd, hr]
    intro hsome
    obtain ⟨f, hfs, hres, hdel, r, hr', hfr⟩ := h.first s hsome
    refine ⟨f, hfs, hres, hdel, ?_⟩
    -- the next record to fetch is a delivered one or lies behind the old one
    rcases hf with heq | ⟨r₂, heq, hmem | hge⟩
    · exact ⟨r, heq.trans hr', hfr⟩
    · exact ⟨r₂, heq, hdel r₂ hmem⟩
    · exact ⟨r₂, heq, hfr.trans (hge r hr')⟩
  commits_le := by rw [hs, hc]; exact h.commits_le
  commits_increase := by rw [hc]; exact h.commits_increase

/-- Every offset that an acknowledgement of `o` may consume is resolved by it. -/
theorem insert_resolved (h : L.SafeCommit) {k : ℕ} (hk : k ∈ insert o L.acknowledged) :
    k ∈ o :: L.resolved := by
  rcases Finset.mem_insert.mp hk with rfl | hk
  · exact List.mem_cons_self
  · exact List.mem_cons_of_mem _ (h.acknowledged_resolved k hk)

theorem acknowledge {transactional : Bool} {fails : Prop} (h : L.SafeCommit)
    (hi : (L.inflight o).isSome) (step : L.AcknowledgeStep o transactional fails L') :
    L'.SafeCommit := by
  have hsafe := h.sound.safeNext_of_inflight hi
  obtain ⟨f, hfs, hres, hdel, hfetch⟩ := h.first _ hsafe
  have hflight : ∀ k, (Function.update L.inflight o none k).isSome → k ∈ L.delivered := by
    intro k hk
    by_cases heq : k = o
    · simp [heq] at hk
    · rw [Function.update_of_ne heq] at hk
      exact h.inflight_delivered k hk
  have hsub : ∀ k ∈ (L.contiguous o).2, k ∈ o :: L.resolved := fun k hk =>
    h.insert_resolved (Finset.mem_insert.mpr (mem_contiguous.mp hk).1)
  have hsound := Sound.of_acknowledge step
  cases step with
  | failed hadv =>
    exact h.mono (fun _ => id) h.paused_delivered (h.sound.contiguous_subset hadv) hsafe.symm rfl rfl
      rfl (Or.inl rfl)
  | moved hadv =>
    have hreached : ∃ f ≤ (L.contiguous o).1,
        (∀ k, f ≤ k → k < (L.contiguous o).1 → k ∈ o :: L.resolved) ∧
        (∀ d ∈ L.delivered, f ≤ d) ∧ ∃ r, L.fetch = some r ∧ f ≤ r := by
      refine ⟨f, hfs.trans hadv.le, fun k hk hks => ?_, hdel, hfetch⟩
      by_cases hlt : k < L.original o
      · exact List.mem_cons_of_mem _ (hres k hk hlt)
      · exact h.insert_resolved ((L.contiguous_isFrontier o).covered k (not_lt.mp hlt) hks)
    have hle : ∀ n ∈ L.commits, n ≤ (L.contiguous o).1 :=
      fun n hn => (h.commits_le _ hsafe n hn).trans hadv.le
    -- Only a commit outside of a transaction is one of the group's commits.
    cases transactional with
    | true =>
      refine ⟨hsound, hflight, h.paused_delivered, hsub, fun hnone => absurd hnone (by
        simp [settle, setSafe, note, collect]), ?_, ?_, h.commits_increase⟩
      · rintro s hs
        obtain rfl : (L.contiguous o).1 = s := Option.some.inj hs
        exact hreached
      · rintro s hs
        obtain rfl : (L.contiguous o).1 = s := Option.some.inj hs
        exact hle
    | false =>
      refine ⟨hsound, hflight, h.paused_delivered, hsub, fun hnone => absurd hnone (by
        simp [settle, setSafe, note, collect]), ?_, ?_, ?_⟩
      · rintro s hs
        obtain rfl : (L.contiguous o).1 = s := Option.some.inj hs
        exact hreached
      · rintro s hs n hn
        obtain rfl : (L.contiguous o).1 = s := Option.some.inj hs
        rcases List.mem_cons.mp (show n ∈ (L.contiguous o).1 :: L.commits from hn) with rfl | hn
        · exact le_rfl
        · exact hle n hn
      · refine List.Pairwise.cons (fun n hn => ?_) h.commits_increase
        exact lt_of_le_of_lt (h.commits_le _ hsafe n hn) hadv
  | collected hwait =>
    refine ⟨hsound, hflight, h.paused_delivered, hsub, fun hnone => absurd hnone (by
      simp [settle, collect]), ?_, ?_, h.commits_increase⟩
    · rintro s hs
      obtain rfl : L.original o = s := Option.some.inj hs
      exact ⟨f, hfs, fun k hk hks => List.mem_cons_of_mem _ (hres k hk hks), hdel, hfetch⟩
    · rintro s hs
      obtain rfl : L.original o = s := Option.some.inj hs
      exact h.commits_le _ hsafe

/-- The client returns the record at `o` and it is handed out. -/
theorem handOut (h : L.SafeCommit) (hnext : ∀ r, L.fetch = some r → r ≤ o) (event : Event)
    (epoch expiresAtMs : ℕ) : (L.handOut o event epoch expiresAtMs).SafeCommit where
  sound := h.sound.handOut event epoch expiresAtMs
  inflight_delivered k hk := by
    rw [handOut_delivered]
    rw [handOut_inflight] at hk
    by_cases heq : k = o
    · exact heq ▸ List.mem_cons_self
    · rw [Function.update_of_ne heq] at hk
      exact List.mem_cons_of_mem _ (h.inflight_delivered k hk)
  paused_delivered paused hp := by
    rw [handOut_delivered]
    exact List.mem_cons_of_mem _ (h.paused_delivered paused ((handOut_paused ..).mp hp).1)
  acknowledged_resolved := by simpa using h.acknowledged_resolved
  unset hnone := by simp at hnone
  first s hs := by
    obtain rfl : L.original o = s := by simpa using hs
    rw [handOut_resolved, handOut_delivered, handOut_fetch]
    cases hold : L.safeNext with
    | none =>
      -- The first delivery of the assignment is where everything begins.
      rw [original_of_none hold, (h.unset hold).1]
      refine ⟨o, le_rfl, fun k hk hlt => absurd hlt (not_lt.mpr hk), ?_, o + 1, rfl, by omega⟩
      simp
    | some s =>
      obtain ⟨f, hfs, hres, hdel, r, hr, hfr⟩ := h.first s hold
      have hfo : f ≤ o := hfr.trans (hnext r hr)
      rw [original_of_some hold]
      refine ⟨f, hfs, hres, ?_, o + 1, rfl, by omega⟩
      intro d hd
      rcases List.mem_cons.mp hd with rfl | hd
      · exact hfo
      · exact hdel d hd
  commits_le s hs := by
    obtain rfl : L.original o = s := by simpa using hs
    rw [handOut_commits]
    cases hold : L.safeNext with
    | none => simp [(h.unset hold).2]
    | some s => rw [original_of_some hold]; exact h.commits_le s hold
  commits_increase := by rw [handOut_commits]; exact h.commits_increase

end Ledger.SafeCommit

namespace KafkaConsumerEngine

variable {Token : Type} {engine : KafkaConsumerEngine Token} {log : PartitionLog}
  {m : Member} {p : ℕ}

theorem PartitionStep.safeCommit {a : Action Token} {L' : Ledger}
    (step : PartitionStep engine log m p a L') (stays : a.Stays)
    (h : (m.ledger p).SafeCommit) : L'.SafeCommit := by
  -- A delivery leaves the flight and the client seeks to it.
  have hback : ∀ {command : NegativeAcknowledgeCommand Token} {nowMs : ℕ}
      {c : DeliveryCoordinates}, engine.GoesBack m command nowMs c → c.partition = p →
      c.offset ∈ (m.ledger p).delivered := by
    rintro command nowMs c back rfl
    obtain ⟨inflight, hget, -⟩ := back.inflight
    exact h.inflight_delivered _ (by rw [hget]; rfl)
  have hdrop : ∀ offset o, (((m.ledger p).dropInflight offset).inflight o).isSome →
      ((m.ledger p).inflight o).isSome := by
    intro offset o
    by_cases heq : o = offset <;> simp [Ledger.dropInflight, heq]
  cases step with
  | idle => exact h
  | @rewound env offset hreached =>
    obtain ⟨inflight, hget, -⟩ := (earliestExpired_of_mem hreached).1
    refine h.mono (fun o => ?_) h.paused_delivered (Finset.filter_subset _ _) rfl rfl rfl rfl
      (Or.inr ⟨offset, rfl, Or.inl (h.inflight_delivered offset (by rw [hget]; rfl))⟩)
    dsimp only [Ledger.rewind]
    split
    · exact id
    · simp
  | @resumeSought env paused hwait =>
    exact h.mono (fun _ => id) h.paused_delivered (subset_refl _) rfl rfl rfl rfl
      (Or.inr ⟨paused.offset, rfl, Or.inl (h.paused_delivered paused hwait)⟩)
  | @resumed env paused hwait =>
    exact h.mono (fun _ => id) (fun _ hp => absurd hp (by simp [Ledger.deletePaused]))
      (subset_refl _) rfl rfl rfl rfl
      (Or.inr ⟨paused.offset, rfl, Or.inl (h.paused_delivered paused hwait)⟩)
  | @stuck message env paused may here =>
    subst here
    exact h.mono (fun _ => id) h.paused_delivered (subset_refl _) rfl rfl rfl rfl
      (Or.inr ⟨message.offset + 1, rfl, Or.inr fun r hr =>
        (may.next r hr).1.trans (Nat.le_succ _)⟩)
  | @heldBack message env paused may here hwait hat =>
    exact h.mono (fun _ => id) h.paused_delivered (subset_refl _) rfl rfl rfl rfl
      (Or.inr ⟨message.offset, rfl, Or.inl (hat ▸ h.paused_delivered paused hwait)⟩)
  | @rejected message env raised may here =>
    subst here
    exact h.mono (fun o ho => by simpa using ho)
      (fun q hq => h.paused_delivered q ((Ledger.reject_paused _).mp hq).1) (by simp) (by simp)
      (by simp) (by simp) (by simp) (Or.inr ⟨message.offset + 1, by simp, Or.inr fun r hr =>
        (may.next r hr).1.trans (Nat.le_succ _)⟩)
  | @delivered message env event expiresAtMs may here =>
    subst here
    exact h.handOut (fun r hr => (may.next r hr).1) event _ _
  | acknowledged valid here step =>
    subst here
    obtain ⟨inflight, hget, -⟩ := valid.inflight
    exact h.acknowledge (by rw [hget]; rfl) step
  | deadLettered valid here step =>
    subst here
    obtain ⟨inflight, hget, -⟩ := valid.inflight
    exact h.acknowledge (by rw [hget]; rfl) step
  | dropped =>
    exact h.mono (hdrop _) h.paused_delivered (subset_refl _) rfl rfl rfl rfl (Or.inl rfl)
  | sought back here =>
    exact h.mono (hdrop _) h.paused_delivered (subset_refl _) rfl rfl rfl rfl
      (Or.inr ⟨_, rfl, Or.inl (hback back here)⟩)
  | pausedAt back here =>
    refine h.mono (hdrop _) (fun q hq => ?_) (subset_refl _) rfl rfl rfl rfl
      (Or.inr ⟨_, rfl, Or.inl (hback back here)⟩)
    obtain rfl := Option.some.inj hq
    exact hback back here
  | revoked => exact stays.elim
  | repositioned => exact stays.elim

/-- The invariant holds in every state of an assignment. -/
theorem AssignmentRun.safeCommit {start : Member} {run : List (Action Token)}
    (h : engine.AssignmentRun log start p run) :
    (engine.ledgerAfter log start p run).SafeCommit :=
  h.induction (C := fun _ _ => True) (fun _ _ => trivial) Ledger.SafeCommit.empty
    fun _ _ _ step within _ _ hI => step.safeCommit within.stays hI

/-- A record becomes resolved only by a call whose token is valid at that moment. -/
theorem PartitionStep.resolved_of_valid {a : Action Token} {L' : Ledger} {o : ℕ}
    (step : PartitionStep engine log m p a L') (new : o ∈ L'.resolved)
    (old : o ∉ (m.ledger p).resolved) :
    ∃ command nowMs c, engine.ValidToken m command nowMs c ∧ c.partition = p ∧ c.offset = o := by
  -- an acknowledgement resolves its own offset at most
  have hack : ∀ {c : DeliveryCoordinates} {transactional : Bool} {fails : Prop},
      (m.ledger p).AcknowledgeStep c.offset transactional fails L' → c.offset = o := by
    intro c transactional fails hstep
    cases hstep with
    | failed => exact absurd new old
    | moved =>
      have hmem : o ∈ c.offset :: (m.ledger p).resolved := by
        cases transactional <;> exact new
      exact ((List.mem_cons.mp hmem).resolve_right old).symm
    | collected =>
      exact ((List.mem_cons.mp (show o ∈ c.offset :: (m.ledger p).resolved from new)).resolve_right
        old).symm
  cases step with
  | acknowledged valid here hstep => exact ⟨_, _, _, valid, here, hack hstep⟩
  | deadLettered valid here hstep => exact ⟨_, _, _, valid, here, hack hstep⟩
  | rejected => exact absurd (by simpa using new) old
  | delivered => exact absurd (by simpa using new) old
  | repositioned target =>
    cases target <;> exact absurd new old
  | _ => exact absurd new old

/-- **Contiguous safe commit.** In every state of an assignment, every record of the
partition that was delivered below a committed offset is resolved, and the
committed offsets increase strictly. -/
theorem commits_cover_resolved (engine : KafkaConsumerEngine Token) (log : PartitionLog)
    (start : Member) (p : ℕ) (run : List (Action Token))
    (assignment : engine.AssignmentRun log start p run) :
    let L := engine.ledgerAfter log start p run
    (∀ n ∈ L.commits, ∀ d ∈ L.delivered, d < n → d ∈ L.resolved) ∧ L.commits.Pairwise (· > ·) := by
  intro L
  have h : L.SafeCommit := assignment.safeCommit
  refine ⟨fun n hn d hd hlt => ?_, h.commits_increase⟩
  cases hs : L.safeNext with
  | none =>
    rw [(h.unset hs).2] at hn
    exact absurd hn List.not_mem_nil
  | some s =>
    obtain ⟨f, -, hres, hdel, -⟩ := h.first s hs
    exact hres d (hdel d hd) (hlt.trans_le (h.commits_le s hs n hn))

/-- Two records acknowledged out of order, with a failed commit in between. -/
theorem commits_cover_resolved_out_of_order :
    let L := Sample.engine.ledgerAfter (Sample.log [0, 1, 2] []) (.joined Sample.command [0]) 0
      [Sample.receive 0, Sample.receive 1, Sample.acknowledge 1,
        Sample.acknowledge 0 (some .other), Sample.acknowledge 0]
    (∀ n ∈ L.commits, ∀ d ∈ L.delivered, d < n → d ∈ L.resolved) ∧ L.commits.Pairwise (· > ·) :=
  commits_cover_resolved Sample.engine _ _ _ _ ⟨rfl, by decide +kernel, by decide +kernel⟩

end KafkaConsumerEngine

end MeridianKafka
