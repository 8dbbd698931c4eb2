import MeridianKafka.Consumer.SafeCommit

/-!
# Rejected records

A record that cannot be decoded raises `InvalidEvent` out of `poll` after the client
has already moved past it. It should stay above the group's committed offset, so
that it is seen again and not skipped in silence.

It does when the partition had a delivery before: the safe offset is then set, it
moves only over acknowledged offsets, and a rejected record is never delivered
(`commits_le_rejected`). When the first record of an assignment is rejected there is
no safe offset yet, the next delivery puts it above the rejected record, and its
acknowledgement commits past it (`first_rejection_is_skipped`).
-/

namespace MeridianKafka

open Framework

namespace KafkaConsumerEngine

variable {Token : Type} (engine : KafkaConsumerEngine Token) {log : PartitionLog}
  {m : Member} {p : ℕ}

/-- If the operation rejects a record of the partition, the partition had a delivery
before. -/
def RejectsAfterDelivery (m : Member) (p : ℕ) : Action Token → Prop
  | .receive (.record message) _ => message.partition = p →
    (∃ raised, decodeEvent engine.parseEvent message m.state.command.stream = .error raised) →
      (m.ledger p).safeNext.isSome
  | _ => True

/-- The safe offset stays at or below every rejected record. -/
structure HoldsRejected (log : PartitionLog) (stream : PhysicalStream) (p : ℕ) (L : Ledger) :
    Prop where
  safe : L.SafeCommit
  decided : engine.Decided log stream p L
  resolved_delivered : ∀ o ∈ L.resolved, o ∈ L.delivered
  unset : L.safeNext = none → L.rejected = []
  below : ∀ s, L.safeNext = some s → ∀ r ∈ L.rejected, s ≤ r

variable {engine} {stream : PhysicalStream} {L L' : Ledger}

theorem HoldsRejected.empty : engine.HoldsRejected log stream p .empty where
  safe := .empty
  decided := .empty
  resolved_delivered o ho := absurd ho List.not_mem_nil
  unset _ := rfl
  below s hs := absurd hs (by simp [Ledger.empty])

/-- A rejected record is not delivered. -/
theorem HoldsRejected.notMem (h : engine.HoldsRejected log stream p L) {r : ℕ}
    (hr : r ∈ L.rejected) : r ∉ L.delivered :=
  fun hd => h.decided.rejected r hr (h.decided.delivered r hd)

/-- The safe offset advances only over delivered records, hence not over a rejected
one. -/
theorem HoldsRejected.contiguous_le (h : engine.HoldsRejected log stream p L) {o r : ℕ}
    (hi : (L.inflight o).isSome) (hr : r ∈ L.rejected) : (L.contiguous o).1 ≤ r := by
  have hsafe := h.safe.sound.safeNext_of_inflight hi
  refine (L.contiguous_isFrontier o).le_of_notMem (h.below _ hsafe r hr) fun hmem => ?_
  refine h.notMem hr ?_
  rcases Finset.mem_insert.mp (Finset.mem_coe.mp hmem) with rfl | hmem
  · exact h.safe.inflight_delivered _ hi
  · exact h.resolved_delivered r (h.safe.acknowledged_resolved r hmem)

theorem HoldsRejected.acknowledge {o : ℕ} {fails : Prop}
    (h : engine.HoldsRejected log stream p L) (hi : (L.inflight o).isSome)
    (step : L.AcknowledgeStep o false fails L') (decided : engine.Decided log stream p L') :
    engine.HoldsRejected log stream p L' := by
  have hsafe := h.safe.sound.safeNext_of_inflight hi
  have hresolved : ∀ k ∈ o :: L.resolved, k ∈ L.delivered := by
    intro k hk
    rcases List.mem_cons.mp hk with rfl | hk
    · exact h.safe.inflight_delivered _ hi
    · exact h.resolved_delivered k hk
  have hnext := h.safe.acknowledge hi step
  cases step with
  | failed =>
    exact ⟨hnext, decided, h.resolved_delivered, fun hnone => absurd hnone (by simp [Ledger.collect]),
      fun s hs => h.below s (hsafe.trans hs)⟩
  | moved =>
    refine ⟨hnext, decided, hresolved, fun hnone => absurd hnone (by
      simp [Ledger.settle, Ledger.setSafe]), fun s hs r hr => ?_⟩
    -- the position moves to the end of what is contiguous
    obtain rfl : (L.contiguous o).1 = s := Option.some.inj hs
    exact h.contiguous_le hi hr
  | collected =>
    exact ⟨hnext, decided, hresolved, fun hnone => absurd hnone (by
      simp [Ledger.settle, Ledger.collect]), fun s hs => h.below s (hsafe.trans hs)⟩

theorem PartitionStep.holdsRejected {a : Action Token}
    (step : PartitionStep engine log m p a L') (within : a.WithinAssignment)
    (command : m.state.command.stream = stream) (late : engine.RejectsAfterDelivery m p a)
    (h : engine.HoldsRejected log stream p (m.ledger p)) :
    engine.HoldsRejected log stream p L' := by
  have hsafe := step.safeCommit within.stays h.safe
  have hdecided := step.decided command h.decided
  -- Every step but three leaves the resolved and rejected records and the safe offset alone.
  have hsame : L'.delivered = (m.ledger p).delivered → L'.resolved = (m.ledger p).resolved →
      L'.rejected = (m.ledger p).rejected → L'.safeNext = (m.ledger p).safeNext →
      engine.HoldsRejected log stream p L' := by
    intro hd hr hj hs
    exact ⟨hsafe, hdecided, by rw [hd, hr]; exact h.resolved_delivered,
      by rw [hs, hj]; exact h.unset, by rw [hs, hj]; exact h.below⟩
  cases step with
  | idle => exact h
  | rewound => exact hsame rfl rfl rfl rfl
  | resumeSought => exact hsame rfl rfl rfl rfl
  | resumed => exact hsame rfl rfl rfl rfl
  | stuck => exact hsame rfl rfl rfl rfl
  | heldBack => exact hsame rfl rfl rfl rfl
  | @rejected message env raised may here decodes =>
    subst here
    have hset := late rfl ⟨raised, decodes⟩
    rw [command] at decodes
    obtain ⟨s, hs⟩ := Option.isSome_iff_exists.mp hset
    refine ⟨hsafe, hdecided, by simpa using h.resolved_delivered, fun hnone => ?_,
      fun s' hs' r hr => ?_⟩
    · rw [Ledger.reject_safeNext, hs] at hnone
      simp at hnone
    · rw [Ledger.reject_safeNext] at hs'
      rw [Ledger.reject_rejected] at hr
      rcases List.mem_cons.mp hr with rfl | hr
      · -- What the safe offset has passed was delivered, and this record never is.
        obtain ⟨f, -, hres, -, r, hfetch, hfr⟩ := h.safe.first s' hs'
        by_contra hlt
        have hmem := hres message.offset (hfr.trans (may.next r hfetch).1) (not_le.mp hlt)
        exact not_decodes_of_error may decodes
          (h.decided.delivered _ (h.resolved_delivered _ hmem))
      · exact h.below s' hs' r hr
  | @delivered message env event expiresAtMs may here =>
    refine ⟨hsafe, hdecided, fun o ho => ?_, fun hnone => by simp at hnone, fun s hs r hr => ?_⟩
    · rw [Ledger.handOut_delivered]
      exact List.mem_cons_of_mem _ (h.resolved_delivered o (by simpa using ho))
    · rw [Ledger.handOut_rejected] at hr
      rw [Ledger.handOut_safeNext] at hs
      obtain rfl := Option.some.inj hs
      cases hold : (m.ledger p).safeNext with
      | none =>
        rw [h.unset hold] at hr
        exact absurd hr List.not_mem_nil
      | some s =>
        rw [Ledger.original_of_some hold]
        exact h.below s hold r hr
  | acknowledged valid here step =>
    subst here
    obtain ⟨inflight, hget, -⟩ := valid.inflight
    obtain rfl : _ = none := within
    exact h.acknowledge (by rw [hget]; rfl) step hdecided
  | deadLettered valid here step =>
    subst here
    obtain ⟨inflight, hget, -⟩ := valid.inflight
    exact h.acknowledge (by rw [hget]; rfl) step hdecided
  | dropped => exact hsame rfl rfl rfl rfl
  | sought => exact hsame rfl rfl rfl rfl
  | pausedAt => exact hsame rfl rfl rfl rfl
  | revoked => exact within.elim
  | repositioned => exact within.elim

/-- **A rejected record stays uncommitted** in every state of an assignment that
rejects records of the partition only after a delivery of it. -/
theorem commits_le_rejected (engine : KafkaConsumerEngine Token) (log : PartitionLog)
    (start : Member) (p : ℕ) (run : List (Action Token))
    (assignment : engine.AssignmentRun log start p run)
    (late : ∀ x ∈ (engine.machine log).steps start run,
      engine.RejectsAfterDelivery x.1 p x.2) :
    ∀ o ∈ (engine.ledgerAfter log start p run).rejected,
      ∀ n ∈ (engine.ledgerAfter log start p run).commits, n ≤ o := by
  have h : engine.HoldsRejected log start.state.command.stream p
      (engine.ledgerAfter log start p run) := by
    refine assignment.induction (I := engine.HoldsRejected log start.state.command.stream p)
      (C := fun m a => engine.RejectsAfterDelivery m p a) late .empty ?_
    intro m a L' step within command hlate hI
    exact step.holdsRejected within (by rw [command]) hlate hI
  intro o ho n hn
  cases hs : (engine.ledgerAfter log start p run).safeNext with
  | none =>
    rw [(h.safe.unset hs).2] at hn
    exact absurd hn List.not_mem_nil
  | some s => exact (h.safe.commits_le s hs n hn).trans (h.below s hs o ho)

/-- A record between two good ones. -/
theorem commits_le_rejected_between :
    let L := Sample.engine.ledgerAfter (Sample.log [0, 2] [1]) (.joined Sample.command [0]) 0
      [Sample.receive 0, Sample.receivePoison 1, Sample.receive 2, Sample.acknowledge 2,
        Sample.acknowledge 0]
    ∀ o ∈ L.rejected, ∀ n ∈ L.commits, n ≤ o := by
  refine commits_le_rejected Sample.engine _ _ _ _ ⟨rfl, by decide +kernel, by decide +kernel⟩ ?_
  intro x hx
  simp only [Machine.steps_cons, Machine.steps_nil, List.mem_cons, List.not_mem_nil,
    or_false] at hx
  rcases hx with rfl | rfl | rfl | rfl | rfl
  · -- The first record can be decoded.
    rintro - ⟨raised, hraised⟩
    have hok : (decodeEvent Sample.engine.parseEvent (Sample.message 0) Sample.orders).isOk := by
      decide +kernel
    have hbad := congrArg Except.isOk hraised
    exact absurd (hok.symm.trans hbad) (by simp [Except.isOk, Except.toBool])
  · exact fun _ _ => by decide +kernel
  · exact fun _ _ => by decide +kernel
  · exact trivial
  · exact trivial

/-- **A record is skipped.** The first record of the assignment is rejected, the next
one is delivered and acknowledged, and its commit passes both. -/
theorem first_rejection_is_skipped :
    let run := [Sample.receivePoison 0, Sample.receive 1, Sample.acknowledge 1]
    let log := Sample.log [1] [0]
    let start := Member.joined Sample.command [0]
    Sample.engine.AssignmentRun log start 0 run ∧
      ¬∀ o ∈ (Sample.engine.ledgerAfter log start 0 run).rejected,
        ∀ n ∈ (Sample.engine.ledgerAfter log start 0 run).commits, n ≤ o :=
  ⟨⟨rfl, by decide +kernel, by decide +kernel⟩, by decide +kernel⟩

end KafkaConsumerEngine

end MeridianKafka
