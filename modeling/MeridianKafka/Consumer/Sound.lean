import MeridianKafka.Consumer.Step

/-!
# The books of a partition fit together

`Ledger.Sound` is what holds of the books of every partition in every state that
the engine can reach, by any of its operations: a partition with deliveries in
flight or acknowledged offsets has a safe offset, and the safe offset itself is
never among the acknowledged ones.

The last clause decides what an acknowledgement does: the safe offset advances
exactly when the acknowledged offset is the safe offset
(`Ledger.Sound.advances_iff`), and the run it then consumes starts there.

`Decided` is about the records themselves: whether a record can be decoded is a
property of the log, so a record is never delivered at one time and rejected at
another.
-/

namespace MeridianKafka

open Framework

/-- The books of a partition fit together. -/
structure Ledger.Sound (L : Ledger) : Prop where
  inflight_safe : ∀ o, (L.inflight o).isSome → L.safeNext.isSome
  acknowledged_safe : ∀ o ∈ L.acknowledged, L.safeNext.isSome
  safe_notMem : ∀ s, L.safeNext = some s → s ∉ L.acknowledged

namespace Ledger

variable {L : Ledger} {o : ℕ}

/-! ### The contiguous run -/

theorem contiguous_isFrontier (L : Ledger) (o : ℕ) :
    IsFrontier (↑(insert o L.acknowledged) : Set ℕ) (L.original o) (L.contiguous o).1 :=
  advance_isFrontier _ _

theorem mem_contiguous {k : ℕ} :
    k ∈ (L.contiguous o).2 ↔
      (k = o ∨ k ∈ L.acknowledged) ∧ ¬(L.original o ≤ k ∧ k < (L.contiguous o).1) := by
  rw [contiguous, mem_advance, Finset.mem_insert]

/-- The safe offset after an acknowledgement is not among the acknowledged ones. -/
theorem contiguous_notMem : (L.contiguous o).1 ∉ (L.contiguous o).2 := by
  intro h
  have hmem := mem_contiguous.mp h
  exact (L.contiguous_isFrontier o).stops (Finset.mem_coe.mpr (Finset.mem_insert.mpr hmem.1))

theorem original_of_some {s : ℕ} (h : L.safeNext = some s) : L.original o = s := by
  rw [original, h, Option.getD_some]

theorem original_of_none (h : L.safeNext = none) : L.original o = o := by
  rw [original, h, Option.getD_none]

namespace Sound

/-- The safe offset is not among the acknowledged ones, whether it is there yet or
is about to be set. -/
theorem original_notMem (h : L.Sound) : L.original o ∉ L.acknowledged := by
  cases hs : L.safeNext with
  | none =>
    intro hmem
    have := h.acknowledged_safe _ hmem
    rw [hs] at this
    exact absurd this (by simp)
  | some s =>
    rw [original_of_some hs]
    exact h.safe_notMem s hs

/-- **When the safe offset advances**: exactly when it is the offset that is being
acknowledged. -/
theorem advances_iff (h : L.Sound) : L.original o < (L.contiguous o).1 ↔ o = L.original o := by
  rw [(L.contiguous_isFrontier o).lt_iff, Finset.mem_coe, Finset.mem_insert, eq_comm]
  exact or_iff_left h.original_notMem

/-- A partition with a delivery in flight has its safe offset. -/
theorem safeNext_of_inflight (h : L.Sound) (hi : (L.inflight o).isSome) :
    L.safeNext = some (L.original o) := by
  obtain ⟨s, hs⟩ := Option.isSome_iff_exists.mp (h.inflight_safe o hi)
  rw [original_of_some hs, hs]

/-- When the safe offset advances, the offset being acknowledged leaves the set
again with the run that it starts. -/
theorem contiguous_subset (h : L.Sound) (advances : L.original o < (L.contiguous o).1) :
    (L.contiguous o).2 ⊆ L.acknowledged := by
  intro k hk
  obtain ⟨heq | hk', hnot⟩ := mem_contiguous.mp hk
  · subst heq
    have hself := h.advances_iff.mp advances
    exact absurd ⟨hself.symm.le, lt_of_eq_of_lt hself advances⟩ hnot
  · exact hk'

/-- When the next offset is not acknowledged, the run is the offset alone and leaves
the set as it was. -/
theorem contiguous_of_next_notMem (h : L.Sound) (advances : L.original o < (L.contiguous o).1)
    (next : o + 1 ∉ L.acknowledged) : (L.contiguous o).2 = L.acknowledged := by
  have hself := h.advances_iff.mp advances
  refine (h.contiguous_subset advances).antisymm fun k hk => ?_
  have hend : (L.contiguous o).1 ≤ o + 1 := by
    refine (L.contiguous_isFrontier o).le_of_notMem (by omega) fun hin => ?_
    rcases Finset.mem_insert.mp (Finset.mem_coe.mp hin) with heq | hin
    · omega
    · exact next hin
  refine mem_contiguous.mpr ⟨Or.inr hk, fun hlt => ?_⟩
  obtain rfl : k = L.original o := by omega
  exact h.original_notMem hk

/-- When the next offset is acknowledged, it leaves the set with the run. -/
theorem next_notMem_contiguous (h : L.Sound) (advances : L.original o < (L.contiguous o).1)
    (next : o + 1 ∈ L.acknowledged) : o + 1 ∉ (L.contiguous o).2 := by
  intro hmem
  have hself := h.advances_iff.mp advances
  have hend : (L.contiguous o).1 ≠ o + 1 := by
    intro heq
    refine (L.contiguous_isFrontier o).stops (Finset.mem_coe.mpr ?_)
    rw [heq]
    exact Finset.mem_insert_of_mem next
  exact (mem_contiguous.mp hmem).2 ⟨by omega, by omega⟩

theorem empty : Ledger.empty.Sound where
  inflight_safe o h := absurd h (by simp [Ledger.empty])
  acknowledged_safe o h := absurd h (by simp [Ledger.empty])
  safe_notMem s h := absurd h (by simp [Ledger.empty])

/-! ### Every operation keeps the books sound -/

/-- Only the deliveries in flight, the acknowledged offsets and the safe offset
matter. -/
theorem congr {L' : Ledger} (h : L.Sound) (hi : L'.inflight = L.inflight)
    (ha : L'.acknowledged = L.acknowledged) (hs : L'.safeNext = L.safeNext) : L'.Sound where
  inflight_safe o := by rw [hi, hs]; exact h.inflight_safe o
  acknowledged_safe o := by rw [ha, hs]; exact h.acknowledged_safe o
  safe_notMem s := by rw [ha, hs]; exact h.safe_notMem s

/-- Books that only lose deliveries and acknowledged offsets stay sound. -/
theorem mono {L' : Ledger} (h : L.Sound) (hi : ∀ o, (L'.inflight o).isSome → (L.inflight o).isSome)
    (ha : L'.acknowledged ⊆ L.acknowledged) (hs : L'.safeNext = L.safeNext) : L'.Sound where
  inflight_safe o ho := by rw [hs]; exact h.inflight_safe o (hi o ho)
  acknowledged_safe o ho := by rw [hs]; exact h.acknowledged_safe o (ha ho)
  safe_notMem s := by rw [hs]; exact fun hsome hmem => h.safe_notMem s hsome (ha hmem)

theorem handOut (h : L.Sound) (event : Event) (epoch expiresAtMs : ℕ) :
    (L.handOut o event epoch expiresAtMs).Sound where
  inflight_safe _ _ := by simp
  acknowledged_safe _ _ := by simp
  safe_notMem s hs := by
    obtain rfl : L.original o = s := by simpa using hs
    simpa using h.original_notMem

/-- Whatever the books were, an acknowledgement leaves them sound. -/
theorem of_acknowledge {L' : Ledger} {transactional : Bool} {fails : Prop}
    (step : L.AcknowledgeStep o transactional fails L') : L'.Sound := by
  cases step with
  | failed hadv =>
    refine ⟨fun _ _ => rfl, fun _ _ => rfl, ?_⟩
    rintro s hs
    obtain rfl : L.original o = s := Option.some.inj hs
    intro hmem
    exact (mem_contiguous.mp hmem).2 ⟨le_rfl, hadv⟩
  | moved hadv =>
    refine ⟨fun _ _ => rfl, fun _ _ => rfl, ?_⟩
    rintro s hs
    obtain rfl : (L.contiguous o).1 = s := Option.some.inj hs
    exact contiguous_notMem
  | collected hwait =>
    refine ⟨fun _ _ => rfl, fun _ _ => rfl, ?_⟩
    rintro s hs
    obtain rfl : L.original o = s := Option.some.inj hs
    -- nothing is contiguous beyond the offset that is waited for
    have heq : (L.contiguous o).1 = L.original o :=
      le_antisymm hwait (L.contiguous_isFrontier o).le
    rw [← heq]
    exact contiguous_notMem

end Sound

end Ledger

namespace KafkaConsumerEngine

variable {Token : Type} {engine : KafkaConsumerEngine Token} {log : PartitionLog}
  {m : Member} {p : ℕ}

theorem PartitionStep.sound {a : Action Token} {L' : Ledger}
    (step : PartitionStep engine log m p a L') (h : (m.ledger p).Sound) : L'.Sound := by
  -- Taking a record out of flight leaves less to be accounted for.
  have hdrop : ∀ offset, ((m.ledger p).dropInflight offset).Sound := by
    intro offset
    refine h.mono (fun o => ?_) (subset_refl _) rfl
    by_cases heq : o = offset <;> simp [Ledger.dropInflight, heq]
  -- One case for each thing that a call can do to the partition.
  cases step with
  | idle => exact h
  | rewound =>
    refine h.mono (fun o => ?_) (Finset.filter_subset _ _) rfl
    dsimp only [Ledger.rewind]
    split
    · exact id
    · simp
  | resumeSought => exact h.congr rfl rfl rfl
  | resumed => exact h.congr rfl rfl rfl
  | stuck => exact h.congr rfl rfl rfl
  | heldBack => exact h.congr rfl rfl rfl
  | rejected => exact h.congr (by simp) (by simp) (by simp)
  | delivered => exact h.handOut _ _ _
  | acknowledged _ _ step => exact .of_acknowledge step
  | deadLettered _ _ step => exact .of_acknowledge step
  | dropped => exact hdrop _
  | sought => exact (hdrop _).congr rfl rfl rfl
  | pausedAt => exact (hdrop _).congr rfl rfl rfl
  | revoked =>
    refine h.mono (fun o ho => ?_) (Finset.empty_subset _) rfl
    simp [Ledger.revoke] at ho
  | repositioned =>
    exact ⟨fun o ho => absurd ho (by simp [Ledger.reposition]),
      fun o ho => absurd ho (by simp [Ledger.reposition]), fun s _ => by simp [Ledger.reposition]⟩

/-- **The books are sound in every reachable state**, after any run of the engine's
operations. -/
theorem sound_of_run (command : PollCommand) (run : List (Action Token))
    (legal : (engine.machine log).Legal (.create command) run) (p : ℕ) :
    (((engine.machine log).play (.create command) run).ledger p).Sound := by
  refine Machine.play_induction (I := fun m => (m.ledger p).Sound) (C := fun _ _ => True)
    ?_ Ledger.Sound.empty legal (fun _ _ => trivial)
  intro m a h hallowed _
  exact (engine.next_step log hallowed).sound h

/-! ### Decoding is decided by the log -/

/-- The record at this offset of the log can be decoded. -/
def Decodes (engine : KafkaConsumerEngine Token) (log : PartitionLog) (stream : PhysicalStream)
    (p offset : ℕ) : Prop :=
  ∃ message event, log p offset = some message ∧
    decodeEvent engine.parseEvent message stream = .ok event

/-- The delivered records can be decoded and the rejected ones cannot. -/
structure Decided (engine : KafkaConsumerEngine Token) (log : PartitionLog)
    (stream : PhysicalStream) (p : ℕ) (L : Ledger) : Prop where
  delivered : ∀ d ∈ L.delivered, engine.Decodes log stream p d
  rejected : ∀ r ∈ L.rejected, ¬engine.Decodes log stream p r

theorem Decided.empty {stream : PhysicalStream} : engine.Decided log stream p .empty :=
  ⟨fun _ h => absurd h List.not_mem_nil, fun _ h => absurd h List.not_mem_nil⟩

/-- A record that fails to decode when the client returns it does not decode. -/
theorem not_decodes_of_error {message : Message} {stream : PhysicalStream} {raised : Raised}
    (may : MayReturn log m message)
    (h : decodeEvent engine.parseEvent message stream = .error raised) :
    ¬engine.Decodes log stream message.partition message.offset := by
  rintro ⟨message', event, hlog, hdec⟩
  rw [may.visible] at hlog
  obtain rfl := Option.some.inj hlog
  rw [h] at hdec
  simp at hdec

theorem PartitionStep.decided {a : Action Token} {L' : Ledger} {stream : PhysicalStream}
    (step : PartitionStep engine log m p a L') (command : m.state.command.stream = stream)
    (h : engine.Decided log stream p (m.ledger p)) : engine.Decided log stream p L' := by
  have hack : ∀ {o : ℕ} {transactional : Bool} {fails : Prop} {L' : Ledger},
      (m.ledger p).AcknowledgeStep o transactional fails L' → engine.Decided log stream p L' := by
    intro o transactional fails L' hstep
    cases hstep with
    | failed => exact ⟨h.delivered, h.rejected⟩
    | moved => cases transactional <;> exact ⟨h.delivered, h.rejected⟩
    | collected => exact ⟨h.delivered, h.rejected⟩
  -- Only a record that is rejected or delivered joins the history; the step says how it decodes.
  cases step with
  | @rejected message env raised may here decodes =>
    subst here
    rw [command] at decodes
    refine ⟨by simpa using h.delivered, fun r hr => ?_⟩
    rw [Ledger.reject_rejected] at hr
    rcases List.mem_cons.mp hr with rfl | hr
    · exact not_decodes_of_error may decodes
    · exact h.rejected r hr
  | @delivered message env event expiresAtMs may here decodes =>
    subst here
    rw [command] at decodes
    refine ⟨fun d hd => ?_, by simpa using h.rejected⟩
    rw [Ledger.handOut_delivered] at hd
    rcases List.mem_cons.mp hd with rfl | hd
    · exact ⟨message, event, may.visible, decodes⟩
    · exact h.delivered d hd
  | acknowledged _ _ step => exact hack step
  | deadLettered _ _ step => exact hack step
  | repositioned target => cases target <;> exact ⟨h.delivered, h.rejected⟩
  | _ => exact ⟨h.delivered, h.rejected⟩

end KafkaConsumerEngine

end MeridianKafka
