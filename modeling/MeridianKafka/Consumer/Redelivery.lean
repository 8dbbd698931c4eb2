import MeridianKafka.Consumer.Sound

/-!
# Redelivery

A delivery that is given back or expires has to come again. `Ledger.NothingLost`
says that no record is out of reach: a delivered record that is not resolved is in
flight, or it lies at or above the place where consumption of the partition goes
on (the offset of a pending resume, or else the fetch position).

The engine does not keep this. Three operations seek the same partition, each to
its own offset and without a look at the others: a negative acknowledgement of
record 0 followed by one of record 1 leaves the client behind record 0
(`negativeAcknowledge_loses_record`). `RedeliveryKept` is the condition under
which a single call keeps every record within reach; it speaks about the ledger
before the call:

* a call that sends the client to its own offset must not leave a waiting record
  behind, below that offset;
* a call that takes its delivery out of the flight without sending the client
  there (a seek that raises, a resume of another delivery that stays pending) must
  have the client go on at or below that delivery anyway;
* an expiry may take out of the flight only what the client will come to.

Nothing else loses a record, so the condition on these calls suffices for whole
assignments (`nothingLost_of_kept`).
-/

namespace MeridianKafka

open Framework

namespace Ledger

/-- The place where consumption of the partition goes on. -/
def resumesAt (L : Ledger) : Option ℕ :=
  match L.paused with
  | some paused => some paused.offset
  | none => L.fetch

/-- Consumption goes on at this offset or below. -/
def Reaches (L : Ledger) (offset : ℕ) : Prop := ∃ r, L.resumesAt = some r ∧ r ≤ offset

/-- Delivered, not resolved, and not in flight: the record has to come again. -/
structure Awaiting (L : Ledger) (offset : ℕ) : Prop where
  delivered : offset ∈ L.delivered
  unresolved : offset ∉ L.resolved
  grounded : L.inflight offset = none

/-- No record is out of reach. -/
def NothingLost (L : Ledger) : Prop := ∀ offset, L.Awaiting offset → L.Reaches offset

theorem resumesAt_of_paused {L : Ledger} {paused : PausedDelivery} (h : L.paused = some paused) :
    L.resumesAt = some paused.offset := by
  rw [resumesAt, h]

theorem resumesAt_of_none {L : Ledger} (h : L.paused = none) : L.resumesAt = L.fetch := by
  rw [resumesAt, h]

/-- While a resume is pending, it alone decides where consumption goes on. -/
theorem resumesAt_congr {L L' : Ledger} {paused : PausedDelivery} (h : L.paused = some paused)
    (hp : L'.paused = L.paused) : L'.resumesAt = L.resumesAt := by
  rw [resumesAt_of_paused h, resumesAt_of_paused (hp.trans h)]

end Ledger

namespace KafkaConsumerEngine

variable {Token : Type} (engine : KafkaConsumerEngine Token) {log : PartitionLog}
  {m : Member} {p : ℕ}

/-- A negative acknowledgement at `offset` keeps every record within reach. -/
def NackKept (L : Ledger) (command : NegativeAcknowledgeCommand Token)
    (env : NegativeAcknowledgeEnv) (offset : ℕ) : Prop :=
  if env.seek.isSome ∨ (L.paused.isSome ∧ (command.retryAfterMs = 0 ∨ env.pause.isSome)) then
    offset ∈ L.resolved ∨ L.Reaches offset
  else ∀ d, L.Awaiting d → offset ≤ d

/-- An expiry that rewinds to `offset` keeps every record within reach. -/
def RewindKept (L : Ledger) (offset : ℕ) : Prop :=
  match L.paused with
  | none => ∀ d, L.Awaiting d → offset ≤ d
  | some paused => ∀ d ≥ offset, (L.inflight d).isSome → d ∉ L.resolved → paused.offset ≤ d

/-- The operation keeps every record of the partition within reach. -/
def RedeliveryKept (m : Member) (p : ℕ) : Action Token → Prop
  | .negativeAcknowledge command env =>
    ∀ c, engine.GoesBack m command env.nowMs c → c.partition = p →
      NackKept (m.ledger p) command env c.offset
  | .expireInflight env => ∀ offset, (p, offset) ∈ rewinds m env → RewindKept (m.ledger p) offset
  | _ => True

/-! ### What each step does to the records that wait -/

/-- The invariant: nothing is lost, and what was delivered is in the log and can be
decoded. -/
structure Redelivers (log : PartitionLog) (stream : PhysicalStream) (p : ℕ) (L : Ledger) : Prop where
  nothingLost : L.NothingLost
  decodes : ∀ d ∈ L.delivered, engine.Decodes log stream p d

variable {engine} {stream : PhysicalStream} {L L' : Ledger}

/-- A step after which no record waits that did not wait before, and after which
consumption goes on no further ahead. -/
theorem Redelivers.of_reach (h : engine.Redelivers log stream p L)
    (hd : L'.delivered = L.delivered)
    (hw : ∀ d, L'.Awaiting d → L.Awaiting d)
    (hr : ∀ d, L'.Awaiting d → L.Reaches d → L'.Reaches d) : engine.Redelivers log stream p L' where
  nothingLost d hd' := hr d hd' (h.nothingLost d (hw d hd'))
  decodes := by rw [hd]; exact h.decodes

/-- The client moves while a resume is pending. -/
theorem Redelivers.of_pending {paused : PausedDelivery} (h : engine.Redelivers log stream p L)
    (pending : L.paused = some paused) (hp : L'.paused = L.paused)
    (hd : L'.delivered = L.delivered) (hw : ∀ d, L'.Awaiting d → L.Awaiting d) :
    engine.Redelivers log stream p L' := by
  refine h.of_reach hd hw fun d _ hreach => ?_
  unfold Ledger.Reaches
  rwa [Ledger.resumesAt_congr pending hp]

/-- Resolving records and nothing else. -/
theorem Redelivers.acknowledge {o : ℕ} {transactional : Bool} {fails : Prop}
    (h : engine.Redelivers log stream p L)
    (step : L.AcknowledgeStep o transactional fails L') : engine.Redelivers log stream p L' := by
  -- Settling a record takes it out of what is owed, and moves neither the client nor a pause.
  have hsettle : ∀ K : Ledger, K.delivered = L.delivered → K.resolved = L.resolved →
      K.inflight = L.inflight → K.paused = L.paused → K.fetch = L.fetch →
      engine.Redelivers log stream p (K.settle o transactional) := by
    intro K hdel hres hinf hpaused hfetch
    have hresumes : (K.settle o transactional).resumesAt = L.resumesAt := by
      change (match K.paused with | some paused => some paused.offset | none => K.fetch) = _
      rw [hpaused, hfetch]
      rfl
    refine h.of_reach hdel (fun d hd => ?_) fun d _ hreach => ?_
    · have hne : d ≠ o := by
        rintro rfl
        exact hd.unresolved List.mem_cons_self
      refine ⟨hdel ▸ hd.delivered, fun hmem => hd.unresolved (List.mem_cons_of_mem _ ?_), ?_⟩
      · exact (show d ∈ K.resolved from hres ▸ hmem)
      · have hground := hd.grounded
        change Function.update K.inflight o none d = none at hground
        rw [Function.update_of_ne hne, hinf] at hground
        exact hground
    · unfold Ledger.Reaches
      rw [hresumes]
      exact hreach
  cases step with
  | failed => exact h.of_reach rfl (fun d hd => ⟨hd.1, hd.2, hd.3⟩) fun d _ hreach => hreach
  | moved =>
    cases transactional
    · exact hsettle _ rfl rfl rfl rfl rfl
    · exact hsettle _ rfl rfl rfl rfl rfl
  | collected => exact hsettle _ rfl rfl rfl rfl rfl

/-- When the client returns the record at `o`, the records that wait and are not
held back by another pause lie at `o` or above: the client has passed over none of
them. -/
theorem Redelivers.le_of_return {o d : ℕ} (h : engine.Redelivers log stream p L)
    (next : ∀ f, L.fetch = some f → ∀ k, f ≤ k → k < o → log p k = none)
    (free : ∀ paused, L.paused = some paused → paused.offset = o) (waits : L.Awaiting d) :
    o ≤ d := by
  obtain ⟨r, hr, hrd⟩ := h.nothingLost d waits
  cases hpaused : L.paused with
  | some paused =>
    rw [Ledger.resumesAt_of_paused hpaused, free paused hpaused] at hr
    exact (Option.some.inj hr).trans_le hrd
  | none =>
    rw [Ledger.resumesAt_of_none hpaused] at hr
    by_contra hlt
    obtain ⟨message, event, hlog, -⟩ := h.decodes d waits.delivered
    have hgap := next r hr d hrd (not_le.mp hlt)
    rw [hlog] at hgap
    simp at hgap

/-- After the return of the record at `o`, whether it was handed out or rejected,
every other record that waited is still within reach. -/
theorem Redelivers.reaches_of_return {o d : ℕ} (h : engine.Redelivers log stream p L)
    (next : ∀ f, L.fetch = some f → ∀ k, f ≤ k → k < o → log p k = none)
    (fetched : L'.fetch = some (o + 1))
    (unpaused : ∀ paused, L'.paused = some paused ↔ L.paused = some paused ∧ paused.offset ≠ o)
    (waits : L.Awaiting d) (hne : d ≠ o) : L'.Reaches d := by
  cases hpaused : L'.paused with
  | some paused =>
    have hold := ((unpaused paused).mp hpaused).1
    have hreach := h.nothingLost d waits
    unfold Ledger.Reaches at hreach ⊢
    rwa [Ledger.resumesAt_of_paused hpaused, ← Ledger.resumesAt_of_paused hold]
  | none =>
    have hle := h.le_of_return next (fun paused hold => by
      by_contra hne
      rw [(unpaused paused).mpr ⟨hold, hne⟩] at hpaused
      simp at hpaused) waits
    exact ⟨o + 1, by rw [Ledger.resumesAt_of_none hpaused, fetched], by omega⟩

/-- A delivery leaves the flight; the others wait as before. -/
theorem awaiting_of_drop {o d : ℕ} (h : (L.dropInflight o).Awaiting d) (hne : d ≠ o) :
    L.Awaiting d := by
  refine ⟨h.delivered, h.unresolved, ?_⟩
  have hground := h.grounded
  change Function.update L.inflight o none d = none at hground
  rwa [Function.update_of_ne hne] at hground

/-- A negative acknowledgement that leaves the place of consumption where it is. -/
theorem Redelivers.drop {o : ℕ} (h : engine.Redelivers log stream p L)
    (kept : o ∈ L.resolved ∨ L.Reaches o) (hd : L'.delivered = L.delivered)
    (hw : ∀ d, L'.Awaiting d → (L.dropInflight o).Awaiting d)
    (hr : L'.resumesAt = L.resumesAt) : engine.Redelivers log stream p L' where
  decodes := by rw [hd]; exact h.decodes
  nothingLost d hd' := by
    have hdrop := hw d hd'
    unfold Ledger.Reaches
    rw [hr]
    by_cases hne : d = o
    · subst hne
      exact kept.resolve_left hdrop.unresolved
    · exact h.nothingLost d (awaiting_of_drop hdrop hne)

/-- A negative acknowledgement from whose offset consumption goes on. -/
theorem Redelivers.sendBack {o : ℕ} (h : engine.Redelivers log stream p L)
    (kept : ∀ d, L.Awaiting d → o ≤ d) (hd : L'.delivered = L.delivered)
    (hw : ∀ d, L'.Awaiting d → (L.dropInflight o).Awaiting d)
    (hr : L'.resumesAt = some o) : engine.Redelivers log stream p L' where
  decodes := by rw [hd]; exact h.decodes
  nothingLost d hd' := by
    refine ⟨o, hr, ?_⟩
    by_cases hne : d = o
    · exact hne.symm.le
    · exact kept d (awaiting_of_drop (hw d hd') hne)

theorem Redelivers.rewind {o : ℕ} (h : engine.Redelivers log stream p L)
    (kept : RewindKept L o) : engine.Redelivers log stream p (L.rewind o) where
  decodes := h.decodes
  nothingLost d waits := by
    -- A record that waits after the rewind either waited before or has just left the flight.
    have hcases : L.Awaiting d ∨ (o ≤ d ∧ (L.inflight d).isSome) := by
      cases hinf : L.inflight d with
      | none => exact Or.inl ⟨waits.delivered, waits.unresolved, hinf⟩
      | some inflight =>
        refine Or.inr ⟨?_, rfl⟩
        by_contra hlt
        have hground := waits.grounded
        change (if d < o then L.inflight d else none) = none at hground
        rw [if_pos (not_le.mp hlt), hinf] at hground
        simp at hground
    unfold RewindKept at kept
    cases hpaused : L.paused with
    | none =>
      rw [hpaused] at kept
      refine ⟨o, Ledger.resumesAt_of_none hpaused, ?_⟩
      rcases hcases with hwait | ⟨hle, -⟩
      · exact kept d hwait
      · exact hle
    | some paused =>
      rw [hpaused] at kept
      have hsame : (L.rewind o).resumesAt = L.resumesAt := Ledger.resumesAt_congr hpaused rfl
      unfold Ledger.Reaches
      rw [hsame]
      rcases hcases with hwait | ⟨hle, hinf⟩
      · exact h.nothingLost d hwait
      · exact ⟨paused.offset, Ledger.resumesAt_of_paused hpaused, kept d hle hinf waits.unresolved⟩

/-! ### Steps and assignments -/

theorem PartitionStep.redelivers {a : Action Token} (step : PartitionStep engine log m p a L')
    (within : a.WithinAssignment) (command : m.state.command.stream = stream)
    (kept : engine.RedeliveryKept m p a) (h : engine.Redelivers log stream p (m.ledger p)) :
    engine.Redelivers log stream p L' := by
  cases step with
  | idle => exact h
  | rewound hreached => exact h.rewind (kept _ hreached)
  | resumeSought pending => exact h.of_pending pending rfl rfl fun d hd => ⟨hd.1, hd.2, hd.3⟩
  | resumed pending =>
    refine h.of_reach rfl (fun d hd => ⟨hd.1, hd.2, hd.3⟩) fun d _ hreach => ?_
    obtain ⟨r, hr, hrd⟩ := hreach
    rw [Ledger.resumesAt_of_paused pending] at hr
    exact ⟨r, hr, hrd⟩
  | stuck _ _ pending => exact h.of_pending pending rfl rfl fun d hd => ⟨hd.1, hd.2, hd.3⟩
  | heldBack _ _ pending => exact h.of_pending pending rfl rfl fun d hd => ⟨hd.1, hd.2, hd.3⟩
  | @rejected message env raised may here decodes =>
    subst here
    have hwait : ∀ d, ((m.ledger message.partition).reject message.offset).Awaiting d →
        (m.ledger message.partition).Awaiting d := fun d hd =>
      ⟨by simpa using hd.delivered, by simpa using hd.unresolved, by simpa using hd.grounded⟩
    refine h.of_reach (by simp) hwait fun d hd _ => ?_
    refine h.reaches_of_return (fun f hf => (may.next f hf).2) (by simp)
      (fun paused => Ledger.reject_paused _) (hwait d hd) ?_
    -- The record does not decode, so it was not delivered before.
    rintro rfl
    rw [command] at decodes
    exact not_decodes_of_error may decodes (h.decodes _ (hwait _ hd).delivered)
  | @delivered message env event expiresAtMs may here decodes =>
    subst here
    refine ⟨fun d hd => ?_, fun d hd => ?_⟩
    · have hne : d ≠ message.offset := by
        rintro rfl
        have hground := hd.grounded
        simp at hground
      refine h.reaches_of_return (fun f hf => (may.next f hf).2) (by simp)
        (fun paused => Ledger.handOut_paused ..) ⟨?_, ?_, ?_⟩ hne
      · have hdel := hd.delivered
        rw [Ledger.handOut_delivered] at hdel
        exact (List.mem_cons.mp hdel).resolve_left hne
      · simpa using hd.unresolved
      · have hground := hd.grounded
        rwa [Ledger.handOut_inflight, Function.update_of_ne hne] at hground
    · rw [Ledger.handOut_delivered] at hd
      rcases List.mem_cons.mp hd with rfl | hd
      · exact ⟨message, event, may.visible, command ▸ decodes⟩
      · exact h.decodes d hd
  | acknowledged _ _ step => exact h.acknowledge step
  | deadLettered _ _ step => exact h.acknowledge step
  | dropped back here raises =>
    have hkept := kept _ back here
    rw [NackKept, if_pos (Or.inl raises)] at hkept
    exact h.drop hkept rfl (fun d hd => hd) rfl
  | @sought command env c back here seek at_once =>
    have hkept := kept _ back here
    unfold NackKept at hkept
    cases hpaused : (m.ledger p).paused with
    | none =>
      rw [if_neg (by simp [hpaused, seek])] at hkept
      exact h.sendBack hkept rfl (fun d hd => ⟨hd.1, hd.2, hd.3⟩)
        (Ledger.resumesAt_of_none hpaused)
    | some paused =>
      rw [if_pos (Or.inr ⟨by rw [hpaused]; rfl, at_once⟩)] at hkept
      exact h.drop hkept rfl (fun d hd => ⟨hd.1, hd.2, hd.3⟩)
        (Ledger.resumesAt_congr hpaused rfl)
  | pausedAt back here seek later =>
    have hkept := kept _ back here
    rw [NackKept, if_neg (by simp only [seek, later]; simp)] at hkept
    exact h.sendBack hkept rfl (fun d hd => ⟨hd.1, hd.2, hd.3⟩) rfl
  | revoked => exact within.elim
  | repositioned => exact within.elim

/-- **Nothing is lost** in any state of an assignment whose calls all keep the
records within reach. -/
theorem nothingLost_of_kept (engine : KafkaConsumerEngine Token) (log : PartitionLog)
    (start : Member) (p : ℕ) (run : List (Action Token))
    (assignment : engine.AssignmentRun log start p run)
    (kept : ∀ x ∈ (engine.machine log).steps start run, engine.RedeliveryKept x.1 p x.2) :
    (engine.ledgerAfter log start p run).NothingLost := by
  have empty : engine.Redelivers log start.state.command.stream p .empty :=
    ⟨fun d hd => absurd hd.delivered List.not_mem_nil,
      fun d hd => absurd hd List.not_mem_nil⟩
  refine (assignment.induction (I := engine.Redelivers log start.state.command.stream p)
    (C := fun m a => engine.RedeliveryKept m p a) kept empty ?_).nothingLost
  intro m a L' step within command hkept hI
  exact step.redelivers within (by rw [command]) hkept hI

/-- Giving back the second of two deliveries in flight keeps both within reach. -/
theorem nothingLost_after_one_nack :
    (Sample.engine.ledgerAfter (Sample.log [0, 1] []) (.joined Sample.command [0]) 0
      [Sample.receive 0, Sample.receive 1, Sample.negativeAcknowledge 1]).NothingLost := by
  refine nothingLost_of_kept _ _ _ _ _ ⟨rfl, by decide +kernel, by decide +kernel⟩ ?_
  intro x hx
  simp only [Machine.steps_cons, Machine.steps_nil, List.mem_cons, List.not_mem_nil,
    or_false] at hx
  rcases hx with rfl | rfl | rfl
  · exact trivial
  · exact trivial
  · intro c _ _
    rw [NackKept, if_neg (by decide +kernel)]
    intro d hd
    -- Both deliveries are in flight, so no record waits.
    have hmem : d ∈ [1, 0] := hd.delivered
    have hground := congrArg Option.isSome hd.grounded
    rcases List.mem_cons.mp hmem with rfl | hmem
    · exact absurd hground (by decide +kernel)
    · obtain rfl := List.mem_singleton.mp hmem
      exact absurd hground (by decide +kernel)

/-- **A record is lost.** Records 0 and 1 are delivered and given back in this order,
each for redelivery at once. The client ends at 1, and record 0, neither resolved
nor in flight, does not come again. -/
theorem negativeAcknowledge_loses_record :
    let run := [Sample.receive 0, Sample.receive 1, Sample.negativeAcknowledge 0,
      Sample.negativeAcknowledge 1]
    Sample.engine.AssignmentRun (Sample.log [0, 1] []) (.joined Sample.command [0]) 0 run ∧
      ¬(Sample.engine.ledgerAfter (Sample.log [0, 1] []) (.joined Sample.command [0]) 0
        run).NothingLost := by
  refine ⟨⟨rfl, by decide +kernel, by decide +kernel⟩, fun h => ?_⟩
  obtain ⟨r, hr, hle⟩ := h 0 ⟨by decide +kernel, by decide +kernel, rfl⟩
  have hresumes : some r = some 1 := hr.symm.trans (by decide +kernel)
  obtain rfl := Option.some.inj hresumes
  omega

end KafkaConsumerEngine

end MeridianKafka
