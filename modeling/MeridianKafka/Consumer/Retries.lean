import MeridianKafka.Consumer.FailedRedelivery
import MeridianKafka.Consumer.Members

/-!
# Redeliveries are bounded

A delivery that is given back comes again with its attempt number counted up, and a delivery
whose attempts are used up goes to the Dead Letter Stream instead. So a record that nobody can
process does not go round for ever: within one assignment it is given back fewer times than the
Subscription allows attempts (`redeliveries_lt`), however often it was also delivered again
because it expired, or because the client went back for another record.

`Ledger.Counted` ties the two counts of the engine together: the attempt of a delivery in flight
is the one that `attempts` remembers for its record.
-/

namespace MeridianKafka

open Framework

namespace Ledger

variable {L L' : Ledger} {o k : ℕ}

/-- The record has been given back `n` times, and each time its attempt number has grown. -/
structure Retried (o n : ℕ) (L : Ledger) : Prop where
  attempts : n ≤ (L.attempts o).getD 0
  inflight : ∀ i, L.inflight o = some i → L.attempts o = some i.attempt ∧ n < i.attempt

/-- The attempts at the record stay, and it is not put in flight anew. -/
theorem Retried.mono {n : ℕ} (h : L.Retried o n) (ha : L'.attempts o = L.attempts o)
    (hi : ∀ i, L'.inflight o = some i → L.inflight o = some i) : L'.Retried o n where
  attempts := by rw [ha]; exact h.attempts
  inflight i hi' := by rw [ha]; exact h.inflight i (hi i hi')

theorem Retried.handOut {n : ℕ} (h : L.Retried o n) (event : Event) (epoch expiresAtMs : ℕ) :
    (L.handOut k event epoch expiresAtMs).Retried o n := by
  have hle := h.attempts
  by_cases hk : o = k
  · subst hk
    constructor
    · rw [handOut_attempts, Function.update_self, Option.getD_some]
      omega
    · intro i hi
      rw [handOut_inflight, Function.update_self] at hi
      obtain rfl := Option.some.inj hi
      rw [handOut_attempts, Function.update_self]
      exact ⟨rfl, by dsimp only; omega⟩
  · refine h.mono ?_ fun i hi => ?_
    · rw [handOut_attempts, Function.update_of_ne hk]
    · rwa [handOut_inflight, Function.update_of_ne hk] at hi

end Ledger

namespace KafkaConsumerEngine

variable {Token : Type} {engine : KafkaConsumerEngine Token} {log : PartitionLog}
  {m : Member} {p o n : ℕ}

/-- The operation gives the delivery of this record back for another attempt. -/
def givesBack (engine : KafkaConsumerEngine Token) (p o : ℕ) (m : Member) : Action Token → Bool
  | .negativeAcknowledge command env =>
    match engine.cursor.decodeDelivery env.nowMs command.delivery command.subscription.ref
      command.consumerGroup.ref command.stream.topic with
    | .ok c => c.partition = p && c.offset = o && (negativeAcknowledgeGuard m c).toBool &&
        (deadLetterStream command c).isNone
    | .error _ => false
  | _ => false

/-- How often the record is given back in these steps. -/
def redeliveries (engine : KafkaConsumerEngine Token) (p o : ℕ)
    (steps : List (Member × Action Token)) : ℕ :=
  steps.countP fun x => engine.givesBack p o x.1 x.2

theorem exists_of_givesBack {a : Action Token} (h : engine.givesBack p o m a = true) :
    ∃ command env c, a = .negativeAcknowledge command env ∧
      engine.GoesBack m command env.nowMs c ∧ c.partition = p ∧ c.offset = o := by
  unfold givesBack at h
  split at h
  · next command env =>
    split at h
    · next c hdecodes =>
      simp only [Bool.and_eq_true, decide_eq_true_eq] at h
      obtain ⟨⟨⟨hp, ho⟩, hguard⟩, hlive⟩ := h
      refine ⟨command, env, c, rfl, ⟨hdecodes, ?_, Option.isNone_iff_eq_none.mp hlive⟩, hp, ho⟩
      cases hresult : negativeAcknowledgeGuard m c with
      | error failure => rw [hresult] at hguard; simp [Except.toBool] at hguard
      | ok inflight => exact ⟨inflight, rfl⟩
    · simp at h
  · simp at h

/-- A delivery that is given back has attempts left. -/
theorem GoesBack.attempt_lt {command : NegativeAcknowledgeCommand Token} {nowMs : ℕ}
    {c : DeliveryCoordinates} (h : engine.GoesBack m command nowMs c)
    (deadLetters : command.subscription.deadLetterStream.isSome) :
    c.attempt < command.subscription.maxDeliveryAttempts := by
  have hlive := h.live
  unfold deadLetterStream at hlive
  split at hlive
  · rw [hlive] at deadLetters
    simp at deadLetters
  · omega

/-- The delivery leaves the flight, and the attempts at the record stay. -/
theorem GoesBack.ledger {command : NegativeAcknowledgeCommand Token}
    {env : NegativeAcknowledgeEnv} {c : DeliveryCoordinates}
    (h : engine.GoesBack m command env.nowMs c) :
    ((engine.negativeAcknowledge m command env).2.ledger c.partition).inflight c.offset = none ∧
      ((engine.negativeAcknowledge m command env).2.ledger c.partition).attempts c.offset =
        (m.ledger c.partition).attempts c.offset := by
  have hdrop : (((m.dropInflight c.partition c.offset).ledger c.partition).inflight c.offset =
      none) ∧ ((m.dropInflight c.partition c.offset).ledger c.partition).attempts c.offset =
        (m.ledger c.partition).attempts c.offset := by
    rw [Member.ledger_dropInflight, if_pos rfl]
    exact ⟨Function.update_self .., rfl⟩
  rw [h.negativeAcknowledge_eq]
  rcases scheduleRedelivery_cases command c env with
    ⟨-, heq⟩ | ⟨-, -, heq⟩ | ⟨-, -, heq⟩ <;> rw [heq] <;> exact hdrop

/-- Steps keep what is known of the attempts at a record. Only a step that resolves it forgets how
often it was given back. -/
theorem PartitionStep.retried {a : Action Token} {L' : Ledger}
    (step : PartitionStep engine log m p a L') (within : a.WithinAssignment)
    (unresolved : n = 0 ∨ L'.resolved.count o = (m.ledger p).resolved.count o)
    (h : (m.ledger p).Retried o n) : L'.Retried o n := by
  have hdrop : ∀ k i, Function.update (m.ledger p).inflight k none o = some i →
      (m.ledger p).inflight o = some i := by
    intro k i hi
    by_cases heq : o = k
    · simp [heq] at hi
    · rwa [Function.update_of_ne heq] at hi
  have hack : ∀ {c : DeliveryCoordinates} {transactional : Bool} {fails : Prop},
      (m.ledger p).AcknowledgeStep c.offset transactional fails L' → L'.Retried o n := by
    intro c transactional fails hstep
    have hsettled : L'.resolved = c.offset :: (m.ledger p).resolved →
        L'.inflight = Function.update (m.ledger p).inflight c.offset none →
        L'.attempts = Function.update (m.ledger p).attempts c.offset none → L'.Retried o n := by
      intro hresolved hinflight hattempts
      by_cases heq : o = c.offset
      · subst heq
        obtain rfl : n = 0 := by
          refine unresolved.resolve_right fun hcount => ?_
          rw [hresolved, List.count_cons_self] at hcount
          omega
        exact ⟨Nat.zero_le _, fun i hi => by rw [hinflight] at hi; simp at hi⟩
      · refine h.mono ?_ fun i hi => ?_
        · rw [hattempts, Function.update_of_ne heq]
        · rw [hinflight] at hi
          exact hdrop _ i hi
    cases hstep with
    | failed => exact h.mono rfl fun _ => id
    | moved => exact hsettled (by cases transactional <;> rfl) rfl rfl
    | collected => exact hsettled rfl rfl rfl
  cases step with
  | idle => exact h
  | rewound =>
    refine h.mono rfl fun i hi => ?_
    dsimp only [Ledger.rewind] at hi
    split at hi
    · exact hi
    · simp at hi
  | resumeSought => exact h.mono rfl fun _ => id
  | resumed => exact h.mono rfl fun _ => id
  | stuck => exact h.mono rfl fun _ => id
  | heldBack => exact h.mono rfl fun _ => id
  | rejected => exact h.mono (by simp) fun i hi => by simpa using hi
  | delivered => exact h.handOut _ _ _
  | acknowledged _ _ step => exact hack step
  | deadLettered _ _ step => exact hack step
  | dropped => exact h.mono rfl (hdrop _)
  | sought => exact h.mono rfl (hdrop _)
  | pausedAt => exact h.mono rfl (hdrop _)
  | revoked => exact within.elim
  | repositioned => exact within.elim

/-- A step that gives the record back counts it up, below the attempts that are allowed. -/
theorem retried_of_givesBack {a : Action Token} {max : ℕ}
    (gives : engine.givesBack p o m a = true)
    (limit : ∀ command env, a = .negativeAcknowledge command env →
      command.subscription.deadLetterStream.isSome ∧
        command.subscription.maxDeliveryAttempts ≤ max)
    (h : (m.ledger p).Retried o n) :
    ((engine.next m a).ledger p).Retried o (n + 1) ∧ n + 1 < max := by
  obtain ⟨command, env, c, rfl, back, rfl, rfl⟩ := exists_of_givesBack gives
  obtain ⟨deadLetters, hmax⟩ := limit command env rfl
  obtain ⟨i, hinflight, hattempt⟩ := back.inflight
  obtain ⟨hattempts, hlt⟩ := h.inflight i hinflight
  have hlive := back.attempt_lt deadLetters
  obtain ⟨hnone, hsame⟩ := back.ledger
  refine ⟨⟨?_, fun j hj => ?_⟩, by omega⟩
  · change n + 1 ≤ (((engine.negativeAcknowledge m command env).2.ledger c.partition).attempts
      c.offset).getD 0
    rw [hsame, hattempts, Option.getD_some]
    exact hlt
  · change ((engine.negativeAcknowledge m command env).2.ledger c.partition).inflight c.offset =
      some j at hj
    rw [hnone] at hj
    simp at hj

/-- **Redeliveries are bounded.** Within one assignment, as long as a record is not resolved, it is
given back fewer times than the Subscription allows attempts, when there is a Dead Letter Stream
for it. -/
theorem redeliveries_lt (engine : KafkaConsumerEngine Token) (log : PartitionLog) (start : Member)
    (p o : ℕ) {before during : List (Action Token)}
    (assignment : engine.AssignmentRun log start p (before ++ during)) {max : ℕ} (pos : 0 < max)
    (limit : ∀ command env, .negativeAcknowledge command env ∈ during →
      command.subscription.deadLetterStream.isSome ∧
        command.subscription.maxDeliveryAttempts ≤ max)
    (unresolved : (engine.ledgerAfter log start p (before ++ during)).resolved.count o =
      (engine.ledgerAfter log start p before).resolved.count o) :
    engine.redeliveries p o ((engine.machine log).steps ((engine.machine log).play start before)
      during) < max := by
  obtain ⟨legalBefore, legalDuring⟩ := ((engine.machine log).legal_append ..).mp assignment.legal
  have hwithin : ∀ a ∈ during, a.WithinAssignment := fun a ha =>
    assignment.within a (List.mem_append_right _ ha)
  have hbefore : (engine.ledgerAfter log start p before).Retried o 0 := by
    refine AssignmentRun.induction (C := fun _ _ => True)
      ⟨assignment.fresh, legalBefore, fun a ha => assignment.within a (List.mem_append_left _ ha)⟩
      (fun _ _ => trivial) ⟨Nat.zero_le _, fun i hi => by simp [Ledger.empty] at hi⟩ ?_
    intro m a L' step within _ _ h
    exact step.retried within (Or.inl rfl) h
  rw [ledgerAfter, Machine.play_append] at unresolved
  -- as long as the count has not grown, the record has not been resolved in between
  have hinv := Machine.trace_induction
    (I := fun tr m => (∀ x ∈ tr, x.2 ∈ during) →
      (engine.ledgerAfter log start p before).resolved.count o ≤ (m.ledger p).resolved.count o ∧
      ((m.ledger p).resolved.count o = (engine.ledgerAfter log start p before).resolved.count o →
        (m.ledger p).Retried o (engine.redeliveries p o tr) ∧ engine.redeliveries p o tr < max))
    ?_ (fun _ => ⟨le_rfl, fun _ => ⟨hbefore, pos⟩⟩) legalDuring
    (fun x hx => Machine.mem_of_mem_steps hx)
  · exact (hinv.2 unresolved).2
  · intro tr m a ih allowed hmem
    rw [List.forall_mem_append, List.forall_mem_singleton] at hmem
    obtain ⟨hle, hretried⟩ := ih hmem.1
    have hstep := engine.next_step (p := p) log allowed
    have hgrows := ((hstep.suffix).filterMap Occurrence.resolved?).sublist.count_le o
    refine ⟨hle.trans hgrows, fun hcount => ?_⟩
    have hsame : (m.ledger p).resolved.count o =
        (engine.ledgerAfter log start p before).resolved.count o :=
      le_antisymm (hgrows.trans hcount.le) hle
    obtain ⟨hold, hlt⟩ := hretried hsame
    rw [redeliveries, List.countP_append, List.countP_singleton]
    by_cases hgives : engine.givesBack p o m a = true
    · rw [if_pos hgives]
      exact retried_of_givesBack hgives (fun command env heq => limit command env (heq ▸ hmem.2))
        hold
    · rw [if_neg hgives]
      exact ⟨hstep.retried (hwithin a hmem.2) (Or.inr (hcount.trans hsame.symm)) hold, hlt⟩

end KafkaConsumerEngine

/-- An attempt at record 0 is given back, under a Subscription that allows two of them. -/
def Sample.giveBackAgain (attempt : ℕ) : Action TokenPayload :=
  .negativeAcknowledge
    { acknowledgeCommand 0 attempt 1 with
      subscription := { billing with maxDeliveryAttempts := 2, deadLetterStream := some orders.ref }
      retryAfterMs := 0
      classification := none }
    { nowMs := 1
      monotonicNs := 0
      publish := fun _ => .error .other
      acknowledge := { nowMs := 1 } }

/-- The second attempt is not given back any more. -/
theorem redeliveries_lt_again :
    Sample.engine.redeliveries 0 0 ((Sample.engine.machine (Sample.log [0] [])).steps
      ((Sample.engine.machine (Sample.log [0] [])).play (.joined Sample.command [0])
        [Sample.receive 0])
      [Sample.giveBackAgain 1, Sample.receive 0, Sample.giveBackAgain 2]) < 2 := by
  refine KafkaConsumerEngine.redeliveries_lt Sample.engine _ _ 0 0
    ⟨rfl, by decide +kernel, by decide +kernel⟩ (by decide) (fun command env hmem => ?_)
    (by decide +kernel)
  have hlimit : command.subscription =
      { Sample.billing with
        maxDeliveryAttempts := 2
        deadLetterStream := some Sample.orders.ref } := by
    simp only [List.mem_cons, Sample.giveBackAgain, Sample.receive,
      Action.negativeAcknowledge.injEq, reduceCtorEq, List.not_mem_nil, or_false,
      false_or] at hmem
    rcases hmem with ⟨rfl, -⟩ | ⟨rfl, -⟩ <;> rfl
  rw [hlimit]
  exact ⟨rfl, le_rfl⟩

end MeridianKafka
