import MeridianKafka.Consumer.DeadLetter

/-!
# The dead-letter handshake

Retrying one negative acknowledgement until its delivery is dead-lettered. Two effects
on two topics are put in order without a transaction: the publication comes first, and
the source is only touched when it has returned. `retrying` is the machine of the calls
with one token; the publication and the commit of the source fail as they like, and the
clock moves on between the calls.

Two of the three things that the handshake is for hold in every run (`SafeHandshake`):
nothing happens to the source before a publication has returned, and after one that
returned nothing more is published. The third, that the call returns as soon as its
parts succeed (`Completes`), fails after a publication whose source was not committed:
the retry builds a new envelope, with the time of the retry, and the idempotency cache
refuses it under the old key (`retry_is_refused`).
-/

namespace MeridianKafka

open Framework

namespace KafkaConsumerEngine

variable {Token : Type} (engine : KafkaConsumerEngine Token) (producer : KafkaProducerEngine)
  (command : NegativeAcknowledgeCommand Token) (c : DeliveryCoordinates)

/-- The token still decodes to its coordinates, and nothing fails but the publication and
the commit. -/
structure StillValid (env : DeadLetterEnv) : Prop where
  decodes : engine.cursor.decodeDelivery env.nowMs command.delivery command.subscription.ref
    command.consumerGroup.ref command.stream.topic = .ok c
  decodes_acknowledge : engine.cursor.decodeDelivery env.acknowledge.nowMs command.delivery
    command.subscription.ref command.consumerGroup.ref command.stream.topic = .ok c
  acknowledge_sink : env.acknowledge.emit = none
  complete_sink : env.emit = none

/-- The retries of one negative acknowledgement. -/
def retrying : Machine PublishingRuntime DeadLetterEnv where
  allowed _ := engine.StillValid command c
  next s env := engine.publishNext producer s (.negativeAcknowledge command env)

/-- The delivery is still to be resolved. -/
def Pending (s : PublishingRuntime) : Prop :=
  ∃ m, s.states.get? command.group = some m ∧ acknowledgeGuard m c = none

/-- The call publishes its dead letter, and the publication returns. -/
def Published (x : PublishingRuntime × DeadLetterEnv) : Prop :=
  ∃ outcome, engine.deadLetterOutcome producer x.1 command x.2 = some outcome ∧
    ∃ rs, outcome.answer = .ok rs

/-- The parts of the call succeed: the commit, and the publication unless an earlier call
has published already. -/
structure PartsSucceed (before : List (PublishingRuntime × DeadLetterEnv)) (env : DeadLetterEnv) :
    Prop where
  commit : env.acknowledge.commit = none
  sink : env.publish.emit = none
  publish : env.publish.KafkaCallsSucceed 1 ∨ ∃ y ∈ before, engine.Published producer command y

/-- What the handshake keeps, along the steps of a run. -/
structure SafeHandshake (steps : List (PublishingRuntime × DeadLetterEnv)) : Prop where
  /-- The source is left as it is until a publication has returned. -/
  publishedFirst : ∀ x ∈ steps, ∀ m, x.1.states.get? command.group = some m →
    ((engine.retrying producer command c).next x.1 x.2).states.get? command.group = some m ∨
      engine.Published producer command x
  /-- After a publication that returned, nothing more is published. -/
  publishedOnce : ∀ before x after, steps = before ++ x :: after →
    engine.Published producer command x → ∀ y ∈ after, ∀ outcome,
      engine.deadLetterOutcome producer y.1 command y.2 = some outcome → outcome.produced = []
  /-- A call that raises leaves the delivery to be resolved. -/
  staysPending : ∀ x ∈ steps, Pending command c x.1 →
    (∃ raised, engine.negativeAcknowledgeAnswer producer x.1 command x.2 = .error raised) →
      Pending command c ((engine.retrying producer command c).next x.1 x.2)

/-- A call whose parts succeed, on a delivery that is still to be resolved, dead-letters
it. -/
def Completes (steps : List (PublishingRuntime × DeadLetterEnv)) : Prop :=
  ∀ before x after, steps = before ++ x :: after → Pending command c x.1 →
    engine.PartsSucceed producer command before x.2 →
      ∃ targetEventId committed, engine.negativeAcknowledgeAnswer producer x.1 command x.2 =
        .ok (.deadLettered targetEventId committed)

open KafkaProducerEngine (Receipted)

variable {engine producer command c} {m : Member} {s : PublishingRuntime} {env : DeadLetterEnv}

/-! ### One call -/

/-- A delivery that is still to be resolved has its entry in flight. -/
theorem exists_entry_of_pending (h : acknowledgeGuard m c = none) :
    ∃ inflight, negativeAcknowledgeGuard m c = .ok inflight := by
  unfold acknowledgeGuard at h
  split at h
  · simp at h
  next hepoch =>
  split at h
  swap
  · simp at h
  next hany =>
  obtain ⟨inflight, hget, hmatch⟩ := (Option.any_eq_true _ _).mp hany
  rw [Bool.and_eq_true, decide_eq_true_eq, decide_eq_true_eq] at hmatch
  refine ⟨inflight, ?_⟩
  have hfilter : (m.state.inflight.get? (c.partition, c.offset)).filter (·.attempt = c.attempt) =
      some inflight := by
    rw [hget]
    simp [hmatch.2]
  unfold negativeAcknowledgeGuard
  rw [if_neg hepoch, hfilter]

/-- The guards read the epoch of the member and the entry of the delivery. -/
theorem guards_congr {m' : Member} (epoch : m'.state.assignmentEpoch = m.state.assignmentEpoch)
    (entry : m'.state.inflight.get? (c.partition, c.offset) =
      m.state.inflight.get? (c.partition, c.offset)) :
    negativeAcknowledgeGuard m' c = negativeAcknowledgeGuard m c ∧
      acknowledgeGuard m' c = acknowledgeGuard m c := by
  unfold negativeAcknowledgeGuard acknowledgeGuard
  rw [epoch, entry]
  exact ⟨rfl, rfl⟩

/-- Without its entry a delivery is refused. -/
theorem not_entry_of_none (h : m.state.inflight.get? (c.partition, c.offset) = none)
    (inflight : Inflight) : negativeAcknowledgeGuard m c ≠ .ok inflight := by
  unfold negativeAcknowledgeGuard
  rw [h]
  split <;> simp

/-- An acknowledgement leaves the entries in flight and raises, or takes the entry out. -/
theorem acknowledge_entry {command : AcknowledgeCommand Token} {env : AcknowledgeEnv}
    (decodes : engine.cursor.decodeDelivery env.nowMs command.delivery command.subscription.ref
      command.consumerGroup.ref command.stream.topic = .ok c) (sink : env.emit = none) :
    ((engine.acknowledge m command none env).2.1.state.inflight = m.state.inflight ∧
        ∃ raised, (engine.acknowledge m command none env).1 = .error raised) ∨
      (engine.acknowledge m command none env).2.1.state.inflight.get? (c.partition, c.offset) =
          none ∧
        ∃ acknowledged, (engine.acknowledge m command none env).1 = .ok acknowledged := by
  -- With and without a commit, completing erases the entry.
  have hcomplete : ∀ (m' : Member) (committed : Bool),
      (completeAcknowledge m' command c committed none env).2.1.state.inflight.get?
          (c.partition, c.offset) = none ∧
        ∃ acknowledged, (completeAcknowledge m' command c committed none env).1 =
          .ok acknowledged := by
    intro m' committed
    unfold completeAcknowledge
    rw [sink]
    exact ⟨Dict.get?_erase_self .., _, rfl⟩
  unfold acknowledge
  rw [decodes]
  dsimp only
  unfold acknowledgeDelivery
  split
  · exact Or.inl ⟨rfl, _, rfl⟩
  dsimp only
  split
  · unfold moveGroup
    cases env.commit with
    | some raised => exact Or.inl ⟨rfl, _, rfl⟩
    | none => exact Or.inr (hcomplete _ _)
  · exact Or.inr (hcomplete _ _)

section Limit

variable {ref : ResourceRef} {target : PhysicalStream}
  (limit : deadLetterStream command c = some ref)
  (mapped : engine.settings.stream ref = .ok target)
include limit mapped

/-- At the attempt limit, a call publishes whenever it finds the entry of its delivery. -/
theorem deadLetterPublish_eq (still : engine.StillValid command c env) :
    engine.deadLetterPublish m command env.nowMs env.utcNow =
      match negativeAcknowledgeGuard m c with
      | .error _ => none
      | .ok inflight => some (deadLetterCommand command c inflight target env.utcNow) := by
  unfold deadLetterPublish
  rw [still.decodes]
  dsimp only
  cases negativeAcknowledgeGuard m c with
  | error failure => rfl
  | ok inflight =>
    dsimp only
    rw [limit]
    dsimp only
    rw [mapped]

omit limit mapped in
theorem states_next_of_none (hm : s.states.get? command.group = none) :
    ((engine.retrying producer command c).next s env).states = s.states := by
  show (engine.publishNext producer s (.negativeAcknowledge command env)).states = _
  unfold publishNext
  dsimp only
  rw [hm]

omit limit mapped in
theorem states_next_of_some (hm : s.states.get? command.group = some m) :
    ((engine.retrying producer command c).next s env).states = s.states.set command.group
      (engine.negativeAcknowledge m command (env.through producer s.cache)).2 := by
  show (engine.publishNext producer s (.negativeAcknowledge command env)).states = _
  unfold publishNext
  dsimp only
  rw [hm]

variable (producer) in
/-- What a call at the attempt limit does: nothing, or an acknowledgement after a
publication that returned. -/
theorem retry_cases (still : engine.StillValid command c env)
    (hm : s.states.get? command.group = some m) :
    (((engine.retrying producer command c).next s env).states.get? command.group = some m ∧
      ∃ raised, engine.negativeAcknowledgeAnswer producer s command env = .error raised) ∨
    ∃ m', ((engine.retrying producer command c).next s env).states.get? command.group = some m' ∧
      m' = (engine.acknowledge m command.toAcknowledgeCommand none env.acknowledge).2.1 ∧
      engine.Published producer command (s, env) ∧
      ((∃ raised, (engine.acknowledge m command.toAcknowledgeCommand none env.acknowledge).1 =
          .error raised) ∨
        ∃ answer, engine.negativeAcknowledgeAnswer producer s command env = .ok answer) := by
  have hnext : ((engine.retrying producer command c).next s env).states.get? command.group =
      some (engine.negativeAcknowledge m command (env.through producer s.cache)).2 := by
    rw [states_next_of_some hm]
    exact Dict.get?_set_self ..
  have hanswer : engine.negativeAcknowledgeAnswer producer s command env =
      (engine.negativeAcknowledge m command (env.through producer s.cache)).1 := by
    unfold negativeAcknowledgeAnswer
    rw [hm]
  have hpublish := deadLetterPublish_eq (m := m) limit mapped still
  cases hguard : negativeAcknowledgeGuard m c with
  | error failure =>
    -- The delivery is resolved already: the call is refused.
    have hrefused : engine.negativeAcknowledge m command (env.through producer s.cache) =
        (.error (.failure failure), m) := by
      unfold negativeAcknowledge
      rw [show (env.through producer s.cache).nowMs = env.nowMs from rfl, still.decodes]
      dsimp only
      unfold negativeAcknowledgeDelivery
      rw [hguard]
    rw [hnext, hanswer, hrefused]
    exact Or.inl ⟨rfl, _, rfl⟩
  | ok inflight =>
    rw [hguard] at hpublish
    dsimp only at hpublish
    have hthrough : engine.deadLetterPublish m command (env.through producer s.cache).nowMs
        (env.through producer s.cache).utcNow =
          some (deadLetterCommand command c inflight target env.utcNow) := hpublish
    rw [hnext, hanswer, negativeAcknowledge_of_publication hthrough]
    cases hreceipt : (env.through producer s.cache).publish
        (deadLetterCommand command c inflight target env.utcNow) with
    | error raised => exact Or.inl ⟨rfl, _, rfl⟩
    | ok targetEventId =>
      have hpublished : engine.Published producer command (s, env) := by
        unfold Published deadLetterOutcome
        dsimp only
        rw [hm, Option.bind_some, hpublish]
        refine ⟨_, rfl, ?_⟩
        change DeadLetterEnv.firstReceipt (producer.publish s.cache
          (deadLetterCommand command c inflight target env.utcNow) false env.publish).answer =
            .ok targetEventId at hreceipt
        cases hpublication : (producer.publish s.cache
          (deadLetterCommand command c inflight target env.utcNow) false env.publish).answer with
        | error raised =>
          rw [hpublication] at hreceipt
          simp [DeadLetterEnv.firstReceipt] at hreceipt
        | ok rs => exact ⟨rs, rfl⟩
      have hsink : (env.through producer s.cache).emit = none := still.complete_sink
      have hack : (env.through producer s.cache).acknowledge = env.acknowledge := rfl
      refine Or.inr ⟨_, rfl, ?_, hpublished, ?_⟩
      all_goals
        dsimp only
        rw [hack]
        rcases engine.acknowledge m command.toAcknowledgeCommand none env.acknowledge with
          ⟨raised | acknowledged, m', transaction⟩
        all_goals dsimp only
      · rw [hsink]
      · exact Or.inl ⟨raised, rfl⟩
      · rw [hsink]
        exact Or.inr ⟨_, rfl⟩

variable (producer) in
/-- The epoch of the group stays, and so does the entry of the delivery until it is
resolved. -/
theorem retry_entry (still : engine.StillValid command c env)
    (hm : s.states.get? command.group = some m) :
    ∃ m', ((engine.retrying producer command c).next s env).states.get? command.group = some m' ∧
      m'.state.assignmentEpoch = m.state.assignmentEpoch ∧
      (m'.state.inflight.get? (c.partition, c.offset) =
          m.state.inflight.get? (c.partition, c.offset) ∨
        m'.state.inflight.get? (c.partition, c.offset) = none ∧
          ∃ answer, engine.negativeAcknowledgeAnswer producer s command env = .ok answer) := by
  rcases retry_cases producer limit mapped still hm with
    ⟨hsame, -⟩ | ⟨m', hm', rfl, -, hanswer⟩
  · exact ⟨m, hsame, rfl, Or.inl rfl⟩
  · refine ⟨_, hm', engine.acknowledge_keeps assignmentEpoch_ignoresBooks _ _ _, ?_⟩
    rcases acknowledge_entry (m := m) still.decodes_acknowledge still.acknowledge_sink with
      ⟨hentries, -⟩ | ⟨hgone, acknowledged, hok⟩
    · exact Or.inl (by rw [hentries])
    · refine Or.inr ⟨hgone, hanswer.resolve_left ?_⟩
      rintro ⟨raised, herror⟩
      exact absurd (hok.symm.trans herror) (by simp)

end Limit

/-! ### The run -/

/-- The key of a dead letter. -/
def deadLetterKey (c : DeliveryCoordinates) (inflight : Inflight) : String :=
  "dead-letter-" ++ inflight.event.eventId ++ "-" ++ toString c.attempt

/-- Along the retries, the entry of the delivery is the one that the first call found, as
long as it is there, and its key is taken once a publication has returned. -/
structure Retried (engine : KafkaConsumerEngine Token) (producer : KafkaProducerEngine)
    (command : NegativeAcknowledgeCommand Token) (c : DeliveryCoordinates) (inflight : Inflight)
    (tr : List (PublishingRuntime × DeadLetterEnv)) (s : PublishingRuntime) : Prop where
  entry : ∀ m, s.states.get? command.group = some m →
    ∀ i, negativeAcknowledgeGuard m c = .ok i → i = inflight
  taken : (∃ x ∈ tr, engine.Published producer command x) →
    (s.cache.get? (deadLetterKey c inflight)).isSome

variable {inflight : Inflight} {tr : List (PublishingRuntime × DeadLetterEnv)} {ref : ResourceRef}
  {target : PhysicalStream}

/-- What the producer engine does in a retry, it does under the key of the delivery. -/
theorem Retried.outcome (h : Retried engine producer command c inflight tr s)
    (limit : deadLetterStream command c = some ref)
    (mapped : engine.settings.stream ref = .ok target)
    (still : engine.StillValid command c env) {outcome : PublishOutcome}
    (houtcome : engine.deadLetterOutcome producer s command env = some outcome) :
    ∃ m publication, s.states.get? command.group = some m ∧
      engine.deadLetterPublish m command env.nowMs env.utcNow = some publication ∧
      publication.idempotencyKey = some (deadLetterKey c inflight) ∧
      outcome = producer.publish s.cache publication false env.publish := by
  obtain ⟨m, hm, hpublish⟩ := Option.bind_eq_some_iff.mp houtcome
  obtain ⟨publication, hpublication, rfl⟩ := Option.map_eq_some_iff.mp hpublish
  refine ⟨m, publication, hm, hpublication, ?_, rfl⟩
  rw [deadLetterPublish_eq limit mapped still] at hpublication
  split at hpublication
  · simp at hpublication
  next i hguard =>
  obtain rfl := Option.some.inj hpublication
  rw [h.entry m hm i hguard]
  rfl

/-- **One retry.** -/
theorem Retried.step (h : Retried engine producer command c inflight tr s)
    (limit : deadLetterStream command c = some ref)
    (mapped : engine.settings.stream ref = .ok target)
    (still : engine.StillValid command c env) :
    Retried engine producer command c inflight (tr ++ [(s, env)])
      ((engine.retrying producer command c).next s env) := by
  constructor
  · intro m' hm' i hguard
    cases hm : s.states.get? command.group with
    | none =>
      have hnone : ((engine.retrying producer command c).next s env).states.get? command.group =
          none := by
        rw [states_next_of_none hm]
        exact hm
      exact absurd (hnone.symm.trans hm') (by simp)
    | some m =>
      obtain ⟨m'', hm'', hepoch, hentry⟩ :=
        retry_entry producer limit mapped still hm
      obtain rfl := Option.some.inj (hm'.symm.trans hm'')
      -- The entry is as it was, or the retry has acknowledged it.
      rcases hentry with hsame | ⟨hgone, -⟩
      · rw [(guards_congr hepoch hsame).1] at hguard
        exact h.entry m hm i hguard
      · exact absurd hguard (not_entry_of_none hgone i)
  · rintro ⟨x, hx, hpublished⟩
    change (((engine.deadLetterOutcome producer s command env).map PublishOutcome.cache).getD
      s.cache).get? _ |>.isSome
    rw [List.mem_append, List.mem_singleton] at hx
    rcases hx with hx | rfl
    · -- An earlier call has taken the key.
      have htaken := h.taken ⟨x, hx, hpublished⟩
      cases houtcome : engine.deadLetterOutcome producer s command env with
      | none => exact htaken
      | some outcome =>
        obtain ⟨m, publication, -, -, hkey, rfl⟩ := h.outcome limit mapped still houtcome
        exact (KafkaProducerEngine.publish_of_taken hkey htaken env.publish).2
    · obtain ⟨outcome, houtcome, rs, hanswer⟩ := hpublished
      rw [houtcome]
      obtain ⟨m, publication, -, -, hkey, rfl⟩ := h.outcome limit mapped still houtcome
      exact KafkaProducerEngine.taken_of_publish_ok hkey hanswer

/-- **The handshake.** In every run of retries of a delivery at its attempt limit, the
source waits for a publication, nothing is published twice, and a failed call leaves the
delivery to be resolved; and each call whose parts succeed dead-letters the delivery
exactly when the cache has no other fingerprint under its key then. -/
theorem handshake_iff (engine : KafkaConsumerEngine Token) (producer : KafkaProducerEngine)
    {start : PublishingRuntime} (fresh : start.cache = .empty)
    {earlier : List (PublishingCall Token)}
    (legal : (engine.publishing producer).Legal start earlier)
    {command : NegativeAcknowledgeCommand Token} {c : DeliveryCoordinates}
    {ref : ResourceRef} {target : PhysicalStream}
    (pending : Pending command c ((engine.publishing producer).play start earlier))
    (limit : deadLetterStream command c = some ref)
    (mapped : engine.settings.stream ref = .ok target) {retries : List DeadLetterEnv}
    (still : (engine.retrying producer command c).Legal
      ((engine.publishing producer).play start earlier) retries) :
    let steps := (engine.retrying producer command c).steps
      ((engine.publishing producer).play start earlier) retries
    engine.SafeHandshake producer command c steps ∧
      (engine.Completes producer command c steps ↔
        ∀ before x after, steps = before ++ x :: after → Pending command c x.1 →
          engine.PartsSucceed producer command before x.2 →
            ∀ m publication, x.1.states.get? command.group = some m →
              engine.deadLetterPublish m command x.2.nowMs x.2.utcNow = some publication →
              Unclaimed producer x.1.cache publication) := by
  intro steps
  obtain ⟨m₀, hm₀, hpending₀⟩ := pending
  obtain ⟨inflight, hinflight⟩ := exists_entry_of_pending hpending₀
  -- What the invariant says where a step of the run is taken.
  have hretried : ∀ before s env after, steps = before ++ (s, env) :: after →
      Retried engine producer command c inflight before s ∧ engine.StillValid command c env ∧
        Receipted s.cache := by
    intro before s env after hsplit
    obtain ⟨ls₁, ls₂, rfl, rfl, rfl⟩ := Machine.exists_of_steps_eq hsplit
    rw [Machine.legal_append, Machine.legal_cons] at still
    refine ⟨?_, still.2.1, ?_⟩
    · refine Machine.trace_induction (fun tr s env htr hstill => htr.step limit mapped hstill) ?_
        still.1
      refine ⟨fun m hm i hi => ?_, fun h => absurd h (by simp)⟩
      obtain rfl := Option.some.inj (hm₀.symm.trans hm)
      exact (Except.ok.inj (hinflight.symm.trans hi)).symm
    · refine Machine.play_induction (I := fun s => Receipted s.cache) (C := fun _ _ => True) ?_
        (publishing_receipted fresh legal) still.1 fun _ _ => trivial
      exact fun s env h _ _ => publishNext_receipted (by trivial) h
  refine ⟨⟨?_, ?_, ?_⟩, ?_⟩
  · rintro ⟨s, env⟩ hx m hm
    obtain ⟨before, after, hsplit⟩ := List.append_of_mem hx
    obtain ⟨-, hstill, -⟩ := hretried before s env after hsplit
    rcases retry_cases producer limit mapped hstill hm with
      ⟨hsame, -⟩ | ⟨m', -, -, hpublished, -⟩
    · exact Or.inl hsame
    · exact Or.inr hpublished
  · rintro before x after hsplit hpublished ⟨s, env⟩ hy outcome houtcome
    obtain ⟨between, rest, rfl⟩ := List.append_of_mem hy
    rw [← List.cons_append, ← List.append_assoc] at hsplit
    obtain ⟨hbefore, hstill, -⟩ := hretried _ s env rest hsplit
    obtain ⟨m, publication, -, -, hkey, rfl⟩ := hbefore.outcome limit mapped hstill houtcome
    have htaken := hbefore.taken ⟨x, by simp, hpublished⟩
    exact (KafkaProducerEngine.publish_of_taken hkey htaken env.publish).1
  · rintro ⟨s, env⟩ hx ⟨m, hm, hguard⟩ ⟨raised, hraised⟩
    obtain ⟨before, after, hsplit⟩ := List.append_of_mem hx
    obtain ⟨-, hstill, -⟩ := hretried before s env after hsplit
    obtain ⟨m', hm', hepoch, hentry⟩ := retry_entry producer limit mapped hstill hm
    rcases hentry with hsame | ⟨-, answer, hanswer⟩
    · exact ⟨m', hm', (guards_congr hepoch hsame).2.trans hguard⟩
    · exact absurd (hraised.symm.trans hanswer) (by simp)
  · -- Call by call: nothing else can stand in the way of a dead letter.
    have hcall : ∀ before s env after, steps = before ++ (s, env) :: after → ∀ m,
        s.states.get? command.group = some m → acknowledgeGuard m c = none →
        engine.PartsSucceed producer command before env →
        ∃ publication, engine.deadLetterPublish m command env.nowMs env.utcNow =
            some publication ∧
          ((∃ targetEventId committed, engine.negativeAcknowledgeAnswer producer s command env =
              .ok (.deadLettered targetEventId committed)) ↔
            Unclaimed producer s.cache publication) := by
      intro before s env after hsplit m hm hguard hparts
      obtain ⟨hbefore, hstill, hreceipted⟩ := hretried before s env after hsplit
      obtain ⟨i, hi⟩ := exists_entry_of_pending hguard
      have hpublish := deadLetterPublish_eq (m := m) limit mapped hstill
      rw [hi] at hpublish
      have hkey : (deadLetterCommand command c i target env.utcNow).idempotencyKey =
          some (deadLetterKey c inflight) := by
        rw [hbefore.entry m hm i hi]
        rfl
      have hexhausted : engine.Exhausted s command env m
          (deadLetterCommand command c i target env.utcNow) :=
        ⟨hm, ⟨c, hstill.decodes, hguard⟩, hpublish⟩
      refine ⟨_, hpublish, (answer_deadLettered_iff hreceipted hexhausted (fun hfree => ?_)
        hparts.commit).trans ⟨fun h => h.unclaimed, fun h => ⟨h, ⟨c, hstill.decodes_acknowledge,
          hguard⟩, hparts.sink, hstill.acknowledge_sink, hstill.complete_sink⟩⟩⟩
      rcases hparts.publish with hcalls | hpublished
      · exact hcalls
      · have htaken := hbefore.taken hpublished
        rw [hfree _ hkey] at htaken
        exact absurd htaken (by simp)
    constructor
    · rintro hcompletes before ⟨s, env⟩ after hsplit hpending hparts m publication hm hpublication
      obtain ⟨m', hm', hguard⟩ := hpending
      obtain rfl := Option.some.inj (hm.symm.trans hm')
      obtain ⟨publication', hpublication', hiff⟩ := hcall before s env after hsplit m hm hguard
        hparts
      obtain rfl := Option.some.inj (hpublication.symm.trans hpublication')
      exact hiff.mp (hcompletes before (s, env) after hsplit ⟨m, hm, hguard⟩ hparts)
    · rintro hunclaimed before ⟨s, env⟩ after hsplit ⟨m, hm, hguard⟩ hparts
      obtain ⟨publication, hpublication, hiff⟩ := hcall before s env after hsplit m hm hguard
        hparts
      exact hiff.mpr (hunclaimed before (s, env) after hsplit ⟨m, hm, hguard⟩ hparts m publication
        hm hpublication)

end KafkaConsumerEngine

/-! ### A retry after a failed commit -/

namespace Sample

theorem stillValid (env : DeadLetterEnv) (nowMs : env.nowMs = 1)
    (acknowledge : env.acknowledge.nowMs = 1) (acknowledge_sink : env.acknowledge.emit = none)
    (complete_sink : env.emit = none) :
    strictEngine.StillValid (giveBack workers) (deliveryTo workers) env where
  decodes := by
    rw [nowMs]
    exact decodeDelivery_giveBack workers
  decodes_acknowledge := by
    rw [acknowledge]
    exact decodeDelivery_giveBack workers
  acknowledge_sink := acknowledge_sink
  complete_sink := complete_sink

theorem pending_delivered :
    KafkaConsumerEngine.Pending (giveBack workers) (deliveryTo workers)
      ((strictEngine.publishing producer).play {} (deliveredTo workers)) := by
  let s := (strictEngine.publishing producer).play {} (deliveredTo workers)
  obtain ⟨m, hm⟩ : ∃ m, s.states.get? (giveBack workers).group = some m :=
    Option.isSome_iff_exists.mp (by decide +kernel)
  have hguard : (s.states.get? (giveBack workers).group).all fun m =>
      KafkaConsumerEngine.acknowledgeGuard m (deliveryTo workers) = none := by decide +kernel
  rw [hm] at hguard
  exact ⟨m, hm, by simpa using hguard⟩

end Sample

namespace KafkaConsumerEngine

/-- The first publication is not delivered in time, the second one is. -/
theorem handshake_iff_second_try :
    let s := (Sample.strictEngine.publishing Sample.producer).play {}
      (Sample.deliveredTo Sample.workers)
    let late := { Sample.deadLetterEnv "first" with
      publish := { report := fun _ => {}, flush := .ok 1 } }
    let steps := (Sample.strictEngine.retrying Sample.producer (Sample.giveBack Sample.workers)
      (Sample.deliveryTo Sample.workers)).steps s [late, Sample.deadLetterEnv "second"]
    Sample.strictEngine.SafeHandshake Sample.producer (Sample.giveBack Sample.workers)
        (Sample.deliveryTo Sample.workers) steps ∧
      (Sample.strictEngine.Completes Sample.producer (Sample.giveBack Sample.workers)
          (Sample.deliveryTo Sample.workers) steps ↔
        ∀ before x after, steps = before ++ x :: after →
          Pending (Sample.giveBack Sample.workers) (Sample.deliveryTo Sample.workers) x.1 →
          Sample.strictEngine.PartsSucceed Sample.producer (Sample.giveBack Sample.workers) before
            x.2 →
            ∀ m publication, x.1.states.get? (Sample.giveBack Sample.workers).group = some m →
              Sample.strictEngine.deadLetterPublish m (Sample.giveBack Sample.workers) x.2.nowMs
                x.2.utcNow = some publication →
              Unclaimed Sample.producer x.1.cache publication) :=
  handshake_iff Sample.strictEngine Sample.producer rfl (by decide +kernel)
    Sample.pending_delivered rfl rfl (by
      rw [Machine.legal_cons, Machine.legal_cons]
      exact ⟨Sample.stillValid _ rfl rfl rfl rfl, Sample.stillValid _ rfl rfl rfl rfl,
        Machine.legal_nil _ _⟩)

/-- **The retry is refused.** The dead letter is published and the commit of its source
raises. The retry, a moment later, commits nothing either: its envelope has another time,
and the idempotency key is taken. -/
theorem retry_is_refused :
    let s := (Sample.strictEngine.publishing Sample.producer).play {}
      (Sample.deliveredTo Sample.workers)
    let retries := [Sample.deadLetterEnv "first" (some .other), Sample.deadLetterEnv "second"]
    let machine := Sample.strictEngine.retrying Sample.producer (Sample.giveBack Sample.workers)
      (Sample.deliveryTo Sample.workers)
    machine.Legal s retries ∧
      ¬(Sample.strictEngine.SafeHandshake Sample.producer (Sample.giveBack Sample.workers)
          (Sample.deliveryTo Sample.workers) (machine.steps s retries) ∧
        Sample.strictEngine.Completes Sample.producer (Sample.giveBack Sample.workers)
          (Sample.deliveryTo Sample.workers) (machine.steps s retries)) := by
  intro s retries machine
  refine ⟨?_, fun h => ?_⟩
  · rw [Machine.legal_cons, Machine.legal_cons]
    exact ⟨Sample.stillValid _ rfl rfl rfl rfl, Sample.stillValid _ rfl rfl rfl rfl,
      Machine.legal_nil _ _⟩
  let s' := machine.next s (Sample.deadLetterEnv "first" (some .other))
  -- The first attempt publishes the dead letter, and the commit of its source raises: the delivery
  -- stays pending.
  have hpending : Pending (Sample.giveBack Sample.workers) (Sample.deliveryTo Sample.workers)
      s' := by
    refine h.1.staysPending _ List.mem_cons_self Sample.pending_delivered ⟨.failure
      (normalizeKafkaError .other "meridian.streaming.acknowledge"), ?_⟩
    decide +kernel
  obtain ⟨targetEventId, committed, hanswer⟩ := h.2
    [(s, Sample.deadLetterEnv "first" (some .other))] (s', Sample.deadLetterEnv "second") [] rfl
    hpending ⟨rfl, rfl, Or.inl (Sample.deadLetterEnv_calls "second").publish⟩
  -- The second attempt's event bears another time, under the same idempotency key.
  have hrefused : Sample.strictEngine.negativeAcknowledgeAnswer Sample.producer s'
      (Sample.giveBack Sample.workers) (Sample.deadLetterEnv "second") =
        .error (.failure KafkaProducerEngine.keyReused) := by decide +kernel
  exact absurd (hrefused.symm.trans hanswer) (by simp)

end KafkaConsumerEngine

end MeridianKafka
