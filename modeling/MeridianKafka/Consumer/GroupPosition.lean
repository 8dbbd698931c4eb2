import MeridianKafka.Consumer.Tokens

/-!
# Group position takes effect

`group_position` moves the committed offsets and the safe offsets to its target and
starts a new epoch, so that every token issued before is refused. Three things it
leaves alone: the place from which the client of the member reads on, the pauses
that wait to send the client back to their offset, and the attempt counts. The next
record that is handed out is therefore not the one at the target in general, and its
attempt need not be the first.

`Comes` lists the positions to which the client can come before it hands out a record
of a partition, from where it stands and from a pause. The call does what it says
exactly when each of these positions leads to the record at the target, that record
has no count, and nothing raises after the commit (`takesEffect_iff`).

The later polls are the runs of `polling`: the client returns the first record at or
after its position, as in `MayReturn`, with a position also for a partition that it has
neither read nor sought (`origin`: where the assignment put it).
-/

namespace MeridianKafka

open Framework

/-- The first record of the partition at or after an offset. -/
structure FirstVisible (log : PartitionLog) (p start o : ℕ) : Prop where
  le : start ≤ o
  visible : (log p o).isSome
  before : ∀ k, start ≤ k → k < o → log p k = none

/-- Every record of the log says where it is. -/
def PartitionLog.Places (log : PartitionLog) (topic : String) : Prop :=
  ∀ p o message, log p o = some message →
    message.topic = topic ∧ message.partition = p ∧ message.offset = o

/-- Where the client reads on. -/
def Member.readsFrom (m : Member) (origin : ℕ → ℕ) (p : ℕ) : ℕ :=
  (m.ledger p).fetch.getD (origin p)

/-- The action is part of a `poll`. -/
def Action.IsPoll {Token : Type} : Action Token → Prop
  | expireInflight _ | resumeDue _ | receive _ _ => True
  | _ => False

namespace Sample

/-- The Cursor of partition 0 at this offset. -/
def position (offset : ℕ) : TokenPayload where
  type := .cursor
  resource := orders.ref.str
  topic := orders.topic
  positions := Dict.empty.set 0 offset
  issuedAtMs := 0
  expiresAtMs := 3600000

/-- The group goes from the offset it has committed to another one. -/
def groupPositionCommand (committed offset : ℕ) : GroupPositionCommand TokenPayload where
  subscription := billing
  consumerGroup := workers
  stream := orders
  position := position offset
  expectedFingerprint := ((engine.cursor.groupPositionFingerprint orders.topic
    (Dict.empty.set 0 committed)).toOption).getD ""

def groupPositionEnv (committed : ℕ) : GroupPositionEnv where
  nowMs := 1
  listTopics := .ok [(orders.topic, { partitions := [0] })]
  committed := .ok [(0, committed)]
  committedWatermarks _ := .ok (0, 10)
  boundWatermarks _ := .ok (0, 10)

theorem places_log (offsets poisoned : List ℕ) : (log offsets poisoned).Places orders.topic := by
  intro p o message hlog
  unfold log at hlog
  split at hlog
  · simp at hlog
  next hp =>
  obtain rfl := not_not.mp hp
  split at hlog
  · obtain rfl := Option.some.inj hlog
    exact ⟨rfl, rfl, rfl⟩
  · split at hlog
    · obtain rfl := Option.some.inj hlog
      exact ⟨rfl, rfl, rfl⟩
    · simp at hlog

/-- The records 0 and 1 are read and acknowledged. -/
def readTwo : List (Action TokenPayload) :=
  [receive 0, receive 1, acknowledge 0, acknowledge 1]

/-- The member that has done so. -/
def halfway : Member :=
  (engine.machine (log [0, 1, 2] [])).play (.joined command [0]) readTwo

end Sample

namespace KafkaConsumerEngine

variable {Token : Type} (engine : KafkaConsumerEngine Token)

/-- The client may return this record: it is the first one where the client reads on. -/
structure MayServe (log : PartitionLog) (origin : ℕ → ℕ) (m : Member) (message : Message) :
    Prop where
  visible : log message.partition message.offset = some message
  topic : message.topic = m.state.command.stream.topic
  first : FirstVisible log message.partition (m.readsFrom origin message.partition) message.offset

/-- The polls of a member, with a place to read from for every partition. -/
def polling (log : PartitionLog) (origin : ℕ → ℕ) : Machine Member (Action Token) where
  allowed m a := a.IsPoll ∧
    ∀ message env, a = .receive (.record message) env → MayServe log origin m message
  next := engine.next

/-- The next record of the partition that polls hand out is the first one at or after
this offset, at its first attempt. -/
def NextDelivery (log : PartitionLog) (origin : ℕ → ℕ) (m : Member) (p t : ℕ) : Prop :=
  ∀ polls, (engine.polling log origin).Legal m polls →
    ∀ before m' a after, (engine.polling log origin).steps m polls = before ++ (m', a) :: after →
      ∀ d, engine.handedOut m' a = some d → d.position.partition = p →
        (∀ d' ∈ engine.issued before, d'.position.partition ≠ p) →
          FirstVisible log p t d.position.offset ∧ d.attempt = 1

/-- A position to which the client comes before it hands out a record of the partition. -/
inductive Comes (log : PartitionLog) (origin : ℕ → ℕ) (m : Member) (p : ℕ) : ℕ → Prop
  | stays : Comes log origin m p (m.readsFrom origin p)
  | resumed {paused : PausedDelivery} (waiting : (m.ledger p).paused = some paused) :
      Comes log origin m p paused.offset
  /-- A record that cannot be decoded is passed over. -/
  | passes {e o : ℕ} (comes : Comes log origin m p e) (first : FirstVisible log p e o)
      (fails : ¬engine.Decodes log m.state.command.stream p o) : Comes log origin m p (o + 1)
  /-- The record of a pause arrives early, and the client cannot go back. -/
  | stuck {e : ℕ} {paused : PausedDelivery} (comes : Comes log origin m p e)
      (waiting : (m.ledger p).paused = some paused) (early : 0 < paused.resumeAt)
      (first : FirstVisible log p e paused.offset) : Comes log origin m p (paused.offset + 1)

/-- From wherever the client comes, the next record that can be decoded is the first
one at or after the offset, and it has no count. -/
def LeadsTo (log : PartitionLog) (origin : ℕ → ℕ) (m : Member) (p t : ℕ) : Prop :=
  ∀ e, engine.Comes log origin m p e → ∀ o, FirstVisible log p e o →
    engine.Decodes log m.state.command.stream p o →
      FirstVisible log p t o ∧ ((m.ledger p).attempts o).getD 0 = 0

/-- A call of `group_position` on the member `m` that the run reaches is all or nothing,
and it takes effect when it returns. -/
structure TakesEffect (log : PartitionLog) (origin : ℕ → ℕ) (start : Member)
    (run : List (Action Token)) (m : Member) (command : GroupPositionCommand Token)
    (env : GroupPositionEnv) : Prop where
  raised : ∀ raised, (engine.groupPosition m command env).1 = .error raised →
    (engine.groupPosition m command env).2.state = m.state ∧
      ∀ p, ((engine.groupPosition m command env).2.ledger p).commits = (m.ledger p).commits
  rejected : ∀ answer, (engine.groupPosition m command env).1 = .ok answer →
    ∀ d ∈ engine.issued ((engine.machine log).steps start run), ∀ later c a,
      ¬engine.Accepts ((engine.machine log).play (engine.groupPosition m command env).2 later)
        d.token c a
  returned : ∀ answer, (engine.groupPosition m command env).1 = .ok answer →
    ∃ target, decodePositions engine.cursor env.nowMs command.position command.stream = .ok target ∧
      (∀ topics partitions, env.listTopics = .ok topics →
        partitionIds topics command.stream.topic = .ok partitions →
          ∀ p ∈ partitions, (target.get? p).isSome) ∧
      ∀ p t, target.get? p = some t →
        ((engine.groupPosition m command env).2.ledger p).commits.head? = some t ∧
          ((engine.groupPosition m command env).2.ledger p).safeNext = some t ∧
          engine.NextDelivery log origin (engine.groupPosition m command env).2 p t

/-- When a call that comes to its commit does what it should. -/
def EffectiveAt (log : PartitionLog) (origin : ℕ → ℕ) (m : Member)
    (command : GroupPositionCommand Token) (env : GroupPositionEnv) : Prop :=
  ∀ before target, engine.groupPositionTarget command env = .ok (before, target) →
    env.commit = none →
      (engine.cursor.groupPositionFingerprint command.stream.topic target).isOk ∧
        env.emit = none ∧
        ∀ p t, target.get? p = some t → engine.LeadsTo log origin m p t

variable {engine} {log : PartitionLog} {origin : ℕ → ℕ} {m : Member} {p t : ℕ}

/-! ### What the client can come to -/

theorem MayServe.mayReturn {message : Message} (h : MayServe log origin m message) :
    MayReturn log m message where
  visible := h.visible
  topic := h.topic
  next f hf := by
    have hfirst := h.first
    have hreads : m.readsFrom origin message.partition = f := by
      change (fetchPosition (historyOf m.history message.partition)).getD _ = f
      rw [hf]
      rfl
    rw [hreads] at hfirst
    exact ⟨hfirst.le, hfirst.before⟩

theorem polling_allowed {a : Action Token} (h : (engine.polling log origin).allowed m a) :
    a.Allowed log m := by
  cases a with
  | receive response env =>
    cases response with
    | record message => exact (h.2 message env rfl).mayReturn
    | _ => exact trivial
  | _ => exact trivial

variable (engine) in
theorem delivery_of_unpaused {message : Message} {env : DeliveryEnv}
    (topic : message.topic = m.state.command.stream.topic)
    (unpaused : (m.state.paused.get? message.partition).filter
      (·.offset = message.offset) = none) :
    engine.delivery m message env = engine.issueDelivery m message env := by
  unfold delivery
  rw [if_neg (not_not.mpr topic), unpaused]

variable (engine) in
/-- The pause is over, so the record is decoded without it. -/
theorem delivery_of_ended {message : Message} {env : DeliveryEnv} {paused : PausedDelivery}
    (topic : message.topic = m.state.command.stream.topic)
    (waiting : (m.state.paused.get? message.partition).filter
      (·.offset = message.offset) = some paused) (ended : paused.resumeAt ≤ env.monotonicNs) :
    engine.delivery m message env =
      engine.issueDelivery (m.deletePaused message.partition) message env := by
  unfold delivery
  rw [if_neg (not_not.mpr topic), waiting]
  dsimp only
  rw [if_neg (not_lt.mpr ended)]

/-- A pause that has the client go back did not end at once. -/
theorem early_of_paused {message : Message} {env : DeliveryEnv} {paused : PausedDelivery}
    (may : MayReturn log m message) (waiting : (m.ledger message.partition).paused = some paused)
    (at_pause : paused.offset = message.offset)
    (still : ((engine.receive m (.record message) env).2.ledger message.partition).paused =
      some paused) : 0 < paused.resumeAt := by
  by_contra hzero
  have hdue : paused.resumeAt ≤ env.monotonicNs := by omega
  have hfilter : (m.state.paused.get? message.partition).filter (·.offset = message.offset) =
      some paused := by
    change ((m.ledger message.partition).paused).filter _ = _
    rw [waiting]
    simp [at_pause]
  -- A delivery that is due would delete the pause, which is still there.
  have hover : ∀ m' : Member, (m'.ledger message.partition).paused = none →
      ((engine.issueDelivery m' message env).2.ledger message.partition).paused = none := by
    intro m' hnone
    rcases engine.ledger_issueDelivery env m' rfl with ⟨raised, -, heq⟩ | ⟨event, -, heq⟩ <;>
      rw [heq] <;> exact hnone
  have hreceive : (engine.receive m (.record message) env) =
      engine.issueDelivery ((m.note message.partition (.returned message.offset)).deletePaused
        message.partition) message env :=
    engine.delivery_of_ended may.topic hfilter hdue
  rw [hreceive, hover] at still
  · simp at still
  · rw [Member.ledger_deletePaused, if_pos rfl]
    rfl

/-- The member while no record of the partition has been handed out, by the member
that the polls started from. -/
structure Waiting (engine : KafkaConsumerEngine Token) (log : PartitionLog) (origin : ℕ → ℕ)
    (start : Member) (p : ℕ) (m : Member) : Prop where
  command : m.state.command = start.state.command
  grounded : ∀ o, (m.ledger p).inflight o = none
  attempts : (m.ledger p).attempts = (start.ledger p).attempts
  paused : ∀ paused, (m.ledger p).paused = some paused → (start.ledger p).paused = some paused
  comes : engine.Comes log origin start p (m.readsFrom origin p)

/-- One step of the polls that hands out no record of the partition. -/
theorem Waiting.step {start : Member} {a : Action Token}
    (h : Waiting engine log origin start p m)
    (allowed : (engine.polling log origin).allowed m a)
    (nothing : ∀ d, engine.handedOut m a = some d → d.position.partition ≠ p) :
    Waiting engine log origin start p (engine.next m a) := by
  have hcommand : (engine.next m a).state.command = start.state.command :=
    (engine.next_command a).trans h.command
  have hstep := engine.next_step (p := p) log (polling_allowed allowed)
  -- The client moves to `e`, and nothing else changes but, perhaps, a pause that ends.
  have hmoves : ∀ e, engine.Comes log origin start p e →
      ((engine.next m a).ledger p).inflight = (m.ledger p).inflight →
      ((engine.next m a).ledger p).attempts = (m.ledger p).attempts →
      (∀ paused, ((engine.next m a).ledger p).paused = some paused →
        (m.ledger p).paused = some paused) →
      ((engine.next m a).ledger p).fetch.getD (origin p) = e →
      Waiting engine log origin start p (engine.next m a) := by
    rintro e hcomes hinflight hattempts hpaused rfl
    exact ⟨hcommand, fun o => by rw [hinflight]; exact h.grounded o, hattempts.trans h.attempts,
      fun paused hp => h.paused paused (hpaused paused hp), hcomes⟩
  generalize hL' : (engine.next m a).ledger p = L' at hstep hmoves
  cases hstep with
  | idle => exact hmoves _ h.comes rfl rfl (fun _ hp => hp) rfl
  | rewound reached =>
    -- Only a delivery in flight expires.
    obtain ⟨⟨i, hi, -⟩, -⟩ := earliestExpired_of_mem reached
    rw [h.grounded] at hi
    simp at hi
  | resumeSought waiting =>
    exact hmoves _ (.resumed (h.paused _ waiting)) rfl rfl (fun _ hp => hp) rfl
  | resumed waiting =>
    exact hmoves _ (.resumed (h.paused _ waiting)) rfl rfl
      (fun _ hp => absurd hp (by simp [Ledger.deletePaused])) rfl
  | @stuck message env paused may here waiting at_pause =>
    subst here
    have hstill : ((engine.receive m (.record message) env).2.ledger message.partition).paused =
        some paused := (congrArg Ledger.paused hL').trans waiting
    have hearly := early_of_paused may waiting at_pause hstill
    have hfirst := (allowed.2 message env rfl).first
    rw [← at_pause] at hfirst
    refine hmoves (message.offset + 1) ?_ rfl rfl (fun _ hp => hp) rfl
    rw [← at_pause]
    exact .stuck h.comes (h.paused _ waiting) hearly hfirst
  | @heldBack message env paused may here waiting at_pause =>
    refine hmoves message.offset ?_ rfl rfl (fun _ hp => hp) rfl
    rw [← at_pause]
    exact .resumed (h.paused _ waiting)
  | @rejected message env raised may here decodes =>
    subst here
    have hfirst := (allowed.2 message env rfl).first
    rw [h.command] at decodes
    refine hmoves (message.offset + 1) (.passes h.comes hfirst (not_decodes_of_error may decodes))
      (Ledger.reject_inflight ..) (Ledger.reject_attempts ..)
      (fun paused hp => ((Ledger.reject_paused message.offset).mp hp).1) ?_
    rw [Ledger.reject_fetch]
    rfl
  | @delivered message env event expiresAtMs may here decodes =>
    -- The record is handed out after all.
    subst here
    rcases receive_cases engine m (.record message) env with
      ⟨-, hinflight, -⟩ | ⟨message', d, hsame, hsome, hout⟩
    · have hget := congrArg (fun L : Ledger => L.inflight message.offset) hL'
      rw [Ledger.handOut_inflight, Function.update_self] at hget
      have hnone : ((engine.receive m (.record message) env).2.state.inflight.get?
          (message.partition, message.offset)) = none := by
        rw [hinflight]
        exact h.grounded message.offset
      exact absurd (hnone.symm.trans hget) (by simp)
    · obtain rfl : message = message' := by simpa using hsame
      have hhere := hout.here
      rw [Delivery.of, Bool.and_eq_true, decide_eq_true_eq] at hhere
      exact absurd hhere.1 (nothing d hsome)
  | acknowledged => exact allowed.1.elim
  | deadLettered => exact allowed.1.elim
  | dropped => exact allowed.1.elim
  | sought => exact allowed.1.elim
  | pausedAt => exact allowed.1.elim
  | revoked => exact allowed.1.elim
  | repositioned => exact allowed.1.elim

/-- The record that a waiting member hands out at last. -/
theorem Waiting.handsOut {start : Member} {a : Action Token} {d : Delivery Token}
    (h : Waiting engine log origin start p m)
    (allowed : (engine.polling log origin).allowed m a)
    (handed : engine.handedOut m a = some d) (here : d.position.partition = p) :
    FirstVisible log p (m.readsFrom origin p) d.position.offset ∧
      engine.Decodes log start.state.command.stream p d.position.offset ∧
      d.attempt = ((start.ledger p).attempts d.position.offset).getD 0 + 1 := by
  -- A record is handed out only where one is received.
  cases a with
  | receive response env =>
    rcases receive_cases engine m response env with
      ⟨hnone, -, -⟩ | ⟨message, d', rfl, hsome, hout⟩
    · exact absurd (hnone.symm.trans handed) (by simp)
    obtain rfl : d' = d := Option.some.inj (hsome.symm.trans handed)
    have hof := hout.here
    rw [Delivery.of, Bool.and_eq_true, decide_eq_true_eq, decide_eq_true_eq] at hof
    obtain ⟨hpartition, hoffset⟩ := hof
    rw [hpartition] at here
    subst here
    rw [hoffset]
    refine ⟨(allowed.2 message env rfl).first, ?_, ?_⟩
    · -- Of all that a poll can do, only a delivery puts the record in flight.
      obtain ⟨event, expiresAtMs, hinflight⟩ := hout.inflight
      have hget : ((engine.next m (.receive (.record message) env)).ledger
          message.partition).inflight message.offset = some ⟨event, d'.attempt,
            m.state.assignmentEpoch, expiresAtMs⟩ := by
        change (engine.receive m (.record message) env).2.state.inflight.get? _ = _
        rw [hinflight, Dict.get?_set, if_pos rfl]
      have hstep := engine.next_step (p := message.partition) log (polling_allowed allowed)
      generalize (engine.next m (.receive (.record message) env)).ledger message.partition = L'
        at hstep hget
      have hgrounded := h.grounded message.offset
      cases hstep with
      | delivered may _ decodes =>
        rw [h.command] at decodes
        exact ⟨message, _, may.visible, decodes⟩
      | rejected =>
        rw [Ledger.reject_inflight] at hget
        exact absurd (hgrounded.symm.trans hget) (by simp)
      | _ => exact absurd (hgrounded.symm.trans hget) (by simp)
    · rw [hout.attempt]
      exact congrArg (fun f : ℕ → Option ℕ => (f message.offset).getD 0 + 1) h.attempts
  | _ => simp [handedOut] at handed

/-- When everything the client comes to leads to the target, the next delivery is the
record at the target. -/
theorem nextDelivery_of_leadsTo (grounded : ∀ o, (m.ledger p).inflight o = none)
    (leads : engine.LeadsTo log origin m p t) : engine.NextDelivery log origin m p t := by
  intro polls hlegal before m' a after heq d hd here hfirst
  obtain ⟨polls₁, polls₂, rfl, rfl, rfl⟩ := Machine.exists_of_steps_eq heq
  rw [Machine.legal_append, Machine.legal_cons] at hlegal
  have hwaiting := Machine.trace_induction (M := engine.polling log origin)
    (I := fun tr s => (∀ d' ∈ engine.issued tr, d'.position.partition ≠ p) →
      Waiting engine log origin m p s) ?_
    (fun _ => ⟨rfl, grounded, rfl, fun _ hp => hp, .stays⟩) hlegal.1 hfirst
  · obtain ⟨hvisible, hdecodes, hattempt⟩ := hwaiting.handsOut hlegal.2.1 hd here
    obtain ⟨htarget, hcount⟩ := leads _ hwaiting.comes _ hvisible hdecodes
    rw [hcount] at hattempt
    exact ⟨htarget, hattempt⟩
  · intro tr s a ih hallowed hall
    rw [issued_append, List.forall_mem_append] at hall
    refine (ih hall.1).step hallowed fun d' hd' => hall.2 d' ?_
    rw [hd']
    exact List.mem_cons_self

/-! ### What the client does come to -/

/-- A member that polls have brought to the position `e`. -/
structure Arrived (origin : ℕ → ℕ) (start : Member) (p e : ℕ) (m : Member) : Prop where
  command : m.state.command = start.state.command
  attempts : (m.ledger p).attempts = (start.ledger p).attempts
  /-- Only a pause that is due from the start has ended. -/
  paused : (m.ledger p).paused = (start.ledger p).paused ∨
    (m.ledger p).paused = none ∧
      ∀ paused, (start.ledger p).paused = some paused → paused.resumeAt = 0
  reads : m.readsFrom origin p = e

/-- The client may serve the first record at its position. -/
theorem mayServe_of_first {message : Message} {o : ℕ}
    (places : log.Places m.state.command.stream.topic) (hlog : log p o = some message)
    (first : FirstVisible log p (m.readsFrom origin p) o) :
    message.partition = p ∧ message.offset = o ∧ MayServe log origin m message := by
  obtain ⟨htopic, rfl, rfl⟩ := places p o message hlog
  exact ⟨rfl, rfl, hlog, htopic, first⟩

variable (engine) in
/-- A record whose pause is over, or that has none, is decoded. -/
theorem receive_of_due {message : Message} {env : DeliveryEnv}
    (topic : message.topic = m.state.command.stream.topic)
    (due : ∀ paused, (m.ledger message.partition).paused = some paused →
      paused.offset = message.offset → paused.resumeAt ≤ env.monotonicNs) :
    ∃ m₁, engine.receive m (.record message) env = engine.issueDelivery m₁ message env ∧
      m₁.state.command = m.state.command ∧ m₁.state.attempts = m.state.attempts ∧
      m₁.ledger message.partition =
        ((m.ledger message.partition).note (.returned message.offset)).unpause message.offset := by
  have hnote : (m.note message.partition (.returned message.offset)).ledger message.partition =
      (m.ledger message.partition).note (.returned message.offset) := by
    rw [Member.ledger_note, if_pos rfl]
  -- Nothing else than the paused delivery at this very offset makes a difference.
  cases hfilter : ((m.ledger message.partition).paused).filter (·.offset = message.offset) with
  | none =>
    refine ⟨_, engine.delivery_of_unpaused topic hfilter, rfl, rfl, ?_⟩
    -- No delivery is paused here, and there is nothing to take back.
    rw [hnote, Ledger.unpause, if_neg]
    rw [Option.filter_eq_none_iff] at hfilter
    change ¬((m.ledger message.partition).paused.any _) = true
    cases hp : (m.ledger message.partition).paused with
    | none => simp
    | some paused => simpa using hfilter paused hp
  | some paused =>
    obtain ⟨hwaits, hat⟩ := Option.filter_eq_some_iff.mp hfilter
    have hat : paused.offset = message.offset := by simpa using hat
    refine ⟨_, engine.delivery_of_ended topic hfilter (due paused hwaits hat), rfl, rfl, ?_⟩
    rw [Member.ledger_deletePaused, if_pos rfl, hnote, Ledger.unpause, if_pos]
    simp [Ledger.note, hwaits, hat]

/-- A record that is passed over ends the pause at its offset, if any. -/
theorem Arrived.paused_reject {start : Member} {e o : ℕ} (h : Arrived origin start p e m)
    (due : ∀ paused, (m.ledger p).paused = some paused → paused.offset = o →
      paused.resumeAt = 0) :
    ((m.ledger p).reject o).paused = (start.ledger p).paused ∨
      ((m.ledger p).reject o).paused = none ∧
        ∀ paused, (start.ledger p).paused = some paused → paused.resumeAt = 0 := by
  have hended : ∀ paused, ((m.ledger p).reject o).paused = some paused ↔
      (m.ledger p).paused = some paused ∧ paused.offset ≠ o := fun _ => Ledger.reject_paused o
  -- A rejection ends the redelivery of its own record only.
  cases hp : (m.ledger p).paused with
  | none =>
    have hnone : ((m.ledger p).reject o).paused = none := by
      rw [Option.eq_none_iff_forall_ne_some]
      intro paused hsome
      exact absurd (hp.symm.trans ((hended paused).mp hsome).1) (by simp)
    rcases h.paused with hsame | hover
    · exact Or.inl (hnone.trans (hp.symm.trans hsame))
    · exact Or.inr ⟨hnone, hover.2⟩
  | some paused =>
    have hsame : (start.ledger p).paused = some paused := by
      rcases h.paused with hsame | hover
      · exact hsame.symm.trans hp
      · exact absurd (hp.symm.trans hover.1) (by simp)
    by_cases hat : paused.offset = o
    · refine Or.inr ⟨?_, fun other hother => ?_⟩
      · rw [Option.eq_none_iff_forall_ne_some]
        intro other hsome
        obtain ⟨hother, hne⟩ := (hended other).mp hsome
        obtain rfl : paused = other := Option.some.inj (hp.symm.trans hother)
        exact hne hat
      · obtain rfl : paused = other := Option.some.inj (hsame.symm.trans hother)
        exact due paused hp hat
    · exact Or.inl (((hended paused).mpr ⟨hp, hat⟩).trans hsame.symm)

/-- A record that cannot be decoded is passed over, and nothing is handed out. -/
theorem Arrived.pass {start : Member} {e o : ℕ} {message : Message}
    (h : Arrived origin start p e m) (places : log.Places start.state.command.stream.topic)
    (hlog : log p o = some message) (first : FirstVisible log p e o)
    (fails : ¬engine.Decodes log start.state.command.stream p o)
    (due : ∀ paused, (m.ledger p).paused = some paused → paused.offset = o →
      paused.resumeAt = 0) :
    ∃ a : Action Token, (engine.polling log origin).allowed m a ∧ engine.handedOut m a = none ∧
      Arrived origin start p (o + 1) (engine.next m a) := by
  rw [← h.reads] at first
  rw [← h.command] at places fails
  obtain ⟨hpartition, hoffset, hserve⟩ := mayServe_of_first places hlog first
  subst hpartition hoffset
  let env : DeliveryEnv := { monotonicNs := 0, nowMs := 0 }
  have hdue : ∀ paused, (m.ledger message.partition).paused = some paused →
      paused.offset = message.offset → paused.resumeAt ≤ env.monotonicNs :=
    fun paused hp hat => (due paused hp hat).le
  obtain ⟨m₁, hreceive, hcommand, -, hledger⟩ := receive_of_due engine hserve.topic hdue
  -- The log decides that the record cannot be decoded.
  obtain ⟨raised, hraised⟩ : ∃ raised,
      decodeEvent engine.parseEvent message m.state.command.stream = .error raised := by
    cases hdecode : decodeEvent engine.parseEvent message m.state.command.stream with
    | error raised => exact ⟨raised, rfl⟩
    | ok event => exact absurd ⟨message, event, hserve.visible, hdecode⟩ fails
  have hissue : engine.issueDelivery m₁ message env =
      (.error raised, m₁.note message.partition (.rejected message.offset)) := by
    unfold issueDelivery
    dsimp only
    rw [hcommand, hraised]
  have hnext : (engine.next m (.receive (.record message) env)).ledger message.partition =
      (m.ledger message.partition).reject message.offset := by
    change (engine.receive m (.record message) env).2.ledger message.partition = _
    rw [hreceive, hissue, Member.ledger_note, if_pos rfl, hledger]
    rfl
  refine ⟨.receive (.record message) env, ⟨trivial, ?_⟩, ?_, ?_⟩
  · intro message' env' heq
    rw [Action.receive.injEq, PollResponse.record.injEq] at heq
    exact heq.1 ▸ hserve
  · change (engine.receive m (.record message) env).1.toOption.join = none
    rw [hreceive, hissue]
    rfl
  · refine ⟨(engine.next_command _).trans h.command, ?_, ?_, ?_⟩
    · rw [hnext, Ledger.reject_attempts]
      exact h.attempts
    · rw [hnext]
      exact h.paused_reject due
    · change ((engine.next m (.receive (.record message) env)).ledger
        message.partition).fetch.getD _ = _
      rw [hnext, Ledger.reject_fetch]
      rfl

/-- The record of a pause that is not over is passed over as well, when the client
cannot go back to it. -/
theorem Arrived.stick {start : Member} {e : ℕ} {message : Message} {paused : PausedDelivery}
    (h : Arrived origin start p e m) (places : log.Places start.state.command.stream.topic)
    (waiting : (start.ledger p).paused = some paused) (early : 0 < paused.resumeAt)
    (hlog : log p paused.offset = some message) (first : FirstVisible log p e paused.offset) :
    ∃ a : Action Token, (engine.polling log origin).allowed m a ∧ engine.handedOut m a = none ∧
      Arrived origin start p (paused.offset + 1) (engine.next m a) := by
  have hpaused : (m.ledger p).paused = some paused := by
    rcases h.paused with hsame | hover
    · exact hsame.trans waiting
    · exact absurd (hover.2 paused waiting) early.ne'
  rw [← h.reads] at first
  rw [← h.command] at places
  obtain ⟨hpartition, hoffset, hserve⟩ := mayServe_of_first places hlog first
  subst hpartition
  -- The record comes before its time and the seek back to it raises, so that the client goes on
  -- behind it.
  let env : DeliveryEnv := { monotonicNs := 0, nowMs := 0, seek := some .other }
  have hreceive : engine.receive m (.record message) env =
      (.error .other, m.note message.partition (.returned message.offset)) := by
    have hfilter : ((m.note message.partition (.returned message.offset)).state.paused.get?
        message.partition).filter (·.offset = message.offset) = some paused := by
      change ((m.ledger message.partition).paused).filter _ = _
      rw [hpaused]
      simp [hoffset]
    have htopic : ¬message.topic ≠
        (m.note message.partition (.returned message.offset)).state.command.stream.topic :=
      not_not.mpr hserve.topic
    change engine.delivery (m.note message.partition (.returned message.offset)) message env = _
    unfold delivery
    rw [if_neg htopic, hfilter]
    exact if_pos early
  have hnext : (engine.next m (.receive (.record message) env)).ledger message.partition =
      (m.ledger message.partition).note (.returned message.offset) := by
    change (engine.receive m (.record message) env).2.ledger message.partition = _
    rw [hreceive, Member.ledger_note, if_pos rfl]
  refine ⟨.receive (.record message) env, ⟨trivial, ?_⟩, ?_, ?_⟩
  · intro message' env' heq
    rw [Action.receive.injEq, PollResponse.record.injEq] at heq
    exact heq.1 ▸ hserve
  · change (engine.receive m (.record message) env).1.toOption.join = none
    rw [hreceive]
    rfl
  · refine ⟨(engine.next_command _).trans h.command, ?_, ?_, ?_⟩
    · rw [hnext]
      exact h.attempts
    · rw [hnext]
      exact h.paused
    · change ((engine.next m (.receive (.record message) env)).ledger
        message.partition).fetch.getD _ = _
      rw [hnext, ← hoffset]
      rfl

/-- The loop seeks the pause of a partition even when the client does not resume. -/
theorem ledger_resumeLoop_of_raises (p monotonicNs : ℕ) (raised : Raised) {paused : PausedDelivery}
    (due : paused.resumeAt ≤ monotonicNs) (l : List (ℕ × PausedDelivery))
    (hlookup : l.lookup p = some paused) (m : Member) :
    (resumeLoop { monotonicNs, resume := fun q => if q = p then some raised else none } l
      m).2.ledger p = (m.ledger p).note (.seek paused.offset) := by
  induction l generalizing m with
  | nil => simp at hlookup
  | cons e rest ih =>
    obtain ⟨q, other⟩ := e
    rw [List.lookup_cons] at hlookup
    rw [resumeLoop]
    -- The loop stops at `p`, whose entry is this one or a later one.
    by_cases here : p = q
    · subst here
      rw [beq_self_eq_true] at hlookup
      obtain rfl := Option.some.inj hlookup
      rw [if_neg (not_lt.mpr due)]
      dsimp only
      rw [if_pos rfl, Member.ledger_note, if_pos rfl]
    · rw [beq_eq_false_iff_ne.mpr here] at hlookup
      split
      · exact ih hlookup m
      · dsimp only
        rw [if_neg (Ne.symm here)]
        dsimp only
        rw [ih hlookup, Member.ledger_deletePaused, Member.ledger_note, Member.ledger_note,
          if_neg (Ne.symm here), if_neg (Ne.symm here), if_neg (Ne.symm here)]

/-- Every position that the client comes to is one that polls lead to, before they hand
out anything. -/
theorem exists_polls_of_comes (places : log.Places m.state.command.stream.topic) {e : ℕ}
    (comes : engine.Comes log origin m p e) :
    ∃ polls, (engine.polling log origin).Legal m polls ∧
      engine.issued ((engine.polling log origin).steps m polls) = [] ∧
      Arrived origin m p e ((engine.polling log origin).play m polls) := by
  -- One more step after the polls that led to the position before.
  have hstep : ∀ {e e' : ℕ} {polls : List (Action Token)},
      (engine.polling log origin).Legal m polls →
      engine.issued ((engine.polling log origin).steps m polls) = [] →
      (∃ a : Action Token,
        (engine.polling log origin).allowed ((engine.polling log origin).play m polls) a ∧
        engine.handedOut ((engine.polling log origin).play m polls) a = none ∧
        Arrived origin m p e'
          (engine.next ((engine.polling log origin).play m polls) a)) →
      ∃ polls, (engine.polling log origin).Legal m polls ∧
        engine.issued ((engine.polling log origin).steps m polls) = [] ∧
        Arrived origin m p e' ((engine.polling log origin).play m polls) := by
    rintro e e' polls hlegal hissued ⟨a, hallowed, hnone, harrived⟩
    refine ⟨polls ++ [a], ?_, ?_, ?_⟩
    · rw [Machine.legal_append]
      exact ⟨hlegal, by simpa using hallowed⟩
    · rw [Machine.steps_append, Machine.steps_cons, Machine.steps_nil, issued_append, hissued,
        hnone]
      rfl
    · rw [Machine.play_append]
      exact harrived
  induction comes with
  | stays => exact ⟨[], Machine.legal_nil _ _, rfl, rfl, rfl, Or.inl rfl, rfl⟩
  | @resumed paused waiting =>
    let env : ResumeEnv :=
      { monotonicNs := paused.resumeAt, resume := fun q => if q = p then some .other else none }
    have hnext : (engine.next m (.resumeDue env)).ledger p =
        (m.ledger p).note (.seek paused.offset) :=
      ledger_resumeLoop_of_raises p _ _ le_rfl _ waiting m
    have hnone : (engine.polling log origin).Legal m [] := Machine.legal_nil _ _
    refine hstep (e := 0) hnone rfl
      ⟨.resumeDue env, ⟨trivial, fun _ _ heq => by simp at heq⟩, rfl, ?_⟩
    rw [Machine.play_nil]
    refine ⟨engine.next_command _, ?_, Or.inl ?_, ?_⟩
    · rw [hnext]
      rfl
    · rw [hnext]
      rfl
    · change ((engine.next m (.resumeDue env)).ledger p).fetch.getD _ = _
      rw [hnext]
      rfl
  | @passes e o _ first fails ih =>
    obtain ⟨polls, hlegal, hissued, harrived⟩ := ih
    obtain ⟨message, hlog⟩ := Option.isSome_iff_exists.mp first.visible
    refine hstep (e := e) hlegal hissued ?_
    -- A pause at the record that is not over holds it back, and the client gets stuck.
    by_cases hdue : ∀ paused, (((engine.polling log origin).play m polls).ledger p).paused =
        some paused → paused.offset = o → paused.resumeAt = 0
    · exact harrived.pass places hlog first fails hdue
    · push Not at hdue
      obtain ⟨paused, hpaused, rfl, hresume⟩ := hdue
      refine harrived.stick places ?_ (Nat.pos_of_ne_zero hresume) hlog first
      rcases harrived.paused with hsame | hover
      · exact hsame.symm.trans hpaused
      · exact absurd (hpaused.symm.trans hover.1) (by simp)
  | @stuck e paused _ waiting early first ih =>
    obtain ⟨polls, hlegal, hissued, harrived⟩ := ih
    obtain ⟨message, hlog⟩ := Option.isSome_iff_exists.mp first.visible
    exact hstep (e := e) hlegal hissued (harrived.stick places waiting early hlog first)

/-- What the client comes to depends on the command, the pause and the place where it
reads. -/
theorem Comes.of_same {m' : Member} {e : ℕ} (comes : engine.Comes log origin m p e)
    (command : m'.state.command = m.state.command)
    (paused : (m'.ledger p).paused = (m.ledger p).paused)
    (reads : m'.readsFrom origin p = m.readsFrom origin p) : engine.Comes log origin m' p e := by
  induction comes with
  | stays =>
    rw [← reads]
    exact .stays
  | resumed waiting =>
    rw [← paused] at waiting
    exact .resumed waiting
  | passes _ first fails ih =>
    rw [← command] at fails
    exact .passes ih first fails
  | stuck _ waiting early first ih =>
    rw [← paused] at waiting
    exact .stuck ih waiting early first

/-- The client hands out the record where it reads on, once its pause is over. -/
theorem Arrived.deliver {start : Member} {e o : ℕ} (h : Arrived origin start p e m)
    (places : log.Places start.state.command.stream.topic) (first : FirstVisible log p e o)
    (decodes : engine.Decodes log start.state.command.stream p o) :
    ∃ (a : Action Token) (d : Delivery Token), (engine.polling log origin).allowed m a ∧
      engine.handedOut m a = some d ∧ d.position.partition = p ∧ d.position.offset = o ∧
      d.attempt = ((start.ledger p).attempts o).getD 0 + 1 := by
  obtain ⟨message, event, hlog, hdecodes⟩ := decodes
  rw [← h.reads] at first
  rw [← h.command] at places hdecodes
  obtain ⟨hpartition, hoffset, hserve⟩ := mayServe_of_first places hlog first
  subst hpartition hoffset
  -- The clock is past the end of the pause, whatever it is.
  let env : DeliveryEnv :=
    { monotonicNs := ((m.ledger message.partition).paused.map (·.resumeAt)).getD 0, nowMs := 0 }
  have hdue : ∀ paused, (m.ledger message.partition).paused = some paused →
      paused.offset = message.offset → paused.resumeAt ≤ env.monotonicNs := by
    intro paused hpaused _
    change paused.resumeAt ≤ ((m.ledger message.partition).paused.map (·.resumeAt)).getD 0
    rw [hpaused]
    exact le_rfl
  obtain ⟨m₁, hreceive, hcommand, hattempts, -⟩ :=
    receive_of_due engine hserve.topic hdue
  have hsome : ∃ d, engine.handedOut m (.receive (.record message) env) = some d := by
    change ∃ d, (engine.receive m (.record message) env).1.toOption.join = some d
    rw [hreceive]
    unfold issueDelivery
    dsimp only
    rw [hcommand, hdecodes]
    exact ⟨_, rfl⟩
  obtain ⟨d, hd⟩ := hsome
  rcases receive_cases engine m (.record message) env with
    ⟨hnone, -, -⟩ | ⟨message', d', hsame, hsome, hout⟩
  · exact absurd (hnone.symm.trans hd) (by simp)
  obtain rfl : message = message' := by simpa using hsame
  obtain rfl : d = d' := Option.some.inj (hd.symm.trans hsome)
  have hhere := hout.here
  rw [Delivery.of, Bool.and_eq_true, decide_eq_true_eq, decide_eq_true_eq] at hhere
  refine ⟨.receive (.record message) env, d, ⟨trivial, ?_⟩, hd, hhere.1, hhere.2, ?_⟩
  · intro message' env' heq
    rw [Action.receive.injEq, PollResponse.record.injEq] at heq
    exact heq.1 ▸ hserve
  · rw [hout.attempt]
    exact congrArg (fun f : ℕ → Option ℕ => (f message.offset).getD 0 + 1) h.attempts

/-- When the next delivery is the record at the target, then so is every record that the
client can come to. -/
theorem leadsTo_of_nextDelivery (places : log.Places m.state.command.stream.topic)
    (next : engine.NextDelivery log origin m p t) : engine.LeadsTo log origin m p t := by
  intro e comes o first decodes
  obtain ⟨polls, hlegal, hissued, harrived⟩ := exists_polls_of_comes places comes
  obtain ⟨a, d, hallowed, hd, rfl, rfl, hattempt⟩ := harrived.deliver places first decodes
  have hlegal' : (engine.polling log origin).Legal m (polls ++ [a]) := by
    rw [Machine.legal_append]
    exact ⟨hlegal, by simpa using hallowed⟩
  have hsteps : (engine.polling log origin).steps m (polls ++ [a]) =
      (engine.polling log origin).steps m polls ++
        ((engine.polling log origin).play m polls, a) :: [] :=
    Machine.steps_append _ _ _ _
  obtain ⟨hvisible, hone⟩ := next _ hlegal' _ _ _ _ hsteps d hd rfl (by rw [hissued]; simp)
  rw [hattempt] at hone
  exact ⟨hvisible, by omega⟩

/-! ### Tokens from before the call -/

variable (engine log) in
/-- The epoch of the assignment never goes back along a run. -/
theorem le_play_assignmentEpoch (m : Member) (run : List (Action Token)) :
    m.state.assignmentEpoch ≤ ((engine.machine log).play m run).state.assignmentEpoch := by
  induction run generalizing m with
  | nil => exact le_rfl
  | cons a run ih => exact (engine.le_next_assignmentEpoch a).trans (ih (engine.next m a))

/-- Every token of a run is of an epoch that the run has reached. -/
theorem epoch_le_of_issued {keyOf : Token → DeliveryKey}
    (carries : engine.cursor.CarriesKey keyOf) {start : Member} {run : List (Action Token)}
    {d : Delivery Token} (hd : d ∈ engine.issued ((engine.machine log).steps start run)) :
    (keyOf d.token).assignmentEpoch ≤
      ((engine.machine log).play start run).state.assignmentEpoch := by
  obtain ⟨⟨s, a⟩, hmem, hsome⟩ := List.mem_filterMap.mp hd
  obtain ⟨before, after, rfl, rfl⟩ := Machine.exists_of_mem_steps hmem
  -- a delivery carries the epoch of its time, and the epoch never goes back
  have hepoch : (keyOf d.token).assignmentEpoch =
      ((engine.machine log).play start before).state.assignmentEpoch := by
    cases a with
    | receive response env =>
      rcases receive_cases engine _ response env with
        ⟨hnone, -, -⟩ | ⟨message, d', rfl, hd', hout⟩
      · exact absurd (hnone.symm.trans hsome) (by simp)
      obtain rfl : d = d' := Option.some.inj (hsome.symm.trans hd')
      obtain ⟨nowMs, topic, c, htoken, hkey⟩ := hout.token
      rw [htoken, carries.written, hkey]
    | _ => simp [handedOut] at hsome
  rw [hepoch, Machine.play_append]
  exact le_play_assignmentEpoch engine log _ _

/-- A new epoch refuses the tokens of the epochs before it, now and later. -/
theorem not_accepts_of_epoch_lt {keyOf : Token → DeliveryKey}
    (carries : engine.cursor.CarriesKey keyOf) {value : Token}
    (older : (keyOf value).assignmentEpoch < m.state.assignmentEpoch)
    (later : List (Action Token)) (c : DeliveryCoordinates) (a : Action Token) :
    ¬engine.Accepts ((engine.machine log).play m later) value c a := by
  intro haccepts
  have hkey := haccepts.keyOf_eq carries
  have hepoch := haccepts.inflight.1
  have hle := le_play_assignmentEpoch engine log m later
  rw [hkey, DeliveryCoordinates.key] at older
  dsimp only at older
  omega

/-! ### The call -/

/-- What a call has found that passes its checks. -/
structure TargetPasses (engine : KafkaConsumerEngine Token) (command : GroupPositionCommand Token)
    (env : GroupPositionEnv) (before : String) (target : Dict ℕ ℕ) : Prop where
  compared : ∃ positions, committedPositions env = .ok positions ∧
    engine.cursor.groupPositionFingerprint command.stream.topic positions = .ok before
  decoded : decodePositions engine.cursor env.nowMs command.position command.stream = .ok target
  covers : ∃ topics partitions, env.listTopics = .ok topics ∧
    partitionIds topics command.stream.topic = .ok partitions ∧
    ∀ p, (target.get? p).isSome ↔ p ∈ partitions

/-- A target that passes the checks is the decoded position, with every partition. -/
theorem of_groupPositionTarget {command : GroupPositionCommand Token} {env : GroupPositionEnv}
    {before : String} {target : Dict ℕ ℕ}
    (h : engine.groupPositionTarget command env = .ok (before, target)) :
    TargetPasses engine command env before target := by
  unfold groupPositionTarget at h
  obtain ⟨topics, htopics, h⟩ := exists_of_bind_eq_ok h
  obtain ⟨partitions, hpartitions, h⟩ := exists_of_bind_eq_ok h
  obtain ⟨positions, hpositions, h⟩ := exists_of_bind_eq_ok h
  obtain ⟨fingerprint, hfingerprint, h⟩ := exists_of_bind_eq_ok h
  dsimp only at h
  -- From here on the checks of the target; a failed one would have been raised.
  split at h
  · simp [throw, throwThe, MonadExceptOf.throw, bind, Except.bind] at h
  cases hdecode : decodePositions engine.cursor env.nowMs command.position command.stream with
  | error failure =>
    rw [hdecode] at h
    simp [throw, throwThe, MonadExceptOf.throw, bind, Except.bind] at h
  | ok decoded =>
  rw [hdecode] at h
  obtain ⟨_, hpure, h⟩ := exists_of_bind_eq_ok h
  obtain rfl := Except.ok.inj hpure
  split at h
  · simp [throw, throwThe, MonadExceptOf.throw, bind, Except.bind] at h
  next hcovers =>
  obtain ⟨-, -, h⟩ := exists_of_bind_eq_ok h
  obtain ⟨rfl, rfl⟩ := Prod.mk.inj (Except.ok.inj h)
  refine ⟨⟨positions, hpositions, hfingerprint⟩, hdecode,
    ⟨topics, partitions, htopics, hpartitions, fun p => ?_⟩⟩
  rw [Dict.get?_isSome_iff, ← List.mem_toFinset, not_not.mp hcovers, List.mem_toFinset]

section Call

variable {command : GroupPositionCommand Token} {env : GroupPositionEnv} {before : String}
  {target : Dict ℕ ℕ}

/-- After its commit the call has moved the member, whatever it answers. -/
theorem groupPosition_committed
    (htarget : engine.groupPositionTarget command env = .ok (before, target))
    (hcommit : env.commit = none) :
    (engine.groupPosition m command env).2 = m.reposition target := by
  unfold groupPosition
  rw [htarget, hcommit]
  dsimp only
  split
  · rfl
  · split <;> rfl

/-- When the call returns, it has passed its checks and committed the target, and nothing
raised after that. -/
theorem groupPosition_ok {answer : String × String}
    (h : (engine.groupPosition m command env).1 = .ok answer) :
    ∃ target, engine.groupPositionTarget command env = .ok (answer.1, target) ∧
      env.commit = none ∧
      engine.cursor.groupPositionFingerprint command.stream.topic target = .ok answer.2 ∧
      env.emit = none := by
  unfold groupPosition at h
  -- The target is found, committed and reported; each of these may raise.
  cases htarget : engine.groupPositionTarget command env with
  | error raised =>
    rw [htarget] at h
    simp at h
  | ok result =>
  obtain ⟨before, target⟩ := result
  rw [htarget] at h
  dsimp only at h
  split at h
  · simp at h
  next hcommit =>
  split at h
  · simp at h
  next after hafter =>
  split at h
  · simp at h
  next hemit =>
  obtain rfl := Except.ok.inj h
  exact ⟨target, rfl, hcommit, hafter, hemit⟩

/-- What the next delivery is after the call, by the member before it. -/
theorem leadsTo_reposition :
    engine.LeadsTo log origin (m.reposition target) p t ↔ engine.LeadsTo log origin m p t := by
  have hledger := m.ledger_reposition p target
  have hpaused : ((m.reposition target).ledger p).paused = (m.ledger p).paused := by
    rw [hledger]
    rfl
  have hattempts : ((m.reposition target).ledger p).attempts = (m.ledger p).attempts := by
    rw [hledger]
    rfl
  -- A commit does not move the client.
  have hreads : (m.reposition target).readsFrom origin p = m.readsFrom origin p := by
    unfold Member.readsFrom
    rw [hledger]
    cases target.get? p <;> rfl
  unfold LeadsTo
  rw [hattempts]
  constructor
  · intro h e comes
    exact h e (comes.of_same rfl hpaused hreads)
  · intro h e comes
    exact h e (comes.of_same rfl hpaused.symm hreads.symm)

/-- What the answer of an effective call stands for. -/
theorem nextDelivery_reposition (places : log.Places m.state.command.stream.topic) :
    engine.NextDelivery log origin (m.reposition target) p t ↔
      engine.LeadsTo log origin m p t := by
  have hleads : engine.LeadsTo log origin (m.reposition target) p t ↔
      engine.LeadsTo log origin m p t := leadsTo_reposition
  rw [← hleads]
  refine ⟨leadsTo_of_nextDelivery places, nextDelivery_of_leadsTo fun o => ?_⟩
  rw [Member.ledger_reposition]
  rfl

end Call

/-- **When a group position takes effect.** A call of `group_position` on any member is
all or nothing and takes effect exactly when, once it comes to its commit, nothing
raises any more, and every position that the client can come to leads to the record at
the target, which has no count. -/
theorem takesEffect_iff {keyOf : Token → DeliveryKey}
    (carries : engine.cursor.CarriesKey keyOf) {start : Member} {run : List (Action Token)}
    (reached : (engine.machine log).play start run = m)
    (places : log.Places m.state.command.stream.topic) (command : GroupPositionCommand Token)
    (env : GroupPositionEnv) :
    engine.TakesEffect log origin start run m command env ↔
      engine.EffectiveAt log origin m command env := by
  constructor
  · intro h before target htarget hcommit
    have hmoved := groupPosition_committed (m := m) htarget hcommit
    -- A call that raised after its commit would have left the epoch as it was.
    have hanswer : ∃ answer, (engine.groupPosition m command env).1 = .ok answer := by
      cases hresult : (engine.groupPosition m command env).1 with
      | ok answer => exact ⟨answer, rfl⟩
      | error raised =>
        have hstate := (h.raised raised hresult).1
        rw [hmoved] at hstate
        have hepoch := congrArg GroupState.assignmentEpoch hstate
        exact absurd hepoch (Nat.succ_ne_self _)
    obtain ⟨answer, hanswer⟩ := hanswer
    obtain ⟨target', htarget', -, hafter, hemit⟩ := groupPosition_ok hanswer
    obtain ⟨rfl, rfl⟩ := Prod.mk.inj (Except.ok.inj (htarget.symm.trans htarget'))
    obtain ⟨decoded, hdecoded, -, heffect⟩ := h.returned answer hanswer
    obtain rfl : decoded = target :=
      Except.ok.inj (hdecoded.symm.trans (of_groupPositionTarget htarget).decoded)
    refine ⟨by rw [hafter]; rfl, hemit, fun p t ht => ?_⟩
    have hnext := (heffect p t ht).2.2
    rw [hmoved] at hnext
    exact (nextDelivery_reposition places).mp hnext
  · intro h
    refine ⟨fun raised hraised => ?_, fun answer hanswer d hd later c a => ?_,
      fun answer hanswer => ?_⟩
    · cases htarget : engine.groupPositionTarget command env with
      | error raised' =>
        have hkept : (engine.groupPosition m command env).2 = m := by
          unfold groupPosition
          rw [htarget]
        rw [hkept]
        exact ⟨rfl, fun p => rfl⟩
      | ok result =>
        obtain ⟨before, target⟩ := result
        cases hcommit : env.commit with
        | some raised' =>
          have hkept : (engine.groupPosition m command env).2 = m := by
            unfold groupPosition
            rw [htarget, hcommit]
          rw [hkept]
          exact ⟨rfl, fun p => rfl⟩
        | none =>
          obtain ⟨hafter, hemit, -⟩ := h before target htarget hcommit
          cases hprint : engine.cursor.groupPositionFingerprint command.stream.topic target with
          | error raised' =>
            rw [hprint] at hafter
            simp [Except.isOk, Except.toBool] at hafter
          | ok after =>
            unfold groupPosition at hraised
            rw [htarget, hcommit] at hraised
            dsimp only at hraised
            rw [hprint, hemit] at hraised
            simp at hraised
    · obtain ⟨target, htarget, hcommit, -, -⟩ := groupPosition_ok hanswer
      rw [groupPosition_committed htarget hcommit]
      refine not_accepts_of_epoch_lt carries ?_ later c a
      have hle := epoch_le_of_issued carries hd
      rw [reached] at hle
      exact Nat.lt_succ_of_le hle
    · obtain ⟨target, htarget, hcommit, -, -⟩ := groupPosition_ok hanswer
      have hpasses := of_groupPositionTarget htarget
      refine ⟨target, hpasses.decoded, fun topics partitions htopics hpartitions p hp => ?_,
        fun p t ht => ?_⟩
      · obtain ⟨topics', partitions', htopics', hpartitions', hcovers⟩ := hpasses.covers
        obtain rfl := Except.ok.inj (htopics.symm.trans htopics')
        obtain rfl := Except.ok.inj (hpartitions.symm.trans hpartitions')
        exact (hcovers p).mpr hp
      rw [groupPosition_committed htarget hcommit]
      refine ⟨?_, ?_, ?_⟩
      · rw [Member.ledger_reposition, ht]
        rfl
      · rw [Member.ledger_reposition, ht]
        rfl
      · exact (nextDelivery_reposition places).mpr ((h _ target htarget hcommit).2.2 p t ht)

/-- The group goes to where its client reads on. -/
theorem takesEffect_iff_halfway :
    Sample.engine.TakesEffect (Sample.log [0, 1, 2] []) (fun _ => 0) (.joined Sample.command [0])
      Sample.readTwo Sample.halfway (Sample.groupPositionCommand 2 2)
      (Sample.groupPositionEnv 2) := by
  refine (takesEffect_iff (payloadCodec_carriesKey _) rfl ?_ _ _).mpr ?_
  · exact Sample.places_log _ _
  intro before target htarget _
  have hvalue : Sample.engine.groupPositionTarget (Sample.groupPositionCommand 2 2)
      (Sample.groupPositionEnv 2) = .ok ("orders.v1:0=2", Dict.empty.set 0 2) := by rfl
  obtain ⟨rfl, rfl⟩ := Prod.mk.inj (Except.ok.inj (hvalue.symm.trans htarget))
  refine ⟨by decide +kernel, rfl, fun p t ht => ?_⟩
  rw [Dict.get?_set] at ht
  split at ht
  swap
  · simp [Dict.empty, Dict.get?] at ht
  next here =>
  obtain rfl := here
  obtain rfl := Option.some.inj ht
  have hvisible : (Sample.log [0, 1, 2] [] 0 2).isSome := rfl
  have hpaused : (Sample.halfway.ledger 0).paused = none := rfl
  -- The client stays at the target: it has no pause, and the record there can be decoded.
  have hstays : ∀ e, Sample.engine.Comes (Sample.log [0, 1, 2] []) (fun _ => 0)
      Sample.halfway 0 e → e = 2 := by
    intro e comes
    induction comes with
    | stays => decide +kernel
    | resumed waiting => exact absurd (hpaused.symm.trans waiting) (by simp)
    | @passes e o _ first fails ih =>
      subst ih
      rcases first.le.eq_or_lt with rfl | hlt
      · exact absurd ⟨Sample.message 2, Sample.event, rfl, by rfl⟩ fails
      · rw [first.before 2 le_rfl hlt] at hvisible
        simp at hvisible
    | stuck _ waiting => exact absurd (hpaused.symm.trans waiting) (by simp)
  intro e comes o first _
  obtain rfl := hstays e comes
  refine ⟨first, ?_⟩
  rcases first.le.eq_or_lt with rfl | hlt
  · decide +kernel
  · rw [first.before 2 le_rfl hlt] at hvisible
    simp at hvisible

/-- **The group goes back, the client does not.** After the records 0 and 1 were
acknowledged, the group is put back to 0 and the call returns; the next record that is
handed out is 2. -/
theorem groupPosition_leaves_the_client :
    (Sample.engine.groupPosition Sample.halfway (Sample.groupPositionCommand 2 0)
        (Sample.groupPositionEnv 2)).1.isOk ∧
      ¬Sample.engine.TakesEffect (Sample.log [0, 1, 2] []) (fun _ => 0)
        (.joined Sample.command [0]) Sample.readTwo Sample.halfway
        (Sample.groupPositionCommand 2 0) (Sample.groupPositionEnv 2) := by
  have hanswer : (Sample.engine.groupPosition Sample.halfway (Sample.groupPositionCommand 2 0)
      (Sample.groupPositionEnv 2)).1 = .ok ("orders.v1:0=2", "orders.v1:0=0") := by rfl
  refine ⟨by rw [hanswer]; rfl, fun h => ?_⟩
  obtain ⟨target, htarget, -, heffect⟩ := h.returned _ hanswer
  have hvalue : decodePositions Sample.engine.cursor (Sample.groupPositionEnv 2).nowMs
      (Sample.groupPositionCommand 2 0).position (Sample.groupPositionCommand 2 0).stream =
        .ok (Dict.empty.set 0 0) := by rfl
  obtain rfl := Except.ok.inj (hvalue.symm.trans htarget)
  have hnext := (heffect 0 0 rfl).2.2
  set m := (Sample.engine.groupPosition Sample.halfway (Sample.groupPositionCommand 2 0)
    (Sample.groupPositionEnv 2)).2 with hm
  -- The client was not moved: it may serve the record at offset 2 next.
  have hserve : MayServe (Sample.log [0, 1, 2] []) (fun _ => 0) m (Sample.message 2) := by
    have hreads : m.readsFrom (fun _ => 0) 0 = 2 := by rfl
    refine ⟨rfl, rfl, ?_⟩
    change FirstVisible _ 0 (m.readsFrom (fun _ => 0) 0) 2
    rw [hreads]
    exact ⟨le_rfl, rfl, fun k hle hlt => absurd hlt (not_lt.mpr hle)⟩
  have hlegal : (Sample.engine.polling (Sample.log [0, 1, 2] []) fun _ => 0).Legal m
      [Sample.receive 2] := by
    rw [Machine.legal_cons]
    refine ⟨⟨trivial, fun message env heq => ?_⟩, Machine.legal_nil _ _⟩
    rw [Sample.receive, Action.receive.injEq, PollResponse.record.injEq] at heq
    exact heq.1 ▸ hserve
  obtain ⟨d, hd, hpartition, hoffset⟩ : ∃ d, Sample.engine.handedOut m (Sample.receive 2) = some d ∧
      d.position.partition = 0 ∧ d.position.offset = 2 := ⟨_, rfl, rfl, rfl⟩
  obtain ⟨hfirst, -⟩ := hnext _ hlegal [] m _ [] rfl d hd hpartition (by simp [issued])
  rw [hoffset] at hfirst
  -- But record 0 is visible, and stands at the position that was set.
  exact absurd (hfirst.before 0 le_rfl (by omega)) (by decide +kernel)

end KafkaConsumerEngine

end MeridianKafka
