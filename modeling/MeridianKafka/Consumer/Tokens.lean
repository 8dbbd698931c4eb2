import MeridianKafka.Consumer.Sound

/-!
# Delivery tokens

A delivery token names a record, an assignment and an attempt, and a call with the
token is accepted when a delivery with just these is in flight. A token should be
good for one resolution, and only as long as its delivery is the latest of the
record.

The attempt numbers of a record keep its deliveries apart as long as they are counted
on. An acknowledgement drops the count, so a record that is handed out again after it
was acknowledged starts at attempt 1 again, with the number of its first delivery:
the token of that one, acknowledged or not, is good once more
(`acknowledged_token_is_accepted_again`). An earlier record that goes back takes the
client back to the acknowledged one in just this way.

In a run that hands out no acknowledged record, every token is resolved at most once,
only the token of the latest delivery of its record is accepted, and an acknowledged
token never is again (`singleUse_of_unsettled`).
-/

namespace MeridianKafka

open Framework

/-- The record of a delivery. -/
def Delivery.of {Token : Type} (d : Delivery Token) (p o : ℕ) : Bool :=
  d.position.partition = p && d.position.offset = o

namespace KafkaConsumerEngine

variable {Token : Type} (engine : KafkaConsumerEngine Token)

/-! ### What a run issues, accepts and resolves -/

/-- The delivery that a step hands out. -/
def handedOut (m : Member) : Action Token → Option (Delivery Token)
  | .receive response env => (engine.receive m response env).1.toOption.join
  | _ => none

/-- The deliveries of the steps so far, in their order. -/
def issued (tr : List (Member × Action Token)) : List (Delivery Token) :=
  tr.filterMap fun x => engine.handedOut x.1 x.2

/-- The deliveries of one record. -/
def deliveriesOf (tr : List (Member × Action Token)) (p o : ℕ) : List (Delivery Token) :=
  (engine.issued tr).filter (·.of p o)

/-- The call presents the token, and it is accepted with these coordinates. -/
def Accepts (m : Member) (value : Token) (c : DeliveryCoordinates) : Action Token → Prop
  | .acknowledge command _ env =>
    command.delivery = value ∧ engine.ValidToken m command env.nowMs c
  | .negativeAcknowledge command env =>
    command.delivery = value ∧
      engine.cursor.decodeDelivery env.nowMs command.delivery command.subscription.ref
        command.consumerGroup.ref command.stream.topic = .ok c ∧
      ∃ inflight, negativeAcknowledgeGuard m c = .ok inflight
  | _ => False

/-- The token that a step resolves: the call that presents it returns. -/
def resolves (m : Member) : Action Token → Option Token
  | .acknowledge command transaction env =>
    if (engine.acknowledge m command transaction env).1.isOk then some command.delivery else none
  | .negativeAcknowledge command env =>
    if (engine.negativeAcknowledge m command env).1.isOk then some command.delivery else none
  | _ => none

/-- The tokens that the steps so far have resolved. -/
def spent (tr : List (Member × Action Token)) : List Token :=
  tr.filterMap fun x => engine.resolves x.1 x.2

/-- The step acknowledges this token. -/
def Acknowledges (m : Member) (value : Token) : Action Token → Prop
  | .acknowledge command transaction env =>
    command.delivery = value ∧ (engine.acknowledge m command transaction env).1.isOk
  | _ => False

/-- A run of one member without a rebalance, a recovery or a `group_position`, from a
start without any books. -/
structure PollingRun (log : PartitionLog) (start : Member) (run : List (Action Token)) : Prop where
  fresh : ∀ p, start.ledger p = .empty
  legal : (engine.machine log).Legal start run
  keeps : ∀ a ∈ run, a.KeepsAssignment

/-- The steps of a run use every token once. -/
structure SingleUse (steps : List (Member × Action Token)) : Prop where
  resolved_once : (engine.spent steps).Nodup
  /-- What is accepted is the attempt of the latest delivery of the record; a token of
  the run is the token of that delivery, and of no earlier one. -/
  accepted_latest : ∀ before m a after, steps = before ++ (m, a) :: after →
    ∀ value c, engine.Accepts m value c a →
      ∃ earlier latest, engine.deliveriesOf before c.partition c.offset = earlier ++ [latest] ∧
        latest.attempt = c.attempt ∧
        ((∃ d ∈ engine.issued before, d.token = value) →
          latest.token = value ∧ ∀ d ∈ earlier, d.token ≠ value)
  acknowledged_rejected : ∀ before m a after, steps = before ++ (m, a) :: after →
    ∀ value, (∃ x ∈ before, engine.Acknowledges x.1 value x.2) → ∀ c, ¬engine.Accepts m value c a

/-- The step does not hand out a record that was acknowledged. -/
def HandsOutUnsettled (m : Member) : Action Token → Prop
  | .receive (.record message) _ => message.offset ∉ (m.ledger message.partition).resolved
  | _ => True

instance (m : Member) : DecidablePred (@HandsOutUnsettled Token m)
  | .receive (.record _) _ => inferInstanceAs (Decidable (_ ∉ _))
  | .receive (.raised _) _ | .receive .none _ | .receive (.error _) _ | .expireInflight _
  | .resumeDue _ | .acknowledge _ _ _ | .negativeAcknowledge _ _ | .assigned _ | .revoked _
  | .groupPosition _ _ => isTrue trivial

variable {engine} {log : PartitionLog} {m : Member} {p o : ℕ}

/-! ### The steps of a record's books -/

/-- What handing out a record does to the books of deliveries. -/
structure HandsOut (engine : KafkaConsumerEngine Token) (m : Member) (message : Message)
    (d : Delivery Token) (m' : Member) : Prop where
  here : d.of message.partition message.offset
  attempt : d.attempt = m.state.attempts.getD (message.partition, message.offset) 0 + 1
  token : ∃ nowMs topic c, d.token = engine.cursor.encodeDelivery nowMs topic c ∧
    c.key = ⟨message.partition, message.offset, m.state.assignmentEpoch, d.attempt⟩
  attempts : m'.state.attempts =
    m.state.attempts.set (message.partition, message.offset) d.attempt
  inflight : ∃ event expiresAtMs, m'.state.inflight =
    m.state.inflight.set (message.partition, message.offset)
      ⟨event, d.attempt, m.state.assignmentEpoch, expiresAtMs⟩

variable (engine m) in
/-- A step that hands out nothing leaves the deliveries and their counts. -/
theorem issueDelivery_cases (message : Message) (env : DeliveryEnv) :
    ((engine.issueDelivery m message env).1.toOption.join = none ∧
      (engine.issueDelivery m message env).2.state.inflight = m.state.inflight ∧
      (engine.issueDelivery m message env).2.state.attempts = m.state.attempts) ∨
    ∃ d, (engine.issueDelivery m message env).1.toOption.join = some d ∧
      engine.HandsOut m message d (engine.issueDelivery m message env).2 := by
  unfold issueDelivery
  dsimp only
  cases decodeEvent engine.parseEvent message m.state.command.stream with
  | error raised => exact Or.inl ⟨rfl, rfl, rfl⟩
  | ok event =>
    refine Or.inr ⟨_, rfl, ?_, rfl, ⟨_, _, _, rfl, rfl⟩, rfl, ⟨_, _, rfl⟩⟩
    simp [Delivery.of]

variable (engine m) in
/-- **One client poll** hands out its record, or leaves the deliveries in flight and
their counts as they are. -/
theorem receive_cases (response : PollResponse) (env : DeliveryEnv) :
    (engine.handedOut m (.receive response env) = none ∧
      (engine.receive m response env).2.state.inflight = m.state.inflight ∧
      (engine.receive m response env).2.state.attempts = m.state.attempts) ∨
    ∃ message d, response = .record message ∧
      engine.handedOut m (.receive response env) = some d ∧
      engine.HandsOut m message d (engine.receive m response env).2 := by
  unfold handedOut receive
  cases response with
  | raised raised => exact Or.inl ⟨rfl, rfl, rfl⟩
  | none => exact Or.inl ⟨rfl, rfl, rfl⟩
  | error error =>
    dsimp only
    split <;> exact Or.inl ⟨rfl, rfl, rfl⟩
  | record message =>
    -- Noting the record and ending its pause are not about deliveries.
    have hissue : ∀ m' : Member, m'.state.inflight = m.state.inflight →
        m'.state.attempts = m.state.attempts →
        m'.state.assignmentEpoch = m.state.assignmentEpoch →
        ((engine.issueDelivery m' message env).1.toOption.join = none ∧
          (engine.issueDelivery m' message env).2.state.inflight = m.state.inflight ∧
          (engine.issueDelivery m' message env).2.state.attempts = m.state.attempts) ∨
        ∃ message' d, PollResponse.record message = .record message' ∧
          (engine.issueDelivery m' message env).1.toOption.join = some d ∧
          engine.HandsOut m message' d (engine.issueDelivery m' message env).2 := by
      intro m' hinflight hattempts hepoch
      rcases issueDelivery_cases engine m' message env with
        ⟨hnone, hi, ha⟩ | ⟨d, hsome, hout⟩
      · exact Or.inl ⟨hnone, hi.trans hinflight, ha.trans hattempts⟩
      · refine Or.inr ⟨message, d, rfl, hsome, hout.here, ?_, ?_, ?_, ?_⟩
        · rw [← hattempts]
          exact hout.attempt
        · rw [← hepoch]
          exact hout.token
        · rw [← hattempts]
          exact hout.attempts
        · rw [← hinflight, ← hepoch]
          exact hout.inflight
    dsimp only
    unfold delivery
    split
    · exact Or.inl ⟨rfl, rfl, rfl⟩
    split
    · exact hissue _ rfl rfl rfl
    split
    · split <;> exact Or.inl ⟨rfl, rfl, rfl⟩
    · exact hissue _ rfl rfl rfl

/-- The token of a record that is handed out: the scope of its member, and its key. -/
theorem handedOut_token {a : Action Token} {d : Delivery Token}
    (h : engine.handedOut m a = some d) :
    ∃ nowMs topic c, d.token = engine.cursor.encodeDelivery nowMs topic c ∧
      c.subscription = m.state.command.subscription.ref ∧
      c.consumerGroup = m.state.command.consumerGroup.ref ∧
      c.key = ⟨d.position.partition, d.position.offset, m.state.assignmentEpoch, d.attempt⟩ := by
  -- The record is noted and its pause ends before it is handed out; neither is in the token.
  have hissue : ∀ (m' : Member) (message : Message) (env : DeliveryEnv),
      m'.state.command = m.state.command → m'.state.assignmentEpoch = m.state.assignmentEpoch →
      (engine.issueDelivery m' message env).1.toOption.join = some d →
      ∃ nowMs topic c, d.token = engine.cursor.encodeDelivery nowMs topic c ∧
        c.subscription = m.state.command.subscription.ref ∧
        c.consumerGroup = m.state.command.consumerGroup.ref ∧
        c.key = ⟨d.position.partition, d.position.offset, m.state.assignmentEpoch, d.attempt⟩ := by
    intro m' message env hcommand hepoch hd
    unfold issueDelivery at hd
    dsimp only at hd
    split at hd
    · simp [Except.toOption] at hd
    · obtain rfl := Option.some.inj hd
      rw [← hcommand, ← hepoch]
      exact ⟨_, _, _, rfl, rfl, rfl, rfl⟩
  cases a with
  | receive response env =>
    unfold handedOut receive at h
    cases response with
    | raised raised => simp [Except.toOption] at h
    | none => simp [Except.toOption] at h
    | error error =>
      dsimp only at h
      split at h <;> simp [Except.toOption] at h
    | record message =>
      dsimp only at h
      unfold delivery at h
      split at h
      · simp [Except.toOption] at h
      split at h
      · refine hissue _ message env ?_ ?_ h <;> rfl
      split at h
      · split at h <;> simp [Except.toOption] at h
      · refine hissue _ message env ?_ ?_ h <;> rfl
  | _ => simp [handedOut] at h

/-- An acknowledgement that returns takes its delivery out of flight. -/
theorem acknowledge_ok {command : AcknowledgeCommand Token}
    {transaction : Option KafkaTransactionBridge} {env : AcknowledgeEnv}
    (h : (engine.acknowledge m command transaction env).1.isOk) :
    ∃ c, engine.ValidToken m command env.nowMs c ∧
      ((engine.acknowledge m command transaction env).2.1.ledger c.partition).inflight c.offset =
        none := by
  have hvalid : ∃ c, engine.ValidToken m command env.nowMs c := by
    by_contra hnone
    obtain ⟨raised, hrefused⟩ := engine.acknowledge_of_invalid command transaction env
      (not_exists.mp hnone)
    rw [hrefused] at h
    simp [Except.isOk, Except.toBool] at h
  obtain ⟨c, hvalid⟩ := hvalid
  refine ⟨c, hvalid, ?_⟩
  -- Whatever the safe offset does, the call ends by settling the delivery.
  have hsettled : ∀ (m : Member) (committed : Bool) (transaction : Option KafkaTransactionBridge),
      ((completeAcknowledge m command c committed transaction env).2.1.ledger
        c.partition).inflight c.offset = none := by
    intro m committed transaction
    rw [completeAcknowledge_member, Member.ledger_settle, if_pos rfl]
    exact Function.update_self ..
  rw [hvalid.acknowledge_eq] at h ⊢
  unfold acknowledgeDelivery at h ⊢
  rw [hvalid.accepted] at h ⊢
  dsimp only at h ⊢
  split
  · next hadv =>
    rw [if_pos hadv] at h
    rcases hmove : moveGroup command c.partition (m.contiguous c.partition c.offset).1
      transaction env with ⟨raised | moved, transaction'⟩
    · rw [hmove] at h
      simp [Except.isOk, Except.toBool] at h
    · exact hsettled ..
  · exact hsettled ..

/-- A negative acknowledgement that returns takes its delivery out of flight, too. -/
theorem negativeAcknowledge_ok {keyOf : Token → DeliveryKey}
    (carries : engine.cursor.CarriesKey keyOf) {command : NegativeAcknowledgeCommand Token}
    {env : NegativeAcknowledgeEnv} (h : (engine.negativeAcknowledge m command env).1.isOk) :
    ∃ c, engine.Accepts m command.delivery c (.negativeAcknowledge command env) ∧
      ((engine.negativeAcknowledge m command env).2.ledger c.partition).inflight c.offset =
        none := by
  unfold negativeAcknowledge at h ⊢
  cases hdecodes : engine.cursor.decodeDelivery env.nowMs command.delivery
    command.subscription.ref command.consumerGroup.ref command.stream.topic with
  | error failure =>
    rw [hdecodes] at h
    simp [Except.isOk, Except.toBool] at h
  | ok c =>
    rw [hdecodes] at h
    dsimp only at h ⊢
    unfold negativeAcknowledgeDelivery at h ⊢
    cases hguard : negativeAcknowledgeGuard m c with
    | error failure =>
      rw [hguard] at h
      simp [Except.isOk, Except.toBool] at h
    | ok inflight =>
      rw [hguard] at h
      dsimp only at h ⊢
      refine ⟨c, ⟨rfl, hdecodes, inflight, hguard⟩, ?_⟩
      cases hdead : deadLetterStream command c with
      | none =>
        -- The delivery leaves the books before the client is asked for anything.
        have hdrop : ((m.dropInflight c.partition c.offset).ledger c.partition).inflight c.offset =
            none := by
          rw [Member.ledger_dropInflight, if_pos rfl]
          exact Function.update_self ..
        rcases scheduleRedelivery_cases (m := m) command c env with
          ⟨-, heq⟩ | ⟨-, -, heq⟩ | ⟨-, -, heq⟩ <;> rw [heq] <;> exact hdrop
      | some ref =>
        rw [hdead] at h
        dsimp only at h ⊢
        unfold deadLetter at h ⊢
        cases hstream : engine.settings.stream ref with
        | error failure =>
          rw [hstream] at h
          simp [Except.isOk, Except.toBool] at h
        | ok target =>
          rw [hstream] at h
          dsimp only at h ⊢
          split at h
          · simp [Except.isOk, Except.toBool] at h
          next targetEventId hpublish =>
          have hkey := carries.read _ _ _ _ _ _ hdecodes
          rcases hack : engine.acknowledge m command.toAcknowledgeCommand none env.acknowledge with
            ⟨raised | acknowledged, m', transaction⟩
          · rw [hack] at h
            simp [Except.isOk, Except.toBool] at h
          · -- The acknowledgement reads the same token, perhaps at another time.
            have hok : (engine.acknowledge m command.toAcknowledgeCommand none
                env.acknowledge).1.isOk := by
              rw [hack]
              rfl
            obtain ⟨c', hvalid, hnone⟩ := acknowledge_ok hok
            have hsame := hkey.symm.trans (carries.read _ _ _ _ _ _ hvalid.decodes)
            rw [DeliveryCoordinates.key, DeliveryCoordinates.key, DeliveryKey.mk.injEq] at hsame
            rw [hack] at hnone
            rw [hsame.1, hsame.2.1]
            dsimp only
            cases env.emit <;> exact hnone

/-- A step of a record's books that hands out nothing: deliveries only leave, and a
count changes only when its record is acknowledged. -/
theorem PartitionStep.withdraws {a : Action Token} {L' : Ledger}
    (step : PartitionStep engine log m p a L') (keeps : a.KeepsAssignment)
    (idle : ∀ response env, a ≠ .receive response env) :
    (∀ o i, L'.inflight o = some i → (m.ledger p).inflight o = some i) ∧
      (∀ o ∈ (m.ledger p).resolved, o ∈ L'.resolved) ∧
      ∀ o, o ∈ L'.resolved ∨ L'.attempts o = (m.ledger p).attempts o := by
  have hdrop : ∀ offset o i, ((m.ledger p).dropInflight offset).inflight o = some i →
      (m.ledger p).inflight o = some i := by
    intro offset o i hi
    by_cases heq : o = offset
    · subst heq
      exact absurd hi (by simp [Ledger.dropInflight])
    · simpa [Ledger.dropInflight, heq] using hi
  -- An acknowledgement settles its record, unless the group could not be moved.
  have hack : ∀ {o : ℕ} {transactional : Bool} {fails : Prop} {L' : Ledger},
      (m.ledger p).AcknowledgeStep o transactional fails L' →
      (∀ k i, L'.inflight k = some i → (m.ledger p).inflight k = some i) ∧
        (∀ k ∈ (m.ledger p).resolved, k ∈ L'.resolved) ∧
        ∀ k, k ∈ L'.resolved ∨ L'.attempts k = (m.ledger p).attempts k := by
    intro o transactional fails L' hstep
    have hsettle : ∀ L : Ledger, L.inflight = (m.ledger p).inflight →
        L.attempts = (m.ledger p).attempts → L.resolved = (m.ledger p).resolved →
        (∀ k i, (L.settle o transactional).inflight k = some i →
          (m.ledger p).inflight k = some i) ∧
        (∀ k ∈ (m.ledger p).resolved, k ∈ (L.settle o transactional).resolved) ∧
        ∀ k, k ∈ (L.settle o transactional).resolved ∨
          (L.settle o transactional).attempts k = (m.ledger p).attempts k := by
      intro L hinflight hattempts hresolved
      have hnow : (L.settle o transactional).resolved = o :: (m.ledger p).resolved := by
        rw [← hresolved]
        rfl
      refine ⟨fun k i hi => ?_, fun k hk => ?_, fun k => ?_⟩
      · by_cases heq : k = o
        · subst heq
          exact absurd hi (by simp [Ledger.settle])
        · rw [← hinflight]
          simpa [Ledger.settle, heq] using hi
      · rw [hnow]
        exact List.mem_cons_of_mem _ hk
      · by_cases heq : k = o
        · rw [hnow, heq]
          exact Or.inl List.mem_cons_self
        · rw [← hattempts]
          exact Or.inr (by simp [Ledger.settle, heq])
    cases hstep with
    | failed => exact ⟨fun _ _ hi => hi, fun _ hk => hk, fun _ => Or.inr rfl⟩
    | moved => cases transactional <;> exact hsettle _ rfl rfl rfl
    | collected => exact hsettle _ rfl rfl rfl
  cases step with
  | idle => exact ⟨fun _ _ hi => hi, fun _ hk => hk, fun _ => Or.inr rfl⟩
  | rewound =>
    refine ⟨fun o i hi => ?_, fun _ hk => hk, fun _ => Or.inr rfl⟩
    dsimp only [Ledger.rewind] at hi
    split at hi
    · exact hi
    · simp at hi
  | resumeSought => exact ⟨fun _ _ hi => hi, fun _ hk => hk, fun _ => Or.inr rfl⟩
  | resumed => exact ⟨fun _ _ hi => hi, fun _ hk => hk, fun _ => Or.inr rfl⟩
  | stuck => exact absurd rfl (idle _ _)
  | heldBack => exact absurd rfl (idle _ _)
  | rejected => exact absurd rfl (idle _ _)
  | delivered => exact absurd rfl (idle _ _)
  | acknowledged _ _ hstep => exact hack hstep
  | deadLettered _ _ hstep => exact hack hstep
  | dropped => exact ⟨hdrop _, fun _ hk => hk, fun _ => Or.inr rfl⟩
  | sought => exact ⟨hdrop _, fun _ hk => hk, fun _ => Or.inr rfl⟩
  | pausedAt => exact ⟨hdrop _, fun _ hk => hk, fun _ => Or.inr rfl⟩
  | revoked => exact keeps.elim
  | repositioned => exact keeps.elim

/-- A client poll acknowledges nothing. -/
theorem PartitionStep.resolved_of_receive {response : PollResponse} {env : DeliveryEnv}
    {L' : Ledger} (step : PartitionStep engine log m p (.receive response env) L') :
    L'.resolved = (m.ledger p).resolved := by
  cases step with
  | idle => rfl
  | stuck => rfl
  | heldBack => rfl
  | rejected => exact Ledger.reject_resolved ..
  | delivered => exact Ledger.handOut_resolved ..

/-! ### The attempts of a record stay apart -/

/-- What the tokens of the steps so far have to do with the books. -/
structure TokenInvariant (engine : KafkaConsumerEngine Token) (keyOf : Token → DeliveryKey)
    (tr : List (Member × Action Token)) (m : Member) : Prop where
  sealed : ∀ d ∈ engine.issued tr, keyOf d.token =
    ⟨d.position.partition, d.position.offset, m.state.assignmentEpoch, d.attempt⟩
  /-- The count of a record is at least the attempt of each of its deliveries, until it
  is acknowledged. -/
  counted : ∀ d ∈ engine.issued tr, d.position.offset ∈ (m.ledger d.position.partition).resolved ∨
    d.attempt ≤ ((m.ledger d.position.partition).attempts d.position.offset).getD 0
  apart : ((engine.issued tr).map fun d => keyOf d.token).Nodup
  /-- What is in flight is the latest delivery. -/
  inflight : ∀ p o i, (m.ledger p).inflight o = some i →
    ∃ earlier d, engine.deliveriesOf tr p o = earlier ++ [d] ∧ d.attempt = i.attempt
  spent : ∀ value ∈ engine.spent tr, (∃ d ∈ engine.issued tr, keyOf d.token = keyOf value) ∧
    ∀ i, (m.ledger (keyOf value).partition).inflight (keyOf value).offset = some i →
      i.attempt ≠ (keyOf value).attempt
  once : (engine.spent tr).Nodup

theorem TokenInvariant.fresh {keyOf : Token → DeliveryKey} (hfresh : ∀ p, m.ledger p = .empty) :
    engine.TokenInvariant keyOf [] m where
  sealed d hd := absurd hd List.not_mem_nil
  counted d hd := absurd hd List.not_mem_nil
  apart := List.nodup_nil
  inflight p o i hi := by
    rw [hfresh] at hi
    simp [Ledger.empty] at hi
  spent value hvalue := absurd hvalue List.not_mem_nil
  once := List.nodup_nil

/-- An accepted call finds its attempt in flight. -/
theorem Accepts.inflight {value : Token} {c : DeliveryCoordinates} {a : Action Token}
    (h : engine.Accepts m value c a) :
    c.assignmentEpoch = m.state.assignmentEpoch ∧
      ∃ i, (m.ledger c.partition).inflight c.offset = some i ∧ i.attempt = c.attempt := by
  -- Either guard compares the epoch first, and then the attempt.
  cases a with
  | acknowledge command transaction env =>
    obtain ⟨-, hvalid⟩ := h
    obtain ⟨i, hget, hattempt, hepoch⟩ := hvalid.inflight
    refine ⟨?_, i, hget, hattempt⟩
    by_contra hne
    have haccepted := hvalid.accepted
    unfold acknowledgeGuard at haccepted
    rw [if_pos hne] at haccepted
    simp at haccepted
  | negativeAcknowledge command env =>
    obtain ⟨-, -, i, hguard⟩ := h
    unfold negativeAcknowledgeGuard at hguard
    split at hguard
    · simp at hguard
    next hepoch =>
    refine ⟨not_not.mp hepoch, ?_⟩
    split at hguard
    · next found hfound =>
      obtain ⟨hget, hattempt⟩ := Option.filter_eq_some_iff.mp hfound
      exact ⟨found, hget, by simpa using hattempt⟩
    · simp at hguard
  | _ => exact h.elim

/-- The key of an accepted token is that of its coordinates. -/
theorem Accepts.keyOf_eq {keyOf : Token → DeliveryKey} (carries : engine.cursor.CarriesKey keyOf)
    {value : Token} {c : DeliveryCoordinates} {a : Action Token}
    (h : engine.Accepts m value c a) : keyOf value = c.key := by
  cases a with
  | acknowledge command transaction env =>
    obtain ⟨rfl, hvalid⟩ := h
    exact carries.read _ _ _ _ _ _ hvalid.decodes
  | negativeAcknowledge command env =>
    obtain ⟨rfl, hdecodes, -⟩ := h
    exact carries.read _ _ _ _ _ _ hdecodes
  | _ => exact h.elim

/-- A call that resolves its token was accepted, and takes the delivery out of flight. -/
theorem accepts_of_resolves {keyOf : Token → DeliveryKey}
    (carries : engine.cursor.CarriesKey keyOf) {value : Token} {a : Action Token}
    (h : engine.resolves m a = some value) :
    ∃ c, engine.Accepts m value c a ∧
      ((engine.next m a).ledger c.partition).inflight c.offset = none := by
  cases a with
  | acknowledge command transaction env =>
    rw [resolves, Option.ite_none_right_eq_some] at h
    obtain rfl := Option.some.inj h.2
    obtain ⟨c, hvalid, hnone⟩ := acknowledge_ok h.1
    exact ⟨c, ⟨rfl, hvalid⟩, hnone⟩
  | negativeAcknowledge command env =>
    rw [resolves, Option.ite_none_right_eq_some] at h
    obtain rfl := Option.some.inj h.2
    exact negativeAcknowledge_ok carries h.1
  | _ => simp [resolves] at h

/-- An accepted token was not resolved before. -/
theorem TokenInvariant.notMem_spent {keyOf : Token → DeliveryKey}
    {tr : List (Member × Action Token)} (h : engine.TokenInvariant keyOf tr m)
    (carries : engine.cursor.CarriesKey keyOf) {value : Token} {c : DeliveryCoordinates}
    {a : Action Token} (haccepts : engine.Accepts m value c a) : value ∉ engine.spent tr := by
  intro hspent
  obtain ⟨-, i, hget, hattempt⟩ := haccepts.inflight
  have hkey := haccepts.keyOf_eq carries
  have hne := (h.spent value hspent).2 i
  rw [hkey] at hne
  exact hne hget hattempt

/-! ### One step, and a run -/

theorem issued_append (tr : List (Member × Action Token)) (m : Member) (a : Action Token) :
    engine.issued (tr ++ [(m, a)]) = engine.issued tr ++ (engine.handedOut m a).toList := by
  unfold issued
  rw [List.filterMap_append, List.filterMap_cons, List.filterMap_nil]
  cases engine.handedOut m a <;> rfl

theorem spent_append (tr : List (Member × Action Token)) (m : Member) (a : Action Token) :
    engine.spent (tr ++ [(m, a)]) = engine.spent tr ++ (engine.resolves m a).toList := by
  unfold spent
  rw [List.filterMap_append, List.filterMap_cons, List.filterMap_nil]
  cases engine.resolves m a <;> rfl

/-- A step that hands out nothing keeps the attempts apart. -/
theorem TokenInvariant.withdraw {keyOf : Token → DeliveryKey}
    {tr : List (Member × Action Token)} {a : Action Token} (h : engine.TokenInvariant keyOf tr m)
    (carries : engine.cursor.CarriesKey keyOf) (nothing : engine.handedOut m a = none)
    (epoch : (engine.next m a).state.assignmentEpoch = m.state.assignmentEpoch)
    (inflight : ∀ p o i, ((engine.next m a).ledger p).inflight o = some i →
      (m.ledger p).inflight o = some i)
    (resolved : ∀ p, ∀ o ∈ (m.ledger p).resolved, o ∈ ((engine.next m a).ledger p).resolved)
    (counts : ∀ p o, o ∈ ((engine.next m a).ledger p).resolved ∨
      ((engine.next m a).ledger p).attempts o = (m.ledger p).attempts o) :
    engine.TokenInvariant keyOf (tr ++ [(m, a)]) (engine.next m a) := by
  have hissued : engine.issued (tr ++ [(m, a)]) = engine.issued tr := by
    rw [issued_append, nothing]
    exact List.append_nil _
  have hof : ∀ p o, engine.deliveriesOf (tr ++ [(m, a)]) p o = engine.deliveriesOf tr p o := by
    intro p o
    rw [deliveriesOf, hissued, deliveriesOf]
  refine ⟨?_, ?_, ?_, ?_, ?_, ?_⟩
  · rw [hissued, epoch]
    exact h.sealed
  · rw [hissued]
    intro d hd
    -- A step that lowers the count of a record has resolved it.
    rcases h.counted d hd with hresolved | hle
    · exact Or.inl (resolved _ _ hresolved)
    · rcases counts d.position.partition d.position.offset with hresolved | heq
      · exact Or.inl hresolved
      · exact Or.inr (heq ▸ hle)
  · rw [hissued]
    exact h.apart
  · intro p o i hi
    rw [hof]
    exact h.inflight p o i (inflight p o i hi)
  · intro value hvalue
    rw [hissued]
    rw [spent_append, List.mem_append, Option.mem_toList] at hvalue
    rcases hvalue with hold | hnow
    · exact ⟨(h.spent value hold).1, fun i hi => (h.spent value hold).2 i (inflight _ _ i hi)⟩
    · -- The token that this step resolves: its delivery was the latest, and is gone.
      obtain ⟨c, haccepts, hnone⟩ := accepts_of_resolves carries hnow
      have hkey := haccepts.keyOf_eq carries
      obtain ⟨hepoch, i, hget, hattempt⟩ := haccepts.inflight
      obtain ⟨earlier, d, hdeliveries, hd⟩ := h.inflight _ _ i hget
      have hmem : d ∈ engine.deliveriesOf tr c.partition c.offset := by
        rw [hdeliveries]
        exact List.mem_append_right _ List.mem_cons_self
      obtain ⟨hissued, hhere⟩ := List.mem_filter.mp hmem
      rw [Delivery.of, Bool.and_eq_true, decide_eq_true_eq, decide_eq_true_eq] at hhere
      refine ⟨⟨d, hissued, ?_⟩, fun j hj => ?_⟩
      · rw [h.sealed d hissued, hkey, hhere.1, hhere.2, hd, hattempt, ← hepoch]
        rfl
      · rw [hkey] at hj
        exact absurd (hj.symm.trans hnone) (by simp)
  · rw [spent_append]
    cases hnow : engine.resolves m a with
    | none => simpa using h.once
    | some value =>
      obtain ⟨c, haccepts, -⟩ := accepts_of_resolves carries hnow
      refine List.nodup_append.mpr ⟨h.once, List.nodup_singleton _, ?_⟩
      rintro x hx y hy rfl
      rw [Option.toList_some, List.mem_singleton] at hy
      exact h.notMem_spent carries haccepts (hy ▸ hx)

/-- A record that is handed out gets an attempt that it has not had. -/
theorem TokenInvariant.handOut {keyOf : Token → DeliveryKey}
    {tr : List (Member × Action Token)} {message : Message} {env : DeliveryEnv}
    {d : Delivery Token} (h : engine.TokenInvariant keyOf tr m)
    (carries : engine.cursor.CarriesKey keyOf)
    (handed : engine.handedOut m (.receive (.record message) env) = some d)
    (out : engine.HandsOut m message d (engine.next m (.receive (.record message) env)))
    (unsettled : message.offset ∉ (m.ledger message.partition).resolved)
    (epoch : (engine.next m (.receive (.record message) env)).state.assignmentEpoch =
      m.state.assignmentEpoch)
    (resolved : ∀ p, ((engine.next m (.receive (.record message) env)).ledger p).resolved =
      (m.ledger p).resolved) :
    engine.TokenInvariant keyOf (tr ++ [(m, .receive (.record message) env)])
      (engine.next m (.receive (.record message) env)) := by
  set m' := engine.next m (.receive (.record message) env) with hm'
  have hissued : engine.issued (tr ++ [(m, .receive (.record message) env)]) =
      engine.issued tr ++ [d] := by
    rw [issued_append, handed]
    rfl
  have hhere := out.here
  rw [Delivery.of, Bool.and_eq_true, decide_eq_true_eq, decide_eq_true_eq] at hhere
  have hsealed : keyOf d.token =
      ⟨message.partition, message.offset, m.state.assignmentEpoch, d.attempt⟩ := by
    obtain ⟨nowMs, topic, c, htoken, hc⟩ := out.token
    rw [htoken, carries.written, hc]
  have hattempts : ∀ p o, (m'.ledger p).attempts o =
      if (p, o) = (message.partition, message.offset) then some d.attempt
      else (m.ledger p).attempts o := by
    intro p o
    change m'.state.attempts.get? (p, o) = _
    rw [out.attempts, Dict.get?_set]
    rfl
  -- Every earlier attempt at the record is below this one.
  have hbelow : ∀ d' ∈ engine.issued tr, d'.position.partition = message.partition →
      d'.position.offset = message.offset → d'.attempt < d.attempt := by
    intro d' hd' hp ho
    have hle := (h.counted d' hd').resolve_left (by rw [hp, ho]; exact unsettled)
    rw [hp, ho] at hle
    rw [out.attempt]
    exact Nat.lt_succ_of_le hle
  have hkeys : ∀ d' ∈ engine.issued tr, keyOf d'.token ≠ keyOf d.token := by
    intro d' hd' heq
    rw [h.sealed d' hd', hsealed, DeliveryKey.mk.injEq] at heq
    exact absurd heq.2.2.2 (hbelow d' hd' heq.1 heq.2.1).ne
  refine ⟨?_, ?_, ?_, ?_, ?_, ?_⟩
  · rw [hissued, epoch]
    intro d' hd'
    rcases List.mem_append.mp hd' with hd' | hd'
    · exact h.sealed d' hd'
    · obtain rfl := List.mem_singleton.mp hd'
      rw [hsealed, hhere.1, hhere.2]
  · rw [hissued]
    intro d' hd'
    rw [resolved, hattempts]
    rcases List.mem_append.mp hd' with hd' | hd'
    · by_cases heq : (d'.position.partition, d'.position.offset) =
          (message.partition, message.offset)
      · rw [if_pos heq]
        rw [Prod.mk.injEq] at heq
        exact Or.inr (hbelow d' hd' heq.1 heq.2).le
      · rw [if_neg heq]
        exact h.counted d' hd'
    · obtain rfl := List.mem_singleton.mp hd'
      rw [if_pos (Prod.ext hhere.1 hhere.2)]
      exact Or.inr le_rfl
  · rw [hissued, List.map_append]
    refine List.nodup_append.mpr ⟨h.apart, List.nodup_singleton _, ?_⟩
    rintro x hx y hy rfl
    obtain ⟨d', hd', rfl⟩ := List.mem_map.mp hx
    exact hkeys d' hd' (List.mem_singleton.mp hy)
  · intro p o i hi
    obtain ⟨event, expiresAtMs, hinflight⟩ := out.inflight
    have hget : m'.state.inflight.get? (p, o) = some i := hi
    rw [hinflight, Dict.get?_set] at hget
    have hof : engine.deliveriesOf (tr ++ [(m, .receive (.record message) env)]) p o =
        engine.deliveriesOf tr p o ++ if d.of p o then [d] else [] := by
      rw [deliveriesOf, hissued, List.filter_append, List.filter_cons, List.filter_nil]
      rfl
    split at hget
    · next heq =>
      -- The record itself: this is its latest delivery.
      obtain ⟨rfl, rfl⟩ := Prod.mk.inj heq
      obtain rfl := Option.some.inj hget
      refine ⟨engine.deliveriesOf tr message.partition message.offset, d, ?_, rfl⟩
      rw [hof, if_pos out.here]
    · next hne =>
      obtain ⟨earlier, latest, hdeliveries, hattempt⟩ := h.inflight p o i hget
      refine ⟨earlier, latest, ?_, hattempt⟩
      have hother : ¬d.of p o = true := by
        intro hof
        rw [Delivery.of, Bool.and_eq_true, decide_eq_true_eq, decide_eq_true_eq] at hof
        exact hne (Prod.ext (hof.1.symm.trans hhere.1) (hof.2.symm.trans hhere.2))
      rw [hof, if_neg hother, List.append_nil]
      exact hdeliveries
  · intro value hvalue
    rw [spent_append] at hvalue
    have hold : value ∈ engine.spent tr := by simpa [resolves] using hvalue
    obtain ⟨⟨d', hd', hkey⟩, hgone⟩ := h.spent value hold
    rw [hissued]
    refine ⟨⟨d', List.mem_append_left _ hd', hkey⟩, fun i hi => ?_⟩
    obtain ⟨event, expiresAtMs, hinflight⟩ := out.inflight
    have hget : m'.state.inflight.get? ((keyOf value).partition, (keyOf value).offset) = some i := hi
    rw [hinflight, Dict.get?_set] at hget
    split at hget
    · next heq =>
      obtain rfl := Option.some.inj hget
      rw [Prod.mk.injEq] at heq
      have hkey' := h.sealed d' hd'
      rw [hkey] at hkey'
      rw [hkey'] at heq ⊢
      exact (hbelow d' hd' heq.1 heq.2).ne'
    · exact hgone i hget
  · rw [spent_append]
    simpa [resolves] using h.once

/-- **One step** that hands out no acknowledged record keeps the attempts apart. -/
theorem TokenInvariant.step {keyOf : Token → DeliveryKey} {tr : List (Member × Action Token)}
    {a : Action Token} (h : engine.TokenInvariant keyOf tr m)
    (carries : engine.cursor.CarriesKey keyOf) (allowed : a.Allowed log m)
    (keeps : a.KeepsAssignment) (unsettled : HandsOutUnsettled m a) :
    engine.TokenInvariant keyOf (tr ++ [(m, a)]) (engine.next m a) := by
  have hepoch : (engine.next m a).state.assignmentEpoch = m.state.assignmentEpoch :=
    engine.next_keeps assignmentEpoch_ignoresBooks keeps
  have hstep : ∀ p, PartitionStep engine log m p a ((engine.next m a).ledger p) :=
    fun p => engine.next_step log allowed
  -- Only `receive` puts an entry into the books; every other action can only withdraw one.
  by_cases hreceive : ∃ response env, a = .receive response env
  · obtain ⟨response, env, rfl⟩ := hreceive
    have hresolved : ∀ p, ((engine.next m (.receive response env)).ledger p).resolved =
        (m.ledger p).resolved := fun p => (hstep p).resolved_of_receive
    rcases receive_cases engine m response env with
      ⟨hnone, hinflight, hattempts⟩ | ⟨message, d, rfl, hsome, hout⟩
    · refine h.withdraw carries hnone hepoch (fun p o i hi => ?_) (fun p o ho => ?_)
        fun p o => Or.inr ?_
      · have hget : (engine.receive m response env).2.state.inflight.get? (p, o) = some i := hi
        rwa [hinflight] at hget
      · rw [hresolved]
        exact ho
      · change (engine.receive m response env).2.state.attempts.get? (p, o) = _
        rw [hattempts]
        rfl
    · exact h.handOut carries hsome hout unsettled hepoch hresolved
  · have hnot : ∀ response env, a ≠ .receive response env :=
      fun response env heq => hreceive ⟨response, env, heq⟩
    have hnothing : engine.handedOut m a = none := by
      cases a with
      | receive response env => exact absurd rfl (hnot response env)
      | _ => rfl
    exact h.withdraw carries hnothing hepoch
      (fun p => ((hstep p).withdraws keeps hnot).1)
      (fun p => ((hstep p).withdraws keeps hnot).2.1)
      fun p => ((hstep p).withdraws keeps hnot).2.2

/-- An acknowledged token is among the resolved ones. -/
theorem mem_spent_of_acknowledges {tr : List (Member × Action Token)} {value : Token}
    (h : ∃ x ∈ tr, engine.Acknowledges x.1 value x.2) : value ∈ engine.spent tr := by
  obtain ⟨⟨m, a⟩, hx, hacknowledges⟩ := h
  refine List.mem_filterMap.mpr ⟨(m, a), hx, ?_⟩
  cases a with
  | acknowledge command transaction env =>
    obtain ⟨rfl, hok⟩ := hacknowledges
    exact if_pos hok
  | _ => exact hacknowledges.elim

/-- **Tokens are used once** in every run that hands out no record that it has
acknowledged. -/
theorem singleUse_of_unsettled {keyOf : Token → DeliveryKey}
    (carries : engine.cursor.CarriesKey keyOf) {start : Member} {run : List (Action Token)}
    (polling : engine.PollingRun log start run)
    (unsettled : ∀ x ∈ (engine.machine log).steps start run, HandsOutUnsettled x.1 x.2) :
    engine.SingleUse ((engine.machine log).steps start run) := by
  -- The invariant holds after every first part of the run.
  have hinv : ∀ run', run' <+: run → engine.TokenInvariant keyOf
      ((engine.machine log).steps start run') ((engine.machine log).play start run') := by
    rintro run' ⟨rest, rfl⟩
    have hlegal := ((engine.machine log).legal_append start run' rest).mp polling.legal
    refine Machine.trace_induction (I := fun tr m =>
      (∀ x ∈ tr, x.2.KeepsAssignment ∧ HandsOutUnsettled x.1 x.2) →
        engine.TokenInvariant keyOf tr m) ?_ (fun _ => .fresh polling.fresh) hlegal.1 ?_
    · intro tr m a ih hallowed hall
      rw [List.forall_mem_append, List.forall_mem_singleton] at hall
      exact (ih hall.1).step carries hallowed hall.2.1 hall.2.2
    · intro x hx
      refine ⟨polling.keeps _ (List.mem_append_left _ (Machine.mem_of_mem_steps hx)),
        unsettled x ?_⟩
      rw [Machine.steps_append]
      exact List.mem_append_left _ hx
  -- It holds before every step of the run.
  have hbefore : ∀ before m a after,
      (engine.machine log).steps start run = before ++ (m, a) :: after →
        engine.TokenInvariant keyOf before m := by
    intro before m a after heq
    obtain ⟨run₁, run₂, rfl, rfl, rfl⟩ := Machine.exists_of_steps_eq heq
    exact hinv run₁ (List.prefix_append ..)
  refine ⟨(hinv run (List.prefix_refl _)).once, ?_, ?_⟩
  · intro before m a after heq value c haccepts
    have h := hbefore before m a after heq
    obtain ⟨hepoch, i, hget, hattempt⟩ := haccepts.inflight
    obtain ⟨earlier, latest, hdeliveries, hlatest⟩ := h.inflight _ _ i hget
    refine ⟨earlier, latest, hdeliveries, hlatest.trans hattempt, ?_⟩
    rintro ⟨d, hd, rfl⟩
    have hkey := (h.sealed d hd).symm.trans (haccepts.keyOf_eq carries)
    have hmem : d ∈ engine.deliveriesOf before c.partition c.offset := by
      refine List.mem_filter.mpr ⟨hd, ?_⟩
      rw [DeliveryCoordinates.key, DeliveryKey.mk.injEq] at hkey
      simp [Delivery.of, hkey.1, hkey.2.1]
    -- Two deliveries of the record have different keys, so the token has one place.
    have hnodup : ((earlier ++ [latest]).map fun d => keyOf d.token).Nodup := by
      rw [← hdeliveries]
      exact h.apart.sublist (List.filter_sublist.map _)
    rw [List.map_append, List.nodup_append] at hnodup
    have hlast : keyOf latest.token = keyOf d.token := by
      have hmem' : latest ∈ engine.deliveriesOf before c.partition c.offset := by
        rw [hdeliveries]
        exact List.mem_append_right _ List.mem_cons_self
      obtain ⟨hissued, hof⟩ := List.mem_filter.mp hmem'
      rw [Delivery.of, Bool.and_eq_true, decide_eq_true_eq, decide_eq_true_eq] at hof
      rw [h.sealed latest hissued, haccepts.keyOf_eq carries, hof.1, hof.2, hlatest, hattempt,
        ← hepoch]
      rfl
    have hnot : ∀ d' ∈ earlier, d'.token ≠ d.token := by
      intro d' hd' htoken
      refine hnodup.2.2 _ (List.mem_map_of_mem hd') (keyOf latest.token)
        (List.mem_map_of_mem List.mem_cons_self) ?_
      rw [htoken, hlast]
    rw [hdeliveries] at hmem
    rcases List.mem_append.mp hmem with hearlier | hlatest'
    · exact absurd rfl (hnot d hearlier)
    · obtain rfl := List.mem_singleton.mp hlatest'
      exact ⟨rfl, hnot⟩
  · intro before m a after heq value hacknowledged c haccepts
    exact (hbefore before m a after heq).notMem_spent carries haccepts
      (mem_spent_of_acknowledges hacknowledged)

/-- A record that goes back and is acknowledged at its second attempt, after the next
one. -/
theorem singleUse_of_unsettled_second_attempt :
    Sample.engine.SingleUse ((Sample.engine.machine (Sample.log [0, 1] [])).steps
      (.joined Sample.command [0])
      [Sample.receive 0, Sample.receive 1, Sample.negativeAcknowledge 0, Sample.receive 0,
        Sample.receive 1, Sample.acknowledge 1,
        .acknowledge (Sample.acknowledgeCommand 0 2 1) none { nowMs := 1 }]) :=
  singleUse_of_unsettled (payloadCodec_carriesKey _)
    ⟨fun _ => rfl, by decide +kernel, by decide +kernel⟩ (by decide +kernel)

/-- **A token is good twice.** Record 1 is acknowledged before record 0, which goes
back. The client then reads both again, and the token of record 1 that was used before,
not the one just issued, acknowledges it once more. -/
theorem acknowledged_token_is_accepted_again :
    let log := Sample.log [0, 1] []
    let start := Member.joined Sample.command [0]
    let run := [Sample.receive 0, Sample.receive 1, Sample.acknowledge 1,
      Sample.negativeAcknowledge 0,
      .receive (.record (Sample.message 0)) { monotonicNs := 0, nowMs := 2 },
      .receive (.record (Sample.message 1)) { monotonicNs := 0, nowMs := 2 },
      .acknowledge (Sample.acknowledgeCommand 1 1 1) none { nowMs := 3 }]
    Sample.engine.PollingRun log start run ∧
      ¬Sample.engine.SingleUse ((Sample.engine.machine log).steps start run) := by
  refine ⟨⟨fun _ => rfl, by decide +kernel, by decide +kernel⟩, fun h => ?_⟩
  exact absurd h.resolved_once (by decide +kernel)

end KafkaConsumerEngine

end MeridianKafka
