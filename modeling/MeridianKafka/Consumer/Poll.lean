import MeridianKafka.Consumer.Tokens

/-!
# What a poll returns

`poll` collects its deliveries in a local list while its loop goes on to expire, seek and
resume, and while the client runs the callbacks of a rebalance inside `consumer.poll`.
The list is never compared with the books again, so a delivery may be gone from the books
by the time it is returned.

The loop is the one of `Consumer/Group.lean` with the callbacks in it: `pollTurns` is
`pollLoop` when no callback runs (`pollTurns_of_quiet`). Once a delivery is collected, the
rest of the call either leaves it as it is or makes its token useless for good, so what a
poll returns can be told from the turns it took: the deliveries are distinct and live
exactly when no turn disturbed one of them (`poll_live_iff`). With an acknowledgement
timeout that is shorter than the wait a poll returns the same record twice
(`poll_returns_expired_delivery`).
-/

namespace MeridianKafka

open Framework

/-- A callback of a rebalance. The client runs it inside `consumer.poll`. -/
inductive Rebalance
  | assigned (partitions : List ℕ)
  | revoked (partitions : List ℕ)
  deriving DecidableEq, Repr

/-- The member after a callback. -/
def Member.rebalance (m : Member) : Rebalance → Member
  | .assigned partitions => m.assigned partitions
  | .revoked partitions => m.revoked partitions

/-- One turn of the loop of `poll`, with the callbacks that its client poll runs. -/
structure PollTurn extends TurnEnv where
  rebalances : List Rebalance := []

/-- What a turn comes to. -/
inductive TurnOutcome (Token : Type)
  | raised (raised : Raised)
  /-- The loop ends here. -/
  | stops
  | goesOn (delivery : Option (Delivery Token))

namespace KafkaConsumerEngine

variable {Token : Type} (engine : KafkaConsumerEngine Token)

/-- The first half of a turn: expire, resume, and look at the clock. The answer is
whether the client is polled. -/
def beforePoll (command : PollCommand) (deadlineNs : ℕ) (m : Member) (turn : PollTurn) :
    Except Raised Bool × Member :=
  match expireInflight m turn.expire with
  | (.error raised, m) => (.error raised, m)
  | (.ok (), m) =>
    match resumeDue m turn.resume with
    | (.error raised, m) => (.error raised, m)
    | (.ok (), m) => (.ok !(command.waitTimeoutMs > 0 && deadlineNs ≤ turn.monotonicNs), m)

/-- The second half: the client poll with its callbacks, and its response. -/
def afterPoll (command : PollCommand) (m : Member) (turn : PollTurn) :
    TurnOutcome Token × Member :=
  match engine.receive (turn.rebalances.foldl Member.rebalance m) turn.response turn.delivery with
  | (.error raised, m) => (.raised raised, m)
  | (.ok (some delivery), m) => (.goesOn (some delivery), m)
  | (.ok none, m) =>
    match turn.response with
    | .none => if command.waitTimeoutMs = 0 then (.stops, m) else (.goesOn none, m)
    | _ => (.goesOn none, m)

/-- One turn of the loop of `poll`. -/
def takeTurn (command : PollCommand) (deadlineNs : ℕ) (m : Member) (turn : PollTurn) :
    TurnOutcome Token × Member :=
  match beforePoll command deadlineNs m turn with
  | (.error raised, m) => (.raised raised, m)
  | (.ok false, m) => (.stops, m)
  | (.ok true, m) => engine.afterPoll command m turn

/-- `poll` from the top of its loop. -/
def pollTurns (command : PollCommand) (deadlineNs : ℕ) :
    List PollTurn → List (Delivery Token) → Member → PollOutcome Token × Member
  | [], deliveries, m =>
    if deliveries.length < command.limit then (.running deliveries, m)
    else (.returned deliveries, m)
  | turn :: turns, deliveries, m =>
    if deliveries.length < command.limit then
      match engine.takeTurn command deadlineNs m turn with
      | (.raised raised, m) => (.raised raised, m)
      | (.stops, m) => (.returned deliveries, m)
      | (.goesOn delivery, m) =>
        pollTurns command deadlineNs turns (deliveries ++ delivery.toList) m
    else (.returned deliveries, m)

/-- `poll` with rebalances, the clock at its start and the outcome of its telemetry. -/
def pollCall (command : PollCommand) (startNs : ℕ) (turns : List PollTurn)
    (emit : Option Raised) (m : Member) : PollOutcome Token × Member :=
  match engine.pollTurns command (startNs + command.waitTimeoutMs * 1000000) turns [] m with
  | (.returned deliveries, m) =>
    match emit with
    | some raised => (.raised raised, m)
    | none => (.returned deliveries, m)
  | outcome => outcome

/-- Without callbacks this is the loop of `poll` that the group machine plays. -/
theorem pollTurns_of_quiet (command : PollCommand) (deadlineNs : ℕ) {turns : List PollTurn}
    (quiet : ∀ turn ∈ turns, turn.rebalances = []) (deliveries : List (Delivery Token))
    (m : Member) :
    engine.pollTurns command deadlineNs turns deliveries m =
      engine.pollLoop command deadlineNs (turns.map PollTurn.toTurnEnv) deliveries m := by
  -- By induction on the turns; the loop of the engine takes the same steps where no callback runs.
  induction turns generalizing deliveries m with
  | nil => rfl
  | cons turn turns ih =>
    rw [List.forall_mem_cons] at quiet
    rw [List.map_cons, pollTurns, pollLoop]
    split
    swap
    · rfl
    unfold takeTurn beforePoll
    rcases expireInflight m turn.expire with ⟨_ | ⟨⟨⟩⟩, m₁⟩
    · rfl
    dsimp only
    rcases resumeDue m₁ turn.resume with ⟨_ | ⟨⟨⟩⟩, m₂⟩
    · rfl
    dsimp only
    cases hlate : command.waitTimeoutMs > 0 && deadlineNs ≤ turn.monotonicNs with
    | true => rfl
    | false =>
      unfold afterPoll
      rw [quiet.1, if_neg Bool.false_ne_true, Bool.not_false]
      dsimp only [List.foldl_nil]
      rcases engine.receive m₂ turn.response turn.delivery with ⟨_ | _ | delivery, m₃⟩
      · rfl
      · dsimp only
        cases turn.response with
        | none =>
          dsimp only
          by_cases hwait : command.waitTimeoutMs = 0
          · rw [if_pos hwait, if_pos hwait]
          · rw [if_neg hwait, if_neg hwait]
            dsimp only
            rw [Option.toList_none, List.append_nil]
            exact ih quiet.2 deliveries m₃
        | _ =>
          dsimp only
          rw [Option.toList_none, List.append_nil]
          exact ih quiet.2 deliveries m₃
      · exact ih quiet.2 _ m₃

/-! ### What disturbs a delivery -/

/-- A delivery of the partition at or before the offset has passed its deadline. -/
def Overdue (m : Member) (nowMs p o : ℕ) : Prop := ∃ k ≤ o, (p, k) ∈ expired m nowMs

/-- The turn takes the delivery off the books or hands its record out again. Either an
expiry rewinds its partition to it or below; or the client is polled and runs a callback,
or returns its record once more. -/
def Disturbs (command : PollCommand) (deadlineNs : ℕ) (m : Member) (turn : PollTurn)
    (d : Delivery Token) : Prop :=
  Overdue m turn.expire.nowMs d.position.partition d.position.offset ∨
    (beforePoll command deadlineNs m turn).1 = .ok true ∧
      (turn.rebalances ≠ [] ∨
        ∃ d' ∈ engine.handedOut (turn.rebalances.foldl Member.rebalance
            (beforePoll command deadlineNs m turn).2) (.receive turn.response turn.delivery),
          d'.of d.position.partition d.position.offset)

/-- No turn of the call disturbs a delivery that the call has collected. -/
def UndisturbedTurns (command : PollCommand) (deadlineNs : ℕ) :
    List PollTurn → List (Delivery Token) → Member → Prop
  | [], _, _ => True
  | turn :: turns, deliveries, m => deliveries.length < command.limit →
      (∀ d ∈ deliveries, ¬engine.Disturbs command deadlineNs m turn d) ∧
        match engine.takeTurn command deadlineNs m turn with
        | (.goesOn delivery, m) =>
          UndisturbedTurns command deadlineNs turns (deliveries ++ delivery.toList) m
        | _ => True

end KafkaConsumerEngine

/-! ### Live and lost deliveries -/

variable {Token : Type} (keyOf : Token → DeliveryKey)

namespace Delivery

variable (d : Delivery Token) (m : Member)

/-- The delivery is in flight with the attempt and the epoch of its token, in the current
assignment: a call with the token is accepted until the deadline. -/
structure Live : Prop where
  key : keyOf d.token =
    ⟨d.position.partition, d.position.offset, m.state.assignmentEpoch, d.attempt⟩
  inflight : ∃ i, (m.ledger d.position.partition).inflight d.position.offset = some i ∧
    i.attempt = d.attempt ∧ i.assignmentEpoch = m.state.assignmentEpoch

/-- The count of the record has reached this attempt. -/
def Counted : Prop :=
  d.attempt ≤ ((m.ledger d.position.partition).attempts d.position.offset).getD 0

/-- The delivery is off the books for good. -/
def Lost : Prop :=
  (keyOf d.token).assignmentEpoch < m.state.assignmentEpoch ∨
    (keyOf d.token).assignmentEpoch ≤ m.state.assignmentEpoch ∧ d.Counted m ∧
      ∀ i, (m.ledger d.position.partition).inflight d.position.offset = some i →
        i.attempt ≠ d.attempt

variable {keyOf d m}

theorem Live.not_lost (h : d.Live keyOf m) : ¬d.Lost keyOf m := by
  obtain ⟨i, hget, hattempt, -⟩ := h.inflight
  rintro (hepoch | ⟨-, -, hnone⟩)
  · rw [h.key] at hepoch
    exact absurd hepoch (lt_irrefl _)
  · exact hnone i hget hattempt

/-- The guard of `acknowledge` lets a live delivery pass. -/
theorem Live.accepted (h : d.Live keyOf m) {c : DeliveryCoordinates}
    (sealed : keyOf d.token = c.key) : KafkaConsumerEngine.acknowledgeGuard m c = none := by
  obtain ⟨i, hget, hattempt, hepoch⟩ := h.inflight
  have hkey := h.key.symm.trans sealed
  rw [DeliveryCoordinates.key, DeliveryKey.mk.injEq] at hkey
  have hinflight : m.state.inflight.get? (c.partition, c.offset) = some i := by
    rw [← hkey.1, ← hkey.2.1]
    exact hget
  unfold KafkaConsumerEngine.acknowledgeGuard
  rw [if_neg (not_not.mpr hkey.2.2.1.symm), hinflight, if_pos]
  simp [hattempt, hepoch, hkey.2.2.2]

end Delivery

/-- What a poll should return: at most as many deliveries as it was asked for, no two of
one record, and each of them live. -/
structure LiveBatch (limit : ℕ) (deliveries : List (Delivery Token)) (m : Member) : Prop where
  bounded : deliveries.length ≤ limit
  distinct : (deliveries.map fun d => (d.position.partition, d.position.offset)).Nodup
  live : ∀ d ∈ deliveries, d.Live keyOf m

/-- Deliveries have only left the books. -/
structure Member.Shrinks (m m' : Member) : Prop where
  epoch : m'.state.assignmentEpoch = m.state.assignmentEpoch
  attempts : ∀ p, (m'.ledger p).attempts = (m.ledger p).attempts
  inflight : ∀ p o i, (m'.ledger p).inflight o = some i → (m.ledger p).inflight o = some i

theorem Member.Shrinks.trans {m m' m'' : Member} (h : m.Shrinks m') (h' : m'.Shrinks m'') :
    m.Shrinks m'' where
  epoch := h'.epoch.trans h.epoch
  attempts p := (h'.attempts p).trans (h.attempts p)
  inflight p o i hi := h.inflight p o i (h'.inflight p o i hi)

namespace KafkaConsumerEngine

variable {keyOf} {engine : KafkaConsumerEngine Token} {m : Member} {d : Delivery Token}

/-! ### The first half of a turn -/

theorem shrinks_expireInflight (engine : KafkaConsumerEngine Token) (m : Member) (env : ExpireEnv) :
    m.Shrinks (expireInflight m env).2 := by
  have hstep : ∀ p, PartitionStep engine (fun _ _ => none) m p (.expireInflight env)
      ((expireInflight m env).2.ledger p) := fun p => engine.expireInflight_step _ env
  refine ⟨engine.next_keeps assignmentEpoch_ignoresBooks (a := .expireInflight env) trivial,
    fun p => ?_, fun p => ((hstep p).withdraws trivial fun _ _ => by simp).1⟩
  have hp := hstep p
  generalize (expireInflight m env).2.ledger p = L at hp ⊢
  cases hp with
  | idle => rfl
  | rewound => rfl

theorem shrinks_resumeDue (engine : KafkaConsumerEngine Token) (m : Member) (env : ResumeEnv) :
    m.Shrinks (resumeDue m env).2 ∧
      ∀ p, ((resumeDue m env).2.ledger p).inflight = (m.ledger p).inflight := by
  have hstep : ∀ p, PartitionStep engine (fun _ _ => none) m p (.resumeDue env)
      ((resumeDue m env).2.ledger p) := fun p => engine.resumeDue_step _ env
  have hkept : ∀ p, ((resumeDue m env).2.ledger p).inflight = (m.ledger p).inflight ∧
      ((resumeDue m env).2.ledger p).attempts = (m.ledger p).attempts := by
    intro p
    have hp := hstep p
    generalize (resumeDue m env).2.ledger p = L at hp ⊢
    cases hp with
    | idle => exact ⟨rfl, rfl⟩
    | resumeSought => exact ⟨rfl, rfl⟩
    | resumed => exact ⟨rfl, rfl⟩
  exact ⟨⟨engine.next_keeps assignmentEpoch_ignoresBooks (a := .resumeDue env) trivial,
    fun p => (hkept p).2, fun p o i hi => (hkept p).1 ▸ hi⟩, fun p => (hkept p).1⟩

/-- A loop whose seeks return is the loop that has no failing seek. -/
theorem rewindLoop_ok {env : ExpireEnv} {l : List (ℕ × ℕ)} {m : Member}
    (h : (rewindLoop env l m).1 = .ok ()) :
    (rewindLoop env l m).2 = (rewindLoop { nowMs := env.nowMs } l m).2 := by
  induction l generalizing m with
  | nil => rfl
  | cons e rest ih =>
    obtain ⟨q, o⟩ := e
    rw [rewindLoop] at h ⊢
    cases hseek : env.seek q with
    | some raised =>
      rw [hseek] at h
      simp at h
    | none =>
      rw [hseek] at h
      exact ih h

/-- An expiry that returns removes what it rewinds past, and nothing else. -/
theorem inflight_expireInflight {env : ExpireEnv} (h : (expireInflight m env).1 = .ok ())
    (p o : ℕ) [Decidable (Overdue m env.nowMs p o)] :
    ((expireInflight m env).2.ledger p).inflight o =
      if Overdue m env.nowMs p o then none else (m.ledger p).inflight o := by
  -- The call has returned, so every partition with an expired delivery has been rewound.
  have hloop : (expireInflight m env).2 =
      (rewindLoop { nowMs := env.nowMs } (Dict.groupMin (expired m env.nowMs)).entries m).2 := by
    unfold expireInflight at h ⊢
    dsimp only at h ⊢
    split at h
    · next hempty =>
      rw [if_pos hempty, List.isEmpty_iff.mp hempty]
      rfl
    next hempty =>
    rw [if_neg hempty]
    have hrewind := @rewindLoop_ok env (Dict.groupMin (expired m env.nowMs)).entries m
    rcases hl : rewindLoop env (Dict.groupMin (expired m env.nowMs)).entries m with
      ⟨raised | ⟨⟨⟩⟩, m'⟩ <;> rw [hl] at h hrewind
    · simp at h
    · rw [← hrewind rfl]
      cases env.emit <;> rfl
  rw [hloop]
  -- A partition goes back to its first expired delivery, and drops all from there on.
  have hmin := Dict.isGroupMin_groupMin (expired m env.nowMs)
  cases hget : (Dict.groupMin (expired m env.nowMs)).get? p with
  | none =>
    rw [ledger_rewindLoop_of_none hget, if_neg]
    rintro ⟨k, -, hk⟩
    have hsome := hmin.total p k hk
    rw [hget] at hsome
    simp at hsome
  | some offset =>
    rw [ledger_rewindLoop_of_some hget]
    change (if o < offset then (m.ledger p).inflight o else none) = _
    by_cases hlt : o < offset
    · rw [if_pos hlt, if_neg]
      rintro ⟨k, hle, hk⟩
      exact absurd (hmin.le p offset k hget hk) (by omega)
    · rw [if_neg hlt, if_pos ⟨offset, by omega, hmin.mem p offset hget⟩]

theorem shrinks_beforePoll (engine : KafkaConsumerEngine Token) (m : Member)
    (command : PollCommand) (deadlineNs : ℕ) (turn : PollTurn) :
    m.Shrinks (beforePoll command deadlineNs m turn).2 := by
  unfold beforePoll
  have hexpire := shrinks_expireInflight engine m turn.expire
  rcases h₁ : expireInflight m turn.expire with ⟨_ | ⟨⟨⟩⟩, m₁⟩ <;> rw [h₁] at hexpire
  · exact hexpire
  have hresume := (shrinks_resumeDue engine m₁ turn.resume).1
  dsimp only
  rcases h₂ : resumeDue m₁ turn.resume with ⟨_ | ⟨⟨⟩⟩, m₂⟩ <;> rw [h₂] at hresume
  · exact hexpire.trans hresume
  · exact hexpire.trans hresume

/-- What an expiry and the resumptions leave in flight, when the client is polled or the
call ends. -/
theorem inflight_beforePoll (engine : KafkaConsumerEngine Token) {command : PollCommand}
    {deadlineNs : ℕ} {turn : PollTurn} {polls : Bool}
    (h : (beforePoll command deadlineNs m turn).1 = .ok polls) (p o : ℕ)
    [Decidable (Overdue m turn.expire.nowMs p o)] :
    ((beforePoll command deadlineNs m turn).2.ledger p).inflight o =
      if Overdue m turn.expire.nowMs p o then none else (m.ledger p).inflight o := by
  have hexpire := @inflight_expireInflight m turn.expire
  unfold beforePoll at h ⊢
  rcases h₁ : expireInflight m turn.expire with ⟨_ | ⟨⟨⟩⟩, m₁⟩ <;> rw [h₁] at h hexpire
  · simp at h
  have hresume := (shrinks_resumeDue engine m₁ turn.resume).2 p
  dsimp only at h hexpire ⊢
  rcases h₂ : resumeDue m₁ turn.resume with ⟨_ | ⟨⟨⟩⟩, m₂⟩ <;> rw [h₂] at h hresume
  · simp at h
  · change (m₂.ledger p).inflight o = _
    rw [hresume]
    exact hexpire rfl p o

/-! ### The second half -/

/-- What a client poll does to one record: it is handed out with the next attempt, or its
delivery and its count stay. -/
theorem receive_record (engine : KafkaConsumerEngine Token) (m : Member)
    (response : PollResponse) (env : DeliveryEnv) (p o : ℕ) :
    (∃ d' ∈ engine.handedOut m (.receive response env), d'.of p o ∧
        d'.attempt = ((m.ledger p).attempts o).getD 0 + 1 ∧
        (∃ event expiresAtMs, ((engine.receive m response env).2.ledger p).inflight o =
          some ⟨event, d'.attempt, m.state.assignmentEpoch, expiresAtMs⟩) ∧
        ((engine.receive m response env).2.ledger p).attempts o = some d'.attempt) ∨
      (∀ d' ∈ engine.handedOut m (.receive response env), ¬d'.of p o) ∧
        ((engine.receive m response env).2.ledger p).inflight o = (m.ledger p).inflight o ∧
        ((engine.receive m response env).2.ledger p).attempts o = (m.ledger p).attempts o := by
  change (∃ d' ∈ _, _ ∧ _ ∧ (∃ event expiresAtMs,
      (engine.receive m response env).2.state.inflight.get? (p, o) = _) ∧
      (engine.receive m response env).2.state.attempts.get? (p, o) = _) ∨
    _ ∧ (engine.receive m response env).2.state.inflight.get? (p, o) = _ ∧
      (engine.receive m response env).2.state.attempts.get? (p, o) = _
  rcases receive_cases engine m response env with
    ⟨hnone, hinflight, hattempts⟩ | ⟨message, d', rfl, hsome, hout⟩
  · refine Or.inr ⟨fun d' hd' => ?_, by rw [hinflight]; rfl, by rw [hattempts]; rfl⟩
    rw [hnone] at hd'
    exact absurd hd' (by simp)
  · obtain ⟨event, expiresAtMs, hinflight⟩ := hout.inflight
    have hhere := hout.here
    rw [Delivery.of, Bool.and_eq_true, decide_eq_true_eq, decide_eq_true_eq] at hhere
    -- Only the record of the message is handed out; every other entry of the books is untouched.
    by_cases heq : (p, o) = (message.partition, message.offset)
    · obtain ⟨rfl, rfl⟩ := Prod.mk.inj heq
      refine Or.inl ⟨d', hsome, hout.here, hout.attempt, ⟨event, expiresAtMs, ?_⟩, ?_⟩
      · rw [hinflight, Dict.get?_set_self]
      · rw [hout.attempts, Dict.get?_set_self]
    · refine Or.inr ⟨fun d'' hd'' hof => heq ?_, ?_, ?_⟩
      · obtain rfl : d' = d'' := Option.some.inj (hsome.symm.trans hd'')
        rw [Delivery.of, Bool.and_eq_true, decide_eq_true_eq, decide_eq_true_eq] at hof
        exact Prod.ext (hof.1.symm.trans hhere.1) (hof.2.symm.trans hhere.2)
      · rw [hinflight, Dict.get?_set_of_ne _ _ heq]
        rfl
      · rw [hout.attempts, Dict.get?_set_of_ne _ _ heq]
        rfl

/-- What a turn hands out, and where it leaves the member, is what its client poll does. -/
theorem afterPoll_eq (engine : KafkaConsumerEngine Token) (command : PollCommand) (m : Member)
    (turn : PollTurn) :
    (engine.afterPoll command m turn).2 = (engine.receive
        (turn.rebalances.foldl Member.rebalance m) turn.response turn.delivery).2 ∧
      ∀ delivery, (engine.afterPoll command m turn).1 = .goesOn delivery →
        delivery = engine.handedOut (turn.rebalances.foldl Member.rebalance m)
          (.receive turn.response turn.delivery) := by
  dsimp only [afterPoll, handedOut]
  rcases engine.receive (turn.rebalances.foldl Member.rebalance m) turn.response turn.delivery with
    ⟨raised | _ | delivery, m'⟩
  · exact ⟨rfl, fun _ h => by simp at h⟩
  · dsimp only
    split
    · split
      · exact ⟨rfl, fun _ h => by simp at h⟩
      · exact ⟨rfl, fun _ h => by obtain rfl := TurnOutcome.goesOn.inj h; rfl⟩
    · exact ⟨rfl, fun _ h => by obtain rfl := TurnOutcome.goesOn.inj h; rfl⟩
  · exact ⟨rfl, fun _ h => by obtain rfl := TurnOutcome.goesOn.inj h; rfl⟩

/-- A turn that does not go on has handed out nothing. -/
theorem handedOut_of_not_goesOn (engine : KafkaConsumerEngine Token) (command : PollCommand)
    (m : Member) (turn : PollTurn)
    (h : ∀ delivery, (engine.afterPoll command m turn).1 ≠ .goesOn delivery) :
    engine.handedOut (turn.rebalances.foldl Member.rebalance m)
      (.receive turn.response turn.delivery) = none := by
  dsimp only [afterPoll, handedOut] at h ⊢
  rcases hr : engine.receive (turn.rebalances.foldl Member.rebalance m) turn.response
    turn.delivery with ⟨raised | _ | delivery, m'⟩ <;> rw [hr] at h
  · rfl
  · rfl
  · exact absurd rfl (h (some delivery))

/-- A turn raises in its first half, ends the call there, or polls the client. -/
theorem takeTurn_cases (engine : KafkaConsumerEngine Token) (command : PollCommand)
    (deadlineNs : ℕ) (m : Member) (turn : PollTurn) :
    (∃ raised, engine.takeTurn command deadlineNs m turn =
        (.raised raised, (beforePoll command deadlineNs m turn).2)) ∨
      (beforePoll command deadlineNs m turn).1 = .ok false ∧
        engine.takeTurn command deadlineNs m turn =
          (.stops, (beforePoll command deadlineNs m turn).2) ∨
      (beforePoll command deadlineNs m turn).1 = .ok true ∧
        engine.takeTurn command deadlineNs m turn =
          engine.afterPoll command (beforePoll command deadlineNs m turn).2 turn := by
  unfold takeTurn
  rcases beforePoll command deadlineNs m turn with ⟨raised | _ | _, m₁⟩
  · exact Or.inl ⟨raised, rfl⟩
  · exact Or.inr (Or.inl ⟨rfl, rfl⟩)
  · exact Or.inr (Or.inr ⟨rfl, rfl⟩)

/-- A callback moves the member to the next epoch. -/
theorem epoch_rebalances (m : Member) (rebalances : List Rebalance) :
    (rebalances.foldl Member.rebalance m).state.assignmentEpoch =
      m.state.assignmentEpoch + rebalances.length := by
  induction rebalances generalizing m with
  | nil => rfl
  | cons callback rebalances ih =>
    rw [List.foldl_cons, ih, List.length_cons]
    have hone : (m.rebalance callback).state.assignmentEpoch = m.state.assignmentEpoch + 1 := by
      cases callback <;> rfl
    omega

end KafkaConsumerEngine

/-! ### A delivery through a turn -/

namespace Delivery

open KafkaConsumerEngine

variable {keyOf} {engine : KafkaConsumerEngine Token} {m m' : Member} {d : Delivery Token}

/-- A lost delivery stays lost while deliveries only leave the books, -/
theorem Lost.shrinks (h : d.Lost keyOf m) (shrinks : m.Shrinks m') : d.Lost keyOf m' := by
  unfold Lost Counted at h ⊢
  rw [shrinks.epoch, shrinks.attempts]
  refine h.imp_right fun ⟨hepoch, hcounted, hnone⟩ => ⟨hepoch, hcounted, fun i hi => ?_⟩
  exact hnone i (shrinks.inflight _ _ i hi)

/-- through the callbacks of a rebalance, -/
theorem Lost.rebalances (h : d.Lost keyOf m) (rebalances : List Rebalance) :
    d.Lost keyOf (rebalances.foldl Member.rebalance m) := by
  cases hcallbacks : rebalances with
  | nil => exact h
  | cons callback rest =>
    refine Or.inl ?_
    rw [epoch_rebalances, List.length_cons]
    rcases h with hepoch | ⟨hepoch, -⟩ <;> omega

/-- and when its record is handed out again, because that is the next attempt. -/
theorem Lost.receive (h : d.Lost keyOf m) (response : PollResponse) (env : DeliveryEnv) :
    d.Lost keyOf (engine.receive m response env).2 := by
  unfold Lost Counted at h ⊢
  rw [engine.receive_keeps assignmentEpoch_ignoresBooks response env]
  refine h.imp_right fun ⟨hepoch, hcounted, hnone⟩ => ⟨hepoch, ?_⟩
  rcases receive_record engine m response env d.position.partition
    d.position.offset with ⟨d', -, -, hattempt, ⟨event, expiresAtMs, hinflight⟩, hattempts⟩ |
      ⟨-, hinflight, hattempts⟩
  · rw [hinflight, hattempts]
    refine ⟨?_, fun i hi => ?_⟩
    · change d.attempt ≤ d'.attempt
      omega
    · obtain rfl := Option.some.inj hi
      change d'.attempt ≠ d.attempt
      omega
  · rw [hinflight, hattempts]
    exact ⟨hcounted, hnone⟩

/-- A lost delivery is lost after the turn. -/
theorem Lost.takeTurn (h : d.Lost keyOf m) (command : PollCommand) (deadlineNs : ℕ)
    (turn : PollTurn) : d.Lost keyOf (engine.takeTurn command deadlineNs m turn).2 := by
  have hbefore := h.shrinks
    (shrinks_beforePoll engine m command deadlineNs turn)
  rcases takeTurn_cases engine command deadlineNs m turn with
    ⟨raised, heq⟩ | ⟨-, heq⟩ | ⟨-, heq⟩ <;> rw [heq]
  · exact hbefore
  · exact hbefore
  · rw [(afterPoll_eq engine command _ turn).1]
    exact (hbefore.rebalances turn.rebalances).receive turn.response turn.delivery

/-- What the first half of a turn leaves of a live delivery. -/
theorem Live.firstHalf (h : d.Live keyOf m) (counted : d.Counted m)
    (engine : KafkaConsumerEngine Token) {command : PollCommand} {deadlineNs : ℕ}
    {turn : PollTurn} {polls : Bool}
    (goes : (beforePoll command deadlineNs m turn).1 = .ok polls) :
    d.Counted (beforePoll command deadlineNs m turn).2 ∧
      (Overdue m turn.expire.nowMs d.position.partition d.position.offset →
        d.Lost keyOf (beforePoll command deadlineNs m turn).2) ∧
      (¬Overdue m turn.expire.nowMs d.position.partition d.position.offset →
        d.Live keyOf (beforePoll command deadlineNs m turn).2) := by
  classical
  have hshrinks := shrinks_beforePoll engine m command deadlineNs turn
  have hinflight := inflight_beforePoll engine goes d.position.partition
    d.position.offset
  have hcounted : d.Counted (beforePoll command deadlineNs m turn).2 := by
    unfold Counted
    rw [hshrinks.attempts]
    exact counted
  -- The attempts stay counted; what is overdue goes out of flight.
  refine ⟨hcounted, fun hover => ?_, fun hover => ⟨?_, ?_⟩⟩
  · refine Or.inr ⟨?_, hcounted, fun i hi => ?_⟩
    · rw [h.key, hshrinks.epoch]
    · rw [hinflight, if_pos hover] at hi
      exact absurd hi (by simp)
  · rw [hshrinks.epoch]
    exact h.key
  · rw [hinflight, if_neg hover, hshrinks.epoch]
    exact h.inflight

/-- A delivery that a turn disturbs is lost after it, unless the call raises. -/
theorem Live.lost (h : d.Live keyOf m) (counted : d.Counted m) {command : PollCommand}
    {deadlineNs : ℕ} {turn : PollTurn} (disturbs : engine.Disturbs command deadlineNs m turn d)
    (goes : ∀ raised, (engine.takeTurn command deadlineNs m turn).1 ≠ .raised raised) :
    d.Lost keyOf (engine.takeTurn command deadlineNs m turn).2 := by
  rcases takeTurn_cases engine command deadlineNs m turn with
    ⟨raised, heq⟩ | ⟨hstops, heq⟩ | ⟨hpolls, heq⟩ <;> rw [heq] at goes ⊢
  · exact absurd rfl (goes raised)
  · rcases disturbs with hover | ⟨hpolls, -⟩
    · -- A turn that stops before the poll disturbs by expiring deliveries only.
      exact (h.firstHalf counted engine hstops).2.1 hover
    · rw [hstops] at hpolls
      simp at hpolls
  · obtain ⟨hcounted, hlost, hlive⟩ := h.firstHalf counted engine hpolls
    rw [(afterPoll_eq engine command _ turn).1]
    -- An expired delivery is lost already, and the rest of the turn does not bring it back.
    by_cases hover : Overdue m turn.expire.nowMs d.position.partition d.position.offset
    · exact ((hlost hover).rebalances turn.rebalances).receive turn.response turn.delivery
    have hlive := hlive hover
    rcases disturbs with hover' | ⟨-, hcallback | ⟨d', hd', hof⟩⟩
    · exact absurd hover' hover
    · -- The callback moves the member out of the delivery's epoch.
      refine Lost.receive (Or.inl ?_) turn.response turn.delivery
      rw [epoch_rebalances, hlive.key]
      have hlength := List.length_pos_iff.mpr hcallback
      exact Nat.lt_add_of_pos_right hlength
    · -- The record is handed out again, at its next attempt.
      by_cases hcallback : turn.rebalances = []
      swap
      · refine Lost.receive (Or.inl ?_) turn.response turn.delivery
        rw [epoch_rebalances, hlive.key]
        have hlength := List.length_pos_iff.mpr hcallback
        exact Nat.lt_add_of_pos_right hlength
      rw [hcallback, List.foldl_nil] at hd' ⊢
      rcases receive_record engine
        (beforePoll command deadlineNs m turn).2 turn.response turn.delivery
        d.position.partition d.position.offset with
        ⟨d'', -, -, hattempt, ⟨event, expiresAtMs, hinflight⟩, hattempts⟩ | ⟨hnone, -, -⟩
      · unfold Counted at hcounted
        refine Or.inr ⟨?_, ?_, fun i hi => ?_⟩
        · rw [engine.receive_keeps assignmentEpoch_ignoresBooks, hlive.key]
        · unfold Counted
          rw [hattempts]
          change d.attempt ≤ d''.attempt
          omega
        · rw [hinflight] at hi
          obtain rfl := Option.some.inj hi
          change d''.attempt ≠ d.attempt
          omega
      · exact absurd hof (hnone d' hd')

/-- A delivery that a turn does not disturb is live after it. -/
theorem Live.takeTurn (h : d.Live keyOf m) (counted : d.Counted m) {command : PollCommand}
    {deadlineNs : ℕ} {turn : PollTurn} (calm : ¬engine.Disturbs command deadlineNs m turn d)
    (goes : ∀ raised, (engine.takeTurn command deadlineNs m turn).1 ≠ .raised raised) :
    d.Live keyOf (engine.takeTurn command deadlineNs m turn).2 ∧
      d.Counted (engine.takeTurn command deadlineNs m turn).2 := by
  unfold Disturbs at calm
  rw [not_or, not_and_or] at calm
  obtain ⟨hover, hpoll⟩ := calm
  rcases takeTurn_cases engine command deadlineNs m turn with
    ⟨raised, heq⟩ | ⟨hstops, heq⟩ | ⟨hpolls, heq⟩ <;> rw [heq] at goes ⊢
  · exact absurd rfl (goes raised)
  · obtain ⟨hcounted, -, hlive⟩ := h.firstHalf counted engine hstops
    exact ⟨hlive hover, hcounted⟩
  -- The client polls: no rebalance runs, and the record served is another one.
  · obtain ⟨hcounted, -, hlive⟩ := h.firstHalf counted engine hpolls
    obtain ⟨hcallback, hrecord⟩ := not_or.mp (hpoll.resolve_left (not_not.mpr hpolls))
    rw [(afterPoll_eq engine command _ turn).1]
    rw [not_not.mp hcallback, List.foldl_nil] at hrecord ⊢
    rcases receive_record engine
      (beforePoll command deadlineNs m turn).2 turn.response turn.delivery
      d.position.partition d.position.offset with ⟨d', hd', hof, -⟩ | ⟨-, hinflight, hattempts⟩
    · exact absurd ⟨d', hd', hof⟩ hrecord
    · refine ⟨⟨?_, ?_⟩, ?_⟩
      · rw [engine.receive_keeps assignmentEpoch_ignoresBooks]
        exact (hlive hover).key
      · rw [hinflight, engine.receive_keeps assignmentEpoch_ignoresBooks]
        exact (hlive hover).inflight
      · unfold Counted
        rw [hattempts]
        exact hcounted

end Delivery

namespace KafkaConsumerEngine

variable {keyOf} {engine : KafkaConsumerEngine Token} {command : PollCommand} {deadlineNs : ℕ}

/-! ### A whole call -/

/-- A batch is returned full, or by a turn that stops, or by what comes after a turn. -/
theorem pollTurns_cases {turns : List PollTurn} {deliveries deliveries' : List (Delivery Token)}
    {m m' : Member}
    (h : engine.pollTurns command deadlineNs turns deliveries m = (.returned deliveries', m')) :
    (¬deliveries.length < command.limit ∧ deliveries' = deliveries ∧ m' = m) ∨
      ∃ turn rest, turns = turn :: rest ∧ deliveries.length < command.limit ∧
        ((engine.takeTurn command deadlineNs m turn = (.stops, m') ∧ deliveries' = deliveries) ∨
          ∃ delivery m₁, engine.takeTurn command deadlineNs m turn = (.goesOn delivery, m₁) ∧
            engine.pollTurns command deadlineNs rest (deliveries ++ delivery.toList) m₁ =
              (.returned deliveries', m')) := by
  cases turns with
  | nil =>
    rw [pollTurns] at h
    split at h
    · simp at h
    next hfull =>
    obtain ⟨hreturned, rfl⟩ := Prod.mk.inj h
    obtain rfl := PollOutcome.returned.inj hreturned
    exact .inl ⟨hfull, rfl, rfl⟩
  | cons turn rest =>
    rw [pollTurns] at h
    split at h
    swap
    · next hfull =>
      obtain ⟨hreturned, rfl⟩ := Prod.mk.inj h
      obtain rfl := PollOutcome.returned.inj hreturned
      exact .inl ⟨hfull, rfl, rfl⟩
    next hmore =>
    refine .inr ⟨turn, rest, rfl, hmore, ?_⟩
    rcases hturn : engine.takeTurn command deadlineNs m turn with ⟨raised | _ | delivery, m₁⟩ <;>
      rw [hturn] at h
    · simp at h
    · obtain ⟨hreturned, rfl⟩ := Prod.mk.inj h
      obtain rfl := PollOutcome.returned.inj hreturned
      exact .inl ⟨rfl, rfl⟩
    · exact .inr ⟨delivery, m₁, rfl, h⟩

/-- What a call has collected, it returns; what is lost on the way stays lost. -/
theorem pollTurns_returned {turns : List PollTurn} {deliveries deliveries' : List (Delivery Token)}
    {m m' : Member}
    (h : engine.pollTurns command deadlineNs turns deliveries m = (.returned deliveries', m')) :
    deliveries <+: deliveries' ∧ ∀ d : Delivery Token, d.Lost keyOf m → d.Lost keyOf m' := by
  induction turns generalizing deliveries m with
  | nil =>
    obtain ⟨-, rfl, rfl⟩ | ⟨_, _, hnil, _⟩ := pollTurns_cases h
    · exact ⟨List.prefix_refl _, fun _ hd => hd⟩
    · simp at hnil
  | cons turn turns ih =>
    -- What is lost before a turn is lost after it, so the last member has lost it.
    have hlost : ∀ d : Delivery Token, d.Lost keyOf m →
        d.Lost keyOf (engine.takeTurn command deadlineNs m turn).2 :=
      fun d hd => hd.takeTurn command deadlineNs turn
    obtain ⟨-, rfl, rfl⟩ | ⟨_, _, hcons, -, hturn⟩ := pollTurns_cases h
    · exact ⟨List.prefix_refl _, fun _ hd => hd⟩
    obtain ⟨rfl, rfl⟩ := List.cons.inj hcons
    obtain ⟨hstops, rfl⟩ | ⟨delivery, m₁, hgoes, hrest⟩ := hturn
    · rw [hstops] at hlost
      exact ⟨List.prefix_refl _, hlost⟩
    · rw [hgoes] at hlost
      obtain ⟨hgrows, hstays⟩ := ih hrest
      exact ⟨(List.prefix_append _ _).trans hgrows, fun d hd => hstays d (hlost d hd)⟩

/-- What a turn hands out is live, and its record is the only one of it. -/
theorem live_of_takeTurn (carries : engine.cursor.CarriesKey keyOf) {turn : PollTurn}
    {m m' : Member} {d : Delivery Token}
    (h : engine.takeTurn command deadlineNs m turn = (.goesOn (some d), m')) :
    (d.Live keyOf m' ∧ d.Counted m') ∧ ∀ d' : Delivery Token,
      ¬engine.Disturbs command deadlineNs m turn d' →
        (d'.position.partition, d'.position.offset) ≠ (d.position.partition, d.position.offset) := by
  rcases takeTurn_cases engine command deadlineNs m turn with
    ⟨raised, heq⟩ | ⟨hstops, heq⟩ | ⟨hpolls, heq⟩ <;> rw [h] at heq
  · simp at heq
  · simp at heq
  set m₁ := turn.rebalances.foldl Member.rebalance (beforePoll command deadlineNs m turn).2
    with hm₁
  obtain ⟨hafter, hhanded⟩ := afterPoll_eq engine command (beforePoll command deadlineNs m turn).2
    turn
  rw [← heq] at hafter hhanded
  have hsome : engine.handedOut m₁ (.receive turn.response turn.delivery) = some d :=
    (hhanded _ rfl).symm
  have hm' : m' = (engine.receive m₁ turn.response turn.delivery).2 := hafter
  have hown : d.of d.position.partition d.position.offset := by simp [Delivery.of]
  refine ⟨?_, fun d' hcalm hsame => ?_⟩
  · rcases receive_record engine m₁ turn.response turn.delivery d.position.partition
      d.position.offset with
      ⟨d', hd', -, hattempt, ⟨event, expiresAtMs, hinflight⟩, hattempts⟩ | ⟨hnone, -, -⟩
    swap
    · exact absurd hown (hnone d hsome)
    obtain rfl : d = d' := Option.some.inj (hsome.symm.trans hd')
    have hepoch : m'.state.assignmentEpoch = m₁.state.assignmentEpoch := by
      rw [hm', engine.receive_keeps assignmentEpoch_ignoresBooks]
    rw [← hm'] at hinflight hattempts
    -- The delivery is in flight as it was handed out, in the epoch of the member.
    refine ⟨⟨?_, _, hinflight, rfl, hepoch.symm⟩, ?_⟩
    · obtain ⟨nowMs, topic, c, htoken, -, -, hkey⟩ := handedOut_token hsome
      rw [htoken, carries.written, hkey, hepoch]
    · unfold Delivery.Counted
      rw [hattempts]
      exact le_rfl
  · -- A delivery of the same record would have been disturbed by this one.
    refine hcalm (Or.inr ⟨hpolls, Or.inr ⟨d, hsome, ?_⟩⟩)
    obtain ⟨hp, ho⟩ := Prod.mk.inj hsame
    rw [hp, ho]
    exact hown

/-- The books and the list of a call that has not disturbed what it has collected. -/
structure Collected (keyOf : Token → DeliveryKey) (limit : ℕ) (deliveries : List (Delivery Token))
    (m : Member) : Prop extends LiveBatch keyOf limit deliveries m where
  counted : ∀ d ∈ deliveries, d.Counted m

/-- A turn that disturbs nothing adds its delivery to the others. -/
theorem Collected.takeTurn (carries : engine.cursor.CarriesKey keyOf) {turn : PollTurn}
    {m m' : Member} {deliveries : List (Delivery Token)} {delivery : Option (Delivery Token)}
    (h : Collected keyOf command.limit deliveries m) (more : deliveries.length < command.limit)
    (calm : ∀ d ∈ deliveries, ¬engine.Disturbs command deadlineNs m turn d)
    (goes : engine.takeTurn command deadlineNs m turn = (.goesOn delivery, m')) :
    Collected keyOf command.limit (deliveries ++ delivery.toList) m' := by
  -- A calm turn keeps alive what earlier turns have handed out.
  have hnext : ∀ d ∈ deliveries, d.Live keyOf m' ∧ d.Counted m' := by
    intro d hd
    have hlive := (h.live d hd).takeTurn (h.counted d hd) (calm d hd)
    rw [goes] at hlive
    exact hlive fun raised hraised => by simp at hraised
  cases delivery with
  | none =>
    rw [Option.toList_none, List.append_nil]
    exact ⟨⟨h.bounded, h.distinct, fun d hd => (hnext d hd).1⟩, fun d hd => (hnext d hd).2⟩
  | some new =>
    obtain ⟨hnew, hother⟩ := live_of_takeTurn carries goes
    rw [Option.toList_some]
    refine ⟨⟨?_, ?_, ?_⟩, ?_⟩
    · rw [List.length_append, List.length_singleton]
      exact more
    -- The record handed out is none of those that are still in flight.
    · rw [List.map_append, List.nodup_append]
      refine ⟨h.distinct, List.nodup_singleton _, ?_⟩
      rintro record hrecord record' hrecord' rfl
      obtain ⟨d, hd, rfl⟩ := List.mem_map.mp hrecord
      exact hother d (calm d hd) (List.mem_singleton.mp hrecord')
    · intro d hd
      rcases List.mem_append.mp hd with hd | hd
      · exact (hnext d hd).1
      · exact List.mem_singleton.mp hd ▸ hnew.1
    · intro d hd
      rcases List.mem_append.mp hd with hd | hd
      · exact (hnext d hd).2
      · exact List.mem_singleton.mp hd ▸ hnew.2

/-- **One loop.** From what it has collected, the loop goes on to return a live batch
exactly when no turn disturbs what was collected before it. -/
theorem pollTurns_live_iff (carries : engine.cursor.CarriesKey keyOf) {turns : List PollTurn}
    {deliveries deliveries' : List (Delivery Token)} {m m' : Member}
    (h : engine.pollTurns command deadlineNs turns deliveries m = (.returned deliveries', m'))
    (collected : Collected keyOf command.limit deliveries m) :
    LiveBatch keyOf command.limit deliveries' m' ↔
      engine.UndisturbedTurns command deadlineNs turns deliveries m := by
  induction turns generalizing deliveries m with
  | nil =>
    obtain ⟨-, rfl, rfl⟩ | ⟨_, _, hnil, _⟩ := pollTurns_cases h
    · exact ⟨fun _ => trivial, fun _ => collected.toLiveBatch⟩
    · simp at hnil
  | cons turn turns ih =>
    rw [UndisturbedTurns]
    obtain ⟨hfull, rfl, rfl⟩ | ⟨_, _, hcons, hmore, hcase⟩ := pollTurns_cases h
    · exact ⟨fun _ hmore => absurd hmore hfull, fun _ => collected.toLiveBatch⟩
    obtain ⟨rfl, rfl⟩ := List.cons.inj hcons
    -- A delivery that this turn disturbs is lost in what the call returns.
    have hlost : ∀ d ∈ deliveries, engine.Disturbs command deadlineNs m turn d →
        (∀ raised, (engine.takeTurn command deadlineNs m turn).1 ≠ .raised raised) →
        d.Lost keyOf (engine.takeTurn command deadlineNs m turn).2 :=
      fun d hd hdisturbs goes => (collected.live d hd).lost (collected.counted d hd) hdisturbs goes
    obtain ⟨hturn, rfl⟩ | ⟨delivery, m₁, hturn, h⟩ := hcase <;> rw [hturn] at hlost ⊢
    · have goes : ∀ raised, (TurnOutcome.stops : TurnOutcome Token) ≠ .raised raised :=
        fun raised heq => by simp at heq
      refine ⟨fun hbatch _ => ⟨fun d hd hdisturbs => ?_, trivial⟩, fun hcalm => ?_⟩
      · exact (hbatch.live d hd).not_lost (hlost d hd hdisturbs goes)
      · refine ⟨collected.bounded, collected.distinct, fun d hd => ?_⟩
        have hlive := (collected.live d hd).takeTurn (collected.counted d hd)
          ((hcalm hmore).1 d hd)
        rw [hturn] at hlive
        exact (hlive goes).1
    · obtain ⟨hgrows, hstays⟩ := pollTurns_returned h
      have goes : ∀ raised, TurnOutcome.goesOn delivery ≠ .raised raised :=
        fun raised heq => by simp at heq
      refine ⟨fun hbatch _ => ?_, fun hcalm => ?_⟩
      · have hcalm : ∀ d ∈ deliveries, ¬engine.Disturbs command deadlineNs m turn d :=
          fun d hd hdisturbs =>
            (hbatch.live d (hgrows.subset (List.mem_append_left _ hd))).not_lost
              (hstays d (hlost d hd hdisturbs goes))
        exact ⟨hcalm, (ih h (collected.takeTurn carries hmore hcalm hturn)).mp hbatch⟩
      · obtain ⟨hcalm, hrest⟩ := hcalm hmore
        exact (ih h (collected.takeTurn carries hmore hcalm hturn)).mpr hrest

/-- **A poll returns live, distinct deliveries** exactly when none of its turns has
disturbed a delivery that it had collected: no expiry has rewound to it or below, no
callback of a rebalance has run, and its record has not been handed out again. -/
theorem poll_live_iff (carries : engine.cursor.CarriesKey keyOf) {startNs : ℕ}
    {turns : List PollTurn} {emit : Option Raised} {deliveries : List (Delivery Token)}
    {m m' : Member}
    (returned : engine.pollCall command startNs turns emit m = (.returned deliveries, m')) :
    LiveBatch keyOf command.limit deliveries m' ↔
      engine.UndisturbedTurns command (startNs + command.waitTimeoutMs * 1000000) turns [] m := by
  have hloop : engine.pollTurns command (startNs + command.waitTimeoutMs * 1000000) turns [] m =
      (.returned deliveries, m') := by
    unfold pollCall at returned
    rcases hl : engine.pollTurns command (startNs + command.waitTimeoutMs * 1000000) turns [] m
      with ⟨_ | _ | _, m₁⟩ <;> rw [hl] at returned
    · simp at returned
    · cases emit with
      | none => exact returned
      | some raised => simp at returned
    · simp at returned
  exact pollTurns_live_iff carries hloop ⟨⟨Nat.zero_le _, List.nodup_nil,
    fun d hd => absurd hd List.not_mem_nil⟩, fun d hd => absurd hd List.not_mem_nil⟩

end KafkaConsumerEngine

/-! ### A poll that waits longer than its deliveries live -/

/-- The records of the deliveries that a call returns. -/
def PollOutcome.records : PollOutcome Token → Option (List (ℕ × ℕ))
  | .returned deliveries =>
    some (deliveries.map fun d => (d.position.partition, d.position.offset))
  | _ => none

namespace Sample

/-- Deliveries live for one second, and the poll waits for five. -/
def patient : PollCommand where
  subscription := { billing with acknowledgementTimeoutMs := 1000 }
  consumerGroup := workers
  stream := orders
  limit := 2
  waitTimeoutMs := 5000

/-- A turn at this time, in which the client returns the first record. -/
def firstRecordAt (nowMs : ℕ) : PollTurn where
  expire := { nowMs }
  resume := { monotonicNs := nowMs * 1000000 }
  monotonicNs := nowMs * 1000000
  response := .record (message 0)
  delivery := { monotonicNs := nowMs * 1000000, nowMs }

end Sample

namespace KafkaConsumerEngine

open Sample

/-- A call that returns its first record. -/
theorem poll_live_iff_first_record : ∃ deliveries m',
    Sample.engine.pollCall { patient with limit := 1 } 0 [firstRecordAt 0] none
        (.joined patient [0]) = (.returned deliveries, m') ∧
      deliveries.length = 1 ∧ LiveBatch TokenPayload.deliveryKey 1 deliveries m' := by
  have hrecords : (Sample.engine.pollCall { patient with limit := 1 } 0 [firstRecordAt 0] none
      (.joined patient [0])).1.records = some [(0, 0)] := by
    decide +kernel
  rcases hcall : Sample.engine.pollCall { patient with limit := 1 } 0 [firstRecordAt 0] none
    (.joined patient [0]) with ⟨_ | deliveries | _, m'⟩ <;> rw [hcall] at hrecords
  · simp [PollOutcome.records] at hrecords
  · refine ⟨deliveries, m', rfl, ?_, ?_⟩
    · have hlength := congrArg List.length (Option.some.inj hrecords)
      simpa using hlength
    · refine (poll_live_iff (payloadCodec_carriesKey _) hcall).mpr fun _ => ⟨?_, ?_⟩
      · exact fun d hd => absurd hd List.not_mem_nil
      · split <;> trivial
  · simp [PollOutcome.records] at hrecords

/-- **A poll returns a record twice.** The first delivery expires while the call waits for
a second one; the client goes back and returns the record again, and the call hands out
both deliveries. The first one is not in flight any more. -/
theorem poll_returns_expired_delivery : ∃ deliveries m',
    Sample.engine.pollCall patient 0 [firstRecordAt 0, firstRecordAt 1000] none
        (.joined patient [0]) = (.returned deliveries, m') ∧
      ¬LiveBatch TokenPayload.deliveryKey patient.limit deliveries m' := by
  have hrecords : (Sample.engine.pollCall patient 0 [firstRecordAt 0, firstRecordAt 1000] none
      (.joined patient [0])).1.records = some [(0, 0), (0, 0)] := by
    decide +kernel
  rcases hcall : Sample.engine.pollCall patient 0 [firstRecordAt 0, firstRecordAt 1000] none
    (.joined patient [0]) with ⟨_ | deliveries | _, m'⟩ <;> rw [hcall] at hrecords
  · simp [PollOutcome.records] at hrecords
  · refine ⟨deliveries, m', rfl, fun hbatch => ?_⟩
    have hdistinct := hbatch.distinct
    rw [Option.some.inj hrecords] at hdistinct
    exact absurd hdistinct (by decide)
  · simp [PollOutcome.records] at hrecords

end KafkaConsumerEngine

end MeridianKafka
