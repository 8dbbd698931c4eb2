import MeridianKafka.Consumer.Sound

/-!
# Rebalance

When a partition is revoked and assigned again, the member should treat it as a
freshly created member would. The `on_revoke` callback clears four of the five books
of the partition and leaves the fifth, the safe offset. The group position may have
been moved by another member in between, so the next delivery may be anywhere:
below a safe offset that was left behind, acknowledgements wait for offsets that
are not theirs, and above it they never reach it.

`rebalance_iff` is exact: after the two callbacks, the member behaves on the
partition as a fresh one for every sequence of calls whose first delivery is at
`o`, if and only if the partition had no safe offset or had `o` itself.

A `PartitionCall` is a call whose effect on the partition is compared: the parts of
`poll`, and the acknowledgements with the tokens that the member itself gives out,
which carry its own assignment epoch. `Member.Twins` relates two members whose
ledgers of the partition are the same up to that epoch. Twins answer alike and stay
twins (`playCall_twins`). A fresh member and one that kept the safe
offset `o` are not twins yet, but become twins with the delivery at `o`
(`playCall_primed`).
-/

namespace MeridianKafka

open Framework

/-! ### Ledgers up to the assignment epoch -/

namespace Ledger

/-- The ledger with the epochs of its deliveries removed. -/
def rebase (L : Ledger) : Ledger :=
  { L with inflight := fun o => (L.inflight o).map fun i => { i with assignmentEpoch := 0 } }

/-- The deliveries in flight are of this epoch. -/
def Current (L : Ledger) (epoch : ℕ) : Prop :=
  ∀ o i, L.inflight o = some i → i.assignmentEpoch = epoch

variable {L : Ledger} {epoch o : ℕ}

theorem rebase_update (inflight : ℕ → Option Inflight) (o : ℕ) (i : Option Inflight) :
    (fun k => (Function.update inflight o i k).map fun j => { j with assignmentEpoch := 0 }) =
      Function.update (fun k => (inflight k).map fun j => { j with assignmentEpoch := 0 }) o
        (i.map fun j => { j with assignmentEpoch := 0 }) := by
  funext k
  by_cases h : k = o
  · subst h
    simp
  · simp [Function.update_of_ne h]

theorem rebase_issue (event : Event) (expiresAtMs : ℕ) :
    (L.issue o event epoch expiresAtMs).rebase = L.rebase.issue o event 0 expiresAtMs := by
  unfold rebase issue
  dsimp only
  rw [rebase_update]
  rfl

theorem rebase_dropInflight : (L.dropInflight o).rebase = L.rebase.dropInflight o := by
  unfold rebase dropInflight
  dsimp only
  rw [rebase_update]
  rfl

theorem rebase_settle (transactional : Bool) :
    (L.settle o transactional).rebase = L.rebase.settle o transactional := by
  unfold rebase settle
  dsimp only
  rw [rebase_update]
  rfl

theorem rebase_rewind : (L.rewind o).rebase = L.rebase.rewind o := by
  unfold rebase rewind
  ext1 <;> try rfl
  funext k
  dsimp only
  split <;> rfl

theorem Current.rewind (h : L.Current epoch) : (L.rewind o).Current epoch := by
  intro k i hi
  change (if k < o then L.inflight k else none) = some i at hi
  split at hi
  · exact h k i hi
  · simp at hi

theorem Current.update (h : L.Current epoch) {i : Option Inflight}
    (hi : ∀ j, i = some j → j.assignmentEpoch = epoch) :
    ∀ k j, Function.update L.inflight o i k = some j → j.assignmentEpoch = epoch := by
  intro k j hj
  by_cases heq : k = o
  · subst heq
    rw [Function.update_self] at hj
    exact hi j hj
  · rw [Function.update_of_ne heq] at hj
    exact h k j hj

end Ledger

/-! ### Twins -/

/-- Two members with the same ledger of the partition, up to their epochs. -/
structure Member.Twins (p : ℕ) (m m' : Member) : Prop where
  command : m.state.command = m'.state.command
  ledger : (m.ledger p).rebase = (m'.ledger p).rebase
  current : (m.ledger p).Current m.state.assignmentEpoch
  current' : (m'.ledger p).Current m'.state.assignmentEpoch

namespace Member.Twins

variable {p o : ℕ} {m m' : Member}

/-- An update of the partition that does not look at epochs. -/
theorem step {m₂ m₂' : Member} (h : m.Twins p m') (f : Ledger → Ledger)
    (hf : ∀ L, (f L).rebase = f L.rebase)
    (hcurrent : ∀ L epoch, Ledger.Current L epoch → (f L).Current epoch)
    (hm : m₂.ledger p = f (m.ledger p) ∧ m₂.state.command = m.state.command ∧
      m₂.state.assignmentEpoch = m.state.assignmentEpoch)
    (hm' : m₂'.ledger p = f (m'.ledger p) ∧ m₂'.state.command = m'.state.command ∧
      m₂'.state.assignmentEpoch = m'.state.assignmentEpoch) : m₂.Twins p m₂' where
  command := by rw [hm.2.1, hm'.2.1, h.command]
  ledger := by rw [hm.1, hm'.1, hf, hf, h.ledger]
  current := by rw [hm.1, hm.2.2]; exact hcurrent _ _ h.current
  current' := by rw [hm'.1, hm'.2.2]; exact hcurrent _ _ h.current'

theorem note (h : m.Twins p m') (w : Occurrence) : (m.note p w).Twins p (m'.note p w) :=
  h.step (·.note w) (fun _ => rfl) (fun _ _ hc => hc)
    ⟨by rw [ledger_note, if_pos rfl], rfl, rfl⟩ ⟨by rw [ledger_note, if_pos rfl], rfl, rfl⟩

theorem dropInflight (h : m.Twins p m') (o : ℕ) :
    (m.dropInflight p o).Twins p (m'.dropInflight p o) :=
  h.step (·.dropInflight o) (fun _ => Ledger.rebase_dropInflight)
    (fun _ _ hc => hc.update (by simp))
    ⟨by rw [ledger_dropInflight, if_pos rfl], rfl, rfl⟩
    ⟨by rw [ledger_dropInflight, if_pos rfl], rfl, rfl⟩

theorem collect (h : m.Twins p m') (o : ℕ) : (m.collect p o).Twins p (m'.collect p o) :=
  h.step (·.collect o) (fun _ => rfl) (fun _ _ hc => hc)
    ⟨by rw [ledger_collect, if_pos rfl], rfl, rfl⟩ ⟨by rw [ledger_collect, if_pos rfl], rfl, rfl⟩

theorem setSafe (h : m.Twins p m') (safe : ℕ) : (m.setSafe p safe).Twins p (m'.setSafe p safe) :=
  h.step (·.setSafe safe) (fun _ => rfl) (fun _ _ hc => hc)
    ⟨by rw [ledger_setSafe, if_pos rfl], rfl, rfl⟩ ⟨by rw [ledger_setSafe, if_pos rfl], rfl, rfl⟩

theorem settle (h : m.Twins p m') (o : ℕ) (transactional : Bool) :
    (m.settle p o transactional).Twins p (m'.settle p o transactional) :=
  h.step (·.settle o transactional) (fun _ => Ledger.rebase_settle transactional)
    (fun _ _ hc => hc.update (by simp))
    ⟨by rw [ledger_settle, if_pos rfl], rfl, rfl⟩ ⟨by rw [ledger_settle, if_pos rfl], rfl, rfl⟩

theorem setPaused (h : m.Twins p m') (paused : PausedDelivery) :
    (m.setPaused p paused).Twins p (m'.setPaused p paused) :=
  h.step (·.setPaused paused) (fun _ => rfl) (fun _ _ hc => hc)
    ⟨by rw [ledger_setPaused, if_pos rfl], rfl, rfl⟩
    ⟨by rw [ledger_setPaused, if_pos rfl], rfl, rfl⟩

theorem deletePaused (h : m.Twins p m') : (m.deletePaused p).Twins p (m'.deletePaused p) :=
  h.step (·.deletePaused) (fun _ => rfl) (fun _ _ hc => hc)
    ⟨by rw [ledger_deletePaused, if_pos rfl], rfl, rfl⟩
    ⟨by rw [ledger_deletePaused, if_pos rfl], rfl, rfl⟩

theorem issue (h : m.Twins p m') (o : ℕ) (event : Event) (expiresAtMs : ℕ) :
    (m.issue p o event expiresAtMs).Twins p (m'.issue p o event expiresAtMs) where
  command := h.command
  ledger := by
    rw [ledger_issue, ledger_issue, if_pos rfl, if_pos rfl, Ledger.rebase_issue,
      Ledger.rebase_issue, h.ledger]
  current := by
    rw [ledger_issue, if_pos rfl]
    exact h.current.update (by rintro j ⟨⟩; rfl)
  current' := by
    rw [ledger_issue, if_pos rfl]
    exact h.current'.update (by rintro j ⟨⟩; rfl)

/-- What twins have in common. -/
theorem attempts (h : m.Twins p m') : (m.ledger p).attempts = (m'.ledger p).attempts :=
  (congrArg Ledger.attempts h.ledger :)

theorem acknowledged (h : m.Twins p m') :
    (m.ledger p).acknowledged = (m'.ledger p).acknowledged :=
  (congrArg Ledger.acknowledged h.ledger :)

theorem safeNext (h : m.Twins p m') : (m.ledger p).safeNext = (m'.ledger p).safeNext :=
  (congrArg Ledger.safeNext h.ledger :)

theorem paused (h : m.Twins p m') : (m.ledger p).paused = (m'.ledger p).paused :=
  (congrArg Ledger.paused h.ledger :)

theorem history (h : m.Twins p m') : (m.ledger p).history = (m'.ledger p).history :=
  (congrArg Ledger.history h.ledger :)

theorem original (h : m.Twins p m') (o : ℕ) : m.original p o = m'.original p o := by
  rw [← ledger_original, ← ledger_original, Ledger.original, Ledger.original, h.safeNext]

theorem contiguous (h : m.Twins p m') (o : ℕ) : m.contiguous p o = m'.contiguous p o := by
  rw [← ledger_contiguous, ← ledger_contiguous, Ledger.contiguous, Ledger.contiguous,
    Ledger.original, Ledger.original, h.safeNext, h.acknowledged]

/-- A delivery in flight at one twin is in flight at the other, of its own epoch. -/
theorem inflight (h : m.Twins p m') {i : Inflight} (hi : (m.ledger p).inflight o = some i) :
    ∃ i', (m'.ledger p).inflight o = some i' ∧ i'.event = i.event ∧ i'.attempt = i.attempt ∧
      i'.expiresAtMs = i.expiresAtMs ∧ i.assignmentEpoch = m.state.assignmentEpoch ∧
      i'.assignmentEpoch = m'.state.assignmentEpoch := by
  have heq := congrFun (congrArg Ledger.inflight h.ledger) o
  simp only [Ledger.rebase, hi, Option.map_some] at heq
  obtain ⟨i', hi', hbrand⟩ := Option.map_eq_some_iff.mp heq.symm
  rw [Inflight.mk.injEq] at hbrand
  exact ⟨i', hi', hbrand.1, hbrand.2.1, hbrand.2.2.2, h.current o i hi, h.current' o i' hi'⟩

theorem symm (h : m.Twins p m') : m'.Twins p m :=
  ⟨h.command.symm, h.ledger.symm, h.current', h.current⟩

end Member.Twins

/-! ### Calls on one partition -/

/-- A delivery as its receiver sees it, without the token. -/
def Delivery.withoutToken {Token : Type} (d : Delivery Token) : Delivery Unit where
  event := d.event
  token := ()
  position := d.position
  attempt := d.attempt
  redelivered := d.redelivered
  deliveredAt := d.deliveredAt
  expiresAtMs := d.expiresAtMs

/-- A call as it concerns one partition. The expiry and the resume are those of a
`poll` whose client calls return. The token of an acknowledgement was given out by
the member that gets it back, so it is a function of the assignment epoch. -/
inductive PartitionCall (Token : Type)
  | expireInflight (nowMs : ℕ)
  | resumeDue (monotonicNs : ℕ)
  | receive (message : Message) (env : DeliveryEnv)
  | acknowledge (command : AcknowledgeCommand Token) (token : ℕ → Token)
      (transaction : Option KafkaTransactionBridge) (env : AcknowledgeEnv)
  | negativeAcknowledge (command : NegativeAcknowledgeCommand Token) (token : ℕ → Token)
      (env : NegativeAcknowledgeEnv)

/-- What a call answers, with the transaction after it. -/
inductive PartitionAnswer
  | nothing
  | received (answer : Except Raised (Option (Delivery Unit)))
  | acknowledged (answer : Except Raised KafkaConsumerEngine.Acknowledged)
      (transaction : Option KafkaTransactionBridge)
  | negativeAcknowledged (answer : Except Raised KafkaConsumerEngine.NegativeAcknowledged)

namespace KafkaConsumerEngine

variable {Token : Type} (engine : KafkaConsumerEngine Token)

/-- The epoch in a token, by the epoch of the member that gets it: the same, or
always another one, for a token of an assignment that is over. -/
def TokenEpoch (epochOf : ℕ → ℕ) : Prop := (∀ epoch, epochOf epoch = epoch) ∨
  ∀ epoch, epochOf epoch ≠ epoch

/-- The texts are one token of the partition, given out by members of different
epochs: at this time they decode to the same coordinates but for the epoch, or fail
alike. -/
def TokenOf (p : ℕ) (command : AcknowledgeCommand Token) (token : ℕ → Token) (nowMs : ℕ) : Prop :=
  ∃ (decoded : Except Failure DeliveryCoordinates) (epochOf : ℕ → ℕ),
    (∀ c, decoded = .ok c → c.partition = p) ∧ TokenEpoch epochOf ∧
    ∀ epoch, engine.cursor.decodeDelivery nowMs (token epoch) command.subscription.ref
      command.consumerGroup.ref command.stream.topic =
        decoded.map fun c => { c with assignmentEpoch := epochOf epoch }

/-- The call is about the partition `p`. -/
def Concerns (p : ℕ) : PartitionCall Token → Prop
  | .expireInflight _ | .resumeDue _ => True
  | .receive message _ => message.partition = p
  | .acknowledge command token _ env => engine.TokenOf p command token env.nowMs
  | .negativeAcknowledge command token env =>
    engine.TokenOf p command.toAcknowledgeCommand token env.nowMs ∧
      engine.TokenOf p command.toAcknowledgeCommand token env.acknowledge.nowMs

/-- The call at a member: its answer, and the member after it. -/
def playCall (m : Member) : PartitionCall Token → PartitionAnswer × Member
  | .expireInflight nowMs => (.nothing, (KafkaConsumerEngine.expireInflight m { nowMs }).2)
  | .resumeDue monotonicNs => (.nothing, (KafkaConsumerEngine.resumeDue m { monotonicNs }).2)
  | .receive message env =>
    (.received ((engine.receive m (.record message) env).1.map (Option.map Delivery.withoutToken)),
      (engine.receive m (.record message) env).2)
  | .acknowledge command token transaction env =>
    let command := { command with delivery := token m.state.assignmentEpoch }
    (.acknowledged (engine.acknowledge m command transaction env).1
        (engine.acknowledge m command transaction env).2.2,
      (engine.acknowledge m command transaction env).2.1)
  | .negativeAcknowledge command token env =>
    let command := { command with delivery := token m.state.assignmentEpoch }
    (.negativeAcknowledged (engine.negativeAcknowledge m command env).1,
      (engine.negativeAcknowledge m command env).2)

/-- The calls one after the other: their answers, and the member after them. -/
def playCalls (m : Member) : List (PartitionCall Token) → List PartitionAnswer × Member
  | [] => ([], m)
  | call :: calls =>
    let (answer, m) := engine.playCall m call
    let (answers, m) := playCalls m calls
    (answer :: answers, m)

/-- What can be observed of the calls: their answers, and what happened to the
partition (its commits, seeks and pauses among it). -/
def behaviour (m : Member) (p : ℕ) (calls : List (PartitionCall Token)) :
    List PartitionAnswer × List Occurrence :=
  let (answers, after) := engine.playCalls { m with history := [] } calls
  (answers, historyOf after.history p)

variable {engine} {m m' : Member} {p : ℕ}

/-! ### Twins answer alike -/

theorem issueDelivery_twins (h : m.Twins p m') {message : Message} (here : message.partition = p)
    (env : DeliveryEnv) :
    (engine.issueDelivery m message env).1.map (Option.map Delivery.withoutToken) =
        (engine.issueDelivery m' message env).1.map (Option.map Delivery.withoutToken) ∧
      (engine.issueDelivery m message env).2.Twins p (engine.issueDelivery m' message env).2 := by
  subst here
  unfold issueDelivery
  dsimp only
  rw [h.command]
  split
  · exact ⟨rfl, h.note _⟩
  · have hattempts := congrFun h.attempts message.offset
    refine ⟨?_, h.issue _ _ _⟩
    have hget : m.state.attempts.getD (message.partition, message.offset) 0 =
        m'.state.attempts.getD (message.partition, message.offset) 0 :=
      congrArg (Option.getD · 0) hattempts
    rw [hget]
    rfl

variable (engine) in
theorem receive_twins (h : m.Twins p m') {message : Message} (here : message.partition = p)
    (env : DeliveryEnv) :
    (engine.receive m (.record message) env).1.map (Option.map Delivery.withoutToken) =
        (engine.receive m' (.record message) env).1.map (Option.map Delivery.withoutToken) ∧
      (engine.receive m (.record message) env).2.Twins p
        (engine.receive m' (.record message) env).2 := by
  subst here
  have hnote := h.note (.returned message.offset)
  have hpaused : (m.note message.partition (.returned message.offset)).state.paused.get?
      message.partition = (m'.note message.partition (.returned message.offset)).state.paused.get?
        message.partition := hnote.paused
  unfold receive delivery
  dsimp only
  -- what decides the branch is the same of both members
  rw [hnote.command, hpaused]
  split
  · exact ⟨rfl, hnote⟩
  split
  · exact issueDelivery_twins hnote rfl env
  split
  · split
    · exact ⟨rfl, hnote⟩
    · exact ⟨rfl, hnote.note _⟩
  · exact issueDelivery_twins hnote.deletePaused rfl env

theorem completeAcknowledge_twins (h : m.Twins p m') (command : AcknowledgeCommand Token)
    {token token' : Token} {c : DeliveryCoordinates} (here : c.partition = p) (epoch epoch' : ℕ)
    (committed : Bool) (transaction : Option KafkaTransactionBridge) (env : AcknowledgeEnv) :
    (completeAcknowledge m { command with delivery := token }
        { c with assignmentEpoch := epoch } committed transaction env).1 =
      (completeAcknowledge m' { command with delivery := token' }
        { c with assignmentEpoch := epoch' } committed transaction env).1 ∧
    (completeAcknowledge m { command with delivery := token }
        { c with assignmentEpoch := epoch } committed transaction env).2.2 =
      (completeAcknowledge m' { command with delivery := token' }
        { c with assignmentEpoch := epoch' } committed transaction env).2.2 ∧
    (completeAcknowledge m { command with delivery := token }
        { c with assignmentEpoch := epoch } committed transaction env).2.1.Twins p
      (completeAcknowledge m' { command with delivery := token' }
        { c with assignmentEpoch := epoch' } committed transaction env).2.1 := by
  subst here
  have hsettle := h.settle c.offset transaction.isSome
  unfold completeAcknowledge
  dsimp only
  -- The sink comes last: it changes the answer and not the member.
  cases env.emit with
  | some raised => exact ⟨rfl, rfl, hsettle⟩
  | none =>
    refine ⟨?_, rfl, hsettle⟩
    have hsafe := congrArg (Option.getD · 0) hsettle.safeNext
    change (Except.ok _ : Except Raised Acknowledged) = .ok _
    simp only [Except.ok.injEq, Acknowledged.mk.injEq, Position.mk.injEq, true_and, and_true]
    exact hsafe

/-- A token of another epoch is refused by both twins; for the others the guard looks
for the attempt only. -/
theorem acknowledgeGuard_twins (h : m.Twins p m') {c : DeliveryCoordinates}
    (here : c.partition = p) {epochOf : ℕ → ℕ} (hepoch : TokenEpoch epochOf) :
    acknowledgeGuard m { c with assignmentEpoch := epochOf m.state.assignmentEpoch } =
      acknowledgeGuard m' { c with assignmentEpoch := epochOf m'.state.assignmentEpoch } := by
  subst here
  unfold acknowledgeGuard
  dsimp only
  rcases hepoch with hsame | hother
  swap
  · rw [if_pos (hother _), if_pos (hother _)]
  -- an entry that is current in one member has a current twin in the other
  have hany : ∀ {m m' : Member}, m.Twins c.partition m' →
      (m.state.inflight.get? (c.partition, c.offset)).any (fun inflight =>
        inflight.assignmentEpoch = m.state.assignmentEpoch && inflight.attempt = c.attempt) →
      (m'.state.inflight.get? (c.partition, c.offset)).any (fun inflight =>
        inflight.assignmentEpoch = m'.state.assignmentEpoch && inflight.attempt = c.attempt) := by
    intro m m' h hm
    obtain ⟨i, hi, hmatch⟩ := (Option.any_eq_true _ _).mp hm
    obtain ⟨i', hi', -, hattempt, -, -, hcurrent⟩ := h.inflight hi
    refine (Option.any_eq_true _ _).mpr ⟨i', hi', ?_⟩
    rw [Bool.and_eq_true, decide_eq_true_eq, decide_eq_true_eq] at hmatch ⊢
    exact ⟨hcurrent, hattempt.trans hmatch.2⟩
  have hiff := Bool.eq_iff_iff.mpr ⟨hany h, hany h.symm⟩
  rw [if_neg (not_not.mpr (hsame _)), if_neg (not_not.mpr (hsame _)), hiff]

/-- Moving the group does not look at the token. -/
theorem moveGroup_withToken (command : AcknowledgeCommand Token) (token : Token) (safe : ℕ)
    (transaction : Option KafkaTransactionBridge) (env : AcknowledgeEnv) :
    moveGroup { command with delivery := token } p safe transaction env =
      moveGroup command p safe transaction env := rfl

theorem acknowledge_twins (h : m.Twins p m') {command : AcknowledgeCommand Token}
    {token : ℕ → Token} {env : AcknowledgeEnv} (sealed : engine.TokenOf p command token env.nowMs)
    (transaction : Option KafkaTransactionBridge) :
    (engine.acknowledge m { command with delivery := token m.state.assignmentEpoch } transaction
        env).1 =
      (engine.acknowledge m' { command with delivery := token m'.state.assignmentEpoch }
        transaction env).1 ∧
    (engine.acknowledge m { command with delivery := token m.state.assignmentEpoch } transaction
        env).2.2 =
      (engine.acknowledge m' { command with delivery := token m'.state.assignmentEpoch }
        transaction env).2.2 ∧
    (engine.acknowledge m { command with delivery := token m.state.assignmentEpoch } transaction
        env).2.1.Twins p
      (engine.acknowledge m' { command with delivery := token m'.state.assignmentEpoch }
        transaction env).2.1 := by
  obtain ⟨decoded, epochOf, hpartition, hepoch, hdecode⟩ := sealed
  unfold acknowledge
  dsimp only
  rw [hdecode, hdecode]
  cases decoded with
  | error failure => exact ⟨rfl, rfl, h⟩
  | ok c =>
    have here := hpartition c rfl
    dsimp only [Except.map]
    unfold acknowledgeDelivery
    rw [acknowledgeGuard_twins h here hepoch]
    split
    · exact ⟨rfl, rfl, h⟩
    subst here
    dsimp only
    -- The books agree about the safe offset and the run, and so the same branch is taken.
    rw [h.original, h.contiguous]
    split
    · rw [moveGroup_withToken command (token m.state.assignmentEpoch),
        moveGroup_withToken command (token m'.state.assignmentEpoch)]
      split
      · exact ⟨rfl, rfl, h.collect _⟩
      · exact completeAcknowledge_twins (((h.collect _).note _).setSafe _) _ rfl ..
    · exact completeAcknowledge_twins (h.collect _) _ rfl ..

/-- The guard of `negative_acknowledge` finds the same delivery at both twins, or
fails alike. -/
theorem negativeAcknowledgeGuard_twins (h : m.Twins p m') {c : DeliveryCoordinates}
    (here : c.partition = p) {epochOf : ℕ → ℕ} (hepoch : TokenEpoch epochOf) :
    (∃ failure,
      negativeAcknowledgeGuard m { c with assignmentEpoch := epochOf m.state.assignmentEpoch } =
        .error failure ∧
      negativeAcknowledgeGuard m' { c with assignmentEpoch := epochOf m'.state.assignmentEpoch } =
        .error failure) ∨
    ∃ i i',
      negativeAcknowledgeGuard m { c with assignmentEpoch := epochOf m.state.assignmentEpoch } =
        .ok i ∧
      negativeAcknowledgeGuard m' { c with assignmentEpoch := epochOf m'.state.assignmentEpoch } =
        .ok i' ∧
      i'.event = i.event := by
  subst here
  unfold negativeAcknowledgeGuard
  dsimp only
  rcases hepoch with hsame | hother
  swap
  · rw [if_pos (hother _), if_pos (hother _)]
    exact Or.inl ⟨_, rfl, rfl⟩
  rw [if_neg (not_not.mpr (hsame _)), if_neg (not_not.mpr (hsame _))]
  -- What one member has in flight, the other has too, with the same attempt.
  cases hm : (m.state.inflight.get? (c.partition, c.offset)).filter (·.attempt = c.attempt) with
  | some i =>
    obtain ⟨hi, hattempt⟩ := Option.filter_eq_some_iff.mp hm
    obtain ⟨i', hi', hevent, hattempt', -⟩ := h.inflight hi
    have hm' : (m'.state.inflight.get? (c.partition, c.offset)).filter (·.attempt = c.attempt) =
        some i' := by
      refine Option.filter_eq_some_iff.mpr ⟨hi', ?_⟩
      rw [decide_eq_true_eq] at hattempt ⊢
      exact hattempt'.trans hattempt
    rw [hm']
    exact Or.inr ⟨i, i', rfl, rfl, hevent⟩
  | none =>
    have hm' : (m'.state.inflight.get? (c.partition, c.offset)).filter (·.attempt = c.attempt) =
        none := by
      rw [Option.filter_eq_none_iff] at hm ⊢
      intro i' hi'
      obtain ⟨i, hi, -, hattempt, -⟩ := h.symm.inflight hi'
      have hne := hm i hi
      rw [decide_eq_true_eq] at hne ⊢
      exact fun heq => hne (hattempt.trans heq)
    rw [hm']
    exact Or.inl ⟨_, rfl, rfl⟩

theorem deadLetter_twins (h : m.Twins p m') {command : NegativeAcknowledgeCommand Token}
    {token : ℕ → Token} {env : NegativeAcknowledgeEnv}
    (sealed : engine.TokenOf p command.toAcknowledgeCommand token env.acknowledge.nowMs)
    (c : DeliveryCoordinates) (epoch epoch' : ℕ) {i i' : Inflight} (hevent : i'.event = i.event)
    (ref : ResourceRef) :
    (engine.deadLetter m { command with delivery := token m.state.assignmentEpoch }
        { c with assignmentEpoch := epoch } i ref env).1 =
      (engine.deadLetter m' { command with delivery := token m'.state.assignmentEpoch }
        { c with assignmentEpoch := epoch' } i' ref env).1 ∧
    (engine.deadLetter m { command with delivery := token m.state.assignmentEpoch }
        { c with assignmentEpoch := epoch } i ref env).2.Twins p
      (engine.deadLetter m' { command with delivery := token m'.state.assignmentEpoch }
        { c with assignmentEpoch := epoch' } i' ref env).2 := by
  have hack := acknowledge_twins h sealed none
  unfold deadLetter
  rw [hevent]
  split
  · exact ⟨rfl, h⟩
  next target _ =>
  dsimp only
  rcases hr : engine.acknowledge m
    { command.toAcknowledgeCommand with delivery := token m.state.assignmentEpoch } none
    env.acknowledge with ⟨answer, k, t⟩
  rcases hr' : engine.acknowledge m'
    { command.toAcknowledgeCommand with delivery := token m'.state.assignmentEpoch } none
    env.acknowledge with ⟨answer', k', t'⟩
  rw [hr, hr'] at hack
  obtain ⟨rfl, -, htwins⟩ : answer = answer' ∧ t = t' ∧ k.Twins p k' := hack
  -- The dead-letter event does not mention the token, so both publish the same.
  have hevents : ∀ token' : Token,
      deadLetterEvent { command with delivery := token' } i.event target c.attempt env.utcNow =
        deadLetterEvent command i.event target c.attempt env.utcNow := fun _ => rfl
  rw [hevents (token m.state.assignmentEpoch), hevents (token m'.state.assignmentEpoch)]
  split
  · exact ⟨rfl, h⟩
  cases answer with
  | error raised => exact ⟨rfl, htwins⟩
  | ok acknowledged => cases env.emit <;> exact ⟨rfl, htwins⟩

theorem scheduleRedelivery_twins (h : m.Twins p m') (command : NegativeAcknowledgeCommand Token)
    (token token' : Token) {c : DeliveryCoordinates} (here : c.partition = p) (epoch epoch' : ℕ)
    (env : NegativeAcknowledgeEnv) :
    (scheduleRedelivery m { command with delivery := token }
        { c with assignmentEpoch := epoch } env).1 =
      (scheduleRedelivery m' { command with delivery := token' }
        { c with assignmentEpoch := epoch' } env).1 ∧
    (scheduleRedelivery m { command with delivery := token }
        { c with assignmentEpoch := epoch } env).2.Twins p
      (scheduleRedelivery m' { command with delivery := token' }
        { c with assignmentEpoch := epoch' } env).2 := by
  subst here
  have hdrop := h.dropInflight c.offset
  have hseek := hdrop.note (.seek c.offset)
  unfold scheduleRedelivery
  dsimp only
  -- Either the seek has failed for both, or both go back and may pause.
  cases env.seek with
  | some raised => exact ⟨rfl, hdrop⟩
  | none =>
    dsimp only
    split
    · cases env.pause with
      | some raised => exact ⟨rfl, hseek⟩
      | none => cases env.emit <;> exact ⟨rfl, (hseek.note .pause).setPaused _⟩
    · cases env.emit <;> exact ⟨rfl, hseek⟩

theorem negativeAcknowledge_twins (h : m.Twins p m') {command : NegativeAcknowledgeCommand Token}
    {token : ℕ → Token} {env : NegativeAcknowledgeEnv}
    (sealed : engine.TokenOf p command.toAcknowledgeCommand token env.nowMs)
    (sealed' : engine.TokenOf p command.toAcknowledgeCommand token env.acknowledge.nowMs) :
    (engine.negativeAcknowledge m { command with delivery := token m.state.assignmentEpoch }
        env).1 =
      (engine.negativeAcknowledge m' { command with delivery := token m'.state.assignmentEpoch }
        env).1 ∧
    (engine.negativeAcknowledge m { command with delivery := token m.state.assignmentEpoch }
        env).2.Twins p
      (engine.negativeAcknowledge m' { command with delivery := token m'.state.assignmentEpoch }
        env).2 := by
  obtain ⟨decoded, epochOf, hpartition, hepoch, hdecode⟩ := sealed
  unfold negativeAcknowledge
  dsimp only
  rw [hdecode, hdecode]
  cases decoded with
  | error failure => exact ⟨rfl, h⟩
  | ok c =>
    have here := hpartition c rfl
    dsimp only [Except.map]
    unfold negativeAcknowledgeDelivery
    rcases negativeAcknowledgeGuard_twins h here hepoch with
      ⟨failure, hm, hm'⟩ | ⟨i, i', hm, hm', hevent⟩
    · rw [hm, hm']
      exact ⟨rfl, h⟩
    · rw [hm, hm']
      -- Where a delivery goes depends on its attempt and the command only.
      have hdead : ∀ (token' : Token) (epoch : ℕ),
          deadLetterStream { command with delivery := token' } { c with assignmentEpoch := epoch } =
            deadLetterStream command c := fun _ _ => rfl
      dsimp only
      rw [hdead (token m.state.assignmentEpoch), hdead (token m'.state.assignmentEpoch)]
      cases deadLetterStream command c with
      | some ref => exact deadLetter_twins h sealed' c _ _ hevent ref
      | none => exact scheduleRedelivery_twins h command _ _ here _ _ env

/-! ### Expiry and resumption of twins -/

theorem earliestExpired_twins (h : m.Twins p m') {nowMs o : ℕ} :
    EarliestExpired (m.ledger p) nowMs o ↔ EarliestExpired (m'.ledger p) nowMs o := by
  have hmem : ∀ {m m' : Member}, m.Twins p m' → ∀ k,
      (∃ i, (m.ledger p).inflight k = some i ∧ i.expiresAtMs ≤ nowMs) →
      ∃ i, (m'.ledger p).inflight k = some i ∧ i.expiresAtMs ≤ nowMs := by
    rintro m m' h k ⟨i, hi, hle⟩
    obtain ⟨i', hi', -, -, hexpires, -⟩ := h.inflight hi
    exact ⟨i', hi', hexpires ▸ hle⟩
  unfold EarliestExpired
  rw [Set.ext fun k => ⟨hmem h k, hmem h.symm k⟩]

theorem expireInflight_twins (h : m.Twins p m') (nowMs : ℕ) :
    (expireInflight m { nowMs }).2.Twins p (expireInflight m' { nowMs }).2 := by
  have hget : (Dict.groupMin (expired m nowMs)).get? p =
      (Dict.groupMin (expired m' nowMs)).get? p := by
    ext o
    rw [get?_groupMin_expired, get?_groupMin_expired, earliestExpired_twins h]
  rw [expireInflight_of_returns, expireInflight_of_returns]
  have hkeeps : ∀ l (m : Member),
      (rewindLoop { nowMs } l m).2.state.command = m.state.command ∧
      (rewindLoop { nowMs } l m).2.state.assignmentEpoch = m.state.assignmentEpoch := fun l m =>
    ⟨rewindLoop_keeps command_ignoresBooks _ l m,
      rewindLoop_keeps assignmentEpoch_ignoresBooks _ l m⟩
  -- both members have the same deliveries expired on the partition
  cases hp : (Dict.groupMin (expired m nowMs)).get? p with
  | none =>
    have hloop := ledger_rewindLoop_of_none hp nowMs m
    have hloop' := ledger_rewindLoop_of_none (hget.symm.trans hp) nowMs m'
    exact h.step id (fun _ => rfl) (fun _ _ hc => hc) ⟨hloop, hkeeps _ m⟩ ⟨hloop', hkeeps _ m'⟩
  | some o =>
    have hloop := ledger_rewindLoop_of_some hp nowMs m
    have hloop' := ledger_rewindLoop_of_some (hget.symm.trans hp) nowMs m'
    exact h.step (·.rewind o) (fun _ => Ledger.rebase_rewind)
      (fun _ _ hc => hc.rewind) ⟨hloop, hkeeps _ m⟩ ⟨hloop', hkeeps _ m'⟩

theorem resumeDue_twins (h : m.Twins p m') (monotonicNs : ℕ) :
    (resumeDue m { monotonicNs }).2.Twins p (resumeDue m' { monotonicNs }).2 := by
  unfold resumeDue
  have hkeeps : ∀ l (m : Member),
      (resumeLoop { monotonicNs } l m).2.state.command = m.state.command ∧
      (resumeLoop { monotonicNs } l m).2.state.assignmentEpoch = m.state.assignmentEpoch :=
    fun l m => ⟨resumeLoop_keeps command_ignoresBooks _ l m,
      resumeLoop_keeps assignmentEpoch_ignoresBooks _ l m⟩
  have hkept := fun hm hm' => h.step id (fun _ => rfl) (fun _ _ hc => hc)
    ⟨hm, hkeeps m.state.paused.entries m⟩ ⟨hm', hkeeps m'.state.paused.entries m'⟩
  -- both members hold the same pause of the partition, or none
  cases hp : (m.ledger p).paused with
  | none =>
    exact hkept (ledger_resumeLoop_of_none hp monotonicNs m)
      (ledger_resumeLoop_of_none (h.paused.symm.trans hp) monotonicNs m')
  | some paused =>
    have hloop := ledger_resumeLoop_of_some hp monotonicNs m
    have hloop' := ledger_resumeLoop_of_some (h.paused.symm.trans hp) monotonicNs m'
    by_cases hdue : paused.resumeAt > monotonicNs
    · rw [if_pos hdue] at hloop hloop'
      exact hkept hloop hloop'
    · rw [if_neg hdue] at hloop hloop'
      exact h.step (fun L => ((L.note (.seek paused.offset)).note .resume).deletePaused)
        (fun _ => rfl) (fun _ _ hc => hc) ⟨hloop, hkeeps _ m⟩ ⟨hloop', hkeeps _ m'⟩

/-! ### Sequences of calls -/

/-- **Twins answer alike and stay twins.** -/
theorem playCall_twins (h : m.Twins p m') {call : PartitionCall Token}
    (concerns : engine.Concerns p call) :
    (engine.playCall m call).1 = (engine.playCall m' call).1 ∧
      (engine.playCall m call).2.Twins p (engine.playCall m' call).2 := by
  cases call with
  | expireInflight nowMs => exact ⟨rfl, expireInflight_twins h nowMs⟩
  | resumeDue monotonicNs => exact ⟨rfl, resumeDue_twins h monotonicNs⟩
  | receive message env =>
    obtain ⟨hanswer, htwins⟩ := engine.receive_twins h concerns env
    exact ⟨congrArg PartitionAnswer.received hanswer, htwins⟩
  | acknowledge command token transaction env =>
    obtain ⟨hanswer, hbridge, htwins⟩ := acknowledge_twins h concerns transaction
    exact ⟨congrArg₂ PartitionAnswer.acknowledged hanswer hbridge, htwins⟩
  | negativeAcknowledge command token env =>
    obtain ⟨hanswer, htwins⟩ := negativeAcknowledge_twins h concerns.1 concerns.2
    exact ⟨congrArg PartitionAnswer.negativeAcknowledged hanswer, htwins⟩

theorem playCalls_twins (calls : List (PartitionCall Token)) (h : m.Twins p m')
    (concerns : ∀ call ∈ calls, engine.Concerns p call) :
    (engine.playCalls m calls).1 = (engine.playCalls m' calls).1 ∧
      (engine.playCalls m calls).2.Twins p (engine.playCalls m' calls).2 := by
  induction calls generalizing m m' with
  | nil => exact ⟨rfl, h⟩
  | cons call calls ih =>
    rw [List.forall_mem_cons] at concerns
    obtain ⟨hanswer, htwins⟩ := playCall_twins h concerns.1
    obtain ⟨hanswers, hend⟩ := ih htwins concerns.2
    exact ⟨congrArg₂ List.cons hanswer hanswers, hend⟩

/-! ### A safe offset that was left behind -/

variable (engine) in
/-- The offset of the first record that the calls hand out. -/
def startsAt (stream : PhysicalStream) : List (PartitionCall Token) → Option ℕ
  | [] => none
  | .receive message _ :: calls =>
    if message.topic = stream.topic ∧ (decodeEvent engine.parseEvent message stream).isOk then
      some message.offset
    else startsAt stream calls
  | _ :: calls => startsAt stream calls

end KafkaConsumerEngine

/-- The second member knows nothing of the partition. The first kept at most a safe
offset, and then the one that a delivery at `o` sets. -/
structure Member.Primed (poll : PollCommand) (p o : ℕ) (m m' : Member) : Prop where
  command : m.state.command = poll
  command' : m'.state.command = poll
  inflight : ∀ k, (m'.ledger p).inflight k = none
  paused : (m'.ledger p).paused = none
  safeNext : (m'.ledger p).safeNext = none
  ledger : m.ledger p = { m'.ledger p with safeNext := (m.ledger p).safeNext }
  kept : (m.ledger p).original o = o

namespace Member.Primed

variable {poll : PollCommand} {p o : ℕ} {m m' : Member}

theorem inflight_left (h : m.Primed poll p o m') (k : ℕ) : (m.ledger p).inflight k = none := by
  rw [h.ledger]
  exact h.inflight k

theorem paused_left (h : m.Primed poll p o m') : (m.ledger p).paused = none := by
  rw [h.ledger]
  exact h.paused

/-- Nothing happens to the partition. -/
theorem idle {m₂ m₂' : Member} (h : m.Primed poll p o m') (hm : m₂.ledger p = m.ledger p)
    (hm' : m₂'.ledger p = m'.ledger p) (hcommand : m₂.state.command = m.state.command)
    (hcommand' : m₂'.state.command = m'.state.command) : m₂.Primed poll p o m₂' where
  command := hcommand.trans h.command
  command' := hcommand'.trans h.command'
  inflight := hm' ▸ h.inflight
  paused := hm' ▸ h.paused
  safeNext := hm' ▸ h.safeNext
  ledger := by rw [hm, hm']; exact h.ledger
  kept := hm ▸ h.kept

theorem note (h : m.Primed poll p o m') (w : Occurrence) :
    (m.note p w).Primed poll p o (m'.note p w) where
  command := h.command
  command' := h.command'
  inflight := h.inflight
  paused := h.paused
  safeNext := h.safeNext
  ledger := by
    rw [ledger_note, ledger_note, if_pos rfl, if_pos rfl]
    exact congrArg (Ledger.note · w) h.ledger
  kept := h.kept

/-- The delivery at `o` sets the safe offset that was kept. -/
theorem issue (h : m.Primed poll p o m') (event : Event) (expiresAtMs : ℕ) :
    (m.issue p o event expiresAtMs).Twins p (m'.issue p o event expiresAtMs) where
  command := h.command.trans h.command'.symm
  ledger := by
    have hsafe : (m.ledger p).safeNext.getD o = o := h.kept
    have hsafe' : (m'.ledger p).safeNext.getD o = o := by rw [h.safeNext]; rfl
    rw [ledger_issue, ledger_issue, if_pos rfl, if_pos rfl, Ledger.rebase_issue,
      Ledger.rebase_issue]
    unfold Ledger.issue Ledger.rebase
    dsimp only
    rw [hsafe, hsafe', h.ledger]
  current := by
    rw [ledger_issue, if_pos rfl]
    refine Ledger.Current.update (fun k j hj => ?_) (by rintro j ⟨⟩; rfl)
    exact absurd hj (by rw [h.inflight_left]; simp)
  current' := by
    rw [ledger_issue, if_pos rfl]
    refine Ledger.Current.update (fun k j hj => ?_) (by rintro j ⟨⟩; rfl)
    exact absurd hj (by rw [h.inflight]; simp)

end Member.Primed

namespace KafkaConsumerEngine

variable {Token : Type} {engine : KafkaConsumerEngine Token} {poll : PollCommand} {p o : ℕ}
  {m m' : Member}

/-- With nothing in flight, both members refuse a token of the partition, for the same
reason. -/
theorem acknowledgeGuard_primed (h : m.Primed poll p o m') {c : DeliveryCoordinates}
    (here : c.partition = p) {epochOf : ℕ → ℕ} (hepoch : TokenEpoch epochOf) :
    ∃ failure,
      acknowledgeGuard m { c with assignmentEpoch := epochOf m.state.assignmentEpoch } =
        some failure ∧
      acknowledgeGuard m' { c with assignmentEpoch := epochOf m'.state.assignmentEpoch } =
        some failure := by
  subst here
  have hm : m.state.inflight.get? (c.partition, c.offset) = none := h.inflight_left c.offset
  have hm' : m'.state.inflight.get? (c.partition, c.offset) = none := h.inflight c.offset
  unfold acknowledgeGuard
  dsimp only
  rw [hm, hm']
  rcases hepoch with hsame | hother
  · rw [if_neg (not_not.mpr (hsame _)), if_neg (not_not.mpr (hsame _))]
    exact ⟨_, rfl, rfl⟩
  · rw [if_pos (hother _), if_pos (hother _)]
    exact ⟨_, rfl, rfl⟩

theorem negativeAcknowledgeGuard_primed (h : m.Primed poll p o m') {c : DeliveryCoordinates}
    (here : c.partition = p) {epochOf : ℕ → ℕ} (hepoch : TokenEpoch epochOf) :
    ∃ failure,
      negativeAcknowledgeGuard m { c with assignmentEpoch := epochOf m.state.assignmentEpoch } =
        .error failure ∧
      negativeAcknowledgeGuard m' { c with assignmentEpoch := epochOf m'.state.assignmentEpoch } =
        .error failure := by
  subst here
  have hm : m.state.inflight.get? (c.partition, c.offset) = none := h.inflight_left c.offset
  have hm' : m'.state.inflight.get? (c.partition, c.offset) = none := h.inflight c.offset
  unfold negativeAcknowledgeGuard
  dsimp only
  rw [hm, hm']
  rcases hepoch with hsame | hother
  · rw [if_neg (not_not.mpr (hsame _)), if_neg (not_not.mpr (hsame _))]
    exact ⟨_, rfl, rfl⟩
  · rw [if_pos (hother _), if_pos (hother _)]
    exact ⟨_, rfl, rfl⟩

/-- With nothing in flight and nothing paused, neither loop has anything to do. -/
theorem expireInflight_primed (h : m.Primed poll p o m') (nowMs : ℕ) :
    (expireInflight m { nowMs }).2.Primed poll p o (expireInflight m' { nowMs }).2 := by
  have hidle : ∀ m : Member, (∀ k, (m.ledger p).inflight k = none) →
      (expireInflight m { nowMs }).2.ledger p = m.ledger p := by
    intro m hnone
    have hget : (Dict.groupMin (expired m nowMs)).get? p = none := by
      refine Option.eq_none_iff_forall_ne_some.mpr fun k hk => ?_
      obtain ⟨i, hi, -⟩ := (get?_groupMin_expired.mp hk).1
      rw [hnone] at hi
      simp at hi
    rw [expireInflight_of_returns]
    exact ledger_rewindLoop_of_none hget nowMs m
  have hcommand : ∀ m : Member, (expireInflight m { nowMs }).2.state.command = m.state.command := by
    intro m
    rw [expireInflight_of_returns]
    exact rewindLoop_keeps command_ignoresBooks ..
  exact h.idle (hidle m h.inflight_left) (hidle m' h.inflight) (hcommand m) (hcommand m')

theorem resumeDue_primed (h : m.Primed poll p o m') (monotonicNs : ℕ) :
    (resumeDue m { monotonicNs }).2.Primed poll p o (resumeDue m' { monotonicNs }).2 := by
  have hidle : ∀ m : Member, (m.ledger p).paused = none →
      (resumeDue m { monotonicNs }).2.ledger p = m.ledger p := by
    intro m hnone
    exact ledger_resumeLoop_of_none hnone monotonicNs m
  have hcommand : ∀ m : Member, (resumeDue m { monotonicNs }).2.state.command = m.state.command :=
    fun m => resumeLoop_keeps command_ignoresBooks ..
  exact h.idle (hidle m h.paused_left) (hidle m' h.paused) (hcommand m) (hcommand m')

/-- A record that is not handed out leaves the members as they are to each other; the
one at `o` makes them twins. -/
theorem receive_primed (h : m.Primed poll p o m') {message : Message}
    (here : message.partition = p) (env : DeliveryEnv) {calls : List (PartitionCall Token)}
    (starts : engine.startsAt poll.stream (.receive message env :: calls) = some o) :
    (engine.receive m (.record message) env).1.map (Option.map Delivery.withoutToken) =
        (engine.receive m' (.record message) env).1.map (Option.map Delivery.withoutToken) ∧
      ((engine.receive m (.record message) env).2.Twins p
          (engine.receive m' (.record message) env).2 ∨
        (engine.receive m (.record message) env).2.Primed poll p o
            (engine.receive m' (.record message) env).2 ∧
          engine.startsAt poll.stream calls = some o) := by
  subst here
  have hnote := h.note (.returned message.offset)
  have hpaused : (m.note message.partition (.returned message.offset)).state.paused.get?
      message.partition = none := hnote.paused_left
  have hpaused' : (m'.note message.partition (.returned message.offset)).state.paused.get?
      message.partition = none := hnote.paused
  rw [startsAt] at starts
  unfold receive delivery
  dsimp only
  rw [hnote.command, hnote.command', hpaused, hpaused']
  -- A record of another topic is only noted; the first of the topic that decodes makes twins.
  by_cases htopic : message.topic = poll.stream.topic
  swap
  · rw [if_neg fun hand => htopic hand.1] at starts
    rw [if_pos htopic, if_pos htopic]
    exact ⟨rfl, Or.inr ⟨hnote, starts⟩⟩
  rw [if_neg (not_not.mpr htopic), if_neg (not_not.mpr htopic)]
  dsimp only [Option.filter]
  unfold issueDelivery
  dsimp only
  rw [hnote.command, hnote.command']
  cases hdec : decodeEvent engine.parseEvent message poll.stream with
  | error raised =>
    rw [hdec, if_neg (by rintro ⟨-, ⟨⟩⟩)] at starts
    exact ⟨rfl, Or.inr ⟨hnote.note _, starts⟩⟩
  | ok event =>
    rw [hdec, if_pos ⟨htopic, rfl⟩] at starts
    obtain rfl := Option.some.inj starts
    refine ⟨?_, Or.inl (hnote.issue event _)⟩
    -- Both have counted the attempts of the record alike.
    have hattempts : (m.note message.partition (.returned message.offset)).state.attempts.getD
        (message.partition, message.offset) 0 =
      (m'.note message.partition (.returned message.offset)).state.attempts.getD
        (message.partition, message.offset) 0 :=
      congrArg (Option.getD · 0) (congrFun (congrArg Ledger.attempts hnote.ledger) message.offset)
    rw [hattempts]
    rfl

/-- **Primed members answer alike, and the delivery at `o` makes them twins.** -/
theorem playCall_primed (h : m.Primed poll p o m') {call : PartitionCall Token}
    (concerns : engine.Concerns p call) {calls : List (PartitionCall Token)}
    (starts : engine.startsAt poll.stream (call :: calls) = some o) :
    (engine.playCall m call).1 = (engine.playCall m' call).1 ∧
      ((engine.playCall m call).2.Twins p (engine.playCall m' call).2 ∨
        (engine.playCall m call).2.Primed poll p o (engine.playCall m' call).2 ∧
          engine.startsAt poll.stream calls = some o) := by
  -- Nothing is in flight yet, so that every token is rejected on both sides.
  cases call with
  | expireInflight nowMs => exact ⟨rfl, Or.inr ⟨expireInflight_primed h nowMs, starts⟩⟩
  | resumeDue monotonicNs => exact ⟨rfl, Or.inr ⟨resumeDue_primed h monotonicNs, starts⟩⟩
  | receive message env =>
    obtain ⟨hanswer, hend⟩ := receive_primed h concerns env starts
    exact ⟨congrArg PartitionAnswer.received hanswer, hend⟩
  | acknowledge command token transaction env =>
    obtain ⟨decoded, epochOf, hpartition, hepoch, hdecode⟩ := concerns
    unfold playCall acknowledge
    dsimp only
    rw [hdecode, hdecode]
    cases decoded with
    | error failure => exact ⟨rfl, Or.inr ⟨h, starts⟩⟩
    | ok c =>
      obtain ⟨failure, hm, hm'⟩ := acknowledgeGuard_primed h (hpartition c rfl) hepoch
      dsimp only [Except.map]
      unfold acknowledgeDelivery
      rw [hm, hm']
      exact ⟨rfl, Or.inr ⟨h, starts⟩⟩
  | negativeAcknowledge command token env =>
    obtain ⟨⟨decoded, epochOf, hpartition, hepoch, hdecode⟩, -⟩ := concerns
    unfold playCall negativeAcknowledge
    dsimp only
    rw [hdecode, hdecode]
    cases decoded with
    | error failure => exact ⟨rfl, Or.inr ⟨h, starts⟩⟩
    | ok c =>
      obtain ⟨failure, hm, hm'⟩ := negativeAcknowledgeGuard_primed h (hpartition c rfl) hepoch
      dsimp only [Except.map]
      unfold negativeAcknowledgeDelivery
      rw [hm, hm']
      exact ⟨rfl, Or.inr ⟨h, starts⟩⟩

theorem playCalls_primed (calls : List (PartitionCall Token)) (h : m.Primed poll p o m')
    (concerns : ∀ call ∈ calls, engine.Concerns p call)
    (starts : engine.startsAt poll.stream calls = some o) :
    (engine.playCalls m calls).1 = (engine.playCalls m' calls).1 ∧
      (engine.playCalls m calls).2.Twins p (engine.playCalls m' calls).2 := by
  induction calls generalizing m m' with
  | nil => simp [startsAt] at starts
  | cons call calls ih =>
    rw [List.forall_mem_cons] at concerns
    obtain ⟨hanswer, htwins | ⟨hprimed, hlater⟩⟩ := playCall_primed h concerns.1 starts
    · obtain ⟨hanswers, hend⟩ := playCalls_twins calls htwins concerns.2
      exact ⟨congrArg₂ List.cons hanswer hanswers, hend⟩
    · obtain ⟨hanswers, hend⟩ := ih hprimed concerns.2 hlater
      exact ⟨congrArg₂ List.cons hanswer hanswers, hend⟩

/-! ### The rebalance -/

/-- After the two callbacks, of which the history is not looked at, the member is
primed for the offset that it kept. -/
theorem primed_of_rebalance {P : List ℕ} (Q : List ℕ) (hp : p ∈ P)
    (hkept : m.state.safeNext.get? p = none ∨ m.state.safeNext.get? p = some o) :
    Member.Primed m.state.command p o { (m.revoked P).assigned Q with history := [] }
      { (Member.create m.state.command).assigned Q with history := [] } where
  command := rfl
  command' := rfl
  inflight _ := rfl
  paused := rfl
  safeNext := rfl
  ledger := by
    have hledger := m.ledger_revoked p P
    rw [if_pos hp] at hledger
    exact congrArg (fun L : Ledger => { L with history := [] }) hledger
  kept := by
    change (m.state.safeNext.get? p).getD o = o
    rcases hkept with h | h <;> rw [h] <;> rfl

/-- An acknowledgement with a valid token whose client calls return says whether the
safe offset has advanced. -/
theorem ValidToken.answer {command : AcknowledgeCommand Token} {nowMs : ℕ}
    {c : DeliveryCoordinates} (valid : engine.ValidToken m command nowMs c) :
    ∃ safePosition, (engine.acknowledge m command none { nowMs }).1 =
        .ok
          { committed := m.original c.partition c.offset < (m.contiguous c.partition c.offset).1
            safePosition } ∧
      (engine.acknowledge m command none { nowMs }).2.2 = none := by
  rw [valid.acknowledge_eq]
  unfold acknowledgeDelivery
  rw [valid.accepted]
  dsimp only
  split
  · next h =>
    rw [decide_eq_true h]
    exact ⟨_, rfl, rfl⟩
  · next h =>
    rw [decide_eq_false h]
    exact ⟨_, rfl, rfl⟩

/-- A record of an event, of a partition that is not paused, is handed out. -/
theorem receive_issues {message : Message} (env : DeliveryEnv) {event : Event}
    (topic : message.topic = m.state.command.stream.topic)
    (decodes : decodeEvent engine.parseEvent message m.state.command.stream = .ok event)
    (awake : (m.ledger message.partition).paused = none) :
    ∃ expiresAtMs, (engine.receive m (.record message) env).2 =
      (m.note message.partition (.returned message.offset)).issue message.partition message.offset
        event expiresAtMs := by
  have hcommand : (m.note message.partition (.returned message.offset)).state.command =
    m.state.command := rfl
  have hpaused : (m.note message.partition (.returned message.offset)).state.paused.get?
    message.partition = none := awake
  unfold receive delivery
  dsimp only
  rw [hcommand, if_neg (not_not.mpr topic), hpaused]
  unfold issueDelivery
  dsimp only [Option.filter]
  rw [hcommand, decodes]
  exact ⟨_, rfl⟩

/-- The coordinates of the first delivery of a record. -/
def firstDelivery (poll : PollCommand) (message : Message) (epoch : ℕ) : DeliveryCoordinates where
  subscription := poll.subscription.ref
  consumerGroup := poll.consumerGroup.ref
  partition := message.partition
  offset := message.offset
  assignmentEpoch := epoch
  attempt := 1
  expiresAtMs := 1

variable (engine) in
/-- The token of the first delivery of a record, for every epoch. -/
def firstToken (poll : PollCommand) (message : Message) (epoch : ℕ) : Token :=
  engine.cursor.encodeDelivery 0 poll.stream.topic (firstDelivery poll message epoch)

variable (engine) in
/-- Deliver a record and acknowledge it. -/
def probe (poll : PollCommand) (message : Message) : List (PartitionCall Token) :=
  [.receive message { monotonicNs := 0, nowMs := 0 },
    .acknowledge
      { subscription := poll.subscription, consumerGroup := poll.consumerGroup
        stream := poll.stream, delivery := engine.firstToken poll message 0 }
      (engine.firstToken poll message) none { nowMs := 0 }]

theorem probe_concerns (seals : engine.cursor.SealsDeliveries) (poll : PollCommand)
    (message : Message) :
    ∀ call ∈ engine.probe poll message, engine.Concerns message.partition call := by
  intro call hcall
  rcases List.mem_pair.mp hcall with rfl | rfl
  · exact rfl
  · refine ⟨.ok (firstDelivery poll message 0), id, ?_, Or.inl fun _ => rfl, fun epoch => ?_⟩
    · rintro c ⟨⟩
      rfl
    · exact seals 0 0 poll.stream.topic (firstDelivery poll message epoch) one_pos le_rfl

/-- A member without books of the partition but for a safe offset commits the first
record that it delivers and acknowledges exactly when the record is at that offset. -/
theorem probe_answer (seals : engine.cursor.SealsDeliveries) {message : Message}
    (topic : message.topic = m.state.command.stream.topic) {event : Event}
    (decodes : decodeEvent engine.parseEvent message m.state.command.stream = .ok event)
    (safe : Option ℕ) (bare : m.ledger message.partition = { Ledger.empty with safeNext := safe }) :
    ∃ first safePosition, (engine.playCalls m (engine.probe m.state.command message)).1 =
      [first, .acknowledged
        (.ok { committed := safe.getD message.offset = message.offset, safePosition }) none] := by
  have awake : (m.ledger message.partition).paused = none := by rw [bare]; rfl
  obtain ⟨expiresAtMs, hreceive⟩ :=
    receive_issues { monotonicNs := 0, nowMs := 0 } topic decodes awake
  have hledger : (engine.receive m (.record message)
      { monotonicNs := 0, nowMs := 0 }).2.ledger message.partition =
        (({ Ledger.empty with safeNext := safe }).note (.returned message.offset)).issue
          message.offset event m.state.assignmentEpoch expiresAtMs := by
    rw [hreceive, Member.ledger_issue, if_pos rfl, Member.ledger_note, if_pos rfl, bare]
    rfl
  have hepoch : (engine.receive m (.record message)
      { monotonicNs := 0, nowMs := 0 }).2.state.assignmentEpoch = m.state.assignmentEpoch := by
    rw [hreceive]
    rfl
  unfold playCalls probe playCall
  dsimp only [playCalls, playCall]
  generalize (engine.receive m (.record message) { monotonicNs := 0, nowMs := 0 }).2 = k at *
  -- The token names the delivery that was just handed out.
  have hvalid : engine.ValidToken k
      { subscription := m.state.command.subscription
        consumerGroup := m.state.command.consumerGroup
        stream := m.state.command.stream
        delivery := engine.firstToken m.state.command message k.state.assignmentEpoch } 0
      (firstDelivery m.state.command message k.state.assignmentEpoch) := by
    refine ⟨seals 0 0 _ (firstDelivery m.state.command message _) one_pos le_rfl, ?_⟩
    have hinflight : k.state.inflight.get? (message.partition, message.offset) =
        some ⟨event, 1, m.state.assignmentEpoch, expiresAtMs⟩ :=
      (congrFun (congrArg Ledger.inflight hledger) message.offset).trans (Function.update_self ..)
    unfold acknowledgeGuard firstDelivery
    dsimp only
    rw [hinflight, hepoch]
    simp
  have hadvances : k.original message.partition message.offset <
      (k.contiguous message.partition message.offset).1 ↔
        safe.getD message.offset = message.offset := by
    rw [← Member.ledger_original, ← Member.ledger_contiguous, hledger,
      (Ledger.contiguous_isFrontier _ _).lt_iff, Finset.mem_coe]
    exact Finset.mem_singleton
  obtain ⟨safePosition, hanswer, hbridge⟩ := hvalid.answer
  rw [hanswer, hbridge, ← decide_eq_decide.mpr hadvances]
  exact ⟨_, safePosition, rfl⟩

/-- **What a rebalance leaves behind.** After a partition was revoked and partitions
were assigned, the member behaves on it as a freshly created one, for all calls whose
first delivery is the record `message`, exactly when the partition had no safe offset
or had the offset of that record. -/
theorem rebalance_iff (engine : KafkaConsumerEngine Token)
    (seals : engine.cursor.SealsDeliveries) (m : Member) (P Q : List ℕ) (message : Message)
    (revoked : message.partition ∈ P) (topic : message.topic = m.state.command.stream.topic)
    (decodes : (decodeEvent engine.parseEvent message m.state.command.stream).isOk) :
    (∀ calls, (∀ call ∈ calls, engine.Concerns message.partition call) →
        engine.startsAt m.state.command.stream calls = some message.offset →
        engine.behaviour ((m.revoked P).assigned Q) message.partition calls =
          engine.behaviour ((Member.create m.state.command).assigned Q) message.partition calls) ↔
      m.state.safeNext.get? message.partition = none ∨
        m.state.safeNext.get? message.partition = some message.offset := by
  constructor
  · intro hsame
    obtain ⟨event, hevent⟩ : ∃ event,
        decodeEvent engine.parseEvent message m.state.command.stream = .ok event := by
      cases hdec : decodeEvent engine.parseEvent message m.state.command.stream with
      | error raised => rw [hdec] at decodes; simp [Except.isOk, Except.toBool] at decodes
      | ok event => exact ⟨event, rfl⟩
    have hprobe := congrArg Prod.fst (hsame (engine.probe m.state.command message)
      (probe_concerns seals m.state.command message)
      (by rw [probe, startsAt, if_pos ⟨topic, decodes⟩]))
    have hledger := m.ledger_revoked message.partition P
    rw [if_pos revoked] at hledger
    -- Both members are bare, so each commits exactly at its own safe offset.
    obtain ⟨first, safePosition, hkept⟩ :=
      probe_answer (m := { (m.revoked P).assigned Q with history := [] })
        seals topic hevent (m.state.safeNext.get? message.partition)
        (congrArg (fun L : Ledger => { L with history := [] }) hledger)
    obtain ⟨first', safePosition', hfresh⟩ :=
      probe_answer (m := { (Member.create m.state.command).assigned Q with history := [] })
        seals topic hevent none rfl
    have hanswers := hkept.symm.trans (hprobe.trans hfresh)
    simp at hanswers
    cases hsafe : m.state.safeNext.get? message.partition with
    | none => exact Or.inl rfl
    | some s =>
      refine Or.inr ?_
      simpa [hsafe] using hanswers.2.1
  · intro hkept calls concerns starts
    obtain ⟨hanswers, htwins⟩ :=
      playCalls_primed calls (primed_of_rebalance Q revoked hkept) concerns starts
    exact congrArg₂ Prod.mk hanswers htwins.history

/-- A member that acknowledged record 0 loses the partition and gets it back at record 1. -/
theorem rebalance_iff_next :
    let m := (Sample.engine.machine (Sample.log [0, 1] [])).play (.create Sample.command)
      [.assigned [0], Sample.receive 0, Sample.acknowledge 0]
    (∀ calls, (∀ call ∈ calls, Sample.engine.Concerns 0 call) →
        Sample.engine.startsAt Sample.orders calls = some 1 →
        Sample.engine.behaviour ((m.revoked [0]).assigned [0]) 0 calls =
          Sample.engine.behaviour ((Member.create Sample.command).assigned [0]) 0 calls) ↔
      m.state.safeNext.get? 0 = none ∨ m.state.safeNext.get? 0 = some 1 :=
  rebalance_iff Sample.engine (payloadCodec_sealsDeliveries _)
    ((Sample.engine.machine (Sample.log [0, 1] [])).play (.create Sample.command)
      [.assigned [0], Sample.receive 0, Sample.acknowledge 0]) [0] [0] (Sample.message 1)
    (by decide) (by decide +kernel) (by decide +kernel)

/-- **A safe offset is left behind.** A member that acknowledged record 0 loses the
partition and gets it back at record 5, where another member has left the group: it
does not commit record 5, and a fresh member does. -/
theorem rebalance_leaves_safe_offset :
    let log := Sample.log [0, 5] []
    let run := [.assigned [0], Sample.receive 0, Sample.acknowledge 0]
    let m := (Sample.engine.machine log).play (.create Sample.command) run
    let calls := Sample.engine.probe Sample.command (Sample.message 5)
    (Sample.engine.machine log).Legal (.create Sample.command) run ∧
      (∀ call ∈ calls, Sample.engine.Concerns 0 call) ∧
      Sample.engine.behaviour ((m.revoked [0]).assigned [0]) 0 calls ≠
        Sample.engine.behaviour ((Member.create Sample.command).assigned [0]) 0 calls := by
  refine ⟨by decide +kernel, probe_concerns (payloadCodec_sealsDeliveries _) _ _, fun h => ?_⟩
  exact absurd (congrArg Prod.snd h) (by decide +kernel)

end KafkaConsumerEngine

end MeridianKafka
