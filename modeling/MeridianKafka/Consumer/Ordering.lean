import MeridianKafka.Consumer.Members

/-!
# Deliveries come in the order of the log

A group delivers the records of a partition in their order: whichever member a record is
delivered to, each record before it that can be decoded has been delivered to some member by then
(`delivered_in_order`). Redeliveries do not spoil this, since the client only ever goes back, to
records that were delivered, and after a rebalance the next member begins at or below the first
record that has not been delivered.

`Ledger.InOrder` is what holds of each member: the client reads on from a place that the group
has reached.
-/

namespace MeridianKafka

open Framework

namespace Ledger

variable {L L' : Ledger} {o : ℕ} {reached reached' settled : ℕ → Prop}

/-- Records are delivered, and read on from, where everything before has been delivered. -/
structure InOrder (reached : ℕ → Prop) (L : Ledger) : Prop where
  paused_delivered : ∀ paused, L.paused = some paused → paused.offset ∈ L.delivered
  delivered : ∀ o ∈ L.delivered, reached o
  fetch : ∀ f, L.fetch = some f → reached f

namespace InOrder

theorem empty : Ledger.empty.InOrder reached where
  paused_delivered paused h := absurd h (by simp [Ledger.empty])
  delivered o h := absurd h List.not_mem_nil
  fetch f h := absurd h (by simp [Ledger.empty, Ledger.fetch, fetchPosition])

theorem weaken (h : L.InOrder reached) (grows : ∀ n, reached n → reached' n) :
    L.InOrder reached' :=
  { h with
    delivered := fun o ho => grows o (h.delivered o ho)
    fetch := fun f hf => grows f (h.fetch f hf) }

/-- Steps that deliver nothing. -/
theorem mono (h : L.InOrder reached)
    (hp : ∀ paused, L'.paused = some paused → paused.offset ∈ L.delivered)
    (hd : L'.delivered = L.delivered)
    (hf : L'.fetch = L.fetch ∨ ∃ f, L'.fetch = some f ∧ reached f) : L'.InOrder reached where
  paused_delivered := by rw [hd]; exact hp
  delivered := by rw [hd]; exact h.delivered
  fetch f hfetch := by
    rcases hf with heq | ⟨f', heq, hreached⟩
    · exact h.fetch f (heq ▸ hfetch)
    · exact Option.some.inj (heq.symm.trans hfetch) ▸ hreached

theorem acknowledge {transactional : Bool} {fails : Prop} (h : L.InOrder reached)
    (step : L.AcknowledgeStep o transactional fails L') : L'.InOrder reached := by
  cases step with
  | failed => exact h.mono h.paused_delivered rfl (Or.inl rfl)
  | moved => cases transactional <;> exact h.mono h.paused_delivered rfl (Or.inl rfl)
  | collected => exact h.mono h.paused_delivered rfl (Or.inl rfl)

theorem handOut (h : L.InOrder reached) (here : reached o) (next : reached (o + 1)) (event : Event)
    (epoch expiresAtMs : ℕ) : (L.handOut o event epoch expiresAtMs).InOrder reached where
  paused_delivered paused hpaused := by
    rw [handOut_delivered]
    exact List.mem_cons_of_mem _ (h.paused_delivered paused ((handOut_paused ..).mp hpaused).1)
  delivered d hd := by
    rw [handOut_delivered] at hd
    rcases List.mem_cons.mp hd with rfl | hd
    · exact here
    · exact h.delivered d hd
  fetch f hf := by
    rw [handOut_fetch] at hf
    exact Option.some.inj hf ▸ next

theorem startAt (h : L.InOrder reached) {place : ℕ} (hplace : reached place) (times : ℕ) :
    (L.startAt place times).InOrder reached := by
  refine h.mono (fun paused hpaused => h.paused_delivered paused hpaused) (startAt_delivered ..) ?_
  rcases Nat.eq_zero_or_pos times with rfl | hpos
  · exact Or.inl rfl
  · exact Or.inr ⟨place, startAt_fetch _ _ hpos, hplace⟩

end InOrder

end Ledger

namespace KafkaConsumerEngine

variable {Token : Type} {engine : KafkaConsumerEngine Token} {log : PartitionLog}
  {stream : PhysicalStream} {m : Member} {p : ℕ} {reached settled : ℕ → Prop}

theorem PartitionStep.inOrder {a : Action Token} {L' : Ledger}
    (step : PartitionStep engine log m p a L') (within : a.WithinAssignment)
    (command : m.state.command.stream = stream)
    (fetch : ∀ message env, a = .receive (.record message) env → message.partition = p →
      (m.ledger p).fetch.isSome)
    (safe : (m.ledger p).SafeFor settled) (h : (m.ledger p).InOrder reached)
    (counts : ∀ n, reached n → (engine.Decodes log stream p n → n ∈ L'.delivered) →
      reached (n + 1)) :
    L'.InOrder reached := by
  have hskips : ∀ n, reached n → ¬engine.Decodes log stream p n → reached (n + 1) :=
    fun n hn hnot => counts n hn fun hdec => absurd hdec hnot
  have hback : ∀ {command : NegativeAcknowledgeCommand Token} {nowMs : ℕ}
      {c : DeliveryCoordinates}, engine.GoesBack m command nowMs c → c.partition = p →
      c.offset ∈ (m.ledger p).delivered := by
    rintro command nowMs c back rfl
    exact safe.inflight_delivered _ back.inflight_isSome
  cases step with
  | idle => exact h
  | rewound hrewinds =>
    exact h.mono h.paused_delivered rfl (Or.inr ⟨_, rfl, h.delivered _
      (safe.inflight_delivered _ (inflight_isSome_of_mem_rewinds hrewinds))⟩)
  | resumeSought waiting =>
    exact h.mono h.paused_delivered rfl
      (Or.inr ⟨_, rfl, h.delivered _ (h.paused_delivered _ waiting)⟩)
  | resumed waiting =>
    exact h.mono (fun _ hpaused => by simp [Ledger.deletePaused] at hpaused) rfl
      (Or.inr ⟨_, rfl, h.delivered _ (h.paused_delivered _ waiting)⟩)
  | stuck _ _ waiting at_pause =>
    -- the record of a pause was delivered before the pause
    have hmem := at_pause ▸ h.paused_delivered _ waiting
    exact h.mono h.paused_delivered rfl
      (Or.inr ⟨_, rfl, counts _ (h.delivered _ hmem) fun _ => hmem⟩)
  | heldBack _ _ waiting at_pause =>
    exact h.mono h.paused_delivered rfl
      (Or.inr ⟨_, rfl, h.delivered _ (at_pause ▸ h.paused_delivered _ waiting)⟩)
  | @rejected message env raised may here decodes =>
    have hreached := settled_of_mayReturn may here (fetch message env rfl here) h.fetch hskips
    subst here
    rw [command] at decodes
    exact h.mono (fun _ hpaused => h.paused_delivered _ ((Ledger.reject_paused _).mp hpaused).1)
      (by simp) (Or.inr ⟨_, Ledger.reject_fetch _,
        hskips _ hreached (not_decodes_of_error may decodes)⟩)
  | @delivered message env event expiresAtMs may here =>
    have hreached := settled_of_mayReturn may here (fetch message env rfl here) h.fetch hskips
    refine h.handOut hreached (counts _ hreached fun _ => ?_) event _ _
    rw [Ledger.handOut_delivered]
    exact List.mem_cons_self
  | acknowledged _ _ step => exact h.acknowledge step
  | deadLettered _ _ step => exact h.acknowledge step
  | dropped => exact h.mono h.paused_delivered rfl (Or.inl rfl)
  | sought back here =>
    exact h.mono h.paused_delivered rfl (Or.inr ⟨_, rfl, h.delivered _ (hback back here)⟩)
  | pausedAt back here =>
    refine h.mono (fun paused hpaused => ?_) rfl
      (Or.inr ⟨_, rfl, h.delivered _ (hback back here)⟩)
    obtain rfl := Option.some.inj hpaused
    exact hback back here
  | revoked => exact within.elim
  | repositioned => exact within.elim

end KafkaConsumerEngine

namespace Members

variable {Token : Type} {engine : KafkaConsumerEngine Token} {log : PartitionLog}
  {stream : PhysicalStream} {start : ℕ → ℕ} {w : Members}

/-- Each record below this offset that can be decoded has been delivered to a member. -/
def Reached (engine : KafkaConsumerEngine Token) (log : PartitionLog) (stream : PhysicalStream)
    (start : ℕ → ℕ) : Members → ℕ → ℕ → Prop :=
  Covered engine log stream start fun L o => o ∈ L.delivered

theorem Settled.reached {p n : ℕ} (h : w.Settled engine log stream start p n) :
    w.Reached engine log stream start p n := by
  intro o hle hlt hdec
  obtain ⟨i, hdelivered, -⟩ := h o hle hlt hdec
  exact ⟨i, hdelivered⟩

/-- All members deliver in the order of the log. -/
def InOrder (engine : KafkaConsumerEngine Token) (log : PartitionLog) (stream : PhysicalStream)
    (start : ℕ → ℕ) (w : Members) : Prop :=
  ∀ i p, ((w.member i).ledger p).InOrder (w.Reached engine log stream start p)

/-- One member changes, and with it the books of its own. -/
theorem InOrder.update (h : w.InOrder engine log stream start) {i : ℕ} {m : Member}
    {owner : ℕ → Option ℕ} {commits : ℕ → List ℕ}
    (suffix : ∀ p, ((w.member i).ledger p).history <:+ (m.ledger p).history)
    (ledger : ∀ p, (∀ n, w.Reached engine log stream start p n → Reached engine log stream start
        { member := Function.update w.member i m, owner, commits } p n) →
      (m.ledger p).InOrder (Reached engine log stream start
        { member := Function.update w.member i m, owner, commits } p)) :
    InOrder engine log stream start
      { member := Function.update w.member i m, owner, commits } := by
  have hgrows : ∀ p n, w.Reached engine log stream start p n → Reached engine log stream start
      { member := Function.update w.member i m, owner, commits } p n :=
    fun p n hn => Covered.update hn fun _ ho => Ledger.delivered_subset (suffix p) ho
  intro j p
  by_cases hj : j = i
  · subst hj
    change ((Function.update w.member j m j).ledger p).InOrder _
    rw [Function.update_self]
    exact ledger p (hgrows p)
  · change ((Function.update w.member i m j).ledger p).InOrder _
    rw [Function.update_of_ne hj]
    exact (h j p).weaken (hgrows p)

theorem InOrder.step (h : w.InOrder engine log stream start)
    (safe : w.Safe engine log stream start) {e : GroupEvent Token} (allowed : w.Allowed log e) :
    (Members.next engine start w e).InOrder engine log stream start := by
  cases e with
  | act i a =>
    obtain ⟨within, hallowed, assigned⟩ := allowed
    have hstep := fun p => engine.next_step (p := p) log hallowed
    refine h.update (m := engine.next (w.member i) a) (fun p => (hstep p).suffix)
      fun p hgrows => ?_
    refine (hstep p).inOrder within (safe.command i) ?_ (safe.ledger i p) ((h i p).weaken hgrows) ?_
    · rintro message env rfl rfl
      exact safe.fetch i _ assigned
    · intro n hn hcounts
      refine Covered.succ (i := i) hn ?_
      dsimp only
      rwa [Function.update_self]
  | assign i partitions =>
    have hledger := Member.ledger_assignedAt (w.member i) (w.place start) partitions
    refine h.update (fun p => ?_) fun p hgrows => ?_
    · rw [hledger]
      exact List.suffix_append _ _
    · rw [hledger]
      exact ((h i p).weaken hgrows).startAt (hgrows _ (safe.place p).reached) _
  | revoke i partitions =>
    have hledger : ∀ p, ((w.member i).revoked partitions).ledger p =
        if p ∈ partitions then ((w.member i).ledger p).revoke else (w.member i).ledger p :=
      fun p => Member.ledger_revoked ..
    refine h.update (fun p => ?_) fun p hgrows => ?_
    · rw [hledger]
      split <;> exact List.suffix_rfl
    · rw [hledger]
      split
      · exact ((h i p).weaken hgrows).mono (fun _ hpaused => by simp [Ledger.revoke] at hpaused) rfl
          (Or.inl rfl)
      · exact (h i p).weaken hgrows
  | release p => exact h

end Members

/-- **Deliveries come in the order of the log.** In every state of a group of any number of
members, through any rebalances: when a record has been delivered to a member, each record before
it that can be decoded has been delivered to some member. -/
theorem KafkaConsumerEngine.delivered_in_order {Token : Type}
    (engine : KafkaConsumerEngine Token) (log : PartitionLog) (start : ℕ → ℕ)
    {stream : PhysicalStream} {w : Members} (fresh : w.Fresh stream)
    {run : List (GroupEvent Token)} (legal : (engine.members log start).Legal w run) :
    let w' := (engine.members log start).play w run
    ∀ i p, ∀ o ∈ ((w'.member i).ledger p).delivered, ∀ earlier, start p ≤ earlier → earlier < o →
      engine.Decodes log stream p earlier → ∃ j, earlier ∈ ((w'.member j).ledger p).delivered := by
  intro w' i p o ho
  have hI := Machine.play_induction
    (I := fun w : Members => w.Safe engine log stream start ∧ w.InOrder engine log stream start)
    (C := fun _ _ => True) (fun w e h hallowed _ => ⟨h.1.step hallowed, h.2.step h.1 hallowed⟩)
    ⟨fresh.safe, fun i p => by rw [fresh.ledger]; exact .empty⟩ legal fun _ _ => trivial
  exact (hI.2 i p).delivered o ho

/-- Member 1 goes on behind what member 0 has resolved. -/
theorem delivered_in_order_handed_over :
    let w := (Sample.engine.members (Sample.log [0, 1, 2] []) (fun _ => 0)).play Sample.members
      Sample.handedOver
    ∃ j, 0 ∈ ((w.member j).ledger 0).delivered :=
  KafkaConsumerEngine.delivered_in_order Sample.engine _ _ Sample.members_fresh (by decide +kernel)
    1 0 1 (by decide +kernel) 0 (by decide) (by decide)
    ⟨Sample.message 0, Sample.event, rfl, rfl⟩

end MeridianKafka
