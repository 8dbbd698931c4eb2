import MeridianKafka.Consumer.DeadLetter
import MeridianKafka.Transactions.Account
import MeridianKafka.Transactions.Recovery

/-!
# Acknowledgements with and without a transaction

One session acknowledges deliveries of a group in its Kafka transaction, others
acknowledge deliveries of the same group without one. An `AccountBook` keeps the `Account`
of one partition beside the sessions.

An acknowledgement in a transaction moves the safe offset of the member when its offset is
only staged, and an acknowledgement without a transaction commits from that safe offset
on. It takes the position past the records of the open transaction, and when that
transaction is committed later, its staged offset takes the position back
(`commit_passes_transaction`).

The account stays honest in every run in which the two keep apart (`KeepsApart`): a commit
without a transaction finds nothing staged and stops before every record that only the
open transaction has acknowledged; the member of the group is taken out of the engine when
a transaction that has acknowledged for it ends without a commit; and a member without a
committed position to start from starts before every such record.
-/

namespace MeridianKafka

open Framework

/-- The offset that is staged for a partition of the group with this key. -/
def KafkaTransactionBridge.staged (bridge : KafkaTransactionBridge) (key topic : String) (p : ℕ) :
    Option ℕ :=
  if bridge.groupKey = some key then bridge.offsets.get? (topic, p) else none

namespace KafkaTransactionBridge

variable {bridge : KafkaTransactionBridge} {groupKey topic : String}
  {metadata : Except Raised String} {p next : ℕ}

/-- A `stage_offset` that raises stages nothing. -/
theorem staged_of_stage_error (keyed : bridge.Keyed) {raised : Raised}
    (h : (bridge.stageOffset groupKey metadata topic p next).1 = .error raised)
    (key topic' : String) (p' : ℕ) :
    (bridge.stageOffset groupKey metadata topic p next).2.staged key topic' p' =
      bridge.staged key topic' p' := by
  unfold stageOffset at h ⊢
  by_cases hactive : (!bridge.active) = true
  · rw [if_pos hactive]
  rw [if_neg hactive] at h ⊢
  by_cases hother : (bridge.groupKey.isSome && bridge.groupKey ≠ some groupKey) = true
  · rw [if_pos hother]
  rw [if_neg hother] at h ⊢
  cases metadata with
  | ok metadata => simp at h
  | error raised' =>
    -- The group is noted; without a group before, there were no offsets either.
    unfold staged
    cases hkey : bridge.groupKey with
    | some noted =>
      have heq : some noted = some groupKey := by
        by_contra hne
        simp [hkey, hne] at hother
      rw [heq]
    | none =>
      rw [keyed hkey, Dict.get?_empty, ite_self, ite_self]

/-- A `stage_offset` that returns stages the larger offset for its group and partition. -/
theorem staged_of_stage_ok (keyed : bridge.Keyed)
    (h : (bridge.stageOffset groupKey metadata topic p next).1 = .ok ())
    (key topic' : String) (p' : ℕ) :
    (bridge.stageOffset groupKey metadata topic p next).2.staged key topic' p' =
      if key = groupKey ∧ topic' = topic ∧ p' = p then
        some (max next ((bridge.staged key topic' p').getD 0))
      else bridge.staged key topic' p' := by
  unfold stageOffset at h ⊢
  by_cases hactive : (!bridge.active) = true
  · rw [if_pos hactive] at h
    simp at h
  rw [if_neg hactive] at h ⊢
  by_cases hother : (bridge.groupKey.isSome && bridge.groupKey ≠ some groupKey) = true
  · rw [if_pos hother] at h
    simp at h
  rw [if_neg hother] at h ⊢
  cases metadata with
  | error raised => simp at h
  | ok metadata =>
  unfold staged
  dsimp only
  by_cases hkey : key = groupKey
  · subst hkey
    rw [if_pos rfl]
    -- Before the group was noted, there were no offsets.
    have hbefore : (if bridge.groupKey = some key then bridge.offsets.get? (topic', p') else none) =
        bridge.offsets.get? (topic', p') := by
      cases hnoted : bridge.groupKey with
      | some noted =>
        have heq : some noted = some key := by
          by_contra hne
          simp [hnoted, hne] at hother
        rw [if_pos heq]
      | none => rw [keyed hnoted, Dict.get?_empty, ite_self]
    rw [hbefore, Dict.get?_set]
    by_cases hhere : topic' = topic ∧ p' = p
    · obtain ⟨rfl, rfl⟩ := hhere
      rw [if_pos rfl, if_pos ⟨rfl, rfl, rfl⟩]
      rfl
    · rw [if_neg fun heq => hhere (Prod.mk.inj heq), if_neg fun heq => hhere heq.2]
  · have hnone : bridge.groupKey ≠ some key := by
      intro hnoted
      simp [hnoted, hkey] at hother
    rw [if_neg fun heq => hkey (Option.some.inj heq).symm, if_neg fun heq => hkey heq.1,
      if_neg hnone]

end KafkaTransactionBridge

/-- What the members and the sessions of the groups do while nothing is rebalanced and no
session consumes and publishes in one call. -/
def SessionCall.Mixes {Token : Type} : SessionCall Token → Prop
  | operate _ action => action.KeepsAssignment
  | executeTransactional _ _ _ => False
  | _ => True

instance {Token : Type} : DecidablePred (@SessionCall.Mixes Token)
  | .operate _ _ => inferInstanceAs (Decidable (Action.KeepsAssignment _))
  | .executeTransactional _ _ _ => isFalse id
  | .join _ _ | .begin _ _ | .acknowledge _ _ _ | .commit _ _ | .rollback _ _ => isTrue trivial

namespace SessionAction

variable {Token : Type}

def Mixes : SessionAction Token → Prop
  | call c => c.Mixes
  | _ => True

instance : DecidablePred (@Mixes Token)
  | .call _ => inferInstanceAs (Decidable (SessionCall.Mixes _))
  | .publish _ _ _ | .close _ _ | .reorder _ _ => isTrue trivial

/-- The compiler has checked that each ConsumerGroup belongs to its one Subscription, and
that of this group to its Stream. -/
def CompiledFor (groupOf : String → GroupRef) (g : GroupRef) (stream : PhysicalStream) :
    SessionAction Token → Prop
  | call (.join poll _) => poll.group = g → poll.stream = stream
  | call (.acknowledge _ command _) => groupOf command.consumerGroup.ref.str = command.group ∧
    (command.group = g → command.stream.topic = stream.topic)
  | _ => True

/-- The acknowledgement is made in a Core transaction. -/
def InCore (s : RuntimeSessions) : SessionAction Token → Bool
  | call (.acknowledge i _ _) => (s.sessions i).active
  | _ => false

/-- Which recoveries raise when the touched groups are recovered. -/
def recoverEnv : SessionAction Token → RecoverEnv
  | call (.commit _ env) => env.recover
  | call (.rollback _ env) | close _ env => env.recover
  | _ => fun _ => none

end SessionAction

namespace KafkaConsumerEngine

variable {Token : Type} (engine : KafkaConsumerEngine Token)

/-- The record of the partition that a call acknowledges. -/
def settledBy (g : GroupRef) (p : ℕ) (x : RuntimeSessions × SessionCall Token) : Option ℕ :=
  match x.1.runtime.states.get? g, (engine.share x.1 x.2).runtime.states.get? g with
  | some m, some m' =>
    if (m'.ledger p).resolved = (m.ledger p).resolved then none else (m'.ledger p).resolved.head?
  | _, _ => none

/-- An acknowledgement without a transaction, for a session that has none or for a dead
letter that is published: its group, its command and its environment. -/
def plainAck (s : RuntimeSessions) :
    SessionAction Token → Option (GroupRef × AcknowledgeCommand Token × AcknowledgeEnv)
  | .call (.acknowledge i command env) =>
    if (s.sessions i).ensureBegun.isNone && !(s.sessions i).active then
      some (command.group, command, env)
    else none
  | .call (.operate group (.acknowledge command _ env)) => some (group, command, env)
  | .call (.operate group (.negativeAcknowledge command env)) =>
    ((s.runtime.states.get? group).bind fun m =>
      engine.deadLetterPublish m command env.nowMs env.utcNow).bind fun publication =>
        if (env.publish publication).isOk then
          some (group, command.toAcknowledgeCommand, env.acknowledge)
        else none
  | _ => none

/-- The record that is returned as the first one that the member of the group reads of
the partition. -/
def readsFirst (g : GroupRef) (p : ℕ) (s : RuntimeSessions) : SessionAction Token → Option ℕ
  | .call (.operate group (.receive (.record message) _)) =>
    if group = g ∧ message.partition = p ∧
        (s.runtime.states.get? g).any fun m => (m.ledger p).fetch.isNone then
      some message.offset
    else none
  | _ => none

end KafkaConsumerEngine

/-- The sessions of a runtime with the account of one partition. -/
structure AccountBook where
  sessions : RuntimeSessions
  account : Account := {}

namespace AccountBook

variable {Token : Type} (engine : KafkaConsumerEngine Token) (logs : GroupRef → PartitionLog)
  (g : GroupRef) (stream : PhysicalStream) (p : ℕ) (book : AccountBook)

/-- What is staged for the partition. -/
def staged : Option ℕ :=
  book.sessions.runtime.transactionBridge.staged g.2.str stream.topic p

/-- The account after a transaction has ended with an action, if one has. -/
def accountAtEnd (action : SessionAction Token) : Account :=
  if (engine.endsUncommitted book.sessions action).isSome then book.account.abandon
  else
    match action with
    | .call call =>
      if (engine.committedTransaction (book.sessions, call)).isSome then book.account.commit
      else book.account
    | _ => book.account

/-- The book after an action. -/
def next (action : SessionAction Token) : AccountBook where
  sessions := engine.act book.sessions action
  account :=
    let account := book.accountAtEnd engine action
    match action with
    | .call call =>
      let account :=
        match engine.settledBy g p (book.sessions, call) with
        | none => account
        | some o => if action.InCore book.sessions then account.pend o else account.settle o
      match engine.committedBy g stream.topic p (book.sessions, call) with
      | none => account
      | some position => account.put position
    | _ => account

/-- A member reads a partition from the committed position of the group on, if there is
one. -/
def StartsAtPosition (action : SessionAction Token) : Prop :=
  ∀ o ∈ KafkaConsumerEngine.readsFirst g p book.sessions action,
    ∀ n ∈ book.account.positions.head?, n ≤ o ∧ ∀ k < o, n ≤ k → logs g p k = none

/-- The sessions that acknowledge for one group, with the account of a partition. -/
def mixing : Machine AccountBook (SessionAction Token) where
  allowed book action := KafkaConsumerEngine.MayAct logs book.sessions action ∧ action.Mixes ∧
    book.StartsAtPosition logs g p action
  next := next engine g stream p

/-- Nothing is staged for the partition, and every other record that only the open
transaction has acknowledged lies behind one that nobody has. -/
def StopsBefore (m : Member) (o : ℕ) : Prop :=
  book.staged g stream p = none ∧
    ∀ k ∈ book.account.pending, k ∉ book.account.settled → k ≠ o →
      ∃ j ≤ k, o < j ∧ j ∉ m.acknowledgedOf p

/-- An acknowledgement without a transaction at the safe offset stops before the records of
the open transaction, if its commit returns. -/
def CommitsApart (action : SessionAction Token) : Prop :=
  ∀ ack ∈ engine.plainAck book.sessions action, ack.1 = g → ack.2.2.commit.isNone →
    ∀ m ∈ book.sessions.runtime.states.get? g,
      ∀ c ∈ (engine.cursor.decodeDelivery ack.2.2.nowMs ack.2.1.delivery ack.2.1.subscription.ref
        ack.2.1.consumerGroup.ref ack.2.1.stream.topic).toOption,
      (KafkaConsumerEngine.acknowledgeGuard m c).isNone → c.partition = p →
        c.offset = m.original p c.offset → book.StopsBefore g stream p m c.offset

/-- When a transaction ends without a commit and the group has records that only it has
acknowledged, no recovery of a touched group before this one raises. -/
def RecoversGroup (action : SessionAction Token) : Prop :=
  ∀ i ∈ engine.endsUncommitted book.sessions action,
    (∃ k ∈ book.account.pending, k ∉ book.account.settled) →
      ∀ group ∈ (book.sessions.sessions i).touchedGroups.takeWhile (· ≠ g),
        ¬book.sessions.runtime.RecoverRaises action.recoverEnv group

/-- Without a committed position, a member starts before every record that was
acknowledged only in a transaction that ended without a commit. -/
def StartsEarly (action : SessionAction Token) : Prop :=
  ∀ o ∈ KafkaConsumerEngine.readsFirst g p book.sessions action, book.account.positions = [] →
    ∀ k ∈ book.account.abandoned, k ∉ book.account.settled → o ≤ k

/-- The acknowledgements in transactions and those without keep apart. -/
structure KeepsApart (action : SessionAction Token) : Prop where
  commits : book.CommitsApart engine g stream p action
  recovers : book.RecoversGroup engine g action
  starts : book.StartsEarly g p action

instance (action : SessionAction Token) : Decidable (book.StartsAtPosition logs g p action) :=
  inferInstanceAs (Decidable (∀ o ∈ _, ∀ n ∈ _, _ ∧ ∀ k < _, _ → _))

instance (m : Member) (o : ℕ) : Decidable (book.StopsBefore g stream p m o) :=
  inferInstanceAs (Decidable (_ ∧ ∀ k ∈ _, _ → _ → ∃ j ≤ _, _ ∧ _))

instance (action : SessionAction Token) : Decidable (book.CommitsApart engine g stream p action) :=
  inferInstanceAs (Decidable (∀ ack ∈ _, _ → _ → ∀ m ∈ _, ∀ c ∈ _, _ → _ → _ → StopsBefore ..))

instance (action : SessionAction Token) : Decidable (book.RecoversGroup engine g action) :=
  inferInstanceAs (Decidable (∀ i ∈ _, (∃ k ∈ _, _) → ∀ group ∈ _, ¬_))

instance (action : SessionAction Token) : Decidable (book.StartsEarly g p action) :=
  inferInstanceAs (Decidable (∀ o ∈ _, _ → ∀ k ∈ _, _ → _))

instance (action : SessionAction Token) : Decidable (book.KeepsApart engine g stream p action) :=
  decidable_of_iff (book.CommitsApart engine g stream p action ∧ book.RecoversGroup engine g action ∧
    book.StartsEarly g p action)
    ⟨fun h => ⟨h.1, h.2.1, h.2.2⟩, fun h => ⟨h.commits, h.recovers, h.starts⟩⟩

instance (run : List (SessionAction Token)) :
    Decidable ((mixing engine logs g stream p).Legal book run) :=
  inferInstanceAs (Decidable (∀ x ∈ (mixing engine logs g stream p).steps book run,
    KafkaConsumerEngine.MayAct logs x.1.sessions x.2 ∧ x.2.Mixes ∧
      x.1.StartsAtPosition logs g p x.2))

/-- What holds between two actions. -/
structure Balanced : Prop where
  leased : book.sessions.Leased
  keyed : book.sessions.runtime.transactionBridge.Keyed
  opened : ∀ i, (book.sessions.sessions i).active = true →
    book.sessions.runtime.transactionBridge.active = true
  sound : book.account.Sound (engine.Decodes (logs g) stream p)
  member : ∀ m, book.sessions.runtime.states.get? g = some m →
    m.state.command.stream = stream ∧ engine.Decided (logs g) stream p (m.ledger p) ∧
      book.account.Agrees (m.ledger p) (book.staged g stream p)
  /-- Without a member, or without a session in a transaction, nothing is pending. -/
  absent : book.sessions.runtime.states.get? g = none →
    book.account.pending = [] ∧ book.staged g stream p = none
  idle : (∀ i, (book.sessions.sessions i).active = false) →
    book.account.pending = [] ∧ book.staged g stream p = none
  touched : book.account.pending ≠ [] → ∀ i, (book.sessions.sessions i).active = true →
    g ∈ (book.sessions.sessions i).touchedGroups

/-! ### What an action enters into the account -/

section Entries

variable {engine g stream p book} {call : SessionCall Token}

/-- A call that changes no books settles nothing. -/
theorem settledBy_of_subset {s : RuntimeSessions}
    (subset : ∀ m, (engine.share s call).runtime.states.get? g = some m →
      s.runtime.states.get? g = some m) : engine.settledBy g p (s, call) = none := by
  unfold KafkaConsumerEngine.settledBy
  dsimp only
  cases hm' : (engine.share s call).runtime.states.get? g with
  | none => cases s.runtime.states.get? g <;> rfl
  | some m =>
    rw [subset m hm']
    exact if_pos rfl

/-- It puts the group nowhere but to the offset of its transaction. -/
theorem committedBy_of_subset {s : RuntimeSessions} (topic : String)
    (subset : ∀ m, (engine.share s call).runtime.states.get? g = some m →
      s.runtime.states.get? g = some m) :
    engine.committedBy g topic p (s, call) =
      ((engine.committedTransaction (s, call)).filter (·.group = some g.2.str)).bind
        (·.offsets.get? (topic, p)) := by
  unfold KafkaConsumerEngine.committedBy
  dsimp only
  cases hm' : (engine.share s call).runtime.states.get? g with
  | none => cases s.runtime.states.get? g <;> exact Option.or_none
  | some m =>
    rw [subset m hm']
    dsimp only
    rw [if_pos rfl]
    exact Option.or_none

/-- An action that changes no books enters nothing but the end of a transaction. -/
theorem next_account_of_subset {action : SessionAction Token}
    (commits : ∀ call, action = .call call →
      engine.committedTransaction (book.sessions, call) = none)
    (subset : ∀ m, (engine.act book.sessions action).runtime.states.get? g = some m →
      book.sessions.runtime.states.get? g = some m) :
    (book.next engine g stream p action).account = book.accountAtEnd engine action := by
  cases action with
  | call call =>
    have hcommitted : engine.committedBy g stream.topic p (book.sessions, call) = none := by
      rw [committedBy_of_subset stream.topic subset, commits call rfl]
      rfl
    unfold next
    dsimp only
    rw [settledBy_of_subset subset, hcommitted]
  | _ => rfl

variable (stream) in
/-- An action that ends no transaction either enters nothing. -/
theorem next_account_of_same {action : SessionAction Token}
    (ends : engine.endsUncommitted book.sessions action = none)
    (commits : ∀ call, action = .call call →
      engine.committedTransaction (book.sessions, call) = none)
    (same : (engine.act book.sessions action).runtime.states.get? g =
      book.sessions.runtime.states.get? g) :
    (book.next engine g stream p action).account = book.account := by
  rw [next_account_of_subset commits fun m hm => same.symm.trans hm]
  unfold accountAtEnd
  rw [ends, if_neg (by simp)]
  cases action with
  | call call =>
    dsimp only
    rw [commits call rfl, if_neg (by simp)]
  | _ => rfl

variable (stream) {m m' : Member} (ends : engine.endsUncommitted book.sessions (.call call) = none)
  (commits : engine.committedTransaction (book.sessions, call) = none)
  (before : book.sessions.runtime.states.get? g = some m)
  (after : (engine.share book.sessions call).runtime.states.get? g = some m')

include ends commits before after

/-- What a call enters that changes the books of the member. -/
theorem next_account_of_member : (book.next engine g stream p (.call call)).account =
    let account :=
      match if (m'.ledger p).resolved = (m.ledger p).resolved then none
        else (m'.ledger p).resolved.head? with
      | none => book.account
      | some o =>
        if SessionAction.InCore book.sessions (.call call) then book.account.pend o
        else book.account.settle o
    match if (m'.ledger p).commits = (m.ledger p).commits then none
      else (m'.ledger p).commits.head? with
    | none => account
    | some position => account.put position := by
  have hend : book.accountAtEnd engine (.call call) = book.account := by
    unfold accountAtEnd
    rw [ends, if_neg (by simp)]
    dsimp only
    rw [commits, if_neg (by simp)]
  -- What the step settles and commits is read off the ledgers before and after it.
  have hsettled : engine.settledBy g p (book.sessions, call) =
      if (m'.ledger p).resolved = (m.ledger p).resolved then none
      else (m'.ledger p).resolved.head? := by
    unfold KafkaConsumerEngine.settledBy
    rw [before, after]
  have hcommitted : engine.committedBy g stream.topic p (book.sessions, call) =
      if (m'.ledger p).commits = (m.ledger p).commits then none
      else (m'.ledger p).commits.head? := by
    unfold KafkaConsumerEngine.committedBy
    rw [commits, before, after]
    rfl
  unfold next
  dsimp only
  rw [hsettled, hcommitted, hend]

theorem next_account_of_quiet (resolved : (m'.ledger p).resolved = (m.ledger p).resolved)
    (quiet : (m'.ledger p).commits = (m.ledger p).commits) :
    (book.next engine g stream p (.call call)).account = book.account := by
  rw [next_account_of_member stream ends commits before after, if_pos resolved, if_pos quiet]

theorem next_account_of_settles {o : ℕ}
    (resolved : (m'.ledger p).resolved = o :: (m.ledger p).resolved)
    (quiet : (m'.ledger p).commits = (m.ledger p).commits) :
    (book.next engine g stream p (.call call)).account =
      if SessionAction.InCore book.sessions (.call call) then book.account.pend o
      else book.account.settle o := by
  have hne : (m'.ledger p).resolved ≠ (m.ledger p).resolved := by
    rw [resolved]
    exact List.cons_ne_self _ _
  rw [next_account_of_member stream ends commits before after, if_neg hne, if_pos quiet, resolved]
  rfl

theorem next_account_of_moves {o n : ℕ}
    (resolved : (m'.ledger p).resolved = o :: (m.ledger p).resolved)
    (moves : (m'.ledger p).commits = n :: (m.ledger p).commits) :
    (book.next engine g stream p (.call call)).account =
      (if SessionAction.InCore book.sessions (.call call) then book.account.pend o
      else book.account.settle o).put n := by
  have hresolved : (m'.ledger p).resolved ≠ (m.ledger p).resolved := by
    rw [resolved]
    exact List.cons_ne_self _ _
  have hcommits : (m'.ledger p).commits ≠ (m.ledger p).commits := by
    rw [moves]
    exact List.cons_ne_self _ _
  rw [next_account_of_member stream ends commits before after, if_neg hresolved, if_neg hcommits,
    resolved, moves]
  rfl

end Entries

/-! ### The sessions and the bridge -/

variable {engine logs g stream p book} {action : SessionAction Token}

theorem act_keyed (keyed : book.sessions.runtime.transactionBridge.Keyed) :
    (engine.act book.sessions action).runtime.transactionBridge.Keyed := by
  cases action with
  | call call => exact (engine.holds_of_share call keyed).1
  | publish i command env =>
    show ((book.sessions.sessions i).publish book.sessions.runtime command
      env).runtime.transactionBridge.Keyed
    rw [((book.sessions.sessions i).publish_keeps book.sessions.runtime command env).2]
    exact keyed
  | close i env =>
    rcases (book.sessions.sessions i).close_effect book.sessions.runtime env with heq | hblank
    · show ((book.sessions.sessions i).close book.sessions.runtime
        env).runtime.transactionBridge.Keyed
      rw [heq]
      exact keyed
    · exact hblank.keyed
  | reorder i groups => exact keyed

/-- A session with a Core transaction has a Kafka transaction. -/
theorem act_opened (leased : book.sessions.Leased)
    (opened : ∀ i, (book.sessions.sessions i).active = true →
      book.sessions.runtime.transactionBridge.active = true) (i : ℕ)
    (hactive : ((engine.act book.sessions action).sessions i).active = true) :
    (engine.act book.sessions action).runtime.transactionBridge.active = true := by
  cases hbefore : (book.sessions.sessions i).active with
  | false =>
    obtain ⟨-, -, -, hopened⟩ := KafkaConsumerEngine.begins_of_active hbefore hactive
    exact hopened
  | true =>
    by_cases hown : action.session = some i
    · rw [KafkaConsumerEngine.act_bridge_active hown hbefore hactive]
      exact opened i hbefore
    · rw [KafkaConsumerEngine.act_bridge_of_other leased hbefore hown]
      exact opened i hbefore

theorem staged_of_bridge
    (bridge : (engine.act book.sessions action).runtime.transactionBridge =
      book.sessions.runtime.transactionBridge) :
    (book.next engine g stream p action).staged g stream p = book.staged g stream p := by
  show KafkaTransactionBridge.staged (engine.act book.sessions action).runtime.transactionBridge _ _
    _ = _
  rw [bridge]
  rfl

/-- **An action beside the partition**: its member, what is staged for it and the
transactions stay as they are. -/
theorem Balanced.frame (h : book.Balanced engine logs g stream p)
    (ends : engine.endsUncommitted book.sessions action = none)
    (commits : ∀ call, action = .call call →
      engine.committedTransaction (book.sessions, call) = none)
    (same : (engine.act book.sessions action).runtime.states.get? g =
      book.sessions.runtime.states.get? g)
    (staged : (book.next engine g stream p action).staged g stream p = book.staged g stream p)
    (stays : ∀ i, (book.sessions.sessions i).active = true →
      ((engine.act book.sessions action).sessions i).active = true ∧
        (g ∈ (book.sessions.sessions i).touchedGroups →
          g ∈ ((engine.act book.sessions action).sessions i).touchedGroups)) :
    (book.next engine g stream p action).Balanced engine logs g stream p := by
  have haccount := next_account_of_same stream (p := p) ends commits same
  have hidle : (∀ i, ((engine.act book.sessions action).sessions i).active = false) →
      ∀ i, (book.sessions.sessions i).active = false := by
    intro hinactive i
    by_contra hactive
    have hstays := (stays i (by simpa using hactive)).1
    exact absurd ((hinactive i).symm.trans hstays) (by simp)
  constructor
  case leased => exact KafkaConsumerEngine.act_leased action h.leased
  case keyed => exact act_keyed h.keyed
  case opened => exact fun i => act_opened h.leased h.opened i
  case sound =>
    rw [haccount]
    exact h.sound
  case member =>
    intro m hm
    rw [haccount, staged]
    exact h.member m (same.symm.trans hm)
  case absent =>
    intro hnone
    rw [haccount, staged]
    exact h.absent (same.symm.trans hnone)
  case idle =>
    intro hinactive
    rw [haccount, staged]
    exact h.idle (hidle hinactive)
  case touched =>
    rw [haccount]
    intro hpending i hactive
    -- Somebody has the transaction already, so it is this session.
    obtain ⟨j, hj⟩ : ∃ j, (book.sessions.sessions j).active = true := by
      by_contra hnone
      rw [not_exists] at hnone
      exact hpending (h.idle fun j => by simpa using hnone j).1
    have hleased : (engine.act book.sessions action).Leased :=
      KafkaConsumerEngine.act_leased action h.leased
    obtain rfl : i = j := hleased.unique i j hactive (stays j hj).1
    exact (stays i hj).2 (h.touched hpending i hj)

/-! ### The end of a transaction -/

theorem staged_of_blank {book : AccountBook}
    (blank : book.sessions.runtime.transactionBridge.Blank) : book.staged g stream p = none := by
  unfold staged KafkaTransactionBridge.staged
  rw [blank.groupKey]
  rfl

/-- **A transaction ends without a commit**, and the member of the group is discarded if
it has to be. -/
theorem Balanced.abandons (h : book.Balanced engine logs g stream p) {i : ℕ}
    (ends : engine.endsUncommitted book.sessions action = some i)
    (commits : ∀ call, action = .call call →
      engine.committedTransaction (book.sessions, call) = none)
    (subset : ∀ m, (engine.act book.sessions action).runtime.states.get? g = some m →
      book.sessions.runtime.states.get? g = some m)
    (blank : (engine.act book.sessions action).runtime.transactionBridge.Blank)
    (inactive : ∀ j, ((engine.act book.sessions action).sessions j).active = false)
    (discards : (∃ k ∈ book.account.pending, k ∉ book.account.settled) →
      (engine.act book.sessions action).runtime.states.get? g = none) :
    (book.next engine g stream p action).Balanced engine logs g stream p := by
  have haccount : (book.next engine g stream p action).account = book.account.abandon := by
    rw [next_account_of_subset commits subset]
    unfold accountAtEnd
    rw [ends]
    exact if_pos rfl
  have hstaged : (book.next engine g stream p action).staged g stream p = none :=
    staged_of_blank blank
  constructor
  case leased => exact KafkaConsumerEngine.act_leased action h.leased
  case keyed => exact act_keyed h.keyed
  case opened => exact fun j hj => absurd ((inactive j).symm.trans hj) (by simp)
  case sound =>
    rw [haccount]
    exact h.sound.abandon
  case member =>
    intro m hm
    obtain ⟨hstream, hdecided, hagrees⟩ := h.member m (subset m hm)
    rw [haccount, hstaged]
    refine ⟨hstream, hdecided, hagrees.abandon fun k hk => ?_⟩
    -- What was pending and is not settled has discarded the member.
    by_contra hunsettled
    have hgone := discards ⟨k, hk, hunsettled⟩
    exact absurd (hgone.symm.trans hm) (by simp)
  case absent =>
    rw [haccount, hstaged]
    exact fun _ => ⟨rfl, rfl⟩
  case idle =>
    rw [haccount, hstaged]
    exact fun _ => ⟨rfl, rfl⟩
  case touched =>
    rw [haccount]
    exact fun hpending => absurd rfl hpending

/-- **A transaction is committed.** -/
theorem Balanced.commits (h : book.Balanced engine logs g stream p) {call : SessionCall Token}
    {tx : KafkaTransaction}
    (ends : engine.endsUncommitted book.sessions (.call call) = none)
    (commits : engine.committedTransaction (book.sessions, call) = some tx)
    (carries : tx = ⟨book.sessions.runtime.transactionBridge.groupKey,
      book.sessions.runtime.transactionBridge.offsets⟩)
    (subset : ∀ m, (engine.share book.sessions call).runtime.states.get? g = some m →
      book.sessions.runtime.states.get? g = some m)
    (blank : (engine.share book.sessions call).runtime.transactionBridge.Blank)
    (inactive : ∀ j, ((engine.share book.sessions call).sessions j).active = false) :
    (book.next engine g stream p (.call call)).Balanced engine logs g stream p := by
  -- The group moves to what is staged for it.
  have hcommitted : engine.committedBy g stream.topic p (book.sessions, call) =
      book.staged g stream p := by
    unfold staged KafkaTransactionBridge.staged
    rw [committedBy_of_subset stream.topic subset, commits, carries, Option.filter_some]
    by_cases hkey : book.sessions.runtime.transactionBridge.groupKey = some g.2.str
    · rw [if_pos (by simpa using hkey), if_pos hkey]
      rfl
    · rw [if_neg (by simpa using hkey), if_neg hkey]
      rfl
  have haccount : (book.next engine g stream p (.call call)).account =
      match book.staged g stream p with
      | none => book.account.commit
      | some n => book.account.commit.put n := by
    have hend : book.accountAtEnd engine (.call call) = book.account.commit := by
      unfold accountAtEnd
      rw [ends, if_neg (by simp)]
      dsimp only
      rw [commits]
      exact if_pos rfl
    unfold next
    dsimp only
    rw [settledBy_of_subset subset, hcommitted, hend]
  have hstaged : (book.next engine g stream p (.call call)).staged g stream p = none :=
    staged_of_blank blank
  have hpending : (book.next engine g stream p (.call call)).account.pending = [] := by
    rw [haccount]
    split <;> rfl
  constructor
  case leased => exact KafkaConsumerEngine.act_leased (.call call) h.leased
  case keyed => exact act_keyed h.keyed
  case opened => exact fun j hj => absurd ((inactive j).symm.trans hj) (by simp)
  case sound =>
    rw [haccount]
    cases hn : book.staged g stream p with
    | none => exact h.sound.commit
    | some n =>
      -- Something is staged, so the group has a member.
      cases hm : book.sessions.runtime.states.get? g with
      | none => exact absurd (hn.symm.trans (h.absent hm).2) (by simp)
      | some m =>
        obtain ⟨-, -, hagrees⟩ := h.member m hm
        rw [hn] at hagrees
        exact (hagrees.commit_staged h.sound).1
  case member =>
    intro m hm
    obtain ⟨hstream, hdecided, hagrees⟩ := h.member m (subset m hm)
    rw [haccount, hstaged]
    refine ⟨hstream, hdecided, ?_⟩
    cases hn : book.staged g stream p with
    | none => exact hagrees.commit
    | some n =>
      rw [hn] at hagrees
      exact (hagrees.commit_staged h.sound).2
  case absent => exact fun _ => ⟨hpending, hstaged⟩
  case idle => exact fun _ => ⟨hpending, hstaged⟩
  case touched => exact fun hne => absurd hpending hne

/-! ### Acknowledgements -/

/-- An action that changes the member of the group and leaves the transactions open. -/
theorem Balanced.of_member (h : book.Balanced engine logs g stream p) {m' : Member}
    (after : (engine.act book.sessions action).runtime.states.get? g = some m')
    (command : m'.state.command.stream = stream)
    (decided : engine.Decided (logs g) stream p (m'.ledger p))
    (sound : (book.next engine g stream p action).account.Sound (engine.Decodes (logs g) stream p))
    (agrees : (book.next engine g stream p action).account.Agrees (m'.ledger p)
      ((book.next engine g stream p action).staged g stream p))
    (idle : (∀ i, ((engine.act book.sessions action).sessions i).active = false) →
      (book.next engine g stream p action).account.pending = [] ∧
        (book.next engine g stream p action).staged g stream p = none)
    (touched : (book.next engine g stream p action).account.pending ≠ [] →
      ∀ i, ((engine.act book.sessions action).sessions i).active = true →
        g ∈ ((engine.act book.sessions action).sessions i).touchedGroups) :
    (book.next engine g stream p action).Balanced engine logs g stream p where
  leased := KafkaConsumerEngine.act_leased action h.leased
  keyed := act_keyed h.keyed
  opened i := act_opened h.leased h.opened i
  sound := sound
  member m hm := by
    obtain rfl : m' = m := Option.some.inj (after.symm.trans hm)
    exact ⟨command, decided, agrees⟩
  absent hnone := absurd (after.symm.trans hnone) (by simp)
  idle := idle
  touched := touched

/-- **An acknowledgement without a transaction** of a delivery to the member of the
group. -/
theorem Balanced.plain (h : book.Balanced engine logs g stream p) {call : SessionCall Token}
    {m : Member} {command : AcknowledgeCommand Token} {env : AcknowledgeEnv}
    (ends : engine.endsUncommitted book.sessions (.call call) = none)
    (commits : engine.committedTransaction (book.sessions, call) = none)
    (before : book.sessions.runtime.states.get? g = some m)
    (after : (engine.share book.sessions call).runtime.states.get? g =
      some (engine.acknowledge m command none env).2.1)
    (outside : SessionAction.InCore book.sessions (.call call) = false)
    (bridge : (engine.share book.sessions call).runtime.transactionBridge =
      book.sessions.runtime.transactionBridge)
    (sessions : ∀ i, (engine.share book.sessions call).sessions i = book.sessions.sessions i)
    (apart : env.commit = none → ∀ c, engine.ValidToken m command env.nowMs c → c.partition = p →
      c.offset = m.original p c.offset → book.StopsBefore g stream p m c.offset) :
    (book.next engine g stream p (.call call)).Balanced engine logs g stream p := by
  obtain ⟨hstream, hdecided, hagrees⟩ := h.member m before
  have hstaged : (book.next engine g stream p (.call call)).staged g stream p =
      book.staged g stream p := by
    show KafkaTransactionBridge.staged (engine.share book.sessions call).runtime.transactionBridge
      _ _ _ = _
    rw [bridge]
    rfl
  have hcommand : (engine.acknowledge m command none env).2.1.state.command.stream = stream := by
    rw [← hstream]
    exact congrArg PollCommand.stream (engine.next_command (.acknowledge command none env))
  have hdecided' := (engine.acknowledge_step (logs g) command none env).decided hstream hdecided
  -- The sessions stay as they are, and so do their transactions.
  have hrest : (book.next engine g stream p (.call call)).account.pending = book.account.pending →
      (book.next engine g stream p (.call call)).account.Sound (engine.Decodes (logs g) stream p) →
      (book.next engine g stream p (.call call)).account.Agrees
        ((engine.acknowledge m command none env).2.1.ledger p) (book.staged g stream p) →
      (book.next engine g stream p (.call call)).Balanced engine logs g stream p := by
    intro hpending hsound hagrees'
    refine h.of_member after hcommand hdecided' hsound (by rw [hstaged]; exact hagrees') ?_ ?_
    · intro hinactive
      rw [hpending, hstaged]
      refine h.idle fun i => ?_
      rw [← sessions i]
      exact hinactive i
    · intro hne i hactive
      rw [hpending] at hne
      change ((engine.share book.sessions call).sessions i).active = true at hactive
      show g ∈ ((engine.share book.sessions call).sessions i).touchedGroups
      rw [sessions i] at hactive ⊢
      exact h.touched hne i hactive
  rcases engine.acknowledge_cases command none env p with hsame | ⟨c, hvalid, here, hstep⟩
  · have haccount := next_account_of_quiet stream ends commits before after
      (by rw [hsame]) (by rw [hsame])
    refine hrest (by rw [haccount]) (by rw [haccount]; exact h.sound) ?_
    rw [haccount, hsame]
    exact hagrees
  obtain ⟨i, hi, -⟩ := hvalid.inflight
  rw [here] at hi
  have hi := Option.isSome_of_eq_some hi
  have hledger : ∀ {L' : Ledger}, (engine.acknowledge m command none env).2.1.ledger p = L' →
      (m.ledger p).AcknowledgeStep c.offset false (KafkaConsumerEngine.MoveFails m command c none env)
        L' → (book.next engine g stream p (.call call)).Balanced engine logs g stream p := by
    intro L' hL' hstep
    cases hstep with
    | failed advances raises =>
      have haccount := next_account_of_quiet stream ends commits before after
        (by rw [hL']; rfl) (by rw [hL']; rfl)
      refine hrest (by rw [haccount]) (by rw [haccount]; exact h.sound) ?_
      rw [haccount, hL']
      exact hagrees.fail hi advances raises
    | moved advances returns =>
      have hcommit : env.commit = none := by
        rw [KafkaConsumerEngine.moveFails_none] at returns
        simpa using returns
      have hat := hagrees.safe.sound.advances_iff.mp advances
      obtain ⟨hnothing, hstops⟩ := apart hcommit c hvalid here hat
      have haccount := next_account_of_moves stream ends commits before after
        (o := c.offset) (n := ((m.ledger p).contiguous c.offset).1) (by rw [hL']; rfl)
        (by rw [hL']; rfl)
      rw [outside, if_neg Bool.false_ne_true] at haccount
      rw [hnothing] at hagrees hrest
      obtain ⟨hsound, hagrees'⟩ := hagrees.settle_moved h.sound hi advances
        fun k hk hunsettled hne => by
          obtain ⟨j, hjk, hoj, hj⟩ := hstops k hk hunsettled hne
          exact ⟨j, hoj, hjk, hj⟩
      refine hrest (by rw [haccount]; rfl) (by rw [haccount]; exact hsound) ?_
      rw [haccount, hL']
      exact hagrees'
    | collected waits =>
      have haccount := next_account_of_settles stream ends commits before after
        (o := c.offset) (by rw [hL']; rfl) (by rw [hL']; rfl)
      rw [outside, if_neg Bool.false_ne_true] at haccount
      refine hrest (by rw [haccount]; rfl) (by rw [haccount]; exact h.sound.settle c.offset) ?_
      rw [haccount, hL']
      exact hagrees.settle hi waits
  exact hledger rfl hstep

section Staging

variable {m : Member} {command : AcknowledgeCommand Token} {env : AcknowledgeEnv}
  {bridge : KafkaTransactionBridge} {c : DeliveryCoordinates}
  (valid : engine.ValidToken m command env.nowMs c) (keyed : bridge.Keyed) (key topic : String)

include valid keyed

/-- An acknowledgement that does not move the group stages nothing. -/
theorem staged_of_stays (stays : (m.contiguous c.partition c.offset).1 ≤
      m.original c.partition c.offset ∨
    KafkaConsumerEngine.MoveFails m command c (some bridge) env) :
    ((engine.acknowledge m command (some bridge) env).2.2.getD bridge).staged key topic p =
      bridge.staged key topic p := by
  rw [valid.transaction_eq, Option.getD_some]
  split
  · next advances =>
    obtain ⟨raised, hraised⟩ := KafkaConsumerEngine.moveFails_some.mp
      (stays.resolve_left (not_le.mpr advances))
    exact KafkaTransactionBridge.staged_of_stage_error keyed hraised ..
  · rfl

/-- One that moves it stages the end of the run, for its group and partition. -/
theorem staged_of_moves
    (advances : m.original c.partition c.offset < (m.contiguous c.partition c.offset).1)
    (returns : ¬KafkaConsumerEngine.MoveFails m command c (some bridge) env) :
    ((engine.acknowledge m command (some bridge) env).2.2.getD bridge).staged key topic p =
      if key = command.consumerGroup.ref.str ∧ topic = command.stream.topic ∧ p = c.partition then
        some (max (m.contiguous c.partition c.offset).1 ((bridge.staged key topic p).getD 0))
      else bridge.staged key topic p := by
  have hstage : (bridge.stageOffset command.consumerGroup.ref.str env.consumerGroupMetadata
      command.stream.topic c.partition (m.contiguous c.partition c.offset).1).1 = .ok () := by
    rw [KafkaConsumerEngine.moveFails_some] at returns
    cases hanswer : (bridge.stageOffset command.consumerGroup.ref.str env.consumerGroupMetadata
      command.stream.topic c.partition (m.contiguous c.partition c.offset).1).1 with
    | error raised => exact absurd ⟨raised, hanswer⟩ returns
    | ok answer => rfl
  rw [valid.transaction_eq, Option.getD_some, if_pos advances]
  exact KafkaTransactionBridge.staged_of_stage_ok keyed hstage ..

/-- The record of another partition or group leaves what is staged for this one. -/
theorem staged_of_other
    (other : ¬(key = command.consumerGroup.ref.str ∧ topic = command.stream.topic ∧ p = c.partition)) :
    ((engine.acknowledge m command (some bridge) env).2.2.getD bridge).staged key topic p =
      bridge.staged key topic p := by
  by_cases hstays : (m.contiguous c.partition c.offset).1 ≤ m.original c.partition c.offset ∨
      KafkaConsumerEngine.MoveFails m command c (some bridge) env
  · exact staged_of_stays valid keyed key topic hstays
  · rw [not_or, not_le] at hstays
    rw [staged_of_moves valid keyed key topic hstays.1 hstays.2, if_neg other]

end Staging

variable (engine) in
/-- What an acknowledgement of a session in a Core transaction leaves. -/
theorem act_acknowledge {i : ℕ} {command : AcknowledgeCommand Token} (env : AcknowledgeEnv)
    {m : Member} {s : RuntimeSessions} (begun : (s.sessions i).ensureBegun = none)
    (active : (s.sessions i).active = true) (before : s.runtime.states.get? command.group = some m) :
    (engine.act s (.call (.acknowledge i command env))).runtime =
        { states := s.runtime.states.set command.group
            (engine.acknowledge m command (some s.runtime.transactionBridge) env).2.1
          transactionBridge :=
            (engine.acknowledge m command (some s.runtime.transactionBridge) env).2.2.getD
              s.runtime.transactionBridge } ∧
      (engine.act s (.call (.acknowledge i command env))).sessions i =
        (s.sessions i).touch command.group := by
  -- The session has begun, so its call is the one of the runtime with the bridge.
  have houtcome : (s.sessions i).acknowledge s.runtime engine command env =
      { answer := (s.runtime.acknowledge engine command (s.sessions i).active env).1
        session := (s.sessions i).touch command.group
        runtime := (s.runtime.acknowledge engine command (s.sessions i).active env).2 } := by
    rw [KafkaAdapterSession.acknowledge_of_begun engine _ _ begun, if_pos active]
    rfl
  constructor
  · show ((s.sessions i).acknowledge s.runtime engine command env).runtime = _
    rw [houtcome, active]
    exact KafkaAdapterRuntime.acknowledge_of_member engine _ before true env
  · show (s.put i ((s.sessions i).acknowledge s.runtime engine command env)).sessions i = _
    rw [RuntimeSessions.put_self, houtcome]

/-- **An acknowledgement in a Core transaction** of a delivery to the member of the
group. -/
theorem Balanced.transactional (h : book.Balanced engine logs g stream p) {i : ℕ} {m : Member}
    {command : AcknowledgeCommand Token} {env : AcknowledgeEnv}
    (begun : (book.sessions.sessions i).ensureBegun = none)
    (active : (book.sessions.sessions i).active = true) (own : command.group = g)
    (topic : command.stream.topic = stream.topic)
    (before : book.sessions.runtime.states.get? g = some m) :
    (book.next engine g stream p (.call (.acknowledge i command env))).Balanced engine logs g stream
      p := by
  obtain ⟨hstream, hdecided, hagrees⟩ := h.member m before
  obtain ⟨hruntime, hsession⟩ := act_acknowledge engine env begun active
    (own ▸ before)
  set bridge := book.sessions.runtime.transactionBridge with hbridge
  set m' := (engine.acknowledge m command (some bridge) env).2.1 with hm'
  have after : (engine.act book.sessions (.call (.acknowledge i command env))).runtime.states.get? g =
      some m' := by
    rw [hruntime, ← own]
    exact Dict.get?_set_self ..
  have hcommand : m'.state.command.stream = stream := by
    rw [← hstream]
    exact congrArg PollCommand.stream (engine.next_command (.acknowledge command (some bridge) env))
  have hdecided' := (engine.acknowledge_step (logs g) command (some bridge) env).decided hstream
    hdecided
  have hends : engine.endsUncommitted book.sessions (.call (.acknowledge i command env)) = none :=
    rfl
  have hinside : SessionAction.InCore book.sessions
      (.call (.acknowledge i command env) : SessionAction Token) = true := active
  have hstays : ((engine.act book.sessions (.call (.acknowledge i command env))).sessions i).active =
      true := by
    rw [hsession]
    exact active
  -- The session still has its transaction, and it has touched the group.
  have hrest : ∀ {staged : Option ℕ}, (book.next engine g stream p
        (.call (.acknowledge i command env))).staged g stream p = staged →
      (book.next engine g stream p (.call (.acknowledge i command env))).account.Sound
        (engine.Decodes (logs g) stream p) →
      (book.next engine g stream p (.call (.acknowledge i command env))).account.Agrees
        (m'.ledger p) staged →
      (book.next engine g stream p (.call (.acknowledge i command env))).Balanced engine logs g
        stream p := by
    rintro staged rfl hsound hagrees'
    refine h.of_member after hcommand hdecided' hsound hagrees' ?_ ?_
    · exact fun hinactive => absurd ((hinactive i).symm.trans hstays) (by simp)
    · intro _ j hj
      have hleased : (engine.act book.sessions (.call (.acknowledge i command env))).Leased :=
        KafkaConsumerEngine.act_leased _ h.leased
      obtain rfl : j = i := hleased.unique j i hj hstays
      rw [hsession, ← own]
      exact List.mem_insert_self
  have hstagedOf : (book.next engine g stream p (.call (.acknowledge i command env))).staged g stream
      p = ((engine.acknowledge m command (some bridge) env).2.2.getD bridge).staged g.2.str
        stream.topic p := by
    show KafkaTransactionBridge.staged
      (engine.act book.sessions (.call (.acknowledge i command env))).runtime.transactionBridge
      _ _ _ = _
    rw [hruntime]
  -- An action that leaves the books and the offset.
  have hquiet : m'.ledger p = m.ledger p →
      ((engine.acknowledge m command (some bridge) env).2.2.getD bridge).staged g.2.str
          stream.topic p = book.staged g stream p →
      (book.next engine g stream p (.call (.acknowledge i command env))).Balanced engine logs g
        stream p := by
    intro hsame hkept
    have haccount := next_account_of_quiet stream hends
      rfl before after (by rw [hsame]) (by rw [hsame])
    refine hrest (hstagedOf.trans hkept) (by rw [haccount]; exact h.sound) ?_
    rw [haccount, hsame]
    exact hagrees
  by_cases hvalid : ∃ c, engine.ValidToken m command env.nowMs c
  swap
  · obtain ⟨raised, hrefused⟩ := engine.acknowledge_of_invalid command (some bridge) env
      (not_exists.mp hvalid)
    refine hquiet (by rw [hm', hrefused]) ?_
    rw [hrefused]
    rfl
  obtain ⟨c, hvalid⟩ := hvalid
  by_cases here : c.partition = p
  swap
  · -- The record is of another partition, and so is its offset.
    refine hquiet ?_ (staged_of_other hvalid h.keyed _ _ fun heq => here heq.2.2.symm)
    rw [hm', hvalid.acknowledge_eq]
    exact KafkaConsumerEngine.ledger_acknowledgeDelivery_of_ne command (some bridge) env here
  obtain ⟨inflight, hget, -⟩ := hvalid.inflight
  rw [here] at hget
  have hi := Option.isSome_of_eq_some hget
  have hreadable : engine.Decodes (logs g) stream p c.offset :=
    hdecided.delivered c.offset (hagrees.safe.inflight_delivered c.offset hi)
  have hsound := h.sound.pend hreadable (hagrees.covered_of_inflight h.sound hi)
  have hstep : (m.ledger p).AcknowledgeStep c.offset true
      (KafkaConsumerEngine.MoveFails m command c (some bridge) env) (m'.ledger p) := by
    rw [hm', hvalid.acknowledge_eq]
    exact KafkaConsumerEngine.acknowledgeDelivery_step command (some bridge) env hvalid.accepted here
  generalize hL' : m'.ledger p = L' at hstep hrest
  subst here
  cases hstep with
  | failed advances raises =>
    have haccount := next_account_of_quiet stream hends
      rfl before after (by rw [hL']; rfl) (by rw [hL']; rfl)
    refine hrest (hstagedOf.trans (staged_of_stays hvalid h.keyed _ _ (Or.inr raises)))
      (by rw [haccount]; exact h.sound) ?_
    rw [haccount]
    exact hagrees.fail hi advances raises
  | moved advances returns =>
    have haccount := next_account_of_settles stream hends
      rfl before after (o := c.offset) (by rw [hL']; rfl) (by rw [hL']; rfl)
    rw [hinside, if_pos rfl] at haccount
    have hkey : g.2.str = command.consumerGroup.ref.str := by
      rw [← own]
      rfl
    have hmoves := staged_of_moves (p := c.partition) hvalid h.keyed g.2.str stream.topic advances
      returns
    rw [if_pos ⟨hkey, topic.symm, rfl⟩, max_eq_left] at hmoves
    · refine hrest (hstagedOf.trans hmoves) (by rw [haccount]; exact hsound) ?_
      rw [haccount]
      exact hagrees.pend_moved hi advances
    · -- What was staged is the safe offset, which the run begins at.
      cases hstaged : bridge.staged g.2.str stream.topic c.partition with
      | none => exact Nat.zero_le _
      | some n =>
        have hsafe := hagrees.staged_eq n hstaged
        have hlt : m.original c.partition c.offset < (m.contiguous c.partition c.offset).1 := advances
        rw [show m.original c.partition c.offset = n from Ledger.original_of_some hsafe] at hlt
        exact hlt.le
  | collected waits =>
    have haccount := next_account_of_settles stream hends
      rfl before after (o := c.offset) (by rw [hL']; rfl) (by rw [hL']; rfl)
    rw [hinside, if_pos rfl] at haccount
    refine hrest (hstagedOf.trans (staged_of_stays hvalid h.keyed _ _ (Or.inl waits)))
      (by rw [haccount]; exact hsound) ?_
    rw [haccount]
    exact hagrees.pend hi waits

/-! ### Deliveries -/

section Quiet

variable {m : Member} {log : PartitionLog} {a : Action Token} {L' : Ledger} {account : Account}
  {staged : Option ℕ}

/-- Only an acknowledgement settles a record. -/
theorem resolved_of_poll (step : KafkaConsumerEngine.PartitionStep engine log m p a L')
    (acknowledges : ∀ command transaction env, a ≠ .acknowledge command transaction env)
    (sendsBack : ∀ command env, a ≠ .negativeAcknowledge command env) :
    L'.resolved = (m.ledger p).resolved := by
  cases step with
  | rejected => exact Ledger.reject_resolved ..
  | delivered => exact Ledger.handOut_resolved ..
  | acknowledged => exact absurd rfl (acknowledges _ _ _)
  | deadLettered | dropped | sought | pausedAt => exact absurd rfl (sendsBack _ _)
  | repositioned target => cases target <;> rfl
  | _ => rfl

/-- **A step that settles nothing** leaves the account as it was. -/
theorem agrees_of_quiet (step : KafkaConsumerEngine.PartitionStep engine log m p a L')
    (stays : a.Stays) (h : account.Agrees (m.ledger p) staged)
    (sound : account.Sound (engine.Decodes log stream p)) (command : m.state.command.stream = stream)
    (opens : ∀ message env, a = .receive (.record message) env → message.partition = p →
      (m.ledger p).safeNext = none →
        (∀ n ∈ account.positions, n ≤ message.offset) ∧
          ∀ k, account.Unsettled k → message.offset ≤ k)
    (quiet : L'.resolved = (m.ledger p).resolved) :
    L'.commits = (m.ledger p).commits ∧ account.Agrees L' staged := by
  have hsafe := step.safeCommit stays h.safe
  -- What was delivered has set the safe offset.
  have hset : ∀ o, o ∈ (m.ledger p).delivered → (m.ledger p).safeNext = none → False := by
    intro o ho hnone
    rw [(h.safe.unset hnone).1] at ho
    exact List.not_mem_nil ho
  have hflight : ∀ {o : ℕ} {i : Inflight}, (m.ledger p).inflight o = some i →
      (m.ledger p).safeNext = none → False :=
    fun hi => hset _ (h.safe.inflight_delivered _ (Option.isSome_of_eq_some hi))
  have hpaused : ∀ {paused : PausedDelivery}, (m.ledger p).paused = some paused →
      (m.ledger p).safeNext = none → False := fun hp => hset _ (h.safe.paused_delivered _ hp)
  have hback : ∀ {command : NegativeAcknowledgeCommand Token} {nowMs : ℕ}
      {c : DeliveryCoordinates}, engine.GoesBack m command nowMs c → c.partition = p →
      (m.ledger p).safeNext = none → False := by
    rintro command nowMs c back rfl
    obtain ⟨i, hi, -⟩ := back.inflight
    exact hflight hi
  have hack : ∀ {c : DeliveryCoordinates} {transactional : Bool} {fails : Prop} {L' : Ledger},
      ((m.ledger p).inflight c.offset).isSome →
      (m.ledger p).AcknowledgeStep c.offset transactional fails L' →
      L'.resolved = (m.ledger p).resolved →
      L'.commits = (m.ledger p).commits ∧ account.Agrees L' staged := by
    intro c transactional fails L' hi hstep hquiet
    cases hstep with
    | failed advances raises => exact ⟨rfl, h.fail hi advances raises⟩
    | moved => cases transactional <;> exact absurd hquiet (List.cons_ne_self _ _)
    | collected => exact absurd hquiet (List.cons_ne_self _ _)
  cases step with
  | idle => exact ⟨rfl, h⟩
  | @rewound env offset reached =>
    obtain ⟨i, hi, -⟩ := (KafkaConsumerEngine.earliestExpired_of_mem reached).1
    exact ⟨rfl, h.mono hsafe rfl rfl fun hnone => (hflight hi hnone).elim⟩
  | resumeSought waiting | resumed waiting | stuck _ _ waiting | heldBack _ _ waiting =>
    exact ⟨rfl, h.mono hsafe rfl rfl fun hnone => (hpaused waiting hnone).elim⟩
  | @rejected message env raised may here decodes =>
    subst here
    rw [command] at decodes
    exact ⟨Ledger.reject_commits .., h.reject sound hsafe
      (KafkaConsumerEngine.not_decodes_of_error may decodes) (opens message env rfl rfl)⟩
  | @delivered message env event expiresAtMs may here =>
    exact ⟨Ledger.handOut_commits .., h.handOut event _ _ hsafe (opens message env rfl here)⟩
  | acknowledged valid here hstep =>
    subst here
    obtain ⟨i, hi, -⟩ := valid.inflight
    exact hack (Option.isSome_of_eq_some hi) hstep quiet
  | deadLettered valid here hstep =>
    subst here
    obtain ⟨i, hi, -⟩ := valid.inflight
    exact hack (Option.isSome_of_eq_some hi) hstep quiet
  | dropped back here | sought back here | pausedAt back here =>
    exact ⟨rfl, h.mono hsafe rfl rfl fun hnone => (hback back here hnone).elim⟩
  | revoked => exact stays.elim
  | repositioned => exact stays.elim

/-- A negative acknowledgement that publishes no dead letter settles nothing. -/
theorem resolved_of_unpublished {command : NegativeAcknowledgeCommand Token}
    {env : NegativeAcknowledgeEnv}
    (unpublished : ∀ publication,
      engine.deadLetterPublish m command env.nowMs env.utcNow = some publication →
        (env.publish publication).isOk = false) :
    ((engine.negativeAcknowledge m command env).2.ledger p).resolved = (m.ledger p).resolved := by
  -- A dead letter that is not published raises before the record is acknowledged.
  cases hpublish : engine.deadLetterPublish m command env.nowMs env.utcNow with
  | some publication =>
    rw [KafkaConsumerEngine.negativeAcknowledge_of_publication hpublish]
    cases hanswer : env.publish publication with
    | error raised => rfl
    | ok targetEventId =>
      have hfalse := unpublished publication hpublish
      simp [hanswer, Except.isOk, Except.toBool] at hfalse
  | none =>
  unfold KafkaConsumerEngine.deadLetterPublish at hpublish
  unfold KafkaConsumerEngine.negativeAcknowledge
  cases hdecodes : engine.cursor.decodeDelivery env.nowMs command.delivery
    command.subscription.ref command.consumerGroup.ref command.stream.topic with
  | error failure => rfl
  | ok c =>
  rw [hdecodes] at hpublish
  dsimp only at hpublish ⊢
  unfold KafkaConsumerEngine.negativeAcknowledgeDelivery
  cases hguard : KafkaConsumerEngine.negativeAcknowledgeGuard m c with
  | error failure => rfl
  | ok inflight =>
  rw [hguard] at hpublish
  dsimp only at hpublish ⊢
  cases href : KafkaConsumerEngine.deadLetterStream command c with
  | some ref =>
    rw [href] at hpublish
    dsimp only at hpublish ⊢
    unfold KafkaConsumerEngine.deadLetter
    cases htarget : engine.settings.stream ref with
    | error failure => rfl
    | ok target =>
      rw [htarget] at hpublish
      simp at hpublish
  | none =>
    dsimp only
    -- The redelivery drops the record from those in flight, and resolves none.
    have hdrop : ((m.dropInflight c.partition c.offset).ledger p).resolved =
        (m.ledger p).resolved := by
      rw [Member.ledger_dropInflight]
      split <;> rfl
    have hseek : (((m.dropInflight c.partition c.offset).note c.partition
        (.seek c.offset)).ledger p).resolved = (m.ledger p).resolved := by
      rw [Member.ledger_note, ← hdrop]
      split <;> rfl
    rcases KafkaConsumerEngine.scheduleRedelivery_cases command c env with
      ⟨-, heq⟩ | ⟨-, -, heq⟩ | ⟨-, -, heq⟩ <;> rw [heq]
    · exact hdrop
    · exact hseek
    · rw [Member.ledger_setPaused, Member.ledger_note]
      split <;> exact hseek

end Quiet

/-- **A call that settles nothing** and moves the group nowhere. -/
theorem Balanced.quiet (h : book.Balanced engine logs g stream p) {call : SessionCall Token}
    {m m' : Member} (ends : engine.endsUncommitted book.sessions (.call call) = none)
    (commits : engine.committedTransaction (book.sessions, call) = none)
    (before : book.sessions.runtime.states.get? g = some m)
    (after : (engine.share book.sessions call).runtime.states.get? g = some m')
    (bridge : (engine.share book.sessions call).runtime.transactionBridge =
      book.sessions.runtime.transactionBridge)
    (sessions : ∀ i, (engine.share book.sessions call).sessions i = book.sessions.sessions i)
    (command : m'.state.command.stream = stream)
    (decided : engine.Decided (logs g) stream p (m'.ledger p))
    (resolved : (m'.ledger p).resolved = (m.ledger p).resolved)
    (moves : (m'.ledger p).commits = (m.ledger p).commits)
    (agrees : book.account.Agrees (m'.ledger p) (book.staged g stream p)) :
    (book.next engine g stream p (.call call)).Balanced engine logs g stream p := by
  -- Such a call ends no transaction and commits nothing, so the account stays as it is.
  have haccount := next_account_of_quiet stream ends commits before after resolved moves
  have hstaged : (book.next engine g stream p (.call call)).staged g stream p =
      book.staged g stream p := staged_of_bridge bridge
  refine h.of_member after command decided ?_ ?_ ?_ ?_
  · rw [haccount]
    exact h.sound
  · rw [haccount, hstaged]
    exact agrees
  · intro hinactive
    rw [haccount, hstaged]
    refine h.idle fun i => ?_
    rw [← sessions i]
    exact hinactive i
  · intro hpending i hactive
    rw [haccount] at hpending
    change ((engine.share book.sessions call).sessions i).active = true at hactive
    show g ∈ ((engine.share book.sessions call).sessions i).touchedGroups
    rw [sessions i] at hactive ⊢
    exact h.touched hpending i hactive

/-- Where a member reads on before its first delivery, no unsettled record was passed. -/
theorem Balanced.opens (h : book.Balanced engine logs g stream p) {m : Member}
    (found : book.sessions.runtime.states.get? g = some m) {message : Message} {env : DeliveryEnv}
    (may : MayReturn (logs g) m message) (here : message.partition = p)
    (reads : action = .call (.operate g (.receive (.record message) env)))
    (starts : book.StartsAtPosition logs g p action) (early : book.StartsEarly g p action)
    (unset : (m.ledger p).safeNext = none) :
    (∀ n ∈ book.account.positions, n ≤ message.offset) ∧
      ∀ k, book.account.Unsettled k → message.offset ≤ k := by
  subst here
  obtain ⟨-, -, hagrees⟩ := h.member m found
  have hunreadable : ∀ k, logs g message.partition k = none →
      ¬engine.Decodes (logs g) stream message.partition k := by
    rintro k hnone ⟨message', event, hlog, -⟩
    exact absurd (hlog.symm.trans hnone) (by simp)
  refine hagrees.opens h.sound (fun f hf => ?_) (fun hfetch => ?_) unset
  · obtain ⟨hle, hgap⟩ := may.next f hf
    exact ⟨hle, fun k hfk hlt => hunreadable k (hgap k hfk hlt)⟩
  · have hfirst : KafkaConsumerEngine.readsFirst g message.partition book.sessions action =
        some message.offset := by
      rw [reads]
      unfold KafkaConsumerEngine.readsFirst
      dsimp only
      rw [found]
      exact if_pos ⟨rfl, rfl, by simp [hfetch]⟩
    constructor
    · intro n hn
      obtain ⟨hle, hgap⟩ := starts _ hfirst n hn
      exact ⟨hle, fun k hnk hlt => hunreadable k (hgap k hlt hnk)⟩
    · intro hempty k hk
      -- Nothing is pending before the first delivery.
      have hpending := (hagrees.untouched unset).1
      have habandoned : k ∈ book.account.abandoned := by
        refine hk.acknowledged.resolve_left fun hmem => ?_
        rw [hpending] at hmem
        exact List.not_mem_nil hmem
      exact early _ hfirst hempty k habandoned hk.unsettled

/-- **A delivery**, or another operation of a member that needs no session. -/
theorem Balanced.operate (h : book.Balanced engine logs g stream p) {group : GroupRef}
    {a : Action Token} (may : KafkaConsumerEngine.MayCall logs book.sessions (.operate group a))
    (keeps : a.KeepsAssignment) (starts : book.StartsAtPosition logs g p (.call (.operate group a)))
    (apart : book.KeepsApart engine g stream p (.call (.operate group a))) :
    (book.next engine g stream p (.call (.operate group a))).Balanced engine logs g stream p := by
  cases found : book.sessions.runtime.states.get? group with
  | none =>
    have hact : engine.act book.sessions (.call (.operate group a)) = book.sessions :=
      KafkaConsumerEngine.share_operate_of_none found
    refine h.frame rfl (fun call heq => by cases heq; rfl) (by rw [hact])
      (staged_of_bridge (by rw [hact])) fun i hactive => ?_
    rw [hact]
    exact ⟨hactive, id⟩
  | some m =>
  have hact : engine.act book.sessions (.call (.operate group a)) =
      book.sessions.setMember group (engine.next m a) :=
    KafkaConsumerEngine.share_operate_of_some found
  have hstaged : (book.next engine g stream p (.call (.operate group a))).staged g stream p =
      book.staged g stream p := staged_of_bridge (by rw [hact]; rfl)
  by_cases hgroup : group = g
  swap
  · -- The member of another group.
    refine h.frame rfl (fun call heq => by cases heq; rfl) ?_ hstaged fun i hactive => ?_
    · rw [hact]
      exact Dict.get?_set_of_ne _ _ (Ne.symm hgroup)
    · rw [hact]
      exact ⟨hactive, id⟩
  subst hgroup
  have after : (engine.act book.sessions (.call (.operate group a))).runtime.states.get? group =
      some (engine.next m a) := by
    rw [hact]
    exact Dict.get?_set_self ..
  obtain ⟨hstream, hdecided, hagrees⟩ := h.member m found
  have hallowed := may.2 m found
  have hcommand : (engine.next m a).state.command.stream = stream := by
    rw [← hstream]
    exact congrArg PollCommand.stream (engine.next_command a)
  have hstep := engine.next_step (logs group) (p := p) hallowed
  have hdecided' := hstep.decided hstream hdecided
  have hstays : a.Stays := by
    cases a <;> first | exact trivial | exact keeps
  have hbridge : (engine.act book.sessions (.call (.operate group a))).runtime.transactionBridge =
      book.sessions.runtime.transactionBridge := by rw [hact]; rfl
  have hsessions : ∀ i, (engine.act book.sessions (.call (.operate group a))).sessions i =
      book.sessions.sessions i := fun i => by rw [hact]; rfl
  have hquiet : ((engine.next m a).ledger p).resolved = (m.ledger p).resolved →
      (book.next engine group stream p (.call (.operate group a))).Balanced engine logs group stream
        p := by
    intro hresolved
    obtain ⟨hmoves, hagrees'⟩ := agrees_of_quiet hstep hstays hagrees h.sound hstream
      (fun message env heq here hunset => by
        subst heq
        exact h.opens found hallowed here rfl starts apart.starts hunset) hresolved
    exact h.quiet rfl rfl found after hbridge hsessions hcommand hdecided' hresolved hmoves hagrees'
  -- An acknowledgement without a transaction is held to the condition.
  have hplain : ∀ {command : AcknowledgeCommand Token} {env : AcknowledgeEnv},
      KafkaConsumerEngine.plainAck engine book.sessions (.call (.operate group a)) =
        some (group, command, env) →
      engine.next m a = (engine.acknowledge m command none env).2.1 →
      (book.next engine group stream p (.call (.operate group a))).Balanced engine logs group stream
        p := by
    intro command env hack hnext
    refine h.plain rfl rfl found (after.trans (congrArg some hnext)) rfl hbridge hsessions ?_
    intro hcommit c hvalid here hat
    refine apart.commits _ hack rfl (by simp [hcommit]) m found c ?_ ?_ here hat
    · rw [hvalid.decodes]
      rfl
    · rw [hvalid.accepted]
      rfl
  cases a with
  | acknowledge command transaction env =>
    obtain rfl : transaction = none := may.1
    exact hplain rfl rfl
  | negativeAcknowledge command env =>
    by_cases hpublished : ∃ publication,
        engine.deadLetterPublish m command env.nowMs env.utcNow = some publication ∧
          (env.publish publication).isOk = true
    · obtain ⟨publication, hpublication, hok⟩ := hpublished
      have hack : KafkaConsumerEngine.plainAck engine book.sessions
          (.call (.operate group (.negativeAcknowledge command env))) =
            some (group, command.toAcknowledgeCommand, env.acknowledge) := by
        unfold KafkaConsumerEngine.plainAck
        dsimp only
        rw [found, Option.bind_some, hpublication, Option.bind_some]
        exact if_pos hok
      refine hplain hack ?_
      show (engine.negativeAcknowledge m command env).2 = _
      rw [KafkaConsumerEngine.negativeAcknowledge_of_publication hpublication]
      cases hanswer : env.publish publication with
      | error raised => simp [hanswer, Except.isOk, Except.toBool] at hok
      | ok targetEventId =>
        dsimp only
        rcases engine.acknowledge m command.toAcknowledgeCommand none env.acknowledge with
          ⟨raised | acknowledged, m', transaction⟩
        · rfl
        · dsimp only
          cases env.emit <;> rfl
    · refine hquiet (resolved_of_unpublished fun publication hpublication => ?_)
      rw [not_exists] at hpublished
      simpa using fun hok => hpublished publication ⟨hpublication, hok⟩
  | expireInflight env =>
    exact hquiet (resolved_of_poll hstep (fun _ _ _ => by simp) fun _ _ => by simp)
  | resumeDue env =>
    exact hquiet (resolved_of_poll hstep (fun _ _ _ => by simp) fun _ _ => by simp)
  | receive response env =>
    exact hquiet (resolved_of_poll hstep (fun _ _ _ => by simp) fun _ _ => by simp)
  | assigned partitions => exact keeps.elim
  | revoked partitions => exact keeps.elim
  | groupPosition command env => exact keeps.elim

end AccountBook

end MeridianKafka
