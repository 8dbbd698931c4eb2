import MeridianKafka.Consumer.Tokens
import MeridianKafka.Transactions.Session

/-!
# Tokens of discarded sessions

`recover` discards the consumer session of a group: its member leaves the engine, and the
next call that needs one joins the group anew with empty books. The delivery tokens of the
old session are still around, and nothing should accept them any more.

What keeps the tokens of two sessions apart is the assignment epoch and the attempt
number, and both live in the books that were discarded. A new session counts its epochs
from 0 and its attempts from 1 as the old one did, so a record that is redelivered after
the first assignment has the coordinates of its first delivery, and the old token is good
again (`discarded_token_is_accepted`).

`SessionBook` is an engine with all its groups, beside the tokens that their sessions have
issued. A discarded token is rejected in every run that brings none within reach: no
record is handed out with the epoch and the attempt of such a token, and no rebalance
gives a delivery in flight the epoch of one (`fenced_of_outOfReach`).
-/

namespace MeridianKafka

open Framework

/-- A Subscription and a ConsumerGroup as a token names them. -/
def scopeOfGroup (group : GroupRef) : String × String := (group.1.str, group.2.str)

/-- The groups of an engine, and the tokens of their sessions. -/
structure SessionBook (Token : Type) where
  /-- `_states`. -/
  states : Dict GroupRef Member := .empty
  closed : Bool := false
  /-- The tokens of the sessions that the engine has. -/
  issued : List (GroupRef × Token) := []
  /-- The tokens of the sessions that were discarded by `recover`. -/
  discarded : List Token := []

/-- A step of an engine with several groups. -/
inductive EngineCall (Token : Type)
  /-- `_state`, for a call that joins its group when it has no session. -/
  | join (command : PollCommand)
  | operate (group : GroupRef) (action : Action Token)
  /-- `recover`, whatever closing the consumer raises. -/
  | recover (group : GroupRef)
  | close

/-- The group that the command of a call names. -/
def Action.addressee {Token : Type} : Action Token → Option GroupRef
  | .acknowledge command _ _ => some command.group
  | .negativeAcknowledge command _ => some command.group
  | .groupPosition command _ => some (command.subscription.ref, command.consumerGroup.ref)
  | _ => none

/-- The token that a call presents. -/
def Action.presents {Token : Type} : Action Token → Option Token
  | .acknowledge command _ _ => some command.delivery
  | .negativeAcknowledge command _ => some command.delivery
  | _ => none

namespace SessionBook

variable {Token : Type} (engine : KafkaConsumerEngine Token) (book : SessionBook Token)

/-- `_existing_state`. -/
def existingState (group : GroupRef) : Except Failure Member :=
  match book.states.get? group with
  | some m => .ok m
  | none =>
    .error
      { kind := .deliveryRejected
        message := "delivery has no active ConsumerGroup session" }

/-- The book after a step. A group without a session has nothing to operate on. -/
def next (book : SessionBook Token) : EngineCall Token → SessionBook Token
  | .join command =>
    if book.closed || (book.states.get? command.group).isSome then book
    else { book with states := book.states.set command.group (Member.create command) }
  | .operate group action =>
    match book.existingState group with
    | .error _ => book
    | .ok m =>
      { book with
        states := book.states.set group (engine.next m action)
        issued := book.issued ++
          ((engine.handedOut m action).map fun d => (group, d.token)).toList }
  | .recover group =>
    { book with
      states := book.states.erase group
      issued := book.issued.filter fun e => e.1 ≠ group
      discarded := book.discarded ++ (book.issued.filter fun e => e.1 = group).map Prod.snd }
  | .close => { book with states := .empty, closed := true, issued := [] }

/-- An engine with all its groups. A command goes to the group it names; the client may
return any record. -/
def machine : Machine (SessionBook Token) (EngineCall Token) where
  allowed := fun _ call =>
    match call with
    | .operate group action => ∀ addressee ∈ action.addressee, addressee = group
    | _ => True
  next := next engine

/-- The call raises, and the engine and the transaction are as they were. -/
def Rejected (m : Member) : Action Token → Prop
  | .acknowledge command transaction env =>
    ∃ raised, engine.acknowledge m command transaction env = (.error raised, m, transaction)
  | .negativeAcknowledge command env =>
    ∃ raised, engine.negativeAcknowledge m command env = (.error raised, m)
  | _ => False

/-- A call with the token of a discarded session is rejected, by the session of the group
it names or because the group has none. -/
def Fenced : EngineCall Token → Prop
  | .operate group action => ∀ value ∈ book.discarded, action.presents = some value →
      (∃ failure, book.existingState group = .error failure) ∨
        ∃ m, book.existingState group = .ok m ∧ Rejected engine m action
  | _ => True

end SessionBook

/-! ### What a token is accepted for -/

/-- A delivery in flight answers to the key: a call that presents it is accepted. -/
def Member.Reaches (m : Member) (key : DeliveryKey) : Prop :=
  key.assignmentEpoch = m.state.assignmentEpoch ∧
    ∃ i, m.state.inflight.get? (key.partition, key.offset) = some i ∧ i.attempt = key.attempt

namespace KafkaConsumerEngine

variable {Token : Type} (engine : KafkaConsumerEngine Token) (m : Member)

/-- The step brings the key within the member's reach: a record is handed out with its
epoch and attempt, or a rebalance moves the member to its epoch while such a delivery
stays in flight. -/
def Brings : Action Token → DeliveryKey → Prop
  | .receive response env, key => ∃ d ∈ engine.handedOut m (.receive response env),
      key = ⟨d.position.partition, d.position.offset, m.state.assignmentEpoch, d.attempt⟩
  | .assigned _, key => key.assignmentEpoch = m.state.assignmentEpoch + 1 ∧
      ∃ i ∈ m.state.inflight.get? (key.partition, key.offset), i.attempt = key.attempt
  | .revoked partitions, key => key.partition ∉ partitions ∧
      key.assignmentEpoch = m.state.assignmentEpoch + 1 ∧
      ∃ i ∈ m.state.inflight.get? (key.partition, key.offset), i.attempt = key.attempt
  | _, _ => False

instance (a : Action Token) (key : DeliveryKey) : Decidable (engine.Brings m a key) :=
  match a with
  | .receive _ _ => inferInstanceAs (Decidable (∃ d ∈ _, key = _))
  | .assigned _ => inferInstanceAs (Decidable (_ ∧ ∃ i ∈ _, _))
  | .revoked _ => inferInstanceAs (Decidable (_ ∧ _ ∧ ∃ i ∈ _, _))
  | .expireInflight _ | .resumeDue _ | .acknowledge _ _ _ | .negativeAcknowledge _ _
  | .groupPosition _ _ => isFalse id

variable {engine m}

/-- **One step** reaches what was within reach, and what it brings. -/
theorem reaches_of_next {a : Action Token} {key : DeliveryKey}
    (h : (engine.next m a).Reaches key) : m.Reaches key ∨ engine.Brings m a key := by
  obtain ⟨hepoch, i, hget, hattempt⟩ := h
  -- Within an assignment the epoch stays, and what is in flight was in flight.
  have hstays : ∀ keeps : a.KeepsAssignment,
      (∀ response env, a ≠ .receive response env) → m.Reaches key := by
    intro keeps hidle
    have hallowed : a.Allowed (fun _ _ => none) m := by
      cases a with
      | receive response env => exact absurd rfl (hidle response env)
      | _ => trivial
    have hstep := engine.next_step (p := key.partition) (fun _ _ => none) hallowed
    rw [engine.next_keeps assignmentEpoch_ignoresBooks keeps] at hepoch
    exact ⟨hepoch, i, (hstep.withdraws keeps hidle).1 _ _ hget, hattempt⟩
  cases a with
  | receive response env =>
    rw [engine.next_keeps assignmentEpoch_ignoresBooks (a := .receive response env) trivial]
      at hepoch
    change (engine.receive m response env).2.state.inflight.get? _ = some i at hget
    rcases receive_cases engine m response env with
      ⟨-, hinflight, -⟩ | ⟨message, d, rfl, hsome, hout⟩
    · rw [hinflight] at hget
      exact Or.inl ⟨hepoch, i, hget, hattempt⟩
    · obtain ⟨event, expiresAtMs, hinflight⟩ := hout.inflight
      rw [hinflight, Dict.get?_set] at hget
      split at hget
      · next heq =>
        -- The record that is handed out.
        obtain rfl := Option.some.inj hget
        obtain ⟨hp, ho⟩ := Prod.mk.inj heq
        have hhere := hout.here
        rw [Delivery.of, Bool.and_eq_true, decide_eq_true_eq, decide_eq_true_eq] at hhere
        refine Or.inr ⟨d, hsome, ?_⟩
        rw [hhere.1, hhere.2, ← hp, ← ho, ← hepoch]
        change d.attempt = key.attempt at hattempt
        rw [hattempt]
      · exact Or.inl ⟨hepoch, i, hget, hattempt⟩
  | assigned partitions => exact Or.inr ⟨hepoch, i, hget, hattempt⟩
  | revoked partitions =>
    change (m.revoked partitions).state.inflight.get? _ = some i at hget
    have hkept := Option.filter_eq_some_iff.mp ((Dict.get?_filter ..).symm.trans hget)
    exact Or.inr ⟨by simpa using hkept.2, hepoch, i, hkept.1, hattempt⟩
  | groupPosition command env =>
    change (engine.groupPosition m command env).2.state.inflight.get? _ = some i at hget
    change key.assignmentEpoch = (engine.groupPosition m command env).2.state.assignmentEpoch
      at hepoch
    rcases engine.groupPosition_member command env with heq | ⟨target, heq⟩ <;>
      rw [heq] at hget hepoch
    · exact Or.inl ⟨hepoch, i, hget, hattempt⟩
    · simp [Member.reposition] at hget
  | expireInflight env => exact Or.inl (hstays trivial fun _ _ => by simp)
  | resumeDue env => exact Or.inl (hstays trivial fun _ _ => by simp)
  | acknowledge command transaction env => exact Or.inl (hstays trivial fun _ _ => by simp)
  | negativeAcknowledge command env => exact Or.inl (hstays trivial fun _ _ => by simp)

/-- A call that presents a token beyond the member's reach is rejected. -/
theorem rejected_of_not_reaches {keyOf : Token → DeliveryKey}
    {scopeOf : Token → String × String} (carries : engine.cursor.CarriesKey keyOf)
    (scopes : engine.cursor.CarriesScope scopeOf) {a : Action Token} {value : Token}
    {group : GroupRef} (presents : a.presents = some value)
    (addressed : ∀ addressee ∈ a.addressee, addressee = group)
    (far : scopeOf value = scopeOfGroup group → ¬m.Reaches (keyOf value)) :
    SessionBook.Rejected engine m a := by
  -- A token is presented by an acknowledgement, or by a negative one.
  cases a with
  | acknowledge command transaction env =>
    obtain rfl := Option.some.inj presents
    obtain rfl := addressed _ rfl
    refine engine.acknowledge_of_invalid command transaction env fun c hvalid => ?_
    -- What passes the guard has its delivery in flight, and then the token reaches it.
    have haccepts : engine.Accepts m command.delivery c (.acknowledge command transaction env) :=
      ⟨rfl, hvalid.decodes, hvalid.accepted⟩
    rw [carries.read _ _ _ _ _ _ hvalid.decodes] at far
    exact far (scopes.read _ _ _ _ _ _ hvalid.decodes) haccepts.inflight
  | negativeAcknowledge command env =>
    obtain rfl := Option.some.inj presents
    obtain rfl := addressed _ rfl
    change ∃ raised, engine.negativeAcknowledge m command env = (.error raised, m)
    unfold negativeAcknowledge
    cases hdecodes : engine.cursor.decodeDelivery env.nowMs command.delivery
      command.subscription.ref command.consumerGroup.ref command.stream.topic with
    | error failure => exact ⟨_, rfl⟩
    | ok c =>
      dsimp only
      have hkey := carries.read _ _ _ _ _ _ hdecodes
      unfold negativeAcknowledgeDelivery
      cases hguard : negativeAcknowledgeGuard m c with
      | error failure => exact ⟨_, rfl⟩
      | ok inflight =>
        have haccepts : engine.Accepts m command.delivery c
            (.negativeAcknowledge command env) := ⟨rfl, hdecodes, inflight, hguard⟩
        rw [hkey] at far
        exact absurd haccepts.inflight (far (scopes.read _ _ _ _ _ _ hdecodes))
  | _ => simp [Action.presents] at presents

end KafkaConsumerEngine

/-! ### The discarded tokens stay out of reach -/

namespace SessionBook

variable {Token : Type} {engine : KafkaConsumerEngine Token} {book : SessionBook Token}

theorem next_operate_of_none {group : GroupRef} {action : Action Token}
    (h : book.states.get? group = none) : next engine book (.operate group action) = book := by
  dsimp only [next, existingState]
  rw [h]

theorem next_operate {group : GroupRef} {action : Action Token} {m : Member}
    (h : book.states.get? group = some m) :
    next engine book (.operate group action) =
      { book with
        states := book.states.set group (engine.next m action)
        issued := book.issued ++
          ((engine.handedOut m action).map fun d => (group, d.token)).toList } := by
  dsimp only [next, existingState]
  rw [h]

/-- The step brings no token of a discarded session within the reach of its group. -/
def OutOfReach (engine : KafkaConsumerEngine Token) (keyOf : Token → DeliveryKey)
    (scopeOf : Token → String × String) (book : SessionBook Token) : EngineCall Token → Prop
  | .operate group action => ∀ m ∈ book.states.get? group,
      ∀ value ∈ book.discarded, scopeOf value = scopeOfGroup group →
        ¬engine.Brings m action (keyOf value)
  | _ => True

instance (engine : KafkaConsumerEngine Token) (keyOf : Token → DeliveryKey)
    (scopeOf : Token → String × String) (book : SessionBook Token) :
    DecidablePred (OutOfReach engine keyOf scopeOf book)
  | .operate _ _ => inferInstanceAs (Decidable (∀ m ∈ _, ∀ value ∈ _, _ → ¬_))
  | .join _ | .recover _ | .close => isTrue trivial

instance (engine : KafkaConsumerEngine Token) (book : SessionBook Token) :
    DecidablePred ((machine engine).allowed book)
  | .operate _ _ => inferInstanceAs (Decidable (∀ addressee ∈ _, _))
  | .join _ | .recover _ | .close => isTrue trivial

instance (engine : KafkaConsumerEngine Token) (book : SessionBook Token)
    (run : List (EngineCall Token)) : Decidable ((machine engine).Legal book run) :=
  inferInstanceAs (Decidable (∀ x ∈ (machine engine).steps book run,
    (machine engine).allowed x.1 x.2))

/-- A group is joined under references that its scope tells apart. -/
def Apart (groupOf : String × String → GroupRef) : EngineCall Token → Prop
  | .join command => groupOf (scopeOfGroup command.group) = command.group
  | _ => True

/-- What the tokens have to do with the members. -/
structure FenceInvariant (keyOf : Token → DeliveryKey) (scopeOf : Token → String × String)
    (groupOf : String × String → GroupRef) (book : SessionBook Token) : Prop where
  member : ∀ group m, book.states.get? group = some m →
    m.state.command.group = group ∧ groupOf (scopeOfGroup group) = group
  issued : ∀ e ∈ book.issued, scopeOf e.2 = scopeOfGroup e.1 ∧ groupOf (scopeOfGroup e.1) = e.1
  /-- No delivery in flight answers to a discarded token. -/
  away : ∀ value ∈ book.discarded, ∀ group m, book.states.get? group = some m →
    scopeOf value = scopeOfGroup group → ¬m.Reaches (keyOf value)

variable {keyOf : Token → DeliveryKey} {scopeOf : Token → String × String}
  {groupOf : String × String → GroupRef}

theorem FenceInvariant.empty : FenceInvariant keyOf scopeOf groupOf ({} : SessionBook Token) where
  member group m hm := by simp at hm
  issued e he := absurd he List.not_mem_nil
  away value hvalue := absurd hvalue List.not_mem_nil

namespace FenceInvariant

variable (h : FenceInvariant keyOf scopeOf groupOf book)

include h

/-- A group that joins has nothing in flight. -/
theorem join {command : PollCommand} (apart : Apart groupOf (.join command : EngineCall Token)) :
    FenceInvariant keyOf scopeOf groupOf (next engine book (.join command)) := by
  change FenceInvariant keyOf scopeOf groupOf
    (if book.closed || (book.states.get? command.group).isSome then book
      else { book with states := book.states.set command.group (Member.create command) })
  split
  · exact h
  refine ⟨fun group m hm => ?_, h.issued, fun value hvalue group m hm hscope => ?_⟩ <;>
    dsimp only at hm <;> rw [Dict.get?_set] at hm <;> split at hm
  · next heq =>
    obtain rfl := Option.some.inj hm
    rw [heq]
    exact ⟨rfl, apart⟩
  · exact h.member group m hm
  · obtain rfl := Option.some.inj hm
    rintro ⟨-, i, hget, -⟩
    simp [Member.create] at hget
  · exact h.away value hvalue group m hm hscope

/-- An operation issues tokens of its group, and keeps the discarded ones away. -/
theorem operate (scopes : engine.cursor.CarriesScope scopeOf) {group : GroupRef}
    {action : Action Token}
    (far : OutOfReach engine keyOf scopeOf book (.operate group action)) :
    FenceInvariant keyOf scopeOf groupOf (next engine book (.operate group action)) := by
  cases hm : book.states.get? group with
  | none =>
    rw [next_operate_of_none hm]
    exact h
  | some m =>
    have hgroup := h.member group m hm
    rw [next_operate hm]
    -- Only the member of this group is another one, and what it hands out carries its scope.
    refine ⟨fun group' m' hm' => ?_, fun e he => ?_, fun value hvalue group' m' hm' hscope => ?_⟩
    · dsimp only at hm'
      rw [Dict.get?_set] at hm'
      split at hm'
      · next heq =>
        obtain rfl := Option.some.inj hm'
        rw [heq]
        refine ⟨?_, hgroup.2⟩
        rw [engine.next_command action]
        exact hgroup.1
      · exact h.member group' m' hm'
    · rcases List.mem_append.mp he with hold | hnew
      · exact h.issued e hold
      · rw [Option.mem_toList, Option.map_eq_some_iff] at hnew
        obtain ⟨d, hd, rfl⟩ := hnew
        obtain ⟨nowMs, topic, c, htoken, hsubscription, hconsumerGroup, -⟩ :=
          KafkaConsumerEngine.handedOut_token hd
        refine ⟨?_, hgroup.2⟩
        change scopeOf d.token = scopeOfGroup group
        rw [htoken, scopes.written, hsubscription, hconsumerGroup, ← hgroup.1]
        rfl
    · dsimp only at hm'
      rw [Dict.get?_set] at hm'
      split at hm'
      · next heq =>
        obtain rfl := Option.some.inj hm'
        subst heq
        intro hreaches
        rcases KafkaConsumerEngine.reaches_of_next hreaches with hold | hbrings
        · exact h.away value hvalue group' m hm hscope hold
        · exact far m hm value hvalue hscope hbrings
      · exact h.away value hvalue group' m' hm' hscope

/-- The tokens that `recover` discards are of a group that has no session any more. -/
theorem recover (group : GroupRef) :
    FenceInvariant keyOf scopeOf groupOf (next engine book (.recover group)) := by
  refine ⟨fun group' m hm => ?_, fun e he => h.issued e (List.mem_of_mem_filter he),
    fun value hvalue group' m hm hscope => ?_⟩ <;>
    change (book.states.erase group).get? group' = some m at hm <;>
    rw [Dict.get?_erase] at hm <;> split at hm <;> try exact absurd hm (by simp)
  · exact h.member group' m hm
  next hne =>
  rcases List.mem_append.mp hvalue with hold | hnew
  · exact h.away value hold group' m hm hscope
  · obtain ⟨e, he, rfl⟩ := List.mem_map.mp hnew
    obtain ⟨hmem, heq⟩ := List.mem_filter.mp he
    obtain ⟨hscope', hown⟩ := h.issued e hmem
    rw [decide_eq_true_eq] at heq
    -- The scope of the token names its group, which is not this one.
    have hsame : group' = e.1 := by
      calc
        group' = groupOf (scopeOfGroup group') := (h.member group' m hm).2.symm
        _ = groupOf (scopeOfGroup e.1) := by rw [← hscope, hscope']
        _ = e.1 := hown
    exact absurd (hsame.trans heq) hne

omit h in
/-- A step keeps the discarded tokens away, unless it brings one within reach. -/
theorem step (h : FenceInvariant keyOf scopeOf groupOf book)
    (scopes : engine.cursor.CarriesScope scopeOf) {call : EngineCall Token}
    (apart : Apart groupOf call) (far : OutOfReach engine keyOf scopeOf book call) :
    FenceInvariant keyOf scopeOf groupOf (next engine book call) := by
  cases call with
  | join command => exact h.join apart
  | operate group action => exact h.operate scopes far
  | recover group => exact h.recover group
  | close =>
    exact ⟨fun group m hm => absurd hm (by simp [next]), fun e he => absurd he List.not_mem_nil,
      fun value hvalue group m hm => absurd hm (by simp [next])⟩

/-- A call with a discarded token is rejected. -/
theorem fenced (carries : engine.cursor.CarriesKey keyOf)
    (scopes : engine.cursor.CarriesScope scopeOf) {call : EngineCall Token}
    (allowed : (machine engine).allowed book call) : Fenced engine book call := by
  cases call with
  | operate group action =>
    intro value hvalue hpresents
    unfold existingState
    cases hm : book.states.get? group with
    | none => exact Or.inl ⟨_, rfl⟩
    | some m =>
      exact Or.inr ⟨m, rfl, KafkaConsumerEngine.rejected_of_not_reaches carries scopes hpresents
        allowed (h.away value hvalue group m hm)⟩
  | _ => trivial

end FenceInvariant

/-- **Discarded tokens are fenced off** in every run of an engine that brings none of
them within reach: however often the groups rejoin, rebalance and redeliver. -/
theorem fenced_of_outOfReach (carries : engine.cursor.CarriesKey keyOf)
    (scopes : engine.cursor.CarriesScope scopeOf) {run : List (EngineCall Token)}
    (legal : (machine engine).Legal {} run) (apart : ∀ call ∈ run, Apart groupOf call)
    (far : ∀ x ∈ (machine engine).steps {} run, OutOfReach engine keyOf scopeOf x.1 x.2) :
    ∀ x ∈ (machine engine).steps {} run, Fenced engine x.1 x.2 := by
  rintro ⟨book, call⟩ hx
  obtain ⟨before, after, rfl, rfl⟩ := Machine.exists_of_mem_steps hx
  obtain ⟨hlegal, hrest⟩ := ((machine engine).legal_append {} before _).mp legal
  have hinv : FenceInvariant keyOf scopeOf groupOf ((machine engine).play {} before) := by
    refine Machine.play_induction (C := fun book call =>
      Apart groupOf call ∧ OutOfReach engine keyOf scopeOf book call) ?_ .empty hlegal ?_
    · intro book call hbook _ hcall
      exact hbook.step scopes hcall.1 hcall.2
    · intro x hx
      refine ⟨apart _ (List.mem_append_left _ (Machine.mem_of_mem_steps hx)), far x ?_⟩
      rw [Machine.steps_append]
      exact List.mem_append_left _ hx
  exact hinv.fenced carries scopes (((machine engine).legal_cons _ _ _).mp hrest).1

end SessionBook

/-! ### A session that starts over -/

namespace Sample

abbrev group : GroupRef := (billing.ref, workers.ref)

/-- The group joins, is given partition 0 and reads its first record. -/
abbrev session : List (EngineCall TokenPayload) :=
  [.join command, .operate group (.assigned [0]), .operate group (receive 0)]

end Sample

namespace SessionBook

open Sample

/-- The new session reads another record first; the token of the old one is rejected. -/
theorem fenced_of_outOfReach_other_record :
    let run := session ++ [.recover group, .join command, .operate group (.assigned [0]),
      .operate group (receive 1), .operate group (acknowledge 0)]
    (machine Sample.engine).Legal {} run ∧
      ∀ x ∈ (machine Sample.engine).steps {} run, Fenced Sample.engine x.1 x.2 := by
  have hapart : ∀ call ∈ session ++ [.recover group, .join command,
      .operate group (.assigned [0]), .operate group (receive 1),
      .operate group (acknowledge 0)], Apart (fun _ => group) call := by
    intro call hcall
    cases call with
    | join joined =>
      have hjoined : joined = command := by simpa [session] using hcall
      rw [hjoined]
      rfl
    | _ => trivial
  have hlegal : (machine Sample.engine).Legal {} (session ++ [.recover group, .join command,
      .operate group (.assigned [0]), .operate group (receive 1),
      .operate group (acknowledge 0)]) := by
    decide +kernel
  exact ⟨hlegal, fenced_of_outOfReach (payloadCodec_carriesKey _) (payloadCodec_carriesScope _)
    hlegal hapart (by decide +kernel)⟩

/-- **A discarded token is good again.** The group is recovered, joins again and reads
the first record again. The token of the first session acknowledges the delivery of the
second one. -/
theorem discarded_token_is_accepted :
    let run := session ++ .recover group :: session ++ [.operate group (acknowledge 0)]
    (machine Sample.engine).Legal {} run ∧
      ¬∀ x ∈ (machine Sample.engine).steps {} run, Fenced Sample.engine x.1 x.2 := by
  refine ⟨by decide +kernel, fun h => ?_⟩
  have hfenced := h ((machine Sample.engine).play {} (session ++ .recover group :: session),
    .operate group (acknowledge 0)) (by
      rw [Machine.steps_append]
      exact List.mem_append_right _ List.mem_cons_self)
  -- the new member has the same epoch and attempt as the discarded one
  have haccepted : (existingState ((machine Sample.engine).play {}
      (session ++ .recover group :: session)) group).toOption.any (fun m =>
        (Sample.engine.acknowledge m (acknowledgeCommand 0 1 1) none { nowMs := 1 }).1.isOk) =
      true := by
    decide +kernel
  rcases hfenced (token 0 1 1) (by decide +kernel) rfl with ⟨failure, hnone⟩ | ⟨m, hm, raised, hr⟩
  · rw [hnone] at haccepted
    simp [Except.toOption] at haccepted
  · rw [hm] at haccepted
    change (Sample.engine.acknowledge m (acknowledgeCommand 0 1 1) none
      { nowMs := 1 }).1.isOk = true at haccepted
    rw [hr] at haccepted
    simp [Except.isOk, Except.toBool] at haccepted

end SessionBook

end MeridianKafka
