import MeridianKafka.Consumer.Poll

/-!
# Polls that raise

`poll` registers every record in the books before the call is over, and a call that raises
later returns nothing. The records it had collected stay in flight with an attempt number
that nobody has seen: they are out of sight until their deadline passes, and come back as
redeliveries.

`HandedBook` is a group member under whole calls, beside the attempts that callers were
given. In every run in which no poll raises once it has collected a record, everything in
flight was given to a caller, and so was every attempt that is counted
(`nothingHidden_of_unbroken`). A bad record behind a good one is enough to hide the good
one (`failed_poll_hides_delivery`).
-/

namespace MeridianKafka

open Framework

/-- An attempt at a record: the partition, the offset and the number. -/
abbrev RecordAttempt := ℕ × ℕ × ℕ

variable {Token : Type}

/-- The attempt of a delivery. -/
def Delivery.recordAttempt (d : Delivery Token) : RecordAttempt :=
  (d.position.partition, d.position.offset, d.attempt)

/-- A group member, and the attempts that polls have returned to their callers. -/
structure HandedBook where
  member : Member
  handed : List RecordAttempt := []

/-- A whole call on a group member. -/
inductive GroupCall (Token : Type)
  | poll (command : PollCommand) (startNs : ℕ) (turns : List PollTurn) (emit : Option Raised)
  /-- An acknowledgement, a group position, or a callback outside `poll`. -/
  | operate (action : Action Token)
  /-- The group is recovered, and a call joins it anew. -/
  | rejoin (command : PollCommand)

namespace HandedBook

variable (engine : KafkaConsumerEngine Token) (book : HandedBook)

def next (book : HandedBook) : GroupCall Token → HandedBook
  | .poll command startNs turns emit =>
    match engine.pollCall command startNs turns emit book.member with
    | (.returned deliveries, m) =>
      { member := m, handed := book.handed ++ deliveries.map Delivery.recordAttempt }
    | (_, m) => { book with member := m }
  | .operate action => { book with member := engine.next book.member action }
  | .rejoin command => { book with member := Member.create command }

/-- Records arrive in polls only, and a poll takes turns until it ends. -/
def machine : Machine HandedBook (GroupCall Token) where
  allowed := fun book call =>
    match call with
    | .poll command startNs turns emit =>
      ∀ deliveries, (engine.pollCall command startNs turns emit book.member).1 ≠
        .running deliveries
    | .operate action => ∀ response env, action ≠ .receive response env
    | .rejoin _ => True
  next := next engine

/-- Every delivery in flight and every counted attempt was returned to a caller. -/
structure Shown (handed : List RecordAttempt) (m : Member) : Prop where
  inflight : ∀ p o i, (m.ledger p).inflight o = some i → (p, o, i.attempt) ∈ handed
  counted : ∀ p o n, (m.ledger p).attempts o = some n →
    ∀ k, 1 ≤ k → k ≤ n → (p, o, k) ∈ handed

/-- How often a record was returned to a caller. -/
def timesHanded (handed : List RecordAttempt) (p o : ℕ) : ℕ :=
  handed.countP fun attempt => attempt.1 = p ∧ attempt.2.1 = o

/-- No delivery is hidden from the callers: a record is in flight, or has used up an
attempt, only when a caller was given it, as often as it has attempts. -/
structure NothingHidden : Prop extends Shown book.handed book.member where
  returned : ∀ p o n, (book.member.ledger p).attempts o = some n →
    n ≤ timesHanded book.handed p o

end HandedBook

namespace KafkaConsumerEngine

variable (engine : KafkaConsumerEngine Token)

/-- The call raises at most while it has collected nothing: once it has a record, no later
turn raises, and its telemetry does not either. -/
def Unbroken (command : PollCommand) (deadlineNs : ℕ) (emit : Option Raised) :
    List PollTurn → List (Delivery Token) → Member → Prop
  | [], deliveries, _ => emit.isSome → deliveries = []
  | turn :: turns, deliveries, m =>
    if deliveries.length < command.limit then
      match engine.takeTurn command deadlineNs m turn with
      | (.raised _, _) => deliveries = []
      | (.stops, _) => emit.isSome → deliveries = []
      | (.goesOn delivery, m) =>
        Unbroken command deadlineNs emit turns (deliveries ++ delivery.toList) m
    else emit.isSome → deliveries = []

/-- The polls of a run do not raise once they have collected a record. -/
def UnbrokenCall (book : HandedBook) : GroupCall Token → Prop
  | .poll command startNs turns emit =>
    engine.Unbroken command (startNs + command.waitTimeoutMs * 1000000) emit turns [] book.member
  | _ => True

variable {engine} {log : PartitionLog} {m m' : Member}

/-! ### What does not hand out -/

/-- An operation other than a client poll hands out nothing: deliveries and counts only
leave the books. -/
theorem PartitionStep.leaves {p : ℕ} {a : Action Token} {L' : Ledger}
    (step : PartitionStep engine log m p a L') (idle : ∀ response env, a ≠ .receive response env) :
    (∀ o i, L'.inflight o = some i → (m.ledger p).inflight o = some i) ∧
      ∀ o n, L'.attempts o = some n → (m.ledger p).attempts o = some n := by
  -- Erasing an entry leaves those that are still there.
  have hupdate : ∀ {α : Type} (f : ℕ → Option α) (o k : ℕ) (x : α),
      Function.update f o none k = some x → f k = some x := by
    intro α f o k x hx
    rw [Function.update_apply] at hx
    split at hx
    · simp at hx
    · exact hx
  have hack : ∀ {o : ℕ} {transactional : Bool} {fails : Prop} {L' : Ledger},
      (m.ledger p).AcknowledgeStep o transactional fails L' →
      (∀ k i, L'.inflight k = some i → (m.ledger p).inflight k = some i) ∧
        ∀ k n, L'.attempts k = some n → (m.ledger p).attempts k = some n := by
    intro o transactional fails L' hstep
    cases hstep with
    | failed => exact ⟨fun _ _ hi => hi, fun _ _ hn => hn⟩
    | moved => exact ⟨hupdate _ o, hupdate _ o⟩
    | collected => exact ⟨hupdate _ o, hupdate _ o⟩
  -- Only what is received can put a record in flight or count it.
  cases step with
  | idle => exact ⟨fun _ _ hi => hi, fun _ _ hn => hn⟩
  | rewound =>
    refine ⟨fun o i hi => ?_, fun _ _ hn => hn⟩
    dsimp only [Ledger.rewind] at hi
    split at hi
    · exact hi
    · simp at hi
  | resumeSought => exact ⟨fun _ _ hi => hi, fun _ _ hn => hn⟩
  | resumed => exact ⟨fun _ _ hi => hi, fun _ _ hn => hn⟩
  | stuck => exact absurd rfl (idle _ _)
  | heldBack => exact absurd rfl (idle _ _)
  | rejected => exact absurd rfl (idle _ _)
  | delivered => exact absurd rfl (idle _ _)
  | acknowledged _ _ hstep => exact hack hstep
  | deadLettered _ _ hstep => exact hack hstep
  | dropped => exact ⟨hupdate _ _, fun _ _ hn => hn⟩
  | sought => exact ⟨hupdate _ _, fun _ _ hn => hn⟩
  | pausedAt => exact ⟨hupdate _ _, fun _ _ hn => hn⟩
  | revoked => exact ⟨fun o i hi => by simp [Ledger.revoke] at hi,
      fun o n hn => by simp [Ledger.revoke] at hn⟩
  | repositioned => exact ⟨fun o i hi => by simp [Ledger.reposition] at hi, fun _ _ hn => hn⟩

end KafkaConsumerEngine

namespace HandedBook

open KafkaConsumerEngine

variable {engine : KafkaConsumerEngine Token} {m : Member} {handed : List RecordAttempt}

/-- What leaves the books need not be shown any more. -/
theorem Shown.leaves {m' : Member} (h : Shown handed m)
    (leaves : ∀ p, (∀ o i, (m'.ledger p).inflight o = some i → (m.ledger p).inflight o = some i) ∧
      ∀ o n, (m'.ledger p).attempts o = some n → (m.ledger p).attempts o = some n) :
    Shown handed m' where
  inflight p o i hi := h.inflight p o i ((leaves p).1 o i hi)
  counted p o n hn := h.counted p o n ((leaves p).2 o n hn)

theorem Shown.operate (h : Shown handed m) (engine : KafkaConsumerEngine Token) (a : Action Token)
    (idle : ∀ response env, a ≠ .receive response env) : Shown handed (engine.next m a) := by
  have hallowed : a.Allowed (fun _ _ => none) m := by
    cases a with
    | receive response env => exact absurd rfl (idle response env)
    | _ => trivial
  exact h.leaves fun p => (engine.next_step (p := p) (fun _ _ => none) hallowed).leaves idle

theorem Shown.beforePoll (h : Shown handed m) (engine : KafkaConsumerEngine Token)
    (command : PollCommand) (deadlineNs : ℕ) (turn : PollTurn) :
    Shown handed (beforePoll command deadlineNs m turn).2 := by
  have hshrinks := shrinks_beforePoll engine m command deadlineNs turn
  exact h.leaves fun p => ⟨hshrinks.inflight p, fun o n hn => by rwa [hshrinks.attempts] at hn⟩

theorem Shown.rebalances (h : Shown handed m) (engine : KafkaConsumerEngine Token)
    (rebalances : List Rebalance) : Shown handed (rebalances.foldl Member.rebalance m) := by
  induction rebalances generalizing m with
  | nil => exact h
  | cons callback rebalances ih =>
    refine ih ?_
    cases callback with
    | assigned partitions =>
      exact h.operate engine (.assigned partitions) fun _ _ => by simp
    | revoked partitions =>
      exact h.operate engine (.revoked partitions) fun _ _ => by simp

/-- A record that is handed out has to be shown. -/
theorem Shown.receive (h : Shown handed m) (engine : KafkaConsumerEngine Token)
    (response : PollResponse) (env : DeliveryEnv) :
    Shown (handed ++ ((engine.handedOut m (.receive response env)).map
      Delivery.recordAttempt).toList) (engine.receive m response env).2 := by
  -- The attempt of a record that is handed out is among the ones to be shown.
  have hnew : ∀ p o, ∀ d ∈ engine.handedOut m (.receive response env), d.of p o →
      (p, o, d.attempt) ∈ ((engine.handedOut m (.receive response env)).map
        Delivery.recordAttempt).toList := by
    intro p o d hd hof
    rw [Delivery.of, Bool.and_eq_true, decide_eq_true_eq, decide_eq_true_eq] at hof
    rw [Option.mem_toList, Option.map_eq_some_iff]
    exact ⟨d, hd, by rw [Delivery.recordAttempt, hof.1, hof.2]⟩
  refine ⟨fun p o i hi => ?_, fun p o n hn k hone hle => ?_⟩ <;>
    rcases receive_record engine m response env p o with
      ⟨d, hd, hof, hattempt, ⟨event, expiresAtMs, hinflight⟩, hattempts⟩ |
        ⟨-, hinflight, hattempts⟩
  · rw [hinflight] at hi
    obtain rfl := Option.some.inj hi
    exact List.mem_append_right _ (hnew p o d hd hof)
  · rw [hinflight] at hi
    exact List.mem_append_left _ (h.inflight p o i hi)
  · rw [hattempts] at hn
    obtain rfl := Option.some.inj hn
    by_cases hk : k = d.attempt
    · rw [hk]
      exact List.mem_append_right _ (hnew p o d hd hof)
    · -- The attempts before it were counted before.
      refine List.mem_append_left _ ?_
      cases hcount : (m.ledger p).attempts o with
      | none =>
        rw [hcount, Option.getD_none] at hattempt
        omega
      | some n =>
        rw [hcount, Option.getD_some] at hattempt
        exact h.counted p o n hcount k hone (by omega)
  · rw [hattempts] at hn
    exact List.mem_append_left _ (h.counted p o n hn k hone hle)

/-- A turn shows what it hands out. -/
theorem Shown.takeTurn (h : Shown handed m) (engine : KafkaConsumerEngine Token)
    (command : PollCommand) (deadlineNs : ℕ) (turn : PollTurn) :
    (∀ delivery, (engine.takeTurn command deadlineNs m turn).1 = .goesOn delivery →
      Shown (handed ++ (delivery.map Delivery.recordAttempt).toList)
        (engine.takeTurn command deadlineNs m turn).2) ∧
      ((∀ delivery, (engine.takeTurn command deadlineNs m turn).1 ≠ .goesOn delivery) →
        Shown handed (engine.takeTurn command deadlineNs m turn).2) := by
  have hbefore := h.beforePoll engine command deadlineNs turn
  rcases takeTurn_cases engine command deadlineNs m turn with
    ⟨raised, heq⟩ | ⟨-, heq⟩ | ⟨-, heq⟩ <;> rw [heq]
  · exact ⟨fun _ hgoes => by simp at hgoes, fun _ => hbefore⟩
  · exact ⟨fun _ hgoes => by simp at hgoes, fun _ => hbefore⟩
  · -- what the turn goes on with is what its poll has handed out
    obtain ⟨hafter, hhanded⟩ := afterPoll_eq engine command
      (KafkaConsumerEngine.beforePoll command deadlineNs m turn).2 turn
    have hreceive := (hbefore.rebalances engine turn.rebalances).receive engine
      turn.response turn.delivery
    rw [hafter]
    refine ⟨fun delivery hgoes => ?_, fun hends => ?_⟩
    · rw [hhanded delivery hgoes]
      exact hreceive
    · rw [handedOut_of_not_goesOn engine command _ turn hends, Option.map_none,
        Option.toList_none, List.append_nil] at hreceive
      exact hreceive

/-- What is to be shown when a loop has come to its end. -/
def ShowsOutcome (handed : List RecordAttempt) (emit : Option Raised) :
    PollOutcome Token × Member → Prop
  | (.raised _, m) => Shown handed m
  | (.running _, _) => True
  | (.returned deliveries, m) =>
    Shown (handed ++ deliveries.map Delivery.recordAttempt) m ∧ (emit.isSome → deliveries = [])

/-- **One loop** shows what it returns. When it raises it has collected nothing. -/
theorem Shown.pollTurns {command : PollCommand} {deadlineNs : ℕ} {emit : Option Raised}
    {turns : List PollTurn} {deliveries : List (Delivery Token)}
    (h : Shown (handed ++ deliveries.map Delivery.recordAttempt) m)
    (unbroken : engine.Unbroken command deadlineNs emit turns deliveries m) :
    ShowsOutcome handed emit (engine.pollTurns command deadlineNs turns deliveries m) := by
  induction turns generalizing deliveries m with
  | nil =>
    rw [KafkaConsumerEngine.pollTurns]
    by_cases hmore : deliveries.length < command.limit
    · rw [if_pos hmore]
      exact trivial
    · rw [if_neg hmore]
      exact ⟨h, unbroken⟩
  | cons turn turns ih =>
    rw [KafkaConsumerEngine.pollTurns]
    rw [Unbroken] at unbroken
    by_cases hmore : deliveries.length < command.limit
    swap
    · rw [if_neg hmore] at unbroken ⊢
      exact ⟨h, unbroken⟩
    rw [if_pos hmore] at unbroken ⊢
    obtain ⟨hgoes, hends⟩ := h.takeTurn engine command deadlineNs turn
    rcases hturn : engine.takeTurn command deadlineNs m turn with ⟨raised | _ | delivery, m₁⟩ <;>
      rw [hturn] at unbroken hgoes hends
    · -- The call raises, and so it has collected nothing.
      have hshown := hends fun _ heq => by simp at heq
      obtain rfl : deliveries = [] := unbroken
      rw [List.map_nil, List.append_nil] at hshown
      exact hshown
    · exact ⟨hends fun _ heq => by simp at heq, unbroken⟩
    · refine ih ?_ unbroken
      have hshown := hgoes delivery rfl
      rw [List.map_append, ← List.append_assoc]
      cases delivery <;> exact hshown

/-- A call shows what it returns. -/
theorem Shown.step {book : HandedBook} {call : GroupCall Token}
    (h : Shown book.handed book.member) (allowed : (machine engine).allowed book call)
    (unbroken : engine.UnbrokenCall book call) :
    Shown (next engine book call).handed (next engine book call).member := by
  cases call with
  | poll command startNs turns emit =>
    have hloop : ShowsOutcome book.handed emit (engine.pollTurns command
        (startNs + command.waitTimeoutMs * 1000000) turns [] book.member) :=
      Shown.pollTurns (by rwa [List.map_nil, List.append_nil]) unbroken
    change ∀ deliveries, (engine.pollCall command startNs turns emit book.member).1 ≠
      .running deliveries at allowed
    dsimp only [next]
    unfold pollCall at allowed ⊢
    -- The loop has raised, or returned a batch which the emit may still lose.
    rcases hturns : engine.pollTurns command (startNs + command.waitTimeoutMs * 1000000) turns []
      book.member with ⟨raised | deliveries | deliveries, m'⟩ <;> rw [hturns] at hloop allowed
    · exact hloop
    · obtain ⟨hshown, hnothing⟩ := hloop
      cases emit with
      | none => exact hshown
      | some raised =>
        obtain rfl := hnothing rfl
        rwa [List.map_nil, List.append_nil] at hshown
    · exact absurd rfl (allowed deliveries)
  | operate action => exact h.operate engine action allowed
  | rejoin command =>
    exact ⟨fun p o i hi => by simp [next, Member.ledger_create, Ledger.empty] at hi,
      fun p o n hn => by simp [next, Member.ledger_create, Ledger.empty] at hn⟩

/-- An attempt that was shown each time it was counted was shown that many times. -/
theorem Shown.nothingHidden {book : HandedBook} (h : Shown book.handed book.member) :
    book.NothingHidden where
  toShown := h
  returned p o n hn := by
    have hsub : (List.range' 1 n).map (fun k => (p, o, k)) ⊆
        book.handed.filter fun attempt => attempt.1 = p ∧ attempt.2.1 = o := by
      intro attempt hattempt
      obtain ⟨k, hk, rfl⟩ := List.mem_map.mp hattempt
      rw [List.mem_range'_1] at hk
      exact List.mem_filter.mpr ⟨h.counted p o n hn k hk.1 (by omega), by simp⟩
    have hnodup : ((List.range' 1 n).map fun k => (p, o, k)).Nodup :=
      (List.nodup_range' ..).map fun k k' heq => by simpa using heq
    have hle := (hnodup.subperm hsub).length_le
    rw [List.length_map, List.length_range'] at hle
    rw [timesHanded, List.countP_eq_length_filter]
    exact hle

/-- **Nothing is hidden** in every run of whole calls in which no poll raises once it has
collected a record. -/
theorem nothingHidden_of_unbroken {command : PollCommand} {run : List (GroupCall Token)}
    (legal : (machine engine).Legal ⟨Member.create command, []⟩ run)
    (unbroken : ∀ x ∈ (machine engine).steps ⟨Member.create command, []⟩ run,
      engine.UnbrokenCall x.1 x.2) :
    ((machine engine).play ⟨Member.create command, []⟩ run).NothingHidden := by
  refine Shown.nothingHidden ?_
  refine Machine.play_induction (I := fun book => Shown book.handed book.member)
    (fun book call hshown hallowed hcall => hshown.step hallowed hcall) ?_ legal unbroken
  exact ⟨fun p o i hi => by simp [Member.ledger_create, Ledger.empty] at hi,
    fun p o n hn => by simp [Member.ledger_create, Ledger.empty] at hn⟩

end HandedBook

/-! ### A bad record behind a good one -/

namespace Sample

/-- A turn in which the client returns this record. -/
def turn (message : Message) : PollTurn where
  expire := { nowMs := 0 }
  resume := { monotonicNs := 0 }
  monotonicNs := 0
  response := .record message
  delivery := { monotonicNs := 0, nowMs := 0 }

/-- A poll that takes these turns. -/
def pollOf (limit : ℕ) (turns : List PollTurn) : GroupCall TokenPayload :=
  .poll { command with limit } 0 turns none

end Sample

namespace HandedBook

open Sample

/-- A poll that returns its one record. -/
theorem nothingHidden_of_unbroken_first_record :
    ((machine Sample.engine).play ⟨Member.create command, []⟩
      [.operate (.assigned [0]), pollOf 1 [turn (message 0)]]).NothingHidden := by
  refine nothingHidden_of_unbroken ?_ ?_
  · rw [Machine.legal_cons, Machine.legal_cons]
    refine ⟨fun _ _ => by simp, fun deliveries hrunning => ?_, Machine.legal_nil _ _⟩
    have hrecords : (Sample.engine.pollCall { command with limit := 1 } 0 [turn (message 0)] none
        (.joined command [0])).1.records = some [(0, 0)] := by
      decide +kernel
    change (Sample.engine.pollCall { command with limit := 1 } 0 [turn (message 0)] none
      (.joined command [0])).1 = _ at hrunning
    rw [hrunning] at hrecords
    simp [PollOutcome.records] at hrecords
  · intro x hx
    rw [Machine.steps_cons, Machine.steps_cons, Machine.steps_nil, List.mem_cons,
      List.mem_singleton] at hx
    rcases hx with rfl | rfl
    · trivial
    · dsimp only [pollOf, KafkaConsumerEngine.UnbrokenCall]
      rw [KafkaConsumerEngine.Unbroken]
      split
      · split
        · rfl
        · exact fun _ => rfl
        · exact fun h => by simp at h
      · exact fun _ => rfl

/-- **A delivery out of sight.** The client returns a record and then one that cannot be
decoded. The call raises, and the first record is in flight, at an attempt that no caller
has seen. -/
theorem failed_poll_hides_delivery :
    let run := [.operate (.assigned [0]), pollOf 10 [turn (message 0), turn (poison 1)]]
    (machine Sample.engine).Legal ⟨Member.create command, []⟩ run ∧
      ¬((machine Sample.engine).play ⟨Member.create command, []⟩ run).NothingHidden := by
  have hraised : ((Sample.engine.pollCall { command with limit := 10 } 0
      [turn (message 0), turn (poison 1)] none (.joined command [0])).1 matches .raised _) =
      true := by
    decide +kernel
  dsimp only
  refine ⟨?_, fun h => ?_⟩
  · rw [Machine.legal_cons, Machine.legal_cons]
    refine ⟨fun _ _ => by simp, fun deliveries hrunning => ?_, Machine.legal_nil _ _⟩
    change (Sample.engine.pollCall { command with limit := 10 } 0
      [turn (message 0), turn (poison 1)] none (.joined command [0])).1 = _ at hrunning
    rw [hrunning] at hraised
    simp at hraised
  · have hcounted : (((machine Sample.engine).play ⟨Member.create command, []⟩
        [.operate (.assigned [0]), pollOf 10 [turn (message 0), turn (poison 1)]]).member.ledger
          0).attempts 0 = some 1 := by
      decide +kernel
    have hnone : timesHanded ((machine Sample.engine).play ⟨Member.create command, []⟩
        [.operate (.assigned [0]),
          pollOf 10 [turn (message 0), turn (poison 1)]]).handed 0 0 = 0 := by
      decide +kernel
    exact absurd (h.returned 0 0 1 hcounted) (by rw [hnone]; decide)

end HandedBook

end MeridianKafka
