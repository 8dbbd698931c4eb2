import MeridianKafka.Consumer.Engine
import MeridianKafka.Cursor.Payload
import MeridianKafka.Framework.Machine

/-!
# The group machine

`KafkaConsumerEngine.machine` is one group member under every order of the
engine's operations: its labels are the operations with their commands and
environments, so a run fixes the order of the calls, the clocks, the records that
arrive and every client call that fails.

The environment is free except for what the client returns. `MayReturn` is the
discipline of a Kafka fetch on a partition log: the record is in the log, it is
not below the fetch position, and no record of the log in between is passed over.
The fetch position is read off the history of the partition: where the last seek
went, or right after the last record that was returned. A partition without either
starts wherever the assignment put it.

The choices of the environment are decidable, so a concrete run can be checked; the
group of `Sample` has one partition and tokens in the clear.

`poll` is the loop of turns of the source, and `exists_play_poll` says that a call
of it is a run of the machine, so what holds along every run holds of every
interleaving of whole calls.
-/

namespace MeridianKafka

open Framework

/-- The records of every partition that a consumer can see, by offset. -/
abbrev PartitionLog := ℕ → ℕ → Option Message

/-- The place from which the client reads on. -/
def fetchPosition : List Occurrence → Option ℕ
  | [] => none
  | .returned offset :: _ => some (offset + 1)
  | .seek offset :: _ => some offset
  | _ :: history => fetchPosition history

/-- The part of a history that one partition has, newest first. -/
def historyOf (history : List (ℕ × Occurrence)) (partition : ℕ) : List Occurrence :=
  history.filterMap fun e => if e.1 = partition then some e.2 else none

/-- A member at the start of its first assignment. -/
def Member.joined (command : PollCommand) (partitions : List ℕ) : Member :=
  (Member.create command).assigned partitions

/-- The client may return this record. -/
structure MayReturn (log : PartitionLog) (m : Member) (message : Message) : Prop where
  visible : log message.partition message.offset = some message
  topic : message.topic = m.state.command.stream.topic
  /-- It is the first record at or after the fetch position. -/
  next : ∀ f, fetchPosition (historyOf m.history message.partition) = some f →
    f ≤ message.offset ∧ ∀ k, f ≤ k → k < message.offset → log message.partition k = none

instance (log : PartitionLog) (m : Member) (message : Message) :
    Decidable (MayReturn log m message) :=
  decidable_of_iff
    (log message.partition message.offset = some message ∧
      message.topic = m.state.command.stream.topic ∧
      ∀ f ∈ fetchPosition (historyOf m.history message.partition),
        f ≤ message.offset ∧ ∀ k < message.offset, f ≤ k → log message.partition k = none)
    ⟨fun h => ⟨h.1, h.2.1, fun f hf => ⟨(h.2.2 f hf).1, fun k hk hlt => (h.2.2 f hf).2 k hlt hk⟩⟩,
      fun h => ⟨h.visible, h.topic, fun f hf =>
        ⟨(h.next f hf).1, fun k hlt hk => (h.next f hf).2 k hk hlt⟩⟩⟩

/-- An operation of the engine with its command and environment. -/
inductive Action (Token : Type)
  | expireInflight (env : ExpireEnv)
  | resumeDue (env : ResumeEnv)
  | receive (response : PollResponse) (env : DeliveryEnv)
  | acknowledge (command : AcknowledgeCommand Token)
      (transaction : Option KafkaTransactionBridge) (env : AcknowledgeEnv)
  | negativeAcknowledge (command : NegativeAcknowledgeCommand Token)
      (env : NegativeAcknowledgeEnv)
  | assigned (partitions : List ℕ)
  | revoked (partitions : List ℕ)
  | groupPosition (command : GroupPositionCommand Token) (env : GroupPositionEnv)

/-- The action is part of `poll`, or one of the acknowledgement calls without a
transaction: what a group does within one assignment. -/
def Action.WithinAssignment {Token : Type} : Action Token → Prop
  | expireInflight _ | resumeDue _ | receive _ _ | negativeAcknowledge _ _ => True
  | acknowledge _ transaction _ => transaction = none
  | assigned _ | revoked _ | groupPosition _ _ => False

instance {Token : Type} : DecidablePred (@Action.WithinAssignment Token)
  | .expireInflight _ | .resumeDue _ | .receive _ _ | .negativeAcknowledge _ _ => isTrue trivial
  | .acknowledge _ none _ => isTrue rfl
  | .acknowledge _ (some _) _ => isFalse (Option.some_ne_none _)
  | .assigned _ | .revoked _ | .groupPosition _ _ => isFalse id

/-- The action neither takes a partition away nor moves the group by hand. -/
def Action.Stays {Token : Type} : Action Token → Prop
  | revoked _ | groupPosition _ _ => False
  | _ => True

theorem Action.WithinAssignment.stays {Token : Type} {a : Action Token}
    (h : a.WithinAssignment) : a.Stays := by
  cases a <;> first | exact h | exact trivial

/-- The action is neither a callback of a rebalance nor `group_position`. -/
def Action.KeepsAssignment {Token : Type} : Action Token → Prop
  | assigned _ | revoked _ | groupPosition _ _ => False
  | _ => True

instance {Token : Type} : DecidablePred (@Action.KeepsAssignment Token)
  | .assigned _ | .revoked _ | .groupPosition _ _ => isFalse id
  | .expireInflight _ | .resumeDue _ | .receive _ _ | .acknowledge _ _ _
  | .negativeAcknowledge _ _ => isTrue trivial

/-- What the environment may do: the client returns only what it can. -/
def Action.Allowed {Token : Type} (log : PartitionLog) (m : Member) : Action Token → Prop
  | receive (.record message) _ => MayReturn log m message
  | _ => True

instance {Token : Type} (log : PartitionLog) (m : Member) :
    DecidablePred (@Action.Allowed Token log m)
  | .receive (.record message) _ => inferInstanceAs (Decidable (MayReturn log m message))
  | .receive (.raised _) _ | .receive .none _ | .receive (.error _) _ | .expireInflight _
  | .resumeDue _ | .acknowledge _ _ _ | .negativeAcknowledge _ _ | .assigned _ | .revoked _
  | .groupPosition _ _ => isTrue trivial

/-- One turn of the loop of `poll`. -/
structure TurnEnv where
  expire : ExpireEnv
  resume : ResumeEnv
  /-- The clock that the remaining time is computed from. -/
  monotonicNs : ℕ
  response : PollResponse
  delivery : DeliveryEnv

/-- What a call of `poll` has come to after the turns it was given. -/
inductive PollOutcome (Token : Type)
  | raised (raised : Raised)
  | returned (deliveries : List (Delivery Token))
  | running (deliveries : List (Delivery Token))

namespace KafkaConsumerEngine

variable {Token : Type} (engine : KafkaConsumerEngine Token)

/-- The member after an operation. -/
def next (m : Member) : Action Token → Member
  | .expireInflight env => (expireInflight m env).2
  | .resumeDue env => (resumeDue m env).2
  | .receive response env => (engine.receive m response env).2
  | .acknowledge command transaction env => (engine.acknowledge m command transaction env).2.1
  | .negativeAcknowledge command env => (engine.negativeAcknowledge m command env).2
  | .assigned partitions => m.assigned partitions
  | .revoked partitions => m.revoked partitions
  | .groupPosition command env => (engine.groupPosition m command env).2

/-- One group member over the log of its topic. -/
def machine (log : PartitionLog) : Machine Member (Action Token) where
  allowed := fun m a => a.Allowed log m
  next := engine.next

instance (log : PartitionLog) (m : Member) (run : List (Action Token)) :
    Decidable ((engine.machine log).Legal m run) :=
  inferInstanceAs (Decidable (∀ x ∈ (engine.machine log).steps m run, x.2.Allowed log x.1))

/-! ### The loop of `poll` -/

/-- `poll` from the top of its loop. The deadline is in nanoseconds of the
monotonic clock; with a wait timeout of zero the first empty client poll ends the
call. -/
def pollLoop (command : PollCommand) (deadlineNs : ℕ) :
    List TurnEnv → List (Delivery Token) → Member → PollOutcome Token × Member
  | [], deliveries, m =>
    if deliveries.length < command.limit then (.running deliveries, m)
    else (.returned deliveries, m)
  | turn :: turns, deliveries, m =>
    if deliveries.length < command.limit then
      match expireInflight m turn.expire with
      | (.error raised, m) => (.raised raised, m)
      | (.ok (), m) =>
        match resumeDue m turn.resume with
        | (.error raised, m) => (.raised raised, m)
        | (.ok (), m) =>
          if command.waitTimeoutMs > 0 && deadlineNs ≤ turn.monotonicNs then
            (.returned deliveries, m)
          else
            match engine.receive m turn.response turn.delivery with
            | (.error raised, m) => (.raised raised, m)
            | (.ok (some delivery), m) =>
              pollLoop command deadlineNs turns (deliveries ++ [delivery]) m
            | (.ok none, m) =>
              match turn.response with
              | .none =>
                if command.waitTimeoutMs = 0 then (.returned deliveries, m)
                else pollLoop command deadlineNs turns deliveries m
              | _ => pollLoop command deadlineNs turns deliveries m
    else (.returned deliveries, m)

/-- `poll`, with the clock at its start and the outcome of its telemetry. -/
def poll (command : PollCommand) (startNs : ℕ) (turns : List TurnEnv) (emit : Option Raised)
    (m : Member) : PollOutcome Token × Member :=
  match engine.pollLoop command (startNs + command.waitTimeoutMs * 1000000) turns [] m with
  | (.returned deliveries, m) =>
    match emit with
    | some raised => (.raised raised, m)
    | none => (.returned deliveries, m)
  | outcome => outcome

/-- The operations of one turn. -/
def turnActions (turn : TurnEnv) : List (Action Token) :=
  [.expireInflight turn.expire, .resumeDue turn.resume, .receive turn.response turn.delivery]

private theorem exists_play_pollLoop (log : PartitionLog) (command : PollCommand)
    (deadlineNs : ℕ) (turns : List TurnEnv) (deliveries : List (Delivery Token)) (m : Member) :
    ∃ run : List (Action Token), run <+: turns.flatMap turnActions ∧
      (engine.pollLoop command deadlineNs turns deliveries m).2 =
        (engine.machine log).play m run := by
  induction turns generalizing deliveries m with
  | nil =>
    refine ⟨[], List.nil_prefix, ?_⟩
    unfold pollLoop
    split <;> rfl
  | cons turn turns ih =>
    -- A turn that ends the call has played the first `k` of its operations.
    have stop : ∀ k m', m' = (engine.machine log).play m ((turnActions turn).take k) →
        ∃ run : List (Action Token), run <+: (turn :: turns).flatMap turnActions ∧
          m' = (engine.machine log).play m run := by
      intro k m' hm'
      refine ⟨(turnActions turn).take k, ?_, hm'⟩
      rw [List.flatMap_cons]
      exact (List.take_prefix k _).trans (List.prefix_append _ _)
    have goOn : ∀ (deliveries' : List (Delivery Token)) m',
        m' = (engine.machine log).play m (turnActions turn) →
        ∃ run : List (Action Token), run <+: (turn :: turns).flatMap turnActions ∧
          (engine.pollLoop command deadlineNs turns deliveries' m').2 =
            (engine.machine log).play m run := by
      rintro deliveries' m' rfl
      obtain ⟨run, hrun, hplay⟩ := ih deliveries' ((engine.machine log).play m (turnActions turn))
      refine ⟨turnActions turn ++ run, ?_, ?_⟩
      · rw [List.flatMap_cons]
        exact (List.prefix_append_right_inj _).mpr hrun
      · rw [hplay, Machine.play_append]
    rw [pollLoop]
    split
    · rcases h₁ : expireInflight m turn.expire with ⟨_ | ⟨⟨⟩⟩, m₁⟩
      · exact stop 1 _ (congrArg Prod.snd h₁).symm
      dsimp only
      rcases h₂ : resumeDue m₁ turn.resume with ⟨_ | ⟨⟨⟩⟩, m₂⟩
      · refine stop 2 _ ?_
        change m₂ = (resumeDue (expireInflight m turn.expire).2 turn.resume).2
        rw [h₁, h₂]
      have hm₂ : m₂ = (engine.machine log).play m ((turnActions turn).take 2) := by
        change m₂ = (resumeDue (expireInflight m turn.expire).2 turn.resume).2
        rw [h₁, h₂]
      dsimp only
      split
      · exact stop 2 _ hm₂
      rcases h₃ : engine.receive m₂ turn.response turn.delivery with ⟨_ | _ | _, m₃⟩
      all_goals
        have hm₃ : m₃ = (engine.machine log).play m (turnActions turn) := by
          change m₃ = (engine.receive ((engine.machine log).play m ((turnActions turn).take 2))
            turn.response turn.delivery).2
          rw [← hm₂, h₃]
      · exact stop 3 _ hm₃
      · dsimp only
        split
        · split
          · exact stop 3 _ hm₃
          · exact goOn _ _ hm₃
        · exact goOn _ _ hm₃
      · exact goOn _ _ hm₃
    · exact stop 0 _ rfl

/-- **A poll is a run.** A call of `poll` changes the member as some run of the
operations of its turns does. -/
theorem exists_play_poll (log : PartitionLog) (command : PollCommand) (startNs : ℕ)
    (turns : List TurnEnv) (emit : Option Raised) (m : Member) :
    ∃ run : List (Action Token), run <+: turns.flatMap turnActions ∧
      (engine.poll command startNs turns emit m).2 = (engine.machine log).play m run := by
  obtain ⟨run, hrun, hplay⟩ := engine.exists_play_pollLoop log command
    (startNs + command.waitTimeoutMs * 1000000) turns [] m
  refine ⟨run, hrun, ?_⟩
  rw [← hplay, poll]
  rcases engine.pollLoop command (startNs + command.waitTimeoutMs * 1000000) turns [] m with
    ⟨_ | _ | _, m'⟩
  · rfl
  · cases emit <;> rfl
  · rfl

end KafkaConsumerEngine

/-! ### A group with one partition -/

namespace Sample

def orders : PhysicalStream where
  ref := ⟨"main", "sales", "orders"⟩
  topic := "orders.v1"
  schemaRef := ⟨"main", "sales", "order", "1"⟩
  schemaFingerprint := "sha256:1"
  compatibleSchemaFingerprints := ["sha256:1"]
  resourceFingerprint := "sha256:2"
  logicalPartitions := 1
  retentionMs := 86400000
  compacted := false

def billing : PhysicalSubscription where
  ref := ⟨"main", "sales", "billing"⟩
  stream := orders.ref
  resourceFingerprint := "sha256:3"
  acknowledgementTimeoutMs := 30000
  maxDeliveryAttempts := 5
  deadLetterStream := none
  filter := []

def workers : PhysicalConsumerGroup where
  ref := ⟨"main", "sales", "workers"⟩
  subscription := billing.ref
  groupId := "billing-workers"
  resourceFingerprint := "sha256:4"

def event : Event where
  formatVersion := "1"
  eventId := "event"
  stream := orders.ref
  schema := orders.schemaRef
  data := .null
  occurredAt := "2026-01-01T00:00:00Z"
  producedAt := "2026-01-01T00:00:00Z"
  logicalPartitionKey := none
  headers := []
  traceContext := []
  extensions := []

/-- Values that are not empty parse to the event. -/
def engine : KafkaConsumerEngine TokenPayload where
  settings := { resources := .empty }
  cursor := payloadCodec 3600000
  parseEvent raw := if raw.isEmpty then .error none else .ok event

def command : PollCommand where
  subscription := billing
  consumerGroup := workers
  stream := orders
  limit := 10
  waitTimeoutMs := 0

def message (offset : ℕ) : Message where
  topic := orders.topic
  partition := 0
  offset
  value := some [123, 125]
  headers := [("meridian.schema-fingerprint", some [115, 104, 97, 50, 53, 54, 58, 49])]

/-- A record whose value does not parse. -/
def poison (offset : ℕ) : Message := { message offset with value := some [] }

/-- The log of partition 0 with these offsets. -/
def log (offsets poisoned : List ℕ) : PartitionLog := fun partition offset =>
  if partition ≠ 0 then none
  else if offset ∈ offsets then some (message offset)
  else if offset ∈ poisoned then some (poison offset)
  else none

/-- An attempt at a record of partition 0. -/
def coordinates (offset attempt assignmentEpoch : ℕ) : DeliveryCoordinates where
  subscription := billing.ref
  consumerGroup := workers.ref
  partition := 0
  offset
  assignmentEpoch
  attempt
  expiresAtMs := 30000

/-- The token that `poll` gives out for it. -/
def token (offset attempt assignmentEpoch : ℕ) : TokenPayload :=
  engine.cursor.encodeDelivery 0 orders.topic (coordinates offset attempt assignmentEpoch)

theorem decodeDelivery_token (offset attempt assignmentEpoch : ℕ) (h : 1 ≤ attempt) :
    engine.cursor.decodeDelivery 1 (token offset attempt assignmentEpoch) billing.ref workers.ref
      orders.topic = .ok (coordinates offset attempt assignmentEpoch) :=
  payloadCodec_sealsDeliveries 3600000 0 1 orders.topic
    (coordinates offset attempt assignmentEpoch) (by decide : (1 : ℕ) < 30000) h

def acknowledgeCommand (offset attempt assignmentEpoch : ℕ) : AcknowledgeCommand TokenPayload where
  subscription := billing
  consumerGroup := workers
  stream := orders
  delivery := token offset attempt assignmentEpoch

/-- The client returns the record at this offset. -/
def receive (offset : ℕ) : Action TokenPayload :=
  .receive (.record (message offset)) { monotonicNs := 0, nowMs := 0 }

/-- The client returns a record that does not parse. -/
def receivePoison (offset : ℕ) : Action TokenPayload :=
  .receive (.record (poison offset)) { monotonicNs := 0, nowMs := 0 }

/-- The first attempt at a record is acknowledged, in the first assignment. -/
def acknowledge (offset : ℕ) (commit : Option Raised := none) : Action TokenPayload :=
  .acknowledge (acknowledgeCommand offset 1 1) none { nowMs := 1, commit }

/-- The first attempt at a record is given back, for redelivery at once. -/
def negativeAcknowledge (offset : ℕ) : Action TokenPayload :=
  .negativeAcknowledge
    { acknowledgeCommand offset 1 1 with retryAfterMs := 0, classification := none }
    { nowMs := 1, monotonicNs := 0, publish := fun _ => .error .other, acknowledge := { nowMs := 1 } }

end Sample

end MeridianKafka
