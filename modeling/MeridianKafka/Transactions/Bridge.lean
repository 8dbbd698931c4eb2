import MeridianKafka.Errors
import MeridianKafka.Framework.Dict

/-!
# The transaction bridge

`KafkaTransactionBridge` is the one transactional producer of a runtime with the
group offsets staged for its open transaction. A client call that the bridge
makes either returns or raises; the outcome is an argument, `none` for a call
that returned.

`commit` answers with the offsets that Kafka applied: the staged offsets when
`commit_transaction` returned, whatever happened to the telemetry afterwards.
-/

namespace MeridianKafka

open Framework

structure KafkaTransactionBridge where
  active : Bool := false
  /-- The lease is held. -/
  lease : Bool := false
  offsets : Dict (String × ℕ) ℕ := .empty
  groupMetadata : Option String := none
  groupKey : Option String := none

namespace KafkaTransactionBridge

def operationContract : String := "meridian.streaming.transactional-consume-publish"

/-- `begin`. A lease that is held when the timeout ends fails the call; an
exception after the lease was taken gives it back. -/
def begin (bridge : KafkaTransactionBridge) (beginTransaction emit : Option Raised) :
    Except Raised Unit × KafkaTransactionBridge :=
  if bridge.lease then
    (.error (.failure
      { kind := .kafkaTransactionAborted
        message := "Kafka transactional producer lease timed out"
        retryable := true }), bridge)
  else
    match beginTransaction with
    | some raised =>
      (.error (.failure (normalizeKafkaError raised operationContract)), bridge)
    | none =>
      let bridge := { bridge with
        active := true, offsets := .empty, groupMetadata := none, groupKey := none }
      match emit with
      | some raised =>
        (.error (.failure (normalizeKafkaError raised operationContract)),
          { bridge with lease := false })
      | none => (.ok (), { bridge with lease := true })

/-- `stage_offset`. The staged offset of a partition is the largest one staged in
the transaction; a transaction keeps to the group it staged first. -/
def stageOffset (bridge : KafkaTransactionBridge) (groupKey : String)
    (consumerGroupMetadata : Except Raised String) (topic : String) (partition nextOffset : ℕ) :
    Except Raised Unit × KafkaTransactionBridge :=
  if !bridge.active then
    (.error (.runtimeError "cannot stage an offset outside a Kafka transaction"), bridge)
  else if bridge.groupKey.isSome && bridge.groupKey ≠ some groupKey then
    (.error (.failure
      { kind := .kafkaTransactionAborted
        message := "transactional consume-publish cannot cross ConsumerGroups"
        retryable := false }), bridge)
  else
    match consumerGroupMetadata with
    | .error raised => (.error raised, { bridge with groupKey := some groupKey })
    | .ok metadata =>
      (.ok (), { bridge with
        groupKey := some groupKey
        groupMetadata := some metadata
        offsets := bridge.offsets.set (topic, partition)
          (max nextOffset (bridge.offsets.getD (topic, partition) 0)) })

/-- `_finish`: nothing staged, nobody active, the lease free. -/
def finish (_bridge : KafkaTransactionBridge) : KafkaTransactionBridge := {}

/-- The client outcomes of one `commit`. -/
structure CommitEnv where
  sendOffsetsToTransaction : Option Raised := none
  commitTransaction : Option Raised := none
  emit : Option Raised := none

/-- Sending the staged offsets: nothing happens when there are none. -/
def sendOffsets (bridge : KafkaTransactionBridge) (env : CommitEnv) : Option Raised :=
  if bridge.offsets.entries.isEmpty then none
  else if bridge.groupMetadata.isNone then
    some (.failure
      { kind := .kafkaTransactionAborted
        message := "transaction offsets have no group metadata" })
  else env.sendOffsetsToTransaction

/-- `commit`, with the offsets that the committed Kafka transaction carried. A
failure is answered by an abort whose own failure is suppressed. -/
def commit (bridge : KafkaTransactionBridge) (env : CommitEnv) :
    Except Raised Unit × KafkaTransactionBridge × Option (Dict (String × ℕ) ℕ) :=
  if !bridge.active then
    (.error (.runtimeError "Kafka transaction is not active"), bridge, none)
  else
    match (bridge.sendOffsets env).or env.commitTransaction with
    | some raised =>
      (.error (.failure (normalizeKafkaError raised operationContract)), bridge.finish, none)
    | none =>
      match env.emit with
      | some raised =>
        (.error (.failure (normalizeKafkaError raised operationContract)),
          bridge.finish, some bridge.offsets)
      | none => (.ok (), bridge.finish, some bridge.offsets)

/-- `abort`: a no-op without an active transaction. -/
def abort (bridge : KafkaTransactionBridge) (abortTransaction emit : Option Raised) :
    Except Raised Unit × KafkaTransactionBridge :=
  if !bridge.active then (.ok (), bridge)
  else
    match abortTransaction.or emit with
    | some raised =>
      (.error (.failure (normalizeKafkaError raised operationContract)), bridge.finish)
    | none => (.ok (), bridge.finish)

/-- `close`: an open transaction is aborted before the producer is flushed. -/
def close (bridge : KafkaTransactionBridge) (abortTransaction emit flush : Option Raised) :
    Except Raised Unit × KafkaTransactionBridge :=
  match bridge.abort abortTransaction emit with
  | (.error raised, bridge) => (.error raised, bridge)
  | (.ok (), bridge) =>
    match flush with
    | some raised => (.error raised, bridge)
    | none => (.ok (), bridge)

/-! ### What each call leaves -/

variable (bridge : KafkaTransactionBridge)

/-- `stage_offset` either raises and leaves the offsets, or stages one. -/
theorem stageOffset_cases (groupKey : String) (metadata : Except Raised String) (topic : String)
    (partition nextOffset : ℕ) :
    (∃ raised, (bridge.stageOffset groupKey metadata topic partition nextOffset).1 =
        .error raised ∧
      (bridge.stageOffset groupKey metadata topic partition nextOffset).2.offsets =
        bridge.offsets) ∨
    ((bridge.stageOffset groupKey metadata topic partition nextOffset).1 = .ok () ∧
      (bridge.stageOffset groupKey metadata topic partition nextOffset).2.offsets =
        bridge.offsets.set (topic, partition)
          (max nextOffset (bridge.offsets.getD (topic, partition) 0))) := by
  unfold stageOffset
  split
  · exact Or.inl ⟨_, rfl, rfl⟩
  split
  · exact Or.inl ⟨_, rfl, rfl⟩
  cases metadata with
  | error raised => exact Or.inl ⟨raised, rfl, rfl⟩
  | ok metadata => exact Or.inr ⟨rfl, rfl⟩

/-- Staging keeps the transaction open, and whoever holds the lease. -/
theorem stageOffset_keeps (groupKey : String) (metadata : Except Raised String) (topic : String)
    (partition nextOffset : ℕ) :
    (bridge.stageOffset groupKey metadata topic partition nextOffset).2.active = bridge.active ∧
      (bridge.stageOffset groupKey metadata topic partition nextOffset).2.lease =
        bridge.lease := by
  unfold stageOffset
  split
  · exact ⟨rfl, rfl⟩
  split
  · exact ⟨rfl, rfl⟩
  cases metadata <;> exact ⟨rfl, rfl⟩

/-- **The three ways of a `commit`**: there is no transaction, or a client call raises and the
transaction is given up, or Kafka applies the staged offsets, whatever the telemetry does. -/
theorem commit_cases (env : CommitEnv) :
    (bridge.active = false ∧ ∃ raised, bridge.commit env = (.error raised, bridge, none)) ∨
    (bridge.active = true ∧ (bridge.sendOffsets env).or env.commitTransaction ≠ none ∧
      ∃ raised, bridge.commit env = (.error raised, bridge.finish, none)) ∨
    (bridge.active = true ∧ (bridge.sendOffsets env).or env.commitTransaction = none ∧
      ∃ answer, bridge.commit env = (answer, bridge.finish, some bridge.offsets) ∧
        (env.emit = none → answer = .ok ())) := by
  unfold commit
  cases bridge.active with
  | false => exact Or.inl ⟨rfl, _, rfl⟩
  | true =>
    rw [if_neg (by simp)]
    cases (bridge.sendOffsets env).or env.commitTransaction with
    | some raised => exact Or.inr (Or.inl ⟨rfl, Option.some_ne_none _, _, rfl⟩)
    | none =>
      refine Or.inr (Or.inr ⟨rfl, rfl, ?_⟩)
      cases env.emit with
      | some raised => exact ⟨_, rfl, fun h => absurd h (Option.some_ne_none _)⟩
      | none => exact ⟨_, rfl, fun _ => rfl⟩

variable {bridge}

/-- `begin` raises and leaves the bridge when the lease is taken. -/
theorem begin_of_lease (h : bridge.lease = true) (beginTransaction emit : Option Raised) :
    ∃ raised, bridge.begin beginTransaction emit = (.error raised, bridge) := by
  unfold KafkaTransactionBridge.begin
  rw [if_pos h]
  exact ⟨_, rfl⟩

/-- A `begin` that returns takes the free lease and starts with nothing staged. -/
theorem begin_ok {beginTransaction emit : Option Raised} {bridge' : KafkaTransactionBridge}
    (h : bridge.begin beginTransaction emit = (.ok (), bridge')) :
    bridge.lease = false ∧ bridge' = { active := true, lease := true } := by
  unfold KafkaTransactionBridge.begin at h
  split at h
  · simp at h
  · next hlease =>
    cases beginTransaction with
    | some raised => simp at h
    | none =>
      cases emit with
      | some raised => simp at h
      | none =>
        rw [Prod.mk.injEq] at h
        exact ⟨by simpa using hlease, h.2.symm⟩

end KafkaTransactionBridge

end MeridianKafka
