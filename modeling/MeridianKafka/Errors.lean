import MeridianKafka.Framework.Ensures
import Mathlib.Data.Int.Notation

/-!
# Failures

The failure classes of the adapter and of the streaming contract it serves, the
exceptions of the Kafka client, and `normalizeKafkaError`, which maps the second
kind to the first.

`Raised` is what a call can end with besides a result: a Meridian failure, an
error of the Kafka client that has not been normalized, or an exception of any
other kind. `normalizeKafkaError` reads only the error code and the three flags
of a client error, so those are all that a `KafkaError` carries.
-/

namespace MeridianKafka

/-- The failure classes that the modelled code raises. -/
inductive FailureKind
  | kafkaConfigurationError
  | kafkaAuthenticationFailed
  | kafkaTransactionAborted
  | kafkaOperationFailed
  | cursorExpired
  | deliveryRejected
  | deliveryTimeout
  | groupPositionConflict
  | invalidCursor
  | invalidEvent
  | invalidStreamingDefinition
  | migrationRequired
  | rebalanceConflict
  | retentionBoundaryExceeded
  | streamingCapabilityMismatch
  | streamingPolicyDenied
  | streamingResourceNotFound
  | streamingUnavailable
  deriving DecidableEq, Repr

/-- A Meridian failure. A missing message is the default text of its class. -/
structure Failure where
  kind : FailureKind
  message : Option String := none
  requirement : Option String := none
  retryable : Option Bool := none
  operationContract : Option String := none
  logicalReferences : List String := []
  deriving DecidableEq, Repr

/-- The librdkafka error codes that the adapter tells apart. -/
inductive KafkaErrorCode
  | partitionEof
  | authentication
  | saslAuthenticationFailed
  | topicAuthorizationFailed
  | groupAuthorizationFailed
  | clusterAuthorizationFailed
  | transactionalIdAuthorizationFailed
  | unknownTopicOrPart
  | unknownTopicId
  | offsetOutOfRange
  | fencedInstanceId
  | illegalGeneration
  | unknownMemberId
  | rebalanceInProgress
  | producerFenced
  | invalidProducerEpoch
  | concurrentTransactions
  | transactionCoordinatorFenced
  | invalidTxnState
  | allBrokersDown
  | transport
  | timedOut
  | msgTimedOut
  | brokerNotAvailable
  | leaderNotAvailable
  | notController
  | notCoordinator
  | coordinatorNotAvailable
  | unlisted (code : ℤ)
  deriving DecidableEq, Repr

/-- An error of the Kafka client, with the flags it answers for. -/
structure KafkaError where
  code : KafkaErrorCode
  txnRequiresAbort : Bool := false
  fatal : Bool := false
  retriable : Bool := false
  deriving DecidableEq, Repr

/-- What a call ends with when it does not return. -/
inductive Raised
  | failure (failure : Failure)
  | kafka (error : KafkaError)
  | runtimeError (message : String)
  | other
  deriving DecidableEq, Repr

namespace KafkaErrorCode

def isAuthentication (code : KafkaErrorCode) : Bool :=
  code ∈ [authentication, saslAuthenticationFailed]

def isAuthorization (code : KafkaErrorCode) : Bool :=
  code ∈ [topicAuthorizationFailed, groupAuthorizationFailed, clusterAuthorizationFailed,
    transactionalIdAuthorizationFailed]

def isNotFound (code : KafkaErrorCode) : Bool :=
  code ∈ [unknownTopicOrPart, unknownTopicId]

def isOffset (code : KafkaErrorCode) : Bool := code ∈ [offsetOutOfRange]

def isRebalance (code : KafkaErrorCode) : Bool :=
  code ∈ [fencedInstanceId, illegalGeneration, unknownMemberId, rebalanceInProgress]

def isTransaction (code : KafkaErrorCode) : Bool :=
  code ∈ [producerFenced, invalidProducerEpoch, concurrentTransactions,
    transactionCoordinatorFenced, invalidTxnState]

def isUnavailable (code : KafkaErrorCode) : Bool :=
  code ∈ [allBrokersDown, transport, timedOut, msgTimedOut, brokerNotAvailable,
    leaderNotAvailable, notController, notCoordinator, coordinatorNotAvailable]

end KafkaErrorCode

/-- Map a client failure to a Meridian failure. Whatever is not an error of the
Kafka client, a Meridian failure included, becomes `KafkaOperationFailed`. -/
def normalizeKafkaError (value : Raised) (operationContract : Option String := none) : Failure :=
  match value with
  | .kafka error =>
    if error.code.isAuthentication then
      { kind := .kafkaAuthenticationFailed, operationContract }
    else if error.code.isAuthorization then
      { kind := .streamingPolicyDenied
        message := "Kafka denied the scoped data-plane operation"
        requirement := "binding.authorization"
        operationContract }
    else if error.code.isNotFound then
      { kind := .streamingResourceNotFound
        message := "The provisioned Kafka Resource mapping is unavailable"
        requirement := "binding.physical-resource"
        operationContract }
    else if error.code.isOffset then
      { kind := .cursorExpired, requirement := "cursor.retained-range", operationContract }
    else if error.code.isRebalance then
      { kind := .rebalanceConflict
        message := "Kafka group assignment changed before acknowledgement"
        requirement := "delivery.group-generation"
        operationContract }
    else if error.code.isTransaction || error.txnRequiresAbort || error.fatal then
      { kind := .kafkaTransactionAborted, retryable := error.retriable, operationContract }
    else if error.code.isUnavailable || error.retriable then
      { kind := .streamingUnavailable
        message := "Kafka Binding is temporarily unavailable"
        requirement := "binding.availability"
        operationContract }
    else { kind := .kafkaOperationFailed, retryable := false, operationContract }
  | _ => { kind := .kafkaOperationFailed, retryable := false, operationContract }

/-- A sequence that returns has had its first part return. -/
theorem exists_of_bind_eq_ok {ε α β : Type} {x : Except ε α} {f : α → Except ε β} {b : β}
    (h : x >>= f = .ok b) : ∃ a, x = .ok a ∧ f a = .ok b := by
  cases x with
  | error e => exact absurd h (by simp [bind, Except.bind])
  | ok a => exact ⟨a, rfl, h⟩

theorem bind_eq_ok_iff {ε α β : Type} {x : Except ε α} {f : α → Except ε β} {b : β} :
    x >>= f = .ok b ↔ ∃ a, x = .ok a ∧ f a = .ok b := by
  refine ⟨exists_of_bind_eq_ok, ?_⟩
  rintro ⟨a, rfl, h⟩
  exact h

/-- A run that is known to return. -/
theorem exists_ok_of_toBool {ε α : Type} {x : Except ε α} (h : x.toBool = true) :
    ∃ a, x = .ok a := by
  cases x with
  | error raised => exact absurd h Bool.false_ne_true
  | ok a => exact ⟨a, rfl⟩

theorem mapError_eq_ok_iff {ε ε' α : Type} {x : Except ε α} {f : ε → ε'} {a : α} :
    x.mapError f = .ok a ↔ x = .ok a := by
  cases x <;> simp [Except.mapError]

/-- A loop of checks returns when each of them does. -/
theorem forM_eq_ok_iff {ε α : Type} {check : α → Except ε Unit} {l : List α} :
    l.forM check = .ok () ↔ ∀ a ∈ l, check a = .ok () := by
  induction l with
  | nil => exact iff_of_true rfl nofun
  | cons a l ih =>
    rw [List.forall_mem_cons, ← ih]
    exact bind_eq_ok_iff.trans ⟨fun ⟨_, ha, hl⟩ => ⟨ha, hl⟩, fun ⟨ha, hl⟩ => ⟨(), ha, hl⟩⟩

/-! ### Bare exceptions -/

/-- What a check ends with. `error none` is a bare `TypeError`, `ValueError` or `KeyError`,
which a caller may answer with a failure; `error (some raised)` is anything else. -/
abbrev Checked := Except (Option Raised)

namespace Checked

variable {α β : Type}

def bare : Checked α := .error none

def fail (failure : Failure) : Checked α := .error (some (.failure failure))

/-- A condition that has to hold, or else the failure. -/
def require (p : Prop) [Decidable p] (failure : Failure) : Checked Unit :=
  if p then .ok () else fail failure

/-- A bare exception is answered with the failure. -/
def answering (failure : Failure) : Checked α → Checked α
  | .ok a => .ok a
  | .error none => fail failure
  | .error (some raised) => .error (some raised)

/-- A failure of a lookup. -/
def ofExcept : Except Failure α → Checked α
  | .ok a => .ok a
  | .error failure => fail failure

theorem bind_eq_ok_iff {x : Checked α} {f : α → Checked β} {b : β} :
    x >>= f = .ok b ↔ ∃ a, x = .ok a ∧ f a = .ok b := MeridianKafka.bind_eq_ok_iff

theorem ensures_require {p : Prop} [Decidable p] {failure : Failure} :
    Framework.Ensures (require p failure) fun _ => p :=
  .ite (fun hp => .pure hp) fun _ => .error

theorem require_eq_ok_iff {p : Prop} [Decidable p] {failure : Failure} :
    require p failure = .ok () ↔ p :=
  ⟨ensures_require (), fun h => if_pos h⟩

@[simp] theorem answering_eq_ok_iff {failure : Failure} {x : Checked α} {a : α} :
    x.answering failure = .ok a ↔ x = .ok a := by
  unfold answering fail
  cases x with
  | ok a' => simp
  | error raised => cases raised <;> simp

theorem ensures_ofExcept {x : Except Failure α} {P : α → Prop} (h : Framework.Ensures x P) :
    Framework.Ensures (ofExcept x) P := by
  cases x with
  | ok a => exact .pure (h a rfl)
  | error failure => exact .error

theorem ofExcept_eq_ok_iff {x : Except Failure α} {a : α} :
    ofExcept x = .ok a ↔ x = .ok a := by
  cases x with
  | ok a' => simp [ofExcept]
  | error failure => simp [ofExcept, fail]

theorem ensures_answering {failure : Failure} {x : Checked α} {P : α → Prop}
    (h : Framework.Ensures x P) : Framework.Ensures (answering failure x) P :=
  fun a ha => h a (answering_eq_ok_iff.mp ha)

end Checked

end MeridianKafka
