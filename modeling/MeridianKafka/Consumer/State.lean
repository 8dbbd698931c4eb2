import MeridianKafka.Contract
import MeridianKafka.Framework.Frontier

/-!
# The state of a group member

`GroupState` is the bookkeeping of one persistent group member: deliveries in
flight, attempt counts, the sparse set of acknowledged offsets, the safe offset
and the paused delivery of each partition. Offsets are keyed by partition or by
(partition, offset).

A `Member` adds the calls that reached the Kafka client, newest first, together
with the moments that results speak about (a delivery handed out, a record
rejected, an acknowledgement accepted). A client call that raised had no effect
and leaves no trace.

The small updates below are the assignments of the engine, one definition per
group of source lines that belong together. What each of them does to one
partition is the subject of `Consumer/Ledger.lean`.
-/

namespace MeridianKafka

open Framework

/-- A delivery that was handed out and is not resolved. -/
structure Inflight where
  event : Event
  attempt : ℕ
  assignmentEpoch : ℕ
  expiresAtMs : ℕ

/-- The delivery at which a paused partition resumes; the time is in nanoseconds
of the monotonic clock. -/
structure PausedDelivery where
  offset : ℕ
  resumeAt : ℕ
  deriving DecidableEq, Repr

/-- The bookkeeping of one group member. -/
structure GroupState where
  command : PollCommand
  assignmentEpoch : ℕ := 0
  assigned : Finset ℕ := ∅
  inflight : Dict (ℕ × ℕ) Inflight := .empty
  attempts : Dict (ℕ × ℕ) ℕ := .empty
  acknowledged : Dict ℕ (Finset ℕ) := .empty
  safeNext : Dict ℕ ℕ := .empty
  paused : Dict ℕ PausedDelivery := .empty

/-- What happened to one partition: a client call that took effect, or a moment of
the engine's own history. -/
inductive Occurrence
  /-- `consumer.poll` returned the record at this offset. -/
  | returned (offset : ℕ)
  | seek (offset : ℕ)
  | pause
  | resume
  | commit (nextOffset : ℕ)
  /-- The record was handed out as a delivery. -/
  | delivered (offset attempt : ℕ)
  /-- The record could not be decoded. -/
  | rejected (offset : ℕ)
  /-- The safe offset was staged on the transaction bridge. -/
  | staged (nextOffset : ℕ)
  /-- An acknowledgement was accepted; it reported this safe offset. -/
  | acknowledged (offset safe : ℕ) (transactional : Bool)
  deriving DecidableEq, Repr

/-- A group member: its bookkeeping and its history, newest first. -/
structure Member where
  state : GroupState
  history : List (ℕ × Occurrence) := []

namespace Member

/-- Note what happened to a partition. -/
def note (m : Member) (partition : ℕ) (what : Occurrence) : Member :=
  { m with history := (partition, what) :: m.history }

/-! ### Deliveries -/

/-- The bookkeeping of a delivery: its attempt number, the safe offset of a
partition seen for the first time, and the entry in flight. -/
def issue (m : Member) (partition offset : ℕ) (event : Event) (expiresAtMs : ℕ) : Member :=
  let key := (partition, offset)
  let attempt := m.state.attempts.getD key 0 + 1
  { state := { m.state with
      attempts := m.state.attempts.set key attempt
      safeNext := m.state.safeNext.setdefault partition offset
      inflight := m.state.inflight.set key
        ⟨event, attempt, m.state.assignmentEpoch, expiresAtMs⟩ }
    history := (partition, .delivered offset attempt) :: m.history }

/-- `del state.inflight[key]`. -/
def dropInflight (m : Member) (partition offset : ℕ) : Member :=
  { m with state := { m.state with inflight := m.state.inflight.erase (partition, offset) } }

/-! ### Acknowledgement -/

/-- The acknowledged offsets of a partition; a missing set reads as empty. -/
def acknowledgedOf (m : Member) (partition : ℕ) : Finset ℕ :=
  m.state.acknowledged.getD partition ∅

/-- The safe offset that `acknowledge` starts from. -/
def original (m : Member) (partition offset : ℕ) : ℕ := m.state.safeNext.getD partition offset

/-- The `while safe in acknowledged` loop after the offset was added: where it
ends, and the offsets it leaves. -/
def contiguous (m : Member) (partition offset : ℕ) : ℕ × Finset ℕ :=
  advance (m.original partition offset) (insert offset (m.acknowledgedOf partition))

/-- The bookkeeping up to the end of that loop: the offset is added, the safe
offset has a value, and the contiguous run is gone from the set. -/
def collect (m : Member) (partition offset : ℕ) : Member :=
  { m with state := { m.state with
      acknowledged := m.state.acknowledged.set partition (m.contiguous partition offset).2
      safeNext := m.state.safeNext.setdefault partition offset } }

/-- `state.safe_next[partition] = safe`. -/
def setSafe (m : Member) (partition safe : ℕ) : Member :=
  { m with state := { m.state with safeNext := m.state.safeNext.set partition safe } }

/-- The delivery leaves the books: neither in flight nor counted any more. -/
def settle (m : Member) (partition offset : ℕ) (transactional : Bool) : Member :=
  { state := { m.state with
      inflight := m.state.inflight.erase (partition, offset)
      attempts := m.state.attempts.erase (partition, offset) }
    history :=
      (partition, .acknowledged offset (m.state.safeNext.getD partition 0) transactional) ::
        m.history }

/-! ### Seeking, pausing and expiry -/

def setPaused (m : Member) (partition : ℕ) (paused : PausedDelivery) : Member :=
  { m with state := { m.state with paused := m.state.paused.set partition paused } }

def deletePaused (m : Member) (partition : ℕ) : Member :=
  { m with state := { m.state with paused := m.state.paused.erase partition } }

/-- One partition of an expiry: seek back, forget the deliveries in flight and the
acknowledged offsets from there on. -/
def rewind (m : Member) (partition offset : ℕ) : Member :=
  { state := { m.state with
      inflight := m.state.inflight.filter fun e => e.1.1 ≠ partition || e.1.2 < offset
      acknowledged := m.state.acknowledged.set partition
        ((m.acknowledgedOf partition).filter (· < offset)) }
    history := (partition, .seek offset) :: m.history }

/-! ### Rebalances -/

/-- The `on_assign` callback. -/
def assigned (m : Member) (partitions : List ℕ) : Member :=
  { m with state := { m.state with
      assignmentEpoch := m.state.assignmentEpoch + 1
      assigned := partitions.toFinset } }

/-- The `on_revoke` callback. -/
def revoked (m : Member) (partitions : List ℕ) : Member :=
  { m with state := { m.state with
      assignmentEpoch := m.state.assignmentEpoch + 1
      assigned := m.state.assigned \ partitions.toFinset
      inflight := m.state.inflight.filter fun e => e.1.1 ∉ partitions
      attempts := m.state.attempts.filter fun e => e.1.1 ∉ partitions
      acknowledged := m.state.acknowledged.filter fun e => e.1 ∉ partitions
      paused := m.state.paused.filter fun e => e.1 ∉ partitions } }

/-- The bookkeeping of `group_position` after its commit: a new epoch, and the safe
offsets are the target. -/
def reposition (m : Member) (target : Dict ℕ ℕ) : Member :=
  { state := { m.state with
      assignmentEpoch := m.state.assignmentEpoch + 1
      inflight := .empty
      acknowledged := .empty
      safeNext := target }
    history := (target.entries.map fun e => (e.1, .commit e.2)) ++ m.history }

/-- The member right after the engine subscribed, before any rebalance. -/
def create (command : PollCommand) : Member := { state := { command } }

end Member

end MeridianKafka
