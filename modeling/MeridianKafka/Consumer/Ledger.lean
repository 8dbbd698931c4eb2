import MeridianKafka.Consumer.Group

/-!
# The ledger of a partition

The engine keeps the books of all partitions in shared maps keyed by partition or
by (partition, offset). Every result about the group is a result about one
partition, so the books are read through `Member.ledger`: the five books of one
partition as plain functions of the offset, and what happened to the partition,
newest first.

The first half gives every small update of a member its counterpart on a ledger;
the `ledger_*` lemmas say that an update of one partition is that counterpart on
its own ledger and leaves the other ledgers alone. The second half reads a
history: what was delivered, resolved, rejected and committed.
-/

namespace MeridianKafka

open Framework

/-- The books of one partition, and its history. -/
@[ext] structure Ledger where
  inflight : ℕ → Option Inflight
  attempts : ℕ → Option ℕ
  acknowledged : Finset ℕ
  safeNext : Option ℕ
  paused : Option PausedDelivery
  history : List Occurrence

/-- The ledger of a partition that nothing has happened to. -/
def Ledger.empty : Ledger where
  inflight _ := none
  attempts _ := none
  acknowledged := ∅
  safeNext := none
  paused := none
  history := []

/-- The ledger of a partition. -/
def Member.ledger (m : Member) (partition : ℕ) : Ledger where
  inflight offset := m.state.inflight.get? (partition, offset)
  attempts offset := m.state.attempts.get? (partition, offset)
  acknowledged := m.acknowledgedOf partition
  safeNext := m.state.safeNext.get? partition
  paused := m.state.paused.get? partition
  history := historyOf m.history partition

namespace Ledger

variable (L : Ledger)

/-! ### Updates -/

def note (what : Occurrence) : Ledger := { L with history := what :: L.history }

def issue (offset : ℕ) (event : Event) (epoch expiresAtMs : ℕ) : Ledger :=
  let attempt := (L.attempts offset).getD 0 + 1
  { L with
    attempts := Function.update L.attempts offset (some attempt)
    safeNext := some (L.safeNext.getD offset)
    inflight := Function.update L.inflight offset (some ⟨event, attempt, epoch, expiresAtMs⟩)
    history := .delivered offset attempt :: L.history }

def dropInflight (offset : ℕ) : Ledger :=
  { L with inflight := Function.update L.inflight offset none }

def original (offset : ℕ) : ℕ := L.safeNext.getD offset

def contiguous (offset : ℕ) : ℕ × Finset ℕ :=
  advance (L.original offset) (insert offset L.acknowledged)

def collect (offset : ℕ) : Ledger :=
  { L with acknowledged := (L.contiguous offset).2, safeNext := some (L.original offset) }

def setSafe (safe : ℕ) : Ledger := { L with safeNext := some safe }

def settle (offset : ℕ) (transactional : Bool) : Ledger :=
  { L with
    inflight := Function.update L.inflight offset none
    attempts := Function.update L.attempts offset none
    history := .acknowledged offset (L.safeNext.getD 0) transactional :: L.history }

def setPaused (paused : PausedDelivery) : Ledger := { L with paused := some paused }

def deletePaused : Ledger := { L with paused := none }

/-- The pause ends when it waits for this offset. -/
def unpause (offset : ℕ) : Ledger :=
  if L.paused.any (·.offset = offset) then L.deletePaused else L

/-- The client returned the record at this offset, and it is handed out. -/
def handOut (offset : ℕ) (event : Event) (epoch expiresAtMs : ℕ) : Ledger :=
  ((L.note (.returned offset)).unpause offset).issue offset event epoch expiresAtMs

/-- The client returned the record at this offset, and it cannot be decoded. -/
def reject (offset : ℕ) : Ledger :=
  ((L.note (.returned offset)).unpause offset).note (.rejected offset)

def rewind (offset : ℕ) : Ledger :=
  { L with
    inflight := fun k => if k < offset then L.inflight k else none
    acknowledged := L.acknowledged.filter (· < offset)
    history := .seek offset :: L.history }

/-- What the revocation of the partition leaves. -/
def revoke : Ledger :=
  { L with
    inflight := fun _ => none
    attempts := fun _ => none
    acknowledged := ∅
    paused := none }

/-- What `group_position` leaves. -/
def reposition (target : Option ℕ) : Ledger :=
  { L with
    inflight := fun _ => none
    acknowledged := ∅
    safeNext := target
    history := (target.map .commit).toList ++ L.history }

end Ledger

/-! ### A member's updates, partition by partition -/

@[simp] theorem historyOf_cons (p q : ℕ) (w : Occurrence) (history : List (ℕ × Occurrence)) :
    historyOf ((q, w) :: history) p =
      if q = p then w :: historyOf history p else historyOf history p := by
  unfold historyOf
  rw [List.filterMap_cons]
  by_cases h : q = p <;> simp [h]

namespace Member

variable (m : Member) (p q o : ℕ)

theorem ledger_create (command : PollCommand) : (create command).ledger p = .empty := rfl

theorem ledger_joined (command : PollCommand) (partitions : List ℕ) :
    (joined command partitions).ledger p = .empty := rfl

theorem ledger_note (w : Occurrence) :
    (m.note q w).ledger p = if q = p then (m.ledger p).note w else m.ledger p := by
  by_cases h : q = p <;> simp [h, note, ledger, Ledger.note, acknowledgedOf]

theorem ledger_issue (event : Event) (expiresAtMs : ℕ) :
    (m.issue q o event expiresAtMs).ledger p =
      if q = p then (m.ledger p).issue o event m.state.assignmentEpoch expiresAtMs
      else m.ledger p := by
  by_cases h : q = p
  · subst h
    ext1 <;> simp [issue, ledger, Ledger.issue, acknowledgedOf, Dict.get?_set,
      Dict.get?_setdefault, Dict.getD, funext_iff, Function.update_apply]
  · ext1 <;> simp [issue, ledger, acknowledgedOf, Dict.get?_setdefault, h, Ne.symm h]

theorem ledger_dropInflight :
    (m.dropInflight q o).ledger p =
      if q = p then (m.ledger p).dropInflight o else m.ledger p := by
  by_cases h : q = p
  · subst h
    ext1 <;> simp [dropInflight, ledger, Ledger.dropInflight, acknowledgedOf, Dict.get?_erase,
      funext_iff, Function.update_apply]
  · ext1 <;> simp [dropInflight, ledger, acknowledgedOf, h, Ne.symm h]

theorem ledger_original : (m.ledger p).original o = m.original p o := rfl

theorem ledger_contiguous : (m.ledger p).contiguous o = m.contiguous p o := rfl

theorem ledger_collect :
    (m.collect q o).ledger p = if q = p then (m.ledger p).collect o else m.ledger p := by
  by_cases h : q = p
  · subst h
    ext1 <;> simp [collect, ledger, Ledger.collect, acknowledgedOf, Dict.get?_setdefault,
      Dict.getD, Ledger.contiguous, Ledger.original, contiguous, original]
  · ext1 <;> simp [collect, ledger, acknowledgedOf, Dict.getD, Dict.get?_setdefault, h, Ne.symm h]

theorem ledger_setSafe (safe : ℕ) :
    (m.setSafe q safe).ledger p = if q = p then (m.ledger p).setSafe safe else m.ledger p := by
  by_cases h : q = p
  · subst h
    ext1 <;> simp [setSafe, ledger, Ledger.setSafe, acknowledgedOf]
  · ext1 <;> simp [setSafe, ledger, acknowledgedOf, h, Ne.symm h]

theorem ledger_settle (transactional : Bool) :
    (m.settle q o transactional).ledger p =
      if q = p then (m.ledger p).settle o transactional else m.ledger p := by
  by_cases h : q = p
  · subst h
    ext1 <;> simp [settle, ledger, Ledger.settle, acknowledgedOf, Dict.get?_erase, Dict.getD,
      funext_iff, Function.update_apply]
  · ext1 <;> simp [settle, ledger, acknowledgedOf, h, Ne.symm h]

theorem ledger_setPaused (paused : PausedDelivery) :
    (m.setPaused q paused).ledger p =
      if q = p then (m.ledger p).setPaused paused else m.ledger p := by
  by_cases h : q = p
  · subst h
    ext1 <;> simp [setPaused, ledger, Ledger.setPaused, acknowledgedOf]
  · ext1 <;> simp [setPaused, ledger, acknowledgedOf, h, Ne.symm h]

theorem ledger_deletePaused :
    (m.deletePaused q).ledger p = if q = p then (m.ledger p).deletePaused else m.ledger p := by
  by_cases h : q = p
  · subst h
    ext1 <;> simp [deletePaused, ledger, Ledger.deletePaused, acknowledgedOf]
  · ext1 <;> simp [deletePaused, ledger, acknowledgedOf, h, Ne.symm h]

theorem ledger_rewind :
    (m.rewind q o).ledger p = if q = p then (m.ledger p).rewind o else m.ledger p := by
  by_cases h : q = p
  · subst h
    ext1
    case inflight =>
      funext k
      by_cases hk : k < o <;> cases hi : m.state.inflight.get? (q, k) <;>
        simp [rewind, ledger, Ledger.rewind, hk, hi]
    all_goals simp [rewind, ledger, Ledger.rewind, acknowledgedOf, Dict.getD]
  · ext1
    case inflight =>
      funext k
      cases hi : m.state.inflight.get? (p, k) <;> simp [rewind, ledger, hi, h, Ne.symm h]
    all_goals simp [rewind, ledger, acknowledgedOf, Dict.getD, h, Ne.symm h]

theorem ledger_revoked (partitions : List ℕ) :
    (m.revoked partitions).ledger p =
      if p ∈ partitions then (m.ledger p).revoke else m.ledger p := by
  by_cases h : p ∈ partitions <;> ext1 <;>
    simp [revoked, ledger, Ledger.revoke, acknowledgedOf, Dict.getD, h]

theorem ledger_reposition (target : Dict ℕ ℕ) :
    (m.reposition target).ledger p = (m.ledger p).reposition (target.get? p) := by
  have hhistory : historyOf (m.reposition target).history p =
      ((target.get? p).map .commit).toList ++ historyOf m.history p := by
    rw [← Dict.filterMap_entries]
    simp [reposition, historyOf, List.filterMap_map]
  ext1
  case history => exact hhistory
  all_goals simp [reposition, ledger, Ledger.reposition, acknowledgedOf, Dict.getD]

end Member

/-! ### Reading a history -/

/-- The offset of a record that was handed out. -/
def Occurrence.delivered? : Occurrence → Option ℕ
  | .delivered offset _ => some offset
  | _ => none

/-- The offset of a record whose delivery was acknowledged or dead-lettered. -/
def Occurrence.resolved? : Occurrence → Option ℕ
  | .acknowledged offset _ _ => some offset
  | _ => none

/-- The offset of a record that could not be decoded. -/
def Occurrence.rejected? : Occurrence → Option ℕ
  | .rejected offset => some offset
  | _ => none

/-- The offset of a commit. -/
def Occurrence.committed? : Occurrence → Option ℕ
  | .commit nextOffset => some nextOffset
  | _ => none

/-- The safe offset that an acknowledgement reported. -/
def Occurrence.safePosition? : Occurrence → Option ℕ
  | .acknowledged _ safe _ => some safe
  | _ => none

namespace Ledger

variable (L : Ledger)

def delivered : List ℕ := L.history.filterMap Occurrence.delivered?

def resolved : List ℕ := L.history.filterMap Occurrence.resolved?

def rejected : List ℕ := L.history.filterMap Occurrence.rejected?

/-- The offsets committed by the client, the last one first. -/
def commits : List ℕ := L.history.filterMap Occurrence.committed?

/-- The safe offsets that acknowledgements reported, the last one first. -/
def safePositions : List ℕ := L.history.filterMap Occurrence.safePosition?

def fetch : Option ℕ := fetchPosition L.history

/-! ### What a returned record changes -/

section Returned

variable {L} (o : ℕ) (event : Event) (epoch expiresAtMs : ℕ)

theorem unpause_paused {paused : PausedDelivery} :
    (L.unpause o).paused = some paused ↔ L.paused = some paused ∧ paused.offset ≠ o := by
  unfold unpause
  cases h : L.paused with
  | none => simp [h]
  | some other =>
    -- a pause of the offset itself goes, any other stays
    by_cases ho : other.offset = o
    · have hany : ((some other).any fun x => decide (x.offset = o)) = true := by simp [ho]
      rw [if_pos hany]
      constructor
      · exact fun hnone => absurd hnone (by simp [deletePaused])
      · rintro ⟨heq, hne⟩
        obtain rfl := Option.some.inj heq
        exact absurd ho hne
    · have hany : ¬((some other).any fun x => decide (x.offset = o)) = true := by simp [ho]
      rw [if_neg hany, h]
      constructor
      · intro heq
        obtain rfl := Option.some.inj heq
        exact ⟨rfl, ho⟩
      · exact And.left

/-- Ending a pause changes nothing but the pause. -/
private theorem unpause_eq (L : Ledger) :
    L.unpause o = { L with paused := (L.unpause o).paused } := by
  unfold unpause
  split <;> rfl

@[simp] theorem handOut_inflight : (L.handOut o event epoch expiresAtMs).inflight =
    Function.update L.inflight o
      (some ⟨event, (L.attempts o).getD 0 + 1, epoch, expiresAtMs⟩) := by
  rw [handOut, unpause_eq]; rfl

@[simp] theorem handOut_attempts : (L.handOut o event epoch expiresAtMs).attempts =
    Function.update L.attempts o (some ((L.attempts o).getD 0 + 1)) := by
  rw [handOut, unpause_eq]; rfl

@[simp] theorem handOut_acknowledged :
    (L.handOut o event epoch expiresAtMs).acknowledged = L.acknowledged := by
  rw [handOut, unpause_eq]; rfl

@[simp] theorem handOut_safeNext :
    (L.handOut o event epoch expiresAtMs).safeNext = some (L.original o) := by
  rw [handOut, unpause_eq]; rfl

theorem handOut_paused {paused : PausedDelivery} :
    (L.handOut o event epoch expiresAtMs).paused = some paused ↔
      L.paused = some paused ∧ paused.offset ≠ o :=
  unpause_paused o

@[simp] theorem handOut_delivered :
    (L.handOut o event epoch expiresAtMs).delivered = o :: L.delivered := by
  rw [handOut, unpause_eq]; rfl

@[simp] theorem handOut_resolved :
    (L.handOut o event epoch expiresAtMs).resolved = L.resolved := by
  rw [handOut, unpause_eq]; rfl

@[simp] theorem handOut_rejected :
    (L.handOut o event epoch expiresAtMs).rejected = L.rejected := by
  rw [handOut, unpause_eq]; rfl

@[simp] theorem handOut_commits :
    (L.handOut o event epoch expiresAtMs).commits = L.commits := by
  rw [handOut, unpause_eq]; rfl

@[simp] theorem handOut_safePositions :
    (L.handOut o event epoch expiresAtMs).safePositions = L.safePositions := by
  rw [handOut, unpause_eq]; rfl

@[simp] theorem handOut_fetch :
    (L.handOut o event epoch expiresAtMs).fetch = some (o + 1) := by
  rw [handOut, unpause_eq]; rfl

/-- A rejection changes the books only by the end of a pause. -/
theorem reject_eq (L : Ledger) : L.reject o =
    { L with
      paused := (L.reject o).paused
      history := .rejected o :: .returned o :: L.history } := by
  rw [reject, unpause_eq]; rfl

theorem reject_paused {paused : PausedDelivery} :
    (L.reject o).paused = some paused ↔ L.paused = some paused ∧ paused.offset ≠ o :=
  unpause_paused o

@[simp] theorem reject_inflight : (L.reject o).inflight = L.inflight := by rw [reject_eq]

@[simp] theorem reject_attempts : (L.reject o).attempts = L.attempts := by rw [reject_eq]

@[simp] theorem reject_acknowledged : (L.reject o).acknowledged = L.acknowledged := by
  rw [reject_eq]

@[simp] theorem reject_safeNext : (L.reject o).safeNext = L.safeNext := by rw [reject_eq]

@[simp] theorem reject_delivered : (L.reject o).delivered = L.delivered := by rw [reject_eq]; rfl

@[simp] theorem reject_resolved : (L.reject o).resolved = L.resolved := by rw [reject_eq]; rfl

@[simp] theorem reject_rejected : (L.reject o).rejected = o :: L.rejected := by
  rw [reject_eq]; rfl

@[simp] theorem reject_commits : (L.reject o).commits = L.commits := by rw [reject_eq]; rfl

@[simp] theorem reject_safePositions : (L.reject o).safePositions = L.safePositions := by
  rw [reject_eq]; rfl

@[simp] theorem reject_fetch : (L.reject o).fetch = some (o + 1) := by rw [reject_eq]; rfl

end Returned

end Ledger

end MeridianKafka
