import MeridianKafka.Consumer.SafeCommit

/-!
# The account of a partition

Some sessions acknowledge the deliveries of a group in a Kafka transaction, others
without. An `Account` says for one partition what has come of it: where the broker has
the group, and which records were acknowledged for good, in the transaction that is open,
and in a transaction that ended without a commit.

The account is `Honest` when the position does not pass a record that was acknowledged
in such a transaction only, and never moves backwards. `Agrees` is what keeps it honest:
how the account stands to the books of the group member and to the offset that is staged.
The safe offset of the books is at least the position, what is staged is the safe offset,
and while nothing is staged no record that waits for the transaction lies below it.
-/

namespace MeridianKafka

/-- What has become of the records of one partition of a group. -/
structure Account where
  /-- The offsets that the broker has had for the group, the last one first. -/
  positions : List ℕ := []
  /-- The records that were acknowledged without a transaction, or in one that has been
  committed. -/
  settled : List ℕ := []
  /-- The records that were acknowledged in the transaction that is open. -/
  pending : List ℕ := []
  /-- The records that were acknowledged in a transaction that ended without a commit. -/
  abandoned : List ℕ := []

namespace Account

variable (a : Account)

/-- The broker has the group at this offset. -/
def put (next : ℕ) : Account := { a with positions := next :: a.positions }

/-- An acknowledgement without a transaction. -/
def settle (o : ℕ) : Account := { a with settled := o :: a.settled }

/-- An acknowledgement in the transaction that is open. -/
def pend (o : ℕ) : Account := { a with pending := o :: a.pending }

/-- The transaction is committed. -/
def commit : Account := { a with settled := a.pending ++ a.settled, pending := [] }

/-- The transaction ends without a commit. -/
def abandon : Account := { a with abandoned := a.pending ++ a.abandoned, pending := [] }

/-- The record was acknowledged only in a transaction that is open or that ended without a
commit. -/
structure Unsettled (o : ℕ) : Prop where
  acknowledged : o ∈ a.pending ∨ o ∈ a.abandoned
  unsettled : o ∉ a.settled

/-- What the broker owes the records. -/
structure Honest : Prop where
  /-- The committed position does not pass a record that was acknowledged only in a
  transaction that is open or that ended without a commit. -/
  covered : ∀ n ∈ a.positions.head?, ∀ o, a.Unsettled o → n ≤ o
  /-- The committed position never moves backwards. -/
  forward : a.positions.Pairwise (· ≥ ·)

/-- No position has passed an unsettled record, and all of these can be read again. -/
structure Sound (Readable : ℕ → Prop) : Prop where
  covered : ∀ n ∈ a.positions, ∀ o, a.Unsettled o → n ≤ o
  forward : a.positions.Pairwise (· ≥ ·)
  readable : ∀ o, a.Unsettled o → Readable o

/-- How the account stands to the books of the member and to the offset that is staged. -/
structure Agrees (L : Ledger) (staged : Option ℕ) : Prop where
  safe : L.SafeCommit
  resolved : ∀ o ∈ L.resolved, o ∈ a.settled ∨ o ∈ a.pending
  position_le : ∀ s, L.safeNext = some s → ∀ n ∈ a.positions, n ≤ s
  owed : ∀ s, L.safeNext = some s → ∀ o ∈ a.abandoned, o ∉ a.settled → o ∉ a.pending → s ≤ o
  staged_eq : ∀ n, staged = some n → L.safeNext = some n
  waiting : staged = none → ∀ s, L.safeNext = some s → ∀ o ∈ a.pending, o ∉ a.settled → s ≤ o
  untouched : L.safeNext = none → a.pending = [] ∧ ∀ f, L.fetch = some f →
    (∀ n ∈ a.positions, n ≤ f) ∧ ∀ o, a.Unsettled o → f ≤ o

variable {a} {Readable : ℕ → Prop} {L L' : Ledger} {staged : Option ℕ} {o : ℕ}

theorem Sound.honest (h : a.Sound Readable) : a.Honest where
  covered n hn := h.covered n (List.mem_of_mem_head? hn)
  forward := h.forward

/-- The first position is the largest. -/
theorem Sound.le_head (h : a.Sound Readable) {n k : ℕ} (head : a.positions.head? = some n)
    (hk : k ∈ a.positions) : k ≤ n := by
  have hforward := h.forward
  cases hp : a.positions with
  | nil => simp [hp] at hk
  | cons first rest =>
    rw [hp] at head hk hforward
    obtain rfl : first = n := by simpa using head
    rcases List.mem_cons.mp hk with rfl | hk
    · exact le_rfl
    · exact (List.pairwise_cons.mp hforward).1 k hk

/-! ### What happens to the account -/

/-- A commit leaves fewer unsettled records. -/
theorem Unsettled.of_commit {k : ℕ} (h : a.commit.Unsettled k) :
    a.Unsettled k ∧ k ∈ a.abandoned ∧ k ∉ a.pending := by
  have hunsettled : k ∉ a.pending ++ a.settled := h.unsettled
  rw [List.mem_append, not_or] at hunsettled
  have habandoned : k ∈ a.abandoned := h.acknowledged.resolve_left List.not_mem_nil
  exact ⟨⟨Or.inr habandoned, hunsettled.2⟩, habandoned, hunsettled.1⟩

theorem unsettled_put {k n : ℕ} : (a.put n).Unsettled k ↔ a.Unsettled k :=
  ⟨fun h => ⟨h.acknowledged, h.unsettled⟩, fun h => ⟨h.acknowledged, h.unsettled⟩⟩

/-- When a transaction ends without a commit, the same records are unsettled. -/
theorem unsettled_abandon {k : ℕ} : a.abandon.Unsettled k ↔ a.Unsettled k := by
  constructor
  · intro h
    refine ⟨?_, h.unsettled⟩
    exact List.mem_append.mp (h.acknowledged.resolve_left List.not_mem_nil)
  · exact fun h => ⟨Or.inr (List.mem_append.mpr h.acknowledged), h.unsettled⟩

namespace Sound

theorem settle (h : a.Sound Readable) (o : ℕ) : (a.settle o).Sound Readable := by
  -- to settle an offset makes no other one unsettled
  have hless : ∀ k, (a.settle o).Unsettled k → a.Unsettled k := fun k hk =>
    ⟨hk.acknowledged, fun hmem => hk.unsettled (List.mem_cons_of_mem _ hmem)⟩
  exact ⟨fun n hn k hk => h.covered n hn k (hless k hk), h.forward, fun k hk =>
    h.readable k (hless k hk)⟩

theorem pend (h : a.Sound Readable) (readable : Readable o)
    (covered : o ∉ a.settled → ∀ n ∈ a.positions, n ≤ o) : (a.pend o).Sound Readable := by
  have hcases : ∀ k, (a.pend o).Unsettled k → k = o ∧ o ∉ a.settled ∨ a.Unsettled k := by
    intro k hk
    rcases hk.acknowledged with hpending | habandoned
    · rcases List.mem_cons.mp hpending with rfl | hpending
      · exact Or.inl ⟨rfl, hk.unsettled⟩
      · exact Or.inr ⟨Or.inl hpending, hk.unsettled⟩
    · exact Or.inr ⟨Or.inr habandoned, hk.unsettled⟩
  refine ⟨fun n hn k hk => ?_, h.forward, fun k hk => ?_⟩
  · rcases hcases k hk with ⟨rfl, hunsettled⟩ | hold
    · exact covered hunsettled n hn
    · exact h.covered n hn k hold
  · rcases hcases k hk with ⟨rfl, -⟩ | hold
    · exact readable
    · exact h.readable k hold

theorem put (h : a.Sound Readable) {next : ℕ} (forward : ∀ n ∈ a.positions, n ≤ next)
    (covered : ∀ k, a.Unsettled k → next ≤ k) : (a.put next).Sound Readable := by
  refine ⟨fun n hn k hk => ?_, List.Pairwise.cons forward h.forward, fun k hk =>
    h.readable k (unsettled_put.mp hk)⟩
  rcases List.mem_cons.mp hn with rfl | hn
  · exact covered k (unsettled_put.mp hk)
  · exact h.covered n hn k (unsettled_put.mp hk)

theorem commit (h : a.Sound Readable) : a.commit.Sound Readable :=
  ⟨fun n hn k hk => h.covered n hn k hk.of_commit.1, h.forward, fun k hk =>
    h.readable k hk.of_commit.1⟩

theorem abandon (h : a.Sound Readable) : a.abandon.Sound Readable :=
  ⟨fun n hn k hk => h.covered n hn k (unsettled_abandon.mp hk), h.forward, fun k hk =>
    h.readable k (unsettled_abandon.mp hk)⟩

end Sound

namespace Agrees

/-- Steps that settle nothing and leave the safe offset. -/
theorem mono (h : a.Agrees L staged) (safe : L'.SafeCommit) (hr : L'.resolved = L.resolved)
    (hs : L'.safeNext = L.safeNext) (hf : L.safeNext = none → L'.fetch = L.fetch) :
    a.Agrees L' staged where
  safe := safe
  resolved := by rw [hr]; exact h.resolved
  position_le := by rw [hs]; exact h.position_le
  owed := by rw [hs]; exact h.owed
  staged_eq := by rw [hs]; exact h.staged_eq
  waiting := by rw [hs]; exact h.waiting
  untouched hnone := by
    rw [hs] at hnone
    rw [hf hnone]
    exact h.untouched hnone

/-- Where the client reads on before the first delivery, no record was passed. -/
theorem opens (h : a.Agrees L staged) (sound : a.Sound Readable)
    (next : ∀ f, L.fetch = some f → f ≤ o ∧ ∀ k, f ≤ k → k < o → ¬Readable k)
    (start : L.fetch = none →
      (∀ n ∈ a.positions.head?, n ≤ o ∧ ∀ k, n ≤ k → k < o → ¬Readable k) ∧
        (a.positions = [] → ∀ k, a.Unsettled k → o ≤ k))
    (unset : L.safeNext = none) :
    (∀ n ∈ a.positions, n ≤ o) ∧ ∀ k, a.Unsettled k → o ≤ k := by
  -- A readable record from the place on where the client reads is not before `o`.
  have hreads : ∀ f, (∀ k, f ≤ k → k < o → ¬Readable k) → (∀ k, a.Unsettled k → f ≤ k) →
      ∀ k, a.Unsettled k → o ≤ k := by
    intro f hgap hle k hk
    by_contra hlt
    exact hgap k (hle k hk) (not_le.mp hlt) (sound.readable k hk)
  cases hfetch : L.fetch with
  | some f =>
    obtain ⟨-, huntouched⟩ := h.untouched unset
    obtain ⟨hpositions, hunsettled⟩ := huntouched f hfetch
    obtain ⟨hfo, hgap⟩ := next f hfetch
    exact ⟨fun n hn => (hpositions n hn).trans hfo, hreads f hgap hunsettled⟩
  | none =>
    obtain ⟨hstart, hempty⟩ := start hfetch
    cases hhead : a.positions.head? with
    | none =>
      have hnil : a.positions = [] := List.head?_eq_none_iff.mp hhead
      refine ⟨fun n hn => ?_, hempty hnil⟩
      rw [hnil] at hn
      exact absurd hn List.not_mem_nil
    | some n =>
      obtain ⟨hno, hgap⟩ := hstart n hhead
      refine ⟨fun k hk => (sound.le_head hhead hk).trans hno, hreads n hgap fun k hk => ?_⟩
      exact sound.covered n (List.mem_of_mem_head? hhead) k hk

theorem handOut (h : a.Agrees L staged) (event : Event) (epoch expiresAtMs : ℕ)
    (safe : (L.handOut o event epoch expiresAtMs).SafeCommit)
    (opens : L.safeNext = none → (∀ n ∈ a.positions, n ≤ o) ∧ ∀ k, a.Unsettled k → o ≤ k) :
    a.Agrees (L.handOut o event epoch expiresAtMs) staged := by
  cases hs : L.safeNext with
  | some s =>
    refine h.mono safe (by simp) ?_ fun hnone => absurd (hs.symm.trans hnone) (by simp)
    rw [Ledger.handOut_safeNext, Ledger.original_of_some hs, hs]
  | none =>
    -- The first delivery sets the safe offset.
    obtain ⟨hpositions, hunsettled⟩ := opens hs
    obtain ⟨hpending, -⟩ := h.untouched hs
    have hsafe : ∀ s, (L.handOut o event epoch expiresAtMs).safeNext = some s → s = o := by
      intro s hsome
      rw [Ledger.handOut_safeNext, Ledger.original_of_none hs] at hsome
      exact (Option.some.inj hsome).symm
    constructor
    case safe => exact safe
    case resolved => simpa using h.resolved
    case position_le =>
      intro s hsome n hn
      rw [hsafe s hsome]
      exact hpositions n hn
    case owed =>
      intro s hsome k hk hunsettled' hnot
      rw [hsafe s hsome]
      exact hunsettled k ⟨Or.inr hk, hunsettled'⟩
    case staged_eq =>
      intro n hn
      exact absurd (hs.symm.trans (h.staged_eq n hn)) (by simp)
    case waiting =>
      intro _ s _ k hk
      rw [hpending] at hk
      exact absurd hk List.not_mem_nil
    case untouched =>
      intro hnone
      simp at hnone

theorem reject (h : a.Agrees L staged) (sound : a.Sound Readable) (safe : (L.reject o).SafeCommit)
    (unreadable : ¬Readable o)
    (opens : L.safeNext = none → (∀ n ∈ a.positions, n ≤ o) ∧ ∀ k, a.Unsettled k → o ≤ k) :
    a.Agrees (L.reject o) staged where
  safe := safe
  resolved := by simpa using h.resolved
  position_le := by simpa using h.position_le
  owed := by simpa using h.owed
  staged_eq := by simpa using h.staged_eq
  waiting := by simpa using h.waiting
  untouched hnone := by
    rw [Ledger.reject_safeNext] at hnone
    obtain ⟨hpositions, hunsettled⟩ := opens hnone
    refine ⟨(h.untouched hnone).1, fun f hf => ?_⟩
    obtain rfl : o + 1 = f := by simpa using hf
    refine ⟨fun n hn => (hpositions n hn).trans (Nat.le_succ o), fun k hk => ?_⟩
    have hne : k ≠ o := fun heq => unreadable (heq ▸ sound.readable k hk)
    have hle := hunsettled k hk
    omega

/-! ### Acknowledgements -/

/-- A record in flight that is not settled is not below the safe offset. -/
theorem original_le (h : a.Agrees L staged) (hi : (L.inflight o).isSome)
    (unsettled : o ∉ a.settled) (not_pending : o ∉ a.pending) : L.original o ≤ o := by
  have hs := h.safe.sound.safeNext_of_inflight hi
  obtain ⟨f, -, hresolved, hdelivered, -⟩ := h.safe.first _ hs
  by_contra hlt
  have hmem := hresolved o (hdelivered o (h.safe.inflight_delivered o hi)) (not_le.mp hlt)
  exact (h.resolved o hmem).elim unsettled not_pending

/-- An acknowledgement in the transaction passes no position. -/
theorem covered_of_inflight (h : a.Agrees L staged) (sound : a.Sound Readable)
    (hi : (L.inflight o).isSome) (unsettled : o ∉ a.settled) : ∀ n ∈ a.positions, n ≤ o := by
  intro n hn
  by_cases hpending : o ∈ a.pending
  · exact sound.covered n hn o ⟨Or.inl hpending, unsettled⟩
  · have hs := h.safe.sound.safeNext_of_inflight hi
    exact (h.position_le _ hs n hn).trans (h.original_le hi unsettled hpending)

/-- The run that an acknowledgement starts ends at the latest at an offset that is not
acknowledged. -/
theorem contiguous_le {k : ℕ} (hle : L.original o ≤ k) (hne : k ≠ o) (hk : k ∉ L.acknowledged) :
    (L.contiguous o).1 ≤ k := by
  refine (L.contiguous_isFrontier o).le_of_notMem hle fun hmem => ?_
  exact (Finset.mem_insert.mp (Finset.mem_coe.mp hmem)).elim hne hk

/-- The run does not pass a record that was abandoned. -/
theorem contiguous_le_of_abandoned (h : a.Agrees L staged) (hi : (L.inflight o).isSome) {k : ℕ}
    (hk : k ∈ a.abandoned) (unsettled : k ∉ a.settled) (not_pending : k ∉ a.pending)
    (hne : k ≠ o) : (L.contiguous o).1 ≤ k := by
  have hs := h.safe.sound.safeNext_of_inflight hi
  refine contiguous_le (h.owed _ hs k hk unsettled not_pending) hne fun hmem => ?_
  exact (h.resolved k (h.safe.acknowledged_resolved k hmem)).elim unsettled not_pending

/-- The group cannot be moved, and the acknowledgement raises. -/
theorem fail {fails : Prop} (h : a.Agrees L staged)
    (hi : (L.inflight o).isSome) (advances : L.original o < (L.contiguous o).1) (raises : fails) :
    a.Agrees (L.collect o) staged := by
  have hs := h.safe.sound.safeNext_of_inflight hi
  have hstep : L.AcknowledgeStep o false fails (L.collect o) := .failed advances raises
  exact h.mono (h.safe.acknowledge hi hstep) rfl hs.symm fun hnone =>
    absurd (hs.symm.trans hnone) (by simp)

theorem resolved_settle (h : a.Agrees L staged) :
    ∀ k ∈ o :: L.resolved, k ∈ (a.settle o).settled ∨ k ∈ (a.settle o).pending := by
  intro k hk
  rcases List.mem_cons.mp hk with rfl | hk
  · exact Or.inl List.mem_cons_self
  · exact (h.resolved k hk).imp_left (List.mem_cons_of_mem o)

theorem resolved_pend (h : a.Agrees L staged) :
    ∀ k ∈ o :: L.resolved, k ∈ (a.pend o).settled ∨ k ∈ (a.pend o).pending := by
  intro k hk
  rcases List.mem_cons.mp hk with rfl | hk
  · exact Or.inr List.mem_cons_self
  · exact (h.resolved k hk).imp_right (List.mem_cons_of_mem o)

/-- A record that waits behind another one is settled, without a transaction. -/
theorem settle (h : a.Agrees L staged) (hi : (L.inflight o).isSome)
    (waits : (L.contiguous o).1 ≤ L.original o) :
    (a.settle o).Agrees ((L.collect o).settle o false) staged := by
  have hs := h.safe.sound.safeNext_of_inflight hi
  have hstep : L.AcknowledgeStep o false False ((L.collect o).settle o false) := .collected waits
  have hsame : ∀ s, ((L.collect o).settle o false).safeNext = some s → L.safeNext = some s :=
    fun s hsome => hs.trans hsome
  constructor
  case safe => exact h.safe.acknowledge hi hstep
  case resolved => exact h.resolved_settle
  case position_le => exact fun s hsome => h.position_le s (hsame s hsome)
  case owed =>
    intro s hsome k hk hunsettled
    exact h.owed s (hsame s hsome) k hk fun hmem => hunsettled (List.mem_cons_of_mem o hmem)
  case staged_eq => exact fun n hn => hs.symm.trans (h.staged_eq n hn)
  case waiting =>
    intro hnone s hsome k hk hunsettled
    exact h.waiting hnone s (hsame s hsome) k hk fun hmem => hunsettled (List.mem_cons_of_mem o hmem)
  case untouched =>
    intro hnone
    exact absurd hnone (by simp [Ledger.settle, Ledger.collect])

/-- A record at the safe offset is settled without a transaction, and the group moves. -/
theorem settle_moved (h : a.Agrees L none) (sound : a.Sound Readable)
    (hi : (L.inflight o).isSome) (advances : L.original o < (L.contiguous o).1)
    (apart : ∀ k ∈ a.pending, k ∉ a.settled → k ≠ o → ∃ j, o < j ∧ j ≤ k ∧ j ∉ L.acknowledged) :
    ((a.settle o).put (L.contiguous o).1).Sound Readable ∧
      ((a.settle o).put (L.contiguous o).1).Agrees
        ((((L.collect o).note (.commit (L.contiguous o).1)).setSafe (L.contiguous o).1).settle o
          false) none := by
  have hs := h.safe.sound.safeNext_of_inflight hi
  have hat := h.safe.sound.advances_iff.mp advances
  have hstep : L.AcknowledgeStep o false False
      ((((L.collect o).note (.commit (L.contiguous o).1)).setSafe (L.contiguous o).1).settle o
        false) := .moved advances id
  -- What only a transaction has acknowledged lies behind the run.
  have hpending : ∀ k ∈ a.pending, k ∉ o :: a.settled → (L.contiguous o).1 ≤ k := by
    intro k hk hunsettled
    rw [List.mem_cons, not_or] at hunsettled
    obtain ⟨j, hoj, hjk, hj⟩ := apart k hk hunsettled.2 hunsettled.1
    exact (contiguous_le (by omega) (by omega) hj).trans hjk
  have habandoned : ∀ k ∈ a.abandoned, k ∉ o :: a.settled → k ∉ a.pending →
      (L.contiguous o).1 ≤ k := by
    intro k hk hunsettled hnot
    rw [List.mem_cons, not_or] at hunsettled
    exact h.contiguous_le_of_abandoned hi hk hunsettled.2 hnot hunsettled.1
  have hpositions : ∀ n ∈ a.positions, n ≤ (L.contiguous o).1 :=
    fun n hn => (h.position_le _ hs n hn).trans advances.le
  have hnext : ∀ s, some (L.contiguous o).1 = some s → s = (L.contiguous o).1 :=
    fun s hsome => (Option.some.inj hsome).symm
  constructor
  · refine (sound.settle o).put hpositions fun k hk => ?_
    by_cases hwaits : k ∈ a.pending
    · exact hpending k hwaits hk.unsettled
    · exact habandoned k (hk.acknowledged.resolve_left hwaits) hk.unsettled hwaits
  · constructor
    case safe => exact h.safe.acknowledge hi hstep
    case resolved => exact h.resolved_settle
    case position_le =>
      intro s hsome n hn
      rw [hnext s hsome]
      rcases List.mem_cons.mp (show n ∈ (L.contiguous o).1 :: a.positions from hn) with rfl | hn
      · exact le_rfl
      · exact hpositions n hn
    case owed =>
      intro s hsome k hk hunsettled hnot
      rw [hnext s hsome]
      exact habandoned k hk hunsettled hnot
    case staged_eq => exact fun n hn => absurd hn (by simp)
    case waiting =>
      intro _ s hsome k hk hunsettled
      rw [hnext s hsome]
      exact hpending k hk hunsettled
    case untouched =>
      intro hnone
      exact absurd hnone (by simp [Ledger.settle, Ledger.setSafe])

/-- A record that waits behind another one is acknowledged in the transaction. -/
theorem pend (h : a.Agrees L staged) (hi : (L.inflight o).isSome)
    (waits : (L.contiguous o).1 ≤ L.original o) :
    (a.pend o).Agrees ((L.collect o).settle o true) staged := by
  have hs := h.safe.sound.safeNext_of_inflight hi
  have hstep : L.AcknowledgeStep o true False ((L.collect o).settle o true) := .collected waits
  have hsame : ∀ s, ((L.collect o).settle o true).safeNext = some s → L.safeNext = some s :=
    fun s hsome => hs.trans hsome
  constructor
  case safe => exact h.safe.acknowledge hi hstep
  case resolved => exact h.resolved_pend
  case position_le => exact fun s hsome => h.position_le s (hsame s hsome)
  case owed =>
    intro s hsome k hk hunsettled hnot
    exact h.owed s (hsame s hsome) k hk hunsettled fun hmem => hnot (List.mem_cons_of_mem o hmem)
  case staged_eq => exact fun n hn => hs.symm.trans (h.staged_eq n hn)
  case waiting =>
    intro hnone s hsome k hk hunsettled
    by_cases hold : k ∈ a.pending
    · exact h.waiting hnone s (hsame s hsome) k hold hunsettled
    · -- The record is the one that is acknowledged now.
      obtain rfl : k = o := (List.mem_cons.mp hk).resolve_right hold
      obtain rfl : L.original k = s := Option.some.inj (hs.symm.trans (hsame s hsome))
      exact h.original_le hi hunsettled hold
  case untouched =>
    intro hnone
    exact absurd hnone (by simp [Ledger.settle, Ledger.collect])

/-- A record at the safe offset is acknowledged in the transaction, and the end of the
run is staged. -/
theorem pend_moved (h : a.Agrees L staged) (hi : (L.inflight o).isSome)
    (advances : L.original o < (L.contiguous o).1) :
    (a.pend o).Agrees
      ((((L.collect o).note (.staged (L.contiguous o).1)).setSafe (L.contiguous o).1).settle o
        true) (some (L.contiguous o).1) := by
  have hs := h.safe.sound.safeNext_of_inflight hi
  have hstep : L.AcknowledgeStep o true False
      ((((L.collect o).note (.staged (L.contiguous o).1)).setSafe (L.contiguous o).1).settle o
        true) := .moved advances id
  have hnext : ∀ s, some (L.contiguous o).1 = some s → s = (L.contiguous o).1 :=
    fun s hsome => (Option.some.inj hsome).symm
  -- The transaction now holds the offset that this acknowledgement has staged.
  constructor
  case safe => exact h.safe.acknowledge hi hstep
  case resolved => exact h.resolved_pend
  case position_le =>
    intro s hsome n hn
    rw [hnext s hsome]
    exact (h.position_le _ hs n hn).trans advances.le
  case owed =>
    intro s hsome k hk hunsettled hnot
    rw [hnext s hsome]
    have hnot' : k ∉ o :: a.pending := hnot
    rw [List.mem_cons, not_or] at hnot'
    exact h.contiguous_le_of_abandoned hi hk hunsettled hnot'.2 hnot'.1
  case staged_eq => exact fun n hn => hn
  case waiting => exact fun hnone => absurd hnone (by simp)
  case untouched =>
    intro hnone
    exact absurd hnone (by simp [Ledger.settle, Ledger.setSafe])

/-! ### The end of a transaction -/

/-- The transaction is committed, and nothing was staged for the partition. -/
theorem commit (h : a.Agrees L staged) : a.commit.Agrees L none where
  safe := h.safe
  resolved k hk := by
    left
    exact List.mem_append.mpr (h.resolved k hk).symm
  position_le := h.position_le
  owed s hsome k hk hunsettled _ := by
    have hnot : k ∉ a.pending ++ a.settled := hunsettled
    rw [List.mem_append, not_or] at hnot
    exact h.owed s hsome k hk hnot.2 hnot.1
  staged_eq n hn := absurd hn (by simp)
  waiting _ _ _ k hk := absurd hk List.not_mem_nil
  untouched hnone := by
    obtain ⟨-, hfetch⟩ := h.untouched hnone
    exact ⟨rfl, fun f hf => ⟨(hfetch f hf).1, fun k hk => (hfetch f hf).2 k hk.of_commit.1⟩⟩

/-- The transaction is committed with the offset that is staged: the group moves to the
safe offset. -/
theorem commit_staged {n : ℕ} (h : a.Agrees L (some n)) (sound : a.Sound Readable) :
    (a.commit.put n).Sound Readable ∧ (a.commit.put n).Agrees L none := by
  have hs := h.staged_eq n rfl
  have hpositions : ∀ k ∈ a.positions, k ≤ n := h.position_le n hs
  constructor
  · refine sound.commit.put hpositions fun k hk => ?_
    obtain ⟨hunsettled, habandoned, hnot⟩ := hk.of_commit
    exact h.owed n hs k habandoned hunsettled.unsettled hnot
  · have hcommit := h.commit
    refine ⟨hcommit.safe, hcommit.resolved, ?_, hcommit.owed, hcommit.staged_eq, hcommit.waiting,
      fun hnone => absurd (hs.symm.trans hnone) (by simp)⟩
    intro s hsome k hk
    obtain rfl : n = s := Option.some.inj (hs.symm.trans hsome)
    rcases List.mem_cons.mp (show k ∈ n :: a.positions from hk) with rfl | hk
    · exact le_rfl
    · exact hpositions k hk

/-- The transaction ends without a commit, and everything in it was settled otherwise. -/
theorem abandon (h : a.Agrees L staged) (settled : ∀ k ∈ a.pending, k ∈ a.settled) :
    a.abandon.Agrees L none where
  safe := h.safe
  resolved k hk := Or.inl ((h.resolved k hk).elim id (settled k))
  position_le := h.position_le
  owed s hsome k hk hunsettled _ := by
    have hnot : k ∉ a.pending := fun hmem => hunsettled (settled k hmem)
    exact h.owed s hsome k ((List.mem_append.mp hk).resolve_left hnot) hunsettled hnot
  staged_eq n hn := absurd hn (by simp)
  waiting _ _ _ k hk := absurd hk List.not_mem_nil
  untouched hnone := by
    obtain ⟨-, hfetch⟩ := h.untouched hnone
    exact ⟨rfl, fun f hf => ⟨(hfetch f hf).1, fun k hk =>
      (hfetch f hf).2 k (unsettled_abandon.mp hk)⟩⟩

/-- A member that has just joined, while no transaction has acknowledged anything. -/
theorem joined (pending : a.pending = []) : a.Agrees .empty none where
  safe := .empty
  resolved k hk := absurd hk List.not_mem_nil
  position_le s hs := absurd hs (by simp [Ledger.empty])
  owed s hs := absurd hs (by simp [Ledger.empty])
  staged_eq n hn := absurd hn (by simp)
  waiting _ s hs := absurd hs (by simp [Ledger.empty])
  untouched _ := ⟨pending, fun f hf => absurd hf (by simp [Ledger.empty, Ledger.fetch, fetchPosition])⟩

end Agrees

end Account

end MeridianKafka
