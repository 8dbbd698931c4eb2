import MeridianKafka.Consumer.GroupPosition
import Mathlib.Algebra.Ring.Nat

/-!
# Group position as a compare-and-set

The committed offsets of a Kafka group live on the broker, and every runtime that
serves the group may read and commit them. `GroupEngines` is the broker with any number
of engines. A call of `group_position` reads the committed offsets, then the low
watermarks of the partitions without one, compares, reads the watermarks of its target
and commits; between any two of these the other engines may do anything. Within one
engine the lock of the group keeps the other calls out.

The comparison is with what was read, and the commit is unconditional. A call that
returns has therefore compared what the group had when it read, not what it has when the
commit arrives: of two calls that read the same positions both commit
(`both_calls_succeed`).

As long as no other engine moves the group while a call is between its first read and
its commit, the calls are a compare-and-set (`compareAndSet_of_undisturbed`).
-/

namespace MeridianKafka

open Framework

/-! ### The broker -/

/-- What the broker holds of one topic for one group. -/
structure GroupBroker where
  committed : ℕ → Option ℕ
  low : ℕ → ℕ
  high : ℕ → ℕ

/-- `OFFSET_INVALID`: the answer for a partition without a committed offset. -/
def offsetInvalid : ℤ := -1001

namespace GroupBroker

variable (broker : GroupBroker)

/-- `consumer.committed`. -/
def offsets (partitions : List ℕ) : List (ℕ × ℤ) :=
  partitions.map fun p => (p, ((broker.committed p).map Int.ofNat).getD offsetInvalid)

/-- `consumer.get_watermark_offsets`. -/
def watermarks (p : ℕ) : ℕ × ℕ := (broker.low p, broker.high p)

/-- Where the group stands in each partition: at its committed offset, or else at the
low watermark. -/
def standing (partitions : List ℕ) : List (Bool × ℕ) :=
  partitions.map fun p => ((broker.committed p).isSome, (broker.committed p).getD (broker.low p))

/-- The commits of a history, newest first, reach the broker. -/
def apply (fresh : List (ℕ × Occurrence)) : GroupBroker :=
  { broker with
    committed := fun p =>
      ((historyOf fresh p).filterMap Occurrence.committed?).head?.or (broker.committed p) }

end GroupBroker

/-- What has been added to the history of a member. -/
def Member.since (m' m : Member) : List (ℕ × Occurrence) :=
  m'.history.take (m'.history.length - m.history.length)

/-! ### Any number of engines -/

/-- A call of `group_position` between two requests: what it has read so far. A
watermark that has not been read is not there to go on with. -/
structure PositionCall (Token : Type) where
  command : GroupPositionCommand Token
  env : GroupPositionEnv
  compared : Bool

namespace PositionCall

variable {Token : Type} (call : PositionCall Token) (p : ℕ) (watermarks : ℕ × ℕ)

/-- `_committed_positions` has read the watermarks of a partition. -/
def readLow : PositionCall Token :=
  { call with env.committedWatermarks :=
      Function.update call.env.committedWatermarks p (.ok watermarks) }

/-- `_validate_bounds` has read the watermarks of a partition. -/
def readBound : PositionCall Token :=
  { call with env.boundWatermarks :=
      Function.update call.env.boundWatermarks p (.ok watermarks) }

end PositionCall

/-- The broker, the member of the group in each runtime, and the calls under way. -/
structure GroupEngines (Token : Type) where
  broker : GroupBroker
  members : ℕ → Member
  calls : Dict ℕ (PositionCall Token)

/-- A step of some engine, or of the broker. -/
inductive GroupStep (Token : Type)
  /-- Any other operation of the engine. -/
  | operate (i : ℕ) (action : Action Token)
  /-- A call starts: it has listed the partitions and reads the committed offsets. -/
  | readCommitted (i : ℕ) (command : GroupPositionCommand Token) (nowMs : ℕ)
  | readLow (i p : ℕ)
  /-- The fingerprint of what was read is compared. -/
  | compare (i : ℕ)
  | readBound (i p : ℕ)
  | commit (i : ℕ) (commit emit : Option Raised)
  /-- A request of the call raises. -/
  | raises (i : ℕ)
  /-- A Kafka transaction with offsets of the group commits. -/
  | transaction (offsets : List (ℕ × ℕ))
  /-- Records arrive, or fall out of retention. -/
  | watermarks (p low high : ℕ)

/-- The step is the commit of a call of this engine. -/
def GroupStep.isCommitOf {Token : Type} (i : ℕ) : GroupStep Token → Bool
  | .commit j _ _ => j = i
  | _ => false

/-- The fingerprint of a group depends on its positions alone. -/
def KafkaCursorCodec.FingerprintsPositions {Token : Type} (cursor : KafkaCursorCodec Token) :
    Prop :=
  ∀ (topic : String) (d d' : Dict ℕ ℕ), (∀ p, d.get? p = d'.get? p) →
    cursor.groupPositionFingerprint topic d = cursor.groupPositionFingerprint topic d'

theorem payloadCodec_fingerprintsPositions (ttlMs : ℕ) :
    (payloadCodec ttlMs).FingerprintsPositions := by
  intro topic d d' h
  have hlength : d.entries.length = d'.entries.length :=
    (Dict.perm_entries_of_get?_eq h).length_eq
  have hnormalize : TokenPayload.normalizePositions d = TokenPayload.normalizePositions d' := by
    unfold TokenPayload.normalizePositions
    rw [hlength, Dict.sorted_eq_of_get?_eq h]
  unfold payloadCodec
  dsimp only
  rw [hnormalize]

/-- The action is a call of `group_position`. -/
def Action.isGroupPosition {Token : Type} : Action Token → Bool
  | .groupPosition _ _ => true
  | _ => false

namespace KafkaConsumerEngine

variable {Token : Type} (engine : KafkaConsumerEngine Token)
  (topics : List (String × TopicMetadata)) (topic : String)

/-- The partitions of the topic. -/
def partitionsOf : List ℕ := (partitionIds topics topic).toOption.getD []

/-- The fingerprint of what a call has read. -/
def readFingerprint (topic : String) (env : GroupPositionEnv) : Except Raised String := do
  engine.cursor.groupPositionFingerprint topic (← committedPositions env)

/-- What a call has read after its first request. -/
def firstRead (broker : GroupBroker) (nowMs : ℕ) : GroupPositionEnv where
  nowMs
  listTopics := .ok topics
  committed := .ok (broker.offsets (partitionsOf topics topic))
  committedWatermarks _ := .error .other
  boundWatermarks _ := .error .other

/-- The fingerprint that the group has now. -/
def groupFingerprint (broker : GroupBroker) : Except Raised String := do
  let _ ← partitionIds topics topic
  engine.readFingerprint topic
    { firstRead topics topic broker 0 with
      committedWatermarks := fun p => .ok (broker.watermarks p) }

/-- The call comes to its commit. -/
def commits (s : GroupEngines Token) (i : ℕ) (call : PositionCall Token)
    (commit emit : Option Raised) : Except Raised (String × String) × Member :=
  engine.groupPosition (s.members i) call.command { call.env with commit, emit }

/-- One step. -/
def stepGroup (s : GroupEngines Token) : GroupStep Token → GroupEngines Token
  | .operate i action =>
    let m := engine.next (s.members i) action
    { s with
      broker := s.broker.apply (m.since (s.members i))
      members := Function.update s.members i m }
  | .readCommitted i command nowMs =>
    { s with calls := s.calls.set i ⟨command, firstRead topics topic s.broker nowMs, false⟩ }
  | .readLow i p =>
    match s.calls.get? i with
    | none => s
    | some call => { s with calls := s.calls.set i (call.readLow p (s.broker.watermarks p)) }
  | .compare i =>
    match s.calls.get? i with
    | none => s
    | some call =>
      if engine.readFingerprint call.command.stream.topic call.env =
          .ok call.command.expectedFingerprint then
        { s with calls := s.calls.set i { call with compared := true } }
      else { s with calls := s.calls.erase i }
  | .readBound i p =>
    match s.calls.get? i with
    | none => s
    | some call => { s with calls := s.calls.set i (call.readBound p (s.broker.watermarks p)) }
  | .commit i commit emit =>
    match s.calls.get? i with
    | none => s
    | some call =>
      let m := (engine.commits s i call commit emit).2
      { broker := s.broker.apply (m.since (s.members i))
        members := Function.update s.members i m
        calls := s.calls.erase i }
  | .raises i => { s with calls := s.calls.erase i }
  | .transaction offsets =>
    { s with broker := s.broker.apply (offsets.map fun e => (e.1, .commit e.2)) }
  | .watermarks p low high =>
    { s with broker := { s.broker with
        low := Function.update s.broker.low p low
        high := Function.update s.broker.high p high } }

/-- The lock of the group admits one call at a time, and a call goes on in its order. -/
def MayStep (s : GroupEngines Token) : GroupStep Token → Prop
  | .operate i action => (s.calls.get? i).isNone ∧ !action.isGroupPosition
  | .readCommitted i command _ => (s.calls.get? i).isNone ∧ command.stream.topic = topic
  | .readLow i _ | .compare i => (s.calls.get? i).any (!·.compared)
  | .readBound i _ | .commit i _ _ => (s.calls.get? i).any (·.compared)
  | .raises i => (s.calls.get? i).isSome
  | .transaction _ | .watermarks _ _ _ => True

/-- The engines that serve the group. -/
def serving : Machine (GroupEngines Token) (GroupStep Token) where
  allowed := MayStep topic
  next := engine.stepGroup topics topic

instance (s : GroupEngines Token) : DecidablePred (MayStep topic s)
  | .operate _ _ | .readCommitted _ _ _ => inferInstanceAs (Decidable (_ ∧ _))
  | .readLow _ _ | .compare _ | .readBound _ _ | .commit _ _ _ | .raises _ =>
    inferInstanceAs (Decidable (_ = true))
  | .transaction _ | .watermarks _ _ _ => isTrue trivial

/-- The step is the commit of a call that returns this answer: the fingerprint that it
compared and the one of its target. -/
def Returns (s : GroupEngines Token) (i : ℕ) (commit emit : Option Raised)
    (answer : String × String) : Prop :=
  ∃ call, s.calls.get? i = some call ∧
    (engine.commits s i call commit emit).1 = .ok answer

/-- The calls of `group_position` in a run are a compare-and-set. -/
structure CompareAndSet (steps : List (GroupEngines Token × GroupStep Token)) : Prop where
  /-- The fingerprint that a call reports is the one that the group has at its commit. -/
  compared : ∀ before s i commit emit after, steps = before ++ (s, .commit i commit emit) :: after →
    ∀ answer, engine.Returns s i commit emit answer →
      engine.groupFingerprint topics topic s.broker = .ok answer.1
  /-- Of two calls that moved the group off the same fingerprint, the second has found it
  put back in between. -/
  once : ∀ before s i commit emit between s' i' commit' emit' after,
    steps = before ++ (s, .commit i commit emit) :: between ++
      (s', .commit i' commit' emit') :: after →
    ∀ answer answer', engine.Returns s i commit emit answer →
      engine.Returns s' i' commit' emit' answer' → answer.1 = answer'.1 → answer.2 ≠ answer.1 →
      ∃ x ∈ between, engine.groupFingerprint topics topic x.1.broker ≠ .ok answer.1 ∧
        engine.groupFingerprint topics topic (engine.stepGroup topics topic x.1 x.2).broker =
          .ok answer.1
  /-- No offset that was committed since a call has read is overwritten. -/
  kept : ∀ before s i command nowMs between s' commit emit after,
    steps = before ++ (s, .readCommitted i command nowMs) :: between ++
      (s', .commit i commit emit) :: after →
    (∀ x ∈ between, ∀ command nowMs, x.2 ≠ .readCommitted i command nowMs) →
    ∀ answer, engine.Returns s' i commit emit answer → ∀ x ∈ between,
      (engine.stepGroup topics topic x.1 x.2).broker.offsets (partitionsOf topics topic) =
        x.1.broker.offsets (partitionsOf topics topic)

instance (s : GroupEngines Token) (run : List (GroupStep Token)) :
    Decidable ((engine.serving topics topic).Legal s run) :=
  inferInstanceAs (Decidable (∀ x ∈ (engine.serving topics topic).steps s run,
    MayStep topic x.1 x.2))

/-- A step that moves the group is the commit of the only call under way, or there is
none. -/
def LetsThrough (s : GroupEngines Token) (step : GroupStep Token) : Prop :=
  (engine.stepGroup topics topic s step).broker.standing (partitionsOf topics topic) =
      s.broker.standing (partitionsOf topics topic) ∨
    ∀ i ∈ s.calls.keys, step.isCommitOf i

instance (s : GroupEngines Token) : DecidablePred (engine.LetsThrough topics topic s) :=
  fun _ => inferInstanceAs (Decidable (_ ∨ _))

/-! ### The committed positions -/

/-- Readings that agree on what is committed, and on the low watermarks that count, give
the same positions. -/
theorem committedPositions_congr {env env' : GroupPositionEnv} {positions : Dict ℕ ℕ}
    (same : env'.committed = env.committed)
    (lows : ∀ committed, env.committed = .ok committed → ∀ p o, (p, o) ∈ committed → o < 0 →
      ∀ w, env.committedWatermarks p = .ok w → ∃ w', env'.committedWatermarks p = .ok w' ∧
        w'.1 = w.1)
    (h : committedPositions env = .ok positions) : committedPositions env' = .ok positions := by
  unfold committedPositions at h ⊢
  rw [same]
  cases hcommitted : env.committed with
  | error raised =>
    rw [hcommitted] at h
    simp at h
  | ok committed =>
    rw [hcommitted] at h
    dsimp only at h ⊢
    replace lows := lows committed hcommitted
    clear hcommitted same
    -- The loop reads the same in every turn.
    generalize (Dict.empty : Dict ℕ ℕ) = found at h ⊢
    induction committed generalizing found with
    | nil => exact h
    | cons e committed ih =>
      obtain ⟨p, o⟩ := e
      rw [List.foldlM_cons] at h ⊢
      obtain ⟨found', hfound, h⟩ := exists_of_bind_eq_ok h
      have hrest := ih (fun p' o' hmem => lows p' o' (List.mem_cons_of_mem _ hmem)) found' h
      suffices hturn : (if o ≥ 0 then (.ok (found.set p o.toNat) : Except Raised (Dict ℕ ℕ))
          else (env'.committedWatermarks p).map fun w => found.set p w.1) = .ok found' by
        rw [hturn]
        exact hrest
      split at hfound
      · next hnonneg =>
        rw [if_pos hnonneg]
        exact hfound
      · next hneg =>
        rw [if_neg hneg]
        cases hw : env.committedWatermarks p with
        | error raised =>
          rw [hw] at hfound
          simp [Except.map] at hfound
        | ok w =>
          obtain ⟨w', hw', hlow⟩ := lows p o List.mem_cons_self (not_le.mp hneg) w hw
          rw [hw] at hfound
          rw [hw', ← hfound]
          simp [Except.map, hlow]

/-- With every offset committed, these are the positions. -/
theorem committedPositions_of_committed {env : GroupPositionEnv} {ps : List ℕ} (f : ℕ → ℕ)
    (committed : env.committed = .ok (ps.map fun p => (p, Int.ofNat (f p)))) :
    ∃ positions, committedPositions env = .ok positions ∧
      ∀ p, positions.get? p = if p ∈ ps then some (f p) else none := by
  unfold committedPositions
  rw [committed]
  dsimp only
  -- The loop overwrites what it has found before.
  suffices hloop : ∀ found : Dict ℕ ℕ, ∃ positions,
      (ps.map fun p => (p, Int.ofNat (f p))).foldlM
        (fun result (e : ℕ × ℤ) => if e.2 ≥ 0 then .ok (result.set e.1 e.2.toNat)
          else (env.committedWatermarks e.1).map fun w => result.set e.1 w.1) found =
        (.ok positions : Except Raised (Dict ℕ ℕ)) ∧
      ∀ p, positions.get? p = if p ∈ ps then some (f p) else found.get? p by
    obtain ⟨positions, hpositions, hget⟩ := hloop .empty
    exact ⟨positions, hpositions, hget⟩
  clear committed
  induction ps with
  | nil => exact fun found => ⟨found, rfl, fun p => rfl⟩
  | cons q ps ih =>
    intro found
    obtain ⟨positions, hpositions, hget⟩ := ih (found.set q (f q))
    refine ⟨positions, ?_, fun p => ?_⟩
    · rw [List.map_cons, List.foldlM_cons, ← hpositions]
      rfl
    · rw [hget, Dict.get?_set]
      by_cases hmem : p ∈ ps
      · rw [if_pos hmem, if_pos (List.mem_cons_of_mem _ hmem)]
      · by_cases heq : p = q
        · subst heq
          simp [hmem]
        · simp [hmem, heq]

/-! ### What a call has read -/

variable {engine topics topic} {broker broker' : GroupBroker} {s : GroupEngines Token}

/-- Where the group stands, partition by partition. -/
theorem standing_eq_iff {ps : List ℕ} : broker'.standing ps = broker.standing ps ↔
    ∀ p ∈ ps, broker'.committed p = broker.committed p ∧
      (broker.committed p = none → broker'.low p = broker.low p) := by
  unfold GroupBroker.standing
  rw [List.map_inj_left]
  refine forall₂_congr fun p _ => ?_
  rw [Prod.mk.injEq]
  cases broker.committed p <;> cases broker'.committed p <;> simp

theorem offsets_eq_of_standing {ps : List ℕ} (h : broker'.standing ps = broker.standing ps) :
    broker'.offsets ps = broker.offsets ps := by
  unfold GroupBroker.offsets
  rw [List.map_inj_left]
  intro p hp
  rw [(standing_eq_iff.mp h p hp).1]

/-- What the call has read is what the group has. -/
structure Agrees (topics : List (String × TopicMetadata)) (topic : String)
    (broker : GroupBroker) (call : PositionCall Token) : Prop where
  listed : call.env.listTopics = .ok topics
  about : call.command.stream.topic = topic
  committed : call.env.committed = .ok (broker.offsets (partitionsOf topics topic))
  lows : ∀ p ∈ partitionsOf topics topic, broker.committed p = none →
    ∀ w, call.env.committedWatermarks p = .ok w → w.1 = broker.low p

theorem Agrees.of_standing {call : PositionCall Token} (h : Agrees topics topic broker call)
    (same : broker'.standing (partitionsOf topics topic) =
      broker.standing (partitionsOf topics topic)) :
    Agrees topics topic broker' call where
  listed := h.listed
  about := h.about
  committed := by rw [offsets_eq_of_standing same, h.committed]
  lows p hp hnone w hw := by
    obtain ⟨hcommitted, hlow⟩ := standing_eq_iff.mp same p hp
    rw [hcommitted] at hnone
    rw [hlow hnone]
    exact h.lows p hp hnone w hw

theorem stepGroup_commit_none {i : ℕ} {commit emit : Option Raised}
    (none : s.calls.get? i = none) :
    engine.stepGroup topics topic s (.commit i commit emit) = s := by
  dsimp only [stepGroup]
  rw [none]

theorem stepGroup_commit_some {i : ℕ} {commit emit : Option Raised} {call : PositionCall Token}
    (here : s.calls.get? i = some call) :
    engine.stepGroup topics topic s (.commit i commit emit) =
      { broker := s.broker.apply
          ((engine.commits s i call commit emit).2.since (s.members i))
        members := Function.update s.members i (engine.commits s i call commit emit).2
        calls := s.calls.erase i } := by
  dsimp only [stepGroup]
  rw [here]

/-- Every call under way has read what the group has. -/
def Abreast (topics : List (String × TopicMetadata)) (topic : String) (s : GroupEngines Token) :
    Prop :=
  ∀ i call, s.calls.get? i = some call → Agrees topics topic s.broker call

/-- A step leaves the calls that it is not about where they stand. -/
theorem Abreast.keeps {step : GroupStep Token} (h : Abreast topics topic s)
    (undisturbed : engine.LetsThrough topics topic s step) {i : ℕ} {call : PositionCall Token}
    (here : s.calls.get? i = some call) (other : step.isCommitOf i = false) :
    Agrees topics topic (engine.stepGroup topics topic s step).broker call := by
  rcases undisturbed with hsame | hown
  · exact (h i call here).of_standing hsame
  · have hkey : i ∈ s.calls.keys := by
      rw [← Dict.get?_isSome_iff, here]
      rfl
    exact absurd (hown i hkey) (by simp [other])

/-- A call goes on with what it has read, and the others stay as they are. -/
theorem Abreast.set (h : Abreast topics topic s) {j : ℕ} {read : PositionCall Token}
    (hread : Agrees topics topic s.broker read) :
    Abreast topics topic { s with calls := s.calls.set j read } := by
  intro i call hcall
  change (s.calls.set j read).get? i = some call at hcall
  rw [Dict.get?_set] at hcall
  split at hcall
  · obtain rfl := Option.some.inj hcall
    exact hread
  · exact h i call hcall

theorem Abreast.erase (h : Abreast topics topic s) (j : ℕ) :
    Abreast topics topic { s with calls := s.calls.erase j } := by
  intro i call hcall
  change (s.calls.erase j).get? i = some call at hcall
  rw [Dict.get?_erase, Option.ite_none_left_eq_some] at hcall
  exact h i call hcall.2

/-- The watermark that is read is the one the broker has. -/
theorem Agrees.readLow {call : PositionCall Token} (h : Agrees topics topic broker call) (p : ℕ) :
    Agrees topics topic broker (call.readLow p (broker.watermarks p)) where
  listed := h.listed
  about := h.about
  committed := h.committed
  lows q hq hnone w hw := by
    change Function.update call.env.committedWatermarks p _ q = _ at hw
    rw [Function.update_apply] at hw
    split at hw
    · next heq =>
      obtain rfl := Except.ok.inj hw
      rw [heq]
      rfl
    · exact h.lows q hq hnone w hw

/-- **One step** that does not disturb the calls under way keeps them abreast. -/
theorem Abreast.step {step : GroupStep Token} (h : Abreast topics topic s)
    (may : MayStep topic s step) (undisturbed : engine.LetsThrough topics topic s step) :
    Abreast topics topic (engine.stepGroup topics topic s step) := by
  cases step with
  | operate j action => exact fun i call hcall => h.keeps undisturbed hcall rfl
  | readCommitted j command nowMs =>
    exact h.set ⟨rfl, may.2, rfl, fun p _ _ w hw => absurd hw (by simp [firstRead])⟩
  | readLow j p =>
    dsimp only [stepGroup]
    cases hj : s.calls.get? j with
    | none => exact h
    | some read => exact h.set ((h j read hj).readLow p)
  | compare j =>
    dsimp only [stepGroup]
    cases hj : s.calls.get? j with
    | none => exact h
    | some read =>
      have hread := h j read hj
      dsimp only
      split
      · exact h.set ⟨hread.listed, hread.about, hread.committed, hread.lows⟩
      · exact h.erase j
  | readBound j p =>
    dsimp only [stepGroup]
    cases hj : s.calls.get? j with
    | none => exact h
    | some read =>
      have hread := h j read hj
      exact h.set ⟨hread.listed, hread.about, hread.committed, hread.lows⟩
  -- The other calls keep what they have read: while one of them is under way, `LetsThrough` has
  -- the commit leave the broker's standing as it is.
  | commit j commit emit =>
    intro i call hcall
    cases hj : s.calls.get? j with
    | none =>
      rw [stepGroup_commit_none hj] at hcall ⊢
      exact h i call hcall
    | some own =>
      rw [stepGroup_commit_some hj] at hcall
      dsimp only at hcall
      rw [Dict.get?_erase, Option.ite_none_left_eq_some] at hcall
      refine h.keeps undisturbed hcall.2 ?_
      change decide (j = i) = false
      simpa using Ne.symm hcall.1
  | raises j => exact h.erase j
  | transaction offsets => exact fun i call hcall => h.keeps undisturbed hcall rfl
  | watermarks p low high => exact fun i call hcall => h.keeps undisturbed hcall rfl

/-! ### The commit of a call -/

/-- A call that returns and has read what the group has compared the fingerprint that
the group has. -/
theorem Agrees.fingerprint {call : PositionCall Token} (h : Agrees topics topic broker call)
    {m : Member} {commit emit : Option Raised} {answer : String × String}
    (returns : (engine.groupPosition m call.command { call.env with commit, emit }).1 =
      .ok answer) : engine.groupFingerprint topics topic broker = .ok answer.1 := by
  obtain ⟨target, htarget, -⟩ := groupPosition_ok returns
  have hpasses := of_groupPositionTarget htarget
  obtain ⟨positions, hpositions, hfingerprint⟩ := hpasses.compared
  obtain ⟨topics', partitions, htopics, hpartitions, -⟩ := hpasses.covers
  obtain rfl : topics = topics' := Except.ok.inj (h.listed.symm.trans htopics)
  rw [h.about] at hpartitions hfingerprint
  have hof : partitionsOf topics topic = partitions := by
    unfold partitionsOf
    rw [hpartitions]
    rfl
  have hcommitted := h.committed
  have hlows := h.lows
  rw [hof] at hcommitted hlows
  -- Reading again, now, would give the positions that the call has read.
  have hnow : committedPositions
      { firstRead topics topic broker 0 with
        committedWatermarks := fun p => .ok (broker.watermarks p) } = .ok positions := by
    refine committedPositions_congr ?_ ?_ hpositions
    · change Except.ok (broker.offsets (partitionsOf topics topic)) = call.env.committed
      rw [hof, hcommitted]
    · -- A negative offset is that of a partition without a commit.
      intro committed hread p o hmem hneg w hw
      refine ⟨broker.watermarks p, rfl, ?_⟩
      obtain rfl := Except.ok.inj (hcommitted.symm.trans hread)
      obtain ⟨q, hq, heq⟩ := List.mem_map.mp hmem
      obtain ⟨rfl, rfl⟩ := Prod.mk.inj heq
      have hnone : broker.committed q = none := by
        cases hc : broker.committed q with
        | none => rfl
        | some n =>
          rw [hc] at hneg
          exact absurd hneg (by simp)
      exact (hlows q hq hnone w hw).symm
  unfold groupFingerprint readFingerprint
  rw [hpartitions, hnow]
  exact hfingerprint

/-- The commits of a repositioned member are its target. -/
theorem apply_reposition (m : Member) (target : Dict ℕ ℕ) (p : ℕ) :
    (broker.apply ((m.reposition target).since m)).committed p =
      (target.get? p).or (broker.committed p) := by
  have hsince : (m.reposition target).since m =
      target.entries.map fun e => (e.1, .commit e.2) := by
    unfold Member.since Member.reposition
    simp
  have hhistory : historyOf (target.entries.map fun e => (e.1, Occurrence.commit e.2)) p =
      ((target.get? p).map .commit).toList := by
    rw [← Dict.filterMap_entries]
    simp [historyOf, List.filterMap_map]
  rw [hsince]
  unfold GroupBroker.apply
  dsimp only
  rw [hhistory]
  cases target.get? p <;> rfl

/-- After the commit of a call that returns, the group has the fingerprint of its
target. -/
theorem Agrees.moved (canonical : engine.cursor.FingerprintsPositions)
    {call : PositionCall Token} {i : ℕ} (h : Agrees topics topic s.broker call)
    (here : s.calls.get? i = some call) {commit emit : Option Raised} {answer : String × String}
    (returns : (engine.commits s i call commit emit).1 = .ok answer) :
    engine.groupFingerprint topics topic
      (engine.stepGroup topics topic s (.commit i commit emit)).broker = .ok answer.2 := by
  obtain ⟨target, htarget, hcommit, hafter, -⟩ := groupPosition_ok returns
  obtain ⟨topics', partitions, htopics, hpartitions, hcovers⟩ :=
    (of_groupPositionTarget htarget).covers
  obtain rfl : topics = topics' := Except.ok.inj (h.listed.symm.trans htopics)
  rw [h.about] at hpartitions hafter
  have hof : partitionsOf topics topic = partitions := by
    unfold partitionsOf
    rw [hpartitions]
    rfl
  have hmember : (engine.commits s i call commit emit).2 = (s.members i).reposition target :=
    groupPosition_committed htarget hcommit
  rw [stepGroup_commit_some here, hmember]
  dsimp only
  have hcommitted : ∀ p, (s.broker.apply
      (((s.members i).reposition target).since (s.members i))).committed p =
        (target.get? p).or (s.broker.committed p) := apply_reposition _ _
  generalize s.broker.apply (((s.members i).reposition target).since (s.members i)) = moved
    at hcommitted ⊢
  -- Every partition has a committed offset now: that of the target.
  have hall : ∀ p ∈ partitions, moved.committed p = some ((target.get? p).getD 0) := by
    intro p hp
    obtain ⟨t, ht⟩ := Option.isSome_iff_exists.mp ((hcovers p).mpr hp)
    rw [hcommitted, ht]
    rfl
  have hoffsets : moved.offsets partitions =
      partitions.map fun p => (p, Int.ofNat ((target.get? p).getD 0)) := by
    unfold GroupBroker.offsets
    refine List.map_congr_left fun p hp => ?_
    rw [hall p hp]
    rfl
  let env : GroupPositionEnv :=
    { firstRead topics topic moved 0 with
      committedWatermarks := fun p => .ok (moved.watermarks p) }
  have hread : env.committed =
      .ok (partitions.map fun p => (p, Int.ofNat ((target.get? p).getD 0))) := by
    change Except.ok (moved.offsets (partitionsOf topics topic)) = _
    rw [hof, hoffsets]
  obtain ⟨positions, hpositions, hget⟩ := committedPositions_of_committed _ hread
  have hsame : ∀ p, positions.get? p = target.get? p := by
    intro p
    rw [hget]
    split
    · next hp =>
      obtain ⟨t, ht⟩ := Option.isSome_iff_exists.mp ((hcovers p).mpr hp)
      rw [ht]
      rfl
    · next hp =>
      cases ht : target.get? p with
      | none => rfl
      | some t => exact absurd ((hcovers p).mp (by rw [ht]; rfl)) hp
  unfold groupFingerprint readFingerprint
  rw [hpartitions, hpositions]
  change engine.cursor.groupPositionFingerprint topic positions = _
  rw [canonical topic positions target hsame]
  exact hafter

/-! ### Runs -/

/-- A call that is under way after a step that does not start it was under way before,
and the step is not its commit. -/
theorem isSome_of_stepGroup {step : GroupStep Token} {i : ℕ}
    (h : ((engine.stepGroup topics topic s step).calls.get? i).isSome)
    (starts : ∀ command nowMs, step ≠ .readCommitted i command nowMs) :
    (s.calls.get? i).isSome ∧ step.isCommitOf i = false := by
  -- A call that goes on has been there.
  have hset : ∀ j read call, s.calls.get? j = some read →
      ((s.calls.set j call).get? i).isSome → (s.calls.get? i).isSome := by
    intro j read call hj hsome
    rw [Dict.get?_set] at hsome
    split at hsome
    · next heq =>
      rw [heq, hj]
      rfl
    · exact hsome
  have herase : ∀ j, ((s.calls.erase j).get? i).isSome → (s.calls.get? i).isSome ∧ i ≠ j := by
    intro j hsome
    rw [Dict.get?_erase] at hsome
    split at hsome
    · simp at hsome
    · next hne => exact ⟨hsome, hne⟩
  cases step with
  | operate j action => exact ⟨h, rfl⟩
  | readCommitted j command nowMs =>
    refine ⟨?_, rfl⟩
    change ((s.calls.set j _).get? i).isSome at h
    rw [Dict.get?_set] at h
    split at h
    · next heq => exact absurd (by rw [heq]) (starts command nowMs)
    · exact h
  | readLow j p =>
    refine ⟨?_, rfl⟩
    dsimp only [stepGroup] at h
    cases hj : s.calls.get? j with
    | none =>
      rw [hj] at h
      exact h
    | some read =>
      rw [hj] at h
      exact hset j read _ hj h
  | compare j =>
    refine ⟨?_, rfl⟩
    dsimp only [stepGroup] at h
    cases hj : s.calls.get? j with
    | none =>
      rw [hj] at h
      exact h
    | some read =>
      rw [hj] at h
      dsimp only at h
      split at h
      · exact hset j read _ hj h
      · exact (herase j h).1
  | readBound j p =>
    refine ⟨?_, rfl⟩
    dsimp only [stepGroup] at h
    cases hj : s.calls.get? j with
    | none =>
      rw [hj] at h
      exact h
    | some read =>
      rw [hj] at h
      exact hset j read _ hj h
  | commit j commit emit =>
    cases hj : s.calls.get? j with
    | none =>
      rw [stepGroup_commit_none hj] at h
      refine ⟨h, ?_⟩
      change decide (j = i) = false
      rw [decide_eq_false_iff_not]
      rintro rfl
      rw [hj] at h
      simp at h
    | some own =>
      rw [stepGroup_commit_some hj] at h
      obtain ⟨hsome, hne⟩ := herase j h
      refine ⟨hsome, ?_⟩
      change decide (j = i) = false
      simpa using Ne.symm hne
  | raises j => exact ⟨(herase j h).1, rfl⟩
  | transaction offsets => exact ⟨h, rfl⟩
  | watermarks p low high => exact ⟨h, rfl⟩

/-- A call that is under way at the end of a run that does not start it was under way all
along. -/
theorem isSome_of_play {run : List (GroupStep Token)} {i : ℕ}
    (h : (((engine.serving topics topic).play s run).calls.get? i).isSome)
    (starts : ∀ step ∈ run, ∀ command nowMs, step ≠ .readCommitted i command nowMs) :
    (s.calls.get? i).isSome := by
  induction run generalizing s with
  | nil => exact h
  | cons step run ih =>
    have hnext := ih h fun step' hmem => starts step' (List.mem_cons_of_mem _ hmem)
    exact (isSome_of_stepGroup hnext (starts step List.mem_cons_self)).1

/-- **Group position is a compare-and-set** in every run in which the group moves, while
a call of `group_position` is between its first read and its end, by the commit of this
call only. -/
theorem compareAndSet_of_undisturbed (canonical : engine.cursor.FingerprintsPositions)
    {start : GroupEngines Token} (idle : start.calls = .empty) {run : List (GroupStep Token)}
    (legal : (engine.serving topics topic).Legal start run)
    (undisturbed : ∀ x ∈ (engine.serving topics topic).steps start run,
      engine.LetsThrough topics topic x.1 x.2) :
    engine.CompareAndSet topics topic ((engine.serving topics topic).steps start run) := by
  -- After every first part of the run the calls have read what the group has.
  have habreast : ∀ run₁ run₂, run = run₁ ++ run₂ →
      Abreast topics topic ((engine.serving topics topic).play start run₁) := by
    rintro run₁ run₂ rfl
    rw [Machine.legal_append] at legal
    refine Machine.play_induction (C := engine.LetsThrough topics topic)
      (fun s step h may hundisturbed => h.step may hundisturbed) ?_ legal.1 fun x hx => ?_
    · intro i call hcall
      rw [idle] at hcall
      simp at hcall
    · refine undisturbed x ?_
      rw [Machine.steps_append]
      exact List.mem_append_left _ hx
  have hcompared : ∀ before s i commit emit after,
      (engine.serving topics topic).steps start run =
        before ++ (s, .commit i commit emit) :: after →
      ∀ answer, engine.Returns s i commit emit answer →
        engine.groupFingerprint topics topic s.broker = .ok answer.1 := by
    rintro before s i commit emit after heq answer ⟨call, hcall, hreturns⟩
    obtain ⟨run₁, run₂, hrun, -, rfl⟩ := Machine.exists_of_steps_eq heq
    exact (habreast run₁ _ hrun i call hcall).fingerprint hreturns
  refine ⟨hcompared, ?_, ?_⟩
  · rintro before s i commit emit between s' i' commit' emit' after heq answer answer' hreturns
      hreturns' hsame hoff
    have hback := hcompared _ s' i' commit' emit' after heq answer' hreturns'
    obtain ⟨run₁, run₂, run₃, hrun, -, rfl, rfl, rfl⟩ := Machine.exists_of_steps_eq_between heq
    obtain ⟨call, hcall, hcommits⟩ := hreturns
    have hmoved := (habreast run₁ _ hrun i call hcall).moved canonical hcall hcommits
    -- The group is off the fingerprint after the first commit, and on it before the second.
    refine Machine.exists_mem_steps_of_not
      (P := fun s : GroupEngines Token =>
        engine.groupFingerprint topics topic s.broker = .ok answer.1) ?_ ?_
    · intro hstill
      exact hoff (Except.ok.inj (hmoved.symm.trans hstill))
    · rw [hsame]
      exact hback
  · rintro before s i command nowMs between s' commit emit after heq hstarts answer
      ⟨call, hcall, -⟩ x hx
    have hmem : x ∈ (engine.serving topics topic).steps start run := by
      rw [heq]
      exact List.mem_append_left _ (List.mem_append_right _ (List.mem_cons_of_mem _ hx))
    obtain ⟨run₁, run₂, run₃, -, -, rfl, rfl, rfl⟩ := Machine.exists_of_steps_eq_between heq
    obtain ⟨s, step⟩ := x
    obtain ⟨first, rest, rfl, hplay⟩ := Machine.exists_of_mem_steps hx
    -- The call is under way at this step, which is not its commit.
    have hlabels : ∀ step' ∈ first ++ step :: rest, ∀ command nowMs,
        step' ≠ .readCommitted i command nowMs := by
      intro step' hstep'
      obtain ⟨x, hx, hlabel⟩ := Machine.exists_step_of_mem (engine.serving topics topic) _ hstep'
      rw [← hlabel]
      exact hstarts x hx
    have hend : (((engine.serving topics topic).play
        (engine.stepGroup topics topic s step) rest).calls.get? i).isSome := by
      rw [Machine.play_append, Machine.play_cons, hplay] at hcall
      change (((engine.serving topics topic).play
        ((engine.serving topics topic).next s step) rest).calls.get? i).isSome
      rw [hcall]
      rfl
    obtain ⟨hsome, hnot⟩ := isSome_of_stepGroup
      (isSome_of_play hend fun step' hstep' => hlabels step' (by simp [hstep']))
      (hlabels step (by simp))
    rcases undisturbed _ hmem with hstanding | hown
    · exact offsets_eq_of_standing hstanding
    · have hkey : i ∈ s.calls.keys := by
        rw [← Dict.get?_isSome_iff]
        exact hsome
      exact absurd (hown i hkey) (by simp [hnot])

end KafkaConsumerEngine

/-! ### Two engines -/

namespace Sample

def topics : List (String × TopicMetadata) := [(orders.topic, { partitions := [0] })]

/-- Engines that serve the group, which has committed the records 0 and 1. -/
def served : GroupEngines TokenPayload where
  broker := { committed := fun p => if p = 0 then some 2 else none, low := 0, high := fun _ => 10 }
  members _ := halfway
  calls := .empty

/-- A call up to its commit. -/
def callUpToCommit (i committed offset : ℕ) : List (GroupStep TokenPayload) :=
  [.readCommitted i (groupPositionCommand committed offset) 1, .compare i, .readBound i 0]

end Sample

namespace KafkaConsumerEngine

/-- One call after the other: the second finds what the first has left. -/
theorem compareAndSet_of_undisturbed_in_turn :
    Sample.engine.CompareAndSet Sample.topics Sample.orders.topic
      ((Sample.engine.serving Sample.topics Sample.orders.topic).steps Sample.served
        (Sample.callUpToCommit 0 2 0 ++ [.commit 0 none none] ++
          Sample.callUpToCommit 1 0 1 ++ [.commit 1 none none])) :=
  compareAndSet_of_undisturbed (payloadCodec_fingerprintsPositions _) rfl (by decide +kernel)
    (by decide +kernel)

/-- **Both calls succeed.** Two engines read that the group stands at 2, and both move
it: the first to 0, the second, which reports that it found the group at 2, to 1. -/
theorem both_calls_succeed :
    let run := Sample.callUpToCommit 0 2 0 ++ Sample.callUpToCommit 1 2 1 ++
      [.commit 0 none none, .commit 1 none none]
    let serving := Sample.engine.serving Sample.topics Sample.orders.topic
    serving.Legal Sample.served run ∧
      ¬Sample.engine.CompareAndSet Sample.topics Sample.orders.topic
        (serving.steps Sample.served run) := by
  intro run serving
  refine ⟨by decide +kernel, fun h => ?_⟩
  have hlast : serving.steps Sample.served run =
      serving.steps Sample.served run.dropLast ++
        (serving.play Sample.served run.dropLast, .commit 1 none none) :: [] :=
    serving.steps_append Sample.served run.dropLast [.commit 1 none none]
  -- the second call has compared before the first one committed
  have hanswer : ((serving.play Sample.served run.dropLast).calls.get? 1).map (fun call =>
      (Sample.engine.commits (serving.play Sample.served run.dropLast) 1 call none none).1) =
      some (.ok ("orders.v1:0=2", "orders.v1:0=1")) := by decide +kernel
  have hreturns : Sample.engine.Returns (serving.play Sample.served run.dropLast) 1 none none
      ("orders.v1:0=2", "orders.v1:0=1") := Option.map_eq_some_iff.mp hanswer
  have hcompared := h.compared _ _ _ _ _ _ hlast _ hreturns
  exact absurd hcompared (by decide +kernel)

end KafkaConsumerEngine

end MeridianKafka
