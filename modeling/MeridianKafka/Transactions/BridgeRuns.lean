import MeridianKafka.Framework.Machine
import MeridianKafka.Transactions.Bridge

/-!
# The transaction bridge under any order of calls

One bridge and any number of callers. The lease of the bridge is a lock, which does
not say who took it, so a `LeasedBridge` adds that to the bridge, with the caller of
the last `begin` that returned and the offsets that were staged since. None of the
three is read by a call.

`BridgeInvariant` is what a state between two calls owes and `CallOwes` what a call
owes beyond that: a `begin` that raises leaves nothing behind, and a `commit` that
raises has not committed. Both hold along a run exactly when the telemetry sink
stays out of the way at two moments (`bridge_iff`): after `begin_transaction` has
returned, where an exception gives the lease back and leaves the flag, and after
`commit_transaction` has returned, where it makes a commit look like a failure.
-/

namespace MeridianKafka

open Framework

/-- An offset that was staged, with the group and the partition it is for. -/
structure StagedOffset where
  groupKey : String
  topic : String
  partition : ℕ
  nextOffset : ℕ

/-- A bridge and its callers, by number. -/
structure LeasedBridge where
  bridge : KafkaTransactionBridge := {}
  /-- Who took the lease, while it is held. -/
  holder : Option ℕ := none
  /-- The caller of the last `begin` that returned. -/
  begun : Option ℕ := none
  /-- What was staged since then, newest first. -/
  staged : List StagedOffset := []

/-- A call of the bridge with its arguments and the outcomes of its client calls. -/
inductive BridgeCall
  | begin (beginTransaction emit : Option Raised)
  | stageOffset (groupKey : String) (metadata : Except Raised String) (topic : String)
      (partition nextOffset : ℕ)
  | commit (env : KafkaTransactionBridge.CommitEnv)
  | abort (abortTransaction emit : Option Raised)
  | close (abortTransaction emit flush : Option Raised)

/-- The largest offset that was staged for a partition. -/
def largestStaged (staged : List StagedOffset) (topic : String) (partition : ℕ) : Option ℕ :=
  ((staged.filter fun x => x.topic = topic && x.partition = partition).map
    StagedOffset.nextOffset).max?

namespace LeasedBridge

variable (s : LeasedBridge)

/-- Who holds the lease when a call of `caller` leaves the bridge like this. -/
def holderAfter (caller : ℕ) (bridge : KafkaTransactionBridge) : Option ℕ :=
  if !bridge.lease then none
  else if s.bridge.lease then s.holder
  else some caller

/-- A call leaves the bridge like this. -/
def leave (caller : ℕ) (bridge : KafkaTransactionBridge) : LeasedBridge :=
  { s with bridge, holder := s.holderAfter caller bridge }

/-- The bridge after a call. -/
def next (caller : ℕ) : BridgeCall → LeasedBridge
  | .begin beginTransaction emit =>
    match s.bridge.begin beginTransaction emit with
    | (.ok (), bridge) => { s.leave caller bridge with begun := some caller, staged := [] }
    | (.error _, bridge) => s.leave caller bridge
  | .stageOffset groupKey metadata topic partition nextOffset =>
    match s.bridge.stageOffset groupKey metadata topic partition nextOffset with
    | (.ok (), bridge) =>
      { s.leave caller bridge with
        staged := ⟨groupKey, topic, partition, nextOffset⟩ :: s.staged }
    | (.error _, bridge) => s.leave caller bridge
  | .commit env => s.leave caller (s.bridge.commit env).2.1
  | .abort abortTransaction emit => s.leave caller (s.bridge.abort abortTransaction emit).2
  | .close abortTransaction emit flush =>
    s.leave caller (s.bridge.close abortTransaction emit flush).2

/-- One bridge under the calls of any number of callers. -/
def machine : Machine LeasedBridge (ℕ × BridgeCall) where
  allowed _ _ := True
  next s label := s.next label.1 label.2

/-- What holds between two calls. -/
structure BridgeInvariant : Prop where
  /-- The bridge is active exactly while the caller whose `begin` returned has the lease. -/
  leased : s.bridge.active = true ↔
    s.bridge.lease = true ∧ s.holder.isSome ∧ s.holder = s.begun
  idle : s.bridge.active = false →
    s.bridge.offsets = .empty ∧ s.bridge.groupMetadata = none ∧ s.bridge.groupKey = none
  largest : s.bridge.active = true →
    ∀ topic p, s.bridge.offsets.get? (topic, p) = largestStaged s.staged topic p
  oneGroup : s.bridge.active = true → ∀ x ∈ s.staged, s.bridge.groupKey = some x.groupKey

/-- What a call owes beyond the invariant. A `begin` that finds the lease taken
raises as well; the bridge is then somebody else's, and it stays as it is. -/
def CallOwes : BridgeCall → Prop
  | .begin beginTransaction emit => s.bridge.lease = false →
    ∀ raised, (s.bridge.begin beginTransaction emit).1 = .error raised →
      (s.bridge.begin beginTransaction emit).2.active = false ∧
        (s.bridge.begin beginTransaction emit).2.lease = false
  | .commit env =>
    (∀ raised, (s.bridge.commit env).1 = .error raised → (s.bridge.commit env).2.2 = none) ∧
      ∀ offsets, (s.bridge.commit env).2.2 = some offsets →
        ∀ topic p, offsets.get? (topic, p) = largestStaged s.staged topic p
  | _ => True

/-- The telemetry sink does not raise after `begin_transaction` has returned, nor
after `commit_transaction` has. -/
def SinkStaysQuiet : BridgeCall → Prop
  | .begin beginTransaction emit =>
    s.bridge.lease = false → beginTransaction = none → emit = none
  | .commit env => s.bridge.active = true →
    (s.bridge.sendOffsets env).or env.commitTransaction = none → env.emit = none
  | _ => True

variable {s}

/-! ### One call -/

theorem BridgeInvariant.fresh : (({} : LeasedBridge)).BridgeInvariant where
  leased := by simp
  idle _ := ⟨rfl, rfl, rfl⟩
  largest hactive := absurd hactive (by simp)
  oneGroup hactive := absurd hactive (by simp)

/-- A call that finishes the transaction leaves the invariant, whatever was before. -/
theorem BridgeInvariant.of_finish (caller : ℕ) : (s.leave caller {}).BridgeInvariant where
  leased := by simp [leave]
  idle _ := ⟨rfl, rfl, rfl⟩
  largest hactive := absurd hactive (by simp [leave])
  oneGroup hactive := absurd hactive (by simp [leave])

/-- A call that leaves the bridge as it was leaves the invariant. -/
theorem BridgeInvariant.leave_self (h : s.BridgeInvariant) (caller : ℕ) :
    (s.leave caller s.bridge).BridgeInvariant := by
  refine ⟨?_, h.idle, h.largest, h.oneGroup⟩
  change s.bridge.active = true ↔ s.bridge.lease = true ∧
    (s.holderAfter caller s.bridge).isSome ∧ s.holderAfter caller s.bridge = s.begun
  rw [h.leased]
  unfold holderAfter
  cases s.bridge.lease <;> simp

/-- One more offset moves the largest one of its partition up to it. -/
theorem largestStaged_cons (x : StagedOffset) (staged : List StagedOffset) (topic : String)
    (p : ℕ) :
    largestStaged (x :: staged) topic p =
      if x.topic = topic ∧ x.partition = p then
        some (max x.nextOffset ((largestStaged staged topic p).getD 0))
      else largestStaged staged topic p := by
  unfold largestStaged
  rw [List.filter_cons]
  by_cases here : x.topic = topic ∧ x.partition = p
  · have hkeep : (decide (x.topic = topic) && decide (x.partition = p)) = true := by simp [here]
    rw [if_pos hkeep, List.map_cons, List.max?_cons, if_pos here]
    cases ((staged.filter fun x => x.topic = topic && x.partition = p).map
      StagedOffset.nextOffset).max? <;> simp
  · have hdrop : ¬(decide (x.topic = topic) && decide (x.partition = p)) = true := by
      simpa using here
    rw [if_neg hdrop, if_neg here]

theorem BridgeInvariant.begin (h : s.BridgeInvariant) (caller : ℕ)
    {beginTransaction emit : Option Raised}
    (quiet : s.SinkStaysQuiet (.begin beginTransaction emit)) :
    (s.next caller (.begin beginTransaction emit)).BridgeInvariant ∧
      s.CallOwes (.begin beginTransaction emit) := by
  cases hlease : s.bridge.lease with
  | true =>
    -- The lease is taken: the call times out and touches nothing.
    obtain ⟨raised, hbegin⟩ :=
      KafkaTransactionBridge.begin_of_lease hlease beginTransaction emit
    refine ⟨?_, fun hfree => absurd (hlease.symm.trans hfree) (by simp)⟩
    rw [next, hbegin]
    exact h.leave_self caller
  | false =>
    have hinactive : s.bridge.active = false := by
      rw [Bool.eq_false_iff]
      intro hactive
      have hheld := (h.leased.mp hactive).1
      rw [hlease] at hheld
      simp at hheld
    cases beginTransaction with
    | some raised =>
      have hbegin : s.bridge.begin (some raised) emit =
          (.error (.failure (normalizeKafkaError raised
            KafkaTransactionBridge.operationContract)), s.bridge) := by
        simp [KafkaTransactionBridge.begin, hlease]
      refine ⟨?_, fun _ _ _ => by rw [hbegin]; exact ⟨hinactive, hlease⟩⟩
      rw [next, hbegin]
      exact h.leave_self caller
    | none =>
      have hemit : emit = none := quiet hlease rfl
      have hbegin : s.bridge.begin none emit = (.ok (), { active := true, lease := true }) := by
        simp [KafkaTransactionBridge.begin, hlease, hemit]
      have howes : s.CallOwes (.begin none emit) := by
        intro _ raised hraised
        rw [hbegin] at hraised
        simp at hraised
      refine ⟨?_, howes⟩
      rw [next, hbegin]
      -- The caller has just taken the lease, and nothing is staged yet.
      refine ⟨?_, fun hidle => absurd hidle (by simp [leave]), fun _ topic p => rfl,
        fun _ x hx => absurd hx List.not_mem_nil⟩
      simp [leave, holderAfter, hlease]

theorem BridgeInvariant.stageOffset (h : s.BridgeInvariant) (caller : ℕ) (groupKey : String)
    (metadata : Except Raised String) (topic : String) (p nextOffset : ℕ) :
    (s.next caller (.stageOffset groupKey metadata topic p nextOffset)).BridgeInvariant := by
  -- Staging keeps the flag and the lease, hence who holds it.
  have hleased : ∀ bridge : KafkaTransactionBridge, bridge.active = s.bridge.active →
      bridge.lease = s.bridge.lease →
      (bridge.active = true ↔ bridge.lease = true ∧ (s.holderAfter caller bridge).isSome ∧
        s.holderAfter caller bridge = s.begun) := by
    intro bridge hactive hlease
    rw [hactive, hlease, h.leased]
    unfold holderAfter
    rw [hlease]
    cases s.bridge.lease <;> simp
  rw [next]
  unfold KafkaTransactionBridge.stageOffset
  split_ifs with hinactive hother
  · exact h.leave_self caller
  · exact h.leave_self caller
  have hactive : s.bridge.active = true := by simpa using hinactive
  have hgroup : ∀ x ∈ s.staged, x.groupKey = groupKey := by
    intro x hx
    have hkey := h.oneGroup hactive x hx
    rw [hkey] at hother
    simpa using hother
  cases metadata with
  | error raised =>
    -- The group is noted, and no offset.
    refine ⟨hleased _ rfl rfl, fun hidle => absurd (hactive.symm.trans hidle) (by simp),
      fun _ => h.largest hactive, fun _ x hx => ?_⟩
    exact congrArg some (hgroup x hx).symm
  | ok metadata =>
    refine ⟨hleased _ rfl rfl, fun hidle => absurd (hactive.symm.trans hidle) (by simp),
      fun _ topic' p' => ?_, fun _ x hx => ?_⟩
    · change (s.bridge.offsets.set (topic, p)
        (max nextOffset (s.bridge.offsets.getD (topic, p) 0))).get? (topic', p') = _
      rw [Dict.get?_set, largestStaged_cons]
      by_cases here : topic = topic' ∧ p = p'
      · obtain ⟨rfl, rfl⟩ := here
        rw [if_pos rfl, if_pos ⟨rfl, rfl⟩, ← h.largest hactive]
        rfl
      · have hne : ¬(topic', p') = (topic, p) := by
          intro heq
          rw [Prod.mk.injEq] at heq
          exact here ⟨heq.1.symm, heq.2.symm⟩
        rw [if_neg hne, if_neg here, h.largest hactive]
    · rcases List.mem_cons.mp hx with rfl | hx
      · rfl
      · exact congrArg some (hgroup x hx).symm

/-- A `commit` that finds a transaction finishes it. -/
theorem commit_bridge (bridge : KafkaTransactionBridge) (env : KafkaTransactionBridge.CommitEnv) :
    (bridge.commit env).2.1 = if bridge.active then {} else bridge := by
  obtain ⟨inactive, raised, heq⟩ | ⟨active, -, raised, heq⟩ | ⟨active, -, answer, heq, -⟩ :=
    bridge.commit_cases env <;> rw [heq]
  · rw [inactive]
    rfl
  · rw [active]
    rfl
  · rw [active]
    rfl

/-- An `abort` that finds a transaction finishes it. -/
theorem abort_bridge (bridge : KafkaTransactionBridge) (abortTransaction emit : Option Raised) :
    (bridge.abort abortTransaction emit).2 = if bridge.active then {} else bridge := by
  unfold KafkaTransactionBridge.abort
  cases bridge.active with
  | false => rfl
  | true =>
    rw [if_neg (by simp), if_pos rfl]
    split <;> rfl

/-- `close` leaves the bridge like `abort`. -/
theorem close_bridge (bridge : KafkaTransactionBridge)
    (abortTransaction emit flush : Option Raised) :
    (bridge.close abortTransaction emit flush).2 = if bridge.active then {} else bridge := by
  have habort := abort_bridge bridge abortTransaction emit
  unfold KafkaTransactionBridge.close
  rcases hr : bridge.abort abortTransaction emit with ⟨_ | ⟨⟨⟩⟩, bridge'⟩ <;> rw [hr] at habort
  · exact habort
  · cases flush <;> exact habort

/-- A call that finishes an open transaction and does nothing else. -/
theorem BridgeInvariant.finishes (h : s.BridgeInvariant) (caller : ℕ)
    {bridge : KafkaTransactionBridge}
    (hbridge : bridge = if s.bridge.active then {} else s.bridge) :
    (s.leave caller bridge).BridgeInvariant := by
  rw [hbridge]
  split
  · exact .of_finish caller
  · exact h.leave_self caller

theorem BridgeInvariant.commit (h : s.BridgeInvariant)
    {env : KafkaTransactionBridge.CommitEnv} (quiet : s.SinkStaysQuiet (.commit env)) :
    s.CallOwes (.commit env) := by
  unfold CallOwes KafkaTransactionBridge.commit
  cases hactive : s.bridge.active with
  | false =>
    refine ⟨fun _ _ => rfl, fun offsets hsome => ?_⟩
    simp at hsome
  | true =>
    dsimp only [Bool.not_true]
    rw [if_neg (by simp)]
    cases hsent : (s.bridge.sendOffsets env).or env.commitTransaction with
    | some raised => exact ⟨fun _ _ => rfl, fun offsets hsome => by simp at hsome⟩
    | none =>
      -- Kafka has committed, so the call returns unless the sink raises.
      have hemit : env.emit = none := quiet hactive hsent
      rw [hemit]
      refine ⟨fun raised hraised => by simp at hraised, fun offsets hsome topic p => ?_⟩
      obtain rfl : s.bridge.offsets = offsets := by simpa using hsome
      exact h.largest hactive topic p

/-- **One call.** With a quiet sink, a call keeps the invariant and what it owes. -/
theorem BridgeInvariant.next (h : s.BridgeInvariant) (caller : ℕ) {call : BridgeCall}
    (quiet : s.SinkStaysQuiet call) :
    (s.next caller call).BridgeInvariant ∧ s.CallOwes call := by
  cases call with
  | begin beginTransaction emit => exact h.begin caller quiet
  | stageOffset groupKey metadata topic p nextOffset =>
    exact ⟨h.stageOffset caller groupKey metadata topic p nextOffset, trivial⟩
  | commit env => exact ⟨h.finishes caller (commit_bridge s.bridge env), h.commit quiet⟩
  | abort abortTransaction emit =>
    exact ⟨h.finishes caller (abort_bridge s.bridge abortTransaction emit), trivial⟩
  | close abortTransaction emit flush =>
    exact ⟨h.finishes caller (close_bridge s.bridge abortTransaction emit flush), trivial⟩

/-- A call that keeps what it owes had a quiet sink. -/
theorem CallOwes.quiet {call : BridgeCall} (h : s.CallOwes call) : s.SinkStaysQuiet call := by
  cases call with
  | begin beginTransaction emit =>
    rintro hlease rfl
    cases emit with
    | none => rfl
    | some raised =>
      -- The lease is given back, and the flag stays.
      have hbegin : s.bridge.begin none (some raised) =
          (.error (.failure (normalizeKafkaError raised
            KafkaTransactionBridge.operationContract)), { active := true }) := by
        simp [KafkaTransactionBridge.begin, hlease]
      have hflag := (h hlease _ (congrArg Prod.fst hbegin)).1
      rw [hbegin] at hflag
      simp at hflag
  | commit env =>
    intro hactive hsent
    cases hemit : env.emit with
    | none => rfl
    | some raised =>
      have hcommit : s.bridge.commit env =
          (.error (.failure (normalizeKafkaError raised
            KafkaTransactionBridge.operationContract)), {}, some s.bridge.offsets) := by
        simp [KafkaTransactionBridge.commit, hactive, hsent, hemit,
          KafkaTransactionBridge.finish]
      have hnone := h.1 _ (congrArg Prod.fst hcommit)
      rw [hcommit] at hnone
      simp at hnone
  | _ => exact trivial

/-! ### Runs -/

/-- Every state of the run keeps the invariant, and every call what it owes. -/
structure BridgeHolds (run : List (ℕ × BridgeCall)) : Prop where
  calls : ∀ x ∈ machine.steps {} run, x.1.BridgeInvariant ∧ x.1.CallOwes x.2.2
  final : (machine.play {} run).BridgeInvariant

/-- **The bridge under every order of calls.** The flag, the lease and the staged
offsets agree in every state of a run, and no call leaves a failure half done, exactly
when the telemetry sink never raises between the client call that begins or commits
the Kafka transaction and the end of the bridge's own call. -/
theorem bridge_iff (run : List (ℕ × BridgeCall)) :
    BridgeHolds run ↔ ∀ x ∈ machine.steps {} run, x.1.SinkStaysQuiet x.2.2 := by
  constructor
  · intro h x hx
    exact (h.calls x hx).2.quiet
  · intro quiet
    have hlegal : machine.Legal {} run := fun _ _ => trivial
    -- The steps so far have kept everything, and the state goes on doing so.
    have hrun := Machine.trace_induction
      (I := fun tr (s : LeasedBridge) => (∀ x ∈ tr, x.1.SinkStaysQuiet x.2.2) →
        (∀ x ∈ tr, x.1.BridgeInvariant ∧ x.1.CallOwes x.2.2) ∧ s.BridgeInvariant)
      ?_ (fun _ => ⟨fun x hx => absurd hx List.not_mem_nil, .fresh⟩) hlegal quiet
    · exact ⟨hrun.1, hrun.2⟩
    intro tr s label ih _ hquiet
    rw [List.forall_mem_append, List.forall_mem_singleton] at hquiet
    obtain ⟨hcalls, hinv⟩ := ih hquiet.1
    have hstep := hinv.next label.1 hquiet.2
    refine ⟨?_, hstep.1⟩
    rw [List.forall_mem_append, List.forall_mem_singleton]
    exact ⟨hcalls, hinv, hstep.2⟩

/-- **A flag without a lease.** The sink raises in the only `begin` of the run. -/
theorem begin_leaves_flag :
    ¬BridgeHolds [(0, .begin none (some .other))] := by
  intro h
  have hactive : (machine.play {} [(0, .begin none (some .other))]).bridge.active = true := rfl
  have hlease := (h.final.leased.mp hactive).1
  exact absurd hlease (by decide)

end LeasedBridge

end MeridianKafka
