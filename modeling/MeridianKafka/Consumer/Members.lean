import MeridianKafka.Consumer.SafeCommit

/-!
# The members of a group

Any number of members consume the partitions of one topic, and partitions move between them. The
coordinator gives a partition to one member at a time, which reads it from the last offset that
was committed, or from its beginning when there is none (`auto.offset.reset` is `earliest`). It
may also give a partition away before the old member has noticed: such a member goes on with its
books, its acknowledgements and its commits until `on_revoke` is called.

The callbacks of a rebalance keep the safe offset of a partition (`rebalance_leaves_safe_offset`),
so a member that is given a partition again starts with books of another assignment. Two results
say what this does not break:

* `delivered_at_least_once`: the place where the next member reads from never passes a record that
  no member has resolved;
* `group_commits_increase`: the offsets that a group commits increase strictly, over all of its
  members, provided that the broker refuses the commits of a member that has lost the partition.

The first rests on `Ledger.SafeFor`: what a member may commit is settled, by whichever member. The
second rests on `Ledger.Ahead`: a safe offset that was left behind is one that the member cannot
move any more.
-/

namespace MeridianKafka

open Framework

/-- A ConsumerGroup on one topic: its members, the member that the coordinator has given each
partition to, and the offsets committed for it, the last one first. -/
structure Members where
  member : ℕ → Member
  owner : ℕ → Option ℕ
  commits : ℕ → List ℕ

/-- What happens in a group. -/
inductive GroupEvent (Token : Type)
  /-- An operation of a member. -/
  | act (i : ℕ) (a : Action Token)
  /-- The coordinator gives these partitions to a member that has none, whoever had them before,
  and `on_assign` is called. -/
  | assign (i : ℕ) (partitions : List ℕ)
  /-- `on_revoke` is called on a member. -/
  | revoke (i : ℕ) (partitions : List ℕ)
  /-- The coordinator takes a partition away, and its member has not noticed. -/
  | release (p : ℕ)

/-- A record that the client returns is of a partition that it has been assigned. -/
def Action.FromAssigned {Token : Type} (m : Member) : Action Token → Prop
  | receive (.record message) _ => message.partition ∈ m.state.assigned
  | _ => True

instance {Token : Type} (m : Member) : DecidablePred (@Action.FromAssigned Token m)
  | .receive (.record message) _ => inferInstanceAs (Decidable (message.partition ∈ _))
  | .receive (.raised _) _ | .receive .none _ | .receive (.error _) _ | .expireInflight _
  | .resumeDue _ | .acknowledge _ _ _ | .negativeAcknowledge _ _ | .assigned _ | .revoked _
  | .groupPosition _ _ => isTrue trivial

theorem Action.WithinAssignment.keepsAssignment {Token : Type} {a : Action Token}
    (h : a.WithinAssignment) : a.KeepsAssignment := by
  cases a <;> first | exact h | exact trivial

/-- The offsets of a partition that the member has committed since it was `m`. -/
def Member.commitsAfter (m m' : Member) (p : ℕ) : List ℕ :=
  (m'.ledger p).commits.take ((m'.ledger p).commits.length - (m.ledger p).commits.length)

/-- `on_assign`: the client reads on from these places. -/
def Member.assignedAt (m : Member) (place : ℕ → ℕ) (partitions : List ℕ) : Member :=
  { m.assigned partitions with
    history := partitions.map (fun p => (p, .seek (place p))) ++ m.history }

namespace Members

/-- A group at its beginning. -/
structure Fresh (stream : PhysicalStream) (w : Members) : Prop where
  command : ∀ i, (w.member i).state.command.stream = stream
  ledger : ∀ i p, (w.member i).ledger p = .empty
  assigned : ∀ i, (w.member i).state.assigned = ∅
  owner : ∀ p, w.owner p = none
  commits : ∀ p, w.commits p = []

/-- Where the next member reads a partition from; the log of a partition begins at `start`. -/
def place (start : ℕ → ℕ) (w : Members) (p : ℕ) : ℕ := (w.commits p).headD (start p)

variable {Token : Type} (engine : KafkaConsumerEngine Token) (log : PartitionLog)
  (start : ℕ → ℕ)

def Allowed (w : Members) : GroupEvent Token → Prop
  | .act i a =>
    a.WithinAssignment ∧ a.Allowed log (w.member i) ∧ a.FromAssigned (w.member i)
  | .assign i _ => (w.member i).state.assigned = ∅
  | .revoke _ _ | .release _ => True

instance (w : Members) : DecidablePred (@Allowed Token log w)
  | .act _ a => inferInstanceAs (Decidable (a.WithinAssignment ∧ a.Allowed log _ ∧ _))
  | .assign i _ => inferInstanceAs (Decidable ((w.member i).state.assigned = ∅))
  | .revoke _ _ | .release _ => isTrue trivial

def next (w : Members) : GroupEvent Token → Members
  | .act i a =>
    let m := engine.next (w.member i) a
    { w with
      member := Function.update w.member i m
      commits := fun p => (w.member i).commitsAfter m p ++ w.commits p }
  | .assign i partitions =>
    { w with
      member := Function.update w.member i
        ((w.member i).assignedAt (w.place start) partitions)
      owner := fun p => if p ∈ partitions then some i else w.owner p }
  | .revoke i partitions =>
    { w with
      member := Function.update w.member i ((w.member i).revoked partitions)
      owner := fun p => if p ∈ partitions ∧ w.owner p = some i then none else w.owner p }
  | .release p => { w with owner := Function.update w.owner p none }

end Members

/-- A group whose members poll for the same command. -/
def Sample.members : Members where
  member _ := .create Sample.command
  owner _ := none
  commits _ := []

theorem Sample.members_fresh : Sample.members.Fresh Sample.orders :=
  ⟨fun _ => rfl, fun _ _ => rfl, fun _ => rfl, fun _ => rfl, fun _ => rfl⟩

/-- The group over the log of its topic. -/
def KafkaConsumerEngine.members {Token : Type} (engine : KafkaConsumerEngine Token)
    (log : PartitionLog) (start : ℕ → ℕ) : Machine Members (GroupEvent Token) where
  allowed := Members.Allowed log
  next := Members.next engine start

instance {Token : Type} (engine : KafkaConsumerEngine Token) (log : PartitionLog) (start : ℕ → ℕ)
    (w : Members) (run : List (GroupEvent Token)) :
    Decidable ((engine.members log start).Legal w run) :=
  inferInstanceAs
    (Decidable (∀ x ∈ (engine.members log start).steps w run, x.1.Allowed log x.2))

/-! ### What an operation adds to the history -/

namespace Ledger

variable {L L' : Ledger} {o : ℕ}

theorem delivered_subset (h : L.history <:+ L'.history) : L.delivered ⊆ L'.delivered :=
  (h.filterMap _).subset

theorem resolved_subset (h : L.history <:+ L'.history) : L.resolved ⊆ L'.resolved :=
  (h.filterMap _).subset

/-- A client that has a place to read on from keeps having one. -/
theorem fetch_isSome_of_suffix (h : L.history <:+ L'.history) (hf : L.fetch.isSome) :
    L'.fetch.isSome := by
  obtain ⟨later, hlater⟩ := h
  rw [fetch, ← hlater]
  clear hlater
  induction later with
  | nil => exact hf
  | cons what later ih => cases what <;> first | exact ih | rfl

theorem handOut_history (event : Event) (epoch expiresAtMs : ℕ) :
    (L.handOut o event epoch expiresAtMs).history =
      .delivered o ((L.attempts o).getD 0 + 1) :: .returned o :: L.history := by
  rw [handOut]
  unfold unpause
  split <;> rfl

theorem AcknowledgeStep.suffix {transactional : Bool} {fails : Prop}
    (step : L.AcknowledgeStep o transactional fails L') : L.history <:+ L'.history := by
  cases step with
  | failed => exact List.suffix_rfl
  | moved => exact (List.suffix_cons _ _).trans (List.suffix_cons _ _)
  | collected => exact List.suffix_cons _ _

/-- The client goes to this place, any number of times. -/
def startAt (L : Ledger) (place times : ℕ) : Ledger :=
  { L with history := List.replicate times (.seek place) ++ L.history }

section StartAt

variable (place times : ℕ)

theorem startAt_filterMap {α : Type} (f : Occurrence → Option α) (hf : f (.seek place) = none) :
    (L.startAt place times).history.filterMap f = L.history.filterMap f := by
  rw [startAt, List.filterMap_append, List.filterMap_replicate_of_none hf, List.nil_append]

@[simp] theorem startAt_delivered : (L.startAt place times).delivered = L.delivered :=
  startAt_filterMap place times _ rfl

@[simp] theorem startAt_resolved : (L.startAt place times).resolved = L.resolved :=
  startAt_filterMap place times _ rfl

@[simp] theorem startAt_commits : (L.startAt place times).commits = L.commits :=
  startAt_filterMap place times _ rfl

theorem startAt_fetch (h : 0 < times) : (L.startAt place times).fetch = some place := by
  obtain ⟨n, rfl⟩ := Nat.exists_eq_succ_of_ne_zero h.ne'
  rfl

@[simp] theorem startAt_zero : L.startAt place 0 = L := rfl

end StartAt

end Ledger

theorem Member.ledger_assignedAt (m : Member) (place : ℕ → ℕ) (partitions : List ℕ) (p : ℕ) :
    (m.assignedAt place partitions).ledger p =
      (m.ledger p).startAt (place p) (partitions.count p) := by
  have hhistory : historyOf (partitions.map fun q => (q, Occurrence.seek (place q))) p =
      List.replicate (partitions.count p) (.seek (place p)) := by
    induction partitions with
    | nil => rfl
    | cons q partitions ih =>
      rw [List.map_cons, historyOf_cons, ih, List.count_cons]
      by_cases h : q = p
      · subst h
        simp [List.replicate_succ]
      · simp [h]
  ext1
  case history =>
    change historyOf (_ ++ m.history) p = _
    rw [historyOf, List.filterMap_append]
    exact congrArg (· ++ historyOf m.history p) hhistory
  all_goals rfl

namespace KafkaConsumerEngine

variable {Token : Type} {engine : KafkaConsumerEngine Token} {log : PartitionLog}
  {m : Member} {p : ℕ}

theorem ValidToken.inflight_isSome {command : AcknowledgeCommand Token} {nowMs : ℕ}
    {c : DeliveryCoordinates} (valid : engine.ValidToken m command nowMs c) :
    ((m.ledger c.partition).inflight c.offset).isSome := by
  obtain ⟨inflight, hget, -⟩ := valid.inflight
  rw [hget]
  rfl

theorem GoesBack.inflight_isSome {command : NegativeAcknowledgeCommand Token} {nowMs : ℕ}
    {c : DeliveryCoordinates} (back : engine.GoesBack m command nowMs c) :
    ((m.ledger c.partition).inflight c.offset).isSome := by
  obtain ⟨inflight, hget, -⟩ := back.inflight
  rw [hget]
  rfl

theorem inflight_isSome_of_mem_rewinds {env : ExpireEnv} {offset : ℕ}
    (reached : (p, offset) ∈ rewinds m env) : ((m.ledger p).inflight offset).isSome := by
  obtain ⟨inflight, hget, -⟩ := (earliestExpired_of_mem reached).1
  rw [hget]
  rfl

/-- Nothing that happened to a partition is forgotten. -/
theorem PartitionStep.suffix {a : Action Token} {L' : Ledger}
    (step : PartitionStep engine log m p a L') : (m.ledger p).history <:+ L'.history := by
  cases step with
  | idle | dropped | revoked => exact List.suffix_rfl
  | rewound | resumeSought | stuck | sought => exact List.suffix_cons _ _
  | resumed | heldBack | pausedAt => exact (List.suffix_cons _ _).trans (List.suffix_cons _ _)
  | rejected =>
    rw [Ledger.reject_eq]
    exact (List.suffix_cons _ _).trans (List.suffix_cons _ _)
  | delivered =>
    rw [Ledger.handOut_history]
    exact (List.suffix_cons _ _).trans (List.suffix_cons _ _)
  | acknowledged _ _ step => exact step.suffix
  | deadLettered _ _ step => exact step.suffix
  | repositioned => exact List.suffix_append _ _

end KafkaConsumerEngine

/-! ### What a member may commit is settled -/

namespace Ledger

variable {L L' : Ledger} {o : ℕ} {settled settled' : ℕ → Prop}

/-- The safe offset and the commits stand on settled records only. Without a safe offset, the next
record that is delivered becomes one. -/
structure SafeFor (settled : ℕ → Prop) (L : Ledger) : Prop where
  sound : L.Sound
  inflight_delivered : ∀ o, (L.inflight o).isSome → o ∈ L.delivered
  acknowledged_resolved : ∀ o ∈ L.acknowledged, o ∈ L.resolved
  resolved_delivered : ∀ o ∈ L.resolved, o ∈ L.delivered
  paused_safe : L.paused.isSome → L.safeNext.isSome
  safe : ∀ s, L.safeNext = some s → settled s
  unset : L.safeNext = none → ∀ f, L.fetch = some f → settled f
  commits : ∀ n ∈ L.commits, settled n

namespace SafeFor

theorem empty : Ledger.empty.SafeFor settled where
  sound := .empty
  inflight_delivered o h := absurd h (by simp [Ledger.empty])
  acknowledged_resolved o h := absurd h (by simp [Ledger.empty])
  resolved_delivered o h := absurd h List.not_mem_nil
  paused_safe h := absurd h (by simp [Ledger.empty])
  safe s h := absurd h (by simp [Ledger.empty])
  unset _ f h := absurd h (by simp [Ledger.empty, fetch, fetchPosition])
  commits n h := absurd h List.not_mem_nil

/-- More becomes settled. -/
theorem weaken (h : L.SafeFor settled) (grows : ∀ n, settled n → settled' n) :
    L.SafeFor settled' :=
  { h with
    safe := fun s hs => grows s (h.safe s hs)
    unset := fun hnone f hf => grows f (h.unset hnone f hf)
    commits := fun n hn => grows n (h.commits n hn) }

/-- Steps that resolve and deliver nothing: the books lose entries at most. Where the client reads
on matters only as long as there is no safe offset. -/
theorem mono (h : L.SafeFor settled) (hi : ∀ o, (L'.inflight o).isSome → (L.inflight o).isSome)
    (ha : L'.acknowledged ⊆ L.acknowledged) (hp : L'.paused.isSome → L.safeNext.isSome)
    (hs : L'.safeNext = L.safeNext) (hd : L'.delivered = L.delivered)
    (hr : L'.resolved = L.resolved) (hc : L'.commits = L.commits)
    (hf : L.safeNext = none → ∀ f, L'.fetch = some f → settled f) : L'.SafeFor settled where
  sound := h.sound.mono hi ha hs
  inflight_delivered o ho := by rw [hd]; exact h.inflight_delivered o (hi o ho)
  acknowledged_resolved o ho := by rw [hr]; exact h.acknowledged_resolved o (ha ho)
  resolved_delivered := by rw [hr, hd]; exact h.resolved_delivered
  paused_safe hpaused := by rw [hs]; exact hp hpaused
  safe := by rw [hs]; exact h.safe
  unset := by rw [hs]; exact hf
  commits := by rw [hc]; exact h.commits

/-- A step of a partition that has its safe offset. -/
theorem mono_of_safe (h : L.SafeFor settled) (safe : L.safeNext.isSome)
    (hi : ∀ o, (L'.inflight o).isSome → (L.inflight o).isSome)
    (ha : L'.acknowledged ⊆ L.acknowledged) (hs : L'.safeNext = L.safeNext)
    (hd : L'.delivered = L.delivered) (hr : L'.resolved = L.resolved)
    (hc : L'.commits = L.commits) : L'.SafeFor settled :=
  h.mono hi ha (fun _ => safe) hs hd hr hc fun hnone => by rw [hnone] at safe; simp at safe

theorem acknowledge {fails : Prop} (h : L.SafeFor settled) (hi : (L.inflight o).isSome)
    (step : L.AcknowledgeStep o false fails L')
    (counts : ∀ n, settled n → n ∈ L'.delivered → n ∈ L'.resolved → settled (n + 1)) :
    L'.SafeFor settled := by
  have hsafe := h.sound.safeNext_of_inflight hi
  have hflight : ∀ k, (Function.update L.inflight o none k).isSome → k ∈ L.delivered := by
    intro k hk
    by_cases heq : k = o
    · simp [heq] at hk
    · rw [Function.update_of_ne heq] at hk
      exact h.inflight_delivered k hk
  have hinsert : ∀ k ∈ insert o L.acknowledged, k ∈ o :: L.resolved := by
    intro k hk
    rcases Finset.mem_insert.mp hk with rfl | hk
    · exact List.mem_cons_self
    · exact List.mem_cons_of_mem _ (h.acknowledged_resolved k hk)
  have hsub : ∀ k ∈ (L.contiguous o).2, k ∈ o :: L.resolved := fun k hk =>
    hinsert k (Finset.mem_insert.mpr (mem_contiguous.mp hk).1)
  have hdelivered : ∀ k ∈ o :: L.resolved, k ∈ L.delivered := by
    rw [List.forall_mem_cons]
    exact ⟨h.inflight_delivered o hi, h.resolved_delivered⟩
  have hsound := Sound.of_acknowledge step
  cases step with
  | failed hadv =>
    exact h.mono_of_safe (by rw [hsafe]; rfl) (fun _ => id) (h.sound.contiguous_subset hadv)
      hsafe.symm rfl rfl rfl
  | moved hadv =>
    -- the run from the old safe offset to the new one is resolved, record by record
    have hreached : ∀ n, L.original o ≤ n → n ≤ (L.contiguous o).1 → settled n := by
      intro n hle
      induction n, hle using Nat.le_induction with
      | base => exact fun _ => h.safe _ hsafe
      | succ n hle ih =>
        intro hn
        have hmem := hinsert n ((L.contiguous_isFrontier o).covered n hle (by omega))
        exact counts n (ih (by omega)) (hdelivered n hmem) hmem
    have hsettled := hreached _ hadv.le le_rfl
    refine ⟨hsound, hflight, hsub, hdelivered, fun _ => rfl, ?_, ?_, ?_⟩
    · rintro s hs
      obtain rfl : (L.contiguous o).1 = s := Option.some.inj hs
      exact hsettled
    · intro hnone
      simp [settle, setSafe, note, collect] at hnone
    · intro n hn
      rcases List.mem_cons.mp (show n ∈ (L.contiguous o).1 :: L.commits from hn) with rfl | hn
      · exact hsettled
      · exact h.commits n hn
  | collected hwait =>
    refine ⟨hsound, hflight, hsub, hdelivered, fun _ => rfl, ?_, ?_, h.commits⟩
    · rintro s hs
      obtain rfl : L.original o = s := Option.some.inj hs
      exact h.safe _ hsafe
    · intro hnone
      simp [settle, collect] at hnone

theorem handOut (h : L.SafeFor settled) (next : L.safeNext = none → settled o) (event : Event)
    (epoch expiresAtMs : ℕ) : (L.handOut o event epoch expiresAtMs).SafeFor settled where
  sound := h.sound.handOut event epoch expiresAtMs
  inflight_delivered k hk := by
    rw [handOut_delivered]
    rw [handOut_inflight] at hk
    by_cases heq : k = o
    · exact heq ▸ List.mem_cons_self
    · rw [Function.update_of_ne heq] at hk
      exact List.mem_cons_of_mem _ (h.inflight_delivered k hk)
  acknowledged_resolved := by simpa using h.acknowledged_resolved
  resolved_delivered k hk := by
    rw [handOut_delivered]
    exact List.mem_cons_of_mem _ (h.resolved_delivered k (by simpa using hk))
  paused_safe _ := by simp
  safe s hs := by
    obtain rfl : L.original o = s := by simpa using hs
    cases hold : L.safeNext with
    | none => rw [original_of_none hold]; exact next hold
    | some s => rw [original_of_some hold]; exact h.safe s hold
  unset hnone := by simp at hnone
  commits := by rw [handOut_commits]; exact h.commits

theorem startAt (h : L.SafeFor settled) {place : ℕ} (hplace : settled place) (times : ℕ) :
    (L.startAt place times).SafeFor settled := by
  refine h.mono (fun _ => id) (subset_refl _) h.paused_safe rfl (startAt_delivered ..)
    (startAt_resolved ..) (startAt_commits ..) fun hnone f hf => ?_
  rcases Nat.eq_zero_or_pos times with rfl | hpos
  · exact h.unset hnone f hf
  · rw [startAt_fetch _ _ hpos] at hf
    exact Option.some.inj hf ▸ hplace

end SafeFor

end Ledger

namespace KafkaConsumerEngine

variable {Token : Type} {engine : KafkaConsumerEngine Token} {log : PartitionLog}
  {stream : PhysicalStream} {m : Member} {p : ℕ} {settled : ℕ → Prop}

/-- The records that the client passes over on the way to the one it returns are none. -/
theorem settled_of_mayReturn {message : Message} (may : MayReturn log m message)
    (here : message.partition = p) (fetch : (m.ledger p).fetch.isSome)
    (h : ∀ f, (m.ledger p).fetch = some f → settled f)
    (counts : ∀ n, settled n → ¬engine.Decodes log stream p n → settled (n + 1)) :
    settled message.offset := by
  subst here
  obtain ⟨f, hf⟩ := Option.isSome_iff_exists.mp fetch
  obtain ⟨hle, hnone⟩ := may.next f hf
  have hreached : ∀ n, f ≤ n → n ≤ message.offset → settled n := by
    intro n hle
    induction n, hle using Nat.le_induction with
    | base => exact fun _ => h f hf
    | succ n hle ih =>
      intro hn
      refine counts n (ih (by omega)) ?_
      rintro ⟨other, -, hother, -⟩
      rw [hnone n hle (by omega)] at hother
      simp at hother
  exact hreached _ hle le_rfl

theorem PartitionStep.safeFor {a : Action Token} {L' : Ledger}
    (step : PartitionStep engine log m p a L') (within : a.WithinAssignment)
    (command : m.state.command.stream = stream)
    (fetch : ∀ message env, a = .receive (.record message) env → message.partition = p →
      (m.ledger p).fetch.isSome)
    (h : (m.ledger p).SafeFor settled)
    (counts : ∀ n, settled n →
      (engine.Decodes log stream p n → n ∈ L'.delivered ∧ n ∈ L'.resolved) → settled (n + 1)) :
    L'.SafeFor settled := by
  have hresolves : ∀ n, settled n → n ∈ L'.delivered → n ∈ L'.resolved → settled (n + 1) :=
    fun n hn hd hr => counts n hn fun _ => ⟨hd, hr⟩
  have hskips : ∀ n, settled n → ¬engine.Decodes log stream p n → settled (n + 1) :=
    fun n hn hnot => counts n hn fun hdec => absurd hdec hnot
  -- a delivery that goes back was in flight, so its partition has a safe offset
  have hback : ∀ {command : NegativeAcknowledgeCommand Token} {nowMs : ℕ}
      {c : DeliveryCoordinates}, engine.GoesBack m command nowMs c → c.partition = p →
      (m.ledger p).safeNext.isSome := by
    rintro command nowMs c back rfl
    exact h.sound.inflight_safe c.offset back.inflight_isSome
  have hwaiting : ∀ {paused : PausedDelivery}, (m.ledger p).paused = some paused →
      (m.ledger p).safeNext.isSome := fun hpaused => h.paused_safe (by rw [hpaused]; rfl)
  have hdrop : ∀ offset o, (((m.ledger p).dropInflight offset).inflight o).isSome →
      ((m.ledger p).inflight o).isSome := by
    intro offset o
    by_cases heq : o = offset <;> simp [Ledger.dropInflight, heq]
  cases step with
  | idle => exact h
  | @rewound env offset reached =>
    refine h.mono_of_safe (h.sound.inflight_safe offset (inflight_isSome_of_mem_rewinds reached))
      (fun o => ?_)
      (Finset.filter_subset _ _) rfl rfl rfl rfl
    dsimp only [Ledger.rewind]
    split
    · exact id
    · simp
  | resumeSought waiting =>
    exact h.mono_of_safe (hwaiting waiting) (fun _ => id) (subset_refl _) rfl rfl rfl rfl
  | resumed waiting =>
    exact h.mono_of_safe (hwaiting waiting) (fun _ => id) (subset_refl _) rfl rfl rfl rfl
  | stuck _ _ waiting =>
    exact h.mono_of_safe (hwaiting waiting) (fun _ => id) (subset_refl _) rfl rfl rfl rfl
  | heldBack _ _ waiting =>
    exact h.mono_of_safe (hwaiting waiting) (fun _ => id) (subset_refl _) rfl rfl rfl rfl
  | @rejected message env raised may here decodes =>
    refine h.mono (fun o ho => by simpa using ho) (by simp) (fun hpaused => ?_) (by simp) (by simp)
      (by simp) (by simp) fun hnone f hf => ?_
    · obtain ⟨paused, hpaused⟩ := Option.isSome_iff_exists.mp hpaused
      exact hwaiting ((Ledger.reject_paused _).mp hpaused).1
    · rw [Ledger.reject_fetch] at hf
      have hreached := settled_of_mayReturn may here (fetch message env rfl here) (h.unset hnone)
        hskips
      subst here
      rw [command] at decodes
      exact Option.some.inj hf ▸ hskips _ hreached (not_decodes_of_error may decodes)
  | @delivered message env event expiresAtMs may here =>
    refine h.handOut (fun hnone => ?_) event _ _
    exact settled_of_mayReturn may here (fetch message env rfl here) (h.unset hnone) hskips
  | @acknowledged command transaction env c L' valid here step =>
    subst here
    obtain rfl : transaction = none := within
    exact h.acknowledge valid.inflight_isSome step hresolves
  | deadLettered valid here step =>
    subst here
    exact h.acknowledge valid.inflight_isSome step hresolves
  | dropped back here =>
    exact h.mono_of_safe (hback back here) (hdrop _) (subset_refl _) rfl rfl rfl rfl
  | sought back here =>
    exact h.mono_of_safe (hback back here) (hdrop _) (subset_refl _) rfl rfl rfl rfl
  | pausedAt back here =>
    exact h.mono_of_safe (hback back here) (hdrop _) (subset_refl _) rfl rfl rfl rfl
  | revoked => exact within.elim
  | repositioned => exact within.elim

end KafkaConsumerEngine

theorem Member.commits_eq_append {m m' : Member} {p : ℕ}
    (h : (m.ledger p).history <:+ (m'.ledger p).history) :
    (m'.ledger p).commits = m.commitsAfter m' p ++ (m.ledger p).commits := by
  obtain ⟨later, hlater⟩ := h.filterMap Occurrence.committed?
  change later ++ (m.ledger p).commits = (m'.ledger p).commits at hlater
  rw [commitsAfter, ← hlater, List.length_append, Nat.add_sub_cancel, List.take_left]

/-! ### The group -/

namespace Members

variable {Token : Type} {engine : KafkaConsumerEngine Token} {log : PartitionLog}
  {stream : PhysicalStream} {start : ℕ → ℕ} {w : Members}

/-- Some member has done this with each record of the partition below this offset that can be
decoded. -/
def Covered (engine : KafkaConsumerEngine Token) (log : PartitionLog) (stream : PhysicalStream)
    (start : ℕ → ℕ) (done : Ledger → ℕ → Prop) (w : Members) (p n : ℕ) : Prop :=
  ∀ o, start p ≤ o → o < n → engine.Decodes log stream p o →
    ∃ i, done ((w.member i).ledger p) o

/-- Each record below this offset that can be decoded has been delivered to a member that has
resolved it. -/
def Settled (engine : KafkaConsumerEngine Token) (log : PartitionLog) (stream : PhysicalStream)
    (start : ℕ → ℕ) : Members → ℕ → ℕ → Prop :=
  Covered engine log stream start fun L o => o ∈ L.delivered ∧ o ∈ L.resolved

/-- The group in every state that it can reach. -/
structure Safe (engine : KafkaConsumerEngine Token) (log : PartitionLog) (stream : PhysicalStream)
    (start : ℕ → ℕ) (w : Members) : Prop where
  command : ∀ i, (w.member i).state.command.stream = stream
  fetch : ∀ i, ∀ p ∈ (w.member i).state.assigned, ((w.member i).ledger p).fetch.isSome
  ledger : ∀ i p, ((w.member i).ledger p).SafeFor (w.Settled engine log stream start p)
  commits : ∀ p, ∀ n ∈ w.commits p, w.Settled engine log stream start p n

theorem Fresh.safe (h : w.Fresh stream) : w.Safe engine log stream start where
  command := h.command
  fetch i p hp := by rw [h.assigned i] at hp; simp at hp
  ledger i p := by rw [h.ledger i p]; exact .empty
  commits p n hn := by rw [h.commits p] at hn; simp at hn

/-- What has been done stays done when a member goes on. -/
theorem Covered.update {done : Ledger → ℕ → Prop} {p n : ℕ}
    (h : w.Covered engine log stream start done p n) {i : ℕ} {m : Member}
    (keeps : ∀ o, done ((w.member i).ledger p) o → done (m.ledger p) o) {owner : ℕ → Option ℕ}
    {commits : ℕ → List ℕ} :
    Covered engine log stream start done
      { member := Function.update w.member i m, owner, commits } p n := by
  intro o hle hlt hdec
  obtain ⟨j, hdone⟩ := h o hle hlt hdec
  refine ⟨j, ?_⟩
  dsimp only
  by_cases hj : j = i
  · subst hj
    rw [Function.update_self]
    exact keeps o hdone
  · rwa [Function.update_of_ne hj]

/-- A step of a member covers one record more, or goes over one that cannot be decoded. -/
theorem Covered.succ {done : Ledger → ℕ → Prop} {p n i : ℕ}
    (h : w.Covered engine log stream start done p n)
    (counts : engine.Decodes log stream p n → done ((w.member i).ledger p) n) :
    w.Covered engine log stream start done p (n + 1) := by
  intro o hle hlt hdec
  rcases Nat.lt_succ_iff_lt_or_eq.mp hlt with hlt | rfl
  · exact h o hle hlt hdec
  · exact ⟨i, counts hdec⟩

theorem Settled.update {p n : ℕ} (h : w.Settled engine log stream start p n) {i : ℕ} {m : Member}
    (suffix : ((w.member i).ledger p).history <:+ (m.ledger p).history) {owner : ℕ → Option ℕ}
    {commits : ℕ → List ℕ} :
    Settled engine log stream start
      { member := Function.update w.member i m, owner, commits } p n :=
  Covered.update h fun _ hdone =>
    ⟨Ledger.delivered_subset suffix hdone.1, Ledger.resolved_subset suffix hdone.2⟩

/-- The place for the next member is settled. -/
theorem Safe.place (h : w.Safe engine log stream start) (p : ℕ) :
    w.Settled engine log stream start p (w.place start p) := by
  unfold Members.place
  cases hcommits : w.commits p with
  | nil => exact fun o hle hlt => absurd hlt (not_lt.mpr hle)
  | cons n commits => exact h.commits p n (by rw [hcommits]; exact List.mem_cons_self)

/-- One member changes, and with it the books of its own. -/
theorem Safe.update (h : w.Safe engine log stream start) {i : ℕ} {m : Member}
    {owner : ℕ → Option ℕ} {commits : ℕ → List ℕ} (command : m.state.command.stream = stream)
    (fetch : ∀ p ∈ m.state.assigned, (m.ledger p).fetch.isSome)
    (suffix : ∀ p, ((w.member i).ledger p).history <:+ (m.ledger p).history)
    (ledger : ∀ p, (m.ledger p).SafeFor (Settled engine log stream start
      { member := Function.update w.member i m, owner, commits } p))
    (hcommits : ∀ p, ∀ n ∈ commits p, n ∈ w.commits p ∨ n ∈ (m.ledger p).commits) :
    Safe engine log stream start { member := Function.update w.member i m, owner, commits } where
  command j := by
    dsimp only
    by_cases hj : j = i
    · rw [hj, Function.update_self]
      exact command
    · rw [Function.update_of_ne hj]
      exact h.command j
  fetch j := by
    dsimp only
    by_cases hj : j = i
    · rw [hj, Function.update_self]
      exact fetch
    · rw [Function.update_of_ne hj]
      exact h.fetch j
  ledger j p := by
    by_cases hj : j = i
    · subst hj
      change ((Function.update w.member j m j).ledger p).SafeFor _
      rw [Function.update_self]
      exact ledger p
    · change ((Function.update w.member i m j).ledger p).SafeFor _
      rw [Function.update_of_ne hj]
      exact (h.ledger j p).weaken fun n hn => hn.update (suffix p)
  commits p n hn := by
    rcases hcommits p n hn with hold | hnew
    · exact (h.commits p n hold).update (suffix p)
    · exact (ledger p).commits n hnew

theorem Safe.act (h : w.Safe engine log stream start) {i : ℕ} {a : Action Token}
    (within : a.WithinAssignment) (allowed : a.Allowed log (w.member i))
    (assigned : a.FromAssigned (w.member i)) :
    (Members.next engine start w (.act i a)).Safe engine log stream start := by
  have hstep := fun p => engine.next_step (p := p) log allowed
  refine h.update (m := engine.next (w.member i) a) ?_ (fun p hp => ?_) (fun p => (hstep p).suffix)
    (fun p => ?_) fun p n hn => ?_
  · rw [engine.next_command]
    exact h.command i
  · have hkeeps : (engine.next (w.member i) a).state.assigned = (w.member i).state.assigned :=
      engine.next_keeps (fun _ _ _ _ _ _ => rfl) within.keepsAssignment
    rw [hkeeps] at hp
    exact Ledger.fetch_isSome_of_suffix (hstep p).suffix (h.fetch i p hp)
  · refine (hstep p).safeFor within (h.command i) ?_
      ((h.ledger i p).weaken fun n hn => hn.update (hstep p).suffix) ?_
    · rintro message env rfl rfl
      exact h.fetch i _ assigned
    · -- the new books may be what settles a record
      intro n hn hcounts
      refine Covered.succ (i := i) hn ?_
      dsimp only
      rwa [Function.update_self]
  · rcases List.mem_append.mp hn with hnew | hold
    · exact Or.inr (List.mem_of_mem_take hnew)
    · exact Or.inl hold

theorem Safe.assign (h : w.Safe engine log stream start) (i : ℕ) (partitions : List ℕ) :
    (Members.next engine start w (.assign i partitions)).Safe engine log stream start := by
  have hledger := Member.ledger_assignedAt (w.member i) (w.place start) partitions
  have hsuffix : ∀ p, ((w.member i).ledger p).history <:+
      (((w.member i).assignedAt (w.place start) partitions).ledger p).history := by
    intro p
    rw [hledger]
    exact List.suffix_append _ _
  refine h.update (h.command i) (fun p hp => ?_) hsuffix (fun p => ?_) fun p n hn => Or.inl hn
  · rw [hledger, Ledger.startAt_fetch _ _ (List.count_pos_iff.mpr (List.mem_toFinset.mp hp))]
    rfl
  · have hold := (h.ledger i p).startAt (h.place p) (partitions.count p)
    rw [← hledger] at hold
    exact hold.weaken fun n hn => hn.update (hsuffix p)

theorem Safe.revoke (h : w.Safe engine log stream start) (i : ℕ) (partitions : List ℕ) :
    (Members.next engine start w (.revoke i partitions)).Safe engine log stream start := by
  have hledger : ∀ p, ((w.member i).revoked partitions).ledger p =
      if p ∈ partitions then ((w.member i).ledger p).revoke else (w.member i).ledger p :=
    fun p => Member.ledger_revoked ..
  have hsuffix : ∀ p, ((w.member i).ledger p).history <:+
      (((w.member i).revoked partitions).ledger p).history := by
    intro p
    rw [hledger]
    split <;> exact List.suffix_rfl
  refine h.update (h.command i) (fun p hp => ?_) hsuffix (fun p => ?_) fun p n hn => Or.inl hn
  · exact Ledger.fetch_isSome_of_suffix (hsuffix p) (h.fetch i p (Finset.mem_sdiff.mp hp).1)
  · have hold : (((w.member i).revoked partitions).ledger p).SafeFor
        (w.Settled engine log stream start p) := by
      rw [hledger]
      split
      · refine (h.ledger i p).mono (fun o ho => ?_) (Finset.empty_subset _) (fun hpaused => ?_) rfl
          rfl rfl rfl (h.ledger i p).unset
        · simp [Ledger.revoke] at ho
        · simp [Ledger.revoke] at hpaused
      · exact h.ledger i p
    exact hold.weaken fun n hn => hn.update (hsuffix p)

/-- **What every step of a group keeps.** -/
theorem Safe.step (h : w.Safe engine log stream start) {e : GroupEvent Token}
    (allowed : w.Allowed log e) : (Members.next engine start w e).Safe engine log stream start := by
  cases e with
  | act i a => exact h.act allowed.1 allowed.2.1 allowed.2.2
  | assign i partitions => exact h.assign i partitions
  | revoke i partitions => exact h.revoke i partitions
  | release p => exact ⟨h.command, h.fetch, h.ledger, h.commits⟩

/-- Every state that a group reaches is safe. -/
theorem Safe.of_run (fresh : w.Fresh stream) {run : List (GroupEvent Token)}
    (legal : (engine.members log start).Legal w run) :
    ((engine.members log start).play w run).Safe engine log stream start :=
  Machine.play_induction (C := fun _ _ => True) (fun _ _ h hallowed _ => h.step hallowed)
    fresh.safe legal fun _ _ => trivial

end Members

/-- **At least once.** In a group of any number of members, through any rebalances, and with
members that go on after they have lost a partition: a record that can be decoded is behind the
place from which the next member reads only after it has been delivered to a member, and that
member has acknowledged it or dead-lettered it. -/
theorem KafkaConsumerEngine.delivered_at_least_once {Token : Type}
    (engine : KafkaConsumerEngine Token) (log : PartitionLog) (start : ℕ → ℕ)
    {stream : PhysicalStream} {w : Members} (fresh : w.Fresh stream)
    {run : List (GroupEvent Token)} (legal : (engine.members log start).Legal w run) :
    let w' := (engine.members log start).play w run
    ∀ p o, start p ≤ o → o < w'.place start p → engine.Decodes log stream p o →
      ∃ i, o ∈ ((w'.member i).ledger p).delivered ∧ o ∈ ((w'.member i).ledger p).resolved := by
  intro w' p o
  have h : w'.Safe engine log stream start := .of_run fresh legal
  exact h.place p o

/-! ### A safe offset that was left behind -/

namespace Ledger

variable {L L' : Ledger} {o c s : ℕ}

/-- The record at this offset is in flight, or a pause ends there. -/
def Held (L : Ledger) (o : ℕ) : Prop :=
  (L.inflight o).isSome ∨ ∃ paused, L.paused = some paused ∧ paused.offset = o

/-- Everything that the member may still resolve lies beyond this offset. -/
structure Beyond (s : ℕ) (L : Ledger) : Prop where
  held : ∀ o, L.Held o → s < o
  fetch : ∃ f, L.fetch = some f ∧ s < f

/-- The next commit of the member is greater than `c`: the safe offset is, or it is one that the
member does not move any more. -/
structure Ahead (c : ℕ) (L : Ledger) : Prop where
  unset : L.safeNext = none → ∃ f, L.fetch = some f ∧ c ≤ f
  set : ∀ s, L.safeNext = some s → c ≤ s ∨ L.Beyond s

namespace Ahead

/-- Steps that leave the safe offset: the client reads on from a record that is held, or from
further ahead. -/
theorem mono (h : L.Ahead c) (safe : ∀ o, L.Held o → L.safeNext.isSome)
    (hs : L'.safeNext = L.safeNext) (hheld : ∀ o, L'.Held o → L.Held o)
    (hf : L'.fetch = L.fetch ∨ ∃ f, L'.fetch = some f ∧
      (L.Held f ∨ ∀ f', L.fetch = some f' → f' ≤ f)) : L'.Ahead c where
  unset := by
    rw [hs]
    intro hnone
    obtain ⟨f, hfetch, hle⟩ := h.unset hnone
    rcases hf with heq | ⟨f', heq, held | hge⟩
    · exact ⟨f, heq.trans hfetch, hle⟩
    · have := safe f' held
      rw [hnone] at this
      simp at this
    · exact ⟨f', heq, hle.trans (hge f hfetch)⟩
  set s := by
    rw [hs]
    intro hsome
    refine (h.set s hsome).imp_right fun hbeyond => ⟨fun o ho => hbeyond.held o (hheld o ho), ?_⟩
    obtain ⟨f, hfetch, hlt⟩ := hbeyond.fetch
    rcases hf with heq | ⟨f', heq, held | hge⟩
    · exact ⟨f, heq.trans hfetch, hlt⟩
    · exact ⟨f', heq, hbeyond.held f' held⟩
    · exact ⟨f', heq, hlt.trans_le (hge f hfetch)⟩

theorem of_safe (hs : L.safeNext = some s) (h : c ≤ s) : L.Ahead c where
  unset hnone := by rw [hs] at hnone; simp at hnone
  set s' hs' := by
    rw [hs] at hs'
    exact Or.inl (Option.some.inj hs' ▸ h)

theorem handOut (h : L.Ahead c) (next : ∀ f, L.fetch = some f → f ≤ o) (event : Event)
    (epoch expiresAtMs : ℕ) : (L.handOut o event epoch expiresAtMs).Ahead c := by
  cases hold : L.safeNext with
  | none =>
    obtain ⟨f, hfetch, hle⟩ := h.unset hold
    refine of_safe (handOut_safeNext ..) ?_
    rw [original_of_none hold]
    exact hle.trans (next f hfetch)
  | some s =>
    refine ⟨fun hnone => by simp at hnone, fun s' hs' => ?_⟩
    obtain rfl : s = s' := by simpa [original_of_some hold] using hs'
    refine (h.set s hold).imp_right fun hbeyond => ?_
    obtain ⟨f, hfetch, hlt⟩ := hbeyond.fetch
    have hso : s < o := hlt.trans_le (next f hfetch)
    refine ⟨fun k hk => ?_, o + 1, handOut_fetch .., by omega⟩
    rcases hk with hk | ⟨paused, hpaused, hk⟩
    · rw [handOut_inflight] at hk
      by_cases heq : k = o
      · exact heq ▸ hso
      · rw [Function.update_of_ne heq] at hk
        exact hbeyond.held k (Or.inl hk)
    · exact hbeyond.held k (Or.inr ⟨paused, ((handOut_paused ..).mp hpaused).1, hk⟩)

/-- An acknowledgement commits nothing, or an offset beyond `c`. -/
theorem acknowledge {fails : Prop} (h : L.Ahead c) (sound : L.Sound)
    (safe : ∀ o, L.Held o → L.safeNext.isSome) (hi : (L.inflight o).isSome)
    (step : L.AcknowledgeStep o false fails L') :
    (L'.commits = L.commits ∧ L'.Ahead c) ∨
      ∃ n, L'.commits = n :: L.commits ∧ c < n ∧ L'.Ahead n := by
  have hsafe := sound.safeNext_of_inflight hi
  cases step with
  | failed =>
    exact Or.inl ⟨rfl, h.mono safe hsafe.symm (fun _ => id) (Or.inl rfl)⟩
  | moved hadv =>
    -- the safe offset is in flight, so it was not left behind
    have hself := sound.advances_iff.mp hadv
    have hle : c ≤ L.original o := by
      rcases h.set _ hsafe with hle | hbeyond
      · exact hle
      · exact absurd (hbeyond.held o (Or.inl hi)) (by omega)
    exact Or.inr ⟨(L.contiguous o).1, rfl, hle.trans_lt hadv, of_safe rfl le_rfl⟩
  | collected =>
    refine Or.inl ⟨rfl, h.mono safe hsafe.symm (fun k hk => ?_) (Or.inl rfl)⟩
    refine hk.imp_left fun hk => ?_
    change (Function.update L.inflight o none k).isSome at hk
    by_cases heq : k = o
    · simp [heq] at hk
    · rwa [Function.update_of_ne heq] at hk

/-- A member that is given the partition holds nothing of it. -/
theorem startAt {place times : ℕ} (hle : c ≤ place) (pos : 0 < times)
    (idle : ∀ o, ¬L.Held o) : (L.startAt place times).Ahead c where
  unset _ := ⟨place, startAt_fetch _ _ pos, hle⟩
  set s hs := by
    rcases Nat.lt_or_ge s place with hlt | hge
    · exact Or.inr ⟨fun o ho => absurd ho (idle o), place, startAt_fetch _ _ pos, hlt⟩
    · exact Or.inl (hle.trans hge)

end Ahead

end Ledger

namespace KafkaConsumerEngine

variable {Token : Type} {engine : KafkaConsumerEngine Token} {log : PartitionLog}
  {m : Member} {p c : ℕ} {L' : Ledger} {a : Action Token}

/-- Where a member holds nothing, only a record that the client returns changes the books. -/
theorem PartitionStep.eq_of_idle (step : PartitionStep engine log m p a L')
    (within : a.WithinAssignment) (idle : ∀ o, ¬(m.ledger p).Held o)
    (elsewhere : ∀ message env, a = .receive (.record message) env → message.partition ≠ p) :
    L' = m.ledger p := by
  cases step with
  | idle => rfl
  | rewound reached => exact absurd (Or.inl (inflight_isSome_of_mem_rewinds reached)) (idle _)
  | resumeSought waiting => exact absurd (Or.inr ⟨_, waiting, rfl⟩) (idle _)
  | resumed waiting => exact absurd (Or.inr ⟨_, waiting, rfl⟩) (idle _)
  | stuck _ here => exact absurd here (elsewhere _ _ rfl)
  | heldBack _ here => exact absurd here (elsewhere _ _ rfl)
  | rejected _ here => exact absurd here (elsewhere _ _ rfl)
  | delivered _ here => exact absurd here (elsewhere _ _ rfl)
  | acknowledged valid here => exact absurd (here ▸ Or.inl valid.inflight_isSome) (idle _)
  | deadLettered valid here => exact absurd (here ▸ Or.inl valid.inflight_isSome) (idle _)
  | dropped back here => exact absurd (here ▸ Or.inl back.inflight_isSome) (idle _)
  | sought back here => exact absurd (here ▸ Or.inl back.inflight_isSome) (idle _)
  | pausedAt back here => exact absurd (here ▸ Or.inl back.inflight_isSome) (idle _)
  | revoked => exact within.elim
  | repositioned => exact within.elim

/-- What a step of a member commits, if anything, is beyond `c`. -/
theorem PartitionStep.ahead (step : PartitionStep engine log m p a L')
    (within : a.WithinAssignment) (sound : (m.ledger p).Sound)
    (safe : ∀ o, (m.ledger p).Held o → (m.ledger p).safeNext.isSome)
    (h : (m.ledger p).Ahead c) :
    (L'.commits = (m.ledger p).commits ∧ L'.Ahead c) ∨
      ∃ n, L'.commits = n :: (m.ledger p).commits ∧ c < n ∧ L'.Ahead n := by
  have hdrop : ∀ offset o, ((m.ledger p).dropInflight offset).Held o → (m.ledger p).Held o := by
    intro offset o hheld
    refine hheld.imp_left fun hi => ?_
    by_cases heq : o = offset
    · simp [Ledger.dropInflight, heq] at hi
    · simpa [Ledger.dropInflight, heq] using hi
  have hback : ∀ {command : NegativeAcknowledgeCommand Token} {nowMs : ℕ}
      {c : DeliveryCoordinates}, engine.GoesBack m command nowMs c → c.partition = p →
      (m.ledger p).Held c.offset := by
    rintro command nowMs c back rfl
    exact Or.inl back.inflight_isSome
  cases step with
  | idle => exact Or.inl ⟨rfl, h⟩
  | @rewound env offset reached =>
    refine Or.inl ⟨rfl, h.mono safe rfl (fun o hheld => ?_)
      (Or.inr ⟨offset, rfl, Or.inl (Or.inl (inflight_isSome_of_mem_rewinds reached))⟩)⟩
    refine hheld.imp_left fun hi => ?_
    dsimp only [Ledger.rewind] at hi
    split at hi
    · exact hi
    · simp at hi
  | resumeSought waiting =>
    exact Or.inl ⟨rfl, h.mono safe rfl (fun _ => id)
      (Or.inr ⟨_, rfl, Or.inl (Or.inr ⟨_, waiting, rfl⟩)⟩)⟩
  | resumed waiting =>
    refine Or.inl ⟨rfl, h.mono safe rfl (fun o hheld => hheld.imp_right fun hpaused => ?_)
      (Or.inr ⟨_, rfl, Or.inl (Or.inr ⟨_, waiting, rfl⟩)⟩)⟩
    simp [Ledger.deletePaused] at hpaused
  | @stuck message env paused may here =>
    subst here
    exact Or.inl ⟨rfl, h.mono safe rfl (fun _ => id) (Or.inr ⟨_, rfl, Or.inr fun f hf =>
      (may.next f hf).1.trans (Nat.le_succ _)⟩)⟩
  | @heldBack message env paused may here waiting at_pause =>
    exact Or.inl ⟨rfl, h.mono safe rfl (fun _ => id)
      (Or.inr ⟨_, rfl, Or.inl (Or.inr ⟨_, waiting, at_pause⟩)⟩)⟩
  | @rejected message env raised may here =>
    subst here
    refine Or.inl ⟨by simp, h.mono safe (by simp) (fun o hheld => ?_)
      (Or.inr ⟨message.offset + 1, by simp, Or.inr fun f hf =>
        (may.next f hf).1.trans (Nat.le_succ _)⟩)⟩
    rcases hheld with hi | ⟨paused, hpaused, heq⟩
    · exact Or.inl (by simpa using hi)
    · exact Or.inr ⟨paused, ((Ledger.reject_paused _).mp hpaused).1, heq⟩
  | @delivered message env event expiresAtMs may here =>
    subst here
    exact Or.inl ⟨by simp, h.handOut (fun f hf => (may.next f hf).1) event _ _⟩
  | @acknowledged command transaction env c L' valid here step =>
    subst here
    obtain rfl : transaction = none := within
    exact h.acknowledge sound safe valid.inflight_isSome step
  | deadLettered valid here step =>
    subst here
    exact h.acknowledge sound safe valid.inflight_isSome step
  | dropped => exact Or.inl ⟨rfl, h.mono safe rfl (hdrop _) (Or.inl rfl)⟩
  | sought back here =>
    exact Or.inl ⟨rfl, h.mono safe rfl (hdrop _)
      (Or.inr ⟨_, rfl, Or.inl (hback back here)⟩)⟩
  | @pausedAt command env c resumeAt back here =>
    refine Or.inl ⟨rfl, h.mono safe rfl (fun o hheld => ?_)
      (Or.inr ⟨_, rfl, Or.inl (hback back here)⟩)⟩
    -- the new pause ends at the delivery that was in flight
    rcases hheld with hi | ⟨paused, hpaused, rfl⟩
    · exact hdrop _ _ (Or.inl hi)
    · obtain rfl := Option.some.inj hpaused
      exact hback back here
  | revoked => exact within.elim
  | repositioned => exact within.elim

end KafkaConsumerEngine

/-! ### The commits of a group -/

namespace Members

variable {Token : Type} {engine : KafkaConsumerEngine Token} {log : PartitionLog}
  {stream : PhysicalStream} {start : ℕ → ℕ} {w : Members}

/-- A member commits only for partitions that the coordinator has not taken away: for any other
the broker refuses the commit, and the call raises. -/
def Fenced (engine : KafkaConsumerEngine Token) (w : Members) : GroupEvent Token → Prop
  | .act i a => ∀ p, (w.member i).commitsAfter (engine.next (w.member i) a) p ≠ [] →
    w.owner p = some i
  | .assign _ _ | .revoke _ _ | .release _ => True

instance (w : Members) (e : GroupEvent Token) : Decidable (w.Fenced engine e) :=
  match e with
  | .act i a =>
    -- a partition that is not in the history has no commits
    decidable_of_iff (∀ x ∈ (engine.next (w.member i) a).history,
        (w.member i).commitsAfter (engine.next (w.member i) a) x.1 ≠ [] → w.owner x.1 = some i)
      ⟨fun h p hp => by
        obtain ⟨n, hn⟩ := List.exists_mem_of_ne_nil _ hp
        obtain ⟨what, hwhat, -⟩ := List.mem_filterMap.mp (List.mem_of_mem_take hn)
        obtain ⟨x, hx, heq⟩ := List.mem_filterMap.mp hwhat
        by_cases here : x.1 = p
        · exact here ▸ h x hx (here ▸ hp)
        · simp [here] at heq,
      fun h x _ => h x.1⟩
  | .assign _ _ | .revoke _ _ | .release _ => isTrue trivial

/-- The group in every state that it can reach with such a broker. -/
structure Ordered (w : Members) : Prop where
  assigned : ∀ p i, w.owner p = some i → p ∈ (w.member i).state.assigned
  idle : ∀ i, ∀ p ∉ (w.member i).state.assigned, ∀ o, ¬((w.member i).ledger p).Held o
  ahead : ∀ p i, w.owner p = some i → ((w.member i).ledger p).Ahead ((w.commits p).headD 0)
  commits : ∀ p, (w.commits p).Pairwise (· > ·)

theorem Fresh.ordered (h : w.Fresh stream) : w.Ordered where
  assigned p i hp := by rw [h.owner p] at hp; simp at hp
  idle i p _ o := by
    rw [h.ledger i p]
    rintro (hi | ⟨paused, hpaused, -⟩)
    · simp [Ledger.empty] at hi
    · simp [Ledger.empty] at hpaused
  ahead p i hp := by rw [h.owner p] at hp; simp at hp
  commits p := by rw [h.commits p]; exact List.Pairwise.nil

theorem Safe.held_safe (h : w.Safe engine log stream start) (i p : ℕ) (o : ℕ)
    (held : ((w.member i).ledger p).Held o) : ((w.member i).ledger p).safeNext.isSome := by
  rcases held with hi | ⟨paused, hpaused, -⟩
  · exact (h.ledger i p).sound.inflight_safe o hi
  · exact (h.ledger i p).paused_safe (by rw [hpaused]; rfl)

theorem lt_of_mem_commits {commits : List ℕ} {c : ℕ} (h : commits.Pairwise (· > ·))
    (hlt : commits.headD 0 < c) : ∀ n ∈ commits, n < c := by
  cases commits with
  | nil => simp
  | cons first commits =>
    intro n hn
    rcases List.mem_cons.mp hn with rfl | hn
    · exact hlt
    · exact (List.rel_of_pairwise_cons h hn).trans hlt

theorem Ordered.act (h : w.Ordered) (safe : w.Safe engine log stream start) {i : ℕ}
    {a : Action Token} (within : a.WithinAssignment) (allowed : a.Allowed log (w.member i))
    (assigned : a.FromAssigned (w.member i)) (fenced : w.Fenced engine (.act i a)) :
    (Members.next engine start w (.act i a)).Ordered := by
  have hstep := fun p => engine.next_step (p := p) log allowed
  have hkeeps : (engine.next (w.member i) a).state.assigned = (w.member i).state.assigned :=
    engine.next_keeps (fun _ _ _ _ _ _ => rfl) within.keepsAssignment
  have hsince := fun p => Member.commits_eq_append (hstep p).suffix
  -- the commits of a partition that the member does not own are not its own
  have hothers : ∀ p, w.owner p ≠ some i →
      (w.member i).commitsAfter (engine.next (w.member i) a) p = [] := by
    intro p hp
    by_contra hne
    exact hp (fenced p hne)
  have howner : ∀ p, w.owner p = some i →
      ((engine.next (w.member i) a).ledger p).Ahead
          (((w.member i).commitsAfter (engine.next (w.member i) a) p ++ w.commits p).headD 0) ∧
        ((w.member i).commitsAfter (engine.next (w.member i) a) p ++ w.commits p).Pairwise
          (· > ·) := by
    intro p hp
    have hsincep := hsince p
    rcases (hstep p).ahead within (safe.ledger i p).sound (safe.held_safe i p) (h.ahead p i hp) with
      ⟨hcommits, hahead⟩ | ⟨n, hcommits, hlt, hahead⟩
    · rw [hcommits, List.self_eq_append_left] at hsincep
      rw [hsincep]
      exact ⟨hahead, h.commits p⟩
    · rw [hcommits, ← List.singleton_append, List.append_left_inj] at hsincep
      rw [← hsincep]
      exact ⟨hahead, List.Pairwise.cons (lt_of_mem_commits (h.commits p) hlt) (h.commits p)⟩
  refine ⟨fun p j hp => ?_, fun j p hp o => ?_, fun p j hp => ?_, fun p => ?_⟩
  · change p ∈ (Function.update w.member i _ j).state.assigned
    by_cases hj : j = i
    · subst hj
      rw [Function.update_self, hkeeps]
      exact h.assigned p j hp
    · rw [Function.update_of_ne hj]
      exact h.assigned p j hp
  · change p ∉ (Function.update w.member i _ j).state.assigned at hp
    change ¬((Function.update w.member i _ j).ledger p).Held o
    by_cases hj : j = i
    · subst hj
      rw [Function.update_self, hkeeps] at hp
      rw [Function.update_self, (hstep p).eq_of_idle within (h.idle j p hp)]
      · exact h.idle j p hp o
      · rintro message env rfl rfl
        exact hp assigned
    · rw [Function.update_of_ne hj] at hp ⊢
      exact h.idle j p hp o
  · change ((Function.update w.member i _ j).ledger p).Ahead _
    by_cases hj : j = i
    · subst hj
      rw [Function.update_self]
      exact (howner p hp).1
    · have hne : w.owner p ≠ some i := fun heq => hj (Option.some.inj (hp.symm.trans heq))
      change ((Function.update w.member i _ j).ledger p).Ahead
        (((w.member i).commitsAfter (engine.next (w.member i) a) p ++ w.commits p).headD 0)
      rw [Function.update_of_ne hj, hothers p hne]
      exact h.ahead p j hp
  · change ((w.member i).commitsAfter (engine.next (w.member i) a) p ++ w.commits p).Pairwise
      (· > ·)
    by_cases hp : w.owner p = some i
    · exact (howner p hp).2
    · rw [hothers p hp]
      exact h.commits p

theorem Ordered.assign (h : w.Ordered) {i : ℕ} {partitions : List ℕ}
    (unassigned : (w.member i).state.assigned = ∅) :
    (Members.next engine start w (.assign i partitions)).Ordered := by
  have hledger := Member.ledger_assignedAt (w.member i) (w.place start) partitions
  have hidle : ∀ p o, ¬((w.member i).ledger p).Held o :=
    fun p => h.idle i p (by rw [unassigned]; simp)
  refine ⟨fun p j hp => ?_, fun j p hp o => ?_, fun p j hp => ?_, h.commits⟩
  · change (if p ∈ partitions then some i else w.owner p) = some j at hp
    change p ∈ (Function.update w.member i _ j).state.assigned
    by_cases hj : j = i
    · subst hj
      rw [Function.update_self]
      split at hp
      · next hmem => exact List.mem_toFinset.mpr hmem
      · have := h.assigned p j hp
        rw [unassigned] at this
        simp at this
    · rw [Function.update_of_ne hj]
      split at hp
      · exact absurd (Option.some.inj hp).symm hj
      · exact h.assigned p j hp
  · change p ∉ (Function.update w.member i _ j).state.assigned at hp
    change ¬((Function.update w.member i _ j).ledger p).Held o
    by_cases hj : j = i
    · subst hj
      rw [Function.update_self, hledger]
      exact hidle p o
    · rw [Function.update_of_ne hj] at hp ⊢
      exact h.idle j p hp o
  · change (if p ∈ partitions then some i else w.owner p) = some j at hp
    change ((Function.update w.member i _ j).ledger p).Ahead ((w.commits p).headD 0)
    split at hp
    · next hmem =>
      -- the new owner begins at the last commit
      obtain rfl := Option.some.inj hp
      rw [Function.update_self, hledger]
      refine Ledger.Ahead.startAt ?_ (List.count_pos_iff.mpr hmem) (hidle p)
      unfold Members.place
      cases w.commits p with
      | nil => exact Nat.zero_le _
      | cons n commits => exact le_rfl
    · next hmem =>
      have hj : j ≠ i := by
        rintro rfl
        have := h.assigned p j hp
        rw [unassigned] at this
        simp at this
      rw [Function.update_of_ne hj]
      exact h.ahead p j hp

theorem Ordered.revoke (h : w.Ordered) (i : ℕ) (partitions : List ℕ) :
    (Members.next engine start w (.revoke i partitions)).Ordered := by
  have hledger : ∀ p, ((w.member i).revoked partitions).ledger p =
      if p ∈ partitions then ((w.member i).ledger p).revoke else (w.member i).ledger p :=
    fun p => Member.ledger_revoked ..
  -- what is left to an owner was not revoked
  have howner : ∀ p j, (if p ∈ partitions ∧ w.owner p = some i then none else w.owner p) = some j →
      w.owner p = some j ∧ (j = i → p ∉ partitions) := by
    intro p j hp
    split at hp
    · simp at hp
    · next hnot => exact ⟨hp, fun hj hmem => hnot ⟨hmem, hj ▸ hp⟩⟩
  refine ⟨fun p j hp => ?_, fun j p hp o => ?_, fun p j hp => ?_, h.commits⟩
  · obtain ⟨howned, hmem⟩ := howner p j hp
    change p ∈ (Function.update w.member i _ j).state.assigned
    by_cases hj : j = i
    · subst hj
      rw [Function.update_self]
      exact Finset.mem_sdiff.mpr
        ⟨h.assigned p j howned, fun hin => hmem rfl (List.mem_toFinset.mp hin)⟩
    · rw [Function.update_of_ne hj]
      exact h.assigned p j howned
  · change p ∉ (Function.update w.member i _ j).state.assigned at hp
    change ¬((Function.update w.member i _ j).ledger p).Held o
    by_cases hj : j = i
    · subst hj
      rw [Function.update_self] at hp ⊢
      rw [hledger]
      split
      · rintro (hi | ⟨paused, hpaused, -⟩)
        · simp [Ledger.revoke] at hi
        · simp [Ledger.revoke] at hpaused
      · next hmem =>
        refine h.idle j p (fun hin => hp ?_) o
        exact Finset.mem_sdiff.mpr ⟨hin, fun hin' => hmem (List.mem_toFinset.mp hin')⟩
    · rw [Function.update_of_ne hj] at hp ⊢
      exact h.idle j p hp o
  · obtain ⟨howned, hmem⟩ := howner p j hp
    change ((Function.update w.member i _ j).ledger p).Ahead ((w.commits p).headD 0)
    by_cases hj : j = i
    · subst hj
      rw [Function.update_self, hledger, if_neg (hmem rfl)]
      exact h.ahead p j howned
    · rw [Function.update_of_ne hj]
      exact h.ahead p j howned

theorem Ordered.release (h : w.Ordered) (p : ℕ) :
    (Members.next engine start w (.release p)).Ordered := by
  have howner : ∀ q j, Function.update w.owner p none q = some j → w.owner q = some j := by
    intro q j hq
    by_cases heq : q = p
    · rw [heq, Function.update_self] at hq
      simp at hq
    · rwa [Function.update_of_ne heq] at hq
  exact ⟨fun q j hq => h.assigned q j (howner q j hq), h.idle,
    fun q j hq => h.ahead q j (howner q j hq), h.commits⟩

end Members

/-- **The commits of a group increase.** With a broker that refuses the commits of a member that
the coordinator has taken the partition from, the offsets that a group commits for a partition
increase strictly, through any rebalances and over all of its members. -/
theorem KafkaConsumerEngine.group_commits_increase {Token : Type}
    (engine : KafkaConsumerEngine Token) (log : PartitionLog) (start : ℕ → ℕ)
    {stream : PhysicalStream} {w : Members} (fresh : w.Fresh stream)
    {run : List (GroupEvent Token)} (legal : (engine.members log start).Legal w run)
    (fenced : ∀ x ∈ (engine.members log start).steps w run, x.1.Fenced engine x.2) (p : ℕ) :
    (((engine.members log start).play w run).commits p).Pairwise (· > ·) := by
  refine (Machine.play_induction
    (I := fun w : Members => w.Safe engine log stream start ∧ w.Ordered)
    (C := fun w e => w.Fenced engine e) ?_ ⟨fresh.safe, fresh.ordered⟩ legal fenced).2.commits p
  rintro w e ⟨safe, ordered⟩ allowed hfenced
  refine ⟨safe.step allowed, ?_⟩
  change (Members.next engine start w e).Ordered
  cases e with
  | act i a => exact ordered.act safe allowed.1 allowed.2.1 allowed.2.2 hfenced
  | assign i partitions => exact ordered.assign allowed
  | revoke i partitions => exact ordered.revoke i partitions
  | release p => exact ordered.release p

/-- Member 0 is given the partition and resolves record 0; record 1 is in flight when the
coordinator gives the partition to member 1. Member 0 has not noticed and acknowledges record 1
too late. -/
def Sample.handedOver : List (GroupEvent TokenPayload) :=
  [.assign 0 [0], .act 0 (Sample.receive 0), .act 0 (Sample.acknowledge 0),
    .act 0 (Sample.receive 1), .assign 1 [0], .act 0 (Sample.acknowledge 1 (some .other)),
    .act 1 (Sample.receive 1), .act 1 (Sample.acknowledge 1), .revoke 0 [0]]

theorem delivered_at_least_once_handed_over :
    let w := (Sample.engine.members (Sample.log [0, 1, 2] []) (fun _ => 0)).play Sample.members
      Sample.handedOver
    ∃ i, 1 ∈ ((w.member i).ledger 0).delivered ∧ 1 ∈ ((w.member i).ledger 0).resolved :=
  KafkaConsumerEngine.delivered_at_least_once Sample.engine _ _ Sample.members_fresh
    (by decide +kernel) 0 1 (by decide) (by decide +kernel)
    ⟨Sample.message 1, Sample.event, rfl, rfl⟩

theorem group_commits_increase_handed_over :
    (((Sample.engine.members (Sample.log [0, 1, 2] []) (fun _ => 0)).play Sample.members
      Sample.handedOver).commits 0).Pairwise (· > ·) :=
  KafkaConsumerEngine.group_commits_increase Sample.engine _ _ Sample.members_fresh
    (by decide +kernel) (by decide +kernel) 0

end MeridianKafka
