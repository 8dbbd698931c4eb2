import MeridianKafka.Consumer.Ledger

/-!
# What one operation does to one partition

`PartitionStep` lists everything that an operation of the engine can do to the
ledger of a partition, each with the facts about the call that bring it about.
`next_step` says that the list is complete. It is the only place where the
engine's operations are unfolded: every invariant of the group is a case analysis
on `PartitionStep`.
-/

namespace MeridianKafka

open Framework

/-- What an acknowledgement with a valid token does to the ledger of its
partition; `fails` says that the client call that moves the group raises. -/
inductive Ledger.AcknowledgeStep (L : Ledger) (offset : ℕ) (transactional : Bool) (fails : Prop) :
    Ledger → Prop
  /-- The safe offset would advance, but the group could not be moved. -/
  | failed (advances : L.original offset < (L.contiguous offset).1) (raises : fails) :
      AcknowledgeStep L offset transactional fails (L.collect offset)
  | moved (advances : L.original offset < (L.contiguous offset).1) (returns : ¬fails) :
      AcknowledgeStep L offset transactional fails
        ((((L.collect offset).note
          (if transactional then .staged (L.contiguous offset).1
            else .commit (L.contiguous offset).1)).setSafe
          (L.contiguous offset).1).settle offset transactional)
  /-- The offset waits behind one that is not acknowledged. -/
  | collected (waits : (L.contiguous offset).1 ≤ L.original offset) :
      AcknowledgeStep L offset transactional fails ((L.collect offset).settle offset transactional)

namespace KafkaConsumerEngine

variable {Token : Type} (engine : KafkaConsumerEngine Token) (log : PartitionLog)

/-- Moving the group in this acknowledgement raises. -/
def MoveFails (m : Member) (command : AcknowledgeCommand Token) (c : DeliveryCoordinates)
    (transaction : Option KafkaTransactionBridge) (env : AcknowledgeEnv) : Prop :=
  ∃ raised, (moveGroup command c.partition (m.contiguous c.partition c.offset).1 transaction
    env).1 = .error raised

/-- The token of an acknowledgement is valid: it decodes to these coordinates, and
they name a delivery in flight. -/
structure ValidToken (m : Member) (command : AcknowledgeCommand Token) (nowMs : ℕ)
    (c : DeliveryCoordinates) : Prop where
  decodes : engine.cursor.decodeDelivery nowMs command.delivery command.subscription.ref
    command.consumerGroup.ref command.stream.topic = .ok c
  accepted : acknowledgeGuard m c = none

/-- The token of a negative acknowledgement is valid, and the delivery goes back. -/
structure GoesBack (m : Member) (command : NegativeAcknowledgeCommand Token) (nowMs : ℕ)
    (c : DeliveryCoordinates) : Prop where
  decodes : engine.cursor.decodeDelivery nowMs command.delivery command.subscription.ref
    command.consumerGroup.ref command.stream.topic = .ok c
  accepted : ∃ inflight, negativeAcknowledgeGuard m c = .ok inflight
  live : deadLetterStream command c = none

/-- The partitions that an expiry rewinds, each with its new position: those that
the loop reaches before a seek raises. -/
def rewinds (m : Member) (env : ExpireEnv) : List (ℕ × ℕ) :=
  (Dict.groupMin (expired m env.nowMs)).entries.takeWhile fun e => (env.seek e.1).isNone

/-- The first expired delivery of a partition. -/
def EarliestExpired (L : Ledger) (nowMs offset : ℕ) : Prop :=
  IsLeast {o | ∃ inflight, L.inflight o = some inflight ∧ inflight.expiresAtMs ≤ nowMs} offset

/-- Everything that an operation can do to the ledger of the partition `p`. -/
inductive PartitionStep (m : Member) (p : ℕ) : Action Token → Ledger → Prop
  | idle (a : Action Token) : PartitionStep m p a (m.ledger p)
  | rewound {env : ExpireEnv} {offset : ℕ} (reached : (p, offset) ∈ rewinds m env) :
      PartitionStep m p (.expireInflight env) ((m.ledger p).rewind offset)
  /-- The client went to the paused offset but did not resume. -/
  | resumeSought {env : ResumeEnv} {paused : PausedDelivery}
      (waiting : (m.ledger p).paused = some paused) (raises : (env.resume p).isSome) :
      PartitionStep m p (.resumeDue env) ((m.ledger p).note (.seek paused.offset))
  | resumed {env : ResumeEnv} {paused : PausedDelivery}
      (waiting : (m.ledger p).paused = some paused) :
      PartitionStep m p (.resumeDue env)
        ((((m.ledger p).note (.seek paused.offset)).note .resume).deletePaused)
  /-- The record of a pause arrived early, and the client could not go back. -/
  | stuck {message : Message} {env : DeliveryEnv} {paused : PausedDelivery}
      (may : MayReturn log m message) (here : message.partition = p)
      (waiting : (m.ledger p).paused = some paused) (at_pause : paused.offset = message.offset) :
      PartitionStep m p (.receive (.record message) env)
        ((m.ledger p).note (.returned message.offset))
  | heldBack {message : Message} {env : DeliveryEnv} {paused : PausedDelivery}
      (may : MayReturn log m message) (here : message.partition = p)
      (waiting : (m.ledger p).paused = some paused) (at_pause : paused.offset = message.offset) :
      PartitionStep m p (.receive (.record message) env)
        (((m.ledger p).note (.returned message.offset)).note (.seek message.offset))
  | rejected {message : Message} {env : DeliveryEnv} {raised : Raised}
      (may : MayReturn log m message) (here : message.partition = p)
      (decodes : decodeEvent engine.parseEvent message m.state.command.stream = .error raised) :
      PartitionStep m p (.receive (.record message) env)
        ((m.ledger p).reject message.offset)
  | delivered {message : Message} {env : DeliveryEnv} {event : Event} {expiresAtMs : ℕ}
      (may : MayReturn log m message) (here : message.partition = p)
      (decodes : decodeEvent engine.parseEvent message m.state.command.stream = .ok event) :
      PartitionStep m p (.receive (.record message) env)
        ((m.ledger p).handOut message.offset event m.state.assignmentEpoch expiresAtMs)
  | acknowledged {command : AcknowledgeCommand Token}
      {transaction : Option KafkaTransactionBridge} {env : AcknowledgeEnv}
      {c : DeliveryCoordinates} {L' : Ledger} (valid : engine.ValidToken m command env.nowMs c)
      (here : c.partition = p)
      (step : (m.ledger p).AcknowledgeStep c.offset transaction.isSome
        (MoveFails m command c transaction env) L') :
      PartitionStep m p (.acknowledge command transaction env) L'
  | deadLettered {command : NegativeAcknowledgeCommand Token} {env : NegativeAcknowledgeEnv}
      {c : DeliveryCoordinates} {L' : Ledger}
      (valid : engine.ValidToken m command.toAcknowledgeCommand env.acknowledge.nowMs c)
      (here : c.partition = p)
      (step : (m.ledger p).AcknowledgeStep c.offset false
        (MoveFails m command.toAcknowledgeCommand c none env.acknowledge) L') :
      PartitionStep m p (.negativeAcknowledge command env) L'
  /-- The delivery left the books, and the client could not go back to it. -/
  | dropped {command : NegativeAcknowledgeCommand Token} {env : NegativeAcknowledgeEnv}
      {c : DeliveryCoordinates} (back : engine.GoesBack m command env.nowMs c)
      (here : c.partition = p) (raises : env.seek.isSome) :
      PartitionStep m p (.negativeAcknowledge command env) ((m.ledger p).dropInflight c.offset)
  | sought {command : NegativeAcknowledgeCommand Token} {env : NegativeAcknowledgeEnv}
      {c : DeliveryCoordinates} (back : engine.GoesBack m command env.nowMs c)
      (here : c.partition = p) (seek : env.seek = none)
      (at_once : command.retryAfterMs = 0 ∨ env.pause.isSome) :
      PartitionStep m p (.negativeAcknowledge command env)
        (((m.ledger p).dropInflight c.offset).note (.seek c.offset))
  | pausedAt {command : NegativeAcknowledgeCommand Token} {env : NegativeAcknowledgeEnv}
      {c : DeliveryCoordinates} {resumeAt : ℕ} (back : engine.GoesBack m command env.nowMs c)
      (here : c.partition = p) (seek : env.seek = none)
      (later : ¬(command.retryAfterMs = 0 ∨ env.pause.isSome)) :
      PartitionStep m p (.negativeAcknowledge command env)
        (((((m.ledger p).dropInflight c.offset).note (.seek c.offset)).note .pause).setPaused
          ⟨c.offset, resumeAt⟩)
  | revoked {partitions : List ℕ} (here : p ∈ partitions) :
      PartitionStep m p (.revoked partitions) (m.ledger p).revoke
  | repositioned {command : GroupPositionCommand Token} {env : GroupPositionEnv}
      (target : Option ℕ) :
      PartitionStep m p (.groupPosition command env) ((m.ledger p).reposition target)

variable {m : Member} {p : ℕ}

/-- Without a transaction, moving the group is the commit. -/
theorem moveFails_none {command : AcknowledgeCommand Token} {c : DeliveryCoordinates}
    {env : AcknowledgeEnv} : MoveFails m command c none env ↔ env.commit.isSome := by
  unfold MoveFails moveGroup
  cases env.commit with
  | none => simp
  | some raised => simp

/-! ### Expiry and resumption -/

theorem mem_expired {nowMs : ℕ} {key : ℕ × ℕ} :
    key ∈ expired m nowMs ↔
      ∃ inflight, m.state.inflight.get? key = some inflight ∧ inflight.expiresAtMs ≤ nowMs := by
  unfold expired
  rw [List.mem_map]
  constructor
  · rintro ⟨⟨k, inflight⟩, hmem, rfl⟩
    obtain ⟨hmem, hle⟩ := List.mem_filter.mp hmem
    exact ⟨inflight, Dict.mem_entries_iff.mp hmem, by simpa using hle⟩
  · rintro ⟨inflight, hget, hle⟩
    refine ⟨(key, inflight), List.mem_filter.mpr ⟨Dict.mem_entries_iff.mpr hget, ?_⟩, rfl⟩
    simpa using hle

/-- The grouping finds the first expired delivery of each partition. -/
theorem get?_groupMin_expired {nowMs offset : ℕ} :
    (Dict.groupMin (expired m nowMs)).get? p = some offset ↔
      EarliestExpired (m.ledger p) nowMs offset := by
  have hmin := Dict.isGroupMin_groupMin (expired m nowMs)
  have hearliest : ∀ o, (Dict.groupMin (expired m nowMs)).get? p = some o →
      EarliestExpired (m.ledger p) nowMs o := fun o hget =>
    ⟨mem_expired.mp (hmin.mem p o hget), fun k hk => hmin.le p o k hget (mem_expired.mpr hk)⟩
  refine ⟨hearliest offset, fun hleast => ?_⟩
  obtain ⟨o, hget⟩ :=
    Option.isSome_iff_exists.mp (hmin.total p offset (mem_expired.mpr hleast.1))
  rw [hget, (hearliest o hget).unique hleast]

/-- The position to which an expiry rewinds a partition is its first expired
delivery. -/
theorem earliestExpired_of_mem {env : ExpireEnv} {offset : ℕ}
    (h : (p, offset) ∈ rewinds m env) : EarliestExpired (m.ledger p) env.nowMs offset :=
  get?_groupMin_expired.mp (Dict.mem_entries_iff.mp (List.takeWhile_subset _ h))

/-- The loop rewinds a partition at most once, because its keys are distinct. -/
theorem ledger_rewindLoop (p : ℕ) (env : ExpireEnv) (l : List (ℕ × ℕ))
    (hl : (l.map Prod.fst).Nodup) (m : Member) :
    (rewindLoop env l m).2.ledger p = m.ledger p ∨
      ∃ offset, (p, offset) ∈ l.takeWhile (fun e => (env.seek e.1).isNone) ∧
        (rewindLoop env l m).2.ledger p = (m.ledger p).rewind offset := by
  induction l generalizing m with
  | nil => exact Or.inl rfl
  | cons e rest ih =>
    obtain ⟨q, o⟩ := e
    rw [List.map_cons, List.nodup_cons] at hl
    rw [rewindLoop]
    cases hseek : env.seek q with
    | some raised => exact Or.inl rfl
    | none =>
      have htake : ((q, o) :: rest).takeWhile (fun e => (env.seek e.1).isNone) =
          (q, o) :: rest.takeWhile (fun e => (env.seek e.1).isNone) :=
        List.takeWhile_cons_of_pos (by rw [hseek]; rfl)
      rw [htake]
      have hrest := ih hl.2 (m.rewind q o)
      rw [m.ledger_rewind p q o] at hrest
      -- The partitions are distinct, so no later entry rewinds `q` again.
      by_cases h : q = p
      · subst h
        rw [if_pos rfl] at hrest
        rcases hrest with heq | ⟨offset, hmem, -⟩
        · exact Or.inr ⟨o, List.mem_cons_self, heq⟩
        · exact absurd (List.mem_map.mpr ⟨_, List.takeWhile_subset _ hmem, rfl⟩) hl.1
      · rw [if_neg h] at hrest
        rcases hrest with heq | ⟨offset, hmem, heq⟩
        · exact Or.inl heq
        · exact Or.inr ⟨offset, List.mem_cons_of_mem _ hmem, heq⟩

/-- When no seek raises, the loop rewinds every partition it is given. -/
theorem ledger_rewindLoop_of_returns (p nowMs : ℕ) (l : List (ℕ × ℕ))
    (hl : (l.map Prod.fst).Nodup) (m : Member) :
    (rewindLoop { nowMs } l m).2.ledger p =
      match l.lookup p with
      | none => m.ledger p
      | some offset => (m.ledger p).rewind offset := by
  induction l generalizing m with
  | nil => rfl
  | cons e rest ih =>
    obtain ⟨q, o⟩ := e
    rw [List.map_cons, List.nodup_cons] at hl
    rw [rewindLoop, List.lookup_cons]
    dsimp only
    rw [ih hl.2]
    by_cases h : p = q
    · subst h
      have hrest : rest.lookup p = none := Dict.lookup_eq_none hl.1
      rw [beq_self_eq_true, hrest, Member.ledger_rewind, if_pos rfl]
    · rw [beq_eq_false_iff_ne.mpr h, Member.ledger_rewind, if_neg (Ne.symm h)]

theorem ledger_rewindLoop_of_none {p : ℕ} {l : Dict ℕ ℕ} (h : l.get? p = none) (nowMs : ℕ)
    (m : Member) : (rewindLoop { nowMs } l.entries m).2.ledger p = m.ledger p := by
  have hlookup : l.entries.lookup p = none := h
  rw [ledger_rewindLoop_of_returns p nowMs _ l.nodup, hlookup]

theorem ledger_rewindLoop_of_some {p offset : ℕ} {l : Dict ℕ ℕ} (h : l.get? p = some offset)
    (nowMs : ℕ) (m : Member) :
    (rewindLoop { nowMs } l.entries m).2.ledger p = (m.ledger p).rewind offset := by
  have hlookup : l.entries.lookup p = some offset := h
  rw [ledger_rewindLoop_of_returns p nowMs _ l.nodup, hlookup]

/-- An expiry whose client calls return is its loop. -/
theorem expireInflight_of_returns (nowMs : ℕ) :
    (expireInflight m { nowMs }).2 =
      (rewindLoop { nowMs } (Dict.groupMin (expired m nowMs)).entries m).2 := by
  unfold expireInflight
  dsimp only
  split
  · next hempty =>
    rw [List.isEmpty_iff.mp hempty]
    rfl
  · rcases rewindLoop { nowMs } (Dict.groupMin (expired m nowMs)).entries m with ⟨_ | ⟨⟨⟩⟩, m'⟩ <;>
      rfl

theorem expireInflight_step (env : ExpireEnv) :
    PartitionStep engine log m p (.expireInflight env) ((expireInflight m env).2.ledger p) := by
  have hloop := ledger_rewindLoop p env (Dict.groupMin (expired m env.nowMs)).entries
    (Dict.groupMin (expired m env.nowMs)).nodup m
  -- the calls after the loop raise or not, and leave the member to what the loop made of it
  have hend : (expireInflight m env).2.ledger p = m.ledger p ∨
      (expireInflight m env).2.ledger p =
        (rewindLoop env (Dict.groupMin (expired m env.nowMs)).entries m).2.ledger p := by
    unfold expireInflight
    dsimp only
    split
    · exact Or.inl rfl
    · refine Or.inr ?_
      rcases rewindLoop env (Dict.groupMin (expired m env.nowMs)).entries m with ⟨_ | ⟨⟨⟩⟩, m'⟩
      · rfl
      · cases env.emit <;> rfl
  rcases hend with heq | heq
  · rw [heq]
    exact .idle _
  · rw [heq]
    rcases hloop with hkept | ⟨offset, hmem, hrew⟩
    · rw [hkept]
      exact .idle _
    · rw [hrew]
      exact .rewound hmem

/-- The loop resumes a partition at most once, at the entry it has for it. -/
theorem ledger_resumeLoop (p : ℕ) (env : ResumeEnv) (l : List (ℕ × PausedDelivery))
    (hl : (l.map Prod.fst).Nodup) (m : Member) :
    (resumeLoop env l m).2.ledger p = m.ledger p ∨
      ∃ paused, (p, paused) ∈ l ∧
        (((env.resume p).isSome ∧
            (resumeLoop env l m).2.ledger p = (m.ledger p).note (.seek paused.offset)) ∨
          (resumeLoop env l m).2.ledger p =
            (((m.ledger p).note (.seek paused.offset)).note .resume).deletePaused) := by
  induction l generalizing m with
  | nil => exact Or.inl rfl
  | cons e rest ih =>
    obtain ⟨q, paused⟩ := e
    rw [List.map_cons, List.nodup_cons] at hl
    -- What the rest of the loop does when this entry leaves `p` alone.
    have hskip : ∀ m' : Member, m'.ledger p = m.ledger p →
        (resumeLoop env rest m').2.ledger p = m.ledger p ∨
        ∃ paused', (p, paused') ∈ (q, paused) :: rest ∧
          (((env.resume p).isSome ∧
              (resumeLoop env rest m').2.ledger p = (m.ledger p).note (.seek paused'.offset)) ∨
            (resumeLoop env rest m').2.ledger p =
              (((m.ledger p).note (.seek paused'.offset)).note .resume).deletePaused) := by
      intro m' hm'
      rcases ih hl.2 m' with heq | ⟨paused', hmem, hend⟩
      · exact Or.inl (heq.trans hm')
      · rw [hm'] at hend
        exact Or.inr ⟨paused', List.mem_cons_of_mem _ hmem, hend⟩
    rw [resumeLoop]
    split
    · exact hskip m rfl
    cases env.seek q with
    | some raised => exact Or.inl rfl
    | none =>
      dsimp only
      cases hresume : env.resume q with
      | some raised =>
        dsimp only
        rw [m.ledger_note p q]
        by_cases h : q = p
        · subst h
          rw [if_pos rfl]
          exact Or.inr ⟨paused, List.mem_cons_self, Or.inl ⟨by rw [hresume]; rfl, rfl⟩⟩
        · rw [if_neg h]
          exact Or.inl rfl
      | none =>
        dsimp only
        by_cases h : q = p
        · subst h
          have hrest := ih hl.2 (((m.note q (.seek paused.offset)).note q .resume).deletePaused q)
          rw [Member.ledger_deletePaused, Member.ledger_note, Member.ledger_note, if_pos rfl,
            if_pos rfl, if_pos rfl] at hrest
          rcases hrest with heq | ⟨paused', hmem, -⟩
          · exact Or.inr ⟨paused, List.mem_cons_self, Or.inr heq⟩
          · exact absurd (List.mem_map.mpr ⟨_, hmem, rfl⟩) hl.1
        · refine hskip _ ?_
          rw [Member.ledger_deletePaused, Member.ledger_note, Member.ledger_note, if_neg h,
            if_neg h, if_neg h]

/-- When no client call raises, the loop resumes exactly what is due. -/
theorem ledger_resumeLoop_of_returns (p monotonicNs : ℕ) (l : List (ℕ × PausedDelivery))
    (hl : (l.map Prod.fst).Nodup) (m : Member) :
    (resumeLoop { monotonicNs } l m).2.ledger p =
      match l.lookup p with
      | none => m.ledger p
      | some paused =>
        if paused.resumeAt > monotonicNs then m.ledger p
        else (((m.ledger p).note (.seek paused.offset)).note .resume).deletePaused := by
  induction l generalizing m with
  | nil => rfl
  | cons e rest ih =>
    obtain ⟨q, paused⟩ := e
    rw [List.map_cons, List.nodup_cons] at hl
    rw [resumeLoop, List.lookup_cons]
    -- The partitions are distinct, so `p` is resumed by this entry or by a later one.
    by_cases h : p = q
    · subst h
      have hrest : rest.lookup p = none := Dict.lookup_eq_none hl.1
      rw [beq_self_eq_true]
      dsimp only
      split
      · rw [ih hl.2, hrest]
      · rw [ih hl.2, hrest]
        dsimp only
        rw [Member.ledger_deletePaused, Member.ledger_note, Member.ledger_note, if_pos rfl,
          if_pos rfl, if_pos rfl]
    · rw [beq_eq_false_iff_ne.mpr h]
      dsimp only
      split
      · exact ih hl.2 m
      · rw [ih hl.2, Member.ledger_deletePaused, Member.ledger_note, Member.ledger_note,
          if_neg (Ne.symm h), if_neg (Ne.symm h), if_neg (Ne.symm h)]

theorem ledger_resumeLoop_of_none {p : ℕ} {l : Dict ℕ PausedDelivery} (h : l.get? p = none)
    (monotonicNs : ℕ) (m : Member) :
    (resumeLoop { monotonicNs } l.entries m).2.ledger p = m.ledger p := by
  have hlookup : l.entries.lookup p = none := h
  rw [ledger_resumeLoop_of_returns p monotonicNs _ l.nodup, hlookup]

theorem ledger_resumeLoop_of_some {p : ℕ} {l : Dict ℕ PausedDelivery} {paused : PausedDelivery}
    (h : l.get? p = some paused) (monotonicNs : ℕ) (m : Member) :
    (resumeLoop { monotonicNs } l.entries m).2.ledger p =
      if paused.resumeAt > monotonicNs then m.ledger p
      else (((m.ledger p).note (.seek paused.offset)).note .resume).deletePaused := by
  have hlookup : l.entries.lookup p = some paused := h
  rw [ledger_resumeLoop_of_returns p monotonicNs _ l.nodup, hlookup]

theorem resumeDue_step (env : ResumeEnv) :
    PartitionStep engine log m p (.resumeDue env) ((resumeDue m env).2.ledger p) := by
  unfold resumeDue
  rcases ledger_resumeLoop p env m.state.paused.entries m.state.paused.nodup m with
    heq | ⟨paused, hmem, ⟨hraises, heq⟩ | heq⟩
  · rw [heq]
    exact .idle _
  · rw [heq]
    exact .resumeSought (Dict.mem_entries_iff.mp hmem) hraises
  · rw [heq]
    exact .resumed (Dict.mem_entries_iff.mp hmem)

/-! ### Delivery -/

theorem ledger_issueDelivery {message : Message} (env : DeliveryEnv) (m : Member)
    (here : message.partition = p) :
    (∃ raised, decodeEvent engine.parseEvent message m.state.command.stream = .error raised ∧
      (engine.issueDelivery m message env).2.ledger p =
        (m.ledger p).note (.rejected message.offset)) ∨
    ∃ event, decodeEvent engine.parseEvent message m.state.command.stream = .ok event ∧
      (engine.issueDelivery m message env).2.ledger p =
        (m.ledger p).issue message.offset event m.state.assignmentEpoch
          (env.nowMs + m.state.command.subscription.acknowledgementTimeoutMs) := by
  unfold issueDelivery
  dsimp only
  cases hdec : decodeEvent engine.parseEvent message m.state.command.stream with
  | error raised =>
    refine Or.inl ⟨raised, rfl, ?_⟩
    rw [Member.ledger_note, if_pos here]
  | ok event =>
    refine Or.inr ⟨event, rfl, ?_⟩
    rw [Member.ledger_issue, if_pos here]

/-- A record of another partition leaves the ledger alone. -/
theorem ledger_receive_of_ne {message : Message} (env : DeliveryEnv)
    (h : message.partition ≠ p) :
    (engine.receive m (.record message) env).2.ledger p = m.ledger p := by
  -- what a delivery writes, it writes on the partition of its record
  have hissue : ∀ m' : Member, (engine.issueDelivery m' message env).2.ledger p = m'.ledger p := by
    intro m'
    unfold issueDelivery
    dsimp only
    split
    · rw [Member.ledger_note, if_neg h]
    · rw [Member.ledger_issue, if_neg h]
  have hnote : (m.note message.partition (.returned message.offset)).ledger p = m.ledger p := by
    rw [Member.ledger_note, if_neg h]
  unfold receive delivery
  dsimp only
  split
  · exact hnote
  split
  · rw [hissue, hnote]
  split
  · split
    · exact hnote
    · rw [Member.ledger_note, if_neg h, hnote]
  · rw [hissue, Member.ledger_deletePaused, if_neg h, hnote]

theorem receive_step {message : Message} (env : DeliveryEnv) (may : MayReturn log m message) :
    PartitionStep engine log m p (.receive (.record message) env)
      ((engine.receive m (.record message) env).2.ledger p) := by
  by_cases here : message.partition = p
  swap
  · rw [engine.ledger_receive_of_ne env here]
    exact .idle _
  have hnote : (m.note message.partition (.returned message.offset)).ledger p =
      (m.ledger p).note (.returned message.offset) := by
    rw [Member.ledger_note, if_pos here]
  -- The record is decoded: from the member `m'` in which its pause is over.
  have hissue : ∀ m' : Member, m'.state.command = m.state.command →
      m'.state.assignmentEpoch = m.state.assignmentEpoch →
      m'.ledger p = ((m.ledger p).note (.returned message.offset)).unpause message.offset →
      PartitionStep engine log m p (.receive (.record message) env)
        ((engine.issueDelivery m' message env).2.ledger p) := by
    intro m' hcommand hepoch hm'
    rcases engine.ledger_issueDelivery env m' here with ⟨raised, hdec, heq⟩ | ⟨event, hdec, heq⟩
    · rw [heq, hm']
      rw [hcommand] at hdec
      exact .rejected may here hdec
    · rw [heq, hm', hepoch]
      rw [hcommand] at hdec
      exact .delivered may here hdec
  have htopic : ¬message.topic ≠ (m.note message.partition
      (.returned message.offset)).state.command.stream.topic := not_not.mpr may.topic
  unfold receive delivery
  dsimp only
  rw [if_neg htopic]
  have hpaused : (m.note message.partition (.returned message.offset)).state.paused.get?
      message.partition = (m.ledger p).paused := by
    rw [here]
    rfl
  rw [hpaused]
  split
  · next hnone =>
    refine hissue _ rfl rfl ?_
    rw [hnote, Ledger.unpause, if_neg]
    rw [Option.filter_eq_none_iff] at hnone
    change ¬((m.ledger p).paused.any _) = true
    cases hp : (m.ledger p).paused with
    | none => simp
    | some paused => simpa using hnone paused hp
  · next paused hsome =>
    obtain ⟨hwait, hat⟩ := Option.filter_eq_some_iff.mp hsome
    have hat : paused.offset = message.offset := by simpa using hat
    split
    · split
      · rw [hnote]
        exact .stuck may here hwait hat
      · rw [Member.ledger_note, if_pos here, hnote]
        exact .heldBack may here hwait hat
    · refine hissue _ rfl rfl ?_
      rw [Member.ledger_deletePaused, if_pos here, hnote, Ledger.unpause, if_pos]
      simp [Ledger.note, hwait, hat]

/-! ### Acknowledgement -/

/-- An acknowledgement whose token is refused changes nothing. -/
theorem acknowledgeDelivery_of_guard {command : AcknowledgeCommand Token}
    {c : DeliveryCoordinates} {transaction : Option KafkaTransactionBridge} {env : AcknowledgeEnv}
    {failure : Failure} (h : acknowledgeGuard m c = some failure) :
    acknowledgeDelivery m command c transaction env =
      (.error (.failure failure), m, transaction) := by
  unfold acknowledgeDelivery
  rw [h]

theorem completeAcknowledge_member (command : AcknowledgeCommand Token)
    (c : DeliveryCoordinates) (committed : Bool) (transaction : Option KafkaTransactionBridge)
    (env : AcknowledgeEnv) (m : Member) :
    (completeAcknowledge m command c committed transaction env).2.1 =
      m.settle c.partition c.offset transaction.isSome := by
  unfold completeAcknowledge
  dsimp only
  cases env.emit <;> rfl

/-- What moving the group answers when it returns. -/
theorem moveGroup_ok {command : AcknowledgeCommand Token} {partition safe : ℕ}
    {transaction transaction' : Option KafkaTransactionBridge} {env : AcknowledgeEnv}
    {moved : Occurrence}
    (h : moveGroup command partition safe transaction env = (.ok moved, transaction')) :
    transaction'.isSome = transaction.isSome ∧
      moved = if transaction.isSome then .staged safe else .commit safe := by
  unfold moveGroup at h
  cases transaction with
  | none =>
    dsimp only at h
    split at h
    · simp at h
    · rw [Prod.mk.injEq, Except.ok.injEq] at h
      obtain ⟨rfl, rfl⟩ := h
      exact ⟨rfl, rfl⟩
  | some bridge =>
    dsimp only at h
    split at h
    · simp at h
    · rw [Prod.mk.injEq, Except.ok.injEq] at h
      obtain ⟨rfl, rfl⟩ := h
      exact ⟨rfl, rfl⟩

theorem acknowledgeDelivery_step (command : AcknowledgeCommand Token) {c : DeliveryCoordinates}
    (transaction : Option KafkaTransactionBridge) (env : AcknowledgeEnv)
    (accepted : acknowledgeGuard m c = none) (here : c.partition = p) :
    (m.ledger p).AcknowledgeStep c.offset transaction.isSome
      (MoveFails m command c transaction env)
      ((acknowledgeDelivery m command c transaction env).2.1.ledger p) := by
  subst here
  have hcollect : (m.collect c.partition c.offset).ledger c.partition =
      (m.ledger c.partition).collect c.offset := by
    rw [Member.ledger_collect, if_pos rfl]
  unfold acknowledgeDelivery
  rw [accepted]
  dsimp only
  -- The group is moved only when the collected offsets reach beyond its safe one.
  split
  · next hadv =>
    rcases hmove : moveGroup command c.partition (m.contiguous c.partition c.offset).1
      transaction env with ⟨raised | moved, transaction'⟩
    · dsimp only
      rw [hcollect]
      exact .failed hadv ⟨raised, by rw [hmove]⟩
    · obtain ⟨hsome, rfl⟩ := moveGroup_ok hmove
      dsimp only
      rw [completeAcknowledge_member, hsome, Member.ledger_settle, if_pos rfl,
        Member.ledger_setSafe, if_pos rfl, Member.ledger_note, if_pos rfl, hcollect]
      refine .moved hadv ?_
      rintro ⟨raised, hraised⟩
      rw [hmove] at hraised
      simp at hraised
  · next hadv =>
    rw [completeAcknowledge_member, Member.ledger_settle, if_pos rfl, hcollect]
    exact .collected (not_lt.mp hadv)

/-- An acknowledgement leaves the ledgers of the other partitions alone. -/
theorem ledger_acknowledgeDelivery_of_ne (command : AcknowledgeCommand Token)
    {c : DeliveryCoordinates} (transaction : Option KafkaTransactionBridge)
    (env : AcknowledgeEnv) (h : c.partition ≠ p) :
    (acknowledgeDelivery m command c transaction env).2.1.ledger p = m.ledger p := by
  have hcollect : (m.collect c.partition c.offset).ledger p = m.ledger p := by
    rw [Member.ledger_collect, if_neg h]
  unfold acknowledgeDelivery
  split
  · rfl
  dsimp only
  split
  · split
    · exact hcollect
    · rw [completeAcknowledge_member, Member.ledger_settle, if_neg h, Member.ledger_setSafe,
        if_neg h, Member.ledger_note, if_neg h, hcollect]
  · rw [completeAcknowledge_member, Member.ledger_settle, if_neg h, hcollect]

/-- The two ways an acknowledgement can go for a partition. -/
theorem acknowledge_cases (command : AcknowledgeCommand Token)
    (transaction : Option KafkaTransactionBridge) (env : AcknowledgeEnv) (p : ℕ) :
    (engine.acknowledge m command transaction env).2.1.ledger p = m.ledger p ∨
      ∃ c, engine.ValidToken m command env.nowMs c ∧ c.partition = p ∧
        (m.ledger p).AcknowledgeStep c.offset transaction.isSome
          (MoveFails m command c transaction env)
          ((engine.acknowledge m command transaction env).2.1.ledger p) := by
  unfold acknowledge
  cases hdec : engine.cursor.decodeDelivery env.nowMs command.delivery command.subscription.ref
    command.consumerGroup.ref command.stream.topic with
  | error failure => exact Or.inl rfl
  | ok c =>
    dsimp only
    cases hguard : acknowledgeGuard m c with
    | some failure =>
      rw [acknowledgeDelivery_of_guard hguard]
      exact Or.inl rfl
    | none =>
      by_cases here : c.partition = p
      · exact Or.inr ⟨c, ⟨hdec, hguard⟩, here, acknowledgeDelivery_step _ _ _ hguard here⟩
      · exact Or.inl (ledger_acknowledgeDelivery_of_ne command transaction env here)

theorem acknowledge_step (command : AcknowledgeCommand Token)
    (transaction : Option KafkaTransactionBridge) (env : AcknowledgeEnv) :
    PartitionStep engine log m p (.acknowledge command transaction env)
      ((engine.acknowledge m command transaction env).2.1.ledger p) := by
  rcases engine.acknowledge_cases command transaction env p with heq | ⟨c, hvalid, here, hstep⟩
  · rw [heq]
    exact .idle _
  · exact .acknowledged hvalid here hstep

/-- With a valid token, `acknowledge` goes on with its coordinates. -/
theorem ValidToken.acknowledge_eq {command : AcknowledgeCommand Token} {c : DeliveryCoordinates}
    {transaction : Option KafkaTransactionBridge} {env : AcknowledgeEnv}
    (h : engine.ValidToken m command env.nowMs c) :
    engine.acknowledge m command transaction env =
      acknowledgeDelivery m command c transaction env := by
  unfold acknowledge
  rw [h.decodes]

/-- A valid token names a delivery in flight, of the current epoch. -/
theorem ValidToken.inflight {command : AcknowledgeCommand Token} {nowMs : ℕ}
    {c : DeliveryCoordinates} (h : engine.ValidToken m command nowMs c) :
    ∃ inflight, (m.ledger c.partition).inflight c.offset = some inflight ∧
      inflight.attempt = c.attempt ∧ inflight.assignmentEpoch = m.state.assignmentEpoch := by
  have haccepted := h.accepted
  unfold acknowledgeGuard at haccepted
  split at haccepted
  · simp at haccepted
  split at haccepted
  · next hany =>
    obtain ⟨inflight, hget, hmatch⟩ := (Option.any_eq_true _ _).mp hany
    rw [Bool.and_eq_true, decide_eq_true_eq, decide_eq_true_eq] at hmatch
    exact ⟨inflight, hget, hmatch.2, hmatch.1⟩
  · simp at haccepted

/-- A call whose token is not valid is refused, and changes nothing. -/
theorem acknowledge_of_invalid (command : AcknowledgeCommand Token)
    (transaction : Option KafkaTransactionBridge) (env : AcknowledgeEnv)
    (h : ∀ c, ¬engine.ValidToken m command env.nowMs c) :
    ∃ raised, engine.acknowledge m command transaction env =
      (.error raised, m, transaction) := by
  unfold acknowledge
  cases hdec : engine.cursor.decodeDelivery env.nowMs command.delivery command.subscription.ref
    command.consumerGroup.ref command.stream.topic with
  | error failure => exact ⟨_, rfl⟩
  | ok c =>
    dsimp only
    cases hguard : acknowledgeGuard m c with
    | some failure => exact ⟨_, acknowledgeDelivery_of_guard hguard⟩
    | none => exact absurd ⟨hdec, hguard⟩ (h c)

/-- An acknowledgement stages its offset on the bridge exactly when the safe offset
advances. -/
theorem ValidToken.transaction_eq {command : AcknowledgeCommand Token} {c : DeliveryCoordinates}
    {bridge : KafkaTransactionBridge} {env : AcknowledgeEnv}
    (h : engine.ValidToken m command env.nowMs c) :
    (engine.acknowledge m command (some bridge) env).2.2 = some
      (if m.original c.partition c.offset < (m.contiguous c.partition c.offset).1 then
        (bridge.stageOffset command.consumerGroup.ref.str env.consumerGroupMetadata
          command.stream.topic c.partition (m.contiguous c.partition c.offset).1).2
      else bridge) := by
  have hcomplete : ∀ (m : Member) (committed : Bool) (bridge : KafkaTransactionBridge),
      (completeAcknowledge m command c committed (some bridge) env).2.2 = some bridge := by
    intro m committed bridge
    unfold completeAcknowledge
    dsimp only
    cases env.emit <;> rfl
  rw [h.acknowledge_eq]
  unfold acknowledgeDelivery
  rw [h.accepted]
  dsimp only
  -- The offset is staged when the safe offset moves past the original one.
  split
  · unfold moveGroup
    dsimp only
    rcases bridge.stageOffset command.consumerGroup.ref.str env.consumerGroupMetadata
      command.stream.topic c.partition (m.contiguous c.partition c.offset).1 with ⟨_ | _, bridge'⟩
    · rfl
    · exact hcomplete ..
  · exact hcomplete ..

/-- Without a transaction, an acknowledgement leaves none. -/
theorem acknowledge_none (command : AcknowledgeCommand Token) (env : AcknowledgeEnv) :
    (engine.acknowledge m command none env).2.2 = none := by
  -- what completes an acknowledgement makes no transaction of none
  have hcomplete : ∀ (m : Member) (c : DeliveryCoordinates) (committed : Bool),
      (completeAcknowledge m command c committed none env).2.2 = none := by
    intro m c committed
    unfold completeAcknowledge
    dsimp only
    cases env.emit <;> rfl
  unfold acknowledge
  split
  · rfl
  unfold acknowledgeDelivery
  split
  · rfl
  dsimp only
  split
  · unfold moveGroup
    dsimp only
    cases env.commit with
    | some raised => rfl
    | none => exact hcomplete ..
  · exact hcomplete ..

/-- Moving the group in a transaction fails when staging does. -/
theorem moveFails_some {command : AcknowledgeCommand Token} {c : DeliveryCoordinates}
    {bridge : KafkaTransactionBridge} {env : AcknowledgeEnv} :
    MoveFails m command c (some bridge) env ↔
      ∃ raised, (bridge.stageOffset command.consumerGroup.ref.str env.consumerGroupMetadata
        command.stream.topic c.partition (m.contiguous c.partition c.offset).1).1 =
          .error raised := by
  unfold MoveFails moveGroup
  dsimp only
  rcases bridge.stageOffset command.consumerGroup.ref.str env.consumerGroupMetadata
    command.stream.topic c.partition (m.contiguous c.partition c.offset).1 with ⟨raised | _, bridge'⟩
  · simp
  · simp

/-- A delivery that goes back was in flight. -/
theorem GoesBack.inflight {command : NegativeAcknowledgeCommand Token} {nowMs : ℕ}
    {c : DeliveryCoordinates} (h : engine.GoesBack m command nowMs c) :
    ∃ inflight, (m.ledger c.partition).inflight c.offset = some inflight ∧
      inflight.attempt = c.attempt := by
  obtain ⟨inflight, haccepted⟩ := h.accepted
  unfold negativeAcknowledgeGuard at haccepted
  split at haccepted
  · simp at haccepted
  split at haccepted
  · next found hfound =>
    obtain ⟨hget, hattempt⟩ := Option.filter_eq_some_iff.mp hfound
    exact ⟨found, hget, by simpa using hattempt⟩
  · simp at haccepted

/-! ### Negative acknowledgement -/

/-- The dead-letter branch changes the books only through its acknowledgement. -/
theorem deadLetter_cases (command : NegativeAcknowledgeCommand Token) (c : DeliveryCoordinates)
    (inflight : Inflight) (ref : ResourceRef) (env : NegativeAcknowledgeEnv) :
    (engine.deadLetter m command c inflight ref env).2 = m ∨
      (engine.deadLetter m command c inflight ref env).2 =
        (engine.acknowledge m command.toAcknowledgeCommand none env.acknowledge).2.1 := by
  unfold deadLetter
  split
  · exact Or.inl rfl
  split
  · exact Or.inl rfl
  refine Or.inr ?_
  rcases engine.acknowledge m command.toAcknowledgeCommand none env.acknowledge with
    ⟨_ | _, m', transaction⟩
  · rfl
  · cases env.emit <;> rfl

/-- The redelivery branch, by the outcomes of its two client calls. -/
theorem scheduleRedelivery_cases (command : NegativeAcknowledgeCommand Token)
    (c : DeliveryCoordinates) (env : NegativeAcknowledgeEnv) :
    (env.seek.isSome ∧
      (scheduleRedelivery m command c env).2 = m.dropInflight c.partition c.offset) ∨
    (env.seek = none ∧ (command.retryAfterMs = 0 ∨ env.pause.isSome) ∧
      (scheduleRedelivery m command c env).2 =
        (m.dropInflight c.partition c.offset).note c.partition (.seek c.offset)) ∨
    (env.seek = none ∧ ¬(command.retryAfterMs = 0 ∨ env.pause.isSome) ∧
      (scheduleRedelivery m command c env).2 =
        (((m.dropInflight c.partition c.offset).note c.partition (.seek c.offset)).note
          c.partition .pause).setPaused c.partition
            ⟨c.offset, env.monotonicNs + command.retryAfterMs * 1000000⟩) := by
  unfold scheduleRedelivery
  -- The entry is gone before `seek` is called; the seek stands although `pause` raises.
  cases hseek : env.seek with
  | some raised => exact Or.inl ⟨rfl, rfl⟩
  | none =>
    dsimp only
    refine Or.inr ?_
    by_cases hretry : command.retryAfterMs > 0
    · rw [if_pos hretry]
      cases hpause : env.pause with
      | some raised => exact Or.inl ⟨rfl, Or.inr rfl, rfl⟩
      | none =>
        refine Or.inr ⟨rfl, ?_, ?_⟩
        · rintro (h | h)
          · omega
          · simp at h
        · cases env.emit <;> rfl
    · rw [if_neg hretry]
      refine Or.inl ⟨rfl, Or.inl (by omega), ?_⟩
      cases env.emit <;> rfl

theorem negativeAcknowledge_step (command : NegativeAcknowledgeCommand Token)
    (env : NegativeAcknowledgeEnv) :
    PartitionStep engine log m p (.negativeAcknowledge command env)
      ((engine.negativeAcknowledge m command env).2.ledger p) := by
  unfold negativeAcknowledge
  cases hdec : engine.cursor.decodeDelivery env.nowMs command.delivery command.subscription.ref
    command.consumerGroup.ref command.stream.topic with
  | error failure => exact .idle _
  | ok c =>
    dsimp only
    unfold negativeAcknowledgeDelivery
    cases hguard : negativeAcknowledgeGuard m c with
    | error failure => exact .idle _
    | ok inflight =>
      dsimp only
      cases hdead : deadLetterStream command c with
      -- The record is due for the dead-letter Stream: it is acknowledged there, if at all.
      | some ref =>
        dsimp only
        rcases engine.deadLetter_cases command c inflight ref env with heq | heq
        · rw [heq]
          exact .idle _
        · rw [heq]
          rcases engine.acknowledge_cases command.toAcknowledgeCommand none env.acknowledge p with
            hkept | ⟨c', hvalid, here, hstep⟩
          · rw [hkept]
            exact .idle _
          · exact .deadLettered hvalid here hstep
      | none =>
        dsimp only
        -- The record goes back. Only the partition of the delivery is another one afterwards.
        have hback : engine.GoesBack m command env.nowMs c := ⟨hdec, ⟨inflight, hguard⟩, hdead⟩
        by_cases here : c.partition = p
        · have hdrop : (m.dropInflight c.partition c.offset).ledger p =
              (m.ledger p).dropInflight c.offset := by
            rw [Member.ledger_dropInflight, if_pos here]
          rcases scheduleRedelivery_cases command c env with
            ⟨hseek, heq⟩ | ⟨hseek, hpause, heq⟩ | ⟨hseek, hpause, heq⟩ <;> rw [heq]
          · rw [hdrop]
            exact .dropped hback here hseek
          · rw [Member.ledger_note, if_pos here, hdrop]
            exact .sought hback here hseek hpause
          · rw [Member.ledger_setPaused, if_pos here, Member.ledger_note, if_pos here,
              Member.ledger_note, if_pos here, hdrop]
            exact .pausedAt hback here hseek hpause
        · have hkept : (scheduleRedelivery m command c env).2.ledger p = m.ledger p := by
            rcases scheduleRedelivery_cases command c env with
              ⟨-, heq⟩ | ⟨-, -, heq⟩ | ⟨-, -, heq⟩ <;> rw [heq]
            · rw [Member.ledger_dropInflight, if_neg here]
            · rw [Member.ledger_note, if_neg here, Member.ledger_dropInflight, if_neg here]
            · rw [Member.ledger_setPaused, if_neg here, Member.ledger_note, if_neg here,
                Member.ledger_note, if_neg here, Member.ledger_dropInflight, if_neg here]
          rw [hkept]
          exact .idle _

/-! ### Group position -/

/-- `group_position` either leaves the member or moves it to a target. -/
theorem groupPosition_member (command : GroupPositionCommand Token) (env : GroupPositionEnv) :
    (engine.groupPosition m command env).2 = m ∨
      ∃ target, (engine.groupPosition m command env).2 = m.reposition target := by
  unfold groupPosition
  split
  · exact Or.inl rfl
  · next before target _ =>
    split
    · exact Or.inl rfl
    refine Or.inr ⟨target, ?_⟩
    dsimp only
    split
    · rfl
    · cases env.emit <;> rfl

theorem groupPosition_step (command : GroupPositionCommand Token) (env : GroupPositionEnv) :
    PartitionStep engine log m p (.groupPosition command env)
      ((engine.groupPosition m command env).2.ledger p) := by
  rcases engine.groupPosition_member command env with heq | ⟨target, heq⟩ <;> rw [heq]
  · exact .idle _
  · rw [Member.ledger_reposition]
    exact .repositioned (target.get? p)

/-! ### The fields that are not books -/

/-- A field that is none of the books of the partitions. -/
def IgnoresBooks {α : Type} (f : GroupState → α) : Prop :=
  ∀ (s : GroupState) inflight attempts acknowledged safeNext paused,
    f { s with inflight, attempts, acknowledged, safeNext, paused } = f s

theorem command_ignoresBooks : IgnoresBooks GroupState.command := fun _ _ _ _ _ _ => rfl

theorem assignmentEpoch_ignoresBooks : IgnoresBooks GroupState.assignmentEpoch :=
  fun _ _ _ _ _ _ => rfl

section Keeps

variable {α : Type} {f : GroupState → α} (hf : IgnoresBooks f)
include hf

theorem completeAcknowledge_keeps (m : Member) (command : AcknowledgeCommand Token)
    (c : DeliveryCoordinates) (committed : Bool) (transaction : Option KafkaTransactionBridge)
    (env : AcknowledgeEnv) :
    f (completeAcknowledge m command c committed transaction env).2.1.state = f m.state := by
  rw [completeAcknowledge_member]
  exact hf ..

theorem acknowledge_keeps (command : AcknowledgeCommand Token)
    (transaction : Option KafkaTransactionBridge) (env : AcknowledgeEnv) :
    f (engine.acknowledge m command transaction env).2.1.state = f m.state := by
  unfold acknowledge
  split
  · rfl
  next c _ =>
  have hcollect : f (m.collect c.partition c.offset).state = f m.state := hf ..
  unfold acknowledgeDelivery
  split
  · rfl
  dsimp only
  split
  · split
    · exact hcollect
    · rw [completeAcknowledge_keeps hf]
      exact (hf ..).trans hcollect
  · rw [completeAcknowledge_keeps hf]
    exact hcollect

theorem rewindLoop_keeps (env : ExpireEnv) (l : List (ℕ × ℕ)) (m : Member) :
    f (rewindLoop env l m).2.state = f m.state := by
  induction l generalizing m with
  | nil => rfl
  | cons e rest ih =>
    rw [rewindLoop]
    split
    · rfl
    · rw [ih]
      exact hf ..

theorem resumeLoop_keeps (env : ResumeEnv) (l : List (ℕ × PausedDelivery)) (m : Member) :
    f (resumeLoop env l m).2.state = f m.state := by
  induction l generalizing m with
  | nil => rfl
  | cons e rest ih =>
    rw [resumeLoop]
    split
    · exact ih _
    split
    · rfl
    dsimp only
    split
    · rfl
    · rw [ih]
      exact hf ..

theorem receive_keeps (response : PollResponse) (env : DeliveryEnv) :
    f (engine.receive m response env).2.state = f m.state := by
  -- A record that is handed out or rejected changes the books only.
  have hissue : ∀ (m' : Member) (message : Message),
      f (engine.issueDelivery m' message env).2.state = f m'.state := by
    intro m' message
    unfold issueDelivery
    dsimp only
    split
    · rfl
    · exact hf ..
  unfold receive
  cases response with
  | record message =>
    dsimp only
    unfold delivery
    split
    · rfl
    split
    · exact hissue _ _
    split
    · split <;> rfl
    · exact (hissue _ _).trans (hf ..)
  | raised raised => rfl
  | none => rfl
  | error error =>
    dsimp only
    split <;> rfl

theorem negativeAcknowledge_keeps (command : NegativeAcknowledgeCommand Token)
    (env : NegativeAcknowledgeEnv) :
    f (engine.negativeAcknowledge m command env).2.state = f m.state := by
  unfold negativeAcknowledge
  split
  · rfl
  next c _ =>
  unfold negativeAcknowledgeDelivery
  split
  · rfl
  next inflight _ =>
  split
  · next ref _ =>
    rcases engine.deadLetter_cases command c inflight ref env with heq | heq <;> rw [heq]
    exact engine.acknowledge_keeps hf _ _ _
  · rcases scheduleRedelivery_cases command c env with
      ⟨-, heq⟩ | ⟨-, -, heq⟩ | ⟨-, -, heq⟩ <;> rw [heq] <;> exact hf m.state _ _ _ _ _

/-- Within an assignment, an operation changes nothing but the books. -/
theorem next_keeps {a : Action Token} (h : a.KeepsAssignment) :
    f (engine.next m a).state = f m.state := by
  cases a with
  | expireInflight env =>
    -- what comes after the loop changes no state
    have hloop := rewindLoop_keeps hf env (Dict.groupMin (expired m env.nowMs)).entries m
    change f (expireInflight m env).2.state = _
    unfold expireInflight
    dsimp only
    split
    · rfl
    rcases hl : rewindLoop env (Dict.groupMin (expired m env.nowMs)).entries m with
      ⟨_ | ⟨⟨⟩⟩, m'⟩ <;> rw [hl] at hloop
    · exact hloop
    · cases env.emit <;> exact hloop
  | resumeDue env => exact resumeLoop_keeps hf env _ m
  | receive response env => exact engine.receive_keeps hf response env
  | acknowledge command transaction env => exact engine.acknowledge_keeps hf command transaction env
  | negativeAcknowledge command env => exact engine.negativeAcknowledge_keeps hf command env
  | assigned partitions => exact h.elim
  | revoked partitions => exact h.elim
  | groupPosition command env => exact h.elim

end Keeps

/-- No operation changes the command that the member polls for. -/
theorem next_command (a : Action Token) :
    (engine.next m a).state.command = m.state.command := by
  by_cases h : a.KeepsAssignment
  · exact engine.next_keeps command_ignoresBooks h
  cases a with
  | assigned partitions => rfl
  | revoked partitions => rfl
  | groupPosition command env =>
    change (engine.groupPosition m command env).2.state.command = _
    rcases engine.groupPosition_member command env with heq | ⟨target, heq⟩ <;> rw [heq]
    rfl
  | _ => exact absurd trivial h

/-- The epoch of the assignment never goes back. -/
theorem le_next_assignmentEpoch (a : Action Token) :
    m.state.assignmentEpoch ≤ (engine.next m a).state.assignmentEpoch := by
  by_cases h : a.KeepsAssignment
  · exact (engine.next_keeps assignmentEpoch_ignoresBooks h).ge
  cases a with
  | assigned partitions => exact Nat.le_succ _
  | revoked partitions => exact Nat.le_succ _
  | groupPosition command env =>
    change _ ≤ (engine.groupPosition m command env).2.state.assignmentEpoch
    rcases engine.groupPosition_member command env with heq | ⟨target, heq⟩ <;> rw [heq]
    exact Nat.le_succ _
  | _ => exact absurd trivial h

/-! ### The step lemma -/

/-- **What one operation can do to one partition** is one of the cases of
`PartitionStep`. -/
theorem next_step {a : Action Token} (allowed : a.Allowed log m) :
    PartitionStep engine log m p a ((engine.next m a).ledger p) := by
  cases a with
  | expireInflight env => exact engine.expireInflight_step log env
  | resumeDue env => exact engine.resumeDue_step log env
  | receive response env =>
    cases response with
    | record message => exact engine.receive_step log env allowed
    | raised raised => exact .idle _
    | none => exact .idle _
    | error error =>
      -- An error that ends a partition is no record, and every other one is raised.
      have hkept : (engine.receive m (.error error) env).2 = m := by
        unfold receive
        dsimp only
        split <;> rfl
      change PartitionStep engine log m p _ ((engine.receive m (.error error) env).2.ledger p)
      rw [hkept]
      exact .idle _
  | acknowledge command transaction env => exact engine.acknowledge_step log command transaction env
  | negativeAcknowledge command env => exact engine.negativeAcknowledge_step log command env
  | assigned partitions => exact .idle _
  | revoked partitions =>
    change PartitionStep engine log m p _ ((m.revoked partitions).ledger p)
    rw [Member.ledger_revoked]
    split
    · next here => exact .revoked here
    · exact .idle _
  | groupPosition command env => exact engine.groupPosition_step log command env

/-! ### Runs within an assignment -/

/-- A run within one assignment of the partition `p`, of which the member has no
books when it starts: the client obeys the log, and there is neither a rebalance
nor a `group_position` nor a transaction. -/
structure AssignmentRun (start : Member) (p : ℕ) (run : List (Action Token)) : Prop where
  fresh : start.ledger p = .empty
  legal : (engine.machine log).Legal start run
  within : ∀ a ∈ run, a.WithinAssignment

/-- The ledger of a partition after a run. -/
def ledgerAfter (start : Member) (p : ℕ) (run : List (Action Token)) : Ledger :=
  ((engine.machine log).play start run).ledger p

variable {engine log}

/-- **The invariant rule of an assignment**, with the steps so far. -/
theorem AssignmentRun.trace_induction {start : Member} {run : List (Action Token)}
    (h : engine.AssignmentRun log start p run)
    {I : List (Member × Action Token) → Ledger → Prop} (empty : I [] .empty)
    (keeps : ∀ tr m a L', (engine.next m a).ledger p = L' → PartitionStep engine log m p a L' →
      a.WithinAssignment → m.state.command = start.state.command → I tr (m.ledger p) →
      I (tr ++ [(m, a)]) L') :
    I ((engine.machine log).steps start run) (engine.ledgerAfter log start p run) := by
  refine (Machine.trace_induction (I := fun tr m => (∀ x ∈ tr, x.2.WithinAssignment) →
    m.state.command = start.state.command ∧ I tr (m.ledger p)) ?_
    (fun _ => ⟨rfl, h.fresh ▸ empty⟩) h.legal
    fun x hx => h.within _ (Machine.mem_of_mem_steps hx)).2
  intro tr m a hI hallowed hall
  rw [List.forall_mem_append, List.forall_mem_singleton] at hall
  obtain ⟨hcommand, hI⟩ := hI hall.1
  exact ⟨(engine.next_command a).trans hcommand,
    keeps tr m a _ rfl (engine.next_step log hallowed) hall.2 hcommand hI⟩

/-- The invariant rule of an assignment for an invariant of the ledger alone, with a
condition that every step of the run meets. -/
theorem AssignmentRun.induction {start : Member} {run : List (Action Token)}
    (h : engine.AssignmentRun log start p run) {I : Ledger → Prop}
    {C : Member → Action Token → Prop}
    (meets : ∀ x ∈ (engine.machine log).steps start run, C x.1 x.2) (empty : I .empty)
    (keeps : ∀ m a L', PartitionStep engine log m p a L' → a.WithinAssignment →
      m.state.command = start.state.command → C m a → I (m.ledger p) → I L') :
    I (engine.ledgerAfter log start p run) := by
  refine h.trace_induction (I := fun tr L => (∀ x ∈ tr, C x.1 x.2) → I L) (fun _ => empty) ?_ meets
  intro tr m a L' _ step within command hI hall
  rw [List.forall_mem_append, List.forall_mem_singleton] at hall
  exact keeps m a L' step within command hall.2 (hI hall.1)

end KafkaConsumerEngine

end MeridianKafka
