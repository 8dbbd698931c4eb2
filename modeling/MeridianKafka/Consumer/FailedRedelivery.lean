import MeridianKafka.Consumer.Step

/-!
# A failed negative acknowledgement

A negative acknowledgement that sends its delivery back takes it out of the flight first
and asks the client to seek and to pause after that. When one of the two raises, the caller
holds a token that no longer resolves anything, so the record has to come again by itself:
the client must read on at its offset or below.

A seek that returned has put it there, whatever the pause does afterwards. A seek that
raised leaves the client where it was, which is behind the record unless an earlier seek
has sent it back and it has not come to the record again (`failed_negativeAcknowledge_iff`).
The engine's own expiry asks the client to seek first and forgets the deliveries after that.

Where the client reads on is not a book of the engine, and a rebalance puts it anywhere. A
`Reading` is a member together with that place for each partition: an assignment sets it
to where the group starts, and from then on it follows the records and the seeks.
-/

namespace MeridianKafka

open Framework

/-- A group member, and where its client reads each partition on. -/
structure Reading where
  member : Member
  position : ℕ → ℕ

/-- An operation, and where the client starts the partitions that it is assigned. -/
structure ReadingCall (Token : Type) where
  action : Action Token
  origin : ℕ → ℕ := fun _ => 0

/-- The partitions that an `on_assign` callback hands to the client. -/
def Action.handed {Token : Type} : Action Token → List ℕ
  | .assigned partitions => partitions
  | _ => []

namespace Reading

/-- Where the client has been sent between two states of a member, if anywhere. -/
def sentTo (before after : Member) (p : ℕ) : Option ℕ :=
  fetchPosition (historyOf
    (after.history.take (after.history.length - before.history.length)) p)

/-- The client may return this record: it is the first one where it reads on. -/
structure MayReturn (log : PartitionLog) (r : Reading) (message : Message) : Prop where
  visible : log message.partition message.offset = some message
  topic : message.topic = r.member.state.command.stream.topic
  le : r.position message.partition ≤ message.offset
  next : ∀ k < message.offset, r.position message.partition ≤ k → log message.partition k = none

instance (log : PartitionLog) (r : Reading) (message : Message) :
    Decidable (r.MayReturn log message) :=
  decidable_of_iff
    (log message.partition message.offset = some message ∧
      message.topic = r.member.state.command.stream.topic ∧
      r.position message.partition ≤ message.offset ∧
      ∀ k < message.offset, r.position message.partition ≤ k → log message.partition k = none)
    ⟨fun h => ⟨h.1, h.2.1, h.2.2.1, h.2.2.2⟩, fun h => ⟨h.visible, h.topic, h.le, h.next⟩⟩

/-- What the environment may do. -/
def Allowed {Token : Type} (log : PartitionLog) (r : Reading) (call : ReadingCall Token) : Prop :=
  ∀ message env, call.action = .receive (.record message) env → r.MayReturn log message

/-- The record is resolvable: by the token of its delivery, or because the client reads on
at its offset or below. -/
def Resolvable (r : Reading) (c : DeliveryCoordinates) : Prop :=
  (∃ inflight, r.member.state.inflight.get? (c.partition, c.offset) = some inflight ∧
    inflight.attempt = c.attempt) ∨
  r.position c.partition ≤ c.offset

/-- Consumption goes on at this offset or below: at the offset of a pending resume, or else
where the client reads on. -/
def ComesTo (r : Reading) (p offset : ℕ) : Prop :=
  match r.member.state.paused.get? p with
  | some paused => paused.offset ≤ offset
  | none => r.position p ≤ offset

end Reading

namespace KafkaConsumerEngine

variable {Token : Type} (engine : KafkaConsumerEngine Token)

/-- One group member with its client, over the log of its topic. -/
def readingMachine (log : PartitionLog) : Machine Reading (ReadingCall Token) where
  allowed := Reading.Allowed log
  next r call :=
    let member := engine.next r.member call.action
    { member
      position := fun p =>
        (Reading.sentTo r.member member p).getD
          (if p ∈ call.action.handed then call.origin p else r.position p) }

/-- The call sends its delivery back, and one of its two client calls raises. -/
structure FailedBack (m : Member) (command : NegativeAcknowledgeCommand Token)
    (env : NegativeAcknowledgeEnv) (c : DeliveryCoordinates) : Prop where
  back : engine.GoesBack m command env.nowMs c
  raises : env.seek.isSome = true ∨ 0 < command.retryAfterMs ∧ env.pause.isSome = true

variable {engine} {log : PartitionLog} {command : NegativeAcknowledgeCommand Token}
  {env : NegativeAcknowledgeEnv} {c : DeliveryCoordinates}

/-- The member after a call that sends its delivery back. -/
theorem GoesBack.negativeAcknowledge_eq {m : Member} (h : engine.GoesBack m command env.nowMs c) :
    engine.negativeAcknowledge m command env = scheduleRedelivery m command c env := by
  obtain ⟨inflight, haccepted⟩ := h.accepted
  unfold negativeAcknowledge
  rw [h.decodes]
  dsimp only
  unfold negativeAcknowledgeDelivery
  rw [haccepted, h.live]

/-- The member after a failed call: the delivery is gone from the books, and the client has
been sent back when it was the pause that raised. -/
theorem FailedBack.member {m : Member} (h : engine.FailedBack m command env c) :
    (engine.negativeAcknowledge m command env).2 =
      match env.seek with
      | some _ => m.dropInflight c.partition c.offset
      | none => (m.dropInflight c.partition c.offset).note c.partition (.seek c.offset) := by
  rw [h.back.negativeAcknowledge_eq]
  unfold scheduleRedelivery
  cases hseek : env.seek with
  | some raised => rfl
  | none =>
    -- The seek has returned, so it is the pause that raises.
    have hraises := h.raises
    rw [hseek] at hraises
    obtain ⟨hretry, hpause⟩ := hraises.resolve_left Bool.false_ne_true
    obtain ⟨raised, hpause⟩ := Option.isSome_iff_exists.mp hpause
    dsimp only
    rw [if_pos hretry, hpause]

/-- Where the client reads the partition on after a failed call. -/
theorem FailedBack.position {r : Reading} (h : engine.FailedBack r.member command env c)
    (origin : ℕ → ℕ) :
    ((engine.readingMachine log).next r ⟨.negativeAcknowledge command env, origin⟩).position
      c.partition = if env.seek.isSome then r.position c.partition else c.offset := by
  -- Nothing is handed over by the call, so only a seek can have moved the client.
  change (Reading.sentTo r.member (engine.negativeAcknowledge r.member command env).2
    c.partition).getD (if c.partition ∈ [] then _ else _) = _
  rw [h.member, if_neg List.not_mem_nil]
  unfold Reading.sentTo
  cases env.seek with
  | some raised =>
    dsimp only
    rw [show (r.member.dropInflight c.partition c.offset).history = r.member.history from rfl,
      Nat.sub_self, List.take_zero]
    rfl
  | none =>
    -- The seek is the one event that the call has added to the history.
    have hlength : ((r.member.dropInflight c.partition c.offset).note c.partition
        (.seek c.offset)).history.length - r.member.history.length = 1 := by
      change (_ :: r.member.history).length - _ = 1
      rw [List.length_cons, Nat.add_sub_cancel_left]
    dsimp only
    rw [hlength]
    change (fetchPosition (historyOf [(c.partition, .seek c.offset)] c.partition)).getD _ = _
    unfold historyOf
    simp [fetchPosition]

/-- A failed call leaves the pending resume of every partition as it is. -/
theorem FailedBack.paused {m : Member} (h : engine.FailedBack m command env c) (p : ℕ) :
    (engine.negativeAcknowledge m command env).2.state.paused.get? p = m.state.paused.get? p := by
  rw [h.member]
  cases env.seek with
  | some raised => rfl
  | none => rfl

/-- The token of a failed call resolves nothing any more. -/
theorem FailedBack.get?_inflight {m : Member} (h : engine.FailedBack m command env c) :
    (engine.negativeAcknowledge m command env).2.state.inflight.get? (c.partition, c.offset) =
      none := by
  rw [h.member]
  cases env.seek with
  | some raised => exact Dict.get?_erase_self ..
  | none => exact Dict.get?_erase_self ..

/-- **What a failed negative acknowledgement leaves.** In every reachable state, after a call
whose seek or pause raises the record is resolvable exactly when the seek has returned, or
the client was to read on at the record or below it anyway. It then comes again unless
another delivery of the partition is waiting to be resumed, at a higher offset. -/
theorem failed_negativeAcknowledge_iff (engine : KafkaConsumerEngine Token) (log : PartitionLog)
    (poll : PollCommand) (origin : ℕ → ℕ) (run : List (ReadingCall Token))
    (command : NegativeAcknowledgeCommand Token) (env : NegativeAcknowledgeEnv)
    (c : DeliveryCoordinates)
    (failed : engine.FailedBack
      ((engine.readingMachine log).play ⟨.create poll, origin⟩ run).member command env c) :
    let before := (engine.readingMachine log).play ⟨.create poll, origin⟩ run
    let after := (engine.readingMachine log).next before ⟨.negativeAcknowledge command env, origin⟩
    (after.Resolvable c ↔ env.seek = none ∨ before.position c.partition ≤ c.offset) ∧
      (after.Resolvable c → (after.ComesTo c.partition c.offset ↔
        ∀ paused ∈ before.member.state.paused.get? c.partition, paused.offset ≤ c.offset)) := by
  intro before after
  have hposition : after.position c.partition =
      if env.seek.isSome then before.position c.partition else c.offset :=
    failed.position origin
  -- The delivery is gone from the books, so that only the position can bring the record back.
  have hresolvable : after.Resolvable c ↔ after.position c.partition ≤ c.offset := by
    refine ⟨fun h => h.resolve_left ?_, Or.inr⟩
    rintro ⟨inflight, hget, -⟩
    rw [show after.member.state.inflight.get? (c.partition, c.offset) = none from
      failed.get?_inflight] at hget
    exact absurd hget (by simp)
  refine ⟨?_, fun h => ?_⟩
  · rw [hresolvable, hposition]
    cases env.seek with
    | some raised => simp
    | none => simp
  · have hpaused : after.member.state.paused.get? c.partition =
        before.member.state.paused.get? c.partition := failed.paused c.partition
    unfold Reading.ComesTo
    rw [hpaused]
    cases before.member.state.paused.get? c.partition with
    | some paused => simp
    | none => simpa using hresolvable.mp h

namespace FailedRedelivery

/-- Record 0 is delivered. -/
def run : List (ReadingCall TokenPayload) :=
  [⟨.assigned [0], fun _ => 0⟩, ⟨Sample.receive 0, fun _ => 0⟩]

/-- The delivery of record 0 is given back, for a retry after this time. -/
def giveBack (retryAfterMs : ℕ) : NegativeAcknowledgeCommand TokenPayload :=
  { Sample.acknowledgeCommand 0 1 1 with retryAfterMs, classification := none }

/-- The two client calls end like this. -/
def outcomes (seek pause : Option Raised) : NegativeAcknowledgeEnv where
  nowMs := 1
  monotonicNs := 0
  publish _ := .error .other
  acknowledge := { nowMs := 1 }
  seek
  pause

theorem goesBack (retryAfterMs : ℕ) (seek pause : Option Raised) :
    Sample.engine.GoesBack
      ((Sample.engine.readingMachine (Sample.log [0] [])).play
        ⟨.create Sample.command, fun _ => 0⟩ run).member
      (giveBack retryAfterMs) (outcomes seek pause).nowMs (Sample.coordinates 0 1 1) where
  decodes := Sample.decodeDelivery_token 0 1 1 le_rfl
  accepted := ⟨⟨Sample.event, 1, 1, 30000⟩, rfl⟩
  live := rfl

end FailedRedelivery

open FailedRedelivery in
/-- The pause raises, with no other delivery to be resumed. -/
theorem failed_pause_leaves_record :
    let before := (Sample.engine.readingMachine (Sample.log [0] [])).play
      ⟨.create Sample.command, fun _ => 0⟩ run
    let after := (Sample.engine.readingMachine (Sample.log [0] [])).next before
      ⟨.negativeAcknowledge (giveBack 1000) (outcomes none (some .other)), fun _ => 0⟩
    (after.Resolvable (Sample.coordinates 0 1 1) ↔
        (outcomes none (some .other)).seek = none ∨ before.position 0 ≤ 0) ∧
      (after.Resolvable (Sample.coordinates 0 1 1) → (after.ComesTo 0 0 ↔
        ∀ paused ∈ before.member.state.paused.get? 0, paused.offset ≤ 0)) :=
  failed_negativeAcknowledge_iff Sample.engine (Sample.log [0] []) Sample.command (fun _ => 0) run
    (giveBack 1000) (outcomes none (some .other)) (Sample.coordinates 0 1 1)
    ⟨goesBack 1000 none (some .other), Or.inr ⟨by decide, rfl⟩⟩

open FailedRedelivery in
/-- **A record is out of reach.** The seek raises right after the record was delivered: its
token resolves nothing, and the client reads on behind it. -/
theorem failed_seek_loses_record :
    let before := (Sample.engine.readingMachine (Sample.log [0] [])).play
      ⟨.create Sample.command, fun _ => 0⟩ run
    let after := (Sample.engine.readingMachine (Sample.log [0] [])).next before
      ⟨.negativeAcknowledge (giveBack 0) (outcomes (some .other) none), fun _ => 0⟩
    (∀ x ∈ (Sample.engine.readingMachine (Sample.log [0] [])).steps
        ⟨.create Sample.command, fun _ => 0⟩ run,
      Reading.Allowed (Sample.log [0] []) x.1 x.2) ∧
    Sample.engine.FailedBack before.member (giveBack 0) (outcomes (some .other) none)
      (Sample.coordinates 0 1 1) ∧
    ¬after.Resolvable (Sample.coordinates 0 1 1) := by
  refine ⟨?_, ⟨goesBack 0 (some .other) none, Or.inl rfl⟩, ?_⟩
  · intro x hx message env' hreceive
    simp only [run, Machine.steps_cons, Machine.steps_nil, List.mem_cons, List.not_mem_nil,
      or_false] at hx
    obtain rfl | rfl := hx
    · simp at hreceive
    · obtain ⟨hresponse, -⟩ := Action.receive.inj hreceive
      obtain rfl := PollResponse.record.inj hresponse
      decide +kernel
  · rintro (⟨inflight, hget, -⟩ | hle)
    · exact absurd (Option.isSome_iff_exists.mpr ⟨inflight, hget⟩) (by decide +kernel)
    · exact absurd hle (by decide +kernel)

end KafkaConsumerEngine

end MeridianKafka
