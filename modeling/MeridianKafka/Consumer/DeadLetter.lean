import MeridianKafka.Consumer.Step
import MeridianKafka.Producer.Engine
import MeridianKafka.Transactions.Session

/-!
# Dead letters

A delivery without an attempt left is published to the Dead Letter Stream and then
acknowledged. The publication goes through the producer engine that the groups share
with the application, under a key made of the event id and the attempt; its fingerprint
covers the whole failure envelope, with the failing group and the time of the call.
`KafkaConsumerEngine.publishing` is the machine of such a runtime: any number of groups,
their operations in any order, and one idempotency cache.

So a call finds its key taken when a delivery of an event with the same id was
dead-lettered before, of another group or another record, and when an earlier attempt to
dead-letter this very delivery published and then failed to commit its source. The
publication is refused as a reuse of the key, and the delivery stays where it is
(`deadLettered_iff`, `handshake_iff`).
-/

namespace MeridianKafka

open Framework

/-- The group members of a runtime and the cache of its producer engine. -/
structure PublishingRuntime where
  states : Dict GroupRef Member := .empty
  cache : IdempotencyCache := .empty

/-- What a negative acknowledgement reads from outside, with the calls of the producer. -/
structure DeadLetterEnv where
  nowMs : ℕ
  monotonicNs : ℕ := 0
  utcNow : String
  publish : PublishEnv
  acknowledge : AcknowledgeEnv
  seek : Option Raised := none
  pause : Option Raised := none
  emit : Option Raised := none

namespace DeadLetterEnv

/-- The first receipt of a publication. -/
def firstReceipt : Except Raised (List PublishReceipt) → Except Raised String
  | .error raised => .error raised
  | .ok [] => .error .other
  | .ok (receipt :: _) => .ok receipt.eventId

/-- The environment of the call when it publishes through this cache. -/
def through (env : DeadLetterEnv) (producer : KafkaProducerEngine) (cache : IdempotencyCache) :
    NegativeAcknowledgeEnv where
  nowMs := env.nowMs
  monotonicNs := env.monotonicNs
  utcNow := env.utcNow
  publish command := firstReceipt (producer.publish cache command false env.publish).answer
  acknowledge := env.acknowledge
  seek := env.seek
  pause := env.pause
  emit := env.emit

/-- The Kafka calls of a dead letter succeed: those of its publication and the commit of
its source. -/
structure KafkaCallsSucceed (env : DeadLetterEnv) : Prop where
  publish : env.publish.KafkaCallsSucceed 1
  commit : env.acknowledge.commit = none

/-- The telemetry sink does not raise. -/
structure SinkReturns (env : DeadLetterEnv) : Prop where
  publish : env.publish.emit = none
  acknowledge : env.acknowledge.emit = none
  complete : env.emit = none

end DeadLetterEnv

/-- A call of one of the groups, or of the application. -/
inductive PublishingCall (Token : Type)
  /-- The first `poll` of a group: it subscribes, and partitions are assigned. -/
  | join (poll : PollCommand) (partitions : List ℕ)
  | operate (group : GroupRef) (action : Action Token)
  | negativeAcknowledge (command : NegativeAcknowledgeCommand Token) (env : DeadLetterEnv)
  | publish (command : PublishCommand) (env : PublishEnv)

namespace KafkaConsumerEngine

variable {Token : Type} (engine : KafkaConsumerEngine Token) (producer : KafkaProducerEngine)

/-- The publication of a dead letter. -/
def deadLetterCommand (command : NegativeAcknowledgeCommand Token) (c : DeliveryCoordinates)
    (inflight : Inflight) (target : PhysicalStream) (utcNow : String) : PublishCommand where
  stream := target
  events := [deadLetterEvent command inflight.event target c.attempt utcNow]
  idempotencyKey := "dead-letter-" ++ inflight.event.eventId ++ "-" ++ toString c.attempt
  batch := false

/-- The publication that a negative acknowledgement comes to, if it does. -/
def deadLetterPublish (m : Member) (command : NegativeAcknowledgeCommand Token) (nowMs : ℕ)
    (utcNow : String) : Option PublishCommand :=
  match engine.cursor.decodeDelivery nowMs command.delivery command.subscription.ref
      command.consumerGroup.ref command.stream.topic with
  | .error _ => none
  | .ok c =>
    match negativeAcknowledgeGuard m c with
    | .error _ => none
    | .ok inflight =>
      match deadLetterStream command c with
      | none => none
      | some ref =>
        match engine.settings.stream ref with
        | .error _ => none
        | .ok target => some (deadLetterCommand command c inflight target utcNow)

/-- What the producer engine does in a negative acknowledgement. -/
def deadLetterOutcome (s : PublishingRuntime) (command : NegativeAcknowledgeCommand Token)
    (env : DeadLetterEnv) : Option PublishOutcome :=
  (s.states.get? command.group).bind fun m =>
    (engine.deadLetterPublish m command env.nowMs env.utcNow).map fun publication =>
      producer.publish s.cache publication false env.publish

/-- The answer of `negative_acknowledge`. -/
def negativeAcknowledgeAnswer (s : PublishingRuntime) (command : NegativeAcknowledgeCommand Token)
    (env : DeadLetterEnv) : Except Raised NegativeAcknowledged :=
  match s.states.get? command.group with
  | none =>
    .error (.failure
      { kind := .deliveryRejected
        message := "delivery has no active ConsumerGroup session" })
  | some m => (engine.negativeAcknowledge m command (env.through producer s.cache)).1

/-- The runtime after a call. -/
def publishNext (s : PublishingRuntime) : PublishingCall Token → PublishingRuntime
  | .join poll partitions =>
    if (s.states.get? poll.group).isSome then s
    else { s with states := s.states.set poll.group (.joined poll partitions) }
  | .operate group action =>
    match s.states.get? group with
    | none => s
    | some m => { s with states := s.states.set group (engine.next m action) }
  | .negativeAcknowledge command env =>
    { states :=
        match s.states.get? command.group with
        | none => s.states
        | some m =>
          s.states.set command.group
            (engine.negativeAcknowledge m command (env.through producer s.cache)).2
      cache := ((engine.deadLetterOutcome producer s command env).map PublishOutcome.cache).getD
        s.cache }
  | .publish command env => { s with cache := (producer.publish s.cache command false env).cache }

/-- What the callers owe: a negative acknowledgement has a label of its own, and the
compiler refuses a publication without events. -/
def MayPublish : PublishingCall Token → Prop
  | .operate _ (.negativeAcknowledge _ _) => False
  | .publish command _ => command.events ≠ []
  | _ => True

instance : DecidablePred (@MayPublish Token)
  | .operate _ (.negativeAcknowledge _ _) => isFalse id
  | .publish command _ => inferInstanceAs (Decidable (command.events ≠ []))
  | .operate _ (.expireInflight _) | .operate _ (.resumeDue _) | .operate _ (.receive _ _)
  | .operate _ (.acknowledge _ _ _) | .operate _ (.assigned _) | .operate _ (.revoked _)
  | .operate _ (.groupPosition _ _) | .join _ _ | .negativeAcknowledge _ _ => isTrue trivial

/-- The groups of one runtime with the cache that they share. -/
def publishing : Machine PublishingRuntime (PublishingCall Token) where
  allowed _ := MayPublish
  next := engine.publishNext producer

instance (s : PublishingRuntime) (run : List (PublishingCall Token)) :
    Decidable ((engine.publishing producer).Legal s run) :=
  inferInstanceAs (Decidable (∀ x ∈ (engine.publishing producer).steps s run, MayPublish x.2))

/-- A valid delivery without an attempt left: the publication that the call comes to. -/
structure Exhausted (s : PublishingRuntime) (command : NegativeAcknowledgeCommand Token)
    (env : DeadLetterEnv) (m : Member) (publication : PublishCommand) : Prop where
  member : s.states.get? command.group = some m
  valid : ∃ c, engine.ValidToken m command.toAcknowledgeCommand env.nowMs c
  publishes : engine.deadLetterPublish m command env.nowMs env.utcNow = some publication

/-- The publication has a fingerprint, and the cache has no other one under its key. -/
def Unclaimed (cache : IdempotencyCache) (publication : PublishCommand) : Prop :=
  ∃ fingerprint, producer.sha256Fingerprint publication.operation = .ok fingerprint ∧
    ∀ key ∈ publication.idempotencyKey, ∀ remembered rs, cache.get? key = some (remembered, rs) →
      remembered = fingerprint

/-- Nothing but the Kafka calls stands in the way of a dead letter. -/
structure Unhindered (cache : IdempotencyCache) (m : Member)
    (command : NegativeAcknowledgeCommand Token) (env : DeadLetterEnv)
    (publication : PublishCommand) : Prop where
  unclaimed : Unclaimed producer cache publication
  /-- The token has not expired when the source is acknowledged. -/
  valid : ∃ c, engine.ValidToken m command.toAcknowledgeCommand env.acknowledge.nowMs c
  sink : env.SinkReturns

open KafkaProducerEngine (Receipted)

variable {engine producer} {m : Member} {command : NegativeAcknowledgeCommand Token}
  {publication : PublishCommand} {nowMs : ℕ} {utcNow : String}

/-! ### One call -/

/-- What a call that publishes has decoded and found. -/
theorem exists_of_deadLetterPublish
    (h : engine.deadLetterPublish m command nowMs utcNow = some publication) :
    ∃ c inflight ref target,
      engine.cursor.decodeDelivery nowMs command.delivery command.subscription.ref
        command.consumerGroup.ref command.stream.topic = .ok c ∧
      negativeAcknowledgeGuard m c = .ok inflight ∧ deadLetterStream command c = some ref ∧
      engine.settings.stream ref = .ok target ∧
      publication = deadLetterCommand command c inflight target utcNow := by
  unfold deadLetterPublish at h
  split at h
  · simp at h
  next c hdecodes =>
  split at h
  · simp at h
  next inflight hguard =>
  split at h
  · simp at h
  next ref href =>
  split at h
  · simp at h
  next target htarget =>
  exact ⟨c, inflight, ref, target, hdecodes, hguard, href, htarget, (Option.some.inj h).symm⟩

/-- A publication has one event, without headers, and a key. -/
theorem deadLetterPublish_shape
    (h : engine.deadLetterPublish m command nowMs utcNow = some publication) :
    publication.events.length = 1 ∧ (∀ event ∈ publication.events, event.headers = []) ∧
      ∃ key, publication.idempotencyKey = some key := by
  obtain ⟨c, inflight, ref, target, -, -, -, -, rfl⟩ := exists_of_deadLetterPublish h
  refine ⟨rfl, fun event hevent => ?_, _, rfl⟩
  rw [deadLetterCommand, List.mem_singleton] at hevent
  rw [hevent]
  rfl

/-- A call that comes to a publication publishes it, and then acknowledges. -/
theorem negativeAcknowledge_of_publication {env : NegativeAcknowledgeEnv}
    (h : engine.deadLetterPublish m command env.nowMs env.utcNow = some publication) :
    engine.negativeAcknowledge m command env =
      match env.publish publication with
      | .error raised => (.error raised, m)
      | .ok targetEventId =>
        match engine.acknowledge m command.toAcknowledgeCommand none env.acknowledge with
        | (.error raised, m, _) => (.error raised, m)
        | (.ok acknowledged, m, _) =>
          match env.emit with
          | some raised => (.error raised, m)
          | none => (.ok (.deadLettered targetEventId acknowledged.committed), m) := by
  obtain ⟨c, inflight, ref, target, hdecodes, hguard, href, htarget, rfl⟩ :=
    exists_of_deadLetterPublish h
  -- Each step of the call is the one that the publication has come from.
  unfold negativeAcknowledge
  rw [hdecodes]
  dsimp only
  unfold negativeAcknowledgeDelivery
  rw [hguard]
  dsimp only
  rw [href]
  dsimp only
  unfold deadLetter
  rw [htarget]
  rfl

/-- A call that comes to no publication does not look at the producer. -/
theorem negativeAcknowledge_of_no_publication {env : NegativeAcknowledgeEnv}
    (h : engine.deadLetterPublish m command env.nowMs env.utcNow = none)
    (publish : PublishCommand → Except Raised String) :
    engine.negativeAcknowledge m command { env with publish } =
      engine.negativeAcknowledge m command env := by
  unfold negativeAcknowledge
  dsimp only
  unfold deadLetterPublish at h
  -- The branches without a publication do not ask for its answer; in the last one there is a
  -- target, and then a publication.
  cases hdecodes : engine.cursor.decodeDelivery env.nowMs command.delivery
    command.subscription.ref command.consumerGroup.ref command.stream.topic with
  | error failure => rfl
  | ok c =>
  rw [hdecodes] at h
  dsimp only at h ⊢
  unfold negativeAcknowledgeDelivery
  cases hguard : negativeAcknowledgeGuard m c with
  | error failure => rfl
  | ok inflight =>
  rw [hguard] at h
  dsimp only at h ⊢
  cases href : deadLetterStream command c with
  | none => rfl
  | some ref =>
  rw [href] at h
  dsimp only at h ⊢
  unfold deadLetter
  cases htarget : engine.settings.stream ref with
  | error failure => rfl
  | ok target =>
    rw [htarget] at h
    simp at h

/-- Without a transaction, an acknowledgement whose commit returns answers exactly when
its token is valid and the telemetry sink does not raise. -/
theorem acknowledge_ok_iff {command : AcknowledgeCommand Token} {env : AcknowledgeEnv}
    (commit : env.commit = none) :
    (∃ acknowledged, (engine.acknowledge m command none env).1 = .ok acknowledged) ↔
      (∃ c, engine.ValidToken m command env.nowMs c) ∧ env.emit = none := by
  by_cases hvalid : ∃ c, engine.ValidToken m command env.nowMs c
  · rw [and_iff_right hvalid]
    obtain ⟨c, hvalid⟩ := hvalid
    -- Once the commit has returned, only the telemetry can still raise.
    have hcomplete : ∀ (m' : Member) (committed : Bool),
        (∃ acknowledged, (completeAcknowledge m' command c committed none env).1 =
          .ok acknowledged) ↔ env.emit = none := by
      intro m' committed
      unfold completeAcknowledge
      cases env.emit <;> simp
    rw [hvalid.acknowledge_eq]
    unfold acknowledgeDelivery
    rw [hvalid.accepted]
    dsimp only
    split
    · unfold moveGroup
      rw [commit]
      exact hcomplete _ _
    · exact hcomplete _ _
  · refine iff_of_false ?_ fun h => hvalid h.1
    rintro ⟨acknowledged, hok⟩
    obtain ⟨raised, hrefused⟩ := engine.acknowledge_of_invalid command none env
      (not_exists.mp hvalid)
    rw [hrefused] at hok
    simp at hok

variable (producer) in
/-- The publication of a dead letter, by its first receipt. -/
theorem firstReceipt_ok_iff {cache : IdempotencyCache} (receipted : Receipted cache)
    {env : DeadLetterEnv}
    (publishes : engine.deadLetterPublish m command nowMs utcNow = some publication)
    (calls : (∀ key ∈ publication.idempotencyKey, cache.get? key = none) →
      env.publish.KafkaCallsSucceed 1) :
    (∃ targetEventId, (env.through producer cache).publish publication = .ok targetEventId) ↔
      Unclaimed producer cache publication ∧ env.publish.emit = none := by
  obtain ⟨hlength, hplain, key, hkey⟩ := deadLetterPublish_shape publishes
  have hnonempty : publication.events ≠ [] := fun hnil => by simp [hnil] at hlength
  have hreceipts := (producer.publish_receipted receipted hnonempty false env.publish).2
  -- No replay of a receipted cache is empty, so a call that returns has a first receipt.
  have hfirst : (∃ targetEventId, (env.through producer cache).publish publication =
      .ok targetEventId) ↔
      ∃ rs, (producer.publish cache publication false env.publish).answer = .ok rs := by
    change (∃ targetEventId, DeadLetterEnv.firstReceipt
      (producer.publish cache publication false env.publish).answer = .ok targetEventId) ↔ _
    cases hanswer : (producer.publish cache publication false env.publish).answer with
    | error raised => simp [DeadLetterEnv.firstReceipt]
    | ok rs =>
      cases rs with
      | nil => exact absurd rfl (hreceipts [] hanswer)
      | cons first later => simp [DeadLetterEnv.firstReceipt]
  have hcalls : cache.get? key = none →
      env.publish.KafkaCallsSucceed publication.events.length := by
    intro hfree
    rw [hlength]
    exact calls fun key' hkey' => by rwa [← Option.some.inj (hkey.symm.trans hkey')]
  rw [hfirst, KafkaProducerEngine.publish_ok_iff hkey (by simp +contextual [hplain]) hcalls]
  unfold Unclaimed
  simp [hkey]

/-- A call for which the Kafka calls that it makes succeed dead-letters its delivery
exactly when nothing else stands in the way. -/
theorem answer_deadLettered_iff {s : PublishingRuntime} {env : DeadLetterEnv}
    (receipted : Receipted s.cache)
    (exhausted : engine.Exhausted s command env m publication)
    (calls : (∀ key ∈ publication.idempotencyKey, s.cache.get? key = none) →
      env.publish.KafkaCallsSucceed 1) (commit : env.acknowledge.commit = none) :
    (∃ targetEventId committed, engine.negativeAcknowledgeAnswer producer s command env =
        .ok (.deadLettered targetEventId committed)) ↔
      engine.Unhindered producer s.cache m command env publication := by
  have hpublish := firstReceipt_ok_iff producer receipted exhausted.publishes calls
  have hack : (∃ acknowledged, (engine.acknowledge m command.toAcknowledgeCommand none
      env.acknowledge).1 = .ok acknowledged) ↔ _ := acknowledge_ok_iff commit
  have hcall : (engine.negativeAcknowledgeAnswer producer s command env) =
      (engine.negativeAcknowledge m command (env.through producer s.cache)).1 := by
    unfold negativeAcknowledgeAnswer
    rw [exhausted.member]
  have hthrough : engine.deadLetterPublish m command (env.through producer s.cache).nowMs
      (env.through producer s.cache).utcNow = some publication := exhausted.publishes
  rw [hcall, negativeAcknowledge_of_publication hthrough]
  constructor
  · rintro ⟨targetEventId, committed, hanswer⟩
    -- Each of the three parts has returned.
    split at hanswer
    · simp at hanswer
    next hpublished =>
    split at hanswer
    · simp at hanswer
    next hacknowledged =>
    obtain ⟨hunclaimed, hsink⟩ := hpublish.mp ⟨_, hpublished⟩
    obtain ⟨hvalid, hackSink⟩ := hack.mp ⟨_, congrArg Prod.fst hacknowledged⟩
    cases hemit : (env.through producer s.cache).emit with
    | none => exact ⟨hunclaimed, hvalid, hsink, hackSink, hemit⟩
    | some raised =>
      rw [hemit] at hanswer
      simp at hanswer
  · intro h
    obtain ⟨targetEventId, hpublished⟩ := hpublish.mpr ⟨h.unclaimed, h.sink.publish⟩
    obtain ⟨acknowledged, hacknowledged⟩ := hack.mpr ⟨h.valid, h.sink.acknowledge⟩
    have hemit : (env.through producer s.cache).emit = none := h.sink.complete
    refine ⟨targetEventId, acknowledged.committed, ?_⟩
    rw [hpublished]
    change (match engine.acknowledge m command.toAcknowledgeCommand none env.acknowledge with
      | (.error raised, m, _) => (.error raised, m)
      | (.ok acknowledged, m, _) =>
        match (env.through producer s.cache).emit with
        | some raised => (.error raised, m)
        | none => (.ok (.deadLettered targetEventId acknowledged.committed), m) :
        Except Raised NegativeAcknowledged × Member).1 = _
    rcases hresult : engine.acknowledge m command.toAcknowledgeCommand none env.acknowledge with
      ⟨answer, m', transaction⟩
    rw [hresult] at hacknowledged
    obtain rfl : answer = .ok acknowledged := hacknowledged
    dsimp only
    rw [hemit]

/-! ### Runs -/

/-- A call keeps a receipt with every remembered publication. -/
theorem publishNext_receipted {s : PublishingRuntime} {call : PublishingCall Token}
    (may : MayPublish call) (h : Receipted s.cache) :
    Receipted (engine.publishNext producer s call).cache := by
  -- Only the two calls that publish touch the cache.
  cases call with
  | join poll partitions =>
    unfold publishNext
    dsimp only
    split <;> exact h
  | operate group action =>
    unfold publishNext
    dsimp only
    split <;> exact h
  | publish command env => exact (producer.publish_receipted h may false env).1
  | negativeAcknowledge command env =>
    change Receipted (((engine.deadLetterOutcome producer s command env).map
      PublishOutcome.cache).getD s.cache)
    unfold deadLetterOutcome
    cases s.states.get? command.group with
    | none => exact h
    | some m =>
      rw [Option.bind_some]
      cases hpublish : engine.deadLetterPublish m command env.nowMs env.utcNow with
      | none => exact h
      | some publication =>
        have hnonempty : publication.events ≠ [] := fun hnil => by
          simpa [hnil] using (deadLetterPublish_shape hpublish).1
        exact (producer.publish_receipted h hnonempty false env.publish).1

/-- Along every run each remembered publication has a receipt. -/
theorem publishing_receipted {start : PublishingRuntime} (fresh : start.cache = .empty)
    {run : List (PublishingCall Token)} (legal : (engine.publishing producer).Legal start run) :
    Receipted ((engine.publishing producer).play start run).cache := by
  have hempty : Receipted start.cache := by
    rw [fresh]
    intro key fingerprint rs hfound
    simp at hfound
  refine Machine.play_induction (I := fun s => Receipted s.cache) (C := fun _ _ => True)
    ?_ hempty legal fun _ _ => trivial
  intro s call h may _
  exact publishNext_receipted may h

variable (engine producer) in
/-- Every delivery of the run that has no attempt left, and whose Kafka calls succeed, is
dead-lettered. -/
def DeadLettersAll (steps : List (PublishingRuntime × PublishingCall Token)) : Prop :=
  ∀ s command env, (s, PublishingCall.negativeAcknowledge command env) ∈ steps →
    ∀ m publication, engine.Exhausted s command env m publication → env.KafkaCallsSucceed →
      ∃ targetEventId committed, engine.negativeAcknowledgeAnswer producer s command env =
        .ok (.deadLettered targetEventId committed)

/-- **When dead letters are independent.** In a run of any number of groups through one
producer engine, every delivery without an attempt left is dead-lettered when its Kafka
calls succeed, exactly when each of these calls finds nothing but its own publication
under its key, a token that is still valid for the acknowledgement, and a telemetry sink
that does not raise. -/
theorem deadLettered_iff (engine : KafkaConsumerEngine Token) (producer : KafkaProducerEngine)
    {start : PublishingRuntime} (fresh : start.cache = .empty)
    {run : List (PublishingCall Token)} (legal : (engine.publishing producer).Legal start run) :
    engine.DeadLettersAll producer ((engine.publishing producer).steps start run) ↔
      ∀ s command env, (s, PublishingCall.negativeAcknowledge command env) ∈
          (engine.publishing producer).steps start run →
        ∀ m publication, engine.Exhausted s command env m publication → env.KafkaCallsSucceed →
          engine.Unhindered producer s.cache m command env publication := by
  -- Every call finds a cache that the calls before it kept receipted.
  have hstep : ∀ s command env, (s, PublishingCall.negativeAcknowledge command env) ∈
      (engine.publishing producer).steps start run →
      ∀ m publication, engine.Exhausted s command env m publication → env.KafkaCallsSucceed →
        ((∃ targetEventId committed, engine.negativeAcknowledgeAnswer producer s command env =
            .ok (.deadLettered targetEventId committed)) ↔
          engine.Unhindered producer s.cache m command env publication) := by
    intro s command env hmem m publication exhausted calls
    obtain ⟨before, after, rfl, rfl⟩ := Machine.exists_of_mem_steps hmem
    rw [Machine.legal_append] at legal
    exact answer_deadLettered_iff (publishing_receipted fresh legal.1) exhausted
      (fun _ => calls.publish) calls.commit
  constructor
  · intro h s command env hmem m publication exhausted calls
    exact (hstep s command env hmem m publication exhausted calls).mp
      (h s command env hmem m publication exhausted calls)
  · intro h s command env hmem m publication exhausted calls
    exact (hstep s command env hmem m publication exhausted calls).mpr
      (h s command env hmem m publication exhausted calls)

end KafkaConsumerEngine

/-! ### Two groups with the same event -/

namespace Sample

mutual

/-- The text of a JSON value. -/
def textOf : Json → String
  | .null => "null"
  | .bool value => if value then "true" else "false"
  | .int value => toString value
  | .float bits => toString bits.toNat
  | .str value => "'" ++ value ++ "'"
  | .arr items => "[" ++ itemsText items ++ "]"
  | .obj fields => "(" ++ fieldsText fields ++ ")"

def itemsText : List Json → String
  | [] => ""
  | item :: items => textOf item ++ "," ++ itemsText items

def fieldsText : List (String × Json) → String
  | [] => ""
  | (key, value) :: fields => key ++ ":" ++ textOf value ++ "," ++ fieldsText fields

end

/-- The text of a publication stands for its fingerprint. -/
def producer : KafkaProducerEngine where
  sha256Fingerprint value := .ok (textOf value)

def deadLetters : PhysicalStream :=
  { orders with ref := ⟨"main", "sales", "dead"⟩, topic := "dead.v1" }

/-- A Subscription whose deliveries have one attempt. -/
def strictBilling : PhysicalSubscription :=
  { billing with maxDeliveryAttempts := 1, deadLetterStream := some deadLetters.ref }

def auditors : PhysicalConsumerGroup :=
  { workers with ref := ⟨"main", "sales", "auditors"⟩, groupId := "billing-auditors" }

def strictEngine : KafkaConsumerEngine TokenPayload :=
  { engine with
    settings := { resources := Dict.empty.set deadLetters.ref (.stream deadLetters) } }

/-- The group joins, and record 0 of partition 0 is delivered to it. -/
def deliveredTo (group : PhysicalConsumerGroup) : List (PublishingCall TokenPayload) :=
  let poll := { command with subscription := strictBilling, consumerGroup := group }
  [.join poll [0], .operate poll.group (receive 0)]

/-- The delivery of the group. -/
def deliveryTo (group : PhysicalConsumerGroup) : DeliveryCoordinates :=
  { coordinates 0 1 1 with consumerGroup := group.ref }

/-- The group gives the delivery back. -/
def giveBack (group : PhysicalConsumerGroup) : NegativeAcknowledgeCommand TokenPayload where
  subscription := strictBilling
  consumerGroup := group
  stream := orders
  delivery := strictEngine.cursor.encodeDelivery 0 orders.topic (deliveryTo group)
  retryAfterMs := 0
  classification := none

/-- The publication succeeds. -/
def deadLetterEnv (utcNow : String) (commit : Option Raised := none) : DeadLetterEnv where
  nowMs := 1
  utcNow
  publish := { report := fun _ => { message := some (0, 0) } }
  acknowledge := { nowMs := 1, commit }

theorem decodeDelivery_giveBack (group : PhysicalConsumerGroup) :
    strictEngine.cursor.decodeDelivery 1 (giveBack group).delivery strictBilling.ref group.ref
      orders.topic = .ok (deliveryTo group) :=
  payloadCodec_sealsDeliveries 3600000 0 1 orders.topic (deliveryTo group)
    (by decide : (1 : ℕ) < 30000) (by decide : 1 ≤ 1)

theorem deadLetterEnv_calls (utcNow : String) : (deadLetterEnv utcNow).KafkaCallsSucceed :=
  ⟨⟨fun _ _ => trivial, rfl, fun _ _ => rfl, fun _ _ => rfl⟩, rfl⟩

end Sample

namespace KafkaConsumerEngine

/-- One group dead-letters its delivery. -/
theorem deadLettered_iff_alone :
    let steps := (Sample.strictEngine.publishing Sample.producer).steps {}
      (Sample.deliveredTo Sample.workers ++
        [.negativeAcknowledge (Sample.giveBack Sample.workers) (Sample.deadLetterEnv "now")])
    Sample.strictEngine.DeadLettersAll Sample.producer steps ↔
      ∀ s command env, (s, PublishingCall.negativeAcknowledge command env) ∈ steps →
        ∀ m publication, Sample.strictEngine.Exhausted s command env m publication →
          env.KafkaCallsSucceed →
          Sample.strictEngine.Unhindered Sample.producer s.cache m command env publication :=
  deadLettered_iff Sample.strictEngine Sample.producer rfl (by decide +kernel)

/-- **The second group is refused.** One record is delivered to two groups and has no
attempt left in either. The first group dead-letters it; the second one raises, although
its Kafka calls succeed. -/
theorem second_group_is_refused :
    let run := Sample.deliveredTo Sample.workers ++ Sample.deliveredTo Sample.auditors ++
      [.negativeAcknowledge (Sample.giveBack Sample.workers) (Sample.deadLetterEnv "now"),
        .negativeAcknowledge (Sample.giveBack Sample.auditors) (Sample.deadLetterEnv "now")]
    (Sample.strictEngine.publishing Sample.producer).Legal {} run ∧
      ¬Sample.strictEngine.DeadLettersAll Sample.producer
        ((Sample.strictEngine.publishing Sample.producer).steps {} run) := by
  refine ⟨by decide +kernel, fun h => ?_⟩
  let earlier := Sample.deliveredTo Sample.workers ++ Sample.deliveredTo Sample.auditors ++
    [.negativeAcknowledge (Sample.giveBack Sample.workers) (Sample.deadLetterEnv "now")]
  let s := (Sample.strictEngine.publishing Sample.producer).play {} earlier
  let command := Sample.giveBack Sample.auditors
  let env := Sample.deadLetterEnv "now"
  obtain ⟨m, hm⟩ : ∃ m, s.states.get? command.group = some m :=
    Option.isSome_iff_exists.mp (by decide +kernel)
  -- The second group's record has reached its last attempt, and its delivery is still valid.
  have hpublishes : (s.states.get? command.group).all fun m =>
      (Sample.strictEngine.deadLetterPublish m command env.nowMs env.utcNow).isSome := by
    decide +kernel
  have hguard : (s.states.get? command.group).all fun m =>
      acknowledgeGuard m (Sample.deliveryTo Sample.auditors) = none := by decide +kernel
  rw [hm, Option.all_some] at hpublishes hguard
  obtain ⟨publication, hpublication⟩ := Option.isSome_iff_exists.mp hpublishes
  have hvalid : Sample.strictEngine.ValidToken m command.toAcknowledgeCommand env.nowMs
      (Sample.deliveryTo Sample.auditors) :=
    ⟨Sample.decodeDelivery_giveBack Sample.auditors, by simpa using hguard⟩
  have hstep : (s, PublishingCall.negativeAcknowledge command env) ∈
      (Sample.strictEngine.publishing Sample.producer).steps {} (earlier ++
        [.negativeAcknowledge command env]) := by
    rw [Machine.steps_append]
    exact List.mem_append_right _ List.mem_cons_self
  obtain ⟨targetEventId, committed, hanswer⟩ := h s command env hstep m publication
    ⟨hm, ⟨_, hvalid⟩, hpublication⟩ (Sample.deadLetterEnv_calls "now")
  -- But its idempotency key is that of the first group's dead letter, whose event names another
  -- failing consumer.
  have hrefused : Sample.strictEngine.negativeAcknowledgeAnswer Sample.producer s command env =
      .error (.failure KafkaProducerEngine.keyReused) := by decide +kernel
  exact absurd (hrefused.symm.trans hanswer) (by simp)

end KafkaConsumerEngine

end MeridianKafka
