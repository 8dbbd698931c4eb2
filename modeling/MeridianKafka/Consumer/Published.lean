import MeridianKafka.Consumer.GroupPosition
import MeridianKafka.Consumer.Members
import MeridianKafka.Range.Published

/-!
# What is published is what the group resolves

A group that consumes a topic that only publications write to, within one assignment. No record
of it is rejected, what is in flight are published events, and a commit passes an event with a
receipt only when the event was delivered in the assignment and resolved, unless the assignment
began behind it (`published_events_resolved`).

The invariant is `HoldsPublished`: the safe commits of the group, and that each delivery in
flight carries what its record decodes to.

Over any number of members and any rebalances, an event with a receipt is delivered at least once
before the group is past it (`published_events_delivered`).
-/

namespace MeridianKafka

open Framework

namespace KafkaConsumerEngine

variable {Token : Type} {engine : KafkaConsumerEngine Token} {log : PartitionLog}
  {stream : PhysicalStream} {m : Member} {p : ℕ} {L L' : Ledger}

/-- Every record of the partition can be decoded. -/
def Readable (engine : KafkaConsumerEngine Token) (log : PartitionLog) (stream : PhysicalStream)
    (p : ℕ) : Prop :=
  ∀ o message, log p o = some message →
    ∃ event, decodeEvent engine.parseEvent message stream = .ok event

/-- What a partition of readable records is like within an assignment. -/
structure HoldsPublished (engine : KafkaConsumerEngine Token) (log : PartitionLog)
    (stream : PhysicalStream) (p : ℕ) (L : Ledger) : Prop where
  safe : L.SafeCommit
  resolved_delivered : ∀ o ∈ L.resolved, o ∈ L.delivered
  none_rejected : L.rejected = []
  decoded : ∀ o inflight, L.inflight o = some inflight → ∃ message, log p o = some message ∧
    decodeEvent engine.parseEvent message stream = .ok inflight.event

namespace HoldsPublished

theorem empty : engine.HoldsPublished log stream p .empty where
  safe := .empty
  resolved_delivered o h := absurd h List.not_mem_nil
  none_rejected := rfl
  decoded o inflight h := absurd h (by simp [Ledger.empty])

/-- A step that resolves and delivers nothing. -/
theorem mono (h : engine.HoldsPublished log stream p L) (safe : L'.SafeCommit)
    (hi : ∀ o inflight, L'.inflight o = some inflight → L.inflight o = some inflight)
    (hd : L'.delivered = L.delivered) (hr : L'.resolved = L.resolved)
    (hj : L'.rejected = L.rejected) : engine.HoldsPublished log stream p L' where
  safe := safe
  resolved_delivered := by rw [hr, hd]; exact h.resolved_delivered
  none_rejected := hj.trans h.none_rejected
  decoded o inflight ho := h.decoded o inflight (hi o inflight ho)

theorem acknowledge {o : ℕ} {transactional : Bool} {fails : Prop}
    (h : engine.HoldsPublished log stream p L) (hi : (L.inflight o).isSome)
    (step : L.AcknowledgeStep o transactional fails L') :
    engine.HoldsPublished log stream p L' := by
  have hsafe := h.safe.acknowledge hi step
  have hresolved : ∀ k ∈ o :: L.resolved, k ∈ L.delivered := by
    rw [List.forall_mem_cons]
    exact ⟨h.safe.inflight_delivered o hi, h.resolved_delivered⟩
  have hdecoded : ∀ k inflight, Function.update L.inflight o none k = some inflight →
      ∃ message, log p k = some message ∧
        decodeEvent engine.parseEvent message stream = .ok inflight.event := by
    intro k inflight hk
    by_cases heq : k = o
    · simp [heq] at hk
    · rw [Function.update_of_ne heq] at hk
      exact h.decoded k inflight hk
  cases step with
  | failed => exact h.mono hsafe (fun _ _ => id) rfl rfl rfl
  | moved => cases transactional <;> exact ⟨hsafe, hresolved, h.none_rejected, hdecoded⟩
  | collected => exact ⟨hsafe, hresolved, h.none_rejected, hdecoded⟩

end HoldsPublished

theorem PartitionStep.holdsPublished {a : Action Token}
    (step : PartitionStep engine log m p a L') (within : a.WithinAssignment)
    (command : m.state.command.stream = stream) (readable : engine.Readable log stream p)
    (h : engine.HoldsPublished log stream p (m.ledger p)) :
    engine.HoldsPublished log stream p L' := by
  have hsafe := step.safeCommit within.stays h.safe
  have hdrop : ∀ k o inflight, Function.update (m.ledger p).inflight k none o = some inflight →
      (m.ledger p).inflight o = some inflight := by
    intro k o inflight ho
    by_cases heq : o = k
    · simp [heq] at ho
    · rwa [Function.update_of_ne heq] at ho
  cases step with
  | idle => exact h
  | rewound =>
    refine h.mono hsafe (fun o inflight ho => ?_) rfl rfl rfl
    change (if _ then _ else _) = _ at ho
    split at ho
    · exact ho
    · simp at ho
  | resumeSought => exact h.mono hsafe (fun _ _ => id) rfl rfl rfl
  | resumed => exact h.mono hsafe (fun _ _ => id) rfl rfl rfl
  | stuck => exact h.mono hsafe (fun _ _ => id) rfl rfl rfl
  | heldBack => exact h.mono hsafe (fun _ _ => id) rfl rfl rfl
  | rejected may here decodes =>
    -- no record of the partition is rejected
    subst here
    obtain ⟨event, hevent⟩ := readable _ _ may.visible
    rw [command, hevent] at decodes
    simp at decodes
  | @delivered message env event expiresAtMs may here decodes =>
    subst here
    rw [command] at decodes
    refine ⟨hsafe, fun o ho => ?_, ?_, fun o inflight ho => ?_⟩
    · rw [Ledger.handOut_resolved] at ho
      rw [Ledger.handOut_delivered]
      exact List.mem_cons_of_mem _ (h.resolved_delivered o ho)
    · rw [Ledger.handOut_rejected]
      exact h.none_rejected
    · rw [Ledger.handOut_inflight] at ho
      by_cases heq : o = message.offset
      · subst heq
        rw [Function.update_self] at ho
        obtain rfl := Option.some.inj ho
        exact ⟨message, may.visible, decodes⟩
      · rw [Function.update_of_ne heq] at ho
        exact h.decoded o inflight ho
  | acknowledged valid here step =>
    subst here
    obtain ⟨inflight, hget, -⟩ := valid.inflight
    exact h.acknowledge (by rw [hget]; rfl) step
  | deadLettered valid here step =>
    subst here
    obtain ⟨inflight, hget, -⟩ := valid.inflight
    exact h.acknowledge (by rw [hget]; rfl) step
  | dropped => exact h.mono hsafe (hdrop _) rfl rfl rfl
  | sought => exact h.mono hsafe (hdrop _) rfl rfl rfl
  | pausedAt => exact h.mono hsafe (hdrop _) rfl rfl rfl
  | revoked => exact within.elim
  | repositioned => exact within.elim

theorem AssignmentRun.holdsPublished {start : Member} {run : List (Action Token)}
    (h : engine.AssignmentRun log start p run)
    (readable : engine.Readable log start.state.command.stream p) :
    engine.HoldsPublished log start.state.command.stream p (engine.ledgerAfter log start p run) :=
  h.induction (C := fun _ _ => True) (fun _ _ => trivial) .empty
    fun _ _ _ step within command _ hI => step.holdsPublished within (by rw [command]) readable hI

/-- **What is published is what the group resolves.** In every state of an assignment to a
partition that only publications write to, no record has been rejected, each delivery in flight
is a published event, and only what was delivered is resolved. At a place in a receipt it is
the event of the receipt that is in flight; and no commit passes it before it is resolved, when
the assignment has delivered a record up to there. -/
theorem published_events_resolved (engine : KafkaConsumerEngine Token)
    {libraries : Config.Libraries} {lib : CompilerLibraries} {json : JsonModule}
    {fromMapping : List (String × Json) → Checked Event}
    (parses : engine.parseEvent = eventParser json fromMapping) (inverts : json.Inverts)
    {log : TopicLog} {start : Member} {p : ℕ} {run : List (Action Token)}
    (filled : log.Filled libraries lib json fromMapping start.state.command.stream)
    (assignment : engine.AssignmentRun log.records start p run) :
    let L := engine.ledgerAfter log.records start p run
    L.rejected = [] ∧ (∀ o ∈ L.resolved, o ∈ L.delivered) ∧
      (∀ o inflight, L.inflight o = some inflight →
        ∃ (x : Publication) (m : Message) (event : Event), log.records p o = some m ∧
          x.StoresAs libraries lib json fromMapping start.state.command.stream m event ∧
          inflight.event.Equal event) ∧
      ∀ (x : Publication) (event : Event) (receipt : PublishReceipt),
        x.Accepted libraries lib json fromMapping →
        x.command.stream.ReadableAs start.state.command.stream → x.ReportedIn json log →
        x.Returned event receipt → receipt.position.partition = p →
        receipt.position.offset < log.high p →
          (∀ inflight, L.inflight receipt.position.offset = some inflight →
            inflight.event.Equal event) ∧
          ∀ d ∈ L.delivered, d ≤ receipt.position.offset →
            ∀ n ∈ L.commits, receipt.position.offset < n →
              receipt.position.offset ∈ L.resolved := by
  intro L
  have readable : engine.Readable log.records start.state.command.stream p := by
    intro o m hm
    obtain ⟨-, -, decoded, -, hdecode, -⟩ := filled.reads inverts hm
    rw [parses]
    exact ⟨decoded, hdecode⟩
  have h := assignment.holdsPublished readable
  refine ⟨h.none_rejected, h.resolved_delivered, fun o inflight hinflight => ?_, ?_⟩
  · obtain ⟨m, hm, hdecodes⟩ := h.decoded o inflight hinflight
    obtain ⟨x, event, decoded, hstores, hdecode, hequal⟩ := filled.reads inverts hm
    rw [parses] at hdecodes
    obtain rfl : decoded = inflight.event := Except.ok.inj (hdecode.symm.trans hdecodes)
    exact ⟨x, m, event, hm, hstores, hequal⟩
  · rintro x event receipt haccepted hreadable hreported hreturned rfl hhigh
    obtain ⟨m, decoded, hm, hdecode, hequal⟩ :=
      hreturned.reads haccepted hreadable inverts hreported hhigh
    constructor
    · intro inflight hinflight
      obtain ⟨m', hm', hdecodes⟩ := h.decoded _ inflight hinflight
      obtain rfl := Option.some.inj (hm.symm.trans hm')
      rw [parses] at hdecodes
      obtain rfl : decoded = inflight.event := Except.ok.inj (hdecode.symm.trans hdecodes)
      exact hequal
    · intro d hd hle n hn hlt
      cases hs : L.safeNext with
      | none =>
        rw [(h.safe.unset hs).2] at hn
        exact absurd hn List.not_mem_nil
      | some s =>
        -- every offset from the first delivery of the assignment to the safe one is resolved
        obtain ⟨f, -, hresolved, hfirst, -⟩ := h.safe.first s hs
        exact hresolved _ ((hfirst d hd).trans hle) (hlt.trans_le (h.safe.commits_le s hs n hn))

/-- **An event with a receipt is delivered at least once.** In a group of any number of members,
through any rebalances, the record at the place in the receipt is read as the event, and the next
member reads from behind it only after it has been delivered to a member that has resolved it. -/
theorem published_events_delivered (engine : KafkaConsumerEngine Token)
    {libraries : Config.Libraries} {lib : CompilerLibraries} {json : JsonModule}
    {fromMapping : List (String × Json) → Checked Event}
    (parses : engine.parseEvent = eventParser json fromMapping) (inverts : json.Inverts)
    (log : TopicLog) {w : Members} (fresh : w.Fresh stream) {run : List (GroupEvent Token)}
    (legal : (engine.members log.records log.low).Legal w run) {x : Publication} {event : Event}
    {receipt : PublishReceipt} (accepted : x.Accepted libraries lib json fromMapping)
    (readable : x.command.stream.ReadableAs stream) (reported : x.ReportedIn json log)
    (returned : x.Returned event receipt) (retained : log.low receipt.position.partition ≤
      receipt.position.offset)
    (visible : receipt.position.offset < log.high receipt.position.partition) :
    let w' := (engine.members log.records log.low).play w run
    let o := receipt.position.offset
    ∃ message decoded, log.records receipt.position.partition o = some message ∧
      decodeEvent engine.parseEvent message stream = .ok decoded ∧ decoded.Equal event ∧
      (o < w'.place log.low receipt.position.partition →
        ∃ i, o ∈ ((w'.member i).ledger receipt.position.partition).delivered ∧
          o ∈ ((w'.member i).ledger receipt.position.partition).resolved) := by
  intro w' o
  have h : w'.Safe engine log.records stream log.low := .of_run fresh legal
  obtain ⟨message, decoded, hmessage, hdecode, hequal⟩ :=
    returned.reads accepted readable inverts reported visible
  rw [← parses] at hdecode
  exact ⟨message, decoded, hmessage, hdecode, hequal, fun hpassed =>
    h.place _ o retained hpassed ⟨message, decoded, hmessage, hdecode⟩⟩

end KafkaConsumerEngine

namespace PublishedSample

/-- The engine of a group that parses events. -/
def engine : KafkaConsumerEngine TokenPayload :=
  { Sample.engine with parseEvent := eventParser plainJson Published.fromMapping }

def member (stream : PhysicalStream) : Member := .joined { Sample.command with stream } [0]

/-- The client returns the record. -/
def receive (m : Message) : Action TokenPayload :=
  .receive (.record m) { monotonicNs := 0, nowMs := 0 }

variable {command : PublishCommand} {event : Event} {receipt : PublishReceipt} {m : Message}

theorem Made.assignmentRun (h : Made command event receipt m) :
    engine.AssignmentRun (topic m).records (member command.stream) 0 [receive m] where
  fresh := rfl
  legal := by
    rw [Machine.legal_cons]
    refine ⟨⟨if_pos ⟨rfl, rfl⟩, h.named, fun f hf => ?_⟩, Machine.legal_nil _ _⟩
    exact absurd hf (by simp [member, Member.joined, Member.assigned, Member.create, historyOf,
      fetchPosition])
  within a ha := by
    obtain rfl := List.mem_singleton.mp ha
    exact trivial

theorem Made.visible (h : Made command event receipt m) :
    receipt.position.offset < (topic m).high 0 := by
  change _ < if 0 = m.partition then m.offset + 1 else 0
  rw [h.first.1, h.place.2]
  exact Nat.succ_pos _

/-- What a member that has no pause makes of the record. -/
theorem Made.issues (h : Made command event receipt m) {member : Member}
    (stream : member.state.command.stream = command.stream)
    (unpaused : member.state.paused.get? m.partition = none) :
    ∃ decoded expiresAtMs, (engine.receive member (.record m) { monotonicNs := 0, nowMs := 0 }).2 =
      (member.note 0 (.returned 0)).issue 0 0 decoded expiresAtMs := by
  obtain ⟨event', hevent'⟩ := h.stores.exists_event
  obtain ⟨decoded, hdecode, -⟩ := hevent'.reads plainJson_inverts
  have hparses : decodeEvent engine.parseEvent m
      (member.note m.partition (.returned m.offset)).state.command.stream = .ok decoded := by
    change decodeEvent _ m member.state.command.stream = _
    rw [stream]
    exact hdecode
  have htopic :
      m.topic = (member.note m.partition (.returned m.offset)).state.command.stream.topic :=
    h.named.trans (congrArg PhysicalStream.topic stream.symm)
  unfold KafkaConsumerEngine.receive
  dsimp only
  rw [KafkaConsumerEngine.delivery_of_unpaused engine htopic
    (by change (member.state.paused.get? m.partition).filter _ = none; rw [unpaused]; rfl)]
  unfold KafkaConsumerEngine.issueDelivery
  dsimp only
  rw [hparses, h.first.1, h.first.2]
  exact ⟨decoded, _, rfl⟩

/-- The record is in flight after it was returned. -/
theorem Made.delivered (h : Made command event receipt m) :
    ∃ inflight, (engine.ledgerAfter (topic m).records (member command.stream) 0
      [receive m]).inflight 0 = some inflight := by
  obtain ⟨decoded, expiresAtMs, hissued⟩ :=
    h.issues (show (member command.stream).state.command.stream = command.stream from rfl) rfl
  have hledger : engine.ledgerAfter (topic m).records (member command.stream) 0 [receive m] =
      (engine.receive (member command.stream) (.record m) { monotonicNs := 0, nowMs := 0 }).2.ledger
        0 := rfl
  rw [hledger, hissued, Member.ledger_issue, if_pos rfl]
  exact ⟨_, rfl⟩

/-! ### A group of members -/

def group (stream : PhysicalStream) : Members :=
  { Sample.members with member := fun _ => .create { Sample.command with stream } }

theorem group_fresh (stream : PhysicalStream) : (group stream).Fresh stream :=
  ⟨fun _ => rfl, fun _ _ => rfl, fun _ => rfl, fun _ => rfl, fun _ => rfl⟩

/-- The member that is given the partition. -/
def assigned (stream : PhysicalStream) : Member :=
  ((group stream).member 0).assignedAt (fun _ => 0) [0]

def acknowledgeCommand (stream : PhysicalStream) : AcknowledgeCommand TokenPayload :=
  { Sample.acknowledgeCommand 0 1 1 with
    stream
    delivery := engine.cursor.encodeDelivery 0 stream.topic (Sample.coordinates 0 1 1) }

/-- The record is delivered to the member, and its first attempt is acknowledged. -/
def consume (stream : PhysicalStream) (m : Message) : List (GroupEvent TokenPayload) :=
  [.assign 0 [0], .act 0 (receive m), .act 0 (.acknowledge (acknowledgeCommand stream) none
    { nowMs := 1 })]

theorem Made.legal (h : Made command event receipt m) :
    (engine.members (topic m).records (topic m).low).Legal (group command.stream)
      (consume command.stream m) := by
  rw [consume, Machine.legal_cons, Machine.legal_cons, Machine.legal_cons]
  refine ⟨rfl, ⟨trivial, ⟨if_pos ⟨rfl, rfl⟩, h.named, fun f hf => ?_⟩, ?_⟩,
    ⟨rfl, trivial, trivial⟩, Machine.legal_nil _ _⟩
  · rw [h.first.1] at hf
    obtain rfl : 0 = f := Option.some.inj hf
    exact ⟨Nat.zero_le _, fun k _ hk => absurd hk (by rw [h.first.2]; exact Nat.not_lt_zero k)⟩
  · change m.partition ∈ _
    rw [h.first.1]
    exact List.mem_toFinset.mpr (List.mem_singleton_self 0)

/-- The group is past the record then. -/
theorem Made.passed (h : Made command event receipt m) :
    0 < ((engine.members (topic m).records (topic m).low).play (group command.stream)
      (consume command.stream m)).place (topic m).low 0 := by
  obtain ⟨decoded, expiresAtMs, hissued⟩ :=
    h.issues (show (assigned command.stream).state.command.stream = command.stream from rfl) rfl
  let received := ((assigned command.stream).note 0 (.returned 0)).issue 0 0 decoded expiresAtMs
  have hvalid : engine.ValidToken received (acknowledgeCommand command.stream) 1
      (Sample.coordinates 0 1 1) :=
    ⟨payloadCodec_sealsDeliveries 3600000 0 1 command.stream.topic (Sample.coordinates 0 1 1)
      (by decide : (1 : ℕ) < 30000) le_rfl, rfl⟩
  have hplay : ((engine.members (topic m).records (topic m).low).play (group command.stream)
      (consume command.stream m)).commits 0 =
        received.commitsAfter (engine.acknowledge received (acknowledgeCommand command.stream) none
          { nowMs := 1 }).2.1 0 ++ ((assigned command.stream).commitsAfter received 0 ++ []) := by
    rw [show received = (engine.receive (assigned command.stream) (.record m)
      { monotonicNs := 0, nowMs := 0 }).2 from hissued.symm]
    rfl
  rw [Members.place, hplay, hvalid.acknowledge_eq]
  exact Nat.one_pos

end PublishedSample

/-- The published event of a topic is delivered. -/
theorem published_event_delivered :
    ∃ command event receipt m inflight,
      (PublishedSample.publication command).Returned event receipt ∧
      (PublishedSample.engine.ledgerAfter (PublishedSample.topic m).records
        (PublishedSample.member command.stream) 0 [PublishedSample.receive m]).inflight
          receipt.position.offset = some inflight ∧
      inflight.event.Equal event := by
  obtain ⟨command, event, receipt, m, h⟩ := PublishedSample.exists_made
  obtain ⟨inflight, hinflight⟩ := h.delivered
  obtain ⟨hpartition, hoffset⟩ := h.place
  obtain ⟨-, -, -, hreceipted⟩ := KafkaConsumerEngine.published_events_resolved
    PublishedSample.engine rfl plainJson_inverts h.filled h.assignmentRun
  have hat := (hreceipted _ event receipt h.accepted h.readable h.reportedIn h.returned hpartition
    h.visible).1
  rw [hoffset] at hat
  exact ⟨command, event, receipt, m, inflight, h.returned, hoffset ▸ hinflight,
    hat inflight hinflight⟩

/-- The group is past the published event, and a member has resolved it. -/
theorem published_event_delivered_before :
    ∃ (stream : PhysicalStream) (event : Event) (m message : Message) (decoded : Event),
      decodeEvent PublishedSample.engine.parseEvent message stream = .ok decoded ∧
      decoded.Equal event ∧
      ∃ i, 0 ∈ ((((PublishedSample.engine.members (PublishedSample.topic m).records
        (PublishedSample.topic m).low).play (PublishedSample.group stream)
          (PublishedSample.consume stream m)).member i).ledger 0).resolved := by
  obtain ⟨command, event, receipt, m, h⟩ := PublishedSample.exists_made
  obtain ⟨hpartition, hoffset⟩ := h.place
  obtain ⟨message, decoded, -, hdecode, hequal, hbefore⟩ :=
    KafkaConsumerEngine.published_events_delivered PublishedSample.engine rfl plainJson_inverts
      (PublishedSample.topic m) (PublishedSample.group_fresh command.stream) h.legal h.accepted
      h.readable h.reportedIn h.returned (Nat.zero_le _) (hpartition ▸ h.visible)
  rw [hpartition, hoffset] at hbefore
  obtain ⟨i, -, hresolved⟩ := hbefore h.passed
  exact ⟨command.stream, event, m, message, decoded, hdecode, hequal, i, hresolved⟩

end MeridianKafka
