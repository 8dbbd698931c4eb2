import MeridianKafka.Compiler.Scope
import MeridianKafka.Framework.Admission
import Mathlib.Data.String.Basic

/-!
# The integrity of the resource map

What `_parse_resources` returns can be relied on as a whole: an entry lies under its own
reference, topics and group ids are not shared, and no reference of an entry dangles
(`Integrity`). The uniqueness comes from the first pass over the document, which keeps the
topics and group ids that are taken, and the references from the second one over the map.

Neither pass depends on the order of the document. The first one is an `Admission`: an entry
is read by itself (`readEntry`), and two entries get along when they share no reference, no
topic and no group id (`Apart`). The second one asks only what lies under a reference. So a
document that is reordered is rejected as before, or accepted with the same map
(`parseResources_integrity`).
-/

namespace MeridianKafka

open Framework

namespace PhysicalResourceConfig

/-- The topic of a Stream. -/
def topic? : PhysicalResourceConfig → Option String
  | .stream s => some s.topic
  | _ => none

/-- The group id of a ConsumerGroup. -/
def groupId? : PhysicalResourceConfig → Option String
  | .consumerGroup g => some g.groupId
  | _ => none

end PhysicalResourceConfig

namespace Config

variable {core : CoreLibraries}

/-! ### Reading an entry by itself -/

/-- An entry with its reference, as it is read where nothing is taken. -/
def readEntry (core : CoreLibraries) (entry : String × Value) :
    Checked (ResourceRef × PhysicalResourceConfig) := do
  let ref ← resourceRef core (.str entry.1) "resource map key"
  let item ← entry.2.asObject
  let (resource, _) ← parseResource core .initial ref item
  return (ref, resource)

/-- A name that is taken is refused, and nothing else of an item depends on the names that
are. -/
theorem untaken_iff {γ δ τ : Type} {x : Checked γ} {y : γ → Checked δ} {z : δ → Checked String}
    {taken : List String} {failure : Failure} {rest : γ → String → Checked τ} {name : τ → String}
    (named : ∀ c text, Ensures (rest c text) fun t => name t = text) {t : τ} :
    (x >>= fun c => y c >>= fun d => z d >>= fun text =>
        Checked.require (text ∉ taken) failure >>= fun _ => rest c text) = .ok t ↔
      (x >>= fun c => y c >>= fun d => z d >>= fun text =>
        Checked.require (text ∉ []) failure >>= fun _ => rest c text) = .ok t ∧
        name t ∉ taken := by
  simp only [Checked.bind_eq_ok_iff]
  constructor
  · rintro ⟨c, hc, d, hd, text, htext, _, hfree, hrest⟩
    have hname : name t = text := named c text t hrest
    refine ⟨⟨c, hc, d, hd, text, htext, (), if_pos List.not_mem_nil, hrest⟩, ?_⟩
    rw [hname]
    exact Checked.ensures_require () hfree
  · rintro ⟨⟨c, hc, d, hd, text, htext, _, -, hrest⟩, hfree⟩
    have hname : name t = text := named c text t hrest
    rw [hname] at hfree
    exact ⟨c, hc, d, hd, text, htext, (), if_pos hfree, hrest⟩

theorem parseStream_eq_ok_iff {topics : List String} {ref : ResourceRef} {item : Value}
    {s : PhysicalStream} :
    parseStream core topics ref item = .ok s ↔
      parseStream core [] ref item = .ok s ∧ s.topic ∉ topics := by
  unfold parseStream
  refine untaken_iff fun selected topic => ?_
  exact .bind fun _ _ => .bind fun _ _ => .bind fun _ _ => .bind fun _ _ => .bind fun _ _ =>
    .bind fun _ _ => .bind fun _ _ => .bind fun _ _ => .bind fun _ _ => .bind fun _ _ =>
      .bind fun _ _ => .bind fun _ _ => .bind fun _ _ => .bind fun _ _ => .bind fun _ _ => .pure rfl

theorem parseConsumerGroup_eq_ok_iff {groupIds : List String} {ref : ResourceRef} {item : Value}
    {g : PhysicalConsumerGroup} :
    parseConsumerGroup core groupIds ref item = .ok g ↔
      parseConsumerGroup core [] ref item = .ok g ∧ g.groupId ∉ groupIds := by
  unfold parseConsumerGroup
  refine untaken_iff fun selected groupId => ?_
  exact .bind fun _ _ => .bind fun _ _ => .bind fun _ _ => .bind fun _ _ => .pure rfl

/-- What a resource takes is free. -/
structure ParseState.Free (state : ParseState) (resource : PhysicalResourceConfig) : Prop where
  topic : ∀ topic, resource.topic? = some topic → topic ∉ state.streamTopics
  groupId : ∀ groupId, resource.groupId? = some groupId → groupId ∉ state.groupIds

/-- What is taken after a resource. -/
def ParseState.taking (state : ParseState) (resource : PhysicalResourceConfig) : ParseState :=
  { state with
    streamTopics := resource.topic?.toList ++ state.streamTopics
    groupIds := resource.groupId?.toList ++ state.groupIds }

/-- An item is read where its names are free as it is where nothing is taken. -/
theorem parseResource_eq_ok_iff {state : ParseState} {ref : ResourceRef}
    {item : List (String × Value)} {parsed : PhysicalResourceConfig × ParseState} :
    parseResource core state ref item = .ok parsed ↔
      (∃ alone, parseResource core .initial ref item = .ok (parsed.1, alone)) ∧
        state.Free parsed.1 ∧ parsed.2 = state.taking parsed.1 := by
  obtain ⟨resource, state'⟩ := parsed
  unfold parseResource
  dsimp only
  -- A Stream takes its topic and a ConsumerGroup its group id; a Subscription takes nothing.
  by_cases hstream : kind item = some "stream"
  · simp only [if_pos hstream, Checked.bind_eq_ok_iff]
    constructor
    · rintro ⟨s, hs, hparsed⟩
      obtain ⟨halone, hfree⟩ := parseStream_eq_ok_iff.mp hs
      obtain ⟨rfl, rfl⟩ := Prod.mk.inj (Except.ok.inj hparsed)
      refine ⟨⟨_, s, halone, rfl⟩, ⟨?_, nofun⟩, rfl⟩
      rintro topic ⟨⟩
      exact hfree
    · rintro ⟨⟨alone, s, halone, hparsed⟩, hfree, rfl⟩
      obtain ⟨rfl, -⟩ := Prod.mk.inj (Except.ok.inj hparsed)
      exact ⟨s, parseStream_eq_ok_iff.mpr ⟨halone, hfree.topic _ rfl⟩, rfl⟩
  by_cases hsubscription : kind item = some "subscription"
  · simp only [if_neg hstream, if_pos hsubscription, Checked.bind_eq_ok_iff]
    constructor
    · rintro ⟨s, hs, hparsed⟩
      obtain ⟨rfl, rfl⟩ := Prod.mk.inj (Except.ok.inj hparsed)
      exact ⟨⟨_, s, hs, rfl⟩, ⟨nofun, nofun⟩, rfl⟩
    · rintro ⟨⟨alone, s, hs, hparsed⟩, -, rfl⟩
      obtain ⟨rfl, -⟩ := Prod.mk.inj (Except.ok.inj hparsed)
      exact ⟨s, hs, rfl⟩
  by_cases hgroup : kind item = some "consumer-group"
  · simp only [if_neg hstream, if_neg hsubscription, if_pos hgroup, Checked.bind_eq_ok_iff]
    constructor
    · rintro ⟨g, hg, hparsed⟩
      obtain ⟨halone, hfree⟩ := parseConsumerGroup_eq_ok_iff.mp hg
      obtain ⟨rfl, rfl⟩ := Prod.mk.inj (Except.ok.inj hparsed)
      refine ⟨⟨_, g, halone, rfl⟩, ⟨nofun, ?_⟩, rfl⟩
      rintro groupId ⟨⟩
      exact hfree
    · rintro ⟨⟨alone, g, halone, hparsed⟩, hfree, rfl⟩
      obtain ⟨rfl, -⟩ := Prod.mk.inj (Except.ok.inj hparsed)
      exact ⟨g, parseConsumerGroup_eq_ok_iff.mpr ⟨halone, hfree.groupId _ rfl⟩, rfl⟩
  simp [if_neg hstream, if_neg hsubscription, if_neg hgroup, Checked.fail]

theorem readEntry_eq_ok_iff {entry : String × Value} {ref : ResourceRef}
    {resource : PhysicalResourceConfig} :
    readEntry core entry = .ok (ref, resource) ↔
      resourceRef core (.str entry.1) "resource map key" = .ok ref ∧
        ∃ item, entry.2.asObject = .ok item ∧
          ∃ alone, parseResource core .initial ref item = .ok (resource, alone) := by
  unfold readEntry
  simp only [Checked.bind_eq_ok_iff]
  constructor
  · rintro ⟨ref', href, item, hitem, ⟨resource', alone⟩, halone, hparsed⟩
    obtain ⟨rfl, rfl⟩ := Prod.mk.inj (Except.ok.inj hparsed)
    exact ⟨href, item, hitem, alone, halone⟩
  · rintro ⟨href, item, hitem, alone, halone⟩
    exact ⟨ref, href, item, hitem, (resource, alone), halone, rfl⟩

/-- **One entry.** It is read by itself, and what it takes and its reference are free. -/
theorem parseEntry_eq_ok_iff {state state' : ParseState} {entry : String × Value} :
    parseEntry core state entry = .ok state' ↔
      ∃ ref resource, readEntry core entry = .ok (ref, resource) ∧ state.Free resource ∧
        state.result.get? ref = none ∧
          state' = { state.taking resource with result := state.result.set ref resource } := by
  unfold parseEntry
  simp only [Checked.bind_eq_ok_iff, readEntry_eq_ok_iff]
  constructor
  · rintro ⟨ref, href, item, hitem, ⟨resource, taken⟩, hparsed, _, hfresh, hstate⟩
    obtain ⟨⟨alone, halone⟩, hfree, htaken⟩ := parseResource_eq_ok_iff.mp hparsed
    dsimp only at halone hfree htaken hfresh
    obtain rfl := htaken
    obtain rfl := Except.ok.inj hstate
    refine ⟨ref, resource, ⟨href, item, hitem, alone, halone⟩, hfree, ?_, rfl⟩
    exact Option.isNone_iff_eq_none.mp (Checked.ensures_require () hfresh)
  · rintro ⟨ref, resource, ⟨href, item, hitem, alone, halone⟩, hfree, hfresh, rfl⟩
    refine ⟨ref, href, item, hitem, (resource, state.taking resource), ?_, (), ?_, rfl⟩
    · exact parseResource_eq_ok_iff.mpr ⟨⟨alone, halone⟩, hfree, rfl⟩
    · exact if_pos (Option.isNone_iff_eq_none.mpr hfresh)

/-! ### The first pass -/

/-- Two entries share no reference, no topic and no group id. -/
structure Apart (e e' : ResourceRef × PhysicalResourceConfig) : Prop where
  ref : e.1 ≠ e'.1
  topic : ∀ topic, e.2.topic? = some topic → e'.2.topic? ≠ some topic
  groupId : ∀ groupId, e.2.groupId? = some groupId → e'.2.groupId? ≠ some groupId

theorem Apart.symm {e e' : ResourceRef × PhysicalResourceConfig} (h : Apart e e') : Apart e' e where
  ref := h.ref.symm
  topic topic htopic htopic' := h.topic topic htopic' htopic
  groupId groupId hid hid' := h.groupId groupId hid' hid

instance : Std.Symm Apart := ⟨fun _ _ => Apart.symm⟩

/-- What the state says of the entries so far. -/
structure Holds (state : ParseState) (seen : List (ResourceRef × PhysicalResourceConfig)) :
    Prop where
  entries : state.result.entries = seen
  topics : ∀ topic, topic ∈ state.streamTopics ↔ ∃ e ∈ seen, e.2.topic? = some topic
  groupIds : ∀ groupId, groupId ∈ state.groupIds ↔ ∃ e ∈ seen, e.2.groupId? = some groupId

theorem holds_initial : Holds .initial [] where
  entries := rfl
  topics := by simp [ParseState.initial]
  groupIds := by simp [ParseState.initial]

variable {state : ParseState} {seen : List (ResourceRef × PhysicalResourceConfig)}

/-- The state after an entry holds one more. -/
theorem Holds.taking (holds : Holds state seen) {ref : ResourceRef}
    {resource : PhysicalResourceConfig} (hfresh : state.result.get? ref = none) :
    Holds { state.taking resource with result := state.result.set ref resource }
      (seen ++ [(ref, resource)]) where
  entries := by
    rw [Dict.entries_set_of_fresh hfresh, holds.entries]
  topics topic := by
    simp only [ParseState.taking, List.mem_append, Option.mem_toList,
      holds.topics, List.mem_singleton, or_and_right, exists_or, exists_eq_left]
    exact or_comm
  groupIds groupId := by
    simp only [ParseState.taking, List.mem_append, Option.mem_toList,
      holds.groupIds, List.mem_singleton, or_and_right, exists_or, exists_eq_left]
    exact or_comm

/-- What is free is what no entry so far has. -/
theorem Holds.free_iff (holds : Holds state seen) {ref : ResourceRef}
    {resource : PhysicalResourceConfig} :
    state.Free resource ∧ state.result.get? ref = none ↔ ∀ e ∈ seen, Apart e (ref, resource) := by
  constructor
  · rintro ⟨hfree, hfresh⟩ e he
    refine ⟨?_, fun topic htopic htopic' => ?_, fun groupId hid hid' => ?_⟩
    · -- A reference that is taken lies in the map.
      rintro rfl
      rw [← holds.entries] at he
      rw [Dict.mem_entries_iff.mp he] at hfresh
      exact Option.some_ne_none _ hfresh
    · exact hfree.topic topic htopic' ((holds.topics topic).mpr ⟨e, he, htopic⟩)
    · exact hfree.groupId groupId hid' ((holds.groupIds groupId).mpr ⟨e, he, hid⟩)
  · intro apart
    refine ⟨⟨fun topic htopic hmem => ?_, fun groupId hid hmem => ?_⟩, ?_⟩
    · obtain ⟨e, he, htopic'⟩ := (holds.topics topic).mp hmem
      exact (apart e he).topic topic htopic' htopic
    · obtain ⟨e, he, hid'⟩ := (holds.groupIds groupId).mp hmem
      exact (apart e he).groupId groupId hid' hid
    · refine Option.eq_none_iff_forall_ne_some.mpr fun resource' hget => ?_
      have he := Dict.mem_entries_iff.mpr hget
      rw [holds.entries] at he
      exact (apart _ he).ref rfl

/-- **The first pass** admits the entries that are read and that are apart. -/
theorem admission_parseEntry (core : CoreLibraries) :
    Admission (parseEntry core) (fun entry e => readEntry core entry = .ok e) Apart Holds where
  sound := by
    intro state seen entry state' holds h
    obtain ⟨ref, resource, hread, hfree, hfresh, rfl⟩ := parseEntry_eq_ok_iff.mp h
    exact ⟨(ref, resource), hread, holds.free_iff.mp ⟨hfree, hfresh⟩, holds.taking hfresh⟩
  complete := by
    rintro state seen entry ⟨ref, resource⟩ holds hread apart
    obtain ⟨hfree, hfresh⟩ := holds.free_iff.mpr apart
    exact ⟨_, parseEntry_eq_ok_iff.mpr ⟨ref, resource, hread, hfree, hfresh, rfl⟩,
      holds.taking hfresh⟩

/-! ### The second pass -/

/-- What an entry refers to is in the map. -/
def Resolved (resources : Dict ResourceRef PhysicalResourceConfig) :
    PhysicalResourceConfig → Prop
  | .stream _ => True
  | .subscription subscription =>
    (∃ stream, resources.get? subscription.stream = some (.stream stream) ∧
      ∀ ref, subscription.deadLetterStream = some ref →
        ∃ deadLetter, resources.get? ref = some (.stream deadLetter) ∧
          deadLetter.ref ≠ stream.ref) ∧
      subscription.filter = []
  | .consumerGroup group =>
    ∃ subscription, resources.get? group.subscription = some (.subscription subscription)

theorem checkDeadLetter_eq_ok_iff {resources : Dict ResourceRef PhysicalResourceConfig}
    {stream : PhysicalStream} {deadLetter : Option ResourceRef} :
    checkDeadLetter resources stream deadLetter = .ok () ↔
      ∀ ref, deadLetter = some ref →
        ∃ s, resources.get? ref = some (.stream s) ∧ s.ref ≠ stream.ref := by
  cases deadLetter with
  | none => exact iff_of_true rfl (by rintro ref ⟨⟩)
  | some ref =>
    simp only [Option.some.injEq, forall_eq']
    unfold checkDeadLetter
    dsimp only
    split
    · next s hs =>
      rw [hs, Checked.require_eq_ok_iff]
      simp
    · next hnone =>
      refine iff_of_false (by rintro ⟨⟩) ?_
      rintro ⟨s, hs, -⟩
      exact hnone s hs

/-- **The second pass** accepts an entry exactly when its references are resolved. -/
theorem checkReferences_eq_ok_iff {resources : Dict ResourceRef PhysicalResourceConfig}
    {resource : PhysicalResourceConfig} :
    checkReferences resources resource = .ok () ↔ Resolved resources resource := by
  cases resource with
  | stream s => exact iff_of_true rfl trivial
  | subscription subscription =>
    unfold checkReferences Resolved
    dsimp only
    split
    · next s hs =>
      rw [Checked.bind_eq_ok_iff]
      constructor
      · rintro ⟨⟨⟩, hdead, hfilter⟩
        exact ⟨⟨s, hs, checkDeadLetter_eq_ok_iff.mp hdead⟩,
          List.isEmpty_iff.mp (Checked.require_eq_ok_iff.mp hfilter)⟩
      · rintro ⟨⟨s', hs', hdead⟩, hfilter⟩
        obtain rfl : s = s' := PhysicalResourceConfig.stream.inj (Option.some.inj (hs ▸ hs'))
        exact ⟨(), checkDeadLetter_eq_ok_iff.mpr hdead,
          Checked.require_eq_ok_iff.mpr (List.isEmpty_iff.mpr hfilter)⟩
    -- A name of a resource of another kind counts as missing too.
    · next hnone =>
      refine iff_of_false (by rintro ⟨⟩) ?_
      rintro ⟨⟨s, hs, -⟩, -⟩
      exact hnone s hs
  | consumerGroup group =>
    unfold checkReferences Resolved
    dsimp only
    split
    · next s hs => exact iff_of_true rfl ⟨s, hs⟩
    · next hnone =>
      refine iff_of_false (by rintro ⟨⟩) ?_
      rintro ⟨s, hs⟩
      exact hnone s hs

/-! ### The document -/

/-- What the entries of a document are read as, where the map is accepted. -/
structure Accepts (core : CoreLibraries) (document : List (String × Value))
    (resources : Dict ResourceRef PhysicalResourceConfig) : Prop where
  admitted : Admitted (fun entry e => readEntry core entry = .ok e) Apart document resources.entries
  stream : ∃ e ∈ resources.entries, isStream e.2 = true
  resolved : ∀ e ∈ resources.entries, Resolved resources e.2

/-- **A document is accepted** exactly when both passes accept it. -/
theorem parseResources_eq_ok_iff {value : Value}
    {resources : Dict ResourceRef PhysicalResourceConfig} :
    parseResources core value = .ok resources ↔
      ∃ document, value.asObject = .ok document ∧ Accepts core document resources := by
  unfold parseResources
  simp only [Checked.bind_eq_ok_iff]
  constructor
  · rintro ⟨document, hobject, state, hrun, _, hstream, _, hresolved, hresources⟩
    obtain rfl := Except.ok.inj hresources
    obtain ⟨seen, admitted, holds⟩ := (admission_parseEntry core).run holds_initial hrun
    obtain rfl := holds.entries
    refine ⟨document, hobject, admitted, ?_, fun e he => ?_⟩
    · exact List.any_eq_true.mp (Checked.ensures_require () hstream)
    · exact checkReferences_eq_ok_iff.mp (forM_eq_ok_iff.mp hresolved e he)
  · rintro ⟨document, hobject, accepts⟩
    obtain ⟨state, hrun, holds⟩ :=
      (admission_parseEntry core).exists_run holds_initial accepts.admitted
    -- The passes read the document in its order, which is that of the entries of the map.
    have hresources : state.result = resources := Dict.entries_injective holds.entries
    refine ⟨document, hobject, state, hrun, (), ?_, (), ?_, congrArg _ hresources⟩
    · rw [hresources]
      exact if_pos (List.any_eq_true.mpr accepts.stream)
    · rw [hresources]
      exact forM_eq_ok_iff.mpr fun e he => checkReferences_eq_ok_iff.mpr (accepts.resolved e he)

/-! ### What holds of an accepted map -/

/-- **The integrity of the map of a document.** -/
structure Integrity (core : CoreLibraries) (document : List (String × Value))
    (resources : Dict ResourceRef PhysicalResourceConfig) : Prop where
  keyed : ∀ ref resource, resources.get? ref = some resource → resource.ref = ref
  keys : ∀ ref, (∃ resource, resources.get? ref = some resource) ↔
    ∃ entry ∈ document, resourceRef core (.str entry.1) "resource map key" = .ok ref
  stream : ∃ ref s, resources.get? ref = some (.stream s)
  topics : ∀ ref ref' s s', resources.get? ref = some (.stream s) →
    resources.get? ref' = some (.stream s') → s.topic = s'.topic → ref = ref'
  groupIds : ∀ ref ref' g g', resources.get? ref = some (.consumerGroup g) →
    resources.get? ref' = some (.consumerGroup g') → g.groupId = g'.groupId → ref = ref'
  subscription : ∀ ref subscription, resources.get? ref = some (.subscription subscription) →
    (∃ s, resources.get? subscription.stream = some (.stream s)) ∧
      (∀ deadLetter, subscription.deadLetterStream = some deadLetter →
        deadLetter ≠ subscription.stream ∧ ∃ s, resources.get? deadLetter = some (.stream s)) ∧
      subscription.filter = []
  group : ∀ ref g, resources.get? ref = some (.consumerGroup g) →
    ∃ subscription, resources.get? g.subscription = some (.subscription subscription)
  compatible : ∀ ref s, resources.get? ref = some (.stream s) →
    s.compatibleSchemaFingerprints.Pairwise (· ≤ ·) ∧ s.compatibleSchemaFingerprints.Nodup ∧
      s.schemaFingerprint ∈ s.compatibleSchemaFingerprints

/-- The compatible fingerprints stand in order and once each. -/
theorem compatible_parseStream (topics : List String) (ref : ResourceRef) (item : Value) :
    Ensures (parseStream core topics ref item) fun s =>
      s.compatibleSchemaFingerprints.Pairwise (· ≤ ·) ∧ s.compatibleSchemaFingerprints.Nodup := by
  unfold parseStream
  refine .bind fun _ _ => .bind fun _ _ => .bind fun _ _ => .bind fun _ _ => .bind fun _ _ =>
    .bind fun _ _ => .bind fun schemaFingerprint _ => .bind fun _ _ => .bind fun _ _ =>
      .bind fun _ _ => .bind fun others _ => .bind fun _ _ => .bind fun _ _ => .bind fun _ _ =>
        .bind fun _ _ => .bind fun _ _ => .bind fun _ _ => .bind fun _ _ => .bind fun _ _ =>
          .pure ⟨?_, ?_⟩
  · exact List.pairwise_insertionSort _ _
  · exact (List.perm_insertionSort _ _).nodup_iff.mpr (List.nodup_dedup _)

theorem compatible_parseResource (state : ParseState) (ref : ResourceRef)
    (item : List (String × Value)) :
    Ensures (parseResource core state ref item) fun parsed => ∀ s, parsed.1 = .stream s →
      s.compatibleSchemaFingerprints.Pairwise (· ≤ ·) ∧ s.compatibleSchemaFingerprints.Nodup := by
  unfold parseResource
  refine .ite (fun _ => ?_) fun _ => .ite (fun _ => ?_) fun _ => .ite (fun _ => ?_) fun _ => .error
  · refine .andThen (compatible_parseStream _ _ _) fun s hs => .pure ?_
    rintro _ ⟨⟩
    exact hs
  · exact .bind fun _ _ => .pure nofun
  · exact .bind fun _ _ => .pure nofun

section Integrity

variable {document : List (String × Value)} {resources : Dict ResourceRef PhysicalResourceConfig}
  {ref : ResourceRef} {resource : PhysicalResourceConfig}

/-- What lies under a reference was read under it. -/
theorem Accepts.exists_entry (accepts : Accepts core document resources)
    (hget : resources.get? ref = some resource) :
    ∃ entry ∈ document, readEntry core entry = .ok (ref, resource) :=
  accepts.admitted.exists_entry (Dict.mem_entries_iff.mpr hget)

theorem Accepts.fits (accepts : Accepts core document resources)
    (hget : resources.get? ref = some resource) : Fits ref resource := by
  obtain ⟨entry, -, hread⟩ := accepts.exists_entry hget
  obtain ⟨-, item, -, alone, halone⟩ := readEntry_eq_ok_iff.mp hread
  exact (ensures_parseResource _ ref item _ halone).1

/-- Two resources that share a topic or a group id lie under one reference. -/
theorem Accepts.ref_eq (accepts : Accepts core document resources) {ref' : ResourceRef}
    {resource' : PhysicalResourceConfig} (hget : resources.get? ref = some resource)
    (hget' : resources.get? ref' = some resource') (h : ¬Apart (ref, resource) (ref', resource')) :
    ref = ref' :=
  congrArg Prod.fst (accepts.admitted.eq_of_not_apart (Dict.mem_entries_iff.mpr hget)
    (Dict.mem_entries_iff.mpr hget') h)

theorem Accepts.resolved_of_get? (accepts : Accepts core document resources)
    (hget : resources.get? ref = some resource) : Resolved resources resource :=
  accepts.resolved _ (Dict.mem_entries_iff.mpr hget)

/-- **An accepted map has integrity.** -/
theorem Accepts.integrity (accepts : Accepts core document resources) :
    Integrity core document resources where
  keyed ref resource hget := (accepts.fits hget).ref_eq
  keys ref := by
    constructor
    · rintro ⟨resource, hget⟩
      obtain ⟨entry, hentry, hread⟩ := accepts.exists_entry hget
      exact ⟨entry, hentry, (readEntry_eq_ok_iff.mp hread).1⟩
    · rintro ⟨entry, hentry, href⟩
      obtain ⟨⟨ref', resource⟩, hmem, hread⟩ := accepts.admitted.exists_reading hentry
      obtain rfl := Except.ok.inj (href.symm.trans (readEntry_eq_ok_iff.mp hread).1)
      exact ⟨resource, Dict.mem_entries_iff.mp hmem⟩
  stream := by
    obtain ⟨⟨ref, resource⟩, hmem, hstream⟩ := accepts.stream
    cases resource with
    | stream s => exact ⟨ref, s, Dict.mem_entries_iff.mp hmem⟩
    | subscription _ => exact nomatch hstream
    | consumerGroup _ => exact nomatch hstream
  topics ref ref' s s' hget hget' htopic :=
    accepts.ref_eq hget hget' fun apart => apart.topic s.topic rfl (congrArg some htopic.symm)
  groupIds ref ref' g g' hget hget' hid :=
    accepts.ref_eq hget hget' fun apart => apart.groupId g.groupId rfl (congrArg some hid.symm)
  subscription ref subscription hget := by
    obtain ⟨⟨s, hs, hdead⟩, hfilter⟩ := accepts.resolved_of_get? hget
    refine ⟨⟨s, hs⟩, fun deadLetter hdeadLetter => ?_, hfilter⟩
    obtain ⟨s', hs', hne⟩ := hdead deadLetter hdeadLetter
    refine ⟨?_, s', hs'⟩
    -- The check compares the references of two Streams, and each is the key of its Stream.
    rintro rfl
    exact hne ((accepts.fits hs').ref_eq.trans (accepts.fits hs).ref_eq.symm)
  group ref g hget := accepts.resolved_of_get? hget
  compatible ref s hget := by
    obtain ⟨entry, -, hread⟩ := accepts.exists_entry hget
    obtain ⟨-, item, -, alone, halone⟩ := readEntry_eq_ok_iff.mp hread
    obtain ⟨hsorted, hnodup⟩ := compatible_parseResource _ ref item _ halone s rfl
    exact ⟨hsorted, hnodup, ((accepts.fits hget).fingerprint s rfl).2⟩

/-- **No reference dangles**: the lookup of a group fails only where its arguments are wrong. -/
theorem Integrity.groupStream_returns_iff (integrity : Integrity core document resources)
    {settings : KafkaBindingSettings} (hsettings : settings.resources = resources)
    (subscriptionRef groupRef : ResourceRef) :
    (∃ mapped, settings.groupStream subscriptionRef groupRef = .ok mapped) ↔
      ∃ subscription group, resources.get? subscriptionRef = some (.subscription subscription) ∧
        resources.get? groupRef = some (.consumerGroup group) ∧
          group.subscription = subscription.ref := by
  obtain rfl := hsettings
  constructor
  · rintro ⟨⟨subscription, group, s⟩, h⟩
    obtain ⟨hsubscription, hgroup, hbelongs, -⟩ :=
      KafkaBindingSettings.groupStream_eq_ok_iff.mp h
    exact ⟨subscription, group, hsubscription, hgroup, hbelongs⟩
  · rintro ⟨subscription, group, hsubscription, hgroup, hbelongs⟩
    obtain ⟨⟨s, hs⟩, -⟩ := integrity.subscription _ _ hsubscription
    exact ⟨_, KafkaBindingSettings.groupStream_eq_ok_iff.mpr
      ⟨hsubscription, hgroup, hbelongs, hs⟩⟩

end Integrity

/-! ### The order of the document -/

/-- Both are rejected, or both are accepted with the same map. -/
def SameMap (x y : Checked (Dict ResourceRef PhysicalResourceConfig)) : Prop :=
  ((∀ resources, x ≠ .ok resources) ∧ ∀ resources, y ≠ .ok resources) ∨
    ∃ resources resources', x = .ok resources ∧ y = .ok resources' ∧
      ∀ ref, resources.get? ref = resources'.get? ref

/-- A reference is resolved by what lies under its references. -/
theorem Resolved.congr {resources resources' : Dict ResourceRef PhysicalResourceConfig}
    (h : ∀ ref, resources'.get? ref = resources.get? ref) {resource : PhysicalResourceConfig}
    (resolved : Resolved resources resource) : Resolved resources' resource := by
  cases resource with
  | stream s => exact trivial
  | subscription subscription => simpa only [Resolved, h] using resolved
  | consumerGroup g => simpa only [Resolved, h] using resolved

/-- A reordered document is accepted as well, with the same map. -/
theorem Accepts.perm {document document' : List (String × Value)}
    {resources : Dict ResourceRef PhysicalResourceConfig}
    (accepts : Accepts core document resources) (hperm : document'.Perm document) :
    ∃ resources', Accepts core document' resources' ∧
      ∀ ref, resources'.get? ref = resources.get? ref := by
  obtain ⟨entries, admitted, hentries⟩ := accepts.admitted.perm hperm
  have hnodup : (entries.map Prod.fst).Nodup :=
    (hentries.map Prod.fst).nodup_iff.mpr resources.nodup
  have hget : ∀ ref, (Dict.mk entries hnodup).get? ref = resources.get? ref :=
    Dict.lookup_eq_of_perm hentries.symm resources.nodup
  obtain ⟨e, he, hstream⟩ := accepts.stream
  refine ⟨⟨entries, hnodup⟩, ⟨admitted, ⟨e, hentries.mem_iff.mpr he, hstream⟩, ?_⟩, hget⟩
  exact fun e' he' => (accepts.resolved e' (hentries.mem_iff.mp he')).congr hget

/-- **The map of a reordered document** is the same, when there is one. -/
theorem parseResources_perm {fields fields' : List (Option String × Value)}
    (hperm : fields'.Perm fields) {resources : Dict ResourceRef PhysicalResourceConfig}
    (h : parseResources core (.mapping fields) = .ok resources) :
    ∃ resources', parseResources core (.mapping fields') = .ok resources' ∧
      ∀ ref, resources'.get? ref = resources.get? ref := by
  obtain ⟨document, hobject, accepts⟩ := parseResources_eq_ok_iff.mp h
  obtain ⟨document', hobject', hdocument⟩ := Value.asObject_perm hperm hobject
  obtain ⟨resources', accepts', hget⟩ := accepts.perm hdocument
  exact ⟨resources', parseResources_eq_ok_iff.mpr ⟨document', hobject', accepts'⟩, hget⟩

/-- **The integrity of the resource map, and its independence of the order.** Every map that is
returned has integrity and leaves no reference dangling, and a reordered document is
rejected as before or accepted with the same map. -/
theorem parseResources_integrity (core : CoreLibraries) :
    (∀ value resources, parseResources core value = .ok resources →
      (∃ document, value.asObject = .ok document ∧ Integrity core document resources) ∧
        ∀ settings : KafkaBindingSettings, settings.resources = resources →
          ∀ subscriptionRef groupRef,
            (∃ mapped, settings.groupStream subscriptionRef groupRef = .ok mapped) ↔
              ∃ subscription group,
                resources.get? subscriptionRef = some (.subscription subscription) ∧
                  resources.get? groupRef = some (.consumerGroup group) ∧
                    group.subscription = subscription.ref) ∧
      ∀ fields fields', fields.Perm fields' →
        SameMap (parseResources core (.mapping fields))
          (parseResources core (.mapping fields')) := by
  refine ⟨fun value resources h => ?_, fun fields fields' hperm => ?_⟩
  · obtain ⟨document, hobject, accepts⟩ := parseResources_eq_ok_iff.mp h
    have integrity := accepts.integrity
    exact ⟨⟨document, hobject, integrity⟩, fun settings hsettings =>
      integrity.groupStream_returns_iff hsettings⟩
  · cases h : parseResources core (.mapping fields) with
    | ok resources =>
      obtain ⟨resources', h', hget⟩ := parseResources_perm hperm.symm h
      exact Or.inr ⟨resources, resources', rfl, h', fun ref => (hget ref).symm⟩
    | error raised =>
      refine Or.inl ⟨nofun, fun resources h' => ?_⟩
      -- Had the other order been accepted, so would this one be.
      obtain ⟨resources', hok, -⟩ := parseResources_perm hperm h'
      rw [h] at hok
      exact nomatch hok

theorem parseResources_sample :
    (parseResources KafkaOperationCompiler.Sample.core
      KafkaOperationCompiler.Sample.resources).toBool = true := by
  decide +kernel

theorem sample_resources_integrity :
    ∃ fields document resources,
      KafkaOperationCompiler.Sample.resources = .mapping fields ∧
        parseResources KafkaOperationCompiler.Sample.core (.mapping fields) = .ok resources ∧
          Integrity KafkaOperationCompiler.Sample.core document resources ∧
            SameMap (parseResources KafkaOperationCompiler.Sample.core (.mapping fields))
              (parseResources KafkaOperationCompiler.Sample.core (.mapping fields.reverse)) := by
  obtain ⟨resources, h⟩ := exists_ok_of_toBool parseResources_sample
  obtain ⟨⟨document, -, integrity⟩, -⟩ := (parseResources_integrity _).1 _ _ h
  exact ⟨_, document, resources, rfl, h, integrity,
    (parseResources_integrity _).2 _ _ (List.reverse_perm _).symm⟩

end Config

end MeridianKafka
