import MeridianKafka.Cursor.RoundTrip
import MeridianKafka.Portable
import MeridianKafka.Probe.Physical
import MeridianKafka.Producer.Engine

/-!
# What fingerprints stand for

The adapter compares the canonical text of what it knows, or the fingerprint of this text: of
the Event Data under an idempotency key, of the positions of a group before they are changed, of
the payload of a token. Two of these texts agree exactly when what they were made of does, as
long as it has no floating-point numbers (`canonical_text_is_faithful`). Where fingerprints are
compared, SHA-256 must not have a collision among the texts that are hashed.
-/

namespace MeridianKafka

open Framework TokenPayload

/-! ### Hashed values -/

/-- The value is accepted, and its text is one of those that are hashed. -/
def HashLibraries.Hashed (lib : HashLibraries) (texts : Set (List UInt8)) (value : Json) : Prop :=
  ∃ bytes ∈ texts, lib.json.canonicalJsonBytes value = .ok bytes

/-- A value whose text tells it apart. -/
structure Plain (value : Json) : Prop where
  floatFree : value.floatFree = true
  keysDistinct : value.keysDistinct = true

/-- **Fingerprints agree when the values are the same.** -/
theorem HashLibraries.fingerprint_eq_iff_same {lib : HashLibraries} (writes : lib.json.Writes)
    {texts : Set (List UInt8)} (collisionFree : Set.InjOn lib.sha256 texts) {v w : Json}
    (plain : Plain v) (plain' : Plain w) (hashed : lib.Hashed texts v)
    (hashed' : lib.Hashed texts w) :
    lib.sha256Fingerprint v = lib.sha256Fingerprint w ↔ v.same w = true := by
  obtain ⟨bytes, hmem, hbytes⟩ := hashed
  obtain ⟨bytes', hmem', hbytes'⟩ := hashed'
  rw [← writes.bytes_eq_iff plain.floatFree plain'.floatFree plain.keysDistinct
    plain'.keysDistinct hbytes hbytes', ← collisionFree.eq_iff hmem hmem',
    ← Sha256.fingerprint_eq_iff]
  unfold HashLibraries.sha256Fingerprint
  rw [hbytes, hbytes']
  exact ⟨Except.ok.inj, congrArg Except.ok⟩

/-! ### Event Data -/

theorem sameItems_map_iff {α : Type} {f : α → Json} {l l' : List α} :
    Json.sameItems (l.map f) (l'.map f) = true ↔
      List.Forall₂ (fun a b => (f a).same (f b) = true) l l' := by
  induction l generalizing l' with
  | nil => cases l' <;> simp [Json.sameItems]
  | cons a l ih =>
    cases l' with
    | nil => simp [Json.sameItems]
    | cons b l' =>
      rw [List.map_cons, List.map_cons, Json.sameItems, Bool.and_eq_true, ih, List.forall₂_cons]

/-- The Event Data of two commands is the same when they publish the same events, in the same
order, to the same Stream. -/
theorem same_operation_iff {command command' : PublishCommand} :
    command.operation.same command'.operation = true ↔
      command.stream.ref.str = command'.stream.ref.str ∧
        List.Forall₂ (fun event event' => event.toDict.same event'.toDict = true)
          command.events command'.events := by
  rw [← sameItems_map_iff]
  unfold PublishCommand.operation
  simp [Json.same, Json.sameFields, List.lookup_cons]

/-- The events of a command tell themselves apart. -/
def PublishCommand.Plain (command : PublishCommand) : Prop :=
  ∀ event ∈ command.events, MeridianKafka.Plain event.toDict

theorem PublishCommand.Plain.operation {command : PublishCommand} (plain : command.Plain) :
    MeridianKafka.Plain command.operation where
  floatFree := by
    have hevents : Json.floatFreeItems (command.events.map Event.toDict) = true := by
      rw [Json.floatFreeItems_eq, List.all_map, List.all_eq_true]
      exact fun event hevent => (plain event hevent).floatFree
    simp [PublishCommand.operation, Json.floatFree, Json.floatFreeFields, hevents]
  keysDistinct := by
    have hevents : Json.keysDistinctItems (command.events.map Event.toDict) = true := by
      rw [Json.keysDistinctItems_eq, List.all_map, List.all_eq_true]
      exact fun event hevent => (plain event hevent).keysDistinct
    simp [PublishCommand.operation, Json.keysDistinct, Json.keysDistinctFields, hevents]

/-! ### Positions -/

/-- The positions of a topic, under the texts of their partitions. -/
def positionsJson (positions : Dict ℕ ℕ) : Json :=
  .obj (positions.entries.map fun e => (toString e.1, .int e.2))

theorem toString_injective {n n' : ℕ} (h : toString n = toString n') : n = n' := by
  have hdigits := congrArg digits h
  rw [digits_toString, digits_toString] at hdigits
  exact Option.some.inj hdigits

theorem nodup_positions (positions : Dict ℕ ℕ) :
    ((positions.entries.map fun e => (toString e.1, Json.int e.2)).map Prod.fst).Nodup := by
  have hkeys : (positions.entries.map fun e => (toString e.1, Json.int e.2)).map Prod.fst =
      (positions.entries.map Prod.fst).map fun n => toString n := by
    rw [List.map_map, List.map_map]
    rfl
  rw [hkeys]
  exact positions.nodup.map fun _ _ => toString_injective

theorem plain_positionsJson (positions : Dict ℕ ℕ) : Plain (positionsJson positions) where
  floatFree := by
    rw [positionsJson, Json.floatFree, Json.floatFreeFields_eq, List.all_map]
    exact List.all_eq_true.mpr fun _ _ => rfl
  keysDistinct := by
    refine Json.keysDistinct_obj.mpr ⟨nodup_positions positions, fun f hf => ?_⟩
    obtain ⟨e, -, rfl⟩ := List.mem_map.mp hf
    rfl

/-- A partition is found under its text. -/
theorem lookup_positions (positions : Dict ℕ ℕ) (p : ℕ) :
    (positions.entries.map fun e => (toString e.1, Json.int e.2)).lookup (toString p) =
      (positions.get? p).map fun offset : ℕ => Json.int (offset : ℤ) := by
  unfold Dict.get?
  induction positions.entries with
  | nil => rfl
  | cons e l ih =>
    rw [List.map_cons, List.lookup_cons, List.lookup_cons]
    by_cases hp : p = e.1
    · rw [hp, beq_self_eq_true, beq_self_eq_true]
      rfl
    · rw [beq_eq_false_iff_ne.mpr hp, beq_eq_false_iff_ne.mpr fun h => hp (toString_injective h)]
      exact ih

/-- Two texts of positions are the same when every partition has the same offset in both. -/
theorem same_positionsJson_iff {positions positions' : Dict ℕ ℕ} :
    (positionsJson positions).same (positionsJson positions') = true ↔
      ∀ p, positions.get? p = positions'.get? p := by
  rw [← Json.sorted_eq_iff_same (plain_positionsJson _).keysDistinct
    (plain_positionsJson _).keysDistinct, positionsJson, positionsJson, Json.sorted_obj,
    Json.sorted_obj, Json.obj.injEq]
  constructor
  · intro h p
    have hread := (Json.sortFields_eq_iff_lookup (nodup_positions positions)
      (nodup_positions positions')).mp h (toString p)
    have hinjective : Function.Injective
        (Json.sorted ∘ fun offset : ℕ => Json.int (offset : ℤ)) :=
      fun n n' hn => Int.ofNat.inj (Json.int.inj hn)
    rw [lookup_positions, lookup_positions, Option.map_map, Option.map_map] at hread
    exact Option.map_injective hinjective hread
  · intro h
    exact Json.sortFields_eq_of_perm ((Dict.perm_entries_of_get?_eq h).map _)
      (nodup_positions positions')

/-- What the fingerprint of a group covers. -/
def groupPositions (lib : CodecLibraries) (topic : String) (positions : Dict ℕ ℕ) : Json :=
  .obj [("topicFingerprint", .str (lib.topicFingerprint topic)),
    ("positions", positionsJson positions)]

def CodecLibraries.hashes (lib : CodecLibraries) : HashLibraries where
  json := lib.json
  sha256 := lib.sha256

/-- `group_position_fingerprint`. -/
def groupPositionFingerprint (lib : CodecLibraries) (topic : String) (positions : Dict ℕ ℕ) :
    Except Raised String :=
  match normalizePositions positions with
  | none => .error .other
  | some positions => lib.hashes.sha256Fingerprint (groupPositions lib topic positions)

theorem plain_groupPositions (lib : CodecLibraries) (topic : String) (positions : Dict ℕ ℕ) :
    Plain (groupPositions lib topic positions) where
  floatFree := by
    simp [groupPositions, Json.floatFree, Json.floatFreeFields,
      (plain_positionsJson positions).floatFree]
  keysDistinct := by
    simp [groupPositions, Json.keysDistinct, Json.keysDistinctFields,
      (plain_positionsJson positions).keysDistinct]

theorem same_groupPositions_iff {lib : CodecLibraries} {topic topic' : String}
    {positions positions' : Dict ℕ ℕ} :
    (groupPositions lib topic positions).same (groupPositions lib topic' positions') = true ↔
      lib.topicFingerprint topic = lib.topicFingerprint topic' ∧
        ∀ p, positions.get? p = positions'.get? p := by
  rw [← same_positionsJson_iff]
  unfold groupPositions
  simp [Json.same, Json.sameFields, List.lookup_cons]

/-- The fingerprints of two topics agree when the topics do, as long as they do not collide. -/
theorem topicFingerprint_eq_iff {lib : CodecLibraries} {texts : Set (List UInt8)}
    (collisionFree : Set.InjOn lib.sha256 texts) {topic topic' : String}
    (htopic : utf8 topic ∈ texts) (htopic' : utf8 topic' ∈ texts) :
    lib.topicFingerprint topic = lib.topicFingerprint topic' ↔ topic = topic' := by
  refine ⟨fun h => ?_, congrArg _⟩
  have hhash := Sha256.fingerprint_eq_iff.mp h
  exact utf8_injective (collisionFree htopic htopic' hhash)

theorem get?_of_normalizePositions {positions normalized : Dict ℕ ℕ}
    (h : normalizePositions positions = some normalized) (p : ℕ) :
    normalized.get? p = positions.get? p := by
  unfold normalizePositions at h
  split at h
  · obtain rfl := Option.some.inj h
    exact Dict.get?_sorted positions p
  · exact absurd h (by simp)

/-- **The fingerprints of two groups agree when the topics and the positions do.** -/
theorem groupPositionFingerprint_eq_iff {lib : CodecLibraries} (writes : lib.json.Writes)
    {texts : Set (List UInt8)} (collisionFree : Set.InjOn lib.sha256 texts)
    {topic topic' : String} {positions positions' normalized normalized' : Dict ℕ ℕ}
    (htopic : utf8 topic ∈ texts) (htopic' : utf8 topic' ∈ texts)
    (hnormal : normalizePositions positions = some normalized)
    (hnormal' : normalizePositions positions' = some normalized')
    (hashed : lib.hashes.Hashed texts (groupPositions lib topic normalized))
    (hashed' : lib.hashes.Hashed texts (groupPositions lib topic' normalized')) :
    groupPositionFingerprint lib topic positions =
        groupPositionFingerprint lib topic' positions' ↔
      topic = topic' ∧ ∀ p, positions.get? p = positions'.get? p := by
  -- what is hashed is sorted, which moves no position
  have hget := get?_of_normalizePositions hnormal
  have hget' := get?_of_normalizePositions hnormal'
  unfold groupPositionFingerprint
  rw [hnormal, hnormal']
  dsimp only
  rw [lib.hashes.fingerprint_eq_iff_same writes collisionFree (plain_groupPositions _ _ _)
    (plain_groupPositions _ _ _) hashed hashed', same_groupPositions_iff,
    topicFingerprint_eq_iff collisionFree htopic htopic']
  simp only [hget, hget']

/-! ### Tokens -/

/-- What a delivery adds to its token. -/
structure DeliveryContents where
  subscription : ResourceRef
  consumerGroup : ResourceRef
  assignmentEpoch : ℕ
  attempt : ℕ

/-- What a token is written from; a delivery has contents of its own. -/
structure TokenContents where
  type : TokenType
  resource : ResourceRef
  topic : String
  positions : Dict ℕ ℕ
  issuedAtMs : ℕ
  expiresAtMs : ℤ
  delivery : Option DeliveryContents := none

/-- The payload that is signed. -/
def TokenContents.payload (lib : CodecLibraries) (c : TokenContents) : List (String × Json) :=
  SignedCursorCodec.payload lib c.type c.resource c.topic c.positions c.issuedAtMs c.expiresAtMs ++
    match c.delivery with
    | none => []
    | some d => SignedCursorCodec.deliveryFields d.subscription d.consumerGroup d.assignmentEpoch
      d.attempt

/-- Two deliveries have the same contents. -/
structure DeliveryContents.Same (d d' : DeliveryContents) : Prop where
  subscription : d.subscription.str = d'.subscription.str
  consumerGroup : d.consumerGroup.str = d'.consumerGroup.str
  assignmentEpoch : d.assignmentEpoch = d'.assignmentEpoch
  attempt : d.attempt = d'.attempt

/-- Two tokens have the same contents. A reference is known by its text. -/
structure TokenContents.Same (c c' : TokenContents) : Prop where
  type : c.type = c'.type
  resource : c.resource.str = c'.resource.str
  topic : c.topic = c'.topic
  positions : ∀ p, c.positions.get? p = c'.positions.get? p
  issuedAtMs : c.issuedAtMs = c'.issuedAtMs
  expiresAtMs : c.expiresAtMs = c'.expiresAtMs
  delivery : Option.Rel DeliveryContents.Same c.delivery c'.delivery

theorem isPayload_payload (lib : CodecLibraries) (c : TokenContents) :
    IsPayload lib (c.payload lib) c.type c.resource c.topic c.positions c.expiresAtMs := by
  unfold TokenContents.payload
  cases c.delivery with
  | none =>
    rw [List.append_nil]
    exact IsPayload.of_payload _
  | some d => exact IsPayload.append_delivery _ _ _ _ _

theorem plain_payload (lib : CodecLibraries) (c : TokenContents) :
    Plain (.obj (c.payload lib)) := by
  have hpositions := plain_positionsJson c.positions.sorted
  have hvalues : ∀ f ∈ c.payload lib, Plain f.2 := by
    intro f hf
    rcases List.mem_append.mp hf with hf | hf
    · simp only [SignedCursorCodec.payload, List.mem_cons, List.not_mem_nil, or_false] at hf
      rcases hf with rfl | rfl | rfl | rfl | rfl | rfl
      exacts [⟨rfl, rfl⟩, ⟨rfl, rfl⟩, ⟨rfl, rfl⟩, hpositions, ⟨rfl, rfl⟩, ⟨rfl, rfl⟩]
    · split at hf
      · exact absurd hf List.not_mem_nil
      · simp only [SignedCursorCodec.deliveryFields, List.mem_cons, List.not_mem_nil,
          or_false] at hf
        rcases hf with rfl | rfl | rfl | rfl <;> exact ⟨rfl, rfl⟩
  refine ⟨?_, Json.keysDistinct_obj.mpr
    ⟨(isPayload_payload lib c).nodup, fun f hf => (hvalues f hf).keysDistinct⟩⟩
  rw [Json.floatFree, Json.floatFreeFields_eq, List.all_eq_true]
  exact fun f hf => (hvalues f hf).floatFree

theorem lookup_issuedAtMs (lib : CodecLibraries) (c : TokenContents) :
    (c.payload lib).lookup "issuedAtMs" = some (.int c.issuedAtMs) := by
  unfold TokenContents.payload
  cases c.delivery <;> rfl

/-- The fields of a delivery are there when there is one. -/
theorem lookup_delivery (lib : CodecLibraries) (c : TokenContents) :
    (c.payload lib).lookup "subscription" =
        c.delivery.map (fun d => Json.str d.subscription.str) ∧
      (c.payload lib).lookup "consumerGroup" =
        c.delivery.map (fun d => Json.str d.consumerGroup.str) ∧
      (c.payload lib).lookup "assignmentEpoch" =
        c.delivery.map (fun d => Json.int d.assignmentEpoch) ∧
      (c.payload lib).lookup "attempt" = c.delivery.map (fun d => Json.int d.attempt) := by
  unfold TokenContents.payload
  cases c.delivery with
  | none => exact ⟨rfl, rfl, rfl, rfl⟩
  | some d => exact ⟨rfl, rfl, rfl, rfl⟩

section Payloads

variable {lib : CodecLibraries} {c c' : TokenContents}

/-- Payloads that read the same have the same delivery. -/
theorem rel_delivery
    (hread : ∀ key, ((c.payload lib).lookup key).map Json.sorted =
      ((c'.payload lib).lookup key).map Json.sorted) :
    Option.Rel DeliveryContents.Same c.delivery c'.delivery := by
  obtain ⟨hsubscription, hgroup, hepoch, hattempt⟩ := lookup_delivery lib c
  obtain ⟨hsubscription', hgroup', hepoch', hattempt'⟩ := lookup_delivery lib c'
  have hread₁ := hread "subscription"
  have hread₂ := hread "consumerGroup"
  have hread₃ := hread "assignmentEpoch"
  have hread₄ := hread "attempt"
  rw [hsubscription, hsubscription'] at hread₁
  rw [hgroup, hgroup'] at hread₂
  rw [hepoch, hepoch'] at hread₃
  rw [hattempt, hattempt'] at hread₄
  -- one is there when the other is, since the payload then has a subscription
  cases hd : c.delivery with
  | none =>
    cases hd' : c'.delivery with
    | none => exact .none
    | some d' =>
      rw [hd, hd'] at hread₁
      exact absurd hread₁ (by simp)
  | some d =>
    cases hd' : c'.delivery with
    | none =>
      rw [hd, hd'] at hread₁
      exact absurd hread₁ (by simp)
    | some d' =>
      rw [hd, hd'] at hread₁ hread₂ hread₃ hread₄
      exact .some ⟨Json.str.inj (Option.some.inj hread₁), Json.str.inj (Option.some.inj hread₂),
        Int.ofNat.inj (Json.int.inj (Option.some.inj hread₃)),
        Int.ofNat.inj (Json.int.inj (Option.some.inj hread₄))⟩

/-- The payload is written from the contents, and the positions in the order of their keys. -/
theorem payload_congr (h : c.Same c') : c.payload lib = c'.payload lib := by
  unfold TokenContents.payload
  rw [SignedCursorCodec.payload, SignedCursorCodec.payload, h.type, h.resource, h.topic,
    Dict.sorted_eq_of_get?_eq h.positions, h.issuedAtMs, h.expiresAtMs]
  refine congrArg _ ?_
  have hrel := h.delivery
  generalize c.delivery = delivery, c'.delivery = delivery' at hrel
  cases hrel with
  | none => rfl
  | some hd =>
    dsimp only
    rw [SignedCursorCodec.deliveryFields, SignedCursorCodec.deliveryFields, hd.subscription,
      hd.consumerGroup, hd.assignmentEpoch, hd.attempt]

/-- **Payloads are the same when the contents of the tokens are**, as long as the fingerprints of
their topics do not collide. -/
theorem same_payload_iff {texts : Set (List UInt8)} (collisionFree : Set.InjOn lib.sha256 texts)
    (htopic : utf8 c.topic ∈ texts) (htopic' : utf8 c'.topic ∈ texts) :
    (Json.obj (c.payload lib)).same (.obj (c'.payload lib)) = true ↔ c.Same c' := by
  have payload := isPayload_payload lib c
  have payload' := isPayload_payload lib c'
  rw [← Json.sorted_eq_iff_same (plain_payload lib c).keysDistinct
    (plain_payload lib c').keysDistinct, Json.sorted_obj, Json.sorted_obj, Json.obj.injEq]
  constructor
  · intro h
    -- each field of the contents is read from both payloads
    have hread := (Json.sortFields_eq_iff_lookup payload.nodup payload'.nodup).mp h
    have htype := hread "type"
    have hresource := hread "resource"
    have hfingerprint := hread "topicFingerprint"
    have hpositions := hread "positions"
    have hissued := hread "issuedAtMs"
    have hexpires := hread "expiresAtMs"
    rw [payload.type, payload'.type] at htype
    rw [payload.resource, payload'.resource] at hresource
    rw [payload.topicFingerprint, payload'.topicFingerprint] at hfingerprint
    rw [payload.positions, payload'.positions] at hpositions
    rw [lookup_issuedAtMs, lookup_issuedAtMs] at hissued
    rw [payload.expiresAtMs, payload'.expiresAtMs] at hexpires
    refine ⟨TokenType.str_inj (Json.str.inj (Option.some.inj htype)),
      Json.str.inj (Option.some.inj hresource), ?_, fun p => ?_,
      Int.ofNat.inj (Json.int.inj (Option.some.inj hissued)),
      Json.int.inj (Option.some.inj hexpires), rel_delivery hread⟩
    · exact (topicFingerprint_eq_iff collisionFree htopic htopic').mp
        (Json.str.inj (Option.some.inj hfingerprint))
    · have hsame := (Json.sorted_eq_iff_same (plain_positionsJson c.positions.sorted).keysDistinct
        (plain_positionsJson c'.positions.sorted).keysDistinct).mp (Option.some.inj hpositions)
      rw [← Dict.get?_sorted c.positions, ← Dict.get?_sorted c'.positions]
      exact same_positionsJson_iff.mp hsame p
  · intro h
    rw [payload_congr h]

end Payloads

/-! ### Faithful keys -/

/-- **Canonical JSON is a faithful key.** The bytes of two accepted values without floating-point
numbers agree exactly when the values are equal but for the order of the keys and for lists being
tuples. Hence the fingerprints of two publications agree exactly when these publish the same
events to the same Stream, those of two groups when the topics and the positions are the same,
and the payloads of two tokens when their contents are. -/
theorem canonical_text_is_faithful {lib : CodecLibraries} (writes : lib.json.Writes)
    {texts : Set (List UInt8)} (collisionFree : Set.InjOn lib.sha256 texts) :
    (∀ (v w : PlainValue) (bytes bytes' : List UInt8),
      v.value.canonicalJsonBytes lib.json = .ok bytes →
      w.value.canonicalJsonBytes lib.json = .ok bytes' →
        (bytes = bytes' ↔ v.value.same w.value = true)) ∧
    (∀ command command' : PublishCommand, command.Plain → command'.Plain →
      lib.hashes.Hashed texts command.operation → lib.hashes.Hashed texts command'.operation →
        (lib.hashes.sha256Fingerprint command.operation =
            lib.hashes.sha256Fingerprint command'.operation ↔
          command.stream.ref.str = command'.stream.ref.str ∧
            List.Forall₂ (fun event event' => event.toDict.same event'.toDict = true)
              command.events command'.events)) ∧
    (∀ topic topic' positions positions' normalized normalized',
      utf8 topic ∈ texts → utf8 topic' ∈ texts →
        normalizePositions positions = some normalized →
        normalizePositions positions' = some normalized' →
        lib.hashes.Hashed texts (groupPositions lib topic normalized) →
        lib.hashes.Hashed texts (groupPositions lib topic' normalized') →
          (groupPositionFingerprint lib topic positions =
              groupPositionFingerprint lib topic' positions' ↔
            topic = topic' ∧ ∀ p, positions.get? p = positions'.get? p)) ∧
    ∀ c c' : TokenContents, utf8 c.topic ∈ texts → utf8 c'.topic ∈ texts → ∀ bytes bytes',
      lib.json.canonicalJsonBytes (.obj (c.payload lib)) = .ok bytes →
      lib.json.canonicalJsonBytes (.obj (c'.payload lib)) = .ok bytes' →
        (bytes = bytes' ↔ c.Same c') := by
  refine ⟨fun v w bytes bytes' h h' => PlainValue.canonicalJsonBytes_eq_iff_same writes h h',
    fun command command' plain plain' hashed hashed' => ?_,
    fun topic topic' positions positions' normalized normalized' htopic htopic' hnormal hnormal'
      hashed hashed' => ?_,
    fun c c' htopic htopic' bytes bytes' h h' => ?_⟩
  · rw [lib.hashes.fingerprint_eq_iff_same writes collisionFree plain.operation plain'.operation
      hashed hashed']
    exact same_operation_iff
  · exact groupPositionFingerprint_eq_iff writes collisionFree htopic htopic' hnormal hnormal'
      hashed hashed'
  · have plain := plain_payload lib c
    have plain' := plain_payload lib c'
    rw [writes.bytes_eq_iff plain.floatFree plain'.floatFree plain.keysDistinct
      plain'.keysDistinct h h']
    exact same_payload_iff collisionFree htopic htopic'

namespace FingerprintSample

/-- The digest is the sum of the bytes. -/
def libraries : CodecLibraries where
  json := plainJson
  sha256 bytes := Vector.replicate 32 (bytes.foldl (· + ·) 0)
  cursorFromMapping _ := .error none
  positionFromMapping _ := .error none
  deliveryTokenFromMapping _ := .error none

/-- The positions of a group with one partition. -/
def positions (offset : ℕ) : Dict ℕ ℕ := Dict.empty.set 0 offset

def groupText (offset : ℕ) : List UInt8 :=
  (groupPositions libraries "orders" (positions offset)).sorted.bytes

/-- What is hashed: a topic, and two groups. -/
def texts : List (List UInt8) := [utf8 "orders", groupText 5, groupText 6]

theorem collisionFree : Set.InjOn libraries.sha256 {text | text ∈ texts} := by
  have hall : ∀ text ∈ texts, ∀ text' ∈ texts,
      libraries.sha256 text = libraries.sha256 text' → text = text' := by decide +kernel
  exact fun text htext text' htext' => hall text htext text' htext'

theorem hashed {offset : ℕ} (hmem : groupText offset ∈ texts)
    (hportable : portable (groupPositions libraries "orders" (positions offset)) = true) :
    libraries.hashes.Hashed {text | text ∈ texts}
      (groupPositions libraries "orders" (positions offset)) := by
  refine ⟨groupText offset, hmem, ?_⟩
  have hfree := (plain_groupPositions libraries "orders" (positions offset)).floatFree
  exact (if_pos hportable).trans (plainJson_compact _ hfree)

/-- A mapping with one key. -/
def single (value : PyValue) : PyValue := .mapping [(some (PyText.ofString "a"), value)]

def listed : PlainValue := ⟨single (.list [.int 1]), rfl, by decide⟩

def paired : PlainValue := ⟨single (.tuple [.int 1]), rfl, by decide⟩

def flagged : PlainValue := ⟨single (.tuple [.bool true]), rfl, by decide⟩

end FingerprintSample

/-- An offset changes the fingerprint of a group. The bytes of a list are those of a tuple, and
the bytes of a number are not those of a boolean. -/
theorem sample_texts_are_faithful :
    groupPositionFingerprint FingerprintSample.libraries "orders" (FingerprintSample.positions 5) ≠
        groupPositionFingerprint FingerprintSample.libraries "orders"
          (FingerprintSample.positions 6) ∧
      ∃ bytes bytes' bytes'',
        FingerprintSample.listed.value.canonicalJsonBytes plainJson = .ok bytes ∧
        FingerprintSample.paired.value.canonicalJsonBytes plainJson = .ok bytes' ∧
        FingerprintSample.flagged.value.canonicalJsonBytes plainJson = .ok bytes'' ∧
          bytes = bytes' ∧ bytes ≠ bytes'' := by
  have hwrites : FingerprintSample.libraries.json.Writes := plainJson_compact.writes
  obtain ⟨hvalues, -, hgroups, -⟩ := canonical_text_is_faithful hwrites
    FingerprintSample.collisionFree
  refine ⟨fun h => ?_, ?_⟩
  · -- The two group positions differ at partition `0` only.
    have hsame := (hgroups "orders" "orders" _ _ _ _ List.mem_cons_self List.mem_cons_self rfl rfl
      (FingerprintSample.hashed (by decide +kernel) (by decide +kernel))
      (FingerprintSample.hashed (by decide +kernel) (by decide +kernel))).mp h
    exact absurd (hsame.2 0) (by decide)
  · obtain ⟨bytes, h⟩ := exists_ok_of_toBool
      (show (FingerprintSample.listed.value.canonicalJsonBytes plainJson).toBool = true by
        decide +kernel)
    obtain ⟨bytes', h'⟩ := exists_ok_of_toBool
      (show (FingerprintSample.paired.value.canonicalJsonBytes plainJson).toBool = true by
        decide +kernel)
    obtain ⟨bytes'', h''⟩ := exists_ok_of_toBool
      (show (FingerprintSample.flagged.value.canonicalJsonBytes plainJson).toBool = true by
        decide +kernel)
    refine ⟨bytes, bytes', bytes'', h, h', h'', ?_, fun heq => ?_⟩
    · exact (hvalues _ _ bytes bytes' h h').mpr (by decide)
    · exact absurd ((hvalues _ _ bytes bytes'' h h'').mp heq) (by decide)

end MeridianKafka
