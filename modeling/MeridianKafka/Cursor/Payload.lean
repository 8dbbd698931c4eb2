import MeridianKafka.Contract

/-!
# Token payloads

A Cursor, position or delivery text is a signed payload. This module is the cursor
codec with the payload in the clear: what `encode_*` puts into a token and what
`decode_*` checks before it answers, without the signature around it. The payload
carries the topic itself where the source carries its fingerprint.

The texts are read back by `payloadCodec` exactly as they were written, up to the
order of the positions and as long as they have not expired
(`payloadCodec_sealsDeliveries`, `decodeCursor_of_encodeCursor`).
-/

namespace MeridianKafka

open Framework

/-- The semantic type of a token. -/
inductive TokenType
  | cursor
  | position
  | delivery
  deriving DecidableEq, Repr

/-- What a token signs. -/
structure TokenPayload where
  type : TokenType
  resource : String
  topic : String
  positions : Dict ℕ ℕ
  issuedAtMs : ℕ
  expiresAtMs : ℕ
  subscription : Option String := none
  consumerGroup : Option String := none
  assignmentEpoch : Option ℕ := none
  attempt : Option ℕ := none
  deriving DecidableEq

/-- The bound on the number of positions of a cursor. -/
def maxCursorPartitions : ℕ := 128

namespace TokenPayload

/-- `_positions`: a bounded, non-empty map, in the order of the partitions. -/
def normalizePositions (positions : Dict ℕ ℕ) : Option (Dict ℕ ℕ) :=
  if 1 ≤ positions.entries.length ∧ positions.entries.length ≤ maxCursorPartitions then
    some positions.sorted
  else none

/-- Why a payload is refused. -/
inductive Refusal
  | expired
  | invalid
  deriving DecidableEq, Repr

/-- The checks of `TokenCodec.decode` on a payload. -/
def check (payload : TokenPayload) (nowMs : ℕ) (expected : TokenType) : Option Refusal :=
  if payload.type ≠ expected then some .invalid
  else if payload.expiresAtMs < 1 then some .invalid
  else if nowMs ≥ payload.expiresAtMs then some .expired
  else none

/-- `_validate_resource_and_topic`. -/
def targets (payload : TokenPayload) (resource : ResourceRef) (topic : String) : Bool :=
  payload.resource = resource.str && payload.topic = topic

/-- The one coordinate of a position or delivery. -/
def coordinate (payload : TokenPayload) : Option (ℕ × ℕ) :=
  match payload.positions.entries with
  | [coordinate] => some coordinate
  | _ => none

end TokenPayload

open TokenPayload

/-- `KafkaCursorCodec` on payloads, for a time to live. -/
def payloadCodec (ttlMs : ℕ) : KafkaCursorCodec TokenPayload where
  encodeDelivery nowMs topic c :=
    { type := .delivery
      resource := c.subscription.str
      topic
      positions := Dict.empty.set c.partition c.offset
      issuedAtMs := nowMs
      expiresAtMs := c.expiresAtMs
      subscription := c.subscription.str
      consumerGroup := c.consumerGroup.str
      assignmentEpoch := c.assignmentEpoch
      attempt := c.attempt }
  decodeDelivery nowMs payload subscription consumerGroup topic :=
    let rejected : Failure :=
      { kind := .deliveryRejected
        message := "delivery token integrity or scope validation failed" }
    match payload.check nowMs .delivery with
    | some .expired =>
      .error { kind := .deliveryTimeout, requirement := "delivery.acknowledgement-timeout" }
    | some .invalid => .error rejected
    | none =>
      if payload.targets subscription topic && payload.subscription = subscription.str &&
          payload.consumerGroup = consumerGroup.str then
        match payload.coordinate, payload.assignmentEpoch, payload.attempt with
        | some (partition, offset), some assignmentEpoch, some attempt =>
          if attempt < 1 then .error rejected
          else .ok
            { subscription, consumerGroup, partition, offset, assignmentEpoch, attempt
              expiresAtMs := payload.expiresAtMs }
        | _, _, _ => .error rejected
      else .error rejected
  encodeCursor nowMs resource topic positions :=
    match normalizePositions positions with
    | some positions =>
      .ok
        { type := .cursor
          resource := resource.str
          topic
          positions
          issuedAtMs := nowMs
          expiresAtMs := nowMs + ttlMs }
    | none => .error .other
  decodeCursor nowMs payload resource topic :=
    let invalid : Failure :=
      { kind := .invalidCursor, message := "Cursor integrity or shape validation failed" }
    match payload.check nowMs .cursor with
    | some .expired => .error { kind := .cursorExpired, requirement := "cursor.expiry" }
    | some .invalid => .error invalid
    | none =>
      if payload.targets resource topic then
        match normalizePositions payload.positions with
        | some positions => .ok positions
        | none => .error invalid
      else .error invalid
  decodePosition nowMs payload resource topic :=
    let invalid : Failure :=
      { kind := .invalidCursor, message := "Position integrity or shape validation failed" }
    match payload.check nowMs .position with
    | some .expired => .error { kind := .cursorExpired, requirement := "position.expiry" }
    | some .invalid => .error invalid
    | none =>
      if payload.targets resource topic then
        match payload.coordinate with
        | some coordinate => .ok coordinate
        | none => .error invalid
      else .error invalid
  groupPositionFingerprint topic positions :=
    match normalizePositions positions with
    | some positions =>
      .ok (topic ++ ":" ++ String.intercalate ","
        (positions.entries.map fun e => toString e.1 ++ "=" ++ toString e.2))
    | none => .error .other

/-- A delivery token gives its coordinates back until it expires. -/
def KafkaCursorCodec.SealsDeliveries {Token : Type} (cursor : KafkaCursorCodec Token) : Prop :=
  ∀ (issuedMs nowMs : ℕ) (topic : String) (c : DeliveryCoordinates), nowMs < c.expiresAtMs →
    1 ≤ c.attempt →
    cursor.decodeDelivery nowMs (cursor.encodeDelivery issuedMs topic c) c.subscription
      c.consumerGroup topic = .ok c

theorem payloadCodec_sealsDeliveries (ttlMs : ℕ) : (payloadCodec ttlMs).SealsDeliveries := by
  intro issuedMs nowMs topic c live attempt
  have hcheck : ((payloadCodec ttlMs).encodeDelivery issuedMs topic c).check nowMs .delivery =
      none := by
    unfold TokenPayload.check payloadCodec
    dsimp only
    rw [if_neg (by simp), if_neg (by omega), if_neg (by omega)]
  have hattempt : ¬c.attempt < 1 := by omega
  change (match ((payloadCodec ttlMs).encodeDelivery issuedMs topic c).check nowMs .delivery with
    | some .expired => _ | some .invalid => _ | none => _) = _
  rw [hcheck]
  simp [payloadCodec, targets, coordinate, Dict.set, Dict.empty, Dict.get?, hattempt]

/-- A delivery token carries its key: whoever reads it, and whenever, reads the key
that was written. -/
structure KafkaCursorCodec.CarriesKey {Token : Type} (cursor : KafkaCursorCodec Token)
    (keyOf : Token → DeliveryKey) : Prop where
  written : ∀ (issuedMs : ℕ) (topic : String) (c : DeliveryCoordinates),
    keyOf (cursor.encodeDelivery issuedMs topic c) = c.key
  read : ∀ (nowMs : ℕ) (value : Token) (subscription consumerGroup : ResourceRef)
    (topic : String) (c : DeliveryCoordinates),
    cursor.decodeDelivery nowMs value subscription consumerGroup topic = .ok c →
      keyOf value = c.key

/-- The key in a payload. -/
def TokenPayload.deliveryKey (payload : TokenPayload) : DeliveryKey where
  partition := (payload.coordinate.getD (0, 0)).1
  offset := (payload.coordinate.getD (0, 0)).2
  assignmentEpoch := payload.assignmentEpoch.getD 0
  attempt := payload.attempt.getD 0

/-- A delivery token that is read was written for the scope it is read under, and holds
the coordinates that are read. -/
theorem payloadCodec_decodeDelivery_ok {ttlMs nowMs : ℕ} {payload : TokenPayload}
    {subscription consumerGroup : ResourceRef} {topic : String} {c : DeliveryCoordinates}
    (h : (payloadCodec ttlMs).decodeDelivery nowMs payload subscription consumerGroup topic =
      .ok c) :
    (payload.subscription = subscription.str ∧ payload.consumerGroup = consumerGroup.str) ∧
      payload.coordinate = some (c.partition, c.offset) ∧
      payload.assignmentEpoch = some c.assignmentEpoch ∧ payload.attempt = some c.attempt := by
  unfold payloadCodec at h
  dsimp only at h
  split at h
  · simp at h
  · simp at h
  split at h
  swap
  · simp at h
  next hscope =>
  rw [Bool.and_eq_true, Bool.and_eq_true, decide_eq_true_eq, decide_eq_true_eq] at hscope
  split at h
  swap
  · simp at h
  next partition offset epoch attempt hcoordinate hepoch hattempt =>
  split at h
  · simp at h
  · obtain rfl := Except.ok.inj h
    exact ⟨⟨hscope.1.2, hscope.2⟩, hcoordinate, hepoch, hattempt⟩

theorem payloadCodec_carriesKey (ttlMs : ℕ) :
    (payloadCodec ttlMs).CarriesKey TokenPayload.deliveryKey where
  written issuedMs topic c := by
    simp [payloadCodec, deliveryKey, coordinate, Dict.set, Dict.empty, Dict.get?,
      DeliveryCoordinates.key]
  read nowMs payload subscription consumerGroup topic c hdecodes := by
    obtain ⟨-, hcoordinate, hepoch, hattempt⟩ := payloadCodec_decodeDelivery_ok hdecodes
    simp [deliveryKey, DeliveryCoordinates.key, hcoordinate, hepoch, hattempt]

/-- A delivery token carries its scope, the Subscription and the ConsumerGroup that it was
written for: whoever reads it asks for this scope. -/
structure KafkaCursorCodec.CarriesScope {Token : Type} (cursor : KafkaCursorCodec Token)
    (scopeOf : Token → String × String) : Prop where
  written : ∀ (issuedMs : ℕ) (topic : String) (c : DeliveryCoordinates),
    scopeOf (cursor.encodeDelivery issuedMs topic c) = (c.subscription.str, c.consumerGroup.str)
  read : ∀ (nowMs : ℕ) (value : Token) (subscription consumerGroup : ResourceRef)
    (topic : String) (c : DeliveryCoordinates),
    cursor.decodeDelivery nowMs value subscription consumerGroup topic = .ok c →
      scopeOf value = (subscription.str, consumerGroup.str)

/-- The scope in a payload. -/
def TokenPayload.scope (payload : TokenPayload) : String × String :=
  (payload.subscription.getD "", payload.consumerGroup.getD "")

theorem payloadCodec_carriesScope (ttlMs : ℕ) :
    (payloadCodec ttlMs).CarriesScope TokenPayload.scope where
  written issuedMs topic c := rfl
  read nowMs payload subscription consumerGroup topic c hdecodes := by
    obtain ⟨⟨hsubscription, hgroup⟩, -⟩ := payloadCodec_decodeDelivery_ok hdecodes
    simp [TokenPayload.scope, hsubscription, hgroup]

/-- A Cursor gives its positions back, in the order of the partitions, until it
expires. -/
theorem decodeCursor_of_encodeCursor {ttlMs issuedMs nowMs : ℕ} {resource : ResourceRef}
    {topic : String} {positions : Dict ℕ ℕ} {payload : TokenPayload}
    (encoded : (payloadCodec ttlMs).encodeCursor issuedMs resource topic positions = .ok payload)
    (live : nowMs < issuedMs + ttlMs) :
    ∃ positions', (payloadCodec ttlMs).decodeCursor nowMs payload resource topic =
        .ok positions' ∧ ∀ p, positions'.get? p = positions.get? p := by
  unfold payloadCodec at encoded
  dsimp only at encoded
  split at encoded
  · next sorted hsorted =>
    obtain rfl := Except.ok.inj encoded
    unfold normalizePositions at hsorted
    split at hsorted
    · next hbound =>
      obtain rfl := Option.some.inj hsorted
      have hlength : positions.sorted.entries.length = positions.entries.length :=
        List.length_insertionSort _ _
      -- decoding sorts once more, which moves no position
      refine ⟨positions.sorted.sorted, ?_, fun p => by simp⟩
      have hpositive : ¬(issuedMs = 0 ∧ ttlMs = 0) := by omega
      simp [payloadCodec, TokenPayload.check, targets, normalizePositions, hpositive,
        not_le.mpr live, hlength, hbound]
    · simp at hsorted
  · simp at encoded

end MeridianKafka
