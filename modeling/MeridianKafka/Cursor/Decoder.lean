import MeridianKafka.Cursor.RoundTrip
import MeridianKafka.Text

/-!
# What the decoder raises

The reading half of the codec with the exceptions of its steps. A step raises a `TypeError`,
a `ValueError` or a `KeyError`, which the readers answer with a failure of their own, or
something else, which they let through. `base64.b64decode`, `json.loads` and HMAC are
parameters here, and a token is any text, a surrogate that stands alone included.

Whatever `b64decode` lets through and whatever function HMAC is, a token that is accepted is
the one text of its key, its body and their signature; and a text comes to coordinates or to
one of the two failures of its reader, as long as what it has under a valid signature was
written by the codec (`decode_fails_closed`). With the libraries of `Codec` the readers are
those of `Codec` (`readers_eq`).
-/

namespace MeridianKafka

open Framework TokenPayload TokenCodec

/-- The exceptions that the readers tell apart. Malformed base64 and JSON, and a text that
has no encoding, are `ValueError`s. -/
inductive TokenError
  | tokenExpired
  | typeError
  | valueError
  | keyError
  | other
  deriving DecidableEq, Repr

structure DecoderLibraries where
  /-- `hmac.digest(key, message, "sha256")`. -/
  hmac : List UInt8 → List UInt8 → Vector UInt8 32
  /-- The fingerprint of a topic. -/
  topicFingerprint : String → String
  /-- `base64.b64decode(text, altchars=b"-_", validate=True)`. -/
  b64decode : String → Except TokenError (List UInt8)
  /-- `json.loads`. -/
  loads : List UInt8 → Except TokenError Json

namespace Decoder

variable (lib : DecoderLibraries) (codec : TokenCodec)

/-! ### The steps of `decode` -/

/-- The characters of a text that can be encoded. -/
def characters (token : PyText) : Except TokenError String :=
  match token.mapM id with
  | some chars => .ok (String.ofList chars)
  | none => .error .valueError

/-- `"=" * (-len(value) % 4)`. -/
def padding (value : String) : String :=
  String.ofList (List.replicate ((4 - value.toList.length % 4) % 4) '=')

/-- `_unb64`. -/
def unb64 (value : String) : Except TokenError (List UInt8) :=
  if value = "" then .error .valueError
  else do
    let decoded ← lib.b64decode (value ++ padding value)
    if b64 decoded ≠ value then .error .valueError else return decoded

/-- `str.encode("ascii")`. -/
def encodeAscii (text : String) : Except TokenError (List UInt8) :=
  match ascii text with
  | some bytes => .ok bytes
  | none => .error .valueError

/-- The bytes under a signature, once the parts of the token are known. -/
def verifyParts (keyId body encodedSignature : String) : Except TokenError (List UInt8) :=
  match codec.keys.get? keyId with
  | none => .error .valueError
  | some key => do
    let message ← encodeAscii (signedText keyId body)
    let signature ← unb64 lib encodedSignature
    if (lib.hmac key.key message).toList ≠ signature then .error .valueError
    else do
      let decoded ← unb64 lib body
      if decoded.length > maxTokenBytes then .error .valueError else return decoded

/-- `decode` up to the bytes of the payload. -/
def verify (token : PyText) : Except TokenError (List UInt8) := do
  let token ← characters token
  if token = "" ∨ token.utf8ByteSize > maxTokenBytes then .error .valueError
  else
    match (token.toList.splitOn '.').map String.ofList with
    | [format, keyId, body, encodedSignature] =>
      if format ≠ tokenFormat then .error .valueError
      else verifyParts lib codec keyId body encodedSignature
    | _ => .error .valueError

/-- `closed_object`. -/
def closedObject (required optional : List String) : Json → Except TokenError (List (String × Json))
  | .obj fields =>
    if closedFields required optional (fields.map Prod.fst) then .ok fields
    else .error .valueError
  | _ => .error .typeError

/-- `item[name]`. -/
def field (item : List (String × Json)) (name : String) : Except TokenError Json :=
  match item.lookup name with
  | some value => .ok value
  | none => .error .keyError

/-- `item[name] != text` raises. -/
def requireText (item : List (String × Json)) (name text : String) : Except TokenError Unit := do
  match ← field item name with
  | .str value => if value = text then return else .error .valueError
  | _ => .error .valueError

/-- `_integer` of a field. -/
def integerField (item : List (String × Json)) (name : String) (minimum : ℤ) :
    Except TokenError ℤ := do
  let value ← field item name
  match integer minimum (some value) with
  | some n => return n
  | none => .error .valueError

/-- `decode` from the value of the payload on. -/
def checkItem (nowMs : ℕ) (expected : TokenType) (value : Json) :
    Except TokenError (List (String × Json)) := do
  let item ← closedObject tokenFields optionalTokenFields value
  requireText item "type" expected.str
  let expiry ← integerField item "expiresAtMs" 1
  if nowMs ≥ expiry then .error .tokenExpired else return item

/-- `TokenCodec.decode`. -/
def decode (nowMs : ℕ) (token : PyText) (expected : TokenType) :
    Except TokenError (List (String × Json)) := do
  let decoded ← verify lib codec token
  let value ← lib.loads decoded
  checkItem nowMs expected value

/-! ### The readers -/

/-- `_validate_resource_and_topic`. -/
def validate (item : List (String × Json)) (resource : ResourceRef) (topic : String) :
    Except TokenError Unit := do
  requireText item "resource" resource.str
  requireText item "topicFingerprint" (lib.topicFingerprint topic)

/-- `_parse_positions` of the field. -/
def positionsField (item : List (String × Json)) : Except TokenError (Dict ℕ ℕ) := do
  match ← field item "positions" with
  | .obj fields =>
    match parsePositions (some (.obj fields)) with
    | some positions => return positions
    | none => .error .valueError
  | _ => .error .typeError

/-- The one coordinate of the positions. -/
def coordinateField (item : List (String × Json)) : Except TokenError (ℕ × ℕ) := do
  let positions ← positionsField item
  match positions.entries with
  | [coordinate] => return coordinate
  | _ => .error .valueError

def readCursor (resource : ResourceRef) (topic : String) (item : List (String × Json)) :
    Except TokenError CursorCoordinates := do
  validate lib item resource topic
  let positions ← positionsField item
  let expiresAtMs ← integerField item "expiresAtMs" 1
  return { resource, positions, expiresAtMs }

def readPosition (resource : ResourceRef) (topic : String) (item : List (String × Json)) :
    Except TokenError PositionCoordinates := do
  validate lib item resource topic
  let (partition, offset) ← coordinateField item
  return { resource, partition, offset }

def readDelivery (subscription consumerGroup : ResourceRef) (topic : String)
    (item : List (String × Json)) : Except TokenError DeliveryCoordinates := do
  validate lib item subscription topic
  requireText item "subscription" subscription.str
  requireText item "consumerGroup" consumerGroup.str
  let (partition, offset) ← coordinateField item
  let assignmentEpoch ← integerField item "assignmentEpoch" 0
  let attempt ← integerField item "attempt" 1
  let expiresAtMs ← integerField item "expiresAtMs" 1
  return { subscription, consumerGroup, partition, offset
           assignmentEpoch := assignmentEpoch.toNat
           attempt := attempt.toNat
           expiresAtMs := expiresAtMs.toNat }

/-- The `except` clauses of a reader. -/
def answering {α : Type} (expired invalid : Failure) : Except TokenError α → Except Raised α
  | .ok coordinates => .ok coordinates
  | .error .tokenExpired => .error (.failure expired)
  | .error .typeError | .error .valueError | .error .keyError => .error (.failure invalid)
  | .error .other => .error .other

/-- A reader on a text. -/
def decodeText {α : Type} (nowMs : ℕ) (token : PyText) (type : TokenType)
    (expired invalid : Failure) (read : List (String × Json) → Except TokenError α) :
    Except Raised α :=
  answering expired invalid (decode lib codec nowMs token type >>= read)

def decodeCursor (nowMs : ℕ) (token : PyText) (resource : ResourceRef) (topic : String) :
    Except Raised CursorCoordinates :=
  decodeText lib codec nowMs token .cursor
    { kind := .cursorExpired, requirement := "cursor.expiry" }
    { kind := .invalidCursor, message := "Cursor integrity or shape validation failed" }
    (readCursor lib resource topic)

def decodePosition (nowMs : ℕ) (token : PyText) (resource : ResourceRef) (topic : String) :
    Except Raised PositionCoordinates :=
  decodeText lib codec nowMs token .position
    { kind := .cursorExpired, requirement := "position.expiry" }
    { kind := .invalidCursor, message := "Position integrity or shape validation failed" }
    (readPosition lib resource topic)

def decodeDelivery (nowMs : ℕ) (token : PyText) (subscription consumerGroup : ResourceRef)
    (topic : String) : Except Raised DeliveryCoordinates :=
  decodeText lib codec nowMs token .delivery
    { kind := .deliveryTimeout, requirement := "delivery.acknowledgement-timeout" }
    { kind := .deliveryRejected
      message := "delivery token integrity or scope validation failed" }
    (readDelivery lib subscription consumerGroup topic)

/-! ### The one text of a token -/

variable {lib : DecoderLibraries} {codec : TokenCodec}

theorem characters_eq_ok {token : PyText} {s : String} (h : characters token = .ok s) :
    token = PyText.ofString s := by
  unfold characters at h
  split at h
  · next chars hchars =>
    obtain rfl := Except.ok.inj h
    rw [PyText.ofString, String.toList_ofList]
    exact PyText.mapM_id_eq_some_iff.mp hchars
  · simp at h

theorem characters_ofString (s : String) : characters (PyText.ofString s) = .ok s := by
  unfold characters
  rw [PyText.mapM_id_eq_some_iff.mpr (show PyText.ofString s = s.toList.map some from rfl)]
  exact congrArg _ String.ofList_toList

/-- Only the canonical text of some bytes is decoded, whatever the library lets through. -/
theorem ensures_unb64 {value : String} :
    Ensures (unb64 lib value) fun decoded => value = b64 decoded := by
  refine .ite (fun _ => .error) fun _ => .bind fun decoded _ => ?_
  exact .ite (fun _ => .error) fun hsame => .pure (not_not.mp hsame).symm

/-- A text of three dots has the parts that it was joined from. -/
theorem splitOn_eq_four {keyId body signature : String} {parts : List String}
    (h : ((signedText keyId body ++ "." ++ signature).toList.splitOn '.').map String.ofList = parts)
    (four : parts.length = 4) : parts = [tokenFormat, keyId, body, signature] := by
  have htoList : (signedText keyId body ++ "." ++ signature).toList =
      tokenFormat.toList ++ '.' :: (keyId.toList ++ '.' :: (body.toList ++ '.' ::
        signature.toList)) := by
    simp [signedText, String.toList_append]
  rw [htoList, List.splitOn_append_cons_self_of_not_mem (by decide +kernel),
    List.splitOn_append_cons_self, List.splitOn_append_cons_self] at h
  -- There are four parts, and the three behind the format have one at least.
  have hlength := congrArg List.length h
  rw [List.length_map, List.length_cons, List.length_append, List.length_append, four] at hlength
  -- each of the three is split into one part, which is itself
  have hwhole : ∀ l : List Char, (l.splitOn '.').length = 1 → l.splitOn '.' = [l] := by
    intro l hl
    obtain ⟨part, hpart⟩ := List.length_eq_one_iff.mp hl
    have hjoin : ['.'].intercalate (l.splitOn '.') = l := List.intercalate_splitOn '.'
    rw [hpart, List.intercalate_singleton] at hjoin
    rw [hpart, hjoin]
  have hpositive : ∀ l : List Char, 1 ≤ (l.splitOn '.').length := fun l =>
    List.length_pos_iff.mpr (List.splitOn_ne_nil '.' l)
  have hkeyId := hpositive keyId.toList
  have hbody := hpositive body.toList
  have hsignature := hpositive signature.toList
  rw [hwhole _ (by omega), hwhole _ (by omega), hwhole _ (by omega)] at h
  rw [← h]
  simp only [List.cons_append, List.nil_append, List.map_cons, List.map_nil, String.ofList_toList]

/-- What the parts of a token are, when their signature is the right one. -/
structure Signed (lib : DecoderLibraries) (codec : TokenCodec) (keyId body signature : String)
    (decoded : List UInt8) : Prop where
  signature : ∃ key message, codec.keys.get? keyId = some key ∧
    ascii (signedText keyId body) = some message ∧
    signature = b64 (lib.hmac key.key message).toList
  body : body = b64 decoded

theorem ensures_verifyParts {keyId body signature : String} :
    Ensures (verifyParts lib codec keyId body signature) (Signed lib codec keyId body signature) := by
  unfold verifyParts
  generalize hfound : codec.keys.get? keyId = found
  cases found with
  | none => exact .error
  | some key =>
    refine .bind fun message hmessage => .andThen ensures_unb64 fun decoded hsignature => ?_
    -- The text of the signature is the canonical one of its bytes, and these are the HMAC.
    refine .ite (fun _ => .error) fun hsame => ?_
    refine .andThen ensures_unb64 fun decoded' hbody => ?_
    refine .ite (fun _ => .error) fun _ => .pure ⟨⟨key, message, hfound, ?_, ?_⟩, hbody⟩
    · unfold encodeAscii at hmessage
      split at hmessage
      · next bytes hbytes =>
        obtain rfl := Except.ok.inj hmessage
        exact hbytes
      · simp at hmessage
    · rw [hsignature, not_not.mp hsame]

/-- **A token that is verified** is the text of its four parts. -/
theorem ensures_verify {token : PyText} :
    Ensures (verify lib codec token) fun decoded => ∃ keyId body signature,
      token = PyText.ofString (signedText keyId body ++ "." ++ signature) ∧
        Signed lib codec keyId body signature decoded := by
  refine .bind fun text htext => .ite (fun _ => .error) fun _ => ?_
  generalize hparts : (text.toList.splitOn '.').map String.ofList = parts
  split
  swap
  · exact .error
  next format keyId body signature =>
  refine .ite (fun _ => .error) fun hformat => .mono ensures_verifyParts fun decoded hsigned => ?_
  refine ⟨keyId, body, signature, ?_, hsigned⟩
  -- The parts between the dots are joined back to the text.
  obtain rfl := not_not.mp hformat
  have hsplit : text.toList.splitOn '.' =
      [tokenFormat.toList, keyId.toList, body.toList, signature.toList] := by
    have hlists := congrArg (List.map String.toList) hparts
    rw [List.map_map] at hlists
    refine Eq.trans ?_ hlists
    refine (List.map_id _).symm.trans (List.map_congr_left fun part _ => ?_)
    exact String.toList_ofList.symm
  have hjoin : ['.'].intercalate (text.toList.splitOn '.') = text.toList :=
    List.intercalate_splitOn '.'
  rw [hsplit] at hjoin
  rw [characters_eq_ok htext]
  refine congrArg PyText.ofString (String.toList_injective ?_)
  rw [← hjoin]
  simp [signedText, String.toList_append]

/-- What a ring finds is one of its keys, under its own id. -/
theorem mem_of_get?_create {keys : List TokenKey} {codec : TokenCodec}
    (created : TokenCodec.create keys = .ok codec) (unique : (keys.map TokenKey.keyId).Nodup)
    {keyId : String} {key : TokenKey} (found : codec.keys.get? keyId = some key) :
    key ∈ keys ∧ key.keyId = keyId := by
  unfold TokenCodec.create at created
  split at created
  swap
  · simp at created
  obtain rfl := Except.ok.inj created
  -- The dictionary of the ring keeps every key, since their ids are unique.
  have hnodup : ((keys.map fun key => (key.keyId, key)).map Prod.fst).Nodup := by
    rw [List.map_map]
    exact unique
  change (Dict.ofList _).get? keyId = some key at found
  rw [Dict.get?_ofList hnodup] at found
  have hmem := (@Dict.mem_entries_iff _ _ _ ⟨_, hnodup⟩ keyId key).mpr found
  obtain ⟨key', hkey', heq⟩ := List.mem_map.mp hmem
  obtain ⟨rfl, rfl⟩ := Prod.mk.inj heq
  exact ⟨hkey', rfl⟩

/-- A token whose parts are given has the signature of these parts. -/
theorem signed_of_verify {keyId body signature : String} {decoded : List UInt8}
    (h : verify lib codec (PyText.ofString (signedText keyId body ++ "." ++ signature)) =
      .ok decoded) : Signed lib codec keyId body signature decoded := by
  unfold verify at h
  rw [characters_ofString] at h
  obtain ⟨text, htext, hrest⟩ := exists_of_bind_eq_ok h
  obtain rfl := Except.ok.inj htext
  split at hrest
  · simp at hrest
  generalize hparts : ((signedText keyId body ++ "." ++ signature).toList.splitOn '.').map
    String.ofList = parts at hrest
  split at hrest
  swap
  · simp at hrest
  next format keyId' body' signature' =>
  -- A part with a dot in it would have been split further.
  have hsame := splitOn_eq_four hparts rfl
  simp only [List.cons.injEq] at hsame
  obtain ⟨rfl, rfl, rfl, rfl, -⟩ := hsame
  rw [if_neg (not_not_intro rfl)] at hrest
  exact ensures_verifyParts decoded hrest

/-! ### What a step raises -/

/-- A `TypeError`, a `ValueError` or a `KeyError`. -/
def Bare (e : TokenError) : Prop := e ≠ .tokenExpired ∧ e ≠ .other

instance (e : TokenError) : Decidable (Bare e) := inferInstanceAs (Decidable (_ ∧ _))

theorem bare_valueError : Bare .valueError := by decide

theorem raises_unb64 (b64decode : ∀ text, Raises (lib.b64decode text) (· = .valueError))
    {value : String} : Raises (unb64 lib value) Bare := by
  refine .ite (fun _ => .error bare_valueError) fun _ => ?_
  refine .bind ((b64decode _).mono ?_) fun decoded _ => ?_
  · rintro e rfl
    exact bare_valueError
  · exact .ite (fun _ => .error bare_valueError) fun _ => .pure

theorem raises_encodeAscii {text : String} : Raises (encodeAscii text) Bare := by
  unfold encodeAscii
  cases ascii text with
  | some bytes => exact .pure
  | none => exact .error bare_valueError

theorem raises_verifyParts (b64decode : ∀ text, Raises (lib.b64decode text) (· = .valueError))
    {keyId body signature : String} :
    Raises (verifyParts lib codec keyId body signature) Bare := by
  unfold verifyParts
  cases codec.keys.get? keyId with
  | none => exact .error bare_valueError
  | some key =>
    refine .bind raises_encodeAscii fun message _ => ?_
    refine .bind (raises_unb64 b64decode) fun decoded _ => ?_
    refine .ite (fun _ => .error bare_valueError) fun _ => ?_
    refine .bind (raises_unb64 b64decode) fun decoded' _ => ?_
    exact .ite (fun _ => .error bare_valueError) fun _ => .pure

theorem raises_verify (b64decode : ∀ text, Raises (lib.b64decode text) (· = .valueError))
    {token : PyText} : Raises (verify lib codec token) Bare := by
  unfold verify
  refine .bind ?_ fun text _ => .ite (fun _ => .error bare_valueError) fun _ => ?_
  · unfold characters
    cases token.mapM id with
    | some chars => exact .pure
    | none => exact .error bare_valueError
  · split
    · exact .ite (fun _ => .error bare_valueError) fun _ => raises_verifyParts b64decode
    · exact .error bare_valueError

section Payload

variable {item : List (String × Json)} {name text : String} {minimum : ℤ}

theorem raises_field : Raises (field item name) Bare := by
  unfold field
  cases item.lookup name with
  | some value => exact .pure
  | none => exact .error (by decide)

theorem raises_requireText : Raises (requireText item name text) Bare := by
  refine .bind raises_field fun value _ => ?_
  split
  · exact .ite (fun _ => .pure) fun _ => .error bare_valueError
  · exact .error bare_valueError

theorem raises_integerField : Raises (integerField item name minimum) Bare := by
  refine .bind raises_field fun value _ => ?_
  cases integer minimum (some value) with
  | some n => exact .pure
  | none => exact .error bare_valueError

theorem raises_positionsField : Raises (positionsField item) Bare := by
  refine .bind raises_field fun value _ => ?_
  split
  · cases parsePositions (some (Json.obj _)) with
    | some positions => exact .pure
    | none => exact .error bare_valueError
  · exact .error (by decide)

theorem raises_coordinateField : Raises (coordinateField item) Bare := by
  refine .bind raises_positionsField fun positions _ => ?_
  split
  · exact .pure
  · exact .error bare_valueError

theorem raises_validate {resource : ResourceRef} {topic : String} :
    Raises (validate lib item resource topic) Bare :=
  .bind raises_requireText fun _ _ => raises_requireText

theorem raises_readCursor {resource : ResourceRef} {topic : String} :
    Raises (readCursor lib resource topic item) Bare := by
  refine .bind raises_validate fun _ _ => .bind raises_positionsField fun positions _ => ?_
  exact .bind raises_integerField fun _ _ => .pure

theorem raises_readPosition {resource : ResourceRef} {topic : String} :
    Raises (readPosition lib resource topic item) Bare := by
  refine .bind raises_validate fun _ _ => ?_
  exact .bind raises_coordinateField fun _ _ => .pure

theorem raises_readDelivery {subscription consumerGroup : ResourceRef} {topic : String} :
    Raises (readDelivery lib subscription consumerGroup topic item) Bare := by
  refine .bind raises_validate fun _ _ => .bind raises_requireText fun _ _ => ?_
  refine .bind raises_requireText fun _ _ => .bind raises_coordinateField fun _ _ => ?_
  refine .bind raises_integerField fun _ _ => .bind raises_integerField fun _ _ => ?_
  exact .bind raises_integerField fun _ _ => .pure

theorem raises_closedObject {required optional : List String} {value : Json} :
    Raises (closedObject required optional value) Bare := by
  unfold closedObject
  split
  · exact .ite (fun _ => .pure) fun _ => .error bare_valueError
  · exact .error (by decide)

/-- The payload alone decides whether a token has expired. -/
theorem raises_checkItem {nowMs : ℕ} {expected : TokenType} {value : Json} :
    Raises (checkItem nowMs expected value) (· ≠ .other) := by
  refine .bind (raises_closedObject.mono fun _ => And.right) fun item _ => ?_
  refine .bind (raises_requireText.mono fun _ => And.right) fun _ _ => ?_
  refine .bind (raises_integerField.mono fun _ => And.right) fun expiry _ => ?_
  exact .ite (fun _ => .error (by decide)) fun _ => .pure

end Payload

/-- The payload of a token, when it has a valid signature, was written by the codec. -/
def Authentic (lib : DecoderLibraries) (json : JsonModule) (codec : TokenCodec) (token : PyText) :
    Prop :=
  ∀ decoded, verify lib codec token = .ok decoded →
    ∃ fields, json.canonicalJsonBytes (.obj fields) = .ok decoded

/-- What `json.loads` makes of the payloads that the codec writes. -/
def Loads (lib : DecoderLibraries) (json : JsonModule) : Prop :=
  ∀ value bytes, json.dumps value = .ok bytes → lib.loads bytes = .ok value.sorted

theorem raises_decode {json : JsonModule}
    (b64decode : ∀ text, Raises (lib.b64decode text) (· = .valueError)) (loads : Loads lib json)
    {token : PyText} (authentic : Authentic lib json codec token) {nowMs : ℕ}
    {expected : TokenType} : Raises (decode lib codec nowMs token expected) (· ≠ .other) := by
  refine .bind ((raises_verify b64decode).mono fun _ => And.right) fun decoded hdecoded => ?_
  obtain ⟨fields, hfields⟩ := authentic decoded hdecoded
  -- `json.loads` sees what was written, and nothing else
  have hloads : lib.loads decoded = .ok (Json.obj fields).sorted := by
    unfold JsonModule.canonicalJsonBytes at hfields
    split at hfields
    · exact loads _ _ hfields
    · simp at hfields
  rw [hloads]
  exact raises_checkItem

/-- Coordinates, or one of the two failures of a reader. -/
def FailsClosed {α : Type} (expired invalid : FailureKind) (x : Except Raised α) : Prop :=
  (∃ coordinates, x = .ok coordinates) ∨
    ∃ failure, x = .error (.failure failure) ∧ (failure.kind = expired ∨ failure.kind = invalid)

/-- A reader answers what it catches. -/
theorem failsClosed_answering {α : Type} {expired invalid : Failure} {x : Except TokenError α}
    (h : Raises x (· ≠ .other)) :
    FailsClosed expired.kind invalid.kind (answering expired invalid x) := by
  cases x with
  | ok coordinates => exact Or.inl ⟨coordinates, rfl⟩
  | error e =>
    have hother : e ≠ .other := h e rfl
    cases e with
    | tokenExpired => exact Or.inr ⟨expired, rfl, Or.inl rfl⟩
    | typeError | valueError | keyError => exact Or.inr ⟨invalid, rfl, Or.inr rfl⟩
    | other => exact absurd rfl hother

/-- **Tokens are canonical, and their readers fail closed.** Let `b64decode` raise nothing but
`ValueError`, and `json.loads` read what the codec writes; let the ids of the ring be unique.
A token that is accepted is the text of a key of the ring, a body and their signature; for one
key id and one body a single signature is accepted. And any text, when what it has under a
valid signature was written by the codec, comes to coordinates or to one of the two failures
of its reader. -/
theorem decode_fails_closed {json : JsonModule} {keys : List TokenKey}
    (b64decode : ∀ text, Raises (lib.b64decode text) (· = .valueError)) (loads : Loads lib json)
    (created : TokenCodec.create keys = .ok codec) (unique : (keys.map TokenKey.keyId).Nodup) :
    (∀ nowMs token expected item, decode lib codec nowMs token expected = .ok item →
      ∃ key ∈ keys, ∃ body message, ascii (signedText key.keyId body) = some message ∧
        token = PyText.ofString (signedText key.keyId body ++ "." ++
          b64 (lib.hmac key.key message).toList)) ∧
    (∀ keyId body signature signature' nowMs nowMs' expected expected' item item',
      decode lib codec nowMs (PyText.ofString (signedText keyId body ++ "." ++ signature))
        expected = .ok item →
      decode lib codec nowMs' (PyText.ofString (signedText keyId body ++ "." ++ signature'))
        expected' = .ok item' → signature = signature') ∧
    ∀ token, Authentic lib json codec token → ∀ nowMs,
      (∀ resource topic, FailsClosed .cursorExpired .invalidCursor
        (decodeCursor lib codec nowMs token resource topic)) ∧
      (∀ resource topic, FailsClosed .cursorExpired .invalidCursor
        (decodePosition lib codec nowMs token resource topic)) ∧
      ∀ subscription consumerGroup topic, FailsClosed .deliveryTimeout .deliveryRejected
        (decodeDelivery lib codec nowMs token subscription consumerGroup topic) := by
  refine ⟨?_, ?_, ?_⟩
  · intro nowMs token expected item hdecode
    obtain ⟨decoded, hverify, -⟩ := exists_of_bind_eq_ok hdecode
    obtain ⟨keyId, body, signature, rfl, hsigned⟩ := ensures_verify decoded hverify
    obtain ⟨key, message, hkey, hmessage, rfl⟩ := hsigned.signature
    obtain ⟨hmem, rfl⟩ := mem_of_get?_create created unique hkey
    exact ⟨key, hmem, body, message, hmessage, rfl⟩
  · intro keyId body signature signature' nowMs nowMs' expected expected' item item' h h'
    obtain ⟨decoded, hverify, -⟩ := exists_of_bind_eq_ok h
    obtain ⟨decoded', hverify', -⟩ := exists_of_bind_eq_ok h'
    obtain ⟨key, message, hkey, hmessage, rfl⟩ := (signed_of_verify hverify).signature
    obtain ⟨key', message', hkey', hmessage', rfl⟩ := (signed_of_verify hverify').signature
    -- the key of the id and the message of the body are what they are
    obtain rfl := Option.some.inj (hkey.symm.trans hkey')
    obtain rfl := Option.some.inj (hmessage.symm.trans hmessage')
    rfl
  · intro token authentic nowMs
    have hdecode : ∀ expected, Raises (decode lib codec nowMs token expected) (· ≠ .other) :=
      fun expected => raises_decode b64decode loads authentic
    refine ⟨fun resource topic => ?_, fun resource topic => ?_,
      fun subscription consumerGroup topic => ?_⟩
    · exact failsClosed_answering (.bind (hdecode _) fun item _ =>
        raises_readCursor.mono fun _ => And.right)
    · exact failsClosed_answering (.bind (hdecode _) fun item _ =>
        raises_readPosition.mono fun _ => And.right)
    · exact failsClosed_answering (.bind (hdecode _) fun item _ =>
        raises_readDelivery.mono fun _ => And.right)

end Decoder

/-! ### The decoder of the codec -/

/-- The libraries of the codec, with what they raise. -/
def CodecLibraries.decoder (lib : CodecLibraries) : DecoderLibraries where
  hmac := lib.sha256.hmac
  topicFingerprint := lib.topicFingerprint
  b64decode text :=
    match Base64.decode (text.toList.takeWhile (· ≠ '=')) with
    | some bytes => .ok bytes
    | none => .error .valueError
  loads bytes :=
    match lib.json.loads bytes with
    | some value => .ok value
    | none => .error .valueError

namespace Decoder

variable {lib : CodecLibraries} {codec : TokenCodec}

theorem toOption_bind {α β : Type} (x : Except TokenError α) (f : α → Except TokenError β) :
    (x >>= f).toOption = x.toOption.bind fun a => (f a).toOption := by
  cases x <;> rfl

theorem toOption_eq_some {α : Type} {x : Except TokenError α} {a : α} :
    x.toOption = some a ↔ x = .ok a := by
  cases x <;> simp [Except.toOption]

theorem toOption_unb64 (value : String) :
    (unb64 lib.decoder value).toOption = MeridianKafka.unb64 value := by
  refine Option.ext fun decoded => ?_
  rw [toOption_eq_some]
  have hcodec : MeridianKafka.unb64 value = some decoded ↔ value ≠ "" ∧ b64 decoded = value := by
    unfold MeridianKafka.unb64
    constructor
    · intro h
      split at h
      · split_ifs at h with hvalue
        obtain rfl := Option.some.inj h
        exact hvalue
      · simp at h
    · rintro ⟨hne, rfl⟩
      rw [toList_b64, Base64.decode_encode]
      exact if_pos ⟨hne, rfl⟩
  rw [hcodec]
  unfold unb64
  constructor
  · intro h
    split_ifs at h with hempty
    obtain ⟨decoded', -, h⟩ := exists_of_bind_eq_ok h
    split_ifs at h with hsame
    obtain rfl := Except.ok.inj h
    exact ⟨hempty, not_not.mp hsame⟩
  · rintro ⟨hne, rfl⟩
    -- the padding is what `takeWhile` takes off
    have hpad : ∀ c ∈ Base64.encode decoded, decide (c ≠ '=') = true := by
      intro c hc
      obtain ⟨n, hn, rfl⟩ := Base64.exists_digit_of_mem_encode hc
      have hdigit : ∀ n < 64, Base64.digit n ≠ '=' := by decide
      exact decide_eq_true (hdigit n hn)
    have htake : ((b64 decoded ++ padding (b64 decoded)).toList.takeWhile (· ≠ '=')) =
        Base64.encode decoded := by
      unfold padding
      rw [String.toList_append, String.toList_ofList, toList_b64,
        List.takeWhile_append_of_pos hpad]
      cases (4 - (Base64.encode decoded).length % 4) % 4 with
      | zero => exact List.append_nil _
      | succ n =>
        rw [List.replicate_succ, List.takeWhile_cons_of_neg (by simp)]
        exact List.append_nil _
    have hdecode : lib.decoder.b64decode (b64 decoded ++ padding (b64 decoded)) = .ok decoded := by
      change (match Base64.decode ((b64 decoded ++ padding (b64 decoded)).toList.takeWhile
        (· ≠ '=')) with
        | some bytes => _
        | none => _) = _
      rw [htake, Base64.decode_encode]
    rw [if_neg hne, hdecode]
    exact if_neg (not_not_intro rfl)

theorem toOption_encodeAscii (text : String) : (encodeAscii text).toOption = ascii text := by
  unfold encodeAscii
  cases ascii text <;> rfl

theorem toOption_verifyParts (keyId body signature : String) :
    (verifyParts lib.decoder codec keyId body signature).toOption = (do
      let key ← codec.keys.get? keyId
      let message ← ascii (signedText keyId body)
      let signature ← MeridianKafka.unb64 signature
      if (lib.sha256.hmac key.key message).toList ≠ signature then none
      else
        let decoded ← MeridianKafka.unb64 body
        if decoded.length > maxTokenBytes then none else some decoded) := by
  unfold verifyParts
  -- each check raises the same failure, so without it the steps are those of an option
  cases codec.keys.get? keyId with
  | none => rfl
  | some key =>
    dsimp only
    rw [toOption_bind, toOption_encodeAscii]
    refine Option.bind_congr fun message _ => ?_
    rw [toOption_bind, toOption_unb64]
    refine Option.bind_congr fun signature _ => ?_
    change Except.toOption (if (lib.sha256.hmac key.key message).toList ≠ signature then _ else _) = _
    split
    · rfl
    · rw [toOption_bind, toOption_unb64]
      refine Option.bind_congr fun decoded _ => ?_
      split <;> rfl

theorem toOption_verify (token : String) :
    (verify lib.decoder codec (PyText.ofString token)).toOption = codec.verify lib token := by
  unfold verify TokenCodec.verify
  rw [characters_ofString]
  change Except.toOption (if _ then _ else _) = _
  split
  · rfl
  · generalize (token.toList.splitOn '.').map String.ofList = parts
    -- only four parts are looked at
    rcases parts with _ | ⟨format, _ | ⟨keyId, _ | ⟨body, _ | ⟨signature, _ | ⟨other, parts⟩⟩⟩⟩⟩
    case cons.cons.cons.cons.nil =>
      change Except.toOption (if format ≠ tokenFormat then _ else _) =
        if format ≠ tokenFormat then _ else _
      split
      · rfl
      · exact toOption_verifyParts keyId body signature
    all_goals rfl

/-- How `Codec` refuses a token. -/
def refusal : TokenError → Refusal
  | .tokenExpired => .expired
  | .typeError | .valueError | .keyError | .other => .invalid

theorem toOption_field (item : List (String × Json)) (name : String) :
    (field item name).toOption = item.lookup name := by
  unfold field
  cases item.lookup name <;> rfl

theorem toOption_requireText (item : List (String × Json)) (name text : String) :
    (requireText item name text).toOption = if fieldIs item name text then some () else none := by
  unfold requireText fieldIs
  rw [toOption_bind, toOption_field]
  cases item.lookup name with
  | none => rfl
  | some value =>
    cases value with
    | str value =>
      dsimp only [Option.bind_some]
      by_cases h : value = text
      · rw [if_pos h, if_pos (decide_eq_true h)]
        rfl
      · rw [if_neg h, if_neg (by simpa using h)]
        rfl
    | null | bool _ | int _ | float _ | arr _ | obj _ => rfl

theorem toOption_integerField (item : List (String × Json)) (name : String) (minimum : ℤ) :
    (integerField item name minimum).toOption = integer minimum (item.lookup name) := by
  unfold integerField
  rw [toOption_bind, toOption_field]
  cases item.lookup name with
  | none => rfl
  | some value =>
    dsimp only [Option.bind_some]
    cases integer minimum (some value) <;> rfl

theorem toOption_closedObject (required optional : List String) (value : Json) :
    (closedObject required optional value).toOption =
      MeridianKafka.closedObject required optional value := by
  cases value with
  | obj fields =>
    unfold closedObject MeridianKafka.closedObject
    dsimp only
    split <;> rfl
  | null | bool _ | int _ | float _ | str _ | arr _ => rfl

/-- After a step that raises only bare exceptions, the rest decides. -/
theorem mapError_bind {α β : Type} {x : Except TokenError α} (bare : Raises x Bare)
    (f : α → Except TokenError β) :
    (x >>= f).mapError refusal =
      match x.toOption with
      | some a => (f a).mapError refusal
      | none => .error .invalid := by
  cases x with
  | ok a => rfl
  | error e =>
    obtain ⟨hexpired, -⟩ := bare e rfl
    cases e with
    | tokenExpired => exact absurd rfl hexpired
    | typeError | valueError | keyError | other => rfl

/-- The checks of a payload are those of `Codec`. -/
theorem checkItem_eq (nowMs : ℕ) (expected : TokenType) (value : Json) :
    TokenCodec.checkItem nowMs expected value =
      (checkItem nowMs expected value).mapError refusal := by
  unfold TokenCodec.checkItem checkItem
  rw [mapError_bind raises_closedObject, toOption_closedObject]
  -- what the checks raise differs in both, and the token codec refuses them alike
  cases MeridianKafka.closedObject tokenFields optionalTokenFields value with
  | none => rfl
  | some item =>
    dsimp only
    rw [mapError_bind raises_requireText, toOption_requireText]
    split
    swap
    · rfl
    dsimp only
    rw [mapError_bind raises_integerField, toOption_integerField]
    cases integer 1 (item.lookup "expiresAtMs") with
    | none => rfl
    | some expiry =>
      dsimp only
      split <;> rfl

theorem raises_b64decode (text : String) : Raises (lib.decoder.b64decode text) (· = .valueError) := by
  intro e he
  change (match Base64.decode (text.toList.takeWhile (· ≠ '=')) with
    | some bytes => Except.ok bytes
    | none => .error TokenError.valueError) = _ at he
  split at he
  · simp at he
  · exact (Except.error.inj he).symm

/-- **Decoding is that of `Codec`**, which does not tell the exceptions apart. -/
theorem decode_eq (nowMs : ℕ) (token : String) (expected : TokenType) :
    codec.decode lib nowMs token expected =
      (decode lib.decoder codec nowMs (PyText.ofString token) expected).mapError refusal := by
  unfold TokenCodec.decode decode
  rw [mapError_bind (raises_verify raises_b64decode), toOption_verify]
  cases codec.verify lib token with
  | none => rfl
  | some decoded =>
    have hloads : lib.decoder.loads decoded = match lib.json.loads decoded with
      | some value => .ok value
      | none => .error .valueError := rfl
    dsimp only
    rw [hloads]
    cases lib.json.loads decoded with
    | none => rfl
    | some value => exact checkItem_eq nowMs expected value

theorem toOption_validate (item : List (String × Json)) (resource : ResourceRef) (topic : String) :
    (validate lib.decoder item resource topic).toOption =
      if SignedCursorCodec.validates lib item resource topic then some () else none := by
  unfold validate SignedCursorCodec.validates
  rw [toOption_bind, toOption_requireText]
  cases fieldIs item "resource" resource.str with
  | false => rfl
  | true => exact toOption_requireText item "topicFingerprint" (lib.topicFingerprint topic)

theorem toOption_positionsField (item : List (String × Json)) :
    (positionsField item).toOption = parsePositions (item.lookup "positions") := by
  unfold positionsField
  rw [toOption_bind, toOption_field]
  cases item.lookup "positions" with
  | none => rfl
  | some value =>
    cases value with
    | obj fields =>
      dsimp only [Option.bind_some]
      cases parsePositions (some (Json.obj fields)) <;> rfl
    | null | bool _ | int _ | float _ | str _ | arr _ => rfl

theorem toOption_coordinateField (item : List (String × Json)) :
    (coordinateField item).toOption = SignedCursorCodec.readCoordinate item := by
  unfold coordinateField SignedCursorCodec.readCoordinate
  rw [toOption_bind, toOption_positionsField]
  cases parsePositions (item.lookup "positions") with
  | none => rfl
  | some positions =>
    dsimp only [Option.bind_some]
    match positions.entries with
    | [] | [_] | _ :: _ :: _ => rfl

theorem toOption_readCursor (resource : ResourceRef) (topic : String)
    (item : List (String × Json)) :
    (readCursor lib.decoder resource topic item).toOption =
      SignedCursorCodec.readCursor lib resource topic item := by
  unfold readCursor SignedCursorCodec.readCursor
  rw [toOption_bind, toOption_validate]
  split
  swap
  · rfl
  rw [Option.bind_some, toOption_bind, toOption_positionsField]
  refine Option.bind_congr fun positions _ => ?_
  rw [toOption_bind, toOption_integerField]
  rfl

theorem toOption_readPosition (resource : ResourceRef) (topic : String)
    (item : List (String × Json)) :
    (readPosition lib.decoder resource topic item).toOption =
      SignedCursorCodec.readPosition lib resource topic item := by
  unfold readPosition SignedCursorCodec.readPosition
  rw [toOption_bind, toOption_validate]
  split
  swap
  · rfl
  rw [Option.bind_some, toOption_bind, toOption_coordinateField]
  rfl

theorem toOption_readDelivery (subscription consumerGroup : ResourceRef) (topic : String)
    (item : List (String × Json)) :
    (readDelivery lib.decoder subscription consumerGroup topic item).toOption =
      SignedCursorCodec.readDelivery lib subscription consumerGroup topic item := by
  unfold readDelivery SignedCursorCodec.readDelivery
  rw [toOption_bind, toOption_validate]
  -- Both readers check the fields in one order, and stop at the first that is wrong.
  cases SignedCursorCodec.validates lib item subscription topic with
  | false => rfl
  | true =>
    rw [if_pos rfl, Option.bind_some, toOption_bind, toOption_requireText]
    cases fieldIs item "subscription" subscription.str with
    | false => rfl
    | true =>
      rw [if_pos rfl, Option.bind_some, toOption_bind, toOption_requireText]
      cases fieldIs item "consumerGroup" consumerGroup.str with
      | false => rfl
      | true =>
        rw [if_pos rfl, Option.bind_some, toOption_bind, toOption_coordinateField]
        refine Option.bind_congr fun coordinate _ => ?_
        rw [toOption_bind, toOption_integerField]
        refine Option.bind_congr fun assignmentEpoch _ => ?_
        rw [toOption_bind, toOption_integerField]
        refine Option.bind_congr fun attempt _ => ?_
        rw [toOption_bind, toOption_integerField]
        rfl

/-- **A reader on a text is that of `Codec`**, when it makes the same of a payload. -/
theorem decodeText_eq {α : Type} {codec : SignedCursorCodec} {nowMs : ℕ} {token : String}
    {type : TokenType} {expired invalid : Failure}
    {read : List (String × Json) → Except TokenError α} {read' : List (String × Json) → Option α}
    (same : ∀ item, (read item).toOption = read' item) (bare : ∀ item, Raises (read item) Bare) :
    decodeText lib.decoder codec.codec nowMs (PyText.ofString token) type expired invalid read =
      codec.decodeAs lib nowMs (.ok token) type expired invalid read' := by
  have hdecode : Raises (decode lib.decoder codec.codec nowMs (PyText.ofString token) type)
      (· ≠ .other) := by
    refine .bind ((raises_verify raises_b64decode).mono fun _ => And.right) fun decoded _ => ?_
    refine .bind ?_ fun value _ => raises_checkItem
    change Raises (match lib.json.loads decoded with
      | some value => .ok value
      | none => .error TokenError.valueError) _
    cases lib.json.loads decoded with
    | none => exact .error (by decide)
    | some value => exact .pure
  unfold decodeText SignedCursorCodec.decodeAs
  dsimp only
  rw [decode_eq]
  generalize decode lib.decoder codec.codec nowMs (PyText.ofString token) type = outcome
    at hdecode ⊢
  cases outcome with
  | error e =>
    have hother := hdecode e rfl
    cases e with
    | tokenExpired | typeError | valueError | keyError => rfl
    | other => exact absurd rfl hother
  | ok item =>
    change answering expired invalid (read item) = match read' item with
      | some coordinates => .ok coordinates
      | none => .error (.failure invalid)
    -- The reader of the payload raises nothing but what is answered with the same failure.
    have hbare := bare item
    rw [← same item]
    generalize read item = coordinates at hbare ⊢
    cases coordinates with
    | ok coordinates => rfl
    | error e =>
      obtain ⟨hexpired, hother⟩ := hbare e rfl
      cases e with
      | tokenExpired => exact absurd rfl hexpired
      | typeError | valueError | keyError => rfl
      | other => exact absurd rfl hother

/-- The three readers on a text are those of `Codec`. -/
theorem readers_eq (codec : SignedCursorCodec) (nowMs : ℕ) (token : String) :
    (∀ resource topic, decodeCursor lib.decoder codec.codec nowMs (PyText.ofString token) resource
      topic = codec.decodeCursor lib nowMs (.text token) resource topic) ∧
    (∀ resource topic, decodePosition lib.decoder codec.codec nowMs (PyText.ofString token) resource
      topic = codec.decodePosition lib nowMs (.text token) resource topic) ∧
    ∀ subscription consumerGroup topic, decodeDelivery lib.decoder codec.codec nowMs
      (PyText.ofString token) subscription consumerGroup topic =
        codec.decodeDelivery lib nowMs (.text token) subscription consumerGroup topic :=
  ⟨fun resource topic => decodeText_eq (toOption_readCursor resource topic)
      fun _ => raises_readCursor,
    fun resource topic => decodeText_eq (toOption_readPosition resource topic)
      fun _ => raises_readPosition,
    fun subscription consumerGroup topic =>
      decodeText_eq (toOption_readDelivery subscription consumerGroup topic)
        fun _ => raises_readDelivery⟩

end Decoder

/-! ### A token and another signature -/

namespace Decoder

open Sample

/-- A cursor is accepted under its own signature and under no other one, and a text that has
no encoding is an invalid cursor. -/
theorem other_signatures_are_refused :
    ∃ body signature item,
      decode libraries.decoder signingCodec.codec 1099
        (PyText.ofString (signedText "k1" body ++ "." ++ signature)) .cursor = .ok item ∧
      (∀ signature' item', decode libraries.decoder signingCodec.codec 1099
        (PyText.ofString (signedText "k1" body ++ "." ++ signature')) .cursor = .ok item' →
          signature' = signature) ∧
      FailsClosed .cursorExpired .invalidCursor (decodeCursor libraries.decoder signingCodec.codec
        1099 [some 'm', none] salesOrders "orders.v1") := by
  have hloads : Loads libraries.decoder plainJson := by
    intro value bytes hdumps
    change (match plainJson.loads bytes with
      | some value => Except.ok value
      | none => Except.error TokenError.valueError) = _
    rw [plainJson_inverts.loads_dumps value bytes hdumps]
  have hauthentic : Authentic libraries.decoder plainJson signingCodec.codec [some 'm', none] := by
    intro decoded hverify
    exact absurd hverify (by simp [verify, characters, Bind.bind, Except.bind])
  -- The general theorem at this codec; what is left is that some token is accepted at all.
  obtain ⟨hcanonical, hunique, hclosed⟩ := decode_fails_closed raises_b64decode hloads
    (show TokenCodec.create [signingKey] = .ok signingCodec.codec from rfl) (by decide)
  obtain ⟨token, encoded⟩ := SignedCursorCodec.exists_cursorToken
  obtain ⟨fields, hfields, hwritten⟩ := exists_writtenAs encoded
  obtain ⟨resource, positions, hpayload⟩ := hwritten.payload
  have hitem : signingCodec.codec.decode libraries 1099 token .cursor =
      .ok (Json.sortFields fields) := by
    have hfound : signingCodec.codec.keys.get? signingCodec.codec.active.keyId =
        some signingKey := rfl
    have hexpiry : cursorRequest.expiry signingCodec 100 = 1100 := rfl
    rw [hexpiry] at hpayload
    have htype : cursorRequest.scope.type = .cursor := rfl
    rw [TokenCodec.decode_eq plainJson_inverts hfields hfound rfl, hpayload.checkItem_eq,
      if_pos htype, if_neg (by decide), if_neg (by decide)]
  obtain ⟨bytes, message, -, -, rfl, -⟩ := TokenCodec.encode_ok hfields
  -- The decoder that keeps the failures apart accepts what `decode` accepts.
  rw [decode_eq] at hitem
  generalize houtcome : decode libraries.decoder signingCodec.codec 1099
    (PyText.ofString _) .cursor = outcome at hitem
  cases outcome with
  | error e => simp [Except.mapError] at hitem
  | ok item =>
    refine ⟨_, _, item, houtcome, fun signature' item' h' => ?_,
      (hclosed [some 'm', none] hauthentic 1099).1 salesOrders "orders.v1"⟩
    exact hunique "k1" _ signature' _ 1099 1099 .cursor .cursor item' item h' houtcome

end Decoder

end MeridianKafka
