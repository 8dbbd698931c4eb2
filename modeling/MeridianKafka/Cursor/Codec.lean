import MeridianKafka.Config.Settings
import MeridianKafka.Cursor.Payload
import MeridianKafka.Framework.Base64

/-!
# Signed tokens

The cursor codec as the adapter runs it: a payload in canonical JSON, its bytes in
base64url, a signature with the active key of the ring, and the way back.

`TokenCodec` is the ring: `encode` signs with the active key, `decode` looks up the key
that the token names. `SignedCursorCodec` writes and reads the three kinds of token over
it. Its three readers do the same with a text or a mapping (`decodeAs`); each has its own
kind, its own failures and its own way from a payload to coordinates.

The clock is a natural number of milliseconds. JSON and SHA-256 are those of
`Canonical`; the constructors of the streaming contract that take a token apart which
comes as a mapping are parameters too.
-/

namespace MeridianKafka

open Framework TokenPayload

/-! ### Texts -/

def tokenFormat : String := "mk1"

def maxTokenBytes : ℕ := 4096

/-- `_b64`. -/
def b64 (bytes : List UInt8) : String := String.ofList (Base64.encode bytes)

/-- `_unb64`. Only the text that `b64` writes is accepted, so what else the decoder of the
standard library lets through does not matter. -/
def unb64 (value : String) : Option (List UInt8) :=
  match Base64.decode value.toList with
  | some decoded => if value ≠ "" ∧ b64 decoded = value then some decoded else none
  | none => none

/-! ### Payloads -/

def TokenType.str : TokenType → String
  | .cursor => "cursor"
  | .position => "position"
  | .delivery => "delivery"

/-- The required fields of a payload. -/
def tokenFields : List String :=
  ["type", "resource", "topicFingerprint", "positions", "issuedAtMs", "expiresAtMs"]

/-- The optional fields of a payload, those of a delivery. -/
def optionalTokenFields : List String :=
  ["subscription", "consumerGroup", "assignmentEpoch", "attempt"]

/-- A field is this text. -/
def fieldIs (item : List (String × Json)) (key text : String) : Bool :=
  match item.lookup key with
  | some (.str value) => value = text
  | _ => false

/-- `_integer`. -/
def integer (minimum : ℤ) : Option Json → Option ℤ
  | some (.int value) => if value < minimum then none else some value
  | _ => none

/-- `int(text)` of a text with `text.isdigit()`. The digits of other scripts, which Python
takes as well, are not among the keys that `payload` writes. -/
def digits (text : String) : Option ℕ :=
  if text ≠ "" ∧ text.toList.all Char.isDigit = true then
    some (Nat.ofDigitChars 10 text.toList 0)
  else none

/-- One entry of the positions. -/
def parsePosition (field : String × Json) : Option (ℕ × ℕ) :=
  match digits field.1, integer 0 (some field.2) with
  | some partition, some offset => some (partition, offset.toNat)
  | _, _ => none

/-- `_parse_positions`. -/
def parsePositions : Option Json → Option (Dict ℕ ℕ)
  | some (.obj fields) =>
    match fields.mapM parsePosition with
    | some positions => normalizePositions (Dict.ofList positions)
    | none => none
  | _ => none

/-! ### Parameters and tokens -/

/-- What the codec uses from outside. `error none` is an exception that the readers answer
with a failure of their own, `error (some raised)` one that they let through. -/
structure CodecLibraries where
  json : JsonModule
  sha256 : Sha256
  /-- `Cursor.from_mapping`: the text and the Resource. -/
  cursorFromMapping : List (Option String × Value) → Checked (String × ResourceRef)
  /-- `Position.from_mapping`. -/
  positionFromMapping : List (Option String × Value) → Checked (String × ResourceRef)
  /-- `DeliveryToken.from_mapping`: the text, the Subscription and the ConsumerGroup. -/
  deliveryTokenFromMapping :
    List (Option String × Value) → Checked (String × ResourceRef × ResourceRef)

/-- The fingerprint of a topic. -/
def CodecLibraries.topicFingerprint (lib : CodecLibraries) (topic : String) : String :=
  lib.sha256.fingerprint (utf8 topic)

/-- The text of a token that comes in. A mapping has to be about what is asked for. -/
def TokenValue.textFor {τ : Type} [DecidableEq τ]
    (fromMapping : List (Option String × Value) → Checked (String × τ)) (target : τ) :
    TokenValue → Except (Option Raised) String
  | .text value => .ok value
  | .mapping fields =>
    match fromMapping fields with
    | .error raised => .error raised
    | .ok (value, found) => if found ≠ target then .error none else .ok value

structure Cursor where
  value : String
  resource : ResourceRef
  expiresAtMs : ℤ
  deriving DecidableEq

structure PositionToken where
  value : String
  resource : ResourceRef
  logicalPartition : Option String
  deriving DecidableEq

structure DeliveryToken where
  value : String
  subscription : ResourceRef
  consumerGroup : ResourceRef
  expiresAtMs : ℤ
  deriving DecidableEq

structure CursorCoordinates where
  resource : ResourceRef
  positions : Dict ℕ ℕ
  expiresAtMs : ℤ
  deriving DecidableEq

structure PositionCoordinates where
  resource : ResourceRef
  partition : ℕ
  offset : ℕ
  deriving DecidableEq

/-- `_utc_from_ms`: the instant, when a `datetime` can hold it. -/
def utcFromMs (value : ℤ) : Except Raised ℤ :=
  if -62135596800000 ≤ value ∧ value ≤ 253402300799999 then .ok value else .error .other

/-! ### The key ring -/

/-- `TokenCodec`: the keys under their ids, and the one that signs. -/
structure TokenCodec where
  keys : Dict String TokenKey
  active : TokenKey

namespace TokenCodec

def create (keys : List TokenKey) : Except Raised TokenCodec :=
  match keys.filter (·.active) with
  | [active] => .ok { keys := Dict.ofList (keys.map fun key => (key.keyId, key)), active }
  | _ => .error .other

variable (lib : CodecLibraries) (codec : TokenCodec)

/-- The part of a token that is signed. -/
def signedText (keyId body : String) : String := tokenFormat ++ "." ++ keyId ++ "." ++ body

def encode (payload : List (String × Json)) : Except Raised String := do
  let bytes ← lib.json.canonicalJsonBytes (.obj payload)
  let signed := signedText codec.active.keyId (b64 bytes)
  match ascii signed with
  | none => throw .other
  | some message =>
    let token := signed ++ "." ++ b64 (lib.sha256.hmac codec.active.key message).toList
    if token.utf8ByteSize > maxTokenBytes then throw .other else return token

/-- The first part of `decode`: the bytes of the payload, when the token has a size, a
format and a signature of the ring. -/
def verify (token : String) : Option (List UInt8) :=
  if token = "" ∨ token.utf8ByteSize > maxTokenBytes then none
  else
    match (token.toList.splitOn '.').map String.ofList with
    | [format, keyId, body, encodedSignature] =>
      if format ≠ tokenFormat then none
      else do
        let key ← codec.keys.get? keyId
        let message ← ascii (signedText keyId body)
        let signature ← unb64 encodedSignature
        if (lib.sha256.hmac key.key message).toList ≠ signature then none
        else
          let decoded ← unb64 body
          if decoded.length > maxTokenBytes then none else some decoded
    | _ => none

/-- The second part of `decode`: the fields of a payload, when they are those of a token of
the expected type that has not expired. -/
def checkItem (nowMs : ℕ) (expected : TokenType) (value : Json) :
    Except Refusal (List (String × Json)) :=
  match closedObject tokenFields optionalTokenFields value with
  | none => .error .invalid
  | some item =>
    if fieldIs item "type" expected.str then
      match integer 1 (item.lookup "expiresAtMs") with
      | none => .error .invalid
      | some expiry => if nowMs ≥ expiry then .error .expired else .ok item
    else .error .invalid

def decode (nowMs : ℕ) (token : String) (expected : TokenType) :
    Except Refusal (List (String × Json)) :=
  match codec.verify lib token with
  | none => .error .invalid
  | some decoded =>
    match lib.json.loads decoded with
    | none => .error .invalid
    | some value => checkItem nowMs expected value

end TokenCodec

/-! ### The codec -/

/-- `KafkaCursorCodec` over a key ring. -/
structure SignedCursorCodec where
  codec : TokenCodec
  ttlMs : ℕ

namespace SignedCursorCodec

def create (keys : List TokenKey) (ttlMs : ℕ) : Except Raised SignedCursorCodec :=
  if 1 ≤ ttlMs ∧ ttlMs ≤ 31536000000 then do
    let codec ← TokenCodec.create keys
    return { codec, ttlMs }
  else .error .other

variable (lib : CodecLibraries) (codec : SignedCursorCodec)

/-- `_payload`. -/
def payload (type : TokenType) (resource : ResourceRef) (topic : String) (positions : Dict ℕ ℕ)
    (issuedAtMs : ℕ) (expiresAtMs : ℤ) : List (String × Json) :=
  [("type", .str type.str),
    ("resource", .str resource.str),
    ("topicFingerprint", .str (lib.topicFingerprint topic)),
    ("positions", .obj (positions.sorted.entries.map fun e => (toString e.1, .int e.2))),
    ("issuedAtMs", .int issuedAtMs),
    ("expiresAtMs", .int expiresAtMs)]

/-- What a delivery adds to its payload. -/
def deliveryFields (subscription consumerGroup : ResourceRef) (assignmentEpoch attempt : ℕ) :
    List (String × Json) :=
  [("subscription", .str subscription.str),
    ("consumerGroup", .str consumerGroup.str),
    ("assignmentEpoch", .int assignmentEpoch),
    ("attempt", .int attempt)]

/-- `expires_at_ms or now + self._ttl_ms`: an expiry at the epoch counts as none. -/
def expiry (nowMs : ℕ) : Option ℤ → ℤ
  | some expiresAtMs => if expiresAtMs = 0 then nowMs + codec.ttlMs else expiresAtMs
  | none => nowMs + codec.ttlMs

def encodeCursor (nowMs : ℕ) (resource : ResourceRef) (topic : String) (positions : Dict ℕ ℕ)
    (expiresAtMs : Option ℤ) : Except Raised Cursor :=
  match normalizePositions positions with
  | none => .error .other
  | some normalized => do
    let expiry := codec.expiry nowMs expiresAtMs
    let value ← codec.codec.encode lib (payload lib .cursor resource topic normalized nowMs expiry)
    return { value, resource, expiresAtMs := ← utcFromMs expiry }

def encodePosition (nowMs : ℕ) (resource : ResourceRef) (topic : String) (partition offset : ℕ)
    (logicalPartition : Option String) : Except Raised PositionToken := do
  let value ← codec.codec.encode lib (payload lib .position resource topic
    (Dict.empty.set partition offset) nowMs (nowMs + codec.ttlMs))
  return { value, resource, logicalPartition }

def encodeDelivery (nowMs : ℕ) (subscription consumerGroup : ResourceRef) (topic : String)
    (partition offset assignmentEpoch attempt : ℕ) (expiresAtMs : ℤ) :
    Except Raised DeliveryToken := do
  let value ← codec.codec.encode lib (payload lib .delivery subscription topic
      (Dict.empty.set partition offset) nowMs expiresAtMs ++
    deliveryFields subscription consumerGroup assignmentEpoch attempt)
  return { value, subscription, consumerGroup, expiresAtMs := ← utcFromMs expiresAtMs }

/-- `_validate_resource_and_topic`. -/
def validates (item : List (String × Json)) (resource : ResourceRef) (topic : String) : Bool :=
  fieldIs item "resource" resource.str && fieldIs item "topicFingerprint"
    (lib.topicFingerprint topic)

/-- What the three readers have in common: the text of the token, its payload, and the
coordinates in it. -/
def decodeAs {α : Type} (nowMs : ℕ) (text : Except (Option Raised) String) (type : TokenType)
    (expired invalid : Failure) (read : List (String × Json) → Option α) : Except Raised α :=
  match text with
  | .error none => .error (.failure invalid)
  | .error (some raised) => .error raised
  | .ok token =>
    match codec.codec.decode lib nowMs token type with
    | .error .expired => .error (.failure expired)
    | .error .invalid => .error (.failure invalid)
    | .ok item =>
      match read item with
      | some coordinates => .ok coordinates
      | none => .error (.failure invalid)

/-- The coordinates of a cursor. -/
def readCursor (resource : ResourceRef) (topic : String) (item : List (String × Json)) :
    Option CursorCoordinates :=
  if validates lib item resource topic then do
    let positions ← parsePositions (item.lookup "positions")
    let expiresAtMs ← integer 1 (item.lookup "expiresAtMs")
    return { resource, positions, expiresAtMs }
  else none

/-- The one coordinate in the positions of a payload. -/
def readCoordinate (item : List (String × Json)) : Option (ℕ × ℕ) :=
  match parsePositions (item.lookup "positions") with
  | some positions =>
    match positions.entries with
    | [coordinate] => some coordinate
    | _ => none
  | none => none

/-- The coordinates of a position. -/
def readPosition (resource : ResourceRef) (topic : String) (item : List (String × Json)) :
    Option PositionCoordinates :=
  if validates lib item resource topic then do
    let (partition, offset) ← readCoordinate item
    return { resource, partition, offset }
  else none

/-- The coordinates of a delivery. -/
def readDelivery (subscription consumerGroup : ResourceRef) (topic : String)
    (item : List (String × Json)) : Option DeliveryCoordinates :=
  if validates lib item subscription topic && fieldIs item "subscription" subscription.str &&
      fieldIs item "consumerGroup" consumerGroup.str then do
    let (partition, offset) ← readCoordinate item
    let assignmentEpoch ← integer 0 (item.lookup "assignmentEpoch")
    let attempt ← integer 1 (item.lookup "attempt")
    let expiresAtMs ← integer 1 (item.lookup "expiresAtMs")
    return { subscription, consumerGroup, partition, offset
             assignmentEpoch := assignmentEpoch.toNat
             attempt := attempt.toNat
             expiresAtMs := expiresAtMs.toNat }
  else none

def decodeCursor (nowMs : ℕ) (value : TokenValue) (resource : ResourceRef) (topic : String) :
    Except Raised CursorCoordinates :=
  codec.decodeAs lib nowMs (value.textFor lib.cursorFromMapping resource) .cursor
    { kind := .cursorExpired, requirement := "cursor.expiry" }
    { kind := .invalidCursor, message := "Cursor integrity or shape validation failed" }
    (readCursor lib resource topic)

def decodePosition (nowMs : ℕ) (value : TokenValue) (resource : ResourceRef) (topic : String) :
    Except Raised PositionCoordinates :=
  codec.decodeAs lib nowMs (value.textFor lib.positionFromMapping resource) .position
    { kind := .cursorExpired, requirement := "position.expiry" }
    { kind := .invalidCursor, message := "Position integrity or shape validation failed" }
    (readPosition lib resource topic)

def decodeDelivery (nowMs : ℕ) (value : TokenValue) (subscription consumerGroup : ResourceRef)
    (topic : String) : Except Raised DeliveryCoordinates :=
  codec.decodeAs lib nowMs
    (value.textFor lib.deliveryTokenFromMapping (subscription, consumerGroup)) .delivery
    { kind := .deliveryTimeout, requirement := "delivery.acknowledgement-timeout" }
    { kind := .deliveryRejected
      message := "delivery token integrity or scope validation failed" }
    (readDelivery lib subscription consumerGroup topic)

end SignedCursorCodec

end MeridianKafka
