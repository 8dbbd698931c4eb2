import MeridianKafka.Contract
import Mathlib.Data.List.Sort

/-!
# Records, topic metadata and positions

What the group consumer and the range reader have in common: a record of the
Kafka client and its decoding (`_decode_event`, `_header`), the partitions of a
topic (`_partition_ids`), and the position map of a cursor or position text
(`_decode_positions`).

The bytes of a value are parsed by the JSON library and by the Event class of the
streaming contract. Both are outside the repository, so parsing is a parameter:
`error none` is an exception that `_decode_event` answers with `InvalidEvent`,
`error (some raised)` one that it lets through.
-/

namespace MeridianKafka

open Framework

/-- A record as the client returns it. A record without headers has none. -/
structure Message where
  topic : String
  partition : ℕ
  offset : ℕ
  value : Option (List UInt8)
  headers : List (String × Option (List UInt8)) := []
  deriving DecidableEq

/-- The parser of Event values. -/
abbrev EventParser := List UInt8 → Except (Option Raised) Event

/-- `_header`: the first value under a name. -/
def header (message : Message) (name : String) : Option (List UInt8) :=
  ((message.headers.find? fun e => e.1 = name).map Prod.snd).join

/-- `bytes.decode("ascii", errors="ignore")`. -/
def asciiText (bytes : List UInt8) : String :=
  String.ofList ((bytes.filter (· < 128)).map fun byte => Char.ofNat byte.toNat)

/-- `_decode_event`, with its checks in the order of the source. -/
def decodeEvent (parse : EventParser) (message : Message) (stream : PhysicalStream) :
    Except Raised Event :=
  match message.value with
  | none =>
    .error (.failure
      { kind := .invalidEvent
        message := "Kafka Event value is absent or exceeds the adapter bound" })
  | some raw =>
    if raw.length > 16 * 1024 * 1024 then
      .error (.failure
        { kind := .invalidEvent
          message := "Kafka Event value is absent or exceeds the adapter bound" })
    else
      match parse raw with
      | .error none =>
        .error (.failure
          { kind := .invalidEvent
            message := "Kafka Event value does not satisfy the released envelope" })
      | .error (some raised) => .error raised
      | .ok event =>
        if event.stream ≠ stream.ref then
          .error (.failure
            { kind := .invalidEvent, message := "Kafka Event targets another logical Stream" })
        else if (header message "meridian.schema-fingerprint").any fun fingerprint =>
            asciiText fingerprint ∈ stream.compatibleSchemaFingerprints then
          .ok event
        else
          .error (.failure
            { kind := .invalidEvent
              message := "Kafka Event Schema fingerprint is absent or incompatible"
              requirement := "event.schema-fingerprint" })

/-- The metadata of one topic, as `list_topics` reports it. -/
structure TopicMetadata where
  error : Option KafkaError := none
  partitions : List ℤ

/-- `_partition_ids`: the partitions of a topic in ascending order. -/
def partitionIds (topics : List (String × TopicMetadata)) (topic : String) :
    Except Raised (List ℕ) :=
  match topics.lookup topic with
  | none =>
    .error (.failure
      { kind := .retentionBoundaryExceeded
        message := "physical Stream topic metadata is unavailable" })
  | some metadata =>
    match metadata.error with
    | some error =>
      .error (.failure (normalizeKafkaError (.kafka error) "meridian.streaming.read-range"))
    | none =>
      if metadata.partitions.isEmpty then
        .error (.failure
          { kind := .retentionBoundaryExceeded
            message := "physical Stream has no readable partitions" })
      else if metadata.partitions.any (· < 0) then
        .error (.failure
          { kind := .retentionBoundaryExceeded
            message := "physical Stream partition metadata is invalid" })
      else .ok ((metadata.partitions.map Int.toNat).insertionSort (· ≤ ·))

/-- `_decode_positions`: a cursor, or else a position with its one coordinate. A
text that is neither fails the way it fails as a cursor. -/
def decodePositions {Token : Type} (cursor : KafkaCursorCodec Token) (nowMs : ℕ) (value : Token)
    (stream : PhysicalStream) : Except Failure (Dict ℕ ℕ) :=
  match cursor.decodeCursor nowMs value stream.ref stream.topic with
  | .ok positions => .ok positions
  | .error cursorError =>
    if cursorError.kind ≠ .invalidCursor then .error cursorError
    else
      match cursor.decodePosition nowMs value stream.ref stream.topic with
      | .ok (partition, offset) => .ok (Dict.empty.set partition offset)
      | .error positionError =>
        if positionError.kind = .invalidCursor then .error cursorError else .error positionError

end MeridianKafka
