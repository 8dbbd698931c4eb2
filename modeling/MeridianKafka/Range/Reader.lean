import MeridianKafka.Consumer.Records
import MeridianKafka.Cursor.Payload

/-!
# The range reader

`KafkaRangeReader.read`: take the watermarks of every partition, resolve the start and
the end of the range against them (`resolve`), and poll until the page is full, every
partition has reached its end, or the deadline has passed (`readLoop`).

The environment of a read lists what the client polls end with, up to the deadline: the
loop that runs out of polls has reached it. A page keeps with each event the record it
was decoded from, and with its cursor the coordinates that the cursor seals.
-/

namespace MeridianKafka

open Framework

/-- What a poll of the range consumer ends with. The end of a partition is reported as
an error message that carries the partition and the offset. -/
inductive RangePoll
  | raised (raised : Raised)
  | none
  | error (error : KafkaError)
  | endOfPartition (partition offset : ℕ)
  | record (message : Message)
  deriving DecidableEq

/-- An event of a page, with the record it was decoded from. -/
structure RangeEvent where
  record : Message
  event : Event

/-- A page, with the coordinates that its cursor seals. -/
structure RangePage (Token : Type) where
  events : List RangeEvent
  nextCursor : Token
  positions : Dict ℕ ℕ
  truncated : Bool

structure RangeEnv where
  consumer : Option Raised := none
  /-- The wall clock when the bounds are decoded, and when the cursor is encoded. -/
  decodedMs : ℕ
  encodedMs : ℕ
  listTopics : Except Raised (List (String × TopicMetadata))
  watermarks : ℕ → Except Raised (ℕ × ℕ)
  assign : Option Raised := none
  polls : List RangePoll
  emit : Option Raised := none
  close : Option Raised := none

structure KafkaRangeReader (Token : Type) where
  cursor : KafkaCursorCodec Token
  parseEvent : EventParser

namespace ReadRangeCommand

variable {Token : Type}

/-- Where a read begins: at the cursor, or else at the start. -/
def source (command : ReadRangeCommand Token) : Option Token := command.cursor.or command.start

def contract (command : ReadRangeCommand Token) : String :=
  if command.replay then "meridian.streaming.replay" else "meridian.streaming.read-range"

end ReadRangeCommand

/-- The partitions of a range, and its two ends: where the consumer is assigned to begin
and the offset at which each partition ends. -/
structure RangeBounds where
  partitions : List ℕ
  positions : Dict ℕ ℕ
  ends : Dict ℕ ℕ
  deriving DecidableEq

namespace RangeBounds

/-- A partition has not reached its end yet. -/
def Unfinished (bounds : RangeBounds) (positions : Dict ℕ ℕ) : Prop :=
  ∃ p ∈ bounds.partitions, positions.getD p 0 < bounds.ends.getD p 0

instance (bounds : RangeBounds) (positions : Dict ℕ ℕ) : Decidable (bounds.Unfinished positions) :=
  inferInstanceAs (Decidable (∃ p ∈ _, _))

end RangeBounds

/-- What the loop of a read carries: the positions and the events so far. -/
structure RangeState where
  positions : Dict ℕ ℕ
  events : List RangeEvent := []

namespace KafkaRangeReader

variable {Token : Type} (reader : KafkaRangeReader Token)

/-! ### The bounds -/

/-- The watermarks of the partitions, taken one after another. -/
def readWatermarks (env : RangeEnv) :
    List ℕ → Dict ℕ ℕ → Dict ℕ ℕ → Except Raised (Dict ℕ ℕ × Dict ℕ ℕ)
  | [], lows, highs => .ok (lows, highs)
  | partition :: rest, lows, highs =>
    match env.watermarks partition with
    | .error raised => .error raised
    | .ok (low, high) => readWatermarks env rest (lows.set partition low) (highs.set partition high)

/-- The loop that completes and checks the bounds. -/
def checkBounds (lows highs : Dict ℕ ℕ) :
    List ℕ → Dict ℕ ℕ → Dict ℕ ℕ → Except Failure (Dict ℕ ℕ × Dict ℕ ℕ)
  | [], positions, ends => .ok (positions, ends)
  | partition :: rest, positions, ends =>
    let low := lows.getD partition 0
    let high := highs.getD partition 0
    let positions := positions.setdefault partition low
    let ends := ends.setdefault partition high
    let position := positions.getD partition 0
    let stop := ends.getD partition 0
    if position < low then
      .error { kind := .cursorExpired, requirement := "cursor.retained-range" }
    else if position > high ∨ stop > high then
      .error { kind := .retentionBoundaryExceeded
               message := "range bound is beyond the retained high watermark" }
    else if stop < position then
      .error { kind := .retentionBoundaryExceeded, message := "range end precedes its start" }
    else checkBounds lows highs rest positions ends

/-- The positions of a text, or else the default ones. -/
def decodeBound (nowMs : ℕ) (stream : PhysicalStream) (fallback : Dict ℕ ℕ) :
    Option Token → Except Failure (Dict ℕ ℕ)
  | none => .ok fallback
  | some value => decodePositions reader.cursor nowMs value stream

/-- The part of `read` before the consumer is assigned. -/
def resolve (command : ReadRangeCommand Token) (env : RangeEnv) : Except Raised RangeBounds :=
  match env.listTopics with
  | .error raised => .error raised
  | .ok topics =>
    match partitionIds topics command.stream.topic with
    | .error raised => .error raised
    | .ok partitions =>
      if partitions.length > maxCursorPartitions then
        .error (.failure
          { kind := .retentionBoundaryExceeded
            message :=
              "finite range supports at most " ++ toString maxCursorPartitions ++ " partitions" })
      else
        match readWatermarks env partitions .empty .empty with
        | .error raised => .error raised
        | .ok (lows, highs) =>
          match reader.decodeBound env.decodedMs command.stream lows command.source with
          | .error failure => .error (.failure failure)
          | .ok positions =>
            match reader.decodeBound env.decodedMs command.stream highs command.stop with
            | .error failure => .error (.failure failure)
            | .ok ends =>
              match checkBounds lows highs partitions positions ends with
              | .error failure => .error (.failure failure)
              | .ok (positions, ends) =>
                if positions.keys.any (· ∉ partitions) || ends.keys.any (· ∉ partitions) then
                  .error (.failure
                    { kind := .invalidCursor
                      message := "range coordinates contain an unknown partition" })
                else .ok ⟨partitions, positions, ends⟩

/-! ### The loop -/

/-- The condition of the loop, without the deadline. -/
def Continues (command : ReadRangeCommand Token) (bounds : RangeBounds) (s : RangeState) : Prop :=
  s.events.length < command.limit ∧ bounds.Unfinished s.positions

instance (command : ReadRangeCommand Token) (bounds : RangeBounds) (s : RangeState) :
    Decidable (Continues command bounds s) := inferInstanceAs (Decidable (_ ∧ _))

/-- A position that is raised; `KeyError` for a partition that the range does not have. -/
def advance (s : RangeState) (partition position : ℕ) : Except Raised RangeState :=
  match s.positions.get? partition with
  | none => .error .other
  | some old => .ok { s with positions := s.positions.set partition (max old position) }

/-- The body of the loop, with the poll that it made. -/
def handle (command : ReadRangeCommand Token) (bounds : RangeBounds) (s : RangeState) :
    RangePoll → Except Raised RangeState
  | .raised raised => .error raised
  | .none => .ok s
  | .error error => .error (.failure (normalizeKafkaError (.kafka error) command.contract))
  | .endOfPartition partition offset => advance s partition offset
  | .record message =>
    match advance s message.partition (message.offset + 1) with
    | .error raised => .error raised
    | .ok s =>
      match bounds.ends.get? message.partition with
      | none => .error .other
      | some stop =>
        if message.offset ≥ stop then .ok s
        else
          match decodeEvent reader.parseEvent message command.stream with
          | .error raised => .error raised
          | .ok event => .ok { s with events := s.events ++ [⟨message, event⟩] }

/-- The loop of `read`. No poll is left when the deadline has passed. -/
def readLoop (command : ReadRangeCommand Token) (bounds : RangeBounds) :
    RangeState → List RangePoll → Except Raised RangeState
  | s, [] => .ok s
  | s, poll :: polls =>
    if Continues command bounds s then
      match reader.handle command bounds s poll with
      | .error raised => .error raised
      | .ok s => readLoop command bounds s polls
    else .ok s

/-- `read` within its `try` block. -/
def readPage (command : ReadRangeCommand Token) (env : RangeEnv) :
    Except Raised (RangePage Token) :=
  match reader.resolve command env with
  | .error raised => .error raised
  | .ok bounds =>
    match env.assign with
    | some raised => .error raised
    | none =>
      match reader.readLoop command bounds { positions := bounds.positions } env.polls with
      | .error raised => .error raised
      | .ok s =>
        match reader.cursor.encodeCursor env.encodedMs command.stream.ref command.stream.topic
            s.positions with
        | .error raised => .error raised
        | .ok nextCursor =>
          match env.emit with
          | some raised => .error raised
          | none =>
            .ok { events := s.events
                  nextCursor
                  positions := s.positions
                  truncated := bounds.Unfinished s.positions }

/-- `read`. A Meridian failure goes through as it is; closing the consumer may raise in
its place. -/
def read (command : ReadRangeCommand Token) (env : RangeEnv) : Except Raised (RangePage Token) :=
  match env.consumer with
  | some raised => .error raised
  | none =>
    match env.close with
    | some raised => .error raised
    | none =>
      match reader.readPage command env with
      | .ok page => .ok page
      | .error (.failure failure) => .error (.failure failure)
      | .error raised => .error (.failure (normalizeKafkaError raised command.contract))

end KafkaRangeReader

end MeridianKafka
