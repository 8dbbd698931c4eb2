import MeridianKafka.Framework.Reader
import MeridianKafka.Probe.Engine

/-!
# The protocol probe

The adapter asks every broker for its protocol ranges over a connection of its own. This is
the wire side of that exchange: the reader of the responses (`_Reader`), the ranges that an
ApiVersions response lists, and the connection, which sends requests and waits for their
frames.

The socket is driven by its peer and by the network. The peer has sent some bytes and will
then close its side; the network decides how many of them each `recv` hands over, and when
each `recv` and `sendall` takes place.
-/

namespace MeridianKafka

open Framework

/-- A failure of the class `KafkaConfigurationError`. -/
def Raised.IsConfigurationError (raised : Raised) : Prop :=
  ∃ failure : Failure, raised = .failure failure ∧ failure.kind = .kafkaConfigurationError

theorem KafkaProbeEngine.isConfigurationError (message : String) :
    (configurationError message).IsConfigurationError :=
  ⟨_, rfl, rfl⟩

namespace KafkaProtocol

open KafkaProbeEngine (configurationError)

/-! ### Responses -/

/-- A program over a `_Reader`. -/
abbrev Reading := Framework.Reading UInt8 Raised

def take (size : ℤ) : Reading (List UInt8) :=
  Reading.take (configurationError "Kafka probe response is truncated or invalid") size

def integer (size : ℕ) : Reading ℤ := do
  let bytes ← take size
  return BigEndian.toInt bytes

def string : Reading (List UInt8) := do
  let size ← integer 2
  if size = -1 then return [] else take size

def finish : Reading Unit :=
  Reading.finish (configurationError "Kafka probe response contains unexpected fields")

/-! ### Protocol ranges -/

/-- An entry of an ApiVersions response. -/
structure ApiRange where
  key : ℤ
  minimum : ℤ
  maximum : ℤ
  deriving DecidableEq, Repr

def readRange : Reading ApiRange := do
  let key ← integer 2
  let minimum ← integer 2
  let maximum ← integer 2
  return { key, minimum, maximum }

/-- The loop over the entries. -/
def readRanges : ℕ → ApiVersions → Reading ApiVersions
  | 0, result => return result
  | count + 1, result => do
    let range ← readRange
    if range.key < 0 ∨ (result.get? range.key.toNat).isSome ∨
        ¬(0 ≤ range.minimum ∧ range.minimum ≤ range.maximum) then
      throw (configurationError "Kafka ApiVersions range is invalid")
    else readRanges count (result.set range.key.toNat (range.minimum, range.maximum))

def readApiVersions : Reading ApiVersions := do
  let error ← integer 2
  if error ≠ 0 then
    throw (configurationError "Kafka ApiVersions protocol request was rejected")
  else do
    let count ← integer 4
    if ¬(1 ≤ count ∧ count ≤ 1000) then
      throw (configurationError "Kafka ApiVersions count is invalid")
    else readRanges count.toNat .empty

/-- What `parse_api_versions` does to its reader. -/
def readResponse (data : List UInt8) : Except Raised ApiVersions × Reader UInt8 :=
  Stateful.run (do let result ← readApiVersions; finish; return result) ⟨data, 0⟩

/-- `parse_api_versions`. -/
def parseApiVersions (data : List UInt8) : Except Raised ApiVersions := (readResponse data).1

/-! ### The socket -/

/-- A socket with what its peer and the network have in store for it. -/
structure Socket where
  /-- The bytes that are still to come; then the peer closes its side. -/
  incoming : List UInt8
  /-- How many bytes each `recv` hands over, if so many are asked for and are still to come. It
  hands over one at least. -/
  chunk : ℕ → ℕ
  /-- What each `time.monotonic` tells. -/
  monotonicNs : ℕ → ℤ
  /-- What each `sendall` raises. -/
  sendallRaises : ℕ → Option Raised := fun _ => none
  /-- How many `recv`s there have been. -/
  received : ℕ := 0
  /-- How often the time has been told. -/
  told : ℕ := 0
  /-- What has been handed to `sendall`. -/
  sent : List (List UInt8) := []

/-- `_Connection`. -/
structure Connection where
  stream : Socket
  deadlineNs : ℤ
  correlation : ℤ := 0

/-- A program over a `_Connection`. -/
abbrev Exchange := Stateful Raised Connection

namespace Connection

/-- `struct.pack` of one integer; one that does not fit raises a `struct.error`. -/
def pack (width : ℕ) (value : ℤ) : Except Raised (List UInt8) :=
  if BigEndian.Fits width value then .ok (BigEndian.ofInt width value) else .error .other

/-- `_timeout`. -/
def timeout : Exchange Unit := do
  let c ← get
  set { c with stream := { c.stream with told := c.stream.told + 1 } }
  if c.deadlineNs - c.stream.monotonicNs c.stream.told ≤ 0 then throw .other else return ()

/-- `recv`: the next bytes, and none only when there are no more. -/
def recv (size : ℕ) : Exchange (List UInt8) := do
  let c ← get
  let n := min size (max 1 (c.stream.chunk c.stream.received))
  set { c with stream :=
    { c.stream with
      incoming := c.stream.incoming.drop n
      received := c.stream.received + 1 } }
  return c.stream.incoming.take n

def sendall (payload : List UInt8) : Exchange Unit := do
  let c ← get
  set { c with stream := { c.stream with sent := c.stream.sent ++ [payload] } }
  match c.stream.sendallRaises c.stream.sent.length with
  | some raised => throw raised
  | none => return ()

/-- The loop of `_read`, with the chunks so far. Each turn adds a byte at least, so that the
first argument bounds the turns. -/
def readLoop : ℕ → ℕ → List UInt8 → Exchange (List UInt8)
  | 0, _, chunks => return chunks
  | fuel + 1, size, chunks =>
    if chunks.length < size then do
      timeout
      let chunk ← recv (size - chunks.length)
      if chunk = [] then throw (configurationError "Kafka probe connection closed before response")
      else readLoop fuel size (chunks ++ chunk)
    else return chunks

/-- `_read`. -/
def read (size : ℕ) : Exchange (List UInt8) := readLoop size size []

/-- `_string`. -/
def string (value : String) : Except Raised (List UInt8) := do
  let encoded := utf8 value
  return (← pack 2 encoded.length) ++ encoded

/-- What `request` sends before the body. -/
def header (key version correlation : ℤ) : Except Raised (List UInt8) := do
  return (← pack 2 key) ++ (← pack 2 version) ++ (← pack 4 correlation) ++
    (← string "meridian-probe")

/-- What `request` reads from its frame. -/
def readFrame (correlation size : ℤ) : Reading (List UInt8) := do
  let answered ← integer 4
  if answered ≠ correlation then throw (configurationError "Kafka probe correlation mismatch")
  else take (size - 4)

/-- The part of `request` that sends. -/
def send (key version : ℤ) (body : List UInt8) : Exchange ℤ := do
  let c ← get
  let correlation := c.correlation + 1
  set { c with correlation }
  let payload := (← Stateful.ofExcept (header key version correlation)) ++ body
  timeout
  sendall ((← Stateful.ofExcept (pack 4 payload.length)) ++ payload)
  return correlation

def request (key version : ℤ) (body : List UInt8) : Exchange (List UInt8) := do
  let correlation ← send key version body
  let size := BigEndian.toInt (← read 4)
  if ¬(4 ≤ size ∧ size ≤ 1048576) then
    throw (configurationError "Kafka probe frame size is invalid")
  else do
    let frame ← read size.toNat
    Stateful.ofExcept (Stateful.run (readFrame correlation size) ⟨frame, 0⟩).1

/-- What `authenticate` reads from its response: the error and the bytes. -/
def readAuthentication : Reading (ℤ × List UInt8) := do
  let error ← integer 2
  let _ ← KafkaProtocol.string
  let size ← integer 4
  let response ← take size
  finish
  return (error, response)

def authenticate (token : List UInt8) : Exchange (List UInt8) := do
  let length ← Stateful.ofExcept (pack 4 token.length)
  let frame ← request 36 0 (length ++ token)
  let (error, response) ←
    Stateful.ofExcept (Stateful.run readAuthentication ⟨frame, 0⟩).1
  if error ≠ 0 then throw (.failure { kind := .kafkaAuthenticationFailed }) else return response

end Connection

end KafkaProtocol

end MeridianKafka
