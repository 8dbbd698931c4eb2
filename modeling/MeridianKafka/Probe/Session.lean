import MeridianKafka.Config.Settings
import MeridianKafka.Probe.Framing
import MeridianKafka.Probe.Scram

/-!
# Probing one broker

`probe_api_versions` connects to a broker, over TLS unless the Binding has disabled it,
authenticates with the mechanism of the Binding and asks for the protocol ranges.

The part behind the connection (`session`) only calls the two methods of a connection that
send a request, so it is written over any `Requests`: those of a connection, and those of its
wire. `ssl` and the network are parameters.
-/

namespace MeridianKafka

open Framework

namespace KafkaProtocol

open Config (Settings TlsMode)
open KafkaProbeEngine (configurationError)

/-! ### Authentication -/

/-- `bytes.decode()`. -/
def decodeText (bytes : List UInt8) : Reading String :=
  match Utf8.decode bytes with
  | some value => return String.ofList value
  | none => throw .other

/-- `reader.string().decode()`. -/
def text : Reading String := do
  let bytes ← string
  decodeText bytes

def readTexts : ℕ → Reading (List String)
  | 0 => return []
  | count + 1 => do
    let value ← text
    let values ← readTexts count
    return value :: values

/-- What `_authenticate` reads from the response to its handshake: the error and the mechanisms
of the broker. -/
def readMechanisms : Reading (ℤ × List String) := do
  let error ← integer 2
  let count ← integer 4
  if ¬(0 ≤ count ∧ count ≤ 100) then
    throw (configurationError "Kafka SASL mechanism count is invalid")
  else do
    let mechanisms ← readTexts count.toNat
    finish
    return (error, mechanisms)

/-- The methods of a connection that a session calls. -/
structure Requests (σ : Type) where
  request : ℤ → ℤ → List UInt8 → Stateful Raised σ (List UInt8)
  authenticate : List UInt8 → Stateful Raised σ (List UInt8)

def Connection.requests : Requests Connection where
  request := Connection.request
  authenticate := Connection.authenticate

def Wire.requests : Requests Wire where
  request := Wire.request
  authenticate := Wire.authenticate

def authenticationFailed (message : Option String := none) : Raised :=
  .failure { kind := .kafkaAuthenticationFailed, message }

/-- `\x00username\x00password`. -/
def plainToken (username password : String) : String :=
  "\x00" ++ username ++ "\x00" ++ password

section Session

variable {σ : Type} (hashes : Algorithm → Scram.Hash) (connection : Requests σ)
  (settings : Settings) (random : Vector UInt8 24)

/-- The part of `_authenticate` that asks for the mechanism. -/
def handshake (mechanism : String) : Stateful Raised σ Unit := do
  let body ← Stateful.ofExcept (Connection.string mechanism)
  let frame ← connection.request 17 1 body
  let (error, mechanisms) ← Stateful.ofExcept (Stateful.run readMechanisms ⟨frame, 0⟩).1
  if error ≠ 0 ∨ mechanism ∉ mechanisms then
    throw (authenticationFailed "Kafka does not offer the selected SASL mechanism")
  else return ()

/-- The part of `_authenticate` in which the broker gets to see the credentials. -/
def logIn (mechanism username password : String) : Stateful Raised σ Unit :=
  if mechanism = "PLAIN" then
    if '\x00' ∈ username.toList ∨ '\x00' ∈ password.toList then throw authenticationFailed
    else do
      let _ ← connection.authenticate (utf8 (plainToken username password))
      return ()
  else scram hashes connection.authenticate mechanism username password random

/-- `_authenticate`, with the random bytes of its nonce. -/
def authenticate : Stateful Raised σ Unit :=
  match settings.saslMechanism with
  | none => return ()
  | some mechanism => do
    handshake connection mechanism
    match settings.identity.username, settings.secrets.password with
    | some username, some password => logIn hashes connection random mechanism username password
    | _, _ => throw authenticationFailed

/-- What `probe_api_versions` does on its connection. -/
def session : Stateful Raised σ ApiVersions := do
  authenticate hashes connection settings random
  let body ← connection.request 18 0 []
  Stateful.ofExcept (parseApiVersions body)

end Session

/-! ### The connection -/

/-- What an `SSLContext` is set up with. -/
structure TlsContext where
  /-- The certificates that a peer is trusted for; without them, those of the system. -/
  cadata : Option String
  minimumVersion : String
  /-- The certificate, its key, and the password of the key. -/
  certChain : Option (String × String × Option String) := none
  deriving DecidableEq, Repr

/-- `_tls_context`. -/
def tlsContext (settings : Settings) : TlsContext where
  cadata := settings.tlsCaPem
  minimumVersion := "TLSv1.2"
  certChain :=
    if settings.tlsMode = .mutual then
      some (settings.tlsClientCertificatePem.getD "", settings.secrets.privateKeyPem.getD "",
        settings.secrets.privateKeyPassword)
    else none

/-- The network of a probe, with its clock. -/
structure Network where
  /-- What `time.monotonic` tells before a connection is made. -/
  monotonicNs : ℤ
  /-- `socket.create_connection`. -/
  connect : String → ℤ → Except Raised Socket
  /-- `context.wrap_socket`, with the host name that the certificate has to be for. What the
  context is set up with may be refused before. -/
  wrap : TlsContext → String → Socket → Except Raised Socket

/-- The socket that a session runs over. -/
def Network.dial (network : Network) (settings : Settings) (host : String) (port : ℤ) :
    Except Raised Socket := do
  let raw ← network.connect host port
  if settings.tlsMode ≠ .disabled then
    network.wrap (tlsContext settings) ((settings.tlsServerName.filter (· ≠ "")).getD host) raw
  else return raw

/-- `probe_api_versions`. -/
def probeApiVersions (hashes : Algorithm → Scram.Hash) (network : Network) (settings : Settings)
    (random : Vector UInt8 24) (host : String) (port deadlineNs : ℤ) :
    Except Raised ApiVersions :=
  if deadlineNs - network.monotonicNs ≤ 0 then .error .other
  else do
    let stream ← network.dial settings host port
    (Stateful.run (session hashes Connection.requests settings random) { stream, deadlineNs }).1

/-! ### Independence of the chunks -/

section Agreement

open Stateful (Agrees)

variable {σ τ : Type} {R : σ → τ → Prop} {hashes : Algorithm → Scram.Hash}

/-- Two connections whose requests agree. -/
structure Requests.Agree (R : σ → τ → Prop) (x : Requests σ) (y : Requests τ) : Prop where
  request : ∀ key version body, Agrees R (x.request key version body) (y.request key version body)
  authenticate : ∀ token, Agrees R (x.authenticate token) (y.authenticate token)

theorem Connection.requests_agree :
    Requests.Agree Connection.Carries Connection.requests Wire.requests where
  request := Connection.agrees_request
  authenticate := Connection.agrees_authenticate

theorem agrees_scram {x : List UInt8 → Stateful Raised σ (List UInt8)}
    {y : List UInt8 → Stateful Raised τ (List UInt8)}
    (agree : ∀ token, Agrees R (x token) (y token))
    (mechanism username password : String) (random : Vector UInt8 24) :
    Agrees R (scram hashes x mechanism username password random)
      (scram hashes y mechanism username password random) := by
  refine (agree _).bind fun response => ?_
  -- both sides read the same challenge
  split
  · exact .throw _
  dsimp only
  split
  · exact .throw _
  refine (agree _).bind fun reply => ?_
  exact .ite (fun _ => .throw _) fun _ => .pure _

variable {x : Requests σ} {y : Requests τ}

theorem agrees_logIn (agree : x.Agree R y) (random : Vector UInt8 24)
    (mechanism username password : String) :
    Agrees R (logIn hashes x random mechanism username password)
      (logIn hashes y random mechanism username password) := by
  refine .ite (fun _ => .ite (fun _ => .throw _) fun _ => ?_) fun _ => ?_
  · exact (agree.authenticate _).bind fun _ => .pure _
  · exact agrees_scram agree.authenticate mechanism username password random

theorem agrees_handshake (agree : x.Agree R y) (mechanism : String) :
    Agrees R (handshake x mechanism) (handshake y mechanism) :=
  (Agrees.ofExcept _).bind fun body => (agree.request 17 1 body).bind fun _ =>
    (Agrees.ofExcept _).bind fun _ => .ite (fun _ => .throw _) fun _ => .pure _

theorem agrees_authenticate (agree : x.Agree R y) (settings : Settings)
    (random : Vector UInt8 24) :
    Agrees R (authenticate hashes x settings random) (authenticate hashes y settings random) := by
  unfold authenticate
  split
  · exact .pure _
  refine (agrees_handshake agree _).bind fun _ => ?_
  split
  · exact agrees_logIn agree random _ _ _
  · exact .throw _

/-- A session does the same over requests that agree. -/
theorem agrees_session (agree : x.Agree R y) (settings : Settings) (random : Vector UInt8 24) :
    Agrees R (session hashes x settings random) (session hashes y settings random) :=
  (agrees_authenticate agree settings random).bind fun _ =>
    (agree.request 18 0 []).bind fun _ => .ofExcept _

end Agreement

end KafkaProtocol

end MeridianKafka
