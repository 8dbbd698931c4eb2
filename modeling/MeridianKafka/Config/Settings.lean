import MeridianKafka.Config.Resources

/-!
# The settings of a Binding

`KafkaBindingSettings.from_context`: the Binding with its secrets becomes the settings that
the adapter runs on, or a `KafkaConfigurationError`. The checks stand in the order of the
source.

JSON, base64 and the installed versions are parameters. A bare exception is answered with
one text at the end, so the text it had is not modelled.
-/

namespace MeridianKafka

open Framework

/-! ### Keys -/

/-- `^[A-Za-z0-9_-]+$`. -/
def tokenSafe (keyId : String) : Bool :=
  keyId ≠ "" && keyId.toList.all fun c => c.isAlphanum || c = '_' || c = '-'

/-- A key of the ring. -/
structure TokenKey where
  keyId : String
  key : List UInt8
  active : Bool := false
  bounded : boundedString keyId 64 = true
  safe : tokenSafe keyId = true
  size : 32 ≤ key.length ∧ key.length ≤ 128
  deriving DecidableEq

namespace Config

/-- `TokenKey(...)`. -/
def tokenKey (keyId : String) (key : List UInt8) (active : Bool) : Checked TokenKey :=
  if bounded : boundedString keyId 64 = true then
    if safe : tokenSafe keyId = true then
      if size : 32 ≤ key.length ∧ key.length ≤ 128 then
        .ok { keyId, key, active, bounded, safe, size }
      else Checked.fail (invalid "cursor keys must contain 32 to 128 bytes")
    else Checked.fail (invalid "cursor key id must be token-safe")
  else Checked.bare

/-! ### The context -/

inductive TlsMode
  | disabled
  | server
  | mutual
  deriving DecidableEq, Repr

structure TlsConfig where
  mode : TlsMode
  serverName : Option String := none

/-- The part of a Binding that the settings are made of. -/
structure BindingConfig where
  id : String
  adapterId : String
  adapterContract : String
  engineProfile : String
  engineVersion : String
  endpoint : Option String
  serviceRef : Option String := none
  tls : TlsConfig
  compatibilityPins : List (String × String) := []
  settings : Value
  operationTimeoutMs : ℕ

/-- A Binding with its secrets. -/
structure AdapterCreateContext where
  binding : BindingConfig
  identity : List UInt8
  credential : List UInt8
  tlsCa : Option (List UInt8) := none
  tlsClientCertificate : Option (List UInt8) := none

structure Libraries where
  core : CoreLibraries
  /-- `json.loads`; a text that is not JSON is a `ValueError`. -/
  jsonLoads : String → Checked Json
  /-- `base64.b64decode`, with `validate=True`. -/
  b64decode : String → Option (List UInt8)
  /-- The installed versions of these distributions. -/
  clientVersion : String
  coreDistributionVersion : String
  semanticsVersion : String
  streamingVersion : String

/-! ### Secrets -/

structure KafkaIdentity where
  principal : String
  username : Option String := none

structure KafkaSecrets where
  password : Option String := none
  privateKeyPem : Option String := none
  privateKeyPassword : Option String := none
  cursorKeys : List TokenKey := []

/-- `_secret_text`. -/
def secretText (value : List UInt8) (fieldName : String) : Checked String := do
  Checked.require (value ≠ [] ∧ value.length ≤ 1024 * 1024)
    (invalid (fieldName ++ " secret has an invalid size"))
  match String.fromUTF8? ⟨value.toArray⟩ with
  | some text => return text
  | none => Checked.fail (invalid (fieldName ++ " secret must be UTF-8"))

variable (lib : Libraries)

/-- `_parse_identity`: a text that is not JSON is the principal. -/
def parseIdentity (value : List UInt8) : Checked KafkaIdentity := do
  let text ← secretText value "identity"
  match lib.jsonLoads text with
  | .error none => return { principal := ← (Value.str text).boundedString 512 }
  | .error (some raised) => .error (some raised)
  | .ok decoded =>
    let item ← (Value.ofJson decoded).closedObject ["principal", "username"] []
    let principal ← (← Value.field item "principal").boundedString 512
    return { principal, username := ← (← Value.field item "username").optionalString 512 }

/-- A key of the credential. -/
def parseKey (raw : Value) : Checked TokenKey := do
  let item ← raw.closedObject ["id", "keyBase64", "active"] []
  let encoded ← (← Value.field item "keyBase64").boundedString 256
  match lib.b64decode encoded with
  | none => Checked.fail (invalid "cursor key material must be canonical base64")
  | some key =>
    let keyId ← (← Value.field item "id").boundedString 64
    tokenKey keyId key (← boolean (← Value.field item "active") "cursor key active")

def maxCursorKeys : ℕ := 4

/-- `_parse_secrets`. -/
def parseSecrets (value : List UInt8) : Checked KafkaSecrets := do
  let text ← secretText value "credential"
  let decoded ← Checked.answering
    (invalid "credential secret must be a closed JSON object with a cursor key ring")
    (lib.jsonLoads text)
  let item ← (Value.ofJson decoded).closedObject
    ["password", "privateKeyPem", "privateKeyPassword", "cursorKeys"] []
  let rawKeys ← arrayItems "cursorKeys" (some (← Value.field item "cursorKeys"))
  Checked.require (1 ≤ rawKeys.length ∧ rawKeys.length ≤ maxCursorKeys)
    (invalid "cursorKeys must contain between one and four keys")
  let cursorKeys ← rawKeys.mapM (parseKey lib)
  Checked.require ((cursorKeys.filter (·.active)).length = 1)
    (invalid "cursorKeys requires exactly one active key")
  Checked.require ((cursorKeys.map (·.keyId)).Nodup) (invalid "cursor key ids must be unique")
  return {
    password := ← (← Value.field item "password").optionalString 4096
    privateKeyPem := ← (← Value.field item "privateKeyPem").optionalString (64 * 1024)
    privateKeyPassword := ← (← Value.field item "privateKeyPassword").optionalString 4096
    cursorKeys }

/-! ### Settings -/

def adapterId : String := "meridian.kafka"

def adapterContractVersion : String := "1.0.0"

def productionEngineProfile : String := "apache-kafka"

def testEngineProfile : String := "apache-kafka-test"

/-- `KafkaBindingSettings`, with all its fields. -/
structure Settings extends KafkaBindingSettings where
  bindingId : String
  engineProfile : String
  engineVersion : String
  bootstrapServers : String
  clientId : String
  cursorTtlMs : ℕ
  saslMechanism : Option String
  autoOffsetReset : String := "earliest"
  sessionTimeoutMs : ℕ := 45000
  maxPollIntervalMs : ℕ := 300000
  allowPlaintextForTesting : Bool := false
  identity : KafkaIdentity := { principal := "unknown" }
  secrets : KafkaSecrets := {}
  tlsMode : TlsMode := .disabled
  tlsServerName : Option String := none
  tlsCaPem : Option String := none
  tlsClientCertificatePem : Option String := none

/-- What the pins of a Binding are compared with. -/
def observed : List (String × String) :=
  [("adapterContract", adapterContractVersion),
    ("clientVersion", lib.clientVersion),
    ("coreVersion", "1.0.0"),
    ("coreDistributionVersion", lib.coreDistributionVersion),
    ("semanticsVersion", lib.semanticsVersion),
    ("streamingVersion", lib.streamingVersion),
    ("driver", "confluent-kafka")]

/-- A pin that is there is the installed version. -/
def checkPin (pins : List (String × String)) (pin : String × String) : Checked Unit :=
  Checked.require (∀ selected ∈ pins.lookup pin.1, selected = pin.2)
    (invalid ("Installed " ++ pin.1 ++ " differs from the deployment-selected lock"))

/-- The fields of the settings document. -/
def settingsFields : List String :=
  ["clientId", "cursorTtlMs", "saslMechanism", "transactionalId", "readCommitted",
    "autoOffsetReset", "sessionTimeoutMs", "maxPollIntervalMs", "allowPlaintextForTesting",
    "resources"]

/-- The SASL mechanism. An array or a mapping cannot be looked up in a set. -/
def saslMechanism : Value → Checked (Option String)
  | .null => .ok none
  | .str mechanism => do
    Checked.require (mechanism ∈ ["PLAIN", "SCRAM-SHA-256", "SCRAM-SHA-512"])
      (invalid "saslMechanism is not supported")
    return some mechanism
  | .seq _ | .mapping _ => Checked.bare
  | _ => Checked.fail (invalid "saslMechanism is not supported")

/-- The transactional id. -/
def transactionalId : Value → Checked (Option String)
  | .null => .ok none
  | value => some <$> kafkaName value "transactionalId" 255

/-- Where a group without a position starts. -/
def autoOffsetReset : Value → Checked String
  | .str selected => do
    Checked.require (selected = "earliest" ∨ selected = "latest")
      (invalid "autoOffsetReset must be earliest or latest")
    return selected
  | .seq _ | .mapping _ => Checked.bare
  | _ => Checked.fail (invalid "autoOffsetReset must be earliest or latest")

/-- What an engine profile asks of TLS, authentication and the plaintext override. -/
def checkProfile (engineProfile : String) (mode : TlsMode) (sasl : Option String)
    (allowPlaintext : Bool) : Checked Unit :=
  if engineProfile = productionEngineProfile then do
    Checked.require (mode ≠ .disabled) (invalid "the production Kafka profile requires TLS")
    Checked.require (mode = .mutual ∨ sasl.isSome = true)
      (invalid "the production Kafka profile requires mTLS or SASL authentication")
    Checked.require (allowPlaintext = false)
      (invalid "the production Kafka profile forbids the plaintext test override")
  else
    Checked.require (allowPlaintext = true ∧ mode = .disabled)
      (invalid "apache-kafka-test requires disabled TLS and explicit plaintext opt-in")

/-- The text of a secret that may be missing. -/
def optionalSecretText (fieldName : String) : Option (List UInt8) → Checked (Option String)
  | none => .ok none
  | some value => some <$> secretText value fieldName

/-- `part in text`. -/
def contains (text part : String) : Bool := decide (part.toList <:+: text.toList)

/-- The certificates and the key that a TLS mode asks for. -/
def checkTls (mode : TlsMode) (caPem certificatePem privateKeyPem : Option String) :
    Checked Unit := do
  Checked.require (mode = .disabled ∨ caPem.any (contains · "BEGIN CERTIFICATE") = true)
    (invalid "authenticated TLS requires a PEM CA")
  Checked.require (mode = .mutual → certificatePem.any (contains · "BEGIN CERTIFICATE") = true)
    (invalid "mTLS requires a PEM client certificate")
  Checked.require (mode = .mutual → privateKeyPem.any (contains · "PRIVATE KEY") = true)
    (invalid "mTLS requires a PEM private key in secretRef")

/-- `_from_context`. -/
def readContext (context : AdapterCreateContext) : Checked Settings := do
  let binding := context.binding
  Checked.require (binding.adapterId = adapterId)
    (invalid "Binding selected an unexpected Adapter id")
  Checked.require (binding.adapterContract = adapterContractVersion)
    (invalid "Binding must pin Adapter contract 1.0.0 exactly")
  Checked.require
    (binding.engineProfile = productionEngineProfile ∨ binding.engineProfile = testEngineProfile)
    (invalid "Binding selected an unsupported Kafka Engine profile")
  (observed lib).forM (checkPin binding.compatibilityPins)
  match (binding.endpoint.filter (· ≠ "")).or binding.serviceRef with
  | none => Checked.fail (invalid "Kafka Binding requires an endpoint or service reference")
  | some bootstrap =>
    let bootstrapServers ← (Value.str bootstrap).boundedString 2048
    let settings ← binding.settings.closedObject settingsFields []
    let identity ← parseIdentity lib context.identity
    let secrets ← parseSecrets lib context.credential
    let resources ← parseResources lib.core (← Value.field settings "resources")
    let saslMechanism ← saslMechanism (← Value.field settings "saslMechanism")
    let transactionalId ← transactionalId (← Value.field settings "transactionalId")
    let autoOffsetReset ← autoOffsetReset (← Value.field settings "autoOffsetReset")
    let allowPlaintextForTesting ← boolean (← Value.field settings "allowPlaintextForTesting")
      "allowPlaintextForTesting"
    checkProfile binding.engineProfile binding.tls.mode saslMechanism allowPlaintextForTesting
    Checked.require
      (saslMechanism.isSome = true →
        identity.username.isSome = true ∧ secrets.password.isSome = true)
      (invalid "SASL requires a resolved username and password")
    let tlsCaPem ← optionalSecretText "TLS CA" context.tlsCa
    let tlsClientCertificatePem ← optionalSecretText "TLS client certificate"
      context.tlsClientCertificate
    checkTls binding.tls.mode tlsCaPem tlsClientCertificatePem secrets.privateKeyPem
    return {
      bindingId := binding.id
      engineProfile := binding.engineProfile
      engineVersion := binding.engineVersion
      bootstrapServers
      clientId := ← (← Value.field settings "clientId").boundedString 255
      cursorTtlMs := ← positive (← Value.field settings "cursorTtlMs") "cursorTtlMs" 31536000000
      saslMechanism
      transactionalId
      readCommitted := ← boolean (← Value.field settings "readCommitted") "readCommitted"
      autoOffsetReset
      sessionTimeoutMs := ← positive (← Value.field settings "sessionTimeoutMs")
        "sessionTimeoutMs" 3600000
      maxPollIntervalMs := ← positive (← Value.field settings "maxPollIntervalMs")
        "maxPollIntervalMs" 86400000
      allowPlaintextForTesting
      resources
      identity
      secrets
      tlsMode := binding.tls.mode
      tlsServerName := binding.tls.serverName
      tlsCaPem
      tlsClientCertificatePem
      operationTimeoutMs := binding.operationTimeoutMs }

/-- `from_context`. -/
def fromContext (context : AdapterCreateContext) : Checked Settings :=
  Checked.answering (invalid "Kafka Binding settings are invalid") (readContext lib context)

variable {lib}

/-! ### What accepted settings are -/

variable (lib) in
/-- What the settings of a Binding have passed. -/
structure Accepted (context : AdapterCreateContext) (settings : Settings) : Prop where
  engineProfile : settings.engineProfile = context.binding.engineProfile
  /-- The resource map is the one of a document. -/
  resources : ∃ document, parseResources lib.core document = .ok settings.resources
  profile : checkProfile settings.engineProfile settings.tlsMode settings.saslMechanism
    settings.allowPlaintextForTesting = .ok ()
  /-- A SASL mechanism comes with a user name and a password. -/
  login : settings.saslMechanism.isSome = true →
    settings.identity.username.isSome = true ∧ settings.secrets.password.isSome = true
  tls : checkTls settings.tlsMode settings.tlsCaPem settings.tlsClientCertificatePem
    settings.secrets.privateKeyPem = .ok ()

theorem accepted_fromContext (context : AdapterCreateContext) :
    Ensures (fromContext lib context) (Accepted lib context) := by
  refine Checked.ensures_answering ?_
  unfold readContext
  refine .bind fun _ _ => .bind fun _ _ => .bind fun _ _ => .bind fun _ _ => ?_
  split
  · exact .error
  refine .bind fun _ _ => .bind fun settings _ => .bind fun identity _ => .bind fun secrets _ =>
    .bind fun document _ => .bind fun resources hresources => ?_
  refine .bind fun _ _ => .bind fun sasl _ => .bind fun _ _ => .bind fun transactional _ =>
    .bind fun _ _ => .bind fun reset _ => .bind fun _ _ => .bind fun allow _ =>
      .bind fun _ hprofile => .andThen Checked.ensures_require fun _ hlogin => ?_
  refine .bind fun ca _ => .bind fun certificate _ => .bind fun _ htls => ?_
  -- what is left are the fields that are read for the record itself
  refine .bind fun _ _ => .bind fun _ _ => .bind fun _ _ => .bind fun _ _ => .bind fun _ _ =>
    .bind fun _ _ => .bind fun _ _ => .bind fun _ _ => .bind fun _ _ => .bind fun _ _ => ?_
  exact .pure
    { engineProfile := rfl
      resources := ⟨document, hresources⟩
      profile := hprofile
      login := hlogin
      tls := htls }

/-- The resource map of the settings is well formed. -/
theorem wellFormed_fromContext (context : AdapterCreateContext) :
    Ensures (fromContext lib context) fun settings => WellFormed settings.resources := by
  intro settings h
  obtain ⟨document, hresources⟩ := (accepted_fromContext context settings h).resources
  exact wellFormed_parseResources document _ hresources

end Config

end MeridianKafka
