import MeridianKafka.Config.Settings

/-!
# The configuration of the Kafka clients

`KafkaClientConfiguration`: the settings of a Binding become the dictionaries that the
clients of librdkafka are created with. Each client adds its own entries to those that all
of them share.
-/

namespace MeridianKafka

open Framework

namespace Config

inductive ClientConfigValue
  | str (value : String)
  | int (value : ℕ)
  | bool (value : Bool)
  deriving DecidableEq, Repr

abbrev ClientConfig := Dict String ClientConfigValue

namespace Settings

variable (settings : Settings)

def securityProtocol : String :=
  if settings.tlsMode = .disabled then
    if settings.saslMechanism.isSome then "SASL_PLAINTEXT" else "PLAINTEXT"
  else if settings.saslMechanism.isSome then "SASL_SSL" else "SSL"

/-- The entries of a SASL login, when there is one. -/
def saslEntries : Except Failure (List (String × ClientConfigValue)) :=
  match settings.saslMechanism with
  | none => .ok []
  | some mechanism =>
    match settings.identity.username, settings.secrets.password with
    | some username, some password =>
      .ok [("sasl.mechanism", .str mechanism), ("sasl.username", .str username),
        ("sasl.password", .str password)]
    | _, _ => .error (invalid "resolved SASL material is unavailable")

/-- The entries of TLS, when it is not disabled. -/
def tlsEntries : Except Failure (List (String × ClientConfigValue)) :=
  if settings.tlsMode = .disabled then .ok []
  else
    match settings.tlsCaPem with
    | none => .error (invalid "resolved TLS CA is unavailable")
    | some ca =>
      .ok [("enable.ssl.certificate.verification", .bool true),
        ("ssl.endpoint.identification.algorithm", .str "https"), ("ssl.ca.pem", .str ca)]

/-- The entries of a client certificate, under mutual TLS. An empty password counts as
none. -/
def certificateEntries : Except Failure (List (String × ClientConfigValue)) :=
  if settings.tlsMode = .mutual then
    match settings.tlsClientCertificatePem, settings.secrets.privateKeyPem with
    | some certificate, some privateKey =>
      .ok ([("ssl.certificate.pem", .str certificate), ("ssl.key.pem", .str privateKey)] ++
        ((settings.secrets.privateKeyPassword.filter (· ≠ "")).map fun password =>
          ("ssl.key.password", ClientConfigValue.str password)).toList)
    | _, _ => .error (invalid "resolved mTLS material is unavailable")
  else .ok []

/-- `common`. -/
def commonConfig : Except Failure ClientConfig := do
  let common := Dict.empty.update
    [("bootstrap.servers", .str settings.bootstrapServers),
      ("client.id", .str settings.clientId),
      ("security.protocol", .str settings.securityProtocol),
      ("socket.timeout.ms", .int settings.operationTimeoutMs),
      ("statistics.interval.ms", .int 10000)]
  let sasl ← settings.saslEntries
  let tls ← settings.tlsEntries
  let certificate ← settings.certificateEntries
  return ((common.update sasl).update tls).update certificate

/-- What every producer is configured with. -/
def producerEntries : List (String × ClientConfigValue) :=
  [("enable.idempotence", .bool true), ("acks", .str "all"), ("retries", .int 2147483647),
    ("max.in.flight.requests.per.connection", .int 5),
    ("delivery.timeout.ms", .int settings.operationTimeoutMs),
    ("request.timeout.ms", .int settings.operationTimeoutMs),
    ("message.send.max.retries", .int 2147483647)]

/-- The entry of a transactional producer. -/
def transactionalEntries : Except Failure (List (String × ClientConfigValue)) :=
  if settings.transactionEnabled then
    match settings.transactionalId with
    | none => .error (invalid "resolved transactional id is unavailable")
    | some transactionalId => .ok [("transactional.id", .str transactionalId)]
  else
    .error (invalid "transactional producer requested without a valid transactional Binding")

/-- `producer`. -/
def producerConfig (transactional : Bool) : Except Failure ClientConfig := do
  let common ← settings.commonConfig
  let producer := common.update settings.producerEntries
  if transactional then return producer.update (← settings.transactionalEntries)
  else return producer

/-- `consumer`. -/
def consumerConfig (groupId : String) (rangeReader : Bool) : Except Failure ClientConfig := do
  let common ← settings.commonConfig
  return common.update
    [("group.id", .str groupId), ("enable.auto.commit", .bool false),
      ("enable.auto.offset.store", .bool false),
      ("auto.offset.reset", .str settings.autoOffsetReset),
      ("isolation.level",
        .str (if settings.readCommitted then "read_committed" else "read_uncommitted")),
      ("session.timeout.ms", .int settings.sessionTimeoutMs),
      ("max.poll.interval.ms", .int settings.maxPollIntervalMs),
      ("enable.partition.eof", .bool rangeReader)]

/-- `admin`. -/
def adminConfig : Except Failure ClientConfig := settings.commonConfig

end Settings

/-- The largest message that a producer takes: `message.max.bytes`, with its default. -/
def ClientConfig.messageMaxBytes (config : ClientConfig) : ℕ :=
  match config.get? "message.max.bytes" with
  | some (.int maximum) => maximum
  | _ => 1000000

namespace Settings

variable {settings : Settings}

/-- No entry that a producer is configured with sets the size of its messages. -/
theorem messageMaxBytes_producerConfig (transactional : Bool) :
    Ensures (settings.producerConfig transactional) fun config =>
      config.messageMaxBytes = 1000000 := by
  -- No dictionary that the configuration is put together from has the key, so librdkafka's default
  -- stands.
  have hsasl : Ensures settings.saslEntries fun l => "message.max.bytes" ∉ l.map Prod.fst := by
    unfold saslEntries
    split
    · exact .pure (by simp)
    · split
      · exact .pure (by simp)
      · exact .error
  have htls : Ensures settings.tlsEntries fun l => "message.max.bytes" ∉ l.map Prod.fst := by
    unfold tlsEntries
    refine .ite (fun _ => .pure (by simp)) fun _ => ?_
    split
    · exact .error
    · exact .pure (by simp)
  have hcertificate : Ensures settings.certificateEntries fun l =>
      "message.max.bytes" ∉ l.map Prod.fst := by
    unfold certificateEntries
    refine .ite (fun _ => ?_) fun _ => .pure (by simp)
    split
    · refine .pure ?_
      cases settings.secrets.privateKeyPassword.filter (· ≠ "") <;> simp
    · exact .error
  have htransactional : Ensures settings.transactionalEntries fun l =>
      "message.max.bytes" ∉ l.map Prod.fst := by
    unfold transactionalEntries
    refine .ite (fun _ => ?_) fun _ => .error
    split
    · exact .error
    · exact .pure (by simp)
  -- `update` after `update` leaves the key absent.
  have hcommon : Ensures settings.commonConfig fun config =>
      config.get? "message.max.bytes" = none := by
    unfold commonConfig
    refine .andThen hsasl fun sasl hsasl => .andThen htls fun tls htls =>
      .andThen hcertificate fun certificate hcertificate => .pure ?_
    rw [Dict.get?_update_of_not_mem hcertificate, Dict.get?_update_of_not_mem htls,
      Dict.get?_update_of_not_mem hsasl, Dict.get?_update_of_not_mem (by simp), Dict.get?_empty]
  have hdefault : ∀ config : ClientConfig, config.get? "message.max.bytes" = none →
      config.messageMaxBytes = 1000000 := by
    intro config hnone
    unfold ClientConfig.messageMaxBytes
    rw [hnone]
  unfold producerConfig
  refine .andThen hcommon fun common hcommon => ?_
  have hproducer : (common.update settings.producerEntries).get? "message.max.bytes" = none := by
    rw [Dict.get?_update_of_not_mem (by simp [producerEntries]), hcommon]
  refine .ite (fun _ => .andThen htransactional fun entries hentries => .pure ?_)
    fun _ => .pure (hdefault _ hproducer)
  exact hdefault _ (by rw [Dict.get?_update_of_not_mem hentries, hproducer])

end Settings

end Config

end MeridianKafka
