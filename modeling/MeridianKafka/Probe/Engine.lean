import MeridianKafka.Contract

/-!
# The metadata probe

`KafkaProbeEngine.probe` asks the admin client for the brokers of the cluster, and every
broker for the protocol ranges that it serves. `validateApiVersions` compares these with
what the data plane needs. What the probe returns is kept up to the fingerprints that the
source takes of it.

A failure that is Meridian's own goes on as it is; anything else is normalized.
-/

namespace MeridianKafka

open Framework

/-- The version ranges that a broker answers with, by API key. -/
abbrev ApiVersions := Dict ℕ (ℤ × ℤ)

/-- An API that the data plane needs: its name and the versions that it can speak. -/
structure RequiredApi where
  name : String
  minimum : ℤ
  maximum : ℤ
  deriving DecidableEq, Repr

/-- `BASE_APIS`. -/
def baseApis : Dict ℕ RequiredApi where
  entries :=
    [(0, ⟨"Produce/record-batch-v2", 3, 10⟩),
      (1, ⟨"Fetch/committed-reads", 4, 16⟩),
      (2, ⟨"ListOffsets/retained-range", 1, 7⟩),
      (3, ⟨"Metadata", 0, 13⟩),
      (8, ⟨"OffsetCommit", 1, 9⟩),
      (9, ⟨"OffsetFetch", 1, 9⟩),
      (10, ⟨"FindCoordinator", 0, 2⟩),
      (11, ⟨"JoinGroup", 0, 5⟩),
      (12, ⟨"Heartbeat", 0, 3⟩),
      (13, ⟨"LeaveGroup", 0, 1⟩),
      (14, ⟨"SyncGroup", 0, 3⟩),
      (18, ⟨"ApiVersions", 0, 0⟩),
      (22, ⟨"InitProducerId/idempotence", 0, 4⟩),
      (32, ⟨"DescribeConfigs/physical-lifecycle", 0, 1⟩)]
  nodup := by decide

/-- `TRANSACTION_APIS`. -/
def transactionApis : List (ℕ × RequiredApi) :=
  [(10, ⟨"FindCoordinator/transaction", 1, 2⟩),
    (24, ⟨"AddPartitionsToTxn", 0, 0⟩),
    (25, ⟨"AddOffsetsToTxn", 0, 0⟩),
    (26, ⟨"EndTxn", 0, 1⟩),
    (28, ⟨"TxnOffsetCommit/group-generation", 3, 3⟩)]

/-- The union of the two tables; an entry of the second takes the place of one of the
first. -/
def requiredApis (transactional : Bool) : Dict ℕ RequiredApi :=
  if transactional then transactionApis.foldl (fun apis (key, api) => apis.set key api) baseApis
  else baseApis

/-- `validate_api_versions`, by the version that is used of each API. -/
def validateApiVersions (versions : ApiVersions) (transactional : Bool) :
    Except Failure (Dict ℕ ℤ) :=
  (requiredApis transactional).entries.foldlM
    (fun negotiated (key, required) =>
      let incompatible : Failure :=
        { kind := .kafkaConfigurationError
          message := "Kafka required API " ++ required.name ++ " has no compatible protocol version"
          requirement := "kafka.api." ++ toString key }
      match versions.get? key with
      | none => .error incompatible
      | some (low, high) =>
        if ¬(0 ≤ low ∧ low ≤ high) ∨ high < required.minimum ∨ low > required.maximum then
          .error incompatible
        else .ok (negotiated.set key (min high required.maximum)))
    .empty

/-- What the metadata says of a broker; an endpoint of another type reads as none. -/
structure BrokerMetadata where
  host : Option String
  port : Option ℤ
  deriving DecidableEq, Repr

structure ClusterMetadata where
  brokers : Option (Dict ℕ BrokerMetadata)
  controllerId : Option ℤ
  clusterId : Option String

/-- What a probe finds out. -/
structure AdapterProbe where
  transactionEnabled : Bool
  brokerCount : ℕ
  clusterId : Option String
  /-- The versions that are used with each broker. -/
  negotiated : Dict ℕ (Dict ℕ ℤ)

/-- What the admin client, the brokers and the telemetry answer to a probe. -/
structure ProbeEnv where
  listTopics : Except Raised ClusterMetadata
  apiVersions : String → ℤ → Except Raised ApiVersions
  emit : Option Raised := none

/-- A failure of Meridian goes on as it is, and everything else is normalized. -/
def Raised.meridian (raised : Raised) (operationContract : Option String) : Raised :=
  match raised with
  | .failure selected => .failure selected
  | raised => .failure (normalizeKafkaError raised operationContract)

namespace KafkaProbeEngine

variable (settings : KafkaBindingSettings) (env : ProbeEnv)

def configurationError (message : String) : Raised :=
  .failure { kind := .kafkaConfigurationError, message }

/-- The versions that are used with one broker. -/
def negotiate (broker : BrokerMetadata) : Except Raised (Dict ℕ ℤ) :=
  match broker.host, broker.port with
  | some host, some port =>
    if 1 ≤ port ∧ port ≤ 65535 then do
      let versions ← env.apiVersions host port
      (validateApiVersions versions settings.transactionEnabled).mapError .failure
    else .error (configurationError "Kafka broker endpoint metadata is invalid")
  | _, _ => .error (configurationError "Kafka broker endpoint metadata is invalid")

/-- The part of `probe` whose failures are normalized. -/
def inspect : Except Raised AdapterProbe := do
  let metadata ← env.listTopics
  let brokers ←
    match metadata.brokers.filter (!·.entries.isEmpty) with
    | some brokers => pure brokers
    | none => throw (configurationError "authenticated Kafka probe returned no brokers")
  if ¬metadata.controllerId.any (0 ≤ ·) then
    throw (configurationError "authenticated Kafka probe returned no controller")
  let negotiated ← brokers.sorted.entries.foldlM
    (fun negotiated (id, broker) =>
      return negotiated.set id (← negotiate settings env broker)) Dict.empty
  .ok
    { transactionEnabled := settings.transactionEnabled
      brokerCount := brokers.entries.length
      clusterId := metadata.clusterId.filter (· ≠ "")
      negotiated }

/-- `probe`. -/
def probe : Except Raised AdapterProbe :=
  match inspect settings env with
  | .error raised => .error (raised.meridian "meridian.kafka.probe")
  | .ok found =>
    match env.emit with
    | some raised => .error raised
    | none => .ok found

end KafkaProbeEngine

end MeridianKafka
