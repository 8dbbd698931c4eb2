import MeridianKafka.Probe.Dialogue
import Mathlib.Order.Bounds.Basic

/-!
# Negotiating versions

`validate_api_versions` compares the protocol ranges of a broker with those of the data plane.
It returns exactly when the two have a version of each required API in common, and then it uses
the highest one; otherwise it names the first API in the order of its tables that has none
(`validateApiVersions_exact`).

`KafkaProbeEngine.probe` does so with every broker of the cluster. With the sessions of
`probe_api_versions` it returns exactly when each of them is a dialogue of the protocol whose
ranges are compatible, in whatever order the metadata has the brokers (`probe_exact`).
-/

namespace MeridianKafka

open Framework

/-! ### One broker -/

/-- The versions that a broker and the data plane have in common. -/
def RequiredApi.common (required : RequiredApi) (range : ℤ × ℤ) : Set ℤ :=
  {version | (range.1 ≤ version ∧ version ≤ range.2) ∧
    required.minimum ≤ version ∧ version ≤ required.maximum}

/-- The failure for an API without a version. -/
def RequiredApi.incompatible (required : RequiredApi) (key : ℕ) : Failure where
  kind := .kafkaConfigurationError
  message := "Kafka required API " ++ required.name ++ " has no compatible protocol version"
  requirement := "kafka.api." ++ toString key

/-- The version of one API, when there is one. -/
def ApiVersions.version (versions : ApiVersions) (api : ℕ × RequiredApi) : Except Failure ℤ :=
  match versions.get? api.1 with
  | none => .error (api.2.incompatible api.1)
  | some (low, high) =>
    if ¬(0 ≤ low ∧ low ≤ high) ∨ high < api.2.minimum ∨ low > api.2.maximum then
      .error (api.2.incompatible api.1)
    else .ok (min high api.2.maximum)

theorem validateApiVersions_eq_fillFrom (versions : ApiVersions) (transactional : Bool) :
    validateApiVersions versions transactional =
      Dict.fillFrom versions.version .empty (requiredApis transactional).entries := by
  unfold validateApiVersions Dict.fillFrom
  congr 1
  funext negotiated api
  obtain ⟨key, required⟩ := api
  unfold ApiVersions.version
  dsimp only
  cases versions.get? key with
  | none => rfl
  | some range =>
    obtain ⟨low, high⟩ := range
    dsimp only
    by_cases hbad : ¬(0 ≤ low ∧ low ≤ high) ∨ high < required.minimum ∨ low > required.maximum
    · rw [if_pos hbad, if_pos hbad]
      rfl
    · rw [if_neg hbad, if_neg hbad]
      rfl

/-- In the tables no range is empty. -/
theorem RequiredApi.minimum_le_maximum {transactional : Bool} {api : ℕ × RequiredApi}
    (h : api ∈ (requiredApis transactional).entries) : api.2.minimum ≤ api.2.maximum := by
  have htables : ∀ transactional, ∀ api ∈ (requiredApis transactional).entries,
      api.2.minimum ≤ api.2.maximum := by decide
  exact htables transactional api h

/-- The broker serves the API, and this is the highest common version. -/
structure ApiVersions.Uses (versions : ApiVersions) (api : ℕ × RequiredApi) (version : ℤ) :
    Prop where
  range : ∃ range, versions.get? api.1 = some range ∧ 0 ≤ range.1 ∧
    IsGreatest (api.2.common range) version

theorem ApiVersions.version_eq_ok_iff {versions : ApiVersions} {api : ℕ × RequiredApi}
    (ordered : api.2.minimum ≤ api.2.maximum) {version : ℤ} :
    versions.version api = .ok version ↔ versions.Uses api version := by
  unfold ApiVersions.version
  cases hrange : versions.get? api.1 with
  | none =>
    refine iff_of_false (by simp) ?_
    rintro ⟨range, hsome, -⟩
    rw [hrange] at hsome
    simp at hsome
  | some range =>
  obtain ⟨low, high⟩ := range
  dsimp only
  split
  · next hbad =>
    refine iff_of_false (by simp) ?_
    rintro ⟨range, hsome, hnonneg, ⟨⟨hlow, hhigh⟩, hminimum, hmaximum⟩, -⟩
    rw [hrange, Option.some_inj] at hsome
    subst hsome
    dsimp only at hnonneg hlow hhigh
    omega
  · next hgood =>
    have hgreatest : IsGreatest (api.2.common (low, high)) (min high api.2.maximum) := by
      refine ⟨⟨⟨?_, ?_⟩, ?_, ?_⟩, ?_⟩
      · dsimp only; omega
      · exact min_le_left _ _
      · omega
      · exact min_le_right _ _
      · rintro v ⟨⟨-, hhigh⟩, -, hmaximum⟩
        exact le_min hhigh hmaximum
    rw [Except.ok.injEq]
    constructor
    · rintro rfl
      exact ⟨(low, high), hrange, by dsimp only; omega, hgreatest⟩
    · rintro ⟨range, hsome, -, hversion⟩
      rw [hrange, Option.some_inj] at hsome
      subst hsome
      exact hgreatest.unique hversion

/-- The check of an API that fails names it. -/
theorem ApiVersions.version_eq_error {versions : ApiVersions} {api : ℕ × RequiredApi}
    {failure : Failure} (h : versions.version api = .error failure) :
    failure = api.2.incompatible api.1 := by
  unfold ApiVersions.version at h
  split at h
  · exact (Except.error.inj h).symm
  · split at h
    · exact (Except.error.inj h).symm
    · simp at h

/-- An API that transactions ask more of is served at the same version without them. -/
theorem requiredApis_transactional :
    ∀ api ∈ baseApis.entries, ∃ required, (requiredApis true).get? api.1 = some required ∧
      api.2.minimum ≤ required.minimum ∧ required.maximum = api.2.maximum := by
  decide

/-- What is used of a narrower requirement with the same end is used of the wider one. -/
theorem ApiVersions.Uses.of_wider {versions : ApiVersions} {key : ℕ} {narrow wide : RequiredApi}
    {version : ℤ} (h : versions.Uses (key, narrow) version)
    (hminimum : wide.minimum ≤ narrow.minimum)
    (hmaximum : narrow.maximum = wide.maximum) : versions.Uses (key, wide) version := by
  obtain ⟨range, hrange, hnonneg, ⟨⟨hlow, hhigh⟩, hfrom, hto⟩, hgreatest⟩ := h.range
  refine ⟨range, hrange, hnonneg, ⟨⟨hlow, hhigh⟩, hminimum.trans hfrom, hto.trans hmaximum.le⟩, ?_⟩
  rintro v ⟨⟨hvlow, hvhigh⟩, -, hvto⟩
  -- the larger of the two is in the narrower range too
  have hmem : max v version ∈ narrow.common range :=
    ⟨⟨hvlow.trans (le_max_left _ _), max_le hvhigh hhigh⟩, hfrom.trans (le_max_right _ _),
      max_le (hvto.trans hmaximum.ge) hto⟩
  exact (le_max_left _ _).trans (hgreatest hmem)

theorem validateApiVersions_eq_ok_iff {versions : ApiVersions} {transactional : Bool}
    {negotiated : Dict ℕ ℤ} :
    validateApiVersions versions transactional = .ok negotiated ↔
      negotiated.keys = (requiredApis transactional).keys ∧
        ∀ key required, (requiredApis transactional).get? key = some required →
          ∃ version, negotiated.get? key = some version ∧
            versions.Uses (key, required) version := by
  rw [validateApiVersions_eq_fillFrom, Dict.fill_eq_ok_iff]
  refine and_congr_right fun _ => forall₂_congr fun key required => imp_congr_right fun hget => ?_
  have hmem : (key, required) ∈ (requiredApis transactional).entries :=
    Dict.mem_entries_iff.mpr hget
  refine exists_congr fun version => and_congr_right fun _ => ?_
  exact ApiVersions.version_eq_ok_iff (RequiredApi.minimum_le_maximum hmem)

/-- An API is used or it is refused. -/
theorem ApiVersions.version_cases (versions : ApiVersions) {transactional : Bool}
    {api : ℕ × RequiredApi} (h : api ∈ (requiredApis transactional).entries) :
    (∃ version, versions.version api = .ok version ∧ versions.Uses api version) ∨
      (versions.version api = .error (api.2.incompatible api.1) ∧
        ¬∃ version, versions.Uses api version) := by
  have hiff : ∀ version, versions.version api = .ok version ↔ versions.Uses api version :=
    fun version => ApiVersions.version_eq_ok_iff (RequiredApi.minimum_le_maximum h)
  cases hversion : versions.version api with
  | ok version => exact Or.inl ⟨version, rfl, (hiff version).mp hversion⟩
  | error failure =>
    refine Or.inr ⟨congrArg _ (ApiVersions.version_eq_error hversion), ?_⟩
    rintro ⟨version, huses⟩
    rw [(hiff version).mpr huses] at hversion
    simp at hversion

theorem validateApiVersions_eq_error_iff {versions : ApiVersions} {transactional : Bool}
    {failure : Failure} :
    validateApiVersions versions transactional = .error failure ↔
      ∃ before key required later,
        (requiredApis transactional).entries = before ++ (key, required) :: later ∧
        failure = required.incompatible key ∧
        (¬∃ version, versions.Uses (key, required) version) ∧
        ∀ api ∈ before, ∃ version, versions.Uses api version := by
  rw [validateApiVersions_eq_fillFrom, Dict.fillFrom_eq_error_iff]
  constructor
  · rintro ⟨before, ⟨key, required⟩, later, heq, herror, hbefore⟩
    have hmem : ∀ api ∈ before ++ (key, required) :: later,
        api ∈ (requiredApis transactional).entries := fun api hapi => heq ▸ hapi
    refine ⟨before, key, required, later, heq, ApiVersions.version_eq_error herror, ?_,
      fun api hapi => ?_⟩
    · rcases versions.version_cases (hmem (key, required) (by simp)) with
        ⟨version, hok, -⟩ | ⟨-, hnone⟩
      · rw [hok] at herror
        simp at herror
      · exact hnone
    · obtain ⟨version, hok⟩ := hbefore api hapi
      exact ⟨version, (ApiVersions.version_eq_ok_iff (RequiredApi.minimum_le_maximum
        (hmem api (by simp [hapi])))).mp hok⟩
  · rintro ⟨before, key, required, later, heq, rfl, hnone, hbefore⟩
    have hmem : ∀ api ∈ before ++ (key, required) :: later,
        api ∈ (requiredApis transactional).entries := fun api hapi => heq ▸ hapi
    refine ⟨before, (key, required), later, heq, ?_, fun api hapi => ?_⟩
    · exact ((versions.version_cases (hmem (key, required) (by simp))).resolve_left
        fun ⟨version, _, huses⟩ => hnone ⟨version, huses⟩).1
    · obtain ⟨version, huses⟩ := hbefore api hapi
      exact ⟨version, (ApiVersions.version_eq_ok_iff (RequiredApi.minimum_le_maximum
        (hmem api (by simp [hapi])))).mpr huses⟩

/-- **Negotiation is exact.** The ranges of a broker are accepted exactly when it serves a version
of each required API that the data plane can speak, and then the highest one is used. Otherwise
the failure names the first API of the tables without such a version. A broker that is accepted
with transactions is accepted without them, at the same versions. -/
theorem validateApiVersions_exact (versions : ApiVersions) (transactional : Bool) :
    (∀ negotiated, validateApiVersions versions transactional = .ok negotiated ↔
      negotiated.keys = (requiredApis transactional).keys ∧
        ∀ key required, (requiredApis transactional).get? key = some required →
          ∃ version, negotiated.get? key = some version ∧ versions.Uses (key, required) version) ∧
    (∀ failure, validateApiVersions versions transactional = .error failure ↔
      ∃ before key required later,
        (requiredApis transactional).entries = before ++ (key, required) :: later ∧
        failure = required.incompatible key ∧
        (¬∃ version, versions.Uses (key, required) version) ∧
        ∀ api ∈ before, ∃ version, versions.Uses api version) ∧
    ∀ negotiated, validateApiVersions versions true = .ok negotiated →
      ∃ negotiated', validateApiVersions versions false = .ok negotiated' ∧
        ∀ key ∈ baseApis.keys, negotiated'.get? key = negotiated.get? key := by
  refine ⟨fun negotiated => validateApiVersions_eq_ok_iff,
    fun failure => validateApiVersions_eq_error_iff, fun negotiated hnegotiated => ?_⟩
  obtain ⟨-, hused⟩ := validateApiVersions_eq_ok_iff.mp hnegotiated
  have hbase : ∀ api ∈ baseApis.entries, ∃ version, negotiated.get? api.1 = some version ∧
      versions.Uses api version := by
    intro api hapi
    obtain ⟨required, hrequired, hminimum, hmaximum⟩ := requiredApis_transactional api hapi
    obtain ⟨version, hversion, huses⟩ := hused api.1 required hrequired
    exact ⟨version, hversion, huses.of_wider hminimum hmaximum⟩
  cases hplain : validateApiVersions versions false with
  | error failure =>
    obtain ⟨before, key, required, later, heq, -, hnone, -⟩ :=
      validateApiVersions_eq_error_iff.mp hplain
    have hmem : (key, required) ∈ baseApis.entries := by
      rw [show baseApis.entries = before ++ (key, required) :: later from heq]
      simp
    obtain ⟨version, -, huses⟩ := hbase _ hmem
    exact absurd ⟨version, huses⟩ hnone
  | ok negotiated' =>
    refine ⟨negotiated', rfl, fun key hkey => ?_⟩
    obtain ⟨⟨_, required⟩, hmem, rfl⟩ := List.mem_map.mp hkey
    obtain ⟨version, hversion, huses⟩ := hbase _ hmem
    obtain ⟨version', hversion', huses'⟩ := (validateApiVersions_eq_ok_iff.mp hplain).2 _ required
      (Dict.mem_entries_iff.mp hmem)
    obtain ⟨range, hrange, -, hgreatest⟩ := huses.range
    obtain ⟨range', hrange', -, hgreatest'⟩ := huses'.range
    obtain rfl := Option.some.inj (hrange.symm.trans hrange')
    rw [hversion, hversion', hgreatest.unique hgreatest']

/-! ### The cluster -/

namespace KafkaProbeEngine

open Config (Settings)
open KafkaProtocol (Algorithm Connection Dialogue Exchanged Network probeApiVersions
  run_session_eq_ok_iff)
open Stateful (Leads)

section Probe

variable {settings : KafkaBindingSettings} {env : ProbeEnv}

/-- The probe of a cluster returns when the metadata are in order and the loop over the brokers
returns. -/
theorem inspect_eq_ok_iff {found : AdapterProbe} :
    inspect settings env = .ok found ↔
      ∃ metadata brokers controller, env.listTopics = .ok metadata ∧
        metadata.brokers = some brokers ∧ brokers.entries ≠ [] ∧
        metadata.controllerId = some controller ∧ 0 ≤ controller ∧
        Dict.fillFrom (fun broker => negotiate settings env broker.2) .empty
          brokers.sorted.entries = .ok found.negotiated ∧
        found =
          { transactionEnabled := settings.transactionEnabled
            brokerCount := brokers.entries.length
            clusterId := metadata.clusterId.filter (· ≠ "")
            negotiated := found.negotiated } := by
  unfold inspect
  constructor
  · intro h
    obtain ⟨metadata, hlist, h⟩ := exists_of_bind_eq_ok h
    dsimp only at h
    split at h
    swap
    · exact absurd h (by simp [bind, Except.bind, throw, throwThe, MonadExceptOf.throw])
    next brokers hfilter =>
    rw [pure_bind] at h
    split at h
    · exact absurd h (by simp [bind, Except.bind, throw, throwThe, MonadExceptOf.throw])
    next hcontroller =>
    obtain ⟨negotiated, hnegotiated, h⟩ := exists_of_bind_eq_ok h
    obtain rfl := Except.ok.inj h
    rw [Option.filter_eq_some_iff] at hfilter
    rw [not_not, Option.any_eq_true] at hcontroller
    obtain ⟨controller, hsome, hnonneg⟩ := hcontroller
    exact ⟨metadata, brokers, controller, hlist, hfilter.1, by simpa using hfilter.2, hsome,
      by simpa using hnonneg, hnegotiated, rfl⟩
  · rintro ⟨metadata, brokers, controller, hlist, hbrokers, hne, hcontroller, hnonneg, hnegotiated,
      hfound⟩
    have hfilter : metadata.brokers.filter (!·.entries.isEmpty) = some brokers := by
      rw [Option.filter_eq_some_iff]
      exact ⟨hbrokers, by simpa using hne⟩
    rw [hlist]
    refine bind_eq_ok_iff.mpr ⟨metadata, rfl, ?_⟩
    dsimp only
    rw [hfilter]
    dsimp only
    rw [pure_bind, if_neg (by simp [hcontroller, hnonneg])]
    exact bind_eq_ok_iff.mpr ⟨_, hnegotiated, congrArg Except.ok hfound.symm⟩

theorem probe_eq_ok_iff {found : AdapterProbe} :
    probe settings env = .ok found ↔ inspect settings env = .ok found ∧ env.emit = none := by
  unfold probe
  cases hinspect : inspect settings env with
  | error raised => simp
  | ok found' =>
    dsimp only
    cases env.emit with
    | none => simp
    | some raised => simp

/-- The broker has an endpoint, and its ranges are compatible. -/
theorem negotiate_eq_ok_iff {broker : BrokerMetadata} {negotiated : Dict ℕ ℤ} :
    negotiate settings env broker = .ok negotiated ↔
      ∃ host port versions, broker.host = some host ∧ broker.port = some port ∧
        (1 ≤ port ∧ port ≤ 65535) ∧ env.apiVersions host port = .ok versions ∧
          validateApiVersions versions settings.transactionEnabled = .ok negotiated := by
  unfold negotiate
  cases hhost : broker.host with
  | none => simp
  | some host =>
  cases hport : broker.port with
  | none => simp
  | some port =>
  dsimp only
  split
  · next hrange =>
    rw [bind_eq_ok_iff]
    simp only [mapError_eq_ok_iff]
    constructor
    · rintro ⟨versions, hversions, hvalidate⟩
      exact ⟨host, port, versions, rfl, rfl, hrange, hversions, hvalidate⟩
    · rintro ⟨_, _, versions, hhost', hport', -, hversions, hvalidate⟩
      obtain rfl := Option.some.inj hhost'
      obtain rfl := Option.some.inj hport'
      exact ⟨versions, hversions, hvalidate⟩
  · next hrange =>
    refine iff_of_false (by simp) ?_
    rintro ⟨host', port', versions, hhost', hport', hrange', -⟩
    obtain rfl := Option.some.inj hport'
    exact hrange hrange'

/-- The probe does not depend on the order in which the metadata have the brokers. -/
theorem inspect_eq_of_get?_eq {env' : ProbeEnv} {metadata metadata' : ClusterMetadata}
    {brokers brokers' : Dict ℕ BrokerMetadata} (hlist : env.listTopics = .ok metadata)
    (hlist' : env'.listTopics = .ok metadata') (hbrokers : metadata.brokers = some brokers)
    (hbrokers' : metadata'.brokers = some brokers')
    (same : ∀ id, brokers.get? id = brokers'.get? id)
    (controllerId : metadata.controllerId = metadata'.controllerId)
    (clusterId : metadata.clusterId = metadata'.clusterId)
    (apiVersions : env.apiVersions = env'.apiVersions) :
    inspect settings env = inspect settings env' := by
  have hsorted := Dict.sorted_eq_of_get?_eq same
  have hlength := (Dict.perm_entries_of_get?_eq same).length_eq
  have hnegotiate : negotiate settings env = negotiate settings env' := by
    funext broker
    unfold negotiate
    rw [apiVersions]
  -- there are brokers in the one when there are in the other
  have hempty : brokers.entries.isEmpty = brokers'.entries.isEmpty := by
    rw [Bool.eq_iff_iff, List.isEmpty_iff_length_eq_zero, List.isEmpty_iff_length_eq_zero, hlength]
  have hlist₁ : env.listTopics = pure metadata := hlist
  have hlist₂ : env'.listTopics = pure metadata' := hlist'
  unfold inspect
  rw [hlist₁, hlist₂, hnegotiate, pure_bind, pure_bind, hbrokers, hbrokers', Option.filter_some,
    Option.filter_some, hempty, controllerId, clusterId]
  dsimp only
  by_cases hnone : (!brokers'.entries.isEmpty) = true
  · rw [if_pos hnone, if_pos hnone]
    dsimp only
    rw [pure_bind, pure_bind, hsorted, hlength]
  · rw [if_neg hnone, if_neg hnone]

end Probe

section Cluster

variable (hashes : Algorithm → Scram.Hash) (network : Network) (settings : Settings)
  (random : String → ℤ → Vector UInt8 24) (deadlineNs : ℤ)

/-- A probe whose brokers are asked over the network, as `ConfluentKafkaClientFactory` does. -/
def overNetwork (listTopics : Except Raised ClusterMetadata) (emit : Option Raised) : ProbeEnv where
  listTopics
  apiVersions host port :=
    probeApiVersions hashes network settings (random host port) host port deadlineNs
  emit

/-- A new connection. -/
def opened (stream : KafkaProtocol.Socket) : Connection := { stream, deadlineNs }

/-- The broker can be reached, its session is a dialogue of the protocol, and these are the
versions that are used with it. -/
def Serves (broker : BrokerMetadata) (negotiated : Dict ℕ ℤ) : Prop :=
  ∃ host port stream turns w versions, broker.host = some host ∧ broker.port = some port ∧
    (1 ≤ port ∧ port ≤ 65535) ∧ network.monotonicNs < deadlineNs ∧
    network.dial settings host port = .ok stream ∧
    Dialogue hashes settings (random host port) turns versions ∧
    Leads Exchanged turns (opened deadlineNs stream).wire w ∧
    negotiated.keys = (requiredApis settings.transactionEnabled).keys ∧
    ∀ key required, (requiredApis settings.transactionEnabled).get? key = some required →
      ∃ version, negotiated.get? key = some version ∧ versions.Uses (key, required) version

variable {hashes network settings random deadlineNs}

theorem probeApiVersions_eq_ok_iff {nonce : Vector UInt8 24} {host : String} {port : ℤ}
    (time : ∀ stream, network.dial settings host port = .ok stream →
      (opened deadlineNs stream).BeforeDeadline) {versions : ApiVersions} :
    probeApiVersions hashes network settings nonce host port deadlineNs = .ok versions ↔
      ∃ stream turns w, network.monotonicNs < deadlineNs ∧
        network.dial settings host port = .ok stream ∧
        Dialogue hashes settings nonce turns versions ∧
        Leads Exchanged turns (opened deadlineNs stream).wire w := by
  unfold probeApiVersions
  split
  · next hlate =>
    refine iff_of_false (by simp) ?_
    rintro ⟨stream, turns, w, hearly, -⟩
    omega
  next hearly =>
  rw [bind_eq_ok_iff]
  constructor
  · rintro ⟨stream, hdial, hsession⟩
    obtain ⟨turns, w, hdialogue, hleads⟩ := (run_session_eq_ok_iff (time stream hdial)).mp hsession
    exact ⟨stream, turns, w, by omega, hdial, hdialogue, hleads⟩
  · rintro ⟨stream, turns, w, -, hdial, hdialogue, hleads⟩
    exact ⟨stream, hdial,
      (run_session_eq_ok_iff (time stream hdial)).mpr ⟨turns, w, hdialogue, hleads⟩⟩

theorem negotiate_overNetwork (time : ∀ host port stream,
      network.dial settings host port = .ok stream → (opened deadlineNs stream).BeforeDeadline)
    {listTopics : Except Raised ClusterMetadata} {emit : Option Raised} {broker : BrokerMetadata}
    {negotiated : Dict ℕ ℤ} :
    negotiate settings.toKafkaBindingSettings
        (overNetwork hashes network settings random deadlineNs listTopics emit) broker =
        .ok negotiated ↔
      Serves hashes network settings random deadlineNs broker negotiated := by
  rw [negotiate_eq_ok_iff]
  constructor
  · rintro ⟨host, port, versions, hhost, hport, hrange, hversions, hvalidate⟩
    obtain ⟨stream, turns, w, hearly, hdial, hdialogue, hleads⟩ :=
      (probeApiVersions_eq_ok_iff (time host port)).mp hversions
    exact ⟨host, port, stream, turns, w, versions, hhost, hport, hrange, hearly, hdial, hdialogue,
      hleads, validateApiVersions_eq_ok_iff.mp hvalidate⟩
  · rintro ⟨host, port, stream, turns, w, versions, hhost, hport, hrange, hearly, hdial, hdialogue,
      hleads, hused⟩
    exact ⟨host, port, versions, hhost, hport, hrange,
      (probeApiVersions_eq_ok_iff (time host port)).mpr
        ⟨stream, turns, w, hearly, hdial, hdialogue, hleads⟩,
      validateApiVersions_eq_ok_iff.mpr hused⟩

variable (hashes network settings random deadlineNs)

/-- **The probe of a cluster is exact.** It returns exactly when the metadata have brokers and a
controller, each broker is reached, authenticates the adapter in a dialogue of the protocol and
serves a version of each required API, and the sink takes the event; and then it has the highest
common version of each API with each broker. The order in which the metadata have the brokers
makes no difference, not even to the failure. -/
theorem probe_exact (time : ∀ host port stream,
      network.dial settings host port = .ok stream → (opened deadlineNs stream).BeforeDeadline)
    (emit : Option Raised) :
    (∀ listTopics found, probe settings.toKafkaBindingSettings
        (overNetwork hashes network settings random deadlineNs listTopics emit) = .ok found ↔
      emit = none ∧ ∃ metadata brokers controller, listTopics = .ok metadata ∧
        metadata.brokers = some brokers ∧ brokers.entries ≠ [] ∧
        metadata.controllerId = some controller ∧ 0 ≤ controller ∧
        found.transactionEnabled = settings.transactionEnabled ∧
        found.brokerCount = brokers.entries.length ∧
        found.clusterId = metadata.clusterId.filter (· ≠ "") ∧
        found.negotiated.keys = brokers.sorted.keys ∧
        ∀ id broker, brokers.get? id = some broker → ∃ negotiated,
          found.negotiated.get? id = some negotiated ∧
          Serves hashes network settings random deadlineNs broker negotiated) ∧
    ∀ metadata metadata' brokers brokers', metadata.brokers = some brokers →
      metadata'.brokers = some brokers' → (∀ id, brokers.get? id = brokers'.get? id) →
      metadata.controllerId = metadata'.controllerId →
      metadata.clusterId = metadata'.clusterId →
        probe settings.toKafkaBindingSettings
            (overNetwork hashes network settings random deadlineNs (.ok metadata) emit) =
          probe settings.toKafkaBindingSettings
            (overNetwork hashes network settings random deadlineNs (.ok metadata') emit) := by
  refine ⟨fun listTopics found => ?_, ?_⟩
  · rw [probe_eq_ok_iff, inspect_eq_ok_iff, and_comm]
    refine and_congr_right fun _ => exists_congr fun metadata => exists_congr fun brokers =>
      exists_congr fun controller => and_congr_right fun _ => and_congr_right fun _ =>
        and_congr_right fun _ => and_congr_right fun _ => and_congr_right fun _ => ?_
    rw [Dict.fill_eq_ok_iff]
    simp only [Dict.get?_sorted, negotiate_overNetwork time]
    constructor
    · rintro ⟨⟨hkeys, hserves⟩, hfound⟩
      rw [hfound]
      exact ⟨rfl, rfl, rfl, hkeys, hserves⟩
    · obtain ⟨transactionEnabled, brokerCount, clusterId, negotiated⟩ := found
      rintro ⟨rfl, rfl, rfl, hkeys, hserves⟩
      exact ⟨⟨hkeys, hserves⟩, rfl⟩
  · intro metadata metadata' brokers brokers' hbrokers hbrokers' same controllerId clusterId
    have hinspect : inspect settings.toKafkaBindingSettings
          (overNetwork hashes network settings random deadlineNs (.ok metadata) emit) =
        inspect settings.toKafkaBindingSettings
          (overNetwork hashes network settings random deadlineNs (.ok metadata') emit) :=
      inspect_eq_of_get?_eq rfl rfl hbrokers hbrokers' same controllerId clusterId rfl
    unfold probe
    rw [hinspect]
    rfl

end Cluster

namespace ClusterSample

/-- The answers of a broker that has PLAIN, and serves what the data plane can speak. -/
def turns : List KafkaProtocol.Turn :=
  KafkaProtocol.SessionSample.turns.take 2 ++
    [⟨.apiVersions, KafkaProtocol.encodeApiVersions (baseApis.entries.map fun api =>
      { key := api.1, minimum := api.2.minimum, maximum := api.2.maximum })⟩]

/-- A network in which it is behind every endpoint. -/
def network : Network where
  monotonicNs := 0
  connect _ _ :=
    .ok
      { incoming := KafkaProtocol.answerFrames 0 turns
        chunk := fun _ => 1000
        monotonicNs := fun _ => 0 }
  wrap _ _ raw := .ok raw

def brokers : List (ℕ × BrokerMetadata) :=
  [(1, { host := some "b", port := some 9092 }), (0, { host := some "a", port := some 9092 })]

def metadata (brokers : List (ℕ × BrokerMetadata)) : ClusterMetadata where
  brokers := some (Dict.ofList brokers)
  controllerId := some 0
  clusterId := some "cluster"

def env (brokers : List (ℕ × BrokerMetadata)) : ProbeEnv :=
  overNetwork KafkaProtocol.ScramSample.hashes network KafkaProtocol.SessionSample.settings
    (fun _ _ => Vector.replicate 24 0) 1 (.ok (metadata brokers)) none

end ClusterSample

/-- A cluster of two brokers, in either order. -/
theorem probe_two_brokers :
    ∃ found : AdapterProbe, found.brokerCount = 2 ∧
      probe KafkaProtocol.SessionSample.settings.toKafkaBindingSettings
        (ClusterSample.env ClusterSample.brokers) = .ok found ∧
      probe KafkaProtocol.SessionSample.settings.toKafkaBindingSettings
        (ClusterSample.env ClusterSample.brokers.reverse) = .ok found := by
  have hreturns : (probe KafkaProtocol.SessionSample.settings.toKafkaBindingSettings
      (ClusterSample.env ClusterSample.brokers)).toBool = true := by
    decide +kernel
  obtain ⟨found, hfound⟩ := exists_ok_of_toBool hreturns
  have time : ∀ host port stream,
      ClusterSample.network.dial KafkaProtocol.SessionSample.settings host port = .ok stream →
        (opened 1 stream).BeforeDeadline := by
    intro host port stream h
    obtain rfl := Except.ok.inj h
    exact fun _ => Int.one_pos
  obtain ⟨hexact, horder⟩ := probe_exact KafkaProtocol.ScramSample.hashes ClusterSample.network
    KafkaProtocol.SessionSample.settings (fun _ _ => Vector.replicate 24 0) 1 time none
  obtain ⟨-, metadata, brokers, -, hmetadata, hbrokers, -, -, -, -, hcount, -⟩ :=
    (hexact (.ok (ClusterSample.metadata ClusterSample.brokers)) found).mp hfound
  obtain rfl := Except.ok.inj hmetadata
  obtain rfl := Option.some.inj hbrokers
  refine ⟨found, hcount, hfound, ?_⟩
  have hnodup : (ClusterSample.brokers.map Prod.fst).Nodup := by decide
  have hnodup' : (ClusterSample.brokers.reverse.map Prod.fst).Nodup := by decide
  have hget : ∀ id, (Dict.ofList ClusterSample.brokers).get? id =
      (Dict.ofList ClusterSample.brokers.reverse).get? id := by
    intro id
    rw [Dict.get?_ofList hnodup, Dict.get?_ofList hnodup']
    exact Dict.lookup_eq_of_perm (List.reverse_perm _) hnodup' id
  have hsame := horder (ClusterSample.metadata ClusterSample.brokers)
    (ClusterSample.metadata ClusterSample.brokers.reverse) _ _ rfl rfl hget rfl rfl
  exact hsame.symm.trans hfound

end KafkaProbeEngine

end MeridianKafka
