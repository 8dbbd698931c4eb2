import MeridianKafka.Compiler.Scope
import MeridianKafka.Config.Client

/-!
# The production profile

No client of a production Binding talks in clear or without a login. The checks stand in
`fromContext`, where the settings are made, and the dictionaries are built much later; what
lies between them is `Authenticated`, a property of the settings alone. A Binding that is
accepted under the production profile has it (`Accepted.authenticated`), and a dictionary
that is built from settings which have it is `Secured` (`secured_commonConfig`). The entries
that each client adds are other ones, so they leave it as it is.
-/

namespace MeridianKafka

open Framework

namespace Config

/-! ### Settings -/

namespace Settings

/-- Settings for TLS with a login: the certificate of the client, or a SASL mechanism. -/
structure Authenticated (settings : Settings) : Prop where
  encrypted : settings.tlsMode ≠ .disabled
  authority : ∃ ca, settings.tlsCaPem = some ca ∧ contains ca "BEGIN CERTIFICATE" = true
  identified : settings.tlsMode = .mutual ∨ settings.saslMechanism.isSome = true
  login : settings.saslMechanism.isSome = true →
    settings.identity.username.isSome = true ∧ settings.secrets.password.isSome = true
  certificate : settings.tlsMode = .mutual →
    ∃ certificate privateKey, settings.tlsClientCertificatePem = some certificate ∧
      settings.secrets.privateKeyPem = some privateKey ∧
      contains certificate "BEGIN CERTIFICATE" = true ∧
      contains privateKey "PRIVATE KEY" = true

end Settings

/-- A text that has to be there, with a part in it. -/
theorem exists_of_any_contains {text : Option String} {part : String}
    (h : text.any (contains · part) = true) : ∃ t, text = some t ∧ contains t part = true := by
  cases text with
  | none => exact absurd h Bool.false_ne_true
  | some t => exact ⟨t, rfl, h⟩

theorem ensures_checkTls (mode : TlsMode) (ca certificate privateKey : Option String) :
    Ensures (checkTls mode ca certificate privateKey) fun _ =>
      (mode = .disabled ∨ ca.any (contains · "BEGIN CERTIFICATE") = true) ∧
      (mode = .mutual → certificate.any (contains · "BEGIN CERTIFICATE") = true) ∧
      (mode = .mutual → privateKey.any (contains · "PRIVATE KEY") = true) := by
  unfold checkTls
  refine .andThen Checked.ensures_require fun _ hca => ?_
  refine .andThen Checked.ensures_require fun _ hcertificate => ?_
  exact Checked.ensures_require.mono fun _ hkey => ⟨hca, hcertificate, hkey⟩

theorem ensures_checkProfile (mode : TlsMode) (sasl : Option String) (allowPlaintext : Bool) :
    Ensures (checkProfile productionEngineProfile mode sasl allowPlaintext) fun _ =>
      mode ≠ .disabled ∧ (mode = .mutual ∨ sasl.isSome = true) := by
  unfold checkProfile
  rw [if_pos rfl]
  refine .andThen Checked.ensures_require fun _ hmode => ?_
  refine .andThen Checked.ensures_require fun _ hlogin => ?_
  exact Checked.ensures_require.mono fun _ _ => ⟨hmode, hlogin⟩

variable {lib : Libraries} {context : AdapterCreateContext} {settings : Settings}

/-- A Binding that is accepted under the production profile is authenticated. -/
theorem Accepted.authenticated (accepted : Accepted lib context settings)
    (production : settings.engineProfile = productionEngineProfile) :
    settings.Authenticated := by
  have hprofile := accepted.profile
  rw [production] at hprofile
  obtain ⟨hmode, hidentified⟩ := ensures_checkProfile _ _ _ _ hprofile
  obtain ⟨hca, hcertificate, hkey⟩ := ensures_checkTls _ _ _ _ _ accepted.tls
  refine
    { encrypted := hmode
      authority := exists_of_any_contains (hca.resolve_left hmode)
      identified := hidentified
      login := accepted.login
      certificate := fun hmutual => ?_ }
  obtain ⟨certificate, hsome, hpem⟩ := exists_of_any_contains (hcertificate hmutual)
  obtain ⟨privateKey, hsome', hpem'⟩ := exists_of_any_contains (hkey hmutual)
  exact ⟨certificate, privateKey, hsome, hsome', hpem, hpem'⟩

/-! ### Dictionaries -/

namespace ClientConfig

/-- A client with this configuration shows a certificate, with its key. -/
def HasCertificate (config : ClientConfig) : Prop :=
  ∃ certificate privateKey, config.get? "ssl.certificate.pem" = some (.str certificate) ∧
    config.get? "ssl.key.pem" = some (.str privateKey) ∧
    contains certificate "BEGIN CERTIFICATE" = true ∧ contains privateKey "PRIVATE KEY" = true

/-- A client with this configuration logs in over SASL. -/
def HasLogin (config : ClientConfig) : Prop :=
  ∃ mechanism username password, config.get? "sasl.mechanism" = some (.str mechanism) ∧
    config.get? "sasl.username" = some (.str username) ∧
    config.get? "sasl.password" = some (.str password)

/-- A client with this configuration talks over TLS, to a broker whose certificate and name
it verifies, and logs in. -/
structure Secured (config : ClientConfig) : Prop where
  encrypted : config.get? "security.protocol" = some (.str "SSL") ∨
    config.get? "security.protocol" = some (.str "SASL_SSL")
  verified : config.get? "enable.ssl.certificate.verification" = some (.bool true)
  identification : config.get? "ssl.endpoint.identification.algorithm" = some (.str "https")
  authority : ∃ ca, config.get? "ssl.ca.pem" = some (.str ca) ∧
    contains ca "BEGIN CERTIFICATE" = true
  authenticated : config.HasCertificate ∨ config.HasLogin

/-- A client with this configuration produces each record once, on every replica. -/
structure Idempotent (config : ClientConfig) : Prop where
  once : config.get? "enable.idempotence" = some (.bool true)
  acks : config.get? "acks" = some (.str "all")

/-- The keys that `Secured` reads. -/
def securityKeys : List String :=
  ["security.protocol", "enable.ssl.certificate.verification",
    "ssl.endpoint.identification.algorithm", "ssl.ca.pem", "ssl.certificate.pem", "ssl.key.pem",
    "sasl.mechanism", "sasl.username", "sasl.password"]

/-- Entries under other keys change nothing about the security. -/
theorem Secured.update {config : ClientConfig} (secured : config.Secured)
    {entries : List (String × ClientConfigValue)}
    (apart : ∀ key ∈ securityKeys, key ∉ entries.map Prod.fst) :
    ClientConfig.Secured (Dict.update config entries) := by
  have hget : ∀ key ∈ securityKeys, (Dict.update config entries).get? key = config.get? key :=
    fun key hkey => Dict.get?_update_of_not_mem (apart key hkey) config
  -- Every security option is looked up among the old entries.
  refine
    { encrypted := ?_
      verified := ?_
      identification := ?_
      authority := ?_
      authenticated := ?_ }
  · rw [hget _ (by simp [securityKeys])]
    exact secured.encrypted
  · rw [hget _ (by simp [securityKeys])]
    exact secured.verified
  · rw [hget _ (by simp [securityKeys])]
    exact secured.identification
  · rw [hget _ (by simp [securityKeys])]
    exact secured.authority
  · unfold HasCertificate HasLogin
    rw [hget _ (by simp [securityKeys]), hget _ (by simp [securityKeys]),
      hget _ (by simp [securityKeys]), hget _ (by simp [securityKeys]),
      hget _ (by simp [securityKeys])]
    exact secured.authenticated

end ClientConfig

namespace Settings

/-- The entries of TLS that settings with TLS have. -/
theorem Authenticated.tlsEntries (h : settings.Authenticated) :
    ∃ ca, settings.tlsEntries = .ok
        [("enable.ssl.certificate.verification", .bool true),
          ("ssl.endpoint.identification.algorithm", .str "https"), ("ssl.ca.pem", .str ca)] ∧
      contains ca "BEGIN CERTIFICATE" = true := by
  obtain ⟨ca, hca, hpem⟩ := h.authority
  refine ⟨ca, ?_, hpem⟩
  unfold Settings.tlsEntries
  rw [if_neg h.encrypted, hca]

/-- A SASL mechanism finds its user name and its password. -/
theorem Authenticated.saslEntries (h : settings.Authenticated) :
    ∃ entries, settings.saslEntries = .ok entries ∧
      entries.map Prod.fst ⊆ ["sasl.mechanism", "sasl.username", "sasl.password"] ∧
      (settings.saslMechanism.isSome = true → ∃ mechanism username password,
        entries = [("sasl.mechanism", .str mechanism), ("sasl.username", .str username),
          ("sasl.password", .str password)]) := by
  unfold Settings.saslEntries
  cases hmechanism : settings.saslMechanism with
  | none => exact ⟨[], rfl, List.nil_subset _, fun hsome => absurd hsome Bool.false_ne_true⟩
  | some mechanism =>
    obtain ⟨husername, hpassword⟩ := h.login (by rw [hmechanism]; rfl)
    obtain ⟨username, husername⟩ := Option.isSome_iff_exists.mp husername
    obtain ⟨password, hpassword⟩ := Option.isSome_iff_exists.mp hpassword
    refine ⟨_, ?_, List.Subset.refl _, fun _ => ⟨mechanism, username, password, rfl⟩⟩
    dsimp only
    rw [husername, hpassword]

/-- Mutual TLS finds its certificate and the key. A password for the key may follow. -/
theorem Authenticated.certificateEntries (h : settings.Authenticated) :
    ∃ entries, settings.certificateEntries = .ok entries ∧
      entries.map Prod.fst ⊆ ["ssl.certificate.pem", "ssl.key.pem", "ssl.key.password"] ∧
      (entries.map Prod.fst).Nodup ∧
      (settings.tlsMode = .mutual → ∃ certificate privateKey,
        ("ssl.certificate.pem", .str certificate) ∈ entries ∧
        ("ssl.key.pem", .str privateKey) ∈ entries ∧
        contains certificate "BEGIN CERTIFICATE" = true ∧
        contains privateKey "PRIVATE KEY" = true) := by
  unfold Settings.certificateEntries
  by_cases hmutual : settings.tlsMode = .mutual
  · obtain ⟨certificate, privateKey, hcertificate, hkey, hpem, hpem'⟩ := h.certificate hmutual
    rw [if_pos hmutual, hcertificate, hkey]
    refine ⟨_, rfl, ?_, ?_, fun _ => ⟨certificate, privateKey, ?_, ?_, hpem, hpem'⟩⟩
    · cases settings.secrets.privateKeyPassword.filter (· ≠ "") <;> simp
    · cases settings.secrets.privateKeyPassword.filter (· ≠ "") <;> simp
    · exact List.mem_append_left _ List.mem_cons_self
    · exact List.mem_append_left _ (List.mem_cons_of_mem _ List.mem_cons_self)
  · rw [if_neg hmutual]
    exact ⟨[], rfl, List.nil_subset _, List.nodup_nil, fun h' => absurd h' hmutual⟩

/-- What the clients share is built from authenticated settings, and is secured. -/
theorem secured_commonConfig (h : settings.Authenticated) :
    ∃ config, settings.commonConfig = .ok config ∧ config.Secured := by
  obtain ⟨ca, htls, hca⟩ := h.tlsEntries
  obtain ⟨sasl, hsasl, hsaslKeys, hlogin⟩ := h.saslEntries
  obtain ⟨certificate, hcertificate, hcertificateKeys, hnodup, hmutual⟩ := h.certificateEntries
  unfold commonConfig
  rw [hsasl, htls, hcertificate]
  refine ⟨_, rfl, ?_⟩
  -- the entries are under different keys, so each is found whatever is written after it
  have hlast : ∀ (key : String) (config : ClientConfig),
      key ∉ ["ssl.certificate.pem", "ssl.key.pem", "ssl.key.password"] →
        (Dict.update config certificate).get? key = config.get? key :=
    fun key config hkey => Dict.get?_update_of_not_mem (fun hmem => hkey (hcertificateKeys hmem)) _
  have hfirst : ∀ (key : String) (config : ClientConfig),
      key ∉ ["sasl.mechanism", "sasl.username", "sasl.password"] →
        (Dict.update config sasl).get? key = config.get? key :=
    fun key config hkey => Dict.get?_update_of_not_mem (fun hmem => hkey (hsaslKeys hmem)) _
  refine
    { encrypted := ?_
      verified := ?_
      identification := ?_
      authority := ⟨ca, ?_, hca⟩
      authenticated := ?_ }
  · rw [hlast _ _ (by simp), Dict.get?_update_of_not_mem (by simp), hfirst _ _ (by simp),
      Dict.get?_update_of_mem (v := .str settings.securityProtocol) (by simp) (by simp)]
    unfold securityProtocol
    rw [if_neg h.encrypted]
    split
    · exact Or.inr rfl
    · exact Or.inl rfl
  · rw [hlast _ _ (by simp)]
    exact Dict.get?_update_of_mem (by simp) (by simp) _
  · rw [hlast _ _ (by simp)]
    exact Dict.get?_update_of_mem (by simp) (by simp) _
  · rw [hlast _ _ (by simp)]
    exact Dict.get?_update_of_mem (by simp) (by simp) _
  · cases h.identified with
    | inl hmode =>
      obtain ⟨pem, key, hpem, hkey, hin, hin'⟩ := hmutual hmode
      exact Or.inl ⟨pem, key, Dict.get?_update_of_mem hnodup hpem _,
        Dict.get?_update_of_mem hnodup hkey _, hin, hin'⟩
    | inr hsome =>
      obtain ⟨mechanism, username, password, rfl⟩ := hlogin hsome
      refine Or.inr ⟨mechanism, username, password, ?_, ?_, ?_⟩
      · rw [hlast _ _ (by simp), Dict.get?_update_of_not_mem (by simp)]
        exact Dict.get?_update_of_mem (by simp) (by simp) _
      · rw [hlast _ _ (by simp), Dict.get?_update_of_not_mem (by simp)]
        exact Dict.get?_update_of_mem (by simp) (by simp) _
      · rw [hlast _ _ (by simp), Dict.get?_update_of_not_mem (by simp)]
        exact Dict.get?_update_of_mem (by simp) (by simp) _

/-- A Binding with transactions has the id of its transactional producer. -/
theorem transactionalEntries_of_enabled (h : settings.transactionEnabled = true) :
    ∃ transactionalId,
      settings.transactionalEntries = .ok [("transactional.id", .str transactionalId)] := by
  have hid : settings.transactionalId.isSome = true := (Bool.and_eq_true_iff.mp h).1
  obtain ⟨transactionalId, hid⟩ := Option.isSome_iff_exists.mp hid
  refine ⟨transactionalId, ?_⟩
  unfold transactionalEntries
  rw [if_pos h, hid]

theorem secured_producerConfig (h : settings.Authenticated) {transactional : Bool}
    (enabled : transactional = true → settings.transactionEnabled = true) :
    ∃ config, settings.producerConfig transactional = .ok config ∧ config.Secured := by
  obtain ⟨common, hcommon, hsecured⟩ := secured_commonConfig h
  have hproducer : ClientConfig.Secured (Dict.update common settings.producerEntries) :=
    hsecured.update (by simp [ClientConfig.securityKeys, producerEntries])
  unfold producerConfig
  rw [hcommon]
  cases transactional with
  | false => exact ⟨_, rfl, hproducer⟩
  | true =>
    obtain ⟨transactionalId, hentries⟩ := transactionalEntries_of_enabled (enabled rfl)
    rw [hentries]
    exact ⟨_, rfl, hproducer.update (by simp [ClientConfig.securityKeys])⟩

theorem secured_consumerConfig (h : settings.Authenticated) (groupId : String)
    (rangeReader : Bool) :
    ∃ config, settings.consumerConfig groupId rangeReader = .ok config ∧ config.Secured := by
  obtain ⟨common, hcommon, hsecured⟩ := secured_commonConfig h
  unfold consumerConfig
  rw [hcommon]
  exact ⟨_, rfl, hsecured.update (by simp [ClientConfig.securityKeys])⟩

/-- A producer is idempotent under every profile. -/
theorem idempotent_producerConfig (settings : Settings) (transactional : Bool) :
    Ensures (settings.producerConfig transactional) ClientConfig.Idempotent := by
  -- the entries of the producer are put over the common ones
  have hproducer : ∀ common : ClientConfig,
      ClientConfig.Idempotent (Dict.update common settings.producerEntries) := by
    intro common
    refine ⟨?_, ?_⟩
    · exact Dict.get?_update_of_mem (by simp [producerEntries]) (by simp [producerEntries]) _
    · exact Dict.get?_update_of_mem (by simp [producerEntries]) (by simp [producerEntries]) _
  have hentries : Ensures settings.transactionalEntries fun entries =>
      ∃ transactionalId, entries = [("transactional.id", .str transactionalId)] := by
    unfold transactionalEntries
    refine .ite (fun _ => ?_) fun _ => .error
    split
    · exact .error
    · exact .pure ⟨_, rfl⟩
  unfold producerConfig
  refine .bind fun common _ => .ite (fun _ => ?_) fun _ => .pure (hproducer common)
  -- the transactional id is under a key of its own
  refine .andThen hentries fun entries hid => .pure ?_
  obtain ⟨transactionalId, rfl⟩ := hid
  refine ⟨?_, ?_⟩
  · rw [Dict.get?_update_of_not_mem (by simp)]
    exact (hproducer common).once
  · rw [Dict.get?_update_of_not_mem (by simp)]
    exact (hproducer common).acks

/-- A consumer commits nothing by itself, under every profile. -/
theorem autoCommit_consumerConfig (settings : Settings) (groupId : String) (rangeReader : Bool) :
    Ensures (settings.consumerConfig groupId rangeReader) fun config =>
      config.get? "enable.auto.commit" = some (.bool false) := by
  unfold consumerConfig
  exact .bind fun common _ => .pure (Dict.get?_update_of_mem (by simp) (by simp) _)

end Settings

/-- **Production never talks in clear or without a login.** Under the production profile each
client gets its configuration, and the configuration is secured. Under every profile the
producers are idempotent and the consumers leave the commits to the adapter. -/
theorem production_clients_secured (accepted : fromContext lib context = .ok settings) :
    (context.binding.engineProfile = productionEngineProfile →
      (∃ config, settings.commonConfig = .ok config ∧ config.Secured) ∧
      (∀ transactional : Bool, (transactional = true → settings.transactionEnabled = true) →
        ∃ config, settings.producerConfig transactional = .ok config ∧ config.Secured) ∧
      (∀ groupId rangeReader,
        ∃ config, settings.consumerConfig groupId rangeReader = .ok config ∧ config.Secured) ∧
      ∃ config, settings.adminConfig = .ok config ∧ config.Secured) ∧
    (∀ transactional config, settings.producerConfig transactional = .ok config →
      config.Idempotent) ∧
    ∀ groupId rangeReader config, settings.consumerConfig groupId rangeReader = .ok config →
      config.get? "enable.auto.commit" = some (.bool false) := by
  refine ⟨fun production => ?_, settings.idempotent_producerConfig,
    settings.autoCommit_consumerConfig⟩
  have haccepted := accepted_fromContext context settings accepted
  have hauthenticated : settings.Authenticated :=
    haccepted.authenticated (haccepted.engineProfile.trans production)
  exact ⟨Settings.secured_commonConfig hauthenticated,
    fun _ enabled => Settings.secured_producerConfig hauthenticated enabled,
    Settings.secured_consumerConfig hauthenticated, Settings.secured_commonConfig hauthenticated⟩

namespace Production

/-- The credential of a client with a certificate, as a text and as the object that it
holds. -/
def credential : String × Json :=
  ("\x7b\"password\":null,\"privateKeyPem\":\"PRIVATE KEY\",\"privateKeyPassword\":null," ++
      "\"cursorKeys\":[\x7b\"id\":\"k\",\"keyBase64\":" ++
      "\"a2tra2tra2tra2tra2tra2tra2tra2tra2tra2tra2s=\",\"active\":true\x7d]\x7d",
    .obj
      [("password", .null), ("privateKeyPem", .str "PRIVATE KEY"),
        ("privateKeyPassword", .null),
        ("cursorKeys", .arr
          [.obj
            [("id", .str "k"),
              ("keyBase64", .str "a2tra2tra2tra2tra2tra2tra2tra2tra2tra2tra2s="),
              ("active", .bool true)]])])

def libraries : Libraries :=
  { KafkaOperationCompiler.Sample.libraries with
    jsonLoads := fun text => if text = credential.1 then .ok credential.2 else .error none }

/-- The sample Binding under the production profile, with mutual TLS. -/
def binding : AdapterCreateContext where
  binding :=
    { KafkaOperationCompiler.Sample.context.binding with
      engineProfile := "apache-kafka"
      tls := { mode := .mutual }
      settings := .object
        [("clientId", .str "client"), ("cursorTtlMs", .int 60000), ("saslMechanism", .null),
          ("transactionalId", .str "tx"), ("readCommitted", .bool true),
          ("autoOffsetReset", .str "earliest"), ("sessionTimeoutMs", .int 10000),
          ("maxPollIntervalMs", .int 60000), ("allowPlaintextForTesting", .bool false),
          ("resources", KafkaOperationCompiler.Sample.resources)] }
  identity := "p".toUTF8.data.toList
  credential := credential.1.toUTF8.data.toList
  tlsCa := some "BEGIN CERTIFICATE".toUTF8.data.toList
  tlsClientCertificate := some "BEGIN CERTIFICATE".toUTF8.data.toList

theorem fromContext_returns : (fromContext libraries binding).toBool = true := by decide +kernel

theorem exists_settings : ∃ settings, fromContext libraries binding = .ok settings :=
  exists_ok_of_toBool fromContext_returns

end Production

theorem mutual_tls_clients_secured :
    ∃ settings, fromContext Production.libraries Production.binding = .ok settings ∧
      ∃ config, settings.commonConfig = .ok config ∧ config.Secured := by
  obtain ⟨settings, accepted⟩ := Production.exists_settings
  exact ⟨settings, accepted, ((production_clients_secured accepted).1 rfl).1⟩

end Config

end MeridianKafka
