import CyberGuard.Service.Config
import CyberGuard.Shared.JsonText

/-!
# The configuration a migration writes

`check_legacy_config` and `generated_config`. The result is that what the second
makes of a text the first accepts is accepted by the loader and by the
service's own check, so a migration is never refused at its staged
configuration.
-/

namespace CyberGuard.Service
set_option autoImplicit false
open Checks Option

def isConsolePath (configured fixed : String) : Bool :=
  eqIgnoreAsciiCase fixed (replaceSlashes configured)

/-- Of the text of `agent.toml`, none where it is not UTF-8. -/
def checkLegacyConfig (T : TomlFormat) (paths : InstalledPaths) (decoded : Option String) :
    Except String String := do
  let invalid := fun reason => s!"cg-agent: invalid config {paths.config}: {reason}"
  let text ← okOr decoded (invalid "the file is not UTF-8")
  let config ← (loadFromStr T text).mapError (configErrorLine paths.config)
  let document ← (T.parse text).mapError fun _ => invalid "the file is not valid TOML"
  refuseIf (document.get "setup").isSome (invalid "a console configuration holds no setup table")
  let enrollment ← okOr config.enrollment (invalid "the migration requires [enrollment]")
  let consolePath := fun key configured name =>
    refuseIf (!isConsolePath configured (join paths.dataRoot name))
      (invalid s!"{key} is not the console layout's path in the data root")
  consolePath "server.trust_anchor_path" (config.server.trustAnchorPath.getD "") "server-ca.pem"
  consolePath "enrollment.cert_path" enrollment.certPath "cert.pem"
  consolePath "enrollment.key_path" enrollment.keyPath "key.dat"
  consolePath "enrollment.identity_path" enrollment.identityPath "identity.json"
  refuseIf (!config.server.heartbeatUrl.any (startsWith · "https://"))
    (invalid "the migration requires an https server.heartbeat_url: add it before migrating")
  return text

/-- `table_of` and the change made through it. -/
def inTable (document : Toml) (name : String) (change : Table → Table) : Except String Toml :=
  match document.asTable, (document.get name).bind Toml.asTable with
  | some table, some inner => .ok (.table (table.insert name (.table (change inner))))
  | _, _ => .error s!"the legacy configuration lacks [{name}]"

def generatedConfig (T : TomlFormat) (paths : InstalledPaths) (hostname : Except String String)
    (legacy : String) : Except String String := do
  let document ← (T.parse legacy).mapError fun _ => "the legacy configuration is not valid TOML"
  let hostname ← hostname
  let document ← inTable document "server" (·.insert "trust_anchor_path" (.string paths.trustAnchor))
  let document ← inTable document "agent" (·.insert "hostname" (.string hostname))
  let document ← inTable document "enrollment" fun enrollment =>
    (((enrollment.remove "token").insert "cert_path" (.string paths.cert)).insert "key_path"
      (.string paths.key)).insert "identity_path" (.string paths.identity)
  okOr (T.print document) "the configuration cannot be written"

namespace Toml
variable {α : Type} {read : Toml → Option α} {default : α} {table : Table} {key other : String}
  {value : Toml}

@[simp] theorem required_insert_self : required read (table.insert key value) key = read value := by
  simp [required]

@[simp] theorem optionally_insert_self :
    optionally read (table.insert key value) key = (read value).map some := by
  simp [optionally]

@[simp] theorem optionally_remove_self : optionally read (table.remove key) key = some none := by
  simp [optionally]

@[simp] theorem required_insert_of_ne (h : other ≠ key) :
    required read (table.insert key value) other = required read table other := by
  simp [required, h]

@[simp] theorem optionally_insert_of_ne (h : other ≠ key) :
    optionally read (table.insert key value) other = optionally read table other := by
  simp [optionally, h]

@[simp] theorem defaulted_insert_of_ne (h : other ≠ key) :
    defaulted read default (table.insert key value) other = defaulted read default table other := by
  simp [defaulted, h]

@[simp] theorem defaulted_remove_of_ne (h : other ≠ key) :
    defaulted read default (table.remove key) other = defaulted read default table other := by
  simp [defaulted, h]

end Toml

open Toml

theorem ServerConfig.read_eq {table : Table} {server : ServerConfig} :
    ServerConfig.read (.table table) = some server ↔
      required asStr table "url" = some server.url ∧
      optionally asStr table "trust_anchor_path" = some server.trustAnchorPath ∧
      optionally asStr table "heartbeat_url" = some server.heartbeatUrl := by
  simp only [ServerConfig.read, asTable, bind_eq_bind, bind_some,
    bind_eq_some_iff, pure_def, Option.some.injEq]
  constructor
  · rintro ⟨url, hurl, anchor, hanchor, beat, hbeat, rfl⟩
    exact ⟨hurl, hanchor, hbeat⟩
  · rintro ⟨hurl, hanchor, hbeat⟩
    exact ⟨_, hurl, _, hanchor, _, hbeat, rfl⟩

theorem AgentIdentity.read_eq {table : Table} {agent : AgentIdentity} :
    AgentIdentity.read (.table table) = some agent ↔
      required asStr table "id" = some agent.id ∧
      required asStr table "hostname" = some agent.hostname := by
  simp only [AgentIdentity.read, asTable, bind_eq_bind, bind_some,
    bind_eq_some_iff, pure_def, Option.some.injEq]
  constructor
  · rintro ⟨id, hid, hostname, hhostname, rfl⟩
    exact ⟨hid, hhostname⟩
  · rintro ⟨hid, hhostname⟩
    exact ⟨_, hid, _, hhostname, rfl⟩

theorem EnrollmentConfig.read_eq {table : Table} {enrollment : EnrollmentConfig} :
    EnrollmentConfig.read (.table table) = some enrollment ↔
      optionally asStr table "token" = some enrollment.token ∧
      required asStr table "cert_path" = some enrollment.certPath ∧
      required asStr table "key_path" = some enrollment.keyPath ∧
      required asStr table "identity_path" = some enrollment.identityPath ∧
      defaulted readU64 30 table "timeout_seconds" = some enrollment.timeoutSeconds ∧
      defaulted readU32 3 table "max_retries" = some enrollment.maxRetries ∧
      defaulted readU64 1000 table "backoff_initial_ms" = some enrollment.backoffInitialMs ∧
      defaulted readF64 (.finite 2) table "backoff_factor" = some enrollment.backoffFactor := by
  simp only [EnrollmentConfig.read, asTable, bind_eq_bind, bind_some,
    bind_eq_some_iff, pure_def, Option.some.injEq]
  constructor
  · rintro ⟨_, h1, _, h2, _, h3, _, h4, _, h5, _, h6, _, h7, _, h8, rfl⟩
    exact ⟨h1, h2, h3, h4, h5, h6, h7, h8⟩
  · rintro ⟨h1, h2, h3, h4, h5, h6, h7, h8⟩
    exact ⟨_, h1, _, h2, _, h3, _, h4, _, h5, _, h6, _, h7, _, h8, rfl⟩

theorem AgentConfig.read_eq {table : Table} {config : AgentConfig} :
    AgentConfig.read (.table table) = some config ↔
      required ServerConfig.read table "server" = some config.server ∧
      required AgentIdentity.read table "agent" = some config.agent ∧
      defaulted HeartbeatConfig.read .default table "heartbeat" = some config.heartbeat ∧
      defaulted LogConfig.read { level := "info" } table "log" = some config.log ∧
      optionally EnrollmentConfig.read table "enrollment" = some config.enrollment ∧
      optionally TlsConfig.read table "tls" = some config.tls ∧
      optionally EnvelopeConfig.read table "envelope" = some config.envelope := by
  simp only [AgentConfig.read, asTable, bind_eq_bind, bind_some,
    bind_eq_some_iff, pure_def, Option.some.injEq]
  constructor
  · rintro ⟨_, h1, _, h2, _, h3, _, h4, _, h5, _, h6, _, h7, rfl⟩
    exact ⟨h1, h2, h3, h4, h5, h6, h7⟩
  · rintro ⟨h1, h2, h3, h4, h5, h6, h7⟩
    exact ⟨_, h1, _, h2, _, h3, _, h4, _, h5, _, h6, _, h7, rfl⟩

variable {T : TomlFormat} {paths : InstalledPaths}

theorem loadFromStr_ok {content : String} {config : AgentConfig} :
    loadFromStr T content = .ok config ↔ ∃ raw, T.parse content = .ok raw ∧
      checkRequired raw = .ok () ∧ AgentConfig.read raw = some config ∧
      checkHeartbeat config.heartbeat = .ok () ∧ checkEnrollment config = .ok () ∧
      checkTrustAnchor config = .ok () ∧ checkHeartbeatUrl config = .ok () := by
  simp only [loadFromStr, bind_eq_ok, mapError_eq_ok, okOr_eq_ok, pure_eq_ok]
  constructor
  · rintro ⟨raw, hparse, _, hrequired, c, hread, _, hbeat, _, henroll, _, hanchor, _, hurl, rfl⟩
    exact ⟨raw, hparse, hrequired, hread, hbeat, henroll, hanchor, hurl⟩
  · rintro ⟨raw, hparse, hrequired, hread, hbeat, henroll, hanchor, hurl⟩
    exact ⟨raw, hparse, (), hrequired, config, hread, (), hbeat, (), henroll, (), hanchor, (), hurl,
      rfl⟩

theorem inTable_ok {table inner : Table} {name : String} (change : Table → Table)
    (h : table.get name = some (.table inner)) :
    inTable (.table table) name change = .ok (.table (table.insert name (.table (change inner)))) := by
  simp [inTable, Toml.asTable, Toml.get, h]

theorem table_of_read {α : Type} {read : Toml → Option α} {document : Toml} {a : α}
    (hread : ∀ d, d.asTable = none → read d = none) (h : read document = some a) :
    ∃ table : Table, document = .table table := by
  cases htable : document.asTable with
  | none => exact absurd h (by simp [hread document htable])
  | some table =>
    refine ⟨table, ?_⟩
    cases document <;> simp_all [asTable]

theorem requiredText_ok {raw : Toml} {table field text : String} :
    requiredText raw table field = .ok text ↔
      (raw.get table).bind (·.get field) = some (.string text) := by
  simp only [requiredText, bind_eq_ok, okOr_eq_ok]
  constructor
  · rintro ⟨value, hvalue, htext⟩
    cases value <;> simp_all [asStr]
  · intro h
    exact ⟨_, h, rfl⟩

def AgentConfig.installed (config : AgentConfig) (paths : InstalledPaths) (hostname : String)
    (enrollment : EnrollmentConfig) : AgentConfig :=
  { config with
    server := { config.server with trustAnchorPath := some paths.trustAnchor }
    agent := { config.agent with hostname }
    enrollment := some { enrollment with
      token := none
      certPath := paths.cert
      keyPath := paths.key
      identityPath := paths.identity } }

/-- The tables `generated_config` changes, as the loader took them. -/
theorem tables_of_read {raw : Toml} {config : AgentConfig} {enrollment : EnrollmentConfig}
    (hread : AgentConfig.read raw = some config) (henrollment : config.enrollment = some enrollment) :
    ∃ table server agent enroll : Table, raw = .table table ∧
      table.get "server" = some (.table server) ∧ table.get "agent" = some (.table agent) ∧
      table.get "enrollment" = some (.table enroll) ∧
      ServerConfig.read (.table server) = some config.server ∧
      AgentIdentity.read (.table agent) = some config.agent ∧
      EnrollmentConfig.read (.table enroll) = some enrollment := by
  obtain ⟨table, rfl⟩ := table_of_read (fun d hd => by simp [AgentConfig.read, hd]) hread
  obtain ⟨hserver, hagent, _, _, henroll, _, _⟩ := AgentConfig.read_eq.mp hread
  obtain ⟨serverDoc, hget₁, hread₁⟩ := bind_eq_some_iff.mp hserver
  obtain ⟨agentDoc, hget₂, hread₂⟩ := bind_eq_some_iff.mp hagent
  obtain ⟨server, rfl⟩ := table_of_read (fun d hd => by simp [ServerConfig.read, hd]) hread₁
  obtain ⟨agent, rfl⟩ := table_of_read (fun d hd => by simp [AgentIdentity.read, hd]) hread₂
  cases hget₃ : Table.get table "enrollment" with
  | none => simp [optionally, hget₃, henrollment] at henroll
  | some enrollDoc =>
    have hread₃ : EnrollmentConfig.read enrollDoc = some enrollment := by
      simpa [optionally, hget₃, henrollment] using henroll
    obtain ⟨enroll, rfl⟩ := table_of_read (fun d hd => by simp [EnrollmentConfig.read, hd]) hread₃
    exact ⟨table, server, agent, enroll, rfl, hget₁, hget₂, hget₃, hread₁, hread₂, hread₃⟩

section accepted
variable {table server agent enroll : Table} {config : AgentConfig} {enrollment : EnrollmentConfig}
  {hostname : String}

/-- The document `generated_config` prints. -/
def generatedDocument (table server agent enroll : Table) (paths : InstalledPaths)
    (hostname : String) : Table :=
  ((table.insert "server" (.table (server.insert "trust_anchor_path" (.string paths.trustAnchor)))).insert
      "agent" (.table (agent.insert "hostname" (.string hostname)))).insert
    "enrollment" (.table ((((enroll.remove "token").insert "cert_path" (.string paths.cert)).insert
      "key_path" (.string paths.key)).insert "identity_path" (.string paths.identity)))

theorem read_generatedDocument (hread : AgentConfig.read (.table table) = some config)
    (hserver : ServerConfig.read (.table server) = some config.server)
    (hagent : AgentIdentity.read (.table agent) = some config.agent)
    (henroll : EnrollmentConfig.read (.table enroll) = some enrollment) :
    AgentConfig.read (.table (generatedDocument table server agent enroll paths hostname)) =
      some (config.installed paths hostname enrollment) := by
  obtain ⟨-, -, hbeat, hlog, -, htls, henvelope⟩ := AgentConfig.read_eq.mp hread
  have hserver' : ServerConfig.read (.table (server.insert "trust_anchor_path"
      (.string paths.trustAnchor))) = some (config.installed paths hostname enrollment).server := by
    rw [ServerConfig.read_eq] at hserver ⊢
    simp [AgentConfig.installed, hserver, asStr]
  have hagent' : AgentIdentity.read (.table (agent.insert "hostname" (.string hostname))) =
      some (config.installed paths hostname enrollment).agent := by
    rw [AgentIdentity.read_eq] at hagent ⊢
    simp [AgentConfig.installed, hagent, asStr]
  have henroll' : EnrollmentConfig.read (.table ((((enroll.remove "token").insert "cert_path"
      (.string paths.cert)).insert "key_path" (.string paths.key)).insert "identity_path"
      (.string paths.identity))) = some { enrollment with
        token := none
        certPath := paths.cert
        keyPath := paths.key
        identityPath := paths.identity } := by
    rw [EnrollmentConfig.read_eq] at henroll ⊢
    simp [henroll, asStr]
  rw [AgentConfig.read_eq]
  refine ⟨?_, ?_, ?_, ?_, ?_, ?_, ?_⟩
  · simpa [generatedDocument] using hserver'
  · simpa [generatedDocument] using hagent'
  · simpa [generatedDocument, AgentConfig.installed] using hbeat
  · simpa [generatedDocument, AgentConfig.installed] using hlog
  · simp [generatedDocument, henroll', AgentConfig.installed]
  · simpa [generatedDocument, AgentConfig.installed] using htls
  · simpa [generatedDocument, AgentConfig.installed] using henvelope

theorem checkRequired_generatedDocument (hhostname : hostname ≠ "")
    (hserver : table.get "server" = some (.table server))
    (hagent : table.get "agent" = some (.table agent))
    (h : checkRequired (.table table) = .ok ()) :
    checkRequired (.table (generatedDocument table server agent enroll paths hostname)) = .ok () := by
  simp only [checkRequired, bind_eq_ok, refuseIf_eq_ok, requiredText_ok] at h ⊢
  obtain ⟨url, hurl, _, hhttp, id, hid, _, huuid, _⟩ := h
  simp only [Toml.get, asTable, bind_some, hserver, hagent] at hurl hid
  refine ⟨url, ?_, (), hhttp, id, ?_, (), huuid, hostname, ?_, ?_⟩
  · simpa [generatedDocument, Toml.get, asTable] using hurl
  · simpa [generatedDocument, Toml.get, asTable] using hid
  · simp [generatedDocument, Toml.get, asTable]
  · simpa using hhostname

/-- What `generated_config` makes of an accepted text is accepted, by the loader and by the
service's own check. -/
theorem generatedConfig_accepted (hT : T.Inverse) {decoded : Option String} {text : String}
    (hlegacy : checkLegacyConfig T paths decoded = .ok text) (hhostname : hostname ≠ "")
    (hanchor : paths.trustAnchor ≠ "") (configPath : String) :
    ∃ generated config, generatedConfig T paths (.ok hostname) text = .ok generated ∧
      loadFromStr T generated = .ok config ∧ config.enrollment.isSome = true ∧
      checkInstalledConfig paths configPath config = .ok () := by
  simp only [checkLegacyConfig, bind_eq_ok, mapError_eq_ok, okOr_eq_ok, refuseIf_eq_ok,
    pure_eq_ok] at hlegacy
  obtain ⟨_, -, config, hload, raw, hparse, _, -, enrollment, henrollment, _, -, _, -, _, -, _, -, _,
    hbeatUrl, rfl⟩ := hlegacy
  obtain ⟨_, hparse', hrequired, hread, hheart, henroll, htrust, hurl⟩ := loadFromStr_ok.mp hload
  obtain rfl : raw = _ := Except.ok.inj (hparse.symm.trans hparse')
  obtain ⟨table, server, agent, enroll, rfl, hget₁, hget₂, hget₃, hread₁, hread₂, hread₃⟩ :=
    tables_of_read hread henrollment
  have hhttps : startsWith config.server.url "https://" = true ∧
      config.server.trustAnchorPath.isSome = true := by
    simpa [checkEnrollment, henrollment] using henroll
  have hagent : Table.get (table.insert "server" (.table (server.insert "trust_anchor_path"
      (.string paths.trustAnchor)))) "agent" = some (.table agent) := by simpa using hget₂
  have hinner : Table.get ((table.insert "server" (.table (server.insert "trust_anchor_path"
      (.string paths.trustAnchor)))).insert "agent" (.table (agent.insert "hostname"
      (.string hostname)))) "enrollment" = some (.table enroll) := by simpa using hget₃
  have hedited : T.Edited (generatedDocument table server agent enroll paths hostname) :=
    (((TomlFormat.Edited.parsed hparse).edited hget₁ (.insert .same)).edited hagent
      (.insert .same)).edited hinner (.insert (.insert (.insert (.remove .same))))
  obtain ⟨generated, hprint, hback⟩ := hT.parse_print _ hedited
  refine ⟨generated, config.installed paths hostname enrollment, ?_, ?_, rfl, ?_⟩
  · simp only [generatedConfig, bind_eq_ok, mapError_eq_ok, okOr_eq_ok]
    exact ⟨_, hparse, hostname, rfl, _, inTable_ok _ hget₁, _, inTable_ok _ hagent, _,
      inTable_ok _ hinner, hprint⟩
  · refine loadFromStr_ok.mpr ⟨_, hback, checkRequired_generatedDocument hhostname hget₁ hget₂
      hrequired, read_generatedDocument hread hread₁ hread₂ hread₃, hheart, ?_, ?_, hurl⟩
    · simpa [checkEnrollment, AgentConfig.installed] using hhttps.1
    · simp only [checkTrustAnchor, bind_eq_ok, refuseIf_eq_ok] at htrust ⊢
      obtain ⟨_, _, hrules⟩ := htrust
      rw [if_pos hhttps.2] at hrules
      exact ⟨(), by simpa [AgentConfig.installed] using hanchor, hrules⟩
  · have hsome : config.server.heartbeatUrl.isSome = true := by
      cases hurl : config.server.heartbeatUrl <;> simp_all
    simpa [checkInstalledConfig, AgentConfig.installed, checkServiceConfig, isFixedPath,
      eqIgnoreAsciiCase_self] using hsome

end accepted

namespace Toml

/-- A document as a JSON value: what JSON has no kind for is an array of its parts. -/
def floatToJson : F64 → Json Nat
  | .finite value =>
    match value.num with
    | .ofNat n => .array [.number n, .number value.den]
    | .negSucc n => .array [.null, .number n, .number value.den]
  | .infinity => .array [.boolean true]
  | .negativeInfinity => .array [.boolean false]
  | .nan => .null

mutual
def toJson : Toml → Json Nat
  | .string text => .string text
  | .integer (.ofNat n) => .number n
  | .integer (.negSucc n) => .array [.number n]
  | .float x => floatToJson x
  | .boolean b => .boolean b
  | .datetime text => .array [.string text]
  | .array items => .array [.array (itemsToJson items)]
  | .table entries => .object (entriesToJson entries)

def itemsToJson : List Toml → List (Json Nat)
  | [] => []
  | item :: rest => item.toJson :: itemsToJson rest

def entriesToJson : List (String × Toml) → List (String × Json Nat)
  | [] => []
  | (key, value) :: rest => (key, value.toJson) :: entriesToJson rest
end

mutual
def ofJson : Json Nat → Option Toml
  | .null => some (.float .nan)
  | .boolean b => some (.boolean b)
  | .number n => some (.integer n)
  | .string text => some (.string text)
  | .array [.boolean b] => some (.float (if b then .infinity else .negativeInfinity))
  | .array [.number n] => some (.integer (.negSucc n))
  | .array [.string text] => some (.datetime text)
  | .array [.array items] => (itemsOfJson items).map .array
  | .array [.number n, .number den] => some (.float (.finite (mkRat n den)))
  | .array [.null, .number n, .number den] => some (.float (.finite (mkRat (.negSucc n) den)))
  | .array _ => none
  | .object fields => (entriesOfJson fields).map .table

def itemsOfJson : List (Json Nat) → Option (List Toml)
  | [] => some []
  | item :: rest => do return (← ofJson item) :: (← itemsOfJson rest)

def entriesOfJson : List (String × Json Nat) → Option (List (String × Toml))
  | [] => some []
  | (key, value) :: rest => do return (key, ← ofJson value) :: (← entriesOfJson rest)
end

theorem ofJson_float (x : F64) : ofJson (floatToJson x) = some (.float x) := by
  cases x with
  | finite value =>
    have hself := Rat.mkRat_self value
    cases hnum : value.num with
    | ofNat n =>
      rw [hnum] at hself
      simp only [floatToJson, hnum, ofJson]
      exact congrArg (fun q => some (Toml.float (.finite q))) hself
    | negSucc n =>
      rw [hnum] at hself
      simp only [floatToJson, hnum, ofJson, hself]
  | _ => rfl

mutual
theorem ofJson_toJson (document : Toml) : ofJson document.toJson = some document := by
  cases document with
  | integer n => cases n <;> rfl
  | float x => exact ofJson_float x
  | array items =>
    rw [toJson, ofJson, itemsOfJson_toJson items]
    rfl
  | table entries =>
    rw [toJson, ofJson, entriesOfJson_toJson entries]
    rfl
  | _ => rfl

theorem itemsOfJson_toJson (items : List Toml) : itemsOfJson (itemsToJson items) = some items := by
  cases items with
  | nil => rfl
  | cons item rest =>
    rw [itemsToJson, itemsOfJson, ofJson_toJson item, itemsOfJson_toJson rest]
    rfl

theorem entriesOfJson_toJson (entries : List (String × Toml)) :
    entriesOfJson (entriesToJson entries) = some entries := by
  cases entries with
  | nil => rfl
  | cons entry rest =>
    obtain ⟨key, value⟩ := entry
    rw [entriesToJson, entriesOfJson, ofJson_toJson value, entriesOfJson_toJson rest]
    rfl
end

end Toml

/-- A format of documents as JSON texts; as in TOML, a document is a table. -/
def jsonFormat : TomlFormat where
  parse := fun text =>
    match (Json.read text).bind Toml.ofJson with
    | some (.table entries) => .ok (.table entries)
    | _ => .error none
  shapeError := fun _ => none
  print := fun document => document.asTable.map fun _ => document.toJson.write

theorem jsonFormat_parse (table : Table) :
    jsonFormat.parse (Toml.table table).toJson.write = .ok (.table table) := by
  simp only [jsonFormat, Json.read_write, bind_some, Toml.ofJson_toJson]

theorem jsonFormat_inverse : jsonFormat.Inverse :=
  ⟨fun table _ => ⟨_, rfl, jsonFormat_parse table⟩⟩

end CyberGuard.Service
