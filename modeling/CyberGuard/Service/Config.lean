import CyberGuard.Shared.Checks
import CyberGuard.Shared.SortedSets
import Mathlib.Algebra.Order.Ring.Unbundled.Rat
import Mathlib.Data.String.Basic

/-!
# The agent's configuration

`agent.toml` as a TOML document, what `load_from_str` makes of it, and the
configuration the service asks for. How a text is a document is the TOML
library's.
-/

namespace CyberGuard.Service
set_option autoImplicit false
open Checks

def startsWith (text start : String) : Bool := start.toList.isPrefixOf text.toList

def asciiLowercase (text : String) : List Char := text.toList.map Char.toLower

def eqIgnoreAsciiCase (a b : String) : Bool := asciiLowercase a == asciiLowercase b

/-- `text.replace('/', "\\")`. -/
def replaceSlashes (text : String) : String :=
  String.ofList (text.toList.map fun c => if c = '/' then '\\' else c)

theorem eqIgnoreAsciiCase_self (text : String) : eqIgnoreAsciiCase text text = true :=
  beq_self_eq_true _

inductive F64 where
  | finite (value : Rat)
  | infinity
  | negativeInfinity
  | nan
deriving DecidableEq

def F64.belowOne : F64 → Bool
  | .finite value => value < 1
  | .negativeInfinity => true
  | .infinity | .nan => false

inductive Toml where
  | string (text : String)
  | integer (n : Int)
  | float (x : F64)
  | boolean (b : Bool)
  | datetime (text : String)
  | array (items : List Toml)
  | table (entries : List (String × Toml))

abbrev Table := List (String × Toml)

namespace Table

def get (table : Table) (key : String) : Option Toml :=
  (table.find? fun entry => entry.1 == key).map (·.2)

def remove (table : Table) (key : String) : Table := table.filter fun entry => entry.1 != key

/-- A table is a map in the order of its keys. -/
def insert (table : Table) (key : String) (value : Toml) : Table :=
  SortedSets.insertBy (·.1) (key, value) table

variable {table : Table} {key other : String} {value : Toml}

@[simp] theorem get_remove_self : (table.remove key).get key = none := by
  simp [get, remove]

@[simp] theorem get_remove_of_ne (h : other ≠ key) :
    (table.remove key).get other = table.get other := by
  unfold get remove
  rw [List.find?_filter]
  congr 2
  funext entry
  by_cases heq : entry.1 = other
  · simp [heq, h]
  · simp [heq]

theorem get_cons (entry : String × Toml) :
    get (entry :: table) other = if entry.1 = other then some entry.2 else get table other := by
  by_cases heq : entry.1 = other <;> simp [get, heq]

theorem get_insert :
    (table.insert key value).get other = if key = other then some value else table.get other := by
  induction table with
  | nil => exact get_cons _
  | cons entry rest ih =>
    rw [insert, SortedSets.insertBy]
    split
    · exact get_cons _
    · split
      · next heq =>
        have hkey : key = entry.1 := heq
        rw [get_cons, get_cons, ← hkey]
        by_cases hother : key = other <;> simp [hother]
      · next hne =>
        have hkey : key ≠ entry.1 := hne
        rw [insert] at ih
        rw [get_cons, get_cons, ih]
        by_cases hother : key = other
        · simp [← hother, hkey.symm]
        · simp [hother]

@[simp] theorem get_insert_self : (table.insert key value).get key = some value := by
  simp [get_insert]

@[simp] theorem get_insert_of_ne (h : other ≠ key) :
    (table.insert key value).get other = table.get other := by
  simp [get_insert, h.symm]

end Table

namespace Toml

def asStr : Toml → Option String
  | .string text => some text
  | _ => none

def asTable : Toml → Option Table
  | .table entries => some entries
  | _ => none

def get (document : Toml) (key : String) : Option Toml := document.asTable.bind (·.get key)

def required {α : Type} (read : Toml → Option α) (table : Table) (key : String) : Option α :=
  (table.get key).bind read

/-- An `Option` field. -/
def optionally {α : Type} (read : Toml → Option α) (table : Table) (key : String) :
    Option (Option α) :=
  match table.get key with
  | none => some none
  | some value => (read value).map some

def defaulted {α : Type} (read : Toml → Option α) (default : α) (table : Table) (key : String) :
    Option α :=
  match table.get key with
  | none => some default
  | some value => read value

def readU64 : Toml → Option Nat
  | .integer n => if 0 ≤ n then some n.toNat else none
  | _ => none

def readU32 : Toml → Option Nat
  | .integer n => if 0 ≤ n ∧ n < 2 ^ 32 then some n.toNat else none
  | _ => none

def readF64 : Toml → Option F64
  | .float x => some x
  | .integer n => some (.finite n)
  | _ => none

end Toml

structure ServerConfig where
  url : String
  trustAnchorPath : Option String
  heartbeatUrl : Option String
deriving DecidableEq

structure AgentIdentity where
  id : String
  hostname : String
deriving DecidableEq

structure HeartbeatConfig where
  intervalSeconds : Nat
  requestTimeoutSeconds : Nat
  maxRetries : Nat
  backoffInitialMs : Nat
  backoffFactor : F64
  backoffMaxMs : Nat
deriving DecidableEq

def HeartbeatConfig.default : HeartbeatConfig where
  intervalSeconds := 30
  requestTimeoutSeconds := 10
  maxRetries := 3
  backoffInitialMs := 1000
  backoffFactor := .finite 2
  backoffMaxMs := 60000

structure LogConfig where
  level : String
deriving DecidableEq

structure EnrollmentConfig where
  token : Option String
  certPath : String
  keyPath : String
  identityPath : String
  timeoutSeconds : Nat
  maxRetries : Nat
  backoffInitialMs : Nat
  backoffFactor : F64
deriving DecidableEq

structure TlsConfig where
  minimumVersion : String
deriving DecidableEq

structure EnvelopeConfig where
  canonicalForm : String
deriving DecidableEq

structure AgentConfig where
  server : ServerConfig
  agent : AgentIdentity
  heartbeat : HeartbeatConfig
  log : LogConfig
  enrollment : Option EnrollmentConfig
  tls : Option TlsConfig
  envelope : Option EnvelopeConfig
deriving DecidableEq

open Toml

def ServerConfig.read (document : Toml) : Option ServerConfig := do
  let table ← document.asTable
  let url ← required asStr table "url"
  let trustAnchorPath ← optionally asStr table "trust_anchor_path"
  let heartbeatUrl ← optionally asStr table "heartbeat_url"
  return { url, trustAnchorPath, heartbeatUrl }

def AgentIdentity.read (document : Toml) : Option AgentIdentity := do
  let table ← document.asTable
  let id ← required asStr table "id"
  let hostname ← required asStr table "hostname"
  return { id, hostname }

def HeartbeatConfig.read (document : Toml) : Option HeartbeatConfig := do
  let table ← document.asTable
  let intervalSeconds ← defaulted readU64 default.intervalSeconds table "interval_seconds"
  let requestTimeoutSeconds ←
    defaulted readU64 default.requestTimeoutSeconds table "request_timeout_seconds"
  let maxRetries ← defaulted readU32 default.maxRetries table "max_retries"
  let backoffInitialMs ← defaulted readU64 default.backoffInitialMs table "backoff_initial_ms"
  let backoffFactor ← defaulted readF64 default.backoffFactor table "backoff_factor"
  let backoffMaxMs ← defaulted readU64 default.backoffMaxMs table "backoff_max_ms"
  return ⟨intervalSeconds, requestTimeoutSeconds, maxRetries, backoffInitialMs, backoffFactor,
    backoffMaxMs⟩

def LogConfig.read (document : Toml) : Option LogConfig := do
  let table ← document.asTable
  let level ← defaulted asStr "info" table "level"
  return { level }

def EnrollmentConfig.read (document : Toml) : Option EnrollmentConfig := do
  let table ← document.asTable
  let token ← optionally asStr table "token"
  let certPath ← required asStr table "cert_path"
  let keyPath ← required asStr table "key_path"
  let identityPath ← required asStr table "identity_path"
  let timeoutSeconds ← defaulted readU64 30 table "timeout_seconds"
  let maxRetries ← defaulted readU32 3 table "max_retries"
  let backoffInitialMs ← defaulted readU64 1000 table "backoff_initial_ms"
  let backoffFactor ← defaulted readF64 (.finite 2) table "backoff_factor"
  return ⟨token, certPath, keyPath, identityPath, timeoutSeconds, maxRetries, backoffInitialMs,
    backoffFactor⟩

def TlsConfig.read (document : Toml) : Option TlsConfig := do
  let table ← document.asTable
  let minimumVersion ← defaulted asStr "1.3" table "minimum_version"
  return { minimumVersion }

def EnvelopeConfig.read (document : Toml) : Option EnvelopeConfig := do
  let table ← document.asTable
  let canonicalForm ← defaulted asStr "JCS" table "canonical_form"
  return { canonicalForm }

def AgentConfig.read (document : Toml) : Option AgentConfig := do
  let table ← document.asTable
  let server ← required ServerConfig.read table "server"
  let agent ← required AgentIdentity.read table "agent"
  let heartbeat ← defaulted HeartbeatConfig.read .default table "heartbeat"
  let log ← defaulted LogConfig.read { level := "info" } table "log"
  let enrollment ← optionally EnrollmentConfig.read table "enrollment"
  let tls ← optionally TlsConfig.read table "tls"
  let envelope ← optionally EnvelopeConfig.read table "envelope"
  return { server, agent, heartbeat, log, enrollment, tls, envelope }

/-- A parse error keeps the parser's line and column alone: no line shows its message. -/
inductive ConfigError where
  | parse (position : Option (Nat × Nat))
  | missingKey (key : String)
  | invalid (reason : String)
deriving DecidableEq

/-- The TOML library: where a text fails to be a document or to have the configuration's
shape is its own. -/
structure TomlFormat where
  parse : String → Except (Option (Nat × Nat)) Toml
  shapeError : String → Option (Nat × Nat)
  print : Toml → Option String

/-- The table with some of its texts set or removed. -/
inductive Table.Retexted (table : Table) : Table → Prop where
  | same : Retexted table table
  | insert {changed : Table} {key text : String} :
      Retexted table changed → Retexted table (changed.insert key (.string text))
  | remove {changed : Table} {key : String} :
      Retexted table changed → Retexted table (changed.remove key)

/-- A table that was read, with texts of its inner tables set or removed. -/
inductive TomlFormat.Edited (T : TomlFormat) : Table → Prop where
  | parsed {text : String} {table : Table} : T.parse text = .ok (.table table) → Edited T table
  | edited {table inner changed : Table} {name : String} : Edited T table →
      table.get name = some (.table inner) → inner.Retexted changed →
      Edited T (table.insert name (.table changed))

/-- What was read and edited is written, and read again. -/
structure TomlFormat.Inverse (T : TomlFormat) : Prop where
  parse_print : ∀ table, T.Edited table → ∃ text, T.print (.table table) = some text ∧
    T.parse text = .ok (.table table)

def isUuidv7 (text : String) : Bool :=
  match text.toList.splitOn '-' with
  | [a, b, c, d, e] =>
    [(a, 8), (b, 4), (c, 4), (d, 4), (e, 12)].all (fun part =>
      part.1.length == part.2 &&
        part.1.all fun ch => ch.isDigit || ('a' ≤ ch && ch ≤ 'f')) &&
    c.head? == some '7' &&
    (d.head? == some '8' || d.head? == some '9' || d.head? == some 'a' || d.head? == some 'b')
  | _ => false

def requiredText (raw : Toml) (table field : String) : Except ConfigError String := do
  let value ← okOr ((raw.get table).bind (·.get field)) (.missingKey s!"{table}.{field}")
  okOr value.asStr (.invalid s!"{table}.{field} must be a string")

def checkRequired (raw : Toml) : Except ConfigError Unit := do
  let serverUrl ← requiredText raw "server" "url"
  refuseIf (!(startsWith serverUrl "http://" || startsWith serverUrl "https://"))
    (.invalid "server.url not a valid URL")
  let agentId ← requiredText raw "agent" "id"
  refuseIf (!isUuidv7 agentId) (.invalid "agent.id not a UUIDv7")
  let agentHostname ← requiredText raw "agent" "hostname"
  refuseIf (agentHostname == "") (.invalid "agent.hostname must be non-empty")

def checkHeartbeat (heartbeat : HeartbeatConfig) : Except ConfigError Unit := do
  refuseIf (heartbeat.intervalSeconds == 0 || heartbeat.requestTimeoutSeconds == 0
      || heartbeat.backoffInitialMs == 0 || heartbeat.backoffMaxMs == 0)
    (.invalid "heartbeat numeric fields must be > 0")
  refuseIf heartbeat.backoffFactor.belowOne (.invalid "heartbeat.backoff_factor must be >= 1.0")

def checkEnrollment (config : AgentConfig) : Except ConfigError Unit :=
  if config.enrollment.isSome then do
    refuseIf (!startsWith config.server.url "https://")
      (.invalid "server.url must use https when [enrollment] is set")
    refuseIf config.server.trustAnchorPath.isNone (.missingKey "server.trust_anchor_path")
  else
    .ok ()

def checkTrustAnchor (config : AgentConfig) : Except ConfigError Unit := do
  refuseIf (config.server.trustAnchorPath == some "")
    (.invalid "server.trust_anchor_path must be non-empty")
  if config.server.trustAnchorPath.isSome then do
    refuseIf (config.server.heartbeatUrl.isNone && !startsWith config.server.url "https://")
      (.invalid "server.url must use https when server.trust_anchor_path is set and server.heartbeat_url is absent")
    refuseIf (config.tls.any (·.minimumVersion != "1.3"))
      (.invalid "tls.minimum_version must be \"1.3\"")
    refuseIf (config.envelope.any (·.canonicalForm != "JCS"))
      (.invalid "envelope.canonical_form must be \"JCS\"")
  else
    .ok ()

def checkHeartbeatUrl (config : AgentConfig) : Except ConfigError Unit :=
  refuseIf (config.server.heartbeatUrl.any (!startsWith · "https://"))
    (.invalid "server.heartbeat_url must use https")

def loadFromStr (T : TomlFormat) (content : String) : Except ConfigError AgentConfig := do
  let raw ← (T.parse content).mapError .parse
  checkRequired raw
  let config ← okOr (AgentConfig.read raw) (.parse (T.shapeError content))
  checkHeartbeat config.heartbeat
  checkEnrollment config
  checkTrustAnchor config
  checkHeartbeatUrl config
  return config

def configErrorLine (path : String) (error : ConfigError) : String :=
  let detail :=
    match error with
    | .parse (some (line, column)) => s!"TOML parse error at line {line}, column {column}"
    | .parse none => "TOML parse error"
    | .missingKey key => s!"invalid config: missing key '{key}'"
    | .invalid reason => s!"invalid config: {reason}"
  s!"cg-agent: invalid config {path}: {detail}"

def join (path name : String) : String := path ++ "\\" ++ name

structure InstalledPaths where
  productRoot : String
  dataRoot : String
  config : String
  trustAnchor : String
  identityDir : String
  cert : String
  key : String
  identity : String
deriving DecidableEq

namespace InstalledPaths

def under (programData : String) : InstalledPaths :=
  let productRoot := join programData "CyberGuard"
  let dataRoot := join productRoot "agent"
  let identityDir := join dataRoot "identity"
  { productRoot, dataRoot, identityDir
    config := join dataRoot "agent.toml"
    trustAnchor := join dataRoot "server-ca.pem"
    cert := join identityDir "cert.pem"
    key := join identityDir "key.dat"
    identity := join identityDir "identity.json" }

def staging (paths : InstalledPaths) : String := join paths.productRoot "agent.migrating"

def legacy (paths : InstalledPaths) : String := join paths.productRoot "agent.legacy"

def record (paths : InstalledPaths) : String := join paths.dataRoot "migration.json"

end InstalledPaths

def isFixedPath (configured fixed : String) : Bool := eqIgnoreAsciiCase fixed configured

def notFixed (configPath key fixed : String) : String :=
  s!"cg-agent: invalid config {configPath}: {key} must be {fixed} in service mode"

def checkServiceConfig (path : String) (config : AgentConfig) : Except String Unit :=
  refuseIf (config.enrollment.isNone || config.server.trustAnchorPath.isNone)
    s!"cg-agent: invalid config {path}: the service requires [enrollment] and server.trust_anchor_path"

def checkInstalledConfig (paths : InstalledPaths) (configPath : String) (config : AgentConfig) :
    Except String Unit := do
  checkServiceConfig configPath config
  let anchor := config.server.trustAnchorPath.getD ""
  refuseIf (!isFixedPath anchor paths.trustAnchor)
    (notFixed configPath "server.trust_anchor_path" paths.trustAnchor)
  match config.enrollment with
  -- refused above
  | none => return ()
  | some enrollment =>
    refuseIf (!isFixedPath enrollment.certPath paths.cert)
      (notFixed configPath "enrollment.cert_path" paths.cert)
    refuseIf (!isFixedPath enrollment.keyPath paths.key)
      (notFixed configPath "enrollment.key_path" paths.key)
    refuseIf (!isFixedPath enrollment.identityPath paths.identity)
      (notFixed configPath "enrollment.identity_path" paths.identity)
    refuseIf config.server.heartbeatUrl.isNone
      s!"cg-agent: invalid config {configPath}: the service requires server.heartbeat_url"

end CyberGuard.Service
