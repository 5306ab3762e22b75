import CyberGuard.Service.Custody
import CyberGuard.Service.GeneratedConfig
import Mathlib.Data.List.Sort

/-!
# What the migration checks

The console installation's files, the operator's request and the record of it,
and every check the migration makes on what it has read. None of them changes
anything.
-/

namespace CyberGuard.Service
set_option autoImplicit false
open Checks

variable {B : Type}

inductive Name where
  | config
  | anchor
  | cert
  | key
  | identity
  | temporary
deriving DecidableEq

def Name.text : Name → String
  | .config => "agent.toml"
  | .anchor => "server-ca.pem"
  | .cert => "cert.pem"
  | .key => "key.dat"
  | .identity => "identity.json"
  | .temporary => "agent.toml.hygiene-tmp"

def required : List Name := [.config, .anchor, .cert, .key, .identity]

def identityFiles : List Name := [.cert, .key, .identity]

def identityDirectory : String := "identity"
def recordName : String := "migration.json"
def recordTemporary : String := "migration.json.rewrite-tmp"

def readLimit : Nat := 16 * 1024 * 1024

def keyLen : Nat := 32

def knownName (entry : String) : Option Name :=
  (required ++ [Name.temporary]).find? fun name => eqIgnoreAsciiCase name.text entry

inductive Choice where
  | remove
  | keep
deriving DecidableEq

structure Request where
  choice : Choice
  fingerprints : List String
deriving DecidableEq

structure Record where
  choice : Choice
  fingerprints : List String
  agentId : String
  keyFingerprint : String
  enrollingAccount : Option String
  files : List (String × String)
  reversalPending : Bool
  copiesNotReached : List String
deriving DecidableEq

/-- `files` is a map, kept in the order of the names. -/
def Record.Ordered (record : Record) : Prop := record.files.Pairwise (·.1 < ·.1)

def sameSet (a b : List String) : Bool := a.all b.contains && b.all a.contains

def Record.asksFor (record : Record) (request : Request) : Bool :=
  record.choice == request.choice && sameSet record.fingerprints request.fingerprints

structure PersistedIdentity where
  agentId : String
  agentPubkeyFingerprint : String
  issuedAt : String
  expiresAt : String

structure CertificateIdentity (B : Type) where
  commonName : String
  ed25519PublicKey : B

/-- What the migration leaves to libraries and to Windows: the encodings, the ciphers and the
machine's own key. An error is the library's message. -/
structure Host (B : Type) where
  toml : TomlFormat
  fromUtf8 : B → Option String
  asBytes : String → B
  empty : B
  size : B → Nat
  parseRecord : B → Option Record
  printRecord : Record → B
  pemCertificates : B → Option (List B)
  encodePem : List B → String
  sha256 : B → String
  unsealKey : B → Except String B
  publicKey : B → B
  pubkeyFingerprint : B → String
  parseIdentity : B → Except String PersistedIdentity
  certificateIdentityDer : B → Except String (CertificateIdentity B)
  parseRfc3339 : String → Option Int
  sidText : Sid → String

structure Host.Inverse (H : Host B) : Prop where
  toml : H.toml.Inverse
  fromUtf8_asBytes : ∀ text, H.fromUtf8 (H.asBytes text) = some text
  asBytes_fromUtf8 : ∀ bytes text, H.fromUtf8 bytes = some text → H.asBytes text = bytes
  parse_printRecord : ∀ record, record.Ordered → H.parseRecord (H.printRecord record) = some record
  pem_encodePem : ∀ certificates, H.pemCertificates (H.asBytes (H.encodePem certificates)) =
    some certificates

/-- The paths, and what a call finds of the clock and of the host's name. -/
structure Environment where
  paths : InstalledPaths
  now : Int
  hostname : Except String String

namespace Environment

def stagedRecord (E : Environment) : String := join E.paths.staging recordName

def dataFile (E : Environment) (name : Name) : String := join E.paths.dataRoot name.text

end Environment

def defaultRefusal : String := "the data directory holds a console installation's identity files: migrate them before removing anything"
def repairEntry : String :=
  "repair: an administrator who has checked that it is not the agent's removes it"
def repairLink : String := "repair: an administrator gives it owner SYSTEM and a protected DACL for SYSTEM and Administrators, so that no one else can link it again, then removes its other names"
def repairOwner : String := "repair: after a restart, before that account signs in again, an elevated administrator of another account who has checked that the owner is the account that set up or enrolled the agent makes Administrators its owner, and gives a directory SYSTEM and Administrators alone, then starts the migration again; an owner that cannot be so confirmed means enrolling anew"
def repairTemporary : String :=
  "repair: an administrator deletes it, since it holds at most a consumed token"
def repairAnew : String := "repair: an administrator keeps the files aside, removes the CyberGuard directory and installs anew with a new token, the old agent removed on the server"
def notTheRecorded : String := "they are not the ones the migration in progress recorded"

def invalidArguments (reason : String) : String :=
  s!"cg-agent: invalid migration arguments: {reason}"

def identityLine (reason : String) : String := s!"cg-agent: identity error: {reason}"

def anchorLine (reason : String) : String :=
  s!"cg-agent: tls: client configuration failed: migration: {reason}"

def stderrServiceLog (reason : String) : String :=
  s!"cg-agent: the service log cannot be written: {reason}"

def exitServiceLog : Nat := 13

def hasSecurity (found : Option (Node B)) (path : String) (policy : Policy) : Bool :=
  found.any fun node => (node.security.check path policy).toBool

def isPlainDirectory (found : Option (Node B)) (path : String) : Bool :=
  found.any fun node => (node.checkShape path .directory).toBool

/-- What a refusal before the commit adds, read from the objects themselves. -/
def withState (E : Environment) (d : Disk B) (line : String) : String :=
  let policy := MigrationCustody.configuration
  let rootPlain := isPlainDirectory (some d.productNode) E.paths.productRoot
  let plain := rootPlain && isPlainDirectory d.dataRoot E.paths.dataRoot
  let directories :=
    (if hasSecurity (some d.productNode) E.paths.productRoot policy then [E.paths.productRoot]
      else []) ++
    (if rootPlain && hasSecurity d.dataRoot E.paths.dataRoot policy then [E.paths.dataRoot] else [])
  let files := (required ++ [Name.temporary]).filter fun name =>
    plain && hasSecurity (d.dataRoot.bind (·.child name.text)) (E.dataFile name) policy
  let restricted := directories ++ files.map Name.text
  if restricted.isEmpty then
    s!"{line}; the console installation is in place, none of it restricted"
  else
    let listed := ", ".intercalate restricted
    s!"{line}; the console installation is in place, restricted: {listed}"

/-- A staging or legacy directory counts only under `agent.toml`'s policy. -/
def counts (found : Option (Node B)) (path : String) : Bool :=
  match checkIfExists found path .directory MigrationCustody.configuration with
  | .ok true => true
  | _ => false

/-- The record of a staging directory, none where it is refused or does not parse. -/
def recordOf (H : Host B) (found : Option (Node B)) (path : String) : Option Record :=
  match readChecked found path MigrationCustody.configuration with
  | .ok (some bytes) => H.parseRecord bytes
  | .ok none | .error _ => none

/-- `check_data_directories`' check of one of them. -/
def checkDataDirectory (found : Option (Node B)) (path : String) : Except String Bool :=
  checkIfExists found path .directory
    ⟨MigrationCustody.owners, MigrationCustody.configuration.allowed, false⟩

def mayChange (mask : BitVec 32) : Bool := mask &&& (writeDac ||| writeOwner ||| genericAll) != 0#32

/-- Owned by SYSTEM or Administrators, and no one else may change it or take its ownership. -/
def checkClosable (security : Descriptor) (path : String) : Except String Unit := do
  refuseIf (!security.ownedBy MigrationCustody.owners)
    s!"{path} is owned by another account; {repairOwner}"
  let entries ← (security.allowEntries path).mapError fun reason => s!"{reason}; {repairOwner}"
  let entries ← okOr entries s!"{path} has no DACL; {repairOwner}"
  refuseIf (entries.any fun entry =>
      !MigrationCustody.trusted.any (·.is entry.sid) && mayChange entry.mask)
    s!"{path}'s DACL lets another account change it or take its ownership; {repairOwner}"

def checkRootEntriesOf (productRoot : String) (staging : Bool) :
    List (List Char) → List String → Except String Unit
  | _, [] => .ok ()
  | seen, entry :: rest => do
    let accepted := eqIgnoreAsciiCase entry "agent"
      || (staging && eqIgnoreAsciiCase entry "agent.migrating")
    refuseIf (!accepted || seen.contains (asciiLowercase entry))
      s!"{productRoot} holds {entry}, which is not the agent's; {repairEntry}"
    checkRootEntriesOf productRoot staging (asciiLowercase entry :: seen) rest

/-- The data root's entries, each a name of the console installation's, once. -/
def dataRootNamesOf (dataRoot : String) : List Name → List String → Except String (List Name)
  | names, [] => .ok names
  | names, entry :: rest => do
    let refusal := s!"{dataRoot} holds {entry}, which is not the agent's; {repairEntry}"
    let name ← okOr (knownName entry) refusal
    refuseIf (names.contains name) refusal
    dataRootNamesOf dataRoot (names ++ [name]) rest

def checkPresent (dataRoot : String) (names : List Name) : List Name → Except String Unit
  | [] => .ok ()
  | name :: rest => do
    let text := name.text
    refuseIf (!names.contains name) s!"{text} is missing from {dataRoot}; {repairAnew}"
    checkPresent dataRoot names rest

/-- In the order of `REQUIRED`, the temporary last. -/
def inOrder (names : List Name) : List Name :=
  names.insertionSort fun a b => required.idxOf a ≤ required.idxOf b

structure Allowed where
  service : Bool
  administrators : Bool
  others : List Sid

def Allowed.add (allowed : Allowed) (entry : Descriptor.AllowEntry) : Allowed :=
  if MigrationCustody.service.is entry.sid then { allowed with service := true }
  else if Principal.administrators.is entry.sid then { allowed with administrators := true }
  else if allowed.others.contains entry.sid then allowed
  else { allowed with others := allowed.others ++ [entry.sid] }

/-- `check_file`, of an object that opened: its ID and the SID besides SYSTEM that an identity
file allows. -/
def checkFile (node : Node B) (path : String) (name : Name) :
    Except String (FileId × Option Sid) := do
  let repair := fun other => if name = .temporary then repairTemporary else other
  let entryRepair := repair repairEntry
  refuseIf (node.reparsePoint || node.content.isDirectory)
    s!"{path} is not a regular file; {entryRepair}"
  let linkRepair := repair repairLink
  refuseIf (node.links != 1) s!"{path} is hard-linked; {linkRepair}"
  let ownerRepair := repair repairOwner
  refuseIf (!node.security.ownedBy MigrationCustody.owners)
    s!"{path} is owned by another account; {ownerRepair}"
  if !identityFiles.contains name then return (node.id, none)
  else
    let entries ← node.security.allowEntries path
    let entries ← okOr entries s!"{path} has no DACL; {repairAnew}"
    let allowed := entries.foldl Allowed.add ⟨false, false, []⟩
    refuseIf (!allowed.service || decide (1 < allowed.others.length)
        || (allowed.administrators && !allowed.others.isEmpty))
      s!"{path}'s DACL allows more than the service and one account; {repairAnew}"
    return (node.id, allowed.others.getLast?)

/-- `read_unshared`, of an object that opened. -/
def readUnshared (H : Host B) (node : Node B) (path : String) : Except String (B × FileId) := do
  node.checkShape path .file
  match node.content with
  -- refused above
  | .directory _ _ => throw s!"{path} is not a regular file"
  | .file bytes =>
    refuseIf (decide (readLimit < H.size bytes)) s!"{path} is larger than {readLimit} bytes"
    return (bytes, node.id)

section identity
variable [DecidableEq B] (H : Host B)

def fingerprint (der : B) : String := "sha256:" ++ H.sha256 der

def distinct : List B → List B → List B
  | found, [] => found
  | found, der :: rest => distinct (if found.contains der then found else found ++ [der]) rest

def checkAnchor (bytes : B) (expected : List String) : Except String (List B) := do
  let certificates ← okOr (H.pemCertificates bytes) "server-ca.pem cannot be read"
  let found := distinct [] certificates
  refuseIf (!sameSet (found.map (fingerprint H)) expected)
    "the certificates of server-ca.pem are not exactly those of the fingerprints given"
  return found

def certificatesIn (text : String) : Except String (List B) :=
  okOr (H.pemCertificates (H.asBytes text)) "the certificate's PEM document cannot be read"

def certificateIdentity (text : String) : Except String (CertificateIdentity B) := do
  let certificates ← certificatesIn H text
  let first ← okOr certificates.head? "no CERTIFICATE block"
  H.certificateIdentityDer first

def checkConsistency (text : String) (publicKey : B) (agentId : String) : Except String Unit := do
  let certificate ← (certificateIdentity H text).mapError fun e =>
    s!"the certificate cannot be read: {e}"
  refuseIf (certificate.ed25519PublicKey != publicKey)
    "the certificate's public key is not the agent's key"
  refuseIf (certificate.commonName != agentId)
    "the certificate's common name is not the agent's id"

def checkIdentity (now : Int) (recorded : Option Record) (sealedKey certificate identity : B) :
    Except String (String × String) := do
  let persisted ← (H.parseIdentity identity).mapError fun _ =>
    s!"identity.json does not parse; {repairAnew}"
  let secret ← (H.unsealKey sealedKey).mapError fun _ =>
    s!"key.dat does not unseal with this machine's key; {repairAnew}"
  refuseIf (H.size secret != keyLen) s!"key.dat does not hold an Ed25519 seed; {repairAnew}"
  let publicKey := H.publicKey secret
  let keyFingerprint := H.pubkeyFingerprint publicKey
  refuseIf (keyFingerprint != persisted.agentPubkeyFingerprint)
    s!"key.dat is not the key identity.json names; {repairAnew}"
  refuseIf (recorded.any fun record =>
      record.keyFingerprint != keyFingerprint || record.agentId != persisted.agentId)
    s!"the identity is not the one the migration recorded; {repairAnew}"
  let text ← okOr (H.fromUtf8 certificate) s!"cert.pem is not a PEM document; {repairAnew}"
  let certificates ← (certificatesIn H text).mapError fun e => s!"cert.pem: {e}; {repairAnew}"
  refuseIf (certificates.length != 1) s!"cert.pem does not hold one certificate; {repairAnew}"
  (checkConsistency H text publicKey persisted.agentId).mapError fun e =>
    s!"cert.pem: {e}; {repairAnew}"
  let expiresAt ← okOr (H.parseRfc3339 persisted.expiresAt)
    s!"identity.json's expires_at does not parse; {repairAnew}"
  refuseIf (decide (expiresAt ≤ now)) s!"the identity has expired; {repairAnew}"
  return (persisted.agentId, keyFingerprint)

structure Identity (B : Type) where
  agentId : String
  publicKey : B
  clientCertificatePem : String

/-- What a read of the file gives, none where there is no such file. -/
def bytesOf (found : Option (Node B)) : Option B :=
  match found with
  | some node =>
    match node.content with
    | .file bytes => some bytes
    | .directory _ _ => none
  | none => none

/-- `load_identity`, from the directory its three paths are in. -/
def loadIdentity (directory : Option (Node B)) : Except String (Identity B) := do
  let read := fun name : Name => okOr (bytesOf (directory.bind (·.child name.text))) Disk.notFound
  let decode := fun bytes : B => okOr (H.fromUtf8 bytes) "stream did not contain valid UTF-8"
  let certificate ← (read .cert >>= decode).mapError fun e => s!"cannot read cert.pem: {e}"
  refuseIf (directory.bind (·.child Name.identity.text)).isNone "identity.json missing"
  let identity ← (read .identity >>= decode).mapError fun e => s!"cannot read identity.json: {e}"
  let persisted ← (H.parseIdentity (H.asBytes identity)).mapError fun e =>
    s!"identity.json corrupted: {e}"
  let sealedKey ← (read .key).mapError fun e => s!"cannot read key.dat: {e}"
  let secret ← (H.unsealKey sealedKey).mapError fun e => s!"cannot decrypt private key: {e}"
  let length := H.size secret
  refuseIf (length != keyLen) s!"decrypted key has wrong length ({length} bytes)"
  let publicKey := H.publicKey secret
  refuseIf (H.pubkeyFingerprint publicKey != persisted.agentPubkeyFingerprint)
    "pubkey fingerprint mismatch"
  return ⟨persisted.agentId, publicKey, certificate⟩

def installedRepair : String :=
  "restore the identity, or remove the identity directory and enroll with a new token"

/-- `installed::load`. -/
def load (directory : Option (Node B)) : Except String (Identity B) := do
  let persistence := fun reason : String =>
    s!"identity persistence/load failed: {reason}; {installedRepair}"
  let identity ← (loadIdentity H directory).mapError persistence
  (checkConsistency H identity.clientCertificatePem identity.publicKey identity.agentId).mapError
    fun e => persistence s!"inconsistent identity: {e}"
  return identity

def checkIdentityFiles (path : String) (directory : Option (Node B)) :
    List Name → Except String Unit
  | [] => .ok ()
  | name :: rest => do
    checkThere (directory.bind (·.child name.text)) (join path name.text) .file
      MigrationCustody.identity
    checkIdentityFiles path directory rest

/-- `check_staged`, of the staging directory. -/
def checkStaged (E : Environment) (staging : Option (Node B)) (record : Record) :
    Except String Unit := do
  let path := E.paths.staging
  let configuration := MigrationCustody.configuration
  let child := fun name : String => staging.bind (·.child name)
  checkThere staging path .directory configuration
  checkThere (child recordName) E.stagedRecord .file configuration
  let configPath := join path Name.config.text
  let found ← readChecked (child Name.config.text) configPath configuration
  let bytes ← okOr found s!"{configPath} does not exist"
  let text ← okOr (H.fromUtf8 bytes) s!"{configPath} is not UTF-8"
  let config ← (loadFromStr H.toml text).mapError (configErrorLine configPath)
  checkInstalledConfig E.paths configPath config
  let anchorPath := join path Name.anchor.text
  let found ← readChecked (child Name.anchor.text) anchorPath configuration
  let anchor ← okOr found s!"{anchorPath} does not exist"
  let _ ← checkAnchor H anchor record.fingerprints
  let identityPath := join path identityDirectory
  checkThere (child identityDirectory) identityPath .directory MigrationCustody.identity
  checkIdentityFiles identityPath (child identityDirectory) identityFiles
  refuseIf config.enrollment.isNone "no [enrollment]"
  let identity ← load H (child identityDirectory)
  refuseIf (identity.agentId != record.agentId
      || H.pubkeyFingerprint identity.publicKey != record.keyFingerprint)
    "the staged identity is not the recorded one"

end identity

end CyberGuard.Service
