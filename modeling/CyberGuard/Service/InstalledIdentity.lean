import CyberGuard.Service.MigrationChecks
import CyberGuard.Shared.CrashLogic

/-!
# The installed service's identity

A start checks the identity directory and then loads the identity in it, or enrolls and
writes a new one. A creation may fail or be cut, and may leave a file with any contents.
`requests` and `created` record what a start sent and wrote.
-/

namespace CyberGuard.Service.InstalledIdentity
set_option autoImplicit false
open Checks CrashLogic

inductive TlsError where
  | serverCertUntrusted (reason : String)
  | clientCertRejected (reason : String)
  | clientConfig (reason : String)

def TlsError.exitCode : TlsError → Nat
  | .serverCertUntrusted _ | .clientConfig _ => 6
  | .clientCertRejected _ => 7

inductive EnrollmentError where
  | missingToken
  | refused (reason : String)
  | unreachable (attempts : Nat) (lastError : String)
  | persistence (reason : String)
  | tls (error : TlsError)

def EnrollmentError.exitCode : EnrollmentError → Nat
  | .missingToken => 2
  | .refused _ => 3
  | .unreachable _ _ => 4
  | .persistence _ => 5
  | .tls error => error.exitCode

structure EnrollmentRequest where
  envelopeVersion : String
  enrollmentToken : String
  agentPubkey : String
  agentHostname : String
  agentPlatform : String
  agentVersion : String

structure EnrollmentResponse where
  envelopeVersion : String
  agentId : String
  clientCertificate : String
  issuedAt : String
  expiresAt : String

/-- How a request ends: a status with its body, a certificate the anchor does not vouch for, or
another failure of the network. -/
inductive Reply where
  | response (status : Nat) (body : Except String String)
  | untrusted (reason : String)
  | failed (error : String)

inductive DirectoryCreation where
  | created
  | alreadyExists
  | failed (error : String)

inductive Op (B : Type) where
  | generate
  | readAnchor (path : String)
  | tlsConfig (anchor : B)
  | httpClient (timeoutSeconds : Nat)
  | post (url : String) (request : EnrollmentRequest)
  | createDirectory
  | sealKey (seed : B)
  | createFile (name : Name) (bytes : B)
  | hygienizeToken

variable {B : Type}

def Op.Answer : Op B → Type
  | .generate => Except String B
  | .readAnchor _ => Except String B
  | .tlsConfig _ => Except TlsError Unit
  | .httpClient _ => Except String Unit
  | .post _ _ => Reply
  | .createDirectory => DirectoryCreation
  | .sealKey _ => Except String B
  | .createFile _ _ => Except String Unit
  | .hygienizeToken => Unit

structure State (B : Type) where
  /-- `identity\`, as it is on disk. -/
  directory : Option (Node B)
  requests : List EnrollmentRequest := []
  created : List (Name × B) := []

def State.file (s : State B) (name : Name) : Option (Node B) := s.directory.bind (·.child name.text)

/-- A file is created only where there is none of its name. -/
inductive State.Creates (s : State B) (name : Name) (bytes : B) : State B → Prop where
  | intro {directory : Node B} :
      Disk.changeEntries s.directory (Disk.create name.text
        (newFile MigrationCustody.identityFile bytes)) = .ok directory →
      Creates s name bytes
        { s with directory := some directory, created := s.created ++ [(name, bytes)] }

inductive Answers : (o : Op B) → State B → o.Answer → State B → Prop where
  | generate {s : State B} (seed : Except String B) : Answers .generate s seed s
  | readAnchor {s : State B} {path : String} (anchor : Except String B) :
      Answers (.readAnchor path) s anchor s
  | tlsConfig {s : State B} {anchor : B} (result : Except TlsError Unit) :
      Answers (.tlsConfig anchor) s result s
  | httpClient {s : State B} {timeoutSeconds : Nat} (result : Except String Unit) :
      Answers (.httpClient timeoutSeconds) s result s
  | post {s : State B} {url : String} {request : EnrollmentRequest} (reply : Reply) :
      Answers (.post url request) s reply { s with requests := s.requests ++ [request] }
  | directoryCreated {s : State B} : s.directory = none →
      Answers .createDirectory s .created
        { s with directory := some (newDirectory MigrationCustody.identityDirectory []) }
  | directoryThere {s : State B} : s.directory.isSome → Answers .createDirectory s .alreadyExists s
  | directoryFailed {s : State B} (error : String) : Answers .createDirectory s (.failed error) s
  | sealKey {s : State B} {seed : B} (result : Except String B) : Answers (.sealKey seed) s result s
  | fileCreated {s t : State B} {name : Name} {bytes : B} : s.Creates name bytes t →
      Answers (.createFile name bytes) s (.ok ()) t
  | fileFailed {s : State B} {name : Name} {bytes : B} (error : String) :
      Answers (.createFile name bytes) s (.error error) s
  /-- The file is there, and writing it fails. -/
  | fileTorn {s t : State B} {name : Name} {bytes : B} (torn : B) (error : String) :
      s.Creates name torn t → Answers (.createFile name bytes) s (.error error) t
  | hygienizeToken {s : State B} : Answers .hygienizeToken s () s

/-- A machine that goes down inside a creation leaves any contents. -/
inductive Partly : Op B → State B → State B → Prop where
  | createFile {s t : State B} {name : Name} {bytes : B} (torn : B) : s.Creates name torn t →
      Partly (.createFile name bytes) s t

def device : Device (State B) (Op B) Op.Answer where
  answers := Answers
  partly := Partly

abbrev IdentityProg (B : Type) := Prog (State B) (Op B) Op.Answer EnrollmentError

structure Formats (B : Type) where
  agentVersion : String
  base64Url : B → String
  parseResponse : String → Except String EnrollmentResponse
  pemContents : String → Except String B
  printIdentity : PersistedIdentity → Except String B

structure EnrolledIdentity (B : Type) where
  agentId : String
  clientCertificatePem : String
  issuedAt : String
  expiresAt : String
  secretSeed : B
  publicKey : B

section Enrollment
variable (F : Formats B) (H : Host B)

def parseAndValidate (body : String) : Except EnrollmentError EnrollmentResponse := do
  let response ← (F.parseResponse body).mapError fun e => .refused ("malformed server response: " ++ e)
  refuseIf (!isUuidv7 response.agentId)
    (.refused "malformed server response (agent_id is not a UUIDv7)")
  let contents ← (F.pemContents response.clientCertificate).mapError fun e =>
    .refused ("malformed server response (bad certificate PEM: " ++ e ++ ")")
  refuseIf (H.size contents == 0) (.refused "malformed server response (empty certificate)")
  return response

def Reply.settle : Reply → Except String (Except EnrollmentError EnrollmentResponse)
  | .response status body =>
    if 200 ≤ status ∧ status < 300 then
      .ok (body.mapError (fun e => .refused ("malformed server response: " ++ e)) >>=
        parseAndValidate F H)
    else if status = 401 ∨ status = 403 then .ok (.error (.refused "token rejected by server"))
    else if status = 409 then .ok (.error (.refused "token already used"))
    else if 400 ≤ status ∧ status ≤ 499 then
      .ok (.error (.refused s!"malformed server response (unexpected status {status})"))
    else .error s!"status {status}"
  | .untrusted reason => .ok (.error (.tls (.serverCertUntrusted reason)))
  | .failed error => .error error

def attempts (url : String) (request : EnrollmentRequest) :
    Nat → Nat → String → IdentityProg B EnrollmentResponse
  | 0, attempt, lastError => .stop (.unreachable attempt lastError)
  | left + 1, attempt, _ => .act (.post url request) fun reply =>
    match reply.settle F H with
    | .ok result => .ofExcept result
    | .error lastError => attempts url request left (attempt + 1) lastError

def postWithRetry (url : String) (request : EnrollmentRequest) (enr : EnrollmentConfig) :
    IdentityProg B EnrollmentResponse :=
  attempts F H url request (max enr.maxRetries 1) 0 "no attempts made"

def enrollUrl (config : AgentConfig) : String :=
  String.ofList ((config.server.url.toList.reverse.dropWhile (· = '/')).reverse) ++
    "/v1/agents/enroll"

/-- The client of a request, with the trust anchor's roots alone. -/
def buildClient (config : AgentConfig) (enr : EnrollmentConfig) : IdentityProg B Unit := do
  let path ← Prog.ofExcept (okOr config.server.trustAnchorPath
    (.tls (.clientConfig "enrollment requires server.trust_anchor_path")))
  let anchor ← Prog.act (.readAnchor path) fun anchor => .ofExcept (anchor.mapError fun e =>
    .tls (.clientConfig ("read trust anchor " ++ path ++ ": " ++ e)))
  Prog.act (.tlsConfig anchor) fun result => .ofExcept (result.mapError .tls)
  Prog.act (.httpClient enr.timeoutSeconds) fun result => .ofExcept (result.mapError fun e =>
    .persistence ("http client build failed: " ++ e))

def enroll (config : AgentConfig) : IdentityProg B (EnrolledIdentity B) := do
  let enr ← Prog.ofExcept (okOr config.enrollment .missingToken)
  let token ← Prog.ofExcept (okOr (enr.token.filter (· ≠ "")) .missingToken)
  let seed ← Prog.act .generate fun seed => .ofExcept (seed.mapError fun e =>
    .persistence ("key generation failed: " ++ e))
  let publicKey := H.publicKey seed
  let request : EnrollmentRequest :=
    ⟨"0.1.0", token, F.base64Url publicKey, config.agent.hostname, "windows", F.agentVersion⟩
  buildClient config enr
  let response ← postWithRetry F H (enrollUrl config) request enr
  return ⟨response.agentId, response.clientCertificate, response.issuedAt, response.expiresAt, seed,
    publicKey⟩

end Enrollment

section Installed
variable [DecidableEq B] (F : Formats B) (H : Host B) (identityDir : String)

def setFiles (enr : EnrollmentConfig) : List (String × String × Name) :=
  [("the certificate", enr.certPath, .cert), ("the key", enr.keyPath, .key),
    ("identity.json", enr.identityPath, .identity)]

def missingFiles (s : State B) : List (String × String × Name) → Except String (List String)
  | [] => .ok []
  | (name, path, file) :: rest => do
    let there ← checkIfExists (s.file file) path .file MigrationCustody.identity
    let missing ← missingFiles s rest
    return if there then missing else name :: missing

/-- `installed::check`: the set is complete, or the directory is absent. -/
def check (config : AgentConfig) (s : State B) : Except EnrollmentError Unit := do
  let enr ← okOr config.enrollment .missingToken
  let there ← (checkIfExists s.directory identityDir .directory
    MigrationCustody.identity).mapError .persistence
  if !there then return ()
  else
    let missing ← (missingFiles s (setFiles enr)).mapError .persistence
    refuseIf (!missing.isEmpty) (.persistence ("incomplete identity: " ++
      " and ".intercalate missing ++ " missing; " ++ installedRepair))

def isEnrolled (config : AgentConfig) (s : State B) : Bool :=
  config.enrollment.isSome && (s.file .cert).isSome && (s.file .key).isSome

def checkIssued (enrolled : EnrolledIdentity B) : Except EnrollmentError Unit :=
  (checkConsistency H enrolled.clientCertificatePem enrolled.publicKey enrolled.agentId).mapError
    fun e => .refused ("malformed response: " ++ e)

/-- `installed::load`. -/
def load (s : State B) : Except EnrollmentError (Identity B) := do
  let identity ← (loadIdentity H s.directory).mapError fun reason =>
    .persistence (reason ++ "; " ++ installedRepair)
  (checkConsistency H identity.clientCertificatePem identity.publicKey identity.agentId).mapError
    fun e => .persistence ("inconsistent identity: " ++ e ++ "; " ++ installedRepair)
  return identity

def ensureDirectory : IdentityProg B Unit :=
  .act .createDirectory fun
    | .created => .ret ()
    | .alreadyExists => .look fun s => .ofExcept ((checkThere s.directory identityDir .directory
        MigrationCustody.identity).mapError .persistence)
    | .failed error => .stop (.persistence error)

def createNewFile (file : Name × B) : IdentityProg B Unit :=
  .act (.createFile file.1 file.2) fun result => .ofExcept (result.mapError .persistence)

/-- `installed::persist`: the directory, and each file created new, `identity.json` last. -/
def persist (enrolled : EnrolledIdentity B) : IdentityProg B Unit := do
  ensureDirectory identityDir
  let sealedKey ← Prog.act (.sealKey enrolled.secretSeed) fun result =>
    .ofExcept (result.mapError fun e => .persistence ("cannot seal private key: " ++ e))
  let persisted : PersistedIdentity := ⟨enrolled.agentId, H.pubkeyFingerprint enrolled.publicKey,
    enrolled.issuedAt, enrolled.expiresAt⟩
  let identityJson ← Prog.ofExcept ((F.printIdentity persisted).mapError fun e =>
    .persistence ("cannot serialize identity.json: " ++ e))
  Prog.forEach createNewFile [(.cert, H.asBytes enrolled.clientCertificatePem), (.key, sealedKey),
    (.identity, identityJson)]

def enrollAnew (config : AgentConfig) : IdentityProg B (Identity B) := do
  let enrolled ← enroll F H config
  Prog.ofExcept (checkIssued H enrolled)
  persist F H identityDir enrolled
  Prog.act .hygienizeToken fun _ => .ret ()
  return ⟨enrolled.agentId, H.publicKey enrolled.secretSeed, enrolled.clientCertificatePem⟩

/-- `installed::ensure_identity`. -/
def ensureIdentity (config : AgentConfig) : IdentityProg B (Identity B) := do
  let _ ← Prog.ofExcept (okOr config.enrollment .missingToken)
  Prog.look fun s =>
    if isEnrolled config s then .ofExcept (load H s) else enrollAnew F H identityDir config

/-- A round that exhausts its attempts is followed by another. -/
def EnrollmentError.retried : EnrollmentError → Bool
  | .unreachable _ _ => true
  | _ => false

/-- `identity_rounds_until_stopped`, for a stop that comes after that many rounds: `none` where it
came. -/
def identityRounds (config : AgentConfig) : Nat → IdentityProg B (Option (Identity B))
  | 0 => .ret none
  | rounds + 1 => ((ensureIdentity F H identityDir config) >>= fun identity =>
      Prog.ret (some identity)).handle fun e =>
    if e.retried then identityRounds config rounds else .stop e

/-- A start: the check once, then a round and any number of others. -/
def startService (config : AgentConfig) (more : Nat) : IdentityProg B (Option (Identity B)) := do
  Prog.look fun s => .ofExcept (check identityDir config s)
  identityRounds F H identityDir config (more + 1)

end Installed

end CyberGuard.Service.InstalledIdentity
