import CyberGuard.Ingest.CgesEventRow
import CyberGuard.Shared.CrashLogic
import Mathlib.Data.List.Sort
import Mathlib.Data.String.Basic

/-!
# The server's own certificate

`ensureServerCert` at a start and `checkServerCert` while running, over the two files of
the pair and their temporary ones. Any operation on a file may fail. `writes`, `clock` and
`issued` record what a call did.
-/

namespace CyberGuard.Ingest.ServerCert
set_option autoImplicit false
open CrashLogic

def dayMs : Int := 24 * 60 * 60 * 1000

def serverRenewBeforeMs : Int := 30 * dayMs

def selfIssuedO : String := "O=CyberGuard self-issued"

def cnMax : Nat := 64

def legacySubject : String := "CN=localhost"

structure GeneralName where
  type : String
  value : String
  deriving DecidableEq, Repr

def legacySan : List GeneralName := [⟨"dns", "localhost"⟩, ⟨"ip", "127.0.0.1"⟩]

/-- What the code calls: `none` where the call throws. -/
structure X509 (C : Type) where
  /-- `new NodeX509Certificate`, the first certificate of a text. -/
  parse : String → Option C
  /-- `verify` under the public key of the server's CA. -/
  verify : C → Option Bool
  subject : C → String
  pem : C → String
  /-- In milliseconds. -/
  validTo : C → Int
  checkPrivateKey : C → String → Option Bool
  /-- The names of the SAN extension, none where it is missing. -/
  altNames : String → Option (List GeneralName)
  isIP : String → Nat
  /-- `hostname` of the URL of a host. -/
  urlHostname : String → Option String

structure ServerIdentity where
  certPem : String
  keyPem : String
  notAfter : Int
  selfIssued : Bool
  deriving DecidableEq, Repr

def joined (names : List String) : String := ",".intercalate (names.insertionSort (· ≤ ·))

def parts (subject : String) : List String := (subject.toList.splitOn '\n').map String.ofList

section Pairs
variable {C : Type} (X : X509 C)

def sanOf (name : String) : Option GeneralName :=
  if X.isIP name = 6 then
    (X.urlHostname ("[" ++ name ++ "]")).map fun host => ⟨"ip", slice host 1 (host.length - 1)⟩
  else if X.isIP name = 4 then some ⟨"ip", name⟩
  else some ⟨"dns", name⟩

def canonicalName (entry : GeneralName) : String :=
  if entry.type = "ip" then
    let host := if entry.value.toList.contains ':' then "[" ++ entry.value ++ "]" else entry.value
    match X.urlHostname host with
    | some hostname => "ip:" ++ hostname
    | none => "ip:" ++ entry.value.toLower
  else entry.type ++ ":" ++ entry.value.toLower

def cnFor (names : List String) : String := slice (names.headD "localhost") 0 cnMax

def cnOf (cert : C) : String :=
  ((parts (X.subject cert)).find? fun part => part.startsWith "CN=").elim ""
    fun cn => (slice cn 3 cn.length).toLower

def certNames (certPem : String) : Option String :=
  (X.altNames certPem).map fun names => joined (names.map (canonicalName X))

def listNames (names : List String) : Option String :=
  (names.mapM (sanOf X)).map fun names => joined (names.map (canonicalName X))

/-- A signature that cannot be checked counts as an operator's. -/
def isSelfIssued (cert : C) : Option Bool :=
  if X.verify cert ≠ some true then some false
  else if (parts (X.subject cert)).contains selfIssuedO then some true
  else if X.subject cert ≠ legacySubject then some false
  else (certNames X (X.pem cert)).map fun names =>
    names = joined (legacySan.map (canonicalName X))

def keyMatches (certPem keyPem : String) : Bool :=
  (((X.parse certPem).bind fun cert => X.checkPrivateKey cert keyPem).getD false)

def describePair (certPem keyPem : String) : Option ServerIdentity := do
  let cert ← X.parse certPem
  let selfIssued ← isSelfIssued X cert
  return ⟨certPem, keyPem, X.validTo cert, selfIssued⟩

inductive RenewalReason where
  | expired
  | expiring
  deriving DecidableEq, Repr

def renewalReason (identity : ServerIdentity) (nowMs : Int) : Option RenewalReason :=
  let left := identity.notAfter - nowMs
  if left ≤ 0 then some .expired
  else if left < serverRenewBeforeMs then some .expiring
  else none

/-- The names of a pair are those of the list, in any order, and its CN is the first;
`none` where reading them throws. -/
def namesCurrent (certPem : String) (names : List String) : Option Bool := do
  let cert ← X.parse certPem
  let ofCert ← certNames X certPem
  let ofList ← listNames X names
  return ofCert = ofList && cnOf X cert = (cnFor names).toLower

end Pairs

inductive Path where
  | key
  | cert
  deriving DecidableEq, Repr

structure Disk where
  files : Path → Option String
  /-- The files of `<path>.tmp`. -/
  temps : Path → Option String

inductive Op where
  | readFile (path : Path)
  | mkdir (path : Path)
  | removeTemp (path : Path)
  /-- Created exclusively. -/
  | createTemp (path : Path) (data : String)
  | rename (path : Path)
  | now
  | issueServerPair

def Op.Answer : Op → Type
  | .readFile _ => Except String String
  | .mkdir _ | .removeTemp _ | .createTemp _ _ | .rename _ => Except String Unit
  | .now => Int
  | .issueServerPair => Except String ServerIdentity

structure State extends Disk where
  /-- The paths that were replaced. -/
  writes : List Path := []
  clock : List Int := []
  issued : List ServerIdentity := []

def State.removeTemp (s : State) (path : Path) : State :=
  { s with temps := Function.update s.temps path none }

def State.createTemp (s : State) (path : Path) (data : String) : State :=
  { s with temps := Function.update s.temps path (some data) }

def State.rename (s : State) (path : Path) : State :=
  { s with
    files := Function.update s.files path (s.temps path)
    temps := Function.update s.temps path none
    writes := s.writes ++ [path] }

def State.read (s : State) (nowMs : Int) : State := { s with clock := s.clock ++ [nowMs] }

def State.issue (s : State) (identity : ServerIdentity) : State :=
  { s with issued := s.issued ++ [identity] }

section Programs
variable {C : Type} (X : X509 C)

/-- A pair as `issueServerPair` makes it: the CA signs it, and its subject has the server's
own organisation. -/
structure Issued (identity : ServerIdentity) : Prop where
  cert : ∃ cert, X.parse identity.certPem = some cert ∧ X.verify cert = some true ∧
    (parts (X.subject cert)).contains selfIssuedO = true ∧
    X.checkPrivateKey cert identity.keyPem = some true
  selfIssued : identity.selfIssued = true

variable (faults : Prop)

/-- Operations fail only where there are `faults`, but for what the files themselves refuse. -/
inductive Answers : (o : Op) → State → o.Answer → State → Prop where
  | content {path : Path} {s : State} {text : String} : s.files path = some text →
      Answers (.readFile path) s (.ok text) s
  | noContent {path : Path} {s : State} (e : String) : faults ∨ s.files path = none →
      Answers (.readFile path) s (.error e) s
  | mkdir {path : Path} {s : State} : Answers (.mkdir path) s (.ok ()) s
  | noMkdir {path : Path} {s : State} (e : String) : faults → Answers (.mkdir path) s (.error e) s
  | removed {path : Path} {s : State} :
      Answers (.removeTemp path) s (.ok ()) (s.removeTemp path)
  | notRemoved {path : Path} {s : State} (e : String) : faults →
      Answers (.removeTemp path) s (.error e) s
  | created {path : Path} {data : String} {s : State} : s.temps path = none →
      Answers (.createTemp path data) s (.ok ()) (s.createTemp path data)
  | notCreated {path : Path} {data : String} {s : State} (e : String) :
      faults ∨ (s.temps path).isSome → Answers (.createTemp path data) s (.error e) s
  | renamed {path : Path} {s : State} : (s.temps path).isSome →
      Answers (.rename path) s (.ok ()) (s.rename path)
  | notRenamed {path : Path} {s : State} (e : String) : faults ∨ s.temps path = none →
      Answers (.rename path) s (.error e) s
  | now {s : State} (nowMs : Int) : Answers .now s nowMs (s.read nowMs)
  | issued {s : State} {identity : ServerIdentity} : Issued X identity →
      Answers .issueServerPair s (.ok identity) (s.issue identity)
  | notIssued {s : State} (e : String) : faults → Answers .issueServerPair s (.error e) s

def device : Device State Op Op.Answer where
  answers := Answers X faults
  partly := fun _ _ _ => False

abbrev CertProg := Prog State Op Op.Answer String

def readFile (path : Path) : CertProg String := .act (.readFile path) .ofExcept

def mkdir (path : Path) : CertProg Unit := .act (.mkdir path) .ofExcept

def removeTemp (path : Path) : CertProg Unit := .act (.removeTemp path) .ofExcept

def createTemp (path : Path) (data : String) : CertProg Unit :=
  .act (.createTemp path data) .ofExcept

def rename (path : Path) : CertProg Unit := .act (.rename path) .ofExcept

def stageFile (file : Path × String) : CertProg Unit := do
  mkdir file.1
  removeTemp file.1
  createTemp file.1 file.2

def pairFiles (certPem keyPem : String) : List (Path × String) := [(.key, keyPem), (.cert, certPem)]

/-- No new private key is left behind in a temporary file, where it can be removed. -/
def clearTemps (certPem keyPem error : String) : CertProg Unit := do
  Prog.forEach (fun file => (removeTemp file.1).handle fun _ => .ret ()) (pairFiles certPem keyPem)
  Prog.stop error

def writePair (certPem keyPem : String) : CertProg Unit :=
  ((do
    Prog.forEach stageFile (pairFiles certPem keyPem)
    Prog.forEach (fun file => rename file.1) (pairFiles certPem keyPem)) : CertProg Unit).handle
      (clearTemps certPem keyPem)

def issueAndWrite : CertProg ServerIdentity := do
  let fresh ← Prog.act .issueServerPair .ofExcept
  writePair fresh.certPem fresh.keyPem
  return fresh

/-- A failure keeps `current`; with no pair to keep it throws. -/
def reissue (current : Option ServerIdentity) : CertProg ServerIdentity :=
  issueAndWrite.handle fun e =>
    match current with
    | none => .stop e
    | some current => .ret current

def orThrow {α : Type} : Option α → CertProg α
  | some a => .ret a
  | none => .stop "invalid certificate"

/-- A pair of the server's own whose key matches, at a start. -/
def renewAtStart (names : List String) (current : ServerIdentity) : CertProg ServerIdentity :=
  .act .now fun nowMs =>
    if (renewalReason current nowMs).isSome then reissue (some current)
    else do
      if ← orThrow (namesCurrent X current.certPem names) then return current
      else reissue (some current)

def incomplete (haveCert : Bool) (certPath keyPath : String) : String :=
  "incomplete server TLS identity: " ++ (if haveCert then certPath else keyPath) ++
    " exists but its pair does not; refusing to regenerate"

def readPair : CertProg ServerIdentity := do
  let certPem ← readFile .cert
  let keyPem ← readFile .key
  orThrow (describePair X certPem keyPem)

def ensureServerCert (certPath keyPath : String) (names : List String) :
    CertProg ServerIdentity :=
  .look fun s =>
    let haveCert := (s.files .cert).isSome
    let haveKey := (s.files .key).isSome
    if !haveCert && !haveKey then reissue none
    else if haveCert != haveKey then .stop (incomplete haveCert certPath keyPath)
    else do
      let current ← readPair X
      if !current.selfIssued then return current
      else if !keyMatches X current.certPem current.keyPem then reissue none
      else renewAtStart X names current

inductive DiskChange where
  | adopt (pair : ServerIdentity)
  | reissue
  | leave
  deriving DecidableEq, Repr

def onDiskChange (nowMs : Int) : CertProg DiskChange :=
  ((do
    let pair ← readPair X
    if !pair.selfIssued then return .leave
    else if keyMatches X pair.certPem pair.keyPem && (renewalReason pair nowMs).isNone then
      return .adopt pair
    else return .reissue) : CertProg DiskChange).handle fun _ => .ret .leave

/-- The pair to serve after a reissue; `none` where it failed, and so kept the one served. -/
def reissueServed : CertProg (Option ServerIdentity) :=
  ((do
    let fresh ← issueAndWrite
    return some fresh) : CertProg (Option ServerIdentity)).handle fun _ => .ret none

def afterChange : DiskChange → CertProg (Option ServerIdentity)
  | .leave => .ret none
  | .adopt pair => .ret (some pair)
  | .reissue => reissueServed

def checkServerCert (served : ServerIdentity) : CertProg (Option ServerIdentity) :=
  if !served.selfIssued then .ret none
  else .act .now fun nowMs =>
    if (renewalReason served nowMs).isNone then .ret none
    else .act (.readFile .cert) fun onDisk =>
      if onDisk.toOption = some served.certPem then reissueServed
      else .act .now fun nowMs => do
        let change ← onDiskChange X nowMs
        afterChange change

end Programs

end CyberGuard.Ingest.ServerCert
