import CyberGuard.Service.MigrationChecks
import CyberGuard.Shared.CrashLogic
import CyberGuard.Shared.SortedSets
import Mathlib.Data.List.Infix

/-!
# The legacy migration

`prepare`, what a start of the service does before it reads its configuration:
it reads which of the data root, the staging and the legacy directory exist, and
runs the route of a requested migration or the completion of an interrupted one.
Each point may fail or end the start, each command may be refused, and the
machine may go down anywhere.
-/

namespace CyberGuard.Service
set_option autoImplicit false
open Checks CrashLogic

inductive StagedObject where
  | file (name : Name)
  | identityDirectory

/-- Each point comes immediately before the operation it names. -/
inductive Point where
  | closeProductRoot
  | closeDataRoot
  | deleteInterruptedStaging
  | check (name : Name)
  | read (name : Name)
  | restrict (name : Name)
  | restricted (name : Name)
  | createStaging
  | writeRecord
  | stage (object : StagedObject)
  | checkStaged
  | firstRename
  | secondRename
  | recordReversal
  | renameBack
  | clearReversal
  | completeCommit

inductive Injected where
  | failure (reason : String)
  | crash

inductive Stop where
  | refused (code : Nat) (line : String)
  | crashed
deriving DecidableEq

inductive Prepared where
  | plain
  | consoleLayout
  | committed
deriving DecidableEq

inductive Op (B : Type) where
  | watch (point : Point)
  | command (c : Command B)

@[reducible] def Op.Answer {B : Type} : Op B → Type
  | .watch _ => Except Injected Unit
  | .command _ => Except String Unit

abbrev Start (B ε α : Type) := Prog (Disk B) (Op B) Op.Answer ε α

variable {B ε α : Type}

/-- A record's file is torn into one that does not parse, any other into anything. -/
def torn (H : Host B) (name : String) (bytes : B) : Prop :=
  eqIgnoreAsciiCase name recordName = true → H.parseRecord bytes = none

/-- Where `faults` may happen, any point may fail or end the start and any command may be
refused, without effect unless it is a removal. -/
def device (H : Host B) (faults : Prop) : Device (Disk B) (Op B) Op.Answer where
  answers
    | .watch _, s, r, t => t = s ∧ (r = .ok () ∨ faults)
    | .command c, s, r, t =>
      (r = .ok () ∧ s.perform c = .ok t) ∨
      (∃ reason, r = .error reason ∧ s.perform c = .error reason ∧ t = s) ∨
      (faults ∧ ∃ reason, r = .error reason ∧
        (t = s ∨ c.removes = true ∧ s.Partly (torn H) c t))
  partly
    | .watch _, _, _ => False
    | .command c, s, t => s.Partly (torn H) c t

/-- The machine where nothing fails but what the disk's own state refuses. -/
def calm : (o : Op B) → Disk B → o.Answer × Disk B
  | .watch _, d => (.ok (), d)
  | .command c, d =>
    match d.perform c with
    | .ok d' => (.ok (), d')
    | .error reason => (.error reason, d)

namespace Start

def watch (point : Point) : Start B Injected Unit :=
  .act (.watch point) fun answer => .ofExcept answer

def command (c : Command B) : Start B String Unit :=
  .act (.command c) fun answer => .ofExcept answer

def disk : Start B ε (Disk B) := .look .ret

/-- `?` from an operation's reason. -/
def orFailure (p : Start B String α) : Start B Injected α :=
  p.handle fun reason => .stop (.failure reason)

end Start

open Start

def inPlace (E : Environment) (code : Nat) (line : String) : Start B Stop α :=
  .look fun d => .stop (.refused code (withState E d line))

def cutInPlace (E : Environment) (code : Nat) (render : String → String) :
    Injected → Start B Stop α
  | .crash => .stop .crashed
  | .failure reason => inPlace E code (render reason)

def naming (path : String) : Injected → Injected
  | .failure reason =>
    if path.toList <:+: reason.toList then .failure reason
    else .failure s!"{path}: {reason}"
  | .crash => .crash

def otherCombination (E : Environment) : Stop :=
  let dataRoot := E.paths.dataRoot
  let staging := E.paths.staging
  let legacy := E.paths.legacy
  .refused 5 (identityLine s!"{dataRoot}, {staging} and {legacy} are in no state a migration leaves; nothing was changed")

def bothDirectories (E : Environment) (reason : String) : Stop :=
  let staging := E.paths.staging
  let legacy := E.paths.legacy
  .refused 5 (identityLine s!"a migration stopped between its renames, at {staging} and {legacy}: {reason}")

/-- The record of a staging directory that counts; the error is that it cannot be read now. -/
def stagedRecord (H : Host B) (E : Environment) : Start B String (Option Record) := do
  (command (.access E.stagedRecord)).handle fun reason =>
    .stop s!"the migration's record cannot be read: {reason}; nothing was changed"
  let d ← disk
  return recordOf H (d.staging.bind (·.child recordName)) E.stagedRecord

def invalidRecord (E : Environment) (reason : String) : Stop :=
  let path := E.paths.record
  .refused 2 s!"cg-agent: invalid config {path}: {reason}"

/-- The data root's record: after the commit it passes `agent.toml`'s policy and parses. -/
def dataRootRecord (H : Host B) (E : Environment) : Start B Stop (Option Record) := do
  let path := E.paths.record
  (command (.access path)).handle fun reason => .stop (invalidRecord E reason)
  let d ← disk
  let found := d.dataRoot.bind (·.child recordName)
  let bytes ← .ofExcept
    ((readChecked found path MigrationCustody.configuration).mapError (invalidRecord E))
  match bytes with
  | none => return none
  | some bytes =>
    let record ← .ofExcept
      (okOr (H.parseRecord bytes) (invalidRecord E "the record does not parse"))
    return some record

def checkRecorded (request : Option Request) (record : Record) : Except Stop Unit :=
  refuseIf (request.any (!record.asksFor ·)) (.refused 2 (invalidArguments notTheRecorded))

/-- The check of the product root and the data root: on a console layout its reason adds how
to migrate it. -/
def checkDataDirectories (E : Environment) (console : Bool) : Start B Stop Unit := do
  let refuse := fun reason : String =>
    let reason := if console then s!"{reason}; {defaultRefusal}" else reason
    Prog.stop (Stop.refused exitServiceLog (stderrServiceLog reason))
  let check := fun (found : Disk B → Option (Node B)) (path : String) => do
    command (.access path)
    let d ← disk
    let _ ← Prog.ofExcept (checkDataDirectory (found d) path)
  (check (fun d => some d.productNode) E.paths.productRoot).handle refuse
  (check (·.dataRoot) E.paths.dataRoot).handle refuse

/-- `replace_keeping_security` of the staged record: a new temporary file with the security read
from the record, moved over it. -/
def rewrite (H : Host B) (E : Environment) (record : Record) : Start B String Unit := do
  let path := E.stagedRecord
  command (.access path)
  let d ← disk
  let node ← .ofExcept (okOr (d.staging.bind (·.child recordName)) s!"{path} does not exist")
  .ofExcept (node.checkShape path .file)
  .ofExcept (node.security.check path MigrationCustody.configuration)
  if (d.staging.bind (·.child recordTemporary)).isSome then
    command (.deleteStaged recordTemporary)
  command (.createStaged recordTemporary node.security (H.printRecord record))
  (command (.replaceStaged recordTemporary recordName)).handle fun reason => do
    (command (.deleteStaged recordTemporary)).handle fun _ => .ret ()
    .stop reason

/-- Rename the legacy directory back and clear the reversal's mark, which is already in the
record. -/
def reverse (H : Host B) (E : Environment) (record : Record) (cause : String) : Start B Stop α := do
  let legacy := E.paths.legacy
  let back : Start B Injected Unit := do
    watch .renameBack
    orFailure (command (.rename .legacy .dataRoot))
  back.handle fun cut =>
    match cut with
    | .crash => .stop .crashed
    | .failure reason => .stop (.refused 5 (identityLine s!"{cause}, and renaming {legacy} back failed ({reason}): the data root is at that name, and the next start, with or without arguments, puts it back"))
  let cleared : Start B Injected Unit := do
    watch .clearReversal
    orFailure (rewrite H E { record with reversalPending := false })
  cleared.handle fun cut =>
    match cut with
    | .crash => .stop .crashed
    -- a mark left behind beside a console layout changes nothing
    | .failure _ => .ret ()
  inPlace E 5 (identityLine s!"{cause}; the commit was reversed")

inductive Attempt where
  | fresh
  /-- A staging directory without a record: deleted first. -/
  | interrupted
  | continued (record : Record)

def Attempt.recorded : Attempt → Option Record
  | .continued record => some record
  | _ => none

def close (E : Environment) (found : Disk B → Option (Node B)) (path : String) (target : Target)
    (point : Point) : Start B Stop Unit :=
  let closing : Start B Injected Unit := do
    watch point
    orFailure do
      command (.access path)
      let d ← disk
      let node ← .ofExcept (okOr (found d) s!"{path} does not exist")
      .ofExcept (node.checkShape path .directory)
      .ofExcept (checkClosable node.security path)
      command (.setSecurity target MigrationCustody.closedDirectory)
  closing.handle fun cut => cutInPlace E exitServiceLog stderrServiceLog (naming path cut)

def closeDirectories (E : Environment) : Start B Stop Unit := do
  close E (fun d => some d.productNode) E.paths.productRoot .productRoot .closeProductRoot
  close E (·.dataRoot) E.paths.dataRoot .dataRoot .closeDataRoot

/-- A staging directory that counts, without a record, deleted. -/
def deleteInterruptedStaging (E : Environment) : Start B Stop Unit :=
  let deleting : Start B Injected Unit := do
    (watch .deleteInterruptedStaging).handle fun cut => .stop (naming E.paths.staging cut)
    orFailure (command .deleteStaging)
  deleting.handle (cutInPlace E 5 identityLine)

structure Checked where
  files : List (Name × FileId)
  /-- The one SID besides SYSTEM the identity files' DACLs allow. -/
  enrollingAccount : Option Sid

def checkRootEntries (E : Environment) (staging : Bool) : Start B String Unit := do
  command (.access E.paths.productRoot)
  let d ← disk
  .ofExcept (checkRootEntriesOf E.paths.productRoot staging [] d.productEntries)

def dataRootNames (E : Environment) : Start B String (List Name) := do
  command (.access E.paths.dataRoot)
  let d ← disk
  let listing := (d.dataRoot.map fun node => node.content.entries).getD []
  .ofExcept (dataRootNamesOf E.paths.dataRoot [] (listing.map (·.1)))

def identityRefusal (E : Environment) (reason : String) : Start B Stop α :=
  inPlace E 5 (identityLine reason)

def openFile (E : Environment) (name : Name) : Start B String (Node B) := do
  let path := E.dataFile name
  command (.access path)
  let d ← disk
  .ofExcept (okOr (d.dataRoot.bind (·.child name.text)) s!"{path} does not exist")

def checkFiles (E : Environment) : List Name → Checked → Start B Stop Checked
  | [], checked => return checked
  | name :: rest, checked => do
    let path := E.dataFile name
    (watch (.check name)).handle fun cut => cutInPlace E 5 identityLine (naming path cut)
    let node ← (openFile E name).handle (identityRefusal E)
    let (id, other) ← (Prog.ofExcept (checkFile node path name)).handle (identityRefusal E)
    let files := checked.files ++ [(name, id)]
    match other with
    | none => checkFiles E rest { checked with files }
    | some other =>
      if checked.enrollingAccount.any (· != other) then
        identityRefusal E s!"{path} allows another account than the other identity files; {repairAnew}"
      else checkFiles E rest ⟨files, some other⟩

def checkWhatIsThere (E : Environment) (attempt : Attempt) : Start B Stop Checked := do
  let root := E.paths.dataRoot
  (checkRootEntries E attempt.recorded.isSome).handle (identityRefusal E)
  (command (.access root)).handle (identityRefusal E)
  let d ← disk
  let node ← (Prog.ofExcept (okOr d.dataRoot s!"{root} does not exist")).handle (identityRefusal E)
  if node.content.caseSensitive then
    identityRefusal E s!"{root} has case-sensitive lookup on; repair: an administrator turns it off"
  else
    let names ← (dataRootNames E).handle (identityRefusal E)
    (Prog.ofExcept (checkPresent E.paths.dataRoot names required)).handle (identityRefusal E)
    checkFiles E (inOrder names) ⟨[], none⟩

/-- What was read and verified: everything after is written from these bytes. -/
structure Verified (B : Type) where
  configText : String
  certificates : List B
  certificate : B
  sealedKey : B
  identity : B
  agentId : String
  keyFingerprint : String

/-- The files' contents, in a map that holds each name once. -/
def readFiles (H : Host B) (E : Environment) :
    List (Name × FileId) → List (Name × B) → Start B Stop (List (Name × B))
  | [], bytes => return bytes
  | (name, id) :: rest, bytes =>
    if name = .temporary then readFiles H E rest bytes
    else do
      let path := E.dataFile name
      (watch (.read name)).handle fun cut => cutInPlace E 5 identityLine (naming path cut)
      let node ← (openFile E name).handle (identityRefusal E)
      let (content, readId) ←
        (Prog.ofExcept (readUnshared H node path)).handle (identityRefusal E)
      if readId ≠ id then identityRefusal E s!"{path} is not the file that was checked"
      else readFiles H E rest (bytes ++ [(name, content)])

def take (H : Host B) (bytes : List (Name × B)) (name : Name) : B := (bytes.lookup name).getD H.empty

def readEachFile [DecidableEq B] (H : Host B) (E : Environment) (request : Request)
    (attempt : Attempt) (checked : Checked) : Start B Stop (Verified B) := do
  let bytes ← readFiles H E checked.files []
  let configText ←
    (Prog.ofExcept (checkLegacyConfig H.toml E.paths (H.fromUtf8 (take H bytes .config)))).handle
      fun line => inPlace E 2 line
  let certificates ←
    (Prog.ofExcept (checkAnchor H (take H bytes .anchor) request.fingerprints)).handle
      fun reason => inPlace E 6 (anchorLine reason)
  let sealedKey := take H bytes .key
  let certificate := take H bytes .cert
  let identity := take H bytes .identity
  let (agentId, keyFingerprint) ←
    (Prog.ofExcept (checkIdentity H E.now attempt.recorded sealedKey certificate identity)).handle
      (identityRefusal E)
  return { configText, certificates, certificate, sealedKey, identity, agentId, keyFingerprint }

def checkLinks (node : Node B) (path : String) : Except String FileId := do
  refuseIf (node.links != 1) s!"{path} is hard-linked; {repairLink}"
  return node.id

def restrictFile (E : Environment) (name : Name) (id : FileId) : Start B Injected Unit := do
  let path := E.dataFile name
  watch (.restrict name)
  orFailure do
    let node ← openFile E name
    let found ← .ofExcept (checkLinks node path)
    .ofExcept (refuseIf (found != id) s!"{path} is not the file that was checked")
    command (.setSecurity (.file name.text) MigrationCustody.sharedFile)
  watch (.restricted name)
  orFailure do
    let d ← disk
    let node ← .ofExcept (okOr (d.dataRoot.bind (·.child name.text)) s!"{path} does not exist")
    let _ ← .ofExcept (checkLinks node path)

def restrictFiles (E : Environment) (checked : Checked) : Start B Stop Unit :=
  .forEach (fun (name, id) => (restrictFile E name id).handle fun cut =>
    cutInPlace E 5 identityLine (naming (E.dataFile name) cut)) checked.files

/-- A continued migration replaces the staged files: all but its record. -/
def clearStaged (E : Environment) : Start B String Unit := do
  command (.access E.paths.staging)
  let d ← disk
  let listing := (d.staging.map fun node => node.content.entries).getD []
  .forEach (fun entry =>
    if eqIgnoreAsciiCase entry recordName then .ret () else command (.deleteStaged entry))
    (listing.map (·.1))

def newRecord (H : Host B) (request : Request) (attempt : Attempt) (checked : Checked)
    (verified : Verified B) : Record where
  choice := request.choice
  fingerprints := request.fingerprints
  agentId := verified.agentId
  keyFingerprint := verified.keyFingerprint
  enrollingAccount :=
    match checked.enrollingAccount with
    | some sid => some (H.sidText sid)
    | none => attempt.recorded.bind (·.enrollingAccount)
  files := SortedSets.mapOf (·.1) (checked.files.map fun (name, id) => (name.text, id.text))
  reversalPending := false
  copiesNotReached := []

/-- The staging directory with the record in it: a continued migration rewrites the record and
clears the rest, any other creates both. -/
def writeRecord (H : Host B) (E : Environment) (attempt : Attempt) (record : Record) :
    Start B Injected Unit :=
  if attempt.recorded.isSome then do
    watch .writeRecord
    orFailure (rewrite H E record)
    orFailure (clearStaged E)
  else do
    watch .createStaging
    orFailure (command (.createStaging MigrationCustody.closedDirectory))
    watch .writeRecord
    orFailure (command
      (.createStaged recordName MigrationCustody.sharedFile (H.printRecord record)))

def stage (H : Host B) (verified : Verified B) (config : String) : Start B Injected Unit := do
  let shared := MigrationCustody.sharedFile
  let stageFile := fun (name : Name) (bytes : B) => do
    watch (.stage (.file name))
    orFailure (command (.createStaged name.text shared bytes))
  let stageIdentityFile := fun (name : Name) (bytes : B) => do
    watch (.stage (.file name))
    orFailure (command (.createIdentityFile name.text MigrationCustody.identityFile bytes))
  stageFile .config (H.asBytes config)
  stageFile .anchor (H.asBytes (H.encodePem verified.certificates))
  watch (.stage .identityDirectory)
  orFailure (command (.createIdentityDirectory MigrationCustody.identityDirectory))
  stageIdentityFile .cert verified.certificate
  stageIdentityFile .key verified.sealedKey
  stageIdentityFile .identity verified.identity

def checkStagedNow [DecidableEq B] (H : Host B) (E : Environment) (record : Record) :
    Start B String Unit := do
  command (.access E.paths.staging)
  let d ← disk
  .ofExcept (checkStaged H E d.staging record)

def recordAndStage [DecidableEq B] (H : Host B) (E : Environment) (request : Request)
    (attempt : Attempt) (checked : Checked) (verified : Verified B) : Start B Injected Record := do
  let record := newRecord H request attempt checked verified
  writeRecord H E attempt record
  let config ← orFailure (.ofExcept (generatedConfig H.toml E.paths E.hostname verified.configText))
  stage H verified config
  watch .checkStaged
  orFailure (checkStagedNow H E record)
  return record

/-- `check_names_again`'s search for a name the check did not see. -/
def checkAppeared (E : Environment) (checked : Checked) : List Name → Except String Unit
  | [] => .ok ()
  | name :: rest => do
    let path := E.dataFile name
    let repair := if name = .temporary then repairTemporary else repairEntry
    refuseIf (!checked.files.any (·.1 == name)) s!"{path} appeared after the check; {repair}"
    checkAppeared E checked rest

def checkNamesAgain (E : Environment) (checked : Checked) : Start B String Unit := do
  checkRootEntries E true
  let names ← dataRootNames E
  .ofExcept (checkAppeared E checked names)
  .ofExcept (checkPresent E.paths.dataRoot names required)

def commit (H : Host B) (E : Environment) (record : Record) (checked : Checked) :
    Start B Stop Unit := do
  let first : Start B Injected Unit := do
    watch .firstRename
    orFailure (checkNamesAgain E checked)
    orFailure (command (.rename .dataRoot .legacy))
  first.handle (cutInPlace E 5 identityLine)
  let second : Start B Injected Unit := do
    watch .secondRename
    orFailure (command (.rename .staging .dataRoot))
  second.handle fun cut =>
    match cut with
    | .crash => .stop .crashed
    | .failure cause => do
      let record := { record with reversalPending := true }
      let marked : Start B Injected Unit := do
        watch .recordReversal
        orFailure (rewrite H E record)
      marked.handle fun cut =>
        match cut with
        | .crash => .stop .crashed
        | .failure reason => .stop (bothDirectories E s!"the commit failed ({cause}), and its reversal could not be recorded ({reason}); the next start completes it")
      reverse H E record s!"the commit failed ({cause})"

def route [DecidableEq B] (H : Host B) (E : Environment) (request : Request) (attempt : Attempt)
    (lock : Except Stop Unit) : Start B Stop Prepared := do
  (Prog.ofExcept lock).handle fun stop =>
    match stop with
    | .refused code line => inPlace E code line
    | .crashed => .stop .crashed
  closeDirectories E
  match attempt with
  | .interrupted => deleteInterruptedStaging E
  | _ => pure ()
  let checked ← checkWhatIsThere E attempt
  let verified ← readEachFile H E request attempt checked
  restrictFiles E checked
  let record ← (recordAndStage H E request attempt checked verified).handle
    (cutInPlace E 5 identityLine)
  commit H E record checked
  checkDataDirectories E false
  return .committed

/-- A data root alone, or none of the three, without a console layout. -/
def plain (H : Host B) (E : Environment) (request : Option Request) : Start B Stop Prepared :=
  if request.isSome then
    .stop (.refused 2 (invalidArguments
      "this host is neither a console layout nor a migration in progress"))
  else do
    checkDataDirectories E false
    let _ ← dataRootRecord H E
    return .plain

/-- A data root that is not a console layout, beside a legacy directory. -/
def committed (H : Host B) (E : Environment) (request : Option Request) : Start B Stop Prepared := do
  checkDataDirectories E false
  match ← dataRootRecord H E with
  | none => .stop (otherCombination E)
  | some record =>
    .ofExcept (checkRecorded request record)
    return .committed

/-- A staging directory beside a console layout: an interruption before the first rename or after
a reversal, or, without a record, the service's own creation interrupted. -/
def besideAConsoleLayout [DecidableEq B] (H : Host B) (E : Environment) (request : Option Request)
    (lock : Except Stop Unit) : Start B Stop Prepared := do
  let staging := E.paths.staging
  let record ← (stagedRecord H E).handle fun reason => inPlace E 5 (identityLine
    s!"{reason}; if it stays so, an administrator who has checked it removes the staging directory and starts the migration again")
  match record, request with
  | some record, some request =>
    if record.asksFor request then route H E request (.continued record) lock
    else inPlace E 2 (invalidArguments notTheRecorded)
  | none, some request => route H E request .interrupted lock
  | some _, none => inPlace E 5 (identityLine
    s!"a migration was interrupted, its staging directory at {staging}: start the service again with the arguments it recorded")
  | none, none => inPlace E 5 (identityLine
    s!"the service's creation of {staging} was interrupted: start the migration again")

/-- No data root, a staging and a legacy directory: a crash between the renames, or a reversal to
finish. -/
def betweenTheRenames [DecidableEq B] (H : Host B) (E : Environment) (request : Option Request)
    (lock : Except Stop Unit) : Start B Stop Prepared := do
  let record ← (stagedRecord H E).handle fun reason => .stop (bothDirectories E reason)
  match record with
  | none => .stop (bothDirectories E "its record cannot be read")
  | some record =>
    .ofExcept (checkRecorded request record)
    .ofExcept lock
    if record.reversalPending then reverse H E record "a reversal was interrupted"
    else do
      let completed : Start B Injected Unit := do
        orFailure (checkStagedNow H E record)
        watch .completeCommit
        orFailure (command (.rename .staging .dataRoot))
      completed.handle fun cut =>
        match cut with
        | .crash => .stop .crashed
        | .failure reason => .stop (bothDirectories E reason)
      checkDataDirectories E false
      return .committed

def isConsole (d : Disk B) : Bool :=
  identityFiles.any fun name => (d.dataRoot.bind (·.child name.text)).isSome

/-- What `prepare` tells apart by which directories exist. -/
inductive Combination where
  | betweenTheRenames
  | besideAConsoleLayout
  | committed
  | consoleLayout
  | plain
  | other
deriving DecidableEq

def combination (E : Environment) (d : Disk B) : Combination :=
  match d.dataRoot.isSome, counts d.staging E.paths.staging, counts d.legacy E.paths.legacy,
    isConsole d with
  | false, true, true, _ => .betweenTheRenames
  | true, true, false, true => .besideAConsoleLayout
  | true, false, true, false => .committed
  | _, false, false, true => .consoleLayout
  | _, false, false, false => .plain
  | _, _, _, _ => .other

/-- What a start does before it reads the configuration. `lock` is what taking the instance lock
gives; it is taken before any change. -/
def prepare [DecidableEq B] (H : Host B) (E : Environment) (request : Option Request)
    (lock : Except Stop Unit) : Start B Stop Prepared := do
  let d ← disk
  match combination E d with
  | .betweenTheRenames => betweenTheRenames H E request lock
  | .besideAConsoleLayout => besideAConsoleLayout H E request lock
  | .committed => committed H E request
  | .consoleLayout =>
    match request with
    | some request => route H E request .fresh lock
    | none =>
      checkDataDirectories E true
      return .consoleLayout
  | .plain => plain H E request
  | .other => .stop (otherCombination E)

end CyberGuard.Service
