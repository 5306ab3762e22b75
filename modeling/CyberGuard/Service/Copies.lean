import CyberGuard.Service.Migration

/-!
# The copies of the console installation

`copies`, a pass over the legacy directory after a start: each copy the migration checked
is restricted and, where the record says so, removed. Others may change what is in the
directory between any two handles of a pass. `log` records what a pass did, with the
object it was done to as it was then.
-/

namespace CyberGuard.Service.Copies
set_option autoImplicit false
open Checks CrashLogic

variable {B : Type}

inductive Event (B : Type) where
  | listed (names : List String)
  | directorySecured
  | secured (name : String) (node : Node B)
  | deleted (name : String) (node : Node B)
  | directoryDeleted (node : Node B)

structure State (B : Type) where
  dataRoot : Option (Node B)
  legacy : Option (Node B)
  log : List (Event B) := []

inductive Point where
  | restrictLegacyDirectory
  | copy (name : Name)
  | removeLegacyDirectory
  | rewriteRecord

inductive Command (B : Type) where
  | secureDirectory (security : Descriptor)
  | secureCopy (name : String) (security : Descriptor)
  | deleteCopy (name : String)
  | deleteDirectory
  | deleteTemporary
  | createTemporary (security : Descriptor) (bytes : B)
  | moveTemporary

inductive Op (B : Type) where
  | watch (point : Point)
  | openFile (path : String)
  | list (path : String)
  /-- `entries(..).is_empty()`. -/
  | isEmpty (path : String)
  | command (c : Command B)

def Op.Answer : Op B → Type
  | .watch _ => Except Injected Unit
  | .openFile _ => Except String Unit
  | .list _ => Except String (List String)
  | .isEmpty _ => Except String Bool
  | .command _ => Except String Unit

def foldName (directory : Node B) (name : String) : List Char :=
  if directory.content.caseSensitive then name.toList else asciiLowercase name

def State.copy (s : State B) (name : String) : Option (Node B) :=
  s.legacy.bind fun directory =>
    Entries.lookup (foldName directory) directory.content.entries name

def State.record (s : State B) (name : String) : Option (Node B) :=
  s.dataRoot.bind (·.child name)

def withEntries (directory : Node B) (entries : Listing B) : Node B :=
  { directory with content := .directory directory.content.caseSensitive entries }

def State.names (s : State B) : Option (List String) :=
  s.legacy.bind fun directory =>
    if directory.content.isDirectory then some (directory.content.entries.map (·.1)) else none

/-- What a command does where it succeeds; `none` where the directories refuse it. -/
def State.perform (s : State B) : Command B → Option (State B)
  | .secureDirectory security => s.legacy.map fun directory =>
      { s with legacy := some { directory with security }, log := s.log ++ [.directorySecured] }
  | .secureCopy name security => do
    let directory ← s.legacy
    let node ← s.copy name
    let entries := Entries.adjust (foldName directory) directory.content.entries name
      ({ · with security })
    return { s with
      legacy := some (withEntries directory entries)
      log := s.log ++ [.secured name node] }
  | .deleteCopy name => do
    let directory ← s.legacy
    let node ← s.copy name
    let entries := Entries.erase (foldName directory) directory.content.entries name
    return { s with
      legacy := some (withEntries directory entries)
      log := s.log ++ [.deleted name node] }
  | .deleteDirectory => do
    let directory ← s.legacy
    -- Windows deletes no directory that has entries
    if directory.content.entries.isEmpty then
      return { s with legacy := none, log := s.log ++ [.directoryDeleted directory] }
    else none
  | .deleteTemporary => do
    let _ ← s.record recordTemporary
    let dataRoot ← (Disk.changeEntries s.dataRoot fun entries =>
      .ok (Entries.erase asciiLowercase entries recordTemporary)).toOption
    return { s with dataRoot := some dataRoot }
  | .createTemporary security bytes => do
    let dataRoot ← (Disk.changeEntries s.dataRoot
      (Disk.create recordTemporary (newFile security bytes))).toOption
    return { s with dataRoot := some dataRoot }
  | .moveTemporary => do
    let node ← s.record recordTemporary
    let dataRoot ← (Disk.changeEntries s.dataRoot fun entries =>
      .ok (Entries.put asciiLowercase (Entries.erase asciiLowercase entries recordTemporary)
        recordName node)).toOption
    return { s with dataRoot := some dataRoot }

inductive Touched (s : State B) : State B → Prop where
  | same : Touched s s
  | changed {directory : Node B} (entries : Listing B) : s.legacy = some directory →
      Touched s { s with legacy := some (withEntries directory entries) }

/-- A creation that is cut, or fails, may leave any contents. -/
inductive Torn (s : State B) : Command B → State B → Prop where
  | createTemporary {t : State B} {security : Descriptor} {bytes : B} (torn : B) :
      s.perform (.createTemporary security torn) = some t →
      Torn s (.createTemporary security bytes) t

inductive Answers : (o : Op B) → State B → o.Answer → State B → Prop where
  | watch {s : State B} {point : Point} (answer : Except Injected Unit) :
      Answers (.watch point) s answer s
  | opened {s t : State B} {path : String} (answer : Except String Unit) : Touched s t →
      Answers (.openFile path) s answer t
  | listed {s t : State B} {path : String} {names : List String} : Touched s t →
      t.names = some names →
      Answers (.list path) s (.ok names) { t with log := t.log ++ [.listed names] }
  | notListed {s t : State B} {path : String} (reason : String) : Touched s t →
      Answers (.list path) s (.error reason) t
  | probed {s t : State B} {path : String} {names : List String} : Touched s t →
      t.names = some names → Answers (.isEmpty path) s (.ok names.isEmpty) t
  | notProbed {s t : State B} {path : String} (reason : String) : Touched s t →
      Answers (.isEmpty path) s (.error reason) t
  | done {s t : State B} {c : Command B} : s.perform c = some t → Answers (.command c) s (.ok ()) t
  | failed {s : State B} {c : Command B} (reason : String) :
      Answers (.command c) s (.error reason) s
  | torn {s t : State B} {c : Command B} (reason : String) : Torn s c t →
      Answers (.command c) s (.error reason) t

inductive Partly : Op B → State B → State B → Prop where
  | torn {s t : State B} {c : Command B} : Torn s c t → Partly (.command c) s t

def device : Device (State B) (Op B) Op.Answer where
  answers := Answers
  partly := Partly

abbrev Pass (B ε α : Type) := Prog (State B) (Op B) Op.Answer ε α

def watch (point : Point) : Pass B Injected Unit := .act (.watch point) .ofExcept

def openFile (path : String) : Pass B String Unit := .act (.openFile path) .ofExcept

def command (c : Command B) : Pass B String Unit := .act (.command c) .ofExcept

/-- `?` from an operation's reason. -/
def orFailure {α : Type} (p : Pass B String α) : Pass B Injected α :=
  p.handle fun reason => .stop (.failure reason)

structure Report where
  restricted : List String := []
  removed : List String := []
  notReached : List String := []
  directoryRemoved : Bool := false

section Parts
variable (H : Host B) (E : Environment)

def dataRootRecord : Pass B String Record := do
  let unreadable := "the record cannot be read"
  (openFile E.paths.record).handle fun _ => .stop unreadable
  let bytes ← Prog.look fun s => .ofExcept ((readChecked (s.record recordName) E.paths.record
    MigrationCustody.configuration).mapError fun _ => unreadable)
  let bytes ← Prog.ofExcept (okOr bytes "the data root holds no record")
  Prog.ofExcept (okOr (H.parseRecord bytes) unreadable)

def counts : Pass B String Bool :=
  ((do
    openFile E.paths.legacy
    Prog.look fun s => .ofExcept (checkIfExists s.legacy E.paths.legacy .directory
      MigrationCustody.configuration)) : Pass B String Bool).handle fun _ => .ret false

def opened (path : String) (found : State B → Option (Node B)) : Pass B String (Node B) := do
  openFile path
  Prog.look fun s => .ofExcept (okOr (found s) (path ++ " does not exist"))

def restrictLegacyDirectory : Pass B Injected Unit := do
  watch .restrictLegacyDirectory
  orFailure do
    let node ← opened E.paths.legacy (·.legacy)
    Prog.ofExcept (node.checkShape E.paths.legacy .directory)
    command (.secureDirectory MigrationCustody.identityDirectory)

/-- What an object must be to be touched: a regular file with one link, with the file ID the record
holds for its name. -/
def checkCopy (node : Node B) (path name : String) (record : Record) : Except String Unit := do
  refuseIf (node.reparsePoint || node.content.isDirectory) (path ++ " is not a regular file")
  let expected := (knownName name).bind fun known => record.files.lookup known.text
  refuseIf (expected != some node.id.text) (path ++ " is not the file the migration checked")
  refuseIf (node.links != 1) (path ++ " is hard-linked")

def copyPath (name : String) : String := join E.paths.legacy name

def restrictCopy (name : String) (record : Record) : Pass B Injected Unit := do
  let path := copyPath E name
  let known ← Prog.ofExcept (okOr (knownName name)
    (Injected.failure (path ++ " is not an object the migration checked")))
  watch (.copy known)
  orFailure do
    let node ← opened path (·.copy name)
    Prog.ofExcept (checkCopy node path name record)
    let security := if identityFiles.contains known then MigrationCustody.identityFile
      else MigrationCustody.sharedFile
    command (.secureCopy name security)

def removeCopy (name : String) (record : Record) : Pass B String Unit := do
  let path := copyPath E name
  let node ← opened path (·.copy name)
  Prog.ofExcept (checkCopy node path name record)
  command (.deleteCopy name)

def removeLegacyDirectory : Pass B Injected Unit := do
  watch .removeLegacyDirectory
  orFailure do
    let node ← opened E.paths.legacy (·.legacy)
    Prog.ofExcept (node.checkShape E.paths.legacy .directory)
    command .deleteDirectory

/-- `replace_keeping_security` of the record. -/
def rewrite (record : Record) : Pass B String Unit := do
  let path := E.paths.record
  let node ← opened path (·.record recordName)
  Prog.ofExcept (node.checkShape path .file)
  Prog.ofExcept (node.security.check path MigrationCustody.configuration)
  Prog.look fun s =>
    if (s.record recordTemporary).isSome then command .deleteTemporary else .ret ()
  ((do
    command (.createTemporary node.security (H.printRecord record))
    command .moveTemporary) : Pass B String Unit).handle fun reason => do
      (command .deleteTemporary).handle fun _ => .ret ()
      Prog.stop reason

def cutShort : String := "the pass was cut short"

/-- A step that fails gives another value; one that is cut ends the pass. -/
def attempt {α : Type} (p : Pass B Injected Unit) (done failed : α) : Pass B String α :=
  (p >>= fun _ => Prog.ret done).handle fun cut =>
    match cut with
    | .crash => .stop cutShort
    | .failure _ => .ret failed

def Report.missed (report : Report) (name : String) : Report :=
  { report with notReached := report.notReached ++ [name] }

def legacyName : String := "agent.legacy"

/-- A copy that was restricted is removed; a failure leaves it not reached. -/
def removeRestricted (record : Record) (name : String) (report : Report) : Pass B String Report :=
  (removeCopy E name record >>= fun _ =>
    Prog.ret { report with removed := report.removed ++ [name] }).handle fun _ =>
      .ret (report.missed name)

def copyOne (record : Record) (name : String) (report : Report) : Pass B String Report := do
  let restricted ← attempt (restrictCopy E name record) true false
  if !restricted then return report.missed name
  else
    let report := { report with restricted := report.restricted ++ [name] }
    if record.choice != .remove then return report
    else removeRestricted E record name report

def copyEach (record : Record) : List String → Report → Pass B String Report
  | [], report => .ret report
  | name :: rest, report => do
    let report ← copyOne E record name report
    copyEach record rest report

def finishDirectory (record : Record) (restricted : Bool) (report : Report) :
    Pass B String Report :=
  if restricted && record.choice == .remove then do
    let empty ← Prog.act (.isEmpty E.paths.legacy) .ofExcept
    if !empty then return report
    else
      let gone := { report with directoryRemoved := true }
      attempt (removeLegacyDirectory E) gone (report.missed legacyName)
  else return report

/-- The names that were not reached go into the record; a failure of that is only logged. -/
def recordReport (record : Record) (report : Report) : Pass B String Unit :=
  if record.copiesNotReached = report.notReached then .ret ()
  else ((do
    watch .rewriteRecord
    orFailure (rewrite H E { record with copiesNotReached := report.notReached })) :
      Pass B Injected Unit).handle fun _ => .ret ()

def copies : Pass B String Report := do
  let record ← dataRootRecord H E
  if !(← counts E) then return {}
  else
    let restricted ← attempt (restrictLegacyDirectory E) true false
    let report : Report := if restricted then {} else Report.missed {} legacyName
    let names ← Prog.act (.list E.paths.legacy) .ofExcept
    let report ← copyEach E record (names.insertionSort (· ≤ ·)) report
    let report ← finishDirectory E record restricted report
    recordReport H E record report
    return report

end Parts

end CyberGuard.Service.Copies
