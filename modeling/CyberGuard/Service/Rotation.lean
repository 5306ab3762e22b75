import Mathlib.Algebra.Ring.Nat
import CyberGuard.Shared.CrashLogic
import CyberGuard.Shared.Json
import CyberGuard.Shared.PlacedFiles

/-!
# The service's rotating log

One active file and five archives. The active file is renamed first, the archives then
shift into the first free place. A rename or the removal may fail, and the process may be
restarted between any two operations; an operation is done whole or not at all. Opening
the active file and writing to it succeed, and a test of existence is exact.

`written`, `dropped` and `changes` only record what happened; no code reads them.
-/

namespace CyberGuard.Service.Rotation
set_option autoImplicit false
open CrashLogic PlacedFiles

abbrev Bytes := List UInt8

def maxFileBytes : Nat := 10 * 1024 * 1024

def archives : Nat := 5

/-- The longest record written as it is, its newline included. -/
def maxRecordBytes : Nat := 64 * 1024

def rotationRetryLimit : Nat := 60 * 10 ^ 9

def rotationRetryEvery : Nat := 10 ^ 9

inductive Place where
  | active
  | rotating
  | archive (n : Nat)
  deriving DecidableEq, Repr

def places : List Place :=
  ((List.range' 1 archives).reverse.map .archive) ++ [.rotating, .active]

abbrev Disk := Files Place Bytes

def fileSize (records : List Bytes) : Nat := (records.map fun record => record.length + 1).sum

inductive Op where
  | rename (source target : Place)
  | removeFile (place : Place)
  /-- The opener, which gives the size of the file. -/
  | openActive
  | append (line : Bytes)
  /-- `Instant::now`. -/
  | now
  /-- `Utc::now`, as text. -/
  | timestamp

def Op.Answer : Op → Type
  | .rename _ _ | .removeFile _ => Except String Unit
  | .openActive | .now => Nat
  | .append _ => Unit
  | .timestamp => String

inductive Change where
  | renamed (source target : Place) (before : Disk)
  | removed (place : Place) (before : Disk)

structure State where
  disk : Disk
  written : List Bytes
  dropped : List (List Bytes) := []
  changes : List Change := []

def State.rename (s : State) (source target : Place) : State :=
  { s with
    disk := move s.disk source target
    changes := s.changes ++ [.renamed source target s.disk] }

def State.removeFile (s : State) (place : Place) : State :=
  { s with
    disk := delete s.disk place
    dropped := s.dropped ++ [(s.disk place).getD []]
    changes := s.changes ++ [.removed place s.disk] }

def State.openActive (s : State) : State :=
  { s with disk := put s.disk .active ((s.disk .active).getD []) }

def State.append (s : State) (line : Bytes) : State :=
  { s with
    disk := put s.disk .active ((s.disk .active).getD [] ++ [line])
    written := s.written ++ [line] }

inductive Answers : (o : Op) → State → o.Answer → State → Prop where
  | renamed {source target : Place} {s : State} : (s.disk source).isSome →
      Answers (.rename source target) s (.ok ()) (s.rename source target)
  | notRenamed {source target : Place} {s : State} (e : String) :
      Answers (.rename source target) s (.error e) s
  | removed {place : Place} {s : State} : (s.disk place).isSome →
      Answers (.removeFile place) s (.ok ()) (s.removeFile place)
  | notRemoved {place : Place} {s : State} (e : String) :
      Answers (.removeFile place) s (.error e) s
  | opened {s : State} :
      Answers .openActive s (fileSize ((s.disk .active).getD [])) s.openActive
  | appended {line : Bytes} {s : State} : Answers (.append line) s () (s.append line)
  | now {s : State} (instant : Nat) : Answers .now s instant s
  | timestamp {s : State} (text : String) : Answers .timestamp s text s

def device : Device State Op Op.Answer where
  answers := Answers
  partly := fun _ _ _ => False

structure RotatingLog where
  /-- There is an open file. -/
  active : Bool
  size : Nat
  /-- The reason reported when the log failed. -/
  failed : Option String
  /-- Since when rotation has been failing, and when it was last tried. -/
  rotationFailing : Option (Nat × Nat)
  rotationRetryLimit : Nat
  /-- There is a rotation to finish. -/
  unfinished : Bool
  deriving DecidableEq, Repr

/-- A program that stops with an error leaves the log as it then is. -/
abbrev LogProg := Prog State Op Op.Answer (RotatingLog × String)

def exists? (place : Place) : LogProg Bool := .look fun s => .ret (s.disk place).isSome

def reopen (log : RotatingLog) : LogProg RotatingLog :=
  .act .openActive fun size => .ret { log with active := true, size := size }

def renameFile (log : RotatingLog) (source target : Place) : LogProg Unit :=
  .act (.rename source target) fun answer => .ofExcept (answer.mapError fun e => (log, e))

/-- The active file to `rotating`; whether or not it moved, the log writes on in the active
file. -/
def moveActive (log : RotatingLog) : LogProg RotatingLog :=
  .act (.rename .active .rotating) fun renamed => do
    let log ← reopen { log with active := false }
    let _ ← Prog.ofExcept (renamed.mapError fun e => (log, e))
    return { log with unfinished := true }

def beginRotation (log : RotatingLog) : LogProg RotatingLog := do
  if ← exists? .rotating then pure log else moveActive log

/-- The first free archive place, made by removing the oldest if all are taken. -/
def freePlace (log : RotatingLog) : LogProg Nat :=
  .look fun s =>
    match (List.range' 1 archives).find? fun n => (s.disk (.archive n)).isNone with
    | some n => .ret n
    | none =>
      .act (.removeFile (.archive archives)) fun answer =>
        .ofExcept ((answer.mapError fun e => (log, e)).map fun _ => archives)

def shiftArchives (log : RotatingLog) (free : Nat) : LogProg Unit :=
  .forEach (fun n => renameFile log (.archive n) (.archive (n + 1)))
    (List.range' 1 (free - 1)).reverse

def rotate (log : RotatingLog) : LogProg RotatingLog := do
  let log ← beginRotation log
  let free ← freePlace log
  shiftArchives log free
  renameFile log .rotating (.archive 1)
  return { log with unfinished := false }

def seconds (nanos : Nat) : Nat := nanos / 10 ^ 9

def tolerate (now : Nat) (failure : RotatingLog × String) : LogProg RotatingLog :=
  let since := (failure.1.rotationFailing.map Prod.fst).getD now
  let log := { failure.1 with rotationFailing := some (since, now) }
  if log.rotationRetryLimit ≤ now - since then
    .stop (log, "rotate: " ++ failure.2 ++ " (failing for " ++ toString (seconds (now - since)) ++
      " s)")
  else if log.active then .ret log
  else reopen log

def rotateIfDue (log : RotatingLog) (len : Nat) : LogProg RotatingLog :=
  let full := decide (0 < log.size) && decide (maxFileBytes < log.size + len)
  if !log.unfinished && !full then .ret log
  else .act .now fun (now : Nat) =>
    if log.rotationFailing.any fun failing => now - failing.2 < rotationRetryEvery then .ret log
    else ((do
      let log ← rotate log
      return { log with rotationFailing := none }) : LogProg RotatingLog).handle (tolerate now)

def append (log : RotatingLog) (line : Bytes) : LogProg Unit :=
  if log.active then .act (.append line) fun _ => .ret ()
  else .stop (log, "no active log file")

/-- One retry on a reopened file, after a newline that ends what the failed write left. -/
def appendRetrying (log : RotatingLog) (line : Bytes) : LogProg RotatingLog :=
  ((do
    append log line
    return log) : LogProg RotatingLog).handle fun first =>
      ((do
        let reopened ← reopen log
        let log ← if log.size < reopened.size then do
            append reopened []
            pure { reopened with size := reopened.size + 1 }
          else pure reopened
        append log line
        return log) : LogProg RotatingLog).handle fun second =>
          .stop (second.1, "write: " ++ first.2 ++ "; after reopening: " ++ second.2)

def RotatingLog.fail (log : RotatingLog) (reason : String) : RotatingLog :=
  { log with failed := some reason, active := false }

/-- The diagnostic that replaces a record too long to keep. -/
def oversizedRecord (timestamp : String) (len : Nat) : Json Nat :=
  .object [("timestamp", .string timestamp), ("level", .string "WARN"),
    ("fields", .object [
      ("message", .string "a log record was replaced: it exceeded the bound of one record"),
      ("record_bytes", .number len), ("bound_bytes", .number maxRecordBytes)]),
    ("target", .string "cg_agent::service::rotation")]

section Records
-- `to_string` of `serde_json`
variable (render : Json Nat → Bytes)

def boundedRecord (record : Bytes) : LogProg Bytes :=
  if maxRecordBytes < record.length + 1 then
    .act .timestamp fun timestamp => .ret (render (oversizedRecord timestamp record.length))
  else .ret record

def writeRecord (log : RotatingLog) (record : Bytes) : LogProg RotatingLog :=
  if log.failed.isSome then .ret log
  else do
    let line ← boundedRecord render record
    ((do
      let log ← rotateIfDue log (line.length + 1)
      let log ← appendRetrying log line
      return { log with size := log.size + (line.length + 1) }) : LogProg RotatingLog).handle
        fun failure => .ret (failure.1.fail failure.2)

def openLog : LogProg RotatingLog := do
  let unfinished ← exists? .rotating
  let log ← reopen ⟨false, 0, none, none, rotationRetryLimit, unfinished⟩
  if maxFileBytes ≤ log.size || log.unfinished then rotate log else pure log

def writeRecords (log : RotatingLog) : List Bytes → LogProg RotatingLog
  | [] => .ret log
  | record :: rest => do
    let log ← writeRecord render log record
    writeRecords log rest

def life (records : List Bytes) : LogProg RotatingLog := do
  let log ← openLog
  writeRecords render log records

end Records

end CyberGuard.Service.Rotation
