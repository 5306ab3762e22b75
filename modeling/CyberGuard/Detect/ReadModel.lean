import Mathlib.Data.Prod.Lex
import Mathlib.Data.String.Basic
import CyberGuard.Shared.OrderedRead
import CyberGuard.Shared.ReplacingTable
import CyberGuard.Ingest.HeartbeatRoute
import CyberGuard.Detect.Engine

/-!
# The read-model

The forward read of `cges_events` by the arrival cursor, and the resolution of
each child's parent image. The forward read is without `FINAL`; the two reads for
the parents are with it. Times are the texts ClickHouse prints for a
`DateTime64(9)`, which it and the service order alike.
-/

namespace CyberGuard.Detect
set_option autoImplicit false
open CyberGuard.Ingest CyberGuard.Ingest.Heartbeat OrderedRead ReplacingTable

def parentLookbackSeconds : Nat := 86400

def settleMarginMs : Nat := 5000

/-- What one cycle is given: the org, the rules the driver loaded at its start, and the tests'
own settle margin. -/
structure DetectConfig where
  orgId : String
  rules : List SigmaRule
  settleMarginMs : Option Nat

def DetectConfig.settle (c : DetectConfig) : Int := c.settleMarginMs.getD Detect.settleMarginMs

/-- `arrivedAt` in milliseconds since 1970. -/
structure DetectCursor where
  arrivedAt : Int
  eventId : String
  deriving DecidableEq, Repr

def cursorStart : DetectCursor := ⟨0, "00000000-0000-0000-0000-000000000000"⟩

section ForwardRead
variable (H : Host) (c : DetectConfig)

def DetectCursor.place (cursor : DetectCursor) : Int ×ₗ Nat :=
  toLex (cursor.arrivedAt, H.uuidRank cursor.eventId)

def rowCursor (stored : StoredRow) : DetectCursor := ⟨stored.arrivedAt, stored.row.eventId⟩

def rowPlace (stored : StoredRow) : Int ×ₗ Nat := (rowCursor stored).place H

def Observed (stored : StoredRow) : Prop :=
  stored.row.orgId = c.orgId ∧ stored.row.classUid = 1007

instance (stored : StoredRow) : Decidable (Observed c stored) :=
  inferInstanceAs (Decidable (_ ∧ _))

/-- The `WHERE` of the forward read, at a time `now` of ClickHouse's clock. -/
def Forward (now : Int) (cursor : DetectCursor) (stored : StoredRow) : Prop :=
  Observed c stored ∧ cursor.arrivedAt ≤ stored.arrivedAt ∧
    cursor.place H < rowPlace H stored ∧ stored.arrivedAt ≤ now - c.settle

instance (now : Int) (cursor : DetectCursor) (stored : StoredRow) :
    Decidable (Forward H c now cursor stored) :=
  inferInstanceAs (Decidable (_ ∧ _ ∧ _ ∧ _))

def ChildrenRead (now : Int) (rows : List StoredRow) (cursor : DetectCursor) (limit : Nat)
    (children : List StoredRow) : Prop :=
  Answers (rowPlace H) (rows.filter fun stored => Forward H c now cursor stored) limit children

variable {H c}

theorem arrivedAt_le_of_place_le {a b : DetectCursor} (h : a.place H ≤ b.place H) :
    a.arrivedAt ≤ b.arrivedAt := by
  rcases (Prod.Lex.toLex_le_toLex).mp h with hlt | ⟨heq, _⟩
  · exact Int.le_of_lt hlt
  · exact Int.le_of_eq heq

theorem place_lt_of_arrivedAt_lt {a b : DetectCursor} (h : a.arrivedAt < b.arrivedAt) :
    a.place H < b.place H :=
  (Prod.Lex.toLex_lt_toLex).mpr (Or.inl h)

end ForwardRead

structure LaunchRow where
  agentId : String
  processPid : Nat
  processUid : String
  imageFileName : String
  eventTime : String
  deriving DecidableEq, Repr

structure TerminateRow where
  agentId : String
  processUid : String
  eventTime : String
  deriving DecidableEq, Repr

def launchRow (stored : StoredRow) : LaunchRow :=
  ⟨stored.row.agentId, stored.row.processPid, stored.row.processUid, stored.row.imageFileName,
    stored.row.time⟩

def terminateRow (stored : StoredRow) : TerminateRow :=
  ⟨stored.row.agentId, stored.row.processUid, stored.row.time⟩

def processKey (agentId : String) (pid : Nat) : String := agentId ++ ":" ++ toString pid

def uidKey (agentId uid : String) : String := agentId ++ "/" ++ uid

/-- `none` where `toISOString` throws. -/
def minusSeconds (time : String) (seconds : Nat) : Option String := do
  let ms ← dateParse (slice time 0 10 ++ "T" ++ slice time 11 19 ++ "Z")
  let iso ← toISOString (ms - seconds * 1000)
  some (slice iso 0 10 ++ " " ++ slice iso 11 19 ++ String.ofList (time.toList.drop 19))

example : minusSeconds "2026-05-28 19:47:10.000000100" parentLookbackSeconds =
    some "2026-05-27 19:47:10.000000100" := by
  decide +kernel

/-- The children of a batch that name a parent, with the times the two reads span. -/
structure Span where
  agentIds : List String
  parentPids : List Nat
  oldestChild : String
  newestChild : String
  deriving DecidableEq, Repr

/-- `none` when no child names a parent: no read is made. -/
def spanOf (children : List StoredRow) : Option Span :=
  match children.filter fun stored => stored.row.processParentPid.isSome with
  | [] => none
  | first :: rest =>
    some
      { agentIds := ((first :: rest).map (·.row.agentId)).eraseDups
        parentPids := ((first :: rest).filterMap (·.row.processParentPid)).eraseDups
        oldestChild := (rest.map (·.row.time)).foldl (fun a b => if a < b then a else b) first.row.time
        newestChild := (rest.map (·.row.time)).foldl (fun a b => if b < a then a else b) first.row.time }

section Parents
variable (c : DetectConfig)

/-- The process rows of one activity that a read for the parents sees inside the span. -/
def inSpan (rows : List StoredRow) (span : Span) (earliest : String) (activityId : Nat) :
    List StoredRow :=
  (final StoredRow.key StoredRow.arrivedAt rows).filter fun stored =>
    Observed c stored ∧ stored.row.activityId = activityId ∧ stored.row.agentId ∈ span.agentIds ∧
      earliest ≤ stored.row.time ∧ stored.row.time ≤ span.newestChild

def LaunchesRead (rows : List StoredRow) (span : Span) (launches : List LaunchRow) : Prop :=
  ∃ earliest, minusSeconds span.oldestChild parentLookbackSeconds = some earliest ∧
    Ordered LaunchRow.eventTime
      (((inSpan c rows span earliest 1).filter fun stored =>
        stored.row.processPid ∈ span.parentPids).map launchRow) launches

def candidateUids (launches : List LaunchRow) : List String :=
  ((launches.map (·.processUid)).filter fun uid => uid ≠ "").eraseDups

/-- `terminates` is an answer to the read of the candidates' ends; it has no order. -/
def TerminatesRead (rows : List StoredRow) (span : Span) (launches : List LaunchRow)
    (terminates : List TerminateRow) : Prop :=
  ∃ earliest, minusSeconds span.oldestChild parentLookbackSeconds = some earliest ∧
    terminates.Perm
      (((inSpan c rows span earliest 2).filter fun stored =>
        stored.row.processUid ∈ candidateUids launches).map terminateRow)

end Parents

def firstTerminate (terminates : List TerminateRow) (key : String) : Option String :=
  terminates.foldl
    (fun seen t =>
      if uidKey t.agentId t.processUid = key then
        match seen with
        | none => some t.eventTime
        | some earlier => if t.eventTime < earlier then some t.eventTime else some earlier
      else seen)
    none

/-- A child's parent image; the outer `none` where a time does not parse. -/
def parentImage (launches : List LaunchRow) (terminates : List TerminateRow)
    (child : StoredRow) : Option (Option String) :=
  match child.row.processParentPid with
  | none => some none
  | some parentPid =>
    let candidates := launches.filter fun l =>
      processKey l.agentId l.processPid = processKey child.row.agentId parentPid
    match candidates.reverse.find? fun l => l.eventTime ≤ child.row.time with
    | none => some none
    | some parent => do
      let earliest ← minusSeconds child.row.time parentLookbackSeconds
      if parent.eventTime < earliest then some none
      else
        match firstTerminate terminates (uidKey parent.agentId parent.processUid) with
        | some terminated =>
          if parent.processUid ≠ "" ∧ terminated < child.row.time then some none
          else some (some parent.imageFileName)
        | none => some (some parent.imageFileName)

def resolveParents (launches : List LaunchRow) (terminates : List TerminateRow)
    (children : List StoredRow) : Option (List (Option String)) :=
  children.mapM (parentImage launches terminates)

theorem length_resolveParents {launches : List LaunchRow} {terminates : List TerminateRow}
    {children : List StoredRow} {images : List (Option String)}
    (h : resolveParents launches terminates children = some images) :
    images.length = children.length := by
  induction children generalizing images with
  | nil =>
    obtain rfl := Option.some.inj h
    rfl
  | cons child rest ih =>
    rw [resolveParents, List.mapM_cons] at h
    obtain ⟨image, _, hrest⟩ := Option.bind_eq_some_iff.mp h
    obtain ⟨others, hothers, himages⟩ := Option.bind_eq_some_iff.mp hrest
    obtain rfl := Option.some.inj himages
    rw [List.length_cons, List.length_cons, ih hothers]

def normalize (child : StoredRow) (parentImage : Option String) : NormalizedProcessEvent where
  eventId := child.row.eventId
  agentId := child.row.agentId
  activityId := child.row.activityId
  pid := child.row.processPid
  uid := child.row.processUid
  processName := child.row.processName
  imageFileName := child.row.imageFileName
  parentPid := child.row.processParentPid
  parentImage := parentImage
  time := child.row.time

end CyberGuard.Detect
