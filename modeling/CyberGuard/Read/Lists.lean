import CyberGuard.Detect.Alerts
import CyberGuard.Read.Cursors
import CyberGuard.Shared.KeysetPaging
import Mathlib.Data.Prod.Lex
import Mathlib.Data.String.Basic

/-!
# The lists of incidents and alerts

`listIncidents` and `listAlerts` over the rows of their tables. Both check their
parameters, read one row more than the limit under the cursor, and issue the next cursor
from the last row they return. A time is in microseconds in the table; the driver hands
it on as a `Date`, cut to the millisecond.

Postgres orders `uuid`s by their bytes, as their canonical texts are ordered.
-/

namespace CyberGuard.Read
set_option autoImplicit false
open Checks KeysetPaging CyberGuard.Ingest CyberGuard.Detect

def maxLimit : Nat := 200

def defaultLimit : Nat := 50

/-- `Number` of a parameter; `NaN` where it is not given. -/
def numberOf (R : Runtime) (raw : Option String) : JsNumber :=
  match raw with
  | none => .nan
  | some text => R.number text

def clampLimit (R : Runtime) (raw : Option String) : Nat :=
  match numberOf R raw with
  | .finite n => if 0 < n then min n.floor.toNat maxLimit else defaultLimit
  | _ => defaultLimit

/-- A `status` of the query: a repeated one arrives as an array. -/
inductive StatusParam where
  | one (text : String)
  | repeated (texts : List String)
  deriving DecidableEq, Repr

structure ListParams where
  status : Option StatusParam := none
  agentId : Option String := none
  severityId : Option String := none
  limit : Option String := none
  cursor : Option String := none
  deriving DecidableEq, Repr

def given (param : Option String) : Option String := param.filter (· ≠ "")

/-- A `severity_id`, where it is a whole number from 0 to 6. -/
def severityOf : JsNumber → Option Nat
  | .finite n => if n.den = 1 ∧ 0 ≤ n ∧ n ≤ 6 then some n.num.toNat else none
  | _ => none

def StatusParam.texts : StatusParam → List String
  | .one text => [text]
  | .repeated texts => texts

def checkListParams (R : Runtime) (p : ListParams) : Except ReadError Unit := do
  refuseIf ((given p.agentId).any fun text => !isUuid text) (.badRequest "malformed agent_id")
  refuseIf ((given p.severityId).any fun text => (severityOf (R.number text)).isNone)
    (.badRequest "malformed severity_id")
  refuseIf (p.status.any fun status => status.texts.any fun text => text.toList.any (· == '\x00'))
    (.badRequest "malformed status")

/-- `status = $n`: an array is compared as one text, which no status is. -/
def statusIs (status : String) : Option StatusParam → Bool
  | none => true
  | some (.one text) => text == "" || status == text
  | some (.repeated _) => false

/-- `agent_id = $n`, in either case of the parameter. -/
def agentIs (agentId : String) (param : Option String) : Bool :=
  (given param).all fun text => agentId.toLower == text.toLower

def severityIs (R : Runtime) (severityId : Nat) (param : Option String) : Bool :=
  (given param).all fun text => severityOf (R.number text) == some severityId

/-- What differs between the two lists: the time a row is ordered by, in microseconds, its
id, and how it is shown. -/
structure Listing (ρ ι : Type) where
  micros : ρ → Int
  id : ρ → String
  /-- `none` where a date is out of range. -/
  item : ρ → Option ι

section page
variable {ρ ι : Type} (L : Listing ρ ι)

/-- `(time, id)`, as Postgres compares it. -/
def Listing.key (row : ρ) : Int ×ₗ String := toLex (L.micros row, L.id row)

/-- The time of a row as the driver's `Date` has it. -/
def Listing.millis (row : ρ) : Int := L.micros row / 1000

def Listing.cursor (row : ρ) : Int ×ₗ String := toLex (L.millis row * 1000, L.id row)

/-- The bound of the query; the text is one `decodeCursor` took. -/
def boundOf : Option Cursor → Except ReadError (Option (Int ×ₗ String))
  | none => .ok none
  | some c => do
    let micros ← okOr (timestamptz c.t) .storeUnavailable
    return some (toLex (micros, c.id))

def Listing.answer (R : Runtime) (rows : List ρ) (limit : Nat) (cur : Option Cursor) :
    Except ReadError (Page ι String) := do
  let bound ← boundOf cur
  let found := (descending L.key (below L.key bound rows)).take (limit + 1)
  let page := found.take limit
  let items ← okOr (page.mapM L.item) .rangeError
  match if limit < found.length then page.getLast? else none with
  | none => return ⟨items, none⟩
  | some last =>
    let t ← okOr (toISOString (L.millis last)) .rangeError
    return ⟨items, some (encodeCursor R ⟨t, L.id last⟩)⟩

def cursorParam (R : Runtime) (p : ListParams) : Except ReadError (Option Cursor) :=
  match given p.cursor with
  | none => .ok none
  | some raw => (decodeCursor R raw).map some

def Listing.list (R : Runtime) (selects : ρ → Bool) (rows : List ρ) (p : ListParams) :
    Except ReadError (Page ι String) := do
  checkListParams R p
  let cur ← cursorParam R p
  L.answer R (rows.filter selects) (clampLimit R p.limit) cur

end page

/-- A row of `incidents`; `updatedAt` in microseconds. -/
structure StoredIncident extends IncidentRow where
  updatedAt : Int
  deriving DecidableEq, Repr

def incidentStatusText : IncidentStatus → String
  | .opened => "open"
  | .acknowledged => "acknowledged"
  | .investigating => "investigating"
  | .contained => "contained"
  | .resolved => "resolved"
  | .falsePositive => "false_positive"

structure IncidentListItem where
  incidentId : String
  agentId : String
  status : String
  title : String
  severityId : Nat
  cgMitre : CgMitre
  alertCount : Nat
  windowStart : String
  updatedAt : String
  deriving DecidableEq, Repr

def incidentItem (row : StoredIncident) : Option IncidentListItem := do
  let windowStart ← toISOString (row.windowStart * 1000)
  let updatedAt ← toISOString (row.updatedAt / 1000)
  some ⟨row.incidentId, row.agentId, incidentStatusText row.status, row.title, row.severityId,
    row.cgMitre, row.alertIds.length, windowStart, updatedAt⟩

def incidentListing : Listing StoredIncident IncidentListItem :=
  ⟨StoredIncident.updatedAt, fun row => row.incidentId, incidentItem⟩

def incidentMatches (orgId : String) (p : ListParams) (row : StoredIncident) : Bool :=
  row.orgId == orgId && statusIs (incidentStatusText row.status) p.status &&
    agentIs row.agentId p.agentId

def listIncidents (R : Runtime) (rows : List StoredIncident) (orgId : String) (p : ListParams) :
    Except ReadError (Page IncidentListItem String) :=
  incidentListing.list R (incidentMatches orgId p) rows p

def alertStatusText : AlertStatus → String
  | .new => "new"
  | .acknowledged => "acknowledged"
  | .resolved => "resolved"
  | .falsePositive => "false_positive"

structure AlertListItem where
  alertId : String
  title : String
  severityId : Nat
  status : String
  ruleId : String
  cgMitre : CgMitre
  eventTime : String
  finalScore : Rat
  deriving DecidableEq, Repr

def mapAlert (row : AlertRow) : Option AlertListItem := do
  let eventTime ← toISOString (row.eventTime * 1000)
  some ⟨row.alertId, row.title, row.severityId, alertStatusText row.status, row.ruleId,
    row.cgMitre, eventTime, row.finalScore⟩

def alertListing : Listing AlertRow AlertListItem :=
  ⟨fun row => row.eventTime * 1000000, AlertRow.alertId, mapAlert⟩

def alertMatches (R : Runtime) (orgId : String) (p : ListParams) (row : AlertRow) : Bool :=
  row.orgId == orgId && statusIs (alertStatusText row.status) p.status &&
    agentIs row.agentId p.agentId && severityIs R row.severityId p.severityId

def listAlerts (R : Runtime) (rows : List AlertRow) (orgId : String) (p : ListParams) :
    Except ReadError (Page AlertListItem String) :=
  alertListing.list R (alertMatches R orgId p) rows p

end CyberGuard.Read
