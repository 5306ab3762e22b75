import CyberGuard.Wire

/-!
# Rows of `cges_events`

The row the heartbeat route writes for one element of `body.events`, with the
columns the class does not set at their defaults of the table, and the text form
of a `DateTime64(9)` value. `time` and `process.created_time` are decimal
nanoseconds since the epoch; the schema admits nothing else.
-/

namespace CyberGuard.Ingest
set_option autoImplicit false
open CyberGuard.Wire

/-- Year, month and day of a day counted from 1970-01-01, in the proleptic Gregorian
calendar; years are counted from March, so that the leap day ends one. -/
def civilFromDays (days : Int) : Int × Int × Int :=
  let z := days + 719468
  let era := z / 146097
  let doe := z % 146097
  let yoe := (doe - doe / 1460 + doe / 36524 - doe / 146096) / 365
  let doy := doe - (365 * yoe + yoe / 4 - yoe / 100)
  let mp := (5 * doy + 2) / 153
  let month := if mp < 10 then mp + 3 else mp - 9
  (yoe + era * 400 + (if month ≤ 2 then 1 else 0), month, doy - (153 * mp + 2) / 5 + 1)

def padStart (width : Nat) (n : Nat) : String :=
  let digits := toString n
  String.ofList (List.replicate (width - digits.length) '0') ++ digits

/-- `Date.prototype.toISOString`: it throws outside the range of `Date`. -/
def toISOString (millis : Int) : Option String :=
  if millis.natAbs ≤ 8640000000000000 then
    let (year, month, day) := civilFromDays (millis / 86400000)
    let inDay := (millis % 86400000).toNat
    let yearText :=
      if 0 ≤ year ∧ year ≤ 9999 then padStart 4 year.toNat
      else (if year < 0 then "-" else "+") ++ padStart 6 year.natAbs
    some (yearText ++ "-" ++ padStart 2 month.toNat ++ "-" ++ padStart 2 day.toNat ++ "T" ++
      padStart 2 (inDay / 3600000) ++ ":" ++ padStart 2 (inDay / 60000 % 60) ++ ":" ++
      padStart 2 (inDay / 1000 % 60) ++ "." ++ padStart 3 (inDay % 1000) ++ "Z")
  else none

/-- `BigInt` of a text of decimal digits; it throws on any other text the schema could name. -/
def bigInt (text : String) : Option Nat :=
  if text.toList.all Char.isDigit then
    some (text.toList.foldl (fun n c => 10 * n + (c.toNat - 48)) 0)
  else none

def slice (text : String) (start stop : Nat) : String :=
  String.ofList ((text.toList.take stop).drop start)

def stringNanosToChDateTime (nanos : String) : Option String := do
  let bn ← bigInt nanos
  let isoMs ← toISOString (bn / 1000000 : Nat)
  some (slice isoMs 0 10 ++ " " ++ slice isoMs 11 19 ++ "." ++ padStart 9 (bn % 1000000000))

example : stringNanosToChDateTime "1779997630000000100" = some "2026-05-28 19:47:10.000000100" := by
  decide +kernel

/-- The day of a date, counted from 1970-01-01: `civilFromDays` the other way. -/
def daysFromCivil (year month day : Int) : Int :=
  let y := if month ≤ 2 then year - 1 else year
  let era := y / 400
  let yoe := y - era * 400
  let mp := if month ≤ 2 then month + 9 else month - 3
  let doy := (153 * mp + 2) / 5 + day - 1
  era * 146097 + (yoe * 365 + yoe / 4 - yoe / 100 + doy) - 719468

/-- `Date.parse` of a text `YYYY-MM-DDTHH:MM:SSZ`, with `none` for `NaN`. The hour 24, which it
reads as the next midnight, is left out: it parses printed times, and none has it. -/
def dateParse (text : String) : Option Int := do
  guard (text.length = 20 ∧ slice text 4 5 = "-" ∧ slice text 7 8 = "-" ∧ slice text 10 11 = "T" ∧
    slice text 13 14 = ":" ∧ slice text 16 17 = ":" ∧ slice text 19 20 = "Z")
  let year ← bigInt (slice text 0 4)
  let month ← bigInt (slice text 5 7)
  let day ← bigInt (slice text 8 10)
  let hour ← bigInt (slice text 11 13)
  let minute ← bigInt (slice text 14 16)
  let second ← bigInt (slice text 17 19)
  guard (1 ≤ month ∧ month ≤ 12 ∧ 1 ≤ day ∧ day ≤ 31 ∧ hour ≤ 23 ∧ minute ≤ 59 ∧ second ≤ 59)
  some (1000 * (86400 * daysFromCivil year month day + 3600 * hour + 60 * minute + second))

example : dateParse "2026-05-28T19:47:10Z" = some 1779997630000 := by decide +kernel

structure CgesEventRow where
  agentId : String
  orgId : String
  eventId : String
  classUid : Nat
  activityId : Nat
  processPid : Nat
  processUid : String
  processName : String
  processCreatedTime : Option String := none
  processExitCode : Option Int := none
  processParentPid : Option Nat := none
  processCommandLine : String := ""
  subjectUserSid : String := ""
  imageFileName : String := ""
  srcIp : String := ""
  srcPort : Nat := 0
  dstIp : String := ""
  dstPort : Nat := 0
  netProtocol : String := ""
  netDirection : String := ""
  userUid : String := ""
  userName : String := ""
  userDomain : String := ""
  logonTypeId : Nat := 0
  statusId : Nat := 0
  statusCode : String := ""
  statusDetail : String := ""
  authProtocol : String := ""
  authProtocolId : Nat := 0
  srcHostname : String := ""
  elevatedToken : Option Bool := none
  time : String
  deriving DecidableEq, Repr

def authenticationRow (agentId : String) (e : CgesAuthentication) (time : String) :
    CgesEventRow where
  agentId := agentId
  orgId := "default"
  eventId := e.eventId
  classUid := 3002
  activityId := 1
  processPid := 0
  processUid := ""
  processName := ""
  srcIp := (e.srcEndpoint.map (·.ip)).getD ""
  userUid := e.user.uid
  userName := e.user.name
  userDomain := e.user.domain
  logonTypeId := e.logonTypeId
  statusId := e.statusId
  statusCode := if e.statusId = 2 then e.statusCode.getD "" else ""
  statusDetail := if e.statusId = 2 then e.statusDetail.getD "" else ""
  authProtocol := e.authProtocol
  authProtocolId := e.authProtocolId
  srcHostname := (e.srcEndpoint.bind (·.hostname)).getD ""
  elevatedToken := if e.statusId = 1 then e.cgElevatedToken else none
  time := time

def networkRow (agentId : String) (e : CgesNetworkActivity) (time : String) : CgesEventRow where
  agentId := agentId
  orgId := "default"
  eventId := e.eventId
  classUid := 4001
  activityId := 1
  processPid := e.actorPid
  processUid := e.actorUid.getD ""
  processName := ""
  srcIp := e.srcEndpoint.ip
  srcPort := e.srcEndpoint.port
  dstIp := e.dstEndpoint.ip
  dstPort := e.dstEndpoint.port
  netProtocol := e.protocolName
  netDirection := e.direction.text
  time := time

def processRow (agentId : String) (e : CgesProcessActivity) (createdTime : Option String)
    (time : String) : CgesEventRow where
  agentId := agentId
  orgId := "default"
  eventId := e.eventId
  classUid := 1007
  activityId := e.activityId
  processPid := e.process.pid
  processUid := e.process.uid
  processName := e.process.name
  processCreatedTime := createdTime
  processExitCode := e.process.exitCode
  processParentPid := e.process.parentPid
  processCommandLine := e.process.commandLine
  subjectUserSid := e.process.subjectUserSid
  imageFileName := e.process.imageFileName
  time := time

/-- One row for one element; `none` where a conversion of a time throws. -/
def cgesEventRow (agentId : String) : CgesEvent → Option CgesEventRow
  | .authentication e => do
    let time ← stringNanosToChDateTime e.time
    some (authenticationRow agentId e time)
  | .network e => do
    let time ← stringNanosToChDateTime e.time
    some (networkRow agentId e time)
  | .process e => do
    let createdTime ← e.process.createdTime.mapM stringNanosToChDateTime
    let time ← stringNanosToChDateTime e.time
    some (processRow agentId e createdTime time)

/-- What the table is ordered by, and what its engine takes duplicates by. -/
def CgesEventRow.sortingKey (row : CgesEventRow) : String × String × String :=
  (row.orgId, row.time, row.eventId)

theorem cgesEventRow_spec {agentId : String} {e : CgesEvent} {row : CgesEventRow}
    (h : cgesEventRow agentId e = some row) :
    row.agentId = agentId ∧ row.eventId = e.eventId ∧ row.classUid = e.classUid ∧
      row.orgId = "default" ∧ stringNanosToChDateTime e.time = some row.time := by
  cases e with
  | authentication | network =>
    obtain ⟨time, htime, hrow⟩ := Option.bind_eq_some_iff.mp h
    obtain rfl := Option.some.inj hrow
    exact ⟨rfl, rfl, rfl, rfl, htime⟩
  | process e =>
    obtain ⟨created, _, hrest⟩ := Option.bind_eq_some_iff.mp h
    obtain ⟨time, htime, hrow⟩ := Option.bind_eq_some_iff.mp hrest
    obtain rfl := Option.some.inj hrow
    exact ⟨rfl, rfl, rfl, rfl, htime⟩

theorem sortingKey_eq_of_row {agentId agentId' : String} {e : CgesEvent} {row row' : CgesEventRow}
    (h : cgesEventRow agentId e = some row) (h' : cgesEventRow agentId' e = some row') :
    row.sortingKey = row'.sortingKey := by
  obtain ⟨_, hid, _, horg, htime⟩ := cgesEventRow_spec h
  obtain ⟨_, hid', _, horg', htime'⟩ := cgesEventRow_spec h'
  rw [htime] at htime'
  rw [CgesEventRow.sortingKey, CgesEventRow.sortingKey, horg, horg', hid, hid',
    Option.some.inj htime']

end CyberGuard.Ingest
