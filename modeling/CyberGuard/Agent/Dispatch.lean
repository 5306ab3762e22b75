import Mathlib.Algebra.Ring.Int.Defs
import Mathlib.Algebra.Ring.Nat
import CyberGuard.Agent.Addresses
import CyberGuard.Agent.EventJson
import CyberGuard.Agent.Ring

/-!
# From a record to an event

What the capture makes of one record of each kind: the process and network records of
the trace session and the logon records of the security log. `Capture` holds what the
dispatch reads and changes; the ids of the events are made outside. Addresses in the
events stand for their text, as they are only ever written. `DevicePathMap` is the map
from device prefixes to drives that the agent builds when it starts, and translates an
image path when its event is rendered.
-/

namespace CyberGuard.Agent
set_option autoImplicit false
open CyberGuard.Wire

/-- Pairs of a device prefix and its drive, the longest prefix first. -/
structure DevicePathMap where
  entries : List (String × String)
  deriving DecidableEq, Repr

def uncPrefixes : List String := ["\\Device\\Mup\\", "\\??\\UNC\\"]

/-- What follows the first argument in the second, ASCII letters of either case being the same. -/
def stripIgnoreAsciiCase : List Char → List Char → Option (List Char)
  | [], path => some path
  | _ :: _, [] => none
  | c :: start, d :: path =>
    if c.toLower = d.toLower then stripIgnoreAsciiCase start path else none

/-- The path under the first of the prefixes that it starts with. -/
def translateUnc (path : String) : List String → Option String
  | [] => none
  | unc :: rest =>
    match stripIgnoreAsciiCase unc.toList path.toList with
    | some tail => some ("\\\\" ++ String.ofList tail)
    | none => translateUnc path rest

/-- The path under the first device that ends where one of its components does. -/
def translateDevice (path : String) : List (String × String) → Option String
  | [] => none
  | (device, drive) :: rest =>
    match stripIgnoreAsciiCase device.toList path.toList with
    | some tail =>
      if tail.isEmpty || tail.head? == some '\\' then some (drive ++ String.ofList tail)
      else translateDevice path rest
    | none => translateDevice path rest

def DevicePathMap.translate (paths : DevicePathMap) (path : String) : String :=
  match translateUnc path uncPrefixes with
  | some translated => translated
  | none => (translateDevice path paths.entries).getD path

example : (DevicePathMap.mk [("\\Device\\HarddiskVolume3", "C:")]).translate
    "\\device\\harddiskvolume3\\Windows\\cmd.exe" = "C:\\Windows\\cmd.exe" := by
  decide

def filetimeToUnix100ns : Int := 116444736000000000

/-- `none` before 1970; beyond the range of `u64` the product saturates. -/
def filetimeToUnixNanos (filetime100ns : Int) : Option Nat :=
  let unix100ns := filetime100ns - filetimeToUnix100ns
  if unix100ns < -(2 ^ 63) then none
  else if unix100ns < 0 then none
  else some (min (unix100ns.toNat * 100) (2 ^ 64 - 1))

structure RawProcessRecord where
  activityId : ActivityId
  pid : UInt32
  parentPid : UInt32
  imageFileName : String
  commandLine : String
  subjectUserSid : String
  filetime100ns : Int
  exitStatus : Option Int32

structure RawNetworkRecord where
  eventId : UInt16
  pid : List UInt8
  saddr : List UInt8
  daddr : List UInt8
  sport : List UInt8
  dport : List UInt8
  filetime100ns : Int

structure RawLogonRecord where
  eventId : UInt16
  filetime100ns : Int
  targetUserSid : Option String
  targetUserName : Option String
  targetDomainName : Option String
  logonType : Option UInt32
  authPackage : Option String
  workstation : Option String
  ipAddress : Option String
  elevatedToken : Option String
  status : Option UInt32
  subStatus : Option UInt32

def connectionDirection (eventId : UInt16) : Option Direction :=
  if eventId = 12 ∨ eventId = 28 then some .outbound
  else if eventId = 15 ∨ eventId = 31 then some .inbound
  else none

def decodePid : List UInt8 → Option Nat
  | [a, b, c, d] => some (a.toNat + 256 * (b.toNat + 256 * (c.toNat + 256 * d.toNat)))
  | _ => none

def port : List UInt8 → Option Nat
  | [high, low] => some (high.toNat * 256 + low.toNat)
  | _ => none

def address (bytes : List UInt8) : Option IpAddr :=
  match bytes with
  | [a, b, c, d] => some (.v4 ⟨a, b, c, d⟩)
  | _ => if h : bytes.length = 16 then some (IpAddr.unmapped (.v6 ⟨bytes, h⟩)) else none

structure DecodedConnection where
  pid : Nat
  direction : Direction
  src : IpAddr × Nat
  dst : IpAddr × Nat

/-- `saddr` and `sport` are the host's own end; the source is the end that opened. -/
def decodeConnection (raw : RawNetworkRecord) : Option DecodedConnection := do
  let direction ← connectionDirection raw.eventId
  let pid ← decodePid raw.pid
  let localEnd := (← address raw.saddr, ← port raw.sport)
  let remote := (← address raw.daddr, ← port raw.dport)
  match direction with
  | .outbound => some ⟨pid, direction, localEnd, remote⟩
  | .inbound => some ⟨pid, direction, remote, localEnd⟩

def withheld : String := "<withheld>"

def noValue : String := "-"

def accountExistsCodes : List UInt32 :=
  [0xC000006A, 0xC0000234, 0xC0000072, 0xC000006F, 0xC0000070, 0xC0000193, 0xC0000071, 0xC0000224,
    0xC000015B]

def valueOrDash : Option String → String
  | some v => if v.isEmpty then noValue else v
  | none => noValue

def isExcludedTarget (sid name : String) : Bool :=
  ["S-1-5-18", "S-1-5-19", "S-1-5-20"].contains sid ||
    ["S-1-5-80-", "S-1-5-82-", "S-1-5-83-", "S-1-5-84-", "S-1-5-90-", "S-1-5-96-"].any
      (fun start => start.toList.isPrefixOf sid.toList) ||
    name.toList.getLast? == some '$'

def failureCode (status subStatus : Option UInt32) : UInt32 :=
  match subStatus with
  | some code => if code ≠ 0 then code else status.getD 0
  | none => status.getD 0

def nameIsKept (code : UInt32) : Bool := accountExistsCodes.contains code

def logonTypeId : Option UInt32 → Nat
  | some t =>
    if t = 0 then 1
    else if (2 ≤ t ∧ t ≤ 5) ∨ (7 ≤ t ∧ t ≤ 13) then t.toNat
    else 99
  | none => 99

def eqIgnoreAscii (s t : String) : Bool := s.toList.map Char.toLower == t.toList.map Char.toLower

def authProtocolId (package : String) : Nat :=
  if package = noValue then 0
  else if eqIgnoreAscii package "NTLM" then 1
  else if eqIgnoreAscii package "Kerberos" then 2
  else 99

/-- The source of a logon; `parse` reads an address in text, here without its zone. -/
def source (parse : String → Option IpAddr) (ipAddress workstation : Option String) :
    Option LogonSource := do
  let text ← ipAddress
  let ip ← parse (String.ofList (text.toList.takeWhile (· ≠ '%')))
  some ⟨ip.unmapped.text, workstation.filter fun w => !w.isEmpty && w ≠ noValue⟩

def elevated : Option String → Option Bool
  | some "%%1842" => some true
  | some "%%1843" => some false
  | _ => none

def logonStatus (eventId : UInt16) : Option LogonStatus :=
  if eventId = 4624 then some .success
  else if eventId = 4625 then some .failure
  else none

/-- A failed logon keeps its name and domain only when its code names an existing account. -/
def keepsName (raw : RawLogonRecord) (status : LogonStatus) : Bool :=
  status = .success || nameIsKept (failureCode raw.status raw.subStatus)

def logonEvent (parse : String → Option IpAddr) (eventId : Uuid) (raw : RawLogonRecord)
    (status : LogonStatus) (sid : String) (timestampNanos : Nat) : LogonEvent where
  eventId := eventId.text
  status := status
  userUid := sid
  userName := if keepsName raw status then valueOrDash raw.targetUserName else withheld
  userDomain := if keepsName raw status then valueOrDash raw.targetDomainName else withheld
  logonTypeId := logonTypeId raw.logonType
  authProtocol := valueOrDash raw.authPackage
  authProtocolId := authProtocolId (valueOrDash raw.authPackage)
  src := source parse raw.ipAddress raw.workstation
  statusCode := if status = .success then none else some (raw.status.getD 0).toNat
  statusDetail := if status = .success then none else some (raw.subStatus.getD 0).toNat
  elevatedToken := if status = .success then elevated raw.elevatedToken else none
  timestampNanos := timestampNanos

inductive LogonDecode where
  | report (event : LogonEvent)
  | excluded
  | unusable
  | beforeEpoch

def decodeLogon (parse : String → Option IpAddr) (eventId : Uuid) (raw : RawLogonRecord) :
    LogonDecode :=
  match logonStatus raw.eventId, raw.targetUserSid.filter (!·.isEmpty) with
  | some status, some sid =>
    if status = .success ∧ isExcludedTarget sid (valueOrDash raw.targetUserName) then .excluded
    else
      match filetimeToUnixNanos raw.filetime100ns with
      | none => .beforeEpoch
      | some nanos => .report (logonEvent parse eventId raw status sid nanos)
  | _, _ => .unusable

/-- What the dispatch works on: the creation times by pid, the ring, and the counts of the records
it could not use. -/
structure Capture where
  cache : Nat → Option Nat
  ring : EventRing
  discards : Nat
  unusable : Nat

namespace Capture

def insertCache (c : Capture) (pid nanos : Nat) : Capture :=
  { c with cache := fun p => if p = pid then some nanos else c.cache p }

def purgeCache (c : Capture) (pid : Nat) : Capture :=
  { c with cache := fun p => if p = pid then none else c.cache p }

def enqueueOrDrop (c : Capture) (now : Nat) (event : RingEvent) : Capture :=
  { c with ring := c.ring.enqueueOrDrop now event }

end Capture

def capturedEvent (raw : RawProcessRecord) (eventId : Uuid) (nanos : Nat)
    (createdTimeNanos : Option Nat) : CapturedEvent where
  pid := raw.pid.toNat
  eventId := eventId.text
  activityId := raw.activityId
  imageFileName := raw.imageFileName
  parentPid := raw.parentPid.toNat
  commandLine := raw.commandLine
  subjectUserSid := raw.subjectUserSid
  etwTimestampNanos := nanos
  createdTimeNanos := createdTimeNanos
  exitStatus := raw.exitStatus.map Int32.toInt

def dispatchRecord (raw : RawProcessRecord) (eventId : Uuid) (now : Nat) (c : Capture) : Capture :=
  match filetimeToUnixNanos raw.filetime100ns with
  | none => c
  | some nanos =>
    match raw.activityId with
    | .launch => (c.insertCache raw.pid.toNat nanos).enqueueOrDrop now
        (.process (capturedEvent raw eventId nanos (some nanos)))
    | .terminate => (c.purgeCache raw.pid.toNat).enqueueOrDrop now
        (.process (capturedEvent raw eventId nanos (c.cache raw.pid.toNat)))

def networkEvent (connection : DecodedConnection) (eventId : Uuid) (nanos : Nat)
    (createdTimeNanos : Option Nat) : NetworkEvent where
  eventId := eventId.text
  pid := connection.pid
  direction := connection.direction
  src := ⟨connection.src.1.text, connection.src.2⟩
  dst := ⟨connection.dst.1.text, connection.dst.2⟩
  etwTimestampNanos := nanos
  createdTimeNanos := createdTimeNanos

def dispatchNetworkRecord (raw : RawNetworkRecord) (excludedPid : Option Nat) (eventId : Uuid)
    (now : Nat) (c : Capture) : Capture :=
  if (connectionDirection raw.eventId).isNone then { c with discards := c.discards + 1 }
  else if excludedPid.isSome && decodePid raw.pid == excludedPid then c
  else
    match decodeConnection raw with
    | none => { c with discards := c.discards + 1 }
    | some connection =>
      match filetimeToUnixNanos raw.filetime100ns with
      | none => c
      | some nanos => c.enqueueOrDrop now
          (.network (networkEvent connection eventId nanos (c.cache connection.pid)))

def dispatchLogonRecord (parse : String → Option IpAddr) (raw : RawLogonRecord) (eventId : Uuid)
    (now : Nat) (c : Capture) : Capture :=
  match decodeLogon parse eventId raw with
  | .report event => c.enqueueOrDrop now (.logon event)
  | .excluded | .beforeEpoch => c
  | .unusable => { c with unusable := c.unusable + 1 }

theorem decodeLogon_failure {raw : RawLogonRecord} (h : raw.eventId = 4625)
    (parse : String → Option IpAddr) (eventId : Uuid) :
    decodeLogon parse eventId raw =
      match raw.targetUserSid.filter (!·.isEmpty), filetimeToUnixNanos raw.filetime100ns with
      | none, _ => .unusable
      | some _, none => .beforeEpoch
      | some sid, some nanos => .report (logonEvent parse eventId raw .failure sid nanos) := by
  have hstatus : logonStatus raw.eventId = some .failure := by
    rw [h]
    rfl
  rw [decodeLogon, hstatus]
  cases raw.targetUserSid.filter (!·.isEmpty) with
  | none => rfl
  | some sid => cases filetimeToUnixNanos raw.filetime100ns <;> rfl

/-- The records differ at most in the names of their target. -/
def AlikeButNames (raw raw' : RawLogonRecord) : Prop :=
  raw' = { raw with
    targetUserName := raw'.targetUserName
    targetDomainName := raw'.targetDomainName }

theorem AlikeButNames.logonEvent_eq {raw raw' : RawLogonRecord} (h : AlikeButNames raw raw')
    (hcode : nameIsKept (failureCode raw.status raw.subStatus) = false)
    (parse : String → Option IpAddr) (eventId eventId' : Uuid) (sid : String) (nanos : Nat) :
    logonEvent parse eventId' raw' .failure sid nanos =
      { logonEvent parse eventId raw .failure sid nanos with eventId := eventId'.text } := by
  have hkeeps : keepsName raw .failure = false := hcode
  have hkeeps' : keepsName raw' .failure = false := by
    rw [h]
    exact hcode
  unfold logonEvent
  rw [hkeeps, hkeeps', h]
  rfl

/-- What is sent of a failed logon whose code names no existing account is a function of the rest
of its record, and its record is enqueued or not whatever the names are. -/
theorem failed_logon_reveals_no_name (parse : String → Option IpAddr) (raw raw' : RawLogonRecord)
    (eventId eventId' : Uuid) (now : Nat) (c : Capture) (halike : AlikeButNames raw raw')
    (hfailed : raw.eventId = 4625)
    (hcode : nameIsKept (failureCode raw.status raw.subStatus) = false) :
    (∃ event event' rest, decodeLogon parse eventId raw = .report event ∧
      decodeLogon parse eventId' raw' = .report event' ∧
      (renderAuthentication event).toJson = .object (("event_id", .string eventId.text) :: rest) ∧
      (renderAuthentication event').toJson =
        .object (("event_id", .string eventId'.text) :: rest) ∧
      (dispatchLogonRecord parse raw eventId now c).ring.contents =
        EvictingQueue.push c.ring.capacity c.ring.contents (.logon event) ∧
      (dispatchLogonRecord parse raw' eventId' now c).ring.contents =
        EvictingQueue.push c.ring.capacity c.ring.contents (.logon event')) ∨
    (dispatchLogonRecord parse raw eventId now c).ring = c.ring ∧
      dispatchLogonRecord parse raw' eventId' now c =
        dispatchLogonRecord parse raw eventId now c := by
  have hsid : raw'.targetUserSid = raw.targetUserSid := by rw [halike]
  have htime : raw'.filetime100ns = raw.filetime100ns := by rw [halike]
  have hfailed' : raw'.eventId = 4625 := by
    rw [halike]
    exact hfailed
  rw [dispatchLogonRecord, dispatchLogonRecord, decodeLogon_failure hfailed,
    decodeLogon_failure hfailed', hsid, htime]
  cases raw.targetUserSid.filter (!·.isEmpty) with
  | none => exact Or.inr ⟨rfl, rfl⟩
  | some sid =>
    cases filetimeToUnixNanos raw.filetime100ns with
    | none => exact Or.inr ⟨rfl, rfl⟩
    | some nanos =>
      refine Or.inl ⟨_, _, _, rfl, rfl, rfl, ?_, ?_, ?_⟩
      · rw [halike.logonEvent_eq hcode parse eventId]
        rfl
      · exact EventRing.contents_enqueueOrDrop now rfl
      · exact EventRing.contents_enqueueOrDrop now rfl

def sampleEventId (byte : UInt8) : Uuid := ⟨List.replicate 16 byte, rfl⟩

def sampleFailure (name : String) : RawLogonRecord :=
  ⟨4625, 134248600000000000, some "S-1-0-0", some name, some "CORP", some 3, some "NTLM", none,
    some "10.0.0.9", none, some 0xC000006D, some 0xC0000064⟩

/-- The parser at the one text that the sample has. -/
def sampleParse (text : String) : Option IpAddr :=
  if text = "10.0.0.9" then some (.v4 ⟨10, 0, 0, 9⟩) else none

/-- Two failed logons for accounts that may not exist. -/
theorem sample_names_withheld :
    ∃ event event' rest,
      decodeLogon sampleParse (sampleEventId 1) (sampleFailure "alice") = .report event ∧
      decodeLogon sampleParse (sampleEventId 2) (sampleFailure "bob") = .report event' ∧
      (renderAuthentication event).toJson =
        .object (("event_id", .string (sampleEventId 1).text) :: rest) ∧
      (renderAuthentication event').toJson =
        .object (("event_id", .string (sampleEventId 2).text) :: rest) := by
  rcases failed_logon_reveals_no_name sampleParse (sampleFailure "alice") (sampleFailure "bob")
    (sampleEventId 1) (sampleEventId 2) 0 ⟨fun _ => none, EventRing.new 4, 0, 0⟩ rfl rfl
    (by decide) with ⟨event, event', rest, h, h', hsent, hsent', -⟩ | h
  · exact ⟨event, event', rest, h, h', hsent, hsent'⟩
  · exact absurd (congrArg (·.events.length) h.1) (by decide)

end CyberGuard.Agent
