import CyberGuard.Wire

/-!
# Captured events and their rendering

What the capture puts into the ring, and the form it is sent in. An event is rendered
once, when its batch is formed; its id was made at capture and is kept. Addresses
stand for their text, and `translate` for the map of device paths to drive letters.
-/

namespace CyberGuard.Agent
set_option autoImplicit false
open CyberGuard.Wire

inductive ActivityId where
  | launch
  | terminate
  deriving DecidableEq, Repr

def ActivityId.toNat : ActivityId → Nat
  | .launch => 1
  | .terminate => 2

structure CapturedEvent where
  pid : Nat
  eventId : String
  activityId : ActivityId
  imageFileName : String
  parentPid : Nat
  commandLine : String
  subjectUserSid : String
  etwTimestampNanos : Nat
  createdTimeNanos : Option Nat
  exitStatus : Option Int
  deriving DecidableEq, Repr

structure SocketAddr where
  ip : String
  port : Nat
  deriving DecidableEq, Repr

structure NetworkEvent where
  eventId : String
  pid : Nat
  direction : Direction
  src : SocketAddr
  dst : SocketAddr
  etwTimestampNanos : Nat
  createdTimeNanos : Option Nat
  deriving DecidableEq, Repr

inductive LogonStatus where
  | success
  | failure
  deriving DecidableEq, Repr

structure LogonSource where
  ip : String
  hostname : Option String
  deriving DecidableEq, Repr

structure LogonEvent where
  eventId : String
  status : LogonStatus
  userUid : String
  userName : String
  userDomain : String
  logonTypeId : Nat
  authProtocol : String
  authProtocolId : Nat
  src : Option LogonSource
  statusCode : Option Nat
  statusDetail : Option Nat
  elevatedToken : Option Bool
  timestampNanos : Nat
  deriving DecidableEq, Repr

inductive RingEvent where
  | process (event : CapturedEvent)
  | network (event : NetworkEvent)
  | logon (event : LogonEvent)
  deriving DecidableEq, Repr

def RingEvent.eventId : RingEvent → String
  | .process e => e.eventId
  | .network e => e.eventId
  | .logon e => e.eventId

/-- `format!("{code:#x}")`. -/
def hexCode (code : Nat) : String := "0x" ++ String.ofList (Nat.toDigits 16 code)

def formatProcessUid (agentId : String) (pid createdTimeNanos : Nat) : String :=
  agentId ++ ":" ++ toString pid ++ ":" ++ toString createdTimeNanos

def deriveProcessName (imageFileName : String) : String :=
  let inSegment (c : Char) : Bool := c ≠ '\\' && c ≠ '/'
  String.ofList (imageFileName.toList.reverse.takeWhile inSegment).reverse

example : deriveProcessName "\\Device\\HarddiskVolume2\\Windows\\cmd.exe" = "cmd.exe" := by
  decide

def renderAuthentication (event : LogonEvent) : CgesAuthentication where
  eventId := event.eventId
  time := toString event.timestampNanos
  statusId := if event.status = .failure then 2 else 1
  user := ⟨event.userUid, event.userName, event.userDomain⟩
  logonTypeId := event.logonTypeId
  authProtocol := event.authProtocol
  authProtocolId := event.authProtocolId
  srcEndpoint := event.src.map fun src => ⟨src.ip, src.hostname⟩
  statusCode :=
    if event.status = .failure then some (hexCode (event.statusCode.getD 0)) else none
  statusDetail :=
    if event.status = .failure then some (hexCode (event.statusDetail.getD 0)) else none
  cgElevatedToken := if event.status = .failure then none else event.elevatedToken

def renderNetworkActivity (event : NetworkEvent) (agentId : String) : CgesNetworkActivity where
  eventId := event.eventId
  time := toString event.etwTimestampNanos
  srcEndpoint := ⟨event.src.ip, event.src.port⟩
  dstEndpoint := ⟨event.dst.ip, event.dst.port⟩
  protocolName := "tcp"
  direction := event.direction
  actorPid := event.pid
  actorUid := event.createdTimeNanos.map (formatProcessUid agentId event.pid)

def build (event : CapturedEvent) (cachedCreatedTime : Option Nat) (imageFileName agentId : String) :
    CgesProcessActivity where
  eventId := event.eventId
  activityId := event.activityId.toNat
  time := toString event.etwTimestampNanos
  process :=
    { pid := event.pid
      uid := formatProcessUid agentId event.pid (cachedCreatedTime.getD event.etwTimestampNanos)
      name := deriveProcessName imageFileName
      createdTime := cachedCreatedTime.map toString
      exitCode := event.exitStatus
      parentPid := if event.parentPid = 0 then none else some event.parentPid
      commandLine := event.commandLine
      subjectUserSid := event.subjectUserSid
      imageFileName := imageFileName }

def renderProcessActivity (event : CapturedEvent) (agentId : String) (translate : String → String) :
    CgesProcessActivity :=
  build event event.createdTimeNanos (translate event.imageFileName) agentId

def render (agentId : String) (translate : String → String) : RingEvent → CgesEvent
  | .process event => .process (renderProcessActivity event agentId translate)
  | .network event => .network (renderNetworkActivity event agentId)
  | .logon event => .authentication (renderAuthentication event)

@[simp] theorem eventId_render (agentId : String) (translate : String → String) (event : RingEvent) :
    (render agentId translate event).eventId = event.eventId := by
  cases event <;> rfl

end CyberGuard.Agent
