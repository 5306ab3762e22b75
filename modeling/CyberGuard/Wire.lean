/-!
# What agent and server exchange

The elements of `body.events`, the heartbeat envelope and the signed outer
envelope around it, with the fields both sides read. The class of an event is
its constructor; `class_uid` and the literals the schema fixes are read off it.
-/

namespace CyberGuard.Wire
set_option autoImplicit false

structure CgesProcess where
  pid : Nat
  uid : String
  name : String
  createdTime : Option String
  exitCode : Option Int
  parentPid : Option Nat
  commandLine : String
  subjectUserSid : String
  imageFileName : String
  deriving DecidableEq, Repr

structure CgesProcessActivity where
  eventId : String
  activityId : Nat
  process : CgesProcess
  time : String
  deriving DecidableEq, Repr

structure CgesNetworkEndpoint where
  ip : String
  port : Nat
  deriving DecidableEq, Repr

inductive Direction where
  | outbound
  | inbound
  deriving DecidableEq, Repr

def Direction.text : Direction → String
  | .outbound => "outbound"
  | .inbound => "inbound"

structure CgesNetworkActivity where
  eventId : String
  time : String
  srcEndpoint : CgesNetworkEndpoint
  dstEndpoint : CgesNetworkEndpoint
  protocolName : String
  direction : Direction
  actorPid : Nat
  actorUid : Option String
  deriving DecidableEq, Repr

structure CgesLogonUser where
  uid : String
  name : String
  domain : String
  deriving DecidableEq, Repr

structure CgesLogonSource where
  ip : String
  hostname : Option String
  deriving DecidableEq, Repr

structure CgesAuthentication where
  eventId : String
  time : String
  statusId : Nat
  user : CgesLogonUser
  logonTypeId : Nat
  authProtocol : String
  authProtocolId : Nat
  srcEndpoint : Option CgesLogonSource
  statusCode : Option String
  statusDetail : Option String
  cgElevatedToken : Option Bool
  deriving DecidableEq, Repr

inductive CgesEvent where
  | process (event : CgesProcessActivity)
  | network (event : CgesNetworkActivity)
  | authentication (event : CgesAuthentication)
  deriving DecidableEq, Repr

namespace CgesEvent

def classUid : CgesEvent → Nat
  | .process _ => 1007
  | .network _ => 4001
  | .authentication _ => 3002

def eventId : CgesEvent → String
  | .process e => e.eventId
  | .network e => e.eventId
  | .authentication e => e.eventId

def time : CgesEvent → String
  | .process e => e.time
  | .network e => e.time
  | .authentication e => e.time

end CgesEvent

inductive HeartbeatStatus where
  | online
  | goingOffline
  deriving DecidableEq, Repr

structure AgentBlock where
  agentId : String
  agentVersion : String
  agentPlatform : String
  agentHostname : String
  deriving DecidableEq, Repr

structure HeartbeatEnvelope where
  envelopeVersion : String
  agent : AgentBlock
  sequenceNumber : Nat
  sentAt : String
  status : HeartbeatStatus
  uptimeSeconds : Nat
  events : List CgesEvent
  deriving DecidableEq, Repr

structure OuterEnvelope where
  outerEnvelopeVersion : String
  agentId : String
  sequenceNumber : Nat
  nonce : String
  sentAt : String
  body : HeartbeatEnvelope
  signature : String
  deriving DecidableEq, Repr

end CyberGuard.Wire
