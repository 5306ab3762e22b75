import CyberGuard.Shared.Json
import CyberGuard.Wire

/-!
# Events as JSON

The serialisation of the elements of `body.events`, in the order of the fields. An
empty `exit_code` is left out, an empty `created_time` or `parent_pid` is `null`.
-/

namespace CyberGuard.Wire
set_option autoImplicit false
open Json

def natural (n : Nat) : Json Int := .number n

def CgesProcess.toJson (process : CgesProcess) : Json Int :=
  .object
    ([("pid", natural process.pid), ("uid", .string process.uid), ("name", .string process.name),
      ("created_time", orNull process.createdTime .string)] ++
    optionalMember "exit_code" process.exitCode .number ++
    [("parent_pid", orNull process.parentPid natural),
      ("command_line", .string process.commandLine),
      ("subject_user_sid", .string process.subjectUserSid),
      ("image_file_name", .string process.imageFileName)])

def CgesProcessActivity.toJson (event : CgesProcessActivity) : Json Int :=
  .object
    [("event_id", .string event.eventId), ("class_uid", natural 1007),
      ("activity_id", natural event.activityId), ("process", event.process.toJson),
      ("time", .string event.time)]

def CgesNetworkEndpoint.toJson (endpoint : CgesNetworkEndpoint) : Json Int :=
  .object [("ip", .string endpoint.ip), ("port", natural endpoint.port)]

def CgesNetworkActivity.toJson (event : CgesNetworkActivity) : Json Int :=
  .object
    [("event_id", .string event.eventId), ("class_uid", natural 4001), ("activity_id", natural 1),
      ("time", .string event.time), ("src_endpoint", event.srcEndpoint.toJson),
      ("dst_endpoint", event.dstEndpoint.toJson),
      ("connection_info", .object
        [("protocol_name", .string event.protocolName),
          ("direction", .string event.direction.text)]),
      ("actor", .object
        [("process", .object
          ([("pid", natural event.actorPid)] ++ optionalMember "uid" event.actorUid .string))])]

def CgesLogonSource.toJson (source : CgesLogonSource) : Json Int :=
  .object ([("ip", .string source.ip)] ++ optionalMember "hostname" source.hostname .string)

def CgesAuthentication.members (event : CgesAuthentication) : List (String × Json Int) :=
  [("event_id", .string event.eventId), ("class_uid", natural 3002), ("category_uid", natural 3),
    ("activity_id", natural 1), ("time", .string event.time), ("status_id", natural event.statusId),
    ("user", .object
      [("uid", .string event.user.uid), ("name", .string event.user.name),
        ("domain", .string event.user.domain)]),
    ("logon_type_id", natural event.logonTypeId), ("auth_protocol", .string event.authProtocol),
    ("auth_protocol_id", natural event.authProtocolId)] ++
  optionalMember "src_endpoint" event.srcEndpoint CgesLogonSource.toJson ++
  optionalMember "status_code" event.statusCode .string ++
  optionalMember "status_detail" event.statusDetail .string ++
  optionalMember "cg_elevated_token" event.cgElevatedToken .boolean

def CgesAuthentication.toJson (event : CgesAuthentication) : Json Int := .object event.members

def CgesEvent.toJson : CgesEvent → Json Int
  | .process event => event.toJson
  | .network event => event.toJson
  | .authentication event => event.toJson

end CyberGuard.Wire
