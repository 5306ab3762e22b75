import CyberGuard.Shared.TextPatterns
import CyberGuard.Shared.JsonSchema

/-!
# The schema of an event

`CgesEventSchema`, what the heartbeat route accepts as an element of `body.events`.
The numbers of the elements here are integers, as the agent writes no others.
-/

namespace CyberGuard.Ingest.EventSchema
set_option autoImplicit false
open TextPatterns JsonSchema

def hexDigits : String := "0123456789abcdefABCDEF"

/-- The value of decimal digits, as `BigInt` reads them. -/
def bigInt (digits : String) : Nat := Nat.ofDigitChars 10 digits.toList 0

def nanosPattern : Pattern := oneOf "123456789" * between 0 18 (oneOf decimalDigits)

def nanosSchema : Schema Int :=
  text fun v => test nanosPattern v && decide (bigInt v < 2 ^ 63)

def hexTimes (n : Nat) : Pattern := between n n (oneOf hexDigits)

/-- `z.guid()`. -/
def uuidPattern : Pattern :=
  hexTimes 8 * literally "-" * hexTimes 4 * literally "-" * hexTimes 4 * literally "-" *
    hexTimes 4 * literally "-" * hexTimes 12

def uuidSchema : Schema Int := text (test uuidPattern)

def octetPattern : Pattern :=
  anyOf [literally "25" * oneOf "012345", literally "2" * oneOf "01234" * oneOf decimalDigits,
    literally "1" * oneOf decimalDigits * oneOf decimalDigits,
    oneOf "123456789" * oneOf decimalDigits, oneOf decimalDigits]

def ipv4 : Pattern := between 3 3 (octetPattern * literally ".") * octetPattern

def group : Pattern := between 1 4 (oneOf hexDigits)

def groupThenColon : Pattern := group * literally ":"

def colonThenGroup : Pattern := literally ":" * group

def embeddedOctet : Pattern :=
  anyOf [literally "25" * oneOf "012345",
    optional (anyOf [literally "2" * oneOf "01234", optional (literally "1") * oneOf decimalDigits]) *
      oneOf decimalDigits]

def embeddedIpv4 : Pattern := between 3 3 (embeddedOctet * literally ".") * embeddedOctet

def ipv6 : Pattern :=
  anyOf [between 7 7 groupThenColon * group,
    between 1 7 groupThenColon * literally ":",
    between 1 6 groupThenColon * (literally ":" * group),
    between 1 5 groupThenColon * between 1 2 colonThenGroup,
    between 1 4 groupThenColon * between 1 3 colonThenGroup,
    between 1 3 groupThenColon * between 1 4 colonThenGroup,
    between 1 2 groupThenColon * between 1 5 colonThenGroup,
    groupThenColon * between 1 6 colonThenGroup,
    literally ":" * anyOf [between 1 7 colonThenGroup, literally ":"],
    literally "fe80:" * between 0 4 (literally ":" * between 0 4 (oneOf hexDigits)) *
      literally "%" * (oneOf "0123456789abcdefghijklmnopqrstuvwxyzABCDEFGHIJKLMNOPQRSTUVWXYZ" *
        (oneOf "0123456789abcdefghijklmnopqrstuvwxyzABCDEFGHIJKLMNOPQRSTUVWXYZ").star),
    literally "::" * optional (literally "ffff" * optional (literally ":" * between 1 4 (literally "0")) *
      literally ":") * embeddedIpv4,
    between 1 4 groupThenColon * literally ":" * embeddedIpv4]

def ipTextSchema : Schema Int := text fun v => test ipv4 v || test ipv6 v

/-- `z.number().int()` with bounds that are safe integers. -/
def integer (least most : Int) : Schema Int := number fun n => decide (least ≤ n ∧ n ≤ most)

def pidSchema : Schema Int := integer 0 4294967295

def cgesProcessSchema : Schema Int := object
  [("pid", pidSchema), ("uid", nonEmptyText), ("name", nonEmptyText),
    ("created_time", nullable nanosSchema),
    ("exit_code", optional (integer (-2147483648) 2147483647)),
    ("parent_pid", nullable pidSchema), ("command_line", anyText), ("subject_user_sid", anyText),
    ("image_file_name", anyText)]

def cgesProcessActivitySchema : Schema Int := object
  [("event_id", uuidSchema), ("class_uid", literalNumber 1007),
    ("activity_id", union [literalNumber 1, literalNumber 2]), ("process", cgesProcessSchema),
    ("time", nanosSchema)]

def networkEndpointSchema : Schema Int := object
  [("ip", ipTextSchema), ("port", integer 0 65535)]

def cgesNetworkActivitySchema : Schema Int := object
  [("event_id", uuidSchema), ("class_uid", literalNumber 4001), ("activity_id", literalNumber 1),
    ("time", nanosSchema), ("src_endpoint", networkEndpointSchema),
    ("dst_endpoint", networkEndpointSchema),
    ("connection_info", object
      [("protocol_name", literalText "tcp"),
        ("direction", union [literalText "outbound", literalText "inbound"])]),
    ("actor", object [("process", object [("pid", pidSchema), ("uid", optional nonEmptyText)])])]

def cgesAuthenticationBase : List (String × Schema Int) :=
  [("event_id", uuidSchema), ("class_uid", literalNumber 3002), ("category_uid", literalNumber 3),
    ("activity_id", literalNumber 1), ("time", nanosSchema),
    ("user", object [("uid", nonEmptyText), ("name", nonEmptyText), ("domain", nonEmptyText)]),
    ("logon_type_id", integer 0 99), ("auth_protocol", nonEmptyText),
    ("auth_protocol_id",
      union [literalNumber 0, literalNumber 1, literalNumber 2, literalNumber 99]),
    ("src_endpoint", optional (object
      [("ip", ipTextSchema), ("hostname", optional nonEmptyText)]))]

def statusCodePattern : Pattern := literally "0x" * between 1 8 (oneOf lowerHexDigits)

def statusCodeSchema : Schema Int := text (test statusCodePattern)

def cgesLogonSuccessSchema : Schema Int := object (cgesAuthenticationBase ++
  [("status_id", literalNumber 1), ("status_code", optional never),
    ("status_detail", optional never), ("cg_elevated_token", optional boolean)])

def cgesLogonFailureSchema : Schema Int := object (cgesAuthenticationBase ++
  [("status_id", literalNumber 2), ("status_code", statusCodeSchema),
    ("status_detail", statusCodeSchema), ("cg_elevated_token", optional never)])

def cgesEventSchema : Schema Int := union
  [cgesProcessActivitySchema, cgesNetworkActivitySchema, cgesLogonSuccessSchema,
    cgesLogonFailureSchema]

end CyberGuard.Ingest.EventSchema
