import CyberGuard.Accepted.Texts
import CyberGuard.Ingest.CgesEventRow
import CyberGuard.Shared.HashChain
import CyberGuard.Shared.Json

/-!
# Forensic exports and their verifier

`sealTimeline` signs the head of the hash chain over a timeline's events; `verifyExport`
reads an export back from a file and decides on it. The events of a file are whatever JSON
values its array holds: the verifier looks no further into them than their canonical text.
-/

namespace CyberGuard.Forensic
set_option autoImplicit false
open TextPatterns CyberGuard.Ingest

abbrev Bytes := List UInt8

structure TimelineEvent where
  eventId : String
  agentId : String
  activityId : UInt8
  processPid : UInt32
  processUid : String
  processName : String
  imageFileName : String
  processParentPid : Option UInt32
  eventTime : String
  deriving DecidableEq, Repr

structure EventTimeline where
  incidentId : String
  events : List TimelineEvent
  deriving DecidableEq, Repr

section json
variable {N : Type} (number : UInt32 → N)

def TimelineEvent.toJson (event : TimelineEvent) : Json N := .object
  [("event_id", .string event.eventId), ("agent_id", .string event.agentId),
    ("activity_id", .number (number event.activityId.toUInt32)),
    ("process_pid", .number (number event.processPid)), ("process_uid", .string event.processUid),
    ("process_name", .string event.processName),
    ("image_file_name", .string event.imageFileName),
    ("process_parent_pid", Json.orNull event.processParentPid fun pid => .number (number pid)),
    ("event_time", .string event.eventTime)]

end json

/-- What the forensic code calls. `canonicalize` (JCS) is `none` where it throws, as it does
for an infinite number; it depends on the value only and no two values share a text.
`verify` takes the key, the signature and the signed bytes; `parse` is `none` where
`JSON.parse` throws. -/
structure Platform (N : Type) where
  number : UInt32 → N
  number_injective : Function.Injective number
  sha256 : Bytes → Bytes
  length_sha256 : ∀ bytes, (sha256 bytes).length = 32
  canonicalize : Json N → Option String
  canonicalize_same : ∀ v w, Json.Same v w → canonicalize v = canonicalize w
  canonicalize_injective : ∀ v w text, canonicalize v = some text → canonicalize w = some text →
    Json.Same v w
  canonicalize_event : ∀ event : TimelineEvent, (canonicalize (event.toJson number)).isSome
  base64url : Bytes → String
  fromBase64url : String → Bytes
  fromBase64url_base64url : ∀ bytes, fromBase64url (base64url bytes) = bytes
  verify : Bytes → Bytes → Bytes → Bool
  parse : String → Option (Json N)

/-- The forensic key; a signature verifies exactly over the bytes it was made for. -/
structure ForensicKey {N : Type} (P : Platform N) where
  publicKeyRaw : Bytes
  sign : Bytes → Bytes
  length_publicKeyRaw : publicKeyRaw.length = 32
  verify_sign : ∀ made given : Bytes, made.length = 32 → given.length = 32 →
    (P.verify publicKeyRaw (sign made) given = true ↔ given = made)

/-- `TextEncoder`. -/
def utf8 (text : String) : Bytes := text.toUTF8.data.toList

def toHex (bytes : Bytes) : String := Agent.hexBytes bytes

section model
variable {N : Type} (P : Platform N)

def canonicalEvent (event : Json N) : Option String := P.canonicalize event

def evidenceHash (event : Json N) : Option Bytes :=
  (canonicalEvent P event).map fun text => P.sha256 (utf8 text)

/-- `none` where an event does not canonicalize. -/
def computeChain (events : List (Json N)) : Option Bytes :=
  events.foldlM (fun chain event =>
    (evidenceHash P event).map fun hash => P.sha256 (chain ++ hash)) (P.sha256 [])

def fingerprintOf (publicKeyRaw : Bytes) : String := "sha256:" ++ toHex (P.sha256 publicKeyRaw)

structure ForensicExport where
  incidentId : String
  events : List TimelineEvent
  chainRoot : String
  rootSignature : String
  forensicPubkey : String
  forensicPubkeySha256 : String
  deriving DecidableEq, Repr

def ForensicExport.toJson (exp : ForensicExport) : Json N := .object
  [("incident_id", .string exp.incidentId),
    ("events", .array (exp.events.map fun event => event.toJson P.number)),
    ("chain_root", .string exp.chainRoot), ("root_signature", .string exp.rootSignature),
    ("forensic_pubkey", .string exp.forensicPubkey),
    ("forensic_pubkey_sha256", .string exp.forensicPubkeySha256)]

def eventValues (timeline : EventTimeline) : List (Json N) :=
  timeline.events.map fun event => event.toJson P.number

def sealTimeline (key : ForensicKey P) (timeline : EventTimeline) : Option ForensicExport := do
  let chainN ← computeChain P (eventValues P timeline)
  let signature := key.sign chainN
  some {
    incidentId := timeline.incidentId
    events := timeline.events
    chainRoot := toHex chainN
    rootSignature := P.base64url signature
    forensicPubkey := P.base64url key.publicKeyRaw
    forensicPubkeySha256 := fingerprintOf P key.publicKeyRaw }

structure Verdict where
  code : Nat
  line : String
  deriving DecidableEq, Repr

def usage : String := "usage: verify-export --fingerprint sha256:<hex> <export.json>"

def fingerprintForm : Pattern := literally "sha256:" * between 64 64 (oneOf lowerHexDigits)

def refused (reason : String) : Verdict := ⟨2, "refused: " ++ reason ++ "\n" ++ usage⟩

structure ExportShape (N : Type) where
  events : List (Json N)
  chainRoot : String
  rootSignature : String
  forensicPubkey : String

def shapeOf (value : Json N) : Option (ExportShape N) :=
  match value.member "events", value.member "chain_root", value.member "root_signature",
      value.member "forensic_pubkey" with
  | some (.array events), some (.string chainRoot), some (.string rootSignature),
      some (.string forensicPubkey) => some ⟨events, chainRoot, rootSignature, forensicPubkey⟩
  | _, _, _, _ => none

/-- The recorded fingerprint, whose digits are compared without case. -/
def recordedFingerprint (recorded : String) : String :=
  slice recorded 0 7 ++ (slice recorded 7 recorded.length).toLower

/-- The verdict on a file of the given text, `none` where it cannot be read. The result is
`none` where an event does not canonicalize: the call rejects. -/
def verifyExport (recorded file : String) (content : Option String) : Option Verdict :=
  let fingerprint := recordedFingerprint recorded
  if !test fingerprintForm fingerprint then
    some (refused "the fingerprint is sha256: and 64 hexadecimal digits")
  else
    match content with
    | none => some (refused ("cannot read " ++ file))
    | some text =>
      match (P.parse text).bind shapeOf with
      | none => some (refused "the file is not a forensic export")
      | some exp =>
        let key := P.fromBase64url exp.forensicPubkey
        if key.length ≠ 32 ∨ fingerprintOf P key ≠ fingerprint then
          some ⟨1, "the export's key does not match the recorded fingerprint"⟩
        else
          (computeChain P exp.events).map fun head =>
            if toHex head ≠ exp.chainRoot then
              ⟨1, "the events do not give the export's chain head"⟩
            else if P.verify key (P.fromBase64url exp.rootSignature) head then
              ⟨0, "verified: " ++ toString exp.events.length ++ " events, chain head " ++
                toHex head⟩
            else ⟨1, "the signature does not verify"⟩

end model

end CyberGuard.Forensic
