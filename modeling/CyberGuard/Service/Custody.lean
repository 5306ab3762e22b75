import CyberGuard.Service.Config
import CyberGuard.Shared.Entries

/-!
# Custody of the service's private files

Security descriptors, the policies they are checked against, and the part of the
file system the service works on: its product root with the data root, the
staging and the legacy directory.
-/

namespace CyberGuard.Service
set_option autoImplicit false
open Checks

structure Sid where
  authority : Nat
  subAuthorities : List Nat
deriving DecidableEq

inductive Principal where
  | system
  | administrators
deriving DecidableEq

/-- `S-1-5-18` and `S-1-5-32-544`. -/
def Principal.sid : Principal → Sid
  | .system => ⟨5, [18]⟩
  | .administrators => ⟨5, [32, 544]⟩

def Principal.is (principal : Principal) (sid : Sid) : Bool := principal.sid == sid

inductive AceType where
  | accessAllowed
  | accessDenied
  | other (code : Nat)
deriving DecidableEq

structure Ace where
  kind : AceType
  inheritOnly : Bool
  sid : Sid
  mask : BitVec 32
deriving DecidableEq

structure Descriptor where
  owner : Option Sid
  dacl : Option (List Ace)
  isProtected : Bool
deriving DecidableEq

structure Policy where
  owners : List Principal
  allowed : List Principal
  isProtected : Bool

namespace Policy

def configuration : Policy := ⟨[.system], [.system, .administrators], true⟩

def systemOnly : Policy := ⟨[.system], [.system], true⟩

end Policy

def Principal.name : Principal → String
  | .system => "SYSTEM"
  | .administrators => "Administrators"

def names (principals : List Principal) (joiner : String) : String :=
  joiner.intercalate (principals.map Principal.name)

namespace Descriptor

def ownedBy (descriptor : Descriptor) (owners : List Principal) : Bool :=
  owners.any fun principal => descriptor.owner.any principal.is

def checkAce (path : String) (policy : Policy) (ace : Ace) : Except String Unit :=
  match ace.kind with
  | .accessDenied => .ok ()
  | .accessAllowed =>
    let allowed := names policy.allowed " and "
    refuseIf (!policy.allowed.any (·.is ace.sid))
      s!"{path} allows access to a principal other than {allowed}"
  | .other code => .error s!"{path} holds an ACE of type {code}, which is not checked"

def checkAces (path : String) (policy : Policy) : List Ace → Except String Unit
  | [] => .ok ()
  | ace :: rest => do
    checkAce path policy ace
    checkAces path policy rest

/-- `check_descriptor`. -/
def check (descriptor : Descriptor) (path : String) (policy : Policy) : Except String Unit := do
  let owners := names policy.owners " or "
  refuseIf (!descriptor.ownedBy policy.owners) s!"{path} is not owned by {owners}"
  let dacl ← okOr descriptor.dacl s!"{path} has no DACL"
  refuseIf (policy.isProtected && !descriptor.isProtected) s!"{path}'s DACL is not protected"
  checkAces path policy dacl

structure AllowEntry where
  sid : Sid
  mask : BitVec 32

/-- An inherit-only entry acts on what is created below alone. -/
def allowEntriesOf (path : String) : List Ace → Except String (List AllowEntry)
  | [] => .ok []
  | ace :: rest =>
    if ace.inheritOnly then allowEntriesOf path rest
    else
      match ace.kind with
      | .accessDenied => allowEntriesOf path rest
      | .accessAllowed => do
        let entries ← allowEntriesOf path rest
        return ⟨ace.sid, ace.mask⟩ :: entries
      | .other code => .error s!"{path} holds an ACE of type {code}, which is not checked"

def allowEntries (descriptor : Descriptor) (path : String) :
    Except String (Option (List AllowEntry)) :=
  match descriptor.dacl with
  | none => .ok none
  | some dacl => do
    let entries ← allowEntriesOf path dacl
    return some entries

end Descriptor

/-- `FA`, `WRITE_DAC`, `WRITE_OWNER` and `GENERIC_ALL`. -/
def fileAllAccess : BitVec 32 := 0x1F01FF#32
def writeDac : BitVec 32 := 0x40000#32
def writeOwner : BitVec 32 := 0x80000#32
def genericAll : BitVec 32 := 0x10000000#32

def fullAccess (principal : Principal) : Ace := ⟨.accessAllowed, false, principal.sid, fileAllAccess⟩

namespace MigrationCustody

-- The service's own part; each descriptor as its SDDL text says it.

def service : Principal := .system

def owners : List Principal := [.system, .administrators]

def trusted : List Principal := [.system, .administrators]

def configuration : Policy := .configuration

def identity : Policy := .systemOnly

/-- `O:SYD:P(A;OICI;FA;;;SY)(A;OICI;FA;;;BA)`. -/
def closedDirectory : Descriptor :=
  ⟨some Principal.system.sid, some [fullAccess .system, fullAccess .administrators], true⟩

/-- `O:SYD:P(A;;FA;;;SY)(A;;FA;;;BA)`. -/
def sharedFile : Descriptor :=
  ⟨some Principal.system.sid, some [fullAccess .system, fullAccess .administrators], true⟩

/-- `O:SYD:P(A;OICI;FA;;;SY)`. -/
def identityDirectory : Descriptor :=
  ⟨some Principal.system.sid, some [fullAccess .system], true⟩

/-- `O:SYD:P(A;;FA;;;SY)`. -/
def identityFile : Descriptor :=
  ⟨some Principal.system.sid, some [fullAccess .system], true⟩

end MigrationCustody

structure FileId where
  volume : Nat
  index : Nat
deriving DecidableEq

def hexadecimal (width n : Nat) : String :=
  let digits := Nat.toDigits 16 n
  String.ofList (List.replicate (width - digits.length) '0' ++ digits)

def FileId.text (id : FileId) : String :=
  hexadecimal 8 id.volume ++ "-" ++ hexadecimal 16 id.index

/-- What a handle tells of an object, and what the object holds. -/
structure Object (α : Type) where
  reparsePoint : Bool
  links : Nat
  id : FileId
  security : Descriptor
  content : α

inductive Content (B : Type) where
  | file (bytes : B)
  | directory (caseSensitive : Bool) (entries : List (String × Object (Content B)))

abbrev Node (B : Type) := Object (Content B)

abbrev Listing (B : Type) := List (String × Node B)

variable {B : Type}

def Content.isDirectory : Content B → Bool
  | .file _ => false
  | .directory _ _ => true

def Content.entries : Content B → Listing B
  | .file _ => []
  | .directory _ entries => entries

def Content.caseSensitive : Content B → Bool
  | .file _ => false
  | .directory caseSensitive _ => caseSensitive

inductive Kind where
  | directory
  | file

namespace Object

def child (node : Node B) (name : String) : Option (Node B) :=
  Entries.lookup asciiLowercase node.content.entries name

/-- `check_shape`. -/
def checkShape (node : Node B) (path : String) (kind : Kind) : Except String Unit := do
  refuseIf node.reparsePoint s!"{path} is a reparse point"
  match kind with
  | .directory => refuseIf (!node.content.isDirectory) s!"{path} is not a directory"
  | .file =>
    refuseIf node.content.isDirectory s!"{path} is not a regular file"
    refuseIf (node.links != 1) s!"{path} is hard-linked"

end Object

/-- `check_if_exists_within`, of what is at the path. -/
def checkIfExists (found : Option (Node B)) (path : String) (kind : Kind) (policy : Policy) :
    Except String Bool :=
  match found with
  | none => .ok false
  | some node => do
    node.checkShape path kind
    node.security.check path policy
    return true

/-- `check`: absent is refused. -/
def checkThere (found : Option (Node B)) (path : String) (kind : Kind) (policy : Policy) :
    Except String Unit := do
  let there ← checkIfExists found path kind policy
  refuseIf (!there) s!"{path} does not exist"

/-- `read_checked`, where the open itself succeeds. -/
def readChecked (found : Option (Node B)) (path : String) (policy : Policy) :
    Except String (Option B) :=
  match found with
  | none => .ok none
  | some node => do
    node.checkShape path .file
    node.security.check path policy
    match node.content with
    | .file bytes => return some bytes
    -- refused above
    | .directory _ _ => return none

/-- The product root with its three directories and the names of anything else in it. -/
structure Disk (B : Type) where
  productRoot : Object Unit
  dataRoot : Option (Node B)
  staging : Option (Node B)
  legacy : Option (Node B)
  others : List String

inductive Root where
  | dataRoot
  | staging
  | legacy
deriving DecidableEq

namespace Disk

def root (d : Disk B) : Root → Option (Node B)
  | .dataRoot => d.dataRoot
  | .staging => d.staging
  | .legacy => d.legacy

def setRoot (d : Disk B) (node : Option (Node B)) : Root → Disk B
  | .dataRoot => { d with dataRoot := node }
  | .staging => { d with staging := node }
  | .legacy => { d with legacy := node }

def productNode (d : Disk B) : Node B :=
  { d.productRoot with content := .directory false [] }

/-- The names `custody::entries` gives for the product root. -/
def productEntries (d : Disk B) : List String :=
  (if d.dataRoot.isSome then ["agent"] else []) ++
    (if d.staging.isSome then ["agent.migrating"] else []) ++
    (if d.legacy.isSome then ["agent.legacy"] else []) ++ d.others

end Disk

/-- What is created has its final security from the start. -/
def newFile (security : Descriptor) (bytes : B) : Node B := ⟨false, 1, ⟨0, 0⟩, security, .file bytes⟩

def newDirectory (security : Descriptor) (entries : Listing B) : Node B :=
  ⟨false, 1, ⟨0, 0⟩, security, .directory false entries⟩

inductive Target where
  | productRoot
  | dataRoot
  /-- A file of the data root. -/
  | file (name : String)

/-- What the service asks of Windows: `access` stands for the open a read begins with. -/
inductive Command (B : Type) where
  | access (path : String)
  | setSecurity (target : Target) (security : Descriptor)
  | createStaging (security : Descriptor)
  | deleteStaging
  | createStaged (name : String) (security : Descriptor) (bytes : B)
  | createIdentityDirectory (security : Descriptor)
  | createIdentityFile (name : String) (security : Descriptor) (bytes : B)
  | deleteStaged (name : String)
  | replaceStaged (source target : String)
  | rename (source target : Root)

namespace Disk

/-- `ERROR_FILE_NOT_FOUND` and `ERROR_ALREADY_EXISTS`. -/
def notFound : String := "Win32 error 2"
def alreadyExists : String := "Win32 error 183"

def changeEntries (found : Option (Node B)) (change : Listing B → Except String (Listing B)) :
    Except String (Node B) :=
  match found with
  | some node =>
    match node.content with
    | .directory caseSensitive entries => do
      let entries ← change entries
      return { node with content := .directory caseSensitive entries }
    | .file _ => .error notFound
  | none => .error notFound

def inStaging (d : Disk B) (change : Listing B → Except String (Listing B)) :
    Except String (Disk B) := do
  let staging ← changeEntries d.staging change
  return { d with staging := some staging }

def create (name : String) (node : Node B) (entries : Listing B) : Except String (Listing B) :=
  match Entries.lookup asciiLowercase entries name with
  | some _ => .error alreadyExists
  | none => .ok (Entries.put asciiLowercase entries name node)

theorem create_eq_ok {name : String} {node : Node B} {entries after : Listing B}
    (h : create name node entries = .ok after) :
    Entries.lookup asciiLowercase entries name = none ∧
      after = Entries.put asciiLowercase entries name node := by
  unfold create at h
  cases hfound : Entries.lookup asciiLowercase entries name with
  | some _ =>
    rw [hfound] at h
    cases h
  | none =>
    rw [hfound] at h
    cases h
    exact ⟨rfl, rfl⟩

/-- The entries that are looked up before and after a change. -/
theorem changeEntries_eq_ok {found : Option (Node B)}
    {change : Listing B → Except String (Listing B)} {directory : Node B}
    (h : changeEntries found change = .ok directory) :
    ∃ entries after, change entries = .ok after ∧
      (∀ name, found.bind (·.child name) = Entries.lookup asciiLowercase entries name) ∧
      ∀ name, directory.child name = Entries.lookup asciiLowercase after name := by
  cases found with
  | none => cases h
  | some before =>
    obtain ⟨reparsePoint, links, id, security, content⟩ := before
    cases content with
    | file bytes => cases h
    | directory caseSensitive entries =>
      obtain ⟨after, hchange, hafter⟩ := bind_eq_ok.mp h
      cases pure_eq_ok.mp hafter
      exact ⟨entries, after, hchange, fun _ => rfl, fun _ => rfl⟩

/-- `CREATE_NEW` in the identity directory of the staging directory. -/
def createInIdentity (name : String) (node : Node B) (entries : Listing B) :
    Except String (Listing B) := do
  let identity ← changeEntries (Entries.lookup asciiLowercase entries "identity") (create name node)
  return Entries.adjust asciiLowercase entries "identity" fun _ => identity

def setSecurity (d : Disk B) (security : Descriptor) : Target → Except String (Disk B)
  | .productRoot => .ok { d with productRoot := { d.productRoot with security } }
  | .dataRoot => do
    let dataRoot ← okOr d.dataRoot notFound
    return { d with dataRoot := some { dataRoot with security } }
  | .file name => do
    let dataRoot ← changeEntries d.dataRoot fun entries =>
      match Entries.lookup asciiLowercase entries name with
      | some _ => .ok (Entries.adjust asciiLowercase entries name ({ · with security }))
      | none => .error notFound
    return { d with dataRoot := some dataRoot }

/-- What a command does where nothing keeps Windows from it. -/
def perform (d : Disk B) : Command B → Except String (Disk B)
  | .access _ => .ok d
  | .setSecurity target security => d.setSecurity security target
  | .createStaging security =>
    match d.staging with
    | some _ => .error alreadyExists
    | none => .ok { d with staging := some (newDirectory security []) }
  | .deleteStaging =>
    match d.staging with
    | some _ => .ok { d with staging := none }
    | none => .error notFound
  | .createStaged name security bytes => d.inStaging (create name (newFile security bytes))
  | .createIdentityDirectory security => d.inStaging (create "identity" (newDirectory security []))
  | .createIdentityFile name security bytes =>
    d.inStaging (createInIdentity name (newFile security bytes))
  | .deleteStaged name => d.inStaging fun entries =>
    match Entries.lookup asciiLowercase entries name with
    | some _ => .ok (Entries.erase asciiLowercase entries name)
    | none => .error notFound
  | .replaceStaged source target => d.inStaging fun entries =>
    match Entries.lookup asciiLowercase entries source with
    | some node =>
      .ok (Entries.put asciiLowercase (Entries.erase asciiLowercase entries source) target node)
    | none => .error notFound
  | .rename source target =>
    match d.root source, d.root target with
    | some node, none => .ok ((d.setRoot none source).setRoot (some node) target)
    | none, _ => .error notFound
    | some _, some _ => .error alreadyExists

/-- What an interrupted removal leaves: some of the entries, a directory among them possibly
with less in it. -/
def Remains (before after : Listing B) : Prop :=
  ∀ entry ∈ after, entry ∈ before ∨
    ∃ node, (entry.1, node) ∈ before ∧ node.content.isDirectory = true ∧
      entry.2.content.isDirectory = true

/-- What the machine may leave when it goes down inside a command: a file with the contents
`torn` says, or part of a removal. Every other command is done or not done. -/
def Partly (torn : String → B → Prop) (d : Disk B) : Command B → Disk B → Prop
  | .createStaged name security _, d' =>
    ∃ bytes, torn name bytes ∧ d.inStaging (create name (newFile security bytes)) = .ok d'
  | .createIdentityFile name security _, d' =>
    ∃ bytes, torn name bytes ∧ d.inStaging (createInIdentity name (newFile security bytes)) = .ok d'
  | .deleteStaging, d' => ∃ staging entries, d.staging = some staging ∧
    Remains staging.content.entries entries ∧
    d' = { d with staging := some { staging with content := .directory false entries } }
  | .deleteStaged name, d' => ∃ inside, d.inStaging (fun entries =>
      .ok (Entries.adjust asciiLowercase entries name fun node =>
        if node.content.isDirectory then { node with content := .directory false inside }
        else node)) = .ok d'
  | _, _ => False

end Disk

def Command.removes : Command B → Bool
  | .deleteStaging | .deleteStaged _ => true
  | _ => false

end CyberGuard.Service
