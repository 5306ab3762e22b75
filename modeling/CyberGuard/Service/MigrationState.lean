import CyberGuard.Service.Migration

/-!
# What a migration leaves on the disk

A console installation that the migration accepts, and the states that any cut
start may leave of it: the console layout, possibly beside a staging directory,
the state between the two renames, and the committed one.
-/

namespace CyberGuard.Service
set_option autoImplicit false
open Checks CrashLogic List

variable {B : Type}

namespace MigrationCustody

theorem check_sharedFile (path : String) : sharedFile.check path configuration = .ok () := rfl

theorem closable_closedDirectory (path : String) :
    checkClosable closedDirectory path = .ok () := rfl

end MigrationCustody

open MigrationCustody

variable {node : Node B} {H : Host B} {before after : Listing B}

section closed
variable (hplain : node.reparsePoint = false) (hdirectory : node.content.isDirectory = true)
  (hsecurity : node.security = closedDirectory)
include hplain hdirectory hsecurity

theorem checkIfExists_closed {path : String} {policy : Policy}
    (hpolicy : closedDirectory.check path policy = .ok ()) :
    checkIfExists (some node) path .directory policy = .ok true := by
  have hshape : node.checkShape path .directory = .ok () := by
    simp [Object.checkShape, hplain, hdirectory]
  simp [checkIfExists, hshape, hsecurity, hpolicy]

theorem counts_closed (path : String) : counts (some node) path = true := by
  rw [counts, checkIfExists_closed hplain hdirectory hsecurity rfl]

theorem checkDataDirectory_closed (path : String) :
    checkDataDirectory (some node) path = .ok true :=
  checkIfExists_closed hplain hdirectory hsecurity rfl

end closed

theorem readChecked_newFile (bytes : B) (path : String) :
    readChecked (some (newFile sharedFile bytes)) path configuration = .ok (some bytes) := rfl

theorem recordOf_newFile (hH : H.Inverse) {record : Record} (hordered : record.Ordered)
    (path : String) :
    recordOf H (some (newFile sharedFile (H.printRecord record))) path = some record := by
  rw [recordOf, readChecked_newFile]
  exact hH.parse_printRecord record hordered

theorem recordOf_directory (h : node.content.isDirectory = true) (path : String) :
    recordOf H (some node) path = none := by
  have hshape : ∃ reason, node.checkShape path .file = .error reason := by
    cases hplain : node.reparsePoint <;>
      simp [Object.checkShape, refuseIf, hplain, h, bind, Except.bind]
  obtain ⟨reason, hreason⟩ := hshape
  simp [recordOf, readChecked, hreason, bind, Except.bind]

/-- The same entry, possibly with the security the migration gives a file. -/
def Restricted (a b : String × Node B) : Prop :=
  b.1 = a.1 ∧ (b.2 = a.2 ∨ b.2 = { a.2 with security := sharedFile })

theorem Restricted.refl (a : String × Node B) : Restricted a a := ⟨rfl, .inl rfl⟩

theorem names_restricted (h : List.Forall₂ Restricted before after) :
    after.map (·.1) = before.map (·.1) := by
  induction h with
  | nil => rfl
  | cons hab _ ih => rw [map_cons, map_cons, hab.1, ih]

theorem lookup_restricted (h : List.Forall₂ Restricted before after) {name : String}
    (hnode : Entries.lookup asciiLowercase before name = some node) :
    ∃ node', Entries.lookup asciiLowercase after name = some node' ∧
      (node' = node ∨ node' = { node with security := sharedFile }) := by
  induction h with
  | nil => simp [Entries.lookup] at hnode
  | @cons a b _ _ hab _ ih =>
    simp only [Entries.lookup, List.find?_cons, hab.1] at hnode ih ⊢
    by_cases hname : asciiLowercase a.1 = asciiLowercase name
    · simp only [hname, decide_true, Option.map_some, Option.some.injEq] at hnode ⊢
      exact ⟨b.2, rfl, hnode ▸ hab.2⟩
    · simp only [hname, decide_false] at hnode ⊢
      exact ih hnode

theorem adjust_restricted (h : List.Forall₂ Restricted before after) (name : String) :
    List.Forall₂ Restricted before
      (Entries.adjust asciiLowercase after name ({ · with security := sharedFile })) := by
  induction h with
  | nil => exact .nil
  | cons hab _ ih =>
    refine .cons ?_ ih
    dsimp only
    split
    · refine ⟨hab.1, .inr ?_⟩
      rcases hab.2 with heq | heq <;> rw [heq]
    · exact hab

theorem checkFile_restricted {path : String} {name : Name} {id : FileId} {other : Option Sid}
    (h : checkFile node path name = .ok (id, other)) :
    checkFile { node with security := sharedFile } path name = .ok (id, none) := by
  simp only [checkFile, bind_eq_ok, refuseIf_eq_ok] at h ⊢
  obtain ⟨_, hshape, _, hlinks, _, _, hrest⟩ := h
  refine ⟨(), hshape, (), hlinks, (), rfl, ?_⟩
  have hid : id = node.id := by
    split at hrest
    · simp only [pure_eq_ok, Prod.mk.injEq] at hrest
      exact hrest.1.symm
    · simp only [bind_eq_ok, pure_eq_ok, Prod.mk.injEq] at hrest
      obtain ⟨_, _, _, _, _, _, hnode, _⟩ := hrest
      exact hnode.symm
  subst hid
  split <;> rfl

theorem checkFile_shape {path : String} {name : Name} {id : FileId} {other : Option Sid}
    (h : checkFile node path name = .ok (id, other)) :
    node.reparsePoint = false ∧ node.links = 1 := by
  simp only [checkFile, bind_eq_ok, refuseIf_eq_ok, Bool.or_eq_false_iff] at h
  obtain ⟨_, ⟨hplain, _⟩, _, hlinks, _⟩ := h
  exact ⟨hplain, by simpa using hlinks⟩

def staged (entries : Listing B) : Node B := newDirectory closedDirectory entries

def recordFile (H : Host B) (record : Record) : Node B := newFile sharedFile (H.printRecord record)

/-- The names the service gives what it creates in the staging directory. -/
def ownNames : List String :=
  [recordName, recordTemporary, Name.config.text, Name.anchor.text, identityDirectory]

def OwnNames (entries : Listing B) : Prop := ∀ entry ∈ entries, entry.1 ∈ ownNames

def Recordless (H : Host B) (entries : Listing B) : Prop :=
  ∀ entry ∈ entries, asciiLowercase entry.1 = asciiLowercase recordName →
    ∀ path, recordOf H (some entry.2) path = none

theorem Recordless.remains (h : Recordless H before) (hremains : Disk.Remains before after) :
    Recordless H after := by
  intro entry hentry hname path
  rcases hremains entry hentry with hold | ⟨node, hnode, _, hdirectory⟩
  · exact h entry hold hname path
  · exact recordOf_directory hdirectory path

abbrev Disk.withStaged (d : Disk B) (entries : Listing B) : Disk B :=
  { d with staging := some (staged entries) }

theorem inStaging_staged (d : Disk B) (entries : Listing B)
    (change : Listing B → Except String (Listing B)) :
    (d.withStaged entries).inStaging change = (change entries).map d.withStaged := by
  cases hchange : change entries <;>
    simp [Disk.inStaging, Disk.changeEntries, staged, newDirectory, hchange, Except.map, bind,
      Except.bind, pure, Except.pure]

section commands
variable {torn : String → B → Prop} {d t : Disk B} {files : Listing B} {name : String}
  {security : Descriptor} {bytes : B}

theorem perform_createStaged (h : Entries.lookup asciiLowercase files name = none) :
    (d.withStaged files).perform (.createStaged name security bytes) =
      .ok (d.withStaged (Entries.put asciiLowercase files name (newFile security bytes))) := by
  simp only [Disk.perform, inStaging_staged, Disk.create, h, Except.map]

theorem partly_createStaged
    (h : (d.withStaged files).Partly torn
      (.createStaged name security bytes) t) :
    ∃ part, torn name part ∧
      t = d.withStaged (Entries.put asciiLowercase files name (newFile security part)) := by
  obtain ⟨part, hpart, hcreate⟩ := h
  refine ⟨part, hpart, ?_⟩
  rw [inStaging_staged, Disk.create] at hcreate
  cases hlookup : Entries.lookup asciiLowercase files name with
  | some _ => simp [hlookup, Except.map] at hcreate
  | none => simpa [hlookup, Except.map, eq_comm] using hcreate

variable {node : Node B}

theorem createInIdentity_directory {inner : Listing B}
    (h : Entries.lookup asciiLowercase files CyberGuard.Service.identityDirectory =
      some (newDirectory security inner)) :
    Disk.createInIdentity name node files = (Disk.create name node inner).map fun after =>
      Entries.adjust asciiLowercase files CyberGuard.Service.identityDirectory
        fun _ => newDirectory security after := by
  have hidentity : Entries.lookup asciiLowercase files "identity" =
      some (newDirectory security inner) := h
  rw [Disk.createInIdentity, hidentity]
  cases hcreate : Disk.create name node inner <;>
    simp [Disk.changeEntries, newDirectory, hcreate, Except.map, bind, Except.bind, pure,
      Except.pure, CyberGuard.Service.identityDirectory]

theorem perform_deleteStaged (h : Entries.lookup asciiLowercase files name = some node) :
    (d.withStaged files).perform (.deleteStaged name) =
      .ok (d.withStaged (Entries.erase asciiLowercase files name)) := by
  simp only [Disk.perform, inStaging_staged, h, Except.map]

theorem partly_deleteStaged
    (h : (d.withStaged files).Partly torn (.deleteStaged name) t) :
    ∃ change, t = d.withStaged (Entries.adjust asciiLowercase files name change) := by
  obtain ⟨inside, hinside⟩ := h
  rw [inStaging_staged] at hinside
  cases hinside
  exact ⟨_, rfl⟩

theorem perform_replaceStaged {source : String}
    (h : Entries.lookup asciiLowercase files source = some node) :
    (d.withStaged files).perform (.replaceStaged source name) =
      .ok (d.withStaged (Entries.put asciiLowercase (Entries.erase asciiLowercase files source) name
        node)) := by
  simp only [Disk.perform, inStaging_staged, h, Except.map]

end commands

structure Touched (before after : Listing B) : Prop where
  names : ∀ entry ∈ after, entry.1 ∈ before.map (·.1) ∨ entry.1 ∈ [recordName, recordTemporary]
  same : ∀ name, asciiLowercase name ≠ asciiLowercase recordName →
    asciiLowercase name ≠ asciiLowercase recordTemporary →
    Entries.lookup asciiLowercase after name = Entries.lookup asciiLowercase before name
  distinct : Entries.Distinct asciiLowercase before → Entries.Distinct asciiLowercase after

namespace Touched
variable {before middle after : Listing B}

theorem refl (entries : Listing B) : Touched entries entries :=
  ⟨fun _ hentry => .inl (mem_map_of_mem hentry), fun _ _ _ => rfl, id⟩

theorem trans (h₁ : Touched before middle) (h₂ : Touched middle after) : Touched before after := by
  refine ⟨fun entry hentry => ?_, fun name hrecord htemporary =>
    (h₂.same name hrecord htemporary).trans (h₁.same name hrecord htemporary),
    fun hdistinct => h₂.distinct (h₁.distinct hdistinct)⟩
  rcases h₂.names entry hentry with hold | hnew
  · obtain ⟨other, hother, hname⟩ := mem_map.mp hold
    exact hname ▸ h₁.names other hother
  · exact .inr hnew

theorem ownNames (h : Touched before after) (hown : OwnNames before) : OwnNames after := by
  intro entry hentry
  rcases h.names entry hentry with hold | hnew
  · obtain ⟨other, hother, hname⟩ := mem_map.mp hold
    exact hname ▸ hown other hother
  · simp only [mem_cons, not_mem_nil, or_false] at hnew
    rcases hnew with hname | hname <;> simp [CyberGuard.Service.ownNames, hname]

theorem erase (entries : Listing B) :
    Touched entries (Entries.erase asciiLowercase entries recordTemporary) :=
  ⟨fun _ hentry => .inl (mem_map_of_mem (Entries.mem_erase.mp hentry).1),
    fun _ _ htemporary => Entries.lookup_erase_of_ne htemporary, Entries.Distinct.erase⟩

theorem put (entries : Listing B) (node : Node B) {name : String}
    (hname : name ∈ [recordName, recordTemporary]) :
    Touched entries (Entries.put asciiLowercase entries name node) := by
  refine ⟨fun entry hentry => ?_, fun other hrecord htemporary => ?_, Entries.Distinct.put⟩
  · rcases Entries.mem_put hentry with hold | rfl
    · exact .inl (mem_map_of_mem hold.1)
    · exact .inr hname
  · refine Entries.lookup_put_of_ne ?_
    simp only [mem_cons, not_mem_nil, or_false] at hname
    rcases hname with rfl | rfl
    · exact hrecord
    · exact htemporary

theorem adjust (entries : Listing B) (change : Node B → Node B) :
    Touched entries (Entries.adjust asciiLowercase entries recordTemporary change) := by
  refine ⟨fun entry hentry => .inl ?_, fun name _ htemporary => ?_, Entries.Distinct.adjust⟩
  · have hname := mem_map_of_mem (f := (·.1)) hentry
    rwa [Entries.map_adjust] at hname
  · rw [Entries.lookup_adjust]
    simp [htemporary]

end Touched

variable [DecidableEq B]

section identity
variable {H : Host B}

/-- The identity's files as `check_identity` accepts them, the record and the clock aside. -/
structure Accepted (H : Host B) (sealedKey certificate identity : B) (persisted : PersistedIdentity)
    (secret : B) (text : String) (expiresAt : Int) : Prop where
  parsed : H.parseIdentity identity = .ok persisted
  unsealed : H.unsealKey sealedKey = .ok secret
  size : H.size secret = keyLen
  fingerprint : H.pubkeyFingerprint (H.publicKey secret) = persisted.agentPubkeyFingerprint
  decoded : H.fromUtf8 certificate = some text
  one : ∃ certificates, certificatesIn H text = .ok certificates ∧ certificates.length = 1
  consistent : checkConsistency H text (H.publicKey secret) persisted.agentId = .ok ()
  expires : H.parseRfc3339 persisted.expiresAt = some expiresAt

theorem checkIdentity_ok {now : Int} {recorded : Option Record} {sealedKey certificate identity : B}
    {result : String × String} :
    checkIdentity H now recorded sealedKey certificate identity = .ok result ↔
      ∃ persisted secret text expiresAt,
        Accepted H sealedKey certificate identity persisted secret text expiresAt ∧
        (∀ record ∈ recorded, record.keyFingerprint = H.pubkeyFingerprint (H.publicKey secret) ∧
          record.agentId = persisted.agentId) ∧ now < expiresAt ∧
        result = (persisted.agentId, H.pubkeyFingerprint (H.publicKey secret)) := by
  simp only [checkIdentity, bind_eq_ok, mapError_eq_ok, okOr_eq_ok, refuseIf_eq_ok, pure_eq_ok]
  constructor
  · rintro ⟨persisted, hparsed, secret, hunsealed, _, hsize, _, hfingerprint, _, hrecorded, text, htext,
      certificates, hcertificates, _, hone, _, hconsistent, expiresAt, hexpires, _, hnow, rfl⟩
    refine ⟨persisted, secret, text, expiresAt, ⟨hparsed, hunsealed, by simpa using hsize,
      by simpa using hfingerprint, htext, ⟨certificates, hcertificates, by simpa using hone⟩,
      hconsistent, hexpires⟩, ?_, by simpa using hnow, rfl⟩
    rintro record hrecord
    cases hrecord
    simpa using hrecorded
  · rintro ⟨persisted, secret, text, expiresAt, h, hrecorded, hnow, rfl⟩
    obtain ⟨certificates, hcertificates, hone⟩ := h.one
    refine ⟨persisted, h.parsed, secret, h.unsealed, (), by simpa using h.size, (),
      by simpa using h.fingerprint, (), ?_, text, h.decoded, certificates, hcertificates, (),
      by simpa using hone, (), h.consistent, expiresAt, h.expires, (), by simpa using hnow, rfl⟩
    cases recorded with
    | none => rfl
    | some record => simpa using hrecorded record rfl

end identity

/-- A console installation the checks of the migration accept, with what they read off it. Whether
its trust anchor is the one a request names is left to the request. -/
structure ConsoleInstallation (H : Host B) (paths : InstalledPaths) where
  productRoot : Object Unit
  dataRoot : Object Unit
  entries : Listing B
  names : List Name
  account : Sid
  bytes : Name → B
  configText : String
  anchors : List B
  agentId : String
  keyFingerprint : String
  checkedAt : Int
  expiresAt : Int
  productRoot_plain : productRoot.reparsePoint = false
  productRoot_closable : checkClosable productRoot.security paths.productRoot = .ok ()
  dataRoot_plain : dataRoot.reparsePoint = false
  dataRoot_closable : checkClosable dataRoot.security paths.dataRoot = .ok ()
  names_eq : dataRootNamesOf paths.dataRoot [] (entries.map (·.1)) = .ok names
  required_names : ∀ name ∈ required, name ∈ names
  files : ∀ name ∈ names, ∃ node other, Entries.lookup asciiLowercase entries name.text = some node ∧
    node.content = .file (bytes name) ∧
    checkFile node (join paths.dataRoot name.text) name = .ok (node.id, other) ∧
    (other = none ∨ other = some account)
  sizes : ∀ name ∈ names, name ≠ .temporary → H.size (bytes name) ≤ readLimit
  config_accepted : checkLegacyConfig H.toml paths (H.fromUtf8 (bytes .config)) = .ok configText
  anchor_read : H.pemCertificates (bytes .anchor) = some anchors
  identity_accepted : checkIdentity H checkedAt none (bytes .key) (bytes .cert) (bytes .identity) =
    .ok (agentId, keyFingerprint)
  identity_expires : ∀ persisted, H.parseIdentity (bytes .identity) = .ok persisted →
    H.parseRfc3339 persisted.expiresAt = some expiresAt
  identity_text : (H.fromUtf8 (bytes .identity)).isSome = true

namespace ConsoleInstallation
variable {H : Host B} {paths : InstalledPaths} (L : ConsoleInstallation H paths) (R : Request)

def data (security : Descriptor) (entries : Listing B) : Node B :=
  { L.dataRoot with security, content := .directory false entries }

def disk : Disk B := ⟨L.productRoot, some (L.data L.dataRoot.security L.entries), none, none, []⟩

def closedRoot : Object Unit := { L.productRoot with security := closedDirectory }

def Root (root : Object Unit) : Prop := root = L.productRoot ∨ root = L.closedRoot

def Security (security : Descriptor) : Prop :=
  security = L.dataRoot.security ∨ security = closedDirectory

def Kept (entries : Listing B) : Prop := List.Forall₂ Restricted L.entries entries

def idOf (name : Name) : FileId :=
  ((Entries.lookup asciiLowercase L.entries name.text).map (·.id)).getD ⟨0, 0⟩

theorem file_kept {L : ConsoleInstallation H paths} {entries : Listing B} (h : L.Kept entries)
    {name : Name} (hname : name ∈ L.names) :
    ∃ node other, Entries.lookup asciiLowercase entries name.text = some node ∧
      node.content = .file (L.bytes name) ∧ node.id = L.idOf name ∧
      checkFile node (join paths.dataRoot name.text) name = .ok (node.id, other) ∧
      (other = none ∨ other = some L.account) := by
  obtain ⟨node, other, hlookup, hbytes, hcheck, hother⟩ := L.files name hname
  have hid : node.id = L.idOf name := by simp [idOf, hlookup]
  obtain ⟨node', hlookup', rfl | rfl⟩ := lookup_restricted h hlookup
  · exact ⟨node', other, hlookup', hbytes, hid, hcheck, hother⟩
  · exact ⟨_, none, hlookup', hbytes, hid, checkFile_restricted hcheck, .inl rfl⟩

/-- A record of the request and of the installation's identity. -/
structure Matches (record : Record) : Prop where
  choice : record.choice = R.choice
  fingerprints : record.fingerprints = R.fingerprints
  agentId : record.agentId = L.agentId
  keyFingerprint : record.keyFingerprint = L.keyFingerprint
  ordered : record.Ordered

structure Recorded (entries : Listing B) (record : Record) : Prop where
  own : OwnNames entries
  distinct : Entries.Distinct asciiLowercase entries
  asked : L.Matches R record
  found : Entries.lookup asciiLowercase entries recordName = some (recordFile H record)

theorem accepted : ∃ persisted secret text,
    Accepted H (L.bytes .key) (L.bytes .cert) (L.bytes .identity) persisted secret text L.expiresAt ∧
      L.agentId = persisted.agentId ∧
      L.keyFingerprint = H.pubkeyFingerprint (H.publicKey secret) := by
  obtain ⟨persisted, secret, text, expiresAt, haccepted, -, -, hresult⟩ :=
    checkIdentity_ok.mp L.identity_accepted
  have hexpires := L.identity_expires persisted haccepted.parsed
  obtain rfl : L.expiresAt = expiresAt := Option.some.inj (hexpires.symm.trans haccepted.expires)
  exact ⟨persisted, secret, text, haccepted, congrArg Prod.fst hresult, congrArg Prod.snd hresult⟩

variable {R} in
theorem identity_again {now : Int} (hnow : now < L.expiresAt) {recorded : Option Record}
    (hrecorded : ∀ record ∈ recorded, L.Matches R record) :
    checkIdentity H now recorded (L.bytes .key) (L.bytes .cert) (L.bytes .identity) =
      .ok (L.agentId, L.keyFingerprint) := by
  obtain ⟨persisted, secret, text, haccepted, hagent, hkey⟩ := L.accepted
  refine checkIdentity_ok.mpr ⟨persisted, secret, text, L.expiresAt, haccepted, ?_, hnow, ?_⟩
  · intro record hrecord
    exact ⟨(hrecorded record hrecord).keyFingerprint.trans hkey,
      (hrecorded record hrecord).agentId.trans hagent⟩
  · rw [hagent, hkey]

theorem identity_same {now : Int} {recorded : Option Record} {result : String × String}
    (h : checkIdentity H now recorded (L.bytes .key) (L.bytes .cert) (L.bytes .identity) = .ok result) :
    result = (L.agentId, L.keyFingerprint) := by
  obtain ⟨persisted, secret, text, haccepted, hagent, hkey⟩ := L.accepted
  obtain ⟨persisted', secret', _, _, haccepted', -, -, rfl⟩ := checkIdentity_ok.mp h
  obtain rfl : persisted = persisted' := Except.ok.inj (haccepted.parsed.symm.trans haccepted'.parsed)
  obtain rfl : secret = secret' := Except.ok.inj (haccepted.unsealed.symm.trans haccepted'.unsealed)
  rw [hagent, hkey]

/-- The installation's trust anchor, each certificate once. -/
def certificates : List B := distinct [] L.anchors

def Named : Prop := sameSet (L.certificates.map (fingerprint H)) R.fingerprints = true

/-- The staged files, the configuration being that text. -/
structure Laid (entries : Listing B) (text : String) : Prop where
  config : Entries.lookup asciiLowercase entries Name.config.text =
    some (newFile sharedFile (H.asBytes text))
  anchor : Entries.lookup asciiLowercase entries Name.anchor.text =
    some (newFile sharedFile (H.asBytes (H.encodePem L.certificates)))
  identity : ∃ files, Entries.lookup asciiLowercase entries CyberGuard.Service.identityDirectory =
      some (newDirectory MigrationCustody.identityDirectory files) ∧
    ∀ name ∈ identityFiles, Entries.lookup asciiLowercase files name.text =
      some (newFile identityFile (L.bytes name))

def ConfigAccepted (H : Host B) (paths : InstalledPaths) (text : String) : Prop :=
  ∃ config, loadFromStr H.toml text = .ok config ∧
    checkInstalledConfig paths (join paths.staging Name.config.text) config = .ok () ∧
    config.enrollment.isSome = true

def Staged (entries : Listing B) : Prop :=
  L.Named R ∧ ∃ text, L.Laid entries text ∧ ConfigAccepted H paths text

def Staging (staging : Option (Node B)) : Prop :=
  staging = none ∨ ∃ entries, staging = some (staged entries) ∧
    (Recordless H entries ∨ ∃ record, L.Recorded R entries record)

inductive Safe : Disk B → Prop where
  | console {root : Object Unit} {security : Descriptor} {entries : Listing B}
      {staging : Option (Node B)} : L.Root root → L.Security security → L.Kept entries →
      L.Staging R staging → Safe ⟨root, some (L.data security entries), staging, none, []⟩
  | between {entries files : Listing B} {record : Record} : L.Kept entries →
      L.Recorded R files record → L.Staged R files →
      Safe ⟨L.closedRoot, none, some (staged files), some (L.data closedDirectory entries), []⟩
  | committed {entries files : Listing B} {record : Record} : L.Kept entries →
      L.Recorded R files record → L.Staged R files →
      Safe ⟨L.closedRoot, some (staged files), none, some (L.data closedDirectory entries), []⟩

abbrev closed (entries : Listing B) (staging : Option (Node B)) : Disk B :=
  ⟨L.closedRoot, some (L.data closedDirectory entries), staging, none, []⟩

variable {L R} in
theorem safe_closed {entries : Listing B} {staging : Option (Node B)} (hkept : L.Kept entries)
    (hstaging : L.Staging R staging) : L.Safe R (L.closed entries staging) :=
  .console (.inr rfl) (.inr rfl) hkept hstaging

theorem safe_disk : L.Safe R L.disk :=
  .console (.inl rfl) (.inl rfl) (List.forall₂_same.mpr fun _ _ => .refl _) (.inl rfl)

end ConsoleInstallation

end CyberGuard.Service
