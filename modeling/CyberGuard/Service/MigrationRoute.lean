import CyberGuard.Service.MigrationState

/-!
# What the route of a migration does

For each step of the route: from a safe console layout every instant is safe, a
step that ends gives what the next one needs, and one that stops is not part of
a start that is fit to migrate.
-/

namespace CyberGuard.Service
set_option autoImplicit false
open Checks CrashLogic Start MigrationCustody ConsoleInstallation List

section rules
variable {B α ε : Type} {H : Host B} {faults : Prop} {C : Disk B → Prop} {d t : Disk B}

theorem wp_watch {point : Point} {Q : Unit → Disk B → Prop} {F : Injected → Disk B → Prop}
    (hC : C d) (hQ : Q () d) (hF : faults → ∀ cut, F cut d) :
    Wp (device H faults) C (watch point) Q F d := by
  refine ⟨hC, fun _ hpartly => hpartly.elim, ?_⟩
  rintro answer _ ⟨rfl, hok | hfault⟩
  · subst hok
    exact ⟨hC, hQ⟩
  · cases answer with
    | ok _ => exact ⟨hC, hQ⟩
    | error cut => exact ⟨hC, hF hfault cut⟩

variable {Q : α → Disk B → Prop} {F : String → Disk B → Prop} {unfit : Prop}

theorem wp_command {c : Command B} {Q : Unit → Disk B → Prop} (hC : C d)
    (hpartly : ∀ t, d.Partly (torn H) c t → C t) (hok : ∀ t, d.perform c = .ok t → C t ∧ Q () t)
    (herror : ∀ reason, d.perform c = .error reason → F reason d)
    (hfault : faults → ∀ reason t, C t → t = d ∨ d.Partly (torn H) c t → F reason t) :
    Wp (device H faults) C (command c) Q F d := by
  refine ⟨hC, hpartly, ?_⟩
  rintro answer t (⟨rfl, ht⟩ | ⟨reason, rfl, hreason, rfl⟩ | ⟨hfaults, reason, rfl, ht⟩)
  · exact hok t ht
  · exact ⟨hC, herror reason hreason⟩
  · have hsafe : C t := by
      rcases ht with rfl | ⟨_, ht⟩
      · exact hC
      · exact hpartly t ht
    exact ⟨hsafe, hfault hfaults reason t hsafe (ht.imp_right And.right)⟩

/-- A command the disk's state allows, done at once or not at all. -/
theorem wp_done {c : Command B} {Q : Unit → Disk B → Prop} (hwhole : ∀ t, ¬ d.Partly (torn H) c t)
    (hperform : d.perform c = .ok t) (hd : C d) (ht : C t) (hQ : Q () t)
    (hF : faults → ∀ reason, F reason d) :
    Wp (device H faults) C (command c) Q F d := by
  refine wp_command hd (fun t hpartly => absurd hpartly (hwhole t)) ?_ ?_ ?_
  · intro t' ht'
    rw [hperform] at ht'
    cases ht'
    exact ⟨ht, hQ⟩
  · intro reason herror
    rw [hperform] at herror
    cases herror
  · intro hfaults reason t' _ ht'
    rcases ht' with rfl | hpartly
    · exact hF hfaults reason
    · exact absurd hpartly (hwhole t')

theorem wp_access {path : String} {Q : Unit → Disk B → Prop} (hC : C d) (hQ : Q () d)
    (hF : faults → ∀ reason, F reason d) :
    Wp (device H faults) C (command (.access path)) Q F d :=
  wp_done (fun _ h => h) rfl hC hC hQ hF

theorem wp_ok {x : Except ε α} {a : α} {F : ε → Disk B → Prop} (hx : x = .ok a) (hC : C d)
    (hQ : Q a d) :
    Wp (device H faults) C (.ofExcept x : Start B ε α) Q F d := by
  subst hx
  exact ⟨hC, hQ⟩

theorem wp_disk {f : Disk B → Start B ε α} {F : ε → Disk B → Prop}
    (h : Wp (device H faults) C (f d) Q F d) :
    Wp (device H faults) C (Start.disk >>= f) Q F d := h

theorem wp_orFailure {p : Start B String α} {F : Disk B → Prop}
    (h : Wp (device H faults) C p Q (fun _ t => F t) d) :
    Wp (device H faults) C (orFailure p) Q (fun _ t => F t) d :=
  h.orElse fun _ _ ht hF => ⟨ht, hF⟩

theorem wp_inPlace {E : Environment} {code : Nat} {line : String} (hC : C d) (hunfit : unfit) :
    Wp (device H faults) C (inPlace E code line) Q (fun _ _ => unfit) d := ⟨hC, hunfit⟩

theorem wp_cutInPlace {E : Environment} {code : Nat} {render : String → String} (hC : C d)
    (hunfit : unfit) (cut : Injected) :
    Wp (device H faults) C (cutInPlace E code render cut) Q (fun _ _ => unfit) d := by
  cases cut with
  | failure reason => exact wp_inPlace hC hunfit
  | crash => exact ⟨hC, hunfit⟩

theorem wp_refusing {p : Start B ε α} {g : ε → Start B Stop α}
    (h : Wp (device H faults) C p Q (fun _ _ => unfit) d)
    (hg : ∀ e t, C t → unfit → Wp (device H faults) C (g e) Q (fun _ _ => unfit) t) :
    Wp (device H faults) C (p.handle g) Q (fun _ _ => unfit) d :=
  h.orElse hg

end rules

variable {B : Type} [DecidableEq B] {H : Host B} {R : Request}

/-- Nothing fails on the way, the request names the trust anchor, the identity has not expired, the
lock is granted and the host has a name. -/
structure Fit {paths : InstalledPaths} (L : ConsoleInstallation H paths) (R : Request)
    (E : Environment) (lock : Except Stop Unit) (faults : Prop) : Prop where
  calm : ¬ faults
  named : L.Named R
  unexpired : E.now < L.expiresAt
  locked : lock = .ok ()
  hostname : ∃ name, E.hostname = .ok name ∧ name ≠ ""

variable {E : Environment} {L : ConsoleInstallation H E.paths} {lock : Except Stop Unit}
  {faults : Prop}

theorem Fit.not_faults (hfault : faults) : ¬ Fit L R E lock faults := fun hfit => hfit.calm hfault

theorem wp_close {C : Disk B → Prop} {d t : Disk B} {found : Disk B → Option (Node B)}
    {path : String} {target : Target} {point : Point} {node : Node B} (hfound : found d = some node)
    (hshape : node.checkShape path .directory = .ok ())
    (hclosable : checkClosable node.security path = .ok ())
    (hperform : d.perform (.setSecurity target closedDirectory) = .ok t) (hd : C d) (ht : C t) :
    Wp (device H faults) C (close E found path target point) (fun _ s => s = t)
      (fun _ _ => ¬ Fit L R E lock faults) d := by
  refine wp_refusing ?_ fun cut _ hC hunfit => wp_cutInPlace hC hunfit _
  refine wp_bind (wp_watch hd ?_ fun h _ => Fit.not_faults h)
  refine wp_orFailure (wp_bind (wp_access hd ?_ fun h _ => Fit.not_faults h))
  refine wp_disk (wp_bind (wp_ok (okOr_eq_ok.mpr hfound) hd ?_))
  refine wp_bind (wp_ok hshape hd ?_)
  refine wp_bind (wp_ok hclosable hd ?_)
  exact wp_done (fun _ h => h) hperform hd ht rfl fun h _ => Fit.not_faults h

section steps
variable {root : Object Unit} {security : Descriptor} {entries : Listing B}
  {staging : Option (Node B)}

theorem closable_root (hroot : L.Root root) : checkClosable root.security E.paths.productRoot = .ok () := by
  rcases hroot with rfl | rfl
  · exact L.productRoot_closable
  · exact closable_closedDirectory _

theorem closable_data (hsecurity : L.Security security) :
    checkClosable security E.paths.dataRoot = .ok () := by
  rcases hsecurity with rfl | rfl
  · exact L.dataRoot_closable
  · exact closable_closedDirectory _

theorem plain_root (hroot : L.Root root) : root.reparsePoint = false := by
  rcases hroot with rfl | rfl <;> exact L.productRoot_plain

theorem close_root (hroot : L.Root root) :
    { root with security := closedDirectory } = L.closedRoot := by
  rcases hroot with rfl | rfl <;> rfl

/-- Closed, the console layout is as it was, the two directories aside. -/
theorem wp_closeDirectories (hroot : L.Root root)
    (hsecurity : L.Security security) (hkept : L.Kept entries) (hstaging : L.Staging R staging) :
    Wp (device H faults) (L.Safe R) (closeDirectories E)
      (fun _ t => t = L.closed entries staging)
      (fun _ _ => ¬ Fit L R E lock faults)
      ⟨root, some (L.data security entries), staging, none, []⟩ := by
  refine (wp_close (t := ⟨L.closedRoot, some (L.data security entries), staging, none, []⟩) rfl ?_
    (closable_root hroot) ?_ (.console hroot hsecurity hkept hstaging)
    (.console (.inr rfl) hsecurity hkept hstaging)).andThen ?_
  · simp [Object.checkShape, Disk.productNode, plain_root hroot, Content.isDirectory]
  · rw [← close_root hroot]
    rfl
  · rintro _ _ _ rfl
    refine wp_close rfl ?_ (closable_data hsecurity) rfl (.console (.inr rfl) hsecurity hkept hstaging)
      (.console (.inr rfl) (.inr rfl) hkept hstaging)
    simp [Object.checkShape, ConsoleInstallation.data, L.dataRoot_plain, Content.isDirectory]

theorem wp_deleteInterruptedStaging {files : Listing B} (hkept : L.Kept entries)
    (hrecordless : Recordless H files) :
    Wp (device H faults) (L.Safe R) (deleteInterruptedStaging E)
      (fun _ t => t = L.closed entries none) (fun _ _ => ¬ Fit L R E lock faults)
      (L.closed entries (some (staged files))) := by
  have hsafe : L.Safe R (L.closed entries (some (staged files))) :=
    safe_closed hkept (.inr ⟨files, rfl, .inl hrecordless⟩)
  refine wp_refusing ?_ fun cut _ hC hunfit => wp_cutInPlace hC hunfit _
  refine wp_bind (wp_handle (wp_watch hsafe ?_ fun h _ => ⟨hsafe, Fit.not_faults h⟩))
  refine wp_orFailure (wp_command hsafe ?_ ?_ ?_ fun h _ _ _ _ => Fit.not_faults h)
  · rintro t ⟨_, after, hstaging, hremains, rfl⟩
    cases hstaging
    exact safe_closed hkept (.inr ⟨after, rfl, .inl (hrecordless.remains hremains)⟩)
  · rintro t ht
    cases ht
    exact ⟨safe_closed hkept (.inl rfl), rfl⟩
  · intro reason hreason
    cases hreason

/-- A staging directory is only there where the start continues its migration. -/
def Awaited (attempt : Attempt) (staging : Option (Node B)) : Prop :=
  staging = none ∨ attempt.recorded.isSome = true

variable {names : List Name} {name : Name}

theorem checkPresent_ok {root : String} {wanted : List Name} (h : ∀ name ∈ wanted, name ∈ names) :
    checkPresent root names wanted = .ok () := by
  induction wanted with
  | nil => rfl
  | cons name rest ih =>
    simp only [checkPresent, bind_eq_ok, refuseIf_eq_ok]
    exact ⟨(), by simpa using h name mem_cons_self,
      ih fun other hother => h other (mem_cons_of_mem _ hother)⟩

def ConsoleInstallation.checkedFiles {paths : InstalledPaths} (L : ConsoleInstallation H paths) :
    List (Name × FileId) :=
  (inOrder L.names).map fun name => (name, L.idOf name)

theorem mem_inOrder : name ∈ inOrder names ↔ name ∈ names :=
  (perm_insertionSort _ names).mem_iff

def ConsoleInstallation.verified {paths : InstalledPaths} (L : ConsoleInstallation H paths) :
    Verified B where
  configText := L.configText
  certificates := L.certificates
  certificate := L.bytes .cert
  sealedKey := L.bytes .key
  identity := L.bytes .identity
  agentId := L.agentId
  keyFingerprint := L.keyFingerprint

theorem checkAnchor_ok {certificates : List B} :
    checkAnchor H (L.bytes .anchor) R.fingerprints = .ok certificates ↔
      L.Named R ∧ certificates = L.certificates := by
  simp only [checkAnchor, L.anchor_read, okOr, bind_eq_ok, refuseIf_eq_ok, pure_eq_ok,
    Except.ok.injEq, exists_eq_left', Bool.not_eq_false']
  constructor
  · rintro ⟨_, hnamed, rfl⟩
    exact ⟨hnamed, rfl⟩
  · rintro ⟨hnamed, rfl⟩
    exact ⟨(), hnamed, rfl⟩

omit [DecidableEq B] in
theorem take_map {f : Name → B} (h : name ∈ names) :
    take H (names.map fun name => (name, f name)) name = f name := by
  induction names with
  | nil => simp at h
  | cons other rest ih =>
    by_cases heq : name = other
    · simp [take, heq]
    · have hne : (name == other) = false := by simpa using heq
      simpa [take, lookup_cons, hne] using ih (mem_of_ne_of_mem heq h)

omit [DecidableEq B] in
theorem checkLinks_ok {node : Node B} {path : String} (h : node.links = 1) :
    checkLinks node path = .ok node.id := by
  simp only [checkLinks, bind_eq_ok, refuseIf_eq_ok, pure_eq_ok]
  exact ⟨(), by simpa using h, trivial⟩

section closed
variable (hkept : L.Kept entries) (hstaging : L.Staging R staging)
include hkept hstaging

theorem wp_checkRootEntries {expected : Bool} (hexpected : staging = none ∨ expected = true) :
    Wp (device H faults) (L.Safe R) (checkRootEntries E expected)
      (fun _ t => t = L.closed entries staging) (fun _ _ => ¬ Fit L R E lock faults)
      (L.closed entries staging) := by
  have hsafe := safe_closed hkept hstaging
  refine wp_bind (wp_access hsafe ?_ fun h _ => Fit.not_faults h)
  refine wp_ok (a := ()) ?_ hsafe rfl
  rcases hexpected with rfl | rfl
  · cases expected <;> rfl
  · cases staging <;> rfl

theorem wp_dataRootNames :
    Wp (device H faults) (L.Safe R) (dataRootNames E)
      (fun names t => names = L.names ∧ t = L.closed entries staging)
      (fun _ _ => ¬ Fit L R E lock faults) (L.closed entries staging) := by
  have hsafe := safe_closed hkept hstaging
  refine wp_bind (wp_access hsafe ?_ fun h _ => Fit.not_faults h)
  refine wp_ok ?_ hsafe ⟨rfl, rfl⟩
  show dataRootNamesOf _ [] (entries.map (·.1)) = _
  rw [names_restricted hkept]
  exact L.names_eq

theorem wp_openFile {node : Node B}
    (hnode : Entries.lookup asciiLowercase entries name.text = some node) :
    Wp (device H faults) (L.Safe R) (openFile E name)
      (fun found t => found = node ∧ t = L.closed entries staging)
      (fun _ _ => ¬ Fit L R E lock faults) (L.closed entries staging) := by
  have hsafe := safe_closed hkept hstaging
  refine wp_bind (wp_access hsafe ?_ fun h _ => Fit.not_faults h)
  exact wp_ok (okOr_eq_ok.mpr hnode) hsafe ⟨rfl, rfl⟩

theorem wp_checkFiles (hnames : ∀ name ∈ names, name ∈ L.names) (checked : Checked)
    (haccount : checked.enrollingAccount = none ∨ checked.enrollingAccount = some L.account) :
    Wp (device H faults) (L.Safe R) (checkFiles E names checked)
      (fun result t => result.files = checked.files ++ names.map (fun name => (name, L.idOf name)) ∧
        t = L.closed entries staging)
      (fun _ _ => ¬ Fit L R E lock faults) (L.closed entries staging) := by
  have hsafe := safe_closed hkept hstaging
  induction names generalizing checked with
  | nil => exact ⟨hsafe, by simp, rfl⟩
  | cons name rest ih =>
    have hrest : ∀ other ∈ rest, other ∈ L.names :=
      fun other hother => hnames other (mem_cons_of_mem _ hother)
    obtain ⟨node, other, hlookup, -, hid, hcheck, hother⟩ :=
      file_kept hkept (hnames name mem_cons_self)
    refine wp_bind (wp_refusing (wp_watch hsafe ?_ fun h _ => Fit.not_faults h)
      fun cut _ hC hunfit => wp_cutInPlace hC hunfit _)
    refine (wp_refusing (wp_openFile hkept hstaging hlookup)
      fun _ _ hC hunfit => wp_inPlace hC hunfit).andThen ?_
    rintro _ _ _ ⟨rfl, rfl⟩
    rw [hid] at hcheck
    refine wp_bind (wp_handle (wp_ok hcheck hsafe ?_))
    rcases hother with rfl | rfl
    · refine (ih hrest ⟨checked.files ++ [(name, L.idOf name)], checked.enrollingAccount⟩ haccount).mono
        (fun result _ _ hresult => ?_) fun _ _ _ he => he
      exact ⟨by simpa using hresult.1, hresult.2⟩
    · have hsame : ¬ checked.enrollingAccount.any (· != L.account) = true := by
        rcases haccount with h | h <;> simp [h]
      show Wp _ _ (if _ then _ else _) _ _ _
      rw [if_neg hsame]
      refine (ih hrest ⟨checked.files ++ [(name, L.idOf name)], some L.account⟩ (.inr rfl)).mono
        (fun result _ _ hresult => ?_) fun _ _ _ he => he
      exact ⟨by simpa using hresult.1, hresult.2⟩

theorem wp_checkWhatIsThere {attempt : Attempt} (hawaited : Awaited attempt staging) :
    Wp (device H faults) (L.Safe R) (checkWhatIsThere E attempt)
      (fun checked t => checked.files = L.checkedFiles ∧ t = L.closed entries staging)
      (fun _ _ => ¬ Fit L R E lock faults) (L.closed entries staging) := by
  have hsafe := safe_closed hkept hstaging
  have hrefuse : ∀ {α : Type} {Q : α → Disk B → Prop} (reason : String) (t : Disk B), L.Safe R t →
      ¬ Fit L R E lock faults →
      Wp (device H faults) (L.Safe R) (identityRefusal E reason) Q (fun _ _ => ¬ Fit L R E lock faults) t :=
    fun _ _ hC hunfit => wp_inPlace hC hunfit
  refine (wp_refusing (wp_checkRootEntries hkept hstaging hawaited) hrefuse).andThen ?_
  rintro _ _ _ rfl
  refine wp_bind (wp_refusing (wp_access hsafe ?_ fun h _ => Fit.not_faults h) hrefuse)
  refine wp_disk (wp_bind (wp_handle (wp_ok (okOr_eq_ok.mpr rfl) hsafe ?_)))
  show Wp _ _ (if _ then _ else _) _ _ _
  rw [if_neg (by simp [ConsoleInstallation.data, Content.caseSensitive])]
  refine (wp_refusing (wp_dataRootNames hkept hstaging) hrefuse).andThen ?_
  rintro _ _ _ ⟨rfl, rfl⟩
  refine wp_bind (wp_handle (wp_ok (checkPresent_ok L.required_names) hsafe ?_))
  refine (wp_checkFiles hkept hstaging (fun name => mem_inOrder.mp) ⟨[], none⟩ (.inl rfl)).mono ?_
    fun _ _ _ he => he
  intro checked _ _ hchecked
  exact ⟨by simpa [ConsoleInstallation.checkedFiles] using hchecked.1, hchecked.2⟩

theorem wp_readFiles (hnames : ∀ name ∈ names, name ∈ L.names) (found : List (Name × B)) :
    Wp (device H faults) (L.Safe R)
      (readFiles H E (names.map fun name => (name, L.idOf name)) found)
      (fun bytes t => bytes = found ++
          (names.filter (· ≠ .temporary)).map (fun name => (name, L.bytes name)) ∧
        t = L.closed entries staging)
      (fun _ _ => ¬ Fit L R E lock faults) (L.closed entries staging) := by
  have hsafe := safe_closed hkept hstaging
  induction names generalizing found with
  | nil => exact ⟨hsafe, by simp, rfl⟩
  | cons name rest ih =>
    have hrest : ∀ other ∈ rest, other ∈ L.names :=
      fun other hother => hnames other (mem_cons_of_mem _ hother)
    show Wp _ _ (if _ then _ else _) _ _ _
    by_cases htemporary : name = .temporary
    · rw [if_pos htemporary]
      refine (ih hrest found).mono (fun bytes _ _ hbytes => ?_) fun _ _ _ he => he
      exact ⟨by simpa [htemporary] using hbytes.1, hbytes.2⟩
    · have hname := hnames name mem_cons_self
      obtain ⟨node, other, hlookup, hcontent, hid, hcheck, -⟩ := file_kept hkept hname
      have hread : readUnshared H node (E.dataFile name) = .ok (L.bytes name, L.idOf name) := by
        have hshape := checkFile_shape hcheck
        have hsize := L.sizes name hname htemporary
        simp only [readUnshared, hcontent, bind_eq_ok, refuseIf_eq_ok, pure_eq_ok]
        exact ⟨(), by simp [Object.checkShape, hshape, hcontent, Content.isDirectory], (),
          by simpa using hsize, by rw [hid]⟩
      rw [if_neg htemporary]
      refine wp_bind (wp_refusing (wp_watch hsafe ?_ fun h _ => Fit.not_faults h)
        fun cut _ hC hunfit => wp_cutInPlace hC hunfit _)
      refine (wp_refusing (wp_openFile hkept hstaging hlookup)
        fun _ _ hC hunfit => wp_inPlace hC hunfit).andThen ?_
      rintro _ _ _ ⟨rfl, rfl⟩
      refine wp_bind (wp_handle (wp_ok hread hsafe ?_))
      show Wp _ _ (if _ then _ else _) _ _ _
      rw [if_neg (by simp)]
      refine (ih hrest _).mono (fun bytes _ _ hbytes => ?_) fun _ _ _ he => he
      exact ⟨by simpa [htemporary] using hbytes.1, hbytes.2⟩

theorem wp_readEachFile {attempt : Attempt}
    (hrecorded : ∀ record ∈ attempt.recorded, L.Matches R record) {checked : Checked}
    (hchecked : checked.files = L.checkedFiles) :
    Wp (device H faults) (L.Safe R) (readEachFile H E R attempt checked)
      (fun verified t => verified = L.verified ∧ L.Named R ∧ t = L.closed entries staging)
      (fun _ _ => ¬ Fit L R E lock faults) (L.closed entries staging) := by
  have hsafe := safe_closed hkept hstaging
  unfold readEachFile
  rw [hchecked]
  refine (wp_readFiles hkept hstaging (fun name => mem_inOrder.mp) []).andThen ?_
  rintro _ _ _ ⟨rfl, rfl⟩
  have htake : ∀ name ∈ required, take H ([] ++ ((inOrder L.names).filter (· ≠ .temporary)).map
      fun name => (name, L.bytes name)) name = L.bytes name := by
    intro name hname
    refine take_map (mem_filter.mpr ⟨mem_inOrder.mpr (L.required_names name hname), ?_⟩)
    revert name
    decide
  simp only [htake .config (by decide), htake .anchor (by decide), htake .key (by decide),
    htake .cert (by decide), htake .identity (by decide)]
  refine wp_bind (wp_handle (wp_ok L.config_accepted hsafe ?_))
  by_cases hnamed : L.Named R
  swap
  · cases hanchor : checkAnchor H (L.bytes .anchor) R.fingerprints with
    | ok certificates => exact absurd (checkAnchor_ok.mp hanchor).1 hnamed
    | error reason => exact wp_bind (wp_inPlace hsafe fun hfit => hnamed hfit.named)
  refine wp_bind (wp_handle (wp_ok (checkAnchor_ok.mpr ⟨hnamed, rfl⟩) hsafe ?_))
  cases hidentity : checkIdentity H E.now attempt.recorded (L.bytes .key) (L.bytes .cert)
      (L.bytes .identity) with
  | ok result =>
    obtain rfl := L.identity_same hidentity
    exact ⟨hsafe, rfl, hnamed, rfl⟩
  | error reason =>
    refine wp_bind (wp_inPlace hsafe fun hfit => ?_)
    rw [L.identity_again hfit.unexpired hrecorded] at hidentity
    cases hidentity

theorem wp_restrictFile (hname : name ∈ L.names) :
    Wp (device H faults) (L.Safe R) (restrictFile E name (L.idOf name))
      (fun _ t => ∃ after, L.Kept after ∧ t = L.closed after staging)
      (fun _ _ => ¬ Fit L R E lock faults) (L.closed entries staging) := by
  have hsafe := safe_closed hkept hstaging
  obtain ⟨node, other, hlookup, -, hid, hcheck, -⟩ := file_kept hkept hname
  have hlinks : node.links = 1 := (checkFile_shape hcheck).2
  have hafter := adjust_restricted hkept name.text
  have hperform : (L.closed entries staging).perform (.setSecurity (.file name.text) sharedFile) =
      .ok (L.closed (Entries.adjust asciiLowercase entries name.text
        ({ · with security := sharedFile })) staging) := by
    simp [Disk.perform, Disk.setSecurity, Disk.changeEntries, ConsoleInstallation.data, hlookup]
  have hagain : Entries.lookup asciiLowercase (Entries.adjust asciiLowercase entries name.text
      ({ · with security := sharedFile })) name.text =
        some { node with security := sharedFile } := by
    simp [Entries.lookup_adjust, hlookup]
  refine wp_bind (wp_watch hsafe ?_ fun h _ => Fit.not_faults h)
  refine wp_bind (wp_orFailure ((wp_openFile hkept hstaging hlookup).andThen ?_))
  rintro _ _ _ ⟨rfl, rfl⟩
  refine wp_bind (wp_ok (checkLinks_ok hlinks) hsafe ?_)
  refine wp_bind (wp_ok (a := ()) (by simpa using hid) hsafe ?_)
  refine wp_done (fun _ h => h) hperform hsafe (safe_closed hafter hstaging) ?_
    fun h _ => Fit.not_faults h
  refine wp_bind (wp_watch (safe_closed hafter hstaging) ?_ fun h _ => Fit.not_faults h)
  refine wp_orFailure (wp_disk (wp_bind (wp_ok (okOr_eq_ok.mpr hagain)
    (safe_closed hafter hstaging) ?_)))
  exact wp_bind (wp_ok (checkLinks_ok hlinks) (safe_closed hafter hstaging)
    ⟨safe_closed hafter hstaging, _, hafter, rfl⟩)

theorem wp_restrictFiles {checked : Checked} (hchecked : checked.files = L.checkedFiles) :
    Wp (device H faults) (L.Safe R) (restrictFiles E checked)
      (fun _ t => ∃ after, L.Kept after ∧ t = L.closed after staging)
      (fun _ _ => ¬ Fit L R E lock faults) (L.closed entries staging) := by
  -- what is still to be restricted are files of the installation
  refine (wp_forEach (I := fun rest t => (∀ file ∈ rest, file.1 ∈ L.names ∧ file.2 = L.idOf file.1) ∧
    ∃ after, L.Kept after ∧ t = L.closed after staging) ?_ ?_ ⟨?_, entries, hkept, rfl⟩).mono
      (fun _ _ _ h => h.2) fun _ _ _ he => he
  · rintro ⟨name, id⟩ rest _ ⟨hfiles, before, hbefore, rfl⟩
    obtain ⟨hname, hid⟩ := hfiles _ mem_cons_self
    dsimp only at hname hid
    subst hid
    refine (wp_refusing (wp_restrictFile hbefore hstaging hname)
      fun cut _ hC hunfit => wp_cutInPlace hC hunfit _).mono (fun _ _ _ h => ?_) fun _ _ _ he => he
    exact ⟨fun file hfile => hfiles file (mem_cons_of_mem _ hfile), h⟩
  · rintro _ ⟨-, after, hafter, rfl⟩
    exact safe_closed hafter hstaging
  · intro file hfile
    rw [hchecked] at hfile
    obtain ⟨name, hname, rfl⟩ := mem_map.mp hfile
    exact ⟨mem_inOrder.mp hname, rfl⟩

end closed

end steps

end CyberGuard.Service
