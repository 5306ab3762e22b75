import CyberGuard.Service.InstalledIdentity
import CyberGuard.Service.X509

/-!
# The identity fails closed

Once there is an identity directory no start enrolls, whatever an earlier one left in it:
a start returns the identity in it or ends with code 5. Nothing in it is ever replaced.
-/

namespace CyberGuard.Service.InstalledIdentity
set_option autoImplicit false
open Checks CrashLogic

variable {B : Type}

def Grows (before after : Option (Node B)) : Prop :=
  ∀ directory, before = some directory → ∃ directory', after = some directory' ∧
    ∀ name node, directory.child name = some node → directory'.child name = some node

theorem Grows.refl (directory : Option (Node B)) : Grows directory directory :=
  fun directory h => ⟨directory, h, fun _ _ hchild => hchild⟩

theorem Grows.trans {first second third : Option (Node B)} (h : Grows first second)
    (h' : Grows second third) : Grows first third := by
  intro directory hfirst
  obtain ⟨directory', hsecond, hkept⟩ := h directory hfirst
  obtain ⟨directory'', hthird, hkept'⟩ := h' directory' hsecond
  exact ⟨directory'', hthird, fun name node hchild => hkept' name node (hkept name node hchild)⟩

def Held (t : State B) : Prop :=
  ∀ file ∈ t.created, t.file file.1 = some (newFile MigrationCustody.identityFile file.2)

structure Kept (found : Option (Node B)) (t : State B) : Prop where
  grows : Grows found t.directory
  held : Held t

theorem file_of_grows {s t : State B} (h : Grows s.directory t.directory) {name : Name}
    {node : Node B} (hfile : s.file name = some node) : t.file name = some node := by
  obtain ⟨directory, hdirectory, hchild⟩ := Option.bind_eq_some_iff.mp hfile
  obtain ⟨directory', ht, hkept⟩ := h directory hdirectory
  rw [State.file, ht]
  exact hkept name.text node hchild

variable {s t : State B} {name : Name} {bytes : B}

/-- The name was free, so what is under any other name stays. -/
theorem creates_spec (h : s.Creates name bytes t) :
    Grows s.directory t.directory ∧ t.created = s.created ++ [(name, bytes)] ∧
      t.file name = some (newFile MigrationCustody.identityFile bytes) := by
  obtain ⟨hchange⟩ := h
  obtain ⟨entries, after, hcreate, hbefore, hafter⟩ := Disk.changeEntries_eq_ok hchange
  obtain ⟨hfree, rfl⟩ := Disk.create_eq_ok hcreate
  refine ⟨?_, rfl, (hafter name.text).trans Entries.lookup_put_self⟩
  intro before hdirectory
  refine ⟨_, rfl, ?_⟩
  intro other node hchild
  have hentry : Entries.lookup asciiLowercase entries other = some node := by
    rw [← hbefore, hdirectory]
    exact hchild
  have hother : asciiLowercase other ≠ asciiLowercase name.text := by
    intro hsame
    unfold Entries.lookup at hentry hfree
    rw [hsame, hfree] at hentry
    cases hentry
  rw [hafter, Entries.lookup_put_of_ne hother]
  exact hentry

theorem Kept.creates {found : Option (Node B)} (h : Kept found s) (hcreates : s.Creates name bytes t) :
    Kept found t := by
  obtain ⟨hgrows, hcreated, hfile⟩ := creates_spec hcreates
  refine ⟨h.grows.trans hgrows, ?_⟩
  intro file hmem
  rw [hcreated] at hmem
  rcases List.mem_append.mp hmem with hold | hnew
  · exact file_of_grows hgrows (h.held file hold)
  · rw [List.mem_singleton.mp hnew]
    exact hfile

/-- No operation replaces anything. -/
theorem Kept.answers {found : Option (Node B)} {o : Op B} {answer : o.Answer} (h : Kept found s)
    (hanswer : Answers o s answer t) : Kept found t := by
  cases hanswer with
  | directoryCreated hnone =>
    refine ⟨?_, ?_⟩
    · intro directory hfound
      obtain ⟨_, hdirectory, -⟩ := h.grows directory hfound
      rw [hnone] at hdirectory
      cases hdirectory
    · intro file hmem
      have hfile := h.held file hmem
      rw [State.file, hnone] at hfile
      cases hfile
  | fileCreated hcreates => exact h.creates hcreates
  | fileTorn torn error hcreates => exact h.creates hcreates
  | _ => exact ⟨h.grows, h.held⟩

theorem Kept.partly {found : Option (Node B)} {o : Op B} (h : Kept found s) (hpartly : Partly o s t) :
    Kept found t := by
  cases hpartly with
  | createFile torn hcreates => exact h.creates hcreates

theorem Kept.run {found : Option (Node B)} {α : Type} {p : IdentityProg B α}
    {out : Outcome EnrollmentError α} (h : Kept found s) (hrun : Run device p s out t) :
    Kept found t := by
  have hwp : Wp device (Kept found) p (fun _ _ => True) (fun _ _ => True) s :=
    wp_of_invariant (fun _ _ _ hs ht => hs.partly ht) (fun _ _ _ _ hs ht => hs.answers ht) h p
  exact (hwp.sound hrun).1

section Later
variable [DecidableEq B] {F : Formats B} {H : Host B} {identityDir : String} {config : AgentConfig}

omit [DecidableEq B] in
theorem checkIfExists_eq_ok {found : Option (Node B)} {path : String} {kind : Kind}
    {policy : Policy} {there : Bool} (h : checkIfExists found path kind policy = .ok there) :
    there = found.isSome := by
  cases found with
  | none =>
    cases h
    rfl
  | some node =>
    simp only [checkIfExists, bind_eq_ok, pure_eq_ok] at h
    obtain ⟨_, _, _, _, rfl⟩ := h
    rfl

omit [DecidableEq B] in
theorem missingFiles_eq_nil {files : List (String × String × Name)}
    (h : missingFiles s files = .ok []) : ∀ file ∈ files, (s.file file.2.2).isSome = true := by
  induction files with
  | nil => exact fun _ hmem => nomatch hmem
  | cons head rest ih =>
    obtain ⟨label, path, file⟩ := head
    simp only [missingFiles, bind_eq_ok, pure_eq_ok] at h
    obtain ⟨there, hthere, missing, hrest, hnil⟩ := h
    have hfound := checkIfExists_eq_ok hthere
    cases there with
    | false => cases hnil
    | true =>
      have hmissing : missing = [] := hnil
      subst hmissing
      intro other hmem
      rcases List.mem_cons.mp hmem with rfl | hother
      · exact hfound.symm
      · exact ih hrest other hother

theorem exitCode_mapError {α ε : Type} {x : Except ε α} {f : ε → String} {e : EnrollmentError}
    (h : x.mapError (fun reason => .persistence (f reason)) = .error e) : e.exitCode = 5 := by
  cases x with
  | ok a => cases h
  | error reason =>
    cases h
    rfl

omit [DecidableEq B] in
theorem check_spec (hconfig : config.enrollment.isSome = true) (hthere : s.directory.isSome = true) :
    (∃ e, check identityDir config s = .error e ∧ e.exitCode = 5) ∨
      (check identityDir config s = .ok () ∧ isEnrolled config s = true) := by
  obtain ⟨enr, henr⟩ := Option.isSome_iff_exists.mp hconfig
  unfold check
  rw [henr]
  simp only [okOr, bind, Except.bind]
  cases hdirectory : checkIfExists s.directory identityDir .directory MigrationCustody.identity with
  | error reason => exact Or.inl ⟨_, rfl, rfl⟩
  | ok there =>
    rw [checkIfExists_eq_ok hdirectory, hthere]
    simp only [Except.mapError, Bool.not_true, Bool.false_eq_true, if_false]
    cases hmissing : missingFiles s (setFiles enr) with
    | error reason => exact Or.inl ⟨_, rfl, rfl⟩
    | ok missing =>
      cases missing with
      | cons first rest => exact Or.inl ⟨_, rfl, rfl⟩
      | nil =>
        have hall := missingFiles_eq_nil hmissing
        have hcert := hall ("the certificate", enr.certPath, .cert) (by simp [setFiles])
        have hkey := hall ("the key", enr.keyPath, .key) (by simp [setFiles])
        refine Or.inr ⟨rfl, ?_⟩
        rw [isEnrolled, henr, hcert, hkey]
        rfl

theorem load_error {e : EnrollmentError} (h : load H s = .error e) : e.exitCode = 5 := by
  unfold load at h
  cases hload : loadIdentity H s.directory with
  | error reason =>
    rw [hload] at h
    cases h
    rfl
  | ok identity =>
    rw [hload] at h
    simp only [Except.mapError, bind, Except.bind] at h
    split at h
    · rename_i hconsistency
      cases h
      exact exitCode_mapError hconsistency
    · cases h

/-- Such a start asks for nothing. -/
theorem wp_startService (hconfig : config.enrollment.isSome = true)
    (hthere : s.directory.isSome = true) {more : Nat} :
    Wp device (fun t => t = s) (startService F H identityDir config more)
      (fun result _ => ∃ identity, result = some identity) (fun e _ => e.exitCode = 5) s := by
  obtain ⟨enr, henr⟩ := Option.isSome_iff_exists.mp hconfig
  refine wp_bind ?_
  show Wp device _ (.ofExcept (check identityDir config s)) _ _ s
  rcases check_spec hconfig hthere with ⟨e, hcheck, hcode⟩ | ⟨hcheck, henrolled⟩
  · rw [hcheck]
    exact ⟨rfl, hcode⟩
  · rw [hcheck]
    refine ⟨rfl, wp_handle (wp_bind (wp_bind ?_))⟩
    rw [henr]
    refine ⟨rfl, ?_⟩
    show Wp device _ (if isEnrolled config s = true then _ else _) _ _ s
    rw [if_pos henrolled]
    cases hload : load H s with
    | ok identity => exact ⟨rfl, rfl, identity, rfl⟩
    | error e =>
      have hcode := load_error hload
      have hstops : e.retried = false := by
        cases e with
        | unreachable attempts lastError => cases hcode
        | _ => rfl
      refine ⟨rfl, ?_⟩
      dsimp only
      rw [hstops]
      exact ⟨rfl, hcode⟩

end Later

section Returned
variable [DecidableEq B] {F : Formats B} {H : Host B} {identityDir : String} {config : AgentConfig}

def Passes (H : Host B) (identity : Identity B) : Prop :=
  checkConsistency H identity.clientCertificatePem identity.publicKey identity.agentId = .ok ()

theorem load_eq_ok {identity : Identity B} (h : load H s = .ok identity) : Passes H identity := by
  simp only [load, bind_eq_ok, mapError_eq_ok, pure_eq_ok] at h
  obtain ⟨loaded, -, _, hconsistency, rfl⟩ := h
  exact hconsistency

omit [DecidableEq B] in
theorem wp_enroll :
    Wp device (fun _ => True) (enroll F H config)
      (fun enrolled _ => enrolled.publicKey = H.publicKey enrolled.secretSeed) (fun _ _ => True)
      s := by
  refine (wp_trivial _ _).andThen fun enr _ _ _ => ?_
  refine (wp_trivial _ _).andThen fun token _ _ _ => ?_
  refine (wp_trivial _ _).andThen fun seed _ _ _ => ?_
  refine (wp_trivial _ _).andThen fun _ _ _ _ => ?_
  refine (wp_trivial _ _).andThen fun response _ _ _ => ?_
  exact ⟨trivial, rfl⟩

theorem wp_enrollAnew :
    Wp device (fun _ => True) (enrollAnew F H identityDir config)
      (fun identity _ => Passes H identity) (fun _ _ => True) s := by
  refine wp_enroll.andThen fun enrolled t _ hkey => ?_
  refine ((wp_ofExcept_self trivial).mono (fun _ _ _ hq => hq) fun _ _ _ _ => trivial).andThen ?_
  rintro _ _ - ⟨hissued, rfl⟩
  refine (wp_trivial _ _).andThen fun _ _ _ _ => ?_
  refine (wp_trivial _ _).andThen fun _ _ _ _ => ?_
  refine ⟨trivial, ?_⟩
  rw [checkIssued, mapError_eq_ok, hkey] at hissued
  exact hissued

theorem wp_ensureIdentity :
    Wp device (fun _ => True) (ensureIdentity F H identityDir config)
      (fun identity _ => Passes H identity) (fun _ _ => True) s := by
  refine (wp_trivial _ _).andThen fun enr t _ _ => ?_
  show Wp device _ (if isEnrolled config t = true then _ else _) _ _ t
  split
  · refine (wp_ofExcept_self trivial).mono ?_ fun _ _ _ _ => trivial
    intro identity _ _ hload
    exact load_eq_ok hload.1
  · exact wp_enrollAnew

/-- Whatever round returns an identity, its certificate is of its key and its id. -/
theorem wp_identityRounds {rounds : Nat} :
    Wp device (fun _ => True) (identityRounds F H identityDir config rounds)
      (fun result _ => ∀ identity, result = some identity → Passes H identity) (fun _ _ => True)
      s := by
  induction rounds generalizing s with
  | zero => exact ⟨trivial, fun _ h => nomatch h⟩
  | succ rounds ih =>
    refine (wp_ensureIdentity.andThen ?_).orElse ?_
    · intro identity t _ hpasses
      refine ⟨trivial, ?_⟩
      rintro _ ⟨⟩
      exact hpasses
    · intro e t _ _
      split
      · exact ih
      · exact ⟨trivial, trivial⟩

end Returned

section Starts
open X509 (Bytes)

def agentHost (H : Host Bytes) : Host Bytes :=
  { H with certificateIdentityDer := X509.certificateIdentityDer H.fromUtf8 }

/-- The first certificate of the document has the key as its Ed25519 key, and the id as its one
common name. -/
def Consistent (H : Host Bytes) (identity : Identity Bytes) : Prop :=
  ∃ (c : X509.Certificate) (rest : List Bytes),
    H.pemCertificates (H.asBytes identity.clientCertificatePem) = some (c.encode :: rest) ∧
    c.key = identity.publicKey ∧ c.key.length = 32 ∧
    X509.CommonNames H.fromUtf8 c.subject.flatten [identity.agentId]

variable {F : Formats Bytes} {H : Host Bytes} {paths : InstalledPaths}

theorem Passes.consistent {identity : Identity Bytes} (h : Passes (agentHost H) identity) :
    Consistent H identity := by
  simp only [Passes, checkConsistency, certificateIdentity, certificatesIn, bind_eq_ok, okOr_eq_ok,
    mapError_eq_ok, refuseIf_eq_ok, bne_eq_false_iff_eq] at h
  obtain ⟨certificate, ⟨certificates, hpem, first, hfirst, hread⟩, _, hkey, hname⟩ := h
  obtain ⟨c, hencode, hckey, hlength, hnames⟩ := X509.certificateIdentityDer_eq_ok hread
  obtain ⟨rest, rfl⟩ := List.head?_eq_some_iff.mp hfirst
  refine ⟨c, rest, ?_, hckey.trans hkey, hlength, ?_⟩
  · rw [← hencode]
    exact hpem
  · rw [← hname]
    exact hnames

/-- The identity directories one sequence of starts leads from and to. Each start has its own
configuration, which passed its check, and is run to its end or cut. -/
inductive Later (F : Formats Bytes) (H : Host Bytes) (paths : InstalledPaths)
    (first : Option (Node Bytes)) : Option (Node Bytes) → Prop where
  | here : Later F H paths first first
  | start {found : Option (Node Bytes)} {configPath : String} {config : AgentConfig} {more : Nat}
      {out : Outcome EnrollmentError (Option (Identity Bytes))} {t : State Bytes} :
      Later F H paths first found → checkInstalledConfig paths configPath config = .ok () →
      Run device (startService F (agentHost H) paths.identityDir config more) ⟨found, [], []⟩ out t →
      Later F H paths first t.directory

theorem kept_start (found : Option (Node Bytes)) : Kept found ⟨found, [], []⟩ :=
  ⟨Grows.refl found, fun _ hmem => nomatch hmem⟩

theorem Later.grows {first found : Option (Node Bytes)} (h : Later F H paths first found) :
    Grows first found := by
  induction h with
  | here => exact Grows.refl first
  | start _ _ hrun ih => exact ih.trans ((kept_start _).run hrun).grows

def refusing : (o : Op Bytes) → State Bytes → o.Answer × State Bytes
  | .generate, s => (.error "", s)
  | .readAnchor _, s => (.error "", s)
  | .tlsConfig _, s => (.error (.clientConfig ""), s)
  | .httpClient _, s => (.error "", s)
  | .post _ request, s => (.failed "", { s with requests := s.requests ++ [request] })
  | .createDirectory, s => (.failed "", s)
  | .sealKey _, s => (.error "", s)
  | .createFile _ _, s => (.error "", s)
  | .hygienizeToken, s => ((), s)

theorem answers_refusing (o : Op Bytes) (s : State Bytes) :
    device.answers o s (refusing o s).1 (refusing o s).2 := by
  cases o with
  | generate => exact .generate _
  | readAnchor path => exact .readAnchor _
  | tlsConfig anchor => exact .tlsConfig _
  | httpClient timeoutSeconds => exact .httpClient _
  | post url request => exact .post _
  | createDirectory => exact .directoryFailed _
  | sealKey seed => exact .sealKey _
  | createFile name bytes => exact .fileFailed _
  | hygienizeToken => exact .hygienizeToken

theorem isSome_enrollment {configPath : String} {config : AgentConfig}
    (h : checkInstalledConfig paths configPath config = .ok ()) :
    config.enrollment.isSome = true := by
  obtain ⟨_, hservice, -⟩ := bind_eq_ok.mp h
  rw [checkServiceConfig, refuseIf_eq_ok, Bool.or_eq_false_iff] at hservice
  simpa using hservice.1

/-- One more start after any others. -/
theorem identity_fails_closed {first found : Option (Node Bytes)}
    (hlater : Later F H paths first found) {configPath : String} {config : AgentConfig}
    (hconfig : checkInstalledConfig paths configPath config = .ok ()) {more : Nat} :
    (∀ out t, Run device (startService F (agentHost H) paths.identityDir config more)
        ⟨found, [], []⟩ out t →
      (t.requests ≠ [] → found = none) ∧
      Grows first t.directory ∧ Held t ∧
      (first.isSome = true → t.requests = [] ∧ ∀ result, out = .finished result →
        (∃ identity, result = .ok (some identity)) ∨ ∃ e, result = .error e ∧ e.exitCode = 5) ∧
      ∀ identity, out = .finished (.ok (some identity)) → Consistent H identity) ∧
    (first.isSome = true →
      ∃ result t, Run device (startService F (agentHost H) paths.identityDir config more)
        ⟨found, [], []⟩ (.finished result) t) := by
  refine ⟨?_, fun _ => ⟨_, _, run_exec answers_refusing _ _⟩⟩
  intro out t hrun
  have hkept := (kept_start found).run hrun
  have hsome := isSome_enrollment hconfig
  -- a start that finds the directory asks for nothing
  have hthere : found.isSome = true → t.requests = [] ∧ ∀ result, out = .finished result →
      (∃ identity, result = .ok (some identity)) ∨ ∃ e, result = .error e ∧ e.exitCode = 5 := by
    intro hfound
    have hwp : Wp device (fun t => t = (⟨found, [], []⟩ : State Bytes))
        (startService F (agentHost H) paths.identityDir config more)
        (fun result _ => ∃ identity, result = some identity) (fun e _ => e.exitCode = 5)
        ⟨found, [], []⟩ := wp_startService hsome hfound
    obtain ⟨hsame, hend⟩ := hwp.sound hrun
    refine ⟨congrArg State.requests hsame, ?_⟩
    intro result hout
    cases result with
    | error e => exact Or.inr ⟨e, rfl, hend _ hout⟩
    | ok returned =>
      obtain ⟨identity, rfl⟩ := hend _ hout
      exact Or.inl ⟨identity, rfl⟩
  refine ⟨?_, hlater.grows.trans hkept.grows, hkept.held, ?_, ?_⟩
  · intro hsent
    by_contra hfound
    exact hsent (hthere (Option.isSome_iff_ne_none.mpr hfound)).1
  · intro hfirst
    obtain ⟨directory, hdirectory⟩ := Option.isSome_iff_exists.mp hfirst
    obtain ⟨directory', hfound, -⟩ := hlater.grows directory hdirectory
    exact hthere (Option.isSome_of_mem hfound)
  · intro identity hout
    have hwp : Wp device (fun _ => True) (startService F (agentHost H) paths.identityDir config more)
        (fun result _ => ∀ identity, result = some identity → Passes (agentHost H) identity)
        (fun _ _ => True) ⟨found, [], []⟩ :=
      (wp_trivial _ _).andThen fun _ _ _ _ => wp_identityRounds
    exact ((hwp.sound hrun).2 _ hout identity rfl).consistent

end Starts

section Sample
open X509 (Bytes)

def sampleAgentId : String := "00000000-0000-7000-8000-000000000000"

def sampleKey : Bytes := List.replicate 32 7

def sampleCertificate : X509.Certificate where
  version := some (X509.version, [2])
  serialNumber := [1]
  signature := []
  issuer := []
  validity := []
  subject := [[⟨X509.commonNameOid, X509.utf8String,
    sampleAgentId.toList.map fun c => UInt8.ofNat c.toNat, []⟩]]
  key := sampleKey
  extensions := []
  signed := []

def ascii (bytes : Bytes) : Option String :=
  some (String.ofList (bytes.map fun b => Char.ofNat b.toNat))

def sampleFormats : Formats Bytes where
  agentVersion := "0.1.0"
  base64Url := fun _ => "key"
  parseResponse := fun _ => .ok ⟨"0.1.0", sampleAgentId, "certificate", "issued", "expires"⟩
  pemContents := fun _ => .ok [0]
  printIdentity := fun _ => .ok []

def sampleAgentHost : Host Bytes where
  toml := ⟨fun _ => .error none, fun _ => none, fun _ => none⟩
  fromUtf8 := ascii
  asBytes := fun text => text.toList.map fun c => UInt8.ofNat c.toNat
  empty := []
  size := List.length
  parseRecord := fun _ => none
  printRecord := fun _ => []
  pemCertificates := fun _ => some [sampleCertificate.encode]
  encodePem := fun _ => ""
  sha256 := fun _ => ""
  unsealKey := .ok
  publicKey := id
  pubkeyFingerprint := fun _ => ""
  parseIdentity := fun _ => .ok ⟨sampleAgentId, "", "issued", "expires"⟩
  certificateIdentityDer := fun _ => .error ""
  parseRfc3339 := fun _ => none
  sidText := fun _ => ""

def sampleInstalled : InstalledPaths := .under "C:\\ProgramData"

def sampleInstalledConfig : AgentConfig where
  server := ⟨"https://server", some sampleInstalled.trustAnchor, some "https://server"⟩
  agent := ⟨sampleAgentId, "host"⟩
  heartbeat := .default
  log := ⟨"info"⟩
  enrollment := some ⟨some "token", sampleInstalled.cert, sampleInstalled.key,
    sampleInstalled.identity, 30, 3, 1000, .finite 2⟩
  tls := none
  envelope := none

def enrolling : (o : Op Bytes) → State Bytes → o.Answer × State Bytes
  | .generate, s => (.ok sampleKey, s)
  | .readAnchor _, s => (.ok [], s)
  | .tlsConfig _, s => (.ok (), s)
  | .httpClient _, s => (.ok (), s)
  | .post _ request, s => (.response 200 (.ok ""), { s with requests := s.requests ++ [request] })
  | .createDirectory, s =>
    if s.directory.isNone then
      (.created, { s with directory := some (newDirectory MigrationCustody.identityDirectory []) })
    else (.alreadyExists, s)
  | .sealKey seed, s => (.ok seed, s)
  | .createFile name bytes, s =>
    match Disk.changeEntries s.directory
        (Disk.create name.text (newFile MigrationCustody.identityFile bytes)) with
    | .ok directory => (.ok (),
        { s with directory := some directory, created := s.created ++ [(name, bytes)] })
    | .error e => (.error e, s)
  | .hygienizeToken, s => ((), s)

theorem answers_enrolling (o : Op Bytes) (s : State Bytes) :
    device.answers o s (enrolling o s).1 (enrolling o s).2 := by
  cases o with
  | generate => exact .generate _
  | readAnchor path => exact .readAnchor _
  | tlsConfig anchor => exact .tlsConfig _
  | httpClient timeoutSeconds => exact .httpClient _
  | post url request => exact .post _
  | createDirectory =>
    by_cases hnone : s.directory.isNone
    · simp only [enrolling, if_pos hnone]
      exact .directoryCreated (Option.isNone_iff_eq_none.mp hnone)
    · simp only [enrolling, if_neg hnone]
      exact .directoryThere (by simpa [Option.isSome_iff_ne_none] using hnone)
  | sealKey seed => exact .sealKey _
  | createFile name bytes =>
    cases hchange : Disk.changeEntries s.directory
        (Disk.create name.text (newFile MigrationCustody.identityFile bytes)) with
    | ok directory =>
      simp only [enrolling, hchange]
      exact .fileCreated ⟨hchange⟩
    | error e =>
      simp only [enrolling, hchange]
      exact .fileFailed e
  | hygienizeToken => exact .hygienizeToken

def sampleStartService : IdentityProg Bytes (Option (Identity Bytes)) :=
  startService sampleFormats (agentHost sampleAgentHost) sampleInstalled.identityDir
    sampleInstalledConfig 0

def sampleEnrolled : State Bytes := (exec enrolling sampleStartService ⟨none, [], []⟩).2

/-- A first start enrolls, and no start after it sends a request. -/
theorem enrolled_once :
    Later sampleFormats sampleAgentHost sampleInstalled none sampleEnrolled.directory ∧
    sampleEnrolled.requests.length = 1 ∧
    ∀ out t, Run device sampleStartService ⟨sampleEnrolled.directory, [], []⟩ out t →
      t.requests = [] := by
  have hconfig : checkInstalledConfig sampleInstalled "agent.toml" sampleInstalledConfig = .ok () := by
    decide +kernel
  have hthere : sampleEnrolled.directory.isSome = true := by decide +kernel
  refine ⟨.start .here hconfig (run_exec answers_enrolling _ _), by decide +kernel, ?_⟩
  intro out t hrun
  exact (((identity_fails_closed .here hconfig).1 out t hrun).2.2.2.1 hthere).1

end Sample

end CyberGuard.Service.InstalledIdentity
