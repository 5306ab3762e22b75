import CyberGuard.Ingest.ServerCert

/-!
# What a call may write and serve

A call replaces a file of the pair only where the certificate it read is the server's
own, or where a start found neither file. A pair of the server's own that a call returns
has the key of its certificate.
-/

namespace CyberGuard.Ingest.ServerCert
set_option autoImplicit false
open CrashLogic

section Safety
variable {C : Type} {X : X509 C}

def SelfIssuedText (X : X509 C) (certPem : String) : Prop :=
  ∃ cert, X.parse certPem = some cert ∧ isSelfIssued X cert = some true

def SelfIssuedFile (X : X509 C) (disk : Disk) : Prop :=
  ∃ certPem, disk.files .cert = some certPem ∧ SelfIssuedText X certPem

def BothAbsent (disk : Disk) : Prop := disk.files .cert = none ∧ disk.files .key = none

/-- A pair marked as the server's own is one, with its key. -/
structure Sound (X : X509 C) (identity : ServerIdentity) : Prop where
  text : identity.selfIssued = true → SelfIssuedText X identity.certPem
  key : identity.selfIssued = true → keyMatches X identity.certPem identity.keyPem = true

/-- A pair of the server's own with its key, not due at a reading of the clock. -/
structure Adoptable (X : X509 C) (readings : List Int) (identity : ServerIdentity) : Prop where
  selfIssued : identity.selfIssued = true
  text : SelfIssuedText X identity.certPem
  key : keyMatches X identity.certPem identity.keyPem = true
  current : ∃ nowMs ∈ readings, renewalReason identity nowMs = none

theorem Issued.sound {identity : ServerIdentity} (h : Issued X identity) : Sound X identity := by
  obtain ⟨cert, hparse, hverify, hsubject, hkey⟩ := h.cert
  refine ⟨fun _ => ⟨cert, hparse, ?_⟩, fun _ => ?_⟩
  · rw [isSelfIssued, if_neg (not_not.mpr hverify), if_pos hsubject]
  · rw [keyMatches, hparse, Option.bind_some, hkey]
    rfl

theorem describePair_spec {certPem keyPem : String} {identity : ServerIdentity}
    (h : describePair X certPem keyPem = some identity) :
    identity.certPem = certPem ∧ identity.keyPem = keyPem ∧
      (identity.selfIssued = true → SelfIssuedText X certPem) := by
  obtain ⟨cert, hcert, h⟩ := Option.bind_eq_some_iff.mp h
  obtain ⟨selfIssued, hself, h⟩ := Option.bind_eq_some_iff.mp h
  cases h
  refine ⟨rfl, rfl, ?_⟩
  intro htrue
  exact ⟨cert, hcert, hself.trans (congrArg some htrue)⟩

def Writes (allowed : Prop) (s : State) : Prop := s.writes ≠ [] → allowed

variable {faults allowed : Prop} {s : State}

theorem issued_answers {o : Op} {answer : o.Answer} {t : State} {identity : ServerIdentity}
    (h : Answers X faults o s answer t) (hmem : identity ∈ s.issued) : identity ∈ t.issued := by
  cases h with
  | issued _ => exact List.mem_append_left _ hmem
  | _ => exact hmem

theorem wp_readFile {path : Path} {K : State → Prop} (h : K s) :
    Wp (device X faults) K (readFile path) (fun text t => t = s ∧ s.files path = some text)
      (fun _ t => t = s) s := by
  refine ⟨h, fun t ht => ht.elim, ?_⟩
  intro answer t hanswer
  cases hanswer with
  | content htext => exact ⟨h, rfl, htext⟩
  | noContent e _ => exact ⟨h, rfl⟩

theorem wp_readPair {K : State → Prop} (h : K s) :
    Wp (device X faults) K (readPair X)
      (fun identity t => t = s ∧ s.files .cert = some identity.certPem ∧
        s.files .key = some identity.keyPem ∧
        describePair X identity.certPem identity.keyPem = some identity) (fun _ t => t = s) s := by
  refine (wp_readFile h).andThen ?_
  rintro certPem _ - ⟨rfl, hcert⟩
  refine (wp_readFile h).andThen ?_
  rintro keyPem _ - ⟨rfl, hkey⟩
  cases hpair : describePair X certPem keyPem with
  | none => exact ⟨h, rfl⟩
  | some identity =>
    obtain ⟨hcertPem, hkeyPem, -⟩ := describePair_spec hpair
    subst hcertPem hkeyPem
    exact ⟨h, rfl, hcert, hkey, hpair⟩

theorem wp_issueAndWrite (hallowed : allowed) :
    Wp (device X faults) (Writes allowed) issueAndWrite
      (fun identity t => Issued X identity ∧ identity ∈ t.issued) (fun _ _ => True) s := by
  have hnow : ∀ t, Writes allowed t := fun _ _ => hallowed
  refine wp_bind ⟨hnow s, fun t ht => ht.elim, ?_⟩
  intro answer t hanswer
  cases hanswer with
  | notIssued e _ => exact ⟨hnow s, trivial⟩
  | @issued _ fresh hissued =>
    refine ⟨hnow _, ?_⟩
    have hmem : fresh ∈ (s.issue fresh).issued :=
      List.mem_append_right _ (List.mem_singleton_self _)
    have hkept := wp_of_invariant (V := device X faults) (C := fun t => fresh ∈ t.issued)
      (fun _ _ _ _ ht => ht.elim) (fun _ _ _ _ hin hanswer => issued_answers hanswer hin) hmem
      (writePair fresh.certPem fresh.keyPem)
    refine wp_bind ((hkept.weaken fun t _ => hnow t).mono ?_ fun _ _ _ _ => trivial)
    intro _ u hu hin
    exact ⟨hu, hissued, hin.1⟩

theorem wp_reissue {current : Option ServerIdentity} (hallowed : allowed)
    (hcurrent : ∀ identity, current = some identity → Sound X identity) :
    Wp (device X faults) (Writes allowed) (reissue current)
      (fun identity _ => Sound X identity) (fun _ _ => True) s := by
  have hnow : ∀ t, Writes allowed t := fun _ _ => hallowed
  refine ((wp_issueAndWrite hallowed).mono ?_ fun _ _ _ he => he).orElse ?_
  · intro identity t _ hfresh
    exact hfresh.1.sound
  · intro e t _ _
    cases current with
    | none => exact ⟨hnow t, trivial⟩
    | some identity => exact ⟨hnow t, hcurrent identity rfl⟩

theorem wp_reissueServed (hallowed : allowed) :
    Wp (device X faults) (Writes allowed) reissueServed
      (fun next t => ∀ identity, next = some identity →
        Issued X identity ∧ identity ∈ t.issued) (fun _ _ => True) s := by
  have hnow : ∀ t, Writes allowed t := fun _ _ => hallowed
  refine ((wp_issueAndWrite hallowed).andThen ?_).orElse ?_
  · intro fresh t ht hfresh
    refine ⟨ht, ?_⟩
    rintro identity ⟨⟩
    exact hfresh
  · intro e t _ _
    refine ⟨hnow t, ?_⟩
    rintro identity ⟨⟩

theorem wp_renewAtStart {names : List String} {current : ServerIdentity} (hallowed : allowed)
    (hsound : Sound X current) :
    Wp (device X faults) (Writes allowed) (renewAtStart X names current)
      (fun identity _ => Sound X identity) (fun _ _ => True) s := by
  have hnow : ∀ t, Writes allowed t := fun _ _ => hallowed
  have hreissue : ∀ t, Wp (device X faults) (Writes allowed) (reissue (some current))
      (fun identity _ => Sound X identity) (fun _ _ => True) t := by
    intro t
    refine wp_reissue hallowed ?_
    rintro identity ⟨⟩
    exact hsound
  refine ⟨hnow s, fun t ht => ht.elim, ?_⟩
  intro nowMs t _
  dsimp only
  split
  · exact hreissue t
  · cases hnames : namesCurrent X current.certPem names with
    | none => exact ⟨hnow t, trivial⟩
    | some same =>
      refine wp_bind ⟨hnow t, ?_⟩
      cases same with
      | true => exact ⟨hnow t, hsound⟩
      | false => exact hreissue t

def State.start (disk : Disk) : State := { disk with }

theorem writes_start (disk : Disk) : Writes allowed (State.start disk) := fun h => absurd rfl h

variable {disk : Disk}

theorem wp_ensureServerCert {certPath keyPath : String} {names : List String} :
    Wp (device X faults) (Writes (SelfIssuedFile X disk ∨ BothAbsent disk))
      (ensureServerCert X certPath keyPath names) (fun identity _ => Sound X identity)
      (fun _ _ => True) (State.start disk) := by
  change Wp _ _ (if _ then _ else _) _ _ _
  split
  · rename_i hneither
    refine wp_reissue (Or.inr ?_) (fun identity h => nomatch h)
    simpa [BothAbsent, State.start] using hneither
  · split
    · exact ⟨writes_start disk, trivial⟩
    · refine ((wp_readPair (writes_start disk)).mono (fun _ _ _ hq => hq) fun _ _ _ _ => trivial).andThen ?_
      rintro identity _ - ⟨rfl, hcert, -, hpair⟩
      split
      · rename_i hoperator
        have hfalse : identity.selfIssued = false := by simpa using hoperator
        refine ⟨writes_start disk, ?_, ?_⟩
        · intro htrue
          exact absurd (hfalse.symm.trans htrue) Bool.false_ne_true
        · intro htrue
          exact absurd (hfalse.symm.trans htrue) Bool.false_ne_true
      · rename_i hown
        have htrue : identity.selfIssued = true := by simpa using hown
        have htext := (describePair_spec hpair).2.2 htrue
        have hallowed : SelfIssuedFile X disk ∨ BothAbsent disk :=
          Or.inl ⟨identity.certPem, hcert, htext⟩
        split
        · exact wp_reissue hallowed (fun identity h => nomatch h)
        · rename_i hkey
          exact wp_renewAtStart hallowed ⟨fun _ => htext, fun _ => by simpa using hkey⟩

def DiskChange.Holds (X : X509 C) (nowMs : Int) (disk : Disk) : DiskChange → Prop
  | .leave => True
  | .adopt pair => SelfIssuedText X pair.certPem ∧ pair.selfIssued = true ∧
      keyMatches X pair.certPem pair.keyPem = true ∧ renewalReason pair nowMs = none
  | .reissue => SelfIssuedFile X disk

theorem wp_onDiskChange {nowMs : Int} (h : Writes allowed s) :
    Wp (device X faults) (Writes allowed) (onDiskChange X nowMs)
      (fun change t => t = s ∧ change.Holds X nowMs s.toDisk) (fun _ _ => True) s := by
  refine ((wp_readPair h).andThen ?_).orElse ?_
  · rintro pair _ - ⟨rfl, hcert, -, hpair⟩
    split
    · exact ⟨h, rfl, trivial⟩
    · rename_i hown
      have htrue : pair.selfIssued = true := by simpa using hown
      have htext := (describePair_spec hpair).2.2 htrue
      split
      · rename_i hadopt
        rw [Bool.and_eq_true, Option.isNone_iff_eq_none] at hadopt
        exact ⟨h, rfl, htext, htrue, hadopt⟩
      · exact ⟨h, rfl, pair.certPem, hcert, htext⟩
  · rintro e _ - rfl
    exact ⟨h, rfl, trivial⟩

/-- What a check returns: a pair it issued, or one to adopt. -/
def Serves (X : X509 C) (next : Option ServerIdentity) (t : State) : Prop :=
  ∀ identity, next = some identity →
    (Issued X identity ∧ identity ∈ t.issued) ∨ Adoptable X t.clock identity

theorem serves_none {t : State} : Serves X none t := by
  rintro identity ⟨⟩

theorem wp_checkServerCert {served : ServerIdentity} (hserved : Sound X served) :
    Wp (device X faults) (Writes (SelfIssuedFile X disk)) (checkServerCert X served)
      (fun next t => Serves X next t ∧ (served.selfIssued = false → next = none))
      (fun _ _ => True) (State.start disk) := by
  rw [checkServerCert]
  split
  · exact ⟨writes_start disk, serves_none, fun _ => rfl⟩
  · rename_i hown
    have htrue : served.selfIssued = true := by simpa using hown
    have hnot : ∀ {next : Option ServerIdentity}, served.selfIssued = false → next = none := by
      intro next hfalse
      exact absurd (hfalse.symm.trans htrue) Bool.false_ne_true
    have hreissue : ∀ t, SelfIssuedFile X disk →
        Wp (device X faults) (Writes (SelfIssuedFile X disk)) reissueServed
          (fun next t => Serves X next t ∧ (served.selfIssued = false → next = none))
          (fun _ _ => True) t := by
      intro t hfile
      refine (wp_reissueServed hfile).mono ?_ fun _ _ _ he => he
      intro next u _ hissued
      exact ⟨fun identity hnext => Or.inl (hissued identity hnext), hnot⟩
    refine ⟨writes_start disk, fun t ht => ht.elim, ?_⟩
    intro nowMs t hanswer
    cases hanswer
    have hread : Writes (SelfIssuedFile X disk) ((State.start disk).read nowMs) :=
      writes_start disk
    dsimp only
    split
    · exact ⟨hread, serves_none, hnot⟩
    · refine ⟨hread, fun t ht => ht.elim, ?_⟩
      intro onDisk u hanswer
      have hsame : u = (State.start disk).read nowMs ∧
          ∀ text, onDisk.toOption = some text → disk.files .cert = some text := by
        cases hanswer with
        | content htext => exact ⟨rfl, fun text h => htext.trans h⟩
        | noContent e _ => exact ⟨rfl, fun text h => nomatch h⟩
      obtain ⟨rfl, hcert⟩ := hsame
      dsimp only
      split
      · rename_i hunchanged
        exact hreissue _ ⟨served.certPem, hcert _ hunchanged, hserved.text htrue⟩
      · refine ⟨hread, fun t ht => ht.elim, ?_⟩
        intro nowMs' v hclock
        cases hclock
        have hstill : Writes (SelfIssuedFile X disk)
            (((State.start disk).read nowMs).read nowMs') := hread
        refine (wp_onDiskChange hstill).andThen ?_
        rintro change _ - ⟨rfl, hholds⟩
        cases change with
        | leave => exact ⟨hstill, serves_none, hnot⟩
        | adopt pair =>
          obtain ⟨htext, hself, hkey, hcurrent⟩ := hholds
          refine ⟨hstill, ?_, hnot⟩
          rintro _ ⟨⟩
          refine Or.inr ⟨hself, htext, hkey, nowMs', ?_, hcurrent⟩
          exact List.mem_append_right _ (List.mem_singleton_self _)
        | reissue => exact hreissue _ hholds

/-- Each operation works, where the files let it, and the clock stands at zero. -/
def working (fresh : ServerIdentity) : (o : Op) → State → o.Answer × State
  | .readFile path, s => ((s.files path).elim (.error "ENOENT") .ok, s)
  | .mkdir _, s => (.ok (), s)
  | .removeTemp path, s => (.ok (), s.removeTemp path)
  | .createTemp path data, s =>
    if s.temps path = none then (.ok (), s.createTemp path data) else (.error "EEXIST", s)
  | .rename path, s =>
    if (s.temps path).isSome then (.ok (), s.rename path) else (.error "ENOENT", s)
  | .now, s => ((0 : Int), s.read 0)
  | .issueServerPair, s => (.ok fresh, s.issue fresh)

theorem answers_working {fresh : ServerIdentity} (hfresh : Issued X fresh) (o : Op) (s : State) :
    (device X faults).answers o s (working fresh o s).1 (working fresh o s).2 := by
  cases o with
  | readFile path =>
    cases htext : s.files path with
    | none =>
      simp only [working, htext]
      exact .noContent _ (Or.inr htext)
    | some text =>
      simp only [working, htext]
      exact .content htext
  | mkdir path => exact .mkdir
  | removeTemp path => exact .removed
  | createTemp path data =>
    by_cases htemp : s.temps path = none
    · simp only [working, htemp, if_true]
      exact .created htemp
    · simp only [working, htemp, if_false]
      exact .notCreated _ (Or.inr (Option.isSome_iff_ne_none.mpr htemp))
  | rename path =>
    by_cases htemp : (s.temps path).isSome
    · simp only [working, htemp, if_true]
      exact .renamed htemp
    · simp only [working, htemp]
      exact .notRenamed _ (Or.inr (Option.not_isSome_iff_eq_none.mp htemp))
  | now => exact .now 0
  | issueServerPair => exact .issued hfresh

def returned : Outcome String ServerIdentity → List ServerIdentity
  | .finished (.ok identity) => [identity]
  | _ => []

def checked : Outcome String (Option ServerIdentity) → List ServerIdentity
  | .finished (.ok next) => next.toList
  | _ => []

/-- The files after any sequence of calls, with any change of them between two calls, and the
pairs the calls have returned. A check is of a pair that was returned. -/
inductive History (X : X509 C) : Disk → List ServerIdentity → Prop where
  | start (disk : Disk) : History X disk []
  | touched {disk : Disk} {pairs : List ServerIdentity} (disk' : Disk) :
      History X disk pairs → History X disk' pairs
  | ensured {disk : Disk} {pairs : List ServerIdentity} {certPath keyPath : String}
      {names : List String} {out : Outcome String ServerIdentity} {t : State} :
      History X disk pairs →
      Run (device X True) (ensureServerCert X certPath keyPath names) (State.start disk) out t →
      History X t.toDisk (pairs ++ returned out)
  | checked {disk : Disk} {pairs : List ServerIdentity} {served : ServerIdentity}
      {out : Outcome String (Option ServerIdentity)} {t : State} :
      History X disk pairs → served ∈ pairs →
      Run (device X True) (checkServerCert X served) (State.start disk) out t →
      History X t.toDisk (pairs ++ checked out)

theorem Adoptable.sound {readings : List Int} {identity : ServerIdentity}
    (h : Adoptable X readings identity) : Sound X identity :=
  ⟨fun _ => h.text, fun _ => h.key⟩

theorem Serves.sound {next : Option ServerIdentity} {t : State} (h : Serves X next t)
    {identity : ServerIdentity} (hnext : next = some identity) : Sound X identity := by
  rcases h identity hnext with ⟨hissued, -⟩ | hadopt
  · exact hissued.sound
  · exact hadopt.sound

theorem History.sound {pairs : List ServerIdentity} (h : History X disk pairs) :
    ∀ identity ∈ pairs, Sound X identity := by
  induction h with
  | start => exact fun _ hmem => nomatch hmem
  | touched _ _ ih => exact ih
  | ensured _ hrun ih =>
    intro identity hmem
    rcases List.mem_append.mp hmem with hold | hnew
    · exact ih identity hold
    · rename_i out t _
      cases out with
      | down => cases hnew
      | finished result =>
        cases result with
        | error e => cases hnew
        | ok returned =>
          rw [List.mem_singleton.mp hnew]
          exact (wp_ensureServerCert.sound hrun).2 _ rfl
  | checked _ hserved hrun ih =>
    intro identity hmem
    rcases List.mem_append.mp hmem with hold | hnew
    · exact ih identity hold
    · rename_i out t _
      cases out with
      | down => cases hnew
      | finished result =>
        cases result with
        | error e => cases hnew
        | ok next =>
          have hend := ((wp_checkServerCert (ih _ hserved)).sound hrun).2 _ rfl
          exact hend.1.sound (Option.mem_toList.mp hnew)

/-- After any calls and changes: what the next call writes and returns. -/
theorem server_cert_safe {pairs : List ServerIdentity} (h : History X disk pairs) :
    (∀ certPath keyPath names out t,
      Run (device X True) (ensureServerCert X certPath keyPath names) (State.start disk) out t →
      (t.writes ≠ [] → SelfIssuedFile X disk ∨ BothAbsent disk) ∧
      ∀ identity, out = .finished (.ok identity) → identity.selfIssued = true →
        keyMatches X identity.certPem identity.keyPem = true) ∧
    ∀ served ∈ pairs, ∀ out t,
      Run (device X True) (checkServerCert X served) (State.start disk) out t →
      (t.writes ≠ [] → SelfIssuedFile X disk) ∧
      (∀ identity, out = .finished (.ok (some identity)) →
        (identity.selfIssued = true → keyMatches X identity.certPem identity.keyPem = true) ∧
        (identity ∈ t.issued ∨ Adoptable X t.clock identity)) ∧
      (served.selfIssued = false → t.writes = [] ∧
        ∀ next, out = .finished (.ok next) → next = none) := by
  constructor
  · intro certPath keyPath names out t hrun
    obtain ⟨hwrites, hend⟩ := wp_ensureServerCert.sound hrun
    refine ⟨hwrites, ?_⟩
    intro identity hout hself
    exact Sound.key (hend _ hout) hself
  · intro served hserved out t hrun
    obtain ⟨hwrites, hend⟩ := (wp_checkServerCert (h.sound served hserved)).sound hrun
    refine ⟨hwrites, ?_, ?_⟩
    · intro identity hout
      obtain ⟨hserves, -⟩ := hend _ hout
      refine ⟨(hserves.sound rfl).key, ?_⟩
      rcases hserves identity rfl with ⟨-, hmem⟩ | hadopt
      · exact Or.inl hmem
      · exact Or.inr hadopt
    · intro hoperator
      refine ⟨?_, ?_⟩
      · rw [checkServerCert, hoperator] at hrun
        cases hrun <;> rfl
      · intro next hout
        exact (hend _ hout).2 hoperator

end Safety

/-- Three certificates, each with a key: two of the server's own and an operator's. An address with
a zone is no host of a URL. -/
def sampleX509 : X509 String where
  parse := fun text => if text ∈ ["own", "renewed", "operator"] then some text else none
  verify := fun cert => some (cert != "operator")
  subject := fun cert =>
    if cert = "operator" then "CN=ingest.example" else "CN=localhost\nO=CyberGuard self-issued"
  pem := id
  validTo := fun _ => 90 * dayMs
  checkPrivateKey := fun cert key => some (key == cert ++ " key")
  altNames := fun _ => some legacySan
  isIP := fun name => if name.toList.contains ':' then 6 else 0
  urlHostname := fun host => if host.toList.contains '%' then none else some host

def samplePair : ServerIdentity := ⟨"own", "own key", 90 * dayMs, true⟩

theorem issued_samplePair : Issued sampleX509 samplePair := by
  refine ⟨⟨"own", rfl, rfl, ?_, rfl⟩, rfl⟩
  decide

def emptyDisk : Disk := ⟨fun _ => none, fun _ => none⟩

def operatorDisk : Disk :=
  ⟨fun path => some (if path = .cert then "operator" else "operator key"), fun _ => none⟩

/-- A first start issues a pair. The operator then puts their own in its place, and no check of
the pair that is served writes to the files. -/
theorem operator_files_kept :
    History sampleX509 operatorDisk [samplePair] ∧
    ∀ out t, Run (device sampleX509 True) (checkServerCert sampleX509 samplePair)
      (State.start operatorDisk) out t → t.writes = [] := by
  have hworks : ∀ o s, (device sampleX509 True).answers o s (working samplePair o s).1
      (working samplePair o s).2 := answers_working issued_samplePair
  have hrun := run_exec hworks (ensureServerCert sampleX509 "cert" "key" ["localhost"])
    (State.start emptyDisk)
  have hhistory : History sampleX509 operatorDisk [samplePair] :=
    .touched operatorDisk (.ensured (.start emptyDisk) hrun)
  refine ⟨hhistory, ?_⟩
  intro out t hcheck
  have hwrites :=
    ((server_cert_safe hhistory).2 samplePair (List.mem_singleton_self _) out t hcheck).1
  by_contra hwrote
  obtain ⟨certPem, hfile, cert, hparse, hself⟩ := hwrites hwrote
  cases hfile
  cases hparse
  revert hself
  decide

end CyberGuard.Ingest.ServerCert
