import CyberGuard.Ingest.ServerCertSafety

/-!
# A write of the pair that was interrupted

`writePair` renames the key and then the certificate. Wherever it is cut, the next start
repairs what it left, with one exception: at a first issuance a key may be left without a
certificate, and a start refuses that.
-/

namespace CyberGuard.Ingest.ServerCert
set_option autoImplicit false
open CrashLogic

section Heal
variable {C : Type} {X : X509 C} {disk : Disk} {certPem keyPem : String} {s : State}

inductive Cut (disk : Disk) (certPem keyPem : String) (s : State) : Prop where
  | neither : s.writes = [] → s.files = disk.files → Cut disk certPem keyPem s
  | key : s.writes = [.key] → s.files .key = some keyPem → s.files .cert = disk.files .cert →
      Cut disk certPem keyPem s
  | both : s.writes = [.key, .cert] → s.files .key = some keyPem →
      s.files .cert = some certPem → Cut disk certPem keyPem s

theorem Cut.of_files {t : State} (h : Cut disk certPem keyPem s) (hwrites : t.writes = s.writes)
    (hfiles : t.files = s.files) : Cut disk certPem keyPem t := by
  cases h with
  | neither hnone hsame => exact .neither (hwrites.trans hnone) (hfiles.trans hsame)
  | key hone hkey hcert =>
    rw [← hfiles] at hkey hcert
    exact .key (hwrites.trans hone) hkey hcert
  | both htwo hkey hcert =>
    rw [← hfiles] at hkey hcert
    exact .both (hwrites.trans htwo) hkey hcert

theorem Cut.certFile {text : String} (h : Cut disk certPem keyPem s)
    (htext : s.files .cert = some text) : disk.files .cert = some text ∨ text = certPem := by
  cases h with
  | neither _ hsame => exact .inl (hsame ▸ htext)
  | key _ _ hcert => exact .inl (hcert ▸ htext)
  | both _ _ hcert => exact .inr (Option.some.inj (htext.symm.trans hcert))

variable {faults : Prop}

theorem wp_removeTemp {path : Path} (h : Cut disk certPem keyPem s) :
    Wp (device X faults) (Cut disk certPem keyPem) (removeTemp path)
      (fun _ t => t = s.removeTemp path) (fun _ _ => faults) s := by
  refine ⟨h, fun t ht => ht.elim, ?_⟩
  intro answer t hanswer
  cases hanswer with
  | removed => exact ⟨h.of_files rfl rfl, rfl⟩
  | notRemoved e hfault => exact ⟨h, hfault⟩

theorem wp_createTemp {path : Path} {data : String} (h : Cut disk certPem keyPem s)
    (htemp : s.temps path = none) :
    Wp (device X faults) (Cut disk certPem keyPem) (createTemp path data)
      (fun _ t => t = s.createTemp path data) (fun _ _ => faults) s := by
  refine ⟨h, fun t ht => ht.elim, ?_⟩
  intro answer t hanswer
  cases hanswer with
  | created _ => exact ⟨h.of_files rfl rfl, rfl⟩
  | notCreated e hfault =>
    rw [htemp, Option.isSome_none] at hfault
    exact ⟨h, hfault.resolve_right Bool.false_ne_true⟩

theorem wp_stageFile {file : Path × String} (h : Cut disk certPem keyPem s) :
    Wp (device X faults) (Cut disk certPem keyPem) (stageFile file)
      (fun _ t => t = (s.removeTemp file.1).createTemp file.1 file.2) (fun _ _ => faults) s := by
  refine ⟨h, fun t ht => ht.elim, ?_⟩
  intro answer t hanswer
  cases hanswer with
  | noMkdir e hfault => exact ⟨h, hfault⟩
  | mkdir =>
    refine (wp_removeTemp h).andThen ?_
    rintro _ _ hcut rfl
    exact wp_createTemp hcut (Function.update_self _ _ _)

theorem wp_rename {path : Path} (h : Cut disk certPem keyPem s)
    (hafter : Cut disk certPem keyPem (s.rename path)) (htemp : (s.temps path).isSome) :
    Wp (device X faults) (Cut disk certPem keyPem) (rename path)
      (fun _ t => t = s.rename path) (fun _ _ => faults) s := by
  refine ⟨h, fun t ht => ht.elim, ?_⟩
  intro answer t hanswer
  cases hanswer with
  | renamed _ => exact ⟨hafter, rfl⟩
  | notRenamed e hfault =>
    rw [← Option.not_isSome_iff_eq_none] at hfault
    exact ⟨h, hfault.resolve_right (not_not.mpr htemp)⟩

theorem wp_clearTemps {error : String} (h : Cut disk certPem keyPem s) (hfault : faults) :
    Wp (device X faults) (Cut disk certPem keyPem) (clearTemps certPem keyPem error)
      (fun _ _ => False) (fun _ _ => faults) s := by
  refine (wp_forEach (I := fun _ => Cut disk certPem keyPem) ?_ (fun _ hcut => hcut) h).andThen ?_
  · intro file rest t ht
    refine ((wp_removeTemp ht).mono (fun _ _ hcut _ => hcut) fun _ _ hcut _ => hcut).orElse ?_
    intro e u hcut _
    exact ⟨hcut, hcut⟩
  · intro _ t hcut _
    exact ⟨hcut, hfault⟩

/-- Both temporary files stand before the first rename, so each puts the file's own text in
its place. -/
theorem wp_writePair (hwrites : s.writes = []) (hfiles : s.files = disk.files) :
    Wp (device X faults) (Cut disk certPem keyPem) (writePair certPem keyPem)
      (fun _ t => t.files .cert = some certPem ∧ t.files .key = some keyPem)
      (fun _ _ => faults) s := by
  have hstart : Cut disk certPem keyPem s := .neither hwrites hfiles
  refine Wp.orElse (F := fun _ _ => faults) ?_ fun e t hcut hfault =>
    (wp_clearTemps hcut hfault).mono (fun _ _ _ hfalse => hfalse.elim) fun _ _ _ he => he
  refine Wp.andThen (Q := fun _ t => t.writes = [] ∧ t.files = disk.files ∧
    t.temps .key = some keyPem ∧ t.temps .cert = some certPem) ?_ ?_
  · refine (wp_stageFile hstart).andThen ?_
    rintro _ _ hkey rfl
    refine (wp_stageFile hkey).andThen ?_
    rintro _ _ hcert rfl
    exact ⟨hcert, hwrites, hfiles, rfl, rfl⟩
  · rintro _ t hcut ⟨hnone, hsame, hkey, hcert⟩
    have hafterKey : Cut disk certPem keyPem (t.rename .key) := by
      refine .key ?_ hkey (congrFun hsame _)
      rw [State.rename, hnone]
      rfl
    refine (wp_rename hcut hafterKey (Option.isSome_of_mem hkey)).andThen ?_
    rintro _ _ - rfl
    have hafterCert : Cut disk certPem keyPem ((t.rename .key).rename .cert) := by
      refine .both ?_ hkey hcert
      show t.writes ++ [.key] ++ [.cert] = _
      rw [hnone]
      rfl
    refine (wp_rename hafterKey hafterCert (Option.isSome_of_mem hcert)).andThen ?_
    rintro _ _ - rfl
    exact ⟨hafterCert, hcert, hkey⟩

/-- A pair of the server's own with its key, as the files hold it. -/
structure Healed (X : X509 C) (identity : ServerIdentity) (t : State) : Prop where
  selfIssued : identity.selfIssued = true
  key : keyMatches X identity.certPem identity.keyPem = true
  certFile : t.files .cert = some identity.certPem
  keyFile : t.files .key = some identity.keyPem

/-- The names of the certificate, and of the list, can be read. -/
def NamesRead (X : X509 C) (names : List String) (certPem : String) : Prop :=
  (namesCurrent X certPem names).isSome = true

theorem wp_issueAndWrite_working (hwrites : s.writes = []) :
    Wp (device X False) (fun _ => True) issueAndWrite (Healed X) (fun _ _ => False) s := by
  refine wp_bind ⟨trivial, fun t ht => ht.elim, ?_⟩
  intro answer t hanswer
  cases hanswer with
  | notIssued e hfault => exact hfault.elim
  | @issued _ fresh hissued =>
    have hwrite : Wp (device X False) (Cut s.toDisk fresh.certPem fresh.keyPem)
        (writePair fresh.certPem fresh.keyPem) (fun _ t => t.files .cert = some fresh.certPem ∧
          t.files .key = some fresh.keyPem) (fun _ _ => False) (s.issue fresh) :=
      wp_writePair hwrites rfl
    refine ⟨trivial, wp_bind ((hwrite.weaken fun _ _ => trivial).mono ?_ fun _ _ _ he => he.2.elim)⟩
    rintro _ u - ⟨-, hcert, hkey⟩
    exact ⟨trivial, hissued.selfIssued, hissued.sound.key hissued.selfIssued, hcert, hkey⟩

theorem wp_reissue_working {current : Option ServerIdentity} (hwrites : s.writes = []) :
    Wp (device X False) (fun _ => True) (reissue current) (Healed X) (fun _ _ => False) s := by
  refine (wp_issueAndWrite_working hwrites).orElse ?_
  intro e t _ hfalse
  exact hfalse.elim

theorem wp_renewAtStart_working {names : List String} {current : ServerIdentity}
    (hnames : NamesRead X names current.certPem) (hwrites : s.writes = [])
    (hcurrent : Healed X current s) :
    Wp (device X False) (fun _ => True) (renewAtStart X names current) (Healed X)
      (fun _ _ => False) s := by
  refine ⟨trivial, fun t ht => ht.elim, ?_⟩
  intro nowMs t hanswer
  cases hanswer
  have hread : Healed X current (s.read nowMs) :=
    ⟨hcurrent.selfIssued, hcurrent.key, hcurrent.certFile, hcurrent.keyFile⟩
  have hreissue : Wp (device X False) (fun _ => True) (reissue (some current)) (Healed X)
      (fun _ _ => False) (s.read nowMs) := wp_reissue_working hwrites
  dsimp only
  split
  · exact hreissue
  · obtain ⟨same, hsame⟩ := Option.isSome_iff_exists.mp hnames
    rw [hsame]
    refine wp_bind ⟨trivial, ?_⟩
    cases same with
    | true => exact ⟨trivial, hread⟩
    | false => exact hreissue

theorem wp_readFile_working {path : Path} {text : String} (htext : s.files path = some text) :
    Wp (device X False) (fun _ => True) (readFile path) (fun answer t => t = s ∧ answer = text)
      (fun _ _ => False) s := by
  refine ⟨trivial, fun t ht => ht.elim, ?_⟩
  intro answer t hanswer
  cases hanswer with
  | content hcontent => exact ⟨trivial, rfl, Option.some.inj (hcontent.symm.trans htext)⟩
  | noContent e hfault =>
    rw [htext] at hfault
    exact absurd (hfault.resolve_left not_false) (Option.some_ne_none _)

/-- A start heals what has a certificate of the server's own and any key, or neither file. -/
theorem wp_ensureServerCert_working {certPath keyPath : String} {names : List String}
    (hnames : ∀ certPem, disk.files .cert = some certPem → NamesRead X names certPem)
    (hdisk : (SelfIssuedFile X disk ∧ (disk.files .key).isSome = true) ∨ BothAbsent disk) :
    Wp (device X False) (fun _ => True) (ensureServerCert X certPath keyPath names) (Healed X)
      (fun _ _ => False) (State.start disk) := by
  have hreissue : Wp (device X False) (fun _ => True) (reissue none) (Healed X)
      (fun _ _ => False) (State.start disk) := wp_reissue_working rfl
  change Wp _ _ (if _ then _ else if _ then _ else _) _ _ _
  rcases hdisk with ⟨⟨certPem, hcert, htext⟩, hkey⟩ | ⟨hcert, hkey⟩
  · obtain ⟨keyPem, hkey⟩ := Option.isSome_iff_exists.mp hkey
    obtain ⟨cert, hparse, hself⟩ := htext
    have hpair : describePair X certPem keyPem = some ⟨certPem, keyPem, X.validTo cert, true⟩ := by
      rw [describePair, hparse, Option.bind_eq_bind, Option.bind_some, hself]
      rfl
    have hcertFile : (State.start disk).files .cert = some certPem := hcert
    have hkeyFile : (State.start disk).files .key = some keyPem := hkey
    rw [hcertFile, hkeyFile]
    refine Wp.andThen (Q := fun identity t => t = State.start disk ∧
      identity = ⟨certPem, keyPem, X.validTo cert, true⟩) ?_ ?_
    · refine (wp_readFile_working hcertFile).andThen ?_
      rintro _ _ - ⟨rfl, rfl⟩
      refine (wp_readFile_working hkeyFile).andThen ?_
      rintro _ _ - ⟨rfl, rfl⟩
      rw [hpair]
      exact ⟨trivial, rfl, rfl⟩
    · rintro _ _ - ⟨rfl, rfl⟩
      by_cases hmatches : keyMatches X certPem keyPem = true
      · simp only [hmatches]
        exact wp_renewAtStart_working (hnames certPem hcert) rfl ⟨rfl, hmatches, hcertFile, hkeyFile⟩
      · simp only [hmatches]
        exact hreissue
  · have hcertFile : (State.start disk).files .cert = none := hcert
    have hkeyFile : (State.start disk).files .key = none := hkey
    rw [hcertFile, hkeyFile]
    exact hreissue

def MatchingPair (X : X509 C) (disk : Disk) : Prop :=
  ∃ certPem keyPem, disk.files .cert = some certPem ∧ disk.files .key = some keyPem ∧
    SelfIssuedText X certPem ∧ keyMatches X certPem keyPem = true

/-- Wherever the write is cut: what a start can heal, or the key of a first issuance alone. -/
theorem Cut.next {fresh : ServerIdentity} (hfresh : Issued X fresh)
    (hstart : BothAbsent disk ∨ MatchingPair X disk) (h : Cut disk fresh.certPem fresh.keyPem s) :
    ((SelfIssuedFile X s.toDisk ∧ (s.files .key).isSome = true) ∨ BothAbsent s.toDisk) ∨
      (BothAbsent disk ∧ s.writes = [.key]) := by
  cases h with
  | neither _ hfiles =>
    refine Or.inl ?_
    rcases hstart with habsent | ⟨certPem, keyPem, hcert, hkey, htext, -⟩
    · rw [BothAbsent, ← hfiles] at habsent
      exact Or.inr habsent
    · rw [← hfiles] at hcert hkey
      exact Or.inl ⟨⟨certPem, hcert, htext⟩, Option.isSome_of_mem hkey⟩
  | key hwrites hkey hsame =>
    rcases hstart with habsent | ⟨certPem, keyPem, hcert, -, htext, -⟩
    · exact Or.inr ⟨habsent, hwrites⟩
    · exact Or.inl (Or.inl ⟨⟨certPem, hsame.trans hcert, htext⟩, Option.isSome_of_mem hkey⟩)
  | both _ hkey hcert =>
    have htext := hfresh.sound.text hfresh.selfIssued
    exact Or.inl (Or.inl ⟨⟨fresh.certPem, hcert, htext⟩, Option.isSome_of_mem hkey⟩)

/-- The next start heals an interrupted write, but for the key of a first issuance left alone:
that start fails and changes nothing. -/
theorem interrupted_write_heals {fresh : ServerIdentity} {names : List String}
    {certPath keyPath : String} {out : Outcome String Unit} {t : State}
    (hfresh : Issued X fresh)
    (hnames : ∀ certPem, disk.files .cert = some certPem ∨ certPem = fresh.certPem →
      NamesRead X names certPem)
    (hstart : BothAbsent disk ∨ MatchingPair X disk)
    (hrun : Run (device X True) (writePair fresh.certPem fresh.keyPem) (State.start disk) out t) :
    (¬(BothAbsent disk ∧ t.writes = [.key]) →
      (∃ result u, Run (device X False) (ensureServerCert X certPath keyPath names)
        (State.start t.toDisk) (.finished result) u) ∧
      ∀ result u, Run (device X False) (ensureServerCert X certPath keyPath names)
        (State.start t.toDisk) (.finished result) u →
        ∃ identity, result = .ok identity ∧ Healed X identity u) ∧
    (BothAbsent disk ∧ t.writes = [.key] →
      ∀ result u, Run (device X False) (ensureServerCert X certPath keyPath names)
        (State.start t.toDisk) (.finished result) u →
        result = .error (incomplete false certPath keyPath) ∧ u = State.start t.toDisk) := by
  have hwrite : Wp (device X True) (Cut disk fresh.certPem fresh.keyPem)
      (writePair fresh.certPem fresh.keyPem) _ (fun _ _ => True) (State.start disk) :=
    wp_writePair rfl rfl
  have hcut := (hwrite.sound hrun).1
  constructor
  · intro hnot
    have hdisk := (hcut.next hfresh hstart).resolve_right hnot
    refine ⟨⟨_, _, run_exec (answers_working hfresh) _ _⟩, ?_⟩
    intro result u hnext
    have hread : ∀ certPem, t.files .cert = some certPem → NamesRead X names certPem :=
      fun certPem hcert => hnames certPem (hcut.certFile hcert)
    have hend := ((wp_ensureServerCert_working hread hdisk).sound hnext).2 result rfl
    cases result with
    | error e => exact hend.elim
    | ok identity => exact ⟨identity, rfl, hend⟩
  · rintro ⟨⟨hcert, -⟩, hwrites⟩ result u hnext
    cases hcut with
    | neither hnone _ =>
      rw [hwrites] at hnone
      cases hnone
    | both hboth _ _ =>
      rw [hwrites] at hboth
      cases hboth
    | key _ hkey hsame =>
      have hcertFile : (State.start t.toDisk).files .cert = none := hsame.trans hcert
      have hkeyFile : (State.start t.toDisk).files .key = some fresh.keyPem := hkey
      cases hnext with
      | look hstop =>
        simp only [hcertFile, hkeyFile] at hstop
        cases hstop
        exact ⟨rfl, rfl⟩

end Heal

def renewedPair : ServerIdentity := ⟨"renewed", "renewed key", 90 * dayMs, true⟩

theorem issued_renewedPair : Issued sampleX509 renewedPair := by
  refine ⟨⟨"renewed", rfl, rfl, ?_, rfl⟩, rfl⟩
  decide

def keyRenamed (disk : Disk) : State :=
  (((((State.start disk).removeTemp .key).createTemp .key renewedPair.keyPem).removeTemp
    .cert).createTemp .cert renewedPair.certPem).rename .key

theorem run_keyRenamed (faults : Prop) (disk : Disk) :
    Run (device sampleX509 faults) (writePair renewedPair.certPem renewedPair.keyPem)
      (State.start disk) .down (keyRenamed disk) := by
  refine .act .mkdir (.act .removed (.act (.created rfl) ?_))
  refine .act .mkdir (.act .removed (.act (.created rfl) ?_))
  exact .act (.renamed rfl) .down

def ownDisk : Disk := ⟨fun path => some (if path = .cert then "own" else "own key"), fun _ => none⟩

theorem matchingPair_ownDisk : MatchingPair sampleX509 ownDisk := by
  have hsound := issued_samplePair.sound
  exact ⟨"own", "own key", rfl, rfl, hsound.text rfl, hsound.key rfl⟩

/-- A machine that goes down after the key's rename, at a first issuance: the next start throws,
though every operation works. Over a pair that was there the next start throws where a name of the
list cannot be read, wherever the write was cut. -/
theorem next_start_throws :
    (BothAbsent emptyDisk ∧ Issued sampleX509 renewedPair ∧
      Run (device sampleX509 False) (writePair renewedPair.certPem renewedPair.keyPem)
        (State.start emptyDisk) .down (keyRenamed emptyDisk) ∧
      ∀ result u, Run (device sampleX509 False)
        (ensureServerCert sampleX509 "server.crt" "server.key" ["localhost"])
        (State.start (keyRenamed emptyDisk).toDisk) (.finished result) u →
        result = .error (incomplete false "server.crt" "server.key")) ∧
    MatchingPair sampleX509 ownDisk ∧
      Run (device sampleX509 False) (writePair renewedPair.certPem renewedPair.keyPem)
        (State.start ownDisk) .down (State.start ownDisk) ∧
      ∃ e u, Run (device sampleX509 False)
        (ensureServerCert sampleX509 "server.crt" "server.key" ["fe80::1%eth0"])
        (State.start ownDisk) (.finished (.error e)) u := by
  refine ⟨⟨⟨rfl, rfl⟩, issued_renewedPair, run_keyRenamed False emptyDisk, ?_⟩,
    matchingPair_ownDisk, .down, "invalid certificate", (State.start ownDisk).read 0, ?_⟩
  · intro result u hnext
    cases hnext with
    | look hstop =>
      cases hstop
      rfl
  · exact run_exec (answers_working issued_samplePair) _ _

/-- A renewal cut after the key's rename, the new key beside the old certificate, heals. -/
theorem renewal_cut_heals :
    (∃ result u, Run (device sampleX509 False)
      (ensureServerCert sampleX509 "server.crt" "server.key" ["localhost", "127.0.0.1"])
      (State.start (keyRenamed ownDisk).toDisk) (.finished result) u) ∧
    ∀ result u, Run (device sampleX509 False)
      (ensureServerCert sampleX509 "server.crt" "server.key" ["localhost", "127.0.0.1"])
      (State.start (keyRenamed ownDisk).toDisk) (.finished result) u →
      ∃ identity, result = .ok identity ∧ Healed sampleX509 identity u := by
  have hnames : ∀ certPem, ownDisk.files .cert = some certPem ∨ certPem = renewedPair.certPem →
      NamesRead sampleX509 ["localhost", "127.0.0.1"] certPem := by
    rintro certPem (hown | rfl)
    · obtain rfl := Option.some.inj hown
      exact rfl
    · exact rfl
  refine (interrupted_write_heals issued_renewedPair hnames (Or.inr matchingPair_ownDisk)
    (run_keyRenamed True ownDisk)).1 ?_
  rintro ⟨⟨hcert, -⟩, -⟩
  cases hcert

end CyberGuard.Ingest.ServerCert
