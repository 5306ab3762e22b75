import CyberGuard.Service.MigrationStaging

/-!
# The migration is crash safe

The commit's two renames, their reversal, and the start that begins from
whatever an earlier one left: every instant is one of the safe states, and a
fit start moves on to the committed one.
-/

namespace CyberGuard.Service
set_option autoImplicit false
open Checks CrashLogic Start MigrationCustody ConsoleInstallation

variable {B : Type} [DecidableEq B] {H : Host B} {R : Request} {E : Environment}
  {L : ConsoleInstallation H E.paths} {lock : Except Stop Unit} {faults : Prop}
  {entries files : Listing B} {record : Record}

namespace ConsoleInstallation
variable {paths : InstalledPaths} (M : ConsoleInstallation H paths)

abbrev parted (entries : Listing B) : Disk B :=
  ⟨M.closedRoot, none, none, some (M.data closedDirectory entries), []⟩

abbrev migrated (entries files : Listing B) : Disk B :=
  ⟨M.closedRoot, some (staged files), none, some (M.data closedDirectory entries), []⟩

def Committed (R : Request) (d : Disk B) : Prop :=
  ∃ entries files record, M.Kept entries ∧ M.Recorded R files record ∧ M.Staged R files ∧
    d = M.migrated entries files

theorem Staged.touched {M : ConsoleInstallation H paths} {after : Listing B}
    (h : M.Staged R files) (hafter : Touched files after) : M.Staged R after := by
  obtain ⟨hnamed, text, hlaid, haccepted⟩ := h
  obtain ⟨inner, hdirectory, hinner⟩ := hlaid.identity
  refine ⟨hnamed, text, ⟨?_, ?_, inner, ?_, hinner⟩, haccepted⟩
  · rw [hafter.same _ (by decide) (by decide), hlaid.config]
  · rw [hafter.same _ (by decide) (by decide), hlaid.anchor]
  · rw [hafter.same _ (by decide) (by decide), hdirectory]

end ConsoleInstallation

variable {C : Disk B → Prop} {d : Disk B} {checked : Checked} {attempt : Attempt}
  {root : Object Unit} {security : Descriptor} {request : Option Request}

omit [DecidableEq B] in
theorem wp_renaming {t : Disk B} {point : Point} {source target : Root}
    (hperform : d.perform (.rename source target) = .ok t) (hd : C d) (ht : C t) :
    Wp (device H faults) C
      (do
        watch point
        orFailure (command (.rename source target)))
      (fun _ s => s = t) (fun _ s => faults ∧ s = d) d := by
  refine wp_bind (wp_watch hd ?_ fun hfault _ => ⟨hfault, rfl⟩)
  exact wp_orFailure (wp_done (fun _ h => h) hperform hd ht rfl fun hfault _ => ⟨hfault, rfl⟩)

omit [DecidableEq B] in
theorem wp_rewriting {point : Point} {old new : Record}
    (hold : Entries.lookup asciiLowercase files recordName = some (recordFile H old))
    (hC : ∀ t, Touches H d files old t ∨ Touches H d files new t → C t) :
    Wp (device H faults) C
      (do
        watch point
        orFailure (rewrite H E new))
      (fun _ t => Touches H d files new t) (fun _ _ => faults) (d.withStaged files) := by
  refine wp_bind (wp_watch (hC _ (.inl ⟨files, .refl files, hold, rfl⟩)) ?_ fun hfault _ => hfault)
  exact wp_orFailure ((wp_rewrite hold hC).mono (fun _ _ _ h => h) fun _ _ _ h => h.1)

/-- The console layout beside a staging directory whose record is this one. -/
def Reversed (L : ConsoleInstallation H E.paths) (R : Request) (entries : Listing B)
    (record : Record) (stop : Stop) (t : Disk B) : Prop :=
  (∃ line, stop = .refused 5 line) ∧ ∃ after, L.Recorded R after record ∧
    t = L.closed entries (some (staged after))

theorem ConsoleInstallation.Matches.marked {paths : InstalledPaths} {M : ConsoleInstallation H paths}
    (h : M.Matches R record) (pending : Bool) :
    M.Matches R { record with reversalPending := pending } :=
  ⟨h.choice, h.fingerprints, h.agentId, h.keyFingerprint, h.ordered⟩

theorem checkAppeared_ok {names : List Name} (h : ∀ name ∈ names, ∃ id,
    (name, id) ∈ checked.files) :
    checkAppeared E checked names = .ok () := by
  induction names with
  | nil => rfl
  | cons name rest ih =>
    obtain ⟨id, hid⟩ := h name List.mem_cons_self
    have hany : checked.files.any (·.1 == name) = true := by
      simpa using ⟨id, hid⟩
    simp only [checkAppeared, hany, bind_eq_ok, refuseIf_eq_ok]
    exact ⟨(), rfl, ih fun other hother => h other (List.mem_cons_of_mem _ hother)⟩

section recorded
variable (hkept : L.Kept entries) (hrecorded : L.Recorded R files record)
include hkept hrecorded

/-- A reversal never ends well; where nothing fails it ends in the console layout. -/
theorem wp_reverse {α : Type} (hstaged : L.Staged R files) (cause : String) :
    Wp (device H faults) (L.Safe R) (reverse H E record cause : Start B Stop α) (fun _ _ => False)
      (fun stop t => faults ∨ Reversed L R entries { record with reversalPending := false } stop t)
      ((L.parted entries).withStaged files) := by
  have hasked := hrecorded.asked.marked false
  refine (Wp.orElse (wp_renaming rfl (.between hkept hrecorded hstaged)
    (hrecorded.safe hkept)) ?_).andThen ?_
  · rintro (reason | _) t ht ⟨hfault, -⟩
    · exact ⟨ht, .inl hfault⟩
    · exact ⟨ht, .inl hfault⟩
  rintro _ _ _ rfl
  have hclear : Wp (device H faults) (L.Safe R)
      (do
        watch .clearReversal
        orFailure (rewrite H E { record with reversalPending := false }))
      (fun _ t => faults ∨ Touches H (L.closed entries none) files
        { record with reversalPending := false } t)
      (fun _ _ => faults) (L.closed entries (some (staged files))) := by
    refine (wp_rewriting (d := L.closed entries none) hrecorded.found ?_).mono
      (fun _ _ _ h => .inr h) fun _ _ _ h => h
    rintro t (⟨after, htouched, hfound, rfl⟩ | ⟨after, htouched, hfound, rfl⟩)
    · exact (hrecorded.touched htouched hrecorded.asked hfound).safe hkept
    · exact (hrecorded.touched htouched hasked hfound).safe hkept
  refine (hclear.orElse ?_).andThen ?_
  · rintro (reason | _) t ht hfault
    -- a failed rewrite leaves the mark and goes on
    · exact ⟨ht, .inl hfault⟩
    · exact ⟨ht, .inl hfault⟩
  rintro _ t ht (hfault | ⟨after, htouched, hfound, rfl⟩)
  · exact ⟨ht, .inl hfault⟩
  · exact ⟨ht, .inr ⟨⟨_, rfl⟩, after, hrecorded.touched htouched hasked hfound, rfl⟩⟩

theorem wp_checkNamesAgain (hchecked : checked.files = L.checkedFiles) :
    Wp (device H faults) (L.Safe R) (checkNamesAgain E checked)
      (fun _ t => t = L.closed entries (some (staged files)))
      (fun _ _ => ¬ Fit L R E lock faults) (L.closed entries (some (staged files))) := by
  have hstaging : L.Staging R (some (staged files)) := .inr ⟨files, rfl, .inr ⟨record, hrecorded⟩⟩
  refine (wp_checkRootEntries hkept hstaging (.inr rfl)).andThen ?_
  rintro _ _ _ rfl
  refine (wp_dataRootNames hkept hstaging).andThen ?_
  rintro _ _ _ ⟨rfl, rfl⟩
  refine wp_bind (wp_ok (checkAppeared_ok fun name hname => ?_) (hrecorded.safe hkept) ?_)
  · rw [hchecked]
    exact ⟨_, List.mem_map_of_mem (mem_inOrder.mpr hname)⟩
  · exact wp_ok (checkPresent_ok L.required_names) (hrecorded.safe hkept) rfl

theorem wp_commit (hstaged : L.Staged R files) (hchecked : checked.files = L.checkedFiles) :
    Wp (device H faults) (L.Safe R) (commit H E record checked)
      (fun _ t => t = L.migrated entries files)
      (fun _ _ => ¬ Fit L R E lock faults) (L.closed entries (some (staged files))) := by
  have hbetween : L.Safe R ((L.parted entries).withStaged files) :=
    .between hkept hrecorded hstaged
  have hfirst : Wp (device H faults) (L.Safe R)
      (do
        watch .firstRename
        orFailure (checkNamesAgain E checked)
        orFailure (command (.rename .dataRoot .legacy)))
      (fun _ t => t = (L.parted entries).withStaged files)
      (fun _ _ => ¬ Fit L R E lock faults) (L.closed entries (some (staged files))) := by
    refine wp_bind (wp_watch (hrecorded.safe hkept) ?_ fun h _ => Fit.not_faults h)
    refine (wp_orFailure (wp_checkNamesAgain hkept hrecorded hchecked)).andThen ?_
    rintro _ _ _ rfl
    exact wp_orFailure (wp_done (fun _ h => h) rfl (hrecorded.safe hkept) hbetween rfl
      fun h _ => Fit.not_faults h)
  refine (wp_refusing hfirst fun cut _ hC hunfit => wp_cutInPlace hC hunfit cut).andThen ?_
  rintro _ _ _ rfl
  refine Wp.orElse (wp_renaming rfl hbetween (.committed hkept hrecorded hstaged)) ?_
  rintro (cause | _) t ht ⟨hfault, rfl⟩
  swap
  · exact ⟨ht, Fit.not_faults hfault⟩
  have hasked := hrecorded.asked.marked true
  refine (Wp.orElse (wp_rewriting (d := L.parted entries) hrecorded.found ?_) ?_).andThen ?_
  · rintro t (⟨after, htouched, hfound, rfl⟩ | ⟨after, htouched, hfound, rfl⟩)
    · exact .between hkept (hrecorded.touched htouched hrecorded.asked hfound)
        (hstaged.touched htouched)
    · exact .between hkept (hrecorded.touched htouched hasked hfound) (hstaged.touched htouched)
  · rintro (reason | _) t ht _
    · exact ⟨ht, Fit.not_faults hfault⟩
    · exact ⟨ht, Fit.not_faults hfault⟩
  rintro _ _ _ ⟨after, htouched, hfound, rfl⟩
  refine (wp_reverse hkept (hrecorded.touched htouched hasked hfound) (hstaged.touched htouched)
    _).mono (fun _ _ _ h => h.elim) fun _ _ _ _ => Fit.not_faults hfault

end recorded

def DirectoriesPass (E : Environment) (d : Disk B) : Prop :=
  (∃ there, checkDataDirectory (some d.productNode) E.paths.productRoot = .ok there) ∧
    ∃ there, checkDataDirectory d.dataRoot E.paths.dataRoot = .ok there

omit [DecidableEq B] in
theorem wp_checkDirectory (hC : C d) (found : Disk B → Option (Node B)) (path : String) :
    Wp (device H faults) C
      (do
        command (.access path)
        let d ← disk
        let _ ← Prog.ofExcept (checkDataDirectory (found d) path))
      (fun _ t => t = d)
      (fun _ t => t = d ∧ (faults ∨ ¬ ∃ there, checkDataDirectory (found d) path = .ok there))
      d := by
  refine wp_bind (wp_access hC ?_ fun hfault _ => ⟨rfl, .inl hfault⟩)
  refine wp_disk (wp_bind (wp_ofExcept hC ?_))
  cases hcheck : checkDataDirectory (found d) path with
  | ok there => exact ⟨hC, rfl⟩
  | error reason =>
    refine ⟨rfl, .inr ?_⟩
    rintro ⟨there, hthere⟩
    cases hthere

omit [DecidableEq B] in
theorem wp_checkDataDirectories (console : Bool) (hC : C d) :
    Wp (device H faults) C (checkDataDirectories E console) (fun _ t => t = d)
      (fun _ t => t = d ∧ (faults ∨ ¬ DirectoriesPass E d)) d := by
  refine ((wp_checkDirectory hC (fun d => some d.productNode) _).orElse ?_).andThen ?_
  · rintro reason t ht ⟨rfl, hstop⟩
    exact ⟨ht, rfl, hstop.imp_right fun h hpass => h hpass.1⟩
  rintro _ _ _ rfl
  refine (wp_checkDirectory hC (·.dataRoot) _).orElse ?_
  rintro reason t ht ⟨rfl, hstop⟩
  exact ⟨ht, rfl, hstop.imp_right fun h hpass => h hpass.2⟩

theorem directoriesPass_migrated : DirectoriesPass E (L.migrated entries files) := by
  refine ⟨⟨true, checkDataDirectory_closed ?_ rfl rfl _⟩, ⟨true, checkDataDirectory_closed rfl rfl rfl _⟩⟩
  exact L.productRoot_plain

theorem wp_checkMigrated {Q : Unit → Disk B → Prop} (hsafe : L.Safe R (L.migrated entries files))
    (hQ : Q () (L.migrated entries files)) :
    Wp (device H faults) (L.Safe R) (checkDataDirectories E false) Q
      (fun _ _ => faults) (L.migrated entries files) := by
  refine (wp_checkDataDirectories false hsafe).mono ?_ ?_
  · rintro _ _ _ rfl
    exact hQ
  · rintro _ _ _ ⟨-, hfault | hpass⟩
    · exact hfault
    · exact absurd directoriesPass_migrated hpass

inductive Begun (L : ConsoleInstallation H E.paths) (R : Request) :
    Attempt → Option (Node B) → Prop where
  | fresh : Begun L R .fresh none
  | interrupted {files : Listing B} : Recordless H files →
      Begun L R .interrupted (some (staged files))
  | continued {files : Listing B} {record : Record} : L.Recorded R files record →
      Begun L R (.continued record) (some (staged files))

theorem Begun.staging {staging : Option (Node B)} (h : Begun L R attempt staging) :
    L.Staging R staging := by
  cases h with
  | fresh => exact .inl rfl
  | interrupted hrecordless => exact .inr ⟨_, rfl, .inl hrecordless⟩
  | continued hrecorded => exact .inr ⟨_, rfl, .inr ⟨_, hrecorded⟩⟩

/-- The route once the staging directory is the attempt's own or none. -/
theorem wp_migrate (hH : H.Inverse) (hpaths : E.paths.trustAnchor ≠ "") {staging : Option (Node B)}
    (hkept : L.Kept entries) (hattempted : Attempted L R attempt staging) :
    Wp (device H faults) (L.Safe R)
      (do
        let checked ← checkWhatIsThere E attempt
        let verified ← readEachFile H E R attempt checked
        restrictFiles E checked
        let record ← (recordAndStage H E R attempt checked verified).handle
          (cutInPlace E 5 identityLine)
        commit H E record checked
        checkDataDirectories E false
        return Prepared.committed)
      (fun prepared t => prepared = .committed ∧ L.Committed R t)
      (fun _ _ => ¬ Fit L R E lock faults) (L.closed entries staging) := by
  refine (wp_checkWhatIsThere hkept hattempted.staging hattempted.awaited).andThen ?_
  rintro checked _ _ ⟨hchecked, rfl⟩
  refine (wp_readEachFile hkept hattempted.staging hattempted.asked hchecked).andThen ?_
  rintro _ _ _ ⟨rfl, hnamed, rfl⟩
  refine (wp_restrictFiles hkept hattempted.staging hchecked).andThen ?_
  rintro _ _ _ ⟨after, hafter, rfl⟩
  refine (wp_refusing (wp_recordAndStage hH hpaths hafter hattempted checked hnamed)
    fun cut _ hC hunfit => wp_cutInPlace hC hunfit cut).andThen ?_
  rintro record _ _ ⟨-, files, hrecorded, hstaged, rfl⟩
  refine (wp_commit hafter hrecorded hstaged hchecked).andThen ?_
  rintro _ _ hmigrated rfl
  refine wp_bind ((wp_checkMigrated hmigrated ?_).mono (fun _ _ _ h => h)
    fun _ _ _ hfault => Fit.not_faults hfault)
  exact ⟨hmigrated, rfl, after, files, record, hafter, hrecorded, hstaged, rfl⟩

theorem wp_route (hH : H.Inverse) (hpaths : E.paths.trustAnchor ≠ "") {staging : Option (Node B)}
    (hroot : L.Root root) (hsecurity : L.Security security) (hkept : L.Kept entries)
    (hbegun : Begun L R attempt staging) :
    Wp (device H faults) (L.Safe R) (route H E R attempt lock)
      (fun prepared t => prepared = .committed ∧ L.Committed R t)
      (fun _ _ => ¬ Fit L R E lock faults)
      ⟨root, some (L.data security entries), staging, none, []⟩ := by
  have hsafe : L.Safe R ⟨root, some (L.data security entries), staging, none, []⟩ :=
    .console hroot hsecurity hkept hbegun.staging
  cases hlock : lock with
  | error stop =>
    have hunfit : ¬ Fit L R E (.error stop) faults := fun hfit => nomatch hfit.locked
    cases stop with
    | refused code line => exact wp_bind (wp_inPlace hsafe hunfit)
    | crashed => exact wp_bind ⟨hsafe, hunfit⟩
  | ok _ =>
    refine wp_bind (wp_handle (wp_ok rfl hsafe ?_))
    refine (wp_closeDirectories hroot hsecurity hkept hbegun.staging).andThen ?_
    rintro _ _ _ rfl
    cases hbegun with
    | fresh => exact wp_migrate hH hpaths hkept (.anew rfl)
    | continued hrecorded => exact wp_migrate hH hpaths hkept (.continued hrecorded)
    | interrupted hrecordless =>
      refine (wp_deleteInterruptedStaging hkept hrecordless).andThen ?_
      rintro _ _ _ rfl
      exact wp_migrate hH hpaths hkept (.anew rfl)

theorem counts_data : counts (some (L.data closedDirectory entries)) E.paths.legacy = true :=
  counts_closed L.dataRoot_plain rfl rfl _

omit [DecidableEq B] in
theorem counts_staged (path : String) : counts (some (staged files)) path = true :=
  counts_closed rfl rfl rfl _

theorem isConsole_console {staging : Option (Node B)} (hkept : L.Kept entries) :
    isConsole ⟨root, some (L.data security entries), staging, none, []⟩ = true := by
  obtain ⟨node, _, hlookup, -⟩ := file_kept hkept (L.required_names .cert (by decide))
  refine List.any_eq_true.mpr ⟨.cert, by decide, ?_⟩
  show (Entries.lookup asciiLowercase entries Name.cert.text).isSome = true
  rw [hlookup]
  rfl

theorem isConsole_migrated (hrecorded : L.Recorded R files record) :
    isConsole (L.migrated entries files) = false := by
  refine List.any_eq_false.mpr fun name hname => ?_
  show ¬ (Entries.lookup asciiLowercase files name.text).isSome = true
  have habsent : Entries.lookup asciiLowercase files name.text = none := by
    refine Entries.lookup_eq_none.mpr fun entry hentry => ?_
    have hother : ∀ name ∈ identityFiles, ∀ own ∈ ownNames,
        asciiLowercase own ≠ asciiLowercase name.text := by decide
    exact hother name hname entry.1 (hrecorded.own entry hentry)
  simp [habsent]

theorem combination_console (hkept : L.Kept entries) :
    combination E ⟨root, some (L.data security entries), none, none, []⟩ = .consoleLayout := by
  simp [combination, counts, checkIfExists, isConsole_console hkept]

theorem combination_beside (hkept : L.Kept entries) :
    combination E ⟨root, some (L.data security entries), some (staged files), none, []⟩ =
      .besideAConsoleLayout := by
  have hlegacy : counts (none : Option (Node B)) E.paths.legacy = false := rfl
  simp [combination, counts_staged, hlegacy, isConsole_console hkept]

theorem combination_between :
    combination E ((L.parted entries).withStaged files) = .betweenTheRenames := by
  simp [combination, counts_staged, counts_data]

theorem combination_migrated (hrecorded : L.Recorded R files record) :
    combination E (L.migrated entries files) = .committed := by
  have hstaging : counts (none : Option (Node B)) E.paths.staging = false := rfl
  simp [combination, hstaging, counts_data, isConsole_migrated hrecorded]

omit [DecidableEq B] in
theorem wp_stagedRecord (hC : C d) :
    Wp (device H faults) C (stagedRecord H E)
      (fun found t => found = recordOf H (d.staging.bind (·.child recordName)) E.stagedRecord ∧ t = d)
      (fun _ t => faults ∧ t = d) d := by
  refine wp_bind (wp_handle (wp_access hC ?_ fun hfault _ => ⟨hC, hfault, rfl⟩))
  exact wp_disk ⟨hC, rfl, rfl⟩

theorem recordOf_recorded (hH : H.Inverse) (hrecorded : L.Recorded R files record) (path : String) :
    recordOf H ((some (staged files)).bind (·.child recordName)) path = some record := by
  have hchild : (some (staged files)).bind (·.child recordName) = some (recordFile H record) :=
    hrecorded.found
  rw [hchild]
  exact recordOf_newFile hH hrecorded.asked.ordered path

omit [DecidableEq B] in
theorem recordOf_recordless (h : Recordless H files) (path : String) :
    recordOf H ((some (staged files)).bind (·.child recordName)) path = none := by
  show recordOf H (Entries.lookup asciiLowercase files recordName) path = none
  cases hlookup : Entries.lookup asciiLowercase files recordName with
  | none => rfl
  | some node =>
    obtain ⟨entry, hentry, hname, rfl⟩ := Entries.mem_of_lookup hlookup
    exact h entry hentry hname path

theorem sameSet_self (a : List String) : sameSet a a = true := by
  simp [sameSet]

theorem ConsoleInstallation.Matches.asksFor {paths : InstalledPaths}
    {M : ConsoleInstallation H paths} (h : M.Matches R record) : record.asksFor R = true := by
  simp [Record.asksFor, h.choice, h.fingerprints, sameSet_self]

/-- A start with the migration's request or without one. -/
def Asks (R : Request) (request : Option Request) : Prop := request = none ∨ request = some R

theorem checkRecorded_ok (hasks : Asks R request) (hrecorded : L.Matches R record) :
    checkRecorded request record = .ok () := by
  rcases hasks with rfl | rfl
  · rfl
  · simp [checkRecorded, hrecorded.asksFor]

def Finishes (L : ConsoleInstallation H E.paths) (R : Request) (request : Option Request)
    (prepared : Prepared) (t : Disk B) : Prop :=
  request = some R → prepared = .committed ∧ L.Committed R t

def Stops (L : ConsoleInstallation H E.paths) (R : Request) (lock : Except Stop Unit)
    (faults : Prop) (request : Option Request) (d : Disk B) (stop : Stop) (t : Disk B) : Prop :=
  request = some R → Fit L R E lock faults → ∃ entries files record,
    d = (L.parted entries).withStaged files ∧ L.Recorded R files record ∧
      record.reversalPending = true ∧
      Reversed L R entries { record with reversalPending := false } stop t

theorem stops_of_not_fit {t : Disk B} {stop : Stop} (h : ¬ Fit L R E lock faults) :
    Stops L R lock faults request d stop t :=
  fun _ hfit => absurd hfit h

theorem wp_besideAConsoleLayout (hH : H.Inverse) (hpaths : E.paths.trustAnchor ≠ "")
    (hasks : Asks R request) (hroot : L.Root root) (hsecurity : L.Security security)
    (hkept : L.Kept entries) (hstaging : Recordless H files ∨ ∃ record, L.Recorded R files record)
    (d : Disk B) :
    Wp (device H faults) (L.Safe R) (besideAConsoleLayout H E request lock)
      (Finishes L R request) (Stops L R lock faults request d)
      ⟨root, some (L.data security entries), some (staged files), none, []⟩ := by
  have hsafe : L.Safe R ⟨root, some (L.data security entries), some (staged files), none, []⟩ :=
    .console hroot hsecurity hkept (.inr ⟨files, rfl, hstaging⟩)
  have hroute : ∀ attempt, Begun L R attempt (some (staged files)) →
      Wp (device H faults) (L.Safe R) (route H E R attempt lock)
        (Finishes L R request) (Stops L R lock faults request d)
        ⟨root, some (L.data security entries), some (staged files), none, []⟩ :=
    fun attempt hbegun => (wp_route hH hpaths hroot hsecurity hkept hbegun).mono
      (fun _ _ _ h _ => h) fun _ _ _ h => stops_of_not_fit h
  refine (wp_stagedRecord hsafe).orElse ?_ |>.andThen ?_
  · rintro reason t ht ⟨hfault, -⟩
    exact ⟨ht, stops_of_not_fit (Fit.not_faults hfault)⟩
  rintro _ _ _ ⟨rfl, rfl⟩
  rcases hasks with rfl | rfl
  · have hnone : ∀ stop t, Stops L R lock faults none d stop t := fun _ _ h => nomatch h
    rcases hstaging with hrecordless | ⟨record, hrecorded⟩
    · rw [recordOf_recordless hrecordless]
      exact ⟨hsafe, hnone _ _⟩
    · rw [recordOf_recorded hH hrecorded]
      exact ⟨hsafe, hnone _ _⟩
  · rcases hstaging with hrecordless | ⟨record, hrecorded⟩
    · rw [recordOf_recordless hrecordless]
      exact hroute .interrupted (.interrupted hrecordless)
    · rw [recordOf_recorded hH hrecorded]
      show Wp _ _ (if _ then _ else _) _ _ _
      rw [if_pos hrecorded.asked.asksFor]
      exact hroute (.continued record) (.continued hrecorded)

theorem wp_betweenTheRenames (hH : H.Inverse) (hasks : Asks R request) (hkept : L.Kept entries)
    (hrecorded : L.Recorded R files record) (hstaged : L.Staged R files) :
    Wp (device H faults) (L.Safe R) (betweenTheRenames H E request lock)
      (Finishes L R request) (Stops L R lock faults request ((L.parted entries).withStaged files))
      ((L.parted entries).withStaged files) := by
  have hsafe : L.Safe R ((L.parted entries).withStaged files) := .between hkept hrecorded hstaged
  refine (wp_stagedRecord hsafe).orElse ?_ |>.andThen ?_
  · rintro reason t ht ⟨hfault, -⟩
    exact ⟨ht, stops_of_not_fit (Fit.not_faults hfault)⟩
  rintro _ _ _ ⟨rfl, rfl⟩
  rw [recordOf_recorded hH hrecorded]
  refine wp_bind (wp_ok (checkRecorded_ok hasks hrecorded.asked) hsafe ?_)
  cases hlock : lock with
  | error stop => exact wp_bind ⟨hsafe, stops_of_not_fit fun hfit => nomatch hfit.locked⟩
  | ok _ =>
    refine wp_bind (wp_ok rfl hsafe ?_)
    show Wp _ _ (if _ then _ else _) _ _ _
    by_cases hpending : record.reversalPending = true
    · rw [if_pos hpending]
      refine (wp_reverse hkept hrecorded hstaged _).mono (fun _ _ _ h => h.elim) ?_
      rintro stop t - (hfault | hreversed)
      · exact stops_of_not_fit (Fit.not_faults hfault)
      · exact fun _ _ => ⟨entries, files, record, rfl, hrecorded, hpending, hreversed⟩
    · rw [if_neg hpending]
      obtain ⟨hnamed, text, hlaid, haccepted⟩ := id hstaged
      have hmigrated : L.Safe R (L.migrated entries files) := .committed hkept hrecorded hstaged
      have hcheck := (checkStaged_ok hH hrecorded hlaid hnamed).mpr haccepted
      have hcomplete : Wp (device H faults) (L.Safe R)
          (do
            orFailure (checkStagedNow H E record)
            watch .completeCommit
            orFailure (command (.rename .staging .dataRoot)))
          (fun _ t => t = L.migrated entries files) (fun _ _ => faults)
          ((L.parted entries).withStaged files) := by
        refine wp_bind (wp_orFailure (wp_checkStagedNow hsafe ?_ ?_))
        · intro _
          exact (wp_renaming rfl hsafe hmigrated).mono (fun _ _ _ h => h) fun _ _ _ h => h.1
        · rintro (hfault | hrefused) _
          · exact hfault
          · exact absurd hcheck hrefused
      refine (hcomplete.orElse ?_).andThen ?_
      · rintro (reason | _) t ht hfault
        · exact ⟨ht, stops_of_not_fit (Fit.not_faults hfault)⟩
        · exact ⟨ht, stops_of_not_fit (Fit.not_faults hfault)⟩
      rintro _ _ _ rfl
      refine wp_bind ((wp_checkMigrated hmigrated ?_).mono (fun _ _ _ h => h)
        fun _ _ _ hfault => stops_of_not_fit (Fit.not_faults hfault))
      exact ⟨hmigrated, fun _ => ⟨rfl, entries, files, record, hkept, hrecorded, hstaged, rfl⟩⟩

theorem wp_committed (hH : H.Inverse) (hasks : Asks R request) (hkept : L.Kept entries)
    (hrecorded : L.Recorded R files record) (hstaged : L.Staged R files) (d : Disk B) :
    Wp (device H faults) (L.Safe R) (committed H E request)
      (Finishes L R request) (Stops L R lock faults request d) (L.migrated entries files) := by
  have hsafe : L.Safe R (L.migrated entries files) := .committed hkept hrecorded hstaged
  have hfaults : faults → ∀ stop t, Stops L R lock faults request d stop t :=
    fun hfault _ _ => stops_of_not_fit (Fit.not_faults hfault)
  have hread : readChecked ((some (staged files)).bind (·.child recordName)) E.paths.record
      configuration = .ok (some (H.printRecord record)) := by
    have hchild : (some (staged files)).bind (·.child recordName) = some (recordFile H record) :=
      hrecorded.found
    rw [hchild]
    rfl
  refine wp_bind ((wp_checkMigrated hsafe ?_).mono (fun _ _ _ h => h)
    fun stop t _ hfault => hfaults hfault stop t)
  refine wp_bind (wp_bind (wp_handle (wp_access hsafe ?_ fun hfault _ => ⟨hsafe, hfaults hfault _ _⟩)))
  refine wp_disk (wp_bind (wp_ok (mapError_eq_ok.mpr hread) hsafe ?_))
  refine wp_bind (wp_ok (okOr_eq_ok.mpr (hH.parse_printRecord record hrecorded.asked.ordered))
    hsafe ⟨hsafe, ?_⟩)
  refine wp_bind (wp_ok (checkRecorded_ok hasks hrecorded.asked) hsafe ⟨hsafe, fun _ => ⟨rfl, ?_⟩⟩)
  exact ⟨entries, files, record, hkept, hrecorded, hstaged, rfl⟩

/-- From every state a cut start may leave, with the request or without one. -/
theorem wp_prepare (hH : H.Inverse) (hpaths : E.paths.trustAnchor ≠ "") (hasks : Asks R request)
    (hsafe : L.Safe R d) :
    Wp (device H faults) (L.Safe R) (prepare H E request lock)
      (Finishes L R request) (Stops L R lock faults request d) d := by
  refine wp_disk ?_
  cases hsafe with
  | committed hkept hrecorded hstaged =>
    rw [combination_migrated hrecorded]
    exact wp_committed hH hasks hkept hrecorded hstaged _
  | between hkept hrecorded hstaged =>
    rw [combination_between]
    exact wp_betweenTheRenames hH hasks hkept hrecorded hstaged
  | @console root security entries staging hroot hsecurity hkept hstaging =>
    rcases hstaging with rfl | ⟨files, rfl, hfiles⟩
    · rw [combination_console hkept]
      rcases hasks with rfl | rfl
      · refine wp_bind ((wp_checkDataDirectories true (.console hroot hsecurity hkept
          (.inl rfl))).mono ?_ fun _ _ _ _ h => nomatch h)
        intro _ t ht _
        exact ⟨ht, fun h => nomatch h⟩
      · exact (wp_route hH hpaths hroot hsecurity hkept .fresh).mono (fun _ _ _ h _ => h)
          fun _ _ _ h => stops_of_not_fit h
    · rw [combination_beside hkept]
      exact wp_besideAConsoleLayout hH hpaths hasks hroot hsecurity hkept hfiles _

/-- A start with the migration's request or without one, on any clock, with any host name and any
answer for the lock. -/
def Calls (H : Host B) (paths : InstalledPaths) (R : Request) (p : Start B Stop Prepared) : Prop :=
  ∃ now hostname request lock, Asks R request ∧ p = prepare H ⟨paths, now, hostname⟩ request lock

section reached
variable {paths : InstalledPaths} (M : ConsoleInstallation H paths)

def ConsoleInstallation.Leaves (R : Request) (d : Disk B) : Prop :=
  Reached (device H True) (Calls H paths R) M.disk d

def ConsoleInstallation.HoldsIdentity (directory : Option (Node B)) : Prop :=
  ∀ name ∈ identityFiles, ∃ node, directory.bind (·.child name.text) = some node ∧
    node.content = .file (M.bytes name)

variable {M} {d : Disk B}

theorem safe_of_leaves (hH : H.Inverse) (hpaths : paths.trustAnchor ≠ "") (h : M.Leaves R d) :
    M.Safe R d := by
  refine Reached.invariant (Q := fun _ _ => True) (F := fun _ _ => True) (M.safe_disk R) ?_ h
  rintro p s ⟨now, hostname, request, lock, hasks, rfl⟩ hs
  exact (wp_prepare (E := ⟨paths, now, hostname⟩) hH hpaths hasks hs).mono
    (fun _ _ _ _ => trivial) fun _ _ _ _ => trivial

theorem holdsIdentity_of_kept {security : Descriptor} (hkept : M.Kept entries) :
    M.HoldsIdentity (some (M.data security entries)) := by
  intro name hname
  have hrequired : ∀ name ∈ identityFiles, name ∈ required := by decide
  obtain ⟨node, _, hlookup, hcontent, -⟩ :=
    file_kept hkept (M.required_names name (hrequired name hname))
  exact ⟨node, hlookup, hcontent⟩

theorem identity_of_safe (h : M.Safe R d) : M.HoldsIdentity d.dataRoot ∨
    M.HoldsIdentity d.legacy := by
  cases h with
  | console _ _ hkept _ => exact .inl (holdsIdentity_of_kept hkept)
  | between hkept _ _ => exact .inr (holdsIdentity_of_kept hkept)
  | committed hkept _ _ => exact .inr (holdsIdentity_of_kept hkept)

omit [DecidableEq B] in
theorem calm_answers (o : Op B) (s : Disk B) :
    (device H faults).answers o s (calm o s).1 (calm o s).2 := by
  cases o with
  | watch point => exact ⟨rfl, .inl rfl⟩
  | command c =>
    cases hperform : s.perform c with
    | ok t =>
      refine .inl ?_
      simp [calm, hperform]
    | error reason =>
      refine .inr (.inl ⟨reason, ?_⟩)
      simp [calm, hperform]

/-- An uncut start with the request, where nothing fails and the lock is granted. -/
def uncut (H : Host B) (E : Environment) (R : Request) (d : Disk B) : Except Stop Prepared × Disk B :=
  exec calm (prepare H E (some R) (.ok ())) d

def Commits (M : ConsoleInstallation H paths) (R : Request) (E : Environment) (d : Disk B) : Prop :=
  (uncut H E R d).1 = .ok .committed ∧ M.Committed R (uncut H E R d).2

def Reverses (M : ConsoleInstallation H paths) (R : Request) (E : Environment) (d : Disk B) : Prop :=
  (∃ files record, d.dataRoot = none ∧ d.staging = some (staged files) ∧
    M.Recorded R files record ∧ record.reversalPending = true) ∧
  (∃ line, (uncut H E R d).1 = .error (.refused 5 line)) ∧
  ∃ entries staging, M.Kept entries ∧ M.Staging R staging ∧
    (uncut H E R d).2 = M.closed entries staging

theorem uncut_ends (hH : H.Inverse) (hpaths : E.paths.trustAnchor ≠ "")
    (hfit : Fit L R E (.ok ()) False) (hsafe : L.Safe R d) :
    Commits L R E d ∨ Reverses L R E d := by
  have hprepare : Wp (device H False) (L.Safe R) (prepare H E (some R) (.ok ()))
      (Finishes L R (some R)) (Stops L R (.ok ()) False (some R) d) d :=
    wp_prepare hH hpaths (.inr rfl) hsafe
  have hends := (hprepare.exec calm_answers).2
  cases hresult : (uncut H E R d).1 with
  | ok prepared =>
    have hfinishes : Finishes L R (some R) prepared (uncut H E R d).2 := by
      rw [show (exec calm (prepare H E (some R) (.ok ())) d).1 = .ok prepared from hresult] at hends
      exact hends
    obtain ⟨rfl, hcommitted⟩ := hfinishes rfl
    exact .inl ⟨hresult, hcommitted⟩
  | error stop =>
    have hstops : Stops L R (.ok ()) False (some R) d stop (uncut H E R d).2 := by
      rw [show (exec calm (prepare H E (some R) (.ok ())) d).1 = .error stop from hresult] at hends
      exact hends
    obtain ⟨entries, files, record, rfl, hrecorded, hpending, ⟨line, rfl⟩, after, hrecorded', hleft⟩ :=
      hstops rfl hfit
    have hkept : L.Kept entries := by
      cases hsafe with
      | between hkept _ _ => exact hkept
    refine .inr ⟨⟨files, record, rfl, rfl, hrecorded, hpending⟩, ⟨line, hresult⟩, entries, _, hkept,
      .inr ⟨after, rfl, .inr ⟨_, hrecorded'⟩⟩, hleft⟩

theorem commits_after_reversal {paths : InstalledPaths} {M : ConsoleInstallation H paths}
    {now now' : Int} {hostname hostname' : Except String String} (hH : H.Inverse)
    (hpaths : paths.trustAnchor ≠ "") (hfit : Fit M R ⟨paths, now', hostname'⟩ (.ok ()) False)
    (h : Reverses M R ⟨paths, now, hostname⟩ d) :
    Commits M R ⟨paths, now', hostname'⟩ (uncut H ⟨paths, now, hostname⟩ R d).2 := by
  obtain ⟨-, -, entries, staging, hkept, hstaging, hleft⟩ := h
  rw [hleft]
  rcases uncut_ends (E := ⟨paths, now', hostname'⟩) hH hpaths hfit
    (safe_closed hkept hstaging) with hcommits | ⟨⟨_, _, hnone, _⟩, _⟩
  · exact hcommits
  · cases hnone

/-- The combination of the three directories is one a start tells apart and acts on. -/
theorem combination_of_safe (hH : H.Inverse) (hsafe : L.Safe R d) :
    combination E d ≠ .other ∧ (combination E d = .committed →
      (recordOf H (d.dataRoot.bind (·.child recordName)) E.paths.record).isSome = true) := by
  cases hsafe with
  | committed hkept hrecorded hstaged =>
    rw [combination_migrated hrecorded]
    refine ⟨by decide, fun _ => ?_⟩
    rw [recordOf_recorded hH hrecorded]
    rfl
  | between hkept hrecorded hstaged =>
    rw [show combination E _ = _ from combination_between]
    exact ⟨by decide, fun h => nomatch h⟩
  | @console root security entries staging hroot hsecurity hkept hstaging =>
    rcases hstaging with rfl | ⟨files, rfl, hfiles⟩
    · rw [combination_console hkept]
      exact ⟨by decide, fun h => nomatch h⟩
    · rw [combination_beside hkept]
      exact ⟨by decide, fun h => nomatch h⟩

end reached

theorem under_trustAnchor (programData : String) :
    (InstalledPaths.under programData).trustAnchor ≠ "" := by
  intro h
  have hlength := congrArg (fun text : String => text.toList.length) h
  simp [InstalledPaths.under, join] at hlength

def samplePaths : InstalledPaths := .under "C:\\ProgramData"

def sampleTable : Table :=
  [("server", .table [("url", .string "https://server"),
      ("trust_anchor_path", .string (join samplePaths.dataRoot "server-ca.pem")),
      ("heartbeat_url", .string "https://server")]),
    ("agent", .table [("id", .string "01890a5d-ac96-774b-bcce-b302099a8057"),
      ("hostname", .string "host")]),
    ("enrollment", .table [("cert_path", .string (join samplePaths.dataRoot "cert.pem")),
      ("key_path", .string (join samplePaths.dataRoot "key.dat")),
      ("identity_path", .string (join samplePaths.dataRoot "identity.json"))])]

def sampleConfig : AgentConfig where
  server := ⟨"https://server", some (join samplePaths.dataRoot "server-ca.pem"), some "https://server"⟩
  agent := ⟨"01890a5d-ac96-774b-bcce-b302099a8057", "host"⟩
  heartbeat := .default
  log := ⟨"info"⟩
  enrollment := some ⟨none, join samplePaths.dataRoot "cert.pem", join samplePaths.dataRoot "key.dat",
    join samplePaths.dataRoot "identity.json", 30, 3, 1000, .finite 2⟩
  tls := none
  envelope := none

def sampleDocument : Toml := .table sampleTable

theorem read_sample : AgentConfig.read sampleDocument = some sampleConfig := rfl

theorem required_sample : checkRequired sampleDocument = .ok () := by decide

def sampleText : String := sampleDocument.toJson.write

theorem parse_sampleText : jsonFormat.parse sampleText = .ok sampleDocument := by
  rw [sampleText, sampleDocument]
  exact jsonFormat_parse sampleTable

theorem sample_load : loadFromStr jsonFormat sampleText = .ok sampleConfig :=
  loadFromStr_ok.mpr ⟨_, parse_sampleText, required_sample, read_sample, by decide, by decide,
    by decide, by decide⟩

theorem sample_legacy : checkLegacyConfig jsonFormat samplePaths (some sampleText) =
    .ok sampleText := by
  have hconsole : ∀ name ∈ ["server-ca.pem", "cert.pem", "key.dat", "identity.json"],
      isConsolePath (join samplePaths.dataRoot name) (join samplePaths.dataRoot name) = true := by
    decide
  simp only [checkLegacyConfig, bind_eq_ok, mapError_eq_ok, okOr_eq_ok, refuseIf_eq_ok, pure_eq_ok]
  refine ⟨sampleText, rfl, sampleConfig, sample_load, sampleDocument, parse_sampleText, (), rfl, _,
    rfl, (), ?_, (), ?_, (), ?_, (), ?_, (), by decide, rfl⟩
  · simpa [sampleConfig] using hconsole "server-ca.pem" (by decide)
  · simpa [sampleConfig] using hconsole "cert.pem" (by decide)
  · simpa [sampleConfig] using hconsole "key.dat" (by decide)
  · simpa [sampleConfig] using hconsole "identity.json" (by decide)

def textOf : Json Nat → Option String
  | .string text => some text
  | _ => none

def textsJson (texts : List String) : Json Nat := .array (texts.map .string)

def textsOf : Json Nat → Option (List String)
  | .array items => items.mapM textOf
  | _ => none

theorem textsOf_textsJson (texts : List String) : textsOf (textsJson texts) = some texts := by
  rw [textsJson, textsOf]
  induction texts with
  | nil => rfl
  | cons text rest ih =>
    rw [List.map_cons, List.mapM_cons, ih]
    rfl

def filesOf (fields : List (String × Json Nat)) : Option (List (String × String)) :=
  fields.mapM fun (name, id) => (textOf id).map fun id => (name, id)

theorem filesOf_map (files : List (String × String)) :
    filesOf (files.map fun (name, id) => (name, .string id)) = some files := by
  rw [filesOf]
  induction files with
  | nil => rfl
  | cons file rest ih =>
    rw [List.map_cons, List.mapM_cons, ih]
    rfl

namespace Record

def toJson (record : Record) : Json Nat := .object
  [("choice", .boolean (record.choice == .remove)), ("fingerprints", textsJson record.fingerprints),
    ("agent_id", .string record.agentId), ("key_fingerprint", .string record.keyFingerprint),
    ("enrolling_account", textsJson record.enrollingAccount.toList),
    ("files", .object (record.files.map fun (name, id) => (name, .string id))),
    ("reversal_pending", .boolean record.reversalPending),
    ("copies_not_reached", textsJson record.copiesNotReached)]

def ofJson : Json Nat → Option Record
  | .object [(_, .boolean remove), (_, fingerprints), (_, .string agentId),
      (_, .string keyFingerprint), (_, account), (_, .object files), (_, .boolean pending),
      (_, copies)] => do
    return ⟨if remove then .remove else .keep, ← textsOf fingerprints, agentId, keyFingerprint,
      (← textsOf account).head?, ← filesOf files, pending, ← textsOf copies⟩
  | _ => none

theorem ofJson_toJson (record : Record) : ofJson record.toJson = some record := by
  obtain ⟨choice, fingerprints, agentId, keyFingerprint, account, files, pending, copies⟩ := record
  simp only [toJson, ofJson, textsOf_textsJson, filesOf_map]
  cases choice <;> cases account <;> rfl

end Record

def sampleAgent : String := "01890a5d-ac96-774b-bcce-b302099a8057"

/-- Records, certificates and the configuration are JSON texts. -/
def sampleHost : Host String where
  toml := jsonFormat
  fromUtf8 := some
  asBytes := id
  empty := ""
  size := fun _ => keyLen
  parseRecord := fun bytes => (Json.read bytes).bind Record.ofJson
  printRecord := fun record => record.toJson.write
  pemCertificates := fun bytes => (Json.read bytes).bind textsOf
  encodePem := fun certificates => (textsJson certificates).write
  sha256 := id
  unsealKey := .ok
  publicKey := id
  pubkeyFingerprint := id
  parseIdentity := fun _ => .ok ⟨sampleAgent, "key", "issued", "expires"⟩
  certificateIdentityDer := fun _ => .ok ⟨sampleAgent, "key"⟩
  parseRfc3339 := fun _ => some 100
  sidText := fun _ => ""

theorem sample_pem (certificates : List String) :
    sampleHost.pemCertificates (sampleHost.encodePem certificates) = some certificates := by
  simp only [sampleHost, Json.read_write, Option.bind_some, textsOf_textsJson]

theorem sampleHost_inverse : sampleHost.Inverse where
  toml := jsonFormat_inverse
  fromUtf8_asBytes := fun _ => rfl
  asBytes_fromUtf8 := fun _ _ h => (Option.some.inj h).symm
  parse_printRecord := by
    intro record _
    simp only [sampleHost, Json.read_write, Option.bind_some, Record.ofJson_toJson]
  pem_encodePem := sample_pem

def sampleBytes : Name → String
  | .config => sampleText
  | .anchor => sampleHost.encodePem ["anchor"]
  | .cert => sampleHost.encodePem ["certificate"]
  | .key => "key"
  | .identity => "identity"
  | .temporary => ""

/-- As the closed one, but users may read. -/
def openDirectory : Descriptor :=
  { closedDirectory with
    dacl := closedDirectory.dacl.map (· ++ [⟨.accessAllowed, false, ⟨5, [32, 545]⟩, 0x1200a9⟩]) }

def sampleInstallation : ConsoleInstallation sampleHost samplePaths where
  productRoot := ⟨false, 1, ⟨0, 0⟩, openDirectory, ()⟩
  dataRoot := ⟨false, 1, ⟨0, 0⟩, openDirectory, ()⟩
  entries := required.map fun name => (name.text, newFile sharedFile (sampleBytes name))
  names := required
  account := Principal.system.sid
  bytes := sampleBytes
  configText := sampleText
  anchors := ["anchor"]
  agentId := sampleAgent
  keyFingerprint := "key"
  checkedAt := 0
  expiresAt := 100
  productRoot_plain := rfl
  productRoot_closable := rfl
  dataRoot_plain := rfl
  dataRoot_closable := rfl
  names_eq := by
    show dataRootNamesOf samplePaths.dataRoot [] (required.map Name.text) = .ok required
    decide
  required_names := fun _ h => h
  files := by
    intro name hname
    have hdistinct : ∀ i ∈ required, ∀ j ∈ required,
        asciiLowercase i.text = asciiLowercase j.text → i = j := by decide
    refine ⟨_, none, Entries.lookup_map hdistinct hname, rfl, ?_, .inl rfl⟩
    cases name <;> rfl
  sizes := by
    intro name _ _
    show keyLen ≤ readLimit
    decide
  config_accepted := sample_legacy
  anchor_read := sample_pem _
  identity_accepted := by
    have hcertificates : certificatesIn sampleHost (sampleHost.encodePem ["certificate"]) =
        .ok ["certificate"] := okOr_eq_ok.mpr (sample_pem _)
    refine checkIdentity_ok.mpr ⟨_, "key", sampleHost.encodePem ["certificate"], 100,
      ⟨rfl, rfl, rfl, rfl, rfl, ⟨["certificate"], hcertificates, rfl⟩, ?_, rfl⟩, nofun, by decide,
      rfl⟩
    rw [checkConsistency, certificateIdentity, hcertificates]
    rfl
  identity_expires := fun _ _ => rfl
  identity_text := rfl

/-- Whatever any number of starts leave of a valid console layout, each cut anywhere: the next one
knows the state, a complete copy of the identity is there, and an uncut one commits the migration,
where a reversal is pending the one after it. -/
theorem prepare_crash_safe {programData : String} (hH : H.Inverse)
    (M : ConsoleInstallation H (.under programData)) (R : Request) {d : Disk B}
    (hleft : M.Leaves R d) :
    (∀ now hostname, combination ⟨.under programData, now, hostname⟩ d ≠ .other ∧
      (combination ⟨.under programData, now, hostname⟩ d = .committed →
        (recordOf H (d.dataRoot.bind (·.child recordName))
          (InstalledPaths.under programData).record).isSome = true)) ∧
    (M.HoldsIdentity d.dataRoot ∨ M.HoldsIdentity d.legacy ∨
      M.HoldsIdentity (d.dataRoot.bind (·.child CyberGuard.Service.identityDirectory))) ∧
    ∀ now hostname, Fit M R ⟨.under programData, now, hostname⟩ (.ok ()) False →
      Commits M R ⟨.under programData, now, hostname⟩ d ∨
      Reverses M R ⟨.under programData, now, hostname⟩ d ∧
        ∀ now' hostname', Fit M R ⟨.under programData, now', hostname'⟩ (.ok ()) False →
          Commits M R ⟨.under programData, now', hostname'⟩
            (uncut H ⟨.under programData, now, hostname⟩ R d).2 := by
  have hpaths := under_trustAnchor programData
  have hsafe := safe_of_leaves hH hpaths hleft
  refine ⟨fun now hostname => ?_, ?_, fun now hostname hfit => ?_⟩
  · exact combination_of_safe (E := ⟨.under programData, now, hostname⟩) hH hsafe
  · rcases identity_of_safe hsafe with hdata | hlegacy
    · exact .inl hdata
    · exact .inr (.inl hlegacy)
  · rcases uncut_ends (E := ⟨.under programData, now, hostname⟩) hH hpaths hfit hsafe with
      hcommits | hreverses
    · exact .inl hcommits
    · exact .inr ⟨hreverses, fun _ _ hfit' => commits_after_reversal hH hpaths hfit' hreverses⟩

def sampleRequest : Request := ⟨.keep, sampleInstallation.certificates.map (fingerprint sampleHost)⟩

/-- What a start leaves that is cut when it has closed the product root, before the data root. -/
def sampleCut : Disk String :=
  cutAfter calm 4 (prepare sampleHost ⟨samplePaths, 0, .ok "host"⟩ (some sampleRequest) (.ok ()))
    sampleInstallation.disk

/-- The start after a cut one commits the migration. -/
theorem prepare_crash_safe_sample :
    sampleInstallation.Leaves sampleRequest sampleCut ∧
      sampleCut.productRoot.security = closedDirectory ∧
      sampleCut.dataRoot.map (·.security) = some openDirectory ∧
      Commits sampleInstallation sampleRequest ⟨samplePaths, 0, .ok "host"⟩ sampleCut := by
  have hleaves : sampleInstallation.Leaves sampleRequest sampleCut :=
    .call .start ⟨0, .ok "host", some sampleRequest, .ok (), .inr rfl, rfl⟩
      (run_cutAfter calm_answers 4 _ _)
  have hfit : Fit sampleInstallation sampleRequest ⟨samplePaths, 0, .ok "host"⟩ (.ok ()) False :=
    ⟨id, sameSet_self _, show (0 : Int) < 100 by decide, rfl, "host", rfl, by decide⟩
  obtain ⟨-, -, hprogress⟩ :=
    prepare_crash_safe sampleHost_inverse sampleInstallation sampleRequest hleaves
  refine ⟨hleaves, rfl, rfl, ?_⟩
  rcases hprogress 0 (.ok "host") hfit with hcommits | ⟨⟨⟨_, _, hnone, _⟩, _⟩, _⟩
  · exact hcommits
  · cases hnone

end CyberGuard.Service
