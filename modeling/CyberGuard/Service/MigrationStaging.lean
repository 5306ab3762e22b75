import CyberGuard.Service.MigrationRoute

/-!
# The migration's record and its staged files

The record is rewritten by replacing it, so at every instant the old one or the
new one is there. The staged files are written beside it and read again by the
check before the commit.
-/

namespace CyberGuard.Service
set_option autoImplicit false
open Checks CrashLogic Start MigrationCustody ConsoleInstallation List Entries

variable {B : Type} [DecidableEq B] {H : Host B} {R : Request} {E : Environment}
  {L : ConsoleInstallation H E.paths} {lock : Except Stop Unit} {faults : Prop}

variable {C : Disk B → Prop} {d : Disk B} {files : Listing B}

omit [DecidableEq B] in
/-- A file created in the staging directory: whole, or in part if the machine goes down. -/
theorem wp_createStaged {Q : Unit → Disk B → Prop} {F : String → Disk B → Prop} {name : String}
    {security : Descriptor} {bytes : B} (habsent : Entries.lookup asciiLowercase files name = none)
    (hC : C (d.withStaged files))
    (htorn : ∀ part, torn H name part →
      C (d.withStaged (Entries.put asciiLowercase files name (newFile security part))))
    (hdone : C (d.withStaged (Entries.put asciiLowercase files name (newFile security bytes))))
    (hQ : Q () (d.withStaged (Entries.put asciiLowercase files name (newFile security bytes))))
    (hF : faults → ∀ reason t, t = d.withStaged files ∨
      (∃ part, t = d.withStaged (Entries.put asciiLowercase files name (newFile security part))) → F reason t) :
    Wp (device H faults) C (command (.createStaged name security bytes)) Q F
      (d.withStaged files) := by
  have hperform : (d.withStaged files).perform (.createStaged name security bytes) = _ :=
    perform_createStaged habsent
  refine wp_command hC ?_ ?_ ?_ ?_
  · intro t ht
    obtain ⟨part, hpart, rfl⟩ := partly_createStaged ht
    exact htorn part hpart
  · intro t ht
    rw [hperform] at ht
    cases ht
    exact ⟨hdone, hQ⟩
  · intro reason hreason
    rw [hperform] at hreason
    cases hreason
  · intro hfault reason t _ ht
    rcases ht with rfl | ht
    · exact hF hfault reason _ (.inl rfl)
    · obtain ⟨part, -, rfl⟩ := partly_createStaged ht
      exact hF hfault reason _ (.inr ⟨part, rfl⟩)

/-- The staging directory changed at most in the record, which is this one, and its temporary. -/
def Touches (H : Host B) (d : Disk B) (files : Listing B) (record : Record) (t : Disk B) : Prop :=
  ∃ after, Touched files after ∧
    Entries.lookup asciiLowercase after recordName = some (recordFile H record) ∧
    t = d.withStaged after

omit [DecidableEq B] in
/-- Deleting the temporary leaves the record, however it ends. -/
theorem wp_deleteTemporary {Q : Unit → Disk B → Prop} {F : String → Disk B → Prop} {record : Record}
    {node : Node B}
    (hrecord : Entries.lookup asciiLowercase files recordName = some (recordFile H record))
    (htemporary : Entries.lookup asciiLowercase files recordTemporary = some node)
    (hC : ∀ t, Touches H d files record t → C t)
    (hQ : Q () (d.withStaged (Entries.erase asciiLowercase files recordTemporary)))
    (hF : faults → ∀ reason t, Touches H d files record t → F reason t) :
    Wp (device H faults) C (command (.deleteStaged recordTemporary)) Q F
      (d.withStaged files) := by
  have hne : asciiLowercase recordName ≠ asciiLowercase recordTemporary := by decide
  have hnow : Touches H d files record (d.withStaged files) :=
    ⟨files, .refl files, hrecord, rfl⟩
  have hpart : ∀ t, Disk.Partly (torn H) (d.withStaged files)
      (.deleteStaged recordTemporary) t → Touches H d files record t := by
    intro t ht
    obtain ⟨change, rfl⟩ := partly_deleteStaged ht
    refine ⟨_, .adjust files change, ?_, rfl⟩
    simp [lookup_adjust, hrecord, hne]
  refine wp_command (hC _ hnow) (fun t ht => hC t (hpart t ht)) ?_ ?_ ?_
  · intro t ht
    rw [perform_deleteStaged htemporary] at ht
    cases ht
    exact ⟨hC _ ⟨_, .erase files, (lookup_erase_of_ne hne).trans hrecord, rfl⟩, hQ⟩
  · intro reason hreason
    rw [perform_deleteStaged htemporary] at hreason
    cases hreason
  · intro hfault reason t _ ht
    rcases ht with rfl | ht
    · exact hF hfault reason _ hnow
    · exact hF hfault reason t (hpart t ht)

omit [DecidableEq B] in
theorem Touches.trans {t : Disk B} {middle : Listing B} {record : Record}
    (hmiddle : Touched files middle) (h : Touches H d middle record t) :
    Touches H d files record t := by
  obtain ⟨after, htouched, hrecord, rfl⟩ := h
  exact ⟨after, hmiddle.trans htouched, hrecord, rfl⟩

omit [DecidableEq B] in
/-- The record is the old one or the new one at every instant, and the new one at the end. -/
theorem wp_rewrite {old new : Record}
    (hold : Entries.lookup asciiLowercase files recordName = some (recordFile H old))
    (hC : ∀ t, Touches H d files old t ∨ Touches H d files new t → C t) :
    Wp (device H faults) C (rewrite H E new) (fun _ t => Touches H d files new t)
      (fun _ t => faults ∧ Touches H d files old t) (d.withStaged files) := by
  have hne : asciiLowercase recordName ≠ asciiLowercase recordTemporary := by decide
  have hnow : Touches H d files old (d.withStaged files) := ⟨files, .refl files, hold, rfl⟩
  have hsafe := hC _ (.inl hnow)
  -- from a directory without the temporary on
  have hwrite : ∀ middle, Touched files middle →
      Entries.lookup asciiLowercase middle recordName = some (recordFile H old) →
      Entries.lookup asciiLowercase middle recordTemporary = none →
      Wp (device H faults) C
        (do
          command (.createStaged recordTemporary sharedFile (H.printRecord new))
          (command (.replaceStaged recordTemporary recordName)).handle fun reason => do
            (command (.deleteStaged recordTemporary)).handle fun _ => .ret ()
            .stop reason)
        (fun _ t => Touches H d files new t) (fun _ t => faults ∧ Touches H d files old t)
        (d.withStaged middle) := by
    intro middle hmiddle hrecord habsent
    have hmid : Touches H d files old (d.withStaged middle) := ⟨middle, hmiddle, hrecord, rfl⟩
    have hput : ∀ node, Touched files (Entries.put asciiLowercase middle recordTemporary node) :=
      fun node => hmiddle.trans (.put middle node (by simp))
    have hlookup : ∀ node, Entries.lookup asciiLowercase
        (Entries.put asciiLowercase middle recordTemporary node) recordName =
          some (recordFile H old) :=
      fun node => (lookup_put_of_ne hne).trans hrecord
    have hbeside : ∀ node, Touches H d files old
        (d.withStaged (Entries.put asciiLowercase middle recordTemporary node)) :=
      fun node => ⟨_, hput node, hlookup node, rfl⟩
    refine wp_bind (wp_createStaged habsent (hC _ (.inl hmid)) (fun _ _ => hC _ (.inl (hbeside _)))
      (hC _ (.inl (hbeside _))) ?_ ?_)
    · have hnew : Touches H d files new (d.withStaged (Entries.put asciiLowercase
          (Entries.erase asciiLowercase (Entries.put asciiLowercase middle recordTemporary
            (recordFile H new)) recordTemporary) recordName (recordFile H new))) :=
        ⟨_, ((hput _).trans (.erase _)).trans (.put _ _ (by simp)), lookup_put_self, rfl⟩
      refine wp_handle (wp_done (fun _ h => h) (perform_replaceStaged lookup_put_self)
        (hC _ (.inl (hbeside _))) (hC _ (.inr hnew)) hnew ?_)
      -- not replaced: the temporary is deleted, if it can be, and the old record stays
      intro hfault reason
      have hstop : ∀ t, Touches H d files old t → Wp (device H faults) C
          (.stop reason : Start B String Unit) (fun _ t => Touches H d files new t)
          (fun _ t => faults ∧ Touches H d files old t) t :=
        fun t ht => ⟨hC t (.inl ht), hfault, ht⟩
      refine wp_bind (wp_handle (wp_deleteTemporary (hlookup _) lookup_put_self ?_ ?_ ?_))
      · intro t ht
        exact hC t (.inl (ht.trans (hput _)))
      · refine hstop _ ⟨_, (hput _).trans (.erase _), ?_, rfl⟩
        exact (lookup_erase_of_ne hne).trans (hlookup _)
      · intro _ _ t ht
        exact ⟨hC t (.inl (ht.trans (hput _))), hstop t (ht.trans (hput _))⟩
    · rintro hfault _ _ (rfl | ⟨part, rfl⟩)
      · exact ⟨hfault, hmid⟩
      · exact ⟨hfault, hbeside _⟩
  refine wp_bind (wp_access hsafe ?_ fun hfault _ => ⟨hfault, hnow⟩)
  refine wp_disk (wp_bind (wp_ok (okOr_eq_ok.mpr hold) hsafe ?_))
  refine wp_bind (wp_ok rfl hsafe ?_)
  refine wp_bind (wp_ok (check_sharedFile _) hsafe ?_)
  cases htemporary : Entries.lookup asciiLowercase files recordTemporary with
  | none =>
    show Wp _ _ (if (Entries.lookup asciiLowercase files recordTemporary).isSome then _ else _) _ _ _
    rw [if_neg (by simp [htemporary])]
    exact hwrite files (.refl files) hold htemporary
  | some node =>
    show Wp _ _ (if (Entries.lookup asciiLowercase files recordTemporary).isSome then _ else _) _ _ _
    rw [if_pos (by simp [htemporary])]
    refine wp_bind (wp_deleteTemporary hold htemporary (fun t ht => hC t (.inl ht)) ?_
      fun hfault _ t ht => ⟨hfault, ht⟩)
    exact hwrite _ (.erase files) ((lookup_erase_of_ne hne).trans hold)
      lookup_erase_self

namespace ConsoleInstallation.Recorded
variable {files : Listing B} {record : Record} {name : String}

theorem touched (h : L.Recorded R files record) {after : Listing B} {record' : Record}
    (hafter : Touched files after) (hasked : L.Matches R record')
    (hfound : Entries.lookup asciiLowercase after recordName = some (recordFile H record')) :
    L.Recorded R after record' :=
  ⟨hafter.ownNames h.own, hafter.distinct h.distinct, hasked, hfound⟩

theorem put (h : L.Recorded R files record) (hname : name ∈ ownNames)
    (hne : asciiLowercase recordName ≠ asciiLowercase name) (node : Node B) :
    L.Recorded R (Entries.put asciiLowercase files name node) record := by
  refine ⟨fun entry hentry => ?_, h.distinct.put, h.asked,
    (lookup_put_of_ne hne).trans h.found⟩
  rcases mem_put hentry with hold | rfl
  · exact h.own entry hold.1
  · exact hname

theorem erase (h : L.Recorded R files record)
    (hne : asciiLowercase recordName ≠ asciiLowercase name) :
    L.Recorded R (Entries.erase asciiLowercase files name) record :=
  ⟨fun entry hentry => h.own entry (mem_erase.mp hentry).1, h.distinct.erase, h.asked,
    (lookup_erase_of_ne hne).trans h.found⟩

theorem adjust (h : L.Recorded R files record)
    (hne : asciiLowercase recordName ≠ asciiLowercase name) (change : Node B → Node B) :
    L.Recorded R (Entries.adjust asciiLowercase files name change) record := by
  refine ⟨fun entry hentry => ?_, h.distinct.adjust, h.asked, ?_⟩
  · have hmem : entry.1 ∈ (Entries.adjust asciiLowercase files name change).map (·.1) :=
      mem_map_of_mem hentry
    rw [map_adjust] at hmem
    obtain ⟨old, hold, hname⟩ := mem_map.mp hmem
    exact hname ▸ h.own old hold
  · rw [lookup_adjust, h.found]
    simp [hne]

theorem safe (h : L.Recorded R files record) {entries : Listing B} (hkept : L.Kept entries) :
    L.Safe R (L.closed entries (some (staged files))) :=
  safe_closed hkept (.inr ⟨files, rfl, .inr ⟨record, h⟩⟩)

end ConsoleInstallation.Recorded

section staging
variable {entries files : Listing B} {record : Record}

def RecordOnly (files : Listing B) : Prop :=
  ∀ entry ∈ files, asciiLowercase entry.1 = asciiLowercase recordName

theorem wp_clearStaged (hkept : L.Kept entries) (hrecorded : L.Recorded R files record) :
    Wp (device H faults) (L.Safe R) (clearStaged E)
      (fun _ t => ∃ after, L.Recorded R after record ∧ RecordOnly after ∧
        t = L.closed entries (some (staged after)))
      (fun _ _ => ¬ Fit L R E lock faults) (L.closed entries (some (staged files))) := by
  refine wp_bind (wp_access (hrecorded.safe hkept) ?_ fun h _ => Fit.not_faults h)
  refine wp_disk ?_
  -- what is not the record is still to be deleted, each name once
  refine (wp_forEach (I := fun rest t => ∃ after, L.Recorded R after record ∧
    (∀ entry ∈ after, asciiLowercase entry.1 = asciiLowercase recordName ∨ entry.1 ∈ rest) ∧
    (∀ name ∈ rest, ∃ node, Entries.lookup asciiLowercase after name = some node) ∧
    (rest.map asciiLowercase).Nodup ∧ t = L.closed entries (some (staged after))) ?_ ?_ ?_).mono
      ?_ fun _ _ _ he => he
  · rintro name rest _ ⟨before, hbefore, hentries, hthere, hnodup, rfl⟩
    rw [map_cons, nodup_cons] at hnodup
    have hrest : ∀ other ∈ rest, asciiLowercase other ≠ asciiLowercase name :=
      fun other hother heq => hnodup.1 (heq ▸ mem_map_of_mem hother)
    show Wp _ _ (if _ then _ else _) _ _ _
    by_cases hname : eqIgnoreAsciiCase name recordName = true
    · rw [if_pos hname]
      have hsame : asciiLowercase name = asciiLowercase recordName := by
        simpa [eqIgnoreAsciiCase] using hname
      refine ⟨hbefore.safe hkept, before, hbefore, ?_,
        fun other hother => hthere other (mem_cons_of_mem _ hother), hnodup.2, rfl⟩
      intro entry hentry
      rcases hentries entry hentry with hrecord | hmem
      · exact .inl hrecord
      · rcases mem_cons.mp hmem with heq | hmem
        · exact .inl (heq ▸ hsame)
        · exact .inr hmem
    · rw [if_neg hname]
      have hne : asciiLowercase recordName ≠ asciiLowercase name :=
        fun heq => hname (by simp [eqIgnoreAsciiCase, heq])
      obtain ⟨node, hnode⟩ := hthere name mem_cons_self
      refine wp_command (hbefore.safe hkept) ?_ ?_ ?_ fun h _ _ _ _ => Fit.not_faults h
      · intro t ht
        obtain ⟨change, rfl⟩ := partly_deleteStaged (d := L.closed entries none) ht
        exact (hbefore.adjust hne change).safe hkept
      · intro t ht
        rw [perform_deleteStaged (d := L.closed entries none) hnode] at ht
        cases ht
        refine ⟨(hbefore.erase hne).safe hkept, _, hbefore.erase hne, ?_, ?_, hnodup.2, rfl⟩
        · intro entry hentry
          obtain ⟨hold, hother⟩ := mem_erase.mp hentry
          rcases hentries entry hold with hrecord | hmem
          · exact .inl hrecord
          · exact .inr (mem_of_ne_of_mem (fun heq => hother (heq ▸ rfl)) hmem)
        · intro other hother
          rw [lookup_erase_of_ne (hrest other hother)]
          exact hthere other (mem_cons_of_mem _ hother)
      · intro reason hreason
        rw [perform_deleteStaged (d := L.closed entries none) hnode] at hreason
        cases hreason
  · rintro _ ⟨after, hafter, -, -, -, rfl⟩
    exact hafter.safe hkept
  · refine ⟨files, hrecorded, fun entry hentry => .inr (mem_map_of_mem hentry), ?_, ?_, rfl⟩
    · intro name hname
      obtain ⟨entry, hentry, rfl⟩ := mem_map.mp hname
      exact exists_lookup hentry
    · show ((files.map (·.1)).map asciiLowercase).Nodup
      rw [map_map]
      exact hrecorded.distinct
  · rintro _ _ _ ⟨after, hafter, hentries, -, -, rfl⟩
    refine ⟨after, hafter, fun entry hentry => ?_, rfl⟩
    rcases hentries entry hentry with hrecord | hmem
    · exact hrecord
    · cases hmem

/-- What the staging directory is to an attempt that writes its record: none yet, or the one of the
migration it continues. -/
inductive Attempted (L : ConsoleInstallation H E.paths) (R : Request) :
    Attempt → Option (Node B) → Prop where
  | anew {attempt : Attempt} : attempt.recorded = none → Attempted L R attempt none
  | continued {files : Listing B} {record : Record} : L.Recorded R files record →
      Attempted L R (.continued record) (some (staged files))

variable {attempt : Attempt} {name : String} {inner : Listing B}

theorem Attempted.staging {staging : Option (Node B)} (h : Attempted L R attempt staging) :
    L.Staging R staging := by
  cases h with
  | anew _ => exact .inl rfl
  | continued hrecorded => exact .inr ⟨_, rfl, .inr ⟨_, hrecorded⟩⟩

theorem Attempted.awaited {staging : Option (Node B)} (h : Attempted L R attempt staging) :
    Awaited attempt staging := by
  cases h with
  | anew _ => exact .inl rfl
  | continued _ => exact .inr rfl

theorem Attempted.asked {staging : Option (Node B)} (h : Attempted L R attempt staging) :
    ∀ old ∈ attempt.recorded, L.Matches R old := by
  intro old hold
  cases h with
  | anew hnone => rw [hnone] at hold; cases hold
  | continued hrecorded => cases hold; exact hrecorded.asked

omit [DecidableEq B] in
theorem recordless_torn {part : B} (h : torn H recordName part) :
    Recordless H (Entries.put asciiLowercase [] recordName (newFile sharedFile part)) := by
  intro entry hentry _ path
  rcases mem_put hentry with ⟨hold, -⟩ | rfl
  · cases hold
  · rw [recordOf, readChecked_newFile]
    exact h (eqIgnoreAsciiCase_self _)

theorem recorded_new (hasked : L.Matches R record) :
    L.Recorded R (Entries.put asciiLowercase [] recordName (recordFile H record)) record := by
  refine ⟨fun entry hentry => ?_, Entries.Distinct.put nodup_nil, hasked,
    lookup_put_self⟩
  rcases mem_put hentry with ⟨hold, -⟩ | rfl
  · cases hold
  · exact mem_cons_self

theorem wp_createRecord (hkept : L.Kept entries) (hasked : L.Matches R record) :
    Wp (device H faults) (L.Safe R)
      (do
        watch .createStaging
        orFailure (command (.createStaging closedDirectory))
        watch .writeRecord
        orFailure (command (.createStaged recordName sharedFile (H.printRecord record))))
      (fun _ t => ∃ after, L.Recorded R after record ∧ RecordOnly after ∧
        t = L.closed entries (some (staged after)))
      (fun _ _ => ¬ Fit L R E lock faults) (L.closed entries none) := by
  have hnone : L.Safe R (L.closed entries none) := safe_closed hkept (.inl rfl)
  have hempty : L.Safe R (L.closed entries (some (staged []))) :=
    safe_closed hkept (.inr ⟨[], rfl, .inl fun _ h => nomatch h⟩)
  have hnew := recorded_new hasked
  refine wp_bind (wp_watch hnone ?_ fun h _ => Fit.not_faults h)
  refine wp_bind (wp_orFailure (wp_done (t := L.closed entries (some (staged []))) (fun _ h => h)
    rfl hnone hempty ?_ fun h _ => Fit.not_faults h))
  refine wp_bind (wp_watch hempty ?_ fun h _ => Fit.not_faults h)
  refine wp_orFailure (wp_createStaged (d := L.closed entries none) rfl hempty ?_
    (hnew.safe hkept) ⟨_, hnew, ?_, rfl⟩ fun h _ _ _ => Fit.not_faults h)
  · intro part htorn
    exact safe_closed hkept (.inr ⟨_, rfl, .inl (recordless_torn htorn)⟩)
  · intro entry hentry
    rcases mem_put hentry with ⟨hold, -⟩ | rfl
    · cases hold
    · rfl

theorem wp_writeRecord {staging : Option (Node B)} (hkept : L.Kept entries)
    (hattempted : Attempted L R attempt staging) (hasked : L.Matches R record) :
    Wp (device H faults) (L.Safe R) (writeRecord H E attempt record)
      (fun _ t => ∃ after, L.Recorded R after record ∧ RecordOnly after ∧
        t = L.closed entries (some (staged after)))
      (fun _ _ => ¬ Fit L R E lock faults) (L.closed entries staging) := by
  cases hattempted with
  | anew hnone =>
    show Wp _ _ (if _ then _ else _) _ _ _
    rw [if_neg (by simp [hnone])]
    exact wp_createRecord hkept hasked
  | @continued files old hrecorded =>
    have hrewrite : Wp (device H faults) (L.Safe R) (rewrite H E record)
        (fun _ t => Touches H (L.closed entries none) files record t)
        (fun _ _ => ¬ Fit L R E lock faults) (L.closed entries (some (staged files))) := by
      refine (wp_rewrite (d := L.closed entries none) hrecorded.found ?_).mono
        (fun _ _ _ h => h) fun _ _ _ h => Fit.not_faults h.1
      rintro t (⟨after, htouched, hfound, rfl⟩ | ⟨after, htouched, hfound, rfl⟩)
      · exact (hrecorded.touched htouched hrecorded.asked hfound).safe hkept
      · exact (hrecorded.touched htouched hasked hfound).safe hkept
    refine wp_bind (wp_watch (hrecorded.safe hkept) ?_ fun h _ => Fit.not_faults h)
    refine (wp_orFailure hrewrite).andThen ?_
    rintro _ _ _ ⟨after, htouched, hfound, rfl⟩
    exact wp_orFailure (wp_clearStaged hkept (hrecorded.touched htouched hasked hfound))

/-- Beside what was there, the staging directory now has that object. -/
def Gains (L : ConsoleInstallation H E.paths) (R : Request) (record : Record)
    (entries files : Listing B) (name : String) (node : Node B) (t : Disk B) : Prop :=
  ∃ after, L.Recorded R after record ∧ Entries.lookup asciiLowercase after name = some node ∧
    (∀ other, asciiLowercase other ≠ asciiLowercase name →
      Entries.lookup asciiLowercase after other = Entries.lookup asciiLowercase files other) ∧
    t = L.closed entries (some (staged after))

theorem gains_put (hrecorded : L.Recorded R files record) (hname : name ∈ ownNames)
    (hne : asciiLowercase recordName ≠ asciiLowercase name) (node : Node B) :
    Gains L R record entries files name node
      (L.closed entries (some (staged (Entries.put asciiLowercase files name node)))) :=
  ⟨_, hrecorded.put hname hne node, lookup_put_self,
    fun _ hother => lookup_put_of_ne hother, rfl⟩

theorem gains_adjust (hrecorded : L.Recorded R files record) {old : Node B}
    (hold : Entries.lookup asciiLowercase files name = some old)
    (hne : asciiLowercase recordName ≠ asciiLowercase name) (node : Node B) :
    Gains L R record entries files name node
      (L.closed entries (some (staged (Entries.adjust asciiLowercase files name fun _ => node)))) := by
  refine ⟨_, hrecorded.adjust hne _, ?_, fun other hother => ?_, rfl⟩
  · simp [lookup_adjust, hold]
  · simp [lookup_adjust, hother]

omit [DecidableEq B] in
theorem RecordOnly.absent (h : RecordOnly files)
    (hne : asciiLowercase recordName ≠ asciiLowercase name) :
    Entries.lookup asciiLowercase files name = none :=
  lookup_eq_none.mpr fun entry hentry heq => hne ((h entry hentry).symm.trans heq)

/-- What the identity's three files make, one after the other. -/
def identityListing (L : ConsoleInstallation H E.paths) : Listing B :=
  Entries.put asciiLowercase (Entries.put asciiLowercase (Entries.put asciiLowercase []
    Name.cert.text (newFile identityFile (L.bytes .cert)))
    Name.key.text (newFile identityFile (L.bytes .key)))
    Name.identity.text (newFile identityFile (L.bytes .identity))

theorem lookup_identityListing : ∀ name ∈ identityFiles,
    Entries.lookup asciiLowercase (identityListing L) name.text =
      some (newFile identityFile (L.bytes name)) := by
  intro name hname
  simp only [identityFiles, mem_cons, not_mem_nil, or_false] at hname
  rcases hname with rfl | rfl | rfl
  · rw [identityListing, lookup_put_of_ne (by decide), lookup_put_of_ne (by decide),
      lookup_put_self]
  · rw [identityListing, lookup_put_of_ne (by decide), lookup_put_self]
  · exact lookup_put_self

section stage
variable (hkept : L.Kept entries) (hrecorded : L.Recorded R files record)
include hkept hrecorded

theorem wp_stageFile {name : Name}
    (hname : name.text ∈ ownNames) (hne : asciiLowercase recordName ≠ asciiLowercase name.text)
    (habsent : Entries.lookup asciiLowercase files name.text = none) (bytes : B) :
    Wp (device H faults) (L.Safe R)
      (do
        watch (.stage (.file name))
        orFailure (command (.createStaged name.text sharedFile bytes)))
      (fun _ => Gains L R record entries files name.text (newFile sharedFile bytes))
      (fun _ _ => ¬ Fit L R E lock faults) (L.closed entries (some (staged files))) := by
  refine wp_bind (wp_watch (hrecorded.safe hkept) ?_ fun h _ => Fit.not_faults h)
  exact wp_orFailure (wp_createStaged (d := L.closed entries none) habsent (hrecorded.safe hkept)
    (fun _ _ => (hrecorded.put hname hne _).safe hkept) ((hrecorded.put hname hne _).safe hkept)
    (gains_put hrecorded hname hne _) fun h _ _ _ => Fit.not_faults h)

theorem wp_stageIdentityDirectory
    (habsent : Entries.lookup asciiLowercase files CyberGuard.Service.identityDirectory = none) :
    Wp (device H faults) (L.Safe R)
      (orFailure (command (.createIdentityDirectory MigrationCustody.identityDirectory)))
      (fun _ => Gains L R record entries files CyberGuard.Service.identityDirectory
        (newDirectory MigrationCustody.identityDirectory []))
      (fun _ _ => ¬ Fit L R E lock faults) (L.closed entries (some (staged files))) := by
  have hown : CyberGuard.Service.identityDirectory ∈ ownNames := by decide
  have hne : asciiLowercase recordName ≠
      asciiLowercase CyberGuard.Service.identityDirectory := by decide
  have hperform := inStaging_staged (L.closed entries none) files
    (Disk.create CyberGuard.Service.identityDirectory
      (newDirectory MigrationCustody.identityDirectory []))
  rw [Disk.create, habsent] at hperform
  exact wp_orFailure (wp_done (fun _ h => h) hperform (hrecorded.safe hkept)
    ((hrecorded.put hown hne _).safe hkept) (gains_put hrecorded hown hne _)
    fun h _ => Fit.not_faults h)

theorem wp_stageIdentityFile {name : Name}
    (hinner : Entries.lookup asciiLowercase files CyberGuard.Service.identityDirectory =
      some (newDirectory MigrationCustody.identityDirectory inner))
    (habsent : Entries.lookup asciiLowercase inner name.text = none) (bytes : B) :
    Wp (device H faults) (L.Safe R)
      (do
        watch (.stage (.file name))
        orFailure (command (.createIdentityFile name.text identityFile bytes)))
      (fun _ => Gains L R record entries files CyberGuard.Service.identityDirectory
        (newDirectory MigrationCustody.identityDirectory
          (Entries.put asciiLowercase inner name.text (newFile identityFile bytes))))
      (fun _ _ => ¬ Fit L R E lock faults) (L.closed entries (some (staged files))) := by
  have hcreate : ∀ part, (L.closed entries (some (staged files))).inStaging
      (Disk.createInIdentity name.text (newFile identityFile part)) =
        .ok (L.closed entries (some (staged
          (Entries.adjust asciiLowercase files CyberGuard.Service.identityDirectory fun _ =>
            newDirectory MigrationCustody.identityDirectory
              (Entries.put asciiLowercase inner name.text (newFile identityFile part)))))) := by
    intro part
    have h := inStaging_staged (L.closed entries none) files
      (Disk.createInIdentity name.text (newFile identityFile part))
    rw [createInIdentity_directory hinner, Disk.create, habsent] at h
    exact h
  have hne : asciiLowercase recordName ≠
      asciiLowercase CyberGuard.Service.identityDirectory := by decide
  have hsafe := fun part => (hrecorded.adjust hne fun _ =>
    newDirectory MigrationCustody.identityDirectory
      (Entries.put asciiLowercase inner name.text (newFile identityFile part))).safe hkept
  refine wp_bind (wp_watch (hrecorded.safe hkept) ?_ fun h _ => Fit.not_faults h)
  refine wp_orFailure (wp_command (hrecorded.safe hkept) ?_ ?_ ?_ fun h _ _ _ _ => Fit.not_faults h)
  · rintro t ⟨part, -, ht⟩
    rw [hcreate part] at ht
    cases ht
    exact hsafe part
  · intro t ht
    have heq := (hcreate bytes).symm.trans ht
    cases heq
    exact ⟨hsafe bytes, gains_adjust hrecorded hinner hne _⟩
  · intro reason hreason
    cases (hcreate bytes).symm.trans hreason

theorem wp_stage (honly : RecordOnly files) (text : String) :
    Wp (device H faults) (L.Safe R) (stage H L.verified text)
      (fun _ t => ∃ after, L.Recorded R after record ∧ L.Laid after text ∧
        t = L.closed entries (some (staged after)))
      (fun _ _ => ¬ Fit L R E lock faults) (L.closed entries (some (staged files))) := by
  refine (wp_stageFile hkept hrecorded (by decide) (by decide) (honly.absent (by decide)) _).andThen ?_
  rintro _ _ _ ⟨files₁, hfiles₁, hconfig, hsame₁, rfl⟩
  refine (wp_stageFile hkept hfiles₁ (by decide) (by decide) ?_ _).andThen ?_
  · rw [hsame₁ _ (by decide)]
    exact honly.absent (by decide)
  rintro _ _ _ ⟨files₂, hfiles₂, hanchor, hsame₂, rfl⟩
  refine wp_bind (wp_watch (hfiles₂.safe hkept) ?_ fun h _ => Fit.not_faults h)
  refine (wp_stageIdentityDirectory hkept hfiles₂ ?_).andThen ?_
  · rw [hsame₂ _ (by decide), hsame₁ _ (by decide)]
    exact honly.absent (by decide)
  rintro _ _ _ ⟨files₃, hfiles₃, hdirectory, hsame₃, rfl⟩
  refine (wp_stageIdentityFile hkept hfiles₃ hdirectory rfl _).andThen ?_
  rintro _ _ _ ⟨files₄, hfiles₄, hcert, hsame₄, rfl⟩
  refine (wp_stageIdentityFile hkept hfiles₄ hcert
    (lookup_put_of_ne (by decide)) _).andThen ?_
  rintro _ _ _ ⟨files₅, hfiles₅, hkey, hsame₅, rfl⟩
  refine (wp_stageIdentityFile hkept hfiles₅ hkey ((lookup_put_of_ne (by decide)).trans
    (lookup_put_of_ne (by decide))) _).mono ?_ fun _ _ _ he => he
  rintro _ _ _ ⟨files₆, hfiles₆, hidentity, hsame₆, rfl⟩
  have hsame : ∀ name, asciiLowercase name ≠ asciiLowercase CyberGuard.Service.identityDirectory →
      Entries.lookup asciiLowercase files₆ name = Entries.lookup asciiLowercase files₂ name := by
    intro name hname
    rw [hsame₆ name hname, hsame₅ name hname, hsame₄ name hname, hsame₃ name hname]
  refine ⟨files₆, hfiles₆, ⟨?_, ?_, _, hidentity, lookup_identityListing⟩, rfl⟩
  · rw [hsame _ (by decide), hsame₂ _ (by decide)]
    exact hconfig
  · rw [hsame _ (by decide)]
    exact hanchor

end stage

theorem distinct_of_nodup {found rest : List B} (h : (found ++ rest).Nodup) :
    distinct found rest = found ++ rest := by
  induction rest generalizing found with
  | nil => simp [distinct]
  | cons der rest ih =>
    have hnew : found.contains der = false := by
      rw [nodup_append] at h
      simpa using fun hder => h.2.2 der hder der mem_cons_self rfl
    rw [distinct, hnew, if_neg (by simp), ih (by simpa using h)]
    simp

theorem nodup_distinct {found rest : List B} (h : found.Nodup) : (distinct found rest).Nodup := by
  induction rest generalizing found with
  | nil => exact h
  | cons der rest ih =>
    rw [distinct]
    split
    · exact ih h
    · next hnew =>
      refine ih (nodup_append.mpr ⟨h, by simp, ?_⟩)
      intro x hx y hy heq
      rw [mem_singleton] at hy
      exact hnew (by simpa [← hy, ← heq] using hx)

theorem checkAnchor_staged (hH : H.Inverse) (hnamed : L.Named R)
    (hasked : L.Matches R record) :
    checkAnchor H (H.asBytes (H.encodePem L.certificates)) record.fingerprints =
      .ok L.certificates := by
  have hdistinct : distinct [] L.certificates = L.certificates :=
    distinct_of_nodup (nodup_distinct nodup_nil)
  simp only [checkAnchor, bind_eq_ok, okOr_eq_ok, refuseIf_eq_ok, pure_eq_ok]
  refine ⟨_, hH.pem_encodePem _, (), ?_, hdistinct⟩
  rw [hdistinct, hasked.fingerprints, hnamed]
  rfl

theorem load_staged (hH : H.Inverse)
    (hinner : ∀ name ∈ identityFiles, Entries.lookup asciiLowercase inner name.text =
      some (newFile identityFile (L.bytes name))) :
    ∃ identity, load H (some (newDirectory MigrationCustody.identityDirectory inner)) = .ok identity ∧
      identity.agentId = L.agentId ∧
      H.pubkeyFingerprint identity.publicKey = L.keyFingerprint := by
  obtain ⟨persisted, secret, text, haccepted, hagent, hkey⟩ := L.accepted
  obtain ⟨idText, hidText⟩ := Option.isSome_iff_exists.mp L.identity_text
  have hchild : ∀ name ∈ identityFiles,
      ((some (newDirectory MigrationCustody.identityDirectory inner)).bind (·.child name.text)) =
        some (newFile identityFile (L.bytes name)) := hinner
  have hparsed : H.parseIdentity (H.asBytes idText) = .ok persisted := by
    rw [hH.asBytes_fromUtf8 _ _ hidText]
    exact haccepted.parsed
  refine ⟨⟨persisted.agentId, H.publicKey secret, text⟩, ?_, hagent.symm, hkey.symm⟩
  simp only [load, bind_eq_ok, mapError_eq_ok, pure_eq_ok]
  refine ⟨_, ?_, (), haccepted.consistent, rfl⟩
  simp only [loadIdentity, hchild .cert (by decide), hchild .key (by decide),
    hchild .identity (by decide), bytesOf, newFile, bind_eq_ok, mapError_eq_ok, okOr_eq_ok,
    refuseIf_eq_ok, pure_eq_ok]
  exact ⟨text, ⟨_, rfl, haccepted.decoded⟩, (), rfl, idText, ⟨_, rfl, hidText⟩, persisted, hparsed, _,
    rfl, secret, haccepted.unsealed, (), by simp [haccepted.size], (),
    by simp [haccepted.fingerprint], rfl⟩

omit [DecidableEq B] in
theorem checkIdentityFiles_staged {path : String} {bytes : Name → B} {names : List Name}
    (h : ∀ name ∈ names, Entries.lookup asciiLowercase inner name.text =
      some (newFile identityFile (bytes name))) :
    checkIdentityFiles path (some (newDirectory MigrationCustody.identityDirectory inner)) names =
      .ok () := by
  induction names with
  | nil => rfl
  | cons name rest ih =>
    have hchild : ((some (newDirectory MigrationCustody.identityDirectory inner)).bind
        (·.child name.text)) = some (newFile identityFile (bytes name)) := h name mem_cons_self
    simp only [checkIdentityFiles, hchild, bind_eq_ok]
    exact ⟨(), rfl, ih fun other hother => h other (mem_cons_of_mem _ hother)⟩

/-- Of what was staged only the configuration is still in question. -/
theorem checkStaged_ok (hH : H.Inverse) (hrecorded : L.Recorded R files record) {text : String}
    (hlaid : L.Laid files text) (hnamed : L.Named R) :
    checkStaged H E (some (staged files)) record = .ok () ↔ ConfigAccepted H E.paths text := by
  obtain ⟨inner, hdirectory, hinner⟩ := hlaid.identity
  obtain ⟨identity, hload, hagent, hkey⟩ := load_staged hH hinner
  have hchild : ∀ name, (some (staged files)).bind (·.child name) =
      Entries.lookup asciiLowercase files name := fun _ => rfl
  simp only [checkStaged, hchild, hrecorded.found, hlaid.config, hlaid.anchor, hdirectory,
    readChecked_newFile, hH.fromUtf8_asBytes, checkAnchor_staged hH hnamed hrecorded.asked,
    checkIdentityFiles_staged hinner, hload, bind_eq_ok, mapError_eq_ok, okOr_eq_ok, refuseIf_eq_ok,
    Except.ok.injEq, Option.some.injEq, exists_eq_left']
  constructor
  · rintro ⟨_, _, _, _, config, hloaded, _, hchecked, _, _, _, _, _, henrollment, _⟩
    exact ⟨config, hloaded, hchecked, by simpa using henrollment⟩
  · rintro ⟨config, hloaded, hchecked, henrollment⟩
    refine ⟨(), rfl, (), rfl, config, hloaded, (), hchecked, (), rfl, (), trivial, (),
      by simpa using henrollment, ?_⟩
    simp [hagent, hkey, hrecorded.asked.agentId, hrecorded.asked.keyFingerprint]

theorem Fit.config (hH : H.Inverse) (hpaths : E.paths.trustAnchor ≠ "")
    (hfit : Fit L R E lock faults) :
    ∃ text, generatedConfig H.toml E.paths E.hostname L.configText = .ok text ∧
      ConfigAccepted H E.paths text := by
  obtain ⟨hostname, hname, hne⟩ := hfit.hostname
  obtain ⟨text, config, hgenerated, hloaded, henrollment, hchecked⟩ :=
    generatedConfig_accepted hH.toml L.config_accepted hne hpaths
      (join E.paths.staging Name.config.text)
  exact ⟨text, hname ▸ hgenerated, config, hloaded, hchecked, henrollment⟩

theorem wp_checkStagedNow {C : Disk B → Prop} {d : Disk B}
    {Q : Unit → Disk B → Prop} {F : String → Disk B → Prop} (hC : C d)
    (hQ : checkStaged H E d.staging record = .ok () → Q () d)
    (hF : faults ∨ checkStaged H E d.staging record ≠ .ok () → ∀ reason, F reason d) :
    Wp (device H faults) C (checkStagedNow H E record) Q F d := by
  refine wp_bind (wp_access hC ?_ fun hfault => hF (.inl hfault))
  refine wp_disk (wp_ofExcept hC ?_)
  cases hcheck : checkStaged H E d.staging record with
  | ok u => exact hQ hcheck
  | error reason => exact hF (.inr (by simp [hcheck])) reason

theorem wp_recordAndStage (hH : H.Inverse) (hpaths : E.paths.trustAnchor ≠ "")
    {staging : Option (Node B)} (hkept : L.Kept entries)
    (hattempted : Attempted L R attempt staging) (checked : Checked) (hnamed : L.Named R) :
    Wp (device H faults) (L.Safe R) (recordAndStage H E R attempt checked L.verified)
      (fun record t => record.reversalPending = false ∧ ∃ files, L.Recorded R files record ∧
        L.Staged R files ∧ t = L.closed entries (some (staged files)))
      (fun _ _ => ¬ Fit L R E lock faults) (L.closed entries staging) := by
  have hasked : L.Matches R (newRecord H R attempt checked L.verified) :=
    ⟨rfl, rfl, rfl, rfl, SortedSets.pairwise_mapOf _ _⟩
  refine (wp_writeRecord hkept hattempted hasked).andThen ?_
  rintro _ _ _ ⟨files, hrecorded, honly, rfl⟩
  cases hgenerated : generatedConfig H.toml E.paths E.hostname L.verified.configText with
  | error reason =>
    refine wp_bind ⟨hrecorded.safe hkept, fun hfit => ?_⟩
    obtain ⟨text, htext, -⟩ := hfit.config hH hpaths
    cases hgenerated.symm.trans htext
  | ok text =>
    refine wp_bind (wp_orFailure (wp_ok rfl (hrecorded.safe hkept) ?_))
    refine (wp_stage hkept hrecorded honly text).andThen ?_
    rintro _ _ _ ⟨after, hafter, hlaid, rfl⟩
    have hsafe := hafter.safe hkept
    refine wp_bind (wp_watch hsafe ?_ fun h _ => Fit.not_faults h)
    refine wp_bind (wp_orFailure (wp_checkStagedNow hsafe ?_ ?_))
    · intro hcheck
      have haccepted := (checkStaged_ok hH hafter hlaid hnamed).mp hcheck
      exact ⟨hsafe, rfl, after, hafter, ⟨hnamed, text, hlaid, haccepted⟩, rfl⟩
    · rintro (hfault | hcheck) _
      · exact Fit.not_faults hfault
      · intro hfit
        obtain ⟨text', htext, haccepted⟩ := hfit.config hH hpaths
        cases hgenerated.symm.trans htext
        exact hcheck ((checkStaged_ok hH hafter hlaid hnamed).mpr haccepted)

end staging

end CyberGuard.Service
