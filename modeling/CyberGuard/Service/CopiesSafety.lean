import CyberGuard.Service.Copies

/-!
# What the passes over the copies touch

A pass changes and deletes only what the migration checked, and in the data root only its
record. What it reports covers what it listed and what it removed.
-/

namespace CyberGuard.Service.Copies
set_option autoImplicit false
open Checks CrashLogic List Option

variable {B : Type}

structure Checked (record : Record) (name : String) (node : Node B) : Prop where
  notReparse : node.reparsePoint = false
  regular : node.content.isDirectory = false
  oneLink : node.links = 1
  recorded : ∃ known, knownName name = some known ∧
    record.files.lookup known.text = some node.id.text

variable {path : String} {event : Event B} {bytes : B} {c : Command B} {report more : Report}
  {E : Environment}

theorem checkCopy_eq_ok {node : Node B} {name : String} {record : Record}
    (h : checkCopy node path name record = .ok ()) : Checked record name node := by
  simp only [checkCopy, bind_eq_ok, refuseIf_eq_ok, Bool.or_eq_false_iff, bne_eq_false_iff_eq] at h
  obtain ⟨_, ⟨hreparse, hregular⟩, _, hid, hlinks⟩ := h
  exact ⟨hreparse, hregular, hlinks, bind_eq_some_iff.mp hid⟩

def recordOf (H : Host B) (dataRoot : Option (Node B)) : Option Record :=
  (bytesOf (dataRoot.bind (·.child recordName))).bind H.parseRecord

def Event.Allowed (record : Record) (log : List (Event B)) : Event B → Prop
  | .listed _ | .directorySecured => True
  | .secured name node => Checked record name node
  | .deleted name node => record.choice = .remove ∧ Checked record name node
  | .directoryDeleted node =>
    record.choice = .remove ∧ .directorySecured ∈ log ∧ node.content.entries = []

theorem Event.Allowed.mono {record : Record} {log more : List (Event B)}
    (h : event.Allowed record log) (hsub : log ⊆ more) : event.Allowed record more := by
  cases event with
  | directoryDeleted node => exact ⟨h.1, hsub h.2.1, h.2.2⟩
  | _ => exact h

/-- In the data root only the record and its temporary file change, and the record to itself with
other names not reached. -/
structure DataKept (H : Host B) (before after : Option (Node B)) : Prop where
  others : ∀ name, asciiLowercase name ≠ asciiLowercase recordName →
    asciiLowercase name ≠ asciiLowercase recordTemporary →
    after.bind (·.child name) = before.bind (·.child name)
  record : after.bind (·.child recordName) = before.bind (·.child recordName) ∨
    ∃ record notReached, recordOf H before = some record ∧
      bytesOf (after.bind (·.child recordName)) =
        some (H.printRecord { record with copiesNotReached := notReached })

variable {H : Host B} {found : Option (Node B)}

theorem DataKept.refl : DataKept H found found := ⟨fun _ _ _ => rfl, Or.inl rfl⟩

/-- What holds at every instant of a pass that found that data root. -/
structure Fine (H : Host B) (found : Option (Node B)) (t : State B) : Prop where
  data : DataKept H found t.dataRoot
  events : ∀ event ∈ t.log, ∃ record, recordOf H found = some record ∧ event.Allowed record t.log

variable {s t : State B}

theorem Fine.logged (h : Fine H found s) (legacy : Option (Node B))
    (hevent : ∃ record, recordOf H found = some record ∧ event.Allowed record (s.log ++ [event])) :
    Fine H found { s with legacy, log := s.log ++ [event] } := by
  refine ⟨h.data, ?_⟩
  intro other hmem
  rcases mem_append.mp hmem with hold | hnew
  · obtain ⟨record, hrecord, hallowed⟩ := h.events other hold
    exact ⟨record, hrecord, hallowed.mono (subset_append_left _ _)⟩
  · rw [mem_singleton.mp hnew]
    exact hevent

theorem Fine.dataRoot {dataRoot : Option (Node B)} (h : Fine H found s)
    (hdata : DataKept H found dataRoot) : Fine H found { s with dataRoot } :=
  ⟨hdata, h.events⟩

theorem Fine.touched (h : Fine H found s) (htouched : Touched s t) : Fine H found t := by
  cases htouched with
  | same => exact h
  | changed entries _ => exact ⟨h.data, h.events⟩

theorem touched_log (h : Touched s t) : t.log = s.log := by
  cases h with
  | same => rfl
  | changed entries _ => rfl

def Safe (H : Host B) (found : Option (Node B)) (s : State B) : Command B → Prop
  | .secureDirectory _ => (recordOf H found).isSome = true
  | .secureCopy name _ => ∀ node, s.copy name = some node →
      ∃ record, recordOf H found = some record ∧ Checked record name node
  | .deleteCopy name => ∀ node, s.copy name = some node →
      ∃ record, recordOf H found = some record ∧ record.choice = .remove ∧ Checked record name node
  | .deleteDirectory => ∃ record, recordOf H found = some record ∧ record.choice = .remove ∧
      .directorySecured ∈ s.log
  | .moveTemporary => ∃ record notReached, recordOf H found = some record ∧
      bytesOf (s.record recordTemporary) =
        some (H.printRecord { record with copiesNotReached := notReached })
  | .deleteTemporary | .createTemporary _ _ => True

theorem record_ne_temporary : asciiLowercase recordName ≠ asciiLowercase recordTemporary := by decide

/-- A change of the data root that keeps what is under every name but that of the temporary
file. -/
theorem DataKept.change {dataRoot : Option (Node B)} {directory : Node B}
    {change : Listing B → Except String (Listing B)} (h : DataKept H found dataRoot)
    (hchange : (Disk.changeEntries dataRoot change).toOption = some directory)
    (hkeeps : ∀ entries after, change entries = .ok after → ∀ name,
      asciiLowercase name ≠ asciiLowercase recordTemporary →
      Entries.lookup asciiLowercase after name = Entries.lookup asciiLowercase entries name) :
    DataKept H found (some directory) := by
  obtain ⟨entries, after, hafter, hbefore, hchild⟩ :=
    Disk.changeEntries_eq_ok (toOption_eq_some.mp hchange)
  have hsame : ∀ name, asciiLowercase name ≠ asciiLowercase recordTemporary →
      (some directory).bind (·.child name) = dataRoot.bind (·.child name) := by
    intro name hname
    rw [hbefore, bind_some, hchild]
    exact hkeeps entries after hafter name hname
  refine ⟨?_, ?_⟩
  · intro name hrecord htemporary
    rw [hsame name htemporary]
    exact h.others name hrecord htemporary
  · rw [hsame recordName record_ne_temporary]
    exact h.record

theorem Fine.createTemporary {security : Descriptor} (h : Fine H found s)
    (hperform : s.perform (.createTemporary security bytes) = some t) : Fine H found t := by
  obtain ⟨directory, hchange, hend⟩ := bind_eq_some_iff.mp hperform
  cases hend
  refine h.dataRoot (h.data.change hchange ?_)
  intro entries after hcreate name hname
  obtain ⟨-, rfl⟩ := Disk.create_eq_ok hcreate
  exact Entries.lookup_put_of_ne hname

theorem Fine.moveTemporary (h : Fine H found s) (hsafe : Safe H found s .moveTemporary)
    (hperform : s.perform .moveTemporary = some t) : Fine H found t := by
  obtain ⟨node, hnode, hperform⟩ := bind_eq_some_iff.mp hperform
  obtain ⟨directory, hchange, hend⟩ := bind_eq_some_iff.mp hperform
  cases hend
  obtain ⟨record, notReached, hrecord, hbytes⟩ := hsafe
  obtain ⟨entries, after, hafter, hbefore, hchild⟩ :=
    Disk.changeEntries_eq_ok (toOption_eq_some.mp hchange)
  cases hafter
  refine h.dataRoot ⟨?_, Or.inr ⟨record, notReached, hrecord, ?_⟩⟩
  · intro name hname htemporary
    rw [bind_some, hchild, Entries.lookup_put_of_ne hname,
      Entries.lookup_erase_of_ne htemporary, ← hbefore]
    exact h.data.others name hname htemporary
  · rw [bind_some, hchild, Entries.lookup_put_self, ← hnode]
    exact hbytes

/-- A safe command keeps what holds at every instant. -/
theorem Fine.perform (h : Fine H found s) (hsafe : Safe H found s c)
    (hperform : s.perform c = some t) : Fine H found t := by
  cases c with
  | secureDirectory security =>
    obtain ⟨record, hrecord⟩ := isSome_iff_exists.mp hsafe
    obtain ⟨directory, -, rfl⟩ := map_eq_some_iff.mp hperform
    exact h.logged _ ⟨record, hrecord, trivial⟩
  | secureCopy | deleteCopy =>
    obtain ⟨directory, -, hperform⟩ := bind_eq_some_iff.mp hperform
    obtain ⟨node, hnode, hend⟩ := bind_eq_some_iff.mp hperform
    cases hend
    exact h.logged _ (hsafe node hnode)
  | deleteDirectory =>
    obtain ⟨directory, -, hperform⟩ := bind_eq_some_iff.mp hperform
    obtain ⟨record, hrecord, hremove, hsecured⟩ := hsafe
    split at hperform
    · rename_i hempty
      cases hperform
      refine h.logged _ ⟨record, hrecord, hremove, mem_append_left _ hsecured, ?_⟩
      exact List.isEmpty_iff.mp hempty
    · cases hperform
  | deleteTemporary =>
    obtain ⟨_, -, hperform⟩ := bind_eq_some_iff.mp hperform
    obtain ⟨directory, hchange, hend⟩ := bind_eq_some_iff.mp hperform
    cases hend
    refine h.dataRoot (h.data.change hchange ?_)
    intro entries after herase name hname
    cases herase
    exact Entries.lookup_erase_of_ne hname
  | createTemporary security bytes => exact h.createTemporary hperform
  | moveTemporary => exact h.moveTemporary hsafe hperform

theorem Fine.torn (h : Fine H found s) (htorn : Torn s c t) : Fine H found t := by
  cases htorn with
  | createTemporary bytes hperform => exact h.createTemporary hperform

theorem torn_log (h : Torn s c t) : t.log = s.log := by
  cases h with
  | createTemporary bytes hperform =>
    obtain ⟨directory, -, hend⟩ := bind_eq_some_iff.mp hperform
    cases hend
    rfl

theorem wp_command (h : Fine H found s) (hsafe : Safe H found s c) :
    Wp device (Fine H found) (command c) (fun _ t => s.perform c = some t)
      (fun _ t => t.log = s.log) s := by
  refine ⟨h, ?_, ?_⟩
  · rintro t ⟨htorn⟩
    exact h.torn htorn
  · intro answer t hanswer
    cases hanswer with
    | done hperform => exact ⟨h.perform hsafe hperform, hperform⟩
    | failed reason => exact ⟨h, rfl⟩
    | torn reason htorn => exact ⟨h.torn htorn, torn_log htorn⟩

theorem wp_watch {point : Point} (h : Fine H found s) :
    Wp device (Fine H found) (watch point) (fun _ t => t = s) (fun _ t => t = s) s := by
  refine ⟨h, ?_, ?_⟩
  · rintro t ⟨⟩
  · intro answer t hanswer
    cases hanswer
    exact wp_ofExcept h (by cases answer <;> rfl)

theorem wp_openFile (h : Fine H found s) :
    Wp device (Fine H found) (openFile path) (fun _ t => Touched s t) (fun _ t => Touched s t)
      s := by
  refine ⟨h, ?_, ?_⟩
  · rintro t ⟨⟩
  · intro answer t hanswer
    cases hanswer with
    | opened _ htouched => exact wp_ofExcept (h.touched htouched) (by cases answer <;> exact htouched)

theorem wp_opened {object : State B → Option (Node B)} (h : Fine H found s) :
    Wp device (Fine H found) (opened path object)
      (fun node t => object t = some node ∧ Touched s t) (fun _ t => t.log = s.log) s := by
  refine ((wp_openFile h).mono (fun _ _ _ hq => hq) fun _ _ _ ht => touched_log ht).andThen ?_
  intro _ t ht htouched
  show Wp device _ (.ofExcept (okOr (object t) _)) _ _ t
  cases hobject : object t with
  | none => exact ⟨ht, touched_log htouched⟩
  | some node => exact ⟨ht, hobject, htouched⟩

def Event.Silent : Event B → Prop
  | .listed _ | .deleted _ _ => False
  | _ => True

structure Quiet (s t : State B) : Prop where
  kept : s.log ⊆ t.log
  silent : ∀ event ∈ t.log, event ∈ s.log ∨ event.Silent

theorem Quiet.of_log (h : t.log = s.log) : Quiet s t := by
  refine ⟨?_, ?_⟩
  · rw [h]
    exact List.Subset.refl _
  · intro event hmem
    rw [h] at hmem
    exact Or.inl hmem

theorem Quiet.trans {u : State B} (h : Quiet s t) (h' : Quiet t u) : Quiet s u := by
  refine ⟨fun _ hmem => h'.kept (h.kept hmem), ?_⟩
  intro event hmem
  rcases h'.silent event hmem with hearlier | hsilent
  · exact h.silent event hearlier
  · exact Or.inr hsilent

theorem Quiet.append (h : t.log = s.log ++ [event]) (hsilent : event.Silent) :
    Quiet s t := by
  refine ⟨?_, ?_⟩
  · rw [h]
    exact subset_append_left _ _
  · intro other hmem
    rw [h] at hmem
    rcases mem_append.mp hmem with hold | hnew
    · exact Or.inl hold
    · rw [mem_singleton.mp hnew]
      exact Or.inr hsilent

theorem wp_checked {α : Type} {x : Except String Unit} {p : Pass B String α}
    {Q : α → State B → Prop} {F : String → State B → Prop} (h : Fine H found s)
    (hp : x = .ok () → Wp device (Fine H found) p Q F s) (hF : ∀ reason, F reason s) :
    Wp device (Fine H found) (Prog.ofExcept x >>= fun _ => p) Q F s := by
  cases x with
  | error reason => exact ⟨h, hF reason⟩
  | ok _ => exact hp rfl

/-- A step of a pass: a point, and then what is done through a handle. -/
theorem wp_step {point : Point} {object : State B → Option (Node B)}
    {p : Node B → Pass B String Unit} {Q : State B → Prop} (h : Fine H found s)
    (hp : ∀ node t, Fine H found t → object t = some node → t.log = s.log →
      Wp device (Fine H found) (p node) (fun _ => Q) (fun _ u => Quiet s u) t) :
    Wp device (Fine H found) (watch point >>= fun _ => orFailure (opened path object >>= p))
      (fun _ => Q) (fun _ u => Quiet s u) s := by
  refine ((wp_watch h).mono (fun _ _ _ hq => hq) ?_).andThen ?_
  · rintro _ _ _ rfl
    exact Quiet.of_log rfl
  rintro _ _ _ rfl
  have hopened : Wp device (Fine H found) (opened path object)
      (fun node t => object t = some node ∧ Touched _ t) (fun _ t => Quiet _ t) _ :=
    (wp_opened h).mono (fun _ _ _ hq => hq) fun _ _ _ hlog => Quiet.of_log hlog
  refine (hopened.andThen ?_).orElse fun _ _ ht hquiet => ⟨ht, hquiet⟩
  intro node t ht hnode
  exact hp node t ht hnode.1 (touched_log hnode.2)

theorem wp_createTemporary {security : Descriptor} (h : Fine H found s) :
    Wp device (Fine H found) (command (.createTemporary security bytes))
      (fun _ t => bytesOf (t.record recordTemporary) = some bytes ∧ t.log = s.log)
      (fun _ t => t.log = s.log) s := by
  have hsafe : Safe H found s (.createTemporary security bytes) := trivial
  refine (wp_command h hsafe).mono ?_ fun _ _ _ hlog => hlog
  intro _ t _ hperform
  obtain ⟨directory, hchange, hend⟩ := bind_eq_some_iff.mp hperform
  cases hend
  obtain ⟨entries, after, hcreate, -, hchild⟩ :=
    Disk.changeEntries_eq_ok (toOption_eq_some.mp hchange)
  obtain ⟨-, rfl⟩ := Disk.create_eq_ok hcreate
  refine ⟨?_, rfl⟩
  rw [State.record, bind_some, hchild, Entries.lookup_put_self]
  rfl

theorem log_temporary (hc : c = .deleteTemporary ∨ c = .moveTemporary)
    (h : s.perform c = some t) : t.log = s.log := by
  rcases hc with rfl | rfl
  all_goals
    obtain ⟨_, -, h⟩ := bind_eq_some_iff.mp h
    obtain ⟨directory, -, hend⟩ := bind_eq_some_iff.mp h
    cases hend
    rfl

section Parts
variable {E : Environment} {record : Record} (hrecord : recordOf H found = some record)
include hrecord

theorem wp_restrictLegacyDirectory (h : Fine H found s) :
    Wp device (Fine H found) (restrictLegacyDirectory E)
      (fun _ t => Quiet s t ∧ .directorySecured ∈ t.log) (fun _ t => Quiet s t) s := by
  refine wp_step h ?_
  intro node t ht _ hlog
  have hquiet := Quiet.of_log hlog
  refine wp_checked ht (fun _ => ?_) fun _ => hquiet
  have hsafe : Safe H found t (.secureDirectory MigrationCustody.identityDirectory) :=
    isSome_of_mem hrecord
  refine (wp_command ht hsafe).mono ?_ fun _ u _ hsame => hquiet.trans (Quiet.of_log hsame)
  intro _ u _ hperform
  obtain ⟨directory, -, rfl⟩ := map_eq_some_iff.mp hperform
  refine ⟨hquiet.trans (Quiet.append rfl trivial), ?_⟩
  exact mem_append_right _ (mem_singleton_self _)

theorem wp_restrictCopy {name : String} (h : Fine H found s) :
    Wp device (Fine H found) (restrictCopy E name record) (fun _ t => Quiet s t)
      (fun _ t => Quiet s t) s := by
  unfold restrictCopy
  cases hknown : knownName name with
  | none => exact ⟨h, Quiet.of_log rfl⟩
  | some known =>
    refine wp_step h ?_
    intro node t ht hnode hlog
    have hquiet := Quiet.of_log hlog
    refine wp_checked ht (fun hcheck => ?_) fun _ => hquiet
    refine (wp_command ht ?_).mono ?_ fun _ u _ hsame => hquiet.trans (Quiet.of_log hsame)
    · intro other hother
      cases hnode.symm.trans hother
      exact ⟨record, hrecord, checkCopy_eq_ok hcheck⟩
    · intro _ u _ hperform
      obtain ⟨directory, -, hperform⟩ := bind_eq_some_iff.mp hperform
      obtain ⟨other, -, hend⟩ := bind_eq_some_iff.mp hperform
      cases hend
      exact hquiet.trans (Quiet.append rfl trivial)

theorem wp_removeCopy {name : String} (hremove : record.choice = .remove) (h : Fine H found s) :
    Wp device (Fine H found) (removeCopy E name record)
      (fun _ t => ∃ node, t.log = s.log ++ [.deleted name node]) (fun _ t => t.log = s.log) s := by
  refine (wp_opened h).andThen ?_
  intro node t ht hnode
  have hlog := touched_log hnode.2
  refine wp_checked ht (fun hcheck => ?_) fun _ => hlog
  refine (wp_command ht ?_).mono ?_ ?_
  · intro other hother
    cases hnode.1.symm.trans hother
    exact ⟨record, hrecord, hremove, checkCopy_eq_ok hcheck⟩
  · intro _ u _ hperform
    obtain ⟨directory, -, hperform⟩ := bind_eq_some_iff.mp hperform
    obtain ⟨other, -, hend⟩ := bind_eq_some_iff.mp hperform
    cases hend
    exact ⟨other, congrArg (· ++ [.deleted name other]) hlog⟩
  · intro _ u _ hsame
    exact hsame.trans hlog

theorem wp_removeLegacyDirectory (hremove : record.choice = .remove)
    (hsecured : .directorySecured ∈ s.log) (h : Fine H found s) :
    Wp device (Fine H found) (removeLegacyDirectory E) (fun _ t => Quiet s t)
      (fun _ t => Quiet s t) s := by
  refine wp_step h ?_
  intro node t ht _ hlog
  have hquiet := Quiet.of_log hlog
  refine wp_checked ht (fun _ => ?_) fun _ => hquiet
  have hsafe : Safe H found t .deleteDirectory :=
    ⟨record, hrecord, hremove, hquiet.kept hsecured⟩
  refine (wp_command ht hsafe).mono ?_ fun _ u _ hsame => hquiet.trans (Quiet.of_log hsame)
  intro _ u _ hperform
  obtain ⟨directory, -, hperform⟩ := bind_eq_some_iff.mp hperform
  split at hperform
  · cases hperform
    exact hquiet.trans (Quiet.append rfl trivial)
  · cases hperform

theorem wp_rewrite {notReached : List String} (h : Fine H found s) :
    Wp device (Fine H found) (rewrite H E { record with copiesNotReached := notReached })
      (fun _ t => t.log = s.log) (fun _ t => t.log = s.log) s := by
  have hdelete : ∀ u, Fine H found u → u.log = s.log →
      Wp device (Fine H found) (command .deleteTemporary) (fun _ t => t.log = s.log)
        (fun _ t => t.log = s.log) u := by
    intro u hu hlog
    have hsafe : Safe H found u .deleteTemporary := trivial
    refine (wp_command hu hsafe).mono ?_ fun _ _ _ hsame => hsame.trans hlog
    intro _ v _ hperform
    exact (log_temporary (.inl rfl) hperform).trans hlog
  refine (wp_opened h).andThen ?_
  intro node t ht hnode
  have hlog := touched_log hnode.2
  refine wp_checked ht (fun _ => ?_) fun _ => hlog
  refine wp_checked ht (fun _ => ?_) fun _ => hlog
  refine Wp.andThen (Q := fun _ u => u.log = s.log) ?_ ?_
  · show Wp device _ (if _ then _ else _) _ _ t
    split
    · exact hdelete t ht hlog
    · exact ⟨ht, hlog⟩
  · intro _ u hu hulog
    refine Wp.orElse (F := fun _ v => v.log = s.log) ?_ ?_
    · refine ((wp_createTemporary hu).mono (fun _ _ _ hq => hq) fun _ _ _ hsame =>
        hsame.trans hulog).andThen ?_
      intro _ v hv hcreated
      have hsafe : Safe H found v .moveTemporary := ⟨record, notReached, hrecord, hcreated.1⟩
      refine (wp_command hv hsafe).mono ?_ fun _ _ _ hsame =>
        (hsame.trans hcreated.2).trans hulog
      intro _ w _ hperform
      exact ((log_temporary (.inr rfl) hperform).trans hcreated.2).trans hulog
    · intro reason v hv hvlog
      refine Wp.andThen (Q := fun _ w => w.log = s.log) ?_ ?_
      · exact (hdelete v hv hvlog).orElse fun _ w hw hwlog => ⟨hw, hwlog⟩
      · intro _ w hw hwlog
        exact ⟨hw, hwlog⟩

end Parts

def Told (report : Report) (t : State B) : Prop :=
  ∀ name node, .deleted name node ∈ t.log → name ∈ report.restricted ∧ name ∈ report.removed

def Listed (names : List String) (t : State B) : Prop := ∀ other, .listed other ∈ t.log → other = names

def Report.Covers (report : Report) (name : String) : Prop :=
  name ∈ report.restricted ∨ name ∈ report.notReached

structure Extends (report more : Report) : Prop where
  restricted : report.restricted ⊆ more.restricted
  removed : report.removed ⊆ more.removed
  notReached : report.notReached ⊆ more.notReached

theorem Extends.refl (report : Report) : Extends report report :=
  ⟨List.Subset.refl _, List.Subset.refl _, List.Subset.refl _⟩

theorem Extends.trans {first second third : Report} (h : Extends first second)
    (h' : Extends second third) : Extends first third :=
  ⟨fun _ hmem => h'.restricted (h.restricted hmem), fun _ hmem => h'.removed (h.removed hmem),
    fun _ hmem => h'.notReached (h.notReached hmem)⟩

theorem extends_missed (report : Report) (name : String) : Extends report (report.missed name) :=
  ⟨List.Subset.refl _, List.Subset.refl _, subset_append_left _ _⟩

theorem Extends.covers (h : Extends report more) {name : String} (hcovers : report.Covers name) :
    more.Covers name :=
  hcovers.imp (fun hmem => h.restricted hmem) fun hmem => h.notReached hmem

theorem covers_missed (report : Report) (name : String) : (report.missed name).Covers name :=
  Or.inr (mem_append_right _ (mem_singleton_self _))

theorem Told.mono (h : Told report s) (hmore : Extends report more) (hquiet : Quiet s t) :
    Told more t := by
  intro name node hmem
  rcases hquiet.silent _ hmem with hold | hsilent
  · obtain ⟨hrestricted, hremoved⟩ := h name node hold
    exact ⟨hmore.restricted hrestricted, hmore.removed hremoved⟩
  · exact hsilent.elim

theorem Listed.mono {names : List String} (h : Listed names s) (hquiet : Quiet s t) :
    Listed names t := by
  intro other hmem
  rcases hquiet.silent _ hmem with hold | hsilent
  · exact h other hold
  · exact hsilent.elim

theorem wp_attempt {α : Type} {p : Pass B Injected Unit} {done failed : α}
    {P : State B → Prop} {F : Injected → State B → Prop} {Q : α → State B → Prop}
    (h : Wp device (Fine H found) p (fun _ => P) F s) (hdone : ∀ t, Fine H found t → P t → Q done t)
    (hfailed : ∀ e t, Fine H found t → F e t → Q failed t) :
    Wp device (Fine H found) (attempt p done failed) Q (fun _ _ => True) s := by
  refine (h.andThen ?_).orElse ?_
  · intro _ t ht hP
    exact ⟨ht, hdone t ht hP⟩
  · intro e t ht hF
    cases e with
    | crash => exact ⟨ht, trivial⟩
    | failure reason => exact ⟨ht, hfailed _ t ht hF⟩

structure Tracked (names : List String) (report : Report) (t : State B) : Prop where
  told : Told report t
  listed : Listed names t

theorem Tracked.mono {names : List String} (h : Tracked names report s)
    (hmore : Extends report more) (hquiet : Quiet s t) : Tracked names more t :=
  ⟨h.told.mono hmore hquiet, h.listed.mono hquiet⟩

section Pass
variable {E : Environment} {record : Record} (hrecord : recordOf H found = some record)
include hrecord

variable {names : List String} {report : Report}

theorem wp_removeRestricted {name : String} (hremove : record.choice = .remove)
    (hname : name ∈ report.restricted) (h : Fine H found s) (htracked : Tracked names report s) :
    Wp device (Fine H found) (removeRestricted E record name report)
      (fun after t => Tracked names after t ∧ Extends report after ∧ s.log ⊆ t.log)
      (fun _ _ => True) s := by
  refine ((wp_removeCopy hrecord hremove h).andThen ?_).orElse ?_
  · rintro _ t ht ⟨node, hlog⟩
    have hmore : Extends report { report with removed := report.removed ++ [name] } :=
      ⟨List.Subset.refl _, subset_append_left _ _, List.Subset.refl _⟩
    refine ⟨ht, ⟨?_, ?_⟩, hmore, ?_⟩
    · intro other othernode hmem
      rw [hlog] at hmem
      rcases mem_append.mp hmem with hold | hnew
      · obtain ⟨hrestricted, hremoved⟩ := htracked.told other othernode hold
        exact ⟨hrestricted, hmore.removed hremoved⟩
      · cases mem_singleton.mp hnew
        exact ⟨hname, mem_append_right _ (mem_singleton_self _)⟩
    · intro other hmem
      rw [hlog] at hmem
      rcases mem_append.mp hmem with hold | hnew
      · exact htracked.listed other hold
      · cases mem_singleton.mp hnew
    · rw [hlog]
      exact subset_append_left _ _
  · intro e t ht hlog
    have hquiet := Quiet.of_log hlog
    exact ⟨ht, htracked.mono (extends_missed report name) hquiet, extends_missed report name,
      hquiet.kept⟩

theorem wp_copyOne {name : String} (h : Fine H found s) (htracked : Tracked names report s) :
    Wp device (Fine H found) (copyOne E record name report)
      (fun after t => Tracked names after t ∧ Extends report after ∧ after.Covers name ∧
        s.log ⊆ t.log) (fun _ _ => True) s := by
  have hrestrict : Wp device (Fine H found) (attempt (restrictCopy E name record) true false)
      (fun _ t => Quiet s t) (fun _ _ => True) s :=
    wp_attempt (wp_restrictCopy hrecord h) (fun _ _ hquiet => hquiet) fun _ _ _ hquiet => hquiet
  refine hrestrict.andThen ?_
  intro restricted t ht hquiet
  cases restricted with
  | false =>
    exact ⟨ht, htracked.mono (extends_missed report name) hquiet, extends_missed report name,
      covers_missed report name, hquiet.kept⟩
  | true =>
    let now : Report := { report with restricted := report.restricted ++ [name] }
    have hmore : Extends report now :=
      ⟨subset_append_left _ _, List.Subset.refl _, List.Subset.refl _⟩
    have hname : name ∈ now.restricted := mem_append_right _ (mem_singleton_self _)
    have htracked' : Tracked names now t := htracked.mono hmore hquiet
    show Wp device _ (if (record.choice != .remove) = true then _ else removeRestricted E record name
      now) _ _ t
    split
    · exact ⟨ht, htracked', hmore, Or.inl hname, hquiet.kept⟩
    · rename_i hchoice
      have hremove : record.choice = .remove := by simpa using hchoice
      refine (wp_removeRestricted hrecord hremove hname ht htracked').mono ?_ fun _ _ _ he => he
      rintro after u _ ⟨hafter, hextends, hkept⟩
      exact ⟨hafter, hmore.trans hextends, hextends.covers (Or.inl hname),
        fun _ hmem => hkept (hquiet.kept hmem)⟩

theorem wp_copyEach {rest : List String} (h : Fine H found s) (htracked : Tracked names report s) :
    Wp device (Fine H found) (copyEach E record rest report)
      (fun after t => Tracked names after t ∧ Extends report after ∧ (∀ name ∈ rest, after.Covers name) ∧
        s.log ⊆ t.log) (fun _ _ => True) s := by
  induction rest generalizing report s with
  | nil =>
    refine ⟨h, htracked, Extends.refl report, ?_, List.Subset.refl _⟩
    rintro name ⟨⟩
  | cons name rest ih =>
    refine (wp_copyOne hrecord h htracked).andThen ?_
    rintro after t ht ⟨hafter, hextends, hcovers, hkept⟩
    refine (ih ht hafter).mono ?_ fun _ _ _ he => he
    rintro last u _ ⟨hlast, hextends', hrest, hkept'⟩
    refine ⟨hlast, hextends.trans hextends', ?_, fun _ hmem => hkept' (hkept hmem)⟩
    intro other hmem
    rcases mem_cons.mp hmem with rfl | hother
    · exact hextends'.covers hcovers
    · exact hrest other hother

theorem wp_finishDirectory {restricted : Bool}
    (hsecured : restricted = true → .directorySecured ∈ s.log) (h : Fine H found s)
    (htracked : Tracked names report s) :
    Wp device (Fine H found) (finishDirectory E record restricted report)
      (fun after t => Tracked names after t ∧ Extends report after) (fun _ _ => True) s := by
  unfold finishDirectory
  split
  · rename_i hboth
    rw [Bool.and_eq_true, beq_iff_eq] at hboth
    refine Wp.andThen (Q := fun _ t => t.log = s.log) ?_ ?_
    · refine ⟨h, ?_, ?_⟩
      · rintro t ⟨⟩
      · intro answer t hanswer
        cases hanswer with
        | probed htouched _ => exact ⟨h.touched htouched, touched_log htouched⟩
        | notProbed reason htouched => exact ⟨h.touched htouched, trivial⟩
    · intro empty t ht hlog
      have hquiet := Quiet.of_log hlog
      cases empty with
      | false => exact ⟨ht, htracked.mono (Extends.refl report) hquiet, Extends.refl report⟩
      | true =>
        have hgone : Extends report { report with directoryRemoved := true } :=
          ⟨List.Subset.refl _, List.Subset.refl _, List.Subset.refl _⟩
        refine wp_attempt (wp_removeLegacyDirectory hrecord hboth.2
          (hquiet.kept (hsecured hboth.1)) ht) ?_ ?_
        · intro u _ hmore
          exact ⟨htracked.mono hgone (hquiet.trans hmore), hgone⟩
        · intro e u _ hmore
          exact ⟨htracked.mono (extends_missed report legacyName) (hquiet.trans hmore),
            extends_missed report legacyName⟩
  · exact ⟨h, htracked, Extends.refl report⟩

theorem wp_recordReport (h : Fine H found s) :
    Wp device (Fine H found) (recordReport H E record report) (fun _ t => Quiet s t)
      (fun _ _ => True) s := by
  unfold recordReport
  split
  · exact ⟨h, Quiet.of_log rfl⟩
  · refine Wp.orElse (F := fun _ t => Quiet s t) ?_ fun _ t ht hquiet => ⟨ht, hquiet⟩
    refine ((wp_watch h).mono (fun _ _ _ hq => hq) ?_).andThen ?_
    · rintro _ _ _ rfl
      exact Quiet.of_log rfl
    rintro _ _ _ rfl
    refine ((wp_rewrite hrecord h).mono ?_ fun _ _ _ hlog => hlog).orElse ?_
    · intro _ t _ hlog
      exact Quiet.of_log hlog
    · intro reason t ht hlog
      exact ⟨ht, Quiet.of_log hlog⟩

end Pass

structure Reported (report : Report) (t : State B) : Prop where
  listed : ∀ names, .listed names ∈ t.log → ∀ name ∈ names, report.Covers name
  deleted : Told report t

theorem readChecked_bytes {node : Option (Node B)} {policy : Policy}
    (h : readChecked node path policy = .ok (some bytes)) : bytesOf node = some bytes := by
  cases node with
  | none => cases h
  | some node =>
    obtain ⟨reparsePoint, links, id, security, content⟩ := node
    simp only [readChecked, bind_eq_ok] at h
    obtain ⟨_, _, _, _, h⟩ := h
    cases content with
    | file contents =>
      cases h
      rfl
    | directory caseSensitive entries => cases h

theorem wp_dataRootRecord (h : Fine H found s) (hroot : s.dataRoot = found) :
    Wp device (Fine H found) (dataRootRecord H E)
      (fun record t => recordOf H found = some record ∧ t.log = s.log) (fun _ _ => True) s := by
  refine Wp.andThen (Q := fun _ t => Touched s t) ?_ ?_
  · exact (wp_openFile h).orElse fun _ t ht _ => ⟨ht, trivial⟩
  intro _ t ht htouched
  have hsame : t.dataRoot = found := by
    cases htouched with
    | same | changed => exact hroot
  refine Wp.andThen (Q := fun bytes u => readChecked (t.record recordName) E.paths.record
    MigrationCustody.configuration = .ok bytes ∧ u = t) ?_ ?_
  · refine (wp_ofExcept_self (x := (readChecked (t.record recordName) E.paths.record
      MigrationCustody.configuration).mapError fun _ => "the record cannot be read") ht).mono ?_
        fun _ _ _ _ => trivial
    intro bytes u _ hread
    exact ⟨mapError_eq_ok.mp hread.1, hread.2⟩
  intro found' u hu hread
  obtain ⟨hread, hut⟩ := hread
  subst hut
  cases found' with
  | none => exact ⟨hu, trivial⟩
  | some bytes =>
    have hbytes := readChecked_bytes hread
    rw [State.record, hsame] at hbytes
    refine wp_bind ⟨hu, ?_⟩
    cases hparse : H.parseRecord bytes with
    | none =>
      rw [hparse]
      exact ⟨hu, trivial⟩
    | some record =>
      rw [hparse]
      refine ⟨hu, ?_, touched_log htouched⟩
      rw [recordOf, hbytes]
      exact hparse

theorem wp_counts (h : Fine H found s) :
    Wp device (Fine H found) (counts E) (fun _ t => t.log = s.log) (fun _ _ => True) s := by
  refine Wp.orElse (F := fun _ t => t.log = s.log) ?_ fun _ t ht hlog => ⟨ht, hlog⟩
  refine ((wp_openFile h).mono (fun _ _ _ hq => hq) fun _ _ _ ht => touched_log ht).andThen ?_
  intro _ t ht htouched
  refine (wp_ofExcept_self ht).mono ?_ ?_
  · rintro _ _ _ ⟨-, rfl⟩
    exact touched_log htouched
  · rintro _ _ _ ⟨-, rfl⟩
    exact touched_log htouched

theorem wp_copies (legacy : Option (Node B)) :
    Wp device (Fine H found) (copies H E) Reported (fun _ _ => True) ⟨found, legacy, []⟩ := by
  have hstart : Fine H found ⟨found, legacy, []⟩ := ⟨DataKept.refl, fun _ hmem => nomatch hmem⟩
  refine (wp_dataRootRecord hstart rfl).andThen ?_
  rintro record t ht ⟨hrecord, hlog⟩
  refine (wp_counts ht).andThen ?_
  intro there u hu hulog
  have hempty : u.log = [] := hulog.trans hlog
  cases there with
  | false =>
    refine ⟨hu, ?_, ?_⟩
    · intro names hmem
      rw [hempty] at hmem
      cases hmem
    · intro name node hmem
      rw [hempty] at hmem
      cases hmem
  | true =>
    have hrestrict : Wp device (Fine H found) (attempt (restrictLegacyDirectory E) true false)
        (fun restricted v => Quiet u v ∧ (restricted = true → .directorySecured ∈ v.log))
        (fun _ _ => True) u :=
      wp_attempt (wp_restrictLegacyDirectory hrecord hu) (fun _ _ hq => ⟨hq.1, fun _ => hq.2⟩)
        fun _ _ _ hquiet => ⟨hquiet, fun hfalse => nomatch hfalse⟩
    refine hrestrict.andThen ?_
    rintro restricted v hv ⟨hquiet, hsecured⟩
    have hnone : ∀ event ∈ v.log, event.Silent := by
      intro event hmem
      rcases hquiet.silent event hmem with hold | hsilent
      · rw [hempty] at hold
        cases hold
      · exact hsilent
    refine Wp.andThen (Q := fun names w => v.log ⊆ w.log ∧
      ∀ event ∈ w.log, event.Silent ∨ event = .listed names) ?_ ?_
    · refine ⟨hv, ?_, ?_⟩
      · rintro w ⟨⟩
      · intro answer w hanswer
        cases hanswer with
        | notListed reason htouched => exact ⟨hv.touched htouched, trivial⟩
        | @listed _ middle _ names htouched hnames =>
          have hmiddle := hv.touched htouched
          refine ⟨hmiddle.logged middle.legacy ⟨record, hrecord, trivial⟩, ?_, ?_⟩
          · rw [← touched_log htouched]
            exact subset_append_left _ _
          · intro event hmem
            rcases mem_append.mp hmem with hold | hnew
            · rw [touched_log htouched] at hold
              exact Or.inl (hnone event hold)
            · exact Or.inr (mem_singleton.mp hnew)
    rintro names w hw ⟨hkept, hevents⟩
    have htracked : ∀ report : Report, Tracked names report w := by
      intro report
      refine ⟨?_, ?_⟩
      · intro name node hmem
        rcases hevents _ hmem with hsilent | heq
        · exact hsilent.elim
        · cases heq
      · intro other hmem
        rcases hevents _ hmem with hsilent | heq
        · exact hsilent.elim
        · cases heq
          rfl
    refine (wp_copyEach hrecord hw (htracked _)).andThen ?_
    rintro report x hx ⟨hreport, -, hcovers, hkept'⟩
    refine (wp_finishDirectory hrecord (fun hr => hkept' (hkept (hsecured hr))) hx hreport).andThen ?_
    rintro last y hy ⟨hlast, hextends⟩
    refine (wp_recordReport hrecord hy).andThen ?_
    intro _ z hz hquiet'
    have hend := hlast.mono (Extends.refl last) hquiet'
    refine ⟨hz, ?_, hend.told⟩
    intro other hmem name hname
    rw [hend.listed other hmem] at hname
    exact hextends.covers (hcovers name ((mem_insertionSort _).mpr hname))

/-- The data roots that passes lead to, each over any legacy directory. -/
inductive Passes (H : Host B) (first : Option (Node B)) : Option (Node B) → Prop where
  | here : Passes H first first
  | pass {dataRoot legacy : Option (Node B)} {E : Environment} {out : Outcome String Report}
      {t : State B} : Passes H first dataRoot →
      Run device (copies H E) ⟨dataRoot, legacy, []⟩ out t → Passes H first t.dataRoot

section Passes
variable (hparse : ∀ bytes record, H.parseRecord bytes = some record → ∀ notReached,
  H.parseRecord (H.printRecord { record with copiesNotReached := notReached }) =
    some { record with copiesNotReached := notReached })
include hparse

theorem DataKept.recordOf {before after : Option (Node B)} (h : DataKept H before after)
    {record : Record} (hrecord : recordOf H after = some record) :
    ∃ earlier notReached, Copies.recordOf H before = some earlier ∧
      record = { earlier with copiesNotReached := notReached } := by
  rcases h.record with hsame | ⟨earlier, notReached, hearlier, hbytes⟩
  · rw [Copies.recordOf, hsame] at hrecord
    exact ⟨record, record.copiesNotReached, hrecord, rfl⟩
  · obtain ⟨bytes, -, hbefore⟩ := bind_eq_some_iff.mp hearlier
    rw [Copies.recordOf, hbytes, bind_some, hparse bytes earlier hbefore] at hrecord
    exact ⟨earlier, notReached, hearlier, (Option.some.inj hrecord).symm⟩

theorem DataKept.trans {first second third : Option (Node B)} (h : DataKept H first second)
    (h' : DataKept H second third) : DataKept H first third := by
  refine ⟨?_, ?_⟩
  · intro name hrecord htemporary
    exact (h'.others name hrecord htemporary).trans (h.others name hrecord htemporary)
  · rcases h'.record with hsame | ⟨record, notReached, hrecord, hbytes⟩
    · rw [hsame]
      exact h.record
    · obtain ⟨earlier, _, hearlier, rfl⟩ := h.recordOf hparse hrecord
      exact Or.inr ⟨earlier, notReached, hearlier, hbytes⟩

theorem Passes.kept {first dataRoot : Option (Node B)} (h : Passes H first dataRoot) :
    DataKept H first dataRoot := by
  induction h with
  | here => exact DataKept.refl
  | pass _ hrun ih => exact ih.trans hparse (((wp_copies _).sound hrun).1).data

/-- One more pass, over any legacy directory, after any number of others. -/
theorem copies_touch_what_was_checked {first dataRoot legacy : Option (Node B)}
    (hpasses : Passes H first dataRoot) {E : Environment} {out : Outcome String Report}
    {t : State B} (hrun : Run device (copies H E) ⟨dataRoot, legacy, []⟩ out t) :
    (∀ name node, .deleted name node ∈ t.log → ∃ record, recordOf H first = some record ∧
      record.choice = .remove ∧ Checked record name node) ∧
    (∀ name node, .secured name node ∈ t.log → ∃ record, recordOf H first = some record ∧
      Checked record name node) ∧
    (∀ node, .directoryDeleted node ∈ t.log → (∃ record, recordOf H first = some record ∧
      record.choice = .remove) ∧ .directorySecured ∈ t.log ∧ node.content.entries = []) ∧
    (∀ record, recordOf H first = some record → record.choice = .keep →
      (∀ name node, .deleted name node ∉ t.log) ∧ ∀ node, .directoryDeleted node ∉ t.log) ∧
    (∀ report, out = .finished (.ok report) → Reported report t) ∧
    ∀ name, asciiLowercase name ≠ asciiLowercase recordName →
      asciiLowercase name ≠ asciiLowercase recordTemporary →
      t.dataRoot.bind (·.child name) = first.bind (·.child name) := by
  obtain ⟨hfine, hend⟩ := (wp_copies legacy).sound hrun
  have hkept := hpasses.kept hparse
  have hallowed : ∀ event ∈ t.log, ∃ record, recordOf H first = some record ∧
      event.Allowed record t.log := by
    intro event hmem
    obtain ⟨record, hrecord, hallowed⟩ := hfine.events event hmem
    obtain ⟨earlier, notReached, hearlier, rfl⟩ := hkept.recordOf hparse hrecord
    refine ⟨earlier, hearlier, ?_⟩
    cases event with
    | secured name node => exact ⟨hallowed.1, hallowed.2, hallowed.3, hallowed.4⟩
    | deleted name node =>
      exact ⟨hallowed.1, hallowed.2.1, hallowed.2.2, hallowed.2.3, hallowed.2.4⟩
    | _ => exact hallowed
  have hdeleted : ∀ name node, .deleted name node ∈ t.log → ∃ record,
      recordOf H first = some record ∧ record.choice = .remove ∧ Checked record name node :=
    fun name node hmem => hallowed _ hmem
  have hdirectory : ∀ node, .directoryDeleted node ∈ t.log → (∃ record,
      recordOf H first = some record ∧ record.choice = .remove) ∧ .directorySecured ∈ t.log ∧
        node.content.entries = [] := by
    intro node hmem
    obtain ⟨record, hrecord, hremove, hrest⟩ := hallowed _ hmem
    exact ⟨⟨record, hrecord, hremove⟩, hrest⟩
  have hkeep : ∀ record, recordOf H first = some record → record.choice = .keep →
      ∀ other, recordOf H first = some other → other.choice ≠ .remove := by
    intro record hrecord hchoice other hother hremove
    cases hrecord.symm.trans hother
    cases hchoice.symm.trans hremove
  refine ⟨hdeleted, fun name node hmem => hallowed _ hmem, hdirectory, ?_, ?_, ?_⟩
  · intro record hrecord hchoice
    refine ⟨?_, ?_⟩
    · intro name node hmem
      obtain ⟨other, hother, hremove, -⟩ := hdeleted name node hmem
      exact hkeep record hrecord hchoice other hother hremove
    · intro node hmem
      obtain ⟨⟨other, hother, hremove⟩, -⟩ := hdirectory node hmem
      exact hkeep record hrecord hchoice other hother hremove
  · intro report hout
    exact hend _ hout
  · intro name hrecord htemporary
    exact (hfine.data.others name hrecord htemporary).trans (hkept.others name hrecord htemporary)

end Passes

section Sample

def sampleRecord : Record where
  choice := .remove
  fingerprints := []
  agentId := "01890a5d-ac96-774b-bcce-b302099a8057"
  keyFingerprint := ""
  enrollingAccount := none
  files := [("key.dat", (⟨0, 0⟩ : FileId).text)]
  reversalPending := false
  copiesNotReached := []

def recordHost : Host (Option Record) where
  toml := ⟨fun _ => .error none, fun _ => none, fun _ => none⟩
  fromUtf8 := fun _ => none
  asBytes := fun _ => none
  empty := none
  size := fun _ => 0
  parseRecord := id
  printRecord := some
  pemCertificates := fun _ => none
  encodePem := fun _ => ""
  sha256 := fun _ => ""
  unsealKey := .ok
  publicKey := id
  pubkeyFingerprint := fun _ => ""
  parseIdentity := fun _ => .error ""
  certificateIdentityDer := fun _ => .error ""
  parseRfc3339 := fun _ => none
  sidText := fun _ => ""

def sampleDataRoot : Option (Node (Option Record)) :=
  some (newDirectory MigrationCustody.closedDirectory
    [(recordName, newFile MigrationCustody.sharedFile (some sampleRecord))])

def sampleLegacy : Option (Node (Option Record)) :=
  some (newDirectory MigrationCustody.closedDirectory
    [("key.dat", newFile MigrationCustody.sharedFile none)])

def sampleEnvironment : Environment := ⟨.under "C:\\ProgramData", 0, .ok "host"⟩

def working : (o : Op (Option Record)) → State (Option Record) → o.Answer × State (Option Record)
  | .watch _, s => (.ok (), s)
  | .openFile _, s => (.ok (), s)
  | .list _, s =>
    match s.names with
    | some names => (.ok names, { s with log := s.log ++ [.listed names] })
    | none => (.error "", s)
  | .isEmpty _, s =>
    match s.names with
    | some names => (.ok names.isEmpty, s)
    | none => (.error "", s)
  | .command c, s =>
    match s.perform c with
    | some t => (.ok (), t)
    | none => (.error "", s)

theorem answers_working (o : Op (Option Record)) (s : State (Option Record)) :
    device.answers o s (working o s).1 (working o s).2 := by
  cases o with
  | watch point => exact .watch _
  | openFile path => exact .opened _ .same
  | list path =>
    cases hnames : s.names with
    | some names =>
      simp only [working, hnames]
      exact .listed .same hnames
    | none =>
      simp only [working, hnames]
      exact .notListed _ .same
  | isEmpty path =>
    cases hnames : s.names with
    | some names =>
      simp only [working, hnames]
      exact .probed .same hnames
    | none =>
      simp only [working, hnames]
      exact .notProbed _ .same
  | command c =>
    cases hperform : s.perform c with
    | some t =>
      simp only [working, hperform]
      exact .done hperform
    | none =>
      simp only [working, hperform]
      exact .failed _

def sampleEnd : State (Option Record) :=
  (exec working (copies recordHost sampleEnvironment) ⟨sampleDataRoot, sampleLegacy, []⟩).2

/-- The one copy and then its directory are restricted and deleted. -/
theorem sample_copy_removed :
    sampleEnd.log.length = 5 ∧ sampleEnd.legacy.isNone = true ∧
    ∀ name node, .deleted name node ∈ sampleEnd.log → Checked sampleRecord name node := by
  refine ⟨by decide +kernel, by decide +kernel, ?_⟩
  intro name node hmem
  have hrun := run_exec answers_working (copies recordHost sampleEnvironment)
    ⟨sampleDataRoot, sampleLegacy, []⟩
  obtain ⟨record, hrecord, -, hchecked⟩ :=
    (copies_touch_what_was_checked (fun _ _ _ _ => rfl) .here hrun).1 name node hmem
  cases hrecord
  exact hchecked

end Sample

end CyberGuard.Service.Copies
