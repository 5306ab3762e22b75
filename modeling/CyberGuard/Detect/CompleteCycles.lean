import CyberGuard.Detect.Coverage
import CyberGuard.Detect.Parents
import CyberGuard.Soar.Run

/-!
# Complete cycles over a table that stays as it is

One cycle after another, each with all its calls answered, and the playbooks that a cycle
starts, over the stores of both. No cycle changes the table of events.

A complete cycle leaves an alert for every match of the rows it read. Where these alerts are
there before it, it writes nothing but its cursor.
-/

namespace CyberGuard.Detect
set_option autoImplicit false
open List
open CyberGuard.Ingest.Heartbeat (StoredRow)
open StoreCalls OrderedRead

/-- The stores of detection, and `playbook_executions` with what the playbooks did. -/
@[ext] structure Deployment where
  store : Store
  soar : Soar.Store

structure SoarConfig where
  digests : Soar.Digests
  playbooks : List Soar.Playbook

/-- The call has the incident that was created; it has the agent besides. -/
def CalledFor (incident : UpsertIncidentResult) (call : Soar.Call) : Prop :=
  call.incident.incidentId = incident.incidentId ∧ call.incident.orgId = incident.orgId ∧
    call.incident.title = incident.title ∧ call.incident.severityId = incident.severityId ∧
    call.incident.detectionSource = "rule"

section Cycles
variable (H : Host) (D : Driver) (S : SoarConfig)

/-- What a command of a cycle does to the store of the playbooks: `runPlaybooks` is awaited to
its end, and no other call goes there. -/
def SoarStep (s s' : Soar.Store) : Pc → Prop
  | .runPlaybooks _ incident => ∃ i call, CalledFor incident call ∧
      Relation.ReflTransGen
        (fun a b => Called (Soar.calls S.digests) i a.1 a.2 b.1 b.2)
        (s, Soar.Pc.select call (Soar.sortPlaybooks S.playbooks)) (s', Soar.Pc.returned)
  | _ => s' = s

structure Command (input : Input) (d : Deployment) (pc : Pc) (d' : Deployment) (pc' : Pc) :
    Prop where
  admissible : admissible H D input d.store pc
  store : d'.store = effect D input d.store pc
  next : pc' = resume H D input d.store pc
  soar : SoarStep S d.soar d'.soar pc

def rowsRead (input : Input) : Pc → List StoredRow
  | .selectChildren _ => input.children
  | _ => []

inductive CycleRun : Deployment → Pc → List StoredRow → Deployment → Prop where
  | returned (d : Deployment) (result : DetectCycleResult) : CycleRun d (.returned result) [] d
  | command {d d' d'' : Deployment} {pc pc' : Pc} {read : List StoredRow} (input : Input) :
      Command H D S input d pc d' pc' → CycleRun d' pc' read d'' →
      CycleRun d pc (rowsRead input pc ++ read) d''

/-- Complete cycles one after the other, while the clock of ClickHouse goes on. -/
inductive Cycles : Deployment → List StoredRow → Deployment → Prop where
  | done (d : Deployment) : Cycles d [] d
  | cycle {d d' d'' : Deployment} {read read' : List StoredRow} :
      CycleRun H D S d .getCursor read d' → Cycles d' read' d'' → Cycles d (read ++ read') d''
  | tick {d d' : Deployment} {read : List StoredRow} {now : Int} : d.store.clock ≤ now →
      Cycles ⟨{ d.store with clock := now }, d.soar⟩ read d' → Cycles d read d'

end Cycles

section Runs
variable {H : Host} {D : Driver} {S : SoarConfig} {d d' : Deployment} {pc pc' : Pc}
  {read : List StoredRow} {input : Input}

theorem cgesEvents_effect (input : Input) (s : Store) (pc : Pc) :
    (effect D input s pc).cgesEvents = s.cgesEvents := by
  cases pc <;> rfl

theorem CycleRun.cgesEvents_eq (h : CycleRun H D S d pc read d') :
    d'.store.cgesEvents = d.store.cgesEvents := by
  induction h with
  | returned d result => rfl
  | command input hcommand _ ih => rw [ih, hcommand.store, cgesEvents_effect]

theorem not_cycleRun_rejected : ¬ CycleRun H D S d .rejected read d' := by
  intro h
  cases h with
  | command input hcommand _ => exact hcommand.admissible

theorem CycleRun.ne_rejected (h : CycleRun H D S d pc read d') : pc ≠ .rejected := by
  rintro rfl
  exact not_cycleRun_rejected h

theorem cycleRun_afterParents {children : List StoredRow} {launches : List LaunchRow}
    {terminates : List TerminateRow}
    (h : CycleRun H D S d (afterParents D.config children launches terminates) read d') :
    ∃ images last, children.getLast? = some last ∧
      resolveParents launches terminates children = some images ∧
      CycleRun H D S d (.evaluate (batchOf D.config children images last)) read d' := by
  unfold afterParents at h
  split at h
  · next last images hlast himages => exact ⟨images, last, hlast, himages, h⟩
  · exact absurd h not_cycleRun_rejected

structure BatchRead (H : Host) (D : Driver) (s : Store) (children : List StoredRow)
    (images : List (Option String)) (last : StoredRow) : Prop where
  read : ChildrenRead H D.config s.clock s.cgesEvents (getCursor s) batchLimit children
  ends : children.getLast? = some last
  parents : ParentsResolved D.config s.cgesEvents children (some images)

section children
variable {children : List StoredRow}

-- The children that the cycle has read when it comes to the reads for their parents.
variable (hread : ChildrenRead H D.config d.store.clock d.store.cgesEvents (getCursor d.store)
  batchLimit children)
include hread

theorem cycleRun_resolved {launches : List LaunchRow} {terminates : List TerminateRow}
    (hresolved : ParentsResolved D.config d.store.cgesEvents children
      (resolveParents launches terminates children))
    (h : CycleRun H D S d (afterParents D.config children launches terminates) read d') :
    ∃ images last, BatchRead H D d.store children images last ∧
      CycleRun H D S d (.evaluate (batchOf D.config children images last)) read d' := by
  obtain ⟨images, last, hlast, himages, hrun⟩ := cycleRun_afterParents h
  rw [himages] at hresolved
  exact ⟨images, last, ⟨hread, hlast, hresolved⟩, hrun⟩

theorem cycleRun_selectTerminates {span : Span} {launches : List LaunchRow}
    (hspan : spanOf children = some span)
    (hlaunches : LaunchesRead D.config d.store.cgesEvents span launches)
    (huids : candidateUids launches ≠ [])
    (h : CycleRun H D S d (.selectTerminates children span launches) read d') :
    ∃ images last, BatchRead H D d.store children images last ∧
      CycleRun H D S d (.evaluate (batchOf D.config children images last)) read d' := by
  cases h with
  | @command _ d₁ _ _ _ _ input hcommand hrest =>
    obtain ⟨hterminates, hstore, rfl, hsoar⟩ := hcommand
    obtain rfl : d₁ = d := Deployment.ext hstore hsoar
    exact cycleRun_resolved hread (.read hspan hlaunches huids hterminates) hrest

theorem cycleRun_selectLaunches {span : Span} (hspan : spanOf children = some span)
    (h : CycleRun H D S d (.selectLaunches children span) read d') :
    ∃ images last, BatchRead H D d.store children images last ∧
      CycleRun H D S d (.evaluate (batchOf D.config children images last)) read d' := by
  cases h with
  | @command _ d₁ _ _ _ _ input hcommand hrest =>
    obtain ⟨hlaunches, hstore, rfl, hsoar⟩ := hcommand
    obtain rfl : d₁ = d := Deployment.ext hstore hsoar
    rw [resume_selectLaunches] at hrest
    split at hrest
    · next huids => exact cycleRun_resolved hread (.noUid hspan hlaunches huids) hrest
    · next huids => exact cycleRun_selectTerminates hread hspan hlaunches huids hrest

end children

def Pc.reading : Pc → Bool
  | .getCursor | .selectChildren _ => true
  | _ => false

def Pc.todo : Pc → List Pair
  | .evaluate batch | .upsertAlert batch _ _ | .upserted batch _ _ | .upsertIncident batch _ _
  | .notify batch _ | .runPlaybooks batch _ => batch.work
  | _ => []

/-- What a cycle past its reads goes on with: it keeps the cursor of its batch until it stores it,
and a pair stays to be done, does not match, or has its match upserted next. -/
structure Proceeds (H : Host) (pc pc' : Pc) : Prop where
  reading : pc'.reading = false
  through : ∀ cursor, pc.through = some cursor → pc'.through = some cursor ∨
    ∃ batch, pc = .advanceCursor batch ∧ batch.processedThrough = cursor
  todo : ∀ pair ∈ pc.todo, pair ∈ pc'.todo ∨ evaluateRule H pair.2 pair.1 = none ∨
    ∃ batch rule m, pc' = .upsertAlert batch rule m ∧ evaluateRule H pair.2 pair.1 = some m

theorem Proceeds.same (hreading : pc'.reading = false) (hthrough : pc'.through = pc.through)
    (htodo : pc'.todo = pc.todo) : Proceeds H pc pc' := by
  refine ⟨hreading, ?_, ?_⟩
  · intro cursor hcursor
    exact Or.inl (hthrough.trans hcursor)
  · intro pair hpair
    rw [← htodo] at hpair
    exact Or.inl hpair

theorem Proceeds.idle (hreading : pc'.reading = false) (hthrough : pc.through = none)
    (htodo : pc.todo = []) : Proceeds H pc pc' := by
  refine ⟨hreading, ?_, ?_⟩
  · rw [hthrough]
    rintro _ ⟨⟩
  · rw [htodo]
    rintro _ ⟨⟩

theorem proceeds_afterParents {c : DetectConfig} {children : List StoredRow}
    {launches : List LaunchRow} {terminates : List TerminateRow} (hthrough : pc.through = none)
    (htodo : pc.todo = []) : Proceeds H pc (afterParents c children launches terminates) := by
  unfold afterParents
  split <;> exact .idle rfl hthrough htodo

theorem proceeds_afterNotify {batch : Batch} {incident : UpsertIncidentResult}
    (hthrough : some batch.processedThrough = pc.through) (htodo : batch.work = pc.todo) :
    Proceeds H pc (afterNotify D batch incident) := by
  unfold afterNotify
  split <;> exact .same rfl hthrough htodo

theorem proceeds_resume {s : Store} (h : pc.reading = false)
    (hgoes : resume H D input s pc ≠ .rejected) : Proceeds H pc (resume H D input s pc) := by
  cases pc with
  | getCursor => cases h
  | selectChildren cursor => cases h
  | selectLaunches children span =>
    rw [resume_selectLaunches]
    split
    · exact proceeds_afterParents rfl rfl
    · exact .idle rfl rfl rfl
  | selectTerminates children span launches => exact proceeds_afterParents rfl rfl
  | evaluate batch =>
    obtain ⟨work, through, total, written⟩ := batch
    cases work with
    | nil => exact .same rfl rfl rfl
    | cons first rest =>
      obtain ⟨event, rule⟩ := first
      rw [resume_evaluate_cons]
      cases hmatch : evaluateRule H rule event with
      | none =>
        refine ⟨rfl, fun _ hcursor => Or.inl hcursor, ?_⟩
        intro pair hpair
        rcases mem_cons.mp hpair with rfl | hrest
        · exact Or.inr (Or.inl hmatch)
        · exact Or.inl hrest
      | some m =>
        refine ⟨rfl, fun _ hcursor => Or.inl hcursor, ?_⟩
        intro pair hpair
        rcases mem_cons.mp hpair with rfl | hrest
        · exact Or.inr (Or.inr ⟨_, rule, m, rfl, hmatch⟩)
        · exact Or.inl hrest
  | upserted batch m alertId => cases alertId <;> exact .same rfl rfl rfl
  | upsertIncident batch m alertId =>
    simp only [resume] at hgoes ⊢
    cases hexcluded : excludedRow D input.id alertId m with
    | none =>
      rw [hexcluded] at hgoes
      exact absurd rfl hgoes
    | some excluded =>
      rw [afterUpsert, afterIncident]
      split
      · exact .same rfl rfl rfl
      · exact proceeds_afterNotify rfl rfl
  | notify batch incident => exact proceeds_afterNotify rfl rfl
  | upsertAlert | runPlaybooks => exact .same rfl rfl rfl
  | advanceCursor batch =>
    refine ⟨rfl, fun _ hcursor => Or.inr ⟨batch, rfl, Option.some.inj hcursor⟩, ?_⟩
    rintro _ ⟨⟩
  | returned result => exact .idle rfl rfl rfl
  | rejected => exact absurd rfl hgoes

theorem CycleRun.read_eq_nil (h : CycleRun H D S d pc read d') (hpc : pc.reading = false) :
    read = [] := by
  induction h with
  | returned d result => rfl
  | @command d₁ _ _ pc₁ _ _ input hcommand hrest ih =>
    have hgoes := hrest.ne_rejected
    rw [hcommand.next] at hgoes ih
    rw [ih (proceeds_resume hpc hgoes).reading, append_nil]
    cases pc₁ with
    | selectChildren cursor => cases hpc
    | _ => rfl

theorem cycleRun_selectChildren
    (h : CycleRun H D S d (.selectChildren (getCursor d.store)) read d') :
    (read = [] ∧ d' = d) ∨ ∃ images last, BatchRead H D d.store read images last ∧
      CycleRun H D S d (.evaluate (batchOf D.config read images last)) [] d' := by
  cases h with
  | @command _ d₁ _ _ _ rest input hcommand hrest =>
    obtain ⟨hread, hstore, rfl, hsoar⟩ := hcommand
    obtain rfl : d₁ = d := Deployment.ext hstore hsoar
    rw [resume_selectChildren] at hrest
    cases hlast : input.children.getLast? with
    | none =>
      rw [hlast] at hrest
      cases hrest with
      | returned =>
        refine Or.inl ⟨?_, rfl⟩
        rw [append_nil]
        exact List.getLast?_eq_none_iff.mp hlast
      | command input hcommand _ => exact hcommand.admissible.elim
    | some last =>
      refine Or.inr ?_
      rw [hlast] at hrest
      have hbatch : ∃ images last, BatchRead H D d₁.store input.children images last ∧
          CycleRun H D S d₁ (.evaluate (batchOf D.config input.children images last)) rest d' := by
        cases hspan : spanOf input.children with
        | none =>
          rw [hspan] at hrest
          exact ⟨_, last, ⟨hread, hlast, .noParent hspan⟩, hrest⟩
        | some span =>
          rw [hspan] at hrest
          exact cycleRun_selectLaunches hread hspan hrest
      obtain ⟨images, last, hbatch, hrun⟩ := hbatch
      obtain rfl := hrun.read_eq_nil rfl
      refine ⟨images, last, ?_, ?_⟩
      · rw [append_nil]
        exact hbatch
      · rw [append_nil]
        exact hrun

theorem cycleRun_cases (h : CycleRun H D S d .getCursor read d') :
    (read = [] ∧ d' = d) ∨ ∃ images last, BatchRead H D d.store read images last ∧
      CycleRun H D S d (.evaluate (batchOf D.config read images last)) [] d' := by
  cases h with
  | @command _ d₁ _ _ _ _ input hcommand hrest =>
    obtain ⟨_, hstore, rfl, hsoar⟩ := hcommand
    obtain rfl : d₁ = d := Deployment.ext hstore hsoar
    exact cycleRun_selectChildren hrest

variable {s : Store} {batch : Batch} {m : RuleMatch}

theorem CycleRun.alerts_subset (h : CycleRun H D S d pc read d') :
    d.store.alerts ⊆ d'.store.alerts := by
  induction h with
  | returned d result => exact fun _ halert => halert
  | @command d₁ d₂ _ pc₁ _ _ input hcommand _ ih =>
    intro alert halert
    apply ih
    rw [hcommand.store]
    exact alerts_effect input d₁.store pc₁ halert

theorem CycleRun.recorded_upsertAlert {rule : SigmaRule}
    (h : CycleRun H D S d (.upsertAlert batch rule m) read d') : Recorded d'.store m := by
  cases h with
  | command input hcommand hrest =>
    have hrecorded := recorded_resume hcommand.admissible rfl
    rw [← hcommand.store] at hrecorded
    exact hrecorded.mono hrest.alerts_subset

theorem CycleRun.recorded_todo (h : CycleRun H D S d pc read d') {pair : Pair}
    (hreading : pc.reading = false) (hpair : pair ∈ pc.todo)
    (hmatch : evaluateRule H pair.2 pair.1 = some m) : Recorded d'.store m := by
  induction h with
  | returned d result => cases hpair
  | @command d₁ d₂ _ pc₁ _ _ input hcommand hrest ih =>
    obtain ⟨_, _, rfl, _⟩ := hcommand
    have hproceeds := proceeds_resume hreading hrest.ne_rejected
    rcases hproceeds.todo pair hpair with hstays | hnone | ⟨batch, rule, m', hnext, hmatch'⟩
    · exact ih hproceeds.reading hstays
    · rw [hmatch] at hnone
      cases hnone
    · rw [hmatch] at hmatch'
      obtain rfl := Option.some.inj hmatch'
      rw [hnext] at hrest
      exact hrest.recorded_upsertAlert

/-- Nothing that a finding is written to is changed, nobody is notified and no playbook is
started. -/
structure Untouched (d d' : Deployment) : Prop where
  alerts : d'.store.alerts = d.store.alerts
  incidents : d'.store.incidents = d.store.incidents
  notified : d'.store.notified = d.store.notified
  playbooks : d'.store.playbooks = d.store.playbooks
  soar : d'.soar = d.soar

theorem Untouched.refl (d : Deployment) : Untouched d d := ⟨rfl, rfl, rfl, rfl, rfl⟩

theorem Untouched.trans {d'' : Deployment} (h : Untouched d d') (h' : Untouched d' d'') :
    Untouched d d'' :=
  ⟨h'.alerts.trans h.alerts, h'.incidents.trans h.incidents, h'.notified.trans h.notified,
    h'.playbooks.trans h.playbooks, h'.soar.trans h.soar⟩

theorem Untouched.recorded (h : Untouched d d') (hm : Recorded d.store m) :
    Recorded d'.store m := by
  apply hm.mono
  rw [h.alerts]
  exact fun _ halert => halert

def AllRecorded (H : Host) (s : Store) (work : List Pair) : Prop :=
  ∀ pair ∈ work, ∀ m, evaluateRule H pair.2 pair.1 = some m → Recorded s m

theorem Untouched.allRecorded {work : List Pair} (h : Untouched d d')
    (hwork : AllRecorded H d.store work) : AllRecorded H d'.store work :=
  fun pair hpair m hm => h.recorded (hwork pair hpair m hm)

/-- Where a cycle is that finds the alerts of its matches. -/
def Quiet (H : Host) (s : Store) : Pc → Prop
  | .evaluate batch => AllRecorded H s batch.work
  | .upsertAlert batch _ m => Recorded s m ∧ AllRecorded H s batch.work
  | .upserted batch _ alertId => alertId = none ∧ AllRecorded H s batch.work
  | .advanceCursor _ | .returned _ => True
  | _ => False

theorem newAlert_of_recorded (h : Recorded s m) (id : String) (rule : SigmaRule) :
    newAlert D.config s.alerts id rule m = none := by
  obtain ⟨alert, halert, hkey⟩ := h
  obtain ⟨seconds, hseconds, hsame⟩ := Option.map_eq_some_iff.mp hkey
  rw [newAlert, hseconds]
  apply if_pos
  exact any_eq_true.mpr ⟨alert, halert, decide_eq_true hsame.symm⟩

theorem Command.untouched (h : Command H D S input d pc d' pc') (hquiet : Quiet H d.store pc) :
    Untouched d d' := by
  have hwrites (hsoar : d'.soar = d.soar) :
      d' = ⟨effect D input d.store pc, d.soar⟩ := Deployment.ext h.store hsoar
  cases pc with
  | evaluate | upserted | advanceCursor =>
    rw [hwrites h.soar]
    exact ⟨rfl, rfl, rfl, rfl, rfl⟩
  | upsertAlert batch rule m =>
    have hsame : effect D input d.store (.upsertAlert batch rule m) = d.store := by
      rw [effect, insertAlert, newAlert_of_recorded hquiet.1, Option.toList_none, append_nil]
    rw [hwrites h.soar, hsame]
    exact ⟨rfl, rfl, rfl, rfl, rfl⟩
  | returned result => exact h.admissible.elim
  | _ => exact hquiet.elim

theorem Quiet.resume (hquiet : Quiet H s pc) : Quiet H s (resume H D input s pc) := by
  cases pc with
  | evaluate batch =>
    obtain ⟨work, through, total, written⟩ := batch
    cases work with
    | nil => trivial
    | cons first rest =>
      obtain ⟨event, rule⟩ := first
      have hrest : AllRecorded H s rest :=
        fun pair hpair => hquiet pair (mem_cons_of_mem _ hpair)
      rw [resume_evaluate_cons]
      cases hmatch : evaluateRule H rule event with
      | none => exact hrest
      | some m => exact ⟨hquiet (event, rule) mem_cons_self m hmatch, hrest⟩
  | upsertAlert batch rule m =>
    refine ⟨?_, hquiet.2⟩
    rw [newAlert_of_recorded hquiet.1, Option.map_none]
  | upserted batch m alertId =>
    obtain ⟨rfl, hwork⟩ := hquiet
    exact hwork
  | advanceCursor | returned => trivial
  | _ => exact hquiet.elim

theorem Untouched.quiet (h : Untouched d d') (hquiet : Quiet H d.store pc) :
    Quiet H d'.store pc := by
  cases pc with
  | evaluate batch => exact h.allRecorded hquiet
  | upsertAlert batch rule m => exact ⟨h.recorded hquiet.1, h.allRecorded hquiet.2⟩
  | upserted batch m alertId => exact ⟨hquiet.1, h.allRecorded hquiet.2⟩
  | advanceCursor | returned => trivial
  | _ => exact hquiet.elim

theorem CycleRun.untouched (h : CycleRun H D S d pc read d') (hquiet : Quiet H d.store pc) :
    Untouched d d' := by
  induction h with
  | returned d result => exact Untouched.refl d
  | command input hcommand _ ih =>
    have huntouched := hcommand.untouched hquiet
    refine huntouched.trans (ih ?_)
    rw [hcommand.next]
    exact huntouched.quiet hquiet.resume

section Table
variable {nanos : StoredRow → Int}

/-- The rows a read for children sees are as ClickHouse prints them, no process in the table ends
before it starts, and the Launches of a pid on an agent are at different times. -/
structure TableLived (nanos : StoredRow → Int) (c : DetectConfig) (rows : List StoredRow) :
    Prop where
  typed : ∀ r ∈ rows, Observed c r → Typed nanos r
  lived : Lived nanos (processEvents c rows)

/-- The matches of a row with its parent in the table have their alerts. -/
def Handled (H : Host) (c : DetectConfig) (nanos : StoredRow → Int) (s : Store) (r : StoredRow) :
    Prop :=
  AllRecorded H s
    (c.rules.map fun rule => (normalize r (parentOf nanos (processEvents c s.cgesEvents) r), rule))

/-- What a batch has to do is the same whatever rows are beside each other in it. -/
theorem BatchRead.work_eq {s : Store} {images : List (Option String)} {last : StoredRow}
    (h : BatchRead H D s read images last) (htable : TableLived nanos D.config s.cgesEvents) :
    (batchOf D.config read images last).work = read.flatMap fun r =>
      D.config.rules.map fun rule =>
        (normalize r (parentOf nanos (processEvents D.config s.cgesEvents) r), rule) := by
  have htyped : ∀ r ∈ read, Typed nanos r := by
    intro r hr
    obtain ⟨hmem, hforward⟩ := mem_filter.mp (Answers.mem h.read hr)
    exact htable.typed r hmem (of_decide_eq_true hforward).1
  have himages := Option.some.inj (parentsResolved_eq htable.lived htyped h.parents)
  have hzip := zip_map' (l := read) (f := id)
    (g := parentOf nanos (processEvents D.config s.cgesEvents))
  rw [map_id] at hzip
  rw [batchOf, himages]
  change (read.zip (read.map _)).flatMap _ = _
  rw [hzip, flatMap_map]
  rfl

theorem CycleRun.handled (h : CycleRun H D S d .getCursor read d')
    (htable : TableLived nanos D.config d.store.cgesEvents) :
    ∀ r ∈ read, Handled H D.config nanos d'.store r := by
  intro r hr pair hpair m hmatch
  rcases cycleRun_cases h with ⟨rfl, _⟩ | ⟨images, last, hbatch, hrun⟩
  · cases hr
  · apply hrun.recorded_todo rfl _ hmatch
    change pair ∈ (batchOf D.config read images last).work
    rw [hbatch.work_eq htable]
    rw [h.cgesEvents_eq] at hpair
    exact mem_flatMap.mpr ⟨r, hr, hpair⟩

theorem CycleRun.untouched_of_handled (h : CycleRun H D S d .getCursor read d')
    (htable : TableLived nanos D.config d.store.cgesEvents)
    (hread : ∀ r ∈ read, Handled H D.config nanos d.store r) : Untouched d d' := by
  rcases cycleRun_cases h with ⟨_, rfl⟩ | ⟨images, last, hbatch, hrun⟩
  · exact Untouched.refl d'
  · apply hrun.untouched
    intro pair hpair m hmatch
    rw [hbatch.work_eq htable] at hpair
    obtain ⟨r, hr, hpair⟩ := mem_flatMap.mp hpair
    exact hread r hr pair hpair m hmatch

theorem Handled.mono {s s' : Store} {r : StoredRow} {c : DetectConfig}
    (h : Handled H c nanos s r) (halerts : s.alerts ⊆ s'.alerts)
    (hrows : s'.cgesEvents = s.cgesEvents) : Handled H c nanos s' r := by
  intro pair hpair m hmatch
  rw [hrows] at hpair
  exact (h pair hpair m hmatch).mono halerts

theorem Cycles.cgesEvents_eq (h : Cycles H D S d read d') :
    d'.store.cgesEvents = d.store.cgesEvents := by
  induction h with
  | done d => rfl
  | cycle hcycle _ ih => rw [ih, hcycle.cgesEvents_eq]
  | tick _ _ ih => exact ih

theorem Cycles.alerts_subset (h : Cycles H D S d read d') :
    d.store.alerts ⊆ d'.store.alerts := by
  induction h with
  | done d => exact fun _ halert => halert
  | cycle hcycle _ ih => exact fun _ halert => ih (hcycle.alerts_subset halert)
  | tick _ _ ih => exact ih

theorem Cycles.handled (h : Cycles H D S d read d')
    (htable : TableLived nanos D.config d.store.cgesEvents) :
    ∀ r ∈ read, Handled H D.config nanos d'.store r := by
  induction h with
  | done d =>
    intro r hr
    cases hr
  | cycle hcycle hrest ih =>
    rw [← hcycle.cgesEvents_eq] at htable
    intro r hr
    rcases mem_append.mp hr with hfirst | hlater
    · rw [hcycle.cgesEvents_eq] at htable
      exact (hcycle.handled htable r hfirst).mono hrest.alerts_subset hrest.cgesEvents_eq
    · exact ih htable r hlater
  | tick _ _ ih => exact ih htable

/-- Complete cycles over rows that are handled change nothing. -/
theorem Cycles.untouched_of_handled (h : Cycles H D S d read d')
    (htable : TableLived nanos D.config d.store.cgesEvents)
    (hread : ∀ r ∈ read, Handled H D.config nanos d.store r) : Untouched d d' := by
  induction h with
  | done d => exact Untouched.refl d
  | @cycle d₁ d₂ _ first later hcycle _ ih =>
    have hfirst : ∀ r ∈ first, Handled H D.config nanos d₁.store r :=
      fun r hr => hread r (mem_append_left _ hr)
    have hquiet := hcycle.untouched_of_handled htable hfirst
    have hrows := hcycle.cgesEvents_eq
    refine hquiet.trans (ih ?_ ?_)
    · rw [hrows]
      exact htable
    · intro r hr
      apply (hread r (mem_append_right _ hr)).mono _ hrows
      rw [hquiet.alerts]
      exact fun _ halert => halert
  | tick _ _ ih =>
    obtain ⟨halerts, hincidents, hnotified, hplaybooks, hsoar⟩ := ih htable hread
    exact ⟨halerts, hincidents, hnotified, hplaybooks, hsoar⟩

end Table

theorem clock_effect (input : Input) (s : Store) (pc : Pc) :
    (effect D input s pc).clock = s.clock := by
  cases pc <;> rfl

theorem CycleRun.clock_eq (h : CycleRun H D S d pc read d') : d'.store.clock = d.store.clock := by
  induction h with
  | returned d result => rfl
  | command input hcommand _ ih => rw [ih, hcommand.store, clock_effect]

theorem CycleRun.call (d : Deployment) (pc : Pc) (input : Input)
    (hadmissible : admissible H D input d.store pc) (hsoar : SoarStep S d.soar d.soar pc)
    (hrest : CycleRun H D S ⟨effect D input d.store pc, d.soar⟩ (resume H D input d.store pc)
      read d') : CycleRun H D S d pc (rowsRead input pc ++ read) d' := by
  have hcommand : Command H D S input d pc ⟨effect D input d.store pc, d.soar⟩
      (resume H D input d.store pc) := ⟨hadmissible, rfl, rfl, hsoar⟩
  exact .command input hcommand hrest

/-- The reads of a batch lead to its evaluation. They write nothing, so every step is from the
same stores. -/
theorem cycleRun_of_batch {images : List (Option String)} {last : StoredRow}
    (h : BatchRead H D d.store read images last)
    (hrun : CycleRun H D S d (.evaluate (batchOf D.config read images last)) [] d') :
    CycleRun H D S d .getCursor read d' := by
  obtain ⟨hread, hlast, hparents⟩ := h
  have hafter (launches : List LaunchRow) (terminates : List TerminateRow)
      (himages : some images = resolveParents launches terminates read) :
      CycleRun H D S d (afterParents D.config read launches terminates) [] d' := by
    rw [afterParents, hlast, ← himages]
    exact hrun
  have hbatch : CycleRun H D S d
      (resume H D { children := read } d.store (.selectChildren (getCursor d.store))) [] d' := by
    rw [resume_selectChildren]
    simp only [hlast]
    generalize himages : some images = result at hparents
    cases hparents with
    | noParent hspan =>
      obtain rfl := Option.some.inj himages
      rw [hspan]
      exact hrun
    | @noUid span launches hspan hlaunches huids =>
      rw [hspan]
      apply CycleRun.call d (.selectLaunches read span) { launches := launches } hlaunches rfl
      rw [resume_selectLaunches, if_pos huids]
      exact hafter launches [] himages
    | @read span launches terminates hspan hlaunches huids hterminates =>
      rw [hspan]
      apply CycleRun.call d (.selectLaunches read span) { launches := launches } hlaunches rfl
      rw [resume_selectLaunches, if_neg huids]
      apply CycleRun.call d (.selectTerminates read span launches) { terminates := terminates }
        hterminates rfl
      exact hafter launches terminates himages
  have hchildren := CycleRun.call d (.selectChildren (getCursor d.store)) { children := read } hread
    rfl hbatch
  rw [append_nil] at hchildren
  exact CycleRun.call d .getCursor {} trivial rfl hchildren

theorem exists_fresh (ids : List String) : ∃ id, id ∉ ids := by
  have hinjective : Function.Injective sampleId := by
    intro k j hsame
    have hrank := congrArg sampleHost.uuidRank hsame
    rwa [rank_sampleId, rank_sampleId] at hrank
  have := Infinite.of_injective sampleId hinjective
  obtain ⟨id, hid⟩ := Infinite.exists_notMem_finset ids.toFinset
  exact ⟨id, fun hmem => hid (mem_toFinset.mpr hmem)⟩

theorem exists_upsertIncident (hnotify : D.notify = false) (hsoar : D.soar = false)
    (htime : (eventUnixSeconds m.sourceEvent.time).isSome) (alertId : String) (d : Deployment)
    (hrest : ∀ d : Deployment, ∃ d', CycleRun H D S d (.evaluate batch) [] d') :
    ∃ d', CycleRun H D S d (.upsertIncident batch m alertId) [] d' := by
  obtain ⟨id, hid⟩ := exists_fresh (d.store.incidents.map (·.incidentId))
  have hfresh : ∀ incident ∈ d.store.incidents, incident.incidentId ≠ id := by
    rintro incident hincident rfl
    exact hid (mem_map_of_mem hincident)
  obtain ⟨seconds, hseconds⟩ := Option.isSome_iff_exists.mp htime
  have hnext : resume H D { id := id } d.store (.upsertIncident batch m alertId) =
      .evaluate batch := by
    change afterUpsert D batch d.store.incidents (excludedRow D id alertId m) = .evaluate batch
    rw [excludedRow, hseconds, Option.map_some, afterUpsert, afterIncident, afterNotify, hnotify,
      hsoar]
    rfl
  obtain ⟨d', hrun⟩ := hrest
    ⟨effect D { id := id } d.store (.upsertIncident batch m alertId), d.soar⟩
  rw [← hnext] at hrun
  exact ⟨d', CycleRun.call d (.upsertIncident batch m alertId) { id := id } ⟨htime, hfresh⟩ rfl hrun⟩

/-- Without the two carriers, a cycle that can complete after a match can complete. -/
theorem exists_upsertAlert (hnotify : D.notify = false) (hsoar : D.soar = false)
    (htime : (eventUnixSeconds m.sourceEvent.time).isSome) (rule : SigmaRule) (d : Deployment)
    (hrest : ∀ (d : Deployment) (written : Nat), ∃ d',
      CycleRun H D S d (.evaluate { batch with alertsWritten := written }) [] d') :
    ∃ d', CycleRun H D S d (.upsertAlert batch rule m) [] d' := by
  obtain ⟨id, hid⟩ := exists_fresh (d.store.alerts.map (·.alertId))
  have hfresh : ∀ alert ∈ d.store.alerts, alert.alertId ≠ id := by
    rintro alert halert rfl
    exact hid (mem_map_of_mem halert)
  suffices h : ∀ (alertId : Option String) (d : Deployment),
      ∃ d', CycleRun H D S d (.upserted batch m alertId) [] d' by
    obtain ⟨d', hrun⟩ := h ((newAlert D.config d.store.alerts id rule m).map (·.alertId))
      ⟨effect D { id := id } d.store (.upsertAlert batch rule m), d.soar⟩
    exact ⟨d', CycleRun.call d (.upsertAlert batch rule m) { id := id } ⟨htime, hfresh⟩ rfl hrun⟩
  intro alertId d
  cases alertId with
  | none =>
    obtain ⟨d', hrun⟩ := hrest ⟨effect D {} d.store (.upserted batch m none), d.soar⟩
      batch.alertsWritten
    exact ⟨d', CycleRun.call d (.upserted batch m none) {} trivial rfl hrun⟩
  | some alertId =>
    obtain ⟨d', hrun⟩ := exists_upsertIncident hnotify hsoar htime alertId
      ⟨effect D {} d.store (.upserted batch m (some alertId)), d.soar⟩
      fun d => hrest d (batch.alertsWritten + 1)
    exact ⟨d', CycleRun.call d (.upserted batch m (some alertId)) {} trivial rfl hrun⟩

/-- Without its two carriers, a cycle with a batch whose times parse can complete. -/
theorem exists_cycleRun (hnotify : D.notify = false) (hsoar : D.soar = false) (work : List Pair)
    (htimes : ∀ pair ∈ work, (eventUnixSeconds pair.1.time).isSome) (d : Deployment)
    (through : DetectCursor) (total written : Nat) :
    ∃ d', CycleRun H D S d (.evaluate ⟨work, through, total, written⟩) [] d' := by
  induction work generalizing d written with
  | nil =>
    have hend := CycleRun.returned (H := H) (D := D) (S := S)
      ⟨{ d.store with evaluated := d.store.evaluated ++ [], watermark := some through }, d.soar⟩
      ⟨some through, total, written⟩
    exact ⟨_, CycleRun.call d (.evaluate ⟨[], through, total, written⟩) {} trivial rfl
      (CycleRun.call _ (.advanceCursor ⟨[], through, total, written⟩) {} trivial rfl hend)⟩
  | cons first rest ih =>
    obtain ⟨event, rule⟩ := first
    have hrest := ih fun pair hpair => htimes pair (mem_cons_of_mem _ hpair)
    let pc : Pc := .evaluate ⟨(event, rule) :: rest, through, total, written⟩
    suffices h : ∃ d', CycleRun H D S ⟨effect D {} d.store pc, d.soar⟩
        (resume H D {} d.store pc) [] d' by
      obtain ⟨d', hrun⟩ := h
      exact ⟨d', CycleRun.call d pc {} trivial rfl hrun⟩
    cases hmatch : evaluateRule H rule event with
    | none =>
      have hnext : resume H D {} d.store pc = .evaluate ⟨rest, through, total, written⟩ := by
        simp only [pc, resume, hmatch]
      rw [hnext]
      exact hrest _ _
    | some m =>
      have hnext : resume H D {} d.store pc =
          .upsertAlert ⟨rest, through, total, written⟩ rule m := by
        simp only [pc, resume, hmatch]
      rw [hnext]
      have hsource : m.sourceEvent = event := by rw [eq_of_evaluateRule hmatch]
      have htime : (eventUnixSeconds m.sourceEvent.time).isSome := by
        rw [hsource]
        exact htimes (event, rule) mem_cons_self
      exact exists_upsertAlert hnotify hsoar htime rule _ hrest

theorem exists_cycle (hnotify : D.notify = false) (hsoar : D.soar = false)
    {images : List (Option String)} {last : StoredRow}
    (h : BatchRead H D d.store read images last)
    (htimes : ∀ r ∈ read, (eventUnixSeconds r.row.time).isSome) :
    ∃ d', CycleRun H D S d .getCursor read d' ∧
      CycleRun H D S d (.evaluate (batchOf D.config read images last)) [] d' := by
  have hwork : ∀ pair ∈ (batchOf D.config read images last).work,
      (eventUnixSeconds pair.1.time).isSome := by
    intro pair hpair
    obtain ⟨⟨r, image⟩, hr, hpair⟩ := mem_flatMap.mp hpair
    obtain ⟨rule, _, rfl⟩ := mem_map.mp hpair
    exact htimes r (of_mem_zip hr).1
  obtain ⟨d', hrun⟩ := exists_cycleRun hnotify hsoar _ hwork d (rowCursor last) read.length 0
  exact ⟨d', cycleRun_of_batch h hrun, hrun⟩

end Runs

end CyberGuard.Detect
