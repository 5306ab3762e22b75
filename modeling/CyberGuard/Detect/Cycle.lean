import CyberGuard.Shared.Interleaving
import CyberGuard.Detect.Alerts

/-!
# The detection cycle

`runDetectionCycle` as a thread: one program counter for each `await`, and one for
the loop between two of them. Any call may fail, after its effect or without it, and
takes the cycle with it: nothing in the cycle catches. A process that dies at an
`await` is the same to the stores.

`arrivals`, `evaluated`, `upserted`, `notified` and `playbooks` only record what
happened; no code reads them.
-/

namespace CyberGuard.Detect
set_option autoImplicit false
open List
open CyberGuard.Ingest.Heartbeat (StoredRow)
open Interleaving StoreCalls ReplacingTable

def batchLimit : Nat := 1000

/-- The arguments of a cycle; `notify` and `soar` say whether the two carriers are there. -/
structure Driver where
  config : DetectConfig
  notify : Bool
  soar : Bool

structure DetectCycleResult where
  processedThrough : Option DetectCursor
  eventsEvaluated : Nat
  alertsWritten : Nat
  deriving DecidableEq, Repr

/-- The rows of `cges_events` that a read sees, the org's row of `detect_watermark`, and the two
tables of findings. -/
structure Store where
  clock : Int
  cgesEvents : List StoredRow
  watermark : Option DetectCursor
  alerts : List AlertRow
  incidents : List IncidentRow
  arrivals : List StoredRow
  evaluated : List (NormalizedProcessEvent × SigmaRule)
  upserted : List RuleMatch
  notified : List String
  playbooks : List String

/-- A batch in work: the pairs the two loops have still to come to. -/
structure Batch where
  work : List (NormalizedProcessEvent × SigmaRule)
  processedThrough : DetectCursor
  eventsEvaluated : Nat
  alertsWritten : Nat

inductive Pc where
  | getCursor
  | selectChildren (cursor : DetectCursor)
  | selectLaunches (children : List StoredRow) (span : Span)
  | selectTerminates (children : List StoredRow) (span : Span) (launches : List LaunchRow)
  | evaluate (batch : Batch)
  | upsertAlert (batch : Batch) (rule : SigmaRule) (m : RuleMatch)
  /-- The call has returned. -/
  | upserted (batch : Batch) (m : RuleMatch) (alertId : Option String)
  | upsertIncident (batch : Batch) (m : RuleMatch) (alertId : String)
  | notify (batch : Batch) (incident : UpsertIncidentResult)
  | runPlaybooks (batch : Batch) (incident : UpsertIncidentResult)
  | advanceCursor (batch : Batch)
  | returned (result : DetectCycleResult)
  | rejected

/-- What a call takes from outside: the answers of ClickHouse and a fresh UUID. -/
structure Input where
  children : List StoredRow := []
  launches : List LaunchRow := []
  terminates : List TerminateRow := []
  id : String := ""

def getCursor (s : Store) : DetectCursor := s.watermark.getD cursorStart

def batchOf (c : DetectConfig) (children : List StoredRow) (images : List (Option String))
    (last : StoredRow) : Batch where
  work := (children.zip images).flatMap fun child =>
    c.rules.map fun rule => (normalize child.1 child.2, rule)
  processedThrough := rowCursor last
  eventsEvaluated := children.length
  alertsWritten := 0

def afterParents (c : DetectConfig) (children : List StoredRow) (launches : List LaunchRow)
    (terminates : List TerminateRow) : Pc :=
  match children.getLast?, resolveParents launches terminates children with
  | some last, some images => .evaluate (batchOf c children images last)
  | _, _ => .rejected

section Cycle
variable (H : Host) (D : Driver)

/-- What the upsert of an incident writes; `none` where the time does not parse. -/
def excludedRow (id alertId : String) (m : RuleMatch) : Option IncidentRow :=
  (eventUnixSeconds m.sourceEvent.time).map
    (incidentRow id (groupingInput D.config alertId m))

def writeIncident (incidents : List IncidentRow) : Option IncidentRow → List IncidentRow
  | none => incidents
  | some excluded => upsertRow excluded incidents

def afterNotify (batch : Batch) (incident : UpsertIncidentResult) : Pc :=
  if D.soar && incident.created then .runPlaybooks batch incident else .evaluate batch

def afterIncident (batch : Batch) (incident : UpsertIncidentResult) : Pc :=
  if D.notify && incident.created then .notify batch incident else afterNotify D batch incident

def afterUpsert (batch : Batch) (incidents : List IncidentRow) : Option IncidentRow → Pc
  | none => .rejected
  | some excluded => afterIncident D batch (upsertResult incidents excluded)

def resume (input : Input) (s : Store) : Pc → Pc
  | .getCursor => .selectChildren (getCursor s)
  | .selectChildren _ =>
    match input.children.getLast? with
    | none => .returned ⟨none, 0, 0⟩
    | some last =>
      match spanOf input.children with
      | none => .evaluate
          (batchOf D.config input.children (input.children.map fun _ => none) last)
      | some span => .selectLaunches input.children span
  | .selectLaunches children span =>
    if candidateUids input.launches = [] then afterParents D.config children input.launches []
    else .selectTerminates children span input.launches
  | .selectTerminates children _ launches =>
    afterParents D.config children launches input.terminates
  | .evaluate batch =>
    match batch.work with
    | [] => .advanceCursor batch
    | (event, rule) :: rest =>
      match evaluateRule H rule event with
      | none => .evaluate { batch with work := rest }
      | some m => .upsertAlert { batch with work := rest } rule m
  | .upsertAlert batch rule m =>
    .upserted batch m ((newAlert D.config s.alerts input.id rule m).map (·.alertId))
  | .upserted batch _ none => .evaluate batch
  | .upserted batch m (some alertId) =>
    .upsertIncident { batch with alertsWritten := batch.alertsWritten + 1 } m alertId
  | .upsertIncident batch m alertId =>
    afterUpsert D batch s.incidents (excludedRow D input.id alertId m)
  | .notify batch incident => afterNotify D batch incident
  | .runPlaybooks batch _ => .evaluate batch
  | .advanceCursor batch =>
    .returned ⟨some batch.processedThrough, batch.eventsEvaluated, batch.alertsWritten⟩
  | .returned result => .returned result
  | .rejected => .rejected

def effect (input : Input) (s : Store) : Pc → Store
  | .evaluate batch => { s with evaluated := s.evaluated ++ batch.work.head?.toList }
  | .upsertAlert _ rule m =>
    { s with alerts := insertAlert D.config s.alerts input.id rule m }
  | .upserted _ m _ => { s with upserted := s.upserted ++ [m] }
  | .upsertIncident _ m alertId =>
    { s with incidents := writeIncident s.incidents (excludedRow D input.id alertId m) }
  | .notify _ incident => { s with notified := s.notified ++ [incident.incidentId] }
  | .runPlaybooks _ incident => { s with playbooks := s.playbooks ++ [incident.incidentId] }
  | .advanceCursor batch => { s with watermark := some batch.processedThrough }
  | _ => s

/-- What the stores may answer. An id that is in the table already makes the insert fail. -/
def admissible (input : Input) (s : Store) : Pc → Prop
  | .selectChildren cursor =>
    ChildrenRead H D.config s.clock s.cgesEvents cursor batchLimit input.children
  | .selectLaunches _ span => LaunchesRead D.config s.cgesEvents span input.launches
  | .selectTerminates _ span launches =>
    TerminatesRead D.config s.cgesEvents span launches input.terminates
  | .upsertAlert _ _ m =>
    (eventUnixSeconds m.sourceEvent.time).isSome ∧ ∀ alert ∈ s.alerts, alert.alertId ≠ input.id
  | .upsertIncident _ m _ =>
    (eventUnixSeconds m.sourceEvent.time).isSome ∧
      ∀ incident ∈ s.incidents, incident.incidentId ≠ input.id
  | .returned _ | .rejected => False
  | _ => True

/-- The program counters that wait for a store or a service. -/
def Pc.waits : Pc → Bool
  | .evaluate _ | .upserted _ _ _ | .returned _ | .rejected => false
  | _ => true

def calls : Calls Store Pc Input where
  effect := fun _ input s pc => effect D input s pc
  next := resume H D
  failed := fun _ pc => if pc.waits then some .rejected else none
  lost := fun _ pc => if pc.waits then some .rejected else none
  admissible := admissible H D

/-- What happens beside the cycles. A row is seen by reads while it is younger, by the clock that
gave it `arrived_at`, than the settle margin; people triage incidents. -/
inductive Environment : Store → Store → Prop where
  | tick {s : Store} {now : Int} : s.clock ≤ now → Environment s { s with clock := now }
  | appear {s : Store} {stored : StoredRow} : stored.arrivedAt ≤ s.clock →
      s.clock < stored.arrivedAt + D.config.settle →
      Environment s { s with
        cgesEvents := s.cgesEvents ++ [stored]
        arrivals := s.arrivals ++ [stored] }
  | merge {s : Store} {rows : List StoredRow} :
      Merged StoredRow.key StoredRow.arrivedAt s.cgesEvents rows →
      Environment s { s with cgesEvents := rows }
  | triage {s : Store} (status : IncidentRow → IncidentStatus)
      (assignedTo : IncidentRow → Option String) :
      Environment s { s with
        incidents := s.incidents.map fun incident =>
          { incident with status := status incident, assignedTo := assignedTo incident } }

/-- Any number of cycles of one org, each started at any time. -/
def detection : Program Store Pc where
  start := fun _ pc => pc = .getCursor
  act := Called (calls H D)
  env := Environment D

variable {H D}

theorem resume_selectChildren (input : Input) (s : Store) (cursor : DetectCursor) :
    resume H D input s (.selectChildren cursor) =
      match input.children.getLast? with
      | none => .returned ⟨none, 0, 0⟩
      | some last =>
        match spanOf input.children with
        | none => .evaluate
            (batchOf D.config input.children (input.children.map fun _ => none) last)
        | some span => .selectLaunches input.children span :=
  rfl

theorem resume_selectLaunches (input : Input) (s : Store) (children : List StoredRow)
    (span : Span) :
    resume H D input s (.selectLaunches children span) =
      if candidateUids input.launches = [] then afterParents D.config children input.launches []
      else .selectTerminates children span input.launches :=
  rfl

theorem resume_evaluate_cons (input : Input) (s : Store) (event : NormalizedProcessEvent)
    (rule : SigmaRule) (rest : List (NormalizedProcessEvent × SigmaRule)) (through : DetectCursor)
    (total written : Nat) :
    resume H D input s (.evaluate ⟨(event, rule) :: rest, through, total, written⟩) =
      match evaluateRule H rule event with
      | none => .evaluate ⟨rest, through, total, written⟩
      | some m => .upsertAlert ⟨rest, through, total, written⟩ rule m :=
  rfl

theorem act_spec {i : Nat} {s s' : Store} {pc pc' : Pc} (h : (detection H D).act i s pc s' pc') :
    (∃ input, admissible H D input s pc ∧ s' = effect D input s pc ∧
      pc' = resume H D input s pc) ∨
    (pc.waits = true ∧ pc' = .rejected ∧
      (s' = s ∨ ∃ input, admissible H D input s pc ∧ s' = effect D input s pc)) := by
  cases h with
  | answered hanswered =>
    cases hanswered with
    | intro input hadmissible => exact Or.inl ⟨input, hadmissible, rfl, rfl⟩
  | failed input hfailed =>
    obtain ⟨hwaits, hrejected⟩ := Option.ite_none_right_eq_some.mp hfailed
    exact Or.inr ⟨hwaits, (Option.some.inj hrejected).symm, Or.inl rfl⟩
  | lost input hadmissible hlost =>
    obtain ⟨hwaits, hrejected⟩ := Option.ite_none_right_eq_some.mp hlost
    exact Or.inr ⟨hwaits, (Option.some.inj hrejected).symm, Or.inr ⟨input, hadmissible, rfl⟩⟩

theorem step_answered (s : Store) (ts : List Pc) (pc : Pc) (input : Input)
    (h : admissible H D input s pc) :
    Step (detection H D) ⟨s, ts ++ [pc]⟩ ⟨effect D input s pc, ts ++ [resume H D input s pc]⟩ :=
  .last (.answered (.intro input h))

theorem step_failed (s : Store) (ts : List Pc) {pc : Pc} (h : pc.waits = true) :
    Step (detection H D) ⟨s, ts ++ [pc]⟩ ⟨s, ts ++ [.rejected]⟩ :=
  .last (.failed {} (if_pos h))

theorem run_to_evaluate {s : Store} (ts : List Pc) {children : List StoredRow} {last : StoredRow}
    (hread : ChildrenRead H D.config s.clock s.cgesEvents (getCursor s) batchLimit children)
    (hlast : children.getLast? = some last) (hspan : spanOf children = none) :
    Run (detection H D) ⟨s, ts⟩
      ⟨s, ts ++ [.evaluate (batchOf D.config children (children.map fun _ => none) last)]⟩ := by
  have hstart : Step (detection H D) ⟨s, ts⟩ ⟨s, ts ++ [.getCursor]⟩ := .spawn rfl
  have hcursor : Step (detection H D) ⟨s, ts ++ [.getCursor]⟩
      ⟨s, ts ++ [.selectChildren (getCursor s)]⟩ := step_answered s ts .getCursor {} trivial
  have hchildren := step_answered (H := H) (D := D) s ts (.selectChildren (getCursor s))
    { children := children } hread
  simp only [resume_selectChildren, hlast, hspan] at hchildren
  exact ((Relation.ReflTransGen.single hstart).tail hcursor).tail hchildren

theorem run_unmatched (ts : List Pc) (work : List (NormalizedProcessEvent × SigmaRule))
    (hnone : ∀ pair ∈ work, evaluateRule H pair.2 pair.1 = none) (s : Store)
    (through : DetectCursor) (total written : Nat) :
    Run (detection H D) ⟨s, ts ++ [.evaluate ⟨work, through, total, written⟩]⟩
      ⟨{ s with evaluated := s.evaluated ++ work, watermark := some through },
        ts ++ [.returned ⟨some through, total, written⟩]⟩ := by
  induction work generalizing s with
  | nil =>
    have hend := step_answered (H := H) (D := D) s ts (.evaluate ⟨[], through, total, written⟩)
      {} trivial
    have hadvance := step_answered (H := H) (D := D) { s with evaluated := s.evaluated ++ [] } ts
      (.advanceCursor ⟨[], through, total, written⟩) {} trivial
    exact (Relation.ReflTransGen.single hend).tail hadvance
  | cons first rest ih =>
    obtain ⟨event, rule⟩ := first
    have hfirst : evaluateRule H rule event = none := hnone (event, rule) mem_cons_self
    have hstep := step_answered (H := H) (D := D) s ts
      (.evaluate ⟨(event, rule) :: rest, through, total, written⟩) {} trivial
    simp only [resume_evaluate_cons, hfirst] at hstep
    have hrest := ih (fun pair hpair => hnone pair (mem_cons_of_mem _ hpair))
      { s with evaluated := s.evaluated ++ [(event, rule)] }
    simp only [append_assoc] at hrest
    exact .head hstep hrest

theorem run_matched (ts : List Pc) {event : NormalizedProcessEvent} {rule : SigmaRule}
    {m : RuleMatch} (hmatch : evaluateRule H rule event = some m)
    (rest : List (NormalizedProcessEvent × SigmaRule)) (s : Store) (through : DetectCursor)
    (total written : Nat) (id : String) (hid : ∀ alert ∈ s.alerts, alert.alertId ≠ id)
    (htime : (eventUnixSeconds m.sourceEvent.time).isSome) :
    Run (detection H D) ⟨s, ts ++ [.evaluate ⟨(event, rule) :: rest, through, total, written⟩]⟩
      ⟨{ s with
          evaluated := s.evaluated ++ [(event, rule)]
          alerts := insertAlert D.config s.alerts id rule m },
        ts ++ [.upserted ⟨rest, through, total, written⟩ m
          ((newAlert D.config s.alerts id rule m).map (·.alertId))]⟩ := by
  have hstep := step_answered (H := H) (D := D) s ts
    (.evaluate ⟨(event, rule) :: rest, through, total, written⟩) {} trivial
  simp only [resume_evaluate_cons, hmatch] at hstep
  have hupsert := step_answered (H := H) (D := D)
    { s with evaluated := s.evaluated ++ [(event, rule)] } ts
    (.upsertAlert ⟨rest, through, total, written⟩ rule m) { id := id } ⟨htime, hid⟩
  exact (Relation.ReflTransGen.single hstep).tail hupsert

end Cycle

/-- UUIDs that differ in the last group, by which the sample's order ranks them. -/
def sampleId (n : Nat) : String := "01970f6e-7c00-7000-8000-" ++ Ingest.padStart 12 n

def sampleHost : Host where
  uuidRank := fun text => (Ingest.bigInt (String.ofList (text.toList.drop 24))).getD 0
  toLowerCase := fun text => String.ofList (text.toList.map Char.toLower)

def sampleRule : SigmaRule where
  id := "rule.office_spawns_script_host"
  title := "Office spawns a script host"
  level := "high"
  logsourceCategory := "process_creation"
  blocks := [⟨"selection", [⟨.image, .endswith, ["\\powershell.exe"]⟩]⟩]
  condition := .ident "selection"
  heuristicScore := 9 / 10
  severityId := 4
  cgMitre := ⟨["execution"], ["T1059"]⟩

def sampleDriver : Driver := ⟨⟨"default", [sampleRule], none⟩, false, false⟩

def sampleLaunch (eventId : String) : StoredRow where
  row :=
    { agentId := sampleId 0, orgId := "default", eventId := eventId, classUid := 1007
      activityId := 1, processPid := 7, processUid := "", processName := "powershell.exe"
      imageFileName := "c:\\powershell.exe", time := "2026-05-28 19:47:10.000000100" }
  arrivedAt := 5000

def sampleStore (rows : List StoredRow) : Store where
  clock := 10000
  cgesEvents := rows
  watermark := none
  alerts := []
  incidents := []
  arrivals := rows
  evaluated := []
  upserted := []
  notified := []
  playbooks := []

def sampleMatch (event : NormalizedProcessEvent) : RuleMatch :=
  ⟨sampleRule.id, sampleRule.heuristicScore, sampleRule.severityId, sampleRule.cgMitre, event⟩

theorem sample_seconds (event : NormalizedProcessEvent)
    (h : event.time = "2026-05-28 19:47:10.000000100") :
    eventUnixSeconds (sampleMatch event).sourceEvent.time = some 1779997630 := by
  have htime : (sampleMatch event).sourceEvent.time = "2026-05-28 19:47:10.000000100" := h
  rw [htime]
  decide +kernel

theorem sample_newAlert (event : NormalizedProcessEvent)
    (h : event.time = "2026-05-28 19:47:10.000000100") :
    newAlert sampleDriver.config [] (sampleId 2) sampleRule (sampleMatch event) =
      some (alertRow sampleDriver.config (sampleId 2) sampleRule (sampleMatch event)
        1779997630) := by
  rw [newAlert, sample_seconds event h]
  rfl

theorem sample_grouped (s : Store) (batch : Batch) (id alertId : String)
    (event : NormalizedProcessEvent) (h : event.time = "2026-05-28 19:47:10.000000100") :
    resume sampleHost sampleDriver { id := id } s
      (.upsertIncident batch (sampleMatch event) alertId) = .evaluate batch := by
  have hrow : ∃ excluded, excludedRow sampleDriver id alertId (sampleMatch event) = some excluded := by
    rw [excludedRow, sample_seconds event h]
    exact ⟨_, rfl⟩
  obtain ⟨excluded, hexcluded⟩ := hrow
  change afterUpsert sampleDriver batch s.incidents
    (excludedRow sampleDriver id alertId (sampleMatch event)) = .evaluate batch
  rw [hexcluded]
  rfl

theorem sample_read (rows rest : List StoredRow)
    (hrows : ∀ r ∈ rows ++ rest, Observed sampleDriver.config r ∧ r.arrivedAt = 5000)
    (hsorted : (rows ++ rest).Pairwise fun r r' => rowPlace sampleHost r ≤ rowPlace sampleHost r')
    (hlen : rows.length ≤ batchLimit) (hcut : rest = [] ∨ rows.length = batchLimit) :
    ChildrenRead sampleHost sampleDriver.config 10000 (rows ++ rest) cursorStart batchLimit rows := by
  refine ⟨hlen, rest, ⟨?_, hsorted⟩, hcut⟩
  have hall : (rows ++ rest).filter (fun stored =>
      Forward sampleHost sampleDriver.config 10000 cursorStart stored) = rows ++ rest := by
    refine filter_eq_self.mpr fun r hr => decide_eq_true ?_
    obtain ⟨hobserved, harrived⟩ := hrows r hr
    have hafter : cursorStart.arrivedAt < (rowCursor r).arrivedAt := by
      rw [show (rowCursor r).arrivedAt = 5000 from harrived]
      decide
    refine ⟨hobserved, Int.le_of_lt hafter, place_lt_of_arrivedAt_lt hafter, ?_⟩
    rw [harrived]
    decide
  rw [hall]

theorem sample_matches (eventId : String) (image : Option String) :
    evaluateRule sampleHost sampleRule (normalize (sampleLaunch eventId) image) =
      some (sampleMatch (normalize (sampleLaunch eventId) image)) := by
  have hends : matchOne (sampleHost.toLowerCase "c:\\powershell.exe") .endswith
      "\\powershell.exe" = true := by decide +kernel
  have hblock : blockMatches sampleHost ⟨"selection", [⟨.image, .endswith, ["\\powershell.exe"]⟩]⟩
      (normalize (sampleLaunch eventId) image) = true := by
    simp only [blockMatches, all_cons, all_nil, Bool.and_true, matcherMatches, fieldValue,
      any_cons, any_nil, Bool.or_false]
    exact hends
  have hresult : blockResults sampleHost sampleRule.blocks
      (normalize (sampleLaunch eventId) image) "selection" = some true := by
    simp only [blockResults, sampleRule, foldl_cons, foldl_nil, if_true, hblock]
  have hcondition : evaluateCondition (blockResults sampleHost sampleRule.blocks
      (normalize (sampleLaunch eventId) image)) sampleRule.condition = true := by
    rw [show sampleRule.condition = .ident "selection" from rfl, evaluateCondition, hresult]
    rfl
  have hlaunch : ¬(normalize (sampleLaunch eventId) image).activityId ≠ 1 := fun h => h rfl
  have hcategory : sampleRule.logsourceCategory = "process_creation" := rfl
  rw [evaluateRule, if_pos hcategory, evaluateProcessCreation, if_neg hlaunch, if_pos hcondition]
  rfl

theorem sample_read_one (eventId : String) :
    ChildrenRead sampleHost sampleDriver.config 10000 [sampleLaunch eventId] cursorStart batchLimit
      [sampleLaunch eventId] := by
  have hread := sample_read [sampleLaunch eventId] [] ?_
    (pairwise_singleton _ _) (Nat.le_add_left 1 999) (Or.inl rfl)
  · exact hread
  · intro r hr
    rw [mem_singleton.mp hr]
    exact ⟨⟨rfl, rfl⟩, rfl⟩

/-- A whole cycle over one Launch that matches. -/
theorem sample_run (eventId : String) : ∃ q : Pool Store Pc,
    Run (detection sampleHost sampleDriver) ⟨sampleStore [sampleLaunch eventId], []⟩ q ∧
    q.store.watermark = some (rowCursor (sampleLaunch eventId)) ∧
    q.store.cgesEvents = [sampleLaunch eventId] ∧ q.store.arrivals = [sampleLaunch eventId] ∧
    q.threads = [.returned ⟨some (rowCursor (sampleLaunch eventId)), 1, 1⟩] ∧
    q.store.alerts ≠ [] ∧ q.store.clock = 10000 ∧
    q.store.evaluated = [(normalize (sampleLaunch eventId) none, sampleRule)] := by
  have hread := sample_read_one eventId
  have hevaluate := run_to_evaluate (H := sampleHost) (D := sampleDriver)
    (s := sampleStore [sampleLaunch eventId]) [] hread rfl rfl
  have hseconds := sample_seconds (normalize (sampleLaunch eventId) none) rfl
  have hmatched := run_matched (H := sampleHost) (D := sampleDriver) []
    (sample_matches eventId none) [] (sampleStore [sampleLaunch eventId])
    (rowCursor (sampleLaunch eventId)) 1 0 (sampleId 2) (fun alert halert => by cases halert)
    (by rw [hseconds]; rfl)
  rw [show (sampleStore [sampleLaunch eventId]).alerts = [] from rfl, insertAlert,
    sample_newAlert (normalize (sampleLaunch eventId) none) rfl, Option.map_some] at hmatched
  have hreturned := hmatched.tail (step_answered _ [] (.upserted _ _ (some (sampleId 2))) {} trivial)
  have hgrouped := hreturned.tail (step_answered _ [] (.upsertIncident _ _ (sampleId 2))
    { id := sampleId 3 } ⟨by rw [hseconds]; rfl, fun incident hincident => by cases hincident⟩)
  rw [sample_grouped _ _ (sampleId 3) (sampleId 2) (normalize (sampleLaunch eventId) none) rfl] at hgrouped
  have hend := hgrouped.trans (run_unmatched [] [] (fun pair hpair => by cases hpair) _ _ _ _)
  exact ⟨_, hevaluate.trans hend, rfl, rfl, rfl, rfl, cons_ne_nil _ _, rfl, rfl⟩

end CyberGuard.Detect
