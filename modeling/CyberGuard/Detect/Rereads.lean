import CyberGuard.Detect.CompleteCycles
import CyberGuard.Detect.Incidents
import CyberGuard.Detect.RuleParser

/-!
# Reading events again

The deduplication key says which agent, rule, process name and bucket it is of: the name of
a process may hold the separator, and it is the only field that may. Complete cycles that
read rows again therefore find the alerts of their matches, as long as a row has the same
parent whatever it is read with.
-/

namespace CyberGuard.Detect
set_option autoImplicit false
open CyberGuard.Ingest TextPatterns Checks OrderedRead List
open CyberGuard.Ingest.EventSchema (uuidPattern)
open CyberGuard.Ingest.Heartbeat (StoredRow)

/-- The id of a rule that `parseRule` accepts. -/
def AcceptedRuleId (id : String) : Prop :=
  ∃ H T raw rule, parseRule H T raw = .ok rule ∧ rule.id = id

theorem colon_notMem_ruleId {id : String} (h : AcceptedRuleId id) : ':' ∉ id.toList := by
  obtain ⟨H, T, raw, rule, hparsed, rfl⟩ := h
  have hid : test ruleIdPattern rule.id = true := by
    simp only [parseRule, bind_eq_ok, pure_eq_ok] at hparsed
    obtain ⟨shell, _, _, hmetadata, _, _, _, _, _, _, _, _, _, _, _, _, _, _, _, _, _, _, rfl⟩ := hparsed
    simp only [checkRuleMetadata, bind_eq_ok, refuseIf_eq_ok] at hmetadata
    obtain ⟨_, hid, _⟩ := hmetadata
    simpa using hid
  intro hcolon
  have hletter : ':' ∈ letters ruleIdPattern := mem_letters (test_iff.mp hid) hcolon
  revert hletter
  decide +kernel

/-- Keys are the same exactly when their fields are. -/
theorem dedupKey_eq_iff {m m' : RuleMatch} {seconds seconds' : Int}
    (hagent : test uuidPattern m.sourceEvent.agentId = true)
    (hagent' : test uuidPattern m'.sourceEvent.agentId = true)
    (hrule : AcceptedRuleId m.ruleId) (hrule' : AcceptedRuleId m'.ruleId) :
    dedupKey m seconds = dedupKey m' seconds' ↔
      m.sourceEvent.agentId = m'.sourceEvent.agentId ∧ m.ruleId = m'.ruleId ∧
        m.sourceEvent.processName = m'.sourceEvent.processName ∧
        seconds / dedupBucketSeconds = seconds' / dedupBucketSeconds := by
  constructor
  · intro h
    -- The bucket is read from the right, the agent and the rule from the left.
    obtain ⟨hfront, hbucket⟩ :=
      last_colons (colon_notMem_toString _) (colon_notMem_toString _) h
    rw [Int.toString_eq_repr, Int.toString_eq_repr] at hbucket
    rw [String.append_assoc, String.append_assoc, String.append_assoc, String.append_assoc,
      String.append_assoc, String.append_assoc] at hfront
    obtain ⟨hsame, hrest⟩ :=
      first_colons (colon_notMem_uuid hagent) (colon_notMem_uuid hagent') hfront
    obtain ⟨hid, hname⟩ :=
      first_colons (colon_notMem_ruleId hrule) (colon_notMem_ruleId hrule') hrest
    exact ⟨hsame, hid, hname, Int.repr_inj.mp hbucket⟩
  · rintro ⟨hsame, hid, hname, hbucket⟩
    rw [dedupKey, dedupKey, hsame, hid, hname, hbucket]

theorem buildDedupKey_utcText {m : RuleMatch} {n : Nat} (hn : n < 2 ^ 63)
    (htime : m.sourceEvent.time = utcText n) :
    buildDedupKey m = some (dedupKey m ((n / 10 ^ 9 : Nat) : Int)) := by
  have hseconds : (n : Int) / 1000000000 = ((n / 10 ^ 9 : Nat) : Int) := by omega
  rw [buildDedupKey, htime, eventUnixSeconds_utcText (printable_nanos hn), hseconds,
    Option.map_some]

section Cursors
variable {H : Host} {D : Driver} {S : SoarConfig} {d d' : Deployment} {pc : Pc}
  {read read' : List StoredRow} {input : Input} {cursor : DetectCursor}

theorem CycleRun.getCursor_eq (h : CycleRun H D S d pc read d') (hreading : pc.reading = false)
    (hthrough : pc.through = some cursor) : getCursor d'.store = cursor := by
  induction h with
  | returned d result => cases hthrough
  | @command d₁ d₂ _ pc₁ _ _ input hcommand hrest ih =>
    obtain ⟨_, hstore, rfl, _⟩ := hcommand
    have hproceeds := proceeds_resume hreading hrest.ne_rejected
    rcases hproceeds.through cursor hthrough with hkeeps | ⟨batch, rfl, rfl⟩
    · exact ih hproceeds.reading hkeeps
    · cases hrest with
      | returned =>
        rw [hstore]
        rfl
      | command input hcommand _ => exact hcommand.admissible.elim

/-- No two different rows of the org share `(arrived_at, event_id)`. -/
def PlacesDistinct (H : Host) (c : DetectConfig) (rows : List StoredRow) : Prop :=
  ∀ r ∈ rows, ∀ r' ∈ rows, Observed c r → Observed c r' → rowPlace H r = rowPlace H r' → r = r'

structure Advances (H : Host) (c : DetectConfig) (rows read : List StoredRow)
    (before after : DetectCursor) : Prop where
  forward : before.place H ≤ after.place H
  sound : ∀ r ∈ read, r ∈ rows ∧ Observed c r ∧ before.place H < rowPlace H r ∧
    rowPlace H r ≤ after.place H
  complete : PlacesDistinct H c rows → ∀ r ∈ rows, Observed c r → before.place H < rowPlace H r →
    rowPlace H r ≤ after.place H → r ∈ read

theorem Advances.refl (H : Host) (c : DetectConfig) (rows : List StoredRow)
    (cursor : DetectCursor) : Advances H c rows [] cursor cursor := by
  refine ⟨le_refl _, ?_, ?_⟩
  · intro r hr
    cases hr
  · intro _ r _ _ hafter hle
    exact absurd hle (not_le.mpr hafter)

theorem Advances.trans {c : DetectConfig} {rows : List StoredRow} {before between after : DetectCursor}
    (h : Advances H c rows read before between) (h' : Advances H c rows read' between after) :
    Advances H c rows (read ++ read') before after := by
  refine ⟨le_trans h.forward h'.forward, ?_, ?_⟩
  · intro r hr
    rcases mem_append.mp hr with hfirst | hlater
    · obtain ⟨hmem, hobserved, hafter, hle⟩ := h.sound r hfirst
      exact ⟨hmem, hobserved, hafter, le_trans hle h'.forward⟩
    · obtain ⟨hmem, hobserved, hafter, hle⟩ := h'.sound r hlater
      exact ⟨hmem, hobserved, lt_of_le_of_lt h.forward hafter, hle⟩
  · intro hdistinct r hr hobserved hafter hle
    by_cases hbetween : rowPlace H r ≤ between.place H
    · exact mem_append_left _ (h.complete hdistinct r hr hobserved hafter hbetween)
    · exact mem_append_right _
        (h'.complete hdistinct r hr hobserved (lt_of_not_ge hbetween) hle)

theorem BatchRead.advances {s : Store} {images : List (Option String)} {last : StoredRow}
    (h : BatchRead H D s read images last) :
    Advances H D.config s.cgesEvents read (getCursor s) (rowCursor last) := by
  have hlast : last ∈ read := mem_of_getLast? h.ends
  have hsound : ∀ r ∈ read, r ∈ s.cgesEvents ∧ Observed D.config r ∧
      (getCursor s).place H < rowPlace H r ∧ rowPlace H r ≤ rowPlace H last := by
    intro r hr
    obtain ⟨hmem, hforward⟩ := mem_filter.mp (Answers.mem h.read hr)
    obtain ⟨hobserved, _, hafter, _⟩ := of_decide_eq_true hforward
    exact ⟨hmem, hobserved, hafter, Answers.le_last h.read h.ends hr⟩
  obtain ⟨hmem, hobserved, hafter, _⟩ := hsound last hlast
  refine ⟨le_of_lt hafter, hsound, ?_⟩
  intro hdistinct r hr hobserved' hafter' hle
  rcases mem_read_or_tie h.read hlast hr hobserved' hafter' hle with hread | htie
  · exact hread
  · rw [hdistinct r hr last hmem hobserved' hobserved htie]
    exact hlast

theorem CycleRun.advances (h : CycleRun H D S d .getCursor read d') :
    Advances H D.config d.store.cgesEvents read (getCursor d.store) (getCursor d'.store) := by
  rcases cycleRun_cases h with ⟨rfl, rfl⟩ | ⟨images, last, hbatch, hrun⟩
  · exact Advances.refl _ _ _ _
  · rw [hrun.getCursor_eq rfl rfl]
    exact hbatch.advances

theorem Cycles.advances (h : Cycles H D S d read d') :
    Advances H D.config d.store.cgesEvents read (getCursor d.store) (getCursor d'.store) := by
  induction h with
  | done d => exact Advances.refl _ _ _ _
  | cycle hcycle _ ih =>
    rw [hcycle.cgesEvents_eq] at ih
    exact hcycle.advances.trans ih
  | tick _ _ ih => exact ih

end Cursors

/-- The row of `detect_watermark` written by hand. -/
def Deployment.setCursor (d : Deployment) (cursor : DetectCursor) : Deployment :=
  ⟨{ d.store with watermark := some cursor }, d.soar⟩

theorem Advances.reread {H : Host} {c : DetectConfig} {rows read read' : List StoredRow}
    {start reached cursor after : DetectCursor} (h : Advances H c rows read start reached)
    (h' : Advances H c rows read' cursor after) (hdistinct : PlacesDistinct H c rows)
    (hpassed : start.place H ≤ cursor.place H) (hreached : after.place H ≤ reached.place H) :
    read' ⊆ read := by
  intro r hr
  obtain ⟨hmem, hobserved, hafter, hle⟩ := h'.sound r hr
  exact h.complete hdistinct r hmem hobserved (lt_of_le_of_lt hpassed hafter)
    (le_trans hle hreached)

/-- Two matches have one key exactly when agent, rule, process name and bucket are the same.
Complete cycles over a table that stays as it is, in which no process ends before it starts and
the Launches of a pid are at different times, change nothing when the cursor is set back and they
are run again over rows that were read. They are where the cursor ends no further than it was and
no two different rows share a place. -/
theorem rereads_change_nothing :
    (∀ (m m' : RuleMatch) (n n' : Nat), n < 2 ^ 63 → n' < 2 ^ 63 →
      test uuidPattern m.sourceEvent.agentId = true →
      test uuidPattern m'.sourceEvent.agentId = true →
      AcceptedRuleId m.ruleId → AcceptedRuleId m'.ruleId →
      m.sourceEvent.time = utcText n → m'.sourceEvent.time = utcText n' →
      ∃ key key', buildDedupKey m = some key ∧ buildDedupKey m' = some key' ∧
        (key = key' ↔ m.sourceEvent.agentId = m'.sourceEvent.agentId ∧ m.ruleId = m'.ruleId ∧
          m.sourceEvent.processName = m'.sourceEvent.processName ∧
          n / 10 ^ 9 / 300 = n' / 10 ^ 9 / 300)) ∧
    ∀ (H : Host) (D : Driver) (S : SoarConfig) (nanos : StoredRow → Int) (d d₁ d₂ : Deployment)
      (read read' : List StoredRow) (cursor : DetectCursor),
      TableLived nanos D.config d.store.cgesEvents → Cycles H D S d read d₁ →
      Cycles H D S (d₁.setCursor cursor) read' d₂ →
      read' ⊆ read ∨ PlacesDistinct H D.config d.store.cgesEvents ∧
        (getCursor d.store).place H ≤ cursor.place H ∧
        (getCursor d₂.store).place H ≤ (getCursor d₁.store).place H →
      Untouched d₁ d₂ := by
  constructor
  · intro m m' n n' hn hn' hagent hagent' hrule hrule' htime htime'
    refine ⟨_, _, buildDedupKey_utcText hn htime, buildDedupKey_utcText hn' htime', ?_⟩
    rw [dedupKey_eq_iff hagent hagent' hrule hrule', dedupBucketSeconds]
    have hbuckets : ((n / 10 ^ 9 : Nat) : Int) / 300 = ((n' / 10 ^ 9 : Nat) : Int) / 300 ↔
        n / 10 ^ 9 / 300 = n' / 10 ^ 9 / 300 := by
      omega
    rw [hbuckets]
  · intro H D S nanos d d₁ d₂ read read' cursor htable hfirst hagain hreread
    have hrows := hfirst.cgesEvents_eq
    have hread : read' ⊆ read := by
      rcases hreread with hread | ⟨hdistinct, hpassed, hreached⟩
      · exact hread
      · have hadvances := hagain.advances
        change Advances H D.config d₁.store.cgesEvents read' cursor (getCursor d₂.store) at hadvances
        rw [hrows] at hadvances
        exact hfirst.advances.reread hadvances hdistinct hpassed hreached
    have hagainTable : TableLived nanos D.config (d₁.setCursor cursor).store.cgesEvents := by
      change TableLived nanos D.config d₁.store.cgesEvents
      rw [hrows]
      exact htable
    have huntouched := hagain.untouched_of_handled hagainTable
      fun r hr => hfirst.handled htable r (hread hr)
    exact ⟨huntouched.alerts, huntouched.incidents, huntouched.notified, huntouched.playbooks,
      huntouched.soar⟩

def lineageRule : SigmaRule where
  id := "rule.office_spawns_script_host"
  title := "Office spawns a script host"
  level := "high"
  logsourceCategory := "process_creation"
  blocks := [⟨"selection", [⟨.parentImage, .endswith, ["winword.exe"]⟩]⟩]
  condition := .ident "selection"
  heuristicScore := 9 / 10
  severityId := 4
  cgMitre := ⟨["execution"], ["T1059"]⟩

def lineageDriver : Driver := ⟨⟨"default", [lineageRule], none⟩, false, false⟩

def noPlaybooks : SoarConfig := ⟨⟨fun _ => [], fun _ => ""⟩, []⟩

def deploymentOf (rows : List StoredRow) : Deployment := ⟨sampleStore rows, { rows := [] }⟩

def lineageEvent (n : Nat) (activityId processPid : Nat) (uid : String)
    (parentPid : Option Nat) (image time : String) (arrivedAt : Int) : StoredRow :=
  ⟨{ agentId := lineageAgent.text, orgId := "default", eventId := sampleId n, classUid := 1007
     activityId := activityId, processPid := processPid, processUid := uid, processName := image
     processParentPid := parentPid, imageFileName := image, time := time }, arrivedAt⟩

def lineageSpan (parentPids : List Nat) (oldestChild : String) : Span :=
  ⟨[lineageAgent.text], parentPids, oldestChild, "2026-05-28 19:47:10.000000100"⟩

def earlyEnd : StoredRow :=
  lineageEvent 1 2 4 "u" none "winword.exe" "2026-05-26 00:00:00.000000000" 1000

def lateStart : StoredRow :=
  lineageEvent 2 1 4 "u" none "winword.exe" "2026-05-28 10:00:00.000000000" 2000

/-- A child of another process, from the time of that end. -/
def olderChild : StoredRow :=
  lineageEvent 3 1 5 "" (some 9) "notepad.exe" "2026-05-26 00:00:00.000000000" 3000

/-- A child of the process, with the time of its arrival. -/
def youngerChild (arrivedAt : Int) : StoredRow :=
  lineageEvent 4 1 8 "" (some 4) "cmd.exe" "2026-05-28 19:47:10.000000100" arrivedAt

def lineageRows : List StoredRow := [earlyEnd, lateStart, olderChild, youngerChild 4000]

def unsettledRows : List StoredRow := [lateStart, youngerChild 9000]

def settledRows : List StoredRow := [lateStart, youngerChild 4000]

theorem childrenRead_of_filter {H : Host} {c : DetectConfig} {now : Int}
    {rows children : List StoredRow} {cursor : DetectCursor}
    (hfilter : rows.filter (fun stored => Forward H c now cursor stored) = children)
    (hlimit : children.length ≤ batchLimit)
    (hsorted : children.Pairwise fun r r' => rowPlace H r ≤ rowPlace H r') :
    ChildrenRead H c now rows cursor batchLimit children := by
  refine ⟨hlimit, [], ⟨?_, ?_⟩, Or.inl rfl⟩
  · rw [append_nil, hfilter]
  · rw [append_nil]
    exact hsorted

/-- All rows in one batch: the end is in the span of the older child, so the younger one has no
parent. -/
theorem lineage_first_read : BatchRead sampleHost lineageDriver (sampleStore lineageRows)
    lineageRows [none, none, none, none] (youngerChild 4000) := by
  refine ⟨childrenRead_of_filter (by decide +kernel) (by decide) (by decide +kernel), rfl, ?_⟩
  have hspan : spanOf lineageRows =
      some (lineageSpan [9, 4] "2026-05-26 00:00:00.000000000") := by decide +kernel
  have hlaunches : LaunchesRead lineageDriver.config lineageRows
      (lineageSpan [9, 4] "2026-05-26 00:00:00.000000000") [launchRow lateStart] := by
    refine ⟨"2026-05-25 00:00:00.000000000", by decide +kernel, ?_, pairwise_singleton _ _⟩
    decide +kernel
  have hterminates : TerminatesRead lineageDriver.config lineageRows
      (lineageSpan [9, 4] "2026-05-26 00:00:00.000000000") [launchRow lateStart]
      [terminateRow earlyEnd] :=
    ⟨"2026-05-25 00:00:00.000000000", by decide +kernel, by decide +kernel⟩
  have himages : resolveParents [launchRow lateStart] [terminateRow earlyEnd] lineageRows =
      some [none, none, none, none] := by decide +kernel
  rw [← himages]
  exact .read hspan hlaunches (by decide +kernel) hterminates

/-- From the cursor these children are read, the younger one without the older one, so that no
end is in their span. -/
def ReadsYounger (now : Int) (rows : List StoredRow) (cursor : DetectCursor)
    (children : List StoredRow) (images : List (Option String)) : Prop :=
  (rows.filter fun stored => Forward sampleHost lineageDriver.config now cursor stored) = children ∧
  (children.Pairwise fun r r' => rowPlace sampleHost r ≤ rowPlace sampleHost r') ∧
  (∀ r ∈ children, (eventUnixSeconds r.row.time).isSome) ∧
  spanOf children = some (lineageSpan [4] "2026-05-28 19:47:10.000000100") ∧
  ((inSpan lineageDriver.config rows (lineageSpan [4] "2026-05-28 19:47:10.000000100")
    "2026-05-27 19:47:10.000000100" 1).filter fun stored => stored.row.processPid ∈ [4]) =
      [lateStart] ∧
  inSpan lineageDriver.config rows (lineageSpan [4] "2026-05-28 19:47:10.000000100")
    "2026-05-27 19:47:10.000000100" 2 = [] ∧
  resolveParents [launchRow lateStart] [] children = some images

instance {now : Int} {rows : List StoredRow} {cursor : DetectCursor} {children : List StoredRow}
    {images : List (Option String)} : Decidable (ReadsYounger now rows cursor children images) :=
  inferInstanceAs (Decidable (_ ∧ _))

section
variable {now : Int} {rows children : List StoredRow} {cursor : DetectCursor}
  {images : List (Option String)}

theorem ReadsYounger.childrenRead (h : ReadsYounger now rows cursor children images)
    (hlimit : children.length ≤ batchLimit) :
    ChildrenRead sampleHost lineageDriver.config now rows cursor batchLimit children :=
  childrenRead_of_filter h.1 hlimit h.2.1

theorem ReadsYounger.parents (h : ReadsYounger now rows cursor children images) :
    ParentsResolved lineageDriver.config rows children (some images) := by
  obtain ⟨_, _, _, hspan, hlaunches, hterminates, himages⟩ := h
  have hearliest : minusSeconds "2026-05-28 19:47:10.000000100" parentLookbackSeconds =
      some "2026-05-27 19:47:10.000000100" := by decide +kernel
  rw [← himages]
  refine .read hspan ⟨_, hearliest, ?_, pairwise_singleton _ _⟩ (cons_ne_nil _ _)
    ⟨_, hearliest, ?_⟩
  · change [launchRow lateStart].Perm (((inSpan _ _ _ _ 1).filter
      fun stored => stored.row.processPid ∈ [4]).map launchRow)
    rw [hlaunches]
    rfl
  · rw [hterminates]
    rfl

end

theorem younger_reads :
    ReadsYounger 10000 lineageRows (rowCursor olderChild) [youngerChild 4000]
      [some "winword.exe"] ∧
    ReadsYounger 20000 unsettledRows cursorStart unsettledRows [none, some "winword.exe"] ∧
    ReadsYounger 10000 settledRows cursorStart settledRows [none, some "winword.exe"] := by
  decide +kernel

def lineageMatch (arrivedAt : Int) : RuleMatch :=
  ⟨lineageRule.id, lineageRule.heuristicScore, lineageRule.severityId, lineageRule.cgMitre,
    normalize (youngerChild arrivedAt) (some "winword.exe")⟩

theorem evaluateRule_lineageMatch (arrivedAt : Int) :
    evaluateRule sampleHost lineageRule (normalize (youngerChild arrivedAt) (some "winword.exe")) =
      some (lineageMatch arrivedAt) := by
  change evaluateRule sampleHost lineageRule (normalize (youngerChild 0) (some "winword.exe")) =
    some (lineageMatch 0)
  decide +kernel

def AlertOnRerun (rows : List StoredRow) (cursor : DetectCursor) (read read' : List StoredRow) :
    Prop :=
  ∃ d₁ d₂, Cycles sampleHost lineageDriver noPlaybooks (deploymentOf rows) read d₁ ∧
    cursor.place sampleHost < (getCursor d₁.store).place sampleHost ∧
    Cycles sampleHost lineageDriver noPlaybooks (d₁.setCursor cursor) read' d₂ ∧
    d₁.store.alerts = [] ∧ d₂.store.alerts ≠ []

section
variable {rows read read' : List StoredRow} {images images' : List (Option String)}
  {last last' : StoredRow} {cursor : DetectCursor} {now : Int} {pair : Pair} {m : RuleMatch}

/-- One cycle that matches nothing, and then one that does. -/
theorem alertOnRerun (hfirst : BatchRead sampleHost lineageDriver (sampleStore rows) read images last)
    (htimes : ∀ r ∈ read, (eventUnixSeconds r.row.time).isSome)
    (hnone : ∀ pair ∈ (batchOf lineageDriver.config read images last).work,
      evaluateRule sampleHost pair.2 pair.1 = none)
    (hcursor : cursor.place sampleHost < rowPlace sampleHost last) (hnow : 10000 ≤ now)
    (hread : ChildrenRead sampleHost lineageDriver.config now rows cursor batchLimit read')
    (hlast : read'.getLast? = some last')
    (hparents : ParentsResolved lineageDriver.config rows read' (some images'))
    (htimes' : ∀ r ∈ read', (eventUnixSeconds r.row.time).isSome)
    (hpair : pair ∈ (batchOf lineageDriver.config read' images' last').work)
    (hmatch : evaluateRule sampleHost pair.2 pair.1 = some m) :
    AlertOnRerun rows cursor read read' := by
  obtain ⟨d₁, hcycle, hrun⟩ := exists_cycle (S := noPlaybooks) (d := deploymentOf rows) rfl rfl
    hfirst htimes
  have hquiet : Untouched (deploymentOf rows) d₁ := by
    apply hrun.untouched
    intro pair hpair m hmatch
    rw [hnone pair hpair] at hmatch
    cases hmatch
  have hrows : d₁.store.cgesEvents = rows := hrun.cgesEvents_eq
  have hclock : (d₁.setCursor cursor).store.clock ≤ now := by
    change d₁.store.clock ≤ now
    rw [hrun.clock_eq]
    exact hnow
  have hagain : BatchRead sampleHost lineageDriver { (d₁.setCursor cursor).store with clock := now }
      read' images' last' := by
    rw [← hrows] at hread hparents
    exact ⟨hread, hlast, hparents⟩
  obtain ⟨d₂, hcycle', hrun'⟩ := exists_cycle (S := noPlaybooks)
    (d := ⟨{ (d₁.setCursor cursor).store with clock := now }, d₁.soar⟩) rfl rfl hagain htimes'
  obtain ⟨alert, halert, _⟩ := hrun'.recorded_todo rfl hpair hmatch
  have hcycles := Cycles.cycle hcycle (.done d₁)
  have hcycles' := Cycles.tick hclock (Cycles.cycle hcycle' (.done d₂))
  rw [append_nil] at hcycles hcycles'
  refine ⟨d₁, d₂, hcycles, ?_, hcycles', hquiet.alerts, ne_nil_of_mem halert⟩
  rw [hrun.getCursor_eq rfl rfl]
  exact hcursor

end

/-- A row that was read before has another parent when it is read without an older child of its
batch, where a process ends before it starts. Cycles that run again may also read a row that was
too young. Both write an alert. -/
theorem rerun_writes_alert :
    AlertOnRerun lineageRows (rowCursor olderChild) lineageRows [youngerChild 4000] ∧
    [youngerChild 4000] ⊆ lineageRows ∧
    AlertOnRerun unsettledRows cursorStart [lateStart] unsettledRows := by
  obtain ⟨hyounger, hunsettled, _⟩ := younger_reads
  refine ⟨?_, cons_subset.mpr ⟨by simp [lineageRows], nil_subset _⟩, ?_⟩
  · have hread := hyounger.childrenRead (by decide)
    exact alertOnRerun lineage_first_read (by decide +kernel) (by decide +kernel)
      (by decide +kernel) (le_refl _) hread rfl hyounger.parents hyounger.2.2.1
      mem_cons_self (evaluateRule_lineageMatch 4000)
  · have hfirst : BatchRead sampleHost lineageDriver (sampleStore unsettledRows) [lateStart] [none]
        lateStart :=
      ⟨childrenRead_of_filter (by decide +kernel) (by decide) (by decide +kernel), rfl,
        .noParent rfl⟩
    have hread := hunsettled.childrenRead (by decide)
    exact alertOnRerun hfirst (by decide +kernel) (by decide +kernel) (by decide +kernel) (by decide)
      hread rfl hunsettled.parents hunsettled.2.2.1
      (mem_cons_of_mem _ mem_cons_self) (evaluateRule_lineageMatch 9000)

def lineageNanos (stored : StoredRow) : Int :=
  if stored = lateStart then 1779962400000000000 else 1779997630000000100

theorem settledRows_lived : TableLived lineageNanos lineageDriver.config settledRows := by
  have htyped : ∀ r ∈ settledRows, Typed lineageNanos r := by
    intro r hr
    rcases mem_pair.mp hr with rfl | rfl
    · refine ⟨by decide +kernel, ?_, Accepted.uuid_accepted lineageAgent⟩
      exact utcText_of_nanos (v := "1779962400000000000") (by decide +kernel) (by decide)
        (by decide +kernel)
    · refine ⟨by decide +kernel, ?_, Accepted.uuid_accepted lineageAgent⟩
      exact utcText_of_nanos (v := "1779997630000000100") (by decide +kernel) (by decide)
        (by decide +kernel)
  have htable : processEvents lineageDriver.config settledRows = settledRows := by decide +kernel
  refine ⟨fun r hr _ => htyped r hr, ?_⟩
  rw [htable]
  exact ⟨htyped, by decide +kernel, by decide +kernel⟩

theorem settled_read {s : Store} (hclock : s.clock = 10000) (hrows : s.cgesEvents = settledRows)
    (hcursor : getCursor s = cursorStart) :
    BatchRead sampleHost lineageDriver s settledRows [none, some "winword.exe"]
      (youngerChild 4000) := by
  have hsettled := younger_reads.2.2
  refine ⟨?_, rfl, ?_⟩
  · rw [hclock, hrows, hcursor]
    exact hsettled.childrenRead (by decide)
  · rw [hrows]
    exact hsettled.parents

theorem lineage_reread_changes_nothing : ∃ d₁ d₂,
    Cycles sampleHost lineageDriver noPlaybooks (deploymentOf settledRows) settledRows d₁ ∧
    d₁.store.alerts ≠ [] ∧
    Cycles sampleHost lineageDriver noPlaybooks (d₁.setCursor cursorStart) settledRows d₂ ∧
    Untouched d₁ d₂ := by
  have htimes := younger_reads.2.2.2.2.1
  obtain ⟨d₁, hcycle, hrun⟩ := exists_cycle (S := noPlaybooks) (d := deploymentOf settledRows)
    rfl rfl (settled_read rfl rfl rfl) htimes
  obtain ⟨d₂, hcycle', _⟩ := exists_cycle (S := noPlaybooks) (d := d₁.setCursor cursorStart)
    rfl rfl (settled_read hrun.clock_eq hrun.cgesEvents_eq rfl) htimes
  obtain ⟨alert, halert, _⟩ := hrun.recorded_todo rfl
    (mem_cons_of_mem _ mem_cons_self) (evaluateRule_lineageMatch 4000)
  have hcycles := Cycles.cycle hcycle (.done d₁)
  have hcycles' := Cycles.cycle hcycle' (.done d₂)
  rw [append_nil] at hcycles hcycles'
  exact ⟨d₁, d₂, hcycles, ne_nil_of_mem halert, hcycles',
    rereads_change_nothing.2 _ _ _ lineageNanos _ d₁ d₂ _ _ _ settledRows_lived hcycles hcycles'
      (Or.inl fun _ hr => hr)⟩

end CyberGuard.Detect
