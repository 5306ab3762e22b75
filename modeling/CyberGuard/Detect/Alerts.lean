import CyberGuard.Detect.ReadModel
import Mathlib.Data.List.Sort

/-!
# Alerts and incidents

The two upserts of a match. `upsertAlert` writes nothing where the deduplication key
is there; `upsertIncident` appends to the incident of the grouping key or creates
it. Both keys bucket the time of the event, in whole seconds. Where that time does
not parse, the statement fails.
-/

namespace CyberGuard.Detect
set_option autoImplicit false
open CyberGuard.Ingest List

def dedupBucketSeconds : Int := 300

def incidentCorrelationWindowSeconds : Int := 1800

/-- `none` for `NaN`. -/
@[irreducible] def eventUnixSeconds (time : String) : Option Int :=
  (dateParse (slice time 0 10 ++ "T" ++ slice time 11 19 ++ "Z")).map fun ms => ms / 1000

def dedupKey (m : RuleMatch) (seconds : Int) : String :=
  m.sourceEvent.agentId ++ "::" ++ m.ruleId ++ "::" ++ m.sourceEvent.processName ++ "::" ++
    toString (seconds / dedupBucketSeconds)

def buildDedupKey (m : RuleMatch) : Option String :=
  (eventUnixSeconds m.sourceEvent.time).map (dedupKey m)

/-- The nearest double, the even one of two; a score is far from where they end. -/
def toDouble (q : Rat) : Rat :=
  let top : Int := q.num.natAbs.log2 - q.den.log2
  let top := if (q.num.natAbs : Rat) / q.den < (2 : Rat) ^ top then top - 1 else top
  let unit := (2 : Rat) ^ (top - 52)
  let low := (q / unit).floor
  let rest := q / unit - low
  (if rest < 1 / 2 ∨ rest = 1 / 2 ∧ low % 2 = 0 then low else low + 1) * unit

structure ScoreSignals where
  heuristicScore : Option Rat
  uebaScore : Option Rat
  mlScore : Option Rat

/-- `none` where no score is there and it throws. -/
def scoreAlert (signals : ScoreSignals) : Option Rat :=
  let weighted := [(3 / 5, signals.heuristicScore), (1 / 4, signals.uebaScore),
    (3 / 20, signals.mlScore)]
  let sums := weighted.foldl (fun (sums : Rat × Rat) (weight, score) =>
    match score with
    | some s => (toDouble (sums.1 + toDouble (toDouble weight * s)),
        toDouble (sums.2 + toDouble weight))
    | none => sums) (0, 0)
  if sums.2 = 0 then none
  else
    let scaled := toDouble (toDouble (sums.1 / sums.2) * 1000)
    some (toDouble ((scaled + 1 / 2).floor / 1000))

theorem scoreAlert_isSome (score : Rat) :
    (scoreAlert ⟨some score, none, none⟩).isSome = true := by
  have hweight : toDouble (toDouble (3 / 5)) ≠ 0 := by decide +kernel
  simp [scoreAlert, hweight]

example : scoreAlert ⟨some (toDouble (9 / 10)), none, none⟩ = some (toDouble (9 / 10)) := by
  decide +kernel

inductive AlertStatus where
  | new
  | acknowledged
  | resolved
  | falsePositive
  deriving DecidableEq, Repr

/-- The columns the statement sets, with `status` at its default; `eventTime` in seconds. -/
structure AlertRow where
  alertId : String
  orgId : String
  agentId : String
  title : String
  severityId : Nat
  ruleId : String
  sourceEvents : List String
  heuristicScore : Rat
  finalScore : Rat
  cgMitre : CgMitre
  dedupKey : String
  eventTime : Int
  status : AlertStatus := .new
  deriving DecidableEq, Repr

section Upsert
variable (c : DetectConfig)

def alertRow (alertId : String) (rule : SigmaRule) (m : RuleMatch) (seconds : Int) : AlertRow where
  alertId := alertId
  orgId := c.orgId
  agentId := m.sourceEvent.agentId
  title := rule.title
  severityId := m.severityId
  ruleId := m.ruleId
  sourceEvents := [m.sourceEvent.eventId]
  heuristicScore := m.heuristicScore
  finalScore := (scoreAlert ⟨some m.heuristicScore, none, none⟩).get (scoreAlert_isSome _)
  cgMitre := m.cgMitre
  dedupKey := dedupKey m seconds
  eventTime := seconds

/-- The row the statement inserts; `none` where the key is there or the time does not parse. -/
def newAlert (alerts : List AlertRow) (alertId : String) (rule : SigmaRule) (m : RuleMatch) :
    Option AlertRow :=
  match eventUnixSeconds m.sourceEvent.time with
  | none => none
  | some seconds =>
    if alerts.any fun alert => alert.dedupKey = dedupKey m seconds then none
    else some (alertRow c alertId rule m seconds)

def insertAlert (alerts : List AlertRow) (alertId : String) (rule : SigmaRule) (m : RuleMatch) :
    List AlertRow :=
  alerts ++ (newAlert c alerts alertId rule m).toList

variable {c}

theorem mem_insertAlert {alerts : List AlertRow} {alertId : String} {rule : SigmaRule}
    {m : RuleMatch} {alert : AlertRow} (h : alert ∈ insertAlert c alerts alertId rule m) :
    alert ∈ alerts ∨ newAlert c alerts alertId rule m = some alert := by
  rcases mem_append.mp h with hold | hnew
  · exact Or.inl hold
  · exact Or.inr (Option.mem_toList.mp hnew)

theorem newAlert_spec {alerts : List AlertRow} {alertId : String} {rule : SigmaRule}
    {m : RuleMatch} {alert : AlertRow} (h : newAlert c alerts alertId rule m = some alert) :
    ∃ seconds, eventUnixSeconds m.sourceEvent.time = some seconds ∧
      alert = alertRow c alertId rule m seconds := by
  unfold newAlert at h
  split at h
  · cases h
  · rename_i seconds hseconds
    split at h
    · cases h
    · exact ⟨seconds, hseconds, (Option.some.inj h).symm⟩

theorem exists_dedupKey_insertAlert (alerts : List AlertRow) (alertId : String)
    (rule : SigmaRule) {m : RuleMatch} {key : String} (hkey : buildDedupKey m = some key) :
    ∃ alert ∈ insertAlert c alerts alertId rule m, alert.dedupKey = key := by
  obtain ⟨seconds, hseconds, rfl⟩ := Option.map_eq_some_iff.mp hkey
  by_cases hthere : (alerts.any fun alert => alert.dedupKey = dedupKey m seconds) = true
  · obtain ⟨alert, halert, hsame⟩ := any_eq_true.mp hthere
    exact ⟨alert, mem_append_left _ halert, of_decide_eq_true hsame⟩
  · have hnew : newAlert c alerts alertId rule m = some (alertRow c alertId rule m seconds) := by
      rw [newAlert, hseconds]
      exact if_neg hthere
    refine ⟨alertRow c alertId rule m seconds, ?_, rfl⟩
    rw [insertAlert, hnew]
    exact mem_append_right _ mem_cons_self

end Upsert

def canonicalTactics (tactics : List String) : String :=
  ",".intercalate (tactics.eraseDups.insertionSort (· ≤ ·))

def groupingKey (orgId agentId : String) (tactics : List String) (seconds : Int) : String :=
  orgId ++ "::" ++ agentId ++ "::" ++ canonicalTactics tactics ++ "::" ++
    toString (seconds / incidentCorrelationWindowSeconds)

def AlertRow.groupingKey (alert : AlertRow) : String :=
  Detect.groupingKey alert.orgId alert.agentId alert.cgMitre.tactics alert.eventTime

structure IncidentGroupingInput where
  alertId : String
  orgId : String
  agentId : String
  cgMitre : CgMitre
  eventTime : String
  severityId : Nat
  deriving DecidableEq, Repr

def groupingInput (c : DetectConfig) (alertId : String) (m : RuleMatch) :
    IncidentGroupingInput where
  alertId := alertId
  orgId := c.orgId
  agentId := m.sourceEvent.agentId
  cgMitre := m.cgMitre
  eventTime := m.sourceEvent.time
  severityId := m.severityId

inductive IncidentStatus where
  | opened
  | acknowledged
  | investigating
  | contained
  | resolved
  | falsePositive
  deriving DecidableEq, Repr

structure IncidentRow where
  incidentId : String
  orgId : String
  agentId : String
  title : String
  status : IncidentStatus
  cgMitre : CgMitre
  alertIds : List String
  severityId : Nat
  groupingKey : String
  windowStart : Int
  assignedTo : Option String := none
  deriving DecidableEq, Repr

def incidentRow (incidentId : String) (input : IncidentGroupingInput) (seconds : Int) :
    IncidentRow where
  incidentId := incidentId
  orgId := input.orgId
  agentId := input.agentId
  title := canonicalTactics input.cgMitre.tactics ++ " activity on " ++ input.agentId
  status := .opened
  cgMitre := input.cgMitre
  alertIds := [input.alertId]
  severityId := input.severityId
  groupingKey := groupingKey input.orgId input.agentId input.cgMitre.tactics seconds
  windowStart := seconds / incidentCorrelationWindowSeconds * incidentCorrelationWindowSeconds

/-- `DO UPDATE`: what people set stays. -/
def IncidentRow.correlate (incident excluded : IncidentRow) : IncidentRow :=
  { incident with
    alertIds :=
      if ∀ alertId ∈ excluded.alertIds, alertId ∈ incident.alertIds then incident.alertIds
      else incident.alertIds ++ excluded.alertIds
    severityId := max incident.severityId excluded.severityId }

/-- `INSERT … ON CONFLICT (grouping_key) DO UPDATE`; the key is unique in the table. -/
def upsertRow (excluded : IncidentRow) : List IncidentRow → List IncidentRow
  | [] => [excluded]
  | incident :: rest =>
    if incident.groupingKey = excluded.groupingKey then incident.correlate excluded :: rest
    else incident :: upsertRow excluded rest

structure UpsertIncidentResult where
  created : Bool
  incidentId : String
  title : String
  severityId : Nat
  orgId : String
  deriving DecidableEq, Repr

def upsertResult (incidents : List IncidentRow) (excluded : IncidentRow) : UpsertIncidentResult :=
  match incidents.find? fun incident => incident.groupingKey = excluded.groupingKey with
  | none => ⟨true, excluded.incidentId, excluded.title, excluded.severityId, excluded.orgId⟩
  | some incident =>
    ⟨false, incident.incidentId, incident.title, max incident.severityId excluded.severityId,
      excluded.orgId⟩

theorem exists_mem_upsertRow (excluded : IncidentRow) (incidents : List IncidentRow) :
    ∃ incident ∈ upsertRow excluded incidents, incident.groupingKey = excluded.groupingKey ∧
      ∀ alertId ∈ excluded.alertIds, alertId ∈ incident.alertIds := by
  induction incidents with
  | nil => exact ⟨excluded, mem_cons_self, rfl, fun _ h => h⟩
  | cons incident rest ih =>
    rw [upsertRow]
    split
    · rename_i hkey
      refine ⟨incident.correlate excluded, mem_cons_self, hkey, ?_⟩
      intro alertId hid
      rw [IncidentRow.correlate]
      split
      · rename_i hthere
        exact hthere alertId hid
      · exact mem_append_right _ hid
    · obtain ⟨found, hfound, hspec⟩ := ih
      exact ⟨found, mem_cons_of_mem incident hfound, hspec⟩

theorem mem_upsertRow_of_mem (excluded : IncidentRow) {incident : IncidentRow}
    {incidents : List IncidentRow} {alertId : String} (h : incident ∈ incidents)
    (hid : alertId ∈ incident.alertIds) :
    ∃ incident' ∈ upsertRow excluded incidents, incident'.groupingKey = incident.groupingKey ∧
      alertId ∈ incident'.alertIds := by
  induction incidents with
  | nil => cases h
  | cons first rest ih =>
    rw [upsertRow]
    rcases mem_cons.mp h with rfl | hrest
    · split
      · refine ⟨incident.correlate excluded, mem_cons_self, rfl, ?_⟩
        rw [IncidentRow.correlate]
        split
        · exact hid
        · exact mem_append_left _ hid
      · exact ⟨incident, mem_cons_self, rfl, hid⟩
    · split
      · exact ⟨incident, mem_cons_of_mem _ hrest, rfl, hid⟩
      · obtain ⟨found, hfound, hspec⟩ := ih hrest
        exact ⟨found, mem_cons_of_mem first hfound, hspec⟩

end CyberGuard.Detect
