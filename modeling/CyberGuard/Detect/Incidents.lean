import CyberGuard.Accepted.Texts
import CyberGuard.Detect.Cycle
import CyberGuard.Ingest.EventSchema
import CyberGuard.Shared.JoinedFields
import Mathlib

/-!
# Grouping alerts into incidents

The statements of `upsertIncident` one after the other, with the changes people make to
`status` and `assigned_to` between them. The grouping key can be read back from its right
end, so it says the same as org, agent, set of tactics and bucket; and the incident of a
key is the tally of the calls with that key.
-/

namespace CyberGuard.Detect
set_option autoImplicit false
open CyberGuard.Ingest TextPatterns JoinedFields List
open CyberGuard.Ingest.EventSchema (uuidPattern)

/-- The bucket of the event's time; `none` where the time does not parse. -/
def windowBucket (input : IncidentGroupingInput) : Option Int :=
  (eventUnixSeconds input.eventTime).map (· / incidentCorrelationWindowSeconds)

def buildGroupingKey (input : IncidentGroupingInput) : Option String :=
  (eventUnixSeconds input.eventTime).map
    (groupingKey input.orgId input.agentId input.cgMitre.tactics)

structure SameGroup (a b : IncidentGroupingInput) : Prop where
  org : a.orgId = b.orgId
  agent : a.agentId = b.agentId
  tactics : ∀ tactic, tactic ∈ a.cgMitre.tactics ↔ tactic ∈ b.cgMitre.tactics
  bucket : windowBucket a = windowBucket b

/-- An alert of an enrolled agent, by a rule that was loaded. -/
structure Groupable (input : IncidentGroupingInput) : Prop where
  agent : test uuidPattern input.agentId = true
  tactics : ∀ tactic ∈ input.cgMitre.tactics, tactic ∈ attackTactics

section Key
variable {a b : IncidentGroupingInput}

theorem attackTactics_plain : ∀ tactic ∈ attackTactics,
    tactic.toList ≠ [] ∧ ',' ∉ tactic.toList ∧ ':' ∉ tactic.toList := by
  decide

theorem colon_notMem_uuid {id : String} (h : test uuidPattern id = true) : ':' ∉ id.toList := by
  intro hc
  have hletter : ':' ∈ letters uuidPattern := mem_letters (test_iff.mp h) hc
  revert hletter
  decide +kernel

theorem colon_notMem_toString (n : Int) : ':' ∉ (toString n).toList := by
  have hdigit : ∀ d < 10, d.digitChar ≠ ':' := by decide
  have hdigits : ∀ m : Nat, ':' ∉ m.repr.toList := by
    intro m hmem
    rw [Nat.toList_repr] at hmem
    exact toDigits_forall (P := (· ≠ ':')) (by decide) hdigit m ':' hmem rfl
  rw [Int.toString_eq_repr]
  cases n with
  | ofNat m => exact hdigits m
  | negSucc m =>
    intro hmem
    rw [Int.repr, String.toList_append] at hmem
    rcases mem_append.mp hmem with hsign | hrest
    · revert hsign
      decide
    · exact hdigits (m + 1) hrest

theorem mem_sorted {tactics : List String} {tactic : String} :
    tactic ∈ tactics.eraseDups.insertionSort (· ≤ ·) ↔ tactic ∈ tactics := by
  rw [mem_insertionSort, mem_eraseDups]

theorem toList_canonicalTactics (tactics : List String) :
    (canonicalTactics tactics).toList =
      [','].intercalate ((tactics.eraseDups.insertionSort (· ≤ ·)).map String.toList) := by
  rw [canonicalTactics, String.toList_intercalate]
  rfl

theorem colon_notMem_canonicalTactics {tactics : List String}
    (h : ∀ tactic ∈ tactics, tactic ∈ attackTactics) : ':' ∉ (canonicalTactics tactics).toList := by
  intro hc
  rw [toList_canonicalTactics] at hc
  rcases mem_intercalate hc with hcomma | ⟨field, hfield, hmem⟩
  · revert hcomma
    decide
  · obtain ⟨tactic, htactic, rfl⟩ := mem_map.mp hfield
    exact (attackTactics_plain tactic (h tactic (mem_sorted.mp htactic))).2.2 hmem

/-- The canonical text of the tactics says which they are. -/
theorem canonicalTactics_eq_iff {tactics tactics' : List String}
    (h : ∀ tactic ∈ tactics, tactic ∈ attackTactics)
    (h' : ∀ tactic ∈ tactics', tactic ∈ attackTactics) :
    canonicalTactics tactics = canonicalTactics tactics' ↔
      ∀ tactic, tactic ∈ tactics ↔ tactic ∈ tactics' := by
  have hplain : ∀ {names : List String}, (∀ tactic ∈ names, tactic ∈ attackTactics) →
      ∀ field ∈ (names.eraseDups.insertionSort (· ≤ ·)).map String.toList,
        field ≠ [] ∧ ',' ∉ field := by
    intro names hnames field hfield
    obtain ⟨tactic, htactic, rfl⟩ := mem_map.mp hfield
    obtain ⟨hempty, hcomma, -⟩ := attackTactics_plain tactic (hnames tactic (mem_sorted.mp htactic))
    exact ⟨hempty, hcomma⟩
  rw [← sorted_eraseDups_eq_iff]
  constructor
  · intro heq
    have hlists := congrArg String.toList heq
    rw [toList_canonicalTactics, toList_canonicalTactics] at hlists
    have hfields := intercalate_injective (hplain h) (hplain h') hlists
    exact map_injective_iff.mpr (fun _ _ h => String.toList_injective h) hfields
  · intro heq
    rw [canonicalTactics, canonicalTactics, heq]

theorem last_colons {front front' last last' : String} (h : ':' ∉ last.toList)
    (h' : ':' ∉ last'.toList) (heq : front ++ "::" ++ last = front' ++ "::" ++ last') :
    front = front' ∧ last = last' := by
  have hlists := congrArg String.toList heq
  simp only [String.toList_append] at hlists
  have hcolons : ∀ text rest : List Char,
      text ++ "::".toList ++ rest = (text ++ [':']) ++ ':' :: rest := by
    intro text rest
    rw [append_assoc, append_assoc]
    rfl
  rw [hcolons, hcolons] at hlists
  obtain ⟨hfront, hlast⟩ := last_field h h' hlists
  exact ⟨String.toList_injective (append_cancel_right hfront),
    String.toList_injective hlast⟩

theorem first_colons {first first' rest rest' : String} (h : ':' ∉ first.toList)
    (h' : ':' ∉ first'.toList) (heq : first ++ ("::" ++ rest) = first' ++ ("::" ++ rest')) :
    first = first' ∧ rest = rest' := by
  have hlists := congrArg String.toList heq
  simp only [String.toList_append] at hlists
  obtain ⟨hfirst, hrest⟩ := first_field h h' hlists
  exact ⟨String.toList_injective hfirst, String.toList_injective (List.cons.inj hrest).2⟩

/-- Alerts have one key exactly when they are of one group. -/
theorem buildGroupingKey_eq_iff (ha : Groupable a) (hb : Groupable b)
    (htime : (buildGroupingKey a).isSome) :
    buildGroupingKey a = buildGroupingKey b ↔ SameGroup a b := by
  constructor
  · intro heq
    obtain ⟨key, hkey⟩ := Option.isSome_iff_exists.mp htime
    obtain ⟨seconds, hseconds, hsame⟩ := Option.map_eq_some_iff.mp hkey
    obtain ⟨seconds', hseconds', hsame'⟩ := Option.map_eq_some_iff.mp (heq.symm.trans hkey)
    have hkeys := hsame.trans hsame'.symm
    obtain ⟨hfront, hbucket⟩ :=
      last_colons (colon_notMem_toString _) (colon_notMem_toString _) hkeys
    obtain ⟨hfront, htactics⟩ := last_colons (colon_notMem_canonicalTactics ha.tactics)
      (colon_notMem_canonicalTactics hb.tactics) hfront
    obtain ⟨horg, hagent⟩ :=
      last_colons (colon_notMem_uuid ha.agent) (colon_notMem_uuid hb.agent) hfront
    refine ⟨horg, hagent, (canonicalTactics_eq_iff ha.tactics hb.tactics).mp htactics, ?_⟩
    rw [Int.toString_eq_repr, Int.toString_eq_repr] at hbucket
    rw [windowBucket, windowBucket, hseconds, hseconds', Option.map_some, Option.map_some,
      Int.repr_inj.mp hbucket]
  · intro hsame
    have htactics := (canonicalTactics_eq_iff ha.tactics hb.tactics).mpr hsame.tactics
    have hbucket := hsame.bucket
    rw [windowBucket, windowBucket] at hbucket
    rw [buildGroupingKey, buildGroupingKey]
    cases hseconds : eventUnixSeconds a.eventTime with
    | none =>
      rw [hseconds, Option.map_none] at hbucket
      rw [Option.map_eq_none_iff.mp hbucket.symm]
      rfl
    | some seconds =>
      rw [hseconds, Option.map_some] at hbucket
      obtain ⟨seconds', hseconds', hdiv⟩ := Option.map_eq_some_iff.mp hbucket.symm
      rw [hseconds', Option.map_some, Option.map_some, groupingKey, groupingKey, hsame.org,
        hsame.agent, htactics, hdiv]

end Key

/-- `upsertIncident`: the table after its statement, and what it returns. It fails where the
time does not parse. -/
def upsertIncident (incidentId : String) (input : IncidentGroupingInput)
    (incidents : List IncidentRow) : Option (List IncidentRow × UpsertIncidentResult) :=
  (eventUnixSeconds input.eventTime).map fun seconds =>
    let excluded := incidentRow incidentId input seconds
    (upsertRow excluded incidents, upsertResult incidents excluded)

def Triaged (incident changed : IncidentRow) : Prop :=
  changed = { incident with status := changed.status, assignedTo := changed.assignedTo }

structure Upserted where
  input : IncidentGroupingInput
  result : UpsertIncidentResult

/-- The calls made so far, in the order of their statements, and the table. -/
inductive Grouping : List Upserted → List IncidentRow → Prop where
  | empty : Grouping [] []
  | upsert {calls : List Upserted} {incidents incidents' : List IncidentRow} {incidentId : String}
      {input : IncidentGroupingInput} {result : UpsertIncidentResult} :
      Grouping calls incidents →
      upsertIncident incidentId input incidents = some (incidents', result) →
      Grouping (calls ++ [⟨input, result⟩]) incidents'
  | triage {calls : List Upserted} {incidents incidents' : List IncidentRow} :
      Grouping calls incidents → List.Forall₂ Triaged incidents incidents' →
      Grouping calls incidents'

def callsOf (key : String) (calls : List Upserted) : List Upserted :=
  calls.filter fun call => buildGroupingKey call.input = some key

structure Tallies (calls : List Upserted) (incident : IncidentRow) : Prop where
  alertIds : incident.alertIds =
    ((callsOf incident.groupingKey calls).map fun call => call.input.alertId).eraseDups
  severity : IsGreatest {n | ∃ call ∈ callsOf incident.groupingKey calls,
    call.input.severityId = n} incident.severityId
  created : (callsOf incident.groupingKey calls).countP (fun call => call.result.created) = 1

structure Tallied (calls : List Upserted) (incidents : List IncidentRow) : Prop where
  keys : (incidents.map IncidentRow.groupingKey).Nodup
  tallies : ∀ incident ∈ incidents, Tallies calls incident
  grouped : ∀ call ∈ calls, ∃ incident ∈ incidents,
    buildGroupingKey call.input = some incident.groupingKey

section Table
variable {calls : List Upserted} {call : Upserted} {incidents incidents' : List IncidentRow}
variable {incident excluded : IncidentRow} {key : String}

theorem mem_callsOf : call ∈ callsOf key calls ↔
    call ∈ calls ∧ buildGroupingKey call.input = some key := by
  rw [callsOf, mem_filter, decide_eq_true_eq]

theorem callsOf_concat (h : buildGroupingKey call.input = some key) :
    callsOf key (calls ++ [call]) = callsOf key calls ++ [call] := by
  rw [callsOf, filter_append, callsOf, filter_singleton, decide_eq_true h]
  rfl

theorem callsOf_concat_of_ne (h : buildGroupingKey call.input ≠ some key) :
    callsOf key (calls ++ [call]) = callsOf key calls := by
  rw [callsOf, filter_append, callsOf, filter_singleton, decide_eq_false h]
  exact append_nil _

theorem upsertRow_new (h : ∀ row ∈ incidents, row.groupingKey ≠ excluded.groupingKey) :
    upsertRow excluded incidents = incidents ++ [excluded] ∧
      (upsertResult incidents excluded).created = true := by
  constructor
  · induction incidents with
    | nil => rfl
    | cons first rest ih =>
      rw [upsertRow, if_neg (h first mem_cons_self),
        ih fun row hrow => h row (mem_cons_of_mem _ hrow)]
      rfl
  · have hnone : (incidents.find? fun row => row.groupingKey = excluded.groupingKey) = none := by
      rw [List.find?_eq_none]
      intro row hrow
      rw [decide_eq_true_eq]
      exact h row hrow
    rw [upsertResult, hnone]

theorem upsertRow_found (hkeys : (incidents.map IncidentRow.groupingKey).Nodup)
    (hmem : incident ∈ incidents) (hkey : incident.groupingKey = excluded.groupingKey) :
    upsertRow excluded incidents = incidents.map (fun row =>
        if row.groupingKey = excluded.groupingKey then row.correlate excluded else row) ∧
      (upsertResult incidents excluded).created = false := by
  constructor
  · induction incidents with
    | nil => cases hmem
    | cons first rest ih =>
      rw [map_cons, nodup_cons] at hkeys
      rw [upsertRow, map_cons]
      split
      · rename_i hfirst
        have hrest : ∀ row ∈ rest, (if row.groupingKey = excluded.groupingKey then
            row.correlate excluded else row) = id row := by
          intro row hrow
          refine if_neg fun hrowKey => hkeys.1 ?_
          rw [hfirst, ← hrowKey]
          exact mem_map_of_mem hrow
        rw [map_congr_left hrest, map_id]
      · rename_i hfirst
        have hlater : incident ∈ rest := by
          rcases mem_cons.mp hmem with rfl | hlater
          · exact absurd hkey hfirst
          · exact hlater
        rw [ih hkeys.2 hlater]
  · have hfound : (incidents.find? fun row => row.groupingKey = excluded.groupingKey).isSome := by
      rw [List.find?_isSome]
      exact ⟨incident, hmem, decide_eq_true hkey⟩
    obtain ⟨found, hfound⟩ := Option.isSome_iff_exists.mp hfound
    rw [upsertResult, hfound]

theorem Tallies.concat_of_ne (h : Tallies calls incident)
    (hne : buildGroupingKey call.input ≠ some incident.groupingKey) :
    Tallies (calls ++ [call]) incident := by
  have hcalls : callsOf incident.groupingKey (calls ++ [call]) =
      callsOf incident.groupingKey calls := callsOf_concat_of_ne hne
  refine ⟨?_, ?_, ?_⟩
  · rw [hcalls]
    exact h.alertIds
  · rw [hcalls]
    exact h.severity
  · rw [hcalls]
    exact h.created

theorem Tallies.first (hkey : buildGroupingKey call.input = some excluded.groupingKey)
    (hnone : callsOf excluded.groupingKey calls = [])
    (hids : excluded.alertIds = [call.input.alertId])
    (hseverity : excluded.severityId = call.input.severityId)
    (hcreated : call.result.created = true) : Tallies (calls ++ [call]) excluded := by
  have hcalls : callsOf excluded.groupingKey (calls ++ [call]) = [call] := by
    rw [callsOf_concat hkey, hnone]
    rfl
  refine ⟨?_, ?_, ?_⟩
  · rw [hcalls, hids, map_singleton, eraseDups_cons]
    rfl
  · rw [hcalls]
    constructor
    · exact ⟨call, mem_singleton_self _, hseverity.symm⟩
    · rintro n ⟨other, hother, rfl⟩
      rw [mem_singleton.mp hother, hseverity]
  · rw [hcalls, countP_singleton, hcreated]
    rfl

/-- A later call of a key: the alert is appended where it is new, and the severity raised. -/
theorem Tallies.correlate (h : Tallies calls incident)
    (hkey : buildGroupingKey call.input = some incident.groupingKey)
    (hids : excluded.alertIds = [call.input.alertId])
    (hseverity : excluded.severityId = call.input.severityId)
    (hcreated : call.result.created = false) :
    Tallies (calls ++ [call]) (incident.correlate excluded) := by
  have hcalls : callsOf (incident.correlate excluded).groupingKey (calls ++ [call]) =
      callsOf incident.groupingKey calls ++ [call] := callsOf_concat hkey
  obtain ⟨⟨raised, hraised, hmax⟩, hbound⟩ := h.severity
  refine ⟨?_, ?_, ?_⟩
  · rw [hcalls, map_append, map_singleton, eraseDups_concat, ← h.alertIds]
    simp only [IncidentRow.correlate, hids, forall_mem_singleton]
    rw [h.alertIds]
    simp only [mem_eraseDups]
  · rw [hcalls]
    constructor
    · rcases le_total incident.severityId excluded.severityId with hle | hle
      · refine ⟨call, mem_append_right _ (mem_singleton_self _), ?_⟩
        exact hseverity.symm.trans (max_eq_right hle).symm
      · exact ⟨raised, mem_append_left _ hraised, hmax.trans (max_eq_left hle).symm⟩
    · rintro n ⟨other, hother, rfl⟩
      rcases mem_append.mp hother with hold | hnew
      · exact le_trans (hbound ⟨other, hold, rfl⟩) (le_max_left _ _)
      · rw [mem_singleton.mp hnew, ← hseverity]
        exact le_max_right _ _
  · rw [hcalls, countP_append, h.created, countP_singleton, hcreated]
    rfl

end Table

section Run
variable {calls : List Upserted} {incidents incidents' : List IncidentRow}
variable {incidentId : String} {input : IncidentGroupingInput} {result : UpsertIncidentResult}

theorem upsertIncident_spec (h : upsertIncident incidentId input incidents =
    some (incidents', result)) :
    ∃ excluded : IncidentRow, buildGroupingKey input = some excluded.groupingKey ∧
      excluded.alertIds = [input.alertId] ∧ excluded.severityId = input.severityId ∧
      incidents' = upsertRow excluded incidents ∧ result = upsertResult incidents excluded := by
  obtain ⟨seconds, hseconds, heq⟩ := Option.map_eq_some_iff.mp h
  obtain ⟨rfl, rfl⟩ := Prod.mk.inj heq
  refine ⟨incidentRow incidentId input seconds, ?_, rfl, rfl, rfl, rfl⟩
  rw [buildGroupingKey, hseconds]
  rfl

theorem Tallied.upsert (h : Tallied calls incidents)
    (hupsert : upsertIncident incidentId input incidents = some (incidents', result)) :
    Tallied (calls ++ [⟨input, result⟩]) incidents' := by
  obtain ⟨excluded, hkey, hids, hseverity, rfl, rfl⟩ := upsertIncident_spec hupsert
  by_cases hthere : ∃ incident ∈ incidents, incident.groupingKey = excluded.groupingKey
  · obtain ⟨incident, hmem, hsame⟩ := hthere
    obtain ⟨hrows, hcreated⟩ := upsertRow_found h.keys hmem hsame
    have hkeep : ∀ row : IncidentRow, (if row.groupingKey = excluded.groupingKey then
        row.correlate excluded else row).groupingKey = row.groupingKey := by
      intro row
      split <;> rfl
    rw [hrows]
    refine ⟨?_, ?_, ?_⟩
    · have hsameKeys : (incidents.map fun row => if row.groupingKey = excluded.groupingKey then
          row.correlate excluded else row).map IncidentRow.groupingKey =
          incidents.map IncidentRow.groupingKey := by
        rw [map_map]
        exact map_congr_left fun row _ => hkeep row
      rw [hsameKeys]
      exact h.keys
    · intro row hrow
      obtain ⟨old, hold, rfl⟩ := mem_map.mp hrow
      split
      · rename_i holdKey
        refine (h.tallies old hold).correlate ?_ hids hseverity hcreated
        rw [holdKey]
        exact hkey
      · rename_i holdKey
        refine (h.tallies old hold).concat_of_ne fun heq => holdKey ?_
        exact Option.some.inj (heq.symm.trans hkey)
    · intro call hcall
      rcases mem_append.mp hcall with hold | hnew
      · obtain ⟨row, hrow, hrowKey⟩ := h.grouped call hold
        exact ⟨_, mem_map_of_mem hrow, hrowKey.trans (congrArg some (hkeep row).symm)⟩
      · rw [mem_singleton.mp hnew]
        refine ⟨_, mem_map_of_mem hmem, hkey.trans (congrArg some ?_)⟩
        rw [hkeep incident, hsame]
  · have hfresh : ∀ row ∈ incidents, row.groupingKey ≠ excluded.groupingKey :=
      fun row hrow heq => hthere ⟨row, hrow, heq⟩
    obtain ⟨hrows, hcreated⟩ := upsertRow_new hfresh
    have hnone : callsOf excluded.groupingKey calls = [] := by
      apply eq_nil_iff_forall_not_mem.mpr
      intro call hcall
      obtain ⟨hmem, hcallKey⟩ := mem_callsOf.mp hcall
      obtain ⟨row, hrow, hrowKey⟩ := h.grouped call hmem
      exact hfresh row hrow (Option.some.inj (hrowKey.symm.trans hcallKey))
    rw [hrows]
    refine ⟨?_, ?_, ?_⟩
    · rw [map_append]
      refine h.keys.append (nodup_singleton _) (disjoint_singleton.mpr ?_)
      intro hmem
      obtain ⟨row, hrow, hrowKey⟩ := mem_map.mp hmem
      exact hfresh row hrow hrowKey
    · intro row hrow
      rcases mem_append.mp hrow with hold | hnew
      · refine (h.tallies row hold).concat_of_ne fun heq => hfresh row hold ?_
        exact Option.some.inj (heq.symm.trans hkey)
      · rw [mem_singleton.mp hnew]
        exact Tallies.first hkey hnone hids hseverity hcreated
    · intro call hcall
      rcases mem_append.mp hcall with hold | hnew
      · obtain ⟨row, hrow, hrowKey⟩ := h.grouped call hold
        exact ⟨row, mem_append_left _ hrow, hrowKey⟩
      · rw [mem_singleton.mp hnew]
        exact ⟨excluded, mem_append_right _ (mem_singleton_self _), hkey⟩

theorem Triaged.groupingKey {incident changed : IncidentRow} (h : Triaged incident changed) :
    changed.groupingKey = incident.groupingKey := by
  rw [h]

theorem triaged_keys (h : List.Forall₂ Triaged incidents incidents') :
    incidents'.map IncidentRow.groupingKey = incidents.map IncidentRow.groupingKey := by
  induction h with
  | nil => rfl
  | cons hchanged _ ih => rw [map_cons, map_cons, ih, hchanged.groupingKey]

theorem exists_untriaged (h : List.Forall₂ Triaged incidents incidents') {changed : IncidentRow}
    (hmem : changed ∈ incidents') : ∃ incident ∈ incidents, Triaged incident changed := by
  induction h with
  | nil => cases hmem
  | cons hfirst _ ih =>
    rcases mem_cons.mp hmem with rfl | hlater
    · exact ⟨_, mem_cons_self, hfirst⟩
    · obtain ⟨incident, hincident, hchanged⟩ := ih hlater
      exact ⟨incident, mem_cons_of_mem _ hincident, hchanged⟩

/-- What people set is in no tally. -/
theorem Tallied.triage (h : Tallied calls incidents)
    (htriage : List.Forall₂ Triaged incidents incidents') : Tallied calls incidents' := by
  have hkeys := triaged_keys htriage
  refine ⟨?_, ?_, ?_⟩
  · rw [hkeys]
    exact h.keys
  · intro changed hmem
    obtain ⟨incident, hincident, hchanged⟩ := exists_untriaged htriage hmem
    obtain ⟨hids, hseverity, hcreated⟩ := h.tallies incident hincident
    rw [hchanged]
    exact ⟨hids, hseverity, hcreated⟩
  · intro call hcall
    obtain ⟨incident, hincident, hkey⟩ := h.grouped call hcall
    have hthere : incident.groupingKey ∈ incidents'.map IncidentRow.groupingKey := by
      rw [hkeys]
      exact mem_map_of_mem hincident
    obtain ⟨changed, hchanged, hsame⟩ := mem_map.mp hthere
    exact ⟨changed, hchanged, hkey.trans (congrArg some hsame.symm)⟩

theorem tallied (h : Grouping calls incidents) : Tallied calls incidents := by
  induction h with
  | empty =>
    refine ⟨nodup_nil, ?_, ?_⟩
    · intro incident hmem
      cases hmem
    · intro call hmem
      cases hmem
  | upsert _ hupsert ih => exact ih.upsert hupsert
  | triage _ htriage ih => exact ih.triage htriage

/-- The columns of an incident that no statement of `upsertIncident` sets. -/
structure Undisturbed (incident after : IncidentRow) : Prop where
  incidentId : after.incidentId = incident.incidentId
  groupingKey : after.groupingKey = incident.groupingKey
  status : after.status = incident.status
  assignedTo : after.assignedTo = incident.assignedTo
  title : after.title = incident.title
  cgMitre : after.cgMitre = incident.cgMitre

theorem Undisturbed.refl (incident : IncidentRow) : Undisturbed incident incident :=
  ⟨rfl, rfl, rfl, rfl, rfl, rfl⟩

theorem upsertRow_undisturbed (excluded : IncidentRow) (incidents : List IncidentRow) :
    List.Forall₂ Undisturbed incidents ((upsertRow excluded incidents).take incidents.length) := by
  induction incidents with
  | nil => exact .nil
  | cons first rest ih =>
    rw [upsertRow]
    split
    · rw [length_cons, take_succ_cons, take_length]
      refine .cons ⟨rfl, rfl, rfl, rfl, rfl, rfl⟩ ?_
      exact List.forall₂_same.mpr fun row _ => Undisturbed.refl row
    · exact .cons (Undisturbed.refl first) ih

theorem Tallied.mem_alertIds_iff (h : Tallied calls incidents)
    (halert : ∀ a ∈ calls, ∀ b ∈ calls, a.input.alertId = b.input.alertId → a.input = b.input)
    {call : Upserted} {incident : IncidentRow} (hcall : call ∈ calls)
    (hincident : incident ∈ incidents) :
    call.input.alertId ∈ incident.alertIds ↔
      buildGroupingKey call.input = some incident.groupingKey := by
  rw [(h.tallies incident hincident).alertIds, mem_eraseDups, mem_map]
  constructor
  · rintro ⟨other, hother, hid⟩
    obtain ⟨hmem, hkey⟩ := mem_callsOf.mp hother
    rw [← halert other hmem call hcall hid]
    exact hkey
  · intro hkey
    exact ⟨call, mem_callsOf.mpr ⟨hcall, hkey⟩, rfl⟩

/-- Incidents partition the alerts by org, agent, set of tactics and bucket, and keep what
people set. Calls for one alert id are for one alert, the row of that primary key. -/
theorem incidents_partition_alerts (h : Grouping calls incidents)
    (hinput : ∀ call ∈ calls, Groupable call.input)
    (halert : ∀ a ∈ calls, ∀ b ∈ calls, a.input.alertId = b.input.alertId → a.input = b.input) :
    (∀ a ∈ calls, ∀ b ∈ calls,
      (∃ incident ∈ incidents, a.input.alertId ∈ incident.alertIds ∧
        b.input.alertId ∈ incident.alertIds) ↔ SameGroup a.input b.input) ∧
    (∀ incident ∈ incidents, incident.alertIds.Nodup ∧
      incident.alertIds = ((calls.filter fun call => call.input.alertId ∈ incident.alertIds).map
        fun call => call.input.alertId).eraseDups ∧
      IsGreatest {n | ∃ call ∈ calls, call.input.alertId ∈ incident.alertIds ∧
        call.input.severityId = n} incident.severityId) ∧
    (∀ incidentId input incidents' result,
      upsertIncident incidentId input incidents = some (incidents', result) →
      List.Forall₂ Undisturbed incidents (incidents'.take incidents.length)) ∧
    ∀ a ∈ calls, calls.countP (fun call => buildGroupingKey call.input =
      buildGroupingKey a.input && call.result.created) = 1 := by
  have htally := tallied h
  refine ⟨?_, ?_, ?_, ?_⟩
  · intro a ha b hb
    obtain ⟨own, hown, hownKey⟩ := htally.grouped a ha
    have hkeys := buildGroupingKey_eq_iff (hinput a ha) (hinput b hb) (by rw [hownKey]; rfl)
    rw [← hkeys]
    constructor
    · rintro ⟨incident, hincident, hina, hinb⟩
      rw [(htally.mem_alertIds_iff halert ha hincident).mp hina,
        (htally.mem_alertIds_iff halert hb hincident).mp hinb]
    · intro heq
      refine ⟨own, hown, (htally.mem_alertIds_iff halert ha hown).mpr hownKey, ?_⟩
      exact (htally.mem_alertIds_iff halert hb hown).mpr (heq.symm.trans hownKey)
  · intro incident hincident
    obtain ⟨hids, ⟨⟨raised, hraised, hmax⟩, hbound⟩, -⟩ := htally.tallies incident hincident
    have hmembers : (calls.filter fun call => call.input.alertId ∈ incident.alertIds) =
        callsOf incident.groupingKey calls := by
      apply filter_congr
      intro call hcall
      rw [decide_eq_decide]
      exact htally.mem_alertIds_iff halert hcall hincident
    refine ⟨?_, ?_, ?_, ?_⟩
    · rw [hids]
      exact nodup_eraseDups _
    · rw [hmembers]
      exact hids
    · obtain ⟨hcall, hkey⟩ := mem_callsOf.mp hraised
      exact ⟨raised, hcall, (htally.mem_alertIds_iff halert hcall hincident).mpr hkey, hmax⟩
    · rintro n ⟨call, hcall, hid, rfl⟩
      have hkey := (htally.mem_alertIds_iff halert hcall hincident).mp hid
      exact hbound ⟨call, mem_callsOf.mpr ⟨hcall, hkey⟩, rfl⟩
  · intro incidentId input incidents' result hupsert
    obtain ⟨excluded, -, -, -, rfl, -⟩ := upsertIncident_spec hupsert
    exact upsertRow_undisturbed excluded incidents
  · intro a ha
    obtain ⟨own, hown, hownKey⟩ := htally.grouped a ha
    have hcreated := (htally.tallies own hown).created
    rw [callsOf, countP_filter] at hcreated
    rw [hownKey, ← hcreated]
    apply countP_congr
    intro call _
    rw [Bool.and_comm]

end Run

section Sample

def sampleAgent : Agent.Uuid := ⟨List.replicate 16 7, rfl⟩

def sampleInput (alertId : String) (tactics : List String) (severityId : Nat) :
    IncidentGroupingInput where
  alertId := alertId
  orgId := "org"
  agentId := sampleAgent.text
  cgMitre := ⟨tactics, []⟩
  eventTime := "2026-05-28 19:47:10.000000100"
  severityId := severityId

/-- Two alerts of one set of tactics, named in another order. -/
def sampleInputs : List IncidentGroupingInput :=
  [sampleInput (sampleId 1) ["execution", "persistence"] 3,
    sampleInput (sampleId 2) ["persistence", "execution"] 5]

theorem upsertIncident_sample (incidentId alertId : String) (tactics : List String)
    (severityId : Nat) (incidents : List IncidentRow) :
    ∃ incidents' result, upsertIncident incidentId (sampleInput alertId tactics severityId)
      incidents = some (incidents', result) := by
  have hseconds : eventUnixSeconds "2026-05-28 19:47:10.000000100" = some 1779997630 := by
    decide +kernel
  rw [upsertIncident, sampleInput, hseconds]
  exact ⟨_, _, rfl⟩

theorem sample_grouping : ∃ calls incidents, Grouping calls incidents ∧
    calls.map Upserted.input = sampleInputs := by
  obtain ⟨one, result, hone⟩ :=
    upsertIncident_sample (sampleId 3) (sampleId 1) ["execution", "persistence"] 3 []
  -- someone takes the incident before the second alert comes
  obtain ⟨two, result', htwo⟩ := upsertIncident_sample (sampleId 4) (sampleId 2)
    ["persistence", "execution"] 5 (one.map fun row => { row with assignedTo := some "analyst" })
  have htriage : List.Forall₂ Triaged one
      (one.map fun row => { row with assignedTo := some "analyst" }) := by
    rw [List.forall₂_map_right_iff]
    exact List.forall₂_same.mpr fun row _ => rfl
  exact ⟨_, two, .upsert (.triage (.upsert .empty hone) htriage) htwo, rfl⟩

/-- The two alerts are in one incident. -/
theorem sample_alerts_together : ∃ calls incidents, Grouping calls incidents ∧
    calls.map Upserted.input = sampleInputs ∧
    ∃ incident ∈ incidents, sampleId 1 ∈ incident.alertIds ∧ sampleId 2 ∈ incident.alertIds := by
  obtain ⟨calls, incidents, hgrouping, hinputs⟩ := sample_grouping
  have hmem : ∀ {call : Upserted}, call ∈ calls → call.input ∈ sampleInputs := by
    intro call hcall
    rw [← hinputs]
    exact mem_map_of_mem hcall
  have hgroupable : ∀ input ∈ sampleInputs, Groupable input := by
    have htactics : ∀ input ∈ sampleInputs, ∀ tactic ∈ input.cgMitre.tactics,
        tactic ∈ attackTactics := by decide
    intro input hinput
    refine ⟨?_, htactics input hinput⟩
    rcases mem_pair.mp hinput with rfl | rfl <;> exact Accepted.uuid_accepted sampleAgent
  have hdistinct : ∀ a ∈ sampleInputs, ∀ b ∈ sampleInputs, a.alertId = b.alertId → a = b := by
    decide
  obtain ⟨a, ha, hfirst⟩ := mem_map.mp (hinputs.symm ▸ mem_cons_self :
    sampleInput (sampleId 1) ["execution", "persistence"] 3 ∈ calls.map Upserted.input)
  obtain ⟨b, hb, hsecond⟩ := mem_map.mp (hinputs.symm ▸ mem_cons_of_mem _
    mem_cons_self : sampleInput (sampleId 2) ["persistence", "execution"] 5 ∈
      calls.map Upserted.input)
  have hsame : SameGroup a.input b.input := by
    rw [hfirst, hsecond]
    refine ⟨rfl, rfl, ?_, rfl⟩
    intro tactic
    exact (List.Perm.swap _ _ _).mem_iff
  obtain ⟨incident, hincident, hina, hinb⟩ := ((incidents_partition_alerts hgrouping
    (fun call hcall => hgroupable _ (hmem hcall))
    fun a ha b hb => hdistinct _ (hmem ha) _ (hmem hb)).1 a ha b hb).mpr hsame
  rw [hfirst] at hina
  rw [hsecond] at hinb
  exact ⟨calls, incidents, hgrouping, hinputs, incident, hincident, hina, hinb⟩

end Sample

end CyberGuard.Detect
