import CyberGuard.Detect.Cycle

/-!
# Alerts and the incidents they belong to

An alert is grouped by the cycle that inserted it, in a second statement of its own.
A later match of the same key writes nothing and is not grouped: the cycle takes it
that the first insert was. So an alert is in its incident, or a cycle stands
between the two statements for it, as long as no cycle ends there.
-/

namespace CyberGuard.Detect
set_option autoImplicit false
open List
open CyberGuard.Ingest.Heartbeat (StoredRow)
open Interleaving StoreCalls

def Grouped (s : Store) (alert : AlertRow) : Prop :=
  ∃ incident ∈ s.incidents, incident.groupingKey = alert.groupingKey ∧
    alert.alertId ∈ incident.alertIds

def Pc.ungrouped : Pc → Option (RuleMatch × String)
  | .upserted _ m (some alertId) => some (m, alertId)
  | .upsertIncident _ m alertId => some (m, alertId)
  | _ => none

def Pc.ended : Pc → Bool
  | .returned _ | .rejected => true
  | _ => false

section Grouping
variable {H : Host} (D : Driver)

def Awaits (pc : Pc) (alert : AlertRow) : Prop :=
  ∃ m seconds, pc.ungrouped = some (m, alert.alertId) ∧
    eventUnixSeconds m.sourceEvent.time = some seconds ∧
    alert.groupingKey =
      groupingKey D.config.orgId m.sourceEvent.agentId m.cgMitre.tactics seconds

/-- A cycle does not end in `upsertAlert` after its `INSERT` took effect, nor in `upsertIncident`
before its statement did. -/
def Finishes (s : Store) (pc : Pc) (s' : Store) (pc' : Pc) : Prop :=
  pc' = .rejected →
    match pc with
    | .upsertAlert _ _ _ => s'.alerts = s.alerts
    | .upsertIncident _ m alertId =>
      ∃ id, s'.incidents = writeIncident s.incidents (excludedRow D id alertId m)
    | _ => True

def Attended (p : Pool Store Pc) : Prop :=
  ∀ alert ∈ p.store.alerts, Grouped p.store alert ∨
    ∃ (i : Nat) (pc : Pc), p.threads[i]? = some pc ∧ Awaits D pc alert

variable {D}

variable {pc : Pc} {alert : AlertRow} {input : Input} {s s' : Store} {p q : Pool Store Pc}

theorem Awaits.not_ended (h : Awaits D pc alert) :
    pc.ended = false := by
  obtain ⟨m, seconds, hpc, _⟩ := h
  cases pc with
  | returned result => cases hpc
  | rejected => cases hpc
  | _ => rfl

/-- An alert stays in its incident whatever a cycle writes. -/
theorem Grouped.effect (h : Grouped s alert) : Grouped (effect D input s pc) alert := by
  obtain ⟨incident, hincident, hkey, hid⟩ := h
  cases pc with
  | upsertIncident batch m alertId =>
    cases hexcluded : excludedRow D input.id alertId m with
    | none =>
      refine ⟨incident, ?_, hkey, hid⟩
      simp only [Detect.effect, hexcluded, writeIncident]
      exact hincident
    | some excluded =>
      obtain ⟨found, hfound, hsame, hmem⟩ := mem_upsertRow_of_mem excluded hincident hid
      refine ⟨found, ?_, hsame.trans hkey, hmem⟩
      simp only [Detect.effect, hexcluded, writeIncident]
      exact hfound
  | _ => exact ⟨incident, hincident, hkey, hid⟩

theorem Grouped.environment (h : Grouped s alert) (henv : Environment D s s') :
    Grouped s' alert := by
  obtain ⟨incident, hincident, hkey, hid⟩ := h
  cases henv with
  | triage status assignedTo => exact ⟨_, mem_map_of_mem hincident, hkey, hid⟩
  | tick | appear | merge => exact ⟨incident, hincident, hkey, hid⟩

theorem grouped_upsertIncident (input : Input) (s : Store) {batch : Batch} {m : RuleMatch}
    {alertId : String} (h : Awaits D (.upsertIncident batch m alertId) alert) :
    Grouped (effect D input s (.upsertIncident batch m alertId)) alert := by
  obtain ⟨m', seconds, hpc, hseconds, hkey⟩ := h
  obtain ⟨rfl, rfl⟩ := Prod.mk.inj (Option.some.inj hpc)
  have hexcluded : excludedRow D input.id alert.alertId m = some (incidentRow input.id
      (groupingInput D.config alert.alertId m) seconds) := by
    rw [excludedRow, hseconds]
    rfl
  obtain ⟨incident, hincident, hsame, hmem⟩ := exists_mem_upsertRow
    (incidentRow input.id (groupingInput D.config alert.alertId m) seconds) s.incidents
  refine ⟨incident, ?_, hsame.trans hkey.symm, hmem alert.alertId mem_cons_self⟩
  simp only [effect, hexcluded, writeIncident]
  exact hincident

theorem Awaits.answered (h : Awaits D pc alert) :
    Grouped (effect D input s pc) alert ∨ Awaits D (resume H D input s pc) alert := by
  cases pc with
  | upserted batch m alertId =>
    cases alertId with
    | none =>
      obtain ⟨_, _, hpc, _⟩ := h
      cases hpc
    | some alertId => exact Or.inr h
  | upsertIncident batch m alertId => exact Or.inl (grouped_upsertIncident input s h)
  | _ =>
    obtain ⟨_, _, hpc, _⟩ := h
    cases hpc

theorem awaits_of_inserted (h : alert ∈ (effect D input s pc).alerts) :
    alert ∈ s.alerts ∨ Awaits D (resume H D input s pc) alert := by
  cases pc with
  | upsertAlert batch rule m =>
    rcases mem_insertAlert h with hold | hnew
    · exact Or.inl hold
    · obtain ⟨seconds, hseconds, rfl⟩ := newAlert_spec hnew
      refine Or.inr ⟨m, seconds, ?_, hseconds, rfl⟩
      change ((Pc.upserted batch m ((newAlert D.config s.alerts input.id rule m).map
        (·.alertId))).ungrouped) = _
      rw [hnew]
      rfl
  | _ => exact Or.inl h

theorem Finishes.alerts (h : Finishes D s pc s' .rejected)
    (hcut : s' = s ∨ ∃ input, admissible H D input s pc ∧ s' = effect D input s pc) :
    s'.alerts = s.alerts := by
  rcases hcut with rfl | ⟨input, _, heffect⟩
  · rfl
  · cases pc with
    | upsertAlert batch rule m => exact h rfl
    | _ => rw [heffect]; rfl

theorem Finishes.grouped (h : Finishes D s pc s' .rejected) (hwaits : pc.waits = true)
    (hawaits : Awaits D pc alert) : Grouped s' alert := by
  cases pc with
  | upsertIncident batch m alertId =>
    obtain ⟨id, hincidents⟩ := h rfl
    obtain ⟨incident, hincident, hfound⟩ := grouped_upsertIncident { id := id } s hawaits
    refine ⟨incident, ?_, hfound⟩
    rw [hincidents]
    exact hincident
  | upserted batch m alertId => cases hwaits
  | _ =>
    obtain ⟨_, _, hpc, _⟩ := hawaits
    cases hpc

theorem Attended.step (h : Attended D p) (hstep : Step ((detection H D).restrict
    (Finishes D)) p q) :
    Attended D q := by
  cases hstep with
  | @spawn s ts pc hstart =>
    intro alert halert
    rcases h alert halert with hgrouped | ⟨i, qc, hi, hawaits⟩
    · exact Or.inl hgrouped
    · refine Or.inr ⟨i, qc, ?_, hawaits⟩
      rw [List.getElem?_append_left (List.getElem?_eq_some_iff.mp hi).1]
      exact hi
  | @act s s' ts i pc pc' hi hact =>
    obtain ⟨hact, hfinishes⟩ := hact
    have hlt : i < ts.length := (List.getElem?_eq_some_iff.mp hi).1
    have hself : (ts.set i pc')[i]? = some pc' := List.getElem?_set_self hlt
    -- an alert that was there, by who awaited it; one that is new, by the cycle that inserted it
    have hother : ∀ alert ∈ s.alerts, (Grouped s alert → Grouped s' alert) →
        (Awaits D pc alert → Grouped s' alert ∨ Awaits D pc' alert) →
        Grouped s' alert ∨ ∃ (j : Nat) (qc : Pc), (ts.set i pc')[j]? = some qc ∧
          Awaits D qc alert := by
      intro alert halert hkeep hnext
      rcases h alert halert with hgrouped | ⟨j, qc, hj, hawaits⟩
      · exact Or.inl (hkeep hgrouped)
      · by_cases hij : i = j
        · subst hij
          obtain rfl : pc = qc := Option.some.inj (hi.symm.trans hj)
          exact (hnext hawaits).imp id fun hself' => ⟨i, pc', hself, hself'⟩
        · refine Or.inr ⟨j, qc, ?_, hawaits⟩
          rw [List.getElem?_set_ne hij]
          exact hj
    intro alert halert
    rcases act_spec hact with ⟨input, _, rfl, rfl⟩ | ⟨hwaits, rfl, hcut⟩
    · rcases awaits_of_inserted halert with hold | hnew
      · exact hother alert hold Grouped.effect Awaits.answered
      · exact Or.inr ⟨i, _, hself, hnew⟩
    · rw [hfinishes.alerts hcut] at halert
      refine hother alert halert ?_ fun hawaits => Or.inl (hfinishes.grouped hwaits hawaits)
      rcases hcut with rfl | ⟨input, _, rfl⟩
      · exact id
      · exact Grouped.effect
  | @env s s' ts henv =>
    intro alert halert
    have hold : alert ∈ s.alerts := by cases henv <;> exact halert
    exact (h alert hold).imp (fun hgrouped => hgrouped.environment henv) id

/-- In every run in which no cycle ends between the insert of an alert and the upsert of its
incident, every alert is in the incident of its key or a cycle is about to put it there; when all
cycles have ended, every alert is in it. -/
theorem alerts_grouped_unless_cut {s₀ : Store} {q : Pool Store Pc}
    (hstart : ∀ alert ∈ s₀.alerts, Grouped s₀ alert)
    (hrun : Run ((detection H D).restrict (Finishes D)) ⟨s₀, []⟩ q) :
    Attended D q ∧ ((∀ pc ∈ q.threads, pc.ended = true) →
      ∀ alert ∈ q.store.alerts, Grouped q.store alert) := by
  have hattended : Attended D q := by
    refine run_invariant (fun _ _ => Attended.step) hrun ?_
    exact fun alert halert => Or.inl (hstart alert halert)
  refine ⟨hattended, ?_⟩
  intro hended alert halert
  rcases hattended alert halert with hgrouped | ⟨i, pc, hi, hawaits⟩
  · exact hgrouped
  · have hpc := hended pc (mem_of_getElem? hi)
    rw [hawaits.not_ended] at hpc
    cases hpc

/-- A cycle that ended early is seen among the threads for ever. -/
theorem rejected_stays (h : Step (detection H D) p q) (hp : Pc.rejected ∈ p.threads) :
    Pc.rejected ∈ q.threads := by
  cases h with
  | spawn hstart => exact mem_append_left _ hp
  | @act s s' ts i pc pc' hi hact =>
    obtain ⟨j, hj⟩ := mem_iff_getElem?.mp hp
    by_cases hij : i = j
    · subst hij
      obtain rfl : pc = .rejected := Option.some.inj (hi.symm.trans hj)
      rcases act_spec hact with ⟨input, hadmissible, _, _⟩ | ⟨hwaits, _, _⟩
      · exact hadmissible.elim
      · cases hwaits
    · refine mem_of_getElem? (i := j) ?_
      rw [List.getElem?_set_ne hij]
      exact hj
  | env henv => exact hp

theorem run_restrict (h : Run (detection H D) p q) (hq : Pc.rejected ∉ q.threads) :
    Run ((detection H D).restrict (Finishes D)) p q := by
  induction h with
  | refl => exact .refl
  | @tail q r _ hstep ih =>
    refine (ih fun hrejected => hq (rejected_stays hstep hrejected)).tail ?_
    cases hstep with
    | spawn hstart => exact .spawn hstart
    | @act s s' ts i pc pc' hi hact =>
      refine .act hi ⟨hact, ?_⟩
      rintro rfl
      exact absurd (mem_set (List.getElem?_eq_some_iff.mp hi).1 Pc.rejected) hq
    | env henv => exact .env henv

end Grouping

theorem sample_alert_grouped : ∃ q : Pool Store Pc, q.store.alerts ≠ [] ∧
    Run ((detection sampleHost sampleDriver).restrict (Finishes sampleDriver))
      ⟨sampleStore [sampleLaunch (sampleId 1)], []⟩ q ∧
    ∀ alert ∈ q.store.alerts, Grouped q.store alert := by
  obtain ⟨q, hrun, _, _, _, hthreads, halerts, _⟩ := sample_run (sampleId 1)
  have hkept := run_restrict hrun (by rw [hthreads]; simp)
  refine ⟨q, halerts, hkept, (alerts_grouped_unless_cut ?_ hkept).2 ?_⟩
  · intro alert halert
    cases halert
  · rw [hthreads]
    intro pc hpc
    rw [mem_singleton.mp hpc]
    rfl

/-- What a cycle leaves that fails between the two statements. -/
def cutStore : Store :=
  { sampleStore [sampleLaunch (sampleId 1)] with
    alerts := [alertRow sampleDriver.config (sampleId 2) sampleRule
      (sampleMatch (normalize (sampleLaunch (sampleId 1)) none)) 1779997630]
    evaluated := [(normalize (sampleLaunch (sampleId 1)) none, sampleRule)]
    upserted := [sampleMatch (normalize (sampleLaunch (sampleId 1)) none)] }

theorem cut_run : Run (detection sampleHost sampleDriver) ⟨sampleStore [sampleLaunch (sampleId 1)], []⟩
    ⟨cutStore, [.rejected]⟩ := by
  have hread := run_to_evaluate (H := sampleHost) (D := sampleDriver)
    (s := sampleStore [sampleLaunch (sampleId 1)]) [] (sample_read_one (sampleId 1)) rfl rfl
  have hinserted := run_matched (H := sampleHost) (D := sampleDriver) []
    (sample_matches (sampleId 1) none) [] (sampleStore [sampleLaunch (sampleId 1)])
    (rowCursor (sampleLaunch (sampleId 1))) 1 0 (sampleId 2) (fun alert halert => by cases halert)
    (by rw [sample_seconds _ rfl]; rfl)
  rw [show (sampleStore [sampleLaunch (sampleId 1)]).alerts = [] from rfl, insertAlert,
    sample_newAlert (normalize (sampleLaunch (sampleId 1)) none) rfl, Option.map_some] at hinserted
  have hreturned := hinserted.tail (step_answered _ [] (.upserted _ _ (some (sampleId 2))) {} trivial)
  exact (hread.trans hreturned).tail (step_failed _ [] rfl)

theorem cut_newAlert (alertId : String) : newAlert sampleDriver.config cutStore.alerts
    alertId sampleRule (sampleMatch (normalize (sampleLaunch (sampleId 1)) none)) = none := by
  rw [newAlert, sample_seconds _ rfl]
  refine if_pos (any_eq_true.mpr ⟨_, mem_cons_self, ?_⟩)
  exact decide_eq_true_iff.mpr rfl

/-- A cycle inserts an alert and fails before its incident is written. The next cycle reads the
same row and ends without a failure; the deduplication key is there, so nothing is grouped. -/
theorem alert_left_ungrouped : ∃ q : Pool Store Pc,
    Run (detection sampleHost sampleDriver) ⟨sampleStore [sampleLaunch (sampleId 1)], []⟩ q ∧
    q.threads = [.rejected, .returned ⟨some (rowCursor (sampleLaunch (sampleId 1))), 1, 0⟩] ∧
    ∃ alert ∈ q.store.alerts, ¬Grouped q.store alert := by
  have hread := run_to_evaluate (H := sampleHost) (D := sampleDriver) (s := cutStore) [.rejected]
    (sample_read_one (sampleId 1)) rfl rfl
  have hfresh : ∀ alert ∈ cutStore.alerts, alert.alertId ≠ sampleId 4 := by
    intro alert halert
    rw [mem_singleton.mp halert]
    decide
  have hrefire := run_matched (H := sampleHost) (D := sampleDriver) [.rejected]
    (sample_matches (sampleId 1) none) [] cutStore (rowCursor (sampleLaunch (sampleId 1))) 1 0 (sampleId 4)
    hfresh (by rw [sample_seconds _ rfl]; rfl)
  rw [insertAlert, cut_newAlert, Option.map_none] at hrefire
  have hreturned := hrefire.tail (step_answered _ [.rejected] (.upserted _ _ none) {} trivial)
  have hend := hreturned.trans (run_unmatched [.rejected] [] (fun pair hpair => by cases hpair) _ _ _ _)
  refine ⟨_, (cut_run.trans hread).trans hend, rfl, _, mem_cons_self, ?_⟩
  rintro ⟨incident, hincident, _⟩
  cases hincident

end CyberGuard.Detect
