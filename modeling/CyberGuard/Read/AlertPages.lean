import CyberGuard.Read.Paging
import Mathlib.Data.List.Chain

/-!
# Pages of alerts while alerts are written

`upsertAlert` writes an alert once and never changes it. The time it writes is that of a
`DateTime64(9)` text, cut to the second, so the cursor of an alert stands for its key and
is taken back. New alerts may land anywhere among those already returned or still to come.
-/

namespace CyberGuard.Read
set_option autoImplicit false
open Checks KeysetPaging CyberGuard.Ingest CyberGuard.Detect Relation List

/-- The year of a `DateTime64(9)` text: the column holds none before 1900. -/
def IsDateTime64 (time : String) : Prop :=
  ∃ year, bigInt (slice time 0 4) = some year ∧ 1900 ≤ year

/-- One `upsertAlert`: the `uuidv7()` of the call is new, and the time is one ClickHouse returns. -/
inductive UpsertAlert (alerts : List AlertRow) : List AlertRow → Prop where
  | upsert (c : DetectConfig) (uuid : Agent.Uuid) (rule : SigmaRule) (m : RuleMatch) :
      (∀ alert ∈ alerts, alert.alertId ≠ uuid.text) → IsDateTime64 m.sourceEvent.time →
      UpsertAlert alerts (insertAlert c alerts uuid.text rule m)

abbrev Upserts : List AlertRow → List AlertRow → Prop := ReflTransGen UpsertAlert

/-- A table that `upsertAlert` wrote. -/
structure AlertTable (alerts : List AlertRow) : Prop where
  ids : ∀ alert ∈ alerts, CanonicalUuid alert.alertId
  years : ∀ alert ∈ alerts, InYears (alert.eventTime * 1000)
  primaryKey : (alerts.map AlertRow.alertId).Nodup

theorem eventUnixSeconds_inYears {time : String} {seconds : Int} (htime : IsDateTime64 time)
    (h : eventUnixSeconds time = some seconds) : InYears (seconds * 1000) := by
  obtain ⟨year, hyear, hlow⟩ := htime
  have hlength : 4 ≤ time.toList.length := by
    by_contra hshort
    have hlt := bigInt_lt hyear
    rw [slice, String.toList_ofList, length_drop, length_take] at hlt
    have hpow : 10 ^ (min 4 time.toList.length - 0) ≤ 10 ^ 3 :=
      Nat.pow_le_pow_right (by decide) (by omega)
    omega
  unfold eventUnixSeconds at h
  obtain ⟨millis, hparse, hseconds⟩ := Option.map_eq_some_iff.mp h
  have hslice : slice (slice time 0 10 ++ "T" ++ slice time 11 19 ++ "Z") 0 4 = slice time 0 4 := by
    have hten : (time.toList.take 10).length ≥ 4 := by
      rw [length_take]
      omega
    simp only [slice, String.toList_append, String.toList_ofList, drop_zero, append_assoc]
    rw [take_append_of_le_length hten, take_take]
    rfl
  have hyears := dateParse_inYears hparse (by
    rw [hslice, hyear]
    intro hzero
    have := Option.some.inj hzero
    omega)
  obtain ⟨hfrom, hto⟩ := hyears
  rw [InYears, ← hseconds]
  omega

variable {alerts alerts' : List AlertRow}

theorem AlertTable.upsert (h : AlertTable alerts) (hupsert : UpsertAlert alerts alerts') :
    AlertTable alerts' := by
  obtain ⟨c, uuid, rule, m, hnew, htime⟩ := hupsert
  cases hrow : newAlert c alerts uuid.text rule m with
  | none =>
    rw [insertAlert, hrow]
    simpa using h
  | some alert =>
    obtain ⟨seconds, hseconds, halert⟩ := newAlert_spec hrow
    have hid : alert.alertId = uuid.text := by rw [halert]; rfl
    have hmem {alert' : AlertRow} (hmem' : alert' ∈ alerts ++ [alert]) :
        alert' ∈ alerts ∨ alert' = alert := by
      simpa using hmem'
    rw [insertAlert, hrow, Option.toList_some]
    refine ⟨?_, ?_, ?_⟩
    · intro alert' halert'
      rcases hmem halert' with hold | rfl
      · exact h.ids alert' hold
      · rw [hid]
        exact canonicalUuid_text uuid
    · intro alert' halert'
      rcases hmem halert' with hold | rfl
      · exact h.years alert' hold
      · rw [halert]
        exact eventUnixSeconds_inYears htime hseconds
    · rw [map_append, nodup_append]
      refine ⟨h.primaryKey, nodup_singleton _, ?_⟩
      intro id hold id' hnew' heq
      obtain ⟨alert', halert', rfl⟩ := mem_map.mp hold
      rw [map_singleton, mem_singleton, hid] at hnew'
      exact hnew alert' halert' (heq.trans hnew')

theorem AlertTable.upserts (h : AlertTable alerts) (hupserts : Upserts alerts alerts') :
    AlertTable alerts' := by
  induction hupserts with
  | refl => exact h
  | tail _ hstep ih => exact ih.upsert hstep

theorem alertTable_nil : AlertTable [] where
  ids := by simp
  years := by simp
  primaryKey := nodup_nil

theorem Upserts.subset (h : Upserts alerts alerts') :
    alerts ⊆ alerts' := by
  induction h with
  | refl => exact List.Subset.refl _
  | tail _ hstep ih =>
    cases hstep with
    | upsert c uuid rule m _ _ => exact List.Subset.trans ih (subset_append_left _ _)

theorem nested_states {states : List (List AlertRow)} (h : states.IsChain Upserts) :
    ∀ alerts ∈ states, ∀ alerts' ∈ states, alerts ⊆ alerts' ∨ alerts' ⊆ alerts := by
  have hpairwise : states.Pairwise fun alerts alerts' => alerts ⊆ alerts' ∨ alerts' ⊆ alerts :=
    (isChain_iff_pairwise.mp h).imp fun hupserts => Or.inl hupserts.subset
  intro alerts halerts alerts' halerts'
  have hsymm : Std.Symm fun alerts alerts' : List AlertRow =>
      alerts ⊆ alerts' ∨ alerts' ⊆ alerts := ⟨fun _ _ => Or.symm⟩
  have hrefl : ∀ alerts ∈ states, alerts ⊆ alerts ∨ alerts ⊆ alerts :=
    fun alerts _ => Or.inl (List.Subset.refl alerts)
  exact List.Pairwise.forall_of_forall hrefl hpairwise halerts halerts'

theorem AlertTable.row_eq (h : AlertTable alerts) {row row' : AlertRow} (hrow : row ∈ alerts)
    (hrow' : row' ∈ alerts) (hid : row.alertId = row'.alertId) :
    row = row' :=
  inj_on_of_nodup_map h.primaryKey hrow hrow' hid

/-- `event_time` descending, then `alert_id` descending. -/
def AlertAfter (row row' : AlertRow) : Prop := alertListing.key row' < alertListing.key row

/-- What requests at states of the table return, from the first page on. -/
def followAlerts (R : Runtime) (orgId : String) (p : ListParams) (states : List (List AlertRow)) :
    Except ReadError (List AlertListItem × Option (Option String)) :=
  follow (fun rows text => listAlerts R rows orgId { p with cursor := text }) none states

theorem followAlerts_eq (R : Runtime) (orgId : String) (p : ListParams)
    (states : List (List AlertRow)) :
    followAlerts R orgId p states = alertListing.follow R (alertMatches R orgId p) p states :=
  rfl

theorem alert_cursor (row : AlertRow) : alertListing.cursor row = alertListing.key row := by
  have hmicros : row.eventTime * 1000000 / 1000 * 1000 = row.eventTime * 1000000 := by omega
  exact congrArg (fun micros => toLex (micros, row.alertId)) hmicros

theorem AlertTable.readable (h : AlertTable alerts) {row : AlertRow} (hrow : row ∈ alerts) :
    alertListing.Readable row := by
  have hyears := h.years row hrow
  obtain ⟨f, htext, _⟩ := exists_dateFields hyears
  have hmillis : row.eventTime * 1000000 / 1000 = row.eventTime * 1000 := by omega
  refine ⟨h.ids row hrow, ?_, ?_⟩
  · rw [Listing.millis, alertListing, hmillis]
    exact hyears
  · simp [alertListing, mapAlert, htext]

section alerts
variable (R : Runtime) (orgId : String) (p : ListParams)

theorem followedAlerts {states : List (List AlertRow)} (hcheck : checkListParams R p = .ok ())
    {size : Nat} (hsize : 1 ≤ size ∧ size ≤ 200) (hlimit : numberOf R p.limit = .finite size)
    (htables : ∀ alerts ∈ states, AlertTable alerts) :
    ∃ items next, followAlerts R orgId p states = .ok (items, next) ∧
      List.Forall₂ (fun row item => mapAlert row = some item)
        (alertListing.traverse size (alertMatches R orgId p) states).1 items ∧
      (next = none ↔
        (alertListing.traverse size (alertMatches R orgId p) states).2 = none) := by
  rw [followAlerts_eq]
  apply follow_list R hcheck hsize hlimit
  intro rows hrows row hrow
  exact (htables rows hrows).readable (mem_of_mem_filter hrow)

/-- The pages of alerts over a table that grows between the requests. -/
theorem alert_pages_stable (hcheck : checkListParams R p = .ok ()) {size : Nat}
    (hsize : 1 ≤ size ∧ size ≤ 200) (hlimit : numberOf R p.limit = .finite size)
    {first : List AlertRow} {later : List (List AlertRow)} (hfirst : Upserts [] first)
    (hgrowth : (first :: later).IsChain Upserts) :
    (∃ rows items next, followAlerts R orgId p (first :: later) = .ok (items, next) ∧
      List.Forall₂ (fun row item => mapAlert row = some item) rows items ∧
      rows.Pairwise AlertAfter ∧ (rows.map AlertRow.alertId).Nodup ∧
      (∀ row ∈ rows, alertMatches R orgId p row = true ∧ ∃ alerts ∈ first :: later, row ∈ alerts) ∧
      (next = none → ∀ row, (∀ alerts ∈ first :: later, row ∈ alerts) →
        alertMatches R orgId p row = true → row ∈ rows)) ∧
    ∃ requests items, followAlerts R orgId p (first :: later ++
      List.replicate requests ((first :: later).getLast (cons_ne_nil first later))) =
        .ok (items, none) := by
  have hreached : ∀ alerts ∈ first :: later, Upserts first alerts := by
    have hpairwise := isChain_iff_pairwise.mp hgrowth
    intro alerts halerts
    rcases mem_cons.mp halerts with rfl | hlater
    · exact ReflTransGen.refl
    · exact (pairwise_cons.mp hpairwise).1 alerts hlater
  have htable := alertTable_nil.upserts hfirst
  have htables : ∀ alerts ∈ first :: later, AlertTable alerts :=
    fun alerts h => htable.upserts (hreached alerts h)
  have hids : ∀ alerts ∈ first :: later, (alerts.map alertListing.id).Nodup :=
    fun alerts h => (htables alerts h).primaryKey
  constructor
  · obtain ⟨items, next, hfollow, hshown, hnext⟩ :=
      followedAlerts R orgId p hcheck hsize hlimit htables
    have hordered := listed_gt (alertMatches R orgId p) size hids
    refine ⟨_, items, next, hfollow, hshown, hordered, ?_, ?_, ?_⟩
    · apply pairwise_map.mpr
      apply hordered.imp_of_mem
      intro row row' hrow hrow' hlt hid
      obtain ⟨alerts, halerts, hmem, _⟩ := listed_mem hrow
      obtain ⟨alerts', halerts', hmem', _⟩ := listed_mem hrow'
      have hsame : row = row' := by
        rcases nested_states hgrowth alerts halerts alerts' halerts' with hsub | hsub
        · exact (htables alerts' halerts').row_eq (hsub hmem) hmem' hid
        · exact (htables alerts halerts).row_eq hmem (hsub hmem') hid
      rw [hsame] at hlt
      exact hlt.false
    · intro row hrow
      obtain ⟨alerts, halerts, hmem, hmatches⟩ := listed_mem hrow
      exact ⟨hmatches, alerts, halerts, hmem⟩
    · intro hend row hrow hmatches
      apply listed_complete hsize.1 hids (hnext.mp hend) hrow hmatches
      intro alerts halerts row' _ hlt
      rw [alert_cursor]
      exact hlt
  · obtain ⟨requests, hend⟩ := exists_listed_end alertListing (alertMatches R orgId p)
      (first :: later) size ((first :: later).getLast (cons_ne_nil first later))
    have hextended : ∀ alerts ∈ first :: later ++ List.replicate requests
        ((first :: later).getLast (cons_ne_nil first later)), AlertTable alerts := by
      intro alerts halerts
      rcases mem_append.mp halerts with hmem | hmem
      · exact htables alerts hmem
      · rw [eq_of_mem_replicate hmem]
        exact htables _ (getLast_mem _)
    obtain ⟨items, next, hfollow, _, hnext⟩ :=
      followedAlerts R orgId p hcheck hsize hlimit hextended
    rw [hnext.mpr hend] at hfollow
    exact ⟨requests, items, hfollow⟩

end alerts

def sampleConfig : DetectConfig := ⟨"default", [], none⟩

def sampleRule : SigmaRule :=
  ⟨"rule", "A rule", "high", "process_creation", [], .ident "selection", 1 / 2, 4,
    ⟨["execution"], []⟩⟩

def sampleMatch (time : String) : RuleMatch where
  ruleId := "rule"
  heuristicScore := 1 / 2
  severityId := 4
  cgMitre := ⟨["execution"], []⟩
  sourceEvent := ⟨(sampleUuid 8).text, (sampleUuid 0).text, 1, 4, "4", "cmd.exe", "cmd.exe", none,
    none, time⟩

def sampleAlerts : List AlertRow :=
  insertAlert sampleConfig
    (insertAlert sampleConfig [] (sampleUuid 1).text sampleRule
      (sampleMatch "2026-05-28 19:37:10.000000100"))
    (sampleUuid 2).text sampleRule (sampleMatch "2026-05-28 19:47:10.000000100")

def moreAlerts : List AlertRow :=
  insertAlert sampleConfig sampleAlerts (sampleUuid 3).text sampleRule
    (sampleMatch "2026-05-28 19:57:10.000000100")

theorem sampleAlerts_written : Upserts [] sampleAlerts := by
  have hfirst : UpsertAlert [] _ := .upsert sampleConfig (sampleUuid 1) sampleRule
    (sampleMatch "2026-05-28 19:37:10.000000100") (by simp) ⟨2026, by decide, by omega⟩
  apply (ReflTransGen.single hfirst).tail
  exact .upsert sampleConfig (sampleUuid 2) sampleRule _ (by decide +kernel)
    ⟨2026, by decide, by omega⟩

theorem moreAlerts_written : Upserts sampleAlerts moreAlerts := by
  apply ReflTransGen.single
  exact .upsert sampleConfig (sampleUuid 3) sampleRule _ (by decide +kernel)
    ⟨2026, by decide, by omega⟩

/-- Of two alerts the first page shows one; the second page, with a third alert there, shows the
other. -/
theorem sample_alert_pages_stable :
    Upserts [] sampleAlerts ∧ Upserts sampleAlerts moreAlerts ∧
    ∃ rows items next, followAlerts sampleRuntime "default" samplePage [sampleAlerts, moreAlerts] =
        .ok (items, next) ∧
      items.map (fun item => item.alertId) = [(sampleUuid 2).text, (sampleUuid 1).text] ∧
      List.Forall₂ (fun row item => mapAlert row = some item) rows items ∧
      rows.Pairwise AlertAfter := by
  obtain ⟨⟨rows, items, next, hfollow, hshown, hordered, _⟩, _⟩ :=
    alert_pages_stable sampleRuntime "default" samplePage samplePage_checked
      ⟨le_refl 1, by omega⟩ samplePage_limit sampleAlerts_written
      (List.IsChain.cons_cons moreAlerts_written (List.IsChain.singleton moreAlerts))
  have hids : (followAlerts sampleRuntime "default" samplePage [sampleAlerts, moreAlerts]).map
      (fun pages => pages.1.map fun item => item.alertId) =
        .ok [(sampleUuid 2).text, (sampleUuid 1).text] := by decide +kernel
  rw [hfollow] at hids
  exact ⟨sampleAlerts_written, moreAlerts_written, rows, items, next, hfollow,
    Except.ok.inj hids, hshown, hordered⟩

end CyberGuard.Read
