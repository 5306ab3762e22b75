import CyberGuard.Read.AlertPages

/-!
# Where a list ends

A page without a cursor is the last one. That holds of every page with a limit of one row
or more, and of no other that leaves a row: a limit between 0 and 1 passes `n > 0` and is
floored to 0, so the page is empty and has no last row to make a cursor of.
-/

namespace CyberGuard.Read
set_option autoImplicit false
open Checks KeysetPaging CyberGuard.Ingest CyberGuard.Detect

/-- A limit that `clampLimit` does not floor to 0: no number, or one not between 0 and 1. -/
def FloorsToRow (R : Runtime) (raw : Option String) : Prop :=
  ∀ n, numberOf R raw = .finite n → n ≤ 0 ∨ 1 ≤ n

section limit
variable {R : Runtime} {raw : Option String}

theorem clampLimit_le (R : Runtime) (raw : Option String) : clampLimit R raw ≤ maxLimit := by
  unfold clampLimit
  split
  · split
    · exact min_le_right _ _
    · decide
  · decide

theorem clampLimit_pos_iff : 0 < clampLimit R raw ↔ FloorsToRow R raw := by
  unfold clampLimit FloorsToRow
  split
  · next n hn =>
    simp only [hn, JsNumber.finite.injEq, forall_eq']
    split
    · next hpos =>
      have hfloor : 1 ≤ n.floor ↔ 1 ≤ n := by
        rw [Rat.le_floor_iff]
        norm_cast
      have hmax : maxLimit = 200 := rfl
      rw [or_iff_right (not_le.mpr hpos), ← hfloor]
      omega
    · next hpos => exact iff_of_true (by decide) (.inl (not_lt.mp hpos))
  · next hn => exact iff_of_true (by decide) fun n h => absurd h (hn n)

end limit

section answers
variable {ρ ι : Type} (L : Listing ρ ι) {R : Runtime} {selects : ρ → Bool} {rows : List ρ}
  {p : ListParams} {page : Page ι String} {bound : Option (Int ×ₗ String)}

def QueryBound (R : Runtime) (p : ListParams) (bound : Option (Int ×ₗ String)) : Prop :=
  ∃ cur, cursorParam R p = .ok cur ∧ boundOf cur = .ok bound

def Listing.left (selects : ρ → Bool) (rows : List ρ) (bound : Option (Int ×ₗ String)) : List ρ :=
  below L.key bound (rows.filter selects)

structure Listing.Tells (left : List ρ) (page : Page ι String) : Prop where
  atMost : page.items.length ≤ 200
  progress : left ≠ [] → page.items ≠ []
  /-- Without a cursor the page shows every row that was left. -/
  complete : page.nextCursor = none →
    List.Forall₂ (fun row item => L.item row = some item) (descending L.key left) page.items

def Listing.Issued (R : Runtime) (cursor : Option String) : Prop :=
  ∀ text, cursor = some text → ∃ selects rows p page, (∀ row ∈ rows, L.Readable row) ∧
    L.list R selects rows p = .ok page ∧ page.nextCursor = some text

variable {L}

theorem mapM_items {items : List ι} (h : rows.mapM L.item = some items) :
    List.Forall₂ (fun row item => L.item row = some item) rows items := by
  induction rows generalizing items with
  | nil =>
    cases h
    exact .nil
  | cons row rest ih =>
    simp only [List.mapM_cons, Option.bind_eq_bind, Option.bind_eq_some_iff] at h
    obtain ⟨item, hitem, shown, hshown, hitems⟩ := h
    cases hitems
    exact .cons hitem (ih hshown)

theorem list_eq_ok (h : L.list R selects rows p = .ok page) : ∃ bound, QueryBound R p bound ∧
    List.Forall₂ (fun row item => L.item row = some item)
      (cut L.key (clampLimit R p.limit) bound (rows.filter selects)).rows page.items ∧
    Option.Rel (fun last text => ∃ t, toISOString (L.millis last) = some t ∧
        text = encodeCursor R ⟨t, L.id last⟩)
      (cut L.key (clampLimit R p.limit) bound (rows.filter selects)).last page.nextCursor := by
  simp only [Listing.list, answer_eq, bind_eq_ok, okOr_eq_ok] at h
  obtain ⟨_, _, cur, hcur, bound, hbound, items, hitems, hpage⟩ := h
  refine ⟨bound, ⟨cur, hcur, hbound⟩, ?_⟩
  cases hlast : (cut L.key (clampLimit R p.limit) bound (rows.filter selects)).last with
  | none =>
    rw [hlast] at hpage
    cases hpage
    exact ⟨mapM_items hitems, .none⟩
  | some last =>
    rw [hlast] at hpage
    simp only [bind_eq_ok, okOr_eq_ok] at hpage
    obtain ⟨t, ht, heq⟩ := hpage
    cases heq
    exact ⟨mapM_items hitems, .some ⟨t, ht, rfl⟩⟩

theorem list_tells_iff (h : L.list R selects rows p = .ok page) : ∃ bound, QueryBound R p bound ∧
    (L.Tells (L.left selects rows bound) page ↔
      L.left selects rows bound = [] ∨ FloorsToRow R p.limit) := by
  obtain ⟨bound, hbound, hitems, hnext⟩ := list_eq_ok h
  refine ⟨bound, hbound, ?_, ?_⟩
  · intro htells
    by_contra! hnot
    have hzero : clampLimit R p.limit = 0 :=
      Nat.eq_zero_of_not_pos (mt clampLimit_pos_iff.mp hnot.2)
    rw [hzero, cut_rows, List.take_zero] at hitems
    exact htells.progress hnot.1 (List.forall₂_nil_left_iff.mp hitems)
  · rintro (hnil | hlimit)
    · have hrows : (cut L.key (clampLimit R p.limit) bound (rows.filter selects)).rows = [] := by
        have hbelow : below L.key bound (rows.filter selects) = [] := hnil
        rw [cut_rows, hbelow]
        exact List.take_nil
      rw [hrows] at hitems
      have hempty := List.forall₂_nil_left_iff.mp hitems
      rw [hnil]
      refine ⟨?_, fun hne => absurd rfl hne, fun _ => ?_⟩
      · rw [hempty]
        exact Nat.zero_le _
      · rw [hempty]
        exact .nil
    · have hpos := clampLimit_pos_iff.mpr hlimit
      refine ⟨?_, ?_, ?_⟩
      · calc page.items.length
            = (cut L.key (clampLimit R p.limit) bound (rows.filter selects)).rows.length :=
              hitems.length_eq.symm
          _ ≤ clampLimit R p.limit := cut_length_le _ _ _
          _ ≤ 200 := clampLimit_le R p.limit
      · intro hleft hnone
        obtain ⟨row, hrow⟩ := List.exists_mem_of_ne_nil _ hleft
        rw [hnone] at hitems
        exact cut_ne_nil hpos hrow (List.forall₂_nil_right_iff.mp hitems)
      · intro hnone
        rw [hnone] at hnext
        cases hlast : (cut L.key (clampLimit R p.limit) bound (rows.filter selects)).last with
        | some last =>
          rw [hlast] at hnext
          cases hnext
        | none =>
          rw [cut_end_rows hpos hlast] at hitems
          exact hitems

theorem Listing.Issued.means {cursor : Option String} (h : L.Issued R cursor) :
    ∃ bound, Option.Rel (Means R) cursor bound := by
  cases cursor with
  | none => exact ⟨none, .none⟩
  | some text =>
    obtain ⟨selects, rows, p, page, hrows, hpage, htext⟩ := h text rfl
    obtain ⟨bound, _, _, hnext⟩ := list_eq_ok hpage
    rw [htext] at hnext
    cases hlast : (cut L.key (clampLimit R p.limit) bound (rows.filter selects)).last with
    | none =>
      rw [hlast] at hnext
      cases hnext
    | some last =>
      rw [hlast] at hnext
      cases hnext with
      | some hcursor =>
        obtain ⟨t, ht, rfl⟩ := hcursor
        have hmem := (cut_mem (cut_last_mem hlast)).1
        have hread := hrows last (List.mem_of_mem_filter hmem)
        exact ⟨some (L.cursor last), .some (means_encodeCursor R hread ht)⟩

theorem exists_list_page (hcheck : checkListParams R p = .ok ()) (hcursor : L.Issued R p.cursor)
    (hrows : ∀ row ∈ rows.filter selects, L.Readable row) :
    ∃ page, L.list R selects rows p = .ok page := by
  obtain ⟨bound, hmeans⟩ := hcursor.means
  obtain ⟨cur, hcur, hbound⟩ := cursorParam_means R hmeans p
  obtain ⟨page, hpage, _⟩ := answer_renders R (clampLimit R p.limit) hrows hbound
  refine ⟨page, ?_⟩
  simp only [Listing.list, bind_eq_ok]
  exact ⟨(), hcheck, cur, hcur, hpage⟩

theorem list_of_limit_zero (hcheck : checkListParams R p = .ok ()) (hcursor : p.cursor = none)
    (hzero : clampLimit R p.limit = 0) : L.list R selects rows p = .ok ⟨[], none⟩ := by
  have hnone : cursorParam R p = .ok none := by
    rw [cursorParam, hcursor]
    rfl
  have hrows : (cut L.key 0 none (rows.filter selects)).rows = [] := by rw [cut_rows, List.take_zero]
  have hlast : (cut L.key 0 none (rows.filter selects)).last = none := by
    rw [cut, List.take_zero, List.getLast?_nil, ite_self]
  simp only [Listing.list, answer_eq, bind_eq_ok, okOr_eq_ok]
  refine ⟨(), hcheck, none, hnone, none, rfl, [], ?_, ?_⟩
  · rw [hzero, hrows]
    rfl
  · rw [hzero, hlast]
    rfl

end answers

/-- A page of either list shows at most 200 rows, shows one if one was left, and has no cursor only
if it shows every row that was left, exactly where no row was left or the limit is not floored
to 0; and with a cursor of the list's own a page is answered. -/
theorem null_cursor_at_end (R : Runtime) (orgId : String) (p : ListParams) :
    (∀ rows page, listIncidents R rows orgId p = .ok page → ∃ bound, QueryBound R p bound ∧
      (incidentListing.Tells (incidentListing.left (incidentMatches orgId p) rows bound) page ↔
        incidentListing.left (incidentMatches orgId p) rows bound = [] ∨
          FloorsToRow R p.limit)) ∧
    (∀ rows page, listAlerts R rows orgId p = .ok page → ∃ bound, QueryBound R p bound ∧
      (alertListing.Tells (alertListing.left (alertMatches R orgId p) rows bound) page ↔
        alertListing.left (alertMatches R orgId p) rows bound = [] ∨ FloorsToRow R p.limit)) ∧
    (checkListParams R p = .ok () → incidentListing.Issued R p.cursor → ∀ table : IncidentTable,
      (∀ row ∈ table.rows, InYears (row.updatedAt / 1000)) →
        ∃ page, listIncidents R table.rows orgId p = .ok page) ∧
    (checkListParams R p = .ok () → alertListing.Issued R p.cursor → ∀ rows, AlertTable rows →
      ∃ page, listAlerts R rows orgId p = .ok page) := by
  refine ⟨fun rows page h => list_tells_iff h, fun rows page h => list_tells_iff h, ?_, ?_⟩
  · intro hcheck hcursor table hyears
    apply exists_list_page hcheck hcursor
    intro row hrow
    have hmem := List.mem_of_mem_filter hrow
    exact table.readable hmem (hyears row hmem)
  · intro hcheck hcursor rows htable
    apply exists_list_page hcheck hcursor
    intro row hrow
    exact htable.readable (List.mem_of_mem_filter hrow)

/-- `Number("0.5")` besides whole numbers. -/
def halfRuntime : Runtime :=
  { sampleRuntime with
    number := fun text => if text = "0.5" then .finite (1 / 2) else sampleRuntime.number text }

def halfPage : ListParams := { limit := some "0.5" }

/-- With a limit of a half either list answers an empty last page, and a row is left. -/
theorem half_limit_ends_early : QueryBound halfRuntime halfPage none ∧
    (∃ rows, incidentListing.left (incidentMatches "default" halfPage) rows none ≠ [] ∧
      listIncidents halfRuntime rows "default" halfPage = .ok ⟨[], none⟩) ∧
    (∃ rows, alertListing.left (alertMatches halfRuntime "default" halfPage) rows none ≠ [] ∧
      listAlerts halfRuntime rows "default" halfPage = .ok ⟨[], none⟩) := by
  have hcheck : checkListParams halfRuntime halfPage = .ok () := by decide +kernel
  have hzero : clampLimit halfRuntime halfPage.limit = 0 := by decide +kernel
  refine ⟨⟨none, rfl, rfl⟩, ⟨[sampleIncident 1 1779997630000400], ?_, ?_⟩, ⟨sampleAlerts, ?_, ?_⟩⟩
  · decide +kernel
  · exact list_of_limit_zero hcheck rfl hzero
  · decide +kernel
  · exact list_of_limit_zero hcheck rfl hzero

/-- The first page of one row, of a table of two incidents. -/
theorem one_row_pages_end :
    FloorsToRow sampleRuntime samplePage.limit ∧
    ∃ page, listIncidents sampleRuntime (sampleIncidents 1779997630000000 1779997630001000).rows
        "default" samplePage = .ok page ∧ page.items.length ≤ 200 ∧ page.items ≠ [] := by
  have hlimit : FloorsToRow sampleRuntime samplePage.limit := by
    intro n hn
    rw [samplePage_limit] at hn
    cases hn
    exact Or.inr (le_refl _)
  obtain ⟨htells, _, hpage, _⟩ := null_cursor_at_end sampleRuntime "default" samplePage
  obtain ⟨page, h⟩ := hpage samplePage_checked (fun _ htext => nomatch htext)
    (sampleIncidents 1779997630000000 1779997630001000) (by decide +kernel)
  obtain ⟨bound, ⟨cur, hcur, hbound⟩, htold⟩ := htells _ page h
  cases hcur
  cases hbound
  have htells := htold.mpr (.inr hlimit)
  exact ⟨hlimit, page, h, htells.atMost, htells.progress (by decide +kernel)⟩

end CyberGuard.Read
