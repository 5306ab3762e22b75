import CyberGuard.Read.Lists
import Mathlib.Logic.Relation

/-!
# Following the cursors of a list

Every page of a list is the page of its matching rows under the bound the cursor stands
for, so the lists are followed as tables are read. A bound is the row's time cut to the
millisecond. For incidents that loses rows: those of the same millisecond as the last one
of a page are passed over. For alerts, whose times are whole seconds, it is the key
itself.
-/

namespace CyberGuard.Read
set_option autoImplicit false
open Checks KeysetPaging CyberGuard.Ingest CyberGuard.Detect List

section lists
variable {ρ ι : Type} (L : Listing ρ ι) (R : Runtime)

/-- A row the list can show and whose cursor `decodeCursor` takes. -/
structure Listing.Readable (row : ρ) : Prop where
  id : CanonicalUuid (L.id row)
  years : InYears (L.millis row)
  item : ∃ item, L.item row = some item

def Means (text : String) (bound : Int ×ₗ String) : Prop :=
  text ≠ "" ∧ ∃ c, decodeCursor R text = .ok c ∧ boundOf (some c) = .ok (some bound)

variable {L} {rows : List ρ} {limit : Nat}

theorem cursor_le_key (row : ρ) : L.cursor row ≤ L.key row := by
  have hcut : L.millis row * 1000 ≤ L.micros row := by
    rw [Listing.millis]
    omega
  apply Prod.Lex.toLex_le_toLex.mpr
  rcases lt_or_eq_of_le hcut with hlt | heq
  · exact Or.inl hlt
  · exact Or.inr ⟨heq, le_refl _⟩

theorem key_injective_id {row row' : ρ} (h : L.key row = L.key row') : L.id row = L.id row' :=
  congrArg (fun k : Int ×ₗ String => (ofLex k).2) h

theorem keys_nodup (h : (rows.map L.id).Nodup) : (rows.map L.key).Nodup := by
  apply pairwise_map.mpr
  apply (pairwise_map.mp h).imp
  intro row row' hne heq
  exact hne (key_injective_id heq)

theorem exists_items (h : ∀ row ∈ rows, ∃ item, L.item row = some item) :
    ∃ items, rows.mapM L.item = some items ∧
      List.Forall₂ (fun row item => L.item row = some item) rows items := by
  induction rows with
  | nil => exact ⟨[], rfl, .nil⟩
  | cons row rest ih =>
    obtain ⟨item, hitem⟩ := h row mem_cons_self
    obtain ⟨items, hitems, hshown⟩ := ih fun row' h' => h row' (mem_cons_of_mem row h')
    refine ⟨item :: items, ?_, .cons hitem hshown⟩
    rw [mapM_cons, hitem, hitems]
    rfl

theorem boundOf_some {c : Cursor} {micros : Int} (h : timestamptz c.t = some micros) :
    boundOf (some c) = .ok (some (toLex (micros, c.id))) := by
  simp only [boundOf, bind_eq_ok, okOr_eq_ok]
  exact ⟨micros, h, rfl⟩

theorem means_encodeCursor {row : ρ} (h : L.Readable row) {t : String}
    (ht : toISOString (L.millis row) = some t) :
    Means R (encodeCursor R ⟨t, L.id row⟩) (L.cursor row) := by
  obtain ⟨hdecode, hmicros⟩ := decodeCursor_encodeCursor R h.years ht h.id
  exact ⟨encodeCursor_ne_empty R _, _, hdecode, boundOf_some hmicros⟩

variable (L rows limit) in
theorem answer_eq (cur : Option Cursor) : L.answer R rows limit cur = (do
    let bound ← boundOf cur
    let items ← okOr ((cut L.key limit bound rows).rows.mapM L.item) .rangeError
    match (cut L.key limit bound rows).last with
    | none => return ⟨items, none⟩
    | some last =>
      let t ← okOr (toISOString (L.millis last)) .rangeError
      return ⟨items, some (encodeCursor R ⟨t, L.id last⟩)⟩) :=
  rfl

variable (limit) in
theorem answer_renders (hrows : ∀ row ∈ rows, L.Readable row) {cur : Option Cursor}
    {bound : Option (Int ×ₗ String)} (hbound : boundOf cur = .ok bound) :
    ∃ page, L.answer R rows limit cur = .ok page ∧
      Renders (fun row item => L.item row = some item) (Means R) L.cursor
        (cut L.key limit bound rows) page := by
  have hreadable : ∀ row ∈ (cut L.key limit bound rows).rows, L.Readable row :=
    fun row h => hrows row (cut_mem h).1
  obtain ⟨items, hitems, hshown⟩ := exists_items fun row h => (hreadable row h).item
  cases hlast : (cut L.key limit bound rows).last with
  | none =>
    refine ⟨⟨items, none⟩, ?_, hshown, ?_⟩
    · simp only [answer_eq, bind_eq_ok, okOr_eq_ok]
      refine ⟨bound, hbound, items, hitems, ?_⟩
      rw [hlast]
      rfl
    · rw [hlast]
      exact .none
  | some last =>
    have hread := hreadable last (cut_last_mem hlast)
    obtain ⟨f, ht, _⟩ := exists_dateFields hread.years
    refine ⟨⟨items, some (encodeCursor R ⟨f.text, L.id last⟩)⟩, ?_, hshown, ?_⟩
    · simp only [answer_eq, bind_eq_ok, okOr_eq_ok]
      refine ⟨bound, hbound, items, hitems, ?_⟩
      rw [hlast]
      simp only [bind_eq_ok, okOr_eq_ok]
      exact ⟨f.text, ht, rfl⟩
    · rw [hlast]
      exact .some (means_encodeCursor R hread ht)

theorem cursorParam_means {text : Option String} {bound : Option (Int ×ₗ String)}
    (h : Option.Rel (Means R) text bound) (p : ListParams) :
    ∃ cur, cursorParam R { p with cursor := text } = .ok cur ∧ boundOf cur = .ok bound := by
  cases h with
  | none => exact ⟨none, rfl, rfl⟩
  | @some text bound hmeans =>
    obtain ⟨hne, c, hdecode, hc⟩ := hmeans
    refine ⟨some c, ?_, hc⟩
    have hgiven : given (some text) = some text := by simp [given, hne]
    simp only [cursorParam, hgiven, hdecode]
    rfl

theorem clampLimit_size {raw : Option String} {size : Nat} (hsize : 1 ≤ size ∧ size ≤ 200)
    (h : numberOf R raw = .finite size) : clampLimit R raw = size := by
  have hpos : (0 : Rat) < size := by exact_mod_cast hsize.1
  have hfloor : (size : Rat).floor = size := rfl
  simp only [clampLimit, h, if_pos hpos, hfloor, maxLimit, Int.toNat_natCast]
  omega

/-- What requests at states of the table return, from the first page on. -/
def Listing.follow (L : Listing ρ ι) (R : Runtime) (selects : ρ → Bool) (p : ListParams)
    (states : List (List ρ)) : Except ReadError (List ι × Option (Option String)) :=
  KeysetPaging.follow (fun rows text => L.list R selects rows { p with cursor := text }) none states

/-- How the selected rows are read, a page of each state. -/
def Listing.traverse (L : Listing ρ ι) (size : Nat) (selects : ρ → Bool) (states : List (List ρ)) :
    List ρ × Option (Option (Int ×ₗ String)) :=
  KeysetPaging.traverse L.key L.cursor size none (states.map fun rows => rows.filter selects)

section traversal
variable {selects : ρ → Bool} {states : List (List ρ)} {size : Nat} {row : ρ}

theorem listed_mem (h : row ∈ (L.traverse size selects states).1) :
    ∃ rows ∈ states, row ∈ rows ∧ selects row = true := by
  obtain ⟨selected, hselected, hrow⟩ := traverse_mem h
  obtain ⟨rows, hrows, rfl⟩ := mem_map.mp hselected
  exact ⟨rows, hrows, mem_filter.mp hrow⟩

theorem selected_keys (hids : ∀ rows ∈ states, (rows.map L.id).Nodup) :
    ∀ selected ∈ states.map fun rows => rows.filter selects, (selected.map L.key).Nodup := by
  intro selected hselected
  obtain ⟨rows, hrows, rfl⟩ := mem_map.mp hselected
  exact keys_nodup ((hids rows hrows).sublist (filter_sublist.map L.id))

variable (selects size) in
theorem listed_gt (hids : ∀ rows ∈ states, (rows.map L.id).Nodup) :
    (L.traverse size selects states).1.Pairwise fun row row' => L.key row' < L.key row :=
  traverse_gt cursor_le_key (selected_keys hids)

theorem listed_complete (hsize : 0 < size) (hids : ∀ rows ∈ states, (rows.map L.id).Nodup)
    (hend : (L.traverse size selects states).2 = none) (hrow : ∀ rows ∈ states, row ∈ rows)
    (hselects : selects row = true)
    (hover : ∀ rows ∈ states, ∀ row' ∈ rows.filter selects, L.key row < L.key row' →
      L.key row < L.cursor row') :
    row ∈ (L.traverse size selects states).1 := by
  apply traverse_complete hsize (selected_keys hids) hend
  · intro selected hselected
    obtain ⟨rows, hrows, rfl⟩ := mem_map.mp hselected
    exact mem_filter.mpr ⟨hrow rows hrows, hselects⟩
  · intro b hb
    cases hb
  · intro selected hselected row' hrow' hlt
    obtain ⟨rows, hrows, rfl⟩ := mem_map.mp hselected
    exact hover rows hrows row' hrow' hlt

variable (L size selects states) in
theorem exists_listed_end (rows : List ρ) :
    ∃ n, (L.traverse size selects (states ++ List.replicate n rows)).2 = none := by
  obtain ⟨n, hn⟩ := exists_traverse_ends (states.map fun rows => rows.filter selects)
    (cursor_le_key (L := L)) none (rows.filter selects)
  refine ⟨n, ?_⟩
  rw [Listing.traverse, map_append, map_replicate]
  exact hn

end traversal

variable {selects : ρ → Bool} {p : ListParams} {states : List (List ρ)} {size : Nat}

theorem follow_list (hcheck : checkListParams R p = .ok ()) (hsize : 1 ≤ size ∧ size ≤ 200)
    (hlimit : numberOf R p.limit = .finite size)
    (hrows : ∀ rows ∈ states, ∀ row ∈ rows.filter selects, L.Readable row) :
    ∃ items next, L.follow R selects p states = .ok (items, next) ∧
      List.Forall₂ (fun row item => L.item row = some item)
        (L.traverse size selects states).1 items ∧
      (next = none ↔ (L.traverse size selects states).2 = none) := by
  refine follow_traverse ?_ (Option.Rel.none : Option.Rel (Means R) none none)
  intro rows hmem text bound hbound
  obtain ⟨cur, hcur, hof⟩ := cursorParam_means R hbound p
  obtain ⟨page, hpage, hrenders⟩ := answer_renders R size (hrows rows hmem) hof
  refine ⟨page, ?_, hrenders⟩
  simp only [Listing.list, bind_eq_ok]
  refine ⟨(), hcheck, cur, hcur, ?_⟩
  rw [clampLimit_size R hsize hlimit]
  exact hpage

end lists

/-- The table: `incident_id` is its primary key, and a window starts in the range of `Date`. -/
structure IncidentTable where
  rows : List StoredIncident
  ids : ∀ row ∈ rows, CanonicalUuid row.incidentId
  primaryKey : (rows.map fun row => row.incidentId).Nodup
  windows : ∀ row ∈ rows, (row.windowStart * 1000).natAbs ≤ 8640000000000000

/-- `updated_at` descending, then `incident_id` descending. -/
def IncidentAfter (row row' : StoredIncident) : Prop :=
  incidentListing.key row' < incidentListing.key row

/-- The cursor of a row passes none of the rows after it over. -/
def Separated (rows : List StoredIncident) : Prop :=
  ∀ row ∈ rows, ∀ row' ∈ rows, IncidentAfter row row' →
    incidentListing.key row' < incidentListing.cursor row

instance (row row' : StoredIncident) : Decidable (IncidentAfter row row') :=
  inferInstanceAs (Decidable (incidentListing.key row' < incidentListing.key row))

instance (rows : List StoredIncident) : Decidable (Separated rows) :=
  inferInstanceAs (Decidable (∀ row ∈ rows, ∀ row' ∈ rows, _ → _))

theorem toISOString_isSome {millis : Int} (h : millis.natAbs ≤ 8640000000000000) :
    ∃ text, toISOString millis = some text := by
  rw [toISOString, if_pos h]
  exact ⟨_, rfl⟩

theorem IncidentTable.readable (table : IncidentTable) {row : StoredIncident}
    (hrow : row ∈ table.rows) (hyears : InYears (row.updatedAt / 1000)) :
    incidentListing.Readable row := by
  refine ⟨table.ids row hrow, hyears, ?_⟩
  obtain ⟨windowStart, hwindow⟩ := toISOString_isSome (table.windows row hrow)
  obtain ⟨f, hupdated, _⟩ := exists_dateFields hyears
  simp [incidentListing, incidentItem, hwindow, hupdated]

/-- What requests at states of the table return, from the first page on. -/
def followIncidents (R : Runtime) (orgId : String) (p : ListParams)
    (states : List (List StoredIncident)) :
    Except ReadError (List IncidentListItem × Option (Option String)) :=
  follow (fun rows text => listIncidents R rows orgId { p with cursor := text }) none states

theorem followIncidents_eq (R : Runtime) (orgId : String) (p : ListParams)
    (states : List (List StoredIncident)) : followIncidents R orgId p states =
      incidentListing.follow R (incidentMatches orgId p) p states :=
  rfl

theorem incidentItem_id {row : StoredIncident} {item : IncidentListItem}
    (h : incidentItem row = some item) : item.incidentId = row.incidentId := by
  simp only [incidentItem, Option.bind_eq_bind, Option.bind_eq_some_iff] at h
  obtain ⟨_, _, _, _, hitem⟩ := h
  cases hitem
  rfl

theorem shown_ids {rows : List StoredIncident} {items : List IncidentListItem}
    (h : List.Forall₂ (fun row item => incidentItem row = some item) rows items) :
    rows.map (fun row => row.incidentId) = items.map fun item => item.incidentId := by
  induction h with
  | nil => rfl
  | cons hitem _ ih => rw [map_cons, map_cons, ih, incidentItem_id hitem]

section incidents
variable (R : Runtime) (table : IncidentTable) (orgId : String) (p : ListParams)

theorem IncidentTable.followed (requests : Nat) (hcheck : checkListParams R p = .ok ())
    {size : Nat} (hsize : 1 ≤ size ∧ size ≤ 200) (hlimit : numberOf R p.limit = .finite size)
    (hyears : ∀ row ∈ table.rows.filter (incidentMatches orgId p),
      InYears (row.updatedAt / 1000)) :
    ∃ items next,
      followIncidents R orgId p (List.replicate requests table.rows) = .ok (items, next) ∧
      List.Forall₂ (fun row item => incidentItem row = some item)
        (incidentListing.traverse size (incidentMatches orgId p)
          (List.replicate requests table.rows)).1 items ∧
      (next = none ↔ (incidentListing.traverse size (incidentMatches orgId p)
        (List.replicate requests table.rows)).2 = none) := by
  rw [followIncidents_eq]
  apply follow_list R hcheck hsize hlimit
  intro rows hrows row hrow
  rw [eq_of_mem_replicate hrows] at hrow
  exact table.readable (mem_of_mem_filter hrow) (hyears row hrow)

/-- Following the cursors over the unchanged table shows each matching row once, in order. -/
def PagesComplete : Prop :=
  ∃ requests rows items,
    followIncidents R orgId p (List.replicate requests table.rows) = .ok (items, none) ∧
    List.Forall₂ (fun row item => incidentItem row = some item) rows items ∧
    rows.Perm (table.rows.filter (incidentMatches orgId p)) ∧ rows.Pairwise IncidentAfter

theorem pagesComplete_of_separated (hcheck : checkListParams R p = .ok ()) {size : Nat}
    (hsize : 1 ≤ size ∧ size ≤ 200) (hlimit : numberOf R p.limit = .finite size)
    (hyears : ∀ row ∈ table.rows.filter (incidentMatches orgId p), InYears (row.updatedAt / 1000))
    (hseparated : Separated (table.rows.filter (incidentMatches orgId p))) :
    PagesComplete R table orgId p := by
  obtain ⟨requests, hend⟩ :=
    exists_listed_end incidentListing (incidentMatches orgId p) [] size table.rows
  rw [nil_append] at hend
  have hstates : ∀ rows ∈ List.replicate requests table.rows, rows = table.rows :=
    fun rows h => eq_of_mem_replicate h
  have hids : ∀ rows ∈ List.replicate requests table.rows, (rows.map incidentListing.id).Nodup := by
    intro rows hrows
    rw [hstates rows hrows]
    exact table.primaryKey
  obtain ⟨items, next, hfollow, hshown, hnext⟩ :=
    table.followed R orgId p requests hcheck hsize hlimit hyears
  have hordered := listed_gt (incidentMatches orgId p) size hids
  refine ⟨requests, _, items, ?_, hshown, ?_, hordered⟩
  · rw [hnext.mpr hend] at hfollow
    exact hfollow
  · apply (perm_ext_iff_of_nodup ?_ ?_).mpr
    · intro row
      constructor
      · intro hrow
        obtain ⟨rows, hrows, hmem, hmatches⟩ := listed_mem hrow
        rw [hstates rows hrows] at hmem
        exact mem_filter.mpr ⟨hmem, hmatches⟩
      · intro hrow
        obtain ⟨hmem, hmatches⟩ := mem_filter.mp hrow
        apply listed_complete hsize.1 hids hend
        · intro rows hrows
          rw [hstates rows hrows]
          exact hmem
        · exact hmatches
        · intro rows hrows row' hrow'
          rw [hstates rows hrows] at hrow'
          exact hseparated row' hrow' row hrow
    · exact hordered.imp fun hlt heq => (heq ▸ hlt).false
    · exact table.primaryKey.of_map.filter _

variable {R table orgId p} in
theorem separated_of_pagesComplete (hcheck : checkListParams R p = .ok ())
    (hlimit : numberOf R p.limit = .finite (1 : Nat))
    (hyears : ∀ row ∈ table.rows.filter (incidentMatches orgId p), InYears (row.updatedAt / 1000))
    (h : PagesComplete R table orgId p) :
    Separated (table.rows.filter (incidentMatches orgId p)) := by
  obtain ⟨requests, rows, items, hfollow, hrows, hperm, -⟩ := h
  obtain ⟨again, next, hagain, hlisted, -⟩ :=
    table.followed R orgId p requests hcheck ⟨le_refl 1, by omega⟩ hlimit hyears
  rw [hfollow] at hagain
  cases hagain
  have hids := (shown_ids hrows).trans (shown_ids hlisted).symm
  have hreturned : ∀ row ∈ table.rows.filter (incidentMatches orgId p),
      row ∈ (incidentListing.traverse 1 (incidentMatches orgId p)
        (List.replicate requests table.rows)).1 := by
    intro row hrow
    have hid := mem_map_of_mem (f := fun row => row.incidentId) (hperm.mem_iff.mpr hrow)
    rw [hids] at hid
    obtain ⟨row', hrow', hsame⟩ := mem_map.mp hid
    obtain ⟨rows', hrows', hmem, -⟩ := listed_mem hrow'
    rw [eq_of_mem_replicate hrows'] at hmem
    rwa [← inj_on_of_nodup_map table.primaryKey hmem (mem_of_mem_filter hrow) hsame]
  intro row hrow row' hrow' hafter
  exact traverse_one cursor_le_key (hreturned row hrow) (hreturned row' hrow') hafter

/-- The pages are complete for every page size exactly where no cursor passes a row over. -/
theorem incident_pages_complete (hcheck : checkListParams R p = .ok ())
    (hone : R.number "1" = .finite 1)
    (hyears : ∀ row ∈ table.rows.filter (incidentMatches orgId p),
      InYears (row.updatedAt / 1000)) :
    (∀ (size : Nat) (limit : Option String), 1 ≤ size → size ≤ 200 →
        numberOf R limit = .finite size → PagesComplete R table orgId { p with limit := limit }) ↔
      Separated (table.rows.filter (incidentMatches orgId p)) := by
  constructor
  · intro hcomplete
    have hlimit : numberOf R (some "1") = .finite (1 : Nat) := by
      rw [numberOf, hone]
      rfl
    have hpages := hcomplete 1 (some "1") (le_refl 1) (by omega) hlimit
    exact separated_of_pagesComplete (p := { p with limit := some "1" }) hcheck hlimit hyears hpages
  · intro hseparated size limit hleast hmost hlimit
    exact pagesComplete_of_separated R table orgId { p with limit := limit } hcheck
      ⟨hleast, hmost⟩ hlimit hyears hseparated

end incidents

def sampleEncode (c : Cursor) : String :=
  String.ofList (c.t.toList.flatMap (fun ch => ['t', ch]) ++ 'i' :: c.id.toList)

def sampleSplit : List Char → Option (List Char × List Char)
  | 't' :: ch :: rest => (sampleSplit rest).map fun (t, id) => (ch :: t, id)
  | 'i' :: id => some ([], id)
  | _ => none

def sampleDecode (raw : String) : Option (Json Rat) :=
  (sampleSplit raw.toList).map fun (t, id) =>
    .object [("t", .string (String.ofList t)), ("id", .string (String.ofList id))]

theorem sampleSplit_encode (t id : List Char) :
    sampleSplit (t.flatMap (fun ch => ['t', ch]) ++ 'i' :: id) = some (t, id) := by
  induction t with
  | nil => rfl
  | cons ch rest ih =>
    rw [flatMap_cons, append_assoc]
    simp only [cons_append, nil_append, sampleSplit, ih]
    rfl

def sampleRuntime : Runtime where
  number := fun text =>
    match bigInt text with
    | some n => .finite n
    | none => .nan
  encode := sampleEncode
  decode := sampleDecode
  decode_encode := by
    intro c
    rw [sampleDecode, sampleEncode, String.toList_ofList, sampleSplit_encode]
    simp [String.ofList_toList]
  decode_empty := rfl

def sampleUuid (n : UInt8) : Agent.Uuid := ⟨List.replicate 15 1 ++ [n], rfl⟩

def sampleIncident (n : UInt8) (updatedAt : Int) : StoredIncident where
  incidentId := (sampleUuid n).text
  orgId := "default"
  agentId := (sampleUuid 0).text
  title := "execution activity on " ++ (sampleUuid 0).text
  status := .opened
  cgMitre := ⟨["execution"], []⟩
  alertIds := [(sampleUuid 9).text]
  severityId := 4
  groupingKey := (sampleUuid n).text
  windowStart := 1779996600
  updatedAt := updatedAt

def sampleIncidents (first second : Int) : IncidentTable where
  rows := [sampleIncident 1 first, sampleIncident 2 second]
  ids := by
    intro row hrow
    rcases mem_pair.mp hrow with rfl | rfl
    · exact canonicalUuid_text (sampleUuid 1)
    · exact canonicalUuid_text (sampleUuid 2)
  primaryKey := by
    have hne : [(sampleUuid 1).text, (sampleUuid 2).text].Nodup := by decide
    exact hne
  windows := by
    have hrange : ((1779996600 : Int) * 1000).natAbs ≤ 8640000000000000 := by decide
    intro row hrow
    rcases mem_pair.mp hrow with rfl | rfl
    · exact hrange
    · exact hrange

def samplePage : ListParams := { limit := some "1" }

theorem samplePage_limit : numberOf sampleRuntime samplePage.limit = .finite (1 : Nat) := by
  decide +kernel

theorem samplePage_checked : checkListParams sampleRuntime samplePage = .ok () := by
  decide +kernel

/-- The first page ends at the later of two incidents of one millisecond, and its cursor is
the start of that millisecond: the second page is empty, and the last. -/
theorem sample_incident_passed_over :
    incidentMatches "default" samplePage (sampleIncident 1 1779997630000400) = true ∧
    ∃ items, followIncidents sampleRuntime "default" samplePage
        (List.replicate 2 (sampleIncidents 1779997630000400 1779997630000500).rows) =
      .ok (items, none) ∧
      ∀ item ∈ items, item.incidentId ≠ (sampleIncident 1 1779997630000400).incidentId := by
  have htraverse : incidentListing.traverse 1 (incidentMatches "default" samplePage)
      (List.replicate 2 (sampleIncidents 1779997630000400 1779997630000500).rows) =
      ([sampleIncident 2 1779997630000500], none) := by decide +kernel
  obtain ⟨items, next, hfollow, hshown, hnext⟩ :=
    (sampleIncidents 1779997630000400 1779997630000500).followed sampleRuntime "default" samplePage
      2 samplePage_checked ⟨le_refl 1, by omega⟩ samplePage_limit (by decide +kernel)
  rw [htraverse] at hshown hnext
  rw [hnext.mpr rfl] at hfollow
  refine ⟨by decide +kernel, items, hfollow, ?_⟩
  cases hshown with
  | cons hitem hrest =>
    cases hrest
    intro item hmem
    rw [mem_singleton.mp hmem, incidentItem_id hitem]
    decide +kernel

theorem sample_incidents_complete :
    Separated ((sampleIncidents 1779997630000000 1779997630001000).rows.filter
      (incidentMatches "default" samplePage)) ∧
    PagesComplete sampleRuntime (sampleIncidents 1779997630000000 1779997630001000) "default"
      samplePage := by
  have hseparated : Separated ((sampleIncidents 1779997630000000 1779997630001000).rows.filter
      (incidentMatches "default" samplePage)) := by decide +kernel
  have hcomplete := (incident_pages_complete sampleRuntime _ "default" samplePage
    samplePage_checked samplePage_limit (by decide +kernel)).mpr hseparated
  exact ⟨hseparated, hcomplete 1 (some "1") (le_refl 1) (by omega) samplePage_limit⟩

end CyberGuard.Read
