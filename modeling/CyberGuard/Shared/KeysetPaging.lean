import Mathlib.Data.List.Sort

/-!
# Paging by a key

A table read page by page, the greatest key first. The next page starts under the
cursor of the last row that was returned, and the table may change in between. The
cursor of a row need not be its key: it may be the key as some text holds it. Where it
is less than the key, no row comes twice, but those in between are passed over.
-/

namespace KeysetPaging
set_option autoImplicit false
open List

universe u v
variable {R : Type u} {K : Type v} [LinearOrder K]

section pages
variable (key : R → K)

def descending (rows : List R) : List R := rows.insertionSort fun r r' => key r' ≤ key r

/-- The rows under the bound; all of them where there is none. -/
def below (bound : Option K) (rows : List R) : List R :=
  rows.filter fun r => bound.all fun b => decide (key r < b)

/-- The rows of a page and, where it does not reach the end, the last of them. -/
structure Cut (R : Type u) where
  rows : List R
  last : Option R

/-- The read asks for one row more than the page has, to see whether it reaches the end. -/
def cut (limit : Nat) (bound : Option K) (rows : List R) : Cut R :=
  let found := (descending key (below key bound rows)).take (limit + 1)
  ⟨found.take limit, if limit < found.length then (found.take limit).getLast? else none⟩

variable {key} {rows : List R} {bound : Option K} {limit : Nat} {r last : R}

theorem mem_below : r ∈ below key bound rows ↔ r ∈ rows ∧ ∀ b, bound = some b → key r < b := by
  rw [below, mem_filter]
  cases bound with
  | none => simp
  | some b => simp

theorem mem_descending : r ∈ descending key rows ↔ r ∈ rows := mem_insertionSort _

theorem descending_perm : (descending key rows).Perm rows := perm_insertionSort _ rows

theorem descending_ge : (descending key rows).Pairwise fun r r' => key r' ≤ key r := by
  have : Std.Total fun r r' : R => key r' ≤ key r := ⟨fun r r' => le_total (key r') (key r)⟩
  have : IsTrans R fun r r' => key r' ≤ key r := ⟨fun _ _ _ h h' => le_trans h' h⟩
  exact pairwise_insertionSort _ rows

theorem descending_gt (hkeys : (rows.map key).Nodup) :
    (descending key rows).Pairwise fun r r' => key r' < key r := by
  have hnodup : ((descending key rows).map key).Nodup :=
    (descending_perm.map key).nodup_iff.mpr hkeys
  have hne : (descending key rows).Pairwise fun r r' => key r ≠ key r' :=
    pairwise_map.mp hnodup
  refine (descending_ge.and hne).imp ?_
  intro r r' h
  exact lt_of_le_of_ne h.1 h.2.symm

theorem cut_rows : (cut key limit bound rows).rows =
    (descending key (below key bound rows)).take limit := by
  have hmin : min limit (limit + 1) = limit := by omega
  rw [cut, take_take, hmin]

theorem cut_mem (h : r ∈ (cut key limit bound rows).rows) :
    r ∈ rows ∧ ∀ b, bound = some b → key r < b := by
  rw [cut_rows] at h
  exact mem_below.mp (mem_descending.mp (mem_of_mem_take h))

variable (limit bound) in
theorem cut_gt (hkeys : (rows.map key).Nodup) :
    (cut key limit bound rows).rows.Pairwise fun r r' => key r' < key r := by
  rw [cut_rows]
  have hbelow : ((below key bound rows).map key).Nodup :=
    hkeys.sublist (filter_sublist.map key)
  exact (descending_gt hbelow).sublist (take_sublist limit _)

theorem cut_end_rows (hlimit : 0 < limit) (h : (cut key limit bound rows).last = none) :
    (cut key limit bound rows).rows = descending key (below key bound rows) := by
  rw [cut_rows]
  apply take_of_length_le
  by_contra hlong
  have hmore : limit < ((descending key (below key bound rows)).take (limit + 1)).length := by
    rw [length_take]
    omega
  have hnil : ((descending key (below key bound rows)).take (limit + 1)).take limit = [] := by
    apply List.getLast?_eq_none_iff.mp
    rw [cut, if_pos hmore] at h
    exact h
  have hzero := congrArg List.length hnil
  rw [length_take, length_nil] at hzero
  omega

theorem cut_end (hlimit : 0 < limit) (h : (cut key limit bound rows).last = none)
    (hr : r ∈ below key bound rows) : r ∈ (cut key limit bound rows).rows := by
  rw [cut_end_rows hlimit h]
  exact mem_descending.mpr hr

variable (key bound rows) in
theorem cut_length_le : (cut key limit bound rows).rows.length ≤ limit := by
  rw [cut_rows]
  exact length_take_le limit _

theorem cut_ne_nil (hlimit : 0 < limit) (hr : r ∈ below key bound rows) :
    (cut key limit bound rows).rows ≠ [] := by
  intro hnil
  rw [cut_rows, take_eq_nil_iff] at hnil
  rcases hnil with hzero | hnone
  · omega
  · have hmem : r ∈ descending key (below key bound rows) := mem_descending.mpr hr
    rw [hnone] at hmem
    cases hmem

theorem cut_last (h : (cut key limit bound rows).last = some last) :
    (cut key limit bound rows).rows.getLast? = some last := by
  rw [cut] at h ⊢
  split at h
  · exact h
  · cases h

theorem cut_last_mem (h : (cut key limit bound rows).last = some last) :
    last ∈ (cut key limit bound rows).rows :=
  mem_of_getLast? (cut_last h)

theorem cut_last_le (h : (cut key limit bound rows).last = some last)
    (hr : r ∈ (cut key limit bound rows).rows) : key last ≤ key r := by
  obtain ⟨front, hfront⟩ := List.getLast?_eq_some_iff.mp (cut_last h)
  have hsorted : (cut key limit bound rows).rows.Pairwise fun r r' => key r' ≤ key r := by
    rw [cut_rows]
    exact descending_ge.sublist (take_sublist limit _)
  rw [hfront] at hsorted hr
  rcases mem_append.mp hr with hfirst | hlast
  · exact (pairwise_append.mp hsorted).2.2 r hfirst last (mem_singleton_self last)
  · rw [mem_singleton.mp hlast]

theorem cut_last_lt (hkeys : (rows.map key).Nodup)
    (h : (cut key limit bound rows).last = some last) (hr : r ∈ below key bound rows)
    (hleft : r ∉ (cut key limit bound rows).rows) : key r < key last := by
  have hbelow : ((below key bound rows).map key).Nodup :=
    hkeys.sublist (filter_sublist.map key)
  have hlast := cut_last_mem h
  rw [cut_rows] at hlast hleft
  have hsorted := descending_gt hbelow
  rw [← take_append_drop limit (descending key (below key bound rows))] at hsorted
  have hdrop : r ∈ (descending key (below key bound rows)).drop limit := by
    have hmem : r ∈ descending key (below key bound rows) := mem_descending.mpr hr
    rw [← take_append_drop limit (descending key (below key bound rows))] at hmem
    exact (mem_append.mp hmem).resolve_left hleft
  exact (pairwise_append.mp hsorted).2.2 last hlast r hdrop

end pages

section traversals
variable (key cursor : R → K) (limit : Nat)

/-- The rows that reads of the tables return, one page of each, and where the next one
would start; `none` after the page that reaches the end. -/
def traverse : Option K → List (List R) → List R × Option (Option K)
  | bound, [] => ([], some bound)
  | bound, rows :: tables =>
    match (cut key limit bound rows).last with
    | none => ((cut key limit bound rows).rows, none)
    | some last =>
      let rest := traverse (some (cursor last)) tables
      ((cut key limit bound rows).rows ++ rest.1, rest.2)

variable {key cursor limit} {tables : List (List R)} {bound : Option K} {r : R}

variable (key cursor limit bound) in
theorem traverse_cons (rows : List R) (tables : List (List R)) :
    ((cut key limit bound rows).last = none ∧
      traverse key cursor limit bound (rows :: tables) = ((cut key limit bound rows).rows, none)) ∨
    ∃ last, (cut key limit bound rows).last = some last ∧
      traverse key cursor limit bound (rows :: tables) =
        ((cut key limit bound rows).rows ++
          (traverse key cursor limit (some (cursor last)) tables).1,
          (traverse key cursor limit (some (cursor last)) tables).2) := by
  rw [traverse]
  cases hlast : (cut key limit bound rows).last with
  | none => exact Or.inl ⟨rfl, rfl⟩
  | some last => exact Or.inr ⟨last, rfl, rfl⟩

theorem traverse_mem (h : r ∈ (traverse key cursor limit bound tables).1) :
    ∃ rows ∈ tables, r ∈ rows := by
  induction tables generalizing bound with
  | nil => cases h
  | cons rows tables ih =>
    rcases traverse_cons key cursor limit bound rows tables with ⟨_, heq⟩ | ⟨last, _, heq⟩
    · rw [heq] at h
      exact ⟨rows, mem_cons_self, (cut_mem h).1⟩
    · rw [heq] at h
      rcases mem_append.mp h with hfirst | hrest
      · exact ⟨rows, mem_cons_self, (cut_mem hfirst).1⟩
      · obtain ⟨later, hlater, hr⟩ := ih hrest
        exact ⟨later, mem_cons_of_mem rows hlater, hr⟩

section lossy
variable (hcursor : ∀ r, cursor r ≤ key r)
include hcursor

theorem traverse_below {b : K} (h : r ∈ (traverse key cursor limit (some b) tables).1) :
    key r < b := by
  induction tables generalizing b with
  | nil => cases h
  | cons rows tables ih =>
    rcases traverse_cons key cursor limit (some b) rows tables with ⟨_, heq⟩ | ⟨last, hlast, heq⟩
    · rw [heq] at h
      exact (cut_mem h).2 b rfl
    · rw [heq] at h
      rcases mem_append.mp h with hfirst | hrest
      · exact (cut_mem hfirst).2 b rfl
      · calc key r < cursor last := ih hrest
          _ ≤ key last := hcursor last
          _ < b := (cut_mem (cut_last_mem hlast)).2 b rfl

/-- The rows come in strict order, so none of them twice. -/
theorem traverse_gt (hkeys : ∀ rows ∈ tables, (rows.map key).Nodup) :
    (traverse key cursor limit bound tables).1.Pairwise fun r r' => key r' < key r := by
  induction tables generalizing bound with
  | nil => exact List.Pairwise.nil
  | cons rows tables ih =>
    have hfirst := cut_gt bound limit (hkeys rows mem_cons_self)
    rcases traverse_cons key cursor limit bound rows tables with ⟨_, heq⟩ | ⟨last, hlast, heq⟩
    · rw [heq]
      exact hfirst
    · rw [heq]
      apply pairwise_append.mpr
      refine ⟨hfirst, ih (fun rows' h => hkeys rows' (mem_cons_of_mem rows h)), ?_⟩
      intro r hr r' hr'
      calc key r' < cursor last := traverse_below hcursor hr'
        _ ≤ key last := hcursor last
        _ ≤ key r := cut_last_le hlast hr

/-- With pages of one row each row but the last becomes a cursor, so none passes over a row that
is returned. -/
theorem traverse_one {r' : R} (hr : r ∈ (traverse key cursor 1 bound tables).1)
    (hr' : r' ∈ (traverse key cursor 1 bound tables).1) (hlt : key r' < key r) :
    key r' < cursor r := by
  induction tables generalizing bound with
  | nil => cases hr
  | cons rows tables ih =>
    have hsame : ∀ x ∈ (cut key 1 bound rows).rows, ∀ y ∈ (cut key 1 bound rows).rows, x = y := by
      intro x hx y hy
      have hlength : (cut key 1 bound rows).rows.length ≤ 1 := cut_length_le key rows bound
      obtain ⟨i, hi, rfl⟩ := mem_iff_getElem.mp hx
      obtain ⟨j, hj, rfl⟩ := mem_iff_getElem.mp hy
      have hij : i = j := by omega
      subst hij
      rfl
    rcases traverse_cons key cursor 1 bound rows tables with ⟨_, heq⟩ | ⟨last, hlast, heq⟩
    · rw [heq] at hr hr'
      exact absurd hlt (hsame r hr r' hr' ▸ lt_irrefl _)
    · rw [heq] at hr hr'
      rcases mem_append.mp hr with hfirst | hrest
      · obtain rfl := hsame last (cut_last_mem hlast) r hfirst
        rcases mem_append.mp hr' with hfirst' | hrest'
        · exact absurd hlt (hsame _ hfirst r' hfirst' ▸ lt_irrefl _)
        · exact traverse_below hcursor hrest'
      · rcases mem_append.mp hr' with hfirst' | hrest'
        · obtain rfl := hsame last (cut_last_mem hlast) r' hfirst'
          exact absurd (((traverse_below hcursor hrest).trans_le (hcursor _)).trans hlt)
            (lt_irrefl _)
        · exact ih hrest hrest'

omit hcursor in
/-- A row that is in every table is returned, where no cursor passes it over. -/
theorem traverse_complete (hlimit : 0 < limit) (hkeys : ∀ rows ∈ tables, (rows.map key).Nodup)
    (hend : (traverse key cursor limit bound tables).2 = none) (hr : ∀ rows ∈ tables, r ∈ rows)
    (hbound : ∀ b, bound = some b → key r < b)
    (hover : ∀ rows ∈ tables, ∀ r' ∈ rows, key r < key r' → key r < cursor r') :
    r ∈ (traverse key cursor limit bound tables).1 := by
  induction tables generalizing bound with
  | nil => cases hend
  | cons rows tables ih =>
    have hbelow : r ∈ below key bound rows := mem_below.mpr ⟨hr rows mem_cons_self, hbound⟩
    rcases traverse_cons key cursor limit bound rows tables with ⟨hlast, heq⟩ | ⟨last, hlast, heq⟩
    · rw [heq]
      exact cut_end hlimit hlast hbelow
    · rw [heq] at hend ⊢
      by_cases hreturned : r ∈ (cut key limit bound rows).rows
      · exact mem_append_left _ hreturned
      · have hunder := cut_last_lt (hkeys rows mem_cons_self) hlast hbelow hreturned
        have hpassed := hover rows mem_cons_self last (cut_mem (cut_last_mem hlast)).1 hunder
        apply mem_append_right
        apply ih
        · exact fun rows' h => hkeys rows' (mem_cons_of_mem rows h)
        · exact hend
        · exact fun rows' h => hr rows' (mem_cons_of_mem rows h)
        · intro b hb
          cases hb
          exact hpassed
        · exact fun rows' h => hover rows' (mem_cons_of_mem rows h)

/-- Each page but the last leaves less under the bound. -/
theorem below_cursor_length {rows : List R} {last : R}
    (hlast : (cut key limit bound rows).last = some last) :
    (below key (some (cursor last)) rows).length < (below key bound rows).length := by
  obtain ⟨hmem, hunder⟩ := cut_mem (cut_last_mem hlast)
  have hsub : below key (some (cursor last)) rows =
      (below key bound rows).filter fun r => decide (key r < cursor last) := by
    rw [below, below, filter_filter]
    apply filter_congr
    intro r _
    rw [Option.all_some, Bool.eq_iff_iff, Bool.and_eq_true, decide_eq_true_iff]
    constructor
    · intro hr
      refine ⟨hr, ?_⟩
      cases hbound : bound with
      | none => rfl
      | some b =>
        have hb : key r < b := hr.trans ((hcursor last).trans_lt (hunder b hbound))
        simpa using hb
    · exact And.left
  rw [hsub]
  apply length_filter_lt_length_iff_exists.mpr
  refine ⟨last, mem_below.mpr ⟨hmem, hunder⟩, ?_⟩
  simpa using hcursor last

theorem traverse_ends {rows : List R} {n : Nat} (hn : (below key bound rows).length < n) :
    (traverse key cursor limit bound (List.replicate n rows)).2 = none := by
  induction n generalizing bound with
  | zero => omega
  | succ n ih =>
    rw [replicate_succ]
    rcases traverse_cons key cursor limit bound rows (List.replicate n rows) with
      ⟨_, heq⟩ | ⟨last, hlast, heq⟩
    · rw [heq]
    · rw [heq]
      have hless := below_cursor_length hcursor hlast
      apply ih
      omega

variable (tables) in
theorem exists_traverse_ends (bound : Option K) (rows : List R) :
    ∃ n, (traverse key cursor limit bound (tables ++ List.replicate n rows)).2 = none := by
  induction tables generalizing bound with
  | nil => exact ⟨_, traverse_ends hcursor (Nat.lt_succ_self _)⟩
  | cons first tables ih =>
    rcases traverse_cons key cursor limit bound first tables with ⟨hlast, _⟩ | ⟨last, hlast, _⟩
    · refine ⟨0, ?_⟩
      rw [cons_append, traverse, hlast]
    · obtain ⟨n, hn⟩ := ih (some (cursor last))
      refine ⟨n, ?_⟩
      rw [cons_append, traverse, hlast]
      exact hn

end lossy
end traversals

structure Page (α : Type u) (C : Type v) where
  items : List α
  nextCursor : Option C

section follow
universe u₁ u₂ v₁ v₂
variable {T : Type u₁} {ε : Type u₂} {α : Type v₁} {C : Type v₂}

/-- The items that requests to the service return, one request at each of its states and
each with the cursor of the one before, until one answers without a cursor. -/
def follow (request : T → Option C → Except ε (Page α C)) :
    Option C → List T → Except ε (List α × Option (Option C))
  | cursor, [] => .ok ([], some cursor)
  | cursor, state :: states =>
    match request state cursor with
    | .error e => .error e
    | .ok page =>
      match page.nextCursor with
      | none => .ok (page.items, none)
      | some next =>
        match follow request (some next) states with
        | .error e => .error e
        | .ok rest => .ok (page.items ++ rest.1, rest.2)

/-- A page as the client gets it: the rows as they are shown, and the cursor to follow. -/
structure Renders (shown : R → α → Prop) (means : C → K → Prop) (cursor : R → K) (cut : Cut R)
    (page : Page α C) : Prop where
  items : List.Forall₂ shown cut.rows page.items
  next : Option.Rel (fun last text => means text (cursor last)) cut.last page.nextCursor

variable {request : T → Option C → Except ε (Page α C)} {rowsOf : T → List R}
  {key cursor : R → K} {limit : Nat} {shown : R → α → Prop} {means : C → K → Prop}

/-- A service whose pages are those of the tables is followed as the tables are read. -/
theorem follow_traverse {states : List T}
    (hrequest : ∀ state ∈ states, ∀ text bound, Option.Rel means text bound →
      ∃ page, request state text = .ok page ∧
        Renders shown means cursor (cut key limit bound (rowsOf state)) page)
    {text : Option C} {bound : Option K} (hbound : Option.Rel means text bound) :
    ∃ items next, follow request text states = .ok (items, next) ∧
      List.Forall₂ shown (traverse key cursor limit bound (states.map rowsOf)).1 items ∧
      (next = none ↔ (traverse key cursor limit bound (states.map rowsOf)).2 = none) := by
  induction states generalizing text bound with
  | nil => exact ⟨[], some text, rfl, List.Forall₂.nil, by simp [traverse]⟩
  | cons state states ih =>
    obtain ⟨page, hpage, hrows⟩ := hrequest state mem_cons_self text bound hbound
    have hnext := hrows.next
    rw [follow, hpage, map_cons]
    rcases traverse_cons key cursor limit bound (rowsOf state) (states.map rowsOf) with
      ⟨hlast, heq⟩ | ⟨last, hlast, heq⟩
    · rw [heq]
      rw [hlast] at hnext
      cases hcursor : page.nextCursor with
      | none => exact ⟨page.items, none, by simp [hcursor], hrows.items, by simp⟩
      | some next =>
        rw [hcursor] at hnext
        cases hnext
    · rw [heq]
      rw [hlast] at hnext
      cases hcursor : page.nextCursor with
      | none =>
        rw [hcursor] at hnext
        cases hnext
      | some next =>
        rw [hcursor] at hnext
        cases hnext with
        | some hmeans =>
          obtain ⟨items, rest, hfollow, hitems, hend⟩ :=
            ih (fun state' h => hrequest state' (mem_cons_of_mem state h))
              (Option.Rel.some hmeans)
          refine ⟨page.items ++ items, rest, ?_, rel_append hrows.items hitems, hend⟩
          simp only [hcursor, hfollow]

end follow

end KeysetPaging
