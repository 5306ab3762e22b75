import Mathlib.Order.Defs.LinearOrder
import Mathlib.Data.List.Perm.Basic
import Mathlib.Data.List.Sort

/-!
# Reads ordered by a key and cut at a limit

What a table may answer to a read that orders the rows by a key and returns the
first ones. The order of rows of one key is not said, so the cut may fall between
two of them.
-/

namespace OrderedRead
set_option autoImplicit false
open List

universe u v
variable {R : Type u} {K : Type v} [LinearOrder K] (key : R → K)

structure Ordered (eligible rows : List R) : Prop where
  perm : rows.Perm eligible
  sorted : rows.Pairwise fun r r' => key r ≤ key r'

/-- The first rows, at most `limit`; fewer only when no row is left out. -/
structure Answers (eligible : List R) (limit : Nat) (rows : List R) : Prop where
  bounded : rows.length ≤ limit
  cut : ∃ rest, Ordered key eligible (rows ++ rest) ∧ (rest = [] ∨ rows.length = limit)

variable {key} {eligible rows : List R} {limit : Nat} {r last : R}

variable (key) in
theorem exists_ordered (eligible : List R) : ∃ rows, Ordered key eligible rows := by
  have : Std.Total fun r r' : R => key r ≤ key r' := ⟨fun r r' => le_total (key r) (key r')⟩
  have : IsTrans R fun r r' => key r ≤ key r' := ⟨fun _ _ _ => le_trans⟩
  exact ⟨_, perm_insertionSort (fun r r' => key r ≤ key r') eligible,
    pairwise_insertionSort _ eligible⟩

theorem Answers.mem (h : Answers key eligible limit rows) (hr : r ∈ rows) : r ∈ eligible := by
  obtain ⟨rest, hordered, _⟩ := h.cut
  exact hordered.perm.mem_iff.mp (mem_append_left rest hr)

theorem Answers.mem_or_tie (h : Answers key eligible limit rows) (hlast : last ∈ rows)
    (hr : r ∈ eligible) (hle : key r ≤ key last) : r ∈ rows ∨ key r = key last := by
  obtain ⟨rest, hordered, _⟩ := h.cut
  rcases mem_append.mp (hordered.perm.mem_iff.mpr hr) with hread | hleft
  · exact Or.inl hread
  · have hge : key last ≤ key r := (pairwise_append.mp hordered.sorted).2.2 last hlast r hleft
    exact Or.inr (le_antisymm hle hge)

theorem Answers.le_last (h : Answers key eligible limit rows) (hlast : rows.getLast? = some last)
    (hr : r ∈ rows) : key r ≤ key last := by
  obtain ⟨rest, hordered, _⟩ := h.cut
  obtain ⟨front, rfl⟩ := List.getLast?_eq_some_iff.mp hlast
  have hsorted := (pairwise_append.mp hordered.sorted).1
  rcases mem_append.mp hr with hfront | hsame
  · exact (pairwise_append.mp hsorted).2.2 r hfront last (mem_singleton_self last)
  · rw [mem_singleton.mp hsame]

theorem find_reverse_greatest {test : R → Bool} (hsorted : rows.Pairwise fun r r' => key r ≤ key r')
    (h : rows.reverse.find? test = some r) :
    (r ∈ rows ∧ test r = true) ∧ ∀ r' ∈ rows, test r' = true → key r' ≤ key r := by
  obtain ⟨htest, later, earlier, hsplit, hlater⟩ := List.find?_eq_some_iff_append.mp h
  have hrows : rows = earlier.reverse ++ r :: later.reverse := by
    rw [← reverse_reverse rows, hsplit]
    simp
  rw [hrows] at hsorted
  have hbefore := (pairwise_append.mp hsorted).2.2
  refine ⟨⟨?_, htest⟩, ?_⟩
  · rw [hrows]
    exact mem_append_right _ mem_cons_self
  · intro r' hr' htest'
    rw [hrows] at hr'
    rcases mem_append.mp hr' with hearlier | hrest
    · exact hbefore r' hearlier r mem_cons_self
    · rcases mem_cons.mp hrest with rfl | hafter
      · exact le_refl _
      · have hno := hlater r' (mem_reverse.mp hafter)
        rw [htest'] at hno
        cases hno

omit [LinearOrder K] in
/-- What a fold picks of a list is one of it and relates to all of it. -/
theorem foldl_pick (rel : K → K → Prop) [Std.Refl rel] [IsTrans K rel] (pick : K → K → K)
    (hone : ∀ a b, pick a b = a ∨ pick a b = b)
    (hrel : ∀ a b, rel (pick a b) a ∧ rel (pick a b) b) (first : K) (rest : List K) :
    rest.foldl pick first ∈ first :: rest ∧
      ∀ x ∈ first :: rest, rel (rest.foldl pick first) x := by
  induction rest generalizing first with
  | nil =>
    refine ⟨mem_cons_self, ?_⟩
    intro x hx
    rw [mem_singleton.mp hx]
    exact Std.Refl.refl first
  | cons next rest ih =>
    obtain ⟨hmem, hall⟩ := ih (pick first next)
    have hpicked := hall (pick first next) mem_cons_self
    obtain ⟨hfirst, hnext⟩ := hrel first next
    constructor
    · rcases mem_cons.mp hmem with heq | hrest
      · rw [foldl_cons, heq]
        rcases hone first next with h | h
        · rw [h]
          exact mem_cons_self
        · rw [h]
          exact mem_cons_of_mem first mem_cons_self
      · exact mem_cons_of_mem first (mem_cons_of_mem next hrest)
    · intro x hx
      rcases mem_cons.mp hx with rfl | hrest
      · exact IsTrans.trans _ _ _ hpicked hfirst
      · rcases mem_cons.mp hrest with rfl | hlater
        · exact IsTrans.trans _ _ _ hpicked hnext
        · exact hall x (mem_cons_of_mem _ hlater)

theorem foldl_least (first : K) (rest : List K) :
    rest.foldl (fun a b => if a < b then a else b) first ∈ first :: rest ∧
      ∀ x ∈ first :: rest, rest.foldl (fun a b => if a < b then a else b) first ≤ x := by
  apply foldl_pick (· ≤ ·)
  · intro a b
    exact ite_eq_or_eq _ a b
  · intro a b
    by_cases hlt : a < b
    · rw [if_pos hlt]
      exact ⟨le_refl a, le_of_lt hlt⟩
    · rw [if_neg hlt]
      exact ⟨not_lt.mp hlt, le_refl b⟩

theorem foldl_greatest (first : K) (rest : List K) :
    rest.foldl (fun a b => if b < a then a else b) first ∈ first :: rest ∧
      ∀ x ∈ first :: rest, x ≤ rest.foldl (fun a b => if b < a then a else b) first := by
  apply foldl_pick (· ≥ ·)
  · intro a b
    exact ite_eq_or_eq _ a b
  · intro a b
    by_cases hlt : b < a
    · rw [if_pos hlt]
      exact ⟨le_refl a, le_of_lt hlt⟩
    · rw [if_neg hlt]
      exact ⟨not_lt.mp hlt, le_refl b⟩

end OrderedRead
