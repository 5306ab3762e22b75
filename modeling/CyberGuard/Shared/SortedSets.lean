import Mathlib.Data.List.Sort

/-!
# Sets and maps kept as sorted lists

A set is the list of its members in their order, each once, so two sets with the same
members are the same list. A map is the list of its entries in the order of their keys.
-/

namespace SortedSets
set_option autoImplicit false
open List

variable {α β : Type} [LinearOrder α]

/-- An entry of the same key is replaced. -/
def insertBy (key : β → α) (x : β) : List β → List β
  | [] => [x]
  | y :: rest =>
    if key x < key y then x :: y :: rest
    else if key x = key y then x :: rest
    else y :: insertBy key x rest

def mapOf (key : β → α) (items : List β) : List β :=
  items.foldl (fun map x => insertBy key x map) []

def insert (x : α) (set : List α) : List α := insertBy id x set

def setOf (items : List α) : List α := items.foldl (fun set x => insert x set) []

section maps
variable {key : β → α} {x y : β} {map : List β}

theorem mem_of_mem_insertBy (h : y ∈ insertBy key x map) : y = x ∨ y ∈ map := by
  induction map with
  | nil => exact Or.inl (mem_singleton.mp h)
  | cons first rest ih =>
    rw [insertBy] at h
    split at h
    · exact mem_cons.mp h
    · split at h
      · exact (mem_cons.mp h).imp_right (mem_cons_of_mem _)
      · rcases mem_cons.mp h with rfl | hrest
        · exact Or.inr mem_cons_self
        · exact (ih hrest).imp_right (mem_cons_of_mem _)

theorem pairwise_insertBy (h : map.Pairwise (key · < key ·)) :
    (insertBy key x map).Pairwise (key · < key ·) := by
  induction map with
  | nil => exact pairwise_singleton _ x
  | cons first rest ih =>
    obtain ⟨hfirst, hrest⟩ := pairwise_cons.mp h
    rw [insertBy]
    split
    · rename_i hlt
      refine pairwise_cons.mpr ⟨?_, h⟩
      intro z hz
      rcases mem_cons.mp hz with rfl | hz
      · exact hlt
      · exact hlt.trans (hfirst z hz)
    · split
      · rename_i heq
        exact pairwise_cons.mpr ⟨fun z hz => heq ▸ hfirst z hz, hrest⟩
      · rename_i hnot hne
        refine pairwise_cons.mpr ⟨?_, ih hrest⟩
        intro z hz
        rcases mem_of_mem_insertBy hz with rfl | hz
        · exact lt_of_le_of_ne (not_lt.mp hnot) (Ne.symm hne)
        · exact hfirst z hz

theorem pairwise_mapOf (key : β → α) (items : List β) :
    (mapOf key items).Pairwise (key · < key ·) := by
  have hfold : ∀ map : List β, map.Pairwise (key · < key ·) →
      (items.foldl (fun map x => insertBy key x map) map).Pairwise (key · < key ·) := by
    induction items with
    | nil => exact fun _ h => h
    | cons x rest ih => exact fun _ h => ih _ (pairwise_insertBy h)
  exact hfold [] List.Pairwise.nil

end maps

variable {x y : α} {set items items' : List α}

theorem mem_insert : y ∈ insert x set ↔ y = x ∨ y ∈ set := by
  refine ⟨mem_of_mem_insertBy, ?_⟩
  intro h
  induction set with
  | nil => exact mem_cons.mpr h
  | cons first rest ih =>
    rw [insert, insertBy]
    split
    · exact mem_cons.mpr h
    · split
      · rename_i heq
        obtain rfl : x = first := heq
        exact h.elim (fun hx => hx ▸ mem_cons_self) id
      · rcases h with hx | hmem
        · exact mem_cons_of_mem _ (ih (Or.inl hx))
        · rcases mem_cons.mp hmem with rfl | hrest
          · exact mem_cons_self
          · exact mem_cons_of_mem _ (ih (Or.inr hrest))

theorem mem_foldl_insert : y ∈ items.foldl (fun set x => insert x set) set ↔
    y ∈ items ∨ y ∈ set := by
  induction items generalizing set with
  | nil => simp
  | cons x rest ih =>
    rw [foldl_cons, ih, mem_insert, mem_cons]
    exact or_left_comm.trans or_assoc.symm

theorem mem_setOf : y ∈ setOf items ↔ y ∈ items := by
  rw [setOf, mem_foldl_insert]
  simp

theorem pairwise_setOf (items : List α) : (setOf items).Pairwise (· < ·) :=
  pairwise_mapOf id items

theorem setOf_eq_iff : setOf items = setOf items' ↔ ∀ x, x ∈ items ↔ x ∈ items' := by
  constructor
  · intro h x
    rw [← mem_setOf, h, mem_setOf]
  · intro h
    apply (pairwise_setOf items).eq_of_mem_iff (pairwise_setOf items')
    intro x
    rw [mem_setOf, mem_setOf]
    exact h x

theorem setOf_eq_nil : setOf items = [] ↔ items = [] := by
  rw [eq_nil_iff_forall_not_mem, eq_nil_iff_forall_not_mem]
  simp only [mem_setOf]

end SortedSets
