import Mathlib.Data.List.Induction
import Mathlib.Data.List.Nodup
import Mathlib.Data.List.Sort

/-!
# Fields joined into one key

Lists joined with a separator that none of them holds can be told apart again, from
either end. Fields of one length are compared by the first that differs. A list taken as
a set has one form, without repetition and sorted.
-/

namespace JoinedFields
set_option autoImplicit false
open List

universe u
variable {α : Type u}

section Joining
variable {sep : α} {first first' last last' front front' rest rest' : List α}

/-- What stands before the first separator. -/
theorem first_field (h : sep ∉ first) (h' : sep ∉ first')
    (heq : first ++ sep :: rest = first' ++ sep :: rest') : first = first' ∧ rest = rest' := by
  induction first generalizing first' with
  | nil =>
    cases first' with
    | nil => exact ⟨rfl, (List.cons.inj heq).2⟩
    | cons a as =>
      have hsep : sep = a := (List.cons.inj heq).1
      exact absurd (hsep ▸ mem_cons_self) h'
  | cons b bs ih =>
    cases first' with
    | nil =>
      have hsep : b = sep := (List.cons.inj heq).1
      exact absurd (hsep ▸ mem_cons_self) h
    | cons a as =>
      obtain ⟨rfl, htail⟩ := List.cons.inj heq
      obtain ⟨rfl, hrest⟩ := ih (fun hmem => h (mem_cons_of_mem _ hmem))
        (fun hmem => h' (mem_cons_of_mem _ hmem)) htail
      exact ⟨rfl, hrest⟩

theorem last_field (h : sep ∉ last) (h' : sep ∉ last')
    (heq : front ++ sep :: last = front' ++ sep :: last') : front = front' ∧ last = last' := by
  have hrev := congrArg List.reverse heq
  simp only [reverse_append, reverse_cons, append_assoc,
    singleton_append] at hrev
  have hlast : sep ∉ last.reverse := fun hmem => h (mem_reverse.mp hmem)
  have hlast' : sep ∉ last'.reverse := fun hmem => h' (mem_reverse.mp hmem)
  obtain ⟨hl, hf⟩ := first_field hlast hlast' hrev
  exact ⟨reverse_injective hf, reverse_injective hl⟩

theorem intercalate_eq_nil {fields : List (List α)} (h : ∀ field ∈ fields, field ≠ [])
    (heq : [sep].intercalate fields = []) : fields = [] := by
  cases fields with
  | nil => rfl
  | cons field fields =>
    cases fields with
    | nil =>
      rw [intercalate_singleton] at heq
      exact absurd heq (h field mem_cons_self)
    | cons next fields =>
      rw [intercalate_cons_cons] at heq
      simp at heq

theorem mem_intercalate {a : α} {fields : List (List α)} (h : a ∈ [sep].intercalate fields) :
    a = sep ∨ ∃ field ∈ fields, a ∈ field := by
  induction fields with
  | nil => cases h
  | cons field fields ih =>
    cases fields with
    | nil =>
      rw [intercalate_singleton] at h
      exact Or.inr ⟨field, mem_cons_self, h⟩
    | cons next fields =>
      rw [intercalate_cons_cons, append_assoc] at h
      rcases mem_append.mp h with hfield | hrest
      · exact Or.inr ⟨field, mem_cons_self, hfield⟩
      · rcases mem_cons.mp hrest with hsep | hlater
        · exact Or.inl hsep
        · rcases ih hlater with hsep | ⟨found, hfound, hmem⟩
          · exact Or.inl hsep
          · exact Or.inr ⟨found, mem_cons_of_mem _ hfound, hmem⟩

/-- Fields that are not empty and hold no separator, read back from their join. -/
theorem intercalate_injective {fields fields' : List (List α)}
    (h : ∀ field ∈ fields, field ≠ [] ∧ sep ∉ field)
    (h' : ∀ field ∈ fields', field ≠ [] ∧ sep ∉ field)
    (heq : [sep].intercalate fields = [sep].intercalate fields') : fields = fields' := by
  induction fields generalizing fields' with
  | nil =>
    rw [intercalate_nil] at heq
    exact (intercalate_eq_nil (fun field hmem => (h' field hmem).1) heq.symm).symm
  | cons field fields ih =>
    cases fields' with
    | nil =>
      rw [intercalate_nil] at heq
      exact intercalate_eq_nil (fun field hmem => (h field hmem).1) heq
    | cons field' fields' =>
      have hfield := (h field mem_cons_self).2
      have hfield' := (h' field' mem_cons_self).2
      cases fields with
      | nil =>
        cases fields' with
        | nil =>
          rw [intercalate_singleton, intercalate_singleton] at heq
          rw [heq]
        | cons next' fields' =>
          rw [intercalate_singleton, intercalate_cons_cons] at heq
          apply absurd _ hfield
          rw [heq]
          simp
      | cons next fields =>
        cases fields' with
        | nil =>
          rw [intercalate_singleton, intercalate_cons_cons] at heq
          apply absurd _ hfield'
          rw [← heq]
          simp
        | cons next' fields' =>
          rw [intercalate_cons_cons, intercalate_cons_cons, append_assoc,
            append_assoc] at heq
          obtain ⟨rfl, hrest⟩ := first_field hfield hfield' heq
          rw [ih (fun f hmem => h f (mem_cons_of_mem _ hmem))
            (fun f hmem => h' f (mem_cons_of_mem _ hmem)) hrest]

theorem append_lt_of_lt [LinearOrder α] (hlength : front.length = front'.length)
    (h : front < front') (rest rest' : List α) : front ++ rest < front' ++ rest' := by
  induction front generalizing front' with
  | nil =>
    cases front' with
    | nil => exact absurd h (not_lt_nil [])
    | cons a front' => cases hlength
  | cons a front ih =>
    cases front' with
    | nil => cases hlength
    | cons a' front' =>
      rcases cons_lt_cons_iff.mp h with hlt | ⟨rfl, hlt⟩
      · exact cons_lt_cons_iff.mpr (Or.inl hlt)
      · exact cons_lt_cons_iff.mpr (Or.inr ⟨rfl, ih (Nat.succ.inj hlength) hlt⟩)

end Joining

section Distinct
variable [BEq α] [LawfulBEq α]

theorem eraseDups_concat (l : List α) (a : α) :
    (l ++ [a]).eraseDups = if a ∈ l then l.eraseDups else l.eraseDups ++ [a] := by
  rw [eraseDups_append]
  split
  · rename_i hmem
    simp [List.removeAll, hmem]
  · rename_i hmem
    simp [List.removeAll, hmem, eraseDups_cons]

theorem nodup_eraseDups (l : List α) : l.eraseDups.Nodup := by
  induction l using List.reverseRecOn with
  | nil => exact nodup_nil
  | append_singleton l a ih =>
    rw [eraseDups_concat]
    split
    · exact ih
    · rename_i hmem
      refine ih.append (nodup_singleton a) (disjoint_singleton.mpr ?_)
      exact fun h => hmem (mem_eraseDups.mp h)

/-- The sorted form of a list says which elements it has, and nothing more. -/
theorem sorted_eraseDups_eq_iff [LinearOrder α] {l l' : List α} :
    l.eraseDups.insertionSort (· ≤ ·) = l'.eraseDups.insertionSort (· ≤ ·) ↔
      ∀ a, a ∈ l ↔ a ∈ l' := by
  constructor
  · intro heq a
    rw [← mem_eraseDups, ← mem_insertionSort (· ≤ ·), heq, mem_insertionSort,
      mem_eraseDups]
  · intro hsame
    have hperm : l.eraseDups.Perm l'.eraseDups := by
      apply (perm_ext_iff_of_nodup (nodup_eraseDups l) (nodup_eraseDups l')).mpr
      intro a
      rw [mem_eraseDups, mem_eraseDups]
      exact hsame a
    apply List.Perm.eq_of_pairwise (fun a b _ _ => le_antisymm)
      (pairwise_insertionSort _ _) (pairwise_insertionSort _ _)
    exact (perm_insertionSort _ _).trans (hperm.trans (perm_insertionSort _ _).symm)

end Distinct

end JoinedFields
