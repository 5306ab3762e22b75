/-!
# Tables that replace rows by key

A table that takes rows as they come and drops, some time later, a row of whose key a
row of no lower version stays. A final read shows each key once, in the row of the
highest version; of equal versions the later row counts.
-/

namespace ReplacingTable
set_option autoImplicit false
open List

universe u v w
variable {R : Type u} {K : Type v} {V : Type w} (key : R → K) (version : R → V)

section Merging
variable [LE V]

inductive Merged : List R → List R → Prop where
  | drop {before after : List R} {old new : R} : new ∈ before ++ after → key new = key old →
      version old ≤ version new → Merged (before ++ old :: after) (before ++ after)

variable {key version} {rows rows' : List R}

theorem Merged.mem_of_mem (h : Merged key version rows rows') {r : R} (hr : r ∈ rows') :
    r ∈ rows := by
  cases h with
  | drop _ _ _ =>
    rcases mem_append.mp hr with hbefore | hafter
    · exact mem_append_left _ hbefore
    · exact mem_append_right _ (mem_cons_of_mem _ hafter)

theorem Merged.exists_key (h : Merged key version rows rows') {r : R} (hr : r ∈ rows) :
    ∃ r' ∈ rows', key r' = key r := by
  cases h with
  | @drop before after old new hnew hkey _ =>
    rcases mem_append.mp hr with hbefore | hrest
    · exact ⟨r, mem_append_left _ hbefore, rfl⟩
    · rcases mem_cons.mp hrest with rfl | hafter
      · exact ⟨new, hnew, hkey⟩
      · exact ⟨r, mem_append_right _ hafter, rfl⟩

end Merging

section Reading
variable [DecidableEq K] [LE V] [DecidableLE V]

/-- A read with `FINAL`. -/
def final : List R → List R
  | [] => []
  | r :: rest =>
    if rest.any fun r' => decide (key r' = key r ∧ version r ≤ version r') then final rest
    else r :: (final rest).filter fun r' => decide (key r' ≠ key r)

theorem mem_of_mem_final {rows : List R} {r : R} (h : r ∈ final key version rows) : r ∈ rows := by
  induction rows with
  | nil => exact h
  | cons first rest ih =>
    rw [final] at h
    split at h
    · exact mem_cons_of_mem first (ih h)
    · rcases mem_cons.mp h with rfl | hrest
      · exact mem_cons_self
      · exact mem_cons_of_mem first (ih (mem_filter.mp hrest).1)

/-- A final read shows every key of the table once, and no other key. -/
theorem countP_final (rows : List R) (k : K) :
    (final key version rows).countP (fun r => decide (key r = k)) =
      if k ∈ rows.map key then 1 else 0 := by
  induction rows with
  | nil => rfl
  | cons r rest ih =>
    by_cases hreplaced : (rest.any fun r' => decide (key r' = key r ∧ version r ≤ version r')) = true
    · rw [final, if_pos hreplaced, ih]
      obtain ⟨r', hr', hwins⟩ := any_eq_true.mp hreplaced
      have hkey : key r' = key r := (of_decide_eq_true hwins).1
      have hmem : key r ∈ rest.map key := by
        rw [← hkey]
        exact mem_map_of_mem hr'
      by_cases hk : k = key r
      · subst hk
        rw [if_pos hmem, if_pos (mem_map_of_mem mem_cons_self)]
      · have hiff : k ∈ (r :: rest).map key ↔ k ∈ rest.map key := by simp [hk]
        simp only [hiff]
    · rw [final, if_neg hreplaced, countP_cons, countP_filter]
      by_cases hk : key r = k
      · have hnone : (final key version rest).countP
            (fun r' => decide (key r' = k) && decide (key r' ≠ key r)) = 0 := by
          rw [countP_eq_zero]
          intro r' _
          simp [hk]
        rw [hnone, if_pos (decide_eq_true hk), if_pos (by simp [hk])]
      · have hsame : (final key version rest).countP
            (fun r' => decide (key r' = k) && decide (key r' ≠ key r)) =
            (final key version rest).countP (fun r' => decide (key r' = k)) := by
          apply countP_congr
          intro r' _
          by_cases hr' : key r' = k
          · have hne : k ≠ key r := fun heq => hk heq.symm
            simp [hr', hne]
          · simp [hr']
        have hiff : k ∈ (r :: rest).map key ↔ k ∈ rest.map key := by
          rw [map_cons, mem_cons]
          exact or_iff_right fun heq => hk heq.symm
        rw [hsame, ih]
        simp only [hiff, hk, decide_false, Bool.false_eq_true, if_false, Nat.add_zero]

end Reading

end ReplacingTable
