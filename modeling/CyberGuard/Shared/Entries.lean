import Mathlib.Data.List.Basic

/-!
# Entries under names equal up to a fold

A directory lists names as they were given and finds them by their folded form,
as a file system that ignores case does.
-/

namespace Entries
set_option autoImplicit false
open List

variable {K L α : Type} [DecidableEq L] (fold : K → L)

def lookup (entries : List (K × α)) (name : K) : Option α :=
  (entries.find? fun e => fold e.1 = fold name).map (·.2)

def erase (entries : List (K × α)) (name : K) : List (K × α) :=
  entries.filter fun e => fold e.1 ≠ fold name

def put (entries : List (K × α)) (name : K) (a : α) : List (K × α) :=
  erase fold entries name ++ [(name, a)]

def adjust (entries : List (K × α)) (name : K) (change : α → α) : List (K × α) :=
  entries.map fun e => if fold e.1 = fold name then (e.1, change e.2) else e

def Distinct (entries : List (K × α)) : Prop := (entries.map fun e => fold e.1).Nodup

variable {fold} {entries : List (K × α)} {name other : K} {a : α}

theorem mem_of_lookup (h : lookup fold entries name = some a) :
    ∃ e ∈ entries, fold e.1 = fold name ∧ e.2 = a := by
  obtain ⟨e, hfind, rfl⟩ := Option.map_eq_some_iff.mp h
  have hname := List.find?_some hfind
  exact ⟨e, mem_of_find?_eq_some hfind, by simpa using hname, rfl⟩

theorem lookup_eq_none : lookup fold entries name = none ↔ ∀ e ∈ entries, fold e.1 ≠ fold name := by
  simp [lookup]

theorem mem_erase {e : K × α} : e ∈ erase fold entries name ↔ e ∈ entries ∧ fold e.1 ≠ fold name := by
  simp [erase]

theorem mem_put {e : K × α} (h : e ∈ put fold entries name a) :
    (e ∈ entries ∧ fold e.1 ≠ fold name) ∨ e = (name, a) := by
  rcases mem_append.mp h with hold | hnew
  · exact .inl (mem_erase.mp hold)
  · exact .inr (mem_singleton.mp hnew)

theorem lookup_erase_of_ne (h : fold other ≠ fold name) :
    lookup fold (erase fold entries name) other = lookup fold entries other := by
  unfold lookup erase
  rw [List.find?_filter]
  congr 2
  funext e
  by_cases heq : fold e.1 = fold other
  · simp [heq, h]
  · simp [heq]

theorem lookup_erase_self : lookup fold (erase fold entries name) name = none :=
  lookup_eq_none.mpr fun _ he => (mem_erase.mp he).2

theorem lookup_append {more : List (K × α)} :
    lookup fold (entries ++ more) name = (lookup fold entries name).or (lookup fold more name) := by
  simp only [lookup, List.find?_append]
  cases entries.find? fun e => fold e.1 = fold name <;> simp

@[simp] theorem lookup_put_self : lookup fold (put fold entries name a) name = some a := by
  rw [put, lookup_append, lookup_erase_self]
  simp [lookup]

theorem lookup_put_of_ne (h : fold other ≠ fold name) :
    lookup fold (put fold entries name a) other = lookup fold entries other := by
  rw [put, lookup_append, lookup_erase_of_ne h]
  simp [lookup, Ne.symm h]

theorem lookup_adjust {change : α → α} : lookup fold (adjust fold entries name change) other =
    (lookup fold entries other).map fun a => if fold other = fold name then change a else a := by
  induction entries with
  | nil => rfl
  | cons e rest ih =>
    simp only [lookup, adjust, map_cons, List.find?_cons] at ih ⊢
    by_cases hother : fold e.1 = fold other
    · by_cases hname : fold e.1 = fold name
      · simp [hname, hname ▸ hother.symm]
      · simp [hother, hother ▸ hname]
    · by_cases hname : fold e.1 = fold name
      · simpa [hname, hname ▸ hother] using ih
      · simpa [hname, hother] using ih

theorem exists_lookup {e : K × α} (he : e ∈ entries) : ∃ b, lookup fold entries e.1 = some b := by
  cases hlookup : lookup fold entries e.1 with
  | none => exact absurd rfl (lookup_eq_none.mp hlookup e he)
  | some b => exact ⟨b, rfl⟩

theorem lookup_map {ι : Type} {key : ι → K} {f : ι → α} {names : List ι}
    (hdistinct : ∀ i ∈ names, ∀ j ∈ names, fold (key i) = fold (key j) → i = j) {i : ι}
    (hi : i ∈ names) : lookup fold (names.map fun i => (key i, f i)) (key i) = some (f i) := by
  have hmem : (key i, f i) ∈ names.map fun i => (key i, f i) := mem_map.mpr ⟨i, hi, rfl⟩
  obtain ⟨b, hb⟩ : ∃ b, lookup fold (names.map fun i => (key i, f i)) (key i) = some b :=
    exists_lookup hmem
  obtain ⟨e, he, hname, rfl⟩ := mem_of_lookup hb
  obtain ⟨j, hj, rfl⟩ := mem_map.mp he
  rw [hb, hdistinct j hj i hi hname]

theorem Distinct.erase (h : Distinct fold entries) : Distinct fold (erase fold entries name) :=
  h.sublist (filter_sublist.map _)

theorem Distinct.put (h : Distinct fold entries) : Distinct fold (put fold entries name a) := by
  unfold Distinct Entries.put
  rw [map_append, nodup_append]
  refine ⟨h.erase, by simp, ?_⟩
  intro x hx y hy heq
  obtain ⟨e, he, rfl⟩ := mem_map.mp hx
  simp only [map_cons, map_nil, mem_singleton] at hy
  exact (mem_erase.mp he).2 (heq.trans hy)

theorem map_adjust {change : α → α} :
    (adjust fold entries name change).map (·.1) = entries.map (·.1) := by
  unfold adjust
  rw [map_map]
  refine map_congr_left fun e _ => ?_
  dsimp only [Function.comp]
  split <;> rfl

theorem Distinct.adjust {change : α → α} (h : Distinct fold entries) :
    Distinct fold (adjust fold entries name change) := by
  have hnames : ((Entries.adjust fold entries name change).map (·.1)).map fold =
      (entries.map (·.1)).map fold := by rw [map_adjust]
  rw [map_map, map_map] at hnames
  exact (congrArg List.Nodup hnames).mpr h

end Entries
