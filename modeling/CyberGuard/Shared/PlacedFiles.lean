import Mathlib.Data.List.Nodup
import Mathlib.Logic.Function.Basic

/-!
# Files read in the order of their places

Files of records at places, read one place after the other. A file that moves to the
place just before its own, where none is, is read where it was.
-/

namespace PlacedFiles
set_option autoImplicit false
open List

variable {P R : Type} [DecidableEq P]

abbrev Files (P R : Type) := P → Option (List R)

def reading (places : List P) (files : Files P R) : List R :=
  places.flatMap fun place => (files place).getD []

def move (files : Files P R) (source target : P) : Files P R :=
  Function.update (Function.update files target (files source)) source none

def delete (files : Files P R) (place : P) : Files P R := Function.update files place none

def put (files : Files P R) (place : P) (records : List R) : Files P R :=
  Function.update files place (some records)

variable {places front back : List P} {files : Files P R} {place source target : P}

theorem move_source : move files source target source = none := Function.update_self ..

theorem move_target (h : target ≠ source) : move files source target target = files source := by
  rw [move, Function.update_of_ne h, Function.update_self]

theorem move_of_ne (hsource : place ≠ source) (htarget : place ≠ target) :
    move files source target place = files place := by
  rw [move, Function.update_of_ne hsource, Function.update_of_ne htarget]

omit [DecidableEq P] in
theorem reading_append (front back : List P) (files : Files P R) :
    reading (front ++ back) files = reading front files ++ reading back files :=
  flatMap_append

omit [DecidableEq P] in
theorem reading_cons (place : P) (back : List P) (files : Files P R) :
    reading (place :: back) files = (files place).getD [] ++ reading back files :=
  flatMap_cons

omit [DecidableEq P] in
theorem reading_congr {files' : Files P R} (h : ∀ place ∈ places, files' place = files place) :
    reading places files' = reading places files := by
  induction places with
  | nil => rfl
  | cons first rest ih =>
    rw [reading_cons, reading_cons, h first mem_cons_self,
      ih fun place hplace => h place (mem_cons_of_mem _ hplace)]

theorem reading_move (hplaces : (front ++ target :: source :: back).Nodup)
    (hfree : files target = none) :
    reading (front ++ target :: source :: back) (move files source target) =
      reading (front ++ target :: source :: back) files := by
  obtain ⟨-, hrest, hapart⟩ := nodup_append.mp hplaces
  obtain ⟨htarget, hrest⟩ := nodup_cons.mp hrest
  obtain ⟨hsource, -⟩ := nodup_cons.mp hrest
  have hne : target ≠ source := fun heq => htarget (heq ▸ mem_cons_self)
  have hfront : reading front (move files source target) = reading front files := by
    apply reading_congr
    intro place hplace
    apply move_of_ne
    · exact hapart place hplace source (mem_cons_of_mem _ mem_cons_self)
    · exact hapart place hplace target mem_cons_self
  have hback : reading back (move files source target) = reading back files := by
    apply reading_congr
    intro place hplace
    apply move_of_ne
    · exact fun heq => hsource (heq ▸ hplace)
    · exact fun heq => htarget (heq ▸ mem_cons_of_mem _ hplace)
  rw [reading_append, reading_append, reading_cons, reading_cons, reading_cons, reading_cons,
    hfront, hback, move_target hne, move_source, hfree]
  rfl

theorem reading_put (hplaces : (front ++ place :: back).Nodup) (records : List R) :
    reading (front ++ place :: back) (put files place records) =
      reading front files ++ (records ++ reading back files) := by
  obtain ⟨-, hrest, hapart⟩ := nodup_append.mp hplaces
  obtain ⟨hplace, -⟩ := nodup_cons.mp hrest
  have hfront : reading front (put files place records) = reading front files := by
    apply reading_congr
    intro other hother
    exact Function.update_of_ne (hapart other hother place mem_cons_self) ..
  have hback : reading back (put files place records) = reading back files := by
    apply reading_congr
    intro other hother
    have hne : other ≠ place := fun heq => hplace (heq ▸ hother)
    exact Function.update_of_ne hne ..
  rw [reading_append, reading_cons, hfront, hback, put, Function.update_self]
  rfl

theorem reading_delete (hplaces : (place :: back).Nodup) :
    (files place).getD [] ++ reading (place :: back) (delete files place) =
      reading (place :: back) files := by
  obtain ⟨hplace, -⟩ := nodup_cons.mp hplaces
  have hback : reading back (delete files place) = reading back files := by
    apply reading_congr
    intro other hother
    have hne : other ≠ place := fun heq => hplace (heq ▸ hother)
    exact Function.update_of_ne hne ..
  rw [reading_cons, reading_cons, hback, delete, Function.update_self]
  rfl

end PlacedFiles
