import Mathlib.Data.Prod.Lex

/-!
# The Gregorian calendar

The dates one after another from 1 January of year 1, by the lengths of the months. Nothing
is computed but the day after a date, so that a closed form can be proved against it. Dates
are ordered by year, month and day, and the calendar runs upwards in that order.
-/

namespace Gregorian
set_option autoImplicit false

structure Date where
  year : Int
  month : Int
  day : Int
  deriving DecidableEq, Repr

def isLeap (year : Int) : Bool :=
  year % 4 == 0 && (year % 100 != 0 || year % 400 == 0)

def monthLength (year month : Int) : Int :=
  if month = 2 then if isLeap year then 29 else 28
  else if month = 4 ∨ month = 6 ∨ month = 9 ∨ month = 11 then 30
  else 31

def Date.next (d : Date) : Date :=
  if d.day < monthLength d.year d.month then ⟨d.year, d.month, d.day + 1⟩
  else if d.month < 12 then ⟨d.year, d.month + 1, 1⟩
  else ⟨d.year + 1, 1, 1⟩

def nthDay : Nat → Date
  | 0 => ⟨1, 1, 1⟩
  | n + 1 => (nthDay n).next

def Date.key (d : Date) : Int ×ₗ Int ×ₗ Int := toLex (d.year, toLex (d.month, d.day))

section next
variable {year month day : Int}

theorem next_of_lt (h : day < monthLength year month) :
    (⟨year, month, day⟩ : Date).next = ⟨year, month, day + 1⟩ :=
  if_pos h

theorem next_of_last (h : day = monthLength year month) (hmonth : month < 12) :
    (⟨year, month, day⟩ : Date).next = ⟨year, month + 1, 1⟩ := by
  rw [Date.next, if_neg (Int.not_lt.mpr (Int.le_of_eq h.symm)), if_pos hmonth]

theorem next_of_year_end (h : day = monthLength year 12) :
    (⟨year, 12, day⟩ : Date).next = ⟨year + 1, 1, 1⟩ := by
  rw [Date.next, if_neg (Int.not_lt.mpr (Int.le_of_eq h.symm)), if_neg (Int.lt_irrefl 12)]

end next

theorem isLeap_iff (year : Int) :
    isLeap year = true ↔ year % 4 = 0 ∧ (year % 100 ≠ 0 ∨ year % 400 = 0) := by
  simp [isLeap]

theorem key_lt_iff (d d' : Date) : d.key < d'.key ↔ d.year < d'.year ∨
    d.year = d'.year ∧ (d.month < d'.month ∨ d.month = d'.month ∧ d.day < d'.day) := by
  rw [Date.key, Date.key, Prod.Lex.toLex_lt_toLex, Prod.Lex.toLex_lt_toLex]

theorem key_lt_next (d : Date) : d.key < d.next.key := by
  rw [key_lt_iff]
  unfold Date.next
  split
  · exact Or.inr ⟨rfl, Or.inr ⟨rfl, Int.lt_succ d.day⟩⟩
  · split
    · exact Or.inr ⟨rfl, Or.inl (Int.lt_succ d.month)⟩
    · exact Or.inl (Int.lt_succ d.year)

theorem key_nthDay_lt {m n : Nat} (h : m < n) : (nthDay m).key < (nthDay n).key := by
  induction h with
  | refl => exact key_lt_next (nthDay m)
  | step _ ih => exact ih.trans (key_lt_next (nthDay _))

end Gregorian
