import Mathlib.Data.String.Basic
import CyberGuard.Shared.JoinedFields
import CyberGuard.Ingest.Calendar

/-!
# Times as ClickHouse prints them

`utcText n` is the time `n` nanoseconds after the epoch, in UTC: its date in the calendar,
its time of day and nine digits of nanoseconds. Each field has its own width, so these
texts are ordered as the times are, and `stringNanosToChDateTime` writes them.
-/

namespace CyberGuard.Ingest
set_option autoImplicit false
open Gregorian JoinedFields List

/-- `YYYY-MM-DD`. -/
def dateText (d : Date) : String :=
  padStart 4 d.year.toNat ++ "-" ++ padStart 2 d.month.toNat ++ "-" ++ padStart 2 d.day.toNat

/-- `HH:MM:SS` of a second of the day. -/
def clockText (second : Nat) : String :=
  padStart 2 (second / 3600) ++ ":" ++ padStart 2 (second / 60 % 60) ++ ":" ++
    padStart 2 (second % 60)

/-- The date of a second counted from the epoch, which is day 719162 of the calendar. -/
def dateAt (seconds : Int) : Date := nthDay (seconds / 86400 + 719162).toNat

def secondText (seconds : Int) : String :=
  dateText (dateAt seconds) ++ " " ++ clockText (seconds % 86400).toNat

def utcText (nanos : Int) : String :=
  secondText (nanos / 1000000000) ++ "." ++ padStart 9 (nanos % 1000000000).toNat

theorem dateAt_civil {seconds : Int} (h : InYears (seconds * 1000)) :
    dateOf (civilFromDays (seconds / 86400)) = dateAt seconds := by
  obtain ⟨hlow, _⟩ := h
  have hday : (((seconds / 86400 + 719162).toNat : Nat) : Int) - 719162 = seconds / 86400 := by omega
  rw [← hday, civilFromDays_nthDay]
  rfl

example : dateAt 0 = ⟨1970, 1, 1⟩ := by
  rw [← dateAt_civil (by decide)]
  decide

theorem exists_secondFields {millis : Int} (h : InYears millis) :
    ∃ f : DateFields, toISOString millis = some f.text ∧ f.seconds = millis / 1000 ∧
      dateAt (millis / 1000) = ⟨f.year, f.month, f.day⟩ ∧
      f.dayText = dateText (dateAt (millis / 1000)) ∧
      f.clockText = clockText (millis / 1000 % 86400).toNat := by
  obtain ⟨f, htext, hmillis, _, hcivil⟩ := exists_civilFields h
  obtain ⟨hdays, _⟩ := civilFromDays_spec hcivil
  have hday : millis / 86400000 = millis / 1000 / 86400 := by omega
  have hdate : dateAt (millis / 1000) = ⟨f.year, f.month, f.day⟩ := by
    rw [hday] at hcivil
    have hyears : InYears (millis / 1000 * 1000) := by
      rw [InYears] at h ⊢
      omega
    rw [← dateAt_civil hyears, hcivil]
    rfl
  have hmilli := f.milli_lt
  have hhour := f.hour_le
  have hminute := f.minute_le
  have hsecond := f.second_le
  have hseconds : f.seconds = millis / 1000 := by
    rw [DateFields.millis] at hmillis
    rw [DateFields.seconds]
    omega
  have hclock : (millis / 1000 % 86400).toNat = 3600 * f.hour + 60 * f.minute + f.second := by
    rw [DateFields.seconds, hdays] at hseconds
    omega
  refine ⟨f, htext, hseconds, hdate, ?_, ?_⟩
  · rw [hdate]
    rfl
  · have hh : (3600 * f.hour + 60 * f.minute + f.second) / 3600 = f.hour := by omega
    have hm : (3600 * f.hour + 60 * f.minute + f.second) / 60 % 60 = f.minute := by omega
    have hs : (3600 * f.hour + 60 * f.minute + f.second) % 60 = f.second := by omega
    rw [hclock, clockText, hh, hm, hs]
    rfl

section slices
variable (f : DateFields) {sep : String} (hsep : sep.toList.length = 1) (rest : String)

theorem slice_day : slice (f.dayText ++ sep ++ f.clockText ++ rest) 0 10 = f.dayText := by
  have hsplit : f.dayText ++ sep ++ f.clockText ++ rest =
      "" ++ f.dayText ++ (sep ++ f.clockText ++ rest) := by
    simp only [String.empty_append, String.append_assoc]
  rw [hsplit]
  apply slice_middle rfl
  rw [f.dayText_length]
  rfl

include hsep

theorem slice_clock : slice (f.dayText ++ sep ++ f.clockText ++ rest) 11 19 = f.clockText := by
  apply slice_middle
  · rw [String.toList_append, length_append, f.dayText_length, hsep]
  · rw [f.clockText_length]

theorem drop_clock : (f.dayText ++ sep ++ f.clockText ++ rest).toList.drop 19 = rest.toList := by
  rw [String.toList_append]
  apply drop_left'
  simp only [String.toList_append, length_append, f.dayText_length, f.clockText_length, hsep]

end slices

theorem iso_secondText {millis : Int} (h : InYears millis) : ∃ iso, toISOString millis = some iso ∧
    slice iso 0 10 ++ " " ++ slice iso 11 19 = secondText (millis / 1000) := by
  obtain ⟨f, htext, _, _, hday, hclock⟩ := exists_secondFields h
  refine ⟨f.text, htext, ?_⟩
  rw [f.text_eq, slice_day, slice_clock f rfl, hday, hclock]
  rfl

theorem nanos_inYears {n : Nat} (h : n < 2 ^ 63) : InYears ((n / 1000000 : Nat) : Int) := by
  rw [InYears]
  omega

theorem stringNanosToChDateTime_eq {v : String} {n : Nat} (hv : bigInt v = some n)
    (hn : n < 2 ^ 63) : stringNanosToChDateTime v = some (utcText n) := by
  obtain ⟨iso, hiso, htext⟩ := iso_secondText (nanos_inYears hn)
  have hseconds : ((n / 1000000 : Nat) : Int) / 1000 = (n : Int) / 1000000000 := by omega
  have hnanos : ((n : Int) % 1000000000).toNat = n % 1000000000 := by omega
  rw [hseconds] at htext
  rw [stringNanosToChDateTime, hv]
  simp only [Option.bind_eq_bind, Option.bind_some, hiso, htext]
  rw [utcText, hnanos]

theorem padStart_succ {width : Nat} (hwidth : 0 < width) (n : Nat) :
    (padStart (width + 1) n).toList = (padStart width (n / 10)).toList ++ [(n % 10).digitChar] := by
  rw [padStart_toList, padStart_toList]
  by_cases hsmall : n < 10
  · have hzero : n / 10 = 0 := by omega
    obtain ⟨width, rfl⟩ : ∃ w, width = w + 1 := ⟨width - 1, by omega⟩
    rw [hzero, Nat.mod_eq_of_lt hsmall, Nat.toDigits_of_lt_base hsmall,
      Nat.toDigits_of_lt_base (by decide)]
    simp [replicate_succ']
  · have hlength : width + 1 - ((Nat.toDigits 10 (n / 10)).length + 1) =
        width - (Nat.toDigits 10 (n / 10)).length := by omega
    rw [Nat.toDigits_of_base_le (by decide) (by omega), length_append, length_singleton,
      hlength, append_assoc]

theorem digitChar_lt {d d' : Nat} (h : d < d') (h' : d' < 10) : d.digitChar < d'.digitChar := by
  have hall : ∀ d' < 10, ∀ d < d', d.digitChar < d'.digitChar := by decide
  exact hall d' h' d h

/-- Numerals of one width are ordered as their numbers. -/
theorem padStart_lt {width a b : Nat} (hwidth : 0 < width) (h : a < b) (hb : b < 10 ^ width) :
    (padStart width a).toList < (padStart width b).toList := by
  induction width, hwidth using Nat.le_induction generalizing a b with
  | base =>
    have hb' : b < 10 := hb
    rw [padStart_toList, padStart_toList, Nat.toDigits_of_lt_base (by omega),
      Nat.toDigits_of_lt_base hb']
    exact cons_lt_cons_iff.mpr (Or.inl (digitChar_lt h hb'))
  | succ width hwidth ih =>
    rw [padStart_succ hwidth, padStart_succ hwidth]
    have htens : b / 10 < 10 ^ width := by
      rw [Nat.pow_succ] at hb
      omega
    rcases Nat.lt_or_ge (a / 10) (b / 10) with hlt | hge
    · apply append_lt_of_lt _ (ih hlt htens)
      rw [padStart_length hwidth (by omega), padStart_length hwidth htens]
    · have heq : a / 10 = b / 10 := by omega
      rw [heq]
      apply append_left_lt
      exact cons_lt_cons_iff.mpr (Or.inl (digitChar_lt (by omega) (by omega)))

theorem padStart_append_lt {width a b : Nat} {rest rest' : List Char} (hwidth : 0 < width)
    (hb : b < 10 ^ width) (h : a < b ∨ a = b ∧ rest < rest') :
    (padStart width a).toList ++ rest < (padStart width b).toList ++ rest' := by
  rcases h with hlt | ⟨rfl, hrest⟩
  · apply append_lt_of_lt _ (padStart_lt hwidth hlt hb)
    rw [padStart_length hwidth (Nat.lt_trans hlt hb), padStart_length hwidth hb]
  · exact append_left_lt hrest

theorem clockText_toList (second : Nat) : (clockText second).toList =
    (padStart 2 (second / 3600)).toList ++ ':' :: ((padStart 2 (second / 60 % 60)).toList ++
      ':' :: (padStart 2 (second % 60)).toList) := by
  simp [clockText]

theorem clockText_lt {second second' : Nat} (h : second < second') (h' : second' < 86400) :
    (clockText second).toList < (clockText second').toList := by
  rw [clockText_toList, clockText_toList]
  apply padStart_append_lt (by decide) (by omega)
  by_cases hhour : second / 3600 < second' / 3600
  · exact Or.inl hhour
  · refine Or.inr ⟨by omega, cons_lt_cons_iff.mpr (Or.inr ⟨rfl, ?_⟩)⟩
    apply padStart_append_lt (by decide) (by omega)
    by_cases hminute : second / 60 % 60 < second' / 60 % 60
    · exact Or.inl hminute
    · refine Or.inr ⟨by omega, cons_lt_cons_iff.mpr (Or.inr ⟨rfl, ?_⟩)⟩
      exact padStart_lt (by decide) (by omega) (by omega)

structure FitsText (d : Date) : Prop where
  year : 0 ≤ d.year ∧ d.year < 10000
  month : 0 ≤ d.month ∧ d.month < 100
  day : 0 ≤ d.day ∧ d.day < 100

theorem dateAt_fits {seconds : Int} (h : InYears (seconds * 1000)) : FitsText (dateAt seconds) := by
  obtain ⟨f, _, _, hdate, _⟩ := exists_secondFields h
  have hback : seconds * 1000 / 1000 = seconds := by omega
  have hyear := f.year_lt
  have hmonth := f.month_range
  have hday := f.day_range
  rw [hback] at hdate
  rw [hdate]
  constructor
  all_goals
    dsimp only
    omega

theorem dateText_toList (d : Date) : (dateText d).toList =
    (padStart 4 d.year.toNat).toList ++ '-' :: ((padStart 2 d.month.toNat).toList ++
      '-' :: (padStart 2 d.day.toNat).toList) := by
  simp [dateText]

theorem dateText_length {d : Date} (h : FitsText d) : (dateText d).toList.length = 10 := by
  obtain ⟨hyear, hmonth, hday⟩ := h
  rw [dateText_toList]
  simp only [length_append, length_cons]
  rw [padStart_length (by decide) (by omega), padStart_length (by decide) (by omega),
    padStart_length (by decide) (by omega)]

theorem dateText_lt {d d' : Date} (hd : FitsText d) (hd' : FitsText d') (h : d.key < d'.key) :
    (dateText d).toList < (dateText d').toList := by
  obtain ⟨hyear, hmonth, hday⟩ := hd
  obtain ⟨hyear', hmonth', hday'⟩ := hd'
  rw [dateText_toList, dateText_toList]
  apply padStart_append_lt (by decide) (by omega)
  rcases (key_lt_iff d d').mp h with hlt | ⟨heq, hrest⟩
  · exact Or.inl (by omega)
  · refine Or.inr ⟨by rw [heq], cons_lt_cons_iff.mpr (Or.inr ⟨rfl, ?_⟩)⟩
    apply padStart_append_lt (by decide) (by omega)
    rcases hrest with hlt | ⟨heq, hlt⟩
    · exact Or.inl (by omega)
    · refine Or.inr ⟨by rw [heq], cons_lt_cons_iff.mpr (Or.inr ⟨rfl, ?_⟩)⟩
      exact padStart_lt (by decide) (by omega) (by omega)

theorem secondText_toList (seconds : Int) : (secondText seconds).toList =
    (dateText (dateAt seconds)).toList ++ ' ' :: (clockText (seconds % 86400).toNat).toList := by
  simp [secondText]

theorem secondText_length {seconds : Int} (h : InYears (seconds * 1000)) :
    (secondText seconds).toList.length = 19 := by
  have hclock : (clockText (seconds % 86400).toNat).toList.length = 8 := by
    rw [clockText_toList]
    simp only [length_append, length_cons]
    rw [padStart_length (by decide) (by omega), padStart_length (by decide) (by omega),
      padStart_length (by decide) (by omega)]
  rw [secondText_toList, length_append, dateText_length (dateAt_fits h), length_cons,
    hclock]

theorem secondText_lt {seconds seconds' : Int} (h : InYears (seconds * 1000))
    (h' : InYears (seconds' * 1000)) (hlt : seconds < seconds') :
    (secondText seconds).toList < (secondText seconds').toList := by
  rw [secondText_toList, secondText_toList]
  by_cases hday : seconds / 86400 < seconds' / 86400
  · have hkey : (dateAt seconds).key < (dateAt seconds').key := by
      apply key_nthDay_lt
      obtain ⟨hlow, _⟩ := h
      omega
    have hfits := dateAt_fits h
    have hfits' := dateAt_fits h'
    apply append_lt_of_lt _ (dateText_lt hfits hfits' hkey)
    rw [dateText_length hfits, dateText_length hfits']
  · have hsame : seconds / 86400 = seconds' / 86400 := by omega
    rw [dateAt, dateAt, hsame]
    apply append_left_lt
    refine cons_lt_cons_iff.mpr (Or.inr ⟨rfl, ?_⟩)
    exact clockText_lt (by omega) (by omega)

def Printable (nanos : Int) : Prop := InYears (nanos / 1000000)

instance (nanos : Int) : Decidable (Printable nanos) := inferInstanceAs (Decidable (InYears _))

theorem Printable.seconds {nanos : Int} (h : Printable nanos) :
    InYears (nanos / 1000000000 * 1000) := by
  obtain ⟨hlow, hhigh⟩ := h
  rw [InYears]
  omega

theorem utcText_lt {nanos nanos' : Int} (h : Printable nanos) (h' : Printable nanos')
    (hlt : nanos < nanos') : utcText nanos < utcText nanos' := by
  have htext (n : Int) : (utcText n).toList = (secondText (n / 1000000000)).toList ++
      '.' :: (padStart 9 (n % 1000000000).toNat).toList := by simp [utcText]
  rw [String.lt_iff_toList_lt, htext, htext]
  by_cases hsecond : nanos / 1000000000 < nanos' / 1000000000
  · apply append_lt_of_lt _ (secondText_lt h.seconds h'.seconds hsecond)
    rw [secondText_length h.seconds, secondText_length h'.seconds]
  · have hsame : nanos / 1000000000 = nanos' / 1000000000 := by omega
    rw [hsame]
    apply append_left_lt
    refine cons_lt_cons_iff.mpr (Or.inr ⟨rfl, ?_⟩)
    exact padStart_lt (by decide) (by omega) (by omega)

theorem utcText_lt_iff {nanos nanos' : Int} (h : Printable nanos) (h' : Printable nanos') :
    utcText nanos < utcText nanos' ↔ nanos < nanos' := by
  constructor
  · intro hlt
    by_contra hge
    rcases lt_or_eq_of_le (not_lt.mp hge) with hgt | heq
    · exact lt_asymm hlt (utcText_lt h' h hgt)
    · rw [heq] at hlt
      exact lt_irrefl _ hlt
  · exact utcText_lt h h'

theorem utcText_le_iff {nanos nanos' : Int} (h : Printable nanos) (h' : Printable nanos') :
    utcText nanos ≤ utcText nanos' ↔ nanos ≤ nanos' := by
  rw [← not_lt, utcText_lt_iff h' h, not_lt]

end CyberGuard.Ingest
