import CyberGuard.Ingest.CgesEventRow
import CyberGuard.Shared.TextPatterns

/-!
# Dates and their texts

The two directions of the calendar, and the text of a date read back. A text of
`toISOString` with a year of four digits gives the milliseconds it was made of.
-/

namespace CyberGuard.Ingest
set_option autoImplicit false
open TextPatterns List

theorem dayOfEra_split {doe : Int} (hlow : 0 ≤ doe) (hhigh : doe < 146096) :
    ∃ century four year day : Int, doe = 36524 * century + 1461 * four + 365 * year + day ∧
      (0 ≤ century ∧ century ≤ 3) ∧ (0 ≤ four ∧ four ≤ 24) ∧ (0 ≤ year ∧ year ≤ 3) ∧
      (0 ≤ day ∧ day ≤ 365) ∧ (day = 365 → year = 3 ∧ four ≤ 23) := by
  by_cases hleap : doe % 36524 % 1461 = 1460
  · exact ⟨doe / 36524, doe % 36524 / 1461, 3, 365, by omega, by omega, by omega, by omega,
      by omega, by omega⟩
  · exact ⟨doe / 36524, doe % 36524 / 1461, doe % 36524 % 1461 / 365, doe % 36524 % 1461 % 365,
      by omega, by omega, by omega, by omega, by omega, by omega⟩

theorem yearOfEra_eq {century four year day : Int} (hcentury : 0 ≤ century ∧ century ≤ 3)
    (hfour : 0 ≤ four ∧ four ≤ 24) (hyear : 0 ≤ year ∧ year ≤ 3) (hday : 0 ≤ day ∧ day ≤ 365)
    (hleap : day = 365 → year = 3 ∧ four ≤ 23) {doe : Int}
    (hdoe : doe = 36524 * century + 1461 * four + 365 * year + day) (hlast : doe < 146096) :
    (doe - doe / 1460 + doe / 36524 - doe / 146096) / 365 = 100 * century + 4 * four + year := by
  have hera : doe / 146096 = 0 := by omega
  have hcent : doe / 36524 = century := by omega
  rw [hera, hcent]
  by_cases hcarry : 24 * century + four + 365 * year + day < 1460
  · have hquad : doe / 1460 = 25 * century + four := by omega
    rw [hquad]
    omega
  · have hquad : doe / 1460 = 25 * century + four + 1 := by omega
    rw [hquad]
    omega

theorem yearOfEra_spec {doe yoe : Int} (hlow : 0 ≤ doe) (hhigh : doe < 146097)
    (hyoe : yoe = (doe - doe / 1460 + doe / 36524 - doe / 146096) / 365) :
    (0 ≤ yoe ∧ yoe ≤ 399) ∧ 365 * yoe + yoe / 4 - yoe / 100 ≤ doe ∧
      doe ≤ 365 * yoe + yoe / 4 - yoe / 100 + 365 ∧
      (doe = 365 * yoe + yoe / 4 - yoe / 100 + 365 →
        (yoe + 1) % 4 = 0 ∧ ((yoe + 1) % 100 ≠ 0 ∨ yoe = 399)) := by
  by_cases hlast : doe = 146096
  · subst hlast
    have hnum : yoe = 399 := hyoe
    omega
  · obtain ⟨century, four, year, day, hdoe, hcentury, hfour, hyear, hday, hleap⟩ :=
      dayOfEra_split hlow (by omega)
    rw [yearOfEra_eq hcentury hfour hyear hday hleap hdoe (by omega)] at hyoe
    have hhundred : yoe / 100 = century := by omega
    have hquarter : yoe / 4 = 25 * century + four := by omega
    rw [hhundred, hquarter]
    refine ⟨by omega, by omega, by omega, fun hend => ?_⟩
    obtain ⟨hthree, hbefore⟩ := hleap (by omega)
    omega

theorem civilFromDays_parts (days : Int) : ∃ era yoe doy mp : Int,
    (0 ≤ yoe ∧ yoe ≤ 399) ∧ (0 ≤ doy ∧ doy ≤ 365) ∧ mp = (5 * doy + 2) / 153 ∧
      days = era * 146097 + (yoe * 365 + yoe / 4 - yoe / 100 + doy) - 719468 ∧
      civilFromDays days =
        (yoe + era * 400 + (if (if mp < 10 then mp + 3 else mp - 9) ≤ 2 then 1 else 0),
          (if mp < 10 then mp + 3 else mp - 9), doy - (153 * mp + 2) / 5 + 1) := by
  obtain ⟨hyoe, hlow, hhigh, -⟩ := yearOfEra_spec (Int.emod_nonneg (days + 719468) (by decide))
    (Int.emod_lt_of_pos (days + 719468) (by decide)) rfl
  refine ⟨(days + 719468) / 146097, _, _, _, hyoe, ⟨?_, ?_⟩, rfl, ?_, rfl⟩
  · omega
  · omega
  · omega

theorem civilFromDays_month (doy mp : Int) (hdoy : 0 ≤ doy ∧ doy ≤ 365)
    (hmp : mp = (5 * doy + 2) / 153) :
    (0 ≤ mp ∧ mp ≤ 11) ∧ 0 ≤ doy - (153 * mp + 2) / 5 ∧ doy - (153 * mp + 2) / 5 ≤ 30 := by
  have hbounds : 0 ≤ mp ∧ mp ≤ 11 := by omega
  refine ⟨hbounds, ?_, ?_⟩
  · omega
  · omega

theorem civilFromDays_spec {days year month day : Int}
    (h : civilFromDays days = (year, month, day)) :
    daysFromCivil year month day = days ∧ (1 ≤ month ∧ month ≤ 12) ∧ (1 ≤ day ∧ day ≤ 31) := by
  obtain ⟨era, yoe, doy, mp, hyoe, hdoy, hmp, hdays, hparts⟩ := civilFromDays_parts days
  obtain ⟨hmonth, hlow, hhigh⟩ := civilFromDays_month doy mp hdoy hmp
  rw [h] at hparts
  obtain ⟨rfl, hrest⟩ := Prod.mk.inj hparts
  obtain ⟨rfl, rfl⟩ := Prod.mk.inj hrest
  by_cases hmarch : mp < 10
  · have hlate : ¬ mp + 3 ≤ 2 := by omega
    have hera : (yoe + era * 400 + 0) / 400 = era := by omega
    have hyear : yoe + era * 400 + 0 - era * 400 = yoe := by omega
    have hback : mp + 3 - 3 = mp := by omega
    simp only [if_pos hmarch, if_neg hlate, daysFromCivil, hera, hyear, hback]
    omega
  · have hearly : mp - 9 ≤ 2 := by omega
    have hera : (yoe + era * 400 + 1 - 1) / 400 = era := by omega
    have hyear : yoe + era * 400 + 1 - 1 - era * 400 = yoe := by omega
    have hback : mp - 9 + 9 = mp := by omega
    simp only [if_neg hmarch, if_pos hearly, daysFromCivil, hera, hyear, hback]
    omega

theorem civilFromDays_year {days year month day : Int}
    (h : civilFromDays days = (year, month, day)) (hlow : -719162 ≤ days)
    (hhigh : days < 2932897) : 1 ≤ year ∧ year ≤ 9999 := by
  obtain ⟨hdays, hmonth, hday⟩ := civilFromDays_spec h
  rw [daysFromCivil] at hdays
  by_cases hearly : month ≤ 2
  · simp only [if_pos hearly] at hdays
    constructor
    · omega
    · omega
  · simp only [if_neg hearly] at hdays
    constructor
    · omega
    · omega

theorem padStart_toList (width n : Nat) : (padStart width n).toList =
    List.replicate (width - (Nat.toDigits 10 n).length) '0' ++ Nat.toDigits 10 n := by
  simp only [padStart, Nat.toString_eq_ofList_toDigits, String.toList_append, String.toList_ofList,
    String.length_ofList]

theorem padStart_length {width n : Nat} (hwidth : 0 < width) (hn : n < 10 ^ width) :
    (padStart width n).toList.length = width := by
  have hlen := toDigits_length_le (by decide) hwidth hn
  rw [padStart_toList, length_append, length_replicate]
  omega

theorem padStart_digits (width n : Nat) : ∀ c ∈ (padStart width n).toList, c ∈ decimalDigits.toList := by
  intro c hc
  rw [padStart_toList] at hc
  rcases mem_append.mp hc with hzero | hdigit
  · rw [(mem_replicate.mp hzero).2]
    decide
  · exact toDigits_forall (by decide) (fun _ hd => digitChar_mem hd) n c hdigit

theorem ofDigitChars_zeros (k : Nat) (digits : List Char) :
    Nat.ofDigitChars 10 (List.replicate k '0' ++ digits) 0 = Nat.ofDigitChars 10 digits 0 := by
  induction k with
  | zero => rfl
  | succ k ih => exact ih

theorem bigInt_padStart (width n : Nat) : bigInt (padStart width n) = some n := by
  have hdigits : (padStart width n).toList.all Char.isDigit = true := by
    apply all_eq_true.mpr
    intro c hc
    have hall : ∀ c ∈ decimalDigits.toList, c.isDigit = true := all_eq_true.mp (by decide)
    exact hall c (padStart_digits width n c hc)
  have hvalue : Nat.ofDigitChars 10 (padStart width n).toList 0 = n := by
    rw [padStart_toList, ofDigitChars_zeros, Nat.ofDigitChars_ten_toDigits]
  rw [bigInt, if_pos hdigits]
  exact congrArg some hvalue

def InYears (millis : Int) : Prop := -62135596800000 ≤ millis ∧ millis < 253402300800000

instance (millis : Int) : Decidable (InYears millis) := inferInstanceAs (Decidable (_ ∧ _))

/-- The milliseconds of a text of the form `YYYY-MM-DDTHH:MM:SS.mmmZ`. -/
def isoMillis (text : String) : Option Int := do
  let seconds ← dateParse (slice text 0 19 ++ "Z")
  let millis ← bigInt (slice text 20 23)
  some (seconds + millis)

/-- The fields of a date and a time of day, each as wide as its text. -/
structure DateFields where
  year : Nat
  month : Nat
  day : Nat
  hour : Nat
  minute : Nat
  second : Nat
  milli : Nat
  year_lt : year < 10000
  month_range : 1 ≤ month ∧ month ≤ 12
  day_range : 1 ≤ day ∧ day ≤ 31
  hour_le : hour ≤ 23
  minute_le : minute ≤ 59
  second_le : second ≤ 59
  milli_lt : milli < 1000

def DateFields.text (f : DateFields) : String :=
  padStart 4 f.year ++ "-" ++ padStart 2 f.month ++ "-" ++ padStart 2 f.day ++ "T" ++
    padStart 2 f.hour ++ ":" ++ padStart 2 f.minute ++ ":" ++ padStart 2 f.second ++ "." ++
    padStart 3 f.milli ++ "Z"

def DateFields.millis (f : DateFields) : Int :=
  1000 * (86400 * daysFromCivil f.year f.month f.day + 3600 * f.hour + 60 * f.minute + f.second) +
    f.milli

theorem slice_ofList (chars : List Char) (start stop : Nat) :
    slice (String.ofList chars) start stop = String.ofList ((chars.take stop).drop start) := by
  rw [slice, String.toList_ofList]

theorem padStart_two {n : Nat} (hn : n < 100) : ∃ a b, padStart 2 n = String.ofList [a, b] := by
  obtain ⟨a, b, h⟩ := length_eq_two.mp (padStart_length (by decide : 0 < 2) hn)
  exact ⟨a, b, String.toList_inj.mp (h.trans String.toList_ofList.symm)⟩

theorem padStart_four {n : Nat} (hn : n < 10000) :
    ∃ a b c d, padStart 4 n = String.ofList [a, b, c, d] := by
  obtain ⟨a, b, c, d, h⟩ := length_eq_four.mp (padStart_length (by decide : 0 < 4) hn)
  exact ⟨a, b, c, d, String.toList_inj.mp (h.trans String.toList_ofList.symm)⟩

def DateFields.dayText (f : DateFields) : String :=
  padStart 4 f.year ++ "-" ++ padStart 2 f.month ++ "-" ++ padStart 2 f.day

def DateFields.clockText (f : DateFields) : String :=
  padStart 2 f.hour ++ ":" ++ padStart 2 f.minute ++ ":" ++ padStart 2 f.second

def DateFields.seconds (f : DateFields) : Int :=
  86400 * daysFromCivil f.year f.month f.day + 3600 * f.hour + 60 * f.minute + f.second

theorem DateFields.text_eq (f : DateFields) :
    f.text = f.dayText ++ "T" ++ f.clockText ++ ("." ++ padStart 3 f.milli ++ "Z") := by
  simp only [DateFields.text, dayText, clockText, String.append_assoc]

theorem DateFields.dayText_length (f : DateFields) : f.dayText.toList.length = 10 := by
  have hmonth := f.month_range
  have hday := f.day_range
  simp only [dayText, String.toList_append, length_append]
  rw [padStart_length (by decide) f.year_lt, padStart_length (by decide) (by omega),
    padStart_length (by decide) (by omega)]
  rfl

theorem DateFields.clockText_length (f : DateFields) : f.clockText.toList.length = 8 := by
  have hhour := f.hour_le
  have hminute := f.minute_le
  have hsecond := f.second_le
  simp only [clockText, String.toList_append, length_append]
  rw [padStart_length (by decide) (by omega), padStart_length (by decide) (by omega),
    padStart_length (by decide) (by omega)]
  rfl

theorem slice_middle {front middle : String} {start stop : Nat}
    (hstart : front.toList.length = start) (hstop : start + middle.toList.length = stop)
    (back : String) : slice (front ++ middle ++ back) start stop = middle := by
  subst hstart hstop
  rw [slice, String.toList_append, take_left' (by simp), String.toList_append,
    drop_left, String.ofList_toList]

theorem dateParse_fields (f : DateFields) :
    dateParse (f.dayText ++ "T" ++ f.clockText ++ "Z") = some (1000 * f.seconds) := by
  have hmonthRange := f.month_range
  have hdayRange := f.day_range
  obtain ⟨y1, y2, y3, y4, hyear⟩ := padStart_four f.year_lt
  obtain ⟨o1, o2, hmonth⟩ := padStart_two (n := f.month) (by omega)
  obtain ⟨d1, d2, hday⟩ := padStart_two (n := f.day) (by omega)
  obtain ⟨h1, h2, hhour⟩ := padStart_two (Nat.lt_of_le_of_lt f.hour_le (by decide))
  obtain ⟨i1, i2, hminute⟩ := padStart_two (Nat.lt_of_le_of_lt f.minute_le (by decide))
  obtain ⟨s1, s2, hsecond⟩ := padStart_two (Nat.lt_of_le_of_lt f.second_le (by decide))
  have htext : f.dayText ++ "T" ++ f.clockText ++ "Z" = String.ofList [y1, y2, y3, y4, '-', o1, o2,
      '-', d1, d2, 'T', h1, h2, ':', i1, i2, ':', s1, s2, 'Z'] := by
    rw [DateFields.dayText, DateFields.clockText, hyear, hmonth, hday, hhour, hminute, hsecond]
    apply String.toList_inj.mp
    simp
  rw [htext]
  have hvalue (width n : Nat) (chars : List Char) (h : padStart width n = String.ofList chars) :
      bigInt (String.ofList chars) = some n := h ▸ bigInt_padStart width n
  simp only [dateParse, slice_ofList, take_succ_cons, take_zero, drop_succ_cons,
    drop_zero, hvalue _ _ _ hyear, hvalue _ _ _ hmonth, hvalue _ _ _ hday, hvalue _ _ _ hhour,
    hvalue _ _ _ hminute, hvalue _ _ _ hsecond]
  have hguard : 1 ≤ f.month ∧ f.month ≤ 12 ∧ 1 ≤ f.day ∧ f.day ≤ 31 ∧ f.hour ≤ 23 ∧
      f.minute ≤ 59 ∧ f.second ≤ 59 :=
    ⟨hmonthRange.1, hmonthRange.2, hdayRange.1, hdayRange.2, f.hour_le, f.minute_le, f.second_le⟩
  simp only [String.length_ofList, length_cons, length_nil, guard, and_self, if_true,
    hguard, Option.pure_def, Option.bind_eq_bind, Option.bind_some]
  rfl

theorem isoMillis_text (f : DateFields) : isoMillis f.text = some f.millis := by
  have hcut : slice f.text 0 19 = f.dayText ++ "T" ++ f.clockText := by
    have hsplit : f.text = "" ++ (f.dayText ++ "T" ++ f.clockText) ++
        ("." ++ padStart 3 f.milli ++ "Z") := by
      rw [String.empty_append, f.text_eq]
    rw [hsplit]
    apply slice_middle rfl
    simp only [String.toList_append, length_append, f.dayText_length, f.clockText_length]
    rfl
  have hmilli : slice f.text 20 23 = padStart 3 f.milli := by
    have hsplit : f.text = f.dayText ++ "T" ++ f.clockText ++ "." ++ padStart 3 f.milli ++ "Z" := by
      simp only [f.text_eq, String.append_assoc]
    rw [hsplit]
    apply slice_middle
    · simp only [String.toList_append, length_append, f.dayText_length, f.clockText_length]
      rfl
    · rw [padStart_length (by decide) f.milli_lt]
  rw [isoMillis, hcut, hmilli, dateParse_fields, bigInt_padStart]
  rfl

theorem exists_civilFields {millis : Int} (h : InYears millis) :
    ∃ f : DateFields, toISOString millis = some f.text ∧ f.millis = millis ∧ 1 ≤ f.year ∧
      civilFromDays (millis / 86400000) = (↑f.year, ↑f.month, ↑f.day) := by
  obtain ⟨hlow, hhigh⟩ := h
  rcases hcivil : civilFromDays (millis / 86400000) with ⟨year, month, day⟩
  obtain ⟨hdays, hmonth, hday⟩ := civilFromDays_spec hcivil
  have hyear := civilFromDays_year hcivil (by omega) (by omega)
  have hy : (year.toNat : Int) = year := by omega
  have hm : (month.toNat : Int) = month := by omega
  have hd : (day.toNat : Int) = day := by omega
  refine ⟨⟨year.toNat, month.toNat, day.toNat, (millis % 86400000).toNat / 3600000,
    (millis % 86400000).toNat / 60000 % 60, (millis % 86400000).toNat / 1000 % 60,
    (millis % 86400000).toNat % 1000, by omega, by omega, by omega, by omega, by omega, by omega,
    by omega⟩, ?_, ?_, ?_, ?_⟩
  · have hrange : millis.natAbs ≤ 8640000000000000 := by omega
    have hdigits : 0 ≤ year ∧ year ≤ 9999 := by omega
    simp only [toISOString, if_pos hrange, hcivil, if_pos hdigits, DateFields.text]
  · simp only [DateFields.millis, hy, hm, hd, hdays]
    omega
  · exact Int.lt_toNat.mpr (by omega)
  · simp only [hy, hm, hd]

theorem exists_dateFields {millis : Int} (h : InYears millis) :
    ∃ f : DateFields, toISOString millis = some f.text ∧ f.millis = millis ∧ 1 ≤ f.year := by
  obtain ⟨f, htext, hmillis, hyear, _⟩ := exists_civilFields h
  exact ⟨f, htext, hmillis, hyear⟩

theorem foldl_digits_lt (digits : List Char) (n : Nat) (h : digits.all Char.isDigit = true) :
    digits.foldl (fun n c => 10 * n + (c.toNat - 48)) n < (n + 1) * 10 ^ digits.length := by
  induction digits generalizing n with
  | nil => simp
  | cons c rest ih =>
    obtain ⟨hc, hrest⟩ := Bool.and_eq_true_iff.mp h
    have hdigit : c.toNat - 48 ≤ 9 := by
      have hle : c.toNat ≤ 57 := (Bool.and_eq_true_iff.mp hc).2 |> of_decide_eq_true
      omega
    have hnext := ih (10 * n + (c.toNat - 48)) hrest
    calc rest.foldl (fun n c => 10 * n + (c.toNat - 48)) (10 * n + (c.toNat - 48))
        < (10 * n + (c.toNat - 48) + 1) * 10 ^ rest.length := hnext
      _ ≤ ((n + 1) * 10) * 10 ^ rest.length := Nat.mul_le_mul_right _ (by omega)
      _ = (n + 1) * 10 ^ (c :: rest).length := by rw [length_cons, Nat.pow_succ]; ring

theorem bigInt_lt {text : String} {n : Nat} (h : bigInt text = some n) :
    n < 10 ^ text.toList.length := by
  rw [bigInt] at h
  split at h
  · rename_i hdigits
    have hlt := foldl_digits_lt text.toList 0 hdigits
    rw [Option.some.inj h] at hlt
    omega
  · cases h

/-- A date whose year is not 0. A day its month does not have is one of the next month, and
December has them all. -/
theorem dateParse_inYears {text : String} {millis : Int} (h : dateParse text = some millis)
    (hyear : bigInt (slice text 0 4) ≠ some 0) : InYears millis := by
  simp only [dateParse, Option.bind_eq_bind, Option.bind_eq_some_iff, guard] at h
  obtain ⟨_, _, year, hy, month, _, day, _, hour, _, minute, _, second, _, _, hguard, hmillis⟩ := h
  have hlength : (slice text 0 4).toList.length ≤ 4 := by
    rw [slice, String.toList_ofList, length_drop, length_take]
    omega
  have hlt : year < 10 ^ 4 :=
    Nat.lt_of_lt_of_le (bigInt_lt hy) (Nat.pow_le_pow_right (by decide) hlength)
  have hpos : year ≠ 0 := by
    rintro rfl
    exact hyear hy
  split at hguard
  · rename_i hranges
    cases hmillis
    rw [InYears, daysFromCivil]
    by_cases hearly : (month : Int) ≤ 2
    · simp only [if_pos hearly]
      constructor
      · omega
      · omega
    · simp only [if_neg hearly]
      constructor
      · omega
      · omega
  · cases hguard

end CyberGuard.Ingest
