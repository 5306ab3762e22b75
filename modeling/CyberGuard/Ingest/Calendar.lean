import CyberGuard.Ingest.DateTexts
import CyberGuard.Shared.Gregorian

/-!
# The calendar of the dates

`civilFromDays` gives the dates of the Gregorian calendar one after another. It counts the
days within 400 years and the years from March, so that the leap day is the last one; the
day after is then in the same year, the first of the next or the first of the next 400.
-/

namespace CyberGuard.Ingest
set_option autoImplicit false
open Gregorian

/-- The days of the years from March before one, within its 400. -/
def daysBefore (yoe : Int) : Int := yoe * 365 + yoe / 4 - yoe / 100 + yoe / 400

theorem daysBefore_mono {yoe yoe' : Int} (h : yoe ≤ yoe') : daysBefore yoe ≤ daysBefore yoe' := by
  have hcent : yoe / 100 = yoe / 4 / 25 := by omega
  have hcent' : yoe' / 100 = yoe' / 4 / 25 := by omega
  have hera : yoe / 400 ≤ yoe' / 400 := Int.ediv_le_ediv (by decide) h
  have hquarter : yoe / 4 ≤ yoe' / 4 := Int.ediv_le_ediv (by decide) h
  rw [daysBefore, daysBefore, hcent, hcent']
  omega

structure MarchYear (yoe doy : Int) : Prop where
  yoe_range : 0 ≤ yoe ∧ yoe ≤ 399
  doy_range : 0 ≤ doy ∧ doy ≤ 365
  leap : doy = 365 → (yoe + 1) % 4 = 0 ∧ ((yoe + 1) % 100 ≠ 0 ∨ yoe = 399)

theorem MarchYear.lt_next {yoe doy : Int} (h : MarchYear yoe doy) :
    daysBefore yoe + doy < daysBefore (yoe + 1) := by
  obtain ⟨hyoe, hdoy, hleap⟩ := h
  rw [daysBefore, daysBefore]
  by_cases hlast : doy = 365
  · obtain ⟨hfour, hhundred | rfl⟩ := hleap hlast
    · omega
    · omega
  · omega

theorem marchYear_first {yoe : Int} (h : 0 ≤ yoe ∧ yoe ≤ 399) : MarchYear yoe 0 :=
  ⟨h, by decide, fun hlast => absurd hlast (by decide)⟩

theorem MarchYear.last {yoe doy : Int} (h : MarchYear yoe doy) (hlast : ¬ MarchYear yoe (doy + 1)) :
    doy = 365 ∨
      doy = 364 ∧ ¬ ((yoe + 1) % 4 = 0 ∧ ((yoe + 1) % 100 ≠ 0 ∨ yoe = 399)) := by
  have hdoy := h.doy_range
  by_cases hend : doy = 365
  · exact Or.inl hend
  · by_contra hother
    have hleap : doy + 1 = 365 →
        (yoe + 1) % 4 = 0 ∧ ((yoe + 1) % 100 ≠ 0 ∨ yoe = 399) := by omega
    exact hlast ⟨h.yoe_range, by omega, hleap⟩

theorem MarchYear.daysBefore_succ {yoe doy : Int} (h : MarchYear yoe doy)
    (hlast : ¬ MarchYear yoe (doy + 1)) : daysBefore (yoe + 1) = daysBefore yoe + doy + 1 := by
  have hyoe := h.yoe_range
  rw [daysBefore, daysBefore]
  rcases h.last hlast with rfl | ⟨rfl, hcommon⟩
  · obtain ⟨hfour, hhundred | rfl⟩ := h.leap rfl
    · omega
    · rfl
  · omega

theorem MarchYear.lt_era {yoe doy : Int} (h : MarchYear yoe doy) :
    0 ≤ daysBefore yoe + doy ∧ daysBefore yoe + doy < 146097 := by
  have hyoe := h.yoe_range
  have hnext := h.lt_next
  have hmono : daysBefore (yoe + 1) ≤ daysBefore 400 := daysBefore_mono (by omega)
  have hfirst : daysBefore 0 ≤ daysBefore yoe := daysBefore_mono hyoe.1
  have hend : daysBefore 400 = 146097 := by decide
  have hstart : daysBefore 0 = 0 := by decide
  have hdoy := h.doy_range
  omega

theorem MarchYear.unique {era era' yoe yoe' doy doy' : Int} (h : MarchYear yoe doy)
    (h' : MarchYear yoe' doy')
    (heq : era * 146097 + (daysBefore yoe + doy) = era' * 146097 + (daysBefore yoe' + doy')) :
    era = era' ∧ yoe = yoe' ∧ doy = doy' := by
  have hrange := h.lt_era
  have hrange' := h'.lt_era
  have hera : era = era' := by omega
  have hsame : daysBefore yoe + doy = daysBefore yoe' + doy' := by omega
  have hnext := h.lt_next
  have hnext' := h'.lt_next
  have hdoy := h.doy_range
  have hdoy' := h'.doy_range
  have hyoe : yoe = yoe' := by
    rcases lt_trichotomy yoe yoe' with hlt | hyoe | hgt
    · have hmono : daysBefore (yoe + 1) ≤ daysBefore yoe' := daysBefore_mono hlt
      omega
    · exact hyoe
    · have hmono : daysBefore (yoe' + 1) ≤ daysBefore yoe := daysBefore_mono hgt
      omega
  subst hyoe
  exact ⟨hera, rfl, by omega⟩

def marchDate (era yoe doy : Int) : Date :=
  let mp := (5 * doy + 2) / 153
  let month := if mp < 10 then mp + 3 else mp - 9
  ⟨yoe + era * 400 + (if month ≤ 2 then 1 else 0), month, doy - (153 * mp + 2) / 5 + 1⟩

def dateOf (civil : Int × Int × Int) : Date := ⟨civil.1, civil.2.1, civil.2.2⟩

theorem exists_marchDate (days : Int) : ∃ era yoe doy, MarchYear yoe doy ∧
    days = era * 146097 + (daysBefore yoe + doy) - 719468 ∧
    dateOf (civilFromDays days) = marchDate era yoe doy := by
  have hlow := Int.emod_nonneg (days + 719468) (by decide : (146097 : Int) ≠ 0)
  have hhigh := Int.emod_lt_of_pos (days + 719468) (by decide : (0 : Int) < 146097)
  obtain ⟨hyoe, hbefore, hafter, hleap⟩ := yearOfEra_spec hlow hhigh rfl
  refine ⟨(days + 719468) / 146097, _, _, ⟨hyoe, ⟨?_, ?_⟩, ?_⟩, ?_, rfl⟩
  · omega
  · omega
  · intro hlast
    exact hleap (by omega)
  · rw [daysBefore]
    omega

theorem isLeap_march (era : Int) {yoe : Int} (hyoe : 0 ≤ yoe ∧ yoe ≤ 399) :
    isLeap (yoe + era * 400 + 1) = true ↔
      (yoe + 1) % 4 = 0 ∧ ((yoe + 1) % 100 ≠ 0 ∨ yoe = 399) := by
  rw [isLeap_iff]
  omega

section months
variable {era yoe doy mp : Int}

theorem marchDate_before (hmp : (5 * doy + 2) / 153 = mp) (hbefore : mp < 10) (hdoy : 0 ≤ doy) :
    marchDate era yoe doy = ⟨yoe + era * 400, mp + 3, doy - (153 * mp + 2) / 5 + 1⟩ := by
  have hlate : ¬ mp + 3 ≤ 2 := by omega
  simp only [marchDate, hmp, if_pos hbefore, if_neg hlate, Int.add_zero]

theorem marchDate_after (hmp : (5 * doy + 2) / 153 = mp) (hafter : ¬ mp < 10) (hdoy : doy ≤ 365) :
    marchDate era yoe doy = ⟨yoe + era * 400 + 1, mp - 9, doy - (153 * mp + 2) / 5 + 1⟩ := by
  have hearly : mp - 9 ≤ 2 := by omega
  simp only [marchDate, hmp, if_neg hafter, if_pos hearly]

theorem marchDate_first (era yoe : Int) : marchDate era yoe 0 = ⟨yoe + era * 400, 3, 1⟩ := by
  have hmarch : (5 * 0 + 2) / 153 = (0 : Int) := by decide
  exact marchDate_before hmarch (by decide) (by decide)

theorem monthLength_before (year : Int) (hmp : 0 ≤ mp ∧ mp < 10) :
    monthLength year (mp + 3) = (153 * (mp + 1) + 2) / 5 - (153 * mp + 2) / 5 := by
  have hcases : mp = 0 ∨ mp = 1 ∨ mp = 2 ∨ mp = 3 ∨ mp = 4 ∨ mp = 5 ∨ mp = 6 ∨ mp = 7 ∨ mp = 8 ∨
      mp = 9 := by omega
  rcases hcases with rfl | rfl | rfl | rfl | rfl | rfl | rfl | rfl | rfl | rfl
  all_goals rfl

variable (era) in
theorem monthLength_february (hyoe : 0 ≤ yoe ∧ yoe ≤ 399) :
    (monthLength (yoe + era * 400 + 1) 2 = 29 ∧
      (yoe + 1) % 4 = 0 ∧ ((yoe + 1) % 100 ≠ 0 ∨ yoe = 399)) ∨
    (monthLength (yoe + era * 400 + 1) 2 = 28 ∧
      ¬ ((yoe + 1) % 4 = 0 ∧ ((yoe + 1) % 100 ≠ 0 ∨ yoe = 399))) := by
  rw [monthLength, if_pos rfl, ← isLeap_march era hyoe]
  by_cases hleap : isLeap (yoe + era * 400 + 1) = true
  · exact Or.inl ⟨if_pos hleap, hleap⟩
  · exact Or.inr ⟨if_neg hleap, hleap⟩

theorem marchDate_succ (h : MarchYear yoe doy) (h' : MarchYear yoe (doy + 1)) :
    marchDate era yoe (doy + 1) = (marchDate era yoe doy).next := by
  have hdoy := h.doy_range
  have hdoy' := h'.doy_range
  obtain ⟨mp, hmp⟩ : ∃ mp, (5 * doy + 2) / 153 = mp := ⟨_, rfl⟩
  by_cases hsame : (5 * (doy + 1) + 2) / 153 = mp
  · by_cases hbefore : mp < 10
    · rw [marchDate_before hmp hbefore hdoy.1, marchDate_before hsame hbefore hdoy'.1, next_of_lt]
      · congr 1
        omega
      · rw [monthLength_before _ (by omega)]
        omega
    · rw [marchDate_after hmp hbefore hdoy.2, marchDate_after hsame hbefore hdoy'.2, next_of_lt]
      · congr 1
        omega
      · by_cases hjanuary : mp = 10
        · subst hjanuary
          have hlength : monthLength (yoe + era * 400 + 1) (10 - 9) = 31 := rfl
          rw [hlength]
          omega
        · obtain rfl : mp = 11 := by omega
          rcases monthLength_february era h.yoe_range with ⟨hlength, _⟩ | ⟨hlength, hcommon⟩
          · rw [show (11 : Int) - 9 = 2 from rfl, hlength]
            omega
          · have hlast : doy + 1 ≠ 365 := fun heq => hcommon (h'.leap heq)
            rw [show (11 : Int) - 9 = 2 from rfl, hlength]
            omega
  · have hnext : (5 * (doy + 1) + 2) / 153 = mp + 1 := by omega
    by_cases hbefore : mp < 9
    · rw [marchDate_before hmp (by omega) hdoy.1, marchDate_before hnext (by omega) hdoy'.1,
        next_of_last]
      · congr 1
        · omega
        · omega
      · rw [monthLength_before _ (by omega)]
        omega
      · omega
    · rw [marchDate_after hnext (by omega) hdoy'.2]
      by_cases hdecember : mp = 9
      · subst hdecember
        rw [marchDate_before hmp (by decide) hdoy.1, show (9 : Int) + 3 = 12 from rfl,
          next_of_year_end]
        · congr 1
          omega
        · have hlength : monthLength (yoe + era * 400) 12 = 31 := rfl
          rw [hlength]
          omega
      · obtain rfl : mp = 10 := by omega
        rw [marchDate_after hmp (by decide) hdoy.2, next_of_last]
        · congr 1
          omega
        · have hlength : monthLength (yoe + era * 400 + 1) (10 - 9) = 31 := rfl
          rw [hlength]
          omega
        · decide

theorem marchDate_last (h : MarchYear yoe doy) (h' : ¬ MarchYear yoe (doy + 1)) :
    marchDate era (yoe + 1) 0 = (marchDate era yoe doy).next := by
  have hyoe := h.yoe_range
  have hdoy := h.doy_range
  have hlast := h.last h'
  have hmp : (5 * doy + 2) / 153 = 11 := by omega
  rw [marchDate_first, marchDate_after hmp (by decide) hdoy.2, next_of_last]
  · congr 1
    omega
  · rw [show (11 : Int) - 9 = 2 from rfl]
    rcases monthLength_february era hyoe with ⟨hlength, hleap⟩ | ⟨hlength, hcommon⟩
    · rw [hlength]
      omega
    · have hno : doy ≠ 365 := fun heq => hcommon (h.leap heq)
      rw [hlength]
      omega
  · decide

end months

theorem marchDate_era (era : Int) : marchDate era 400 0 = marchDate (era + 1) 0 0 := by
  rw [marchDate_first, marchDate_first]
  congr 1
  omega

/-- The closed form runs through the calendar day by day. -/
theorem civilFromDays_succ (days : Int) :
    dateOf (civilFromDays (days + 1)) = (dateOf (civilFromDays days)).next := by
  obtain ⟨era, yoe, doy, h, hdays, hdate⟩ := exists_marchDate days
  obtain ⟨era', yoe', doy', h', hdays', hdate'⟩ := exists_marchDate (days + 1)
  rw [hdate, hdate']
  by_cases hsame : MarchYear yoe (doy + 1)
  · have hcount : era' * 146097 + (daysBefore yoe' + doy') =
        era * 146097 + (daysBefore yoe + (doy + 1)) := by omega
    obtain ⟨rfl, rfl, rfl⟩ := h'.unique hsame hcount
    exact marchDate_succ h hsame
  · have hyoe := h.yoe_range
    have hnext := h.daysBefore_succ hsame
    rw [← marchDate_last h hsame]
    by_cases hend : yoe = 399
    · subst hend
      have hfirst : daysBefore 0 = 0 := by decide
      have hera : daysBefore (399 + 1) = 146097 := by decide
      have hcount : era' * 146097 + (daysBefore yoe' + doy') =
          (era + 1) * 146097 + (daysBefore 0 + 0) := by omega
      obtain ⟨rfl, rfl, rfl⟩ := h'.unique (marchYear_first (by decide)) hcount
      exact (marchDate_era era).symm
    · have hcount : era' * 146097 + (daysBefore yoe' + doy') =
          era * 146097 + (daysBefore (yoe + 1) + 0) := by omega
      obtain ⟨rfl, rfl, rfl⟩ := h'.unique (marchYear_first (by omega)) hcount
      rfl

theorem civilFromDays_nthDay (n : Nat) : dateOf (civilFromDays (n - 719162)) = nthDay n := by
  induction n with
  | zero => decide
  | succ n ih =>
    have hnext : ((n + 1 : Nat) : Int) - 719162 = (n - 719162) + 1 := by omega
    rw [hnext, civilFromDays_succ, ih]
    rfl
end CyberGuard.Ingest
