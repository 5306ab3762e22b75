import CyberGuard.Ingest.EventSchema
import CyberGuard.Ingest.UtcTexts
import CyberGuard.Detect.Alerts

/-!
# The times of events

A time on the wire is a numeral of nanoseconds. The texts made of it keep its value: the
seconds of an alert are its whole seconds, and the look-back subtracts exactly, so that
`cges_events` and the service compare the same times.
-/

namespace CyberGuard.Detect
set_option autoImplicit false
open TextPatterns CyberGuard.Ingest
open CyberGuard.Ingest.EventSchema (nanosSchema nanosPattern)

theorem exists_utcFields {nanos : Int} (h : Printable nanos) : ∃ f : DateFields,
    utcText nanos = f.dayText ++ " " ++ f.clockText ++
      ("." ++ padStart 9 (nanos % 1000000000).toNat) ∧
    f.seconds = nanos / 1000000000 := by
  obtain ⟨f, _, hseconds, _, hday, hclock⟩ := exists_secondFields h.seconds
  have hback : nanos / 1000000000 * 1000 / 1000 = nanos / 1000000000 := by omega
  rw [hback] at hseconds hday hclock
  refine ⟨f, ?_, hseconds⟩
  rw [utcText, secondText, hday, hclock, ← String.append_assoc]

theorem dateParse_utcText {nanos : Int} (h : Printable nanos) :
    dateParse (slice (utcText nanos) 0 10 ++ "T" ++ slice (utcText nanos) 11 19 ++ "Z") =
      some (1000 * (nanos / 1000000000)) := by
  obtain ⟨f, htext, hseconds⟩ := exists_utcFields h
  rw [htext, slice_day, slice_clock f rfl, dateParse_fields, hseconds]

theorem eventUnixSeconds_utcText {nanos : Int} (h : Printable nanos) :
    eventUnixSeconds (utcText nanos) = some (nanos / 1000000000) := by
  have hback : 1000 * (nanos / 1000000000) / 1000 = nanos / 1000000000 := by omega
  rw [eventUnixSeconds, dateParse_utcText h, Option.map_some, hback]

theorem minusSeconds_utcText {nanos : Int} {seconds : Nat} (h : Printable nanos)
    (h' : Printable (nanos - seconds * 1000000000)) :
    minusSeconds (utcText nanos) seconds = some (utcText (nanos - seconds * 1000000000)) := by
  obtain ⟨f, htext, hseconds⟩ := exists_utcFields h
  have hback : (nanos - seconds * 1000000000) / 1000000000 = nanos / 1000000000 - seconds := by omega
  have hrest : (nanos - seconds * 1000000000) % 1000000000 = nanos % 1000000000 := by omega
  have hmillis : 1000 * (nanos / 1000000000) - seconds * 1000 =
      (nanos - seconds * 1000000000) / 1000000000 * 1000 := by omega
  have hwhole : (nanos - seconds * 1000000000) / 1000000000 * 1000 / 1000 =
      (nanos - seconds * 1000000000) / 1000000000 := by omega
  obtain ⟨iso, hiso, hjoined⟩ := iso_secondText h'.seconds
  have hdrop : (utcText nanos).toList.drop 19 =
      ("." ++ padStart 9 (nanos % 1000000000).toNat).toList := by
    rw [htext, drop_clock f rfl]
  rw [hwhole] at hjoined
  simp only [minusSeconds, dateParse_utcText h, Option.bind_eq_bind, Option.bind_some, hmillis, hiso,
    hdrop, hjoined, String.ofList_toList]
  rw [utcText, hrest, String.append_assoc]

theorem nanosSchema_value {v : String} (h : nanosSchema (some (.string v)) = true) :
    ∃ n, bigInt v = some n ∧ n < 2 ^ 63 := by
  obtain ⟨htest, hlt⟩ := Bool.and_eq_true_iff.mp h
  have hdigits : v.toList.all Char.isDigit = true := by
    apply List.all_eq_true.mpr
    intro c hc
    have hall : ∀ c ∈ letters nanosPattern, c.isDigit = true :=
      List.all_eq_true.mp (by decide +kernel)
    exact hall c (mem_letters (test_iff.mp htest) hc)
  refine ⟨EventSchema.bigInt v, ?_, of_decide_eq_true hlt⟩
  rw [bigInt, if_pos hdigits]
  rfl

theorem bigInt_toString (n : Nat) : bigInt (toString n) = some n := by
  have htext : toString n = padStart 0 n := by
    apply String.toList_inj.mp
    rw [padStart_toList, Nat.zero_sub, Nat.toString_eq_ofList_toDigits, String.toList_ofList]
    rfl
  rw [htext, bigInt_padStart]

theorem printable_nanos {n : Nat} (h : n < 2 ^ 63) : Printable n := by
  have hcast : (n : Int) / 1000000 = ((n / 1000000 : Nat) : Int) := by omega
  rw [Printable, hcast]
  exact nanos_inYears h

/-- From the wire to the bucket a time keeps its value and its place among the others. -/
theorem event_times_exact {v : String} (hv : nanosSchema (some (.string v)) = true) :
    ∃ n, bigInt v = some n ∧ stringNanosToChDateTime v = some (utcText n) ∧
      eventUnixSeconds (utcText n) = some ((n / 10 ^ 9 : Nat) : Int) ∧
      (∀ s, s * 10 ^ 9 ≤ n →
        minusSeconds (utcText n) s = some (utcText (n - s * 10 ^ 9 : Nat)) ∧
        stringNanosToChDateTime (toString (n - s * 10 ^ 9)) =
          some (utcText (n - s * 10 ^ 9 : Nat))) ∧
      ∀ v' n' text text', nanosSchema (some (.string v')) = true → bigInt v' = some n' →
        stringNanosToChDateTime v = some text → stringNanosToChDateTime v' = some text' →
        (text < text' ↔ n < n') := by
  obtain ⟨n, hn, hlt⟩ := nanosSchema_value hv
  have hprintable := printable_nanos hlt
  refine ⟨n, hn, stringNanosToChDateTime_eq hn hlt, ?_, ?_, ?_⟩
  · have hseconds : (n : Int) / 1000000000 = ((n / 10 ^ 9 : Nat) : Int) := by omega
    rw [eventUnixSeconds_utcText hprintable, hseconds]
  · intro s hs
    have hless : n - s * 10 ^ 9 < 2 ^ 63 := by omega
    have hcast : ((n - s * 10 ^ 9 : Nat) : Int) = n - s * 1000000000 := by omega
    have hprintable' := printable_nanos hless
    constructor
    · rw [hcast] at hprintable' ⊢
      exact minusSeconds_utcText hprintable hprintable'
    · exact stringNanosToChDateTime_eq (bigInt_toString _) hless
  · intro v' n' text text' hv' hn' htext htext'
    obtain ⟨m, hm, hlt'⟩ := nanosSchema_value hv'
    obtain rfl : m = n' := Option.some.inj (hm.symm.trans hn')
    rw [stringNanosToChDateTime_eq hn hlt] at htext
    rw [stringNanosToChDateTime_eq hm hlt'] at htext'
    rw [← Option.some.inj htext, ← Option.some.inj htext',
      utcText_lt_iff hprintable (printable_nanos hlt'), Int.ofNat_lt]

theorem sample_event_time_exact : nanosSchema (some (.string "1779997630000000100")) = true ∧
    eventUnixSeconds (utcText 1779997630000000100) = some 1779997630 := by
  have haccepted : nanosSchema (some (.string "1779997630000000100")) = true := by decide +kernel
  obtain ⟨n, hn, _, hseconds, _⟩ := event_times_exact haccepted
  have hvalue : bigInt "1779997630000000100" = some 1779997630000000100 := by decide +kernel
  obtain rfl : 1779997630000000100 = n := Option.some.inj (hvalue.symm.trans hn)
  exact ⟨haccepted, hseconds⟩

end CyberGuard.Detect
