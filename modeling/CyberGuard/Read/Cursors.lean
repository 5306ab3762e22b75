import CyberGuard.Accepted.Texts
import CyberGuard.Ingest.DateTexts
import CyberGuard.Ingest.EventSchema
import CyberGuard.Shared.Checks
import CyberGuard.Shared.Json
import Mathlib.Data.Rat.Defs

/-!
# Cursors of the lists

A list issues the time and the id of the last row it returned, and reads them back. The
time is written by `toISOString`, in milliseconds; `decodeCursor` takes a time of a year
from 1 to 9999 only. So a cursor comes back as it was issued where the row's time is in
those years, and stands for that time cut to the millisecond.
-/

namespace CyberGuard.Read
set_option autoImplicit false
open Checks TextPatterns CyberGuard.Ingest
open CyberGuard.Ingest.EventSchema (uuidPattern)

/-- A number of the language, up to the rounding of doubles. -/
inductive JsNumber where
  | nan
  | infinite (negative : Bool)
  | finite (value : Rat)
  deriving DecidableEq, Repr

structure Cursor where
  t : String
  id : String
  deriving DecidableEq, Repr

/-- What the lists call: `Number` of a text, and a cursor's text with its reader, which is
`none` where the text does not parse. -/
structure Runtime where
  number : String → JsNumber
  encode : Cursor → String
  decode : String → Option (Json Rat)
  decode_encode : ∀ c, decode (encode c) = some (.object [("t", .string c.t), ("id", .string c.id)])
  decode_empty : decode "" = none

inductive ReadError where
  | badRequest (message : String)
  | storeUnavailable
  /-- `toISOString` of a date out of range. -/
  | rangeError
  deriving DecidableEq, Repr

/-- `[0-9a-f]` in either case. -/
def isUuid (text : String) : Bool := test uuidPattern text

def digits (n : Nat) : Pattern := between n n (oneOf decimalDigits)

def cursorTimeForm : Pattern :=
  digits 4 * literally "-" * digits 2 * literally "-" * digits 2 * literally "T" * digits 2 *
    literally ":" * digits 2 * literally ":" * digits 2 * literally "." * digits 3 * literally "Z"

def cursorTime (text : String) : Bool := slice text 0 4 != "0000" && test cursorTimeForm text

def encodeCursor (R : Runtime) (c : Cursor) : String := R.encode c

def textMember (name : String) (value : Json Rat) : Option String :=
  match value.member name with
  | some (.string text) => some text
  | _ => none

def decodeCursor (R : Runtime) (raw : String) : Except ReadError Cursor := do
  let c ← okOr (R.decode raw) (.badRequest "cursor does not decode")
  let t ← okOr (textMember "t" c) (.badRequest "malformed cursor")
  let id ← okOr (textMember "id" c) (.badRequest "malformed cursor")
  refuseIf (!isUuid id) (.badRequest "malformed cursor")
  -- A date that parses and is written otherwise is refused as one that does not.
  refuseIf (!cursorTime t || (isoMillis t).bind toISOString != some t)
    (.badRequest "malformed cursor time")
  return ⟨t, id.toLower⟩

/-- `::timestamptz` of a text that `decodeCursor` takes, in microseconds. -/
def timestamptz (text : String) : Option Int := (isoMillis text).map (· * 1000)

/-- A `uuid` as Postgres prints it. -/
def CanonicalUuid (id : String) : Prop := isUuid id = true ∧ id.toLower = id

instance (id : String) : Decidable (CanonicalUuid id) := inferInstanceAs (Decidable (_ ∧ _))

theorem canonicalUuid_text (uuid : Agent.Uuid) : CanonicalUuid uuid.text := by
  refine ⟨Accepted.uuid_accepted uuid, ?_⟩
  apply toLower_of_forall
  intro c hc
  rcases Accepted.uuid_lower hc with hdigit | rfl
  · exact toLower_lowerHex hdigit
  · rfl

theorem padStart_mem {width n : Nat} (hwidth : 0 < width) (hn : n < 10 ^ width) :
    (padStart width n).toList ∈ (digits width).matches' := by
  have hlength := padStart_length hwidth hn
  apply mem_between_oneOf
  · omega
  · omega
  · exact padStart_digits width n

theorem cursorTime_text (f : DateFields) (hyear : 1 ≤ f.year) : cursorTime f.text = true := by
  have hmonth := f.month_range
  have hday := f.day_range
  have hhour := f.hour_le
  have hminute := f.minute_le
  have hsecond := f.second_le
  rw [cursorTime, Bool.and_eq_true]
  constructor
  · have hslice : slice f.text 0 4 = padStart 4 f.year := by
      obtain ⟨a, b, c, d, h⟩ := padStart_four f.year_lt
      rw [h]
      apply String.toList_inj.mp
      simp [slice, DateFields.text, h]
    rw [hslice, bne_iff_ne]
    intro hzero
    have hvalue := bigInt_padStart 4 f.year
    rw [hzero] at hvalue
    have hnone : bigInt "0000" = some 0 := by decide
    rw [hnone] at hvalue
    have := Option.some.inj hvalue
    omega
  · rw [test_iff, DateFields.text]
    simp only [String.toList_append]
    repeat' apply mem_mul
    all_goals first
      | exact mem_literally _
      | exact padStart_mem (by decide) f.year_lt
      | exact padStart_mem (by decide) f.milli_lt
      | apply padStart_mem (by decide)
        omega

/-- A cursor of a year from 1 to 9999 comes back, and stands for the time in milliseconds. -/
theorem decodeCursor_encodeCursor (R : Runtime) {millis : Int} {t id : String}
    (hyears : InYears millis) (ht : toISOString millis = some t) (hid : CanonicalUuid id) :
    decodeCursor R (encodeCursor R ⟨t, id⟩) = .ok ⟨t, id⟩ ∧
      timestamptz t = some (millis * 1000) := by
  obtain ⟨f, htext, hmillis, hyear⟩ := exists_dateFields hyears
  have hsame : t = f.text := Option.some.inj (ht.symm.trans htext)
  have hback : isoMillis t = some millis := by rw [hsame, isoMillis_text, hmillis]
  constructor
  · have hform : (!cursorTime t || (isoMillis t).bind toISOString != some t) = false := by
      rw [hback, Option.bind_some, ht, hsame, cursorTime_text f hyear]
      simp
    simp only [decodeCursor, encodeCursor, bind_eq_ok, okOr_eq_ok, refuseIf_eq_ok, pure_eq_ok]
    refine ⟨_, R.decode_encode ⟨t, id⟩, t, rfl, id, rfl, (), ?_, (), hform, ?_⟩
    · rw [hid.1]
      rfl
    · rw [hid.2]
  · rw [timestamptz, hback]
    rfl

theorem encodeCursor_ne_empty (R : Runtime) (c : Cursor) : encodeCursor R c ≠ "" := by
  intro h
  have hdecode := R.decode_encode c
  rw [encodeCursor] at h
  rw [h, R.decode_empty] at hdecode
  cases hdecode

end CyberGuard.Read
