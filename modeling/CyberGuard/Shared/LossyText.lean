import Mathlib.Data.List.Basic

/-!
# Text read from arbitrary bytes

`lossy` decodes UTF-8 an octet at a time and puts one replacement character for each
longest part of a character that does not go on. An ASCII octet stands for itself whatever
surrounds it, so the text of a line does not depend on what follows the line. `words` are
the parts of a text between white space.
-/

namespace LossyText
set_option autoImplicit false

/-- A character of which `left` octets are still to come; the next is between `low` and `high`,
which no ASCII octet is. -/
structure Partial where
  code : Nat
  left : Nat
  low : UInt8
  high : UInt8
  beyond : 0x80 ≤ low

def replacement : Char := Char.ofNat 0xFFFD

def lead (octet : UInt8) : List Char × Option Partial :=
  if octet < 0x80 then ([Char.ofNat octet.toNat], none)
  else if 0xC2 ≤ octet ∧ octet ≤ 0xDF then
    ([], some ⟨octet.toNat - 0xC0, 1, 0x80, 0xBF, by decide⟩)
  else if 0xE0 ≤ octet ∧ octet ≤ 0xEF then
    ([], some ⟨octet.toNat - 0xE0, 2, if octet = 0xE0 then 0xA0 else 0x80,
      if octet = 0xED then 0x9F else 0xBF, by split <;> decide⟩)
  else if 0xF0 ≤ octet ∧ octet ≤ 0xF4 then
    ([], some ⟨octet.toNat - 0xF0, 3, if octet = 0xF0 then 0x90 else 0x80,
      if octet = 0xF4 then 0x8F else 0xBF, by split <;> decide⟩)
  else ([replacement], none)

def feed (state : Option Partial) (octet : UInt8) : List Char × Option Partial :=
  match state with
  | none => lead octet
  | some part =>
    if part.low ≤ octet ∧ octet ≤ part.high then
      let code := part.code * 64 + (octet.toNat - 0x80)
      if part.left = 1 then ([Char.ofNat code], none)
      else ([], some ⟨code, part.left - 1, 0x80, 0xBF, by decide⟩)
    else (replacement :: (lead octet).1, (lead octet).2)

def lossyFrom : Option Partial → List UInt8 → List Char
  | none, [] => []
  | some _, [] => [replacement]
  | state, octet :: octets => (feed state octet).1 ++ lossyFrom (feed state octet).2 octets

def lossy (octets : List UInt8) : List Char := lossyFrom none octets

theorem lead_ascii {octet : UInt8} (h : octet < 0x80) :
    lead octet = ([Char.ofNat octet.toNat], none) := if_pos h

/-- An ASCII octet ends whatever came before it as the end of the octets would. -/
theorem lossyFrom_ascii (state : Option Partial) {octet : UInt8} (h : octet < 0x80)
    (octets : List UInt8) :
    lossyFrom state (octet :: octets) =
      lossyFrom state [] ++ Char.ofNat octet.toNat :: lossy octets := by
  cases state with
  | none =>
    change (lead octet).1 ++ lossyFrom (lead octet).2 octets = _
    rw [lead_ascii h]
    rfl
  | some part =>
    have hout : ¬ (part.low ≤ octet ∧ octet ≤ part.high) := by
      rintro ⟨hlow, -⟩
      exact absurd (UInt8.lt_of_lt_of_le h (UInt8.le_trans part.beyond hlow)) (UInt8.lt_irrefl _)
    have hfeed : feed (some part) octet = ([replacement, Char.ofNat octet.toNat], none) := by
      unfold feed
      dsimp only
      rw [if_neg hout, lead_ascii h]
    simp only [lossyFrom, hfeed]
    rfl

theorem lossyFrom_append_ascii (state : Option Partial) (before : List UInt8) {octet : UInt8}
    (h : octet < 0x80) (after : List UInt8) :
    lossyFrom state (before ++ octet :: after) =
      lossyFrom state before ++ Char.ofNat octet.toNat :: lossy after := by
  induction before generalizing state with
  | nil => exact lossyFrom_ascii state h after
  | cons first before ih =>
    simp only [List.cons_append, lossyFrom, ih, List.append_assoc]

theorem lossy_append_ascii (before : List UInt8) {octet : UInt8} (h : octet < 0x80)
    (after : List UInt8) :
    lossy (before ++ octet :: after) = lossy before ++ Char.ofNat octet.toNat :: lossy after :=
  lossyFrom_append_ascii none before h after

/-- The characters with the Unicode property `White_Space`. -/
def isWhitespace (c : Char) : Bool :=
  let n := c.toNat
  (9 ≤ n && n ≤ 13) || n == 0x20 || n == 0x85 || n == 0xA0 || n == 0x1680 ||
    (0x2000 ≤ n && n ≤ 0x200A) || n == 0x2028 || n == 0x2029 || n == 0x202F || n == 0x205F ||
    n == 0x3000

def words (text : List Char) : List (List Char) :=
  (text.splitOnP isWhitespace).filter fun word => !word.isEmpty

theorem words_append {c : Char} (h : isWhitespace c = true) (before after : List Char) :
    words (before ++ c :: after) = words before ++ words after := by
  unfold words
  rw [List.splitOnP_append_cons _ _ h, List.filter_append]

end LossyText
