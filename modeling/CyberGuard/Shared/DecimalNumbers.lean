import Mathlib.Algebra.Ring.Nat
import Mathlib.Data.List.Induction
import Mathlib.Data.Nat.Digits.Defs

/-!
# Decimal numerals and binary floating point

A numeral read as a 64-bit floating-point number: exact below `2 ^ 53`, and past it rounded to
the nearest of 53 significant bits, to the even one of two. Written out again, a numeral that
is below that bound and has no leading zero is the same text.
-/

namespace DecimalNumbers
set_option autoImplicit false

/-- The whole numbers among the doubles, and what is past all of them. -/
inductive Double
  | whole (n : Nat)
  | infinity
deriving DecidableEq

/-- The multiple of `2 ^ k` nearest to the number. -/
def roundEven (k n : Nat) : Nat :=
  if 2 ^ k < 2 * (n % 2 ^ k) ∨ 2 ^ k = 2 * (n % 2 ^ k) ∧ n / 2 ^ k % 2 = 1 then
    (n / 2 ^ k + 1) * 2 ^ k
  else n / 2 ^ k * 2 ^ k

def Double.ofNat (n : Nat) : Double :=
  if n < 2 ^ 53 then .whole n
  else
    let rounded := roundEven (n.log2 - 52) n
    if rounded < 2 ^ 1024 then .whole rounded else .infinity

def Double.isAbove (limit : Nat) : Double → Bool
  | .whole n => limit < n
  | .infinity => true

/-- A number as it is printed; whole ones below `10 ^ 21` are printed by their digits. -/
def Double.text : Double → String
  | .whole n => toString n
  | .infinity => "Infinity"

def value (numeral : List Char) : Nat := Nat.ofDigitChars 10 numeral 0

def IsNumeral (text : List Char) : Prop :=
  text = ['0'] ∨ text ≠ [] ∧ text.head? ≠ some '0' ∧ ∀ c ∈ text, c.isDigit = true

theorem le_roundEven (k n : Nat) : n / 2 ^ k * 2 ^ k ≤ roundEven k n := by
  unfold roundEven
  split
  · exact Nat.mul_le_mul_right _ (Nat.le_succ _)
  · exact Nat.le_refl _

theorem le_roundEven_log2 {n : Nat} (h : 2 ^ 53 ≤ n) : 2 ^ 52 ≤ roundEven (n.log2 - 52) n := by
  have hlog : 53 ≤ n.log2 := (Nat.le_log2 (by omega)).mpr h
  have hpow : 2 ^ (52 + (n.log2 - 52)) ≤ n := by
    rw [show 52 + (n.log2 - 52) = n.log2 by omega]
    exact Nat.log2_self_le (by omega)
  rw [Nat.pow_add] at hpow
  calc 2 ^ 52 ≤ n / 2 ^ (n.log2 - 52) := (Nat.le_div_iff_mul_le (Nat.two_pow_pos _)).mpr hpow
    _ ≤ n / 2 ^ (n.log2 - 52) * 2 ^ (n.log2 - 52) := Nat.le_mul_of_pos_right _ (Nat.two_pow_pos _)
    _ ≤ roundEven (n.log2 - 52) n := le_roundEven _ _

theorem ofNat_of_lt {n : Nat} (h : n < 2 ^ 53) : Double.ofNat n = .whole n := if_pos h

theorem isAbove_ofNat {limit : Nat} (h : limit < 2 ^ 52) (n : Nat) :
    (Double.ofNat n).isAbove limit = decide (limit < n) := by
  by_cases hn : n < 2 ^ 53
  · rw [ofNat_of_lt hn]
    rfl
  · have hle := le_roundEven_log2 (Nat.le_of_not_lt hn)
    rw [Double.ofNat, if_neg hn]
    rw [decide_eq_true (by omega : limit < n)]
    dsimp only
    split
    · exact decide_eq_true (by omega : limit < roundEven (n.log2 - 52) n)
    · rfl

section Numerals
variable {text : List Char} {c : Char}

theorem IsNumeral.ne_nil (h : IsNumeral text) : text ≠ [] := by
  rcases h with rfl | ⟨h, -⟩
  · exact List.cons_ne_nil _ _
  · exact h

theorem IsNumeral.isDigit (h : IsNumeral text) : ∀ c ∈ text, c.isDigit = true := by
  rcases h with rfl | ⟨-, -, h⟩
  · intro c hc
    rw [List.mem_singleton.mp hc]
    rfl
  · exact h

theorem isDigit_iff : c.isDigit = true ↔ 48 ≤ c.toNat ∧ c.toNat ≤ 57 := by
  rw [Char.isDigit, Bool.and_eq_true, decide_eq_true_iff, decide_eq_true_iff, ge_iff_le,
    UInt32.le_iff_toNat_le, UInt32.le_iff_toNat_le]
  rfl

theorem toDigits_digit (h : c.isDigit = true) : Nat.toDigits 10 (c.toNat - 48) = [c] := by
  obtain ⟨hlow, hhigh⟩ := isDigit_iff.mp h
  have hall : ∀ d < 10, Nat.digitChar d = Char.ofNat (48 + d) := by decide
  rw [Nat.toDigits_of_lt_base (by omega), hall _ (by omega), Nat.add_sub_cancel' hlow,
    Char.ofNat_toNat]

theorem value_append (front : List Char) (c : Char) :
    value (front ++ [c]) = 10 * value front + (c.toNat - 48) :=
  Nat.ofDigitChars_append 0

theorem toDigits_value_of_head (hnil : text ≠ []) (hhead : text.head? ≠ some '0')
    (hdigits : ∀ c ∈ text, c.isDigit = true) :
    0 < value text ∧ Nat.toDigits 10 (value text) = text := by
  induction text using List.reverseRecOn with
  | nil => exact absurd rfl hnil
  | append_singleton front c ih =>
    have hc : c.isDigit = true := hdigits c (by simp)
    obtain ⟨hlow, hhigh⟩ := isDigit_iff.mp hc
    rw [value_append]
    cases front with
    | nil =>
      have hzero : c.toNat ≠ 48 := by
        intro hc
        apply hhead
        rw [List.nil_append, List.head?_cons, ← Char.ofNat_toNat c, hc]
      change 0 < 0 + _ ∧ Nat.toDigits 10 (0 + _) = [c]
      rw [Nat.zero_add, toDigits_digit hc]
      exact ⟨by omega, rfl⟩
    | cons d front =>
      obtain ⟨hpos, hfront⟩ := ih (List.cons_ne_nil _ _) hhead
        fun c hc => hdigits c (List.mem_append_left _ hc)
      refine ⟨by omega, ?_⟩
      rw [← Nat.toDigits_append_toDigits (by decide) hpos (by omega), hfront, toDigits_digit hc]

theorem toDigits_value (h : IsNumeral text) : Nat.toDigits 10 (value text) = text := by
  rcases h with rfl | ⟨hnil, hhead, hdigits⟩
  · rfl
  · exact (toDigits_value_of_head hnil hhead hdigits).2

theorem text_ofNat_value (h : IsNumeral text) (hlt : value text < 2 ^ 53) :
    (Double.ofNat (value text)).text = String.ofList text := by
  rw [ofNat_of_lt hlt, Double.text, Nat.toString_eq_ofList_toDigits, toDigits_value h]

end Numerals

end DecimalNumbers
