import Mathlib.Data.List.Basic

/-!
# Text as its UTF-8 octets

A character is one octet below 128, or a first octet and octets that only continue it.
-/

namespace Utf8Text
set_option autoImplicit false

def encode (text : List Char) : List UInt8 := text.flatMap String.utf8EncodeChar

def isContinuation (octet : UInt8) : Bool := 0x80 ≤ octet && octet < 0xC0

variable {c : Char}

theorem toNat_val (c : Char) : c.val.toNat = c.toNat := rfl

theorem encode_ascii (h : c.toNat < 128) : String.utf8EncodeChar c = [UInt8.ofNat c.toNat] := by
  unfold String.utf8EncodeChar
  simp only [toNat_val]
  rw [if_pos (by omega)]

theorem isContinuation_ofNat {n : Nat} (hlow : 128 ≤ n) (hhigh : n < 192) :
    isContinuation (UInt8.ofNat n) = true := by
  have hval : (UInt8.ofNat n).toNat = n := by
    rw [UInt8.toNat_ofNat']
    omega
  rw [isContinuation, Bool.and_eq_true, decide_eq_true_iff, decide_eq_true_iff,
    UInt8.le_iff_toNat_le, UInt8.lt_iff_toNat_lt, hval]
  exact ⟨hlow, hhigh⟩

theorem le_ofNat {n : Nat} (hlow : 192 ≤ n) (hhigh : n < 256) : 0xC0 ≤ UInt8.ofNat n := by
  rw [UInt8.le_iff_toNat_le, UInt8.toNat_ofNat']
  change 192 ≤ n % 2 ^ 8
  omega

/-- A first octet and what continues it. -/
theorem encode_other (h : 128 ≤ c.toNat) : ∃ first rest,
    String.utf8EncodeChar c = first :: rest ∧ 0xC0 ≤ first ∧
      ∀ octet ∈ rest, isContinuation octet = true := by
  have hcontinues (n : Nat) : isContinuation (UInt8.ofNat (n % 64 + 128)) = true :=
    isContinuation_ofNat (by omega) (by omega)
  unfold String.utf8EncodeChar
  simp only [toNat_val]
  rw [if_neg (by omega)]
  split
  · refine ⟨_, _, rfl, le_ofNat (by omega) (by omega), ?_⟩
    simp only [List.forall_mem_cons, hcontinues]
    simp
  · split
    · refine ⟨_, _, rfl, le_ofNat (by omega) (by omega), ?_⟩
      simp only [List.forall_mem_cons, hcontinues]
      simp
    · refine ⟨_, _, rfl, le_ofNat (by omega) (by omega), ?_⟩
      simp only [List.forall_mem_cons, hcontinues]
      simp

theorem encode_nil : encode [] = [] := rfl

theorem encode_cons (c : Char) (text : List Char) :
    encode (c :: text) = String.utf8EncodeChar c ++ encode text := List.flatMap_cons

end Utf8Text
