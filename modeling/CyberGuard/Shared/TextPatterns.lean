import Mathlib.Computability.RegularExpressions
import Mathlib.Data.Nat.Digits.Defs

/-!
# Patterns on text

Regular expressions as programs write them, with alternatives, character classes
and counted repetition, and the numerals they are meant to accept.
-/

namespace TextPatterns
set_option autoImplicit false
open RegularExpression List

abbrev Pattern := RegularExpression Char

def test (pattern : Pattern) (text : String) : Bool := pattern.rmatch text.toList

def anyOf (alternatives : List Pattern) : Pattern := alternatives.foldr (· + ·) 0

def oneOf (characters : String) : Pattern := anyOf (characters.toList.map char)

def between (least most : Nat) (pattern : Pattern) : Pattern :=
  anyOf ((List.range' least (most + 1 - least)).map (pattern ^ ·))

def optional (pattern : Pattern) : Pattern := between 0 1 pattern

def literally (text : String) : Pattern := text.toList.foldr (fun c rest => char c * rest) 1

variable {pattern other : Pattern} {alternatives : List Pattern} {w v : List Char}

theorem test_iff {text : String} : test pattern text = true ↔ text.toList ∈ pattern.matches' :=
  rmatch_iff_matches' pattern text.toList

theorem mem_anyOf : w ∈ (anyOf alternatives).matches' ↔
    ∃ pattern ∈ alternatives, w ∈ pattern.matches' := by
  induction alternatives with
  | nil => simp [anyOf]
  | cons pattern rest ih =>
    rw [show anyOf (pattern :: rest) = pattern + anyOf rest from rfl, matches'_add,
      Language.mem_add, ih]
    simp

theorem mem_oneOf {characters : String} :
    w ∈ (oneOf characters).matches' ↔ ∃ c ∈ characters.toList, w = [c] := by
  simp only [oneOf, mem_anyOf, mem_map]
  constructor
  · rintro ⟨_, ⟨c, hc, rfl⟩, hw⟩
    exact ⟨c, hc, hw⟩
  · rintro ⟨c, hc, rfl⟩
    exact ⟨_, ⟨c, hc, rfl⟩, rfl⟩

theorem mem_mul (hw : w ∈ pattern.matches') (hv : v ∈ other.matches') :
    w ++ v ∈ (pattern * other).matches' :=
  Language.append_mem_mul hw hv

theorem flatten_mem_between {least most : Nat} {parts : List (List Char)}
    (hleast : least ≤ parts.length) (hmost : parts.length ≤ most)
    (hparts : ∀ part ∈ parts, part ∈ pattern.matches') :
    parts.flatten ∈ (between least most pattern).matches' := by
  refine mem_anyOf.mpr ⟨pattern ^ parts.length, ?_, ?_⟩
  · refine mem_map.mpr ⟨parts.length, ?_, rfl⟩
    rw [mem_range'_1]
    omega
  · rw [matches'_pow, Language.mem_pow]
    exact ⟨parts, rfl, rfl, hparts⟩

theorem mem_between_oneOf {least most : Nat} {characters : String} (hleast : least ≤ w.length)
    (hmost : w.length ≤ most) (hw : ∀ c ∈ w, c ∈ characters.toList) :
    w ∈ (between least most (oneOf characters)).matches' := by
  have hflat : (w.map fun c => [c]).flatten = w := by
    rw [← flatMap_def, flatMap_singleton']
  rw [← hflat]
  refine flatten_mem_between (by simpa using hleast) (by simpa using hmost) ?_
  intro part hpart
  obtain ⟨c, hc, rfl⟩ := mem_map.mp hpart
  exact mem_oneOf.mpr ⟨c, hw c hc, rfl⟩

theorem mem_star_oneOf {characters : String} :
    w ∈ (star (oneOf characters)).matches' ↔ ∀ c ∈ w, c ∈ characters.toList := by
  rw [matches'_star, Language.mem_kstar]
  constructor
  · rintro ⟨parts, rfl, hparts⟩ c hc
    obtain ⟨part, hpart, hc⟩ := mem_flatten.mp hc
    obtain ⟨d, hd, rfl⟩ := mem_oneOf.mp (hparts part hpart)
    rw [mem_singleton.mp hc]
    exact hd
  · intro hw
    refine ⟨w.map fun c => [c], by rw [← flatMap_def, flatMap_singleton'], ?_⟩
    intro part hpart
    obtain ⟨c, hc, rfl⟩ := mem_map.mp hpart
    exact mem_oneOf.mpr ⟨c, hw c hc, rfl⟩

theorem mem_literally (text : String) : text.toList ∈ (literally text).matches' := by
  unfold literally
  induction text.toList with
  | nil => exact Language.nil_mem_one
  | cons c rest ih => exact mem_mul (w := [c]) rfl ih

def letters : Pattern → List Char
  | .zero | .epsilon => []
  | .char c => [c]
  | .plus left right | .comp left right => letters left ++ letters right
  | .star pattern => letters pattern

/-- A text that matches holds no other character. -/
theorem mem_letters {c : Char} (hw : w ∈ pattern.matches') (hc : c ∈ w) : c ∈ letters pattern := by
  induction pattern generalizing w with
  | zero => exact hw.elim
  | epsilon =>
    rw [Set.mem_singleton_iff.mp hw] at hc
    cases hc
  | char a =>
    rw [Set.mem_singleton_iff.mp hw] at hc
    exact hc
  | plus left right ihl ihr =>
    rcases hw with hw | hw
    · exact mem_append_left _ (ihl hw hc)
    · exact mem_append_right _ (ihr hw hc)
  | comp left right ihl ihr =>
    obtain ⟨x, hx, y, hy, rfl⟩ := hw
    rcases mem_append.mp hc with hc | hc
    · exact mem_append_left _ (ihl hx hc)
    · exact mem_append_right _ (ihr hy hc)
  | star pattern ih =>
    obtain ⟨parts, rfl, hparts⟩ := hw
    obtain ⟨part, hpart, hc⟩ := mem_flatten.mp hc
    exact ih (hparts part hpart) hc

def decimalDigits : String := "0123456789"

def lowerHexDigits : String := "0123456789abcdef"

theorem digitChar_mem {d : Nat} : d < 10 → d.digitChar ∈ decimalDigits.toList := by
  decide +revert

theorem digitChar_mem_hex {d : Nat} : d < 16 → d.digitChar ∈ lowerHexDigits.toList := by
  decide +revert

theorem toLower_lowerHex {c : Char} (h : c ∈ lowerHexDigits.toList) : c.toLower = c := by
  have hall : (lowerHexDigits.toList.all fun c => c.toLower = c) = true := by decide
  exact of_decide_eq_true (all_eq_true.mp hall c h)

theorem toLower_of_forall {text : String} (h : ∀ c ∈ text.toList, c.toLower = c) :
    text.toLower = text := by
  have hsame : ∀ c ∈ text.toList, c.toLower = id c := h
  apply String.toList_inj.mp
  change (String.map Char.toLower _).toList = _
  rw [String.toList_map, List.map_congr_left hsame, List.map_id]

theorem toDigits_forall {base : Nat} {P : Char → Prop} (hbase : 1 < base)
    (hdigit : ∀ d < base, P d.digitChar) (n : Nat) : ∀ c ∈ Nat.toDigits base n, P c := by
  induction n using Nat.strongRecOn with
  | ind n ih =>
    intro c hc
    rw [Nat.toDigits_eq_if hbase] at hc
    split at hc
    · rename_i hlt
      rw [mem_singleton.mp hc]
      exact hdigit n hlt
    · rename_i hge
      rcases mem_append.mp hc with hhead | hlast
      · exact ih (n / base) (Nat.div_lt_self (by omega) hbase) c hhead
      · rw [mem_singleton.mp hlast]
        exact hdigit _ (Nat.mod_lt _ (by omega))

theorem toDigits_head {base n : Nat} (hbase : 1 < base) (hn : 0 < n) :
    ∃ d rest, 0 < d ∧ d < base ∧ Nat.toDigits base n = d.digitChar :: rest := by
  induction n using Nat.strongRecOn with
  | ind n ih =>
    rw [Nat.toDigits_eq_if hbase]
    split
    · rename_i hlt
      exact ⟨n, [], hn, hlt, rfl⟩
    · rename_i hge
      have hpos : 0 < n / base := Nat.div_pos (by omega) (by omega)
      obtain ⟨d, rest, hd, hlt, heq⟩ := ih (n / base) (Nat.div_lt_self hn hbase) hpos
      exact ⟨d, rest ++ [(n % base).digitChar], hd, hlt, by rw [heq]; rfl⟩

theorem toDigits_length_le {base n k : Nat} (hbase : 1 < base) (hk : 0 < k) (hn : n < base ^ k) :
    (Nat.toDigits base n).length ≤ k :=
  (Nat.length_toDigits_le_iff hbase hk).mpr hn

theorem hex_mem {most n : Nat} (hmost : 0 < most) (hn : n < 16 ^ most) {characters : String}
    (hdigits : ∀ c ∈ lowerHexDigits.toList, c ∈ characters.toList) :
    Nat.toDigits 16 n ∈ (between 1 most (oneOf characters)).matches' :=
  mem_between_oneOf Nat.length_toDigits_pos (toDigits_length_le (by decide) hmost hn)
    (toDigits_forall (by decide) (fun _ hd => hdigits _ (digitChar_mem_hex hd)) n)

end TextPatterns
