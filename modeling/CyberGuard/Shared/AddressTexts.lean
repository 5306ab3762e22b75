import Mathlib.Data.List.Induction
import CyberGuard.Shared.TextPatterns

/-!
# IP addresses as text

A dotted quad has one text. An IPv6 address has many: pieces of up to four hexadecimal
digits of either case between colons, where `::` stands for one or more zero pieces and
the last two pieces may be a dotted quad. `readIpv6` reads them all, and `writeIpv6` writes
one of them, in lower case and without leading zeros, with the first longest run of two or
more zero pieces left out. What is written is read as the address it was written for.
-/

namespace AddressTexts
set_option autoImplicit false
open TextPatterns List Option

def readOctet (text : List Char) : Option Nat :=
  (List.range 256).find? fun n => Nat.toDigits 10 n = text

def readQuad (text : List Char) : Option (List Nat) :=
  match text.splitOn '.' with
  | [a, b, c, d] => do
    let a ← readOctet a
    let b ← readOctet b
    let c ← readOctet c
    let d ← readOctet d
    return [a, b, c, d]
  | _ => none

def writeQuad (octets : List Nat) : List Char :=
  ['.'].intercalate (octets.map (Nat.toDigits 10))

def hexDigit (c : Char) : Option Nat :=
  if '0' ≤ c ∧ c ≤ '9' then some (c.toNat - 48)
  else if 'a' ≤ c ∧ c ≤ 'f' then some (c.toNat - 87)
  else if 'A' ≤ c ∧ c ≤ 'F' then some (c.toNat - 55)
  else none

def hexValue (digits : List Char) : Nat :=
  digits.foldl (fun value c => 16 * value + (hexDigit c).getD 0) 0

def readPiece (text : List Char) : Option Nat :=
  if 1 ≤ text.length ∧ text.length ≤ 4 ∧ text.all fun c => (hexDigit c).isSome then
    some (hexValue text)
  else none

def writePiece (n : Nat) : List Char := Nat.toDigits 16 n

def quadPieces : List Nat → List Nat
  | [a, b, c, d] => [a * 256 + b, c * 256 + d]
  | _ => []

def readGroups : List (List Char) → Option (List Nat)
  | [] => some []
  | [last] =>
    match readPiece last with
    | some piece => some [piece]
    | none => (readQuad last).map quadPieces
  | first :: rest => do
    let piece ← readPiece first
    let pieces ← readGroups rest
    return piece :: pieces

/-- What is before and behind the first `::`. -/
def cutDouble : List Char → Option (List Char × List Char)
  | [] => none
  | [_] => none
  | c :: c' :: rest =>
    if c = ':' ∧ c' = ':' then some ([], rest)
    else (cutDouble (c' :: rest)).map fun cut => (c :: cut.1, cut.2)

/-- The pieces on one side of `::`, where there may be none. -/
def readSide (read : List (List Char) → Option (List Nat)) (text : List Char) :
    Option (List Nat) :=
  if text = [] then some [] else read (text.splitOn ':')

def readIpv6 (text : List Char) : Option (List Nat) :=
  match cutDouble text with
  | none => (readGroups (text.splitOn ':')).filter fun pieces => pieces.length = 8
  | some (left, right) => do
    let before ← readSide (List.mapM readPiece) left
    let after ← readSide readGroups right
    if before.length + after.length ≤ 7 then
      some (before ++ List.replicate (8 - (before.length + after.length)) 0 ++ after)
    else none

def leadingZeros (pieces : List Nat) : Nat := (pieces.takeWhile (· = 0)).length

/-- The place and the length of the first longest run of zero pieces. -/
def longestZeros : List Nat → Nat × Nat
  | [] => (0, 0)
  | piece :: rest =>
    if (longestZeros rest).2 ≤ leadingZeros (piece :: rest) then (0, leadingZeros (piece :: rest))
    else ((longestZeros rest).1 + 1, (longestZeros rest).2)

def writePieces (pieces : List Nat) : List Char := [':'].intercalate (pieces.map writePiece)

def writeIpv6 (pieces : List Nat) : List Char :=
  let (start, length) := longestZeros pieces
  if 2 ≤ length then
    writePieces (pieces.take start) ++ ':' :: ':' :: writePieces (pieces.drop (start + length))
  else writePieces pieces

example : String.ofList (writeIpv6 [0x2001, 0xdb8, 0, 0, 1, 0, 0, 1]) = "2001:db8::1:0:0:1" := by
  decide

variable {n : Nat} {text : List Char} {c : Char} {octets pieces : List Nat}
  {segments : List (List Char)} {read : List (List Char) → Option (List Nat)}

theorem toDigits_ten_inj {m : Nat} (h : Nat.toDigits 10 m = Nat.toDigits 10 n) : m = n := by
  rw [← Nat.ofDigitChars_toDigits (b := 10) (n := m) (by decide) (by decide), h,
    Nat.ofDigitChars_toDigits (by decide) (by decide)]

theorem readOctet_eq_some :
    readOctet text = some n ↔ n < 256 ∧ text = Nat.toDigits 10 n := by
  unfold readOctet
  constructor
  · intro h
    have hmem := mem_of_find?_eq_some h
    have htext := List.find?_some h
    exact ⟨mem_range.mp hmem, (of_decide_eq_true htext).symm⟩
  · rintro ⟨hn, rfl⟩
    cases hfind : (List.range 256).find? fun m => Nat.toDigits 10 m = Nat.toDigits 10 n with
    | none => exact absurd (List.find?_eq_none.mp hfind n (mem_range.mpr hn)) (by simp)
    | some m =>
      have hsame := List.find?_some hfind
      rw [toDigits_ten_inj (of_decide_eq_true hsame)]

theorem mem_writeDecimal (h : c ∈ Nat.toDigits 10 n) :
    c ∈ decimalDigits.toList :=
  toDigits_forall (by decide) (fun _ hd => digitChar_mem hd) n c h

theorem dot_not_mem_decimal (n : Nat) : '.' ∉ Nat.toDigits 10 n := by
  intro h
  exact absurd (mem_writeDecimal h) (by decide)

/-- A text is a dotted quad in one way only. -/
theorem readQuad_eq_some :
    readQuad text = some octets ↔
      octets.length = 4 ∧ (∀ n ∈ octets, n < 256) ∧ text = writeQuad octets := by
  constructor
  · intro h
    unfold readQuad at h
    split at h
    · rename_i a b c d hsplit
      obtain ⟨a', ha, h⟩ := bind_eq_some_iff.mp h
      obtain ⟨b', hb, h⟩ := bind_eq_some_iff.mp h
      obtain ⟨c', hc, h⟩ := bind_eq_some_iff.mp h
      obtain ⟨d', hd, h⟩ := bind_eq_some_iff.mp h
      cases h
      obtain ⟨hlt_a, rfl⟩ := readOctet_eq_some.mp ha
      obtain ⟨hlt_b, rfl⟩ := readOctet_eq_some.mp hb
      obtain ⟨hlt_c, rfl⟩ := readOctet_eq_some.mp hc
      obtain ⟨hlt_d, rfl⟩ := readOctet_eq_some.mp hd
      refine ⟨rfl, by simp [hlt_a, hlt_b, hlt_c, hlt_d], ?_⟩
      have hjoined : ['.'].intercalate (text.splitOn '.') = text := intercalate_splitOn '.'
      rw [← hjoined, hsplit]
      rfl
    · cases h
  · rintro ⟨hlength, hlt, rfl⟩
    have hsplit : (writeQuad octets).splitOn '.' = octets.map (Nat.toDigits 10) := by
      apply splitOn_intercalate
      · intro digits hdigits
        obtain ⟨n, _, rfl⟩ := mem_map.mp hdigits
        exact dot_not_mem_decimal n
      · intro hnil
        rw [map_eq_nil_iff] at hnil
        rw [hnil] at hlength
        cases hlength
    match octets, hlength with
    | [a, b, c, d], _ =>
      unfold readQuad
      rw [hsplit]
      have hread {n : Nat} (hn : n ∈ [a, b, c, d]) :
          readOctet (Nat.toDigits 10 n) = some n := readOctet_eq_some.mpr ⟨hlt n hn, rfl⟩
      simp [hread]

theorem hexDigit_digitChar {d : Nat} : d < 16 → hexDigit d.digitChar = some d := by
  decide +revert

theorem hexValue_concat (digits : List Char) (c : Char) :
    hexValue (digits ++ [c]) = 16 * hexValue digits + (hexDigit c).getD 0 := by
  rw [hexValue, foldl_append]
  rfl

theorem hexValue_writePiece (n : Nat) : hexValue (writePiece n) = n := by
  unfold writePiece
  induction n using Nat.strongRecOn with
  | ind n ih =>
    rw [Nat.toDigits_eq_if (by decide)]
    split
    · rename_i hlt
      have hdigit := hexValue_concat [] n.digitChar
      rw [hexDigit_digitChar hlt] at hdigit
      rw [nil_append] at hdigit
      rw [hdigit]
      exact Nat.zero_add n
    · rename_i hge
      have hmod := Nat.mod_lt n (show 16 > 0 by decide)
      rw [hexValue_concat, ih (n / 16) (Nat.div_lt_self (by omega) (by decide)),
        hexDigit_digitChar hmod]
      exact Nat.div_add_mod n 16

theorem hexDigit_of_mem_writePiece (h : c ∈ writePiece n) :
    (hexDigit c).isSome = true := by
  have hdigit : ∀ d < 16, (hexDigit d.digitChar).isSome = true := by
    intro d hd
    rw [hexDigit_digitChar hd]
    rfl
  exact toDigits_forall (P := fun c => (hexDigit c).isSome = true) (by decide) hdigit n c h

theorem readPiece_writePiece (h : n < 65536) : readPiece (writePiece n) = some n := by
  have hall : (writePiece n).all (fun c => (hexDigit c).isSome) = true :=
    all_eq_true.mpr fun c hc => hexDigit_of_mem_writePiece hc
  have hlength : (writePiece n).length ≤ 4 := toDigits_length_le (by decide) (by decide) h
  rw [readPiece, if_pos ⟨Nat.length_toDigits_pos, hlength, hall⟩, hexValue_writePiece]

theorem readPiece_eq_some (h : readPiece text = some n) :
    n = hexValue text ∧ text ≠ [] ∧ ':' ∉ text := by
  unfold readPiece at h
  split at h
  · rename_i hpiece
    obtain ⟨hpos, _, hall⟩ := hpiece
    cases h
    refine ⟨rfl, ne_nil_of_length_pos hpos, ?_⟩
    intro hcolon
    exact absurd (all_eq_true.mp hall ':' hcolon) (by decide)
  · cases h

def Segment (text : List Char) : Prop := text ≠ [] ∧ ':' ∉ text

theorem segment_writePiece (n : Nat) : Segment (writePiece n) := by
  refine ⟨Nat.toDigits_ne_nil, ?_⟩
  intro hcolon
  exact absurd (hexDigit_of_mem_writePiece hcolon) (by decide)

theorem readGroups_writePiece (h : ∀ n ∈ pieces, n < 65536) :
    readGroups (pieces.map writePiece) = some pieces := by
  induction pieces with
  | nil => rfl
  | cons first rest ih =>
    rw [forall_mem_cons] at h
    have hfirst := readPiece_writePiece h.1
    cases rest with
    | nil => simp [readGroups, hfirst]
    | cons second rest =>
      have hrest := ih h.2
      rw [map_cons] at hrest
      simp [readGroups, hfirst, hrest]

theorem mapM_readPiece (h : ∀ n ∈ pieces, n < 65536) :
    (pieces.map writePiece).mapM readPiece = some pieces := by
  induction pieces with
  | nil => rfl
  | cons first rest ih =>
    rw [forall_mem_cons] at h
    rw [map_cons, mapM_cons, readPiece_writePiece h.1, ih h.2]
    rfl

theorem cutDouble_cons (h : c ≠ ':') (rest : List Char) :
    cutDouble (c :: rest) = (cutDouble rest).map fun cut => (c :: cut.1, cut.2) := by
  cases rest with
  | nil => rfl
  | cons c' rest => rw [cutDouble, if_neg fun hboth => h hboth.1]

theorem cutDouble_colon (h : c ≠ ':') (rest : List Char) :
    cutDouble (':' :: c :: rest) =
      (cutDouble (c :: rest)).map fun cut => (':' :: cut.1, cut.2) := by
  rw [cutDouble, if_neg fun hboth => h hboth.2]

theorem cutDouble_append (h : ':' ∉ text) (rest : List Char) :
    cutDouble (text ++ rest) = (cutDouble rest).map fun cut => (text ++ cut.1, cut.2) := by
  induction text with
  | nil => simp
  | cons c text ih =>
    rw [mem_cons, not_or] at h
    rw [cons_append, cutDouble_cons (Ne.symm h.1), ih h.2, Option.map_map]
    rfl

/-- In segments between single colons there is no `::`. -/
theorem cutDouble_intercalate (h : ∀ text ∈ segments, Segment text) (rest : List Char) :
    cutDouble ([':'].intercalate segments ++ rest) =
      (cutDouble rest).map fun cut => ([':'].intercalate segments ++ cut.1, cut.2) := by
  induction segments with
  | nil => simp [List.intercalate]
  | cons first others ih =>
    rw [forall_mem_cons] at h
    cases others with
    | nil =>
      have hone : [':'].intercalate [first] = first := by simp [List.intercalate]
      rw [hone]
      exact cutDouble_append h.1.2 rest
    | cons second others =>
      obtain ⟨hsecond, hcolon⟩ := h.2 second mem_cons_self
      obtain ⟨c, tail, rfl⟩ := exists_cons_of_ne_nil hsecond
      obtain ⟨more, hmore⟩ : ∃ more, [':'].intercalate ((c :: tail) :: others) ++ rest = c :: more := by
        cases others with
        | nil => exact ⟨tail ++ rest, by simp [List.intercalate]⟩
        | cons third others => exact ⟨_, by rw [intercalate_cons_cons]; rfl⟩
      have hc : c ≠ ':' := by
        rintro rfl
        exact hcolon mem_cons_self
      have htail := ih h.2
      rw [hmore] at htail
      rw [intercalate_cons_cons, append_assoc, append_assoc,
        cutDouble_append h.1.2, singleton_append, hmore, cutDouble_colon hc, htail,
        Option.map_map, Option.map_map]
      congr 1
      funext cut
      simp

theorem take_leadingZeros (pieces : List Nat) :
    List.replicate (leadingZeros pieces) 0 ++ pieces.drop (leadingZeros pieces) = pieces := by
  induction pieces with
  | nil => rfl
  | cons piece rest ih =>
    by_cases hpiece : piece = 0
    · subst hpiece
      have hcount : leadingZeros (0 :: rest) = leadingZeros rest + 1 := by
        simp [leadingZeros]
      rw [hcount, replicate_succ, drop_succ_cons, cons_append, ih]
    · have hcount : leadingZeros (piece :: rest) = 0 := by simp [leadingZeros, hpiece]
      rw [hcount]
      rfl

theorem longestZeros_spec (pieces : List Nat) :
    pieces.take (longestZeros pieces).1 ++ List.replicate (longestZeros pieces).2 0 ++
      pieces.drop ((longestZeros pieces).1 + (longestZeros pieces).2) = pieces := by
  induction pieces with
  | nil => rfl
  | cons piece rest ih =>
    unfold longestZeros
    split
    · simp only [take_zero, nil_append, Nat.zero_add]
      exact take_leadingZeros (piece :: rest)
    · have hplace : (longestZeros rest).1 + 1 + (longestZeros rest).2 =
          (longestZeros rest).1 + (longestZeros rest).2 + 1 := by omega
      simp only [hplace, take_succ_cons, drop_succ_cons, cons_append]
      rw [ih]

theorem splitOn_writePieces (h : pieces ≠ []) :
    (writePieces pieces).splitOn ':' = pieces.map writePiece := by
  apply splitOn_intercalate
  · intro text htext
    obtain ⟨n, _, rfl⟩ := mem_map.mp htext
    exact (segment_writePiece n).2
  · simpa using h

theorem segments_writePiece (pieces : List Nat) :
    ∀ text ∈ pieces.map writePiece, Segment text := by
  intro text htext
  obtain ⟨n, _, rfl⟩ := mem_map.mp htext
  exact segment_writePiece n

theorem writePieces_eq_nil : writePieces pieces = [] ↔ pieces = [] := by
  constructor
  · intro h
    by_contra hne
    have hsplit := splitOn_writePieces hne
    rw [h] at hsplit
    cases pieces with
    | nil => exact hne rfl
    | cons first rest =>
      have hfirst : writePiece first = [] := (List.cons.inj hsplit).1.symm
      exact (segment_writePiece first).1 hfirst
  · rintro rfl
    rfl

theorem readSide_writePieces (h : read (pieces.map writePiece) = some pieces) :
    readSide read (writePieces pieces) = some pieces := by
  unfold readSide
  by_cases hpieces : pieces = []
  · rw [if_pos (writePieces_eq_nil.mpr hpieces), hpieces]
  · rw [if_neg (mt writePieces_eq_nil.mp hpieces), splitOn_writePieces hpieces, h]

/-- A text of pieces: all of them, or those around a run of zero pieces. -/
inductive Spelling (pieces : List Nat) : List Char → Prop
  | whole : Spelling pieces (writePieces pieces)
  | shortened (before after : List Nat) {n : Nat} (hn : 0 < n)
      (h : before ++ List.replicate n 0 ++ after = pieces) :
    Spelling pieces (writePieces before ++ ':' :: ':' :: writePieces after)

theorem spelling_writeIpv6 (pieces : List Nat) : Spelling pieces (writeIpv6 pieces) := by
  unfold writeIpv6
  dsimp only
  split
  · rename_i hrun
    exact .shortened _ _ (by omega) (longestZeros_spec pieces)
  · exact .whole

theorem Spelling.readIpv6 (h : Spelling pieces text) (hlength : pieces.length = 8)
    (hlt : ∀ n ∈ pieces, n < 65536) : AddressTexts.readIpv6 text = some pieces := by
  cases h with
  | whole =>
    have hne : pieces ≠ [] := by
      rintro rfl
      cases hlength
    have hcut : cutDouble (writePieces pieces) = none := by
      have hnone := cutDouble_intercalate (segments_writePiece pieces) []
      rw [append_nil] at hnone
      rw [writePieces, hnone]
      rfl
    simp only [AddressTexts.readIpv6, hcut, splitOn_writePieces hne, readGroups_writePiece hlt,
      filter_some, hlength, decide_true, if_true]
  | @shortened before after n hn h =>
    subst h
    have hcut : cutDouble (writePieces before ++ ':' :: ':' :: writePieces after) =
        some (writePieces before, writePieces after) := by
      rw [writePieces, cutDouble_intercalate (segments_writePiece _), cutDouble, if_pos ⟨rfl, rfl⟩]
      simp
    have hbefore : readSide (List.mapM readPiece) (writePieces before) = some before :=
      readSide_writePieces (mapM_readPiece fun n hn => hlt n (by simp [hn]))
    have hafter : readSide readGroups (writePieces after) = some after :=
      readSide_writePieces (readGroups_writePiece fun n hn => hlt n (by simp [hn]))
    simp only [length_append, length_replicate] at hlength
    have hfew : before.length + after.length ≤ 7 := by omega
    have hfilled : 8 - (before.length + after.length) = n := by omega
    simp only [AddressTexts.readIpv6, hcut, hbefore, hafter, bind_eq_bind, bind_some, if_pos hfew,
      hfilled]

theorem readIpv6_writeIpv6 (hlength : pieces.length = 8) (hlt : ∀ n ∈ pieces, n < 65536) :
    readIpv6 (writeIpv6 pieces) = some pieces :=
  (spelling_writeIpv6 pieces).readIpv6 hlength hlt

theorem mem_intercalate {sep : Char} (h : c ∈ [sep].intercalate segments) :
    c = sep ∨ ∃ text ∈ segments, c ∈ text := by
  induction segments with
  | nil => simp [List.intercalate] at h
  | cons first rest ih =>
    cases rest with
    | nil => exact Or.inr ⟨first, mem_cons_self, by simpa [List.intercalate] using h⟩
    | cons second rest =>
      rw [intercalate_cons_cons, mem_append, mem_append] at h
      rcases h with (hfirst | hsep) | hrest
      · exact Or.inr ⟨first, mem_cons_self, hfirst⟩
      · exact Or.inl (mem_singleton.mp hsep)
      · exact (ih hrest).imp_right fun ⟨text, htext, hc⟩ =>
          ⟨text, mem_cons_of_mem _ htext, hc⟩

theorem mem_writeQuad (h : c ∈ writeQuad octets) :
    c = '.' ∨ c ∈ decimalDigits.toList := by
  rcases mem_intercalate h with hdot | ⟨text, htext, hc⟩
  · exact Or.inl hdot
  · obtain ⟨n, _, rfl⟩ := mem_map.mp htext
    exact Or.inr (mem_writeDecimal hc)

theorem mem_writePieces (h : c ∈ writePieces pieces) :
    c = ':' ∨ (hexDigit c).isSome = true := by
  rcases mem_intercalate h with hcolon | ⟨text, htext, hc⟩
  · exact Or.inl hcolon
  · obtain ⟨n, _, rfl⟩ := mem_map.mp htext
    exact Or.inr (hexDigit_of_mem_writePiece hc)

theorem mem_writeIpv6 (h : c ∈ writeIpv6 pieces) :
    c = ':' ∨ (hexDigit c).isSome = true := by
  have hspelling := spelling_writeIpv6 pieces
  generalize writeIpv6 pieces = text at h hspelling
  cases hspelling with
  | whole => exact mem_writePieces h
  | shortened before after hn hpieces =>
    simp only [mem_append, mem_cons] at h
    rcases h with hleft | hcolon | hcolon | hright
    · exact mem_writePieces hleft
    · exact Or.inl hcolon
    · exact Or.inl hcolon
    · exact mem_writePieces hright

theorem Spelling.readQuad (h : Spelling pieces text) (hlength : pieces.length = 8) :
    readQuad text = none := by
  have hcolon : ':' ∈ text := by
    cases h with
    | whole =>
      match pieces, hlength with
      | first :: second :: rest, _ =>
        rw [writePieces, map_cons, map_cons, intercalate_cons_cons]
        simp
    | shortened => simp
  cases hread : AddressTexts.readQuad text with
  | none => rfl
  | some octets =>
    rw [(readQuad_eq_some.mp hread).2.2] at hcolon
    rcases mem_writeQuad hcolon with hdot | hdigit
    · exact absurd hdot (by decide)
    · exact absurd hdigit (by decide)

theorem hexDigit_of_decimal (h : c ∈ decimalDigits.toList) :
    (hexDigit c).isSome = true := by
  have hall : (decimalDigits.toList.all fun c => (hexDigit c).isSome) = true := by decide
  exact all_eq_true.mp hall c h

theorem hexDigit_lt {d : Nat} (h : hexDigit c = some d) : d < 16 := by
  unfold hexDigit at h
  split at h
  · rename_i hdigit
    have hle : c.toNat ≤ '9'.toNat := hdigit.2
    have hnine : '9'.toNat = 57 := rfl
    cases h
    omega
  · split at h
    · rename_i hdigit
      have hle : c.toNat ≤ 'f'.toNat := hdigit.2
      have hf : 'f'.toNat = 102 := rfl
      cases h
      omega
    · split at h
      · rename_i hdigit
        have hle : c.toNat ≤ 'F'.toNat := hdigit.2
        have hf : 'F'.toNat = 70 := rfl
        cases h
        omega
      · cases h

theorem hexValue_lt (digits : List Char) : hexValue digits < 16 ^ digits.length := by
  induction digits using List.reverseRecOn with
  | nil => decide
  | append_singleton digits c ih =>
    rw [hexValue_concat, length_append, length_singleton, Nat.pow_succ]
    have hdigit : (hexDigit c).getD 0 < 16 := by
      cases hc : hexDigit c with
      | none => decide
      | some d => exact hexDigit_lt hc
    omega

/-- The characters of a text that is read, colons apart. -/
def IsDigit (c : Char) : Prop := c = '.' ∨ (hexDigit c).isSome = true

theorem readPiece_spec (h : readPiece text = some n) : n < 65536 ∧ ∀ c ∈ text, IsDigit c := by
  unfold readPiece at h
  split at h
  · rename_i hpiece
    cases h
    refine ⟨?_, fun c hc => Or.inr (all_eq_true.mp hpiece.2.2 c hc)⟩
    calc hexValue text < 16 ^ text.length := hexValue_lt text
      _ ≤ 16 ^ 4 := Nat.pow_le_pow_right (by decide) hpiece.2.1
  · cases h

theorem quadPieces_lt (h : ∀ n ∈ octets, n < 256) :
    ∀ n ∈ quadPieces octets, n < 65536 := by
  unfold quadPieces
  split
  · rename_i a b c d
    have ha := h a (by simp)
    have hb := h b (by simp)
    have hc := h c (by simp)
    have hd := h d (by simp)
    intro n hn
    rcases mem_pair.mp hn with rfl | rfl
    · omega
    · omega
  · simp

def Fits (pieces : List Nat) (segments : List (List Char)) : Prop :=
  (∀ n ∈ pieces, n < 65536) ∧ ∀ text ∈ segments, ∀ c ∈ text, IsDigit c

theorem Fits.cons {rest : List Nat} (hpiece : readPiece text = some n) (h : Fits rest segments) :
    Fits (n :: rest) (text :: segments) :=
  ⟨forall_mem_cons.mpr ⟨(readPiece_spec hpiece).1, h.1⟩,
    forall_mem_cons.mpr ⟨(readPiece_spec hpiece).2, h.2⟩⟩

theorem fits_nil : Fits [] [] := ⟨by simp, by simp⟩

theorem readGroups_spec (h : readGroups segments = some pieces) : Fits pieces segments := by
  induction segments generalizing pieces with
  | nil =>
    cases h
    exact fits_nil
  | cons first rest ih =>
    cases rest with
    | nil =>
      unfold readGroups at h
      split at h
      · rename_i piece hpiece
        cases h
        exact .cons hpiece fits_nil
      · obtain ⟨octets, hoctets, rfl⟩ := map_eq_some_iff.mp h
        obtain ⟨-, hlt, rfl⟩ := readQuad_eq_some.mp hoctets
        refine ⟨quadPieces_lt hlt, fun text htext c hc => ?_⟩
        rw [mem_singleton.mp htext] at hc
        exact (mem_writeQuad hc).imp_right hexDigit_of_decimal
    | cons second rest =>
      unfold readGroups at h
      obtain ⟨piece, hpiece, h⟩ := bind_eq_some_iff.mp h
      obtain ⟨others, hothers, h⟩ := bind_eq_some_iff.mp h
      cases h
      exact .cons hpiece (ih hothers)

theorem mapM_spec (h : segments.mapM readPiece = some pieces) : Fits pieces segments := by
  induction segments generalizing pieces with
  | nil =>
    cases h
    exact fits_nil
  | cons first rest ih =>
    rw [mapM_cons] at h
    obtain ⟨piece, hpiece, h⟩ := bind_eq_some_iff.mp h
    obtain ⟨others, hothers, h⟩ := bind_eq_some_iff.mp h
    cases h
    exact .cons hpiece (ih hothers)

theorem cutDouble_eq_some {left right : List Char} (h : cutDouble text = some (left, right)) :
    text = left ++ ':' :: ':' :: right := by
  induction text generalizing left with
  | nil => cases h
  | cons c rest ih =>
    cases rest with
    | nil => cases h
    | cons c' rest =>
      unfold cutDouble at h
      split at h
      · rename_i hcolons
        cases h
        rw [hcolons.1, hcolons.2]
        rfl
      · obtain ⟨cut, hcut, hsame⟩ := map_eq_some_iff.mp h
        cases hsame
        rw [ih hcut]
        rfl

theorem mem_of_splitOn (h : ∀ segment ∈ text.splitOn ':', ∀ c ∈ segment, IsDigit c) :
    ∀ c ∈ text, c = ':' ∨ IsDigit c := by
  intro c hc
  have hjoined : [':'].intercalate (text.splitOn ':') = text := intercalate_splitOn ':'
  rw [← hjoined] at hc
  rcases mem_intercalate hc with hcolon | ⟨segment, hsegment, hmem⟩
  · exact Or.inl hcolon
  · exact Or.inr (h segment hsegment c hmem)

theorem readSide_spec (hread : ∀ segments pieces, read segments = some pieces → Fits pieces segments)
    (h : readSide read text = some pieces) :
    (∀ n ∈ pieces, n < 65536) ∧ ∀ c ∈ text, c = ':' ∨ IsDigit c := by
  unfold readSide at h
  split at h
  · rename_i hempty
    cases h
    rw [hempty]
    simp
  · obtain ⟨hlt, hdigits⟩ := hread _ _ h
    exact ⟨hlt, mem_of_splitOn hdigits⟩

/-- Eight pieces, from colons and digits. -/
theorem readIpv6_spec (h : readIpv6 text = some pieces) :
    (pieces.length = 8 ∧ ∀ n ∈ pieces, n < 65536) ∧ ∀ c ∈ text, c = ':' ∨ IsDigit c := by
  unfold readIpv6 at h
  split at h
  · obtain ⟨hread, hlength⟩ := filter_eq_some_iff.mp h
    obtain ⟨hlt, hdigits⟩ := readGroups_spec hread
    exact ⟨⟨of_decide_eq_true hlength, hlt⟩, mem_of_splitOn hdigits⟩
  · rename_i left right hcut
    obtain ⟨before, hbefore, h⟩ := bind_eq_some_iff.mp h
    obtain ⟨after, hafter, h⟩ := bind_eq_some_iff.mp h
    obtain ⟨hltBefore, hleft⟩ := readSide_spec (fun _ _ => mapM_spec) hbefore
    obtain ⟨hltAfter, hright⟩ := readSide_spec (fun _ _ => readGroups_spec) hafter
    split at h
    · cases h
      refine ⟨⟨by simp only [length_append, length_replicate]; omega, ?_⟩, ?_⟩
      · intro n hn
        rcases mem_append.mp hn with hn | hn
        · rcases mem_append.mp hn with hn | hn
          · exact hltBefore n hn
          · rw [eq_of_mem_replicate hn]
            decide
        · exact hltAfter n hn
      · intro c hc
        rw [cutDouble_eq_some hcut, mem_append, mem_cons, mem_cons] at hc
        rcases hc with hc | hc | hc | hc
        · exact hleft c hc
        · exact Or.inl hc
        · exact Or.inl hc
        · exact hright c hc
    · cases h

/-- Behind the five zero pieces of a mapped address no run is longer. -/
theorem writeIpv6_mapped (high low : Nat) :
    writeIpv6 [0, 0, 0, 0, 0, 65535, high, low] =
      "::ffff:".toList ++ writePiece high ++ ':' :: writePiece low := by
  have hzeros : longestZeros [0, 0, 0, 0, 0, 65535, high, low] = (0, 5) := by
    by_cases hhigh : high = 0 <;> by_cases hlow : low = 0 <;>
      simp [longestZeros, leadingZeros, hhigh, hlow]
  unfold writeIpv6
  rw [hzeros]
  have hffff : writePiece 65535 = "ffff".toList := by decide
  have hpieces : writePieces [65535, high, low] =
      "ffff:".toList ++ writePiece high ++ ':' :: writePiece low := by
    simp [writePieces, List.intercalate, hffff]
  exact congrArg (fun tail => ':' :: ':' :: tail) hpieces

theorem readIpv6_mapped {x y : List Char} {high low : Nat} (hx : readPiece x = some high)
    (hy : readPiece y = some low) : readIpv6 ("::ffff:".toList ++ x ++ ':' :: y) =
      some [0, 0, 0, 0, 0, 65535, high, low] := by
  have hsplit : ("ffff:".toList ++ x ++ ':' :: y).splitOn ':' = ["ffff".toList, x, y] := by
    have hjoined : "ffff:".toList ++ x ++ ':' :: y = [':'].intercalate ["ffff".toList, x, y] := by
      simp [List.intercalate]
    rw [hjoined]
    apply splitOn_intercalate
    · simp [(readPiece_eq_some hx).2.2, (readPiece_eq_some hy).2.2]
    · simp
  have hfirst : readPiece ['f', 'f', 'f', 'f'] = some 65535 := by decide
  have hafter : readSide readGroups ("ffff:".toList ++ x ++ ':' :: y) = some [65535, high, low] := by
    unfold readSide
    rw [if_neg (by simp), hsplit]
    simp [readGroups, hfirst, hx, hy]
  have hcut : cutDouble ("::ffff:".toList ++ x ++ ':' :: y) =
      some ([], "ffff:".toList ++ x ++ ':' :: y) := by
    rfl
  simp only [readIpv6, hcut]
  rw [hafter]
  rfl

end AddressTexts
