import CyberGuard.Shared.DecimalNumbers
import CyberGuard.Shared.EndedLines
import CyberGuard.Shared.TextPatterns
import CyberGuard.Shared.Utf8Text

/-!
# The release's version

`is_release_version` of `version.rs`, on the octets of the build's input and with the counters
it has, and `releaseVersion` of `release-version.mjs`, on the release's tag.
-/

namespace CyberGuard.Agent.ReleaseVersion
set_option autoImplicit false
open List
open DecimalNumbers (Double IsNumeral value)
open TextPatterns (Pattern decimalDigits)
open Utf8Text (encode)

/-- The build's arithmetic: with overflow checks or without. -/
inductive Build
  | checked
  | wrapping

/-- `n += 1` of an `i32`; nothing where the addition panics. -/
def Build.increment (build : Build) (n : Int) : Option Int :=
  if n < 2 ^ 31 - 1 then some (n + 1)
  else match build with
    | .checked => none
    | .wrapping => some (-2 ^ 31)

def isAsciiDigit (c : UInt8) : Bool := 0x30 ≤ c && c ≤ 0x39

structure Scan where
  dots : Int
  digits : Int
  leadingZero : Bool

/-- The loop over the octets, from the state it has reached. -/
def Scan.run (build : Build) : Scan → List UInt8 → Option Bool
  | scan, [] => some (scan.dots == 2 && 0 < scan.digits)
  | scan, c :: rest =>
    if c == 0x2E then
      if scan.digits == 0 || scan.dots == 2 then some false
      -- At most two: this addition cannot overflow.
      else Scan.run build ⟨scan.dots + 1, 0, false⟩ rest
    else if isAsciiDigit c then
      if scan.leadingZero then some false
      else
        (build.increment scan.digits).bind fun digits =>
          Scan.run build ⟨scan.dots, digits, scan.digits == 0 && c == 0x30⟩ rest
    else some false

def isReleaseVersion (build : Build) (s : String) : Option Bool :=
  Scan.run build ⟨0, 0, false⟩ (encode s.toList)

def limits : List (String × Nat) := [("major", 255), ("minor", 255), ("patch", 65535)]

def componentPattern : Pattern :=
  .char '0' + TextPatterns.oneOf "123456789" * .star (TextPatterns.oneOf decimalDigits)

def tagPattern : Pattern :=
  .char 'v' * (componentPattern * (.char '.' * (componentPattern * (.char '.' * componentPattern))))

/-- The groups of a tag that matches: no group holds a dot. -/
def tagGroups (tag : String) : Option (List (List Char)) :=
  if TextPatterns.test tagPattern tag then some ((tag.toList.drop 1).splitOn '.') else none

/-- `stringify` is `JSON.stringify`, which the messages quote the tag with. -/
def releaseVersion (stringify : String → String) (tag : String) : Except String String :=
  match tagGroups tag with
  | none => .error (stringify tag ++
      " is not v<X>.<Y>.<Z> with each component 0 or digits without a leading zero")
  | some groups =>
    match (limits.zip groups).find? fun (field, group) =>
      (Double.ofNat (value group)).isAbove field.2 with
    | some (field, group) => .error (stringify tag ++ ": " ++ field.1 ++ " " ++
        String.ofList group ++ " is above MSI's limit of " ++ toString field.2)
    | none => .ok (".".intercalate (groups.map fun group => (Double.ofNat (value group)).text))

/-- Three components joined by two dots. -/
structure Reads (s : List Char) (x y z : List Char) : Prop where
  text : s = x ++ '.' :: (y ++ '.' :: z)
  major : IsNumeral x
  minor : IsNumeral y
  patch : IsNumeral z

def IsVersion (s : String) : Prop := ∃ x y z, Reads s.toList x y z

/-- Past components that are each followed by a dot, two dots at most in the whole text. -/
inductive Leads (P : Nat → List Char → Prop) : Nat → List Char → Prop
  | here {n : Nat} {text : List Char} (h : P n text) : Leads P n text
  | dot {n : Nat} {x text : List Char} (hn : n < 2) (hx : IsNumeral x) (h : Leads P (n + 1) text) :
      Leads P n (x ++ '.' :: text)

/-- One digit more than an `i32` counts. -/
def Overlong (text : List Char) : Prop :=
  ∃ digits rest, text = digits ++ rest ∧ IsNumeral digits ∧ digits.length = 2 ^ 31

def Overflows (s : String) : Prop := Leads (fun _ => Overlong) 0 s.toList

section Grammar
variable {P : Nat → List Char → Prop} {n : Nat} {c : Char} {cur text x rest : List Char}

/-- A component as far as it is read. -/
def Begun (cur : List Char) : Prop := cur = [] ∨ IsNumeral cur

theorem Begun.isDigit (h : Begun cur) : ∀ c ∈ cur, c.isDigit = true := by
  rcases h with rfl | h
  · simp
  · exact h.isDigit

theorem Begun.push (h : Begun cur) (hzero : cur ≠ ['0']) (hc : c.isDigit = true) :
    IsNumeral (cur ++ [c]) := by
  have hdigits : ∀ d ∈ cur ++ [c], d.isDigit = true := by
    intro d hd
    rcases mem_append.mp hd with hd | hd
    · exact h.isDigit d hd
    · rw [mem_singleton.mp hd]
      exact hc
  rcases h with rfl | hzero' | ⟨hnil, hhead, -⟩
  · by_cases hc0 : c = '0'
    · exact Or.inl (congrArg (fun c => [c]) hc0)
    · exact Or.inr ⟨cons_ne_nil _ _, fun hhead => hc0 (Option.some.inj hhead), hdigits⟩
  · exact absurd hzero' hzero
  · refine Or.inr ⟨by simp, ?_, hdigits⟩
    rw [List.head?_append_of_ne_nil _ hnil]
    exact hhead

/-- Digits at the start of a text end before a character that is no digit. -/
theorem length_le_of_isDigit (hc : c.isDigit = false) (hx : ∀ c ∈ x, c.isDigit = true)
    (h : cur ++ c :: text = x ++ rest) : x.length ≤ cur.length := by
  by_contra hlt
  have hread : cur ++ [c] <+: cur ++ c :: text := ⟨text, by simp⟩
  have hlength : (cur ++ [c]).length ≤ x.length := by
    rw [length_append, length_singleton]
    omega
  have hmem := (prefix_of_prefix_length_le hread ⟨rest, h.symm⟩ hlength).subset
    (mem_append_right cur (mem_singleton_self c))
  rw [hx c hmem] at hc
  cases hc

/-- At a character that is no digit: it is the dot after a component. -/
theorem leads_cons (hcur : Begun cur) (hc : c.isDigit = false) : Leads P n (cur ++ c :: text) ↔
    P n (cur ++ c :: text) ∨ c = '.' ∧ n < 2 ∧ IsNumeral cur ∧ Leads P (n + 1) text := by
  constructor
  · intro h
    generalize hwhole : cur ++ c :: text = whole at h
    cases h with
    | here h => exact Or.inl h
    | @dot _ x text' hn hx h =>
      have hle := length_le_of_isDigit hc hx.isDigit hwhole
      have hge := length_le_of_isDigit (by decide) hcur.isDigit hwhole.symm
      obtain ⟨rfl, htail⟩ := append_inj hwhole (by omega)
      obtain ⟨rfl, rfl⟩ := cons_eq_cons.mp htail
      exact Or.inr ⟨rfl, hn, hx, h⟩
  · rintro (h | ⟨rfl, hn, hx, h⟩)
    · exact .here h
    · exact .dot hn hx h

theorem leads_begun (hcur : Begun cur) : Leads P n cur ↔ P n cur := by
  refine ⟨fun h => ?_, .here⟩
  cases h with
  | here h => exact h
  | @dot _ x text hn hx h => exact absurd (hcur.isDigit '.' (by simp)) (by decide)

theorem eq_zero_of_numeral (hx : IsNumeral x) (h : '0' :: text = x ++ rest) : x = ['0'] := by
  rcases hx with rfl | ⟨hnil, hhead, -⟩
  · rfl
  · refine absurd ?_ hhead
    have hsame : (x ++ rest).head? = x.head? := List.head?_append_of_ne_nil x hnil
    rw [← hsame, ← h, List.head?_cons]

/-- Nothing is read past a leading zero but a dot. -/
theorem leads_zero (hc : c.isDigit = true) :
    Leads P n ('0' :: c :: text) ↔ P n ('0' :: c :: text) := by
  refine ⟨fun h => ?_, .here⟩
  generalize hwhole : '0' :: c :: text = whole at h
  cases h with
  | here h => exact h
  | dot hn hx h =>
    rw [eq_zero_of_numeral hx hwhole] at hwhole
    obtain ⟨-, htail⟩ := cons_eq_cons.mp hwhole
    obtain ⟨rfl, -⟩ := cons_eq_cons.mp htail
    exact absurd hc (by decide)

theorem not_overlong_cons (hc : c.isDigit = false) (hcur : cur.length < 2 ^ 31) :
    ¬ Overlong (cur ++ c :: text) := by
  rintro ⟨digits, rest, htext, hdigits, hlength⟩
  have hle := length_le_of_isDigit hc hdigits.isDigit htext
  omega

theorem not_overlong_of_length (hcur : cur.length < 2 ^ 31) : ¬ Overlong cur := by
  rintro ⟨digits, rest, rfl, -, hlength⟩
  rw [length_append] at hcur
  omega

theorem not_overlong_zero : ¬ Overlong ('0' :: text) := by
  rintro ⟨digits, rest, htext, hdigits, hlength⟩
  rw [eq_zero_of_numeral hdigits htext] at hlength
  cases hlength

end Grammar

section Loop
variable {build : Build} {n : Nat} {c : Char} {cur text whole : List Char} {result : Option Bool}

/-- What the loop sees of a character: an octet of its own, or one that it refuses. -/
theorem octet_spec (c : Char) : ∃ octet more, String.utf8EncodeChar c = octet :: more ∧
    (octet == 0x2E) = (c == '.') ∧ isAsciiDigit octet = c.isDigit ∧ (octet == 0x30) = (c == '0') ∧
      (c = '.' ∨ c.isDigit = true → more = []) := by
  by_cases hascii : c.toNat < 128
  · have hall : ∀ n < 128, (UInt8.ofNat n == 0x2E) = (Char.ofNat n == '.') ∧
        isAsciiDigit (UInt8.ofNat n) = (Char.ofNat n).isDigit ∧
          (UInt8.ofNat n == 0x30) = (Char.ofNat n == '0') := by
      decide
    obtain ⟨hdot, hdigit, hzero⟩ := hall c.toNat hascii
    rw [Char.ofNat_toNat] at hdot hdigit hzero
    exact ⟨_, _, Utf8Text.encode_ascii hascii, hdot, hdigit, hzero, fun _ => rfl⟩
  · obtain ⟨first, more, hencode, hfirst, -⟩ := Utf8Text.encode_other (Nat.le_of_not_lt hascii)
    have hdot : c ≠ '.' := by
      rintro rfl
      exact hascii (by decide)
    have hzero : c ≠ '0' := by
      rintro rfl
      exact hascii (by decide)
    have hdigit : c.isDigit = false := by
      rw [Bool.eq_false_iff, Ne, DecimalNumbers.isDigit_iff]
      omega
    have hother : ∀ octet : UInt8, octet < 0xC0 → (first == octet) = false := by
      intro octet hlt
      refine beq_eq_false_iff_ne.mpr ?_
      rintro rfl
      exact absurd hfirst (UInt8.not_le.mpr hlt)
    refine ⟨first, more, hencode, ?_, ?_, ?_, ?_⟩
    · rw [hother 0x2E (by decide), beq_eq_false_iff_ne.mpr hdot]
    · rw [hdigit, isAsciiDigit, Bool.and_eq_false_iff]
      refine Or.inr (decide_eq_false_iff_not.mpr fun hle => ?_)
      exact absurd (UInt8.le_trans hfirst hle) (by decide)
    · rw [hother 0x30 (by decide), beq_eq_false_iff_ne.mpr hzero]
    · rintro (h | h)
      · exact absurd h hdot
      · rw [hdigit] at h
        cases h

def Ends (n : Nat) (text : List Char) : Prop := n = 2 ∧ IsNumeral text

/-- The result is right, or a counter has overflowed. -/
def Settles (build : Build) (result : Option Bool) (n : Nat) (whole : List Char) : Prop :=
  (Leads (fun _ => Overlong) n whole ∧ (build = .checked → result = none)) ∨
    ¬ Leads (fun _ => Overlong) n whole ∧
      ∃ accepted, result = some accepted ∧ (accepted = true ↔ Leads Ends n whole)

theorem settles_refused (hoverlong : ¬ Leads (fun _ => Overlong) n whole)
    (hends : ¬ Leads Ends n whole) : Settles build (some false) n whole :=
  Or.inr ⟨hoverlong, false, rfl, iff_of_false Bool.false_ne_true hends⟩

theorem settles_zero (hc : c.isDigit = true) : Settles build (some false) n ('0' :: c :: text) := by
  refine settles_refused ?_ ?_
  · rw [leads_zero hc]
    exact not_overlong_zero
  · rw [leads_zero hc]
    rintro ⟨-, hnumeral⟩
    cases eq_zero_of_numeral hnumeral (append_nil _).symm

theorem not_ends_cons (hc : c.isDigit = false) : ¬ Ends n (cur ++ c :: text) := by
  rintro ⟨-, hnumeral⟩
  rw [hnumeral.isDigit c (by simp)] at hc
  cases hc

theorem settles_stop (hcur : Begun cur) (hlt : cur.length < 2 ^ 31) (hc : c.isDigit = false)
    (hstop : ¬ (c = '.' ∧ n < 2 ∧ IsNumeral cur)) :
    Settles build (some false) n (cur ++ c :: text) := by
  refine settles_refused ?_ ?_
  · rw [leads_cons hcur hc]
    rintro (h | ⟨hdot, hn, hnumeral, -⟩)
    · exact not_overlong_cons hc hlt h
    · exact hstop ⟨hdot, hn, hnumeral⟩
  · rw [leads_cons hcur hc]
    rintro (h | ⟨hdot, hn, hnumeral, -⟩)
    · exact not_ends_cons hc h
    · exact hstop ⟨hdot, hn, hnumeral⟩

theorem settles_dot (hcur : IsNumeral cur) (hlt : cur.length < 2 ^ 31) (hn : n < 2)
    (h : Settles build result (n + 1) text) : Settles build result n (cur ++ '.' :: text) := by
  have hgoes {P : Nat → List Char → Prop} (hnot : ¬ P n (cur ++ '.' :: text)) :
      Leads P n (cur ++ '.' :: text) ↔ Leads P (n + 1) text := by
    rw [leads_cons (Or.inr hcur) (by decide)]
    exact ⟨fun h => (h.resolve_left hnot).2.2.2, fun h => Or.inr ⟨rfl, hn, hcur, h⟩⟩
  rw [Settles, hgoes (not_overlong_cons (by decide) hlt), hgoes (not_ends_cons (by decide))]
  exact h

/-- The state of the loop behind `n` dots and what it has read of a component. -/
def Scan.behind (n : Nat) (cur : List Char) : Scan := ⟨n, cur.length, cur == ['0']⟩

theorem increment_of_lt {k : Int} (h : k < 2 ^ 31 - 1) : build.increment k = some (k + 1) := by
  unfold Build.increment
  exact if_pos h

theorem leadingZero_push (cur : List Char) (c : Char) :
    ((cur.length : Int) == 0 && c == '0') = (cur ++ [c] == ['0']) := by
  cases cur with
  | nil => simp
  | cons d cur =>
    have hlength : ((d :: cur).length : Int) ≠ 0 := by
      rw [length_cons]
      omega
    rw [beq_eq_false_iff_ne.mpr hlength]
    simp

theorem run_spec (build : Build) (hcur : Begun cur) (hlt : cur.length < 2 ^ 31) (hn : n ≤ 2) :
    Settles build (Scan.run build (.behind n cur) (encode text)) n (cur ++ text) := by
  induction text generalizing n cur with
  | nil =>
    rw [append_nil, Utf8Text.encode_nil, Scan.run]
    refine Or.inr ⟨?_, _, rfl, ?_⟩
    · rw [leads_begun hcur]
      exact not_overlong_of_length hlt
    · have hpos : 0 < cur.length ↔ IsNumeral cur := by
        rw [length_pos_iff]
        exact ⟨hcur.resolve_left, IsNumeral.ne_nil⟩
      rw [leads_begun hcur, Ends, Scan.behind, ← hpos]
      simp only [Bool.and_eq_true, beq_iff_eq, decide_eq_true_iff]
      omega
  | cons c text ih =>
    obtain ⟨octet, more, hencode, hdot, hdigit, hzero, hmore⟩ := octet_spec c
    rw [Utf8Text.encode_cons, hencode, cons_append, Scan.run, hdot, hdigit, hzero]
    by_cases hcdot : c = '.'
    · subst hcdot
      rw [hmore (Or.inl rfl)]
      by_cases hstop : cur = [] ∨ n = 2
      · have hrefused : ((Scan.behind n cur).digits == 0 || (Scan.behind n cur).dots == 2) = true := by
          simpa [Scan.behind] using hstop.imp_right fun h => by omega
        rw [hrefused]
        apply settles_stop hcur hlt (by decide)
        rintro ⟨-, hlow, hnumeral⟩
        exact hstop.elim hnumeral.ne_nil (by omega)
      · obtain ⟨hnil, htwo⟩ := not_or.mp hstop
        have hgoes : ((Scan.behind n cur).digits == 0 || (Scan.behind n cur).dots == 2) = false := by
          simp only [Scan.behind, Bool.or_eq_false_iff, beq_eq_false_iff_ne]
          have hpos := length_pos_iff.mpr hnil
          omega
        rw [hgoes]
        exact settles_dot (hcur.resolve_left hnil) hlt (by omega)
          (@ih (n + 1) [] (Or.inl rfl) (by decide) (by omega))
    · rw [beq_eq_false_iff_ne.mpr hcdot]
      cases hc : c.isDigit with
      | false => exact settles_stop hcur hlt hc fun h => hcdot h.1
      | true =>
        rw [hmore (Or.inr hc)]
        by_cases hcur0 : cur = ['0']
        · rw [hcur0]
          exact settles_zero hc
        · have hpush := hcur.push hcur0 hc
          have hlength : (cur ++ [c]).length = cur.length + 1 := by simp
          have hread : cur ++ c :: text = cur ++ [c] ++ text := by simp
          rw [hread, show Scan.leadingZero (.behind n cur) = false from beq_eq_false_iff_ne.mpr hcur0]
          by_cases hlast : (cur.length : Int) < 2 ^ 31 - 1
          · have hrest := ih (Or.inr hpush) (by omega) hn
            rw [Scan.behind, ← leadingZero_push, hlength] at hrest
            rw [show build.increment (Scan.behind n cur).digits = _ from increment_of_lt hlast]
            exact hrest
          · -- The counter is at its greatest value.
            refine Or.inl ⟨.here ⟨cur ++ [c], text, rfl, hpush, by omega⟩, ?_⟩
            rintro rfl
            rw [show Build.increment .checked (Scan.behind n cur).digits = _ from if_neg hlast]
            rfl

end Loop

section Tag
variable {w s x y z : List Char} {tag : String}

theorem isDigit_iff_mem {c : Char} : c.isDigit = true ↔ c ∈ decimalDigits.toList := by
  constructor
  · intro h
    obtain ⟨hlow, hhigh⟩ := DecimalNumbers.isDigit_iff.mp h
    have hall : ∀ n < 58, 48 ≤ n → Char.ofNat n ∈ decimalDigits.toList := by decide
    rw [← Char.ofNat_toNat c]
    exact hall c.toNat (by omega) hlow
  · intro h
    have hall : (decimalDigits.toList.all fun c => c.isDigit) = true := by decide
    exact all_eq_true.mp hall c h

theorem mem_componentPattern : w ∈ componentPattern.matches' ↔ IsNumeral w := by
  have hfirst : decimalDigits.toList = '0' :: "123456789".toList := by decide
  rw [componentPattern, RegularExpression.matches'_add, Language.mem_add,
    RegularExpression.matches'_mul, Language.mem_mul]
  refine or_congr Iff.rfl ?_
  constructor
  · rintro ⟨_, hone, b, hb, rfl⟩
    obtain ⟨d, hd, rfl⟩ := TextPatterns.mem_oneOf.mp hone
    refine ⟨cons_ne_nil _ _, ?_, ?_⟩
    · intro hzero
      obtain rfl := Option.some.inj hzero
      exact absurd hd (by decide)
    · intro c hc
      rw [isDigit_iff_mem]
      rcases mem_cons.mp hc with rfl | hc
      · rw [hfirst]
        exact mem_cons_of_mem _ hd
      · exact TextPatterns.mem_star_oneOf.mp hb c hc
  · rintro ⟨hnil, hhead, hdigits⟩
    obtain ⟨d, b, rfl⟩ := exists_cons_of_ne_nil hnil
    obtain ⟨hd, hb⟩ := forall_mem_cons.mp hdigits
    refine ⟨[d], TextPatterns.mem_oneOf.mpr ⟨d, ?_, rfl⟩, b, TextPatterns.mem_star_oneOf.mpr ?_, rfl⟩
    · have hmem := isDigit_iff_mem.mp hd
      rw [hfirst] at hmem
      refine (mem_cons.mp hmem).resolve_left ?_
      rintro rfl
      exact hhead rfl
    · exact fun c hc => isDigit_iff_mem.mp (hb c hc)

theorem test_tagPattern : TextPatterns.test tagPattern tag = true ↔
    ∃ s x y z, tag.toList = 'v' :: s ∧ Reads s x y z := by
  have hchar {c : Char} {w : List Char} : w ∈ (RegularExpression.char c).matches' ↔ w = [c] := Iff.rfl
  simp only [TextPatterns.test_iff, tagPattern, RegularExpression.matches'_mul, Language.mem_mul,
    mem_componentPattern, hchar, exists_eq_left]
  constructor
  · rintro ⟨_, ⟨x, hx, _, ⟨_, ⟨y, hy, _, ⟨z, hz, rfl⟩, rfl⟩, rfl⟩, rfl⟩, htag⟩
    exact ⟨_, x, y, z, htag.symm, rfl, hx, hy, hz⟩
  · rintro ⟨_, x, y, z, htag, rfl, hx, hy, hz⟩
    exact ⟨_, ⟨x, hx, _, ⟨_, ⟨y, hy, _, ⟨z, hz, rfl⟩, rfl⟩, rfl⟩, rfl⟩, htag.symm⟩

theorem splitOn_dot (h : Reads s x y z) : s.splitOn '.' = [x, y, z] := by
  have hdot {w : List Char} (hw : IsNumeral w) : '.' ∉ w :=
    fun hmem => absurd (hw.isDigit '.' hmem) (by decide)
  rw [h.text, EndedLines.splitOn_line (hdot h.major), EndedLines.splitOn_line (hdot h.minor),
    splitOn_eq_singleton (hdot h.patch)]

/-- Within MSI's limits. -/
def Fits (x y z : List Char) : Prop := value x ≤ 255 ∧ value y ≤ 255 ∧ value z ≤ 65535

theorem find_eq_none : ((limits.zip [x, y, z]).find? fun (field, group) =>
    (Double.ofNat (value group)).isAbove field.2) = none ↔ Fits x y z := by
  simp [limits, Fits, DecimalNumbers.isAbove_ofNat]

theorem join_texts (h : Reads s x y z) (hfits : Fits x y z) :
    ".".intercalate ([x, y, z].map fun group => (Double.ofNat (value group)).text) =
      String.ofList s := by
  obtain ⟨hx, hy, hz⟩ := hfits
  have htext {w : List Char} (hw : IsNumeral w) (hlt : value w ≤ 65535) :
      (Double.ofNat (value w)).text = String.ofList w :=
    DecimalNumbers.text_ofNat_value hw (by omega)
  apply String.toList_inj.mp
  simp only [map_cons, map_nil, htext h.major (by omega), htext h.minor (by omega),
    htext h.patch hz, String.intercalate_cons_cons, String.intercalate_singleton,
    String.toList_append, String.toList_ofList, h.text]
  simp

theorem releaseVersion_of_reads (stringify : String → String) (htag : tag.toList = 'v' :: s)
    (h : Reads s x y z) (version : String) :
    releaseVersion stringify tag = .ok version ↔ version.toList = s ∧ Fits x y z := by
  have hgroups : tagGroups tag = some [x, y, z] := by
    rw [tagGroups, if_pos (test_tagPattern.mpr ⟨s, x, y, z, htag, h⟩), htag]
    exact congrArg some (splitOn_dot h)
  rw [releaseVersion, hgroups]
  dsimp only
  split
  · next hfound =>
    refine iff_of_false (fun hok => nomatch hok) ?_
    rintro ⟨-, hfits⟩
    rw [find_eq_none.mpr hfits] at hfound
    cases hfound
  · next hnone =>
    have hfits := find_eq_none.mp hnone
    rw [join_texts h hfits, Except.ok.injEq]
    constructor
    · rintro rfl
      exact ⟨String.toList_ofList, hfits⟩
    · rintro ⟨rfl, -⟩
      exact String.ofList_toList

end Tag

theorem isVersion_iff {s : String} : IsVersion s ↔ Leads Ends 0 s.toList := by
  constructor
  · rintro ⟨x, y, z, htext, hx, hy, hz⟩
    rw [htext]
    exact .dot (by decide) hx (.dot (by decide) hy (.here ⟨rfl, hz⟩))
  · intro h
    generalize htext : s.toList = text at h
    cases h with
    | here h => cases h.1
    | dot _ hx h =>
      cases h with
      | here h => cases h.1
      | dot _ hy h =>
        cases h with
        | here h => exact ⟨_, _, _, htext, hx, hy, h.2⟩
        | dot hn _ _ => exact absurd hn (by decide)

/-- The scan is right on every text but those on which its counter of digits overflows, and the
tags that are accepted are those of the versions within the limits. -/
theorem versions_agree (stringify : String → String) (s : String) :
    ((∀ build, ∃ accepted, isReleaseVersion build s = some accepted ∧
        (accepted = true ↔ IsVersion s)) ↔ ¬ Overflows s) ∧
      ∀ tag, releaseVersion stringify tag = .ok s ↔
        tag = "v" ++ s ∧ ∃ x y z, Reads s.toList x y z ∧ Fits x y z := by
  have hscan (build : Build) : Settles build (isReleaseVersion build s) 0 s.toList :=
    run_spec build (Or.inl rfl) (by decide) (by decide)
  refine ⟨⟨fun h hover => ?_, fun hover build => ?_⟩, fun tag => ?_⟩
  · obtain ⟨accepted, hsome, -⟩ := h .checked
    rcases hscan .checked with ⟨-, hnone⟩ | ⟨hnot, -⟩
    · rw [hnone rfl] at hsome
      cases hsome
    · exact hnot hover
  · rw [isVersion_iff]
    exact ((hscan build).resolve_left fun h => hover h.1).2
  · have htag : tag = "v" ++ s ↔ tag.toList = 'v' :: s.toList := by
      rw [← String.toList_inj, String.toList_append]
      rfl
    rw [htag]
    constructor
    · intro h
      have hmatch : TextPatterns.test tagPattern tag = true := by
        by_contra hno
        rw [releaseVersion, tagGroups, if_neg hno] at h
        cases h
      obtain ⟨text, x, y, z, hv, hreads⟩ := test_tagPattern.mp hmatch
      obtain ⟨rfl, hfits⟩ := (releaseVersion_of_reads stringify hv hreads s).mp h
      exact ⟨hv, x, y, z, hreads, hfits⟩
    · rintro ⟨hv, x, y, z, hreads, hfits⟩
      exact (releaseVersion_of_reads stringify hv hreads s).mpr ⟨rfl, hfits⟩

/-- A patch number of 2147483648 digits. -/
theorem overlong_patch_panics :
    IsVersion (String.ofList ("0.0.".toList ++ List.replicate (2 ^ 31) '1')) ∧
      isReleaseVersion .checked (String.ofList ("0.0.".toList ++ List.replicate (2 ^ 31) '1')) =
        none := by
  have hzero : IsNumeral ['0'] := Or.inl rfl
  have hpatch : IsNumeral (List.replicate (2 ^ 31) '1') := by
    refine Or.inr ⟨?_, ?_, ?_⟩
    · rw [Ne, replicate_eq_nil_iff]
      decide
    · rw [List.head?_replicate]
      simp
    · intro c hc
      rw [eq_of_mem_replicate hc]
      decide
  refine ⟨⟨['0'], ['0'], _, String.toList_ofList, hzero, hzero, hpatch⟩, ?_⟩
  have hover : Leads (fun _ => Overlong) 0 ("0.0.".toList ++ List.replicate (2 ^ 31) '1') :=
    .dot (x := ['0']) (by decide) hzero (.dot (x := ['0']) (by decide) hzero
      (.here ⟨_, [], (append_nil _).symm, hpatch, length_replicate⟩))
  rw [isReleaseVersion, String.toList_ofList]
  rcases run_spec .checked (Or.inl rfl) (by decide) (Nat.zero_le 2) with ⟨-, hnone⟩ | ⟨hnot, -⟩
  · exact hnone rfl
  · exact absurd hover hnot

end CyberGuard.Agent.ReleaseVersion
