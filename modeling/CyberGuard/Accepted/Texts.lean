import CyberGuard.Agent.Dispatch
import CyberGuard.Ingest.EventSchema
import CyberGuard.Shared.AddressTexts

/-!
# Texts the agent writes and patterns the server tests

Each text of an event against the pattern its field is tested with: instants,
identifiers, addresses and status codes. The agent writes them with the standard
library's formatting, so what is shown here is that the two agree on every value.
-/

namespace CyberGuard.Accepted
set_option autoImplicit false
open CyberGuard.Agent CyberGuard.Ingest.EventSchema TextPatterns JsonSchema AddressTexts List

def InRange (nanos : Nat) : Prop := 0 < nanos ∧ nanos < 2 ^ 63

theorem digitChar_mem_nonzero {d : Nat} (h : 0 < d ∧ d < 10) :
    d.digitChar ∈ "123456789".toList := by
  have hclass : ∀ d < 10, 0 < d → d.digitChar ∈ "123456789".toList := by decide
  exact hclass d h.2 h.1

theorem nanos_accepted {nanos : Nat} (h : InRange nanos) :
    nanosSchema (some (.string (toString nanos))) = true := by
  obtain ⟨hpos, hlt⟩ := h
  have htext : (toString nanos).toList = Nat.toDigits 10 nanos := by
    rw [Nat.toString_eq_ofList_toDigits, String.toList_ofList]
  have hvalue : bigInt (toString nanos) = nanos := by
    rw [bigInt, htext, Nat.ofDigitChars_ten_toDigits]
  obtain ⟨d, rest, hd, hd10, hdigits⟩ := toDigits_head (by decide : 1 < 10) hpos
  have hlen : (Nat.toDigits 10 nanos).length ≤ 19 := by
    apply toDigits_length_le (by decide) (by decide)
    exact hlt.trans (by decide)
  have hrest : ∀ c ∈ rest, c ∈ decimalDigits.toList := by
    intro c hc
    have hall := toDigits_forall (P := (· ∈ decimalDigits.toList)) (by decide : 1 < 10)
      (fun _ => digitChar_mem) nanos
    apply hall
    rw [hdigits]
    exact mem_cons_of_mem _ hc
  have hmatch : test nanosPattern (toString nanos) = true := by
    rw [test_iff, htext, hdigits]
    apply mem_mul (w := [d.digitChar])
    · exact mem_oneOf.mpr ⟨_, digitChar_mem_nonzero ⟨hd, hd10⟩, rfl⟩
    · apply mem_between_oneOf (Nat.zero_le _) _ hrest
      rw [hdigits, length_cons] at hlen
      omega
  rw [nanosSchema, text_string, hmatch, hvalue]
  simpa using hlt

theorem hexByte_lower {byte : UInt8} {c : Char} (h : c ∈ hexByte byte) :
    c ∈ lowerHexDigits.toList := by
  have hbyte : byte.toNat < 256 := byte.toNat_lt
  rcases mem_cons.mp h with rfl | hlow
  · apply digitChar_mem_hex
    omega
  · rw [mem_singleton.mp hlow]
    apply digitChar_mem_hex
    omega

theorem hexBytes_lower {bytes : List UInt8} {c : Char} (h : c ∈ (hexBytes bytes).toList) :
    c ∈ lowerHexDigits.toList := by
  rw [hexBytes, String.toList_ofList] at h
  obtain ⟨byte, _, hbyte⟩ := mem_flatMap.mp h
  exact hexByte_lower hbyte

theorem uuid_lower {uuid : Uuid} {c : Char} (h : c ∈ uuid.text.toList) :
    c ∈ lowerHexDigits.toList ∨ c = '-' := by
  have hhyphen : "-".toList = ['-'] := rfl
  simp only [Uuid.text, String.toList_append, hhyphen, mem_append, mem_singleton] at h
  rcases h with (((((((h | h) | h) | h) | h) | h) | h) | h) | h
  all_goals first
    | exact Or.inr h
    | exact Or.inl (hexBytes_lower h)

theorem hexDigits_of_lower : ∀ c ∈ lowerHexDigits.toList, c ∈ hexDigits.toList := by
  have hall : (lowerHexDigits.toList.all fun c => c ∈ hexDigits.toList) = true := by decide
  intro c hc
  exact of_decide_eq_true (all_eq_true.mp hall c hc)

theorem hexBytes_mem {bytes : List UInt8} {n : Nat} (h : 2 * bytes.length = n) :
    (hexBytes bytes).toList ∈ (hexTimes n).matches' := by
  have hlen : (bytes.flatMap hexByte).length = n := by
    rw [length_flatMap]
    have hsum : (bytes.map fun byte => (hexByte byte).length).sum = bytes.length * 2 := by
      simp [hexByte]
    rw [hsum]
    omega
  rw [hexBytes, String.toList_ofList]
  apply mem_between_oneOf
  · omega
  · omega
  · intro c hc
    obtain ⟨byte, _, hbyte⟩ := mem_flatMap.mp hc
    exact hexDigits_of_lower c (hexByte_lower hbyte)

theorem uuid_accepted (uuid : Uuid) : test uuidPattern uuid.text = true := by
  have hlen := uuid.length_bytes
  rw [test_iff, Uuid.text]
  simp only [String.toList_append]
  repeat' apply mem_mul
  all_goals first
    | exact mem_literally "-"
    | apply hexBytes_mem
      simp only [length_take, length_drop]
      omega

theorem statusCode_accepted {code : Nat} (h : code < 2 ^ 32) :
    test statusCodePattern (hexCode code) = true := by
  have htext : (String.ofList (Nat.toDigits 16 code)).toList = Nat.toDigits 16 code :=
    String.toList_ofList
  rw [test_iff, hexCode, String.toList_append, htext]
  have hlt : code < 16 ^ 8 := h
  exact mem_mul (mem_literally "0x") (hex_mem (by decide) hlt (fun _ hc => hc))

theorem toDigits_two {n : Nat} (hlow : 10 ≤ n) (hhigh : n < 100) :
    Nat.toDigits 10 n = [(n / 10).digitChar, (n % 10).digitChar] := by
  rw [Nat.toDigits_of_base_le (by decide) hlow, Nat.toDigits_of_lt_base (by omega)]
  rfl

theorem toDigits_three {n : Nat} (hlow : 100 ≤ n) (hhigh : n < 1000) :
    Nat.toDigits 10 n = [(n / 100).digitChar, (n / 10 % 10).digitChar, (n % 10).digitChar] := by
  rw [Nat.toDigits_of_base_le (by decide) (by omega), toDigits_two (by omega) (by omega),
    Nat.div_div_eq_div_mul]
  rfl

theorem digit_mem {characters : String} {d : Nat} (h : d.digitChar ∈ characters.toList) :
    [d.digitChar] ∈ (oneOf characters).matches' :=
  mem_oneOf.mpr ⟨_, h, rfl⟩

theorem octet_mem {n : Nat} (h : n < 256) : Nat.toDigits 10 n ∈ octetPattern.matches' := by
  have hdigit (m : Nat) : (m % 10).digitChar ∈ decimalDigits.toList :=
    digitChar_mem (Nat.mod_lt m (by decide))
  by_cases hone : n < 10
  · rw [Nat.toDigits_of_lt_base hone]
    exact mem_anyOf.mpr ⟨oneOf decimalDigits, by simp, digit_mem (digitChar_mem hone)⟩
  by_cases htwo : n < 100
  · rw [toDigits_two (by omega) htwo]
    refine mem_anyOf.mpr ⟨oneOf "123456789" * oneOf decimalDigits, by simp, ?_⟩
    exact mem_mul (digit_mem (digitChar_mem_nonzero ⟨by omega, by omega⟩)) (digit_mem (hdigit n))
  rw [toDigits_three (by omega) (by omega)]
  by_cases hsmall : n < 200
  · have hhundreds : n / 100 = 1 := by omega
    refine mem_anyOf.mpr
      ⟨literally "1" * oneOf decimalDigits * oneOf decimalDigits, by simp, ?_⟩
    rw [hhundreds]
    exact mem_mul (mem_mul (mem_literally "1") (digit_mem (hdigit (n / 10)))) (digit_mem (hdigit n))
  have hhundreds : n / 100 = 2 := by omega
  rw [hhundreds]
  by_cases hmiddle : n < 250
  · refine mem_anyOf.mpr ⟨literally "2" * oneOf "01234" * oneOf decimalDigits, by simp, ?_⟩
    have htens : n / 10 % 10 < 5 := by omega
    have hclass : ∀ d < 5, d.digitChar ∈ "01234".toList := by decide
    exact mem_mul (mem_mul (mem_literally "2") (digit_mem (hclass _ htens))) (digit_mem (hdigit n))
  · refine mem_anyOf.mpr ⟨literally "25" * oneOf "012345", by simp, ?_⟩
    have htens : n / 10 % 10 = 5 := by omega
    have hones : n % 10 < 6 := by omega
    have hclass : ∀ d < 6, d.digitChar ∈ "012345".toList := by decide
    rw [htens]
    exact mem_mul (mem_literally "25") (digit_mem (hclass _ hones))

theorem octet_text (byte : UInt8) : (toString byte.toNat).toList ∈ octetPattern.matches' := by
  rw [Nat.toString_eq_ofList_toDigits, String.toList_ofList]
  exact octet_mem byte.toNat_lt

theorem ipv4_accepted (ip : Ipv4Addr) : test ipv4 ip.text = true := by
  have hpart (byte : UInt8) :
      (toString byte.toNat).toList ++ ".".toList ∈ (octetPattern * literally ".").matches' :=
    mem_mul (octet_text byte) (mem_literally ".")
  have hthree : [(toString ip.a.toNat).toList ++ ".".toList, (toString ip.b.toNat).toList ++ ".".toList,
      (toString ip.c.toNat).toList ++ ".".toList].flatten ∈
      (between 3 3 (octetPattern * literally ".")).matches' := by
    apply flatten_mem_between (Nat.le_refl 3) (Nat.le_refl 3)
    intro part hmem
    simp only [mem_cons, not_mem_nil, or_false] at hmem
    rcases hmem with rfl | rfl | rfl <;> exact hpart _
  rw [test_iff, Ipv4Addr.text, ipv4]
  have hall := mem_mul hthree (octet_text ip.d)
  simpa only [String.toList_append, flatten_cons, flatten_nil, append_nil,
    append_assoc] using hall

theorem groupsOf_lt (bytes : List UInt8) : ∀ group ∈ groupsOf bytes, group < 2 ^ 16 := by
  induction bytes using groupsOf.induct with
  | case1 high low rest ih =>
    intro group hgroup
    rcases mem_cons.mp hgroup with rfl | hrest
    · have hhigh : high.toNat < 256 := high.toNat_lt
      have hlow : low.toNat < 256 := low.toNat_lt
      omega
    · exact ih group hrest
  | case2 bytes hshort =>
    intro group hgroup
    simp [groupsOf] at hgroup

theorem length_groupsOf (bytes : List UInt8) : (groupsOf bytes).length = bytes.length / 2 := by
  induction bytes using groupsOf.induct with
  | case1 high low rest ih =>
    simp only [groupsOf, length_cons, ih]
    omega
  | case2 bytes hshort =>
    match bytes, hshort with
    | [], _ => rfl
    | [_], _ => simp [groupsOf]
    | high :: low :: rest, hshort => exact absurd rfl (hshort high low rest)

theorem lowerHex_mem {n : Nat} (h : n < 2 ^ 16) : (lowerHex n).toList ∈ group.matches' := by
  have hlt : n < 16 ^ 4 := h
  rw [lowerHex, String.toList_ofList]
  exact hex_mem (by decide) hlt hexDigits_of_lower

def closed (groups : List Nat) : List (List Char) :=
  groups.map fun n => (lowerHex n).toList ++ ":".toList

def opened (groups : List Nat) : List (List Char) :=
  groups.map fun n => ":".toList ++ (lowerHex n).toList

section groups
variable {groups : List Nat} (hgroups : ∀ n ∈ groups, n < 2 ^ 16) {least most : Nat}
include hgroups

theorem closed_mem (hleast : least ≤ groups.length) (hmost : groups.length ≤ most) :
    (closed groups).flatten ∈ (between least most groupThenColon).matches' := by
  apply flatten_mem_between
  · simpa [closed] using hleast
  · simpa [closed] using hmost
  · intro part hpart
    obtain ⟨n, hn, rfl⟩ := mem_map.mp hpart
    exact mem_mul (lowerHex_mem (hgroups n hn)) (mem_literally ":")

theorem opened_mem (hleast : least ≤ groups.length) (hmost : groups.length ≤ most) :
    (opened groups).flatten ∈ (between least most colonThenGroup).matches' := by
  apply flatten_mem_between
  · simpa [opened] using hleast
  · simpa [opened] using hmost
  · intro part hpart
    obtain ⟨n, hn, rfl⟩ := mem_map.mp hpart
    exact mem_mul (mem_literally ":") (lowerHex_mem (hgroups n hn))

end groups

theorem toList_fmtSubslice (first : Nat) (tail : List Nat) :
    (fmtSubslice (first :: tail)).toList = (lowerHex first).toList ++ (opened tail).flatten := by
  have htail : (tail.map fun n => ":" ++ lowerHex n).map String.toList = opened tail := by
    rw [map_map]
    apply map_congr_left
    intro n _
    rw [Function.comp_apply, String.toList_append]
  rw [fmtSubslice, String.toList_append, String.toList_join, flatMap_def, htail]

theorem colon_fmtSubslice {groups : List Nat} (hne : groups ≠ []) :
    ":".toList ++ (fmtSubslice groups).toList = (opened groups).flatten := by
  cases groups with
  | nil => exact absurd rfl hne
  | cons first tail =>
    rw [toList_fmtSubslice, ← append_assoc]
    rfl

/-- The colons between the groups belong to either side. -/
theorem fmtSubslice_colon {groups : List Nat} (hne : groups ≠ []) :
    (fmtSubslice groups).toList ++ ":".toList = (closed groups).flatten := by
  induction groups with
  | nil => exact absurd rfl hne
  | cons first tail ih =>
    cases tail with
    | nil => rw [toList_fmtSubslice]; simp [opened, closed]
    | cons second rest =>
      have hrest := ih (by simp)
      have hclosed : (closed (first :: second :: rest)).flatten =
          (lowerHex first).toList ++ ":".toList ++ (closed (second :: rest)).flatten := by
        simp [closed]
      rw [hclosed, ← hrest, toList_fmtSubslice, ← colon_fmtSubslice (by simp)]
      simp only [append_assoc]

def ZeroRun (groups : List Nat) (span : Span) : Prop :=
  ∃ before after, before ++ List.replicate span.len 0 ++ after = groups ∧ before.length = span.start

/-- The loop has found a run, and knows the one that ends where it is. -/
theorem zeroRun_longestZeroes (rest : List Nat) {before : List Nat} {current longest : Span}
    (hcurrent : ∃ head, head ++ List.replicate current.len 0 = before ∧
      (current.len ≠ 0 → head.length = current.start)) (hlongest : ZeroRun before longest) :
    ZeroRun (before ++ rest) (longestZeroes before.length current longest rest) := by
  induction rest generalizing before current longest with
  | nil =>
    rw [append_nil]
    exact hlongest
  | cons group rest ih =>
    have hlater : ∀ span, ZeroRun before span → ZeroRun (before ++ [group]) span := by
      rintro span ⟨head, tail, rfl, hstart⟩
      exact ⟨head, tail ++ [group], by simp, hstart⟩
    have hstep := @ih (before ++ [group])
    rw [append_assoc, singleton_append, length_append, length_singleton] at hstep
    unfold longestZeroes
    split
    · rename_i hzero
      subst hzero
      obtain ⟨head, rfl, hstart⟩ := hcurrent
      have hextend : head.length =
          (current.extend (head ++ List.replicate current.len 0).length).start := by
        unfold Span.extend
        dsimp only
        split
        · rename_i hnone
          simp [hnone]
        · rename_i hsome
          exact hstart hsome
      have hrun : head ++ List.replicate (current.len + 1) 0 =
          head ++ List.replicate current.len 0 ++ [0] := by
        rw [replicate_succ', append_assoc]
      refine hstep ⟨head, hrun, fun _ => hextend⟩ ?_
      split
      · exact ⟨head, [], by rw [append_nil]; exact hrun, hextend⟩
      · exact hlater longest hlongest
    · exact hstep ⟨_, append_nil _, fun h => absurd rfl h⟩ (hlater longest hlongest)

/-- Groups on both sides of the colons, few enough for one of the alternatives. -/
theorem twoSided_mem {before after : List Nat} (hbefore : ∀ n ∈ before, n < 2 ^ 16)
    (hafter : ∀ n ∈ after, n < 2 ^ 16) (hb : 1 ≤ before.length) (ha : 1 ≤ after.length)
    (hlen : before.length + after.length ≤ 6) :
    (closed before).flatten ++ (opened after).flatten ∈ ipv6.matches' := by
  have hmem (most least : Nat) (h₁ : before.length ≤ most) (h₂ : after.length ≤ least) :
      (closed before).flatten ++ (opened after).flatten ∈
        (between 1 most groupThenColon * between 1 least colonThenGroup).matches' :=
    mem_mul (closed_mem hbefore hb h₁) (opened_mem hafter ha h₂)
  have hsplit : after.length ≤ 2 ∨ after.length = 3 ∨ after.length = 4 ∨ after.length = 5 := by
    omega
  apply mem_anyOf.mpr
  rcases hsplit with htwo | hthree | hfour | hfive
  · exact ⟨_, by simp, hmem 5 2 (by omega) (by omega)⟩
  · exact ⟨_, by simp, hmem 4 3 (by omega) (by omega)⟩
  · exact ⟨_, by simp, hmem 3 4 (by omega) (by omega)⟩
  · exact ⟨_, by simp, hmem 2 5 (by omega) (by omega)⟩

/-- An address with a run of zero groups left out. -/
theorem shortened_mem {before after : List Nat} (hbefore : ∀ n ∈ before, n < 2 ^ 16)
    (hafter : ∀ n ∈ after, n < 2 ^ 16) (hlen : before.length + after.length ≤ 6) :
    (fmtSubslice before).toList ++ "::".toList ++ (fmtSubslice after).toList ∈ ipv6.matches' := by
  have hcolons : "::".toList = ":".toList ++ ":".toList := rfl
  by_cases hb : before = []
  · subst hb
    refine mem_anyOf.mpr
      ⟨literally ":" * anyOf [between 1 7 colonThenGroup, literally ":"], by simp, ?_⟩
    rw [show (fmtSubslice []).toList = [] from rfl, nil_append, hcolons, append_assoc]
    apply mem_mul (mem_literally ":")
    apply mem_anyOf.mpr
    by_cases ha : after = []
    · subst ha
      exact ⟨literally ":", by simp, mem_literally ":"⟩
    · rw [colon_fmtSubslice ha]
      refine ⟨_, mem_cons_self, opened_mem hafter (length_pos_iff.mpr ha) ?_⟩
      rw [length_nil] at hlen
      omega
  · have hb' : 1 ≤ before.length := length_pos_iff.mpr hb
    rw [hcolons, ← append_assoc, fmtSubslice_colon hb, append_assoc]
    by_cases ha : after = []
    · subst ha
      rw [length_nil] at hlen
      refine mem_anyOf.mpr ⟨between 1 7 groupThenColon * literally ":", by simp, ?_⟩
      exact mem_mul (closed_mem hbefore hb' (by omega)) (mem_literally ":")
    · rw [colon_fmtSubslice ha]
      exact twoSided_mem hbefore hafter hb' (length_pos_iff.mpr ha) hlen

/-- An address with all its groups. -/
theorem unshortened_mem {groups : List Nat} (hgroups : ∀ n ∈ groups, n < 2 ^ 16)
    (hlen : groups.length = 8) : (fmtSubslice groups).toList ∈ ipv6.matches' := by
  have hne : groups ≠ [] := by
    intro hnil
    rw [hnil] at hlen
    exact absurd hlen (by decide)
  have hsplit := dropLast_append_getLast hne
  have hinit : ∀ n ∈ groups.dropLast, n < 2 ^ 16 :=
    fun n hn => hgroups n (dropLast_subset groups hn)
  have hlast := hgroups _ (getLast_mem hne)
  have htext : (fmtSubslice groups).toList =
      (closed groups.dropLast).flatten ++ (lowerHex (groups.getLast hne)).toList := by
    have hcolon := fmtSubslice_colon hne
    apply append_cancel_right
    refine hcolon.trans ?_
    conv_lhs => rw [← hsplit]
    simp [closed]
  rw [htext]
  refine mem_anyOf.mpr ⟨between 7 7 groupThenColon * group, by simp, ?_⟩
  have hseven : groups.dropLast.length = 7 := by
    rw [length_dropLast, hlen]
  exact mem_mul (closed_mem hinit hseven.ge hseven.le) (lowerHex_mem hlast)

section Ipv6
variable (ip : Ipv6Addr)

theorem length_segments : ip.segments.length = 8 := by
  rw [Ipv6Addr.segments, length_groupsOf, ip.length_octets]

theorem segments_lt : ∀ n ∈ ip.segments, n < 2 ^ 16 := groupsOf_lt ip.octets

variable (hmapped : ip.toIpv4Mapped = none)
include hmapped

theorem text_of_not_mapped :
    ip.text.toList = (fmtSubslice ip.segments).toList ∨
      ∃ before after n, 1 < n ∧ before ++ List.replicate n 0 ++ after = ip.segments ∧
        ip.text.toList = (fmtSubslice before).toList ++ "::".toList ++ (fmtSubslice after).toList := by
  have hrun : ZeroRun ip.segments (longestZeroes 0 ⟨0, 0⟩ ⟨0, 0⟩ ip.segments) :=
    @zeroRun_longestZeroes ip.segments [] ⟨0, 0⟩ ⟨0, 0⟩ ⟨[], rfl, fun h => absurd rfl h⟩
      ⟨[], [], rfl, rfl⟩
  rw [Ipv6Addr.text, hmapped]
  dsimp only
  generalize longestZeroes 0 ⟨0, 0⟩ ⟨0, 0⟩ ip.segments = zeroes at hrun ⊢
  obtain ⟨before, after, hrun, hstart⟩ := hrun
  split
  · rename_i hlong
    refine Or.inr ⟨before, after, _, hlong, hrun, ?_⟩
    have htake : ip.segments.take zeroes.start = before := by
      rw [← hrun, ← hstart, append_assoc, take_left]
    have hdrop : ip.segments.drop (zeroes.start + zeroes.len) = after := by
      rw [← hrun]
      exact drop_left' (by simp [hstart])
    rw [String.toList_append, String.toList_append, htake, hdrop]
  · exact Or.inl rfl

theorem ipv6_accepted : test ipv6 ip.text = true := by
  rw [test_iff]
  rcases text_of_not_mapped ip hmapped with htext | ⟨before, after, n, hn, hrun, htext⟩
  · rw [htext]
    exact unshortened_mem (segments_lt ip) (length_segments ip)
  · have hlen := length_segments ip
    have hlt := segments_lt ip
    rw [← hrun] at hlen hlt
    simp only [length_append, length_replicate] at hlen
    rw [htext]
    exact shortened_mem (fun n hn => hlt n (by simp [hn])) (fun n hn => hlt n (by simp [hn])) (by omega)

end Ipv6

theorem ip_accepted (ip : IpAddr) : ipTextSchema (some (.string ip.unmapped.text)) = true := by
  rw [ipTextSchema, text_string, Bool.or_eq_true]
  cases ip with
  | v4 ip => exact .inl (ipv4_accepted ip)
  | v6 ip =>
    cases hmapped : ip.toIpv4Mapped with
    | some mapped =>
      simp only [IpAddr.unmapped, hmapped]
      exact .inl (ipv4_accepted mapped)
    | none =>
      simp only [IpAddr.unmapped, hmapped]
      exact .inr (ipv6_accepted ip hmapped)

theorem toList_fmtSubslice_eq (groups : List Nat) :
    (fmtSubslice groups).toList = writePieces groups := by
  have hcons (tail : List Nat) : ∀ first,
      writePieces (first :: tail) = writePiece first ++ (opened tail).flatten := by
    induction tail with
    | nil => simp [writePieces, opened, List.intercalate]
    | cons second rest ih =>
      intro first
      have hrest := ih second
      rw [writePieces] at hrest ⊢
      rw [map_cons, map_cons, intercalate_cons_cons, ← map_cons, hrest]
      simp [opened, lowerHex, writePiece]
  cases groups with
  | nil => rfl
  | cons first tail =>
    rw [toList_fmtSubslice, hcons, lowerHex, String.toList_ofList, writePiece]

theorem spelling_text (ip : Ipv6Addr) (hmapped : ip.toIpv4Mapped = none) :
    Spelling ip.segments ip.text.toList := by
  rcases text_of_not_mapped ip hmapped with htext | ⟨before, after, n, hn, hrun, htext⟩
  · rw [htext, toList_fmtSubslice_eq]
    exact .whole
  · rw [htext, toList_fmtSubslice_eq, toList_fmtSubslice_eq, append_assoc]
    exact .shortened before after (by omega) hrun

def octetsOf (piece : Nat) : List UInt8 := [UInt8.ofNat (piece / 256), UInt8.ofNat (piece % 256)]

/-- An address in text, as the standard library reads it. -/
def parseIpAddr (text : String) : Option IpAddr :=
  match readQuad text.toList with
  | some [a, b, c, d] =>
    some (.v4 ⟨UInt8.ofNat a, UInt8.ofNat b, UInt8.ofNat c, UInt8.ofNat d⟩)
  | _ =>
    (readIpv6 text.toList).bind fun pieces =>
      if h : (pieces.flatMap octetsOf).length = 16 then some (.v6 ⟨pieces.flatMap octetsOf, h⟩)
      else none

theorem flatMap_octetsOf (bytes : List UInt8) (h : bytes.length % 2 = 0) :
    (groupsOf bytes).flatMap octetsOf = bytes := by
  induction bytes using groupsOf.induct with
  | case1 high low rest ih =>
    have hlow := low.toNat_lt
    have hhigh : (high.toNat * 256 + low.toNat) / 256 = high.toNat := by omega
    have hmod : (high.toNat * 256 + low.toNat) % 256 = low.toNat := by omega
    rw [length_cons, length_cons] at h
    rw [groupsOf, flatMap_cons, ih (by omega), octetsOf, hhigh, hmod, UInt8.ofNat_toNat,
      UInt8.ofNat_toNat]
    rfl
  | case2 bytes hshort =>
    match bytes, h with
    | [], _ => rfl
    | high :: low :: rest, _ => exact (hshort high low rest rfl).elim

theorem parseIpAddr_ipv4 (ip : Ipv4Addr) : parseIpAddr ip.text = some (.v4 ip) := by
  have htext : ip.text.toList = writeQuad [ip.a.toNat, ip.b.toNat, ip.c.toNat, ip.d.toNat] := by
    simp [Ipv4Addr.text, writeQuad, List.intercalate]
  have hlt (byte : UInt8) : byte.toNat < 256 := byte.toNat_lt
  have hread := readQuad_eq_some.mpr ⟨rfl, by simp [hlt], htext⟩
  rw [parseIpAddr, hread]
  simp

theorem parseIpAddr_ipv6 (ip : Ipv6Addr) (hmapped : ip.toIpv4Mapped = none) :
    parseIpAddr ip.text = some (.v6 ip) := by
  have hspelling := spelling_text ip hmapped
  have hoctets : ip.segments.flatMap octetsOf = ip.octets := by
    apply flatMap_octetsOf
    rw [ip.length_octets]
  rw [parseIpAddr, hspelling.readQuad (length_segments ip),
    hspelling.readIpv6 (length_segments ip) (segments_lt ip), Option.bind_some]
  simp [hoctets, ip.length_octets]

/-- The server accepts the text of an address, and it is the text of no other. -/
def ReadBack (ip : IpAddr) : Prop :=
  ipTextSchema (some (.string ip.text)) = true ∧ parseIpAddr ip.text = some ip

theorem readBack_unmapped (ip : IpAddr) : ReadBack ip.unmapped := by
  refine ⟨ip_accepted ip, ?_⟩
  cases ip with
  | v4 ip => exact parseIpAddr_ipv4 ip
  | v6 ip =>
    cases hmapped : ip.toIpv4Mapped with
    | some mapped =>
      simp only [IpAddr.unmapped, hmapped]
      exact parseIpAddr_ipv4 mapped
    | none =>
      simp only [IpAddr.unmapped, hmapped]
      exact parseIpAddr_ipv6 ip hmapped

theorem readBack_address {bytes : List UInt8} {ip : IpAddr} (h : address bytes = some ip) :
    ReadBack ip := by
  unfold address at h
  split at h
  · cases h
    exact readBack_unmapped (.v4 _)
  · split at h
    · cases h
      exact readBack_unmapped (.v6 _)
    · cases h

theorem address_isSome {bytes : List UInt8} (h : bytes.length = 4 ∨ bytes.length = 16) :
    (address bytes).isSome = true := by
  unfold address
  split
  · rfl
  · rename_i hfour
    rcases h with h | h
    · match bytes, h with
      | [a, b, c, d], _ => exact (hfour a b c d rfl).elim
    · rw [dif_pos h]
      rfl

/-- The addresses of network and logon records, in the texts that are sent, are accepted and read
as they were decoded, and every status code is of the server's form. -/
theorem addresses_read_back :
    (∀ bytes : List UInt8, bytes.length = 4 ∨ bytes.length = 16 →
      ∃ ip, address bytes = some ip ∧ ReadBack ip) ∧
    (∀ (raw : RawNetworkRecord) (connection : DecodedConnection) (eventId : Uuid) (nanos : Nat)
        (created : Option Nat) (agentId : String), decodeConnection raw = some connection →
      let rendered := renderNetworkActivity (networkEvent connection eventId nanos created) agentId
      ∀ endpoint ∈ [rendered.srcEndpoint, rendered.dstEndpoint], ∃ bytes ∈ [raw.saddr, raw.daddr],
        ∃ ip, address bytes = some ip ∧ endpoint.ip = ip.text ∧ ReadBack ip) ∧
    (∀ (raw : RawLogonRecord) (text : String) (ip : IpAddr) (eventId : Uuid) (status : LogonStatus)
        (sid : String) (nanos : Nat), raw.ipAddress = some text →
      parseIpAddr (String.ofList (text.toList.takeWhile (· ≠ '%'))) = some ip →
      ∃ endpoint, (renderAuthentication
          (logonEvent parseIpAddr eventId raw status sid nanos)).srcEndpoint = some endpoint ∧
        endpoint.ip = ip.unmapped.text ∧ ReadBack ip.unmapped) ∧
    ∀ code : UInt32, test statusCodePattern (hexCode code.toNat) = true := by
  refine ⟨?_, ?_, ?_, fun code => statusCode_accepted code.toNat_lt⟩
  · intro bytes hlength
    obtain ⟨ip, hip⟩ := Option.isSome_iff_exists.mp (address_isSome hlength)
    exact ⟨ip, hip, readBack_address hip⟩
  · intro raw connection eventId nanos created agentId h
    simp only [decodeConnection, Option.bind_eq_bind, Option.bind_eq_some_iff] at h
    obtain ⟨direction, -, pid, -, near, hnear, port, -, far, hfar, port', -, h⟩ := h
    have hends : ∀ endpoint ∈ [near.text, far.text], ∃ bytes ∈ [raw.saddr, raw.daddr],
        ∃ ip, address bytes = some ip ∧ endpoint = ip.text ∧ ReadBack ip := by
      simp [hnear, hfar, readBack_address hnear, readBack_address hfar]
    cases direction <;> cases h <;> simpa [renderNetworkActivity, networkEvent, and_comm] using hends
  · intro raw text ip eventId status sid nanos htext hip
    have hsource : source parseIpAddr raw.ipAddress raw.workstation =
        some ⟨ip.unmapped.text, raw.workstation.filter fun w => !w.isEmpty && w ≠ noValue⟩ := by
      simp only [source, htext, Option.bind_eq_bind, Option.bind_some, hip]
    exact ⟨_, congrArg (Option.map _) hsource, rfl, readBack_unmapped ip⟩

end CyberGuard.Accepted
