import CyberGuard.Auth.Store
import CyberGuard.Shared.AddressTexts

/-!
# The source address behind a proxy

The address the per-address counter counts. From a listed peer the entries of
`X-Forwarded-For` are read from the right, past the listed ones. Whoever sends the request
writes the left end of the header, and only there.
-/

namespace CyberGuard.Auth.SourceAddress
set_option autoImplicit false
open AddressTexts List

/-- `isIP` of a text without a zone: the family, or 0. -/
def isIP (value : String) : Nat :=
  if (readQuad value.toList).isSome then 4
  else if (readIpv6 value.toList).isSome then 6
  else 0

/-- One to four digits of `[0-9a-f]`. -/
def isGroup (text : List Char) : Bool :=
  1 ≤ text.length && text.length ≤ 4 && text.all fun c => "0123456789abcdef".toList.contains c

/-- The groups of `^::ffff:([0-9a-f]{1,4}):([0-9a-f]{1,4})$`. -/
def execMapped (host : List Char) : Option (List Char × List Char) :=
  if "::ffff:".toList.isPrefixOf host then
    match (host.drop 7).splitOn ':' with
    | [high, low] => if isGroup high && isGroup low then some (high, low) else none
    | _ => none
  else none

section
variable (hostname : String → String)

/-- `hostname` is the host of a URL, an IPv6 address in brackets. -/
def canonicalIp (value : String) : Option String :=
  if value.toList.contains '%' then none
  else if isIP value = 4 then some value
  else if isIP value ≠ 6 then none
  else
    let host := ((hostname ("http://[" ++ value ++ "]")).toList.drop 1).dropLast
    match execMapped host with
    | none => some (String.ofList host)
    | some (high, low) =>
      let high := hexValue high
      let low := hexValue low
      some (toString (high >>> 8) ++ "." ++ toString (high &&& 255) ++ "." ++
        toString (low >>> 8) ++ "." ++ toString (low &&& 255))

inductive Family where
  | ipv4
  | ipv6
  deriving DecidableEq, Repr

def familyOf (address : String) : Family := if isIP address = 4 then .ipv4 else .ipv6

/-- What `check` of the list answers. -/
abbrev TrustedProxies := String → Family → Bool

def listed (trusted : TrustedProxies) (address : String) : Bool :=
  trusted address (familyOf address)

inductive ForwardedFor where
  | one (value : String)
  | several (values : List String)

def ForwardedFor.header : ForwardedFor → String
  | .one value => value
  | .several values => String.ofList ([','].intercalate (values.map String.toList))

def entriesOf (header : String) : List (Option String) :=
  (header.toList.splitOn ',').map fun entry => canonicalIp hostname (String.ofList (trim entry))

/-- The loop over the entries from the right; `none` when every one was passed. -/
def fromRight (trusted : TrustedProxies) (peerAddress : String) :
    List (Option String) → Option String
  | [] => none
  | none :: _ => some peerAddress
  | some entry :: rest =>
    if !listed trusted entry then some entry else fromRight trusted peerAddress rest

def sourceAddress (peer : Option String) (forwardedFor : Option ForwardedFor)
    (trusted : Option TrustedProxies) : Option String :=
  match trusted, peer with
  | some trusted, some peer =>
    match canonicalIp hostname peer with
    | none => some peer
    | some peerAddress =>
      match forwardedFor with
      | none => some peerAddress
      | some forwardedFor =>
        if !listed trusted peerAddress then some peerAddress
        else
          let entries := entriesOf hostname forwardedFor.header
          match fromRight trusted peerAddress entries.reverse with
          | some address => some address
          | none => some ((entries.head?.getD none).getD peerAddress)
  | _, _ => peer

end

section scan
variable {hostname : String → String} {trusted : TrustedProxies} {peerAddress : String}

def ListedEntry (trusted : TrustedProxies) (entry : Option String) : Prop :=
  ∃ address, entry = some address ∧ listed trusted address = true

theorem fromRight_stops {left right : List (Option String)} {entry : Option String}
    (hright : ∀ other ∈ right, ListedEntry trusted other) (hentry : ¬ ListedEntry trusted entry) :
    fromRight trusted peerAddress (right ++ entry :: left) = some (entry.getD peerAddress) := by
  induction right with
  | nil =>
    cases entry with
    | none => rfl
    | some address =>
      have hunlisted : listed trusted address = false :=
        Bool.eq_false_iff.mpr fun hlisted => hentry ⟨address, rfl, hlisted⟩
      simp [fromRight, hunlisted]
  | cons other right ih =>
    rw [forall_mem_cons] at hright
    obtain ⟨address, rfl, hlisted⟩ := hright.1
    simp only [cons_append, fromRight, hlisted, Bool.not_true, Bool.false_eq_true, if_false]
    exact ih hright.2

theorem exists_rightmost {entries : List (Option String)}
    (h : ∃ entry ∈ entries, ¬ ListedEntry trusted entry) :
    ∃ left entry right, entries = left ++ entry :: right ∧ ¬ ListedEntry trusted entry ∧
      ∀ other ∈ right, ListedEntry trusted other := by
  induction entries with
  | nil => simp at h
  | cons first rest ih =>
    by_cases hrest : ∃ entry ∈ rest, ¬ ListedEntry trusted entry
    · obtain ⟨left, entry, right, rfl, hentry, hright⟩ := ih hrest
      exact ⟨first :: left, entry, right, rfl, hentry, hright⟩
    · have hall : ∀ other ∈ rest, ListedEntry trusted other := by
        intro other hother
        by_contra hnot
        exact hrest ⟨other, hother, hnot⟩
      obtain ⟨entry, hentry, hnot⟩ := h
      rcases mem_cons.mp hentry with rfl | hentry
      · exact ⟨[], entry, rest, rfl, hnot, hall⟩
      · exact absurd (hall entry hentry) hnot

theorem splitOn_comma (left right : List Char) :
    (left ++ ',' :: right).splitOn ',' = left.splitOn ',' ++ right.splitOn ',' :=
  splitOnP_append_cons left right (by rfl)

theorem entriesOf_comma (text header : String) :
    entriesOf hostname (text ++ "," ++ header) =
      entriesOf hostname text ++ entriesOf hostname header := by
  have hchars : (text ++ "," ++ header).toList = text.toList ++ ',' :: header.toList := by simp
  simp only [entriesOf, hchars, splitOn_comma, map_append]

theorem sourceAddress_stops {peer : String} {forwardedFor : ForwardedFor}
    {left right : List (Option String)} {entry : Option String}
    (hpeer : canonicalIp hostname peer = some peerAddress)
    (hlisted : listed trusted peerAddress = true)
    (hsplit : entriesOf hostname forwardedFor.header = left ++ entry :: right)
    (hright : ∀ other ∈ right, ListedEntry trusted other) (hentry : ¬ ListedEntry trusted entry) :
    sourceAddress hostname (some peer) (some forwardedFor) (some trusted) =
      some (entry.getD peerAddress) := by
  have hstops : fromRight trusted peerAddress (left ++ entry :: right).reverse =
      some (entry.getD peerAddress) := by
    rw [reverse_append, reverse_cons, append_assoc]
    exact fromRight_stops (fun other hother => hright other (mem_reverse.mp hother)) hentry
  simp only [sourceAddress, hpeer, hlisted, hsplit, hstops, Bool.not_true, Bool.false_eq_true,
    if_false]

end scan

/-- The client does not choose its source address through a proxy. With no list, or from a peer
that is no address or not listed, the header does not matter. From a listed peer the rightmost
entry that is not a listed address decides: it is taken if it is an address and leaves the peer's
address otherwise, whatever is put before the header. -/
theorem source_address_not_chosen (hostname : String → String) (trusted : Option TrustedProxies)
    (peer : Option String) :
    ((trusted = none ∨ peer = none ∨ ∀ t p a, trusted = some t → peer = some p →
        canonicalIp hostname p = some a → listed t a = false) →
      ∀ h h', sourceAddress hostname peer h trusted = sourceAddress hostname peer h' trusted) ∧
    (∀ t p a h, trusted = some t → peer = some p → canonicalIp hostname p = some a →
      listed t a = true →
      ((∃ entry ∈ entriesOf hostname h.header, ¬ ListedEntry t entry) →
        ∀ text, sourceAddress hostname peer (some (.one (text ++ "," ++ h.header))) trusted =
          sourceAddress hostname peer (some h) trusted) ∧
      ∀ left entry right, entriesOf hostname h.header = left ++ entry :: right →
        (∀ other ∈ right, ListedEntry t other) →
        (∀ address, entry = some address → listed t address = false →
          sourceAddress hostname peer (some h) trusted = some address) ∧
        (entry = none → sourceAddress hostname peer (some h) trusted = some a)) ∧
    ∀ values, sourceAddress hostname peer (some (.several values)) trusted =
      sourceAddress hostname peer (some (.one (ForwardedFor.several values).header)) trusted := by
  refine ⟨?_, ?_, fun values => rfl⟩
  · intro hunlisted h h'
    match trusted, peer with
    | none, _ => rfl
    | some t, none => rfl
    | some t, some p =>
      cases hpeer : canonicalIp hostname p with
      | none => simp only [sourceAddress, hpeer]
      | some a =>
        have hno : listed t a = false := by
          rcases hunlisted with hnone | hnone | hno
          · cases hnone
          · cases hnone
          · exact hno t p a rfl rfl hpeer
        have hsame (h : Option ForwardedFor) :
            sourceAddress hostname (some p) h (some t) = some a := by
          cases h with
          | none => simp only [sourceAddress, hpeer]
          | some h => simp [sourceAddress, hpeer, hno]
        rw [hsame, hsame]
  · rintro t p a h rfl rfl hpeer hlisted
    refine ⟨?_, ?_⟩
    · intro hsome text
      obtain ⟨left, entry, right, hsplit, hentry, hright⟩ := exists_rightmost hsome
      have hprepended : entriesOf hostname (ForwardedFor.one (text ++ "," ++ h.header)).header =
          (entriesOf hostname text ++ left) ++ entry :: right := by
        rw [append_assoc, ← hsplit]
        exact entriesOf_comma text h.header
      rw [sourceAddress_stops hpeer hlisted hprepended hright hentry,
        sourceAddress_stops hpeer hlisted hsplit hright hentry]
    · intro left entry right hsplit hright
      refine ⟨?_, ?_⟩
      · rintro address rfl hunlisted
        refine sourceAddress_stops hpeer hlisted hsplit hright ?_
        rintro ⟨other, hother, hyes⟩
        cases hother
        rw [hunlisted] at hyes
        cases hyes
      · rintro rfl
        refine sourceAddress_stops hpeer hlisted hsplit hright ?_
        rintro ⟨other, hother, _⟩
        cases hother

inductive Address where
  | ipv4 (octets : List Nat)
  | ipv6 (pieces : List Nat)
  deriving DecidableEq, Repr

namespace Address

def unmapped : Address → Address
  | .ipv6 [0, 0, 0, 0, 0, 65535, high, low] =>
    .ipv4 [high / 256, high % 256, low / 256, low % 256]
  | address => address

def text : Address → List Char
  | .ipv4 octets => writeQuad octets
  | .ipv6 pieces => writeIpv6 pieces

def Valid : Address → Prop
  | .ipv4 octets => octets.length = 4 ∧ ∀ n ∈ octets, n < 256
  | .ipv6 pieces => pieces.length = 8 ∧ ∀ n ∈ pieces, n < 65536

end Address

def denoted (value : String) : Option Address :=
  if value.toList.contains '%' then none
  else
    match readQuad value.toList with
    | some octets => some (.ipv4 octets)
    | none => (readIpv6 value.toList).map .ipv6

/-- The URL parser writes an IPv6 host in lower case, without leading zeros and with the first
longest run of at least two zero pieces left out. -/
def WritesHost (hostname : String → String) : Prop :=
  ∀ value pieces, readIpv6 value.toList = some pieces →
    hostname ("http://[" ++ value ++ "]") = "[" ++ String.ofList (writeIpv6 pieces) ++ "]"

section spelling
variable {hostname : String → String}

theorem isGroup_writePiece {n : Nat} (h : n < 65536) : isGroup (writePiece n) = true := by
  have hlength : (writePiece n).length ≤ 4 :=
    TextPatterns.toDigits_length_le (by decide) (by decide) h
  have hpos : 1 ≤ (writePiece n).length := Nat.length_toDigits_pos
  have hdigits : ∀ c ∈ writePiece n, "0123456789abcdef".toList.contains c = true := by
    refine TextPatterns.toDigits_forall (by decide) ?_ n
    intro d hd
    exact contains_iff_mem.mpr (TextPatterns.digitChar_mem_hex hd)
  simp only [isGroup, Bool.and_eq_true, decide_eq_true_eq, all_eq_true]
  exact ⟨⟨hpos, hlength⟩, hdigits⟩

theorem readPiece_of_isGroup {text : List Char} (h : isGroup text = true) :
    readPiece text = some (hexValue text) := by
  simp only [isGroup, Bool.and_eq_true, decide_eq_true_eq, all_eq_true] at h
  obtain ⟨⟨hpos, hlength⟩, hdigits⟩ := h
  have hhex : ("0123456789abcdef".toList.all fun c => (hexDigit c).isSome) = true := by decide
  have hall : (text.all fun c => (hexDigit c).isSome) = true := by
    refine all_eq_true.mpr fun c hc => ?_
    exact all_eq_true.mp hhex c (contains_iff_mem.mp (hdigits c hc))
  rw [readPiece, if_pos ⟨hpos, hlength, hall⟩]

/-- What the pattern matches, and its groups. -/
theorem execMapped_eq_some {host high low : List Char} : execMapped host = some (high, low) ↔
    host = "::ffff:".toList ++ high ++ ':' :: low ∧ isGroup high = true ∧ isGroup low = true := by
  constructor
  · intro h
    unfold execMapped at h
    split at h
    · rename_i hstart
      obtain ⟨rest, rfl⟩ := isPrefixOf_iff_prefix.mp hstart
      split at h
      · rename_i high' low' hsplit
        split at h
        · rename_i hgroups
          cases h
          have hjoined : [':'].intercalate (rest.splitOn ':') = rest :=
            intercalate_splitOn ':'
          have hrest : rest.splitOn ':' = [high, low] := hsplit
          rw [hrest] at hjoined
          rw [Bool.and_eq_true] at hgroups
          refine ⟨?_, hgroups.1, hgroups.2⟩
          rw [← hjoined]
          simp [List.intercalate]
        · cases h
      · cases h
    · cases h
  · rintro ⟨rfl, hhigh, hlow⟩
    have hsplit : (high ++ ':' :: low).splitOn ':' = [high, low] := by
      have hjoined : high ++ ':' :: low = [':'].intercalate [high, low] := by
        simp [List.intercalate]
      rw [hjoined]
      apply splitOn_intercalate
      · simp [(readPiece_eq_some (readPiece_of_isGroup hhigh)).2.2,
          (readPiece_eq_some (readPiece_of_isGroup hlow)).2.2]
      · simp
    have hdrop : ("::ffff:".toList ++ high ++ ':' :: low).drop 7 = high ++ ':' :: low := by
      rw [append_assoc]
      exact drop_left' rfl
    have hstart : "::ffff:".toList.isPrefixOf ("::ffff:".toList ++ high ++ ':' :: low) = true := by
      rw [append_assoc]
      exact isPrefixOf_iff_prefix.mpr (prefix_append _ _)
    simp only [execMapped, hstart, hdrop, hsplit, hhigh, hlow, Bool.and_self, if_true]

/-- The pattern takes the hosts of the mapped addresses, whatever their last two pieces. -/
theorem execMapped_writeIpv6 {pieces : List Nat} (hlength : pieces.length = 8)
    (hlt : ∀ n ∈ pieces, n < 65536) :
    (∃ high low, pieces = [0, 0, 0, 0, 0, 65535, high, low] ∧
      ∃ x y, execMapped (writeIpv6 pieces) = some (x, y) ∧ hexValue x = high ∧ hexValue y = low) ∨
    (execMapped (writeIpv6 pieces) = none ∧ (Address.ipv6 pieces).unmapped = .ipv6 pieces) := by
  by_cases hmapped : ∃ high low, pieces = [0, 0, 0, 0, 0, 65535, high, low]
  · obtain ⟨high, low, rfl⟩ := hmapped
    refine Or.inl ⟨high, low, rfl, writePiece high, writePiece low, ?_, hexValue_writePiece high,
      hexValue_writePiece low⟩
    rw [execMapped_eq_some]
    exact ⟨writeIpv6_mapped high low, isGroup_writePiece (hlt high (by simp)),
      isGroup_writePiece (hlt low (by simp))⟩
  · refine Or.inr ⟨?_, ?_⟩
    · cases hexec : execMapped (writeIpv6 pieces) with
      | none => rfl
      | some groups =>
        obtain ⟨x, y⟩ := groups
        obtain ⟨htext, hx, hy⟩ := execMapped_eq_some.mp hexec
        have hread := readIpv6_writeIpv6 hlength hlt
        rw [htext, readIpv6_mapped (readPiece_of_isGroup hx) (readPiece_of_isGroup hy)] at hread
        exact absurd ⟨_, _, (Option.some.inj hread).symm⟩ hmapped
    · unfold Address.unmapped
      split
      · rename_i high low heq
        cases heq
        exact absurd ⟨high, low, rfl⟩ hmapped
      · rfl

variable {value : String} {address : Address}

theorem denoted_valid (h : denoted value = some address) :
    address.Valid := by
  unfold denoted at h
  split at h
  · cases h
  · split at h
    · rename_i octets hread
      cases h
      obtain ⟨hlength, hlt, _⟩ := readQuad_eq_some.mp hread
      exact ⟨hlength, hlt⟩
    · obtain ⟨pieces, hread, rfl⟩ := Option.map_eq_some_iff.mp h
      exact (readIpv6_spec hread).1

theorem Address.Valid.unmapped (h : address.Valid) :
    address.unmapped.Valid := by
  unfold Address.unmapped
  split
  · rename_i high low
    have hhigh := h.2 high (by simp)
    have hlow := h.2 low (by simp)
    refine ⟨rfl, ?_⟩
    intro n hn
    simp only [mem_cons, not_mem_nil, or_false] at hn
    omega
  · exact h

theorem Address.unmapped_unmapped (address : Address) :
    address.unmapped.unmapped = address.unmapped := by
  by_cases h : ∃ high low, address = .ipv6 [0, 0, 0, 0, 0, 65535, high, low]
  · obtain ⟨high, low, rfl⟩ := h
    rfl
  · have hsame : address.unmapped = address := by
      unfold Address.unmapped
      split
      · rename_i high low
        exact absurd ⟨high, low, rfl⟩ h
      · rfl
    rw [hsame, hsame]

theorem writeQuad_text (high low : Nat) :
    toString (high >>> 8) ++ "." ++ toString (high &&& 255) ++ "." ++ toString (low >>> 8) ++ "." ++
      toString (low &&& 255) =
    String.ofList (writeQuad [high / 256, high % 256, low / 256, low % 256]) := by
  have hshift (n : Nat) : n >>> 8 = n / 256 := Nat.shiftRight_eq_div_pow n 8
  have hmask (n : Nat) : n &&& 255 = n % 256 := Nat.and_two_pow_sub_one_eq_mod n 8
  apply String.toList_inj.mp
  simp [hshift, hmask, writeQuad, List.intercalate]

theorem canonicalIp_eq (hhost : WritesHost hostname) (value : String) :
    canonicalIp hostname value =
      (denoted value).map fun address => String.ofList address.unmapped.text := by
  unfold canonicalIp denoted
  by_cases hzone : value.toList.contains '%' = true
  · rw [if_pos hzone, if_pos hzone]
    rfl
  · rw [if_neg hzone, if_neg hzone]
    cases hquad : readQuad value.toList with
    | some octets =>
      have hfour : isIP value = 4 := by simp [isIP, hquad]
      have htext : value = String.ofList (writeQuad octets) := by
        rw [← (readQuad_eq_some.mp hquad).2.2, String.ofList_toList]
      rw [if_pos hfour]
      exact congrArg some htext
    | none =>
      cases hread : readIpv6 value.toList with
      | none =>
        have hzero : isIP value = 0 := by simp [isIP, hquad, hread]
        simp [hzero]
      | some pieces =>
        obtain ⟨hlength, hlt⟩ := (readIpv6_spec hread).1
        have hsix : isIP value = 6 := by simp [isIP, hquad, hread]
        have hslice : ((hostname ("http://[" ++ value ++ "]")).toList.drop 1).dropLast =
            writeIpv6 pieces := by
          rw [hhost value pieces hread]
          simp
        simp only [hsix, hslice, Option.map_some]
        rcases execMapped_writeIpv6 hlength hlt with
          ⟨high, low, rfl, x, y, hexec, hx, hy⟩ | ⟨hexec, hsame⟩
        · simp only [hexec, hx, hy]
          exact congrArg some (writeQuad_text high low)
        · simp only [hexec, hsame]
          rfl

theorem percent_not_mem_text (address : Address) : '%' ∉ address.text := by
  intro hmem
  cases address with
  | ipv4 octets =>
    rcases mem_writeQuad hmem with hdot | hdigit
    · exact absurd hdot (by decide)
    · exact absurd hdigit (by decide)
  | ipv6 pieces =>
    rcases mem_writeIpv6 hmem with hcolon | hdigit
    · exact absurd hcolon (by decide)
    · exact absurd hdigit (by decide)

theorem denoted_text (h : address.Valid) :
    denoted (String.ofList address.text) = some address := by
  have hzone : ¬ (String.ofList address.text).toList.contains '%' = true := by
    rw [String.toList_ofList, contains_iff_mem]
    exact percent_not_mem_text address
  unfold denoted
  rw [if_neg hzone, String.toList_ofList]
  cases address with
  | ipv4 octets =>
    have hread : readQuad (Address.ipv4 octets).text = some octets :=
      readQuad_eq_some.mpr ⟨h.1, h.2, rfl⟩
    rw [hread]
  | ipv6 pieces =>
    have hquad : readQuad (Address.ipv6 pieces).text = none :=
      (spelling_writeIpv6 pieces).readQuad h.1
    have hread : readIpv6 (Address.ipv6 pieces).text = some pieces := readIpv6_writeIpv6 h.1 h.2
    rw [hquad, hread]
    rfl

theorem Address.text_inj {address' : Address} (h : address.Valid) (h' : address'.Valid)
    (heq : address.text = address'.text) : address = address' := by
  have hread := denoted_text h
  rw [heq, denoted_text h'] at hread
  exact (Option.some.inj hread).symm

def SameAddress (value value' : String) : Prop :=
  ∃ address address', denoted value = some address ∧ denoted value' = some address' ∧
    address.unmapped = address'.unmapped

theorem canonicalIp_eq_iff (hhost : WritesHost hostname) {a b x y : String}
    (ha : canonicalIp hostname a = some x) (hb : canonicalIp hostname b = some y) :
    x = y ↔ SameAddress a b := by
  rw [canonicalIp_eq hhost] at ha hb
  obtain ⟨address, haddress, rfl⟩ := Option.map_eq_some_iff.mp ha
  obtain ⟨address', haddress', rfl⟩ := Option.map_eq_some_iff.mp hb
  constructor
  · intro heq
    have htexts := congrArg String.toList heq
    rw [String.toList_ofList, String.toList_ofList] at htexts
    exact ⟨address, address', haddress, haddress',
      Address.text_inj (denoted_valid haddress).unmapped (denoted_valid haddress').unmapped htexts⟩
  · rintro ⟨other, other', hother, hother', hsame⟩
    cases haddress.symm.trans hother
    cases haddress'.symm.trans hother'
    rw [hsame]

theorem canonicalIp_idempotent (hhost : WritesHost hostname) {a x : String}
    (ha : canonicalIp hostname a = some x) : canonicalIp hostname x = some x := by
  rw [canonicalIp_eq hhost] at ha
  obtain ⟨address, haddress, rfl⟩ := Option.map_eq_some_iff.mp ha
  rw [canonicalIp_eq hhost, denoted_text (denoted_valid haddress).unmapped, Option.map_some,
    Address.unmapped_unmapped]

theorem SameAddress.canonicalIp (hhost : WritesHost hostname) {value' : String}
    (h : SameAddress value value') :
    SourceAddress.canonicalIp hostname value = SourceAddress.canonicalIp hostname value' := by
  obtain ⟨address, address', haddress, haddress', hsame⟩ := h
  rw [canonicalIp_eq hhost, canonicalIp_eq hhost, haddress, haddress', Option.map_some,
    Option.map_some, hsame]

def trimmed (value : String) : String := String.ofList (trim value.toList)

def SameEntry (value value' : String) : Prop :=
  value = value' ∨ SameAddress (trimmed value) (trimmed value')

inductive SameHeader : Option ForwardedFor → Option ForwardedFor → Prop where
  | absent : SameHeader none none
  | entries {h h' : ForwardedFor} {values values' : List String} :
      h.header = (ForwardedFor.several values).header →
      h'.header = (ForwardedFor.several values').header →
      List.Forall₂ SameEntry values values' → SameHeader (some h) (some h')

theorem mem_trim {text : List Char} {c : Char} (h : c ∈ text) (hc : isSpace c = false) :
    c ∈ trim text := by
  have hdrop {l : List Char} (hl : c ∈ l) : c ∈ l.dropWhile isSpace := by
    rw [← takeWhile_append_dropWhile (p := isSpace) (l := l)] at hl
    rcases mem_append.mp hl with htake | hrest
    · have hspace := all_eq_true.mp all_takeWhile c htake
      rw [hc] at hspace
      cases hspace
    · exact hrest
  rw [trim, mem_reverse]
  exact hdrop (mem_reverse.mpr (hdrop h))

theorem comma_not_mem_of_denoted (h : denoted value = some address) : ',' ∉ value.toList := by
  intro hcomma
  unfold denoted at h
  split at h
  · cases h
  · split at h
    · rename_i octets hread
      rw [(readQuad_eq_some.mp hread).2.2] at hcomma
      rcases mem_writeQuad hcomma with hdot | hdigit
      · exact absurd hdot (by decide)
      · exact absurd hdigit (by decide)
    · obtain ⟨pieces, hread, _⟩ := Option.map_eq_some_iff.mp h
      rcases (readIpv6_spec hread).2 _ hcomma with hcolon | hdot | hdigit
      · exact absurd hcolon (by decide)
      · exact absurd hdot (by decide)
      · exact absurd hdigit (by decide)

theorem entriesOf_address (h : denoted (trimmed value) = some address) :
    entriesOf hostname value = [canonicalIp hostname (trimmed value)] := by
  have hcomma : ',' ∉ value.toList := by
    intro hmem
    have htrim := comma_not_mem_of_denoted h
    rw [trimmed, String.toList_ofList] at htrim
    exact htrim (mem_trim hmem (by decide))
  have hsplit : value.toList.splitOn ',' = [value.toList] := by
    have hone : [','].intercalate [value.toList] = value.toList := by simp [List.intercalate]
    have hsingle : ([','].intercalate [value.toList]).splitOn ',' = [value.toList] :=
      splitOn_intercalate ',' (by simpa using hcomma) (by simp)
    rwa [hone] at hsingle
  rw [entriesOf, hsplit]
  rfl

theorem SameEntry.entriesOf (hhost : WritesHost hostname) {value' : String}
    (h : SameEntry value value') :
    SourceAddress.entriesOf hostname value = SourceAddress.entriesOf hostname value' := by
  rcases h with rfl | hsame
  · rfl
  · have hcanonical := hsame.canonicalIp hhost
    obtain ⟨address, address', haddress, haddress', _⟩ := hsame
    rw [entriesOf_address haddress, entriesOf_address haddress', hcanonical]

theorem entriesOf_several {values : List String} (h : values ≠ []) :
    entriesOf hostname (ForwardedFor.several values).header =
      values.flatMap (entriesOf hostname) := by
  induction values with
  | nil => exact absurd rfl h
  | cons first rest ih =>
    cases rest with
    | nil => simp [ForwardedFor.header, List.intercalate]
    | cons second rest =>
      have hheader : (ForwardedFor.several (first :: second :: rest)).header =
          first ++ "," ++ (ForwardedFor.several (second :: rest)).header := by
        apply String.toList_inj.mp
        simp [ForwardedFor.header, intercalate_cons_cons]
      rw [hheader, entriesOf_comma, ih (cons_ne_nil _ _)]
      rfl

theorem entriesOf_same (hhost : WritesHost hostname) {values values' : List String}
    (h : List.Forall₂ SameEntry values values') :
    entriesOf hostname (ForwardedFor.several values).header =
      entriesOf hostname (ForwardedFor.several values').header := by
  cases h with
  | nil => rfl
  | @cons first first' rest rest' hfirst hrest =>
    rw [entriesOf_several (cons_ne_nil _ _), entriesOf_several (cons_ne_nil _ _),
      flatMap_cons, flatMap_cons, hfirst.entriesOf hhost]
    congr 1
    induction hrest with
    | nil => rfl
    | cons hsecond _ ih => rw [flatMap_cons, flatMap_cons, hsecond.entriesOf hhost, ih]

end spelling

/-- One address has one spelling: the canonical forms of two accepted texts are equal exactly when
the texts stand for the same address, a mapped one for its IPv4 address, and a canonical form is
its own. So behind a list the source address and its counter are the same whatever texts the peer
and the entries are given in. -/
theorem one_address_one_spelling {hostname : String → String} (hhost : WritesHost hostname) :
    (∀ a b x y, canonicalIp hostname a = some x → canonicalIp hostname b = some y →
      (x = y ↔ SameAddress a b)) ∧
    (∀ a x, canonicalIp hostname a = some x → canonicalIp hostname x = some x) ∧
    ∀ trusted peer peer' h h', peer = peer' ∨ SameAddress peer peer' → SameHeader h h' →
      sourceAddress hostname (some peer) h (some trusted) =
        sourceAddress hostname (some peer') h' (some trusted) ∧
      (sourceAddress hostname (some peer) h (some trusted)).map ipKey =
        (sourceAddress hostname (some peer') h' (some trusted)).map ipKey := by
  refine ⟨fun a b x y => canonicalIp_eq_iff hhost, fun a x => canonicalIp_idempotent hhost, ?_⟩
  intro trusted peer peer' h h' hpeer hheader
  suffices hsame : sourceAddress hostname (some peer) h (some trusted) =
      sourceAddress hostname (some peer') h' (some trusted) from ⟨hsame, by rw [hsame]⟩
  rcases hpeer with rfl | hsame
  · cases hheader with
    | absent => rfl
    | entries hvalues hvalues' hsame =>
      simp only [sourceAddress, hvalues, hvalues', entriesOf_same hhost hsame]
  · have hcanonical := hsame.canonicalIp hhost
    obtain ⟨address, address', _, haddress', _⟩ := hsame
    have hpeer' := canonicalIp_eq hhost peer'
    rw [haddress', Option.map_some] at hpeer'
    rw [hpeer'] at hcanonical
    cases hheader with
    | absent => simp only [sourceAddress, hcanonical, hpeer']
    | entries hvalues hvalues' hsame =>
      simp only [sourceAddress, hcanonical, hpeer', hvalues, hvalues', entriesOf_same hhost hsame]

def sampleHostname (url : String) : String :=
  match readIpv6 (url.toList.drop 8).dropLast with
  | some pieces => "[" ++ String.ofList (writeIpv6 pieces) ++ "]"
  | none => ""

theorem sampleHostname_writes : WritesHost sampleHostname := by
  intro value pieces hread
  have hvalue : (("http://[" ++ value ++ "]").toList.drop 8).dropLast = value.toList := by simp
  rw [sampleHostname, hvalue, hread]

/-- The peer as a mapped address and an entry in another spelling give the same counter. -/
theorem sample_spellings_counted_alike :
    (sourceAddress sampleHostname (some "::FFFF:10.0.0.1") (some (.several [" 2001:DB8:0::1"]))
      (some fun address _ => address == "10.0.0.1")).map ipKey =
    (sourceAddress sampleHostname (some "10.0.0.1") (some (.several ["2001:db8::0:1"]))
      (some fun address _ => address == "10.0.0.1")).map ipKey := by
  have hpeer : SameAddress "::FFFF:10.0.0.1" "10.0.0.1" :=
    ⟨.ipv6 [0, 0, 0, 0, 0, 65535, 2560, 1], .ipv4 [10, 0, 0, 1], by decide, by decide, rfl⟩
  have hentry : SameAddress (trimmed " 2001:DB8:0::1") (trimmed "2001:db8::0:1") :=
    ⟨.ipv6 [8193, 3512, 0, 0, 0, 0, 0, 1], .ipv6 [8193, 3512, 0, 0, 0, 0, 0, 1], by decide,
      by decide, rfl⟩
  exact ((one_address_one_spelling sampleHostname_writes).2.2 _ _ _ _ _ (Or.inr hpeer)
    (.entries rfl rfl (.cons (Or.inr hentry) .nil))).2

end CyberGuard.Auth.SourceAddress
