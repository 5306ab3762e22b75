import CyberGuard.Service.MigrationChecks
import Mathlib.Data.Nat.Digits.Lemmas

/-!
# The reader of the agent's certificate

`certificate_identity_der` walks the DER of a certificate to its subject and its public
key. What it accepts is the encoding of a certificate with one common name and an Ed25519
key.
-/

namespace CyberGuard.Service.X509
set_option autoImplicit false
open Checks List

abbrev Bytes := List UInt8

def sequence : UInt8 := 0x30
def set : UInt8 := 0x31
def integer : UInt8 := 0x02
def bitString : UInt8 := 0x03
def oid : UInt8 := 0x06
def utf8String : UInt8 := 0x0c
def printableString : UInt8 := 0x13
def version : UInt8 := 0xa0

def commonNameOid : Bytes := [0x55, 0x04, 0x03]

def ed25519 : Bytes := [0x2b, 0x65, 0x70]

def readLength (what : String) (first : UInt8) (rest : Bytes) : Except String (Nat × Bytes) :=
  if first < 0x80 then .ok (first.toNat, rest)
  else
    let count := (first &&& 0x7f).toNat
    if count = 0 ∨ 4 < count ∨ rest.length < count then .error (what ++ ": bad length")
    else
      let bytes := rest.take count
      let length := bytes.foldl (fun n b => n <<< 8 ||| b.toNat) 0
      if bytes.headD 0 = 0 ∨ length < 0x80 then
        .error (what ++ ": length not in its shortest form")
      else .ok (length, rest.drop count)

def splitFirst : Bytes → Option (UInt8 × Bytes)
  | [] => none
  | first :: rest => some (first, rest)

/-- `Reader::next`: the tag, the value and what is left. -/
def next (what : String) (bytes : Bytes) : Except String (UInt8 × Bytes × Bytes) := do
  let (tag, rest) ← okOr (splitFirst bytes) (what ++ ": truncated")
  refuseIf (tag &&& 0x1f == 0x1f) (what ++ ": multi-byte tag")
  let (first, rest) ← okOr (splitFirst rest) (what ++ ": truncated")
  let (length, rest) ← readLength what first rest
  refuseIf (decide (rest.length < length)) (what ++ ": truncated")
  return (tag, rest.take length, rest.drop length)

def hexTag (tag : UInt8) : String := "0x" ++ hexadecimal 2 tag.toNat

/-- `Reader::expect`: the value and what is left. -/
def expect (tag : UInt8) (what : String) (bytes : Bytes) : Except String (Bytes × Bytes) := do
  let (found, value, rest) ← next what bytes
  refuseIf (found != tag) (what ++ ": tag " ++ hexTag found ++ ", expected " ++ hexTag tag)
  return (value, rest)

def lengthOctets (n : Nat) : Bytes :=
  if n < 0x80 then [UInt8.ofNat n]
  else
    let digits := (Nat.digits 256 n).reverse.map UInt8.ofNat
    UInt8.ofNat (0x80 + digits.length) :: digits

def element (tag : UInt8) (value : Bytes) : Bytes := tag :: lengthOctets value.length ++ value

theorem foldl_eq_ofDigits (bytes : Bytes) (start : Nat) :
    bytes.foldl (fun n b => n <<< 8 ||| b.toNat) start =
      start * 256 ^ bytes.length + Nat.ofDigits 256 (bytes.reverse.map UInt8.toNat) := by
  induction bytes generalizing start with
  | nil => simp
  | cons b bytes ih =>
    have hstep : start <<< 8 ||| b.toNat = start * 256 + b.toNat := by
      rw [← Nat.shiftLeft_add_eq_or_of_lt b.toNat_lt, Nat.shiftLeft_eq]
    rw [foldl_cons, ih, hstep, reverse_cons, map_append, Nat.ofDigits_append]
    simp only [length_map, length_reverse, length_cons, map_cons, map_nil,
      Nat.ofDigits_singleton, pow_succ]
    ring

variable {bytes rest : Bytes} {first tag : UInt8} {what : String} {found after : Option String}

theorem digits_foldl (hhead : bytes.headD 0 ≠ 0) :
    (Nat.digits 256 (bytes.foldl (fun n b => n <<< 8 ||| b.toNat) 0)).reverse.map UInt8.ofNat =
      bytes := by
  have hdigits : Nat.digits 256 (Nat.ofDigits 256 (bytes.reverse.map UInt8.toNat)) =
      bytes.reverse.map UInt8.toNat := by
    apply Nat.digits_ofDigits 256 (by decide)
    · intro digit hmem
      obtain ⟨b, -, rfl⟩ := mem_map.mp hmem
      exact b.toNat_lt
    · intro hne hlast
      cases bytes with
      | nil => exact hhead rfl
      | cons b bytes =>
        simp only [reverse_cons, map_append, map_cons, map_nil,
          getLast_append_singleton] at hlast
        exact hhead (UInt8.toNat_inj.mp hlast)
  rw [foldl_eq_ofDigits, Nat.zero_mul, Nat.zero_add, hdigits, ← map_reverse,
    reverse_reverse, map_map]
  convert map_id bytes
  funext b
  exact UInt8.ofNat_toNat

theorem count_octet (hlong : ¬first < 0x80) :
    UInt8.ofNat (0x80 + (first &&& 0x7f).toNat) = first := by
  have hlow : (first &&& 0x7f).toNat = first.toNat % 128 := by
    rw [UInt8.toNat_and]
    exact Nat.and_two_pow_sub_one_eq_mod first.toNat 7
  have hge : ¬first.toNat < 128 := fun hlt => hlong (UInt8.lt_iff_toNat_lt.mpr hlt)
  have hlt : first.toNat < 256 := first.toNat_lt
  rw [hlow]
  apply UInt8.toNat_inj.mp
  rw [UInt8.toNat_ofNat']
  omega

/-- Only the shortest form of a length is read. -/
theorem readLength_eq_ok {after : Bytes} {length : Nat}
    (h : readLength what first rest = .ok (length, after)) :
    first :: rest = lengthOctets length ++ after := by
  unfold readLength at h
  split at h
  · rename_i hshort
    cases h
    have hlt : first.toNat < 0x80 := UInt8.lt_iff_toNat_lt.mp hshort
    rw [lengthOctets, if_pos hlt, UInt8.ofNat_toNat]
    rfl
  · rename_i hlong
    dsimp only at h
    split at h
    · cases h
    · rename_i hcount
      split at h
      · cases h
      · rename_i hform
        cases h
        rw [not_or, not_or, not_lt, not_lt] at hcount
        rw [not_or, not_lt] at hform
        rw [lengthOctets, if_neg (not_lt.mpr hform.2), digits_foldl hform.1]
        dsimp only
        rw [length_take, Nat.min_eq_left hcount.2.2, count_octet hlong, cons_append,
          take_append_drop]

theorem splitFirst_eq_some (h : splitFirst bytes = some (first, rest)) : bytes = first :: rest := by
  cases bytes with
  | nil => cases h
  | cons byte more =>
    cases h
    rfl

theorem next_eq_ok {value : Bytes} (h : next what bytes = .ok (tag, value, rest)) :
    bytes = element tag value ++ rest := by
  simp only [next, bind_eq_ok, okOr_eq_ok, refuseIf_eq_ok, pure_eq_ok, Prod.exists,
    Prod.mk.injEq] at h
  obtain ⟨found, more, htag, _, -, first, octets, hfirst, length, after, hlength, _, hshort, rfl,
    rfl, rfl⟩ := h
  have hle : length ≤ after.length := by simpa using hshort
  rw [splitFirst_eq_some htag, splitFirst_eq_some hfirst, readLength_eq_ok hlength, element,
    length_take, Nat.min_eq_left hle, cons_append, cons_append, append_assoc,
    take_append_drop]

theorem expect_eq_ok {value : Bytes} (h : expect tag what bytes = .ok (value, rest)) :
    bytes = element tag value ++ rest := by
  simp only [expect, bind_eq_ok, refuseIf_eq_ok, pure_eq_ok, Prod.exists, Prod.mk.injEq] at h
  obtain ⟨found, _, _, hnext, _, hfound, rfl, rfl⟩ := h
  have htag : found = tag := by simpa using hfound
  rw [← htag]
  exact next_eq_ok hnext

/-- The elements of that tag in turn, to the end of the bytes; each round takes some of them. -/
def eachElement {α : Type} (tag : UInt8) (what : String) (read : α → Bytes → Except String α) :
    Nat → α → Bytes → Except String α
  | 0, a, _ => .ok a
  | _ + 1, a, [] => .ok a
  | rounds + 1, a, bytes => do
    let (value, rest) ← expect tag what bytes
    let a ← read a value
    eachElement tag what read rounds a rest

theorem eachElement_eq_ok {α : Type} {read : α → Bytes → Except String α} {rounds : Nat} {a b : α}
    (h : eachElement tag what read rounds a bytes = .ok b) (hrounds : bytes.length ≤ rounds) :
    ∃ values : List Bytes, bytes = (values.map (element tag)).flatten ∧
      values.foldlM read a = .ok b := by
  induction rounds generalizing a bytes with
  | zero =>
    have hnil := eq_nil_of_length_eq_zero (Nat.le_zero.mp hrounds)
    exact ⟨[], hnil, h⟩
  | succ rounds ih =>
    cases bytes with
    | nil => exact ⟨[], rfl, h⟩
    | cons byte more =>
      simp only [eachElement, bind_eq_ok, Prod.exists] at h
      obtain ⟨value, rest, hexpect, c, hread, hrest⟩ := h
      have hbytes := expect_eq_ok hexpect
      have hshorter : rest.length ≤ rounds := by
        have hlength := congrArg List.length hbytes
        simp only [element, length_cons, length_append, cons_append] at hlength hrounds
        omega
      obtain ⟨values, hvalues, hfold⟩ := ih hrest hshorter
      refine ⟨value :: values, ?_, ?_⟩
      · rw [hbytes, hvalues]
        rfl
      · rw [foldlM_cons]
        exact bind_eq_ok.mpr ⟨c, hread, hfold⟩

structure Attribute where
  kind : Bytes
  tag : UInt8
  value : Bytes
  /-- What the reader leaves unread. -/
  unread : Bytes

def Attribute.content (a : Attribute) : Bytes :=
  element oid a.kind ++ (element a.tag a.value ++ a.unread)

section Names
variable (fromUtf8 : Bytes → Option String)

def readAttribute (found : Option String) (bytes : Bytes) : Except String (Option String) := do
  let (kind, bytes) ← expect oid "AttributeType" bytes
  let (tag, value, _) ← next "AttributeValue" bytes
  if kind ≠ commonNameOid then return found
  else
    refuseIf (tag != utf8String && tag != printableString) ("common name of tag " ++ hexTag tag)
    let text ← okOr (fromUtf8 value) "common name is not UTF-8"
    refuseIf found.isSome "more than one common name"
    return some text

def readRdn (found : Option String) (attributes : Bytes) : Except String (Option String) :=
  eachElement sequence "AttributeTypeAndValue" (readAttribute fromUtf8) attributes.length found
    attributes

/-- The one common name of a `Name`; none or several is refused. -/
def commonName (name : Bytes) : Except String String := do
  let found ← eachElement set "RelativeDistinguishedName" (readRdn fromUtf8) name.length none name
  okOr found "no common name"

end Names

def encodeName (rdns : List (List Attribute)) : Bytes :=
  (rdns.map fun attributes =>
    element set (attributes.map fun a => element sequence a.content).flatten).flatten

def CommonNames (fromUtf8 : Bytes → Option String) (attributes : List Attribute)
    (names : List String) : Prop :=
  (attributes.filter (·.kind = commonNameOid)).map (fun a => fromUtf8 a.value) = names.map some

variable {fromUtf8 : Bytes → Option String}

theorem CommonNames.append {first second : List Attribute} {names more : List String}
    (h : CommonNames fromUtf8 first names) (h' : CommonNames fromUtf8 second more) :
    CommonNames fromUtf8 (first ++ second) (names ++ more) := by
  unfold CommonNames at *
  rw [filter_append, map_append, map_append, h, h']

theorem readAttribute_eq_ok (h : readAttribute fromUtf8 found bytes = .ok after) :
    ∃ a : Attribute, bytes = a.content ∧ ∃ names, CommonNames fromUtf8 [a] names ∧
      found.toList ++ names = after.toList := by
  simp only [readAttribute, bind_eq_ok, Prod.exists] at h
  obtain ⟨kind, rest, hkind, tag, value, unread, hvalue, h⟩ := h
  refine ⟨⟨kind, tag, value, unread⟩, ?_, ?_⟩
  · rw [expect_eq_ok hkind, next_eq_ok hvalue]
    rfl
  · split at h
    · rename_i hother
      have hfound : found = after := pure_eq_ok.mp h
      refine ⟨[], ?_, ?_⟩
      · simp [CommonNames, hother]
      · rw [hfound, append_nil]
    · rename_i hname
      simp only [bind_eq_ok, okOr_eq_ok, refuseIf_eq_ok, pure_eq_ok, Option.isSome_eq_false_iff,
        Option.isNone_iff_eq_none] at h
      obtain ⟨_, -, text, htext, _, rfl, rfl⟩ := h
      refine ⟨[text], ?_, rfl⟩
      simp [CommonNames, not_not.mp hname, htext]

/-- The same of a sequence of parts, each of which holds some attributes. -/
theorem foldlM_commonNames {read : Option String → Bytes → Except String (Option String)}
    {R : List Attribute → Bytes → Prop}
    (hread : ∀ found bytes after, read found bytes = .ok after →
      ∃ attributes, R attributes bytes ∧ ∃ names, CommonNames fromUtf8 attributes names ∧
      found.toList ++ names = after.toList)
    {values : List Bytes} (h : values.foldlM read found = .ok after) :
    ∃ parts : List (List Attribute), List.Forall₂ R parts values ∧
      ∃ names, CommonNames fromUtf8 parts.flatten names ∧ found.toList ++ names = after.toList := by
  induction values generalizing found with
  | nil =>
    have hsame : found = after := pure_eq_ok.mp h
    refine ⟨[], .nil, [], rfl, ?_⟩
    rw [hsame, append_nil]
  | cons value values ih =>
    rw [foldlM_cons] at h
    obtain ⟨middle, hvalue, hvalues⟩ := bind_eq_ok.mp h
    obtain ⟨attributes, hpart, names, hnames, hmiddle⟩ := hread found value middle hvalue
    obtain ⟨parts, hparts, more, hmore, hafter⟩ := ih hvalues
    refine ⟨attributes :: parts, .cons hpart hparts, names ++ more, hnames.append hmore, ?_⟩
    rw [← append_assoc, hmiddle, hafter]

theorem readRdn_eq_ok (h : readRdn fromUtf8 found bytes = .ok after) :
    ∃ attributes : List Attribute,
      bytes = (attributes.map fun a => element sequence a.content).flatten ∧
      ∃ names, CommonNames fromUtf8 attributes names ∧ found.toList ++ names = after.toList := by
  obtain ⟨values, hbytes, hfold⟩ := eachElement_eq_ok h (le_refl _)
  obtain ⟨parts, hparts, names, hnames, hafter⟩ :=
    foldlM_commonNames (R := fun attributes bytes => ∃ a, attributes = [a] ∧ bytes = a.content)
      (fun _ _ _ hread => by
        obtain ⟨a, hcontent, hnames⟩ := readAttribute_eq_ok hread
        exact ⟨[a], ⟨a, rfl, hcontent⟩, hnames⟩) hfold
  refine ⟨parts.flatten, ?_, names, hnames, hafter⟩
  rw [hbytes]
  clear hfold hnames hbytes
  induction hparts with
  | nil => rfl
  | cons hpart _ ih =>
    obtain ⟨a, rfl, rfl⟩ := hpart
    simp only [map_cons, flatten_cons, ih, singleton_append, map_cons]

theorem commonName_eq_ok {name : Bytes} {text : String} (h : commonName fromUtf8 name = .ok text) :
    ∃ rdns, name = encodeName rdns ∧ CommonNames fromUtf8 rdns.flatten [text] := by
  obtain ⟨found, heach, hfound⟩ := bind_eq_ok.mp h
  rw [okOr_eq_ok] at hfound
  subst hfound
  obtain ⟨values, hbytes, hfold⟩ := eachElement_eq_ok heach (le_refl _)
  obtain ⟨rdns, hrdns, names, hnames, hone⟩ :=
    foldlM_commonNames (fun _ _ _ hread => readRdn_eq_ok hread) hfold
  have hnames' : names = [text] := hone
  subst hnames'
  refine ⟨rdns, ?_, hnames⟩
  rw [hbytes]
  clear hfold hnames hone hbytes
  induction hrdns with
  | nil => rfl
  | cons hrdn _ ih =>
    rw [map_cons, flatten_cons, ih, hrdn]
    rfl

def ed25519Key (spki : Bytes) : Except String Bytes := do
  let (algorithm, spki) ← expect sequence "AlgorithmIdentifier" spki
  let (kind, parameters) ← expect oid "algorithm" algorithm
  refuseIf (kind != ed25519 || !parameters.isEmpty) "the public key is not Ed25519"
  let (bits, rest) ← expect bitString "subjectPublicKey" spki
  refuseIf (!rest.isEmpty) "bytes after the subjectPublicKey"
  match bits with
  | 0 :: key =>
    refuseIf (key.length != 32) "the Ed25519 public key is not 32 bytes"
    return key
  | _ => .error "the Ed25519 public key is not 32 bytes"

def skipVersion (tbs : Bytes) : Except String Bytes :=
  if tbs.head? = some version then do
    let (_, _, rest) ← next "version" tbs
    return rest
  else return tbs

def certificateIdentityDer (fromUtf8 : Bytes → Option String) (der : Bytes) :
    Except String (CertificateIdentity Bytes) := do
  let (certificate, after) ← expect sequence "Certificate" der
  refuseIf (!after.isEmpty) "bytes after the Certificate"
  let (tbs, _) ← expect sequence "tbsCertificate" certificate
  let tbs ← skipVersion tbs
  let (_, tbs) ← expect integer "serialNumber" tbs
  let (_, tbs) ← expect sequence "signature" tbs
  let (_, tbs) ← expect sequence "issuer" tbs
  let (_, tbs) ← expect sequence "validity" tbs
  let (subject, tbs) ← expect sequence "subject" tbs
  let (spki, _) ← expect sequence "subjectPublicKeyInfo" tbs
  let commonName ← commonName fromUtf8 subject
  let ed25519PublicKey ← ed25519Key spki
  return ⟨commonName, ed25519PublicKey⟩

/-- What a certificate is read for, and what is skipped. -/
structure Certificate where
  version : Option (UInt8 × Bytes)
  serialNumber : Bytes
  signature : Bytes
  issuer : Bytes
  validity : Bytes
  subject : List (List Attribute)
  key : Bytes
  extensions : Bytes
  signed : Bytes

def Certificate.encode (c : Certificate) : Bytes :=
  element sequence (element sequence ((c.version.elim [] fun v => element v.1 v.2) ++
    (element integer c.serialNumber ++ (element sequence c.signature ++ (element sequence c.issuer ++
      (element sequence c.validity ++ (element sequence (encodeName c.subject) ++
        (element sequence (element sequence (element oid ed25519) ++
          element bitString (0 :: c.key)) ++ c.extensions))))))) ++ c.signed)

theorem ed25519Key_eq_ok {spki key : Bytes} (h : ed25519Key spki = .ok key) :
    spki = element sequence (element oid ed25519) ++ element bitString (0 :: key) ∧
      key.length = 32 := by
  simp only [ed25519Key, bind_eq_ok, refuseIf_eq_ok, Prod.exists] at h
  obtain ⟨algorithm, rest, halgorithm, kind, parameters, hkind, _, hed25519, bits, after, hbits, _,
    hafter, h⟩ := h
  rw [Bool.or_eq_false_iff] at hed25519
  have hkind' : kind = ed25519 := by simpa using hed25519.1
  have hparameters : parameters = [] := by simpa using hed25519.2
  have hafter' : after = [] := by simpa using hafter
  split at h
  · rename_i bits
    simp only [bind_eq_ok, refuseIf_eq_ok, pure_eq_ok] at h
    obtain ⟨_, hlength, rfl⟩ := h
    refine ⟨?_, by simpa using hlength⟩
    rw [expect_eq_ok halgorithm, expect_eq_ok hkind, expect_eq_ok hbits, hkind', hparameters,
      hafter', append_nil, append_nil]
  · cases h

theorem skipVersion_eq_ok {tbs : Bytes} (h : skipVersion tbs = .ok rest) :
    ∃ version : Option (UInt8 × Bytes),
      tbs = (version.elim [] fun v => element v.1 v.2) ++ rest := by
  unfold skipVersion at h
  split at h
  · simp only [bind_eq_ok, pure_eq_ok, Prod.exists] at h
    obtain ⟨tag, value, _, hnext, rfl⟩ := h
    exact ⟨some (tag, value), next_eq_ok hnext⟩
  · exact ⟨none, pure_eq_ok.mp h⟩

/-- A certificate that is accepted has one common name and an Ed25519 key, the ones returned. -/
theorem certificateIdentityDer_eq_ok {der : Bytes} {identity : CertificateIdentity Bytes}
    (h : certificateIdentityDer fromUtf8 der = .ok identity) :
    ∃ c : Certificate, der = c.encode ∧ c.key = identity.ed25519PublicKey ∧ c.key.length = 32 ∧
      CommonNames fromUtf8 c.subject.flatten [identity.commonName] := by
  simp only [certificateIdentityDer, bind_eq_ok, refuseIf_eq_ok, pure_eq_ok, Prod.exists] at h
  obtain ⟨certificate, after, hcertificate, _, hafter, tbs, signed, htbs, tbs₁, hversion,
    serialNumber, tbs₂, hserial, signature, tbs₃, hsignature, issuer, tbs₄, hissuer, validity, tbs₅,
    hvalidity, subject, tbs₆, hsubject, spki, extensions, hspki, name, hname, key, hkey, rfl⟩ := h
  have hafter' : after = [] := by simpa using hafter
  obtain ⟨version, hversion'⟩ := skipVersion_eq_ok hversion
  obtain ⟨rdns, hrdns, hnames⟩ := commonName_eq_ok hname
  obtain ⟨hspki', hlength⟩ := ed25519Key_eq_ok hkey
  refine ⟨⟨version, serialNumber, signature, issuer, validity, rdns, key, extensions, signed⟩, ?_,
    rfl, hlength, hnames⟩
  rw [expect_eq_ok hcertificate, expect_eq_ok htbs, hversion', expect_eq_ok hserial,
    expect_eq_ok hsignature, expect_eq_ok hissuer, expect_eq_ok hvalidity, expect_eq_ok hsubject,
    expect_eq_ok hspki, hrdns, hspki', hafter', append_nil]
  rfl

end CyberGuard.Service.X509
