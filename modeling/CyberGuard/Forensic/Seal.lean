import CyberGuard.Forensic.Export
import CyberGuard.Shared.JsonText
import Mathlib.Data.Countable.Basic
import Mathlib.Tactic.DeriveCountable

/-!
# What the forensic seal shows

The chain head of an export determines its events, one by one and in order, as JSON
values. So an export that is read back in any serialisation verifies, and a file that
verifies under the recorded fingerprint has the events of a timeline that was sealed,
where the forensic key signs nothing but what `sealTimeline` gives it.

SHA-256 is taken to have no collision among the byte strings that are hashed in what a
statement is about; no function of 32 bytes is injective on all of them.
-/

namespace CyberGuard.Forensic
set_option autoImplicit false
open TextPatterns CyberGuard.Ingest List

theorem utf8_injective : Function.Injective utf8 := by
  intro text text' h
  have hdata : text.toUTF8.data = text'.toUTF8.data := Array.toList_inj.mp h
  exact String.toByteArray_inj.mp (ByteArray.ext hdata)

theorem digitChar_injective {d d' : Nat} (hd : d < 16) (hd' : d' < 16)
    (h : d.digitChar = d'.digitChar) : d = d' := by
  have hall : ∀ d < 16, ∀ d' < 16, d.digitChar = d'.digitChar → d = d' := by decide
  exact hall d hd d' hd' h

theorem hexByte_injective {byte byte' : UInt8} (h : Agent.hexByte byte = Agent.hexByte byte') :
    byte = byte' := by
  obtain ⟨hhigh, hrest⟩ := List.cons.inj h
  obtain ⟨hlow, _⟩ := List.cons.inj hrest
  have hbyte := byte.toNat_lt
  have hbyte' := byte'.toNat_lt
  have hdiv := digitChar_injective (by omega) (by omega) hhigh
  have hmod := digitChar_injective (by omega) (by omega) hlow
  apply UInt8.toNat_inj.mp
  omega

theorem toHex_injective : Function.Injective toHex := by
  intro bytes bytes' h
  have hchars : bytes.flatMap Agent.hexByte = bytes'.flatMap Agent.hexByte :=
    String.ofList_injective h
  induction bytes generalizing bytes' with
  | nil =>
    cases bytes' with
    | nil => rfl
    | cons byte' rest' => cases hchars
  | cons byte rest ih =>
    cases bytes' with
    | nil => cases hchars
    | cons byte' rest' =>
      rw [flatMap_cons, flatMap_cons] at hchars
      obtain ⟨hfirst, hrest⟩ := append_inj hchars rfl
      have hsame := ih (congrArg String.ofList hrest) hrest
      rw [hexByte_injective hfirst, hsame]

theorem length_toHex (bytes : Bytes) : (toHex bytes).toList.length = 2 * bytes.length := by
  rw [toHex, Agent.hexBytes, String.toList_ofList, length_flatMap]
  simp [Agent.hexByte]
  omega

section values
variable {N : Type}

variable {fields fields' : List (String × Json N)}

theorem same_string {text text' : String} (name : String)
    (h : Json.Same (.object fields) (.object fields'))
    (hfield : fields.lookup name = some (.string text))
    (hfield' : fields'.lookup name = some (.string text')) : text = text' := by
  have hmember := h.member name
  simp only [Json.member, hfield, hfield'] at hmember
  exact Json.string.inj (Option.some.inj hmember)

theorem same_number {n n' : N} (name : String) (h : Json.Same (.object fields) (.object fields'))
    (hfield : fields.lookup name = some (.number n))
    (hfield' : fields'.lookup name = some (.number n')) : n = n' := by
  have hmember := h.member name
  simp only [Json.member, hfield, hfield'] at hmember
  exact Json.number.inj (Option.some.inj hmember)

theorem same_orNull {number : UInt32 → N} (hnumber : Function.Injective number)
    {pid pid' : Option UInt32} (name : String) (h : Json.Same (.object fields) (.object fields'))
    (hfield : fields.lookup name = some (Json.orNull pid fun n => .number (number n)))
    (hfield' : fields'.lookup name = some (Json.orNull pid' fun n => .number (number n))) :
    pid = pid' := by
  have hmember := h.member name
  simp only [Json.member, hfield, hfield'] at hmember
  cases pid with
  | none =>
    cases pid' with
    | none => rfl
    | some pid' => cases Option.some.inj hmember
  | some pid =>
    cases pid' with
    | none => cases Option.some.inj hmember
    | some pid' => exact congrArg some (hnumber (Json.number.inj (Option.some.inj hmember)))

/-- An event is read back from its value. -/
theorem toJson_injective {number : UInt32 → N} (hnumber : Function.Injective number)
    {event event' : TimelineEvent} (h : Json.Same (event.toJson number) (event'.toJson number)) :
    event = event' := by
  have hactivity : event.activityId = event'.activityId := by
    have hwide := hnumber (same_number "activity_id" h rfl rfl)
    apply UInt8.toNat_inj.mp
    have hnat := congrArg UInt32.toNat hwide
    rwa [UInt8.toNat_toUInt32, UInt8.toNat_toUInt32] at hnat
  have hparent := same_orNull hnumber "process_parent_pid" h rfl rfl
  have hpid := hnumber (same_number "process_pid" h rfl rfl)
  have hid := same_string "event_id" h rfl rfl
  have hagent := same_string "agent_id" h rfl rfl
  have huid := same_string "process_uid" h rfl rfl
  have hname := same_string "process_name" h rfl rfl
  have himage := same_string "image_file_name" h rfl rfl
  have htime := same_string "event_time" h rfl rfl
  cases event
  cases event'
  simp only at hactivity hparent hpid hid hagent huid hname himage htime
  subst hactivity hparent hpid hid hagent huid hname himage htime
  rfl

end values

section chains
variable {N : Type} (P : Platform N)

def canonicalBytes (event : Json N) : Option Bytes := (canonicalEvent P event).map utf8

def Hashed (events : List (Json N)) (input : Bytes) : Prop :=
  ∃ texts, events.mapM (canonicalBytes P) = some texts ∧ HashChain.Input P.sha256 texts input

theorem computeChain_from (events : List (Json N)) (chain : Bytes) :
    events.foldlM (fun chain event =>
      (evidenceHash P event).map fun hash => P.sha256 (chain ++ hash)) chain =
    (events.mapM (canonicalBytes P)).map fun texts =>
      texts.foldl (HashChain.link P.sha256) chain := by
  induction events generalizing chain with
  | nil => rfl
  | cons event rest ih =>
    rw [foldlM_cons, mapM_cons, evidenceHash, canonicalBytes]
    cases canonicalEvent P event with
    | none => rfl
    | some text =>
      have hlink := ih (HashChain.link P.sha256 chain (utf8 text))
      simp only [Option.map_some, Option.bind_eq_bind, Option.bind_some]
      rw [HashChain.link] at hlink
      rw [hlink]
      cases rest.mapM (canonicalBytes P) with
      | none => rfl
      | some texts => rfl

theorem computeChain_eq (events : List (Json N)) : computeChain P events =
    (events.mapM (canonicalBytes P)).map (HashChain.head P.sha256) :=
  computeChain_from P events _

variable {P} {events events' : List (Json N)}

theorem length_computeChain {chain : Bytes} (h : computeChain P events = some chain) :
    chain.length = 32 := by
  rw [computeChain_eq] at h
  obtain ⟨texts, _, rfl⟩ := Option.map_eq_some_iff.mp h
  exact HashChain.length_head P.length_sha256 texts

theorem same_of_canonicalBytes {v w : Json N} {text : Bytes} (hv : canonicalBytes P v = some text)
    (hw : canonicalBytes P w = some text) : Json.Same v w := by
  obtain ⟨canonical, hcanonical, rfl⟩ := Option.map_eq_some_iff.mp hv
  obtain ⟨canonical', hcanonical', hsame⟩ := Option.map_eq_some_iff.mp hw
  rw [utf8_injective hsame] at hcanonical'
  exact P.canonicalize_injective v w canonical hcanonical hcanonical'

theorem mapM_cons_some {event : Json N} {texts : List Bytes}
    (h : (event :: events).mapM (canonicalBytes P) = some texts) :
    ∃ text rest, canonicalBytes P event = some text ∧
      events.mapM (canonicalBytes P) = some rest ∧ texts = text :: rest := by
  rw [mapM_cons] at h
  simp only [Option.bind_eq_bind, Option.bind_eq_some_iff] at h
  obtain ⟨text, htext, rest, hrest, hsome⟩ := h
  exact ⟨text, rest, htext, hrest, (Option.some.inj hsome).symm⟩

theorem same_of_mapM {texts : List Bytes} (h : events.mapM (canonicalBytes P) = some texts)
    (h' : events'.mapM (canonicalBytes P) = some texts) : List.Forall₂ Json.Same events events' := by
  induction events generalizing events' texts with
  | nil =>
    cases h
    cases events' with
    | nil => exact .nil
    | cons event' rest' =>
      obtain ⟨_, _, _, _, hcons⟩ := mapM_cons_some h'
      cases hcons
  | cons event rest ih =>
    obtain ⟨text, tail, htext, htail, rfl⟩ := mapM_cons_some h
    cases events' with
    | nil => cases h'
    | cons event' rest' =>
      obtain ⟨text', tail', htext', htail', hcons⟩ := mapM_cons_some h'
      cases hcons
      exact .cons (same_of_canonicalBytes htext htext') (ih htail htail')

theorem computeChain_injective
    (hinj : Set.InjOn P.sha256 {b | Hashed P events b ∨ Hashed P events' b}) {chain : Bytes}
    (h : computeChain P events = some chain) (h' : computeChain P events' = some chain) :
    List.Forall₂ Json.Same events events' := by
  rw [computeChain_eq] at h h'
  obtain ⟨texts, htexts, hhead⟩ := Option.map_eq_some_iff.mp h
  obtain ⟨texts', htexts', hhead'⟩ := Option.map_eq_some_iff.mp h'
  have hinputs : {b | HashChain.Input P.sha256 texts b ∨ HashChain.Input P.sha256 texts' b} ⊆
      {b | Hashed P events b ∨ Hashed P events' b} := by
    intro b hb
    rcases hb with hleft | hright
    · exact Or.inl ⟨texts, htexts, hleft⟩
    · exact Or.inr ⟨texts', htexts', hright⟩
  have hsame : texts = texts' := HashChain.head_injective (by decide) P.length_sha256
    (hinj.mono hinputs) (hhead.trans hhead'.symm)
  rw [← hsame] at htexts'
  exact same_of_mapM htexts htexts'

theorem computeChain_same (h : List.Forall₂ Json.Same events events') :
    computeChain P events = computeChain P events' := by
  rw [computeChain_eq, computeChain_eq]
  congr 1
  induction h with
  | nil => rfl
  | @cons event event' rest rest' hsame _ ih =>
    have htext : canonicalBytes P event = canonicalBytes P event' :=
      congrArg (Option.map utf8) (P.canonicalize_same event event' hsame)
    rw [mapM_cons, mapM_cons, htext, ih]

theorem forall₂_same (h : events.map Json.normal = events'.map Json.normal) :
    List.Forall₂ Json.Same events events' := by
  induction events generalizing events' with
  | nil =>
    cases events' with
    | nil => exact .nil
    | cons event' rest' => cases h
  | cons event rest ih =>
    cases events' with
    | nil => cases h
    | cons event' rest' =>
      obtain ⟨hfirst, hrest⟩ := List.cons.inj h
      exact .cons hfirst (ih hrest)

variable (P) in
theorem exists_computeChain (timeline : EventTimeline) :
    ∃ chain, computeChain P (eventValues P timeline) = some chain := by
  have htexts : ∃ texts, (eventValues P timeline).mapM (canonicalBytes P) = some texts := by
    rw [eventValues]
    induction timeline.events with
    | nil => exact ⟨[], rfl⟩
    | cons event rest ih =>
      obtain ⟨texts, htexts⟩ := ih
      obtain ⟨text, htext⟩ := Option.isSome_iff_exists.mp (P.canonicalize_event event)
      refine ⟨utf8 text :: texts, ?_⟩
      rw [map_cons, mapM_cons, canonicalBytes, canonicalEvent, htext, htexts]
      rfl
  obtain ⟨texts, htexts⟩ := htexts
  rw [computeChain_eq, htexts]
  exact ⟨_, rfl⟩

end chains

section verifier
variable {N : Type} {P : Platform N}

structure Checked (P : Platform N) (recorded text : String) (exp : ExportShape N) (head : Bytes) :
    Prop where
  form : test fingerprintForm (recordedFingerprint recorded) = true
  shape : (P.parse text).bind shapeOf = some exp
  keyLength : (P.fromBase64url exp.forensicPubkey).length = 32
  fingerprint : fingerprintOf P (P.fromBase64url exp.forensicPubkey) = recordedFingerprint recorded
  chain : computeChain P exp.events = some head
  chainRoot : toHex head = exp.chainRoot
  signature : P.verify (P.fromBase64url exp.forensicPubkey) (P.fromBase64url exp.rootSignature)
    head = true

variable {recorded file text : String} {v : Json N}

theorem verifyExport_accepts {exp : ExportShape N} {head : Bytes}
    (h : Checked P recorded text exp head) :
    ∃ verdict, verifyExport P recorded file (some text) = some verdict ∧ verdict.code = 0 := by
  have hkey : ¬ ((P.fromBase64url exp.forensicPubkey).length ≠ 32 ∨
      fingerprintOf P (P.fromBase64url exp.forensicPubkey) ≠ recordedFingerprint recorded) := by
    intro hbad
    rcases hbad with hlength | hfingerprint
    · exact hlength h.keyLength
    · exact hfingerprint h.fingerprint
  refine ⟨⟨0, "verified: " ++ toString exp.events.length ++ " events, chain head " ++ toHex head⟩,
    ?_, rfl⟩
  have hroot : ¬ toHex head ≠ exp.chainRoot := fun hne => hne h.chainRoot
  simp only [verifyExport, h.form, h.shape, if_neg hkey, h.chain, Option.map_some, if_neg hroot,
    h.signature]
  rfl

theorem verifyExport_checked {verdict : Verdict}
    (h : verifyExport P recorded file (some text) = some verdict) (hcode : verdict.code = 0) :
    ∃ exp head, Checked P recorded text exp head := by
  rw [verifyExport] at h
  split at h
  · cases h
    cases hcode
  · rename_i hform
    split at h
    · cases h
      cases hcode
    · rename_i exp hshape
      simp only at h
      split at h
      · cases h
        cases hcode
      · rename_i hkey
        obtain ⟨head, hchain, hverdict⟩ := Option.map_eq_some_iff.mp h
        have hgood := not_or.mp hkey
        split at hverdict
        · rw [← hverdict] at hcode
          cases hcode
        · rename_i hroot
          split at hverdict
          · rename_i hsignature
            exact ⟨exp, head, by simpa using hform, hshape, not_not.mp hgood.1,
              not_not.mp hgood.2, hchain, not_not.mp hroot, hsignature⟩
          · rw [← hverdict] at hcode
            cases hcode

theorem toHex_mem (bytes : Bytes) (h : bytes.length = 32) :
    (toHex bytes).toList ∈ (between 64 64 (oneOf lowerHexDigits)).matches' := by
  have hlength := length_toHex bytes
  apply mem_between_oneOf
  · omega
  · omega
  · intro c hc
    exact Accepted.hexBytes_lower hc

theorem fingerprintForm_fingerprintOf (key : Bytes) :
    test fingerprintForm (fingerprintOf P key) = true := by
  rw [test_iff, fingerprintOf, String.toList_append]
  exact mem_mul (mem_literally "sha256:") (toHex_mem _ (P.length_sha256 key))

theorem recordedFingerprint_fingerprintOf (key : Bytes) :
    recordedFingerprint (fingerprintOf P key) = fingerprintOf P key := by
  have hlist : (fingerprintOf P key).toList =
      ['s', 'h', 'a', '2', '5', '6', ':'] ++ (toHex (P.sha256 key)).toList := by
    rw [fingerprintOf, String.toList_append]
    rfl
  have hfront : slice (fingerprintOf P key) 0 7 = "sha256:" := by
    rw [slice, hlist]
    rfl
  have hdigits : slice (fingerprintOf P key) 7 (fingerprintOf P key).length =
      toHex (P.sha256 key) := by
    apply String.toList_inj.mp
    rw [slice, String.toList_ofList, ← String.length_toList, take_length, hlist]
    rfl
  have hlower : (toHex (P.sha256 key)).toLower = toHex (P.sha256 key) := by
    apply toLower_of_forall
    intro c hc
    exact toLower_lowerHex (Accepted.hexBytes_lower hc)
  rw [recordedFingerprint, hfront, hdigits, hlower, fingerprintOf]

theorem member_string {w : Json N} (h : Json.Same v w) (name : String)
    (hw : w.member name = some (.string text)) : v.member name = some (.string text) := by
  have hmember := h.member name
  rw [hw] at hmember
  obtain ⟨value, hvalue, hnormal⟩ := Option.map_eq_some_iff.mp hmember
  rw [hvalue, Json.normal_eq_string hnormal]

theorem member_array {w : Json N} (h : Json.Same v w) (name : String) {items : List (Json N)}
    (hw : w.member name = some (.array items)) :
    ∃ items', v.member name = some (.array items') ∧ List.Forall₂ Json.Same items' items := by
  have hmember := h.member name
  rw [hw] at hmember
  obtain ⟨value, hvalue, hnormal⟩ := Option.map_eq_some_iff.mp hmember
  rw [Json.normal, Json.normalItems_eq] at hnormal
  obtain ⟨items', rfl, hitems⟩ := Json.normal_eq_array hnormal
  exact ⟨items', hvalue, forall₂_same hitems⟩

theorem shapeOf_same {exp : ForensicExport} (h : Json.Same v (exp.toJson P)) :
    ∃ items, shapeOf v = some ⟨items, exp.chainRoot, exp.rootSignature, exp.forensicPubkey⟩ ∧
      List.Forall₂ Json.Same items (exp.events.map fun event => event.toJson P.number) := by
  obtain ⟨items, hitems, hsame⟩ := member_array h "events" rfl
  have hroot := member_string h "chain_root" rfl
  have hsignature := member_string h "root_signature" rfl
  have hkey := member_string h "forensic_pubkey" rfl
  refine ⟨items, ?_, hsame⟩
  rw [shapeOf, hitems, hroot, hsignature, hkey]

theorem fingerprintOf_injOn {key key' : Bytes} {inputs : Set Bytes}
    (hinj : Set.InjOn P.sha256 inputs) (hkey : key ∈ inputs) (hkey' : key' ∈ inputs)
    (h : fingerprintOf P key = fingerprintOf P key') : key = key' := by
  have hchars := congrArg String.toList h
  rw [fingerprintOf, fingerprintOf, String.toList_append, String.toList_append] at hchars
  have hhex := String.toList_inj.mp (append_cancel_left hchars)
  exact hinj hkey hkey' (toHex_injective hhex)

/-- The byte strings hashed when the file is verified and when the timelines were sealed. -/
def SealHashed (P : Platform N) (key : ForensicKey P) (exp : ExportShape N)
    (calls : List EventTimeline) : Set Bytes :=
  {b | b = P.fromBase64url exp.forensicPubkey ∨ b = key.publicKeyRaw ∨ Hashed P exp.events b ∨
    ∃ timeline ∈ calls, Hashed P (eventValues P timeline) b}

def SignedIn (P : Platform N) (key : ForensicKey P) (signature : Bytes)
    (calls : List EventTimeline) : Prop :=
  ∃ timeline ∈ calls, ∃ chain, computeChain P (eventValues P timeline) = some chain ∧
    signature = key.sign chain

theorem sealed_accepted (key : ForensicKey P) (timeline : EventTimeline) :
    ∃ exp, sealTimeline P key timeline = some exp ∧
      ∀ file text v, P.parse text = some v → Json.Same v (exp.toJson P) →
        ∃ verdict, verifyExport P (fingerprintOf P key.publicKeyRaw) file (some text) =
          some verdict ∧ verdict.code = 0 := by
  obtain ⟨chain, hchain⟩ := exists_computeChain P timeline
  refine ⟨_, by rw [sealTimeline, hchain]; rfl, ?_⟩
  intro file text v hparse hsame
  obtain ⟨items, hshape, hitems⟩ := shapeOf_same hsame
  apply verifyExport_accepts
  constructor
  · rw [recordedFingerprint_fingerprintOf]
    exact fingerprintForm_fingerprintOf _
  · rw [hparse]
    exact hshape
  · rw [P.fromBase64url_base64url]
    exact key.length_publicKeyRaw
  · rw [P.fromBase64url_base64url, recordedFingerprint_fingerprintOf]
  · exact (computeChain_same hitems).trans hchain
  · rfl
  · rw [P.fromBase64url_base64url, P.fromBase64url_base64url]
    have hlength := length_computeChain hchain
    exact (key.verify_sign chain chain hlength hlength).mpr rfl

theorem accepted_sealed (key : ForensicKey P) {calls : List EventTimeline} {verdict : Verdict}
    {exp : ExportShape N} (hverify : verifyExport P recorded file (some text) = some verdict)
    (hcode : verdict.code = 0)
    (hrecorded : recordedFingerprint recorded = fingerprintOf P key.publicKeyRaw)
    (hshape : (P.parse text).bind shapeOf = some exp)
    (hsigned : SignedIn P key (P.fromBase64url exp.rootSignature) calls)
    (hinj : Set.InjOn P.sha256 (SealHashed P key exp calls)) :
    ∃ timeline ∈ calls, List.Forall₂ Json.Same exp.events (eventValues P timeline) := by
  obtain ⟨exp', head, hchecked⟩ := verifyExport_checked hverify hcode
  obtain rfl : exp = exp' := Option.some.inj (hshape.symm.trans hchecked.shape)
  obtain ⟨timeline, htimeline, chain, hchain, hsignature⟩ := hsigned
  have hkey : P.fromBase64url exp.forensicPubkey = key.publicKeyRaw :=
    fingerprintOf_injOn hinj (Or.inl rfl) (Or.inr (Or.inl rfl))
      (hchecked.fingerprint.trans hrecorded)
  -- The signature verifies over the head of the file, and was made for that of the timeline.
  have hsame : head = chain := by
    have hverified := hchecked.signature
    rw [hkey, hsignature] at hverified
    exact (key.verify_sign chain head (length_computeChain hchain)
      (length_computeChain hchecked.chain)).mp hverified
  refine ⟨timeline, htimeline, computeChain_injective (hinj.mono ?_) hchecked.chain ?_⟩
  · intro b hb
    rcases hb with hfile | hsealed
    · exact Or.inr (Or.inr (Or.inl hfile))
    · exact Or.inr (Or.inr (Or.inr ⟨timeline, htimeline, hsealed⟩))
  · rw [hsame]
    exact hchain

end verifier

/-- Equal heads have equal events; what was sealed verifies; what verifies was sealed. -/
theorem seal_tamper_evident {N : Type} (P : Platform N) (key : ForensicKey P) :
    (∀ timeline timeline' : EventTimeline,
      Set.InjOn P.sha256
        {b | Hashed P (eventValues P timeline) b ∨ Hashed P (eventValues P timeline') b} →
      computeChain P (eventValues P timeline) = computeChain P (eventValues P timeline') →
      timeline.events = timeline'.events) ∧
    (∀ timeline, ∃ exp, sealTimeline P key timeline = some exp ∧
      ∀ file text v, P.parse text = some v → Json.Same v (exp.toJson P) →
        ∃ verdict, verifyExport P (fingerprintOf P key.publicKeyRaw) file (some text) =
          some verdict ∧ verdict.code = 0) ∧
    ∀ calls recorded file text verdict exp,
      verifyExport P recorded file (some text) = some verdict → verdict.code = 0 →
      recordedFingerprint recorded = fingerprintOf P key.publicKeyRaw →
      (P.parse text).bind shapeOf = some exp →
      SignedIn P key (P.fromBase64url exp.rootSignature) calls →
      Set.InjOn P.sha256 (SealHashed P key exp calls) →
      ∃ timeline ∈ calls, List.Forall₂ Json.Same exp.events (eventValues P timeline) := by
  refine ⟨?_, sealed_accepted key, ?_⟩
  · intro timeline timeline' hinj hheads
    obtain ⟨chain, hchain⟩ := exists_computeChain P timeline
    have hsame := computeChain_injective hinj hchain (hheads ▸ hchain)
    rw [eventValues, eventValues, List.forall₂_map_left_iff, List.forall₂_map_right_iff] at hsame
    exact List.forall₂_eq_eq_eq ▸ hsame.imp fun _ _ => toJson_injective P.number_injective
  · intro calls recorded file text verdict exp hverify hcode hrecorded hshape hsigned hinj
    exact accepted_sealed key hverify hcode hrecorded hshape hsigned hinj

theorem ofNat_char (byte : UInt8) : UInt8.ofNat (Char.ofNat byte.toNat).toNat = byte := by
  have hlt := byte.toNat_lt
  have hvalid : byte.toNat.isValidChar := Or.inl (by omega)
  have hchar : (Char.ofNat byte.toNat).toNat = byte.toNat := by
    rw [Char.ofNat, dif_pos hvalid]
    rfl
  rw [hchar, UInt8.ofNat_toNat]

theorem toNat_injective : Function.Injective UInt32.toNat := fun _ _ => UInt32.toNat_inj.mp

/-- A digest that tells only lengths apart, and a signature that is the signed bytes. -/
def samplePlatform : Platform Nat where
  number := UInt32.toNat
  number_injective := toNat_injective
  sha256 := fun bytes => List.replicate 32 (UInt8.ofNat bytes.length)
  length_sha256 := fun _ => length_replicate
  canonicalize := fun v => some v.normal.write
  canonicalize_same := fun _ _ hsame => congrArg (fun v => some v.write) hsame
  canonicalize_injective := by
    intro v w text hv hw
    exact Json.write_injective (Option.some.inj (hv.trans hw.symm))
  canonicalize_event := fun _ => rfl
  base64url := fun bytes => String.ofList (bytes.map fun byte => Char.ofNat byte.toNat)
  fromBase64url := fun text => text.toList.map fun c => UInt8.ofNat c.toNat
  fromBase64url_base64url := by
    intro bytes
    rw [String.toList_ofList, map_map]
    calc bytes.map _ = bytes.map id := map_congr_left fun byte _ => ofNat_char byte
      _ = bytes := map_id bytes
  verify := fun _ signature bytes => decide (signature = bytes)
  parse := Json.read

def sampleKey : ForensicKey samplePlatform where
  publicKeyRaw := List.replicate 32 7
  sign := id
  length_publicKeyRaw := rfl
  verify_sign := by
    intro made given _ _
    exact decide_eq_true_iff.trans eq_comm

def sampleEvent : TimelineEvent :=
  ⟨"01970f6e-7c00-7000-8000-000000000001", "01970f6e-7c00-7000-8000-000000000000", 1, 4, "4",
    "cmd.exe", "cmd.exe", none, "2026-05-28 19:47:10.000000100"⟩

def sampleTimeline : EventTimeline := ⟨"01970f6e-7c00-7000-8000-000000000002", [sampleEvent]⟩

def sampleText : Bytes := utf8 (sampleEvent.toJson UInt32.toNat).normal.write

/-- The strings of the sample: nothing, the event's text, its link, and the key. -/
def sampleStrings : List Bytes :=
  [[], sampleText, samplePlatform.sha256 [] ++ samplePlatform.sha256 sampleText,
    List.replicate 32 7]

theorem sample_injOn {inputs : Set Bytes} (h : ∀ b ∈ inputs, b ∈ sampleStrings) :
    Set.InjOn samplePlatform.sha256 inputs := by
  have hall : ∀ b ∈ sampleStrings, ∀ b' ∈ sampleStrings,
      samplePlatform.sha256 b = samplePlatform.sha256 b' → b = b' := by decide +kernel
  intro b hb b' hb'
  exact hall b (h b hb) b' (h b' hb')

theorem hashed_of_one {text b : Bytes} (h : HashChain.Input samplePlatform.sha256 [text] b) :
    b ∈ [[], text, samplePlatform.sha256 [] ++ samplePlatform.sha256 text] := by
  cases h with
  | empty => exact mem_cons_self
  | item hmem =>
    rw [mem_singleton.mp hmem]
    exact mem_cons_of_mem _ mem_cons_self
  | @link front item hfront =>
    have hlength := hfront.length_le
    simp only [length_append, length_singleton] at hlength
    obtain rfl : front = [] := eq_nil_of_length_eq_zero (by omega)
    obtain ⟨tail, htail⟩ := hfront
    cases htail
    exact mem_cons_of_mem _ (mem_cons_of_mem _ mem_cons_self)

theorem sample_hashed {b : Bytes}
    (h : Hashed samplePlatform (eventValues samplePlatform sampleTimeline) b) :
    b ∈ sampleStrings := by
  obtain ⟨texts, htexts, hinput⟩ := h
  obtain rfl : [sampleText] = texts := Option.some.inj htexts
  exact mem_append_left [List.replicate 32 7] (hashed_of_one hinput)

theorem sample_hashed_nil {b : Bytes} (h : Hashed samplePlatform [] b) : b ∈ sampleStrings := by
  obtain ⟨texts, htexts, hinput⟩ := h
  cases htexts
  cases hinput with
  | empty => exact mem_cons_self
  | item hmem => cases hmem
  | link hfront =>
    have hlength := hfront.length_le
    simp at hlength

/-- The sealed timeline, written to a file and read back, is accepted. -/
theorem sample_seal_tamper_evident : ∃ chain exp verdict shape,
    computeChain samplePlatform (eventValues samplePlatform sampleTimeline) = some chain ∧
    computeChain samplePlatform
      (eventValues samplePlatform ⟨sampleTimeline.incidentId, []⟩) ≠ some chain ∧
    sealTimeline samplePlatform sampleKey sampleTimeline = some exp ∧
    verifyExport samplePlatform (fingerprintOf samplePlatform sampleKey.publicKeyRaw) "export.json"
      (some (exp.toJson samplePlatform).write) = some verdict ∧ verdict.code = 0 ∧
    (samplePlatform.parse (exp.toJson samplePlatform).write).bind shapeOf = some shape ∧
    ∃ timeline ∈ [sampleTimeline],
      List.Forall₂ Json.Same shape.events (eventValues samplePlatform timeline) := by
  obtain ⟨chain, hchain⟩ := exists_computeChain samplePlatform sampleTimeline
  obtain ⟨hheads, hsealed, haccepted⟩ := seal_tamper_evident samplePlatform sampleKey
  obtain ⟨exp, hseal, hverifies⟩ := hsealed sampleTimeline
  have hparse : samplePlatform.parse (exp.toJson samplePlatform).write = some _ :=
    Json.read_write _
  obtain ⟨verdict, hverdict, hcode⟩ := hverifies "export.json" _ _ hparse rfl
  have hshape := congrArg (Option.bind · shapeOf) hparse
  have hexp := hseal
  rw [sealTimeline, hchain] at hexp
  have hsame : sampleTimeline.events = exp.events :=
    congrArg ForensicExport.events (Option.some.inj hexp)
  have hsignature : exp.rootSignature = samplePlatform.base64url chain :=
    congrArg ForensicExport.rootSignature (Option.some.inj hexp).symm
  have hpubkey : exp.forensicPubkey = samplePlatform.base64url sampleKey.publicKeyRaw :=
    congrArg ForensicExport.forensicPubkey (Option.some.inj hexp).symm
  refine ⟨chain, exp, verdict, _, hchain, ?_, hseal, hverdict, hcode, hshape, ?_⟩
  · intro hempty
    have hevents := hheads sampleTimeline ⟨sampleTimeline.incidentId, []⟩ ?_
      (hchain.trans hempty.symm)
    · cases hevents
    · apply sample_injOn
      rintro b (hone | hnone)
      · exact sample_hashed hone
      · exact sample_hashed_nil hnone
  · refine haccepted [sampleTimeline] _ "export.json" _ verdict _ hverdict hcode
      (recordedFingerprint_fingerprintOf _) hshape ⟨sampleTimeline, by simp, chain, hchain, ?_⟩ ?_
    · exact hsignature ▸ samplePlatform.fromBase64url_base64url chain
    · have hkey : sampleKey.publicKeyRaw ∈ sampleStrings :=
        mem_append_right [_, _, _] (mem_singleton.mpr rfl)
      apply sample_injOn
      rintro b (hb | hb | hevents | ⟨timeline, htimeline, hevents⟩)
      · rw [hb, show (_ : ExportShape Nat).forensicPubkey = _ from hpubkey,
          samplePlatform.fromBase64url_base64url]
        exact hkey
      · exact hb ▸ hkey
      · rw [show (_ : ExportShape Nat).events = exp.events.map _ from rfl, ← hsame] at hevents
        exact sample_hashed hevents
      · rw [mem_singleton.mp htimeline] at hevents
        exact sample_hashed hevents

end CyberGuard.Forensic
