import CyberGuard.Service.Migration
import CyberGuard.Shared.SortedSets
import Mathlib.Data.String.Basic

/-!
# The start arguments of a migration

Every argument is a choice or a fingerprint. The request is the one choice and the set of the
fingerprints, so neither the order of the arguments nor a repeated fingerprint is in it, and
the record of a migration is compared with a later request as a choice and a set.
-/

namespace CyberGuard.Service.StartArguments
set_option autoImplicit false
open Checks SortedSets List

def stripPrefix (text start : String) : Option String :=
  if startsWith text start then some (String.ofList (text.toList.drop start.length)) else none

def isLowerHex (c : Char) : Bool := ('0' ≤ c && c ≤ '9') || ('a' ≤ c && c ≤ 'f')

/-- `sha256:` and 64 lowercase hexadecimal digits. The digits are ASCII, so their characters are
their bytes. -/
def isFingerprint (value : String) : Bool :=
  (stripPrefix value "sha256:").any fun digits =>
    digits.length == 64 && digits.toList.all isLowerHex

def parseChoice (value : String) : Option Choice :=
  if value = "remove" then some .remove else if value = "keep" then some .keep else none

structure Given where
  choice : Option Choice
  fingerprints : List String
  deriving DecidableEq

def takeArgument (given : Given) (argument : String) : Except String Given :=
  match stripPrefix argument "--migrate-legacy=", stripPrefix argument "--trust-anchor-sha256=" with
  | some value, _ => do
    let parsed ← okOr (parseChoice value)
      (invalidArguments "--migrate-legacy is not remove or keep")
    refuseIf given.choice.isSome (invalidArguments "--migrate-legacy is given more than once")
    return { given with choice := some parsed }
  | none, some value => do
    refuseIf (!isFingerprint value) (invalidArguments
      "--trust-anchor-sha256 is not sha256: and 64 lowercase hexadecimal digits")
    return { given with fingerprints := SortedSets.insert value given.fingerprints }
  | none, none =>
    .error (invalidArguments
      "a start argument is neither --migrate-legacy nor --trust-anchor-sha256")

def takeArguments : Given → List String → Except String Given
  | given, [] => .ok given
  | given, argument :: rest => do
    let given ← takeArgument given argument
    takeArguments given rest

def parseStartArguments (arguments : List String) : Except String (Option Request) :=
  if arguments.isEmpty then .ok none
  else do
    let given ← takeArguments ⟨none, []⟩ arguments
    let choice ← okOr given.choice
      (invalidArguments "--trust-anchor-sha256 is given without --migrate-legacy")
    refuseIf given.fingerprints.isEmpty
      (invalidArguments "--migrate-legacy is given without --trust-anchor-sha256")
    return some ⟨choice, given.fingerprints⟩

def choiceArgument : Choice → String
  | .remove => "--migrate-legacy=remove"
  | .keep => "--migrate-legacy=keep"

def IsChoice (argument : String) : Prop :=
  argument = "--migrate-legacy=remove" ∨ argument = "--migrate-legacy=keep"

instance (argument : String) : Decidable (IsChoice argument) :=
  inferInstanceAs (Decidable (_ ∨ _))

def IsAnchor (argument : String) : Prop :=
  ∃ digits : List Char, digits.length = 64 ∧ (∀ c ∈ digits, isLowerHex c = true) ∧
    argument = "--trust-anchor-sha256=sha256:" ++ String.ofList digits

/-- One choice, at least one fingerprint and nothing else. -/
structure Asks (arguments : List String) : Prop where
  choice : arguments.countP IsChoice = 1
  anchor : ∃ argument ∈ arguments, IsAnchor argument
  others : ∀ argument ∈ arguments, IsChoice argument ∨ IsAnchor argument

/-- The arguments in another order, with fingerprints repeated. -/
inductive Respelled : List String → List String → Prop where
  | perm {arguments arguments' : List String} : arguments.Perm arguments' →
      Respelled arguments arguments'
  | again {arguments : List String} {argument : String} : argument ∈ arguments →
      IsAnchor argument → Respelled arguments (argument :: arguments)
  | trans {first second third : List String} :
      Respelled first second → Respelled second third → Respelled first third

def choiceOf (argument : String) : Option Choice :=
  (stripPrefix argument "--migrate-legacy=").bind parseChoice

def anchorOf (argument : String) : Option String :=
  (stripPrefix argument "--trust-anchor-sha256=").filter isFingerprint

section Forms
variable {argument text start value : String} {given given' : Given}

theorem startsWith_iff : startsWith text start = true ↔ ∃ value, text = start ++ value := by
  rw [startsWith, isPrefixOf_iff_prefix]
  constructor
  · rintro ⟨rest, hrest⟩
    refine ⟨String.ofList rest, String.toList_inj.mp ?_⟩
    rw [String.toList_append, String.toList_ofList, hrest]
  · rintro ⟨value, rfl⟩
    rw [String.toList_append]
    exact prefix_append _ _

theorem stripPrefix_eq_some : stripPrefix text start = some value ↔ text = start ++ value := by
  unfold stripPrefix
  constructor
  · intro h
    split at h
    · rename_i hstarts
      obtain ⟨rest, rfl⟩ := startsWith_iff.mp hstarts
      cases h
      rw [String.toList_append, ← String.length_toList, drop_left, String.ofList_toList]
    · cases h
  · rintro rfl
    rw [if_pos (startsWith_iff.mpr ⟨value, rfl⟩), String.toList_append, ← String.length_toList,
      drop_left, String.ofList_toList]

theorem stripPrefix_anchor_of_choice (h : (stripPrefix argument "--migrate-legacy=").isSome) :
    stripPrefix argument "--trust-anchor-sha256=" = none := by
  obtain ⟨value, hvalue⟩ := Option.isSome_iff_exists.mp h
  rw [stripPrefix_eq_some] at hvalue
  rw [Option.eq_none_iff_forall_ne_some]
  intro value' hvalue'
  rw [stripPrefix_eq_some, hvalue] at hvalue'
  have hlists := congrArg String.toList hvalue'
  simp at hlists

theorem choiceOf_eq_some {choice : Choice} :
    choiceOf argument = some choice ↔ argument = choiceArgument choice := by
  rw [choiceOf, Option.bind_eq_some_iff]
  simp only [stripPrefix_eq_some]
  constructor
  · rintro ⟨value, rfl, hparse⟩
    unfold parseChoice at hparse
    split at hparse
    · rename_i hvalue
      cases hparse
      rw [hvalue]
      rfl
    · split at hparse
      · rename_i hvalue
        cases hparse
        rw [hvalue]
        rfl
      · cases hparse
  · rintro rfl
    cases choice with
    | remove => exact ⟨"remove", rfl, rfl⟩
    | keep => exact ⟨"keep", rfl, rfl⟩

theorem isFingerprint_iff : isFingerprint value = true ↔ ∃ digits : List Char,
    digits.length = 64 ∧ (∀ c ∈ digits, isLowerHex c = true) ∧
      value = "sha256:" ++ String.ofList digits := by
  rw [isFingerprint, Option.any_eq_true]
  simp only [stripPrefix_eq_some, Bool.and_eq_true, beq_iff_eq, all_eq_true]
  constructor
  · rintro ⟨digits, rfl, hlength, hdigits⟩
    exact ⟨digits.toList, hlength, hdigits, by rw [String.ofList_toList]⟩
  · rintro ⟨digits, hlength, hdigits, rfl⟩
    refine ⟨String.ofList digits, rfl, ?_, ?_⟩
    · rw [String.length_ofList, hlength]
    · rw [String.toList_ofList]
      exact hdigits

theorem anchorOf_eq_some : anchorOf argument = some value ↔
    isFingerprint value = true ∧ argument = "--trust-anchor-sha256=" ++ value := by
  rw [anchorOf, Option.filter_eq_some_iff, stripPrefix_eq_some]
  exact and_comm

theorem isChoice_iff : IsChoice argument ↔ (choiceOf argument).isSome := by
  rw [Option.isSome_iff_exists]
  simp only [choiceOf_eq_some]
  constructor
  · rintro (rfl | rfl)
    · exact ⟨.remove, rfl⟩
    · exact ⟨.keep, rfl⟩
  · rintro ⟨choice, rfl⟩
    cases choice with
    | remove => exact Or.inl rfl
    | keep => exact Or.inr rfl

theorem isAnchor_iff : IsAnchor argument ↔ (anchorOf argument).isSome := by
  rw [Option.isSome_iff_exists]
  simp only [anchorOf_eq_some, isFingerprint_iff]
  constructor
  · rintro ⟨digits, hlength, hdigits, rfl⟩
    refine ⟨_, ⟨digits, hlength, hdigits, rfl⟩, ?_⟩
    rw [← String.append_assoc]
    rfl
  · rintro ⟨_, ⟨digits, hlength, hdigits, rfl⟩, rfl⟩
    refine ⟨digits, hlength, hdigits, ?_⟩
    rw [← String.append_assoc]
    rfl

theorem takeArgument_eq_ok : takeArgument given argument = .ok given' ↔
    (∃ choice, choiceOf argument = some choice ∧ given.choice = none ∧
      given' = { given with choice := some choice }) ∨
    (∃ value, anchorOf argument = some value ∧
      given' = { given with fingerprints := SortedSets.insert value given.fingerprints }) := by
  unfold takeArgument choiceOf anchorOf
  cases hchoice : stripPrefix argument "--migrate-legacy=" with
  | some value =>
    rw [stripPrefix_anchor_of_choice (by rw [hchoice]; rfl)]
    simp only [bind_eq_ok, okOr_eq_ok, refuseIf_eq_ok, pure_eq_ok, Option.bind_some,
      Option.filter_none, reduceCtorEq, false_and, exists_false, or_false]
    constructor
    · rintro ⟨choice, hparse, _, hfirst, rfl⟩
      exact ⟨choice, hparse, by simpa using hfirst, rfl⟩
    · rintro ⟨choice, hparse, hfirst, rfl⟩
      exact ⟨choice, hparse, (), by rw [hfirst]; rfl, rfl⟩
  | none =>
    cases hanchor : stripPrefix argument "--trust-anchor-sha256=" with
    | none => simp
    | some value =>
      simp only [bind_eq_ok, refuseIf_eq_ok, pure_eq_ok, Option.bind_none, reduceCtorEq,
        false_and, exists_false, false_or, Option.filter_eq_some_iff, Bool.not_eq_false']
      constructor
      · rintro ⟨_, hvalid, rfl⟩
        exact ⟨value, ⟨rfl, hvalid⟩, rfl⟩
      · rintro ⟨value', ⟨heq, hvalid⟩, rfl⟩
        cases heq
        exact ⟨(), hvalid, rfl⟩

end Forms

section Arguments
variable {arguments arguments' : List String} {given given' : Given} {request request' : Request}

theorem choiceOf_of_anchor {argument value : String} (h : anchorOf argument = some value) :
    choiceOf argument = none := by
  cases hchoice : stripPrefix argument "--migrate-legacy=" with
  | none => rw [choiceOf, hchoice, Option.bind_none]
  | some value =>
    rw [anchorOf, stripPrefix_anchor_of_choice (by rw [hchoice]; rfl)] at h
    cases h

theorem anchorOf_of_choice {argument : String} {choice : Choice}
    (h : choiceOf argument = some choice) : anchorOf argument = none := by
  cases hanchor : anchorOf argument with
  | none => rfl
  | some value =>
    rw [choiceOf_of_anchor hanchor] at h
    cases h

theorem toList_inj {a b : Option Choice} : a.toList = b.toList ↔ a = b := by
  cases a <;> cases b <;> simp

/-- The choices there are make at most one, the fingerprints are collected in their set. -/
theorem takeArguments_eq_ok : takeArguments given arguments = .ok given' ↔
    (∀ argument ∈ arguments, (choiceOf argument).isSome ∨ (anchorOf argument).isSome) ∧
    given'.choice.toList = given.choice.toList ++ arguments.filterMap choiceOf ∧
    given'.fingerprints = (arguments.filterMap anchorOf).foldl
      (fun set value => SortedSets.insert value set) given.fingerprints := by
  induction arguments generalizing given with
  | nil =>
    obtain ⟨choice, fingerprints⟩ := given
    obtain ⟨choice', fingerprints'⟩ := given'
    simp only [takeArguments, Except.ok.injEq, Given.mk.injEq, not_mem_nil, false_imp_iff,
      implies_true, filterMap_nil, append_nil, foldl_nil, true_and, toList_inj]
    rw [eq_comm, eq_comm (a := fingerprints)]
  | cons argument rest ih =>
    rw [takeArguments, bind_eq_ok]
    simp only [takeArgument_eq_ok, forall_mem_cons]
    constructor
    · rintro ⟨next, ⟨choice, hchoice, hfirst, rfl⟩ | ⟨value, hanchor, rfl⟩, hrest⟩
      · obtain ⟨hforms, hchoices, hset⟩ := ih.mp hrest
        refine ⟨⟨Or.inl (by rw [hchoice]; rfl), hforms⟩, ?_, ?_⟩
        · rw [hchoices, hfirst, filterMap_cons_some hchoice]
          rfl
        · rw [hset, filterMap_cons_none (anchorOf_of_choice hchoice)]
      · obtain ⟨hforms, hchoices, hset⟩ := ih.mp hrest
        refine ⟨⟨Or.inr (by rw [hanchor]; rfl), hforms⟩, ?_, ?_⟩
        · rw [hchoices, filterMap_cons_none (choiceOf_of_anchor hanchor)]
        · rw [hset, filterMap_cons_some hanchor]
          rfl
    · rintro ⟨⟨hform, hforms⟩, hchoices, hset⟩
      cases hchoice : choiceOf argument with
      | some choice =>
        rw [filterMap_cons_some hchoice] at hchoices
        rw [filterMap_cons_none (anchorOf_of_choice hchoice)] at hset
        have hfirst : given.choice = none := by
          cases hbefore : given.choice with
          | none => rfl
          | some earlier =>
            rw [hbefore] at hchoices
            cases hafter : given'.choice with
            | none | some =>
              rw [hafter] at hchoices
              cases hchoices
        refine ⟨_, Or.inl ⟨choice, rfl, hfirst, rfl⟩, ih.mpr ⟨hforms, ?_, hset⟩⟩
        rw [hchoices, hfirst]
        rfl
      | none =>
        rw [hchoice] at hform
        obtain ⟨value, hanchor⟩ := Option.isSome_iff_exists.mp
          (hform.resolve_left Bool.false_ne_true)
        rw [filterMap_cons_none hchoice] at hchoices
        rw [filterMap_cons_some hanchor] at hset
        exact ⟨_, Or.inr ⟨value, hanchor, rfl⟩, ih.mpr ⟨hforms, hchoices, hset⟩⟩

theorem parseStartArguments_eq_ok : parseStartArguments arguments = .ok (some request) ↔
    (∀ argument ∈ arguments, (choiceOf argument).isSome ∨ (anchorOf argument).isSome) ∧
    arguments.filterMap choiceOf = [request.choice] ∧ arguments.filterMap anchorOf ≠ [] ∧
    request.fingerprints = setOf (arguments.filterMap anchorOf) := by
  cases arguments with
  | nil => simp [parseStartArguments]
  | cons first rest =>
    have hparse : parseStartArguments (first :: rest) = .ok (some request) ↔
        ∃ given, takeArguments ⟨none, []⟩ (first :: rest) = .ok given ∧
          given.choice = some request.choice ∧ given.fingerprints ≠ [] ∧
          given.fingerprints = request.fingerprints := by
      rw [parseStartArguments, if_neg (by simp)]
      simp only [bind_eq_ok, okOr_eq_ok, refuseIf_eq_ok, pure_eq_ok, Option.some.injEq,
        isEmpty_eq_false_iff]
      constructor
      · rintro ⟨given, htaken, choice, hchoice, _, hsome, rfl⟩
        exact ⟨given, htaken, hchoice, hsome, rfl⟩
      · rintro ⟨given, htaken, hchoice, hsome, hset⟩
        exact ⟨given, htaken, request.choice, hchoice, (), hsome, by rw [hset]⟩
    rw [hparse]
    simp only [takeArguments_eq_ok]
    constructor
    · rintro ⟨given, ⟨hforms, hchoices, hset⟩, hchoice, hsome, hrequest⟩
      rw [hchoice] at hchoices
      refine ⟨hforms, hchoices.symm, ?_, hrequest.symm.trans hset⟩
      intro hnone
      rw [hset, hnone] at hsome
      exact hsome rfl
    · rintro ⟨hforms, hchoices, hsome, hset⟩
      refine ⟨⟨some request.choice, request.fingerprints⟩, ⟨hforms, hchoices.symm, hset⟩, rfl, ?_,
        rfl⟩
      rw [hset]
      exact mt setOf_eq_nil.mp hsome

theorem countP_isChoice (arguments : List String) :
    arguments.countP IsChoice = (arguments.filterMap choiceOf).length := by
  rw [length_filterMap_eq_countP]
  refine countP_congr ?_
  intro argument _
  rw [decide_eq_true_iff]
  exact isChoice_iff

theorem exists_request_iff :
    (∃ request, parseStartArguments arguments = .ok (some request)) ↔ Asks arguments := by
  simp only [parseStartArguments_eq_ok]
  constructor
  · rintro ⟨request, hforms, hchoices, hanchors, -⟩
    obtain ⟨value, hvalue⟩ := exists_mem_of_ne_nil _ hanchors
    obtain ⟨argument, hmem, hanchor⟩ := mem_filterMap.mp hvalue
    refine ⟨?_, ⟨argument, hmem, ?_⟩, ?_⟩
    · rw [countP_isChoice, hchoices]
      rfl
    · rw [isAnchor_iff, hanchor]
      rfl
    · intro argument hmem
      rw [isChoice_iff, isAnchor_iff]
      exact hforms argument hmem
  · rintro ⟨hchoice, ⟨argument, hmem, hanchor⟩, hothers⟩
    rw [countP_isChoice, length_eq_one_iff] at hchoice
    obtain ⟨choice, hchoices⟩ := hchoice
    refine ⟨⟨choice, setOf (arguments.filterMap anchorOf)⟩, ?_, hchoices, ?_, rfl⟩
    · intro argument hmem
      rw [← isChoice_iff, ← isAnchor_iff]
      exact hothers argument hmem
    · obtain ⟨value, hvalue⟩ := Option.isSome_iff_exists.mp (isAnchor_iff.mp hanchor)
      exact ne_nil_of_mem (mem_filterMap.mpr ⟨argument, hmem, hvalue⟩)

/-- Arguments that make the same members, with the choices in any order, are the same. -/
theorem parse_congr (hmem : ∀ argument, argument ∈ arguments ↔ argument ∈ arguments')
    (hchoices : (arguments.filterMap choiceOf).Perm (arguments'.filterMap choiceOf)) :
    parseStartArguments arguments = .ok (some request) ↔
      parseStartArguments arguments' = .ok (some request) := by
  have hanchors : ∀ value, value ∈ arguments.filterMap anchorOf ↔
      value ∈ arguments'.filterMap anchorOf := by
    intro value
    rw [mem_filterMap, mem_filterMap]
    simp only [hmem]
  have hnil : arguments.filterMap anchorOf = [] ↔ arguments'.filterMap anchorOf = [] := by
    rw [← setOf_eq_nil, setOf_eq_iff.mpr hanchors, setOf_eq_nil]
  have hone : arguments.filterMap choiceOf = [request.choice] ↔
      arguments'.filterMap choiceOf = [request.choice] := by
    constructor
    · intro h
      rw [h] at hchoices
      exact perm_singleton.mp hchoices.symm
    · intro h
      rw [h] at hchoices
      exact perm_singleton.mp hchoices
  rw [parseStartArguments_eq_ok, parseStartArguments_eq_ok, hone, setOf_eq_iff.mpr hanchors]
  simp only [hmem, ne_eq, hnil]

theorem Respelled.parse (h : Respelled arguments arguments') :
    parseStartArguments arguments = .ok (some request) ↔
      parseStartArguments arguments' = .ok (some request) := by
  induction h with
  | perm hperm => exact parse_congr (fun _ => hperm.mem_iff) (hperm.filterMap choiceOf)
  | @again arguments argument hmem hanchor =>
    apply parse_congr
    · intro other
      rw [mem_cons]
      constructor
      · exact Or.inr
      · rintro (rfl | hother)
        · exact hmem
        · exact hother
    · obtain ⟨value, hvalue⟩ := Option.isSome_iff_exists.mp (isAnchor_iff.mp hanchor)
      rw [filterMap_cons_none (choiceOf_of_anchor hvalue)]
  | trans _ _ ihfirst ihsecond => exact ihfirst.trans ihsecond

theorem mem_arguments_iff (h : parseStartArguments arguments = .ok (some request))
    {argument : String} : argument ∈ arguments ↔ argument = choiceArgument request.choice ∨
      ∃ value ∈ request.fingerprints, anchorOf argument = some value := by
  obtain ⟨hforms, hchoices, -, hset⟩ := parseStartArguments_eq_ok.mp h
  have hchoice : ∀ choice, choice ∈ arguments.filterMap choiceOf ↔ choice = request.choice := by
    intro choice
    rw [hchoices, mem_singleton]
  constructor
  · intro hmem
    rcases hforms argument hmem with hsome | hsome
    · obtain ⟨choice, hof⟩ := Option.isSome_iff_exists.mp hsome
      have heq := (hchoice choice).mp (mem_filterMap.mpr ⟨argument, hmem, hof⟩)
      rw [heq, choiceOf_eq_some] at hof
      exact Or.inl hof
    · obtain ⟨value, hof⟩ := Option.isSome_iff_exists.mp hsome
      refine Or.inr ⟨value, ?_, hof⟩
      rw [hset, mem_setOf]
      exact mem_filterMap.mpr ⟨argument, hmem, hof⟩
  · rintro (rfl | ⟨value, hvalue, hof⟩)
    · obtain ⟨argument, hmem, hof⟩ := mem_filterMap.mp ((hchoice request.choice).mpr rfl)
      rw [choiceOf_eq_some] at hof
      exact hof ▸ hmem
    · rw [hset, mem_setOf] at hvalue
      obtain ⟨argument', hmem, hof'⟩ := mem_filterMap.mp hvalue
      rw [anchorOf_eq_some] at hof hof'
      rw [hof.2, ← hof'.2]
      exact hmem

/-- Two accepted lists ask for the same exactly when they have the same members. -/
theorem request_eq_iff (h : parseStartArguments arguments = .ok (some request))
    (h' : parseStartArguments arguments' = .ok (some request')) :
    request' = request ↔ ∀ argument, argument ∈ arguments' ↔ argument ∈ arguments := by
  constructor
  · rintro rfl argument
    rw [mem_arguments_iff h, mem_arguments_iff h']
  · intro hmem
    obtain ⟨-, hchoices, -, hset⟩ := parseStartArguments_eq_ok.mp h
    obtain ⟨-, hchoices', -, hset'⟩ := parseStartArguments_eq_ok.mp h'
    have hfingerprints : request'.fingerprints = request.fingerprints := by
      rw [hset, hset']
      apply setOf_eq_iff.mpr
      intro value
      rw [mem_filterMap, mem_filterMap]
      simp only [hmem]
    have hchoice : request'.choice ∈ arguments.filterMap choiceOf := by
      have hself : request'.choice ∈ arguments'.filterMap choiceOf := by
        rw [hchoices']
        exact mem_singleton_self _
      obtain ⟨argument, hmem', hof⟩ := mem_filterMap.mp hself
      exact mem_filterMap.mpr ⟨argument, (hmem argument).mp hmem', hof⟩
    rw [hchoices, mem_singleton] at hchoice
    cases request
    cases request'
    exact Request.mk.injEq .. ▸ ⟨hchoice, hfingerprints⟩

theorem sameSet_iff {a b : List String} : sameSet a b = true ↔ ∀ x, x ∈ a ↔ x ∈ b := by
  rw [sameSet, Bool.and_eq_true, all_eq_true, all_eq_true]
  simp only [contains_iff_mem]
  constructor
  · rintro ⟨hab, hba⟩ x
    exact ⟨hab x, hba x⟩
  · intro h
    exact ⟨fun x hx => (h x).mp hx, fun x hx => (h x).mpr hx⟩

/-- The record's list is compared as a set, and a request's list is its set. -/
theorem asksFor_iff {record : Record} (hchoice : record.choice = request.choice)
    (hfingerprints : record.fingerprints = request.fingerprints)
    (h : parseStartArguments arguments = .ok (some request))
    (h' : parseStartArguments arguments' = .ok (some request')) :
    record.asksFor request' = true ↔ request' = request := by
  obtain ⟨-, -, -, hset⟩ := parseStartArguments_eq_ok.mp h
  obtain ⟨-, -, -, hset'⟩ := parseStartArguments_eq_ok.mp h'
  rw [Record.asksFor, Bool.and_eq_true, beq_iff_eq, sameSet_iff, hchoice, hfingerprints, hset,
    hset']
  simp only [mem_setOf]
  rw [← setOf_eq_iff, ← hset, ← hset']
  constructor
  · rintro ⟨hsame, hsets⟩
    cases request
    cases request'
    cases hsame
    cases hsets
    rfl
  · rintro rfl
    exact ⟨rfl, rfl⟩

end Arguments

/-- A request is exactly one choice and at least one fingerprint; order and repetition are not in
it; and a record recognises the later requests with its choice and its set. -/
theorem start_arguments_mean_a_set :
    (∀ arguments, (∃ request, parseStartArguments arguments = .ok (some request)) ↔
      Asks arguments) ∧
    (∀ arguments arguments', Respelled arguments arguments' → ∀ request,
      parseStartArguments arguments = .ok (some request) ↔
        parseStartArguments arguments' = .ok (some request)) ∧
    ∀ (B : Type) (H : Host B) (attempt : Attempt) (checked : Checked) (verified : Verified B)
      (arguments arguments' : List String) (request request' : Request),
      parseStartArguments arguments = .ok (some request) →
      parseStartArguments arguments' = .ok (some request') →
      ((newRecord H request attempt checked verified).asksFor request' = true ↔
        request' = request) ∧
      (request' = request ↔ ∀ argument, argument ∈ arguments' ↔ argument ∈ arguments) := by
  refine ⟨fun _ => exists_request_iff, fun _ _ h _ => h.parse, ?_⟩
  intro B H attempt checked verified arguments arguments' request request' h h'
  exact ⟨asksFor_iff rfl rfl h h', request_eq_iff h h'⟩

end CyberGuard.Service.StartArguments
