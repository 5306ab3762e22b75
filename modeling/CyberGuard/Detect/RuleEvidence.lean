import CyberGuard.Detect.ConditionGrammar
import CyberGuard.Detect.RuleParser

/-!
# What an accepted rule fires on

`parseRule` evaluates the condition once, with every block false, and checks that the blocks
and the names of the condition are the same. This is enough for every event: a condition that
is true of an event differs from that evaluation at a name, and the block of that name matched.
-/

namespace CyberGuard.Detect
set_option autoImplicit false
open Checks List

def Fits (value : String) : SigmaModifier → String → Prop
  | .exact, pattern => value = pattern
  | .endswith, pattern => ∃ before, value = before ++ pattern
  | .startswith, pattern => ∃ after, value = pattern ++ after
  | .contains, pattern => ∃ before after, value = before ++ pattern ++ after

section Meaning
variable (H : Host) (event : NormalizedProcessEvent)

def Satisfied (matcher : SigmaFieldMatcher) : Prop :=
  ∃ value, fieldValue matcher.field event = some value ∧
    ∃ pattern ∈ matcher.values, Fits (H.toLowerCase value) matcher.modifier pattern

def Matched (block : SigmaBlock) : Prop := ∀ matcher ∈ block.fields, Satisfied H event matcher

end Meaning

def Holds (matched : String → Prop) : ConditionAst → Prop
  | .ident name => matched name
  | .not operand => ¬ Holds matched operand
  | .and left right => Holds matched left ∧ Holds matched right
  | .or left right => Holds matched left ∨ Holds matched right

def SigmaModifier.suffix : SigmaModifier → String
  | .exact => ""
  | .endswith => "|endswith"
  | .startswith => "|startswith"
  | .contains => "|contains"

section Raw
variable (H : Host)

def WrittenMatcher (entry : String × Yaml) (matcher : SigmaFieldMatcher) : Prop :=
  entry.1 = matcher.field.text ++ matcher.modifier.suffix ∧
    ∃ patterns : List String, patterns ≠ [] ∧ listOf entry.2 = patterns.map .string ∧
      matcher.values = patterns.map H.toLowerCase

def WrittenBlock (entry : String × Yaml) (block : SigmaBlock) : Prop :=
  block.name = entry.1 ∧ block.fields ≠ [] ∧
    ∃ fields, entry.2 = .object fields ∧ List.Forall₂ (WrittenMatcher H) fields block.fields

def Written (raw : Yaml) (rule : SigmaRule) : Prop :=
  ∃ detection condition, (raw.member "detection").bind record = some detection ∧
    detection.lookup "condition" = some (.string condition) ∧
    (∃ tokens, Spells condition.toList tokens ∧ Derives .expr tokens rule.condition) ∧
    List.Forall₂ (WrittenBlock H) (detection.filter (·.1 ≠ "condition")) rule.blocks

end Raw

def KeysOnce (raw : Yaml) : Prop :=
  ∀ fields, raw.member "detection" = some (.object fields) → (fields.map Prod.fst).Nodup

section Evaluation
variable {H : Host} {event : NormalizedProcessEvent}

theorem matchOne_iff {value pattern : String} {modifier : SigmaModifier} :
    matchOne value modifier pattern = true ↔ Fits value modifier pattern := by
  have htexts : ∀ {texts : List Char}, value.toList = texts ↔ value = String.ofList texts := by
    intro texts
    rw [← String.toList_inj, String.toList_ofList]
  cases modifier with
  | exact => exact decide_eq_true_iff
  | endswith =>
    rw [matchOne, decide_eq_true_iff, Fits]
    constructor
    · rintro ⟨before, h⟩
      refine ⟨String.ofList before, ?_⟩
      rw [htexts.mp h.symm, String.ofList_append, String.ofList_toList]
    · rintro ⟨before, rfl⟩
      exact ⟨before.toList, (String.toList_append).symm⟩
  | startswith =>
    rw [matchOne, decide_eq_true_iff, Fits]
    constructor
    · rintro ⟨after, h⟩
      refine ⟨String.ofList after, ?_⟩
      rw [htexts.mp h.symm, String.ofList_append, String.ofList_toList]
    · rintro ⟨after, rfl⟩
      exact ⟨after.toList, (String.toList_append).symm⟩
  | contains =>
    rw [matchOne, decide_eq_true_iff, Fits]
    constructor
    · rintro ⟨before, after, h⟩
      refine ⟨String.ofList before, String.ofList after, ?_⟩
      rw [htexts.mp h.symm, String.ofList_append, String.ofList_append, String.ofList_toList]
    · rintro ⟨before, after, rfl⟩
      refine ⟨before.toList, after.toList, ?_⟩
      rw [String.toList_append, String.toList_append]

theorem matcherMatches_iff {matcher : SigmaFieldMatcher} :
    matcherMatches H matcher event = true ↔ Satisfied H event matcher := by
  unfold matcherMatches Satisfied
  cases fieldValue matcher.field event with
  | none => simp
  | some value => simp [matchOne_iff]

variable {block : SigmaBlock} {results : String → Option Bool} {tree : ConditionAst}
  {blocks : List SigmaBlock}

theorem blockMatches_iff :
    blockMatches H block event = true ↔ Matched H event block := by
  simp only [blockMatches, all_eq_true, matcherMatches_iff, Matched]

theorem evaluateCondition_congr {results' : String → Option Bool}
    (h : ∀ name, Occurs name tree → (results name).getD false = (results' name).getD false) :
    evaluateCondition results tree = evaluateCondition results' tree := by
  induction tree with
  | ident name => exact h name rfl
  | not operand ih => rw [evaluateCondition, ih h, evaluateCondition]
  | and left right ihl ihr =>
    rw [evaluateCondition, ihl fun name hname => h name (.inl hname),
      ihr fun name hname => h name (.inr hname), evaluateCondition]
  | or left right ihl ihr =>
    rw [evaluateCondition, ihl fun name hname => h name (.inl hname),
      ihr fun name hname => h name (.inr hname), evaluateCondition]

theorem evaluateCondition_iff {matched : String → Prop}
    (h : ∀ name, Occurs name tree → ((results name).getD false = true ↔ matched name)) :
    evaluateCondition results tree = true ↔ Holds matched tree := by
  induction tree with
  | ident name => exact h name rfl
  | not operand ih => rw [evaluateCondition, Holds, ← ih h, Bool.not_eq_true', Bool.not_eq_true]
  | and left right ihl ihr =>
    rw [evaluateCondition, Bool.and_eq_true, ihl fun name hname => h name (.inl hname),
      ihr fun name hname => h name (.inr hname), Holds]
  | or left right ihl ihr =>
    rw [evaluateCondition, Bool.or_eq_true, ihl fun name hname => h name (.inl hname),
      ihr fun name hname => h name (.inr hname), Holds]

theorem exists_of_evaluateCondition {none : String → Option Bool}
    (hnone : ∀ name, (none name).getD false = false) (hfalse : evaluateCondition none tree = false)
    (htrue : evaluateCondition results tree = true) :
    ∃ name, Occurs name tree ∧ (results name).getD false = true := by
  by_contra hall
  push Not at hall
  have hsame : evaluateCondition results tree = evaluateCondition none tree := by
    apply evaluateCondition_congr
    intro name hname
    rw [hnone, Bool.eq_false_iff]
    exact hall name hname
  rw [hsame, hfalse] at htrue
  cases htrue

theorem blockResults_append {name : String} :
    blockResults H (blocks ++ [block]) event name =
      if name = block.name then some (blockMatches H block event)
      else blockResults H blocks event name := by
  simp only [blockResults, foldl_append, foldl_cons, foldl_nil]

theorem blockResults_isSome {name : String} (h : name ∈ blocks.map SigmaBlock.name) :
    (blockResults H blocks event name).isSome := by
  induction blocks using List.reverseRecOn with
  | nil => cases h
  | append_singleton blocks block ih =>
    rw [blockResults_append]
    split
    · rfl
    · next hname =>
      apply ih
      simpa [hname] using h

theorem blockResults_eq (hnames : (blocks.map SigmaBlock.name).Nodup) (h : block ∈ blocks) :
    blockResults H blocks event block.name = some (blockMatches H block event) := by
  induction blocks using List.reverseRecOn with
  | nil => cases h
  | append_singleton blocks last ih =>
    rw [map_append, nodup_append] at hnames
    rw [blockResults_append]
    rcases mem_append.mp h with h | h
    · rw [if_neg (hnames.2.2 _ (mem_map_of_mem h) _ (by simp))]
      exact ih hnames.1 h
    · rw [mem_singleton.mp h, if_pos rfl]

theorem evaluateRule_isSome {rule : SigmaRule} (h : rule.logsourceCategory = "process_creation") :
    (evaluateRule H rule event).isSome ↔ event.activityId = 1 ∧
      evaluateCondition (blockResults H rule.blocks event) rule.condition = true := by
  unfold evaluateRule evaluateProcessCreation
  rw [if_pos h]
  by_cases hlaunch : event.activityId = 1
  · cases hcondition : evaluateCondition (blockResults H rule.blocks event) rule.condition with
    | false => simp
    | true => simp [hlaunch]
  · simp [hlaunch]

end Evaluation

section Acceptance
variable {H : Host} {T : RuleTexts} {raw : Yaml} {rule : SigmaRule}

theorem refuseEach_eq_ok {items : List String} {bad : String → Bool} {message : String → String}
    {u : Unit} : refuseEach items bad message = .ok u ↔ ∀ item ∈ items, bad item = false := by
  unfold refuseEach
  cases hfound : items.find? bad with
  | none => simpa [List.find?_eq_none] using hfound
  | some item =>
    have hbad := List.find?_some hfound
    have hmem := mem_of_find?_eq_some hfound
    constructor
    · rintro ⟨⟩
    · intro hall
      rw [hall item hmem] at hbad
      cases hbad

variable {block field key : String} {value : Yaml} {event : NormalizedProcessEvent}

theorem resolveField_eq_ok {text : String} {field : SigmaField}
    (h : resolveField text block = .ok field) : text = field.text := by
  unfold resolveField at h
  split at h
  · cases h
  split at h
  · next himage =>
    cases h
    exact himage
  split at h
  · next hparent =>
    cases h
    exact hparent
  · cases h

theorem resolveModifier_eq_ok {text : String} {modifier : SigmaModifier}
    (h : resolveModifier field text block = .ok modifier) : "|" ++ text = modifier.suffix := by
  unfold resolveModifier at h
  split at h
  · next htext =>
    cases h
    rw [htext]
    rfl
  split at h
  · next htext =>
    cases h
    rw [htext]
    rfl
  split at h
  · next htext =>
    cases h
    rw [htext]
    rfl
  split at h
  · cases h
  · cases h

theorem splitKey_none (h : (splitKey key).2 = none) : key = (splitKey key).1 := by
  unfold splitKey at h ⊢
  have hparts := takeWhile_append_dropWhile (p := (· ≠ '|')) (l := key.toList)
  split at h
  · next hrest =>
    rw [hrest, append_nil] at hparts
    rw [hparts, String.ofList_toList]
  · cases h

theorem splitKey_some {modifier : String} (h : (splitKey key).2 = some modifier) :
    key = (splitKey key).1 ++ ("|" ++ modifier) := by
  unfold splitKey at h ⊢
  have hparts := takeWhile_append_dropWhile (p := (· ≠ '|')) (l := key.toList)
  split at h
  · cases h
  · next c rest hrest =>
    have hpipe : c = '|' := by
      have hhead := List.head?_dropWhile_not (· ≠ '|') key.toList
      rw [hrest] at hhead
      simpa using hhead
    cases h
    rw [hrest, hpipe] at hparts
    rw [← String.toList_inj, String.toList_append, String.toList_append, String.toList_ofList]
    exact hparts.symm.trans (by simp)

theorem normalizeValue_eq_ok {pattern : String}
    (h : normalizeValue H field block value = .ok pattern) :
    ∃ text, value = .string text ∧ pattern = H.toLowerCase text := by
  cases value with
  | string text =>
    simp only [normalizeValue, bind_eq_ok, pure_eq_ok] at h
    obtain ⟨_, _, _, _, _, _, rfl⟩ := h
    exact ⟨text, rfl, rfl⟩
  | null | boolean | number | array | object => cases h

theorem normalizeValues_eq_ok {values : List String}
    (h : normalizeValues H field block value = .ok values) :
    ∃ patterns : List String, patterns ≠ [] ∧ listOf value = patterns.map .string ∧
      values = patterns.map H.toLowerCase := by
  simp only [normalizeValues, bind_eq_ok, refuseIf_eq_ok, mapM_eq_ok] at h
  obtain ⟨_, hne, hvalues⟩ := h
  have hpatterns : ∃ patterns : List String, listOf value = patterns.map .string ∧
      values = patterns.map H.toLowerCase := by
    generalize listOf value = items at hvalues
    clear hne
    induction hvalues with
    | nil => exact ⟨[], rfl, rfl⟩
    | cons hvalue _ ih =>
      obtain ⟨text, rfl, rfl⟩ := normalizeValue_eq_ok hvalue
      obtain ⟨patterns, rfl, rfl⟩ := ih
      exact ⟨text :: patterns, rfl, rfl⟩
  obtain ⟨patterns, hitems, hlower⟩ := hpatterns
  refine ⟨patterns, ?_, hitems, hlower⟩
  rintro rfl
  rw [hitems] at hne
  cases hne

theorem parseFieldMatcher_eq_ok {matcher : SigmaFieldMatcher}
    (h : parseFieldMatcher H block key value = .ok matcher) :
    WrittenMatcher H (key, value) matcher := by
  simp only [parseFieldMatcher, bind_eq_ok, pure_eq_ok] at h
  obtain ⟨_, _, field, hfield, modifier, hmodifier, values, hvalues, rfl⟩ := h
  refine ⟨?_, normalizeValues_eq_ok hvalues⟩
  rw [← resolveField_eq_ok hfield]
  cases htext : (splitKey key).2 with
  | none =>
    rw [htext] at hmodifier
    cases hmodifier
    exact (splitKey_none htext).trans String.append_empty.symm
  | some text =>
    rw [htext] at hmodifier
    rw [← resolveModifier_eq_ok hmodifier]
    exact splitKey_some htext

theorem parseBlock_eq_ok {entry : String × Yaml} {block : SigmaBlock}
    (h : parseBlock H entry.1 entry.2 = .ok block) : WrittenBlock H entry block := by
  obtain ⟨name, value⟩ := entry
  simp only [parseBlock, bind_eq_ok] at h
  obtain ⟨_, _, _, _, h⟩ := h
  cases value with
  | object entries =>
    simp only [bind_eq_ok, refuseIf_eq_ok, mapM_eq_ok, pure_eq_ok] at h
    obtain ⟨_, hne, fields, hfields, rfl⟩ := h
    refine ⟨rfl, ?_, entries, rfl, hfields.imp fun _ _ hmatcher => parseFieldMatcher_eq_ok hmatcher⟩
    rintro rfl
    cases hfields
    cases hne
  | null | boolean | number | string | array => cases h

/-- What `parseRule` has checked of the rule it returns. -/
structure Accepted (H : Host) (raw : Yaml) (rule : SigmaRule) : Prop where
  written : Written H raw rule
  category : rule.logsourceCategory = "process_creation"
  names : ∀ name, Occurs name rule.condition ↔ name ∈ rule.blocks.map SigmaBlock.name
  evidence : evaluateCondition (noBlockMatches rule.blocks) rule.condition = false

theorem ruleShellSchema_detection {shell : RuleShell} (h : ruleShellSchema raw = some shell) :
    (raw.member "detection").bind record = some shell.detection := by
  obtain ⟨_, _, h⟩ := Option.bind_eq_some_iff.mp h
  obtain ⟨_, _, h⟩ := Option.bind_eq_some_iff.mp h
  obtain ⟨_, _, h⟩ := Option.bind_eq_some_iff.mp h
  obtain ⟨_, _, h⟩ := Option.bind_eq_some_iff.mp h
  obtain ⟨_, _, h⟩ := Option.bind_eq_some_iff.mp h
  obtain ⟨detection, hdetection, h⟩ := Option.bind_eq_some_iff.mp h
  obtain ⟨_, _, h⟩ := Option.bind_eq_some_iff.mp h
  obtain ⟨_, _, h⟩ := Option.bind_eq_some_iff.mp h
  obtain ⟨_, _, h⟩ := Option.bind_eq_some_iff.mp h
  obtain ⟨_, _, h⟩ := Option.bind_eq_some_iff.mp h
  obtain ⟨_, _, h⟩ := Option.bind_eq_some_iff.mp h
  obtain ⟨_, _, h⟩ := Option.bind_eq_some_iff.mp h
  cases h
  exact hdetection

theorem parseRule_eq_ok (h : parseRule H T raw = .ok rule) : Accepted H raw rule := by
  simp only [parseRule, bind_eq_ok, okOr_eq_ok, refuseIf_eq_ok, mapM_eq_ok, refuseEach_eq_ok,
    pure_eq_ok, parseCondition_eq_ok] at h
  obtain ⟨shell, hshell, _, _, _, hcategory, condition, hcondition, _, _, blocks, hblocks, _, _,
    parsed, ⟨htokens, hidentifiers⟩, _, hdefined, _, hreferenced, _, hevidence, rfl⟩ := h
  refine ⟨⟨shell.detection, condition, ruleShellSchema_detection hshell, ?_, htokens, ?_⟩, ?_, ?_,
    hevidence⟩
  · unfold stringOf at hcondition
    split at hcondition
    · next text htext =>
      cases hcondition
      exact htext
    · cases hcondition
  · exact hblocks.imp fun _ _ hblock => parseBlock_eq_ok hblock
  · simpa using hcategory
  · intro name
    have hnames : name ∈ parsed.identifiers ↔ Occurs name parsed.ast := by
      rw [hidentifiers, mem_collectIdentifiers]
      simp
    rw [← hnames]
    constructor
    · intro hname
      simpa using hdefined name hname
    · intro hname
      simpa using hreferenced name hname

theorem names_of_written {entries : List (String × Yaml)} {blocks : List SigmaBlock}
    (h : List.Forall₂ (WrittenBlock H) entries blocks) :
    blocks.map SigmaBlock.name = entries.map Prod.fst := by
  induction h with
  | nil => rfl
  | cons hblock _ ih => rw [map_cons, map_cons, ih, hblock.1]

theorem fields_of_written {entries : List (String × Yaml)} {blocks : List SigmaBlock}
    (h : List.Forall₂ (WrittenBlock H) entries blocks) {block : SigmaBlock}
    (hblock : block ∈ blocks) : block.fields ≠ [] := by
  induction h with
  | nil => cases hblock
  | cons hfirst _ ih =>
    rcases mem_cons.mp hblock with rfl | hrest
    · exact hfirst.2.1
    · exact ih hrest

theorem Accepted.names_nodup (h : Accepted H raw rule) (hkeys : KeysOnce raw) :
    (rule.blocks.map SigmaBlock.name).Nodup := by
  obtain ⟨detection, condition, hdetection, _, _, hblocks⟩ := h.written
  rw [names_of_written hblocks]
  rw [Option.bind_eq_some_iff] at hdetection
  obtain ⟨value, hvalue, hrecord⟩ := hdetection
  unfold record at hrecord
  split at hrecord
  · next fields =>
    cases hrecord
    have hsub : (((fields.filter (·.1 ≠ "__proto__")).filter (·.1 ≠ "condition")).map
        Prod.fst).Sublist (fields.map Prod.fst) :=
      (filter_sublist.trans filter_sublist).map Prod.fst
    exact hsub.nodup (hkeys fields hvalue)
  · cases hrecord

theorem Accepted.fields_ne_nil (h : Accepted H raw rule) {block : SigmaBlock}
    (hblock : block ∈ rule.blocks) : block.fields ≠ [] := by
  obtain ⟨_, _, _, _, _, hblocks⟩ := h.written
  exact fields_of_written hblocks hblock

theorem Accepted.exists_matched (h : Accepted H raw rule) (hkeys : KeysOnce raw)
    (hfires : evaluateCondition (blockResults H rule.blocks event) rule.condition = true) :
    ∃ block ∈ rule.blocks, Matched H event block := by
  have hnone : ∀ name, (noBlockMatches rule.blocks name).getD false = false := by
    intro name
    unfold noBlockMatches
    split
    · rfl
    · rfl
  obtain ⟨name, hname, htrue⟩ := exists_of_evaluateCondition hnone h.evidence hfires
  obtain ⟨block, hblock, rfl⟩ := mem_map.mp ((h.names name).mp hname)
  rw [blockResults_eq (h.names_nodup hkeys) hblock] at htrue
  exact ⟨block, hblock, blockMatches_iff.mp htrue⟩

/-- The condition as evaluated has its Boolean meaning. -/
theorem Accepted.evaluateCondition_iff_holds (h : Accepted H raw rule) (hkeys : KeysOnce raw)
    (event : NormalizedProcessEvent) :
    evaluateCondition (blockResults H rule.blocks event) rule.condition = true ↔
      Holds (fun name => ∃ block ∈ rule.blocks, block.name = name ∧ Matched H event block)
        rule.condition := by
  apply evaluateCondition_iff
  intro name hname
  obtain ⟨block, hblock, rfl⟩ := mem_map.mp ((h.names name).mp hname)
  have hnodup := h.names_nodup hkeys
  rw [blockResults_eq hnodup hblock, Option.getD_some, blockMatches_iff]
  constructor
  · intro hmatched
    exact ⟨block, hblock, rfl, hmatched⟩
  · rintro ⟨block', hblock', hsame, hmatched⟩
    rw [← inj_on_of_nodup_map hnodup hblock' hblock hsame]
    exact hmatched

theorem not_matched_of_unknown_parent {block : SigmaBlock} {matcher : SigmaFieldMatcher}
    (hparent : event.parentImage = none) (hmatcher : matcher ∈ block.fields)
    (hfield : matcher.field = .parentImage) :
    ¬ Matched H event block := by
  intro hmatched
  obtain ⟨value, hvalue, _⟩ := hmatched matcher hmatcher
  rw [hfield, fieldValue, hparent] at hvalue
  cases hvalue

theorem exists_fit {block : SigmaBlock} (hne : block.fields ≠ [])
    (hmatched : Matched H event block) :
    ∃ matcher ∈ block.fields, ∃ pattern ∈ matcher.values, ∃ value,
      (value = event.imageFileName ∨ event.parentImage = some value) ∧
        Fits (H.toLowerCase value) matcher.modifier pattern := by
  obtain ⟨matcher, hmatcher⟩ := exists_mem_of_ne_nil _ hne
  obtain ⟨value, hvalue, pattern, hpattern, hfits⟩ := hmatched matcher hmatcher
  refine ⟨matcher, hmatcher, pattern, hpattern, value, ?_, hfits⟩
  cases hfield : matcher.field with
  | image =>
    rw [hfield] at hvalue
    exact .inl (Option.some.inj hvalue).symm
  | parentImage =>
    rw [hfield] at hvalue
    exact .inr hvalue

/-- An accepted rule has the blocks and the condition of the raw rule, and it matches exactly
the Launch events of which its condition is true; then a block of it matched, so the image or
the known parent image fits a pattern. Every name of the condition has a result, and a block
that tests the parent image has none but `false` where it is unknown. -/
theorem accepted_rule_needs_evidence (hkeys : KeysOnce raw) (h : parseRule H T raw = .ok rule)
    (event : NormalizedProcessEvent) :
    Written H raw rule ∧
    ((evaluateRule H rule event).isSome → event.activityId = 1 ∧
      ∃ block ∈ rule.blocks, Matched H event block ∧
        ∃ matcher ∈ block.fields, ∃ pattern ∈ matcher.values, ∃ value,
          (value = event.imageFileName ∨ event.parentImage = some value) ∧
            Fits (H.toLowerCase value) matcher.modifier pattern) ∧
    ((evaluateRule H rule event).isSome ↔ event.activityId = 1 ∧
      Holds (fun name => ∃ block ∈ rule.blocks, block.name = name ∧ Matched H event block)
        rule.condition) ∧
    (∀ name, Occurs name rule.condition → (blockResults H rule.blocks event name).isSome) ∧
    (event.parentImage = none → ∀ block ∈ rule.blocks,
      (∃ matcher ∈ block.fields, matcher.field = .parentImage) →
        ¬ Matched H event block ∧ blockResults H rule.blocks event block.name = some false) := by
  have haccepted := parseRule_eq_ok h
  refine ⟨haccepted.written, ?_, ?_, ?_, ?_⟩
  · intro hsome
    obtain ⟨hlaunch, hfires⟩ := (evaluateRule_isSome haccepted.category).mp hsome
    obtain ⟨block, hblock, hmatched⟩ := haccepted.exists_matched hkeys hfires
    exact ⟨hlaunch, block, hblock, hmatched,
      exists_fit (haccepted.fields_ne_nil hblock) hmatched⟩
  · rw [evaluateRule_isSome haccepted.category, haccepted.evaluateCondition_iff_holds hkeys]
  · intro name hname
    exact blockResults_isSome ((haccepted.names name).mp hname)
  · intro hparent block hblock htests
    obtain ⟨matcher, hmatcher, hfield⟩ := htests
    have hnot : ¬ Matched H event block := not_matched_of_unknown_parent hparent hmatcher hfield
    refine ⟨hnot, ?_⟩
    rw [blockResults_eq (haccepted.names_nodup hkeys) hblock, Option.some.injEq, Bool.eq_false_iff]
    intro hmatches
    exact hnot (blockMatches_iff.mp hmatches)

end Acceptance

def evidenceHost : Host where
  uuidRank := fun _ => 0
  toLowerCase := fun text => String.ofList (text.toList.map Char.toLower)

def evidenceTexts : RuleTexts where
  zodDetail := fun _ => ""
  stringify := fun _ => ""

def masqueradingRaw : Yaml :=
  .object [("id", .string "rule.masquerading"), ("title", .string "System binary name"),
    ("logsource", .object [("product", .string "windows"), ("category", .string "process_creation")]),
    ("detection", .object
      [("selection", .object [("Image|endswith", .array [.string "\\Cmd.exe"])]),
        ("filter", .object [("Image|contains", .string "\\windows\\system32\\")]),
        ("condition", .string "selection and not filter")]),
    ("level", .string "high"),
    ("cg", .object [("heuristic_score", .number (4 / 5)), ("severity_id", .number 4),
      ("cg_detection_source", .string "rule"),
      ("cg_mitre", .object [("tactics", .array [.string "defense-evasion"]),
        ("techniques", .array [.string "T1036.005"])])])]

def masqueradingRule : SigmaRule where
  id := "rule.masquerading"
  title := "System binary name"
  level := "high"
  logsourceCategory := "process_creation"
  blocks := [⟨"selection", [⟨.image, .endswith, ["\\cmd.exe"]⟩]⟩,
    ⟨"filter", [⟨.image, .contains, ["\\windows\\system32\\"]⟩]⟩]
  condition := .and (.ident "selection") (.not (.ident "filter"))
  heuristicScore := 4 / 5
  severityId := 4
  cgMitre := ⟨["defense-evasion"], ["T1036.005"]⟩

def masqueradingEvent : NormalizedProcessEvent where
  eventId := "01970f6e-7c00-7000-8000-000000000001"
  agentId := "01970f6e-7c00-7000-8000-000000000000"
  activityId := 1
  pid := 7
  uid := ""
  processName := "CMD.EXE"
  imageFileName := "C:\\Temp\\CMD.EXE"
  parentPid := none
  parentImage := none
  time := "2026-01-01 00:00:00.000000000"

theorem masquerading_needs_evidence :
    parseRule evidenceHost evidenceTexts masqueradingRaw = .ok masqueradingRule ∧
      ∃ block ∈ masqueradingRule.blocks, Matched evidenceHost masqueradingEvent block := by
  have haccepted : parseRule evidenceHost evidenceTexts masqueradingRaw = .ok masqueradingRule := by
    decide +kernel
  have hkeys : KeysOnce masqueradingRaw := by
    rintro fields ⟨⟩
    decide
  have hfires : (evaluateRule evidenceHost masqueradingRule masqueradingEvent).isSome := by
    decide +kernel
  obtain ⟨_, hevidence, _⟩ := accepted_rule_needs_evidence hkeys haccepted masqueradingEvent
  obtain ⟨_, block, hblock, hmatched, _⟩ := hevidence hfires
  exact ⟨haccepted, block, hblock, hmatched⟩

end CyberGuard.Detect
