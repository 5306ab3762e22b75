import Mathlib.Data.List.Infix
import Mathlib.Data.Rat.Defs

/-!
# Rules and their evaluation

The rule a file under `rules/windows` becomes, and `evaluateRule`: named blocks,
each the conjunction of its field matchers, combined by the parsed condition. A
matcher over a field that is not known is false.

What the language of the source supplies is `Host`: the order ClickHouse has on
UUIDs, and case folding.
-/

namespace CyberGuard.Detect
set_option autoImplicit false

structure Host where
  /-- The place of a UUID in ClickHouse's order. -/
  uuidRank : String → Nat
  toLowerCase : String → String

inductive SigmaModifier where
  | exact
  | endswith
  | startswith
  | contains
  deriving DecidableEq, Repr

inductive SigmaField where
  | image
  | parentImage
  deriving DecidableEq, Repr

structure SigmaFieldMatcher where
  field : SigmaField
  modifier : SigmaModifier
  values : List String
  deriving DecidableEq, Repr

structure SigmaBlock where
  name : String
  fields : List SigmaFieldMatcher
  deriving DecidableEq, Repr

inductive ConditionAst where
  | ident (name : String)
  | not (operand : ConditionAst)
  | and (left right : ConditionAst)
  | or (left right : ConditionAst)
  deriving DecidableEq, Repr

/-- The names of tactics that `parseRule` accepts. -/
def attackTactics : List String :=
  ["reconnaissance", "resource-development", "initial-access", "execution", "persistence",
    "privilege-escalation", "defense-evasion", "credential-access", "discovery",
    "lateral-movement", "collection", "command-and-control", "exfiltration", "impact"]

structure CgMitre where
  tactics : List String
  techniques : List String
  deriving DecidableEq, Repr

structure SigmaRule where
  id : String
  title : String
  level : String
  logsourceCategory : String
  blocks : List SigmaBlock
  condition : ConditionAst
  heuristicScore : Rat
  severityId : Nat
  cgMitre : CgMitre
  deriving DecidableEq, Repr

structure NormalizedProcessEvent where
  eventId : String
  agentId : String
  activityId : Nat
  pid : Nat
  uid : String
  processName : String
  imageFileName : String
  parentPid : Option Nat
  parentImage : Option String
  time : String
  deriving DecidableEq, Repr

structure RuleMatch where
  ruleId : String
  heuristicScore : Rat
  severityId : Nat
  cgMitre : CgMitre
  sourceEvent : NormalizedProcessEvent
  deriving DecidableEq, Repr

/-- A block the results do not name counts as not matched. -/
def evaluateCondition (results : String → Option Bool) : ConditionAst → Bool
  | .ident name => (results name).getD false
  | .not operand => !evaluateCondition results operand
  | .and left right => evaluateCondition results left && evaluateCondition results right
  | .or left right => evaluateCondition results left || evaluateCondition results right

def fieldValue (field : SigmaField) (event : NormalizedProcessEvent) : Option String :=
  match field with
  | .image => some event.imageFileName
  | .parentImage => event.parentImage

def matchOne (value : String) (modifier : SigmaModifier) (pattern : String) : Bool :=
  match modifier with
  | .exact => value = pattern
  | .endswith => pattern.toList <:+ value.toList
  | .startswith => pattern.toList <+: value.toList
  | .contains => pattern.toList <:+: value.toList

section Evaluation
variable (H : Host)

def matcherMatches (matcher : SigmaFieldMatcher) (event : NormalizedProcessEvent) : Bool :=
  match fieldValue matcher.field event with
  | none => false
  | some raw => matcher.values.any fun pattern =>
      matchOne (H.toLowerCase raw) matcher.modifier pattern

def blockMatches (block : SigmaBlock) (event : NormalizedProcessEvent) : Bool :=
  block.fields.all fun matcher => matcherMatches H matcher event

/-- The map the loop over the blocks fills; of two blocks of one name the later counts. -/
def blockResults (blocks : List SigmaBlock) (event : NormalizedProcessEvent) :
    String → Option Bool :=
  blocks.foldl
    (fun results block name =>
      if name = block.name then some (blockMatches H block event) else results name)
    fun _ => none

def evaluateProcessCreation (rule : SigmaRule) (event : NormalizedProcessEvent) :
    Option RuleMatch :=
  if event.activityId ≠ 1 then none
  else if evaluateCondition (blockResults H rule.blocks event) rule.condition then
    some ⟨rule.id, rule.heuristicScore, rule.severityId, rule.cgMitre, event⟩
  else none

def evaluateRule (rule : SigmaRule) (event : NormalizedProcessEvent) : Option RuleMatch :=
  if rule.logsourceCategory = "process_creation" then evaluateProcessCreation H rule event
  else none

variable {H}

theorem evaluateRule_of_not_launch (rule : SigmaRule) {event : NormalizedProcessEvent}
    (h : event.activityId ≠ 1) : evaluateRule H rule event = none := by
  rw [evaluateRule, evaluateProcessCreation, if_pos h, ite_self]

theorem eq_of_evaluateRule {rule : SigmaRule} {event : NormalizedProcessEvent} {m : RuleMatch}
    (h : evaluateRule H rule event = some m) :
    m = ⟨rule.id, rule.heuristicScore, rule.severityId, rule.cgMitre, event⟩ := by
  unfold evaluateRule evaluateProcessCreation at h
  split at h
  · split at h
    · cases h
    · split at h
      · exact (Option.some.inj h).symm
      · cases h
  · cases h

end Evaluation

end CyberGuard.Detect
