import CyberGuard.Shared.Json
import CyberGuard.Shared.TextPatterns
import CyberGuard.Detect.Condition

/-!
# Raw rules

`parseRule`: the shell that zod checks, the metadata of the loader contract, the named blocks
with their field matchers, and the cross-checks between the blocks and the condition.

The texts of zod's issues and of `JSON.stringify` are parameters.
-/

namespace CyberGuard.Detect
set_option autoImplicit false
open Checks TextPatterns

abbrev Yaml := Json Rat

structure RuleTexts where
  /-- What `zodDetail` says of a value that the shell refuses. -/
  zodDetail : Yaml → String
  /-- `JSON.stringify`. -/
  stringify : Yaml → String

/-- The data of `ruleShellSchema` that is read afterwards. -/
structure RuleShell where
  id : String
  title : String
  level : String
  category : String
  product : Option Yaml
  detection : List (String × Yaml)
  heuristicScore : Rat
  severityId : Nat
  cgDetectionSource : Option Yaml
  cgMitre : CgMitre

def nonEmptyString : Yaml → Option String
  | .string text => if text = "" then none else some text
  | _ => none

def nonEmptyStrings : Yaml → Option (List String)
  | .array items => if items.isEmpty then none else items.mapM nonEmptyString
  | _ => none

def numberBetween (least most : Rat) : Yaml → Option Rat
  | .number n => if least ≤ n ∧ n ≤ most then some n else none
  | _ => none

def integerBetween (least most : Rat) (value : Yaml) : Option Nat :=
  (numberBetween least most value).bind fun n => if n.den = 1 then some n.num.toNat else none

def strict (names : List String) : Yaml → Option Yaml
  | .object fields => if fields.all (·.1 ∈ names) then some (.object fields) else none
  | _ => none

/-- `z.record`, which passes over the key `__proto__`. -/
def record : Yaml → Option (List (String × Yaml))
  | .object fields => some (fields.filter (·.1 ≠ "__proto__"))
  | _ => none

def ruleShellSchema (raw : Yaml) : Option RuleShell := do
  let id ← (raw.member "id").bind nonEmptyString
  let title ← (raw.member "title").bind nonEmptyString
  let level ← (raw.member "level").bind nonEmptyString
  let logsource ← raw.member "logsource"
  let category ← (logsource.member "category").bind nonEmptyString
  let detection ← (raw.member "detection").bind record
  let cg ← (raw.member "cg").bind
    (strict ["heuristic_score", "severity_id", "cg_detection_source", "cg_mitre"])
  let heuristicScore ← (cg.member "heuristic_score").bind (numberBetween 0 1)
  let severityId ← (cg.member "severity_id").bind (integerBetween 0 6)
  let mitre ← (cg.member "cg_mitre").bind (strict ["tactics", "techniques"])
  let tactics ← (mitre.member "tactics").bind nonEmptyStrings
  let techniques ← (mitre.member "techniques").bind nonEmptyStrings
  return ⟨id, title, level, category, logsource.member "product", detection, heuristicScore,
    severityId, cg.member "cg_detection_source", ⟨tactics, techniques⟩⟩

def unsupported {α : Type} (message : String) : Except RuleError α :=
  .error (.unsupported message)

def refuseEach (items : List String) (bad : String → Bool) (message : String → String) :
    Except RuleError Unit :=
  match items.find? bad with
  | some item => unsupported (message item)
  | none => .ok ()

def ruleIdCharacters : String := "abcdefghijklmnopqrstuvwxyz0123456789_"

/-- `^rule\.[a-z0-9_]+$`. -/
def ruleIdPattern : Pattern :=
  literally "rule." * (oneOf ruleIdCharacters * (oneOf ruleIdCharacters).star)

/-- `^T[0-9]{4}(\.[0-9]{3})?$`. -/
def techniquePattern : Pattern :=
  literally "T" * (between 4 4 (oneOf decimalDigits) *
    optional (literally "." * between 3 3 (oneOf decimalDigits)))

def levelSeverity : List (String × Nat) :=
  [("informational", 1), ("low", 2), ("medium", 3), ("high", 4), ("critical", 5)]

def describe (T : RuleTexts) : Option Yaml → String
  | none => "missing"
  | some value => T.stringify value

def isString (text : String) : Option Yaml → Bool
  | some (.string text') => text' = text
  | _ => false

def firstRepeat : List String → List String → Option String
  | _, [] => none
  | seen, item :: rest => if item ∈ seen then some item else firstRepeat (item :: seen) rest

def assertNoRepeats (list : List String) (place : String) : Except RuleError Unit :=
  match firstRepeat [] list with
  | some item => unsupported (place ++ " \"" ++ item ++ "\" is repeated")
  | none => .ok ()

def checkRuleMetadata (T : RuleTexts) (r : RuleShell) : Except RuleError Unit := do
  refuseIf (!test ruleIdPattern r.id)
    (.unsupported ("id \"" ++ r.id ++ "\" does not match ^rule\\.[a-z0-9_]+$"))
  refuseIf (!isString "windows" r.product)
    (.unsupported ("logsource.product " ++ describe T r.product ++
      " is not supported (only \"windows\")"))
  let severity ← okOr (levelSeverity.lookup r.level)
    (.unsupported ("level \"" ++ r.level ++ "\" is not one of " ++
      ", ".intercalate (levelSeverity.map Prod.fst)))
  refuseIf (r.severityId != severity)
    (.unsupported ("cg.severity_id " ++ toString r.severityId ++ " does not match level \"" ++
      r.level ++ "\" (OCSF severity_id " ++ toString severity ++ ")"))
  refuseIf (!isString "rule" r.cgDetectionSource)
    (.unsupported ("cg.cg_detection_source " ++ describe T r.cgDetectionSource ++
      " is not supported (only \"rule\": ml and hybrid need a model pairing that no rule can carry)"))
  refuseEach r.cgMitre.tactics (· ∉ attackTactics) fun tactic =>
    "cg.cg_mitre.tactics \"" ++ tactic ++ "\" is not a MITRE ATT&CK Enterprise tactic name"
  assertNoRepeats r.cgMitre.tactics "cg.cg_mitre.tactics"
  refuseEach r.cgMitre.techniques (!test techniquePattern ·) fun technique =>
    "cg.cg_mitre.techniques \"" ++ technique ++
      "\" does not match ^T[0-9]\x7b4\x7d(\\.[0-9]\x7b3\x7d)?$"
  assertNoRepeats r.cgMitre.techniques "cg.cg_mitre.techniques"

def SigmaField.text : SigmaField → String
  | .image => "Image"
  | .parentImage => "ParentImage"

def normalizeValue (H : Host) (field block : String) : Yaml → Except RuleError String
  | .string v => do
    let place := "field \"" ++ field ++ "\" in block \"" ++ block ++ "\""
    refuseIf (v = "") (.unsupported (place ++ " has an empty value"))
    refuseIf (v.toList.contains '*' || v.toList.contains '?')
      (.unsupported (place ++ " value \"" ++ v ++ "\" contains a wildcard (* or ?)"))
    refuseIf ("\\\\".toList <:+: v.toList)
      (.unsupported (place ++ " value \"" ++ v ++
        "\" contains \"\\\\\" (Sigma reads it as one escaped backslash; values are matched literally)"))
    return H.toLowerCase v
  | _ => unsupported ("field \"" ++ field ++ "\" in block \"" ++ block ++
      "\" has a non-string value")

def listOf : Yaml → List Yaml
  | .array items => items
  | value => [value]

def normalizeValues (H : Host) (field block : String) (raw : Yaml) :
    Except RuleError (List String) := do
  refuseIf (listOf raw).isEmpty
    (.unsupported ("field \"" ++ field ++ "\" in block \"" ++ block ++
      "\" has an empty value list"))
  (listOf raw).mapM (normalizeValue H field block)

def resolveModifier (field modifier block : String) : Except RuleError SigmaModifier :=
  if modifier = "endswith" then .ok .endswith
  else if modifier = "startswith" then .ok .startswith
  else if modifier = "contains" then .ok .contains
  else if modifier = "exact" then
    unsupported ("unsupported modifier \"exact\" on " ++ field ++ " in block \"" ++ block ++
      "\" (exact match is written without a modifier)")
  else unsupported ("unsupported modifier \"" ++ modifier ++ "\" on " ++ field ++ " in block \"" ++
    block ++ "\"")

def resolveField (field block : String) : Except RuleError SigmaField :=
  if field = "CommandLine" ∨ field = "User" then
    unsupported ("field \"" ++ field ++ "\" in block \"" ++ block ++
      "\" is empty in CGES v0.1 and is deferred to B2")
  else if field = "Image" then .ok .image
  else if field = "ParentImage" then .ok .parentImage
  else unsupported ("unsupported field \"" ++ field ++ "\" in block \"" ++ block ++
    "\" (only Image and ParentImage)")

/-- What stands before the first `|`, and what stands after it where there is one. -/
def splitKey (key : String) : String × Option String :=
  (String.ofList (key.toList.takeWhile (· ≠ '|')),
    match key.toList.dropWhile (· ≠ '|') with
    | [] => none
    | _ :: modifier => some (String.ofList modifier))

/-- A key without a `|` asks for an exact match. -/
def keyModifier (field block : String) : Option String → Except RuleError SigmaModifier
  | none => .ok .exact
  | some modifier => resolveModifier field modifier block

def parseFieldMatcher (H : Host) (block key : String) (raw : Yaml) :
    Except RuleError SigmaFieldMatcher := do
  refuseIf (1 < key.toList.count '|')
    (.unsupported ("field \"" ++ key ++ "\" in block \"" ++ block ++
      "\" has more than one modifier"))
  let (fieldText, modifierText) := splitKey key
  let field ← resolveField fieldText block
  let modifier ← keyModifier fieldText block modifierText
  let values ← normalizeValues H fieldText block raw
  return ⟨field, modifier, values⟩

/-- `IDENTIFIER_RE`. -/
def isIdentifier (name : String) : Bool :=
  match name.toList with
  | [] => false
  | first :: rest => isWordStart first && rest.all isWordChar

def parseBlock (H : Host) (name : String) (value : Yaml) : Except RuleError SigmaBlock := do
  refuseIf (!isIdentifier name) (.unsupported ("invalid block name \"" ++ name ++ "\""))
  refuseIf (name ∈ reservedWords)
    (.unsupported ("block name \"" ++ name ++ "\" is a reserved word"))
  match value with
  | .object entries =>
    refuseIf entries.isEmpty (.unsupported ("block \"" ++ name ++ "\" has no fields"))
    let fields ← entries.mapM fun entry => parseFieldMatcher H name entry.1 entry.2
    return ⟨name, fields⟩
  | _ => unsupported ("block \"" ++ name ++
      "\" must be a map of fields (a list, string, or number is unsupported)")

def stringOf : Option Yaml → Option String
  | some (.string text) => some text
  | _ => none

def noBlockMatches (blocks : List SigmaBlock) (name : String) : Option Bool :=
  if name ∈ blocks.map SigmaBlock.name then some false else none

def parseRule (H : Host) (T : RuleTexts) (raw : Yaml) : Except RuleError SigmaRule := do
  let r ← okOr (ruleShellSchema raw) (.unsupported (T.zodDetail raw))
  checkRuleMetadata T r
  refuseIf (r.category != "process_creation")
    (.unsupported ("unsupported logsource.category \"" ++ r.category ++
      "\" (no evaluator; only \"process_creation\")"))
  let conditionRaw ← okOr (stringOf (r.detection.lookup "condition"))
    (.unsupported "detection.condition is required and must be a string")
  refuseIf (r.detection.lookup "timeframe").isSome
    (.unsupported "detection.timeframe (correlation over time) is not supported")
  let blocks ← (r.detection.filter (·.1 ≠ "condition")).mapM fun entry =>
    parseBlock H entry.1 entry.2
  refuseIf blocks.isEmpty (.unsupported "detection has no blocks")
  let parsed ← parseCondition conditionRaw
  refuseEach parsed.identifiers (· ∉ blocks.map SigmaBlock.name) fun id =>
    "condition references undefined block \"" ++ id ++ "\""
  refuseEach (blocks.map SigmaBlock.name) (· ∉ parsed.identifiers) fun name =>
    "block \"" ++ name ++ "\" is not referenced by the condition"
  refuseIf (evaluateCondition (noBlockMatches blocks) parsed.ast)
    (.unsupported ("condition \"" ++ conditionRaw ++
      "\" is true when no block matches (a rule must need at least one block to match)"))
  return ⟨r.id, r.title, r.level, r.category, blocks, parsed.ast, r.heuristicScore, r.severityId,
    r.cgMitre⟩

end CyberGuard.Detect
