import CyberGuard.Shared.Checks
import CyberGuard.Detect.Engine

/-!
# The condition of a rule

`tokenize` cuts a condition into words and parentheses, `parseTokens` descends through the
levels of the grammar with the tokens that are left, and `parseCondition` returns the tree
with the names in it.

The loops and the recursion of the source are bounded here by a number of steps; `exhausted`
is where it does not suffice, and it does for every condition.
-/

namespace CyberGuard.Detect
set_option autoImplicit false
open Checks

inductive RuleError where
  /-- `UnsupportedRuleError`. -/
  | unsupported (message : String)
  | exhausted
  deriving DecidableEq, Repr

inductive Operator where
  | and
  | or
  | not
  deriving DecidableEq, Repr

inductive Token where
  | ident (value : String)
  | op (op : Operator)
  | lparen
  | rparen
  deriving DecidableEq, Repr

def reservedWords : List String := ["and", "or", "not", "of", "all", "them"]

def isBlank (c : Char) : Bool := c == ' ' || c == '\t' || c == '\n' || c == '\r'

/-- `[A-Za-z_]`. -/
def isWordStart (c : Char) : Bool := c.isAlpha || c == '_'

/-- `[A-Za-z0-9_]`. -/
def isWordChar (c : Char) : Bool := c.isAlphanum || c == '_'

def wordToken (word : String) : Except RuleError Token :=
  if word = "and" then .ok (.op .and)
  else if word = "or" then .ok (.op .or)
  else if word = "not" then .ok (.op .not)
  else if word ∈ reservedWords then
    .error (.unsupported ("condition uses reserved word \"" ++ word ++ "\""))
  else .ok (.ident word)

def tokenizeFrom : Nat → List Char → Except RuleError (List Token)
  | _, [] => .ok []
  | 0, _ :: _ => .error .exhausted
  | steps + 1, c :: rest =>
    if isBlank c then tokenizeFrom steps rest
    else if c = '(' then (tokenizeFrom steps rest).map (.lparen :: ·)
    else if c = ')' then (tokenizeFrom steps rest).map (.rparen :: ·)
    else if c = '|' then .error (.unsupported "condition contains an aggregation pipe \"|\"")
    else if isWordStart c then do
      let token ← wordToken (String.ofList (c :: rest.takeWhile isWordChar))
      let tokens ← tokenizeFrom steps (rest.dropWhile isWordChar)
      return token :: tokens
    else .error (.unsupported ("condition has an unexpected character \"" ++ c.toString ++ "\""))

def tokenize (src : String) : Except RuleError (List Token) :=
  tokenizeFrom src.toList.length src.toList

/-- Where the descent is: in one of its functions, or in the loop of `parseOr` or `parseAnd`
with what it has so far. -/
inductive Phase where
  | parseOr
  | orLoop (left : ConditionAst)
  | parseAnd
  | andLoop (left : ConditionAst)
  | parseNot
  | parsePrimary
  deriving DecidableEq, Repr

def parse : Nat → Phase → List Token → Except RuleError (ConditionAst × List Token)
  | 0, _, _ => .error .exhausted
  | steps + 1, .parseOr, tokens => do
    let (left, rest) ← parse steps .parseAnd tokens
    parse steps (.orLoop left) rest
  | steps + 1, .orLoop left, .op .or :: tokens => do
    let (right, rest) ← parse steps .parseAnd tokens
    parse steps (.orLoop (.or left right)) rest
  | _ + 1, .orLoop left, tokens => .ok (left, tokens)
  | steps + 1, .parseAnd, tokens => do
    let (left, rest) ← parse steps .parseNot tokens
    parse steps (.andLoop left) rest
  | steps + 1, .andLoop left, .op .and :: tokens => do
    let (right, rest) ← parse steps .parseNot tokens
    parse steps (.andLoop (.and left right)) rest
  | _ + 1, .andLoop left, tokens => .ok (left, tokens)
  | steps + 1, .parseNot, .op .not :: tokens => do
    let (operand, rest) ← parse steps .parseNot tokens
    .ok (.not operand, rest)
  | steps + 1, .parseNot, tokens => parse steps .parsePrimary tokens
  | _ + 1, .parsePrimary, [] => .error
      (.unsupported "condition ended unexpectedly; expected a block name or \"(\"")
  | _ + 1, .parsePrimary, .ident name :: rest => .ok (.ident name, rest)
  | steps + 1, .parsePrimary, .lparen :: tokens => do
    let (inner, rest) ← parse steps .parseOr tokens
    match rest with
    | .rparen :: rest => .ok (inner, rest)
    | _ => .error (.unsupported "condition has unbalanced parentheses")
  | _ + 1, .parsePrimary, _ => .error
      (.unsupported "condition has an unexpected token; expected a block name or \"(\"")

def parseTokens (tokens : List Token) : Except RuleError ConditionAst := do
  let (ast, rest) ← parse (4 * tokens.length + 4) .parseOr tokens
  refuseIf (!rest.isEmpty) (.unsupported "condition has unexpected trailing tokens")
  return ast

/-- `add` of a set, in the order of insertion. -/
def addName (out : List String) (name : String) : List String :=
  if name ∈ out then out else out ++ [name]

def collectIdentifiers : ConditionAst → List String → List String
  | .ident name, out => addName out name
  | .not operand, out => collectIdentifiers operand out
  | .and left right, out => collectIdentifiers right (collectIdentifiers left out)
  | .or left right, out => collectIdentifiers right (collectIdentifiers left out)

structure ParsedCondition where
  ast : ConditionAst
  identifiers : List String
  deriving DecidableEq, Repr

def parseCondition (src : String) : Except RuleError ParsedCondition := do
  let tokens ← tokenize src
  refuseIf tokens.isEmpty (.unsupported "condition is empty")
  let ast ← parseTokens tokens
  return ⟨ast, collectIdentifiers ast []⟩

example : parseCondition "a or not (b and a)" = .ok
    ⟨.or (.ident "a") (.not (.and (.ident "b") (.ident "a"))), ["a", "b"]⟩ := by
  decide +kernel

end CyberGuard.Detect
