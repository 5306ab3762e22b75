import Mathlib.Data.List.TakeWhile
import CyberGuard.Detect.Condition

/-!
# The grammar of conditions

A condition is spelt by tokens with blanks where two words would meet, and the tokens derive
a tree by `expr := and ('or' and)*`, `and := not ('and' not)*`, `not := 'not' not | primary`,
`primary := IDENT | '(' expr ')'`. `parseCondition` succeeds on the texts that are spelt and
derived so, with that tree.
-/

namespace CyberGuard.Detect
set_option autoImplicit false
open Checks List Nat

/-- `[A-Za-z_][A-Za-z0-9_]*`, and not a reserved word. -/
def Identifier (word : String) : Prop :=
  (∃ first rest, word.toList = first :: rest ∧ isWordStart first = true ∧
    ∀ c ∈ rest, isWordChar c = true) ∧ word ∉ reservedWords

inductive Names : String → Token → Prop where
  | and : Names "and" (.op .and)
  | or : Names "or" (.op .or)
  | not : Names "not" (.op .not)
  | ident {word : String} : Identifier word → Names word (.ident word)

/-- Something other than a character of a word follows, or nothing. -/
def EndsWord (rest : List Char) : Prop := ∀ c, rest.head? = some c → isWordChar c = false

/-- The text is these tokens, with blanks anywhere between them and between two words. -/
inductive Spells : List Char → List Token → Prop where
  | done : Spells [] []
  | blank {c : Char} {rest : List Char} {tokens : List Token} : isBlank c = true →
      Spells rest tokens → Spells (c :: rest) tokens
  | lparen {rest : List Char} {tokens : List Token} :
      Spells rest tokens → Spells ('(' :: rest) (.lparen :: tokens)
  | rparen {rest : List Char} {tokens : List Token} :
      Spells rest tokens → Spells (')' :: rest) (.rparen :: tokens)
  | word {word : String} {token : Token} {rest : List Char} {tokens : List Token} :
      Names word token → EndsWord rest → Spells rest tokens →
      Spells (word.toList ++ rest) (token :: tokens)

variable {word : String} {token : Token} {rest chars : List Char} {steps : Nat}
  {tree : ConditionAst} {phase : Phase} {α β : Type}

theorem wordToken_eq_ok (h : wordToken word = .ok token) :
    word ∈ reservedWords ∧ Names word token ∨ word ∉ reservedWords ∧ token = .ident word := by
  unfold wordToken at h
  split at h
  · next hword =>
    subst hword
    cases h
    exact Or.inl ⟨by decide, .and⟩
  · split at h
    · next hword =>
      subst hword
      cases h
      exact Or.inl ⟨by decide, .or⟩
    · split at h
      · next hword =>
        subst hword
        cases h
        exact Or.inl ⟨by decide, .not⟩
      · split at h
        · cases h
        · next hfree =>
          cases h
          exact Or.inr ⟨hfree, rfl⟩

theorem Names.wordToken (h : Names word token) :
    wordToken word = .ok token := by
  cases h with
  | and => rfl
  | or => rfl
  | not => rfl
  | ident hident =>
    have hne (reserved : String) (hmem : reserved ∈ reservedWords) : word ≠ reserved := by
      rintro rfl
      exact hident.2 hmem
    rw [Detect.wordToken, if_neg (hne "and" (by decide)), if_neg (hne "or" (by decide)),
      if_neg (hne "not" (by decide)), if_neg hident.2]

theorem Names.shape (h : Names word token) :
    ∃ first rest, word.toList = first :: rest ∧ isWordStart first = true ∧
      ∀ c ∈ rest, isWordChar c = true := by
  cases h with
  | and => exact ⟨'a', ['n', 'd'], by decide, by decide, all_eq_true.mp (by decide)⟩
  | or => exact ⟨'o', ['r'], by decide, by decide, all_eq_true.mp (by decide)⟩
  | not => exact ⟨'n', ['o', 't'], by decide, by decide, all_eq_true.mp (by decide)⟩
  | ident hident => exact hident.1

theorem names_of_wordToken {first : Char} (hfirst : isWordStart first = true)
    (hrest : ∀ c ∈ rest, isWordChar c = true)
    (h : wordToken (String.ofList (first :: rest)) = .ok token) :
    Names (String.ofList (first :: rest)) token := by
  rcases wordToken_eq_ok h with ⟨_, hnames⟩ | ⟨hfree, rfl⟩
  · exact hnames
  · exact .ident ⟨⟨first, rest, String.toList_ofList, hfirst, hrest⟩, hfree⟩

theorem endsWord_dropWhile (rest : List Char) : EndsWord (rest.dropWhile isWordChar) := by
  intro c hc
  have hnot := List.head?_dropWhile_not isWordChar rest
  rw [hc] at hnot
  simpa using hnot

theorem tokenizeFrom_sound {tokens : List Token} (h : tokenizeFrom steps chars = .ok tokens) :
    Spells chars tokens := by
  induction steps generalizing chars tokens with
  | zero =>
    cases chars with
    | nil =>
      cases h
      exact .done
    | cons c rest => cases h
  | succ steps ih =>
    cases chars with
    | nil =>
      cases h
      exact .done
    | cons c rest =>
      rw [tokenizeFrom] at h
      by_cases hblank : isBlank c = true
      · rw [if_pos hblank] at h
        exact .blank hblank (ih h)
      rw [if_neg hblank] at h
      by_cases hopen : c = '('
      · rw [if_pos hopen, map_eq_ok] at h
        obtain ⟨others, hothers, rfl⟩ := h
        rw [hopen]
        exact .lparen (ih hothers)
      rw [if_neg hopen] at h
      by_cases hclose : c = ')'
      · rw [if_pos hclose, map_eq_ok] at h
        obtain ⟨others, hothers, rfl⟩ := h
        rw [hclose]
        exact .rparen (ih hothers)
      rw [if_neg hclose] at h
      by_cases hpipe : c = '|'
      · rw [if_pos hpipe] at h
        cases h
      rw [if_neg hpipe] at h
      by_cases hword : isWordStart c = true
      · rw [if_pos hword] at h
        simp only [bind_eq_ok, pure_eq_ok] at h
        obtain ⟨token, htoken, others, hothers, rfl⟩ := h
        have hchars : ∀ d ∈ rest.takeWhile isWordChar, isWordChar d = true :=
          fun d hd => mem_takeWhile_imp hd
        have hspelt := Spells.word (names_of_wordToken hword hchars htoken)
          (endsWord_dropWhile rest) (ih hothers)
        rw [String.toList_ofList, cons_append, takeWhile_append_dropWhile] at hspelt
        exact hspelt
      · rw [if_neg hword] at h
        cases h

theorem isWordStart_plain {c : Char} (h : isWordStart c = true) :
    isBlank c = false ∧ c ≠ '(' ∧ c ≠ ')' ∧ c ≠ '|' := by
  have hnot (d : Char) (hd : isWordStart d = false) : c ≠ d := by
    rintro rfl
    rw [h] at hd
    cases hd
  refine ⟨?_, hnot '(' (by decide), hnot ')' (by decide), hnot '|' (by decide)⟩
  simp [isBlank, hnot ' ' (by decide), hnot '\t' (by decide), hnot '\n' (by decide),
    hnot '\r' (by decide)]

theorem takeWhile_word {word : List Char} (hword : ∀ c ∈ word, isWordChar c = true)
    (hrest : EndsWord rest) : (word ++ rest).takeWhile isWordChar = word ∧
      (word ++ rest).dropWhile isWordChar = rest := by
  have hends : rest.takeWhile isWordChar = [] ∧ rest.dropWhile isWordChar = rest := by
    cases rest with
    | nil => exact ⟨rfl, rfl⟩
    | cons c rest =>
      have hc := hrest c rfl
      simp [hc]
  rw [takeWhile_append_of_pos hword, dropWhile_append_of_pos hword, hends.1, hends.2,
    append_nil]
  exact ⟨rfl, rfl⟩

theorem tokenizeFrom_complete {tokens : List Token} (h : Spells chars tokens)
    (hsteps : chars.length ≤ steps) : tokenizeFrom steps chars = .ok tokens := by
  induction h generalizing steps with
  | done => simp only [tokenizeFrom]
  | @blank c rest tokens hblank _ ih =>
    obtain ⟨steps, rfl⟩ := Nat.exists_eq_add_of_le' (Nat.le_trans (Nat.le_add_left 1 _) hsteps)
    rw [tokenizeFrom, if_pos hblank]
    exact ih (le_of_succ_le_succ hsteps)
  | @lparen rest tokens _ ih =>
    obtain ⟨steps, rfl⟩ := Nat.exists_eq_add_of_le' (Nat.le_trans (Nat.le_add_left 1 _) hsteps)
    rw [tokenizeFrom, if_neg (by decide), if_pos rfl, ih (le_of_succ_le_succ hsteps)]
    rfl
  | @rparen rest tokens _ ih =>
    obtain ⟨steps, rfl⟩ := Nat.exists_eq_add_of_le' (Nat.le_trans (Nat.le_add_left 1 _) hsteps)
    rw [tokenizeFrom, if_neg (by decide), if_neg (by decide), if_pos rfl,
      ih (le_of_succ_le_succ hsteps)]
    rfl
  | @word word token rest tokens hnames hends _ ih =>
    obtain ⟨first, others, hchars, hfirst, hothers⟩ := hnames.shape
    obtain ⟨hblank, hopen, hclose, hpipe⟩ := isWordStart_plain hfirst
    obtain ⟨htake, hdrop⟩ := takeWhile_word hothers hends
    have hword : String.ofList (first :: others) = word := by
      rw [← hchars, String.ofList_toList]
    rw [hchars] at hsteps ⊢
    rw [cons_append, length_cons, length_append] at hsteps
    obtain ⟨steps, rfl⟩ := Nat.exists_eq_add_of_le' (Nat.le_trans (Nat.le_add_left 1 _) hsteps)
    rw [cons_append, tokenizeFrom, hblank, if_neg Bool.false_ne_true, if_neg hopen,
      if_neg hclose, if_neg hpipe, if_pos hfirst, htake, hdrop, hword, hnames.wordToken,
      ih (by omega)]
    rfl

theorem tokenize_eq_ok {src : String} {tokens : List Token} :
    tokenize src = .ok tokens ↔ Spells src.toList tokens :=
  ⟨tokenizeFrom_sound, fun h => tokenizeFrom_complete h (le_refl _)⟩

inductive Level where
  | expr
  | and
  | not
  | primary

inductive Derives : Level → List Token → ConditionAst → Prop where
  | expr {tokens : List Token} {tree : ConditionAst} :
      Derives .and tokens tree → Derives .expr tokens tree
  | or {tokens tokens' : List Token} {left right : ConditionAst} :
      Derives .expr tokens left → Derives .and tokens' right →
      Derives .expr (tokens ++ .op .or :: tokens') (.or left right)
  | single {tokens : List Token} {tree : ConditionAst} :
      Derives .not tokens tree → Derives .and tokens tree
  | and {tokens tokens' : List Token} {left right : ConditionAst} :
      Derives .and tokens left → Derives .not tokens' right →
      Derives .and (tokens ++ .op .and :: tokens') (.and left right)
  | not {tokens : List Token} {operand : ConditionAst} :
      Derives .not tokens operand → Derives .not (.op .not :: tokens) (.not operand)
  | primary {tokens : List Token} {tree : ConditionAst} :
      Derives .primary tokens tree → Derives .not tokens tree
  | ident (name : String) : Derives .primary [.ident name] (.ident name)
  | paren {tokens : List Token} {tree : ConditionAst} :
      Derives .expr tokens tree → Derives .primary (.lparen :: tokens ++ [.rparen]) tree

theorem Derives.ne_nil {level : Level} {tokens : List Token} (h : Derives level tokens tree) :
    tokens ≠ [] := by
  induction h with
  | expr _ ih => exact ih
  | or | and | not | ident | paren => simp
  | single _ ih => exact ih
  | primary _ ih => exact ih

/-- What the tokens a phase took derive. A loop adds to what it had. -/
def Phase.Took : Phase → List Token → ConditionAst → Prop
  | .parseOr, taken, tree => Derives .expr taken tree
  | .orLoop left, taken, tree =>
    ∀ before, Derives .expr before left → Derives .expr (before ++ taken) tree
  | .parseAnd, taken, tree => Derives .and taken tree
  | .andLoop left, taken, tree =>
    ∀ before, Derives .and before left → Derives .and (before ++ taken) tree
  | .parseNot, taken, tree => Derives .not taken tree
  | .parsePrimary, taken, tree => Derives .primary taken tree

/-- A phase that first reads by another one, and goes on with what that returns. -/
inductive Goes : Phase → List Token → Phase → List Token → (ConditionAst → Phase) → Prop where
  | or (tokens : List Token) : Goes .parseOr tokens .parseAnd tokens .orLoop
  | and (tokens : List Token) : Goes .parseAnd tokens .parseNot tokens .andLoop
  | orLoop (left : ConditionAst) (tokens : List Token) :
      Goes (.orLoop left) (.op .or :: tokens) .parseAnd tokens fun right => .orLoop (.or left right)
  | andLoop (left : ConditionAst) (tokens : List Token) :
      Goes (.andLoop left) (.op .and :: tokens) .parseNot tokens
        fun right => .andLoop (.and left right)

inductive Begins : Phase → List Token → Prop where
  | goes {phase first : Phase} {tokens tokens' : List Token} {follow : ConditionAst → Phase}
      (h : Goes phase tokens first tokens' follow) : Begins phase tokens
  | stays {phase : Phase} {tokens : List Token} {left : ConditionAst}
      (hloop : phase = .orLoop left ∨ phase = .andLoop left)
      (h : ∀ steps, parse (steps + 1) phase tokens = .ok (left, tokens)) : Begins phase tokens
  | not (tokens : List Token) : Begins .parseNot (.op .not :: tokens)
  | primary {tokens : List Token}
      (h : ∀ steps, parse (steps + 1) .parseNot tokens = parse steps .parsePrimary tokens) :
      Begins .parseNot tokens
  | ident (name : String) (tokens : List Token) : Begins .parsePrimary (.ident name :: tokens)
  | paren (tokens : List Token) : Begins .parsePrimary (.lparen :: tokens)
  | fails {tokens : List Token} {e : RuleError} (he : e ≠ .exhausted)
      (h : ∀ steps, parse (steps + 1) .parsePrimary tokens = .error e) : Begins .parsePrimary tokens

theorem begins (phase : Phase) (tokens : List Token) : Begins phase tokens := by
  cases phase with
  | parseOr => exact .goes (.or tokens)
  | parseAnd => exact .goes (.and tokens)
  | orLoop left =>
    cases tokens with
    | nil => exact .stays (Or.inl rfl) fun _ => rfl
    | cons token tokens =>
      cases token with
      | op op =>
        cases op with
        | or => exact .goes (.orLoop left tokens)
        | _ => exact .stays (Or.inl rfl) fun _ => rfl
      | _ => exact .stays (Or.inl rfl) fun _ => rfl
  | andLoop left =>
    cases tokens with
    | nil => exact .stays (Or.inr rfl) fun _ => rfl
    | cons token tokens =>
      cases token with
      | op op =>
        cases op with
        | and => exact .goes (.andLoop left tokens)
        | _ => exact .stays (Or.inr rfl) fun _ => rfl
      | _ => exact .stays (Or.inr rfl) fun _ => rfl
  | parseNot =>
    cases tokens with
    | nil => exact .primary fun _ => rfl
    | cons token tokens =>
      cases token with
      | op op =>
        cases op with
        | not => exact .not tokens
        | _ => exact .primary fun _ => rfl
      | _ => exact .primary fun _ => rfl
  | parsePrimary =>
    cases tokens with
    | nil => exact .fails (by simp) fun _ => rfl
    | cons token tokens =>
      cases token with
      | ident name => exact .ident name tokens
      | lparen => exact .paren tokens
      | _ => exact .fails (by simp) fun _ => rfl

section steps
variable {steps : Nat} {first : Phase} {tokens tokens' rest taken taken' : List Token}
  {left tree : ConditionAst} {follow : ConditionAst → Phase}

theorem parse_goes (h : Goes phase tokens first tokens' follow) :
    parse (steps + 1) phase tokens =
      parse steps first tokens' >>= fun read => parse steps (follow read.1) read.2 := by
  cases h <;> rfl

theorem parse_parseNot : parse (steps + 1) .parseNot (.op .not :: tokens) =
    parse steps .parseNot tokens >>= fun read => .ok (.not read.1, read.2) :=
  rfl

theorem Goes.took (h : Goes phase tokens first (taken ++ (taken' ++ rest)) follow)
    (hfirst : first.Took taken left) (hfollow : (follow left).Took taken' tree) :
    ∃ whole, tokens = whole ++ rest ∧ phase.Took whole tree := by
  cases h with
  | or => exact ⟨taken ++ taken', by simp, hfollow taken (.expr hfirst)⟩
  | and => exact ⟨taken ++ taken', by simp, hfollow taken (.single hfirst)⟩
  | orLoop =>
    refine ⟨.op .or :: taken ++ taken', by simp, fun before hbefore => ?_⟩
    have hjoined := hfollow _ (.or hbefore hfirst)
    rw [append_assoc] at hjoined
    exact hjoined
  | andLoop =>
    refine ⟨.op .and :: taken ++ taken', by simp, fun before hbefore => ?_⟩
    have hjoined := hfollow _ (.and hbefore hfirst)
    rw [append_assoc] at hjoined
    exact hjoined

theorem parse_paren_eq_ok
    (h : parse (steps + 1) .parsePrimary (.lparen :: tokens) = .ok (tree, rest)) :
    parse steps .parseOr tokens = .ok (tree, .rparen :: rest) := by
  obtain ⟨⟨inner, after⟩, hinner, hclose⟩ := bind_eq_ok.mp h
  dsimp only at hclose
  split at hclose
  · cases hclose
    exact hinner
  · cases hclose

end steps

theorem parse_sound {tokens rest : List Token} (h : parse steps phase tokens = .ok (tree, rest)) :
    ∃ taken, tokens = taken ++ rest ∧ phase.Took taken tree := by
  induction steps generalizing phase tokens rest tree with
  | zero => cases h
  | succ steps ih =>
    cases begins phase tokens with
    | goes hgoes =>
      simp only [parse_goes hgoes, bind_eq_ok, Prod.exists] at h
      obtain ⟨left, middle, hleft, hrest⟩ := h
      obtain ⟨taken, rfl, hfirst⟩ := ih hleft
      obtain ⟨taken', rfl, hfollow⟩ := ih hrest
      exact hgoes.took hfirst hfollow
    | stays hloop hstays =>
      rw [hstays] at h
      cases h
      refine ⟨[], rfl, ?_⟩
      rcases hloop with rfl | rfl <;> exact fun before hbefore => by rwa [append_nil]
    | not tokens =>
      simp only [parse_parseNot, bind_eq_ok, Prod.exists] at h
      obtain ⟨operand, middle, hoperand, heq⟩ := h
      cases heq
      obtain ⟨taken, rfl, hderives⟩ := ih hoperand
      exact ⟨.op .not :: taken, rfl, .not hderives⟩
    | primary hprimary =>
      rw [hprimary] at h
      obtain ⟨taken, rfl, hderives⟩ := ih h
      exact ⟨taken, rfl, .primary hderives⟩
    | ident name tokens =>
      cases h
      exact ⟨[.ident name], rfl, .ident name⟩
    | paren tokens =>
      obtain ⟨taken, rfl, hderives⟩ := ih (parse_paren_eq_ok h)
      exact ⟨.lparen :: taken ++ [Token.rparen], by simp, Derives.paren hderives⟩
    | fails he hfails =>
      rw [hfails] at h
      cases h

theorem bind_stable {x x' : Except RuleError α} {f f' : α → Except RuleError β}
    (hx : x ≠ .error .exhausted → x' = x) (hf : ∀ a, f a ≠ .error .exhausted → f' a = f a)
    (h : (x >>= f) ≠ .error .exhausted) : (x' >>= f') = (x >>= f) := by
  cases x with
  | error e =>
    have hsame : x' = .error e := by
      apply hx
      rintro ⟨⟩
      exact h rfl
    rw [hsame]
    rfl
  | ok a =>
    rw [hx (by simp)]
    exact hf a h

/-- More steps change nothing but running out. -/
theorem parse_succ {tokens : List Token} (h : parse steps phase tokens ≠ .error .exhausted) :
    parse (steps + 1) phase tokens = parse steps phase tokens := by
  induction steps generalizing phase tokens with
  | zero => exact absurd rfl h
  | succ steps ih =>
    cases begins phase tokens with
    | goes hgoes =>
      rw [parse_goes hgoes] at h ⊢
      rw [parse_goes hgoes]
      exact bind_stable ih (fun read hread => ih hread) h
    | stays hloop hstays => rw [hstays, hstays]
    | not | paren => exact bind_stable ih (fun read _ => rfl) h
    | primary hprimary =>
      rw [hprimary] at h ⊢
      rw [hprimary]
      exact ih h
    | ident name tokens => rfl
    | fails he hfails => rw [hfails, hfails]

/-- The functions that a phase may go through without taking a token. -/
def Phase.depth : Phase → Nat
  | .parseOr => 4
  | .parseAnd => 3
  | .parseNot => 2
  | _ => 1

theorem rest_lt {tokens rest : List Token} (h : parse steps phase tokens = .ok (tree, rest))
    (hphase : 1 < phase.depth) :
    rest.length < tokens.length := by
  obtain ⟨taken, rfl, htook⟩ := parse_sound h
  have hne : taken ≠ [] := by
    cases phase with
    | parseOr | parseAnd | parseNot => exact Derives.ne_nil htook
    | orLoop | andLoop | parsePrimary => exact absurd hphase (lt_irrefl 1)
  have hpos := length_pos_of_ne_nil hne
  rw [length_append]
  omega

theorem bind_ne_exhausted {x : Except RuleError α} {f : α → Except RuleError β}
    (hx : x ≠ .error .exhausted) (hf : ∀ a, x = .ok a → f a ≠ .error .exhausted) :
    (x >>= f) ≠ .error .exhausted := by
  cases x with
  | error e =>
    rintro ⟨⟩
    exact hx rfl
  | ok a => exact hf a rfl

theorem Goes.depth {first : Phase} {tokens tokens' : List Token} {follow : ConditionAst → Phase}
    (h : Goes phase tokens first tokens' follow) : 1 < first.depth ∧
      tokens'.length ≤ tokens.length ∧
      4 * tokens'.length + first.depth < 4 * tokens.length + phase.depth ∧
      ∀ read, (follow read).depth = 1 := by
  cases h <;> simp [Phase.depth] <;> omega

/-- Four steps a token and those of the phase suffice. -/
theorem parse_ne_exhausted {tokens : List Token} (h : 4 * tokens.length + phase.depth ≤ steps) :
    parse steps phase tokens ≠ .error .exhausted := by
  induction steps generalizing phase tokens with
  | zero => cases phase <;> simp [Phase.depth] at h
  | succ steps ih =>
    cases begins phase tokens with
    | goes hgoes =>
      obtain ⟨hdeep, hlength, hless, hfollow⟩ := hgoes.depth
      rw [parse_goes hgoes]
      apply bind_ne_exhausted (ih (by omega))
      intro read hread
      have hlt := rest_lt hread hdeep
      have hone := hfollow read.1
      exact ih (by omega)
    | stays hloop hstays =>
      rw [hstays]
      simp
    | not tokens =>
      simp only [Phase.depth, length_cons] at h
      apply bind_ne_exhausted (ih (by simp only [Phase.depth]; omega))
      intro read _
      simp
    | primary hprimary =>
      rw [hprimary]
      exact ih (by simp only [Phase.depth] at h ⊢; omega)
    | ident name tokens => rintro ⟨⟩
    | paren tokens =>
      simp only [Phase.depth, length_cons] at h
      apply bind_ne_exhausted (ih (by simp only [Phase.depth]; omega))
      rintro ⟨inner, rest⟩ _
      dsimp only
      split
      · simp
      · simp
    | fails he hfails =>
      rw [hfails]
      rintro ⟨⟩
      exact he rfl

def Reads (phase : Phase) (tokens : List Token) (read : ConditionAst × List Token) : Prop :=
  ∃ steps, parse steps phase tokens = .ok read

theorem parse_add {tokens : List Token} (h : parse steps phase tokens ≠ .error .exhausted)
    (more : Nat) :
    parse (steps + more) phase tokens = parse steps phase tokens := by
  induction more with
  | zero => rfl
  | succ more ih =>
    rw [← ih] at h
    rw [← Nat.add_assoc, parse_succ h, ih]

theorem Reads.enough {tokens : List Token} {read : ConditionAst × List Token}
    (h : Reads phase tokens read) (henough : parse steps phase tokens ≠ .error .exhausted) :
    parse steps phase tokens = .ok read := by
  obtain ⟨steps', hread⟩ := h
  have hmore := parse_add henough steps'
  rw [Nat.add_comm, parse_add (by rw [hread]; simp), hread] at hmore
  exact hmore.symm

section reads
variable {phase phase' : Phase} {tokens rest : List Token} {read : ConditionAst × List Token}

theorem Reads.both {tokens' : List Token} {read' : ConditionAst × List Token}
    (h : Reads phase tokens read) (h' : Reads phase' tokens' read') :
    ∃ steps, parse steps phase tokens = .ok read ∧ parse steps phase' tokens' = .ok read' := by
  obtain ⟨steps, hsteps⟩ := h
  obtain ⟨steps', hsteps'⟩ := h'
  refine ⟨steps + steps', ?_, ?_⟩
  · rw [parse_add (by rw [hsteps]; simp), hsteps]
  · rw [Nat.add_comm, parse_add (by rw [hsteps']; simp), hsteps']

variable {left : ConditionAst}

theorem reads_goes {first : Phase} {tokens' : List Token} {follow : ConditionAst → Phase}
    (hgoes : Goes phase tokens first tokens' follow) (h : Reads first tokens' (left, rest))
    (h' : Reads (follow left) rest read) : Reads phase tokens read := by
  obtain ⟨steps, hfirst, hfollow⟩ := h.both h'
  refine ⟨steps + 1, ?_⟩
  rw [parse_goes hgoes, hfirst]
  exact hfollow

theorem reads_orLoop_end (h : rest.head? ≠ some (.op .or)) :
    Reads (.orLoop left) rest (left, rest) := by
  refine ⟨1, ?_⟩
  cases begins (.orLoop left) rest with
  | goes hgoes =>
    cases hgoes
    exact absurd rfl h
  | stays hloop hstays =>
    cases hloop.resolve_right (by simp)
    exact hstays 0

theorem reads_andLoop_end (h : rest.head? ≠ some (.op .and)) :
    Reads (.andLoop left) rest (left, rest) := by
  refine ⟨1, ?_⟩
  cases begins (.andLoop left) rest with
  | goes hgoes =>
    cases hgoes
    exact absurd rfl h
  | stays hloop hstays =>
    cases hloop.resolve_left (by simp)
    exact hstays 0

/-- What reading the tokens of a level comes to, with more tokens behind: the loop of the level
goes on with the tree. -/
def Level.Continues : Level → List Token → ConditionAst → Prop
  | .expr, tokens, tree => ∀ rest read, rest.head? ≠ some (.op .and) →
      Reads (.orLoop tree) rest read → Reads .parseOr (tokens ++ rest) read
  | .and, tokens, tree => ∀ rest read, Reads (.andLoop tree) rest read →
      Reads .parseAnd (tokens ++ rest) read
  | _, tokens, tree => ∀ rest, Reads .parseNot (tokens ++ rest) (tree, rest)

theorem Derives.continues {level : Level} {tree : ConditionAst} (h : Derives level tokens tree) :
    level.Continues tokens tree := by
  induction h with
  | @expr tokens tree _ ih =>
    intro rest read hrest hloop
    exact reads_goes (.or _) (ih rest _ (reads_andLoop_end hrest)) hloop
  | @or tokens tokens' left right _ _ ihl ihr =>
    intro rest read hrest hloop
    rw [append_assoc]
    apply ihl _ _ (by simp)
    exact reads_goes (.orLoop _ _) (ihr rest _ (reads_andLoop_end hrest)) hloop
  | @single tokens tree _ ih =>
    intro rest read hloop
    exact reads_goes (.and _) (ih rest) hloop
  | @and tokens tokens' left right _ _ ihl ihr =>
    intro rest read hloop
    rw [append_assoc]
    apply ihl
    exact reads_goes (.andLoop _ _) (ihr rest) hloop
  | @not tokens operand _ ih =>
    intro rest
    obtain ⟨steps, hsteps⟩ := ih rest
    refine ⟨steps + 1, ?_⟩
    rw [cons_append, parse_parseNot, hsteps]
    rfl
  | primary _ ih => exact ih
  | ident name => exact fun rest => ⟨2, rfl⟩
  | @paren tokens tree _ ih =>
    intro rest
    have hinner : Reads .parseOr (tokens ++ .rparen :: rest) (tree, .rparen :: rest) :=
      ih _ _ (by simp) (reads_orLoop_end (by simp))
    obtain ⟨steps, hsteps⟩ := hinner
    refine ⟨steps + 2, ?_⟩
    have hsplit : .lparen :: tokens ++ [.rparen] ++ rest =
        Token.lparen :: (tokens ++ .rparen :: rest) := by simp
    rw [hsplit]
    show (parse steps .parseOr (tokens ++ .rparen :: rest) >>= _) = _
    rw [hsteps]
    rfl

end reads

theorem parseTokens_eq_ok {tokens : List Token} :
    parseTokens tokens = .ok tree ↔ Derives .expr tokens tree := by
  constructor
  · intro h
    simp only [parseTokens, bind_eq_ok, refuseIf_eq_ok, pure_eq_ok, Prod.exists] at h
    obtain ⟨ast, rest, hread, _, hempty, rfl⟩ := h
    obtain rfl : rest = [] := by simpa using hempty
    obtain ⟨taken, htaken, hderives⟩ := parse_sound hread
    rw [htaken, append_nil]
    exact hderives
  · intro h
    have hcontinues := h.continues [] (tree, []) (by simp) (reads_orLoop_end (by simp))
    rw [append_nil] at hcontinues
    have henough : parse (4 * tokens.length + 4) .parseOr tokens ≠ .error .exhausted :=
      parse_ne_exhausted (le_refl _)
    rw [parseTokens, hcontinues.enough henough]
    rfl

def Occurs (name : String) : ConditionAst → Prop
  | .ident name' => name = name'
  | .not operand => Occurs name operand
  | .and left right => Occurs name left ∨ Occurs name right
  | .or left right => Occurs name left ∨ Occurs name right

theorem mem_addName {out : List String} {name name' : String} :
    name ∈ addName out name' ↔ name ∈ out ∨ name = name' := by
  unfold addName
  split
  · next hmem =>
    constructor
    · exact Or.inl
    · rintro (h | rfl)
      · exact h
      · exact hmem
  · rw [mem_append, mem_singleton]

theorem mem_collectIdentifiers {out : List String} {name : String} :
    name ∈ collectIdentifiers tree out ↔ name ∈ out ∨ Occurs name tree := by
  induction tree generalizing out with
  | ident name' => exact mem_addName
  | not operand ih => exact ih
  | and left right ihl ihr => rw [collectIdentifiers, ihr, ihl, or_assoc, Occurs]
  | or left right ihl ihr => rw [collectIdentifiers, ihr, ihl, or_assoc, Occurs]

def ConditionAst.print : ConditionAst → String
  | .ident name => name
  | .not operand => "(not " ++ operand.print ++ ")"
  | .and left right => "(" ++ left.print ++ " and " ++ right.print ++ ")"
  | .or left right => "(" ++ left.print ++ " or " ++ right.print ++ ")"

def ConditionAst.tokens : ConditionAst → List Token
  | .ident name => [.ident name]
  | .not operand => .lparen :: (.op .not :: operand.tokens) ++ [.rparen]
  | .and left right => .lparen :: (left.tokens ++ .op .and :: right.tokens) ++ [.rparen]
  | .or left right => .lparen :: (left.tokens ++ .op .or :: right.tokens) ++ [.rparen]

theorem derives_tokens (tree : ConditionAst) : Derives .primary tree.tokens tree := by
  induction tree with
  | ident name => exact .ident name
  | not operand ih => exact .paren (.expr (.single (.not (.primary ih))))
  | and left right ihl ihr =>
    exact .paren (.expr (.and (.single (.primary ihl)) (.primary ihr)))
  | or left right ihl ihr =>
    exact .paren (.or (.expr (.single (.primary ihl))) (.single (.primary ihr)))

theorem endsWord_cons {c : Char} (h : isWordChar c = false) :
    EndsWord (c :: rest) := by
  rintro d ⟨⟩
  exact h

theorem spells_between {tokens : List Token} (hnames : Names word token)
    (hrest : Spells rest tokens) : Spells (word.toList ++ ' ' :: rest) (token :: tokens) :=
  .word hnames (endsWord_cons (by decide)) (.blank (by decide) hrest)

theorem spells_print (h : ∀ name, Occurs name tree → Identifier name) {tokens : List Token}
    (hends : EndsWord rest) (hrest : Spells rest tokens) :
    Spells (tree.print.toList ++ rest) (tree.tokens ++ tokens) := by
  induction tree generalizing rest tokens with
  | ident name => exact .word (.ident (h name rfl)) hends hrest
  | not operand ih =>
    have hoperand := ih h (endsWord_cons (by decide)) (.rparen hrest)
    have hopen := Spells.lparen (spells_between .not hoperand)
    simpa [ConditionAst.print, ConditionAst.tokens] using hopen
  | and left right ihl ihr =>
    have hright := ihr (fun name ho => h name (Or.inr ho)) (endsWord_cons (by decide)) (.rparen hrest)
    have hleft := ihl (fun name ho => h name (Or.inl ho)) (endsWord_cons (by decide))
      (.blank (c := ' ') (by decide) (spells_between .and hright))
    have hopen := Spells.lparen hleft
    simpa [ConditionAst.print, ConditionAst.tokens] using hopen
  | or left right ihl ihr =>
    have hright := ihr (fun name ho => h name (Or.inr ho)) (endsWord_cons (by decide)) (.rparen hrest)
    have hleft := ihl (fun name ho => h name (Or.inl ho)) (endsWord_cons (by decide))
      (.blank (c := ' ') (by decide) (spells_between .or hright))
    have hopen := Spells.lparen hleft
    simpa [ConditionAst.print, ConditionAst.tokens] using hopen

theorem parseCondition_eq_ok {src : String} {parsed : ParsedCondition} :
    parseCondition src = .ok parsed ↔
      (∃ tokens, Spells src.toList tokens ∧ Derives .expr tokens parsed.ast) ∧
        parsed.identifiers = collectIdentifiers parsed.ast [] := by
  simp only [parseCondition, bind_eq_ok, refuseIf_eq_ok, pure_eq_ok, tokenize_eq_ok,
    parseTokens_eq_ok]
  constructor
  · rintro ⟨tokens, hspells, _, _, ast, hderives, rfl⟩
    exact ⟨⟨tokens, hspells, hderives⟩, rfl⟩
  · rintro ⟨⟨tokens, hspells, hderives⟩, hnames⟩
    have hempty : tokens.isEmpty = false := by simpa using hderives.ne_nil
    refine ⟨tokens, hspells, (), hempty, parsed.ast, hderives, ?_⟩
    rw [← hnames]

theorem wordToken_ne_exhausted (word : String) : wordToken word ≠ .error .exhausted := by
  unfold wordToken
  repeat' split
  all_goals simp

theorem map_ne_exhausted {x : Except RuleError α} {f : α → β} (h : x ≠ .error .exhausted) :
    x.map f ≠ .error .exhausted := by
  cases x with
  | error e =>
    rintro ⟨⟩
    exact h rfl
  | ok a => simp [Except.map]

theorem tokenizeFrom_ne_exhausted (h : chars.length ≤ steps) :
    tokenizeFrom steps chars ≠ .error .exhausted := by
  induction steps generalizing chars with
  | zero =>
    rw [length_eq_zero_iff.mp (le_zero.mp h)]
    simp [tokenizeFrom]
  | succ steps ih =>
    cases chars with
    | nil => simp [tokenizeFrom]
    | cons c rest =>
      have hrest : rest.length ≤ steps := le_of_succ_le_succ h
      rw [tokenizeFrom]
      split
      · exact ih hrest
      split
      · exact map_ne_exhausted (ih hrest)
      split
      · exact map_ne_exhausted (ih hrest)
      split
      · simp
      split
      · apply bind_ne_exhausted (wordToken_ne_exhausted _)
        intro token _
        have hshort := (dropWhile_suffix isWordChar (l := rest)).length_le
        apply bind_ne_exhausted (ih (le_trans hshort hrest))
        intro tokens _
        simp [pure, Except.pure]
      · simp

theorem parseCondition_ne_exhausted (src : String) : parseCondition src ≠ .error .exhausted := by
  apply bind_ne_exhausted (tokenizeFrom_ne_exhausted (le_refl _))
  intro tokens _
  apply bind_ne_exhausted
  · unfold refuseIf
    split
    · simp
    · simp
  intro _ _
  apply bind_ne_exhausted
  · have henough : parse (4 * tokens.length + 4) .parseOr tokens ≠ .error .exhausted :=
      parse_ne_exhausted (le_refl _)
    apply bind_ne_exhausted henough
    intro read _
    apply bind_ne_exhausted
    · unfold refuseIf
      split
      · simp
      · simp
    · intro _ _
      simp [pure, Except.pure]
  · intro tree _
    simp [pure, Except.pure]

/-- The parser is the grammar: it takes the texts that are spelt by tokens that derive a tree,
returns that tree with the names in it, refuses every other text, and reads printed trees back. -/
theorem condition_parser_grammar :
    (∀ src tree, (∃ names, parseCondition src = .ok ⟨tree, names⟩) ↔
      ∃ tokens, Spells src.toList tokens ∧ Derives .expr tokens tree) ∧
    (∀ src parsed, parseCondition src = .ok parsed →
      ∀ name, name ∈ parsed.identifiers ↔ Occurs name parsed.ast) ∧
    (∀ src, (∃ parsed, parseCondition src = .ok parsed) ∨
      ∃ message, parseCondition src = .error (.unsupported message)) ∧
    ∀ tree, (∀ name, Occurs name tree → Identifier name) →
      ∃ names, parseCondition tree.print = .ok ⟨tree, names⟩ := by
  refine ⟨?_, ?_, ?_, ?_⟩
  · intro src tree
    constructor
    · rintro ⟨names, h⟩
      exact (parseCondition_eq_ok.mp h).1
    · intro h
      exact ⟨collectIdentifiers tree [], parseCondition_eq_ok.mpr ⟨h, rfl⟩⟩
  · intro src parsed h name
    rw [(parseCondition_eq_ok.mp h).2, mem_collectIdentifiers]
    simp
  · intro src
    have hsteps := parseCondition_ne_exhausted src
    cases h : parseCondition src with
    | ok parsed => exact Or.inl ⟨parsed, rfl⟩
    | error e =>
      cases e with
      | unsupported message => exact Or.inr ⟨message, rfl⟩
      | exhausted => exact absurd h hsteps
  · intro tree hnames
    have hends : EndsWord [] := by
      rintro c ⟨⟩
    have hspells := spells_print hnames hends .done
    rw [append_nil, append_nil] at hspells
    have hderives := Derives.expr (.single (.primary (derives_tokens tree)))
    exact ⟨collectIdentifiers tree [],
      parseCondition_eq_ok.mpr ⟨⟨tree.tokens, hspells, hderives⟩, rfl⟩⟩

end CyberGuard.Detect
