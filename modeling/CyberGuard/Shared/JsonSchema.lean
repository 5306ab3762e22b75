import CyberGuard.Shared.Json

/-!
# Schemas of JSON values

A schema says of a member of an object whether it is accepted, `none` being a member
that is absent. An object schema looks at the members it names and at no others.
-/

namespace JsonSchema
set_option autoImplicit false

variable {N : Type}

abbrev Schema (N : Type) := Option (Json N) → Bool

def text (check : String → Bool) : Schema N
  | some (.string t) => check t
  | _ => false

def anyText : Schema N := text fun _ => true

def nonEmptyText : Schema N := text (· ≠ "")

def literalText (expected : String) : Schema N := text (· = expected)

def number (check : N → Bool) : Schema N
  | some (.number n) => check n
  | _ => false

def literalNumber [DecidableEq N] (expected : N) : Schema N := number (· = expected)

def boolean : Schema N
  | some (.boolean _) => true
  | _ => false

def optional (schema : Schema N) : Schema N
  | none => true
  | some value => schema (some value)

/-- The member may be `null`. -/
def nullable (schema : Schema N) : Schema N
  | some .null => true
  | value => schema value

def never : Schema N := fun _ => false

def union (alternatives : List (Schema N)) : Schema N := fun value => alternatives.any (· value)

def object (fields : List (String × Schema N)) : Schema N
  | some (.object members) => fields.all fun field => field.2 (members.lookup field.1)
  | _ => false

@[simp] theorem text_string {check : String → Bool} {t : String} :
    text (N := N) check (some (.string t)) = check t := rfl

@[simp] theorem number_number {check : N → Bool} {n : N} :
    number check (some (.number n)) = check n := rfl

@[simp] theorem optional_none {schema : Schema N} : optional schema none = true := rfl

@[simp] theorem optional_some {schema : Schema N} {value : Json N} :
    optional schema (some value) = schema (some value) := rfl

@[simp] theorem object_object {fields : List (String × Schema N)} {members : List (String × Json N)} :
    object fields (some (.object members)) =
      fields.all fun field => field.2 (members.lookup field.1) := rfl

theorem object_accepts {fields : List (String × Schema N)} {members : List (String × Json N)}
    (h : ∀ field ∈ fields, field.2 (members.lookup field.1) = true) :
    object fields (some (.object members)) = true :=
  List.all_eq_true.mpr h

theorem object_refuses {fields : List (String × Schema N)} {members : List (String × Json N)}
    {name : String} {schema : Schema N} (hmem : (name, schema) ∈ fields)
    (h : schema (members.lookup name) = false) : object fields (some (.object members)) = false :=
  List.all_eq_false.mpr ⟨(name, schema), hmem, by simp [h]⟩

theorem union_of_mem {alternatives : List (Schema N)} {schema : Schema N} {value : Option (Json N)}
    (hmem : schema ∈ alternatives) (h : schema value = true) : union alternatives value = true :=
  List.any_eq_true.mpr ⟨schema, hmem, h⟩

end JsonSchema
