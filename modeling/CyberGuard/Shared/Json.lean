import Mathlib.Data.List.Sort
import Mathlib.Data.String.Basic

/-!
# JSON values

Values as a parser gives them, over any numbers. The fields of an object are in
their order, and a parser gives each name once. An object is the same value with its
members in any other order: a value's normal form has them sorted by name throughout,
and two values are the same when their normal forms are.
-/

set_option autoImplicit false

inductive Json (N : Type) where
  | null
  | boolean (b : Bool)
  | number (n : N)
  | string (text : String)
  | array (items : List (Json N))
  | object (fields : List (String × Json N))

namespace Json
variable {N : Type}

def member (name : String) : Json N → Option (Json N)
  | .object fields => fields.lookup name
  | _ => none

/-- The fields with the member set: in its place where there is one, last otherwise. -/
def setMember (name : String) (value : Json N) : List (String × Json N) → List (String × Json N)
  | [] => [(name, value)]
  | field :: rest =>
    if field.1 = name then (name, value) :: rest else field :: setMember name value rest

def optionalMember {α : Type} (name : String) (value : Option α) (toJson : α → Json N) :
    List (String × Json N) :=
  (value.map fun a => (name, toJson a)).toList

def orNull {α : Type} (value : Option α) (toJson : α → Json N) : Json N :=
  match value with
  | some a => toJson a
  | none => .null

def sortFields (fields : List (String × Json N)) : List (String × Json N) :=
  fields.insertionSort fun field field' => field.1 ≤ field'.1

mutual
def normal : Json N → Json N
  | .null => .null
  | .boolean b => .boolean b
  | .number n => .number n
  | .string text => .string text
  | .array items => .array (normalItems items)
  | .object fields => .object (sortFields (normalFields fields))

def normalItems : List (Json N) → List (Json N)
  | [] => []
  | item :: rest => item.normal :: normalItems rest

def normalFields : List (String × Json N) → List (String × Json N)
  | [] => []
  | (name, value) :: rest => (name, value.normal) :: normalFields rest
end

def Same (v w : Json N) : Prop := v.normal = w.normal

theorem normalItems_eq (items : List (Json N)) : normalItems items = items.map normal := by
  induction items with
  | nil => rfl
  | cons item rest ih => rw [normalItems, ih, List.map_cons]

theorem lookup_normalFields (name : String) (fields : List (String × Json N)) :
    (normalFields fields).lookup name = (fields.lookup name).map normal := by
  induction fields with
  | nil => rfl
  | cons field rest ih =>
    obtain ⟨name', value⟩ := field
    rw [normalFields, List.lookup_cons, List.lookup_cons, ih]
    cases name == name' with
    | true => rfl
    | false => rfl

theorem lookup_orderedInsert (name : String) (field : String × Json N)
    (fields : List (String × Json N)) :
    (fields.orderedInsert (fun f g => f.1 ≤ g.1) field).lookup name =
      (field :: fields).lookup name := by
  induction fields with
  | nil => rfl
  | cons first rest ih =>
    rw [List.orderedInsert_cons]
    split
    · rfl
    · rename_i hafter
      rw [List.lookup_cons, ih, List.lookup_cons, List.lookup_cons, List.lookup_cons]
      by_cases hfield : name = field.1
      · have hfirst : name ≠ first.1 := by
          intro heq
          exact hafter (le_of_eq (hfield.symm.trans heq))
        rw [beq_iff_eq.mpr hfield, beq_eq_false_iff_ne.mpr hfirst]
      · rw [beq_eq_false_iff_ne.mpr hfield]

theorem lookup_sortFields (name : String) (fields : List (String × Json N)) :
    (sortFields fields).lookup name = fields.lookup name := by
  induction fields with
  | nil => rfl
  | cons field rest ih =>
    rw [sortFields, List.insertionSort_cons, lookup_orderedInsert, List.lookup_cons,
      List.lookup_cons]
    rw [sortFields] at ih
    rw [ih]

theorem member_normal (name : String) (v : Json N) :
    v.normal.member name = (v.member name).map normal := by
  cases v with
  | object fields =>
    rw [normal, member, member, lookup_sortFields, lookup_normalFields]
  | _ => rfl

theorem Same.member {v w : Json N} (h : Same v w) (name : String) :
    (v.member name).map normal = (w.member name).map normal := by
  rw [← member_normal, ← member_normal, h]

theorem normal_eq_string {v : Json N} {text : String} (h : v.normal = .string text) :
    v = .string text := by
  cases v with
  | string _ => exact h
  | _ => cases h

theorem normal_eq_array {v : Json N} {items : List (Json N)}
    (h : v.normal = .array items) : ∃ items', v = .array items' ∧ items'.map normal = items := by
  cases v with
  | array items' =>
    refine ⟨items', rfl, ?_⟩
    rw [← normalItems_eq]
    exact Json.array.inj h
  | _ => cases h

end Json
