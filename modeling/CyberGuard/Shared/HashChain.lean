import Mathlib.Data.Set.Function
import Mathlib.Data.List.Induction

/-!
# Hash chains

The head of a list of items: the hash of nothing, and for each item the hash of the head
so far and the item's own hash. No hash of a fixed length is injective on all strings, so
what a result needs is that it has no collision among the strings hashed on the way.
-/

namespace HashChain
set_option autoImplicit false
open List

variable {B : Type} (hash : List B → List B)

def link (head item : List B) : List B := hash (head ++ hash item)

def head (items : List (List B)) : List B := items.foldl (link hash) (hash [])

inductive Input (items : List (List B)) : List B → Prop where
  | empty : Input items []
  | item {item : List B} : item ∈ items → Input items item
  | link {front : List (List B)} {item : List B} :
      front ++ [item] <+: items → Input items (head hash front ++ hash item)

variable {hash}

theorem head_concat (items : List (List B)) (item : List B) :
    head hash (items ++ [item]) = hash (head hash items ++ hash item) := by
  rw [head, foldl_append]
  rfl

theorem Input.mono {front items : List (List B)} {input : List B} (h : front <+: items)
    (hinput : Input hash front input) : Input hash items input := by
  cases hinput with
  | empty => exact .empty
  | item hmem => exact .item (h.subset hmem)
  | link hfront => exact .link (hfront.trans h)

theorem length_head {n : Nat} (hlength : ∀ b, (hash b).length = n) (items : List (List B)) :
    (head hash items).length = n := by
  induction items using List.reverseRecOn with
  | nil => exact hlength []
  | append_singleton items item _ =>
    rw [head_concat]
    exact hlength _

theorem head_injective {n : Nat} (hpos : 0 < n) (hlength : ∀ b, (hash b).length = n)
    {items items' : List (List B)}
    (hinj : Set.InjOn hash {b | Input hash items b ∨ Input hash items' b})
    (h : head hash items = head hash items') : items = items' := by
  induction items using List.reverseRecOn generalizing items' with
  | nil =>
    cases items' using List.reverseRecOn with
    | nil => rfl
    | append_singleton items' item' =>
      rw [head_concat] at h
      have hsame : [] = head hash items' ++ hash item' :=
        hinj (Or.inl .empty) (Or.inr (.link (prefix_refl _))) h
      have hlen := congrArg List.length hsame
      rw [length_append, length_head hlength, hlength, length_nil] at hlen
      omega
  | append_singleton items item ih =>
    cases items' using List.reverseRecOn with
    | nil =>
      rw [head_concat] at h
      have hsame : head hash items ++ hash item = [] :=
        hinj (Or.inl (.link (prefix_refl _))) (Or.inr .empty) h
      have hlen := congrArg List.length hsame
      rw [length_append, length_head hlength, hlength, length_nil] at hlen
      omega
    | append_singleton items' item' =>
      rw [head_concat, head_concat] at h
      have hsame : head hash items ++ hash item = head hash items' ++ hash item' :=
        hinj (Or.inl (.link (prefix_refl _))) (Or.inr (.link (prefix_refl _))) h
      -- Both heads have the length of a hash, so the two parts are equal.
      have hlengths : (head hash items).length = (head hash items').length := by
        rw [length_head hlength, length_head hlength]
      obtain ⟨hheads, hitems⟩ := append_inj hsame hlengths
      have hitem : item = item' :=
        hinj (Or.inl (.item (by simp))) (Or.inr (.item (by simp))) hitems
      have hrest : items = items' := by
        apply ih _ hheads
        apply hinj.mono
        intro b hb
        rcases hb with hleft | hright
        · exact Or.inl (hleft.mono (prefix_append _ _))
        · exact Or.inr (hright.mono (prefix_append _ _))
      rw [hrest, hitem]

end HashChain
