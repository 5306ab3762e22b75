/-!
# Bounded queues that evict

A queue of bounded length in which a new element pushes the oldest one out, and from
which elements are taken in order. What became of the elements pushed is told by a
split of their sequence: those taken and those evicted, each in its order, and after
both the ones still there.
-/

namespace EvictingQueue
set_option autoImplicit false
open List

universe u v
variable {α : Type u}

/-- The third list is made of the first two, each in its order. -/
inductive Interleaved : List α → List α → List α → Prop where
  | nil : Interleaved [] [] []
  | left {xs ys zs : List α} (a : α) : Interleaved xs ys zs →
      Interleaved (xs ++ [a]) ys (zs ++ [a])
  | right {xs ys zs : List α} (a : α) : Interleaved xs ys zs →
      Interleaved xs (ys ++ [a]) (zs ++ [a])

namespace Interleaved
variable {xs ys zs : List α}

theorem append_left (h : Interleaved xs ys zs) (l : List α) :
    Interleaved (xs ++ l) ys (zs ++ l) := by
  induction l generalizing xs zs with
  | nil =>
    rw [append_nil, append_nil]
    exact h
  | cons a l ih =>
    rw [append_cons xs a l, append_cons zs a l]
    exact ih (h.left a)

theorem length_eq (h : Interleaved xs ys zs) : zs.length = xs.length + ys.length := by
  induction h with
  | nil => rfl
  | left a _ ih =>
    rw [length_append, length_append, ih, length_singleton]
    omega
  | right a _ ih =>
    rw [length_append, length_append, ih, length_singleton]
    omega

theorem sublist_left (h : Interleaved xs ys zs) : xs.Sublist zs := by
  induction h with
  | nil => exact List.Sublist.refl _
  | left a _ ih => exact ih.append (List.Sublist.refl [a])
  | right a _ ih =>
    have hbefore := ih.append (nil_sublist [a])
    rw [append_nil] at hbefore
    exact hbefore

end Interleaved

def push (capacity : Nat) (items : List α) (a : α) : List α :=
  (if capacity ≤ items.length then items.drop 1 else items) ++ [a]

def evicted (capacity : Nat) (items : List α) : List α :=
  if capacity ≤ items.length then items.take 1 else []

theorem length_evicted {capacity : Nat} (hcapacity : 0 < capacity) (items : List α) :
    (evicted capacity items).length = if capacity ≤ items.length then 1 else 0 := by
  unfold evicted
  split
  · rw [length_take]
    omega
  · rfl

/-- Every element pushed was taken, was evicted or is still there. -/
def Account (pushed taken gone items : List α) : Prop :=
  ∃ consumed, Interleaved taken gone consumed ∧ pushed = consumed ++ items

namespace Account
variable {pushed taken gone items : List α}

theorem empty : Account ([] : List α) [] [] [] :=
  ⟨[], .nil, rfl⟩

theorem push (h : Account pushed taken gone items) (capacity : Nat) (a : α) :
    Account (pushed ++ [a]) taken (gone ++ evicted capacity items)
      (EvictingQueue.push capacity items a) := by
  obtain ⟨consumed, hsplit, rfl⟩ := h
  unfold evicted EvictingQueue.push
  by_cases hfull : capacity ≤ items.length
  · rw [if_pos hfull, if_pos hfull]
    cases items with
    | nil =>
      refine ⟨consumed, ?_, ?_⟩
      · rw [take_nil, append_nil]
        exact hsplit
      · rw [drop_nil, append_nil, nil_append]
    | cons first rest =>
      refine ⟨consumed ++ [first], hsplit.right first, ?_⟩
      simp
  · rw [if_neg hfull, if_neg hfull, append_nil]
    exact ⟨consumed, hsplit, append_assoc _ _ _⟩

theorem take (h : Account pushed taken gone items) (n : Nat) :
    Account pushed (taken ++ items.take n) gone (items.drop n) := by
  obtain ⟨consumed, hsplit, rfl⟩ := h
  refine ⟨consumed ++ items.take n, hsplit.append_left _, ?_⟩
  rw [append_assoc, take_append_drop]

theorem length_eq (h : Account pushed taken gone items) :
    pushed.length = taken.length + gone.length + items.length := by
  obtain ⟨consumed, hsplit, rfl⟩ := h
  rw [length_append, hsplit.length_eq]

theorem sublist (h : Account pushed taken gone items) : (taken ++ items).Sublist pushed := by
  obtain ⟨consumed, hsplit, rfl⟩ := h
  exact hsplit.sublist_left.append (List.Sublist.refl items)

end Account

end EvictingQueue
