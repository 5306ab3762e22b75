import Mathlib.Algebra.Order.Ring.Int

/-!
# Keys that are set once and expire

A key holds the instant it expires at and is live up to and including that
instant: the server drops it when its clock is past the instant. `setNx` sets a
key with a lifetime unless it is live, and says whether it did.

`Claimed keys k hi` is what makes such a key a replay guard: it stays live up to
`hi`, so no second `setNx` before `hi` can win it.
-/

namespace ExpiringKeys
set_option autoImplicit false

universe u
variable {K : Type u}

abbrev Keys (K : Type u) := K → Option Int

def Live (keys : Keys K) (now : Int) (k : K) : Prop := ∃ e, keys k = some e ∧ now ≤ e

instance (keys : Keys K) (now : Int) (k : K) : Decidable (Live keys now k) :=
  match h : keys k with
  | none => .isFalse (by rintro ⟨e, he, _⟩; simp [h] at he)
  | some e => decidable_of_iff (now ≤ e) (by simp [Live, h])

/-- The key stays live up to `hi`. -/
def Claimed (keys : Keys K) (k : K) (hi : Int) : Prop := ∃ e, keys k = some e ∧ hi ≤ e

variable {keys : Keys K} {k : K} {hi now lifetime : Int}

theorem Claimed.live (h : Claimed keys k hi) (hnow : now ≤ hi) : Live keys now k := by
  obtain ⟨e, he, hle⟩ := h
  exact ⟨e, he, hnow.trans hle⟩

variable [DecidableEq K]

def setNx (keys : Keys K) (now lifetime : Int) (k : K) : Keys K × Bool :=
  if Live keys now k then (keys, false)
  else (fun j => if j = k then some (now + lifetime) else keys j, true)

theorem setNx_lost (h : Live keys now k) :
    setNx keys now lifetime k = (keys, false) := by
  simp [setNx, h]

theorem setNx_won (h : ¬ Live keys now k) :
    setNx keys now lifetime k =
      (fun j => if j = k then some (now + lifetime) else keys j, true) := by
  simp [setNx, h]

theorem claimed_of_setNx {lo : Int} (hlo : lo ≤ now) (hhi : hi ≤ lo + lifetime)
    (h : (setNx keys now lifetime k).2 = true) :
    Claimed (setNx keys now lifetime k).1 k hi := by
  by_cases hl : Live keys now k
  · simp [setNx_lost hl] at h
  · rw [setNx_won hl]
    exact ⟨now + lifetime, by simp, by omega⟩

theorem Claimed.setNx (h : Claimed keys k hi) (hlife : 0 ≤ lifetime) (j : K) :
    Claimed (ExpiringKeys.setNx keys now lifetime j).1 k hi := by
  by_cases hl : Live keys now j
  · rw [setNx_lost hl]
    exact h
  · rw [setNx_won hl]
    obtain ⟨e, he, hle⟩ := h
    by_cases hk : k = j
    · subst hk
      have hpast : e < now := lt_of_not_ge fun hge => hl ⟨e, he, hge⟩
      exact ⟨now + lifetime, by simp, by omega⟩
    · exact ⟨e, by simp [hk, he], hle⟩

end ExpiringKeys
