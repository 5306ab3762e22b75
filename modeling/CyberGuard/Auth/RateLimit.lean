import Mathlib.Data.List.Nodup

/-!
# Attempt counters

The counters of `rl:` keys and the three scripts that change them, each of them one
atomic command over a list of keys. A counter is its value and the end of its
window; what a script does to one key does not depend on the other keys of its
list, so each script has one lemma about the value of one key after it.
-/

namespace CyberGuard.Auth
set_option autoImplicit false

def accountMax : Nat := 5

def ipMax : Nat := 10

def windowMs : Int := 15 * 60 * 1000

def acctKey (org email : String) : String := "rl:acct:" ++ org ++ ":" ++ email

def ipKey (ip : String) : String := "rl:ip:" ++ ip

def userKey (userId : String) : String := "rl:user:" ++ userId

def passwordKey (userId : String) : String := "rl:pw:" ++ userId

structure Counter where
  value : Nat
  expiresAt : Int
  deriving DecidableEq, Repr

abbrev Counters := String → Option Counter

namespace Counters

/-- `tonumber(redis.call('GET', key) or '0')`. -/
def value (c : Counters) (key : String) : Nat := ((c key).map (·.value)).getD 0

def put (c : Counters) (key : String) (counter : Option Counter) : Counters :=
  fun k => if k = key then counter else c k

@[simp] theorem put_self (c : Counters) (key : String) (counter : Option Counter) :
    c.put key counter key = counter := by
  simp [put]

theorem put_of_ne {c : Counters} {key k : String} (counter : Option Counter) (h : k ≠ key) :
    c.put key counter k = c k := by
  simp [put, h]

/-- `INCR`, and `EXPIRE` where it made the value 1. -/
def incr (now : Int) (c : Counters) (key : String) : Counters :=
  let value := c.value key + 1
  if value = 1 then c.put key (some ⟨1, now + windowMs⟩)
  else c.put key ((c key).map fun counter => { counter with value := value })

/-- `EXPIRE` of a counter that is there; a missing one is counted afresh. -/
def refresh (now : Int) (c : Counters) (key : String) : Counters :=
  match c key with
  | some counter => c.put key (some { counter with expiresAt := now + windowMs })
  | none => c.put key (some ⟨1, now + windowMs⟩)

/-- `DECR` of a counter above 0, and `DEL` where it reached 0. -/
def decr (c : Counters) (key : String) : Counters :=
  if 0 < c.value key then
    if c.value key - 1 = 0 then c.put key none
    else c.put key ((c key).map fun counter => { counter with value := c.value key - 1 })
  else c

end Counters

/-- The script `RESERVE` over counters with their thresholds. -/
def reserveScript (now : Int) (counters : List (String × Nat)) (c : Counters) : Counters × Bool :=
  if counters.any fun entry => decide (entry.2 ≤ c.value entry.1) then (c, false)
  else ((counters.map Prod.fst).foldl (Counters.incr now) c, true)

/-- The script `FAILED`. -/
def failedScript (now : Int) (keys : List String) (c : Counters) : Counters :=
  keys.foldl (Counters.refresh now) c

/-- The script `RELEASE`. -/
def releaseScript (keys : List String) (c : Counters) : Counters := keys.foldl Counters.decr c

/-- `DEL` of one counter. -/
def deleteCounter (key : String) (c : Counters) : Counters := c.put key none

namespace Counters

theorem value_put_of_ne {c : Counters} {key k : String} (counter : Option Counter) (h : k ≠ key) :
    (c.put key counter).value k = c.value k := by
  unfold value
  rw [put_of_ne counter h]

theorem value_incr (now : Int) (c : Counters) (key k : String) :
    (c.incr now key).value k = c.value k + if k = key then 1 else 0 := by
  by_cases hk : k = key
  · subst hk
    unfold incr
    by_cases hone : c.value k + 1 = 1
    · have hzero : c.value k = 0 := by omega
      rw [if_pos hone, if_pos rfl, hzero]
      simp [value]
    · simp only [hone, if_false, if_true]
      unfold value at hone ⊢
      cases hc : c k with
      | none => simp [hc] at hone
      | some counter => simp
  · unfold incr
    simp only [hk, if_false, Nat.add_zero]
    split <;> exact value_put_of_ne _ hk

theorem value_refresh (now : Int) (c : Counters) (key k : String) :
    (c.refresh now key).value k =
      if k = key ∧ c k = none then 1 else c.value k := by
  by_cases hk : k = key
  · subst hk
    unfold refresh value
    cases hc : c k <;> simp
  · simp only [hk, false_and, if_false]
    unfold refresh
    split <;> exact value_put_of_ne _ hk

theorem value_decr (c : Counters) (key k : String) :
    (c.decr key).value k = c.value k - if k = key then 1 else 0 := by
  by_cases hk : k = key
  · subst hk
    unfold decr
    by_cases hpos : 0 < c.value k
    · simp only [hpos, if_true]
      by_cases hzero : c.value k - 1 = 0
      · simp only [hzero, if_true]
        simp [value]
      · simp only [hzero, if_false]
        unfold value at hpos ⊢
        cases hc : c k with
        | none => simp [hc] at hpos
        | some counter => simp
    · simp only [hpos, if_false, if_true]
      omega
  · unfold decr
    simp only [hk, if_false, Nat.sub_zero]
    split
    · split <;> exact value_put_of_ne _ hk
    · rfl

end Counters

theorem value_foldl_incr (now : Int) (keys : List String) (c : Counters) (k : String) :
    (keys.foldl (Counters.incr now) c).value k = c.value k + keys.count k := by
  induction keys generalizing c with
  | nil => simp
  | cons key keys ih =>
    rw [List.foldl_cons, ih, Counters.value_incr, List.count_cons]
    by_cases hk : k = key
    · simp [hk]
      omega
    · have hkey : key ≠ k := fun heq => hk heq.symm
      simp [hk, hkey]

theorem value_reserveScript {now : Int} {counters : List (String × Nat)} {c : Counters}
    (h : (reserveScript now counters c).2 = true) (k : String) :
    (reserveScript now counters c).1.value k = c.value k + (counters.map Prod.fst).count k := by
  unfold reserveScript at h ⊢
  split
  · rename_i hfull
    rw [if_pos hfull] at h
    exact absurd h (by simp)
  · exact value_foldl_incr now _ c k

theorem reserveScript_below {now : Int} {counters : List (String × Nat)} {c : Counters}
    (h : (reserveScript now counters c).2 = true) {entry : String × Nat} (hmem : entry ∈ counters) :
    c.value entry.1 < entry.2 := by
  unfold reserveScript at h
  split at h
  · exact absurd h (by simp)
  · rename_i hfree
    by_contra hfull
    apply hfree
    rw [List.any_eq_true]
    exact ⟨entry, hmem, by simpa using hfull⟩

theorem reserveScript_refused {now : Int} {counters : List (String × Nat)} {c : Counters}
    (h : (reserveScript now counters c).2 = false) : (reserveScript now counters c).1 = c := by
  unfold reserveScript at h ⊢
  split
  · rfl
  · rename_i hfree
    rw [if_neg hfree] at h
    exact absurd h (by simp)

theorem value_releaseScript (keys : List String) (c : Counters) (k : String) :
    (releaseScript keys c).value k = c.value k - keys.count k := by
  unfold releaseScript
  induction keys generalizing c with
  | nil => simp
  | cons key keys ih =>
    rw [List.foldl_cons, ih, Counters.value_decr, List.count_cons]
    by_cases hk : k = key
    · simp [hk]
      omega
    · have hkey : key ≠ k := fun heq => hk heq.symm
      simp [hk, hkey]

/-- A counted failure leaves a counter that is there as it is, and makes a missing one 1. -/
theorem value_failedScript (now : Int) (keys : List String) (c : Counters) (k : String) :
    c.value k ≤ (failedScript now keys c).value k ∧
      (failedScript now keys c).value k ≤ max (c.value k) 1 := by
  unfold failedScript
  induction keys generalizing c with
  | nil => exact ⟨Nat.le_refl _, Nat.le_max_left _ _⟩
  | cons key keys ih =>
    rw [List.foldl_cons]
    obtain ⟨hlow, hhigh⟩ := ih (c.refresh now key)
    have hone := Counters.value_refresh now c key k
    by_cases hfresh : k = key ∧ c k = none
    · have hzero : c.value k = 0 := by
        unfold Counters.value
        rw [hfresh.2]
        rfl
      rw [if_pos hfresh] at hone
      omega
    · rw [if_neg hfresh] at hone
      omega

theorem value_deleteCounter {key k : String} (h : k ≠ key) (c : Counters) :
    (deleteCounter key c).value k = c.value k :=
  Counters.value_put_of_ne none h

section Keys

private theorem key_ne {a b x y : String} (h : a.toList[3]? ≠ b.toList[3]?)
    (ha : 3 < a.toList.length) (hb : 3 < b.toList.length) : a ++ x ≠ b ++ y := by
  intro heq
  have hlists : a.toList ++ x.toList = b.toList ++ y.toList := by
    rw [← String.toList_append, ← String.toList_append, heq]
  have hfourth := congrArg (fun l => l[3]?) hlists
  simp only [List.getElem?_append_left ha, List.getElem?_append_left hb] at hfourth
  exact h hfourth

theorem ipKey_ne_acctKey (ip org email : String) : ipKey ip ≠ acctKey org email := by
  unfold ipKey acctKey
  rw [String.append_assoc, String.append_assoc]
  exact key_ne (by decide) (by decide) (by decide)

theorem ipKey_ne_userKey (ip userId : String) : ipKey ip ≠ userKey userId :=
  key_ne (by decide) (by decide) (by decide)

theorem ipKey_ne_passwordKey (ip userId : String) : ipKey ip ≠ passwordKey userId :=
  key_ne (by decide) (by decide) (by decide)

theorem userKey_ne_acctKey (userId org email : String) : userKey userId ≠ acctKey org email := by
  unfold userKey acctKey
  rw [String.append_assoc, String.append_assoc]
  exact key_ne (by decide) (by decide) (by decide)

theorem passwordKey_ne_acctKey (userId org email : String) :
    passwordKey userId ≠ acctKey org email := by
  unfold passwordKey acctKey
  rw [String.append_assoc, String.append_assoc]
  exact key_ne (by decide) (by decide) (by decide)

end Keys

end CyberGuard.Auth
