import Mathlib.Algebra.Order.BigOperators.Group.List
import Mathlib.Algebra.Order.Group.Nat
import CyberGuard.Auth.Service

/-!
# The limits hold for any burst

`held` lists the counters an attempt has a slot on: from its reservation until the
slot is given back, and for good where the attempt ended in a counted failure. One
inequality about one step carries everything: a counter's value never falls by more
than the slots the attempt gives up, and grows only below its threshold.
-/

namespace CyberGuard.Auth
set_option autoImplicit false
open Interleaving StoreCalls List

/-- The counters of the address, TOTP-confirmation and password-change limits. -/
inductive Limited : String → Nat → Prop where
  | ip (ip : String) : Limited (ipKey ip) ipMax
  | user (userId : String) : Limited (userKey userId) accountMax
  | password (userId : String) : Limited (passwordKey userId) accountMax

namespace Limited
variable {k : String} {max : Nat}

theorem one_le (h : Limited k max) : 1 ≤ max := by
  cases h <;> decide

theorem ne_acct (h : Limited k max) (org email : String) : k ≠ acctKey org email := by
  cases h with
  | ip ip => exact ipKey_ne_acctKey ip org email
  | user userId => exact userKey_ne_acctKey userId org email
  | password userId => exact passwordKey_ne_acctKey userId org email

/-- A counter has one threshold. -/
theorem max_eq (h : Limited k max) {k' : String} {max' : Nat} (h' : Limited k' max') (hk : k = k') :
    max = max' := by
  cases h with
  | ip ip =>
    cases h' with
    | ip _ => rfl
    | user userId => exact absurd hk (ipKey_ne_userKey ip userId)
    | password userId => exact absurd hk (ipKey_ne_passwordKey ip userId)
  | user userId =>
    cases h' with
    | ip ip => exact absurd hk.symm (ipKey_ne_userKey ip userId)
    | _ => rfl
  | password userId =>
    cases h' with
    | ip ip => exact absurd hk.symm (ipKey_ne_passwordKey ip userId)
    | _ => rfl

end Limited

/-- Whoever reserves a slot on the counter does so under this threshold. -/
structure Threshold (k : String) (max : Nat) : Prop where
  one_le : 1 ≤ max
  login : ∀ a : LoginAttempt, ∀ entry ∈ a.counters, entry.1 = k → entry.2 = max
  confirm : ∀ a : ConfirmAttempt, ∀ entry ∈ a.counters, entry.1 = k → entry.2 = max
  password : ∀ a : PasswordChange, a.key = k → accountMax = max

variable {k : String} {max i : Nat} {w : World} {s s' : Store} {c c' : Call} {input : Input}

theorem Limited.threshold (h : Limited k max) : Threshold k max where
  one_le := h.one_le
  login := by
    intro a entry hentry hkey
    rcases mem_cons.mp hentry with rfl | hentry
    · exact absurd hkey.symm (h.ne_acct org a.email)
    · obtain rfl := mem_singleton.mp hentry
      exact Limited.max_eq (.ip _) h hkey
  confirm := by
    intro a entry hentry hkey
    rcases mem_cons.mp hentry with rfl | hentry
    · exact Limited.max_eq (.user _) h hkey
    · obtain rfl := mem_singleton.mp hentry
      exact Limited.max_eq (.ip _) h hkey
  password := fun a hkey => Limited.max_eq (.password _) h hkey

theorem acct_threshold (email : String) : Threshold (acctKey org email) accountMax where
  one_le := by decide
  login := by
    intro a entry hentry hkey
    rcases mem_cons.mp hentry with rfl | hentry
    · rfl
    · obtain rfl := mem_singleton.mp hentry
      exact absurd hkey (ipKey_ne_acctKey _ org email)
  confirm := by
    intro a entry hentry hkey
    rcases mem_cons.mp hentry with rfl | hentry
    · exact absurd hkey (userKey_ne_acctKey _ org email)
    · obtain rfl := mem_singleton.mp hentry
      exact absurd hkey (ipKey_ne_acctKey _ org email)
  password := fun a _ => rfl

namespace LoginAttempt

def held (a : LoginAttempt) : LoginPc → List String
  | .reserve | .lastLogin _ _ _ | .auditOk _ _ _ => []
  | .releaseIp _ _ _ => [a.ip]
  | .auditFail count _ | .done _ count => if count then a.keys else []
  | _ => a.keys

end LoginAttempt

namespace ConfirmAttempt

def held (a : ConfirmAttempt) : ConfirmPc → List String
  | .reserve => []
  | .done _ counted => if counted then a.keys else []
  | _ => a.keys

end ConfirmAttempt

namespace PasswordChange

def held (a : PasswordChange) : PasswordPc → List String
  | .reserve => []
  | .done _ counted => if counted then [a.key] else []
  | _ => [a.key]

end PasswordChange

/-- The counters an attempt has a slot on: it is in flight there, or ended in a counted
failure. -/
def Call.held : Call → List String
  | .login a pc => a.held pc
  | .confirm a pc => a.held pc
  | .password a pc => a.held pc
  | _ => []

/-- The slots granted and not given back, by call, beside the counters. -/
def Store.slots (s : Store) : Counters × List (Nat × String) × List (Nat × String) :=
  (s.counters, s.grants, s.releases)

theorem Store.slots_revokeSession (s : Store) (token : String) :
    (s.revokeSession token).slots = s.slots := by
  unfold Store.revokeSession
  split <;> rfl

def Store.granted (s : Store) (k : String) : Nat := s.grants.countP (·.2 == k)

def Store.givenBack (s : Store) (k : String) : Nat := s.releases.countP (·.2 == k)

structure SlotStep (k : String) (max : Nat) (s : Store) (had : Nat) (s' : Store) (has : Nat) :
    Prop where
  kept : s.counters.value k + has ≤ s'.counters.value k + had
  bounded : s.counters.value k ≤ max → s'.counters.value k ≤ max
  ledger : s'.granted k + s.counters.value k + s.givenBack k ≤
    s.granted k + s'.counters.value k + s'.givenBack k

namespace SlotStep
variable {k : String} {max had has : Nat} {s s' : Store}

theorem same (hslots : s'.slots = s.slots) (h : has ≤ had) : SlotStep k max s had s' has := by
  obtain ⟨hcounters, hlogs⟩ := Prod.mk.inj hslots
  obtain ⟨hgrants, hreleases⟩ := Prod.mk.inj hlogs
  refine ⟨?_, ?_, ?_⟩
  · rw [hcounters]
    omega
  · rw [hcounters]
    exact id
  · unfold Store.granted Store.givenBack
    rw [hcounters, hgrants, hreleases]

variable {i : Nat}

theorem reserve {counters : List (String × Nat)} (hcount : (counters.map Prod.fst).count k ≤ 1)
    (hmax : ∀ entry ∈ counters, entry.1 = k → entry.2 = max)
    (hgranted : (reserveScript s.clock counters s.counters).2 = true)
    (hhas : has ≤ (counters.map Prod.fst).count k) :
    SlotStep k max s 0 (s.reserve i counters) has := by
  have hvalue : (s.reserve i counters).counters.value k = _ := value_reserveScript hgranted k
  have hgrants : (s.reserve i counters).granted k =
      s.granted k + (counters.map Prod.fst).count k := by
    unfold Store.granted Store.reserve
    rw [if_pos hgranted, countP_append, countP_map, List.count, countP_map]
    rfl
  have hback : (s.reserve i counters).givenBack k = s.givenBack k := rfl
  refine ⟨by omega, ?_, by omega⟩
  intro hbound
  by_cases hmem : k ∈ counters.map Prod.fst
  · obtain ⟨entry, hentry, hkey⟩ := mem_map.mp hmem
    have hbelow := reserveScript_below hgranted hentry
    rw [hmax entry hentry hkey, hkey] at hbelow
    omega
  · have hzero := count_eq_zero.mpr hmem
    omega

theorem refused {counters : List (String × Nat)}
    (hrefused : (reserveScript s.clock counters s.counters).2 = false) :
    SlotStep k max s 0 (s.reserve i counters) 0 := by
  apply same _ (Nat.le_refl 0)
  unfold Store.slots Store.reserve
  rw [hrefused, reserveScript_refused hrefused]
  rfl

theorem failed (hone : 1 ≤ max) (s : Store) (keys : List String) (h : has ≤ had) :
    SlotStep k max s had (s.failed keys) has := by
  obtain ⟨hlow, hhigh⟩ := value_failedScript s.clock keys s.counters k
  have hvalue : (s.failed keys).counters = failedScript s.clock keys s.counters := rfl
  have hgrants : (s.failed keys).granted k = s.granted k := rfl
  have hback : (s.failed keys).givenBack k = s.givenBack k := rfl
  rw [← hvalue] at hlow hhigh
  refine ⟨by omega, fun hbound => ?_, by omega⟩
  exact hhigh.trans (Nat.max_le.mpr ⟨hbound, hone⟩)

theorem release {keys : List String} (h : has + keys.count k ≤ had) :
    SlotStep k max s had (s.release i keys) has := by
  have hvalue : (s.release i keys).counters.value k = _ := value_releaseScript keys s.counters k
  have hgrants : (s.release i keys).granted k = s.granted k := rfl
  have hback : (s.release i keys).givenBack k = s.givenBack k + keys.count k := by
    unfold Store.givenBack Store.release
    rw [countP_append, countP_map, List.count]
    rfl
  refine ⟨?_, fun hbound => ?_, ?_⟩ <;> omega

theorem clear {key : String} (hne : k ≠ key) (h : has ≤ had) :
    SlotStep k max s had (s.clearCounter key) has := by
  have hvalue : (s.clearCounter key).counters.value k = _ := value_deleteCounter hne s.counters
  have hgrants : (s.clearCounter key).granted k = s.granted k := rfl
  have hback : (s.clearCounter key).givenBack k = s.givenBack k := rfl
  refine ⟨?_, fun hbound => ?_, ?_⟩ <;> omega

end SlotStep

namespace LoginAttempt
variable (a : LoginAttempt)

theorem keys_nodup : a.keys.Nodup := by
  have hne : a.acct ≠ a.ip := (ipKey_ne_acctKey a.ctx.sourceIp org a.email).symm
  simpa [keys] using hne

theorem held_sublist (pc : LoginPc) : (a.held pc).Sublist a.keys := by
  cases pc with
  | auditFail count _ => cases count <;> simp [held]
  | done _ count => cases count <;> simp [held]
  | releaseIp _ _ _ => exact sublist_cons_self a.acct [a.ip]
  | _ => simp [held]

/-- The next command deletes the account's counter. -/
def clearing : LoginPc → Bool
  | .clearAccount _ _ _ => true
  | _ => false

end LoginAttempt

namespace ConfirmAttempt
variable (a : ConfirmAttempt)

theorem keys_nodup : a.keys.Nodup := by
  have hne : a.user ≠ a.ip := (ipKey_ne_userKey a.ctx.sourceIp a.userId).symm
  simpa [keys] using hne

theorem held_sublist (pc : ConfirmPc) : (a.held pc).Sublist a.keys := by
  cases pc with
  | done _ counted => cases counted <;> simp [held]
  | _ => simp [held]

theorem slots_enrolled (s : Store) : (a.enrolled s).slots = s.slots := by
  unfold enrolled
  split <;> rfl

end ConfirmAttempt

namespace PasswordChange
variable (a : PasswordChange)

theorem held_sublist (pc : PasswordPc) : (a.held pc).Sublist [a.key] := by
  cases pc with
  | done _ counted => cases counted <;> simp [held]
  | _ => simp [held]

theorem slots_commit (input : Input) (s : Store) (row : UserRow) :
    (a.commit input s row).slots = s.slots := by
  simp only [commit, Store.appendAudit]
  split <;> rfl

end PasswordChange

theorem RevokePc.slots_effect (s : Store) (pc : RevokePc) : (pc.effect s).slots = s.slots := by
  cases pc <;> rfl

theorem slots_of_change (a : UserChange) (input : Input) (s : Store) (pc : ChangePc) :
    (a.effect input s pc).slots = s.slots := by
  cases pc with
  | transaction =>
    simp only [UserChange.effect]
    split <;> rfl
  | revoking version pc => exact pc.slots_effect s
  | revokingUncertain pc => exact pc.slots_effect s
  | done outcome => rfl

theorem slots_of_resolve (w : World) (s : Store) (pc : ResolvePc) :
    (pc.effect w s).slots = s.slots := by
  cases pc with
  | rewrite token entry now =>
    simp only [ResolvePc.effect, Store.rewriteSession]
    split <;> rfl
  | _ => rfl

theorem slots_of_logout (s : Store) (pc : LogoutPc) :
    (pc.effect s).slots = s.slots := by
  cases pc with
  | revoke token ctx session => exact s.slots_revokeSession token
  | _ => rfl

namespace Call

/-- The call's next command deletes the counter. -/
def clears (k : String) : Call → Bool
  | .login a pc => LoginAttempt.clearing pc && a.acct == k
  | _ => false

/-- The command the call waits for is a `RELEASE`. -/
def releasing : Call → Bool
  | .login _ (.reject false _) | .login _ (.releaseIp _ _ _) | .login _ .unwind => true
  | .confirm _ .release | .confirm _ .unwind => true
  | .password _ (.release _) | .password _ .unwind => true
  | _ => false

/-- The call has come to its `RELEASE`, or has settled without one. -/
def released : Call → Bool
  | .login _ (.auditFail _ _) | .login _ (.lastLogin _ _ _) | .login _ (.auditOk _ _ _)
  | .login _ (.done _ _) => true
  | .confirm _ (.auditFail _) | .confirm _ (.done _ _) => true
  | .password _ (.auditFail _) | .password _ (.done _ _) => true
  | _ => false

/-- The attempt has not made its first command. -/
def reserving : Call → Bool
  | .login _ .reserve | .confirm _ .reserve | .password _ .reserve => true
  | _ => false

def refused : Call → Bool
  | .login _ (.done .rateLimited _) | .confirm _ (.done .rateLimited _)
  | .password _ (.done .rateLimited _) => true
  | _ => false

/-- The counters the attempt reserves a slot on, each with its threshold. -/
def counters : Call → List (String × Nat)
  | .login a _ => a.counters
  | .confirm a _ => a.counters
  | .password a _ => [(a.key, accountMax)]
  | _ => []

/-- The slots that are left when the command has been carried out, a reservation apart. -/
def kept (c : Call) : List String := if c.releasing then [] else c.held

/-- The most slots the call can have when the command has been carried out. -/
def mayHold (s : Store) (c : Call) : List String :=
  if c.reserving && (reserveScript s.clock c.counters s.counters).2 then c.counters.map Prod.fst
  else c.kept

variable {k : String} {max : Nat} {s : Store} {c c' : Call} {input : Input}

theorem counters_nodup (c : Call) : (c.counters.map Prod.fst).Nodup := by
  cases c with
  | login a pc => exact a.keys_nodup
  | confirm a pc => exact a.keys_nodup
  | password a pc => exact nodup_singleton a.key
  | _ => exact nodup_nil

theorem held_sublist (c : Call) : c.held.Sublist (c.counters.map Prod.fst) := by
  cases c with
  | login a pc => exact a.held_sublist pc
  | confirm a pc => exact a.held_sublist pc
  | password a pc => exact a.held_sublist pc
  | _ => exact nil_sublist []

theorem kept_sublist (c : Call) : c.kept.Sublist c.held := by
  unfold kept
  split
  · exact nil_sublist _
  · exact List.Sublist.refl _

theorem kept_sublist_mayHold (s : Store) (c : Call) : c.kept.Sublist (c.mayHold s) := by
  unfold mayHold
  split
  · exact c.kept_sublist.trans c.held_sublist
  · exact List.Sublist.refl _

theorem max_of_counters (hk : Threshold k max) (c : Call) :
    ∀ entry ∈ c.counters, entry.1 = k → entry.2 = max := by
  cases c with
  | login a pc => exact hk.login a
  | confirm a pc => exact hk.confirm a
  | password a pc =>
    intro entry hentry hkey
    obtain rfl := mem_singleton.mp hentry
    exact hk.password a hkey
  | _ => simp [counters]

/-- What the command a call waits for does to the slots. -/
inductive SlotEffect (i : Nat) (s : Store) (c : Call) : Store → Prop where
  | reserve (h : c.reserving = true) (hheld : c.held = []) (hnot : c.releasing = false) :
      SlotEffect i s c (s.reserve i c.counters)
  | release (h : c.releasing = true) (hnot : c.reserving = false) :
      SlotEffect i s c (s.release i c.held)
  | failed (keys : List String) (hnot : c.reserving = false) : SlotEffect i s c (s.failed keys)
  | clear (key : String) (h : c.clears key = true) : SlotEffect i s c (s.clearCounter key)
  | same {s' : Store} (hslots : s'.slots = s.slots) (hnot : c.reserving = false) :
      SlotEffect i s c s'

theorem slotEffect (w : World) (i : Nat) (input : Input) (s : Store) (c : Call) :
    SlotEffect i s c (c.effect w i input s) := by
  cases c with
  | login a pc =>
    cases pc with
    | reserve => exact .reserve rfl rfl rfl
    | reject count user =>
      cases count with
      | true => exact .failed a.keys rfl
      | false => exact .release rfl rfl
    | clearAccount user token csrfToken =>
      exact .clear a.acct (by simp [clears, LoginAttempt.clearing])
    | releaseIp | unwind => exact .release rfl rfl
    | revoke user token => exact .same (s.slots_revokeSession token) rfl
    | _ => exact .same rfl rfl
  | confirm a pc =>
    cases pc with
    | reserve => exact .reserve rfl rfl rfl
    | reject row => exact .failed a.keys rfl
    | release | unwind => exact .release rfl rfl
    | setEnrolled row => exact .same (a.slots_enrolled s) rfl
    | _ => exact .same rfl rfl
  | password a pc =>
    cases pc with
    | reserve => exact .reserve rfl rfl rfl
    | reject row => exact .failed [a.key] rfl
    | release | unwind => exact .release rfl rfl
    | transaction row => exact .same (a.slots_commit input s row) rfl
    | revoking version pc => exact .same (pc.slots_effect s) rfl
    | revokingUncertain pc => exact .same (pc.slots_effect s) rfl
    | _ => exact .same rfl rfl
  | change a pc => exact .same (slots_of_change a input s pc) rfl
  | resolve pc => exact .same (slots_of_resolve w s pc) rfl
  | logout pc => exact .same (slots_of_logout s pc) rfl

theorem SlotEffect.slotStep {i has : Nat} {s' : Store} (h : SlotEffect i s c s')
    (hk : Threshold k max) (hclears : c.clears k = false) (hhas : has ≤ (c.mayHold s).count k) :
    SlotStep k max s (c.held.count k) s' has := by
  have hheld (hnot : c.reserving = false) : has ≤ c.held.count k := by
    rw [mayHold, hnot] at hhas
    exact hhas.trans (c.kept_sublist.count_le k)
  cases h with
  | reserve hreserving hnil hnot =>
    rw [hnil]
    cases hgranted : (reserveScript s.clock c.counters s.counters).2 with
    | true =>
      rw [mayHold, hreserving, hgranted] at hhas
      exact SlotStep.reserve (nodup_iff_count_le_one.mp c.counters_nodup k)
        (c.max_of_counters hk) hgranted hhas
    | false =>
      have hzero : has = 0 := by
        rw [mayHold, hgranted, Bool.and_false, kept, hnot, hnil] at hhas
        exact Nat.le_zero.mp hhas
      rw [hzero]
      exact SlotStep.refused hgranted
  | release hreleasing hnot =>
    rw [mayHold, hnot, kept, hreleasing] at hhas
    exact SlotStep.release (by rw [Nat.le_zero.mp hhas, Nat.zero_add])
  | failed keys hnot => exact SlotStep.failed hk.one_le s keys (hheld hnot)
  | clear key hkey =>
    have hne : k ≠ key := by
      rintro rfl
      rw [hclears] at hkey
      cases hkey
    have hnot : c.reserving = false := by
      cases c with
      | login a pc => cases pc <;> first | rfl | simp [clears, LoginAttempt.clearing] at hkey
      | _ => cases hkey
    exact SlotStep.clear hne (hheld hnot)
  | same hslots hnot => exact SlotStep.same hslots (hheld hnot)

theorem SlotEffect.releases {i : Nat} {s' : Store} (h : SlotEffect i s c s') :
    ∃ keys : List String, keys.Nodup ∧ (c.releasing = false → keys = []) ∧
      s'.releases = s.releases ++ keys.map (Prod.mk i) := by
  have hnone {s' : Store} (hsame : s'.releases = s.releases) : ∃ keys : List String, keys.Nodup ∧
      (c.releasing = false → keys = []) ∧ s'.releases = s.releases ++ keys.map (Prod.mk i) :=
    ⟨[], nodup_nil, fun _ => rfl, by simpa using hsame⟩
  cases h with
  | release hreleasing _ =>
    refine ⟨c.held, c.held_sublist.nodup c.counters_nodup, fun hnot => ?_, rfl⟩
    rw [hreleasing] at hnot
    cases hnot
  | same hslots _ => exact hnone (congrArg (fun slots => slots.2.2) hslots)
  | _ => exact hnone rfl

/-- Where a call goes after a command: past its `RELEASE` for good once it has come to it. -/
theorem next_spec (w : World) (input : Input) (s : Store) (c : Call) :
    ((c.releasing = true ∨ c.released = true) → (c.next w input s).released = true) ∧
      (c.next w input s).held.Sublist (c.mayHold s) := by
  cases c with
  | login a pc =>
    have hkeys := a.held_sublist (a.next w input s pc)
    cases pc with
    | reserve =>
      refine ⟨by simp [releasing, released], ?_⟩
      change (a.held (a.next w input s .reserve)).Sublist _
      rw [mayHold, show reserving _ = true from rfl, Bool.true_and]
      split
      · exact hkeys
      · next hrefused =>
        have hrefused : ¬ (reserveScript s.clock a.counters s.counters).2 = true := hrefused
        rw [LoginAttempt.next, if_neg hrefused]
        exact nil_sublist _
    | reject count user => cases count <;> exact ⟨fun _ => rfl, List.Sublist.refl _⟩
    | auditFail | releaseIp | lastLogin | auditOk | unwind | done =>
      exact ⟨fun _ => rfl, List.Sublist.refl _⟩
    | _ => exact ⟨by simp [releasing, released], hkeys⟩
  | confirm a pc =>
    have hkeys := a.held_sublist (a.next w s pc)
    cases pc with
    | reserve =>
      refine ⟨by simp [releasing, released], ?_⟩
      change (a.held (a.next w s .reserve)).Sublist _
      rw [mayHold, show reserving _ = true from rfl, Bool.true_and]
      split
      · exact hkeys
      · next hrefused =>
        have hrefused : ¬ (reserveScript s.clock a.counters s.counters).2 = true := hrefused
        rw [ConfirmAttempt.next, if_neg hrefused]
        exact nil_sublist _
    | reject row => exact ⟨by simp [releasing, released], List.Sublist.refl _⟩
    | auditFail | release | unwind | done => exact ⟨fun _ => rfl, List.Sublist.refl _⟩
    | _ => exact ⟨by simp [releasing, released], hkeys⟩
  | password a pc =>
    have hkeys := a.held_sublist (a.next w input s pc)
    cases pc with
    | reserve =>
      refine ⟨by simp [releasing, released], ?_⟩
      change (a.held (a.next w input s .reserve)).Sublist _
      rw [mayHold, show reserving _ = true from rfl, Bool.true_and]
      split
      · exact hkeys
      · next hrefused =>
        have hrefused : ¬ (reserveScript s.clock [(a.key, accountMax)] s.counters).2 = true := hrefused
        rw [PasswordChange.next, if_neg hrefused]
        exact nil_sublist _
    | auditFail | release | unwind | done => exact ⟨fun _ => rfl, List.Sublist.refl _⟩
    | _ => exact ⟨by simp [releasing, released], hkeys⟩
  | _ => exact ⟨by simp [releasing, released], nil_sublist _⟩

/-- A failed call is answered as unavailable, not as refused. -/
theorem failed_spec (h : c.failed input = some c' ∨ c.lost input = some c') :
    ((c.releasing = true ∨ c.released = true) → c'.released = true) ∧ c'.refused = false ∧
      c'.held.Sublist c.kept := by
  cases c with
  | login a pc =>
    obtain ⟨pc', hfailed, rfl⟩ := Option.map_eq_some_iff.mp (h.elim id id)
    cases pc with
    | verify | done => cases hfailed
    | reject count user =>
      obtain rfl := Option.some.inj hfailed
      cases count <;> exact ⟨fun _ => rfl, rfl, List.Sublist.refl _⟩
    | _ =>
      obtain rfl := Option.some.inj hfailed
      simp [releasing, released, refused, kept, held, LoginAttempt.held]
  | confirm a pc =>
    obtain ⟨pc', hfailed, rfl⟩ := Option.map_eq_some_iff.mp (h.elim id id)
    cases pc with
    | verify | done => cases hfailed
    | _ =>
      obtain rfl := Option.some.inj hfailed
      simp [releasing, released, refused, kept, held, ConfirmAttempt.held]
  | password a pc =>
    cases pc with
    | verify | done => rcases h with h | h <;> cases h
    | transaction row =>
      rcases h with h | h <;> obtain rfl := Option.some.inj h
      · refine ⟨by simp [releasing, released], ?_⟩
        cases input.uncertain <;> exact ⟨rfl, List.Sublist.refl _⟩
      · exact ⟨by simp [releasing, released], rfl, List.Sublist.refl _⟩
    | _ =>
      rcases h with h | h <;> obtain rfl := Option.some.inj h <;>
        simp [releasing, released, refused, kept, held, PasswordChange.held]
  | change | resolve | logout =>
    rcases h with h | h <;> obtain ⟨pc', _, rfl⟩ := Option.map_eq_some_iff.mp h <;>
      exact ⟨by simp [releasing, released], rfl, nil_sublist _⟩

end Call

theorem Limited.not_clears {k : String} {max : Nat} (h : Limited k max) (c : Call) :
    c.clears k = false := by
  cases c with
  | login a pc =>
    have hne : a.acct ≠ k := (h.ne_acct org a.email).symm
    simp [Call.clears, hne]
  | _ => rfl

theorem slots_step {w : World} {k : String} {max : Nat} (hk : Threshold k max) {i : Nat}
    {s s' : Store} {c c' : Call} (hclears : c.clears k = false)
    (h : Called (calls w) i s c s' c') :
    SlotStep k max s (c.held.count k) s' (c'.held.count k) := by
  cases h with
  | answered hans =>
    cases hans with
    | intro input _ =>
      have hnext := (c.next_spec w input s).2
      exact (c.slotEffect w i input s).slotStep hk hclears (hnext.count_le k)
  | failed input hfailed =>
    have hheld := (Call.failed_spec (Or.inl hfailed)).2.2
    exact SlotStep.same rfl ((hheld.trans c.kept_sublist).count_le k)
  | lost input _ hlost =>
    have hheld := (Call.failed_spec (Or.inr hlost)).2.2
    exact (c.slotEffect w i input s).slotStep hk hclears
      ((hheld.trans (c.kept_sublist_mayHold s)).count_le k)

/-- What one command adds to the `RELEASE` calls: nothing, or those of a call that had made none
and makes no other. -/
theorem releases_step {w : World} {i : Nat} {s s' : Store} {c c' : Call}
    (h : Called (calls w) i s c s' c') :
    (c.released = true → c'.released = true) ∧ ∃ keys : List String, keys.Nodup ∧
      (keys ≠ [] → c.released = false ∧ c'.released = true) ∧
      s'.releases = s.releases ++ keys.map (Prod.mk i) := by
  have hsettled : c.releasing = true → c.released = false := by
    cases c with
    | login a pc => cases pc <;> simp [Call.releasing, Call.released]
    | confirm a pc => cases pc <;> simp [Call.releasing, Call.released]
    | password a pc => cases pc <;> simp [Call.releasing, Call.released]
    | _ => simp [Call.releasing]
  have hmake {keys : List String} (hnone : c.releasing = false → keys = [])
      (hnext : c.releasing = true → c'.released = true) (hne : keys ≠ []) :
      c.released = false ∧ c'.released = true := by
    have hreleasing : c.releasing = true := by
      by_contra hfalse
      exact hne (hnone (by simpa using hfalse))
    exact ⟨hsettled hreleasing, hnext hreleasing⟩
  cases h with
  | answered hans =>
    cases hans with
    | intro input _ =>
      have hnext := (c.next_spec w input s).1
      obtain ⟨keys, hnodup, hnone, hkeys⟩ := (c.slotEffect w i input s).releases
      exact ⟨fun h => hnext (Or.inr h), keys, hnodup, hmake hnone fun h => hnext (Or.inl h), hkeys⟩
  | failed input hfailed =>
    have hnext := (Call.failed_spec (Or.inl hfailed)).1
    exact ⟨fun h => hnext (Or.inr h), [], nodup_nil, fun hne => absurd rfl hne, by simp⟩
  | lost input _ hlost =>
    have hnext := (Call.failed_spec (Or.inr hlost)).1
    obtain ⟨keys, hnodup, hnone, hkeys⟩ := (c.slotEffect w i input s).releases
    exact ⟨fun h => hnext (Or.inr h), keys, hnodup, hmake hnone fun h => hnext (Or.inl h), hkeys⟩

/-- No slot was given back twice, and none by a call still to come. -/
def ReleasedOnce (n : Nat) (s : Store) : Prop :=
  s.releases.Nodup ∧ ∀ e ∈ s.releases, e.1 < n

def NotYetReleased (i : Nat) (s : Store) (c : Call) : Prop :=
  c.released = false → ∀ k, (i, k) ∉ s.releases

theorem releases_outline (w : World) : Outline (service w) ReleasedOnce NotYetReleased where
  spawn := by
    intro n s c hG _
    refine ⟨⟨hG.1, fun e he => Nat.lt_succ_of_lt (hG.2 e he)⟩, ?_⟩
    intro _ k hmem
    exact Nat.lt_irrefl n (hG.2 _ hmem)
  self := by
    intro n i s c s' c' hi hG hL hact
    obtain ⟨hstay, keys, hnodup, hmade, hkeys⟩ := releases_step hact
    unfold ReleasedOnce NotYetReleased
    rw [hkeys]
    refine ⟨⟨?_, ?_⟩, ?_⟩
    · have hnew : (keys.map (Prod.mk i)).Nodup :=
        hnodup.map fun _ _ heq => (Prod.mk.inj heq).2
      apply hG.1.append hnew
      intro e hold he
      obtain ⟨k, hk, rfl⟩ := mem_map.mp he
      exact hL (hmade (ne_nil_of_mem hk)).1 k hold
    · intro e he
      rcases mem_append.mp he with hold | hnew
      · exact hG.2 e hold
      · obtain ⟨k, _, rfl⟩ := mem_map.mp hnew
        exact hi
    · intro hc' k hmem
      have hc : c.released = false := by
        by_contra hne
        have := hstay (by simpa using hne)
        simp [this] at hc'
      rcases mem_append.mp hmem with hold | hnew
      · exact hL hc k hold
      · obtain ⟨k', hk', _⟩ := mem_map.mp hnew
        have := (hmade (ne_nil_of_mem hk')).2
        simp [this] at hc'
  other := by
    intro n i j s c s' c' d hne hG hL hother hact hd k hmem
    obtain ⟨_, keys, _, _, hkeys⟩ := releases_step hact
    rw [hkeys] at hmem
    rcases mem_append.mp hmem with hold | hnew
    · exact hother hd k hold
    · obtain ⟨k', _, heq⟩ := mem_map.mp hnew
      exact hne (Prod.mk.inj heq).1
  env := by
    intro n s s' hG henv
    have hsame : s'.releases = s.releases := by cases henv <;> rfl
    unfold ReleasedOnce NotYetReleased at *
    rw [hsame]
    exact ⟨hG, fun i c hL => hL⟩

/-- Every counter with a threshold covers the slots held on it and the grants not given back. -/
structure Covered (k : String) (max : Nat) (p : Pool Store Call) : Prop where
  held : (p.threads.map fun c => c.held.count k).sum ≤ p.store.counters.value k
  bounded : p.store.counters.value k ≤ max
  granted : p.store.granted k ≤ p.store.counters.value k + p.store.givenBack k

theorem Starts.held_eq_nil (h : Starts w c) : c.held = [] := by
  cases h <;> rfl

theorem Environment.slots_eq (h : Environment s s') : s'.slots = s.slots := by
  cases h <;> rfl

theorem Covered.step (hk : Limited k max) {p q : Pool Store Call} (hp : Covered k max p)
    (h : Step (service w) p q) :
    Covered k max q := by
  obtain ⟨hheld, hbound, hgranted⟩ := hp
  cases h with
  | spawn hstart =>
    refine ⟨?_, hbound, hgranted⟩
    rw [sum_spawn, hstart.held_eq_nil]
    exact hheld
  | @act s s' ts i c c' hi hact =>
    have hslot := slots_step hk.threshold (hk.not_clears c) hact
    have hsum := sum_act (fun c : Call => c.held.count k) hi c'
    have hkept := hslot.kept
    have hledger := hslot.ledger
    refine ⟨?_, hslot.bounded hbound, ?_⟩ <;> dsimp only at * <;> omega
  | env henv =>
    obtain ⟨hcounters, hlogs⟩ := Prod.mk.inj henv.slots_eq
    obtain ⟨hgrants, hreleases⟩ := Prod.mk.inj hlogs
    refine ⟨?_, ?_, ?_⟩
    · rw [hcounters]
      exact hheld
    · rw [hcounters]
      exact hbound
    · unfold Store.granted Store.givenBack at *
      rw [hcounters, hgrants, hreleases]
      exact hgranted

theorem Store.reserve_refused {counters : List (String × Nat)}
    (h : (reserveScript s.clock counters s.counters).2 = false) : s.reserve i counters = s := by
  unfold Store.reserve
  rw [h, reserveScript_refused h]
  rfl

theorem LoginAttempt.refused_answered {a : LoginAttempt} {pc : LoginPc}
    (h : (Call.login a (a.next w input s pc)).refused = true) :
    a.effect w i input s pc = s ∧
      ((Call.login a pc).reserving = true ∨ (Call.login a pc).refused = true) := by
  cases pc with
  | reserve =>
    cases hgranted : (reserveScript s.clock a.counters s.counters).2 with
    | false => exact ⟨Store.reserve_refused hgranted, Or.inl rfl⟩
    | true => simp [next, hgranted, Call.refused] at h
  | done outcome counted => exact ⟨rfl, Or.inr h⟩
  | selectUser | useCode | readAgain | verify =>
    simp only [next] at h
    repeat' split at h
    all_goals simp [Call.refused] at h
  | _ => simp [next, Call.refused] at h

theorem ConfirmAttempt.refused_answered {a : ConfirmAttempt} {pc : ConfirmPc}
    (h : (Call.confirm a (a.next w s pc)).refused = true) :
    a.effect i s pc = s ∧
      ((Call.confirm a pc).reserving = true ∨ (Call.confirm a pc).refused = true) := by
  cases pc with
  | reserve =>
    cases hgranted : (reserveScript s.clock a.counters s.counters).2 with
    | false => exact ⟨Store.reserve_refused hgranted, Or.inl rfl⟩
    | true => simp [next, hgranted, Call.refused] at h
  | done outcome counted => exact ⟨rfl, Or.inr h⟩
  | selectUser | useCode | verify =>
    simp only [next] at h
    repeat' split at h
    all_goals simp [Call.refused] at h
  | _ => simp [next, Call.refused] at h

theorem PasswordChange.refused_answered {a : PasswordChange} {pc : PasswordPc}
    (h : (Call.password a (a.next w input s pc)).refused = true) :
    a.effect i input s pc = s ∧
      ((Call.password a pc).reserving = true ∨ (Call.password a pc).refused = true) := by
  cases pc with
  | reserve =>
    cases hgranted : (reserveScript s.clock [(a.key, accountMax)] s.counters).2 with
    | false => exact ⟨Store.reserve_refused hgranted, Or.inl rfl⟩
    | true => simp [next, hgranted, Call.refused] at h
  | done outcome counted => exact ⟨rfl, Or.inr h⟩
  | selectUser | useCode | verify =>
    simp only [next] at h
    repeat' split at h
    all_goals simp [Call.refused] at h
  | revoking version pc =>
    simp only [next, revoked] at h
    split at h <;> simp [Call.refused] at h
  | revokingUncertain pc =>
    simp only [next, revokedUncertain] at h
    split at h <;> simp [Call.refused] at h
  | _ => simp [next, Call.refused] at h

/-- The only command of a refused attempt is its reservation, and it changes nothing. -/
theorem refused_step (h : Called (calls w) i s c s' c') (hrefused : c'.refused = true) :
    s' = s ∧ (c.reserving = true ∨ c.refused = true) := by
  cases h with
  | answered hans =>
    cases hans with
    | intro input _ =>
      cases c with
      | login a pc => exact LoginAttempt.refused_answered hrefused
      | confirm a pc => exact ConfirmAttempt.refused_answered hrefused
      | password a pc => exact PasswordChange.refused_answered hrefused
      | change | resolve | logout =>
        exact absurd hrefused (by simp [calls, Call.next, Call.refused])
  | failed input hfailed =>
    have hnot := (Call.failed_spec (Or.inl hfailed)).2.1
    exact absurd hrefused (by simp [hnot])
  | lost input _ hlost =>
    have hnot := (Call.failed_spec (Or.inr hlost)).2.1
    exact absurd hrefused (by simp [hnot])

/-- The limits per address, per confirmation and per password change: a counter covers the
attempts that hold a slot on it and stays within its threshold, so that no more grants than the
threshold are out; a refused attempt changes nothing; no slot is given back twice. -/
theorem limits_hold_for_any_burst {w : World} {s₀ : Store} {p : Pool Store Call}
    (hinit : ∀ k max, Limited k max → s₀.counters.value k ≤ max)
    (hgrants : s₀.grants = []) (hreleases : s₀.releases = [])
    (hrun : Run (service w) ⟨s₀, []⟩ p) :
    (∀ k max, Limited k max →
      p.threads.countP (fun c => c.held.contains k) ≤ p.store.counters.value k ∧
      p.store.counters.value k ≤ max ∧ p.store.granted k ≤ p.store.givenBack k + max) ∧
    (∀ i c s' c', p.threads[i]? = some c → (service w).act i p.store c s' c' →
      c'.refused = true → s' = p.store ∧ (c.reserving = true ∨ c.refused = true)) ∧
    p.store.releases.Nodup := by
  refine ⟨?_, ?_, ?_⟩
  · intro k max hk
    have hstart : Covered k max ⟨s₀, []⟩ := by
      refine ⟨Nat.zero_le _, hinit k max hk, ?_⟩
      simp [Store.granted, hgrants]
    obtain ⟨hheld, hbound, hgranted⟩ :=
      run_invariant (fun _ _ hp hstep => Covered.step hk hp hstep) hrun hstart
    have hcount : p.threads.countP (fun c => c.held.contains k) ≤
        (p.threads.map fun c => c.held.count k).sum := by
      apply countP_le_sum
      intro c hc
      exact count_pos_iff.mpr (contains_iff_mem.mp hc)
    exact ⟨hcount.trans hheld, hbound, by omega⟩
  · intro i c s' c' _ hact hrefused
    exact refused_step hact hrefused
  · have hstart : Holds ReleasedOnce NotYetReleased ⟨s₀, []⟩ :=
      Holds.initial (by simp [ReleasedOnce, hreleases])
    exact ((releases_outline w).run hstart hrun).store.1

def emptyStore : Store where
  clock := 0
  users := fun _ => none
  counters := fun _ => none
  replay := fun _ => none
  sessions := fun _ => none
  audit := []
  tick := 0
  handedOut := []
  grants := []
  releases := []

def sampleInput : Input := ⟨none, "token", "csrf", "hash", [], true, false, false⟩

def sampleContext : RequestContext := ⟨"c", "10.0.0.1", none⟩

/-- A login for an address no user has, up to its counted failure. -/
theorem sample_attempt_counted :
    ∃ p, Run (service sampleWorld) ⟨emptyStore, []⟩ p ∧
      p.threads.countP (fun c => c.held.contains (ipKey "10.0.0.1")) = 1 ∧
      p.store.counters.value (ipKey "10.0.0.1") = 1 ∧
      p.store.granted (ipKey "10.0.0.1") ≤ p.store.givenBack (ipKey "10.0.0.1") + 10 := by
  have hspawn : Step (service sampleWorld) ⟨emptyStore, []⟩ _ :=
    .spawn (Starts.login "a@b.c" "pw" "000000" sampleContext)
  have hreserve := (Relation.ReflTransGen.single hspawn).tail
    (service_answers (i := 0) sampleInput rfl trivial)
  have hselect := hreserve.tail
    (service_answers (i := 0) sampleInput rfl fun _ hfound => Option.some_ne_none _ hfound.1.symm)
  have hdecrypt := hselect.tail (service_answers (i := 0) sampleInput rfl trivial)
  have hreject := hdecrypt.tail (service_answers (i := 0) sampleInput rfl trivial)
  have hlimits := limits_hold_for_any_burst (fun _ _ _ => Nat.zero_le _) rfl rfl hreject
  have hip := hlimits.1 (ipKey "10.0.0.1") ipMax (.ip "10.0.0.1")
  exact ⟨_, hreject, by decide, by decide, hip.2.2⟩

end CyberGuard.Auth
