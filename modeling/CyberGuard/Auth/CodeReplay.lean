import CyberGuard.Auth.Commands
import CyberGuard.Auth.Limits

/-!
# A code is used once while it is marked in time

A code verifies in its own step and in the two around it, 90 seconds in all, and its
mark lives 90 seconds. So a call that marks the code before its window ends finds
the mark of every earlier one. Nothing bounds the time between the verification and
the `SET`, though: the mark of a call that came with the window's first millisecond
is gone one millisecond after its end.
-/

namespace CyberGuard.Auth
set_option autoImplicit false
open Interleaving StoreCalls ExpiringKeys

namespace Party

/-- The user and the secret that the next step of the call verifies a code against. -/
def verifying : Party → Option (String × String)
  | .inl (.login _ (.verify user)) => some (user.1, user.2.totpSecret)
  | .inl (.confirm a (.verify row)) => some (a.userId, row.totpSecret)
  | .inl (.password a (.verify row)) => some (a.userId, row.totpSecret)
  | .inr (a, .verify) => some (a.userId, a.secret)
  | _ => none

/-- The user and the code of a call that gets past the replay check. -/
def passes : Party → Party → Option (String × String)
  | .inl (.login a (.useCode user)), .inl (.login _ (.createSession _)) =>
    some (user.1, a.totpCode)
  | .inl (.confirm a (.useCode _)), .inl (.confirm _ (.setEnrolled _)) =>
    some (a.userId, a.totpCode)
  | .inl (.password a (.useCode _)), .inl (.password _ (.transaction _)) =>
    some (a.userId, a.totpCode)
  | .inr (a, .useCode), .inr (_, .setEnrolled) => some (a.userId, a.code)
  | _, _ => none

end Party

/-- What one command does about codes: it reads the secret to verify against, finds the code
valid, gets past the replay check, or none of these. -/
inductive CodeStep (w : World) (s : Store) (c : Party) (s' : Store) (c' : Party) : Prop where
  | select {userId : String} {row : UserRow} : s.users userId = some row →
      c'.verifying = some (userId, row.totpSecret) → c'.marking = none → c.passes c' = none →
      CodeStep w s c s' c'
  | verify {userId secret totpCode : String} : c.verifying = some (userId, secret) →
      w.verifyTotp secret totpCode s.clock = true → c'.verifying = none →
      c'.marking = some (userId, totpCode) → c.passes c' = none → CodeStep w s c s' c'
  | pass {userId totpCode : String} : c.marking = some (userId, totpCode) →
      s.firstUse userId totpCode = true → s' = s.useCode userId totpCode → c'.verifying = none →
      c'.marking = none → c.passes c' = some (userId, totpCode) → CodeStep w s c s' c'
  | other : c'.verifying = none → c'.marking = none → c.passes c' = none → CodeStep w s c s' c'

section answered
variable {w : World} {i : Nat} {input : Input} {s : Store}

theorem LoginAttempt.codeStep {a : LoginAttempt} {pc : LoginPc}
    (hadm : a.admissible input s pc) :
    CodeStep w s (.inl (.login a pc)) (a.effect w i input s pc)
      (.inl (.login a (a.next w input s pc))) := by
  cases pc with
  | reserve =>
    simp only [LoginAttempt.next]
    split <;> exact .other rfl rfl rfl
  | selectUser =>
    simp only [LoginAttempt.next, LoginAttempt.admissible] at hadm ⊢
    cases hfound : input.found with
    | none => exact .other rfl rfl rfl
    | some user =>
      rw [hfound] at hadm
      exact .select hadm.1 rfl rfl rfl
  | verify user =>
    simp only [LoginAttempt.next]
    repeat' split
    on_goal 5 => rename_i hvalid; exact .verify rfl (Bool.eq_true_of_not_eq_false hvalid) rfl rfl rfl
    all_goals exact .other rfl rfl rfl
  | useCode user =>
    simp only [LoginAttempt.next]
    split
    · rename_i hfirst
      exact .pass rfl hfirst rfl rfl rfl rfl
    · exact .other rfl rfl rfl
  | readAgain user token csrfToken =>
    simp only [LoginAttempt.next]
    repeat' split
    all_goals exact .other rfl rfl rfl
  | _ => exact .other rfl rfl rfl

theorem ConfirmAttempt.codeStep (a : ConfirmAttempt) (pc : ConfirmPc) :
    CodeStep w s (.inl (.confirm a pc)) (a.effect i s pc) (.inl (.confirm a (a.next w s pc))) := by
  cases pc with
  | reserve =>
    simp only [ConfirmAttempt.next]
    split <;> exact .other rfl rfl rfl
  | selectUser =>
    simp only [ConfirmAttempt.next]
    cases hrow : s.users a.userId with
    | none => exact .other rfl rfl rfl
    | some row => exact .select hrow rfl rfl rfl
  | verify row =>
    simp only [ConfirmAttempt.next]
    repeat' split
    on_goal 3 => rename_i hvalid; exact .verify rfl (Bool.eq_true_of_not_eq_false hvalid) rfl rfl rfl
    all_goals exact .other rfl rfl rfl
  | useCode row =>
    simp only [ConfirmAttempt.next]
    split
    · rename_i hfirst
      exact .pass rfl hfirst rfl rfl rfl rfl
    · exact .other rfl rfl rfl
  | _ => exact .other rfl rfl rfl

theorem PasswordChange.codeStep (a : PasswordChange) (pc : PasswordPc) :
    CodeStep w s (.inl (.password a pc)) (a.effect i input s pc)
      (.inl (.password a (a.next w input s pc))) := by
  cases pc with
  | reserve =>
    simp only [PasswordChange.next]
    split <;> exact .other rfl rfl rfl
  | selectUser =>
    simp only [PasswordChange.next]
    cases hrow : s.users a.userId with
    | none => exact .other rfl rfl rfl
    | some row => exact .select hrow rfl rfl rfl
  | verify row =>
    simp only [PasswordChange.next]
    repeat' split
    on_goal 3 => rename_i hvalid; exact .verify rfl (Bool.eq_true_of_not_eq_false hvalid) rfl rfl rfl
    all_goals exact .other rfl rfl rfl
  | useCode row =>
    simp only [PasswordChange.next]
    split
    · rename_i hfirst
      exact .pass rfl hfirst rfl rfl rfl rfl
    · exact .other rfl rfl rfl
  | revoking version pc =>
    simp only [PasswordChange.next]
    cases pc.next a.userId input s <;> exact .other rfl rfl rfl
  | revokingUncertain pc =>
    simp only [PasswordChange.next]
    cases pc.next a.userId input s <;> exact .other rfl rfl rfl
  | _ => exact .other rfl rfl rfl

theorem ConfirmFactor.codeStep (a : ConfirmFactor) (pc : FactorPc) :
    CodeStep w s (.inr (a, pc)) (a.effect s pc) (.inr (a, a.next w s pc)) := by
  cases pc with
  | verify =>
    simp only [ConfirmFactor.next]
    split
    · rename_i hvalid
      exact .verify rfl (Bool.and_eq_true_iff.mp hvalid).2 rfl rfl rfl
    · exact .other rfl rfl rfl
  | useCode =>
    simp only [ConfirmFactor.next]
    split
    · rename_i hfirst
      exact .pass rfl hfirst rfl rfl rfl rfl
    · exact .other rfl rfl rfl
  | _ => exact .other rfl rfl rfl

theorem Party.codeStep {c : Party}
    (hadm : ((calls w).sum (factorCalls w)).admissible input s c) :
    CodeStep w s c (((calls w).sum (factorCalls w)).effect i input s c)
      (((calls w).sum (factorCalls w)).next input s c) := by
  rcases c with c | ⟨a, pc⟩
  · cases c with
    | login a pc => exact LoginAttempt.codeStep hadm
    | confirm a pc => exact a.codeStep pc
    | password a pc => exact a.codeStep pc
    | change | resolve | logout => exact .other rfl rfl rfl
  · exact a.codeStep pc

end answered

section failed
variable {w : World} {input : Input} {s s' : Store}

theorem PasswordPc.codeStep_failed {a : PasswordChange} {pc pc' : PasswordPc}
    (h : pc.failed input = some pc') :
    CodeStep w s (.inl (.password a pc)) s' (.inl (.password a pc')) := by
  cases pc with
  | transaction row =>
    obtain rfl := Option.some.inj h
    cases input.uncertain <;> exact .other rfl rfl rfl
  | verify | done => simp [PasswordPc.failed] at h
  | _ =>
    obtain rfl := Option.some.inj h
    exact .other rfl rfl rfl

theorem PasswordPc.codeStep_lost {a : PasswordChange} {pc pc' : PasswordPc}
    (h : pc.lost input = some pc') :
    CodeStep w s (.inl (.password a pc)) s' (.inl (.password a pc')) := by
  cases pc with
  | transaction row =>
    obtain rfl := Option.some.inj h
    exact .other rfl rfl rfl
  | _ => exact codeStep_failed (show PasswordPc.failed input _ = some pc' from h)

theorem LoginPc.codeStep_failed {a : LoginAttempt} {pc pc' : LoginPc} (h : pc.failed = some pc') :
    CodeStep w s (.inl (.login a pc)) s' (.inl (.login a pc')) := by
  cases pc with
  | verify | done => simp [LoginPc.failed] at h
  | _ =>
    obtain rfl := Option.some.inj h
    exact .other rfl rfl rfl

theorem ConfirmPc.codeStep_failed {a : ConfirmAttempt} {pc pc' : ConfirmPc}
    (h : pc.failed = some pc') :
    CodeStep w s (.inl (.confirm a pc)) s' (.inl (.confirm a pc')) := by
  cases pc with
  | verify | done => simp [ConfirmPc.failed] at h
  | _ =>
    obtain rfl := Option.some.inj h
    exact .other rfl rfl rfl

theorem FactorPc.codeStep_failed {a : ConfirmFactor} {pc pc' : FactorPc}
    (h : pc.afterFailure = some pc') : CodeStep w s (.inr (a, pc)) s' (.inr (a, pc')) := by
  cases pc <;> simp only [FactorPc.afterFailure, Option.some.injEq, reduceCtorEq] at h <;>
    subst h <;> exact .other rfl rfl rfl

/-- A call whose store failed is past no check. -/
theorem Party.codeStep_failed {c c' : Party}
    (h : ((calls w).sum (factorCalls w)).failed input c = some c') : CodeStep w s c s' c' := by
  rcases c with c | ⟨a, pc⟩
  · obtain ⟨d, hd, rfl⟩ := Option.map_eq_some_iff.mp h
    cases c with
    | login a pc =>
      obtain ⟨pc', hpc, rfl⟩ := Option.map_eq_some_iff.mp hd
      exact LoginPc.codeStep_failed hpc
    | confirm a pc =>
      obtain ⟨pc', hpc, rfl⟩ := Option.map_eq_some_iff.mp hd
      exact ConfirmPc.codeStep_failed hpc
    | password a pc =>
      obtain ⟨pc', hpc, rfl⟩ := Option.map_eq_some_iff.mp hd
      exact PasswordPc.codeStep_failed hpc
    | _ =>
      obtain ⟨pc', -, rfl⟩ := Option.map_eq_some_iff.mp hd
      exact .other rfl rfl rfl
  · obtain ⟨d, hd, rfl⟩ := Option.map_eq_some_iff.mp h
    obtain ⟨pc', hpc, rfl⟩ := Option.map_eq_some_iff.mp hd
    exact FactorPc.codeStep_failed hpc

theorem Party.codeStep_lost {c c' : Party}
    (h : ((calls w).sum (factorCalls w)).lost input c = some c') : CodeStep w s c s' c' := by
  rcases c with c | ⟨a, pc⟩
  · obtain ⟨d, hd, rfl⟩ := Option.map_eq_some_iff.mp h
    cases c with
    | password a pc =>
      obtain ⟨pc', hpc, rfl⟩ := Option.map_eq_some_iff.mp hd
      exact PasswordPc.codeStep_lost hpc
    | change a pc =>
      obtain ⟨pc', -, rfl⟩ := Option.map_eq_some_iff.mp hd
      exact .other rfl rfl rfl
    | _ => exact codeStep_failed (show ((calls w).sum (factorCalls w)).failed input _ = _ from h)
  · exact codeStep_failed (show ((calls w).sum (factorCalls w)).failed input _ = _ from h)

end failed

variable {w : World} {i : Nat} {s s' : Store} {c c' : Party} {input : Input}

theorem codeStep_called (h : Called ((calls w).sum (factorCalls w)) i s c s' c') :
    CodeStep w s c s' c' := by
  cases h with
  | answered h =>
    cases h with
    | intro input hadm => exact Party.codeStep hadm
  | failed input hfailed => exact Party.codeStep_failed hfailed
  | lost input _ hlost => exact Party.codeStep_lost hlost

/-- What stays of the stores: no user goes, and no secret changes. -/
structure Keeps (s s' : Store) : Prop where
  clock : s.clock ≤ s'.clock
  secret : ∀ userId row, s.users userId = some row →
    ∃ now, s'.users userId = some now ∧ now.totpSecret = row.totpSecret

theorem Keeps.of_users (hclock : s.clock ≤ s'.clock) (h : s'.users = s.users) :
    Keeps s s' :=
  ⟨hclock, fun userId row hrow => ⟨row, by rw [h]; exact hrow, rfl⟩⟩

theorem Command.keeps (h : Command w input s c s') : Keeps s s' := by
  cases h with
  | @changeUser userId now row audit hnow hsecret _ =>
    refine ⟨Int.le_refl _, fun other old hold => ?_⟩
    by_cases hother : other = userId
    · subst hother
      obtain rfl := Option.some.inj (hnow.symm.trans hold)
      exact ⟨row, by simp [Store.putUser], hsecret⟩
    · exact ⟨old, by simpa [Store.putUser, hother] using hold, rfl⟩
  | _ => exact .of_users (Int.le_refl _) rfl

theorem Environment.keeps (h : Environment s s') : Keeps s s' := by
  cases h with
  | tick hle => exact .of_users hle rfl
  | expire token => exact .of_users (Int.le_refl _) rfl
  | @createUser userId row hnone =>
    refine ⟨Int.le_refl _, fun other old hold => ?_⟩
    have hother : other ≠ userId := by
      rintro rfl
      rw [hnone] at hold
      exact absurd hold (by simp)
    exact ⟨old, by simpa [Store.putUser, hother] using hold, rfl⟩

theorem Command.replay (h : Command w input s c s') : s'.replay = s.replay ∨
      ∃ key, s'.replay = (setNx s.replay s.clock (replaySeconds * 1000) key).1 := by
  cases h with
  | useCode _ => exact .inr ⟨_, rfl⟩
  | _ => exact .inl rfl

theorem command_called (h : Called ((calls w).sum (factorCalls w)) i s c s' c') :
    ∃ input, Command w input s c s' := by
  cases h with
  | answered h =>
    cases h with
    | intro input _ => exact ⟨input, c.command w i input s⟩
  | failed input _ => exact ⟨input, .read⟩
  | lost input _ _ => exact ⟨input, c.command w i input s⟩

/-- A call verifies against the user's secret, and one that is about to mark a code found it
valid in the run. -/
structure Backed (w : World) (since : Int) (s : Store) (c : Party) : Prop where
  verifying : ∀ userId secret, c.verifying = some (userId, secret) →
    ∃ row, s.users userId = some row ∧ row.totpSecret = secret
  marking : ∀ userId totpCode, c.marking = some (userId, totpCode) →
    ∃ row, s.users userId = some row ∧
      ∃ now, since ≤ now ∧ now ≤ s.clock ∧ w.verifyTotp row.totpSecret totpCode now = true

variable {since : Int}

theorem Backed.keeps (h : Backed w since s c) (hs : Keeps s s') :
    Backed w since s' c := by
  constructor
  · intro userId secret hc
    obtain ⟨row, hrow, hsecret⟩ := h.verifying userId secret hc
    obtain ⟨now, hnow, hsame⟩ := hs.secret userId row hrow
    exact ⟨now, hnow, hsame.trans hsecret⟩
  · intro userId totpCode hc
    obtain ⟨row, hrow, at', hsince, hle, hvalid⟩ := h.marking userId totpCode hc
    obtain ⟨now, hnow, hsame⟩ := hs.secret userId row hrow
    exact ⟨now, hnow, at', hsince, hle.trans hs.clock, by rw [hsame]; exact hvalid⟩

theorem Backed.of_none (hverifying : c.verifying = none) (hmarking : c.marking = none) :
    Backed w since s c := by
  constructor
  · intro userId secret hc
    simp [hverifying] at hc
  · intro userId totpCode hc
    simp [hmarking] at hc

theorem CodeStep.backed (h : CodeStep w s c s' c') (hsince : since ≤ s.clock)
    (hc : Backed w since s c) (hs : Keeps s s') :
    Backed w since s' c' := by
  cases h with
  | @select userId row hrow hverifying hmarking _ =>
    have hnow : Backed w since s c' := by
      constructor
      · intro u secret hc'
        obtain ⟨rfl, rfl⟩ := Prod.mk.inj (Option.some.inj (hverifying.symm.trans hc'))
        exact ⟨row, hrow, rfl⟩
      · intro u totpCode hc'
        simp [hmarking] at hc'
    exact hnow.keeps hs
  | @verify userId secret totpCode hverifying hvalid hnone hmarking _ =>
    have hnow : Backed w since s c' := by
      constructor
      · intro u other hc'
        simp [hnone] at hc'
      · intro u code hc'
        obtain ⟨rfl, rfl⟩ := Prod.mk.inj (Option.some.inj (hmarking.symm.trans hc'))
        obtain ⟨row, hrow, rfl⟩ := hc.verifying _ _ hverifying
        exact ⟨row, hrow, s.clock, hsince, Int.le_refl _, hvalid⟩
    exact hnow.keeps hs
  | pass _ _ _ hverifying hmarking _ => exact .of_none hverifying hmarking
  | other hverifying hmarking _ => exact .of_none hverifying hmarking

theorem Begins.backed (h : Begins w s c) : Backed w since s c := by
  cases h with
  | call hstart => cases hstart <;> exact .of_none rfl rfl
  | @confirmFactor userId row code hrow =>
    constructor
    · intro u secret hc
      obtain ⟨rfl, rfl⟩ := Prod.mk.inj (Option.some.inj hc)
      exact ⟨row, hrow, rfl⟩
    · intro u totpCode hc
      simp [Party.marking] at hc

/-- From `since` to `last`, `code` is the code of `step` for the secret: it is valid in that step
and the two around it, and at no other time. -/
def StepCode (w : World) (secret : String) (step : Int) (code : String) (since last : Int) : Prop :=
  ∀ now, since ≤ now → now ≤ last →
    (w.verifyTotp secret code now = true ↔ (now / 30000 - step).natAbs ≤ 1)

/-- The first instant after the last step that accepts the code. -/
def windowEnd (step : Int) : Int := (step + 2) * 30000

def MarkedInWindow (userId code : String) (step : Int) (s : Store) (c : Party) : Prop :=
  c.marking = some (userId, code) → s.clock ≤ windowEnd step

/-- At most one call got past the replay check with the code, and its mark then stays to the end
of the window. -/
structure UsedOnce (userId code : String) (step : Int) (s : Store)
    (passed : List (String × String)) : Prop where
  once : passed.count (userId, code) ≤ 1
  claimed : 0 < passed.count (userId, code) →
    Claimed s.replay (replayKey userId code) (windowEnd step)

theorem Command.claimed {key : String} {hi : Int} (h : Command w input s c s')
    (hclaim : Claimed s.replay key hi) :
    Claimed s'.replay key hi := by
  rcases h.replay with hsame | ⟨other, hset⟩
  · rw [hsame]
    exact hclaim
  · rw [hset]
    exact hclaim.setNx (by decide) other

section window
variable {w : World} {userId code : String} {step since : Int} {s s' : Store} {c c' : Party}
  {passed : List (String × String)}

theorem claimed_of_pass (hcode : ∀ row, s.users userId = some row →
      StepCode w row.totpSecret step code since s.clock) (hc : Backed w since s c)
    (hmarking : c.marking = some (userId, code)) (hfirst : s.firstUse userId code = true) :
    Claimed (s.useCode userId code).replay (replayKey userId code) (windowEnd step) := by
  obtain ⟨row, hrow, verifiedAt, hsince, hle, hvalid⟩ := hc.marking userId code hmarking
  have hstep : (verifiedAt / 30000 - step).natAbs ≤ 1 :=
    (hcode row hrow verifiedAt hsince hle).mp hvalid
  have hlo : (step - 1) * 30000 ≤ verifiedAt := by omega
  refine claimed_of_setNx (hlo.trans hle) ?_ hfirst
  simp only [windowEnd, replaySeconds]
  omega

theorem UsedOnce.act (hcode : ∀ row, s.users userId = some row →
      StepCode w row.totpSecret step code since s.clock) (h : UsedOnce userId code step s passed)
    (hc : Backed w since s c) (hwindow : MarkedInWindow userId code step s c)
    (hcalled : ∃ input, Command w input s c s') (hstep : CodeStep w s c s' c') :
    UsedOnce userId code step s' (passed ++ (c.passes c').toList) := by
  obtain ⟨input, hcommand⟩ := hcalled
  by_cases hpass : c.passes c' = some (userId, code)
  · cases hstep with
    | @pass u totpCode hmarking hfirst hs' _ _ hpasses =>
      obtain ⟨rfl, rfl⟩ := Prod.mk.inj (Option.some.inj (hpasses.symm.trans hpass))
      -- a call that passed before would have its mark live now
      have hnone : passed.count (u, totpCode) = 0 := by
        by_contra hne
        have hlive := (h.claimed (Nat.pos_of_ne_zero hne)).live (hwindow hmarking)
        rw [Store.firstUse, setNx_lost hlive] at hfirst
        exact Bool.false_ne_true hfirst
      refine ⟨?_, fun _ => ?_⟩
      · rw [hpass, List.count_append, hnone]
        simp
      · rw [hs']
        exact claimed_of_pass hcode hc hmarking hfirst
    | select _ _ _ hpasses => simp [hpasses] at hpass
    | verify _ _ _ _ hpasses => simp [hpasses] at hpass
    | other _ _ hpasses => simp [hpasses] at hpass
  · have hcount : (passed ++ (c.passes c').toList).count (userId, code) =
        passed.count (userId, code) := by
      have hnew : (c.passes c').toList.count (userId, code) = 0 :=
        List.count_eq_zero.mpr (by rw [Option.mem_toList]; exact hpass)
      rw [List.count_append, hnew, Nat.add_zero]
    refine ⟨by rw [hcount]; exact h.once, fun hpos => ?_⟩
    rw [hcount] at hpos
    exact hcommand.claimed (h.claimed hpos)

theorem stepCode_before (hs : Keeps s s') (hcode : ∀ row, s'.users userId = some row →
      StepCode w row.totpSecret step code since s'.clock) :
    ∀ row, s.users userId = some row → StepCode w row.totpSecret step code since s.clock := by
  intro row hrow at' hsince hle
  obtain ⟨now, hnow, hsame⟩ := hs.secret userId row hrow
  rw [← hsame]
  exact hcode now hnow at' hsince (hle.trans hs.clock)

end window

theorem codes_outline (w : World) (userId code : String) (step since : Int) :
    Outline (((serviceAndCli w).guard (MarkedInWindow userId code step)).record Party.passes)
      (fun _ s => since ≤ s.1.clock ∧ ((∀ row, s.1.users userId = some row →
        StepCode w row.totpSecret step code since s.1.clock) → UsedOnce userId code step s.1 s.2))
      (fun _ s c => Backed w since s.1 c) where
  spawn := fun hs hstart => ⟨hs, Begins.backed hstart⟩
  self := by
    rintro _ _ ⟨s, passed⟩ c ⟨s', passed'⟩ c' _ hs hc ⟨⟨hwindow, hcalled⟩, hpassed⟩
    have hcommand := command_called hcalled
    have hstep := codeStep_called hcalled
    have hkeeps : Keeps s s' := hcommand.choose_spec.keeps
    refine ⟨⟨hs.1.trans hkeeps.clock, fun hcode => ?_⟩, hstep.backed hs.1 hc hkeeps⟩
    have hbefore := stepCode_before hkeeps hcode
    rw [show passed' = passed ++ (c.passes c').toList from hpassed]
    exact (hs.2 hbefore).act hbefore hc hwindow hcommand hstep
  other := by
    rintro _ _ _ ⟨s, passed⟩ c ⟨s', passed'⟩ c' d _ _ _ hd ⟨⟨_, hcalled⟩, _⟩
    exact Backed.keeps hd (command_called hcalled).choose_spec.keeps
  env := by
    rintro _ ⟨s, passed⟩ ⟨s', passed'⟩ hs ⟨henv, hpassed⟩
    have hkeeps : Keeps s s' := Environment.keeps henv
    refine ⟨⟨hs.1.trans hkeeps.clock, fun hcode => ?_⟩, fun _ d hd => Backed.keeps hd hkeeps⟩
    have hsame : s'.replay = s.replay := by cases henv <;> rfl
    have hused : UsedOnce userId code step s passed := hs.2 (stepCode_before hkeeps hcode)
    rw [show passed' = passed from hpassed]
    exact ⟨hused.once, fun hpos => by rw [hsame]; exact hused.claimed hpos⟩

/-- In every run in which the calls that present a step's code mark it before its window ends, at
most one of them gets past the replay check. -/
theorem code_passes_once {w : World} {userId code : String} {step : Int} {s₀ : Store}
    {q : Pool (Store × List (String × String)) Party}
    (hrun : Run (((serviceAndCli w).guard (MarkedInWindow userId code step)).record Party.passes)
      ⟨(s₀, []), []⟩ q)
    (hcode : ∀ row, q.store.1.users userId = some row →
      StepCode w row.totpSecret step code s₀.clock q.store.1.clock) :
    q.store.2.count (userId, code) ≤ 1 := by
  have hinit : UsedOnce userId code step s₀ [] := ⟨Nat.zero_le _, fun hpos => by simp at hpos⟩
  have hholds := (codes_outline w userId code step s₀.clock).run
    (.initial ⟨Int.le_refl _, fun _ => hinit⟩) hrun
  exact (hholds.store.2 hcode).once

/-- A world in which "111111" is the code of step 1, valid up to 90 seconds after the epoch. -/
def totpWorld : World :=
  { sampleWorld with
    verifyTotp := fun _ code now => code == "111111" && (now / 30000 - 1).natAbs ≤ 1 }

def newUser : UserRow := ⟨org, "a@b.c", "pw", "secret", false, .analyst, .active, 0⟩

def enrolledUser : UserRow := { newUser with totpEnrolled := true }

def userCreated : Store :=
  { emptyStore with users := fun id => if id = "u" then some newUser else none }

def codeInput : Input := ⟨some ("u", enrolledUser), "token", "csrf", "hash", [], true, false, false⟩

theorem party_answers {passed : List (String × String)} {ts : List Party} (input : Input)
    (hi : ts[i]? = some c) (hadm : ((calls w).sum (factorCalls w)).admissible input s c) :
    Step ((serviceAndCli w).record Party.passes) ⟨(s, passed), ts⟩
      ⟨(((calls w).sum (factorCalls w)).effect i input s c,
        passed ++ (c.passes (((calls w).sum (factorCalls w)).next input s c)).toList),
        ts.set i (((calls w).sum (factorCalls w)).next input s c)⟩ :=
  .act hi ⟨.answered (.intro input hadm), rfl⟩

theorem party_waits {passed : List (String × String)} {ts : List Party} (now : Int)
    (hle : s.clock ≤ now) :
    Step ((serviceAndCli w).record Party.passes) ⟨(s, passed), ts⟩
      ⟨({ s with clock := now }, passed), ts⟩ :=
  .env ⟨.tick hle, rfl⟩

/-- The command line marks the code at the start of its window; a login verifies it in the last
millisecond of the window and marks it two milliseconds later. -/
theorem sample_code_passes_twice : totpWorld.verifyTotp "secret" "111111" 0 = true ∧
    totpWorld.verifyTotp "secret" "111111" 89999 = true ∧
    ∃ q, Run ((serviceAndCli totpWorld).record Party.passes) ⟨(userCreated, []), []⟩ q ∧
      q.store.2.count ("u", "111111") = 2 := by
  refine ⟨by decide, by decide, ?_⟩
  have hcli : Step ((serviceAndCli totpWorld).record Party.passes)
      ⟨(userCreated, []), []⟩ ⟨(userCreated, []), [.inr (⟨"u", "secret", "111111"⟩, .verify)]⟩ :=
    .spawn (.confirmFactor "111111" (show userCreated.users "u" = some newUser from rfl))
  have hverified := (Relation.ReflTransGen.single hcli).tail
    (party_answers (i := 0) codeInput rfl trivial)
  have hmarked := hverified.tail (party_answers (i := 0) codeInput rfl trivial)
  have henrolled := hmarked.tail (party_answers (i := 0) codeInput rfl trivial)
  have hlogin := henrolled.tail (.spawn (.call (.login "a@b.c" "pw" "111111" sampleContext)))
  have hreserved := hlogin.tail (party_answers (i := 1) codeInput rfl trivial)
  have hselected := hreserved.tail
    (party_answers (i := 1) codeInput rfl ⟨by decide, by decide, by decide⟩)
  have hlast := hselected.tail (party_waits 89999 (by decide))
  have hvalid := hlast.tail (party_answers (i := 1) codeInput rfl trivial)
  have hlate := hvalid.tail (party_waits 90001 (by decide))
  have hagain := hlate.tail (party_answers (i := 1) codeInput rfl trivial)
  exact ⟨_, hagain, by decide⟩

theorem totpWorld_code (secret : String) (since last : Int) :
    StepCode totpWorld secret 1 "111111" since last := by
  intro now _ _
  simp [totpWorld]

/-- The command line's confirmation marks the code in time, and it is the one call that passes. -/
theorem sample_code_passes_once : ∃ q,
    Run (((serviceAndCli totpWorld).guard (MarkedInWindow "u" "111111" 1)).record Party.passes)
      ⟨(userCreated, []), []⟩ q ∧
    q.store.2 = [("u", "111111")] ∧ q.store.2.count ("u", "111111") ≤ 1 := by
  have hcli : Step (((serviceAndCli totpWorld).guard (MarkedInWindow "u" "111111" 1)).record
      Party.passes) ⟨(userCreated, []), []⟩
      ⟨(userCreated, []), [.inr (⟨"u", "secret", "111111"⟩, .verify)]⟩ :=
    .spawn (.confirmFactor "111111" (show userCreated.users "u" = some newUser from rfl))
  have hverified : Step (((serviceAndCli totpWorld).guard (MarkedInWindow "u" "111111" 1)).record
      Party.passes) ⟨(userCreated, []), [.inr (⟨"u", "secret", "111111"⟩, .verify)]⟩
      ⟨(userCreated, []), [.inr (⟨"u", "secret", "111111"⟩, .useCode)]⟩ :=
    .act (i := 0) rfl ⟨⟨(fun h => nomatch h), .answered (.intro codeInput trivial)⟩, rfl⟩
  have hmarked : Step (((serviceAndCli totpWorld).guard (MarkedInWindow "u" "111111" 1)).record
      Party.passes) ⟨(userCreated, []), [.inr (⟨"u", "secret", "111111"⟩, .useCode)]⟩
      ⟨(userCreated.useCode "u" "111111", [("u", "111111")]),
        [.inr (⟨"u", "secret", "111111"⟩, .setEnrolled)]⟩ :=
    .act (i := 0) rfl ⟨⟨fun _ => by decide, .answered (.intro codeInput trivial)⟩, rfl⟩
  have hrun := ((Relation.ReflTransGen.single hcli).tail hverified).tail hmarked
  exact ⟨_, hrun, rfl, code_passes_once hrun fun row _ => totpWorld_code row.totpSecret _ _⟩

end CyberGuard.Auth
