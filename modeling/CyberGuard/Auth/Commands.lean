import CyberGuard.Auth.ConfirmFactor

/-!
# What one command does to the stores

Every command of a call is of one of a few kinds. What a result needs of the stores
between two commands is then a case split over the kinds, not over the calls and
their program counters.
-/

namespace CyberGuard.Auth
set_option autoImplicit false

/-- The user and the code that the next command of the call marks used. -/
def Party.marking : Party → Option (String × String)
  | .inl (.login a (.useCode user)) => some (user.1, a.totpCode)
  | .inl (.confirm a (.useCode _)) => some (a.userId, a.totpCode)
  | .inl (.password a (.useCode _)) => some (a.userId, a.totpCode)
  | .inr (a, .useCode) => some (a.userId, a.code)
  | _ => none

/-- What the next command of `c` may leave of the stores `s`. -/
inductive Command (w : World) (input : Input) (s : Store) (c : Party) : Store → Prop where
  | read : Command w input s c s
  | slots (counters : Counters) (grants releases : List (Nat × String)) :
      Command w input s c { s with counters := counters, grants := grants, releases := releases }
  | useCode {userId totpCode : String} : c.marking = some (userId, totpCode) →
      Command w input s c (s.useCode userId totpCode)
  | createSession {a : LoginAttempt} {user : FoundUser} : c = .inl (.login a (.createSession user)) →
      Command w input s c (s.createSession w input.token input.csrfToken user.1 user.2)
  | deleteSession (token : String) : Command w input s c (s.deleteSession token)
  | rewriteSession {token : String} {entry : SessionEntry} {now : Int} (expiresAt : Int) :
      c = .inl (.resolve (.rewrite token entry now)) → (s.sessions token).isSome = true →
      Command w input s c
        (s.putSession token { entry with lastSeen := now, expiresAt := expiresAt })
  | audit (event : AuditEvent) : Command w input s c (s.appendAudit event)
  | changeUser {userId : String} {now : UserRow} (row : UserRow) (audit : List AuditEvent) :
      s.users userId = some now → row.totpSecret = now.totpSecret →
      now.authorityVersion ≤ row.authorityVersion →
      Command w input s c { s.putUser userId row with audit := audit }

section calls
variable {w : World} {input : Input} {s : Store} {c : Party}

theorem Command.revokeSession (token : String) : Command w input s c (s.revokeSession token) := by
  unfold Store.revokeSession
  split
  · exact .read
  · exact .deleteSession token

theorem Command.revoke (pc : RevokePc) : Command w input s c (pc.effect s) := by
  cases pc with
  | del start seen todo key last => exact .deleteSession key
  | _ => exact .read

variable (w input s)

theorem LoginAttempt.command (a : LoginAttempt) (i : Nat) (pc : LoginPc) :
    Command w input s (.inl (.login a pc)) (a.effect w i input s pc) := by
  cases pc with
  | reserve | clearAccount | releaseIp | unwind => exact .slots _ _ _
  | useCode user => exact .useCode rfl
  | createSession user => exact .createSession rfl
  | revoke user token => exact .revokeSession token
  | reject count user => cases count <;> exact .slots _ _ _
  | auditFail | auditOk => exact .audit _
  | _ => exact .read

theorem ConfirmAttempt.command (a : ConfirmAttempt) (i : Nat) (pc : ConfirmPc) :
    Command w input s (.inl (.confirm a pc)) (a.effect i s pc) := by
  cases pc with
  | reserve | release | reject | unwind => exact .slots _ _ _
  | useCode row => exact .useCode rfl
  | setEnrolled row =>
    simp only [ConfirmAttempt.effect, ConfirmAttempt.enrolled]
    cases hnow : s.users a.userId with
    | none => exact .read
    | some now => exact .changeUser _ s.audit hnow rfl (Nat.le_refl _)
  | auditOk | auditFail => exact .audit _
  | _ => exact .read

theorem PasswordChange.command (a : PasswordChange) (i : Nat) (pc : PasswordPc) :
    Command w input s (.inl (.password a pc)) (a.effect i input s pc) := by
  cases pc with
  | reserve | release | reject | unwind => exact .slots _ _ _
  | useCode row => exact .useCode rfl
  | transaction row =>
    simp only [PasswordChange.effect, PasswordChange.commit]
    cases hnow : s.users a.userId with
    | none => exact .audit _
    | some now => exact .changeUser _ _ hnow rfl (Nat.le_succ _)
  | revoking version pc => exact .revoke pc
  | revokingUncertain pc => exact .revoke pc
  | auditFail row => exact .audit _
  | _ => exact .read

variable {input s} in
theorem UserChange.row_of_ok {a : UserChange} {old new : UserRow}
    (h : a.outcome input s = .ok (old, new)) : s.users a.change.targetId = some old ∧
      new.totpSecret = old.totpSecret ∧ new.authorityVersion = old.authorityVersion + 1 := by
  unfold UserChange.outcome at h
  cases htarget : s.users a.change.targetId with
  | none => simp [htarget] at h
  | some target =>
    simp only [htarget] at h
    repeat' split at h
    all_goals simp only [reduceCtorEq, Except.ok.injEq, Prod.mk.injEq] at h
    obtain ⟨rfl, rfl⟩ := h
    exact ⟨rfl, rfl, rfl⟩

theorem UserChange.command (a : UserChange) (pc : ChangePc) :
    Command w input s c (a.effect input s pc) := by
  cases pc with
  | transaction =>
    simp only [UserChange.effect]
    cases houtcome : a.outcome input s with
    | error refusal => exact .read
    | ok rows =>
      obtain ⟨old, new⟩ := rows
      obtain ⟨hold, hsecret, hversion⟩ := UserChange.row_of_ok houtcome
      refine .changeUser new _ hold hsecret ?_
      rw [hversion]
      exact Nat.le_succ _
  | revoking version pc => exact .revoke pc
  | revokingUncertain pc => exact .revoke pc
  | done outcome => exact .read

theorem ResolvePc.command (pc : ResolvePc) :
    Command w input s (.inl (.resolve pc)) (pc.effect w s) := by
  cases pc with
  | del token => exact .deleteSession token
  | rewrite token entry now =>
    simp only [ResolvePc.effect, Store.rewriteSession]
    split
    · rename_i hsome
      exact .rewriteSession _ rfl hsome
    · exact .read
  | _ => exact .read

theorem LogoutPc.command (pc : LogoutPc) : Command w input s c (pc.effect s) := by
  cases pc with
  | revoke token ctx session => exact .revokeSession token
  | audit ctx session => exact .audit _
  | _ => exact .read

theorem Call.command (i : Nat) (c : Call) : Command w input s (.inl c) (c.effect w i input s) := by
  cases c with
  | login a pc => exact a.command w input s i pc
  | confirm a pc => exact a.command w input s i pc
  | password a pc => exact a.command w input s i pc
  | change a pc => exact a.command w input s pc
  | resolve pc => exact pc.command w input s
  | logout pc => exact pc.command w input s

theorem ConfirmFactor.command (a : ConfirmFactor) (pc : FactorPc) :
    Command w input s (.inr (a, pc)) (a.effect s pc) := by
  cases pc with
  | useCode => exact .useCode rfl
  | setEnrolled =>
    simp only [ConfirmFactor.effect, ConfirmFactor.enrolled]
    cases hnow : s.users a.userId with
    | none => exact .read
    | some now =>
      simp only
      split
      · exact .read
      · exact .changeUser _ s.audit hnow rfl (Nat.le_refl _)
  | audit valid => exact .audit _
  | _ => exact .read

end calls

theorem Party.command (w : World) (i : Nat) (input : Input) (s : Store) (c : Party) :
    Command w input s c (((calls w).sum (factorCalls w)).effect i input s c) := by
  cases c with
  | inl c => exact c.command w input s i
  | inr call => exact call.1.command w input s call.2

end CyberGuard.Auth
