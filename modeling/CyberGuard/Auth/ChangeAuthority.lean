import CyberGuard.Auth.Sessions
import CyberGuard.Auth.UserChanges

/-!
# Changes of authority

The password change, and the role and status changes behind `changeUser`: a
transaction that raises the user's authority version, then the deletion of the
user's sessions. The transaction is one step here, at its commit: it holds the locks
of what it read until then. A `COMMIT` whose answer was lost may have taken effect,
and the deletion is tried all the same.
-/

namespace CyberGuard.Auth
set_option autoImplicit false

structure PasswordChange where
  userId : String
  currentPassword : String
  totpCode : String
  ctx : RequestContext
  deriving DecidableEq, Repr

inductive PasswordOutcome where
  | rateLimited
  | authError
  | unavailable
  | changed (version : Nat)
  deriving DecidableEq, Repr

inductive PasswordPc where
  | reserve
  | selectUser
  | verify (row : UserRow)
  | useCode (row : UserRow)
  | transaction (row : UserRow)
  | revoking (version : Nat) (pc : RevokePc)
  | revokingUncertain (pc : RevokePc)
  | release (version : Nat)
  | reject (row : Option UserRow)
  | auditFail (row : Option UserRow)
  | unwind
  | done (outcome : PasswordOutcome) (counted : Bool)

namespace PasswordChange
variable (a : PasswordChange)

def key : String := passwordKey a.userId

def auditOrg (row : Option UserRow) : String :=
  (a.ctx.session.map (·.orgId)).getD ((row.map (·.orgId)).getD org)

def audit (row : Option UserRow) (outcome : AuditOutcome) : AuditEvent where
  userId := some a.userId
  orgId := a.auditOrg row
  action := "user.password.change"
  outcome := outcome
  sourceIp := a.ctx.sourceIp
  correlationId := a.ctx.correlationId

/-- The committed transaction: the new hash on the row as it is now, the version raised. -/
def commit (input : Input) (s : Store) (row : UserRow) : Store :=
  (match s.users a.userId with
  | some now => s.putUser a.userId
      { now with
        passwordHash := input.passwordHash
        authorityVersion := now.authorityVersion + 1 }
  | none => s).appendAudit (a.audit (some row) .ok)

def committedVersion (s : Store) : Nat :=
  match s.users a.userId with
  | some now => now.authorityVersion + 1
  | none => 0

def effect (i : Nat) (input : Input) (s : Store) : PasswordPc → Store
  | .reserve => s.reserve i [(a.key, accountMax)]
  | .useCode _ => s.useCode a.userId a.totpCode
  | .transaction row => a.commit input s row
  | .revoking _ pc | .revokingUncertain pc => pc.effect s
  | .release _ => s.release i [a.key]
  | .reject _ => s.failed [a.key]
  | .auditFail row => s.appendAudit (a.audit row .denied)
  | .unwind => s.release i [a.key]
  | _ => s

def revoked (version : Nat) : RevokePc → PasswordPc
  | .finished => .release version
  | pc => .revoking version pc

def revokedUncertain : RevokePc → PasswordPc
  | .finished => .unwind
  | pc => .revokingUncertain pc

def next (w : World) (input : Input) (s : Store) : PasswordPc → PasswordPc
  | .reserve =>
    if (reserveScript s.clock [(a.key, accountMax)] s.counters).2 then .selectUser
    else .done .rateLimited false
  | .selectUser =>
    match s.users a.userId with
    | none => .reject none
    | some row => .verify row
  | .verify row =>
    if w.verifyPassword row.passwordHash a.currentPassword = false then .reject (some row)
    else if w.verifyTotp row.totpSecret a.totpCode s.clock = false then .reject (some row)
    else .useCode row
  | .useCode row => if s.firstUse a.userId a.totpCode then .transaction row else .reject (some row)
  | .transaction _ => .revoking (a.committedVersion s) (.scan none [])
  | .revoking version pc => revoked version (pc.next a.userId input s)
  | .revokingUncertain pc => revokedUncertain (pc.next a.userId input s)
  | .release version => .done (.changed version) false
  | .reject row => .auditFail row
  | .auditFail _ => .done .authError true
  | .unwind => .done .unavailable false
  | .done outcome counted => .done outcome counted

end PasswordChange

def PasswordPc.admissible (input : Input) (s : Store) : PasswordPc → Prop
  | .revoking _ pc | .revokingUncertain pc => pc.admissible input s
  | _ => True

/-- A transaction that failed without effect was rolled back, or its `COMMIT` got no answer. -/
def PasswordPc.failed (input : Input) : PasswordPc → Option PasswordPc
  | .reserve | .release _ | .unwind => some (.done .unavailable false)
  | .selectUser | .useCode _ | .revoking _ _ | .revokingUncertain _ => some .unwind
  | .transaction _ => some (if input.uncertain then .revokingUncertain (.scan none []) else .unwind)
  | .reject _ | .auditFail _ => some (.done .unavailable true)
  | .verify _ | .done _ _ => none

def PasswordPc.lost (input : Input) : PasswordPc → Option PasswordPc
  | .transaction _ => some (.revokingUncertain (.scan none []))
  | pc => pc.failed input

inductive ChangeOutcome where
  | refused (refusal : Refusal)
  | unavailable
  | changed (version : Nat)
  deriving DecidableEq, Repr

inductive ChangePc where
  | transaction
  | revoking (version : Nat) (pc : RevokePc)
  | revokingUncertain (pc : RevokePc)
  | done (outcome : ChangeOutcome)

/-- A call of `assignRole` or `setStatus` under a session. -/
structure UserChange where
  change : Change String
  session : SessionInfo
  ctx : RequestContext

namespace UserChange
variable (a : UserChange)

/-- What the transaction makes of the target's row. `input.refused` stands for a count of the
locked admins that keeps the last one. -/
def outcome (input : Input) (s : Store) : Except Refusal (UserRow × UserRow) :=
  match s.users a.change.targetId with
  | none => .error .notFound
  | some target =>
    if target.orgId ≠ a.change.orgId then .error .notFound
    else if a.change.removesAnAdmin target && input.refused then .error .conflict
    else .ok (target,
      { target with
        role := a.change.roleOf target
        status := a.change.statusOf target
        authorityVersion := target.authorityVersion + 1 })

def audit (old new : UserRow) : AuditEvent where
  userId := some a.session.userId
  orgId := a.session.orgId
  action :=
    if a.change.role.isSome then "role.change"
    else if new.status = .disabled then "user.disable" else "user.enable"
  targetId := some a.change.targetId
  outcome := .ok
  sourceIp := a.ctx.sourceIp
  correlationId := a.ctx.correlationId
  detail :=
    if a.change.role.isSome then some (old.role.text, new.role.text)
    else some (old.status.text, new.status.text)

def effect (input : Input) (s : Store) : ChangePc → Store
  | .transaction =>
    match a.outcome input s with
    | .error _ => s
    | .ok (old, new) => (s.putUser a.change.targetId new).appendAudit (a.audit old new)
  | .revoking _ pc | .revokingUncertain pc => pc.effect s
  | .done _ => s

def revoked (version : Nat) : RevokePc → ChangePc
  | .finished => .done (.changed version)
  | pc => .revoking version pc

def revokedUncertain : RevokePc → ChangePc
  | .finished => .done .unavailable
  | pc => .revokingUncertain pc

def next (input : Input) (s : Store) : ChangePc → ChangePc
  | .transaction =>
    match a.outcome input s with
    | .error refusal => .done (.refused refusal)
    | .ok (_, new) => .revoking new.authorityVersion (.scan none [])
  | .revoking version pc => revoked version (pc.next a.change.targetId input s)
  | .revokingUncertain pc => revokedUncertain (pc.next a.change.targetId input s)
  | .done outcome => .done outcome

end UserChange

def ChangePc.admissible (input : Input) (s : Store) : ChangePc → Prop
  | .revoking _ pc | .revokingUncertain pc => pc.admissible input s
  | _ => True

def ChangePc.failed (input : Input) : ChangePc → Option ChangePc
  | .transaction =>
    some (if input.uncertain then .revokingUncertain (.scan none []) else .done .unavailable)
  | .revoking _ _ | .revokingUncertain _ => some (.done .unavailable)
  | .done _ => none

def ChangePc.lost (input : Input) : ChangePc → Option ChangePc
  | .transaction => some (.revokingUncertain (.scan none []))
  | pc => pc.failed input

end CyberGuard.Auth
