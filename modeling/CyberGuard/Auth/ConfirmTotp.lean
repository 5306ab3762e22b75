import CyberGuard.Auth.Sessions

/-!
# Confirming a TOTP enrollment

`confirmTotpEnrollment`, on the user's own counter and the login's per address. Its
slots settle as the login's do; here the audit row of a success comes before they
are given back, so that a failure of it still runs the `catch`.
-/

namespace CyberGuard.Auth
set_option autoImplicit false

structure ConfirmAttempt where
  userId : String
  totpCode : String
  ctx : RequestContext
  deriving DecidableEq, Repr

inductive ConfirmOutcome where
  | rateLimited
  | authError
  | unavailable
  | confirmed
  deriving DecidableEq, Repr

inductive ConfirmPc where
  | reserve
  | selectUser
  | decryptLikeARow
  | verify (row : UserRow)
  | useCode (row : UserRow)
  | setEnrolled (row : UserRow)
  | auditOk (row : UserRow)
  | release
  | reject (row : Option UserRow)
  | auditFail (row : Option UserRow)
  | unwind
  | done (outcome : ConfirmOutcome) (counted : Bool)

namespace ConfirmAttempt
variable (a : ConfirmAttempt)

def user : String := userKey a.userId

def ip : String := ipKey a.ctx.sourceIp

def keys : List String := [a.user, a.ip]

def counters : List (String × Nat) := [(a.user, accountMax), (a.ip, ipMax)]

def failAudit (row : Option UserRow) : AuditEvent where
  userId := row.map fun _ => a.userId
  orgId := (row.map (·.orgId)).getD org
  action := "user.totp.enroll"
  outcome := .denied
  sourceIp := a.ctx.sourceIp
  correlationId := a.ctx.correlationId

def okAudit (row : UserRow) : AuditEvent where
  userId := some a.userId
  orgId := row.orgId
  action := "user.totp.enroll"
  outcome := .ok
  sourceIp := a.ctx.sourceIp
  correlationId := a.ctx.correlationId

/-- `UPDATE users SET totp_enrolled = true` of the row as it is now. -/
def enrolled (s : Store) : Store :=
  match s.users a.userId with
  | some now => s.putUser a.userId { now with totpEnrolled := true }
  | none => s

def effect (i : Nat) (s : Store) : ConfirmPc → Store
  | .reserve => s.reserve i a.counters
  | .useCode _ => s.useCode a.userId a.totpCode
  | .setEnrolled _ => a.enrolled s
  | .auditOk row => s.appendAudit (a.okAudit row)
  | .release => s.release i a.keys
  | .reject _ => s.failed a.keys
  | .auditFail row => s.appendAudit (a.failAudit row)
  | .unwind => s.release i a.keys
  | _ => s

def next (w : World) (s : Store) : ConfirmPc → ConfirmPc
  | .reserve =>
    if (reserveScript s.clock a.counters s.counters).2 then .selectUser
    else .done .rateLimited false
  | .selectUser =>
    match s.users a.userId with
    | none => .decryptLikeARow
    | some row => .verify row
  | .decryptLikeARow => .reject none
  | .verify row =>
    if row.totpEnrolled then .reject (some row)
    else if w.verifyTotp row.totpSecret a.totpCode s.clock = false then .reject (some row)
    else .useCode row
  | .useCode row => if s.firstUse a.userId a.totpCode then .setEnrolled row else .reject (some row)
  | .setEnrolled row => .auditOk row
  | .auditOk _ => .release
  | .release => .done .confirmed false
  | .reject row => .auditFail row
  | .auditFail _ => .done .authError true
  | .unwind => .done .unavailable false
  | .done outcome counted => .done outcome counted

end ConfirmAttempt

def ConfirmPc.failed : ConfirmPc → Option ConfirmPc
  | .reserve | .release | .unwind => some (.done .unavailable false)
  | .selectUser | .decryptLikeARow | .useCode _ | .setEnrolled _ | .auditOk _ => some .unwind
  | .reject _ | .auditFail _ => some (.done .unavailable true)
  | .verify _ | .done _ _ => none

end CyberGuard.Auth
