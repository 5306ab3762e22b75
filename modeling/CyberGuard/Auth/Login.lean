import CyberGuard.Auth.Sessions

/-!
# Login

The attempt reserves its slots before anything else. They settle when it fails (they
are kept) or succeeds (they are given back); an attempt that ends otherwise, in a
store failure, gives them back in its `catch`, which `unwind` is. A rejection is
returned without being awaited, so the `catch` does not see its failures.
-/

namespace CyberGuard.Auth
set_option autoImplicit false

/-- The attempt's input; the address is already normalised. -/
structure LoginAttempt where
  email : String
  password : String
  totpCode : String
  ctx : RequestContext
  deriving DecidableEq, Repr

inductive LoginOutcome where
  | rateLimited
  | authError
  | unavailable
  | loggedIn (token csrfToken : String)
  deriving DecidableEq, Repr

inductive LoginPc where
  | reserve
  | selectUser
  | decryptLikeARow
  | verify (user : FoundUser)
  | useCode (user : FoundUser)
  | createSession (user : FoundUser)
  | readAgain (user : FoundUser) (token csrfToken : String)
  | revoke (user : FoundUser) (token : String)
  | reject (count : Bool) (user : Option FoundUser)
  | auditFail (count : Bool) (user : Option FoundUser)
  | clearAccount (user : FoundUser) (token csrfToken : String)
  | releaseIp (user : FoundUser) (token csrfToken : String)
  | lastLogin (user : FoundUser) (token csrfToken : String)
  | auditOk (user : FoundUser) (token csrfToken : String)
  | unwind
  | done (outcome : LoginOutcome) (counted : Bool)

namespace LoginAttempt
variable (a : LoginAttempt)

def acct : String := acctKey org a.email

def ip : String := ipKey a.ctx.sourceIp

def keys : List String := [a.acct, a.ip]

def counters : List (String × Nat) := [(a.acct, accountMax), (a.ip, ipMax)]

def failAudit (user : Option FoundUser) : AuditEvent where
  userId := user.map (·.1)
  orgId := (user.map (·.2.orgId)).getD org
  action := "auth.login.fail"
  outcome := .denied
  sourceIp := a.ctx.sourceIp
  correlationId := a.ctx.correlationId

def okAudit (user : FoundUser) : AuditEvent where
  userId := some user.1
  orgId := user.2.orgId
  action := "auth.login.ok"
  outcome := .ok
  sourceIp := a.ctx.sourceIp
  correlationId := a.ctx.correlationId

/-- The condition of the first `SELECT`; the address is unique in the org. -/
def Selects (s : Store) (user : FoundUser) : Prop :=
  s.users user.1 = some user.2 ∧ user.2.orgId = org ∧ user.2.email = a.email

def effect (w : World) (i : Nat) (input : Input) (s : Store) : LoginPc → Store
  | .reserve => s.reserve i a.counters
  | .useCode user => s.useCode user.1 a.totpCode
  | .createSession user => s.createSession w input.token input.csrfToken user.1 user.2
  | .revoke _ token => s.revokeSession token
  | .reject true _ => s.failed a.keys
  | .reject false _ => s.release i a.keys
  | .auditFail _ user => s.appendAudit (a.failAudit user)
  | .clearAccount _ _ _ => s.clearCounter a.acct
  | .releaseIp _ _ _ => s.release i [a.ip]
  | .auditOk user _ _ => s.appendAudit (a.okAudit user)
  | .unwind => s.release i a.keys
  | _ => s

def admissible (input : Input) (s : Store) : LoginPc → Prop
  | .selectUser =>
    match input.found with
    | some user => a.Selects s user
    | none => ∀ user, ¬ a.Selects s user
  | .createSession _ => input.token ≠ "" ∧ input.token ∉ s.handedOut
  | _ => True

def next (w : World) (input : Input) (s : Store) : LoginPc → LoginPc
  | .reserve =>
    if (reserveScript s.clock a.counters s.counters).2 then .selectUser
    else .done .rateLimited false
  | .selectUser =>
    match input.found with
    | none => .decryptLikeARow
    | some user => .verify user
  | .decryptLikeARow => .reject true none
  | .verify user =>
    if user.2.status ≠ .active then .reject true (some user)
    else if w.verifyPassword user.2.passwordHash a.password = false then .reject true (some user)
    else if user.2.totpEnrolled = false then .reject true (some user)
    else if w.verifyTotp user.2.totpSecret a.totpCode s.clock = false then .reject true (some user)
    else .useCode user
  | .useCode user =>
    if s.firstUse user.1 a.totpCode then .createSession user else .reject true (some user)
  | .createSession user => .readAgain user input.token input.csrfToken
  | .readAgain user token csrfToken =>
    match s.users user.1 with
    | some now =>
      if now.authorityVersion = user.2.authorityVersion ∧ now.status = .active then
        .clearAccount user token csrfToken
      else .revoke user token
    | none => .revoke user token
  | .revoke user _ => .reject false (some user)
  | .reject count user => .auditFail count user
  | .auditFail count _ => .done .authError count
  | .clearAccount user token csrfToken => .releaseIp user token csrfToken
  | .releaseIp user token csrfToken => .lastLogin user token csrfToken
  | .lastLogin user token csrfToken => .auditOk user token csrfToken
  | .auditOk _ token csrfToken => .done (.loggedIn token csrfToken) false
  | .unwind => .done .unavailable false
  | .done outcome counted => .done outcome counted

end LoginAttempt

/-- Where a failed call leads. A rejection that could not be recorded is a failure all the same:
its slots stay. -/
def LoginPc.failed : LoginPc → Option LoginPc
  | .reserve | .clearAccount _ _ _ | .releaseIp _ _ _ | .lastLogin _ _ _ | .auditOk _ _ _
  | .unwind => some (.done .unavailable false)
  | .selectUser | .decryptLikeARow | .useCode _ | .createSession _ | .readAgain _ _ _
  | .revoke _ _ => some .unwind
  | .reject count _ | .auditFail count _ => some (.done .unavailable count)
  | .verify _ | .done _ _ => none

end CyberGuard.Auth
