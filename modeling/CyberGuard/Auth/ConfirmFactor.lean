import CyberGuard.Auth.Service

/-!
# Confirming the factor from the command line

`confirmFactor` of the command that creates a user: up to three codes are tried on
the user it has just written, whose secret it still holds. The command has no source
address and takes no slot of a limiter; a store that fails ends it.
-/

namespace CyberGuard.Auth
set_option autoImplicit false
open Interleaving StoreCalls

/-- One `confirmFactor` call; the code is already trimmed. -/
structure ConfirmFactor where
  userId : String
  secret : String
  code : String
  deriving DecidableEq, Repr

inductive FactorPc where
  | verify
  | useCode
  | setEnrolled
  | audit (valid : Bool)
  | done (valid : Bool)
  | failed
  deriving DecidableEq, Repr

namespace ConfirmFactor
variable (a : ConfirmFactor)

/-- The pattern `^\d{6}$`. -/
def sixDigits : Bool := a.code.toList.length == 6 && a.code.toList.all Char.isDigit

/-- The `UPDATE` of a row that is not enrolled yet. -/
def enrolled (s : Store) : Store :=
  match s.users a.userId with
  | some now => if now.totpEnrolled then s else s.putUser a.userId { now with totpEnrolled := true }
  | none => s

def auditRow (valid : Bool) : AuditEvent where
  userId := some a.userId
  orgId := org
  action := "user.totp.enroll"
  outcome := if valid then .ok else .denied

def effect (s : Store) : FactorPc → Store
  | .useCode => s.useCode a.userId a.code
  | .setEnrolled => a.enrolled s
  | .audit valid => s.appendAudit (a.auditRow valid)
  | _ => s

def next (w : World) (s : Store) : FactorPc → FactorPc
  | .verify =>
    if a.sixDigits && w.verifyTotp a.secret a.code s.clock then .useCode else .audit false
  | .useCode => if s.firstUse a.userId a.code then .setEnrolled else .audit false
  | .setEnrolled => .audit true
  | .audit valid => .done valid
  | .done valid => .done valid
  | .failed => .failed

end ConfirmFactor

def FactorPc.afterFailure : FactorPc → Option FactorPc
  | .useCode | .setEnrolled | .audit _ => some .failed
  | .verify | .done _ | .failed => none

abbrev Party := Call ⊕ (ConfirmFactor × FactorPc)

def factorCalls (w : World) : Calls Store (ConfirmFactor × FactorPc) Input where
  effect := fun _ _ s call => call.1.effect s call.2
  next := fun _ s call => (call.1, call.1.next w s call.2)
  failed := fun _ call => call.2.afterFailure.map (Prod.mk call.1)
  lost := fun _ call => call.2.afterFailure.map (Prod.mk call.1)
  admissible := fun _ _ _ => True

inductive Begins (w : World) (s : Store) : Party → Prop where
  | call {c : Call} : Starts w c → Begins w s (.inl c)
  | confirmFactor {userId : String} {row : UserRow} (code : String) :
      s.users userId = some row → Begins w s (.inr (⟨userId, row.totpSecret, code⟩, .verify))

/-- The service and the command line over the same stores. -/
def serviceAndCli (w : World) : Program Store Party where
  start := Begins w
  act := Called ((calls w).sum (factorCalls w))
  env := Environment

end CyberGuard.Auth
