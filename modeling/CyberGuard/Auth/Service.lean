import CyberGuard.Shared.Interleaving
import CyberGuard.Auth.Login
import CyberGuard.Auth.ConfirmTotp
import CyberGuard.Auth.ChangeAuthority

/-!
# The auth service

Any number of its calls at once, each of them a thread over the stores. `service`
lets every store call fail; `reliable` is the service over stores that do not.
-/

namespace CyberGuard.Auth
set_option autoImplicit false
open Interleaving StoreCalls

inductive Call where
  | login (a : LoginAttempt) (pc : LoginPc)
  | confirm (a : ConfirmAttempt) (pc : ConfirmPc)
  | password (a : PasswordChange) (pc : PasswordPc)
  | change (a : UserChange) (pc : ChangePc)
  | resolve (pc : ResolvePc)
  | logout (pc : LogoutPc)

namespace Call

def effect (w : World) (i : Nat) (input : Input) (s : Store) : Call → Store
  | .login a pc => a.effect w i input s pc
  | .confirm a pc => a.effect i s pc
  | .password a pc => a.effect i input s pc
  | .change a pc => a.effect input s pc
  | .resolve pc => pc.effect w s
  | .logout pc => pc.effect s

def next (w : World) (input : Input) (s : Store) : Call → Call
  | .login a pc => .login a (a.next w input s pc)
  | .confirm a pc => .confirm a (a.next w s pc)
  | .password a pc => .password a (a.next w input s pc)
  | .change a pc => .change a (a.next input s pc)
  | .resolve pc => .resolve (pc.next w s)
  | .logout pc => .logout (pc.next s)

def failed (input : Input) : Call → Option Call
  | .login a pc => pc.failed.map (.login a)
  | .confirm a pc => pc.failed.map (.confirm a)
  | .password a pc => (pc.failed input).map (.password a)
  | .change a pc => (pc.failed input).map (.change a)
  | .resolve pc => pc.failed.map .resolve
  | .logout pc => pc.failed.map .logout

def lost (input : Input) : Call → Option Call
  | .login a pc => pc.failed.map (.login a)
  | .confirm a pc => pc.failed.map (.confirm a)
  | .password a pc => (pc.lost input).map (.password a)
  | .change a pc => (pc.lost input).map (.change a)
  | .resolve pc => pc.failed.map .resolve
  | .logout pc => pc.failed.map .logout

def admissible (input : Input) (s : Store) : Call → Prop
  | .login a pc => a.admissible input s pc
  | .password _ pc => pc.admissible input s
  | .change _ pc => pc.admissible input s
  | _ => True

end Call

def calls (w : World) : Calls Store Call Input where
  effect := Call.effect w
  next := Call.next w
  failed := Call.failed
  lost := Call.lost
  admissible := Call.admissible

inductive Starts (w : World) : Call → Prop where
  | login (email password totpCode : String) (ctx : RequestContext) :
      Starts w (.login ⟨w.normalizeEmail email, password, totpCode, ctx⟩ .reserve)
  | confirm (a : ConfirmAttempt) : Starts w (.confirm a .reserve)
  | password (a : PasswordChange) : Starts w (.password a .reserve)
  | assignRole (session : SessionInfo) (ctx : RequestContext) (userId : String) (role : Role) :
      Starts w (.change ⟨assignRole session.orgId userId role, session, ctx⟩ .transaction)
  | setStatus (session : SessionInfo) (ctx : RequestContext) (userId : String)
      (status : UserStatus) :
      Starts w (.change ⟨setStatus session.orgId userId status, session, ctx⟩ .transaction)
  | resolve (token : String) : Starts w (.resolve (.get token))
  | logout (token : String) (ctx : RequestContext) : Starts w (.logout (.peek token ctx))

/-- Time passes, sessions end with it, and users are created. -/
inductive Environment : Store → Store → Prop where
  | tick {s : Store} {now : Int} : s.clock ≤ now → Environment s { s with clock := now }
  | expire {s : Store} (token : String) : Environment s (s.deleteSession token)
  | createUser {s : Store} {userId : String} (row : UserRow) :
      s.users userId = none → Environment s (s.putUser userId row)

def service (w : World) : Program Store Call where
  start := fun _ => Starts w
  act := Called (calls w)
  env := Environment

def reliable (w : World) : Program Store Call where
  start := fun _ => Starts w
  act := Answered (calls w)
  env := Environment

theorem service_answers {w : World} {s : Store} {ts : List Call} {i : Nat} {c : Call}
    (input : Input) (hi : ts[i]? = some c) (hadm : c.admissible input s) :
    Step (service w) ⟨s, ts⟩ ⟨c.effect w i input s, ts.set i (c.next w input s)⟩ :=
  .act hi (.answered (.intro input hadm))

theorem reliable_answers {w : World} {s : Store} {ts : List Call} {i : Nat} {c : Call}
    (input : Input) (hi : ts[i]? = some c) (hadm : c.admissible input s) :
    Step (reliable w) ⟨s, ts⟩ ⟨c.effect w i input s, ts.set i (c.next w input s)⟩ :=
  .act hi (.intro input hadm)

def sampleWorld : World where
  toLowerCase := fun text => String.ofList (text.toList.map Char.toLower)
  verifyPassword := fun hash password => hash == password
  verifyTotp := fun _ _ _ => true
  idleMs := 1800000
  capMs := 43200000

end CyberGuard.Auth
