import CyberGuard.Auth.Store

/-!
# Session commands

`revokeAllForUser`, `resolveSession` and the logout, command by command. A page of
a `SCAN` is an input; all that is relied on is what the store promises: a key that
is there during the whole scan is on one of its pages. Tokens are not handed out
twice, so a session that is there now and was made before the scan began has been
there throughout.
-/

namespace CyberGuard.Auth
set_option autoImplicit false

abbrev FoundUser := String × UserRow

structure Input where
  found : Option FoundUser
  token : String
  csrfToken : String
  passwordHash : String
  page : List String
  lastPage : Bool
  refused : Bool
  uncertain : Bool

/-- `revokeAllForUser`: `start` is the number of sessions made when the scan began, `seen` the
keys of its pages so far, `todo` those of the last page not looked at yet. -/
inductive RevokePc where
  | scan (start : Option Nat) (seen : List String)
  | get (start : Nat) (seen todo : List String) (key : String) (last : Bool)
  | del (start : Nat) (seen todo : List String) (key : String) (last : Bool)
  | finished

namespace RevokePc

def resume (start : Nat) (seen todo : List String) (last : Bool) : RevokePc :=
  match todo with
  | [] => if last then .finished else .scan (some start) seen
  | key :: todo => .get start seen todo key last

def effect (s : Store) : RevokePc → Store
  | .del _ _ _ key _ => s.deleteSession key
  | _ => s

def next (userId : String) (input : Input) (s : Store) : RevokePc → RevokePc
  | .scan start seen =>
    resume (start.getD s.tick) (seen ++ input.page) input.page input.lastPage
  | .get start seen todo key last =>
    match s.sessions key with
    | some entry =>
      if entry.info.userId = userId then .del start seen todo key last
      else resume start seen todo last
    | none => resume start seen todo last
  | .del start seen todo _ last => resume start seen todo last
  | .finished => .finished

def admissible (input : Input) (s : Store) : RevokePc → Prop
  | .scan start seen => input.lastPage = true → ∀ key entry, s.sessions key = some entry →
    entry.born < start.getD s.tick → key ∈ seen ++ input.page
  | _ => True

end RevokePc

inductive ResolvePc where
  | get (token : String)
  | del (token : String)
  | rewrite (token : String) (entry : SessionEntry) (now : Int)
  | resolved (session : Option SessionInfo)
  | unavailable

namespace ResolvePc

def effect (w : World) (s : Store) : ResolvePc → Store
  | .del token => s.deleteSession token
  | .rewrite token entry now =>
    s.rewriteSession token { entry with
      lastSeen := now
      expiresAt := s.clock + min w.idleMs (entry.issuedAt + w.capMs - now) }
  | _ => s

def next (w : World) (s : Store) : ResolvePc → ResolvePc
  | .get token =>
    if token = "" then .resolved none
    else
      match s.sessions token with
      | none => .resolved none
      | some entry =>
        if 0 < entry.issuedAt + w.capMs - s.clock then .rewrite token entry s.clock
        else .del token
  | .del _ => .resolved none
  | .rewrite _ entry _ => .resolved (some entry.info)
  | pc => pc

def failed : ResolvePc → Option ResolvePc
  | .get _ | .del _ | .rewrite _ _ _ => some .unavailable
  | _ => none

end ResolvePc

inductive LogoutPc where
  | peek (token : String) (ctx : RequestContext)
  | revoke (token : String) (ctx : RequestContext) (session : Option SessionInfo)
  | audit (ctx : RequestContext) (session : Option SessionInfo)
  | done
  | unavailable

namespace LogoutPc

def effect (s : Store) : LogoutPc → Store
  | .revoke token _ _ => s.revokeSession token
  | .audit ctx session => s.appendAudit
    { userId := session.map (·.userId)
      orgId := (session.map (·.orgId)).getD org
      action := "auth.logout"
      outcome := .ok
      sourceIp := ctx.sourceIp
      correlationId := ctx.correlationId }
  | _ => s

def next (s : Store) : LogoutPc → LogoutPc
  | .peek token ctx =>
    .revoke token ctx (if token = "" then none else (s.sessions token).map (·.info))
  | .revoke _ ctx session => .audit ctx session
  | .audit _ _ => .done
  | pc => pc

def failed : LogoutPc → Option LogoutPc
  | .peek _ _ | .revoke _ _ _ | .audit _ _ => some .unavailable
  | _ => none

end LogoutPc

end CyberGuard.Auth
