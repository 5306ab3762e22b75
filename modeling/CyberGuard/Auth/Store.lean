import CyberGuard.Shared.ExpiringKeys
import CyberGuard.Auth.RateLimit

/-!
# The stores of the auth service

What Postgres and Redis hold for the service, and the updates its commands make.
A session entry carries the authority version its login had read and the number of
the session, and the store the tokens handed out and, by call, the slots granted and
the `RELEASE` commands made: nothing reads these, they are what the results speak of.
Of `users` there are the columns the service reads or writes; the table checks that a
role and a status are one of those below.
-/

namespace CyberGuard.Auth
set_option autoImplicit false
open ExpiringKeys

inductive Role where
  | admin
  | analyst
  | viewer
  deriving DecidableEq, Repr

inductive UserStatus where
  | active
  | disabled
  deriving DecidableEq, Repr

def Role.text : Role → String
  | .admin => "admin"
  | .analyst => "analyst"
  | .viewer => "viewer"

def UserStatus.text : UserStatus → String
  | .active => "active"
  | .disabled => "disabled"

structure UserRow where
  orgId : String
  email : String
  passwordHash : String
  totpSecret : String
  totpEnrolled : Bool
  role : Role
  status : UserStatus
  authorityVersion : Nat
  deriving DecidableEq, Repr

def UserRow.isActiveAdmin (row : UserRow) : Bool :=
  decide (row.role = .admin) && decide (row.status = .active)

structure SessionInfo where
  userId : String
  orgId : String
  role : Role
  csrfToken : String
  deriving DecidableEq, Repr

structure SessionEntry where
  info : SessionInfo
  issuedAt : Int
  lastSeen : Int
  expiresAt : Int
  readVersion : Nat
  born : Nat
  deriving DecidableEq, Repr

inductive AuditOutcome where
  | ok
  | denied
  deriving DecidableEq, Repr

structure AuditEvent where
  userId : Option String
  orgId : String
  action : String
  targetId : Option String := none
  outcome : AuditOutcome
  sourceIp : Option String := none
  correlationId : Option String := none
  detail : Option (String × String) := none
  deriving DecidableEq, Repr

structure RequestContext where
  correlationId : String
  sourceIp : String
  session : Option SessionInfo
  deriving DecidableEq, Repr

/-- What the service calls and does not contain, and its settings. -/
structure World where
  toLowerCase : String → String
  verifyPassword : String → String → Bool
  verifyTotp : String → String → Int → Bool
  idleMs : Int
  capMs : Int

/-- White space and line ends, which `trim` takes off. -/
def isSpace (c : Char) : Bool :=
  (9 ≤ c.toNat && c.toNat ≤ 13) || (0x2000 ≤ c.toNat && c.toNat ≤ 0x200a) ||
    [0x20, 0xa0, 0x1680, 0x2028, 0x2029, 0x202f, 0x205f, 0x3000, 0xfeff].contains c.toNat

def trim (text : List Char) : List Char :=
  ((text.dropWhile isSpace).reverse.dropWhile isSpace).reverse

def World.normalizeEmail (w : World) (email : String) : String :=
  w.toLowerCase (String.ofList (trim email.toList))

structure Store where
  clock : Int
  users : String → Option UserRow
  counters : Counters
  replay : Keys String
  sessions : String → Option SessionEntry
  audit : List AuditEvent
  tick : Nat
  handedOut : List String
  grants : List (Nat × String)
  releases : List (Nat × String)

def org : String := "default"

def replayKey (userId totpCode : String) : String := "totp:replay:" ++ userId ++ ":" ++ totpCode

def replaySeconds : Int := 90

namespace Store

def reserve (s : Store) (i : Nat) (counters : List (String × Nat)) : Store :=
  { s with
    counters := (reserveScript s.clock counters s.counters).1
    grants :=
      if (reserveScript s.clock counters s.counters).2 then
        s.grants ++ counters.map fun entry => (i, entry.1)
      else s.grants }

def failed (s : Store) (keys : List String) : Store :=
  { s with counters := failedScript s.clock keys s.counters }

def release (s : Store) (i : Nat) (keys : List String) : Store :=
  { s with
    counters := releaseScript keys s.counters
    releases := s.releases ++ keys.map fun key => (i, key) }

def clearCounter (s : Store) (key : String) : Store :=
  { s with counters := deleteCounter key s.counters }

def useCode (s : Store) (userId totpCode : String) : Store :=
  { s with replay := (setNx s.replay s.clock (replaySeconds * 1000) (replayKey userId totpCode)).1 }

def firstUse (s : Store) (userId totpCode : String) : Bool :=
  (setNx s.replay s.clock (replaySeconds * 1000) (replayKey userId totpCode)).2

def putSession (s : Store) (token : String) (entry : SessionEntry) : Store :=
  { s with sessions := fun k => if k = token then some entry else s.sessions k }

def createSession (s : Store) (w : World) (token csrfToken userId : String) (row : UserRow) :
    Store :=
  { s.putSession token
      ⟨⟨userId, row.orgId, row.role, csrfToken⟩, s.clock, s.clock, s.clock + w.idleMs,
        row.authorityVersion, s.tick⟩ with
    tick := s.tick + 1
    handedOut := token :: s.handedOut }

def deleteSession (s : Store) (token : String) : Store :=
  { s with sessions := fun k => if k = token then none else s.sessions k }

def revokeSession (s : Store) (token : String) : Store :=
  if token = "" then s else s.deleteSession token

/-- `SET XX`: only an entry that is there is rewritten. -/
def rewriteSession (s : Store) (token : String) (entry : SessionEntry) : Store :=
  if (s.sessions token).isSome then s.putSession token entry else s

def putUser (s : Store) (userId : String) (row : UserRow) : Store :=
  { s with users := fun id => if id = userId then some row else s.users id }

def appendAudit (s : Store) (event : AuditEvent) : Store :=
  { s with audit := s.audit ++ [event] }

end Store

end CyberGuard.Auth
