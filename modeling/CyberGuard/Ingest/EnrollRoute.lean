import CyberGuard.Shared.Interleaving
import CyberGuard.Shared.RowLocks

/-!
# The enroll route

`POST /v1/agents/enroll` as a thread over the two tables it writes: the agent row
is inserted before the token is looked at, both inside one transaction, and the
token is consumed by one conditional `UPDATE`.

The statement sees the row committed when it starts. If it passes the condition
there, the statement waits for a concurrent writer of the row and evaluates the
condition again on what that writer left. Every statement may fail, after its
effect or without it. A lost connection leaves the transaction to the server,
which ends it later; where `COMMIT` had been sent, the server may still carry it
out. The pool does not hand out a client whose connection was lost.
-/

namespace CyberGuard.Ingest.Enroll
set_option autoImplicit false
open Interleaving RowLocks

inductive TokenState where
  | issued
  | consumed
  | expired
  deriving DecidableEq, Repr

structure AgentRow where
  orgId : String
  pubkey : List UInt8
  certPem : String
  enrolledAt : Int
  expiresAt : Int
  deriving DecidableEq, Repr

structure TokenRow where
  state : TokenState
  expiresAt : Int
  consumedAt : Option Int
  consumedByAgentId : Option String
  deriving DecidableEq, Repr

inductive Key where
  | agent (agentId : String)
  | token (token : String)
  deriving DecidableEq, Repr

/-- A key of `agents` holds an agent row, one of `enrollment_tokens` a token row. -/
abbrev Row : Key → Type
  | .agent _ => AgentRow
  | .token _ => TokenRow

abbrev Tables := (k : Key) → Option (Row k)

structure EnrollRequest where
  enrollmentToken : String
  agentPubkey : String
  deriving DecidableEq, Repr

/-- What `issueClientCert` returns. -/
structure Issued where
  certPem : String
  notBefore : Int
  notAfter : Int
  deriving DecidableEq, Repr

structure Server (Body : Type) where
  safeParse : Body → Option EnrollRequest
  fromBase64url : String → List UInt8

/-- The values one request writes; `startedAt` is what `now()` is in its transaction. -/
structure Tx where
  agentId : String
  token : String
  rawPubkey : List UInt8
  startedAt : Int
  issued : Issued
  deriving DecidableEq, Repr

def Tx.agentRow (tx : Tx) : AgentRow where
  orgId := "default"
  pubkey := tx.rawPubkey
  certPem := tx.issued.certPem
  enrolledAt := tx.startedAt
  expiresAt := tx.issued.notAfter

/-- The condition of the `UPDATE`. -/
def TokenRow.Consumable (row : TokenRow) (now : Int) : Prop :=
  row.state = .issued ∧ row.expiresAt > now

instance (row : TokenRow) (now : Int) : Decidable (row.Consumable now) :=
  inferInstanceAs (Decidable (_ ∧ _))

def TokenRow.consume (row : TokenRow) (tx : Tx) : TokenRow :=
  { row with
    state := .consumed
    consumedAt := some tx.startedAt
    consumedByAgentId := some tx.agentId }

inductive Reply where
  | invalidRequest
  | tokenAlreadyUsed
  | tokenRejected
  | unavailable
  | internal
  /-- A failure outside the `try`: the framework's own answer. -/
  | thrown
  | ok (agentId clientCertificate : String) (issuedAt expiresAt : Int)
  deriving DecidableEq, Repr

namespace Reply

def code : Reply → Nat
  | .invalidRequest => 400
  | .tokenAlreadyUsed => 409
  | .tokenRejected => 401
  | .unavailable => 503
  | .internal => 500
  | .thrown => 500
  | .ok _ _ _ _ => 200

def error : Reply → Option String
  | .invalidRequest => some "invalid_request"
  | .tokenAlreadyUsed => some "token_already_used"
  | .tokenRejected => some "token_rejected"
  | .unavailable => some "unavailable"
  | .internal => some "internal"
  | .thrown => some "Internal Server Error"
  | .ok _ _ _ _ => none

def failure (connectivity : Bool) : Reply := if connectivity then .unavailable else .internal

end Reply

/-- The handler's transaction as the server has it once the handler has given up on it: ended,
still open, or open with a `COMMIT` under way. -/
inductive Session where
  | ended (commitSent : Bool)
  | left
  | committing (tx : Tx)
  deriving DecidableEq, Repr

def Session.commitSent : Session → Bool
  | .ended sent => sent
  | .left => false
  | .committing _ => true

inductive Pc where
  | connect (req : EnrollRequest) (rawPubkey : List UInt8) (agentId : String)
  | begin (req : EnrollRequest) (rawPubkey : List UInt8) (agentId : String)
  | issueClientCert (req : EnrollRequest) (rawPubkey : List UInt8) (agentId : String)
      (startedAt : Int)
  | insertAgent (tx : Tx)
  | consumeScan (tx : Tx)
  | consumeWait (tx : Tx)
  | rollback (tx : Tx)
  | selectState (tx : Tx)
  | commit (tx : Tx)
  | caught (connectivity : Bool) (session : Session)
  | replied (reply : Reply) (session : Session)

/-- Whether the handler has sent `COMMIT`. -/
def Pc.commitSent : Pc → Bool
  | .caught _ session | .replied _ session => session.commitSent
  | _ => false

/-- The tables with their open transactions, the clock, and the requests committed so far in the
order of their commits. -/
structure State where
  db : Db Key Row
  clock : Int
  log : List (Nat × Tx)

def State.commit (s : State) (i : Nat) (tx : Tx) : State :=
  { s with db := s.db.commit i, log := s.log ++ [(i, tx)] }

def State.abort (s : State) (i : Nat) : State := { s with db := s.db.abort i }

def State.insertAgent (s : State) (i : Nat) (tx : Tx) : State :=
  { s with db := s.db.write i (.agent tx.agentId) tx.agentRow }

def State.consume (s : State) (i : Nat) (tx : Tx) (row : TokenRow) : State :=
  { s with db := s.db.write i (.token tx.token) (row.consume tx) }

/-- The token row passes the condition of the `UPDATE` as transaction `i` sees it. -/
def Passes (s : State) (i : Nat) (tx : Tx) (row : TokenRow) : Prop :=
  s.db.view i (.token tx.token) = some row ∧ row.Consumable tx.startedAt

/-- What the server does on its own with a transaction it was left with. -/
inductive Served (i : Nat) : State → Session → State → Session → Prop where
  | ended {s : State} : Served i s .left (s.abort i) (.ended false)
  | dropped {s : State} {tx : Tx} : Served i s (.committing tx) (s.abort i) (.ended true)
  | committed {s : State} {tx : Tx} : Served i s (.committing tx) (s.commit i tx) (.ended true)

/-- One command of handler `i`. The Boolean of a failure is what `isConnectivityError` says. -/
inductive Act (i : Nat) : State → Pc → State → Pc → Prop where
  | connected {s : State} {req : EnrollRequest} {key : List UInt8} {agentId : String} :
      Act i s (.connect req key agentId) s (.begin req key agentId)
  | connectFailed {s : State} {req : EnrollRequest} {key : List UInt8} {agentId : String} :
      Act i s (.connect req key agentId) s (.replied .thrown (.ended false))
  | begun {s : State} {req : EnrollRequest} {key : List UInt8} {agentId : String} :
      Act i s (.begin req key agentId) s (.issueClientCert req key agentId s.clock)
  | beginFailed {s : State} {req : EnrollRequest} {key : List UInt8} {agentId : String}
      (c : Bool) : Act i s (.begin req key agentId) s (.caught c .left)
  | issued {s : State} {req : EnrollRequest} {key : List UInt8} {agentId : String}
      {startedAt : Int} (issued : Issued) :
      Act i s (.issueClientCert req key agentId startedAt) s
        (.insertAgent ⟨agentId, req.enrollmentToken, key, startedAt, issued⟩)
  | issueFailed {s : State} {req : EnrollRequest} {key : List UInt8} {agentId : String}
      {startedAt : Int} (c : Bool) :
      Act i s (.issueClientCert req key agentId startedAt) s (.caught c .left)
  | inserted {s : State} {tx : Tx} :
      s.db.Available i (.agent tx.agentId) → s.db.committed (.agent tx.agentId) = none →
      Act i s (.insertAgent tx) (s.insertAgent i tx) (.consumeScan tx)
  | insertFailed {s : State} {tx : Tx} (c : Bool) :
      Act i s (.insertAgent tx) s (.caught c .left)
  | insertLost {s : State} {tx : Tx} (c : Bool) :
      s.db.Available i (.agent tx.agentId) → s.db.committed (.agent tx.agentId) = none →
      Act i s (.insertAgent tx) (s.insertAgent i tx) (.caught c .left)
  | scanned {s : State} {tx : Tx} {row : TokenRow} :
      Passes s i tx row → Act i s (.consumeScan tx) s (.consumeWait tx)
  | scannedNone {s : State} {tx : Tx} :
      (∀ row, ¬ Passes s i tx row) → Act i s (.consumeScan tx) s (.rollback tx)
  | scanFailed {s : State} {tx : Tx} (c : Bool) :
      Act i s (.consumeScan tx) s (.caught c .left)
  | consumed {s : State} {tx : Tx} {row : TokenRow} :
      s.db.Available i (.token tx.token) → Passes s i tx row →
      Act i s (.consumeWait tx) (s.consume i tx row) (.commit tx)
  | consumedNone {s : State} {tx : Tx} :
      s.db.Available i (.token tx.token) → (∀ row, ¬ Passes s i tx row) →
      Act i s (.consumeWait tx) s (.rollback tx)
  | consumeFailed {s : State} {tx : Tx} (c : Bool) :
      Act i s (.consumeWait tx) s (.caught c .left)
  | consumeLost {s : State} {tx : Tx} {row : TokenRow} (c : Bool) :
      s.db.Available i (.token tx.token) → Passes s i tx row →
      Act i s (.consumeWait tx) (s.consume i tx row) (.caught c .left)
  | rolledBack {s : State} {tx : Tx} : Act i s (.rollback tx) (s.abort i) (.selectState tx)
  | rollbackFailed {s : State} {tx : Tx} (c : Bool) :
      Act i s (.rollback tx) s (.caught c .left)
  | alreadyUsed {s : State} {tx : Tx} {row : TokenRow} :
      s.db.committed (.token tx.token) = some row → row.state = .consumed →
      Act i s (.selectState tx) s (.replied .tokenAlreadyUsed (.ended false))
  | rejected {s : State} {tx : Tx} :
      (∀ row : TokenRow, s.db.committed (.token tx.token) = some row → row.state ≠ .consumed) →
      Act i s (.selectState tx) s (.replied .tokenRejected (.ended false))
  | stateFailed {s : State} {tx : Tx} (c : Bool) :
      Act i s (.selectState tx) s (.caught c (.ended false))
  | committed {s : State} {tx : Tx} :
      Act i s (.commit tx) (s.commit i tx)
        (.replied (.ok tx.agentId tx.issued.certPem tx.issued.notBefore tx.issued.notAfter)
          (.ended true))
  | commitRefused {s : State} {tx : Tx} (c : Bool) :
      Act i s (.commit tx) (s.abort i) (.caught c (.ended true))
  | commitLost {s : State} {tx : Tx} (c : Bool) :
      Act i s (.commit tx) s (.caught c (.committing tx))
  | caughtRolledBack {s : State} {c : Bool} :
      Act i s (.caught c .left) (s.abort i) (.replied (.failure c) (.ended false))
  -- the failure of this `ROLLBACK` is swallowed
  | caughtReplied {s : State} {c : Bool} {session : Session} :
      Act i s (.caught c session) s (.replied (.failure c) session)
  | caughtServed {s s' : State} {c : Bool} {session session' : Session} :
      Served i s session s' session' → Act i s (.caught c session) s' (.caught c session')
  | repliedServed {s s' : State} {reply : Reply} {session session' : Session} :
      Served i s session s' session' → Act i s (.replied reply session) s' (.replied reply session')

/-- Up to the first `await`; `agentId` is the `uuidv7()` of the request. -/
def receive {Body : Type} (S : Server Body) (body : Body) (agentId : String) : Pc :=
  match S.safeParse body with
  | none => .replied .invalidRequest (.ended false)
  | some req => .connect req (S.fromBase64url req.agentPubkey) agentId

def route {Body : Type} (S : Server Body) : Program State Pc where
  start := fun _ pc => ∃ body agentId, pc = receive S body agentId
  act := Act
  env := fun s s' => ∃ now, s.clock ≤ now ∧ s' = { s with clock := now }

end CyberGuard.Ingest.Enroll
