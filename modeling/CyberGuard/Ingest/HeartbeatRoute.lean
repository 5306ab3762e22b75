import CyberGuard.Shared.Interleaving
import CyberGuard.Shared.ExpiringKeys
import CyberGuard.Shared.ReplacingTable
import CyberGuard.Ingest.CgesEventRow

/-!
# The heartbeat route

`POST /v1/agents/heartbeat` as a thread: one program counter for each point at
which the handler waits for a store or reads the clock, in the order of the
source. What the code calls but does not contain is `Server`: the schema parser,
the signature check and the reading of a date.

A store call may fail. A failed call may have taken effect all the same, and a
failed insert of several rows may have stored any of them.
-/

namespace CyberGuard.Ingest.Heartbeat
set_option autoImplicit false
open CyberGuard.Wire Interleaving ExpiringKeys ReplacingTable

def skewMs : Int := 5 * 60 * 1000

def nonceTtlSeconds : Int := 600

/-- `RETENTION_MIN_DAYS`, in milliseconds. -/
def retentionMinMs : Int := 7 * 24 * 60 * 60 * 1000

def nonceKey (nonce : String) : String := "nonce:" ++ nonce

structure Server (Body PubKey : Type) where
  safeParse : Body → Option OuterEnvelope
  verifyEnvelopeSignature : Body → String → PubKey → Bool
  /-- `new Date(text).getTime()`, with `none` for `NaN`. -/
  dateMs : String → Option Int

structure Request (Body : Type) where
  body : Body
  peerCn : Option String

structure HeartbeatRow where
  agentId : String
  sequenceNumber : Nat
  innerSentAt : String
  outerSentAt : String
  status : HeartbeatStatus
  uptimeSeconds : Nat
  nonce : String
  deriving DecidableEq, Repr

structure StoredRow where
  row : CgesEventRow
  arrivedAt : Int
  deriving DecidableEq, Repr

def StoredRow.key (stored : StoredRow) : String × String × String := stored.row.sortingKey

structure Store (PubKey : Type) where
  clock : Int
  agents : String → Option PubKey
  nonces : Keys String
  heartbeats : List HeartbeatRow
  cgesEvents : List StoredRow
  /-- The rows that the retention deleted; nothing reads them. -/
  expired : List StoredRow
  lastSeen : String → Option Int

inductive Backend where
  | postgres
  | redis
  | clickhouse
  deriving DecidableEq, Repr

/-- One constructor for each `return` of the handler. -/
inductive Reply where
  | invalidRequest
  | unknownAgent
  | unavailable (backend : Backend)
  | staleTimestamp
  | replay
  | badSignature
  | eventsUnavailable
  | eventsFailed
  | ok
  deriving DecidableEq, Repr

namespace Reply

def code : Reply → Nat
  | .invalidRequest => 400
  | .unknownAgent => 401
  | .unavailable _ => 503
  | .staleTimestamp => 422
  | .replay => 409
  | .badSignature => 401
  | .eventsUnavailable => 503
  | .eventsFailed => 500
  | .ok => 200

def error : Reply → Option String
  | .invalidRequest => some "invalid_request"
  | .unknownAgent => some "unknown_agent"
  | .unavailable _ => some "unavailable"
  | .staleTimestamp => some "stale_timestamp"
  | .replay => some "replay"
  | .badSignature => some "bad_signature"
  | .eventsUnavailable => some "cges_events persistence unavailable; retry"
  | .eventsFailed => some "cges_events insert failed"
  | .ok => none

def afterInsert : Reply → Bool
  | .unavailable .clickhouse | .eventsUnavailable | .eventsFailed | .ok => true
  | _ => false

end Reply

inductive Pc (Body PubKey : Type) where
  | selectAgent (req : Request Body) (env : OuterEnvelope)
  | checkTimestamp (req : Request Body) (env : OuterEnvelope) (agentPubkey : PubKey)
  | setNonce (req : Request Body) (env : OuterEnvelope) (agentPubkey : PubKey)
  | verifySignature (req : Request Body) (env : OuterEnvelope) (agentPubkey : PubKey)
  | insertHeartbeat (req : Request Body) (env : OuterEnvelope)
  | insertEvents (req : Request Body) (env : OuterEnvelope)
  | updateLastSeen (req : Request Body) (env : OuterEnvelope)
  | replied (req : Request Body) (reply : Reply)

/-- What a store answers. `kept i` says whether the `i`-th row of a failed call was
written; a call of one row is its row 0. -/
inductive Answer where
  | ok
  | failed (connectivity : Bool) (kept : Nat → Bool)

section Handler
variable {Body PubKey : Type} (S : Server Body PubKey)

def toChDateTime (iso : String) : Option String := do
  let isoMs ← toISOString (← S.dateMs iso)
  some (String.ofList
    ((isoMs.toList.map fun c => if c = 'T' then ' ' else c).filter fun c => c ≠ 'Z'))

def heartbeatRow (env : OuterEnvelope) : Option HeartbeatRow := do
  let innerSentAt ← toChDateTime S env.body.sentAt
  let outerSentAt ← toChDateTime S env.sentAt
  some ⟨env.agentId, env.body.sequenceNumber, innerSentAt, outerSentAt, env.body.status,
    env.body.uptimeSeconds, env.nonce⟩

/-- Up to the first `await`: the schema, and the agent against the client certificate. -/
def receive (req : Request Body) : Pc Body PubKey :=
  match S.safeParse req.body with
  | none => .replied req .invalidRequest
  | some env =>
    match req.peerCn with
    | none => .replied req .unknownAgent
    | some peerCn =>
      if peerCn = "" ∨ peerCn ≠ env.agentId then .replied req .unknownAgent
      else .selectAgent req env

variable {S}

def Store.storeEvents (s : Store PubKey) (rows : List CgesEventRow) : Store PubKey :=
  { s with cgesEvents := s.cgesEvents ++ rows.map fun row => ⟨row, s.clock⟩ }

def Store.updateLastSeen (s : Store PubKey) (agentId : String) : Store PubKey :=
  { s with lastSeen := fun id => if id = agentId then some s.clock else s.lastSeen id }

def keptRows (kept : Nat → Bool) (rows : List CgesEventRow) : List CgesEventRow :=
  (rows.zipIdx.filter fun entry => kept entry.2).map Prod.fst

def called (a : Answer) (s done : Store PubKey) : Store PubKey :=
  match a with
  | .ok => done
  | .failed _ kept => if kept 0 then done else s

def afterHeartbeat (req : Request Body) (env : OuterEnvelope) : Pc Body PubKey :=
  if env.body.events.isEmpty then .updateLastSeen req env else .insertEvents req env

variable (S)

def selectAgent (a : Answer) (s : Store PubKey) (req : Request Body) (env : OuterEnvelope) :
    Pc Body PubKey :=
  match a with
  | .failed _ _ => .replied req (.unavailable .postgres)
  | .ok =>
    match s.agents env.agentId with
    | none => .replied req .unknownAgent
    | some agentPubkey => .checkTimestamp req env agentPubkey

def checkTimestamp (s : Store PubKey) (req : Request Body) (env : OuterEnvelope)
    (agentPubkey : PubKey) : Pc Body PubKey :=
  match S.dateMs env.sentAt with
  | none => .replied req .staleTimestamp
  | some sentAtMs =>
    if (s.clock - sentAtMs).natAbs > skewMs then .replied req .staleTimestamp
    else .setNonce req env agentPubkey

def setNonce (a : Answer) (s : Store PubKey) (req : Request Body) (env : OuterEnvelope)
    (agentPubkey : PubKey) : Store PubKey × Pc Body PubKey :=
  let (nonces, nonceWasNew) :=
    setNx s.nonces s.clock (nonceTtlSeconds * 1000) (nonceKey env.nonce)
  (called a s { s with nonces := nonces },
    match a with
    | .failed _ _ => .replied req (.unavailable .redis)
    | .ok => if nonceWasNew then .verifySignature req env agentPubkey else .replied req .replay)

def insertHeartbeat (a : Answer) (s : Store PubKey) (req : Request Body) (env : OuterEnvelope) :
    Store PubKey × Pc Body PubKey :=
  match heartbeatRow S env with
  | none => (s, .replied req (.unavailable .clickhouse))
  | some row =>
    (called a s { s with heartbeats := s.heartbeats ++ [row] },
      match a with
      | .failed _ _ => .replied req (.unavailable .clickhouse)
      | .ok => afterHeartbeat req env)

def insertEvents (a : Answer) (s : Store PubKey) (req : Request Body) (env : OuterEnvelope) :
    Store PubKey × Pc Body PubKey :=
  match env.body.events.mapM (cgesEventRow env.agentId), a with
  | none, _ => (s, .replied req .eventsFailed)
  | some rows, .ok => (s.storeEvents rows, .updateLastSeen req env)
  | some rows, .failed connectivity kept =>
    (s.storeEvents (keptRows kept rows),
      .replied req (if connectivity then .eventsUnavailable else .eventsFailed))

/-- From one await to the next; `a` is what the store called here answers. -/
def advance (a : Answer) (s : Store PubKey) : Pc Body PubKey → Store PubKey × Pc Body PubKey
  | .selectAgent req env => (s, selectAgent a s req env)
  | .checkTimestamp req env agentPubkey => (s, checkTimestamp S s req env agentPubkey)
  | .setNonce req env agentPubkey => setNonce a s req env agentPubkey
  | .verifySignature req env agentPubkey =>
    (s, if S.verifyEnvelopeSignature req.body env.signature agentPubkey
      then .insertHeartbeat req env else .replied req .badSignature)
  | .insertHeartbeat req env => insertHeartbeat S a s req env
  | .insertEvents req env => insertEvents a s req env
  | .updateLastSeen req env =>
    -- a failure of this update is logged and the reply is 200 all the same
    (called a s (s.updateLastSeen env.agentId), .replied req .ok)
  | .replied req reply => (s, .replied req reply)

variable {S}

theorem called_keeps {α : Type} (field : Store PubKey → α) (a : Answer) {s done : Store PubKey}
    (h : field done = field s) : field (called a s done) = field s := by
  cases a with
  | ok => exact h
  | failed connectivity kept =>
    simp only [called]
    split
    · exact h
    · rfl

/-- Only the `SET NX` changes the nonces, and it changes them as `setNx` does. -/
theorem advance_nonces {a : Answer} {s s' : Store PubKey} {pc pc' : Pc Body PubKey}
    (h : advance S a s pc = (s', pc')) :
    s'.nonces = s.nonces ∨ ∃ key,
      s'.nonces = (setNx s.nonces s.clock (nonceTtlSeconds * 1000) key).1 := by
  obtain ⟨rfl, rfl⟩ := Prod.mk.inj h
  cases pc with
  | setNonce req env key =>
    cases a with
    | ok => exact Or.inr ⟨nonceKey env.nonce, rfl⟩
    | failed connectivity kept =>
      simp only [setNonce, called]
      split
      · exact Or.inr ⟨nonceKey env.nonce, rfl⟩
      · exact Or.inl rfl
  | insertHeartbeat req env =>
    simp only [insertHeartbeat]
    split
    · exact Or.inl rfl
    · exact Or.inl (called_keeps Store.nonces a rfl)
  | insertEvents req env =>
    simp only [insertEvents]
    split <;> exact Or.inl rfl
  | updateLastSeen req env => exact Or.inl (called_keeps Store.nonces a rfl)
  | _ => exact Or.inl rfl

theorem advance_clock {a : Answer} {s s' : Store PubKey} {pc pc' : Pc Body PubKey}
    (h : advance S a s pc = (s', pc')) : s'.clock = s.clock := by
  obtain ⟨rfl, rfl⟩ := Prod.mk.inj h
  cases pc with
  | setNonce | updateLastSeen => exact called_keeps Store.clock a rfl
  | insertHeartbeat req env =>
    simp only [insertHeartbeat]
    split
    · rfl
    · exact called_keeps Store.clock a rfl
  | insertEvents req env =>
    simp only [insertEvents]
    split <;> rfl
  | _ => rfl

variable (S)

/-- Between the commands of the handlers time passes, agents are enrolled and removed, and the
table engine drops a row of which one that arrived no earlier stays, or one whose retention, counted
from the second of its arrival, is over. -/
inductive Environment : Store PubKey → Store PubKey → Prop where
  | tick {s : Store PubKey} {now : Int} : s.clock ≤ now → Environment s { s with clock := now }
  | agents {s : Store PubKey} (agents : String → Option PubKey) :
      Environment s { s with agents := agents }
  | merge {s : Store PubKey} {rows : List StoredRow} :
      Merged StoredRow.key StoredRow.arrivedAt s.cgesEvents rows →
      Environment s { s with cgesEvents := rows }
  | expire {s : Store PubKey} {before after : List StoredRow} {old : StoredRow} :
      s.cgesEvents = before ++ old :: after →
      old.arrivedAt / 1000 * 1000 + retentionMinMs ≤ s.clock →
      Environment s { s with cgesEvents := before ++ after, expired := old :: s.expired }

def route : Program (Store PubKey) (Pc Body PubKey) where
  start := fun _ pc => ∃ req, pc = receive S req
  act := fun _ s pc s' pc' => ∃ a, advance S a s pc = (s', pc')
  env := Environment

end Handler

end CyberGuard.Ingest.Heartbeat
