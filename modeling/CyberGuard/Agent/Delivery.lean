import CyberGuard.Agent.Ring

/-!
# The delivery loop

`run_until` and `finish`, cut where the loop awaits and where it takes the ring's
lock, so that events may be enqueued and the clock may move at every such point. The
locals of `run_until` are fields here. `Ledger` keeps what no code reads: what was
enqueued, evicted, formed, sent and settled so far.
-/

namespace CyberGuard.Agent
set_option autoImplicit false
open CyberGuard.Wire

def maxBatchEvents : Nat := 1024

def millis (n : Nat) : Nat := n * 1000000

def maxBatchLatency : Nat := millis 5000

def pollInterval : Nat := millis 100

/-- `scaleBackoff` is the product with `backoff_factor`, cut to an integer. -/
structure HeartbeatConfig where
  intervalSeconds : Nat
  requestTimeoutSeconds : Nat
  maxRetries : Nat
  backoffInitialMs : Nat
  scaleBackoff : Nat → Nat
  backoffMaxMs : Nat

def nextBackoff (currentMs : Nat) (heartbeat : HeartbeatConfig) : Nat :=
  min (heartbeat.scaleBackoff currentMs) heartbeat.backoffMaxMs

/-- What the loop is built with; `sign` makes the signature of a sealed envelope. -/
structure Config where
  agentBlock : AgentBlock
  agentId : String
  heartbeat : HeartbeatConfig
  startTime : Nat
  translate : String → String
  sign : OuterEnvelope → String

def Config.interval (c : Config) : Nat := c.heartbeat.intervalSeconds * 1000000000

def Config.requestTimeout (c : Config) : Nat := c.heartbeat.requestTimeoutSeconds * 1000000000

def Config.tickAt (c : Config) (tick : Nat) : Nat := c.startTime + c.interval * tick

def Config.render (c : Config) : RingEvent → CgesEvent := Agent.render c.agentId c.translate

structure Batch where
  sequence : Nat
  events : List CgesEvent
  deriving DecidableEq, Repr

structure Pending where
  batch : Batch
  transientFailures : Nat
  rejections : Nat
  backoffMs : Nat
  deriving DecidableEq, Repr

structure Finished where
  undelivered : Nat
  expired : Bool
  deriving DecidableEq, Repr

inductive SendResult where
  | status (code : Nat)
  | serverCertFatal (message : String)
  | clientCertFatal (message : String)
  | transient (message : String)
  deriving DecidableEq, Repr

inductive Attempt where
  | delivered
  | transient (error : String)
  | rejected (status : Nat)
  deriving DecidableEq, Repr

inductive AgentError where
  | serverCertUntrusted (message : String)
  | clientCertRejected (message : String)
  | signing (message : String)
  deriving DecidableEq, Repr

/-- The classes of `attempt_within`. -/
def SendResult.attempt : SendResult → Except AgentError Attempt
  | .status s =>
    if 200 ≤ s ∧ s < 300 then .ok .delivered
    else if 500 ≤ s ∧ s < 600 then .ok (.transient ("server status " ++ toString s))
    else .ok (.rejected s)
  | .transient m => .ok (.transient m)
  | .serverCertFatal m => .error (.serverCertUntrusted m)
  | .clientCertFatal m => .error (.clientCertRejected m)

/-- `matches!(result, Ok(Attempt::Delivered))`. -/
def isDelivered : Except AgentError Attempt → Bool
  | .ok .delivered => true
  | _ => false

def envelopeVersion : String := "0.1.0"

def buildEnvelope (agent : AgentBlock) (sequenceNumber uptimeSeconds : Nat) (sentAt : String)
    (status : HeartbeatStatus) : HeartbeatEnvelope where
  envelopeVersion := envelopeVersion
  agent := agent
  sequenceNumber := sequenceNumber
  sentAt := sentAt
  status := status
  uptimeSeconds := uptimeSeconds
  events := []

def outerEnvelopeVersion : String := "0.1.0"

def sealEnvelope (sign : OuterEnvelope → String) (body : HeartbeatEnvelope)
    (agentId nonce sentAt : String) : OuterEnvelope :=
  let envelope : OuterEnvelope :=
    { outerEnvelopeVersion := outerEnvelopeVersion
      agentId := agentId
      sequenceNumber := body.sequenceNumber
      nonce := nonce
      sentAt := sentAt
      body := body
      signature := "" }
  { envelope with signature := sign envelope }

/-- Where the loop is. `oldest` and `form` follow `batchDue`, the two locked reads of the ring
and the drain; the pcs from `finish` on are those of the final POST. -/
inductive Pc where
  | top
  | batchDue (now : Nat)
  | oldest (now : Nat)
  | form
  | idle (wake : Nat)
  | attempt
  | sending
  | backoff (wake : Nat)
  | failed (error : AgentError)
  | stopped
  | gaveUp (undelivered : Nat)
  | finalAttempt (batch : Batch) (deadline : Option Nat) (bounded : Bool)
  | finalSending (batch : Batch) (deadline : Option Nat) (bounded : Bool)
  | countLeft (batch : Batch) (delivered expired : Bool)
  | finished (batch : Batch) (delivered : Bool) (result : Finished)

/-- `attempts` numbers the POST an attempt is for by the POSTs formed until then. -/
structure Ledger where
  accepted : List RingEvent
  overflowed : List RingEvent
  formed : List Batch
  attempts : List (Nat × HeartbeatEnvelope)
  delivered : List Batch
  rejected : List Batch

def Ledger.empty : Ledger := ⟨[], [], [], [], [], []⟩

structure State where
  clock : Nat
  ring : EventRing
  overflow : OverflowWarning
  sequence : Nat
  nextTick : Nat
  heartbeatDue : Bool
  batchPostSinceTick : Bool
  inFlight : Option Pending
  pc : Pc
  ledger : Ledger

/-- Missed ticks collapse: the first tick after `now`. -/
def skipTicks (c : Config) (now tick : Nat) : Nat :=
  if _h : 0 < c.interval ∧ c.tickAt tick ≤ now then skipTicks c now (tick + 1) else tick
termination_by now + 1 - c.tickAt tick
decreasing_by
  have hnext : c.tickAt (tick + 1) = c.tickAt tick + c.interval := by
    simp only [Config.tickAt, Nat.mul_add, Nat.mul_one]
    omega
  omega

namespace State

def initial (capacity : Nat) : State where
  clock := 0
  ring := .new capacity
  overflow := .new
  sequence := 0
  nextTick := 0
  heartbeatDue := false
  batchPostSinceTick := false
  inFlight := none
  pc := .top
  ledger := .empty

def enqueue (a : State) (event : RingEvent) : State :=
  { a with
    ring := a.ring.enqueueOrDrop a.clock event
    ledger :=
      if event.nameless then a.ledger
      else { a.ledger with
        accepted := a.ledger.accepted ++ [event]
        overflowed :=
          a.ledger.overflowed ++ EvictingQueue.evicted a.ring.capacity a.ring.contents } }

/-- The head of the loop: the tick, the overflow warning, and on to the batch or the attempt. -/
def atTop (c : Config) (a : State) : State :=
  let due := c.tickAt a.nextTick ≤ a.clock
  { a with
    heartbeatDue := if due && !a.batchPostSinceTick then true else a.heartbeatDue
    batchPostSinceTick := if due then false else a.batchPostSinceTick
    nextTick := if due then skipTicks c a.clock a.nextTick else a.nextTick
    overflow := (a.overflow.check a.ring a.clock).1
    pc := if a.inFlight.isNone then .batchDue a.clock else .attempt }

/-- With no POST in flight and no reason for one, the loop sleeps. -/
def decideBatch (c : Config) (a : State) (batchDue : Bool) : State :=
  if a.heartbeatDue || batchDue then
    { a with
      batchPostSinceTick := if a.heartbeatDue then a.batchPostSinceTick else true
      heartbeatDue := false
      pc := .form }
  else { a with pc := .idle (min (c.tickAt a.nextTick) (a.clock + pollInterval)) }

def readLen (c : Config) (a : State) (now : Nat) : State :=
  if maxBatchEvents ≤ a.ring.len then a.decideBatch c true else { a with pc := .oldest now }

def readOldest (c : Config) (a : State) (now : Nat) : State :=
  a.decideBatch c (a.ring.oldestEnqueuedAt.any fun enqueuedAt => maxBatchLatency ≤ now - enqueuedAt)

def formBatch (c : Config) (a : State) : Batch × State :=
  let (captured, ring) := a.ring.drainUpTo maxBatchEvents
  let batch : Batch := ⟨a.sequence + 1, captured.map c.render⟩
  (batch, { a with
    ring := ring
    sequence := a.sequence + 1
    ledger := { a.ledger with formed := a.ledger.formed ++ [batch] } })

def formPending (c : Config) (a : State) : State :=
  let (batch, a) := a.formBatch c
  { a with inFlight := some ⟨batch, 0, 0, c.heartbeat.backoffInitialMs⟩, pc := .attempt }

/-- The envelope of one attempt: the batch's number and events, its own time and nonce. -/
def envelope (c : Config) (a : State) (batch : Batch) (status : HeartbeatStatus)
    (sentAt nonce : String) : OuterEnvelope :=
  let inner := buildEnvelope c.agentBlock batch.sequence ((a.clock - c.startTime) / 1000000000)
    sentAt status
  sealEnvelope c.sign { inner with events := batch.events } c.agentId nonce sentAt

def noteAttempt (a : State) (inner : HeartbeatEnvelope) (pc : Pc) : State :=
  { a with
    pc := pc
    ledger := { a.ledger with
      attempts := a.ledger.attempts ++ [(a.ledger.formed.length, inner)] } }

def backOff (c : Config) (a : State) (pending : Pending) : State :=
  { a with
    inFlight := some { pending with backoffMs := nextBackoff pending.backoffMs c.heartbeat }
    pc := .backoff (a.clock + millis pending.backoffMs) }

/-- What the loop does with the result of an attempt at its POST. -/
def settle (c : Config) (a : State) (pending : Pending) : Except AgentError Attempt → State
  | .error error => { a with pc := .failed error }
  | .ok .delivered =>
    { a with
      inFlight := none
      pc := .top
      ledger := { a.ledger with delivered := a.ledger.delivered ++ [pending.batch] } }
  | .ok (.transient _) =>
    let pending := { pending with transientFailures := pending.transientFailures + 1 }
    if pending.batch.events.isEmpty && c.heartbeat.maxRetries ≤ pending.transientFailures then
      { a with inFlight := none, pc := .top }
    else a.backOff c pending
  | .ok (.rejected _) =>
    let pending := { pending with rejections := pending.rejections + 1 }
    if c.heartbeat.maxRetries ≤ pending.rejections then
      { a with
        ring := a.ring.addDropped pending.batch.events.length
        inFlight := none
        pc := .top
        ledger := { a.ledger with rejected := a.ledger.rejected ++ [pending.batch] } }
    else a.backOff c pending

def undelivered (a : State) : Nat :=
  a.ring.len + (a.inFlight.map fun pending => pending.batch.events.length).getD 0

/-- The start of `finish`: the batch in flight, or else the next one. -/
def finish (c : Config) (a : State) (deadline : Option Nat) : State :=
  let (batch, a) :=
    match a.inFlight with
    | some pending => (pending.batch, a)
    | none => a.formBatch c
  let bounded := deadline.any fun deadline => deadline - a.clock < c.requestTimeout
  { a with inFlight := none, pc := .finalAttempt batch deadline bounded }

def settleFinal (a : State) (batch : Batch) (deadline : Option Nat) (bounded : Bool)
    (result : Except AgentError Attempt) : State :=
  let delivered := isDelivered result
  let expired := !delivered && bounded && deadline.any fun deadline => deadline ≤ a.clock
  { a with
    pc := .countLeft batch delivered expired
    ledger :=
      if delivered then { a.ledger with delivered := a.ledger.delivered ++ [batch] }
      else a.ledger }

def report (a : State) (batch : Batch) (delivered expired : Bool) : State :=
  { a with
    pc := .finished batch delivered
      ⟨a.ring.len + (if delivered then 0 else batch.events.length), expired⟩ }

end State

/-- What a step shows outside: the bytes an attempt sends, and the result it ends with. -/
inductive Label where
  | silent
  | sent (envelope : OuterEnvelope)
  | ended (result : SendResult)

inductive Step (c : Config) : Label → State → State → Prop where
  | enqueue {a : State} (event : RingEvent) : Step c .silent a (a.enqueue event)
  | tick {a : State} {now : Nat} : a.clock ≤ now → Step c .silent a { a with clock := now }
  | top {a : State} : a.pc = .top → Step c .silent a (a.atTop c)
  | readLen {a : State} {now : Nat} : a.pc = .batchDue now → Step c .silent a (a.readLen c now)
  | readOldest {a : State} {now : Nat} : a.pc = .oldest now →
      Step c .silent a (a.readOldest c now)
  | form {a : State} : a.pc = .form → Step c .silent a (a.formPending c)
  | wake {a : State} {wake : Nat} : a.pc = .idle wake ∨ a.pc = .backoff wake → wake ≤ a.clock →
      Step c .silent a { a with pc := .top }
  | send {a : State} {pending : Pending} (sentAt nonce : String) : a.pc = .attempt →
      a.inFlight = some pending →
      Step c (.sent (a.envelope c pending.batch .online sentAt nonce)) a
        (a.noteAttempt (a.envelope c pending.batch .online sentAt nonce).body .sending)
  | signingFailed {a : State} (message : String) : a.pc = .attempt →
      Step c .silent a { a with pc := .failed (.signing message) }
  | ended {a : State} {pending : Pending} (result : SendResult) : a.pc = .sending →
      a.inFlight = some pending → Step c (.ended result) a (a.settle c pending result.attempt)
  | shutdown {a : State} : (∃ wake, a.pc = .idle wake ∨ a.pc = .backoff wake) ∨ a.pc = .sending →
      Step c .silent a { a with pc := .stopped }
  | giveUp {a : State} : a.pc = .stopped → Step c .silent a { a with pc := .gaveUp a.undelivered }
  | finish {a : State} (deadline : Option Nat) : a.pc = .stopped →
      Step c .silent a (a.finish c deadline)
  | sendFinal {a : State} {batch : Batch} {deadline : Option Nat} {bounded : Bool}
      (sentAt nonce : String) : a.pc = .finalAttempt batch deadline bounded →
      Step c (.sent (a.envelope c batch .goingOffline sentAt nonce)) a
        (a.noteAttempt (a.envelope c batch .goingOffline sentAt nonce).body
          (.finalSending batch deadline bounded))
  | signingFailedFinal {a : State} {batch : Batch} {deadline : Option Nat} {bounded : Bool}
      (message : String) : a.pc = .finalAttempt batch deadline bounded →
      Step c .silent a (a.settleFinal batch deadline bounded (.error (.signing message)))
  | endedFinal {a : State} {batch : Batch} {deadline : Option Nat} {bounded : Bool}
      (result : SendResult) : a.pc = .finalSending batch deadline bounded →
      Step c (.ended result) a (a.settleFinal batch deadline bounded result.attempt)
  | report {a : State} {batch : Batch} {delivered expired : Bool} :
      a.pc = .countLeft batch delivered expired →
      Step c .silent a (a.report batch delivered expired)

inductive Reaches (c : Config) (a : State) : State → Prop where
  | refl : Reaches c a a
  | tail {b b' : State} {l : Label} : Reaches c a b → Step c l b b' → Reaches c a b'

end CyberGuard.Agent
