import Mathlib.Algebra.Ring.Nat
import CyberGuard.Agent.Delivery

/-!
# Every captured event is accounted for

An event the ring accepted is evicted from it, or leaves it in a batch; the events of
a batch are delivered, dropped after repeated rejections, or still on their way. The
invariant keeps these two splits apart, since the ring's counter adds up drops of
both kinds.
-/

namespace CyberGuard.Agent
set_option autoImplicit false
open CyberGuard.Wire EvictingQueue List

/-- The POST in flight: the loop's, or the one of the final attempt until it is delivered. -/
def State.onTheWay (a : State) : Option Batch :=
  match a.pc with
  | .finalAttempt batch _ _ | .finalSending batch _ _ => some batch
  | .countLeft batch delivered _ | .finished batch delivered _ =>
    if delivered then none else some batch
  | _ => a.inFlight.map (·.batch)

def eventCount (batches : List Batch) : Nat := (batches.map (·.events.length)).sum

theorem eventCount_nil : eventCount [] = 0 := rfl

theorem eventCount_singleton (batch : Batch) : eventCount [batch] = batch.events.length :=
  Nat.add_zero _

theorem eventCount_append (batches more : List Batch) :
    eventCount (batches ++ more) = eventCount batches + eventCount more := by
  simp [eventCount]

def State.inFlightCount (a : State) : Nat := eventCount a.onTheWay.toList

def Pc.forming : Pc → Bool
  | .batchDue _ | .oldest _ | .form | .idle _ => true
  | _ => false

structure Conserved (c : Config) (a : State) : Prop where
  capacity : 0 < a.ring.capacity
  account : ∃ taken, Account a.ledger.accepted taken a.ledger.overflowed a.ring.contents ∧
    a.ledger.formed.flatMap (·.events) = taken.map c.render
  dropped : a.ring.droppedTotal = a.ledger.overflowed.length + eventCount a.ledger.rejected
  settled : eventCount a.ledger.formed =
    eventCount a.ledger.delivered + eventCount a.ledger.rejected + a.inFlightCount
  numbered : a.ledger.formed.map (·.sequence) = List.range' 1 a.ledger.formed.length
  sequence : a.sequence = a.ledger.formed.length
  sized : ∀ batch ∈ a.ledger.formed, batch.events.length ≤ maxBatchEvents
  current : ∀ batch, a.onTheWay = some batch → a.ledger.formed.getLast? = some batch
  vacant : a.pc.forming = true → a.inFlight = none
  sent : ∀ attempt ∈ a.ledger.attempts, ∃ batch ∈ a.ledger.formed, batch.sequence = attempt.1 ∧
    attempt.2.sequenceNumber = batch.sequence ∧ attempt.2.events = batch.events

namespace Conserved
variable {c : Config} {a : State}

theorem initial {capacity : Nat} (h : 0 < capacity) : Conserved c (State.initial capacity) where
  capacity := h
  account := ⟨[], Account.empty, rfl⟩
  dropped := rfl
  settled := rfl
  numbered := rfl
  sequence := rfl
  sized := fun batch hbatch => absurd hbatch not_mem_nil
  current := fun batch hbatch => absurd hbatch (by simp [State.onTheWay, State.initial])
  vacant := fun _ => rfl
  sent := fun attempt hattempt => absurd hattempt not_mem_nil

theorem sequence_of_last (h : Conserved c a) {batch : Batch}
    (hlast : a.ledger.formed.getLast? = some batch) :
    batch.sequence = a.ledger.formed.length := by
  have hmap : (a.ledger.formed.map (·.sequence)).getLast? = some batch.sequence := by
    rw [List.getLast?_map, hlast]
    rfl
  rw [h.numbered, List.getLast?_range'] at hmap
  split at hmap
  · simp at hmap
  · simp at hmap
    omega

theorem same {b : State} (h : Conserved c a) (hring : b.ring = a.ring)
    (hledger : b.ledger = a.ledger) (hsequence : b.sequence = a.sequence)
    (hway : b.onTheWay = a.onTheWay) (hvacant : b.pc.forming = true → b.inFlight = none) :
    Conserved c b where
  capacity := by rw [hring]; exact h.capacity
  account := by rw [hring, hledger]; exact h.account
  dropped := by rw [hring, hledger]; exact h.dropped
  settled := by rw [State.inFlightCount, hledger, hway]; exact h.settled
  numbered := by rw [hledger]; exact h.numbered
  sequence := by rw [hsequence, hledger]; exact h.sequence
  sized := by rw [hledger]; exact h.sized
  current := by rw [hway, hledger]; exact h.current
  vacant := hvacant
  sent := by rw [hledger]; exact h.sent

theorem enqueue (h : Conserved c a) (event : RingEvent) : Conserved c (a.enqueue event) := by
  cases hname : event.nameless with
  | true =>
    apply h.same
    · simp [State.enqueue, EventRing.enqueueOrDrop, hname]
    · simp [State.enqueue, hname]
    · rfl
    · rfl
    · exact h.vacant
  | false =>
    have hledger : (a.enqueue event).ledger = { a.ledger with
        accepted := a.ledger.accepted ++ [event]
        overflowed := a.ledger.overflowed ++ evicted a.ring.capacity a.ring.contents } := by
      simp [State.enqueue, hname]
    have hring : (a.enqueue event).ring = a.ring.enqueueOrDrop a.clock event := rfl
    refine
      { capacity := ?_, account := ?_, dropped := ?_, settled := ?_, numbered := ?_,
        sequence := ?_, sized := ?_, current := ?_, vacant := h.vacant, sent := ?_ }
    · rw [hring, EventRing.capacity_enqueueOrDrop]
      exact h.capacity
    · obtain ⟨taken, haccount, hformed⟩ := h.account
      refine ⟨taken, ?_, ?_⟩
      · rw [hledger, hring, EventRing.contents_enqueueOrDrop a.clock hname]
        exact haccount.push a.ring.capacity event
      · rw [hledger]
        exact hformed
    · rw [hring, hledger, EventRing.droppedTotal_enqueueOrDrop a.clock hname h.capacity, h.dropped,
        length_append]
      dsimp only
      omega
    all_goals rw [hledger]
    · exact h.settled
    · exact h.numbered
    · exact h.sequence
    · exact h.sized
    · exact h.current
    · exact h.sent

/-- A batch is formed when none is on its way; it is the one on its way then. -/
theorem formBatch {b : State} (h : Conserved c a) (hfree : a.onTheWay = none)
    (hring : b.ring = (a.formBatch c).2.ring) (hledger : b.ledger = (a.formBatch c).2.ledger)
    (hsequence : b.sequence = (a.formBatch c).2.sequence)
    (hway : b.onTheWay = some (a.formBatch c).1)
    (hvacant : b.pc.forming = true → b.inFlight = none) : Conserved c b := by
  have hformed : b.ledger.formed = a.ledger.formed ++ [(a.formBatch c).1] := by
    rw [hledger]
    rfl
  have hevents : (a.formBatch c).1.events = (a.ring.contents.take maxBatchEvents).map c.render := by
    rw [← EventRing.drainUpTo_fst]
    rfl
  have hnumber : (a.formBatch c).1.sequence = a.ledger.formed.length + 1 := by
    rw [← h.sequence]
    rfl
  refine
    { capacity := ?_, account := ?_, dropped := ?_, settled := ?_, numbered := ?_,
      sequence := ?_, sized := ?_, current := ?_, vacant := hvacant, sent := ?_ }
  · rw [hring]
    exact h.capacity
  · obtain ⟨taken, haccount, hrendered⟩ := h.account
    refine ⟨taken ++ a.ring.contents.take maxBatchEvents, ?_, ?_⟩
    · have hcontents := a.ring.contents_drainUpTo maxBatchEvents
      rw [hledger, hring]
      exact hcontents ▸ haccount.take maxBatchEvents
    · rw [hformed, flatMap_append, map_append, hrendered, flatMap_singleton, hevents]
  · rw [hring, hledger]
    exact h.dropped
  · have hold := h.settled
    rw [State.inFlightCount, hfree] at hold
    rw [hformed, State.inFlightCount, hway, eventCount_append, hledger]
    exact congrArg (· + _) hold
  · rw [hformed, map_append, h.numbered, length_append, length_singleton,
      range'_concat]
    simp [hnumber, Nat.add_comm]
  · rw [hsequence, hformed, length_append, length_singleton, ← h.sequence]
    rfl
  · intro batch hbatch
    rw [hformed] at hbatch
    rcases mem_append.mp hbatch with hold | hnew
    · exact h.sized batch hold
    · rw [mem_singleton.mp hnew, hevents, length_map, length_take]
      exact Nat.min_le_left _ _
  · intro batch hbatch
    rw [hway] at hbatch
    rw [hformed, List.getLast?_concat, Option.some.inj hbatch]
  · intro attempt hattempt
    rw [hledger] at hattempt
    obtain ⟨batch, hbatch, hrest⟩ := h.sent attempt hattempt
    refine ⟨batch, ?_, hrest⟩
    rw [hformed]
    exact mem_append_left _ hbatch

theorem noteAttempt {batch : Batch} {inner : HeartbeatEnvelope} {pc : Pc} (h : Conserved c a)
    (hbatch : a.onTheWay = some batch) (hnumber : inner.sequenceNumber = batch.sequence)
    (hevents : inner.events = batch.events) (hway : (a.noteAttempt inner pc).onTheWay = a.onTheWay)
    (hvacant : pc.forming = false) : Conserved c (a.noteAttempt inner pc) where
  capacity := h.capacity
  account := h.account
  dropped := h.dropped
  settled := by rw [State.inFlightCount, hway]; exact h.settled
  numbered := h.numbered
  sequence := h.sequence
  sized := h.sized
  current := by rw [hway]; exact h.current
  vacant := fun hforming => absurd (hvacant.symm.trans hforming) (by simp)
  sent := by
    intro attempt hattempt
    rcases mem_append.mp hattempt with hold | hnew
    · exact h.sent attempt hold
    · have hlast := h.current batch hbatch
      rw [mem_singleton.mp hnew]
      refine ⟨batch, mem_of_getLast? hlast, ?_, hnumber, hevents⟩
      exact h.sequence_of_last hlast

/-- The POST on its way is over: its events are delivered, or dropped, or it had none. -/
theorem leaves {b : State} {batch : Batch} (h : Conserved c a) (delivered rejected : List Batch)
    (hbatch : a.onTheWay = some batch)
    (hfate : batch.events.length = eventCount delivered + eventCount rejected)
    (hring : b.ring = a.ring.addDropped (eventCount rejected))
    (hledger : b.ledger = { a.ledger with
      delivered := a.ledger.delivered ++ delivered
      rejected := a.ledger.rejected ++ rejected })
    (hsequence : b.sequence = a.sequence) (hway : b.onTheWay = none)
    (hvacant : b.pc.forming = false) : Conserved c b where
  capacity := by rw [hring]; exact h.capacity
  account := by rw [hring, hledger]; exact h.account
  dropped := by
    have hold := h.dropped
    rw [hring, hledger, eventCount_append]
    simp only [EventRing.addDropped]
    omega
  settled := by
    have hold := h.settled
    rw [State.inFlightCount, hbatch, Option.toList_some, eventCount_singleton] at hold
    rw [State.inFlightCount, hway, hledger, eventCount_append, eventCount_append,
      Option.toList_none, eventCount_nil]
    dsimp only
    omega
  numbered := by rw [hledger]; exact h.numbered
  sequence := by rw [hsequence, hledger]; exact h.sequence
  sized := by rw [hledger]; exact h.sized
  current := by rw [hway]; exact fun batch hnone => absurd hnone (by simp)
  vacant := fun hforming => absurd (hvacant.symm.trans hforming) (by simp)
  sent := by rw [hledger]; exact h.sent

theorem backOff {pending : Pending} (h : Conserved c a) (hbatch : a.onTheWay = some pending.batch) :
    Conserved c (a.backOff c pending) :=
  h.same rfl rfl rfl hbatch.symm fun hforming => absurd hforming (by simp [State.backOff, Pc.forming])

theorem settle {pending : Pending} (h : Conserved c a) (hpc : a.pc = .sending)
    (hpending : a.inFlight = some pending) (result : Except AgentError Attempt) :
    Conserved c (a.settle c pending result) := by
  have hbatch : a.onTheWay = some pending.batch := by
    simp [State.onTheWay, hpc, hpending]
  cases result with
  | error error =>
    refine h.same rfl rfl rfl ?_ ?_
    · rw [hbatch]
      simp [State.settle, State.onTheWay, hpending]
    · exact fun hforming => absurd hforming (by simp [State.settle, Pc.forming])
  | ok attempt =>
    cases attempt with
    | delivered =>
      refine h.leaves [pending.batch] [] hbatch ?_ rfl ?_ rfl rfl rfl
      · rw [eventCount_singleton, eventCount_nil, Nat.add_zero]
      · simp [State.settle]
    | transient error =>
      simp only [State.settle]
      split
      · rename_i hgive
        rw [Bool.and_eq_true, List.isEmpty_iff] at hgive
        refine h.leaves [] [] hbatch ?_ rfl ?_ rfl rfl rfl
        · rw [hgive.1]
          rfl
        · simp
      · exact h.backOff hbatch
    | rejected status =>
      simp only [State.settle]
      split
      · refine h.leaves [] [pending.batch] hbatch ?_ ?_ ?_ rfl rfl rfl
        · rw [eventCount_singleton, eventCount_nil, Nat.zero_add]
        · rw [eventCount_singleton]
        · simp
      · exact h.backOff hbatch

theorem finish (h : Conserved c a) (hpc : a.pc = .stopped) (deadline : Option Nat) :
    Conserved c (a.finish c deadline) := by
  cases hpending : a.inFlight with
  | some pending =>
    have hbatch : a.onTheWay = some pending.batch := by
      simp [State.onTheWay, hpc, hpending]
    have hfinish : a.finish c deadline = { a with
        inFlight := none
        pc := .finalAttempt pending.batch deadline
          (deadline.any fun deadline => deadline - a.clock < c.requestTimeout) } := by
      simp [State.finish, hpending]
    rw [hfinish]
    exact h.same rfl rfl rfl hbatch.symm fun _ => rfl
  | none =>
    have hfree : a.onTheWay = none := by
      simp [State.onTheWay, hpc, hpending]
    have hfinish : a.finish c deadline = { (a.formBatch c).2 with
        inFlight := none
        pc := .finalAttempt (a.formBatch c).1 deadline
          (deadline.any fun deadline => deadline - a.clock < c.requestTimeout) } := by
      simp only [State.finish, hpending]
      rfl
    rw [hfinish]
    exact h.formBatch hfree rfl rfl rfl rfl fun _ => rfl

theorem settleFinal {batch : Batch} {deadline : Option Nat} {bounded : Bool} (h : Conserved c a)
    (hbatch : a.onTheWay = some batch) (result : Except AgentError Attempt) :
    Conserved c (a.settleFinal batch deadline bounded result) := by
  cases hdelivered : isDelivered result with
  | true =>
    refine h.leaves [batch] [] hbatch ?_ rfl ?_ rfl ?_ rfl
    · rw [eventCount_singleton, eventCount_nil, Nat.add_zero]
    · simp [State.settleFinal, hdelivered]
    · simp [State.settleFinal, State.onTheWay, hdelivered]
  | false =>
    refine h.same rfl ?_ rfl ?_ ?_
    · simp [State.settleFinal, hdelivered]
    · rw [hbatch]
      simp [State.settleFinal, State.onTheWay, hdelivered]
    · exact fun hforming => absurd hforming (by simp [State.settleFinal, Pc.forming])

theorem moves {pc : Pc} (h : Conserved c a)
    (hway : ({ a with pc := pc } : State).onTheWay = a.onTheWay)
    (hvacant : pc.forming = true → a.inFlight = none) : Conserved c { a with pc := pc } :=
  h.same rfl rfl rfl hway hvacant

theorem decideBatch {now : Nat} (h : Conserved c a) (hpc : a.pc = .batchDue now ∨ a.pc = .oldest now)
    (due : Bool) : Conserved c (a.decideBatch c due) := by
  have hfree : a.inFlight = none := by
    apply h.vacant
    rcases hpc with hpc | hpc <;> rw [hpc] <;> rfl
  have hway : a.onTheWay = none := by
    rcases hpc with hpc | hpc <;> simp [State.onTheWay, hpc, hfree]
  unfold State.decideBatch
  split
  · refine h.same rfl rfl rfl ?_ fun _ => hfree
    rw [hway]
    simp [State.onTheWay, hfree]
  · refine h.same rfl rfl rfl ?_ fun _ => hfree
    rw [hway]
    simp [State.onTheWay, hfree]

theorem step {b : State} {l : Label} (h : Conserved c a) (hstep : Step c l a b) :
    Conserved c b := by
  cases hstep with
  | enqueue event => exact h.enqueue event
  | tick _ => exact h.same rfl rfl rfl rfl h.vacant
  | top hpc =>
    have hway : a.onTheWay = a.inFlight.map (·.batch) := by simp [State.onTheWay, hpc]
    refine h.same rfl rfl rfl ?_ ?_
    · rw [hway]
      cases hpending : a.inFlight <;> simp [State.atTop, State.onTheWay, hpending]
    · cases hpending : a.inFlight <;> simp [State.atTop, Pc.forming, hpending]
  | readLen hpc =>
    unfold State.readLen
    split
    · exact h.decideBatch (Or.inl hpc) true
    · have hfree : a.inFlight = none := h.vacant (by rw [hpc]; rfl)
      exact h.moves (by simp [State.onTheWay, hpc]) fun _ => hfree
  | readOldest hpc => exact h.decideBatch (Or.inr hpc) _
  | form hpc =>
    have hfree : a.inFlight = none := h.vacant (by rw [hpc]; rfl)
    refine h.formBatch ?_ rfl rfl rfl rfl ?_
    · simp [State.onTheWay, hpc, hfree]
    · exact fun hforming => absurd hforming (by simp [State.formPending, Pc.forming])
  | wake hpc _ =>
    apply h.moves
    · rcases hpc with hpc | hpc <;> simp [State.onTheWay, hpc]
    · exact fun hforming => absurd hforming (by simp [Pc.forming])
  | send sentAt nonce hpc hpending =>
    refine h.noteAttempt ?_ rfl rfl ?_ rfl
    · simp [State.onTheWay, hpc, hpending]
    · simp [State.noteAttempt, State.onTheWay, hpc]
  | signingFailed message hpc =>
    apply h.moves
    · simp [State.onTheWay, hpc]
    · exact fun hforming => absurd hforming (by simp [Pc.forming])
  | ended result hpc hpending => exact h.settle hpc hpending _
  | shutdown hpc =>
    apply h.moves
    · rcases hpc with ⟨wake, hpc | hpc⟩ | hpc <;> simp [State.onTheWay, hpc]
    · exact fun hforming => absurd hforming (by simp [Pc.forming])
  | giveUp hpc =>
    apply h.moves
    · simp [State.onTheWay, hpc]
    · exact fun hforming => absurd hforming (by simp [Pc.forming])
  | finish deadline hpc => exact h.finish hpc deadline
  | sendFinal sentAt nonce hpc =>
    refine h.noteAttempt ?_ rfl rfl ?_ rfl
    · simp [State.onTheWay, hpc]
    · simp [State.noteAttempt, State.onTheWay, hpc]
  | signingFailedFinal message hpc => exact h.settleFinal (by simp [State.onTheWay, hpc]) _
  | endedFinal result hpc => exact h.settleFinal (by simp [State.onTheWay, hpc]) _
  | report hpc =>
    refine h.same rfl rfl rfl ?_ ?_
    · simp [State.report, State.onTheWay, hpc]
    · exact fun hforming => absurd hforming (by simp [State.report, Pc.forming])

theorem run {b : State} (h : Conserved c a) (hrun : Reaches c a b) : Conserved c b := by
  induction hrun with
  | refl => exact h
  | tail _ hstep ih => exact ih.step hstep

theorem total (h : Conserved c a) : a.ledger.accepted.length =
    eventCount a.ledger.delivered + a.ring.droppedTotal + a.ring.len + a.inFlightCount := by
  obtain ⟨taken, haccount, hrendered⟩ := h.account
  have hlength := haccount.length_eq
  have htaken : eventCount a.ledger.formed = taken.length := by
    rw [← length_map c.render, ← hrendered, length_flatMap]
    rfl
  have hsettled := h.settled
  have hdropped := h.dropped
  rw [EventRing.length_contents] at hlength
  omega

end Conserved

def State.reported (a : State) : Option Nat :=
  match a.pc with
  | .finished _ _ result => some result.undelivered
  | .gaveUp undelivered => some undelivered
  | _ => none

theorem reported_decideBatch (c : Config) (a : State) (due : Bool) :
    (a.decideBatch c due).reported = none := by
  unfold State.decideBatch
  split <;> rfl

theorem reported_readLen (c : Config) (a : State) (now : Nat) :
    (a.readLen c now).reported = none := by
  unfold State.readLen
  split
  · exact reported_decideBatch c a true
  · rfl

theorem reported_settle (c : Config) (a : State) (pending : Pending)
    (result : Except AgentError Attempt) : (a.settle c pending result).reported = none := by
  cases result with
  | error error => rfl
  | ok attempt =>
    cases attempt with
    | delivered => rfl
    | transient | rejected =>
      simp only [State.settle]
      split <;> rfl

/-- The count is taken when the stop ends: the ring's events, and those of the POST in flight. -/
theorem reported_step {c : Config} {a b : State} {l : Label} {n : Nat} (hstep : Step c l a b)
    (hbefore : a.reported = none) (hafter : b.reported = some n) :
    n = b.ring.len + b.inFlightCount := by
  cases hstep with
  | report _ =>
    rename_i batch delivered expired _
    obtain rfl := Option.some.inj hafter
    cases delivered <;> simp [State.report, State.inFlightCount, State.onTheWay, eventCount]
  | giveUp _ =>
    obtain rfl := Option.some.inj hafter
    cases hpending : a.inFlight <;>
      simp [State.undelivered, State.inFlightCount, State.onTheWay, eventCount, hpending]
  | enqueue | tick => exact absurd (hbefore.symm.trans hafter) (by simp)
  | top _ => cases hpending : a.inFlight <;> simp [State.reported, State.atTop, hpending] at hafter
  | readLen _ => simp [reported_readLen] at hafter
  | readOldest _ => simp [State.readOldest, reported_decideBatch] at hafter
  | ended result _ _ => simp [reported_settle] at hafter
  | finish deadline _ =>
    cases hpending : a.inFlight <;> simp [State.reported, State.finish, hpending] at hafter
  | _ => simp [State.reported, State.formPending, State.noteAttempt, State.settleFinal] at hafter

/-- For every run of the loop against any producer: the accepted events are the delivered, the
dropped, the buffered and those in flight; the count reported at the end is of the rest; batches
are bounded and keep the order of the events, of which only the evicted are missing; POSTs are
numbered from 1 on, and every attempt at one carries its number and its events. -/
theorem captured_events_conserved {c : Config} {capacity : Nat} (hcapacity : 0 < capacity)
    {a : State} (hrun : Reaches c (State.initial capacity) a) :
    a.ledger.accepted.length =
      eventCount a.ledger.delivered + a.ring.droppedTotal + a.ring.len + a.inFlightCount ∧
    (∀ l b n, Step c l a b → a.reported = none → b.reported = some n →
      b.ledger.accepted.length = eventCount b.ledger.delivered + b.ring.droppedTotal + n) ∧
    (∀ batch ∈ a.ledger.formed, batch.events.length ≤ 1024) ∧
    (∃ taken, Account a.ledger.accepted taken a.ledger.overflowed a.ring.contents ∧
      (taken ++ a.ring.contents).Sublist a.ledger.accepted ∧
      a.ledger.formed.flatMap (·.events) = taken.map c.render) ∧
    a.ledger.formed.map (·.sequence) = List.range' 1 a.ledger.formed.length ∧
    ∀ attempt ∈ a.ledger.attempts, ∃ batch ∈ a.ledger.formed, batch.sequence = attempt.1 ∧
      attempt.2.sequenceNumber = batch.sequence ∧ attempt.2.events = batch.events := by
  have h : Conserved c a := (Conserved.initial hcapacity).run hrun
  refine ⟨h.total, ?_, h.sized, ?_, h.numbered, h.sent⟩
  · intro l b n hstep hbefore hafter
    have htotal := (h.step hstep).total
    have hn := reported_step hstep hbefore hafter
    omega
  · obtain ⟨taken, haccount, hrendered⟩ := h.account
    exact ⟨taken, haccount, haccount.sublist, hrendered⟩

def sampleConfig : Config where
  agentBlock := ⟨"01970f6e-7c00-7000-8000-000000000000", "1.0.0", "windows", "host"⟩
  agentId := "01970f6e-7c00-7000-8000-000000000000"
  heartbeat := ⟨30, 10, 3, 1000, fun ms => 2 * ms, 60000⟩
  startTime := 0
  translate := id
  sign := fun _ => "signature"

def sampleConnection : RingEvent :=
  .network ⟨"01970f6e-7c00-7000-8000-000000000002", 4, .outbound, ⟨"10.0.0.1", 50000⟩,
    ⟨"10.0.0.2", 443⟩, 1000, none⟩

/-- One event is captured, sent with the first heartbeat and delivered. -/
theorem sample_delivery : ∃ a, Reaches sampleConfig (State.initial 2) a ∧
    a.ledger.accepted = [sampleConnection] ∧ eventCount a.ledger.delivered = 1 ∧
    a.ledger.accepted.length =
      eventCount a.ledger.delivered + a.ring.droppedTotal + a.ring.len + a.inFlightCount := by
  have henqueue := Reaches.refl.tail
    (Step.enqueue (c := sampleConfig) (a := .initial 2) sampleConnection)
  have htop := henqueue.tail (.top rfl)
  have hlen := htop.tail (.readLen rfl)
  have hold := hlen.tail (.readOldest rfl)
  have hform := hold.tail (.form rfl)
  have hsend := hform.tail (.send "1970-01-01T00:00:00.000Z" "nonce" rfl rfl)
  have hended := hsend.tail (.ended (.status 200) rfl rfl)
  exact ⟨_, hended, rfl, rfl, (captured_events_conserved (by decide) hended).1⟩

end CyberGuard.Agent
