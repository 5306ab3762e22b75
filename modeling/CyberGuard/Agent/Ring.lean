import CyberGuard.Shared.EvictingQueue
import CyberGuard.Agent.Emit

/-!
# The event ring

The bounded buffer between the capture and the delivery loop. Every function here
runs under the ring's lock, or is one atomic access of its counter. Instants are
nanoseconds of the monotonic clock.
-/

namespace CyberGuard.Agent
set_option autoImplicit false
open EvictingQueue

structure EventRing where
  capacity : Nat
  events : List (Nat × RingEvent)
  droppedTotal : Nat

/-- A process event whose name would be empty is logged and not enqueued. -/
def RingEvent.nameless : RingEvent → Bool
  | .process event => event.imageFileName.isEmpty
  | _ => false

namespace EventRing

def new (capacity : Nat) : EventRing := ⟨capacity, [], 0⟩

def contents (ring : EventRing) : List RingEvent := ring.events.map Prod.snd

def len (ring : EventRing) : Nat := ring.events.length

def enqueueOrDrop (ring : EventRing) (now : Nat) (event : RingEvent) : EventRing :=
  if event.nameless then ring
  else if ring.capacity ≤ ring.events.length then
    { ring with
      events := ring.events.drop 1 ++ [(now, event)]
      droppedTotal := ring.droppedTotal + 1 }
  else { ring with events := ring.events ++ [(now, event)] }

def addDropped (ring : EventRing) (n : Nat) : EventRing :=
  { ring with droppedTotal := ring.droppedTotal + n }

def drainUpTo (ring : EventRing) (max : Nat) : List RingEvent × EventRing :=
  ((ring.events.take max).map Prod.snd, { ring with events := ring.events.drop max })

def oldestEnqueuedAt (ring : EventRing) : Option Nat := ring.events.head?.map Prod.fst

theorem length_contents (ring : EventRing) : ring.contents.length = ring.len := by
  simp [contents, len]

theorem contents_enqueueOrDrop {ring : EventRing} {event : RingEvent} (now : Nat)
    (h : event.nameless = false) :
    (ring.enqueueOrDrop now event).contents = push ring.capacity ring.contents event := by
  unfold enqueueOrDrop push
  simp only [h, Bool.false_eq_true, if_false, length_contents, len]
  split <;> simp [contents]

theorem droppedTotal_enqueueOrDrop {ring : EventRing} {event : RingEvent} (now : Nat)
    (h : event.nameless = false) (hcapacity : 0 < ring.capacity) :
    (ring.enqueueOrDrop now event).droppedTotal =
      ring.droppedTotal + (evicted ring.capacity ring.contents).length := by
  rw [length_evicted hcapacity, length_contents, len]
  unfold enqueueOrDrop
  simp only [h, Bool.false_eq_true, if_false]
  split <;> rfl

theorem capacity_enqueueOrDrop (ring : EventRing) (now : Nat) (event : RingEvent) :
    (ring.enqueueOrDrop now event).capacity = ring.capacity := by
  unfold enqueueOrDrop
  repeat' split
  all_goals rfl

theorem drainUpTo_fst (ring : EventRing) (max : Nat) :
    (ring.drainUpTo max).1 = ring.contents.take max := by
  simp [drainUpTo, contents]

theorem contents_drainUpTo (ring : EventRing) (max : Nat) :
    (ring.drainUpTo max).2.contents = ring.contents.drop max := by
  simp [drainUpTo, contents]

end EventRing

structure OverflowWarning where
  reportedTotal : Nat
  lastWarn : Option Nat
  deriving DecidableEq, Repr

namespace OverflowWarning

def new : OverflowWarning := ⟨0, none⟩

def warnInterval : Nat := 60 * 1000000000

def check (warning : OverflowWarning) (ring : EventRing) (now : Nat) : OverflowWarning × Bool :=
  if ring.droppedTotal ≤ warning.reportedTotal then (warning, false)
  else if warning.lastWarn.any fun last => now - last < warnInterval then (warning, false)
  else (⟨ring.droppedTotal, some now⟩, true)

end OverflowWarning

end CyberGuard.Agent
