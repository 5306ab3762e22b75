import CyberGuard.Shared.Interleaving
import CyberGuard.Detect.Cycle

/-!
# The detection driver

`startDetectionDriver` as threads over its variables: a thread for each callback of a
timeout, which runs one pass, and one for each call of `stop`. A thread's command runs up
to the next `await` or promise reaction, so everything else may happen between two of them:
timeouts fire, promises settle, `stop` is called. Any armed timeout may fire at any time;
that there is only one, and none while a pass runs, is shown and not assumed.
-/

namespace CyberGuard.Detect.Driving
set_option autoImplicit false
open Interleaving

/-- The variables of the driver, with what the runtime keeps for them: the armed timeouts, the
handles given out, and the passes whose `inFlight` promise is settled. `inFlight` is the thread of
its pass, or nothing before the first. -/
structure Driver where
  stopped : Bool
  timer : Option Nat
  inFlight : Option Nat
  timeouts : List Nat
  handles : Nat
  settled : List Nat

def scheduleNext (s : Driver) : Driver :=
  if s.stopped then s
  else { s with timer := some s.handles, timeouts := s.handles :: s.timeouts, handles := s.handles + 1 }

def startDetectionDriver : Driver := scheduleNext ⟨false, none, none, [], 0, []⟩

/-- The part of `stop` before its `await`. -/
def Driver.stop (s : Driver) : Driver :=
  { s with stopped := true, timeouts := s.timeouts.filter fun handle => s.timer ≠ some handle }

/-- `runTick` with the timeout that fired. -/
def Driver.runTick (s : Driver) (handle thread : Nat) : Driver :=
  { s with timeouts := s.timeouts.erase handle, inFlight := some thread }

/-- Where a thread is: a pass from its timeout on, or a call of `stop`. `cycling` awaits the
`i`-th `runCycle` of an org in this pass. -/
inductive Pc where
  | tick
  | listing
  | nextOrg (orgs : List String)
  | cycling (org : String) (i : Nat) (orgs : List String)
  | cycled (org : String) (i : Nat) (orgs : List String) (eventsEvaluated : Nat)
  | failing
  | ended
  | caught
  | scheduled
  | settled
  | stop
  | awaiting (inFlight : Option Nat)
  | resolved

inductive Event where
  | fired (pass : Nat)
  | listed (pass : Nat) (orgs : List String)
  | listFailed (pass : Nat)
  | called (pass : Nat) (org : String) (i : Nat)
  | returned (pass : Nat) (org : String) (i eventsEvaluated : Nat)
  | rejected (pass : Nat)
  | ended (pass : Nat)
  | stop
  | resolved
  deriving DecidableEq, Repr

/-- The commands of a thread, with the event each shows. -/
inductive DriverStep (cap thread : Nat) : Driver → Pc → Option Event → Driver → Pc → Prop where
  | fire {s : Driver} {handle : Nat} : handle ∈ s.timeouts →
      DriverStep cap thread s .tick (some (.fired thread)) (s.runTick handle thread) .listing
  | listed {s : Driver} (orgs : List String) :
      DriverStep cap thread s .listing (some (.listed thread orgs)) s (.nextOrg orgs)
  | listFailed {s : Driver} :
      DriverStep cap thread s .listing (some (.listFailed thread)) s .failing
  | visited {s : Driver} : DriverStep cap thread s (.nextOrg []) (some (.ended thread)) s .ended
  | leave {s : Driver} {org : String} {orgs : List String} : s.stopped = true →
      DriverStep cap thread s (.nextOrg (org :: orgs)) (some (.ended thread)) s .ended
  | call {s : Driver} {org : String} {orgs : List String} : s.stopped = false → 0 < cap →
      DriverStep cap thread s (.nextOrg (org :: orgs)) (some (.called thread org 0)) s
        (.cycling org 0 orgs)
  | skip {s : Driver} {org : String} {orgs : List String} : s.stopped = false → cap = 0 →
      DriverStep cap thread s (.nextOrg (org :: orgs)) none s (.nextOrg orgs)
  | returned {s : Driver} {org : String} {i : Nat} {orgs : List String} (eventsEvaluated : Nat) :
      DriverStep cap thread s (.cycling org i orgs)
        (some (.returned thread org i eventsEvaluated)) s (.cycled org i orgs eventsEvaluated)
  | rejected {s : Driver} {org : String} {i : Nat} {orgs : List String} :
      DriverStep cap thread s (.cycling org i orgs) (some (.rejected thread)) s .failing
  | drained {s : Driver} {org : String} {i eventsEvaluated : Nat} {orgs : List String} :
      eventsEvaluated < batchLimit →
      DriverStep cap thread s (.cycled org i orgs eventsEvaluated) none s (.nextOrg orgs)
  | capped {s : Driver} {org : String} {i eventsEvaluated : Nat} {orgs : List String} :
      batchLimit ≤ eventsEvaluated → cap ≤ i + 1 →
      DriverStep cap thread s (.cycled org i orgs eventsEvaluated) none s (.nextOrg orgs)
  | again {s : Driver} {org : String} {i eventsEvaluated : Nat} {orgs : List String} :
      batchLimit ≤ eventsEvaluated → i + 1 < cap → s.stopped = false →
      DriverStep cap thread s (.cycled org i orgs eventsEvaluated)
        (some (.called thread org (i + 1))) s (.cycling org (i + 1) orgs)
  | leaveOrg {s : Driver} {org : String} {i eventsEvaluated : Nat} {orgs : List String} :
      batchLimit ≤ eventsEvaluated → i + 1 < cap → s.stopped = true →
      DriverStep cap thread s (.cycled org i orgs eventsEvaluated) (some (.ended thread)) s .ended
  | failed {s : Driver} : DriverStep cap thread s .failing (some (.ended thread)) s .ended
  | caught {s : Driver} : DriverStep cap thread s .ended none s .caught
  | scheduled {s : Driver} : DriverStep cap thread s .caught none (scheduleNext s) .scheduled
  | settled {s : Driver} :
      DriverStep cap thread s .scheduled none { s with settled := thread :: s.settled } .settled
  | stop {s : Driver} : DriverStep cap thread s .stop (some .stop) s.stop (.awaiting s.inFlight)
  | resolved {s : Driver} {inFlight : Option Nat} : (∀ pass ∈ inFlight, pass ∈ s.settled) →
      DriverStep cap thread s (.awaiting inFlight) (some .resolved) s .resolved

def driving (cap : Nat) : Program (Driver × List Event) Pc where
  start := fun _ pc => pc = .tick ∨ pc = .stop
  act := fun thread s pc s' pc' =>
    ∃ shown, DriverStep cap thread s.1 pc shown s'.1 pc' ∧ s'.2 = shown.toList ++ s.2
  env := fun _ _ => False

abbrev Run (cap : Nat) : Pool (Driver × List Event) Pc → Prop :=
  Interleaving.Run (driving cap) ⟨(startDetectionDriver, []), []⟩

namespace Event

def pass? : Event → Option Nat
  | .fired pass | .listed pass _ | .listFailed pass | .called pass _ _ | .returned pass _ _ _
  | .rejected pass | .ended pass => some pass
  | .stop | .resolved => none

def isCall : Event → Bool
  | .called .. => true
  | _ => false

/-- A `runCycle` is over. -/
def isReturn : Event → Bool
  | .returned .. | .rejected _ => true
  | _ => false

def isError : Event → Bool
  | .listFailed _ | .rejected _ => true
  | _ => false

def call? : Event → Option (String × Nat)
  | .called _ org i => some (org, i)
  | _ => none

def listed? : Event → Option (List String)
  | .listed _ orgs => some orgs
  | _ => none

end Event

def own (pass : Nat) (events : List Event) : List Event :=
  events.filter fun e => e.pass? == some pass

/-- The `runCycle` calls of one pass in order. -/
def calls (log : List Event) : List (String × Nat) := (log.filterMap Event.call?).reverse

def lists (log : List Event) : List (List String) := log.filterMap Event.listed?

/-- The calls of a pass that has visited as many orgs as there are counts, in order. -/
def visits (orgs : List String) (counts : List Nat) : List (String × Nat) :=
  (orgs.zip counts).flatMap fun visit => (List.range visit.2).map fun i => (visit.1, i)

structure Visits (cap : Nat) (orgs : List String) (counts : List Nat) (log : List Event) : Prop where
  listed : lists log = [orgs]
  calls : calls log = visits orgs counts
  within : counts.length ≤ orgs.length
  bounded : ∀ n ∈ counts, 1 ≤ n ∧ n ≤ cap

def StoppedBefore (pass : Nat) (events : List Event) : Prop :=
  ∃ earlier, .ended pass :: earlier <:+ events ∧ .stop ∈ earlier

namespace Pc

/-- A pass from its timeout until it schedules the next. -/
def active : Pc → Bool
  | .listing | .nextOrg _ | .cycling .. | .cycled .. | .failing | .ended | .caught => true
  | _ => false

/-- A `runCycle` is in progress. -/
def isCycling : Pc → Bool
  | .cycling .. => true
  | _ => false

end Pc

end CyberGuard.Detect.Driving
