import CyberGuard.Shared.Checks
import CyberGuard.Shared.Interleaving
import CyberGuard.Soar.Playbooks
import Mathlib.Data.List.Sort
import Mathlib.Data.String.Basic

/-!
# Runs of playbooks

`runPlaybooks` as a thread over `playbook_executions`: it claims a playbook by inserting
its row, takes its steps, and completes the row. Each statement may fail, after its effect
or without it. A statement passes the trigger of the table or fails.

`claims`, `executed` and `mails` only record what happened; no code reads them.
-/

namespace CyberGuard.Soar
set_option autoImplicit false
open Checks Interleaving StoreCalls CyberGuard.Ingest

inductive ExecutionStatus where
  | running
  | completed
  | failed
  deriving DecidableEq, Repr

structure Execution where
  executionId : String
  orgId : String
  incidentId : String
  agentId : String
  playbookId : String
  playbookVersion : Int
  status : ExecutionStatus
  startedAt : Int
  finishedAt : Option Int
  steps : List StepRecord
  chainHead : Option String
  deriving DecidableEq, Repr

inductive Statement where
  | insert (new : Execution)
  | update (old new : Execution)
  | delete (old : Execution)
  | truncate

def Execution.identity (row : Execution) :
    String × String × String × String × String × Int × Int :=
  (row.executionId, row.orgId, row.incidentId, row.agentId, row.playbookId, row.playbookVersion,
    row.startedAt)

/-- `playbook_executions_write_once`. -/
def writeOnce : Statement → Except String Unit
  | .insert new =>
    refuseIf (new.status ≠ .running || new.steps ≠ [] || new.finishedAt.isSome ||
      new.chainHead.isSome) "playbook_executions: a new row must be a running claim"
  | .update old new => do
    refuseIf (old.status ≠ .running) "playbook_executions: a completed row is never changed"
    refuseIf (new.status = .running) "playbook_executions: an update must complete the row"
    refuseIf (new.identity ≠ old.identity)
      "playbook_executions: only status, finished_at, steps and chain_head change"
  | .delete _ | .truncate => .error "playbook_executions: rows are never deleted or truncated"

structure SoarBounds where
  stepMs : Int
  runMs : Int
  deriving DecidableEq, Repr

def defaultSoarBounds : SoarBounds := ⟨15000, 30000⟩

structure Call where
  incident : IncidentCreated
  bounds : SoarBounds := defaultSoarBounds
  notify : Option NotifyConfig
  deriving DecidableEq, Repr

/-- A run under way, and the playbooks of its call that come after it. -/
structure Running where
  call : Call
  rest : List Playbook
  playbook : Playbook
  executionId : String
  deriving DecidableEq, Repr

/-- A step that was executed, by the number of its call. -/
structure Executed where
  call : Nat
  executionId : String
  orgId : String
  playbookId : String
  incidentId : String
  deriving DecidableEq, Repr

structure MailAttempt where
  executionId : String
  step : Nat
  mail : Mail
  deriving DecidableEq, Repr

structure Store where
  rows : List Execution
  claims : List (String × Nat) := []
  executed : List Executed := []
  mails : List MailAttempt := []

inductive Pc where
  | select (call : Call) (rest : List Playbook)
  | claim (call : Call) (playbook : Playbook) (rest : List Playbook)
  | claimed (run : Running)
  | step (run : Running) (runDeadline : Int) (steps : List UnlinkedStep) (failed : Bool)
      (todo : List PlaybookStep)
  | executing (run : Running) (runDeadline : Int) (steps : List UnlinkedStep) (step : PlaybookStep)
      (todo : List PlaybookStep) (started : String) (cutByRun : Bool) (begun : Begun)
  | complete (run : Running) (steps : List UnlinkedStep) (failed : Bool)
  /-- `runOne` has thrown. -/
  | threw (call : Call) (rest : List Playbook)
  | returned
  | rejected

/-- What a command takes from outside: the id of a claim, the clock of Postgres, the readings
of the clock at a step, and the end of a send. -/
structure Input where
  id : String := ""
  pgNow : Int := 0
  started : Int := 0
  checked : Int := 0
  finished : Int := 0
  send : SendEnd := .sent

/-- `sort` by id. -/
def sortPlaybooks (playbooks : List Playbook) : List Playbook :=
  playbooks.insertionSort fun a b => a.id ≤ b.id

def claimRow (input : Input) (call : Call) (playbook : Playbook) : Execution where
  executionId := input.id
  orgId := call.incident.orgId
  incidentId := call.incident.incidentId
  agentId := call.incident.agentId
  playbookId := playbook.id
  playbookVersion := playbook.version
  status := .running
  startedAt := input.pgNow
  finishedAt := none
  steps := []
  chainHead := none

def claimTaken (rows : List Execution) (call : Call) (playbook : Playbook) : Bool :=
  rows.any fun row => row.orgId = call.incident.orgId && row.playbookId = playbook.id &&
    row.incidentId = call.incident.incidentId

def Running.context (run : Running) (steps : List UnlinkedStep) : TemplateContext :=
  ⟨run.call.incident, run.playbook.id, run.executionId, steps⟩

/-- What becomes of the next step, where it is executed: `failed` is not set and time is left. -/
def begins (input : Input) (run : Running) (runDeadline : Int) (steps : List UnlinkedStep)
    (failed : Bool) (step : PlaybookStep) : Option Begun :=
  if (toISOString input.started).isNone || failed || decide (runDeadline - input.checked ≤ 0) then
    none
  else some (executeStep step (run.context steps) run.call.notify)

def runTimedOut (bounds : SoarBounds) : String :=
  "run timed out after " ++ toString bounds.runMs ++ " ms"

def stepTimedOut (bounds : SoarBounds) : String :=
  "timed out after " ++ toString bounds.stepMs ++ " ms"

/-- `record`, which throws where the clock is out of the range of `Date`. -/
def record (input : Input) (run : Running) (runDeadline : Int) (steps : List UnlinkedStep)
    (step : PlaybookStep) (todo : List PlaybookStep) (started : String) (result : StepResult)
    (failed : Bool) : Pc :=
  match toISOString input.finished with
  | none => .threw run.call run.rest
  | some finished =>
    .step run runDeadline
      (steps ++ [⟨step.id, step.action, step.mode, result.outcome, cut result.detail, started,
        finished⟩]) failed todo

def completeRow (D : Digests) (input : Input) (steps : List UnlinkedStep) (failed : Bool)
    (row : Execution) : Execution :=
  let chained := chainSteps D steps
  { row with
    status := if failed then .failed else .completed
    finishedAt := some input.pgNow
    steps := chained.1
    chainHead := some chained.2 }

def Store.insertClaim (s : Store) (i : Nat) (row : Execution) : Store :=
  { s with rows := s.rows ++ [row], claims := s.claims ++ [(row.executionId, i)] }

def Store.noteBegun (s : Store) (i : Nat) (run : Running) (steps : List UnlinkedStep)
    (begun : Begun) : Store :=
  { s with
    executed := s.executed ++ [⟨i, run.executionId, run.call.incident.orgId, run.playbook.id,
      run.call.incident.incidentId⟩]
    mails := s.mails ++ (begun.mail.map fun mail =>
      ⟨run.executionId, steps.length, mail⟩).toList }

def Store.completeRun (D : Digests) (s : Store) (input : Input) (run : Running)
    (steps : List UnlinkedStep) (failed : Bool) : Store :=
  { s with
    rows := s.rows.map fun row =>
      if row.executionId = run.executionId then completeRow D input steps failed row else row }

section Calls
variable (D : Digests)

def resume (input : Input) (s : Store) : Pc → Pc
  | .select _ [] => .returned
  | .select call (playbook :: rest) =>
    if playbookMatches playbook call.incident then .claim call playbook rest
    else .select call rest
  | .claim call playbook rest =>
    if claimTaken s.rows call playbook then .select call rest
    else .claimed ⟨call, rest, playbook, input.id⟩
  | .claimed run =>
    .step run (input.started + run.call.bounds.runMs) [] false run.playbook.steps
  | .step run _ steps failed [] => .complete run steps failed
  | .step run runDeadline steps failed (step :: todo) =>
    match toISOString input.started with
    | none => .threw run.call run.rest
    | some started =>
      if failed then
        record input run runDeadline steps step todo started ⟨.skipped, "an earlier step failed"⟩
          true
      else if runDeadline - input.checked ≤ 0 then
        record input run runDeadline steps step todo started
          ⟨.failed, runTimedOut run.call.bounds⟩ true
      else
        .executing run runDeadline steps step todo started
          (decide (runDeadline - input.checked < run.call.bounds.stepMs))
          (executeStep step (run.context steps) run.call.notify)
  | .executing run runDeadline steps step todo started cutByRun begun =>
    match begun.result input.send with
    | none =>
      record input run runDeadline steps step todo started
        ⟨.failed, if cutByRun then runTimedOut run.call.bounds else stepTimedOut run.call.bounds⟩
        true
    | some result =>
      record input run runDeadline steps step todo started result (result.outcome = .failed)
  | .complete run _ _ => .select run.call run.rest
  | .threw call rest => .select call rest
  | .returned => .returned
  | .rejected => .rejected

def effect (i : Nat) (input : Input) (s : Store) : Pc → Store
  | .claim call playbook _ =>
    if claimTaken s.rows call playbook then s
    else s.insertClaim i (claimRow input call playbook)
  | .step run runDeadline steps failed (step :: _) =>
    match begins input run runDeadline steps failed step with
    | none => s
    | some begun => s.noteBegun i run steps begun
  | .complete run steps failed => s.completeRun D input run steps failed
  | _ => s

/-- What Postgres answers: an id that is in the table makes the insert fail, and so does the
trigger. -/
def admissible (input : Input) (s : Store) : Pc → Prop
  | .claim call playbook _ =>
    (∀ row ∈ s.rows, row.executionId ≠ input.id) ∧
      writeOnce (.insert (claimRow input call playbook)) = .ok ()
  | .complete run steps failed =>
    ∀ row ∈ s.rows, row.executionId = run.executionId →
      writeOnce (.update row (completeRow D input steps failed row)) = .ok ()
  | .returned | .rejected => False
  | _ => True

/-- A failed statement is logged, and the call goes on with the next playbook. -/
def afterFailure : Pc → Option Pc
  | .claim call _ rest => some (.select call rest)
  | .complete run _ _ => some (.select run.call run.rest)
  | _ => none

def calls : Calls Store Pc Input where
  effect := effect D
  next := resume
  failed := fun _ pc => afterFailure pc
  lost := fun _ pc => afterFailure pc
  admissible := admissible D

def soar (playbooks : List Playbook) : Program Store Pc where
  start := fun _ pc => ∃ call, pc = .select call (sortPlaybooks playbooks)
  act := Called (calls D)
  env := fun _ _ => False

end Calls

end CyberGuard.Soar
