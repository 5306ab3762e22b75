import CyberGuard.Forensic.Export

/-!
# Playbooks and their steps

What a playbook holds, when it matches an incident, how its templates are rendered, and
what `executeStep` does with one step: it settles at once, or it sends a mail and settles
as the mail does.
-/

namespace CyberGuard.Soar
set_option autoImplicit false
open CyberGuard.Forensic (Bytes utf8 toHex)

inductive SoarAction where
  | isolate
  | email
  deriving DecidableEq, Repr

def SoarAction.text : SoarAction → String
  | .isolate => "agent.isolate"
  | .email => "notify.email"

inductive StepMode where
  | live
  | dryRun
  deriving DecidableEq, Repr

def StepMode.text : StepMode → String
  | .live => "live"
  | .dryRun => "dry_run"

inductive StepOutcome where
  | done
  | wouldDo
  | skipped
  | failed
  deriving DecidableEq, Repr

def StepOutcome.text : StepOutcome → String
  | .done => "done"
  | .wouldDo => "would_do"
  | .skipped => "skipped"
  | .failed => "failed"

structure StepParams where
  subject : String
  body : String
  deriving DecidableEq, Repr

structure PlaybookStep where
  id : String
  action : SoarAction
  mode : StepMode
  params : Option StepParams
  deriving DecidableEq, Repr

structure Playbook where
  id : String
  version : Int
  trustSources : List String
  severityIdGte : Nat
  steps : List PlaybookStep
  deriving DecidableEq, Repr

structure IncidentCreated where
  incidentId : String
  orgId : String
  agentId : String
  title : String
  severityId : Nat
  detectionSource : String
  deriving DecidableEq, Repr

def playbookMatches (playbook : Playbook) (incident : IncidentCreated) : Bool :=
  playbook.trustSources.contains "rule" && incident.detectionSource == "rule" &&
    decide (playbook.severityIdGte ≤ incident.severityId)

structure UnlinkedStep where
  stepId : String
  action : SoarAction
  mode : StepMode
  outcome : StepOutcome
  detail : String
  startedAt : String
  finishedAt : String
  deriving DecidableEq, Repr

structure StepRecord extends UnlinkedStep where
  link : String
  deriving DecidableEq, Repr

structure Digests where
  sha256 : Bytes → Bytes
  canonicalize : UnlinkedStep → String

def linkSteps (D : Digests) : Bytes → List UnlinkedStep → List StepRecord × Bytes
  | link, [] => ([], link)
  | link, step :: rest =>
    let next := HashChain.link D.sha256 link (utf8 (D.canonicalize step))
    let linked := linkSteps D next rest
    (⟨step, toHex next⟩ :: linked.1, linked.2)

def chainSteps (D : Digests) (steps : List UnlinkedStep) : List StepRecord × String :=
  let linked := linkSteps D (D.sha256 []) steps
  (linked.1, toHex linked.2)

theorem linkSteps_steps (D : Digests) (link : Bytes) (steps : List UnlinkedStep) :
    (linkSteps D link steps).1.map StepRecord.toUnlinkedStep = steps := by
  induction steps generalizing link with
  | nil => rfl
  | cons step rest ih => exact congrArg (step :: ·) (ih _)

theorem chainSteps_steps (D : Digests) (steps : List UnlinkedStep) :
    (chainSteps D steps).1.map StepRecord.toUnlinkedStep = steps :=
  linkSteps_steps D _ steps

structure TemplateContext where
  incident : IncidentCreated
  playbookId : String
  executionId : String
  /-- The steps that ran before the one being rendered. -/
  stepsSoFar : List UnlinkedStep
  deriving DecidableEq, Repr

def stepLines (steps : List UnlinkedStep) : String :=
  "\n".intercalate (steps.map fun s =>
    s.stepId ++ " " ++ s.action.text ++ " " ++ s.mode.text ++ ": " ++ s.outcome.text ++ " — " ++
      s.detail)

/-- What stands for a placeholder; nothing for any other name. -/
def TemplateContext.value (ctx : TemplateContext) (name : String) : String :=
  if name = "incident.id" then ctx.incident.incidentId
  else if name = "incident.title" then ctx.incident.title
  else if name = "incident.severity_id" then toString ctx.incident.severityId
  else if name = "incident.agent_id" then ctx.incident.agentId
  else if name = "incident.org_id" then ctx.incident.orgId
  else if name = "playbook.id" then ctx.playbookId
  else if name = "execution.id" then ctx.executionId
  else if name = "steps" then stepLines ctx.stepsSoFar
  else ""

/-- A placeholder at the start of a text: its name, and what follows it. -/
def placeholder : List Char → Option (String × List Char)
  | '\x7b' :: '\x7b' :: rest =>
    let name := rest.takeWhile fun c => c != '\x7b' && c != '\x7d'
    match rest.drop name.length with
    | '\x7d' :: '\x7d' :: after => some (String.ofList name, after)
    | _ => none
  | _ => none

/-- The placeholders replaced from the left; each round takes a character or more. -/
def substitute (value : String → String) : Nat → List Char → List Char
  | 0, rest => rest
  | _ + 1, [] => []
  | rounds + 1, c :: rest =>
    match placeholder (c :: rest) with
    | some (name, after) => (value name).toList ++ substitute value rounds after
    | none => c :: substitute value rounds rest

def renderTemplate (template : String) (ctx : TemplateContext) : String :=
  String.ofList (substitute ctx.value template.length template.toList)

def spaceBreaks : List Char → List Char
  | '\r' :: '\n' :: rest => ' ' :: spaceBreaks rest
  | c :: rest =>
    (if ['\n', '\x0b', '\x0c', '\r', '\u0085', '\u2028', '\u2029'].contains c then ' ' else c) ::
      spaceBreaks rest
  | [] => []

def renderSubject (template : String) (ctx : TemplateContext) : String :=
  String.ofList (spaceBreaks (renderTemplate template ctx).toList)

structure NotifyConfig where
  sender : String
  recipient : String
  deriving DecidableEq, Repr

structure Mail where
  sender : String
  recipient : String
  subject : String
  text : String
  deriving DecidableEq, Repr

structure StepResult where
  outcome : StepOutcome
  detail : String
  deriving DecidableEq, Repr

/-- How a send ends; a failed one with its `sendFailureCode`. -/
inductive SendEnd where
  | sent
  | failed (code : String)
  /-- The limit ran out, the mailer's or the one the step is raced against. -/
  | timedOut
  deriving DecidableEq, Repr

/-- What `executeStep` has come to when it is first waited for. -/
inductive Begun where
  | settled (result : StepResult)
  | sending (mail : Mail)
  deriving DecidableEq, Repr

def executeStep (step : PlaybookStep) (ctx : TemplateContext) (notify : Option NotifyConfig) :
    Begun :=
  match step.action with
  | .isolate => .settled ⟨.wouldDo, "would isolate agent " ++ ctx.incident.agentId ++
      "; no command channel to the agent exists (ADR-0021 §Context 6)"⟩
  | .email =>
    match step.params with
    | none => .settled ⟨.failed, "notify.email has no params"⟩
    | some params =>
      let subject := renderSubject params.subject ctx
      match step.mode, notify with
      | .dryRun, _ => .settled ⟨.wouldDo, "would send: " ++ subject⟩
      | .live, none => .settled ⟨.skipped, "notification is not configured"⟩
      | .live, some config =>
        .sending ⟨config.sender, config.recipient, subject, renderTemplate params.body ctx⟩

def Begun.result (send : SendEnd) : Begun → Option StepResult
  | .settled result => some result
  | .sending _ =>
    match send with
    | .sent => some ⟨.done, "sent"⟩
    | .failed code => some ⟨.failed, "send failed: " ++ code⟩
    | .timedOut => none

def Begun.mail : Begun → Option Mail
  | .settled _ => none
  | .sending mail => some mail

def detailMaxCodePoints : Nat := 500

def cut (text : String) : String := String.ofList (text.toList.take detailMaxCodePoints)

end CyberGuard.Soar
