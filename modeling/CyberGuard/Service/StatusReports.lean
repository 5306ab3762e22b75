import CyberGuard.Shared.Interleaving

/-!
# The service's status reports

`Status` of the Windows service as threads that share its mutex, its flag and the handle to
the service control manager: the main function, the status thread, the calls of `progress`
and `running` that the run makes, and any number of stop requests. A command takes the lock,
or reads or writes the flag, or does what is left of a critical section; the flag may be
set at any time, also while another thread holds the lock.
-/

namespace CyberGuard.Service.StatusReports
set_option autoImplicit false
open Interleaving List

inductive ServiceState where
  | startPending
  | running
  | stopPending
  | stopped
  deriving DecidableEq, Repr

/-- `SERVICE_STATUS` but for its type, which never changes. -/
structure ServiceStatus where
  currentState : ServiceState
  controlsAccepted : Nat
  win32ExitCode : Nat
  serviceSpecificExitCode : Nat
  checkPoint : Nat
  waitHint : Nat
  deriving DecidableEq, Repr

def seconds (n : Nat) : Nat := n * 1000000000

def checkpointInterval : Nat := seconds 5
def waitHintMs : Nat := 15000
def startPendingCap : Nat := seconds 120
def stopPendingCap : Nat := seconds 75

def acceptStop : Nat := 1
def acceptShutdown : Nat := 4
def errorServiceSpecificError : Nat := 1066

/-- The status with its mutex and flag, the clock, and what was reported so far. `started` says that
the main function is past `start_pending`, before which it starts no thread. -/
structure Status where
  status : ServiceStatus
  since : Nat
  ticked : Nat
  stopRequested : Bool
  holder : Option Nat
  clock : Nat
  started : Bool
  reports : List ServiceStatus

namespace Status

def new (clock : Nat) : Status where
  status := ⟨.startPending, 0, 0, 0, 0, 0⟩
  since := clock
  ticked := clock
  stopRequested := false
  holder := none
  clock := clock
  started := false
  reports := []

def lock (s : Status) (thread : Nat) : Status := { s with holder := some thread }

def unlock (s : Status) : Status := { s with holder := none }

def report (s : Status) : Status := { s with reports := s.reports ++ [s.status] }

def enter (s : Status) (state : ServiceState) (accepted : Nat) : Status :=
  let pending := state = .startPending ∨ state = .stopPending
  report { s with
    status := { s.status with
      currentState := state
      controlsAccepted := accepted
      checkPoint := if pending then 1 else 0
      waitHint := if pending then waitHintMs else 0 }
    since := s.clock
    ticked := s.clock }

def startPending (s : Status) : Status := { s.enter .startPending 0 with started := true }

def progress (s : Status) : Status :=
  if s.status.currentState = .startPending then { s with since := s.clock } else s

def running (s : Status) : Status := s.enter .running (acceptStop + acceptShutdown)

def stopped (s : Status) (specific : Option Nat) : Status :=
  enter { s with
    status := { s.status with
      win32ExitCode := if specific.isSome then errorServiceSpecificError else 0
      serviceSpecificExitCode := specific.getD 0 } } .stopped 0

def cap (s : Status) : Option Nat :=
  match s.status.currentState with
  | .startPending => some startPendingCap
  | .stopPending => some stopPendingCap
  | _ => none

def checkpoint (s : Status) : Status :=
  match s.cap with
  | none => s
  | some cap =>
    if checkpointInterval ≤ s.clock - s.ticked ∧ s.clock - s.since < cap then
      report { s with
        status := { s.status with checkPoint := s.status.checkPoint + 1 }
        ticked := s.clock }
    else s

/-- `STOP_PENDING` is due once a stop is requested. -/
def mayStop (s : Status) : Bool :=
  s.status.currentState = .startPending || s.status.currentState = .running

end Status

/-- Where a thread is: the main function, a call of `progress`, of `running` or of `request_stop`, or
the status thread. -/
inductive Pc where
  | main
  | starting
  | serving
  | stopping (specific : Option Nat)
  | closing (specific : Option Nat)
  | done
  | progress
  | progressing
  | progressed
  | running
  | runningHeld
  | runningLoaded (stopRequested : Bool)
  | ran (reported : Bool)
  | request
  | requested
  | tick
  | loop
  | loaded (stopRequested : Bool)
  | waiting
  | woken
  | returned

inductive StatusStep (thread : Nat) : Status → Pc → Status → Pc → Prop where
  | lockStart {s : Status} : s.holder = none →
      StatusStep thread s .main (s.lock thread) .starting
  | startPending {s : Status} : StatusStep thread s .starting s.startPending.unlock .serving
  | serve {s : Status} (specific : Option Nat) :
      StatusStep thread s .serving s (.stopping specific)
  | lockStop {s : Status} {specific : Option Nat} : s.holder = none →
      StatusStep thread s (.stopping specific) (s.lock thread) (.closing specific)
  | stopped {s : Status} {specific : Option Nat} :
      StatusStep thread s (.closing specific) (s.stopped specific).unlock .done
  | lockProgress {s : Status} : s.holder = none →
      StatusStep thread s .progress (s.lock thread) .progressing
  | progress {s : Status} : StatusStep thread s .progressing s.progress.unlock .progressed
  | lockRunning {s : Status} : s.holder = none →
      StatusStep thread s .running (s.lock thread) .runningHeld
  | runningLate {s : Status} : s.status.currentState ≠ .startPending →
      StatusStep thread s .runningHeld s.unlock (.ran false)
  | runningLoad {s : Status} : s.status.currentState = .startPending →
      StatusStep thread s .runningHeld s (.runningLoaded s.stopRequested)
  | runningStopped {s : Status} : StatusStep thread s (.runningLoaded true) s.unlock (.ran false)
  | running {s : Status} :
      StatusStep thread s (.runningLoaded false) s.running.unlock (.ran true)
  | request {s : Status} :
      StatusStep thread s .request { s with stopRequested := true } .requested
  | lockTick {s : Status} : s.holder = none → StatusStep thread s .tick (s.lock thread) .loop
  | tickReturn {s : Status} : s.status.currentState = .stopped →
      StatusStep thread s .loop s.unlock .returned
  | tickLoad {s : Status} : s.status.currentState ≠ .stopped →
      StatusStep thread s .loop s (.loaded s.stopRequested)
  | stopPending {s : Status} : s.mayStop = true →
      StatusStep thread s (.loaded true) (s.enter .stopPending 0) .loop
  | wait {s : Status} {stopRequested : Bool} : (stopRequested && s.mayStop) = false →
      StatusStep thread s (.loaded stopRequested) s.unlock .waiting
  | wake {s : Status} : s.holder = none → StatusStep thread s .waiting (s.lock thread) .woken
  | checkpoint {s : Status} : StatusStep thread s .woken s.checkpoint .loop

/-- The threads of the service, once the main function has reported the start. -/
def serving : Program Status Pc where
  start := fun s pc =>
    pc = .request ∨ (s.started = true ∧ (pc = .progress ∨ pc = .running ∨ pc = .tick))
  act := StatusStep
  env := fun s s' => ∃ now, s.clock ≤ now ∧ s' = { s with clock := now }

def Run (clock : Nat) : Pool Status Pc → Prop :=
  Interleaving.Run serving ⟨.new clock, [.main]⟩

/-- A stay in a pending state: its checkpoints are 1, 2, and so on, and no control is accepted. -/
structure Stay (state : ServiceState) (reports : List ServiceStatus) : Prop where
  state : ∀ r ∈ reports, r.currentState = state ∧ r.controlsAccepted = 0
  checkpoints : reports.map ServiceStatus.checkPoint = List.range' 1 reports.length

/-- The reports in order: a stay in `START_PENDING`, `RUNNING` at most once, a stay in
`STOP_PENDING`, and `STOPPED` at most once. -/
structure Legal (reports starts runs stops ends : List ServiceStatus) : Prop where
  parts : reports = starts ++ runs ++ stops ++ ends
  startPending : Stay .startPending starts
  running : runs.length ≤ 1 ∧
    ∀ r ∈ runs, r.currentState = .running ∧ r.controlsAccepted = acceptStop + acceptShutdown
  stopPending : Stay .stopPending stops
  stopped : ends.length ≤ 1 ∧ ∀ r ∈ ends, r.currentState = .stopped ∧ r.controlsAccepted = 0
  first : reports ≠ [] → starts ≠ []

/-- Where the history stands when `status` was reported last. -/
def Phase (status : ServiceStatus) (starts runs stops ends : List ServiceStatus) : Prop :=
  match status.currentState with
  | .startPending => runs = [] ∧ stops = [] ∧ ends = [] ∧ status.controlsAccepted = 0 ∧
      status.checkPoint = starts.length
  | .running => stops = [] ∧ ends = []
  | .stopPending => ends = [] ∧ status.controlsAccepted = 0 ∧ status.checkPoint = stops.length
  | .stopped => True

theorem Stay.nil (state : ServiceState) : Stay state [] where
  state := fun _ hr => absurd hr not_mem_nil
  checkpoints := rfl

theorem Stay.concat {state : ServiceState} {reports : List ServiceStatus} {r : ServiceStatus}
    (h : Stay state reports) (hr : r.currentState = state ∧ r.controlsAccepted = 0)
    (hcheck : r.checkPoint = reports.length + 1) : Stay state (reports ++ [r]) where
  state := by
    intro r' hmem
    rcases mem_append.mp hmem with hmem | hmem
    · exact h.state r' hmem
    · rw [mem_singleton.mp hmem]
      exact hr
  checkpoints := by
    rw [map_append, h.checkpoints, length_append, length_singleton,
      range'_1_concat, map_singleton, hcheck, Nat.add_comm]

def History (s : Status) : Prop :=
  ∃ starts runs stops ends, Legal s.reports starts runs stops ends ∧
    Phase s.status starts runs stops ends

namespace History
variable {s : Status}

theorem new (clock : Nat) : History (.new clock) :=
  ⟨[], [], [], [], ⟨rfl, .nil _, ⟨Nat.zero_le 1, fun _ hr => absurd hr not_mem_nil⟩, .nil _,
    ⟨Nat.zero_le 1, fun _ hr => absurd hr not_mem_nil⟩, id⟩, rfl, rfl, rfl, rfl, rfl⟩

theorem startPending (h : s.reports = []) : History s.startPending := by
  have hreports : s.startPending.reports = [s.startPending.status] := by
    change s.reports ++ [_] = _
    rw [h]
    rfl
  refine ⟨[s.startPending.status], [], [], [], ⟨hreports, ?_, ?_, .nil _, ?_, ?_⟩,
    rfl, rfl, rfl, rfl, rfl⟩
  · exact (Stay.nil _).concat ⟨rfl, rfl⟩ rfl
  · exact ⟨Nat.zero_le 1, fun _ hr => absurd hr not_mem_nil⟩
  · exact ⟨Nat.zero_le 1, fun _ hr => absurd hr not_mem_nil⟩
  · exact fun _ => cons_ne_nil _ _

theorem running (h : History s) (hstate : s.status.currentState = .startPending)
    (hreports : s.reports ≠ []) : History s.running := by
  obtain ⟨starts, runs, stops, ends, hlegal, hphase⟩ := h
  unfold Phase at hphase
  rw [hstate] at hphase
  obtain ⟨rfl, rfl, rfl, -, -⟩ := hphase
  have hstarts := hlegal.first hreports
  refine ⟨starts, [s.running.status], [], [], ⟨?_, hlegal.startPending, ⟨Nat.le_refl 1, ?_⟩, .nil _, ?_,
    fun _ => hstarts⟩, rfl, rfl⟩
  · change s.reports ++ [_] = _
    rw [hlegal.parts]
    simp only [append_nil]
    rfl
  · intro r hr
    rw [mem_singleton.mp hr]
    exact ⟨rfl, rfl⟩
  · exact ⟨Nat.zero_le 1, fun _ hr => absurd hr not_mem_nil⟩

theorem stopPending (h : History s) (hstate : s.mayStop = true) (hreports : s.reports ≠ []) :
    History (s.enter .stopPending 0) := by
  obtain ⟨starts, runs, stops, ends, hlegal, hphase⟩ := h
  have hempty : stops = [] ∧ ends = [] := by
    unfold Phase at hphase
    rcases Bool.or_eq_true_iff.mp hstate with hstart | hrun
    · rw [of_decide_eq_true hstart] at hphase
      exact ⟨hphase.2.1, hphase.2.2.1⟩
    · rw [of_decide_eq_true hrun] at hphase
      exact hphase
  obtain ⟨rfl, rfl⟩ := hempty
  have hstarts := hlegal.first hreports
  refine ⟨starts, runs, [(s.enter .stopPending 0).status], [], ⟨?_, hlegal.startPending, hlegal.running, ?_,
    ?_, fun _ => hstarts⟩, rfl, rfl, rfl⟩
  · change s.reports ++ [_] = _
    rw [hlegal.parts]
    simp only [append_nil]
    rfl
  · exact (Stay.nil _).concat ⟨rfl, rfl⟩ rfl
  · exact ⟨Nat.zero_le 1, fun _ hr => absurd hr not_mem_nil⟩

theorem stopped (h : History s) (hstate : s.status.currentState ≠ .stopped)
    (hreports : s.reports ≠ []) (specific : Option Nat) : History (s.stopped specific) := by
  obtain ⟨starts, runs, stops, ends, hlegal, hphase⟩ := h
  have hempty : ends = [] := by
    unfold Phase at hphase
    split at hphase
    · exact hphase.2.2.1
    · exact hphase.2
    · exact hphase.1
    · rename_i hstop
      exact absurd hstop hstate
  subst hempty
  have hstarts := hlegal.first hreports
  refine ⟨starts, runs, stops, [(s.stopped specific).status], ⟨?_, hlegal.startPending, hlegal.running,
    hlegal.stopPending, ⟨Nat.le_refl 1, ?_⟩, fun _ => hstarts⟩, trivial⟩
  · change s.reports ++ [_] = _
    rw [hlegal.parts]
    simp only [append_nil]
    rfl
  · intro r hr
    rw [mem_singleton.mp hr]
    exact ⟨rfl, rfl⟩

theorem checkpoint (h : History s) (hreports : s.reports ≠ []) : History s.checkpoint := by
  obtain ⟨starts, runs, stops, ends, hlegal, hphase⟩ := h
  have hstarts := hlegal.first hreports
  unfold Status.checkpoint
  split
  · exact ⟨starts, runs, stops, ends, hlegal, hphase⟩
  rename_i cap hcap
  split
  · unfold Phase at hphase
    cases hstate : s.status.currentState with
    | startPending =>
      rw [hstate] at hphase
      obtain ⟨rfl, rfl, rfl, haccepted, hcheck⟩ := hphase
      refine ⟨starts ++ [{ s.status with checkPoint := s.status.checkPoint + 1 }], [], [], [],
        ⟨?_, ?_, hlegal.running, hlegal.stopPending, hlegal.stopped, ?_⟩, ?_⟩
      · change s.reports ++ [_] = _
        rw [hlegal.parts]
        simp only [append_nil]
      · exact hlegal.startPending.concat ⟨hstate, haccepted⟩ (congrArg (· + 1) hcheck)
      · exact fun _ => append_ne_nil_of_left_ne_nil hstarts _
      · unfold Phase
        dsimp only [Status.report]
        rw [hstate, length_append, hcheck]
        exact ⟨rfl, rfl, rfl, haccepted, rfl⟩
    | stopPending =>
      rw [hstate] at hphase
      obtain ⟨rfl, haccepted, hcheck⟩ := hphase
      refine ⟨starts, runs, stops ++ [{ s.status with checkPoint := s.status.checkPoint + 1 }], [],
        ⟨?_, hlegal.startPending, hlegal.running, ?_, hlegal.stopped, fun _ => hstarts⟩, ?_⟩
      · change s.reports ++ [_] = _
        rw [hlegal.parts]
        simp only [append_nil, append_assoc]
      · exact hlegal.stopPending.concat ⟨hstate, haccepted⟩ (congrArg (· + 1) hcheck)
      · unfold Phase
        dsimp only [Status.report]
        rw [hstate, length_append, hcheck]
        exact ⟨rfl, haccepted, rfl⟩
    | running | stopped =>
      unfold Status.cap at hcap
      rw [hstate] at hcap
      cases hcap
  · exact ⟨starts, runs, stops, ends, hlegal, hphase⟩

end History

namespace Pc

def holds : Pc → Bool
  | .starting | .closing _ | .progressing | .runningHeld | .runningLoaded _ | .loop | .loaded _
  | .woken => true
  | _ => false

def early : Pc → Bool
  | .main | .starting => true
  | _ => false

def late : Pc → Bool
  | .serving | .stopping _ | .closing _ => true
  | _ => false

def child : Pc → Bool
  | .progress | .progressing | .progressed | .running | .runningHeld | .runningLoaded _ | .ran _
  | .tick | .loop | .loaded _ | .waiting | .woken | .returned => true
  | _ => false

end Pc

structure Global (s : Status) : Prop where
  history : History s
  begun : s.started = true → s.reports ≠ []

/-- The main function is the first thread; whoever has the lock finds the state as it read it. -/
structure Local (thread : Nat) (s : Status) (pc : Pc) : Prop where
  lock : pc.holds = true → s.holder = some thread
  main : (pc.early || pc.late) = true → thread = 0
  early : pc.early = true → s.started = false ∧ s.reports = []
  late : pc.late = true → s.started = true ∧ s.status.currentState ≠ .stopped
  child : pc.child = true → s.started = true
  loaded : ∀ stopRequested, pc = .runningLoaded stopRequested →
    s.status.currentState = .startPending

section Steps
variable {thread : Nat} {s s' : Status} {pc pc' : Pc}

theorem checkpoint_spec (s : Status) :
    s.checkpoint.started = s.started ∧ s.checkpoint.holder = s.holder ∧
      s.checkpoint.status.currentState = s.status.currentState ∧
      s.checkpoint.stopRequested = s.stopRequested ∧ s.reports <+: s.checkpoint.reports := by
  unfold Status.checkpoint
  split
  · exact ⟨rfl, rfl, rfl, rfl, prefix_rfl⟩
  · split
    · exact ⟨rfl, rfl, rfl, rfl, prefix_append _ _⟩
    · exact ⟨rfl, rfl, rfl, rfl, prefix_rfl⟩

theorem progress_spec (s : Status) :
    s.progress.started = s.started ∧ s.progress.status = s.status ∧
      s.progress.stopRequested = s.stopRequested ∧ s.progress.reports = s.reports := by
  unfold Status.progress
  split
  · exact ⟨rfl, rfl, rfl, rfl⟩
  · exact ⟨rfl, rfl, rfl, rfl⟩

theorem history_progress (h : History s) : History s.progress.unlock := by
  unfold Status.progress
  split
  · exact h
  · exact h

theorem StatusStep.reports (h : StatusStep thread s pc s' pc') : s.reports <+: s'.reports := by
  cases h with
  | startPending | stopped | running => exact prefix_append _ _
  | progress =>
    have hsame : s.progress.unlock.reports = s.reports := (progress_spec s).2.2.2
    exact hsame ▸ prefix_rfl
  | stopPending _ => exact prefix_append _ _
  | checkpoint => exact (checkpoint_spec s).2.2.2.2
  | _ => exact prefix_rfl

theorem StatusStep.started (h : StatusStep thread s pc s' pc') (hstarted : s.started = true) :
    s'.started = true := by
  cases h with
  | startPending => rfl
  | progress => exact (progress_spec s).1.trans hstarted
  | checkpoint => exact (checkpoint_spec s).1.trans hstarted
  | _ => exact hstarted

theorem StatusStep.unstarted (h : StatusStep thread s pc s' pc') (hstarted : s.started = false)
    (hpc : pc ≠ .starting) : s'.started = false := by
  cases h with
  | startPending => exact absurd rfl hpc
  | progress => exact (progress_spec s).1.trans hstarted
  | checkpoint => exact (checkpoint_spec s).1.trans hstarted
  | _ => exact hstarted

theorem history_step (hG : Global s) (hL : Local thread s pc)
    (h : StatusStep thread s pc s' pc') : History s' := by
  obtain ⟨hhistory, hbegun⟩ := hG
  cases h with
  | startPending => exact History.startPending (hL.early rfl).2
  | @stopped specific =>
    obtain ⟨hstarted, hstate⟩ := hL.late rfl
    exact hhistory.stopped hstate (hbegun hstarted) specific
  | progress => exact history_progress hhistory
  | running => exact hhistory.running (hL.loaded false rfl) (hbegun (hL.child rfl))
  | stopPending hmay => exact hhistory.stopPending hmay (hbegun (hL.child rfl))
  | checkpoint => exact hhistory.checkpoint (hbegun (hL.child rfl))
  | _ => exact hhistory

theorem global_step (hG : Global s) (hL : Local thread s pc)
    (h : StatusStep thread s pc s' pc') : Global s' := by
  refine ⟨history_step hG hL h, fun hstarted => ?_⟩
  cases hbefore : s.started with
  | true => exact List.IsPrefix.ne_nil h.reports (hG.begun hbefore)
  | false =>
    by_cases hpc : pc = .starting
    · subst hpc
      cases h with
      | startPending => exact append_ne_nil_of_right_ne_nil _ (cons_ne_nil _ _)
    · rw [h.unstarted hbefore hpc] at hstarted
      cases hstarted

theorem Local.ofChild (hchild : pc.child = true) (hstarted : s.started = true)
    (hlock : pc.holds = true → s.holder = some thread)
    (hloaded : ∀ stopRequested, pc = .runningLoaded stopRequested →
      s.status.currentState = .startPending) : Local thread s pc := by
  have hmain : pc.early = false ∧ pc.late = false := by
    cases pc with
    | main | starting | serving | stopping | closing | done | request | requested => cases hchild
    | _ => exact ⟨rfl, rfl⟩
  refine ⟨hlock, fun hany => ?_, fun hearly => ?_, fun hlate => ?_, fun _ => hstarted, hloaded⟩
  · rw [hmain.1, hmain.2] at hany
    cases hany
  · rw [hmain.1] at hearly
    cases hearly
  · rw [hmain.2] at hlate
    cases hlate

theorem local_step (hL : Local thread s pc) (h : StatusStep thread s pc s' pc') :
    Local thread s' pc' := by
  have hstarted := h.started
  cases h with
  | lockStart _ =>
    exact ⟨fun _ => rfl, fun _ => hL.main rfl, fun _ => hL.early rfl, Bool.noConfusion,
      Bool.noConfusion, fun _ => Pc.noConfusion⟩
  | startPending =>
    exact ⟨Bool.noConfusion, fun _ => hL.main rfl, Bool.noConfusion,
      fun _ => ⟨rfl, ServiceState.noConfusion⟩, Bool.noConfusion, fun _ => Pc.noConfusion⟩
  | serve specific =>
    exact ⟨Bool.noConfusion, fun _ => hL.main rfl, Bool.noConfusion, fun _ => hL.late rfl,
      Bool.noConfusion, fun _ => Pc.noConfusion⟩
  | lockStop _ =>
    exact ⟨fun _ => rfl, fun _ => hL.main rfl, Bool.noConfusion, fun _ => hL.late rfl,
      Bool.noConfusion, fun _ => Pc.noConfusion⟩
  | stopped | request =>
    exact ⟨Bool.noConfusion, Bool.noConfusion, Bool.noConfusion, Bool.noConfusion,
      Bool.noConfusion, fun _ => Pc.noConfusion⟩
  | runningLoad hstate =>
    exact .ofChild rfl (hL.child rfl) (fun _ => hL.lock rfl) (fun _ _ => hstate)
  | tickLoad _ =>
    exact .ofChild rfl (hL.child rfl) (fun _ => hL.lock rfl) (fun _ => Pc.noConfusion)
  | stopPending _ =>
    exact .ofChild rfl (hL.child rfl) (fun _ => hL.lock rfl) (fun _ => Pc.noConfusion)
  | checkpoint =>
    exact .ofChild rfl (hstarted (hL.child rfl))
      (fun _ => (checkpoint_spec s).2.1.trans (hL.lock rfl)) (fun _ => Pc.noConfusion)
  | lockProgress _ => exact .ofChild rfl (hL.child rfl) (fun _ => rfl) (fun _ => Pc.noConfusion)
  | lockRunning _ => exact .ofChild rfl (hL.child rfl) (fun _ => rfl) (fun _ => Pc.noConfusion)
  | lockTick _ => exact .ofChild rfl (hL.child rfl) (fun _ => rfl) (fun _ => Pc.noConfusion)
  | wake _ => exact .ofChild rfl (hL.child rfl) (fun _ => rfl) (fun _ => Pc.noConfusion)
  | _ => exact .ofChild rfl (hstarted (hL.child rfl)) Bool.noConfusion (fun _ => Pc.noConfusion)

theorem StatusStep.unheld (h : StatusStep thread s pc s' pc') (hpc : pc.holds = false) :
    (s.holder = none ∧ s' = s.lock thread) ∨ s' = s ∨ s' = { s with stopRequested := true } := by
  cases h with
  | lockStart hfree => exact Or.inl ⟨hfree, rfl⟩
  | lockStop hfree => exact Or.inl ⟨hfree, rfl⟩
  | lockProgress hfree => exact Or.inl ⟨hfree, rfl⟩
  | lockRunning hfree => exact Or.inl ⟨hfree, rfl⟩
  | lockTick hfree => exact Or.inl ⟨hfree, rfl⟩
  | wake hfree => exact Or.inl ⟨hfree, rfl⟩
  | serve specific => exact Or.inr (Or.inl rfl)
  | request => exact Or.inr (Or.inr rfl)
  | _ => cases hpc

theorem StatusStep.not_stopped (h : StatusStep thread s pc s' pc') (hpc : pc.late = false)
    (hstate : s.status.currentState ≠ .stopped) : s'.status.currentState ≠ .stopped := by
  cases h with
  | startPending | running | stopPending => exact ServiceState.noConfusion
  | stopped => cases hpc
  | progress =>
    have hsame : s.progress.unlock.status = s.status := (progress_spec s).2.1
    rw [hsame]
    exact hstate
  | checkpoint =>
    rw [(checkpoint_spec s).2.2.1]
    exact hstate
  | _ => exact hstate

theorem local_other {other : Nat} {qc : Pc} (hne : thread ≠ other) (hL : Local thread s pc)
    (hother : Local other s qc) (h : StatusStep thread s pc s' pc') : Local other s' qc := by
  -- With the lock at the other thread this one neither has it nor takes it.
  have hkept (hlock : qc.holds = true) : s'.holder = some other ∧ s'.status = s.status := by
    have hholder := hother.lock hlock
    have hpc : pc.holds = false := by
      by_contra hheld
      have hmine := hL.lock (Bool.not_eq_false _ |>.mp hheld)
      exact hne (Option.some.inj (hmine.symm.trans hholder))
    rcases h.unheld hpc with ⟨hfree, -⟩ | rfl | rfl
    · rw [hholder] at hfree
      cases hfree
    · exact ⟨hholder, rfl⟩
    · exact ⟨hholder, rfl⟩
  have hmain (hfirst : (qc.early || qc.late) = true) : pc.early = false ∧ pc.late = false := by
    apply Bool.or_eq_false_iff.mp
    by_contra hmine
    exact hne ((hL.main (Bool.not_eq_false _ |>.mp hmine)).trans (hother.main hfirst).symm)
  refine ⟨fun hlock => (hkept hlock).1, hother.main, fun hearly => ?_, fun hlate => ?_,
    fun hchild => h.started (hother.child hchild), fun stopRequested hloaded => ?_⟩
  · obtain ⟨hnotEarly, hnotLate⟩ := hmain (by rw [hearly]; rfl)
    have hchild : pc.child = false := by
      by_contra hstarted
      have hbegun := hL.child (Bool.not_eq_false _ |>.mp hstarted)
      rw [(hother.early hearly).1] at hbegun
      cases hbegun
    cases h with
    | request => exact hother.early hearly
    | lockStart | startPending => cases hnotEarly
    | serve | lockStop | stopped => cases hnotLate
    | _ => cases hchild
  · obtain ⟨hstarted, hstate⟩ := hother.late hlate
    obtain ⟨-, hnotLate⟩ := hmain (by rw [hlate, Bool.or_true])
    exact ⟨h.started hstarted, h.not_stopped hnotLate hstate⟩
  · have hlock : qc.holds = true := by rw [hloaded]; rfl
    rw [(hkept hlock).2]
    exact hother.loaded stopRequested hloaded

end Steps

theorem serving_outline : Outline serving (fun _ => Global) Local where
  spawn := by
    intro n s pc hG hstart
    refine ⟨hG, ?_⟩
    rcases hstart with rfl | ⟨hstarted, rfl | rfl | rfl⟩
    · exact ⟨Bool.noConfusion, Bool.noConfusion, Bool.noConfusion, Bool.noConfusion,
        Bool.noConfusion, fun _ => Pc.noConfusion⟩
    · exact .ofChild rfl hstarted Bool.noConfusion (fun _ => Pc.noConfusion)
    · exact .ofChild rfl hstarted Bool.noConfusion (fun _ => Pc.noConfusion)
    · exact .ofChild rfl hstarted Bool.noConfusion (fun _ => Pc.noConfusion)
  self := fun _ hG hL hact => ⟨global_step hG hL hact, local_step hL hact⟩
  other := fun hne _ hL hother hact => local_other hne hL hother hact
  env := by
    rintro n s s' hG ⟨now, -, rfl⟩
    exact ⟨⟨hG.history, hG.begun⟩,
      fun i pc hL => ⟨hL.lock, hL.main, hL.early, hL.late, hL.child, hL.loaded⟩⟩

theorem holds_initial (clock : Nat) :
    Holds (fun _ => Global) Local ⟨Status.new clock, [.main]⟩ where
  store := ⟨History.new clock, Bool.noConfusion⟩
  thread := by
    intro i pc hpc
    obtain ⟨hi, rfl⟩ : i = 0 ∧ pc = .main := by
      cases i with
      | zero => exact ⟨rfl, (Option.some.inj hpc).symm⟩
      | succ i => cases hpc
    subst hi
    exact ⟨Bool.noConfusion, fun _ => rfl, fun _ => ⟨rfl, rfl⟩, Bool.noConfusion,
      Bool.noConfusion, fun _ => Pc.noConfusion⟩

/-- A stop is recorded, no call of `running` has read the flag before, and `RUNNING` was not
reported. -/
structure Barred (p : Pool Status Pc) : Prop where
  requested : p.store.stopRequested = true
  unread : ∀ pc ∈ p.threads, pc ≠ .runningLoaded false
  unreported : ∀ r ∈ p.store.reports, r.currentState ≠ .running

theorem mem_concat_ne_running {reports : List ServiceStatus} {status r : ServiceStatus}
    (h : ∀ r ∈ reports, r.currentState ≠ .running) (hstatus : status.currentState ≠ .running)
    (hr : r ∈ reports ++ [status]) : r.currentState ≠ .running := by
  rcases mem_append.mp hr with hr | hr
  · exact h r hr
  · rw [mem_singleton.mp hr]
    exact hstatus

theorem checkpoint_ne_running {s : Status} (h : ∀ r ∈ s.reports, r.currentState ≠ .running) :
    ∀ r ∈ s.checkpoint.reports, r.currentState ≠ .running := by
  intro r hr
  unfold Status.checkpoint at hr
  split at hr
  · exact h r hr
  · rename_i cap hcap
    split at hr
    · refine mem_concat_ne_running h ?_ hr
      intro hrunning
      unfold Status.cap at hcap
      rw [show s.status.currentState = .running from hrunning] at hcap
      cases hcap
    · exact h r hr

theorem Barred.step {p q : Pool Status Pc} (h : Barred p) (hstep : Step serving p q) :
    Barred q := by
  obtain ⟨hrequested, hunread, hunreported⟩ := h
  cases hstep with
  | @spawn s ts pc hstart =>
    refine ⟨hrequested, fun qc hqc => ?_, hunreported⟩
    rcases mem_append.mp hqc with hqc | hqc
    · exact hunread qc hqc
    · rw [mem_singleton.mp hqc]
      rcases hstart with rfl | ⟨-, rfl | rfl | rfl⟩ <;> exact Pc.noConfusion
  | @act s s' ts i pc pc' hpc hact =>
    have hmem : pc ∈ ts := mem_of_getElem? hpc
    have hthreads (hnew : pc' ≠ .runningLoaded false) :
        ∀ qc ∈ ts.set i pc', qc ≠ .runningLoaded false := by
      intro qc hqc
      rcases mem_act hqc with rfl | hqc
      · exact hnew
      · exact hunread qc hqc
    cases hact with
    | runningLoad _ =>
      refine ⟨hrequested, hthreads ?_, hunreported⟩
      rw [show s.stopRequested = true from hrequested]
      exact fun heq => Bool.noConfusion (Pc.runningLoaded.inj heq)
    | running => exact absurd rfl (hunread _ hmem)
    | startPending | stopped | stopPending =>
      exact ⟨hrequested, hthreads Pc.noConfusion,
        fun r => mem_concat_ne_running hunreported ServiceState.noConfusion⟩
    | checkpoint =>
      refine ⟨?_, hthreads Pc.noConfusion, checkpoint_ne_running hunreported⟩
      exact (checkpoint_spec s).2.2.2.1.trans hrequested
    | progress =>
      refine ⟨?_, hthreads Pc.noConfusion, ?_⟩
      · exact (progress_spec s).2.2.1.trans hrequested
      · have hsame : s.progress.unlock.reports = s.reports := (progress_spec s).2.2.2
        rw [hsame]
        exact hunreported
    | request => exact ⟨rfl, hthreads Pc.noConfusion, hunreported⟩
    | _ => exact ⟨hrequested, hthreads Pc.noConfusion, hunreported⟩
  | env henv =>
    obtain ⟨now, -, rfl⟩ := henv
    exact ⟨hrequested, hunread, hunreported⟩

/-- The reports of every run are legal, STOP is accepted only while `RUNNING`, and `RUNNING` is not
reported after a stop request that came before `running` took the lock. -/
theorem status_reports_legal {clock : Nat} {p : Pool Status Pc} (h : Run clock p) :
    (∃ starts runs stops ends, Legal p.store.reports starts runs stops ends) ∧
    (∀ r ∈ p.store.reports, r.controlsAccepted ≠ 0 → r.currentState = .running) ∧
    (Barred p → ∀ q, Interleaving.Run serving p q →
      ∀ r ∈ q.store.reports, r.currentState ≠ .running) := by
  have hholds := serving_outline.run (holds_initial clock) h
  obtain ⟨starts, runs, stops, ends, hlegal, -⟩ := hholds.store.history
  refine ⟨⟨starts, runs, stops, ends, hlegal⟩, fun r hr haccepted => ?_, fun hbarred q hrun => ?_⟩
  · rw [hlegal.parts] at hr
    simp only [mem_append] at hr
    rcases hr with ((hr | hr) | hr) | hr
    · exact absurd (hlegal.startPending.state r hr).2 haccepted
    · exact (hlegal.running.2 r hr).1
    · exact absurd (hlegal.stopPending.state r hr).2 haccepted
    · exact absurd (hlegal.stopped.2 r hr).2 haccepted
  · exact (run_invariant (fun _ _ => Barred.step) hrun hbarred).unreported

def sampleStarted : Status := ((Status.new 0).lock 0).startPending.unlock

def sampleRunning : Status := (sampleStarted.lock 1).running.unlock

def sampleStopping : Status :=
  (({ sampleRunning with stopRequested := true }.lock 3).enter .stopPending 0).unlock

/-- A service that starts, runs, and is stopped. -/
theorem sample_reports_legal :
    ((sampleStopping.lock 0).stopped none).reports.map ServiceStatus.currentState =
      [.startPending, .running, .stopPending, .stopped] ∧
    ∃ starts runs stops ends,
      Legal ((sampleStopping.lock 0).stopped none).reports starts runs stops ends := by
  have hlock : Run 0 ⟨(Status.new 0).lock 0, [.starting]⟩ :=
    .single (.act (i := 0) rfl (.lockStart rfl))
  have hstarted : Run 0 ⟨sampleStarted, [.serving]⟩ := hlock.tail (.act (i := 0) rfl .startPending)
  have hcall : Run 0 ⟨sampleStarted, [.serving, .running]⟩ :=
    hstarted.tail (.spawn (Or.inr ⟨rfl, Or.inr (Or.inl rfl)⟩))
  have hheld : Run 0 ⟨sampleStarted.lock 1, [.serving, .runningHeld]⟩ :=
    hcall.tail (.act (i := 1) rfl (.lockRunning rfl))
  have hload : Run 0 ⟨sampleStarted.lock 1, [.serving, .runningLoaded false]⟩ :=
    hheld.tail (.act (i := 1) rfl (.runningLoad rfl))
  have hrunning : Run 0 ⟨sampleRunning, [.serving, .ran true]⟩ :=
    hload.tail (.act (i := 1) rfl .running)
  have hstop : Run 0 ⟨sampleRunning, [.serving, .ran true, .request]⟩ :=
    hrunning.tail (.spawn (Or.inl rfl))
  have hrequest : Run 0 ⟨{ sampleRunning with stopRequested := true },
      [.serving, .ran true, .requested]⟩ := hstop.tail (.act (i := 2) rfl .request)
  have hthread : Run 0 ⟨{ sampleRunning with stopRequested := true },
      [.serving, .ran true, .requested, .tick]⟩ :=
    hrequest.tail (.spawn (Or.inr ⟨rfl, Or.inr (Or.inr rfl)⟩))
  have hloop : Run 0 ⟨{ sampleRunning with stopRequested := true }.lock 3,
      [.serving, .ran true, .requested, .loop]⟩ := hthread.tail (.act (i := 3) rfl (.lockTick rfl))
  have hloaded : Run 0 ⟨{ sampleRunning with stopRequested := true }.lock 3,
      [.serving, .ran true, .requested, .loaded true]⟩ :=
    hloop.tail (.act (i := 3) rfl (.tickLoad (by decide)))
  have hpending : Run 0 ⟨({ sampleRunning with stopRequested := true }.lock 3).enter .stopPending 0,
      [.serving, .ran true, .requested, .loop]⟩ :=
    hloaded.tail (.act (i := 3) rfl (.stopPending rfl))
  have hagain : Run 0 ⟨({ sampleRunning with stopRequested := true }.lock 3).enter .stopPending 0,
      [.serving, .ran true, .requested, .loaded true]⟩ :=
    hpending.tail (.act (i := 3) rfl (.tickLoad (by decide)))
  have hwait : Run 0 ⟨sampleStopping, [.serving, .ran true, .requested, .waiting]⟩ :=
    hagain.tail (.act (i := 3) rfl (.wait rfl))
  have hserved : Run 0 ⟨sampleStopping, [.stopping none, .ran true, .requested, .waiting]⟩ :=
    hwait.tail (.act (i := 0) rfl (.serve none))
  have hclose : Run 0 ⟨sampleStopping.lock 0, [.closing none, .ran true, .requested, .waiting]⟩ :=
    hserved.tail (.act (i := 0) rfl (.lockStop rfl))
  have hdone : Run 0 ⟨((sampleStopping.lock 0).stopped none).unlock,
      [.done, .ran true, .requested, .waiting]⟩ := hclose.tail (.act (i := 0) rfl .stopped)
  exact ⟨rfl, (status_reports_legal hdone).1⟩

end CyberGuard.Service.StatusReports
