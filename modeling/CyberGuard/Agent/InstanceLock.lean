import CyberGuard.Shared.Interleaving

/-!
# The instance lock and the trace session

The agent's processes on one host. Each takes the lock of the host, loads its identity, starts
the trace session of the agent's name and stops it by that name. The lock is the existence of a
named mutex, which lives while a process has a handle to it; a session outlives its process. A
process may end at any point, and Windows may refuse every call. A stop is by name: an ordinary
token stops no session but its own, any other stops whichever there is. A query of the token that
fails answers as if the token did not have what is asked for, so a token may be taken for less than
it is.
-/

namespace CyberGuard.Agent.InstanceLock
set_option autoImplicit false
open Interleaving

/-- The groups that are enabled in a token, and the privilege it holds. -/
structure Token where
  administrators : Bool
  perfLoggingUsers : Bool
  localService : Bool
  networkService : Bool
  systemProfile : Bool

inductive TokenClass where
  | canCreate
  | controlsEtw
  | ordinary

def classifyToken (token : Token) : TokenClass :=
  if token.administrators then .canCreate
  else if token.perfLoggingUsers || token.localService || token.networkService ||
      token.systemProfile then .controlsEtw
  else .ordinary

/-- What the queries of a token may answer: one that fails answers no. -/
def Token.Answers (token answers : Token) : Prop :=
  (answers.administrators → token.administrators) ∧
  (answers.perfLoggingUsers → token.perfLoggingUsers) ∧
  (answers.localService → token.localService) ∧
  (answers.networkService → token.networkService) ∧ (answers.systemProfile → token.systemProfile)

inductive LockOutcome where
  | acquired
  | held
  | controlsEtwOutsideModel
  | unprivileged
  | failed (step : String) (code : Nat)

def LockOutcome.exitCode : LockOutcome → Option Nat
  | .acquired | .unprivileged => none
  | .held => some 10
  | .controlsEtwOutsideModel | .failed _ _ => some 1

inductive StartMode where
  | locked
  | unlocked
  deriving DecidableEq

/-- How a process started, and its token. -/
structure Standing where
  mode : StartMode
  token : Token

inductive OpenError where
  | privilegeNotHeld
  | accessDenied
  | failed (code : Nat) (message : String)
  | unsupported

namespace OpenError

def isPrivilege : OpenError → Bool
  | .privilegeNotHeld | .accessDenied => true
  | _ => false

def withLockMode (mode : StartMode) : OpenError → OpenError
  | .failed 183 message => if mode = .unlocked then .privilegeNotHeld else .failed 183 message
  | raw => raw

def mustStopAfterFailedStart (raw : OpenError) : StartMode → Bool
  | .locked => true
  | .unlocked => raw.isPrivilege

def exitCode (error : OpenError) : Nat := if error.isPrivilege then 9 else 1

end OpenError

/-- The processes that have a handle to the mutex, which exists while there is one, and the one
whose call created it; the process that started the session. -/
structure Host where
  handles : List Nat
  creator : Nat
  session : Option Nat

def Host.createMutex (h : Host) (i : Nat) : Host :=
  { h with
    handles := i :: h.handles
    creator := if h.handles = [] then i else h.creator }

/-- `stop_session`, which may also fail or find no session. -/
inductive StopSession (i : Nat) (token : Token) (h : Host) : Host → Prop where
  | stopped : classifyToken token ≠ .ordinary ∨ h.session = some i →
      StopSession i token h { h with session := none }
  | unchanged : StopSession i token h h

/-- Where a process is; `failedStart` has the error before the mode is applied to it. In
`detached` the stop is left to a thread that goes on without the lock. -/
inductive Pc where
  | acquire (token : Token)
  | createLock (token : Token)
  | lockExists
  | identity (standing : Standing)
  | reclaim (token : Token)
  | startTrace (standing : Standing)
  | enable (standing : Standing)
  | failedStart (standing : Standing) (raw : OpenError)
  | capturing (standing : Standing)
  | stopping (standing : Standing)
  | leaving (standing : Standing) (code : Option Nat)
  | detached (token : Token)
  | ended (code : Option Nat)
  | crashed

namespace Pc

def standing : Pc → Option Standing
  | .identity standing | .startTrace standing | .enable standing | .failedStart standing _
  | .capturing standing | .stopping standing | .leaving standing _ => some standing
  | .reclaim token => some ⟨.locked, token⟩
  | _ => none

def locked (pc : Pc) : Bool := pc.standing.any (·.mode = .locked)

/-- The process started the session, has the lock and has not stopped the session. -/
def owns : Pc → Bool
  | .enable standing | .capturing standing | .stopping standing => standing.mode = .locked
  | _ => false

def handle : Pc → Bool
  | .lockExists => true
  | pc => pc.locked

def attached : Pc → Bool
  | .detached _ => false
  | _ => true

end Pc

def Host.release (h : Host) (i : Nat) (pc : Pc) : Host :=
  { h with handles := if pc.handle then h.handles.filter (· ≠ i) else h.handles }

def lockSteps : List String :=
  ["create boundary descriptor", "build Administrators SID", "add SID to boundary descriptor",
    "parse namespace security descriptor", "create private namespace", "open private namespace",
    "create mutex"]

inductive StartStep (i : Nat) (h : Host) : Pc → Host → Pc → Prop where
  | tokenFailed {token : Token} (code : Nat) :
      StartStep i h (.acquire token) h (.ended (LockOutcome.failed "open process token" code).exitCode)
  | controlsEtw {token answers : Token} : token.Answers answers →
      classifyToken answers = .controlsEtw →
      StartStep i h (.acquire token) h (.ended LockOutcome.controlsEtwOutsideModel.exitCode)
  | ordinary {token answers : Token} : token.Answers answers → classifyToken answers = .ordinary →
      StartStep i h (.acquire token) h (.identity ⟨.unlocked, token⟩)
  | canCreate {token answers : Token} : token.Answers answers →
      classifyToken answers = .canCreate → StartStep i h (.acquire token) h (.createLock token)
  | createFailed {token : Token} {step : String} (code : Nat) : step ∈ lockSteps →
      StartStep i h (.createLock token) h (.ended (LockOutcome.failed step code).exitCode)
  | acquired {token : Token} : h.handles = [] →
      StartStep i h (.createLock token) (h.createMutex i) (.identity ⟨.locked, token⟩)
  | alreadyExists {token : Token} : h.handles ≠ [] →
      StartStep i h (.createLock token) (h.createMutex i) .lockExists
  | held :
      StartStep i h .lockExists (h.release i .lockExists) (.ended LockOutcome.held.exitCode)
  | identityFailed {standing : Standing} (code : Option Nat) :
      StartStep i h (.identity standing) h (.leaving standing code)
  | identityLocked {token : Token} :
      StartStep i h (.identity ⟨.locked, token⟩) h (.reclaim token)
  | identityUnlocked {token : Token} :
      StartStep i h (.identity ⟨.unlocked, token⟩) h (.startTrace ⟨.unlocked, token⟩)
  | reclaim {h' : Host} {token : Token} : StopSession i token h h' →
      StartStep i h (.reclaim token) h' (.startTrace ⟨.locked, token⟩)
  -- Also where the session exists, which is error 183.
  | startFailed {standing : Standing} (raw : OpenError) :
      StartStep i h (.startTrace standing) h (.failedStart standing raw)
  | started {standing : Standing} : h.session = none →
      StartStep i h (.startTrace standing) { h with session := some i } (.enable standing)
  | enableFailed {standing : Standing} (raw : OpenError) :
      StartStep i h (.enable standing) h (.failedStart standing raw)
  | enabled {standing : Standing} : StartStep i h (.enable standing) h (.capturing standing)
  | stopFailedStart {h' : Host} {standing : Standing} {raw : OpenError} :
      raw.mustStopAfterFailedStart standing.mode = true → StopSession i standing.token h h' →
      StartStep i h (.failedStart standing raw) h'
        (.leaving standing (raw.withLockMode standing.mode).exitCode)
  | leaveFailedStart {standing : Standing} {raw : OpenError} :
      raw.mustStopAfterFailedStart standing.mode = false →
      StartStep i h (.failedStart standing raw) h
        (.leaving standing (raw.withLockMode standing.mode).exitCode)
  | shutdown {standing : Standing} : StartStep i h (.capturing standing) h (.stopping standing)
  | stop {h' : Host} {standing : Standing} (code : Option Nat) : StopSession i standing.token h h' →
      StartStep i h (.stopping standing) h' (.leaving standing code)
  | leave {standing : Standing} {code : Option Nat} :
      StartStep i h (.leaving standing code) (h.release i (.leaving standing code)) (.ended code)
  -- The stop deadline of the service: the lock goes before the session is stopped.
  | deadline {standing : Standing} :
      StartStep i h (.stopping standing) (h.release i (.stopping standing))
        (.detached standing.token)
  | detachedStop {h' : Host} {token : Token} : StopSession i token h h' →
      StartStep i h (.detached token) h' (.ended none)
  | crash {pc : Pc} : StartStep i h pc (h.release i pc) .crashed

def starts : Program Host Pc where
  start := fun _ pc => ∃ token, pc = .acquire token
  act := StartStep
  env := fun h h' => h' = h

/-- No stop is cut off by the deadline, and no process starts without the lock for a query of its
token that failed. -/
def timelyStarts : Program Host Pc := starts.restrict fun _ pc _ pc' =>
  pc'.attached = true ∧ ∀ token, pc = .acquire token → pc' = .identity ⟨.unlocked, token⟩ →
    classifyToken token = .ordinary

def Global (n : Nat) (h : Host) : Prop := ∀ j ∈ h.handles, j < n

/-- Only an ordinary token goes on without the lock. -/
def Pc.Fits (pc : Pc) : Prop := ∀ standing, pc.standing = some standing →
  standing.mode = .unlocked → classifyToken standing.token = .ordinary

structure Local (i : Nat) (h : Host) (pc : Pc) : Prop where
  handle : i ∈ h.handles ↔ pc.handle = true
  creator : pc.locked = true → h.creator = i
  session : pc.owns = true → h.session = some i
  attached : pc.attached = true
  fits : pc.Fits

section Steps
variable {n i j : Nat} {h h' : Host} {pc pc' qc : Pc} {token : Token}

theorem Pc.handle_of_locked (hlocked : pc.locked = true) : pc.handle = true := by
  cases pc with
  | lockExists => rfl
  | _ => exact hlocked

theorem Pc.locked_of_owns (howns : pc.owns = true) : pc.locked = true := by
  cases pc with
  | enable | capturing | stopping => exact howns
  | _ => cases howns

theorem fits_step (hfits : pc.Fits) (hstep : StartStep i h pc h' pc')
    (hqueried : ∀ token, pc = .acquire token → pc' = .identity ⟨.unlocked, token⟩ →
      classifyToken token = .ordinary) : pc'.Fits := by
  intro standing hstanding hmode
  cases hstep with
  | ordinary _ _ =>
    cases hstanding
    exact hqueried _ rfl rfl
  | acquired _ =>
    cases hstanding
    cases hmode
  | _ => first | exact hfits standing hstanding hmode | cases hstanding

theorem mem_release : j ∈ (h.release i pc).handles ↔
    j ∈ h.handles ∧ (pc.handle = true → j ≠ i) := by
  rw [Host.release]
  split
  · next hhandle => simp [hhandle]
  · next hhandle => simp [hhandle]

theorem global_step (hi : i < n) (hG : Global n h) (hstep : StartStep i h pc h' pc') :
    Global n h' := by
  have hcreated : Global n (h.createMutex i) := List.forall_mem_cons.mpr ⟨hi, hG⟩
  have hreleased : Global n (h.release i pc) := fun j hj => hG j (mem_release.mp hj).1
  cases hstep with
  | acquired _ | alreadyExists _ => exact hcreated
  | held | leave | deadline | crash => exact hreleased
  | reclaim hstop | stopFailedStart _ hstop | stop _ hstop | detachedStop hstop =>
    cases hstop <;> exact hG
  | _ => exact hG

theorem local_step (hL : Local i h pc) (hstep : StartStep i h pc h' pc')
    (hattached : pc'.attached = true) (hfits : pc'.Fits) : Local i h' pc' := by
  have hreleased : i ∉ (h.release i pc).handles := by
    intro hmem
    obtain ⟨hold, hother⟩ := mem_release.mp hmem
    exact hother (hL.handle.mp hold) rfl
  cases hstep with
  | acquired hfree =>
    exact ⟨iff_of_true List.mem_cons_self rfl, fun _ => if_pos hfree, Bool.noConfusion, hattached,
      hfits⟩
  | alreadyExists _ =>
    exact ⟨iff_of_true List.mem_cons_self rfl, Bool.noConfusion, Bool.noConfusion, hattached, hfits⟩
  | held | leave | deadline | crash =>
    exact ⟨iff_of_false hreleased Bool.noConfusion, Bool.noConfusion, Bool.noConfusion, hattached,
      hfits⟩
  | started _ => exact ⟨hL.handle, hL.creator, fun _ => rfl, hattached, hfits⟩
  | enabled | shutdown => exact ⟨hL.handle, hL.creator, hL.session, hattached, hfits⟩
  | reclaim hstop | stopFailedStart _ hstop | stop _ hstop | detachedStop hstop =>
    cases hstop <;> exact ⟨hL.handle, hL.creator, Bool.noConfusion, hattached, hfits⟩
  | _ => exact ⟨hL.handle, hL.creator, Bool.noConfusion, hattached, hfits⟩

/-- A stop by the process that has the lock, or of its own session, is no stop of another's. -/
theorem Local.stop (hne : j ≠ i) (hother : Local j h qc) (hstop : StopSession i token h h')
    (hcreator : classifyToken token ≠ .ordinary → h.creator = i) : Local j h' qc := by
  cases hstop with
  | unchanged => exact hother
  | stopped hmay =>
    refine ⟨hother.handle, hother.creator, fun howns => absurd ?_ hne, hother.attached,
      hother.fits⟩
    rcases hmay with hclass | hown
    · exact (hother.creator (Pc.locked_of_owns howns)).symm.trans (hcreator hclass)
    · exact Option.some.inj ((hother.session howns).symm.trans hown)

theorem local_other (hne : j ≠ i) (hL : Local i h pc) (hother : Local j h qc)
    (hstep : StartStep i h pc h' pc') : Local j h' qc := by
  have hcreated : Local j (h.createMutex i) qc := by
    refine ⟨?_, fun hlocked => ?_, hother.session, hother.attached, hother.fits⟩
    · rw [← hother.handle]
      exact List.mem_cons.trans (or_iff_right hne)
    · have hmem := hother.handle.mpr (Pc.handle_of_locked hlocked)
      exact (if_neg (List.ne_nil_of_mem hmem)).trans (hother.creator hlocked)
  have hreleased : Local j (h.release i pc) qc := by
    refine ⟨?_, hother.creator, hother.session, hother.attached, hother.fits⟩
    rw [mem_release, ← hother.handle]
    exact and_iff_left fun _ => hne
  have hcreator {standing : Standing} (hstanding : pc.standing = some standing)
      (hclass : classifyToken standing.token ≠ .ordinary) : h.creator = i := by
    apply hL.creator
    cases hmode : standing.mode with
    | locked => simp [Pc.locked, hstanding, hmode]
    | unlocked => exact absurd (hL.fits standing hstanding hmode) hclass
  cases hstep with
  | acquired _ | alreadyExists _ => exact hcreated
  | held | leave | deadline | crash => exact hreleased
  | reclaim hstop => exact hother.stop hne hstop (hcreator rfl)
  | stopFailedStart _ hstop => exact hother.stop hne hstop (hcreator rfl)
  | stop _ hstop => exact hother.stop hne hstop (hcreator rfl)
  | detachedStop _ => cases hL.attached
  | started hnone =>
    refine ⟨hother.handle, hother.creator, fun howns => ?_, hother.attached, hother.fits⟩
    rw [hother.session howns] at hnone
    cases hnone
  | _ => exact hother

end Steps

theorem starts_outline : Outline timelyStarts Global Local where
  spawn := by
    rintro n h pc hG ⟨token, rfl⟩
    exact ⟨fun j hj => Nat.lt_succ_of_lt (hG j hj),
      iff_of_false (fun hmem => Nat.lt_irrefl n (hG n hmem)) Bool.noConfusion,
      Bool.noConfusion, Bool.noConfusion, rfl, fun _ hstanding => nomatch hstanding⟩
  self := by
    rintro n i h h' pc pc' hi hG hL ⟨hstep, hattached, hqueried⟩
    exact ⟨global_step hi hG hstep,
      local_step hL hstep hattached (fits_step hL.fits hstep hqueried)⟩
  other := fun hne _ hL hother hact => local_other hne.symm hL hother hact.1
  env := by
    rintro n h h' hG rfl
    exact ⟨hG, fun _ _ hL => hL⟩

/-- Where every query of a token is answered and no stop is cut off: at most one process has the
lock, nobody stops the session it captures from, and the lock is free when every process that had a
handle to it is gone. -/
theorem one_instance_captures {creator : Nat} {session : Option Nat} {p : Pool Host Pc}
    (hrun : Run timelyStarts ⟨⟨[], creator, session⟩, []⟩ p) :
    (∀ (i j : Nat) (pc qc : Pc), p.threads[i]? = some pc → p.threads[j]? = some qc →
      pc.locked = true → qc.locked = true → i = j) ∧
    (∀ (i : Nat) (token : Token), p.threads[i]? = some (.capturing ⟨.locked, token⟩) →
      p.store.session = some i) ∧
    (p.store.handles = [] ↔ ∀ pc ∈ p.threads, pc.handle = false) := by
  have hholds := starts_outline.run (Holds.initial fun _ => List.not_mem_nil.elim) hrun
  refine ⟨fun i j pc qc hi hj hpc hqc => ?_, fun i _ hi => (hholds.thread i _ hi).session rfl, ?_⟩
  · exact ((hholds.thread i pc hi).creator hpc).symm.trans ((hholds.thread j qc hj).creator hqc)
  constructor
  · intro hfree pc hpc
    obtain ⟨i, hi⟩ := List.getElem?_of_mem hpc
    by_contra hhandle
    have hmem := (hholds.thread i pc hi).handle.mpr (Bool.not_eq_false _ |>.mp hhandle)
    rw [hfree] at hmem
    cases hmem
  · intro hnobody
    refine List.eq_nil_iff_forall_not_mem.mpr fun j hj => ?_
    have hthread := List.getElem?_eq_getElem (hholds.store j hj)
    have hhandle := (hholds.thread j _ hthread).handle.mp hj
    rw [hnobody _ (List.mem_of_getElem? hthread)] at hhandle
    cases hhandle

def administrator : Token := ⟨true, false, false, false, false⟩

theorem sample_start_reclaims : ∃ p : Pool Host Pc,
    p.threads = [.capturing ⟨.locked, administrator⟩] ∧ p.store.session = some 0 := by
  have hrun : Run timelyStarts ⟨⟨[], 0, some 7⟩, []⟩
      ⟨⟨[0], 0, some 0⟩, [.capturing ⟨.locked, administrator⟩]⟩ :=
    .tail (.tail (.tail (.tail (.tail (.tail (.single (.spawn ⟨administrator, rfl⟩))
      (.act (i := 0) rfl ⟨.canCreate ⟨id, id, id, id, id⟩ rfl, rfl, nofun⟩))
      (.act (i := 0) rfl ⟨.acquired rfl, rfl, nofun⟩))
      (.act (i := 0) rfl ⟨.identityLocked, rfl, nofun⟩))
      (.act (i := 0) rfl ⟨.reclaim (.stopped (Or.inl nofun)), rfl, nofun⟩))
      (.act (i := 0) rfl ⟨.started rfl, rfl, nofun⟩))
      (.act (i := 0) rfl ⟨.enabled, rfl, nofun⟩)
  exact ⟨_, rfl, (one_instance_captures hrun).2.1 0 administrator rfl⟩

end CyberGuard.Agent.InstanceLock
