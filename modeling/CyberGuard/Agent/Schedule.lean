import Mathlib.Order.Bounds.Basic
import CyberGuard.Agent.Conservation
import CyberGuard.Shared.Interleaving

/-!
# The heartbeat schedule

What a run of the delivery loop shows of its schedule, newest first: the readings of
the clock at the head of the loop with the tick each of them processed, the decisions
for a POST with the ring as it was read then, and the batches formed. The two flags of
the loop are functions of these marks, and the index of the next tick is a function of
the last reading.
-/

namespace CyberGuard.Agent.Schedule
set_option autoImplicit false
open EventRecord List

inductive Mark where
  | read (now : Nat) (tick : Option Nat)
  | decided (heartbeat : Bool) (now buffered : Nat) (oldest : Option Nat)
  | formed (batch : Batch)
  deriving DecidableEq, Repr

namespace Mark

def isTick : Mark → Bool
  | .read _ tick => tick.isSome
  | _ => false

def alone : Mark → Bool
  | .decided heartbeat _ _ _ => !heartbeat
  | _ => false

def isDecided : Mark → Bool
  | .decided .. => true
  | _ => false

def reading? : Mark → Option Nat
  | .read now _ => some now
  | _ => none

def batch? : Mark → Option Batch
  | .formed batch => some batch
  | _ => none

def isEmptyPost : Mark → Bool
  | .formed batch => batch.events.isEmpty
  | _ => false

end Mark

/-- What a step from one state to the next shows of the schedule. -/
def observe (c : Config) (a b : State) : Option Mark :=
  match a.pc, b.pc with
  | .top, .batchDue _ | .top, .attempt =>
    some (.read a.clock (if c.tickAt a.nextTick ≤ a.clock then some a.nextTick else none))
  | .batchDue now, .form | .oldest now, .form =>
    some (.decided a.heartbeatDue now a.ring.len a.ring.oldestEnqueuedAt)
  | .form, .attempt => b.ledger.formed.getLast?.map .formed
  | _, _ => none

inductive Observed (c : Config) (a : State) : List Mark → State → Prop where
  | start : Observed c a [] a
  | step {marks : List Mark} {b b' : State} {l : Label} : Observed c a marks b →
      Step c l b b' → Observed c a ((observe c b b').toList ++ marks) b'

variable {c : Config} {a b : State} {l : Label} {marks : List Mark}

theorem Observed.marked {b' : State} {m : Mark} (h : Observed c a marks b) (hstep : Step c l b b')
    (hmark : observe c b b' = some m) :
    Observed c a (m :: marks) b' := by
  have hnext := h.step hstep
  rwa [hmark] at hnext

theorem Observed.unmarked {b' : State} (h : Observed c a marks b) (hstep : Step c l b b')
    (hmark : observe c b b' = none) :
    Observed c a marks b' := by
  have hnext := h.step hstep
  rwa [hmark] at hnext

def lastReading (marks : List Mark) : Option Nat := (marks.filterMap Mark.reading?).head?

def posts (marks : List Mark) : List Batch := (marks.filterMap Mark.batch?).reverse

def sinceTick (marks : List Mark) : List Mark := marks.takeWhile fun m => !m.isTick

/-- The last processed tick has no POST yet, and none was formed by a batch trigger alone between
the tick processed before it and itself. -/
def tickDue : List Mark → Bool
  | [] => false
  | .read _ (some _) :: earlier => !(sinceTick earlier).any Mark.alone
  | .decided .. :: _ => false
  | .read _ none :: earlier => tickDue earlier
  | .formed _ :: earlier => tickDue earlier

def Next (c : Config) (last : Option Nat) (k : Nat) : Prop :=
  IsLeast {j | ∀ t ∈ last, t < c.tickAt j} k

def BatchTrigger (now buffered : Nat) (oldest : Option Nat) : Prop :=
  maxBatchEvents ≤ buffered ∨ ∃ enqueuedAt ∈ oldest, maxBatchLatency ≤ now - enqueuedAt

def Sound (c : Config) (earlier : List Mark) : Mark → Prop
  | .read now tick => ∃ k, Next c (lastReading earlier) k ∧
      tick = if c.tickAt k ≤ now then some k else none
  | .decided heartbeat now buffered oldest => lastReading earlier = some now ∧
      heartbeat = tickDue earlier ∧ (heartbeat = true ∨ BatchTrigger now buffered oldest)
  | .formed batch => ∃ heartbeat now buffered oldest before,
      earlier = .decided heartbeat now buffered oldest :: before ∧
        (heartbeat = false → batch.events ≠ [])

section Marks
variable {earlier later : List Mark} {m : Mark}

theorem sinceTick_cons_tick (h : m.isTick = true) : sinceTick (m :: earlier) = [] := by
  simp [sinceTick, h]

theorem sinceTick_cons (h : m.isTick = false) :
    sinceTick (m :: earlier) = m :: sinceTick earlier := by
  simp [sinceTick, h]

variable {marks : List Mark} {now k : Nat} {c : Config}

theorem alone_of_tickDue (h : tickDue marks = true) :
    (sinceTick marks).any Mark.alone = false := by
  induction marks with
  | nil => rfl
  | cons m earlier ih =>
    cases m with
    | read now tick =>
      cases tick with
      | none => rw [sinceTick_cons rfl, any_cons, ih h]; rfl
      | some k => rw [sinceTick_cons_tick rfl]; rfl
    | decided => cases h
    | formed batch => rw [sinceTick_cons rfl, any_cons, ih h]; rfl

theorem tick_of_tickDue (h : tickDue marks = true) :
    ∃ m ∈ marks, m.isTick = true := by
  induction marks with
  | nil => cases h
  | cons m earlier ih =>
    by_cases hm : m.isTick = true
    · exact ⟨m, mem_cons_self, hm⟩
    have hearlier : tickDue earlier = true := by
      cases m with
      | read now tick =>
        cases tick with
        | none => exact h
        | some k => exact absurd rfl hm
      | decided => cases h
      | formed batch => exact h
    obtain ⟨m', hmem, htick⟩ := ih hearlier
    exact ⟨m', mem_cons_of_mem m hmem, htick⟩

/-- With the last tick given, it is due only if no decision came after it. -/
theorem tickDue_append (hlater : ∀ m ∈ later, m.isTick = false)
    (h : tickDue (later ++ .read now (some k) :: earlier) = true) :
    (∀ m ∈ later, m.isDecided = false) ∧ (sinceTick earlier).any Mark.alone = false := by
  induction later with
  | nil =>
    refine ⟨fun m hm => absurd hm not_mem_nil, ?_⟩
    simpa only [nil_append, tickDue, Bool.not_eq_true'] using h
  | cons m later ih =>
    have hm := hlater m mem_cons_self
    have hrest := fun m' hm' => hlater m' (mem_cons_of_mem m hm')
    cases m with
    | read now tick =>
      cases tick with
      | none =>
        obtain ⟨hnone, halone⟩ := ih hrest h
        exact ⟨forall_mem_cons.mpr ⟨rfl, hnone⟩, halone⟩
      | some k => cases hm
    | decided => cases h
    | formed batch =>
      obtain ⟨hnone, halone⟩ := ih hrest h
      exact ⟨forall_mem_cons.mpr ⟨rfl, hnone⟩, halone⟩

theorem decided_of_formed {batch : Batch} {tick : Mark} (htick : tick.isDecided = false)
    (h : Sound c (later ++ tick :: earlier) (.formed batch)) :
    ∃ heartbeat now buffered oldest before, later = .decided heartbeat now buffered oldest :: before ∧
      (heartbeat = false → batch.events ≠ []) := by
  obtain ⟨heartbeat, now, buffered, oldest, before, heq, hevents⟩ := h
  cases later with
  | nil =>
    obtain ⟨rfl, -⟩ := List.cons.inj heq
    cases htick
  | cons m later =>
    obtain ⟨rfl, -⟩ := List.cons.inj heq
    exact ⟨heartbeat, now, buffered, oldest, later, rfl, hevents⟩

theorem no_post_of_undecided (h : Recorded (Sound c) (later ++ .read now (some k) :: earlier))
    (hnone : ∀ m ∈ later, m.isDecided = false) : later.countP Mark.isEmptyPost = 0 := by
  induction later with
  | nil => rfl
  | cons m later ih =>
    obtain ⟨hm, hlater⟩ := forall_mem_cons.mp hnone
    rw [countP_cons, ih h.2 hlater]
    cases m with
    | read => rfl
    | decided => rfl
    | formed batch =>
      obtain ⟨heartbeat, now, buffered, oldest, before, rfl, -⟩ := decided_of_formed rfl h.1
      exact absurd (hlater _ mem_cons_self) Bool.noConfusion

theorem empty_post_spec {batch : Batch}
    (h : Recorded (Sound c) (.formed batch :: (later ++ .read now (some k) :: earlier)))
    (hlater : ∀ m ∈ later, m.isTick = false) (hempty : batch.events = []) :
    later.countP Mark.isEmptyPost = 0 ∧ (sinceTick earlier).any Mark.alone = false := by
  obtain ⟨heartbeat, reading, buffered, oldest, before, rfl, hevents⟩ := decided_of_formed rfl h.1
  have hheartbeat : heartbeat = true := by
    by_contra hfalse
    exact hevents (Bool.eq_false_iff.mpr hfalse) hempty
  have hdue : tickDue (before ++ .read now (some k) :: earlier) = true :=
    h.2.1.2.1.symm.trans hheartbeat
  obtain ⟨hnone, halone⟩ := tickDue_append (forall_mem_cons.mp hlater).2 hdue
  refine ⟨?_, halone⟩
  rw [countP_cons_of_neg Bool.noConfusion]
  exact no_post_of_undecided h.2.2 hnone

theorem empty_posts_after_tick (h : Recorded (Sound c) (later ++ .read now (some k) :: earlier))
    (hlater : ∀ m ∈ later, m.isTick = false) :
    later.countP Mark.isEmptyPost ≤ 1 ∧
      ((∃ m ∈ later, m.isEmptyPost = true) → (sinceTick earlier).any Mark.alone = false) := by
  induction later with
  | nil =>
    refine ⟨Nat.zero_le 1, ?_⟩
    rintro ⟨m, hm, -⟩
    cases hm
  | cons m later ih =>
    have hrest := (forall_mem_cons.mp hlater).2
    obtain ⟨hcount, halone⟩ := ih h.2 hrest
    by_cases hm : m.isEmptyPost = true
    · cases m with
      | read => cases hm
      | decided => cases hm
      | formed batch =>
        obtain ⟨hzero, hbefore⟩ := empty_post_spec h hrest (List.isEmpty_iff.mp hm)
        rw [countP_cons_of_pos hm, hzero]
        exact ⟨Nat.le_refl 1, fun _ => hbefore⟩
    · rw [countP_cons_of_neg hm]
      refine ⟨hcount, ?_⟩
      rintro ⟨m', hmem, hempty⟩
      rcases mem_cons.mp hmem with rfl | hmem
      · exact absurd hempty hm
      · exact halone ⟨m', hmem, hempty⟩

theorem no_empty_post_before_tick (h : Recorded (Sound c) marks)
    (hnone : ∀ m ∈ marks, m.isTick = false) : ∀ m ∈ marks, m.isEmptyPost = false := by
  induction marks with
  | nil => exact fun m hm => absurd hm not_mem_nil
  | cons m earlier ih =>
    have hrest := (forall_mem_cons.mp hnone).2
    refine forall_mem_cons.mpr ⟨?_, ih h.2 hrest⟩
    cases m with
    | read => rfl
    | decided => rfl
    | formed batch =>
      obtain ⟨heartbeat, now, buffered, oldest, before, rfl, hevents⟩ := h.1
      obtain ⟨-, hbefore⟩ := forall_mem_cons.mp hrest
      cases heartbeat with
      | false => exact isEmpty_eq_false_iff.mpr (hevents rfl)
      | true =>
        obtain ⟨m, hm, htick⟩ := tick_of_tickDue h.2.1.2.1.symm
        exact absurd htick (Bool.eq_false_iff.mp (hbefore m hm))

end Marks

section Ticks
variable {c : Config}

theorem next_none : Next c none 0 :=
  ⟨fun _ ht => absurd ht (Option.not_mem_none _), fun _ _ => Nat.zero_le _⟩

variable {now : Nat}

theorem tickAt_le_of_next {last : Option Nat} {k j : Nat} (h : Next c last k)
    (hlast : ∀ t ∈ last, t ≤ now) (hj : j < k) : c.tickAt j ≤ now := by
  by_contra hlate
  have hmem : ∀ t ∈ last, t < c.tickAt j := fun t ht =>
    Nat.lt_of_le_of_lt (hlast t ht) (Nat.lt_of_not_le hlate)
  exact absurd (h.2 hmem) (Nat.not_le.mpr hj)

theorem next_skipTicks {tick : Nat} (hinterval : 0 < c.interval)
    (hbefore : ∀ j < tick, c.tickAt j ≤ now) : Next c (some now) (skipTicks c now tick) := by
  fun_induction skipTicks c now tick with
  | case1 tick h ih =>
    apply ih
    intro j hj
    rcases Nat.lt_succ_iff_lt_or_eq.mp hj with hj | rfl
    · exact hbefore j hj
    · exact h.2
  | case2 tick h =>
    have hafter : now < c.tickAt tick := Nat.lt_of_not_le fun hle => h ⟨hinterval, hle⟩
    refine ⟨fun t ht => ?_, fun j hj => ?_⟩
    · obtain rfl := Option.mem_some.mp ht
      exact hafter
    · by_contra hlt
      exact absurd (hj now rfl) (Nat.not_lt.mpr (hbefore j (Nat.lt_of_not_le hlt)))

theorem next_of_early {last : Option Nat} {k : Nat} (h : Next c last k)
    (hlast : ∀ t ∈ last, t ≤ now) (hearly : now < c.tickAt k) : Next c (some now) k := by
  refine ⟨fun t ht => ?_, fun j hj => ?_⟩
  · obtain rfl := Option.mem_some.mp ht
    exact hearly
  · by_contra hlt
    exact absurd (hj now rfl) (Nat.not_lt.mpr (tickAt_le_of_next h hlast (Nat.lt_of_not_le hlt)))

end Ticks

/-- The states of `run_until` and those after it that form no POST. -/
def looping : Pc → Bool
  | .finalAttempt .. | .finalSending .. | .countLeft .. | .finished .. => false
  | _ => true

/-- What the place in the loop adds: nothing is in flight from the head to the POST, and the ring
that made a batch due cannot become empty before it is drained. -/
def Place (marks : List Mark) (a : State) : Prop :=
  match a.pc with
  | .batchDue now | .oldest now => a.inFlight = none ∧ lastReading marks = some now
  | .form => a.inFlight = none ∧ ∃ heartbeat now buffered oldest earlier,
      marks = .decided heartbeat now buffered oldest :: earlier ∧
        (heartbeat = false → a.ring.events ≠ [])
  | .idle _ => tickDue marks = false
  | _ => True

structure Tracks (c : Config) (marks : List Mark) (a : State) : Prop where
  next : Next c (lastReading marks) a.nextTick
  past : ∀ t ∈ lastReading marks, t ≤ a.clock
  due : a.heartbeatDue = tickDue marks
  alone : a.batchPostSinceTick = (sinceTick marks).any Mark.alone
  posts : looping a.pc = true → a.ledger.formed = posts marks
  place : Place marks a

/-- The places from which no step shows anything of the schedule. -/
def plain : Pc → Bool
  | .top | .batchDue _ | .oldest _ | .form => false
  | _ => true

def free : Pc → Bool
  | .batchDue _ | .oldest _ | .form | .idle _ => false
  | _ => true

theorem place_of_free (h : free a.pc = true) : Place marks a := by
  unfold Place
  cases hpc : a.pc with
  | batchDue | oldest | form | idle =>
    rw [hpc] at h
    cases h
  | _ => trivial

theorem observe_of_plain (h : plain a.pc = true) (b : State) :
    observe c a b = none := by
  unfold observe
  cases hpc : a.pc with
  | top | batchDue | oldest | form =>
    rw [hpc] at h
    cases h
  | _ => rfl

theorem place_of_same (hpc : b.pc = a.pc) (hflight : b.inFlight = a.inFlight)
    (hring : a.ring.events ≠ [] → b.ring.events ≠ []) (h : Place marks a) : Place marks b := by
  unfold Place at h ⊢
  rw [hpc, hflight]
  cases hp : a.pc with
  | form =>
    rw [hp] at h
    obtain ⟨hnone, heartbeat, now, buffered, oldest, earlier, hmarks, hevents⟩ := h
    exact ⟨hnone, heartbeat, now, buffered, oldest, earlier, hmarks,
      fun hfalse => hring (hevents hfalse)⟩
  | _ => rwa [hp] at h

theorem observe_same (h : b.pc = a.pc) : observe c a b = none := by
  unfold observe
  rw [h]
  cases a.pc <;> rfl

theorem events_enqueueOrDrop (ring : EventRing) (now : Nat) (event : RingEvent)
    (h : ring.events ≠ []) : (ring.enqueueOrDrop now event).events ≠ [] := by
  unfold EventRing.enqueueOrDrop
  split
  · exact h
  split
  · exact append_ne_nil_of_right_ne_nil _ (cons_ne_nil _ _)
  · exact append_ne_nil_of_right_ne_nil _ (cons_ne_nil _ _)

/-- A step from a state that the marks track: what it shows is sound, and they still track it. -/
structure Follows (c : Config) (marks : List Mark) (a b : State) : Prop where
  sound : ∀ m ∈ observe c a b, Sound c marks m
  tracks : Tracks c ((observe c a b).toList ++ marks) b

namespace Follows
variable {c : Config} {marks : List Mark} {a b : State}

theorem silent (hmark : observe c a b = none) (h : Tracks c marks b) : Follows c marks a b := by
  refine ⟨?_, ?_⟩
  · intro m hm
    rw [hmark] at hm
    cases hm
  · rw [hmark]
    exact h

theorem mark {m : Mark} (hmark : observe c a b = some m) (hsound : Sound c marks m)
    (h : Tracks c (m :: marks) b) : Follows c marks a b := by
  refine ⟨?_, ?_⟩
  · intro m' hm
    rw [hmark] at hm
    exact Option.mem_some.mp hm ▸ hsound
  · rw [hmark]
    exact h

end Follows

namespace Tracks
variable {c : Config} {marks : List Mark} {a : State}

theorem initial (capacity : Nat) : Tracks c [] (State.initial capacity) where
  next := next_none
  past := fun _ ht => absurd ht (Option.not_mem_none _)
  due := rfl
  alone := rfl
  posts := fun _ => rfl
  place := trivial

variable {b : State}

theorem same (h : Tracks c marks a) (hclock : a.clock ≤ b.clock) (hnext : b.nextTick = a.nextTick)
    (hdue : b.heartbeatDue = a.heartbeatDue) (hbatch : b.batchPostSinceTick = a.batchPostSinceTick)
    (hposts : looping b.pc = true → looping a.pc = true ∧ b.ledger.formed = a.ledger.formed)
    (hplace : Place marks b) : Tracks c marks b where
  next := hnext ▸ h.next
  past := fun t ht => Nat.le_trans (h.past t ht) hclock
  due := hdue.trans h.due
  alone := hbatch.trans h.alone
  posts := fun hloop => (hposts hloop).2.trans (h.posts (hposts hloop).1)
  place := hplace

theorem place_atTop (c : Config) (tick : Option Nat) :
    Place (.read a.clock tick :: marks) (a.atTop c) := by
  unfold Place State.atTop
  cases a.inFlight with
  | none => exact ⟨rfl, rfl⟩
  | some pending => trivial

/-- A due tick is processed: it needs a POST unless a batch trigger formed one since the last. -/
theorem atTop_tick (h : Tracks c marks a) (hinterval : 0 < c.interval) (hpc : a.pc = .top)
    (hdue : c.tickAt a.nextTick ≤ a.clock) :
    Tracks c (.read a.clock (some a.nextTick) :: marks) (a.atTop c) where
  next := by
    simp only [State.atTop, hdue, if_true]
    exact next_skipTicks hinterval fun j hj => tickAt_le_of_next h.next h.past hj
  past := fun t ht => Nat.le_of_eq (Option.mem_some.mp ht).symm
  due := by
    have hpending := h.due
    simp only [State.atTop, hdue, decide_true, Bool.true_and, tickDue, h.alone]
    cases halone : (sinceTick marks).any Mark.alone with
    | false => rfl
    | true =>
      have hnone : tickDue marks = false :=
        Bool.eq_false_iff.mpr fun htick => Bool.noConfusion
          (halone.symm.trans (alone_of_tickDue htick))
      exact hpending.trans hnone
  alone := by
    simp only [State.atTop, hdue, if_true]
    rfl
  posts := fun _ => h.posts (by rw [hpc]; rfl)
  place := place_atTop c _

theorem atTop_early (h : Tracks c marks a) (hpc : a.pc = .top)
    (hearly : a.clock < c.tickAt a.nextTick) :
    Tracks c (.read a.clock none :: marks) (a.atTop c) := by
  have hdue : ¬ c.tickAt a.nextTick ≤ a.clock := Nat.not_le.mpr hearly
  refine ⟨?_, ?_, ?_, ?_, fun _ => h.posts (by rw [hpc]; rfl), place_atTop c _⟩
  · simp only [State.atTop, hdue, if_false]
    exact next_of_early h.next h.past hearly
  · exact fun t ht => Nat.le_of_eq (Option.mem_some.mp ht).symm
  · simp only [State.atTop, hdue, decide_false, Bool.false_and]
    exact h.due
  · simp only [State.atTop, hdue, if_false]
    exact h.alone

section Decision
variable {now : Nat} {batchDue : Bool} (h : Tracks c marks a)
variable (hpc : a.pc = .batchDue now ∨ a.pc = .oldest now)

include h hpc

theorem deciding : a.inFlight = none ∧ lastReading marks = some now ∧
    a.ledger.formed = Schedule.posts marks := by
  have hplace := h.place
  have hposts := h.posts
  unfold Place at hplace
  rcases hpc with hpc | hpc
  · rw [hpc] at hplace hposts
    exact ⟨hplace.1, hplace.2, hposts rfl⟩
  · rw [hpc] at hplace hposts
    exact ⟨hplace.1, hplace.2, hposts rfl⟩

omit h in
theorem observe_deciding (b : State) : observe c a b =
    match b.pc with
    | .form => some (.decided a.heartbeatDue now a.ring.len a.ring.oldestEnqueuedAt)
    | _ => none := by
  unfold observe
  rcases hpc with hpc | hpc
  · rw [hpc]
    cases b.pc <;> rfl
  · rw [hpc]
    cases b.pc <;> rfl

/-- The decision for a POST, by the flag or by what was read of the ring. -/
theorem decideBatch_post (hdecide : (a.heartbeatDue || batchDue) = true)
    (htrigger : batchDue = true →
      BatchTrigger now a.ring.len a.ring.oldestEnqueuedAt ∧ a.ring.events ≠ []) :
    Follows c marks a (a.decideBatch c batchDue) := by
  obtain ⟨hflight, hreading, hposts⟩ := h.deciding hpc
  have hforced : a.heartbeatDue = false → batchDue = true := by
    intro hfalse
    rwa [hfalse, Bool.false_or] at hdecide
  have hstate : a.decideBatch c batchDue =
      { a with
        batchPostSinceTick := if a.heartbeatDue then a.batchPostSinceTick else true
        heartbeatDue := false
        pc := .form } := if_pos hdecide
  rw [hstate]
  apply Follows.mark (observe_deciding hpc _)
  · refine ⟨hreading, h.due, ?_⟩
    cases hheart : a.heartbeatDue with
    | true => exact Or.inl rfl
    | false => exact Or.inr (htrigger (hforced hheart)).1
  · refine ⟨h.next, h.past, rfl, ?_, fun _ => hposts, hflight, a.heartbeatDue, now, _, _, marks, rfl,
      fun hfalse => (htrigger (hforced hfalse)).2⟩
    rw [sinceTick_cons rfl, any_cons, ← h.alone]
    cases a.heartbeatDue with
    | true => rfl
    | false => rfl

theorem decideBatch_sleep (hdecide : ¬ (a.heartbeatDue || batchDue) = true) :
    Follows c marks a (a.decideBatch c batchDue) := by
  have hstate : a.decideBatch c batchDue =
      { a with pc := .idle (min (c.tickAt a.nextTick) (a.clock + pollInterval)) } := if_neg hdecide
  rw [hstate]
  apply Follows.silent (observe_deciding hpc _)
  refine ⟨h.next, h.past, h.due, h.alone, fun _ => (h.deciding hpc).2.2, ?_⟩
  change tickDue marks = false
  rw [← h.due]
  exact (Bool.or_eq_false_iff.mp (Bool.eq_false_iff.mpr hdecide)).1

theorem decideBatch (htrigger : batchDue = true →
      BatchTrigger now a.ring.len a.ring.oldestEnqueuedAt ∧ a.ring.events ≠ []) :
    Follows c marks a (a.decideBatch c batchDue) := by
  by_cases hdecide : (a.heartbeatDue || batchDue) = true
  · exact h.decideBatch_post hpc hdecide htrigger
  · exact h.decideBatch_sleep hpc hdecide

end Decision

theorem readLen {now : Nat} (h : Tracks c marks a) (hpc : a.pc = .batchDue now) :
    Follows c marks a (a.readLen c now) := by
  unfold State.readLen
  split
  · rename_i hlen
    apply h.decideBatch (Or.inl hpc)
    intro _
    refine ⟨Or.inl hlen, ne_nil_of_length_pos ?_⟩
    exact Nat.lt_of_lt_of_le (by decide : 0 < maxBatchEvents) hlen
  · obtain ⟨hflight, hreading, hposts⟩ := h.deciding (Or.inl hpc)
    apply Follows.silent (observe_deciding (Or.inl hpc) _)
    exact ⟨h.next, h.past, h.due, h.alone, fun _ => hposts, hflight, hreading⟩

theorem readOldest {now : Nat} (h : Tracks c marks a) (hpc : a.pc = .oldest now) :
    Follows c marks a (a.readOldest c now) := by
  unfold State.readOldest
  apply h.decideBatch (Or.inr hpc)
  intro hany
  cases holdest : a.ring.oldestEnqueuedAt with
  | none =>
    rw [holdest] at hany
    cases hany
  | some enqueuedAt =>
    rw [holdest] at hany
    refine ⟨Or.inr ⟨enqueuedAt, rfl, of_decide_eq_true hany⟩, fun hnil => ?_⟩
    rw [EventRing.oldestEnqueuedAt, hnil] at holdest
    cases holdest

theorem formPending (h : Tracks c marks a) (hpc : a.pc = .form) :
    Follows c marks a (a.formPending c) := by
  have hplace := h.place
  unfold Place at hplace
  rw [hpc] at hplace
  obtain ⟨-, heartbeat, now, buffered, oldest, earlier, hmarks, hevents⟩ := hplace
  have hposts := h.posts (by rw [hpc]; rfl)
  have hmark : observe c a (a.formPending c) = some (.formed (a.formBatch c).1) := by
    unfold observe
    rw [hpc]
    exact congrArg (Option.map Mark.formed) List.getLast?_concat
  apply Follows.mark hmark
  · refine ⟨heartbeat, now, buffered, oldest, earlier, hmarks, fun hfalse hnil => ?_⟩
    have htake : a.ring.events.take maxBatchEvents = [] :=
      map_eq_nil_iff.mp (map_eq_nil_iff.mp hnil)
    rcases take_eq_nil_iff.mp htake with hzero | hring
    · exact absurd hzero (by decide)
    · exact hevents hfalse hring
  · refine ⟨h.next, h.past, h.due, ?_, fun _ => ?_, trivial⟩
    · rw [sinceTick_cons rfl, any_cons]
      exact h.alone
    · change a.ledger.formed ++ [(a.formBatch c).1] = _
      rw [hposts]
      exact (reverse_cons ..).symm

theorem top (h : Tracks c marks a) (hinterval : 0 < c.interval) (hpc : a.pc = .top) :
    Follows c marks a (a.atTop c) := by
  have hmark : observe c a (a.atTop c) =
      some (.read a.clock (if c.tickAt a.nextTick ≤ a.clock then some a.nextTick else none)) := by
    unfold observe State.atTop
    rw [hpc]
    cases a.inFlight with
    | none => rfl
    | some pending => rfl
  apply Follows.mark hmark
  · exact ⟨a.nextTick, h.next, rfl⟩
  · by_cases hdue : c.tickAt a.nextTick ≤ a.clock
    · rw [if_pos hdue]
      exact h.atTop_tick hinterval hpc hdue
    · rw [if_neg hdue]
      exact h.atTop_early hpc (Nat.lt_of_not_le hdue)

theorem enqueue (h : Tracks c marks a) (event : RingEvent) :
    Follows c marks a (a.enqueue event) := by
  refine Follows.silent (observe_same ?_) ?_
  · rfl
  refine ⟨h.next, h.past, h.due, h.alone, fun hloop => ?_, ?_⟩
  · rw [← h.posts hloop]
    unfold State.enqueue
    cases event.nameless with
    | true => rfl
    | false => rfl
  · exact place_of_same (a := a) rfl rfl (events_enqueueOrDrop a.ring a.clock event) h.place

theorem quiet (h : Tracks c marks a) (hfrom : plain a.pc = true) (hto : free b.pc = true)
    (hclock : b.clock = a.clock) (hnext : b.nextTick = a.nextTick)
    (hdue : b.heartbeatDue = a.heartbeatDue) (hbatch : b.batchPostSinceTick = a.batchPostSinceTick)
    (hposts : looping b.pc = true → looping a.pc = true ∧ b.ledger.formed = a.ledger.formed) :
    Follows c marks a b := by
  apply Follows.silent (observe_of_plain hfrom b)
  exact h.same (Nat.le_of_eq hclock.symm) hnext hdue hbatch hposts (place_of_free hto)

theorem settle (h : Tracks c marks a) (pending : Pending) (hpc : a.pc = .sending)
    (result : Except AgentError Attempt) : Follows c marks a (a.settle c pending result) := by
  have hquiet {b : State} := h.quiet (b := b) (by rw [hpc]; rfl)
  have hloop : looping a.pc = true := by rw [hpc]; rfl
  unfold State.settle
  split
  · exact hquiet rfl rfl rfl rfl rfl fun _ => ⟨hloop, rfl⟩
  · exact hquiet rfl rfl rfl rfl rfl fun _ => ⟨hloop, rfl⟩
  · dsimp only
    split
    · exact hquiet rfl rfl rfl rfl rfl fun _ => ⟨hloop, rfl⟩
    · exact hquiet rfl rfl rfl rfl rfl fun _ => ⟨hloop, rfl⟩
  · dsimp only
    split
    · exact hquiet rfl rfl rfl rfl rfl fun _ => ⟨hloop, rfl⟩
    · exact hquiet rfl rfl rfl rfl rfl fun _ => ⟨hloop, rfl⟩

theorem step {l : Label} (h : Tracks c marks a) (hinterval : 0 < c.interval)
    (hstep : Step c l a b) :
    Follows c marks a b := by
  cases hstep with
  | enqueue event => exact h.enqueue event
  | tick hclock =>
    refine Follows.silent (observe_same ?_) ?_
    · rfl
    exact h.same hclock rfl rfl rfl (fun hloop => ⟨hloop, rfl⟩) (place_of_same rfl rfl id h.place)
  | top hpc => exact h.top hinterval hpc
  | readLen hpc => exact h.readLen hpc
  | readOldest hpc => exact h.readOldest hpc
  | form hpc => exact h.formPending hpc
  | wake hpc _ =>
    have hfrom : plain a.pc = true ∧ looping a.pc = true := by
      rcases hpc with hpc | hpc
      · rw [hpc]; exact ⟨rfl, rfl⟩
      · rw [hpc]; exact ⟨rfl, rfl⟩
    exact h.quiet hfrom.1 rfl rfl rfl rfl rfl fun _ => ⟨hfrom.2, rfl⟩
  | send sentAt nonce hpc _ =>
    exact h.quiet (by rw [hpc]; rfl) rfl rfl rfl rfl rfl
      fun _ => ⟨by rw [hpc]; rfl, rfl⟩
  | signingFailed message hpc =>
    exact h.quiet (by rw [hpc]; rfl) rfl rfl rfl rfl rfl
      fun _ => ⟨by rw [hpc]; rfl, rfl⟩
  | ended result hpc _ => exact h.settle _ hpc result.attempt
  | shutdown hpc =>
    have hfrom : plain a.pc = true ∧ looping a.pc = true := by
      rcases hpc with ⟨wake, hpc | hpc⟩ | hpc
      · rw [hpc]; exact ⟨rfl, rfl⟩
      · rw [hpc]; exact ⟨rfl, rfl⟩
      · rw [hpc]; exact ⟨rfl, rfl⟩
    exact h.quiet hfrom.1 rfl rfl rfl rfl rfl fun _ => ⟨hfrom.2, rfl⟩
  | giveUp hpc =>
    exact h.quiet (by rw [hpc]; rfl) rfl rfl rfl rfl rfl
      fun _ => ⟨by rw [hpc]; rfl, rfl⟩
  | finish deadline hpc =>
    have hfrom : plain a.pc = true := by rw [hpc]; rfl
    unfold State.finish
    cases a.inFlight with
    | none | some => exact h.quiet hfrom rfl rfl rfl rfl rfl Bool.noConfusion
  | sendFinal sentAt nonce hpc =>
    exact h.quiet (by rw [hpc]; rfl) rfl rfl rfl rfl rfl Bool.noConfusion
  | signingFailedFinal message hpc =>
    exact h.quiet (by rw [hpc]; rfl) rfl rfl rfl rfl rfl Bool.noConfusion
  | endedFinal result hpc =>
    exact h.quiet (by rw [hpc]; rfl) rfl rfl rfl rfl rfl Bool.noConfusion
  | report hpc =>
    exact h.quiet (by rw [hpc]; rfl) rfl rfl rfl rfl rfl Bool.noConfusion

end Tracks

theorem Observed.recorded {capacity : Nat} (h : Observed c (State.initial capacity) marks a)
    (hinterval : 0 < c.interval) :
    Tracks c marks a ∧ Recorded (Sound c) marks := by
  induction h with
  | start => exact ⟨Tracks.initial capacity, trivial⟩
  | @step marks b b' l _ hstep ih =>
    obtain ⟨htracks, hrecorded⟩ := ih
    obtain ⟨hsound, hnext⟩ := htracks.step hinterval hstep
    exact ⟨hnext, hrecorded.append_toList hsound⟩

theorem ledger_decideBatch (c : Config) (a : State) (batchDue : Bool) :
    (a.decideBatch c batchDue).ledger = a.ledger := by
  unfold State.decideBatch
  split
  · rfl
  · rfl

theorem formed_settle (c : Config) (a : State) (pending : Pending)
    (result : Except AgentError Attempt) :
    (a.settle c pending result).ledger.formed = a.ledger.formed := by
  unfold State.settle
  split
  · rfl
  · rfl
  · dsimp only
    split
    · rfl
    · rfl
  · dsimp only
    split
    · rfl
    · rfl

/-- The loop forms a POST in one place, and the stop in another. -/
theorem formed_of_step (hstep : Step c l a b) :
    b.ledger.formed = a.ledger.formed ∨ a.pc = .form ∨ a.inFlight = none := by
  cases hstep with
  | enqueue event =>
    left
    unfold State.enqueue
    cases event.nameless with
    | true => rfl
    | false => rfl
  | readLen hpc =>
    left
    unfold State.readLen
    split
    · rw [ledger_decideBatch]
    · rfl
  | readOldest hpc => exact Or.inl (congrArg Ledger.formed (ledger_decideBatch c a _))
  | form hpc => exact Or.inr (Or.inl hpc)
  | ended result _ _ => exact Or.inl (formed_settle c a _ _)
  | finish deadline _ =>
    unfold State.finish
    cases a.inFlight with
    | none => exact Or.inr (Or.inr rfl)
    | some pending => exact Or.inl rfl
  | signingFailedFinal message _ =>
    left
    unfold State.settleFinal
    rfl
  | endedFinal result _ =>
    left
    unfold State.settleFinal
    dsimp only
    split
    · rfl
    · rfl
  | _ => exact Or.inl rfl

theorem Tracks.inFlight_of_formed (h : Tracks c marks a) (hstep : Step c l a b)
    (hformed : b.ledger.formed ≠ a.ledger.formed) :
    a.inFlight = none := by
  rcases formed_of_step hstep with hsame | hpc | hnone
  · exact absurd hsame hformed
  · have hplace := h.place
    unfold Place at hplace
    rw [hpc] at hplace
    exact hplace.1
  · exact hnone

/-- A POST is formed with none in flight, right after a decision that a due tick or a batch trigger
made; by a trigger alone it has events. After a processed tick at most one POST without events is
formed, and only if no POST of a trigger alone lies between the tick before and this one. A reading
processes the first tick after the reading before, however many are over, and the loop sleeps with
no tick left over. -/
theorem heartbeat_schedule {c : Config} {capacity : Nat} {marks : List Mark} {a : State}
    (hinterval : 0 < c.heartbeat.intervalSeconds)
    (h : Observed c (State.initial capacity) marks a) :
    (∀ l b, Step c l a b → b.ledger.formed ≠ a.ledger.formed → a.inFlight = none) ∧
    (looping a.pc = true → a.ledger.formed = posts marks) ∧
    (∀ batch earlier, .formed batch :: earlier <:+ marks →
      ∃ heartbeat now buffered oldest before,
        earlier = .decided heartbeat now buffered oldest :: before ∧
        lastReading before = some now ∧ heartbeat = tickDue before ∧
        (heartbeat = true ∨ BatchTrigger now buffered oldest) ∧
        (heartbeat = false → batch.events ≠ [])) ∧
    ((∀ m ∈ marks, m.isTick = false) → ∀ m ∈ marks, m.isEmptyPost = false) ∧
    (∀ later now k earlier, later ++ .read now (some k) :: earlier <:+ marks →
      (∀ m ∈ later, m.isTick = false) →
        later.countP Mark.isEmptyPost ≤ 1 ∧
          ((∃ m ∈ later, m.isEmptyPost = true) →
            (sinceTick earlier).any Mark.alone = false)) ∧
    (∀ now tick earlier, .read now tick :: earlier <:+ marks →
      ∃ k, Next c (lastReading earlier) k ∧ tick = if c.tickAt k ≤ now then some k else none) ∧
    (∀ wake, a.pc = .idle wake → tickDue marks = false) ∧
    Next c (lastReading marks) a.nextTick := by
  obtain ⟨htracks, hrecorded⟩ := h.recorded (Nat.mul_pos hinterval (by decide))
  refine ⟨fun l b => htracks.inFlight_of_formed, htracks.posts, ?_,
    no_empty_post_before_tick hrecorded, ?_, ?_, ?_, htracks.next⟩
  · intro batch earlier hsuffix
    obtain ⟨hformed, hrest⟩ := hrecorded.of_suffix hsuffix
    obtain ⟨heartbeat, now, buffered, oldest, before, rfl, hevents⟩ := hformed
    obtain ⟨hreading, hdue, hreason⟩ := hrest.1
    exact ⟨heartbeat, now, buffered, oldest, before, rfl, hreading, hdue, hreason, hevents⟩
  · intro later now k earlier hsuffix
    exact empty_posts_after_tick (hrecorded.of_suffix hsuffix)
  · intro now tick earlier hsuffix
    exact hrecorded.at hsuffix
  · intro wake hpc
    have hplace := htracks.place
    unfold Place at hplace
    rwa [hpc] at hplace

def sampleHead : State := (State.initial 2).atTop sampleConfig

def sampleDecided : State := (sampleHead.readLen sampleConfig 0).readOldest sampleConfig 0

/-- The first heartbeat carries no event, and its tick is followed by no other such POST. -/
theorem sample_first_heartbeat :
    Observed sampleConfig (State.initial 2)
      [.formed ⟨1, []⟩, .decided true 0 0 none, .read 0 (some 0)]
      (sampleDecided.formPending sampleConfig) ∧
    [Mark.formed ⟨1, []⟩, .decided true 0 0 none].countP Mark.isEmptyPost ≤ 1 ∧
    Next sampleConfig (some 0) (sampleDecided.formPending sampleConfig).nextTick := by
  have htop := Observed.start.marked (m := .read 0 (some 0))
    (Step.top (c := sampleConfig) (a := .initial 2) rfl) (by decide)
  have hlen := htop.unmarked (.readLen rfl) rfl
  have hdecided : Step sampleConfig .silent (sampleHead.readLen sampleConfig 0) sampleDecided :=
    .readOldest rfl
  have hold := hlen.marked (m := .decided true 0 0 none) hdecided (by decide)
  have hform := hold.marked (m := .formed ⟨1, []⟩) (.form rfl) (by decide)
  obtain ⟨-, -, -, -, hcount, -, -, hnext⟩ := heartbeat_schedule (by decide) hform
  refine ⟨hform, ?_, hnext⟩
  exact (hcount [.formed ⟨1, []⟩, .decided true 0 0 none] 0 0 [] suffix_rfl (by decide)).1

end CyberGuard.Agent.Schedule
