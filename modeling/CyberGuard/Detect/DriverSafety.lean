import CyberGuard.Detect.Driver

/-!
# The detection driver is single flight and stops for good

Each pass knows where it is in its own part of the record, and that no timeout is armed and
`inFlight` is its promise until it schedules the next pass. Counting the passes that have
not done so with the armed timeouts gives at most one, and exactly one until `stop`.
-/

namespace CyberGuard.Detect.Driving
set_option autoImplicit false
open Interleaving EventRecord List Nat

section Logs
variable {pass : Nat} {events log : List Event} {e : Event} {cap : Nat} {all orgs : List String}
variable {org : String} {counts : List Nat}

theorem own_cons_self (h : e.pass? = some pass) :
    own pass (e :: events) = e :: own pass events := by
  simp [own, h]

theorem own_cons_other (h : e.pass? ≠ some pass) : own pass (e :: events) = own pass events := by
  simp [own, h]

theorem mem_own (h : e.pass? = some pass) : e ∈ own pass events ↔ e ∈ events := by
  simp [own, h]

theorem own_append_toList {shown : Option Event} (h : ∀ e ∈ shown, e.pass? ≠ some pass) :
    own pass (shown.toList ++ events) = own pass events := by
  cases shown with
  | none => rfl
  | some e => exact own_cons_other (h e rfl)

/-- One more org visited, with its first calls. -/
theorem visits_concat (h : all.drop counts.length = org :: orgs) (n : Nat) :
    visits all (counts ++ [n]) = visits all counts ++ (List.range n).map fun i => (org, i) := by
  have hall : all = all.take counts.length ++ org :: orgs := by
    rw [← h, take_append_drop]
  have hlen : (all.take counts.length).length = counts.length := by
    apply length_take_of_le
    by_contra hlt
    rw [drop_eq_nil_of_le (Nat.le_of_not_le hlt)] at h
    cases h
  have hone : (all.take counts.length ++ org :: orgs).zip (counts ++ [n]) =
      (all.take counts.length).zip counts ++ [(org, n)] := by
    rw [zip_append hlen]
    simp
  have hnone : (all.take counts.length ++ org :: orgs).zip (counts ++ []) =
      (all.take counts.length).zip counts ++ [] := by
    rw [zip_append hlen]
    simp
  rw [← hall] at hone hnone
  rw [append_nil, append_nil] at hnone
  unfold visits
  rw [hone, hnone]
  simp

theorem Visits.cons (h : Visits cap all counts log) (hcall : e.call? = none)
    (hlisted : e.listed? = none) : Visits cap all counts (e :: log) where
  listed := by
    rw [lists, filterMap_cons_none hlisted]
    exact h.listed
  calls := by
    rw [Driving.calls, filterMap_cons_none hcall]
    exact h.calls
  within := h.within
  bounded := h.bounded

theorem length_lt_of_drop (h : all.drop counts.length = org :: orgs) :
    counts.length < all.length := by
  by_contra hge
  rw [drop_eq_nil_of_le (Nat.le_of_not_lt hge)] at h
  cases h

/-- The first call for the next org. -/
theorem Visits.call (h : Visits cap all counts log) (hcap : 0 < cap)
    (hdrop : all.drop counts.length = org :: orgs) :
    Visits cap all (counts ++ [1]) (.called pass org 0 :: log) where
  listed := h.listed
  calls := by
    rw [visits_concat hdrop, ← h.calls]
    simp [Driving.calls, Event.call?]
  within := by
    rw [length_append]
    exact length_lt_of_drop hdrop
  bounded := by
    intro n hn
    rcases mem_append.mp hn with hn | hn
    · exact h.bounded n hn
    · obtain rfl := mem_singleton.mp hn
      exact ⟨le_refl 1, hcap⟩

/-- One more call for the same org. -/
theorem Visits.again {i : Nat} (h : Visits cap all (counts ++ [i + 1]) log) (hcap : i + 1 < cap)
    (hdrop : all.drop counts.length = org :: orgs) :
    Visits cap all (counts ++ [i + 2]) (.called pass org (i + 1) :: log) where
  listed := h.listed
  calls := by
    have hcalls := h.calls
    rw [visits_concat hdrop] at hcalls
    rw [visits_concat hdrop, range_succ, map_append, ← append_assoc, ← hcalls]
    simp [Driving.calls, Event.call?]
  within := by
    have hwithin := h.within
    rw [length_append] at hwithin ⊢
    exact hwithin
  bounded := by
    intro n hn
    rcases mem_append.mp hn with hn | hn
    · exact h.bounded n (mem_append_left _ hn)
    · obtain rfl := mem_singleton.mp hn
      exact ⟨succ_le_succ (zero_le _), hcap⟩

theorem drop_visited {n : Nat} (hdrop : all.drop counts.length = org :: orgs) :
    all.drop (counts ++ [n]).length = orgs := by
  rw [length_append, ← drop_drop, hdrop]
  rfl

end Logs

/-- What a pass has done so far: nothing listed, or orgs visited in their order. -/
def SoFar (cap : Nat) (log : List Event) : Prop :=
  (lists log = [] ∧ calls log = []) ∨ ∃ orgs counts, Visits cap orgs counts log

def Going (pass : Nat) (log : List Event) : Prop :=
  log.any Event.isError = false ∧ .ended pass ∉ log

def Over (cap pass : Nat) (events : List Event) : Prop :=
  (own pass events).any Event.isError = true ∨ StoppedBefore pass events ∨
    ∃ orgs counts, Visits cap orgs counts (own pass events) ∧ counts.length = orgs.length

def Log (cap thread : Nat) (events : List Event) : Pc → Prop
  | .tick | .stop | .awaiting _ | .resolved => own thread events = []
  | .listing => own thread events = [.fired thread]
  | .nextOrg orgs => Going thread (own thread events) ∧ ∃ all counts,
      Visits cap all counts (own thread events) ∧ all.drop counts.length = orgs
  | .cycling org i orgs => Going thread (own thread events) ∧ ∃ all counts,
      Visits cap all (counts ++ [i + 1]) (own thread events) ∧
        all.drop counts.length = org :: orgs
  | .cycled org i orgs eventsEvaluated => Going thread (own thread events) ∧
      (own thread events).head? = some (.returned thread org i eventsEvaluated) ∧ ∃ all counts,
        Visits cap all (counts ++ [i + 1]) (own thread events) ∧
          all.drop counts.length = org :: orgs
  | .failing => SoFar cap (own thread events) ∧ (own thread events).any Event.isError = true ∧
      .ended thread ∉ own thread events
  | .ended | .caught | .scheduled | .settled => SoFar cap (own thread events) ∧
      Over cap thread events

structure Global (n : Nat) (s : Driver × List Event) : Prop where
  single : s.1.timeouts.length ≤ 1
  halted : s.1.stopped = true → s.1.timeouts = []
  handle : ∀ handle ∈ s.1.timeouts, s.1.timer = some handle
  stopped : s.1.stopped = true ↔ .stop ∈ s.2
  unborn : ∀ thread, n ≤ thread → own thread s.2 = [] ∧ thread ∉ s.1.settled

structure Local (cap thread : Nat) (s : Driver × List Event) (pc : Pc) : Prop where
  log : Log cap thread s.2 pc
  active : pc.active = true → s.1.inFlight = some thread ∧ s.1.timeouts = []
  awaiting : ∀ inFlight, pc = .awaiting inFlight → s.1.stopped = true ∧ s.1.inFlight = inFlight
  settled : thread ∈ s.1.settled → pc = .settled

section Steps
variable {cap thread : Nat} {s s' : Driver} {pc pc' : Pc} {shown : Option Event}
variable {events : List Event}

theorem DriverStep.pass (h : DriverStep cap thread s pc shown s' pc') :
    ∀ e ∈ shown, ∀ pass, e.pass? = some pass → pass = thread := by
  intro e he pass hpass
  cases h with
  | stop | resolved =>
    cases he
    cases hpass
  | _ => cases he <;> exact (Option.some.inj hpass).symm

theorem DriverStep.not_settled (h : DriverStep cap thread s pc shown s' pc') : pc ≠ .settled := by
  cases h <;> exact Pc.noConfusion

theorem stopped_scheduleNext (s : Driver) : (scheduleNext s).stopped = s.stopped := by
  unfold scheduleNext
  split
  · rfl
  · rfl

theorem inFlight_scheduleNext (s : Driver) : (scheduleNext s).inFlight = s.inFlight := by
  unfold scheduleNext
  split
  · rfl
  · rfl

theorem settled_scheduleNext (s : Driver) : (scheduleNext s).settled = s.settled := by
  unfold scheduleNext
  split
  · rfl
  · rfl

theorem DriverStep.stopped (h : DriverStep cap thread s pc shown s' pc')
    (hstopped : s.stopped = true ↔ .stop ∈ events) :
    s'.stopped = true ↔ .stop ∈ shown.toList ++ events := by
  cases h with
  | stop => exact ⟨fun _ => mem_cons_self, fun _ => rfl⟩
  | scheduled =>
    rw [stopped_scheduleNext]
    exact hstopped
  | _ =>
    refine hstopped.trans ?_
    simp

theorem timeouts_stop {n : Nat} (h : Global n (s, events)) : s.stop.timeouts = [] := by
  apply filter_eq_nil_iff.mpr
  intro handle hmem hne
  exact of_decide_eq_true hne (h.handle handle hmem)

theorem timeouts_runTick {handle n : Nat} (thread : Nat) (h : Global n (s, events))
    (hmem : handle ∈ s.timeouts) : (s.runTick handle thread).timeouts = [] := by
  apply eq_nil_of_length_eq_zero
  have hlen := length_erase_of_mem hmem
  have hsingle := h.single
  change (s.timeouts.erase handle).length = 0
  dsimp only at hsingle
  omega

theorem global_step {n : Nat} (hthread : thread < n) (hG : Global n (s, events))
    (hL : Local cap thread (s, events) pc) (h : DriverStep cap thread s pc shown s' pc') :
    Global n (s', shown.toList ++ events) := by
  have hunborn (other : Nat) (hother : n ≤ other) : own other (shown.toList ++ events) = [] := by
    rw [own_append_toList]
    · exact (hG.unborn other hother).1
    · intro e he hpass
      have hsame := h.pass e he other hpass
      omega
  have hsettled (other : Nat) (hother : n ≤ other) : other ∉ s.settled := (hG.unborn other hother).2
  have hstopped := h.stopped hG.stopped
  cases h with
  | fire hmem =>
    have hnil := timeouts_runTick thread hG hmem
    refine ⟨?_, fun _ => hnil, ?_, hstopped, fun other ho => ⟨hunborn other ho, hsettled other ho⟩⟩
    · rw [hnil]
      exact zero_le 1
    · intro handle hin
      rw [hnil] at hin
      cases hin
  | scheduled =>
    have hnil : s.timeouts = [] := (hL.active rfl).2
    refine ⟨?_, ?_, ?_, hstopped, fun other ho => ⟨hunborn other ho, ?_⟩⟩
    · unfold scheduleNext
      split
      · exact hG.single
      · simp [hnil]
    · intro hstop
      rw [stopped_scheduleNext] at hstop
      unfold scheduleNext
      rw [if_pos hstop]
      exact hnil
    · unfold scheduleNext
      split
      · exact hG.handle
      · intro handle hin
        rw [hnil] at hin
        rw [mem_singleton.mp hin]
    · rw [settled_scheduleNext]
      exact hsettled other ho
  | settled =>
    refine ⟨hG.single, hG.halted, hG.handle, hstopped, fun other ho => ⟨hunborn other ho, ?_⟩⟩
    intro hin
    rcases mem_cons.mp hin with rfl | hin
    · omega
    · exact hsettled other ho hin
  | stop =>
    have hnil := timeouts_stop hG
    refine ⟨?_, fun _ => hnil, ?_, hstopped, fun other ho => ⟨hunborn other ho, hsettled other ho⟩⟩
    · rw [hnil]
      exact zero_le 1
    · intro handle hin
      rw [hnil] at hin
      cases hin
  | _ =>
    exact ⟨hG.single, hG.halted, hG.handle, hstopped,
      fun other ho => ⟨hunborn other ho, hsettled other ho⟩⟩

theorem Going.cons {log : List Event} {e : Event} (h : Going thread log)
    (herror : e.isError = false) (hended : e ≠ .ended thread) : Going thread (e :: log) := by
  refine ⟨?_, ?_⟩
  · rw [any_cons, herror, h.1]
    rfl
  · intro hmem
    rcases mem_cons.mp hmem with hsame | hmem
    · exact hended hsame.symm
    · exact h.2 hmem

theorem SoFar.cons {log : List Event} {e : Event} (h : SoFar cap log) (hcall : e.call? = none)
    (hlisted : e.listed? = none) : SoFar cap (e :: log) := by
  rcases h with ⟨hlists, hcalls⟩ | ⟨orgs, counts, hvisits⟩
  · left
    rw [lists, calls, filterMap_cons_none hlisted, filterMap_cons_none hcall]
    exact ⟨hlists, hcalls⟩
  · exact Or.inr ⟨orgs, counts, hvisits.cons hcall hlisted⟩

theorem going_fired : Going thread [.fired thread] :=
  ⟨rfl, fun h => by simp at h⟩

theorem over_of_stopped (h : .stop ∈ events) : Over cap thread (.ended thread :: events) :=
  Or.inr (Or.inl ⟨events, suffix_rfl, h⟩)

/-- The thread's own record follows its commands. -/
theorem log_step (hcap : 0 < cap) (hstopped : s.stopped = true ↔ .stop ∈ events)
    (hlog : Log cap thread events pc) (h : DriverStep cap thread s pc shown s' pc') :
    Log cap thread (shown.toList ++ events) pc' := by
  have hself {e : Event} (he : e.pass? = some thread) :
      own thread ((some e).toList ++ events) = e :: own thread events := own_cons_self he
  cases h with
  | fire _ =>
    change own thread _ = _
    rw [hself rfl, hlog]
  | listed orgs =>
    change Going thread _ ∧ _
    rw [hself rfl, hlog]
    refine ⟨going_fired.cons rfl Event.noConfusion, orgs, [], ⟨rfl, ?_, zero_le _, ?_⟩, rfl⟩
    · simp [calls, visits, Event.call?]
    · exact fun n hn => absurd hn not_mem_nil
  | listFailed =>
    change SoFar cap _ ∧ _ ∧ _
    rw [hself rfl, hlog]
    exact ⟨Or.inl ⟨rfl, rfl⟩, rfl, by simp⟩
  | visited =>
    obtain ⟨-, all, counts, hvisits, hdrop⟩ := hlog
    have hlen : counts.length = all.length :=
      le_antisymm hvisits.within (drop_eq_nil_iff.mp hdrop)
    change SoFar cap _ ∧ Over cap thread _
    unfold Over
    rw [hself rfl]
    have hnext := hvisits.cons (e := .ended thread) rfl rfl
    exact ⟨Or.inr ⟨all, counts, hnext⟩, Or.inr (Or.inr ⟨all, counts, hnext, hlen⟩)⟩
  | leave hstop =>
    obtain ⟨-, all, counts, hvisits, -⟩ := hlog
    refine ⟨?_, over_of_stopped (hstopped.mp hstop)⟩
    rw [hself rfl]
    exact Or.inr ⟨all, counts, hvisits.cons rfl rfl⟩
  | call _ _ =>
    obtain ⟨hgoing, all, counts, hvisits, hdrop⟩ := hlog
    change Going thread _ ∧ _
    rw [hself rfl]
    exact ⟨hgoing.cons rfl Event.noConfusion, all, counts, hvisits.call hcap hdrop, hdrop⟩
  | skip _ hzero => omega
  | returned eventsEvaluated =>
    obtain ⟨hgoing, all, counts, hvisits, hdrop⟩ := hlog
    change Going thread _ ∧ _
    rw [hself rfl]
    exact ⟨hgoing.cons rfl Event.noConfusion, rfl, all, counts, hvisits.cons rfl rfl, hdrop⟩
  | rejected =>
    obtain ⟨hgoing, all, counts, hvisits, -⟩ := hlog
    change SoFar cap _ ∧ _ ∧ _
    rw [hself rfl]
    refine ⟨Or.inr ⟨all, _, hvisits.cons rfl rfl⟩, rfl, fun hmem => ?_⟩
    rcases mem_cons.mp hmem with hsame | hmem
    · cases hsame
    · exact hgoing.2 hmem
  | drained _ =>
    obtain ⟨hgoing, -, all, counts, hvisits, hdrop⟩ := hlog
    exact ⟨hgoing, all, _, hvisits, drop_visited hdrop⟩
  | capped _ _ =>
    obtain ⟨hgoing, -, all, counts, hvisits, hdrop⟩ := hlog
    exact ⟨hgoing, all, _, hvisits, drop_visited hdrop⟩
  | again _ hmore _ =>
    obtain ⟨hgoing, -, all, counts, hvisits, hdrop⟩ := hlog
    change Going thread _ ∧ _
    rw [hself rfl]
    exact ⟨hgoing.cons rfl Event.noConfusion, all, counts, hvisits.again hmore hdrop, hdrop⟩
  | leaveOrg _ _ hstop =>
    obtain ⟨-, -, all, counts, hvisits, -⟩ := hlog
    refine ⟨?_, over_of_stopped (hstopped.mp hstop)⟩
    rw [hself rfl]
    exact Or.inr ⟨all, _, hvisits.cons rfl rfl⟩
  | failed =>
    obtain ⟨hsofar, herror, -⟩ := hlog
    change SoFar cap _ ∧ Over cap thread _
    unfold Over
    rw [hself rfl]
    exact ⟨hsofar.cons rfl rfl, Or.inl (by rw [any_cons, herror, Bool.or_true])⟩
  | caught | scheduled | settled | stop | resolved => exact hlog

theorem local_step {n : Nat} (hcap : 0 < cap) (hG : Global n (s, events))
    (hL : Local cap thread (s, events) pc) (h : DriverStep cap thread s pc shown s' pc') :
    Local cap thread (s', shown.toList ++ events) pc' := by
  have hlog := log_step hcap hG.stopped hL.log h
  have hunsettled : thread ∉ s.settled := fun hin => h.not_settled (hL.settled hin)
  cases h with
  | fire hmem =>
    exact ⟨hlog, fun _ => ⟨rfl, timeouts_runTick thread hG hmem⟩, fun _ => Pc.noConfusion,
      fun hin => absurd hin hunsettled⟩
  | scheduled =>
    refine ⟨hlog, Bool.noConfusion, fun _ => Pc.noConfusion, fun hin => ?_⟩
    rw [settled_scheduleNext] at hin
    exact absurd hin hunsettled
  | settled => exact ⟨hlog, Bool.noConfusion, fun _ => Pc.noConfusion, fun _ => rfl⟩
  | stop =>
    refine ⟨hlog, Bool.noConfusion, fun inFlight hpc => ?_, fun hin => absurd hin hunsettled⟩
    exact ⟨rfl, Pc.awaiting.inj hpc⟩
  | resolved _ =>
    exact ⟨hlog, Bool.noConfusion, fun _ => Pc.noConfusion, fun hin => absurd hin hunsettled⟩
  | _ =>
    exact ⟨hlog, fun _ => hL.active rfl, fun _ => Pc.noConfusion,
      fun hin => absurd hin hunsettled⟩

theorem over_mono {later : List Event} (hown : own thread (later ++ events) = own thread events)
    (h : Over cap thread events) : Over cap thread (later ++ events) := by
  unfold Over
  rw [hown]
  rcases h with herror | ⟨earlier, hsuffix, hstop⟩ | hdone
  · exact Or.inl herror
  · exact Or.inr (Or.inl ⟨earlier, hsuffix.trans (suffix_append _ _), hstop⟩)
  · exact Or.inr (Or.inr hdone)

theorem log_other {later : List Event} (hown : own thread (later ++ events) = own thread events)
    (h : Log cap thread events pc) : Log cap thread (later ++ events) pc := by
  unfold Log at h ⊢
  cases pc with
  | ended | caught | scheduled | settled =>
    rw [hown]
    exact ⟨h.1, over_mono hown h.2⟩
  | _ =>
    rw [hown]
    exact h

/-- A thread's commands leave what the others know. -/
theorem local_other {n other : Nat} {qc : Pc} (hne : thread ≠ other) (hG : Global n (s, events))
    (hL : Local cap thread (s, events) pc) (hother : Local cap other (s, events) qc)
    (h : DriverStep cap thread s pc shown s' pc') :
    Local cap other (s', shown.toList ++ events) qc := by
  have hown : own other (shown.toList ++ events) = own other events :=
    own_append_toList fun e he hpass => hne (h.pass e he other hpass).symm
  have hlog := log_other hown hother.log
  cases h with
  | fire hmem =>
    refine ⟨hlog, fun hactive => ?_, fun inFlight hpc => ?_, hother.settled⟩
    · have hnil : s.timeouts = [] := (hother.active hactive).2
      rw [hnil] at hmem
      cases hmem
    · have hnil : s.timeouts = [] := hG.halted (hother.awaiting inFlight hpc).1
      rw [hnil] at hmem
      cases hmem
  | scheduled =>
    refine ⟨hlog, fun hactive => ?_, fun inFlight hpc => ?_, fun hin => ?_⟩
    · have hmine : s.inFlight = some thread := (hL.active rfl).1
      have htheirs : s.inFlight = some other := (hother.active hactive).1
      exact absurd (Option.some.inj (hmine.symm.trans htheirs)) hne
    · rw [stopped_scheduleNext, inFlight_scheduleNext]
      exact hother.awaiting inFlight hpc
    · rw [settled_scheduleNext] at hin
      exact hother.settled hin
  | settled =>
    refine ⟨hlog, hother.active, hother.awaiting, fun hin => ?_⟩
    rcases mem_cons.mp hin with hsame | hin
    · exact absurd hsame.symm hne
    · exact hother.settled hin
  | stop =>
    refine ⟨hlog, fun hactive => ⟨(hother.active hactive).1, timeouts_stop hG⟩, ?_,
      hother.settled⟩
    exact fun inFlight hpc => ⟨rfl, (hother.awaiting inFlight hpc).2⟩
  | _ => exact ⟨hlog, hother.active, hother.awaiting, hother.settled⟩

end Steps

theorem driving_outline {cap : Nat} (hcap : 0 < cap) :
    Outline (driving cap) Global (Local cap) where
  spawn := by
    intro n s pc hG hstart
    refine ⟨⟨hG.single, hG.halted, hG.handle, hG.stopped,
      fun thread hthread => hG.unborn thread (le_of_succ_le hthread)⟩, ?_⟩
    obtain ⟨hown, hunsettled⟩ := hG.unborn n (le_refl n)
    rcases hstart with rfl | rfl
    · exact ⟨hown, Bool.noConfusion, fun _ => Pc.noConfusion, fun hin => absurd hin hunsettled⟩
    · exact ⟨hown, Bool.noConfusion, fun _ => Pc.noConfusion, fun hin => absurd hin hunsettled⟩
  self := by
    rintro n thread ⟨s, events⟩ pc ⟨s', events'⟩ pc' hthread hG hL ⟨shown, hstep, hevents⟩
    dsimp only at hstep hevents
    subst hevents
    exact ⟨global_step hthread hG hL hstep, local_step hcap hG hL hstep⟩
  other := by
    rintro n thread other ⟨s, events⟩ pc ⟨s', events'⟩ pc' qc hne hG hL hother
      ⟨shown, hstep, hevents⟩
    dsimp only at hstep hevents
    subst hevents
    exact local_other hne hG hL hother hstep
  env := fun _ h => h.elim

def Right (earlier : List Event) : Event → Prop
  | .called pass org i =>
    .stop ∉ earlier ∧ earlier.countP Event.isCall = earlier.countP Event.isReturn ∧
      (own pass earlier).any Event.isError = false ∧
      ∀ k, i = k + 1 → ∃ eventsEvaluated,
        (own pass earlier).head? = some (.returned pass org k eventsEvaluated) ∧
          batchLimit ≤ eventsEvaluated
  | .returned .. | .rejected _ => earlier.countP Event.isReturn < earlier.countP Event.isCall
  | .resolved =>
    .stop ∈ earlier ∧ earlier.countP Event.isCall = earlier.countP Event.isReturn
  | _ => True

structure Flight (cap : Nat) (p : Pool (Driver × List Event) Pc) : Prop where
  holds : Interleaving.Holds Global (Local cap) p
  one : p.threads.countP Pc.active + p.store.1.timeouts.length ≤ 1
  going : p.store.1.stopped = false →
    p.threads.countP Pc.active + p.store.1.timeouts.length = 1
  progress : p.store.2.countP Event.isCall =
    p.store.2.countP Event.isReturn + p.threads.countP Pc.isCycling
  record : EventRecord.Recorded Right p.store.2

theorem countP_isCycling_le (threads : List Pc) :
    threads.countP Pc.isCycling ≤ threads.countP Pc.active := by
  apply countP_mono_left
  intro pc _ hcycling
  cases pc with
  | cycling org i orgs => rfl
  | _ => cases hcycling

section Counts
variable {cap thread : Nat} {s s' : Driver} {pc pc' : Pc} {shown : Option Event}
variable {events : List Event} {threads : List Pc}

/-- A timeout that fires becomes a pass, and a pass that is over becomes a timeout. -/
theorem DriverStep.timeouts {n : Nat} (h : DriverStep cap thread s pc shown s' pc')
    (hG : Global n (s, events)) (hL : Local cap thread (s, events) pc) :
    s'.timeouts.length + pc'.active.toNat ≤ s.timeouts.length + pc.active.toNat ∧
      (s'.stopped = false → s.stopped = false ∧
        s'.timeouts.length + pc'.active.toNat = s.timeouts.length + pc.active.toNat) := by
  cases h with
  | fire hmem =>
    have hpos := length_pos_of_mem hmem
    have hsingle : s.timeouts.length ≤ 1 := hG.single
    rw [timeouts_runTick thread hG hmem]
    have hone : s.timeouts.length = 1 := le_antisymm hsingle hpos
    rw [hone]
    exact ⟨le_refl 1, fun hgoing => ⟨hgoing, rfl⟩⟩
  | scheduled =>
    have hnil : s.timeouts = [] := (hL.active rfl).2
    rw [stopped_scheduleNext]
    unfold scheduleNext
    split
    · rename_i hstop
      rw [hnil]
      exact ⟨zero_le _, fun hgoing => absurd hstop (Bool.eq_false_iff.mp hgoing)⟩
    · rw [hnil]
      exact ⟨le_refl 1, fun hgoing => ⟨hgoing, rfl⟩⟩
  | stop =>
    rw [timeouts_stop hG]
    exact ⟨zero_le _, Bool.noConfusion⟩
  | _ => exact ⟨le_refl _, fun hgoing => ⟨hgoing, rfl⟩⟩

theorem DriverStep.progress (h : DriverStep cap thread s pc shown s' pc') :
    shown.toList.countP Event.isCall + pc.isCycling.toNat =
      shown.toList.countP Event.isReturn + pc'.isCycling.toNat := by
  cases h <;> rfl

theorem no_active {n : Nat} {inFlight : Option Nat}
    (holds : Interleaving.Holds Global (Local cap) ⟨(s, events), threads⟩)
    (hpc : threads[n]? = some (.awaiting inFlight)) (hsettled : ∀ pass ∈ inFlight, pass ∈ s.settled) :
    threads.countP Pc.active = 0 := by
  apply countP_eq_zero.mpr
  intro qc hmem hactive
  obtain ⟨j, hj⟩ := mem_iff_getElem?.mp hmem
  have hother := holds.thread j qc hj
  have hflight : s.inFlight = some j := (hother.active hactive).1
  have hsame : s.inFlight = inFlight := ((holds.thread n _ hpc).awaiting inFlight rfl).2
  have hqc := hother.settled (hsettled j (hsame.symm.trans hflight))
  rw [hqc] at hactive
  cases hactive

theorem right_step (h : Flight cap ⟨(s, events), threads⟩) (hpc : threads[thread]? = some pc)
    (hstep : DriverStep cap thread s pc shown s' pc') : ∀ e ∈ shown, Right events e := by
  have hL := h.holds.thread thread pc hpc
  have hstopped : s.stopped = true ↔ .stop ∈ events := h.holds.store.stopped
  have hprogress : events.countP Event.isCall =
    events.countP Event.isReturn + threads.countP Pc.isCycling := h.progress
  have hactive : threads.countP Pc.active ≤ 1 :=
    le_trans (le_add_right _ _) h.one
  -- A call makes its thread a cycling one, of which there is at most one.
  have hcall (hbefore : pc.isCycling = false) (hnow : pc.active = true)
      (hafter : pc'.isCycling = true) (hstill : pc'.active = true) :
      events.countP Event.isCall = events.countP Event.isReturn := by
    have hcount := countP_act Pc.isCycling hpc pc'
    have hsame := countP_act Pc.active hpc pc'
    have hle := countP_isCycling_le (threads.set thread pc')
    rw [hbefore, hafter] at hcount
    rw [hnow, hstill] at hsame
    simp only [Bool.toNat_true, Bool.toNat_false] at hcount hsame
    omega
  have hrunning (hnow : pc.isCycling = true) :
      events.countP Event.isReturn < events.countP Event.isCall := by
    have hpos := countP_pos_iff.mpr ⟨pc, mem_of_getElem? hpc, hnow⟩
    omega
  intro e he
  cases hstep with
  | call hgo _ =>
    cases he
    refine ⟨fun hstop => ?_, hcall rfl rfl rfl rfl, hL.log.1.1, fun k hk => ?_⟩
    · rw [hstopped.mpr hstop] at hgo
      cases hgo
    · cases hk
  | again hfull _ hgo =>
    cases he
    refine ⟨fun hstop => ?_, hcall rfl rfl rfl rfl, hL.log.1.1, fun k hk => ?_⟩
    · rw [hstopped.mpr hstop] at hgo
      cases hgo
    · cases hk
      exact ⟨_, hL.log.2.1, hfull⟩
  | returned | rejected =>
    cases he
    exact hrunning rfl
  | resolved hsettled =>
    cases he
    refine ⟨hstopped.mp (hL.awaiting _ rfl).1, ?_⟩
    have hnone := no_active h.holds hpc hsettled
    have hle := countP_isCycling_le threads
    omega
  | _ => cases he <;> trivial

end Counts

theorem Flight.step {cap : Nat} {p q : Pool (Driver × List Event) Pc} (hcap : 0 < cap)
    (h : Flight cap p) (hstep : Step (driving cap) p q) : Flight cap q := by
  have holds := (driving_outline hcap).step h.holds hstep
  cases hstep with
  | @spawn s ts pc hstart =>
    have hidle : pc.active = false ∧ pc.isCycling = false := by
      rcases hstart with rfl | rfl
      · exact ⟨rfl, rfl⟩
      · exact ⟨rfl, rfl⟩
    have hactive : (ts ++ [pc]).countP Pc.active = ts.countP Pc.active := by
      rw [countP_spawn, hidle.1]
      rfl
    have hcycling : (ts ++ [pc]).countP Pc.isCycling = ts.countP Pc.isCycling := by
      rw [countP_spawn, hidle.2]
      rfl
    refine ⟨holds, ?_, ?_, ?_, h.record⟩
    · rw [hactive]
      exact h.one
    · rw [hactive]
      exact h.going
    · rw [hcycling]
      exact h.progress
  | @act s s' ts i pc pc' hpc hact =>
    obtain ⟨shown, hdriver, hevents⟩ := hact
    obtain ⟨d, events⟩ := s
    obtain ⟨d', events'⟩ := s'
    dsimp only at hdriver hevents
    subst hevents
    have htimeouts := hdriver.timeouts h.holds.store (h.holds.thread i pc hpc)
    have hactive := countP_act Pc.active hpc pc'
    have hcycling := countP_act Pc.isCycling hpc pc'
    have hprogress := hdriver.progress
    have hright := right_step h hpc hdriver
    obtain ⟨-, hone, hgoing, hcalls, hrecord⟩ := h
    dsimp only at hone hgoing hcalls
    refine ⟨holds, ?_, fun hgo => ?_, ?_, hrecord.append_toList hright⟩
    · dsimp only
      omega
    · have hbefore := htimeouts.2 hgo
      have hwas := hgoing hbefore.1
      dsimp only
      omega
    · simp only [countP_append]
      omega
  | env henv => exact henv.elim

theorem Flight.run {cap : Nat} {p : Pool (Driver × List Event) Pc} (hcap : 0 < cap)
    (h : Run cap p) : Flight cap p := by
  refine run_invariant (I := Flight cap) (fun _ _ => Flight.step hcap) h ?_
  refine ⟨Interleaving.Holds.initial ⟨le_refl 1, ?_, ?_, ?_, ?_⟩, le_refl 1,
    fun _ => rfl, rfl, trivial⟩
  · exact Bool.noConfusion
  · intro handle hmem
    rw [mem_singleton.mp hmem]
    rfl
  · exact ⟨Bool.noConfusion, fun hmem => absurd hmem not_mem_nil⟩
  · exact fun thread _ => ⟨rfl, not_mem_nil⟩

section Records
variable {events earlier later : List Event}

theorem calls_and_returns (h : EventRecord.Recorded Right events) :
    events.countP Event.isReturn ≤ events.countP Event.isCall ∧
      events.countP Event.isCall ≤ events.countP Event.isReturn + 1 := by
  induction events with
  | nil => exact ⟨le_refl _, zero_le _⟩
  | cons e events ih =>
    obtain ⟨he, hevents⟩ := h
    have hbefore := ih hevents
    cases e with
    | called pass org i =>
      have hequal := he.2.1
      rw [countP_cons_of_neg Bool.noConfusion, countP_cons_of_pos rfl]
      omega
    | returned | rejected =>
      have hless : events.countP Event.isReturn < events.countP Event.isCall := he
      rw [countP_cons_of_pos rfl, countP_cons_of_neg Bool.noConfusion]
      omega
    | _ => exact hbefore

/-- After `stop` no call starts, and at most the one in progress then returns. -/
theorem after_stop (h : EventRecord.Recorded Right (later ++ .stop :: earlier)) :
    later.countP Event.isCall = 0 ∧
      later.countP Event.isReturn + earlier.countP Event.isReturn ≤
        earlier.countP Event.isCall := by
  induction later with
  | nil =>
    have hearlier := calls_and_returns (h.of_suffix (suffix_cons _ earlier))
    refine ⟨rfl, ?_⟩
    rw [countP_nil, zero_add]
    exact hearlier.1
  | cons e later ih =>
    obtain ⟨he, hrest⟩ := h
    obtain ⟨hcalls, hreturns⟩ := ih hrest
    have hover (hless : (later ++ .stop :: earlier).countP Event.isReturn <
        (later ++ .stop :: earlier).countP Event.isCall) :
        later.countP Event.isReturn + 1 + earlier.countP Event.isReturn ≤
          earlier.countP Event.isCall := by
      rw [countP_append, countP_append, countP_cons_of_neg Bool.noConfusion,
        countP_cons_of_neg Bool.noConfusion] at hless
      omega
    cases e with
    | called pass org i =>
      exact absurd (mem_append_right later mem_cons_self) he.1
    | returned | rejected =>
      rw [countP_cons_of_neg Bool.noConfusion, countP_cons_of_pos rfl]
      exact ⟨hcalls, hover he⟩
    | _ => exact ⟨hcalls, hreturns⟩

theorem after_resolved (h : EventRecord.Recorded Right (later ++ .resolved :: earlier)) :
    later.countP Event.isCall = 0 ∧
      earlier.countP Event.isCall = earlier.countP Event.isReturn := by
  obtain ⟨hstop, hequal⟩ := h.at (suffix_append later _)
  obtain ⟨middle, first, rfl⟩ := append_of_mem hstop
  have hsplit : later ++ .resolved :: (middle ++ .stop :: first) =
      (later ++ .resolved :: middle) ++ .stop :: first := by
    rw [append_assoc, cons_append]
  rw [hsplit] at h
  have hnone := (after_stop h).1
  rw [countP_append] at hnone
  exact ⟨Nat.eq_zero_of_add_eq_zero_right hnone, hequal⟩

end Records

section Passes
variable {cap : Nat} {p : Pool (Driver × List Event) Pc}

theorem Flight.soFar (h : Flight cap p) (pass : Nat) : SoFar cap (own pass p.store.2) := by
  cases hpc : p.threads[pass]? with
  | none =>
    rw [(h.holds.store.unborn pass (List.getElem?_eq_none_iff.mp hpc)).1]
    exact Or.inl ⟨rfl, rfl⟩
  | some pc =>
    have hlog := (h.holds.thread pass pc hpc).log
    cases pc with
    | tick | stop | awaiting | resolved | listing =>
      rw [hlog]
      exact Or.inl ⟨rfl, rfl⟩
    | nextOrg =>
      obtain ⟨-, all, counts, hvisits, -⟩ := hlog
      exact Or.inr ⟨all, counts, hvisits⟩
    | cycling =>
      obtain ⟨-, all, counts, hvisits, -⟩ := hlog
      exact Or.inr ⟨all, _, hvisits⟩
    | cycled =>
      obtain ⟨-, -, all, counts, hvisits, -⟩ := hlog
      exact Or.inr ⟨all, _, hvisits⟩
    | _ => exact hlog.1

theorem Flight.over (h : Flight cap p) {pass : Nat} (hended : .ended pass ∈ p.store.2) :
    Over cap pass p.store.2 := by
  have hmem : .ended pass ∈ own pass p.store.2 := (mem_own rfl).mpr hended
  cases hpc : p.threads[pass]? with
  | none =>
    rw [(h.holds.store.unborn pass (List.getElem?_eq_none_iff.mp hpc)).1] at hmem
    cases hmem
  | some pc =>
    have hlog := (h.holds.thread pass pc hpc).log
    cases pc with
    | tick | stop | awaiting | resolved =>
      rw [hlog] at hmem
      cases hmem
    | listing =>
      rw [hlog] at hmem
      simp at hmem
    | nextOrg | cycling | cycled => exact absurd hmem hlog.1.2
    | failing => exact absurd hmem hlog.2.2
    | _ => exact hlog.2

end Passes

/-- At most one `runCycle` is in progress. A pass calls it for the listed orgs in order, from once
to `cap` times for each, again only after a full batch, and for all of them unless it met an error
or `stop` was called; after an error it calls no more, and until `stop` there is always one pass or
one timeout. After `stop` only the call in progress may return and none starts, and when its
promise resolves none is in progress. -/
theorem driver_single_flight {cap : Nat} {p : Pool (Driver × List Event) Pc} (hcap : 0 < cap)
    (h : Run cap p) :
    (p.threads.countP Pc.isCycling ≤ 1 ∧ p.store.2.countP Event.isCall =
      p.store.2.countP Event.isReturn + p.threads.countP Pc.isCycling) ∧
    (∀ pass, SoFar cap (own pass p.store.2)) ∧
    (∀ pass org i earlier, .called pass org (i + 1) :: earlier <:+ p.store.2 →
      ∃ eventsEvaluated, (own pass earlier).head? = some (.returned pass org i eventsEvaluated) ∧
        batchLimit ≤ eventsEvaluated) ∧
    (∀ pass, .ended pass ∈ p.store.2 →
      (own pass p.store.2).any Event.isError = true ∨ StoppedBefore pass p.store.2 ∨
        ∃ orgs counts, Visits cap orgs counts (own pass p.store.2) ∧
          counts.length = orgs.length) ∧
    (∀ pass org i earlier, .called pass org i :: earlier <:+ p.store.2 →
      (own pass earlier).any Event.isError = false) ∧
    (.stop ∉ p.store.2 → p.threads.countP Pc.active + p.store.1.timeouts.length = 1) ∧
    (∀ later earlier, later ++ .stop :: earlier = p.store.2 →
      later.countP Event.isCall = 0 ∧ later.countP Event.isReturn ≤ 1 ∧
        later.countP Event.isReturn + earlier.countP Event.isReturn ≤
          earlier.countP Event.isCall) ∧
    (∀ later earlier, later ++ .resolved :: earlier = p.store.2 →
      later.countP Event.isCall = 0 ∧
        earlier.countP Event.isCall = earlier.countP Event.isReturn) := by
  have hflight := Flight.run hcap h
  have hrecord := hflight.record
  have hone := hflight.one
  have hcycling := countP_isCycling_le p.threads
  refine ⟨⟨by omega, hflight.progress⟩, hflight.soFar, ?_, fun pass => hflight.over, ?_, ?_, ?_, ?_⟩
  · intro pass org i earlier hsuffix
    exact (hrecord.at hsuffix).2.2.2 i rfl
  · intro pass org i earlier hsuffix
    exact (hrecord.at hsuffix).2.2.1
  · intro hstop
    apply hflight.going
    exact Bool.eq_false_iff.mpr (mt hflight.holds.store.stopped.mp hstop)
  · intro later earlier hevents
    rw [← hevents] at hrecord
    obtain ⟨hcalls, hreturns⟩ := after_stop hrecord
    have hbefore := calls_and_returns
      (hrecord.of_suffix ((suffix_cons _ earlier).trans (suffix_append later _)))
    exact ⟨hcalls, by omega, hreturns⟩
  · intro later earlier hevents
    rw [← hevents] at hrecord
    exact after_resolved hrecord

def sampleStopped : Driver := (startDetectionDriver.runTick 0 0).stop

def sampleEvents : List Event :=
  [.stop, .called 0 "org" 0, .listed 0 ["org"], .fired 0]

/-- `stop` during the first cycle of the first pass: it returns, and `stop` resolves after it. -/
theorem sample_stop_in_cycle :
    Run 1 ⟨(⟨true, some 0, some 0, [], 1, [0]⟩,
      [.resolved, .ended 0, .returned 0 "org" 0 5] ++ sampleEvents), [.settled, .resolved]⟩ ∧
    [Event.resolved, .ended 0, .returned 0 "org" 0 5].countP Event.isCall = 0 ∧
    [Event.resolved, .ended 0, .returned 0 "org" 0 5].countP Event.isReturn ≤ 1 := by
  have hspawn : Run 1 ⟨(startDetectionDriver, []), [.tick]⟩ := .single (.spawn (Or.inl rfl))
  have hfire : Run 1 ⟨(startDetectionDriver.runTick 0 0, [.fired 0]), [.listing]⟩ :=
    hspawn.tail (.act (i := 0) rfl ⟨_, .fire mem_cons_self, rfl⟩)
  have hlist : Run 1 ⟨(startDetectionDriver.runTick 0 0, [.listed 0 ["org"], .fired 0]),
      [.nextOrg ["org"]]⟩ := hfire.tail (.act (i := 0) rfl ⟨_, .listed ["org"], rfl⟩)
  have hcall : Run 1 ⟨(startDetectionDriver.runTick 0 0, sampleEvents.tail),
      [.cycling "org" 0 []]⟩ :=
    hlist.tail (.act (i := 0) rfl ⟨_, .call rfl (le_refl 1), rfl⟩)
  have hcaller : Run 1 ⟨(startDetectionDriver.runTick 0 0, sampleEvents.tail),
      [.cycling "org" 0 [], .stop]⟩ := hcall.tail (.spawn (Or.inr rfl))
  have hstop : Run 1 ⟨(sampleStopped, sampleEvents),
      [.cycling "org" 0 [], .awaiting (some 0)]⟩ :=
    hcaller.tail (.act (i := 1) rfl ⟨_, .stop, rfl⟩)
  have hreturn : Run 1 ⟨(sampleStopped, .returned 0 "org" 0 5 :: sampleEvents),
      [.cycled "org" 0 [] 5, .awaiting (some 0)]⟩ :=
    hstop.tail (.act (i := 0) rfl ⟨_, .returned 5, rfl⟩)
  have hdrained : Run 1 ⟨(sampleStopped, .returned 0 "org" 0 5 :: sampleEvents),
      [.nextOrg [], .awaiting (some 0)]⟩ :=
    hreturn.tail (.act (i := 0) rfl ⟨_, .drained (by decide), rfl⟩)
  have hended : Run 1 ⟨(sampleStopped, .ended 0 :: .returned 0 "org" 0 5 :: sampleEvents),
      [.ended, .awaiting (some 0)]⟩ := hdrained.tail (.act (i := 0) rfl ⟨_, .visited, rfl⟩)
  have hcaught : Run 1 ⟨(sampleStopped, .ended 0 :: .returned 0 "org" 0 5 :: sampleEvents),
      [.caught, .awaiting (some 0)]⟩ := hended.tail (.act (i := 0) rfl ⟨_, .caught, rfl⟩)
  have hscheduled : Run 1 ⟨(sampleStopped, .ended 0 :: .returned 0 "org" 0 5 :: sampleEvents),
      [.scheduled, .awaiting (some 0)]⟩ := hcaught.tail (.act (i := 0) rfl ⟨_, .scheduled, rfl⟩)
  have hsettled : Run 1 ⟨(⟨true, some 0, some 0, [], 1, [0]⟩,
      .ended 0 :: .returned 0 "org" 0 5 :: sampleEvents), [.settled, .awaiting (some 0)]⟩ :=
    hscheduled.tail (.act (i := 0) rfl ⟨_, .settled, rfl⟩)
  have hresolved : Run 1 ⟨(⟨true, some 0, some 0, [], 1, [0]⟩,
      [.resolved, .ended 0, .returned 0 "org" 0 5] ++ sampleEvents), [.settled, .resolved]⟩ :=
    hsettled.tail (.act (i := 1) rfl ⟨_, .resolved (by simp), rfl⟩)
  obtain ⟨-, -, -, -, -, -, hafter, -⟩ := driver_single_flight (le_refl 1) hresolved
  have hlater := hafter [.resolved, .ended 0, .returned 0 "org" 0 5] _ rfl
  exact ⟨hresolved, hlater.1, hlater.2.1⟩

end CyberGuard.Detect.Driving
