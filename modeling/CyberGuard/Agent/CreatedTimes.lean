import CyberGuard.Agent.Dispatch
import CyberGuard.Shared.Interleaving

/-!
# Creation times under sweeps

The dispatch keeps the time of a process's Launch by its pid, for the Terminate and the
network records of that pid. Sweeps of this cache run beside it. A sweep copies the cache,
asks about each pid without the lock, and then takes out the entries it was told are gone
and that are still as it copied them. Records of the same pid may be dispatched between
any two of these steps.
-/

namespace CyberGuard.Agent
set_option autoImplicit false
open Interleaving List

/-- A record for the dispatch, with what is made outside: the id and the instant of its event. -/
inductive Dispatch where
  | process (raw : RawProcessRecord) (eventId : Uuid) (now : Nat)
  | network (raw : RawNetworkRecord) (excludedPid : Option Nat) (eventId : Uuid) (now : Nat)

namespace Dispatch

def run : Dispatch → Capture → Capture
  | .process raw eventId now, c => dispatchRecord raw eventId now c
  | .network raw excludedPid eventId now, c => dispatchNetworkRecord raw excludedPid eventId now c

def filetime100ns : Dispatch → Int
  | .process raw _ _ => raw.filetime100ns
  | .network raw _ _ _ => raw.filetime100ns

def LaunchOf (pid nanos : Nat) : Dispatch → Prop
  | .process raw _ _ => raw.activityId = .launch ∧ raw.pid.toNat = pid ∧
      filetimeToUnixNanos raw.filetime100ns = some nanos
  | .network .. => False

def Concerns (pid : Nat) : Dispatch → Prop
  | .process raw _ _ => raw.pid.toNat = pid
  | .network .. => False

end Dispatch

/-- Where a sweep is. It has the answers for the first entries of its snapshot. -/
inductive Sweep where
  | start
  | asking (snapshot : List (Nat × Nat)) (answers : List Bool)
  | done (evicted : Nat)

def gone (snapshot : List (Nat × Nat)) (answers : List Bool) : List (Nat × Nat) :=
  ((snapshot.zip answers).filter fun asked => !asked.2).map Prod.fst

/-- The loop over the entries gone, with the number evicted. -/
def evict : List (Nat × Nat) → Capture → Capture × Nat
  | [], c => (c, 0)
  | (pid, time) :: gone, c =>
    if c.cache pid = some time then
      let (c', evicted) := evict gone (c.purgeCache pid)
      (c', evicted + 1)
    else evict gone c

def Enumerates (snapshot : List (Nat × Nat)) (cache : Nat → Option Nat) : Prop :=
  snapshot.Nodup ∧ ∀ pid time, (pid, time) ∈ snapshot ↔ cache pid = some time

/-- What the cache went through: the records dispatched, and the evictions with the entries they
looked for. -/
inductive Moment where
  | dispatch (d : Dispatch)
  | evict (gone : List (Nat × Nat))

structure Watched where
  capture : Capture
  history : List Moment

inductive SweepStep : Watched → Sweep → Watched → Sweep → Prop where
  | snapshot {w : Watched} {snapshot : List (Nat × Nat)} : Enumerates snapshot w.capture.cache →
      SweepStep w .start w (.asking snapshot [])
  | answer {w : Watched} {snapshot : List (Nat × Nat)} {answers : List Bool} (isAlive : Bool) :
      answers.length < snapshot.length →
      SweepStep w (.asking snapshot answers) w (.asking snapshot (answers ++ [isAlive]))
  | evict {w : Watched} {snapshot : List (Nat × Nat)} {answers : List Bool} :
      answers.length = snapshot.length →
      SweepStep w (.asking snapshot answers)
        ⟨(evict (gone snapshot answers) w.capture).1,
          w.history ++ [.evict (gone snapshot answers)]⟩
        (.done (evict (gone snapshot answers) w.capture).2)

/-- Records are dispatched one at a time; whatever else is done to the ring leaves the cache. -/
inductive CaptureStep : Watched → Watched → Prop where
  | dispatch {w : Watched} (d : Dispatch) :
      CaptureStep w ⟨d.run w.capture, w.history ++ [.dispatch d]⟩
  | ring {w : Watched} (ring : EventRing) :
      CaptureStep w ⟨{ w.capture with ring := ring }, w.history⟩

def sweeping : Program Watched Sweep where
  start := fun _ pc => pc = .start
  act := fun _ => SweepStep
  env := CaptureStep

/-- `after` is the end of the history from the Launch of the pid at this time on, and no later
Launch or Terminate of the pid is in it. -/
def Since (history : List Moment) (pid nanos : Nat) (after : List Moment) : Prop :=
  ∃ before d, history = before ++ .dispatch d :: after ∧ d.LaunchOf pid nanos ∧
    ∀ d', .dispatch d' ∈ after → ¬ d'.Concerns pid

/-- The Launch since which no eviction looked for its entry. -/
def Held (history : List Moment) (pid nanos : Nat) : Prop :=
  ∃ after, Since history pid nanos after ∧
    ∀ entries, .evict entries ∈ after → (pid, nanos) ∉ entries

section history
variable {history : List Moment} {pid nanos : Nat}

/-- Where a list that was added to is split: at its last element or before it. -/
theorem concat_eq_append_cons {α : Type} {l before after : List α} {last x : α} :
    l ++ [last] = before ++ x :: after ↔
      (l = before ∧ last = x ∧ after = []) ∨
        ∃ after', after = after' ++ [last] ∧ l = before ++ x :: after' := by
  constructor
  · intro h
    rcases eq_nil_or_concat after with rfl | ⟨after', y, rfl⟩
    · obtain ⟨rfl, hlast⟩ := append_inj' h rfl
      exact Or.inl ⟨rfl, by simpa using hlast, rfl⟩
    · rw [concat_eq_append, ← cons_append, ← append_assoc] at h
      obtain ⟨rfl, hlast⟩ := append_inj' h rfl
      obtain rfl : last = y := by simpa using hlast
      exact Or.inr ⟨after', concat_eq_append .., rfl⟩
  · rintro (⟨rfl, rfl, rfl⟩ | ⟨after', rfl, rfl⟩)
    · rfl
    · simp

theorem since_concat {m : Moment} {after : List Moment} :
    Since (history ++ [m]) pid nanos after ↔
      (∃ d, m = .dispatch d ∧ d.LaunchOf pid nanos ∧ after = []) ∨
        ∃ after', after = after' ++ [m] ∧ Since history pid nanos after' ∧
          ∀ d, m = .dispatch d → ¬ d.Concerns pid := by
  constructor
  · rintro ⟨before, d, hsplit, hlaunch, hlast⟩
    rcases concat_eq_append_cons.mp hsplit with ⟨_, rfl, rfl⟩ | ⟨after', rfl, rfl⟩
    · exact Or.inl ⟨d, rfl, hlaunch, rfl⟩
    · refine Or.inr ⟨after', rfl, ⟨before, d, rfl, hlaunch, ?_⟩, ?_⟩
      · intro d' hd'
        exact hlast d' (mem_append_left _ hd')
      · rintro d' rfl
        exact hlast d' mem_concat_self
  · rintro (⟨d, rfl, hlaunch, rfl⟩ | ⟨after', rfl, ⟨before, d, rfl, hlaunch, hlast⟩, hm⟩)
    · exact ⟨history, d, rfl, hlaunch, by simp⟩
    · refine ⟨before, d, by simp, hlaunch, ?_⟩
      intro d' hd'
      rcases mem_append.mp hd' with hold | hnew
      · exact hlast d' hold
      · exact hm d' (mem_singleton.mp hnew).symm

/-- The last Launch is held after a record exactly when the record is that Launch, or does not
concern the pid and the Launch was held before. -/
theorem held_dispatch {d : Dispatch} : Held (history ++ [.dispatch d]) pid nanos ↔
    d.LaunchOf pid nanos ∨ (¬ d.Concerns pid ∧ Held history pid nanos) := by
  constructor
  · rintro ⟨after, hsince, hkept⟩
    rcases since_concat.mp hsince with ⟨d', hd', hlaunch, _⟩ | ⟨after', rfl, hsince', hnot⟩
    · cases hd'
      exact Or.inl hlaunch
    · refine Or.inr ⟨hnot d rfl, after', hsince', ?_⟩
      intro entries hentries
      exact hkept entries (mem_append_left _ hentries)
  · rintro (hlaunch | ⟨hnot, after, hsince, hkept⟩)
    · exact ⟨[], since_concat.mpr (Or.inl ⟨d, rfl, hlaunch, rfl⟩), by simp⟩
    · refine ⟨after ++ [.dispatch d], since_concat.mpr (Or.inr ⟨after, rfl, hsince, ?_⟩), ?_⟩
      · rintro d' ⟨⟩
        exact hnot
      · intro entries hentries
        exact hkept entries (by simpa using hentries)

theorem held_evict {entries : List (Nat × Nat)} : Held (history ++ [.evict entries]) pid nanos ↔
    Held history pid nanos ∧ (pid, nanos) ∉ entries := by
  constructor
  · rintro ⟨after, hsince, hkept⟩
    rcases since_concat.mp hsince with ⟨d', hd', _⟩ | ⟨after', rfl, hsince', _⟩
    · cases hd'
    · refine ⟨⟨after', hsince', ?_⟩, hkept entries mem_concat_self⟩
      intro entries' hentries'
      exact hkept entries' (mem_append_left _ hentries')
  · rintro ⟨⟨after, hsince, hkept⟩, hnot⟩
    refine ⟨after ++ [.evict entries], since_concat.mpr (Or.inr ⟨after, rfl, hsince, ?_⟩), ?_⟩
    · rintro d ⟨⟩
    · intro entries' hentries'
      rcases mem_append.mp hentries' with hold | hnew
      · exact hkept entries' hold
      · cases mem_singleton.mp hnew
        exact hnot

end history

section cache
variable {c : Capture} {pid nanos : Nat}

theorem filetimeToUnixNanos_isSome {filetime100ns : Int}
    (h : filetimeToUnix100ns ≤ filetime100ns) :
    (filetimeToUnixNanos filetime100ns).isSome = true := by
  unfold filetimeToUnixNanos
  rw [if_neg (by omega), if_neg (by omega)]
  rfl

theorem dispatchRecord_launch {raw : RawProcessRecord} (eventId : Uuid) (now : Nat)
    (hactivity : raw.activityId = .launch)
    (hnanos : filetimeToUnixNanos raw.filetime100ns = some nanos) :
    dispatchRecord raw eventId now c = (c.insertCache raw.pid.toNat nanos).enqueueOrDrop now
      (.process (capturedEvent raw eventId nanos (some nanos))) := by
  simp only [dispatchRecord, hnanos, hactivity]

theorem dispatchRecord_terminate {raw : RawProcessRecord} (eventId : Uuid) (now : Nat)
    (hactivity : raw.activityId = .terminate)
    (hnanos : filetimeToUnixNanos raw.filetime100ns = some nanos) :
    dispatchRecord raw eventId now c = (c.purgeCache raw.pid.toNat).enqueueOrDrop now
      (.process (capturedEvent raw eventId nanos (c.cache raw.pid.toNat))) := by
  simp only [dispatchRecord, hnanos, hactivity]

theorem cache_dispatchNetworkRecord (raw : RawNetworkRecord) (excludedPid : Option Nat)
    (eventId : Uuid) (now : Nat) :
    (dispatchNetworkRecord raw excludedPid eventId now c).cache = c.cache := by
  unfold dispatchNetworkRecord
  repeat' split
  all_goals rfl

/-- After a record the cache holds a time exactly when the record is the Launch at that time, or
does not concern the pid and the time was held before. -/
theorem Dispatch.cache_run {d : Dispatch} (h : filetimeToUnix100ns ≤ d.filetime100ns) :
    (d.run c).cache pid = some nanos ↔
      d.LaunchOf pid nanos ∨ (¬ d.Concerns pid ∧ c.cache pid = some nanos) := by
  cases d with
  | process raw eventId now =>
    obtain ⟨time, htime⟩ := Option.isSome_iff_exists.mp (filetimeToUnixNanos_isSome h)
    change filetimeToUnixNanos raw.filetime100ns = some time at htime
    simp only [run, LaunchOf, Concerns]
    cases hactivity : raw.activityId with
    | launch =>
      rw [dispatchRecord_launch eventId now hactivity htime, htime]
      by_cases hpid : pid = raw.pid.toNat
      · simp [Capture.insertCache, Capture.enqueueOrDrop, hpid]
      · simp [Capture.insertCache, Capture.enqueueOrDrop, hpid, Ne.symm hpid]
    | terminate =>
      rw [dispatchRecord_terminate eventId now hactivity htime]
      by_cases hpid : pid = raw.pid.toNat
      · simp [Capture.purgeCache, Capture.enqueueOrDrop, hpid]
      · simp [Capture.purgeCache, Capture.enqueueOrDrop, hpid, Ne.symm hpid]
  | network raw excludedPid eventId now =>
    change (dispatchNetworkRecord raw excludedPid eventId now c).cache pid = _ ↔ _
    rw [cache_dispatchNetworkRecord]
    simp [LaunchOf, Concerns]

/-- What an eviction leaves: the entries it did not look for. -/
theorem cache_evict (gone : List (Nat × Nat)) :
    (evict gone c).1.cache pid = some nanos ↔ c.cache pid = some nanos ∧ (pid, nanos) ∉ gone := by
  induction gone generalizing c with
  | nil => simp [evict]
  | cons entry gone ih =>
    obtain ⟨pid', time⟩ := entry
    unfold evict
    split
    · rename_i hentry
      change (evict gone (c.purgeCache pid')).1.cache pid = some nanos ↔ _
      rw [ih]
      by_cases hpid : pid = pid'
      · subst hpid
        simp only [Capture.purgeCache, if_true, hentry, mem_cons, Prod.mk.injEq, true_and]
        constructor
        · rintro ⟨⟨⟩, _⟩
        · rintro ⟨htime, hnot⟩
          exact absurd (Or.inl (Option.some.inj htime).symm) hnot
      · simp [Capture.purgeCache, hpid]
    · rename_i hentry
      rw [ih]
      have hne : c.cache pid = some nanos → (pid, nanos) ≠ (pid', time) := by
        rintro hnanos ⟨⟩
        exact hentry hnanos
      rw [mem_cons, not_or]
      tauto

variable {snapshot : List (Nat × Nat)}

theorem mem_gone {answers : List Bool} {entry : Nat × Nat} :
    entry ∈ gone snapshot answers ↔
      ∃ i : Nat, snapshot[i]? = some entry ∧ answers[i]? = some false := by
  unfold gone
  constructor
  · intro h
    obtain ⟨asked, hasked, rfl⟩ := mem_map.mp h
    obtain ⟨hmem, hfalse⟩ := mem_filter.mp hasked
    obtain ⟨i, hi⟩ := mem_iff_getElem?.mp hmem
    obtain ⟨hentry, hanswer⟩ := List.getElem?_zip_eq_some.mp hi
    rw [(Bool.not_eq_true' asked.2).mp hfalse] at hanswer
    exact ⟨i, hentry, hanswer⟩
  · rintro ⟨i, hentry, hanswer⟩
    refine mem_map.mpr ⟨(entry, false), mem_filter.mpr ⟨?_, rfl⟩, rfl⟩
    exact mem_of_getElem? (List.getElem?_zip_eq_some.mpr ⟨hentry, hanswer⟩)

theorem Enumerates.insertCache (h : Enumerates snapshot c.cache) (pid nanos : Nat) :
    Enumerates ((pid, nanos) :: snapshot.filter fun entry => entry.1 ≠ pid)
      (c.insertCache pid nanos).cache := by
  refine ⟨nodup_cons.mpr ⟨by simp, h.1.filter _⟩, ?_⟩
  intro pid' time
  by_cases hpid : pid' = pid
  · simp [Capture.insertCache, hpid, eq_comm]
  · simp [Capture.insertCache, hpid, h.2]

theorem Enumerates.purgeCache (h : Enumerates snapshot c.cache) (pid : Nat) :
    Enumerates (snapshot.filter fun entry => entry.1 ≠ pid)
      (c.purgeCache pid).cache := by
  refine ⟨h.1.filter _, ?_⟩
  intro pid' time
  by_cases hpid : pid' = pid
  · simp [Capture.purgeCache, hpid]
  · simp [Capture.purgeCache, hpid, h.2]

theorem exists_enumerates_run (h : ∃ snapshot, Enumerates snapshot c.cache) (d : Dispatch) :
    ∃ snapshot, Enumerates snapshot (d.run c).cache := by
  obtain ⟨snapshot, hsnapshot⟩ := h
  cases d with
  | process raw eventId now =>
    change ∃ snapshot, Enumerates snapshot (dispatchRecord raw eventId now c).cache
    cases hnanos : filetimeToUnixNanos raw.filetime100ns with
    | none =>
      refine ⟨snapshot, ?_⟩
      simp only [dispatchRecord, hnanos]
      exact hsnapshot
    | some nanos =>
      cases hactivity : raw.activityId with
      | launch =>
        rw [dispatchRecord_launch eventId now hactivity hnanos]
        exact ⟨_, hsnapshot.insertCache raw.pid.toNat nanos⟩
      | terminate =>
        rw [dispatchRecord_terminate eventId now hactivity hnanos]
        exact ⟨_, hsnapshot.purgeCache raw.pid.toNat⟩
  | network raw excludedPid eventId now =>
    change ∃ snapshot, Enumerates snapshot (dispatchNetworkRecord raw excludedPid eventId now c).cache
    rw [cache_dispatchNetworkRecord]
    exact ⟨snapshot, hsnapshot⟩

theorem exists_enumerates_evict (gone : List (Nat × Nat))
    (h : ∃ snapshot, Enumerates snapshot c.cache) :
    ∃ snapshot, Enumerates snapshot (evict gone c).1.cache := by
  induction gone generalizing c with
  | nil => exact h
  | cons entry gone ih =>
    obtain ⟨snapshot, hsnapshot⟩ := h
    unfold evict
    split
    · exact ih ⟨_, hsnapshot.purgeCache entry.1⟩
    · exact ih ⟨snapshot, hsnapshot⟩

end cache

def Watched.FromEpoch (w : Watched) : Prop :=
  ∀ d, .dispatch d ∈ w.history → filetimeToUnix100ns ≤ d.filetime100ns

/-- The cache holds exactly the Launches that the history tells. -/
structure Tracks (sweeps : Nat) (w : Watched) : Prop where
  held : w.FromEpoch → ∀ pid nanos, w.capture.cache pid = some nanos ↔ Held w.history pid nanos
  finite : ∃ snapshot, Enumerates snapshot w.capture.cache
  quiet : sweeps = 0 → ∀ entries, .evict entries ∉ w.history

def Sweep.Copied (w : Watched) : Sweep → Prop
  | .asking snapshot _ => w.FromEpoch → ∃ before, before <+: w.history ∧
      ∀ pid nanos, (pid, nanos) ∈ snapshot ↔ Held before pid nanos
  | _ => True

variable {w w' : Watched} {sweep sweep' : Sweep} {n : Nat} {c : Capture}

theorem Sweep.Copied.mono (h : sweep.Copied w) (hhistory : w.history <+: w'.history) :
    sweep.Copied w' := by
  cases sweep with
  | asking snapshot answers =>
    intro hepoch
    obtain ⟨before, hbefore, hheld⟩ := h fun d hd => hepoch d (hhistory.subset hd)
    exact ⟨before, hbefore.trans hhistory, hheld⟩
  | start | done => exact trivial

theorem CaptureStep.tracks (htracks : Tracks n w) (h : CaptureStep w w') : Tracks n w' := by
  cases h with
  | ring ring => exact ⟨htracks.held, htracks.finite, htracks.quiet⟩
  | dispatch d =>
    refine ⟨?_, exists_enumerates_run htracks.finite d, ?_⟩
    · intro hepoch pid nanos
      have hbefore : w.FromEpoch := fun d' hd' => hepoch d' (mem_append_left _ hd')
      rw [Dispatch.cache_run (hepoch d mem_concat_self), held_dispatch,
        htracks.held hbefore pid nanos]
    · intro hn entries hentries
      exact htracks.quiet hn entries (by simpa using hentries)

theorem CaptureStep.history_prefix (h : CaptureStep w w') :
    w.history <+: w'.history := by
  cases h with
  | ring ring => exact prefix_rfl
  | dispatch d => exact prefix_append _ _

theorem SweepStep.history_prefix (h : SweepStep w sweep w' sweep') : w.history <+: w'.history := by
  cases h with
  | snapshot | answer => exact prefix_rfl
  | evict => exact prefix_append _ _

theorem SweepStep.tracks {i : Nat} (hi : i < n) (htracks : Tracks n w)
    (h : SweepStep w sweep w' sweep') : Tracks n w' := by
  cases h with
  | snapshot => exact htracks
  | answer => exact htracks
  | evict hall =>
    refine ⟨?_, exists_enumerates_evict _ htracks.finite, fun hn => by omega⟩
    intro hepoch pid nanos
    have hbefore : w.FromEpoch := fun d hd => hepoch d (mem_append_left _ hd)
    rw [cache_evict, held_evict, htracks.held hbefore pid nanos]

theorem SweepStep.copied (htracks : Tracks n w) (hcopied : sweep.Copied w)
    (h : SweepStep w sweep w' sweep') :
    sweep'.Copied w' := by
  cases h with
  | snapshot hsnapshot =>
    intro hepoch
    refine ⟨w.history, prefix_rfl, ?_⟩
    intro pid nanos
    rw [hsnapshot.2, htracks.held hepoch]
  | answer => exact hcopied
  | evict => exact trivial

theorem sweeping_outline :
    Outline sweeping (fun n w => Tracks n w) (fun _ w sweep => sweep.Copied w) where
  spawn := by
    rintro n w pc htracks rfl
    exact ⟨⟨htracks.held, htracks.finite, fun hn => by omega⟩, trivial⟩
  self := by
    intro n i w sweep w' sweep' hi htracks hcopied h
    exact ⟨h.tracks hi htracks, h.copied htracks hcopied⟩
  other := by
    intro n i j w sweep w' sweep' other _ _ _ hother h
    exact hother.mono h.history_prefix
  env := by
    intro n w w' htracks h
    exact ⟨h.tracks htracks, fun i sweep hcopied => hcopied.mono h.history_prefix⟩

theorem Run.tracks {p : Pool Watched Sweep} (hempty : ∀ pid, c.cache pid = none)
    (h : Run sweeping ⟨⟨c, []⟩, []⟩ p) :
    Holds (fun n w => Tracks n w) (fun _ w sweep => sweep.Copied w) p := by
  refine sweeping_outline.run (Holds.initial ⟨?_, ⟨[], nodup_nil, ?_⟩, ?_⟩) h
  · intro _ pid nanos
    simp [hempty, Held, Since]
  · simp [hempty]
  · simp

/-- What an event may say of the creation of its process: the time of the last Launch of the pid,
with no Terminate after it, or nothing where there is no such Launch or a sweep looked for it. -/
structure Attributed (history : List Moment) (pid : Nat) (created : Option Nat) : Prop where
  recent : ∀ nanos, created = some nanos → ∃ after, Since history pid nanos after
  missing : created = none → ∀ nanos after, Since history pid nanos after →
    ∃ entries, .evict entries ∈ after ∧ (pid, nanos) ∈ entries

theorem Tracks.attributed (h : Tracks n w) (hepoch : w.FromEpoch) (pid : Nat) :
    Attributed w.history pid (w.capture.cache pid) := by
  constructor
  · intro nanos hnanos
    obtain ⟨after, hsince, _⟩ := (h.held hepoch pid nanos).mp hnanos
    exact ⟨after, hsince⟩
  · intro hnone nanos after hsince
    by_contra hkept
    have hheld : w.capture.cache pid = some nanos := by
      refine (h.held hepoch pid nanos).mpr ⟨after, hsince, ?_⟩
      intro entries hentries hmem
      exact hkept ⟨entries, hentries, hmem⟩
    rw [hnone] at hheld
    cases hheld

theorem decodeConnection_spec {raw : RawNetworkRecord} {connection : DecodedConnection}
    (h : decodeConnection raw = some connection) :
    (connectionDirection raw.eventId).isNone = false ∧ decodePid raw.pid = some connection.pid := by
  unfold decodeConnection at h
  obtain ⟨direction, hdirection, h⟩ := Option.bind_eq_some_iff.mp h
  obtain ⟨pid, hpid, h⟩ := Option.bind_eq_some_iff.mp h
  obtain ⟨saddr, _, h⟩ := Option.bind_eq_some_iff.mp h
  obtain ⟨sport, _, h⟩ := Option.bind_eq_some_iff.mp h
  obtain ⟨daddr, _, h⟩ := Option.bind_eq_some_iff.mp h
  obtain ⟨dport, _, h⟩ := Option.bind_eq_some_iff.mp h
  refine ⟨by rw [hdirection]; rfl, ?_⟩
  rw [hpid]
  cases direction with
  | outbound | inbound =>
    cases h
    rfl

theorem dispatchNetworkRecord_decoded {raw : RawNetworkRecord} {connection : DecodedConnection}
    {excludedPid : Option Nat} {nanos : Nat} (eventId : Uuid) (now : Nat)
    (hdecoded : decodeConnection raw = some connection)
    (hexcluded : excludedPid ≠ some connection.pid)
    (hnanos : filetimeToUnixNanos raw.filetime100ns = some nanos) :
    dispatchNetworkRecord raw excludedPid eventId now c = c.enqueueOrDrop now
      (.network (networkEvent connection eventId nanos (c.cache connection.pid))) := by
  obtain ⟨hdirection, hpid⟩ := decodeConnection_spec hdecoded
  have hother : (excludedPid.isSome && decodePid raw.pid == excludedPid) = false := by
    rw [hpid]
    cases excludedPid with
    | none => rfl
    | some pid =>
      have hne : connection.pid ≠ pid := fun heq => hexcluded (by rw [heq])
      simp [hne]
  simp only [dispatchNetworkRecord, hdirection, hother, hdecoded, hnanos, Bool.false_eq_true,
    if_false]

theorem SweepStep.removed {pid nanos : Nat} (h : SweepStep w sweep w' sweep')
    (hheld : w.capture.cache pid = some nanos) (hremoved : w'.capture.cache pid ≠ some nanos) :
    ∃ snapshot answers, ∃ i : Nat, sweep = .asking snapshot answers ∧
      snapshot[i]? = some (pid, nanos) ∧ answers[i]? = some false := by
  cases h with
  | snapshot | answer => exact absurd hheld hremoved
  | evict hall =>
    rw [ne_eq, cache_evict, not_and, not_not] at hremoved
    obtain ⟨i, hentry, hanswer⟩ := mem_gone.mp (hremoved hheld)
    exact ⟨_, _, i, rfl, hentry, hanswer⟩

/-- Whatever sweeps run beside the dispatch of records from 1970 on: the creation time of a
Terminate or a network event is that of the last Launch of its pid, with no Terminate after it, or
missing; it is missing only where there is no such Launch or a sweep has looked for its entry
since. What a sweep takes out, the cache held when the sweep copied it, and the process was said
to be gone. -/
theorem attribution_survives_sweeps {c : Capture} {p : Pool Watched Sweep}
    (hempty : ∀ pid, c.cache pid = none) (hrun : Run sweeping ⟨⟨c, []⟩, []⟩ p)
    (hepoch : p.store.FromEpoch) :
    (∀ raw eventId now nanos, raw.activityId = .terminate →
      filetimeToUnixNanos raw.filetime100ns = some nanos →
      ∃ created, dispatchRecord raw eventId now p.store.capture =
          (p.store.capture.purgeCache raw.pid.toNat).enqueueOrDrop now
            (.process (capturedEvent raw eventId nanos created)) ∧
        Attributed p.store.history raw.pid.toNat created) ∧
    (∀ raw excludedPid eventId now nanos connection, decodeConnection raw = some connection →
      excludedPid ≠ some connection.pid → filetimeToUnixNanos raw.filetime100ns = some nanos →
      ∃ created, dispatchNetworkRecord raw excludedPid eventId now p.store.capture =
          p.store.capture.enqueueOrDrop now
            (.network (networkEvent connection eventId nanos created)) ∧
        Attributed p.store.history connection.pid created) ∧
    (∀ (i : Nat) sweep w' sweep' pid nanos, p.threads[i]? = some sweep →
      SweepStep p.store sweep w' sweep' → p.store.capture.cache pid = some nanos →
      w'.capture.cache pid ≠ some nanos →
      ∃ snapshot answers, ∃ k : Nat, sweep = .asking snapshot answers ∧
        snapshot[k]? = some (pid, nanos) ∧ answers[k]? = some false ∧
        ∃ before, before <+: p.store.history ∧ Held before pid nanos) ∧
    (p.threads = [] → ∀ entries, .evict entries ∉ p.store.history) := by
  have hholds := Run.tracks hempty hrun
  refine ⟨?_, ?_, ?_, ?_⟩
  · intro raw eventId now nanos hactivity hnanos
    exact ⟨_, dispatchRecord_terminate eventId now hactivity hnanos,
      hholds.store.attributed hepoch _⟩
  · intro raw excludedPid eventId now nanos connection hdecoded hexcluded hnanos
    exact ⟨_, dispatchNetworkRecord_decoded eventId now hdecoded hexcluded hnanos,
      hholds.store.attributed hepoch _⟩
  · intro i sweep w' sweep' pid nanos hi hstep hheld hremoved
    obtain ⟨snapshot, answers, k, rfl, hentry, hanswer⟩ := hstep.removed hheld hremoved
    obtain ⟨before, hbefore, hcopied⟩ := hholds.thread i _ hi hepoch
    exact ⟨snapshot, answers, k, rfl, hentry, hanswer, before, hbefore,
      (hcopied pid nanos).mp (mem_of_getElem? hentry)⟩
  · intro hthreads
    exact hholds.store.quiet (by rw [hthreads]; rfl)

def reusedPid (activityId : ActivityId) (ticks : Int) : RawProcessRecord where
  activityId := activityId
  pid := 4
  parentPid := 1
  imageFileName := "cmd.exe"
  commandLine := ""
  subjectUserSid := "S-1-5-18"
  filetime100ns := filetimeToUnix100ns + ticks
  exitStatus := none

theorem length_zeroes : (List.replicate 16 (0 : UInt8)).length = 16 := rfl

def zeroUuid : Uuid := ⟨List.replicate 16 0, length_zeroes⟩

def launchAt (ticks : Int) : Dispatch := .process (reusedPid .launch ticks) zeroUuid 0

def nothingCaptured : Capture := ⟨fun _ => none, EventRing.new 8, 0, 0⟩

def launchedOnce : Watched := ⟨(launchAt 1).run nothingCaptured, [.dispatch (launchAt 1)]⟩

def launchedTwice : Watched :=
  ⟨(launchAt 2).run launchedOnce.capture, launchedOnce.history ++ [.dispatch (launchAt 2)]⟩

/-- The pid is launched again between the answer and the eviction, which then takes nothing out. -/
theorem reused_pid_attributed : ∃ p, Run sweeping ⟨⟨nothingCaptured, []⟩, []⟩ p ∧
    p.threads = [.done 0] ∧
    ∃ created, dispatchRecord (reusedPid .terminate 3) zeroUuid 0 p.store.capture =
        (p.store.capture.purgeCache 4).enqueueOrDrop 0
          (.process (capturedEvent (reusedPid .terminate 3) zeroUuid 300 created)) ∧
      Attributed p.store.history 4 created := by
  have hsnapshot : Enumerates [(4, 100)] launchedOnce.capture.cache :=
    Enumerates.insertCache (c := nothingCaptured)
      ⟨nodup_nil, by simp [nothingCaptured]⟩ 4 100
  have hlaunched : Run sweeping ⟨⟨nothingCaptured, []⟩, []⟩ ⟨launchedOnce, []⟩ :=
    .single (.env (.dispatch (launchAt 1)))
  have hstarted : Interleaving.Step sweeping ⟨launchedOnce, []⟩ ⟨launchedOnce, [.start]⟩ :=
    .spawn (show sweeping.start launchedOnce .start from rfl)
  have hcopied : Interleaving.Step sweeping ⟨launchedOnce, [.start]⟩ ⟨launchedOnce, [.asking [(4, 100)] []]⟩ :=
    .act (i := 0) rfl (SweepStep.snapshot hsnapshot)
  have hasked : Interleaving.Step sweeping ⟨launchedOnce, [.asking [(4, 100)] []]⟩
      ⟨launchedOnce, [.asking [(4, 100)] [false]]⟩ :=
    .act (i := 0) rfl (SweepStep.answer false (by decide))
  have hreused : Interleaving.Step sweeping ⟨launchedOnce, [.asking [(4, 100)] [false]]⟩
      ⟨launchedTwice, [.asking [(4, 100)] [false]]⟩ :=
    .env (.dispatch (launchAt 2))
  have hevicted : Interleaving.Step sweeping ⟨launchedTwice, [.asking [(4, 100)] [false]]⟩
      ⟨⟨launchedTwice.capture, launchedTwice.history ++ [.evict [(4, 100)]]⟩, [.done 0]⟩ :=
    .act (i := 0) rfl (SweepStep.evict rfl)
  have hrun := ((((hlaunched.tail hstarted).tail hcopied).tail hasked).tail hreused).tail hevicted
  refine ⟨_, hrun, rfl, ?_⟩
  refine (attribution_survives_sweeps (fun _ => rfl) hrun ?_).1 (reusedPid .terminate 3)
    zeroUuid 0 300 rfl rfl
  intro d hd
  have hlaunch : d = launchAt 1 ∨ d = launchAt 2 := by
    simpa [launchedTwice, launchedOnce] using hd
  rcases hlaunch with rfl | rfl
  · decide
  · decide

end CyberGuard.Agent
