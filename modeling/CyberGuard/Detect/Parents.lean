import CyberGuard.Shared.JoinedFields
import CyberGuard.Accepted.Texts
import CyberGuard.Detect.EventTimes

/-!
# Parents, child by child

`resolveParents` reads the Launches and the Terminates of a whole batch at once. What it
returns for a child is what a search of the table for that child alone gives: the most
recent Launch of the parent's pid in the look-back, unless its process ended before. So
the other children of the batch do not count.
-/

namespace CyberGuard.Detect
set_option autoImplicit false
open TextPatterns OrderedRead ReplacingTable JoinedFields CyberGuard.Ingest List
  CyberGuard.Ingest.Heartbeat
open CyberGuard.Ingest.EventSchema (uuidPattern)

/-- The Process Activity rows of the org that a read with `FINAL` shows. -/
def processEvents (c : DetectConfig) (rows : List StoredRow) : List StoredRow :=
  (final StoredRow.key StoredRow.arrivedAt rows).filter fun stored => Observed c stored

/-- What `resolveParents` returns, with the reads it makes: none where no child names a
parent, and none of the Terminates where no candidate has a `process_uid`. -/
inductive ParentsResolved (c : DetectConfig) (rows children : List StoredRow) :
    Option (List (Option String)) → Prop where
  | noParent : spanOf children = none →
      ParentsResolved c rows children (some (children.map fun _ => none))
  | noUid {span : Span} {launches : List LaunchRow} : spanOf children = some span →
      LaunchesRead c rows span launches → candidateUids launches = [] →
      ParentsResolved c rows children (resolveParents launches [] children)
  | read {span : Span} {launches : List LaunchRow} {terminates : List TerminateRow} :
      spanOf children = some span → LaunchesRead c rows span launches →
      candidateUids launches ≠ [] → TerminatesRead c rows span launches terminates →
      ParentsResolved c rows children (resolveParents launches terminates children)

section parent
variable (nanos : StoredRow → Int) (events : List StoredRow) (child : StoredRow)

def lookback : Int := 86400 * 10 ^ 9

def parentLaunches (pid : Nat) : List StoredRow :=
  events.filter fun e => e.row.activityId = 1 ∧ e.row.agentId = child.row.agentId ∧
    e.row.processPid = pid ∧ nanos child - lookback ≤ nanos e ∧ nanos e ≤ nanos child

def mostRecent : List StoredRow → Option StoredRow
  | [] => none
  | e :: rest =>
    match mostRecent rest with
    | none => some e
    | some latest => if nanos latest < nanos e then some e else some latest

def EndedBefore (launch : StoredRow) : Prop :=
  launch.row.processUid ≠ "" ∧ ∃ t ∈ events, t.row.activityId = 2 ∧
    t.row.agentId = launch.row.agentId ∧ t.row.processUid = launch.row.processUid ∧
    nanos t < nanos child

instance (launch : StoredRow) : Decidable (EndedBefore nanos events child launch) :=
  inferInstanceAs (Decidable (_ ∧ _))

def parentOf : Option String := do
  let pid ← child.row.processParentPid
  let launch ← mostRecent nanos (parentLaunches nanos events child pid)
  if EndedBefore nanos events child launch then none else some launch.row.imageFileName

variable {nanos}

theorem mostRecent_eq_none {launches : List StoredRow} (h : mostRecent nanos launches = none) :
    launches = [] := by
  cases launches with
  | nil => rfl
  | cons e rest =>
    rw [mostRecent] at h
    split at h
    · cases h
    · split at h
      · cases h
      · cases h

theorem mostRecent_spec {launches : List StoredRow} {latest : StoredRow}
    (h : mostRecent nanos launches = some latest) :
    latest ∈ launches ∧ ∀ e ∈ launches, nanos e ≤ nanos latest := by
  induction launches generalizing latest with
  | nil => cases h
  | cons e rest ih =>
    rw [mostRecent] at h
    split at h
    · next hnone =>
      cases h
      rw [mostRecent_eq_none hnone]
      simp
    · next later hlater =>
      obtain ⟨hmem, hall⟩ := ih hlater
      split at h
      · next hlt =>
        cases h
        refine ⟨mem_cons_self, ?_⟩
        intro e' he'
        rcases mem_cons.mp he' with rfl | hrest
        · exact le_refl _
        · have hle := hall e' hrest
          omega
      · next hge =>
        cases h
        refine ⟨mem_cons_of_mem _ hmem, ?_⟩
        intro e' he'
        rcases mem_cons.mp he' with rfl | hrest
        · omega
        · exact hall e' hrest

end parent

variable {agentId earliest : String} {children rows : List StoredRow} {span : Span}
  {c : DetectConfig} {launches : List LaunchRow}

theorem notMem_uuid (h : test uuidPattern agentId = true) {c : Char}
    (hc : c ∉ letters uuidPattern) :
    c ∉ agentId.toList :=
  fun hmem => hc (mem_letters (test_iff.mp h) hmem)

theorem processKey_inj {agentId' : String} {pid pid' : Nat} :
    processKey agentId pid = processKey agentId' pid' ↔ agentId = agentId' ∧ pid = pid' := by
  constructor
  · intro h
    have hdigits (n : Nat) : ':' ∉ (toString n).toList := by
      intro hmem
      rw [Nat.toString_eq_ofList_toDigits, String.toList_ofList] at hmem
      have hdigit := toDigits_forall (by decide) (fun _ hd => digitChar_mem hd) n ':' hmem
      exact absurd hdigit (by decide)
    have hlist := congrArg String.toList h
    simp only [processKey, String.toList_append, append_assoc] at hlist
    obtain ⟨hagent, hpid⟩ := last_field (hdigits pid) (hdigits pid') hlist
    have hvalue := congrArg bigInt (String.toList_inj.mp hpid)
    rw [bigInt_toString, bigInt_toString] at hvalue
    exact ⟨String.toList_inj.mp hagent, Option.some.inj hvalue⟩
  · rintro ⟨rfl, rfl⟩
    rfl

theorem uidKey_inj {agentId' uid uid' : String} (h : test uuidPattern agentId = true)
    (h' : test uuidPattern agentId' = true) :
    uidKey agentId uid = uidKey agentId' uid' ↔ agentId = agentId' ∧ uid = uid' := by
  constructor
  · intro heq
    have hlist := congrArg String.toList heq
    simp only [uidKey, String.toList_append, append_assoc] at hlist
    have hslash : '/' ∉ letters uuidPattern := by decide +kernel
    obtain ⟨hagent, huid⟩ := first_field (notMem_uuid h hslash) (notMem_uuid h' hslash) hlist
    exact ⟨String.toList_inj.mp hagent, String.toList_inj.mp huid⟩
  · rintro ⟨rfl, rfl⟩
    rfl

/-- The earliest end that was read is before a time if one of those of its key is. -/
theorem firstTerminate_lt_iff (terminates : List TerminateRow) (key time : String) :
    (∃ first, firstTerminate terminates key = some first ∧ first < time) ↔
      ∃ t ∈ terminates, uidKey t.agentId t.processUid = key ∧ t.eventTime < time := by
  -- The fold from any end already seen.
  have hfold (seen : Option String) (terminates : List TerminateRow) :
      (∃ first, terminates.foldl (fun seen t =>
          if uidKey t.agentId t.processUid = key then
            seen.elim (some t.eventTime) fun earlier =>
              if t.eventTime < earlier then some t.eventTime else some earlier
          else seen) seen = some first ∧ first < time) ↔
        (∃ first, seen = some first ∧ first < time) ∨
          ∃ t ∈ terminates, uidKey t.agentId t.processUid = key ∧ t.eventTime < time := by
    induction terminates generalizing seen with
    | nil => simp
    | cons t rest ih =>
      rw [foldl_cons, ih, exists_mem_cons_iff, ← or_assoc]
      apply or_congr_left
      by_cases hkey : uidKey t.agentId t.processUid = key
      · rw [if_pos hkey]
        cases seen with
        | none => simp [hkey]
        | some earlier =>
          by_cases hlt : t.eventTime < earlier
          · simp only [Option.elim_some, if_pos hlt, Option.some.injEq, exists_eq_left', hkey,
              true_and]
            constructor
            · exact Or.inr
            · rintro (hearlier | htime)
              · exact lt_trans hlt hearlier
              · exact htime
          · simp only [Option.elim_some, if_neg hlt, Option.some.injEq, exists_eq_left', hkey,
              true_and]
            constructor
            · exact Or.inl
            · rintro (hearlier | htime)
              · exact hearlier
              · exact lt_of_le_of_lt (not_lt.mp hlt) htime
      · rw [if_neg hkey]
        simp [hkey]
  have hfirst : firstTerminate terminates key = terminates.foldl (fun seen t =>
      if uidKey t.agentId t.processUid = key then
        seen.elim (some t.eventTime) fun earlier =>
          if t.eventTime < earlier then some t.eventTime else some earlier
      else seen) none := by
    rw [firstTerminate]
    congr 1
    funext seen t
    cases seen <;> rfl
  have h := hfold none terminates
  simp only [reduceCtorEq, false_and, exists_false, false_or] at h
  rw [hfirst]
  exact h

theorem spanOf_spec (h : spanOf children = some span) :
    (∃ oldest ∈ children, oldest.row.time = span.oldestChild) ∧
    ∀ child ∈ children, ∀ pid, child.row.processParentPid = some pid →
      child.row.agentId ∈ span.agentIds ∧ pid ∈ span.parentPids ∧
      span.oldestChild ≤ child.row.time ∧ child.row.time ≤ span.newestChild := by
  rw [spanOf] at h
  split at h
  · cases h
  · rename_i first rest hfilter
    cases h
    have hmem (child : StoredRow) : child ∈ first :: rest ↔
        child ∈ children ∧ child.row.processParentPid.isSome = true := by
      rw [← hfilter, mem_filter]
    have hleast := foldl_least first.row.time (rest.map (·.row.time))
    have hgreatest := foldl_greatest first.row.time (rest.map (·.row.time))
    have htimes : first.row.time :: rest.map (·.row.time) = (first :: rest).map (·.row.time) := rfl
    rw [htimes] at hleast hgreatest
    constructor
    · obtain ⟨oldest, holdest, htime⟩ := mem_map.mp hleast.1
      exact ⟨oldest, ((hmem oldest).mp holdest).1, htime⟩
    · intro child hchild pid hpid
      have hnamed : child ∈ first :: rest := (hmem child).mpr ⟨hchild, by rw [hpid]; rfl⟩
      refine ⟨?_, ?_, ?_, ?_⟩
      · exact mem_eraseDups.mpr (mem_map_of_mem hnamed)
      · exact mem_eraseDups.mpr (mem_filterMap.mpr ⟨child, hnamed, hpid⟩)
      · exact hleast.2 _ (mem_map_of_mem hnamed)
      · exact hgreatest.2 _ (mem_map_of_mem hnamed)

theorem mem_inSpan {activityId : Nat} {e : StoredRow} : e ∈ inSpan c rows span earliest activityId ↔
      e ∈ processEvents c rows ∧ e.row.activityId = activityId ∧ e.row.agentId ∈ span.agentIds ∧
        earliest ≤ e.row.time ∧ e.row.time ≤ span.newestChild := by
  simp only [inSpan, processEvents, mem_filter, decide_eq_true_eq, and_assoc]

theorem mem_launchesRead {l : LaunchRow} (h : LaunchesRead c rows span launches)
    (hearliest : minusSeconds span.oldestChild parentLookbackSeconds = some earliest) :
    l ∈ launches ↔ ∃ e ∈ inSpan c rows span earliest 1,
      e.row.processPid ∈ span.parentPids ∧ launchRow e = l := by
  obtain ⟨earliest', hearliest', hordered⟩ := h
  obtain rfl : earliest = earliest' := Option.some.inj (hearliest.symm.trans hearliest')
  rw [hordered.perm.mem_iff, mem_map]
  simp only [mem_filter, decide_eq_true_eq, and_assoc]

theorem mem_terminatesRead {terminates : List TerminateRow} {t : TerminateRow}
    (h : TerminatesRead c rows span launches terminates)
    (hearliest : minusSeconds span.oldestChild parentLookbackSeconds = some earliest) :
    t ∈ terminates ↔ ∃ e ∈ inSpan c rows span earliest 2,
      e.row.processUid ∈ candidateUids launches ∧ terminateRow e = t := by
  obtain ⟨earliest', hearliest', hperm⟩ := h
  obtain rfl : earliest = earliest' := Option.some.inj (hearliest.symm.trans hearliest')
  rw [hperm.mem_iff, mem_map]
  simp only [mem_filter, decide_eq_true_eq, and_assoc]

theorem mem_candidateUids {uid : String} :
    uid ∈ candidateUids launches ↔ uid ≠ "" ∧ ∃ l ∈ launches, l.processUid = uid := by
  rw [candidateUids, mem_eraseDups, mem_filter, mem_map, decide_eq_true_eq, and_comm]

def InDateTime64 (nanos : Int) : Prop := -2208988800000000000 ≤ nanos ∧ nanos < 2 ^ 63

instance (nanos : Int) : Decidable (InDateTime64 nanos) := inferInstanceAs (Decidable (_ ∧ _))

/-- A row as ClickHouse prints it, `nanos` being its time. -/
structure Typed (nanos : StoredRow → Int) (stored : StoredRow) : Prop where
  range : InDateTime64 (nanos stored)
  time : stored.row.time = utcText (nanos stored)
  agent : test uuidPattern stored.row.agentId = true

section typed
variable {nanos : StoredRow → Int} {a b : StoredRow}

theorem Typed.printable (h : Typed nanos a) : Printable (nanos a) := by
  obtain ⟨hlow, hhigh⟩ := h.range
  rw [Printable, InYears]
  omega

theorem Typed.printable_lookback (h : Typed nanos a) : Printable (nanos a - lookback) := by
  obtain ⟨hlow, hhigh⟩ := h.range
  rw [Printable, InYears, lookback]
  omega

theorem Typed.time_le_iff (ha : Typed nanos a) (hb : Typed nanos b) :
    a.row.time ≤ b.row.time ↔ nanos a ≤ nanos b := by
  rw [ha.time, hb.time, utcText_le_iff ha.printable hb.printable]

theorem Typed.time_lt_iff (ha : Typed nanos a) (hb : Typed nanos b) :
    a.row.time < b.row.time ↔ nanos a < nanos b := by
  rw [ha.time, hb.time, utcText_lt_iff ha.printable hb.printable]

theorem Typed.lookback_le_iff (ha : Typed nanos a) (hb : Typed nanos b) :
    utcText (nanos a - lookback) ≤ b.row.time ↔ nanos a - lookback ≤ nanos b := by
  rw [hb.time, utcText_le_iff ha.printable_lookback hb.printable]

theorem Typed.minusSeconds (h : Typed nanos a) :
    minusSeconds a.row.time parentLookbackSeconds = some (utcText (nanos a - lookback)) := by
  rw [h.time]
  exact minusSeconds_utcText h.printable h.printable_lookback

end typed

/-- A table of events: no process ends before it starts, and the Launches of a pid on an agent
are at different times. -/
structure Lived (nanos : StoredRow → Int) (events : List StoredRow) : Prop where
  typed : ∀ e ∈ events, Typed nanos e
  ends : ∀ l ∈ events, ∀ t ∈ events, l.row.activityId = 1 → t.row.activityId = 2 →
    t.row.agentId = l.row.agentId → t.row.processUid = l.row.processUid →
    l.row.processUid ≠ "" → nanos l ≤ nanos t
  distinct : ∀ l ∈ events, ∀ l' ∈ events, l.row.activityId = 1 → l'.row.activityId = 1 →
    l.row.agentId = l'.row.agentId → l.row.processPid = l'.row.processPid →
    nanos l = nanos l' → l = l'

section batch
variable {c : DetectConfig} {rows children : List StoredRow} {nanos : StoredRow → Int}
  {span : Span} {launches : List LaunchRow} {terminates : List TerminateRow} {child : StoredRow}
  {pid : Nat}

variable {e : StoredRow}

theorem mem_parentLaunches {events : List StoredRow} :
    e ∈ parentLaunches nanos events child pid ↔ e ∈ events ∧ e.row.activityId = 1 ∧
      e.row.agentId = child.row.agentId ∧ e.row.processPid = pid ∧
      nanos child - lookback ≤ nanos e ∧ nanos e ≤ nanos child := by
  rw [parentLaunches, mem_filter, decide_eq_true_eq]

variable (hevents : Lived nanos (processEvents c rows))
  (hchildren : ∀ child ∈ children, Typed nanos child) (hspan : spanOf children = some span)
  (hlaunches : LaunchesRead c rows span launches) (hchild : child ∈ children)
  (hpid : child.row.processParentPid = some pid)

include hchildren hspan in
theorem exists_earliest : ∃ oldest ∈ children,
    minusSeconds span.oldestChild parentLookbackSeconds =
      some (utcText (nanos oldest - lookback)) ∧
    ∀ child ∈ children, ∀ pid, child.row.processParentPid = some pid →
      nanos oldest ≤ nanos child := by
  obtain ⟨⟨oldest, holdest, htime⟩, hspans⟩ := spanOf_spec hspan
  refine ⟨oldest, holdest, ?_, ?_⟩
  · rw [← htime]
    exact (hchildren oldest holdest).minusSeconds
  · intro child hchild pid hpid
    obtain ⟨_, _, hle, _⟩ := hspans child hchild pid hpid
    rw [← htime] at hle
    exact ((hchildren oldest holdest).time_le_iff (hchildren child hchild)).mp hle

include hevents hchildren hspan hlaunches in
theorem launch_of_mem {l : LaunchRow} (hl : l ∈ launches) :
    ∃ e ∈ processEvents c rows, e.row.activityId = 1 ∧ launchRow e = l ∧ Typed nanos e := by
  obtain ⟨oldest, _, hearliest, _⟩ := exists_earliest hchildren hspan
  obtain ⟨e, he, _, hrow⟩ := (mem_launchesRead hlaunches hearliest).mp hl
  obtain ⟨hevent, hactivity, _⟩ := mem_inSpan.mp he
  exact ⟨e, hevent, hactivity, hrow, hevents.typed e hevent⟩

include hevents hchildren hspan hlaunches hchild hpid in
theorem parentLaunch_read (he : e ∈ parentLaunches nanos (processEvents c rows) child pid) :
    launchRow e ∈ launches := by
  obtain ⟨hevent, hactivity, hagent, rfl, hlow, hhigh⟩ := mem_parentLaunches.mp he
  obtain ⟨oldest, holdest, hearliest, hleast⟩ := exists_earliest hchildren hspan
  obtain ⟨hagents, hpids, _, hnewest⟩ := (spanOf_spec hspan).2 child hchild _ hpid
  have htyped := hevents.typed e hevent
  have hfirst := hleast child hchild _ hpid
  refine (mem_launchesRead hlaunches hearliest).mpr ⟨e, mem_inSpan.mpr ⟨hevent, hactivity, ?_, ?_, ?_⟩,
    hpids, rfl⟩
  · rw [hagent]
    exact hagents
  · rw [(hchildren oldest holdest).lookback_le_iff htyped]
    omega
  · exact le_trans ((htyped.time_le_iff (hchildren child hchild)).mpr hhigh) hnewest

def candidatesOf (launches : List LaunchRow) (child : StoredRow) (pid : Nat) : List LaunchRow :=
  launches.filter fun l => processKey l.agentId l.processPid = processKey child.row.agentId pid

theorem mem_candidatesOf {l : LaunchRow} : l ∈ candidatesOf launches child pid ↔
    l ∈ launches ∧ l.agentId = child.row.agentId ∧ l.processPid = pid := by
  rw [candidatesOf, mem_filter, decide_eq_true_eq, processKey_inj]

include hevents hchildren hspan hlaunches hchild hpid in
theorem parentLaunch_candidate (he : e ∈ parentLaunches nanos (processEvents c rows) child pid) :
    launchRow e ∈ candidatesOf launches child pid ∧
      decide ((launchRow e).eventTime ≤ child.row.time) = true := by
  have hread := parentLaunch_read hevents hchildren hspan hlaunches hchild hpid he
  obtain ⟨hevent, _, hagent, hpids, _, hhigh⟩ := mem_parentLaunches.mp he
  refine ⟨mem_candidatesOf.mpr ⟨hread, hagent, hpids⟩, decide_eq_true ?_⟩
  exact ((hevents.typed e hevent).time_le_iff (hchildren child hchild)).mpr hhigh

include hevents hchildren hspan hlaunches hchild hpid in
/-- The candidate that is found is a Launch no later than the child, and none that may be the
parent is after it. -/
theorem found_spec {parent : LaunchRow}
    (hfound : (candidatesOf launches child pid).reverse.find?
      (fun l => decide (l.eventTime ≤ child.row.time)) = some parent) :
    ∃ e ∈ processEvents c rows, e.row.activityId = 1 ∧ launchRow e = parent ∧
      e.row.agentId = child.row.agentId ∧ e.row.processPid = pid ∧ nanos e ≤ nanos child ∧
      ∀ e' ∈ parentLaunches nanos (processEvents c rows) child pid, nanos e' ≤ nanos e := by
  have hsorted : (candidatesOf launches child pid).Pairwise
      fun l l' => l.eventTime ≤ l'.eventTime := by
    obtain ⟨_, _, hordered⟩ := hlaunches
    exact hordered.sorted.filter _
  obtain ⟨⟨hmem, htime⟩, hgreatest⟩ := find_reverse_greatest hsorted hfound
  obtain ⟨hread, hagent, hpids⟩ := mem_candidatesOf.mp hmem
  obtain ⟨e, hevent, hactivity, rfl, htyped⟩ :=
    launch_of_mem hevents hchildren hspan hlaunches hread
  have hle := (htyped.time_le_iff (hchildren child hchild)).mp (of_decide_eq_true htime)
  refine ⟨e, hevent, hactivity, rfl, hagent, hpids, hle, ?_⟩
  intro e' he'
  obtain ⟨hcandidate, htime'⟩ :=
    parentLaunch_candidate hevents hchildren hspan hlaunches hchild hpid he'
  have htyped' := hevents.typed e' (mem_parentLaunches.mp he').1
  exact (htyped'.time_le_iff htyped).mp (hgreatest _ hcandidate htime')

/-- The ends that were read are Terminates of the table, and every end before a child of a
process that may be its parent was read. -/
structure EndsRead (nanos : StoredRow → Int) (events : List StoredRow) (child : StoredRow)
    (terminates : List TerminateRow) : Prop where
  sound : ∀ t ∈ terminates, ∃ e ∈ events, e.row.activityId = 2 ∧ terminateRow e = t
  complete : ∀ pid, child.row.processParentPid = some pid →
    ∀ launch ∈ parentLaunches nanos events child pid, launch.row.processUid ≠ "" →
    ∀ e ∈ events, e.row.activityId = 2 → e.row.agentId = launch.row.agentId →
      e.row.processUid = launch.row.processUid → nanos e < nanos child →
      terminateRow e ∈ terminates

include hevents hchildren hchild hpid in
theorem ended_iff {launch : StoredRow}
    (hlaunch : launch ∈ parentLaunches nanos (processEvents c rows) child pid)
    (hends : EndsRead nanos (processEvents c rows) child terminates) :
    EndedBefore nanos (processEvents c rows) child launch ↔ launch.row.processUid ≠ "" ∧
      ∃ first, firstTerminate terminates (uidKey launch.row.agentId launch.row.processUid) =
        some first ∧ first < child.row.time := by
  have hcallee := hchildren child hchild
  have hagent := (hevents.typed launch (mem_parentLaunches.mp hlaunch).1).agent
  rw [EndedBefore, firstTerminate_lt_iff]
  apply and_congr_right
  intro huid
  constructor
  · rintro ⟨e, he, hactivity, hsame, hprocess, hlt⟩
    have htyped := hevents.typed e he
    refine ⟨terminateRow e, ?_, ?_, ?_⟩
    · exact hends.complete pid hpid launch hlaunch huid e he hactivity hsame hprocess hlt
    · exact (uidKey_inj htyped.agent hagent).mpr ⟨hsame, hprocess⟩
    · exact (htyped.time_lt_iff hcallee).mpr hlt
  · rintro ⟨t, ht, hkey, hlt⟩
    obtain ⟨e, he, hactivity, rfl⟩ := hends.sound t ht
    have htyped := hevents.typed e he
    obtain ⟨hsame, hprocess⟩ := (uidKey_inj htyped.agent hagent).mp hkey
    exact ⟨e, he, hactivity, hsame, hprocess, (htyped.time_lt_iff hcallee).mp hlt⟩

include hevents in
theorem mostRecent_parentLaunches (he : e ∈ parentLaunches nanos (processEvents c rows) child pid)
    (hmax : ∀ e' ∈ parentLaunches nanos (processEvents c rows) child pid, nanos e' ≤ nanos e) :
    mostRecent nanos (parentLaunches nanos (processEvents c rows) child pid) = some e := by
  cases hmost : mostRecent nanos (parentLaunches nanos (processEvents c rows) child pid) with
  | none =>
    rw [mostRecent_eq_none hmost] at he
    cases he
  | some m =>
    obtain ⟨hm, hlatest⟩ := mostRecent_spec hmost
    obtain ⟨hevent, hactivity, hagent, hpids, _⟩ := mem_parentLaunches.mp he
    obtain ⟨hevent', hactivity', hagent', hpids', _⟩ := mem_parentLaunches.mp hm
    have hsame : nanos m = nanos e := le_antisymm (hmax m hm) (hlatest e he)
    rw [hevents.distinct m hevent' e hevent hactivity' hactivity (hagent'.trans hagent.symm)
      (hpids'.trans hpids.symm) hsame]

def foundImage (terminates : List TerminateRow) (child : StoredRow) (parent : LaunchRow) :
    Option (Option String) := do
  let earliest ← minusSeconds child.row.time parentLookbackSeconds
  if parent.eventTime < earliest then some none
  else
    match firstTerminate terminates (uidKey parent.agentId parent.processUid) with
    | some terminated =>
      if parent.processUid ≠ "" ∧ terminated < child.row.time then some none
      else some (some parent.imageFileName)
    | none => some (some parent.imageFileName)

variable (launches terminates) in
include hpid in
theorem parentImage_find : parentImage launches terminates child =
    match (candidatesOf launches child pid).reverse.find?
      (fun l => decide (l.eventTime ≤ child.row.time)) with
    | none => some none
    | some parent => foundImage terminates child parent := by
  rw [parentImage, hpid]
  rfl

theorem foundImage_eq {parent : LaunchRow} {earliest : String}
    (hearliest : minusSeconds child.row.time parentLookbackSeconds = some earliest) :
    foundImage terminates child parent =
      if parent.eventTime < earliest ∨ parent.processUid ≠ "" ∧
        (∃ first, firstTerminate terminates (uidKey parent.agentId parent.processUid) =
          some first ∧ first < child.row.time)
      then some none else some (some parent.imageFileName) := by
  rw [foundImage, hearliest]
  simp only [Option.bind_eq_bind, Option.bind_some]
  by_cases hold : parent.eventTime < earliest
  · rw [if_pos hold, if_pos (Or.inl hold)]
  · rw [if_neg hold]
    simp only [hold, false_or]
    cases firstTerminate terminates (uidKey parent.agentId parent.processUid) with
    | none => simp
    | some terminated => simp

include hevents hchildren hspan hlaunches hchild in
/-- What the batch gives for a child is what the table gives for it alone. -/
theorem parentImage_eq (hends : EndsRead nanos (processEvents c rows) child terminates) :
    parentImage launches terminates child =
      some (parentOf nanos (processEvents c rows) child) := by
  cases hpid : child.row.processParentPid with
  | none =>
    simp only [parentImage, parentOf, hpid]
    rfl
  | some pid =>
    have hnone (h : parentLaunches nanos (processEvents c rows) child pid = []) :
        parentOf nanos (processEvents c rows) child = none := by
      simp only [parentOf, hpid, Option.bind_eq_bind, Option.bind_some, h, mostRecent,
        Option.bind_none]
    rw [parentImage_find launches terminates hpid]
    cases hfound : (candidatesOf launches child pid).reverse.find?
        (fun l => decide (l.eventTime ≤ child.row.time)) with
    | none =>
      refine congrArg some (hnone (eq_nil_iff_forall_not_mem.mpr ?_)).symm
      intro e he
      obtain ⟨hmem, htime⟩ :=
        parentLaunch_candidate hevents hchildren hspan hlaunches hchild hpid he
      exact List.find?_eq_none.mp hfound _ (mem_reverse.mpr hmem) htime
    | some parent =>
      obtain ⟨e, hevent, hactivity, rfl, hagent, hpids, hle, hmax⟩ :=
        found_spec hevents hchildren hspan hlaunches hchild hpid hfound
      have hlookback :=
        (hchildren child hchild).lookback_le_iff (hevents.typed e hevent)
      change foundImage terminates child (launchRow e) = _
      rw [foundImage_eq (hchildren child hchild).minusSeconds]
      by_cases hold : (launchRow e).eventTime < utcText (nanos child - lookback)
      · have hearly : nanos e < nanos child - lookback :=
          lt_of_not_ge fun hge => not_le.mpr hold (hlookback.mpr hge)
        rw [if_pos (Or.inl hold), hnone (eq_nil_iff_forall_not_mem.mpr ?_)]
        intro e' he'
        have hlow := (mem_parentLaunches.mp he').2.2.2.2.1
        exact not_lt.mpr (le_trans hlow (hmax e' he')) hearly
      · have he : e ∈ parentLaunches nanos (processEvents c rows) child pid :=
          mem_parentLaunches.mpr
            ⟨hevent, hactivity, hagent, hpids, hlookback.mp (not_lt.mp hold), hle⟩
        have hended := ended_iff hevents hchildren hchild hpid he hends
        simp only [hold, false_or, parentOf, hpid, Option.bind_eq_bind, Option.bind_some,
          mostRecent_parentLaunches hevents he hmax]
        by_cases hbefore : EndedBefore nanos (processEvents c rows) child e
        · rw [if_pos hbefore]
          exact if_pos (hended.mp hbefore)
        · rw [if_neg hbefore]
          exact if_neg fun h => hbefore (hended.mpr h)

include hevents hchildren hspan hlaunches hchild in
theorem endsRead_noUid (huids : candidateUids launches = []) :
    EndsRead nanos (processEvents c rows) child [] := by
  constructor
  · intro t ht
    cases ht
  intro pid hpid launch hlaunch huid
  have hread := parentLaunch_read hevents hchildren hspan hlaunches hchild hpid hlaunch
  have hmem : launch.row.processUid ∈ candidateUids launches :=
    mem_candidateUids.mpr ⟨huid, launchRow launch, hread, rfl⟩
  rw [huids] at hmem
  cases hmem

include hevents hchildren hspan hlaunches hchild in
/-- An end before a child is not before the Launch, so it is in the span of the read. -/
theorem endsRead_read (hterminates : TerminatesRead c rows span launches terminates) :
    EndsRead nanos (processEvents c rows) child terminates := by
  obtain ⟨oldest, holdest, hearliest, hleast⟩ := exists_earliest hchildren hspan
  constructor
  · intro t ht
    obtain ⟨e, he, _, hrow⟩ := (mem_terminatesRead hterminates hearliest).mp ht
    obtain ⟨hevent, hactivity, _⟩ := mem_inSpan.mp he
    exact ⟨e, hevent, hactivity, hrow⟩
  · intro pid hpid launch hlaunch huid e he hactivity hagent hprocess hlt
    have hread := parentLaunch_read hevents hchildren hspan hlaunches hchild hpid hlaunch
    obtain ⟨hevent, hlaunched, hsame, _, hlow, _⟩ := mem_parentLaunches.mp hlaunch
    obtain ⟨hagents, _, _, hnewest⟩ := (spanOf_spec hspan).2 child hchild pid hpid
    have htyped := hevents.typed e he
    have hafter := hevents.ends launch hevent e he hlaunched hactivity hagent hprocess huid
    have hfirst := hleast child hchild pid hpid
    refine (mem_terminatesRead hterminates hearliest).mpr
      ⟨e, mem_inSpan.mpr ⟨he, hactivity, ?_, ?_, ?_⟩, ?_, rfl⟩
    · rw [hagent, hsame]
      exact hagents
    · rw [(hchildren oldest holdest).lookback_le_iff htyped]
      omega
    · exact le_trans (le_of_lt ((htyped.time_lt_iff (hchildren child hchild)).mpr hlt)) hnewest
    · rw [hprocess]
      exact mem_candidateUids.mpr ⟨huid, launchRow launch, hread, rfl⟩

end batch

theorem mapM_eq_map {α β : Type} {f : α → Option β} {g : α → β} {l : List α}
    (h : ∀ a ∈ l, f a = some (g a)) : l.mapM f = some (l.map g) := by
  induction l with
  | nil => rfl
  | cons a rest ih =>
    rw [mapM_cons, h a mem_cons_self,
      ih fun b hb => h b (mem_cons_of_mem a hb)]
    rfl

theorem spanOf_eq_none (h : spanOf children = none) :
    ∀ child ∈ children, child.row.processParentPid = none := by
  rw [spanOf] at h
  split at h
  · rename_i hnone
    intro child hchild
    have hno := filter_eq_nil_iff.mp hnone child hchild
    simpa using hno
  · cases h

theorem exists_parentsResolved (c : DetectConfig) (rows : List StoredRow) {nanos : StoredRow → Int}
    (hchildren : ∀ child ∈ children, Typed nanos child) :
    ∃ images, ParentsResolved c rows children images := by
  cases hspan : spanOf children with
  | none => exact ⟨_, .noParent hspan⟩
  | some span =>
    obtain ⟨oldest, _, hearliest, _⟩ := exists_earliest hchildren hspan
    obtain ⟨launches, hordered⟩ := exists_ordered LaunchRow.eventTime
      (((inSpan c rows span (utcText (nanos oldest - lookback)) 1).filter fun stored =>
        stored.row.processPid ∈ span.parentPids).map launchRow)
    have hlaunches : LaunchesRead c rows span launches := ⟨_, hearliest, hordered⟩
    by_cases huids : candidateUids launches = []
    · exact ⟨_, .noUid hspan hlaunches huids⟩
    · exact ⟨_, .read hspan hlaunches huids ⟨_, hearliest, List.Perm.refl _⟩⟩

theorem parentsResolved_eq {nanos : StoredRow → Int} (hevents : Lived nanos (processEvents c rows))
    (hchildren : ∀ child ∈ children, Typed nanos child) {images : Option (List (Option String))}
    (h : ParentsResolved c rows children images) :
    images = some (children.map (parentOf nanos (processEvents c rows))) := by
  cases h with
  | noParent hspan =>
    apply congrArg some
    apply map_congr_left
    intro child hchild
    rw [parentOf, spanOf_eq_none hspan child hchild]
    rfl
  | noUid hspan hlaunches huids =>
    apply mapM_eq_map
    intro child hchild
    exact parentImage_eq hevents hchildren hspan hlaunches hchild
      (endsRead_noUid hevents hchildren hspan hlaunches hchild huids)
  | read hspan hlaunches _ hterminates =>
    apply mapM_eq_map
    intro child hchild
    exact parentImage_eq hevents hchildren hspan hlaunches hchild
      (endsRead_read hevents hchildren hspan hlaunches hchild hterminates)

/-- What a batch resolves for each of its children, in order, is the parent of that child in the
table, whatever the other children are. -/
theorem parents_per_child (c : DetectConfig) (rows children : List StoredRow)
    (nanos : StoredRow → Int) (hevents : Lived nanos (processEvents c rows))
    (hchildren : ∀ child ∈ children, Typed nanos child) :
    (∃ images, ParentsResolved c rows children images) ∧
    ∀ images, ParentsResolved c rows children images →
      images = some (children.map (parentOf nanos (processEvents c rows))) := by
  constructor
  · exact exists_parentsResolved c rows hchildren
  · intro images h
    exact parentsResolved_eq hevents hchildren h

def lineageAgent : Agent.Uuid := ⟨List.replicate 16 17, rfl⟩

def sampleEvent (eventId : String) (activityId processPid : Nat) (parentPid : Option Nat)
    (image time : String) : StoredRow :=
  ⟨{ agentId := lineageAgent.text, orgId := "default", eventId := eventId,
     classUid := 1007, activityId := activityId, processPid := processPid,
     processUid := eventId, processName := image, processParentPid := parentPid,
     imageFileName := image, time := time }, 1000⟩

def sampleParent : StoredRow :=
  sampleEvent "11111111-1111-1111-1111-111111111110" 1 4 none "explorer.exe"
    "2026-05-28 19:47:10.000000100"

def sampleChild : StoredRow :=
  sampleEvent "11111111-1111-1111-1111-111111111112" 1 8 (some 4) "cmd.exe"
    "2026-05-28 19:47:12.000000000"

def sampleNanos (stored : StoredRow) : Int :=
  if stored = sampleParent then 1779997630000000100 else 1779997632000000000

theorem utcText_of_nanos {v text : String} {n : Nat} (hn : bigInt v = some n) (hlt : n < 2 ^ 63)
    (htext : stringNanosToChDateTime v = some text) : text = utcText n := by
  rw [stringNanosToChDateTime_eq hn hlt] at htext
  exact (Option.some.inj htext).symm

theorem sample_typed : Typed sampleNanos sampleParent ∧ Typed sampleNanos sampleChild := by
  constructor
  · refine ⟨by decide +kernel, ?_, Accepted.uuid_accepted lineageAgent⟩
    exact utcText_of_nanos (v := "1779997630000000100") (by decide +kernel) (by decide)
      (by decide +kernel)
  · refine ⟨by decide +kernel, ?_, Accepted.uuid_accepted lineageAgent⟩
    exact utcText_of_nanos (v := "1779997632000000000") (by decide +kernel) (by decide)
      (by decide +kernel)

theorem sample_parent_resolved : ∃ images,
    ParentsResolved ⟨"default", [], none⟩ [sampleParent, sampleChild] [sampleChild] images ∧
      images = some [some "explorer.exe"] := by
  have htable : processEvents ⟨"default", [], none⟩ [sampleParent, sampleChild] =
      [sampleParent, sampleChild] := by decide +kernel
  have hevents : Lived sampleNanos
      (processEvents ⟨"default", [], none⟩ [sampleParent, sampleChild]) := by
    rw [htable]
    refine ⟨?_, by decide +kernel, by decide +kernel⟩
    intro e he
    rcases mem_pair.mp he with rfl | rfl
    · exact sample_typed.1
    · exact sample_typed.2
  obtain ⟨⟨images, himages⟩, hall⟩ := parents_per_child ⟨"default", [], none⟩
    [sampleParent, sampleChild] [sampleChild] sampleNanos hevents (by
      intro child hchild
      rw [mem_singleton.mp hchild]
      exact sample_typed.2)
  refine ⟨images, himages, (hall images himages).trans ?_⟩
  rw [htable]
  decide +kernel

end CyberGuard.Detect
