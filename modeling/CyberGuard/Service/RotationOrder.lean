import CyberGuard.Service.Rotation
import Mathlib.Tactic.IntervalCases

/-!
# Rotation loses and reorders no record

Read from the oldest archive to the active file, the records stand in the order they were
written, at every instant. The archives are those below the first free place and perhaps
some above it, so at most one place among them is empty; every rename of a rotation goes
to the place just before, which is empty then.
-/

namespace CyberGuard.Service.Rotation
set_option autoImplicit false
open CrashLogic PlacedFiles List

/-- `free` is the first free archive place; above it archives go up to `top`. They do so only
while a rotation is to be finished. -/
structure Shape (disk : Disk) (free top : Nat) : Prop where
  one_le : 1 ≤ free
  free_le : free ≤ archives + 1
  top_le : top ≤ archives
  archive : ∀ n, 1 ≤ n → n ≤ archives →
    ((disk (.archive n)).isSome ↔ n < free ∨ (free < n ∧ n ≤ top))
  rotating : free < top → (disk .rotating).isSome

/-- A rename replaces no file; only the oldest archive is removed, with all places taken. -/
def Change.Safe : Change → Prop
  | .renamed _ target before => before target = none
  | .removed place before => place = .archive archives ∧
      ∀ n, 1 ≤ n → n ≤ archives → (before (.archive n)).isSome

structure Kept (s : State) : Prop where
  order : s.dropped.flatten ++ reading places s.disk = s.written
  changes : ∀ change ∈ s.changes, change.Safe
  shape : ∃ free top, Shape s.disk free top

/-- Of the places below an archive at most one is empty. -/
def AtMostOneGap (disk : Disk) : Prop :=
  ∀ high, high ≤ archives → (disk (.archive high)).isSome → ∀ n m, 1 ≤ n → n < high →
    1 ≤ m → m < high → disk (.archive n) = none → disk (.archive m) = none → n = m

section Shapes
variable {disk : Disk} {free top : Nat}

theorem Shape.atMostOneGap (h : Shape disk free top) : AtMostOneGap disk := by
  intro high hhigh hthere n m hn hnlt hm hmlt hnone hmone
  have hfree : ∀ k, 1 ≤ k → k < high → disk (.archive k) = none → k = free := by
    intro k hk hklt hknone
    have hhighAt := (h.archive high (by omega) hhigh).mp hthere
    have hmissing := mt (h.archive k hk (by omega)).mpr (by simp [hknone])
    omega
  rw [hfree n hn hnlt hnone, hfree m hm hmlt hmone]

theorem Shape.archive_free (h : Shape disk free top) (hle : free ≤ archives) :
    disk (.archive free) = none := by
  have hmissing := mt (h.archive free h.one_le hle).mp (by omega)
  simpa using hmissing

theorem Shape.congr {disk' : Disk} (h : Shape disk free top)
    (harchive : ∀ n, disk' (.archive n) = disk (.archive n))
    (hrotating : (disk .rotating).isSome → (disk' .rotating).isSome) : Shape disk' free top := by
  refine ⟨h.one_le, h.free_le, h.top_le, ?_, fun hlt => hrotating (h.rotating hlt)⟩
  intro n hn hle
  rw [harchive]
  exact h.archive n hn hle

theorem Shape.shift {k : Nat} (h : Shape disk (k + 2) top) (hk : k + 2 ≤ archives)
    (hrotating : (disk .rotating).isSome) :
    Shape (move disk (.archive (k + 1)) (.archive (k + 2))) (k + 1) (max top (k + 2)) := by
  have htop := h.top_le
  refine ⟨by omega, by omega, by omega, ?_, ?_⟩
  · intro n hn hle
    by_cases hsource : n = k + 1
    · rw [hsource, move_source]
      constructor
      · intro hsome
        cases hsome
      · omega
    · by_cases htarget : n = k + 2
      · have hold := (h.archive (k + 1) (by omega) (by omega)).mpr (by omega)
        rw [htarget, move_target (by simp)]
        constructor
        · omega
        · intro _
          exact hold
      · rw [move_of_ne (by simpa using hsource) (by simpa using htarget), h.archive n hn hle]
        omega
  · intro _
    rw [move_of_ne (by simp) (by simp)]
    exact hrotating

theorem Shape.finish (h : Shape disk 1 top) (hrotating : (disk .rotating).isSome) :
    Shape (move disk .rotating (.archive 1)) (max top 1 + 1) 0 := by
  have htop := h.top_le
  have harchives : archives = 5 := rfl
  refine ⟨by omega, by omega, by omega, ?_, by omega⟩
  intro n hn hle
  by_cases htarget : n = 1
  · rw [htarget, move_target (by simp)]
    constructor
    · omega
    · intro _
      exact hrotating
  · rw [move_of_ne (by simp) (by simpa using htarget), h.archive n hn hle]
    omega

theorem Shape.remove (h : Shape disk (archives + 1) top) :
    Shape (delete disk (.archive archives)) archives 0 := by
  have harchives : archives = 5 := rfl
  refine ⟨by omega, by omega, by omega, ?_, by omega⟩
  intro n hn hle
  by_cases hlast : n = archives
  · rw [hlast, delete, Function.update_self]
    constructor
    · intro hsome
      cases hsome
    · omega
  · rw [delete, Function.update_of_ne (by simpa using hlast), h.archive n hn hle]
    omega

end Shapes

section Operations
variable {s : State} {front back : List Place} {source target : Place}

theorem places_nodup : places.Nodup := by decide

theorem disk_rename : (s.rename source target).disk = move s.disk source target := rfl

theorem disk_removeFile {place : Place} : (s.removeFile place).disk = delete s.disk place := rfl

theorem disk_openActive :
    s.openActive.disk = put s.disk .active ((s.disk .active).getD []) := rfl

theorem put_rotating {disk : Disk} {records : List Bytes} :
    put disk .active records .rotating = disk .rotating :=
  Function.update_of_ne (by simp) ..

theorem Kept.rename (h : Kept s) (hplaces : places = front ++ target :: source :: back)
    (hfree : s.disk target = none) (hshape : ∃ free top, Shape (move s.disk source target) free top) :
    Kept (s.rename source target) := by
  refine ⟨?_, ?_, hshape⟩
  · have hnodup := places_nodup
    rw [hplaces] at hnodup
    have hread := reading_move hnodup hfree
    rw [← hplaces] at hread
    exact (congrArg (s.dropped.flatten ++ ·) hread).trans h.order
  · intro change hchange
    rcases mem_append.mp hchange with hold | hnew
    · exact h.changes change hold
    · rw [mem_singleton.mp hnew]
      exact hfree

theorem Kept.removeFile (h : Kept s) {top : Nat} (hshape : Shape s.disk (archives + 1) top) :
    Kept (s.removeFile (.archive archives)) := by
  refine ⟨?_, ?_, archives, 0, hshape.remove⟩
  · have hread : (s.disk (.archive archives)).getD [] ++
        reading places (delete s.disk (.archive archives)) = reading places s.disk :=
      reading_delete places_nodup
    have horder := h.order
    rw [State.removeFile, flatten_append, flatten_singleton, append_assoc]
    exact (congrArg (s.dropped.flatten ++ ·) hread).trans horder
  · intro change hchange
    rcases mem_append.mp hchange with hold | hnew
    · exact h.changes change hold
    · rw [mem_singleton.mp hnew]
      refine ⟨rfl, ?_⟩
      intro n hn hle
      exact (hshape.archive n hn hle).mpr (by omega)

def olderPlaces : List Place := places.dropLast

theorem reading_active (disk : Disk) (records : List Bytes) :
    reading places (put disk .active records) = reading olderPlaces disk ++ records := by
  have hplaces : places = olderPlaces ++ Place.active :: [] := rfl
  have hnodup := places_nodup
  rw [hplaces] at hnodup ⊢
  rw [reading_put hnodup, show reading [] disk = ([] : List Bytes) from rfl, append_nil]

theorem reading_places (disk : Disk) :
    reading places disk = reading olderPlaces disk ++ (disk .active).getD [] := by
  rw [show places = olderPlaces ++ [Place.active] from rfl, reading_append, reading_cons]
  exact congrArg _ (append_nil _)

theorem Shape.put {disk : Disk} {free top : Nat} (h : Shape disk free top) (records : List Bytes) :
    Shape (put disk .active records) free top := by
  refine h.congr ?_ ?_
  · intro n
    exact Function.update_of_ne (by simp) ..
  · intro hsome
    rw [put_rotating]
    exact hsome

theorem Kept.openActive (h : Kept s) : Kept s.openActive := by
  obtain ⟨free, top, hshape⟩ := h.shape
  refine ⟨?_, h.changes, free, top, hshape.put _⟩
  rw [State.openActive, reading_active, ← reading_places]
  exact h.order

theorem Kept.append (h : Kept s) (line : Bytes) : Kept (s.append line) := by
  obtain ⟨free, top, hshape⟩ := h.shape
  refine ⟨?_, h.changes, free, top, hshape.put _⟩
  rw [State.append, reading_active, ← append_assoc (reading olderPlaces s.disk),
    ← reading_places, ← append_assoc, h.order]

end Operations

/-- At an instant, where moreover `W` is known of what was written. -/
def Instant (W : List Bytes → Prop) (s : State) : Prop := Kept s ∧ W s.written

structure Carries (log log' : RotatingLog) : Prop where
  active : log.active = true → log'.active = true
  failed : log'.failed = log.failed
  rotationFailing : log'.rotationFailing = log.rotationFailing
  rotationRetryLimit : log'.rotationRetryLimit = log.rotationRetryLimit

theorem Carries.refl (log : RotatingLog) : Carries log log := ⟨id, rfl, rfl, rfl⟩

section Rotating
variable {W : List Bytes → Prop} {log : RotatingLog} {s : State} {written : List Bytes}

theorem wp_renameFile {source target : Place} {front back : List Place}
    {Q : Unit → State → Prop} {F : RotatingLog × String → State → Prop} (h : Instant W s)
    (hplaces : places = front ++ target :: source :: back) (hfree : s.disk target = none)
    (hshape : ∃ free top, Shape (move s.disk source target) free top)
    (hdone : Q () (s.rename source target)) (hfailed : ∀ e, F (log, e) s) :
    Wp device (Instant W) (renameFile log source target) Q F s := by
  refine ⟨h, fun t ht => ht.elim, ?_⟩
  intro answer t hanswer
  cases hanswer with
  | renamed _ => exact ⟨⟨h.1.rename hplaces hfree hshape, h.2⟩, hdone⟩
  | notRenamed e => exact ⟨h, hfailed e⟩

theorem wp_reopen {Q : RotatingLog → State → Prop} {F : RotatingLog × String → State → Prop}
    (h : Instant W s) (hdone : ∀ size, Q { log with active := true, size := size } s.openActive) :
    Wp device (Instant W) (reopen log) Q F s := by
  refine ⟨h, fun t ht => ht.elim, ?_⟩
  intro size t hanswer
  cases hanswer with
  | opened => exact ⟨⟨h.1.openActive, h.2⟩, hdone _⟩

/-- What is so far written, and that there is a rotation to finish. -/
structure Midway (written : List Bytes) (s : State) : Prop where
  written : s.written = written
  rotating : (s.disk .rotating).isSome

theorem wp_moveActive (h : Instant W s) (hnone : s.disk .rotating = none) :
    Wp device (Instant W) (moveActive log)
      (fun log' t => Midway s.written t ∧ Carries log log')
      (fun failure t => t.written = s.written ∧ Carries log failure.1) s := by
  refine ⟨h, fun t ht => ht.elim, ?_⟩
  intro answer t hanswer
  cases hanswer with
  | renamed hthere =>
    have hrotating : ((s.rename .active .rotating).disk .rotating).isSome := by
      rw [disk_rename, move_target (by simp)]
      exact hthere
    have hshape : ∃ free top, Shape (move s.disk .active .rotating) free top := by
      obtain ⟨free, top, hshape⟩ := h.1.shape
      refine ⟨free, top, hshape.congr ?_ fun _ => hrotating⟩
      intro n
      exact move_of_ne (by simp) (by simp)
    have hplaces : places = (List.range' 1 archives).reverse.map .archive ++
        Place.rotating :: .active :: [] := rfl
    have hmoved : Instant W (s.rename .active .rotating) :=
      ⟨h.1.rename hplaces hnone hshape, h.2⟩
    refine wp_bind (wp_reopen hmoved ?_)
    intro size
    refine ⟨⟨hmoved.1.openActive, h.2⟩, ⟨rfl, ?_⟩, fun _ => rfl, rfl, rfl, rfl⟩
    rw [disk_openActive, put_rotating]
    exact hrotating
  | notRenamed e =>
    refine wp_bind (wp_reopen h ?_)
    intro size
    exact ⟨⟨h.1.openActive, h.2⟩, rfl, fun _ => rfl, rfl, rfl, rfl⟩

/-- The place is the first free one, and nothing is written on the way. -/
theorem wp_freePlace (h : Instant W s) (hmid : Midway written s) :
    Wp device (Instant W) (freePlace log)
      (fun free t => Midway written t ∧ free ≤ archives ∧ ∃ top, Shape t.disk free top)
      (fun failure t => t.written = written ∧ failure.1 = log) s := by
  obtain ⟨free, top, hshape⟩ := h.1.shape
  have hone := hshape.one_le
  unfold freePlace
  simp only [Wp]
  split
  · rename_i n hfound
    obtain ⟨hnone, hrange, hbefore⟩ := List.find?_range'_eq_some.mp hfound
    rw [mem_range'_1] at hrange
    have heq : n = free := by
      have hmissing := mt (hshape.archive n hrange.1 (by omega)).mpr (by simpa using hnone)
      rcases Nat.lt_trichotomy n free with hlt | heq | hgt
      · exact absurd (Or.inl hlt) hmissing
      · exact heq
      · have hthere := hbefore free hone hgt
        rw [hshape.archive_free (by omega)] at hthere
        cases hthere
    subst heq
    exact ⟨h, hmid, by omega, top, hshape⟩
  · rename_i hnone
    have hfull : free = archives + 1 := by
      have hle := hshape.free_le
      by_contra hne
      have hthere := List.find?_range'_eq_none.mp hnone free hone (by omega)
      rw [hshape.archive_free (by omega)] at hthere
      cases hthere
    subst hfull
    refine ⟨h, fun t ht => ht.elim, ?_⟩
    intro answer t hanswer
    cases hanswer with
    | removed _ =>
      refine ⟨⟨h.1.removeFile hshape, h.2⟩, ⟨hmid.written, ?_⟩, Nat.le_refl _, 0, hshape.remove⟩
      rw [disk_removeFile, delete, Function.update_of_ne (by simp)]
      exact hmid.rotating
    | notRemoved e => exact ⟨h, hmid.written, rfl⟩

theorem places_archive {k : Nat} (hk : k + 2 ≤ archives) :
    ∃ front back, places = front ++ Place.archive (k + 2) :: .archive (k + 1) :: back := by
  have hlt : k < 4 := by
    have harchives : archives = 5 := rfl
    omega
  refine ⟨places.take (3 - k), places.drop (5 - k), ?_⟩
  interval_cases k <;> rfl

theorem wp_shiftArchives {free : Nat} (h : Instant W s) (hmid : Midway written s)
    (hfree : free ≤ archives) (hshape : ∃ top, Shape s.disk free top) :
    Wp device (Instant W) (shiftArchives log free)
      (fun _ t => Midway written t ∧ ∃ top, Shape t.disk 1 top)
      (fun failure t => t.written = written ∧ failure.1 = log) s := by
  -- the archives still to shift are those below the free place
  let I : List Nat → State → Prop := fun todo t => Instant W t ∧ Midway written t ∧
    ∃ f top, f ≤ archives ∧ Shape t.disk f top ∧ todo = (List.range' 1 (f - 1)).reverse
  obtain ⟨top, hshape⟩ := hshape
  have hstart : I (List.range' 1 (free - 1)).reverse s :=
    ⟨h, hmid, free, top, hfree, hshape, rfl⟩
  refine (wp_forEach (I := I) ?_ (fun t ht => ht.1) hstart).mono ?_ fun _ _ _ he => he
  · rintro n rest t ⟨hinst, hmidway, f, top, hf, hshape, htodo⟩
    obtain ⟨k, rfl⟩ : ∃ k, f = k + 2 := by
      refine ⟨f - 2, ?_⟩
      have hpos : 0 < f - 1 := by
        by_contra hzero
        rw [Nat.eq_zero_of_not_pos hzero] at htodo
        cases htodo
      omega
    rw [show k + 2 - 1 = k + 1 from rfl, range'_concat, reverse_append] at htodo
    obtain ⟨rfl, rfl⟩ := List.cons.inj htodo
    rw [show 1 + 1 * k = k + 1 by omega]
    obtain ⟨front, back, hplaces⟩ := places_archive hf
    have hshifted := hshape.shift hf hmidway.rotating
    have hrotating : ((t.rename (.archive (k + 1)) (.archive (k + 2))).disk .rotating).isSome := by
      rw [disk_rename, move_of_ne (by simp) (by simp)]
      exact hmidway.rotating
    have hfreeAt := hshape.archive_free hf
    refine wp_renameFile hinst hplaces hfreeAt ⟨_, _, hshifted⟩ ?_ fun e => ⟨hmidway.written, rfl⟩
    exact ⟨⟨hinst.1.rename hplaces hfreeAt ⟨_, _, hshifted⟩, hinst.2⟩, ⟨hmidway.written, hrotating⟩,
      k + 1, _, by omega, hshifted, rfl⟩
  · rintro _ t - ⟨-, hmidway, f, top, -, hshape, htodo⟩
    have hlen := congrArg List.length htodo
    rw [length_reverse, length_range', length_nil] at hlen
    have hone := hshape.one_le
    obtain rfl : f = 1 := by omega
    exact ⟨hmidway, top, hshape⟩

theorem wp_beginRotation (h : Instant W s) :
    Wp device (Instant W) (beginRotation log)
      (fun log' t => Midway s.written t ∧ Carries log log')
      (fun failure t => t.written = s.written ∧ Carries log failure.1) s := by
  refine wp_bind ⟨h, ?_⟩
  cases hthere : (s.disk .rotating).isSome with
  | true => exact ⟨h, ⟨rfl, hthere⟩, Carries.refl log⟩
  | false => exact wp_moveActive h (by simpa using hthere)

theorem wp_rotate (h : Instant W s) :
    Wp device (Instant W) (rotate log)
      (fun log' t => t.written = s.written ∧ Carries log log')
      (fun failure t => t.written = s.written ∧ Carries log failure.1) s := by
  have hrotating : places = (List.range' 2 (archives - 1)).reverse.map .archive ++
      Place.archive 1 :: .rotating :: [.active] := rfl
  refine (wp_beginRotation h).andThen ?_
  intro log' t ht ⟨hmid, hcarries⟩
  refine ((wp_freePlace ht hmid).mono (fun _ _ _ hq => hq) ?_).andThen ?_
  · rintro ⟨failed, e⟩ u - ⟨hwritten, rfl⟩
    exact ⟨hwritten, hcarries⟩
  intro free u hu ⟨hmid, hfree, hshape⟩
  refine ((wp_shiftArchives hu hmid hfree hshape).mono (fun _ _ _ hq => hq) ?_).andThen ?_
  · rintro ⟨failed, e⟩ v - ⟨hwritten, rfl⟩
    exact ⟨hwritten, hcarries⟩
  intro _ v hv ⟨hmid, top, hshape⟩
  have hfirst := hshape.archive_free (by decide)
  have hfinished : ∃ free top, Shape (move v.disk .rotating (.archive 1)) free top :=
    ⟨_, _, hshape.finish hmid.rotating⟩
  refine wp_bind (wp_renameFile hv hrotating hfirst hfinished ?_ fun e =>
    ⟨hmid.written, hcarries⟩)
  refine ⟨⟨hv.1.rename hrotating hfirst hfinished, hv.2⟩, hmid.written, ?_⟩
  exact ⟨hcarries.active, hcarries.failed, hcarries.rotationFailing, hcarries.rotationRetryLimit⟩

end Rotating

def LimitReached (log : RotatingLog) : Prop :=
  ∃ since tried, log.rotationFailing = some (since, tried) ∧
    log.rotationRetryLimit ≤ tried - since

structure Writes (log : RotatingLog) : Prop where
  active : log.active = true
  failed : log.failed = none

/-- The line of a record: the record, or a diagnostic where it is too long. -/
def LineOf (render : Json Nat → Bytes) (record line : Bytes) : Prop :=
  if maxRecordBytes < record.length + 1 then
    ∃ timestamp, line = render (oversizedRecord timestamp record.length)
  else line = record

def Wrote (render : Json Nat → Bytes) (start : List Bytes) (records written : List Bytes) : Prop :=
  ∃ lines, List.Forall₂ (LineOf render) records lines ∧ written = start ++ lines

section Records
variable {W : List Bytes → Prop} {log : RotatingLog} {s : State}
variable {F : RotatingLog × String → State → Prop}

theorem wp_tolerate {now : Nat} {failure : RotatingLog × String} (h : Instant W s)
    (hfailed : failure.1.failed = none) :
    Wp device (Instant W) (tolerate now failure)
      (fun log' t => t.written = s.written ∧ Writes log')
      (fun failure' t => t.written = s.written ∧ LimitReached failure'.1) s := by
  simp only [tolerate]
  split
  · rename_i hlimit
    exact ⟨h, rfl, _, _, rfl, hlimit⟩
  · split
    · rename_i hactive
      exact ⟨h, rfl, hactive, hfailed⟩
    · exact wp_reopen h fun size => ⟨rfl, rfl, hfailed⟩

theorem wp_rotateIfDue {len : Nat} (h : Instant W s) (hwrites : Writes log) :
    Wp device (Instant W) (rotateIfDue log len)
      (fun log' t => t.written = s.written ∧ Writes log')
      (fun failure t => t.written = s.written ∧ LimitReached failure.1) s := by
  simp only [rotateIfDue]
  split
  · exact ⟨h, rfl, hwrites⟩
  · refine ⟨h, fun t ht => ht.elim, ?_⟩
    intro now t hanswer
    cases hanswer
    dsimp only
    split
    · exact ⟨h, rfl, hwrites⟩
    · refine wp_handle (wp_bind ((wp_rotate h).mono ?_ ?_))
      · intro log' t ht ⟨hwritten, hcarries⟩
        exact ⟨ht, hwritten, hcarries.active hwrites.active, hcarries.failed.trans hwrites.failed⟩
      · intro failure t ht ⟨hwritten, hcarries⟩
        rw [← hwritten]
        exact wp_tolerate ht (hcarries.failed.trans hwrites.failed)

theorem wp_appendRetrying {line : Bytes} (h : Instant W s) (hwrites : Writes log)
    (hline : W (s.written ++ [line])) :
    Wp device (Instant W) (appendRetrying log line)
      (fun log' t => t.written = s.written ++ [line] ∧ log' = log) F s := by
  refine wp_handle (wp_bind ?_)
  rw [append, if_pos hwrites.active]
  refine ⟨h, fun t ht => ht.elim, ?_⟩
  intro answer t hanswer
  cases hanswer
  have hafter : Instant W (s.append line) := ⟨h.1.append line, hline⟩
  exact ⟨hafter, hafter, rfl, rfl⟩

variable {render : Json Nat → Bytes} {record : Bytes}

theorem wp_boundedRecord (h : Instant W s) :
    Wp device (Instant W) (boundedRecord render record)
      (fun line t => t = s ∧ LineOf render record line) F s := by
  rw [boundedRecord]
  split
  · rename_i hlong
    refine ⟨h, fun t ht => ht.elim, ?_⟩
    intro timestamp t hanswer
    cases hanswer
    refine ⟨h, rfl, ?_⟩
    rw [LineOf, if_pos hlong]
    exact ⟨timestamp, rfl⟩
  · rename_i hshort
    refine ⟨h, rfl, ?_⟩
    rw [LineOf, if_neg hshort]

theorem wp_writeRecord (h : Instant W s) (hwrites : Writes log)
    (hline : ∀ line, LineOf render record line → W (s.written ++ [line])) :
    Wp device (Instant W) (writeRecord render log record)
      (fun log' t => (Writes log' ∧ ∃ line, LineOf render record line ∧
          t.written = s.written ++ [line]) ∨ (log'.failed.isSome ∧ LimitReached log')) F s := by
  have hgoes : ¬log.failed.isSome = true := by
    rw [hwrites.failed]
    exact Bool.false_ne_true
  rw [writeRecord, if_neg hgoes]
  refine (wp_boundedRecord h).andThen ?_
  rintro line t - ⟨rfl, hof⟩
  refine wp_handle ((wp_rotateIfDue h hwrites).mono (fun _ _ _ hq => hq) ?_ |>.andThen ?_)
  · rintro failure u hu ⟨-, hlimit⟩
    exact ⟨hu, Or.inr ⟨rfl, hlimit⟩⟩
  · intro log' u hu ⟨hwritten, hwrites'⟩
    have hnext : W (u.written ++ [line]) := by
      rw [hwritten]
      exact hline line hof
    refine (wp_appendRetrying hu hwrites' hnext).andThen ?_
    rintro _ v hv ⟨hlast, rfl⟩
    refine ⟨hv, Or.inl ⟨⟨hwrites'.active, hwrites'.failed⟩, line, hof, ?_⟩⟩
    rw [hlast, hwritten]

theorem Wrote.concat {start records written : List Bytes} {line : Bytes}
    (h : Wrote render start records written) (hline : LineOf render record line) :
    Wrote render start (records ++ [record]) (written ++ [line]) := by
  obtain ⟨lines, hlines, rfl⟩ := h
  refine ⟨lines ++ [line], ?_, append_assoc ..⟩
  exact rel_append hlines (.cons hline .nil)

/-- The lines of the records up to some point were written. -/
def WrotePart (render : Json Nat → Bytes) (start records written : List Bytes) : Prop :=
  ∃ done, done <+: records ∧ Wrote render start done written

theorem writeRecords_of_failed (h : log.failed.isSome) (records : List Bytes) :
    writeRecords render log records = .ret log := by
  induction records with
  | nil => rfl
  | cons record rest ih =>
    rw [writeRecords, writeRecord, if_pos h]
    exact ih

/-- The invariant is what was written for the records so far. -/
theorem wp_writeRecords {start done rest : List Bytes} (h : Kept s) (hwrites : Writes log)
    (hwrote : Wrote render start done s.written) :
    Wp device (Instant (WrotePart render start (done ++ rest))) (writeRecords render log rest)
      (fun log' t => (log'.failed = none ∧ Wrote render start (done ++ rest) t.written) ∨
        LimitReached log') F s := by
  induction rest generalizing done log s with
  | nil =>
    rw [append_nil]
    exact ⟨⟨h, done, prefix_rfl, hwrote⟩, Or.inl ⟨hwrites.failed, hwrote⟩⟩
  | cons record rest ih =>
    have hsplit : done ++ record :: rest = (done ++ [record]) ++ rest := by
      rw [append_assoc, singleton_append]
    have hnow : Instant (WrotePart render start (done ++ record :: rest)) s :=
      ⟨h, done, prefix_append _ _, hwrote⟩
    have hnext : ∀ line, LineOf render record line →
        WrotePart render start (done ++ record :: rest) (s.written ++ [line]) := by
      intro line hline
      rw [hsplit]
      exact ⟨done ++ [record], prefix_append _ _, hwrote.concat hline⟩
    refine (wp_writeRecord hnow hwrites hnext).andThen ?_
    rintro log' t ht (⟨hwrites', line, hline, hwritten⟩ | ⟨hfailed, hlimit⟩)
    · rw [hsplit]
      refine ih ht.1 hwrites' ?_
      rw [hwritten]
      exact hwrote.concat hline
    · rw [writeRecords_of_failed hfailed]
      exact ⟨ht, Or.inr hlimit⟩

theorem wp_openLog (h : Instant W s) :
    Wp device (Instant W) openLog (fun log t => t.written = s.written ∧ Writes log)
      (fun _ _ => True) s := by
  refine wp_bind ⟨h, ?_⟩
  refine wp_bind (wp_reopen h ?_)
  intro size
  have hopened : Instant W s.openActive := ⟨h.1.openActive, h.2⟩
  dsimp only
  split
  · refine (wp_rotate hopened).mono ?_ fun _ _ _ _ => trivial
    intro log' t ht ⟨hwritten, hcarries⟩
    exact ⟨hwritten, hcarries.active rfl, hcarries.failed⟩
  · exact ⟨hopened, rfl, rfl, rfl⟩

theorem wp_life {records : List Bytes} (h : Kept s) :
    Wp device (Instant (WrotePart render s.written records)) (life render records)
      (fun log t => (log.failed = none ∧ Wrote render s.written records t.written) ∨
        LimitReached log) (fun _ _ => True) s := by
  have hnone : Wrote render s.written [] s.written := ⟨[], .nil, (append_nil _).symm⟩
  have hstart : Instant (WrotePart render s.written records) s :=
    ⟨h, [], nil_prefix, hnone⟩
  refine (wp_openLog hstart).andThen ?_
  intro log t ht ⟨hwritten, hwrites⟩
  have hwrote : Wrote render s.written [] t.written := by
    rw [hwritten]
    exact hnone
  rw [← nil_append records]
  exact wp_writeRecords ht.1 hwrites hwrote

end Records

def Contiguous (disk : Disk) : Prop :=
  ∃ count, count ≤ archives ∧
    ∀ n, 1 ≤ n → n ≤ archives → ((disk (.archive n)).isSome ↔ n ≤ count)

theorem Contiguous.kept {disk : Disk} (h : Contiguous disk) :
    Kept ⟨disk, reading places disk, [], []⟩ := by
  obtain ⟨count, hcount, harchive⟩ := h
  refine ⟨rfl, ?_, count + 1, 0, by omega, by omega, Nat.zero_le _, ?_, by omega⟩
  · intro change hchange
    cases hchange
  · intro n hn hle
    rw [harchive n hn hle]
    omega

/-- Through any lives of the process, cut anywhere: what is read is what was written, but for
the archives that were dropped; a life writes its records in order, and all of them unless the
retry limit is reached. -/
theorem rotation_keeps_records (render : Json Nat → Bytes) {disk : Disk} (hfirst : Contiguous disk)
    {s : State} (hreached : Reached device (fun p => ∃ records, p = life render records)
      ⟨disk, reading places disk, [], []⟩ s) :
    s.dropped.flatten ++ reading places s.disk = s.written ∧
    (∀ change ∈ s.changes, change.Safe) ∧
    AtMostOneGap s.disk ∧
    ∀ records out t, Run device (life render records) s out t →
      WrotePart render s.written records t.written ∧
      ∀ log, out = .finished (.ok log) →
        (log.failed = none ∧ Wrote render s.written records t.written) ∨ LimitReached log := by
  have hkept : Kept s := by
    induction hreached with
    | start => exact hfirst.kept
    | call _ hcall hrun ih =>
      obtain ⟨records, rfl⟩ := hcall
      exact ((wp_life ih).sound hrun).1.1
  obtain ⟨free, top, hshape⟩ := hkept.shape
  refine ⟨hkept.order, hkept.changes, hshape.atMostOneGap, ?_⟩
  intro records out t hrun
  obtain ⟨hinstant, hend⟩ := (wp_life hkept).sound hrun
  refine ⟨hinstant.2, ?_⟩
  intro log hout
  exact hend _ hout

def perform : (o : Op) → State → o.Answer × State
  | .rename source target, s =>
    if (s.disk source).isSome then (.ok (), s.rename source target) else (.error "not found", s)
  | .removeFile place, s =>
    if (s.disk place).isSome then (.ok (), s.removeFile place) else (.error "not found", s)
  | .openActive, s => (fileSize ((s.disk .active).getD []), s.openActive)
  | .append line, s => ((), s.append line)
  | .now, s => ((0 : Nat), s)
  | .timestamp, s => ("", s)

theorem answers_perform (o : Op) (s : State) :
    device.answers o s (perform o s).1 (perform o s).2 := by
  cases o with
  | rename source target =>
    by_cases hthere : (s.disk source).isSome = true
    · rw [show perform (.rename source target) s = (.ok (), s.rename source target) from
        if_pos hthere]
      exact .renamed hthere
    · rw [show perform (.rename source target) s = (.error "not found", s) from if_neg hthere]
      exact .notRenamed _
  | removeFile place =>
    by_cases hthere : (s.disk place).isSome = true
    · rw [show perform (.removeFile place) s = (.ok (), s.removeFile place) from if_pos hthere]
      exact .removed hthere
    · rw [show perform (.removeFile place) s = (.error "not found", s) from if_neg hthere]
      exact .notRemoved _
  | openActive => exact .opened
  | append line => exact .appended
  | now => exact .now _
  | timestamp => exact .timestamp _

def sampleDisk : Disk
  | .archive 1 => some [[1]]
  | .rotating => some [[2]]
  | _ => none

def sampleStart : State := ⟨sampleDisk, reading places sampleDisk, [], []⟩

def sampleEnd : State := (exec perform (life (fun _ => []) [[3]]) sampleStart).2

/-- The next life finishes the rotation and writes on. -/
theorem sample_rotation_finished :
    reading places sampleEnd.disk = [[1], [2], [3]] ∧ sampleEnd.disk .rotating = none ∧
    sampleEnd.dropped.flatten ++ reading places sampleEnd.disk = sampleEnd.written ∧
    AtMostOneGap sampleEnd.disk := by
  have hfirst : Contiguous sampleDisk := by
    refine ⟨1, by decide, ?_⟩
    intro n hn hle
    have hall : ∀ n < 6, 1 ≤ n → ((sampleDisk (.archive n)).isSome ↔ n ≤ 1) := by decide
    exact hall n (Nat.lt_succ_of_le hle) hn
  have hreached : Reached device (fun p => ∃ records, p = life (fun _ => []) records)
      sampleStart sampleEnd :=
    .call .start ⟨[[3]], rfl⟩ (run_exec answers_perform _ sampleStart)
  have hkept := rotation_keeps_records (fun _ => []) hfirst hreached
  exact ⟨rfl, rfl, hkept.1, hkept.2.2.1⟩

end CyberGuard.Service.Rotation
