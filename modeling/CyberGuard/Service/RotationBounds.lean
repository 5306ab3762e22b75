import CyberGuard.Service.RotationOrder
import Mathlib.Order.Interval.Finset.Nat

/-!
# The log stays within its bounds

Where no operation fails, no file outgrows its bound and there are five archives at most, at
every instant; between records the size the log tracks is that of the active file. The
process may be restarted at any operation, also inside a write.

Nothing is asked of which archive places are taken: the rotation looks for a free one each
time.
-/

namespace CyberGuard.Service.Rotation.Bounds
set_option autoImplicit false
open CrashLogic PlacedFiles List

/-- The length of a time of `to_rfc3339_opts` in microseconds, with room for a year of six
digits and its sign. -/
def timestampLength : Nat := 32

def Succeeds : (o : Op) → State → o.Answer → Prop
  | .rename source _, s, answer => (s.disk source).isSome → answer = Except.ok ()
  | .removeFile place, s, answer => (s.disk place).isSome → answer = Except.ok ()
  | .timestamp, _, text => String.length text ≤ timestampLength
  | .openActive, _, _ | .append _, _, _ | .now, _, _ => True

/-- What a write that was cut leaves. Only the number of its bytes is kept: the first
`n + 1` bytes of the line stand as a record of `n`. -/
inductive Cut : Op → State → State → Prop where
  | append {line : Bytes} {s : State} (n : Nat) :
      n ≤ line.length → Cut (.append line) s (s.append (line.take n))

def faultless : Device State Op Op.Answer where
  answers := fun o s answer t => Answers o s answer t ∧ Succeeds o s answer
  partly := Cut

section Answered
variable {s t : State} {source target place : Place}

theorem uncut {o : Op} {C : State → Prop} (ho : ∀ line, o ≠ .append line) :
    ∀ t, faultless.partly o s t → C t := by
  intro t hcut
  cases hcut with
  | append n _ => exact absurd rfl (ho _)

theorem renamed_of_there {answer : Except String Unit} (hthere : (s.disk source).isSome)
    (h : faultless.answers (.rename source target) s answer t) :
    answer = .ok () ∧ t = s.rename source target := by
  obtain ⟨hanswer, hsucceeds⟩ := h
  have hok : answer = .ok () := hsucceeds hthere
  cases hanswer with
  | renamed _ => exact ⟨rfl, rfl⟩
  | notRenamed e => cases hok

theorem removed_of_there {answer : Except String Unit} (hthere : (s.disk place).isSome)
    (h : faultless.answers (.removeFile place) s answer t) :
    answer = .ok () ∧ t = s.removeFile place := by
  obtain ⟨hanswer, hsucceeds⟩ := h
  have hok : answer = .ok () := hsucceeds hthere
  cases hanswer with
  | removed _ => exact ⟨rfl, rfl⟩
  | notRemoved e => cases hok

end Answered

structure Within (disk : Disk) : Prop where
  size : ∀ place, fileSize ((disk place).getD []) ≤ maxFileBytes
  archive : ∀ n, (disk (.archive n)).isSome → 1 ≤ n ∧ n ≤ archives

section Bounds
variable {disk : Disk} {source target place : Place} {records : List Bytes}

theorem Within.card_le (h : Within disk) (taken : Finset Nat)
    (htaken : ∀ n ∈ taken, (disk (.archive n)).isSome) : taken.card ≤ archives := by
  have hsubset : taken ⊆ Finset.Icc 1 archives := by
    intro n hn
    exact Finset.mem_Icc.mpr (h.archive n (htaken n hn))
  have hcard := Finset.card_le_card hsubset
  rw [Nat.card_Icc] at hcard
  omega

theorem size_none : fileSize ((none : Option (List Bytes)).getD []) ≤ maxFileBytes :=
  Nat.zero_le _

theorem Within.move (h : Within disk)
    (htarget : ∀ n, target = .archive n → 1 ≤ n ∧ n ≤ archives) :
    Within (move disk source target) := by
  constructor
  · intro place
    by_cases hsource : place = source
    · rw [hsource, move_source]
      exact size_none
    · by_cases hplace : place = target
      · subst hplace
        rw [move_target hsource]
        exact h.size source
      · rw [move_of_ne hsource hplace]
        exact h.size place
  · intro n hthere
    by_cases hplace : target = .archive n
    · exact htarget n hplace
    · by_cases hsource : Place.archive n = source
      · rw [hsource, move_source] at hthere
        cases hthere
      · rw [move_of_ne hsource (Ne.symm hplace)] at hthere
        exact h.archive n hthere

theorem Within.delete (h : Within disk) : Within (delete disk place) := by
  constructor
  · intro other
    by_cases hplace : other = place
    · rw [hplace, PlacedFiles.delete, Function.update_self]
      exact size_none
    · rw [PlacedFiles.delete, Function.update_of_ne hplace]
      exact h.size other
  · intro n hthere
    by_cases hplace : Place.archive n = place
    · rw [hplace, PlacedFiles.delete, Function.update_self] at hthere
      cases hthere
    · rw [PlacedFiles.delete, Function.update_of_ne hplace] at hthere
      exact h.archive n hthere

theorem Within.put (h : Within disk) (hsize : fileSize records ≤ maxFileBytes) :
    Within (put disk .active records) := by
  constructor
  · intro place
    by_cases hplace : place = .active
    · rw [hplace, PlacedFiles.put, Function.update_self]
      exact hsize
    · rw [PlacedFiles.put, Function.update_of_ne hplace]
      exact h.size place
  · intro n hthere
    rw [PlacedFiles.put, Function.update_of_ne (by simp)] at hthere
    exact h.archive n hthere

end Bounds

theorem fileSize_concat (records : List Bytes) (line : Bytes) :
    fileSize (records ++ [line]) = fileSize records + (line.length + 1) := by
  rw [fileSize, map_append, sum_append]
  rfl

structure Tracks (log : RotatingLog) (s : State) : Prop where
  active : log.active = true
  there : (s.disk .active).isSome
  size : log.size = fileSize ((s.disk .active).getD [])

/-- Between records: no rotation is to be finished and none has failed. -/
structure Steady (log : RotatingLog) (s : State) : Prop extends Tracks log s where
  failed : log.failed = none
  rotationFailing : log.rotationFailing = none
  unfinished : log.unfinished = false
  rotating : s.disk .rotating = none

/-- The program ends with a value, within the bounds at every instant. -/
abbrev Ensures {α : Type} (p : LogProg α) (Q : α → State → Prop) : State → Prop :=
  Wp faultless (fun s => Within s.disk) p Q fun _ _ => False

/-- The archives may have changed, the other two files have not. -/
structure Beside (s t : State) : Prop where
  active : t.disk .active = s.disk .active
  rotating : t.disk .rotating = s.disk .rotating

section Rotating
variable {s : State} {log : RotatingLog} {source target : Place}

theorem ensures_renameFile (h : Within s.disk) (hthere : (s.disk source).isSome)
    (htarget : ∀ n, target = .archive n → 1 ≤ n ∧ n ≤ archives) :
    Ensures (renameFile log source target) (fun _ t => t = s.rename source target) s := by
  refine ⟨h, uncut (by simp), ?_⟩
  intro answer t hanswer
  obtain ⟨rfl, rfl⟩ := renamed_of_there hthere hanswer
  exact ⟨h.move htarget, rfl⟩

theorem Tracks.of_opened (hactive : log.active = true)
    (hsize : log.size = fileSize ((s.disk .active).getD [])) : Tracks log s.openActive := by
  have hopened : s.openActive.disk .active = some ((s.disk .active).getD []) := by
    rw [disk_openActive, put, Function.update_self]
  refine ⟨hactive, ?_, ?_⟩
  · rw [hopened]
    rfl
  · rw [hopened]
    exact hsize

theorem ensures_reopen (h : Within s.disk) :
    Ensures (reopen log) (fun log' t =>
      log' = { log with active := true, size := fileSize ((s.disk .active).getD []) } ∧
        t = s.openActive) s := by
  refine ⟨h, uncut (by simp), ?_⟩
  intro size t hanswer
  cases hanswer.1
  exact ⟨h.put (h.size .active), rfl, rfl⟩

theorem openActive_rotating : s.openActive.disk .rotating = s.disk .rotating := by
  rw [disk_openActive, put_rotating]

theorem ensures_moveActive (h : Within s.disk) (htracks : Tracks log s) :
    Ensures (moveActive log) (fun log' t => Tracks log' t ∧ Carries log log' ∧
      (t.disk .rotating).isSome ∧ log'.size = 0) s := by
  refine ⟨h, uncut (by simp), ?_⟩
  intro answer t hanswer
  obtain ⟨rfl, rfl⟩ := renamed_of_there htracks.there hanswer
  have hmoved : Within (s.rename .active .rotating).disk := h.move fun n hn => nomatch hn
  refine (ensures_reopen hmoved).andThen ?_
  rintro log' t ht ⟨rfl, rfl⟩
  refine wp_bind ⟨ht, ht, Tracks.of_opened rfl rfl, ⟨fun _ => rfl, rfl, rfl, rfl⟩, ?_, ?_⟩
  · rw [openActive_rotating, disk_rename, move_target (by simp)]
    exact htracks.there
  · change fileSize (((s.rename .active .rotating).disk .active).getD []) = 0
    rw [disk_rename, move_source]
    rfl

theorem ensures_beginRotation (h : Within s.disk) (htracks : Tracks log s) :
    Ensures (beginRotation log) (fun log' t => Tracks log' t ∧ Carries log log' ∧
      (t.disk .rotating).isSome ∧ (s.disk .rotating = none → log'.size = 0)) s := by
  refine wp_bind ⟨h, ?_⟩
  cases hthere : (s.disk .rotating).isSome with
  | true =>
    refine ⟨h, htracks, Carries.refl log, hthere, ?_⟩
    intro hnone
    rw [hnone] at hthere
    cases hthere
  | false =>
    refine (ensures_moveActive h htracks).mono ?_ fun _ _ _ hnever => hnever
    rintro log' t _ ⟨htracks', hcarries, hrotating, hempty⟩
    exact ⟨htracks', hcarries, hrotating, fun _ => hempty⟩

def Found (free : Nat) (s : State) : Prop :=
  1 ≤ free ∧ free ≤ archives ∧ ∀ n, 1 ≤ n → n < free → (s.disk (.archive n)).isSome

theorem ensures_freePlace (h : Within s.disk) :
    Ensures (freePlace log) (fun free t => Found free t ∧ Beside s t) s := by
  unfold freePlace
  simp only [Ensures, Wp]
  split
  · rename_i free hfound
    obtain ⟨-, hrange, hbefore⟩ := List.find?_range'_eq_some.mp hfound
    rw [mem_range'_1] at hrange
    refine ⟨h, ⟨hrange.1, by omega, ?_⟩, rfl, rfl⟩
    intro n hone hlt
    simpa using hbefore n hone hlt
  · rename_i hnone
    have hall : ∀ n, 1 ≤ n → n ≤ archives → (s.disk (.archive n)).isSome := by
      intro n hone hle
      simpa using List.find?_range'_eq_none.mp hnone n hone (by omega)
    refine ⟨h, uncut (by simp), ?_⟩
    intro answer t hanswer
    have hlast := hall archives (by decide) (Nat.le_refl _)
    obtain ⟨rfl, rfl⟩ := removed_of_there hlast hanswer
    refine ⟨h.delete, (?_ : Found archives _), ?_, ?_⟩
    · refine ⟨by decide, Nat.le_refl _, ?_⟩
      intro n hone hlt
      rw [disk_removeFile, delete, Function.update_of_ne (by simp; omega)]
      exact hall n hone (by omega)
    · rw [disk_removeFile, delete, Function.update_of_ne (by simp)]
    · rw [disk_removeFile, delete, Function.update_of_ne (by simp)]

theorem ensures_shiftArchives {free : Nat} (h : Within s.disk) (hfound : Found free s) :
    Ensures (shiftArchives log free) (fun _ => Beside s) s := by
  obtain ⟨-, hfree, hbelow⟩ := hfound
  -- the archives still to shift are there, the higher first
  let I : List Nat → State → Prop := fun todo t => Within t.disk ∧ Beside s t ∧
    todo.Pairwise (· > ·) ∧ ∀ n ∈ todo, n < free ∧ (t.disk (.archive n)).isSome
  have hstart : I (List.range' 1 (free - 1)).reverse s := by
    refine ⟨h, ⟨rfl, rfl⟩, pairwise_reverse.mpr pairwise_lt_range', ?_⟩
    intro n hn
    rw [mem_reverse, mem_range'_1] at hn
    exact ⟨by omega, hbelow n hn.1 (by omega)⟩
  refine (wp_forEach (I := I) ?_ (fun t ht => ht.1) hstart).mono ?_ fun _ _ _ hnever => hnever
  · rintro n rest t ⟨hwithin, hbeside, hsorted, hthere⟩
    obtain ⟨hlt, hsource⟩ := hthere n mem_cons_self
    obtain ⟨hhigher, hsorted⟩ := pairwise_cons.mp hsorted
    have htarget : ∀ m, Place.archive (n + 1) = .archive m → 1 ≤ m ∧ m ≤ archives := by
      intro m hm
      cases hm
      omega
    refine (ensures_renameFile hwithin hsource htarget).mono ?_ fun _ _ _ hnever => hnever
    rintro _ _ hnext rfl
    refine ⟨hnext, ⟨?_, ?_⟩, hsorted, ?_⟩
    · rw [disk_rename, move_of_ne (by simp) (by simp)]
      exact hbeside.active
    · rw [disk_rename, move_of_ne (by simp) (by simp)]
      exact hbeside.rotating
    · intro m hm
      have hless := hhigher m hm
      obtain ⟨hmlt, hmthere⟩ := hthere m (mem_cons_of_mem _ hm)
      rw [disk_rename, move_of_ne (by simp; omega) (by simp; omega)]
      exact ⟨hmlt, hmthere⟩
  · intro _ t _ ht
    exact ht.2.1

theorem Tracks.congr {t : State} (h : Tracks log s) (hactive : t.disk .active = s.disk .active) :
    Tracks log t := by
  refine ⟨h.active, ?_, ?_⟩
  · rw [hactive]
    exact h.there
  · rw [hactive]
    exact h.size

/-- Where no rotation was begun the new active file is empty. -/
theorem ensures_rotate (h : Within s.disk) (htracks : Tracks log s) :
    Ensures (rotate log) (fun log' t => Tracks log' t ∧ Carries log log' ∧
      log'.unfinished = false ∧ t.disk .rotating = none ∧
      (s.disk .rotating = none → log'.size = 0)) s := by
  refine (ensures_beginRotation h htracks).andThen ?_
  rintro log' t ht ⟨htracks', hcarries, hrotating, hempty⟩
  refine (ensures_freePlace ht).andThen ?_
  rintro free u hu ⟨hfound, hfreed⟩
  refine (ensures_shiftArchives hu hfound).andThen ?_
  intro _ v hv hshifted
  have hthere : (v.disk .rotating).isSome := by
    rw [hshifted.rotating, hfreed.rotating]
    exact hrotating
  have hfirst : ∀ n, Place.archive 1 = .archive n → 1 ≤ n ∧ n ≤ archives := by
    intro n hn
    cases hn
    decide
  refine (ensures_renameFile hv hthere hfirst).andThen ?_
  rintro _ _ hlast rfl
  have hactive : (v.rename .rotating (.archive 1)).disk .active = t.disk .active := by
    rw [disk_rename, move_of_ne (by simp) (by simp), hshifted.active, hfreed.active]
  have hgone : (v.rename .rotating (.archive 1)).disk .rotating = none := by
    rw [disk_rename, move_source]
  have hend := htracks'.congr hactive
  refine ⟨hlast, ⟨hend.active, hend.there, hend.size⟩, ?_, rfl, hgone, hempty⟩
  exact ⟨hcarries.active, hcarries.failed, hcarries.rotationFailing, hcarries.rotationRetryLimit⟩

end Rotating

section Records
variable {s : State} {log : RotatingLog}

/-- There is room for the line, in an empty file whatever its length. -/
theorem ensures_rotateIfDue {len : Nat} (h : Within s.disk) (hsteady : Steady log s) :
    Ensures (rotateIfDue log len) (fun log' t => Steady log' t ∧
      (log'.size = 0 ∨ log'.size + len ≤ maxFileBytes)) s := by
  simp only [rotateIfDue, hsteady.unfinished, hsteady.rotationFailing]
  split
  · rename_i hroom
    refine ⟨h, hsteady, ?_⟩
    simp at hroom
    omega
  · refine ⟨h, uncut (by simp), ?_⟩
    intro now t hanswer
    cases hanswer.1
    refine wp_handle (wp_bind ((ensures_rotate h hsteady.toTracks).mono ?_ ?_))
    · rintro log' t ht ⟨htracks, hcarries, hfinished, hrotating, hempty⟩
      exact ⟨ht, ⟨⟨htracks.active, htracks.there, htracks.size⟩,
        hcarries.failed.trans hsteady.failed, rfl, hfinished, hrotating⟩,
        Or.inl (hempty hsteady.rotating)⟩
    · intro failure t _ hnever
      exact hnever.elim

theorem disk_append {line : Bytes} : (s.append line).disk =
    put s.disk .active ((s.disk .active).getD [] ++ [line]) := rfl

theorem Steady.append {line : Bytes} (h : Steady log s) :
    Steady { log with size := log.size + (line.length + 1) } (s.append line) := by
  have hactive : (s.append line).disk .active = some ((s.disk .active).getD [] ++ [line]) := by
    rw [disk_append, put, Function.update_self]
  refine ⟨⟨h.active, ?_, ?_⟩, h.failed, h.rotationFailing, h.unfinished, ?_⟩
  · rw [hactive]
    rfl
  · rw [hactive, Option.getD_some, fileSize_concat, ← h.size]
  · rw [disk_append, put_rotating]
    exact h.rotating

theorem Within.append {line : Bytes} (h : Within s.disk)
    (hroom : fileSize ((s.disk .active).getD []) + (line.length + 1) ≤ maxFileBytes) :
    Within (s.append line).disk := by
  apply h.put
  rw [fileSize_concat]
  exact hroom

theorem ensures_appendRetrying {line : Bytes} (h : Within s.disk) (htracks : Tracks log s)
    (hroom : log.size + (line.length + 1) ≤ maxFileBytes) :
    Ensures (appendRetrying log line) (fun log' t => log' = log ∧ t = s.append line) s := by
  rw [htracks.size] at hroom
  refine wp_handle (wp_bind ?_)
  rw [append, if_pos htracks.active]
  refine ⟨h, ?_, ?_⟩
  · rintro t ⟨n, hn⟩
    apply h.append
    rw [length_take]
    omega
  · intro answer t hanswer
    cases hanswer.1
    exact ⟨h.append hroom, h.append hroom, rfl, rfl⟩

/-- A diagnostic is a record within the bound: its time is one of `to_rfc3339_opts` and the
length a `usize`. -/
def RendersBounded (render : Json Nat → Bytes) : Prop :=
  ∀ (timestamp : String) (len : Nat), timestamp.length ≤ timestampLength → len < 2 ^ 64 →
    (render (oversizedRecord timestamp len)).length + 1 ≤ maxRecordBytes

variable {render : Json Nat → Bytes} {record : Bytes}

theorem ensures_boundedRecord (hrender : RendersBounded render) (h : Within s.disk)
    (hrecord : record.length < 2 ^ 64) :
    Ensures (boundedRecord render record)
      (fun line t => t = s ∧ line.length + 1 ≤ maxRecordBytes) s := by
  rw [boundedRecord]
  split
  · refine ⟨h, uncut (by simp), ?_⟩
    rintro timestamp t ⟨hanswer, hlength⟩
    cases hanswer
    exact ⟨h, rfl, hrender timestamp record.length hlength hrecord⟩
  · rename_i hshort
    exact ⟨h, rfl, Nat.le_of_not_lt hshort⟩

theorem ensures_writeRecord (hrender : RendersBounded render) (h : Within s.disk)
    (hsteady : Steady log s) (hrecord : record.length < 2 ^ 64) :
    Ensures (writeRecord render log record) Steady s := by
  have hgoes : ¬log.failed.isSome = true := by
    rw [hsteady.failed]
    exact Bool.false_ne_true
  rw [writeRecord, if_neg hgoes]
  refine (ensures_boundedRecord hrender h hrecord).andThen ?_
  rintro line t ht ⟨hsame, hline⟩
  subst hsame
  refine Wp.orElse ((ensures_rotateIfDue h hsteady).andThen ?_) fun _ _ _ hnever => hnever.elim
  rintro log' t ht ⟨hsteady', hroom⟩
  have hfits : log'.size + (line.length + 1) ≤ maxFileBytes := by
    have hless : maxRecordBytes ≤ maxFileBytes := by decide
    omega
  refine (ensures_appendRetrying ht hsteady'.toTracks hfits).andThen ?_
  rintro _ _ hend ⟨rfl, rfl⟩
  exact ⟨hend, hsteady'.append⟩

theorem ensures_writeRecords {records : List Bytes} (hrender : RendersBounded render)
    (h : Within s.disk) (hsteady : Steady log s)
    (hrecords : ∀ record ∈ records, record.length < 2 ^ 64) :
    Ensures (writeRecords render log records) Steady s := by
  induction records generalizing log s with
  | nil => exact ⟨h, hsteady⟩
  | cons record rest ih =>
    have hfirst := hrecords record mem_cons_self
    refine (ensures_writeRecord hrender h hsteady hfirst).andThen ?_
    intro log' t ht hsteady'
    exact ih ht hsteady' fun other hother => hrecords other (mem_cons_of_mem _ hother)

/-- A restart finishes the rotation it finds. The active file may be full then, and is
rotated before the first record. -/
theorem ensures_openLog (h : Within s.disk) : Ensures openLog Steady s := by
  refine wp_bind ⟨h, ?_⟩
  refine (ensures_reopen h).andThen ?_
  rintro _ _ ht ⟨rfl, rfl⟩
  dsimp only
  split
  · refine (ensures_rotate ht (Tracks.of_opened rfl rfl)).mono ?_ fun _ _ _ hnever => hnever
    rintro log' t _ ⟨htracks, hcarries, hfinished, hrotating, _⟩
    exact ⟨htracks, hcarries.failed, hcarries.rotationFailing, hfinished, hrotating⟩
  · rename_i hskip
    have hnone : (s.disk .rotating).isSome = false := by
      rw [Bool.or_eq_true, not_or] at hskip
      exact Bool.eq_false_iff.mpr hskip.2
    refine ⟨ht, Tracks.of_opened rfl rfl, rfl, rfl, hnone, ?_⟩
    rw [openActive_rotating]
    simpa using hnone

theorem ensures_life {records : List Bytes} (hrender : RendersBounded render)
    (h : Within s.disk) (hrecords : ∀ record ∈ records, record.length < 2 ^ 64) :
    Ensures (life render records) Steady s := by
  refine (ensures_openLog h).andThen ?_
  intro log t ht hsteady
  exact ensures_writeRecords hrender ht hsteady hrecords

end Records

/-- A life that writes records of any number; the length of each is a `usize`. -/
def IsLife (render : Json Nat → Bytes) (p : LogProg RotatingLog) : Prop :=
  ∃ records : List Bytes, (∀ record ∈ records, record.length < 2 ^ 64) ∧ p = life render records

/-- After any lives, each cut anywhere, the bounds hold at every instant of the next. A life
that is not cut ends with its last `write_record`, and its records are any: after each of
them the log goes on, with the size of the active file. -/
theorem log_within_bounds {render : Json Nat → Bytes} (hrender : RendersBounded render)
    {first s t : State} (hfirst : Within first.disk)
    (hlives : Reached faultless (IsLife render) first s) {p : LogProg RotatingLog}
    (hlife : IsLife render p) {out : Outcome (RotatingLog × String) RotatingLog}
    (hrun : Run faultless p s out t) :
    (∀ place, fileSize ((t.disk place).getD []) ≤ maxFileBytes) ∧
    (∀ taken : Finset Nat, (∀ n ∈ taken, (t.disk (.archive n)).isSome) →
      taken.card ≤ archives) ∧
    ∀ result, out = .finished result → ∃ log, result = .ok log ∧ log.failed = none ∧
      (t.disk .active).isSome ∧ log.size = fileSize ((t.disk .active).getD []) := by
  have hensures : ∀ p s, IsLife render p → Within s.disk → Ensures p Steady s := by
    rintro _ s ⟨records, hrecords, rfl⟩ hwithin
    exact ensures_life hrender hwithin hrecords
  have hwithin : Within s.disk := hlives.invariant (C := fun s => Within s.disk) hfirst hensures
  obtain ⟨hbounds, hend⟩ := (hensures p s hlife hwithin).sound hrun
  refine ⟨hbounds.size, hbounds.card_le, ?_⟩
  intro result hout
  have hsteady := hend result hout
  cases result with
  | ok log => exact ⟨log, rfl, hsteady.failed, hsteady.there, hsteady.size⟩
  | error failure => exact hsteady.elim

theorem succeeds_perform (o : Op) (s : State) :
    faultless.answers o s (perform o s).1 (perform o s).2 := by
  refine ⟨answers_perform o s, ?_⟩
  cases o with
  | rename source target =>
    intro hthere
    rw [show perform (.rename source target) s = (.ok (), s.rename source target) from
      if_pos hthere]
  | removeFile place =>
    intro hthere
    rw [show perform (.removeFile place) s = (.ok (), s.removeFile place) from if_pos hthere]
  | timestamp => exact Nat.zero_le _
  | openActive | append | now => trivial

/-- The life that finds a rotation cut after its first rename, and the size it ends with. -/
theorem sample_life_within_bounds :
    (∀ place, fileSize ((sampleEnd.disk place).getD []) ≤ maxFileBytes) ∧
    ∃ log, (exec perform (life (fun _ => []) [[3]]) sampleStart).1 = .ok log ∧ log.size = 2 := by
  have hfirst : Within sampleStart.disk := by
    constructor
    · intro place
      change fileSize ((sampleDisk place).getD []) ≤ maxFileBytes
      unfold sampleDisk
      split
      · decide
      · decide
      · exact size_none
    · intro n hthere
      change (sampleDisk (.archive n)).isSome = true at hthere
      unfold sampleDisk at hthere
      split at hthere
      · rename_i hplace
        cases hplace
        decide
      · rename_i hplace
        cases hplace
      · cases hthere
  have hlife : IsLife (fun _ => []) (life (fun _ => []) [[3]]) := by
    refine ⟨[[3]], ?_, rfl⟩
    intro record hrecord
    rw [mem_singleton.mp hrecord]
    decide
  have hrender : RendersBounded fun _ => [] := by
    intro timestamp len _ _
    exact (by decide : 0 + 1 ≤ maxRecordBytes)
  have hrun := run_exec succeeds_perform (life (fun _ => []) [[3]]) sampleStart
  have hbounds := log_within_bounds hrender hfirst .start hlife hrun
  obtain ⟨log, hlog, -, -, hsize⟩ := hbounds.2.2 _ rfl
  refine ⟨hbounds.1, log, hlog, ?_⟩
  rw [hsize]
  rfl

end CyberGuard.Service.Rotation.Bounds
