import Mathlib.Order.Nat
import CyberGuard.Auth.UserChanges

/-!
# The last active admin is kept

A transaction that takes an admin's authority away holds the lock of another
active admin, seen as such after the lock was taken, until it ends. No commit of
another transaction can touch that row meanwhile, so the count the decision was
made on stays true where it matters. The locks are taken in the order of the user
ids, which excludes cycles of waiting.
-/

namespace CyberGuard.Auth.Transactions
set_option autoImplicit false
open Interleaving RowLocks List

variable {UserId : Type}

def AdminOf (orgId : String) (row : UserRow) : Prop :=
  row.orgId = orgId ∧ row.isActiveAdmin = true

def HasAdmin (orgId : String) (users : UserId → Option UserRow) : Prop :=
  ∃ userId row, users userId = some row ∧ AdminOf orgId row

structure Secures (db : UsersDb UserId) (i : Nat) (orgId : String) (userId : UserId) : Prop where
  held : db.holder userId = some i
  admin : ∃ row, db.committed userId = some row ∧ AdminOf orgId row

/-- Whenever transaction `i` has written away an active admin, it secures another one. -/
def Keeps (orgId : String) (i : Nat) (db : UsersDb UserId) : Prop :=
  ∀ userId old new, db.pending i userId = some new → db.committed userId = some old →
    AdminOf orgId old → ¬ AdminOf orgId new →
    ∃ other, db.pending i other = none ∧ Secures db i orgId other

/-- Transaction `i` has neither written nor locked anything. -/
structure Idle (db : UsersDb UserId) (i : Nat) : Prop where
  pending : ∀ userId, db.pending i userId = none
  holder : ∀ userId, db.holder userId ≠ some i

variable {db db' : UsersDb UserId} {i : Nat} {orgId : String} {c : Change UserId} {role : Role}
  {status : UserStatus} {locked : List (UserId × UserRow)} {todo : List UserId} {pc : Pc UserId}
  {row : UserRow}

theorem Secures.frame {userId : UserId} (h : Secures db i orgId userId) (hframe : Frame i db db') :
    Secures db' i orgId userId := by
  obtain ⟨row, hrow, hadmin⟩ := h.admin
  refine ⟨(hframe.holder userId).mpr h.held, row, ?_, hadmin⟩
  rw [hframe.committed userId h.held]
  exact hrow

theorem Keeps.frame (h : Keeps orgId i db) (hown : Owned db) (hframe : Frame i db db') :
    Keeps orgId i db' := by
  intro userId old new hnew hold hadmin hgone
  rw [hframe.pending] at hnew
  have hheld : db.holder userId = some i := by
    apply hown i userId
    rw [hnew]
    simp
  rw [hframe.committed userId hheld] at hold
  obtain ⟨other, hpending, hsecures⟩ := h userId old new hnew hold hadmin hgone
  refine ⟨other, ?_, hsecures.frame hframe⟩
  rw [hframe.pending]
  exact hpending

theorem keeps_of_idle (hpending : ∀ userId, db.pending i userId = none) : Keeps orgId i db := by
  intro userId old new hnew
  rw [hpending] at hnew
  exact absurd hnew (by simp)

theorem HasAdmin.commit (h : HasAdmin orgId db.committed) (hkeeps : Keeps orgId i db) :
    HasAdmin orgId (db.commit i).committed := by
  obtain ⟨userId, old, hold, hadmin⟩ := h
  cases hnew : db.pending i userId with
  | none =>
    refine ⟨userId, old, ?_, hadmin⟩
    rw [committed_commit, hnew, Option.none_or]
    exact hold
  | some new =>
    by_cases hstill : AdminOf orgId new
    · refine ⟨userId, new, ?_, hstill⟩
      rw [committed_commit, hnew, Option.some_or]
    · obtain ⟨other, hpending, hsecures⟩ := hkeeps userId old new hnew hold hadmin hstill
      obtain ⟨row, hrow, hother⟩ := hsecures.admin
      refine ⟨other, row, ?_, hother⟩
      rw [committed_commit, hpending, Option.none_or]
      exact hrow

theorem Idle.frame (h : Idle db i) (hframe : Frame i db db') : Idle db' i := by
  refine ⟨?_, ?_⟩
  · rw [hframe.pending]
    exact h.pending
  · intro userId hheld
    exact h.holder userId ((hframe.holder userId).mp hheld)

/-- The change is decided: its target is locked, and where it takes an admin away another one
is secured. -/
structure Decided (db : UsersDb UserId) (i : Nat) (c : Change UserId) (role : Role)
    (status : UserStatus) : Prop where
  pending : ∀ userId, db.pending i userId = none
  target : ∃ row, db.holder c.targetId = some i ∧ db.committed c.targetId = some row ∧
    row.orgId = c.orgId ∧
    (row.isActiveAdmin = true → ¬ (role = .admin ∧ status = .active) →
      ∃ other, other ≠ c.targetId ∧ Secures db i c.orgId other)

theorem Decided.frame (h : Decided db i c role status) (hframe : Frame i db db') :
    Decided db' i c role status := by
  obtain ⟨row, hheld, hrow, horg, hother⟩ := h.target
  refine ⟨?_, row, (hframe.holder c.targetId).mpr hheld, ?_, horg, ?_⟩
  · rw [hframe.pending]
    exact h.pending
  · rw [hframe.committed c.targetId hheld]
    exact hrow
  · intro hadmin hgone
    obtain ⟨other, hne, hsecures⟩ := hother hadmin hgone
    exact ⟨other, hne, hsecures.frame hframe⟩

/-- Of two active admins with different ids, one is not the target. -/
theorem exists_other_admin [DecidableEq UserId] (hnodup : (locked.map Prod.fst).Nodup)
    (htwo : 1 < (locked.filter fun entry => entry.2.isActiveAdmin).length) (targetId : UserId) :
    ∃ entry ∈ locked, entry.2.isActiveAdmin = true ∧ entry.1 ≠ targetId := by
  have hmem : ∀ entry ∈ locked.filter fun entry => entry.2.isActiveAdmin,
      entry ∈ locked ∧ entry.2.isActiveAdmin = true := by
    intro entry hentry
    exact mem_filter.mp hentry
  have hdistinct : ((locked.filter fun entry => entry.2.isActiveAdmin).map Prod.fst).Nodup :=
    hnodup.sublist (filter_sublist.map Prod.fst)
  match hadmins : locked.filter fun entry => entry.2.isActiveAdmin with
  | [] | [_] =>
    rw [hadmins] at htwo
    simp at htwo
  | first :: second :: rest =>
    rw [hadmins] at hmem hdistinct
    have hne : first.1 ≠ second.1 := by
      simp only [map_cons, nodup_cons, mem_cons, not_or] at hdistinct
      exact hdistinct.1.1
    by_cases hfirst : first.1 = targetId
    · obtain ⟨hin, hadmin⟩ := hmem second (by simp)
      exact ⟨second, hin, hadmin, fun hsecond => hne (hfirst.trans hsecond.symm)⟩
    · obtain ⟨hin, hadmin⟩ := hmem first (by simp)
      exact ⟨first, hin, hadmin, hfirst⟩

variable [LinearOrder UserId]

/-- The rows the `SELECT` has returned so far are locked, current and pass its condition; those
still to lock are above every lock held. -/
structure Locking (db : UsersDb UserId) (i : Nat) (c : Change UserId) (todo : List UserId)
    (locked : List (UserId × UserRow)) : Prop where
  pending : ∀ userId, db.pending i userId = none
  ascending : todo.Pairwise (· < ·)
  above : ∀ held, db.holder held = some i → ∀ next ∈ todo, held < next
  current : ∀ entry ∈ locked, db.holder entry.1 = some i ∧
    db.committed entry.1 = some entry.2 ∧ c.Selects entry.1 entry.2
  nodup : (locked.map Prod.fst).Nodup

def Stands (orgId : String) (i : Nat) (db : UsersDb UserId) : Pc UserId → Prop
  | .selectForUpdate _ | .insertUser _ _ | .updatePassword _ _ => Idle db i
  | .locking c todo locked => Locking db i c todo locked
  | .updateUser c role status => Decided db i c role status
  | .appendAudit | .commit => Keeps orgId i db
  | .ended => True

structure Kept (orgId : String) (n : Nat) (db : UsersDb UserId) : Prop where
  owned : Owned db
  unused : ∀ i, n ≤ i → Idle db i
  admin : HasAdmin orgId db.committed

theorem Locking.frame (h : Locking db i c todo locked) (hframe : Frame i db db') :
    Locking db' i c todo locked := by
  refine ⟨?_, h.ascending, ?_, ?_, h.nodup⟩
  · rw [hframe.pending]
    exact h.pending
  · intro held hheld
    exact h.above held ((hframe.holder held).mp hheld)
  · intro entry hentry
    obtain ⟨hheld, hrow, hselects⟩ := h.current entry hentry
    refine ⟨(hframe.holder entry.1).mpr hheld, ?_, hselects⟩
    rw [hframe.committed entry.1 hheld]
    exact hrow

theorem Stands.frame (h : Stands orgId i db pc) (hown : Owned db) (hframe : Frame i db db') :
    Stands orgId i db' pc := by
  cases pc with
  | selectForUpdate | insertUser | updatePassword => exact Idle.frame h hframe
  | locking c todo locked => exact Locking.frame h hframe
  | updateUser c role status => exact Decided.frame h hframe
  | appendAudit | commit => exact Keeps.frame h hown hframe
  | ended => trivial

theorem act_spec {pc' : Pc UserId} (hpc : Stands orgId i db pc) (hown : Owned db)
    (h : Act i db pc db' pc') :
    Owned db' ∧ (∀ j, i ≠ j → Frame j db db') ∧
      (HasAdmin orgId db.committed → HasAdmin orgId db'.committed) := by
  cases h with
  | lockedRow havail _ _ => exact ⟨hown.lock havail, fun j hne => lock_frame hne havail, id⟩
  | lockedNone havail _ => exact ⟨hown.lock havail, fun j hne => lock_frame hne havail, id⟩
  | updated havail _ => exact ⟨hown.write havail, fun j hne => write_frame hne havail, id⟩
  | inserted havail _ _ => exact ⟨hown.write havail, fun j hne => write_frame hne havail, id⟩
  | passwordSet havail _ => exact ⟨hown.write havail, fun j hne => write_frame hne havail, id⟩
  | committed =>
    exact ⟨hown.commit i, fun j hne => commit_frame hown hne, fun hadmin => hadmin.commit hpc⟩
  | refused | rolledBack => exact ⟨hown.abort i, fun j hne => abort_frame hne, id⟩
  | _ => exact ⟨hown, fun j _ => Frame.refl j db, id⟩

/-- A change that is not refused found its target among the locked rows, and another active
admin there if it takes one away. -/
theorem decideOn_ok (h : c.decideOn locked = .ok (role, status)) :
    ∃ target, (c.targetId, target) ∈ locked ∧ role = c.roleOf target ∧
      status = c.statusOf target ∧ (c.removesAnAdmin target = true →
        1 < (locked.filter fun entry => entry.2.isActiveAdmin).length) := by
  unfold Change.decideOn at h
  split at h
  · exact absurd h (by simp)
  · rename_i foundId target hfind
    have hmem := mem_of_find?_eq_some hfind
    have hid : foundId = c.targetId := by simpa using List.find?_some hfind
    subst hid
    simp only at h
    split at h
    · exact absurd h (by simp)
    · rename_i hallowed
      have hpair := Except.ok.inj h
      obtain ⟨rfl, rfl⟩ := Prod.mk.inj hpair
      refine ⟨target, hmem, rfl, rfl, ?_⟩
      intro hremoves
      simp only [hremoves, Bool.true_and, decide_eq_true_eq] at hallowed
      omega

theorem Locking.decided (h : Locking db i c [] locked)
    (hok : c.decideOn locked = .ok (role, status)) :
    Decided db i c role status := by
  obtain ⟨target, hmem, rfl, rfl, hcount⟩ := decideOn_ok hok
  obtain ⟨hheld, hrow, horg, _⟩ := h.current _ hmem
  refine ⟨h.pending, target, hheld, hrow, horg, ?_⟩
  intro hadmin hgone
  have hremoves : c.removesAnAdmin target = true := by
    simp only [Change.removesAnAdmin, hadmin, Bool.true_and, Bool.or_eq_true, decide_eq_true_eq]
    by_cases hrole : c.roleOf target = .admin
    · exact Or.inr fun hstatus => hgone ⟨hrole, hstatus⟩
    · exact Or.inl hrole
  obtain ⟨entry, hentry, hother, hne⟩ := exists_other_admin h.nodup (hcount hremoves) c.targetId
  obtain ⟨hheld', hrow', horg', _⟩ := h.current entry hentry
  exact ⟨entry.1, hne, hheld', entry.2, hrow', horg', hother⟩

theorem Locking.lock {next : UserId} (h : Locking db i c (next :: todo) locked) :
    Locking (db.lock i next) i c todo locked := by
  obtain ⟨hnext, hascending⟩ := pairwise_cons.mp h.ascending
  refine ⟨h.pending, hascending, ?_, ?_, h.nodup⟩
  · intro held hheld later hlater
    by_cases hsame : held = next
    · subst hsame
      exact hnext later hlater
    · apply h.above held _ later (mem_cons_of_mem next hlater)
      simpa only [Db.lock, Function.update_of_ne hsame] using hheld
  · intro entry hentry
    obtain ⟨hheld, hrow, hselects⟩ := h.current entry hentry
    refine ⟨?_, hrow, hselects⟩
    by_cases hsame : entry.1 = next
    · rw [hsame]
      exact Function.update_self _ _ _
    · simpa only [Db.lock, Function.update_of_ne hsame] using hheld

theorem Locking.lockedRow {next : UserId} (h : Locking db i c (next :: todo) locked)
    (hview : db.view i next = some row) (hselects : c.Selects next row) :
    Locking (db.lock i next) i c todo (locked ++ [(next, row)]) := by
  have hlock := h.lock
  have hrow : db.committed next = some row := by
    rw [Db.view, h.pending next, Option.none_or] at hview
    exact hview
  refine ⟨hlock.pending, hlock.ascending, hlock.above, ?_, ?_⟩
  · intro entry hentry
    rcases mem_append.mp hentry with hold | hnew
    · exact hlock.current entry hold
    · rw [mem_singleton.mp hnew]
      exact ⟨Function.update_self _ _ _, hrow, hselects⟩
  · rw [map_append, map_singleton, nodup_append]
    refine ⟨h.nodup, by simp, ?_⟩
    intro held hheld last hlast
    rw [mem_singleton.mp hlast]
    obtain ⟨entry, hentry, rfl⟩ := mem_map.mp hheld
    -- every row locked before is below the next one
    exact ne_of_lt (h.above entry.1 (h.current entry hentry).1 next mem_cons_self)

theorem Decided.keeps (h : Decided db i c role status) (hview : db.view i c.targetId = some row)
    (version : Nat) :
    Keeps orgId i (db.write i c.targetId
      { row with role := role, status := status, authorityVersion := version }) := by
  obtain ⟨target, _, hrow, horg, hother⟩ := h.target
  rw [Db.view, h.pending, Option.none_or, hrow] at hview
  obtain rfl := Option.some.inj hview
  intro userId old new hnew hold hadmin hgone
  by_cases hid : userId = c.targetId
  · subst hid
    obtain rfl := Option.some.inj (pending_write_self.symm.trans hnew)
    obtain rfl := Option.some.inj (hrow.symm.trans hold)
    obtain ⟨hsame, hactive⟩ := hadmin
    have hremoved : ¬ (role = .admin ∧ status = .active) := by
      rintro ⟨rfl, rfl⟩
      exact hgone ⟨hsame, rfl⟩
    obtain ⟨other, hne, hsecures⟩ := hother hactive hremoved
    obtain ⟨held, hsecured⟩ := hsecures
    refine ⟨other, ?_, ?_, ?_⟩
    · rw [pending_write_of_ne hne]
      exact h.pending other
    · rw [holder_write_of_ne hne]
      exact held
    · rw [← hsame, horg]
      exact hsecured
  · rw [pending_write_of_ne hid, h.pending] at hnew
    exact absurd hnew (by simp)

theorem keeps_write {userId : UserId} (hpending : ∀ other, db.pending i other = none)
    (hsame : ∀ old, db.committed userId = some old → AdminOf orgId old → AdminOf orgId row) :
    Keeps orgId i (db.write i userId row) := by
  intro other old new hnew hold hadmin hgone
  by_cases hid : other = userId
  · subst hid
    obtain rfl := Option.some.inj (pending_write_self.symm.trans hnew)
    exact absurd (hsame old hold hadmin) hgone
  · rw [pending_write_of_ne hid, hpending] at hnew
    exact absurd hnew (by simp)

theorem Stands.act {pc' : Pc UserId} (hpc : Stands orgId i db pc) (h : Act i db pc db' pc') :
    Stands orgId i db' pc' := by
  cases h with
  | selected todo hascending hsnapshot =>
    refine ⟨hpc.pending, hascending, ?_, by simp, by simp⟩
    intro held hheld
    exact absurd hheld (hpc.holder held)
  | lockedRow havail hview hselects => exact Locking.lockedRow hpc hview hselects
  | lockedNone havail hnone => exact Locking.lock hpc
  | decided hok => exact Locking.decided hpc hok
  | updated havail hview => exact Decided.keeps hpc hview _
  | inserted havail habsent _ =>
    apply keeps_write hpc.pending
    intro old hold
    rw [habsent] at hold
    exact absurd hold (by simp)
  | @passwordSet userId passwordHash row havail hview =>
    apply keeps_write hpc.pending
    intro old hold hadmin
    rw [Db.view, hpc.pending, Option.none_or, hold] at hview
    obtain rfl := Option.some.inj hview
    exact hadmin
  | passwordNone hnone => exact keeps_of_idle hpc.pending
  | audited => exact hpc
  | refused | committed | rolledBack => trivial

theorem outline (orgId : String) :
    Outline (userTransactions : Program (UsersDb UserId) (Pc UserId)) (Kept orgId)
      (Stands orgId) where
  spawn := by
    intro n db pc hdb hstart
    refine ⟨⟨hdb.owned, fun i hi => hdb.unused i (by omega), hdb.admin⟩, ?_⟩
    have hidle := hdb.unused n (Nat.le_refl n)
    cases hstart <;> exact hidle
  self := by
    intro n i db pc db' pc' hi hdb hpc hact
    obtain ⟨hown, hframe, hadmin⟩ := act_spec hpc hdb.owned hact
    refine ⟨⟨hown, ?_, hadmin hdb.admin⟩, hpc.act hact⟩
    intro j hj
    exact (hdb.unused j hj).frame (hframe j (by omega))
  other := by
    intro n i j db pc db' pc' qc hne hdb hpc hqc hact
    obtain ⟨_, hframe, _⟩ := act_spec hpc hdb.owned hact
    exact hqc.frame hdb.owned (hframe j hne)
  env := by
    intro n db db' hdb henv
    exact absurd henv id

/-- The row each transaction of the pool is to lock next. -/
def wanted (p : Pool (UsersDb UserId) (Pc UserId)) (t : Nat) : Option UserId :=
  p.threads[t]?.bind Pc.wants

theorem ordered_of_holds {p : Pool (UsersDb UserId) (Pc UserId)}
    (h : Holds (Kept orgId) (Stands orgId) p) : Ordered p.store (wanted p) := by
  intro t held next hheld hwants
  obtain ⟨pc, hpc, hnext⟩ := Option.bind_eq_some_iff.mp hwants
  have hstands := h.thread t pc hpc
  cases pc with
  | locking c todo locked =>
    cases todo with
    | nil => exact absurd hnext (by simp [Pc.wants])
    | cons first rest =>
      obtain rfl := Option.some.inj hnext
      exact hstands.above held hheld first mem_cons_self
  | insertUser | updatePassword => exact absurd hheld (hstands.holder held)
  | _ => exact absurd hnext (by simp [Pc.wants])

/-- From a table with an active admin of the org, over any interleaving of role and status
changes, new users and password changes that may roll back anywhere: the committed table always
has an active admin of the org, and no transactions wait for each other in a cycle. -/
theorem last_active_admin_kept {orgId : String} {users : UserId → Option UserRow}
    (hadmin : HasAdmin orgId users) {p : Pool (UsersDb UserId) (Pc UserId)}
    (hrun : Run userTransactions ⟨Db.quiet users, []⟩ p) :
    HasAdmin orgId p.store.committed ∧
      ∀ t, ¬ Relation.TransGen (Waits p.store (wanted p)) t t := by
  have hinit : Kept orgId 0 (Db.quiet users : UsersDb UserId) :=
    ⟨Owned.quiet users, fun i _ => ⟨fun _ => rfl, fun _ => by simp [Db.quiet]⟩, hadmin⟩
  have hp := (outline orgId).run (Holds.initial hinit) hrun
  exact ⟨hp.store.admin, (ordered_of_holds hp).no_wait_cycle⟩

def sampleAdmin : UserRow := ⟨"default", "", "", "", true, .admin, .active, 0⟩

def sampleUsers (userId : Nat) : Option UserRow :=
  if userId = 1 ∨ userId = 2 then some sampleAdmin else none

/-- One of the two admins is demoted; the other one is left. -/
theorem sample_demotion : ∃ p : Pool (UsersDb Nat) (Pc Nat),
    Run userTransactions ⟨Db.quiet sampleUsers, []⟩ p ∧ p.threads = [.ended] ∧
      HasAdmin "default" p.store.committed := by
  let c : Change Nat := assignRole "default" 1 .viewer
  let db₀ : UsersDb Nat := Db.quiet sampleUsers
  have hspawn : Step userTransactions ⟨db₀, []⟩ ⟨db₀, [.selectForUpdate c]⟩ :=
    .spawn (.assignRole "default" 1 .viewer)
  have hselect : Step userTransactions ⟨db₀, [.selectForUpdate c]⟩ ⟨db₀, [.locking c [1, 2] []]⟩ := by
    refine .act (i := 0) rfl (.selected [1, 2] (by decide) ?_)
    intro userId
    simp [db₀, Db.view, Db.quiet, sampleUsers, c, Change.Selects, assignRole, sampleAdmin,
      UserRow.isActiveAdmin]
  have hfirst : Step userTransactions ⟨db₀, [.locking c [1, 2] []]⟩
      ⟨db₀.lock 0 1, [.locking c [2] [(1, sampleAdmin)]]⟩ :=
    .act (i := 0) rfl (.lockedRow (Or.inl rfl) rfl (by decide))
  have hsecond : Step userTransactions ⟨db₀.lock 0 1, [.locking c [2] [(1, sampleAdmin)]]⟩
      ⟨(db₀.lock 0 1).lock 0 2, [.locking c [] [(1, sampleAdmin), (2, sampleAdmin)]]⟩ :=
    .act (i := 0) rfl (.lockedRow (Or.inl rfl) rfl (by decide))
  have hdecide : Step userTransactions
      ⟨(db₀.lock 0 1).lock 0 2, [.locking c [] [(1, sampleAdmin), (2, sampleAdmin)]]⟩
      ⟨(db₀.lock 0 1).lock 0 2, [.updateUser c .viewer .active]⟩ :=
    .act (i := 0) rfl (.decided rfl)
  have hupdate : Step userTransactions
      ⟨(db₀.lock 0 1).lock 0 2, [.updateUser c .viewer .active]⟩
      ⟨((db₀.lock 0 1).lock 0 2).write 0 1
        { sampleAdmin with role := .viewer, authorityVersion := 1 }, [.appendAudit]⟩ :=
    .act (i := 0) rfl (.updated (Or.inr rfl) rfl)
  have haudit : Step userTransactions
      ⟨((db₀.lock 0 1).lock 0 2).write 0 1
        { sampleAdmin with role := .viewer, authorityVersion := 1 }, [.appendAudit]⟩
      ⟨((db₀.lock 0 1).lock 0 2).write 0 1
        { sampleAdmin with role := .viewer, authorityVersion := 1 }, [.commit]⟩ :=
    .act (i := 0) rfl .audited
  have hcommit : Step userTransactions
      ⟨((db₀.lock 0 1).lock 0 2).write 0 1
        { sampleAdmin with role := .viewer, authorityVersion := 1 }, [.commit]⟩
      ⟨(((db₀.lock 0 1).lock 0 2).write 0 1
        { sampleAdmin with role := .viewer, authorityVersion := 1 }).commit 0, [.ended]⟩ :=
    .act (i := 0) rfl .committed
  have hrun := (((((((Relation.ReflTransGen.single hspawn).tail hselect).tail hfirst).tail
    hsecond).tail hdecide).tail hupdate).tail haudit).tail hcommit
  have hadmin : HasAdmin "default" sampleUsers := ⟨2, sampleAdmin, rfl, rfl, rfl⟩
  exact ⟨_, hrun, rfl, (last_active_admin_kept hadmin hrun).1⟩

end CyberGuard.Auth.Transactions
