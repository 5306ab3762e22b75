import Mathlib.Logic.Function.Basic
import Mathlib.Logic.Relation
import Mathlib.Order.Defs.PartialOrder

/-!
# Rows, row locks and transactions at READ COMMITTED

A table of rows by key, with what is committed, what each open transaction has
written and not committed, and which transaction holds the lock of a row. A
transaction writes a row only under its lock and keeps the lock until it ends; it
reads its own writes and otherwise what is committed at that moment.

Transactions are numbered. `Owned` says that nothing is written without the lock,
and `Frame` is what one transaction does not do to another.
-/

namespace RowLocks
set_option autoImplicit false

universe u v
variable {Key : Type u} {Row : Key → Type v}

structure Db (Key : Type u) (Row : Key → Type v) where
  committed : (k : Key) → Option (Row k)
  pending : Nat → (k : Key) → Option (Row k)
  holder : Key → Option Nat

namespace Db

def quiet (rows : (k : Key) → Option (Row k)) : Db Key Row :=
  ⟨rows, fun _ _ => none, fun _ => none⟩

/-- What transaction `t` sees of a row. -/
def view (db : Db Key Row) (t : Nat) (k : Key) : Option (Row k) :=
  (db.pending t k).or (db.committed k)

/-- Transaction `t` need not wait for the row. -/
def Available (db : Db Key Row) (t : Nat) (k : Key) : Prop :=
  db.holder k = none ∨ db.holder k = some t

instance (db : Db Key Row) (t : Nat) (k : Key) : Decidable (db.Available t k) :=
  inferInstanceAs (Decidable (_ ∨ _))

def commit (db : Db Key Row) (t : Nat) : Db Key Row where
  committed := db.view t
  pending := Function.update db.pending t fun _ => none
  holder := fun k => if db.holder k = some t then none else db.holder k

def abort (db : Db Key Row) (t : Nat) : Db Key Row where
  committed := db.committed
  pending := Function.update db.pending t fun _ => none
  holder := fun k => if db.holder k = some t then none else db.holder k

variable [DecidableEq Key]

def lock (db : Db Key Row) (t : Nat) (k : Key) : Db Key Row where
  committed := db.committed
  pending := db.pending
  holder := Function.update db.holder k (some t)

def write (db : Db Key Row) (t : Nat) (k : Key) (row : Row k) : Db Key Row where
  committed := db.committed
  pending := Function.update db.pending t (Function.update (db.pending t) k (some row))
  holder := Function.update db.holder k (some t)

end Db

def Owned (db : Db Key Row) : Prop := ∀ t k, db.pending t k ≠ none → db.holder k = some t

theorem Owned.quiet (rows : (k : Key) → Option (Row k)) : Owned (Db.quiet rows) := by
  intro t k h
  exact absurd rfl h

variable {db : Db Key Row} {t u : Nat}

theorem Owned.pending_eq_none (h : Owned db) {k : Key} (hk : db.holder k ≠ some t) :
    db.pending t k = none := by
  by_contra hne
  exact hk (h t k hne)

theorem Owned.view_eq_committed (h : Owned db) {k : Key} (hk : db.holder k ≠ some t) :
    db.view t k = db.committed k := by
  rw [Db.view, h.pending_eq_none hk, Option.none_or]

theorem committed_commit (db : Db Key Row) (t : Nat) (k : Key) :
    (db.commit t).committed k = (db.pending t k).or (db.committed k) := rfl

private theorem owned_end (h : Owned db) (t : Nat) (rows : (k : Key) → Option (Row k)) :
    Owned ⟨rows, Function.update db.pending t fun _ => none,
      fun k => if db.holder k = some t then none else db.holder k⟩ := by
  intro u k hne
  by_cases hu : u = t
  · subst hu
    simp at hne
  · have hheld : db.holder k = some u := by
      apply h u k
      simpa only [Function.update_of_ne hu] using hne
    have hother : db.holder k ≠ some t := by
      rw [hheld]
      intro heq
      exact hu (Option.some.inj heq)
    simp only [hother, if_false]
    exact hheld

theorem Owned.commit (h : Owned db) (t : Nat) : Owned (db.commit t) :=
  owned_end h t _

theorem Owned.abort (h : Owned db) (t : Nat) : Owned (db.abort t) :=
  owned_end h t _

/-- Nothing of transaction `t` changed: what it wrote, the locks it holds and what is committed
under them. -/
structure Frame (t : Nat) (db db' : Db Key Row) : Prop where
  pending : db'.pending t = db.pending t
  holder : ∀ k, db'.holder k = some t ↔ db.holder k = some t
  committed : ∀ k, db.holder k = some t → db'.committed k = db.committed k

theorem Frame.refl (t : Nat) (db : Db Key Row) : Frame t db db :=
  ⟨rfl, fun _ => Iff.rfl, fun _ _ => rfl⟩

private theorem holder_end (hne : t ≠ u) (k : Key) :
    (if db.holder k = some t then none else db.holder k) = some u ↔ db.holder k = some u := by
  by_cases hk : db.holder k = some t
  · rw [if_pos hk, hk]
    simpa using hne
  · rw [if_neg hk]

theorem commit_frame (h : Owned db) (hne : t ≠ u) :
    Frame u db (db.commit t) := by
  refine ⟨Function.update_of_ne hne.symm _ _, holder_end hne, ?_⟩
  intro k hk
  apply h.view_eq_committed
  rw [hk]
  intro heq
  exact hne (Option.some.inj heq).symm

theorem abort_frame (hne : t ≠ u) : Frame u db (db.abort t) :=
  ⟨Function.update_of_ne hne.symm _ _, holder_end hne, fun _ _ => rfl⟩

section Writes
variable [DecidableEq Key]

variable {db : Db Key Row} {t : Nat} {k : Key}

theorem Owned.lock (h : Owned db) (havail : db.Available t k) : Owned (db.lock t k) := by
  intro u j hne
  have hheld : db.holder j = some u := h u j hne
  by_cases hj : j = k
  · subst hj
    rcases havail with hfree | hmine
    · rw [hfree] at hheld
      exact absurd hheld (by simp)
    · rw [hmine] at hheld
      exact (Function.update_self _ _ _).trans hheld
  · exact (Function.update_of_ne hj _ _).trans hheld

theorem Owned.write (h : Owned db) {row : Row k} (havail : db.Available t k) :
    Owned (db.write t k row) := by
  intro u j hne
  by_cases hu : u = t
  · subst hu
    by_cases hj : j = k
    · subst hj
      exact Function.update_self _ _ _
    · simp only [Db.write, Function.update_self, Function.update_of_ne hj] at hne ⊢
      exact h u j hne
  · have hpend : (db.write t k row).pending u j = db.pending u j := by
      simp only [Db.write, Function.update_of_ne hu]
    rw [hpend] at hne
    exact h.lock havail u j hne

theorem lock_frame {u : Nat} (hne : t ≠ u) (havail : db.Available t k) :
    Frame u db (db.lock t k) := by
  refine ⟨rfl, ?_, fun _ _ => rfl⟩
  intro j
  by_cases hk : j = k
  · subst hk
    have hmine : (db.lock t j).holder j = some t := Function.update_self _ _ _
    rw [hmine]
    rcases havail with hfree | hheld
    · rw [hfree]
      simpa using hne
    · rw [hheld]
  · have hsame : (db.lock t k).holder j = db.holder j := Function.update_of_ne hk _ _
    rw [hsame]

theorem write_frame {u : Nat} (hne : t ≠ u) {row : Row k} (havail : db.Available t k) :
    Frame u db (db.write t k row) :=
  ⟨Function.update_of_ne hne.symm _ _, (lock_frame hne havail).holder, fun _ _ => rfl⟩

@[simp] theorem pending_write_self {db : Db Key Row} {t : Nat} {k : Key} {row : Row k} :
    (db.write t k row).pending t k = some row := by
  simp [Db.write]

theorem pending_write_of_ne {j : Key} {row : Row k} (hj : j ≠ k) :
    (db.write t k row).pending t j = db.pending t j := by
  simp [Db.write, hj]

theorem holder_write_of_ne {j : Key} {row : Row k} (hj : j ≠ k) :
    (db.write t k row).holder j = db.holder j := by
  simp [Db.write, hj]

end Writes

section Waiting

/-- Transaction `t` waits for a row that `u` holds; `wants` is the row each one is to lock next. -/
def Waits (db : Db Key Row) (wants : Nat → Option Key) (t u : Nat) : Prop :=
  ∃ k, wants t = some k ∧ db.holder k = some u

variable [Preorder Key]

def Ordered (db : Db Key Row) (wants : Nat → Option Key) : Prop :=
  ∀ t held next, db.holder held = some t → wants t = some next → held < next

theorem Ordered.lt_of_waits {db : Db Key Row} {wants : Nat → Option Key} (h : Ordered db wants)
    {t u : Nat} (hwait : Relation.TransGen (Waits db wants) t u) {next next' : Key}
    (ht : wants t = some next) (hu : wants u = some next') : next < next' := by
  induction hwait generalizing next' with
  | single hstep =>
    obtain ⟨k, hk, hheld⟩ := hstep
    obtain rfl := Option.some.inj (hk.symm.trans ht)
    exact h _ _ _ hheld hu
  | tail _ hstep ih =>
    obtain ⟨k, hk, hheld⟩ := hstep
    exact lt_trans (ih hk) (h _ _ _ hheld hu)

theorem Ordered.no_wait_cycle {db : Db Key Row} {wants : Nat → Option Key}
    (h : Ordered db wants) (t : Nat) : ¬ Relation.TransGen (Waits db wants) t t := by
  intro hcycle
  obtain ⟨_, ⟨k, hk, _⟩, _⟩ := Relation.TransGen.head'_iff.mp hcycle
  exact lt_irrefl k (h.lt_of_waits hcycle hk hk)

end Waiting

end RowLocks
