import Mathlib.Order.Lattice
import Mathlib.Data.List.Basic
import CyberGuard.Shared.Interleaving
import CyberGuard.Shared.RowLocks
import CyberGuard.Auth.Store

/-!
# Transactions on `users`

`changeUser` (behind `assignRole` and `setStatus`), `createUser` and the update of
`changePassword`, statement by statement. The locking `SELECT` takes its snapshot
when it starts: the rows it may return are fixed there, in the order of their
user ids. It then locks them one by one, waiting where it has to, and evaluates its
condition again on what is committed by then; a row that no longer passes is not
returned, and one that passes is returned as it is now.

Every transaction may roll back at any of its statements.
-/

namespace CyberGuard.Auth
set_option autoImplicit false

variable {UserId : Type} [LinearOrder UserId]

/-- What `assignRole` and `setStatus` ask `changeUser` for, with the session's org. -/
structure Change (UserId : Type) where
  orgId : String
  targetId : UserId
  role : Option Role
  status : Option UserStatus

def assignRole (orgId : String) (userId : UserId) (role : Role) : Change UserId :=
  ⟨orgId, userId, some role, none⟩

def setStatus (orgId : String) (userId : UserId) (status : UserStatus) : Change UserId :=
  ⟨orgId, userId, none, some status⟩

inductive Refusal where
  | notFound
  | conflict
  deriving DecidableEq, Repr

namespace Change

/-- The condition of the locking `SELECT`. -/
def Selects (c : Change UserId) (userId : UserId) (row : UserRow) : Prop :=
  row.orgId = c.orgId ∧ (row.isActiveAdmin = true ∨ userId = c.targetId)

instance (c : Change UserId) (userId : UserId) (row : UserRow) : Decidable (c.Selects userId row) :=
  inferInstanceAs (Decidable (_ ∧ _))

def roleOf (c : Change UserId) (target : UserRow) : Role := c.role.getD target.role

def statusOf (c : Change UserId) (target : UserRow) : UserStatus := c.status.getD target.status

def removesAnAdmin (c : Change UserId) (target : UserRow) : Bool :=
  target.isActiveAdmin &&
    (decide (c.roleOf target ≠ .admin) || decide (c.statusOf target ≠ .active))

/-- What `changeUser` makes of the rows it locked. -/
def decideOn (c : Change UserId) (locked : List (UserId × UserRow)) :
    Except Refusal (Role × UserStatus) :=
  match locked.find? fun entry => entry.1 = c.targetId with
  | none => .error .notFound
  | some (_, target) =>
    let activeAdmins := locked.filter fun entry => entry.2.isActiveAdmin
    if c.removesAnAdmin target && decide (activeAdmins.length ≤ 1) then .error .conflict
    else .ok (c.roleOf target, c.statusOf target)

end Change

end CyberGuard.Auth

namespace CyberGuard.Auth.Transactions
open Interleaving RowLocks

variable {UserId : Type} [LinearOrder UserId]

abbrev UsersDb (UserId : Type) := Db UserId fun _ => UserRow

inductive Pc (UserId : Type) where
  | selectForUpdate (c : Change UserId)
  | locking (c : Change UserId) (todo : List UserId) (locked : List (UserId × UserRow))
  | updateUser (c : Change UserId) (role : Role) (status : UserStatus)
  | insertUser (userId : UserId) (row : UserRow)
  | updatePassword (userId : UserId) (passwordHash : String)
  | appendAudit
  | commit
  | ended

def Pc.wants : Pc UserId → Option UserId
  | .locking _ (next :: _) _ => some next
  | .updatePassword userId _ => some userId
  | .insertUser userId _ => some userId
  | _ => none

/-- No other row, committed or being inserted, has the address in the org. -/
def EmailFree (db : UsersDb UserId) (row : UserRow) : Prop :=
  ∀ userId other, (db.committed userId = some other ∨ ∃ u, db.pending u userId = some other) →
    ¬ (other.orgId = row.orgId ∧ other.email = row.email)

inductive Act (i : Nat) : UsersDb UserId → Pc UserId → UsersDb UserId → Pc UserId → Prop where
  | selected {db : UsersDb UserId} {c : Change UserId} (todo : List UserId) :
      todo.Pairwise (· < ·) →
      (∀ userId, userId ∈ todo ↔ ∃ row, db.view i userId = some row ∧ c.Selects userId row) →
      Act i db (.selectForUpdate c) db (.locking c todo [])
  | lockedRow {db : UsersDb UserId} {c : Change UserId} {next : UserId} {todo : List UserId}
      {locked : List (UserId × UserRow)} {row : UserRow} :
      db.Available i next → db.view i next = some row → c.Selects next row →
      Act i db (.locking c (next :: todo) locked) (db.lock i next)
        (.locking c todo (locked ++ [(next, row)]))
  | lockedNone {db : UsersDb UserId} {c : Change UserId} {next : UserId} {todo : List UserId}
      {locked : List (UserId × UserRow)} :
      db.Available i next → (∀ row, db.view i next = some row → ¬ c.Selects next row) →
      Act i db (.locking c (next :: todo) locked) (db.lock i next) (.locking c todo locked)
  | decided {db : UsersDb UserId} {c : Change UserId} {locked : List (UserId × UserRow)}
      {role : Role} {status : UserStatus} : c.decideOn locked = .ok (role, status) →
      Act i db (.locking c [] locked) db (.updateUser c role status)
  | refused {db : UsersDb UserId} {c : Change UserId} {locked : List (UserId × UserRow)}
      {refusal : Refusal} : c.decideOn locked = .error refusal →
      Act i db (.locking c [] locked) (db.abort i) .ended
  | updated {db : UsersDb UserId} {c : Change UserId} {role : Role} {status : UserStatus}
      {row : UserRow} : db.Available i c.targetId → db.view i c.targetId = some row →
      Act i db (.updateUser c role status)
        (db.write i c.targetId { row with
          role := role, status := status, authorityVersion := row.authorityVersion + 1 })
        .appendAudit
  | inserted {db : UsersDb UserId} {userId : UserId} {row : UserRow} :
      db.Available i userId → db.committed userId = none → EmailFree db row →
      Act i db (.insertUser userId row) (db.write i userId row) .appendAudit
  | passwordSet {db : UsersDb UserId} {userId : UserId} {passwordHash : String} {row : UserRow} :
      db.Available i userId → db.view i userId = some row →
      Act i db (.updatePassword userId passwordHash)
        (db.write i userId { row with
          passwordHash := passwordHash, authorityVersion := row.authorityVersion + 1 })
        .appendAudit
  | passwordNone {db : UsersDb UserId} {userId : UserId} {passwordHash : String} :
      db.view i userId = none → Act i db (.updatePassword userId passwordHash) db .appendAudit
  | audited {db : UsersDb UserId} : Act i db .appendAudit db .commit
  | committed {db : UsersDb UserId} : Act i db .commit (db.commit i) .ended
  | rolledBack {db : UsersDb UserId} (pc : Pc UserId) : Act i db pc (db.abort i) .ended

/-- A new user is active; its role is what the caller gives. -/
inductive Starts : Pc UserId → Prop where
  | assignRole (orgId : String) (userId : UserId) (role : Role) :
      Starts (.selectForUpdate (assignRole orgId userId role))
  | setStatus (orgId : String) (userId : UserId) (status : UserStatus) :
      Starts (.selectForUpdate (setStatus orgId userId status))
  | createUser (userId : UserId) (row : UserRow) : row.status = .active →
      row.totpEnrolled = false → row.authorityVersion = 0 → Starts (.insertUser userId row)
  | changePassword (userId : UserId) (passwordHash : String) :
      Starts (.updatePassword userId passwordHash)

def userTransactions : Program (UsersDb UserId) (Pc UserId) where
  start := fun _ => Starts
  act := Act
  env := fun _ _ => False

end CyberGuard.Auth.Transactions
