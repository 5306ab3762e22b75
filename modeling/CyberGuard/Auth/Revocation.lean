import CyberGuard.Auth.Commands

/-!
# No session outlives a change of authority

A login reads the row, writes its session and reads the row again; a change commits
a higher version and then deletes the sessions its scan finds. Once the version is
up, a session of an older one belongs to a login that has still to read again, and
will delete it, or the change has still to look at its key. `Tracked` says the latter
for every point of the scan, and that it fails at its end.
-/

namespace CyberGuard.Auth
set_option autoImplicit false
open Interleaving StoreCalls List Nat

def Store.version (s : Store) (userId : String) : Nat :=
  ((s.users userId).map (·.authorityVersion)).getD 0

theorem Store.version_putUser (s : Store) (userId : String) (row : UserRow) (u : String) :
    (s.putUser userId row).version u = if u = userId then row.authorityVersion else s.version u := by
  unfold Store.version Store.putUser
  by_cases hu : u = userId <;> simp [hu]

theorem Store.version_appendAudit (s : Store) (event : AuditEvent) (u : String) :
    (s.appendAudit event).version u = s.version u := rfl

variable {s : Store} {w : World} {i version : Nat} {input : Input} {c : Call} {t u : String}
  {e : SessionEntry} {pc rpc : RevokePc} {ts : List Call}

theorem Store.version_le_putUser {userId : String} {row : UserRow}
    (h : s.version userId ≤ row.authorityVersion) (u : String) :
    s.version u ≤ (s.putUser userId row).version u := by
  rw [Store.version_putUser]
  split
  · rename_i hu
    rw [hu]
    exact h
  · exact le_refl _

theorem Store.version_of_users {userId : String} {row : UserRow} (h : s.users userId = some row) :
    s.version userId = row.authorityVersion := by
  simp [Store.version, h]

def SessionEntry.identity (e : SessionEntry) : SessionInfo × Nat × Nat :=
  (e.info, e.readVersion, e.born)

namespace Store
variable {s : Store} {t : String} {e : SessionEntry}

variable {token : String}

theorem sessions_putSession {entry : SessionEntry}
    (h : (s.putSession token entry).sessions t = some e) :
    (t = token ∧ e = entry) ∨ s.sessions t = some e := by
  by_cases ht : t = token
  · simp only [putSession, ht, if_true] at h
    exact Or.inl ⟨ht, (Option.some.inj h).symm⟩
  · exact Or.inr (by simpa [putSession, ht] using h)

theorem sessions_deleteSession (h : (s.deleteSession token).sessions t = some e) :
    t ≠ token ∧ s.sessions t = some e := by
  by_cases ht : t = token
  · simp [deleteSession, ht] at h
  · exact ⟨ht, by simpa [deleteSession, ht] using h⟩

theorem sessions_revokeSession_self (htoken : token ≠ "") :
    (s.revokeSession token).sessions token = none := by
  simp [revokeSession, htoken, deleteSession]

end Store

def Creates (input : Input) (s : Store) (c : Call) (t : String)
    (id : SessionInfo × Nat × Nat) : Prop :=
  ∃ a user, c = .login a (.createSession user) ∧ t = input.token ∧
    id = (⟨user.1, user.2.orgId, user.2.role, input.csrfToken⟩, user.2.authorityVersion, s.tick)

def Rewrites (s : Store) (c : Call) (t : String) (id : SessionInfo × Nat × Nat) : Prop :=
  ∃ entry now, c = .resolve (.rewrite t entry now) ∧ (s.sessions t).isSome = true ∧
    id = entry.identity

theorem Call.sessions_effect (h : (c.effect w i input s).sessions t = some e) :
    s.sessions t = some e ∨ Creates input s c t e.identity ∨ Rewrites s c t e.identity := by
  have hcommand := c.command w input s i
  generalize c.effect w i input s = s' at hcommand h
  cases hcommand with
  | @createSession a user hc =>
    rcases Store.sessions_putSession h with ⟨ht, he⟩ | hold
    · exact Or.inr (Or.inl ⟨a, user, Sum.inl.inj hc, ht, by rw [he]; rfl⟩)
    · exact Or.inl hold
  | @rewriteSession token entry now expiresAt hc hthere =>
    rcases Store.sessions_putSession h with ⟨rfl, he⟩ | hold
    · exact Or.inr (Or.inr ⟨entry, now, Sum.inl.inj hc, hthere, by rw [he]; rfl⟩)
    · exact Or.inl hold
  | deleteSession token => exact Or.inl (Store.sessions_deleteSession h).2
  | _ => exact Or.inl h

theorem Call.version_le (w : World) (i : Nat) (input : Input) (s : Store) (c : Call) (u : String) :
    s.version u ≤ (c.effect w i input s).version u := by
  have hcommand := c.command w input s i
  generalize c.effect w i input s = s' at hcommand
  cases hcommand with
  | changeUser row audit hnow _ hversion =>
    refine Store.version_le_putUser ?_ u
    rw [Store.version_of_users hnow]
    exact hversion
  | _ => exact le_refl _

theorem Call.numbering_le (w : World) (i : Nat) (input : Input) (s : Store) (c : Call) :
    s.tick ≤ (c.effect w i input s).tick ∧
      ∀ t ∈ s.handedOut, t ∈ (c.effect w i input s).handedOut := by
  have hcommand := c.command w input s i
  generalize c.effect w i input s = s' at hcommand
  cases hcommand with
  | createSession => exact ⟨le_succ _, fun t ht => mem_cons_of_mem _ ht⟩
  | _ => exact ⟨le_refl _, fun t ht => ht⟩

def WellFormed (s : Store) : Prop :=
  ∀ t e, s.sessions t = some e → t ∈ s.handedOut ∧ e.born < s.tick

/-- A use that is about to rewrite an entry would write the session that is there. -/
def ReadEntry (s : Store) : Call → Prop
  | .resolve (.rewrite t entry _) =>
    t ∈ s.handedOut ∧ ∀ e, s.sessions t = some e → e.identity = entry.identity
  | _ => True

theorem ReadEntry.origin (hc : ReadEntry s c) (h : (c.effect w i input s).sessions t = some e) :
    (∃ old, s.sessions t = some old ∧ old.identity = e.identity) ∨
      Creates input s c t e.identity := by
  rcases Call.sessions_effect h with hold | hcreates | ⟨entry, now, rfl, hthere, hid⟩
  · exact Or.inl ⟨e, hold, rfl⟩
  · exact Or.inr hcreates
  · obtain ⟨old, hold⟩ := Option.isSome_iff_exists.mp hthere
    exact Or.inl ⟨old, hold, (hc.2 old hold).trans hid.symm⟩

theorem WellFormed.effect (hs : WellFormed s) (hc : ReadEntry s c) :
    WellFormed (c.effect w i input s) := by
  intro t e he
  obtain ⟨htick, hout⟩ := c.numbering_le w i input s
  rcases hc.origin he with ⟨old, hold, hid⟩ | ⟨a, user, rfl, rfl, hid⟩
  · obtain ⟨hmem, hborn⟩ := hs t old hold
    have hsame : old.born = e.born := congrArg (fun id => id.2.2) hid
    exact ⟨hout t hmem, by omega⟩
  · have hborn : e.born = s.tick := congrArg (fun id => id.2.2) hid
    rw [hborn]
    exact ⟨mem_cons_self, lt_succ_self _⟩

theorem ReadEntry.next (hs : WellFormed s) (c : Call) :
    ReadEntry (c.effect w i input s) (c.next w input s) := by
  cases c with
  | resolve pc =>
    cases pc with
    | get token =>
      simp only [Call.next, ResolvePc.next]
      split
      · trivial
      · split
        · trivial
        · rename_i entry hentry
          split
          · refine ⟨(hs token entry hentry).1, ?_⟩
            intro e he
            have hsame : some entry = some e := hentry.symm.trans he
            rw [Option.some.inj hsame]
          · trivial
    | _ => trivial
  | _ => trivial

theorem ReadEntry.other {d : Call} (hadm : c.admissible input s) (hc : ReadEntry s c)
    (hd : ReadEntry s d) :
    ReadEntry (c.effect w i input s) d := by
  cases d with
  | resolve pc =>
    cases pc with
    | rewrite t entry now =>
      obtain ⟨hmem, hsame⟩ := hd
      refine ⟨(c.numbering_le w i input s).2 t hmem, ?_⟩
      intro e he
      rcases hc.origin he with ⟨old, hold, hid⟩ | ⟨a, user, rfl, rfl, hid⟩
      · exact hid.symm.trans (hsame old hold)
      · exact absurd hmem hadm.2
    | _ => trivial
  | _ => trivial

theorem sessions_outline (w : World) :
    Outline (reliable w) (fun _ s => WellFormed s) (fun _ s c => ReadEntry s c) where
  spawn := by
    intro n s c hs hstart
    refine ⟨hs, ?_⟩
    cases hstart <;> trivial
  self := by
    intro n i s c s' c' _ hs hc hact
    cases hact with
    | intro input hadm => exact ⟨hs.effect hc, ReadEntry.next hs c⟩
  other := by
    intro n i j s c s' c' d _ hs hc hd hact
    cases hact with
    | intro input hadm => exact ReadEntry.other hadm hc hd
  env := by
    intro n s s' hs henv
    cases henv with
    | tick | createUser => exact ⟨hs, fun i c hc => hc⟩
    | expire token =>
      refine ⟨fun t e he => hs t e (Store.sessions_deleteSession he).2, ?_⟩
      intro i c hc
      cases c with
      | resolve pc =>
        cases pc with
        | rewrite t entry now =>
          exact ⟨hc.1, fun e he => hc.2 e (Store.sessions_deleteSession he).2⟩
        | _ => trivial
      | _ => trivial

/-- The scan has still to look at the key `t`, of a session with the number `born`. -/
def Tracked (t : String) (born : Nat) : RevokePc → Prop
  | .scan start seen => (∀ n, start = some n → born < n) ∧ t ∉ seen
  | .get start seen todo key last | .del start seen todo key last =>
    born < start ∧ (t = key ∨ t ∈ todo ∨ (t ∉ seen ∧ last = false))
  | .finished => False

theorem tracked_resume {born start : Nat} {seen todo : List String} {last : Bool}
    (hborn : born < start) (h : t ∈ todo ∨ (t ∉ seen ∧ last = false)) :
    Tracked t born (RevokePc.resume start seen todo last) := by
  cases todo with
  | nil =>
    rcases h with hmem | ⟨hseen, rfl⟩
    · exact absurd hmem not_mem_nil
    · exact ⟨fun n hn => by rw [← Option.some.inj hn]; exact hborn, hseen⟩
  | cons key todo =>
    refine ⟨hborn, ?_⟩
    rcases h with hmem | hlater
    · rcases mem_cons.mp hmem with rfl | hmem
      · exact Or.inl rfl
      · exact Or.inr (Or.inl hmem)
    · exact Or.inr (Or.inr hlater)

/-- A session the scan has still to look at is still to be looked at after a command, unless the
command deleted it. -/
theorem Tracked.next (hs : WellFormed s) (hadm : pc.admissible input s)
    (hthere : (pc.effect s).sessions t = some e) (hu : e.info.userId =
      u) (h : Tracked t e.born pc) :
    Tracked t e.born (pc.next u input s) := by
  cases pc with
  | scan start seen =>
    obtain ⟨hstart, hseen⟩ := h
    have hborn : e.born < start.getD s.tick := by
      cases start with
      | none => exact (hs t e hthere).2
      | some n => exact hstart n rfl
    apply tracked_resume hborn
    by_cases hpage : t ∈ input.page
    · exact Or.inl hpage
    · have hnew : t ∉ seen ++ input.page := by
        rw [mem_append]
        exact fun hmem => hmem.elim hseen hpage
      refine Or.inr ⟨hnew, ?_⟩
      cases hlast : input.lastPage with
      | false => rfl
      | true => exact absurd (hadm hlast t e hthere hborn) hnew
  | get start seen todo key last =>
    obtain ⟨hborn, hwhere⟩ := h
    simp only [RevokePc.next]
    rcases hwhere with rfl | hlater
    · have hkey : s.sessions t = some e := hthere
      rw [hkey]
      simp only [hu, if_true]
      exact ⟨hborn, Or.inl rfl⟩
    · split
      · split
        · exact ⟨hborn, Or.inr hlater⟩
        · exact tracked_resume hborn hlater
      · exact tracked_resume hborn hlater
  | del start seen todo key last =>
    obtain ⟨hborn, hwhere⟩ := h
    obtain ⟨hne, _⟩ := Store.sessions_deleteSession hthere
    rcases hwhere with rfl | hlater
    · exact absurd rfl hne
    · exact tracked_resume hborn hlater
  | finished => exact h

def Call.committed : Call → Option (String × Nat × RevokePc)
  | .password a (.revoking version pc) => some (a.userId, version, pc)
  | .password a (.release version) => some (a.userId, version, .finished)
  | .password a (.done (.changed version) _) => some (a.userId, version, .finished)
  | .change a (.revoking version pc) => some (a.change.targetId, version, pc)
  | .change a (.done (.changed version)) => some (a.change.targetId, version, .finished)
  | _ => none

theorem committed_revoked (a : PasswordChange) (version : Nat) (pc : RevokePc) :
    (Call.password a (PasswordChange.revoked version pc)).committed =
      some (a.userId, version, pc) := by
  cases pc <;> rfl

theorem committed_userRevoked (a : UserChange) (version : Nat) (pc : RevokePc) :
    (Call.change a (UserChange.revoked version pc)).committed =
      some (a.change.targetId, version, pc) := by
  cases pc <;> rfl

/-- A change that went through has just committed, or goes on with its scan. -/
inductive Proceeds (i : Nat) (w : World) (input : Input) (s : Store) (c : Call) (u : String)
    (version : Nat) : RevokePc → Prop where
  | begins : version = (c.effect w i input s).version u →
      Proceeds i w input s c u version (.scan none [])
  | goes (pc : RevokePc) : c.committed = some (u, version, pc) →
      (c.effect w i input s).sessions = (pc.effect s).sessions →
      (c.admissible input s → pc.admissible input s) →
      Proceeds i w input s c u version (pc.next u input s)

theorem PasswordChange.proceeds {a : PasswordChange} {pc : PasswordPc}
    (h : (Call.password a (a.next w input s pc)).committed = some (u, version, rpc)) :
    Proceeds i w input s (.password a pc) u version rpc := by
  cases pc with
  | reserve | selectUser | useCode =>
    simp only [next] at h
    split at h <;> simp [Call.committed] at h
  | verify row =>
    simp only [next] at h
    repeat' split at h
    all_goals simp [Call.committed] at h
  | transaction row =>
    simp only [next, Call.committed, Option.some.injEq, Prod.mk.injEq] at h
    obtain ⟨rfl, rfl, rfl⟩ := h
    apply Proceeds.begins
    simp only [committedVersion, Call.effect, effect, commit]
    split
    · rename_i now hnow
      rw [Store.version_appendAudit, Store.version_putUser, if_pos rfl]
    · rename_i hnone
      rw [Store.version_appendAudit, Store.version, hnone]
      rfl
  | revoking v pc =>
    simp only [next, committed_revoked, Option.some.injEq, Prod.mk.injEq] at h
    obtain ⟨rfl, rfl, rfl⟩ := h
    exact .goes pc rfl rfl id
  | revokingUncertain pc =>
    simp only [next, revokedUncertain] at h
    split at h <;> simp [Call.committed] at h
  | release v =>
    simp only [next, Call.committed, Option.some.injEq, Prod.mk.injEq] at h
    obtain ⟨rfl, rfl, rfl⟩ := h
    exact .goes .finished rfl rfl fun _ => trivial
  | done outcome counted =>
    cases outcome with
    | changed v =>
      simp only [next, Call.committed, Option.some.injEq, Prod.mk.injEq] at h
      obtain ⟨rfl, rfl, rfl⟩ := h
      exact .goes .finished rfl rfl fun _ => trivial
    | _ => simp [next, Call.committed] at h
  | _ => simp [next, Call.committed] at h

theorem UserChange.proceeds {a : UserChange} {pc : ChangePc}
    (h : (Call.change a (a.next input s pc)).committed = some (u, version, rpc)) :
    Proceeds i w input s (.change a pc) u version rpc := by
  cases pc with
  | transaction =>
    cases hout : a.outcome input s with
    | error refusal => simp [next, hout, Call.committed] at h
    | ok rows =>
      simp only [next, hout, Call.committed, Option.some.injEq, Prod.mk.injEq] at h
      obtain ⟨rfl, rfl, rfl⟩ := h
      apply Proceeds.begins
      simp only [Call.effect, effect, hout]
      rw [Store.version_appendAudit, Store.version_putUser, if_pos rfl]
  | revoking v pc =>
    simp only [next, committed_userRevoked, Option.some.injEq, Prod.mk.injEq] at h
    obtain ⟨rfl, rfl, rfl⟩ := h
    exact .goes pc rfl rfl id
  | revokingUncertain pc =>
    simp only [next, revokedUncertain] at h
    split at h <;> simp [Call.committed] at h
  | done outcome =>
    cases outcome with
    | changed v =>
      simp only [next, Call.committed, Option.some.injEq, Prod.mk.injEq] at h
      obtain ⟨rfl, rfl, rfl⟩ := h
      exact .goes .finished rfl rfl fun _ => trivial
    | _ => simp [next, Call.committed] at h

theorem Call.proceeds (h : (c.next w input s).committed = some (u, version, rpc)) :
    Proceeds i w input s c u version rpc := by
  cases c with
  | password a pc => exact PasswordChange.proceeds h
  | change a pc => exact UserChange.proceeds h
  | _ => simp [Call.next, Call.committed] at h

/-- A login that has written its session and not read the row again, or is to delete it. -/
def Call.undecided : Call → Option (FoundUser × String)
  | .login _ (.readAgain user token _) | .login _ (.revoke user token) => some (user, token)
  | _ => none

/-- The session `t` is that of a login that read an older version and has still to decide. -/
def Undecided (ts : List Call) (u : String) (version : Nat) (t : String) : Prop :=
  t ≠ "" ∧ ∃ (m : Nat) (c : Call) (user : FoundUser), ts[m]? = some c ∧
    c.undecided = some (user, t) ∧ user.1 = u ∧ user.2.authorityVersion < version

/-- With the version up, a login that has to decide decides against its session. -/
theorem Undecided.act (hi : ts[i]? = some c) (hversion : version ≤ s.version u)
    (hthere : (c.effect w i input s).sessions t = some e) (h : Undecided ts u version t) :
    Undecided (ts.set i (c.next w input s)) u version t := by
  obtain ⟨htoken, m, d, user, hm, hd, rfl, hold⟩ := h
  have hlen : i < ts.length := (List.getElem?_eq_some_iff.mp hi).1
  by_cases hmi : m = i
  · subst hmi
    obtain rfl : c = d := Option.some.inj (hi.symm.trans hm)
    refine ⟨htoken, m, c.next w input s, user, List.getElem?_set_self hlen, ?_, rfl, hold⟩
    cases c with
    | login a pc =>
      cases pc with
      | readAgain user' token csrfToken =>
        obtain ⟨rfl, rfl⟩ := Prod.mk.inj (Option.some.inj hd)
        simp only [Call.next, LoginAttempt.next]
        split
        · rename_i now hnow
          have hnewer := Store.version_of_users hnow
          have hne : ¬ (now.authorityVersion = user'.2.authorityVersion ∧ now.status = .active) := by
            intro hkept
            omega
          rw [if_neg hne]
          rfl
        · rfl
      | revoke user' token =>
        obtain ⟨rfl, rfl⟩ := Prod.mk.inj (Option.some.inj hd)
        have hgone := Store.sessions_revokeSession_self (s := s) htoken
        exact absurd (hgone.symm.trans hthere) (by simp)
      | _ => simp [Call.undecided] at hd
    | _ => simp [Call.undecided] at hd
  · refine ⟨htoken, m, d, user, ?_, hd, rfl, hold⟩
    rw [List.getElem?_set_ne (Ne.symm hmi)]
    exact hm

theorem Creates.undecided (hi : ts[i]? = some c) (hadm : c.admissible input s)
    (h : Creates input s c t e.identity) (hold : e.readVersion < version) :
    Undecided (ts.set i (c.next w input s)) e.info.userId version t := by
  obtain ⟨a, user, rfl, rfl, hid⟩ := h
  have hlen : i < ts.length := (List.getElem?_eq_some_iff.mp hi).1
  have huser : e.info.userId = user.1 := congrArg (fun id => id.1.userId) hid
  have hread : e.readVersion = user.2.authorityVersion := congrArg (fun id => id.2.1) hid
  exact ⟨hadm.1, i, _, user, List.getElem?_set_self hlen, rfl, huser.symm, by omega⟩

/-- A change of `u` has committed `version`, and accounts for every session of an older one. -/
structure Revoking (p : Pool Store Call) (u : String) (version : Nat) (pc : RevokePc) : Prop where
  version_le : version ≤ p.store.version u
  sessions : ∀ t e, p.store.sessions t = some e → e.info.userId = u → e.readVersion < version →
    Undecided p.threads u version t ∨ Tracked t e.born pc

/-- The sessions and the entries read are as `sessions_outline` has them, and every change that
went through accounts for the older sessions. -/
structure Accounted (p : Pool Store Call) : Prop where
  holds : Holds (fun _ s => WellFormed s) (fun _ s c => ReadEntry s c) p
  changes : ∀ (j : Nat) (c : Call) (u : String) (version : Nat) (pc : RevokePc),
    p.threads[j]? = some c → c.committed = some (u, version, pc) → Revoking p u version pc

theorem Revoking.spawn {d : Call} (h : Revoking ⟨s, ts⟩ u version pc) :
    Revoking ⟨s, ts ++ [d]⟩ u version pc := by
  refine ⟨h.version_le, ?_⟩
  intro t e he hu hold
  rcases h.sessions t e he hu hold with ⟨htoken, m, c, user, hm, hrest⟩ | htracked
  · have hlen : m < ts.length := (List.getElem?_eq_some_iff.mp hm).1
    refine Or.inl ⟨htoken, m, c, user, ?_, hrest⟩
    rw [List.getElem?_append_left hlen]
    exact hm
  · exact Or.inr htracked

theorem Revoking.act (hi : ts[i]? = some c) (hadm : c.admissible input s) (hc : ReadEntry s c)
    (h : Revoking ⟨s, ts⟩ u version pc) (he : (c.effect w i input s).sessions t = some e)
    (hu : e.info.userId = u) (hold : e.readVersion < version) :
    Undecided (ts.set i (c.next w input s)) u version t ∨ Tracked t e.born pc := by
  rcases hc.origin he with ⟨old, hthere, hid⟩ | hcreates
  · have huser : old.info = e.info := congrArg (fun id => id.1) hid
    have hread : old.readVersion = e.readVersion := congrArg (fun id => id.2.1) hid
    have hborn : old.born = e.born := congrArg (fun id => id.2.2) hid
    rcases h.sessions t old hthere (by rw [huser]; exact hu) (by omega) with hund | htracked
    · exact Or.inl (hund.act hi h.version_le he)
    · exact Or.inr (by rw [← hborn]; exact htracked)
  · subst hu
    exact Or.inl (hcreates.undecided hi hadm hold)

theorem Accounted.step {p q : Pool Store Call} (hp : Accounted p) (h : Step (reliable w) p q) :
    Accounted q := by
  refine ⟨(sessions_outline w).step hp.holds h, ?_⟩
  intro j d u version pc hj hd
  cases h with
  | spawn hstart =>
    rcases getElem?_spawn hj with hold | ⟨_, rfl⟩
    · exact (hp.changes j d u version pc hold hd).spawn
    · cases hstart <;> simp [Call.committed] at hd
  | @act s s' ts i c c' hi hact =>
    cases hact with
    | intro input hadm =>
      have hc : ReadEntry s c := hp.holds.thread i c hi
      have hup := c.version_le w i input s u
      rcases getElem?_act hj with ⟨rfl, rfl⟩ | ⟨_, hold⟩
      · cases Call.proceeds (i := j) hd with
        | begins hversion =>
          refine ⟨le_of_eq hversion, fun t e _ _ _ => Or.inr ?_⟩
          exact ⟨fun n hn => absurd hn (by simp), not_mem_nil⟩
        | goes rpc hcommitted hsessions hscan =>
          have hrev := hp.changes j c u version rpc hi hcommitted
          refine ⟨le_trans hrev.version_le hup, ?_⟩
          intro t e he hu hold
          rcases hrev.act hi hadm hc he hu hold with hund | htracked
          · exact Or.inl hund
          · have hthere : (rpc.effect s).sessions t = some e := by
              rw [← hsessions]
              exact he
            exact Or.inr (htracked.next hp.holds.store (hscan hadm) hthere hu)
      · have hrev := hp.changes j d u version pc hold hd
        refine ⟨le_trans hrev.version_le hup, ?_⟩
        intro t e he hu hnew
        exact hrev.act hi hadm hc he hu hnew
  | @env s s' ts henv =>
    have hrev := hp.changes j d u version pc hj hd
    cases henv with
    | tick _ => exact ⟨hrev.version_le, hrev.sessions⟩
    | expire token =>
      refine ⟨hrev.version_le, ?_⟩
      intro t e he hu hold
      exact hrev.sessions t e (Store.sessions_deleteSession he).2 hu hold
    | createUser row hnone =>
      refine ⟨le_trans hrev.version_le (Store.version_le_putUser ?_ u), hrev.sessions⟩
      rw [Store.version, hnone]
      exact zero_le _

def Call.readRow : Call → Option FoundUser
  | .login _ (.verify user) | .login _ (.useCode user) | .login _ (.createSession user)
  | .login _ (.readAgain user _ _) | .login _ (.revoke user _) | .login _ (.clearAccount user _ _)
  | .login _ (.releaseIp user _ _) | .login _ (.lastLogin user _ _)
  | .login _ (.auditOk user _ _) => some user
  | .login _ (.reject _ user) | .login _ (.auditFail _ user) => user
  | _ => none

theorem Call.readRow_of_undecided {user : FoundUser} (h : c.undecided = some (user, t)) :
    c.readRow = some user := by
  cases c with
  | login a pc =>
    cases pc with
    | readAgain | revoke =>
      obtain ⟨rfl, _⟩ := Prod.mk.inj (Option.some.inj h)
      rfl
    | _ => simp [undecided] at h
  | _ => simp [undecided] at h

def Call.changed : Call → Option (String × Nat)
  | .password a (.done (.changed version) _) => some (a.userId, version)
  | .change a (.done (.changed version)) => some (a.change.targetId, version)
  | _ => none

theorem Call.committed_of_changed (h : c.changed = some (u, version)) :
    c.committed = some (u, version, .finished) := by
  cases c with
  | password a pc =>
    cases pc with
    | done outcome counted =>
      cases outcome with
      | changed v =>
        obtain ⟨rfl, rfl⟩ := Prod.mk.inj (Option.some.inj h)
        rfl
      | _ => simp [changed] at h
    | _ => simp [changed] at h
  | change a pc =>
    cases pc with
    | done outcome =>
      cases outcome with
      | changed v =>
        obtain ⟨rfl, rfl⟩ := Prod.mk.inj (Option.some.inj h)
        rfl
      | _ => simp [changed] at h
    | _ => simp [changed] at h
  | _ => simp [changed] at h

theorem Call.readRow_next {user : FoundUser} (hadm : c.admissible input s)
    (h : (c.next w input s).readRow = some user) :
    c.readRow = some user ∨ s.users user.1 = some user.2 := by
  cases c with
  | login a pc =>
    cases pc with
    | selectUser =>
      cases hfound : input.found with
      | none => simp [next, LoginAttempt.next, hfound, readRow] at h
      | some found =>
        simp only [next, LoginAttempt.next, hfound, readRow, Option.some.injEq] at h
        simp only [admissible, LoginAttempt.admissible, hfound] at hadm
        rw [← h]
        exact Or.inr hadm.1
    | reserve =>
      simp only [next, LoginAttempt.next] at h
      split at h <;> simp [readRow] at h
    | verify | readAgain =>
      refine Or.inl ?_
      simp only [next, LoginAttempt.next] at h
      repeat' split at h
      all_goals exact h
    | useCode found =>
      refine Or.inl ?_
      simp only [next, LoginAttempt.next] at h
      split at h <;> exact h
    | _ => first
      | exact Or.inl h
      | simp [next, LoginAttempt.next, readRow] at h
  | _ => simp [next, readRow] at h

/-- The change is over: no login holds an older version of the row, and no session is of one. -/
structure Settled (u : String) (version : Nat) (p : Pool Store Call) : Prop where
  version_le : version ≤ p.store.version u
  logins : ∀ c ∈ p.threads, ∀ user, c.readRow = some user → user.1 = u →
    version ≤ user.2.authorityVersion
  sessions : ∀ t e, p.store.sessions t = some e → e.info.userId = u → version ≤ e.readVersion

theorem Settled.step {p q : Pool Store Call} (hp : Accounted p) (h : Settled u version p)
    (hstep : Step (reliable w) p q) :
    Settled u version q := by
  cases hstep with
  | spawn hstart =>
    refine ⟨h.version_le, ?_, h.sessions⟩
    intro c hc user hrow hu
    rcases mem_append.mp hc with hold | hnew
    · exact h.logins c hold user hrow hu
    · obtain rfl := mem_singleton.mp hnew
      cases hstart <;> simp [Call.readRow] at hrow
  | @act s s' ts i c c' hi hact =>
    cases hact with
    | intro input hadm =>
      have hmem : c ∈ ts := mem_of_getElem? hi
      refine ⟨le_trans h.version_le (c.version_le w i input s u), ?_, ?_⟩
      · intro d hd user hrow hu
        rcases mem_act hd with rfl | hold
        · rcases Call.readRow_next hadm hrow with hhad | hread
          · exact h.logins c hmem user hhad hu
          · rw [← Store.version_of_users hread, hu]
            exact h.version_le
        · exact h.logins d hold user hrow hu
      · intro t e he hu
        rcases (hp.holds.thread i c hi).origin he with ⟨old, hthere, hid⟩ | ⟨a, user, rfl, _, hid⟩
        · have huser : old.info = e.info := congrArg (fun id => id.1) hid
          have hread : old.readVersion = e.readVersion := congrArg (fun id => id.2.1) hid
          rw [← hread]
          exact h.sessions t old hthere (by rw [huser]; exact hu)
        · have huser : e.info.userId = user.1 := congrArg (fun id => id.1.userId) hid
          have hread : e.readVersion = user.2.authorityVersion := congrArg (fun id => id.2.1) hid
          rw [hread]
          exact h.logins _ hmem user rfl (huser.symm.trans hu)
  | env henv =>
    cases henv with
    | tick _ => exact ⟨h.version_le, h.logins, h.sessions⟩
    | expire token =>
      refine ⟨h.version_le, h.logins, ?_⟩
      intro t e he hu
      exact h.sessions t e (Store.sessions_deleteSession he).2 hu
    | createUser row hnone =>
      refine ⟨le_trans h.version_le (Store.version_le_putUser ?_ u), h.logins, h.sessions⟩
      rw [Store.version, hnone]
      exact zero_le _

/-- Once a change has returned and no login is left that read the row before it (such a login
read an older version than the one committed), every session of the user is of the committed
version or a later one, now and from then on. -/
theorem no_session_outlives_change {w : World} {s₀ : Store} {p q : Pool Store Call}
    (hinit : WellFormed s₀) (hrun : Run (reliable w) ⟨s₀, []⟩ p) {j : Nat} {c : Call} {u : String}
    {version : Nat} (hj : p.threads[j]? = some c) (hchanged : c.changed = some (u, version))
    (hended : ∀ d ∈ p.threads, ∀ user, d.readRow = some user → user.1 = u →
      version ≤ user.2.authorityVersion)
    (hlater : Run (reliable w) p q) :
    ∀ t e, q.store.sessions t = some e → e.info.userId = u → version ≤ e.readVersion := by
  have hstart : Accounted ⟨s₀, []⟩ :=
    ⟨Holds.initial hinit, fun j c u version pc hj => absurd hj (by simp)⟩
  have hp : Accounted p := run_invariant (fun _ _ ha hstep => ha.step hstep) hrun hstart
  have hrev := hp.changes j c u version .finished hj (Call.committed_of_changed hchanged)
  have hsettled : Settled u version p := by
    refine ⟨hrev.version_le, hended, ?_⟩
    intro t e he hu
    by_contra hold
    rcases hrev.sessions t e he hu (by omega) with ⟨_, m, d, user, hm, hd, hdu, hlt⟩ | htracked
    · have hrow : d.readRow = some user := Call.readRow_of_undecided hd
      have hge := hended d (mem_of_getElem? hm) user hrow hdu
      omega
    · exact htracked
  have hall : Accounted q ∧ Settled u version q := by
    refine run_invariant (I := fun r => Accounted r ∧ Settled u version r) ?_ hlater
      ⟨hp, hsettled⟩
    intro r r' ⟨hr, hset⟩ hstep
    exact ⟨hr.step hstep, hset.step hr hstep⟩
  exact hall.2.sessions

def sampleChange : UserChange where
  change := assignRole org "u" .viewer
  session := ⟨"admin", org, .admin, "csrf"⟩
  ctx := ⟨"c", "10.0.0.1", none⟩

def sampleSignedIn : Store where
  clock := 0
  users := fun userId =>
    if userId = "u" then some ⟨org, "u@b.c", "hash", "secret", true, .analyst, .active, 0⟩ else none
  counters := fun _ => none
  replay := fun _ => none
  sessions := fun token =>
    if token = "t" then some ⟨⟨"u", org, .analyst, "csrf"⟩, 0, 0, 1, 0, 0⟩ else none
  audit := []
  tick := 1
  handedOut := ["t"]
  grants := []
  releases := []

def samplePage : Input := ⟨none, "", "", "", ["t"], true, false, false⟩

/-- The user's role is changed; its session is gone when the change returns, and none of the old
role comes back. -/
theorem sample_role_change : ∃ p : Pool Store Call,
    Run (reliable sampleWorld) ⟨sampleSignedIn, []⟩ p ∧
      p.threads = [.change sampleChange (.done (.changed 1))] ∧ p.store.sessions "t" = none ∧
      ∀ q, Run (reliable sampleWorld) p q → ∀ t e, q.store.sessions t = some e →
        e.info.userId = "u" → 1 ≤ e.readVersion := by
  have hformed : WellFormed sampleSignedIn := by
    intro t e he
    by_cases ht : t = "t"
    · simp only [sampleSignedIn, ht, if_true] at he
      rw [← Option.some.inj he, ht]
      exact ⟨mem_singleton_self "t", one_pos⟩
    · simp [sampleSignedIn, ht] at he
  have hspawn : Step (reliable sampleWorld) ⟨sampleSignedIn, []⟩
      ⟨sampleSignedIn, [.change sampleChange .transaction]⟩ :=
    .spawn (Starts.assignRole sampleChange.session sampleChange.ctx "u" .viewer)
  have hcommit := (Relation.ReflTransGen.single hspawn).tail
    (reliable_answers (i := 0) samplePage rfl trivial)
  have hsame : (sampleChange.effect samplePage sampleSignedIn .transaction).sessions =
      sampleSignedIn.sessions := rfl
  have hscan := hcommit.tail (reliable_answers (i := 0) samplePage rfl fun _ key entry hentry _ =>
    (hformed key entry (by rw [← hsame]; exact hentry)).1)
  have hget := hscan.tail (reliable_answers (i := 0) samplePage rfl trivial)
  have hdel := hget.tail (reliable_answers (i := 0) samplePage rfl trivial)
  refine ⟨_, hdel, rfl, rfl, ?_⟩
  intro q hq
  refine no_session_outlives_change hformed hdel (j := 0) rfl rfl ?_ hq
  intro d hd user hrow _
  have hdone : d = .change sampleChange (.done (.changed 1)) := mem_singleton.mp hd
  rw [hdone] at hrow
  exact absurd hrow (by simp [Call.readRow])

end CyberGuard.Auth
