import Mathlib.Data.List.Induction
import CyberGuard.Auth.SessionScan
import CyberGuard.Shared.JsonText

/-!
# How long a session lives

`createSession`, `resolveSession` and `revokeSession` with the lifetimes of the keys they
set: a key with a lifetime is there before the instant it was set at plus the lifetime.
Each call is one step, and all read one clock.
-/

namespace CyberGuard.Auth.SessionLife
set_option autoImplicit false
open SessionScan List

/-- What a key holds, and the instant from which on it is gone. -/
abbrev Expiring := String → Option (String × Int)

def get (keys : Expiring) (now : Int) : Keyspace := fun key =>
  match keys key with
  | some (value, expiresAt) => if now < expiresAt then some value else none
  | none => none

def set (keys : Expiring) (now lifetime : Int) (key value : String) : Expiring := fun k =>
  if k = key then some (value, now + lifetime) else keys k

/-- `SET XX`: only a key that is there is set. -/
def setXx (keys : Expiring) (now lifetime : Int) (key value : String) : Expiring :=
  if (get keys now key).isSome then set keys now lifetime key value else keys

def del (keys : Expiring) (key : String) : Expiring := fun k => if k = key then none else keys k

structure Info where
  userId : String
  orgId : String
  role : String
  csrfToken : String
  deriving DecidableEq, Repr

section calls
variable {N : Type} (R : Runtime N) (idleMs : Int)

def payloadFields (info : Info) (issuedAt lastSeen : Int) : List (String × Json N) :=
  [("user_id", .string info.userId), ("org_id", .string info.orgId), ("role", .string info.role),
    ("csrf_token", .string info.csrfToken), ("issued_at", .string (R.toISOString issuedAt)),
    ("last_seen", .string (R.toISOString lastSeen))]

def payload (info : Info) (issuedAt lastSeen : Int) : Json N :=
  .object (payloadFields R info issuedAt lastSeen)

def createSession (keys : Expiring) (token : String) (info : Info) (now : Int) : Expiring :=
  set keys now idleMs (sessionPrefix ++ token) (R.stringify (payload R info now now))

def resolveSession (keys : Expiring) (token : String) (now : Int) :
    Expiring × Option (ResolvedSession N) :=
  if token = "" then (keys, none)
  else
    let key := sessionPrefix ++ token
    match get keys now key with
    | none => (keys, none)
    | some raw =>
      if raw = "" then (keys, none)
      else
        match entryOf R raw with
        | none => (del keys key, none)
        | some fields =>
          match timeLeft R now fields with
          | none => (del keys key, none)
          | some left =>
            if 0 < left then
              let again := R.stringify
                (.object (Json.setMember "last_seen" (.string (R.toISOString now)) fields))
              (setXx keys now (min idleMs left) key again,
                some ⟨fields.lookup "user_id", fields.lookup "org_id", fields.lookup "role",
                  fields.lookup "csrf_token"⟩)
            else (del keys key, none)

def revokeSession (keys : Expiring) (token : String) : Expiring :=
  if token = "" then keys else del keys (sessionPrefix ++ token)

inductive Use where
  | resolve (now : Int)
  | revoke (now : Int)
  deriving DecidableEq, Repr

def Use.time : Use → Int
  | .resolve now => now
  | .revoke now => now

def Use.run (keys : Expiring) (token : String) : Use → Expiring × Option (ResolvedSession N)
  | .resolve now => resolveSession R idleMs keys token now
  | .revoke _ => (revokeSession keys token, none)

def runUses (token : String) : Expiring → List Use →
    Expiring × List (Use × Option (ResolvedSession N))
  | keys, [] => (keys, [])
  | keys, use :: rest =>
    let (keys, answer) := use.run R idleMs keys token
    let (keys, answers) := runUses token keys rest
    (keys, (use, answer) :: answers)

end calls

/-- What the runtime is known for: a date in the range of `Date` is read back from its text, and
the entries that `createSession` writes are read back from theirs. -/
structure Faithful {N : Type} (R : Runtime N) : Prop where
  dateParse_toISOString : ∀ t : Int, -8640000000000000 ≤ t → t ≤ 8640000000000000 →
    R.dateParse (R.toISOString t) = some t
  parse_stringify : ∀ info issuedAt lastSeen,
    R.parse (R.stringify (payload R info issuedAt lastSeen)) = some (payload R info issuedAt lastSeen)
  parse_empty : R.parse "" = none

section life
variable {N : Type} {R : Runtime N} {idleMs : Int} {info : Info} {issuedAt : Int} {token : String}

def Info.resolved (info : Info) : ResolvedSession N :=
  ⟨some (.string info.userId), some (.string info.orgId), some (.string info.role),
    some (.string info.csrfToken)⟩

variable {keys : Expiring} {now : Int} {uses : List Use}

theorem resolve_missing (h : get keys now (sessionPrefix ++ token) = none) :
    resolveSession R idleMs keys token now = (keys, none) := by
  unfold resolveSession
  split
  · rfl
  · simp only [h]

/-- An entry that is there is rewritten and resolved before the cap, and deleted from it on. -/
theorem resolve_entry (hR : Faithful R)
    (hrange : -8640000000000000 ≤ issuedAt ∧ issuedAt ≤ 8640000000000000) (htoken : token ≠ "")
    {lastSeen : Int}
    (h : get keys now (sessionPrefix ++ token) =
      some (R.stringify (payload R info issuedAt lastSeen))) :
    resolveSession R idleMs keys token now =
      if now < issuedAt + R.capMs then
        (set keys now (min idleMs (issuedAt + R.capMs - now)) (sessionPrefix ++ token)
          (R.stringify (payload R info issuedAt now)), some info.resolved)
      else (del keys (sessionPrefix ++ token), none) := by
  have hparse := hR.parse_stringify info issuedAt lastSeen
  have hnonempty : R.stringify (payload R info issuedAt lastSeen) ≠ "" := by
    intro hempty
    rw [hempty, hR.parse_empty] at hparse
    cases hparse
  have hfields : entryOf R (R.stringify (payload R info issuedAt lastSeen)) =
      some (payloadFields R info issuedAt lastSeen) := by
    rw [entryOf, hparse]
    rfl
  have hleft : timeLeft R now (payloadFields R info issuedAt lastSeen) =
      some (issuedAt + R.capMs - now) := by
    change (R.dateParse (R.toISOString issuedAt)).map _ = _
    rw [hR.dateParse_toISOString issuedAt hrange.1 hrange.2]
    rfl
  unfold resolveSession
  simp only [if_neg htoken, h, if_neg hnonempty, hfields, hleft, Int.sub_pos, setXx,
    Option.isSome_some, if_true]
  rfl

/-- Where a session stands at an instant: its entry is there up to the earlier of the two limits,
or it is over for good. -/
inductive Standing (R : Runtime N) (idleMs : Int) (info : Info) (issuedAt : Int) (token : String)
    (keys : Expiring) (revoked : Prop) (lastUse now : Int) : Prop where
  | live (lastSeen expiresAt : Int) :
      keys (sessionPrefix ++ token) =
        some (R.stringify (payload R info issuedAt lastSeen), expiresAt) →
      min expiresAt (issuedAt + R.capMs) = min (lastUse + idleMs) (issuedAt + R.capMs) →
      ¬ revoked → Standing R idleMs info issuedAt token keys revoked lastUse now
  | past : (∀ value expiresAt, keys (sessionPrefix ++ token) = some (value, expiresAt) →
        expiresAt ≤ now ∧ ∃ lastSeen, value = R.stringify (payload R info issuedAt lastSeen)) →
      revoked ∨ issuedAt + R.capMs ≤ now ∨ lastUse + idleMs ≤ now →
      Standing R idleMs info issuedAt token keys revoked lastUse now

/-- A resolution returns the session exactly within its limits, and is then its last use. -/
theorem Standing.resolve (hR : Faithful R)
    (hrange : -8640000000000000 ≤ issuedAt ∧ issuedAt ≤ 8640000000000000) (htoken : token ≠ "")
    {revoked : Prop} {lastUse t : Int} (hnow : now ≤ t)
    (h : Standing R idleMs info issuedAt token keys revoked lastUse now) :
    (¬ revoked ∧ t < issuedAt + R.capMs ∧ t < lastUse + idleMs ∧
      (resolveSession R idleMs keys token t).2 = some info.resolved ∧
      Standing R idleMs info issuedAt token (resolveSession R idleMs keys token t).1 revoked t t) ∨
    ((revoked ∨ issuedAt + R.capMs ≤ t ∨ lastUse + idleMs ≤ t) ∧
      (resolveSession R idleMs keys token t).2 = none ∧
      ∀ value expiresAt, (resolveSession R idleMs keys token t).1 (sessionPrefix ++ token) =
          some (value, expiresAt) →
        expiresAt ≤ t ∧ ∃ lastSeen, value = R.stringify (payload R info issuedAt lastSeen)) := by
  cases h with
  | live lastSeen expiresAt hentry hlimits hrevoked =>
    by_cases hthere : t < expiresAt
    · have hget : get keys t (sessionPrefix ++ token) =
          some (R.stringify (payload R info issuedAt lastSeen)) := by
        simp only [get, hentry, if_pos hthere]
      rw [resolve_entry hR hrange htoken hget]
      by_cases hcap : t < issuedAt + R.capMs
      · rw [if_pos hcap]
        refine Or.inl ⟨hrevoked, hcap, by omega, rfl, .live t _ (if_pos rfl) ?_ hrevoked⟩
        omega
      · rw [if_neg hcap]
        refine Or.inr ⟨Or.inr (Or.inl (by omega)), rfl, ?_⟩
        intro value expiresAt' hvalue
        simp [del] at hvalue
    · have hget : get keys t (sessionPrefix ++ token) = none := by
        simp only [get, hentry, if_neg hthere]
      rw [resolve_missing hget]
      refine Or.inr ⟨Or.inr (by omega), rfl, ?_⟩
      intro value expiresAt' hvalue
      cases hentry.symm.trans hvalue
      exact ⟨by omega, lastSeen, rfl⟩
  | past hgone hlimit =>
    have hget : get keys t (sessionPrefix ++ token) = none := by
      unfold get
      split
      · rename_i value expiresAt hvalue
        exact if_neg (by have := (hgone value expiresAt hvalue).1; omega)
      · rfl
    rw [resolve_missing hget]
    have hlater : revoked ∨ issuedAt + R.capMs ≤ t ∨ lastUse + idleMs ≤ t :=
      hlimit.imp_right fun h => by omega
    refine Or.inr ⟨hlater, rfl, ?_⟩
    intro value expiresAt hvalue
    obtain ⟨hle, hkept⟩ := hgone value expiresAt hvalue
    exact ⟨by omega, hkept⟩

theorem Standing.revoke (htoken : token ≠ "") (keys : Expiring) {revoked : Prop}
    (hrevoked : revoked) (lastUse now : Int) :
    Standing R idleMs info issuedAt token (revokeSession keys token) revoked lastUse now := by
  refine .past ?_ (Or.inl hrevoked)
  intro value expiresAt hvalue
  simp [revokeSession, htoken, del] at hvalue

theorem Standing.create (keys : Expiring) :
    Standing R idleMs info issuedAt token
      (createSession R idleMs keys token info issuedAt) False issuedAt issuedAt :=
  .live issuedAt _ (if_pos rfl) rfl not_false

def lastUse (issuedAt : Int) (answers : List (Use × Option (ResolvedSession N))) : Int :=
  answers.foldl (fun last answer => if answer.2.isSome then answer.1.time else last) issuedAt

def Revoked (uses : List Use) : Prop := ∃ now, .revoke now ∈ uses

theorem runUses_append (keys : Expiring) (before after : List Use) :
    runUses R idleMs token keys (before ++ after) =
      ((runUses R idleMs token (runUses R idleMs token keys before).1 after).1,
        (runUses R idleMs token keys before).2 ++
          (runUses R idleMs token (runUses R idleMs token keys before).1 after).2) := by
  induction before generalizing keys with
  | nil => rfl
  | cons use rest ih =>
    simp only [cons_append, runUses]
    rw [ih]

theorem lastUse_concat (answers : List (Use × Option (ResolvedSession N)))
    (answer : Use × Option (ResolvedSession N)) :
    lastUse issuedAt (answers ++ [answer]) =
      if answer.2.isSome then answer.1.time else lastUse issuedAt answers := by
  rw [lastUse, foldl_append]
  rfl

theorem revoked_concat {use : Use} :
    Revoked (uses ++ [use]) ↔ Revoked uses ∨ ∃ now, use = .revoke now := by
  unfold Revoked
  simp only [mem_append, mem_singleton, exists_or, eq_comm]

/-- The uses are in the order of their times, from the making of the session on. -/
def Timely (issuedAt : Int) (uses : List Use) : Prop :=
  (issuedAt :: uses.map Use.time).Pairwise (· ≤ ·)

def latest (issuedAt : Int) (uses : List Use) : Int := (uses.map Use.time).getLastD issuedAt

theorem latest_concat (uses : List Use) (use : Use) :
    latest issuedAt (uses ++ [use]) = use.time := by
  simp [latest]

theorem Timely.latest_le {use : Use} {after : List Use} (h : Timely issuedAt
    (uses ++ use :: after)) :
    Timely issuedAt uses ∧ latest issuedAt uses ≤ use.time ∧
      ∀ later ∈ after, use.time ≤ later.time := by
  unfold Timely at h
  rw [map_append, ← cons_append, pairwise_append] at h
  obtain ⟨hbefore, hafter, hacross⟩ := h
  refine ⟨hbefore, hacross _ getLastD_mem_cons _ mem_cons_self, ?_⟩
  intro later hlater
  exact rel_of_pairwise_cons hafter (mem_map_of_mem hlater)

theorem standing_run (hR : Faithful R)
    (hrange : -8640000000000000 ≤ issuedAt ∧ issuedAt ≤ 8640000000000000) (htoken : token ≠ "")
    (keys : Expiring) (htimely : Timely issuedAt uses) :
    Standing R idleMs info issuedAt token
      (runUses R idleMs token (createSession R idleMs keys token info issuedAt) uses).1
      (Revoked uses)
      (lastUse issuedAt
        (runUses R idleMs token (createSession R idleMs keys token info issuedAt) uses).2)
      (latest issuedAt uses) := by
  induction uses using List.reverseRecOn with
  | nil =>
    have hnever : Revoked [] = False := eq_false (by simp [Revoked])
    rw [hnever]
    exact Standing.create keys
  | append_singleton uses use ih =>
    obtain ⟨hbefore, hnow, _⟩ := htimely.latest_le
    rw [runUses_append, latest_concat]
    cases use with
    | revoke now => exact Standing.revoke htoken _ (revoked_concat.mpr (Or.inr ⟨now, rfl⟩)) _ _
    | resolve t =>
      have hsame : Revoked (uses ++ [.resolve t]) = Revoked uses :=
        propext (revoked_concat.trans (by simp))
      change latest issuedAt uses ≤ t at hnow
      rw [hsame]
      simp only [runUses, Use.run]
      rw [lastUse_concat]
      rcases (ih hbefore).resolve hR hrange htoken hnow with
        ⟨_, _, _, hanswer, hstanding⟩ | ⟨hlimit, hanswer, hgone⟩
      · rw [hanswer]
        exact hstanding
      · rw [hanswer]
        exact .past hgone hlimit

/-- With no entry left, every answer is none. -/
theorem answers_none (hlater : ∀ use ∈ uses, now ≤ use.time)
    (hgone : ∀ value expiresAt, keys (sessionPrefix ++ token) = some (value, expiresAt) →
      expiresAt ≤ now) :
    ∀ answer ∈ (runUses R idleMs token keys uses).2, answer.2 = none := by
  induction uses generalizing keys with
  | nil => simp [runUses]
  | cons use rest ih =>
    rw [forall_mem_cons] at hlater
    simp only [runUses]
    refine forall_mem_cons.mpr ?_
    cases use with
    | resolve t =>
      have hget : get keys t (sessionPrefix ++ token) = none := by
        unfold get
        split
        · rename_i value expiresAt hvalue
          exact if_neg (Int.not_lt.mpr (Int.le_trans (hgone value expiresAt hvalue) hlater.1))
        · rfl
      have hmissing : (Use.resolve t).run R idleMs keys token = (keys, none) := resolve_missing hget
      rw [hmissing]
      exact ⟨rfl, ih hlater.2 hgone⟩
    | revoke t =>
      refine ⟨rfl, ih hlater.2 ?_⟩
      intro value expiresAt hvalue
      simp only [Use.run, revokeSession] at hvalue
      split at hvalue
      · exact hgone value expiresAt hvalue
      · simp [del] at hvalue

/-- A session lives exactly as long as its two limits allow: a resolution returns it when it was
not revoked, the cap on its age is not reached, and less than the idle lifetime has passed since
its last use. After a null there is only null, and what it returns or keeps never changes. -/
theorem session_lives_within_limits (hR : Faithful R) (hrange : -8640000000000000 ≤ issuedAt ∧
    issuedAt ≤ 8640000000000000) (htoken : token ≠ "") (keys : Expiring) (uses : List Use) (t : Int)
    (htimely : Timely issuedAt (uses ++ [.resolve t])) :
    let before := runUses R idleMs token (createSession R idleMs keys token info issuedAt) uses
    let resolved := resolveSession R idleMs before.1 token t
    (resolved.2 = some info.resolved ↔ ¬ Revoked uses ∧ t < issuedAt + R.capMs ∧
      t - lastUse issuedAt before.2 < idleMs) ∧
    (resolved.2 = none ∨ resolved.2 = some info.resolved) ∧
    (resolved.2 = none → ∀ after, Timely issuedAt (uses ++ .resolve t :: after) →
      ∀ answer ∈ (runUses R idleMs token resolved.1 after).2, answer.2 = none) ∧
    ∀ value expiresAt, resolved.1 (sessionPrefix ++ token) = some (value, expiresAt) →
      ∃ lastSeen, value = R.stringify (payload R info issuedAt lastSeen) := by
  intro before resolved
  obtain ⟨hbefore, hnow, _⟩ := htimely.latest_le
  change latest issuedAt uses ≤ t at hnow
  have hstanding : Standing R idleMs info issuedAt token before.1 (Revoked uses)
      (lastUse issuedAt before.2) (latest issuedAt uses) :=
    standing_run hR hrange htoken keys hbefore
  rcases hstanding.resolve hR hrange htoken hnow with
    ⟨hrevoked, hcap, hidle, hanswer, hnext⟩ | ⟨hlimit, hanswer, hgone⟩
  · refine ⟨⟨fun _ => ⟨hrevoked, hcap, by omega⟩, fun _ => hanswer⟩, Or.inr hanswer, ?_, ?_⟩
    · intro hnone
      cases hnone.symm.trans hanswer
    · intro value expiresAt hvalue
      cases hnext with
      | live lastSeen expiresAt' hentry _ _ =>
        cases hentry.symm.trans hvalue
        exact ⟨lastSeen, rfl⟩
      | past hgone _ => exact (hgone value expiresAt hvalue).2
  · refine ⟨⟨fun hsome => ?_, fun hwithin => ?_⟩, Or.inl hanswer, ?_, ?_⟩
    · cases hanswer.symm.trans hsome
    · obtain ⟨hrevoked, hcap, hidle⟩ := hwithin
      rcases hlimit with hrevoked' | hcap' | hidle'
      · exact absurd hrevoked' hrevoked
      · omega
      · omega
    · intro _ after hafter
      obtain ⟨_, _, hlater⟩ := hafter.latest_le
      exact answers_none hlater fun value expiresAt hvalue => (hgone value expiresAt hvalue).1
    · intro value expiresAt hvalue
      exact (hgone value expiresAt hvalue).2

end life

/-- Dates as a sign and so many strokes. -/
def sampleRuntime (capMs : Int) : Runtime Nat where
  stringify := Json.write
  parse := Json.read
  dateParse := fun text =>
    match text.toList with
    | '-' :: strokes => some (-strokes.length)
    | strokes => some strokes.length
  toISOString := fun t =>
    if t < 0 then String.ofList ('-' :: List.replicate t.natAbs 'i')
    else String.ofList (List.replicate t.natAbs 'i')
  capMs := capMs

theorem sampleRuntime_faithful (capMs : Int) : Faithful (sampleRuntime capMs) where
  dateParse_toISOString := by
    intro t _ _
    simp only [sampleRuntime]
    by_cases ht : t < 0
    · rw [if_pos ht, String.toList_ofList]
      simp only [length_replicate]
      exact congrArg some (by omega)
    · rw [if_neg ht, String.toList_ofList]
      cases hn : t.natAbs with
      | zero => exact congrArg some (by simp; omega)
      | succ n =>
        change some ((List.replicate (n + 1) 'i').length : Int) = some t
        rw [length_replicate]
        exact congrArg some (by omega)
  parse_stringify := by
    intro info issuedAt lastSeen
    simp only [sampleRuntime, Json.read_write]
  parse_empty := rfl

def sampleInfo : Info := ⟨"u", "default", "analyst", "c"⟩

/-- An idle lifetime beyond the cap: the session is resolved before the cap, and over at it. -/
theorem sample_session_over_at_cap :
    let made := createSession (sampleRuntime 10) 100 (fun _ => none) "s" sampleInfo 1
    (resolveSession (sampleRuntime 10) 100 made "s" 4).2 = some sampleInfo.resolved ∧
    (resolveSession (sampleRuntime 10) 100
      (runUses (sampleRuntime 10) 100 "s" made [.resolve 4]).1 "s" 11).2 ≠
        some sampleInfo.resolved := by
  have hfirst : Timely 1 ([] ++ [.resolve 4]) := by
    unfold Timely
    decide
  have hsecond : Timely 1 ([.resolve 4] ++ [.resolve 11]) := by
    unfold Timely
    decide
  refine ⟨?_, fun hsome => ?_⟩
  · refine (session_lives_within_limits (sampleRuntime_faithful 10) (by decide) (by decide)
      (fun _ => none) [] 4 hfirst).1.mpr ⟨?_, by decide, by decide⟩
    simp [Revoked]
  · have hwithin := ((session_lives_within_limits (sampleRuntime_faithful 10) (by decide)
      (by decide) (fun _ => none) [.resolve 4] 11 hsecond).1.mp hsome).2.1
    exact absurd hwithin (by decide)

end CyberGuard.Auth.SessionLife
