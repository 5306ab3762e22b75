import CyberGuard.Shared.Json

/-!
# The session keys as Redis holds them

`resolveSession` and `revokeAllForUser` over any content of the session keys. The two
read an entry differently: `entryOf` takes what is not a JSON object for no session,
while the scan parses each entry where it stands and lets the error out. So an entry
that does not parse, or is `null`, ends a revocation before the keys that follow it.
-/

namespace CyberGuard.Auth.SessionScan
set_option autoImplicit false

/-- What `GET` answers for each key. -/
abbrev Keyspace := String → Option String

def sessionPrefix : String := "cgsess:"

/-- What the session code calls: `JSON.parse` (`none` where it throws), `JSON.stringify`,
`Date.parse` (`none` for `NaN`) and `toISOString`; and the cap on a session. -/
structure Runtime (N : Type) where
  parse : String → Option (Json N)
  stringify : Json N → String
  dateParse : String → Option Int
  toISOString : Int → String
  capMs : Int

/-- The members of a session as they are handed on, whatever they hold. -/
structure ResolvedSession (N : Type) where
  userId : Option (Json N)
  orgId : Option (Json N)
  role : Option (Json N)
  csrfToken : Option (Json N)

def isText {N : Type} (text : String) : Option (Json N) → Bool
  | some (.string other) => other == text
  | _ => false

section readers
variable {N : Type} (R : Runtime N)

def entryOf (raw : String) : Option (List (String × Json N)) :=
  match R.parse raw with
  | some (.object fields) => some fields
  | _ => none

def timeLeft (now : Int) (fields : List (String × Json N)) : Option Int :=
  match fields.lookup "issued_at" with
  | some (.string text) => (R.dateParse text).map fun issuedAt => issuedAt + R.capMs - now
  | _ => none

def resolveSession (keys : Keyspace) (token : String) (now : Int) :
    Keyspace × Option (ResolvedSession N) :=
  if token = "" then (keys, none)
  else
    let key := sessionPrefix ++ token
    match keys key with
    | none => (keys, none)
    | some raw =>
      if raw = "" then (keys, none)
      else
        let deleted : Keyspace := fun k => if k = key then none else keys k
        match entryOf R raw with
        | none => (deleted, none)
        | some fields =>
          match timeLeft R now fields with
          | none => (deleted, none)
          | some left =>
            if 0 < left then
              let again := R.stringify
                (.object (Json.setMember "last_seen" (.string (R.toISOString now)) fields))
              (fun k => if k = key then some again else keys k,
                some ⟨fields.lookup "user_id", fields.lookup "org_id", fields.lookup "role",
                  fields.lookup "csrf_token"⟩)
            else (deleted, none)

/-- What a revocation throws: the parser's error, or the read of a property of `null`. -/
inductive ScanError where
  | syntaxError
  | typeError
  deriving DecidableEq, Repr

def revokeKey (userId : String) (keys : Keyspace) (k : String) : Keyspace × Option ScanError :=
  match keys k with
  | none => (keys, none)
  | some raw =>
    if raw = "" then (keys, none)
    else
      match R.parse raw with
      | none => (keys, some .syntaxError)
      | some .null => (keys, some .typeError)
      | some value =>
        if isText userId (value.member "user_id") then
          (fun j => if j = k then none else keys j, none)
        else (keys, none)

/-- The keys of one page in turn; an error leaves the rest. -/
def revokeKeys (userId : String) : Keyspace → List String → Keyspace × Option ScanError
  | keys, [] => (keys, none)
  | keys, k :: rest =>
    match revokeKey R userId keys k with
    | (keys, none) => revokeKeys userId keys rest
    | (keys, some error) => (keys, some error)

/-- The pages of one full scan, the last of which comes with cursor 0. -/
def revokeAllForUser (userId : String) : Keyspace → List (List String) →
    Keyspace × Option ScanError
  | keys, [] => (keys, none)
  | keys, page :: rest =>
    match revokeKeys R userId keys page with
    | (keys, none) => revokeAllForUser userId keys rest
    | (keys, some error) => (keys, some error)

end readers

section scan
variable {N : Type} {R : Runtime N} {userId : String}

/-- The entry is one the scan can look at: empty, or JSON other than `null`. -/
def Readable (R : Runtime N) (raw : String) : Prop :=
  raw = "" ∨ ∃ value, R.parse raw = some value ∧ value ≠ .null

def Owned (R : Runtime N) (userId raw : String) : Prop :=
  raw ≠ "" ∧ ∃ value, R.parse raw = some value ∧
    isText userId (value.member "user_id") = true

/-- What a look at one key does: nothing, delete the user's entry, or throw. -/
inductive Looked (R : Runtime N) (userId : String) (keys : Keyspace) (k : String) :
    Keyspace × Option ScanError → Prop where
  | kept : (∀ raw, keys k = some raw → Readable R raw ∧ ¬ Owned R userId raw) →
      Looked R userId keys k (keys, none)
  | deleted {raw : String} : keys k = some raw → Owned R userId raw →
      Looked R userId keys k (fun j => if j = k then none else keys j, none)
  | thrown {raw : String} (error : ScanError) : keys k = some raw → ¬ Readable R raw →
      Looked R userId keys k (keys, some error)

theorem looked (R : Runtime N) (userId : String) (keys : Keyspace) (k : String) :
    Looked R userId keys k (revokeKey R userId keys k) := by
  unfold revokeKey
  cases hk : keys k with
  | none => exact .kept fun raw hraw => by simp [hk] at hraw
  | some raw =>
    simp only
    by_cases hempty : raw = ""
    · rw [if_pos hempty]
      refine .kept fun other hother => ?_
      obtain rfl := Option.some.inj (hk.symm.trans hother)
      exact ⟨.inl hempty, fun howned => howned.1 hempty⟩
    · rw [if_neg hempty]
      have hunreadable (h : ∀ value, R.parse raw = some value → value = .null) :
          ¬ Readable R raw := by
        rintro (hnil | ⟨value, hvalue, hne⟩)
        · exact hempty hnil
        · exact hne (h value hvalue)
      cases hparse : R.parse raw with
      | none => exact .thrown _ hk (hunreadable fun value hvalue => by simp [hparse] at hvalue)
      | some value =>
        have hother (hne : value ≠ .null) (hnot : isText userId (value.member "user_id") = false) :
            Looked R userId keys k (keys, none) := by
          refine .kept fun other hother => ?_
          obtain rfl := Option.some.inj (hk.symm.trans hother)
          refine ⟨.inr ⟨value, hparse, hne⟩, ?_⟩
          rintro ⟨-, again, hagain, howned⟩
          obtain rfl := Option.some.inj (hparse.symm.trans hagain)
          exact Bool.false_ne_true (hnot.symm.trans howned)
        cases value with
        | null =>
          refine .thrown _ hk (hunreadable fun value hvalue => ?_)
          exact (Option.some.inj (hparse.symm.trans hvalue)).symm
        | object fields =>
          simp only
          split
          · rename_i howned
            exact .deleted hk ⟨hempty, _, hparse, howned⟩
          · rename_i hnot
            exact hother (by simp) (eq_false_of_ne_true hnot)
        | _ => exact hother (by simp) rfl

theorem revokeKeys_append (keys : Keyspace) (page rest : List String) :
    revokeKeys R userId keys (page ++ rest) =
      match revokeKeys R userId keys page with
      | (keys, none) => revokeKeys R userId keys rest
      | (keys, some error) => (keys, some error) := by
  induction page generalizing keys with
  | nil => rfl
  | cons k page ih =>
    simp only [List.cons_append, revokeKeys]
    split
    · exact ih _
    · rfl

theorem revokeAllForUser_eq (keys : Keyspace) (pages : List (List String)) :
    revokeAllForUser R userId keys pages = revokeKeys R userId keys pages.flatten := by
  induction pages generalizing keys with
  | nil => rfl
  | cons page pages ih =>
    simp only [revokeAllForUser, List.flatten_cons, revokeKeys_append, ih]

variable (R userId) in
/-- Only entries of the user go, whether or not the scan ends in an error. -/
theorem revokeKeys_deletes (keys : Keyspace) (page : List String) (key : String) :
    (revokeKeys R userId keys page).1 key = keys key ∨
      ((revokeKeys R userId keys page).1 key = none ∧
        ∃ raw, keys key = some raw ∧ Owned R userId raw) := by
  induction page generalizing keys with
  | nil => exact .inl rfl
  | cons k page ih =>
    have hlooked := looked R userId keys k
    simp only [revokeKeys]
    generalize revokeKey R userId keys k = result at hlooked
    cases hlooked with
    | kept _ => exact ih keys
    | thrown error _ _ => exact .inl rfl
    | @deleted raw hraw howned =>
      by_cases hkey : key = k
      · subst hkey
        refine .inr ⟨?_, raw, hraw, howned⟩
        rcases ih (fun j => if j = key then none else keys j) with hsame | ⟨hnone, -⟩
        · rw [hsame, if_pos rfl]
        · exact hnone
      · have hrest := ih (fun j => if j = k then none else keys j)
        simpa [hkey] using hrest

theorem Owned.readable {raw : String} (h : Owned R userId raw) : Readable R raw := by
  obtain ⟨-, value, hvalue, howned⟩ := h
  refine .inr ⟨value, hvalue, ?_⟩
  rintro rfl
  simp [Json.member, isText] at howned

variable (userId) in
theorem revokeKeys_ok_iff (keys : Keyspace) (page : List String) :
    (revokeKeys R userId keys page).2 = none ↔
      ∀ key ∈ page, ∀ raw, keys key = some raw → Readable R raw := by
  induction page generalizing keys with
  | nil => simp [revokeKeys]
  | cons k page ih =>
    have hlooked := looked R userId keys k
    simp only [revokeKeys]
    generalize revokeKey R userId keys k = result at hlooked
    rw [List.forall_mem_cons]
    cases hlooked with
    | thrown error hraw hnot =>
      exact iff_of_false (by simp) fun h => hnot (h.1 _ hraw)
    | kept hkept =>
      simp only [ih, and_iff_right fun raw hraw => (hkept raw hraw).1]
    | @deleted old hold howned =>
      have hk : ∀ raw, keys k = some raw → Readable R raw := by
        intro raw hraw
        obtain rfl := Option.some.inj (hold.symm.trans hraw)
        exact howned.readable
      simp only [ih, and_iff_right hk]
      refine forall₂_congr fun key _ => ?_
      by_cases hkey : key = k
      · subst hkey
        simpa using hk
      · simp [hkey]

/-- A scan that ends without an error leaves no entry of the user under the keys it looked at. -/
theorem revokeKeys_reaches (keys : Keyspace) {page : List String}
    (hnone : (revokeKeys R userId keys page).2 = none) {key raw : String} (hkey : key ∈ page)
    (hraw : (revokeKeys R userId keys page).1 key = some raw) : ¬ Owned R userId raw := by
  induction page generalizing keys with
  | nil => simp at hkey
  | cons k page ih =>
    have hlooked := looked R userId keys k
    simp only [revokeKeys] at hnone hraw
    generalize revokeKey R userId keys k = result at hlooked hnone hraw
    cases hlooked with
    | thrown error _ _ => simp at hnone
    | kept hkept =>
      rcases List.mem_cons.mp hkey with rfl | hrest
      · rcases revokeKeys_deletes R userId keys page key with hsame | ⟨hdel, -⟩
        · exact (hkept raw (hsame.symm.trans hraw)).2
        · simp [hdel] at hraw
      · exact ih keys hnone hrest hraw
    | @deleted old hold howned =>
      rcases List.mem_cons.mp hkey with rfl | hrest
      · rcases revokeKeys_deletes R userId
          (fun j => if j = key then none else keys j) page key with hsame | ⟨hdel, -⟩
        · simp [hsame] at hraw
        · simp [hdel] at hraw
      · exact ih _ hnone hrest hraw

theorem resolved_entry {keys : Keyspace} {token : String} {now : Int}
    {session : ResolvedSession N} (h : (resolveSession R keys token now).2 = some session) :
    ∃ raw fields, keys (sessionPrefix ++ token) = some raw ∧ raw ≠ "" ∧
      R.parse raw = some (.object fields) ∧ session.userId = fields.lookup "user_id" := by
  simp only [resolveSession] at h
  split at h
  · simp at h
  · cases hraw : keys (sessionPrefix ++ token) with
    | none => simp [hraw] at h
    | some raw =>
      simp only [hraw] at h
      split at h
      · simp at h
      · rename_i hne
        cases hentry : entryOf R raw with
        | none => simp [hentry] at h
        | some fields =>
          have hparse : R.parse raw = some (.object fields) := by
            unfold entryOf at hentry
            split at hentry
            · rename_i other hother
              rw [hother, Option.some.inj hentry]
            · simp at hentry
          simp only [hentry] at h
          split at h
          · simp at h
          · split at h
            · exact ⟨raw, fields, rfl, hne, hparse, by rw [← Option.some.inj h]⟩
            · simp at h

variable (userId) in
theorem owned_iff_of_resolved {keys : Keyspace} {token : String} {now : Int}
    {session : ResolvedSession N} (h : (resolveSession R keys token now).2 = some session) :
    ∃ raw, keys (sessionPrefix ++ token) = some raw ∧
      (Owned R userId raw ↔ isText userId session.userId = true) := by
  obtain ⟨raw, fields, hraw, hne, hparse, huser⟩ := resolved_entry h
  refine ⟨raw, hraw, ?_⟩
  rw [huser]
  constructor
  · rintro ⟨-, value, hvalue, howned⟩
    obtain rfl := Option.some.inj (hparse.symm.trans hvalue)
    exact howned
  · intro howned
    exact ⟨hne, _, hparse, howned⟩

/-- A revocation that scans every key still there ends without an error and leaves no entry that
resolves to the user exactly where every scanned entry is empty or JSON other than `null`; whatever
the entries are, none that resolves to another is deleted. -/
theorem revocation_reaches_every_session {before : Keyspace} {pages : List (List String)}
    (hscan : ∀ token raw, (revokeAllForUser R userId before pages).1 (sessionPrefix ++ token) =
      some raw → sessionPrefix ++ token ∈ pages.flatten) :
    (((revokeAllForUser R userId before pages).2 = none ∧
        ∀ token now session,
          (resolveSession R (revokeAllForUser R userId before pages).1 token now).2 = some session →
          isText userId session.userId = false) ↔
      ∀ key ∈ pages.flatten, ∀ raw, before key = some raw → Readable R raw) ∧
    ∀ token now session, (resolveSession R before token now).2 = some session →
      isText userId session.userId = false →
      (revokeAllForUser R userId before pages).1 (sessionPrefix ++ token) =
        before (sessionPrefix ++ token) := by
  rw [revokeAllForUser_eq] at hscan ⊢
  refine ⟨?_, ?_⟩
  · rw [← revokeKeys_ok_iff userId]
    refine ⟨fun h => h.1, fun hnone => ⟨hnone, ?_⟩⟩
    intro token now session hresolved
    obtain ⟨raw, hraw, howned⟩ := owned_iff_of_resolved userId hresolved
    have hnot := revokeKeys_reaches before hnone (hscan token raw hraw) hraw
    exact eq_false_of_ne_true (mt howned.mpr hnot)
  · intro token now session hresolved hother
    obtain ⟨raw, hraw, howned⟩ := owned_iff_of_resolved userId hresolved
    rcases revokeKeys_deletes R userId before pages.flatten (sessionPrefix ++ token) with
      hsame | ⟨-, old, hold, hdeleted⟩
    · exact hsame
    · obtain rfl := Option.some.inj (hraw.symm.trans hold)
      exact absurd (howned.mp hdeleted) (Bool.not_eq_true _ ▸ hother)

end scan

def sampleEntry : String :=
  "\x7b\"user_id\":\"u\",\"issued_at\":\"1970-01-01T00:00:00.000Z\"\x7d"

/-- `JSON.parse` on the entries below: the user's session, `null`, and a text that is no JSON. -/
def sampleRuntime : Runtime Int where
  parse := fun raw =>
    if raw = sampleEntry then
      some (.object [("user_id", .string "u"), ("issued_at", .string "1970-01-01T00:00:00.000Z")])
    else if raw = "null" then some .null
    else none
  stringify := fun _ => sampleEntry
  dateParse := fun _ => some 0
  toISOString := fun _ => "1970-01-01T00:00:00.000Z"
  capMs := 86400000

def keysWith (other : String) : Keyspace := fun key =>
  if key = "cgsess:s" then some sampleEntry
  else if key = "cgsess:a" then some other
  else none

/-- Behind an entry that is no JSON, or `null`, the user's session stays: the revocation has
thrown, and the session still resolves to the user. -/
theorem sample_session_survives_revocation :
    (revokeAllForUser sampleRuntime "u" (keysWith "not json") [["cgsess:a", "cgsess:s"]]).2 =
        some .syntaxError ∧
      (revokeAllForUser sampleRuntime "u" (keysWith "null") [["cgsess:a", "cgsess:s"]]).2 =
        some .typeError ∧
      ∀ other ∈ ["not json", "null"],
        (resolveSession sampleRuntime
          (revokeAllForUser sampleRuntime "u" (keysWith other) [["cgsess:a", "cgsess:s"]]).1
          "s" 1000).2.map (fun session => isText "u" session.userId) = some true := by
  decide

/-- With the entry empty the revocation reaches the session. -/
theorem sample_revocation_reaches_session :
    (revokeAllForUser sampleRuntime "u" (keysWith "") [["cgsess:a"], ["cgsess:s"]]).2 = none ∧
      ∀ token now session, (resolveSession sampleRuntime
        (revokeAllForUser sampleRuntime "u" (keysWith "") [["cgsess:a"], ["cgsess:s"]]).1
          token now).2 = some session → isText "u" session.userId = false := by
  have hreadable : ∀ key ∈ [["cgsess:a"], ["cgsess:s"]].flatten, ∀ raw,
      keysWith "" key = some raw → Readable sampleRuntime raw := by
    intro key hkey raw hraw
    have hcases : key = "cgsess:a" ∨ key = "cgsess:s" := by simpa using hkey
    rcases hcases with rfl | rfl
    · exact .inl (Option.some.inj hraw).symm
    · obtain rfl := Option.some.inj hraw
      exact .inr ⟨_, rfl, by simp⟩
  have hscan : ∀ token raw,
      (revokeAllForUser sampleRuntime "u" (keysWith "") [["cgsess:a"], ["cgsess:s"]]).1
        (sessionPrefix ++ token) = some raw →
      sessionPrefix ++ token ∈ [["cgsess:a"], ["cgsess:s"]].flatten := by
    intro token raw hraw
    rw [revokeAllForUser_eq] at hraw
    rcases revokeKeys_deletes sampleRuntime "u" (keysWith "") _ (sessionPrefix ++ token) with
      hsame | ⟨hgone, -⟩
    · rw [hsame, keysWith] at hraw
      split at hraw
      · rename_i hkey
        simp [hkey]
      · split at hraw
        · rename_i hkey
          simp [hkey]
        · simp at hraw
    · exact absurd (hgone.symm.trans hraw) (by simp)
  exact (revocation_reaches_every_session hscan).1.mpr hreadable

end CyberGuard.Auth.SessionScan
