import CyberGuard.Ingest.HeartbeatRoute

/-!
# An envelope is accepted once while its nonce is set in time

The skew window of an envelope is as wide as the nonce lives. A handler that runs
`SET NX` inside the window therefore finds the nonce of an earlier one, however
early that one came. Nothing bounds the time between the skew check and the `SET`,
though, and one millisecond past the window is enough for a replay.
-/

namespace CyberGuard.Ingest.Heartbeat
set_option autoImplicit false
open CyberGuard.Wire Interleaving ExpiringKeys

section Replay
variable {Body PubKey : Type}

variable (S : Server Body PubKey)

/-- A handler of `body` runs its `SET NX` at most `late` milliseconds past the window. -/
def SetWithin (body : Body) (late : Nat) (s : Store PubKey) : Pc Body PubKey → Prop
  | .setNonce req env _ =>
    req.body = body → ∀ sentAtMs, S.dateMs env.sentAt = some sentAtMs →
      s.clock ≤ sentAtMs + skewMs + late
  | _ => True

/-- The envelope a handler works on is its body's, and past the skew check the clock is in
the window or later. -/
def Checked (now : Int) : Pc Body PubKey → Prop
  | .selectAgent req env | .checkTimestamp req env _ => S.safeParse req.body = some env
  | .setNonce req env _ => S.safeParse req.body = some env ∧
    ∀ sentAtMs, S.dateMs env.sentAt = some sentAtMs → sentAtMs - skewMs ≤ now
  | _ => True

variable {S}

variable {pc pc' : Pc Body PubKey} {a : Answer} {s s' : Store PubKey} {body : Body}
  {env : OuterEnvelope} {sentAtMs : Int}

theorem Checked.later {now now' : Int} (h : Checked S now pc) (hle : now ≤ now') :
    Checked S now' pc := by
  cases pc with
  | setNonce req env key =>
    obtain ⟨hparse, hin⟩ := h
    refine ⟨hparse, ?_⟩
    intro sentAtMs hdate
    exact (hin sentAtMs hdate).trans hle
  | _ => exact h

theorem checked_receive (now : Int) (req : Request Body) : Checked S now (receive S req) := by
  unfold receive
  cases hparse : S.safeParse req.body with
  | none => trivial
  | some env =>
    cases req.peerCn with
    | none => trivial
    | some peerCn =>
      simp only
      split
      · trivial
      · exact hparse

theorem checked_advance (hpc : Checked S s.clock pc) (h : advance S a s pc = (s', pc')) :
    Checked S s'.clock pc' := by
  rw [advance_clock h]
  obtain ⟨rfl, rfl⟩ := Prod.mk.inj h
  cases pc with
  | selectAgent req env =>
    simp only [selectAgent]
    cases a with
    | failed connectivity kept => trivial
    | ok =>
      cases s.agents env.agentId with
      | none => trivial
      | some key => exact hpc
  | checkTimestamp req env key =>
    simp only [checkTimestamp]
    cases hdate : S.dateMs env.sentAt with
    | none => trivial
    | some sentAtMs =>
      by_cases hskew : (s.clock - sentAtMs).natAbs > skewMs
      · simp only [hskew, if_true]
        trivial
      · simp only [hskew, if_false]
        refine ⟨hpc, ?_⟩
        intro ms hms
        obtain rfl := Option.some.inj (hdate.symm.trans hms)
        omega
  | setNonce req env key =>
    simp only [setNonce]
    cases a with
    | failed connectivity kept => trivial
    | ok =>
      simp only
      split <;> trivial
  | verifySignature req env key =>
    simp only
    split <;> trivial
  | insertHeartbeat req env =>
    simp only [insertHeartbeat]
    cases heartbeatRow S env with
    | none => trivial
    | some row =>
      cases a with
      | failed connectivity kept => trivial
      | ok =>
        simp only [afterHeartbeat]
        split <;> trivial
  | insertEvents req env =>
    simp only [insertEvents]
    split <;> trivial
  | updateLastSeen | replied => trivial

theorem claimed_advance {key : String} {hi : Int} (hclaim : Claimed s.nonces key hi)
    (h : advance S a s pc = (s', pc')) : Claimed s'.nonces key hi := by
  rcases advance_nonces h with hsame | ⟨other, hset⟩
  · rw [hsame]
    exact hclaim
  · rw [hset]
    exact hclaim.setNx (by decide) other

/-- A handler that passes the skew check now and sets the nonce at `later`, when it is not live,
comes to the insert. -/
theorem accept_run {key : PubKey} {late : Nat} {ts : List (Pc Body PubKey)} {i : Nat}
    {req : Request Body} {later : Int} (hdate : S.dateMs env.sentAt = some sentAtMs)
    (hsig : S.verifyEnvelopeSignature req.body env.signature key = true)
    (hi : ts[i]? = some (.selectAgent req env)) (hagent : s.agents env.agentId = some key)
    (hnow : (s.clock - sentAtMs).natAbs ≤ skewMs) (hlater : s.clock ≤ later)
    (hlate : later ≤ sentAtMs + skewMs + late) (hfree : ¬ Live s.nonces later (nonceKey env.nonce)) :
    Run ((route S).guard (SetWithin S body late)) ⟨s, ts⟩
      ⟨{ s with
          clock := later
          nonces := (setNx s.nonces later (nonceTtlSeconds * 1000) (nonceKey env.nonce)).1 },
        ts.set i (.insertHeartbeat req env)⟩ := by
  have hlen : i < ts.length := (List.getElem?_eq_some_iff.mp hi).1
  have hselect : Step ((route S).guard (SetWithin S body late)) ⟨s, ts⟩
      ⟨s, ts.set i (.checkTimestamp req env key)⟩ := by
    refine .act hi ⟨trivial, .ok, ?_⟩
    simp only [advance, selectAgent, hagent]
  have hcheck : Step ((route S).guard (SetWithin S body late))
      ⟨s, ts.set i (.checkTimestamp req env key)⟩ ⟨s, ts.set i (.setNonce req env key)⟩ := by
    refine .next hlen ⟨trivial, .ok, ?_⟩
    simp only [advance, checkTimestamp, hdate, not_lt.mpr hnow, if_false]
  have htick : Step ((route S).guard (SetWithin S body late))
      ⟨s, ts.set i (.setNonce req env key)⟩
      ⟨{ s with clock := later }, ts.set i (.setNonce req env key)⟩ :=
    .env (.tick hlater)
  have hset : Step ((route S).guard (SetWithin S body late))
      ⟨{ s with clock := later }, ts.set i (.setNonce req env key)⟩
      ⟨{ s with
          clock := later
          nonces := (setNx s.nonces later (nonceTtlSeconds * 1000) (nonceKey env.nonce)).1 },
        ts.set i (.verifySignature req env key)⟩ := by
    refine .next hlen ⟨?_, .ok, ?_⟩
    · intro _ ms hms
      obtain rfl := Option.some.inj (hdate.symm.trans hms)
      exact hlate
    · simp only [advance, setNonce, called, setNx_won hfree, if_true]
  have hverify : Step ((route S).guard (SetWithin S body late))
      ⟨{ s with
          clock := later
          nonces := (setNx s.nonces later (nonceTtlSeconds * 1000) (nonceKey env.nonce)).1 },
        ts.set i (.verifySignature req env key)⟩
      ⟨{ s with
          clock := later
          nonces := (setNx s.nonces later (nonceTtlSeconds * 1000) (nonceKey env.nonce)).1 },
        ts.set i (.insertHeartbeat req env)⟩ := by
    refine .next hlen ⟨trivial, .ok, ?_⟩
    simp only [advance, hsig, if_true]
  exact ((((Relation.ReflTransGen.single hselect).tail hcheck).tail htick).tail hset).tail hverify

variable [DecidableEq Body]

def Pc.reachedInsert (body : Body) : Pc Body PubKey → Bool
  | .insertHeartbeat req _ | .insertEvents req _ | .updateLastSeen req _ =>
    decide (req.body = body)
  | .replied req reply => decide (req.body = body) && reply.afterInsert
  | _ => false

/-- Handlers of `body` whose `SET NX` was answered `OK`. -/
def Pc.tookNonce (body : Body) : Pc Body PubKey → Bool
  | .verifySignature req _ _ | .insertHeartbeat req _ | .insertEvents req _
  | .updateLastSeen req _ => decide (req.body = body)
  | .replied req reply =>
    decide (req.body = body) && (reply.afterInsert || decide (reply = .badSignature))
  | _ => false

theorem Pc.tookNonce_of_reachedInsert (h : pc.reachedInsert body = true) :
    pc.tookNonce body = true := by
  cases pc <;> simp_all [Pc.reachedInsert, Pc.tookNonce]

theorem tookNonce_receive (body : Body) (req : Request Body) :
    (receive S req).tookNonce body = false := by
  unfold receive
  cases S.safeParse req.body with
  | none => simp [Pc.tookNonce, Reply.afterInsert]
  | some env =>
    cases req.peerCn with
    | none => simp [Pc.tookNonce, Reply.afterInsert]
    | some peerCn =>
      simp only
      split <;> simp [Pc.tookNonce, Reply.afterInsert]

/-- A handler takes the nonce at its `SET NX` and nowhere else. -/
theorem tookNonce_advance (h : advance S a s pc = (s', pc')) (htook : pc'.tookNonce body = true) :
    pc.tookNonce body = true ∨ ∃ req env key, pc = .setNonce req env key ∧ req.body = body ∧
      setNx s.nonces s.clock (nonceTtlSeconds * 1000) (nonceKey env.nonce) = (s'.nonces, true) := by
  obtain ⟨rfl, rfl⟩ := Prod.mk.inj h
  cases pc with
  | selectAgent req env =>
    simp only [selectAgent] at htook
    cases a with
    | failed connectivity kept => simp [Pc.tookNonce, Reply.afterInsert] at htook
    | ok =>
      cases hkey : s.agents env.agentId with
      | none => simp [hkey, Pc.tookNonce, Reply.afterInsert] at htook
      | some key => simp [hkey, Pc.tookNonce] at htook
  | checkTimestamp req env key =>
    simp only [checkTimestamp] at htook
    split at htook
    · simp [Pc.tookNonce, Reply.afterInsert] at htook
    · split at htook <;> simp [Pc.tookNonce, Reply.afterInsert] at htook
  | setNonce req env key =>
    simp only [setNonce] at htook ⊢
    cases a with
    | failed connectivity kept => simp [Pc.tookNonce, Reply.afterInsert] at htook
    | ok =>
      cases hnew : (setNx s.nonces s.clock (nonceTtlSeconds * 1000) (nonceKey env.nonce)).2 with
      | false => simp [hnew, Pc.tookNonce, Reply.afterInsert] at htook
      | true =>
        simp only [hnew, if_true, Pc.tookNonce, decide_eq_true_eq] at htook
        exact Or.inr ⟨req, env, key, rfl, htook, Prod.ext rfl hnew⟩
  | verifySignature req env key =>
    simp only at htook
    split at htook <;> simp_all [Pc.tookNonce]
  | insertHeartbeat req env =>
    simp only [insertHeartbeat] at htook
    cases hrow : heartbeatRow S env with
    | none => simp_all [Pc.tookNonce]
    | some row =>
      cases a with
      | failed connectivity kept => simp_all [Pc.tookNonce]
      | ok =>
        simp only [hrow, afterHeartbeat] at htook
        split at htook <;> simp_all [Pc.tookNonce]
  | insertEvents req env =>
    simp only [insertEvents] at htook
    split at htook <;> simp_all [Pc.tookNonce]
  | updateLastSeen req env =>
    simp only at htook
    simp_all [Pc.tookNonce]
  | replied req reply => exact Or.inl htook

/-- At most one handler of `body` took its nonce, and the nonce then stays to the end of the
window. -/
structure Guarded (S : Server Body PubKey) (body : Body) (env : OuterEnvelope) (sentAtMs : Int)
    (p : Pool (Store PubKey) (Pc Body PubKey)) : Prop where
  checked : ∀ pc ∈ p.threads, Checked S p.store.clock pc
  once : p.threads.countP (Pc.tookNonce body) ≤ 1
  claimed : 0 < p.threads.countP (Pc.tookNonce body) →
    Claimed p.store.nonces (nonceKey env.nonce) (sentAtMs + skewMs)

theorem Guarded.act (hparse : S.safeParse body = some env)
    (hdate : S.dateMs env.sentAt = some sentAtMs) {ts : List (Pc Body PubKey)} {i : Nat}
    (hp : Guarded S body env sentAtMs ⟨s, ts⟩) (hi : ts[i]? = some pc)
    (hin : SetWithin S body 0 s pc) (h : advance S a s pc = (s', pc')) :
    Guarded S body env sentAtMs ⟨s', ts.set i pc'⟩ := by
  have hpc : Checked S s.clock pc := hp.checked pc (List.mem_of_getElem? hi)
  have hcount := countP_act (Pc.tookNonce body) hi pc'
  have hchecked : ∀ qc ∈ ts.set i pc', Checked S s'.clock qc := by
    intro qc hqc
    rcases mem_act hqc with rfl | hold
    · exact checked_advance hpc h
    · rw [advance_clock h]
      exact hp.checked qc hold
  cases htook : pc'.tookNonce body with
  | false =>
    rw [htook, Bool.toNat_false] at hcount
    have hle : (ts.set i pc').countP (Pc.tookNonce body) ≤ ts.countP (Pc.tookNonce body) := by
      omega
    refine ⟨hchecked, hle.trans hp.once, ?_⟩
    intro hpos
    exact claimed_advance (hp.claimed (hpos.trans_le hle)) h
  | true =>
    rcases tookNonce_advance h htook with hold | ⟨req, env', key, rfl, hbody, hset⟩
    · rw [htook, hold] at hcount
      have heq : (ts.set i pc').countP (Pc.tookNonce body) = ts.countP (Pc.tookNonce body) := by
        omega
      refine ⟨hchecked, heq.le.trans hp.once, ?_⟩
      intro hpos
      exact claimed_advance (hp.claimed (heq ▸ hpos)) h
    · obtain ⟨hparse', hlo⟩ := hpc
      rw [hbody, hparse] at hparse'
      obtain rfl := Option.some.inj hparse'
      have hhi : s.clock ≤ sentAtMs + skewMs := by
        have := hin hbody sentAtMs hdate
        omega
      have hwon : ¬ Live s.nonces s.clock (nonceKey env.nonce) := by
        intro hlive
        rw [setNx_lost hlive] at hset
        exact Bool.false_ne_true (Prod.mk.inj hset).2
      -- a handler that took the nonce before would have it live now
      have hfirst : ts.countP (Pc.tookNonce body) = 0 := by
        by_contra hne
        exact hwon ((hp.claimed (Nat.pos_of_ne_zero hne)).live hhi)
      rw [htook, hfirst, Bool.toNat_true] at hcount
      have hone : (ts.set i pc').countP (Pc.tookNonce body) ≤ 1 := by omega
      refine ⟨hchecked, hone, ?_⟩
      intro _
      have hkeys : s'.nonces =
          (setNx s.nonces s.clock (nonceTtlSeconds * 1000) (nonceKey env.nonce)).1 := by
        rw [hset]
      rw [hkeys]
      apply claimed_of_setNx (hlo sentAtMs hdate)
      · simp only [skewMs, nonceTtlSeconds]
        omega
      · rw [hset]

theorem Guarded.step (hparse : S.safeParse body = some env)
    (hdate : S.dateMs env.sentAt = some sentAtMs) {p q : Pool (Store PubKey) (Pc Body PubKey)}
    (hp : Guarded S body env sentAtMs p) (h : Step ((route S).guard (SetWithin S body 0)) p q) :
    Guarded S body env sentAtMs q := by
  cases h with
  | @spawn s ts pc hstart =>
    obtain ⟨req, rfl⟩ := hstart
    have hcount : (ts ++ [receive S req]).countP (Pc.tookNonce body) =
        ts.countP (Pc.tookNonce body) := by
      rw [countP_spawn, tookNonce_receive, Bool.toNat_false, Nat.add_zero]
    refine ⟨?_, hcount.le.trans hp.once, ?_⟩
    · intro qc hqc
      rcases List.mem_append.mp hqc with hold | hnew
      · exact hp.checked qc hold
      · rw [List.mem_singleton.mp hnew]
        exact checked_receive _ req
    · intro hpos
      exact hp.claimed (hcount ▸ hpos)
  | act hi hact =>
    obtain ⟨hin, a, hadv⟩ := hact
    exact hp.act hparse hdate hi hin hadv
  | env henv =>
    cases henv with
    | tick hle => exact ⟨fun pc hpc => (hp.checked pc hpc).later hle, hp.once, hp.claimed⟩
    | agents | merge | expire => exact ⟨hp.checked, hp.once, hp.claimed⟩

theorem reachedInsert_le_one (hparse : S.safeParse body = some env)
    (hdate : S.dateMs env.sentAt = some sentAtMs) {q : Pool (Store PubKey) (Pc Body PubKey)}
    (hrun : Run ((route S).guard (SetWithin S body 0)) ⟨s, []⟩ q) :
    q.threads.countP (Pc.reachedInsert body) ≤ 1 := by
  have hinit : Guarded S body env sentAtMs ⟨s, []⟩ := by
    refine ⟨?_, ?_, ?_⟩
    · intro pc hpc
      exact absurd hpc List.not_mem_nil
    · exact Nat.zero_le 1
    · intro hpos
      exact absurd hpos (Nat.lt_irrefl 0)
  have hq : Guarded S body env sentAtMs q :=
    run_invariant (fun _ _ hp hstep => hp.step hparse hdate hstep) hrun hinit
  calc q.threads.countP (Pc.reachedInsert body)
      ≤ q.threads.countP (Pc.tookNonce body) :=
        List.countP_mono_left fun _ _ => Pc.tookNonce_of_reachedInsert
    _ ≤ 1 := hq.once

/-- The schedule of a replay: the envelope is sent from the far end of its window, one handler
sets the nonce at once, the other passes the skew check in the window's last millisecond and
sets the nonce in the next. -/
theorem replay_run {key : PubKey} {late : Nat} (hparse : S.safeParse body = some env)
    (hid : env.agentId ≠ "") (hdate : S.dateMs env.sentAt = some sentAtMs)
    (hsig : S.verifyEnvelopeSignature body env.signature key = true) (hlate : 0 < late) :
    ∃ s q, Run ((route S).guard (SetWithin S body late)) ⟨s, []⟩ q ∧
      q.threads.countP (Pc.reachedInsert body) = 2 := by
  let req : Request Body := ⟨body, some env.agentId⟩
  let storeAt (clock : Int) (nonces : Keys String) : Store PubKey :=
    ⟨clock, fun _ => some key, nonces, [], [], [], fun _ => none⟩
  let taken : Keys String := fun j => if j = nonceKey env.nonce then some (sentAtMs + skewMs) else none
  have hfree : ∀ now : Int, ¬ Live (fun _ => none : Keys String) now (nonceKey env.nonce) := by
    rintro now ⟨e, he, _⟩
    exact absurd he (by simp)
  have hexpired : ¬ Live taken (sentAtMs + skewMs + 1) (nonceKey env.nonce) := by
    rintro ⟨e, he, hle⟩
    have heq : sentAtMs + skewMs = e := by simpa [taken] using he
    omega
  have htaken : (setNx (fun _ => none : Keys String) (sentAtMs - skewMs) (nonceTtlSeconds * 1000)
      (nonceKey env.nonce)).1 = taken := by
    have hend : sentAtMs - skewMs + nonceTtlSeconds * 1000 = sentAtMs + skewMs := by
      simp only [skewMs, nonceTtlSeconds]
      omega
    rw [setNx_won (hfree _), hend]
  have hstart : receive S req = .selectAgent req env := by
    simp [receive, req, hparse, hid]
  have hone : Step ((route S).guard (SetWithin S body late))
      ⟨storeAt (sentAtMs - skewMs) (fun _ => none), []⟩
      ⟨storeAt (sentAtMs - skewMs) (fun _ => none), [.selectAgent req env]⟩ :=
    .spawn ⟨req, hstart.symm⟩
  have htwo : Step ((route S).guard (SetWithin S body late))
      ⟨storeAt (sentAtMs - skewMs) (fun _ => none), [.selectAgent req env]⟩
      ⟨storeAt (sentAtMs - skewMs) (fun _ => none),
        [.selectAgent req env, .selectAgent req env]⟩ :=
    .spawn ⟨req, hstart.symm⟩
  have hfirst : Run ((route S).guard (SetWithin S body late))
      ⟨storeAt (sentAtMs - skewMs) (fun _ => none), [.selectAgent req env, .selectAgent req env]⟩
      ⟨storeAt (sentAtMs - skewMs) taken, [.insertHeartbeat req env, .selectAgent req env]⟩ := by
    rw [← htaken]
    refine accept_run (i := 0) (s := storeAt (sentAtMs - skewMs) fun _ => none) hdate hsig rfl rfl
      ?_ le_rfl ?_ (hfree _)
    · simp only [storeAt, skewMs]
      omega
    · simp only [skewMs]
      omega
  have htick : Step ((route S).guard (SetWithin S body late))
      ⟨storeAt (sentAtMs - skewMs) taken, [.insertHeartbeat req env, .selectAgent req env]⟩
      ⟨storeAt (sentAtMs + skewMs) taken, [.insertHeartbeat req env, .selectAgent req env]⟩ := by
    refine .env (.tick ?_)
    simp only [storeAt, skewMs]
    omega
  have hsecond : Run ((route S).guard (SetWithin S body late))
      ⟨storeAt (sentAtMs + skewMs) taken, [.insertHeartbeat req env, .selectAgent req env]⟩
      ⟨storeAt (sentAtMs + skewMs + 1) (setNx taken (sentAtMs + skewMs + 1)
          (nonceTtlSeconds * 1000) (nonceKey env.nonce)).1,
        [.insertHeartbeat req env, .insertHeartbeat req env]⟩ := by
    refine accept_run (i := 1) hdate hsig rfl rfl ?_ ?_ ?_ hexpired
    · simp only [storeAt, skewMs]
      omega
    · simp only [storeAt]
      omega
    · omega
  refine ⟨_, _, ((Relation.ReflTransGen.single hone).tail htwo).trans
    ((hfirst.tail htick).trans hsecond), ?_⟩
  simp [Pc.reachedInsert, req]

/-- Accepted at most once in every run in which the handlers of the envelope set its nonce no
later than its window ends; with any millisecond of delay beyond that there is a run that
accepts it twice. -/
theorem accepted_once_iff_nonce_set_in_window {body : Body} {env : OuterEnvelope}
    {sentAtMs : Int} {key : PubKey} (hparse : S.safeParse body = some env)
    (hid : env.agentId ≠ "") (hdate : S.dateMs env.sentAt = some sentAtMs)
    (hsig : S.verifyEnvelopeSignature body env.signature key = true) (late : Nat) :
    (∀ s q, Run ((route S).guard (SetWithin S body late)) ⟨s, []⟩ q →
      q.threads.countP (Pc.reachedInsert body) ≤ 1) ↔ late = 0 := by
  constructor
  · intro honce
    by_contra hne
    obtain ⟨s, q, hrun, htwo⟩ := replay_run hparse hid hdate hsig (Nat.pos_of_ne_zero hne)
    have hle := honce s q hrun
    omega
  · rintro rfl s q hrun
    exact reachedInsert_le_one hparse hdate hrun

end Replay

/-- A signed envelope sent 300 seconds after the epoch, and a server that accepts it. -/
def sampleEnvelope : OuterEnvelope where
  outerEnvelopeVersion := "0.1.0"
  agentId := "0195b7a2-0000-7000-8000-000000000001"
  sequenceNumber := 0
  nonce := "AAAAAAAAAAAAAAAAAAAAAA"
  sentAt := "1970-01-01T00:05:00.000Z"
  body := {
    envelopeVersion := "0.1.0"
    agent := ⟨"0195b7a2-0000-7000-8000-000000000001", "0.1.0", "windows", "host"⟩
    sequenceNumber := 0
    sentAt := "1970-01-01T00:05:00.000Z"
    status := .online
    uptimeSeconds := 0
    events := [] }
  signature := "signed"

def sampleServer : Server OuterEnvelope Unit where
  safeParse := some
  verifyEnvelopeSignature := fun _ signature _ => signature == "signed"
  dateMs := fun text => if text = "1970-01-01T00:05:00.000Z" then some 300000 else none

theorem sample_parses : sampleServer.safeParse sampleEnvelope = some sampleEnvelope := rfl

theorem sample_dated : sampleServer.dateMs sampleEnvelope.sentAt = some 300000 := rfl

theorem sample_signed :
    sampleServer.verifyEnvelopeSignature sampleEnvelope sampleEnvelope.signature () = true := rfl

theorem sample_accepted_once_iff :
    (∀ s q, Run ((route sampleServer).guard (SetWithin sampleServer sampleEnvelope 0))
      ⟨s, []⟩ q → q.threads.countP (Pc.reachedInsert sampleEnvelope) ≤ 1) ↔ 0 = 0 :=
  accepted_once_iff_nonce_set_in_window sample_parses (by decide) sample_dated sample_signed 0

/-- First set at clock 0, replayed with the check at 600000 and the `SET` at 600001. -/
theorem sample_accepted_twice :
    ¬ ∀ s q, Run (route sampleServer) ⟨s, []⟩ q →
      q.threads.countP (Pc.reachedInsert sampleEnvelope) ≤ 1 := by
  intro honce
  obtain ⟨s, q, hrun, htwo⟩ :=
    replay_run sample_parses (by decide) sample_dated sample_signed Nat.one_pos
  have hle := honce s q hrun.of_guard
  omega

end CyberGuard.Ingest.Heartbeat
