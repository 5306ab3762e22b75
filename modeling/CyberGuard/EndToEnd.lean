import Mathlib.Data.List.Nodup
import CyberGuard.Agent.Attempts
import CyberGuard.Ingest.StoredEvents

/-!
# From the ring to the table

One agent's delivery loop against the heartbeat route. An attempt's request reaches
the route or is lost; the handler then runs on its own, whatever becomes of the
attempt. The attempt ends with the handler's reply, or with anything but a 2xx status.
Other clients use the route with certificates of their own.
-/

namespace CyberGuard.EndToEnd
set_option autoImplicit false
open CyberGuard.Wire CyberGuard.Agent CyberGuard.Ingest CyberGuard.Ingest.Heartbeat List
open Interleaving ReplacingTable

structure Joint (Body PubKey : Type) where
  agent : State
  server : Pool (Store PubKey) (Heartbeat.Pc Body PubKey)
  /-- The handler of the last attempt, if its request arrived. -/
  handler : Option Nat

section System
variable {Body PubKey : Type} (c : Config) (S : Server Body PubKey)
  (serialize : OuterEnvelope → Body)

def others : Program (Store PubKey) (Heartbeat.Pc Body PubKey) where
  start := fun _ pc => ∃ req, req.peerCn ≠ some c.agentId ∧ pc = receive S req
  act := (route S).act
  env := (route S).env

/-- The request of an attempt, over the agent's certificate. -/
def request (env : OuterEnvelope) : Request Body := ⟨serialize env, some c.agentId⟩

inductive JointStep : Joint Body PubKey → Joint Body PubKey → Prop where
  | agent {j : Joint Body PubKey} {a : State} : Agent.Step c .silent j.agent a →
      JointStep j { j with agent := a }
  | server {j : Joint Body PubKey} {p : Pool (Store PubKey) (Heartbeat.Pc Body PubKey)} :
      Interleaving.Step (others c S) j.server p → JointStep j { j with server := p }
  | arrived {j : Joint Body PubKey} {a : State} {env : OuterEnvelope} :
      Agent.Step c (.sent env) j.agent a →
      JointStep j
        { agent := a
          server := ⟨j.server.store, j.server.threads ++ [receive S (request c serialize env)]⟩
          handler := some j.server.threads.length }
  | lost {j : Joint Body PubKey} {a : State} {env : OuterEnvelope} :
      Agent.Step c (.sent env) j.agent a → JointStep j { j with agent := a, handler := none }
  | answered {j : Joint Body PubKey} {a : State} {i : Nat} {req : Request Body} {reply : Reply} :
      j.handler = some i → j.server.threads[i]? = some (.replied req reply) →
      Agent.Step c (.ended (.status reply.code)) j.agent a → JointStep j { j with agent := a }
  | broken {j : Joint Body PubKey} {a : State} {result : SendResult} :
      isDelivered result.attempt = false → Agent.Step c (.ended result) j.agent a →
      JointStep j { j with agent := a }

abbrev Runs : Joint Body PubKey → Joint Body PubKey → Prop :=
  Relation.ReflTransGen (JointStep c S serialize)

def initial (capacity : Nat) (s : Store PubKey) : Joint Body PubKey :=
  ⟨.initial capacity, ⟨s, []⟩, none⟩

def OfBatch (batch : Batch) (req : Request Body) : Prop :=
  ∀ env, S.safeParse req.body = some env → env.agentId = c.agentId ∧ env.body.events = batch.events

structure Sound (s₀ : Store PubKey) (j : Joint Body PubKey) : Prop where
  conserved : Conserved c j.agent
  progress : ∀ pc ∈ j.server.threads, Progress S j.server.store pc
  requests : ∀ pc ∈ j.server.threads, pc.request.peerCn = some c.agentId →
    ∃ batch ∈ j.agent.ledger.formed, OfBatch c S batch pc.request
  rows : ∀ stored ∈ j.server.store.kept, stored.row.agentId = c.agentId →
    stored ∈ s₀.cgesEvents ∨ ∃ batch ∈ j.agent.ledger.formed, ∃ e ∈ batch.events,
      cgesEventRow c.agentId e = some stored.row
  expired : ∀ stored ∈ j.server.store.expired,
    stored.arrivedAt / 1000 * 1000 + retentionMinMs ≤ j.server.store.clock
  delivered : ∀ batch ∈ j.agent.ledger.delivered, ∀ e ∈ batch.events,
    Stored j.server.store e.eventId
  listed : j.agent.ledger.delivered ⊆ j.agent.ledger.formed
  attached : ∀ i, j.handler = some i → i < j.server.threads.length
  link : j.agent.underWay = true → ∀ i pc, j.handler = some i → j.server.threads[i]? = some pc →
    ∃ batch, j.agent.onTheWay = some batch ∧ OfBatch c S batch pc.request

end System

theorem reply_of_isDelivered {reply : Reply}
    (h : isDelivered (SendResult.status reply.code).attempt = true) : reply = .ok := by
  cases reply <;> first | rfl | simp [Reply.code, SendResult.attempt, isDelivered] at h

namespace Sound
variable {Body PubKey : Type} {c : Config} {S : Server Body PubKey}
  {serialize : OuterEnvelope → Body} {j : Joint Body PubKey}

variable {s s₀ : Store PubKey} {a b : State} {ts : List (Heartbeat.Pc Body PubKey)}
  {handler : Option Nat}

theorem initial {capacity : Nat} (hcapacity : 0 < capacity) (hexpired : s₀.expired = []) :
    Sound c S s₀ (EndToEnd.initial capacity s₀ : Joint Body PubKey) where
  conserved := Conserved.initial hcapacity
  progress := fun pc hpc => absurd hpc not_mem_nil
  requests := fun pc hpc => absurd hpc not_mem_nil
  rows := by
    intro stored hstored _
    change stored ∈ s₀.cgesEvents ++ s₀.expired at hstored
    rw [hexpired, append_nil] at hstored
    exact Or.inl hstored
  expired := by
    intro stored hstored
    change stored ∈ s₀.expired at hstored
    rw [hexpired] at hstored
    cases hstored
  delivered := fun batch hbatch => absurd hbatch not_mem_nil
  listed := nil_subset _
  attached := fun i hi => absurd hi (by simp [EndToEnd.initial])
  link := fun hway => absurd hway (by simp [EndToEnd.initial, State.initial, State.underWay])

/-- The agent goes on, with or without a new POST. -/
theorem agent (h : Sound c S s₀ j) (hstep : Agent.Step c .silent j.agent a) :
    Sound c S s₀ { j with agent := a } := by
  obtain ⟨hdelivered, hformed, hway⟩ := quiet_of_silent hstep
  refine ⟨h.conserved.step hstep, h.progress, ?_, ?_, h.expired, ?_, ?_, h.attached, ?_⟩
  · intro pc hpc hpeer
    obtain ⟨batch, hbatch, hof⟩ := h.requests pc hpc hpeer
    exact ⟨batch, hformed.subset hbatch, hof⟩
  · intro stored hstored hagent
    refine (h.rows stored hstored hagent).imp_right ?_
    rintro ⟨batch, hbatch, hrow⟩
    exact ⟨batch, hformed.subset hbatch, hrow⟩
  · intro batch hbatch
    exact h.delivered batch (by rw [← hdelivered]; exact hbatch)
  · rw [hdelivered]
    exact List.Subset.trans h.listed hformed.subset
  · intro hunder i pc hi hpc
    obtain ⟨hbefore, hsame⟩ := hway hunder
    rw [hsame]
    exact h.link hbefore i pc hi hpc

/-- A command of a handler: it adds rows of its own envelope, and every event stored stays. -/
theorem act {i : Nat} {pc : Heartbeat.Pc Body PubKey} (h : Sound c S s₀ ⟨b, ⟨s, ts⟩, handler⟩)
    (hi : ts[i]? = some pc) (a : Answer) :
    Sound c S s₀ ⟨b, ⟨(advance S a s pc).1, ts.set i (advance S a s pc).2⟩, handler⟩ := by
  have hmem : pc ∈ ts := mem_of_getElem? hi
  have hkeep : ∀ eventId, Stored s eventId → Stored (advance S a s pc).1 eventId :=
    fun eventId hstored => hstored.advance a pc
  have hreq := request_advance (S := S) a s pc
  obtain ⟨hexpired, rows, hrows, hmade⟩ := advance_rows (S := S) a s pc
  refine ⟨h.conserved, ?_, ?_, ?_, ?_, ?_, h.listed, ?_, ?_⟩
  · intro qc hqc
    rcases mem_act hqc with rfl | hold
    · exact (h.progress pc hmem).advance a
    · exact (h.progress qc hold).mono hkeep
  · intro qc hqc hpeer
    rcases mem_act hqc with rfl | hold
    · rw [hreq] at hpeer ⊢
      exact h.requests pc hmem hpeer
    · exact h.requests qc hold hpeer
  · intro stored hstored hagent
    have hcases : stored ∈ s.kept ∨ stored ∈ rows.map (fun row => ⟨row, s.clock⟩) := by
      change stored ∈ (advance S a s pc).1.kept at hstored
      rw [Store.kept, hrows, hexpired] at hstored
      simp only [Store.kept, mem_append] at hstored ⊢
      tauto
    rcases hcases with hold | hnew
    · exact h.rows stored hold hagent
    · refine Or.inr ?_
      obtain ⟨row, hrow, rfl⟩ := mem_map.mp hnew
      obtain ⟨req, env, rfl, e, he, himage⟩ := hmade row hrow
      obtain ⟨hparsed, hpeer⟩ := h.progress _ hmem
      obtain ⟨hown, _⟩ := cgesEventRow_spec himage
      have hid : env.agentId = c.agentId := hown.symm.trans hagent
      obtain ⟨batch, hbatch, hof⟩ := h.requests _ hmem (hpeer.trans (by rw [hid]))
      refine ⟨batch, hbatch, e, ?_, ?_⟩
      · rw [← (hof env hparsed).2]
        exact he
      · rw [← hid]
        exact himage
  · intro stored hstored
    change stored ∈ (advance S a s pc).1.expired at hstored
    rw [hexpired] at hstored
    have hclock : (advance S a s pc).1.clock = s.clock := advance_clock (S := S) rfl
    exact (h.expired stored hstored).trans hclock.ge
  · intro batch hbatch e he
    exact hkeep _ (h.delivered batch hbatch e he)
  · intro k hk
    rw [length_set]
    exact h.attached k hk
  · intro hunder k qc hk hqc
    rcases getElem?_act hqc with ⟨rfl, rfl⟩ | ⟨_, hold⟩
    · rw [hreq]
      exact h.link hunder k pc hk hi
    · exact h.link hunder k qc hk hold

/-- A new handler, of another client or of the agent. -/
theorem spawn {req : Request Body} (h : Sound c S s₀ ⟨b, ⟨s, ts⟩, handler⟩)
    (hours : req.peerCn = some c.agentId → ∃ batch ∈ b.ledger.formed, OfBatch c S batch req)
    {handler' : Option Nat}
    (hlink : ∀ i, handler' = some i → handler = some i ∨
      (i = ts.length ∧ ∃ batch, b.onTheWay = some batch ∧ OfBatch c S batch req)) :
    Sound c S s₀ ⟨b, ⟨s, ts ++ [receive S req]⟩, handler'⟩ := by
  have hreq : (receive S req : Heartbeat.Pc Body PubKey).request = req := request_receive req
  refine ⟨h.conserved, ?_, ?_, h.rows, h.expired, h.delivered, h.listed, ?_, ?_⟩
  · intro pc hpc
    rcases mem_append.mp hpc with hold | hnew
    · exact h.progress pc hold
    · rw [mem_singleton.mp hnew]
      exact progress_receive s req
  · intro pc hpc hpeer
    rcases mem_append.mp hpc with hold | hnew
    · exact h.requests pc hold hpeer
    · rw [mem_singleton.mp hnew, hreq] at hpeer ⊢
      exact hours hpeer
  · intro i hi
    rw [length_append, length_singleton]
    rcases hlink i hi with hold | ⟨rfl, _⟩
    · exact Nat.lt_succ_of_lt (h.attached i hold)
    · exact Nat.lt_succ_self _
  · intro hunder i pc hi hpc
    rcases hlink i hi with hold | ⟨rfl, hbatch⟩
    · rw [List.getElem?_append_left (h.attached i hold)] at hpc
      exact h.link hunder i pc hold hpc
    · rcases getElem?_spawn hpc with hold | ⟨_, rfl⟩
      · exact absurd hold (by simp)
      · rw [hreq]
        exact hbatch

theorem environment {s' : Store PubKey} (h : Sound c S s₀ ⟨b, ⟨s, ts⟩, handler⟩)
    (henv : Environment s s') : Sound c S s₀ ⟨b, ⟨s', ts⟩, handler⟩ := by
  have hkeep : ∀ eventId, Stored s eventId → Stored s' eventId :=
    fun eventId hstored => hstored.environment henv
  refine ⟨h.conserved, fun pc hpc => (h.progress pc hpc).mono hkeep, h.requests, ?_, ?_, ?_,
    h.listed, h.attached, h.link⟩
  · intro stored hstored
    apply h.rows stored
    cases henv with
    | tick | agents => exact hstored
    | merge hmerged =>
      rcases mem_append.mp hstored with hevent | hold
      · exact mem_append_left _ (hmerged.mem_of_mem hevent)
      · exact mem_append_right _ hold
    | expire hrows _ =>
      change stored ∈ s.kept
      rw [Store.kept, hrows]
      simp only [Store.kept, mem_append, mem_cons] at hstored ⊢
      tauto
  · intro stored hstored
    cases henv with
    | tick hle => exact (h.expired stored hstored).trans hle
    | agents | merge => exact h.expired stored hstored
    | expire _ hover =>
      rcases mem_cons.mp hstored with rfl | hold
      · exact hover
      · exact h.expired stored hold
  · intro batch hbatch e he
    exact hkeep _ (h.delivered batch hbatch e he)

theorem sent {env : OuterEnvelope} (h : Sound c S s₀ j) (hstep : Agent.Step c (.sent env) j.agent a) :
    Sound c S s₀ { j with agent := a, handler := none } := by
  obtain ⟨batch, _, _, _, _, hdelivered, hformed⟩ := sent_spec hstep
  refine ⟨h.conserved.step hstep, h.progress, ?_, ?_, h.expired, ?_, ?_, ?_, ?_⟩
  · rw [hformed]
    exact h.requests
  · rw [hformed]
    exact h.rows
  · rw [hdelivered]
    exact h.delivered
  · rw [hdelivered, hformed]
    exact h.listed
  · exact fun i hnone => absurd hnone (by simp)
  · exact fun _ i pc hnone => absurd hnone (by simp)

/-- The attempt has ended; if it ended in a delivery, the handler had stored its events. -/
theorem ended {result : SendResult} (h : Sound c S s₀ j)
    (hstep : Agent.Step c (.ended result) j.agent a)
    (hstored : isDelivered result.attempt = true → j.agent.underWay = true →
      ∀ batch, j.agent.onTheWay = some batch →
      ∀ e ∈ batch.events, Stored j.server.store e.eventId) :
    Sound c S s₀ { j with agent := a } := by
  obtain ⟨hunder, hover, hformed, hdelivered⟩ := ended_spec hstep
  refine ⟨h.conserved.step hstep, h.progress, ?_, ?_, h.expired, ?_, ?_, h.attached, ?_⟩
  · rw [hformed]
    exact h.requests
  · rw [hformed]
    exact h.rows
  · rcases hdelivered with hsame | ⟨batch, hway, his, hnew⟩
    · rw [hsame]
      exact h.delivered
    · rw [hnew]
      intro batch' hbatch'
      rcases mem_append.mp hbatch' with hold | hlast
      · exact h.delivered batch' hold
      · rw [mem_singleton.mp hlast]
        exact hstored his hunder batch hway
  · rcases hdelivered with hsame | ⟨batch, hway, _, hnew⟩
    · rw [hsame, hformed]
      exact h.listed
    · have hlast := h.conserved.current batch hway
      rw [hnew, hformed]
      exact append_subset.mpr ⟨h.listed,
        cons_subset.mpr ⟨mem_of_getLast? hlast, nil_subset _⟩⟩
  · exact fun hway => absurd (hover.symm.trans hway) (by simp)

theorem step {k : Joint Body PubKey} (hparse : ∀ o env, S.safeParse (serialize o) = some env →
      env.agentId = o.agentId ∧ env.body.events = o.body.events)
    (h : Sound c S s₀ j) (hstep : JointStep c S serialize j k) : Sound c S s₀ k := by
  obtain ⟨a, ⟨s, ts⟩, handler⟩ := j
  cases hstep with
  | agent hstep => exact h.agent hstep
  | server hstep =>
    cases hstep with
    | spawn hstart =>
      obtain ⟨req, hother, rfl⟩ := hstart
      exact h.spawn (fun hpeer => absurd hpeer hother) fun i hi => Or.inl hi
    | act hi hact =>
      obtain ⟨answer, hadvance⟩ := hact
      have hnext := h.act hi answer
      rw [hadvance] at hnext
      exact hnext
    | env henv => exact h.environment henv
  | @arrived a' outer hsent =>
    obtain ⟨batch, hway, hagent, hevents, hbefore, _, hformed⟩ := sent_spec hsent
    have hof : OfBatch c S batch (request c serialize outer) := by
      intro env henv
      obtain ⟨hid, hsame⟩ := hparse outer env henv
      exact ⟨hid.trans hagent, hsame.trans hevents⟩
    have hlast := h.conserved.current batch hbefore
    apply (h.sent hsent).spawn
    · intro _
      refine ⟨batch, ?_, hof⟩
      rw [hformed]
      exact mem_of_getLast? hlast
    · intro i hi
      exact Or.inr ⟨(Option.some.inj hi).symm, batch, hway, hof⟩
  | lost hsent => exact h.sent hsent
  | answered hhandler hreplied hended =>
    apply h.ended hended
    intro hdelivered hunder batch hway e he
    obtain rfl := reply_of_isDelivered hdelivered
    obtain ⟨env, henv, hstored⟩ := h.progress _ (mem_of_getElem? hreplied) rfl
    obtain ⟨batch', hway', hof⟩ := h.link hunder _ _ hhandler hreplied
    obtain rfl : batch = batch' := Option.some.inj (hway.symm.trans hway')
    apply hstored e
    rw [(hof env henv).2]
    exact he
  | broken hnot hended =>
    apply h.ended hended
    intro hdelivered
    exact absurd (hnot.symm.trans hdelivered) (by simp)

end Sound

section Delivered
variable {Body PubKey : Type} {c : Config} {S : Server Body PubKey}
  {serialize : OuterEnvelope → Body} {j k : Joint Body PubKey} {s₀ : Store PubKey}

theorem formed_step (h : JointStep c S serialize j k) :
    j.agent.ledger.formed ⊆ k.agent.ledger.formed := by
  cases h with
  | agent hstep => exact (quiet_of_silent hstep).formed.subset
  | server _ => exact List.Subset.refl _
  | arrived hsent =>
    obtain ⟨_, _, _, _, _, _, hformed⟩ := sent_spec hsent
    exact hformed ▸ List.Subset.refl _
  | lost hsent =>
    obtain ⟨_, _, _, _, _, _, hformed⟩ := sent_spec hsent
    exact hformed ▸ List.Subset.refl _
  | answered _ _ hended => exact (ended_spec hended).2.2.1 ▸ List.Subset.refl _
  | broken _ hended => exact (ended_spec hended).2.2.1 ▸ List.Subset.refl _

theorem formed_run (h : Runs c S serialize j k) :
    j.agent.ledger.formed ⊆ k.agent.ledger.formed := by
  induction h with
  | refl => exact List.Subset.refl _
  | tail _ hstep ih => exact List.Subset.trans ih (formed_step hstep)

theorem exists_accepted {a : State} (h : Conserved c a) {b : Batch} (hb : b ∈ a.ledger.formed)
    {e : CgesEvent} (he : e ∈ b.events) : ∃ event ∈ a.ledger.accepted, c.render event = e := by
  obtain ⟨taken, haccount, hrendered⟩ := h.account
  have hmem : e ∈ taken.map c.render := by
    rw [← hrendered]
    exact mem_flatMap_of_mem hb he
  obtain ⟨event, hevent, himage⟩ := mem_map.mp hmem
  exact ⟨event, haccount.sublist.subset (mem_append_left _ hevent), himage⟩

theorem event_unique {a : State} (h : Conserved c a)
    (hids : (a.ledger.accepted.map RingEvent.eventId).Nodup) {b b' : Batch}
    (hb : b ∈ a.ledger.formed) (hb' : b' ∈ a.ledger.formed) {e e' : CgesEvent} (he : e ∈ b.events)
    (he' : e' ∈ b'.events) (hsame : e.eventId = e'.eventId) : e = e' := by
  obtain ⟨event, hevent, rfl⟩ := exists_accepted h hb he
  obtain ⟨event', hevent', rfl⟩ := exists_accepted h hb' he'
  simp only [Config.render, eventId_render] at hsame
  rw [inj_on_of_nodup_map hids hevent hevent' hsame]

theorem sound_run (hparse : ∀ o env, S.safeParse (serialize o) = some env →
      env.agentId = o.agentId ∧ env.body.events = o.body.events)
    (hj : Sound c S s₀ j) (h : Runs c S serialize j k) : Sound c S s₀ k := by
  induction h with
  | refl => exact hj
  | tail _ hstep ih => exact ih.step hparse hstep

theorem formed_fresh (hk : Sound c S s₀ k)
    (hfresh : ∀ stored ∈ s₀.cgesEvents, ∀ event ∈ k.agent.ledger.accepted,
      stored.row.eventId ≠ event.eventId) {stored : StoredRow} (hstored : stored ∈ s₀.cgesEvents)
    {b : Batch} (hb : b ∈ k.agent.ledger.formed) {e : CgesEvent} (he : e ∈ b.events) :
    stored.row.eventId ≠ e.eventId := by
  obtain ⟨event, hevent, rfl⟩ := exists_accepted hk.conserved hb he
  rw [Config.render, eventId_render]
  exact hfresh stored hstored event hevent

theorem rows_agree (hj : Sound c S s₀ j) (hk : Sound c S s₀ k)
    (hformed : j.agent.ledger.formed ⊆ k.agent.ledger.formed)
    (hids : (k.agent.ledger.accepted.map RingEvent.eventId).Nodup)
    (hfresh : ∀ stored ∈ s₀.cgesEvents, ∀ event ∈ k.agent.ledger.accepted,
      stored.row.eventId ≠ event.eventId) {stored stored' : StoredRow}
    (hstored : stored ∈ j.server.store.kept) (hstored' : stored' ∈ k.server.store.kept)
    (hown : stored.row.agentId = c.agentId) (hown' : stored'.row.agentId = c.agentId)
    (hsame : stored.row.eventId = stored'.row.eventId) :
    stored.row.sortingKey = stored'.row.sortingKey ∨
      stored ∈ s₀.cgesEvents ∧ stored' ∈ s₀.cgesEvents := by
  rcases hj.rows stored hstored hown with hearly | ⟨b, hb, e, he, hrow⟩
  · rcases hk.rows stored' hstored' hown' with hearly' | ⟨b', hb', e', he', hrow'⟩
    · exact Or.inr ⟨hearly, hearly'⟩
    · exact absurd (hsame.trans (cgesEventRow_spec hrow').2.1)
        (formed_fresh hk hfresh hearly hb' he')
  · rcases hk.rows stored' hstored' hown' with hearly' | ⟨b', hb', e', he', hrow'⟩
    · exact absurd (hsame.symm.trans (cgesEventRow_spec hrow).2.1)
        (formed_fresh hk hfresh hearly' (hformed hb) he)
    · have heq : e = e' := by
        apply event_unique hk.conserved hids (hformed hb) hb' he he'
        rw [← (cgesEventRow_spec hrow).2.1, ← (cgesEventRow_spec hrow').2.1]
        exact hsame
      subst heq
      exact Or.inl (sortingKey_eq_of_row hrow hrow')

/-- What the agent counts as delivered is in the table, or was to the end of its retention, and all
rows an event of the agent ever had have one sorting key, so that a final read shows it once. The
ids of the events captured are distinct, no other client's and on no row of before the run; a parsed
body is what was serialised. -/
theorem delivered_events_stored {capacity : Nat}
    (hparse : ∀ o env, S.safeParse (serialize o) = some env →
      env.agentId = o.agentId ∧ env.body.events = o.body.events)
    (hcapacity : 0 < capacity) (hexpired : s₀.expired = [])
    (hj : Runs c S serialize (initial capacity s₀) j) (hk : Runs c S serialize j k)
    (hids : (k.agent.ledger.accepted.map RingEvent.eventId).Nodup)
    (hfresh : ∀ stored ∈ s₀.cgesEvents, ∀ event ∈ k.agent.ledger.accepted,
      stored.row.eventId ≠ event.eventId)
    (hothers : ∀ stored ∈ k.server.store.cgesEvents, stored.row.agentId ≠ c.agentId →
      ∀ event ∈ k.agent.ledger.accepted, stored.row.eventId ≠ event.eventId) :
    (∀ batch ∈ k.agent.ledger.delivered, ∀ e ∈ batch.events,
      (∃ stored ∈ k.server.store.cgesEvents, stored.row.eventId = e.eventId) ∨
      ∃ stored ∈ k.server.store.expired, stored.row.eventId = e.eventId ∧
        stored.arrivedAt / 1000 * 1000 + retentionMinMs ≤ k.server.store.clock) ∧
    (∀ stored ∈ j.server.store.kept, ∀ stored' ∈ k.server.store.kept,
      stored.row.agentId = c.agentId → stored'.row.agentId = c.agentId →
      stored.row.eventId = stored'.row.eventId →
        stored.row.sortingKey = stored'.row.sortingKey ∨
          stored ∈ s₀.cgesEvents ∧ stored' ∈ s₀.cgesEvents) ∧
    ∀ batch ∈ k.agent.ledger.delivered, ∀ e ∈ batch.events,
      (∃ stored ∈ k.server.store.cgesEvents, stored.row.eventId = e.eventId) →
      (final StoredRow.key StoredRow.arrivedAt k.server.store.cgesEvents).countP
        (fun stored => decide (stored.row.eventId = e.eventId)) = 1 := by
  have hsj : Sound c S s₀ j := sound_run hparse (Sound.initial hcapacity hexpired) hj
  have hsk : Sound c S s₀ k := sound_run hparse hsj hk
  refine ⟨?_, ?_, ?_⟩
  · intro batch hbatch e he
    obtain ⟨stored, hstored, hid⟩ := hsk.delivered batch hbatch e he
    rcases mem_append.mp hstored with hevent | hold
    · exact Or.inl ⟨stored, hevent, hid⟩
    · exact Or.inr ⟨stored, hold, hid, hsk.expired stored hold⟩
  · intro stored hstored stored' hstored' hown hown' hsame
    exact rows_agree hsj hsk (formed_run hk) hids hfresh hstored hstored' hown hown' hsame
  · rintro batch hbatch e he ⟨shown, hshown, hid⟩
    -- every row with the id of the event is the agent's own
    have hown : ∀ stored ∈ k.server.store.cgesEvents, stored.row.eventId = e.eventId →
        stored.row.agentId = c.agentId := by
      intro stored hstored hsame
      by_contra hother
      obtain ⟨event, hevent, rfl⟩ := exists_accepted hsk.conserved (hsk.listed hbatch) he
      rw [Config.render, eventId_render] at hsame
      exact hothers stored hstored hother event hevent hsame
    have hkey : ∀ stored ∈ k.server.store.cgesEvents,
        (stored.row.eventId = e.eventId ↔ stored.key = shown.key) := by
      intro stored hstored
      constructor
      · intro hsame
        have hagree := rows_agree hsk hsk (List.Subset.refl _) hids hfresh
          (mem_append_left _ hstored) (mem_append_left _ hshown)
          (hown stored hstored hsame) (hown shown hshown hid) (hsame.trans hid.symm)
        exact hagree.resolve_right fun hearly =>
          formed_fresh hsk hfresh hearly.2 (hsk.listed hbatch) he hid
      · intro hsame
        have hthird : stored.row.eventId = shown.row.eventId := congrArg (fun key => key.2.2) hsame
        exact hthird.trans hid
    have hcount := countP_final StoredRow.key StoredRow.arrivedAt k.server.store.cgesEvents shown.key
    rw [if_pos (mem_map_of_mem hshown)] at hcount
    rw [← hcount]
    apply countP_congr
    intro stored hstored
    simp only [decide_eq_true_eq]
    exact hkey stored (mem_of_mem_final _ _ hstored)

end Delivered

/-- A server that takes the envelope itself for its bytes. -/
def sampleServer : Server OuterEnvelope Unit where
  safeParse := some
  verifyEnvelopeSignature := fun _ _ _ => true
  dateMs := fun _ => some 0

/-- A row of the agent from before it was restarted. -/
def earlierRow : StoredRow where
  row := networkRow sampleConfig.agentId
    ⟨"01970f6e-7c00-7000-8000-000000000001", "1000", ⟨"10.0.0.1", 50000⟩, ⟨"10.0.0.2", 443⟩, "tcp",
      .outbound, 4, none⟩ "1970-01-01 00:00:00.000001000"
  arrivedAt := 0

def sampleStore : Store Unit where
  clock := 0
  agents := fun _ => some ()
  nonces := fun _ => none
  heartbeats := []
  cgesEvents := [earlierRow]
  expired := []
  lastSeen := fun _ => none

theorem sample_parse (o env : OuterEnvelope) (h : sampleServer.safeParse (id o) = some env) :
    env.agentId = o.agentId ∧ env.body.events = o.body.events := by
  obtain rfl : o = env := Option.some.inj h
  exact ⟨rfl, rfl⟩

theorem handler_answers {a : State} {s s' : Store Unit}
    {pc pc' : Heartbeat.Pc OuterEnvelope Unit} {handler : Option Nat}
    (h : advance sampleServer .ok s pc = (s', pc')) :
    JointStep sampleConfig sampleServer id ⟨a, ⟨s, [pc]⟩, handler⟩ ⟨a, ⟨s', [pc']⟩, handler⟩ :=
  .server (.act (i := 0) rfl ⟨.ok, h⟩)

/-- One event is captured, sent, stored and counted as delivered. -/
theorem sample_event_stored : ∃ k : Joint OuterEnvelope Unit,
    Runs sampleConfig sampleServer id (initial 2 sampleStore) k ∧
      eventCount k.agent.ledger.delivered = 1 ∧
      ∀ batch ∈ k.agent.ledger.delivered, ∀ e ∈ batch.events,
        (final StoredRow.key StoredRow.arrivedAt k.server.store.cgesEvents).countP
          (fun stored => decide (stored.row.eventId = e.eventId)) = 1 := by
  have henqueue := (Relation.ReflTransGen.refl (r := JointStep sampleConfig sampleServer id)
    (a := initial 2 sampleStore)).tail (.agent (.enqueue sampleConnection))
  have htop := henqueue.tail (.agent (.top rfl))
  have hlen := htop.tail (.agent (.readLen rfl))
  have hold := hlen.tail (.agent (.readOldest rfl))
  have hform := hold.tail (.agent (.form rfl))
  have harrived := hform.tail (.arrived (.send "1970-01-01T00:00:00.000Z" "nonce" rfl rfl))
  have hagent := harrived.tail (handler_answers rfl)
  have htime := hagent.tail (handler_answers rfl)
  have hnonce := htime.tail (handler_answers rfl)
  have hverify := hnonce.tail (handler_answers rfl)
  have hheartbeat := hverify.tail (handler_answers rfl)
  have hevents := hheartbeat.tail (handler_answers rfl)
  have hseen := hevents.tail (handler_answers rfl)
  have hended := hseen.tail (.answered (i := 0) rfl rfl (.ended (.status 200) rfl rfl))
  have hall := delivered_events_stored sample_parse (by decide) rfl .refl hended
    (nodup_singleton _) (by decide +kernel)
    fun stored (hstored : stored ∈ [earlierRow, ⟨networkRow sampleConfig.agentId _ _, 0⟩])
      hother => by
      rcases mem_pair.mp hstored with rfl | rfl <;> exact absurd rfl hother
  refine ⟨_, hended, rfl, fun batch hbatch e he => hall.2.2 batch hbatch e he ?_⟩
  rcases hall.1 batch hbatch e he with hshown | ⟨stored, hstored, _⟩
  · exact hshown
  · exact absurd hstored not_mem_nil

end CyberGuard.EndToEnd
