import CyberGuard.Ingest.HeartbeatRoute

/-!
# What a handler has stored

A handler answers 200 only after its insert of the events was answered, and a merge
drops a row only for another of its event or after its retention. So from that insert on,
every event of the envelope has a row, or had one to the end of its retention; and every
row with an agent's id was made from an event of an envelope that came over that agent's
certificate.
-/

namespace CyberGuard.Ingest.Heartbeat
set_option autoImplicit false
open CyberGuard.Wire Interleaving ReplacingTable List

section Mapping
variable {α β : Type} {f : α → Option β}

theorem exists_image_of_mapM {l : List α} {images : List β} (h : l.mapM f = some images) {a : α}
    (ha : a ∈ l) : ∃ b ∈ images, f a = some b := by
  induction l generalizing images with
  | nil => exact absurd ha not_mem_nil
  | cons first rest ih =>
    rw [mapM_cons] at h
    obtain ⟨b, hb, hrest⟩ := Option.bind_eq_some_iff.mp h
    obtain ⟨bs, hbs, hcons⟩ := Option.bind_eq_some_iff.mp hrest
    obtain rfl := Option.some.inj hcons
    rcases mem_cons.mp ha with rfl | hrest
    · exact ⟨b, mem_cons_self, hb⟩
    · obtain ⟨b', hb', himage⟩ := ih hbs hrest
      exact ⟨b', mem_cons_of_mem b hb', himage⟩

theorem exists_preimage_of_mapM {l : List α} {images : List β} (h : l.mapM f = some images) {b : β}
    (hb : b ∈ images) : ∃ a ∈ l, f a = some b := by
  induction l generalizing images with
  | nil =>
    obtain rfl := Option.some.inj h
    exact absurd hb not_mem_nil
  | cons first rest ih =>
    rw [mapM_cons] at h
    obtain ⟨b₀, hb₀, hrest⟩ := Option.bind_eq_some_iff.mp h
    obtain ⟨bs, hbs, hcons⟩ := Option.bind_eq_some_iff.mp hrest
    obtain rfl := Option.some.inj hcons
    rcases mem_cons.mp hb with rfl | hmem
    · exact ⟨first, mem_cons_self, hb₀⟩
    · obtain ⟨a, ha, himage⟩ := ih hbs hmem
      exact ⟨a, mem_cons_of_mem first ha, himage⟩

end Mapping

variable {Body PubKey : Type} {S : Server Body PubKey}

def Pc.request : Pc Body PubKey → Request Body
  | .selectAgent req _ | .checkTimestamp req _ _ | .setNonce req _ _ | .verifySignature req _ _
  | .insertHeartbeat req _ | .insertEvents req _ | .updateLastSeen req _ | .replied req _ => req

/-- The rows that are in the table or were deleted after their retention. -/
def Store.kept (s : Store PubKey) : List StoredRow := s.cgesEvents ++ s.expired

def Stored (s : Store PubKey) (eventId : String) : Prop :=
  ∃ stored ∈ s.kept, stored.row.eventId = eventId

def AllStored (s : Store PubKey) (env : OuterEnvelope) : Prop :=
  ∀ e ∈ env.body.events, Stored s e.eventId

variable (S)

def Parsed (req : Request Body) (env : OuterEnvelope) : Prop :=
  S.safeParse req.body = some env ∧ req.peerCn = some env.agentId

/-- What a handler has done when it comes to a program counter. -/
def Progress (s : Store PubKey) : Pc Body PubKey → Prop
  | .updateLastSeen req env => Parsed S req env ∧ AllStored s env
  | .replied req reply => reply = .ok →
    ∃ env, S.safeParse req.body = some env ∧ AllStored s env
  | .selectAgent req env | .checkTimestamp req env _ | .setNonce req env _
  | .verifySignature req env _ | .insertHeartbeat req env | .insertEvents req env =>
    Parsed S req env

variable {S}

theorem request_receive (req : Request Body) :
    (receive S req : Pc Body PubKey).request = req := by
  unfold receive
  repeat' split
  all_goals rfl

theorem progress_receive (s : Store PubKey) (req : Request Body) :
    Progress S s (receive S req) := by
  unfold receive
  split
  · exact fun hok => absurd hok (by simp)
  · rename_i env henv
    split
    · exact fun hok => absurd hok (by simp)
    · rename_i peerCn hpeer
      split
      · exact fun hok => absurd hok (by simp)
      · rename_i hsame
        have hcn : peerCn = env.agentId := by
          by_contra hne
          exact hsame (Or.inr hne)
        exact ⟨henv, by rw [hpeer, hcn]⟩

/-- Rows are only added: none, or those of the events of the handler's envelope. -/
theorem advance_rows (a : Answer) (s : Store PubKey) (pc : Pc Body PubKey) :
    (advance S a s pc).1.expired = s.expired ∧ ∃ rows : List CgesEventRow,
      (advance S a s pc).1.cgesEvents = s.cgesEvents ++ rows.map (fun row => ⟨row, s.clock⟩) ∧
      ∀ row ∈ rows, ∃ req env, pc = .insertEvents req env ∧
        ∃ e ∈ env.body.events, cgesEventRow env.agentId e = some row := by
  have hnone : ∀ {s' : Store PubKey}, (s'.expired, s'.cgesEvents) = (s.expired, s.cgesEvents) →
      s'.expired = s.expired ∧ ∃ rows : List CgesEventRow,
      s'.cgesEvents = s.cgesEvents ++ rows.map (fun row => ⟨row, s.clock⟩) ∧
      ∀ row ∈ rows, ∃ req env, pc = .insertEvents req env ∧
        ∃ e ∈ env.body.events, cgesEventRow env.agentId e = some row := by
    intro s' hsame
    obtain ⟨hexpired, hevents⟩ := Prod.mk.inj hsame
    refine ⟨hexpired, [], ?_, fun row hrow => absurd hrow not_mem_nil⟩
    rw [hevents, map_nil, append_nil]
  have hcalled {done : Store PubKey} (h : (done.expired, done.cgesEvents) =
      (s.expired, s.cgesEvents)) := hnone (called_keeps (fun s => (s.expired, s.cgesEvents)) a h)
  cases pc with
  | setNonce | updateLastSeen => exact hcalled rfl
  | insertHeartbeat req env =>
    simp only [advance, insertHeartbeat]
    split
    · exact hnone rfl
    · exact hcalled rfl
  | insertEvents req env =>
    simp only [advance, insertEvents]
    split
    · exact hnone rfl
    · rename_i rows hrows
      refine ⟨rfl, rows, rfl, fun row hrow => ⟨req, env, rfl, exists_preimage_of_mapM hrows hrow⟩⟩
    · rename_i rows connectivity kept hrows
      refine ⟨rfl, keptRows kept rows, rfl, fun row hrow => ?_⟩
      obtain ⟨entry, hentry, rfl⟩ := mem_map.mp hrow
      have hmem : entry.1 ∈ rows := fst_mem_of_mem_zipIdx (mem_filter.mp hentry).1
      exact ⟨req, env, rfl, exists_preimage_of_mapM hrows hmem⟩
  | _ => exact hnone rfl

theorem Stored.advance {s : Store PubKey} {eventId : String} (h : Stored s eventId) (a : Answer)
    (pc : Pc Body PubKey) : Stored (Heartbeat.advance S a s pc).1 eventId := by
  obtain ⟨stored, hstored, hid⟩ := h
  obtain ⟨hexpired, rows, hrows, _⟩ := advance_rows (S := S) a s pc
  refine ⟨stored, ?_, hid⟩
  rw [Store.kept, hexpired, hrows]
  rcases mem_append.mp hstored with hevent | hold
  · exact mem_append_left _ (mem_append_left _ hevent)
  · exact mem_append_right _ hold

theorem Stored.environment {s s' : Store PubKey} {eventId : String} (h : Stored s eventId)
    (henv : Environment s s') : Stored s' eventId := by
  obtain ⟨stored, hstored, hid⟩ := h
  cases henv with
  | tick | agents => exact ⟨stored, hstored, hid⟩
  | merge hmerged =>
    rcases mem_append.mp hstored with hevent | hold
    · obtain ⟨kept, hkept, hkey⟩ := hmerged.exists_key hevent
      have hsame : kept.row.eventId = stored.row.eventId := congrArg (fun key => key.2.2) hkey
      exact ⟨kept, mem_append_left _ hkept, hsame.trans hid⟩
    · exact ⟨stored, mem_append_right _ hold, hid⟩
  | expire hrows _ =>
    refine ⟨stored, ?_, hid⟩
    rw [Store.kept, hrows] at hstored
    simp only [Store.kept, mem_append, mem_cons] at hstored ⊢
    tauto

theorem request_advance (a : Answer) (s : Store PubKey) (pc : Pc Body PubKey) :
    (advance S a s pc).2.request = pc.request := by
  cases pc with
  | selectAgent req env =>
    simp only [advance, selectAgent]
    repeat' split
    all_goals rfl
  | checkTimestamp req env key =>
    simp only [advance, checkTimestamp]
    repeat' split
    all_goals rfl
  | setNonce req env key =>
    simp only [advance, setNonce]
    repeat' split
    all_goals rfl
  | verifySignature req env key =>
    simp only [advance]
    split <;> rfl
  | insertHeartbeat req env =>
    simp only [advance, insertHeartbeat, afterHeartbeat]
    repeat' split
    all_goals rfl
  | insertEvents req env =>
    simp only [advance, insertEvents]
    split <;> rfl
  | updateLastSeen | replied => rfl

theorem progress_replied {s : Store PubKey} {req : Request Body} {reply : Reply}
    (h : reply ≠ .ok) : Progress S s (.replied req reply) :=
  fun hok => absurd hok h

theorem allStored_storeEvents {s : Store PubKey} {env : OuterEnvelope} {rows : List CgesEventRow}
    (h : env.body.events.mapM (cgesEventRow env.agentId) = some rows) :
    AllStored (s.storeEvents rows) env := by
  intro e he
  obtain ⟨row, hrow, himage⟩ := exists_image_of_mapM h he
  obtain ⟨_, hid, _⟩ := cgesEventRow_spec himage
  have hadded : (⟨row, s.clock⟩ : StoredRow) ∈ (s.storeEvents rows).cgesEvents :=
    mem_append_right _ (mem_map_of_mem hrow)
  exact ⟨_, mem_append_left _ hadded, hid⟩

theorem Progress.advance {s : Store PubKey} {pc : Pc Body PubKey} (h : Progress S s pc)
    (a : Answer) : Progress S (Heartbeat.advance S a s pc).1 (Heartbeat.advance S a s pc).2 := by
  cases pc with
  | selectAgent req env =>
    simp only [Heartbeat.advance, Heartbeat.selectAgent]
    split
    · exact progress_replied (by simp)
    · split
      · exact progress_replied (by simp)
      · exact h
  | checkTimestamp req env key =>
    simp only [Heartbeat.advance, Heartbeat.checkTimestamp]
    split
    · exact progress_replied (by simp)
    · split
      · exact progress_replied (by simp)
      · exact h
  | setNonce req env key =>
    simp only [Heartbeat.advance, Heartbeat.setNonce]
    split
    · exact progress_replied (by simp)
    · split
      · exact h
      · exact progress_replied (by simp)
  | verifySignature req env key =>
    simp only [Heartbeat.advance]
    split
    · exact h
    · exact progress_replied (by simp)
  | insertHeartbeat req env =>
    simp only [Heartbeat.advance, Heartbeat.insertHeartbeat]
    split
    · exact progress_replied (by simp)
    · split
      · exact progress_replied (by simp)
      · unfold afterHeartbeat
        split
        · rename_i hempty
          refine ⟨h, fun e he => ?_⟩
          rw [List.isEmpty_iff.mp hempty] at he
          exact absurd he not_mem_nil
        · exact h
  | insertEvents req env =>
    simp only [Heartbeat.advance, Heartbeat.insertEvents]
    split
    · exact progress_replied (by simp)
    · rename_i rows hrows
      exact ⟨h, allStored_storeEvents hrows⟩
    · rename_i rows connectivity kept hrows
      cases connectivity <;> exact progress_replied (by simp)
  | updateLastSeen req env =>
    refine fun _ => ⟨env, h.1.1, fun e he => ?_⟩
    exact (h.2 e he).advance a (.updateLastSeen req env)
  | replied req reply => exact h

theorem Progress.mono {s s' : Store PubKey} {pc : Pc Body PubKey} (h : Progress S s pc)
    (hkeep : ∀ eventId, Stored s eventId → Stored s' eventId) : Progress S s' pc := by
  cases pc with
  | updateLastSeen req env => exact ⟨h.1, fun e he => hkeep _ (h.2 e he)⟩
  | replied req reply =>
    intro hok
    obtain ⟨env, henv, hstored⟩ := h hok
    exact ⟨env, henv, fun e he => hkeep _ (hstored e he)⟩
  | _ => exact h

end CyberGuard.Ingest.Heartbeat
