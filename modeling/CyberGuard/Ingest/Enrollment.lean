import Mathlib.Data.List.Induction
import Mathlib.Data.List.Pairwise
import CyberGuard.Ingest.EnrollRoute

/-!
# Enrollments are serial

`enrollAlone` is a whole enrollment run on its own: it adds the agent and consumes
the token, or leaves the tables. Whatever the handlers of any number of requests do
to each other, the committed tables are those of the committed requests run one
after the other in the order of their commits. What the tables say about tokens and
agents is then a fact about such sequences.
-/

namespace CyberGuard.Ingest.Enroll
set_option autoImplicit false
open Interleaving RowLocks List

def Tx.apply (tx : Tx) (row : TokenRow) (tables : Tables) : Tables :=
  Function.update
    (Function.update tables (.agent tx.agentId) (some (tx.agentRow : Row (.agent tx.agentId))))
    (.token tx.token) (some (row.consume tx : Row (.token tx.token)))

def enrollAlone (tables : Tables) (tx : Tx) : Option Tables :=
  match (tables (.agent tx.agentId) : Option AgentRow), (tables (.token tx.token) : Option TokenRow)
  with
  | none, some row => if row.Consumable tx.startedAt then some (tx.apply row tables) else none
  | _, _ => none

/-- The requests run one after the other, each of them enrolling. -/
def enrollSerially (tables : Tables) (txs : List Tx) : Option Tables :=
  txs.foldlM enrollAlone tables

variable {tables before after : Tables} {tx : Tx} {row : TokenRow} {txs : List Tx} {db : Db Key Row}
  {i j : Nat} {s s' : State} {session : Session} {pc : Pc} {Body : Type} {agentId : String}

theorem enrollAlone_eq_some {tables' : Tables} :
    enrollAlone tables tx = some tables' ↔
      tables (.agent tx.agentId) = none ∧ ∃ row : TokenRow,
        tables (.token tx.token) = some row ∧ row.Consumable tx.startedAt ∧
        tables' = tx.apply row tables := by
  unfold enrollAlone
  constructor
  · intro h
    split at h
    · rename_i row hagent htoken
      split at h
      · rename_i hrow
        exact ⟨hagent, row, htoken, hrow, (Option.some.inj h).symm⟩
      · exact absurd h (by simp)
    · exact absurd h (by simp)
  · rintro ⟨hagent, row, htoken, hrow, rfl⟩
    simp only [hagent, htoken, if_pos hrow]

theorem apply_agent (tx : Tx) (row : TokenRow) (tables : Tables) :
    tx.apply row tables (.agent tx.agentId) = some tx.agentRow := by
  unfold Tx.apply
  rw [Function.update_of_ne (by simp), Function.update_self]

theorem apply_token (tx : Tx) (row : TokenRow) (tables : Tables) :
    tx.apply row tables (.token tx.token) = some (row.consume tx) := by
  unfold Tx.apply
  rw [Function.update_self]

theorem apply_other {k : Key} (hagent : k ≠ .agent tx.agentId) (htoken : k ≠ .token tx.token) :
    tx.apply row tables k = tables k := by
  unfold Tx.apply
  rw [Function.update_of_ne htoken, Function.update_of_ne hagent]

theorem enrollSerially_append {tables' : Tables} (h : enrollSerially tables txs = some tables') :
    enrollSerially tables (txs ++ [tx]) = enrollAlone tables' tx := by
  unfold enrollSerially at h ⊢
  rw [foldlM_append, h]
  simp [List.foldlM]

theorem not_consumable_consume (row : TokenRow) (tx : Tx) (now : Int) :
    ¬ (row.consume tx).Consumable now := by
  rintro ⟨hstate, _⟩
  exact absurd hstate (by simp [TokenRow.consume])

/-- What enrollments leave of the tables they started from: each of them its agent row and its
consumed token, no two of them the same agent or token, and nothing else. -/
structure Enrolled (before : Tables) (txs : List Tx) (after : Tables) : Prop where
  agent : ∀ tx ∈ txs, before (.agent tx.agentId) = none ∧
    after (.agent tx.agentId) = some tx.agentRow
  token : ∀ tx ∈ txs, ∃ row : TokenRow, before (.token tx.token) = some row ∧
    row.Consumable tx.startedAt ∧ after (.token tx.token) = some (row.consume tx)
  distinct : txs.Pairwise fun tx tx' => tx.agentId ≠ tx'.agentId ∧ tx.token ≠ tx'.token
  untouched : ∀ k, (∀ tx ∈ txs, k ≠ .agent tx.agentId ∧ k ≠ .token tx.token) → after k = before k

theorem Enrolled.snoc {middle : Tables} (h : Enrolled before txs middle)
    (hlast : enrollAlone middle tx = some after) :
    Enrolled before (txs ++ [tx]) after := by
  obtain ⟨hagent, row, htoken, hrow, rfl⟩ := enrollAlone_eq_some.mp hlast
  -- an earlier agent is there and an earlier token is consumed, so the last request has others
  have hnew : ∀ old ∈ txs, old.agentId ≠ tx.agentId ∧ old.token ≠ tx.token := by
    intro old hold
    constructor
    · intro heq
      rw [← heq, (h.agent old hold).2] at hagent
      exact absurd hagent (by simp)
    · intro heq
      obtain ⟨first, _, _, hafter⟩ := h.token old hold
      rw [← heq, hafter] at htoken
      obtain rfl := Option.some.inj htoken
      exact not_consumable_consume first old tx.startedAt hrow
  have hkeep : ∀ old ∈ txs, tx.apply row middle (.agent old.agentId) = middle (.agent old.agentId) ∧
      tx.apply row middle (.token old.token) = middle (.token old.token) := by
    intro old hold
    obtain ⟨hid, htok⟩ := hnew old hold
    exact ⟨apply_other (by simpa using hid) (by simp), apply_other (by simp) (by simpa using htok)⟩
  have hfirst : before (.agent tx.agentId) = none ∧ before (.token tx.token) = some row := by
    rw [← h.untouched (.agent tx.agentId), ← h.untouched (.token tx.token)]
    · exact ⟨hagent, htoken⟩
    · intro old hold
      exact ⟨by simp, by simpa using (hnew old hold).2.symm⟩
    · intro old hold
      exact ⟨by simpa using (hnew old hold).1.symm, by simp⟩
  refine ⟨?_, ?_, ?_, ?_⟩
  · intro old hold
    rcases mem_append.mp hold with hold | hlast
    · rw [(hkeep old hold).1]
      exact h.agent old hold
    · obtain rfl := mem_singleton.mp hlast
      exact ⟨hfirst.1, apply_agent old row middle⟩
  · intro old hold
    rcases mem_append.mp hold with hold | hlast
    · rw [(hkeep old hold).2]
      exact h.token old hold
    · obtain rfl := mem_singleton.mp hlast
      exact ⟨row, hfirst.2, hrow, apply_token old row middle⟩
  · rw [pairwise_append]
    refine ⟨h.distinct, pairwise_singleton _ _, ?_⟩
    intro old hold last hlast
    obtain rfl := mem_singleton.mp hlast
    exact hnew old hold
  · intro k hk
    obtain ⟨hkagent, hktoken⟩ := hk tx (by simp)
    rw [apply_other hkagent hktoken]
    apply h.untouched
    intro old hold
    exact hk old (mem_append_left _ hold)

theorem enrolled_of_serially (h : enrollSerially before txs = some after) :
    Enrolled before txs after := by
  induction txs using List.reverseRecOn generalizing after with
  | nil =>
    obtain rfl : before = after := Option.some.inj h
    exact ⟨by simp, by simp, List.Pairwise.nil, fun _ _ => rfl⟩
  | append_singleton txs tx ih =>
    unfold enrollSerially at h
    rw [foldlM_append] at h
    obtain ⟨middle, hmiddle, hlast⟩ := Option.bind_eq_some_iff.mp h
    simp only [foldlM_cons, foldlM_nil, bind_pure] at hlast
    exact (ih hmiddle).snoc hlast

/-- Where `tx` stands between its `INSERT` and its `UPDATE`. -/
structure Inserted (db : Db Key Row) (i : Nat) (tx : Tx) : Prop where
  agent : db.pending i (.agent tx.agentId) = some tx.agentRow
  absent : db.committed (.agent tx.agentId) = none
  only : ∀ k, k ≠ .agent tx.agentId → db.pending i k = none

/-- Where `tx` stands when both rows are written and nothing is left but `COMMIT`. -/
structure Ready (db : Db Key Row) (i : Nat) (tx : Tx) : Prop where
  agent : db.pending i (.agent tx.agentId) = some tx.agentRow
  absent : db.committed (.agent tx.agentId) = none
  token : ∃ row : TokenRow, db.pending i (.token tx.token) = some (row.consume tx) ∧
    db.committed (.token tx.token) = some row ∧ row.Consumable tx.startedAt
  only : ∀ k, k ≠ .agent tx.agentId → k ≠ .token tx.token → db.pending i k = none

theorem Inserted.frame {db' : Db Key Row} (h : Inserted db i tx) (hown : Owned db)
    (hframe : Frame i db db') : Inserted db' i tx := by
  have hheld : db.holder (.agent tx.agentId) = some i := hown i _ (by simp [h.agent])
  refine ⟨?_, ?_, ?_⟩
  · rw [hframe.pending]
    exact h.agent
  · rw [hframe.committed _ hheld]
    exact h.absent
  · rw [hframe.pending]
    exact h.only

theorem Ready.frame {db' : Db Key Row} (h : Ready db i tx) (hown : Owned db)
    (hframe : Frame i db db') : Ready db' i tx := by
  obtain ⟨row, hpending, hcommitted, hrow⟩ := h.token
  have hagent : db.holder (.agent tx.agentId) = some i := hown i _ (by simp [h.agent])
  have htoken : db.holder (.token tx.token) = some i := hown i _ (by simp [hpending])
  refine ⟨?_, ?_, ⟨row, ?_, ?_, hrow⟩, ?_⟩
  · rw [hframe.pending]
    exact h.agent
  · rw [hframe.committed _ hagent]
    exact h.absent
  · rw [hframe.pending]
    exact hpending
  · rw [hframe.committed _ htoken]
    exact hcommitted
  · rw [hframe.pending]
    exact h.only

theorem Ready.enrollAlone (h : Ready db i tx) :
    enrollAlone db.committed tx = some (db.commit i).committed := by
  obtain ⟨row, hpending, hcommitted, hrow⟩ := h.token
  refine enrollAlone_eq_some.mpr ⟨h.absent, row, hcommitted, hrow, ?_⟩
  funext k
  by_cases hagent : k = .agent tx.agentId
  · subst hagent
    rw [apply_agent, committed_commit, h.agent, Option.some_or]
  · by_cases htoken : k = .token tx.token
    · subst htoken
      rw [apply_token, committed_commit, hpending, Option.some_or]
    · rw [apply_other hagent htoken, committed_commit, h.only k hagent htoken, Option.none_or]

/-- What handler `i` has written, by where it stands. -/
def Written (s : State) (i : Nat) : Pc → Prop
  | .connect _ _ _ | .begin _ _ _ | .issueClientCert _ _ _ _ | .insertAgent _ =>
    ∀ k, s.db.pending i k = none
  | .consumeScan tx | .consumeWait tx => Inserted s.db i tx
  | .commit tx | .caught _ (.committing tx) | .replied _ (.committing tx) => Ready s.db i tx
  | _ => True

/-- The reply 200 of handler `i` names an enrollment of the log. -/
def Answered (s : State) (i : Nat) : Pc → Prop
  | .replied (.ok agentId certPem notBefore notAfter) _ => ∃ tx, (i, tx) ∈ s.log ∧
    tx.agentId = agentId ∧ tx.issued = ⟨certPem, notBefore, notAfter⟩
  | _ => True

structure Handler (i : Nat) (s : State) (pc : Pc) : Prop where
  written : Written s i pc
  unsent : pc.commitSent = false → ∀ tx, (i, tx) ∉ s.log
  answered : Answered s i pc

structure Serial (before : Tables) (n : Nat) (s : State) : Prop where
  owned : Owned s.db
  unused : ∀ i, n ≤ i → ∀ k, s.db.pending i k = none
  logged : ∀ entry ∈ s.log, entry.1 < n
  serial : enrollSerially before (s.log.map Prod.snd) = some s.db.committed

inductive Effect (i : Nat) (s : State) : State → Prop where
  | stay : Effect i s s
  | write {k : Key} {row : Row k} :
      s.db.Available i k → Effect i s { s with db := s.db.write i k row }
  | abort : Effect i s (s.abort i)
  | commit {tx : Tx} : Ready s.db i tx → Effect i s (s.commit i tx)

theorem served_effect {session' : Session}
    (hready : ∀ tx, session = .committing tx →
      Ready s.db i tx) (h : Served i s session s' session') :
    Effect i s s' := by
  cases h with
  | ended => exact .abort
  | dropped => exact .abort
  | committed => exact .commit (hready _ rfl)

theorem act_effect {pc' : Pc} (hw : Written s i pc) (h : Act i s pc s' pc') : Effect i s s' := by
  cases h with
  | inserted havail _ => exact .write havail
  | insertLost _ havail _ => exact .write havail
  | consumed havail _ => exact .write havail
  | consumeLost _ havail _ => exact .write havail
  | rolledBack | commitRefused | caughtRolledBack => exact .abort
  | committed => exact .commit hw
  | caughtServed hserved =>
    refine served_effect ?_ hserved
    rintro tx rfl
    exact hw
  | repliedServed hserved =>
    refine served_effect ?_ hserved
    rintro tx rfl
    exact hw
  | _ => exact .stay

theorem Effect.frame (h : Effect i s s') (hown : Owned s.db) (hne : i ≠ j) :
    Frame j s.db s'.db := by
  cases h with
  | stay => exact Frame.refl j s.db
  | write havail => exact write_frame hne havail
  | abort => exact abort_frame hne
  | commit _ => exact commit_frame hown hne

theorem Effect.log (h : Effect i s s') (hne : i ≠ j) (tx : Tx) :
    (j, tx) ∈ s'.log ↔ (j, tx) ∈ s.log := by
  cases h with
  | commit _ =>
    simp only [State.commit, mem_append, mem_singleton, Prod.mk.injEq]
    constructor
    · rintro (hold | ⟨heq, _⟩)
      · exact hold
      · exact absurd heq.symm hne
    · exact Or.inl
  | _ => exact Iff.rfl

theorem Effect.serial {n : Nat} (h : Effect i s s') (hi : i < n) (hs : Serial before n s) :
    Serial before n s' := by
  have hunused : ∀ j, n ≤ j → ∀ k, s'.db.pending j k = none := by
    intro j hj k
    have hne : i ≠ j := by omega
    rw [(h.frame hs.owned hne).pending]
    exact hs.unused j hj k
  cases h with
  | stay => exact hs
  | write havail => exact ⟨hs.owned.write havail, hunused, hs.logged, hs.serial⟩
  | abort => exact ⟨hs.owned.abort i, hunused, hs.logged, hs.serial⟩
  | @commit tx hready =>
    refine ⟨hs.owned.commit i, hunused, ?_, ?_⟩
    · intro entry hentry
      rcases mem_append.mp hentry with hold | hnew
      · exact hs.logged entry hold
      · rw [mem_singleton.mp hnew]
        exact hi
    · simp only [State.commit, map_append, map_cons, map_nil]
      rw [enrollSerially_append hs.serial]
      exact hready.enrollAlone

/-- No command of another handler disturbs what a handler has written or been told. -/
theorem Handler.frame {qc : Pc} (h : Handler j s qc) (heff : Effect i s s') (hown : Owned s.db)
    (hne : i ≠ j) : Handler j s' qc := by
  have hframe := heff.frame hown hne
  refine ⟨?_, ?_, ?_⟩
  · have hwritten := h.written
    unfold Written at hwritten ⊢
    split
    all_goals
      simp only at hwritten
      first
        | exact hwritten.frame hown hframe
        | (rw [hframe.pending]; exact hwritten)
        | trivial
  · intro hsent tx
    rw [heff.log hne]
    exact h.unsent hsent tx
  · have hanswered := h.answered
    unfold Answered at hanswered ⊢
    split
    · obtain ⟨tx, hmem, hrest⟩ := hanswered
      exact ⟨tx, (heff.log hne tx).mpr hmem, hrest⟩
    · trivial

theorem Inserted.of_write (hclean : ∀ k, db.pending i k = none)
    (habsent : db.committed (.agent tx.agentId) = none) :
    Inserted (db.write i (.agent tx.agentId) tx.agentRow) i tx := by
  refine ⟨pending_write_self, habsent, ?_⟩
  intro k hk
  rw [pending_write_of_ne hk]
  exact hclean k

theorem Ready.of_write (h : Inserted db i tx) (hview : db.view i (.token tx.token) = some row)
    (hrow : row.Consumable tx.startedAt) :
    Ready (db.write i (.token tx.token) (row.consume tx)) i tx := by
  have hcommitted : db.committed (.token tx.token) = some row := by
    rw [Db.view, h.only _ (by simp), Option.none_or] at hview
    exact hview
  refine ⟨?_, h.absent, ⟨row, pending_write_self, hcommitted, hrow⟩, ?_⟩
  · rw [pending_write_of_ne (by simp)]
    exact h.agent
  · intro k hagent htoken
    rw [pending_write_of_ne htoken]
    exact h.only k hagent

theorem answered_failure (s : State) (i : Nat) (c : Bool) (session : Session) :
    Answered s i (.replied (.failure c) session) := by
  unfold Reply.failure
  cases c <;> trivial

theorem answered_session {reply : Reply} (session' : Session) :
    Answered s i (.replied reply session) ↔ Answered s i (.replied reply session') := by
  cases reply <;> exact Iff.rfl

theorem Answered.grow (h : Answered s i pc) (hlog : ∀ entry ∈ s.log, entry ∈ s'.log) :
    Answered s' i pc := by
  unfold Answered at h ⊢
  split
  · obtain ⟨tx, hmem, hrest⟩ := h
    exact ⟨tx, hlog _ hmem, hrest⟩
  · trivial

theorem served_spec {session' : Session} (h : Served i s session s' session') :
    (∃ sent, session' = .ended sent) ∧
      (session'.commitSent = false → session.commitSent = false ∧ s'.log = s.log) ∧
      ∀ entry ∈ s.log, entry ∈ s'.log := by
  cases h with
  | ended => exact ⟨⟨false, rfl⟩, fun _ => ⟨rfl, rfl⟩, fun _ hmem => hmem⟩
  | dropped => exact ⟨⟨true, rfl⟩, fun h => absurd h (by simp [Session.commitSent]), fun _ hmem => hmem⟩
  | committed =>
    refine ⟨⟨true, rfl⟩, fun h => absurd h (by simp [Session.commitSent]), ?_⟩
    intro entry hmem
    exact mem_append_left _ hmem

/-- A handler's own command: it has written what its new place says, `COMMIT` is its only way
into the log, and 200 comes after it. -/
theorem Handler.act {pc' : Pc} (h : Handler i s pc) (hact : Act i s pc s' pc') :
    Handler i s' pc' := by
  obtain ⟨hwritten, hunsent, hanswered⟩ := h
  cases hact with
  | inserted havail habsent =>
    exact ⟨Inserted.of_write hwritten habsent, hunsent, trivial⟩
  | consumed havail hpasses =>
    exact ⟨Ready.of_write hwritten hpasses.1 hpasses.2, hunsent, trivial⟩
  | @committed tx =>
    refine ⟨trivial, fun hsent => absurd hsent (by simp [Pc.commitSent, Session.commitSent]),
      tx, ?_, rfl, rfl⟩
    simp [State.commit]
  | commitRefused _ =>
    exact ⟨trivial, fun hsent => absurd hsent (by simp [Pc.commitSent, Session.commitSent]),
      trivial⟩
  | commitLost _ =>
    exact ⟨hwritten, fun hsent => absurd hsent (by simp [Pc.commitSent, Session.commitSent]),
      trivial⟩
  | @caughtReplied c session =>
    refine ⟨?_, hunsent, answered_failure s i c session⟩
    cases session <;> exact hwritten
  | caughtRolledBack => exact ⟨trivial, hunsent, answered_failure _ i _ _⟩
  | caughtServed hserved =>
    obtain ⟨⟨sent, rfl⟩, hlog, _⟩ := served_spec hserved
    refine ⟨trivial, ?_, trivial⟩
    intro hsent
    obtain ⟨hbefore, hsame⟩ := hlog hsent
    rw [hsame]
    exact hunsent hbefore
  | repliedServed hserved =>
    obtain ⟨⟨sent, rfl⟩, hlog, hgrow⟩ := served_spec hserved
    refine ⟨trivial, ?_, ?_⟩
    · intro hsent
      obtain ⟨hbefore, hsame⟩ := hlog hsent
      rw [hsame]
      exact hunsent hbefore
    · exact (answered_session _).mp (hanswered.grow hgrow)
  | begun | connected | issued | scanned => exact ⟨hwritten, hunsent, trivial⟩
  | _ => exact ⟨trivial, hunsent, trivial⟩

theorem outline (S : Server Body) (before : Tables) :
    Outline (route S) (Serial before) Handler where
  spawn := by
    intro n s pc hs hstart
    obtain ⟨body, agentId, rfl⟩ := hstart
    refine ⟨⟨hs.owned, fun i hi => hs.unused i (by omega), ?_, hs.serial⟩, ?_, ?_, ?_⟩
    · intro entry hentry
      exact Nat.lt_succ_of_lt (hs.logged entry hentry)
    · unfold receive
      split
      · trivial
      · exact hs.unused n (Nat.le_refl n)
    · intro _ tx hmem
      exact absurd (hs.logged _ hmem) (Nat.lt_irrefl n)
    · unfold receive
      split <;> trivial
  self := by
    intro n i s pc s' pc' hi hs hpc hact
    exact ⟨(act_effect hpc.written hact).serial hi hs, hpc.act hact⟩
  other := by
    intro n i j s pc s' pc' qc hne hs hpc hqc hact
    exact hqc.frame (act_effect hpc.written hact) hs.owned hne
  env := by
    rintro n s s' hs ⟨now, _, rfl⟩
    exact ⟨⟨hs.owned, hs.unused, hs.logged, hs.serial⟩,
      fun i pc hpc => ⟨hpc.written, hpc.unsent, hpc.answered⟩⟩

theorem run_holds {S : Server Body} {clock : Int} {p : Pool State Pc}
    (hrun : Run (route S) ⟨⟨Db.quiet before, clock, []⟩, []⟩ p) :
    Holds (Serial before) Handler p := by
  refine (outline S before).run (Holds.initial ?_) hrun
  exact ⟨Owned.quiet before, fun _ _ _ => rfl, by simp, rfl⟩

def ConsumedBy (tables : Tables) (token agentId : String) : Prop :=
  ∃ row : TokenRow, tables (.token token) = some row ∧ row.state = .consumed ∧
    row.consumedByAgentId = some agentId

/-- Between the two contents of the tables the agent was added. -/
def Added (before after : Tables) (agentId : String) : Prop :=
  before (.agent agentId) = none ∧ after (.agent agentId) ≠ none

/-- Between the two contents of the tables the token row was changed. -/
def Changed (before after : Tables) (token : String) : Prop :=
  after (.token token) ≠ before (.token token)

theorem Enrolled.changed (h : Enrolled before txs after) (hmem : tx ∈ txs) :
    Changed before after tx.token ∧ ConsumedBy after tx.token tx.agentId := by
  obtain ⟨row, hbefore, hrow, hafter⟩ := h.token tx hmem
  refine ⟨?_, row.consume tx, hafter, rfl, rfl⟩
  unfold Changed
  rw [hbefore, hafter]
  intro heq
  rw [← Option.some.inj heq] at hrow
  exact not_consumable_consume row tx tx.startedAt hrow

theorem Enrolled.mem_of_changed (h : Enrolled before txs after) {token : String}
    (hchanged : Changed before after token) :
    ∃ tx ∈ txs, tx.token = token := by
  by_contra hnone
  refine hchanged (h.untouched _ ?_)
  intro tx hmem
  refine ⟨by simp, ?_⟩
  intro heq
  exact hnone ⟨tx, hmem, (Key.token.inj heq).symm⟩

theorem Enrolled.mem_of_added (h : Enrolled before txs after)
    (hadded : Added before after agentId) :
    ∃ tx ∈ txs, tx.agentId = agentId := by
  by_contra hnone
  obtain ⟨hbefore, hafter⟩ := hadded
  refine hafter ((h.untouched _ ?_).trans hbefore)
  intro tx hmem
  refine ⟨?_, by simp⟩
  intro heq
  exact hnone ⟨tx, hmem, (Key.agent.inj heq).symm⟩

theorem Enrolled.eq_of_agentId (h : Enrolled before txs after) {tx' : Tx} (hmem : tx ∈ txs)
    (hmem' : tx' ∈ txs) (heq : tx.agentId = tx'.agentId) : tx = tx' := by
  by_contra hne
  have hsymm : Std.Symm fun tx tx' : Tx => tx.agentId ≠ tx'.agentId := ⟨fun _ _ => Ne.symm⟩
  have hids : txs.Pairwise fun tx tx' => tx.agentId ≠ tx'.agentId :=
    h.distinct.imp fun hdistinct => hdistinct.1
  exact hids.forall hmem hmem' hne heq

theorem ConsumedBy.unique {token agentId' : String} (h : ConsumedBy tables token agentId)
    (h' : ConsumedBy tables token agentId') :
    agentId = agentId' := by
  obtain ⟨row, hrow, _, hby⟩ := h
  obtain ⟨row', hrow', _, hby'⟩ := h'
  obtain rfl := Option.some.inj (hrow.symm.trans hrow')
  exact Option.some.inj (hby.symm.trans hby')

/-- The agents added and the tokens changed correspond one to one through
`consumed_by_agent_id`. -/
theorem Enrolled.correspondence (h : Enrolled before txs after) :
    (∀ agentId, Added before after agentId →
      ∃! token, Changed before after token ∧ ConsumedBy after token agentId) ∧
    (∀ token, Changed before after token →
      ∃! agentId, Added before after agentId ∧ ConsumedBy after token agentId) := by
  constructor
  · intro agentId hadded
    obtain ⟨tx, hmem, rfl⟩ := h.mem_of_added hadded
    refine ⟨tx.token, h.changed hmem, ?_⟩
    rintro token ⟨hchanged, hby⟩
    obtain ⟨tx', hmem', rfl⟩ := h.mem_of_changed hchanged
    have hsame : tx'.agentId = tx.agentId := (h.changed hmem').2.unique hby
    rw [h.eq_of_agentId hmem' hmem hsame]
  · intro token hchanged
    obtain ⟨tx, hmem, rfl⟩ := h.mem_of_changed hchanged
    have hafter : after (.agent tx.agentId) ≠ none := by
      rw [(h.agent tx hmem).2]
      simp
    refine ⟨tx.agentId, ⟨⟨(h.agent tx hmem).1, hafter⟩, (h.changed hmem).2⟩, ?_⟩
    rintro agentId ⟨_, hby⟩
    exact hby.unique (h.changed hmem).2

/-- A request alone, with a token it may consume and an agent id not in use, and with no failure,
is answered 200. -/
theorem enroll_run {S : Server Body} {body : Body} {req : EnrollRequest} (issued : Issued)
    {clock : Int} (hparse : S.safeParse body = some req) (habsent : before (.agent agentId) = none)
    (htoken : before (.token req.enrollmentToken) = some row) (hrow : row.Consumable clock) :
    ∃ s, Run (route S) ⟨⟨Db.quiet before, clock, []⟩, []⟩
      ⟨s, [.replied (.ok agentId issued.certPem issued.notBefore issued.notAfter)
        (.ended true)]⟩ := by
  let key := S.fromBase64url req.agentPubkey
  let tx : Tx := ⟨agentId, req.enrollmentToken, key, clock, issued⟩
  let s₀ : State := ⟨Db.quiet before, clock, []⟩
  have hstart : receive S body agentId = .connect req key agentId := by
    simp only [receive, hparse, key]
  have hspawn : Step (route S) ⟨s₀, []⟩ ⟨s₀, [.connect req key agentId]⟩ :=
    .spawn ⟨body, agentId, hstart.symm⟩
  have hconnect : Step (route S) ⟨s₀, [.connect req key agentId]⟩ ⟨s₀, [.begin req key agentId]⟩ :=
    .act (i := 0) rfl .connected
  have hbegin : Step (route S) ⟨s₀, [.begin req key agentId]⟩
      ⟨s₀, [.issueClientCert req key agentId clock]⟩ :=
    .act (i := 0) rfl .begun
  have hissue : Step (route S) ⟨s₀, [.issueClientCert req key agentId clock]⟩
      ⟨s₀, [.insertAgent tx]⟩ :=
    .act (i := 0) rfl (.issued issued)
  have hinsert : Step (route S) ⟨s₀, [.insertAgent tx]⟩
      ⟨s₀.insertAgent 0 tx, [.consumeScan tx]⟩ :=
    .act (i := 0) rfl (.inserted (Or.inl rfl) habsent)
  have hpasses : Passes (s₀.insertAgent 0 tx) 0 tx row := by
    refine ⟨?_, hrow⟩
    have hpending : (s₀.insertAgent 0 tx).db.pending 0 (.token tx.token) = none :=
      pending_write_of_ne (by simp)
    rw [Db.view, hpending, Option.none_or]
    exact htoken
  have hscan : Step (route S) ⟨s₀.insertAgent 0 tx, [.consumeScan tx]⟩
      ⟨s₀.insertAgent 0 tx, [.consumeWait tx]⟩ :=
    .act (i := 0) rfl (.scanned hpasses)
  have hfree : (s₀.insertAgent 0 tx).db.Available 0 (.token tx.token) := by
    have hne : Key.token tx.token ≠ Key.agent tx.agentId := by simp
    exact Or.inl (holder_write_of_ne hne)
  have hconsume : Step (route S) ⟨s₀.insertAgent 0 tx, [.consumeWait tx]⟩
      ⟨(s₀.insertAgent 0 tx).consume 0 tx row, [.commit tx]⟩ :=
    .act (i := 0) rfl (.consumed hfree hpasses)
  have hcommit : Step (route S) ⟨(s₀.insertAgent 0 tx).consume 0 tx row, [.commit tx]⟩
      ⟨((s₀.insertAgent 0 tx).consume 0 tx row).commit 0 tx,
        [.replied (.ok agentId issued.certPem issued.notBefore issued.notAfter) (.ended true)]⟩ :=
    .act (i := 0) rfl .committed
  exact ⟨_, (((((((Relation.ReflTransGen.single hspawn).tail hconnect).tail hbegin).tail
    hissue).tail hinsert).tail hscan).tail hconsume).tail hcommit⟩

/-- Any number of enroll requests, interleaved statement by statement and failing anywhere: the
committed tables are those of the committed requests run one after the other; no two of these
share a token; the agents they added and the tokens they consumed correspond one to one; a
request that has not sent `COMMIT` is none of them; and one that was answered 200 is one of
them, with its agent row and its consumed token in the committed tables. -/
theorem enroll_single_use_and_atomic {Body : Type} {S : Server Body} {before : Tables}
    {clock : Int} {p : Pool State Pc}
    (hrun : Run (route S) ⟨⟨Db.quiet before, clock, []⟩, []⟩ p) :
    enrollSerially before (p.store.log.map Prod.snd) = some p.store.db.committed ∧
    ((p.store.log.map Prod.snd).Pairwise fun tx tx' => tx.token ≠ tx'.token) ∧
    ((∀ agentId, Added before p.store.db.committed agentId →
        ∃! token, Changed before p.store.db.committed token ∧
          ConsumedBy p.store.db.committed token agentId) ∧
      (∀ token, Changed before p.store.db.committed token →
        ∃! agentId, Added before p.store.db.committed agentId ∧
          ConsumedBy p.store.db.committed token agentId)) ∧
    (∀ i pc, p.threads[i]? = some pc → pc.commitSent = false →
      ∀ tx, (i, tx) ∉ p.store.log) ∧
    (∀ i agentId certPem notBefore notAfter session,
      p.threads[i]? = some (.replied (.ok agentId certPem notBefore notAfter) session) →
      ∃ tx, (i, tx) ∈ p.store.log ∧ tx.agentId = agentId ∧
        tx.issued = ⟨certPem, notBefore, notAfter⟩ ∧
        p.store.db.committed (.agent agentId) = some tx.agentRow ∧
        ConsumedBy p.store.db.committed tx.token agentId) := by
  have hp := run_holds hrun
  have henrolled := enrolled_of_serially hp.store.serial
  refine ⟨hp.store.serial, ?_, henrolled.correspondence, ?_, ?_⟩
  · exact henrolled.distinct.imp fun h => h.2
  · intro i pc hpc
    exact (hp.thread i pc hpc).unsent
  · intro i agentId certPem notBefore notAfter session hpc
    obtain ⟨tx, hmem, rfl, hissued⟩ := (hp.thread i _ hpc).answered
    have htx : tx ∈ p.store.log.map Prod.snd := mem_map_of_mem hmem
    exact ⟨tx, hmem, rfl, hissued, (henrolled.agent tx htx).2, (henrolled.changed htx).2⟩

def sampleTables : Tables
  | .agent _ => none
  | .token text => if text = "one-time" then some ⟨.issued, 1000, none, none⟩ else none

def sampleServer : Server EnrollRequest where
  safeParse := some
  fromBase64url := fun _ => List.replicate 32 0

theorem sample_enrolled : ∃ (p : Pool State Pc) (token : String),
    Run (route sampleServer) ⟨⟨Db.quiet sampleTables, 0, []⟩, []⟩ p ∧
      ConsumedBy p.store.db.committed token "0195b7a2-0000-7000-8000-000000000001" := by
  let body : EnrollRequest := ⟨"one-time", "AAAAAAAAAAAAAAAAAAAAAAAAAAAAAAAAAAAAAAAAAAA"⟩
  let issued : Issued := ⟨"certificate", 0, 100⟩
  have hparse : sampleServer.safeParse body = some body := rfl
  have habsent : sampleTables (.agent "0195b7a2-0000-7000-8000-000000000001") = none := rfl
  have htoken : sampleTables (.token body.enrollmentToken) = some ⟨.issued, 1000, none, none⟩ := rfl
  have hrow : TokenRow.Consumable ⟨.issued, 1000, none, none⟩ 0 := by decide
  obtain ⟨s, hrun⟩ := enroll_run issued hparse habsent htoken hrow
  obtain ⟨_, _, _, _, hok⟩ := enroll_single_use_and_atomic hrun
  obtain ⟨tx, _, _, _, _, hby⟩ := hok 0 _ _ _ _ _ rfl
  exact ⟨_, tx.token, hrun, hby⟩

end CyberGuard.Ingest.Enroll
