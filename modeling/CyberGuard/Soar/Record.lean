import CyberGuard.Soar.Run
import Mathlib.Data.List.Nodup

/-!
# What the record of a run says

A run that is under way owns its row: no other call has its execution id, and the row is
`running`. So the steps it has taken so far are the only ones taken for its playbook and
its incident, and the record it completes lists them.
-/

namespace CyberGuard.Soar
set_option autoImplicit false
open Checks Interleaving StoreCalls CyberGuard.Ingest List

/-- A run under way: the steps recorded, whether one has failed, and the steps to come. -/
structure Work where
  run : Running
  steps : List UnlinkedStep
  failed : Bool
  todo : List PlaybookStep

def Pc.work : Pc → Option Work
  | .claimed run => some ⟨run, [], false, run.playbook.steps⟩
  | .step run _ steps failed todo => some ⟨run, steps, failed, todo⟩
  | .executing run _ steps current todo _ _ _ => some ⟨run, steps, false, current :: todo⟩
  | .complete run steps failed => some ⟨run, steps, failed, []⟩
  | _ => none

def Pc.ahead : Pc → List Playbook
  | .select _ rest | .threw _ rest => rest
  | .claim _ playbook rest => playbook :: rest
  | .claimed run | .step run _ _ _ _ | .executing run _ _ _ _ _ _ _ | .complete run _ _ => run.rest
  | .returned | .rejected => []

def commandsFor (rest : List Playbook) : Nat :=
  (rest.map fun playbook => 2 * playbook.steps.length + 6).sum

def Pc.left : Pc → Nat
  | .select _ rest => commandsFor rest + 1
  | .claim _ playbook rest => commandsFor (playbook :: rest)
  | .claimed run => commandsFor run.rest + 2 * run.playbook.steps.length + 4
  | .step run _ _ _ todo => commandsFor run.rest + 2 * todo.length + 3
  | .executing run _ _ _ todo _ _ _ => commandsFor run.rest + 2 * todo.length + 4
  | .complete run _ _ => commandsFor run.rest + 2
  | .threw _ rest => commandsFor rest + 2
  | .returned | .rejected => 0

structure EntryOf (step : PlaybookStep) (entry : UnlinkedStep) : Prop where
  id : entry.stepId = step.id
  action : entry.action = step.action
  mode : entry.mode = step.mode

structure Recorded (w w' : Work) (step : PlaybookStep) (entry : UnlinkedStep) : Prop where
  run : w'.run = w.run
  todo : w.todo = step :: w'.todo
  steps : w'.steps = w.steps ++ [entry]
  stands : EntryOf step entry
  skipped : w.failed = true → entry.outcome = .skipped
  failed : w'.failed = (w.failed || decide (entry.outcome = .failed))

section Commands
variable {D : Digests} {i : Nat} {s s' : Store} {pc pc' : Pc} {input : Input} {w' : Work}

theorem commandsFor_cons (playbook : Playbook) (rest : List Playbook) :
    commandsFor (playbook :: rest) = 2 * playbook.steps.length + 6 + commandsFor rest := by
  rw [commandsFor, map_cons, sum_cons, commandsFor]

/-- What a call does next: it comes nearer to its end and claims no playbook that was not ahead of
it. A run comes from a claim that was not taken, stands as it was, or has recorded a step. -/
structure Moves (input : Input) (s : Store) (pc pc' : Pc) : Prop where
  left : pc'.left < pc.left
  ahead : pc'.ahead ⊆ pc.ahead
  settles : pc' ≠ .rejected
  work : ∀ w', pc'.work = some w' →
    (∃ call playbook rest, pc = .claim call playbook rest ∧
      claimTaken s.rows call playbook = false ∧
      w' = ⟨⟨call, rest, playbook, input.id⟩, [], false, playbook.steps⟩) ∨
    ∃ w, pc.work = some w ∧ (w' = w ∨ ∃ step entry, Recorded w w' step entry)

theorem Moves.idle (hleft : pc'.left < pc.left) (hahead : pc'.ahead ⊆ pc.ahead)
    (hsettles : pc' ≠ .rejected) (hwork : pc'.work = none) : Moves input s pc pc' := by
  refine ⟨hleft, hahead, hsettles, ?_⟩
  intro w' hw
  rw [hwork] at hw
  cases hw

theorem Moves.same (hleft : pc'.left < pc.left) (hahead : pc'.ahead ⊆ pc.ahead)
    (hsettles : pc' ≠ .rejected) (hwork : pc'.work = pc.work) : Moves input s pc pc' :=
  ⟨hleft, hahead, hsettles, fun w' hw => Or.inr ⟨w', hwork ▸ hw, Or.inl rfl⟩⟩

theorem moves_record {run : Running} {deadline : Int} {steps : List UnlinkedStep}
    {step : PlaybookStep} {todo : List PlaybookStep} {started : String} {result : StepResult}
    {failed failed' : Bool} (hwork : pc.work = some ⟨run, steps, failed, step :: todo⟩)
    (hleft : commandsFor run.rest + 2 * todo.length + 3 < pc.left) (hahead : run.rest ⊆ pc.ahead)
    (hskip : failed = true → result.outcome = .skipped)
    (hfailed : failed' = (failed || decide (result.outcome = .failed))) :
    Moves input s pc (record input run deadline steps step todo started result failed') := by
  unfold record
  split
  · refine .idle (lt_of_le_of_lt ?_ hleft) hahead Pc.noConfusion rfl
    simp only [Pc.left]
    omega
  · refine ⟨hleft, hahead, Pc.noConfusion, ?_⟩
    intro w' hw
    cases hw
    exact Or.inr ⟨_, hwork, Or.inr ⟨step, _, rfl, rfl, rfl, ⟨rfl, rfl, rfl⟩, hskip, hfailed⟩⟩

theorem moves_resume (h : admissible D input s pc) : Moves input s pc (resume input s pc) := by
  cases pc with
  | select call rest =>
    cases rest with
    | nil => exact .idle (Nat.succ_pos _) (List.Subset.refl _) Pc.noConfusion rfl
    | cons playbook rest =>
      simp only [resume]
      split <;> refine .idle ?_ ?_ Pc.noConfusion rfl <;> simp [Pc.left, Pc.ahead, commandsFor_cons]
  | claim call playbook rest =>
    simp only [resume]
    split
    · exact .idle (by simp only [Pc.left, commandsFor_cons]; omega) (subset_cons_self _ _) Pc.noConfusion rfl
    · rename_i htaken
      refine ⟨by simp only [Pc.left, commandsFor_cons]; omega, subset_cons_self _ _,
        Pc.noConfusion, ?_⟩
      intro w' hw
      cases hw
      exact Or.inl ⟨call, playbook, rest, rfl, by simpa using htaken, rfl⟩
  | claimed run => exact .same (Nat.lt_succ_self _) (List.Subset.refl _) Pc.noConfusion rfl
  | step run deadline steps failed todo =>
    cases todo with
    | nil => exact .same (Nat.lt_succ_self _) (List.Subset.refl _) Pc.noConfusion rfl
    | cons step todo =>
      have hleft : commandsFor run.rest + 2 * todo.length + 4 <
          (Pc.step run deadline steps failed (step :: todo)).left := by
        simp only [Pc.left, length_cons]
        omega
      simp only [resume]
      split
      · refine .idle ?_ (List.Subset.refl _) Pc.noConfusion rfl
        simp only [Pc.left] at hleft ⊢
        omega
      · split
        · rename_i hfailed
          exact moves_record rfl (Nat.lt_of_succ_lt hleft) (List.Subset.refl _)
            (fun _ => rfl) (by rw [hfailed]; rfl)
        · rename_i hfailed
          rw [Bool.not_eq_true] at hfailed
          subst hfailed
          split
          · exact moves_record rfl (Nat.lt_of_succ_lt hleft) (List.Subset.refl _)
              (fun hf => nomatch hf) rfl
          · exact .same hleft (List.Subset.refl _) Pc.noConfusion rfl
  | executing run deadline steps step todo started cutByRun begun =>
    simp only [resume]
    split
    · exact moves_record rfl (Nat.lt_succ_self _) (List.Subset.refl _) (fun hf => nomatch hf) rfl
    · exact moves_record rfl (Nat.lt_succ_self _) (List.Subset.refl _) (fun hf => nomatch hf)
        (Bool.false_or _).symm
  | complete run steps failed =>
    exact .idle (Nat.lt_succ_self _) (List.Subset.refl _) Pc.noConfusion rfl
  | threw call rest => exact .idle (Nat.lt_succ_self _) (List.Subset.refl _) Pc.noConfusion rfl
  | returned => exact h.elim
  | rejected => exact h.elim

theorem moves_afterFailure (input : Input) (s : Store) (h : afterFailure pc = some pc') :
    pc'.work = none ∧ Moves input s pc pc' := by
  cases pc <;> simp only [afterFailure, reduceCtorEq, Option.some.injEq] at h <;> subst h
  · exact ⟨rfl, .idle (by simp only [Pc.left, commandsFor_cons]; omega) (subset_cons_self _ _) Pc.noConfusion rfl⟩
  · exact ⟨rfl, .idle (Nat.lt_succ_self _) (List.Subset.refl _) Pc.noConfusion rfl⟩

theorem called_cases (h : Called (calls D) i s pc s' pc') :
    (∃ input, admissible D input s pc ∧ s' = effect D i input s pc ∧
        (pc' = resume input s pc ∨ afterFailure pc = some pc')) ∨
      (s' = s ∧ afterFailure pc = some pc') := by
  cases h with
  | answered h =>
    cases h with
    | intro input hadm => exact Or.inl ⟨input, hadm, rfl, Or.inl rfl⟩
  | failed input h => exact Or.inr ⟨rfl, h⟩
  | lost input hadm h => exact Or.inl ⟨input, hadm, rfl, Or.inr h⟩

theorem moves_called (h : Called (calls D) i s pc s' pc') : ∃ input, Moves input s pc pc' := by
  rcases called_cases h with ⟨input, hadm, -, rfl | hfail⟩ | ⟨-, hfail⟩
  · exact ⟨input, moves_resume hadm⟩
  · exact ⟨input, (moves_afterFailure input s hfail).2⟩
  · exact ⟨{}, (moves_afterFailure {} s hfail).2⟩

/-- What a command does to the store. -/
theorem effect_cases (D : Digests) (i : Nat) (input : Input) (s : Store) (pc : Pc) :
    effect D i input s pc = s ∨
      (∃ call playbook rest, pc = .claim call playbook rest ∧
        claimTaken s.rows call playbook = false ∧
        effect D i input s pc = s.insertClaim i (claimRow input call playbook)) ∨
      (∃ w begun, pc.work = some w ∧ w.failed = false ∧
        effect D i input s pc = s.noteBegun i w.run w.steps begun) ∨
      ∃ run steps failed, pc = .complete run steps failed ∧
        effect D i input s pc = s.completeRun D input run steps failed := by
  cases pc with
  | claim call playbook rest =>
    cases htaken : claimTaken s.rows call playbook with
    | true => exact Or.inl (if_pos htaken)
    | false =>
      refine Or.inr (Or.inl ⟨call, playbook, rest, rfl, htaken, if_neg ?_⟩)
      rw [htaken]
      exact Bool.false_ne_true
  | step run runDeadline steps failed todo =>
    cases todo with
    | nil => exact Or.inl rfl
    | cons step todo =>
      simp only [effect]
      split
      · exact Or.inl rfl
      · rename_i begun hbegun
        refine Or.inr (Or.inr (Or.inl ⟨_, begun, rfl, ?_, rfl⟩))
        cases failed with
        | false => rfl
        | true => simp [begins] at hbegun
  | complete run steps failed =>
    exact Or.inr (Or.inr (Or.inr ⟨run, steps, failed, rfl, rfl⟩))
  | _ => exact Or.inl rfl

end Commands

/-- The columns of `playbook_executions_once`. -/
def Execution.key (row : Execution) : String × String × String :=
  (row.orgId, row.playbookId, row.incidentId)

def Executed.key (e : Executed) : String × String × String :=
  (e.orgId, e.playbookId, e.incidentId)

def Running.key (run : Running) : String × String × String :=
  (run.call.incident.orgId, run.playbook.id, run.call.incident.incidentId)

def NoMailAfterFailure (mails : List MailAttempt) (executionId : String)
    (steps : List UnlinkedStep) : Prop :=
  ∀ mail ∈ mails, mail.executionId = executionId →
    ∀ entry ∈ steps.take mail.step, entry.outcome ≠ .failed

def SkipsAfterFailure (steps : List UnlinkedStep) : Prop :=
  steps.Pairwise fun entry later => entry.outcome = .failed → later.outcome = .skipped

/-- A record says what was done: an entry for each step in order, and the status they give. -/
structure Faithful (playbooks : List Playbook) (mails : List MailAttempt) (row : Execution) :
    Prop where
  entries : ∃ playbook ∈ playbooks, playbook.id = row.playbookId ∧
    playbook.version = row.playbookVersion ∧
    List.Forall₂ EntryOf playbook.steps (row.steps.map StepRecord.toUnlinkedStep)
  failed_iff : row.status = .failed ↔ ∃ entry ∈ row.steps, entry.outcome = .failed
  skips : SkipsAfterFailure (row.steps.map StepRecord.toUnlinkedStep)
  mails : NoMailAfterFailure mails row.executionId (row.steps.map StepRecord.toUnlinkedStep)

structure Sound (playbooks : List Playbook) (s : Store) : Prop where
  claims : s.claims.map Prod.fst = s.rows.map Execution.executionId
  ids : (s.rows.map Execution.executionId).Nodup
  keys : (s.rows.map Execution.key).Nodup
  executed : ∀ e ∈ s.executed, (e.executionId, e.call) ∈ s.claims ∧
    ∃ row ∈ s.rows, row.executionId = e.executionId ∧ row.key = e.key
  mails : ∀ mail ∈ s.mails, ∃ row ∈ s.rows, row.executionId = mail.executionId
  faithful : ∀ row ∈ s.rows, row.status ≠ .running → Faithful playbooks s.mails row

structure Fits (w : Work) : Prop where
  entries : ∃ done, done ++ w.todo = w.run.playbook.steps ∧ List.Forall₂ EntryOf done w.steps
  failed_iff : w.failed = true ↔ ∃ entry ∈ w.steps, entry.outcome = .failed
  skips : SkipsAfterFailure w.steps

structure RowOf (run : Running) (row : Execution) : Prop where
  id : row.executionId = run.executionId
  key : row.key = run.key
  version : row.playbookVersion = run.playbook.version
  running : row.status = .running

structure Owns (playbooks : List Playbook) (i : Nat) (s : Store) (w : Work) : Prop where
  loaded : w.run.playbook ∈ playbooks
  fits : Fits w
  claim : (w.run.executionId, i) ∈ s.claims
  row : ∃ row ∈ s.rows, RowOf w.run row
  mails : NoMailAfterFailure s.mails w.run.executionId w.steps
  sent : ∀ mail ∈ s.mails, mail.executionId = w.run.executionId → mail.step ≤ w.steps.length

structure Stands (playbooks : List Playbook) (i : Nat) (s : Store) (pc : Pc) : Prop where
  settles : pc ≠ .rejected
  ahead : pc.ahead ⊆ playbooks
  owns : ∀ w, pc.work = some w → Owns playbooks i s w

section Fitting
variable {w w' : Work} {step : PlaybookStep} {entry : UnlinkedStep}

theorem Fits.start (run : Running) : Fits ⟨run, [], false, run.playbook.steps⟩ where
  entries := ⟨[], rfl, .nil⟩
  failed_iff := by simp
  skips := .nil

theorem Fits.record (h : Fits w) (hrec : Recorded w w' step entry) : Fits w' := by
  obtain ⟨done, hdone, hentries⟩ := h.entries
  refine ⟨⟨done ++ [step], ?_, ?_⟩, ?_, ?_⟩
  · rw [hrec.run, ← hdone, hrec.todo, append_assoc, singleton_append]
  · rw [hrec.steps]
    exact rel_append hentries (.cons hrec.stands .nil)
  · rw [hrec.failed, hrec.steps, Bool.or_eq_true, h.failed_iff, decide_eq_true_eq]
    simp only [mem_append, mem_singleton, or_and_right, exists_or, exists_eq_left]
  · rw [SkipsAfterFailure, hrec.steps, pairwise_append]
    refine ⟨h.skips, pairwise_singleton _ _, ?_⟩
    intro earlier hearlier later hlater hfailed
    rw [mem_singleton.mp hlater]
    exact hrec.skipped (h.failed_iff.mpr ⟨earlier, hearlier, hfailed⟩)

theorem NoMailAfterFailure.append {mails : List MailAttempt} {executionId : String}
    {steps more : List UnlinkedStep} (h : NoMailAfterFailure mails executionId steps)
    (hsent : ∀ mail ∈ mails, mail.executionId = executionId → mail.step ≤ steps.length) :
    NoMailAfterFailure mails executionId (steps ++ more) := by
  intro mail hmail hid
  rw [take_append_of_le_length (hsent mail hmail hid)]
  exact h mail hmail hid

end Fitting

section Keeping
variable {D : Digests} {playbooks : List Playbook} {i j : Nat} {s : Store} {pc : Pc} {input : Input}
variable {w w' : Work}

theorem Sound.row_unique (h : Sound playbooks s) {row row' : Execution} (hrow : row ∈ s.rows)
    (hrow' : row' ∈ s.rows) (hid : row.executionId = row'.executionId) : row = row' :=
  inj_on_of_nodup_map h.ids hrow hrow' hid

theorem Sound.owner_unique (h : Sound playbooks s) {id : String} (hi : (id, i) ∈ s.claims)
    (hj : (id, j) ∈ s.claims) : i = j := by
  have hnodup : (s.claims.map Prod.fst).Nodup := by
    rw [h.claims]
    exact h.ids
  have heq : (id, i) = (id, j) := inj_on_of_nodup_map hnodup hi hj rfl
  exact congrArg Prod.snd heq

theorem claimTaken_eq_false {call : Call} {playbook : Playbook} {rows : List Execution}
    (h : claimTaken rows call playbook = false) :
    ∀ row ∈ rows, row.key ≠ (claimRow input call playbook).key := by
  intro row hrow hkey
  rw [claimTaken, any_eq_false] at h
  apply h row hrow
  simp only [Execution.key, claimRow, Prod.mk.injEq] at hkey
  simp [hkey]

theorem Store.map_completeRun {β : Type} (run : Running) (steps : List UnlinkedStep)
    (failed : Bool) (f : Execution → β)
    (hf : ∀ row, f (completeRow D input steps failed row) = f row) :
    (s.completeRun D input run steps failed).rows.map f = s.rows.map f := by
  rw [Store.completeRun, map_map]
  apply map_congr_left
  intro row _
  rw [Function.comp_apply]
  split
  · exact hf row
  · rfl

theorem Store.mem_completeRun {run : Running} {steps : List UnlinkedStep} {failed : Bool}
    {row : Execution} (h : row ∈ s.rows) :
    ∃ row' ∈ (s.completeRun D input run steps failed).rows,
      row'.executionId = row.executionId ∧ row'.key = row.key := by
  refine ⟨_, mem_map_of_mem h, ?_⟩
  split <;> exact ⟨rfl, rfl⟩

theorem Owns.record {step : PlaybookStep} {entry : UnlinkedStep} (h : Owns playbooks i s w)
    (hrec : Recorded w w' step entry) : Owns playbooks i s w' := by
  refine ⟨?_, h.fits.record hrec, ?_, ?_, ?_, ?_⟩
  · rw [hrec.run]
    exact h.loaded
  · rw [hrec.run]
    exact h.claim
  · rw [hrec.run]
    exact h.row
  · rw [hrec.run, hrec.steps]
    exact h.mails.append h.sent
  · intro mail hmail hid
    rw [hrec.run] at hid
    have hle : mail.step ≤ w.steps.length := h.sent mail hmail hid
    rw [hrec.steps, length_append]
    omega

theorem mem_noteBegun {run : Running} {steps : List UnlinkedStep} {begun : Begun}
    {mail : MailAttempt} (h : mail ∈ (s.noteBegun i run steps begun).mails) :
    mail ∈ s.mails ∨ (mail.executionId = run.executionId ∧ mail.step = steps.length) := by
  rcases mem_append.mp h with hold | hnew
  · exact Or.inl hold
  · rw [Option.mem_toList] at hnew
    obtain ⟨sent, -, rfl⟩ := Option.map_eq_some_iff.mp hnew
    exact Or.inr ⟨rfl, rfl⟩

theorem Owns.noteBegun {begun : Begun} (h : Owns playbooks i s w) (hfailed : w.failed = false) :
    Owns playbooks i (s.noteBegun i w.run w.steps begun) w := by
  refine ⟨h.loaded, h.fits, h.claim, h.row, ?_, ?_⟩
  · intro mail hmail hid entry hentry houtcome
    rcases mem_noteBegun hmail with hold | -
    · exact h.mails mail hold hid entry hentry houtcome
    · have htrue : w.failed = true :=
        h.fits.failed_iff.mpr ⟨entry, mem_of_mem_take hentry, houtcome⟩
      rw [hfailed] at htrue
      cases htrue
  · intro mail hmail hid
    rcases mem_noteBegun hmail with hold | ⟨-, hstep⟩
    · exact h.sent mail hold hid
    · exact hstep.le

theorem Owns.claimed {call : Call} {playbook : Playbook} {rest : List Playbook}
    (hs : Sound playbooks s) (hloaded : playbook ∈ playbooks)
    (hfresh : ∀ row ∈ s.rows, row.executionId ≠ input.id) :
    Owns playbooks i (s.insertClaim i (claimRow input call playbook))
      ⟨⟨call, rest, playbook, input.id⟩, [], false, playbook.steps⟩ := by
  have hnone : ∀ mail ∈ s.mails, mail.executionId ≠ input.id := by
    intro mail hmail hid
    obtain ⟨row, hrow, heq⟩ := hs.mails mail hmail
    exact hfresh row hrow (heq.trans hid)
  refine ⟨hloaded, Fits.start _, ?_, ?_, ?_, ?_⟩
  · exact mem_append_right _ (mem_singleton_self _)
  · exact ⟨_, mem_append_right _ (mem_singleton_self _), rfl, rfl, rfl, rfl⟩
  · intro mail hmail hid
    exact absurd hid (hnone mail hmail)
  · intro mail hmail hid
    exact absurd hid (hnone mail hmail)

theorem Stands.owns_resume (hs : Sound playbooks s) (h : Stands playbooks i s pc)
    (hadm : admissible D input s pc) (hwork : (resume input s pc).work = some w') :
    Owns playbooks i (effect D i input s pc) w' := by
  rcases (moves_resume hadm).work w' hwork with ⟨call, playbook, rest, rfl, htaken, rfl⟩ | ⟨w, hw, hmoves⟩
  · have heffect : effect D i input s (.claim call playbook rest) =
        s.insertClaim i (claimRow input call playbook) := by
      simp only [effect, htaken, Bool.false_eq_true, if_false]
    rw [heffect]
    exact Owns.claimed hs (h.ahead (mem_cons_self ..)) hadm.1
  · have hown : Owns playbooks i (effect D i input s pc) w := by
      rcases effect_cases D i input s pc with heq | ⟨call, playbook, rest, rfl, -, -⟩ |
        ⟨w₀, begun, hw₀, hfailed, heq⟩ | ⟨run, steps, failed, rfl, -⟩
      · rw [heq]
        exact h.owns w hw
      · cases hw
      · obtain rfl : w₀ = w := Option.some.inj (hw₀.symm.trans hw)
        rw [heq]
        exact (h.owns w₀ hw).noteBegun hfailed
      · cases hwork
    rcases hmoves with rfl | ⟨step, entry, hrec⟩
    · exact hown
    · exact hown.record hrec

theorem Owns.effect_other (hs : Sound playbooks s) (h : Stands playbooks i s pc) (hij : i ≠ j)
    (hw : Owns playbooks j s w) : Owns playbooks j (effect D i input s pc) w := by
  rcases effect_cases D i input s pc with heq | ⟨call, playbook, rest, -, -, heq⟩ |
    ⟨w₀, begun, hw₀, -, heq⟩ | ⟨run, steps, failed, rfl, heq⟩
  · rw [heq]
    exact hw
  · rw [heq]
    obtain ⟨row, hrow, hof⟩ := hw.row
    exact ⟨hw.loaded, hw.fits, mem_append_left _ hw.claim,
      ⟨row, mem_append_left _ hrow, hof⟩, hw.mails, hw.sent⟩
  · have hne : w₀.run.executionId ≠ w.run.executionId := by
      intro hid
      have hclaim := (h.owns w₀ hw₀).claim
      rw [hid] at hclaim
      exact hij (hs.owner_unique hclaim hw.claim)
    rw [heq]
    refine ⟨hw.loaded, hw.fits, hw.claim, hw.row, ?_, ?_⟩
    · intro mail hmail hid
      rcases mem_noteBegun hmail with hold | ⟨hnew, -⟩
      · exact hw.mails mail hold hid
      · exact absurd (hnew.symm.trans hid) hne
    · intro mail hmail hid
      rcases mem_noteBegun hmail with hold | ⟨hnew, -⟩
      · exact hw.sent mail hold hid
      · exact absurd (hnew.symm.trans hid) hne
  · have hne : w.run.executionId ≠ run.executionId := by
      intro hid
      have hclaim := (h.owns _ rfl).claim
      exact hij (hs.owner_unique (hid ▸ hclaim) hw.claim)
    obtain ⟨row, hrow, hof⟩ := hw.row
    have hkept : row ∈ (s.completeRun D input run steps failed).rows := by
      refine mem_map.mpr ⟨row, hrow, if_neg ?_⟩
      rw [hof.id]
      exact hne
    rw [heq]
    exact ⟨hw.loaded, hw.fits, hw.claim, ⟨row, hkept, hof⟩, hw.mails, hw.sent⟩

end Keeping

section Table
variable {D : Digests} {playbooks : List Playbook} {i : Nat} {s s' : Store} {pc pc' : Pc}
variable {input : Input} {w : Work}

theorem Sound.insertClaim {call : Call} {playbook : Playbook} (h : Sound playbooks s)
    (hfresh : ∀ row ∈ s.rows, row.executionId ≠ input.id)
    (htaken : claimTaken s.rows call playbook = false) :
    Sound playbooks (s.insertClaim i (claimRow input call playbook)) := by
  refine ⟨?_, ?_, ?_, ?_, ?_, ?_⟩
  · simp only [Store.insertClaim, map_append, h.claims, map_cons, map_nil]
  · simp only [Store.insertClaim, map_append]
    refine h.ids.append (nodup_singleton _) (disjoint_singleton.mpr ?_)
    intro hmem
    obtain ⟨row, hrow, hid⟩ := mem_map.mp hmem
    exact hfresh row hrow hid
  · simp only [Store.insertClaim, map_append]
    refine h.keys.append (nodup_singleton _) (disjoint_singleton.mpr ?_)
    intro hmem
    obtain ⟨row, hrow, hkey⟩ := mem_map.mp hmem
    exact claimTaken_eq_false htaken row hrow hkey
  · intro e he
    obtain ⟨hclaim, row, hrow, hof⟩ := h.executed e he
    exact ⟨mem_append_left _ hclaim, row, mem_append_left _ hrow, hof⟩
  · intro mail hmail
    obtain ⟨row, hrow, hid⟩ := h.mails mail hmail
    exact ⟨row, mem_append_left _ hrow, hid⟩
  · intro row hrow hstatus
    rcases mem_append.mp hrow with hold | hnew
    · exact h.faithful row hold hstatus
    · rw [mem_singleton.mp hnew] at hstatus
      exact absurd rfl hstatus

theorem Sound.noteBegun {begun : Begun} (h : Sound playbooks s) (hw : Owns playbooks i s w) :
    Sound playbooks (s.noteBegun i w.run w.steps begun) := by
  obtain ⟨own, hown, hof⟩ := hw.row
  refine ⟨h.claims, h.ids, h.keys, ?_, ?_, ?_⟩
  · intro e he
    rcases mem_append.mp he with hold | hnew
    · exact h.executed e hold
    · rw [mem_singleton.mp hnew]
      exact ⟨hw.claim, own, hown, hof.id, hof.key⟩
  · intro mail hmail
    rcases mem_noteBegun hmail with hold | ⟨hid, -⟩
    · exact h.mails mail hold
    · exact ⟨own, hown, hof.id.trans hid.symm⟩
  · intro row hrow hstatus
    have hold := h.faithful row hrow hstatus
    refine ⟨hold.entries, hold.failed_iff, hold.skips, ?_⟩
    intro mail hmail hid
    rcases mem_noteBegun hmail with hmem | ⟨hnew, -⟩
    · exact hold.mails mail hmem hid
    · -- the mail is of a run whose row is `running`
      have heq : row = own := h.row_unique hrow hown (by rw [← hid, hnew, hof.id])
      rw [heq] at hstatus
      exact absurd hof.running hstatus

theorem exists_failed_map (steps : List StepRecord) :
    (∃ entry ∈ steps.map StepRecord.toUnlinkedStep, entry.outcome = .failed) ↔
      ∃ entry ∈ steps, entry.outcome = .failed := by
  simp only [mem_map, exists_exists_and_eq_and]

theorem Owns.faithful {run : Running} {steps : List UnlinkedStep} {failed : Bool} {row : Execution}
    (h : Owns playbooks i s ⟨run, steps, failed, []⟩) (hof : RowOf run row) :
    Faithful playbooks s.mails (completeRow D input steps failed row) := by
  have hsteps : (completeRow D input steps failed row).steps.map StepRecord.toUnlinkedStep =
      steps := chainSteps_steps D steps
  obtain ⟨done, hdone, hentries⟩ := h.fits.entries
  rw [append_nil] at hdone
  have hkey := hof.key
  simp only [Execution.key, Running.key, Prod.mk.injEq] at hkey
  refine ⟨⟨run.playbook, h.loaded, hkey.2.1.symm, hof.version.symm, ?_⟩, ?_, ?_, ?_⟩
  · rw [hsteps, ← hdone]
    exact hentries
  · have hstatus : (completeRow D input steps failed row).status = .failed ↔ failed = true := by
      cases failed <;> simp [completeRow]
    have hfailed := exists_failed_map (completeRow D input steps failed row).steps
    rw [hsteps] at hfailed
    rw [hstatus, h.fits.failed_iff]
    exact hfailed
  · rw [hsteps]
    exact h.fits.skips
  · rw [hsteps]
    have hmails := h.mails
    rw [← hof.id] at hmails
    exact hmails

theorem Sound.completeRun {run : Running} {steps : List UnlinkedStep} {failed : Bool}
    (h : Sound playbooks s) (hw : Owns playbooks i s ⟨run, steps, failed, []⟩) :
    Sound playbooks (s.completeRun D input run steps failed) := by
  obtain ⟨own, hown, hof⟩ := hw.row
  refine ⟨?_, ?_, ?_, ?_, ?_, ?_⟩
  · rw [s.map_completeRun run steps failed _ fun _ => rfl]
    exact h.claims
  · rw [s.map_completeRun run steps failed _ fun _ => rfl]
    exact h.ids
  · rw [s.map_completeRun run steps failed _ fun _ => rfl]
    exact h.keys
  · intro e he
    obtain ⟨hclaim, row, hrow, hid, hkey⟩ := h.executed e he
    obtain ⟨row', hrow', hid', hkey'⟩ := Store.mem_completeRun hrow
    exact ⟨hclaim, row', hrow', hid'.trans hid, hkey'.trans hkey⟩
  · intro mail hmail
    obtain ⟨row, hrow, hid⟩ := h.mails mail hmail
    obtain ⟨row', hrow', hid', -⟩ := Store.mem_completeRun hrow
    exact ⟨row', hrow', hid'.trans hid⟩
  · intro row hrow hstatus
    obtain ⟨old, hold, rfl⟩ := mem_map.mp hrow
    by_cases hid : old.executionId = run.executionId
    · rw [if_pos hid]
      obtain rfl : old = own := h.row_unique hold hown (hid.trans hof.id.symm)
      exact hw.faithful hof
    · rw [if_neg hid] at hstatus ⊢
      exact h.faithful old hold hstatus

theorem Sound.effect (h : Sound playbooks s) (hpc : Stands playbooks i s pc)
    (hadm : admissible D input s pc) : Sound playbooks (effect D i input s pc) := by
  rcases effect_cases D i input s pc with heq | ⟨call, playbook, rest, rfl, htaken, heq⟩ |
    ⟨w, begun, hw, -, heq⟩ | ⟨run, steps, failed, rfl, heq⟩
  · rw [heq]
    exact h
  · rw [heq]
    exact h.insertClaim hadm.1 htaken
  · rw [heq]
    exact h.noteBegun (hpc.owns w hw)
  · rw [heq]
    exact h.completeRun (hpc.owns _ rfl)

theorem writeOnce_update {old new : Execution} (h : writeOnce (.update old new) = .ok ()) :
    old.status = .running := by
  simp only [writeOnce, bind_eq_ok, refuseIf_eq_ok] at h
  obtain ⟨-, hold, -⟩ := h
  simpa using hold

theorem completed_effect (hadm : admissible D input s pc) {row : Execution} (hrow : row ∈ s.rows)
    (hstatus : row.status ≠ .running) : row ∈ (effect D i input s pc).rows := by
  rcases effect_cases D i input s pc with heq | ⟨call, playbook, rest, -, -, heq⟩ |
    ⟨w, begun, -, -, heq⟩ | ⟨run, steps, failed, rfl, heq⟩
  · rw [heq]
    exact hrow
  · rw [heq]
    exact mem_append_left _ hrow
  · rw [heq]
    exact hrow
  · rw [heq]
    refine mem_map.mpr ⟨row, hrow, if_neg ?_⟩
    intro hid
    exact hstatus (writeOnce_update (hadm row hrow hid))

end Table

section Ending
variable {D : Digests} {i : Nat} {s s' : Store} {pc pc' : Pc} {input : Input}

theorem exists_called (D : Digests) (i : Nat) (s : Store) (hpc : pc ≠ .returned)
    (hrej : pc ≠ .rejected) : ∃ s' pc', Called (calls D) i s pc s' pc' := by
  cases pc with
  | claim call playbook rest => exact ⟨s, _, .failed {} rfl⟩
  | complete run steps failed => exact ⟨s, _, .failed {} rfl⟩
  | returned => exact absurd rfl hpc
  | rejected => exact absurd rfl hrej
  | _ => exact ⟨_, _, .answered (.intro {} trivial)⟩

end Ending

section Result
variable {D : Digests} {playbooks : List Playbook} {i : Nat} {s s' : Store} {pc pc' : Pc}
variable {input : Input}

theorem Stands.called (hs : Sound playbooks s) (h : Stands playbooks i s pc)
    (hact : Called (calls D) i s pc s' pc') : Stands playbooks i s' pc' := by
  obtain ⟨_, hmoves⟩ := moves_called hact
  refine ⟨hmoves.settles, List.Subset.trans hmoves.ahead h.ahead, ?_⟩
  intro w hw
  rcases called_cases hact with ⟨input, hadm, rfl, rfl | hfail⟩ | ⟨-, hfail⟩
  · exact h.owns_resume hs hadm hw
  · cases (moves_afterFailure input s hfail).1.symm.trans hw
  · cases (moves_afterFailure {} s hfail).1.symm.trans hw

theorem soar_outline (D : Digests) (playbooks : List Playbook) :
    Outline (soar D playbooks) (fun _ s => Sound playbooks s) (Stands playbooks) where
  spawn := by
    intro n s pc hs hstart
    obtain ⟨call, rfl⟩ := hstart
    refine ⟨hs, Pc.noConfusion, ?_, ?_⟩
    · intro playbook hmem
      exact (perm_insertionSort _ playbooks).mem_iff.mp hmem
    · intro w hw
      cases hw
  self := by
    intro n i s pc s' pc' _ hs hpc hact
    refine ⟨?_, hpc.called hs hact⟩
    rcases called_cases hact with ⟨input, hadm, rfl, -⟩ | ⟨rfl, -⟩
    · exact hs.effect hpc hadm
    · exact hs
  other := by
    intro n i j s pc s' pc' qc hij hs hpc hqc hact
    refine ⟨hqc.settles, hqc.ahead, ?_⟩
    intro w hw
    rcases called_cases hact with ⟨input, hadm, rfl, -⟩ | ⟨rfl, -⟩
    · exact (hqc.owns w hw).effect_other hs hpc hij
    · exact hqc.owns w hw
  env := fun _ henv => henv.elim

theorem sound_empty (playbooks : List Playbook) : Sound playbooks ⟨[], [], [], []⟩ := by
  refine ⟨rfl, nodup_nil, nodup_nil, ?_, ?_, ?_⟩ <;> intro _ hmem <;> cases hmem

theorem completed_run {p q : Pool Store Pc} {row : Execution} (hrun : Run (soar D playbooks) p q)
    (hrow : row ∈ p.store.rows) (hstatus : row.status ≠ .running) : row ∈ q.store.rows := by
  refine run_invariant (I := fun p => row ∈ p.store.rows) ?_ hrun hrow
  intro p q hmem hstep
  cases hstep with
  | spawn => exact hmem
  | act _ hact =>
    rcases called_cases hact with ⟨input, hadm, rfl, -⟩ | ⟨rfl, -⟩
    · exact completed_effect hadm hmem hstatus
    · exact hmem
  | env henv => exact henv.elim

theorem Sound.executed_once (h : Sound playbooks s) {e e' : Executed} (he : e ∈ s.executed)
    (he' : e' ∈ s.executed) (hkey : e.key = e'.key) :
    e.call = e'.call ∧ e.executionId = e'.executionId := by
  obtain ⟨hclaim, row, hrow, hid, hrowKey⟩ := h.executed e he
  obtain ⟨hclaim', row', hrow', hid', hrowKey'⟩ := h.executed e' he'
  have hsame : row = row' :=
    inj_on_of_nodup_map h.keys hrow hrow' (hrowKey.trans (hkey.trans hrowKey'.symm))
  have hids : e.executionId = e'.executionId := by rw [← hid, ← hid', hsame]
  rw [← hids] at hclaim'
  exact ⟨h.owner_unique hclaim hclaim', hids⟩

/-- Playbooks run at most once for an incident, and their records say what was done. -/
theorem playbooks_run_once (D : Digests) (playbooks : List Playbook) {p : Pool Store Pc}
    (hrun : Run (soar D playbooks) ⟨⟨[], [], [], []⟩, []⟩ p) :
    (∀ e ∈ p.store.executed, ∀ e' ∈ p.store.executed, e.key = e'.key →
      e.call = e'.call ∧ e.executionId = e'.executionId) ∧
    (∀ row ∈ p.store.rows, row.status ≠ .running → Faithful playbooks p.store.mails row) ∧
    (∀ row ∈ p.store.rows, row.status ≠ .running → ∀ q, Run (soar D playbooks) p q →
      row ∈ q.store.rows ∧
        ∀ row' ∈ q.store.rows, row'.executionId = row.executionId → row' = row) ∧
    (∀ old new, old.status ≠ .running → writeOnce (.update old new) ≠ .ok () ∧
      writeOnce (.delete old) ≠ .ok () ∧ writeOnce .truncate ≠ .ok ()) ∧
    ∀ i pc, p.threads[i]? = some pc → pc ≠ .rejected ∧
      (pc ≠ .returned → ∃ s' pc', (soar D playbooks).act i p.store pc s' pc') ∧
      ∀ s' pc', (soar D playbooks).act i p.store pc s' pc' → pc'.left < pc.left := by
  have hinitial := Holds.initial (L := Stands playbooks) (G := fun _ s => Sound playbooks s)
    (sound_empty playbooks)
  have hp := (soar_outline D playbooks).run hinitial hrun
  refine ⟨?_, hp.store.faithful, ?_, ?_, ?_⟩
  · intro e he e' he' hkey
    exact hp.store.executed_once he he' hkey
  · intro row hrow hstatus q hq
    have hkept := completed_run hq hrow hstatus
    refine ⟨hkept, ?_⟩
    intro row' hrow' hid
    exact ((soar_outline D playbooks).run hp hq).store.row_unique hrow' hkept hid
  · intro old new hold
    refine ⟨fun h => hold (writeOnce_update h), ?_, ?_⟩
    · intro h
      cases h
    · intro h
      cases h
  · intro i pc hi
    have hsettles := (hp.thread i pc hi).settles
    exact ⟨hsettles, fun hpc => exists_called D i p.store hpc hsettles,
      fun s' pc' hact => (moves_called hact).elim fun _ h => h.left⟩

end Result

section Sample

/-- The store and the counter after some answered commands of the first call. -/
def advance (D : Digests) : List Input → Store → Pc → Store × Pc
  | [], s, pc => (s, pc)
  | input :: rest, s, pc => advance D rest (effect D 0 input s pc) (resume input s pc)

def Legal (D : Digests) : List Input → Store → Pc → Prop
  | [], _, _ => True
  | input :: rest, s, pc =>
    admissible D input s pc ∧ Legal D rest (effect D 0 input s pc) (resume input s pc)

theorem run_advance {D : Digests} {playbooks : List Playbook} {inputs : List Input} {s : Store}
    {pc : Pc} (h : Legal D inputs s pc) :
    Run (soar D playbooks) ⟨s, [pc]⟩ ⟨(advance D inputs s pc).1, [(advance D inputs s pc).2]⟩ := by
  induction inputs generalizing s pc with
  | nil => exact .refl
  | cons input rest ih =>
    have hact : (soar D playbooks).act 0 s pc (effect D 0 input s pc) (resume input s pc) :=
      .answered (.intro input h.1)
    have hstep : Step (soar D playbooks) ⟨s, [pc]⟩ ⟨effect D 0 input s pc, [resume input s pc]⟩ :=
      .act (i := 0) rfl hact
    exact .head hstep (ih h.2)

def sampleDigests : Digests := ⟨fun _ => [], fun _ => ""⟩

def samplePlaybook : Playbook where
  id := "contain"
  version := 1
  trustSources := ["rule"]
  severityIdGte := 4
  steps := [⟨"tell", .email, .live, some ⟨"incident", "see the console"⟩⟩,
    ⟨"cut-off", .isolate, .dryRun, none⟩]

def sampleCall : Call where
  incident := ⟨"incident", "org", "agent", "title", 5, "rule"⟩
  notify := some ⟨"guard", "analyst"⟩

/-- The run is selected, claimed and begun; the send fails; the other step is skipped. -/
def sampleInputs : List Input :=
  [{}, { id := "run" }, {}, {}, { send := .failed "EAUTH" }, {}, {}, {}]

def samplePool : Pool Store Pc :=
  let ended := advance sampleDigests sampleInputs ⟨[], [], [], []⟩
    (.select sampleCall (sortPlaybooks [samplePlaybook]))
  ⟨ended.1, [ended.2]⟩

theorem sample_soar_run :
    Run (soar sampleDigests [samplePlaybook]) ⟨⟨[], [], [], []⟩, []⟩ samplePool := by
  refine .head (.spawn ⟨sampleCall, rfl⟩) (run_advance ?_)
  refine ⟨trivial, ⟨?_, rfl⟩, trivial, trivial, trivial, trivial, trivial, ?_, trivial⟩
  · intro row hrow
    cases hrow
  · intro row hrow _
    rw [mem_singleton.mp hrow]
    rfl

/-- The record of a run that failed, with its mail. -/
theorem sample_playbook_recorded :
    (∃ row ∈ samplePool.store.rows, row.status = .failed ∧
      row.steps.map (fun entry => entry.outcome) = [.failed, .skipped]) ∧
    samplePool.store.mails.map MailAttempt.step = [0] ∧
    ∀ row ∈ samplePool.store.rows, row.status ≠ .running →
      Faithful [samplePlaybook] samplePool.store.mails row :=
  ⟨⟨_, mem_singleton_self _, rfl, rfl⟩, rfl,
    (playbooks_run_once sampleDigests [samplePlaybook] sample_soar_run).2.1⟩

end Sample

end CyberGuard.Soar
