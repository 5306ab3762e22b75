import CyberGuard.Forensic.Seal
import CyberGuard.Soar.Playbooks

/-!
# The chain of an execution record

`chainSteps` links the steps of a record as `computeChain` links the events of an export, so the
two have the same head over the same JSON values. The link of a step is the head up to it, and
the head alone determines the steps.
-/

namespace CyberGuard.Soar
set_option autoImplicit false
open CyberGuard.Forensic

def UnlinkedStep.toJson {N : Type} (step : UnlinkedStep) : Json N := .object
  [("step_id", .string step.stepId), ("action", .string step.action.text),
    ("mode", .string step.mode.text), ("outcome", .string step.outcome.text),
    ("detail", .string step.detail), ("started_at", .string step.startedAt),
    ("finished_at", .string step.finishedAt)]

def recomputeHead (D : Digests) (steps : List StepRecord) : String :=
  (chainSteps D (steps.map StepRecord.toUnlinkedStep)).2

def computeChainHex {N : Type} (P : Platform N) (events : List (Json N)) : Option String :=
  (computeChain P events).map toHex

section links
variable (D : Digests)

/-- What is hashed of a step. -/
def canonicalStep (step : UnlinkedStep) : Bytes := utf8 (D.canonicalize step)

theorem linkSteps_head (link : Bytes) (steps : List UnlinkedStep) :
    (linkSteps D link steps).2 =
      (steps.map (canonicalStep D)).foldl (HashChain.link D.sha256) link := by
  induction steps generalizing link with
  | nil => rfl
  | cons step rest ih => exact ih _

theorem chainSteps_head (steps : List UnlinkedStep) : (chainSteps D steps).2 =
    toHex (HashChain.head D.sha256 (steps.map (canonicalStep D))) :=
  congrArg toHex (linkSteps_head D _ steps)

theorem linkSteps_link {link : Bytes} {steps : List UnlinkedStep} {i : Nat} {record : StepRecord}
    (h : (linkSteps D link steps).1[i]? = some record) :
    record.link = toHex (linkSteps D link (steps.take (i + 1))).2 := by
  induction steps generalizing link i with
  | nil => cases h
  | cons step rest ih =>
    cases i with
    | zero =>
      cases h
      rfl
    | succ i => exact ih h

end links

theorem SoarAction.text_injective {action action' : SoarAction} (h : action.text = action'.text) :
    action = action' := by
  cases action <;> cases action' <;> first | rfl | exact absurd h (by decide)

theorem StepMode.text_injective {mode mode' : StepMode} (h : mode.text = mode'.text) :
    mode = mode' := by
  cases mode <;> cases mode' <;> first | rfl | exact absurd h (by decide)

theorem StepOutcome.text_injective {outcome outcome' : StepOutcome}
    (h : outcome.text = outcome'.text) : outcome = outcome' := by
  cases outcome <;> cases outcome' <;> first | rfl | exact absurd h (by decide)

section chains
variable {N : Type} {P : Platform N} {D : Digests} {steps steps' : List UnlinkedStep}

theorem UnlinkedStep.toJson_injective {step step' : UnlinkedStep}
    (h : Json.Same (step.toJson : Json N) step'.toJson) : step = step' := by
  have haction := SoarAction.text_injective (same_string "action" h rfl rfl)
  have hmode := StepMode.text_injective (same_string "mode" h rfl rfl)
  have houtcome := StepOutcome.text_injective (same_string "outcome" h rfl rfl)
  have hid := same_string "step_id" h rfl rfl
  have hdetail := same_string "detail" h rfl rfl
  have hstarted := same_string "started_at" h rfl rfl
  have hfinished := same_string "finished_at" h rfl rfl
  cases step
  cases step'
  simp only at haction hmode houtcome hid hdetail hstarted hfinished
  subst haction hmode houtcome hid hdetail hstarted hfinished
  rfl

theorem mapM_canonicalBytes
    (hjcs : ∀ step : UnlinkedStep, P.canonicalize step.toJson = some (D.canonicalize step))
    (steps : List UnlinkedStep) :
    (steps.map UnlinkedStep.toJson).mapM (canonicalBytes P) = some (steps.map (canonicalStep D)) := by
  induction steps with
  | nil => rfl
  | cons step rest ih =>
    have hstep : canonicalBytes P step.toJson = some (canonicalStep D step) :=
      congrArg (Option.map utf8) (hjcs step)
    rw [List.map_cons, List.mapM_cons, hstep, ih]
    rfl

/-- One chain for the two services: the same head over the same values, whatever links are stored;
the steps are stored in order, each with the head up to it; and a head has one list of steps. -/
theorem playbook_chain_is_forensic_chain (hsha : D.sha256 = P.sha256)
    (hjcs : ∀ step : UnlinkedStep, P.canonicalize step.toJson = some (D.canonicalize step))
    (steps : List UnlinkedStep) :
    computeChainHex P (steps.map UnlinkedStep.toJson) = some (chainSteps D steps).2 ∧
    (∀ records : List StepRecord, records.map StepRecord.toUnlinkedStep = steps →
      recomputeHead D records = (chainSteps D steps).2) ∧
    (chainSteps D steps).1.map StepRecord.toUnlinkedStep = steps ∧
    (∀ i record, (chainSteps D steps).1[i]? = some record →
      record.link = (chainSteps D (steps.take (i + 1))).2) ∧
    ∀ steps', Set.InjOn P.sha256 {b | Hashed P (steps.map UnlinkedStep.toJson) b ∨
        Hashed P (steps'.map UnlinkedStep.toJson) b} →
      (chainSteps D steps).2 = (chainSteps D steps').2 → steps = steps' := by
  have hchain (steps : List UnlinkedStep) : computeChain P (steps.map UnlinkedStep.toJson) =
      some (HashChain.head D.sha256 (steps.map (canonicalStep D))) := by
    rw [computeChain_eq, mapM_canonicalBytes hjcs, hsha]
    rfl
  refine ⟨?_, ?_, chainSteps_steps D steps, ?_, ?_⟩
  · rw [computeChainHex, hchain, chainSteps_head]
    rfl
  · rintro records rfl
    rfl
  · intro i record hrecord
    exact linkSteps_link D hrecord
  · intro steps' hinj hheads
    rw [chainSteps_head, chainSteps_head] at hheads
    have hsame := computeChain_injective hinj (hchain steps)
      (by rw [hchain, toHex_injective hheads])
    rw [List.forall₂_map_left_iff, List.forall₂_map_right_iff] at hsame
    exact List.forall₂_eq_eq_eq ▸ hsame.imp fun _ _ => UnlinkedStep.toJson_injective

end chains

def chainDigests : Digests :=
  ⟨samplePlatform.sha256, fun step => (step.toJson : Json Nat).normal.write⟩

def chainedSteps : List UnlinkedStep :=
  [⟨"isolate", .isolate, .dryRun, .wouldDo, "", "2026-05-28T19:47:09.000Z",
      "2026-05-28T19:47:09.500Z"⟩,
    ⟨"notify", .email, .live, .done, "sent", "2026-05-28T19:47:10.000Z",
      "2026-05-28T19:47:11.000Z"⟩]

/-- The link stored with the last of two steps is the head of the export of both. -/
theorem sample_step_chain : ∃ record,
    (chainSteps chainDigests chainedSteps).1[1]? = some record ∧
      computeChainHex samplePlatform (chainedSteps.map UnlinkedStep.toJson) = some record.link := by
  obtain ⟨hhead, -, -, hlink, -⟩ :=
    playbook_chain_is_forensic_chain (P := samplePlatform) (D := chainDigests) rfl
      (fun _ => rfl) chainedSteps
  exact ⟨_, rfl, hhead.trans (congrArg some (hlink 1 _ rfl).symm)⟩

end CyberGuard.Soar
