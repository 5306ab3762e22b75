import CyberGuard.Agent.Conservation

/-!
# What an attempt shows outside

Which steps send, which take a result, and what either does to the POST in flight:
all that a peer of the loop needs to know of it.
-/

namespace CyberGuard.Agent
set_option autoImplicit false
open CyberGuard.Wire

def State.underWay (a : State) : Bool :=
  match a.pc with
  | .sending | .finalSending _ _ _ => true
  | _ => false

variable {c : Config} {a b : State}

/-- Between two attempts nothing is delivered, and a POST may be formed. -/
structure Quiet (a b : State) : Prop where
  delivered : b.ledger.delivered = a.ledger.delivered
  formed : a.ledger.formed <+: b.ledger.formed
  underWay : b.underWay = true → a.underWay = true ∧ b.onTheWay = a.onTheWay

theorem Quiet.idle (hledger : b.ledger = a.ledger) (hidle : b.underWay = false) : Quiet a b where
  delivered := by rw [hledger]
  formed := by simp [hledger]
  underWay := fun hway => absurd (hidle.symm.trans hway) (by simp)

theorem quiet_decideBatch (c : Config) (a : State) (due : Bool) : Quiet a (a.decideBatch c due) := by
  unfold State.decideBatch
  split <;> exact Quiet.idle rfl rfl

theorem quiet_of_silent (h : Step c .silent a b) : Quiet a b := by
  cases h with
  | enqueue event =>
    refine ⟨?_, ?_, fun hway => ⟨hway, rfl⟩⟩
    · simp only [State.enqueue]
      split <;> rfl
    · simp only [State.enqueue]
      split <;> exact List.prefix_rfl
  | tick _ => exact ⟨rfl, List.prefix_rfl, fun hway => ⟨hway, rfl⟩⟩
  | top _ =>
    refine Quiet.idle rfl ?_
    cases hpending : a.inFlight <;> simp [State.underWay, State.atTop, hpending]
  | readLen _ =>
    unfold State.readLen
    split
    · exact quiet_decideBatch c a true
    · exact Quiet.idle rfl rfl
  | readOldest _ => exact quiet_decideBatch c a _
  | form _ =>
    refine ⟨rfl, List.prefix_append _ _, fun hway => ?_⟩
    exact absurd hway (by simp [State.underWay, State.formPending])
  | wake | signingFailed | shutdown | giveUp | signingFailedFinal | report =>
    exact Quiet.idle rfl rfl
  | finish deadline _ =>
    cases hpending : a.inFlight with
    | some pending =>
      refine Quiet.idle ?_ ?_ <;> simp [State.finish, State.underWay, hpending]
    | none =>
      refine ⟨?_, ?_, ?_⟩
      · simp [State.finish, State.formBatch, hpending]
      · simp [State.finish, State.formBatch, hpending]
      · simp [State.finish, State.underWay, hpending]

theorem sent_spec {env : OuterEnvelope} (h : Step c (.sent env) a b) :
    ∃ batch, b.onTheWay = some batch ∧ env.agentId = c.agentId ∧ env.body.events = batch.events ∧
      a.onTheWay = some batch ∧ b.ledger.delivered = a.ledger.delivered ∧
      b.ledger.formed = a.ledger.formed := by
  cases h with
  | send sentAt nonce hpc hpending =>
    exact ⟨_, by simp [State.onTheWay, State.noteAttempt, hpending], rfl, rfl,
      by simp [State.onTheWay, hpc, hpending], rfl, rfl⟩
  | sendFinal sentAt nonce hpc =>
    exact ⟨_, by simp [State.onTheWay, State.noteAttempt], rfl, rfl,
      by simp [State.onTheWay, hpc], rfl, rfl⟩

/-- A result settles the POST in flight: delivered, or not. -/
theorem ended_spec {result : SendResult} (h : Step c (.ended result) a b) :
    a.underWay = true ∧ b.underWay = false ∧ b.ledger.formed = a.ledger.formed ∧
      (b.ledger.delivered = a.ledger.delivered ∨
        ∃ batch, a.onTheWay = some batch ∧ isDelivered result.attempt = true ∧
          b.ledger.delivered = a.ledger.delivered ++ [batch]) := by
  cases h with
  | @ended _ pending _ hpc hpending =>
    have hway : a.onTheWay = some pending.batch := by simp [State.onTheWay, hpc, hpending]
    refine ⟨by simp [State.underWay, hpc], ?_⟩
    cases hresult : result.attempt with
    | error error => exact ⟨rfl, rfl, Or.inl rfl⟩
    | ok attempt =>
      cases attempt with
      | delivered => exact ⟨rfl, rfl, Or.inr ⟨pending.batch, hway, rfl, rfl⟩⟩
      | transient | rejected =>
        simp only [State.settle]
        split <;> exact ⟨rfl, rfl, Or.inl rfl⟩
  | @endedFinal _ batch deadline bounded _ hpc =>
    have hway : a.onTheWay = some batch := by simp [State.onTheWay, hpc]
    refine ⟨by simp [State.underWay, hpc], rfl, ?_⟩
    cases hdelivered : isDelivered result.attempt with
    | true =>
      refine ⟨?_, Or.inr ⟨batch, hway, rfl, ?_⟩⟩ <;> simp [State.settleFinal, hdelivered]
    | false =>
      refine ⟨?_, Or.inl ?_⟩ <;> simp [State.settleFinal, hdelivered]

end CyberGuard.Agent
