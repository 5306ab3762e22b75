import Mathlib.Algebra.BigOperators.Group.List.Basic
import Mathlib.Algebra.Ring.Nat
import Mathlib.Data.List.Infix
import Mathlib.Logic.Relation

/-!
# Threads over one shared store

A program is given by the program counters a thread may start at, by what one
thread does to the store in one atomic command, and by what the environment may
do to the store on its own. A pool runs any number of such threads, interleaved
command by command. The number a thread acts under is its place in the pool.

The two rules below are the whole proof method: one global assertion on the
store with one assertion for each thread, and counting the threads of a kind.

A handler that waits at each call of a store is such a thread. The call does something
to the stores and is answered; or it fails, after its effect or without it, and the
handler goes where its error handling takes it. `Calls` gives these for every program
counter. What a call takes from outside (random values, what a cursor returns) is its
input, of which `admissible` says what may be relied on. A program counter with no
`failed` successor waits for no store.

`EventRecord` is the record of a run, newest first, where each event is right for the
events before it: what is right for an event is then read off at every point of the record.
-/

namespace Interleaving
set_option autoImplicit false
open List

universe u v w
variable {σ : Type u} {Pc : Type v}

structure Program (σ : Type u) (Pc : Type v) where
  start : σ → Pc → Prop
  act : Nat → σ → Pc → σ → Pc → Prop
  env : σ → σ → Prop

/-- The same program where a thread's command runs only when `allowed`. -/
def Program.guard (P : Program σ Pc) (allowed : σ → Pc → Prop) : Program σ Pc where
  start := P.start
  act := fun i s pc s' pc' => allowed s pc ∧ P.act i s pc s' pc'
  env := P.env

/-- The same program with some of a thread's commands left out. -/
def Program.restrict (P : Program σ Pc) (allowed : σ → Pc → σ → Pc → Prop) : Program σ Pc where
  start := P.start
  act := fun i s pc s' pc' => P.act i s pc s' pc' ∧ allowed s pc s' pc'
  env := P.env

/-- The same program with a record of what happened at its commands. -/
def Program.record {ε : Type w} (P : Program σ Pc) (event : Pc → Pc → Option ε) :
    Program (σ × List ε) Pc where
  start := fun s pc => P.start s.1 pc
  act := fun i s pc s' pc' => P.act i s.1 pc s'.1 pc' ∧ s'.2 = s.2 ++ (event pc pc').toList
  env := fun s s' => P.env s.1 s'.1 ∧ s'.2 = s.2

structure Pool (σ : Type u) (Pc : Type v) where
  store : σ
  threads : List Pc

inductive Step (P : Program σ Pc) : Pool σ Pc → Pool σ Pc → Prop where
  | spawn {s : σ} {ts : List Pc} {pc : Pc} :
      P.start s pc → Step P ⟨s, ts⟩ ⟨s, ts ++ [pc]⟩
  | act {s s' : σ} {ts : List Pc} {i : Nat} {pc pc' : Pc} :
      ts[i]? = some pc → P.act i s pc s' pc' → Step P ⟨s, ts⟩ ⟨s', ts.set i pc'⟩
  | env {s s' : σ} {ts : List Pc} : P.env s s' → Step P ⟨s, ts⟩ ⟨s', ts⟩

abbrev Run (P : Program σ Pc) : Pool σ Pc → Pool σ Pc → Prop := Relation.ReflTransGen (Step P)

variable {P : Program σ Pc}

variable {s : σ} {ts : List Pc} {i : Nat} {pc pc' qc : Pc} {p q : Pool σ Pc} {G : Nat → σ → Prop}
  {L : Nat → σ → Pc → Prop}

theorem Step.next {s' : σ} (hi : i < ts.length) (h : P.act i s pc s' pc') :
    Step P ⟨s, ts.set i pc⟩ ⟨s', ts.set i pc'⟩ := by
  have hstep : Step P ⟨s, ts.set i pc⟩ ⟨s', (ts.set i pc).set i pc'⟩ :=
    .act (List.getElem?_set_self hi) h
  rw [set_set] at hstep
  exact hstep

theorem Step.last {s' : σ} (h : P.act ts.length s pc s' pc') :
    Step P ⟨s, ts ++ [pc]⟩ ⟨s', ts ++ [pc']⟩ := by
  have hstep : Step P ⟨s, ts ++ [pc]⟩ ⟨s', (ts ++ [pc]).set ts.length pc'⟩ :=
    .act List.getElem?_concat_length h
  rw [set_append_right _ _ (Nat.le_refl _), Nat.sub_self] at hstep
  exact hstep

theorem run_invariant {I : Pool σ Pc → Prop} (step : ∀ p q, I p → Step P p q → I q)
    (hrun : Run P p q) (hp : I p) : I q := by
  induction hrun with
  | refl => exact hp
  | tail _ hstep ih => exact step _ _ ih hstep

theorem Run.of_guard {allowed : σ → Pc → Prop} (h : Run (P.guard allowed) p q) : Run P p q := by
  refine Relation.ReflTransGen.mono ?_ _ _ h
  intro p q hstep
  cases hstep with
  | spawn hstart => exact .spawn hstart
  | act hi hact => exact .act hi hact.2
  | env henv => exact .env henv

/-- The assertions hold: the global one, of the number of threads and the store, and each
thread's own. -/
structure Holds (G : Nat → σ → Prop) (L : Nat → σ → Pc → Prop) (p : Pool σ Pc) : Prop where
  store : G p.threads.length p.store
  thread : ∀ i pc, p.threads[i]? = some pc → L i p.store pc

/-- A thread's command keeps its own assertion, and every other thread's. -/
structure Outline (P : Program σ Pc) (G : Nat → σ → Prop) (L : Nat → σ → Pc → Prop) : Prop where
  spawn : ∀ {n s pc}, G n s → P.start s pc → G (n + 1) s ∧ L n s pc
  self : ∀ {n i s pc s' pc'}, i < n → G n s → L i s pc → P.act i s pc s' pc' →
    G n s' ∧ L i s' pc'
  other : ∀ {n i j s pc s' pc' qc}, i ≠ j → G n s → L i s pc → L j s qc →
    P.act i s pc s' pc' → L j s' qc
  env : ∀ {n s s'}, G n s → P.env s s' → G n s' ∧ ∀ i pc, L i s pc → L i s' pc

theorem getElem?_spawn {j : Nat} (h : (ts ++ [pc])[j]? = some qc) :
    ts[j]? = some qc ∨ (j = ts.length ∧ qc = pc) := by
  rw [List.getElem?_append] at h
  split at h
  · exact Or.inl h
  · rename_i hge
    obtain ⟨hlt, rfl⟩ := List.getElem?_eq_some_iff.mp h
    rw [length_singleton] at hlt
    exact Or.inr ⟨by omega, getElem_singleton hlt⟩

theorem getElem?_act {j : Nat} (h : (ts.set i pc')[j]? = some qc) :
    (j = i ∧ qc = pc') ∨ (j ≠ i ∧ ts[j]? = some qc) := by
  by_cases hj : j = i
  · subst hj
    rw [List.getElem?_set_self'] at h
    obtain ⟨_, _, rfl⟩ := Option.map_eq_some_iff.mp h
    exact Or.inl ⟨rfl, rfl⟩
  · rw [List.getElem?_set_ne (Ne.symm hj)] at h
    exact Or.inr ⟨hj, h⟩

theorem mem_act (h : qc ∈ ts.set i pc') :
    qc = pc' ∨ qc ∈ ts :=
  (mem_or_eq_of_mem_set h).symm

theorem Outline.step (proof : Outline P G L) (hp : Holds G L p) (h : Step P p q) : Holds G L q := by
  cases h with
  | @spawn s ts pc hstart =>
    obtain ⟨hstore, hnew⟩ := proof.spawn hp.store hstart
    refine ⟨?_, ?_⟩
    · rw [length_append, length_singleton]
      exact hstore
    · intro j qc hj
      rcases getElem?_spawn hj with hold | ⟨rfl, rfl⟩
      · exact hp.thread j qc hold
      · exact hnew
  | @act s s' ts i pc pc' hi hact =>
    have hlt : i < ts.length := (List.getElem?_eq_some_iff.mp hi).1
    obtain ⟨hstore, hself⟩ := proof.self hlt hp.store (hp.thread _ _ hi) hact
    refine ⟨?_, ?_⟩
    · rw [length_set]
      exact hstore
    · intro j qc hj
      rcases getElem?_act hj with ⟨rfl, rfl⟩ | ⟨hne, hold⟩
      · exact hself
      · exact proof.other (Ne.symm hne) hp.store (hp.thread _ _ hi) (hp.thread j qc hold) hact
  | env henv =>
    obtain ⟨hstore, hkeep⟩ := proof.env hp.store henv
    exact ⟨hstore, fun j qc hj => hkeep j qc (hp.thread j qc hj)⟩

theorem Outline.run (proof : Outline P G L) (hp : Holds G L p) (h : Run P p q) : Holds G L q :=
  run_invariant (fun _ _ => proof.step) h hp

theorem Holds.initial (h : G 0 s) :
    Holds G L ⟨s, []⟩ :=
  ⟨h, fun i pc hi => by simp at hi⟩

section Counting
variable (kind : Pc → Bool)

theorem countP_act {ts : List Pc} {i : Nat} {pc : Pc} (h : ts[i]? = some pc) (pc' : Pc) :
    (ts.set i pc').countP kind + (kind pc).toNat = ts.countP kind + (kind pc').toNat := by
  obtain ⟨hi, rfl⟩ := List.getElem?_eq_some_iff.mp h
  have hpos : (kind ts[i]).toNat ≤ ts.countP kind := by
    cases hk : kind ts[i] with
    | false => simp
    | true => exact countP_pos_iff.mpr ⟨_, getElem_mem hi, hk⟩
  rw [countP_set hi]
  cases h1 : kind ts[i] <;> cases h2 : kind pc' <;> rw [h1] at hpos <;>
    simp only [Bool.toNat_true, Bool.toNat_false, if_true, Bool.false_eq_true, if_false] at hpos ⊢ <;>
    omega

theorem countP_spawn (ts : List Pc) (pc : Pc) :
    (ts ++ [pc]).countP kind = ts.countP kind + (kind pc).toNat := by
  rw [countP_append]
  cases h : kind pc <;> simp [h]

end Counting

section Summing
variable (weight : Pc → Nat)

theorem sum_act {ts : List Pc} {i : Nat} {pc : Pc} (h : ts[i]? = some pc) (pc' : Pc) :
    ((ts.set i pc').map weight).sum + weight pc = (ts.map weight).sum + weight pc' := by
  induction ts generalizing i with
  | nil => simp at h
  | cons first rest ih =>
    cases i with
    | zero =>
      obtain rfl : first = pc := by simpa using h
      simp only [set_cons_zero, map_cons, sum_cons]
      omega
    | succ i =>
      have hrest : rest[i]? = some pc := by simpa using h
      have hsum := ih hrest
      simp only [set_cons_succ, map_cons, sum_cons]
      omega

theorem sum_spawn (ts : List Pc) (pc : Pc) :
    ((ts ++ [pc]).map weight).sum = (ts.map weight).sum + weight pc := by
  simp

theorem countP_le_sum {kind : Pc → Bool} (h : ∀ pc, kind pc = true → 1 ≤ weight pc)
    (ts : List Pc) : ts.countP kind ≤ (ts.map weight).sum := by
  induction ts with
  | nil => simp
  | cons first rest ih =>
    rw [countP_cons, map_cons, sum_cons]
    have hfirst := h first
    split
    · rename_i hkind
      have := hfirst hkind
      omega
    · omega

end Summing

end Interleaving

namespace StoreCalls
set_option autoImplicit false
open Interleaving

universe u v w x
variable {σ : Type u} {Pc : Type v} {Input : Type w}

structure Calls (σ : Type u) (Pc : Type v) (Input : Type w) where
  effect : Nat → Input → σ → Pc → σ
  next : Input → σ → Pc → Pc
  failed : Input → Pc → Option Pc
  lost : Input → Pc → Option Pc
  admissible : Input → σ → Pc → Prop

def Calls.sum {Qc : Type x} (C : Calls σ Pc Input) (D : Calls σ Qc Input) :
    Calls σ (Pc ⊕ Qc) Input where
  effect := fun i input s => Sum.elim (C.effect i input s) (D.effect i input s)
  next := fun input s => Sum.map (C.next input s) (D.next input s)
  failed := fun input =>
    Sum.elim (fun pc => (C.failed input pc).map .inl) fun pc => (D.failed input pc).map .inr
  lost := fun input =>
    Sum.elim (fun pc => (C.lost input pc).map .inl) fun pc => (D.lost input pc).map .inr
  admissible := fun input s => Sum.elim (C.admissible input s) (D.admissible input s)

/-- A call answered, the only kind where no store fails. -/
inductive Answered (C : Calls σ Pc Input) (i : Nat) : σ → Pc → σ → Pc → Prop where
  | intro {s : σ} {pc : Pc} (input : Input) : C.admissible input s pc →
      Answered C i s pc (C.effect i input s pc) (C.next input s pc)

inductive Called (C : Calls σ Pc Input) (i : Nat) : σ → Pc → σ → Pc → Prop where
  | answered {s s' : σ} {pc pc' : Pc} : Answered C i s pc s' pc' → Called C i s pc s' pc'
  | failed {s : σ} {pc pc' : Pc} (input : Input) : C.failed input pc = some pc' →
      Called C i s pc s pc'
  | lost {s : σ} {pc pc' : Pc} (input : Input) : C.admissible input s pc →
      C.lost input pc = some pc' → Called C i s pc (C.effect i input s pc) pc'

end StoreCalls

namespace EventRecord
set_option autoImplicit false

universe u
variable {ε : Type u} {right : List ε → ε → Prop} {events earlier later : List ε} {e : ε}

def Recorded (right : List ε → ε → Prop) : List ε → Prop
  | [] => True
  | e :: earlier => right earlier e ∧ Recorded right earlier

theorem Recorded.of_suffix (h : Recorded right events) (hsuffix : earlier <:+ events) :
    Recorded right earlier := by
  induction events with
  | nil => rwa [List.suffix_nil.mp hsuffix]
  | cons e events ih =>
    rcases List.suffix_cons_iff.mp hsuffix with rfl | hsuffix
    · exact h
    · exact ih h.2 hsuffix

theorem Recorded.at (h : Recorded right events) (hsuffix : e :: earlier <:+ events) :
    right earlier e :=
  (h.of_suffix hsuffix).1

theorem Recorded.append_toList {shown : Option ε} (h : Recorded right events)
    (hshown : ∀ e ∈ shown, right events e) : Recorded right (shown.toList ++ events) := by
  cases shown with
  | none => exact h
  | some e => exact ⟨hshown e rfl, h⟩

end EventRecord
