import Mathlib.Logic.Basic

/-!
# Programs that may be cut anywhere

A program looks at a state and asks for operations on it. A device says how an
operation may be answered and what the machine leaves when it goes down inside
one. A run is a whole program or any part of it up to the instant the machine
goes down, so an assertion about every end of every run is one about every
instant.

The rules below prove such an assertion together with a postcondition for the
programs that end, by the structure of the program.
-/

namespace CrashLogic
set_option autoImplicit false

variable {σ Op ε ε' α β : Type} {Ans : Op → Type}

/-- A program that ends with a value or stops with an error. -/
inductive Prog (σ Op : Type) (Ans : Op → Type) (ε α : Type) where
  | ret (a : α)
  | stop (e : ε)
  | look (k : σ → Prog σ Op Ans ε α)
  | act (o : Op) (k : Ans o → Prog σ Op Ans ε α)

namespace Prog

protected def bind : Prog σ Op Ans ε α → (α → Prog σ Op Ans ε β) → Prog σ Op Ans ε β
  | .ret a, f => f a
  | .stop e, _ => .stop e
  | .look k, f => .look fun s => (k s).bind f
  | .act o k, f => .act o fun r => (k r).bind f

instance : Monad (Prog σ Op Ans ε) where
  pure := .ret
  bind := .bind

theorem bind_assoc {γ : Type} (p : Prog σ Op Ans ε α) (f : α → Prog σ Op Ans ε β)
    (g : β → Prog σ Op Ans ε γ) : p >>= f >>= g = p >>= fun a => f a >>= g := by
  change (p.bind f).bind g = p.bind fun a => (f a).bind g
  induction p with
  | ret a => rfl
  | stop e => rfl
  | look k ih => exact congrArg Prog.look (funext ih)
  | act o k ih => exact congrArg (Prog.act o) (funext ih)

def handle : Prog σ Op Ans ε α → (ε → Prog σ Op Ans ε' α) → Prog σ Op Ans ε' α
  | .ret a, _ => .ret a
  | .stop e, h => h e
  | .look k, h => .look fun s => (k s).handle h
  | .act o k, h => .act o fun r => (k r).handle h

def ofExcept : Except ε α → Prog σ Op Ans ε α
  | .ok a => .ret a
  | .error e => .stop e

/-- The program for each element, in order, until one stops. -/
def forEach (f : α → Prog σ Op Ans ε Unit) : List α → Prog σ Op Ans ε Unit
  | [] => .ret ()
  | x :: xs => (f x).bind fun _ => forEach f xs

end Prog

structure Device (σ Op : Type) (Ans : Op → Type) where
  answers : (o : Op) → σ → Ans o → σ → Prop
  /-- What may be left when the machine goes down inside the operation. -/
  partly : Op → σ → σ → Prop

inductive Outcome (ε α : Type) where
  | down
  | finished (result : Except ε α)

inductive Run (V : Device σ Op Ans) : Prog σ Op Ans ε α → σ → Outcome ε α → σ → Prop where
  | down {p : Prog σ Op Ans ε α} {s : σ} : Run V p s .down s
  | ret {a : α} {s : σ} : Run V (.ret a) s (.finished (.ok a)) s
  | stop {e : ε} {s : σ} : Run V (.stop e) s (.finished (.error e)) s
  | look {k : σ → Prog σ Op Ans ε α} {s t : σ} {out : Outcome ε α} :
      Run V (k s) s out t → Run V (.look k) s out t
  | act {o : Op} {k : Ans o → Prog σ Op Ans ε α} {s t u : σ} {r : Ans o} {out : Outcome ε α} :
      V.answers o s r t → Run V (k r) t out u → Run V (.act o k) s out u
  | partly {o : Op} {k : Ans o → Prog σ Op Ans ε α} {s t : σ} :
      V.partly o s t → Run V (.act o k) s .down t

/-- From `s`, `C` holds at every instant, `Q` of the value and `F` of the error at the end. -/
def Wp (V : Device σ Op Ans) (C : σ → Prop) :
    Prog σ Op Ans ε α → (α → σ → Prop) → (ε → σ → Prop) → σ → Prop
  | .ret a, Q, _, s => C s ∧ Q a s
  | .stop e, _, F, s => C s ∧ F e s
  | .look k, Q, F, s => Wp V C (k s) Q F s
  | .act o k, Q, F, s =>
    C s ∧ (∀ t, V.partly o s t → C t) ∧ ∀ r t, V.answers o s r t → Wp V C (k r) Q F t

def Ends (Q : α → σ → Prop) (F : ε → σ → Prop) : Except ε α → σ → Prop
  | .ok a, s => Q a s
  | .error e, s => F e s

variable {V : Device σ Op Ans} {C : σ → Prop} {Q : α → σ → Prop} {F : ε → σ → Prop} {s t : σ}

variable {p : Prog σ Op Ans ε α}

theorem Wp.now (h : Wp V C p Q F s) : C s := by
  induction p with
  | ret | stop | act => exact h.1
  | look k ih => exact ih s h

theorem Wp.mono {Q' : α → σ → Prop} {F' : ε → σ → Prop} (h : Wp V C p Q F s)
    (hQ : ∀ a t, C t → Q a t → Q' a t) (hF : ∀ e t, C t → F e t → F' e t) : Wp V C p Q' F' s := by
  induction p generalizing s with
  | ret a => exact ⟨h.1, hQ a s h.1 h.2⟩
  | stop e => exact ⟨h.1, hF e s h.1 h.2⟩
  | look k ih => exact ih s h
  | act o k ih => exact ⟨h.1, h.2.1, fun r t hr => ih r (h.2.2 r t hr)⟩

theorem Wp.weaken {C' : σ → Prop} (h : Wp V C p Q F s) (hC : ∀ t, C t → C' t) :
    Wp V C' p (fun a t => C t ∧ Q a t) (fun e t => C t ∧ F e t) s := by
  induction p generalizing s with
  | ret | stop => exact ⟨hC s h.1, h⟩
  | look k ih => exact ih s h
  | act o k ih =>
    exact ⟨hC s h.1, fun t ht => hC t (h.2.1 t ht), fun r t hr => ih r (h.2.2 r t hr)⟩

theorem wp_of_invariant (hpartly : ∀ o s t, C s → V.partly o s t → C t)
    (hanswer : ∀ o s r t, C s → V.answers o s r t → C t) (h : C s) (p : Prog σ Op Ans ε α) :
    Wp V C p (fun _ _ => True) (fun _ _ => True) s := by
  induction p generalizing s with
  | ret | stop => exact ⟨h, trivial⟩
  | look k ih => exact ih s h
  | act o k ih =>
    exact ⟨h, fun t ht => hpartly o s t h ht, fun r t hr => ih r (hanswer o s r t h hr)⟩

theorem wp_bind {f : α → Prog σ Op Ans ε β} {Q : β → σ → Prop}
    (h : Wp V C p (fun a => Wp V C (f a) Q F) F s) : Wp V C (p >>= f) Q F s := by
  show Wp V C (p.bind f) Q F s
  induction p generalizing s with
  | ret a => exact h.2
  | stop e => exact h
  | look k ih => exact ih s h
  | act o k ih => exact ⟨h.1, h.2.1, fun r t hr => ih r (h.2.2 r t hr)⟩

theorem wp_handle {g : ε → Prog σ Op Ans ε' α} {F : ε' → σ → Prop}
    (h : Wp V C p Q (fun e => Wp V C (g e) Q F) s) : Wp V C (p.handle g) Q F s := by
  induction p generalizing s with
  | ret a => exact h
  | stop e => exact h.2
  | look k ih => exact ih s h
  | act o k ih => exact ⟨h.1, h.2.1, fun r t hr => ih r (h.2.2 r t hr)⟩

theorem Wp.andThen {f : α → Prog σ Op Ans ε β} {Q' : β → σ → Prop} (h : Wp V C p Q F s)
    (hf : ∀ a t, C t → Q a t → Wp V C (f a) Q' F t) :
    Wp V C (p >>= f) Q' F s :=
  wp_bind (h.mono hf fun _ _ _ he => he)

theorem Wp.orElse {g : ε → Prog σ Op Ans ε' α} {F' : ε' → σ → Prop} (h : Wp V C p Q F s)
    (hg : ∀ e t, C t → F e t → Wp V C (g e) Q F' t) :
    Wp V C (p.handle g) Q F' s :=
  wp_handle (h.mono (fun _ _ _ hQ => hQ) hg)

theorem wp_ofExcept {x : Except ε α} (hC : C s) (h : Ends Q F x s) :
    Wp V C (.ofExcept x) Q F s := by
  cases x with
  | ok | error => exact ⟨hC, h⟩

theorem wp_ofExcept_self {x : Except ε α} (hC : C s) :
    Wp V C (.ofExcept x) (fun a t => x = .ok a ∧ t = s) (fun e t => x = .error e ∧ t = s) s := by
  cases x with
  | ok | error => exact ⟨hC, rfl, rfl⟩

theorem wp_trivial (p : Prog σ Op Ans ε α) (s : σ) :
    Wp V (fun _ => True) p (fun _ _ => True) (fun _ _ => True) s :=
  wp_of_invariant (fun _ _ _ _ _ => trivial) (fun _ _ _ _ _ _ => trivial) trivial p

theorem wp_forEach {f : α → Prog σ Op Ans ε Unit} {I : List α → σ → Prop} {F : ε → σ → Prop}
    (step : ∀ x xs s, I (x :: xs) s → Wp V C (f x) (fun _ => I xs) F s) {xs : List α}
    (hnil : ∀ s, I [] s → C s) (h : I xs s) : Wp V C (.forEach f xs) (fun _ => I []) F s := by
  induction xs generalizing s with
  | nil => exact ⟨hnil s h, h⟩
  | cons x xs ih =>
    refine wp_bind ((step x xs s h).mono ?_ fun _ _ _ he => he)
    intro _ t _ ht
    exact ih ht

theorem Wp.sound {out : Outcome ε α} (h : Wp V C p Q F s) (hrun : Run V p s out t) :
    C t ∧ ∀ result, out = .finished result → Ends Q F result t := by
  induction hrun with
  | down => exact ⟨h.now, fun _ hout => nomatch hout⟩
  | ret | stop =>
    refine ⟨h.1, fun result hout => ?_⟩
    cases hout
    exact h.2
  | look _ ih => exact ih h
  | act hr _ ih => exact ih (h.2.2 _ _ hr)
  | partly ht => exact ⟨h.2.1 _ ht, fun _ hout => nomatch hout⟩

/-- The program run to its end where each operation is answered by a function. -/
def exec (perform : (o : Op) → σ → Ans o × σ) : Prog σ Op Ans ε α → σ → Except ε α × σ
  | .ret a, s => (.ok a, s)
  | .stop e, s => (.error e, s)
  | .look k, s => exec perform (k s) s
  | .act o k, s => exec perform (k (perform o s).1) (perform o s).2

theorem run_exec {perform : (o : Op) → σ → Ans o × σ}
    (hperform : ∀ o s, V.answers o s (perform o s).1 (perform o s).2) (p : Prog σ Op Ans ε α)
    (s : σ) : Run V p s (.finished (exec perform p s).1) (exec perform p s).2 := by
  induction p generalizing s with
  | ret a => exact .ret
  | stop e => exact .stop
  | look k ih => exact .look (ih s s)
  | act o k ih => exact .act (hperform o s) (ih _ _)

/-- What is left when the machine goes down after so many operations. -/
def cutAfter (perform : (o : Op) → σ → Ans o × σ) : Nat → Prog σ Op Ans ε α → σ → σ
  | n, .look k, s => cutAfter perform n (k s) s
  | n + 1, .act o k, s => cutAfter perform n (k (perform o s).1) (perform o s).2
  | _, _, s => s

theorem run_cutAfter {perform : (o : Op) → σ → Ans o × σ}
    (hperform : ∀ o s, V.answers o s (perform o s).1 (perform o s).2) (n : Nat)
    (p : Prog σ Op Ans ε α) (s : σ) : Run V p s .down (cutAfter perform n p s) := by
  induction p generalizing n s with
  | ret a => exact .down
  | stop e => exact .down
  | look k ih => exact .look (ih s n s)
  | act o k ih =>
    cases n with
    | zero => exact .down
    | succ n => exact .act (hperform o s) (ih _ n _)

theorem Wp.exec {perform : (o : Op) → σ → Ans o × σ}
    (hperform : ∀ o s, V.answers o s (perform o s).1 (perform o s).2) (h : Wp V C p Q F s) :
    C (exec perform p s).2 ∧ Ends Q F (exec perform p s).1 (exec perform p s).2 := by
  have hend := h.sound (run_exec hperform p s)
  exact ⟨hend.1, hend.2 _ rfl⟩

/-- What is left after any number of calls, the last one possibly cut. -/
inductive Reached (V : Device σ Op Ans) (call : Prog σ Op Ans ε α → Prop) (start : σ) : σ → Prop where
  | start : Reached V call start start
  | call {s t : σ} {p : Prog σ Op Ans ε α} {out : Outcome ε α} :
      Reached V call start s → call p → Run V p s out t → Reached V call start t

theorem Reached.invariant {call : Prog σ Op Ans ε α → Prop} {start : σ} (hstart : C start)
    (hcall : ∀ p s, call p → C s → Wp V C p Q F s) (h : Reached V call start s) : C s := by
  induction h with
  | start => exact hstart
  | call _ hp hrun ih => exact ((hcall _ _ hp ih).sound hrun).1

end CrashLogic
