import CyberGuard.Auth.Limits

/-!
# Guesses between two successes

A login that keeps its session deletes the counter of its account, the slots of the
attempts in flight included. So what the account's limit bounds is the number of
counted failures since the last success without those of the attempts that success
overtook: they are beyond the counter that is there now.
-/

namespace CyberGuard.Auth
set_option autoImplicit false
open Interleaving StoreCalls

theorem acctKey_inj {org email other : String} (h : acctKey org email = acctKey org other) :
    email = other := by
  unfold acctKey at h
  rw [String.append_assoc, String.append_assoc, String.append_assoc, String.append_assoc] at h
  have hlists := congrArg String.toList h
  simp only [String.toList_append, List.append_cancel_left_eq] at hlists
  exact String.toList_inj.mp hlists

namespace LoginPc

def unsettled : LoginPc → Bool
  | .reserve | .releaseIp _ _ _ | .lastLogin _ _ _ | .auditOk _ _ _ | .auditFail _ _
  | .done _ _ => false
  | _ => true

def counted : LoginPc → Bool
  | .auditFail count _ | .done _ count => count
  | _ => false

def cleared : LoginPc → Bool
  | .releaseIp _ _ _ | .lastLogin _ _ _ | .auditOk _ _ _ | .done (.loggedIn _ _) _ => true
  | _ => false

end LoginPc

namespace Call

/-- The attempt for the account ended in a counted failure. -/
def guessed (email : String) : Call → Bool
  | .login a pc => a.email == email && pc.counted
  | _ => false

def inFlight (email : String) : Call → Bool
  | .login a pc => a.email == email && pc.unsettled
  | _ => false

def succeeded (email : String) : Call → Bool
  | .login a pc => a.email == email && pc.cleared
  | _ => false

end Call

/-- A slot on the account's counter is one of an attempt in flight or of a counted failure. -/
theorem held_acct (email : String) (c : Call) : c.held.count (acctKey org email) =
    (c.guessed email).toNat + (c.inFlight email).toNat := by
  cases c with
  | login a pc =>
    have hip : ¬ a.ip = acctKey org email := ipKey_ne_acctKey _ org email
    by_cases hemail : a.email = email
    · have hacct : a.acct = acctKey org email := by rw [← hemail]; rfl
      have hkeys : a.keys.count (acctKey org email) = 1 := by
        simp [LoginAttempt.keys, hacct, hip]
      cases pc with
      | auditFail count user =>
        cases count <;>
          simp [Call.held, LoginAttempt.held, Call.guessed, Call.inFlight, LoginPc.counted,
            LoginPc.unsettled, hemail, hkeys]
      | done outcome count =>
        cases count <;>
          simp [Call.held, LoginAttempt.held, Call.guessed, Call.inFlight, LoginPc.counted,
            LoginPc.unsettled, hemail, hkeys]
      | _ =>
        simp [Call.held, LoginAttempt.held, Call.guessed, Call.inFlight, LoginPc.counted,
          LoginPc.unsettled, hemail, hkeys, hip]
    · have hacct : ¬ a.acct = acctKey org email := fun h => hemail (acctKey_inj h)
      have hkeys : a.keys.count (acctKey org email) = 0 := by
        simp [LoginAttempt.keys, hacct, hip]
      have hle := (a.held_sublist pc).count_le (acctKey org email)
      have hother : (a.email == email) = false := by simpa using hemail
      simp only [Call.held, Call.guessed, Call.inFlight, hother, Bool.false_and, Bool.toNat_false]
      omega
  | confirm a pc =>
    have hle := (a.held_sublist pc).count_le (acctKey org email)
    have hkeys : a.keys.count (acctKey org email) = 0 := by
      simp [ConfirmAttempt.keys, ConfirmAttempt.user, ConfirmAttempt.ip,
        userKey_ne_acctKey, ipKey_ne_acctKey]
    simp only [Call.held, Call.guessed, Call.inFlight, Bool.toNat_false]
    omega
  | password a pc =>
    have hle := (a.held_sublist pc).count_le (acctKey org email)
    have hkeys : [a.key].count (acctKey org email) = 0 := by
      simp [PasswordChange.key, passwordKey_ne_acctKey]
    simp only [Call.held, Call.guessed, Call.inFlight, Bool.toNat_false]
    omega
  | _ => rfl

theorem cleared_next (a : LoginAttempt) (w : World) (input : Input) (s : Store) (pc : LoginPc)
    (h : LoginAttempt.clearing pc = false) : (a.next w input s pc).cleared = pc.cleared := by
  cases pc with
  | reserve | selectUser | useCode =>
    simp only [LoginAttempt.next]
    split <;> rfl
  | verify | readAgain =>
    simp only [LoginAttempt.next]
    repeat' split
    all_goals rfl
  | clearAccount user token csrfToken => simp [LoginAttempt.clearing] at h
  | _ => rfl

theorem succeeded_next {email : String} {c : Call} (h : c.clears (acctKey org email) = false)
    (w : World) (input : Input) (s : Store) :
    (c.next w input s).succeeded email = c.succeeded email := by
  cases c with
  | login a pc =>
    by_cases hemail : a.email = email
    · have hclearing : LoginAttempt.clearing pc = false := by
        have hacct : a.acct = acctKey org email := by rw [← hemail]; rfl
        simpa [Call.clears, hacct] using h
      simp only [Call.next, Call.succeeded, cleared_next a w input s pc hclearing]
    · have hother : (a.email == email) = false := by simpa using hemail
      simp only [Call.next, Call.succeeded, hother, Bool.false_and]
  | _ => rfl

theorem succeeded_of_clears {email : String} {c : Call} (h : c.clears (acctKey org email) = true)
    (w : World) (input : Input) (s : Store) :
    c.succeeded email = false ∧ (c.next w input s).succeeded email = true := by
  cases c with
  | login a pc =>
    obtain ⟨hclearing, hacct⟩ : LoginAttempt.clearing pc = true ∧ a.acct = acctKey org email := by
      simpa [Call.clears] using h
    have hemail : a.email = email := acctKey_inj hacct
    cases pc with
    | clearAccount user token csrfToken =>
      simp [Call.succeeded, Call.next, LoginAttempt.next, LoginPc.cleared, hemail]
    | _ => simp [LoginAttempt.clearing] at hclearing
  | _ => simp [Call.clears] at h

theorem value_of_clears {email : String} {c : Call} (h : c.clears (acctKey org email) = true)
    (w : World) (i : Nat) (input : Input) (s : Store) :
    (c.effect w i input s).counters.value (acctKey org email) = 0 := by
  cases c with
  | login a pc =>
    obtain ⟨hclearing, hacct⟩ : LoginAttempt.clearing pc = true ∧ a.acct = acctKey org email := by
      simpa [Call.clears] using h
    cases pc with
    | clearAccount user token csrfToken =>
      simp [Call.effect, LoginAttempt.effect, Store.clearCounter, deleteCounter, hacct,
        Counters.value]
    | _ => simp [LoginAttempt.clearing] at hclearing
  | _ => simp [Call.clears] at h

section pool
variable (email : String) (p : Pool Store Call)

/-- How many attempts for the account ended in a counted failure so far. -/
def guesses : Nat := p.threads.countP (·.guessed email)

def attemptsInFlight : Nat := p.threads.countP (·.inFlight email)

def successes : Nat := p.threads.countP (·.succeeded email)

def accountCounter : Nat := p.store.counters.value (acctKey org email)

theorem sum_held : (p.threads.map fun c => c.held.count (acctKey org email)).sum =
    guesses email p + attemptsInFlight email p := by
  unfold guesses attemptsInFlight
  induction p.threads with
  | nil => rfl
  | cons c rest ih =>
    rw [List.map_cons, List.sum_cons, ih, held_acct, List.countP_cons, List.countP_cons]
    cases c.guessed email <;> cases c.inFlight email <;> simp <;> omega

end pool

variable {w : World} {email : String} {p q : Pool Store Call}

/-- One command: a success, which leaves the counter at 0, or one that covers the slots it adds. -/
theorem guess_step (email : String) (h : Step (reliable w) p q) :
    (successes email q = successes email p + 1 ∧ accountCounter email q = 0) ∨
    (successes email q = successes email p ∧
      accountCounter email p + (guesses email q + attemptsInFlight email q) ≤
        accountCounter email q + (guesses email p + attemptsInFlight email p) ∧
      (accountCounter email p ≤ accountMax → accountCounter email q ≤ accountMax)) := by
  rw [← sum_held, ← sum_held]
  cases h with
  | @spawn s ts c hstart =>
    refine .inr ⟨?_, ?_, id⟩
    · have hnew : c.succeeded email = false := by
        cases hstart <;> simp [Call.succeeded, LoginPc.cleared]
      unfold successes
      rw [countP_spawn, hnew]
      rfl
    · rw [sum_spawn, hstart.held_eq_nil]
      exact Nat.le_refl _
  | env henv =>
    have hcounters := congrArg Prod.fst henv.slots_eq
    dsimp only [Store.slots] at hcounters
    refine .inr ⟨rfl, ?_, ?_⟩
    · simp only [accountCounter, hcounters]
      exact Nat.le_refl _
    · simp only [accountCounter, hcounters]
      exact id
  | @act s s' ts i c c' hi hact =>
    have hcount := countP_act (·.succeeded email) hi c'
    have hsum := sum_act (fun c : Call => c.held.count (acctKey org email)) hi c'
    cases hact with
    | intro input hadmissible =>
      cases hclears : c.clears (acctKey org email) with
      | true =>
        obtain ⟨hbefore, hafter⟩ := succeeded_of_clears hclears w input s
        refine .inl ⟨?_, value_of_clears hclears w i input s⟩
        simp only [successes] at hcount ⊢
        rw [show ((calls w).next input s c).succeeded email = true from hafter, hbefore] at hcount
        simpa using hcount
      | false =>
        have hsame := succeeded_next hclears w input s
        have hanswered : Answered (calls w) i s c _ _ := .intro input hadmissible
        have hslot := slots_step (acct_threshold email) hclears (.answered hanswered)
        have hkept := hslot.kept
        refine .inr ⟨?_, ?_, hslot.bounded⟩
        · rw [show ((calls w).next input s c).succeeded email = c.succeeded email from hsame]
            at hcount
          exact Nat.add_right_cancel hcount
        · simp only [accountCounter] at *
          omega

theorem accountCounter_le (h : Run (reliable w) p q)
    (hp : accountCounter email p ≤ accountMax) : accountCounter email q ≤ accountMax := by
  refine run_invariant (I := fun p => accountCounter email p ≤ accountMax)
    (fun p q hp hstep => ?_) h hp
  rcases guess_step email hstep with ⟨-, hzero⟩ | ⟨-, -, hbounded⟩
  · omega
  · exact hbounded hp

theorem slots_between (email : String) (h : Run (reliable w) p q) :
    successes email p ≤ successes email q ∧ (successes email q = successes email p →
      accountCounter email p + (guesses email q + attemptsInFlight email q) ≤
        accountCounter email q + (guesses email p + attemptsInFlight email p)) := by
  induction h with
  | refl => exact ⟨Nat.le_refl _, fun _ => Nat.le_refl _⟩
  | tail _ hstep ih =>
    obtain ⟨hmono, hcovered⟩ := ih
    rcases guess_step email hstep with ⟨hmore, -⟩ | ⟨hsame, hkept, -⟩
    · refine ⟨by omega, fun heq => ?_⟩
      omega
    · refine ⟨by omega, fun heq => ?_⟩
      have hbefore := hcovered (by omega)
      omega

/-- From one success of the account to the next, at most as many attempts for it end in a counted
failure as its limit and the attempts the earlier success overtook. -/
theorem guesses_between_successes {s₀ : Store}
    (hinit : s₀.counters.value (acctKey org email) ≤ accountMax)
    (hrun : Run (reliable w) ⟨s₀, []⟩ p) (hnext : Run (reliable w) p q)
    (hbetween : successes email q = successes email p) :
    guesses email q ≤ guesses email p + attemptsInFlight email p + accountMax := by
  have hbound := accountCounter_le hnext (accountCounter_le hrun hinit)
  have hslots := (slots_between email hnext).2 hbetween
  omega

def sampleRow : UserRow := ⟨org, "a@b.c", "pw", "secret", true, .analyst, .active, 0⟩

def oneUser : Store := { emptyStore with users := fun id => if id = "u" then some sampleRow else none }

def loginInput : Input := ⟨some ("u", sampleRow), "token", "csrf", "hash", [], true, false, false⟩

/-- Start a login for the user's address, or let one run its next command. -/
inductive Move where
  | start (password : String)
  | run (i : Nat)

namespace Move

def play (p : Pool Store Call) : Move → Pool Store Call
  | .start password =>
    ⟨p.store, p.threads ++ [.login ⟨"a@b.c", password, "000000", sampleContext⟩ .reserve]⟩
  | .run i =>
    match p.threads[i]? with
    | some c => ⟨c.effect sampleWorld i loginInput p.store,
        p.threads.set i (c.next sampleWorld loginInput p.store)⟩
    | none => p

/-- What the stores answer to a login for the user's address is as `loginInput` says. -/
def answerable (s : Store) : LoginPc → Bool
  | .selectUser => s.users "u" == some sampleRow
  | .createSession _ => !s.handedOut.contains "token"
  | _ => true

def legal (p : Pool Store Call) : Move → Bool
  | .start _ => true
  | .run i =>
    match p.threads[i]? with
    | some (.login a pc) => a.email == "a@b.c" && answerable p.store pc
    | _ => false

def legalAll (p : Pool Store Call) : List Move → Bool
  | [] => true
  | move :: moves => move.legal p && legalAll (move.play p) moves

theorem admissible_of_answerable {a : LoginAttempt} {s : Store} {pc : LoginPc}
    (hemail : a.email = "a@b.c") (h : answerable s pc = true) : a.admissible loginInput s pc := by
  cases pc with
  | selectUser =>
    have hrow : s.users "u" = some sampleRow := by simpa [answerable] using h
    exact ⟨hrow, rfl, hemail.symm⟩
  | createSession user => exact ⟨by decide, by simpa [answerable, loginInput] using h⟩
  | _ => trivial

theorem run_of_legal (moves : List Move) {p : Pool Store Call} (h : legalAll p moves = true) :
    Run (reliable sampleWorld) p (moves.foldl play p) := by
  induction moves generalizing p with
  | nil => exact .refl
  | cons move moves ih =>
    obtain ⟨hmove, hrest⟩ : move.legal p = true ∧ legalAll (move.play p) moves = true := by
      simpa [legalAll] using h
    refine Relation.ReflTransGen.head ?_ (ih hrest)
    cases move with
    | start password => exact .spawn (Starts.login "a@b.c" password "000000" sampleContext)
    | run i =>
      cases hi : p.threads[i]? with
      | none => simp [legal, hi] at hmove
      | some c =>
        cases c with
        | login a pc =>
          obtain ⟨hemail, hanswer⟩ : a.email = "a@b.c" ∧ answerable p.store pc = true := by
            simpa [legal, hi] using hmove
          have hstep := reliable_answers (w := sampleWorld) loginInput hi
            (admissible_of_answerable hemail hanswer)
          simpa [play, hi] using hstep
        | _ => simp [legal, hi] at hmove

end Move

/-- The right password in one attempt, a wrong one in another, both with their slots; the first
then logs in. -/
def overtaking : List Move :=
  [.start "pw", .run 0, .start "no", .run 1] ++ List.replicate 9 (.run 0)

/-- Five more wrong ones get their slots, and all six fail. -/
def sixFail : List Move :=
  (List.range 5).flatMap (fun i => [.start "no", .run (i + 2)]) ++
    (List.range 6).flatMap fun i => List.replicate 4 (.run (i + 1))

def overtaken : Pool Store Call := overtaking.foldl Move.play ⟨oneUser, []⟩

def sixFailed : Pool Store Call := sixFail.foldl Move.play overtaken

theorem run_overtaken : Run (reliable sampleWorld) ⟨oneUser, []⟩ overtaken :=
  Move.run_of_legal overtaking (by decide)

theorem run_sixFailed : Run (reliable sampleWorld) overtaken sixFailed :=
  Move.run_of_legal sixFail (by decide)

/-- Six attempts fail after the one success. -/
theorem sample_six_guesses : Run (reliable sampleWorld) ⟨oneUser, []⟩ overtaken ∧
    Run (reliable sampleWorld) overtaken sixFailed ∧
    successes "a@b.c" overtaken = 1 ∧ successes "a@b.c" sixFailed = 1 ∧
    accountMax < guesses "a@b.c" sixFailed - guesses "a@b.c" overtaken :=
  ⟨run_overtaken, run_sixFailed, by decide, by decide, by decide⟩

/-- They are as many as the bound allows: the limit, and the attempt the success overtook. -/
theorem sample_guesses_bounded : guesses "a@b.c" sixFailed = 6 ∧
    guesses "a@b.c" overtaken + attemptsInFlight "a@b.c" overtaken + accountMax = 6 ∧
    guesses "a@b.c" sixFailed ≤
      guesses "a@b.c" overtaken + attemptsInFlight "a@b.c" overtaken + accountMax :=
  ⟨by decide, by decide,
    guesses_between_successes (Nat.zero_le _) run_overtaken run_sixFailed (by decide)⟩

end CyberGuard.Auth
