/-
  EXCHANGES: one program against an outside whose answers are constrained.

  `answers n c r` says that the `n`-th call of a run, when it is `c`, may be answered by `r`.
  `Steps answers n p τ p'` is a part of a run: after the exchanges `τ` the program `p` has become
  `p'`.  A program that makes calls only is looked at here; a transaction has no place in a run.

  `Meets answers n p m post` bounds a program and specifies it in one: it makes at most `m` calls,
  whatever it is answered, and if it ends, it ends in `post`.  The rules follow the text of a
  program.

  Nothing here mentions a particular store, call or worker.
-/
import AgentCloud.Lib.Durable

namespace Durable

variable {S : Interface} {α β : Type} {n m : Nat}

/-- What the outside may answer to the calls of a run, by their number in it. -/
abbrev Answers (S : Interface) := Nat → (c : S.Call) → S.Reply c → Prop

variable {answers : Answers S}

inductive Steps (answers : Answers S) : Nat → Prog S α → List (Exchange S) → Prog S α → Prop
  | here {n p} : Steps answers n p [] p
  | call {n c k r τ p'} : answers n c r → Steps answers (n + 1) (k r) τ p' →
      Steps answers n (.call c k) (⟨c, r⟩ :: τ) p'

/-- At most `m` calls, and `post` in the end. -/
def Meets (answers : Answers S) (n : Nat) (p : Prog S α) (m : Nat)
    (post : List (Exchange S) → Except S.Fault α → Prop) : Prop :=
  ∀ τ p', Steps answers n p τ p' → τ.length ≤ m ∧ ∀ r, p' = .done r → post τ r

namespace Meets

variable {post post' : List (Exchange S) → Except S.Fault α → Prop}

theorem mono {p : Prog S α} {l : Nat} (h : Meets answers n p m post) (hle : m ≤ l)
    (hpost : ∀ τ r, post τ r → post' τ r) : Meets answers n p l post' := by
  intro τ p' hsteps
  obtain ⟨hlength, hends⟩ := h τ p' hsteps
  exact ⟨Nat.le_trans hlength hle, fun r hr => hpost τ r (hends r hr)⟩

theorem done {r : Except S.Fault α} (h : post [] r) : Meets answers n (.done r) m post := by
  intro τ p' hsteps
  cases hsteps
  refine ⟨Nat.zero_le m, ?_⟩
  rintro r' ⟨⟩
  exact h

theorem call {c : S.Call} {k : S.Reply c → Prog S α}
    (h : ∀ r, answers n c r → Meets answers (n + 1) (k r) m fun τ r' => post (⟨c, r⟩ :: τ) r') :
    Meets answers n (.call c k) (m + 1) post := by
  intro τ p' hsteps
  cases hsteps with
  | here => exact ⟨Nat.zero_le _, fun r hr => by cases hr⟩
  | call hanswer hrest =>
    obtain ⟨hlength, hends⟩ := h _ hanswer _ _ hrest
    exact ⟨Nat.succ_le_succ hlength, hends⟩

/-- A call that is answered leaves the rest of the program within the rest of the bound. -/
theorem after {c : S.Call} {k : S.Reply c → Prog S α} (h : Meets answers n (.call c k) m post)
    {r : S.Reply c} (hanswer : answers n c r) :
    0 < m ∧ Meets answers (n + 1) (k r) (m - 1) fun τ r' => post (⟨c, r⟩ :: τ) r' := by
  have hone := (h _ _ (.call hanswer .here)).1
  simp only [List.length_cons, List.length_nil] at hone
  refine ⟨hone, fun τ p' hsteps => ?_⟩
  obtain ⟨hlength, hends⟩ := h _ _ (.call hanswer hsteps)
  simp only [List.length_cons] at hlength
  exact ⟨by omega, hends⟩

/-- Sequencing: the second program goes on where the first one ended. -/
theorem bind {p : Prog S α} {f : α → Prog S β} {l : Nat}
    {out : List (Exchange S) → Except S.Fault β → Prop} (hp : Meets answers n p m post)
    (hok : ∀ τ a, post τ (.ok a) → τ.length ≤ m →
      Meets answers (n + τ.length) (f a) l fun τ' r => out (τ ++ τ') r)
    (herror : ∀ τ e, post τ (.error e) → out τ (.error e)) :
    Meets answers n (p.bind f) (m + l) out := by
  induction p generalizing n m post out with
  | done r =>
    obtain ⟨-, hends⟩ := hp [] _ .here
    have hpost := hends r rfl
    cases r with
    | ok a => exact (hok [] a hpost (Nat.zero_le m)).mono (Nat.le_add_left l m) fun _ _ h => h
    | error e => exact done (herror [] e hpost)
  | commit t k _ =>
    intro τ p' hsteps
    cases hsteps
    exact ⟨Nat.zero_le _, fun r hr => by cases hr⟩
  | call c k ih =>
    -- the first call counts; the induction hypothesis takes the rest of the first program
    intro τ p' hsteps
    cases hsteps with
    | here => exact ⟨Nat.zero_le _, fun r hr => by cases hr⟩
    | @call _ _ _ reply τ _ hanswer hrest =>
      obtain ⟨hpos, hafter⟩ := hp.after hanswer
      have hmeets : Meets answers (n + 1) ((k reply).bind f) (m - 1 + l)
          fun τ r => out (⟨c, reply⟩ :: τ) r := by
        refine ih reply hafter (fun τ' a hpost hle => ?_) fun τ' e hpost => ?_
        · have h := hok (⟨c, reply⟩ :: τ') a hpost (by simp only [List.length_cons]; omega)
          rwa [List.length_cons, Nat.add_comm τ'.length 1, ← Nat.add_assoc] at h
        · exact herror (⟨c, reply⟩ :: τ') e hpost
      obtain ⟨hlength, hends⟩ := hmeets _ _ hrest
      exact ⟨by simp only [List.length_cons]; omega, hends⟩

/-- One call. -/
theorem ask {c : S.Call} :
    Meets answers n (Prog.ask c) 1 fun τ r => ∃ reply, answers n c reply ∧ τ = [⟨c, reply⟩] ∧
      r = .ok reply :=
  call fun reply hreply => done ⟨reply, hreply, rfl, rfl⟩

/-- A value computed without a call. -/
theorem ofExcept {r : Except S.Fault α} :
    Meets answers n (Prog.ofExcept r) 0 fun τ r' => τ = [] ∧ r' = r :=
  done ⟨rfl, rfl⟩

end Meets

/-! ## One run -/

/-- The run in which everything is answered by `oracle`: its exchanges, and what it comes to. -/
def converse (oracle : Nat → (c : S.Call) → S.Reply c) : Nat → Prog S α → List (Exchange S) × Prog S α
  | _, .done r => ([], .done r)
  | _, .commit t k => ([], .commit t k)
  | n, .call c k =>
    let rest := converse oracle (n + 1) (k (oracle n c))
    (⟨c, oracle n c⟩ :: rest.1, rest.2)

theorem converse_steps {oracle : Nat → (c : S.Call) → S.Reply c}
    (h : ∀ n c, answers n c (oracle n c)) (n : Nat) (p : Prog S α) :
    Steps answers n p (converse oracle n p).1 (converse oracle n p).2 := by
  induction p generalizing n with
  | done r => exact .here
  | commit t k _ => exact .here
  | call c k ih => exact .call (h n c) (ih (oracle n c) (n + 1))

end Durable
