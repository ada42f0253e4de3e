/-
  RUNS of one program that nobody interferes with: to its end, whatever its transactions meet and
  whatever it is replied.

  `Runs p w r w'` says that `p`, started at the world `w`, can end in `r` and leave `w'`.  The rules
  for proving things about it are those of `Safe`, for the contract under which everything is
  permitted and nobody else acts (`alone`).

  Nothing here mentions a particular store, call or worker.
-/
import AgentCloud.Lib.Durable

namespace Durable

variable {S : Interface} {α : Type}

inductive Runs : Prog S α → World S → Except S.Fault α → World S → Prop
  | done {r w} : Runs (.done r) w r w
  | commit {β : Type} {t : S.Env → S.Store → Except S.Fault (β × S.Store)} {next w env b s r w'} :
      t env w.store = .ok (b, s) → Runs (next (.ok b)) (w.put s) r w' → Runs (.commit t next) w r w'
  | refuse {β : Type} {t : S.Env → S.Store → Except S.Fault (β × S.Store)} {next w env e r w'} :
      t env w.store = .error e → Runs (next (.error e)) w r w' → Runs (.commit t next) w r w'
  | call {c next w reply r w'} :
      Runs (next reply) (w.exchange c reply) r w' → Runs (.call c next) w r w'

/-- Everything is permitted, and there is nobody else. -/
def alone (S : Interface) : Contract S Unit where
  valid _ := True
  rely _ w w' := w' = w
  does _ _ _ := True
  allows _ _ _ := True
  rely_refl _ _ := rfl
  rely_trans h h' := h'.trans h
  does_valid _ _ := trivial
  does_rely _ hne _ := absurd rfl hne

/-- Every program is safe if nothing is asked of it. -/
theorem Safe.anything {p : Prog S α} {w : World S} :
    Safe (alone S) () (Ends fun _ _ => True) p w := by
  induction p generalizing w with
  | done r => cases r <;> trivial
  | commit t next ih =>
    intro v _ _ env
    split
    · exact ih _
    · exact ⟨trivial, ih _⟩
  | call c next ih => exact fun v _ _ r _ => ⟨trivial, ih r⟩

/-- What is proved of a program by the rules holds at the end of its runs. -/
theorem Safe.runs {post : Except S.Fault α → World S → Prop} {p : Prog S α} {w w' : World S}
    {r : Except S.Fault α} (h : Safe (alone S) () post p w) (hr : Runs p w r w') : post r w' := by
  induction hr with
  | done => exact h
  | @commit β t next w env b s r w' hok _ ih =>
    have := h w rfl trivial env
    rw [hok] at this
    exact ih this.2
  | @refuse β t next w env e r w' herror _ ih =>
    have := h w rfl trivial env
    rw [herror] at this
    exact ih this
  | call _ ih => exact ih (h _ rfl trivial _ trivial).2

/-- The executable reading of a program, with an environment for each of its transactions. -/
def Prog.runFrom (env : Nat → S.Env) (reply : (c : S.Call) → S.Reply c) :
    Nat → Prog S α → World S → Except S.Fault α × World S
  | _, .done r, w => (r, w)
  | n, .commit t next, w =>
    match t (env n) w.store with
    | .error e => (next (.error e)).runFrom env reply (n + 1) w
    | .ok (b, s) => (next (.ok b)).runFrom env reply (n + 1) (w.put s)
  | n, .call c next, w => (next (reply c)).runFrom env reply n (w.exchange c (reply c))

/-- The executable run is one of them. -/
theorem Prog.runFrom_runs (env : Nat → S.Env) (reply : (c : S.Call) → S.Reply c) (n : Nat)
    (p : Prog S α) (w : World S) :
    Runs p w (p.runFrom env reply n w).1 (p.runFrom env reply n w).2 := by
  induction p generalizing n w with
  | done r => exact .done
  | commit t next ih =>
    simp only [Prog.runFrom]
    split
    · rename_i e he
      exact .refuse he (ih _ (n + 1) w)
    · rename_i b s hok
      exact .commit hok (ih _ (n + 1) _)
  | call c next ih => exact .call (ih _ n _)

/-! ## What a program may come to

Where only the replies are open, a program that may return a value is stopped by nothing that it
knows from the start. -/

/-- From any world, some replies take the program to this value. -/
def Prog.MayReturn (p : Prog S α) (a : α) : Prop := ∀ w, ∃ w', Runs p w (.ok a) w'

theorem Runs.bind {β : Type} {p : Prog S α} {f : α → Prog S β} {a : α} {r : Except S.Fault β}
    {u v w : World S} (h : Runs p u (.ok a) v) (hf : Runs (f a) v r w) :
    Runs (p.bind f) u r w := by
  generalize hr : (Except.ok a : Except S.Fault α) = result at h
  induction h with
  | done =>
    obtain rfl := hr
    exact hf
  | commit hok _ ih => exact .commit hok (ih hf hr)
  | refuse herror _ ih => exact .refuse herror (ih hf hr)
  | call _ ih => exact .call (ih hf hr)

namespace Prog.MayReturn

variable {β : Type} {a : α}

theorem pure : (Pure.pure a : Prog S α).MayReturn a := fun w => ⟨w, .done⟩

theorem ofExcept {r : Except S.Fault α} (h : r = .ok a) : (Prog.ofExcept r).MayReturn a :=
  fun w => ⟨w, by rw [h]; exact .done⟩

theorem bind {p : Prog S α} {f : α → Prog S β} {b : β} (h : p.MayReturn a)
    (hf : (f a).MayReturn b) : (p.bind f).MayReturn b := by
  intro w
  obtain ⟨v, hv⟩ := h w
  obtain ⟨u, hu⟩ := hf v
  exact ⟨u, hv.bind hu⟩

/-- Any reply may come. -/
theorem ask {c : S.Call} (reply : S.Reply c) : (Prog.ask c).MayReturn reply :=
  fun w => ⟨w.exchange c reply, .call .done⟩

end Prog.MayReturn

end Durable
