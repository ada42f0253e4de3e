/-
  OUTCOMES: a program run to its end while others change the world between its actions.

  `Outcome R p w moments r w'` is one complete run of `p`.  It begins in the world `w` and ends with
  `r` in `w'`; before each of its actions the world may change by `R`; `moments` is what each of
  its transactions met, in order.  Where a `Contract` says what holds along a run, an outcome says
  what came back, and from what.

  Nothing here mentions a particular store, call or worker.
-/
import AgentCloud.Lib.Durable

namespace Durable

/-- What one transaction met. -/
structure Moment (S : Interface) where
  env : S.Env
  store : S.Store

inductive Outcome {S : Interface} (R : World S → World S → Prop) {α : Type} :
    Prog S α → World S → List (Moment S) → Except S.Fault α → World S → Prop where
  | done {r : Except S.Fault α} {w : World S} : Outcome R (.done r) w [] r w
  | commit {β : Type} {t : S.Env → S.Store → Except S.Fault (β × S.Store)}
      {next : Except S.Fault β → Prog S α} {w v w' : World S} {env : S.Env} {b : β} {s : S.Store}
      {moments : List (Moment S)} {r : Except S.Fault α} (between : R w v)
      (ok : t env v.store = .ok (b, s)) (rest : Outcome R (next (.ok b)) (v.put s) moments r w') :
      Outcome R (.commit t next) w (⟨env, v.store⟩ :: moments) r w'
  | refuse {β : Type} {t : S.Env → S.Store → Except S.Fault (β × S.Store)}
      {next : Except S.Fault β → Prog S α} {w v w' : World S} {env : S.Env} {e : S.Fault}
      {moments : List (Moment S)} {r : Except S.Fault α} (between : R w v)
      (error : t env v.store = .error e) (rest : Outcome R (next (.error e)) v moments r w') :
      Outcome R (.commit t next) w (⟨env, v.store⟩ :: moments) r w'
  | call {c : S.Call} {next : S.Reply c → Prog S α} {w v w' : World S} {reply : S.Reply c}
      {moments : List (Moment S)} {r : Except S.Fault α} (between : R w v)
      (rest : Outcome R (next reply) (v.exchange c reply) moments r w') :
      Outcome R (.call c next) w moments r w'

namespace Outcome

variable {S : Interface} {R : World S → World S → Prop} {α β : Type} {w w' : World S}
  {moments : List (Moment S)}

/-- The run of a sequence is a run of its first half, then one of its second, if it gets there. -/
theorem bind_inv {p : Prog S α} {f : α → Prog S β} {r : Except S.Fault β}
    (h : Outcome R (p.bind f) w moments r w') :
    ∃ first rest middle v, moments = first ++ rest ∧ Outcome R p w first middle v ∧
      match middle with
      | .ok a => Outcome R (f a) v rest r w'
      | .error e => rest = [] ∧ r = .error e ∧ w' = v := by
  induction p generalizing w moments with
  | done r' =>
    cases r' with
    | ok a => exact ⟨[], moments, .ok a, w, rfl, .done, h⟩
    | error e =>
      cases h
      exact ⟨[], [], .error e, _, rfl, .done, rfl, rfl, rfl⟩
  | commit t next ih =>
    cases h with
    | commit between ok rest =>
      obtain ⟨first, last, middle, v, rfl, hfirst, hlast⟩ := ih _ rest
      exact ⟨_ :: first, last, middle, v, rfl, .commit between ok hfirst, hlast⟩
    | refuse between error rest =>
      obtain ⟨first, last, middle, v, rfl, hfirst, hlast⟩ := ih _ rest
      exact ⟨_ :: first, last, middle, v, rfl, .refuse between error hfirst, hlast⟩
  | call c next ih =>
    cases h with
    | call between rest =>
      obtain ⟨first, last, middle, v, rfl, hfirst, hlast⟩ := ih _ rest
      exact ⟨first, last, middle, v, rfl, .call between hfirst, hlast⟩

/-- The run of a handled program is a run of its body, then of the handler, if there is a fault. -/
theorem tryCatch_inv {p : Prog S α} {handler : S.Fault → Prog S α} {r : Except S.Fault α}
    (h : Outcome R (p.tryCatch handler) w moments r w') :
    ∃ first rest middle v, moments = first ++ rest ∧ Outcome R p w first middle v ∧
      match middle with
      | .ok a => rest = [] ∧ r = .ok a ∧ w' = v
      | .error e => Outcome R (handler e) v rest r w' := by
  induction p generalizing w moments with
  | done r' =>
    cases r' with
    | ok a =>
      cases h
      exact ⟨[], [], .ok a, _, rfl, .done, rfl, rfl, rfl⟩
    | error e => exact ⟨[], moments, .error e, w, rfl, .done, h⟩
  | commit t next ih =>
    cases h with
    | commit between ok rest =>
      obtain ⟨first, last, middle, v, rfl, hfirst, hlast⟩ := ih _ rest
      exact ⟨_ :: first, last, middle, v, rfl, .commit between ok hfirst, hlast⟩
    | refuse between error rest =>
      obtain ⟨first, last, middle, v, rfl, hfirst, hlast⟩ := ih _ rest
      exact ⟨_ :: first, last, middle, v, rfl, .refuse between error hfirst, hlast⟩
  | call c next ih =>
    cases h with
    | call between rest =>
      obtain ⟨first, last, middle, v, rfl, hfirst, hlast⟩ := ih _ rest
      exact ⟨first, last, middle, v, rfl, .call between hfirst, hlast⟩

theorem pure_inv {a : α} {r : Except S.Fault α} (h : Outcome R (pure a) w moments r w') :
    moments = [] ∧ r = .ok a ∧ w' = w := by
  cases h
  exact ⟨rfl, rfl, rfl⟩

/-- One transaction, run. -/
theorem transact_inv {t : S.Env → S.Store → Except S.Fault (α × S.Store)} {r : Except S.Fault α}
    (h : Outcome R (Prog.transact t) w moments r w') :
    ∃ v env, R w v ∧ moments = [⟨env, v.store⟩] ∧
      ((∃ a s, t env v.store = .ok (a, s) ∧ r = .ok a ∧ w' = v.put s) ∨
        ∃ e, t env v.store = .error e ∧ r = .error e ∧ w' = v) := by
  cases h with
  | commit between ok rest =>
    cases rest
    exact ⟨_, _, between, rfl, .inl ⟨_, _, ok, rfl, rfl⟩⟩
  | refuse between error rest =>
    cases rest
    exact ⟨_, _, between, rfl, .inr ⟨_, error, rfl, rfl⟩⟩

end Outcome

end Durable
