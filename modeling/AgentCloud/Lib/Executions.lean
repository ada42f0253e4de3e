/-
  EXECUTIONS: a program run to its end by chosen environments and replies.

  `Prog.run` is a function, so that what it comes to can be computed.  These are its rules, read
  backwards: from "the program returned `a`" to what its parts returned.

  Nothing here mentions a particular store, call or worker.
-/
import AgentCloud.Lib.Durable

namespace Durable

variable {S : Interface} {α β : Type} {env : World S → S.Env}
  {reply : World S → (c : S.Call) → S.Reply c}

/-- If all of it returned, its beginning did, and the rest started where that ended. -/
theorem Prog.run_bind_ok {p : Prog S α} {f : α → Prog S β} {w : World S} {b : β}
    (h : ((p.bind f).run env reply w).1 = .ok b) :
    ∃ a, (p.run env reply w).1 = .ok a ∧
      (p.bind f).run env reply w = (f a).run env reply (p.run env reply w).2 := by
  induction p generalizing w with
  | done r =>
    cases r with
    | ok a => exact ⟨a, rfl, rfl⟩
    | error e => cases h
  | commit t next ih =>
    simp only [Prog.bind, Prog.run] at h ⊢
    split at h <;> exact ih _ h
  | call c next ih => exact ih _ h

/-- A transaction that returned has committed. -/
theorem Prog.run_transact_ok {t : S.Env → S.Store → Except S.Fault (α × S.Store)} {w : World S}
    {a : α} (h : ((Prog.transact t).run env reply w).1 = .ok a) :
    ∃ s, t (env w) w.store = .ok (a, s) ∧ ((Prog.transact t).run env reply w).2 = w.put s := by
  simp only [Prog.transact, Prog.run] at h ⊢
  split at h
  · cases h
  · rename_i b s hok
    obtain rfl := Except.ok.inj h
    exact ⟨s, hok, rfl⟩

end Durable
