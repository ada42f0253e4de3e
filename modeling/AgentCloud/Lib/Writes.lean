/-
  WRITES: what every transaction of a program does to the store, whenever it may run.

  `Prog.Writes R p` tells of each transaction of `p`, from any store and whatever happened before,
  that it relates the store it finds to the store it leaves by `R`.  Nothing is assumed about what
  the other workers do or what is replied, so there is no invariant to carry: the rule follows the
  text of the program.  `Step.writes` turns it into a fact about every step of a pool.
-/
import AgentCloud.Lib.Durable

namespace Durable

variable {S : Interface} {α β : Type} {R : S.Store → S.Store → Prop}

/-- Every transaction of the program writes within `R`. -/
def Prog.Writes (R : S.Store → S.Store → Prop) : Prog S α → Prop
  | .done _ => True
  | .commit t k =>
    (∀ env s b s', t env s = .ok (b, s') → R s s') ∧ ∀ r, (k r).Writes R
  | .call _ k => ∀ r, (k r).Writes R

namespace Prog.Writes

theorem done {r : Except S.Fault α} : (Prog.done r).Writes R := trivial

theorem bind {p : Prog S α} {f : α → Prog S β} (h : p.Writes R) (hf : ∀ a, (f a).Writes R) :
    (p.bind f).Writes R := by
  induction p with
  | done r =>
    cases r with
    | ok a => exact hf a
    | error e => trivial
  | commit t k ih => exact ⟨h.1, fun r => ih r (h.2 r)⟩
  | call c k ih => exact fun r => ih r (h r)

theorem tryCatch {p : Prog S α} {handler : S.Fault → Prog S α} (h : p.Writes R)
    (hhandler : ∀ e, (handler e).Writes R) : (p.tryCatch handler).Writes R := by
  induction p with
  | done r =>
    cases r with
    | ok a => trivial
    | error e => exact hhandler e
  | commit t k ih => exact ⟨h.1, fun r => ih r (h.2 r)⟩
  | call c k ih => exact fun r => ih r (h r)

theorem attempt {p : Prog S α} (h : p.Writes R) : p.attempt.Writes R := by
  induction p with
  | done r => trivial
  | commit t k ih => exact ⟨h.1, fun r => ih r (h.2 r)⟩
  | call c k ih => exact fun r => ih r (h r)

theorem ensure {p : Prog S α} {q : Prog S Unit} (h : p.Writes R) (hq : q.Writes R) :
    (p.ensure q).Writes R :=
  bind h.attempt fun _ => bind hq fun _ => done

theorem transact {t : S.Env → S.Store → Except S.Fault (α × S.Store)}
    (h : ∀ env s a s', t env s = .ok (a, s') → R s s') : (Prog.transact t).Writes R :=
  ⟨h, fun _ => trivial⟩

/-- A transaction that only reads. -/
theorem observe {f : S.Env → S.Store → α} (hrefl : ∀ s, R s s) : (Prog.observe f).Writes R := by
  refine ⟨fun env s b s' h => ?_, fun _ => trivial⟩
  obtain ⟨-, rfl⟩ := Prod.mk.inj (Except.ok.inj h)
  exact hrefl s

theorem read {f : S.Store → α} (hrefl : ∀ s, R s s) : (Prog.read f).Writes R :=
  observe (f := fun _ s => f s) hrefl

theorem ask {c : S.Call} : (Prog.ask c).Writes R := fun _ => trivial

theorem ofExcept {r : Except S.Fault α} : (Prog.ofExcept r : Prog S α).Writes R := trivial

end Prog.Writes

/-- Whatever is running writes within `R`. -/
def Config.Writes {K : Type} (R : S.Store → S.Store → Prop) (c : Config S K) : Prop :=
  ∀ k p, c.running k = some p → p.Writes R

theorem Config.Writes.idle {K : Type} {w : World S} : (Config.idle w : Config S K).Writes R :=
  fun _ _ h => by cases h

theorem Config.Writes.update {K : Type} [DecidableEq K] {c : Config S K} (h : c.Writes R) (k : K)
    {p : Option (Prog S Unit)} (hp : ∀ q, p = some q → q.Writes R) (w : World S) :
    (⟨w, Function.update c.running k p⟩ : Config S K).Writes R := by
  intro j q hq
  by_cases hj : j = k
  · subst hj
    exact hp q (by simpa using hq)
  · exact h j q (by simpa [Function.update_of_ne hj] using hq)

/-- **Step lemma.**  A step leaves the store alone, writes within `R`, or is nobody's. -/
theorem System.Step.writes {K : Type} [DecidableEq K] {sys : System S K}
    (hjobs : ∀ k p, sys.job k p → p.Writes R) {c c' : Config S K} (hc : c.Writes R)
    (hstep : sys.Step c c') :
    c'.Writes R ∧ (c'.world.store = c.world.store ∨ R c.world.store c'.world.store ∨
      sys.other c.world c'.world) := by
  cases hstep with
  | start k p free job =>
    refine ⟨hc.update k (fun q hq => ?_) c.world, .inl rfl⟩
    obtain rfl := Option.some.inj hq
    exact hjobs k _ job
  | commit k t next env b s here ok =>
    have hwrites := hc k _ here
    refine ⟨hc.update k (fun q hq => ?_) _, .inr (.inl (hwrites.1 env _ b s ok))⟩
    obtain rfl := Option.some.inj hq
    exact hwrites.2 (.ok b)
  | refuse k t next env e here error =>
    refine ⟨hc.update k (fun q hq => ?_) _, .inl rfl⟩
    obtain rfl := Option.some.inj hq
    exact (hc k _ here).2 (.error e)
  | call k q next r here allowed =>
    refine ⟨hc.update k (fun p hp => ?_) _, .inl rfl⟩
    obtain rfl := Option.some.inj hp
    exact hc k _ here r
  | stop k => exact ⟨hc.update k (fun _ h => by cases h) _, .inl rfl⟩
  | other w h => exact ⟨hc, .inr (.inr h)⟩

end Durable
