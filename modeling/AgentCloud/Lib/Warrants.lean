/-
  WARRANTS: a write that is justified by what the same worker has read before.

  A pool often reads rows that another part of the system writes, through its `Env`.  `System.StepIn`
  is a step of a pool in which each transaction runs where `may` allows it: with an environment that
  agrees with those rows, say.  `Prog.Warranted` follows the text of a program and carries one
  proposition, what has been read so far; a write that `marks` the store needs it.  The two meet in
  `StepIn.warranted`: whatever a running program has been told holds of the rows where it was told,
  and if it keeps holding there, every mark has its warrant.
-/
import AgentCloud.Lib.Writes

namespace Durable

variable {S : Interface} {α β : Type}

/-- What is said of a transaction, of the environment and the store that it runs in. -/
abbrev Remark (S : Interface) :=
  (β : Type) → (S.Env → S.Store → Except S.Fault (β × S.Store)) → S.Env → S.Store → Prop

/-! ## Steps with agreeing environments -/

/-- A step of the pool whose transaction, if it runs one, is one that `may` run there. -/
inductive System.StepIn {K : Type} [DecidableEq K] (sys : System S K) (may : Remark S) :
    Config S K → Config S K → Prop where
  | start {c : Config S K} (k : K) (p : Prog S Unit) (free : c.running k = none)
      (job : sys.job k p) :
      StepIn sys may c { c with running := Function.update c.running k (some p) }
  | commit {c : Config S K} (k : K) {β : Type}
      (t : S.Env → S.Store → Except S.Fault (β × S.Store)) (next : Except S.Fault β → Prog S Unit)
      (env : S.Env) (b : β) (s : S.Store) (here : c.running k = some (.commit t next))
      (within : may β t env c.world.store) (ok : t env c.world.store = .ok (b, s)) :
      StepIn sys may c ⟨c.world.put s, Function.update c.running k (some (next (.ok b)))⟩
  | refuse {c : Config S K} (k : K) {β : Type}
      (t : S.Env → S.Store → Except S.Fault (β × S.Store)) (next : Except S.Fault β → Prog S Unit)
      (env : S.Env) (e : S.Fault) (here : c.running k = some (.commit t next))
      (within : may β t env c.world.store) (error : t env c.world.store = .error e) :
      StepIn sys may c { c with running := Function.update c.running k (some (next (.error e))) }
  | call {c : Config S K} (k : K) (q : S.Call) (next : S.Reply q → Prog S Unit) (r : S.Reply q)
      (here : c.running k = some (.call q next)) (allowed : sys.allows c.world q r) :
      StepIn sys may c ⟨c.world.exchange q r, Function.update c.running k (some (next r))⟩
  | stop {c : Config S K} (k : K) :
      StepIn sys may c { c with running := Function.update c.running k none }
  | other {c : Config S K} (w : World S) (h : sys.other c.world w) :
      StepIn sys may c { c with world := w }

namespace System

variable {K : Type} [DecidableEq K] {sys : System S K} {may : Remark S}

end System

/-! ## Warranted programs -/

/-- Every mark that the program leaves is warranted by what it has read: `known` before, and what
    the remark tells of each of its transactions.  `inv` holds of every store it finds. -/
def Prog.Warranted (inv : S.Store → Prop) (tells : Remark S) (marks : S.Store → S.Store → Prop)
    (post : Except S.Fault α → Prop → Prop) : Prog S α → Prop → Prop
  | .done r, known => post r known
  | .commit (β := β) t k, known => ∀ env s, inv s →
    (∀ e, t env s = .error e → (k (.error e)).Warranted inv tells marks post
      (known ∨ tells β t env s)) ∧
    ∀ b s', t env s = .ok (b, s') → inv s' ∧ (marks s s' → known ∨ tells β t env s) ∧
      (k (.ok b)).Warranted inv tells marks post (known ∨ tells β t env s)
  | .call _ k, known => ∀ r, (k r).Warranted inv tells marks post known

namespace Prog.Warranted

variable {inv : S.Store → Prop} {tells : Remark S} {marks : S.Store → S.Store → Prop} {known : Prop}

/-- Nothing is to be shown of the end. -/
abbrev Anyhow {α : Type} : Except S.Fault α → Prop → Prop := fun _ _ => True

theorem mono {post post' : Except S.Fault α → Prop → Prop} {p : Prog S α}
    (h : p.Warranted inv tells marks post known) (hpost : ∀ r k, post r k → post' r k) :
    p.Warranted inv tells marks post' known := by
  induction p generalizing known with
  | done r => exact hpost r known h
  | commit t k ih =>
    intro env s hs
    obtain ⟨herror, hok⟩ := h env s hs
    refine ⟨fun e he => ih _ (herror e he), fun b s' hb => ?_⟩
    obtain ⟨hinv, hmark, hnext⟩ := hok b s' hb
    exact ⟨hinv, hmark, ih _ hnext⟩
  | call c k ih => exact fun r => ih r (h r)

theorem bind {post : Except S.Fault β → Prop → Prop} {p : Prog S α} {f : α → Prog S β}
    (h : p.Warranted inv tells marks (fun r known => match r with
      | .ok a => (f a).Warranted inv tells marks post known
      | .error e => post (.error e) known) known) :
    (p.bind f).Warranted inv tells marks post known := by
  induction p generalizing known with
  | done r => cases r <;> exact h
  | commit t k ih =>
    intro env s hs
    obtain ⟨herror, hok⟩ := h env s hs
    refine ⟨fun e he => ih _ (herror e he), fun b s' hb => ?_⟩
    obtain ⟨hinv, hmark, hnext⟩ := hok b s' hb
    exact ⟨hinv, hmark, ih _ hnext⟩
  | call c k ih => exact fun r => ih r (h r)

theorem tryCatch {post : Except S.Fault α → Prop → Prop} {p : Prog S α}
    {handler : S.Fault → Prog S α}
    (h : p.Warranted inv tells marks (fun r known => match r with
      | .ok a => post (.ok a) known
      | .error e => (handler e).Warranted inv tells marks post known) known) :
    (p.tryCatch handler).Warranted inv tells marks post known := by
  induction p generalizing known with
  | done r => cases r <;> exact h
  | commit t k ih =>
    intro env s hs
    obtain ⟨herror, hok⟩ := h env s hs
    refine ⟨fun e he => ih _ (herror e he), fun b s' hb => ?_⟩
    obtain ⟨hinv, hmark, hnext⟩ := hok b s' hb
    exact ⟨hinv, hmark, ih _ hnext⟩
  | call c k ih => exact fun r => ih r (h r)

/-- A read leaves no mark; what follows may know more. -/
theorem observe {post : Except S.Fault β → Prop → Prop} {f : S.Env → S.Store → α}
    {rest : α → Prog S β} (hmarks : ∀ s, ¬ marks s s)
    (h : ∀ env s, inv s → (rest (f env s)).Warranted inv tells marks post
      (known ∨ tells α (fun env s => .ok (f env s, s)) env s)) :
    ((Prog.observe f).bind rest).Warranted inv tells marks post known := by
  refine fun env s hs => ⟨fun e he => (by cases he), fun b s' hb => ?_⟩
  obtain ⟨rfl, rfl⟩ := Prod.mk.inj (Except.ok.inj hb)
  exact ⟨hs, fun hmark => absurd hmark (hmarks s), h env s hs⟩

/-- A program whose transactions leave no mark needs no warrant. -/
theorem of_writes {R : S.Store → S.Store → Prop} {p : Prog S α} (h : p.Writes R)
    (hR : ∀ s s', R s s' → inv s → inv s' ∧ ¬ marks s s') :
    p.Warranted inv tells marks Anyhow known := by
  induction p generalizing known with
  | done r => trivial
  | commit t k ih =>
    refine fun env s hs => ⟨fun e _ => ih _ (h.2 (.error e)), fun b s' hb => ?_⟩
    obtain ⟨hinv, hnot⟩ := hR s s' (h.1 env s b s' hb) hs
    exact ⟨hinv, fun hmark => absurd hmark hnot, ih _ (h.2 (.ok b))⟩
  | call c k ih => exact fun r => ih r (h r)

/-- With its warrant at hand, a program may mark what it likes. -/
theorem of_known {R : S.Store → S.Store → Prop} {p : Prog S α} (hknown : known) (h : p.Writes R)
    (hR : ∀ s s', R s s' → inv s → inv s') : p.Warranted inv tells marks Anyhow known := by
  induction p generalizing known with
  | done r => trivial
  | commit t k ih =>
    refine fun env s hs => ⟨fun e _ => ih _ (.inl hknown) (h.2 (.error e)), fun b s' hb => ?_⟩
    exact ⟨hR s s' (h.1 env s b s' hb) hs, fun _ => .inl hknown, ih _ (.inl hknown) (h.2 (.ok b))⟩
  | call c k ih => exact fun r => ih r hknown (h r)

end Prog.Warranted

/-- Each running program is warranted by something that is the case. -/
def Config.Warranted {K : Type} (inv : S.Store → Prop) (tells : Remark S)
    (marks : S.Store → S.Store → Prop) (Q : Prop) (c : Config S K) : Prop :=
  ∀ k p, c.running k = some p → ∃ known : Prop, (known → Q) ∧
    p.Warranted inv tells marks Prog.Warranted.Anyhow known

variable {K : Type} [DecidableEq K] {inv : S.Store → Prop} {tells : Remark S}
  {marks : S.Store → S.Store → Prop} {Q : Prop}

theorem Config.Warranted.update {c : Config S K} (h : c.Warranted inv tells marks Q) (k : K)
    {p : Option (Prog S Unit)} (hp : ∀ q, p = some q → ∃ known : Prop, (known → Q) ∧
      q.Warranted inv tells marks Prog.Warranted.Anyhow known) (w : World S) :
    (⟨w, Function.update c.running k p⟩ : Config S K).Warranted inv tells marks Q := by
  intro j q hq
  by_cases hj : j = k
  · subst hj
    exact hp q (by simpa using hq)
  · exact h j q (by simpa [Function.update_of_ne hj] using hq)

/-- **Step lemma.**  Where what is said of a transaction holds of `Q`, a step keeps every running
    program warranted by `Q`, and a mark means `Q`, unless it is nobody's. -/
theorem System.StepIn.warranted {sys : System S K} {may : Remark S}
    (hjobs : ∀ k p, sys.job k p → ∀ known, p.Warranted inv tells marks Prog.Warranted.Anyhow known)
    (htells : ∀ β t env s, may β t env s → tells β t env s → Q) {c c' : Config S K}
    (hc : c.Warranted inv tells marks Q) (hinv : inv c.world.store)
    (hstep : sys.StepIn may c c') :
    c'.Warranted inv tells marks Q ∧ (c'.world.store = c.world.store ∨
      (inv c'.world.store ∧ (marks c.world.store c'.world.store → Q)) ∨
      sys.other c.world c'.world) := by
  cases hstep with
  | start k p free job =>
    refine ⟨hc.update k (fun q hq => ?_) c.world, .inl rfl⟩
    obtain rfl := Option.some.inj hq
    exact ⟨False, False.elim, hjobs k _ job False⟩
  | commit k t next env b s here within ok =>
    obtain ⟨known, hknown, hwarranted⟩ := hc k _ here
    obtain ⟨hs, hmark, hnext⟩ := (hwarranted env c.world.store hinv).2 b s ok
    have hlearnt : known ∨ tells _ t env c.world.store → Q := fun h =>
      h.elim hknown (htells _ t env _ within)
    refine ⟨hc.update k (fun q hq => ?_) _, .inr (.inl ⟨hs, fun h => hlearnt (hmark h)⟩)⟩
    obtain rfl := Option.some.inj hq
    exact ⟨_, hlearnt, hnext⟩
  | refuse k t next env e here within error =>
    obtain ⟨known, hknown, hwarranted⟩ := hc k _ here
    refine ⟨hc.update k (fun q hq => ?_) _, .inl rfl⟩
    obtain rfl := Option.some.inj hq
    exact ⟨_, fun h => h.elim hknown (htells _ t env _ within),
      (hwarranted env c.world.store hinv).1 e error⟩
  | call k q next r here allowed =>
    obtain ⟨known, hknown, hwarranted⟩ := hc k _ here
    refine ⟨hc.update k (fun p hp => ?_) _, .inl rfl⟩
    obtain rfl := Option.some.inj hp
    exact ⟨known, hknown, hwarranted r⟩
  | stop k => exact ⟨hc.update k (fun _ h => by cases h) _, .inl rfl⟩
  | other w h => exact ⟨hc, .inr (.inr h)⟩

end Durable
