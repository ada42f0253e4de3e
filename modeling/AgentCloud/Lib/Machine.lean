/-
  MACHINES: processes that share the files of one host, die with it, and can be seen to be alive.

  A pool (`Durable.System`) forgets a worker that stops.  On a machine a process is also an entry in
  a table that others may look at: a slot's process is entered when it starts (`born`) and leaves the
  table when it ends, is killed or crashes (`gone`).  A reboot ends every process at once and changes
  what the files do not hold.

  The contracts are those of pools, with one simplification: what a process may rely on is whatever
  the others' changes lead to (`Contract.interleaved`), so that a fact is stable once each single
  change of another process keeps it.

  Nothing here mentions a particular store, call or process.
-/
import AgentCloud.Lib.Triple

namespace Durable

variable {S : Interface} {K : Type}

/-! ## Contracts without a separate rely -/

/-- The contract whose rely is any number of changes of the others. -/
def Contract.interleaved (valid : World S → Prop) (does : K → World S → World S → Prop)
    (allows : World S → (c : S.Call) → S.Reply c → Prop)
    (does_valid : ∀ {k w w'}, valid w → does k w w' → valid w') : Contract S K where
  valid := valid
  rely k := Relation.ReflTransGen fun w w' => valid w ∧ ∃ j, j ≠ k ∧ does j w w'
  does := does
  allows := allows
  rely_refl _ _ := .refl
  rely_trans := .trans
  does_valid := does_valid
  does_rely hw hne h := .single ⟨hw, _, hne, h⟩

/-- What each change of another process keeps, is stable. -/
theorem stable_interleaved {valid : World S → Prop} {does : K → World S → World S → Prop}
    {allows : World S → (c : S.Call) → S.Reply c → Prop}
    {does_valid : ∀ {k w w'}, valid w → does k w w' → valid w'} {k : K} {P : World S → Prop}
    (h : ∀ j w w', j ≠ k → valid w → does j w w' → P w → P w') :
    Stable (Contract.interleaved valid does allows does_valid) k P := by
  intro w v hrely hP
  induction hrely with
  | refl => exact hP
  | tail _ hstep ih =>
    obtain ⟨hvalid, j, hne, hdoes⟩ := hstep
    exact h j _ _ hne hvalid hdoes ih

theorem Stable.and {C : Contract S K} {k : K} {P Q : World S → Prop} (hP : Stable C k P)
    (hQ : Stable C k Q) : Stable C k fun w => P w ∧ Q w :=
  fun w v hrely h => ⟨hP w v hrely h.1, hQ w v hrely h.2⟩

theorem Stable.or {C : Contract S K} {k : K} {P Q : World S → Prop} (hP : Stable C k P)
    (hQ : Stable C k Q) : Stable C k fun w => P w ∨ Q w :=
  fun w v hrely h => h.imp (hP w v hrely) (hQ w v hrely)

theorem Stable.imp {C : Contract S K} {k : K} {p : Prop} {P : World S → Prop}
    (hP : Stable C k P) : Stable C k fun w => p → P w :=
  fun w v hrely h hp => hP w v hrely (h hp)

theorem Stable.all {C : Contract S K} {k : K} {ι : Type} {P : ι → World S → Prop}
    (hP : ∀ i, Stable C k (P i)) : Stable C k fun w => ∀ i, P i w :=
  fun w v hrely h i => hP i w v hrely (h i)

theorem Stable.const {C : Contract S K} {k : K} {p : Prop} : Stable C k fun _ => p :=
  fun _ _ _ h => h

/-! ## Machines -/

/-- Which programs a slot may run, how a process of a slot is entered in the machine's table and
    leaves it, what a reboot does to the store, and the replies of the outside. -/
structure Machine (S : Interface) (K : Type) where
  job : K → Prog S Unit → Prop
  born : K → S.Store → S.Store
  gone : K → S.Store → S.Store
  reboot : S.Store → S.Store → Prop
  allows : World S → (c : S.Call) → S.Reply c → Prop

namespace Machine

variable [DecidableEq K]

/-- One step of the machine. -/
inductive Step (m : Machine S K) : Config S K → Config S K → Prop where
  | start {c : Config S K} (k : K) (p : Prog S Unit) (free : c.running k = none) (job : m.job k p) :
      Step m c ⟨c.world.put (m.born k c.world.store), Function.update c.running k (some p)⟩
  | commit {c : Config S K} (k : K) {β : Type}
      (t : S.Env → S.Store → Except S.Fault (β × S.Store)) (next : Except S.Fault β → Prog S Unit)
      (env : S.Env) (b : β) (s : S.Store) (here : c.running k = some (.commit t next))
      (ok : t env c.world.store = .ok (b, s)) :
      Step m c ⟨c.world.put s, Function.update c.running k (some (next (.ok b)))⟩
  | refuse {c : Config S K} (k : K) {β : Type}
      (t : S.Env → S.Store → Except S.Fault (β × S.Store)) (next : Except S.Fault β → Prog S Unit)
      (env : S.Env) (e : S.Fault) (here : c.running k = some (.commit t next))
      (error : t env c.world.store = .error e) :
      Step m c { c with running := Function.update c.running k (some (next (.error e))) }
  | call {c : Config S K} (k : K) (q : S.Call) (next : S.Reply q → Prog S Unit) (r : S.Reply q)
      (here : c.running k = some (.call q next)) (allowed : m.allows c.world q r) :
      Step m c ⟨c.world.exchange q r, Function.update c.running k (some (next r))⟩
  | stop {c : Config S K} (k : K) (p : Prog S Unit) (here : c.running k = some p) :
      Step m c ⟨c.world.put (m.gone k c.world.store), Function.update c.running k none⟩
  | reboot {c : Config S K} (s : S.Store) (h : m.reboot c.world.store s) :
      Step m c (Config.idle (c.world.put s))

/-- Reachable in any number of steps. -/
abbrev Reach (m : Machine S K) : Config S K → Config S K → Prop := Relation.ReflTransGen m.Step

/-! ## Scenarios -/

/-- What is to happen next: a job starts, a process performs some of its actions, a process ends. -/
inductive Move (S : Interface) (K : Type) : Type 1 where
  | start (k : K) (p : Prog S Unit)
  | act (k : K) (n : Nat)
  | stop (k : K)

/-- The executable reading of a move, with chosen environments and replies. -/
def play (m : Machine S K) (env : World S → S.Env)
    (reply : World S → (c : S.Call) → S.Reply c) (c : Config S K) : Move S K → Config S K
  | .start k p =>
    if (c.running k).isNone then
      ⟨c.world.put (m.born k c.world.store), Function.update c.running k (some p)⟩
    else c
  | .act k n =>
    match c.running k with
    | none => c
    | some p => ⟨(p.runFor env reply n c.world).2,
        Function.update c.running k (some (p.runFor env reply n c.world).1)⟩
  | .stop k =>
    if (c.running k).isSome then
      ⟨c.world.put (m.gone k c.world.store), Function.update c.running k none⟩
    else c

/-- A process may perform any number of its actions. -/
theorem reach_runFor (m : Machine S K) (k : K) (env : World S → S.Env)
    (reply : World S → (c : S.Call) → S.Reply c) (allowed : ∀ w c, m.allows w c (reply w c))
    (n : Nat) (p : Prog S Unit) (c : Config S K) (here : c.running k = some p) :
    m.Reach c ⟨(p.runFor env reply n c.world).2,
      Function.update c.running k (some (p.runFor env reply n c.world).1)⟩ := by
  have hstay : m.Reach c ⟨c.world, Function.update c.running k (some p)⟩ := by
    have heq : Function.update c.running k (some p) = c.running := by
      rw [← here]
      exact Function.update_eq_self k c.running
    simpa only [heq] using (Relation.ReflTransGen.refl : m.Reach c c)
  induction n generalizing p c with
  | zero => simpa [Prog.runFor] using hstay
  | succ n ih =>
    cases p with
    | done r => simpa [Prog.runFor] using hstay
    | commit t next =>
      rw [Prog.runFor]
      split
      · next e he =>
        refine .head (.refuse k t next (env c.world) e here he) ?_
        simpa using ih (next (.error e)) { c with running := Function.update c.running k _ }
          (by simp) (by simpa using .refl)
      · next b s he =>
        refine .head (.commit k t next (env c.world) b s here he) ?_
        simpa using ih (next (.ok b)) ⟨c.world.put s, Function.update c.running k _⟩ (by simp)
          (by simpa using .refl)
    | call q next =>
      refine .head (.call k q next (reply c.world q) here (allowed _ _)) ?_
      simpa [Prog.runFor] using ih (next (reply c.world q))
        ⟨c.world.exchange q _, Function.update c.running k _⟩ (by simp) (by simpa using .refl)

/-- A scenario is a run, if the jobs that start in it are jobs. -/
theorem reach_play (m : Machine S K) (env : World S → S.Env)
    (reply : World S → (c : S.Call) → S.Reply c) (allowed : ∀ w c, m.allows w c (reply w c))
    (moves : List (Move S K)) (jobs : ∀ k p, .start k p ∈ moves → m.job k p) (c : Config S K) :
    m.Reach c (moves.foldl (m.play env reply) c) := by
  induction moves generalizing c with
  | nil => exact .refl
  | cons move moves ih =>
    refine Relation.ReflTransGen.trans ?_
      (ih (fun k p h => jobs k p (List.mem_cons_of_mem move h)) (m.play env reply c move))
    cases move with
    | start k p =>
      rw [play]
      split
      · next hfree =>
        exact .single (.start k p (Option.isNone_iff_eq_none.mp hfree) (jobs k p (by simp)))
      · exact .refl
    | act k n =>
      rw [play]
      split
      · exact .refl
      · next p here => exact m.reach_runFor k env reply allowed n p c here
    | stop k =>
      rw [play]
      split
      · next hrunning =>
        obtain ⟨p, hp⟩ := Option.isSome_iff_exists.mp hrunning
        exact .single (.stop k p hp)
      · exact .refl

/-! ## The invariant rule -/

/-- The machine keeps the contract. -/
structure Keeps (m : Machine S K) (C : Contract S K) : Prop where
  born : ∀ {k w}, C.valid w → C.does k w (w.put (m.born k w.store))
  gone : ∀ {k w}, C.valid w → C.does k w (w.put (m.gone k w.store))
  job_safe : ∀ {k p w}, m.job k p → C.valid w →
    Safe C k (fun _ _ => True) p (w.put (m.born k w.store))
  reboot : ∀ {w s}, C.valid w → m.reboot w.store s → C.valid (w.put s)
  allows : ∀ {w c r}, C.valid w → m.allows w c r → C.allows w c r

/-- The effect of one step on the world. -/
inductive Effect (m : Machine S K) (C : Contract S K) (w : World S) : World S → Prop where
  | idle : Effect m C w w
  | does (k : K) {w' : World S} (h : C.does k w w') : Effect m C w w'
  | reboot {s : S.Store} (h : m.reboot w.store s) : Effect m C w (w.put s)

namespace Keeps

open Discipline

variable {m : Machine S K} {C : Contract S K}

/-- What a process leaves behind is in order for the others. -/
theorem inOrder_of_stop {c : Config S K} (hc : InOrder C c) {k : K} {w' : World S}
    (hd : C.does k c.world w') : InOrder C ⟨w', Function.update c.running k none⟩ := by
  refine ⟨C.does_valid hc.1 hd, fun j q hq => ?_⟩
  by_cases hj : j = k
  · subst hj
    simp at hq
  · have hq' : c.running j = some q := by simpa [Function.update_of_ne hj] using hq
    exact (hc.2 j q hq').shift (C.does_rely hc.1 (Ne.symm hj) hd) fun _ h => h

/-- **Step lemma.** -/
theorem step (h : m.Keeps C) {c c' : Config S K} (hc : InOrder C c) (hs : m.Step c c') :
    InOrder C c' ∧ Effect m C c.world c'.world := by
  cases hs with
  | start k p free job =>
    have hd := h.born (k := k) hc.1
    exact ⟨inOrder_of_does hc hd (h.job_safe job hc.1), .does k hd⟩
  | commit k t next env b s here ok =>
    have := hc.2 k _ here c.world (C.rely_refl k _) hc.1 env
    rw [ok] at this
    exact ⟨inOrder_of_does hc this.1 this.2, .does k this.1⟩
  | refuse k t next env e here error =>
    have := hc.2 k _ here c.world (C.rely_refl k _) hc.1 env
    rw [error] at this
    refine ⟨⟨hc.1, fun j q hq => ?_⟩, .idle⟩
    by_cases hj : j = k
    · subst hj
      simp only [Function.update_self, Option.some.injEq] at hq
      exact hq ▸ this
    · exact hc.2 j q (by simpa [Function.update_of_ne hj] using hq)
  | call k q next r here allowed =>
    have := hc.2 k _ here c.world (C.rely_refl k _) hc.1 r (h.allows hc.1 allowed)
    exact ⟨inOrder_of_does hc this.1 this.2, .does k this.1⟩
  | stop k p here =>
    have hd := h.gone (k := k) hc.1
    exact ⟨inOrder_of_stop hc hd, .does k hd⟩
  | reboot s hreboot => exact ⟨inOrder_idle (h.reboot hc.1 hreboot), .reboot hreboot⟩

/-- **Run lemma.**  Every reachable configuration is in order. -/
theorem inOrder (h : m.Keeps C) {c c' : Config S K} (hc : InOrder C c) (hr : m.Reach c c') :
    InOrder C c' := by
  induction hr with
  | refl => exact hc
  | tail _ hs ih => exact (h.step ih hs).1

/-- What relates the two ends of every change and of every reboot relates the two ends of every
    run, if it is a preorder. -/
theorem transition (h : m.Keeps C) {T : World S → World S → Prop} (hrefl : ∀ w, T w w)
    (htrans : ∀ {a b c}, T a b → T b c → T a c)
    (hdoes : ∀ {k w w'}, C.valid w → C.does k w w' → T w w')
    (hreboot : ∀ {w s}, C.valid w → m.reboot w.store s → T w (w.put s))
    {c c' : Config S K} (hc : InOrder C c) (hr : m.Reach c c') : T c.world c'.world := by
  induction hr with
  | refl => exact hrefl _
  | @tail d e hd hs ih =>
    have hin := h.inOrder hc hd
    have hvalid := hin.1
    have heffect := (h.step hin hs).2
    refine htrans ih ?_
    generalize e.world = w at heffect
    cases heffect with
    | idle => exact hrefl _
    | does k hk => exact hdoes hvalid hk
    | reboot hk => exact hreboot hvalid hk

end Keeps

end Machine

end Durable
