/-
  EFFECTS AT MOST ONCE: the mark is committed first, the effect is asked for afterwards.

  Some calls cannot be taken back: a signature, an upload, a purchase.  Where a worker may die
  between any two actions, the only way to ask for such an effect at most once is to commit a MARK
  of it beforehand and never to ask for an effect whose mark was found on arrival.  Losing the
  effect is accepted, repeating it is not.

  `Marks` is that protocol for a family of durable programs: which call is which effect (`effect`,
  with a key), which worker may ask for it (`owner`), when a store contains its mark (`mark`), and
  what the workers may write at all.  The obligations on it are about stores only.  `contract`
  turns them into a contract for the pool, and every run from then on has the three facts of the
  last section: each effect at most once, each with its mark still in the store, and each asked for
  in a store that was ready for it.
-/
import AgentCloud.Lib.Durable
import Mathlib.Tactic.ByContra

namespace Durable

structure Marks (S : Interface) (κ K : Type) where
  /-- The effect that a call performs. -/
  effect : S.Call → Option κ
  owner : κ → K
  /-- The store contains the mark of the call.  Marks are never removed. -/
  mark : S.Store → S.Call → Prop
  /-- What else must hold when the call is made. -/
  ready : S.Store → S.Call → Prop
  inv : S.Store → Prop
  writes : K → S.Store → S.Store → Prop
  /-- What the other workers may do to the store. -/
  sees : K → S.Store → S.Store → Prop
  sees_refl : ∀ k s, sees k s s
  sees_trans : ∀ {k a b c}, sees k a b → sees k b c → sees k a c
  writes_refl : ∀ k s, writes k s s
  writes_inv : ∀ {k s s'}, inv s → writes k s s' → inv s'
  writes_sees : ∀ {j k s s'}, inv s → j ≠ k → writes j s s' → sees k s s'
  writes_mark : ∀ {k s s' c}, inv s → writes k s s' → mark s c → mark s' c

namespace Marks

variable {S : Interface} {κ K : Type} [DecidableEq κ] (M : Marks S κ K)

/-- How often an effect was asked for. -/
def count (log : List (Exchange S)) (x : κ) : Nat :=
  log.countP fun exchange => M.effect exchange.call = some x

structure Valid (w : World S) : Prop where
  inv : M.inv w.store
  once : ∀ x, M.count w.log x ≤ 1
  marked : ∀ exchange ∈ w.log, ∀ x, M.effect exchange.call = some x → M.mark w.store exchange.call

/-- The changes a worker may make. -/
inductive Does (k : K) (w : World S) : World S → Prop where
  | write (s : S.Store) (h : M.writes k w.store s) : Does k w (w.put s)
  | quiet (c : S.Call) (r : S.Reply c) (h : M.effect c = none) : Does k w (w.exchange c r)
  | effect (c : S.Call) (r : S.Reply c) (x : κ) (key : M.effect c = some x) (own : M.owner x = k)
      (first : M.count w.log x = 0) (mark : M.mark w.store c) (ready : M.ready w.store c) :
      Does k w (w.exchange c r)

/-- What a worker may count on: the store changes only as it may see, and nobody else asks for an
    effect it owns. -/
structure Rely (k : K) (w w' : World S) : Prop where
  store : M.sees k w.store w'.store
  log : ∀ x, M.owner x = k → M.count w'.log x = M.count w.log x

variable {M} {k : K} {w w' : World S}

theorem count_quiet {log : List (Exchange S)} {c : S.Call} {r : S.Reply c} {x : κ}
    (h : M.effect c ≠ some x) : M.count (log ++ [⟨c, r⟩]) x = M.count log x := by
  simp [count, h]

theorem count_effect {log : List (Exchange S)} {c : S.Call} {r : S.Reply c} {x : κ}
    (h : M.effect c = some x) : M.count (log ++ [⟨c, r⟩]) x = M.count log x + 1 := by
  simp [count, h]

/-- An effect without a mark has not been asked for. -/
theorem Valid.count_eq_zero {x : κ} (h : M.Valid w)
    (hnone : ∀ c, M.effect c = some x → ¬ M.mark w.store c) : M.count w.log x = 0 := by
  rw [count, List.countP_eq_zero]
  intro exchange hm heq
  have hx : M.effect exchange.call = some x := by simpa using heq
  exact hnone _ hx (h.marked exchange hm x hx)

theorem Does.valid (hw : M.Valid w) (h : M.Does k w w') : M.Valid w' := by
  cases h with
  | write s hs =>
    exact ⟨M.writes_inv hw.inv hs, hw.once, fun exchange hm x hx =>
      M.writes_mark hw.inv hs (hw.marked exchange hm x hx)⟩
  | quiet c r hc =>
    refine ⟨hw.inv, fun x => ?_, fun exchange hm x hx => ?_⟩
    · rw [World.exchange_log, count_quiet (by simp [hc])]
      exact hw.once x
    · rcases List.mem_append.mp hm with hm | hm
      · exact hw.marked exchange hm x hx
      · obtain rfl := List.mem_singleton.mp hm
        rw [hc] at hx
        cases hx
  | effect c r x key own first mark ready =>
    refine ⟨hw.inv, fun y => ?_, fun exchange hm y hy => ?_⟩
    · by_cases hxy : M.effect c = some y
      · obtain rfl : x = y := Option.some.inj (key.symm.trans hxy)
        rw [World.exchange_log, count_effect hxy]
        omega
      · rw [World.exchange_log, count_quiet hxy]
        exact hw.once y
    · rcases List.mem_append.mp hm with hm | hm
      · exact hw.marked exchange hm y hy
      · obtain rfl := List.mem_singleton.mp hm
        exact mark

theorem Does.rely {j : K} (hw : M.Valid w) (hne : j ≠ k) (h : M.Does j w w') : M.Rely k w w' := by
  cases h with
  | write s hs => exact ⟨M.writes_sees hw.inv hne hs, fun _ _ => rfl⟩
  | quiet c r hc =>
    exact ⟨M.sees_refl k _, fun x _ => count_quiet (by simp [hc])⟩
  | effect c r x key own first mark ready =>
    refine ⟨M.sees_refl k _, fun y hy => count_quiet fun hxy => ?_⟩
    obtain rfl : x = y := Option.some.inj (key.symm.trans hxy)
    exact hne (own.symm.trans hy)

variable (M)

/-- The contract of a pool of workers that keep to the marks. -/
def contract : Contract S K where
  valid := M.Valid
  rely := M.Rely
  does := M.Does
  allows _ _ _ := True
  rely_refl k _ := ⟨M.sees_refl k _, fun _ _ => rfl⟩
  rely_trans h h' := ⟨M.sees_trans h.store h'.store, fun x hx => (h'.log x hx).trans (h.log x hx)⟩
  does_valid := Does.valid
  does_rely := Does.rely

variable {M}

/-! ## What a worker knows

A worker's knowledge survives until its next action if the others cannot disturb it, and it
survives its own calls if they are no effects. -/

variable (M) in
structure Stable (k : K) (P : World S → Prop) : Prop where
  rely : ∀ {v v'}, M.Rely k v v' → P v → P v'
  quiet : ∀ {v c r}, M.effect c = none → P v → P (v.exchange c r)

theorem Stable.trivial : M.Stable k fun _ => True := ⟨fun _ _ => .intro, fun _ _ => .intro⟩

/-- Knowledge about rows that the others leave alone. -/
theorem Stable.of_store {P : S.Store → Prop} (h : ∀ {s s'}, M.sees k s s' → P s → P s') :
    M.Stable k fun v => P v.store := ⟨fun hv hP => h hv.store hP, fun _ hP => hP⟩

/-- An owned effect that was not asked for is not asked for by others. -/
theorem Stable.unasked {x : κ} (own : M.owner x = k) : M.Stable k fun v => M.count v.log x = 0 :=
  ⟨fun hv hP => (hv.log x own).trans hP, fun hc hP => (count_quiet (by simp [hc])).trans hP⟩

theorem Stable.and {P Q : World S → Prop} (hP : M.Stable k P) (hQ : M.Stable k Q) :
    M.Stable k fun v => P v ∧ Q v :=
  ⟨fun hv h => ⟨hP.rely hv h.1, hQ.rely hv h.2⟩, fun hc h => ⟨hP.quiet hc h.1, hQ.quiet hc h.2⟩⟩

/-! ## Rules for the three kinds of action -/

section Rules

variable {α : Type}

/-- A transaction, from what the worker still knows when it runs. -/
theorem safe_write {Q : α → World S → Prop}
    {t : S.Env → S.Store → Except S.Fault (α × S.Store)}
    (h : ∀ v env a s, M.Rely k w v → M.Valid v → t env v.store = .ok (a, s) →
      M.writes k v.store s ∧ Q a (v.put s)) :
    Safe M.contract k (Ends Q) (Prog.transact t) w :=
  Safe.commit fun v env a s hv hvalid hok =>
    have ⟨hwrites, hQ⟩ := h v env a s hv hvalid hok
    ⟨.write s hwrites, hQ⟩

/-- A call that performs no effect. -/
theorem safe_quiet {c : S.Call} {Q : S.Reply c → World S → Prop} (hc : M.effect c = none)
    (h : ∀ v r, M.Rely k w v → M.Valid v → Q r (v.exchange c r)) :
    Safe M.contract k (Ends Q) (Prog.ask c) w :=
  Safe.ask fun v hv hvalid r _ => ⟨.quiet c r hc, h v r hv hvalid⟩

/-- A call that performs no effect keeps what the worker knows. -/
theorem safe_ask {c : S.Call} {P : World S → Prop} (hP : M.Stable k P) (hc : M.effect c = none)
    (h : P w) : Safe M.contract k (Ends fun _ => P) (Prog.ask c) w :=
  safe_quiet hc fun _ _ hv _ => hP.quiet hc (hP.rely hv h)

/-- A transaction that only reads keeps what the worker knows, and learns what the valid store
    says. -/
theorem safe_look {P : World S → Prop} {Q : α → World S → Prop}
    {t : S.Env → S.Store → Except S.Fault (α × S.Store)} (hP : M.Stable k P) (h : P w)
    (hread : ∀ v env a s, P v → M.Valid v → t env v.store = .ok (a, s) →
      s = v.store ∧ Q a v) :
    Safe M.contract k (Ends Q) (Prog.transact t) w :=
  safe_write fun v env a s hv hvalid hok => by
    obtain ⟨rfl, hQ⟩ := hread v env a s (hP.rely hv h) hvalid hok
    exact ⟨M.writes_refl k _, hQ⟩

/-- An effect: its mark is in the store, and it was not asked for yet. -/
theorem safe_effect {c : S.Call} {Q : S.Reply c → World S → Prop} {x : κ}
    (key : M.effect c = some x) (own : M.owner x = k)
    (h : ∀ v, M.Rely k w v → M.Valid v →
      M.count v.log x = 0 ∧ M.mark v.store c ∧ M.ready v.store c ∧ ∀ r, Q r (v.exchange c r)) :
    Safe M.contract k (Ends Q) (Prog.ask c) w :=
  Safe.ask fun v hv hvalid r _ =>
    have ⟨first, mark, ready, hQ⟩ := h v hv hvalid
    ⟨.effect c r x key own first mark ready, hQ r⟩

end Rules

/-! ## Runs -/

section Runs

variable [DecidableEq K] {sys : System S K} {c c' : Config S K}

/-- **At most once.** -/
theorem once_of_reach (h : Discipline sys M.contract) (hw : M.Valid w)
    (hreach : sys.Reach (.idle w) c) (x : κ) : M.count c.world.log x ≤ 1 :=
  (h.inOrder (Discipline.inOrder_idle hw) hreach).1.once x

/-- **The mark is there.** -/
theorem mark_of_reach (h : Discipline sys M.contract) (hw : M.Valid w)
    (hreach : sys.Reach (.idle w) c) {exchange : Exchange S} (hm : exchange ∈ c.world.log) {x : κ}
    (hx : M.effect exchange.call = some x) : M.mark c.world.store exchange.call :=
  (h.inOrder (Discipline.inOrder_idle hw) hreach).1.marked exchange hm x hx

/-- **Marked first.**  A step in which an effect is asked for finds it marked, ready and new. -/
theorem marked_first (h : Discipline sys M.contract)
    (hother : ∀ {v v'}, sys.other v v' → v'.log = v.log)
    (hin : Discipline.InOrder M.contract c) (hstep : sys.Step c c') {q : S.Call} {r : S.Reply q}
    {x : κ} (hx : M.effect q = some x) (hlog : c'.world.log = c.world.log ++ [⟨q, r⟩]) :
    M.count c.world.log x = 0 ∧ M.mark c.world.store q ∧ M.ready c.world.store q := by
  have heffect := (h.step hin hstep).2
  generalize hw : c'.world = w' at heffect hlog
  cases heffect with
  | idle => simp at hlog
  | other ho => simp [hother ho] at hlog
  | does k hdoes =>
    cases hdoes with
    | write s hs => simp at hlog
    | quiet asked reply quiet =>
      have heq : (⟨asked, reply⟩ : Exchange S) = ⟨q, r⟩ := by simpa using hlog
      have hasked : asked = q := congrArg Exchange.call heq
      rw [hasked, hx] at quiet
      cases quiet
    | effect asked reply y key own first mark ready =>
      have heq : (⟨asked, reply⟩ : Exchange S) = ⟨q, r⟩ := by simpa using hlog
      have hasked : asked = q := congrArg Exchange.call heq
      subst hasked
      obtain rfl : y = x := Option.some.inj (key.symm.trans hx)
      exact ⟨first, mark, ready⟩

/-- What the permitted writes keep, every run keeps. -/
theorem store_invariant (h : Discipline sys M.contract) (hother : ∀ v v', ¬ sys.other v v')
    {P : S.Store → Prop} (hwrites : ∀ {k s s'}, M.inv s → P s → M.writes k s s' → P s')
    (hin : Discipline.InOrder M.contract c) (hP : P c.world.store) (hreach : sys.Reach c c') :
    P c'.world.store := by
  refine h.invariant (P := fun v => P v.store) ?_ (fun _ _ ho => absurd ho (hother _ _)) hin hP hreach
  intro k v v' hv hPv hdoes
  cases hdoes with
  | write s hs => exact hwrites hv.inv hPv hs
  | quiet c r hc => exact hPv
  | effect c r x key own first mark ready => exact hPv

/-- What relates the two ends of a permitted write relates the two ends of a run. -/
theorem store_transition (h : Discipline sys M.contract)
    {T : S.Store → S.Store → Prop} (hother : ∀ {v v'}, sys.other v v' → T v.store v'.store)
    (hrefl : ∀ s, T s s) (htrans : ∀ {a b c}, T a b → T b c → T a c)
    (hwrites : ∀ {k s s'}, M.writes k s s' → T s s') (hin : Discipline.InOrder M.contract c)
    (hreach : sys.Reach c c') : T c.world.store c'.world.store := by
  refine h.transition (T := fun v v' => T v.store v'.store) (fun v => hrefl v.store) htrans ?_
    (fun _ ho => hother ho) hin hreach
  intro k v v' _ hdoes
  cases hdoes with
  | write s hs => exact hwrites hs
  | quiet c r hc => exact hrefl _
  | effect c r x key own first mark ready => exact hrefl _

end Runs

end Marks

end Durable
