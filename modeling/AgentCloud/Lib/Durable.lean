/-
  DURABLE PROGRAMS: workers that keep their state in a transactional store and act on the
  outside world through calls whose replies they cannot predict.

  A worker is a tree of ATOMIC actions (`Prog`).  `commit` is one transaction: a function of the
  store, which either returns a value with the next store or refuses and leaves the store alone.
  `call` is one exchange with the outside: it changes no row, its reply is arbitrary.  A worker
  may die between any two actions, and then only the store and the outside's memory of the calls
  (`World.log`) remain; nothing a worker held in its own variables survives.

  The proof rule is rely/guarantee with the crash built in.  `Safe C k post p w` says: whatever
  the other workers do in between (`C.rely k`) and whatever is replied, every atomic action that
  `p` performs, started at the world `w`, is one of the changes `C.does k`; and if `p` ends, it
  ends in `post`.  Because the obligation is discharged at each action, cutting `p` off after any
  of them needs no argument.  `Pool` then runs any number of workers against one store, and
  `Discipline.invariant` / `Discipline.transition` turn the `Safe`ty of every job into facts about
  every reachable configuration: all that is left to show is what ONE change preserves.

  Nothing here mentions a particular store, call or worker.
-/
import Mathlib.Logic.Relation
import Mathlib.Logic.Function.Basic

namespace Durable

/-! ## Programs -/

/-- What a family of workers is written against: the rows (`Store`), what a transaction reads
    besides them (`Env`: clocks, fresh identifiers, tables somebody else owns), the calls to the
    outside with the type of each reply, and what may be thrown. -/
structure Interface where
  Env : Type
  Store : Type
  Call : Type
  Reply : Call → Type
  Fault : Type

/-- A worker: a tree of atomic actions.  A refused transaction (`.error`) is handed to the
    continuation as well, so a worker can catch it. -/
inductive Prog (S : Interface) (α : Type) : Type 1 where
  | done (r : Except S.Fault α)
  | commit {β : Type} (t : S.Env → S.Store → Except S.Fault (β × S.Store))
      (k : Except S.Fault β → Prog S α)
  | call (c : S.Call) (k : S.Reply c → Prog S α)

namespace Prog

variable {S : Interface} {α β : Type}

/-- Sequencing; a thrown fault skips the rest. -/
def bind : Prog S α → (α → Prog S β) → Prog S β
  | .done (.ok a), f => f a
  | .done (.error e), _ => .done (.error e)
  | .commit t k, f => .commit t fun r => (k r).bind f
  | .call c k, f => .call c fun r => (k r).bind f

instance : Monad (Prog S) where
  pure a := .done (.ok a)
  bind := Prog.bind

def throw (e : S.Fault) : Prog S α := .done (.error e)

/-- `try p catch h`: the handler sees the fault and the store as `p` left it. -/
def tryCatch : Prog S α → (S.Fault → Prog S α) → Prog S α
  | .done (.ok a), _ => .done (.ok a)
  | .done (.error e), h => h e
  | .commit t k, h => .commit t fun r => (k r).tryCatch h
  | .call c k, h => .call c fun r => (k r).tryCatch h

/-- The outcome of a program as a value. -/
def attempt : Prog S α → Prog S (Except S.Fault α)
  | .done r => .done (.ok r)
  | .commit t k => .commit t fun r => (k r).attempt
  | .call c k => .call c fun r => (k r).attempt

/-- `try p finally q`. -/
def ensure (p : Prog S α) (q : Prog S Unit) : Prog S α :=
  p.attempt.bind fun r => q.bind fun _ => .done r

/-- One transaction, whose refusal is thrown. -/
def transact (t : S.Env → S.Store → Except S.Fault (α × S.Store)) : Prog S α :=
  .commit t .done

/-- One transaction that only reads rows. -/
def read (f : S.Store → α) : Prog S α := .commit (fun _ s => .ok (f s, s)) .done

/-- One transaction that only reads, the environment included. -/
def observe (f : S.Env → S.Store → α) : Prog S α := .commit (fun e s => .ok (f e s, s)) .done

/-- One call, whose reply is the result. -/
def ask (c : S.Call) : Prog S (S.Reply c) := .call c fun r => .done (.ok r)

/-- A value computed without touching anything, which may be a fault. -/
def ofExcept (r : Except S.Fault α) : Prog S α := .done r

/-- A program whose result nobody waits for. -/
def ignore (p : Prog S α) : Prog S Unit := p.bind fun _ => .done (.ok ())

/-- `for (const a of as) await f(a)`. -/
def forEach : List α → (α → Prog S Unit) → Prog S Unit
  | [], _ => pure ()
  | a :: as, f => (f a).bind fun _ => forEach as f

@[simp] theorem pure_def (a : α) : (pure a : Prog S α) = .done (.ok a) := rfl
@[simp] theorem bind_def (p : Prog S α) (f : α → Prog S β) : (p >>= f) = p.bind f := rfl
@[simp] theorem bind_ok (a : α) (f : α → Prog S β) : (done (.ok a) : Prog S α).bind f = f a := rfl
@[simp] theorem bind_error (e : S.Fault) (f : α → Prog S β) :
    (done (.error e) : Prog S α).bind f = .done (.error e) := rfl
@[simp] theorem bind_throw (e : S.Fault) (f : α → Prog S β) :
    (throw e : Prog S α).bind f = throw e := rfl

end Prog

/-! ## Worlds -/

/-- One call together with the reply it was given.  The reply is remembered even when the worker
    died before reading it: a lost reply is a reply nobody used. -/
structure Exchange (S : Interface) where
  call : S.Call
  reply : S.Reply call

/-- The store and everything the outside has been asked, oldest first. -/
structure World (S : Interface) where
  store : S.Store
  log : List (Exchange S)

namespace World

variable {S : Interface}

def put (w : World S) (s : S.Store) : World S := { w with store := s }

def exchange (w : World S) (c : S.Call) (r : S.Reply c) : World S :=
  { w with log := w.log ++ [⟨c, r⟩] }

@[simp] theorem put_store (w : World S) (s : S.Store) : (w.put s).store = s := rfl
@[simp] theorem put_log (w : World S) (s : S.Store) : (w.put s).log = w.log := rfl
@[simp] theorem put_self (w : World S) : w.put w.store = w := rfl
@[simp] theorem exchange_store (w : World S) (c : S.Call) (r : S.Reply c) :
    (w.exchange c r).store = w.store := rfl
@[simp] theorem exchange_log (w : World S) (c : S.Call) (r : S.Reply c) :
    (w.exchange c r).log = w.log ++ [⟨c, r⟩] := rfl

end World

/-- The uninterrupted run of a worker with chosen environments and replies: the executable
    reading of a program, used to evaluate concrete scenarios. -/
def Prog.run {S : Interface} {α : Type} (env : World S → S.Env)
    (reply : World S → (c : S.Call) → S.Reply c) : Prog S α → World S → Except S.Fault α × World S
  | .done r, w => (r, w)
  | .commit t k, w =>
    match t (env w) w.store with
    | .error e => (k (.error e)).run env reply w
    | .ok (b, s) => (k (.ok b)).run env reply (w.put s)
  | .call c k, w => (k (reply w c)).run env reply (w.exchange c (reply w c))

/-- The first actions of such a run: what the worker has still to do, and the world. -/
def Prog.runFor {S : Interface} {α : Type} (env : World S → S.Env)
    (reply : World S → (c : S.Call) → S.Reply c) : Nat → Prog S α → World S → Prog S α × World S
  | n + 1, .commit t k, w =>
    match t (env w) w.store with
    | .error e => (k (.error e)).runFor env reply n w
    | .ok (b, s) => (k (.ok b)).runFor env reply n (w.put s)
  | n + 1, .call c k, w => (k (reply w c)).runFor env reply n (w.exchange c (reply w c))
  | _, p, w => (p, w)

/-- What the workers of a pool promise each other, worker by worker.  `valid` is an invariant of
    the world, `rely k` what may happen between two actions of worker `k`, `does k` the changes
    worker `k` may make, `allows` the replies that are considered. -/
structure Contract (S : Interface) (K : Type) where
  valid : World S → Prop
  rely : K → World S → World S → Prop
  does : K → World S → World S → Prop
  allows : World S → (c : S.Call) → S.Reply c → Prop
  rely_refl : ∀ k w, rely k w w
  rely_trans : ∀ {k a b c}, rely k a b → rely k b c → rely k a c
  does_valid : ∀ {k w w'}, valid w → does k w w' → valid w'
  does_rely : ∀ {j k w w'}, valid w → j ≠ k → does j w w' → rely k w w'

/-- Every action of `p`, started at `w` and interleaved with anything `rely k` permits, is a
    change `does k`, and `p` ends in `post` if it ends. -/
def Safe {S : Interface} {K α : Type} (C : Contract S K) (k : K)
    (post : Except S.Fault α → World S → Prop) : Prog S α → World S → Prop
  | .done r, w => post r w
  | .commit t next, w => ∀ v, C.rely k w v → C.valid v → ∀ env,
      match t env v.store with
      | .error e => Safe C k post (next (.error e)) v
      | .ok (b, s) => C.does k v (v.put s) ∧ Safe C k post (next (.ok b)) (v.put s)
  | .call c next, w => ∀ v, C.rely k w v → C.valid v → ∀ r, C.allows v c r →
      C.does k v (v.exchange c r) ∧ Safe C k post (next r) (v.exchange c r)

/-- A postcondition on the normal end, and one on a fault. -/
def Told {S : Interface} {α : Type} (Q : α → World S → Prop) (E : S.Fault → World S → Prop) :
    Except S.Fault α → World S → Prop
  | .ok a, w => Q a w
  | .error e, w => E e w

/-- A postcondition on the normal end alone. -/
abbrev Ends {S : Interface} {α : Type} (Q : α → World S → Prop) :
    Except S.Fault α → World S → Prop := Told Q fun _ _ => True

namespace Safe

variable {S : Interface} {K α β : Type} {C : Contract S K} {k : K}

/-- Consequence: only the postcondition weakens, so the change discipline is untouched. -/
theorem mono {post post' : Except S.Fault α → World S → Prop} {p : Prog S α} {w : World S}
    (h : Safe C k post p w) (hp : ∀ r v, post r v → post' r v) : Safe C k post' p w := by
  induction p generalizing w with
  | done r => exact hp r w h
  | commit t next ih =>
    intro v hv hvalid env
    have := h v hv hvalid env
    split
    · next e he => rw [he] at this; exact ih _ this
    · next b s he => rw [he] at this; exact ⟨this.1, ih _ this.2⟩
  | call c next ih =>
    intro v hv hvalid r hr
    obtain ⟨hd, hs⟩ := h v hv hvalid r hr
    exact ⟨hd, ih r hs⟩

/-- Sequencing: the rest of the program is part of the postcondition of the first half. -/
theorem bind {post : Except S.Fault β → World S → Prop} {p : Prog S α} {f : α → Prog S β}
    {w : World S}
    (h : Safe C k (fun r v => match r with
      | .ok a => Safe C k post (f a) v
      | .error e => post (.error e) v) p w) :
    Safe C k post (p.bind f) w := by
  induction p generalizing w with
  | done r => cases r <;> exact h
  | commit t next ih =>
    intro v hv hvalid env
    have := h v hv hvalid env
    split
    · next e he => rw [he] at this; exact ih _ this
    · next b s he => rw [he] at this; exact ⟨this.1, ih _ this.2⟩
  | call c next ih =>
    intro v hv hvalid r hr
    obtain ⟨hd, hs⟩ := h v hv hvalid r hr
    exact ⟨hd, ih r hs⟩

/-- Handling: a fault of the body is answered from the world the body left behind. -/
theorem tryCatch {post : Except S.Fault α → World S → Prop} {p : Prog S α}
    {handler : S.Fault → Prog S α} {w : World S}
    (h : Safe C k (fun r v => match r with
      | .ok a => post (.ok a) v
      | .error e => Safe C k post (handler e) v) p w) :
    Safe C k post (p.tryCatch handler) w := by
  induction p generalizing w with
  | done r => cases r <;> exact h
  | commit t next ih =>
    intro v hv hvalid env
    have := h v hv hvalid env
    split
    · next e he => rw [he] at this; exact ih _ this
    · next b s he => rw [he] at this; exact ⟨this.1, ih _ this.2⟩
  | call c next ih =>
    intro v hv hvalid r hr
    obtain ⟨hd, hs⟩ := h v hv hvalid r hr
    exact ⟨hd, ih r hs⟩

theorem attempt {post : Except S.Fault (Except S.Fault α) → World S → Prop} {p : Prog S α}
    {w : World S} (h : Safe C k (fun r v => post (.ok r) v) p w) : Safe C k post p.attempt w := by
  induction p generalizing w with
  | done r => exact h
  | commit t next ih =>
    intro v hv hvalid env
    have := h v hv hvalid env
    split
    · next e he => rw [he] at this; exact ih _ this
    · next b s he => rw [he] at this; exact ⟨this.1, ih _ this.2⟩
  | call c next ih =>
    intro v hv hvalid r hr
    obtain ⟨hd, hs⟩ := h v hv hvalid r hr
    exact ⟨hd, ih r hs⟩

/-- A worker that has not acted yet does not notice what the others did meanwhile. -/
theorem shift {post : Except S.Fault α → World S → Prop} {p : Prog S α} {w v : World S}
    (h : Safe C k post p w) (hv : C.rely k w v) (hpost : ∀ r, post r w → post r v) :
    Safe C k post p v := by
  cases p with
  | done r => exact hpost r h
  | commit t next => exact fun u hu => h u (C.rely_trans hv hu)
  | call c next => exact fun u hu => h u (C.rely_trans hv hu)

/-- A transaction: one change, at whatever world it finally runs in. -/
theorem transact {post : Except S.Fault α → World S → Prop}
    {t : S.Env → S.Store → Except S.Fault (α × S.Store)} {w : World S}
    (h : ∀ v, C.rely k w v → C.valid v → ∀ env,
      (∀ e, t env v.store = .error e → post (.error e) v) ∧
      (∀ a s, t env v.store = .ok (a, s) → C.does k v (v.put s) ∧ post (.ok a) (v.put s))) :
    Safe C k post (Prog.transact t) w := by
  intro v hv hvalid env
  obtain ⟨herr, hok⟩ := h v hv hvalid env
  split
  · next e he => exact herr e he
  · next a s he => exact hok a s he

/-- A read changes nothing: it only needs the trivial change. -/
theorem observe {post : Except S.Fault α → World S → Prop} {f : S.Env → S.Store → α}
    {w : World S} (hrefl : ∀ v, C.does k v v)
    (h : ∀ v, C.rely k w v → C.valid v → ∀ env, post (.ok (f env v.store)) v) :
    Safe C k post (Prog.observe f) w :=
  fun v hv hvalid env => ⟨hrefl v, h v hv hvalid env⟩

theorem read {post : Except S.Fault α → World S → Prop} {f : S.Store → α} {w : World S}
    (hrefl : ∀ v, C.does k v v)
    (h : ∀ v, C.rely k w v → C.valid v → post (.ok (f v.store)) v) :
    Safe C k post (Prog.read f) w :=
  fun v hv hvalid _ => ⟨hrefl v, h v hv hvalid⟩

/-- Whatever a program ends in, ignoring its result ends in nothing to show. -/
theorem ignore {post : Except S.Fault α → World S → Prop} {p : Prog S α} {w : World S}
    (h : Safe C k post p w) : Safe C k (fun _ _ => True) p.ignore w :=
  bind (h.mono fun r _ _ => by cases r <;> trivial)

theorem ask {c : S.Call} {post : Except S.Fault (S.Reply c) → World S → Prop} {w : World S}
    (h : ∀ v, C.rely k w v → C.valid v → ∀ r, C.allows v c r →
      C.does k v (v.exchange c r) ∧ post (.ok r) (v.exchange c r)) :
    Safe C k post (Prog.ask c) w := h

/-- Sequencing when a fault of either half ends the same way: each half ends in its own condition. -/
theorem seq {Q : α → World S → Prop} {R : β → World S → Prop} {E : S.Fault → World S → Prop}
    {p : Prog S α} {f : α → Prog S β} {w : World S} (h : Safe C k (Told Q E) p w)
    (hnext : ∀ a v, Q a v → Safe C k (Told R E) (f a) v) : Safe C k (Told R E) (p.bind f) w :=
  bind (h.mono fun r v hr => by
    cases r with
    | ok a => exact hnext a v hr
    | error e => exact hr)

/-- A transaction that need not return: its refusal says nothing. -/
theorem commit {Q : α → World S → Prop} {t : S.Env → S.Store → Except S.Fault (α × S.Store)}
    {w : World S}
    (h : ∀ v env a s, C.rely k w v → C.valid v → t env v.store = .ok (a, s) →
      C.does k v (v.put s) ∧ Q a (v.put s)) : Safe C k (Ends Q) (Prog.transact t) w :=
  transact fun v hv hvalid env => ⟨fun _ _ => trivial, fun a s hok => h v env a s hv hvalid hok⟩

theorem ends {Q : α → World S → Prop} {E : S.Fault → World S → Prop} {a : α} {w : World S}
    (h : Q a w) : Safe C k (Told Q E) (pure a) w := h

/-- A value computed without touching anything. -/
theorem ofExcept {Q : α → World S → Prop} {r : Except S.Fault α} {w : World S}
    (h : ∀ a, r = .ok a → Q a w) : Safe C k (Ends Q) (Prog.ofExcept r) w := by
  cases r with
  | ok a => exact h a rfl
  | error e => trivial

/-- Handling a fault, from what the body's fault says. -/
theorem handle {Q : α → World S → Prop} {E F : S.Fault → World S → Prop} {p : Prog S α}
    {handler : S.Fault → Prog S α} {w : World S} (h : Safe C k (Told Q E) p w)
    (hhandler : ∀ e v, E e v → Safe C k (Told Q F) (handler e) v) :
    Safe C k (Told Q F) (p.tryCatch handler) w :=
  tryCatch (h.mono fun r v hr => by
    cases r with
    | ok a => exact hr
    | error e => exact hhandler e v hr)

/-- Handling a fault, when the body's fault says nothing about the world. -/
theorem recover {Q : α → World S → Prop} {p : Prog S α} {handler : S.Fault → Prog S α}
    {w : World S} (h : Safe C k (Ends Q) p w)
    (hhandler : ∀ e v, Safe C k (Ends Q) (handler e) v) :
    Safe C k (Ends Q) (p.tryCatch handler) w :=
  handle h fun e v _ => hhandler e v

/-- `finally` runs after either end, and must be safe from any world. -/
theorem ensure {post : Except S.Fault α → World S → Prop} {p : Prog S α} {q : Prog S Unit}
    {w : World S} (h : Safe C k post p w) (hq : ∀ v, Safe C k (Ends fun _ _ => True) q v) :
    Safe C k (Ends fun _ _ => True) (p.ensure q) w :=
  seq (attempt (h.mono fun _ _ _ => trivial)) fun r v _ =>
    seq (hq v) fun _ _ _ => by cases r <;> trivial

/-- A loop keeps what each round keeps. -/
theorem forEach {post : Except S.Fault Unit → World S → Prop} {inv : World S → Prop}
    {as : List α} {f : α → Prog S Unit} {w : World S} (hw : inv w)
    (hround : ∀ a ∈ as, ∀ v, inv v → Safe C k (fun r u => match r with
      | .ok _ => inv u
      | .error e => post (.error e) u) (f a) v)
    (hend : ∀ v, inv v → post (.ok ()) v) : Safe C k post (Prog.forEach as f) w := by
  induction as generalizing w with
  | nil => exact hend w hw
  | cons a as ih =>
    refine bind ((hround a (by simp) w hw).mono fun r v hv => ?_)
    cases r with
    | error e => exact hv
    | ok _ => exact ih hv fun b hb => hround b (by simp [hb])

end Safe

/-! ## Two contracts at once -/

/-- Both contracts. -/
def Contract.both {S : Interface} {K : Type} (C D : Contract S K) : Contract S K where
  valid w := C.valid w ∧ D.valid w
  rely k w w' := C.rely k w w' ∧ D.rely k w w'
  does k w w' := C.does k w w' ∧ D.does k w w'
  allows w c r := C.allows w c r ∧ D.allows w c r
  rely_refl k w := ⟨C.rely_refl k w, D.rely_refl k w⟩
  rely_trans h h' := ⟨C.rely_trans h.1 h'.1, D.rely_trans h.2 h'.2⟩
  does_valid hw h := ⟨C.does_valid hw.1 h.1, D.does_valid hw.2 h.2⟩
  does_rely hw hne h := ⟨C.does_rely hw.1 hne h.1, D.does_rely hw.2 hne h.2⟩

/-- A program that keeps each of two contracts keeps both with every action. -/
theorem Safe.both {S : Interface} {K α : Type} {C D : Contract S K} {k : K}
    {post post' : Except S.Fault α → World S → Prop} {p : Prog S α} {w : World S}
    (h : Safe C k post p w) (h' : Safe D k post' p w) :
    Safe (C.both D) k (fun r v => post r v ∧ post' r v) p w := by
  induction p generalizing w with
  | done r => exact ⟨h, h'⟩
  | commit t next ih =>
    intro v hv hvalid env
    have hc := h v hv.1 hvalid.1 env
    have hd := h' v hv.2 hvalid.2 env
    split
    · next e he =>
      rw [he] at hc hd
      exact ih _ hc hd
    · next b s he =>
      rw [he] at hc hd
      exact ⟨⟨hc.1, hd.1⟩, ih _ hc.2 hd.2⟩
  | call c next ih =>
    intro v hv hvalid r hr
    obtain ⟨hdoes, hsafe⟩ := h v hv.1 hvalid.1 r hr.1
    obtain ⟨hdoes', hsafe'⟩ := h' v hv.2 hvalid.2 r hr.2
    exact ⟨⟨hdoes, hdoes'⟩, ih r hsafe hsafe'⟩

/-! ## Pools -/

/-- A pool of workers on one store: which programs may be started in a slot (a slot runs one at a
    time, which is how a lock appears here), what happens to the world without any of them, and
    which replies the outside may give. -/
structure System (S : Interface) (K : Type) where
  job : K → Prog S Unit → Prop
  other : World S → World S → Prop
  allows : World S → (c : S.Call) → S.Reply c → Prop

structure Config (S : Interface) (K : Type) where
  world : World S
  running : K → Option (Prog S Unit)

def Config.idle {S : Interface} {K : Type} (w : World S) : Config S K := ⟨w, fun _ => none⟩

namespace System

variable {S : Interface} {K : Type} [DecidableEq K]

/-- One step of the pool.  `stop` is both a normal end and a process death: it may hit a worker
    after any of its actions. -/
inductive Step (sys : System S K) : Config S K → Config S K → Prop where
  | start {c : Config S K} (k : K) (p : Prog S Unit) (free : c.running k = none)
      (job : sys.job k p) : Step sys c { c with running := Function.update c.running k (some p) }
  | commit {c : Config S K} (k : K) {β : Type}
      (t : S.Env → S.Store → Except S.Fault (β × S.Store)) (next : Except S.Fault β → Prog S Unit)
      (env : S.Env) (b : β) (s : S.Store) (here : c.running k = some (.commit t next))
      (ok : t env c.world.store = .ok (b, s)) :
      Step sys c ⟨c.world.put s, Function.update c.running k (some (next (.ok b)))⟩
  | refuse {c : Config S K} (k : K) {β : Type}
      (t : S.Env → S.Store → Except S.Fault (β × S.Store)) (next : Except S.Fault β → Prog S Unit)
      (env : S.Env) (e : S.Fault) (here : c.running k = some (.commit t next))
      (error : t env c.world.store = .error e) :
      Step sys c { c with running := Function.update c.running k (some (next (.error e))) }
  | call {c : Config S K} (k : K) (q : S.Call) (next : S.Reply q → Prog S Unit) (r : S.Reply q)
      (here : c.running k = some (.call q next)) (allowed : sys.allows c.world q r) :
      Step sys c ⟨c.world.exchange q r, Function.update c.running k (some (next r))⟩
  | stop {c : Config S K} (k : K) :
      Step sys c { c with running := Function.update c.running k none }
  | other {c : Config S K} (w : World S) (h : sys.other c.world w) : Step sys c { c with world := w }

/-- Reachable in any number of steps. -/
abbrev Reach (sys : System S K) : Config S K → Config S K → Prop := Relation.ReflTransGen sys.Step

/-- A step of a pool that may do less is a step of the pool that may do more. -/
theorem Step.mono {sys sys' : System S K} {c c' : Config S K} (h : sys.Step c c')
    (job : ∀ k p, sys.job k p → sys'.job k p) (other : ∀ w w', sys.other w w' → sys'.other w w')
    (allows : ∀ w c r, sys.allows w c r → sys'.allows w c r) : sys'.Step c c' := by
  cases h with
  | start k p free hjob => exact .start k p free (job k p hjob)
  | commit k t next env b s here ok => exact .commit k t next env b s here ok
  | refuse k t next env e here error => exact .refuse k t next env e here error
  | call k q next r here allowed => exact .call k q next r here (allows _ q r allowed)
  | stop k => exact .stop k
  | other w hother => exact .other w (other _ w hother)

/-- Running a started worker to its end with chosen environments and replies is one run of the
    pool, provided the pool allows those replies. -/
theorem reach_run (sys : System S K) (k : K) (env : World S → S.Env)
    (reply : World S → (c : S.Call) → S.Reply c) (allowed : ∀ w c, sys.allows w c (reply w c))
    (p : Prog S Unit) (c : Config S K) (here : c.running k = some p) :
    sys.Reach c ⟨(p.run env reply c.world).2,
      Function.update c.running k (some (.done (p.run env reply c.world).1))⟩ := by
  induction p generalizing c with
  | done r =>
    have : Function.update c.running k (some (.done r)) = c.running := by
      rw [← here]; exact Function.update_eq_self k c.running
    simp only [Prog.run, this]
    exact .refl
  | commit t next ih =>
    rw [Prog.run]
    split
    · next e he =>
      refine .head (.refuse k t next (env c.world) e here he) ?_
      simpa using ih (.error e) { c with running := Function.update c.running k _ } (by simp)
    · next b s he =>
      refine .head (.commit k t next (env c.world) b s here he) ?_
      simpa using ih (.ok b) ⟨c.world.put s, Function.update c.running k _⟩ (by simp)
  | call q next ih =>
    refine .head (.call k q next (reply c.world q) here (allowed _ _)) ?_
    simpa [Prog.run] using
      ih (reply c.world q) ⟨c.world.exchange q _, Function.update c.running k _⟩ (by simp)

/-- Start a job in a free slot, run it to its end, and release the slot. -/
theorem reach_job (sys : System S K) (k : K) (env : World S → S.Env)
    (reply : World S → (c : S.Call) → S.Reply c) (allowed : ∀ w c, sys.allows w c (reply w c))
    (p : Prog S Unit) (w : World S) (job : sys.job k p) :
    sys.Reach (Config.idle w) (Config.idle (p.run env reply w).2) := by
  have h1 : sys.Step (Config.idle w) _ := .start k p rfl job
  have h2 := sys.reach_run k env reply allowed p
    { (Config.idle w : Config S K) with running := Function.update (fun _ => none) k (some p) } (by simp)
  have h3 := Relation.ReflTransGen.head h1 h2
  refine h3.tail ?_
  have h4 : sys.Step ⟨(p.run env reply w).2, Function.update
      (Function.update (fun _ => none) k (some p)) k (some (.done (p.run env reply w).1))⟩ _ :=
    .stop k
  have hidle : Function.update (Function.update (Function.update (fun _ => none) k (some p)) k
      (some (.done (p.run env reply w).1))) k none = fun _ => none := by
    funext j
    by_cases hj : j = k
    · subst hj; simp
    · simp [Function.update_of_ne hj]
  simpa [Config.idle, hidle] using h4

/-- A started worker may have performed any number of its actions. -/
theorem reach_runFor (sys : System S K) (k : K) (env : World S → S.Env)
    (reply : World S → (c : S.Call) → S.Reply c) (allowed : ∀ w c, sys.allows w c (reply w c))
    (n : Nat) (p : Prog S Unit) (c : Config S K) (here : c.running k = some p) :
    sys.Reach c ⟨(p.runFor env reply n c.world).2,
      Function.update c.running k (some (p.runFor env reply n c.world).1)⟩ := by
  have hstay : sys.Reach c ⟨c.world, Function.update c.running k (some p)⟩ := by
    have heq : Function.update c.running k (some p) = c.running := by
      rw [← here]
      exact Function.update_eq_self k c.running
    simpa only [heq] using (Relation.ReflTransGen.refl : sys.Reach c c)
  induction n generalizing p c with
  | zero => simpa [Prog.runFor] using hstay
  | succ n ih =>
    cases p with
    | done r => simpa [Prog.runFor] using hstay
    | commit t next =>
      rw [Prog.runFor]
      split
      · next e he =>
        refine .head (.refuse k t next (env c.world) e here he) ?_
        simpa using ih (next (.error e)) { c with running := Function.update c.running k _ }
          (by simp) (by simpa using .refl)
      · next b s he =>
        refine .head (.commit k t next (env c.world) b s here he) ?_
        simpa using ih (next (.ok b)) ⟨c.world.put s, Function.update c.running k _⟩ (by simp)
          (by simpa using .refl)
    | call q next =>
      refine .head (.call k q next (reply c.world q) here (allowed _ _)) ?_
      simpa [Prog.runFor] using ih (next (reply c.world q))
        ⟨c.world.exchange q _, Function.update c.running k _⟩ (by simp) (by simpa using .refl)

/-- A job that ran alone for `n` of its actions, and then something else happened. -/
theorem reach_midway (sys : System S K) (k : K) (env : World S → S.Env)
    (reply : World S → (c : S.Call) → S.Reply c) (allowed : ∀ w c, sys.allows w c (reply w c))
    (p : Prog S Unit) (n : Nat) {w v : World S} (job : sys.job k p)
    (other : sys.other (p.runFor env reply n w).2 v) :
    sys.Reach (Config.idle w)
      ⟨v, Function.update (fun _ => none) k (some (p.runFor env reply n w).1)⟩ := by
  have h1 : sys.Step (Config.idle w) ⟨w, Function.update (fun _ => none) k (some p)⟩ :=
    .start k p rfl job
  have h2 := sys.reach_runFor k env reply allowed n p
    ⟨w, Function.update (fun _ => none) k (some p)⟩ (by simp)
  simp only [Function.update_idem] at h2
  exact .head h1 (h2.tail (.other (c := ⟨_, _⟩) v other))

/-- A job that died after `n` of its actions. -/
theorem reach_died (sys : System S K) (k : K) (env : World S → S.Env)
    (reply : World S → (c : S.Call) → S.Reply c) (allowed : ∀ w c, sys.allows w c (reply w c))
    (p : Prog S Unit) (n : Nat) {w : World S} (job : sys.job k p) :
    sys.Reach (Config.idle w) (Config.idle (p.runFor env reply n w).2) := by
  have h1 : sys.Step (Config.idle w) ⟨w, Function.update (fun _ => none) k (some p)⟩ :=
    .start k p rfl job
  have h2 := sys.reach_runFor k env reply allowed n p
    ⟨w, Function.update (fun _ => none) k (some p)⟩ (by simp)
  simp only [Function.update_idem] at h2
  have h3 : sys.Step ⟨(p.runFor env reply n w).2, Function.update (fun _ => none) k
      (some (p.runFor env reply n w).1)⟩ ⟨(p.runFor env reply n w).2, Function.update
        (Function.update (fun _ => none) k (some (p.runFor env reply n w).1)) k none⟩ := .stop k
  have hidle : Function.update (Function.update (fun _ => none) k
      (some (p.runFor env reply n w).1)) k none = (fun _ => none : K → Option (Prog S Unit)) := by
    simp
  rw [hidle] at h3
  exact .head h1 (h2.tail h3)

/-- A job that runs alone, but for one thing that happens after `n` of its actions. -/
theorem reach_interrupted (sys : System S K) (k : K) (env : World S → S.Env)
    (reply : World S → (c : S.Call) → S.Reply c) (allowed : ∀ w c, sys.allows w c (reply w c))
    (p : Prog S Unit) (n : Nat) {w v : World S} (job : sys.job k p)
    (other : sys.other (p.runFor env reply n w).2 v) :
    sys.Reach (Config.idle w) (Config.idle ((p.runFor env reply n w).1.run env reply v).2) := by
  have h1 := sys.reach_midway k env reply allowed p n job other
  generalize (p.runFor env reply n w).1 = q at h1 ⊢
  have h2 := sys.reach_run k env reply allowed q ⟨v, Function.update (fun _ => none) k (some q)⟩
    (by simp)
  have h3 : sys.Step ⟨(q.run env reply v).2, Function.update (fun _ => none) k
      (some (.done (q.run env reply v).1))⟩ (Config.idle (q.run env reply v).2) := by
    have hstop : sys.Step ⟨(q.run env reply v).2, Function.update (fun _ => none) k
        (some (.done (q.run env reply v).1))⟩ ⟨(q.run env reply v).2,
        Function.update (Function.update (fun _ => none) k
          (some (.done (q.run env reply v).1))) k none⟩ := .stop k
    simpa [Config.idle] using hstop
  simp only [Function.update_idem] at h2
  exact h1.trans (h2.tail h3)

end System

/-! ## The invariant rule -/

/-- The system keeps the contract: every job is safe from every valid world, what nobody's worker
    does is within every worker's `rely`, and the replies are the ones the contract considers. -/
structure Discipline {S : Interface} {K : Type} (sys : System S K) (C : Contract S K) : Prop where
  job_safe : ∀ {k p w}, sys.job k p → C.valid w → Safe C k (fun _ _ => True) p w
  other_valid : ∀ {w w'}, C.valid w → sys.other w w' → C.valid w'
  other_rely : ∀ {k w w'}, C.valid w → sys.other w w' → C.rely k w w'
  allows : ∀ {w c r}, C.valid w → sys.allows w c r → C.allows w c r

namespace Discipline

variable {S : Interface} {K : Type} [DecidableEq K] {sys : System S K} {C : Contract S K}

omit [DecidableEq K] in
/-- A system that may do less keeps the contract as well. -/
theorem mono {sys' : System S K} (h : Discipline sys' C) (job : ∀ k p, sys.job k p → sys'.job k p)
    (other : ∀ w w', sys.other w w' → sys'.other w w')
    (allows : ∀ w c r, sys.allows w c r → sys'.allows w c r) : Discipline sys C where
  job_safe hjob hw := h.job_safe (job _ _ hjob) hw
  other_valid hw hother := h.other_valid hw (other _ _ hother)
  other_rely hw hother := h.other_rely hw (other _ _ hother)
  allows hw hallowed := h.allows hw (allows _ _ _ hallowed)

omit [DecidableEq K] in
/-- A system that keeps two contracts keeps both with every action. -/
theorem both {D : Contract S K} (h : Discipline sys C) (h' : Discipline sys D) :
    Discipline sys (C.both D) where
  job_safe hjob hw :=
    (Safe.both (h.job_safe hjob hw.1) (h'.job_safe hjob hw.2)).mono fun _ _ _ => trivial
  other_valid hw hother := ⟨h.other_valid hw.1 hother, h'.other_valid hw.2 hother⟩
  other_rely hw hother := ⟨h.other_rely hw.1 hother, h'.other_rely hw.2 hother⟩
  allows hw hallowed := ⟨h.allows hw.1 hallowed, h'.allows hw.2 hallowed⟩

/-- A reachable configuration is in order: its world is valid and every running worker is safe. -/
def InOrder (C : Contract S K) (c : Config S K) : Prop :=
  C.valid c.world ∧ ∀ k p, c.running k = some p → Safe C k (fun _ _ => True) p c.world

/-- The effect of one pool step on the world. -/
inductive Effect (sys : System S K) (C : Contract S K) (w : World S) : World S → Prop where
  | idle : Effect sys C w w
  | does (k : K) {w' : World S} (h : C.does k w w') : Effect sys C w w'
  | other {w' : World S} (h : sys.other w w') : Effect sys C w w'

omit [DecidableEq K] in
theorem Effect.elim {w w' : World S} {P : World S → Prop} (he : Effect sys C w w') (hidle : P w)
    (hdoes : ∀ k, C.does k w w' → P w') (hother : sys.other w w' → P w') : P w' := by
  cases he with
  | idle => exact hidle
  | does k h => exact hdoes k h
  | other h => exact hother h

/-- A worker that just acted leaves every other worker safe. -/
theorem inOrder_of_does {c : Config S K} (hc : InOrder C c) {k : K} {w' : World S} {p : Prog S Unit}
    (hd : C.does k c.world w') (hp : Safe C k (fun _ _ => True) p w') :
    InOrder C ⟨w', Function.update c.running k (some p)⟩ := by
  refine ⟨C.does_valid hc.1 hd, fun j q hq => ?_⟩
  by_cases hj : j = k
  · subst hj
    simp only [Function.update_self, Option.some.injEq] at hq
    exact hq ▸ hp
  · have hq' : c.running j = some q := by simpa [Function.update_of_ne hj] using hq
    exact (hc.2 j q hq').shift (C.does_rely hc.1 (Ne.symm hj) hd) fun _ h => h

/-- **Step lemma.** From an ordered configuration a step leads to an ordered configuration, and
    the world changed only by one of the permitted effects. -/
theorem step (h : Discipline sys C) {c c' : Config S K} (hc : InOrder C c) (hs : sys.Step c c') :
    InOrder C c' ∧ Effect sys C c.world c'.world := by
  cases hs with
  | start k p free job =>
    refine ⟨⟨hc.1, fun j q hq => ?_⟩, .idle⟩
    by_cases hj : j = k
    · subst hj
      simp only [Function.update_self, Option.some.injEq] at hq
      exact hq ▸ h.job_safe job hc.1
    · exact hc.2 j q (by simpa [Function.update_of_ne hj] using hq)
  | commit k t next env b s here ok =>
    have := hc.2 k _ here c.world (C.rely_refl k _) hc.1 env
    rw [ok] at this
    exact ⟨inOrder_of_does hc this.1 this.2, .does k this.1⟩
  | refuse k t next env e here error =>
    have := hc.2 k _ here c.world (C.rely_refl k _) hc.1 env
    rw [error] at this
    refine ⟨⟨hc.1, fun j q hq => ?_⟩, .idle⟩
    by_cases hj : j = k
    · subst hj
      simp only [Function.update_self, Option.some.injEq] at hq
      exact hq ▸ this
    · exact hc.2 j q (by simpa [Function.update_of_ne hj] using hq)
  | call k q next r here allowed =>
    have := hc.2 k _ here c.world (C.rely_refl k _) hc.1 r (h.allows hc.1 allowed)
    exact ⟨inOrder_of_does hc this.1 this.2, .does k this.1⟩
  | stop k =>
    refine ⟨⟨hc.1, fun j q hq => ?_⟩, .idle⟩
    by_cases hj : j = k
    · subst hj; simp at hq
    · exact hc.2 j q (by simpa [Function.update_of_ne hj] using hq)
  | other w hw =>
    exact ⟨⟨h.other_valid hc.1 hw, fun j q hq =>
      (hc.2 j q hq).shift (h.other_rely hc.1 hw) fun _ hp => hp⟩, .other hw⟩

omit [DecidableEq K] in
theorem inOrder_idle {w : World S} (hw : C.valid w) : InOrder C (Config.idle w) :=
  ⟨hw, fun _ _ hp => by simp [Config.idle] at hp⟩

/-- **Run lemma.** Every reachable configuration is in order. -/
theorem inOrder (h : Discipline sys C) {c c' : Config S K} (hc : InOrder C c)
    (hr : sys.Reach c c') : InOrder C c' := by
  induction hr with
  | refl => exact hc
  | tail _ hs ih => exact (h.step ih hs).1

/-- What one permitted change keeps, every run keeps. -/
theorem invariant (h : Discipline sys C) {P : World S → Prop}
    (hdoes : ∀ {k w w'}, C.valid w → P w → C.does k w w' → P w')
    (hother : ∀ {w w'}, C.valid w → P w → sys.other w w' → P w')
    {c c' : Config S K} (hc : InOrder C c) (hP : P c.world) (hr : sys.Reach c c') :
    P c'.world := by
  induction hr with
  | refl => exact hP
  | @tail d e hd hs ih =>
    have hin := h.inOrder hc hd
    exact (h.step hin hs).2.elim ih (fun _ hk => hdoes hin.1 ih hk) (hother hin.1 ih)

/-- What relates the two ends of every permitted change relates the two ends of every run, if it
    is a preorder. -/
theorem transition (h : Discipline sys C) {T : World S → World S → Prop}
    (hrefl : ∀ w, T w w) (htrans : ∀ {a b c}, T a b → T b c → T a c)
    (hdoes : ∀ {k w w'}, C.valid w → C.does k w w' → T w w')
    (hother : ∀ {w w'}, C.valid w → sys.other w w' → T w w')
    {c c' : Config S K} (hc : InOrder C c) (hr : sys.Reach c c') : T c.world c'.world := by
  induction hr with
  | refl => exact hrefl _
  | @tail d e hd hs ih =>
    have hin := h.inOrder hc hd
    exact htrans ih ((h.step hin hs).2.elim (hrefl _) (fun _ hk => hdoes hin.1 hk) (hother hin.1))

end Discipline

end Durable
