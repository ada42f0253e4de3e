/-
  TRIPLES: Hoare's rules for the workers of a contract.

  `Triple C k P p Q E` says: started where `P` holds, worker `k` makes only permitted changes while
  it runs `p`, and ends in `Q` or fails in `E`.  It is `Safe` with a precondition, so that programs
  are verified function by function, each against its own triple, and a caller never unfolds a
  callee.

  What a worker knows must survive what the others do until its next action: the two rules for
  actions ask for a `Stable` precondition.  Where one worker runs at a time and nobody else touches
  the rows it works on, everything it has read is stable.

  Nothing here mentions a particular store, call or worker.
-/
import AgentCloud.Lib.Durable

namespace Durable

variable {S : Interface} {K α β : Type}

/-- Both ends of a program. -/
def Post (Q : α → World S → Prop) (E : S.Fault → World S → Prop) :
    Except S.Fault α → World S → Prop
  | .ok a, w => Q a w
  | .error e, w => E e w

/-- What the others cannot disturb. -/
def Stable (C : Contract S K) (k : K) (P : World S → Prop) : Prop :=
  ∀ w v, C.rely k w v → P w → P v

def Triple (C : Contract S K) (k : K) (P : World S → Prop) (p : Prog S α)
    (Q : α → World S → Prop) (E : S.Fault → World S → Prop) : Prop :=
  ∀ w, P w → Safe C k (Post Q E) p w

namespace Triple

variable {C : Contract S K} {k : K} {P P' : World S → Prop} {Q Q' : α → World S → Prop}
  {R : β → World S → Prop} {E E' : S.Fault → World S → Prop}

/-! ## Consequence -/

theorem pre {p : Prog S α} (h : Triple C k P p Q E) (hP : ∀ w, P' w → P w) :
    Triple C k P' p Q E :=
  fun w hw => h w (hP w hw)

theorem post {p : Prog S α} (h : Triple C k P p Q E) (hQ : ∀ a w, Q a w → Q' a w)
    (hE : ∀ e w, E e w → E' e w) : Triple C k P p Q' E' :=
  fun w hw => (h w hw).mono fun r v hr => by
    cases r with
    | ok a => exact hQ a v hr
    | error e => exact hE e v hr

/-- What a precondition names may be introduced before the program. -/
theorem ex {γ : Type} {P : γ → World S → Prop} {p : Prog S α}
    (h : ∀ x, Triple C k (P x) p Q E) : Triple C k (fun w => ∃ x, P x w) p Q E :=
  fun w ⟨x, hw⟩ => h x w hw

/-- A part of the precondition that does not depend on the world. -/
theorem fact {φ : Prop} {p : Prog S α} (h : φ → Triple C k P p Q E) :
    Triple C k (fun w => φ ∧ P w) p Q E :=
  fun w ⟨hφ, hw⟩ => h hφ w hw

/-! ## Programs that do not act -/

theorem pure {a : α} (h : ∀ w, P w → Q a w) : Triple C k P (Pure.pure a : Prog S α) Q E := h

theorem throw {e : S.Fault} (h : ∀ w, P w → E e w) : Triple C k P (Prog.throw e : Prog S α) Q E := h

theorem ofExcept {r : Except S.Fault α} (hok : ∀ a, r = .ok a → ∀ w, P w → Q a w)
    (herror : ∀ e, r = .error e → ∀ w, P w → E e w) : Triple C k P (Prog.ofExcept r) Q E := by
  intro w hw
  cases r with
  | ok a => exact hok a rfl w hw
  | error e => exact herror e rfl w hw

/-! ## Sequencing and handling -/

theorem bind {p : Prog S α} {f : α → Prog S β} (h : Triple C k P p Q E)
    (hnext : ∀ a, Triple C k (Q a) (f a) R E) : Triple C k P (p.bind f) R E :=
  fun w hw => Safe.bind ((h w hw).mono fun r v hr => by
    cases r with
    | ok a => exact hnext a v hr
    | error e => exact hr)

theorem handle {F : S.Fault → World S → Prop} {p : Prog S α} {handler : S.Fault → Prog S α}
    (h : Triple C k P p Q F) (hhandler : ∀ e, Triple C k (F e) (handler e) Q E) : Triple C k P (p.tryCatch handler) Q E :=
  fun w hw => Safe.tryCatch ((h w hw).mono fun r v hr => by
    cases r with
    | ok a => exact hr
    | error e => exact hhandler e v hr)

/-! ## Actions -/

/-- A transaction: a refusal changes nothing, a commit is one permitted change. -/
theorem transact {t : S.Env → S.Store → Except S.Fault (α × S.Store)} (hP : Stable C k P)
    (herror : ∀ v, P v → C.valid v → ∀ env e, t env v.store = .error e → E e v)
    (hok : ∀ v, P v → C.valid v → ∀ env a s, t env v.store = .ok (a, s) →
      C.does k v (v.put s) ∧ (C.valid (v.put s) → Q a (v.put s))) :
    Triple C k P (Prog.transact t) Q E := by
  intro w hw
  refine Safe.transact fun v hv hvalid env => ⟨fun e he => ?_, fun a s hs => ?_⟩
  · exact herror v (hP w v hv hw) hvalid env e he
  · obtain ⟨hdoes, hQ⟩ := hok v (hP w v hv hw) hvalid env a s hs
    exact ⟨hdoes, hQ (C.does_valid hvalid hdoes)⟩

/-- A transaction that only reads. -/
theorem observe {f : S.Env → S.Store → α} (hP : Stable C k P) (hrefl : ∀ v, C.does k v v)
    (h : ∀ v, P v → C.valid v → ∀ env, Q (f env v.store) v) :
    Triple C k P (Prog.observe f) Q E :=
  fun w hw => Safe.observe hrefl fun v hv hvalid env => h v (hP w v hv hw) hvalid env

theorem read {f : S.Store → α} (hP : Stable C k P) (hrefl : ∀ v, C.does k v v)
    (h : ∀ v, P v → C.valid v → Q (f v.store) v) : Triple C k P (Prog.read f) Q E :=
  fun w hw => Safe.read hrefl fun v hv hvalid => h v (hP w v hv hw) hvalid

theorem ask {c : S.Call} {Q : S.Reply c → World S → Prop} (hP : Stable C k P)
    (h : ∀ v, P v → C.valid v → ∀ r, C.allows v c r →
      C.does k v (v.exchange c r) ∧ Q r (v.exchange c r)) :
    Triple C k P (Prog.ask c) Q E :=
  fun w hw => Safe.ask fun v hv hvalid r hr => h v (hP w v hv hw) hvalid r hr

/-! ## What lasts -/

/-- What neither the worker's own actions nor the others end is there at the end. -/
theorem lasting {I : World S → Prop} {p : Prog S α} (hI : Stable C k I)
    (hdoes : ∀ w w', I w → C.does k w w' → I w') (h : Triple C k P p Q E) :
    Triple C k (fun w => P w ∧ I w) p (fun a w => Q a w ∧ I w) (fun e w => E e w ∧ I w) := by
  rintro w ⟨hP, hw⟩
  have hsafe := h w hP
  clear hP h
  induction p generalizing w with
  | done r => cases r <;> exact ⟨hsafe, hw⟩
  | commit t next ih =>
    intro v hv hvalid env
    have hnext := hsafe v hv hvalid env
    have hIv := hI w v hv hw
    split
    · next e he =>
      rw [he] at hnext
      exact ih _ v hIv hnext
    · next b s hs =>
      rw [hs] at hnext
      exact ⟨hnext.1, ih _ _ (hdoes v _ hIv hnext.1) hnext.2⟩
  | call c next ih =>
    intro v hv hvalid r hr
    obtain ⟨hd, hnext⟩ := hsafe v hv hvalid r hr
    exact ⟨hd, ih r _ (hdoes v _ (hI w v hv hw) hd) hnext⟩

/-! ## Jobs -/

/-- A program that may start anywhere. -/
theorem safe {p : Prog S α} (h : Triple C k (fun _ => True) p Q E) (w : World S) :
    Safe C k (fun _ _ => True) p w :=
  (h w trivial).mono fun _ _ _ => trivial

end Triple

end Durable
