/-
  RULES FOR THE HOLDER OF A BUILD'S LOCK: triples on the rows of the build and on the log.

  `Verified id P p Q E` is a triple whose conditions are about the rows of build `id` and the
  exchanges alone.  What the holder knows must be `Calm`: it survives what happens without the lock,
  and calls that neither submit one of the build's effects nor ask about one of its actions.  A
  program that only reads and makes such calls is `Peaceful`, and keeps every calm condition.
-/
import AgentCloud.Images.Discipline

namespace AgentCloud.Images

open Checked Durable

/-! ## Conditions -/

/-- A condition on the rows of a build and the exchanges. -/
abbrev Condition := ImageBuild → Log → Prop

/-- The condition, of a world. -/
def Condition.holds (P : Condition) (id : ImageBuildId) (w : World interface) : Prop :=
  ∃ b, w.store.build id = some b ∧ P b w.log

/-- A call that says nothing about the effects of the build. -/
def Aside (b : ImageBuild) (c : Call) : Prop :=
  (∀ actionId ref, c ≠ .getAction b.id actionId ref) ∧ ∀ e ∈ b.effects, c.effect? ≠ some e.id

/-- Nothing that happens without the lock disturbs the condition. -/
structure Condition.Calm (P : Condition) : Prop where
  unlocked : ∀ {b b' log}, P b log → Unlocked b b' → P b' log
  aside : ∀ {b log exchange}, P b log → Aside b exchange.call → P b (log ++ [exchange])

theorem Condition.Calm.asides {P : Condition} (h : P.Calm) {b : ImageBuild} {log new : Log}
    (hP : P b log) (hnew : ∀ exchange ∈ new, Aside b exchange.call) : P b (log ++ new) := by
  induction new generalizing log with
  | nil => rw [List.append_nil]; exact hP
  | cons exchange new ih =>
    have hfirst := h.aside hP (hnew exchange List.mem_cons_self)
    have := ih hfirst fun other hm => hnew other (List.mem_cons_of_mem _ hm)
    rwa [List.append_assoc] at this

theorem Condition.Calm.stable {P : Condition} (h : P.Calm) (id : ImageBuildId) :
    Stable contract (.build id) (P.holds id) := by
  rintro w v sees ⟨b, hb, hP⟩
  obtain ⟨b', hb', hunlocked⟩ := sees.build id b hb
  obtain ⟨new, hlog, hforeign⟩ := sees.log
  refine ⟨b', hb', h.unlocked ?_ (hunlocked rfl)⟩
  rw [hlog]
  refine h.asides hP fun exchange hm => ?_
  obtain ⟨haction, heffect⟩ := hforeign exchange hm id rfl
  refine ⟨?_, heffect b hb⟩
  rw [Store.build_id hb]
  exact haction

/-- What depends on the journal and the resources alone. -/
theorem Condition.Calm.of_rows {P : List Effect → List Resource → Prop} :
    Condition.Calm fun b _ => P b.effects b.resources where
  unlocked hP hunlocked := by rw [hunlocked.effects, hunlocked.resources]; exact hP
  aside hP _ := hP

theorem Condition.Calm.and {P Q : Condition} (hP : P.Calm) (hQ : Q.Calm) :
    Condition.Calm fun b l => P b l ∧ Q b l where
  unlocked h hunlocked := ⟨hP.unlocked h.1 hunlocked, hQ.unlocked h.2 hunlocked⟩
  aside h haside := ⟨hP.aside h.1 haside, hQ.aside h.2 haside⟩

theorem Condition.Calm.exists {γ : Type} {P : γ → Condition} (h : ∀ x, (P x).Calm) :
    Condition.Calm fun b l => ∃ x, P x b l where
  unlocked := fun ⟨x, hx⟩ hunlocked => ⟨x, (h x).unlocked hx hunlocked⟩
  aside := fun ⟨x, hx⟩ haside => ⟨x, (h x).aside hx haside⟩

theorem Condition.Calm.const {φ : Prop} : Condition.Calm fun _ _ => φ := ⟨fun h _ => h, fun h _ => h⟩

/-- The build is as it was seen, but for what happens without the lock. -/
theorem Condition.Calm.seen {row : ImageBuild} : Condition.Calm fun b _ => Unlocked row b where
  unlocked h hunlocked := h.trans hunlocked
  aside h _ := h

/-! ## Triples -/

abbrev Verified {α : Type} (id : ImageBuildId) (P : Condition) (p : Program α) (Q : α → Condition)
    (E : Condition) : Prop :=
  Triple contract (.build id) (P.holds id) p (fun a => (Q a).holds id) fun _ => E.holds id

variable {id : ImageBuildId} {α β : Type}

theorem Does.store_self {w : World interface} {b : ImageBuild} (h : Valid w)
    (hb : w.store.build id = some b) : w.put (w.store.putBuild b) = w := by
  have hrows : (w.store.putBuild b).builds = w.store.builds := by
    have hget : w.store.build b.id = some b := by rw [Store.build_id hb]; exact hb
    exact h.keyed.replace_self hget
  have : w.store.putBuild b = w.store := by
    rw [Store.putBuild, Store.updateBuild] at hrows ⊢
    simp only at hrows
    rw [hrows]
  rw [this, World.put_self]

namespace Verified

variable {P : Condition} {Q : α → Condition} {E : Condition}

theorem bind {R : β → Condition} {p : Program α} {f : α → Program β} (h : Verified id P p Q E)
    (hnext : ∀ a, Verified id (Q a) (f a) R E) : Verified id P (p.bind f) R E :=
  Triple.bind h hnext

theorem pre {P' : Condition} {p : Program α} (h : Verified id P p Q E)
    (hP : ∀ b l, P' b l → P b l) : Verified id P' p Q E :=
  Triple.pre h fun _ ⟨b, hb, hp⟩ => ⟨b, hb, hP b _ hp⟩

/-- The rows are those of the build whose lock is held. -/
theorem named {P' : Condition} {p : Program α} (h : Verified id P p Q E)
    (hP : ∀ b l, b.id = id → P' b l → P b l) : Verified id P' p Q E :=
  Triple.pre h fun _ ⟨b, hb, hp⟩ => ⟨b, hb, hP b _ (Store.build_id hb) hp⟩

theorem post {Q' : α → Condition} {E' : Condition} {p : Program α} (h : Verified id P p Q E)
    (hQ : ∀ a b l, Q a b l → Q' a b l) (hE : ∀ b l, E b l → E' b l) : Verified id P p Q' E' :=
  Triple.post h (fun a _ ⟨b, hb, hq⟩ => ⟨b, hb, hQ a b _ hq⟩) fun _ _ ⟨b, hb, he⟩ => ⟨b, hb, hE b _ he⟩

theorem pure {a : α} (h : ∀ b l, P b l → Q a b l) :
    Verified id P (Pure.pure a : Program α) Q E :=
  Triple.pure fun _ ⟨b, hb, hp⟩ => ⟨b, hb, h b _ hp⟩

theorem raise {fault : Fault} (h : ∀ b l, P b l → E b l) :
    Verified id P (Images.raise fault : Program α) Q E :=
  Triple.throw fun _ ⟨b, hb, hp⟩ => ⟨b, hb, h b _ hp⟩

theorem ofExcept {r : Except Fault α} (hok : ∀ a, r = .ok a → ∀ b l, P b l → Q a b l)
    (herror : ∀ b l, P b l → E b l) :
    Verified id P (Prog.ofExcept (S := interface) r) Q E :=
  Triple.ofExcept (fun a ha _ ⟨b, hb, hp⟩ => ⟨b, hb, hok a ha b _ hp⟩) fun _ _ _ ⟨b, hb, hp⟩ =>
    ⟨b, hb, herror b _ hp⟩

theorem handle {F : Condition} {p : Program α} {handler : Fault → Program α}
    (h : Verified id P p Q F) (hhandler : ∀ e, Verified id F (handler e) Q E) :
    Verified id P (Prog.tryCatch (S := interface) p handler) Q E :=
  Triple.handle h hhandler

/-- A part of the precondition that is not about the world. -/
theorem fact {φ : Prop} {p : Program α} (h : φ → Verified id P p Q E) :
    Verified id (fun b l => φ ∧ P b l) p Q E :=
  fun w ⟨b, hb, hφ, hp⟩ => h hφ w ⟨b, hb, hp⟩

theorem ex {γ : Type} {P : γ → Condition} {p : Program α} (h : ∀ x, Verified id (P x) p Q E) :
    Verified id (fun b l => ∃ x, P x b l) p Q E :=
  fun w ⟨b, hb, x, hp⟩ => h x w ⟨b, hb, hp⟩

/-- A transaction on the build: a refusal changes nothing, a commit is one change or none. -/
theorem onBuild {t : Env → Store → ImageBuild → Except Fault (α × ImageBuild)} (hP : P.Calm)
    (herror : ∀ b l, P b l → E b l)
    (hok : ∀ w : World interface, Valid w → ∀ b, w.store.build id = some b → P b w.log →
      ∀ env a b', t env w.store b = .ok (a, b') →
        (b' = b ∨ Change w.store w.log b b') ∧ (Sound b' → Q a b' w.log)) :
    Verified id P (Images.onBuild id t) Q E := by
  refine Triple.transact (hP.stable id) ?_ ?_
  · rintro w ⟨b, hb, hp⟩ - env e -
    exact ⟨b, hb, herror b _ hp⟩
  · rintro w ⟨b, hb, hp⟩ hvalid env a s hs
    simp only [hb, bind_ok_iff, present_ok_iff, pure_ok_iff, Option.some.injEq] at hs
    obtain ⟨_, rfl, ⟨value, b'⟩, ht, hpair⟩ := hs
    obtain ⟨rfl, rfl⟩ := Prod.mk.inj hpair
    obtain ⟨hchange, hQ⟩ := hok w hvalid b hb hp env value b' ht
    have hid : b'.id = b.id := by
      rcases hchange with rfl | hchange
      · rfl
      · exact hchange.id
    refine ⟨?_, fun hvalid' => ?_⟩
    · rcases hchange with rfl | hchange
      · rw [Does.store_self hvalid hb]
        exact .idle
      · exact .write hb hchange
    · have hput : (w.store.putBuild b').build id = some b' := by
        obtain rfl := Store.build_id hb
        rw [Store.build_putBuild hid hb, if_pos rfl]
      exact ⟨b', hput, hQ (hvalid'.sound b' (Store.build_mem hput))⟩

/-- One statement snapshot of the build. -/
theorem inspect {Q : ImageBuild → Condition} (hP : P.Calm)
    (h : ∀ b l, P b l → Sound b → b.id = id → Q b b l) :
    Verified id P (inspectImageBuild id) Q E := by
  refine Triple.transact (hP.stable id) ?_ ?_
  · rintro w ⟨b, hb, hp⟩ - env e he
    rw [hb] at he
    cases he
  · rintro w ⟨b, hb, hp⟩ hvalid env a s hs
    simp only [hb, bind_ok_iff, present_ok_iff, pure_ok_iff, Option.some.injEq] at hs
    obtain ⟨_, rfl, hpair⟩ := hs
    obtain ⟨rfl, rfl⟩ := Prod.mk.inj hpair
    exact ⟨by rw [World.put_self]; exact .idle, fun _ =>
      ⟨b, hb, h b _ hp (hvalid.sound_of hb) (Store.build_id hb)⟩⟩

/-- Reading something of the store. -/
theorem read {f : Store → α} (hP : P.Calm) : Verified id P (Prog.read (S := interface) f)
    (fun _ => P) E :=
  Triple.read (hP.stable id) (fun _ => .idle) fun _ hp _ => hp

/-- The cancellation of the build, by the holder of its lock. -/
theorem requestCleanup {reason : CleanupReason} (hP : P.Calm) :
    Verified id P (requestImageCleanup id reason) (fun _ => P) P := by
  refine Triple.transact (hP.stable id) (fun _ hp _ _ _ _ => hp) ?_
  rintro w ⟨b, hb, hp⟩ hvalid env a s hs
  obtain ⟨c, b', hc, hwritten, rfl⟩ := requestCleanup_ok hs
  rw [hb] at hc
  obtain rfl := Option.some.inj hc
  have hunlocked := updateImageBuild_unlocked (unlocked_requested b reason) hwritten
  refine ⟨.write hb (.cleaning reason hwritten), fun _ => ⟨b', ?_, hP.unlocked hp hunlocked⟩⟩
  obtain rfl := Store.build_id hb
  rw [World.put_store, Store.build_putBuild hunlocked.id hb, if_pos rfl]

end Verified

/-! ## Peaceful programs -/

/-- A call that no condition is about. -/
def Call.mild : Call → Prop
  | .submit .. => False
  | .customerSubmit .. => False
  | .getAction .. => False
  | _ => True

/-- The program only reads, and makes mild calls. -/
inductive Peaceful : {α : Type} → Program α → Prop where
  | done {α : Type} (r : Except Fault α) : Peaceful (.done r)
  | commit {α β : Type} (t : Env → Store → Except Fault (β × Store))
      (next : Except Fault β → Program α)
      (reads : ∀ env store value store', t env store = .ok (value, store') → store' = store)
      (rest : ∀ r, Peaceful (next r)) : Peaceful (.commit t next)
  | call {α : Type} (c : Call) (next : c.Reply → Program α) (mild : c.mild)
      (rest : ∀ r, Peaceful (next r)) : Peaceful (.call c next)

namespace Peaceful

theorem bind {p : Program α} {f : α → Program β} (h : Peaceful p) (hf : ∀ a, Peaceful (f a)) :
    Peaceful (p.bind f) := by
  induction h with
  | done r =>
    cases r with
    | ok a => exact hf a
    | error e => exact .done _
  | commit t next reads rest ih => exact .commit t _ reads fun r => ih r
  | call c next mild rest ih => exact .call c _ mild fun r => ih r

theorem pure {a : α} : Peaceful (Pure.pure a : Program α) := .done _

theorem raise {fault : Fault} : Peaceful (Images.raise fault : Program α) := .done _

theorem ofExcept {r : Except Fault α} : Peaceful (Prog.ofExcept (S := interface) r) := .done _

theorem thrown {r : Except Fault α} : Peaceful (Images.thrown r) := .done _

theorem ask {c : Call} (mild : c.mild) : Peaceful (Prog.ask (S := interface) c) :=
  .call c _ mild fun _ => .done _

theorem read {f : Store → α} : Peaceful (Prog.read (S := interface) f) :=
  .commit _ _ (fun _ _ _ _ h => (Prod.mk.inj (Except.ok.inj h)).2.symm) fun _ => .done _

theorem get {ref : ImageResourceRef} : Peaceful (Images.get ref) :=
  (ask (by trivial)).bind fun _ => thrown

theorem find {kind : ImageResourceKind} {labels : Lifecycle.Labels} :
    Peaceful (Images.find kind labels) :=
  (ask (by trivial)).bind fun _ => thrown

theorem inspect {buildId : ImageBuildId} : Peaceful (inspectImageBuild buildId) := by
  refine .commit _ _ (fun env store value store' h => ?_) fun _ => .done _
  simp only [bind_ok_iff, pure_ok_iff] at h
  obtain ⟨_, -, hpair⟩ := h
  exact (Prod.mk.inj hpair).2.symm

/-- A peaceful program keeps what is calm. -/
theorem verified {p : Program α} (h : Peaceful p) {P : Condition} (hP : P.Calm) :
    Verified id P p (fun _ => P) P := by
  induction h with
  | done r =>
    intro w hw
    cases r <;> exact hw
  | commit t next reads rest ih =>
    intro w hw v hsees hvalid env
    have hv := hP.stable id w v hsees hw
    split
    · next e he => exact ih _ v hv
    · next value store' hok =>
      obtain rfl := reads env v.store value store' hok
      exact ⟨.idle, ih _ v hv⟩
  | call c next mild rest ih =>
    intro w hw v hsees hvalid r _
    obtain ⟨b, hb, hp⟩ := hP.stable id w v hsees hw
    have haside : Aside b c := by
      constructor
      · intro actionId ref hcall
        rw [hcall] at mild
        exact mild
      · intro e he
        cases c <;> simp_all [Call.effect?, Call.mild]
    refine ⟨.ask c r ?_, ih r _ ⟨b, hb, hP.aside hp haside⟩⟩
    cases c <;> simp_all [Call.quiet, Call.mild]

end Peaceful

end AgentCloud.Images
