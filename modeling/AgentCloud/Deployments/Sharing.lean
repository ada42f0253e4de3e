/-
  THE CONTRACT OF COMMANDS AND WORKER: what each may do to the store, application by application,
  and what each may therefore rely on.

  A party knows something of one application's view.  The other's changes keep it if each of
  `ByWorker`'s, or each of `ByCommand`'s, does: `stable_wrapper` and `stable_worker` are all that the
  proofs about the programs need of the contract.

  An answer is `Truthful` by itself: an accepted request's own release, and of a request that had
  been admitted nothing else but a failure to read.
-/
import AgentCloud.Deployments.Keeping

namespace AgentCloud.Deployments

open Checked Durable
open Compose (ComposeConfig)

/-! ## Answers -/

/-- The request's release has been made the head. -/
structure Admitted (v : View) (q : ComposeRequest) : Prop where
  head : q.releaseId ∈ v.heads
  request : v.request q.releaseId = some q

/-- The reply shows the request's own release, which has been made the head. -/
def Shown (v : View) (q : ComposeRequest) (response : ComposeResponse) : Prop :=
  ∃ r, response.release = some r ∧ r.id = q.releaseId ∧ r.requestDigest = q ∧
    q.releaseId ∈ v.heads

structure Truthful (v : View) (a : Answer) : Prop where
  ok : ∀ response, a.result = .ok response → Shown v a.request response
  error : ∀ fault, a.result = .error fault → a.admitted = true → fault = ioError

/-! ## Changes -/

/-- The changes of a slot. -/
def By : Slot → View → View → Prop
  | .wrapper => ByCommand
  | .worker => ByWorker

variable {k : Slot} {v v' : View} {w : World Guest} {app : AppName} {id : ReleaseId}

theorem By.step (h : By k v v') : Change.step v v' := by
  cases k with
  | wrapper => exact .inl h
  | worker => exact .inr h

theorem ByWorker.kept (h : ByWorker v v') :
    v'.head = v.head ∧ v'.names = v.names ∧ v'.heads = v.heads ∧ v'.request = v.request := by
  cases h <;> exact ⟨rfl, rfl, rfl, rfl⟩

theorem ByCommand.kept (h : ByCommand v v') :
    v'.ups = v.ups ∧ v'.runtime = v.runtime ∧ v'.succeeded = v.succeeded := by
  cases h <;> exact ⟨rfl, rfl, rfl⟩

theorem Change.step.heads (h : Change.step v v') (hid : id ∈ v.heads) : id ∈ v'.heads := by
  rcases h with h | h
  · cases h with
    | publish r state new idle expected => exact List.mem_append_left _ hid
    | name other new room => exact hid
    | request q new named own origin => exact hid
    | record r new queued digest hr expected idle previous => exact hid
  · rw [h.kept.2.2.1]
    exact hid

/-- A request stays on record. -/
theorem Change.step.request (h : Change.step v v') {q : ComposeRequest}
    (hq : v.request id = some q) : v'.request id = some q := by
  rcases h with h | h
  · cases h with
    | request new hnew named own origin =>
      have hne : id ≠ new.releaseId := by
        rintro rfl
        rw [hq] at hnew
        cases hnew
      rw [← hq]
      exact Function.update_of_ne hne _ _
    | name other new room => exact hq
    | record r new queued digest hr expected idle previous => exact hq
    | publish r state new idle expected => exact hq
  · rw [h.kept.2.2.2]
    exact hq

theorem Truthful.step {a : Answer} (h : Truthful v a) (hstep : Change.step v v') :
    Truthful v' a where
  ok response hok := by
    obtain ⟨r, hr, hid, hdigest, hhead⟩ := h.ok response hok
    exact ⟨r, hr, hid, hdigest, hstep.heads hhead⟩
  error := h.error

/-! ## The contract -/

structure Does (k : Slot) (w w' : World Guest) : Prop where
  views : ∀ app, view w' app = view w app ∨ By k (view w app) (view w' app)
  answers : ∀ a ∈ w'.store.answers, a ∈ w.store.answers ∨ Truthful (view w' a.request.app) a

structure Valid (w : World Guest) : Prop where
  views : ∀ app, ViewValid (view w app)
  answers : ∀ a ∈ w.store.answers, Truthful (view w a.request.app) a

theorem Does.valid {w' : World Guest} (hv : Valid w) (h : Does k w w') : Valid w' where
  views app := by
    rcases h.views app with heq | hstep
    · rw [heq]
      exact hv.views app
    · exact (hv.views app).step hstep.step
  answers a ha := by
    rcases h.answers a ha with hold | hnew
    · rcases h.views a.request.app with heq | hstep
      · rw [heq]
        exact hv.answers a hold
      · exact (hv.answers a hold).step hstep.step
    · exact hnew

def contract : Contract Guest Slot :=
  .interleaved Valid Does (fun _ _ _ => True) fun hv h => h.valid hv

/-- Nothing changes. -/
theorem Does.refl (k : Slot) (w : World Guest) : Does k w w :=
  ⟨fun _ => .inl rfl, fun _ h => .inl h⟩

/-- Something is known of an application. -/
abbrev Of (app : AppName) (P : View → Prop) (w : World Guest) : Prop := P (view w app)

theorem stable_of {P : View → Prop}
    (h : ∀ j v v', j ≠ k → ViewValid v → By j v v' → P v → P v') :
    Stable contract k (Of app P) := by
  refine stable_interleaved fun j w w' hne hvalid hdoes hP => ?_
  unfold Of at hP ⊢
  rcases hdoes.views app with heq | hstep
  · rw [heq]
    exact hP
  · exact h j _ _ hne (hvalid.views app) hstep hP

/-- What a command knows survives what the worker does. -/
theorem stable_wrapper {P : View → Prop}
    (h : ∀ v v', ViewValid v → ByWorker v v' → P v → P v') :
    Stable contract .wrapper (Of app P) := by
  refine stable_of fun j v v' hne hv hstep => ?_
  cases j with
  | wrapper => exact (hne rfl).elim
  | worker => exact h v v' hv hstep

/-- What the worker knows survives what commands do. -/
theorem stable_worker {P : View → Prop}
    (h : ∀ v v', ViewValid v → ByCommand v v' → P v → P v') :
    Stable contract .worker (Of app P) := by
  refine stable_of fun j v v' hne hv hstep => ?_
  cases j with
  | worker => exact (hne rfl).elim
  | wrapper => exact h v v' hv hstep

/-! ## Writes -/

theorem view_editApp_other {f : AppFiles → AppFiles} {other : AppName} (h : other ≠ app) :
    view (w.put (w.store.editApp app f)) other = view w other := by
  simp [view, Store.editApp, Store.release, Function.update_of_ne h]

theorem view_edit_other {f : ReleaseFiles → ReleaseFiles} {other : AppName} (h : other ≠ app) :
    view (w.put (w.store.edit app id f)) other = view w other := view_editApp_other h

/-- The files of one release are rewritten. -/
theorem view_edit {f : ReleaseFiles → ReleaseFiles} :
    view (w.put (w.store.edit app id f)) app =
      { view w app with
        state := Function.update (view w app).state id (f (w.store.release app id)).state
        request := Function.update (view w app).request id (f (w.store.release app id)).request
        runtime := Function.update (view w app).runtime id
          (f (w.store.release app id)).runtime } := by
  simp only [view, Store.edit, Store.editApp, Store.release, World.put_store, World.put_log,
    Function.update_self, View.mk.injEq, true_and, and_true]
  refine ⟨?_, ?_, ?_⟩ <;>
  · funext other
    by_cases h : other = id
    · subst h
      simp
    · simp [Function.update_of_ne h]

/-- A change to one application. -/
theorem Does.here {s : Store} (hanswers : s.answers = w.store.answers)
    (hother : ∀ other, other ≠ app → view (w.put s) other = view w other)
    (h : view (w.put s) app = view w app ∨ By k (view w app) (view (w.put s) app)) :
    Does k w (w.put s) := by
  refine ⟨fun other => ?_, fun a ha => .inl ?_⟩
  · by_cases hne : other = app
    · subst hne
      exact h
    · exact .inl (hother other hne)
  · rwa [← hanswers]

theorem Does.edit {f : ReleaseFiles → ReleaseFiles}
    (h : view (w.put (w.store.edit app id f)) app = view w app ∨
      By k (view w app) (view (w.put (w.store.edit app id f)) app)) :
    Does k w (w.put (w.store.edit app id f)) :=
  .here rfl (fun _ hne => view_edit_other hne) h

theorem view_saveState {r : ComposeRelease} :
    view (w.put (w.store.edit app id ({ · with state := some r }))) app =
      { view w app with state := Function.update (view w app).state id (some r) } := by
  rw [view_edit]
  simp [view]

theorem view_saveRequest {q : ComposeRequest} :
    view (w.put (w.store.edit app id ({ · with request := some q }))) app =
      { view w app with request := Function.update (view w app).request id (some q) } := by
  rw [view_edit]
  simp [view]

theorem view_saveRuntime {config : ComposeConfig} :
    view (w.put (w.store.edit app id ({ · with runtime := some config }))) app =
      { view w app with runtime := Function.update (view w app).runtime id (some config) } := by
  rw [view_edit]
  simp [view]

/-- The source and the build file are not part of a view. -/
theorem view_edit_aside {f : ReleaseFiles → ReleaseFiles}
    (h : ∀ files, (f files).state = files.state ∧ (f files).request = files.request ∧
      (f files).runtime = files.runtime) :
    view (w.put (w.store.edit app id f)) app = view w app := by
  rw [view_edit]
  obtain ⟨hstate, hrequest, hruntime⟩ := h (w.store.release app id)
  rw [hstate, hrequest, hruntime]
  simp [view]

/-! ## Calls -/

theorem view_exchange {c : Call} {r : c.Reply} :
    view (w.exchange c r) app = { view w app with ups := (view w app).ups ++ c.ups app } := by
  simp [view, World.exchange]

theorem view_exchange_quiet {c : Call} {r : c.Reply} (h : c.ups app = []) :
    view (w.exchange c r) app = view w app := by
  rw [view_exchange, h, List.append_nil]

/-- A tool that starts nothing. -/
theorem Does.exchange {c : Call} {r : c.Reply} (h : ∀ app, c.ups app = []) :
    Does k w (w.exchange c r) :=
  ⟨fun app => .inl (view_exchange_quiet (h app)), fun _ ha => .inl ha⟩

/-! ## Rules for files and tools -/

variable {α : Type} {P : View → Prop} {Q : α → World Guest → Prop} {E : Fault → World Guest → Prop}

theorem triple_load {f : Store → α} (hP : Stable contract k (Of app P))
    (herror : ∀ w, Of app P w → E ioError w)
    (hok : ∀ w, Valid w → Of app P w → Q (f w.store) w) :
    Triple contract k (Of app P) (load f) Q E := by
  refine Triple.transact hP (fun w hw _ env e he => ?_) fun w hw hvalid env a s hs => ?_
  · dsimp only at he
    split at he
    · cases he
    · exact Except.error.inj he ▸ herror w hw
  · dsimp only at hs
    split at hs
    · obtain ⟨rfl, rfl⟩ := Prod.mk.inj (Except.ok.inj hs)
      exact ⟨Does.refl k w, fun _ => hok w hvalid hw⟩
    · cases hs

theorem triple_clock (hP : Stable contract k (Of app P)) :
    Triple contract k (Of app P) clock (fun _ => Of app P) E :=
  Triple.observe hP (fun w => Does.refl k w) fun _ hw _ _ => hw

theorem triple_save {f : Store → Store} {Q : Unit → World Guest → Prop}
    (hP : Stable contract k (Of app P)) (herror : ∀ w, Of app P w → E ioError w)
    (hok : ∀ w, Valid w → Of app P w →
      Does k w (w.put (f w.store)) ∧ (Valid (w.put (f w.store)) → Q () (w.put (f w.store)))) :
    Triple contract k (Of app P) (save f) Q E := by
  refine Triple.transact hP (fun w hw _ env e he => ?_) fun w hw hvalid env a s hs => ?_
  · dsimp only at he
    split at he
    · cases he
    · exact Except.error.inj he ▸ herror w hw
  · dsimp only at hs
    split at hs
    · obtain ⟨-, rfl⟩ := Prod.mk.inj (Except.ok.inj hs)
      exact hok w hvalid hw
    · cases hs

/-- A tool that starts nothing. -/
theorem triple_tool {c : Call} {h : c.Reply = Except Fault α} (hP : Stable contract k (Of app P))
    (hquiet : ∀ app, c.ups app = []) (herror : ∀ e w, Of app P w → E e w)
    (hok : ∀ a w, Of app P w → Q a w) : Triple contract k (Of app P) (tool c h) Q E := by
  refine Triple.bind (Q := fun _ => Of app P) ?_ fun reply => ?_
  · refine Triple.ask hP fun w hw _ r _ => ⟨Does.exchange hquiet, ?_⟩
    unfold Of
    rw [view_exchange_quiet (hquiet app)]
    exact hw
  · exact Triple.ofExcept (fun a _ w hw => hok a w hw) fun e _ w hw => herror e w hw

end AgentCloud.Deployments
