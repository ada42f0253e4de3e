/-
  THE WORKER AGAINST THE CONTRACT, and the guest with it: every action of `work` is one of
  `ByWorker`'s changes.

  The worker reads that there is no receipt, no result, the right boot and no cancellation, in this
  order.  The wrapper may derive an outcome in between, but only of a run that is settled, and then
  the worker's boot is another one or the cancellation is there for it to find (`Cleared.step`).
  From there on it is alone with its run: what it has read of `request.json` and of its own phase
  stays.
-/
import AgentCloud.Commands.Wrapping

namespace AgentCloud.Commands

open Checked Durable

variable {attentive : Prop} {id : RunId} {boot : BootId} {l l' : Life} {value : SavedRequest}

/-! ## Changes of a worker -/

theorem life_enter_other {s : Store} {w : World Guest} {other : RunId} {phase : Option Phase}
    (hs : s.records other = w.store.records other ∧ s.units other = w.store.units other ∧
      s.published other = w.store.published other) (h : other ≠ id) :
    life (w.put (s.enter id phase)) other = life w other := by
  simp [life, Store.enter, Function.update_of_ne h, hs]

/-- An entered phase is the worker's change if its run's life says so. -/
theorem Does.entered {w : World Guest} {s : Store} {phase : Option Phase}
    (hstore : s.bootId = w.store.bootId ∧ s.looking = w.store.looking ∧
      s.reports = w.store.reports)
    (hs : ∀ other, other ≠ id → s.records other = w.store.records other ∧
      s.units other = w.store.units other ∧ s.published other = w.store.published other)
    (h : ByWorker w.store.bootId (life w id) (life (w.put (s.enter id phase)) id)) :
    Does attentive (.worker id) w (w.put (s.enter id phase)) :=
  .worker id hstore.1 hstore.2.1 hstore.2.2 (fun other hne => life_enter_other (hs other hne) hne)
    (.inr h)

/-- The output file is not part of a life. -/
theorem life_output {w : World Guest} {f : Record → Option (List LogEntry)} {other : RunId} :
    life (w.put (w.store.edit id fun record => { record with output := f record })) other =
      life w other := by
  by_cases h : other = id
  · subst h
    rw [life_edit]
    rfl
  · exact life_edit_other h

theorem Does.output {w : World Guest} {f : Record → Option (List LogEntry)} :
    Does attentive (.worker id) w
      (w.put (w.store.edit id fun record => { record with output := f record })) :=
  .worker id rfl rfl rfl (fun _ _ => life_output) (.inl life_output)

/-! ## The checks -/

/-- What the worker knows of the run when it looks for a cancellation. -/
structure Cleared (value : SavedRequest) (boot : BootId) (l : Life) : Prop where
  admitted : l.request = some value
  started : l.started = none
  result : l.result = none ∨ l.cancelled.isSome ∨ value.bootId ≠ boot

theorem ByWrapper.request (hstep : ByWrapper attentive boot l l')
    (h : l.request = some value) : l'.request = some value :=
  LifeStep.request (.inl hstep) h

theorem Cleared.step (h : Cleared value boot l) (hstep : ByWrapper attentive boot l l') :
    Cleared value boot l' := by
  refine ⟨hstep.request h.admitted, ?_, ?_⟩
  · cases hstep <;> exact h.started
  · cases hstep with
    | admission request new here => exact h.result
    | cancellation requestedAt admitted => exact .inr (.inl rfl)
    | outcome result settled absent =>
      -- a derived outcome: another boot, or a cancellation, as there is no receipt
      obtain ⟨request, hrequest, hboot | ⟨hmark, -⟩⟩ := settled
      · rw [h.admitted] at hrequest
        exact .inr (.inr (Option.some.inj hrequest ▸ hboot))
      · rw [h.started] at hmark
        exact .inr (.inl (hmark.resolve_left (by simp)))

/-- A worker past its checks, or past its receipt: nothing of this is anybody else's to change. -/
structure Alone (value : SavedRequest) (phase : Phase) (l : Life) : Prop where
  admitted : l.request = some value
  phase : l.phase = some phase

theorem Alone.step {phase : Phase} (h : Alone value phase l)
    (hstep : ByWrapper attentive boot l l') : Alone value phase l' := by
  refine ⟨hstep.request h.admitted, ?_⟩
  cases hstep <;> exact h.phase

theorem ByWrapper.spawned (hstep : ByWrapper attentive boot l l') : l'.spawned = l.spawned := by
  cases hstep <;> rfl

/-- The worker at the point of spawning, and after it. -/
def Spawning (value : SavedRequest) (l : Life) : Prop :=
  Alone value .marked l ∧ l.spawned = []

def Ran (l : Life) : Prop := l.phase = some .marked ∧ l.spawned ≠ []

theorem stable_cleared : Stable (contract attentive) (.worker id) (OfLife id (Cleared value)) :=
  stable_worker fun _ _ _ _ hstep h => h.step hstep

theorem stable_alone {phase : Phase} :
    Stable (contract attentive) (.worker id) (OfLife id fun _ => Alone value phase) :=
  stable_worker fun _ _ _ _ hstep h => h.step hstep

theorem stable_spawning :
    Stable (contract attentive) (.worker id) (OfLife id fun _ => Spawning value) :=
  stable_worker fun _ _ _ _ hstep h => ⟨h.1.step hstep, hstep.spawned.trans h.2⟩

theorem stable_ran : Stable (contract attentive) (.worker id) (OfLife id fun _ => Ran) := by
  refine stable_worker fun _ _ _ _ hstep h => ⟨?_, ?_⟩
  · cases hstep <;> exact h.1
  · rw [hstep.spawned]
    exact h.2

/-! ## Execution -/

theorem triple_writeLines (entries : List LogEntry) :
    Keeping attentive (.worker id) (OfLife id fun _ => Ran) (writeLines id entries)
      fun _ => OfLife id fun _ => Ran := by
  induction entries with
  | nil => exact Triple.pure fun _ hw => hw
  | cons entry entries ih =>
    refine Triple.bind (Q := fun _ => OfLife id fun _ => Ran) ?_ fun failed => ?_
    · -- whether the write fails or not, the life is as it was
      refine Triple.handle (F := fun _ => OfLife id fun _ => Ran) ?_ fun _ =>
        Triple.pure fun _ hw => hw
      refine Triple.bind (Q := fun _ => OfLife id fun _ => Ran) ?_ fun _ =>
        Triple.pure fun _ hw => hw
      refine Triple.bind (Q := fun _ => OfLife id fun _ => Ran) ?_ fun synced => ?_
      · refine Triple.transact stable_ran (fun _ hw _ _ _ _ => hw) fun w hw _ env a s hok => ?_
        dsimp only at hok
        split at hok
        · cases hok
        · obtain ⟨-, rfl⟩ := Prod.mk.inj (Except.ok.inj hok)
          refine ⟨Does.output, fun _ => ?_⟩
          show Ran _
          rw [life_output]
          exact hw
        · obtain ⟨-, rfl⟩ := Prod.mk.inj (Except.ok.inj hok)
          refine ⟨Does.output, fun _ => ?_⟩
          show Ran _
          rw [life_output]
          exact hw
      · cases synced with
        | true => exact Triple.pure fun _ hw => hw
        | false => exact Triple.throw fun _ hw => hw
    · refine Triple.bind ih fun more => ?_
      exact Triple.pure fun _ hw => hw

/-- The child is spawned with the request on record. -/
theorem triple_spawn :
    Keeping attentive (.worker id) (OfLife id fun _ => Spawning value)
      (ask (.spawn id value.request)) fun _ => OfLife id fun _ => Ran := by
  refine Triple.ask stable_spawning fun w hw _ reply _ => ?_
  obtain ⟨⟨hadmitted, hphase⟩, hfirst⟩ := hw
  have hlife : life (w.exchange (.spawn id value.request) reply) id =
      { life w id with spawned := (life w id).spawned ++ [value.request] } := by
    simp [life, spawned_exchange, SystemCall.spawns]
  refine ⟨.worker id rfl rfl rfl (fun other hne => ?_) (.inr ?_), ?_⟩
  · simp [life, spawned_exchange, SystemCall.spawns, Ne.symm hne]
  · rw [hlife]
    exact .spawn value hadmitted hphase hfirst
  · show Ran (life (w.exchange (.spawn id value.request) reply) id)
    rw [hlife]
    exact ⟨hphase, by simp⟩

theorem triple_execute :
    Keeping attentive (.worker id) (OfLife id fun _ => Spawning value)
      (execute id value.request) fun _ => OfLife id fun _ => Ran := by
  refine Triple.bind (Q := fun _ => OfLife id fun _ => Spawning value) ?_ fun _ => ?_
  · -- the output file is created
    refine Triple.transact stable_spawning (fun _ _ _ _ _ _ => trivial) fun w hw _ env a s hok => ?_
    dsimp only at hok
    split at hok
    · cases hok
    · obtain ⟨-, rfl⟩ := Prod.mk.inj (Except.ok.inj hok)
      refine ⟨Does.output, fun _ => ?_⟩
      show Spawning value _
      rw [life_output]
      exact hw
  refine Triple.bind triple_spawn fun child => ?_
  refine Triple.bind (triple_writeLines _) fun failed => ?_
  refine Triple.bind (Keeping.clock stable_ran) fun now => ?_
  exact Triple.pure fun _ hw => hw

theorem triple_relabel {result : RunResult} :
    Keeping attentive (.worker id) (OfLife id fun _ => Ran) (relabel id result)
      fun _ => OfLife id fun _ => Ran := by
  unfold relabel
  split
  · refine Triple.bind (Q := fun _ => OfLife id fun _ => Ran)
      (Keeping.load stable_ran fun _ _ hw => hw) fun cancelled => ?_
    exact Triple.pure fun _ hw => hw
  · exact Triple.pure fun _ hw => hw

theorem triple_publish {result : RunResult} :
    Keeping attentive (.worker id) (OfLife id fun _ => Ran) (publish id result)
      fun _ _ => True := by
  refine Keeping.save stable_ran fun w _ hw => ⟨?_, fun _ => trivial⟩
  refine Does.entered ⟨rfl, rfl, rfl⟩ (fun other hne => ?_) ?_
  · simp [Store.edit, Store.publish, Function.update_of_ne hne]
  · have hlife : life (w.put (((w.store.edit id
        fun record => { record with result := some result }).publish id result).enter id
          (some .finished))) id =
        { life w id with
          result := some result, published := some result, phase := some .finished } := by
      simp [life, Store.enter, Store.edit, Store.publish]
    rw [hlife]
    exact .publication result hw.1 hw.2

/-- The receipt comes before the child. -/
theorem triple_receipt {now : Instant} :
    Keeping attentive (.worker id) (OfLife id fun _ => Alone value .cleared)
      (save fun s => (s.edit id ({ · with started := some now })).enter id (some .marked))
      fun _ => OfLife id fun _ => Spawning value := by
  refine Keeping.save stable_alone fun w hvalid hw => ?_
  have hlife : life (w.put ((w.store.edit id
      fun record => { record with started := some now }).enter id (some .marked))) id =
      { life w id with started := some now, phase := some .marked } := by
    simp [life, Store.enter, Store.edit]
  refine ⟨Does.entered ⟨rfl, rfl, rfl⟩ (fun other hne => ?_) ?_, fun _ => ?_⟩
  · simp [Store.edit, Function.update_of_ne hne]
  · rw [hlife]
    exact .receipt now hw.phase
  · show Spawning value (life (w.put _) id)
    rw [hlife]
    obtain ⟨-, -, hfirst, -⟩ := (hvalid.lives id).cleared hw.phase
    exact ⟨⟨hw.admitted, rfl⟩, hfirst⟩

theorem triple_perform :
    Keeping attentive (.worker id) (OfLife id fun _ => Alone value .cleared) (perform id value)
      fun _ _ => True := by
  refine Triple.bind (Keeping.clock stable_alone) fun now => ?_
  refine Triple.bind triple_receipt fun _ => ?_
  refine Triple.bind triple_execute fun result => ?_
  exact Triple.bind triple_relabel fun result => triple_publish

/-- **The checks.**  Only a run that is not settled gets past them. -/
theorem triple_unlessCancelled {sameBoot : Bool} :
    Keeping attentive (.worker id)
      (OfLife id fun boot l => Cleared value boot l ∧ sameBoot = decide (value.bootId = boot))
      (unlessCancelled id value sameBoot) fun _ _ => True := by
  have hstable : Stable (contract attentive) (.worker id)
      (OfLife id fun boot l => Cleared value boot l ∧ sameBoot = decide (value.bootId = boot)) :=
    stable_worker fun _ _ _ _ hstep h => ⟨h.1.step hstep, h.2⟩
  unfold unlessCancelled
  split
  · next hsame =>
    refine Triple.bind (Q := fun cancelled w => cancelled = none →
      OfLife id (fun _ => Alone value .cleared) w) ?_ fun cancelled => ?_
    · refine Keeping.loadAnd hstable fun w _ hw => ?_
      have hboot : value.bootId = w.store.bootId := by
        have heq := hw.2
        rw [hsame] at heq
        exact of_decide_eq_true heq.symm
      split
      · next hnone =>
        have hcancelled : (life w id).cancelled = none := Option.isNone_iff_eq_none.mp hnone
        have hresult : (life w id).result = none := by
          rcases hw.1.result with hresult | hcancel | hother
          · exact hresult
          · rw [hcancelled] at hcancel
            cases hcancel
          · exact (hother hboot).elim
        have hlife : life (w.put (w.store.enter id (some .cleared))) id =
            { life w id with phase := some .cleared } := by
          simp [life, Store.enter]
        refine ⟨Does.entered ⟨rfl, rfl, rfl⟩ (fun _ _ => ⟨rfl, rfl, rfl⟩) ?_, fun _ _ => ?_⟩
        · rw [hlife]
          exact .checks value hw.1.admitted hboot hw.1.started hresult hcancelled
        · show Alone value .cleared (life (w.put _) id)
          rw [hlife]
          exact ⟨hw.1.admitted, rfl⟩
      · next hsome =>
        exact ⟨Does.idle _ w, fun _ hnone => (hsome (Option.isNone_iff_eq_none.mpr hnone)).elim⟩
    · split
      · exact Triple.pure fun _ _ => trivial
      · next hnone =>
        refine Triple.pre triple_perform fun w hw => hw ?_
        simpa using hnone
  · exact Triple.pure fun _ _ => trivial

theorem triple_unlessFinished {started : Bool} :
    Keeping attentive (.worker id)
      (OfLife id fun _ l => l.request = some value ∧ (started = false → l.started = none))
      (unlessFinished id value started) fun _ _ => True := by
  have hstable : Stable (contract attentive) (.worker id)
      (OfLife id fun _ l => l.request = some value ∧ (started = false → l.started = none)) := by
    refine stable_worker fun _ _ _ _ hstep h => ⟨hstep.request h.1, fun hnot => ?_⟩
    cases hstep <;> exact h.2 hnot
  unfold unlessFinished
  split
  · exact Triple.pure fun _ _ => trivial
  · next hnot =>
    have hnot' : started = false := by simpa using hnot
    refine Triple.bind (Q := fun result w => result = none → OfLife id (Cleared value) w) ?_
      fun result => ?_
    · exact Keeping.load hstable fun w _ hw hnone => ⟨hw.1, hw.2 hnot', .inl hnone⟩
    split
    · exact Triple.pure fun _ _ => trivial
    · next hnone =>
      have hnone' : result = none := by simpa using hnone
      refine Triple.pre (P := OfLife id (Cleared value)) ?_ fun w hw => hw hnone'
      refine Triple.bind (Q := fun bootId => OfLife id fun boot l => Cleared value boot l ∧
        decide (value.bootId = bootId) = decide (value.bootId = boot)) ?_ fun bootId => ?_
      · exact Keeping.load stable_cleared fun w _ hw => ⟨hw, rfl⟩
      · exact triple_unlessCancelled

/-- **Every worker** keeps the contract. -/
theorem triple_work :
    Keeping attentive (.worker id) (fun _ => True) (work id) fun _ _ => True := by
  refine Triple.bind (Q := fun value => OfLife id fun _ l => l.request = some value) ?_
    fun value => ?_
  · refine Triple.pre (P := OfLife id fun _ _ => True)
      (Triple.post (triple_saved fun _ _ _ _ => trivial) (fun value w hw => hw.2)
        fun _ _ _ => trivial) fun _ _ => trivial
  have hstable : Stable (contract attentive) (.worker id)
      (OfLife id fun _ l => l.request = some value) :=
    stable_worker fun _ _ _ _ hstep h => hstep.request h
  refine Triple.bind (Q := fun started => OfLife id fun _ l => l.request = some value ∧
    (started.isSome = false → l.started = none)) ?_ fun started => ?_
  · refine Keeping.load hstable fun w _ hw => ⟨hw, fun hnone => ?_⟩
    show (w.store.records id).started = none
    simpa using hnone
  · exact triple_unlessFinished

/-! ## The guest -/

theorem safe_ignore {α : Type} {k : Slot} {p : Job α}
    (h : Keeping attentive k (fun _ => True) p fun _ _ => True) (w : World Guest) :
    Safe (contract attentive) k (fun _ _ => True) p.ignore w :=
  Safe.ignore (h w trivial)

theorem born_does (k : Slot) (w : World Guest) :
    Does attentive k w (w.put ((guest attentive).born k w.store)) := by
  cases k with
  | wrapper => exact Does.idle _ w
  | worker id =>
    refine Does.entered ⟨rfl, rfl, rfl⟩ (fun _ _ => ⟨rfl, rfl, rfl⟩) ?_
    have hlife : life (w.put (w.store.enter id (some .begun))) id =
        { life w id with phase := some .begun } := by
      simp [life, Store.enter]
    rw [hlife]
    exact .birth

theorem gone_does (k : Slot) (w : World Guest) :
    Does attentive k w (w.put ((guest attentive).gone k w.store)) := by
  cases k with
  | wrapper => exact Does.idle _ w
  | worker id =>
    refine Does.entered ⟨rfl, rfl, rfl⟩ (fun _ _ => ⟨rfl, rfl, rfl⟩) ?_
    have hlife : life (w.put (w.store.enter id none)) id = { life w id with phase := none } := by
      simp [life, Store.enter]
    rw [hlife]
    exact .death

/-- The life of a run after a reboot. -/
theorem life_reboot {w : World Guest} {bootId : BootId} :
    life (w.put { w.store with bootId, units := fun _ => none }) id =
      { life w id with phase := none } := rfl

/-- After a reboot every admitted run is settled. -/
theorem settled_reboot (hadmitted : l.request = some value) (hboot : value.bootId ≠ boot) :
    Settled boot { l with phase := none } := ⟨value, hadmitted, .inl hboot⟩

theorem Valid.reboot {w : World Guest} {s : Store} (hv : Valid attentive w)
    (h : Reboots w.store s) : Valid attentive (w.put s) := by
  obtain ⟨bootId, hnew, rfl⟩ := h
  constructor
  · intro id
    rw [life_reboot]
    have hlife := hv.lives id
    refine ⟨hlife.admitted, fun h => (by cases h), fun h => (by cases h), hlife.once,
      fun hresult _ => ?_, hlife.published⟩
    obtain ⟨request, hrequest⟩ := Option.isSome_iff_exists.mp
      (hlife.admitted (.inr (.inr hresult)))
    exact settled_reboot hrequest (hnew id request hrequest)
  · intro r hr
    obtain ⟨hfinal, htold⟩ := hv.reports r hr
    exact ⟨hfinal, htold⟩

/-- **The guest keeps the contract.** -/
theorem guest_keeps (attentive : Prop) : (guest attentive).Keeps (contract attentive) where
  born _ := born_does _ _
  gone _ := gone_does _ _
  job_safe hjob _ := by
    cases hjob with
    | command c => exact safe_ignore (triple_command c) _
    | work id => exact triple_work.safe _
  reboot hv h := hv.reboot h
  allows _ h := h

theorem fresh_valid (attentive : Prop) (bootId : BootId) :
    Valid attentive ⟨Store.fresh bootId, []⟩ := by
  constructor
  · intro id
    refine ⟨fun h => ?_, fun h => (by cases h), fun h => (by cases h), .inl rfl,
      fun h => (by cases h), fun _ h => (by cases h)⟩
    rcases h with h | h | h <;> cases h
  · intro r hr
    cases hr

theorem fresh_inOrder (attentive : Prop) (bootId : BootId) :
    Discipline.InOrder (contract attentive) (Config.idle ⟨Store.fresh bootId, []⟩) :=
  Discipline.inOrder_idle (fresh_valid attentive bootId)

end AgentCloud.Commands
