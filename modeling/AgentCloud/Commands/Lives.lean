/-
  THE LIFE OF A RUN: what the wrapper and the worker may do to one invocation.

  `Life` is what matters of a run: four of its files, the phase of its worker, what the worker has
  published, and the requests it has spawned.  `ByWrapper` and `ByWorker` list the changes of the
  two parties, each under the condition that its program has established by then; everything else
  they do leaves every life as it is.

  `Settled` is the decision that nothing will be spawned any more: the run was admitted under
  another boot, or it has a start or cancellation on record and no worker that is past its checks.
  No change takes it back (`Settled.step`), and an outcome is derived for a run only once it is
  settled.
-/
import AgentCloud.Commands.Runs

namespace AgentCloud.Commands

open Durable

/-! ## Lives -/

structure Life where
  request : Option SavedRequest
  started : Option Instant
  cancelled : Option Instant
  result : Option RunResult
  phase : Option Phase
  published : Option RunResult
  spawned : List RunRequest

/-- The request that a call spawns for a run. -/
def SystemCall.spawns (id : RunId) : SystemCall → List RunRequest
  | .spawn other request => if other = id then [request] else []
  | _ => []

/-- The requests spawned for a run, oldest first. -/
def spawned (w : World Guest) (id : RunId) : List RunRequest :=
  w.log.flatMap fun e => e.call.spawns id

@[simp] theorem spawned_put (w : World Guest) (s : Store) (id : RunId) :
    spawned (w.put s) id = spawned w id := rfl

theorem spawned_exchange (w : World Guest) (c : SystemCall) (r : c.Reply) (id : RunId) :
    spawned (w.exchange c r) id = spawned w id ++ c.spawns id := by
  simp [spawned]

def life (w : World Guest) (id : RunId) : Life where
  request := (w.store.records id).request
  started := (w.store.records id).started
  cancelled := (w.store.records id).cancelled
  result := (w.store.records id).result
  phase := w.store.units id
  published := w.store.published id
  spawned := spawned w id

/-- Nothing will be spawned any more. -/
def Settled (boot : BootId) (l : Life) : Prop :=
  ∃ request, l.request = some request ∧
    (request.bootId ≠ boot ∨
      ((l.started.isSome ∨ l.cancelled.isSome) ∧ (l.phase = none ∨ l.phase = some .begun)))

/-- The changes of the wrapper. -/
inductive ByWrapper (attentive : Prop) (boot : BootId) (l : Life) : Life → Prop where
  | admission (request : SavedRequest) (new : l.request = none) (here : request.bootId = boot) :
      ByWrapper attentive boot l { l with request := some request }
  | cancellation (requestedAt : Instant) (admitted : l.request.isSome) :
      ByWrapper attentive boot l { l with cancelled := some requestedAt }
  | outcome (result : RunResult) (settled : Settled boot l) (absent : attentive → l.result = none) :
      ByWrapper attentive boot l { l with result := some result }

/-- The changes of the worker of the run. -/
inductive ByWorker (boot : BootId) (l : Life) : Life → Prop where
  | birth : ByWorker boot l { l with phase := some .begun }
  | death : ByWorker boot l { l with phase := none }
  | checks (request : SavedRequest) (admitted : l.request = some request)
      (here : request.bootId = boot) (started : l.started = none) (result : l.result = none)
      (cancelled : l.cancelled = none) : ByWorker boot l { l with phase := some .cleared }
  | receipt (startedAt : Instant) (phase : l.phase = some .cleared) :
      ByWorker boot l { l with started := some startedAt, phase := some .marked }
  | spawn (request : SavedRequest) (admitted : l.request = some request)
      (phase : l.phase = some .marked) (first : l.spawned = []) :
      ByWorker boot l { l with spawned := l.spawned ++ [request.request] }
  | publication (result : RunResult) (phase : l.phase = some .marked) (ran : l.spawned ≠ []) :
      ByWorker boot l
        { l with result := some result, published := some result, phase := some .finished }

def LifeStep (attentive : Prop) (boot : BootId) (l l' : Life) : Prop :=
  ByWrapper attentive boot l l' ∨ ByWorker boot l l'

/-- The invariant of one run. -/
structure LifeValid (attentive : Prop) (boot : BootId) (l : Life) : Prop where
  admitted : l.started.isSome ∨ l.cancelled.isSome ∨ l.result.isSome → l.request.isSome
  cleared : l.phase = some .cleared → l.started = none ∧ l.result = none ∧ l.spawned = [] ∧
    ∃ request, l.request = some request ∧ request.bootId = boot
  marked : l.phase = some .marked → l.started.isSome ∧ l.result = none ∧
    ∃ request, l.request = some request ∧ request.bootId = boot
  once : l.spawned = [] ∨ l.started.isSome ∧
    ∃ request, l.request = some request ∧ l.spawned = [request.request]
  settled : l.result.isSome → l.spawned = [] → Settled boot l
  published : ∀ result, l.published = some result →
    l.result.isSome ∧ (attentive → l.result = some result)

variable {attentive : Prop} {boot : BootId} {l l' : Life}

/-- A settled run has no worker that is past its checks. -/
theorem Settled.phase (h : Settled boot l) (hv : LifeValid attentive boot l) :
    l.phase ≠ some .cleared ∧ l.phase ≠ some .marked := by
  obtain ⟨request, hrequest, hboot | ⟨-, hphase⟩⟩ := h
  · constructor
    · intro hphase
      obtain ⟨-, -, -, other, hother, heq⟩ := hv.cleared hphase
      rw [hrequest] at hother
      exact hboot (Option.some.inj hother ▸ heq)
    · intro hphase
      obtain ⟨-, -, other, hother, heq⟩ := hv.marked hphase
      rw [hrequest] at hother
      exact hboot (Option.some.inj hother ▸ heq)
  · rcases hphase with hphase | hphase <;> rw [hphase] <;> exact ⟨by simp, by simp⟩

/-- **A settled run stays settled, and spawns nothing.** -/
theorem Settled.step (h : Settled boot l) (hv : LifeValid attentive boot l)
    (hstep : LifeStep attentive boot l l') : Settled boot l' ∧ l'.spawned = l.spawned := by
  have hphase := h.phase hv
  obtain ⟨request, hrequest, hwhy⟩ := h
  rcases hstep with hstep | hstep
  · cases hstep with
    | admission other new here => rw [hrequest] at new; cases new
    | cancellation requestedAt admitted =>
      refine ⟨⟨request, hrequest, hwhy.imp_right fun ⟨_, hbegun⟩ => ⟨.inr rfl, hbegun⟩⟩, rfl⟩
    | outcome result settled absent => exact ⟨⟨request, hrequest, hwhy⟩, rfl⟩
  · cases hstep with
    | birth => exact ⟨⟨request, hrequest, hwhy.imp_right fun ⟨hmark, _⟩ => ⟨hmark, .inr rfl⟩⟩, rfl⟩
    | death => exact ⟨⟨request, hrequest, hwhy.imp_right fun ⟨hmark, _⟩ => ⟨hmark, .inl rfl⟩⟩, rfl⟩
    | checks other admitted here started result cancelled =>
      -- the worker found neither a receipt nor a cancellation, and the boot it was admitted under
      rw [hrequest] at admitted
      obtain rfl := Option.some.inj admitted
      rcases hwhy with hboot | ⟨hmark, -⟩
      · exact (hboot here).elim
      · rw [started, cancelled] at hmark
        simp at hmark
    | receipt startedAt phase => exact (hphase.1 phase).elim
    | spawn other admitted phase first => exact (hphase.2 phase).elim
    | publication result phase ran => exact (hphase.2 phase).elim

theorem ByWorker.request (hstep : ByWorker boot l l') {request : SavedRequest}
    (h : l.request = some request) : l'.request = some request := by
  cases hstep <;> exact h

/-- The admitted request never changes. -/
theorem LifeStep.request (hstep : LifeStep attentive boot l l') {request : SavedRequest}
    (h : l.request = some request) : l'.request = some request := by
  rcases hstep with hstep | hstep
  · cases hstep with
    | admission other new here => rw [h] at new; cases new
    | cancellation requestedAt admitted => exact h
    | outcome result settled absent => exact h
  · exact hstep.request h

/-- A worker publishes where there is no result. -/
theorem ByWorker.result (hstep : ByWorker boot l l') (hv : LifeValid attentive boot l)
    {result : RunResult} (h : l.result = some result) : l'.result = some result := by
  cases hstep with
  | publication other phase ran =>
    rw [(hv.marked phase).2.1] at h
    cases h
  | birth => exact h
  | death => exact h
  | checks request admitted here started result' cancelled => exact h
  | receipt startedAt phase => exact h
  | spawn request admitted phase first => exact h

/-- A result stays; under the condition it stays the same. -/
theorem LifeStep.result (hstep : LifeStep attentive boot l l') (hv : LifeValid attentive boot l) :
    (l.result.isSome → l'.result.isSome) ∧
      (attentive → ∀ result, l.result = some result → l'.result = some result) := by
  rcases hstep with hstep | hstep
  · cases hstep with
    | admission request new here => exact ⟨id, fun _ _ h => h⟩
    | cancellation requestedAt admitted => exact ⟨id, fun _ _ h => h⟩
    | outcome result settled absent =>
      refine ⟨fun _ => rfl, fun hattentive other h => ?_⟩
      rw [absent hattentive] at h
      cases h
  · refine ⟨fun h => ?_, fun _ result h => hstep.result hv h⟩
    obtain ⟨result, hresult⟩ := Option.isSome_iff_exists.mp h
    rw [hstep.result hv hresult]
    rfl

/-- **One change keeps the invariant of a run.** -/
theorem LifeValid.step (hv : LifeValid attentive boot l) (hstep : LifeStep attentive boot l l') :
    LifeValid attentive boot l' := by
  have hresult := hstep.result hv
  have hsettled : ∀ h : Settled boot l, Settled boot l' := fun h => (h.step hv hstep).1
  rcases hstep with hstep | hstep
  · cases hstep with
    | admission request new here =>
      refine ⟨fun _ => rfl, fun hphase => ?_, fun hphase => ?_, ?_, fun hsome hnone => ?_,
        hv.published⟩
      · obtain ⟨-, -, -, other, hother, -⟩ := hv.cleared hphase
        rw [new] at hother
        cases hother
      · obtain ⟨-, -, other, hother, -⟩ := hv.marked hphase
        rw [new] at hother
        cases hother
      · rcases hv.once with hnone | ⟨-, other, hother, -⟩
        · exact .inl hnone
        · rw [new] at hother
          cases hother
      · exact hsettled (hv.settled hsome hnone)
    | cancellation requestedAt admitted =>
      exact ⟨fun _ => admitted, hv.cleared, hv.marked, hv.once,
        fun hsome hnone => hsettled (hv.settled hsome hnone), hv.published⟩
    | outcome result settled absent =>
      obtain ⟨request, hrequest, -⟩ := id settled
      have hphase := settled.phase hv
      refine ⟨fun _ => (by rw [hrequest]; rfl), fun h => (hphase.1 h).elim,
        fun h => (hphase.2 h).elim, hv.once, fun _ _ => hsettled settled,
        fun other h => ⟨rfl, fun hattentive => ?_⟩⟩
      have hsome := (hv.published other h).1
      rw [absent hattentive] at hsome
      cases hsome
  · cases hstep with
    | birth =>
      refine ⟨hv.admitted, fun h => (by cases h), fun h => (by cases h), hv.once,
        fun hsome hnone => hsettled (hv.settled hsome hnone), hv.published⟩
    | death =>
      refine ⟨hv.admitted, fun h => (by cases h), fun h => (by cases h), hv.once,
        fun hsome hnone => hsettled (hv.settled hsome hnone), hv.published⟩
    | checks request admitted here started result cancelled =>
      refine ⟨hv.admitted, fun _ => ⟨started, result, ?_, request, admitted, here⟩,
        fun h => (by cases h), hv.once, fun hsome hnone => hsettled (hv.settled hsome hnone),
        hv.published⟩
      -- nothing is spawned before the receipt
      rcases hv.once with hnone | ⟨hstarted, -⟩
      · exact hnone
      · rw [started] at hstarted
        cases hstarted
    | receipt startedAt phase =>
      obtain ⟨-, hnone, hspawned, request, hrequest, hboot⟩ := hv.cleared phase
      refine ⟨fun _ => (by rw [hrequest]; rfl), fun h => (by cases h),
        fun _ => ⟨rfl, hnone, request, hrequest, hboot⟩, .inl hspawned, fun hsome => ?_,
        hv.published⟩
      rw [hnone] at hsome
      cases hsome
    | spawn request admitted phase first =>
      have hmarked := hv.marked phase
      refine ⟨hv.admitted, fun h => ?_, hv.marked, .inr ⟨hmarked.1, request, admitted, ?_⟩,
        fun _ hnone => (by simp at hnone), hv.published⟩
      · rw [phase] at h
        cases h
      · rw [first]
        rfl
    | publication result phase ran =>
      obtain ⟨hstarted, -, request, hrequest, -⟩ := hv.marked phase
      refine ⟨fun _ => (by rw [hrequest]; rfl), fun h => (by cases h), fun h => (by cases h), hv.once,
        fun _ hnone => (ran hnone).elim, fun other h => ⟨rfl, fun _ => h⟩⟩

/-! ## The contract -/

/-- A summary that returned: a final state is the result on record, and what was published before
    it began is what it reports.  Under the condition, both for ever. -/
structure Truthful (attentive : Prop) (w : World Guest) (r : Report) : Prop where
  final : ∀ result, r.state = .final result →
    (w.store.records r.id).result.isSome ∧
      (attentive → (w.store.records r.id).result = some result)
  told : attentive → ∀ result, r.published = some result → r.state = .final result

structure Valid (attentive : Prop) (w : World Guest) : Prop where
  lives : ∀ id, LifeValid attentive w.store.bootId (life w id)
  reports : ∀ r ∈ w.store.reports, Truthful attentive w r

/-- What the process of a slot may do to the guest. -/
inductive Does (attentive : Prop) : Slot → World Guest → World Guest → Prop where
  | wrapper {w w' : World Guest} (boot : w'.store.bootId = w.store.bootId)
      (lives : ∀ id, life w' id = life w id ∨
        ByWrapper attentive w.store.bootId (life w id) (life w' id))
      (reports : w'.store.reports = w.store.reports ∨
        ∃ r, w'.store.reports = w.store.reports ++ [r] ∧ Truthful attentive w' r) :
      Does attentive .wrapper w w'
  | worker {w w' : World Guest} (id : RunId) (boot : w'.store.bootId = w.store.bootId)
      (looking : w'.store.looking = w.store.looking)
      (reports : w'.store.reports = w.store.reports)
      (others : ∀ other, other ≠ id → life w' other = life w other)
      (own : life w' id = life w id ∨ ByWorker w.store.bootId (life w id) (life w' id)) :
      Does attentive (.worker id) w w'

variable {w w' : World Guest} {k : Slot}

theorem Does.bootId (h : Does attentive k w w') : w'.store.bootId = w.store.bootId := by
  cases h with
  | wrapper boot lives reports => exact boot
  | worker id boot looking reports others own => exact boot

theorem Does.lives (h : Does attentive k w w') (id : RunId) :
    life w' id = life w id ∨ LifeStep attentive w.store.bootId (life w id) (life w' id) := by
  cases h with
  | wrapper boot lives reports => exact (lives id).imp_right .inl
  | worker own boot looking reports others step =>
    by_cases hid : id = own
    · subst hid
      exact step.imp_right .inr
    · exact .inl (others id hid)

theorem Truthful.step {r : Report} (h : Truthful attentive w r) (hv : Valid attentive w)
    (hlives : ∀ id, life w' id = life w id ∨
      LifeStep attentive w.store.bootId (life w id) (life w' id)) : Truthful attentive w' r := by
  refine ⟨fun result hfinal => ?_, h.told⟩
  obtain ⟨hsome, hsame⟩ := h.final result hfinal
  rcases hlives r.id with heq | hstep
  · have hresult : (w'.store.records r.id).result = (w.store.records r.id).result :=
      congrArg Life.result heq
    rw [hresult]
    exact ⟨hsome, hsame⟩
  · obtain ⟨hstays, hkeeps⟩ := hstep.result (hv.lives r.id)
    exact ⟨hstays hsome, fun hattentive => hkeeps hattentive result (hsame hattentive)⟩

theorem Does.valid (hv : Valid attentive w) (h : Does attentive k w w') : Valid attentive w' := by
  constructor
  · intro id
    rw [h.bootId]
    rcases h.lives id with heq | hstep
    · rw [heq]
      exact hv.lives id
    · exact (hv.lives id).step hstep
  · intro r hr
    have hold : r ∈ w.store.reports → Truthful attentive w' r := fun hold =>
      (hv.reports r hold).step hv h.lives
    cases h with
    | wrapper boot lives reports =>
      rcases reports with hsame | ⟨new, hnew, htrue⟩
      · exact hold (hsame ▸ hr)
      · rw [hnew, List.mem_append, List.mem_singleton] at hr
        rcases hr with hr | rfl
        · exact hold hr
        · exact htrue
    | worker id boot looking reports others own => exact hold (reports ▸ hr)

/-- The replies that a run under the condition gets. -/
def Replies (attentive : Prop) (w : World Guest) (c : SystemCall) (r : c.Reply) : Prop :=
  Honest w c r ∧ (attentive → Attentive w c r)

abbrev contract (attentive : Prop) : Contract Guest Slot :=
  .interleaved (Valid attentive) (Does attentive) (Replies attentive) fun hv h => h.valid hv

/-! ## What stays true -/

/-- A fact about the life of a run, as a condition on the guest. -/
abbrev OfLife (id : RunId) (F : BootId → Life → Prop) (w : World Guest) : Prop :=
  F w.store.bootId (life w id)

/-- What the wrapper knows of a run survives what workers do. -/
theorem stable_wrapper {id : RunId} {F : BootId → Life → Prop}
    (h : ∀ boot l l', LifeValid attentive boot l → ByWorker boot l l' → F boot l → F boot l') :
    Stable (contract attentive) .wrapper (OfLife id F) := by
  refine stable_interleaved fun k w w' hne hvalid hdoes hF => ?_
  unfold OfLife at hF ⊢
  cases hdoes with
  | wrapper boot lives reports => exact (hne rfl).elim
  | worker own boot looking reports others step =>
    rw [boot]
    by_cases hid : id = own
    · subst hid
      rcases step with heq | hstep
      · rw [heq]
        exact hF
      · exact h _ _ _ (hvalid.lives id) hstep hF
    · rw [others id hid]
      exact hF

theorem stable_looking {id : Option RunId} :
    Stable (contract attentive) .wrapper fun w => w.store.looking = id := by
  refine stable_interleaved fun k w w' hne hvalid hdoes hlooking => ?_
  cases hdoes with
  | wrapper boot lives reports => exact (hne rfl).elim
  | worker own boot looking reports others step => exact looking.trans hlooking

/-- What a worker knows of its run survives what the wrapper does. -/
theorem stable_worker {id : RunId} {F : BootId → Life → Prop}
    (h : ∀ boot l l', LifeValid attentive boot l → ByWrapper attentive boot l l' → F boot l →
      F boot l') :
    Stable (contract attentive) (.worker id) (OfLife id F) := by
  refine stable_interleaved fun k w w' hne hvalid hdoes hF => ?_
  unfold OfLife at hF ⊢
  rw [hdoes.bootId]
  cases hdoes with
  | wrapper boot lives reports =>
    rcases lives id with heq | hstep
    · rw [heq]
      exact hF
    · exact h _ _ _ (hvalid.lives id) hstep hF
  | worker own boot looking reports others step =>
    rw [others id fun hid => hne (hid ▸ rfl)]
    exact hF

end AgentCloud.Commands
