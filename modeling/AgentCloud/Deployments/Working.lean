/-
  THE WORKER AGAINST THE CONTRACT, and the guest with it: every action of `work` is one of
  `ByWorker`'s changes.

  The worker reads the head and then its state.  In between a command may publish another head, but
  only of a release that is over, and then the worker has nothing to do.  A release that is not over
  when its state is read is the head until the worker ends it (`Held.command`), and nobody else
  touches its state, its rendered configuration or its request.
-/
import AgentCloud.Deployments.Admitting

namespace AgentCloud.Deployments

open Checked Durable
open Compose (ComposeConfig)

variable {v v' : View} {w : World Guest} {app : AppName} {id : ReleaseId}
  {r r' : ComposeRelease} {α : Type}

/-! ## What the worker holds -/

/-- The head, with a state that is not over. -/
structure Held (id : ReleaseId) (r : ComposeRelease) (v : View) : Prop where
  head : v.head = some id
  state : v.state id = some r
  active : r.phase.stage < 3

theorem Held.command (h : Held id r v) (hstep : ByCommand v v') : Held id r v' := by
  cases hstep with
  | name other new room => exact ⟨h.head, h.state, h.active⟩
  | request q new named own origin => exact ⟨h.head, h.state, h.active⟩
  | record other new queued digest hid expected idle previous =>
    refine ⟨h.head, ?_, h.active⟩
    have hne : id ≠ other.id := by
      rintro rfl
      have hstate := h.state
      rw [new] at hstate
      cases hstate
    show Function.update _ _ _ _ = _
    rw [Function.update_of_ne hne]
    exact h.state
  | publish other state new idle expected =>
    -- the head is not over, so it is not replaced
    obtain ⟨r', hr', hterminal⟩ := idle id h.head
    obtain rfl := Option.some.inj (hr'.symm.trans h.state)
    have hstage := Phase.terminal_iff.mp hterminal
    have hactive := h.active
    omega

theorem stable_held : Stable contract .worker (Of app (Held id r)) :=
  stable_worker fun _ _ _ hstep h => h.command hstep

/-- The same release at another phase. -/
structure Same (r r' : ComposeRelease) : Prop where
  id : r'.id = r.id
  digest : r'.requestDigest = r.requestDigest
  previous : r'.previousSuccessfulReleaseId = r.previousSuccessfulReleaseId

/-- A release that the worker has moved on in memory, and perhaps in the file. -/
def Moving (id : ReleaseId) (r' : ComposeRelease) (v : View) : Prop :=
  ∃ r, Held id r v ∧ Same r r'

theorem stable_moving : Stable contract .worker (Of app (Moving id r')) :=
  stable_worker fun _ _ _ hstep ⟨r, hheld, hsame⟩ => ⟨r, hheld.command hstep, hsame⟩

/-! ## Writes of a state -/

/-- The state of the head is moved on. -/
theorem does_advance (hvalid : Valid w) (h : Held id r (view w app))
    (next : r.phase.stage < r'.phase.stage) (hsame : Same r r')
    (unfinished : r'.phase ≠ .succeeded)
    (rendered : r'.phase = .applying → (view w app).Rendered id r') :
    Does .worker w (w.put (w.store.edit app r'.id ({ · with state := some r' }))) ∧
      view (w.put (w.store.edit app r'.id ({ · with state := some r' }))) app =
        { view w app with state := Function.update (view w app).state id (some r') } := by
  have hid : r'.id = id :=
    hsame.id.trans ((hvalid.views app).saved id r h.state).1
  rw [hid]
  refine ⟨Does.edit (.inr ?_), view_saveState⟩
  rw [view_saveState]
  exact .advance id r r' h.head h.state next ⟨hsame.id, hsame.digest, hsame.previous⟩ unfinished
    rendered

theorem Held.saved (h : Held id r v) (active : r'.phase.stage < 3) :
    Held id r' { v with state := Function.update v.state id (some r') } :=
  ⟨h.head, Function.update_self _ _ _, active⟩

/-- The worker keeps to its changes, whatever it fails with. -/
abbrev Works (app : AppName) (P : View → Prop) (p : Job Unit) : Prop :=
  Triple contract .worker (Of app P) p (fun _ _ => True) fun _ _ => True

theorem works_interrupt (h : r.phase ≠ .queued) :
    Works app (Held id r) (interrupt app r) := by
  refine Triple.bind (Q := fun _ => Of app (Held id r)) (triple_clock stable_held) fun now => ?_
  refine triple_save stable_held (fun _ _ => trivial) fun w hvalid hw => ⟨?_, fun _ => trivial⟩
  have hsame : Same r { r.at .interrupted now with failure := some interruptedFailure } :=
    ⟨rfl, rfl, rfl⟩
  refine (does_advance hvalid hw ?_ hsame (fun h => by cases h) fun h => by cases h).1
  exact hw.active

theorem works_recordFailure (fault : Fault) :
    Works app (Moving id r') (recordFailure app r' fault) := by
  refine Triple.bind (Q := fun _ => Of app (Moving id r')) (triple_clock stable_moving) fun now => ?_
  refine triple_save stable_moving (fun _ _ => trivial) fun w hvalid hw => ⟨?_, fun _ => trivial⟩
  obtain ⟨r, hheld, hsame⟩ := hw
  have hfailed : Same r { r'.at .failed now with failure := some (failureText fault) } :=
    ⟨hsame.id, hsame.digest, hsame.previous⟩
  refine (does_advance hvalid hheld ?_ hfailed (fun h => by cases h) fun h => by cases h).1
  exact hheld.active

/-! ## Preparation -/

/-- A release in preparation; it has not been started. -/
structure Preparing (id : ReleaseId) (r : ComposeRelease) (v : View) : Prop where
  held : Held id r v
  own : r.id = id ∧ v.request id = some r.requestDigest
  phase : r.phase = .preparing
  new : id ∉ v.ups

theorem Preparing.command (h : Preparing id r v) (hstep : ByCommand v v') :
    Preparing id r v' := by
  refine ⟨h.held.command hstep, ⟨h.own.1, Change.step.request (.inl hstep) h.own.2⟩, h.phase, ?_⟩
  rw [hstep.kept.1]
  exact h.new

theorem stable_preparing : Stable contract .worker (Of app (Preparing id r)) :=
  stable_worker fun _ _ _ hstep h => h.command hstep

/-- A step of the preparation: however it fails, the release is still in preparation. -/
abbrev Prepares (app : AppName) (id : ReleaseId) (r : ComposeRelease) (P : View → Prop)
    (p : Job α) (Q : α → View → Prop) : Prop :=
  Triple contract .worker (Of app fun v => Preparing id r v ∧ P v) p
    (fun a => Of app fun v => Preparing id r v ∧ Q a v) fun _ => Of app (Preparing id r)

variable {P : View → Prop} {p : Job α}

theorem Prepares.refuse {q : Prop} [Decidable q] {fault : Fault} :
    Prepares app id r P (.ofExcept (refuse q fault)) fun _ v => P v ∧ ¬q := by
  refine Triple.ofExcept (fun _ hok w hw => ⟨hw.1, hw.2, fun hq => ?_⟩) fun _ _ _ hw => hw.1
  rw [Checked.refuse, if_pos hq] at hok
  cases hok

theorem Prepares.ofExcept {e : Except Fault α} :
    Prepares app id r P (.ofExcept e) fun a v => P v ∧ e = .ok a :=
  Triple.ofExcept (fun _ hok _ hw => ⟨hw.1, hw.2, hok⟩) fun _ _ _ hw => hw.1

theorem stable_prepares (hP : ∀ v v', ByCommand v v' → P v → P v') :
    Stable contract .worker (Of app fun v => Preparing id r v ∧ P v) :=
  stable_worker fun _ _ _ hstep h => ⟨h.1.command hstep, hP _ _ hstep h.2⟩

theorem Prepares.tool {c : Call} {h : c.Reply = Except Fault α}
    (hP : ∀ v v', ByCommand v v' → P v → P v') (hquiet : ∀ app, c.ups app = []) :
    Prepares app id r P (tool c h) fun _ => P :=
  triple_tool (stable_prepares hP) hquiet (fun _ _ hw => hw.1) fun _ _ hw => hw

theorem Prepares.load {f : Store → α} (hP : ∀ v v', ByCommand v v' → P v → P v') :
    Prepares app id r P (load f) fun _ => P :=
  triple_load (stable_prepares hP) (fun _ hw => hw.1) fun _ _ hw => hw

theorem prepares_checkImages (images : List (String × String))
    (hP : ∀ v v', ByCommand v v' → P v → P v') :
    Prepares app id r P (checkImages images) fun _ => P := by
  induction images with
  | nil => exact Triple.pure fun _ hw => hw
  | cons image images ih =>
    refine Triple.bind (Q := fun _ => Of app fun v => Preparing id r v ∧ P v)
      (Prepares.tool hP fun _ => rfl) fun found => ?_
    refine Triple.bind (Q := fun _ => Of app fun v => Preparing id r v ∧ P v) ?_ fun _ => ih
    exact Prepares.refuse.post (fun _ _ hw => ⟨hw.1, hw.2.1⟩) fun _ _ hw => hw

/-- The rendered configuration is saved. -/
theorem prepares_saveRuntime {config : ComposeConfig} (hP : ∀ v v', ByCommand v v' → P v → P v')
    (hkeep : ∀ v, P v → P { v with runtime := Function.update v.runtime id (some config) }) :
    Prepares app id r P (saveRuntime app id config)
      fun _ v => P v ∧ v.runtime id = some config := by
  refine triple_save (stable_prepares hP) (fun _ hw => hw.1) fun w _ hw => ?_
  obtain ⟨hpreparing, hp⟩ := hw
  refine ⟨Does.edit (.inr ?_), fun _ => ?_⟩
  · rw [view_saveRuntime]
    exact .render id r config hpreparing.held.head hpreparing.held.state hpreparing.phase
  · unfold Of
    rw [view_saveRuntime]
    refine ⟨⟨⟨hpreparing.held.head, hpreparing.held.state, hpreparing.held.active⟩, hpreparing.own,
      hpreparing.phase, hpreparing.new⟩, hkeep _ hp, Function.update_self _ _ _⟩

/-- What is prepared is on file, and a recovery's is its origin's. -/
def Ready (id : ReleaseId) (r : ComposeRelease) (prepared : Prepared) (v : View) : Prop :=
  prepared.request = r.requestDigest ∧
    v.Rendered id { r with configDigest := some prepared.configDigest }

theorem Ready.command {prepared : Prepared} (hstep : ByCommand v v')
    (h : Ready id r prepared v) : Ready id r prepared v' := by
  refine ⟨h.1, h.2.step (.inl hstep) ?_⟩
  rw [hstep.kept.2.1]

/-- The origin has succeeded with this configuration. -/
def Original (origin : ReleaseId) (config : ComposeConfig) (v : View) : Prop :=
  ∃ other, v.state origin = some other ∧ other.phase = .succeeded ∧
    other.configDigest = some config

theorem Original.step {origin : ReleaseId} {config : ComposeConfig} (hstep : Change.step v v')
    (h : Original origin config v) : Original origin config v' := by
  obtain ⟨other, hother, hphase, hconfig⟩ := h
  exact ⟨other, hstep.kept hother (by rw [hphase]; rfl), hphase, hconfig⟩

theorem derivedRuntime_recover {request : ComposeRequest} {origin : ReleaseId}
    {runtime config : ComposeConfig} (h : derivedRuntime request runtime = .ok config)
    (hchange : request.change = .recover origin) : config = runtime := by
  rw [derivedRuntime, hchange] at h
  exact (Except.ok.inj h).symm

theorem prepares_prepareFrom {request : ComposeRequest} {origin : ReleaseId}
    (hrequest : request = r.requestDigest ∧ request.app = app ∧ request.releaseId = id)
    (horigin : ∀ o, request.change = .recover o → o = origin) :
    Prepares app id r (fun _ => True) (prepareFrom request origin) fun prepared =>
      Ready id r prepared := by
  obtain ⟨hdigest, happ, hid⟩ := hrequest
  unfold prepareFrom
  rw [happ, hid]
  -- a success does not change any more
  have hstable : ∀ (original : ComposeRelease) (v v' : View), ByCommand v v' →
      v.state origin = some original ∧ original.phase = .succeeded →
      v'.state origin = some original ∧ original.phase = .succeeded := by
    intro original v v' hstep h
    exact ⟨Change.step.kept (.inl hstep) h.1 (by rw [h.2]; rfl), h.2⟩
  refine Triple.bind (Q := fun original => Of app fun v => Preparing id r v ∧
    (original.phase = .succeeded → v.state origin = some original)) ?_ fun original => ?_
  · exact triple_readRelease (stable_prepares fun _ _ _ h => h) (fun _ hw => hw.1)
      (fun _ _ hw _ => hw.1) fun original w _ hw hr => ⟨hw.1, fun _ => hr⟩
  refine Triple.bind (Q := fun _ => Of app fun v => Preparing id r v ∧
    (v.state origin = some original ∧ original.phase = .succeeded)) ?_ fun _ => ?_
  · refine Prepares.refuse.post (fun _ w hw => ?_) fun _ _ hw => hw
    have hphase := Decidable.of_not_not hw.2.2
    exact ⟨hw.1, hw.2.1 hphase, hphase⟩
  refine Triple.bind (Q := fun _ => Of app fun v => Preparing id r v ∧
    (v.state origin = some original ∧ original.phase = .succeeded)) ?_ fun stored => ?_
  · exact Prepares.load (hstable original)
  refine Triple.bind (Q := fun _ => Of app fun v => Preparing id r v ∧
    (v.state origin = some original ∧ original.phase = .succeeded)) ?_ fun runtime => ?_
  · exact Prepares.ofExcept.post (fun _ _ hw => ⟨hw.1, hw.2.1⟩) fun _ _ hw => hw
  refine Triple.bind (Q := fun _ => Of app fun v => Preparing id r v ∧
    Original origin runtime v) ?_ fun _ => ?_
  · refine Prepares.refuse.post (fun _ w hw => ⟨hw.1, original, hw.2.1.1, hw.2.1.2, ?_⟩)
      fun _ _ hw => hw
    exact (Decidable.of_not_not hw.2.2).symm
  have horiginal : ∀ (v v' : View), ByCommand v v' → Original origin runtime v →
      Original origin runtime v' := fun _ _ hstep h => h.step (.inl hstep)
  refine Triple.bind (Q := fun _ => Of app fun v => Preparing id r v ∧
    Original origin runtime v) (prepares_checkImages _ horiginal) fun _ => ?_
  refine Triple.bind (Q := fun config => Of app fun v => Preparing id r v ∧
    (Original origin runtime v ∧ derivedRuntime request runtime = .ok config)) Prepares.ofExcept
    fun config => ?_
  refine Triple.bind (Q := fun _ => Of app fun v => Preparing id r v ∧
    ((Original origin runtime v ∧ derivedRuntime request runtime = .ok config) ∧
      v.runtime id = some config)) ?_ fun _ => ?_
  · refine prepares_saveRuntime (fun _ _ hstep h => ⟨horiginal _ _ hstep h.1, h.2⟩) ?_
    exact fun _ h => h
  refine Triple.pure fun w hw => ⟨hw.1, hdigest, rfl, hw.2.2, fun o ho => ?_⟩
  obtain ⟨⟨horiginal, hderived⟩, -⟩ := hw.2
  have hrecover : request.change = .recover o := by
    rw [hdigest]
    exact ho
  obtain rfl := horigin o hrecover
  obtain rfl := derivedRuntime_recover hderived hrecover
  exact horiginal

theorem prepares_writeSource (files : List ComposeFile) :
    Prepares app id r (fun _ => True) (writeSource app id files) fun _ _ => True := by
  induction files with
  | nil => exact Triple.pure fun _ hw => hw
  | cons file files ih =>
    refine Triple.bind (Q := fun _ => Of app fun v => Preparing id r v ∧ True) ?_ fun _ => ih
    refine Triple.transact (stable_prepares fun _ _ _ h => h) (fun w hw _ env e he => hw.1)
      fun w hw _ env a s hs => ?_
    dsimp only at hs
    split at hs
    · cases hs
    · obtain ⟨-, rfl⟩ := Prod.mk.inj (Except.ok.inj hs)
      have hsame : view (w.put (w.store.edit app id fun release =>
          { release with source := release.source ++ [file.path] })) app = view w app :=
        view_edit_aside fun _ => ⟨rfl, rfl, rfl⟩
      refine ⟨Does.edit (.inl hsame), fun _ => ?_⟩
      unfold Of
      rw [hsame]
      exact hw

theorem prepares_pinImages (services : List (String × Compose.Service)) :
    Prepares app id r (fun _ => True) (pinImages services) fun _ _ => True := by
  induction services with
  | nil => exact Triple.pure fun _ hw => hw
  | cons service services ih =>
    refine Triple.bind (Q := fun _ => Of app fun v => Preparing id r v ∧ True) ?_ fun image => ?_
    · exact Prepares.ofExcept.post (fun _ _ hw => ⟨hw.1, trivial⟩) fun _ _ hw => hw
    refine Triple.bind (Q := fun _ => Of app fun v => Preparing id r v ∧ True)
      (Prepares.tool (fun _ _ _ h => h) fun _ => rfl) fun _ => ?_
    refine Triple.bind (Q := fun _ => Of app fun v => Preparing id r v ∧ True)
      (Prepares.tool (fun _ _ _ h => h) fun _ => rfl) fun _ => ?_
    refine Triple.bind (Q := fun _ => Of app fun v => Preparing id r v ∧ True) ?_ fun _ => ?_
    · exact Prepares.refuse.post (fun _ _ hw => ⟨hw.1, trivial⟩) fun _ _ hw => hw
    exact Triple.bind (Q := fun _ => Of app fun v => Preparing id r v ∧ True) ih fun _ =>
      Triple.pure fun _ hw => hw

theorem prepares_prepareSource {request : ComposeRequest} {file : String}
    {files : List ComposeFile}
    (hrequest : request = r.requestDigest ∧ request.app = app ∧ request.releaseId = id)
    (hchange : request.change = .apply file files) :
    Prepares app id r (fun _ => True) (prepareSource request file files) fun prepared =>
      Ready id r prepared := by
  obtain ⟨hdigest, happ, hid⟩ := hrequest
  unfold prepareSource
  rw [happ, hid]
  refine Triple.bind (Q := fun _ => Of app fun v => Preparing id r v ∧ True)
    (prepares_writeSource files) fun _ => ?_
  refine Triple.bind (Q := fun _ => Of app fun v => Preparing id r v ∧ True)
    (Prepares.tool (fun _ _ _ h => h) fun _ => rfl) fun rendered => ?_
  refine Triple.bind (Q := fun _ => Of app fun v => Preparing id r v ∧ True) ?_ fun config => ?_
  · exact Prepares.ofExcept.post (fun _ _ hw => ⟨hw.1, trivial⟩) fun _ _ hw => hw
  refine Triple.bind (Q := fun _ => Of app fun v => Preparing id r v ∧ True) ?_ fun services => ?_
  · exact Prepares.ofExcept.post (fun _ _ hw => ⟨hw.1, trivial⟩) fun _ _ hw => hw
  refine Triple.bind (Q := fun _ => Of app fun v => Preparing id r v ∧ True) ?_ fun _ => ?_
  · refine triple_save (stable_prepares fun _ _ _ h => h) (fun _ hw => hw.1) fun w _ hw => ?_
    have hsame : view (w.put (w.store.edit app id
        ({ · with build := some { config with services } }))) app = view w app :=
      view_edit_aside fun _ => ⟨rfl, rfl, rfl⟩
    refine ⟨Does.edit (.inl hsame), fun _ => ?_⟩
    unfold Of
    rw [hsame]
    exact hw
  refine Triple.bind (Q := fun _ => Of app fun v => Preparing id r v ∧ True)
    (Prepares.tool (fun _ _ _ h => h) fun _ => rfl) fun _ => ?_
  refine Triple.bind (Q := fun _ => Of app fun v => Preparing id r v ∧ True)
    (Prepares.tool (fun _ _ _ h => h) fun _ => rfl) fun _ => ?_
  refine Triple.bind (Q := fun _ => Of app fun v => Preparing id r v ∧ True)
    (prepares_pinImages services) fun images => ?_
  refine Triple.bind (Q := fun _ => Of app fun v => Preparing id r v ∧
    (True ∧ v.runtime id = some { config with services := images.1 })) ?_ fun _ => ?_
  · exact prepares_saveRuntime (fun _ _ _ h => h) fun _ h => h
  refine Triple.pure fun w hw => ⟨hw.1, hdigest, rfl, hw.2.2, fun o ho => ?_⟩
  have hrecover : request.change = .recover o := by
    rw [hdigest]
    exact ho
  rw [hchange] at hrecover
  cases hrecover

theorem prepares_prepareChange {request : ComposeRequest}
    (hrequest : request = r.requestDigest ∧ request.app = app ∧ request.releaseId = id) :
    Prepares app id r (fun _ => True) (prepareChange request) fun prepared =>
      Ready id r prepared := by
  unfold prepareChange
  split
  · next file files hchange => exact prepares_prepareSource hrequest hchange
  · next origin hchange =>
    refine prepares_prepareFrom hrequest fun o ho => ?_
    rw [hchange] at ho
    exact (Change.recover.inj ho).symm
  · next origin hchange =>
    refine prepares_prepareFrom hrequest fun o ho => ?_
    rw [hchange] at ho
    cases ho

theorem prepares_prepare (hid : r.id = id) :
    Prepares app id r (fun _ => True) (prepare app r) fun prepared => Ready id r prepared := by
  refine Triple.bind (Q := fun _ => Of app fun v => Preparing id r v ∧ True) ?_ fun stored => ?_
  · exact Prepares.load fun _ _ _ h => h
  refine Triple.bind (Q := fun _ => Of app fun v => Preparing id r v ∧ True) ?_ fun request => ?_
  · exact Prepares.ofExcept.post (fun _ _ hw => ⟨hw.1, trivial⟩) fun _ _ hw => hw
  refine Triple.bind (Q := fun _ => Of app fun v => Preparing id r v ∧
    (True ∧ ¬(request ≠ r.requestDigest ∨ request.app ≠ app ∨ request.releaseId ≠ r.id)))
    Prepares.refuse fun _ => ?_
  refine fun w hw => (prepares_prepareChange ?_) w ⟨hw.1, trivial⟩
  obtain ⟨-, -, hnot⟩ := hw
  simp only [not_or, Decidable.not_not] at hnot
  exact ⟨hnot.1, hnot.2.1, hnot.2.2.trans hid⟩

/-! ## Application -/

/-- Prepared, and not started. -/
structure Startable (id : ReleaseId) (r : ComposeRelease) (prepared : Prepared) (v : View) :
    Prop where
  preparing : Preparing id r v
  ready : Ready id r prepared v

theorem stable_startable {prepared : Prepared} :
    Stable contract .worker (Of app (Startable id r prepared)) :=
  stable_worker fun _ _ _ hstep h => ⟨h.preparing.command hstep, h.ready.command hstep⟩

theorem same_applied {prepared : Prepared} {now : Instant} : Same r (r.applied prepared now) :=
  ⟨rfl, rfl, rfl⟩

/-- The release is in application. -/
def Applying (id : ReleaseId) (r : ComposeRelease) (v : View) : Prop :=
  Held id r v ∧ r.phase = .applying

theorem stable_applying : Stable contract .worker (Of app (Applying id r)) :=
  stable_worker fun _ _ _ hstep h => ⟨h.1.command hstep, h.2⟩

theorem works_recordSuccess :
    Triple contract .worker (Of app (Applying id r)) (recordSuccess app r) (fun _ _ => True)
      fun _ => Of app (Moving id r) := by
  have hmoving : ∀ {v}, Applying id r v → Moving id r v := fun h => ⟨r, h.1, rfl, rfl, rfl⟩
  refine Triple.bind (Q := fun _ => Of app (Applying id r)) (triple_clock stable_applying)
    fun now => ?_
  refine triple_save stable_applying (fun _ hw => hmoving hw) fun w hvalid hw =>
    ⟨?_, fun _ => trivial⟩
  obtain ⟨hheld, hphase⟩ := hw
  obtain ⟨hid, -⟩ := (hvalid.views app).saved id r hheld.state
  rw [hid]
  have hview : view (w.put ((w.store.edit app id
      ({ · with state := some (r.at .succeeded now) })).editApp app fun files =>
        { files with succeeded := files.succeeded ++ [id] })) app =
      { view w app with
        state := Function.update (view w app).state id (some (r.at .succeeded now))
        succeeded := (view w app).succeeded ++ [id] } := by
    have hstate : view (w.put (w.store.edit app id
        ({ · with state := some (r.at .succeeded now) }))) app = _ := view_saveState
    have hother : ∀ s : Store, view (w.put (s.editApp app fun files =>
        { files with succeeded := files.succeeded ++ [id] })) app =
        { view (w.put s) app with succeeded := (view (w.put s) app).succeeded ++ [id] } := by
      intro s
      simp [view, Store.editApp, Store.release]
    rw [hother, hstate]
  refine @Does.here .worker w app _ rfl (fun other hne => ?_) (.inr ?_)
  · have hfirst : view (w.put (w.store.edit app id
        ({ · with state := some (r.at .succeeded now) }))) other = view w other :=
      view_edit_other hne
    rw [← hfirst]
    exact @view_editApp_other (w.put _) app _ other hne
  · rw [hview]
    exact .success id r _ hheld.head hheld.state hphase ⟨rfl, rfl, rfl, rfl⟩ rfl

/-- `compose up` for the release. -/
theorem triple_up {waitSeconds : Nat} {recreate : Bool} :
    Triple contract .worker (Of app fun v => Applying id r v ∧ id ∉ v.ups)
      (tool (.up app id waitSeconds recreate) rfl) (fun _ => Of app (Applying id r))
      fun _ => Of app (Applying id r) := by
  refine Triple.bind (Q := fun _ => Of app (Applying id r)) ?_ fun reply =>
    Triple.ofExcept (fun _ _ _ hw => hw) fun _ _ _ hw => hw
  refine Triple.ask ?_ fun w hw _ reply _ => ?_
  · refine stable_worker fun v v' _ hstep h => ⟨⟨h.1.1.command hstep, h.1.2⟩, ?_⟩
    rw [hstep.kept.1]
    exact h.2
  · obtain ⟨⟨hheld, hphase⟩, hnew⟩ := hw
    have hups : Call.ups app (.up app id waitSeconds recreate) = [id] := if_pos rfl
    refine ⟨⟨fun other => ?_, fun _ ha => .inl ha⟩, ?_⟩
    · by_cases hother : other = app
      · subst hother
        refine .inr ?_
        rw [view_exchange, hups]
        exact .up id r hheld.head hheld.state hphase hnew
      · exact .inl (view_exchange_quiet (if_neg fun h => hother h.symm))
    · unfold Of
      rw [view_exchange, hups]
      exact ⟨⟨hheld.head, hheld.state, hheld.active⟩, hphase⟩

theorem works_applyRelease {prepared : Prepared} {now : Instant} (hid : r.id = id) :
    Triple contract .worker (Of app (Startable id r prepared))
      (applyRelease app (r.applied prepared now) prepared.request) (fun _ _ => True)
      fun _ => Of app (Moving id (r.applied prepared now)) := by
  have hmoving : ∀ {v}, Startable id r prepared v → Moving id (r.applied prepared now) v :=
    fun h => ⟨r, h.preparing.held, same_applied⟩
  refine Triple.bind (Q := fun _ => Of app fun v =>
    Applying id (r.applied prepared now) v ∧ id ∉ v.ups) ?_ fun _ => ?_
  · refine triple_save stable_startable (fun _ hw => hmoving hw) fun w hvalid hw => ?_
    obtain ⟨hpreparing, -, hrendered⟩ := hw
    have hnext : r.phase.stage < (r.applied prepared now).phase.stage := by
      rw [hpreparing.phase]
      exact (by decide : Phase.stage .preparing < Phase.stage .applying)
    obtain ⟨hdoes, hview⟩ := does_advance hvalid hpreparing.held hnext same_applied
      (fun h => by cases h) fun _ => hrendered
    refine ⟨hdoes, fun _ => ?_⟩
    unfold Of
    rw [hview]
    exact ⟨⟨hpreparing.held.saved (by decide : Phase.stage .applying < 3), rfl⟩, hpreparing.new⟩
  refine Triple.bind (Q := fun _ => Of app (Applying id (r.applied prepared now))) ?_ fun _ =>
    works_recordSuccess
  have hsame : (r.applied prepared now).id = id := hid
  rw [hsame]
  exact triple_up.post (fun _ _ hw => hw) fun _ _ hw => ⟨_, hw.1, rfl, rfl, rfl⟩

theorem works_applyOrFail {prepared : Prepared} (hid : r.id = id) :
    Works app (Startable id r prepared) (applyOrFail app r prepared) := by
  refine Triple.bind (Q := fun _ => Of app (Startable id r prepared))
    (triple_clock stable_startable) fun now => ?_
  exact Triple.handle (works_applyRelease hid) works_recordFailure

theorem works_prepareOrFail {now : Instant} (hid : r.id = id) (hqueued : r.phase = .queued) :
    Triple contract .worker (Of app (Held id r)) (prepareOrFail app (r.at .preparing now))
      (fun prepared w => ∀ p, prepared = some p →
        Of app (Startable id (r.at .preparing now) p) w) fun _ _ => True := by
  have hsame : Same r (r.at .preparing now) := ⟨rfl, rfl, rfl⟩
  refine Triple.handle (F := fun _ => Of app (Moving id (r.at .preparing now))) ?_ fun fault => ?_
  · refine Triple.bind (Q := fun _ => Of app fun v =>
      Preparing id (r.at .preparing now) v ∧ True) ?_ fun _ => ?_
    · refine triple_save stable_held (fun _ hw => ⟨r, hw, hsame⟩) fun w hvalid hw => ?_
      have hv := hvalid.views app
      have hnext : r.phase.stage < (r.at .preparing now).phase.stage := by
        rw [hqueued]
        exact (by decide : Phase.stage .queued < Phase.stage .preparing)
      obtain ⟨hdoes, hview⟩ := does_advance hvalid hw hnext hsame (fun h => by cases h)
        fun h => by cases h
      refine ⟨hdoes, fun _ => ?_⟩
      unfold Of
      rw [hview]
      refine ⟨⟨hw.saved (by decide : Phase.stage .preparing < 3), ⟨hid, ?_⟩, rfl, ?_⟩, trivial⟩
      · exact (hv.saved id r hw.state).2
      · -- a release that was started is further on
        intro hmem
        obtain ⟨other, hother, hstage⟩ := hv.ups.2 id hmem
        obtain rfl := Option.some.inj (hother.symm.trans hw.state)
        rw [hqueued] at hstage
        exact absurd hstage (by decide)
    · have hprepare := @prepares_prepare app id (r.at .preparing now) hid
      refine Triple.bind (Q := fun prepared => Of app fun v =>
        Preparing id (r.at .preparing now) v ∧ Ready id (r.at .preparing now) prepared v) ?_
        fun prepared => ?_
      · exact hprepare.post (fun _ _ hw => hw) fun _ _ hw => ⟨_, hw.held, rfl, rfl, rfl⟩
      · refine Triple.pure fun w hw => ?_
        rintro p ⟨⟩
        exact ⟨hw.1, hw.2⟩
  · refine Triple.bind (Q := fun _ _ => True) (works_recordFailure fault) fun _ => ?_
    refine Triple.pure fun _ _ => ?_
    rintro p ⟨⟩

theorem works_runRelease (hid : r.id = id) (hqueued : r.phase = .queued) :
    Works app (Held id r) (runRelease app r) := by
  refine Triple.bind (Q := fun _ => Of app (Held id r)) (triple_clock stable_held) fun now => ?_
  refine Triple.bind (works_prepareOrFail hid hqueued) fun prepared => ?_
  cases prepared with
  | none => exact Triple.pure fun _ _ => trivial
  | some p =>
    have happly : Works app (Startable id (r.at .preparing now) p)
        (applyOrFail app (r.at .preparing now) p) := works_applyOrFail hid
    exact happly.pre fun w hw => hw p rfl

/-! ## The head, as the worker reads it -/

/-- The head, or a release that is over. -/
def HeadOrOver (id : ReleaseId) (v : View) : Prop := v.head = some id ∨ v.Over id

theorem stable_headOrOver : Stable contract .worker (Of app (HeadOrOver id)) := by
  refine stable_worker fun v v' _ hstep h => ?_
  rcases h with hhead | hover
  · cases hstep with
    | publish r state new idle expected => exact .inr (idle id hhead)
    | name other new room => exact .inl hhead
    | request q new named own origin => exact .inl hhead
    | record r new queued digest hid expected idle previous => exact .inl hhead
  · exact .inr (hover.step (.inl hstep))

theorem works_workRelease :
    Works app (fun v => r.phase.terminal = false → Held r.id r v) (workRelease app (some r)) := by
  rw [workRelease]
  split
  · exact Triple.pure fun _ _ => trivial
  · next hactive =>
    rw [Bool.not_eq_true] at hactive
    split
    · next hphase => exact (works_interrupt hphase).pre fun w hw => hw hactive
    · next hphase =>
      exact (works_runRelease rfl (Decidable.of_not_not hphase)).pre fun w hw => hw hactive

theorem works_workApp : Works app Nothing (workApp app) := by
  refine Triple.bind (Q := fun release => Of app fun v => ∀ r, release = some r →
    r.phase.terminal = false → Held r.id r v) ?_ fun release => ?_
  · refine Triple.bind (Q := fun head => Of app fun v => ∀ id, head = some id → HeadOrOver id v)
      ?_ fun head => ?_
    · refine triple_load (fun _ _ _ _ => trivial) (fun _ _ => trivial) fun w _ _ id hid => ?_
      exact .inl hid
    cases head with
    | none =>
      refine Triple.pure fun w _ => ?_
      rintro r ⟨⟩
    | some id =>
      refine Triple.bind (Q := fun r => Of app fun v =>
        r.phase.terminal = false → Held r.id r v) ?_ fun r => ?_
      · refine Triple.pre (P := Of app (HeadOrOver id)) ?_ fun w hw => hw id rfl
        refine triple_readRelease stable_headOrOver (fun _ _ => trivial) (fun _ _ _ _ => trivial)
          fun r w hvalid hw hr hactive => ?_
        obtain ⟨rfl, -⟩ := (hvalid.views app).saved id r hr
        have hstage : r.phase.stage < 3 := by
          cases hphase : r.phase <;> rw [hphase] at hactive <;> first | decide | cases hactive
        refine ⟨?_, hr, hstage⟩
        rcases hw with hhead | ⟨other, hother, hterminal⟩
        · exact hhead
        · obtain rfl := Option.some.inj (hother.symm.trans hr)
          rw [hterminal] at hactive
          cases hactive
      · refine Triple.pure fun w hw => ?_
        rintro _ ⟨⟩
        exact hw
  · cases release with
    | none => exact Triple.pure fun _ _ => trivial
    | some r => exact works_workRelease.pre fun w hw => hw r rfl

theorem safe_work (w : World Guest) : Safe contract .worker (fun _ _ => True) work w := by
  refine Triple.safe (Q := fun _ _ => True) (E := fun _ _ => True) ?_ w
  refine Triple.bind (Q := fun _ _ => True) ?_ fun apps w _ => ?_
  · refine Triple.transact (fun _ _ _ _ => trivial) (fun _ _ _ _ _ _ => trivial)
      fun w _ _ env a s hs => ?_
    dsimp only at hs
    split at hs
    · obtain ⟨-, rfl⟩ := Prod.mk.inj (Except.ok.inj hs)
      exact ⟨Does.refl .worker w, fun _ => trivial⟩
    · cases hs
  · refine @Safe.forEach _ _ _ contract .worker _ (fun _ => True) apps workApp w trivial
      (fun app _ w _ => ?_) fun _ _ => trivial
    refine (works_workApp w trivial).mono fun r _ _ => ?_
    cases r <;> trivial

/-! ## The guest -/

/-- **The guest keeps the contract.** -/
theorem guest_disciplined : Discipline guest contract where
  job_safe hjob _ := by
    cases hjob with
    | command c => exact safe_command c _
    | work => exact safe_work _
  other_valid _ h := h.elim
  other_rely _ h := h.elim
  allows _ _ := trivial

theorem fresh_valid : Valid ⟨Store.fresh, []⟩ where
  views app := empty_valid app
  answers _ h := by cases h

theorem fresh_inOrder : Discipline.InOrder contract (Durable.Config.idle ⟨Store.fresh, []⟩) :=
  Discipline.inOrder_idle fresh_valid

end AgentCloud.Deployments
