/-
  ADMISSIONS AGAINST THE CONTRACT: every action of a mutation is one of `ByCommand`'s changes.

  A crash may leave any prefix of the writes: the name, the request, the release, the head.  Each of
  them has its own knowledge (`Cleared`, `Stored`, `Recorded`, `Published`), which says what the
  writes before it have made true, and which the worker keeps.
-/
import AgentCloud.Deployments.Commanding

namespace AgentCloud.Deployments

open Checked Durable
open Compose (ComposeConfig)

variable {v v' : View} {w : World Guest} {app : AppName} {id : ReleaseId} {q : ComposeRequest}
  {head existing : Option ComposeRelease} {α : Type}

/-! ## An admission, check by check -/

/-- The origin of a request has succeeded. -/
def OriginOk (q : ComposeRequest) (v : View) : Prop :=
  ∀ o, q.change.origin? = some o → v.Succeeded o

/-- A request that has passed every check. -/
structure Cleared (q : ComposeRequest) (head existing : Option ComposeRelease) (v : View) :
    Prop where
  fitting : Fitting q head existing v
  origin : OriginOk q v

theorem Cleared.worker (h : Cleared q head existing v) (hv : ViewValid v)
    (hstep : ByWorker v v') : Cleared q head existing v' where
  fitting := h.fitting.worker hv hstep
  origin o ho := (h.origin o ho).step (.inr hstep)

theorem stable_fitting : Stable contract .wrapper (Of app (Fitting q head existing)) :=
  stable_wrapper fun _ _ hv hstep h => h.worker hv hstep

theorem stable_checked : Stable contract .wrapper (Of app (Cleared q head existing)) :=
  stable_wrapper fun _ _ hv hstep h => h.worker hv hstep

theorem orders_refuse {P : View → Prop} {p : Prop} [Decidable p] {fault : Fault} :
    Orders app P (.ofExcept (refuse p fault)) fun _ v => P v ∧ ¬p := by
  refine Triple.ofExcept (fun _ hok w hw => ⟨hw, fun hp => ?_⟩) fun _ _ _ _ => trivial
  rw [refuse, if_pos hp] at hok
  cases hok

theorem orders_checkOrigin {promotes : Bool} {origin : ReleaseId} :
    Orders q.app (Fitting q head existing) (checkOrigin q promotes origin)
      fun _ v => Fitting q head existing v ∧ v.Succeeded origin := by
  refine Triple.bind (Q := fun r => Of q.app fun v => Fitting q head existing v ∧
    (r.phase = .succeeded → v.Succeeded origin)) ?_ fun r => ?_
  · exact triple_readRelease stable_fitting (fun _ _ => trivial) (fun _ _ _ _ => trivial)
      fun r w _ hw hr => ⟨hw, fun hphase => ⟨r, hr, hphase⟩⟩
  · refine Triple.bind (Q := fun _ => Of q.app fun v => Fitting q head existing v ∧
      v.Succeeded origin) ?_ fun _ => ?_
    · refine orders_refuse.post (fun _ w hw => ⟨hw.1.1, hw.1.2 ?_⟩) fun _ _ _ => trivial
      exact Decidable.of_not_not hw.2
    · exact orders_refuse.post (fun _ _ hw => hw.1) fun _ _ _ => trivial

theorem orders_checkChange :
    Orders q.app (Fitting q head existing) (checkChange q)
      fun _ => Cleared q head existing := by
  unfold checkChange
  split
  · next file files hchange =>
    refine orders_refuse.post (fun _ w hw => ⟨hw.1, fun o ho => ?_⟩) fun _ _ _ => trivial
    rw [hchange] at ho
    cases ho
  · next origin hchange =>
    refine orders_checkOrigin.post (fun _ w hw => ⟨hw.1, fun o ho => ?_⟩) fun _ _ _ => trivial
    rw [hchange] at ho
    exact Option.some.inj ho ▸ hw.2
  · next origin hchange =>
    refine orders_checkOrigin.post (fun _ w hw => ⟨hw.1, fun o ho => ?_⟩) fun _ _ _ => trivial
    rw [hchange] at ho
    exact Option.some.inj ho ▸ hw.2

/-! ## An admission, write by write -/

/-- A name in the directory of releases. -/
theorem Cleared.name (h : Cleared q head existing v) {names : List ReleaseId} :
    Cleared q head existing { v with names } where
  fitting := h.fitting.keep ⟨rfl, rfl⟩ (fun _ _ => rfl) (fun _ _ hr _ => hr) id
  origin := h.origin

theorem view_addDirectory {directory : List AppName} :
    view (w.put { w.store with directory }) app = view w app := rfl

theorem view_addName {names : List ReleaseId} :
    view (w.put (w.store.editApp app ({ · with names := names }))) app =
      { view w app with names } := by
  simp [view, Store.editApp, Store.release]

theorem orders_makeRoom :
    Orders q.app (Cleared q head existing) (makeRoom q head existing)
      fun _ v => Cleared q head existing v ∧ q.releaseId ∈ v.names := by
  refine Triple.bind (Q := fun _ => Of q.app (Cleared q head existing)) ?_ fun apps => ?_
  · exact triple_load stable_checked (fun _ _ => trivial) fun _ _ hw => hw
  refine Triple.bind (Q := fun _ => Of q.app (Cleared q head existing)) ?_ fun _ => ?_
  · exact orders_refuse.post (fun _ _ hw => hw.1) fun _ _ _ => trivial
  refine Triple.bind (Q := fun _ => Of q.app (Cleared q head existing)) ?_ fun _ => ?_
  · exact triple_save stable_checked (fun _ _ => trivial) fun w _ hw =>
      ⟨⟨fun _ => .inl rfl, fun _ ha => .inl ha⟩, fun _ => hw⟩
  refine Triple.bind (Q := fun n => Of q.app fun v => Cleared q head existing v ∧
    v.names.length = n) ?_ fun n => ?_
  · exact triple_load stable_checked (fun _ _ => trivial) fun _ _ hw => ⟨hw, rfl⟩
  -- a release that is new to the directory is not on record, so there is room for it
  have hstable : Stable contract .wrapper (Of q.app fun v => Cleared q head existing v ∧
      (existing = none → v.names.length < 128)) := by
    refine stable_wrapper fun v v' hv hstep h => ⟨h.1.worker hv hstep, fun hnone => ?_⟩
    rw [hstep.kept.2.1]
    exact h.2 hnone
  refine Triple.bind (Q := fun _ => Of q.app fun v => Cleared q head existing v ∧
    (existing = none → v.names.length < 128)) ?_ fun _ => ?_
  · refine orders_refuse.post (fun _ w hw => ⟨hw.1.1, fun hnone => ?_⟩) fun _ _ _ => trivial
    have hlt : ¬n ≥ 128 := fun hn => hw.2 ⟨hn, hnone⟩
    rw [hw.1.2]
    omega
  refine Triple.bind (Q := fun _ => Of q.app fun v => Cleared q head existing v ∧
    (existing = none → v.names.length < 128)) ?_ fun free => ?_
  · exact Triple.observe hstable (fun w => Does.refl _ w) fun _ hw _ _ => hw
  refine Triple.bind (Q := fun _ => Of q.app fun v => Cleared q head existing v ∧
    (existing = none → v.names.length < 128)) ?_ fun _ => ?_
  · exact orders_refuse.post (fun _ _ hw => hw.1) fun _ _ _ => trivial
  refine triple_save hstable (fun _ _ => trivial) fun w hvalid hw => ?_
  obtain ⟨hchecked, hroom⟩ := hw
  have hv := hvalid.views q.app
  by_cases hmem : q.releaseId ∈ (w.store.apps q.app).names
  · have hsame : view (w.put (w.store.editApp q.app fun files => { files with
        names := if q.releaseId ∈ files.names then files.names
          else files.names ++ [q.releaseId] })) q.app = view w q.app := by
      simp [view, Store.editApp, Store.release, hmem]
    refine ⟨.here rfl (fun _ hne => view_editApp_other hne) (.inl hsame), fun _ => ?_⟩
    unfold Of
    rw [hsame]
    exact ⟨hchecked, hmem⟩
  · have hnone : existing = none := by
      cases existing with
      | none => rfl
      | some r =>
        have hrequest := (hchecked.fitting.own r rfl).2.2
        exact (hmem (hv.requested q.releaseId q hrequest).1).elim
    have hnew : view (w.put (w.store.editApp q.app fun files => { files with
        names := if q.releaseId ∈ files.names then files.names
          else files.names ++ [q.releaseId] })) q.app =
        { view w q.app with names := (view w q.app).names ++ [q.releaseId] } := by
      simp [view, Store.editApp, Store.release, hmem]
    refine ⟨.here rfl (fun _ hne => view_editApp_other hne) (.inr ?_), fun _ => ?_⟩
    · rw [hnew]
      exact .name q.releaseId hmem (hroom hnone)
    · unfold Of
      rw [hnew]
      exact ⟨hchecked.name, by simp⟩

/-- The request is on record. -/
structure Stored (q : ComposeRequest) (head existing : Option ComposeRelease) (v : View) :
    Prop where
  fitting : Fitting q head existing v
  request : v.request q.releaseId = some q

theorem stable_stored : Stable contract .wrapper (Of app (Stored q head existing)) := by
  refine stable_wrapper fun v v' hv hstep h => ⟨h.fitting.worker hv hstep, ?_⟩
  rw [hstep.kept.2.2.2]
  exact h.request

theorem orders_saveRequest (stored : Option ComposeRequest) :
    Orders q.app (fun v => (Cleared q head existing v ∧ q.releaseId ∈ v.names) ∧
        v.request q.releaseId = stored)
      (saveRequest q stored) fun _ => Stored q head existing := by
  cases stored with
  | some other =>
    refine orders_refuse.post (fun _ w hw => ⟨hw.1.1.1.fitting, ?_⟩) fun _ _ _ => trivial
    rw [hw.1.2, Decidable.of_not_not hw.2]
  | none =>
    refine triple_save ?_ (fun _ _ => trivial) fun w hvalid hw => ?_
    · refine stable_wrapper fun v v' hv hstep h => ⟨⟨h.1.1.worker hv hstep, ?_⟩, ?_⟩
      · rw [hstep.kept.2.1]
        exact h.1.2
      · rw [hstep.kept.2.2.2]
        exact h.2
    · obtain ⟨⟨hchecked, hnamed⟩, hnone⟩ := hw
      have hstep : ByCommand (view w q.app) { view w q.app with
          request := Function.update (view w q.app).request q.releaseId (some q) } :=
        .request q hnone hnamed rfl hchecked.origin
      refine ⟨Does.edit (.inr ?_), fun _ => ?_⟩
      · rw [view_saveRequest]
        exact hstep
      · unfold Of
        rw [view_saveRequest]
        exact ⟨hchecked.fitting.keep ⟨rfl, rfl⟩ (fun _ _ => rfl) (fun _ _ hr _ => hr)
          (Change.step.request (.inl hstep)), Function.update_self _ _ _⟩

/-- The release is on record, and not yet the head. -/
structure Recorded (q : ComposeRequest) (r : ComposeRelease) (v : View) : Prop where
  own : r.id = q.releaseId ∧ r.requestDigest = q
  state : v.state q.releaseId = some r
  fresh : q.releaseId ∉ v.heads
  idle : v.Idle
  expected : q.expectedReleaseId = v.head

theorem stable_recorded {r : ComposeRelease} :
    Stable contract .wrapper (Of app (Recorded q r)) := by
  refine stable_wrapper fun v v' hv hstep h => ⟨h.own, ?_, ?_, fun id hid => ?_, ?_⟩
  · rw [hstep.state_other hv h.fresh]
    exact h.state
  · rw [hstep.kept.2.2.1]
    exact h.fresh
  · rw [hstep.kept.1] at hid
    exact (h.idle id hid).step (.inr hstep)
  · rw [hstep.kept.1]
    exact h.expected

theorem orders_record (now : Instant) :
    Orders q.app (Stored q head existing)
      (saveRelease q.app (existing.getD (newRelease q head now)))
      fun _ => Recorded q (existing.getD (newRelease q head now)) := by
  refine triple_save stable_stored (fun _ _ => trivial) fun w hvalid hw => ?_
  obtain ⟨hfitting, hrequest⟩ := hw
  have hv := hvalid.views q.app
  have hidle := hfitting.idle
  cases existing with
  | some r =>
    -- an orphan is written once more, as it is
    obtain ⟨hid, hdigest, -⟩ := hfitting.own r rfl
    have hstate : (view w q.app).state r.id = some r := by
      rw [hid]
      exact hfitting.recorded
    have hsame : view (w.put (w.store.edit q.app r.id ({ · with state := some r }))) q.app =
        view w q.app := by
      rw [view_saveState, ← hstate, Function.update_eq_self]
    refine ⟨Does.edit (.inl hsame), fun _ => ?_⟩
    show Recorded q r (view (w.put (w.store.edit q.app r.id ({ · with state := some r }))) q.app)
    rw [hsame]
    exact ⟨⟨hid, hdigest⟩, hfitting.recorded, hfitting.fresh, hidle, hfitting.expected⟩
  | none =>
    generalize hr : newRelease q head now = r
    have hown : r.id = q.releaseId ∧ r.requestDigest = q := by
      subst hr
      exact ⟨rfl, rfl⟩
    have hstep : ByCommand (view w q.app) { view w q.app with
        state := Function.update (view w q.app).state r.id (some r) } := by
      refine .record r ?_ ?_ ?_ ?_ ?_ hidle ?_
      · rw [hown.1]
        exact hfitting.recorded
      · subst hr
        rfl
      · rw [hown.1, hown.2]
        exact hrequest
      · rw [hown.1, hown.2]
      · rw [hown.2]
        exact hfitting.expected
      · rw [← hfitting.previous hv]
        subst hr
        rfl
    refine ⟨Does.edit (.inr ?_), fun _ => ?_⟩
    · show ByCommand _ (view (w.put (w.store.edit q.app r.id ({ · with state := some r }))) q.app)
      rw [view_saveState]
      exact hstep
    · show Recorded q r (view (w.put (w.store.edit q.app r.id ({ · with state := some r }))) q.app)
      rw [view_saveState]
      refine ⟨hown, ?_, hfitting.fresh, fun id hid => (hidle id hid).step (.inl hstep),
        hfitting.expected⟩
      show Function.update _ _ _ _ = _
      rw [hown.1, Function.update_self]

theorem view_publish :
    view (w.put (w.store.editApp app fun files =>
      { files with head := some id, heads := files.heads ++ [id] })) app =
      { view w app with head := some id, heads := (view w app).heads ++ [id] } := by
  simp [view, Store.editApp, Store.release]

/-- The request's release is the head. -/
structure Published (q : ComposeRequest) (v : View) : Prop where
  head : v.head = some q.releaseId
  heads : q.releaseId ∈ v.heads
  request : v.request q.releaseId = some q

theorem Published.worker (h : Published q v) (hstep : ByWorker v v') : Published q v' := by
  obtain ⟨hhead, -, hheads, hrequest⟩ := hstep.kept
  exact ⟨by rw [hhead]; exact h.head, by rw [hheads]; exact h.heads,
    by rw [hrequest]; exact h.request⟩

theorem orders_publish {r : ComposeRelease} :
    Orders q.app (Recorded q r) (publish q.app r.id) fun _ => Published q := by
  refine triple_save stable_recorded (fun _ _ => trivial) fun w hvalid hw => ?_
  have hstate : (view w q.app).state r.id = some r := by
    rw [hw.own.1]
    exact hw.state
  have hrequest : (view w q.app).request q.releaseId = some q := by
    rw [← hw.own.1, ((hvalid.views q.app).saved r.id r hstate).2, hw.own.2]
  refine ⟨.here rfl (fun _ hne => view_editApp_other hne) (.inr ?_), fun _ => ?_⟩
  · rw [view_publish]
    refine .publish r hstate ?_ hw.idle ?_
    · rw [hw.own.1]
      exact hw.fresh
    · rw [hw.own.2]
      exact hw.expected
  · show Published q (view _ q.app)
    rw [view_publish]
    refine ⟨?_, ?_, hrequest⟩
    · show some r.id = _
      rw [hw.own.1]
    · show q.releaseId ∈ _ ++ [r.id]
      rw [hw.own.1]
      simp

theorem orders_admission :
    Orders q.app (fun v => (q.releaseId ∉ v.heads ∧ HeadRead head v) ∧
        v.state q.releaseId = existing ∧
        ∀ r ∈ existing, r.id = q.releaseId ∧ r.requestDigest = q ∧
          v.request q.releaseId = some q)
      (admission q head existing) fun response v => Shown v q response := by
  refine Triple.bind (Q := fun _ => Of q.app _) orders_refuse fun _ => ?_
  refine Triple.bind (Q := fun _ => Of q.app (Fitting q head existing)) ?_ fun _ => ?_
  · refine orders_refuse.post (fun _ w hw => ?_) fun _ _ _ => trivial
    obtain ⟨⟨⟨⟨hfresh, hread⟩, hrecorded, hown⟩, hexpected⟩, hterminal⟩ := hw
    refine ⟨hfresh, hread.latest, fun r hr => ?_, ?_, hrecorded, hown⟩
    · have hover : r.phase.terminal = true := by
        rw [← Bool.not_eq_false]
        exact fun hfalse => hterminal ⟨r, hr, hfalse⟩
      exact ⟨hread.frozen r hr hover, hover⟩
    · rw [hread.latest]
      exact (Decidable.of_not_not hexpected).symm
  refine Triple.bind (Q := fun _ => Of q.app (Cleared q head existing)) orders_checkChange
    fun _ => ?_
  refine Triple.bind (Q := fun _ => Of q.app fun v => Cleared q head existing v ∧
    q.releaseId ∈ v.names) orders_makeRoom fun _ => ?_
  refine Triple.bind (Q := fun stored => Of q.app fun v =>
    (Cleared q head existing v ∧ q.releaseId ∈ v.names) ∧ v.request q.releaseId = stored) ?_
    fun stored => ?_
  · refine triple_load ?_ (fun _ _ => trivial) fun w _ hw => ⟨hw, rfl⟩
    refine stable_wrapper fun v v' hv hstep h => ⟨h.1.worker hv hstep, ?_⟩
    rw [hstep.kept.2.1]
    exact h.2
  refine Triple.bind (Q := fun _ => Of q.app (Stored q head existing))
    (orders_saveRequest stored) fun _ => ?_
  refine Triple.bind (Q := fun _ => Of q.app (Stored q head existing))
    (triple_clock stable_stored) fun now => ?_
  refine Triple.bind (Q := fun _ => Of q.app (Recorded q _)) (orders_record now) fun _ => ?_
  refine Triple.bind (Q := fun _ => Of q.app (Published q)) orders_publish fun _ => ?_
  refine Triple.bind (Q := fun _ => Of q.app (Published q)) ?_ fun _ => ?_
  · exact triple_tool (stable_wrapper fun _ _ _ hstep h => h.worker hstep) (fun _ => rfl)
      (fun _ _ _ => trivial) fun _ _ hw => hw
  refine Triple.bind (Q := fun release => Of q.app fun v => Published q v ∧ HeadRead release v)
    ?_ fun release => ?_
  · exact (triple_current fun _ _ _ hstep h => h.worker hstep).post (fun _ _ hw => hw)
      fun _ _ _ => trivial
  refine Triple.pure fun w hw => ?_
  obtain ⟨hpublished, hread⟩ := hw
  obtain ⟨r, hr, hid⟩ := Option.map_eq_some_iff.mp (hread.latest.symm.trans hpublished.head)
  refine ⟨r, hr, hid, ?_, hpublished.heads⟩
  have hdigest := hread.digest r hr
  rw [hid, hpublished.request] at hdigest
  exact (Option.some.inj hdigest).symm

/-! ## Mutations -/

/-- What a mutation may fail with: a request that had been admitted only if a file is not read. -/
abbrev Excused (admitted : Bool) (e : Fault) (_ : World Guest) : Prop :=
  admitted = true → e = ioError

theorem triple_admission (admitted : Bool) :
    Triple contract .wrapper (Of q.app fun v => (admitted = true → Admitted v q) ∧
        (q.releaseId ∉ v.heads ∧ HeadRead head v) ∧ v.state q.releaseId = existing ∧
        ∀ r ∈ existing, r.id = q.releaseId ∧ r.requestDigest = q ∧
          v.request q.releaseId = some q)
      (admission q head existing) (fun response => Of q.app fun v => Shown v q response)
      (Excused admitted) := by
  cases admitted with
  | true => exact fun w hw => (hw.2.1.1 (hw.1 rfl).head).elim
  | false =>
    exact (orders_admission.pre fun w hw => hw.2).post (fun _ _ hw => hw) fun _ _ _ h => by cases h

theorem triple_admitOrReturn (admitted : Bool) :
    Triple contract .wrapper (Of q.app fun v => (admitted = true → Admitted v q) ∧
        HeadRead head v ∧ ExistingRead q.releaseId existing v ∧
        ∀ r ∈ existing, r.requestDigest = q)
      (admitOrReturn q head existing) (fun response => Of q.app fun v => Shown v q response)
      (Excused admitted) := by
  unfold admitOrReturn
  split
  · next r =>
    split
    · next hover =>
      refine Triple.pure fun w hw => ?_
      obtain ⟨-, hread, ⟨hid, -, -, hmem⟩, hdigest⟩ := hw
      refine ⟨r, rfl, hid, hdigest r rfl, hmem.mpr ?_⟩
      rw [hread.latest, ← hid]
      exact hover
    · next hnot =>
      refine (triple_admission admitted).pre fun w hw => ?_
      obtain ⟨hadmitted, hread, ⟨hid, hrequest, hstate, hmem⟩, hdigest⟩ := hw
      have hfresh : q.releaseId ∉ (view w q.app).heads := by
        intro h
        have hover := hmem.mp h
        rw [hread.latest, ← hid] at hover
        exact hnot hover
      refine ⟨hadmitted, ⟨hfresh, hread⟩, hstate hfresh, ?_⟩
      rintro r' ⟨⟩
      have hq := hdigest r rfl
      rw [hq] at hrequest
      exact ⟨hid, hq, hrequest⟩
  · refine (triple_admission admitted).pre fun w hw => ?_
    obtain ⟨hadmitted, hread, ⟨hstate, hfresh⟩, -⟩ := hw
    refine ⟨hadmitted, ⟨hfresh, hread⟩, hstate, ?_⟩
    rintro r ⟨⟩

theorem Admitted.worker (h : Admitted v q) (hstep : ByWorker v v') : Admitted v' q :=
  ⟨by rw [hstep.kept.2.2.1]; exact h.head, by rw [hstep.kept.2.2.2]; exact h.request⟩

theorem triple_mutate (admitted : Bool) :
    Triple contract .wrapper (Of q.app fun v => admitted = true → Admitted v q) (mutate q)
      (fun response => Of q.app fun v => Shown v q response) (Excused admitted) := by
  refine Triple.bind (Q := fun head => Of q.app fun v => (admitted = true → Admitted v q) ∧
    HeadRead head v) ?_ fun head => ?_
  · exact (triple_current fun _ _ _ hstep h ha => (h ha).worker hstep).post (fun _ _ hw => hw)
      fun _ _ he _ => he
  refine Triple.bind (Q := fun existing => Of q.app fun v =>
    ((admitted = true → Admitted v q) ∧ HeadRead head v) ∧
      ExistingRead q.releaseId existing v) ?_ fun existing => ?_
  · refine (triple_existingRelease fun _ _ _ hstep h => ?_).post (fun _ _ hw => hw)
      fun _ _ he _ => he
    exact ⟨fun ha => (h.1 ha).worker hstep, h.2.worker hstep⟩
  refine Triple.bind (Q := fun _ => Of q.app fun v => (admitted = true → Admitted v q) ∧
    HeadRead head v ∧ ExistingRead q.releaseId existing v ∧
      ∀ r ∈ existing, r.requestDigest = q) ?_ fun _ => triple_admitOrReturn admitted
  refine Triple.ofExcept (fun _ hok w hw => ?_) fun e he w hw ha => ?_
  · refine ⟨hw.1.1, hw.1.2, hw.2, fun r hr => ?_⟩
    by_contra hne
    rw [refuse, if_pos ⟨r, hr, hne⟩] at hok
    cases hok
  · -- the release that is on record for an admitted request is the request's
    rw [refuse] at he
    split at he
    · next hother =>
      obtain ⟨r, hr, hne⟩ := hother
      obtain rfl := hr
      obtain ⟨-, hrequest, -⟩ := hw.2
      rw [(hw.1.1 ha).request] at hrequest
      exact (hne (Option.some.inj hrequest).symm).elim
    · cases he

theorem wasAdmitted_iff {w : World Guest} :
    wasAdmitted w.store q = true ↔ Admitted (view w q.app) q := by
  rw [wasAdmitted, Bool.and_eq_true, decide_eq_true_iff, decide_eq_true_iff]
  exact ⟨fun h => ⟨h.1, h.2⟩, fun h => ⟨h.1, h.2⟩⟩

/-- **A mutation gives one answer, and a true one.** -/
theorem safe_answered (w : World Guest) :
    Safe contract .wrapper (fun _ _ => True) (answered q) w := by
  refine Triple.safe (Q := fun _ _ => True) (E := fun _ _ => True) ?_ w
  refine Triple.bind (Q := fun admitted => Of q.app fun v => admitted = true → Admitted v q) ?_
    fun admitted => ?_
  · refine Triple.read (fun _ _ _ _ => trivial) (fun w => Does.refl _ w) fun w _ _ => ?_
    exact fun h => wasAdmitted_iff.mp h
  refine Triple.bind (Q := fun result => Of q.app fun v => Truthful v ⟨q, admitted, result⟩) ?_
    fun result => ?_
  · refine fun w hw => Safe.attempt (((triple_mutate admitted) w hw).mono fun r v hr => ?_)
    cases r with
    | ok response =>
      refine ⟨?_, ?_⟩
      · rintro _ ⟨⟩
        exact hr
      · rintro _ ⟨⟩
    | error e =>
      refine ⟨?_, ?_⟩
      · rintro _ ⟨⟩
      · rintro _ ⟨⟩ ha
        exact hr ha
  refine Triple.transact ?_ (fun _ _ _ _ _ _ => trivial) fun w hw _ env a s hs => ?_
  · exact stable_wrapper fun v v' _ hstep h => h.step (.inr hstep)
  · obtain ⟨-, rfl⟩ := Prod.mk.inj (Except.ok.inj hs)
    refine ⟨⟨fun _ => .inl rfl, fun a ha => ?_⟩, fun _ => trivial⟩
    rcases List.mem_append.mp ha with hold | hnew
    · exact .inl hold
    · rw [List.mem_singleton.mp hnew]
      exact .inr hw

theorem Orders.safe {P : View → Prop} {p : Job α} {Q : α → View → Prop}
    (h : Orders app P p Q) (hP : ∀ v, P v) (w : World Guest) :
    Safe contract .wrapper (fun _ _ => True) p w :=
  (h w (hP _)).mono fun _ _ _ => trivial

theorem safe_command (c : ComposeCommand) (w : World Guest) :
    Safe contract .wrapper (fun _ _ => True) (command c) w := by
  cases c with
  | mutate request => exact safe_answered w
  | inspect app =>
    exact Safe.ignore ((orders_look orders_inspect).safe (fun _ => trivial) w)
  | logs app service =>
    exact Safe.ignore ((orders_look (orders_logs service)).safe (fun _ => trivial) w)

end AgentCloud.Deployments
