/-
  WHAT A COMMAND READS: the head, and the release of its own request.

  The head and the heads belong to the commands, which run one at a time; the worker only moves the
  state of the head, and never once it is over.  So what a mutation has read stays true of the
  store: of the head, because a head that is not over is refused; of its own release, because a
  release that was never the head is nobody else's to change.

  `ExistingRead` decides between the two ends of a mutation: a release that was made the head is the
  head or over, and is returned; any other is fresh, and `Fitting` carries it to the write of the
  head.
-/
import AgentCloud.Deployments.Sharing

namespace AgentCloud.Deployments

open Checked Durable
open Compose (ComposeConfig)

variable {v v' : View} {w : World Guest} {app : AppName} {id : ReleaseId} {q : ComposeRequest}
  {head existing : Option ComposeRelease}

/-! ## What a command has read -/

theorem ViewValid.head_mem (hv : ViewValid v) (h : v.head = some id) : id ∈ v.heads := by
  have hlast := hv.head
  rw [h] at hlast
  exact List.mem_of_getLast? hlast.symm

/-- The worker changes the state of the head only. -/
theorem ByWorker.state_other (h : ByWorker v v') (hv : ViewValid v) (hid : id ∉ v.heads) :
    v'.state id = v.state id := by
  have hne : ∀ {other}, v.head = some other → id ≠ other := by
    rintro other hother rfl
    exact hid (hv.head_mem hother)
  cases h with
  | advance other r r' hhead state next same unfinished rendered =>
    exact Function.update_of_ne (hne hhead) _ _
  | success other r r' hhead state applying same phase =>
    exact Function.update_of_ne (hne hhead) _ _
  | render other r config hhead state phase => rfl
  | up other r hhead state phase new => rfl

/-- The head, as a command has read it. -/
structure HeadRead (head : Option ComposeRelease) (v : View) : Prop where
  latest : v.head = head.map (·.id)
  digest : ∀ r ∈ head, v.request r.id = some r.requestDigest
  frozen : ∀ r ∈ head, r.phase.terminal = true → v.state r.id = some r

theorem HeadRead.worker (h : HeadRead head v) (hstep : ByWorker v v') : HeadRead head v' where
  latest := hstep.kept.1.trans h.latest
  digest r hr := by
    rw [hstep.kept.2.2.2]
    exact h.digest r hr
  frozen r hr hterminal := Change.step.kept (.inr hstep) (h.frozen r hr hterminal) hterminal

/-- The release of a request, as a command has read it. -/
def ExistingRead (id : ReleaseId) (existing : Option ComposeRelease) (v : View) : Prop :=
  match existing with
  | none => v.state id = none ∧ id ∉ v.heads
  | some r => r.id = id ∧ v.request id = some r.requestDigest ∧
      (id ∉ v.heads → v.state id = some r) ∧
      (id ∈ v.heads ↔ v.head = some id ∨ r.phase.terminal = true)

theorem ExistingRead.worker (h : ExistingRead id existing v) (hv : ViewValid v)
    (hstep : ByWorker v v') : ExistingRead id existing v' := by
  obtain ⟨hhead, -, hheads, hrequest⟩ := hstep.kept
  cases existing with
  | none =>
    obtain ⟨hnone, hnot⟩ := h
    refine ⟨?_, by rwa [hheads]⟩
    rw [hstep.state_other hv hnot]
    exact hnone
  | some r =>
    obtain ⟨hid, hdigest, hstate, hover⟩ := h
    refine ⟨hid, by rwa [hrequest], fun hnot => ?_, by rwa [hheads, hhead]⟩
    rw [hheads] at hnot
    rw [hstep.state_other hv hnot]
    exact hstate hnot

theorem existingRead_none (hv : ViewValid v) (h : v.state id = none) :
    ExistingRead id none v := by
  refine ⟨h, fun hmem => ?_⟩
  have hrecorded := hv.recorded id hmem
  rw [h] at hrecorded
  cases hrecorded

theorem existingRead_some (hv : ViewValid v) {r : ComposeRelease} (h : v.state id = some r) :
    ExistingRead id (some r) v := by
  obtain ⟨hid, hdigest⟩ := hv.saved id r h
  refine ⟨hid, hdigest, fun _ => h, fun hmem => ?_, ?_⟩
  · by_cases hhead : v.head = some id
    · exact .inl hhead
    · obtain ⟨r', hr', hterminal⟩ := hv.ended id hmem hhead
      obtain rfl := Option.some.inj (hr'.symm.trans h)
      exact .inr hterminal
  · rintro (hhead | hterminal)
    · exact hv.head_mem hhead
    · -- a release that was never the head is queued
      by_contra hnot
      rw [hv.orphan id r h hnot] at hterminal
      cases hterminal

/-- A request that may be admitted, from its checks to the write of the head. -/
structure Fitting (q : ComposeRequest) (head existing : Option ComposeRelease) (v : View) :
    Prop where
  fresh : q.releaseId ∉ v.heads
  latest : v.head = head.map (·.id)
  ended : ∀ r ∈ head, v.state r.id = some r ∧ r.phase.terminal = true
  expected : q.expectedReleaseId = v.head
  recorded : v.state q.releaseId = existing
  own : ∀ r ∈ existing, r.id = q.releaseId ∧ r.requestDigest = q ∧
    v.request q.releaseId = some q

theorem Fitting.keep (h : Fitting q head existing v)
    (hheads : v'.head = v.head ∧ v'.heads = v.heads)
    (hstate : ∀ id, id ∉ v.heads → v'.state id = v.state id)
    (hover : ∀ id r, v.state id = some r → r.phase.terminal = true → v'.state id = some r)
    (hrequest : v.request q.releaseId = some q → v'.request q.releaseId = some q) :
    Fitting q head existing v' where
  fresh := by rw [hheads.2]; exact h.fresh
  latest := hheads.1.trans h.latest
  ended r hr := ⟨hover _ r (h.ended r hr).1 (h.ended r hr).2, (h.ended r hr).2⟩
  expected := by rw [hheads.1]; exact h.expected
  recorded := by rw [hstate _ h.fresh]; exact h.recorded
  own r hr := ⟨(h.own r hr).1, (h.own r hr).2.1, hrequest (h.own r hr).2.2⟩

theorem Fitting.worker (h : Fitting q head existing v) (hv : ViewValid v)
    (hstep : ByWorker v v') : Fitting q head existing v' :=
  h.keep ⟨hstep.kept.1, hstep.kept.2.2.1⟩ (fun _ hid => hstep.state_other hv hid)
    (fun _ _ hr hterminal => Change.step.kept (.inr hstep) hr hterminal)
    (fun hq => Change.step.request (.inr hstep) hq)

theorem Fitting.idle (h : Fitting q head existing v) : v.Idle := by
  intro id hid
  rw [h.latest] at hid
  obtain ⟨r, hr, rfl⟩ := Option.map_eq_some_iff.mp hid
  exact ⟨r, (h.ended r hr).1, (h.ended r hr).2⟩

/-- A release knows the last success before it: that of the head, or the head itself. -/
theorem latest_heads (hv : ViewValid v) {r : ComposeRelease} (hhead : v.head = some r.id)
    (hstate : v.state r.id = some r) :
    v.latest v.heads =
      if r.phase = .succeeded then some r.id else r.previousSuccessfulReleaseId := by
  obtain ⟨before, hbegin, -, hplace, -, hprevious⟩ := hv.previous r.id r hstate
  have hall : before ++ [r.id] = v.heads := by
    refine eq_of_prefix_of_getLast? hv.nodup (hplace (hv.head_mem hhead)) ?_
    rw [List.getLast?_concat, ← hv.head, hhead]
  rw [← hall, View.latest_concat, hstate, hprevious]
  simp

theorem Fitting.previous (h : Fitting q head existing v) (hv : ViewValid v) :
    previousSuccessful head = v.latest v.heads := by
  cases head with
  | none =>
    have hnil : v.heads = [] := by
      rw [← List.getLast?_eq_none_iff, ← hv.head]
      exact h.latest
    rw [hnil]
    rfl
  | some r => exact (latest_heads hv h.latest (h.ended r rfl).1).symm

/-! ## Reading -/

variable {k : Slot} {P : View → Prop}

theorem ioError_ne_missing : ioError ≠ missing := by
  intro h
  have := Fault.other.inj h
  exact absurd this (by decide)

theorem triple_readRelease {Q : ComposeRelease → World Guest → Prop}
    {E : Fault → World Guest → Prop} (hP : Stable contract k (Of app P))
    (herror : ∀ w, Of app P w → E ioError w)
    (hmissing : ∀ w, Valid w → Of app P w → (view w app).state id = none → E missing w)
    (hok : ∀ r w, Valid w → Of app P w → (view w app).state id = some r → Q r w) :
    Triple contract k (Of app P) (readRelease app id) Q E := by
  refine Triple.bind (Q := fun state w => (∀ r, state = some r → r.id = id ∧ Q r w) ∧
    (state = none → E missing w)) ?_ fun state => ?_
  · refine triple_load hP herror fun w hvalid hw => ⟨fun r hr => ?_, hmissing w hvalid hw⟩
    exact ⟨((hvalid.views app).saved id r hr).1, hok r w hvalid hw hr⟩
  cases state with
  | none =>
    refine Triple.bind (Q := fun _ _ => False) ?_ fun r w hw => hw.elim
    exact Triple.ofExcept (fun a ha => by cases ha) fun e he w hw => Except.error.inj he ▸ hw.2 rfl
  | some r =>
    refine Triple.bind (Q := fun r' w => r' = r ∧ r.id = id ∧ Q r w) ?_ fun r' => ?_
    · refine Triple.ofExcept (fun a ha w hw => ?_) fun e he => by cases he
      exact ⟨(Except.ok.inj ha).symm, hw.1 r rfl⟩
    · refine Triple.fact fun heq => Triple.fact fun hid => ?_
      subst heq
      refine Triple.bind (Q := fun _ => Q r') ?_ fun _ => Triple.pure fun _ hw => hw
      refine Triple.ofExcept (fun _ _ _ hw => hw) fun e he => ?_
      rw [refuse, if_neg (fun h => h hid)] at he
      cases he

/-- A fault that a command tells about what it has read. -/
abbrev Unread (e : Fault) (_ : World Guest) : Prop := e = ioError

theorem triple_current (hP : ∀ v v', ViewValid v → ByWorker v v' → P v → P v') :
    Triple contract .wrapper (Of app P) (current app)
      (fun head => Of app fun v => P v ∧ HeadRead head v) Unread := by
  refine Triple.bind (Q := fun head => Of app fun v => P v ∧ v.head = head) ?_ fun head => ?_
  · exact triple_load (stable_wrapper hP) (fun _ _ => rfl) fun w _ hw => ⟨hw, rfl⟩
  cases head with
  | none =>
    refine Triple.pure fun w hw => ⟨hw.1, hw.2, ?_, ?_⟩
    · rintro r ⟨⟩
    · rintro r ⟨⟩
  | some id =>
    refine Triple.bind (Q := fun r => Of app fun v => P v ∧ HeadRead (some r) v) ?_ fun r =>
      Triple.pure fun _ hw => hw
    refine triple_readRelease ?_ (fun _ _ => rfl) (fun w hvalid hw hnone => ?_)
      fun r w hvalid hw hr => ⟨hw.1, ?_⟩
    · exact stable_wrapper fun v v' hv hstep h =>
        ⟨hP v v' hv hstep h.1, hstep.kept.1.trans h.2⟩
    · have hv := hvalid.views app
      have hrecorded := hv.recorded id (hv.head_mem hw.2)
      rw [hnone] at hrecorded
      cases hrecorded
    · obtain ⟨hid, hdigest⟩ := (hvalid.views app).saved id r hr
      subst hid
      refine ⟨hw.2, ?_, ?_⟩
      · rintro r' ⟨⟩
        exact hdigest
      · rintro r' ⟨⟩ -
        exact hr

theorem triple_existingRelease (hP : ∀ v v', ViewValid v → ByWorker v v' → P v → P v') :
    Triple contract .wrapper (Of app P) (existingRelease app id)
      (fun existing => Of app fun v => P v ∧ ExistingRead id existing v) Unread := by
  refine Triple.handle (F := fun e w => e = ioError ∨
    (e = missing ∧ Of app (fun v => P v ∧ ExistingRead id none v) w)) ?_ fun e => ?_
  · refine Triple.bind (Q := fun r => Of app fun v => P v ∧ ExistingRead id (some r) v) ?_
      fun r => Triple.pure fun _ hw => hw
    refine triple_readRelease (stable_wrapper hP) (fun _ _ => .inl rfl)
      (fun w hvalid hw hnone => .inr ⟨rfl, hw, ?_⟩) fun r w hvalid hw hr => ⟨hw, ?_⟩
    · exact existingRead_none (hvalid.views app) hnone
    · exact existingRead_some (hvalid.views app) hr
  · by_cases he : e = missing
    · rw [if_pos he]
      refine Triple.pure fun w hw => ?_
      rcases hw with hio | ⟨-, hw⟩
      · exact (ioError_ne_missing (hio.symm.trans he)).elim
      · exact hw
    · rw [if_neg he]
      refine Triple.throw fun w hw => ?_
      rcases hw with hio | ⟨hmissing, -⟩
      · exact hio
      · exact (he hmissing).elim

/-! ## Inspections -/

variable {α : Type}

/-- A command that keeps to its changes, whatever it fails with. -/
abbrev Orders (app : AppName) (P : View → Prop) (p : Job α) (Q : α → View → Prop) : Prop :=
  Triple contract .wrapper (Of app P) p (fun a => Of app (Q a)) fun _ _ => True

/-- Nothing is known. -/
abbrev Nothing (_ : View) : Prop := True

theorem stable_nothing : Stable contract .wrapper (Of app Nothing) := fun _ _ _ _ => trivial

theorem orders_selected : Orders app Nothing (selected app id) fun _ => Nothing := by
  refine Triple.bind (Q := fun _ => Of app Nothing) ?_ fun _ => ?_
  · exact triple_save stable_nothing (fun _ _ => trivial) fun w _ _ =>
      ⟨Does.refl .wrapper w, fun _ => trivial⟩
  · refine Triple.bind (Q := fun _ => Of app Nothing) ?_ fun _ => Triple.pure fun _ _ => trivial
    exact triple_load stable_nothing (fun _ _ => trivial) fun _ _ _ => trivial

theorem orders_inspect (release : Option ComposeRelease) :
    Orders app Nothing (inspect app release) fun _ => Nothing := by
  cases release with
  | none => exact Triple.pure fun _ _ => trivial
  | some r =>
    refine Triple.bind (Q := fun _ => Of app Nothing) orders_selected fun file => ?_
    refine Triple.bind (Q := fun _ => Of app Nothing) ?_ fun _ => Triple.pure fun _ _ => trivial
    exact triple_tool stable_nothing (fun _ => rfl) (fun _ _ _ => trivial) fun _ _ _ => trivial

theorem orders_logs (service : Option String) (release : Option ComposeRelease) :
    Orders app Nothing (logs app service release) fun _ => Nothing := by
  cases release with
  | none => exact Triple.pure fun _ _ => trivial
  | some r =>
    refine Triple.bind (Q := fun _ => Of app Nothing) orders_selected fun file => ?_
    refine Triple.bind (Q := fun _ => Of app Nothing) ?_ fun _ => Triple.pure fun _ _ => trivial
    exact triple_tool stable_nothing (fun _ => rfl) (fun _ _ _ => trivial) fun _ _ _ => trivial

/-- An inspection reads the head and asks docker. -/
theorem orders_look {f : Option ComposeRelease → Job ComposeResponse}
    (h : ∀ release, Orders app Nothing (f release) fun _ => Nothing) :
    Orders app Nothing (do
      let release ← current app
      f release) fun _ => Nothing := by
  refine Triple.bind (Q := fun _ => Of app Nothing) ?_ fun release => h release
  exact (triple_current fun _ _ _ _ _ => trivial).post (fun _ _ _ => trivial) fun _ _ _ => trivial

end AgentCloud.Deployments
