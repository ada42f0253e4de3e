/-
  THE SOURCE OF A BACKUP: the walk of `source()` in `packages/guestctl/src/backups.ts`, from a
  release that succeeded back to the source it was applied from.

  A recovery or a promotion names the release it starts from, and that release had succeeded before
  the request was admitted (`ViewValid.ordered`).  So the walk goes down the list of successes, which
  has no repetitions and is no longer than the directory of releases, of which there are at most 128.
-/
import AgentCloud.Deployments.Protocol

namespace AgentCloud.Deployments

open Checked Durable
open Compose (ComposeConfig)

/-! ## The function -/

def cycle : Fault := .other "Captured release source ancestry has a cycle."

def tooDeep : Fault := .other "Captured release source ancestry is too deep."

def sourceDiffers : Fault := .other "Captured source request integrity differs."

/-- Where the walk ends: a release, its request, and the releases seen on the way. -/
structure Found where
  id : ReleaseId
  request : ComposeRequest
  seen : List ReleaseId

/-- The loop of `source`, with what is left of its depth. -/
def walk (files : AppFiles) (app : AppName) :
    Nat → List ReleaseId → ReleaseId → Except Fault Found
  | 0, _, _ => .error tooDeep
  | depth + 1, seen, id => do
    refuse (id ∈ seen) cycle
    let state ← present (files.releases id).state missing
    let request ← present (files.releases id).request missing
    refuse (state.id ≠ id ∨ state.phase ≠ .succeeded ∨ request.app ≠ app ∨
      request.releaseId ≠ id ∨ request ≠ state.requestDigest) sourceDiffers
    match request.change.origin? with
    | none => .ok ⟨id, request, seen ++ [id]⟩
    | some origin => walk files app depth (seen ++ [id]) origin

/-- What a capture takes of a deployment. -/
structure CaptureSource where
  request : ComposeRequest
  release : ComposeRelease
  sourceRoot : String
  config : ComposeConfig

/-- `source(recipe)`. -/
def source (files : AppFiles) (app : AppName) (releaseId : ReleaseId) :
    Except Fault CaptureSource := do
  let head ← present files.head missing
  refuse (head ≠ releaseId) (cloudError .versionConflict
    "Backup requires the exact current succeeded Compose release.")
  let release ← present (files.releases head).state missing
  refuse (release.id ≠ head ∨ release.phase ≠ .succeeded)
    (cloudError .resourceBusy "Backup requires a succeeded Compose release.")
  let runtime ← present (files.releases head).runtime missing
  refuse (some runtime ≠ release.configDigest)
    (.other "Captured runtime configuration integrity differs.")
  let found ← walk files app 128 [] head
  let config ← present (files.releases found.id).build missing
  pure ⟨found.request, release, sourcePath app found.id, config⟩

/-! ## Descents -/

/-- The releases from one down to the one whose source was applied. -/
inductive Descent (v : View) : ReleaseId → List ReleaseId → Prop where
  | applied (id : ReleaseId) (q : ComposeRequest) (request : v.request id = some q)
      (here : q.change.origin? = none) : Descent v id [id]
  | derived (id origin : ReleaseId) (q : ComposeRequest) (ids : List ReleaseId)
      (request : v.request id = some q) (step : q.change.origin? = some origin)
      (rest : Descent v origin ids) : Descent v id (id :: ids)

/-- A release recovers another. -/
def Recovers (v : View) (id origin : ReleaseId) : Prop :=
  ∃ q, v.request id = some q ∧ q.change = .recover origin

variable {v : View} {w : World Guest} {app : AppName} {id origin : ReleaseId}

/-- One round of the walk, at a release that succeeded. -/
theorem walk_succ (hv : ViewValid (view w app)) (hs : (view w app).Succeeded id) {depth : Nat}
    {seen : List ReleaseId} (hnew : id ∉ seen) :
    ∃ q, (view w app).request id = some q ∧
      (q.change.origin? = none →
        walk (w.store.apps app) app (depth + 1) seen id = .ok ⟨id, q, seen ++ [id]⟩) ∧
      ∀ origin, q.change.origin? = some origin →
        walk (w.store.apps app) app (depth + 1) seen id =
          walk (w.store.apps app) app depth (seen ++ [id]) origin := by
  obtain ⟨r, hr, hphase⟩ := hs
  obtain ⟨hid, hq⟩ := hv.saved id r hr
  refine ⟨r.requestDigest, hq, ?_⟩
  have hrequest := (hv.requested id _ hq).2.1
  have happ : r.requestDigest.app = app := hv.own id _ hq
  have hstate : ((w.store.apps app).releases id).state = some r := hr
  have hstored : ((w.store.apps app).releases id).request = some r.requestDigest := hq
  have hpass : ¬(r.id ≠ id ∨ r.phase ≠ .succeeded ∨ r.requestDigest.app ≠ app ∨
      r.requestDigest.releaseId ≠ id ∨ r.requestDigest ≠ r.requestDigest) := by
    simp [hid, hphase, happ, hrequest]
  refine ⟨fun h => ?_, fun origin h => ?_⟩
  · simp only [walk, hstate, hstored, present, Option.elim, refuse, if_neg hnew, bind, Except.bind]
    rw [if_neg hpass]
    simp only [h]
  · simp only [walk, hstate, hstored, present, Option.elim, refuse, if_neg hnew, bind, Except.bind]
    rw [if_neg hpass]
    simp only [h]

/-- **The walk from a release that succeeded ends at an apply.**  The releases before it in the list
    of successes bound the depth, and the walk sees nothing else. -/
theorem walk_ends (hv : ViewValid (view w app)) (depth : Nat) :
    ∀ {id : ReleaseId} {seen pre post : List ReleaseId},
      (view w app).succeeded = pre ++ id :: post → pre.length < depth →
      (∀ s ∈ seen, s ∉ pre ++ [id]) →
      ∃ found ids, walk (w.store.apps app) app depth seen id = .ok found ∧
        found.seen = seen ++ ids ∧ found.request.change.origin? = none ∧
        Descent (view w app) id ids ∧ ids ⊆ pre ++ [id] ∧ ids.Nodup := by
  induction depth with
  | zero => exact fun _ hdepth _ => absurd hdepth (Nat.not_lt_zero _)
  | succ depth ih =>
    intro id seen pre post hlist hdepth hseen
    have hs : (view w app).Succeeded id := (hv.succeeded id).mp (by rw [hlist]; simp)
    have hnew : id ∉ seen := fun h => hseen id h (by simp)
    obtain ⟨q, hq, happlied, hderived⟩ := @walk_succ w app id hv hs depth seen hnew
    cases horigin : q.change.origin? with
    | none =>
      refine ⟨_, [id], happlied horigin, rfl, horigin, .applied id q hq horigin, by simp, by simp⟩
    | some origin =>
      have hwalk := hderived origin horigin
      -- the origin is among the successes before this one
      have hmem : origin ∈ pre := hv.ordered pre id post hlist q hq origin horigin
      obtain ⟨front, back, rfl⟩ := List.append_of_mem hmem
      have hnodup := hv.once
      rw [hlist, List.append_assoc, List.cons_append] at hnodup
      have hdistinct : id ∉ front ++ [origin] := by
        intro h
        have hboth : id ∈ front ∨ id = origin := by simpa using h
        rw [List.nodup_append] at hnodup
        rcases hboth with hfront | rfl
        · exact hnodup.2.2 id hfront id (by simp) rfl
        · exact (List.nodup_cons.mp hnodup.2.1).1 (by simp)
      have hlower : ∀ s ∈ front ++ [origin], s ∈ front ++ origin :: back ++ [id] := by
        intro s hs'
        rcases List.mem_append.mp hs' with hfront | horiginal
        · exact List.mem_append_left _ (List.mem_append_left _ hfront)
        · rw [List.mem_singleton.mp horiginal]
          simp
      have hfresh : ∀ s ∈ seen ++ [id], s ∉ front ++ [origin] := by
        intro s hs'
        rcases List.mem_append.mp hs' with hs' | hs'
        · exact fun h => hseen s hs' (hlower s h)
        · rw [List.mem_singleton.mp hs']
          exact hdistinct
      obtain ⟨found, ids, hfound, hfoundSeen, happly, hdescent, hsub, hids⟩ :=
        @ih origin (seen ++ [id]) front (back ++ id :: post) (by rw [hlist]; simp)
          (by rw [List.length_append, List.length_cons] at hdepth; omega) hfresh
      refine ⟨found, id :: ids, hwalk.trans hfound, ?_, happly, .derived id origin q ids hq horigin
        hdescent, fun a ha => ?_, List.nodup_cons.mpr ⟨fun h => hdistinct (hsub h), hids⟩⟩
      · rw [hfoundSeen, List.append_assoc]
        rfl
      · rcases List.mem_cons.mp ha with rfl | ha
        · simp
        · exact hlower a (hsub ha)

/-- There are no more successes than names in the directory. -/
theorem succeeded_length (hv : ViewValid v) : v.succeeded.length ≤ 128 := by
  have hsub : v.succeeded ⊆ v.names := by
    intro id hid
    obtain ⟨r, hr, -⟩ := (hv.succeeded id).mp hid
    exact (hv.requested id _ (hv.saved id r hr).2).1
  exact Nat.le_trans (hv.once.length_le_of_subset hsub) hv.names.2

/-- A recovery runs the configuration of the release it recovers. -/
theorem recovers_runtime (hv : ViewValid v) (hs : v.Succeeded id) (h : Recovers v id origin) :
    v.Succeeded origin ∧ v.runtime origin = v.runtime id := by
  obtain ⟨r, hr, hphase⟩ := hs
  obtain ⟨q, hq, hchange⟩ := h
  obtain ⟨-, hruntime, horigin⟩ := hv.rendered id r hr (.inr hphase)
  rw [(hv.saved id r hr).2] at hq
  rw [← Option.some.inj hq] at hchange
  obtain ⟨other, hother, hotherPhase, hconfig⟩ := horigin origin hchange
  obtain ⟨-, hotherRuntime, -⟩ := hv.rendered origin other hother (.inr hotherPhase)
  exact ⟨⟨other, hother, hotherPhase⟩, by rw [hotherRuntime, hconfig, hruntime]⟩

/-! ## The ancestry of a release -/

/-- What the walk from a release finds, and what a chain of recoveries runs. -/
structure Ancestry (w : World Guest) (app : AppName) (id : ReleaseId) : Prop where
  /-- The walk ends at an apply, after at most 128 different releases, all of which succeeded. -/
  ends : ∃ found, walk (w.store.apps app) app 128 [] id = .ok found ∧
    found.request.change.origin? = none ∧ Descent (view w app) id found.seen ∧
    found.seen.length ≤ 128 ∧ found.seen.Nodup ∧ ∀ s ∈ found.seen, (view w app).Succeeded s
  /-- A chain of recoveries runs one configuration. -/
  recovers : ∀ origin, Relation.ReflTransGen (Recovers (view w app)) id origin →
    (view w app).runtime origin = (view w app).runtime id ∧ ((view w app).runtime id).isSome

theorem ancestry_of_succeeded (hv : ViewValid (view w app)) (hs : (view w app).Succeeded id) :
    Ancestry w app id := by
  have hmem : id ∈ (view w app).succeeded := (hv.succeeded id).mpr hs
  obtain ⟨pre, post, hlist⟩ := List.append_of_mem hmem
  have hlength := succeeded_length hv
  rw [hlist, List.length_append, List.length_cons] at hlength
  obtain ⟨found, ids, hwalk, hseen, happly, hdescent, hsub, hnodup⟩ :=
    @walk_ends w app hv 128 id [] pre post hlist (by omega) fun s h => by cases h
  rw [List.nil_append] at hseen
  subst hseen
  have hall : ∀ s ∈ found.seen, (view w app).Succeeded s := by
    intro s hmem'
    refine (hv.succeeded s).mp ?_
    rw [hlist]
    rcases List.mem_append.mp (hsub hmem') with hpre | hid
    · exact List.mem_append_left _ hpre
    · rw [List.mem_singleton.mp hid]
      simp
  refine ⟨⟨found, hwalk, happly, hdescent, ?_, hnodup, hall⟩, fun origin hchain => ?_⟩
  · have hcount := hnodup.length_le_of_subset hsub
    rw [List.length_append, List.length_singleton] at hcount
    omega
  · have hruns : (view w app).Succeeded origin ∧
        (view w app).runtime origin = (view w app).runtime id := by
      induction hchain with
      | refl => exact ⟨hs, rfl⟩
      | tail _ hstep ih =>
        obtain ⟨hnext, hsame⟩ := recovers_runtime hv ih.1 hstep
        exact ⟨hnext, hsame.trans ih.2⟩
    refine ⟨hruns.2, ?_⟩
    obtain ⟨r, hr, hphase⟩ := hs
    obtain ⟨hsome, hruntime, -⟩ := hv.rendered id r hr (.inr hphase)
    rw [hruntime]
    exact hsome

/-- Neither of the walk's own faults. -/
def Walked (fault : Fault) : Prop := fault ≠ cycle ∧ fault ≠ tooDeep

theorem walked_other {text : String} (h : text ≠ "Captured release source ancestry has a cycle." ∧
    text ≠ "Captured release source ancestry is too deep.") : Walked (.other text) :=
  ⟨fun heq => h.1 (Fault.other.inj heq), fun heq => h.2 (Fault.other.inj heq)⟩

theorem walked_cloud {failure : Failure} : Walked (.cloud failure) := by
  constructor
  · intro heq
    cases heq
  · intro heq
    cases heq

/-- The head has succeeded when the walk starts, so it never fails with one of its own faults. -/
theorem source_walked (hv : ViewValid (view w app)) (releaseId : ReleaseId) :
    Fails Walked (source (w.store.apps app) app releaseId) := by
  have hmissing : Walked missing := walked_other (by decide)
  refine Fails.then (.present hmissing) fun head _ => ?_
  refine Fails.then (.refuse walked_cloud) fun _ _ => ?_
  refine Fails.then (.present hmissing) fun release hrelease => ?_
  refine Fails.then (.refuse walked_cloud) fun _ hpass => ?_
  refine Fails.then (.present hmissing) fun runtime _ => ?_
  refine Fails.then (.refuse (walked_other (by decide))) fun _ _ => ?_
  have hphase : release.phase = .succeeded := by
    rw [refuse_ok_iff, not_or, Decidable.not_not, Decidable.not_not] at hpass
    exact hpass.2
  have hs : (view w app).Succeeded head := ⟨release, present_ok_iff.mp hrelease, hphase⟩
  obtain ⟨found, hfound, -⟩ := (ancestry_of_succeeded hv hs).ends
  refine Fails.then (.of_ok hfound) fun found _ => ?_
  exact Fails.then (.present hmissing) fun config _ => .pure

/-- **The ancestry of a backup's source**, in every store that commands, retries and worker passes
    lead to: from a release that succeeded the walk reaches an apply in at most 128 rounds, so a
    capture never fails with a cycle or with too deep an ancestry. -/
theorem source_ancestry (c : Durable.Config Guest Slot)
    (h : guest.Reach (Durable.Config.idle ⟨Store.fresh, []⟩) c) (app : AppName) :
    (∀ id, (view c.world app).Succeeded id → Ancestry c.world app id) ∧
      ∀ releaseId fault, source (c.world.store.apps app) app releaseId = .error fault →
        fault ≠ cycle ∧ fault ≠ tooDeep := by
  have hv := (guest_disciplined.inOrder fresh_inOrder h).1.views app
  exact ⟨fun id hs => ancestry_of_succeeded hv hs, fun releaseId => source_walked hv releaseId⟩

namespace Demo

/-- The recovered release, and the one it recovers. -/
theorem recovered_ancestry : Ancestry recovered shop "r2" ∧
    (walk (recovered.store.apps shop) shop 128 [] "r2").toOption.map (·.seen) =
      some ["r2", "r1"] := by
  refine ⟨(source_ancestry _ reach_recovered shop).1 "r2" ?_, ?_⟩
  · have hphase : ((view recovered shop).state "r2").map (·.phase) = some .succeeded := by
      decide +kernel
    obtain ⟨r, hr, hsucceeded⟩ := Option.map_eq_some_iff.mp hphase
    exact ⟨r, hr, hsucceeded⟩
  · decide +kernel

end Demo

end AgentCloud.Deployments
