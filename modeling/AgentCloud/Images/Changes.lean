/-
  THE CHANGES OF A BUILD: everything that any transaction does to the rows of one image build.

  Every commit of a worker, and every commit of somebody who does not hold the build's lock, is at
  most one of the changes below, each with what had been checked when it was written.  The workers
  are shown to make no other change (`Rules` and the modules after it); what every run keeps is shown
  change by change, without looking at a worker again.

  `Succeeds` is the rule of retries: the first attempt of its kind, or one after the last, which
  either failed or, being uncertain with nothing known to be running, is superseded by it.
-/
import AgentCloud.Images.Pins

namespace AgentCloud.Images

open Checked Durable

/-- Everything the outside was asked, oldest first. -/
abbrev Log := List (Exchange interface)

/-- The latest reply to a call. -/
def Latest (log : Log) (exchange : Exchange interface) : Prop :=
  ∃ before after, log = before ++ exchange :: after ∧ ∀ later ∈ after, later.call ≠ exchange.call

/-- The reply that an action is not known to the provider. -/
def missingAction (buildId : ImageBuildId) (actionId : String) (resource : ImageResourceRef) :
    Exchange interface :=
  ⟨.getAction buildId actionId resource, (.ok .missing : Except Fault ImageAction)⟩

/-- The local access keys of a build were removed. -/
def removedAccess (buildId : ImageBuildId) : Exchange interface :=
  ⟨.removeAccess buildId, (.ok () : Except Fault Unit)⟩

/-- Nothing definitive was heard of the effect, and no action of it is known to be running. -/
def Uncertain (log : Log) (buildId : ImageBuildId) (effect : Effect) : Prop :=
  effect.outcome.uncertain = true ∨
    ∃ resource actionId, effect.outcome.accepted? = some (resource, actionId) ∧
      Latest log (missingAction buildId actionId resource)

/-! ## Retries -/

/-- The effect as it is when another delegates to it. -/
def Effect.supersede (effect : Effect) (id : EffectId) : Effect :=
  { effect with resolution := .superseded id }

/-- The rows after a fresh attempt was inserted; `superseded` is the one it replaces. -/
def ImageBuild.prepared (build : ImageBuild) (new : Effect) (superseded : Option EffectId) :
    ImageBuild :=
  let inserted := { build with effects := build.effects ++ [new] }
  match superseded with
  | none => inserted
  | some id => { inserted with
      effects := Table.update Effect.id inserted.effects id fun effect => effect.supersede new.id }

/-- A fresh shutdown or deletion may follow the earlier ones of its target. -/
inductive Succeeds (log : Log) (build : ImageBuild) (command : ImageProviderCommand) :
    Option EffectId → Prop where
  | first (alone : (build.history (imageEffectKey command)).getLast? = none) :
      Succeeds log build command none
  | again (last : Effect) (here : (build.history (imageEffectKey command)).getLast? = some last)
      (same : last.command = command) (ended : last.resolution.failed? = true) :
      Succeeds log build command none
  | delegated (last : Effect)
      (here : (build.history (imageEffectKey command)).getLast? = some last)
      (same : last.command = command) (pending : last.resolution = .pending)
      (unsure : Uncertain log build.id last) : Succeeds log build command (some last.id)

/-! ## Elementary changes -/

/-- What somebody without the lock may do to a build. -/
structure Unlocked (old new : ImageBuild) : Prop where
  admission : new.admission = old.admission
  effects : new.effects = old.effects
  resources : new.resources = old.resources
  builderWork : new.builderWork = old.builderWork
  bootstrap : new.bootstrap = old.bootstrap
  identity : new.identity = old.identity
  result : new.result = old.result
  publication : new.publication = old.publication
  state : new.state = old.state ∨ (old.state.stage < 3 ∧ new.state.cleaning? = true)
  accessRemoved : old.accessRemovedAt.isSome → new.accessRemovedAt = old.accessRemovedAt
  runRequested : old.runRequestedAt.isSome → new.runRequestedAt = old.runRequestedAt

theorem Unlocked.refl (build : ImageBuild) : Unlocked build build :=
  ⟨rfl, rfl, rfl, rfl, rfl, rfl, rfl, rfl, .inl rfl, fun _ => rfl, fun _ => rfl⟩

theorem Unlocked.id {old new : ImageBuild} (h : Unlocked old new) : new.id = old.id := by
  rw [ImageBuild.id, h.admission, ImageBuild.id]

theorem stage_of_cleaning {state : ImageBuildState} (h : state.cleaning? = true) :
    state.stage = 3 := by
  cases state <;> simp_all [ImageBuildState.cleaning?, ImageBuildState.stage]

theorem Unlocked.trans {a b c : ImageBuild} (h : Unlocked a b) (h' : Unlocked b c) :
    Unlocked a c where
  admission := h'.admission.trans h.admission
  effects := h'.effects.trans h.effects
  resources := h'.resources.trans h.resources
  builderWork := h'.builderWork.trans h.builderWork
  bootstrap := h'.bootstrap.trans h.bootstrap
  identity := h'.identity.trans h.identity
  result := h'.result.trans h.result
  publication := h'.publication.trans h.publication
  state := by
    rcases h.state with hab | ⟨hstage, hab⟩
    · rw [← hab]
      exact h'.state
    · right
      refine ⟨hstage, ?_⟩
      rcases h'.state with hbc | ⟨hlate, -⟩
      · rw [hbc]; exact hab
      · rw [stage_of_cleaning hab] at hlate; omega
  accessRemoved ha := by
    have hb := h.accessRemoved ha
    rw [h'.accessRemoved (by rw [hb]; exact ha), hb]
  runRequested ha := by
    have hb := h.runRequested ha
    rw [h'.runRequested (by rw [hb]; exact ha), hb]

/-- A settled create has a resource on record wherever the provider named or showed one. -/
structure Recorded (build : ImageBuild) (effect : Effect) (resolution : ImageEffectResolution) :
    Prop where
  receipt : effect.command.isImageCreate = true → ∀ ref, effect.outcome.resource? = some ref →
    ∃ row ∈ build.resources, row.ref = ref ∧ row.effectId = effect.id
  confirmed : effect.command.isImageCreate = true → resolution.confirmed? = true →
    ∃ row ∈ build.resources, row.effectId = effect.id
  failed : effect.command.isImageCreate = true → resolution.failed? = true →
    effect.outcome.rejected = true ∨ effect.outcome.resource?.isSome = true

/-- A snapshot is looked at while it is being made or deleted, after its verification, and once the
    build no longer runs. -/
def ImageBuild.Watched (build : ImageBuild) : Prop :=
  build.state = .running → build.result = none → ∃ e ∈ build.effects, e.resolution = .pending ∧
    (e.command.isCreateSnapshot = true ∨ e.command.isDelete = true)

inductive Change (store : Store) (log : Log) : ImageBuild → ImageBuild → Prop where
  /-- An attempt is committed before it is submitted. -/
  | prepare {build : ImageBuild} (new : Effect) (superseded : Option EffectId)
      (fresh : ∀ other ∈ store.builds, other.effect new.id = none)
      (unkeyed : ∀ effect ∈ build.effects, effect.key ≠ new.key)
      (now : new.createdAt = store.clock)
      (base : new.key.base = imageEffectKey new.command)
      (guarded : guardImageBuildEffect store.clock build new = .ok ())
      (evidence : guardImageSnapshotEvidence build new = .ok ())
      (pins : guardSnapshotPins store build new = .ok ())
      (retry : new.command.isImageCreate = false →
        new.key.retry.isSome ∧ Succeeds log build new.command superseded)
      (create : new.command.isImageCreate = true → superseded = none) :
      Change store log build (build.prepared new superseded)
  | receipt {build : ImageBuild} (effect : Effect) (mem : effect ∈ build.effects)
      (here : effect.outcome = .prepared) (pending : effect.resolution = .pending)
      (isOpen : build.state.cleaned? = false)
      (submission : ImageSubmission) :
      Change store log build { build with
        effects := Table.update Effect.id build.effects effect.id fun row =>
          { row with outcome := .received submission } }
  | settle {build : ImageBuild} (effect : Effect) (mem : effect ∈ build.effects)
      (resolution : ImageEffectResolution)
      (pending : effect.resolution = .pending ∨ resolution = effect.resolution)
      (isOpen : build.state.cleaned? = false)
      (final : resolution.confirmed? = true ∨ resolution.failed? = true)
      (recorded : Recorded build effect resolution) :
      Change store log build { build with
        effects := Table.update Effect.id build.effects effect.id fun row =>
          { row with resolution := resolution } }
  | claim {build : ImageBuild} (row : Resource) (isOpen : build.state.cleaned? = false)
      (unclaimed : ∀ other ∈ store.builds, other.resource row.ref = none)
      (effect : Effect) (mem : effect ∈ build.effects) (owner : effect.id = row.effectId)
      (pending : effect.resolution = .pending)
      (role : effect.command.labels?.map ImageBuildLabels.role = some row.role)
      (kind : imageRoleKind row.role = row.ref.kind) (unverified : row.state = .unverified) :
      Change store log build { build with resources := build.resources ++ [row] }
  | observe {build : ImageBuild} (row : Resource) (mem : row ∈ build.resources)
      (isOpen : build.state.cleaned? = false) (state : ImageResourceState)
      (known : state ≠ .unverified) (final : row.live = false → state = row.state)
      (own : state ≠ row.state → ∀ seen, state.resource? = some seen → seen.ref = row.ref)
      (watched : row.ref.kind = .snapshot → build.Watched) :
      Change store log build { build with
        resources := Table.update Resource.ref build.resources row.ref fun other =>
          { other with state } }
  | work {build build' : ImageBuild} (effectId : EffectId) (serverId : String)
      (written : insertBuilderWork store.clock build effectId serverId = .ok build') :
      Change store log build build'
  | progress {build build' : ImageBuild} (next : ImageBuilderProgress)
      (written : updateBuilderWork store.clock build next = .ok build') :
      Change store log build build'
  | verification {build build' : ImageBuild} (date : Instant) (write : VerificationWrite)
      (written : write.apply store.clock date build = .ok build') :
      Change store log build build'
  /-- The evidence and the releasing state. -/
  | evidence {build inserted build' : ImageBuild} (evidence : ImageReleaseEvidence)
      (written : insertPublication store.clock build evidence = .ok inserted)
      (releasing : updateImageBuild store.clock inserted (fun row =>
        { row with state := .releasing }) = .ok build') : Change store log build build'
  /-- The release and the retained state. -/
  | release {build published build' : ImageBuild} (release : SignedImageRelease)
      (written : updatePublication store.clock build release = .ok published)
      (retained : updateImageBuild store.clock published (fun row =>
        { row with state := .retained release.payload.issuedAt }) = .ok build') :
      Change store log build build'
  | cleaned {build build' : ImageBuild} (date : Instant)
      (written : updateImageBuild store.clock build (fun row =>
        { row with state := .cleaned date }) = .ok build') : Change store log build build'
  | cleaning {build build' : ImageBuild} (reason : CleanupReason)
      (written : updateImageBuild store.clock build (fun row => row.requested reason) =
        .ok build') : Change store log build build'
  | runRequested {build build' : ImageBuild}
      (written : updateImageBuild store.clock build (fun row =>
        { row with runRequestedAt := some store.clock }) = .ok build') :
      Change store log build build'
  /-- The keys are gone before it is recorded. -/
  | accessRemoved {build build' : ImageBuild} (gone : removedAccess build.id ∈ log)
      (written : updateImageBuild store.clock build (fun row =>
        { row with accessRemovedAt := some store.clock }) = .ok build') :
      Change store log build build'

/-! ## What the table operations change -/

section Operations

variable {store : Store} {log : Log} {build build' : ImageBuild} {now : Instant}

theorem updateImageBuild_ok {f : ImageBuild → ImageBuild}
    (h : updateImageBuild now build f = .ok build') :
    guardImageBuild now build build' = .ok () ∧ guardImageWorkflow now build build' = .ok () ∧
      build' = f build := by
  simp only [updateImageBuild, bind_ok_iff, pure_ok_iff] at h
  obtain ⟨_, hguard, _, hworkflow, rfl⟩ := h
  exact ⟨hguard, hworkflow, rfl⟩

/-- A changed state is one that the guard lets through, with what it asks for. -/
theorem guardImageBuild_ok {old new : ImageBuild} (h : guardImageBuild now old new = .ok ()) :
    new.admission = old.admission ∧ (new.state = old.state ∨
      (old.mayBecome now new.state = true ∧
        (new.state.retained? = true →
          old.effects.any Effect.pending = false ∧ old.temporary = false) ∧
        (new.state.cleaned? = true →
          old.effects.any Effect.pending = false ∧ old.resources.any Resource.live = false))) := by
  simp only [guardImageBuild, bind_ok_iff, refuse_ok_iff, ne_eq, not_not] at h
  obtain ⟨_, hadmission, hstate⟩ := h
  refine ⟨hadmission, ?_⟩
  split at hstate
  · next hsame => exact .inl hsame
  · right
    simp only [bind_ok_iff, refuse_ok_iff, not_and, not_or, Bool.not_eq_true,
      Bool.not_eq_false] at hstate
    obtain ⟨_, hmay, _, hretained, hcleaned⟩ := hstate
    exact ⟨hmay, hretained, hcleaned⟩

theorem updateEffect_ok {id : EffectId} {f : Effect → Effect}
    (h : updateEffect build id f = .ok build') :
    (build.effect id = none ∧ build' = build) ∨
      ∃ old, build.effect id = some old ∧ guardEffectUpdate build old (f old) = .ok () ∧
        build' = { build with effects := Table.update Effect.id build.effects id f } := by
  unfold updateEffect at h
  split at h
  · next hnone => exact .inl ⟨hnone, (pure_ok_iff.mp h).symm⟩
  · next old hold =>
    simp only [bind_ok_iff, pure_ok_iff] at h
    obtain ⟨_, hguard, rfl⟩ := h
    exact .inr ⟨old, hold, hguard, rfl⟩

theorem updateResource_ok {ref : ImageResourceRef} {state : ImageResourceState}
    (h : updateResource build ref state = .ok build') :
    (build.resource ref = none ∧ build' = build) ∨
      ∃ old, build.resource ref = some old ∧ guardResourceUpdate build old state = .ok () ∧
        build' = { build with
          resources := Table.update Resource.ref build.resources ref fun row =>
            { row with state } } := by
  unfold updateResource at h
  split at h
  · next hnone => exact .inl ⟨hnone, (pure_ok_iff.mp h).symm⟩
  · next old hold =>
    simp only [bind_ok_iff, pure_ok_iff] at h
    obtain ⟨_, hguard, rfl⟩ := h
    exact .inr ⟨old, hold, hguard, rfl⟩

theorem insertBuilderWork_ok {effectId : EffectId} {serverId : String}
    (h : insertBuilderWork now build effectId serverId = .ok build') :
    build.builderWork = none ∧
      build' = { build with builderWork := some ⟨effectId, serverId, .installing⟩ } := by
  simp only [insertBuilderWork, bind_ok_iff, refuse_ok_iff, pure_ok_iff, Bool.not_eq_true,
    Option.isSome_eq_false_iff, Option.isNone_iff_eq_none] at h
  obtain ⟨_, hnone, _, -, _, -, _, -, rfl⟩ := h
  exact ⟨hnone, rfl⟩

theorem updateBuilderWork_ok {progress : ImageBuilderProgress}
    (h : updateBuilderWork now build progress = .ok build') :
    build' = build ∨ ∃ work, build.builderWork = some work ∧
      work.progress.mayBecome progress = true ∧
      build' = { build with builderWork := some { work with progress } } := by
  unfold updateBuilderWork at h
  split at h
  · exact .inl (pure_ok_iff.mp h).symm
  · next work hwork =>
    simp only [bind_ok_iff, refuse_ok_iff] at h
    obtain ⟨_, -, h⟩ := h
    split at h
    · exact .inl (pure_ok_iff.mp h).symm
    · simp only [bind_ok_iff, refuse_ok_iff, pure_ok_iff, Bool.not_eq_false] at h
      obtain ⟨_, hmay, _, -, _, -, rfl⟩ := h
      exact .inr ⟨work, hwork, hmay, rfl⟩

/-- What a verification write leaves alone. -/
structure SameButVerification (old new : ImageBuild) : Prop where
  admission : new.admission = old.admission
  state : new.state = old.state
  effects : new.effects = old.effects
  resources : new.resources = old.resources
  builderWork : new.builderWork = old.builderWork
  publication : new.publication = old.publication
  accessRemoved : new.accessRemovedAt = old.accessRemovedAt
  runRequested : new.runRequestedAt = old.runRequestedAt
  result : old.result.isSome → new.result = old.result

theorem SameButVerification.trans {a b c : ImageBuild} (h : SameButVerification a b)
    (h' : SameButVerification b c) : SameButVerification a c where
  admission := h'.admission.trans h.admission
  state := h'.state.trans h.state
  effects := h'.effects.trans h.effects
  resources := h'.resources.trans h.resources
  builderWork := h'.builderWork.trans h.builderWork
  publication := h'.publication.trans h.publication
  accessRemoved := h'.accessRemoved.trans h.accessRemoved
  runRequested := h'.runRequested.trans h.runRequested
  result ha := by
    have hb := h.result ha
    rw [h'.result (by rw [hb]; exact ha), hb]

theorem writeIdentity_ok {new : VerifierIdentity} (h : writeIdentity now build new = .ok build') :
    SameButVerification build build' := by
  simp only [writeIdentity, bind_ok_iff, refuse_ok_iff, present_ok_iff, pure_ok_iff] at h
  obtain ⟨_, -, _, -, _, -, _, -, rfl⟩ := h
  exact ⟨rfl, rfl, rfl, rfl, rfl, rfl, rfl, rfl, fun _ => rfl⟩

theorem consumeBootstrap_ok {date : Instant} (h : consumeBootstrap now build date = .ok build') :
    SameButVerification build build' := by
  simp only [consumeBootstrap, bind_ok_iff, refuse_ok_iff, present_ok_iff, pure_ok_iff] at h
  obtain ⟨_, -, _, -, _, -, rfl⟩ := h
  exact ⟨rfl, rfl, rfl, rfl, rfl, rfl, rfl, rfl, fun _ => rfl⟩

theorem VerificationWrite.apply_ok {date : Instant} {write : VerificationWrite}
    (h : write.apply now date build = .ok build') : SameButVerification build build' := by
  cases write with
  | bootstrap row =>
    simp only [VerificationWrite.apply, insertBootstrap, bind_ok_iff, refuse_ok_iff,
      pure_ok_iff] at h
    obtain ⟨_, -, _, -, _, -, rfl⟩ := h
    exact ⟨rfl, rfl, rfl, rfl, rfl, rfl, rfl, rfl, fun _ => rfl⟩
  | claim effectId serverId => exact writeIdentity_ok h
  | issue effectId serverId =>
    simp only [VerificationWrite.apply, bind_ok_iff] at h
    obtain ⟨issued, hissued, hconsumed⟩ := h
    exact (writeIdentity_ok hissued).trans (consumeBootstrap_ok hconsumed)
  | result row =>
    simp only [VerificationWrite.apply, insertResult, bind_ok_iff, refuse_ok_iff, present_ok_iff,
      pure_ok_iff, Bool.not_eq_true, Option.isSome_eq_false_iff, Option.isNone_iff_eq_none] at h
    obtain ⟨_, hnone, _, -, _, -, _, -, _, -, _, -, rfl⟩ := h
    refine ⟨rfl, rfl, rfl, rfl, rfl, rfl, rfl, rfl, fun hsome => ?_⟩
    rw [hnone] at hsome
    cases hsome

theorem insertPublication_ok {evidence : ImageReleaseEvidence}
    (h : insertPublication now build evidence = .ok build') :
    build.publication = none ∧ build.state = .running ∧ build.expired now = false ∧
      expectedEvidence build = some evidence ∧ build.effects.any Effect.pending = false ∧
      evidence.ordered ∧ build' = { build with publication := some ⟨evidence, none⟩ } := by
  simp only [insertPublication, guardPublication, bind_ok_iff, refuse_ok_iff, present_ok_iff,
    pure_ok_iff, not_or, not_not, ne_eq, Bool.not_eq_true, Option.isSome_eq_false_iff,
    Option.isNone_iff_eq_none] at h
  obtain ⟨_, hnone, _, ⟨-, hexpired⟩, _, hrunning, expected, hexpected, _, hidle, _,
    ⟨rfl, hordered⟩, rfl⟩ := h
  exact ⟨hnone, hrunning, hexpired, hexpected, hidle, hordered, rfl⟩

/-- What the signature of a release needs of the build. -/
structure Releasable (build : ImageBuild) (publication : Publication)
    (release : SignedImageRelease) : Prop where
  prepared : build.publication = some publication
  unsigned : publication.release = none
  releasing : build.state = .releasing
  evidence : release.payload.toImageReleaseEvidence = publication.evidence
  checked : publication.evidence.verifiedBoot.checkedAt ≤ release.payload.issuedAt
  idle : build.effects.any Effect.pending = false
  absent : build.temporary = false
  snapshot : build.snapshots.any (fun resource =>
    resource.ref.id = publication.evidence.snapshot.id &&
      resource.state.resource?.any (fun observed => observed.snapshot?.any fun snapshot =>
        snapshot.status = .available)) = true
  accessRemoved : build.accessRemovedAt ≠ none

theorem updatePublication_ok {release : SignedImageRelease}
    (h : updatePublication now build release = .ok build') :
    (build.publication = none ∧ build' = build) ∨
      ∃ publication, Releasable build publication release ∧
        build.expired now = false ∧ release.payload.issuedAt ≤ now ∧
        now < publication.evidence.retainUntil ∧
        build' = { build with publication := some { publication with release := some release } } := by
  unfold updatePublication at h
  split at h
  · next hnone => exact .inl ⟨hnone, (pure_ok_iff.mp h).symm⟩
  · next publication hpublication =>
    simp only [guardPublication, bind_ok_iff, refuse_ok_iff, pure_ok_iff, not_or, not_not, ne_eq,
      Bool.not_eq_true, Option.isSome_eq_false_iff, Option.isNone_iff_eq_none, Nat.not_lt,
      Nat.not_le, Bool.not_eq_false] at h
    obtain ⟨_, ⟨-, hexpired⟩, _, ⟨hunsigned, hreleasing⟩, _, ⟨hevidence, hchecked, hissued,
      hretain, hidle, habsent, hsnapshot⟩, _, haccess, rfl⟩ := h
    exact .inr ⟨publication, ⟨hpublication, hunsigned, hreleasing, hevidence, hchecked, hidle,
      habsent, hsnapshot, haccess⟩, hexpired, hissued, hretain, rfl⟩

end Operations

end AgentCloud.Images
