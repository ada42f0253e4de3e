/-
  THE TRIGGERS OF THE IMAGE TABLES, and the rows they read.

  Migrations 0009 to 0016 guard every image table below the workers.  Each guard is a check on the
  row before and the row after, read with the database as it is at the write; a write of the model is
  the table operation behind its guard.  A refusal is an exception of the driver, not a `CloudError`.

  Customers stand beside the builds: a pin (`allocation_images`) binds the create operation of one
  allocation to the snapshot of one release, and the journal of that allocation decides whether the
  snapshot is still in use.
-/
import AgentCloud.Images.Records
import AgentCloud.Lifecycle.Guards

namespace AgentCloud.Images

open Checked
open Lifecycle (raised Journal Attempt matchesLabels)

/-! ## The database -/

/-- A row of `allocation_images`. -/
structure AllocationImage where
  allocationId : AllocationId
  accountId : AccountId
  operationId : OperationId
  buildId : ImageBuildId
  snapshotId : String
  deriving DecidableEq, Repr

structure Store where
  /-- `clock_timestamp()` of the database. -/
  clock : Instant
  builds : List ImageBuild
  pins : List AllocationImage
  /-- The journals of the customers' allocations, one each. -/
  customers : List Journal

namespace Store

def build (store : Store) (id : ImageBuildId) : Option ImageBuild :=
  Table.get ImageBuild.id store.builds id

def customer (store : Store) (id : AllocationId) : Option Journal :=
  Table.get (fun journal => journal.allocation.id) store.customers id

/-- `UPDATE ... WHERE build_id = id` of whatever table. -/
def updateBuild (store : Store) (id : ImageBuildId) (f : ImageBuild → ImageBuild) : Store :=
  { store with builds := Table.update ImageBuild.id store.builds id f }

/-- The rows of one build, rewritten. -/
def putBuild (store : Store) (build : ImageBuild) : Store :=
  store.updateBuild build.id fun _ => build

end Store

/-! ## Pins -/

/-- The create of a pin is confirmed: its server carries the pin's allocation and operation. -/
def AllocationImage.confirmedBy (pin : AllocationImage) (attempt : Attempt) : Bool :=
  decide (attempt.operationId = pin.operationId) &&
    (match attempt.command, attempt.resolution with
    | .createGuest _ _ bootstrap, .confirmed (.server server) =>
      decide (bootstrap = pin.allocationId ∧
        server.labels.lookup "allocation_id" = some pin.allocationId ∧
        server.labels.lookup "operation_id" = some pin.operationId)
    | _, _ => false)

/-- The pin no longer needs its snapshot. -/
def AllocationImage.released (pin : AllocationImage) (journal : Journal) : Bool :=
  journal.attempts.any pin.confirmedBy ||
    (journal.allocation.retiredAt.isSome &&
      !(journal.attempts.any fun attempt =>
        decide (attempt.operationId = pin.operationId) && attempt.pending) &&
      !(journal.resources.any fun resource => resource.live))

/-- `image_snapshot_in_use`. -/
def imageSnapshotInUse (store : Store) (buildId : ImageBuildId) : Bool :=
  store.pins.any fun pin => decide (pin.buildId = buildId) &&
    (store.customer pin.allocationId).any fun journal =>
      decide (journal.machine.accountId = pin.accountId) && !pin.released journal

/-! ## Builds -/

/-- The changes of state that `guard_image_build` lets through. -/
def ImageBuild.mayBecome (now : Instant) (build : ImageBuild) : ImageBuildState → Bool
  | .running => false
  | .releasing => decide (build.state = .running ∧ now < build.admission.deadlineAt) &&
      build.publication.any fun publication => publication.release.isNone
  | .retained since => decide (build.state = .releasing) &&
      build.publication.any fun publication => publication.release.any fun release =>
        decide (release.payload.issuedAt = since)
  | .cleaning _ => decide (build.state.stage < 3)
  | .cleaned _ => build.state.cleaning?

/-- Some resource that is not a snapshot is not recorded absent. -/
def ImageBuild.temporary (build : ImageBuild) : Bool :=
  build.resources.any fun resource => decide (resource.role ≠ .snapshot) && resource.live

/-- `guard_image_build`. -/
def guardImageBuild (now : Instant) (old new : ImageBuild) : Except Fault Unit := do
  refuse (new.admission ≠ old.admission) (raised "Image build admission is immutable")
  if new.state = old.state then pure () else do
    refuse (old.mayBecome now new.state = false)
      (raised "Image build publication and cleanup only move forward")
    refuse (new.state.retained? = true ∧ (old.effects.any Effect.pending = true ∨
        old.temporary = true))
      (raised "Image retention requires complete temporary cleanup")
    refuse (new.state.cleaned? = true ∧ (old.effects.any Effect.pending = true ∨
        old.resources.any Resource.live = true))
      (raised "Image cleanup requires resolved effects and absent resources")

/-- `guard_image_workflow`. -/
def guardImageWorkflow (now : Instant) (old new : ImageBuild) : Except Fault Unit := do
  refuse (new.runRequestedAt ≠ old.runRequestedAt ∧ (old.runRequestedAt.isSome ∨
      new.runRequestedAt.all (fun time => decide (now < time)) = true ∨ new.state ≠ .running ∨
      new.admission.deadlineAt ≤ now))
    (raised "Image run request is immutable and requires an active admission")
  refuse (new.accessRemovedAt ≠ old.accessRemovedAt ∧ (old.accessRemovedAt.isSome ∨
      new.accessRemovedAt.all (fun time => decide (now < time)) = true ∨ new.state = .running ∨
      old.temporary = true ∨ old.effects.any Effect.pending = true))
    (raised "Image access cleanup requires resolved temporary resource absence")

/-- `UPDATE image_builds SET ... WHERE id = ...`. -/
def updateImageBuild (now : Instant) (build : ImageBuild) (f : ImageBuild → ImageBuild) :
    Except Fault ImageBuild := do
  guardImageBuild now build (f build)
  guardImageWorkflow now build (f build)
  pure (f build)

/-! ## Effects -/

/-- `guard_image_build_effect` of a create. -/
def guardCreate (build : ImageBuild) (new : Effect) : Except Fault Unit :=
  match new.command.labels? with
  | none => pure ()
  | some labels => do
    refuse (new.command.creates? ≠ some (imageRoleKind labels.role) ∨
        new.key ≠ ⟨.create labels.role, none⟩ ∨ labels.buildId ≠ build.id)
      (raised "Image create labels and role must match the build")
    refuse (build.effects.any Effect.pending = true)
      (raised "Reconcile image effects before another create")

/-- `guard_image_build_effect` of a deletion. -/
def guardDelete (build : ImageBuild) (new : Effect) : Except Fault Unit :=
  match new.command with
  | .delete resource => do
    refuse (build.state ≠ .releasing ∧ build.state.cleaning? = false)
      (raised "Image deletion requires a cleanup request")
    refuse (build.state = .releasing ∧ resource.kind = .snapshot)
      (raised "Retained cleanup cannot delete its snapshot")
    refuse ((build.resource resource).any Resource.live = false)
      (raised "Image deletion needs a recorded owned resource")
  | _ => pure ()

/-- `guard_image_build_effect` of an insert. -/
def guardImageBuildEffect (now : Instant) (build : ImageBuild) (new : Effect) :
    Except Fault Unit := do
  refuse (build.state.cleaned? = true) (raised "Image effects require an open build")
  refuse (new.outcome ≠ .prepared ∨ new.resolution ≠ .pending)
    (raised "Image effects start prepared and unresolved")
  refuse (new.command.isDelete = false ∧ (build.state ≠ .running ∨ build.expired now = true))
    (raised "Expired or cleaning image builds cannot start new work")
  guardCreate build new
  guardDelete build new

/-- A confirmed shutdown of a server, with a sanitation receipt. -/
def Effect.stopped (effect : Effect) (serverId : String) (sanitation : Sanitation) : Bool :=
  decide (effect.command = .powerOff serverId sanitation) && effect.resolution.confirmed?

/-- `guard_image_snapshot_evidence`. -/
def guardImageSnapshotEvidence (build : ImageBuild) (new : Effect) : Except Fault Unit :=
  let refusal := raised "Image stop and snapshot require persisted sanitation evidence"
  match new.command with
  | .powerOff serverId sanitation => do
    let work ← present build.builderWork refusal
    refuse (work.progress.sanitation? ≠ some sanitation ∨ work.serverId ≠ serverId) refusal
  | .createSnapshot _ _ serverId => do
    let work ← present build.builderWork refusal
    let sanitation ← present work.progress.sanitation? refusal
    refuse (work.serverId ≠ serverId ∨
      build.effects.any (fun effect => effect.stopped serverId sanitation) = false) refusal
  | _ => pure ()

/-- `guard_image_verifier_effect`. -/
def guardImageVerifierEffect (now : Instant) (build : ImageBuild) (new : Effect) :
    Except Fault Unit :=
  let refusal := raised "Verifier effect requires exact prepared bootstrap"
  match new.command with
  | .createServer _ labels intent =>
    if labels.role = .verifier then do
      let bootstrap ← present build.bootstrap refusal
      refuse (bootstrap.consumedAt.isSome ∨ bootstrap.expiresAt ≤ now ∨
          intent.imageId ≠ bootstrap.snapshotId ∨
          intent.bootData ≠ .imageVerifierSecret build.id build.admission.source.manifestDigest)
        refusal
    else pure ()
  | _ => pure ()

/-- `guard_snapshot_pins`. -/
def guardSnapshotPins (store : Store) (build : ImageBuild) (new : Effect) : Except Fault Unit :=
  match new.command with
  | .delete resource =>
    refuse (resource.kind = .snapshot ∧ imageSnapshotInUse store build.id = true)
      (raised "Snapshot is pinned by an unsettled customer create")
  | _ => pure ()

/-- `INSERT INTO image_build_effects`, with its keys. -/
def insertEffect (store : Store) (build : ImageBuild) (new : Effect) : Except Fault ImageBuild := do
  refuse (store.builds.any (fun other => (other.effect new.id).isSome) = true ∨
      build.effects.any (fun effect => effect.key = new.key) = true)
    (raised "duplicate key value violates unique constraint")
  guardImageBuildEffect store.clock build new
  guardImageSnapshotEvidence build new
  guardImageVerifierEffect store.clock build new
  guardSnapshotPins store build new
  pure { build with effects := build.effects ++ [new] }

/-- `guard_image_build_effect` of an update. -/
def guardEffectUpdate (build : ImageBuild) (old new : Effect) : Except Fault Unit := do
  refuse (build.state.cleaned? = true) (raised "Image effects require an open build")
  refuse ({ new with outcome := old.outcome, resolution := old.resolution } ≠ old)
    (raised "Image effect identity and command are immutable")
  refuse (new.outcome ≠ old.outcome ∧ (old.outcome ≠ .prepared ∨ new.outcome = .prepared))
    (raised "Image provider receipts are immutable")
  refuse (new.resolution ≠ old.resolution ∧ old.resolution ≠ .pending)
    (raised "Image resolutions are immutable")
  match new.resolution with
  | .superseded byEffectId =>
    refuse (new.resolution ≠ old.resolution ∧ (new.command.isImageCreate = true ∨
        old.outcome.supersedable = false ∨
        ¬ build.effects.any fun replacement => replacement.id = byEffectId &&
          replacement.id ≠ new.id && replacement.command = new.command &&
          replacement.outcome = .prepared && replacement.resolution = .pending))
      (raised "Only uncertain exact-ID effects may delegate to a prepared identical retry")
  | _ => pure ()

/-- `UPDATE image_build_effects SET ... WHERE id = ...`. -/
def updateEffect (build : ImageBuild) (id : EffectId) (f : Effect → Effect) :
    Except Fault ImageBuild :=
  match build.effect id with
  | none => pure build
  | some old => do
    guardEffectUpdate build old (f old)
    pure { build with effects := Table.update Effect.id build.effects id f }

/-! ## Resources -/

/-- `guard_image_build_resource` of an insert. -/
def guardImageBuildResource (build : ImageBuild) (new : Resource) : Except Fault Unit := do
  refuse (build.state.cleaned? = true) (raised "Resource observations require an open build")
  let effect ← present (build.effect new.effectId)
    (raised "Image resource must belong to its recorded create intent")
  refuse (imageRoleKind new.role ≠ new.ref.kind ∨
      effect.command.labels?.map ImageBuildLabels.role ≠ some new.role ∨ new.state ≠ .unverified)
    (raised "Image resource must belong to its recorded create intent")

/-- Some build has a row for the resource. -/
def Store.claimed (store : Store) (ref : ImageResourceRef) : Bool :=
  store.builds.any fun build => (build.resource ref).isSome

/-- `INSERT INTO image_build_resources ... ON CONFLICT DO NOTHING`; `foreign` are the rows of
    `provider_resources`. -/
def insertResource (store : Store) (foreign : ImageResourceRef → Bool) (build : ImageBuild)
    (new : Resource) : Except Fault ImageBuild := do
  guardImageBuildResource build new
  refuse (foreign new.ref = true)
    (raised "Customer provider resources cannot belong to image builds")
  if store.claimed new.ref then pure build
  else pure { build with resources := build.resources ++ [new] }

/-- `guard_image_build_resource` of an update. -/
def guardResourceUpdate (build : ImageBuild) (old : Resource) (state : ImageResourceState) :
    Except Fault Unit := do
  refuse (build.state.cleaned? = true) (raised "Resource observations require an open build")
  if state = old.state then pure () else do
    refuse (old.state.absent? = true ∨ state = .unverified)
      (raised "Absent image resources cannot reappear")
    match state with
    | .observed resource _ =>
      refuse (resource.ref ≠ old.ref ∨ matchesLabels resource.labels
          (imageEffectLabels build.id old.role old.effectId) = false)
        (raised "Image observations must match recorded ownership")
    | _ => pure ()

/-- `UPDATE image_build_resources SET state = ...` of one resource. -/
def updateResource (build : ImageBuild) (ref : ImageResourceRef) (state : ImageResourceState) :
    Except Fault ImageBuild :=
  match build.resource ref with
  | none => pure build
  | some old => do
    guardResourceUpdate build old state
    pure { build with
      resources := Table.update Resource.ref build.resources ref fun row => { row with state } }

/-! ## Builder work -/

/-- `guard_image_builder_work`: an active admission with nothing in flight. -/
def guardFreshWork (now : Instant) (build : ImageBuild) : Except Fault Unit :=
  refuse (build.state ≠ .running ∨ build.expired now = true ∨
      build.effects.any Effect.pending = true)
    (raised "Fresh builder execution needs active admission and resolved effects")

/-- `INSERT INTO image_builder_work`. -/
def insertBuilderWork (now : Instant) (build : ImageBuild) (effectId : EffectId)
    (serverId : String) : Except Fault ImageBuild := do
  refuse (build.builderWork.isSome) (raised "duplicate key value violates unique constraint")
  refuse (build.state.cleaned? = true) (raised "Builder execution requires an open build")
  refuse ((build.effect effectId).any (fun effect => effect.command.isCreateServer &&
        effect.command.labels?.any (fun labels => labels.role = .builder) &&
        effect.resolution.confirmed?) = false ∨
      (build.resource ⟨.server, serverId⟩).any (fun resource => resource.role = .builder &&
        resource.effectId = effectId && resource.state.resource?.isSome) = false)
    (raised "Builder execution needs its confirmed owned server")
  guardFreshWork now build
  pure { build with builderWork := some ⟨effectId, serverId, .installing⟩ }

/-- The installation that a phase carries. -/
def ImageBuilderProgress.installation? : ImageBuilderProgress → Option Installation
  | .installing => none
  | .installed installation => some installation
  | .sanitizing installation => some installation
  | .sanitized installation _ => some installation

/-- The next phase of the builder. -/
def ImageBuilderProgress.mayBecome : ImageBuilderProgress → ImageBuilderProgress → Bool
  | .installing, .installed _ => true
  | .installed old, .sanitizing new => decide (new = old)
  | .sanitizing old, .sanitized new _ => decide (new = old)
  | _, _ => false

/-- The phases that begin fresh work on the guest. -/
def guardSanitizing (now : Instant) (build : ImageBuild) :
    ImageBuilderProgress → Except Fault Unit
  | .sanitizing _ => guardFreshWork now build
  | _ => pure ()

/-- `guard_image_builder_work` of an update. -/
def updateBuilderWork (now : Instant) (build : ImageBuild) (progress : ImageBuilderProgress) :
    Except Fault ImageBuild :=
  match build.builderWork with
  | none => pure build
  | some work => do
    refuse (build.state.cleaned? = true) (raised "Builder execution requires an open build")
    if progress = work.progress then pure build else do
      refuse (work.progress.mayBecome progress = false)
        (raised "Builder execution only moves forward")
      guardSanitizing now build progress
      refuse (progress.installation?.any (fun installation =>
            decide (installation.builderId = build.id ∧
              installation.manifestDigest = build.admission.source.manifestDigest)) = false ∨
          progress.sanitation?.all (fun sanitation =>
            decide (sanitation = ⟨build.id, build.admission.source.manifestDigest⟩)) = false)
        (raised "Builder execution evidence has unexpected fields or types")
      pure { build with builderWork := some { work with progress } }

/-! ## Verification -/

/-- `require_active_image_verifier`, and `requireActiveImageBuild` of the workers. -/
def ImageBuild.active (build : ImageBuild) (now : Instant) : Bool :=
  decide (build.state = .running) && !build.expired now

/-- `guard_image_verifier_bootstrap` of an insert. -/
def insertBootstrap (now : Instant) (build : ImageBuild) (new : VerifierBootstrap) :
    Except Fault ImageBuild := do
  refuse (build.bootstrap.isSome) (raised "duplicate key value violates unique constraint")
  refuse (build.active now = false) (raised "Image verifier requires active admission")
  refuse (new.consumedAt.isSome ∨ new.expiresAt ≤ now ∨ now + 30 * 60000 < new.expiresAt ∨
      build.admission.deadlineAt < new.expiresAt ∨
      build.resources.any (fun resource => resource.ref = ⟨.snapshot, new.snapshotId⟩ &&
        resource.role = .snapshot && build.confirmed resource.effectId &&
        resource.state.resource?.any (fun observed => observed.snapshot?.any fun snapshot =>
          snapshot.status = .available && build.builderWork.any fun work =>
            work.progress.sanitation?.isSome && snapshot.sourceServerId = some work.serverId))
        = false)
    (raised "Verifier bootstrap requires exact owned snapshot and bounded encrypted intent")
  pure { build with bootstrap := some new }

/-- The verifier's own confirmed server, booted from the prepared snapshot. -/
def ImageBuild.verifierServer (build : ImageBuild) (bootstrap : VerifierBootstrap)
    (identity : VerifierIdentity) : Bool :=
  (build.effect identity.effectId).any (fun effect => effect.resolution.confirmed? &&
    (match effect.command with
    | .createServer _ labels intent => decide (labels.role = .verifier ∧
        intent.imageId = bootstrap.snapshotId ∧
        intent.bootData = .imageVerifierSecret build.id build.admission.source.manifestDigest)
    | _ => false)) &&
  (build.resource ⟨.server, identity.serverId⟩).any fun resource =>
    resource.role = .verifier && resource.effectId = identity.effectId &&
      resource.state.resource?.isSome

/-- `guard_image_verifier_identity_owner`, with the shape guard: claimed, then issued. -/
def writeIdentity (now : Instant) (build : ImageBuild) (new : VerifierIdentity) :
    Except Fault ImageBuild := do
  refuse (build.active now = false) (raised "Image verifier requires active admission")
  let bootstrap ← present build.bootstrap
    (raised "Verifier identity requires its confirmed owned boot and active bootstrap")
  refuse (bootstrap.consumedAt.isSome ∨ bootstrap.expiresAt ≤ now ∨
      build.verifierServer bootstrap new = false)
    (raised "Verifier identity requires its confirmed owned boot and active bootstrap")
  refuse (build.identity ≠ if new.issued then some { new with issued := false } else none)
    (raised "Guest identity only moves forward")
  pure { build with identity := some new }

/-- `guard_image_verifier_bootstrap` of an update. -/
def consumeBootstrap (now : Instant) (build : ImageBuild) (consumedAt : Instant) :
    Except Fault ImageBuild := do
  refuse (build.active now = false) (raised "Image verifier requires active admission")
  let bootstrap ← present build.bootstrap
    (raised "Verifier bootstrap is immutable and consumed only with issued identity")
  refuse (bootstrap.consumedAt.isSome ∨
      build.identity.any (fun identity => identity.issued) = false)
    (raised "Verifier bootstrap is immutable and consumed only with issued identity")
  pure { build with bootstrap := some { bootstrap with consumedAt := some consumedAt } }

/-- `guard_image_verifier_result`: a distinct boot of the prepared snapshot, checked just now. -/
def insertResult (now : Instant) (build : ImageBuild) (new : VerificationResult) :
    Except Fault ImageBuild := do
  let refusal := raised "Verifier result requires fresh distinct boot, pinned image and healthy runtime"
  refuse (build.result.isSome) (raised "duplicate key value violates unique constraint")
  refuse (build.active now = false) (raised "Image verifier requires active admission")
  let bootstrap ← present build.bootstrap refusal
  let identity ← present build.identity refusal
  let work ← present build.builderWork refusal
  refuse (identity.issued = false ∨ bootstrap.consumedAt = none ∨
      work.progress.sanitation? = none ∨ identity.serverId = work.serverId ∨
      new.serverId ≠ identity.serverId ∨ new.effectId ≠ identity.effectId ∨
      new.snapshotId ≠ bootstrap.snapshotId ∨
      new.manifestDigest ≠ build.admission.source.manifestDigest ∨
      work.progress.installation?.any (fun installation =>
        installation.machineId = new.machineId) = true ∨
      new.verifiedAt + 30000 < now ∨ now + 30000 < new.verifiedAt) refusal
  pure { build with result := some new }

/-! ## Publications -/

/-- `retention.deleteAfter` of a retained admission. -/
def Retention.deleteAfter? : Retention → Option Instant
  | .retain deleteAfter => some deleteAfter
  | .verificationOnly => none

/-- The snapshot rows of the build. -/
def ImageBuild.snapshots (build : ImageBuild) : List Resource :=
  build.resources.filter fun resource => resource.role = .snapshot

/-- The snapshot row, where there is exactly one. -/
def ImageBuild.snapshot? (build : ImageBuild) : Option Resource :=
  if build.snapshots.length = 1 then build.snapshots.head? else none

/-- When an effect was confirmed to have stopped a server. -/
def Effect.stoppedAt (effect : Effect) (serverId : String) : Option Instant :=
  match effect.resolution with
  | .confirmed time => if effect.command.stops? = some serverId then some time else none
  | _ => none

/-- The confirmed shutdown of a server, and when it was confirmed. -/
def ImageBuild.stoppedAt (build : ImageBuild) (serverId : String) : Option Instant :=
  build.effects.findSome? fun effect => effect.stoppedAt serverId

/-- The snapshot is the confirmed one of the sanitized builder, and the one that was verified. -/
def ImageBuild.provides (build : ImageBuild) (work : BuilderWork) (verified : VerificationResult)
    (record : Resource) (snapshot : ImageSnapshot) : Prop :=
  snapshot.status = .available ∧ snapshot.sourceServerId = some work.serverId ∧
    snapshot.diskGb = build.admission.offer.diskGb ∧
    snapshot.architecture = build.admission.offer.architecture ∧
    snapshot.deleteProtected = false ∧ verified.snapshotId = record.ref.id ∧
    build.confirmed record.effectId = true

instance (build : ImageBuild) (work : BuilderWork) (verified : VerificationResult)
    (record : Resource) (snapshot : ImageSnapshot) :
    Decidable (build.provides work verified record snapshot) :=
  inferInstanceAs (Decidable (_ ∧ _))

/-- The evidence that the persisted history of the build gives, when it is complete. -/
def expectedEvidence (build : ImageBuild) : Option ImageReleaseEvidence := do
  let deleteAfter ← build.admission.retention.deleteAfter?
  let work ← build.builderWork
  let sanitation ← work.progress.sanitation?
  let verified ← build.result
  let stopped ← build.stoppedAt work.serverId
  let record ← build.snapshot?
  let snapshot ← record.state.resource?.bind ImageProviderResource.snapshot?
  if build.provides work verified record snapshot then
    some {
      buildId := build.id
      retainUntil := deleteAfter
      manifest := build.admission.source.manifest
      inputs := build.admission.source.inputs
      artifacts := build.admission.source.artifacts
      sanitation := sanitation
      serverId := work.serverId
      snapshot := ⟨record.ref.id, work.serverId, snapshot.diskGb, stopped, snapshot.createdAt⟩
      verifiedBoot := ⟨verified.serverId, verified.bootId, verified.manifestDigest,
        verified.verifiedAt⟩ }
  else none

/-- `guard_image_publication`: what both writes need. -/
def guardPublication (now : Instant) (build : ImageBuild) : Except Fault Unit :=
  refuse (build.admission.retention = .verificationOnly ∨ build.expired now = true)
    (raised "Image publication requires an active retained admission")

/-- The times of a release are in order. -/
def ImageReleaseEvidence.ordered (evidence : ImageReleaseEvidence) : Prop :=
  evidence.snapshot.sourceStoppedAt ≤ evidence.snapshot.createdAt ∧
    evidence.snapshot.createdAt ≤ evidence.verifiedBoot.checkedAt

instance (evidence : ImageReleaseEvidence) : Decidable evidence.ordered :=
  inferInstanceAs (Decidable (_ ∧ _))

/-- `INSERT INTO image_publications`. -/
def insertPublication (now : Instant) (build : ImageBuild) (evidence : ImageReleaseEvidence) :
    Except Fault ImageBuild := do
  refuse (build.publication.isSome) (raised "duplicate key value violates unique constraint")
  guardPublication now build
  refuse (build.state ≠ .running)
    (raised "Image publication starts unsigned from a running build")
  let expected ← present (expectedEvidence build)
    (raised "Publication requires the exact confirmed sanitized snapshot and verifier evidence")
  refuse (build.effects.any Effect.pending = true)
    (raised "Publication requires the exact confirmed sanitized snapshot and verifier evidence")
  refuse (evidence ≠ expected ∨ ¬ evidence.ordered)
    (raised "Image release evidence differs from persisted build history")
  pure { build with publication := some ⟨evidence, none⟩ }

/-- `UPDATE image_publications SET release = ...`. -/
def updatePublication (now : Instant) (build : ImageBuild) (release : SignedImageRelease) :
    Except Fault ImageBuild :=
  match build.publication with
  | none => pure build
  | some publication => do
    guardPublication now build
    refuse (publication.release.isSome ∨ build.state ≠ .releasing)
      (raised "Image release evidence and signed publication are immutable")
    refuse (release.payload.toImageReleaseEvidence ≠ publication.evidence ∨
        release.payload.issuedAt < publication.evidence.verifiedBoot.checkedAt ∨
        now < release.payload.issuedAt ∨ publication.evidence.retainUntil ≤ now ∨
        build.effects.any Effect.pending = true ∨
        build.temporary = true ∨
        build.snapshots.any (fun resource => resource.ref.id = publication.evidence.snapshot.id &&
          resource.state.resource?.any (fun observed => observed.snapshot?.any fun snapshot =>
            snapshot.status = .available)) = false)
      (raised "Signed publication requires matching evidence and complete temporary cleanup")
    refuse (build.accessRemovedAt = none)
      (raised "Publication requires recorded local access removal")
    pure { build with publication := some { publication with release := some release } }

end AgentCloud.Images
