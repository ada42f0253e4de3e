/-
  PUBLICATION (`image-publication.ts`): evidence while the machines exist, the signature when they
  are gone.

  `prepareImagePublication` captures the evidence and moves the build to `releasing` in one
  transaction; `publishImageRelease` signs it after the temporary cleanup, and the release and the
  retained state commit together.  Between the two the build may expire or be cancelled.
-/
import AgentCloud.Images.Building

namespace AgentCloud.Images

open Checked Durable
open Lifecycle (matchesLabels)

/-- The release key: how it signs, and which releases its verification accepts. -/
structure ImagePublicationSigner where
  signature : ImageReleasePayload → String × String
  trusts : SignedImageRelease → List ReleaseKey → Instant → Bool

/-- `requireTrustedImageRelease`. -/
def requireTrustedImageRelease (signer : ImagePublicationSigner) (release : SignedImageRelease)
    (keys : List ReleaseKey) (now : Instant) : Except Fault Unit :=
  refuse (signer.trusts release keys now = false)
    (cloudError .permissionDenied
      "Image release is invalid, expired or its signing key is not trusted.")

/-! ## The verifier, once more -/

/-- The owned resource of a role, read with its labels. -/
def readOwned (build : ImageBuild) (row : Resource) : Program ImageProviderResource :=
  (get row.ref).bind fun current => Prog.ofExcept (do
    let refusal := cloudError .providerOutcomeUnknown
      "Image verifier resource ownership changed."
    let resource ← present current refusal
    refuse (resource.ref ≠ row.ref ∨ matchesLabels resource.labels
      (imageEffectLabels build.id row.role row.effectId) = false) refusal
    pure resource)

/-- The verifier runs the snapshot on the recorded address. -/
def verifierAgrees (build : ImageBuild) (source server address : ImageProviderResource)
    (serverId : String) : Bool :=
  match source, server, address with
  | .snapshot image, .server machine, .primaryIp ip =>
    decide (image.sourceServerId = some serverId ∧ image.status = .available ∧
      machine.id ≠ serverId ∧ machine.imageId = some image.id ∧
      machine.primaryIpId = some ip.id ∧ machine.ipv4 = some ip.ipv4 ∧
      ip.serverId = some machine.id ∧ machine.power = .running ∧
      machine.region = build.admission.offer.region.text ∧ ip.region = machine.region ∧
      machine.serverType = build.admission.offer.serverType ∧
      machine.architecture = build.admission.offer.architecture ∧
      machine.diskGb = build.admission.offer.diskGb ∧
      image.architecture = machine.architecture ∧ image.diskGb = machine.diskGb) && !ip.autoDelete
  | _, _, _ => false

/-- `observeImageVerifier`. -/
def observeImageVerifier (build : ImageBuild) : Program Unit :=
  (Prog.ofExcept (do
    let snapshot ← verifierSnapshot build
    let verifier ← confirmedImageResource build .verifier
    let ip ← confirmedImageResource build .verifierIp
    pure (snapshot, verifier.1, ip.1))).bind fun found =>
  (readOwned build found.1.1).bind fun source =>
    (readOwned build found.2.1).bind fun server =>
      (readOwned build found.2.2).bind fun address =>
        Prog.ofExcept (refuse (verifierAgrees build source server address found.1.2 = false)
          (cloudError .providerOutcomeUnknown
            "Image verifier boot source or assigned address changed."))

/-! ## Evidence -/

/-- `requireActiveImageBuild`, in a transaction of its own. -/
def requireActive (buildId : ImageBuildId) : Program Unit :=
  onBuild buildId fun _ store build => do
    refuse (build.active store.clock = false)
      (cloudError .permissionDenied "Image build is no longer active.")
    pure ((), build)

/-- What a publication needs of the build that was inspected. -/
structure Publishable where
  deleteAfter : Instant
  work : BuilderWork
  sanitation : Sanitation
  verified : VerificationResult

def publishable (build : ImageBuild) : Except Fault Publishable := do
  let refusal := cloudError .permissionDenied
    "Publication needs an admitted retained snapshot and verified boot."
  let deleteAfter ← present build.admission.retention.deleteAfter? refusal
  let verified ← present build.result refusal
  let work ← present build.builderWork refusal
  let sanitation ← present work.progress.sanitation? refusal
  refuse (build.effects.any Effect.pending = true) refusal
  pure ⟨deleteAfter, work, sanitation, verified⟩

/-- The evidence of the snapshot that the provider showed. -/
def evidenceOf (build : ImageBuild) (from_ : Publishable) (current : Option ImageProviderResource) :
    Except Fault ImageReleaseEvidence := do
  let refusal := cloudError .providerOutcomeUnknown
    "Publication snapshot is unavailable or cannot be cleaned up."
  let seen ← present current refusal
  let snapshot ← present seen.snapshot? refusal
  let stopped ← present (build.stoppedAt from_.work.serverId) refusal
  refuse (snapshot.status ≠ .available ∨ snapshot.deleteProtected = true) refusal
  pure {
    buildId := build.id
    retainUntil := from_.deleteAfter
    manifest := build.admission.source.manifest
    inputs := build.admission.source.inputs
    artifacts := build.admission.source.artifacts
    sanitation := from_.sanitation
    serverId := from_.work.serverId
    snapshot := ⟨snapshot.id, from_.work.serverId, snapshot.diskGb, stopped, snapshot.createdAt⟩
    verifiedBoot := ⟨from_.verified.serverId, from_.verified.bootId, from_.verified.manifestDigest,
      from_.verified.verifiedAt⟩ }

/-- The evidence and the releasing state commit together. -/
def commitEvidence (buildId : ImageBuildId) (evidence : ImageReleaseEvidence) : Program Unit :=
  onBuild buildId fun _ store build => do
    refuse (build.active store.clock = false)
      (cloudError .permissionDenied "Image build is no longer active.")
    let inserted ← insertPublication store.clock build evidence
    let build' ← updateImageBuild store.clock inserted fun row => { row with state := .releasing }
    pure ((), build')

/-- `prepareImagePublication`, under the lock of the build. -/
def prepareImagePublication (buildId : ImageBuildId) : Program Unit :=
  (inspectImageBuild buildId).bind fun build =>
    if build.state = .releasing ∨ build.state.retained? then pure ()
    else
      (Prog.ofExcept (publishable build)).bind fun found =>
        (requireActive buildId).bind fun _ =>
          (observeImageVerifier build).bind fun _ =>
            (Prog.ofExcept (verifierSnapshot build)).bind fun snapshot =>
              (get snapshot.1.ref).bind fun current =>
                (observeImageResource build snapshot.1.ref current).bind fun _ =>
                  (Prog.ofExcept (evidenceOf build found current)).bind fun evidence =>
                    commitEvidence buildId evidence

/-! ## The release -/

def requireTemporaryCleanup (build : ImageBuild) : Except Fault Unit :=
  refuse (build.effects.any Effect.pending = true ∨ build.temporary = true)
    (cloudError .providerOutcomeUnknown
      "Publication requires resolved effects and absent temporary resources.")

/-- The snapshot row that the evidence names. -/
def releaseRecord (build : ImageBuild) (evidence : ImageReleaseEvidence) : Except Fault Resource := do
  let refusal := cloudError .providerOutcomeUnknown "Release snapshot ownership is unresolved."
  let record ← present build.snapshot? refusal
  refuse (record.ref.id ≠ evidence.snapshot.id ∨ record.state.resource?.isNone ∨
    build.confirmed record.effectId = false) refusal
  pure record

/-- `observePublishedSnapshot`: a different nonnull source is never accepted. -/
def observePublishedSnapshot (build : ImageBuild) (evidence : ImageReleaseEvidence) :
    Program ImageProviderResource :=
  (Prog.ofExcept (releaseRecord build evidence)).bind fun record =>
    (get record.ref).bind fun current => Prog.ofExcept (do
      let refusal := cloudError .providerOutcomeUnknown
        "Release snapshot is missing or its ownership or metadata changed."
      let seen ← present current refusal
      let snapshot ← present seen.snapshot? refusal
      refuse (seen.ref ≠ record.ref ∨ matchesLabels seen.labels
          (imageEffectLabels build.id .snapshot record.effectId) = false ∨
          snapshot.status ≠ .available ∨ snapshot.deleteProtected = true ∨
          snapshot.architecture ≠ evidence.manifest.architecture ∨
          snapshot.diskGb ≠ evidence.snapshot.diskGb ∨
          snapshot.createdAt ≠ evidence.snapshot.createdAt ∨
          snapshot.sourceServerId.any (fun source =>
            decide (source ≠ evidence.snapshot.sourceServerId)) = true) refusal
      pure seen)

/-- The release and the retained state commit together. -/
def commitRelease (buildId : ImageBuildId) (release : SignedImageRelease) : Program Unit :=
  onBuild buildId fun _ store build => do
    let published ← updatePublication store.clock build release
    let build' ← updateImageBuild store.clock published fun row =>
      { row with state := .retained release.payload.issuedAt }
    pure ((), build')

def readKeys : Program (List ReleaseKey) :=
  (Prog.ask (S := interface) .readKeys).bind thrown

/-- `resolvePublishedImage`. -/
def resolvePublishedImage (signer : ImagePublicationSigner) (build : ImageBuild) :
    Program SignedImageRelease :=
  (Prog.ofExcept (do
    let refusal := cloudError .permissionDenied "Only a retained published image can be selected."
    refuse (build.state.retained? = false) refusal
    let publication ← present build.publication refusal
    let release ← present publication.release refusal
    requireTemporaryCleanup build
    pure release)).bind fun release =>
  readKeys.bind fun keys => databaseTime.bind fun now =>
    (Prog.ofExcept (do
      requireTrustedImageRelease signer release keys now
      refuse (release.payload.manifest ≠ build.admission.source.manifest)
        (cloudError .permissionDenied "Published image differs from its admission."))).bind fun _ =>
    (observePublishedSnapshot build release.payload.toImageReleaseEvidence).bind fun _ =>
      (inspectImageBuild build.id).bind fun refreshed =>
        (Prog.ofExcept (refuse (refreshed.state.retained? = false)
          (cloudError .permissionDenied
            "Image retention was cancelled during selection."))).bind fun _ =>
        readKeys.bind fun keys' => databaseTime.bind fun later =>
          (Prog.ofExcept (requireTrustedImageRelease signer release keys' later)).bind fun _ =>
            pure release

/-- Signing and committing, after the temporary cleanup. -/
def signRelease (signer : ImagePublicationSigner) (build : ImageBuild)
    (evidence : ImageReleaseEvidence) : Program SignedImageRelease :=
  (observePublishedSnapshot build evidence).bind fun snapshot =>
    (observeImageResource build snapshot.ref (some snapshot)).bind fun _ =>
      databaseTime.bind fun issuedAt =>
        let payload : ImageReleasePayload := ⟨evidence, issuedAt⟩
        let release : SignedImageRelease := ⟨payload, signer.signature payload⟩
        readKeys.bind fun keys =>
          (Prog.ofExcept (requireTrustedImageRelease signer release keys issuedAt)).bind fun _ =>
            (commitRelease build.id release).bind fun _ => pure release

/-- `publishImageRelease`, under the lock of the build. -/
def publishImageRelease (signer : ImagePublicationSigner) (buildId : ImageBuildId) :
    Program SignedImageRelease :=
  (inspectImageBuild buildId).bind fun build =>
    if build.state.retained? then resolvePublishedImage signer build
    else
      (Prog.ofExcept (do
        let refusal := cloudError .permissionDenied "The build has no active publication intent."
        refuse (build.state ≠ .releasing) refusal
        let publication ← present build.publication refusal
        refuse (publication.release.isSome) refusal
        requireTemporaryCleanup build
        refuse (build.accessRemovedAt = none)
          (cloudError .permissionDenied "Publication requires recorded local key removal.")
        pure publication.evidence)).bind fun evidence =>
      signRelease signer build evidence

/-- `readPublishedImage`, under the lock of the build. -/
def readPublishedImage (signer : ImagePublicationSigner) (buildId : ImageBuildId) :
    Program SignedImageRelease :=
  (inspectImageBuild buildId).bind fun build => resolvePublishedImage signer build

end AgentCloud.Images
