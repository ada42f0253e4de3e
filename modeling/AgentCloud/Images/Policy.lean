/-
  THE POLICY OF IMAGE EFFECTS (`image-effect-policy.ts`, `image-verifier.ts`): what a command must
  agree with before it is prepared.

  A create must describe what was admitted, and what it depends on must be owned, confirmed and
  still there; a shutdown needs the builder's sanitation receipt, a snapshot the confirmed shutdown.
  A deletion must be for an owned resource whose labels still prove it, in the order in which
  resources depend on each other.
-/
import AgentCloud.Images.Ports

namespace AgentCloud.Images

open Checked Durable
open Lifecycle (matchesLabels)

/-! ## Servers -/

def checkImageBuilderIntent (admission : ImageBuildAdmission) (labels : ImageBuildLabels)
    (intent : ServerIntent) : Except Fault Unit := do
  refuse (labels.role ≠ .builder)
    (cloudError .guestUnreachable "Platform image-verifier enrollment is not configured.")
  refuse (labels.buildId ≠ admission.id ∨ intent.serverType ≠ admission.offer.serverType ∨
      intent.region ≠ admission.offer.region.text ∨ intent.imageId ≠ admission.baseImageId ∨
      intent.bootData ≠
        .imageBuildSecret admission.access.secretId admission.source.manifestDigest)
    (cloudError .invalidInput "Image builder differs from its admission.")

/-- `confirmedImageResource`: the one confirmed and observed resource of a role. -/
def confirmedImageResource (build : ImageBuild) (role : ImageResourceRole) :
    Except Fault (Resource × ImageProviderResource) :=
  let refusal := retryableError .providerUnavailable
    "Image verification requires one confirmed owned resource for each role."
  match build.resources.filter fun row => row.role = role with
  | [row] => do
    let seen ← present row.state.resource? refusal
    refuse (build.confirmed row.effectId = false) refusal
    pure (row, seen)
  | _ => throw refusal

/-- `verifierSnapshot`: the available snapshot of the sanitized builder, and the builder's server. -/
def verifierSnapshot (build : ImageBuild) : Except Fault (Resource × String) := do
  let refusal := cloudError .permissionDenied
    "Image verification requires its sanitized builder snapshot."
  let found ← confirmedImageResource build .snapshot
  let work ← present build.builderWork refusal
  let snapshot ← present found.2.snapshot? refusal
  refuse (work.progress.sanitation? = none ∨ snapshot.sourceServerId ≠ some work.serverId ∨
      snapshot.status ≠ .available) refusal
  pure (found.1, work.serverId)

/-- `build.verification.kind === 'prepared'`, with its expiry and image. -/
def ImageBuild.prepared? (build : ImageBuild) : Option VerifierBootstrap :=
  if build.identity.isNone then build.bootstrap else none

def checkImageServerIntent (build : ImageBuild) (labels : ImageBuildLabels)
    (intent : ServerIntent) (now : Instant) : Except Fault Unit :=
  let admission := build.admission
  if labels.role = .builder then checkImageBuilderIntent admission labels intent
  else do
    let refusal := cloudError .permissionDenied
      "Image verifier differs from its prepared snapshot admission."
    let snapshot ← verifierSnapshot build
    let bootstrap ← present build.prepared? refusal
    refuse (labels.role ≠ .verifier ∨ bootstrap.expiresAt ≤ now ∨
        intent.bootData ≠ .imageVerifierSecret admission.id admission.source.manifestDigest ∨
        intent.imageId ≠ snapshot.1.ref.id ∨ intent.imageId ≠ bootstrap.snapshotId ∨
        intent.serverType ≠ admission.offer.serverType ∨
        intent.region ≠ admission.offer.region.text ∨ labels.buildId ≠ admission.id) refusal

/-! ## Dependencies -/

/-- `owned`: a confirmed dependency that is still there. -/
def owned (build : ImageBuild) (role : ImageResourceRole) (id : String) :
    Program ImageProviderResource :=
  let ref : ImageResourceRef := ⟨imageRoleKind role, id⟩
  match build.resources.find? fun row => row.role = role ∧ row.ref = ref with
  | none => raise (cloudError .providerOutcomeUnknown
      "Image command needs a confirmed owned dependency.")
  | some row =>
    if row.live && build.confirmed row.effectId then
      (get ref).bind fun current => Prog.ofExcept (do
        let resource ← present current
          (cloudError .providerOutcomeUnknown "Image dependency ownership changed.")
        refuse (resource.ref ≠ ref ∨ matchesLabels resource.labels
            (imageEffectLabels build.id role row.effectId) = false)
          (cloudError .providerOutcomeUnknown "Image dependency ownership changed.")
        pure resource)
    else raise (cloudError .providerOutcomeUnknown
      "Image command needs a confirmed owned dependency.")

/-- The pinned base image, read before a create that is not a snapshot. -/
def checkBaseImage (build : ImageBuild) (base : Option ImageBase) : Except Fault Unit :=
  refuse (base.any (fun image =>
      decide (image.id = build.admission.baseImageId ∧ image.type = "system" ∧
        image.status = "available" ∧ image.architecture = build.admission.offer.architecture ∧
        image.osFlavor = "ubuntu" ∧ image.osVersion = some "24.04" ∧
        image.diskGb ≤ build.admission.offer.diskGb) && !image.deprecated && !image.deleted) = false)
    (cloudError .providerUnavailable
      "The pinned Ubuntu 24.04 base image is unavailable or incompatible.")

def readBaseImage (build : ImageBuild) (command : ImageProviderCommand) : Program Unit :=
  if command.isImageCreate && !command.isCreateSnapshot then
    (Prog.ask (S := interface) (.getBaseImage build.admission.baseImageId)).bind fun reply =>
      (thrown reply).bind fun base => Prog.ofExcept (checkBaseImage build base)
  else pure ()

/-- The verifier's source: its snapshot, and the stopped builder it was taken from. -/
def checkSource (build : ImageBuild) : Program (Option String) :=
  (Prog.ofExcept (verifierSnapshot build)).bind fun found =>
    (owned build .snapshot found.1.ref.id).bind fun source =>
      (Prog.ofExcept (refuse (source.snapshot?.any (fun seen =>
          decide (seen.status = .available ∧ seen.sourceServerId = some found.2)) = false)
        (cloudError .providerOutcomeUnknown "Image verifier snapshot source changed."))).bind fun _ =>
      (owned build .builder found.2).bind fun builder =>
        (Prog.ofExcept (refuse (builder.server?.any (fun server =>
            decide (server.power = .off)) = false)
          (cloudError .providerOutcomeUnknown
            "Image verifier requires its stopped builder."))).bind fun _ =>
        pure (some found.2)

/-- The address, the key and the firewall of a server that is to be created. -/
def attachable (build : ImageBuild) (intent : ServerIntent) (builderId : Option String)
    (ip key firewall : ImageProviderResource) : Bool :=
  match ip, key, firewall with
  | .primaryIp address, .sshKey access, .firewall rule =>
    !address.autoDelete && address.serverId.isNone && decide (address.region = intent.region) &&
      decide (access.publicKey = build.admission.access.publicKey) &&
      (rule.attachments.all fun attachment =>
        decide (builderId.map FirewallAttachment.server = some attachment)) &&
      decide (rule.attachments.length ≤ if builderId.isSome then 1 else 0) &&
      accessRule rule.rules build.admission.access.managementAddress
  | _, _, _ => false

def checkCreateServer (build : ImageBuild) (labels : ImageBuildLabels) (intent : ServerIntent)
    (now : Instant) : Program Unit :=
  let verifier := decide (labels.role = .verifier)
  (Prog.ofExcept (checkImageServerIntent build labels intent now)).bind fun _ =>
    (owned build (if verifier then .verifierIp else .builderIp) intent.primaryIpId).bind fun ip =>
    (owned build .accessKey intent.sshKeyId).bind fun key =>
    (owned build .accessFirewall intent.firewallId).bind fun firewall =>
    (if verifier then checkSource build else pure none).bind fun builderId =>
      Prog.ofExcept (refuse (attachable build intent builderId ip key firewall = false)
        (cloudError .providerOutcomeUnknown "Image builder dependencies changed."))

/-! ## Shutdown and snapshot -/

def checkPowerOff (build : ImageBuild) (serverId : String) (sanitation : Sanitation) :
    Program Unit :=
  (Prog.ofExcept (refuse (build.builderWork.any (fun work =>
        decide (work.serverId = serverId ∧ work.progress.sanitation? = some sanitation)) = false ∨
      sanitation.builderId ≠ build.admission.id ∨
      sanitation.manifestDigest ≠ build.admission.source.manifestDigest)
    (cloudError .invalidInput "Sanitation receipt differs from the admitted builder."))).bind fun _ =>
  (owned build .builder serverId).bind fun _ => pure ()

def checkCreateSnapshot (build : ImageBuild) (serverId : String) : Program Unit :=
  (owned build .builder serverId).bind fun source =>
    (Prog.ofExcept (refuse (build.builderWork.any (fun work =>
        decide (work.serverId = serverId) && work.progress.sanitation?.isSome) = false)
      (cloudError .permissionDenied
        "Snapshot requires a persisted sanitized builder."))).bind fun _ =>
    Prog.ofExcept (refuse ((build.stoppedAt serverId).isNone ∨ source.server?.any (fun server =>
        decide (server.power = .off ∧ server.architecture = build.admission.offer.architecture ∧
          server.diskGb = build.admission.offer.diskGb)) = false)
      (cloudError .providerOutcomeUnknown
        "Snapshot needs a sanitized and confirmed stopped builder."))

/-! ## Deletion -/

/-- A resource that the provider will not let go, or that others still need. -/
def ImageProviderResource.held : ImageProviderResource → Bool
  | .primaryIp row => row.serverId.isSome
  | .firewall row => !row.attachments.isEmpty
  | .server row => row.deleteProtected
  | .snapshot row => row.deleteProtected
  | .sshKey _ => false

/-- The checks on the resource that a deletion finds. -/
def checkDeletable (build : ImageBuild) (row : Resource) (current : ImageProviderResource) :
    Except Fault Unit := do
  refuse (current.ref ≠ row.ref ∨ matchesLabels current.labels
      (imageEffectLabels build.id row.role row.effectId) = false)
    (cloudError .providerOutcomeUnknown "Image deletion target ownership changed.")
  refuse (current.ref.kind ≠ .server ∧
      build.somePending ImageProviderCommand.isCreateServer = true)
    (cloudError .providerOutcomeUnknown
      "Reconcile uncertain servers before deleting image dependencies.")
  refuse (row.role = .builder ∧
      build.somePending ImageProviderCommand.isCreateSnapshot = true)
    (cloudError .providerOutcomeUnknown
      "Reconcile uncertain snapshots before deleting their builder.")
  refuse (current.held = true)
    (cloudError .providerOutcomeUnknown "Image resource is attached or deletion-protected.")
  refuse (current.ref.kind = .sshKey ∧ build.resources.any (fun resource =>
      decide (resource.ref.kind = .server) && resource.live) = true)
    (cloudError .providerOutcomeUnknown "Remove image servers before deleting access keys.")

def checkDelete (build : ImageBuild) (resource : ImageResourceRef) : Program Unit :=
  if build.state = .releasing ∧ resource.kind = .snapshot then
    raise (cloudError .permissionDenied "Retained cleanup cannot delete its release snapshot.")
  else
    match build.resource resource with
    | none => raise (cloudError .providerOutcomeUnknown "Deletion needs an owned image resource.")
    | some row =>
      if row.live then
        (get row.ref).bind fun current =>
          match current with
          | none => pure ()
          | some seen => Prog.ofExcept (checkDeletable build row seen)
      else raise (cloudError .providerOutcomeUnknown "Deletion needs an owned image resource.")

/-! ## The whole -/

/-- Labels and role of a create agree. -/
def checkCreateLabels (build : ImageBuild) (command : ImageProviderCommand) : Except Fault Unit :=
  match command.labels? with
  | none => pure ()
  | some labels =>
    refuse (labels.buildId ≠ build.admission.id ∨
        command.creates? ≠ some (imageRoleKind labels.role))
      (cloudError .invalidInput "Image command labels and resource role disagree.")

def checkByKind (build : ImageBuild) (now : Instant) : ImageProviderCommand → Program Unit
  | .createSshKey _ _ publicKey => Prog.ofExcept
      (refuse (publicKey ≠ build.admission.access.publicKey)
        (cloudError .invalidInput "Image access key differs from admission."))
  | .createFirewall _ _ managementAddress => Prog.ofExcept
      (refuse (managementAddress ≠ build.admission.access.managementAddress)
        (cloudError .invalidInput "Image firewall differs from admission."))
  | .createPrimaryIp _ _ region => Prog.ofExcept
      (refuse (region ≠ build.admission.offer.region.text)
        (cloudError .invalidInput "Image address location differs from admission."))
  | .createServer _ labels intent => checkCreateServer build labels intent now
  | .powerOff serverId sanitation => checkPowerOff build serverId sanitation
  | .createSnapshot _ _ serverId => checkCreateSnapshot build serverId
  | .delete resource => checkDelete build resource

def checkImageCommand (build : ImageBuild) (command : ImageProviderCommand) (now : Instant) :
    Program Unit :=
  (readBaseImage build command).bind fun _ =>
    (Prog.ofExcept (checkCreateLabels build command)).bind fun _ =>
      checkByKind build now command

end AgentCloud.Images
