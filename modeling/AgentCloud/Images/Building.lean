/-
  THE BUILDER'S WORK (`image-builder-work.ts`) and the verification of its snapshot.

  One pass advances one SSH phase: the guest is installed, sanitized, and its receipts are kept.  A
  sanitation whose reply is lost may have erased the access to the guest, so it is never repeated;
  the build is cleaned instead.

  Verification is enrollment and probing of a second machine.  Of its rows only what the publication
  reads is kept; every write of them is behind the guards of migration 0014.
-/
import AgentCloud.Images.Cleanup

namespace AgentCloud.Images

open Checked Durable

/-- What a pass of the builder comes to. -/
inductive BuilderResult where
  | progress (progress : ImageBuilderProgress)
  | waiting (reason : String)
  | cleanup
  deriving DecidableEq, Repr

/-- `active`: the build may still be worked on; an expired one is handed to cleanup. -/
def activeBuild (buildId : ImageBuildId) : Program Bool :=
  (inspectImageBuild buildId).bind fun build =>
    if build.state ≠ .running then pure false
    else databaseTime.bind fun now =>
      if build.expired now then
        (requestImageCleanup buildId .expired).bind fun _ => pure false
      else if build.effects.any Effect.pending then
        raise (retryableError .providerOutcomeUnknown
          "Reconcile image effects before builder execution.")
      else pure true

/-- Runs only while the build is active. -/
def whileActive (buildId : ImageBuildId) (next : Program BuilderResult) : Program BuilderResult :=
  (activeBuild buildId).bind fun going => if going then next else pure .cleanup

/-- The one observed builder and its confirmed create. -/
def recordedBuilder (build : ImageBuild) : Except Fault (Resource × Effect × ServerIntent) :=
  let refusal := retryableError .providerOutcomeUnknown
    "Builder execution needs one confirmed owned server."
  match build.resources.filter fun row => row.role = .builder with
  | [row] => do
    let effect ← present (build.effect row.effectId) refusal
    refuse (row.state.resource?.isNone ∨ effect.resolution.confirmed? = false) refusal
    match effect.command with
    | .createServer _ _ intent => pure (row, effect, intent)
    | _ => throw refusal
  | _ => throw refusal

/-- The work recorded is on this server. -/
def checkRecorded (build : ImageBuild) (row : Resource) (effect : Effect) : Except Fault Unit :=
  refuse (build.builderWork.any (fun work =>
      decide (work.serverId ≠ row.ref.id ∨ work.effectId ≠ effect.id)) = true)
    (cloudError .permissionDenied "Builder execution belongs to another server intent.")

/-- `currentBuilder`: the server of the work, with its address, observed once more. -/
def currentBuilder (build : ImageBuild) : Program (String × EffectId) :=
  (Prog.ofExcept (do
    let found ← recordedBuilder build
    checkRecorded build found.1 found.2.1
    refuse (build.resources.any (fun ip => decide (ip.role = .builderIp ∧
        ip.ref.id = found.2.2.primaryIpId) && ip.state.resource?.isSome) = false)
      (retryableError .providerOutcomeUnknown "Builder address is not owned.")
    pure found)).bind fun found =>
  let ipRef : ImageResourceRef := ⟨.primaryIp, found.2.2.primaryIpId⟩
  (get ipRef).bind fun address =>
    (observeImageResource build ipRef address).bind fun _ =>
      (Prog.ofExcept (refuse (address.any (fun seen => seen.primaryIp?.any fun ip =>
          decide (ip.serverId = some found.1.ref.id ∧
            ip.region = build.admission.offer.region.text) && !ip.autoDelete) = false)
        (retryableError .providerOutcomeUnknown "Builder address assignment changed."))).bind fun _ =>
      (get found.1.ref).bind fun current =>
        (observeImageResource build found.1.ref current).bind fun _ =>
          (inspectImageBuild build.id).bind fun updated =>
            Prog.ofExcept (do
              let refusal := retryableError .providerOutcomeUnknown
                "Builder server configuration or ownership changed."
              let seen ← present current refusal
              let server ← present seen.server? refusal
              refuse (server.ipv4.isNone ∨ imageCreateMatches updated found.2.1 seen = false) refusal
              pure (server.id, found.2.1.id))

/-- `save`. -/
def saveProgress (buildId : ImageBuildId) (progress : ImageBuilderProgress) :
    Program BuilderResult :=
  (onBuild buildId fun _ store build => do
    let build' ← updateBuilderWork store.clock build progress
    pure ((), build')).bind fun _ => pure (.progress progress)

def remote (action : RemoteAction) (serverId : String) : Program action.Reply :=
  (Prog.ask (S := interface) (.remote action serverId)).bind thrown

/-- An installation whose state is known: recorded when it is complete. -/
def recordInstallation (buildId : ImageBuildId) : InstallState → Program BuilderResult
  | .installed receipt => saveProgress buildId (.installed receipt)
  | _ => pure (.waiting
      "Builder installation has started; inspect its durable receipt on the next pass.")

/-- The installation phase. -/
def installBuilder (buildId : ImageBuildId) (serverId : String) : Program BuilderResult :=
  Prog.tryCatch
    ((remote .inspect serverId).bind fun (state : InstallState) =>
      match state with
      | .notStarted =>
        whileActive buildId ((remote .upload serverId).bind fun _ =>
          whileActive buildId ((remote .install serverId).bind fun (installed : InstallState) =>
            recordInstallation buildId installed))
      | state => recordInstallation buildId state)
    fun fault =>
      match fault with
      | .cloud failure =>
        if failure.code = .guestUnreachable ∧ failure.retryable then
          pure (.waiting
            "Builder SSH ended without a receipt; reconcile installation before retrying.")
        else raise (.cloud failure)
      | .other message => raise (.other message)

/-- The sanitation phase: intent first, and no second try. -/
def sanitizeBuilder (buildId : ImageBuildId) (serverId : String) (installation : Installation) :
    Program BuilderResult :=
  whileActive buildId ((saveProgress buildId (.sanitizing installation)).bind fun _ =>
    (Prog.attempt (remote .sanitize serverId)).bind fun sanitation =>
      match sanitation with
      | .error _ => (requestImageCleanup buildId .failed).bind fun _ => pure .cleanup
      | .ok receipt => saveProgress buildId (.sanitized installation receipt))

/-- The phase that the recorded progress asks for. -/
def continueBuilder (buildId : ImageBuildId) (serverId : String) :
    ImageBuilderProgress → Program BuilderResult
  | .installing => installBuilder buildId serverId
  | .installed installation => sanitizeBuilder buildId serverId installation
  | _ => raise (cloudError .internalError "Unexpected builder phase.")

/-- The intent is recorded before the first contact. -/
def startBuilder (build : ImageBuild) (serverId : String) (effectId : EffectId) :
    Program ImageBuilderProgress :=
  match build.builderWork with
  | some work => pure work.progress
  | none => onBuild build.id fun _ store row => do
      let row' ← insertBuilderWork store.clock row effectId serverId
      pure (.installing, row')

/-- `runImageBuilderWork`, under the lock of the build. -/
def runImageBuilderWork (buildId : ImageBuildId) : Program BuilderResult :=
  whileActive buildId ((inspectImageBuild buildId).bind fun build =>
    match build.builderWork.map BuilderWork.progress with
    | some (.sanitized installation sanitation) =>
      pure (.progress (.sanitized installation sanitation))
    -- a previous process may have erased access without persisting its final receipt
    | some (.sanitizing _) => (requestImageCleanup buildId .failed).bind fun _ => pure .cleanup
    | _ =>
      (currentBuilder build).bind fun builder =>
        (Prog.ask (S := interface) (.recoverAccess buildId)).bind fun reply =>
          (thrown reply).bind fun _ =>
            whileActive buildId ((startBuilder build builder.1 builder.2).bind fun progress =>
              continueBuilder buildId builder.1 progress))

/-! ## Verification -/

/-- What the verification of a build writes, in one transaction each. -/
inductive VerificationWrite where
  | bootstrap (row : VerifierBootstrap)
  | claim (effectId : EffectId) (serverId : String)
  /-- The signed identity; the bootstrap is consumed with it. -/
  | issue (effectId : EffectId) (serverId : String)
  | result (row : VerificationResult)
  deriving DecidableEq, Repr

/-- The write of `prepareImageVerification`, of the enrollment or of the runtime check. -/
def VerificationWrite.apply (now date : Instant) (build : ImageBuild) :
    VerificationWrite → Except Fault ImageBuild
  | bootstrap row => insertBootstrap now build row
  | claim effectId serverId => writeIdentity now build ⟨effectId, serverId, false⟩
  | issue effectId serverId => do
    let issued ← writeIdentity now build ⟨effectId, serverId, true⟩
    consumeBootstrap now issued date
  | result row => insertResult now build row

/-- A transaction of the verification, under the lock of the build. -/
def verify (buildId : ImageBuildId) (write : VerificationWrite) : Program Unit :=
  onBuild buildId fun env store build => do
    refuse (build.active store.clock = false)
      (cloudError .permissionDenied "Image build is no longer active.")
    let build' ← write.apply store.clock env.date build
    pure ((), build')

end AgentCloud.Images
