/-
  CLEANUP (`image-cleanup.ts`): one pass reconciles what is pending, observes what is left, and names
  one owned deletion.

  A pass never creates.  Its order follows the attachments: servers first, then the snapshot, then
  addresses, the firewall and the access key; a pending server create keeps everything that is not a
  server, and a customer's pin keeps the snapshot.
-/
import AgentCloud.Images.Journal

namespace AgentCloud.Images

open Checked Durable

/-- The state of a build whose cleanup was requested. -/
def ImageBuild.requested (build : ImageBuild) (reason : CleanupReason) : ImageBuild :=
  if build.state.stage < 3 then { build with state := .cleaning reason } else build

/-- `requestImageCleanup`. -/
def requestCleanup (buildId : ImageBuildId) (reason : CleanupReason) (store : Store) :
    Except Fault (Unit × Store) := do
  let build ← present (store.build buildId) (cloudError .notFound "Image build not found.")
  let build' ← updateImageBuild store.clock build fun row => row.requested reason
  pure ((), store.putBuild build')

def requestImageCleanup (buildId : ImageBuildId) (reason : CleanupReason) : Program Unit :=
  Prog.transact (S := interface) fun _ store => requestCleanup buildId reason store

/-- What a pass of the planner comes to. -/
inductive CleanupPlan where
  | cleaned
  | delete (resource : ImageResourceRef)
  | waiting (effects : List EffectId)
  | readyToPublish
  deriving DecidableEq, Repr

/-- Whether a pass aborts the build or prepares its publication. -/
inductive CleanupIntent where
  | abort
  | release
  deriving DecidableEq, Repr

/-- The effects that a pass reconciles. -/
def ImageBuild.pendingEffects (build : ImageBuild) : List Effect := build.effects.filter Effect.pending

/-- Some effect that would explain a resource is still pending. -/
def ImageBuild.creatorPending (build : ImageBuild) (row : Resource) : Bool :=
  (build.effect row.effectId).any Effect.pending

/-- An in-flight create can appear later: a 404 alone cannot retire its receipt. -/
def observeLeft (build : ImageBuild) (row : Resource) : Program Unit :=
  if row.live then
    (get row.ref).bind fun current =>
      if current.isSome || !build.creatorPending row then
        observeImageResource build row.ref current
      else pure ()
  else pure ()

/-- The pending effects whose action is still running. -/
def runningEffects (build : ImageBuild) : List Effect → Program (List EffectId)
  | [] => pure []
  | effect :: rest =>
    match effect.outcome.accepted? with
    | none => runningEffects build rest
    | some (resource, actionId) =>
      (getAction build.id actionId (imageActionTarget effect.command resource)).bind fun action =>
        (runningEffects build rest).bind fun running =>
          pure (if action.running then effect.id :: running else running)

/-- Server attachments must disappear before deleting their IP, firewall or access key. -/
def ImageResourceKind.order : ImageResourceKind → Nat
  | .server => 0
  | .snapshot => 1
  | .primaryIp => 2
  | .firewall => 3
  | .sshKey => 4

/-- What is left to delete. -/
def ImageBuild.remaining (build : ImageBuild) : List Resource :=
  build.resources.filter fun row =>
    row.live && !(decide (build.state = .releasing) && decide (row.role = .snapshot))

/-- A resource that may be deleted next. -/
def deletable (build : ImageBuild) (running : List EffectId) (pinned : Bool) (row : Resource) :
    Bool :=
  !(decide (row.role = .snapshot) && pinned) &&
    !(build.creatorPending row && running.contains row.effectId) &&
    row.state.resource?.isSome &&
    !(decide (row.ref.kind ≠ .server) && build.somePending ImageProviderCommand.isCreateServer) &&
    !(decide (row.role = .builder) && build.somePending ImageProviderCommand.isCreateSnapshot)

/-- The first of a list in the order of deletion (`sort(...)[0]` of a stable sort). -/
def firstInOrder : List Resource → Option Resource
  | [] => none
  | row :: rest =>
    match firstInOrder rest with
    | none => some row
    | some best => if best.ref.kind.order < row.ref.kind.order then some best else some row

def nextDeletion (build : ImageBuild) (running : List EffectId) (pinned : Bool) :
    Option Resource :=
  firstInOrder (build.remaining.filter (deletable build running pinned))

/-- The target of a pending deletion. -/
def ImageBuild.deleting (build : ImageBuild) : Option ImageResourceRef :=
  build.pendingEffects.findSome? fun effect =>
    if effect.command.isDelete then effect.command.target? else none

/-- The build has nothing left and is recorded as cleaned. -/
def recordCleaned (buildId : ImageBuildId) : Program Unit :=
  onBuild buildId fun env store build => do
    let build' ← updateImageBuild store.clock build fun row =>
      { row with state := .cleaned env.date }
    pure ((), build')

/-- What the pass decides, once everything is reconciled and observed. -/
def decideCleanup (build : ImageBuild) (running : List EffectId) : Program CleanupPlan :=
  match build.deleting with
  | some resource => pure (.delete resource)
  | none =>
    (Prog.read (S := interface) fun store => imageSnapshotInUse store build.id).bind fun pinned =>
      match nextDeletion build running pinned with
      | some row => pure (.delete row.ref)
      | none =>
        if build.pendingEffects ≠ [] then
          pure (.waiting (build.pendingEffects.map Effect.id))
        else if build.remaining ≠ [] then
          pure (.waiting (build.remaining.map Resource.effectId))
        else if build.state = .releasing then pure .readyToPublish
        else (recordCleaned build.id).bind fun _ => pure .cleaned

/-- The pass itself, on an admitted cleanup or release. -/
def cleanupPass (buildId : ImageBuildId) : Program CleanupPlan :=
  (inspectImageBuild buildId).bind fun build =>
    (Prog.forEach build.pendingEffects fun effect =>
        (reconcileImageEffect build effect).ignore).bind fun _ =>
      (inspectImageBuild buildId).bind fun left =>
        (Prog.forEach left.resources (observeLeft left)).bind fun _ =>
          (inspectImageBuild buildId).bind fun seen =>
            (runningEffects seen seen.pendingEffects).bind fun running =>
              decideCleanup seen running

/-- `planImageCleanup`, under the lock of the build. -/
def planImageCleanup (buildId : ImageBuildId) (intent : CleanupIntent) : Program CleanupPlan :=
  (inspectImageBuild buildId).bind fun build =>
    if intent = .release then
      if build.state = .releasing then cleanupPass buildId
      else raise (cloudError .permissionDenied
        "Retained cleanup requires an active publication intent.")
    else if build.state.cleaned? then pure .cleaned
    else if build.state.cleaning? then cleanupPass buildId
    else (requestImageCleanup buildId .requested).bind fun _ => cleanupPass buildId

/-- `completeImageAccessCleanup`: the update after `access.remove`. -/
def recordAccessRemoved (buildId : ImageBuildId) : Program Unit :=
  Prog.transact (S := interface) fun _ store =>
    match store.build buildId with
    | none => pure ((), store)
    | some build =>
      if build.accessRemovedAt.isSome then pure ((), store)
      else do
        let build' ← updateImageBuild store.clock build fun row =>
          { row with accessRemovedAt := some store.clock }
        pure ((), store.putBuild build')

def completeImageAccessCleanup (buildId : ImageBuildId) (build : ImageBuild) : Program Unit :=
  if build.accessRemovedAt.isSome then pure ()
  else
    (Prog.ask (S := interface) (.removeAccess buildId)).bind fun reply =>
      (thrown reply).bind fun _ => recordAccessRemoved buildId

end AgentCloud.Images
