/-
  THE JOURNAL OF IMAGE EFFECTS (`image-effect-journal.ts`): every request to the provider is a row
  that was committed before it, and a request whose fate is unknown is reconciled, never repeated.

  `reconcileImageEffect` learns what became of a pending effect.  A create is found again by its
  labels, so one that is lost stays pending.  A shutdown or a deletion names an exact resource; where
  it may not have run and nothing is known to be running, it may be delegated to a fresh attempt.

  `runImageEffect` is the only program that submits, and it submits what it has just committed.
-/
import AgentCloud.Images.Policy
import Mathlib.Data.List.Dedup

namespace AgentCloud.Images

open Checked Durable
open Lifecycle (Labels matchesLabels)

/-- What reconciling came to. -/
inductive Resolution where
  | confirmed
  | failed (reason : String)
  | retry (reason : String)
  | pending (reason : String)
  deriving DecidableEq, Repr

/-- What is known of an effect that is not pending. -/
def ImageEffectResolution.known : ImageEffectResolution → Resolution
  | .pending => .pending "Provider action is running."
  | .superseded _ => .pending "A later exact-ID effect owns this retry."
  | .confirmed _ => .confirmed
  | .failed reason => .failed reason

/-! ## Reconciling -/

/-- `settle`, as confirmed or as failed. -/
def settle (buildId : ImageBuildId) (effectId : EffectId) (resolution : Env → ImageEffectResolution) :
    Program Unit :=
  onBuild buildId fun env _ build => do
    let build' ← updateEffect build effectId fun effect =>
      { effect with resolution := resolution env }
    pure ((), build')

def settleConfirmed (build : ImageBuild) (effect : Effect) : Program Resolution :=
  (settle build.id effect.id fun env => .confirmed env.date).bind fun _ => pure .confirmed

def settleFailed (build : ImageBuild) (effect : Effect) (reason : String) : Program Resolution :=
  (settle build.id effect.id fun _ => .failed reason).bind fun _ => pure (.failed reason)

/-- The action of an accepted create; the resolution it already decides. -/
def checkCreateAction (build : ImageBuild) (effect : Effect) : Program (Option Resolution) :=
  match effect.outcome.accepted? with
  | none => pure none
  | some (resource, actionId) =>
    (getAction build.id actionId (imageActionTarget effect.command resource)).bind fun action =>
      match action with
      | .known .running => pure (some (.pending "Provider action is running."))
      | .known (.failed _) =>
        (settleFailed build effect
          "Provider create action failed; its resource still requires cleanup.").bind fun result =>
            pure (some result)
      | _ => pure none

/-- The receipt of a create is recorded before anything else is asked. -/
def recordReceipt (build : ImageBuild) (effect : Effect) : Program Unit :=
  match effect.outcome.resource? with
  | none => pure ()
  | some resource =>
    if build.resources.any fun row => decide (row.effectId = effect.id ∧ row.ref = resource) then
      pure ()
    else claimImageResource build effect resource

/-- `new Map(found.map((resource) => [resource.id, resource]))`: the last of equal identifiers, at
    the place of the first. -/
def candidatesOf (found : List ImageProviderResource) : List ImageProviderResource :=
  (found.map fun resource => resource.ref.id).dedup.filterMap fun id =>
    found.reverse.find? fun resource => resource.ref.id = id

/-- One candidate is claimed and observed; whether it disagrees with the recorded ownership. -/
def claimCandidate (build : ImageBuild) (effect : Effect) (kind : ImageResourceKind)
    (labels : Labels) (resource : ImageProviderResource) : Program Bool :=
  if resource.ref.kind ≠ kind ∨ matchesLabels resource.labels labels = false then pure true
  else
    Prog.tryCatch
      ((claimImageResource build effect ⟨kind, resource.ref.id⟩).bind fun _ =>
        (observeImageResource build ⟨kind, resource.ref.id⟩ (some resource)).bind fun _ =>
          pure false)
      fun fault =>
        match fault with
        | .cloud _ => pure true
        | .other message => raise (.other message)

/-- Every candidate, in turn. -/
def claimCandidates (build : ImageBuild) (effect : Effect) (kind : ImageResourceKind)
    (labels : Labels) : List ImageProviderResource → Bool → Program Bool
  | [], mismatched => pure mismatched
  | resource :: rest, mismatched =>
    (claimCandidate build effect kind labels resource).bind fun bad =>
      claimCandidates build effect kind labels rest (mismatched || bad)

/-- The identifiers that the effect is known to have created. -/
def knownIds (build : ImageBuild) (effect : Effect) (candidates : List ImageProviderResource) :
    List String :=
  ((candidates.map fun resource => resource.ref.id) ++
    (build.resources.filter fun row => row.effectId = effect.id).map fun row => row.ref.id).dedup

/-- What the search for a create found. -/
def judgeCandidates (build : ImageBuild) (effect : Effect)
    (candidates : List ImageProviderResource) (mismatched : Bool) : Program Resolution :=
  if mismatched then pure (.pending "Provider candidates disagree with recorded ownership.")
  else if 1 < (knownIds build effect candidates).length then
    pure (.pending "Duplicate image resources require reconciliation.")
  else
    match candidates with
    | [resource] =>
      if effect.outcome.resource?.any fun receipt => decide (resource.ref.id ≠ receipt.id) then
        pure (.pending "Provider receipt and lookup disagree.")
      else if imageCreateMatches build effect resource then settleConfirmed build effect
      else pure (.pending "Image resource does not yet match its intended configuration.")
    | _ => pure (.pending "Provider create outcome remains unknown.")

/-- Search even after a receipt: never silently select one of several matching resources. -/
def searchCreate (build : ImageBuild) (effect : Effect) (labels : ImageBuildLabels) :
    Program Resolution :=
  let kind := imageRoleKind labels.role
  let search := imageEffectLabels build.id labels.role effect.id
  (find kind search).bind fun found =>
    (claimCandidates build effect kind search (candidatesOf found) false).bind fun mismatched =>
      judgeCandidates build effect (candidatesOf found) mismatched

def reconcileCreate (build : ImageBuild) (effect : Effect) (labels : ImageBuildLabels) :
    Program Resolution :=
  (recordReceipt build effect).bind fun _ =>
    (checkCreateAction build effect).bind fun decided =>
      match decided with
      | some resolution => pure resolution
      | none => searchCreate build effect labels

/-- The desired state of a shutdown or a deletion. -/
def reached (command : ImageProviderCommand) (current : Option ImageProviderResource) : Bool :=
  match command with
  | .delete _ => current.isNone
  | .powerOff .. => current.any fun seen =>
      seen.server?.any fun server => decide (server.power = .off)
  | _ => false

/-- What the exact read of the target says. -/
def judgeTarget (build : ImageBuild) (effect : Effect) (current : Option ImageProviderResource)
    (retry : Bool) : Program Resolution :=
  if effect.command.stops?.isSome ∧ current = none then
    settleFailed build effect "The builder was deleted before shutdown could be confirmed."
  else if reached effect.command current then settleConfirmed build effect
  else if retry then
    pure (.retry "The owned target still needs this exact-ID operation and no action is known to be running.")
  else pure (.pending "Provider resource has not reached the requested state.")

def readTarget (build : ImageBuild) (effect : Effect) (ref : ImageResourceRef) (retry : Bool) :
    Program Resolution :=
  (get ref).bind fun current =>
    (observeImageResource build ref current).bind fun _ => judgeTarget build effect current retry

def reconcileExact (build : ImageBuild) (effect : Effect) (ref : ImageResourceRef) :
    Program Resolution :=
  if effect.outcome.resource?.any fun receipt => decide (receipt ≠ ref) then
    pure (.pending "Provider receipt refers to another resource.")
  else
    match effect.outcome.accepted? with
    | some (resource, actionId) =>
      (getAction build.id actionId resource).bind fun action =>
        match action with
        | .known .running => pure (.pending "Provider action is running.")
        | .known (.failed _) => settleFailed build effect "Provider action failed."
        | .known .succeeded => readTarget build effect ref false
        | .missing => readTarget build effect ref true
    | none => readTarget build effect ref effect.outcome.uncertain

/-- `reconcileImageEffect`. -/
def reconcileImageEffect (build : ImageBuild) (effect : Effect) : Program Resolution :=
  if effect.resolution ≠ .pending then pure effect.resolution.known
  else
    match effect.outcome with
    | .received (.rejected reason) => settleFailed build effect reason
    | _ =>
      match effect.command.labels?, effect.command.target? with
      | some labels, _ => reconcileCreate build effect labels
      | none, some ref => reconcileExact build effect ref
      | none, none => raise (.other "unreachable")

/-! ## Running -/

/-- What a caller may bring to a create: the operator's limits, with the current prices read later.
    A deletion brings none. -/
abbrev Pricing := Option ImageBuildLimits

/-- `withImageBuildLock` found the build's earlier tries of this effect: what they come to. -/
inductive Previous where
  /-- Nothing more is to be done. -/
  | settled (resolution : Resolution)
  /-- A fresh attempt is needed, which supersedes the last one if that is still pending. -/
  | fresh (supersede : Option Effect)

def reviewPrevious (build : ImageBuild) (command : ImageProviderCommand) : Program Previous :=
  match (build.history (imageEffectKey command)).getLast? with
  | none => pure (.fresh none)
  | some last =>
    if last.command ≠ command then
      raise (cloudError .idempotencyConflict
        "Image effect identity already describes a different command.")
    else
      (reconcileImageEffect build last).bind fun resolution =>
        match resolution with
        | .failed _ => pure (if command.isImageCreate then .settled resolution else .fresh none)
        | .retry _ =>
          pure (if command.isImageCreate then .settled resolution else .fresh (some last))
        | _ => pure (.settled resolution)

/-- The checks of the snapshot of the build, before anything is read from the provider. -/
def checkPermitted (build : ImageBuild) (command : ImageProviderCommand) (last : Option EffectId)
    (inUse : Bool) (now : Instant) : Except Fault Unit := do
  refuse (command.isDelete = false ∧ (build.state ≠ .running ∨ build.expired now = true))
    (cloudError .providerRejected "The image build is expired or cleaning.")
  refuse (command.isDelete = true ∧ build.state.cleaning? = false ∧ build.state ≠ .releasing)
    (cloudError .permissionDenied "Request image cleanup before deleting its resources.")
  refuse (command.isDelete = false ∧ build.effects.any (fun effect =>
      effect.pending && decide (some effect.id ≠ last)) = true)
    (cloudError .providerOutcomeUnknown "Reconcile pending image effects before starting another.")
  refuse (command.target?.any (fun ref => decide (ref.kind = .snapshot)) = true ∧ inUse = true)
    (cloudError .providerOutcomeUnknown "Snapshot is pinned by an unsettled customer create.")

/-- `pricing()`, for creates only. -/
def readPricing (command : ImageProviderCommand) (pricing : Pricing) :
    Program (Option (ImageCatalog × StoragePrice)) :=
  if command.isImageCreate then
    match pricing with
    | none => raise (cloudError .permissionDenied "Cleanup cannot create provider resources.")
    | some _ =>
      (Prog.ask (S := interface) .pricing).bind fun reply =>
        (thrown reply).bind fun prices => pure (some prices)
  else pure none

/-- Fresh prices and the operator's limits, under the allowance lock. -/
def checkAllowance (build : ImageBuild) (pricing : Pricing)
    (prices : Option (ImageCatalog × StoragePrice)) (store : Store) : Except Fault Unit :=
  match prices, pricing with
  | some prices, some limits => do
    checkImagePrices build.admission prices.1 prices.2 store.clock
    checkImageLimits (parseImageReservations store.uncleaned) limits
  | _, _ => pure ()

/-- The key of the next attempt. -/
def nextKey (build : ImageBuild) (command : ImageProviderCommand) : EffectKey :=
  ⟨imageEffectKey command, if command.isImageCreate then none
    else some ((build.history (imageEffectKey command)).length + 1)⟩

def supersedeBy (supersede : Option Effect) (id : EffectId) (build : ImageBuild) :
    Except Fault ImageBuild :=
  match supersede with
  | none => pure build
  | some last => updateEffect build last.id fun effect =>
      { effect with resolution := .superseded id }

/-- The transaction that commits the attempt; `snapshot` is the build as it was inspected. -/
def prepareEffect (snapshot : ImageBuild) (command : ImageProviderCommand) (pricing : Pricing)
    (prices : Option (ImageCatalog × StoragePrice)) (supersede : Option Effect) :
    Program EffectId :=
  onBuild snapshot.id fun env store build => do
    refuse (build.state.cleaned? = true ∨ (command.isDelete = false ∧
        (build.state ≠ .running ∨ snapshot.expired store.clock = true)))
      (cloudError .providerRejected "Image build no longer permits this effect.")
    checkAllowance snapshot pricing prices store
    let inserted ← insertEffect store build
      ⟨env.id, nextKey snapshot command, command, .prepared, .pending, store.clock⟩
    let build' ← supersedeBy supersede env.id inserted
    pure (env.id, build')

/-- The request; whatever it throws is an unknown outcome. -/
def submit (effectId : EffectId) (command : ImageProviderCommand) : Program ImageSubmission :=
  (Prog.ask (S := interface) (.submit effectId command)).bind fun reply =>
    match reply with
    | .ok submission => pure submission
    | .error _ => pure (.unknown "Provider submission ended without a definitive response.")

def recordOutcome (buildId : ImageBuildId) (effectId : EffectId) (submission : ImageSubmission) :
    Program Unit :=
  onBuild buildId fun _ _ build => do
    let build' ← updateEffect build effectId fun effect =>
      { effect with outcome := .received submission }
    pure ((), build')

/-- After the commit: submit, record the receipt, learn what came of it. -/
def submitPrepared (buildId : ImageBuildId) (command : ImageProviderCommand) (effectId : EffectId) :
    Program Resolution :=
  (submit effectId command).bind fun submission =>
    (recordOutcome buildId effectId submission).bind fun _ =>
      (inspectImageBuild buildId).bind fun updated =>
        match updated.effect effectId with
        | none => raise (cloudError .internalError "Image effect disappeared after submission.")
        | some effect => reconcileImageEffect updated effect

/-- A fresh attempt, from the checks on. -/
def freshEffect (build : ImageBuild) (command : ImageProviderCommand) (pricing : Pricing)
    (supersede : Option Effect) : Program Resolution :=
  if build.state.cleaned? then pure .confirmed
  else
    (Prog.read (S := interface) fun store =>
        (store.clock, imageSnapshotInUse store build.id)).bind fun seen =>
      (Prog.ofExcept (checkPermitted build command
        ((build.history (imageEffectKey command)).getLast?.map Effect.id) seen.2 seen.1)).bind
      fun _ => databaseTime.bind fun now =>
        (checkImageCommand build command now).bind fun _ =>
          (readPricing command pricing).bind fun prices =>
            (prepareEffect build command pricing prices supersede).bind fun effectId =>
              submitPrepared build.id command effectId

/-- `runImageEffect`, under the lock of the build. -/
def runImageEffect (buildId : ImageBuildId) (command : ImageProviderCommand) (pricing : Pricing) :
    Program Resolution :=
  (inspectImageBuild buildId).bind fun build =>
    (reviewPrevious build command).bind fun previous =>
      match previous with
      | .settled resolution => pure resolution
      | .fresh supersede => freshEffect build command pricing supersede

end AgentCloud.Images
