/-
  THE PORTS OF AN IMAGE WORKER: the database it commits to, the provider it asks, and the ownership
  of what the provider gave (`image-resources.ts`).

  Whatever holds a build's lock is a program on this interface.  Between two of its actions other
  connections may commit: the lock keeps only the other workers of the same build away.

  A claim and an observation are statements of their own in the source; here each is one transaction,
  since the rows they read belong to the lock's holder, and its refusal is thrown only after it.
-/
import AgentCloud.Images.Budget
import AgentCloud.Lib.Durable

namespace AgentCloud.Images

open Checked Durable
open Lifecycle (Architecture Labels matchesLabels ProviderAction raised)

/-! ## The interface -/

structure Env where
  /-- `new Date()` of the worker. -/
  date : Instant
  /-- `randomUUID()`. -/
  id : EffectId
  /-- The rows of `provider_resources`, which belong to customers. -/
  foreign : ImageResourceRef → Bool

/-- `imageBaseSchema`. -/
structure ImageBase where
  id : String
  type : String
  status : String
  architecture : Architecture
  osFlavor : String
  osVersion : Option String
  diskGb : Nat
  deprecated : Bool
  deleted : Bool
  deriving DecidableEq, Repr

inductive ImageAction where
  | known (action : ProviderAction)
  | missing
  deriving DecidableEq, Repr

def ImageAction.running : ImageAction → Bool
  | known .running => true
  | _ => false

/-- What the remote builder is asked for. -/
inductive RemoteAction where
  | inspect
  | upload
  | install
  | sanitize
  deriving DecidableEq, Repr

inductive InstallState where
  | notStarted
  | started
  | installed (receipt : Installation)
  deriving DecidableEq, Repr

abbrev ReleaseKey := String

inductive Call where
  | submit (effectId : EffectId) (command : ImageProviderCommand)
  | get (resource : ImageResourceRef)
  | find (kind : ImageResourceKind) (labels : Labels)
  /-- Asked on behalf of a build, which the log remembers. -/
  | getAction (buildId : ImageBuildId) (actionId : String) (resource : ImageResourceRef)
  | getBaseImage (imageId : String)
  /-- `pricing()`. -/
  | pricing
  /-- `access.recover`, `access.remove`. -/
  | recoverAccess (buildId : ImageBuildId)
  | removeAccess (buildId : ImageBuildId)
  | remote (action : RemoteAction) (serverId : String)
  /-- `input.readKeys()`. -/
  | readKeys
  /-- The request of a customer's effect. -/
  | customerSubmit (attemptId : AttemptId) (command : Lifecycle.ProviderCommand)
  deriving DecidableEq

/-- What a remote action brings back. -/
def RemoteAction.Reply : RemoteAction → Type
  | inspect => InstallState
  | upload => Unit
  | install => InstallState
  | sanitize => Sanitation

/-- A reply, or what the call throws. -/
def Call.Reply : Call → Type
  | submit .. => Except Fault ImageSubmission
  | get _ => Except Fault (Option ImageProviderResource)
  | find .. => Except Fault (List ImageProviderResource)
  | getAction .. => Except Fault ImageAction
  | getBaseImage _ => Except Fault (Option ImageBase)
  | pricing => Except Fault (ImageCatalog × StoragePrice)
  | recoverAccess _ => Except Fault Unit
  | removeAccess _ => Except Fault Unit
  | remote action _ => Except Fault action.Reply
  | readKeys => Except Fault (List ReleaseKey)
  | customerSubmit .. => Except Fault Lifecycle.Submission

abbrev interface : Interface where
  Env := Env
  Store := Store
  Call := Call
  Reply := Call.Reply
  Fault := Fault

abbrev Program := Prog interface

def raise {α : Type} (fault : Fault) : Program α := Prog.throw fault

def thrown {α : Type} (reply : Except Fault α) : Program α := Prog.ofExcept reply

/-- One call to the provider, whose failure is thrown. -/
def get (resource : ImageResourceRef) : Program (Option ImageProviderResource) :=
  (Prog.ask (S := interface) (.get resource)).bind thrown

def find (kind : ImageResourceKind) (labels : Labels) : Program (List ImageProviderResource) :=
  (Prog.ask (S := interface) (.find kind labels)).bind thrown

def getAction (buildId : ImageBuildId) (actionId : String) (resource : ImageResourceRef) :
    Program ImageAction :=
  (Prog.ask (S := interface) (.getAction buildId actionId resource)).bind thrown

/-- `databaseTime`. -/
def databaseTime : Program Instant := Prog.read (S := interface) Store.clock

/-- A transaction on the rows of one build. -/
def onBuild {α : Type} (buildId : ImageBuildId)
    (t : Env → Store → ImageBuild → Except Fault (α × ImageBuild)) : Program α :=
  Prog.transact (S := interface) fun env store => do
    let build ← present (store.build buildId) (cloudError .notFound "Image build not found.")
    let (value, build') ← t env store build
    pure (value, store.putBuild build')

/-- `inspectImageBuild`: one statement snapshot. -/
def inspectImageBuild (buildId : ImageBuildId) : Program ImageBuild :=
  Prog.transact (S := interface) fun _ store => do
    let build ← present (store.build buildId) (cloudError .notFound "Image build not found.")
    pure (build, store)

/-! ## Ownership -/

/-- What a claim leaves in the table must be this effect's live row. -/
def checkClaim (store : Store) (buildId : ImageBuildId) (effectId : EffectId)
    (ref : ImageResourceRef) : Except Fault Unit :=
  refuse (((store.build buildId).any fun build => (build.resource ref).any fun row =>
      row.effectId = effectId && row.live) = false)
    (cloudError .providerOutcomeUnknown
      "Provider resource belongs elsewhere or was already absent.")

/-- `claimImageResource`: a receipt retains the ID immediately. -/
def claimImageResource (build : ImageBuild) (effect : Effect) (ref : ImageResourceRef) :
    Program Unit :=
  match effect.command.labels? with
  | none => raise (cloudError .providerOutcomeUnknown
      "Provider receipt has an unexpected resource kind.")
  | some labels =>
    if imageRoleKind labels.role ≠ ref.kind then
      raise (cloudError .providerOutcomeUnknown
        "Provider receipt has an unexpected resource kind.")
    else
      (onBuild build.id fun env store row => do
        let row' ← insertResource store env.foreign row ⟨ref, labels.role, effect.id, .unverified⟩
        pure (checkClaim (store.putBuild row') build.id effect.id ref, row')).bind thrown

/-- The labels that an observation of a resource must carry; its effect is one of the snapshot's. -/
def checkObserved (build : ImageBuild) (row : Resource) (ref : ImageResourceRef)
    (resource : ImageProviderResource) : Except Fault Unit :=
  let refusal := cloudError .providerOutcomeUnknown
    "Provider observation disagrees with image ownership."
  do
    let effect ← present (build.effect row.effectId) refusal
    let labels ← present effect.command.labels? refusal
    refuse (resource.ref ≠ ref ∨
      matchesLabels resource.labels (imageEffectLabels build.id labels.role effect.id) = false)
      refusal

/-- The row after an observation. -/
def observe (env : Env) (snapshot row : ImageBuild) (ref : ImageResourceRef)
    (seen : Option ImageProviderResource) : Except Fault ImageBuild := do
  let record ← present (row.resource ref)
    (cloudError .providerOutcomeUnknown "Image resource has no ownership record.")
  match seen with
  | none =>
    if record.live then updateResource row ref (.absent env.date) else pure row
  | some resource => do
    checkObserved snapshot record ref resource
    updateResource row ref (.observed resource env.date)

/-- `observeImageResource`: observation separately proves labels and configuration. -/
def observeImageResource (build : ImageBuild) (ref : ImageResourceRef)
    (seen : Option ImageProviderResource) : Program Unit :=
  onBuild build.id fun env _ row => do
    let row' ← observe env build row ref seen
    pure ((), row')

/-- The one rule of the access firewall. -/
def accessRule (rules : List FirewallRule) (managementAddress : String) : Bool :=
  decide (rules.length = 1) && rules.all fun rule =>
    decide (rule.direction = "in" ∧ rule.protocol = "tcp" ∧ rule.port = some "22" ∧
      rule.destinationIps = [] ∧ rule.sourceIps = [managementAddress ++ "/32"])

/-- The recorded address of a primary IP. -/
def ImageBuild.hasAddress (build : ImageBuild) (primaryIpId ipv4 : String) : Bool :=
  build.resources.any fun row => decide (row.ref = ⟨.primaryIp, primaryIpId⟩) &&
    row.state.resource?.any fun seen => seen.primaryIp?.any fun ip => decide (ip.ipv4 = ipv4)

/-- What the resource of a create must look like. -/
def configured (build : ImageBuild) (effect : Effect) :
    ImageProviderCommand → ImageProviderResource → Bool
  | .createSshKey _ _ publicKey, .sshKey key => decide (key.publicKey = publicKey)
  | .createFirewall _ _ managementAddress, .firewall firewall =>
    firewall.attachments.isEmpty && accessRule firewall.rules managementAddress
  | .createPrimaryIp _ _ region, .primaryIp ip =>
    decide (ip.region = region) && !ip.autoDelete && ip.serverId.isNone
  | .createServer name _ intent, .server server =>
    decide (server.name = name ∧ server.serverType = intent.serverType ∧
        server.region = intent.region ∧ server.architecture = build.admission.offer.architecture ∧
        server.diskGb = build.admission.offer.diskGb ∧ server.imageId = some intent.imageId ∧
        server.primaryIpId = some intent.primaryIpId) &&
      server.ipv4.any (build.hasAddress intent.primaryIpId) &&
      decide (server.firewalls = [(intent.firewallId, "applied")] ∧ server.power = .running) &&
      !server.deleteProtected
  | .createSnapshot _ _ serverId, .snapshot snapshot =>
    decide (snapshot.status = .available ∧ snapshot.sourceServerId = some serverId ∧
        snapshot.architecture = build.admission.offer.architecture ∧
        snapshot.diskGb = build.admission.offer.diskGb) &&
      snapshot.imageSizeGb.any (fun size => decide (size ≤ build.admission.budget.maxSnapshotGb)) &&
      !snapshot.deleteProtected && decide (effect.createdAt ≤ snapshot.createdAt + 5000)
  | _, _ => false

/-- `imageCreateMatches`. -/
def imageCreateMatches (build : ImageBuild) (effect : Effect) (resource : ImageProviderResource) :
    Bool :=
  effect.command.labels?.any fun labels =>
    decide (resource.ref.kind = imageRoleKind labels.role) &&
      matchesLabels resource.labels (imageEffectLabels build.id labels.role effect.id) &&
      configured build effect effect.command resource

end AgentCloud.Images
