/-
  IMAGE BUILDS: roles, commands, receipts, observations and the rows of one build, as
  `packages/contracts/src/image-*.ts` and the migrations declare them.

  A build rents a builder and a verifier, takes a snapshot of the builder, and publishes the snapshot
  as a signed release.  Everything it asks of the provider is an EFFECT with a row of its own, and
  everything the provider gave it is a RESOURCE, named by exact kind and identifier and owned by the
  effect that created it.

  `ImageBuild` is what `inspectImageBuild` returns: the row of the build with the rows of its
  identifier in the other tables.  Effects stand in the order they were inserted, which is the order
  of their `created_at`.

  Manifests, inputs and artifacts are compared as values and never looked into, but for what names
  the machine (architecture, version) and the files a customer machine needs.
-/
import AgentCloud.Lifecycle.Provider
import AgentCloud.Lib.Table

namespace AgentCloud.Images

open Checked
open Lifecycle (Architecture Labels matchesLabels)

abbrev ImageBuildId := String
abbrev EffectId := String

/-! ## Roles and resources -/

inductive ImageResourceKind where
  | server
  | primaryIp
  | sshKey
  | firewall
  | snapshot
  deriving DecidableEq, Repr

inductive ImageResourceRole where
  | builder
  | builderIp
  | verifier
  | verifierIp
  | accessKey
  | accessFirewall
  | snapshot
  deriving DecidableEq, Repr

structure ImageResourceRef where
  kind : ImageResourceKind
  id : String
  deriving DecidableEq, Repr

/-- The role's spelling in labels and effect keys. -/
def ImageResourceRole.text : ImageResourceRole → String
  | .builder => "builder"
  | .builderIp => "builder_ip"
  | .verifier => "verifier"
  | .verifierIp => "verifier_ip"
  | .accessKey => "access_key"
  | .accessFirewall => "access_firewall"
  | .snapshot => "snapshot"

def imageRoleKind : ImageResourceRole → ImageResourceKind
  | .builder => .server
  | .verifier => .server
  | .builderIp => .primaryIp
  | .verifierIp => .primaryIp
  | .accessKey => .sshKey
  | .accessFirewall => .firewall
  | .snapshot => .snapshot

/-- `imageBuildLabelsSchema`: the other two labels are literals. -/
structure ImageBuildLabels where
  buildId : ImageBuildId
  role : ImageResourceRole
  deriving DecidableEq, Repr

def ImageBuildLabels.entries (labels : ImageBuildLabels) : Labels :=
  [("managed_by", "agent-cloud"), ("scope", "image-build"), ("build_id", labels.buildId),
    ("role", labels.role.text)]

def imageEffectLabels (buildId : ImageBuildId) (role : ImageResourceRole) (effectId : EffectId) :
    Labels :=
  (ImageBuildLabels.mk buildId role).entries ++ [("effect_id", effectId)]

/-! ## Commands -/

inductive BootData where
  | imageBuildSecret (id digest : String)
  | imageVerifierSecret (id : ImageBuildId) (digest : String)
  deriving DecidableEq, Repr

structure ServerIntent where
  serverType : String
  region : String
  imageId : String
  primaryIpId : String
  sshKeyId : String
  firewallId : String
  bootData : BootData
  deriving DecidableEq, Repr

/-- `imageSanitationReceiptSchema`. -/
structure Sanitation where
  builderId : ImageBuildId
  manifestDigest : String
  deriving DecidableEq, Repr

inductive ImageProviderCommand where
  | createSshKey (name : String) (labels : ImageBuildLabels) (publicKey : String)
  | createFirewall (name : String) (labels : ImageBuildLabels) (managementAddress : String)
  | createPrimaryIp (name : String) (labels : ImageBuildLabels) (region : String)
  | createServer (name : String) (labels : ImageBuildLabels) (intent : ServerIntent)
  | powerOff (serverId : String) (sanitation : Sanitation)
  | createSnapshot (name : String) (labels : ImageBuildLabels) (serverId : String)
  | delete (resource : ImageResourceRef)
  deriving DecidableEq, Repr

namespace ImageProviderCommand

/-- `command.labels`: present exactly on creates. -/
def labels? : ImageProviderCommand → Option ImageBuildLabels
  | createSshKey _ labels _ => some labels
  | createFirewall _ labels _ => some labels
  | createPrimaryIp _ labels _ => some labels
  | createServer _ labels _ => some labels
  | createSnapshot _ labels _ => some labels
  | powerOff .. => none
  | delete _ => none

/-- `isImageCreate`. -/
def isImageCreate (command : ImageProviderCommand) : Bool := command.labels?.isSome

/-- `command.kind.slice(7)` of a create. -/
def creates? : ImageProviderCommand → Option ImageResourceKind
  | createSshKey .. => some .sshKey
  | createFirewall .. => some .firewall
  | createPrimaryIp .. => some .primaryIp
  | createServer .. => some .server
  | createSnapshot .. => some .snapshot
  | powerOff .. => none
  | delete _ => none

def isCreateServer : ImageProviderCommand → Bool
  | createServer .. => true
  | _ => false

def isCreateSnapshot : ImageProviderCommand → Bool
  | createSnapshot .. => true
  | _ => false

def isDelete : ImageProviderCommand → Bool
  | delete _ => true
  | _ => false

/-- The server that a shutdown stops. -/
def stops? : ImageProviderCommand → Option String
  | powerOff serverId _ => some serverId
  | _ => none

/-- The exact resource that a shutdown or a deletion is for. -/
def target? : ImageProviderCommand → Option ImageResourceRef
  | powerOff serverId _ => some ⟨.server, serverId⟩
  | delete resource => some resource
  | _ => none

@[simp] theorem isImageCreate_eq_false {command : ImageProviderCommand} :
    command.isImageCreate = false ↔ command.labels? = none := by
  simp [isImageCreate]

theorem labels?_of_creates {command : ImageProviderCommand} {kind : ImageResourceKind}
    (h : command.creates? = some kind) : command.isImageCreate = true := by
  cases command <;> simp_all [creates?, isImageCreate, labels?]

/-- Only a deletion is for a snapshot. -/
theorem isDelete_of_target {command : ImageProviderCommand} {ref : ImageResourceRef}
    (h : command.target? = some ref) (kind : ref.kind = .snapshot) : command.isDelete = true := by
  cases command with
  | powerOff =>
    obtain rfl := Option.some.inj h
    cases kind
  | delete => rfl
  | _ => cases h

theorem isDelete_not_create {command : ImageProviderCommand} (h : command.isDelete = true) :
    command.isImageCreate = false := by
  cases command <;> simp_all [isDelete, labels?]

end ImageProviderCommand

/-- Snapshot actions run on the source server; their receipt owns the resulting image. -/
def imageActionTarget : ImageProviderCommand → ImageResourceRef → ImageResourceRef
  | .createSnapshot _ _ serverId, _ => ⟨.server, serverId⟩
  | _, resource => resource

/-- What identifies an effect among those of its build, apart from the number of the retry. -/
inductive EffectBase where
  | create (role : ImageResourceRole)
  | powerOff (serverId : String)
  | delete (resource : ImageResourceRef)
  deriving DecidableEq, Repr

/-- `imageEffectKey`: the text `create:role`, `power_off:id` or `delete:kind:id`. -/
def imageEffectKey : ImageProviderCommand → EffectBase
  | .createSshKey _ labels _ => .create labels.role
  | .createFirewall _ labels _ => .create labels.role
  | .createPrimaryIp _ labels _ => .create labels.role
  | .createServer _ labels _ => .create labels.role
  | .createSnapshot _ labels _ => .create labels.role
  | .powerOff serverId _ => .powerOff serverId
  | .delete resource => .delete resource

/-- The key column: the base, followed by `:n` for shutdowns and deletions. -/
structure EffectKey where
  base : EffectBase
  retry : Option Nat
  deriving DecidableEq, Repr

theorem imageEffectKey_create {command : ImageProviderCommand} {labels : ImageBuildLabels}
    (h : command.labels? = some labels) : imageEffectKey command = .create labels.role := by
  cases command <;> simp_all [ImageProviderCommand.labels?, imageEffectKey]

/-- Two creates of one role have one base, and nothing else has it. -/
theorem labels?_of_imageEffectKey {command : ImageProviderCommand} {role : ImageResourceRole}
    (h : imageEffectKey command = .create role) :
    ∃ labels, command.labels? = some labels ∧ labels.role = role := by
  cases command <;> simp_all [ImageProviderCommand.labels?, imageEffectKey]

theorem isDelete_of_imageEffectKey {command : ImageProviderCommand} {resource : ImageResourceRef}
    (h : imageEffectKey command = .delete resource) : command = .delete resource := by
  cases command <;> simp_all [imageEffectKey]

/-! ## Receipts and resolutions -/

inductive ImageSubmission where
  | accepted (resource : ImageResourceRef) (actionId : String)
  | completed (resource : ImageResourceRef)
  | rejected (reason : String)
  | unknown (reason : String)
  deriving DecidableEq, Repr

/-- `imageEffectOutcomeSchema`. -/
inductive ImageEffectOutcome where
  | prepared
  | received (submission : ImageSubmission)
  deriving DecidableEq, Repr

namespace ImageEffectOutcome

/-- The resource that a receipt names. -/
def resource? : ImageEffectOutcome → Option ImageResourceRef
  | received (.accepted resource _) => some resource
  | received (.completed resource) => some resource
  | _ => none

/-- `outcome.kind === 'prepared' || outcome.kind === 'unknown'`. -/
def uncertain : ImageEffectOutcome → Bool
  | prepared => true
  | received (.unknown _) => true
  | _ => false

def rejected : ImageEffectOutcome → Bool
  | received (.rejected _) => true
  | _ => false

/-- The provider said definitively what became of the request. -/
def definitive (outcome : ImageEffectOutcome) : Bool := !outcome.uncertain

/-- The receipt of an accepted effect: its resource and the action that it runs as. -/
def accepted? : ImageEffectOutcome → Option (ImageResourceRef × String)
  | received (.accepted resource actionId) => some (resource, actionId)
  | _ => none

/-- `OLD.outcome->>'kind' IN ('prepared','unknown','accepted')`. -/
def supersedable (outcome : ImageEffectOutcome) : Bool :=
  outcome.uncertain || outcome.accepted?.isSome

end ImageEffectOutcome

inductive ImageEffectResolution where
  | pending
  | superseded (byEffectId : EffectId)
  | confirmed (confirmedAt : Instant)
  | failed (reason : String)
  deriving DecidableEq, Repr

namespace ImageEffectResolution

def confirmed? : ImageEffectResolution → Bool
  | confirmed _ => true
  | _ => false

def failed? : ImageEffectResolution → Bool
  | failed _ => true
  | _ => false

theorem confirmed?_eq_true {resolution : ImageEffectResolution} :
    resolution.confirmed? = true ↔ ∃ time, resolution = .confirmed time := by
  cases resolution <;> simp [confirmed?]

theorem failed?_eq_true {resolution : ImageEffectResolution} :
    resolution.failed? = true ↔ ∃ reason, resolution = .failed reason := by
  cases resolution <;> simp [failed?]

end ImageEffectResolution

/-- A row of `image_build_effects`. -/
structure Effect where
  id : EffectId
  key : EffectKey
  command : ImageProviderCommand
  outcome : ImageEffectOutcome
  resolution : ImageEffectResolution
  createdAt : Instant
  deriving DecidableEq, Repr

/-- What never changes about an effect. -/
structure Effect.Same (e f : Effect) : Prop where
  id : f.id = e.id
  key : f.key = e.key
  command : f.command = e.command
  createdAt : f.createdAt = e.createdAt

theorem Effect.Same.refl (e : Effect) : e.Same e := ⟨rfl, rfl, rfl, rfl⟩

theorem Effect.Same.trans {e f g : Effect} (h : e.Same f) (h' : f.Same g) : e.Same g :=
  ⟨h'.id.trans h.id, h'.key.trans h.key, h'.command.trans h.command, h'.createdAt.trans h.createdAt⟩

/-- `effect.resolution.kind === 'pending'`. -/
def Effect.pending (effect : Effect) : Bool := decide (effect.resolution = .pending)

@[simp] theorem Effect.pending_eq_true {effect : Effect} :
    effect.pending = true ↔ effect.resolution = .pending := by
  simp [Effect.pending]

@[simp] theorem Effect.pending_eq_false {effect : Effect} :
    effect.pending = false ↔ effect.resolution ≠ .pending := by
  simp [Effect.pending]

/-! ## Observations -/

inductive ImagePower where
  | running
  | off
  | transitioning
  deriving DecidableEq, Repr

inductive SnapshotStatus where
  | creating
  | available
  | unavailable
  deriving DecidableEq, Repr

inductive FirewallAttachment where
  | server (id : String)
  | selector (selector : String)
  deriving DecidableEq, Repr

structure FirewallRule where
  direction : String
  protocol : String
  port : Option String
  sourceIps : List String
  destinationIps : List String
  deriving DecidableEq, Repr

structure ImageServer where
  id : String
  labels : Labels
  name : String
  serverType : String
  region : String
  architecture : Architecture
  power : ImagePower
  imageId : Option String
  primaryIpId : Option String
  ipv4 : Option String
  /-- Identifier and status of each firewall. -/
  firewalls : List (String × String)
  deleteProtected : Bool
  diskGb : Nat
  deriving DecidableEq, Repr

structure ImagePrimaryIp where
  id : String
  labels : Labels
  region : String
  ipv4 : String
  autoDelete : Bool
  serverId : Option String
  deriving DecidableEq, Repr

structure ImageSshKey where
  id : String
  labels : Labels
  publicKey : String
  deriving DecidableEq, Repr

structure ImageFirewall where
  id : String
  labels : Labels
  rules : List FirewallRule
  attachments : List FirewallAttachment
  deriving DecidableEq, Repr

structure ImageSnapshot where
  id : String
  labels : Labels
  architecture : Architecture
  status : SnapshotStatus
  sourceServerId : Option String
  imageSizeGb : Option Nat
  diskGb : Nat
  deleteProtected : Bool
  createdAt : Instant
  deriving DecidableEq, Repr

inductive ImageProviderResource where
  | server (server : ImageServer)
  | primaryIp (primaryIp : ImagePrimaryIp)
  | sshKey (sshKey : ImageSshKey)
  | firewall (firewall : ImageFirewall)
  | snapshot (snapshot : ImageSnapshot)
  deriving DecidableEq, Repr

namespace ImageProviderResource

def ref : ImageProviderResource → ImageResourceRef
  | .server row => ⟨.server, row.id⟩
  | .primaryIp row => ⟨.primaryIp, row.id⟩
  | .sshKey row => ⟨.sshKey, row.id⟩
  | .firewall row => ⟨.firewall, row.id⟩
  | .snapshot row => ⟨.snapshot, row.id⟩

def labels : ImageProviderResource → Labels
  | .server row => row.labels
  | .primaryIp row => row.labels
  | .sshKey row => row.labels
  | .firewall row => row.labels
  | .snapshot row => row.labels

def server? : ImageProviderResource → Option ImageServer
  | .server row => some row
  | _ => none

def primaryIp? : ImageProviderResource → Option ImagePrimaryIp
  | .primaryIp row => some row
  | _ => none

def snapshot? : ImageProviderResource → Option ImageSnapshot
  | .snapshot row => some row
  | _ => none

end ImageProviderResource

/-- `imageResourceStateSchema`. -/
inductive ImageResourceState where
  | unverified
  | observed (resource : ImageProviderResource) (observedAt : Instant)
  | absent (absentAt : Instant)
  deriving DecidableEq, Repr

namespace ImageResourceState

def absent? : ImageResourceState → Bool
  | absent _ => true
  | _ => false

/-- `state.resource` of an observed one. -/
def resource? : ImageResourceState → Option ImageProviderResource
  | observed resource _ => some resource
  | _ => none

end ImageResourceState

/-- A row of `image_build_resources`. -/
structure Resource where
  ref : ImageResourceRef
  role : ImageResourceRole
  effectId : EffectId
  state : ImageResourceState
  deriving DecidableEq, Repr

/-- `resource.state.kind !== 'absent'`. -/
def Resource.live (resource : Resource) : Bool := !resource.state.absent?

/-! ## Admission -/

structure Manifest where
  version : String
  architecture : Architecture
  /-- The certificate authorities that the image trusts. -/
  trust : String
  /-- The pinned version of each component. -/
  components : List (String × String)
  customerSsh : Bool
  deriving DecidableEq, Repr

structure ImageSource where
  manifest : Manifest
  /-- Path and digest of each input file. -/
  inputs : List (String × String)
  artifacts : String
  manifestDigest : String
  checksumDigest : String
  deriving DecidableEq, Repr

inductive PriceBasis where
  | simulated
  | accountGross
  | legacyEstimate
  deriving DecidableEq, Repr

/-- `catalogItemSchema` with the columns that only image builds read. -/
structure ImageOffer extends Lifecycle.CatalogItem where
  vcpus : Nat
  memoryGb : Nat
  priceBasis : PriceBasis
  deriving DecidableEq, Repr

structure StoragePrice where
  currency : String
  grossMicrosPerGbMonth : Micros
  observedAt : Instant
  expiresAt : Instant
  deriving DecidableEq, Repr

structure ImageAccess where
  managementAddress : String
  publicKey : String
  hostPublicKey : String
  secretId : String
  deriving DecidableEq, Repr

structure ImageBudget where
  currency : String
  maxVmGrossMicros : Micros
  maxSnapshotMonthlyGrossMicros : Micros
  maxSnapshotGb : Nat
  deriving DecidableEq, Repr

inductive Retention where
  | verificationOnly
  | retain (deleteAfter : Instant)
  deriving DecidableEq, Repr

structure ImageBuildAdmission where
  id : ImageBuildId
  source : ImageSource
  offer : ImageOffer
  storagePrice : StoragePrice
  baseImageId : String
  access : ImageAccess
  budget : ImageBudget
  admittedAt : Instant
  deadlineAt : Instant
  retention : Retention
  deriving DecidableEq, Repr

inductive CleanupReason where
  | requested
  | expired
  | failed
  deriving DecidableEq, Repr

inductive ImageBuildState where
  | running
  | releasing
  | retained (since : Instant)
  | cleaning (reason : CleanupReason)
  | cleaned (since : Instant)
  deriving DecidableEq, Repr

namespace ImageBuildState

/-- How far a build is; the states only move forward. -/
def stage : ImageBuildState → Nat
  | running => 0
  | releasing => 1
  | retained _ => 2
  | cleaning _ => 3
  | cleaned _ => 4

def cleaning? : ImageBuildState → Bool
  | cleaning _ => true
  | _ => false

def cleaned? : ImageBuildState → Bool
  | cleaned _ => true
  | _ => false

def retained? : ImageBuildState → Bool
  | retained _ => true
  | _ => false

end ImageBuildState

/-! ## Evidence -/

/-- `imageInstallReceiptSchema`. -/
structure Installation where
  builderId : ImageBuildId
  manifestDigest : String
  machineId : String
  deriving DecidableEq, Repr

inductive ImageBuilderProgress where
  | installing
  | installed (installation : Installation)
  | sanitizing (installation : Installation)
  | sanitized (installation : Installation) (sanitation : Sanitation)
  deriving DecidableEq, Repr

/-- The receipt of a sanitized builder. -/
def ImageBuilderProgress.sanitation? : ImageBuilderProgress → Option Sanitation
  | sanitized _ sanitation => some sanitation
  | _ => none

/-- A row of `image_builder_work`. -/
structure BuilderWork where
  effectId : EffectId
  serverId : String
  progress : ImageBuilderProgress
  deriving DecidableEq, Repr

/-- A row of `image_verifier_bootstraps`, without its sealed token. -/
structure VerifierBootstrap where
  snapshotId : String
  expiresAt : Instant
  consumedAt : Option Instant
  deriving DecidableEq, Repr

/-- A row of `image_verifier_identities`: the server, and whether its keys were signed. -/
structure VerifierIdentity where
  effectId : EffectId
  serverId : String
  issued : Bool
  deriving DecidableEq, Repr

/-- `imageVerificationResultSchema`: of the runtime proof, what a release carries. -/
structure VerificationResult where
  serverId : String
  effectId : EffectId
  snapshotId : String
  bootId : String
  machineId : String
  manifestDigest : String
  verifiedAt : Instant
  deriving DecidableEq, Repr

structure SnapshotEvidence where
  id : String
  sourceServerId : String
  diskGb : Nat
  sourceStoppedAt : Instant
  createdAt : Instant
  deriving DecidableEq, Repr

structure BootEvidence where
  serverId : String
  bootId : String
  manifestDigest : String
  checkedAt : Instant
  deriving DecidableEq, Repr

/-- `imageReleaseEvidenceSchema`. -/
structure ImageReleaseEvidence where
  buildId : ImageBuildId
  retainUntil : Instant
  manifest : Manifest
  inputs : List (String × String)
  artifacts : String
  sanitation : Sanitation
  serverId : String
  snapshot : SnapshotEvidence
  verifiedBoot : BootEvidence
  deriving DecidableEq, Repr

/-- `imageReleasePayloadSchema`. -/
structure ImageReleasePayload extends ImageReleaseEvidence where
  issuedAt : Instant
  deriving DecidableEq, Repr

structure SignedImageRelease where
  payload : ImageReleasePayload
  /-- Key identifier and signature value. -/
  signature : String × String
  deriving DecidableEq, Repr

/-- A row of `image_publications`. -/
structure Publication where
  evidence : ImageReleaseEvidence
  release : Option SignedImageRelease
  deriving DecidableEq, Repr

/-! ## The build -/

structure ImageBuild where
  admission : ImageBuildAdmission
  state : ImageBuildState
  runRequestedAt : Option Instant
  accessRemovedAt : Option Instant
  effects : List Effect
  resources : List Resource
  builderWork : Option BuilderWork
  bootstrap : Option VerifierBootstrap
  identity : Option VerifierIdentity
  result : Option VerificationResult
  publication : Option Publication
  deriving DecidableEq, Repr

namespace ImageBuild

def id (build : ImageBuild) : ImageBuildId := build.admission.id

def effect (build : ImageBuild) (id : EffectId) : Option Effect :=
  Table.get Effect.id build.effects id

def resource (build : ImageBuild) (ref : ImageResourceRef) : Option Resource :=
  Table.get Resource.ref build.resources ref

/-- The effects with a base, oldest first. -/
def history (build : ImageBuild) (base : EffectBase) : List Effect :=
  build.effects.filter fun effect => effect.key.base = base

/-- The effect with an identifier is resolved as confirmed. -/
def confirmed (build : ImageBuild) (id : EffectId) : Bool :=
  build.effects.any fun effect => effect.id = id && effect.resolution.confirmed?

/-- Some effect with a property is pending. -/
def somePending (build : ImageBuild) (of : ImageProviderCommand → Bool) : Bool :=
  build.effects.any fun effect => effect.pending && of effect.command

/-- The deadline has passed. -/
def expired (build : ImageBuild) (now : Instant) : Bool := decide (build.admission.deadlineAt ≤ now)

/-- What a fresh build looks like. -/
def admitted (admission : ImageBuildAdmission) : ImageBuild where
  admission := admission
  state := .running
  runRequestedAt := none
  accessRemovedAt := none
  effects := []
  resources := []
  builderWork := none
  bootstrap := none
  identity := none
  result := none
  publication := none

end ImageBuild

end AgentCloud.Images
