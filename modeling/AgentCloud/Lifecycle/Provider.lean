/-
  THE MACHINE PROVIDER: catalogs, commands, receipts and observations, as `packages/contracts`
  declares them.

  A provider is asked for effects with `submit`, whose reply is a receipt (`Submission`): accepted
  with an action to poll, completed, rejected, or unknown.  Everything else only reads.  What was
  learnt about an effect later is its `EffectResolution`.

  Two invariants of the source's schemas are fields here.  The price of an offer is the sum of its
  parts (`catalogItemSchema.refine`).  A catalog offers daily backups exactly when it is Hetzner's:
  `readHetznerCatalog` quotes the surcharge for every item, `simulatedCatalog` for none.

  Columns of an offer that no modelled function reads (vcpus, memory, the price basis) are left out.
-/
import AgentCloud.Contracts

namespace AgentCloud

/-- The provider's spelling of a region. -/
def Region.text : Region → String
  | .nbg1 => "nbg1"
  | .fsn1 => "fsn1"
  | .hel1 => "hel1"

namespace Lifecycle

open Checked

inductive ProviderKind where
  | simulated
  | hetzner
  deriving DecidableEq, Repr

/-! ## Catalogs -/

inductive Architecture where
  | x86
  | arm
  deriving DecidableEq, Repr

inductive ProviderBackups where
  | disabled
  | daily (hourlyMicros : Micros)
  deriving DecidableEq, Repr

/-- What the backups of an offer add to its price. -/
def ProviderBackups.price : ProviderBackups → Micros
  | .disabled => 0
  | .daily hourlyMicros => hourlyMicros

structure CatalogItem where
  size : Size
  serverType : String
  region : Region
  architecture : Architecture
  diskGb : Nat
  available : Bool
  currency : String
  serverHourlyMicros : Micros
  ipv4HourlyMicros : Micros
  providerBackups : ProviderBackups
  hourlyMicros : Micros
  total : hourlyMicros = serverHourlyMicros + ipv4HourlyMicros + providerBackups.price
  deriving DecidableEq, Repr

structure Catalog where
  provider : ProviderKind
  observedAt : Instant
  expiresAt : Instant
  items : List CatalogItem
  backups : ∀ item ∈ items, item.providerBackups = .disabled ↔ provider = .simulated

/-- `selectOffer`. -/
def selectOffer (catalog : Catalog) (size : Size) (region : Region) (now : Instant) :
    Except Fault CatalogItem := do
  refuse (catalog.expiresAt ≤ now ∨ now + 5000 < catalog.observedAt)
    (retryableError .providerUnavailable
      "The provider catalog is stale; refresh before provisioning.")
  let offer ← present (catalog.items.find? fun item => item.size = size ∧ item.region = region)
    (retryableError .capacityUnavailable "The configured offer has no capacity in this region.")
  refuse (offer.available = false)
    (retryableError .capacityUnavailable "The configured offer has no capacity in this region.")
  pure offer

theorem selectOffer_mem {catalog : Catalog} {size : Size} {region : Region} {now : Instant}
    {offer : CatalogItem} (h : selectOffer catalog size region now = .ok offer) :
    offer ∈ catalog.items := by
  simp only [selectOffer, bind_ok_iff, present_ok_iff, pure_ok_iff] at h
  obtain ⟨-, -, item, hitem, -, -, rfl⟩ := h
  exact List.mem_of_find?_eq_some hitem

/-! ## Commands -/

/-- Labels of a resource: a record of strings. -/
abbrev Labels := List (String × String)

/-- `matchesLabels`: every expected entry is there. -/
def matchesLabels (value expected : Labels) : Bool :=
  expected.all fun entry => value.lookup entry.1 == some entry.2

inductive ResourceKind where
  | server
  | primaryIp
  deriving DecidableEq, Repr

structure ResourceRef where
  kind : ResourceKind
  id : String
  deriving DecidableEq, Repr

inductive NetworkProfile where
  | legacy
  | managedIpv4
  deriving DecidableEq, Repr

inductive ProviderNetwork where
  | legacy
  | primaryIp (id : String)
  deriving DecidableEq, Repr

/-- The fields that both kinds of server creation share. -/
structure ServerRequest where
  name : String
  serverType : String
  region : String
  labels : Labels
  deriving DecidableEq, Repr

inductive ProviderCommand where
  | createPrimaryIp (name region : String) (labels : Labels)
  | deletePrimaryIp (primaryIpId : String)
  | create (request : ServerRequest) (network : ProviderNetwork)
  | createGuest (request : ServerRequest) (primaryIpId : String) (bootstrap : AllocationId)
  | reboot (serverId : String)
  | powerOff (serverId : String)
  | powerOn (serverId : String)
  | enableBackup (serverId : String)
  | resize (serverId serverType : String)
  | destroy (serverId : String)
  deriving DecidableEq, Repr

namespace ProviderCommand

/-- `isServerCreateCommand`. -/
def isServerCreate : ProviderCommand → Bool
  | create .. => true
  | createGuest .. => true
  | _ => false

/-- `command.kind === 'create_primary_ip'`. -/
def isIpCreate : ProviderCommand → Bool
  | createPrimaryIp .. => true
  | _ => false

/-- `resourceKind`. -/
def resourceKind : ProviderCommand → ResourceKind
  | createPrimaryIp .. => .primaryIp
  | deletePrimaryIp _ => .primaryIp
  | _ => .server

/-- `command.labels`, where the command has them. -/
def labels? : ProviderCommand → Option Labels
  | createPrimaryIp _ _ labels => some labels
  | create request _ => some request.labels
  | createGuest request _ _ => some request.labels
  | _ => none

/-- `'serverId' in command`. -/
def serverId? : ProviderCommand → Option String
  | reboot serverId => some serverId
  | powerOff serverId => some serverId
  | powerOn serverId => some serverId
  | enableBackup serverId => some serverId
  | resize serverId _ => some serverId
  | destroy serverId => some serverId
  | _ => none

/-- The exact resource that a command on an existing resource names. -/
def target? (command : ProviderCommand) : Option ResourceRef :=
  match command with
  | deletePrimaryIp primaryIpId => some ⟨.primaryIp, primaryIpId⟩
  | _ => command.serverId?.map fun serverId => ⟨.server, serverId⟩

/-- The exact resource that a deletion deletes. -/
def deletes? : ProviderCommand → Option ResourceRef
  | destroy serverId => some ⟨.server, serverId⟩
  | deletePrimaryIp primaryIpId => some ⟨.primaryIp, primaryIpId⟩
  | _ => none

/-- The command creates a server or an address. -/
def isCreation (command : ProviderCommand) : Bool := command.isServerCreate || command.isIpCreate

/-- The exact deletion of a resource. -/
def deletion : ResourceRef → ProviderCommand
  | ⟨.server, id⟩ => destroy id
  | ⟨.primaryIp, id⟩ => deletePrimaryIp id

@[simp] theorem deletion_deletes? (ref : ResourceRef) : (deletion ref).deletes? = some ref := by
  obtain ⟨kind, id⟩ := ref
  cases kind <;> rfl

@[simp] theorem deletion_isCreation (ref : ResourceRef) : (deletion ref).isCreation = false := by
  obtain ⟨kind, id⟩ := ref
  cases kind <;> rfl

@[simp] theorem deletion_resourceKind (ref : ResourceRef) :
    (deletion ref).resourceKind = ref.kind := by
  obtain ⟨kind, id⟩ := ref
  cases kind <;> rfl

/-- A deletion is the deletion of its target, and of nothing else. -/
theorem deletes?_eq_some {command : ProviderCommand} {ref : ResourceRef} :
    command.deletes? = some ref ↔ command = deletion ref := by
  constructor
  · intro h
    cases command <;> simp only [deletes?, Option.some.injEq, reduceCtorEq] at h
    · subst h; rfl
    · subst h; rfl
  · rintro rfl
    exact deletion_deletes? ref

theorem target?_of_deletes {command : ProviderCommand} {ref : ResourceRef}
    (h : command.deletes? = some ref) : command.target? = some ref := by
  rw [deletes?_eq_some] at h
  subst h
  obtain ⟨kind, id⟩ := ref
  cases kind <;> rfl

/-- A command that names a resource names one of its kind. -/
theorem resourceKind_of_target {command : ProviderCommand} {ref : ResourceRef}
    (h : command.target? = some ref) : command.resourceKind = ref.kind := by
  cases command <;> simp_all [target?, serverId?, resourceKind] <;> subst h <;> rfl

end ProviderCommand

/-! ## Receipts -/

inductive Submission where
  | accepted (resource : ResourceRef) (actionId : String)
  | completed (resource : ResourceRef)
  | rejected (error : Failure)
  | unknown (reason : String)
  deriving DecidableEq, Repr

/-- The resource that a receipt names. -/
def Submission.resource? : Submission → Option ResourceRef
  | accepted resource _ => some resource
  | completed resource => some resource
  | _ => none

/-- `attemptOutcomeSchema`: nothing received yet, or a receipt. -/
inductive AttemptOutcome where
  | prepared
  | received (submission : Submission)
  deriving DecidableEq, Repr

namespace AttemptOutcome

/-- `outcome.kind === 'prepared' || outcome.kind === 'unknown'`. -/
def uncertain : AttemptOutcome → Bool
  | prepared => true
  | received (.unknown _) => true
  | _ => false

/-- `outcome.kind === 'rejected'`. -/
def rejected : AttemptOutcome → Bool
  | received (.rejected _) => true
  | _ => false

/-- The action that an accepted effect runs as. -/
def actionId? : AttemptOutcome → Option String
  | received (.accepted _ actionId) => some actionId
  | _ => none

theorem rejected_of_uncertain {outcome : AttemptOutcome} (h : outcome.uncertain = true) :
    outcome.rejected = false := by
  cases outcome with
  | prepared => rfl
  | received submission => cases submission <;> simp_all [uncertain, rejected]

end AttemptOutcome

inductive ProviderAction where
  | running
  | succeeded
  | failed (error : Failure)
  deriving DecidableEq, Repr

/-! ## Observations -/

structure ProviderServer where
  id : String
  serverType : String
  region : String
  power : Power
  labels : Labels
  primaryIpId : Option String
  backupStatus : BackupStatus
  deriving DecidableEq, Repr

inductive Assignment where
  | unassigned
  | server (serverId : String)
  deriving DecidableEq, Repr

structure ProviderPrimaryIp where
  id : String
  region : String
  labels : Labels
  autoDelete : Bool
  assignment : Assignment
  deriving DecidableEq, Repr

inductive ResourceObservation where
  | server (server : ProviderServer)
  | primaryIp (primaryIp : ProviderPrimaryIp)
  | absent (resource : ResourceRef)
  deriving DecidableEq, Repr

inductive EffectResolution where
  | pending
  | confirmed (observation : ResourceObservation)
  | failed (error : Failure)
  | operatorClosed (recoveryId : String)
  | controlClosed (recoveryId : String)
  deriving DecidableEq, Repr

/-- Nothing more is to be learnt about the effect. -/
def EffectResolution.settled : EffectResolution → Bool
  | pending => false
  | _ => true

@[simp] theorem EffectResolution.settled_eq_false {resolution : EffectResolution} :
    resolution.settled = false ↔ resolution = .pending := by
  cases resolution <;> simp [settled]

@[simp] theorem EffectResolution.settled_eq_true {resolution : EffectResolution} :
    resolution.settled = true ↔ resolution ≠ .pending := by
  cases resolution <;> simp [settled]

end Lifecycle

end AgentCloud
