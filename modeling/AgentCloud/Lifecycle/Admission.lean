/-
  ADMISSION: how operations get into the journal.

  `admitAction` is the part of `admit` that reads and writes the journal of an existing machine, and
  `openCleanup` that of `admitCleanup`, each after the replay of its idempotency key was ruled out.
  `admitAction` runs under the locks of admission, not under the machine's: it finds no active
  operation or refuses.  `admitCleanup` takes the machine's lock as well, and may take over a create
  that is still active.

  `assertReservation` is the one check of the machine and price limits; admission raises a
  reservation only after it.
-/
import AgentCloud.Lifecycle.Recovery

namespace AgentCloud.Lifecycle

open Checked Durable

/-! ## The limits -/

/-- `assertReservation`: one more machine or price, within the account's and the global limits. -/
def assertReservation (limits : Limits) (account : Account) (principal : Principal)
    (active : List Reservation) (additionalMachines : Nat) (additionalPrice : Micros)
    (currency : String) : Except Fault Unit := do
  refuse (account.currency ≠ currency ∨ principal.policy.currency ≠ currency ∨
      limits.currency ≠ currency ∨ (active.any fun row => row.currency ≠ currency))
    (cloudError .budgetExceeded
      "Provider, account, credential, and active reservations must use the configured currency.")
  let mine := owned principal.accountId active
  refuse (min account.maxMachines principal.policy.maxMachines < mine.length + additionalMachines ∨
      limits.maxMachines < active.length + additionalMachines)
    (cloudError .quotaExceeded
      "Active machines and pending reservations exceed the machine limit.")
  refuse (min account.maxHourlyMicros principal.policy.maxHourlyMicros <
        reserved mine + additionalPrice ∨
      limits.maxHourlyMicros < reserved active + additionalPrice)
    (cloudError .budgetExceeded
      "This operation exceeds the configured hourly provider budget.")

/-- `quote`: the offer of the catalog as it is now. -/
def quoteOffer (catalog : Catalog) (provider : ProviderKind) (size : Size) (region : Region)
    (date : Instant) : Except Fault CatalogItem := do
  refuse (catalog.provider ≠ provider)
    (cloudError .providerUnavailable "Catalog belongs to another provider.")
  selectOffer catalog size region date

/-! ## Creating a machine -/

/-- The rows of a new machine: its reservation, and its queued create. -/
def newJournal (machineId : MachineId) (allocationId : AllocationId) (operationId : OperationId)
    (principal : Principal) (projectId : ProjectId) (spec : MachineSpec) (provider : ProviderKind)
    (offer : CatalogItem) (date : Instant) : Journal :=
  { machine := ⟨machineId, principal.accountId, projectId, spec, provider,
      .provisioning allocationId, 1⟩
    allocation :=
      { id := allocationId
        provider
        serverId := none
        networkProfile := .managedIpv4
        currency := offer.currency
        hourlyMicros := offer.hourlyMicros
        offer
        retiredAt := none }
    operations := [⟨operationId, principal.grantId, .create spec, some offer, .run, .queued, date⟩]
    attempts := []
    resources := []
    cleanups := []
    recoveries := []
    closures := [] }

/-! ## Actions -/

/-- The expected version of an action. -/
def LifecycleCommand.expectedVersion? : LifecycleCommand → Option Nat
  | create _ => none
  | reboot version => some version
  | powerOff version => some version
  | powerOn version => some version
  | resize version _ => some version
  | destroy version _ => some version

def anotherActive : Fault :=
  cloudError .resourceBusy "Another operation is still active on this machine."

/-- The machine is allocated and off. -/
def poweredOff (state : MachineState) : Bool :=
  match state with
  | .allocated _ _ power _ _ => decide (power = .off)
  | _ => false

/-- The reservation of a resize: the larger price, until the actual size is observed. -/
def reserveResize (limits : Limits) (catalog : Catalog) (env : Env) (journal : Journal)
    (account : Account) (principal : Principal) (size : Size) :
    Except Fault (CatalogItem × Journal) := do
  refuse (poweredOff journal.machine.state = false)
    (cloudError .resourceBusy "Power off the machine before resizing.")
  let offer ← quoteOffer catalog journal.machine.provider size journal.machine.spec.region env.date
  refuse (offer.architecture ≠ journal.allocation.offer.architecture)
    (cloudError .invalidInput "Resizing cannot change CPU architecture.")
  refuse (offer.diskGb < journal.allocation.offer.diskGb)
    (cloudError .invalidInput "Disk shrinking is not supported.")
  let larger := max journal.allocation.hourlyMicros offer.hourlyMicros
  assertReservation limits account principal (env.others ++ journal.reservation) 0
    (larger - journal.allocation.hourlyMicros) offer.currency
  let journal ← updateAllocation journal fun allocation => { allocation with hourlyMicros := larger }
  pure (offer, journal)

/-- What an action reserves. -/
def reserve (limits : Limits) (catalog : Catalog) (env : Env) (journal : Journal)
    (account : Account) (principal : Principal) :
    LifecycleCommand → Except Fault (Option CatalogItem × Journal)
  | .resize _ size => do
    let (offer, journal) ← reserveResize limits catalog env journal account principal size
    pure (some offer, journal)
  | _ => pure (none, journal)

/-- The part of `admit` for a reboot, a power command or a resize. -/
def admitAction (limits : Limits) (catalog : Catalog) (env : Env) (journal : Journal)
    (account : Account) (principal : Principal) (command : LifecycleCommand) :
    Except Fault (OperationRow × Journal) := do
  refuse (journal.machine.accountId ≠ principal.accountId)
    (cloudError .notFound "Machine not found.")
  authorizeCommand principal journal.machine.projectId command
  refuse (command.expectedVersion? ≠ some journal.machine.version)
    (cloudError .versionConflict
      "Machine changed; inspect its current version before retrying.")
  refuse (journal.busy = true) anotherActive
  refuse (journal.allocation.live = false ∨ journal.allocation.serverId = none ∨
      journal.machine.state.stage = 4)
    (cloudError .resourceBusy "Machine has no confirmed live provider allocation.")
  let (offer, journal) ← reserve limits catalog env journal account principal command
  let operation : OperationRow :=
    ⟨env.id, principal.grantId, command, offer, .run, .queued, env.date⟩
  let journal ← insertOperation
    { journal with machine := { journal.machine with version := journal.machine.version + 1 } }
    operation
  pure (operation, journal)

/-! ## Destroying -/

/-- Who may destroy: the owner, with both capabilities and explicit consent. -/
def authorizeCleanup (principal : Principal) (journal : Journal) (allowDataLoss : Bool) :
    Except Fault Unit := do
  refuse (journal.machine.accountId ≠ principal.accountId)
    (cloudError .notFound "Machine not found.")
  authorize principal .machineDestroy (some journal.machine.projectId)
  refuse (allowDataLoss = false)
    (cloudError .dataLossNotAuthorized "Destroy requires explicit allowDataLoss: true.")
  authorize principal .machineDestroyDataLoss (some journal.machine.projectId)

/-- The original create of the machine. -/
def Journal.source (journal : Journal) : Option OperationRow :=
  journal.operations.find? fun operation => operation.kind = .create

/-- The cleanup's operation: the active create itself, or a new destroy. -/
def placeCleanup (env : Env) (now : Instant) (journal : Journal) (active : Option OperationRow)
    (sourceId : OperationId) (grantId : GrantId) (expectedVersion : Nat) :
    Except Fault (OperationRow × Journal) :=
  match active with
  | some create => do
    let journal ← updateOperation journal create.id fun row =>
      { row with intent := .cleanup sourceId, progress := .cleaningUp }
    pure ({ create with intent := .cleanup sourceId, progress := .cleaningUp }, journal)
  | none => do
    let operation : OperationRow := ⟨env.id, grantId, .destroy expectedVersion true, none,
      .cleanup sourceId, .cleaningUp, now⟩
    let journal ← insertOperation journal operation
    pure (operation, journal)

/-- A new cleanup, bound to the allocation and its original create. -/
def startCleanup (env : Env) (now : Instant) (journal : Journal) (active : Option OperationRow)
    (sourceId : OperationId) (grantId : GrantId) (expectedVersion : Nat) :
    Except Fault (OperationRow × Journal) := do
  let (operation, journal) ←
    placeCleanup env now journal active sourceId grantId expectedVersion
  let journal ← insertCleanup journal ⟨operation.id, sourceId, grantId, expectedVersion, now⟩
  pure (operation, { journal with
    machine := { journal.machine with version := journal.machine.version + 1 } })

/-- The operation that a destroy finds active, if it may take over or join it. -/
def replaceable (active : Option OperationRow) : Bool :=
  active.all fun operation => decide (operation.kind = .create) || operation.isCleanup

/-- The part of `admitCleanup` after its replay check. -/
def openCleanup (env : Env) (now : Instant) (journal : Journal) (grantId : GrantId)
    (expectedVersion : Nat) : Except Fault (OperationRow × Journal) := do
  refuse (journal.machine.version ≠ expectedVersion)
    (cloudError .versionConflict
      "Machine changed; inspect its current version before retrying.")
  refuse (journal.allocation.live = false ∨ journal.machine.state.stage = 4)
    (cloudError .resourceBusy "Machine has no live allocation to clean.")
  refuse (replaceable journal.active = false) anotherActive
  let source ← present journal.source
    (cloudError .internalError "Allocation has no source create operation.")
  match journal.active.filter OperationRow.isCleanup with
  | some operation => pure (operation, journal)
  | none => startCleanup env now journal journal.active source.id grantId expectedVersion

/-- `admitCleanup` of a fresh key, in its transaction. -/
def cleanupJournal (env : Env) (now : Instant) (journal : Journal) (grantId : GrantId)
    (expectedVersion : Nat) (allowDataLoss : Bool) : Except Fault (OperationRow × Journal) := do
  let authority ← loadAuthority env.grants now grantId
  authorizeCleanup authority.principal journal allowDataLoss
  openCleanup env now journal authority.principal.grantId expectedVersion

/-- `admitCleanup`, under the machine's lock. -/
def admitCleanup (grantId : GrantId) (expectedVersion : Nat) (allowDataLoss : Bool) :
    Program Unit :=
  transact fun env now journal => do
    let (_, journal) ← cleanupJournal env now journal grantId expectedVersion allowDataLoss
    pure ((), journal)

end AgentCloud.Lifecycle
