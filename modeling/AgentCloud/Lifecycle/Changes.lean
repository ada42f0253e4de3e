/-
  THE CHANGES OF A JOURNAL: everything that any writer of a machine's journal does to it.

  Whatever a worker commits is a chain of the elementary changes below, each with what the writer had
  checked when it wrote.  They are the interface between the two halves of this development: the
  workers are shown to make no other change (`Workers`), and what every run keeps is shown change by
  change (`Invariant` and the modules after it), without looking at a worker again.

  `NextEffect` is what an operation may ask for as its next effect, `Authority` adds the two ways an
  attempt comes to be prepared.  A change that records an absence has an exact read that found
  nothing as its evidence: the latest exchange with the provider, made on the same rows.  Which
  replies of the provider are considered at all is a parameter (`Replies`).
-/
import AgentCloud.Lifecycle.Admission

namespace AgentCloud.Lifecycle

open Checked Durable

/-! ## Exchanges with the provider -/

/-- Everything the provider was asked, oldest first. -/
abbrev Log := List (Exchange interface)

/-- The replies that are considered. -/
abbrev Replies := World interface → Exchange interface → Prop

/-- An exact read that found nothing. -/
def nullRead (ref : ResourceRef) : Exchange interface :=
  match ref.kind with
  | .server => ⟨.getServer ref.id, (.ok none : Except Fault (Option ProviderServer))⟩
  | .primaryIp => ⟨.getPrimaryIp ref.id, (.ok none : Except Fault (Option ProviderPrimaryIp))⟩

/-- The latest exchange is an exact read of the resource, made on these rows, that found nothing. -/
def ReadNull (A : Replies) (log : Log) (journal : Journal) (ref : ResourceRef) : Prop :=
  ∃ v : World interface, v.store.journal = journal ∧ log = v.log ++ [nullRead ref] ∧
    A v (nullRead ref)

/-- The latest reply to a call. -/
def Latest (log : Log) (exchange : Exchange interface) : Prop :=
  ∃ before after, log = before ++ exchange :: after ∧ ∀ later ∈ after, later.call ≠ exchange.call

/-- By the latest reads of the server and of its address, the server's deletion leaves the address
    where it is. -/
def Detached (log : Log) (serverId : String) : Prop :=
  ∃ server : ProviderServer,
    Latest log ⟨.getServer serverId, (.ok (some server) : Except Fault (Option ProviderServer))⟩ ∧
    ∀ ipId, server.primaryIpId = some ipId → ∃ ip : ProviderPrimaryIp, ip.autoDelete = false ∧
      Latest log ⟨.getPrimaryIp ipId, (.ok (some ip) : Except Fault (Option ProviderPrimaryIp))⟩

/-! ## The next effect of an operation -/

/-- The effects that an operation asks for at most once. -/
inductive Once where
  | address
  | server
  | action
  | backup
  | release (primaryIpId : String)
  deriving DecidableEq, Repr

/-- Which of them a command is; a deletion of a server is none. -/
def ProviderCommand.once : ProviderCommand → Option Once
  | createPrimaryIp .. => some .address
  | create .. => some .server
  | createGuest .. => some .server
  | reboot _ => some .action
  | powerOff _ => some .action
  | powerOn _ => some .action
  | resize .. => some .action
  | enableBackup _ => some .backup
  | deletePrimaryIp primaryIpId => some (.release primaryIpId)
  | destroy _ => none

/-- The server type that a command asks for. -/
def ProviderCommand.serverType? : ProviderCommand → Option String
  | create request _ => some request.serverType
  | createGuest request _ _ => some request.serverType
  | resize _ serverType => some serverType
  | _ => none

/-- The commands that an operation asks the provider for. -/
def OperationRow.mayAsk (operation : OperationRow) (command : ProviderCommand) : Bool :=
  match operation.kind, command.once with
  | .create, some .action => false
  | .create, _ => true
  | .destroy, _ => command.deletes?.isSome
  | .resize, some .backup => true
  | _, _ => operation.command.asks command

/-- An operation's next effect, while no cleanup has replaced it. -/
structure NextEffect (journal : Journal) (operation : OperationRow) (command : ProviderCommand) :
    Prop where
  asks : operation.mayAsk command = true
  intent : operation.intent = .run ∨
    (∃ error, operation.intent = .compensate error) ∧ ∃ id, command = .deletePrimaryIp id
  keeps : operation.intent = .run → command.deletes? = none
  labelled : ∀ labels, command.labels? = some labels →
    labels.lookup "operation_id" = some operation.id
  offered : ∀ serverType, command.serverType? = some serverType →
    ∃ offer, operation.offer = some offer ∧ offer.serverType = serverType
  backedUp : command.isEnableBackup = true →
    ∃ offer, operation.offer = some offer ∧ offer.providerBackups ≠ .disabled
  first : ∀ attempt ∈ journal.attempts, attempt.operationId = operation.id →
    attempt.command.once ≠ command.once

/-- Who may have an attempt prepared: the operation itself while nothing of it is pending, or an
    admitted cleanup within the guard of its effects. -/
inductive Authority (journal : Journal) (clock : Instant) (operation : OperationRow)
    (new : Attempt) : Prop where
  | next (uncleaned : journal.cleanups = [])
      (idle : ∀ attempt ∈ journal.attempts, attempt.operationId = operation.id →
        attempt.resolution ≠ .pending)
      (effect : NextEffect journal operation new.command)
  | admitted (cleanup : OperationCleanup) (mem : cleanup ∈ journal.cleanups)
      (executor : cleanup.operationId = operation.id)
      (guarded : guardAdmittedEffect journal clock new = .ok ())

/-! ## Elementary changes -/

/-- Rewrites the row of an operation. -/
def Journal.mapOperation (journal : Journal) (id : OperationId) (f : OperationRow → OperationRow) :
    Journal :=
  { journal with operations := Table.update OperationRow.id journal.operations id f }

/-- Rewrites the row of an attempt. -/
def Journal.mapAttempt (journal : Journal) (id : AttemptId) (f : Attempt → Attempt) : Journal :=
  { journal with attempts := Table.update Attempt.id journal.attempts id f }

/-- Rewrites every resource. -/
def Journal.mapResources (journal : Journal) (f : OwnedResource → OwnedResource) : Journal :=
  { journal with resources := journal.resources.map f }

/-- A row of an operation that is not over. -/
structure Journal.Active (journal : Journal) (operation : OperationRow) : Prop where
  mem : operation ∈ journal.operations
  going : operation.terminal = false

/-- Nothing of the operation is pending. -/
def Journal.Idle (journal : Journal) (operation : OperationRow) : Prop :=
  ∀ attempt ∈ journal.attempts, attempt.operationId = operation.id → attempt.resolution ≠ .pending

/-- What a confirmation shows: a resized server has the type that was asked for. -/
def Confirms (command : ProviderCommand) (resolution : EffectResolution) : Prop :=
  ∀ observation, resolution = .confirmed observation → ∀ serverId serverType,
    command = .resize serverId serverType →
      ∃ server, observation = .server server ∧ server.serverType = serverType

/-- The allocation after a completion. -/
def Allocation.complete (allocation : Allocation) (serverId : String) (offer : Option CatalogItem) :
    Allocation :=
  { allocation with
    serverId := some serverId
    offer := offer.getD allocation.offer
    hourlyMicros := (offer.map CatalogItem.hourlyMicros).getD allocation.hourlyMicros }

/-- A completion prices the allocation as its operation was admitted; that of a resize has seen the
    new type. -/
structure Completion (journal : Journal) (operation : OperationRow) (offer : Option CatalogItem) :
    Prop where
  unpriced : operation.command.priced = false → offer = none
  priced : operation.command.priced = true → offer = operation.offer
  resized : operation.kind = .resize → ∃ attempt ∈ journal.attempts,
    attempt.operationId = operation.id ∧ operation.command.asks attempt.command = true ∧
      ∃ observation, attempt.resolution = .confirmed observation

inductive Change (A : Replies) (log : Log) (clock : Instant) (journal : Journal) : Journal → Prop where
  /-- The operation goes on. -/
  | progress {operation : OperationRow} (active : journal.Active operation)
      (progress : OperationProgress) (going : progress.terminal = false) :
      Change A log clock journal
        (journal.mapOperation operation.id fun row => { row with progress })
  /-- An attempt is recorded before its effect is asked for. -/
  | prepare {operation : OperationRow} (active : journal.Active operation)
      (live : journal.allocation.live = true) (new : Attempt)
      (fresh : journal.attempt new.id = none) (owner : new.operationId = operation.id)
      (prepared : new.outcome = .prepared) (pending : new.resolution = .pending)
      (now : new.createdAt = clock)
      (target : ∀ ref, new.command.target? = some ref →
        (journal.resource ref).any OwnedResource.live = true)
      (authority : Authority journal clock operation new) :
      Change A log clock journal { journal with attempts := journal.attempts ++ [new] }
  /-- The receipt is recorded, before anything was claimed by it. -/
  | outcome {attempt : Attempt} (mem : attempt ∈ journal.attempts)
      (prepared : attempt.outcome = .prepared) (submission : Submission)
      (unclaimed : attempt.command.isCreation = true →
        ∀ resource ∈ journal.resources, resource.ref.kind ≠ attempt.command.resourceKind) :
      Change A log clock journal
        (journal.mapAttempt attempt.id fun row => { row with outcome := .received submission })
  /-- A resource is claimed for the create that it carries the labels of. -/
  | claim {operation : OperationRow} (active : journal.Active operation) {attempt : Attempt}
      (mem : attempt ∈ journal.attempts) (creation : attempt.command.isCreation = true)
      (mayExist : attempt.mayExist = true) (ref : ResourceRef) (labels : Labels)
      (kind : ref.kind = attempt.command.resourceKind)
      (labelled : attempt.command.labels? = some labels) (new : journal.resource ref = none) :
      Change A log clock journal
        { journal with resources := journal.resources ++ [⟨ref, labels, none, clock⟩] }
  /-- The allocation points at its server. -/
  | bind {operation : OperationRow} (active : journal.Active operation) {resource : OwnedResource}
      (mem : resource ∈ journal.resources) (live : resource.live = true) :
      Change A log clock journal
        { journal with allocation := { journal.allocation with serverId := some resource.ref.id } }
  /-- A resource is recorded absent, after an exact read that found nothing. -/
  | absent {operation : OperationRow} (active : journal.Active operation) (ref : ResourceRef)
      (date : Instant) (read : ReadNull A log journal ref) :
      Change A log clock journal
        (journal.mapResources fun row =>
          if row.ref = ref ∧ row.live = true then { row with absentAt := some date } else row)
  /-- An attempt is settled. -/
  | settle {operation : OperationRow} (active : journal.Active operation) {attempt : Attempt}
      (mem : attempt ∈ journal.attempts) (pending : attempt.resolution = .pending)
      (resolution : EffectResolution) (settled : resolution.settled = true)
      (provider : ∀ id, resolution ≠ .operatorClosed id)
      (confirms : Confirms attempt.command resolution) :
      Change A log clock journal (journal.mapAttempt attempt.id fun row => { row with resolution })
  /-- A create that cannot have a server is undone. -/
  | compensate {operation : OperationRow} (active : journal.Active operation)
      (create : operation.kind = .create) (run : operation.intent = .run) (error : Failure)
      (unserved : ∀ attempt ∈ journal.attempts, attempt.command.isServerCreate = true →
        attempt.mayExist = false) :
      Change A log clock journal
        (journal.mapOperation operation.id fun row => { row with intent := .compensate error })
  /-- The operation fails; its allocation is retired only where nothing of it is left. -/
  | failed {operation : OperationRow} (active : journal.Active operation)
      (uncleaned : operation.isCleanup = false) (idle : journal.Idle operation) (date : Instant)
      (error : Failure) (machine : MachineRow)
      (provider : machine.provider = journal.machine.provider)
      (standing : machine.state.stage ≠ 4) (retiredAt : Option Instant)
      (vacant : retiredAt ≠ journal.allocation.retiredAt → operation.kind = .create ∧
        ∀ resource ∈ journal.resources, resource.live = false) :
      Change A log clock journal
        { journal.mapOperation operation.id fun row =>
            { row with progress := .failed date error } with
          machine
          allocation := { journal.allocation with retiredAt } }
  /-- The operation succeeds. -/
  | completed {operation : OperationRow} (active : journal.Active operation)
      (run : operation.intent = .run) (kept : operation.kind ≠ .destroy)
      (idle : journal.Idle operation) (date : Instant) (machine : MachineRow)
      (provider : machine.provider = journal.machine.provider)
      (standing : machine.state.stage ≠ 4) (serverId : String) (offer : Option CatalogItem)
      (completion : Completion journal operation offer) :
      Change A log clock journal
        { journal.mapOperation operation.id fun row => { row with progress := .succeeded date } with
          machine
          allocation := journal.allocation.complete serverId offer }
  /-- A cleanup ends and retires the allocation. -/
  | cleaned {operation : OperationRow} (active : journal.Active operation)
      {cleanup : OperationCleanup} (mem : cleanup ∈ journal.cleanups)
      (executor : cleanup.operationId = operation.id) (settled : journal.settled cleanup = true)
      (date : Instant) (machine : MachineRow)
      (provider : machine.provider = journal.machine.provider) :
      Change A log clock journal
        { journal.mapOperation operation.id fun row =>
            { row with progress := cleanupEnd operation.kind date } with
          machine
          allocation := { journal.allocation with retiredAt := some date } }
  /-- A cleanup takes over the create that is still active. -/
  | takeover {operation : OperationRow} (active : journal.Active operation)
      (create : operation.kind = .create) (uncleaned : operation.isCleanup = false)
      (live : journal.allocation.live = true) (grantId : GrantId) (version : Nat)
      (machine : MachineRow) (provider : machine.provider = journal.machine.provider)
      (state : machine.state = journal.machine.state) :
      Change A log clock journal
        { journal.mapOperation operation.id fun row =>
            { row with intent := .cleanup operation.id, progress := .cleaningUp } with
          machine
          cleanups := journal.cleanups ++ [⟨operation.id, operation.id, grantId, version, clock⟩] }
  /-- A cleanup is admitted as an operation of its own. -/
  | opened {source : OperationRow} (mem : source ∈ journal.operations)
      (create : source.kind = .create) (free : journal.busy = false)
      (live : journal.allocation.live = true) (id : OperationId)
      (fresh : journal.operation id = none) (grantId : GrantId) (version : Nat)
      (machine : MachineRow) (provider : machine.provider = journal.machine.provider)
      (state : machine.state = journal.machine.state) :
      Change A log clock journal
        { journal with
          machine
          operations := journal.operations ++ [⟨id, grantId, .destroy version true, none,
            .cleanup source.id, .cleaningUp, clock⟩]
          cleanups := journal.cleanups ++ [⟨id, source.id, grantId, version, clock⟩] }
  /-- An operator grants one more deletion. -/
  | granted (row : RecoveryRow) (kind : row.request.kind = .retryDelete)
      (inserted : insertRecovery journal row =
        .ok { journal with recoveries := journal.recoveries ++ [row] }) :
      Change A log clock journal { journal with recoveries := journal.recoveries ++ [row] }
  /-- An operator closes an uncertain create. -/
  | closure {operation : OperationRow} (active : journal.Active operation) (row : RecoveryRow)
      (ids : List String) (kind : row.request.kind = .closeCreate ids)
      (inserted : insertRecovery journal row =
        .ok { journal with recoveries := journal.recoveries ++ [row] })
      {attempt : Attempt} (mem : attempt ∈ journal.attempts) (target : row.attemptId = attempt.id)
      (pending : attempt.resolution = .pending) :
      Change A log clock journal
        { journal.mapAttempt attempt.id fun attempt =>
            { attempt with resolution := .operatorClosed row.id } with
          recoveries := journal.recoveries ++ [row] }
  /-- Control recovery closes an operation. -/
  | controlClosed {operation : OperationRow} (active : journal.Active operation)
      (closure : ControlClosure) (machine : MachineRow)
      (provider : machine.provider = journal.machine.provider) :
      Change A log clock journal
        { machine
          allocation := { journal.allocation with retiredAt := some clock }
          operations := Table.update OperationRow.id journal.operations operation.id fun row =>
            { row with
              progress := if operation.kind = .destroy then .succeeded clock else .cancelled clock }
          attempts := journal.attempts.map fun attempt =>
            if attempt.operationId = operation.id ∧ attempt.resolution = .pending then
              { attempt with resolution := .controlClosed closure.id }
            else attempt
          resources := journal.resources.map fun row =>
            if row.live = true then { row with absentAt := some clock } else row
          cleanups := journal.cleanups
          recoveries := journal.recoveries
          closures := journal.closures ++ [closure] }

end AgentCloud.Lifecycle
