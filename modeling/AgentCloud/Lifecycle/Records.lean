/-
  THE JOURNAL OF A MACHINE: the rows that the lifecycle of one machine is recorded in.

  `Journal` is the part of the tables that belongs to one machine: its record, its one allocation
  (the reservation), its operations, the provider attempts of each, the ledger of resources owned
  by the allocation, the admitted cleanups, and the decisions of operator and control recovery.
  Columns that a foreign key makes equal to the machine's (account, project, machine, allocation)
  are not repeated in the rows; an operation's `kind` is that of its command, from which it is
  computed at admission.  Rows stand in the order of their insertion, which is the order of
  `created_at`: the clock of the database is part of the store and does not go back.

  What a transaction reads outside the journal is its `Env`: grants, the account's row, the live
  allocations of the other machines, resources bound elsewhere, the image pin.  It is chosen anew
  at each transaction.

  A state digest stands for the values it digests (`Snapshot`); earlier decisions enter it by
  their identifier and content, without the digests inside them.
-/
import AgentCloud.Lifecycle.Provider
import AgentCloud.Lib.Durable
import AgentCloud.Lib.Table
import AgentCloud.Auth

namespace AgentCloud.Lifecycle

open Checked Durable

abbrev RecoveryId := String

/-! ## Operations -/

structure MachineSpec where
  name : String
  size : Size
  region : Region
  deriving DecidableEq, Repr

inductive OperationKind where
  | create
  | reboot
  | powerOff
  | powerOn
  | resize
  | destroy
  deriving DecidableEq, Repr

/-- `lifecycleCommandSchema`. -/
inductive LifecycleCommand where
  | create (spec : MachineSpec)
  | reboot (expectedVersion : Nat)
  | powerOff (expectedVersion : Nat)
  | powerOn (expectedVersion : Nat)
  | resize (expectedVersion : Nat) (size : Size)
  | destroy (expectedVersion : Nat) (allowDataLoss : Bool)
  deriving DecidableEq, Repr

def LifecycleCommand.kind : LifecycleCommand → OperationKind
  | create _ => .create
  | reboot _ => .reboot
  | powerOff _ => .powerOff
  | powerOn _ => .powerOn
  | resize .. => .resize
  | destroy .. => .destroy

/-- `command->'allowDataLoss' = 'true'`. -/
def LifecycleCommand.allowsDataLoss : LifecycleCommand → Bool
  | destroy _ allowDataLoss => allowDataLoss
  | _ => false

inductive OperationIntent where
  | run
  | compensate (error : Failure)
  | cleanup (sourceOperationId : OperationId)
  deriving DecidableEq, Repr

inductive GuestStage where
  | enrollment
  | runtime
  deriving DecidableEq, Repr

inductive BlockedReason where
  | providerOutcomeUnknown
  | duplicateProviderResources
  | providerResourceMismatch
  | guestUnreachable
  | guestIdentityMismatch
  | guestDeadlineExceeded
  | guestSigningExhausted
  | cleanupRetryExhausted
  deriving DecidableEq, Repr

inductive OperationProgress where
  | queued
  | submitting (attemptId : AttemptId)
  | waitingProvider (attemptId : AttemptId) (actionId : String) (resource : ResourceRef)
  | cleaningUp
  | verifying (resource : ResourceRef)
  | waitingGuest (serverId : String) (stage : GuestStage)
  | blocked (reason : BlockedReason)
  | succeeded (completedAt : Instant)
  | cancelled (completedAt : Instant)
  | failed (completedAt : Instant) (error : Failure)
  deriving DecidableEq, Repr

/-- `succeeded`, `failed` and `cancelled`. -/
def OperationProgress.terminal : OperationProgress → Bool
  | succeeded _ => true
  | cancelled _ => true
  | failed .. => true
  | _ => false

/-- `progress->>'kind' IN ('succeeded','failed')`. -/
def OperationProgress.concluded : OperationProgress → Bool
  | succeeded _ => true
  | failed .. => true
  | _ => false

structure OperationRow where
  id : OperationId
  grantId : GrantId
  command : LifecycleCommand
  offer : Option CatalogItem
  intent : OperationIntent
  progress : OperationProgress
  createdAt : Instant
  deriving DecidableEq, Repr

namespace OperationRow

def kind (operation : OperationRow) : OperationKind := operation.command.kind

/-- `isOperationTerminal`. -/
def terminal (operation : OperationRow) : Bool := operation.progress.terminal

/-- `operation.intent.kind === 'cleanup'`. -/
def isCleanup (operation : OperationRow) : Bool :=
  match operation.intent with
  | .cleanup _ => true
  | _ => false

/-- `created_at + interval '30 minutes' <= now()`. -/
def expired (operation : OperationRow) (now : Instant) : Bool :=
  decide (operation.createdAt + 1800000 ≤ now)

end OperationRow

/-! ## Attempts and resources -/

structure Attempt where
  id : AttemptId
  operationId : OperationId
  sequence : Nat
  command : ProviderCommand
  outcome : AttemptOutcome
  resolution : EffectResolution
  createdAt : Instant
  deriving DecidableEq, Repr

namespace Attempt

/-- `resolution.kind === 'pending'`. -/
def pending (attempt : Attempt) : Bool := !attempt.resolution.settled

/-- An uncertain or accepted create that may have a resource behind it. -/
def mayExist (attempt : Attempt) : Bool := !attempt.outcome.rejected

@[simp] theorem pending_eq_true {attempt : Attempt} :
    attempt.pending = true ↔ attempt.resolution = .pending := by
  simp [pending]

@[simp] theorem pending_eq_false {attempt : Attempt} :
    attempt.pending = false ↔ attempt.resolution ≠ .pending := by
  simp [pending]

end Attempt

structure OwnedResource where
  ref : ResourceRef
  labels : Labels
  absentAt : Option Instant
  createdAt : Instant
  deriving DecidableEq, Repr

/-- `!row.absentAt`. -/
def OwnedResource.live (resource : OwnedResource) : Bool := resource.absentAt.isNone

structure OperationCleanup where
  operationId : OperationId
  sourceOperationId : OperationId
  grantId : GrantId
  expectedVersion : Nat
  createdAt : Instant
  deriving DecidableEq, Repr

/-! ## The machine and its allocation -/

structure MachineRow where
  id : MachineId
  accountId : AccountId
  projectId : ProjectId
  spec : MachineSpec
  provider : ProviderKind
  state : MachineState
  version : Nat
  deriving DecidableEq, Repr

structure Allocation where
  id : AllocationId
  provider : ProviderKind
  serverId : Option String
  networkProfile : NetworkProfile
  currency : String
  hourlyMicros : Micros
  offer : CatalogItem
  retiredAt : Option Instant
  deriving DecidableEq, Repr

/-- `retiredAt IS NULL`. -/
def Allocation.live (allocation : Allocation) : Bool := allocation.retiredAt.isNone

/-! ## Operator recoveries -/

inductive RecoveryKind where
  | closeCreate (resourceIds : List String)
  | retryDelete
  deriving DecidableEq, Repr

structure RecoveryMark where
  id : RecoveryId
  operationId : OperationId
  attemptId : AttemptId
  kind : RecoveryKind
  deriving DecidableEq, Repr

/-- What `state` of the operator recovery reads, which its digest stands for. -/
structure Snapshot where
  authority : OperationCleanup
  operation : OperationRow
  allocation : Allocation
  attempts : List Attempt
  resources : List OwnedResource
  recoveries : List RecoveryMark
  deriving DecidableEq, Repr

structure Evidence where
  reference : String
  sha256 : String
  deriving DecidableEq, Repr

/-- The length of a string as the language of the schemas counts it. -/
def utf16Length (text : String) : Nat :=
  text.toList.foldl (fun length c => length + if c.toNat < 65536 then 1 else 2) 0

/-- `^[0-9a-f]{64}$`. -/
def isDigest (text : String) : Bool :=
  decide (text.length = 64) &&
    text.toList.all fun c => c.isDigit || ['a', 'b', 'c', 'd', 'e', 'f'].contains c

/-- `^[a-zA-Z0-9@._+-]{1,100}$`. -/
def isOperator (text : String) : Bool :=
  decide (1 ≤ text.length ∧ text.length ≤ 100) &&
    text.toList.all fun c => c.isAlphanum || ['@', '.', '_', '+', '-'].contains c

/-- `operatorRecoverySchema`. -/
structure OperatorRecovery where
  id : RecoveryId
  accountId : AccountId
  allocationId : AllocationId
  operationId : OperationId
  attemptId : AttemptId
  expectedState : Snapshot
  operator : String
  evidence : Evidence
  kind : RecoveryKind
  named : isOperator operator = true
  digested : isDigest evidence.sha256 = true
  referenced : 1 ≤ utf16Length evidence.reference ∧ utf16Length evidence.reference ≤ 256
  unique : ∀ ids, kind = .closeCreate ids → ids.Nodup
  deriving DecidableEq

structure RecoveryRow where
  id : RecoveryId
  operationId : OperationId
  attemptId : AttemptId
  request : OperatorRecovery
  deriving DecidableEq

def RecoveryRow.mark (row : RecoveryRow) : RecoveryMark :=
  ⟨row.id, row.operationId, row.attemptId, row.request.kind⟩

/-- A `close_operation` decision of control recovery. -/
structure ControlClosure where
  id : RecoveryId
  operationId : OperationId
  recoveryId : RecoveryId
  deriving DecidableEq, Repr

/-! ## The journal -/

structure Journal where
  machine : MachineRow
  allocation : Allocation
  operations : List OperationRow
  attempts : List Attempt
  resources : List OwnedResource
  cleanups : List OperationCleanup
  recoveries : List RecoveryRow
  closures : List ControlClosure
  deriving DecidableEq

namespace Journal

def operation (journal : Journal) (id : OperationId) : Option OperationRow :=
  Table.get OperationRow.id journal.operations id

def attempt (journal : Journal) (id : AttemptId) : Option Attempt :=
  Table.get Attempt.id journal.attempts id

def resource (journal : Journal) (ref : ResourceRef) : Option OwnedResource :=
  Table.get OwnedResource.ref journal.resources ref

/-- The cleanup that an operation executes. -/
def cleanup (journal : Journal) (operationId : OperationId) : Option OperationCleanup :=
  Table.get OperationCleanup.operationId journal.cleanups operationId

/-- `SELECT ... FROM provider_attempts WHERE operation_id = id ORDER BY sequence`. -/
def history (journal : Journal) (id : OperationId) : List Attempt :=
  journal.attempts.filter fun attempt => attempt.operationId = id

/-- The attempts of a cleanup: its own and those of its source, oldest first. -/
def cleanupHistory (journal : Journal) (cleanup : OperationCleanup) : List Attempt :=
  journal.attempts.filter fun attempt =>
    attempt.operationId = cleanup.operationId ∨ attempt.operationId = cleanup.sourceOperationId

/-- The resources that are not recorded absent. -/
def liveResources (journal : Journal) : List OwnedResource :=
  journal.resources.filter OwnedResource.live

/-- The operation that is not terminal. -/
def active (journal : Journal) : Option OperationRow :=
  journal.operations.find? fun operation => !operation.terminal

/-- Some operation is not terminal. -/
def busy (journal : Journal) : Bool := journal.active.isSome

/-- `cleanup_settled`: no effect of the cleanup is pending and no resource is left. -/
def settled (journal : Journal) (cleanup : OperationCleanup) : Bool :=
  (journal.cleanupHistory cleanup).all (fun attempt => !attempt.pending) &&
    journal.resources.all fun resource => !resource.live

/-- `cleanup_delete_limit`: three, and one for each retry granted for exactly this deletion. -/
def deleteLimit (journal : Journal) (cleanupId : OperationId) (command : ProviderCommand) : Nat :=
  3 + (journal.recoveries.filter fun row => row.operationId = cleanupId ∧
    row.request.kind = .retryDelete ∧
    (journal.attempt row.attemptId).any fun attempt => attempt.command = command).length

end Journal

/-! ## The interface of the workers -/

structure Account where
  id : AccountId
  currency : String
  maxMachines : Nat
  maxHourlyMicros : Micros
  deriving DecidableEq, Repr

/-- What the limits see of a live allocation. -/
structure Reservation where
  accountId : AccountId
  currency : String
  hourlyMicros : Micros
  deriving DecidableEq, Repr

/-- `Config['limits']`. -/
structure Limits where
  currency : String
  maxMachines : Nat
  maxHourlyMicros : Micros
  deriving DecidableEq, Repr

structure Env where
  /-- A fresh identifier. -/
  id : String
  /-- `new Date()`, the worker's own clock. -/
  date : Instant
  grants : List Grant
  account : Option Account
  /-- The live allocations of the other machines. -/
  others : List Reservation
  /-- The resource is owned by another allocation. -/
  bound : ResourceRef → Bool
  /-- An image pin refuses the effect, or the platform owns the resource. -/
  refused : Option String
  /-- `guest_identities` holds an issued identity. -/
  identityIssued : Bool
  /-- The control plane is fenced for this recovery. -/
  recovering : Option RecoveryId

structure Store where
  clock : Instant
  journal : Journal

/-- `RuntimeDecision` of the guest readiness check. -/
inductive RuntimeDecision where
  | ready (server : ProviderServer) (verifiedAt : Instant)
      (imageVersion manifestDigest bootId : String)
  | waiting
  | blocked (reason : BlockedReason)
  deriving DecidableEq, Repr

inductive Call where
  | getCatalog
  | submit (attemptId : AttemptId) (command : ProviderCommand)
  | getAction (actionId : String)
  | getServer (serverId : String)
  | findServers (labels : Labels)
  | getPrimaryIp (primaryIpId : String)
  | findPrimaryIps (labels : Labels)
  /-- `guest.resolveImage`. -/
  | resolveImage (allocationId : AllocationId)
  /-- `guest.prepareBootstrap`, which writes rows of its own. -/
  | prepareBootstrap (allocationId : AllocationId) (operationId : OperationId) (image : String)
  /-- The reads of the guest readiness check. -/
  | inspectGuest (operationId : OperationId)
  deriving DecidableEq, Repr

/-- A reply, or what the call throws. -/
def Call.Reply : Call → Type
  | getCatalog => Except Fault Catalog
  | submit .. => Except Fault Submission
  | getAction _ => Except Fault ProviderAction
  | getServer _ => Except Fault (Option ProviderServer)
  | findServers _ => Except Fault (List ProviderServer)
  | getPrimaryIp _ => Except Fault (Option ProviderPrimaryIp)
  | findPrimaryIps _ => Except Fault (List ProviderPrimaryIp)
  | resolveImage _ => Except Fault String
  | prepareBootstrap .. => Except Fault AllocationId
  | inspectGuest _ => Except Fault RuntimeDecision

/-- The call asks for an effect. -/
def Call.isSubmit : Call → Bool
  | submit .. => true
  | _ => false

abbrev interface : Interface where
  Env := Env
  Store := Store
  Call := Call
  Reply := Call.Reply
  Fault := Fault

abbrev Program := Prog interface

/-- A worker reads the journal.  Consecutive reads of a tick are one read here: nobody changes the
    rows of a machine with an active operation while its lock is held. -/
def readJournal : Program Journal := Prog.read (S := interface) fun store => store.journal

def raise {α : Type} (fault : Fault) : Program α := Prog.throw fault

def thrown {α : Type} (reply : Except Fault α) : Program α := Prog.ofExcept reply

/-- A change of the journal alone. -/
def Store.write (store : Store) (journal : Journal) : Store := { store with journal }

@[simp] theorem Store.write_journal (store : Store) (journal : Journal) :
    (store.write journal).journal = journal := rfl
@[simp] theorem Store.write_clock (store : Store) (journal : Journal) :
    (store.write journal).clock = store.clock := rfl

/-- A transaction on the journal. -/
def transact {α : Type} (t : Env → Instant → Journal → Except Fault (α × Journal)) : Program α :=
  Prog.transact (S := interface) fun env store => do
    let (a, journal) ← t env store.clock store.journal
    pure (a, store.write journal)

end AgentCloud.Lifecycle
