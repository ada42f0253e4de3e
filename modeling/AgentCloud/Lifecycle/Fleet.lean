/-
  THE FLEET: all machines of the control plane, and the two admissions that span them.

  Each machine has a control plane of its own (`Machine`), whose worker holds its lock.  What the
  machines share are the limits, the idempotency keys and the admission lock.  An admission reads the
  live allocations under that lock in one statement (`locks`) and commits later (`admitted`); the
  workers do not take the lock, so any of them may act in between.

  `admitRequest` is `admit` for a create or an action, `admitDestroy` is `admitCleanup`, to which
  `admit` hands every destroy.  The structured request stands for its hash, and the structured scope
  for its text.

  The steps are those that the constraints of the tables allow: what a foreign key fixes of a machine
  stays (`Anchored`), and the identifier of an operation is a primary key (`Unused`).
-/
import AgentCloud.Lifecycle.Names
import AgentCloud.Lifecycle.Reservations

namespace AgentCloud.Lifecycle

open Checked Durable

/-! ## Requests and keys -/

/-- `project:<id>:machines` and `machine:<id>:actions`. -/
inductive Scope where
  | machines (projectId : ProjectId)
  | actions (machineId : MachineId)
  deriving DecidableEq, Repr

/-- A row of `idempotency`. -/
structure IdempotencyRow where
  accountId : AccountId
  scope : Scope
  key : String
  request : LifecycleCommand
  operationId : OperationId
  deriving DecidableEq, Repr

/-- `Admission`, but for a destroy. -/
inductive AdmissionRequest where
  | create (projectId : ProjectId) (spec : MachineSpec)
  | action (machineId : MachineId) (command : LifecycleCommand) (action : command.isAction = true)

def AdmissionRequest.command : AdmissionRequest → LifecycleCommand
  | create _ spec => .create spec
  | action _ command _ => command

def AdmissionRequest.scope : AdmissionRequest → Scope
  | create projectId _ => .machines projectId
  | action machineId _ _ => .actions machineId

/-- What is configured: the limits, the provider, and the accounts with theirs. -/
structure Setting where
  limits : Limits
  provider : ProviderKind
  accounts : AccountId → Option Account

/-- What an admission reads of tables that are not the machines', and its fresh identifiers. -/
structure Reads where
  env : Env
  now : Instant
  catalog : Catalog
  projects : List (ProjectId × AccountId)
  machineId : MachineId
  allocationId : AllocationId

/-! ## The tables -/

def machineIdOf (world : World interface) : MachineId := world.store.journal.machine.id

/-- What the limits see of a machine. -/
def reservationOf (world : World interface) : List Reservation := world.store.journal.reservation

/-- The live allocations as an admission has read them. -/
abbrev Tally := List (MachineId × List Reservation)

/-- What was read of every machine but one. -/
def Tally.others (tally : Tally) (machineId : MachineId) : List Reservation :=
  (tally.filter fun row => row.1 ≠ machineId).flatMap Prod.snd

structure Tables where
  machines : List (World interface)
  keys : List IdempotencyRow

namespace Tables

variable (tables : Tables)

def machine (machineId : MachineId) : Option (World interface) :=
  Table.get machineIdOf tables.machines machineId

def write (machineId : MachineId) (journal : Journal) : Tables :=
  { tables with
    machines := tables.machines.map fun world =>
      if machineIdOf world = machineId then world.put (world.store.write journal) else world }

/-- `SELECT ... FROM allocations WHERE retired_at IS NULL`. -/
def tally : Tally := tables.machines.map fun world => (machineIdOf world, reservationOf world)

/-- The live allocations. -/
def reservations : List Reservation := tables.machines.flatMap reservationOf

/-- The identifier of an operation is taken. -/
def holds (operationId : OperationId) : Bool :=
  tables.machines.any fun world => (world.store.journal.operation operationId).isSome

/-- `SELECT ... FROM idempotency`. -/
def previous (accountId : AccountId) (scope : Scope) (key : String) : Option IdempotencyRow :=
  tables.keys.find? fun row => row.accountId = accountId ∧ row.scope = scope ∧ row.key = key

/-- The operation of an account, with its project. -/
def stored (operationId : OperationId) (accountId : AccountId) : Option (ProjectId × OperationRow) :=
  tables.machines.findSome? fun world =>
    if world.store.journal.machine.accountId = accountId then
      (world.store.journal.operation operationId).map fun row =>
        (world.store.journal.machine.projectId, row)
    else none

end Tables

/-! ## Admission -/

def idempotencyConflict : Fault :=
  cloudError .idempotencyConflict "This idempotency key was used with a different request."

/-- The operation of a key that was used before. -/
def replay (tables : Tables) (accountId : AccountId) (request : LifecycleCommand)
    (previous : IdempotencyRow) : Except Fault (ProjectId × OperationRow) := do
  refuse (previous.request ≠ request) idempotencyConflict
  present (tables.stored previous.operationId accountId)
    (cloudError .internalError "Idempotency record has no operation.")

def duplicateKey : Fault := raised "duplicate key value violates unique constraint"

/-- The rows of a request whose key is new. -/
def place (setting : Setting) (reads : Reads) (tally : Tally) (tables : Tables)
    (account : Account) (principal : Principal) :
    AdmissionRequest → Except Fault (OperationRow × Tables)
  | .create projectId spec => do
    let journal ← admitCreate setting.provider setting.limits reads.catalog
      { reads.env with others := tally.flatMap Prod.snd } reads.projects
      (tables.machines.map fun world => world.store.journal.machine) account principal projectId
      spec reads.machineId reads.allocationId
    refuse (tables.holds reads.env.id = true ∨ (tables.machine reads.machineId).isSome = true)
      duplicateKey
    let operation ← present (journal.operation reads.env.id) duplicateKey
    pure (operation, { tables with machines := tables.machines ++ [⟨⟨reads.now, journal⟩, []⟩] })
  | .action machineId command _ => do
    let world ← present (tables.machine machineId) (cloudError .notFound "Machine not found.")
    let (operation, journal) ← admitAction setting.limits reads.catalog
      { reads.env with others := tally.others machineId } world.store.journal account principal
      command
    refuse (tables.holds operation.id = true) duplicateKey
    pure (operation, tables.write machineId journal)

/-- `admit` of a create or an action. -/
def admitRequest (setting : Setting) (reads : Reads) (tally : Tally) (tables : Tables)
    (caller : Principal) (request : AdmissionRequest) (key : String) :
    Except Fault (OperationRow × Tables) := do
  let account ← present (setting.accounts caller.accountId)
    (cloudError .unauthenticated "Account not found.")
  let authority ← loadAuthority reads.env.grants reads.now caller.grantId
  match tables.previous authority.principal.accountId request.scope key with
  | some previous => do
    let (projectId, operation) ←
      replay tables authority.principal.accountId request.command previous
    authorizeCommand authority.principal projectId request.command
    pure (operation, tables)
  | none => do
    let (operation, placed) ←
      place setting reads tally tables account authority.principal request
    pure (operation, { placed with keys := tables.keys ++ [⟨authority.principal.accountId,
      request.scope, key, request.command, operation.id⟩] })

def beingAdvanced : Fault :=
  .cloud ⟨.resourceBusy, "Machine is being advanced; retry this request key.", true⟩

/-- `admitCleanup`.  `held`: a worker holds the lock of the machine. -/
def admitDestroy (env : Env) (tables : Tables) (held : Bool) (caller : Principal)
    (machineId : MachineId) (expectedVersion : Nat) (allowDataLoss : Bool) (key : String) :
    Except Fault (OperationRow × Tables) := do
  let world ← present (tables.machine machineId) (cloudError .notFound "Machine not found.")
  refuse (world.store.journal.machine.accountId ≠ caller.accountId)
    (cloudError .notFound "Machine not found.")
  refuse (held = true) beingAdvanced
  let authority ← loadAuthority env.grants world.store.clock caller.grantId
  authorizeCleanup authority.principal world.store.journal allowDataLoss
  match tables.previous authority.principal.accountId (.actions machineId) key with
  | some previous => do
    let (_, operation) ← replay tables authority.principal.accountId
      (.destroy expectedVersion allowDataLoss) previous
    pure (operation, tables)
  | none => do
    let (operation, journal) ← openCleanup env world.store.clock world.store.journal
      authority.principal.grantId expectedVersion
    refuse (world.store.journal.operation operation.id = none ∧ tables.holds operation.id = true)
      duplicateKey
    pure (operation, { tables.write machineId journal with
      keys := tables.keys ++ [⟨authority.principal.accountId, .actions machineId, key,
        .destroy expectedVersion allowDataLoss, operation.id⟩] })

/-! ## The fleet -/

structure Fleet where
  tables : Tables
  /-- The workers that hold the locks of the machines. -/
  running : MachineId → Option (Program Unit)
  /-- What the holder of the admission lock has read. -/
  admitting : Option Tally
  /-- Ghost: what was answered. -/
  answers : List IdempotencyRow

/-- Nothing was admitted yet. -/
def Fleet.empty : Fleet := ⟨⟨[], []⟩, fun _ => none, none, []⟩

/-- The control plane of one machine of the fleet. -/
def controlOf (running : MachineId → Option (Program Unit)) (world : World interface) : Machine :=
  ⟨world, fun _ => running (machineIdOf world)⟩

/-! ## Steps -/

/-- The workers of a machine, but for a destroy, which is an admission here. -/
inductive Works : Bool → Program Unit → Prop where
  | tick (offline : Bool) (config : Config) (operationId : OperationId) :
      Works offline (advanceLocked config operationId)
  | recover (offline : Bool) (provider : ProviderKind) (request : OperatorRecovery) :
      Works offline (applyRecovery provider request)
  | handoff (offline : Bool) (operationId : OperationId) :
      Works offline (handoffRuntime operationId)
  | close (provider : ProviderKind) (request : CloseRequest) :
      Works true (closeOperation provider request)

theorem Works.job {offline : Bool} {p : Program Unit} (h : Works offline p) : Job offline p := by
  cases h with
  | tick => exact .tick _ _ _
  | recover => exact .recover _ _ _
  | handoff => exact .handoff _ _
  | close => exact .close _ _

/-- Besides them only time passes. -/
inductive Passes (w : World interface) : World interface → Prop where
  | time (clock : Instant) (h : w.store.clock ≤ clock) : Passes w (w.put { w.store with clock })

def workers (A : Replies) (offline : Bool) : System interface Unit where
  job _ := Works offline
  other := Passes
  allows w c r := A w ⟨c, r⟩

/-- What the foreign keys of its allocation and operations keep of a machine. -/
structure Anchored (journal journal' : Journal) : Prop where
  id : journal'.machine.id = journal.machine.id
  accountId : journal'.machine.accountId = journal.machine.accountId
  projectId : journal'.machine.projectId = journal.machine.projectId

/-- The primary key of `operations`: no other machine has an operation of these. -/
def Unused (others : List (World interface)) (journal : Journal) : Prop :=
  ∀ other ∈ others, ∀ id, (journal.operation id).isSome = true → other.store.journal.operation id = none

/-- The caller was authenticated by its grant. -/
def Genuine (grants : List Grant) (caller : Principal) : Prop :=
  ∀ grant ∈ grants, grant.id = caller.grantId → grant.accountId = caller.accountId

inductive Fleet.Step (setting : Setting) (A : Replies) (offline : Bool) : Fleet → Fleet → Prop where
  /-- A worker of a machine acts, or time passes for it. -/
  | works {fleet : Fleet} {before after : List (World interface)} {world : World interface}
      (here : fleet.tables.machines = before ++ world :: after) {machine : Machine}
      (step : (workers A offline).Step (controlOf fleet.running world) machine)
      (anchored : Anchored world.store.journal machine.world.store.journal)
      (unique : Unused (before ++ after) machine.world.store.journal) :
      Step setting A offline fleet { fleet with
        tables := { fleet.tables with machines := before ++ machine.world :: after }
        running := Function.update fleet.running (machineIdOf world) (machine.running ()) }
  /-- An admission takes the lock and reads the live allocations. -/
  | locks {fleet : Fleet} (free : fleet.admitting = none) :
      Step setting A offline fleet { fleet with admitting := some fleet.tables.tally }
  | admitted {fleet : Fleet} {tally : Tally} (locked : fleet.admitting = some tally)
      (reads : Reads) (caller : Principal) (genuine : Genuine reads.env.grants caller)
      (request : AdmissionRequest) (key : String) (operation : OperationRow) (tables : Tables)
      (ok : admitRequest setting reads tally fleet.tables caller request key =
        .ok (operation, tables)) :
      Step setting A offline fleet { fleet with
        tables
        admitting := none
        answers := fleet.answers ++
          [⟨caller.accountId, request.scope, key, request.command, operation.id⟩] }
  | cleaned {fleet : Fleet} {tally : Tally} (locked : fleet.admitting = some tally)
      (env : Env) (caller : Principal) (genuine : Genuine env.grants caller) (machineId : MachineId)
      (expectedVersion : Nat) (allowDataLoss : Bool) (key : String) (operation : OperationRow)
      (tables : Tables)
      (ok : admitDestroy env fleet.tables (fleet.running machineId).isSome caller machineId
        expectedVersion allowDataLoss key = .ok (operation, tables)) :
      Step setting A offline fleet { fleet with
        tables
        admitting := none
        answers := fleet.answers ++ [⟨caller.accountId, .actions machineId, key,
          .destroy expectedVersion allowDataLoss, operation.id⟩] }
  /-- An admission is refused, or its transaction dies. -/
  | gone {fleet : Fleet} : Step setting A offline fleet { fleet with admitting := none }

/-- Reachable in any number of steps. -/
abbrev Fleet.Reach (setting : Setting) (A : Replies) (offline : Bool) : Fleet → Fleet → Prop :=
  Relation.ReflTransGen (Fleet.Step setting A offline)

end AgentCloud.Lifecycle
