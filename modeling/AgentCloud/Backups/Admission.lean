/-
  ADMISSION of captures and restores, and the operator's recovery of an upload.  None of them
  changes the phase of a row that exists, except the recovery, which runs under the worker's own
  lock and turns a submitted upload into a stored one.

  `captureInTransaction` has passed its last check before its first insert, so a refusal leaves no
  row; a schedule relies on that.
-/
import AgentCloud.Backups.Work

namespace AgentCloud.Backups

open Checked Durable

structure AdmissionConfig where
  limits : Limits
  maxAccountBytes : Nat
  maxGlobalBytes : Nat
  retentionDays : Nat
  deriving DecidableEq, Repr

/-- The rows of one account reserve this much. -/
def reservedBytes (rows : List BackupRow) : Nat :=
  rows.foldr (fun row total => row.reservedBytes + total) 0

/-- A machine that can be captured: its allocation. -/
def capturable (store : Store) (accountId : AccountId) (machineId : MachineId) :
    Except Fault (TargetMachine × AllocationId) := do
  let machine ← present
    (store.machines.find? fun machine => machine.id = machineId ∧ machine.accountId = accountId)
    (cloudError .notFound "Machine not found.")
  let allocationId ← present (verifiedTarget machine.state)
    (cloudError .resourceBusy "Backup capture needs a verified allocated guest.")
  pure (machine, allocationId)

def assertCapacity (config : AdmissionConfig) (now : Instant) (rows : List BackupRow)
    (accountId : AccountId) : Except Fault Unit := do
  let owned := rows.filter fun row => row.accountId = accountId
  refuse (config.maxAccountBytes < reservedBytes owned + config.limits.maxBytes ∨
      config.maxGlobalBytes < reservedBytes rows + config.limits.maxBytes)
    (cloudError .quotaExceeded
      "Protected backup storage reservations exceed the configured allowance. Retained and unresolved uploads remain reserved.")
  refuse (10 ≤ owned.countP fun row => now < row.createdAt + 3600000)
    (cloudError .quotaExceeded "Capture is limited to ten admissions per account per hour.")

/-- The authority of a request, under the account's lock. -/
def lockedAuthority (env : Env) (principal : Principal) : Except Fault Authority := do
  lockAccount env.accounts principal.accountId
  loadAuthority env.grants env.now principal.grantId

/-- A new row of a capture. -/
def admittedBackup (config : AdmissionConfig) (env : Env) (store : Store) (authority : Authority)
    (principal : Principal) (machineId : MachineId) (id : BackupId) (recipe : Recipe) :
    Except Fault BackupRow := do
  let (machine, allocationId) ← capturable store principal.accountId machineId
  authorize authority.principal .backupCreate (some machine.projectId)
  assertCapacity config env.now store.backups principal.accountId
  pure
    { id
      accountId := principal.accountId
      projectId := machine.projectId
      machineId
      allocationId
      grantId := principal.grantId
      request := ⟨id, recipe, config.limits⟩
      createdAt := authority.checkedAt
      retainUntil := wholeSeconds (authority.checkedAt + config.retentionDays * 86400000)
      state := .pending
      work := .capture 0
      reservedBytes := config.limits.maxBytes }

/-- `captureInTransaction`. -/
def captureInTransaction (config : AdmissionConfig) (principal : Principal) (machineId : MachineId)
    (id : BackupId) (recipe : Recipe) : Env → Store → Except WorkFault (Unit × Store) :=
  fun env store => do
    let authority ← lift (lockedAuthority env principal)
    match getBackup store id with
    | some row => do
      lift (refuse (row.accountId ≠ principal.accountId ∨ row.machineId ≠ machineId ∨
          row.request.recipe ≠ recipe)
        (cloudError .idempotencyConflict "Backup ID belongs to a different capture request."))
      lift (authorize authority.principal .backupCreate (some row.projectId))
      pure ((), store)
    | none => do
      let row ← lift (admittedBackup config env store authority principal machineId id recipe)
      pure ((), { store with backups := store.backups ++ [row] })

def BackupState.isCaptured : BackupState → Bool
  | .captured .. => true
  | _ => false

/-- A new row of a restore, for the target of the operation that `admit` returned. -/
def admittedRestore (store : Store) (authority : Authority) (principal : Principal)
    (id : RestoreId) (backupId : BackupId) (app : String) (machineId : MachineId)
    (operationId : OperationId) : Except Fault RestoreRow := do
  let backup ← present
    ((getBackup store backupId).filter fun row => row.accountId = principal.accountId)
    (cloudError .notFound "Backup not found.")
  authorize authority.principal .backupRestore (some backup.projectId)
  refuse (backup.state.isCaptured = false ∨ backup.work.rank ≠ 4)
    (cloudError .resourceBusy "Restore needs a verified off-machine backup object.")
  pure
    { id
      backupId
      accountId := principal.accountId
      projectId := backup.projectId
      machineId
      operationId
      grantId := principal.grantId
      app
      createdAt := authority.checkedAt
      state := .pending false
      work := .waiting }

/-- The machines after `admit`: its operation is that of a machine of the account, which it may have
    created for it. -/
def admitTarget (machines : List TargetMachine) (restore : RestoreRow)
    (allocationId : AllocationId) : Except Fault (List TargetMachine) :=
  match machines.find? fun machine => machine.id = restore.machineId with
  | some machine => do
    refuse (machine.accountId ≠ restore.accountId)
      (.other "insert or update violates foreign key constraint")
    pure machines
  | none => pure (machines ++
      [⟨restore.machineId, restore.accountId, restore.projectId, .provisioning allocationId⟩])

/-- `INSERT INTO backup_restores`: a machine is the target of one restore. -/
def insertRestore (store : Store) (row : RestoreRow) (machines : List TargetMachine) :
    Except Fault Store := do
  refuse (∃ restore ∈ store.restores, restore.machineId = row.machineId)
    (.other "duplicate key value violates unique constraint")
  pure { store with restores := store.restores ++ [row], machines }

def restoreInTransaction (principal : Principal) (id : RestoreId) (backupId : BackupId)
    (app : String) (machineId : MachineId) (allocationId : AllocationId)
    (operationId : OperationId) : Env → Store → Except WorkFault (Unit × Store) :=
    fun env store => do
  let authority ← lift (lockedAuthority env principal)
  match getRestore store id with
  | some row => do
    lift (refuse (row.accountId ≠ principal.accountId ∨ row.backupId ≠ backupId ∨ row.app ≠ app)
      (cloudError .idempotencyConflict "Restore ID belongs to a different request."))
    lift (authorize authority.principal .backupRestore (some row.projectId))
    pure ((), store)
  | none => do
    let row ← lift
      (admittedRestore store authority principal id backupId app machineId operationId)
    let machines ← lift (admitTarget store.machines row allocationId)
    let store ← lift (insertRestore store row machines)
    pure ((), store)

/-! ## Operator recovery of an upload -/

/-- What a receipt digest identifies. -/
structure ReceiptIdentity where
  accountId : AccountId
  backupId : BackupId
  allocationId : AllocationId
  sealed : Sealed
  deriving DecidableEq, Repr

def receiptIdentity (row : BackupRow) : Option ReceiptIdentity :=
  if 3 ≤ row.work.rank then
    row.work.sealed?.map fun parts => ⟨row.accountId, row.id, row.allocationId, parts⟩
  else none

/-- `pending` or `blocked`. -/
def BackupState.canResolve : BackupState → Bool
  | .pending => true
  | .blocked _ => true
  | _ => false

/-- The transaction of the recovery: the row must be as it was inspected. -/
def resolveUpload (inspected : BackupRow) (parts : Sealed) (receipt : Receipt) :
    Env → Store → Except WorkFault (Unit × Store) := fun env store => do
  lift (lockAccount env.accounts inspected.accountId)
  let current ← lift (present (getBackup store inspected.id)
    (cloudError .versionConflict "Backup changed during read-only recovery. Inspect it again."))
  lift (refuse (current.state ≠ inspected.state ∨ current.work ≠ inspected.work)
    (cloudError .versionConflict "Backup changed during read-only recovery. Inspect it again."))
  pure ((), updateBackup store inspected.id fun row =>
    { row with
      work := .stored parts receipt false 0
      state := .captured receipt.intent.digests.size parts.capture.manifest.capturedAt .captured
        parts.capture.manifest
      reservedBytes := receipt.intent.digests.size })

def notResolvable : Fault :=
  cloudError .resourceBusy
    "Only a recorded unresolved upload can be reconciled. No capture, PUT or restore will be repeated."

/-- `apply` of backup-recovery.ts. -/
def applyRecovery (config : BackupConfig) (id : BackupId) (expected : ReceiptIdentity) :
    Program Unit := do
  let row ← readBackup id
  match row with
  | none => raise (cloudError .notFound "Backup not found.")
  | some row =>
    if receiptIdentity row ≠ some expected then
      raise (cloudError .versionConflict
        "Backup receipt changed. Inspect the current record before recovery.")
    else match row.work with
      | .uploadSubmitted parts _ =>
        if row.state.canResolve then do
          let resolution ← recover config.store parts.intent
          match resolution with
          | none =>
            raise (cloudError .providerOutcomeUnknown
              "The recorded upload remains unresolved. Its intent and full reservation are unchanged.")
          | some receipt => Prog.transact (resolveUpload row parts receipt)
        else raise notResolvable
      | _ => if row.state.isCaptured then pure () else raise notResolvable

end AgentCloud.Backups
