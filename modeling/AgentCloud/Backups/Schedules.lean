/-
  DAILY SCHEDULES: a capture a day, admitted by the worker's minute reconciliation.

  A tick is one transaction.  It admits a capture through `captureInTransaction`, or records why it
  was refused, and either way the next slot is a day after the tick itself, not after the slot that
  was due: a long outage is followed by one capture.  A schedule pins the grant and the allocation it
  was made with, and disables itself when the grant is no longer believed.
-/
import AgentCloud.Backups.Admission

namespace AgentCloud.Backups

open Checked Durable

def dayMs : Nat := 86400000

def ScheduleRow.enabled (row : ScheduleRow) : Bool := row.disabledAt.isNone

/-- `backup_schedule_active_app`: the schedules that a new one may not stand beside. -/
def activeFor (store : Store) (machineId : MachineId) (app : String) : List ScheduleRow :=
  store.schedules.filter fun schedule => schedule.enabled && decide (schedule.machineId = machineId) &&
    decide (schedule.recipe.app = app)

/-- The limits of an account. -/
def assertScheduleQuota (now : Instant) (store : Store) (accountId : AccountId) :
    Except Fault Unit := do
  refuse (10 ≤ store.schedules.countP fun schedule =>
      schedule.accountId = accountId ∧ schedule.enabled = true)
    (cloudError .quotaExceeded "An account can have ten active daily backup schedules.")
  refuse (30 ≤ store.schedules.countP fun schedule =>
      schedule.accountId = accountId ∧ now < schedule.createdAt + 3600000)
    (cloudError .quotaExceeded "Schedule creation is limited to thirty per account per hour.")

/-- `INSERT INTO backup_schedules`. -/
def insertSchedule (store : Store) (row : ScheduleRow) : Except Fault Store := do
  refuse (activeFor store row.machineId row.recipe.app ≠ [])
    (.other "duplicate key value violates unique constraint")
  pure { store with schedules := store.schedules ++ [row] }

def createSchedule (principal : Principal) (machineId : MachineId) (id : ScheduleId)
    (recipe : Recipe) : Env → Store → Except WorkFault (Unit × Store) := fun env store => do
  let authority ← lift (lockedAuthority env principal)
  match getSchedule store id with
  | some row => do
    lift (refuse (row.accountId ≠ principal.accountId ∨ row.machineId ≠ machineId ∨
        row.recipe ≠ recipe)
      (cloudError .idempotencyConflict "Schedule ID belongs to different inputs."))
    lift (authorize authority.principal .backupCreate (some row.projectId))
    pure ((), store)
  | none => do
    let machine ← lift (present
      (store.machines.find? fun machine =>
        machine.id = machineId ∧ machine.accountId = principal.accountId)
      (cloudError .notFound "Machine not found."))
    lift (authorize authority.principal .backupCreate (some machine.projectId))
    let allocationId ← lift (present (verifiedTarget machine.state)
      (cloudError .resourceBusy "Daily backups need a verified allocated guest."))
    lift (refuse ((activeFor store machineId recipe.app).any fun schedule =>
        schedule.accountId = principal.accountId)
      (cloudError .resourceBusy
        "This app already has a daily schedule. Disable it before creating a schedule for new recipe inputs."))
    lift (assertScheduleQuota env.now store principal.accountId)
    let store ← lift (insertSchedule store
      { id
        accountId := principal.accountId
        projectId := machine.projectId
        machineId
        allocationId
        grantId := principal.grantId
        recipe
        createdAt := authority.checkedAt
        nextRunAt := authority.checkedAt
        disabledAt := none
        lastAttempt := .none })
    pure ((), store)

def disableSchedule (principal : Principal) (id : ScheduleId) :
    Env → Store → Except WorkFault (Unit × Store) := fun env store => do
  let authority ← lift (lockedAuthority env principal)
  let row ← lift (present
    ((getSchedule store id).filter fun row => row.accountId = principal.accountId)
    (cloudError .notFound "Backup schedule not found."))
  lift (authorize authority.principal .backupCreate (some row.projectId))
  if row.enabled then
    pure ((), updateSchedule store id fun row =>
      { row with disabledAt := some authority.checkedAt })
  else pure ((), store)

/-! ## A tick -/

/-- The capture of a tick, under the credential and on the allocation that the schedule pins. -/
def scheduledCapture (config : AdmissionConfig) (env : Env) (store : Store) (row : ScheduleRow) :
    Except WorkFault Store := do
  let authority ← lift (loadAuthority env.grants env.now row.grantId)
  lift (authorize authority.principal .backupCreate (some row.projectId))
  let machine ← lift (present
    (store.machines.find? fun machine => machine.id = row.machineId)
    (.other "Scheduled source machine is missing."))
  lift (refuse (machine.state.allocation? ≠ some row.allocationId)
    (cloudError .resourceBusy
      "The scheduled source allocation is no longer available. Disable this schedule and configure the intended replacement."))
  -- `randomUUID`: an identifier that is in use is not drawn
  lift (refuse (getBackup store env.uuid ≠ none) (.other "randomUUID"))
  let captured ← captureInTransaction config authority.principal machine.id env.uuid row.recipe
    env store
  -- `INSERT INTO backup_schedule_runs`: one capture for a slot
  lift (refuse (∃ run ∈ captured.2.runs, run.scheduleId = row.id ∧ run.dueAt = row.nextRunAt)
    (.other "duplicate key value violates unique constraint"))
  pure { captured.2 with runs := captured.2.runs ++ [⟨row.id, env.uuid, row.nextRunAt⟩] }

/-- `UPDATE backup_schedules SET last_attempt, disabled_at, next_run_at`. -/
def recordAttempt (store : Store) (id : ScheduleId) (attempt : Attempt)
    (disabledAt : Option Instant) (now : Instant) : Store :=
  updateSchedule store id fun row =>
    { row with lastAttempt := attempt, disabledAt, nextRunAt := now + dayMs }

/-- The credential of a refused tick is gone. -/
def disablesSchedule (failure : Failure) : Bool :=
  decide (failure.code = .unauthenticated) || decide (failure.code = .permissionDenied)

/-- The tick of a schedule that is due. -/
def attemptSchedule (config : AdmissionConfig) (env : Env) (store : Store) (row : ScheduleRow) :
    Except WorkFault Store :=
  match scheduledCapture config env store row with
  | .ok captured =>
    .ok (recordAttempt captured row.id (.admitted env.now env.uuid) none env.now)
  | .error (.fault (.cloud failure)) =>
    .ok (recordAttempt store row.id (.refused env.now failure)
      (if disablesSchedule failure then some env.now else none) env.now)
  | .error fault => .error fault

/-- `advance`. -/
def advanceSchedule (config : AdmissionConfig) (id : ScheduleId) :
    Env → Store → Except WorkFault (Unit × Store) := fun env store =>
  match getSchedule store id with
  | none => .ok ((), store)
  | some row => do
    lift (lockAccount env.accounts row.accountId)
    if row.enabled && decide (row.nextRunAt ≤ env.now) then do
      let store ← attemptSchedule config env store row
      pure ((), store)
    else pure ((), store)

/-- The schedules that are due, at most a hundred of them. -/
def dueSchedules (now : Instant) (store : Store) : List ScheduleId :=
  (((store.schedules.filter fun row => row.enabled && decide (row.nextRunAt ≤ now)).mergeSort
    fun a b => decide (a.nextRunAt ≤ b.nextRunAt)).take 100).map ScheduleRow.id

/-- `reconcile`. -/
def reconcileSchedules (config : AdmissionConfig) : Program Unit := do
  let due ← Prog.observe (S := interface) fun env store => dueSchedules env.now store
  Prog.forEach due fun id => Prog.transact (advanceSchedule config id)

end AgentCloud.Backups
