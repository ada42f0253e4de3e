/-
  THE CHANGES OF THE BACKUP TABLES: everything that any writer of them does.

  A transaction makes one of the changes below, or none; each comes with what its writer had checked
  or knew when it wrote.  They stand between the programs and the results: the programs are shown to make no
  other change (`Recording`, `Purging`), and what every run keeps is shown change by change, without
  looking at a program again.

  What is stored outside is read off the calls (`objectBytes`): a PUT may have stored its object
  whatever was replied, and an object is gone once its one version was not found.
-/
import AgentCloud.Backups.Callers

namespace AgentCloud.Backups

open Checked Durable

abbrev Log := List (Exchange interface)

/-! ## Files and objects -/

/-- The archive that an exchange left in the scratch directory. -/
def encryptionOf (id : BackupId) : Exchange interface → Option Encryption
  | ⟨.readAndEncrypt other _ _, .ok encryption⟩ => if other = id then some encryption else none
  | _ => none

/-- The archive in the scratch directory of a backup. -/
def lastEncryption (log : Log) (id : BackupId) : Option Encryption :=
  log.foldl (fun last exchange => (encryptionOf id exchange).or last) none

/-- What the bucket may contain of a backup after an exchange. -/
def storedAfter (id : BackupId) (bytes : Nat) : Exchange interface → Nat
  | ⟨.putObject intent, _⟩ =>
    if intent.attemptId = id then bytes + intent.digests.size else bytes
  | ⟨.probeVersion receipt, .ok none⟩ => if receipt.intent.attemptId = id then 0 else bytes
  | _ => bytes

/-- The bytes that the bucket may contain of a backup. -/
def objectBytes (log : Log) (id : BackupId) : Nat := log.foldl (storedAfter id) 0

/-- Files keep what was written to them: the archive that is hashed is the one that was encrypted
    last. -/
def FilesKept (w : World interface) : (c : Call) → c.Reply → Prop
  | .hashFile id, .ok digests =>
    ∃ encryption ∈ lastEncryption w.log id, digests.size = encryption.ciphertextBytes
  | _, _ => True

/-- The object store's version was not found. -/
def notFound (receipt : Receipt) : Exchange interface :=
  ⟨.probeVersion receipt, (.ok none : Except Fault (Option Head))⟩

/-- The local clock showed this time. -/
def clockShowed (now : Instant) : Exchange interface := ⟨.localClock, now⟩

/-! ## One row -/

namespace BackupState

def isPurged : BackupState → Bool
  | .purged .. => true
  | _ => false

def isBlocked : BackupState → Bool
  | .blocked _ => true
  | _ => false

end BackupState

/-- A change of one backup. -/
inductive Moves (k : Slot) (row : BackupRow) : BackupRow → Prop where
  /-- The next phase, or one more attempt of this one, up to the submission. -/
  | phase (work : BackupWork) (own : k = .backup row.id) (pending : row.state = .pending)
      (early : work.rank < 4) (forward : row.work.rank ≤ work.rank)
      (sealing : ∀ parts ∈ work.sealed?, row.work.sealed? = some parts ∨
        (row.work.rank < 2 ∧ work.rank = 2 ∧ parts.intent.attemptId = row.id ∧
          parts.intent.digests.size ≤ row.request.limits.maxBytes)) :
      Moves k row { row with work }
  /-- The submitted object was found and verified. -/
  | stored (parts : Sealed) (attempts : Nat) (receipt : Receipt) (own : k = .backup row.id)
      (submitted : row.work = .uploadSubmitted parts attempts)
      (waiting : row.state = .pending ∨ row.state.isBlocked = true)
      (receives : receipt.intent = parts.intent) :
      Moves k row
        { row with
          work := .stored parts receipt false 0
          state := .captured receipt.intent.digests.size parts.capture.manifest.capturedAt
            .captured parts.capture.manifest
          reservedBytes := receipt.intent.digests.size }
  /-- Cleaning up the guest. -/
  | cleaned (parts : Sealed) (receipt : Receipt) (cleaned cleaned' : Bool)
      (attempts attempts' : Nat) (own : k = .backup row.id)
      (stored : row.work = .stored parts receipt cleaned attempts)
      (live : row.state.isPurged = false) :
      Moves k row { row with work := .stored parts receipt cleaned' attempts' }
  | blocked (reason : String) (own : k = .backup row.id) (pending : row.state = .pending) :
      Moves k row { row with state := .blocked reason }
  /-- A restore verified it. -/
  | verified (bytes : Nat) (capturedAt : Instant) (validation : Validation) (manifest : Manifest)
      (captured : row.state = .captured bytes capturedAt validation manifest) :
      Moves k row { row with state := .captured bytes capturedAt .restoreVerified manifest }

/-- A capture that was just admitted. -/
structure NewBackup (config : AdmissionConfig) (row : BackupRow) : Prop where
  work : row.work = .capture 0
  state : row.state = .pending
  reserved : row.reservedBytes = config.limits.maxBytes
  limits : row.request.limits = config.limits

/-- The reservation of one more capture fits. -/
structure Fits (config : AdmissionConfig) (store : Store) (accountId : AccountId) : Prop where
  account : reservedBytes (store.backups.filter fun row => row.accountId = accountId) +
    config.limits.maxBytes ≤ config.maxAccountBytes
  total : reservedBytes store.backups + config.limits.maxBytes ≤ config.maxGlobalBytes

/-- A purge may be admitted: the object is stored, and no restore can still read it. -/
structure Purgeable (store : Store) (row : BackupRow) : Prop where
  captured : row.state.isCaptured = true
  stored : row.work.rank = 4
  unpinned : pinned store row.id = false

/-- Machines go forward, and none disappears. -/
def MachinesMove (old new : List TargetMachine) : Prop :=
  ∀ machine ∈ old, ∃ machine' ∈ new, machine'.id = machine.id ∧
    machine'.accountId = machine.accountId ∧ machine.state.mayBecome machine'.state = true

/-! ## Changes -/

inductive Change (config : AdmissionConfig) (log : Log) (k : Slot) (store : Store) :
    Store → Prop where
  /-- A capture by a customer. -/
  | admitted (row : BackupRow) (fresh : getBackup store row.id = none) (new : NewBackup config row)
      (fits : Fits config store row.accountId) :
      Change config log k store { store with backups := store.backups ++ [row] }
  | move (id : BackupId) (f : BackupRow → BackupRow) (same : ∀ row, (f row).id = row.id)
      (moves : ∀ row, getBackup store id = some row → Moves k row (f row)) :
      Change config log k store (updateBackup store id f)
  | restore (row : RestoreRow) (fresh : getRestore store row.id = none)
      (source : ∃ backup, getBackup store row.backupId = some backup ∧
        backup.state.isCaptured = true)
      (machines : List TargetMachine) (kept : MachinesMove store.machines machines) :
      Change config log k store { store with restores := store.restores ++ [row], machines }
  | restoring (id : RestoreId) (f : RestoreRow → RestoreRow) (own : k = .restore id)
      (same : ∀ row, (f row).id = row.id ∧ (f row).backupId = row.backupId ∧
        (f row).machineId = row.machineId) :
      Change config log k store (updateRestore store id f)
  /-- The end of a restore, which verifies its source. -/
  | finished (id : RestoreId) (f : RestoreRow → RestoreRow) (own : k = .restore id)
      (same : ∀ row, (f row).id = row.id ∧ (f row).backupId = row.backupId ∧
        (f row).machineId = row.machineId)
      (source : BackupId) (g : BackupRow → BackupRow) (sameSource : ∀ row, (g row).id = row.id)
      (moves : ∀ row, getBackup store source = some row → Moves k row (g row)) :
      Change config log k store (updateBackup (updateRestore store id f) source g)
  /-- A purge by the account, or by retention. -/
  | purge (row : BackupRow) (mem : getBackup store row.id = some row)
      (purgeable : Purgeable store row) (now : Instant) (purgeId : PurgeId) (reason : PurgeReason)
      (grantId : Option GrantId)
      (fresh : ∀ purge ∈ store.purges, purge.id ≠ purgeId ∧ purge.backupId ≠ row.id)
      (eligible : reason = .retention → retentionEligible now store row = true) :
      Change config log k store
        { setState store row.id (.purgePending purgeId) with
          purges := store.purges ++ [newPurge now row purgeId reason grantId] }
  | purging (id : PurgeId) (f : PurgeRow → PurgeRow)
      (own : ∀ purge, getPurge store id = some purge → k = .backup purge.backupId)
      (same : ∀ purge, (f purge).id = purge.id ∧ (f purge).backupId = purge.backupId ∧
        (f purge).reason = purge.reason) :
      Change config log k store (updatePurge store id f)
  /-- The object of a purge is gone. -/
  | purged (row : BackupRow) (mem : getBackup store row.id = some row) (own : k = .backup row.id)
      (purge : PurgeRow) (owns : purge.backupId = row.id)
      (recorded : getPurge store purge.id = some purge)
      (pending : row.state = .purgePending purge.id) (parts : Sealed) (receipt : Receipt)
      (cleaned : Bool) (attempts : Nat) (stored : row.work = .stored parts receipt cleaned attempts)
      (absent : notFound receipt ∈ log) (gone : objectBytes log row.id = 0) (now : Instant) :
      Change config log k store
        (updatePurge
          (updateBackup store row.id fun row =>
            { row with state := .purged purge.id now, reservedBytes := 0 })
          purge.id fun purge => { purge with state := .purged now, nextAttemptAt := none })
  | created (row : ScheduleRow) (fresh : getSchedule store row.id = none)
      (sole : activeFor store row.machineId row.recipe.app = []) (enabled : row.enabled = true)
      (due : row.nextRunAt = row.createdAt) :
      Change config log k store { store with schedules := store.schedules ++ [row] }
  | disabled (id : ScheduleId) (now : Instant) :
      Change config log k store
        (updateSchedule store id fun row => { row with disabledAt := some now })
  /-- A tick of a schedule whose capture was refused. -/
  | refused (row : ScheduleRow) (mem : getSchedule store row.id = some row)
      (enabled : row.enabled = true) (now : Instant) (due : row.nextRunAt ≤ now)
      (failure : Failure) (disabledAt : Option Instant) :
      Change config log k store
        (recordAttempt store row.id (.refused now failure) disabledAt now)
  /-- A tick of a schedule whose capture was admitted. -/
  | ran (row : ScheduleRow) (mem : getSchedule store row.id = some row)
      (enabled : row.enabled = true) (now : Instant) (due : row.nextRunAt ≤ now)
      (backup : BackupRow) (fresh : getBackup store backup.id = none)
      (new : NewBackup config backup) (created : backup.createdAt = now)
      (fits : Fits config store backup.accountId)
      (slot : ∀ run ∈ store.runs, run.scheduleId = row.id → run.dueAt ≠ row.nextRunAt) :
      Change config log k store
        (recordAttempt
          { store with
            backups := store.backups ++ [backup]
            runs := store.runs ++ [⟨row.id, backup.id, row.nextRunAt⟩] }
          row.id (.admitted now backup.id) none now)

/-- What one transaction changes. -/
abbrev Changes (config : AdmissionConfig) (log : Log) (k : Slot) : Store → Store → Prop :=
  Relation.ReflGen (Change config log k)

/-! ## Calls -/

/-- The backup whose files or object a call is about. -/
def Call.about : Call → Option BackupId
  | .readAndEncrypt id _ _ => some id
  | .putObject intent => some intent.attemptId
  | .probeVersion receipt => some receipt.intent.attemptId
  | .deleteVersion receipt => some receipt.intent.attemptId
  | _ => none

/-- A submitted purge owns exactly this version, and its retention time is over. -/
structure Deletable (w : World interface) (receipt : Receipt) : Prop where
  submitted : ∃ purge date, getPurge w.store purge.id = some purge ∧ purge.state = .submitted date ∧
    purge.backupId = receipt.intent.attemptId ∧
    ∃ row parts cleaned attempts, getBackup w.store purge.backupId = some row ∧
      row.state = .purgePending purge.id ∧ row.work = .stored parts receipt cleaned attempts
  expired : ∃ now : Instant, clockShowed now ∈ w.log ∧ receipt.intent.retention.retainUntil ≤ now

/-- What holds when an object is written or deleted. -/
def Call.ready (w : World interface) : Call → Prop
  | .putObject intent =>
    (∃ row parts attempts, getBackup w.store intent.attemptId = some row ∧
      row.work = .uploadSubmitted parts attempts ∧ parts.intent = intent) ∧
    ∀ exchange ∈ w.log, ∀ other, exchange.call = .putObject other →
      other.attemptId ≠ intent.attemptId
  | .deleteVersion receipt => Deletable w receipt
  | _ => True

inductive Does (config : AdmissionConfig) (k : Slot) (w : World interface) :
    World interface → Prop where
  | write (store : Store) (h : Changes config w.log k w.store store) : Does config k w (w.put store)
  | quiet (c : Call) (r : c.Reply) (quiet : c.about = none) : Does config k w (w.exchange c r)
  | act (c : Call) (r : c.Reply) (id : BackupId) (about : c.about = some id) (own : k = .backup id)
      (ready : c.ready w) : Does config k w (w.exchange c r)

end AgentCloud.Backups
