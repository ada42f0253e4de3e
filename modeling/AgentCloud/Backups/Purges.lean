/-
  PURGES: how a stored object is given up, by its owner or by retention.

  An admission commits the purge and takes the backup out of `captured`, so that no restore of it
  is admitted from then on; it is refused while an unfinished restore could still read the object.
  The worker comes later, on its own: it records `submitted`, deletes the one recorded version after
  its actual retention, and releases the reservation only once that version is not found.

  `retentionEligible` is the one query of automatic purges.  It selects the candidates outside any
  lock, and is asked again, for one row, by the transaction that admits the purge.
-/
import AgentCloud.Backups.Admission
import Mathlib.Data.List.Dedup

namespace AgentCloud.Backups

open Checked Durable

/-! ## Admission -/

/-- A restore of the backup that is not done, on a target that is not destroyed. -/
def pinned (store : Store) (id : BackupId) : Bool :=
  store.restores.any fun restore => decide (restore.backupId = id) &&
    decide (restore.work ≠ .done) && !isDestroyed store restore.machineId

def assertPurgeable (store : Store) (row : BackupRow) : Except Fault Unit :=
  match row.state, row.work with
  | .captured .., .stored parts receipt cleaned _ => do
    refuse (receipt.intent.attemptId ≠ row.id ∨ parts.capture.id ≠ row.id ∨
        receipt.intent.digests.size ≠ row.reservedBytes)
      (.other "Stored backup receipt does not match its allocation.")
    refuse (cleaned = false ∧ isDestroyed store row.machineId = false)
      (cloudError .resourceBusy "The source guest still has backup staging to clean up.")
    refuse (pinned store row.id = true)
      (cloudError .resourceBusy
        "An unfinished restore needs this backup. Finish the restore or destroy its owned target before purging.")
  | _, _ => .error (cloudError .resourceBusy
      "Purge needs a verified stored backup. Unresolved uploads require operator recovery.")

def setState (store : Store) (id : BackupId) (state : BackupState) : Store :=
  updateBackup store id fun row => { row with state }

/-- The purge that an admission records. -/
def newPurge (now : Instant) (row : BackupRow) (purgeId : PurgeId) (reason : PurgeReason)
    (grantId : Option GrantId) : PurgeRow :=
  { id := purgeId
    backupId := row.id
    accountId := row.accountId
    projectId := row.projectId
    reason
    grantId
    createdAt := now
    state := .waiting row.retainUntil
    nextAttemptAt := some (max now row.retainUntil) }

/-- `admitPurge`: one purge of a backup. -/
def admitPurge (now : Instant) (store : Store) (row : BackupRow) (purgeId : PurgeId)
    (reason : PurgeReason) (grantId : Option GrantId) : Except Fault Store := do
  assertPurgeable store row
  refuse (∃ purge ∈ store.purges, purge.id = purgeId ∨ purge.backupId = row.id)
    (.other "duplicate key value violates unique constraint")
  pure { setState store row.id (.purgePending purgeId) with
    purges := store.purges ++ [newPurge now row purgeId reason grantId] }

def BackupState.purge? : BackupState → Option PurgeId
  | .purgePending purgeId => some purgeId
  | .purged purgeId _ => some purgeId
  | _ => none

/-- `request`: a purge by the account. -/
def requestPurge (principal : Principal) (id : BackupId) (purgeId : PurgeId) :
    Env → Store → Except WorkFault (Unit × Store) := fun env store => do
  let authority ← lift (lockedAuthority env principal)
  let row ← lift (present
    ((getBackup store id).filter fun row => row.accountId = principal.accountId)
    (cloudError .notFound "Backup not found."))
  lift (authorize authority.principal .backupPurge (some row.projectId))
  match getPurge store purgeId with
  | some purge => do
    lift (refuse (purge.accountId ≠ principal.accountId ∨ purge.backupId ≠ id ∨
        purge.reason ≠ .customer)
      (cloudError .idempotencyConflict "Purge ID belongs to a different request."))
    pure ((), store)
  | none => do
    lift (refuse (row.state.purge? ≠ none)
      (cloudError .resourceBusy ("This backup already has purge " ++ row.state.purge?.getD "" ++
        ". Inspect that operation.")))
    let store ← lift (admitPurge env.now store row purgeId .customer
      (some authority.principal.grantId))
    pure ((), store)

/-! ## Retention -/

/-- `(created_at AT TIME ZONE 'UTC')::date`. -/
def utcDay (instant : Instant) : Nat := instant / 86400000

/-- `recipe - 'releaseId'`: data identity and declared files, whatever release they belong to. -/
def Recipe.data (recipe : Recipe) : Recipe := { recipe with releaseId := "" }

def isScheduled (store : Store) (id : BackupId) : Bool :=
  store.runs.any fun run => run.backupId = id

/-- The other row is a backup of the same machine, account and data. -/
def BackupRow.sameSeries (row other : BackupRow) : Bool :=
  decide (other.machineId = row.machineId) && decide (other.accountId = row.accountId) &&
    decide (other.request.recipe.data = row.request.recipe.data)

/-- The captures on a later day that could replace a backup. -/
def laterCaptures (store : Store) (row : BackupRow) : List BackupRow :=
  store.backups.filter fun later => isScheduled store later.id && row.sameSeries later &&
    later.state.isCaptured && decide (utcDay row.createdAt < utcDay later.createdAt)

/-- `DISTINCT` days of them. -/
def laterDays (store : Store) (row : BackupRow) : List Nat :=
  ((laterCaptures store row).map fun later => utcDay later.createdAt).dedup

/-- The guest has nothing left of the capture, or is gone itself. -/
def unstaged (store : Store) (row : BackupRow) : Bool :=
  match row.work with
  | .stored _ _ cleaned _ => cleaned || isDestroyed store row.machineId
  | _ => false

def retentionEligible (now : Instant) (store : Store) (row : BackupRow) : Bool :=
  row.state.isCaptured && decide (row.retainUntil ≤ now) && unstaged store row &&
    isScheduled store row.id && !pinned store row.id && decide (7 ≤ (laterDays store row).length)

/-- The oldest eligible backups. -/
def retentionCandidates (now : Instant) (store : Store) (limit : Nat) : List BackupId :=
  (((store.backups.filter (retentionEligible now store)).mergeSort fun a b =>
    decide (a.createdAt ≤ b.createdAt)).take limit).map BackupRow.id

def admitExpiredBackup (id : BackupId) : Env → Store → Except WorkFault (Unit × Store) :=
  fun env store =>
    match getBackup store id with
    | none => .ok ((), store)
    | some selected => do
      lift (lockAccount env.accounts selected.accountId)
      if retentionEligible env.now store selected then do
        let store ← lift (admitPurge env.now store selected env.uuid .retention none)
        pure ((), store)
      else pure ((), store)

def admitCandidates (deadline : Instant) : List BackupId → Program Unit
  | [] => pure ()
  | id :: rest => do
    let now ← Prog.ask (S := interface) .localClock
    if deadline ≤ now then pure ()
    else do
      Prog.transact (admitExpiredBackup id)
      admitCandidates deadline rest

/-- The admissions of a retention run. -/
def pruneScheduled (maxObjects maxRunSeconds : Nat) : Program Unit := do
  let started ← Prog.ask (S := interface) .localClock
  let candidates ← Prog.observe (S := interface) fun env store =>
    retentionCandidates env.now store maxObjects
  admitCandidates (started + maxRunSeconds * 1000) candidates

/-! ## The worker -/

def savePurge (id : PurgeId) (f : PurgeRow → PurgeRow) : Program Unit :=
  Prog.transact fun _ store => .ok ((), updatePurge store id f)

/-- `complete`: the purged object's reservation is released. -/
def completePurge (purge : PurgeRow) : Env → Store → Except WorkFault (Unit × Store) :=
  fun env store => do
    let row ← lift (present (getBackup store purge.backupId)
      (.other "Purge source disappeared before accounting."))
    lift (refuse (row.state ≠ .purgePending purge.id)
      (.other "Purge source ownership changed before accounting."))
    let store := updateBackup store purge.backupId fun row =>
      { row with state := .purged purge.id env.now, reservedBytes := 0 }
    pure ((), updatePurge store purge.id fun purge =>
      { purge with state := .purged env.now, nextAttemptAt := none })

/-- The receipt of the object that a purge owns. -/
def ownedReceipt (purge : PurgeRow) (row : BackupRow) : Except Fault Receipt := do
  refuse (row.accountId ≠ purge.accountId ∨ row.projectId ≠ purge.projectId ∨
      row.state ≠ .purgePending purge.id)
    (.other "Purge no longer owns this stored backup.")
  match row.work with
  | .stored _ receipt _ _ => do
    refuse (receipt.intent.attemptId ≠ row.id) (.other "Purge no longer owns this stored backup.")
    pure receipt
  | _ => .error (.other "Purge no longer owns this stored backup.")

/-- Absence is unconfirmed: the purge is tried again in five minutes. -/
def retryPurge (id : PurgeId) : Program Unit :=
  Prog.transact fun env store =>
    .ok ((), updatePurge store id fun purge =>
      { purge with
        state := .blocked (env.now + 300000)
        nextAttemptAt := some (env.now + 300000) })

/-- What a purge found out is recorded. -/
def settlePurge (purge : PurgeRow) : PurgeOutcome → Program Unit
  | .retained retainUntil => do
    let now ← Prog.ask (S := interface) .localClock
    savePurge purge.id fun row =>
      { row with
        state := .waiting retainUntil
        nextAttemptAt := some (max retainUntil (now + 1000)) }
  | .absent => Prog.transact (completePurge purge)

/-- A purge that is due. -/
def executePurge (config : StoreConfig) (purge : PurgeRow) (now : Instant) : Program Unit := do
  let row ← readBackup purge.backupId
  let receipt ← Prog.ofExcept (lift do
    let row ← present row (.other "Purge source receipt is missing.")
    ownedReceipt purge row)
  -- persisted before any possible DELETE, retries after a lost reply included
  savePurge purge.id fun row => { row with state := .submitted now }
  let outcome ← Prog.attempt (purgeObject config receipt)
  match outcome with
  | .error _ => retryPurge purge.id
  | .ok outcome => settlePurge purge outcome

def isPurged : PurgeState → Bool
  | .purged _ => true
  | _ => false

/-- `advance` of a purge, under the worker lock of its backup. -/
def advancePurge (config : StoreConfig) (backupId : BackupId) (id : PurgeId) : Program Unit := do
  let selected ← Prog.read (S := interface) fun store =>
    (getPurge store id).filter fun purge => purge.backupId = backupId
  match selected with
  | none => pure ()
  | some purge => do
    let now ← Prog.observe (S := interface) fun env _ => env.now
    if purge.nextAttemptAt.any (fun due => due ≤ now) && !isPurged purge.state then
      executePurge config purge now
    else pure ()

end AgentCloud.Backups
