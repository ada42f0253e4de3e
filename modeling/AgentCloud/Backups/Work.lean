/-
  THE BACKUP WORKER: one tick of a capture, or of a restore.

  A tick reads the phase that is recorded and carries on from there, through as many phases as it
  can.  Each phase is a program of its own here, and calls the next one where the source falls
  through.  Every `save` is a commit by itself, so a tick may die, or be stopped by a revoked
  credential, between any two of them.

  Two commits are the marks: `upload_submitted` before `upload`, and `submitted` in the
  `beforeSubmit` of the restore stream.
-/
import AgentCloud.Backups.ObjectStore

namespace AgentCloud.Backups

open Checked Durable

/-! ## Transactions -/

/-- `loadAuthority` and `authorize` of the admitting credential; its end is a
    `BackupAuthorityError`. -/
def believed (env : Env) (accountId : AccountId) (grantId : GrantId) (projectId : ProjectId)
    (capability : Capability) : Except WorkFault Unit :=
  let tried : Except Fault Unit := do
    let authority ← loadAuthority env.grants env.now grantId
    refuse (authority.principal.accountId ≠ accountId)
      (cloudError .permissionDenied "Backup authority belongs to another account.")
    authorize authority.principal capability (some projectId)
  match tried with
  | .ok _ => .ok ()
  | .error (.cloud failure) =>
    if failure.code = .unauthenticated ∨ failure.code = .permissionDenied then .error .authority
    else .error (.fault (.cloud failure))
  | .error fault => .error (.fault fault)

/-- `authorizeEffect`: the write, if the admitting credential is still believed. -/
def authorizeEffect (accountId : AccountId) (grantId : GrantId) (projectId : ProjectId)
    (capability : Capability) (work : Store → Store) : Program Unit :=
  Prog.transact fun env store => do
    lift (lockAccount env.accounts accountId)
    believed env accountId grantId projectId capability
    pure ((), work store)

def writeWork (id : BackupId) (work : BackupWork) (store : Store) : Store :=
  updateBackup store id fun row => { row with work }

/-- `save`. -/
def save (id : BackupId) (work : BackupWork) : Program Unit :=
  Prog.transact fun _ store => .ok ((), writeWork id work store)

/-- `block` of a capture. -/
def blockBackup (id : BackupId) (reason : String) : Program Unit :=
  Prog.transact fun _ store =>
    .ok ((), updateBackup store id fun row => { row with state := .blocked reason })

/-- `saveStored`. -/
def saveStored (id : BackupId) (parts : Sealed) (receipt : Receipt) : Program Unit :=
  Prog.transact fun _ store =>
    .ok ((), updateBackup store id fun row =>
      { row with
        work := .stored parts receipt false 0
        reservedBytes := receipt.intent.digests.size
        state := .captured receipt.intent.digests.size parts.capture.manifest.capturedAt .captured
          parts.capture.manifest })

/-! ## Capture -/

/-- The end of a capture: the scratch file, and the guest's staging, five times at most. -/
def cleanupPhase (row : BackupRow) (parts : Sealed) (receipt : Receipt) (cleaned : Bool)
    (attempts : Nat) : Program Unit := do
  ask (.cleanupScratch row.id) rfl
  if cleaned = false ∧ attempts < 5 then do
    save row.id (.stored parts receipt false (attempts + 1))
    let machine ← Prog.read (S := interface) fun store =>
      store.machines.find? fun machine => machine.id = row.machineId
    if machine.any fun machine => machine.state.stage < 4 then do
      ask (.openGuest row.machineId row.allocationId) rfl
      ask (.removeGuest row.id) rfl
      save row.id (.stored parts receipt true (attempts + 1))
    else save row.id (.stored parts receipt true (attempts + 1))
  else pure ()

/-- `upload_ready`: the mark, and the one upload. -/
def uploadPhase (config : BackupConfig) (row : BackupRow) (parts : Sealed) : Program Unit := do
  save row.id (.uploadSubmitted parts 0)
  let receipt ← upload config.store parts.intent
  saveStored row.id parts receipt
  cleanupPhase row parts receipt false 0

/-- `upload_submitted`: read-only recovery of the exact intent. -/
def recoverPhase (config : BackupConfig) (row : BackupRow) (parts : Sealed) (attempts : Nat) :
    Program Unit :=
  if 5 ≤ attempts then
    blockBackup row.id
      "Upload outcome remains unresolved. Its object intent and storage reservation are retained; the same PUT will not be repeated."
  else do
    save row.id (.uploadSubmitted parts (attempts + 1))
    let recovered ← recover config.store parts.intent
    match recovered with
    | none => raise (retryableError .providerUnavailable
        "Backup upload is awaiting exact object-version recovery.")
    | some receipt => do
      saveStored row.id parts receipt
      cleanupPhase row parts receipt false 0

/-- `encryptBackup`: both sides of the cipher are measured. -/
def encryptBackup (id : BackupId) (captured : Capture) (keyring : String) (maxBytes : Nat) :
    Program Encryption := do
  let reply ← Prog.ask (S := interface) (.readAndEncrypt id captured keyring)
  let encryption ← thrown reply
  refuseIf (maxBytes < encryption.plaintextBytes ∨ maxBytes < encryption.ciphertextBytes)
    "Backup stream exceeds its admitted byte limit."
  pure encryption

def encryptPhase (config : BackupConfig) (row : BackupRow) (captured : Capture) (attempts : Nat) :
    Program Unit :=
  if 5 ≤ attempts then
    blockBackup row.id
      "Captured bytes could not be encrypted and verified. No object upload was submitted."
  else do
    ask (.scratch row.id) rfl
    ask (.cleanupScratch row.id) rfl
    ask (.requireScratchSpace row.request.limits.maxBytes) rfl
    authorizeEffect row.accountId row.grantId row.projectId .backupCreate
      (writeWork row.id (.encrypt captured (attempts + 1)))
    let keyring ← Prog.ask (S := interface) .keyring
    let keyring ← thrown keyring
    ask (.openGuest row.machineId row.allocationId) rfl
    let encryption ← encryptBackup row.id captured keyring row.request.limits.maxBytes
    refuseIf (encryption.plaintextBytes ≠ captured.bytes ∨
        encryption.plaintextSha256 ≠ captured.sha256)
      "Guest archive bytes differ from the captured manifest receipt."
    let intent ← prepareUpload config.store row.id ⟨config.retentionMode, row.retainUntil⟩
    save row.id (.uploadReady ⟨captured, encryption, intent⟩)
    uploadPhase config row ⟨captured, encryption, intent⟩

/-- The captured state of a guest's reply. -/
def capturedState : BackupGuestState → Option Capture
  | .captured capture => some capture
  | _ => none

def capturePhase (config : BackupConfig) (row : BackupRow) (attempts : Nat) : Program Unit :=
  if 5 ≤ attempts then
    blockBackup row.id
      "Capture could not be resolved. Inspect the guest and create a new backup ID; this capture is not replayed after a guest interruption."
  else do
    authorizeEffect row.accountId row.grantId row.projectId .backupCreate
      (writeWork row.id (.capture (attempts + 1)))
    ask (.openGuest row.machineId row.allocationId) rfl
    let reply ← Prog.ask (S := interface) (.captureGuest row.request)
    let state ← thrown reply
    let captured ← Prog.ofExcept
      (present (capturedState state) (.fault (.other "capturedGuestSchema")))
    refuseIf (captured.id ≠ row.id ∨ captured.manifest.recipe ≠ row.request.recipe ∨
        row.request.limits.maxBytes < captured.bytes)
      "Guest capture does not match its admitted recipe or byte limit."
    save row.id (.encrypt captured 0)
    encryptPhase config row captured 0

/-- `pending` or `captured`. -/
def BackupState.isOpen : BackupState → Bool
  | .pending => true
  | .captured .. => true
  | _ => false

def carryOn (config : BackupConfig) (row : BackupRow) : Program Unit :=
  match row.work with
  | .capture attempts => capturePhase config row attempts
  | .encrypt captured attempts => encryptPhase config row captured attempts
  | .uploadReady parts => uploadPhase config row parts
  | .uploadSubmitted parts attempts => recoverPhase config row parts attempts
  | .stored parts receipt cleaned attempts => cleanupPhase row parts receipt cleaned attempts

def readBackup (id : BackupId) : Program (Option BackupRow) :=
  Prog.read (S := interface) fun store => getBackup store id

def advanceCapture (config : BackupConfig) (id : BackupId) : Program Unit := do
  let row ← readBackup id
  match row with
  | none => pure ()
  | some row => if row.state.isOpen then carryOn config row else pure ()

/-! ## Restore -/

def writeRestore (id : RestoreId) (f : RestoreRow → RestoreRow) (store : Store) : Store :=
  updateRestore store id f

def saveRestore (id : RestoreId) (work : RestoreWork) : Program Unit :=
  Prog.transact fun _ store => .ok ((), writeRestore id (fun row => { row with work }) store)

/-- `block` of a restore. -/
def blockRestore (id : RestoreId) (reason : String) : Program Unit := do
  ask (.cleanupScratch id) rfl
  Prog.transact fun _ store =>
    .ok ((), writeRestore id (fun row => { row with state := .blocked reason }) store)

/-- The source of a verified restore is verified. -/
def verifySource (backupId : BackupId) (store : Store) : Except WorkFault Store := do
  let source ← present (getBackup store backupId)
    (.fault (.other "Verified restore source is missing."))
  match source.state with
  | .captured bytes capturedAt _ manifest =>
    pure (updateBackup store backupId fun row =>
      { row with state := .captured bytes capturedAt .restoreVerified manifest })
  | _ => failed (.other "Verified restore source is not captured.")

/-- `finish`. -/
def finish (row : RestoreRow) (result : Completed) : Program Unit := do
  refuseIf (result.id ≠ row.id ∨ result.app ≠ row.app) "Guest restored another request."
  ask (.cleanupScratch row.id) rfl
  Prog.transact fun _ store => do
    let store ← verifySource row.backupId
      (writeRestore row.id (fun row => { row with work := .done, state := .restored result }) store)
    pure ((), store)

def transportFailure : Fault :=
  retryableError .guestUnreachable
    "Backup transport response is unavailable. Inspect the durable guest operation before continuing."

/-- `runRestoreCommand`: whatever goes wrong, before or after the stream, is a lost response. -/
def runRestoreCommand (request : RestoreGuestRequest) (beforeSubmit : Program Unit) :
    Program RestoreGuestState :=
  Prog.tryCatch
    (do
      ask (.spawnRestore request.id) rfl
      beforeSubmit
      let reply ← Prog.ask (S := interface) (.streamRestore request)
      thrown reply)
    fun _ => raise transportFailure

def markSubmitted (row : RestoreRow) : Program Unit :=
  authorizeEffect row.accountId row.grantId row.projectId .backupRestore
    (writeRestore row.id fun row => { row with work := .submitted 0 })

/-- What a restore stream reported. -/
def settle (row : RestoreRow) : RestoreGuestState → Program Unit
  | .restored result => finish row result
  | .failed _ _ => blockRestore row.id
      "The isolated guest reported restore failure. Inspect or destroy its target; the source backup is unchanged."
  | .pending _ => pure ()

def submitRestore (config : BackupConfig) (row : RestoreRow) (allocationId : AllocationId)
    (parts : Sealed) (receipt : Receipt) : Program Unit := do
  ask (.downloadAndDecrypt row.id receipt parts.encryption) rfl
  ask (.openGuest row.machineId allocationId) rfl
  let result ← runRestoreCommand
    { id := row.id
      backupId := row.backupId
      app := row.app
      limits := config.limits
      bytes := parts.encryption.plaintextBytes
      sha256 := parts.encryption.plaintextSha256 } (markSubmitted row)
  settle row result

/-- `throw await keyUnavailable(row)`. -/
def keyUnavailable {α : Type} (row : RestoreRow) : Program α := do
  authorizeEffect row.accountId row.grantId row.projectId .backupRestore
    (writeRestore row.id fun row => { row with state := .pending true })
  raise (retryableError .resourceBusy
    "Restore is waiting for its matching backup wrapping key. Recover the private offline keyring and verify the backup receipt. No download or database restore started; the isolated target remains billable.")

/-- The keyring, and that it opens the source's envelope. -/
def openKeyring (row : RestoreRow) (encryption : Encryption) : Program Unit := do
  let keyring ← Prog.ask (S := interface) .keyring
  match keyring with
  | .error _ => keyUnavailable row
  | .ok _ => do
    let verified ← Prog.ask (S := interface) (.verifyKey encryption)
    match verified with
    | .ok true => pure ()
    | .ok false => keyUnavailable row
    | .error fault => raise fault

/-- The source backup of a restore: its receipt. -/
def storedSource (row : RestoreRow) (store : Store) : Except WorkFault (Sealed × Receipt) := do
  let source ← present
    ((getBackup store row.backupId).filter fun source => source.accountId = row.accountId)
    (.fault (.other "Restore source ownership is missing."))
  match source.work with
  | .stored parts receipt _ _ => pure (parts, receipt)
  | _ => failed (.other "Restore source has no protected object version.")

def preparePhase (config : BackupConfig) (row : RestoreRow) (allocationId : AllocationId)
    (attempts : Nat) : Program Unit :=
  if 5 ≤ attempts then
    blockRestore row.id
      "Restore preparation could not verify its encrypted backup. No database restore was submitted."
  else do
    ask (.scratch row.id) rfl
    ask (.cleanupScratch row.id) rfl
    ask (.requireScratchSpace config.limits.maxBytes) rfl
    -- Revocation still terminates pending work even during an operator key outage.
    authorizeEffect row.accountId row.grantId row.projectId .backupRestore fun store => store
    let source ← Prog.transact fun _ store => do
      let source ← storedSource row store
      pure (source, store)
    openKeyring row source.1.encryption
    authorizeEffect row.accountId row.grantId row.projectId .backupRestore
      (writeRestore row.id fun row =>
        { row with state := .pending false, work := .prepare (attempts + 1) })
    Prog.ensure (submitRestore config row allocationId source.1 source.2)
      (ask (.cleanupScratch row.id) rfl)

/-- `submitted`: only the guest's evidence can end it. -/
def submittedPhase (row : RestoreRow) (allocationId : AllocationId) (attempts : Nat) :
    Program Unit := do
  ask (.cleanupScratch row.id) rfl
  if 5 ≤ attempts then
    blockRestore row.id
      "Restore response remains unresolved. This target stays isolated and SQL is not replayed. Inspect the target or destroy it and start a new restore."
  else do
    saveRestore row.id (.submitted (attempts + 1))
    ask (.openGuest row.machineId allocationId) rfl
    let reply ← Prog.ask (S := interface) (.inspectRestore row.id)
    let state ← thrown reply
    match state with
    | some (.restored result) => finish row result
    | some (.failed _ _) =>
      blockRestore row.id
        "The isolated guest reported restore failure. Its target is retained for cleanup; the source backup is unchanged."
    | _ =>
      raise (retryableError .guestUnreachable "Restore completion is awaiting guest evidence.")

/-- The allocation of a verified target. -/
def verifiedTarget (state : MachineState) : Option AllocationId :=
  if state.sshGuest then state.allocation? else none

/-- The phases after the target's provisioning succeeded. -/
def targetPhase (config : BackupConfig) (row : RestoreRow) (target : TargetMachine)
    (work : RestoreWork) : Program Unit :=
  match verifiedTarget target.state with
  | none => raise (retryableError .resourceBusy
      "Restore is waiting for its verified target guest.")
  | some allocationId =>
    match work with
    | .submitted attempts => submittedPhase row allocationId attempts
    | .prepare attempts => preparePhase config row allocationId attempts
    | _ => pure ()

/-- `waiting`: the outcome of the provisioning operation. -/
def waitingPhase (config : BackupConfig) (row : RestoreRow) (target : TargetMachine) :
    Program Unit := do
  let operation ← Prog.observe (S := interface) fun env _ =>
    (env.operations.find? fun operation => operation.1 = row.operationId).map Prod.snd
  match operation with
  | none => raise (.other "Restore provisioning operation is missing.")
  | some .failed =>
    blockRestore row.id
      "Restore target provisioning did not succeed. Inspect its operation and cleanup obligations; the source backup is unchanged."
  | some .unfinished => pure ()
  | some .succeeded => do
    saveRestore row.id (.prepare 0)
    targetPhase config row target (.prepare 0)

def readRestore (id : RestoreId) : Program (Option RestoreRow) :=
  Prog.read (S := interface) fun store => getRestore store id

def advancePending (config : BackupConfig) (row : RestoreRow) : Program Unit := do
  let target ← Prog.read (S := interface) fun store =>
    store.machines.find? fun machine =>
      machine.id = row.machineId ∧ machine.accountId = row.accountId
  match target with
  | none => raise (.other "Restore target ownership is missing.")
  | some target =>
    if 4 ≤ target.state.stage then
      blockRestore row.id "Restore target was destroyed. The source backup is unchanged."
    else if row.work = .waiting then waitingPhase config row target
    else targetPhase config row target row.work

def RestoreState.isPending : RestoreState → Bool
  | .pending _ => true
  | _ => false

def advanceRestore (config : BackupConfig) (id : RestoreId) : Program Unit := do
  let row ← readRestore id
  match row with
  | none => pure ()
  | some row => if row.state.isPending then advancePending config row else pure ()

/-! ## Ticks -/

def revokedReason : String :=
  "The admitting credential is no longer authorized. Existing protected data and infrastructure cleanup obligations remain owned by the account."

/-- `catch (error) { if (!(error instanceof BackupAuthorityError)) throw error; ... }`. -/
def onAuthority (work : Program Unit) (blocked : Program Unit) : Program Unit :=
  Prog.tryCatch work fun fault =>
    match fault with
    | .authority => blocked
    | fault => Prog.throw fault

/-- The scratch file of a backup stays only while its upload is ready. -/
def tidyBackup (id : BackupId) : Program Unit := do
  let row ← readBackup id
  if row.any fun row => row.work.rank ≠ 2 then ask (.cleanupScratch id) rfl
  else pure ()

/-- `advance('backup', id)`. -/
def advanceBackupTick (config : BackupConfig) (id : BackupId) : Program Unit :=
  Prog.ensure (onAuthority (advanceCapture config id) (blockBackup id revokedReason))
    (tidyBackup id)

/-- `advance('restore', id)`. -/
def advanceRestoreTick (config : BackupConfig) (id : RestoreId) : Program Unit :=
  onAuthority (advanceRestore config id) (blockRestore id revokedReason)

end AgentCloud.Backups
