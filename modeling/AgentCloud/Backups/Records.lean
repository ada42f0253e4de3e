/-
  BACKUPS AND RESTORES: the rows, and the phases of the work recorded in them.

  The `work` of a backup goes capture -> encrypt -> upload_ready -> upload_submitted -> stored, and
  that of a restore waiting -> prepare -> submitted -> done.  The two phases `upload_submitted` and
  `submitted` are the marks: the phase is committed before the object is put, or the archive is
  streamed to the guest, and nothing ever leads back across it.  `BackupWork.rank` and
  `RestoreWork.rank` count the phases.

  Digests stand for the values they digest: a receipt digest is the receipt, a recipe digest the
  recipe.
-/
import AgentCloud.Lib.Durable
import AgentCloud.Lib.Table
import AgentCloud.Grants

namespace AgentCloud.Backups

open Checked Durable

abbrev BackupId := String
abbrev RestoreId := String

/-! ## Objects and their receipts -/

structure Limits where
  maxBytes : Nat
  timeoutSeconds : Nat
  deriving DecidableEq, Repr

structure Recipe where
  app : String
  releaseId : String
  service : String
  database : String
  user : String
  files : List String
  deriving DecidableEq, Repr

structure CaptureRequest where
  id : BackupId
  recipe : Recipe
  limits : Limits
  deriving DecidableEq, Repr

structure Manifest where
  recipe : Recipe
  capturedAt : Instant
  deriving DecidableEq, Repr

/-- `backupCapturedStateSchema`: what the guest captured. -/
structure Capture where
  id : BackupId
  manifest : Manifest
  bytes : Nat
  sha256 : String
  deriving DecidableEq, Repr

structure Encryption where
  plaintextBytes : Nat
  plaintextSha256 : String
  ciphertextBytes : Nat
  envelope : String
  deriving DecidableEq, Repr

inductive RetentionMode where
  | governance
  | compliance
  deriving DecidableEq, Repr

structure Retention where
  mode : RetentionMode
  retainUntil : Instant
  deriving DecidableEq, Repr

structure Digests where
  size : Nat
  ciphertextSha256 : String
  contentMd5 : String
  deriving DecidableEq, Repr

structure Intent where
  storeId : String
  bucket : String
  key : String
  attemptId : BackupId
  digests : Digests
  retention : Retention
  deriving DecidableEq, Repr

structure Receipt where
  intent : Intent
  versionId : String
  deriving DecidableEq, Repr

/-- The three columns that every phase from `upload_ready` on retains. -/
structure Sealed where
  capture : Capture
  encryption : Encryption
  intent : Intent
  deriving DecidableEq, Repr

/-! ## Backups -/

inductive BackupWork where
  | capture (attempts : Nat)
  | encrypt (captured : Capture) (attempts : Nat)
  | uploadReady (sealed : Sealed)
  | uploadSubmitted (sealed : Sealed) (attempts : Nat)
  | stored (sealed : Sealed) (receipt : Receipt) (cleaned : Bool) (attempts : Nat)
  deriving DecidableEq, Repr

namespace BackupWork

def rank : BackupWork → Nat
  | capture _ => 0
  | encrypt .. => 1
  | uploadReady _ => 2
  | uploadSubmitted .. => 3
  | stored .. => 4

def sealed? : BackupWork → Option Sealed
  | uploadReady parts => some parts
  | uploadSubmitted parts _ => some parts
  | stored parts .. => some parts
  | _ => none

end BackupWork

inductive Validation where
  | captured
  | restoreVerified
  deriving DecidableEq, Repr

inductive BackupState where
  | pending
  | blocked (reason : String)
  | purgePending (purgeId : String)
  | purged (purgeId : String) (purgedAt : Instant)
  | captured (bytes : Nat) (capturedAt : Instant) (validation : Validation) (manifest : Manifest)
  deriving DecidableEq, Repr

structure BackupRow where
  id : BackupId
  accountId : AccountId
  projectId : ProjectId
  machineId : MachineId
  allocationId : AllocationId
  grantId : GrantId
  request : CaptureRequest
  createdAt : Instant
  retainUntil : Instant
  state : BackupState
  work : BackupWork
  reservedBytes : Nat
  deriving DecidableEq, Repr

namespace BackupRow

/-- An upload intent of a row is for an object of this backup. -/
def SealedOwn (row : BackupRow) : Prop := ∀ parts ∈ row.work.sealed?, parts.intent.attemptId = row.id

end BackupRow

/-! ## Restores -/

inductive RestoreWork where
  | waiting
  | prepare (attempts : Nat)
  | submitted (attempts : Nat)
  | done
  deriving DecidableEq, Repr

def RestoreWork.rank : RestoreWork → Nat
  | .waiting => 0
  | .prepare _ => 1
  | .submitted _ => 2
  | .done => 3

/-- `restoreCompletedStateSchema`. -/
structure Completed where
  id : RestoreId
  app : String
  releaseId : String
  deriving DecidableEq, Repr

inductive RestoreState where
  | pending (waitingForKey : Bool)
  | blocked (reason : String)
  | restored (result : Completed)
  deriving DecidableEq, Repr

structure RestoreRow where
  id : RestoreId
  backupId : BackupId
  accountId : AccountId
  projectId : ProjectId
  machineId : MachineId
  operationId : OperationId
  grantId : GrantId
  app : String
  createdAt : Instant
  state : RestoreState
  work : RestoreWork
  deriving DecidableEq, Repr

/-- `restoreGuestStateSchema`. -/
inductive RestoreGuestState where
  | pending (id : RestoreId)
  | failed (id : RestoreId) (reason : String)
  | restored (result : Completed)
  deriving DecidableEq, Repr

/-- `backupGuestStateSchema`. -/
inductive BackupGuestState where
  | missing
  | pending (id : BackupId)
  | failed (id : BackupId) (reason : String)
  | captured (capture : Capture)
  deriving DecidableEq, Repr

structure RestoreGuestRequest where
  id : RestoreId
  backupId : BackupId
  app : String
  limits : Limits
  bytes : Nat
  sha256 : String
  deriving DecidableEq, Repr

/-! ## Purges -/

abbrev PurgeId := String

inductive PurgeReason where
  | customer
  | retention
  deriving DecidableEq, Repr

inductive PurgeState where
  | waiting (notBefore : Instant)
  | submitted (attemptedAt : Instant)
  | blocked (retryAt : Instant)
  | purged (purgedAt : Instant)
  deriving DecidableEq, Repr

structure PurgeRow where
  id : PurgeId
  backupId : BackupId
  accountId : AccountId
  projectId : ProjectId
  reason : PurgeReason
  grantId : Option GrantId
  createdAt : Instant
  state : PurgeState
  nextAttemptAt : Option Instant
  deriving DecidableEq, Repr

/-! ## Daily schedules -/

abbrev ScheduleId := String

/-- `attemptSchema`. -/
inductive Attempt where
  | none
  | admitted (date : Instant) (backupId : BackupId)
  | refused (date : Instant) (failure : Failure)
  deriving DecidableEq, Repr

structure ScheduleRow where
  id : ScheduleId
  accountId : AccountId
  projectId : ProjectId
  machineId : MachineId
  allocationId : AllocationId
  grantId : GrantId
  recipe : Recipe
  createdAt : Instant
  nextRunAt : Instant
  disabledAt : Option Instant
  lastAttempt : Attempt
  deriving DecidableEq, Repr

/-- A capture that a schedule admitted, for the slot that was due. -/
structure ScheduleRun where
  scheduleId : ScheduleId
  backupId : BackupId
  dueAt : Instant
  deriving DecidableEq, Repr

/-! ## The store and the outside -/

structure TargetMachine where
  id : MachineId
  accountId : AccountId
  projectId : ProjectId
  state : MachineState
  deriving DecidableEq, Repr

/-- The tables of the backups, and the machines, which other parts of the control plane write as
    well. -/
structure Store where
  backups : List BackupRow
  restores : List RestoreRow
  purges : List PurgeRow
  schedules : List ScheduleRow
  runs : List ScheduleRun
  machines : List TargetMachine
  deriving DecidableEq, Repr

def getBackup (store : Store) (id : BackupId) : Option BackupRow :=
  Table.get BackupRow.id store.backups id

def getRestore (store : Store) (id : RestoreId) : Option RestoreRow :=
  Table.get RestoreRow.id store.restores id

def getPurge (store : Store) (id : PurgeId) : Option PurgeRow :=
  Table.get PurgeRow.id store.purges id

def getSchedule (store : Store) (id : ScheduleId) : Option ScheduleRow :=
  Table.get ScheduleRow.id store.schedules id

def updateBackup (store : Store) (id : BackupId) (f : BackupRow → BackupRow) : Store :=
  { store with backups := Table.update BackupRow.id store.backups id f }

def updateRestore (store : Store) (id : RestoreId) (f : RestoreRow → RestoreRow) : Store :=
  { store with restores := Table.update RestoreRow.id store.restores id f }

def updatePurge (store : Store) (id : PurgeId) (f : PurgeRow → PurgeRow) : Store :=
  { store with purges := Table.update PurgeRow.id store.purges id f }

def updateSchedule (store : Store) (id : ScheduleId) (f : ScheduleRow → ScheduleRow) : Store :=
  { store with schedules := Table.update ScheduleRow.id store.schedules id f }

def isDestroyed (store : Store) (machineId : MachineId) : Bool :=
  store.machines.any fun machine => machine.id = machineId ∧ 4 ≤ machine.state.stage

/-- `progress.kind` of a provisioning operation, as far as a restore looks at it. -/
inductive Provisioning where
  | unfinished
  | succeeded
  | failed
  deriving DecidableEq, Repr

/-- What a transaction reads besides the store: the clock, `randomUUID`, and the rows that other
    parts of the control plane write, revocations of grants among them. -/
structure Env where
  now : Instant
  uuid : String
  accounts : List AccountId
  grants : List Grant
  operations : List (OperationId × Provisioning)

/-- `acld-*` metadata of a stored object. -/
structure Metadata where
  attempt : String
  sha256 : String
  size : Nat
  intent : Intent
  deriving DecidableEq, Repr

/-- The head of an object version. -/
structure Head where
  versionId : String
  contentLength : Nat
  metadata : Option Metadata
  deleteMarker : Bool
  deriving DecidableEq, Repr

structure ListedVersion where
  key : String
  versionId : String
  deriving DecidableEq, Repr

structure VersionPage where
  versions : List ListedVersion
  isTruncated : Option Bool
  next : Option (String × String)
  deriving DecidableEq, Repr

/-- `BackupAuthorityError`, or anything else. -/
inductive WorkFault where
  | fault (fault : Fault)
  | authority
  deriving DecidableEq, Repr

inductive Call where
  /-- `withGuest`: the machine lock, the guest's identity and its credential. -/
  | openGuest (machineId : MachineId) (allocationId : AllocationId)
  | captureGuest (request : CaptureRequest)
  | readAndEncrypt (id : BackupId) (captured : Capture) (keyring : String)
  | removeGuest (id : BackupId)
  | scratch (id : String)
  | requireScratchSpace (maxBytes : Nat)
  | cleanupScratch (id : String)
  | keyring
  | verifyKey (encryption : Encryption)
  | localClock
  | hashFile (id : BackupId)
  | alreadySubmitted (attemptId : BackupId)
  | checkProtection
  | putObject (intent : Intent)
  | headObject (key versionId : String)
  | getObject (receipt : Receipt)
  | getRetention (receipt : Receipt)
  | listVersions (key : String) (marker : Option (String × String))
  /-- The head of one version; a 404 is `none`. -/
  | probeVersion (receipt : Receipt)
  | deleteVersion (receipt : Receipt)
  | downloadAndDecrypt (id : RestoreId) (receipt : Receipt) (encryption : Encryption)
  | spawnRestore (id : RestoreId)
  | streamRestore (request : RestoreGuestRequest)
  | inspectRestore (id : RestoreId)
  deriving DecidableEq, Repr

/-- The reply of a call; a thrown error is one of them. -/
abbrev Call.Reply : Call → Type
  | .openGuest .. => Except Fault Unit
  | .captureGuest _ => Except Fault BackupGuestState
  | .readAndEncrypt .. => Except Fault Encryption
  | .removeGuest _ => Except Fault Unit
  | .scratch _ => Except Fault Unit
  | .requireScratchSpace _ => Except Fault Unit
  | .cleanupScratch _ => Except Fault Unit
  | .keyring => Except Fault String
  | .verifyKey _ => Except Fault Bool
  | .localClock => Instant
  | .hashFile _ => Except Fault Digests
  | .alreadySubmitted _ => Bool
  | .checkProtection => Except Fault Unit
  | .putObject _ => Except Fault String
  | .headObject .. => Except Fault Head
  | .getObject _ => Except Fault Head
  | .getRetention _ => Except Fault Retention
  | .listVersions .. => Except Fault VersionPage
  | .probeVersion _ => Except Fault (Option Head)
  | .deleteVersion _ => Except Fault Unit
  | .downloadAndDecrypt .. => Except Fault Unit
  | .spawnRestore _ => Except Fault Unit
  | .streamRestore _ => Except Fault RestoreGuestState
  | .inspectRestore _ => Except Fault (Option RestoreGuestState)

abbrev interface : Interface where
  Env := Env
  Store := Store
  Call := Call
  Reply := Call.Reply
  Fault := WorkFault

abbrev Program := Prog interface

/-- A transaction's own check fails. -/
def failed {α : Type} (f : Fault) : Except WorkFault α := .error (.fault f)

def lift {α : Type} : Except Fault α → Except WorkFault α
  | .ok a => .ok a
  | .error f => .error (.fault f)

/-- Throws what a reply threw. -/
def thrown {α : Type} (r : Except Fault α) : Program α := Prog.ofExcept (lift r)

def ask (c : Call) (h : c.Reply = Except Fault Unit) : Program Unit := do
  let reply ← Prog.ask (S := interface) c
  thrown (h ▸ reply)

/-- `throw new Error(message)` when the condition holds. -/
def refuseIf (c : Prop) [Decidable c] (message : String) : Program Unit :=
  Prog.ofExcept (refuse c (.fault (.other message)))

def raise {α : Type} (f : Fault) : Program α := Prog.throw (.fault f)

end AgentCloud.Backups
