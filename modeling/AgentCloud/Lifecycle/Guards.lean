/-
  THE TRIGGERS: what the database itself refuses, whoever writes.

  Migrations 0018, 0019 and 0027 guard the journal a second time, below the workers.  Each guard is
  a check on the row before and the row after, read with the journal as it is at the write; a write
  of the model is the table operation behind its guard.  A refusal is an exception of the driver, not
  a `CloudError`, so no worker handles it.
-/
import AgentCloud.Lifecycle.Records

namespace AgentCloud.Lifecycle

open Checked

/-- `RAISE EXCEPTION ... ERRCODE='23514'`. -/
def raised (message : String) : Fault := .other message

/-! ## Attempts -/

/-- `guard_provider_attempt` of an update. -/
def guardProviderAttempt (env : Env) (journal : Journal) (old new : Attempt) :
    Except Fault Unit := do
  refuse ({ new with outcome := old.outcome, resolution := old.resolution } ≠ old)
    (raised "Provider attempt identity and command are immutable")
  refuse (new.outcome ≠ old.outcome ∧ old.outcome ≠ .prepared)
    (raised "Provider attempt outcome can be recorded only once")
  refuse (new.resolution ≠ old.resolution ∧ old.resolution ≠ .pending)
    (raised "Provider attempt resolution can be recorded only once")
  match new.resolution with
  | .operatorClosed recoveryId =>
    refuse (new.outcome ≠ old.outcome ∨ ¬ journal.recoveries.any fun row =>
        decide (row.id = recoveryId ∧ row.attemptId = new.id ∧ row.request.kind ≠ .retryDelete) &&
        (journal.cleanup row.operationId).any fun cleanup =>
          cleanup.sourceOperationId = new.operationId)
      (raised "Operator closure requires its exact retained recovery record")
  | .controlClosed recoveryId =>
    refuse (¬ journal.closures.any fun closure =>
        closure.id = recoveryId ∧ closure.operationId = new.operationId ∧
          env.recovering = some closure.recoveryId)
      (raised "Control closure requires an exact retained fenced recovery record")
  | _ => pure ()

/-- The attempts of a cleanup that deleted exactly this. -/
def submitted (journal : Journal) (cleanup : OperationCleanup) (command : ProviderCommand) :
    List Attempt :=
  (journal.cleanupHistory cleanup).filter fun attempt => attempt.command = command

/-- `max(created_at)`. -/
def latest (attempts : List Attempt) : Instant :=
  attempts.foldl (fun time attempt => max time attempt.createdAt) 0

/-- `CASE WHEN submitted=1 THEN interval '5 seconds' ELSE interval '30 seconds' END`. -/
def backoff (submitted : Nat) : Nat := if submitted = 1 then 5000 else 30000

/-- Some server create of an operation is pending. -/
def pendingServer (journal : Journal) (operationId : OperationId) : Bool :=
  (journal.history operationId).any fun attempt => attempt.command.isServerCreate && attempt.pending

/-- A server of the allocation is not recorded absent. -/
def liveServer (journal : Journal) : Bool :=
  journal.resources.any fun resource => decide (resource.ref.kind = .server) && resource.live

/-- `guard_cleanup_effect` for an operation that a cleanup touches. -/
def guardAdmittedEffect (journal : Journal) (now : Instant) (new : Attempt) : Except Fault Unit := do
  let cleanup ← present (journal.cleanup new.operationId)
    (raised "Admitted cleanup permits only exact owned deletion effects")
  let ref ← present new.command.deletes?
    (raised "Admitted cleanup permits only exact owned deletion effects")
  refuse ((journal.operation new.operationId).any OperationRow.terminal ∨
      ¬ (journal.resource ref).any OwnedResource.live)
    (raised "Admitted cleanup permits only exact owned deletion effects")
  refuse (ref.kind = .primaryIp ∧
      (pendingServer journal cleanup.sourceOperationId ∨ liveServer journal))
    (raised "Unsettled server ownership prevents IP deletion")
  refuse (journal.deleteLimit cleanup.operationId new.command ≤
        (submitted journal cleanup new.command).length ∨
      (0 < (submitted journal cleanup new.command).length ∧
        now < latest (submitted journal cleanup new.command) +
          backoff (submitted journal cleanup new.command).length))
    (raised "Cleanup delete retries exceed their durable count or backoff")

/-- `guard_cleanup_effect`. -/
def guardCleanupEffect (journal : Journal) (now : Instant) (new : Attempt) : Except Fault Unit :=
  if journal.cleanups.any fun cleanup => cleanup.sourceOperationId = new.operationId ∨
      cleanup.operationId = new.operationId then
    guardAdmittedEffect journal now new
  else pure ()

/-- `INSERT INTO provider_attempts`, with its keys. -/
def insertAttempt (env : Env) (journal : Journal) (now : Instant) (new : Attempt) :
    Except Fault Journal := do
  refuse (journal.attempts.any fun attempt => attempt.id = new.id ∨
      (attempt.operationId = new.operationId ∧ attempt.sequence = new.sequence))
    (raised "duplicate key value violates unique constraint")
  refuse (journal.operation new.operationId = none)
    (raised "insert or update violates foreign key constraint")
  refuse (new.outcome ≠ .prepared ∨ new.resolution ≠ .pending)
    (raised "Provider attempts must begin prepared and unresolved")
  guardCleanupEffect journal now new
  match env.refused with
  | some message => throw (raised message)
  | none => pure { journal with attempts := journal.attempts ++ [new] }

/-- `UPDATE provider_attempts SET ... WHERE ...`. -/
def updateAttempts (env : Env) (journal : Journal) (where? : Attempt → Bool)
    (f : Attempt → Attempt) : Except Fault Journal := do
  let _ ← checkEach (fun old => guardProviderAttempt env journal old (f old))
    (journal.attempts.filter where?)
  pure { journal with
    attempts := journal.attempts.map fun attempt => if where? attempt then f attempt else attempt }

/-! ## Operations -/

/-- `one_active_operation`. -/
def oneActive (operations : List OperationRow) : Bool :=
  decide ((operations.filter fun operation => !operation.terminal).length ≤ 1)

/-- How a cleanup's operation ends. -/
def OperationProgress.endsCleanup (kind : OperationKind) : OperationProgress → Bool
  | cancelled _ => decide (kind = .create)
  | succeeded _ => decide (kind ≠ .create)
  | _ => false

/-- `guard_cleanup_operation`. -/
def guardCleanupOperation (journal : Journal) (old new : OperationRow) : Except Fault Unit :=
  match journal.cleanup old.id with
  | none => pure ()
  | some cleanup =>
    refuse ({ new with progress := old.progress } ≠ old ∨
        (old.terminal = true ∧ new.progress ≠ old.progress) ∨
        (new.terminal = true ∧ (new.progress.endsCleanup new.kind = false ∨
          journal.settled cleanup = false ∨ journal.allocation.live = true)))
      (raised "Cleanup identity is immutable and terminality requires complete absence")

/-- `UPDATE operations SET ... WHERE id = ...`. -/
def updateOperation (journal : Journal) (id : OperationId) (f : OperationRow → OperationRow) :
    Except Fault Journal :=
  match journal.operation id with
  | none => pure journal
  | some old => do
    guardCleanupOperation journal old (f old)
    let operations := Table.update OperationRow.id journal.operations id f
    refuse (oneActive operations = false) (raised "duplicate key value violates unique constraint")
    pure { journal with operations }

/-- `INSERT INTO operations`. -/
def insertOperation (journal : Journal) (new : OperationRow) : Except Fault Journal := do
  refuse (journal.operation new.id ≠ none ∨ oneActive (journal.operations ++ [new]) = false)
    (raised "duplicate key value violates unique constraint")
  pure { journal with operations := journal.operations ++ [new] }

/-! ## The allocation -/

/-- `guard_cleanup_retirement`. -/
def guardCleanupRetirement (journal : Journal) (new : Allocation) : Except Fault Unit :=
  refuse (journal.allocation.live = true ∧ new.live = false ∧
      ¬ journal.cleanups.all fun cleanup => journal.settled cleanup)
    (raised "Cleanup retains its reservation until all effects and resources settle")

/-- `UPDATE allocations SET ... WHERE id = ...`. -/
def updateAllocation (journal : Journal) (f : Allocation → Allocation) : Except Fault Journal := do
  guardCleanupRetirement journal (f journal.allocation)
  pure { journal with allocation := f journal.allocation }

/-! ## Cleanups -/

/-- `guard_operation_cleanup`. -/
def guardOperationCleanup (journal : Journal) (new : OperationCleanup) : Except Fault Unit := do
  let source ← present (journal.operation new.sourceOperationId)
    (raised "Cleanup must bind the admitted live allocation and original create")
  let executor ← present (journal.operation new.operationId)
    (raised "Cleanup must bind the admitted live allocation and original create")
  refuse (source.kind ≠ .create ∨ journal.allocation.live = false ∨
      journal.machine.version ≠ new.expectedVersion ∨
      executor.intent ≠ .cleanup source.id ∨ executor.progress ≠ .cleaningUp ∨
      ¬ ((executor.id = source.id ∧ executor.kind = .create) ∨
        (executor.id ≠ source.id ∧ executor.kind = .destroy ∧ source.progress.concluded = true ∧
          executor.command.allowsDataLoss = true)))
    (raised "Cleanup must bind the admitted live allocation and original create")

/-- `INSERT INTO operation_cleanups`. -/
def insertCleanup (journal : Journal) (new : OperationCleanup) : Except Fault Journal := do
  refuse (journal.cleanup new.operationId ≠ none)
    (raised "duplicate key value violates unique constraint")
  guardOperationCleanup journal new
  pure { journal with cleanups := journal.cleanups ++ [new] }

/-! ## Recoveries -/

/-- The resource IDs that the source of an attempt retains: those of the attempt's kind. -/
def retainedIds (journal : Journal) (attempt : Attempt) : List String :=
  (journal.resources.filter fun resource => resource.ref.kind = attempt.command.resourceKind ∧
    resource.labels.lookup "operation_id" = some attempt.operationId).map fun resource =>
      resource.ref.id

/-- `guard_operator_recovery`. -/
def guardOperatorRecovery (journal : Journal) (new : RecoveryRow) : Except Fault Unit := do
  let cleanup ← present (journal.cleanup new.operationId)
    (raised "Recovery must bind a live admitted cleanup and its retained attempt")
  let source ← present (journal.attempt new.attemptId)
    (raised "Recovery must bind a live admitted cleanup and its retained attempt")
  refuse (journal.allocation.live = false ∨
      (journal.operation new.operationId).any OperationRow.terminal ∨
      (source.operationId ≠ cleanup.operationId ∧
        source.operationId ≠ cleanup.sourceOperationId) ∨
      new.request.id ≠ new.id ∨ new.request.operationId ≠ cleanup.operationId ∨
      new.request.allocationId ≠ journal.allocation.id ∨
      new.request.accountId ≠ journal.machine.accountId ∨ new.request.attemptId ≠ source.id ∨
      isOperator new.request.operator = false ∨ isDigest new.request.evidence.sha256 = false ∨
      ¬ (1 ≤ new.request.evidence.reference.length ∧
        new.request.evidence.reference.length ≤ 256))
    (raised "Recovery must bind a live admitted cleanup and its retained attempt")
  match new.request.kind with
  | .closeCreate resourceIds => do
    refuse (source.command.isCreation = false ∨
        source.operationId ≠ cleanup.sourceOperationId ∨ source.resolution ≠ .pending ∨
        source.outcome.uncertain = false)
      (raised "Only an uncertain source create can receive explicit provider closure")
    refuse ((retainedIds journal source).isPerm resourceIds = false)
      (raised "Provider closure must acknowledge every retained source resource")
  | .retryDelete => do
    let ref ← present source.command.deletes?
      (raised "Retry authority permits only a retained live deletion target")
    refuse (¬ (journal.resource ref).any OwnedResource.live)
      (raised "Retry authority permits only a retained live deletion target")
    refuse ((submitted journal cleanup source.command).getLast?.map Attempt.id ≠ some source.id ∨
        (submitted journal cleanup source.command).length ≠
          journal.deleteLimit cleanup.operationId source.command)
      (raised "Retry authority requires the latest exhausted deletion attempt")

/-- `INSERT INTO operator_recoveries`: one decision for an identifier, and one for an attempt. -/
def insertRecovery (journal : Journal) (new : RecoveryRow) : Except Fault Journal := do
  refuse (journal.recoveries.any fun row => row.id = new.id ∨ row.attemptId = new.attemptId)
    (raised "duplicate key value violates unique constraint")
  guardOperatorRecovery journal new
  pure { journal with recoveries := journal.recoveries ++ [new] }

end AgentCloud.Lifecycle
