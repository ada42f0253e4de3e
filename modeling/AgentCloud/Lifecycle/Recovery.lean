/-
  RECOVERIES: what an operator may decide about the effects of a cleanup, and the other writers of
  the journal.

  `applyRecovery` admits the two decisions of operator recovery.  It reads the provider outside of
  its transaction, keeps every resource it discovers even where it then refuses, and writes the
  decision only if the journal is still the one that the operator inspected.  It submits nothing.

  `closeOperation` is the closure of control recovery, under a lock that excludes every worker.
  `handoffRuntime` is the step of guest enrollment that touches an operation.
-/
import AgentCloud.Lifecycle.Cleanup

namespace AgentCloud.Lifecycle

open Checked Durable

/-! ## The inspected state -/

/-- `state`: everything about a cleanup that a decision depends on. -/
def snapshot (journal : Journal) (operationId : OperationId) : Except Fault Snapshot := do
  let authority ← present (journal.cleanup operationId)
    (cloudError .permissionDenied "Admit machine destroy before operator recovery.")
  let operation ← present (journal.operation operationId)
    (cloudError .internalError "Cleanup ownership is missing.")
  pure
    { authority
      operation
      allocation := journal.allocation
      attempts := journal.cleanupHistory authority
      resources := journal.resources
      recoveries := (journal.recoveries.filter fun row => row.operationId = operationId).map
        RecoveryRow.mark }

/-- The scope of a decision, checked before the provider is read. -/
def checkScope (provider : ProviderKind) (journal : Journal) (current : Snapshot)
    (request : OperatorRecovery) : Except Fault Attempt := do
  refuse (request.accountId ≠ journal.machine.accountId ∨
      request.allocationId ≠ current.allocation.id ∨ provider ≠ current.allocation.provider)
    (cloudError .permissionDenied "Recovery scope or provider does not match its cleanup.")
  refuse (current.allocation.live = false ∨ current.operation.terminal = true)
    (cloudError .permissionDenied "Recovery cannot reopen completed cleanup.")
  refuse (request.expectedState ≠ current)
    (cloudError .versionConflict "Recovery state changed; inspect it again.")
  present (current.attempts.find? fun attempt => attempt.id = request.attemptId)
    (cloudError .permissionDenied "Target attempt is outside this cleanup.")

/-! ## Closing an uncertain create -/

/-- Claims the matches that the ledger does not know; whether one conflicts with it. -/
def claimUnknown (current : Snapshot) (kind : ResourceKind) (labels : Labels) :
    List (String × Labels) → Bool → Program Bool
  | [], mismatch => pure mismatch
  | (id, found) :: rest, mismatch =>
    if matchesLabels found labels then
      match current.resources.find? fun row => row.ref = ⟨kind, id⟩ with
      | some known =>
        claimUnknown current kind labels rest
          (mismatch || !known.live || !matchesLabels known.labels labels)
      | none => do
        let conflict ← Prog.tryCatch
          (do
            claimNow ⟨kind, id⟩ labels
            pure false)
          fun fault =>
            match fault with
            | .cloud _ => pure true
            | .other message => raise (.other message)
        claimUnknown current kind labels rest (mismatch || conflict)
    else claimUnknown current kind labels rest true

/-- The resources that the source of an attempt retains. -/
def sourceResources (current : Snapshot) (target : Attempt) : List OwnedResource :=
  current.resources.filter fun row => row.ref.kind = target.command.resourceKind ∧
    row.labels.lookup "operation_id" = some target.operationId

/-- An exact read that contradicts the retained row. -/
def contradicts (row : OwnedResource) (seen : Option Sighting) : Bool :=
  seen.any fun sighting => !row.live || decide (sighting.id ≠ row.ref.id) ||
    !matchesLabels sighting.labels row.labels

/-- Every retained resource is read once more. -/
def confirmSources : List OwnedResource → Program Unit
  | [] => pure ()
  | row :: rest => do
    let seen ← look row.ref
    Prog.ofExcept (refuse (contradicts row seen = true)
      (cloudError .providerOutcomeUnknown
        "Exact provider identity conflicts with the recovery evidence."))
    confirmSources rest

/-- Only an uncertain create of the source can be closed. -/
def checkClosable (current : Snapshot) (target : Attempt) : Except Fault Unit :=
  refuse (target.operationId ≠ current.authority.sourceOperationId ∨
      target.resolution ≠ .pending ∨ target.outcome.uncertain = false ∨
      target.command.isCreation = false)
    (cloudError .permissionDenied "Only an uncertain source create can receive provider closure.")

def checkClosure (request : OperatorRecovery) (current : Snapshot) (target : Attempt)
    (resourceIds : List String) : Program Unit := do
  Prog.ofExcept (checkClosable current target)
  let labels := target.command.labels?.getD []
  let found ← search target.command.resourceKind labels
  let mismatch ← claimUnknown current target.command.resourceKind labels found false
  -- discoveries survive a rejection: they were claimed outside of any transaction
  let journal ← readJournal
  let discovered ← Prog.ofExcept (snapshot journal request.operationId)
  Prog.ofExcept (refuse (discovered ≠ request.expectedState)
    (cloudError .versionConflict "Provider inventory added evidence; inspect recovery again."))
  Prog.ofExcept (refuse (mismatch = true)
    (cloudError .providerOutcomeUnknown
      "Provider inventory conflicts with retained ownership."))
  Prog.ofExcept (refuse
    (((sourceResources current target).map fun row => row.ref.id).isPerm resourceIds = false)
    (cloudError .invalidInput "Closure must acknowledge every retained source resource ID."))
  confirmSources (sourceResources current target)

/-! ## Granting a retry -/

/-- The latest deletion of its target, and its allowance is used up. -/
def checkExhausted (journal : Journal) (current : Snapshot) (target : Attempt) :
    Except Fault ResourceRef := do
  let ref ← present target.command.deletes?
    (cloudError .permissionDenied "Retry authority requires a deletion attempt.")
  let history := current.attempts.filter fun attempt => attempt.command = target.command
  refuse (history.getLast?.map Attempt.id ≠ some target.id ∨
      history.length ≠ journal.deleteLimit current.operation.id target.command)
    (cloudError .permissionDenied "Retry requires the latest exhausted exact-target deletion.")
  pure ref

/-- The target is still there, ours and free. -/
def stillOwned (current : Snapshot) (ref : ResourceRef) (seen : Option Sighting) : Bool :=
  match current.resources.find? fun row => decide (row.ref = ref) && row.live, seen with
  | some row, some sighting =>
    decide (sighting.id = ref.id) && matchesLabels sighting.labels row.labels && sighting.free
  | _, _ => false

def checkRetry (current : Snapshot) (target : Attempt) : Program Unit := do
  let journal ← readJournal
  let ref ← Prog.ofExcept (checkExhausted journal current target)
  let seen ← look ref
  Prog.ofExcept (refuse (stillOwned current ref seen = false)
    (cloudError .providerOutcomeUnknown
      "Deletion target is absent or ownership changed; reconcile cleanup."))
  match runningAction [target] with
  | none => pure ()
  | some actionId => do
    let action ← getAction actionId
    Prog.ofExcept (refuse (action = .running)
      (retryableError .resourceBusy "The latest deletion action is still running."))

/-! ## The decision -/

/-- The transaction that records a decision, on the journal that was inspected. -/
def recordRecovery (env : Env) (journal : Journal) (request : OperatorRecovery)
    (target : Attempt) : Except Fault Journal := do
  let current ← snapshot journal request.operationId
  refuse (current ≠ request.expectedState)
    (cloudError .versionConflict "Recovery state changed before admission.")
  let journal ← insertRecovery journal
    ⟨request.id, request.operationId, request.attemptId, request⟩
  match request.kind with
  | .retryDelete => pure journal
  | .closeCreate _ =>
    updateAttempts env journal
      (fun row => decide (row.id = target.id ∧
        row.operationId = current.authority.sourceOperationId))
      fun row => { row with resolution := .operatorClosed request.id }

/-- What a decision must find at the provider. -/
def checkDecision (request : OperatorRecovery) (current : Snapshot) (target : Attempt) :
    Program Unit :=
  match request.kind with
  | .closeCreate resourceIds => checkClosure request current target resourceIds
  | .retryDelete => checkRetry current target

/-- `applyOperatorRecovery`. -/
def applyRecovery (provider : ProviderKind) (request : OperatorRecovery) : Program Unit := do
  let journal ← readJournal
  match journal.recoveries.find? fun row => row.id = request.id with
  | some saved =>
    Prog.ofExcept (refuse (saved.request ≠ request)
      (cloudError .idempotencyConflict
        "This recovery ID already describes a different decision."))
  | none => do
    let current ← Prog.ofExcept (snapshot journal request.operationId)
    let target ← Prog.ofExcept (checkScope provider journal current request)
    checkDecision request current target
    transact fun env _ journal => do
      let journal ← recordRecovery env journal request target
      pure ((), journal)

/-! ## Enrollment -/

/-- `handoffRuntime`: an operation that waits for enrollment waits for the runtime next. -/
def handoffJournal (journal : Journal) (operationId : OperationId) : Except Fault Journal :=
  match journal.allocation.serverId with
  | none => pure journal
  | some serverId =>
    if (journal.operation operationId).any fun operation =>
        operation.progress = .waitingGuest serverId .enrollment then
      updateOperation journal operationId fun operation =>
        { operation with progress := .waitingGuest serverId .runtime }
    else pure journal

def handoffRuntime (operationId : OperationId) : Program Unit :=
  transact fun _ _ journal => do
    let journal ← handoffJournal journal operationId
    pure ((), journal)

/-! ## Control recovery -/

/-- `inspectControlOperation`, which its digest stands for. -/
structure Inspection where
  operation : OperationRow
  allocation : Allocation
  history : List Attempt
  resources : List OwnedResource
  deriving DecidableEq, Repr

def inspect (journal : Journal) (operation : OperationRow) : Inspection :=
  ⟨operation, journal.allocation, journal.history operation.id, journal.resources⟩

/-- A `close_operation` request. -/
structure CloseRequest where
  id : RecoveryId
  recoveryId : RecoveryId
  operationId : OperationId
  expectedState : Inspection
  resourceIds : List ResourceRef
  deriving DecidableEq, Repr

/-- The resource that an attempt names, in its receipt or its command. -/
def attemptRef (attempt : Attempt) : Option ResourceRef :=
  match attempt.outcome with
  | .received (.accepted resource _) => some resource
  | .received (.completed resource) => some resource
  | _ => attempt.command.target?

/-- Every resource that the closure must acknowledge. -/
def requiredRefs (journal : Journal) (operation : OperationRow) : List ResourceRef :=
  journal.resources.map OwnedResource.ref ++
    (journal.allocation.serverId.map fun id => (⟨.server, id⟩ : ResourceRef)).toList ++
    (journal.history operation.id).filterMap attemptRef

/-- Another operation of the machine has an unresolved effect. -/
def otherPending (journal : Journal) (operationId : OperationId) : Bool :=
  journal.attempts.any fun attempt =>
    decide (attempt.operationId ≠ operationId) && attempt.pending

/-- The checks of a closure that need no provider. -/
def checkClose (provider : ProviderKind) (journal : Journal) (request : CloseRequest) :
    Except Fault OperationRow := do
  let operation ← present (journal.operation request.operationId)
    (cloudError .notFound "Operation not found.")
  refuse (inspect journal operation ≠ request.expectedState)
    (cloudError .versionConflict "Operation state changed. Inspect it again.")
  refuse (operation.terminal = true)
    (cloudError .permissionDenied "Only unfinished work can receive control recovery closure.")
  refuse (journal.allocation.live = false ∨ journal.allocation.provider ≠ provider)
    (cloudError .permissionDenied "Operation needs its exact live allocation and provider.")
  refuse (otherPending journal request.operationId = true)
    (cloudError .resourceBusy
      "Another operation has unresolved effects for this machine. Resolve its exact recovery first.")
  refuse (¬ request.resourceIds.Nodup ∨
      ¬ (requiredRefs journal operation).all fun ref => request.resourceIds.contains ref)
    (cloudError .invalidInput
      "Closure must acknowledge every exact retained resource without duplicates.")
  pure operation

/-- No acknowledged resource is there any more. -/
def confirmGone : List ResourceRef → Program Unit
  | [] => pure ()
  | ref :: rest => do
    let seen ← look ref
    Prog.ofExcept (refuse (seen.isSome = true)
      (cloudError .resourceBusy "An acknowledged exact resource still exists."))
    confirmGone rest

/-- The inventory of the allocation is empty. -/
def confirmEmpty (machine : MachineRow) (allocation : Allocation) : Program Unit := do
  let servers ← search .server (allocationLabels machine allocation)
  let ips ← search .primaryIp (allocationLabels machine allocation)
  Prog.ofExcept (refuse (servers ≠ [] ∨ ips ≠ [])
    (cloudError .resourceBusy
      "Owned provider resources remain. Preserve or clean them up before closure."))

/-- What a closure writes. -/
def closeJournal (env : Env) (now : Instant) (journal : Journal) (request : CloseRequest)
    (kind : OperationKind) : Except Fault Journal := do
  let journal := { journal with
    closures := journal.closures ++ [⟨request.id, request.operationId, request.recoveryId⟩] }
  let journal ← updateAttempts env journal
    (fun attempt => decide (attempt.operationId = request.operationId) && attempt.pending)
    fun attempt => { attempt with resolution := .controlClosed request.id }
  let journal := { journal with
    resources := journal.resources.map fun row =>
      if row.live then { row with absentAt := some now } else row }
  let journal ← updateAllocation journal fun allocation =>
    { allocation with retiredAt := some now }
  let journal := { journal with machine := journal.machine.become (.destroyed now) }
  updateOperation journal request.operationId fun row =>
    { row with progress := if kind = .destroy then .succeeded now else .cancelled now }

/-- `close_operation`.  The source does all of it in one transaction, under the lock that excludes
    every worker. -/
def closeOperation (provider : ProviderKind) (request : CloseRequest) : Program Unit := do
  let journal ← readJournal
  let operation ← Prog.ofExcept (checkClose provider journal request)
  confirmEmpty journal.machine journal.allocation
  confirmGone request.resourceIds
  transact fun env now journal => do
    refuse (env.recovering ≠ some request.recoveryId)
      (cloudError .versionConflict "The request does not match the fenced recovery.")
    let journal ← closeJournal env now journal request operation.kind
    pure ((), journal)

end AgentCloud.Lifecycle
