/-
  MACHINE CLEANUP: deleting what an allocation owns, after an admitted destroy.

  A cleanup takes over the whole journal of the machine's create: it resolves every pending attempt
  of the source and its own, then deletes one owned resource at a time (servers first, addresses
  only while no server create is pending), with new attempts and a bounded number of retries, and
  retires the allocation when nothing is pending and everything is recorded absent.  Source results
  are never reopened.

  `retryOf` is the planner's decision on one more deletion of a target, a function of the attempts
  already made.
-/
import AgentCloud.Lifecycle.Advance

namespace AgentCloud.Lifecycle

open Checked Durable

structure CleanupWork where
  operation : OperationRow
  cleanup : OperationCleanup

/-! ## One more deletion -/

/-- `targets`: the attempts that deleted this resource. -/
def targeting (ref : ResourceRef) (history : List Attempt) : List Attempt :=
  history.filter fun attempt => attempt.command.deletes? = some ref

/-- What the planner decides about a target that still exists. -/
inductive Retry where
  | submit
  | wait
  | exhausted
  deriving DecidableEq, Repr

/-- The planner's decision: at most `limit` attempts, five and then thirty seconds apart. -/
def retryOf (previous : List Attempt) (limit : Nat) (now : Instant) : Retry :=
  match previous.getLast? with
  | none => .submit
  | some last =>
    if limit ≤ previous.length then .exhausted
    else if now < last.createdAt + backoff previous.length then .wait
    else .submit

/-- The action of the latest deletion, while it is still to be waited for. -/
def runningAction (previous : List Attempt) : Option String :=
  match previous.getLast? with
  | some last => if last.pending then last.outcome.actionId? else none
  | none => none

/-- An accepted action that has not succeeded is waited for. -/
def actionOver (actionId : Option String) : Program Bool :=
  match actionId with
  | none => pure true
  | some actionId => do
    let action ← getAction actionId
    pure (decide (action = .succeeded))

def deleteTarget (config : Config) (work : CleanupWork) (allocation : Allocation)
    (history : List Attempt) (ref : ResourceRef) : Program Unit := do
  let done ← actionOver (runningAction (targeting ref history))
  if done then do
    let decision ← Prog.observe (S := interface) fun _ store =>
      retryOf (targeting ref history)
        (store.journal.deleteLimit work.operation.id (.deletion ref)) store.clock
    match decision with
    | .wait => pure ()
    | .exhausted => setProgress work.operation.id (.blocked .cleanupRetryExhausted)
    | .submit =>
      journalEffect config work.operation allocation (.deletion ref) .admittedCleanup
  else pure ()

/-! ## The target of a tick -/

/-- A server create of the history is pending: nothing that it can still use may go. -/
def pendingVm (history : List Attempt) : Bool :=
  history.any fun attempt => attempt.pending && attempt.command.isServerCreate

/-- The resource to delete next: a live server, or a live address once no server create is
    pending. -/
def nextTarget (resources : List OwnedResource) (history : List Attempt) : Option OwnedResource :=
  let live := resources.filter OwnedResource.live
  (live.find? fun row => row.ref.kind = .server).or
    (if pendingVm history then none else live.find? fun row => row.ref.kind = .primaryIp)

/-- The live row of the address that a server shows. -/
def liveAddress (resources : List OwnedResource) (id : String) : Option OwnedResource :=
  resources.find? fun row => decide (row.ref = ⟨.primaryIp, id⟩) && row.live

/-- The address of a server is ours and attached to it, and the deletion may take it along. -/
def checkAttached (work : CleanupWork) (resources : List OwnedResource) (history : List Attempt)
    (server : ProviderServer) : Program Bool :=
  match server.primaryIpId with
  | none => pure true
  | some ipId => do
    let seen ← getPrimaryIp ipId
    match liveAddress resources ipId, seen with
    | some row, some ip =>
      if ip.id ≠ row.ref.id ∨ matchesLabels ip.labels row.labels = false ∨
          ip.assignment ≠ .server server.id then do
        blockMismatch work.operation.id
        pure false
      else pure (!(pendingVm history && ip.autoDelete))
    | _, _ => do
      blockMismatch work.operation.id
      pure false

def cleanServer (config : Config) (work : CleanupWork) (journal : Journal)
    (history : List Attempt) (row : OwnedResource) : Program Unit := do
  let seen ← getServer row.ref.id
  match seen with
  | none => recordAbsenceNow row.ref
  | some server =>
    if server.id ≠ row.ref.id ∨ matchesLabels server.labels row.labels = false then
      blockMismatch work.operation.id
    else do
      let free ← checkAttached work journal.resources history server
      if free then deleteTarget config work journal.allocation history row.ref else pure ()

/-- The provider can remove a server before its address stops showing it. -/
def staleAssignment (resources : List OwnedResource) (serverId : String) : Bool :=
  resources.any fun row => decide (row.ref = ⟨.server, serverId⟩) && !row.live

def cleanIp (config : Config) (work : CleanupWork) (journal : Journal)
    (history : List Attempt) (row : OwnedResource) : Program Unit := do
  let seen ← getPrimaryIp row.ref.id
  match seen with
  | none => recordAbsenceNow row.ref
  | some ip =>
    if ip.id ≠ row.ref.id ∨ matchesLabels ip.labels row.labels = false then
      blockMismatch work.operation.id
    else
      match ip.assignment with
      | .server serverId =>
        setProgress work.operation.id
          (if staleAssignment journal.resources serverId then .verifying row.ref
            else .blocked .providerResourceMismatch)
      | .unassigned => deleteTarget config work journal.allocation history row.ref

def cleanTarget (config : Config) (work : CleanupWork) (journal : Journal)
    (history : List Attempt) (row : OwnedResource) : Program Unit :=
  match row.ref.kind with
  | .server => cleanServer config work journal history row
  | .primaryIp => cleanIp config work journal history row

/-! ## The end of a cleanup -/

/-- `cancelled` for a create, `succeeded` for a destroy. -/
def cleanupEnd (kind : OperationKind) (date : Instant) : OperationProgress :=
  if kind = .create then .cancelled date else .succeeded date

/-- The transaction that retires the allocation. -/
def retireJournal (now : Instant) (journal : Journal) (operation : OperationRow) :
    Except Fault Journal := do
  let journal ← updateAllocation journal (Allocation.retire now)
  let journal := { journal with machine := journal.machine.become (.destroyed now) }
  updateOperation journal operation.id fun row =>
    { row with progress := cleanupEnd operation.kind now }

def retire (operation : OperationRow) : Program Unit :=
  transact fun _ now journal => do
    let journal ← retireJournal now journal operation
    pure ((), journal)

/-! ## The tick -/

/-- The labels that the resource of a pending attempt must carry, in a cleanup. -/
def cleanupLabels (journal : Journal) (attempt : Attempt) : Labels :=
  match attempt.command.target?.bind journal.resource with
  | some row => row.labels
  | none => attempt.command.labels?.getD []

/-- The effect must be on a retained resource. -/
def needsTarget (command : ProviderCommand) : Bool :=
  command.deletes?.isSome || command.isEnableBackup

/-- Resolves the pending attempts, oldest first.  The ledger is the one read before the loop. -/
def resolvePending (work : CleanupWork) (journal : Journal) : List Attempt → Program Unit
  | [] => pure ()
  | attempt :: rest => do
    Prog.ofExcept (refuse (needsTarget attempt.command = true ∧
        attempt.command.target?.bind journal.resource = none)
      (cloudError .permissionDenied "Cleanup effect has no retained owned resource."))
    resolveEffect work.operation attempt (cleanupLabels journal attempt)
    resolvePending work journal rest

def finishCleanup (config : Config) (work : CleanupWork) (journal : Journal) : Program Unit :=
  match nextTarget journal.resources (journal.cleanupHistory work.cleanup) with
  | some row => cleanTarget config work journal (journal.cleanupHistory work.cleanup) row
  | none =>
    if (journal.cleanupHistory work.cleanup).any Attempt.pending ∨ journal.liveResources ≠ [] then
      pure ()
    else retire work.operation

/-- `advance` of a cleanup. -/
def advanceCleanupWork (config : Config) (work : CleanupWork) (journal : Journal) :
    Program Unit := do
  resolvePending work journal ((journal.cleanupHistory work.cleanup).filter Attempt.pending)
  let journal ← readJournal
  finishCleanup config work journal

/-- `catch (error)` of a cleanup. -/
def recoverCleanup (id : OperationId) : Fault → Program Unit
  | .other message => raise (.other message)
  | .cloud failure =>
    if failure.code = .providerUnavailable ∧ failure.retryable = true then pure ()
    else blockMismatch id

/-- The cleanup that an operation is the executor of. -/
def authorityOf (journal : Journal) (operation : OperationRow) : Except Fault OperationCleanup := do
  let cleanup ← present (journal.cleanup operation.id)
    (cloudError .permissionDenied "Cleanup authority does not match this operation.")
  refuse (operation.intent ≠ .cleanup cleanup.sourceOperationId)
    (cloudError .permissionDenied "Cleanup authority does not match this operation.")
  pure cleanup

/-- `advanceCleanup`. -/
def advanceCleanup (config : Config) (operation : OperationRow) (journal : Journal) :
    Program Unit :=
  Prog.tryCatch
    (do
      let cleanup ← Prog.ofExcept (authorityOf journal operation)
      advanceCleanupWork config ⟨operation, cleanup⟩ journal)
    (recoverCleanup operation.id)

/-- A tick of an operation that is not terminal. -/
def advanceActive (config : Config) (operation : OperationRow) (journal : Journal) :
    Program Unit := do
  Prog.ofExcept (refuse (journal.machine.provider ≠ config.provider)
    (cloudError .internalError "Wrong provider for this machine."))
  Prog.ofExcept (refuse (journal.allocation.live = false)
    (cloudError .internalError "Operation allocation is missing."))
  if operation.isCleanup then advanceCleanup config operation journal
  else advanceWork config (workOf journal operation)

/-- `advanceLocked`. -/
def advanceLocked (config : Config) (operationId : OperationId) : Program Unit := do
  let journal ← readJournal
  match journal.operation operationId with
  | none => pure ()
  | some operation => if operation.terminal then pure () else advanceActive config operation journal

end AgentCloud.Lifecycle
