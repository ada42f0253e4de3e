/-
  THE EFFECT JOURNAL: every effect is recorded before it is asked for, and resolved from what can
  be observed afterwards.

  `journalEffect` commits an attempt (`prepared`, `pending`), submits it, records the receipt and
  claims what it names; a worker may die between any two of these.  An attempt that is found pending
  later is never submitted again: `evaluate` reads the provider and `resolveEffect` writes what
  follows.  The judgements on an observation (`judgeIp`, `judgeServer`) are functions of what was
  read.
-/
import AgentCloud.Lifecycle.Resources

namespace AgentCloud.Lifecycle

open Checked Durable

structure Config where
  provider : ProviderKind
  limits : Limits
  /-- Guest provisioning is configured. -/
  guest : Bool
  deriving DecidableEq, Repr

/-! ## Authorization -/

/-- `authorizeCommand`. -/
def authorizeCommand (principal : Principal) (projectId : ProjectId) :
    LifecycleCommand → Except Fault Unit
  | .create spec => do
    authorize principal .machineCreate (some projectId)
    refuse (spec.size ∉ principal.policy.sizes ∨ spec.region ∉ principal.policy.regions)
      (cloudError .permissionDenied
        "Requested size or region is outside this credential policy.")
  | .destroy _ allowDataLoss => do
    authorize principal .machineDestroy (some projectId)
    refuse (allowDataLoss = false)
      (cloudError .dataLossNotAuthorized "Destroy requires explicit allowDataLoss: true.")
    authorize principal .machineDestroyDataLoss (some projectId)
  | .resize _ size => do
    authorize principal .machineOperate (some projectId)
    refuse (size ∉ principal.policy.sizes)
      (cloudError .permissionDenied "Requested size is outside this credential policy.")
  | _ => authorize principal .machineOperate (some projectId)

/-! ## Reservations -/

/-- The sum of the reserved prices. -/
def reserved : List Reservation → Micros
  | [] => 0
  | row :: rows => row.hourlyMicros + reserved rows

/-- What the limits see of the machine itself. -/
def Journal.reservation (journal : Journal) : List Reservation :=
  if journal.allocation.live then
    [⟨journal.machine.accountId, journal.allocation.currency, journal.allocation.hourlyMicros⟩]
  else []

/-- The live allocations of an account. -/
def owned (accountId : AccountId) (rows : List Reservation) : List Reservation :=
  rows.filter fun row => row.accountId = accountId

/-! ## Journalling an effect -/

inductive Authorization where
  | fresh
  | cleanup
  | admittedCleanup
  deriving DecidableEq, Repr

/-- The effect can raise what the provider charges. -/
def ProviderCommand.monetary (command : ProviderCommand) : Bool :=
  match command with
  | .resize .. => true
  | .enableBackup _ => true
  | _ => command.isCreation

/-- `catalogItemSchema.parse(operation.offer)`. -/
def storedOffer (operation : Option OperationRow) : Except Fault CatalogItem :=
  present (operation.bind OperationRow.offer) (.other "catalogItemSchema")

/-- The admitted offer still stands at its admitted price. -/
def checkQuote (catalog : Catalog) (allocation : Allocation) (offer : CatalogItem) (now : Instant) :
    Except Fault Unit := do
  let current ← selectOffer catalog offer.size offer.region now
  refuse (catalog.provider ≠ allocation.provider ∨ current.serverType ≠ offer.serverType ∨
      current.architecture ≠ offer.architecture ∨ current.diskGb ≠ offer.diskGb)
    (cloudError .capacityUnavailable
      "The admitted provider offer changed; submit a new operation.")
  refuse (current.currency ≠ offer.currency ∨ offer.hourlyMicros < current.hourlyMicros)
    (cloudError .budgetExceeded "Current provider price exceeds the admitted reservation.")

/-- The quote of a monetary effect, read before its transaction. -/
def quote (operation : OperationRow) (allocation : Allocation) (command : ProviderCommand) :
    Program Unit :=
  if command.monetary then do
    let journal ← readJournal
    let offer ← Prog.ofExcept (storedOffer (journal.operation operation.id))
    let catalog ← getCatalog
    let now ← Prog.observe (S := interface) fun env _ => env.date
    Prog.ofExcept (checkQuote catalog allocation offer now)
  else pure ()

def budgetRefused : Fault :=
  cloudError .budgetExceeded
    "The current deployment, account, or credential limits no longer cover this reservation."

/-- The budget check of a monetary effect. -/
def checkBudget (config : Config) (env : Env) (journal : Journal) (account : Account)
    (principal : Principal) (offer : CatalogItem) : Except Fault Unit :=
  let rows := env.others ++ journal.reservation
  refuse (config.limits.currency ≠ offer.currency ∨ account.currency ≠ offer.currency ∨
      principal.policy.currency ≠ offer.currency ∨
      (rows.any fun row => row.currency ≠ offer.currency) ∨
      config.limits.maxMachines < rows.length ∨ config.limits.maxHourlyMicros < reserved rows ∨
      min account.maxMachines principal.policy.maxMachines < (owned account.id rows).length ∨
      min account.maxHourlyMicros principal.policy.maxHourlyMicros <
        reserved (owned account.id rows))
    budgetRefused

/-- A boot effect of a live provider must begin within its deadline. -/
def bootDeadline (config : Config) (operation stored : OperationRow) (now : Instant) :
    Except Fault Unit :=
  refuse (config.provider = .hetzner ∧
      (operation.kind = .create ∨ operation.kind = .reboot ∨ operation.kind = .powerOn) ∧
      stored.expired now = true)
    (cloudError .providerRejected
      "The boot operation deadline expired before submission; submit a new operation.")

def cleanupReplaced : Fault :=
  cloudError .resourceBusy "Cleanup has replaced fresh machine work."

/-- `authorization: 'fresh'`: current credentials, limits and no cleanup. -/
def checkFresh (config : Config) (operation : OperationRow) (command : ProviderCommand) (env : Env)
    (now : Instant) (journal : Journal) (account : Account) (stored : OperationRow) :
    Except Fault Unit := do
  refuse (stored.isCleanup = true) cleanupReplaced
  refuse (journal.cleanup operation.id ≠ none) cleanupReplaced
  bootDeadline config operation stored now
  let authority ← loadAuthority env.grants now operation.grantId
  authorizeCommand authority.principal journal.machine.projectId stored.command
  if command.monetary then do
    let offer ← storedOffer (some stored)
    checkBudget config env journal account authority.principal offer
  else pure ()

/-- `authorization: 'admitted_cleanup'`: an exact live owned resource of the admitted cleanup. -/
def checkAdmitted (operation : OperationRow) (command : ProviderCommand) (journal : Journal) :
    Except Fault Unit := do
  refuse (journal.cleanup operation.id = none)
    (cloudError .permissionDenied "No admitted cleanup authorizes this effect.")
  let ref ← present command.deletes?
    (cloudError .permissionDenied "No admitted cleanup authorizes this effect.")
  refuse (¬ (journal.resource ref).any OwnedResource.live)
    (cloudError .permissionDenied "Cleanup requires an exact live owned resource.")

def checkAuthorization (config : Config) (operation : OperationRow) (command : ProviderCommand)
    (authorization : Authorization) (env : Env) (now : Instant) (journal : Journal)
    (account : Account) (stored : OperationRow) : Except Fault Unit :=
  match authorization with
  | .fresh => checkFresh config operation command env now journal account stored
  | .admittedCleanup => checkAdmitted operation command journal
  | .cleanup =>
    refuse (command.deletes?.map ResourceRef.kind ≠ some .primaryIp)
      (cloudError .internalError
        "Only IP cleanup may continue without a fresh credential check.")

/-- The transaction that commits an attempt before it is submitted. -/
def prepareAttempt (config : Config) (operation : OperationRow) (command : ProviderCommand)
    (authorization : Authorization) (env : Env) (now : Instant) (journal : Journal) :
    Except Fault (AttemptId × Journal) := do
  let account ← present env.account
    (cloudError .internalError "Operation account is missing.")
  let stored ← present (journal.operation operation.id)
    (cloudError .internalError "Operation disappeared before submission.")
  checkAuthorization config operation command authorization env now journal account stored
  let sequence := (journal.history operation.id).length + 1
  let journal ← insertAttempt env journal now
    ⟨env.id, operation.id, sequence, command, .prepared, .pending, now⟩
  let journal ← updateOperation journal operation.id fun row =>
    { row with progress := .submitting env.id }
  pure (env.id, journal)

/-- `db.update(attempts).set({ outcome })`. -/
def recordOutcome (id : AttemptId) (outcome : Submission) : Program Unit :=
  transact fun env _ journal => do
    let journal ← updateAttempts env journal (fun attempt => attempt.id = id) fun attempt =>
      { attempt with outcome := .received outcome }
    pure ((), journal)

/-- The claim of what a receipt names. -/
def claimReceipt (command : ProviderCommand) (outcome : Submission) : Program Unit :=
  transact fun env now journal =>
    match outcome.resource?, command.labels? with
    | some resource, some labels =>
      if resource.kind = command.resourceKind then do
        let journal ← claimResource env now journal resource labels
        pure ((), journal)
      else pure ((), journal)
    | _, _ => pure ((), journal)

def unknownSubmission : Submission :=
  .unknown "Provider submission failed without a definitive response."

/-- `provider.submit`, whose failure is an unknown outcome. -/
def submit (attemptId : AttemptId) (command : ProviderCommand) : Program Submission := do
  let reply ← Prog.ask (S := interface) (.submit attemptId command)
  match (reply : Except Fault Submission) with
  | .ok submission => pure submission
  | .error _ => pure unknownSubmission

/-- `journalEffect`. -/
def journalEffect (config : Config) (operation : OperationRow) (allocation : Allocation)
    (command : ProviderCommand) (authorization : Authorization) : Program Unit := do
  quote operation allocation command
  let attemptId ← transact (prepareAttempt config operation command authorization)
  let outcome ← submit attemptId command
  recordOutcome attemptId outcome
  claimReceipt command outcome

/-! ## Evaluating an effect -/

inductive Evaluation where
  | confirmed (observation : ResourceObservation)
  | failed (error : Failure)
  | pending (progress : OperationProgress)
  deriving DecidableEq, Repr

namespace Evaluation

def blocked (reason : BlockedReason) : Evaluation := .pending (.blocked reason)

def mismatch : Evaluation := blocked .providerResourceMismatch

end Evaluation

/-- `pending()`. -/
def waiting (attempt : Attempt) (resource : ResourceRef) : Evaluation :=
  if attempt.outcome.uncertain then .blocked .providerOutcomeUnknown
  else .pending (.verifying resource)

/-- What an exact read of a Primary IP says about an effect on it. -/
def judgeIp (recovering : Bool) (attempt : Attempt) (expectedLabels : Labels)
    (resource : ResourceRef) (ip : Option ProviderPrimaryIp) : Evaluation :=
  if ip.any fun ip => ip.id ≠ resource.id then .mismatch
  else
    match attempt.command, ip with
    | .deletePrimaryIp _, none => .confirmed (.absent resource)
    | .deletePrimaryIp _, some ip =>
      if matchesLabels ip.labels expectedLabels = false ∨ ip.assignment ≠ .unassigned then .mismatch
      else waiting attempt resource
    | .createPrimaryIp .., none =>
      if recovering = true ∧ attempt.outcome.uncertain = false then .confirmed (.absent resource)
      else waiting attempt resource
    | .createPrimaryIp _ region labels, some ip =>
      if matchesLabels ip.labels labels = false ∨ ip.region ≠ region ∨ ip.autoDelete = false ∨
          ip.assignment ≠ .unassigned then .mismatch
      else .confirmed (.primaryIp ip)
    | _, _ => .mismatch

/-- The network of a create, as the server must show it. -/
def ProviderCommand.attachedIp : ProviderCommand → Option String
  | .create _ (.primaryIp id) => some id
  | .createGuest _ primaryIpId _ => some primaryIpId
  | _ => none

/-- A create is confirmed by a running server of the requested type, region and network. -/
def judgeCreated (attempt : Attempt) (request : ServerRequest) (resource : ResourceRef)
    (server : ProviderServer) : Evaluation :=
  if server.serverType ≠ request.serverType ∨ server.region ≠ request.region ∨
      server.primaryIpId ≠ attempt.command.attachedIp then .mismatch
  else if server.power ≠ .running then waiting attempt resource
  else .confirmed (.server server)

/-- The effect shows on the server, or it is waited for. -/
def judgeShown (attempt : Attempt) (resource : ResourceRef) (server : ProviderServer)
    (shown : Bool) : Evaluation :=
  if shown then .confirmed (.server server) else waiting attempt resource

/-- What an owned server says about an effect on it. -/
def judgeOwned (attempt : Attempt) (resource : ResourceRef) (server : ProviderServer) :
    Evaluation :=
  match attempt.command with
  | .create request _ => judgeCreated attempt request resource server
  | .createGuest request _ _ => judgeCreated attempt request resource server
  | .resize _ serverType => judgeShown attempt resource server (server.serverType = serverType)
  | .enableBackup _ => judgeShown attempt resource server (server.backupStatus = .enabled)
  | .powerOff _ => judgeShown attempt resource server (server.power = .off)
  | .powerOn _ => judgeShown attempt resource server (server.power = .running)
  -- a reboot leaves no trace: without a receipt nothing can confirm it
  | .reboot _ => judgeShown attempt resource server
      (!attempt.outcome.uncertain && decide (server.power = .running))
  | .destroy _ => waiting attempt resource
  | .createPrimaryIp .. => .mismatch
  | .deletePrimaryIp _ => .mismatch

/-- `isServerCreateCommand(command) ? command.labels : expectedLabels`. -/
def serverLabels (attempt : Attempt) (expectedLabels : Labels) : Labels :=
  if attempt.command.isServerCreate then attempt.command.labels?.getD [] else expectedLabels

/-- What an exact read of a server says about an effect on it. -/
def judgeServer (recovering : Bool) (attempt : Attempt) (expectedLabels : Labels)
    (resource : ResourceRef) (server : Option ProviderServer) : Evaluation :=
  if server.any fun server => server.id ≠ resource.id then .mismatch
  else
    match attempt.command, server with
    | .destroy _, none => .confirmed (.absent resource)
    | command, none =>
      if recovering = true ∧ attempt.outcome.uncertain = false ∧ command.isServerCreate = true then
        .confirmed (.absent resource)
      else waiting attempt resource
    | _, some server =>
      if matchesLabels server.labels (serverLabels attempt expectedLabels) = false then .mismatch
      else judgeOwned attempt resource server

/-- Claims every match with the expected labels; whether one did not match or is owned by
    another. -/
def claimMatches (kind : ResourceKind) (labels : Labels) :
    List (String × Labels) → Bool → Program Bool
  | [], mismatch => pure mismatch
  | (id, found) :: rest, mismatch =>
    if matchesLabels found labels then do
      let conflict ← Prog.tryCatch
        (do
          claimNow ⟨kind, id⟩ labels
          pure false)
        fun fault =>
          match fault with
          | .cloud _ => pure true
          | .other message => raise (.other message)
      claimMatches kind labels rest (mismatch || conflict)
    else claimMatches kind labels rest true

/-- The resource of an uncertain create, found by its labels.  Every match is claimed, also where
    the search ends without a single resource. -/
def discover (attempt : Attempt) (labels : Labels) : Program (Except Evaluation ResourceRef) := do
  let found ← search attempt.command.resourceKind labels
  let mismatch ← claimMatches attempt.command.resourceKind labels found false
  if mismatch then pure (.error .mismatch)
  else do
    let journal ← readJournal
    if 1 < found.length ∨ 1 < (retainedIds journal attempt).length then
      pure (.error (.blocked .duplicateProviderResources))
    else
      match found with
      | [] => pure (.error (.blocked .providerOutcomeUnknown))
      | (id, _) :: _ => pure (.ok ⟨attempt.command.resourceKind, id⟩)

/-- The receipt names another resource than the command. -/
def receiptMismatch (command : ProviderCommand) (resource : ResourceRef) : Bool :=
  decide (resource.kind ≠ command.resourceKind) ||
    command.target?.any fun target => target.id ≠ resource.id

/-- The resource to look at, or what the receipt already decides. -/
def locate (attempt : Attempt) : Program (Except Evaluation ResourceRef) :=
  match attempt.outcome with
  | .received (.rejected error) => pure (.error (.failed error))
  | .received (.accepted resource actionId) =>
    if receiptMismatch attempt.command resource then pure (.error .mismatch)
    else do
      let action ← getAction actionId
      match action with
      | .running => pure (.error (.pending (.waitingProvider attempt.id actionId resource)))
      | .failed error => pure (.error (.failed error))
      | .succeeded => pure (.ok resource)
  | .received (.completed resource) =>
    if receiptMismatch attempt.command resource then pure (.error .mismatch)
    else pure (.ok resource)
  | _ =>
    match attempt.command.labels?, attempt.command.target? with
    | some labels, _ => discover attempt labels
    | none, some target => pure (.ok target)
    | none, none => pure (.error .mismatch)

/-- Deleting, and enabling backups, cannot recreate what is gone: its absence settles them while a
    cleanup recovers. -/
def vanished (recovering : Bool) (command : ProviderCommand) : Program (Option ResourceRef) :=
  match recovering, command with
  | true, .destroy serverId => do
    let seen ← look ⟨.server, serverId⟩
    pure (if seen.isSome then none else some ⟨.server, serverId⟩)
  | true, .enableBackup serverId => do
    let seen ← look ⟨.server, serverId⟩
    pure (if seen.isSome then none else some ⟨.server, serverId⟩)
  | true, .deletePrimaryIp primaryIpId => do
    let seen ← look ⟨.primaryIp, primaryIpId⟩
    pure (if seen.isSome then none else some ⟨.primaryIp, primaryIpId⟩)
  | _, _ => pure none

/-- The exact read of the resource, judged. -/
def observe (recovering : Bool) (attempt : Attempt) (expectedLabels : Labels)
    (resource : ResourceRef) : Program Evaluation :=
  match resource.kind with
  | .primaryIp => do
    let ip ← getPrimaryIp resource.id
    pure (judgeIp recovering attempt expectedLabels resource ip)
  | .server => do
    let server ← getServer resource.id
    pure (judgeServer recovering attempt expectedLabels resource server)

/-- `evaluate`. -/
def evaluate (recovering : Bool) (attempt : Attempt) (expectedLabels : Labels) :
    Program Evaluation := do
  let gone ← vanished recovering attempt.command
  match gone with
  | some resource => pure (.confirmed (.absent resource))
  | none => do
    let located ← locate attempt
    match located with
    | .error evaluation => pure evaluation
    | .ok resource => observe recovering attempt expectedLabels resource

/-! ## Resolving an effect -/

/-- What a confirmed observation does to the ledger. -/
def recordObservation (env : Env) (now : Instant) (journal : Journal) (attempt : Attempt)
    (expectedLabels : Labels) : ResourceObservation → Except Fault Journal
  | .absent resource => pure (recordAbsence env journal resource)
  | .server server =>
    claimResource env now journal ⟨.server, server.id⟩
      (attempt.command.labels?.getD expectedLabels)
  | .primaryIp ip =>
    claimResource env now journal ⟨.primaryIp, ip.id⟩
      (attempt.command.labels?.getD expectedLabels)

/-- What a resolution does to the ledger. -/
def recordResolution (env : Env) (now : Instant) (journal : Journal) (attempt : Attempt)
    (expectedLabels : Labels) : EffectResolution → Except Fault Journal
  | .confirmed observation => recordObservation env now journal attempt expectedLabels observation
  | _ => pure journal

/-- The transaction that settles an attempt. -/
def settleJournal (env : Env) (now : Instant) (journal : Journal) (attempt : Attempt)
    (expectedLabels : Labels) (resolution : EffectResolution) : Except Fault Journal := do
  let journal ← recordResolution env now journal attempt expectedLabels resolution
  updateAttempts env journal (fun row => row.id = attempt.id) fun row => { row with resolution }

def settle (attempt : Attempt) (expectedLabels : Labels) (resolution : EffectResolution) :
    Program Unit :=
  transact fun env now journal => do
    let journal ← settleJournal env now journal attempt expectedLabels resolution
    pure ((), journal)

/-- A conflict blocks the operation; it is not an answer about the effect. -/
def blockMismatch (id : OperationId) : Program Unit :=
  setProgress id (.blocked .providerResourceMismatch)

/-- `catch (error)` of an evaluation: a provider that cannot be read is another tick's business. -/
def unreadable (id : OperationId) : Fault → Program (Option Evaluation)
  | .other message => raise (.other message)
  | .cloud failure =>
    if failure.code = .providerUnavailable then raise (.cloud failure)
    else do
      blockMismatch id
      pure none

/-- `catch (error)` of a settlement. -/
def unsettled (id : OperationId) : Fault → Program Unit
  | .other message => raise (.other message)
  | .cloud _ => blockMismatch id

/-- An operation resolves its own attempts, and those of the source of its cleanup. -/
def inScope (journal : Journal) (operation : OperationRow) (attempt : Attempt) : Bool :=
  decide (attempt.operationId = operation.id) ||
    (journal.cleanup operation.id).any fun cleanup =>
      cleanup.sourceOperationId = attempt.operationId

/-- `resolveEffect`. -/
def resolveEffect (operation : OperationRow) (attempt : Attempt) (expectedLabels : Labels) :
    Program Unit :=
  if attempt.resolution ≠ .pending then pure ()
  else do
    let journal ← readJournal
    Prog.ofExcept (refuse (inScope journal operation attempt = false)
      (cloudError .permissionDenied "Effect is outside this cleanup scope."))
    let result ← Prog.tryCatch
      (do
        let evaluation ← evaluate operation.isCleanup attempt expectedLabels
        pure (some evaluation))
      (unreadable operation.id)
    match result with
    | none => pure ()
    | some (.pending progress) => setProgress operation.id progress
    | some (.confirmed observation) =>
      Prog.tryCatch (settle attempt expectedLabels (.confirmed observation))
        (unsettled operation.id)
    | some (.failed error) =>
      Prog.tryCatch (settle attempt expectedLabels (.failed error)) (unsettled operation.id)

end AgentCloud.Lifecycle
