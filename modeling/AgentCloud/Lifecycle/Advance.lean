/-
  ADVANCING AN OPERATION: one tick of the lifecycle worker.

  A tick runs under the machine's lock.  It first resolves the pending attempt, if there is one, and
  returns.  With nothing pending it carries the operation one effect further: the next effect of the
  command, the compensation of a create that cannot have a server, or the end.  Whatever a tick
  throws is answered by `recoverFailure`, which looks at the journal again: a failure after a
  submission must not turn an uncertain effect into cleanup.

  The branches for a `machine.destroy` without cleanup are the source's; no such operation is
  admitted any more.
-/
import AgentCloud.Lifecycle.Effects

namespace AgentCloud.Lifecycle

open Checked Durable

structure Work where
  operation : OperationRow
  machine : MachineRow
  allocation : Allocation
  history : List Attempt
  resources : List OwnedResource

/-! ## Ends of an operation -/

/-- `set({ retiredAt })` of a live allocation. -/
def Allocation.retire (date : Instant) (allocation : Allocation) : Allocation :=
  if allocation.live then { allocation with retiredAt := some date } else allocation

/-- `version: version + 1`, with a new state. -/
def MachineRow.become (machine : MachineRow) (state : MachineState) : MachineRow :=
  { machine with state, version := machine.version + 1 }

/-- `fail`.  A failed resize keeps its larger reservation until the actual size is observed. -/
def failJournal (env : Env) (journal : Journal) (operation : OperationRow) (error : Failure)
    (allocationAbsent : Bool) : Except Fault Journal := do
  let journal ← updateOperation journal operation.id fun row =>
    { row with progress := .failed env.date error }
  if operation.kind = .create then do
    let journal := { journal with machine := journal.machine.become (.failed error) }
    if allocationAbsent then updateAllocation journal (Allocation.retire env.date)
    else pure journal
  else pure journal

def fail (operation : OperationRow) (error : Failure) (allocationAbsent : Bool) : Program Unit :=
  transact fun env _ journal => do
    let journal ← failJournal env journal operation error allocationAbsent
    pure ((), journal)

/-- What a completion with fresh guest evidence finds. -/
inductive Gate where
  | proceed
  | stale
  | expired
  deriving DecidableEq, Repr

/-- Guest evidence counts only while the operation still waits for it, and within its deadline. -/
def gate (journal : Journal) (now : Instant) (operation : OperationRow)
    (server : Option ProviderServer) (verification : Option GuestVerification) :
    Except Fault Gate :=
  match verification with
  | none => pure .proceed
  | some _ => do
    let current ← present (journal.operation operation.id)
      (cloudError .internalError "Runtime operation disappeared.")
    if server.any fun server => current.progress = .waitingGuest server.id .runtime then
      pure (if current.expired now then .expired else .proceed)
    else pure .stale

/-- The end of a destroy: nothing owned remains. -/
def completeDestroy (env : Env) (journal : Journal) (server : Option ProviderServer) :
    Except Fault Journal := do
  refuse (server.isSome = true)
    (cloudError .providerOutcomeUnknown "Server still exists after deletion.")
  refuse (journal.liveResources ≠ [])
    (cloudError .providerOutcomeUnknown "Owned resources remain after server deletion.")
  let journal ← updateAllocation journal fun allocation =>
    { allocation with retiredAt := some env.date }
  pure { journal with machine := journal.machine.become (.destroyed env.date) }

/-- The command changes what the allocation is charged for. -/
def LifecycleCommand.priced : LifecycleCommand → Bool
  | create _ => true
  | resize .. => true
  | _ => false

/-- The offer that a completion makes the allocation's. -/
def admittedOffer (stored : OperationRow) (server : ProviderServer) :
    Except Fault (Option CatalogItem) :=
  if stored.command.priced then do
    let offer ← storedOffer (some stored)
    refuse (offer.providerBackups ≠ .disabled ∧ server.backupStatus ≠ .enabled)
      (cloudError .providerRejected "The admitted provider backups are not enabled.")
    pure (some offer)
  else pure none

/-- `machine.provider === 'simulated' ? ... : verification ?? state.guest ?? pending`. -/
def guestVerification (env : Env) (machine : MachineRow) (verification : Option GuestVerification) :
    GuestVerification :=
  if machine.provider = .simulated then .simulated env.date
  else
    verification.getD
      (match machine.state with
        | .allocated _ _ _ guest _ => guest
        | _ => .pending)

/-- The size of the machine after its command. -/
def LifecycleCommand.size (command : LifecycleCommand) (size : Size) : Size :=
  match command with
  | .resize _ size => size
  | _ => size

/-- The end of every other operation: the server that was verified. -/
def completeServer (env : Env) (journal : Journal) (operation : OperationRow) (machine : MachineRow)
    (server : ProviderServer) (verification : Option GuestVerification) :
    Except Fault Journal := do
  let stored ← present (journal.operation operation.id)
    (cloudError .internalError "Operation disappeared while verifying.")
  let offer ← admittedOffer stored server
  let journal ← updateAllocation journal fun allocation =>
    { allocation with
      serverId := some server.id
      offer := offer.getD allocation.offer
      hourlyMicros := (offer.map CatalogItem.hourlyMicros).getD allocation.hourlyMicros }
  pure { journal with
    machine := { journal.machine.become (.allocated journal.allocation.id server.id server.power
        (guestVerification env machine verification) server.backupStatus) with
      spec := { machine.spec with size := stored.command.size machine.spec.size } } }

/-- What the end of an operation writes besides its progress. -/
def completeTarget (env : Env) (journal : Journal) (operation : OperationRow)
    (machine : MachineRow) (server : Option ProviderServer)
    (verification : Option GuestVerification) : Except Fault Journal :=
  if operation.kind = .destroy then completeDestroy env journal server
  else do
    let server ← present server
      (cloudError .providerOutcomeUnknown "Server is not visible yet.")
    completeServer env journal operation machine server verification

/-- `complete`. -/
def completeJournal (env : Env) (now : Instant) (journal : Journal) (operation : OperationRow)
    (machine : MachineRow) (server : Option ProviderServer)
    (verification : Option GuestVerification) : Except Fault Journal := do
  let passed ← gate journal now operation server verification
  match passed with
  | .stale => pure journal
  | .expired => writeProgress journal operation.id (.blocked .guestDeadlineExceeded)
  | .proceed => do
    refuse (journal.allocation.live = false)
      (cloudError .internalError "Live allocation reservation is missing.")
    let journal ← completeTarget env journal operation machine server verification
    updateOperation journal operation.id fun row => { row with progress := .succeeded env.date }

def complete (work : Work) (server : Option ProviderServer)
    (verification : Option GuestVerification) : Program Unit :=
  transact fun env now journal => do
    let journal ← completeJournal env now journal work.operation work.machine server verification
    pure ((), journal)

/-! ## The guest -/

/-- `guest.runtime.check`: the deadline first, then the guest. -/
def checkGuest (operation : OperationRow) : Program RuntimeDecision := do
  let expired ← Prog.observe (S := interface) fun _ store =>
    (store.journal.operation operation.id).map fun row => row.expired store.clock
  match expired with
  | none => raise (cloudError .internalError "Runtime operation ownership is inconsistent.")
  | some true => pure (.blocked .guestDeadlineExceeded)
  | some false => do
    let reply ← Prog.ask (S := interface) (.inspectGuest operation.id)
    thrown reply

/-- `verifyRuntime`. -/
def verifyRuntime (config : Config) (work : Work) : Program Unit :=
  if config.guest then do
    let decision ← checkGuest work.operation
    match decision with
    | .waiting => pure ()
    | .blocked reason => setProgress work.operation.id (.blocked reason)
    | .ready server verifiedAt imageVersion manifestDigest bootId =>
      complete work (some server) (some (.ssh verifiedAt imageVersion manifestDigest bootId))
  else setProgress work.operation.id (.blocked .guestUnreachable)

/-! ## Backups of the provider -/

/-- `effectOf`. -/
def effectOf (history : List Attempt) (kind : ProviderCommand → Bool) : Option Attempt :=
  history.find? fun attempt => kind attempt.command

def ProviderCommand.isEnableBackup : ProviderCommand → Bool
  | enableBackup _ => true
  | _ => false

/-- The live row of an owned resource. -/
def Work.liveRow (work : Work) (ref : ResourceRef) : Option OwnedResource :=
  work.resources.find? fun row => decide (row.ref = ref) && row.live

/-- `ensureProviderBackups`: the server with its backups enabled, or nothing yet. -/
def ensureProviderBackups (config : Config) (work : Work) (server : ProviderServer)
    (offer : CatalogItem) : Program (Option ProviderServer) :=
  if offer.providerBackups = .disabled then pure (some server)
  else do
    let seen ← getServer server.id
    match work.liveRow ⟨.server, server.id⟩, seen with
    | some resource, some observed =>
      if observed.id ≠ server.id ∨ matchesLabels observed.labels resource.labels = false then do
        blockMismatch work.operation.id
        pure none
      else if observed.backupStatus = .enabled then pure (some observed)
      else if observed.backupStatus = .unknown ∨
          (effectOf work.history ProviderCommand.isEnableBackup).isSome then do
        blockMismatch work.operation.id
        pure none
      else do
        journalEffect config work.operation work.allocation (.enableBackup server.id) .fresh
        pure none
    | _, _ => do
      blockMismatch work.operation.id
      pure none

/-! ## Failure and compensation -/

/-- A server create that was not definitively rejected. -/
def possibleServer (history : List Attempt) : Bool :=
  (effectOf history ProviderCommand.isServerCreate).any Attempt.mayExist

/-- `set({ intent: { kind: 'compensate', error } })`. -/
def setIntent (id : OperationId) (intent : OperationIntent) : Program Unit :=
  transact fun _ _ journal => do
    let journal ← updateOperation journal id fun row => { row with intent }
    pure ((), journal)

/-- `beginFailure`. -/
def beginFailure (work : Work) (error : Failure) : Program Unit :=
  if work.operation.kind = .create then
    let live := work.resources.filter OwnedResource.live
    if possibleServer work.history = false ∧ live ≠ [] then do
      setIntent work.operation.id (.compensate error)
      setProgress work.operation.id .cleaningUp
    else fail work.operation error (!possibleServer work.history && decide (live = []))
  else fail work.operation error false

/-- `delete_primary_ip` of this address. -/
def ProviderCommand.deletesIp (id : String) (command : ProviderCommand) : Bool :=
  decide (command = .deletePrimaryIp id)

/-- The live Primary IP of the allocation. -/
def Work.liveIp (work : Work) : Option OwnedResource :=
  work.resources.find? fun row => decide (row.ref.kind = .primaryIp) && row.live

/-- `cleanupIp`: whether no live Primary IP is left. -/
def cleanupIp (config : Config) (work : Work) : Program Bool :=
  match work.liveIp with
  | none => pure true
  | some resource => do
    let seen ← getPrimaryIp resource.ref.id
    match seen with
    | none => do
      recordAbsenceNow resource.ref
      pure false
    | some ip =>
      if ip.id ≠ resource.ref.id ∨ matchesLabels ip.labels resource.labels = false ∨
          ip.assignment ≠ .unassigned then do
        blockMismatch work.operation.id
        pure false
      else if (effectOf work.history (ProviderCommand.deletesIp ip.id)).isSome then do
        setProgress work.operation.id (.blocked .providerOutcomeUnknown)
        pure false
      else do
        journalEffect config work.operation work.allocation (.deletePrimaryIp ip.id) .cleanup
        pure false

/-- `if (await cleanupIp(work)) ...`. -/
def cleanupIpThen (config : Config) (work : Work) (rest : Program Unit) : Program Unit := do
  let clean ← cleanupIp config work
  if clean then rest else pure ()

/-! ## The create -/

/-- `machine.id.replaceAll('_', '-')`. -/
def resourceName (machine : MachineRow) : String :=
  String.ofList (machine.id.toList.map fun c => if c = '_' then '-' else c)

/-- The address that the server will be attached to: still there, ours and free.  `false`: not in
    this tick. -/
def checkAddress (work : Work) (row : Option OwnedResource) : Program Bool :=
  match work.allocation.networkProfile, row with
  | .legacy, _ => pure true
  | .managedIpv4, none => raise (cloudError .internalError "Confirmed Primary IP is missing.")
  | .managedIpv4, some row => do
    let seen ← getPrimaryIp row.ref.id
    match seen with
    | none => do
      recordAbsenceNow row.ref
      raise (cloudError .providerRejected "Primary IP disappeared before VM creation.")
    | some ip =>
      if ip.id ≠ row.ref.id ∨ matchesLabels ip.labels row.labels = false ∨
          ip.assignment ≠ .unassigned ∨ ip.autoDelete = false then do
        blockMismatch work.operation.id
        pure false
      else pure true

/-- The create command of a guest, once its bootstrap is prepared. -/
def guestCommand (work : Work) (request : ServerRequest) (image : String)
    (row : Option OwnedResource) : Program ProviderCommand :=
  match work.allocation.networkProfile, row with
  | .managedIpv4, some row => do
    let reply ← Prog.ask (S := interface)
      (.prepareBootstrap work.allocation.id work.operation.id image)
    let bootstrap ← thrown reply
    pure (.createGuest request row.ref.id bootstrap)
  | _, _ =>
    raise (cloudError .providerRejected "Guest creation requires an owned Primary IP.")

/-- The server create of an operation. -/
def createCommand (work : Work) (request : ServerRequest) (image : Option String)
    (row : Option OwnedResource) : Program ProviderCommand :=
  match image with
  | some image => guestCommand work request image row
  | none =>
    pure (.create request
      (match row with
        | some row => .primaryIp row.ref.id
        | none => .legacy))

/-- What the server create asks for. -/
def serverRequest (work : Work) (offer : CatalogItem) : ServerRequest :=
  { name := resourceName work.machine
    serverType := offer.serverType
    region := offer.region.text
    labels := effectLabels work.operation work.machine work.allocation }

def submitCreate (config : Config) (work : Work) (offer : CatalogItem) (image : Option String) :
    Program Unit := do
  let free ← checkAddress work work.liveIp
  if free then do
    let command ← createCommand work (serverRequest work offer) image work.liveIp
    journalEffect config work.operation work.allocation command .fresh
  else pure ()

/-- The server of a confirmed create. -/
def EffectResolution.server? : EffectResolution → Option ProviderServer
  | confirmed (.server server) => some server
  | _ => none

/-- The stage of the guest that the operation waits for. -/
def guestStage : Program GuestStage :=
  Prog.observe (S := interface) fun env _ => if env.identityIssued then .runtime else .enrollment

/-- A create whose server is confirmed: backups, then the guest. -/
def finishCreate (config : Config) (work : Work) (create : Attempt) (offer : CatalogItem) :
    Program Unit := do
  let server ← Prog.ofExcept (present create.resolution.server?
    (cloudError .internalError "Create has no verified server."))
  let backedUp ← ensureProviderBackups config work server offer
  match backedUp with
  | none => pure ()
  | some backedUp =>
    if config.provider = .hetzner then do
      let stage ← guestStage
      setProgress work.operation.id (.waitingGuest server.id stage)
      verifyRuntime config work
    else complete work (some backedUp) none

/-- The image of a guest that is still to be created. -/
def createImage (config : Config) (work : Work) : Program (Option String) :=
  if config.provider = .hetzner then
    if config.guest then do
      let reply ← Prog.ask (S := interface) (.resolveImage work.allocation.id)
      let image ← thrown reply
      pure (some image)
    else raise (cloudError .providerRejected "Live guest provisioning is not configured.")
  else pure none

/-- The address of a create is still to be asked for. -/
def needsIp (work : Work) : Bool :=
  decide (work.allocation.networkProfile = .managedIpv4) &&
    (effectOf work.history ProviderCommand.isIpCreate).isNone

def submitIp (config : Config) (work : Work) (offer : CatalogItem) : Program Unit :=
  journalEffect config work.operation work.allocation
    (.createPrimaryIp (resourceName work.machine ++ "-ipv4") offer.region.text
      (effectLabels work.operation work.machine work.allocation)) .fresh

def advanceCreate (config : Config) (work : Work) : Program Unit := do
  let offer ← Prog.ofExcept (storedOffer (some work.operation))
  match effectOf work.history ProviderCommand.isServerCreate with
  | none => do
    let image ← createImage config work
    if needsIp work then submitIp config work offer else submitCreate config work offer image
  | some create =>
    if needsIp work then submitIp config work offer else finishCreate config work create offer

/-! ## The other commands -/

/-- The effect that a command asks the provider for. -/
def LifecycleCommand.asks (command : LifecycleCommand) (effect : ProviderCommand) : Bool :=
  match command, effect with
  | .create _, effect => effect.isServerCreate
  | .reboot _, .reboot _ => true
  | .powerOff _, .powerOff _ => true
  | .powerOn _, .powerOn _ => true
  | .resize .., .resize .. => true
  | .destroy .., .destroy _ => true
  | _, _ => false

/-- The effect of a command on the server. -/
def effectCommand (operation : OperationRow) (serverId : String) : Except Fault ProviderCommand :=
  match operation.command with
  | .create _ => .error (.other "providerCommandSchema")
  | .reboot _ => .ok (.reboot serverId)
  | .powerOff _ => .ok (.powerOff serverId)
  | .powerOn _ => .ok (.powerOn serverId)
  | .resize .. => do
    let offer ← storedOffer (some operation)
    pure (.resize serverId offer.serverType)
  | .destroy .. => .ok (.destroy serverId)

/-- A command whose effect is confirmed. -/
def finishAction (config : Config) (work : Work) (effect : Attempt) : Program Unit :=
  match effect.resolution with
  | .confirmed observation =>
    if work.operation.kind = .destroy then cleanupIpThen config work (complete work none none)
    else
      match observation with
      | .server server =>
        if config.provider = .hetzner ∧
            (work.operation.kind = .reboot ∨ work.operation.kind = .powerOn) then do
          setProgress work.operation.id (.waitingGuest server.id .runtime)
          verifyRuntime config work
        else if work.operation.kind = .resize then do
          -- backups only after the resize: the old type may cost more than the target offer covers
          let offer ← Prog.ofExcept (storedOffer (some work.operation))
          let verified ← ensureProviderBackups config work server offer
          match verified with
          | none => pure ()
          | some verified => complete work (some verified) none
        else complete work (some server) none
      | _ => raise (cloudError .internalError "Machine operation has no verified server.")
  | _ => raise (cloudError .internalError "Effect was not resolved.")

/-- The address of the server is a live one of the allocation. -/
def ownsAddress (work : Work) (server : ProviderServer) : Bool :=
  work.resources.any fun row =>
    decide (row.ref.kind = .primaryIp ∧ server.primaryIpId = some row.ref.id) && row.live

/-- The live server of the allocation. -/
def Work.liveServer (work : Work) : Option OwnedResource :=
  work.resources.find? fun row => decide (row.ref.kind = .server) && row.live

def submitOwned (config : Config) (work : Work) (row : OwnedResource) (server : ProviderServer) :
    Program Unit :=
  if server.id ≠ row.ref.id ∨ matchesLabels server.labels row.labels = false ∨
      (work.allocation.networkProfile = .managedIpv4 ∧ ownsAddress work server = false) then
    blockMismatch work.operation.id
  else do
    let command ← Prog.ofExcept (effectCommand work.operation server.id)
    journalEffect config work.operation work.allocation command .fresh

def submitAction (config : Config) (work : Work) : Program Unit :=
  match work.liveServer, work.allocation.serverId with
  | some row, some serverId => do
    let seen ← getServer serverId
    match seen with
    | some server => submitOwned config work row server
    | none =>
      if work.operation.kind = .destroy then recordAbsenceNow row.ref
      else raise (cloudError .providerRejected "Provider server is absent.")
  | _, _ => raise (cloudError .providerRejected "Machine has no live provider server.")

def advanceAction (config : Config) (work : Work) : Program Unit :=
  if work.operation.kind = .destroy ∧ work.liveServer = none then
    cleanupIpThen config work (complete work none none)
  else
    match effectOf work.history work.operation.command.asks with
    | some effect => finishAction config work effect
    | none => submitAction config work

/-! ## The tick -/

/-- The rows that a tick of an operation works on. -/
def workOf (journal : Journal) (operation : OperationRow) : Work :=
  { operation
    machine := journal.machine
    allocation := journal.allocation
    history := journal.history operation.id
    resources := journal.resources }

/-- `catch (error)` of a tick, from the journal as it is now. -/
def recoverFailure (work : Work) : Fault → Program Unit
  | .other message => raise (.other message)
  | .cloud failure =>
    if failure.code = .providerUnavailable ∧ failure.retryable = true then pure ()
    else do
      let journal ← readJournal
      if (journal.history work.operation.id).any Attempt.pending then
        blockMismatch work.operation.id
      else
        beginFailure { work with
          history := journal.history work.operation.id
          resources := journal.resources } failure

/-- The labels that the resource of a pending attempt must carry. -/
def expectedLabels (work : Work) (attempt : Attempt) : Labels :=
  match attempt.command.target?.bind fun ref =>
      work.resources.find? fun row => row.ref = ref with
  | some row => row.labels
  | none => effectLabels work.operation work.machine work.allocation

/-- The error of a definitively failed attempt. -/
def EffectResolution.error? : EffectResolution → Option Failure
  | failed error => some error
  | _ => none

/-- The first attempt that definitively failed. -/
def firstFailure (history : List Attempt) : Option (Attempt × Failure) :=
  history.findSome? fun attempt => attempt.resolution.error?.map fun error => (attempt, error)

/-- A failed attempt ends the operation; a failed IP deletion is looked at again. -/
def afterFailure (config : Config) (work : Work) (attempt : Attempt) (error : Failure) :
    Program Unit :=
  match attempt.command with
  | .deletePrimaryIp _ => cleanupIpThen config work (complete work none none)
  | _ => beginFailure work error

/-- The next effect of the operation. -/
def advanceFresh (config : Config) (work : Work) : Program Unit :=
  Prog.tryCatch
    (if work.operation.kind = .create then advanceCreate config work
      else advanceAction config work)
    (recoverFailure work)

/-- A tick that finds nothing pending. -/
def advanceSettled (config : Config) (work : Work) : Program Unit :=
  match work.operation.intent with
  | .compensate error => cleanupIpThen config work (fail work.operation error true)
  | _ =>
    match firstFailure work.history with
    | some (attempt, error) => afterFailure config work attempt error
    | none => advanceFresh config work

/-- A tick of an operation that no cleanup has replaced. -/
def advanceWork (config : Config) (work : Work) : Program Unit :=
  match work.history.find? Attempt.pending with
  | some attempt => resolveEffect work.operation attempt (expectedLabels work attempt)
  | none => advanceSettled config work

end AgentCloud.Lifecycle
