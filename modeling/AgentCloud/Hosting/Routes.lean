/-
  THE CONTROL SIDE OF HOSTING: the transactions of `createHosting`, each as a function of the rows
  it reads.

  A route row carries two things that move at different times.  `record` is the DESIRED route: its
  `version` grows with every admitted command.  `target` is what the gateway is told: the address of
  the guest that last acknowledged a version, and that version.  Publishing and removing change the
  record only; `advanceRecord` moves the target, and only for the version that is still the newest.
  In particular a removal leaves the target in the row, and so does a later publication.

  Commands are deduplicated by a receipt that holds a digest of the request; the digest stands here
  for the request itself, and the revision of a snapshot for the fingerprint it is the digest of.
-/
import AgentCloud.Auth
import AgentCloud.Lib.Table
import AgentCloud.Hosting.Guest
import Mathlib.Data.List.Sort

namespace AgentCloud.Hosting

open Checked

/-! ## Names and ports -/

def alphanumeric (c : Char) : Bool := c.isLower || c.isDigit

/-- `/^[a-z0-9](?:[a-z0-9-]{0,61}[a-z0-9])?$/`. -/
def dnsLabel : List Char → Bool
  | [] => false
  | first :: rest =>
    alphanumeric first && match rest.getLast? with
      | none => true
      | some last => alphanumeric last && decide (rest.length ≤ 62) &&
          rest.dropLast.all fun c => alphanumeric c || c = '-'

/-- `hostnameSchema`: a lowercase DNS name without a wildcard or trailing dot. -/
def hostnameSchema (value : Hostname) : Bool :=
  let chars := value.toList
  decide (3 ≤ chars.length) && decide (chars.length ≤ 253) && chars.contains '.' &&
    !(chars.all fun c => c.isDigit || c = '.') && (chars.splitOn '.').all dnsLabel

/-- `applicationPortSchema`. -/
def applicationPortSchema (port : Nat) : Bool :=
  decide (1024 ≤ port) && decide (port ≤ 65535) && decide (port ∉ [2019, 8081, 8443])

/-- `guestName` of an allocation: the TLS name of its guest. -/
def guestName (allocationId : AllocationId) : String :=
  let chars := allocationId.toList
  String.ofList (chars.takeWhile (· ≠ '_') ++
    match chars.dropWhile (· ≠ '_') with
    | [] => []
    | _ :: rest => '-' :: rest) ++ ".guest.agent-cloud.internal"

/-! ## Rows -/

inductive RouteState where
  | pending
  | active
  | removed
  deriving DecidableEq, Repr

inductive Application where
  | pending (attempts : Nat)
  | applied
  | blocked
  deriving DecidableEq, Repr

/-- The attempts of a pending application; a blocked one has used all five. -/
def Application.attempts : Application → Nat
  | .pending attempts => attempts
  | .applied => 0
  | .blocked => 5

structure Route where
  hostname : Hostname
  accountId : AccountId
  projectId : ProjectId
  machineId : MachineId
  allocationId : AllocationId
  port : Nat
  version : Nat
  state : RouteState
  appliedVersion : Option Nat
  gatewayAppliedVersion : Option Nat
  application : Application
  createdAt : Instant
  updatedAt : Instant
  deriving DecidableEq, Repr

/-- What `applyGuest` returns: where the guest of the route answers. -/
structure Target where
  address : String
  serverName : Hostname
  deriving DecidableEq, Repr

/-- `appliedTargetSchema`. -/
structure AppliedTarget where
  address : String
  serverName : Hostname
  machineId : MachineId
  allocationId : AllocationId
  version : Nat
  deriving DecidableEq, Repr

structure RouteRow where
  hostname : Hostname
  accountId : AccountId
  projectId : ProjectId
  machineId : MachineId
  record : Route
  target : Option AppliedTarget
  deriving DecidableEq, Repr

structure MachineRow where
  id : MachineId
  accountId : AccountId
  projectId : ProjectId
  state : MachineState
  deriving DecidableEq, Repr

/-! ## Requests -/

inductive RouteDestination where
  | generated (name : String)
  | custom (hostname : Hostname) (challengeId : String)
  | existing (hostname : Hostname)
  deriving DecidableEq, Repr

structure RoutePublish where
  commandId : String
  machineId : MachineId
  destination : RouteDestination
  port : Nat
  expectedVersion : Option Nat
  deriving DecidableEq, Repr

structure RouteRemove where
  commandId : String
  expectedVersion : Nat
  deriving DecidableEq, Repr

inductive RouteCommand where
  | publish (request : RoutePublish)
  | remove (hostname : Hostname) (request : RouteRemove)
  deriving DecidableEq, Repr

namespace RouteCommand

def commandId : RouteCommand → String
  | .publish request => request.commandId
  | .remove _ request => request.commandId

def expectedVersion : RouteCommand → Option Nat
  | .publish request => request.expectedVersion
  | .remove _ request => some request.expectedVersion

def isRemove : RouteCommand → Bool
  | .publish _ => false
  | .remove .. => true

/-- A publication whose destination is an existing route. -/
def isMove : RouteCommand → Bool
  | .publish request => (request.destination matches .existing _)
  | .remove .. => false

end RouteCommand

/-- The receipt of an admitted command; `digest` is the request. -/
structure CommandRow where
  id : String
  accountId : AccountId
  hostname : Hostname
  digest : RouteCommand
  version : Nat
  createdAt : Instant
  deriving DecidableEq, Repr

structure DomainChallenge where
  id : String
  accountId : AccountId
  hostname : Hostname
  expiresAt : Instant
  verifiedAt : Option Instant
  deriving DecidableEq, Repr

/-- The tables the hosting service writes, and the machines it reads. -/
structure Store where
  machines : List MachineRow
  routes : List RouteRow
  commands : List CommandRow
  deriving DecidableEq, Repr

namespace Store

def machine (store : Store) (id : MachineId) : Option MachineRow :=
  Table.get MachineRow.id store.machines id

def route (store : Store) (hostname : Hostname) : Option RouteRow :=
  Table.get RouteRow.hostname store.routes hostname

def receipt (store : Store) (id : String) : Option CommandRow :=
  Table.get CommandRow.id store.commands id

/-- `UPDATE hosting_routes SET ... WHERE hostname = ...`. -/
def updateRoute (store : Store) (hostname : Hostname) (f : RouteRow → RouteRow) : Store :=
  { store with routes := Table.update RouteRow.hostname store.routes hostname f }

/-- `UPDATE hosting_routes SET record = ... WHERE hostname = ...`. -/
def setRecord (store : Store) (hostname : Hostname) (record : Route) : Store :=
  store.updateRoute hostname fun row => { row with record }

end Store

structure Config where
  applicationDomain : Hostname
  reservedHostnames : List Hostname
  deriving DecidableEq, Repr

/-- What a mutation reads outside the hosting tables: the account lock with the authority behind
    it, unfinished restores, domain challenges and the clock of the receipts. -/
structure Surroundings where
  authority : Except Fault Authority
  restoreAccessible : MachineId → Except Fault Unit
  challenges : List DomainChallenge
  now : Instant

/-! ## Admission -/

/-- `routeSchema.parse`. -/
def routeSchema (route : Route) : Except Fault Route := do
  refuse (!(hostnameSchema route.hostname && applicationPortSchema route.port) ∨
      route.version = 0 ∨ route.appliedVersion = some 0 ∨ route.gatewayAppliedVersion = some 0 ∨
      route.application.attempts > 5)
    (.other "Route does not match its schema.")
  pure route

/-- `routeRecord`: the parsed record of a row, which must agree with the row's columns. -/
def routeRecord (row : RouteRow) : Except Fault Route := do
  let record ← routeSchema row.record
  refuse (record.hostname ≠ row.hostname ∨ record.accountId ≠ row.accountId ∨
      record.projectId ≠ row.projectId ∨ record.machineId ≠ row.machineId)
    (.other "Hosting route ownership disagrees with its record.")
  pure record

structure Destination where
  machineId : MachineId
  projectId : ProjectId
  allocationId : AllocationId
  port : Nat
  deriving DecidableEq, Repr

/-- The hostname a publication is about. -/
def publishHostname (config : Config) (machineId : MachineId) : RouteDestination → Hostname
  | .generated name =>
    name ++ "-" ++ String.ofList ((machineId.toList.drop 3).filter (· ≠ '-')) ++ "." ++
      config.applicationDomain
  | .custom hostname _ => hostname
  | .existing hostname => hostname

/-- The checks on the name of a publication; only a custom name needs a claim. -/
def assertHostname (config : Config) (env : Surroundings) (principal : Principal)
    (authority : Authority) (hostname : Hostname) : RouteDestination → Except Fault Unit
  | .generated _ => pure ()
  | .custom _ challengeId => do
    refuse (hostname = config.applicationDomain ∨
        ('.' :: config.applicationDomain.toList).isSuffixOf hostname.toList)
      (cloudError .permissionDenied "Application hostnames must be generated by the cloud.")
    let challenge := env.challenges.find? fun row =>
      row.id = challengeId ∧ row.accountId = principal.accountId ∧ row.hostname = hostname
    refuse (challenge = none ∨
        ∃ row ∈ challenge, row.verifiedAt = none ∨ row.expiresAt ≤ authority.checkedAt)
      (cloudError .permissionDenied
        "Custom routes need a fresh verified domain challenge for this account.")
  | .existing _ => pure ()

/-- The checks on the machine and the name of a publication. -/
def publishDestination (config : Config) (env : Surroundings) (store : Store)
    (principal : Principal) (authority : Authority) (request : RoutePublish) :
    Except Fault (Hostname × Destination) := do
  let machine ← present
    ((store.machine request.machineId).filter (·.accountId = principal.accountId))
    (cloudError .notFound "Machine not found.")
  authorize authority.principal .routePublish (some machine.projectId)
  env.restoreAccessible machine.id
  let allocationId ← present
    (if machine.state.sshGuest then machine.state.allocation? else none)
    (cloudError .resourceBusy "Routes require an allocated machine with verified guest identity.")
  let hostname := publishHostname config request.machineId request.destination
  refuse (request.destination matches .generated _ ∧ ¬ hostnameSchema hostname)
    (.other "Generated hostname does not match its schema.")
  refuse (hostname ∈ config.reservedHostnames)
    (cloudError .permissionDenied "This hostname belongs to the cloud control service.")
  assertHostname config env principal authority hostname request.destination
  pure (hostname, ⟨request.machineId, machine.projectId, allocationId, request.port⟩)

/-- The answer to a command that already has a receipt. -/
def replay (store : Store) (principal : Principal) (authority : Authority) (command : RouteCommand)
    (receipt : CommandRow) : Except Fault Route := do
  refuse (receipt.accountId ≠ principal.accountId ∨ receipt.digest ≠ command)
    (cloudError .idempotencyConflict "Route command ID belongs to a different request.")
  let row ← present (store.route receipt.hostname) (.other "Recorded route is missing.")
  let route ← routeRecord row
  authorize authority.principal .routePublish (some route.projectId)
  refuse (route.version ≠ receipt.version)
    (cloudError .versionConflict ("Route command admitted version " ++ toString receipt.version ++
      ", which has been superseded by version " ++ toString route.version ++
      ". Inspect the hostname for current state."))
  pure route

/-- The hostname a command is about. -/
def commandHostname (config : Config) : RouteCommand → Hostname
  | .publish request => publishHostname config request.machineId request.destination
  | .remove hostname _ => hostname

/-- The hostname of a command, with the destination of a publication. -/
def commandDestination (config : Config) (env : Surroundings) (store : Store)
    (principal : Principal) (authority : Authority) :
    RouteCommand → Except Fault (Hostname × Option Destination)
  | .publish request => do
    let published ← publishDestination config env store principal authority request
    pure (published.1, some published.2)
  | .remove hostname _ => pure (hostname, none)

/-- The record of a row, when there is one. -/
def existingRecord : Option RouteRow → Except Fault (Option Route)
  | none => pure none
  | some row => do
    let record ← routeRecord row
    pure (some record)

/-- `if (previous) authorize(...)`. -/
def authorizePrevious (authority : Authority) : Option Route → Except Fault Unit
  | none => pure ()
  | some route => authorize authority.principal .routePublish (some route.projectId)

/-- The row a mutation starts from: the hostname's, owned by the account and at the expected
    version. -/
def previousRoute (store : Store) (principal : Principal) (authority : Authority)
    (command : RouteCommand) (hostname : Hostname) : Except Fault (Option Route) := do
  let existing := store.route hostname
  refuse (∃ row ∈ existing, row.accountId ≠ principal.accountId)
    (cloudError .permissionDenied ("This hostname remains reserved to another account. " ++
      "Its operator must resolve ownership before reassignment."))
  let previous ← existingRecord existing
  refuse (previous = none ∧ command.isMove)
    (cloudError .notFound "Only a retained account-owned route can be moved.")
  authorizePrevious authority previous
  refuse (previous.map (·.version) ≠ command.expectedVersion)
    (cloudError .versionConflict "Route changed; inspect its current version.")
  pure previous

/-- The record a mutation writes. -/
def nextRoute (principal : Principal) (authority : Authority) (command : RouteCommand)
    (hostname : Hostname) (chosen : Destination) (previous : Option Route) : Route :=
  { hostname
    accountId := principal.accountId
    machineId := chosen.machineId
    projectId := chosen.projectId
    allocationId := chosen.allocationId
    port := chosen.port
    version := (previous.map (·.version)).getD 0 + 1
    state := if command.isRemove then .removed else .pending
    appliedVersion := previous.bind (·.appliedVersion)
    gatewayAppliedVersion := previous.bind (·.gatewayAppliedVersion)
    application := .pending 0
    createdAt := (previous.map (·.createdAt)).getD authority.checkedAt
    updatedAt := authority.checkedAt }

/-- `INSERT ... ON CONFLICT (hostname) DO UPDATE SET machineId, projectId, record`: an existing
    row keeps its target. -/
def putRoute (store : Store) (route : Route) : Store :=
  match store.route route.hostname with
  | some _ => store.updateRoute route.hostname fun row =>
      { row with machineId := route.machineId, projectId := route.projectId, record := route }
  | none =>
    { store with
      routes := store.routes ++
        [⟨route.hostname, route.accountId, route.projectId, route.machineId, route, none⟩] }

/-- The destination of the written record: the publication's, or the previous one. -/
def chosenDestination (destination : Option Destination) (previous : Option Route) :
    Option Destination :=
  destination <|> previous.map fun route =>
    ⟨route.machineId, route.projectId, route.allocationId, route.port⟩

/-- A mutation of a command without a receipt. -/
def admitCommand (config : Config) (env : Surroundings) (store : Store) (principal : Principal)
    (authority : Authority) (command : RouteCommand) : Except Fault (Route × Store) := do
  let (hostname, destination) ←
    commandDestination config env store principal authority command
  let previous ← previousRoute store principal authority command hostname
  let chosen ← present (chosenDestination destination previous)
    (cloudError .notFound "Route not found.")
  refuse (previous = none ∧
      (store.routes.filter (·.accountId = principal.accountId)).length ≥ 100)
    (cloudError .quotaExceeded "An account can reserve at most one hundred route names.")
  refuse ((store.commands.filter fun row => row.accountId = principal.accountId ∧
      row.createdAt + 3600000 > env.now).length ≥ 100)
    (cloudError .quotaExceeded
      "Route changes are limited to one hundred per account per hour.")
  let route ← routeSchema (nextRoute principal authority command hostname chosen previous)
  let stored := putRoute store route
  pure (route,
    { stored with commands := stored.commands ++
        [⟨command.commandId, principal.accountId, hostname, command, route.version, env.now⟩] })

/-- `mutate`. -/
def mutate (config : Config) (env : Surroundings) (principal : Principal) (command : RouteCommand)
    (store : Store) : Except Fault (Route × Store) := do
  refuse (command.isMove ∧ command.expectedVersion = none)
    (cloudError .invalidInput "Moving an existing route requires its explicit current version.")
  let authority ← env.authority
  match store.receipt command.commandId with
  | some receipt => do
    let route ← replay store principal authority command receipt
    pure (route, store)
  | none => admitCommand config env store principal authority command

/-! ## Applying a version to its guest -/

/-- The first transaction of `advance`: counts one bounded attempt, or blocks the version. -/
def advanceClaim (hostname : Hostname) (store : Store) : Except Fault (Option Route × Store) :=
  match store.route hostname with
  | none => pure (none, store)
  | some row => do
    let current ← routeRecord row
    match current.application with
    | .pending attempts =>
      if attempts = 5 then
        pure (none, store.setRecord hostname { current with application := .blocked })
      else
        let claimed ← routeSchema { current with application := .pending (attempts + 1) }
        pure (some claimed, store.setRecord hostname claimed)
    | _ => pure (none, store)

namespace Route

/-- The guest's side of a route version. -/
def guestRoute (route : Route) : GuestRoute :=
  if route.state = .removed then .remove route.hostname route.version
  else .put route.hostname route.version route.port

/-- The command `applyGuest` sends: bindings below the gateway's acknowledgement may go. -/
def guestCommand (route : Route) : GuestCommand :=
  .change route.guestRoute (route.gatewayAppliedVersion.getD 1)

@[simp] theorem guestRoute_hostname (route : Route) :
    route.guestRoute.hostname = route.hostname := by
  unfold guestRoute; split <;> rfl

@[simp] theorem guestRoute_version (route : Route) :
    route.guestRoute.version = route.version := by
  unfold guestRoute; split <;> rfl

@[simp] theorem guestRoute_isPut (route : Route) :
    route.guestRoute.isPut = decide (route.state ≠ .removed) := by
  unfold guestRoute; split <;> simp_all [GuestRoute.isPut]

end Route

/-- `applyGuest` up to the guest command; `none` when a removal finds its machine destroyed, and
    then no command is sent.  `observed` is the guest's address as the provider, the allocation and
    the signer establish it. -/
def applyGuest (store : Store) (observed : Except Fault String) (route : Route) :
    Except Fault (Option Target) := do
  let machine ← present
    ((store.machine route.machineId).filter (·.accountId = route.accountId))
    (cloudError .notFound "Route machine not found.")
  if route.state = .removed ∧ machine.state matches .destroyed _ then
    pure none
  else
    refuse (machine.state.allocation? ≠ some route.allocationId ∨ ¬ machine.state.sshGuest)
      (cloudError .resourceBusy "Route allocation is no longer available.")
    let address ← observed
    pure (some ⟨address, guestName route.allocationId⟩)

/-- The transaction of `advance` after a failed attempt: the fifth failure blocks the version. -/
def advanceBlock (route : Route) (store : Store) : Except Fault Store :=
  match store.route route.hostname with
  | none => pure store
  | some row => do
    let current ← routeRecord row
    if current.version = route.version ∧ current.application = .pending 5 then
      pure (store.setRecord route.hostname { current with application := .blocked })
    else pure store

/-- The last transaction of `advance`: only the newest version moves the target. -/
def advanceRecord (route : Route) (target : Option Target) (store : Store) : Except Fault Store :=
  match store.route route.hostname with
  | none => pure store
  | some row => do
    let latest ← routeRecord row
    if latest.version ≠ route.version then pure store
    else
      pure (store.updateRoute route.hostname fun row =>
        { row with
          target := target.map fun reached =>
            ⟨reached.address, reached.serverName, route.machineId, route.allocationId,
              route.version⟩
          record :=
            { latest with
              state := if route.state = .removed then .removed else .active
              application := .applied
              appliedVersion := some route.version } })

/-! ## The gateway's view -/

/-- One row as the gateway is told of it. -/
inductive Observed where
  | removed (hostname : Hostname) (version : Nat)
  | live (hostname : Hostname) (target : AppliedTarget)
  deriving DecidableEq, Repr

/-- One entry of the fingerprint a revision digests. -/
inductive Fingerprint where
  | removed (hostname : Hostname) (version : Nat)
  | live (hostname : Hostname) (address : String) (serverName : Hostname) (version : Nat)
  deriving DecidableEq, Repr

abbrev Revision := List Fingerprint

/-- One route of `hostingSnapshotSchema`. -/
structure SnapshotRoute where
  hostname : Hostname
  address : String
  serverName : Hostname
  version : Nat
  deriving DecidableEq, Repr

structure Snapshot where
  revision : Revision
  routes : List SnapshotRoute
  deriving DecidableEq, Repr

namespace Observed

def hostname : Observed → Hostname
  | .removed hostname _ => hostname
  | .live hostname _ => hostname

def version : Observed → Nat
  | .removed _ version => version
  | .live _ target => target.version

def target? : Observed → Option AppliedTarget
  | .removed .. => none
  | .live _ target => some target

def fingerprint : Observed → Fingerprint
  | .removed hostname version => .removed hostname version
  | .live hostname target => .live hostname target.address target.serverName target.version

def snapshotRoute? : Observed → Option SnapshotRoute
  | .removed .. => none
  | .live hostname target =>
    some ⟨hostname, target.address, target.serverName, target.version⟩

end Observed

/-- The target's machine still has the target's allocation. -/
def targetLive (store : Store) (target : AppliedTarget) : Bool :=
  match store.machine target.machineId with
  | none => false
  | some machine => decide (machine.state.allocation? = some target.allocationId)

/-- One round of the loop of `gatewayState`. -/
def observe (store : Store) (row : RouteRow) : Except Fault (Option Observed) := do
  let route ← routeRecord row
  if route.state = .removed then pure (some (.removed route.hostname route.version))
  else
    match row.target with
    | none => pure none
    | some target =>
      if targetLive store target then pure (some (.live route.hostname target)) else pure none

/-- The order of names by code point. -/
def precedes : List Char → List Char → Bool
  | [], _ => true
  | _ :: _, [] => false
  | a :: as, b :: bs => decide (a.toNat < b.toNat) || (a == b && precedes as bs)

def observeAll (store : Store) : List RouteRow → Except Fault (List Observed)
  | [] => pure []
  | row :: rows => do
    let first ← observe store row
    let rest ← observeAll store rows
    pure (first.toList ++ rest)

/-- What `gatewayState` computes, kept as the observed rows; the snapshot and the acknowledged
    versions are read off them. -/
structure GatewayState where
  observed : List Observed
  deriving DecidableEq, Repr

namespace GatewayState

def revision (state : GatewayState) : Revision := state.observed.map (·.fingerprint)

def snapshot (state : GatewayState) : Snapshot :=
  ⟨state.revision, state.observed.filterMap (·.snapshotRoute?)⟩

def versions (state : GatewayState) : List (Hostname × Nat) :=
  state.observed.map fun entry => (entry.hostname, entry.version)

end GatewayState

/-- `gatewayState`; `hostingSnapshotSchema` admits at most a thousand routes. -/
def gatewayState (store : Store) : Except Fault GatewayState := do
  let observed ← observeAll store
    (store.routes.insertionSort fun a b => precedes a.hostname.toList b.hostname.toList)
  let state : GatewayState := ⟨observed⟩
  refuse (state.snapshot.routes.length > 1000) (.other "Snapshot does not match its schema.")
  pure state

/-- One transaction of `acknowledge`. -/
def recordAcknowledgement (hostname : Hostname) (version : Nat) (store : Store) :
    Except Fault Store :=
  match store.route hostname with
  | none => pure store
  | some row => do
    let latest ← routeRecord row
    if latest.gatewayAppliedVersion.getD 0 ≥ version then pure store
    else
      pure (store.setRecord hostname { latest with gatewayAppliedVersion := some version })

end AgentCloud.Hosting
