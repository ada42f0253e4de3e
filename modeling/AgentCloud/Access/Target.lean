/-
  THE ACCESS TARGET: what a session must still be about each time the service acts on it.

  `current` is evaluated inside a transaction that holds the account's row lock.  It believes the
  credential afresh (`loadAuthority`) and then reads the machine, its allocation and the recorded
  resources, which other parts of the control plane write; those rows are the `Rows` of the
  moment and may be anything at all.  What it returns is the `Context`; `unchanged` compares it
  with the pins the session was admitted with.
-/
import AgentCloud.Access.Sessions
import AgentCloud.Grants

namespace AgentCloud.Access

open Checked

/-! ## Rows written elsewhere -/

structure MachineRow where
  id : MachineId
  accountId : AccountId
  projectId : ProjectId
  version : Nat
  state : MachineState
  deriving DecidableEq, Repr

structure AllocationRow where
  id : AllocationId
  accountId : AccountId
  provider : ProviderKind
  serverId : Option String
  retiredAt : Option Instant
  deriving DecidableEq, Repr

/-- The part of `bootstrapSpecSchema` that access reads. -/
structure BootstrapSpec where
  accountId : AccountId
  machineId : MachineId
  allocationId : AllocationId
  customerSsh : Nat
  manifestDigest : String
  sshHostCa : String
  deriving DecidableEq, Repr

/-- A guest identity; `sshHostPublicKey` is there once it is `issued`. -/
structure GuestIdentityRow where
  allocationId : AllocationId
  sshHostPublicKey : Option String
  deriving DecidableEq, Repr

inductive ResourceKind where
  | server
  | primaryIp
  deriving DecidableEq, Repr

structure ResourceRow where
  allocationId : AllocationId
  accountId : AccountId
  kind : ResourceKind
  provider : ProviderKind
  providerId : String
  absentAt : Option Instant
  deriving DecidableEq, Repr

structure Rows where
  accounts : List AccountId
  machines : List MachineRow
  /-- Machines that are the target of a restore which is not `restored`. -/
  unverifiedRestores : List MachineId
  /-- Machines with an operation that is not terminal. -/
  activeOperations : List MachineId
  allocations : List AllocationRow
  bootstraps : List BootstrapSpec
  identities : List GuestIdentityRow
  resources : List ResourceRow

structure ServiceConfig where
  gateway : Gateway
  provider : ProviderKind
  /-- SHA-256, as a hexadecimal string. -/
  hashToken : String → String

/-! ## The context of a session -/

structure Scope where
  accountId : AccountId
  grantId : GrantId
  machineId : MachineId
  deriving DecidableEq, Repr

def sessionScope (session : Session) : Scope :=
  ⟨session.accountId, session.grantId, session.machineId⟩

structure Context where
  authority : Authority
  machine : MachineRow
  allocation : AllocationRow
  spec : BootstrapSpec
  pin : IdentityPin
  deriving DecidableEq, Repr

/-- `value.replace(pattern, replacement)`: the first occurrence. -/
def replaceFirst (pattern replacement : List Char) : List Char → List Char
  | [] => []
  | c :: rest =>
    if pattern.isPrefixOf (c :: rest) then replacement ++ (c :: rest).drop pattern.length
    else c :: replaceFirst pattern replacement rest

def hostAlias (id : AllocationId) : String :=
  String.ofList (replaceFirst "alloc_".toList "alloc-".toList id.toList) ++
    ".guest.agent-cloud.internal"

def assertRestoreAccessible (rows : Rows) (machineId : MachineId) : Except Fault Unit :=
  refuse (machineId ∈ rows.unverifiedRestores)
    (cloudError .resourceBusy
      "This isolated restore target is not verified. Inspect the restore or destroy this target; it cannot accept customer access or routes yet.")

/-- The allocation and manifest of a machine whose state is allocated, running and verified. -/
def verifiedGuest : MachineState → Option (AllocationId × String)
  | .allocated allocationId _ .running (.ssh _ _ manifestDigest _) _ =>
    some (allocationId, manifestDigest)
  | _ => none

/-- The recorded VM and IP of an allocation, when there is exactly one of each. -/
def ownedPair (rows : Rows) (accountId : AccountId) (allocationId : AllocationId) :
    Option (ResourceRow × ResourceRow) :=
  let resources := rows.resources.filter fun row =>
    row.allocationId = allocationId ∧ row.accountId = accountId ∧ row.absentAt = none
  match resources.filter (·.kind = .server), resources.filter (·.kind = .primaryIp) with
  | [server], [ip] => some (server, ip)
  | _, _ => none

def current (config : ServiceConfig) (rows : Rows) (grants : List Grant) (now : Instant)
    (scope : Scope) : Except Fault Context := do
  lockAccount rows.accounts scope.accountId
  let authority ← loadAuthority grants now scope.grantId
  refuse (authority.principal.accountId ≠ scope.accountId)
    (cloudError .permissionDenied "Access account changed.")
  let machine ← present
    (rows.machines.find? fun row => row.id = scope.machineId ∧ row.accountId = scope.accountId)
    (cloudError .notFound "Machine not found.")
  authorize authority.principal .machineExec (some machine.projectId)
  assertRestoreAccessible rows machine.id
  let (allocationId, manifestDigest) ← present (verifiedGuest machine.state)
    (cloudError .resourceBusy "SSH requires a running verified guest.")
  refuse (machine.id ∈ rows.activeOperations)
    (cloudError .resourceBusy "Machine has an active lifecycle operation.")
  let allocation ← present
    (rows.allocations.find? fun row =>
      row.id = allocationId ∧ row.accountId = scope.accountId ∧ row.retiredAt = none)
    (cloudError .resourceBusy "Guest identity is unavailable.")
  let spec ← present (rows.bootstraps.find? (·.allocationId = allocationId))
    (cloudError .resourceBusy "Guest identity is unavailable.")
  let identity ← present (rows.identities.find? (·.allocationId = allocationId))
    (cloudError .resourceBusy "Guest identity is unavailable.")
  let guestHostPublicKey ← present identity.sshHostPublicKey
    (cloudError .permissionDenied "This verified image does not support customer SSH.")
  refuse (spec.customerSsh ≠ 1 ∨ spec.accountId ≠ scope.accountId ∨
      spec.machineId ≠ machine.id ∨ spec.allocationId ≠ allocation.id ∨
      manifestDigest ≠ spec.manifestDigest)
    (cloudError .permissionDenied "This verified image does not support customer SSH.")
  let (server, ip) ← present (ownedPair rows scope.accountId allocation.id)
    (cloudError .resourceBusy "Access requires one recorded owned VM and IP.")
  refuse (some server.providerId ≠ allocation.serverId ∨ server.provider ≠ config.provider ∨
      ip.provider ≠ config.provider)
    (cloudError .resourceBusy "Access requires one recorded owned VM and IP.")
  pure
    { authority
      machine
      allocation
      spec
      pin :=
        { provider := config.provider
          serverId := server.providerId
          primaryIpId := ip.providerId
          hostAlias := hostAlias allocation.id
          sshHostCa := spec.sshHostCa
          guestHostPublicKey
          imageManifestDigest := spec.manifestDigest } }

def unchanged (config : ServiceConfig) (session : Session) (context : Context) :
    Except Fault Unit :=
  refuse (session.machineVersion ≠ context.machine.version ∨
      session.allocationId ≠ context.allocation.id ∨ session.identityPin ≠ context.pin ∨
      session.gateway ≠ config.gateway)
    (cloudError .permissionDenied "Access target or gateway changed.")

/-- A context exists only while the credential of its scope is believed. -/
theorem current_loads {config : ServiceConfig} {rows : Rows} {grants : List Grant} {now : Instant}
    {scope : Scope} {context : Context} (h : current config rows grants now scope = .ok context) :
    loadAuthority grants now scope.grantId = .ok context.authority := by
  simp only [current, bind_ok_iff] at h
  obtain ⟨_, -, authority, hload, h⟩ := h
  obtain ⟨_, -, _, -, _, -, _, -, pair, -, h⟩ := h
  obtain ⟨_, -, _, -, _, -, _, -, _, -, _, -, owned, -, h⟩ := h
  simp only [pure_ok_iff] at h
  obtain ⟨_, -, rfl⟩ := h
  exact hload

end AgentCloud.Access
