/-
  THE SHARED CONTRACTS: identifiers, failures, money, delegated policies and machine records, as
  `packages/contracts` declares them.

  Identifiers are branded strings in the source and plain strings here; what distinguishes them is
  the column they stand in.  Money is a natural number of micro-units.  Instants are natural
  numbers of milliseconds, the resolution of the source's `Date`.

  A thrown value is a `Fault`.  A `CloudError` carries a code that callers branch on; everything
  else that can be thrown (a schema that does not parse, a trigger that refuses, a lost
  connection) is `other`, on which no caller branches.
-/
import AgentCloud.Lib.Checked

namespace AgentCloud

abbrev AccountId := String
abbrev ProjectId := String
abbrev MachineId := String
abbrev AllocationId := String
abbrev OperationId := String
abbrev GrantId := String
abbrev AttemptId := String
abbrev AccessSessionId := String

/-- Micro-units of a currency. -/
abbrev Micros := Nat

/-- Milliseconds since the epoch. -/
abbrev Instant := Nat

/-! ## Failures -/

inductive ErrorCode where
  | invalidInput
  | unauthenticated
  | permissionDenied
  | notFound
  | idempotencyConflict
  | resourceBusy
  | versionConflict
  | quotaExceeded
  | budgetExceeded
  | capacityUnavailable
  | providerRejected
  | providerOutcomeUnknown
  | providerUnavailable
  | guestUnreachable
  | dataLossNotAuthorized
  | internalError
  deriving DecidableEq, Repr

structure Failure where
  code : ErrorCode
  message : String
  retryable : Bool
  deriving DecidableEq, Repr

inductive Fault where
  | cloud (failure : Failure)
  | other (message : String)
  deriving DecidableEq, Repr

/-- `new CloudError(code, message)`. -/
def cloudError (code : ErrorCode) (message : String) : Fault := .cloud ⟨code, message, false⟩

/-- `new CloudError(code, message, true)`. -/
def retryableError (code : ErrorCode) (message : String) : Fault := .cloud ⟨code, message, true⟩

/-! ## Delegated policies -/

inductive Size where
  | small
  | medium
  | large
  deriving DecidableEq, Repr

inductive Region where
  | nbg1
  | fsn1
  | hel1
  deriving DecidableEq, Repr

inductive Capability where
  | projectRead
  | projectCreate
  | machineRead
  | machineCreate
  | machineOperate
  | machineDestroy
  | machineDestroyDataLoss
  | machineExec
  | deployWrite
  | routePublish
  | backupRead
  | backupCreate
  | backupRestore
  | backupPurge
  | grantManage
  | usageRead
  deriving DecidableEq, Repr

/-- The capability's spelling in a policy and in error messages. -/
def Capability.text : Capability → String
  | .projectRead => "project:read"
  | .projectCreate => "project:create"
  | .machineRead => "machine:read"
  | .machineCreate => "machine:create"
  | .machineOperate => "machine:operate"
  | .machineDestroy => "machine:destroy"
  | .machineDestroyDataLoss => "machine:destroy:data_loss"
  | .machineExec => "machine:exec"
  | .deployWrite => "deploy:write"
  | .routePublish => "route:publish"
  | .backupRead => "backup:read"
  | .backupCreate => "backup:create"
  | .backupRestore => "backup:restore"
  | .backupPurge => "backup:purge"
  | .grantManage => "grant:manage"
  | .usageRead => "usage:read"

inductive ProjectScope where
  | all
  | selected (ids : List ProjectId)
  deriving DecidableEq, Repr

structure GrantPolicy where
  capabilities : List Capability
  projects : ProjectScope
  sizes : List Size
  regions : List Region
  maxMachines : Nat
  currency : String
  maxHourlyMicros : Micros
  deriving DecidableEq, Repr

structure Principal where
  accountId : AccountId
  grantId : GrantId
  policy : GrantPolicy
  deriving DecidableEq, Repr

/-! ## Machine records -/

inductive Power where
  | running
  | off
  | starting
  | stopping
  | unknown
  deriving DecidableEq, Repr

inductive GuestVerification where
  | pending
  | simulated (verifiedAt : Instant)
  | ssh (verifiedAt : Instant) (imageVersion manifestDigest bootId : String)
  deriving DecidableEq, Repr

inductive BackupStatus where
  | unknown
  | disabled
  | enabled
  deriving DecidableEq, Repr

inductive MachineState where
  | pending
  | provisioning (allocationId : AllocationId)
  | allocated (allocationId : AllocationId) (serverId : String) (power : Power)
      (guest : GuestVerification) (backupStatus : BackupStatus)
  | failed (error : Failure)
  | destroyed (destroyedAt : Instant)
  deriving DecidableEq, Repr

namespace MachineState

/-- The allocation of a machine in state `allocated`. -/
def allocation? : MachineState → Option AllocationId
  | .allocated allocationId .. => some allocationId
  | _ => none

/-- `state.guest.kind === 'ssh'` of an allocated machine. -/
def sshGuest : MachineState → Bool
  | .allocated _ _ _ (.ssh ..) _ => true
  | _ => false

/-- How far a machine is in its life; nothing leads back. -/
def stage : MachineState → Nat
  | .pending => 0
  | .provisioning _ => 1
  | .allocated .. => 2
  | .failed _ => 3
  | .destroyed _ => 4

/-- The changes of a machine record the lifecycle makes: forward, and an allocated machine keeps
    its allocation for as long as it is allocated. -/
def mayBecome (old new : MachineState) : Bool :=
  decide (old.stage ≤ new.stage) &&
    (decide (old.allocation? = none) || decide (new.allocation? = old.allocation?) ||
      decide (2 < new.stage))

theorem mayBecome_refl {state : MachineState} : state.mayBecome state = true := by
  simp [mayBecome]

theorem stage_le {old new : MachineState} (h : old.mayBecome new = true) :
    old.stage ≤ new.stage := by
  simp only [mayBecome, Bool.and_eq_true, decide_eq_true_eq] at h
  exact h.1

theorem allocation?_stage {state : MachineState} {id : AllocationId}
    (h : state.allocation? = some id) : state.stage = 2 := by
  cases state <;> simp_all [allocation?, stage]

end MachineState

end AgentCloud
