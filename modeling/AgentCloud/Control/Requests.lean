/-
  CONTROL RECOVERY: the generation of the control database, who changes it, and who is held to it.

  `control_state` has one row.  It names the generation that may run, and whether a recovery of it
  is unfinished.  An offline request changes it in one transaction, under a session lock that
  excludes every running process, and leaves its receipt in `control_recoveries`; a request whose
  receipt is found is answered again and changes nothing.  A running process reads the row through
  its fence, beside the generation file it was started with.

  What a closure does to its machine's journal is `Lifecycle.closeOperation`, and what a recovery
  that begins takes from the customers is `Delegation.beginRecovery` and `Access.beginRecovery`.
  Here a closure is what its checks come to, and the row and the receipts are followed.
-/
import AgentCloud.Lifecycle.Records

namespace AgentCloud.Control

open Checked
open Lifecycle (RecoveryId ResourceRef Evidence isDigest isOperator utf16Length)

abbrev Generation := String

/-! ## Requests -/

/-- `evidence`, as the schema takes it. -/
def isEvidence (evidence : Evidence) : Bool :=
  isDigest evidence.sha256 &&
    decide (1 ≤ utf16Length evidence.reference ∧ utf16Length evidence.reference ≤ 256)

/-- The kinds of a request.  The attestations are literals of the schema and carry nothing. -/
inductive Decision where
  | initializeControl
  | begin (checkpointSha256 : String) (evidence : Evidence)
  | closeOperation (recoveryId : RecoveryId) (operationId : OperationId) (expectedState : String)
      (resourceIds : List ResourceRef) (evidence : Evidence)
  | resume (recoveryId : RecoveryId) (expectedState expectedInventory : String)
      (evidence : Evidence)
  deriving DecidableEq, Repr

/-- The checks of `controlRecoveryRequestSchema` that are particular to a kind. -/
def Decision.formed : Decision → Bool
  | .initializeControl => true
  | .begin checkpoint evidence => isDigest checkpoint && isEvidence evidence
  | .closeOperation _ _ expectedState resourceIds evidence =>
    isDigest expectedState && decide (resourceIds.length ≤ 100) && isEvidence evidence
  | .resume _ expectedState expectedInventory evidence =>
    isDigest expectedState && isDigest expectedInventory && isEvidence evidence

/-- The kinds that bring a generation of their own. -/
def Decision.introduces : Decision → Bool
  | .initializeControl => true
  | .begin .. => true
  | _ => false

/-- `controlRecoveryRequestSchema`. -/
@[ext]
structure Request where
  id : RecoveryId
  generation : Generation
  operator : String
  decision : Decision
  named : isOperator operator = true
  formed : decision.formed = true

instance : DecidableEq Request := fun _ _ => decidable_of_iff _ Request.ext_iff.symm

/-! ## State -/

/-- `controlStateSchema`. -/
inductive ControlState where
  | ready (generation : Generation)
  | recovering (generation : Generation) (recoveryId : RecoveryId)
  deriving DecidableEq, Repr

def ControlState.generation : ControlState → Generation
  | .ready generation => generation
  | .recovering generation _ => generation

/-- `control_state` and `control_recoveries`. -/
structure Store where
  row : Option ControlState
  receipts : List Request
  deriving DecidableEq

def Store.empty : Store := ⟨none, []⟩

def Store.saved (store : Store) (id : RecoveryId) : Option Request :=
  store.receipts.find? fun request => request.id = id

/-- The current generation, ready or not. -/
def Store.generation (store : Store) : Option Generation := store.row.map ControlState.generation

/-- The generations that a retained receipt brought in. -/
def Store.introduced (store : Store) : List Generation :=
  (store.receipts.filter fun request => request.decision.introduces).map Request.generation

/-- What `inspectControlRecovery` found. -/
structure Inspection where
  blockers : List String
  stateDigest : String
  inventoryDigest : String
  deriving DecidableEq, Repr

/-- What a request meets: its generation file, read three times, the lock, the other tables and the
    provider. -/
structure Env where
  target : Except Fault Generation
  busy : Bool
  targetInside : Except Fault Generation
  occupied : Bool
  closure : Except Fault Unit
  inspection : Except Fault Inspection
  targetBefore : Except Fault Generation

/-! ## Requests applied -/

/-- `generation(path)`, compared with the request. -/
def readTarget (file : Except Fault Generation) (request : Request) (message : String) :
    Except Fault Unit := do
  let generation ← file
  refuse (generation ≠ request.generation) (cloudError .versionConflict message)

/-- `controlStateSchema.parse(row?.state)`. -/
def Store.parsed (store : Store) : Except Fault ControlState :=
  present store.row (.other "Invalid input: expected object, received undefined")

def requireRecovery (store : Store) (request : Request) (recoveryId : RecoveryId) :
    Except Fault Unit := do
  let current ← store.parsed
  refuse (current ≠ .recovering request.generation recoveryId)
    (cloudError .versionConflict "The request does not match the fenced recovery.")

theorem readTarget_ok {file : Except Fault Generation} {request : Request} {message : String}
    {u : Unit} : readTarget file request message = .ok u ↔ file = .ok request.generation := by
  simp only [readTarget, bind_ok_iff, refuse_ok_iff, not_not]
  constructor
  · rintro ⟨_, hfile, rfl⟩
    exact hfile
  · intro hfile
    exact ⟨_, hfile, rfl⟩

theorem requireRecovery_ok {store : Store} {request : Request} {recoveryId : RecoveryId} {u : Unit}
    (h : requireRecovery store request recoveryId = .ok u) :
    store.row = some (.recovering request.generation recoveryId) := by
  simp only [requireRecovery, Store.parsed, bind_ok_iff, present_ok_iff, refuse_ok_iff,
    not_not] at h
  obtain ⟨current, hrow, rfl⟩ := h
  exact hrow

/-- Whether a recovery may begin: with another generation than a ready one's. -/
def mayBegin (row : Option ControlState) (generation : Generation) : Bool :=
  match row with
  | none => true
  | some (.ready previous) => decide (previous ≠ generation)
  | some (.recovering _ _) => false

/-- The row that a request leaves. -/
def decided (env : Env) (request : Request) (store : Store) :
    Except Fault (Option ControlState) :=
  match request.decision with
  | .initializeControl => do
    refuse (store.row.isSome = true ∨ env.occupied = true) (cloudError .permissionDenied
      "Initialize requires an empty new control database. Use begin for existing or restored state.")
    pure (some (.ready request.generation))
  | .begin _ _ => do
    refuse (mayBegin store.row request.generation = false) (cloudError .versionConflict
      "Recovery requires a new external generation and no unfinished recovery.")
    pure (some (.recovering request.generation request.id))
  | .closeOperation recoveryId _ _ _ _ => do
    requireRecovery store request recoveryId
    env.closure
    pure store.row
  | .resume recoveryId expectedState expectedInventory _ => do
    requireRecovery store request recoveryId
    let inspection ← env.inspection
    refuse (inspection.blockers ≠ []) (cloudError .resourceBusy
      "Unresolved recovery items remain. Inspect control recovery before resume.")
    refuse (inspection.stateDigest ≠ expectedState ∨ inspection.inventoryDigest ≠ expectedInventory)
      (cloudError .versionConflict
        "Recovery state or current inventory changed. Inspect it again.")
    pure (some (.ready request.generation))

def changedBefore : Decision → String
  | .closeOperation .. => "Private target generation changed before closure commit."
  | _ => "Private target generation changed before commit."

structure Answer where
  id : RecoveryId
  replayed : Bool
  deriving DecidableEq, Repr

def applyControlRecovery (env : Env) (request : Request) (store : Store) :
    Except Fault (Answer × Store) := do
  readTarget env.target request "Request and private target generation differ."
  refuse (env.busy = true) (cloudError .resourceBusy
    "Stop all control API, worker and operator mutators before recovery.")
  match store.saved request.id with
  | some saved => do
    refuse (saved ≠ request) (cloudError .idempotencyConflict
      "Recovery ID already describes another decision.")
    pure (⟨request.id, true⟩, store)
  | none => do
    readTarget env.targetInside request "Private target generation changed."
    let row ← decided env request store
    readTarget env.targetBefore request (changedBefore request.decision)
    pure (⟨request.id, false⟩, ⟨row, store.receipts ++ [request]⟩)

/-! ## Runs

The lock puts the requests in an order. -/

structure Event where
  env : Env
  request : Request

/-- A refused request is rolled back. -/
def Store.after (store : Store) (event : Event) : Store :=
  match applyControlRecovery event.env event.request store with
  | .ok (_, store') => store'
  | .error _ => store

def Store.run (store : Store) (events : List Event) : Store := events.foldl Store.after store

@[simp] theorem Store.run_nil (store : Store) : store.run [] = store := rfl

@[simp] theorem Store.run_cons (store : Store) (event : Event) (events : List Event) :
    store.run (event :: events) = (store.after event).run events := rfl

@[simp] theorem Store.run_append (store : Store) (events later : List Event) :
    store.run (events ++ later) = (store.run events).run later := List.foldl_append

/-! ## The fence -/

inductive Mode where
  | ready
  | recovering
  deriving DecidableEq, Repr

def ControlState.mode : ControlState → Mode
  | .ready _ => .ready
  | .recovering _ _ => .recovering

def unavailable : Fault :=
  retryableError .providerUnavailable "Control execution is fenced until recovery is ready."

structure Fence where
  mode : Mode
  generation : Generation
  deriving DecidableEq, Repr

/-- `inspect` of the fence.  Whatever it fails with reaches the caller as `unavailable`. -/
def inspectFence (mode : Mode) (file : Except Fault Generation) (store : Store) :
    Except Fault Generation := do
  let external ← file
  let state ← store.parsed
  refuse (state.mode ≠ mode ∨ state.generation ≠ external) unavailable
  pure external

/-- `openFence`, with what the session got of its lock. -/
def openFence (mode : Mode) (acquired : Bool) (file : Except Fault Generation) (store : Store) :
    Except Fault Fence :=
  match acquired, inspectFence mode file store with
  | true, .ok generation => .ok ⟨mode, generation⟩
  | _, _ => .error unavailable

/-- `check` of a session that is still held. -/
def Fence.check (fence : Fence) (file : Except Fault Generation) (store : Store) :
    Except Fault Unit :=
  match inspectFence fence.mode file store with
  | .ok generation => refuse (generation ≠ fence.generation) unavailable
  | .error _ => .error unavailable

end AgentCloud.Control
