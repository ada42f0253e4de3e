/-
  THE ACCESS DESK: the service at work, with its two locks, its clock and its signer.

  An issuer holds the lock `access-session:<id>` from its first look at the session to its last, and
  goes through stages: it has prepared, located the guest, recorded the attempt, got the signature.
  Between two stages it may die, and another issuer may begin again.  Whatever reads a session in
  order to write it holds the lock of its machine meanwhile; that is a `Block`, from the read to the
  transaction.  Grants are revoked, customers retired and recoveries begun under no machine lock, so
  their closures may fall between the read of a block and its transaction.

  `Step` is one event of this, and `Action.run` is the transaction as `Service` has it.
-/
import AgentCloud.Access.Locks
import AgentCloud.Access.Signing
import Mathlib.Logic.Function.Basic

namespace AgentCloud.Access.Desk

open Checked

/-! ## Blocks and stages -/

/-- What is done under a machine lock with the session that was read there. -/
inductive Block where
  | prepare
  | reject
  | attempt (address : String)
  | publish (address : String) (result : SignResult)
  | consume (request : ClaimRequest)
  | check (connection : ConnectionId)
  | close (request : ConnectionId) (reason : CloseReason)

/-- How far the issuer of a session is. -/
inductive Stage where
  | prepared
  | located (address : String)
  | attempted (address : String) (marked : Attempt)
  | signed (address : String) (result : SignResult)

structure State where
  store : Store
  clock : Instant
  held : MachineId → Option (Block × Session)
  issuing : AccessSessionId → Option Stage

/-- The block is the issuer's. -/
def Block.issues : Block → Bool
  | .prepare => true
  | .reject => true
  | .attempt _ => true
  | .publish .. => true
  | _ => false

/-- Which block follows on what. -/
def Block.begins (config : ServiceConfig) (session : Session) (stage : Option Stage) : Block → Prop
  | .prepare => stage = none
  | .reject => stage = some .prepared
  | .attempt address => stage = some (.located address)
  | .publish address result => stage = some (.signed address result)
  | .consume request => session.ticketHash = config.hashToken request.ticket
  | .check connection => session.id = connection.sessionId
  | .close request _ => session.id = request.sessionId

/-- The transaction of a block, with the stage that an issuer has reached by it. -/
def Block.run (config : ServiceConfig) (session : Session) (env : Env) (store : Store) :
    Block → Except Fault (Option Stage × Store)
  | .prepare => do
    let (context, store) ← Access.prepare config session env store
    pure (context.map fun _ => .prepared, store)
  | .reject => giveUp env store session .providerRejected
  | .attempt address => do
    let (marked, store) ← Access.attempt config session env store
    pure (marked.map (.attempted address), store)
  | .publish address result => do
    let (_, store) ← Access.publish config address result session env store
    pure (none, store)
  | .consume request => do
    let (_, store) ← Access.consume config request session env store
    pure (none, store)
  | .check connection => do
    let (_, store) ← validation config connection session env store
    pure (none, store)
  | .close request reason => do
    let (_, store) ← closeConnection request reason session env store
    pure (none, store)

/-! ## Transactions -/

inductive Action where
  | admitSession (principal : Principal) (machineId : MachineId) (request : AccessRequest)
      (key : String)
  | under (machineId : MachineId) (block : Block) (session : Session)
  | closeMachineAccess (accountId : AccountId) (machineId : MachineId)
  | insertGrant (grant : Grant)
  | revokeGrant (principal : Principal) (grantId : GrantId)
  | disableCustomer (accountId : AccountId) (anchorId : GrantId)
  | renewCustomer (accountId : AccountId) (anchorId : GrantId) (policy : GrantPolicy)
      (expiresAt : Instant)
  | beginRecovery

namespace Action

/-- The machine lock that it is done under. -/
def machine : Action → Option MachineId
  | .admitSession _ machineId _ _ => some machineId
  | .under machineId _ _ => some machineId
  | .closeMachineAccess _ machineId => some machineId
  | _ => none

def Enabled (s : State) : Action → Prop
  | .admitSession _ machineId _ _ => s.held machineId = none
  | .under machineId block session => s.held machineId = some (block, session)
  | .closeMachineAccess _ machineId => s.held machineId = none
  | _ => True

/-- A transaction that no issuer waits for. -/
def unstaged {α : Type} (t : Except Fault (α × Store)) : Except Fault (Option Stage × Store) := do
  let (_, store) ← t
  pure (none, store)

def run (config : ServiceConfig) (env : Env) (store : Store) :
    Action → Except Fault (Option Stage × Store)
  | .admitSession principal machineId request key =>
    unstaged (Access.admitSession config principal machineId request key env store)
  | .under _ block session => block.run config session env store
  | .closeMachineAccess accountId machineId => do
    let store ← Access.closeMachineAccess env store accountId machineId
    pure (none, store)
  | .insertGrant grant => do
    let grants ← AgentCloud.insertGrant store.grants grant
    pure (none, { store with grants })
  | .revokeGrant principal grantId => unstaged (Access.revokeGrant principal grantId env store)
  | .disableCustomer accountId anchorId =>
    unstaged (Access.disableCustomer accountId anchorId env store)
  | .renewCustomer accountId anchorId policy expiresAt =>
    unstaged (Access.renewCustomer accountId anchorId policy expiresAt env store)
  | .beginRecovery => unstaged (Access.beginRecovery env store)

end Action

namespace State

def hold (s : State) (machineId : MachineId) (block : Block) (session : Session) : State :=
  { s with held := Function.update s.held machineId (some (block, session)) }

def release (s : State) (machineId : MachineId) : State :=
  { s with held := Function.update s.held machineId none }

def stage (s : State) (id : AccessSessionId) (stage : Option Stage) : State :=
  { s with issuing := Function.update s.issuing id stage }

/-- A committed transaction gives its lock back, and takes an issuer on. -/
def settle (s : State) (action : Action) (stage : Option Stage) : State :=
  match action with
  | .under machineId block session =>
    if block.issues then (s.release machineId).stage session.id stage else s.release machineId
  | _ => s

/-- One transaction, run; one that fails changes nothing. -/
def transact (config : ServiceConfig) (s : State) (action : Action) (pass : Pass) : State :=
  match action.run config (pass.env s.clock) s.store with
  | .ok (stage, store) =>
    ({ s with store, clock := (pass.env s.clock).later } : State).settle action stage
  | .error _ => s

end State

/-! ## Events -/

inductive Step (config : ServiceConfig) (signer : SignerConfig) (s : State) : State → Prop where
  | pass (passed : Nat) : Step config signer s { s with clock := s.clock + passed }
  /-- The lock is taken, and the session read. -/
  | read (machineId : MachineId) (block : Block) (session : Session)
      (free : s.held machineId = none) (found : getSession s.store session.id = some session)
      (machine : session.machineId = machineId)
      (begins : block.begins config session (s.issuing session.id)) :
      Step config signer s (s.hold machineId block session)
  | commit (action : Action) (pass : Pass) (stage : Option Stage) (store : Store)
      (enabled : action.Enabled s)
      (ok : action.run config (pass.env s.clock) s.store = .ok (stage, store)) :
      Step config signer s
        (({ s with store, clock := (pass.env s.clock).later } : State).settle action stage)
  /-- The transaction of a block fails, or its worker is gone. -/
  | abort (machineId : MachineId) : Step config signer s (s.release machineId)
  | observe (id : AccessSessionId) (address : String) (here : s.issuing id = some .prepared) :
      Step config signer s (s.stage id (some (.located address)))
  | sign (id : AccessSessionId) (address : String) (marked : Attempt) (response : Response)
      (result : SignResult) (here : s.issuing id = some (.attempted address marked))
      (signed : sign signer response marked.session marked.authority = .ok result) :
      Step config signer s (s.stage id (some (.signed address result)))
  /-- The issuer is gone, or leaves it to a later pass. -/
  | drop (id : AccessSessionId) : Step config signer s (s.stage id none)

abbrev Reach (config : ServiceConfig) (signer : SignerConfig) : State → State → Prop :=
  Relation.ReflTransGen (Step config signer)

theorem reach_transact {config : ServiceConfig} {signer : SignerConfig} {s : State} (action : Action)
    (enabled : action.Enabled s) (pass : Pass) :
    Reach config signer s (s.transact config action pass) := by
  unfold State.transact
  split
  · next stage store hok => exact .single (.commit action pass stage store enabled hok)
  · exact .refl

/-- A service that has admitted nothing. -/
def initial (grants : List Grant) (clock : Instant) : State where
  store := ⟨grants, [], []⟩
  clock := clock
  held _ := none
  issuing _ := none

/-! ## Deadlines -/

/-- What `publish` makes of the signature. -/
def published (config : ServiceConfig) (address : String) (result : SignResult) (session : Session)
    (env : Env) (store : Store) : Issuance :=
  match currentContext config env store session with
  | .ok context => outcome session context address result
  | .error _ => .unavailable .authorizationChanged

end AgentCloud.Access.Desk
