/-
  THE ACCESS SERVICE UNDER ITS LOCKS AND ITS CLOCK.

  How many sessions hold a slot at an instant depends on two things that `system` leaves open: the
  readings of the database clock, which only advance, and the machine's advisory lock, which one
  holder has at a time.  Here both are explicit.

  * `Board` is the store with the instant last read.  A transaction reads the clock three times,
    each reading at or after the one before (`Pass.env`), and leaves the last one on the board;
    time also passes by itself.
  * A `Holder` is whoever may write: the lock of a machine, which runs one block at a time, or
    anybody, for what takes the account lock alone.

  A program that takes the machine lock several times, such as `issue`, is here the blocks that it
  runs under the lock (`LockedJob`), each with any parameters: whatever it carried from one block
  to the next is a parameter of the next.  So there are more runs here than in the source.  The
  account's row lock makes every transaction below one step.
-/
import AgentCloud.Access.Revocation

namespace AgentCloud.Access

open Checked Durable

/-! ## The board -/

structure Board where
  store : Store
  clock : Instant
  /-- The sessions whose leases were renewed by a check, in the order of evaluation. -/
  renewed : List AccessSessionId

/-- What a transaction meets besides the board, and how long it takes to each of its readings. -/
structure Pass where
  untilNow : Nat
  untilTrigger : Nat
  untilLater : Nat
  rows : Rows
  freshGrant : GrantId
  freshSession : AccessSessionId

/-- The readings of a transaction that begins at `clock`; the machine lock is its own. -/
def Pass.env (pass : Pass) (clock : Instant) : Env where
  now := clock + pass.untilNow
  clock := clock + pass.untilNow + pass.untilTrigger
  later := clock + pass.untilNow + pass.untilTrigger + pass.untilLater
  rows := pass.rows
  machineBusy := false
  freshGrant := pass.freshGrant
  freshSession := pass.freshSession

abbrev boardInterface : Interface where
  Env := Pass
  Store := Board
  Call := Call
  Reply := Call.Reply
  Fault := Fault

/-- A transaction of the service, on the board. -/
def timed {α : Type} (t : Env → Store → Except Fault (α × Store)) (pass : Pass) (board : Board) :
    Except Fault (α × Board) := do
  let env := pass.env board.clock
  let (a, store) ← t env board.store
  pure (a, { board with store, clock := env.later })

/-- A program of the service, on the board. -/
def onBoard {α : Type} : Program α → Prog boardInterface α
  | .done r => .done r
  | .commit t next => .commit (timed t) fun r => onBoard (next r)
  | .call c next => .call c fun r => onBoard (next r)

/-! ## Blocks -/

/-- A block under the machine lock: the session is read, and one transaction acts on it. -/
def underLock {α : Type} (machineId : MachineId) (id : AccessSessionId)
    (t : Session → Env → Store → Except Fault (α × Store)) : Program Unit := do
  let session ← lockedRead id
  -- the lock was taken for the machine of the session, a column that never changes
  Prog.ofExcept (refuse (session.machineId ≠ machineId)
    (cloudError .notFound "Access session not found."))
  (Prog.transact (t session)).ignore

/-- The last transaction of one connection of `check`. -/
def validation (config : ServiceConfig) (connection : ConnectionId) (session : Session)
    (env : Env) (store : Store) : Except Fault (Lease × Store) := do
  let lease ← validConnection config env.rows store.grants env.now session connection
  pure (lease, store)

/-- The same on the board, which keeps what was renewed. -/
def renewal (config : ServiceConfig) (connection : ConnectionId) (session : Session)
    (pass : Pass) (board : Board) : Except Fault (Lease × Board) := do
  let (lease, board) ← timed (validation config connection session) pass board
  pure (lease, { board with renewed := board.renewed ++ [session.id] })

/-- The block of one connection of `check`. -/
def checkBlock (config : ServiceConfig) (machineId : MachineId) (connection : ConnectionId) :
    Prog boardInterface Unit := do
  let session ← onBoard (lockedRead connection.sessionId)
  Prog.ofExcept (S := boardInterface) (refuse (session.machineId ≠ machineId)
    (cloudError .notFound "Access session not found."))
  (Prog.transact (S := boardInterface) (renewal config connection session)).ignore

inductive Holder where
  | machine (machineId : MachineId)
  | anyone (n : Nat)
  deriving DecidableEq, Repr

inductive LockedJob (config : ServiceConfig) : Holder → Prog boardInterface Unit → Prop where
  | admitSession (machineId : MachineId) (principal : Principal) (request : AccessRequest)
      (key : String) :
      LockedJob config (.machine machineId)
        (onBoard (Prog.transact (admitSession config principal machineId request key)).ignore)
  | prepare (machineId : MachineId) (id : AccessSessionId) :
      LockedJob config (.machine machineId) (onBoard (underLock machineId id (prepare config)))
  | reject (machineId : MachineId) (id : AccessSessionId) :
      LockedJob config (.machine machineId)
        (onBoard (underLock machineId id fun session env store =>
          (giveUp env store session .providerRejected : Except Fault (Option Unit × Store))))
  | attempt (machineId : MachineId) (id : AccessSessionId) :
      LockedJob config (.machine machineId) (onBoard (underLock machineId id (attempt config)))
  | publish (machineId : MachineId) (id : AccessSessionId) (address : String)
      (result : SignResult) :
      LockedJob config (.machine machineId)
        (onBoard (underLock machineId id (publish config address result)))
  | consume (machineId : MachineId) (id : AccessSessionId) (request : ClaimRequest) :
      LockedJob config (.machine machineId)
        (onBoard (underLock machineId id (consume config request)))
  | check (machineId : MachineId) (connection : ConnectionId) :
      LockedJob config (.machine machineId) (checkBlock config machineId connection)
  | close (machineId : MachineId) (request : ConnectionId) (reason : CloseReason) :
      LockedJob config (.machine machineId)
        (onBoard (underLock machineId request.sessionId (closeConnection request reason)))
  | closeMachineAccess (machineId : MachineId) (accountId : AccountId) :
      LockedJob config (.machine machineId)
        (onBoard (Prog.transact fun env store => do
          let store ← closeMachineAccess env store accountId machineId
          pure ((), store)))
  | issueGrant (n : Nat) (principal : Principal) (policy : GrantPolicy) (expiresAt : Instant) :
      LockedJob config (.anyone n) (onBoard (issueGrant principal policy expiresAt))
  | login (n : Nat) (accountId : AccountId) (anchorId : GrantId) :
      LockedJob config (.anyone n) (onBoard (login accountId anchorId))
  | insertRoot (n : Nat) (accountId : AccountId) (policy : GrantPolicy) (expiresAt : Instant) :
      LockedJob config (.anyone n)
        (onBoard (Prog.transact (insertRoot accountId policy expiresAt)))
  | revokeGrant (n : Nat) (principal : Principal) (grantId : GrantId) :
      LockedJob config (.anyone n)
        (onBoard (Prog.transact (revokeGrant principal grantId)))
  | disableCustomer (n : Nat) (accountId : AccountId) (anchorId : GrantId) :
      LockedJob config (.anyone n)
        (onBoard (Prog.transact (disableCustomer accountId anchorId)))
  | renewCustomer (n : Nat) (accountId : AccountId) (anchorId : GrantId) (policy : GrantPolicy)
      (expiresAt : Instant) :
      LockedJob config (.anyone n)
        (onBoard (Prog.transact (renewCustomer accountId anchorId policy expiresAt)))
  | beginRecovery (n : Nat) :
      LockedJob config (.anyone n) (onBoard (Prog.transact beginRecovery))

/-- The service under its locks: any replies, and besides the workers only time passes. -/
def lockedSystem (config : ServiceConfig) : System boardInterface Holder where
  job := LockedJob config
  other w w' := ∃ passed, w' = w.put { w.store with clock := w.store.clock + passed }
  allows _ _ _ := True

/-- The blocks are the service's own: a check of one connection is its read, and its block. -/
theorem checkOne_eq (config : ServiceConfig) (connection : ConnectionId) :
    checkOne config connection =
      Prog.tryCatch
        (do
          let _ ← readSession connection.sessionId
          let session ← lockedRead connection.sessionId
          let lease ← Prog.transact (validation config connection session)
          pure (some lease))
        fun fault =>
          match fault with
          | .cloud _ => pure none
          | fault => Prog.throw fault := rfl

theorem onBoard_bind {α β : Type} (p : Program α) (f : α → Program β) :
    onBoard (p.bind f) = (onBoard p).bind fun a => onBoard (f a) := by
  induction p with
  | done r => cases r <;> rfl
  | commit t next ih => simp only [Prog.bind, onBoard, ih]
  | call c next ih => simp only [Prog.bind, onBoard, ih]

theorem timed_ok {α : Type} {t : Env → Store → Except Fault (α × Store)} {pass : Pass}
    {board board' : Board} {a : α} (h : timed t pass board = .ok (a, board')) :
    ∃ store, t (pass.env board.clock) board.store = .ok (a, store) ∧
      board' = { board with store, clock := (pass.env board.clock).later } := by
  simp only [timed, bind_ok_iff, pure_ok_iff, Prod.mk.injEq, Prod.exists] at h
  obtain ⟨_, store, hok, rfl, rfl⟩ := h
  exact ⟨store, hok, rfl⟩

end AgentCloud.Access
