/-
  THE ACCESS SERVICE: admit, issue, claim, check and close, and the revocations around them.

  Each is a program over one store: the grants, the sessions and the receipts of signing attempts.
  A database transaction is one action; a call to the network check, to the provider or to the
  signer is another; the worker may die between any two.  Where a transaction first reads the
  session and only then takes the account lock, the read is an action of its own, because a
  closure (which holds the account lock and no other) may commit in between.

  The machine lock that the service also takes is not relied upon: here it only shows as the
  refusal `Machine is busy.`, so the programs below interleave more freely than the source's.
-/
import AgentCloud.Access.Target
import AgentCloud.Lib.Durable

namespace AgentCloud.Access

open Checked Durable

/-! ## The store -/

structure SigningAttempt where
  sessionId : AccessSessionId
  attemptedAt : Instant
  deriving DecidableEq, Repr

structure Store where
  grants : List Grant
  sessions : List Session
  signingAttempts : List SigningAttempt
  deriving DecidableEq, Repr

/-- What a transaction reads besides the store: the database clock (`now`), the same clock read
    again later in the transaction, the trigger's clock, the rows of the other tables, fresh
    identifiers, and whether the machine lock was taken by somebody else. -/
structure Env where
  now : Instant
  later : Instant
  clock : Instant
  rows : Rows
  machineBusy : Bool
  freshGrant : GrantId
  freshSession : AccessSessionId

inductive SignResult where
  | issued (certificate : String) (expiresAt : Instant)
  | unknown
  | rejected
  | failed
  deriving DecidableEq, Repr

inductive Call where
  | checkNetwork
  | observeGuest (allocationId : AllocationId)
  | openSigner
  | sign (session : Session) (authority : Authority)
  deriving DecidableEq, Repr

/-- Replies; a thrown error is one of them.  `observeGuest` replies with the address. -/
abbrev Call.Reply : Call → Type
  | .checkNetwork => Except Fault Unit
  | .observeGuest _ => Except Fault String
  | .openSigner => Except Fault Unit
  | .sign .. => Except Fault SignResult

abbrev interface : Interface where
  Env := Env
  Store := Store
  Call := Call
  Reply := Call.Reply
  Fault := Fault

abbrev Program := Prog interface

def getSession (store : Store) (id : AccessSessionId) : Option Session :=
  Table.get Session.id store.sessions id

/-! ## Guarded writes -/

/-- The trigger on every row an update touches. -/
def guardEach (clock : Instant) (selects : Session → Bool) (f : Session → Session) :
    List Session → Except Fault Unit
  | [] => .ok ()
  | row :: rows =>
    if selects row then do
      guardAccessSession row (f row) clock
      guardEach clock selects f rows
    else guardEach clock selects f rows

/-- The receipt that `record_access_signing_attempt` writes for one updated row. -/
def receiptOf (old new : Session) : Option SigningAttempt :=
  match old.issuance, new.issuance with
  | .pending, .attempted attemptedAt => some ⟨old.id, attemptedAt⟩
  | _, _ => none

/-- `UPDATE access_sessions SET ... WHERE ...`, with the guard and the receipts. -/
def updateSessions (clock : Instant) (selects : Session → Bool) (f : Session → Session)
    (store : Store) : Except Fault Store := do
  guardEach clock selects f store.sessions
  let receipts := (store.sessions.filter selects).filterMap fun row => receiptOf row (f row)
  refuse (∃ receipt ∈ receipts, ∃ old ∈ store.signingAttempts, old.sessionId = receipt.sessionId)
    (violation "access_signing_attempts_pkey")
  pure
    { store with
      sessions := store.sessions.map fun row => if selects row then f row else row
      signingAttempts := store.signingAttempts ++ receipts }

def setIssuance (env : Env) (store : Store) (id : AccessSessionId) (issuance : Issuance) :
    Except Fault Store :=
  updateSessions env.clock (fun row => row.id = id) (fun row => { row with issuance }) store

def setConnection (env : Env) (store : Store) (id : AccessSessionId) (connection : Connection) :
    Except Fault Store :=
  updateSessions env.clock (fun row => row.id = id) (fun row => { row with connection }) store

/-- `close` of access-closure.ts: every open session of the selection, keeping its claim. -/
def closeSelected (env : Env) (store : Store) (accountId : AccountId) (selects : Session → Bool)
    (reason : CloseReason) : Except Fault Store :=
  updateSessions env.clock
    (fun row => row.accountId = accountId ∧ row.connection.isClosed = false ∧ selects row = true)
    (fun row => { row with connection := .closed row.connection.claim? reason env.now }) store

def closeGrantAccess (env : Env) (store : Store) (accountId : AccountId) (grantId : GrantId) :
    Except Fault Store :=
  let roots := (store.grants.filter fun row => row.id = grantId ∧ row.accountId = accountId).map
    Grant.id
  let grantIds := subtree store.grants accountId 32 roots
  closeSelected env store accountId (fun row => grantIds.contains row.grantId) .authorizationChanged

def closeMachineAccess (env : Env) (store : Store) (accountId : AccountId) (machineId : MachineId) :
    Except Fault Store :=
  closeSelected env store accountId (fun row => row.machineId = machineId) .targetChanged

/-! ## Grants -/

/-- `issueGrant`: its checks, and its insert.  The account lock makes the two one transaction;
    nothing below needs that. -/
def issueGrant (principal : Principal) (policy : GrantPolicy) (expiresAt : Instant) :
    Program Unit := do
  let grant ← Prog.transact fun env store => do
    let grant ← delegatedGrant store.grants env.now env.freshGrant principal.grantId policy expiresAt
    pure (grant, store)
  Prog.transact fun _ store => do
    let grants ← insertGrant store.grants grant
    pure ((), { store with grants })

/-- `login`, for an identity whose anchor is `anchorId`. -/
def login (accountId : AccountId) (anchorId : GrantId) : Program Unit := do
  let grant ← Prog.transact fun env store => do
    lockAccount env.rows.accounts accountId
    let grant ← loginGrant store.grants env.now env.freshGrant accountId anchorId
    pure (grant, store)
  Prog.transact fun _ store => do
    let grants ← insertGrant store.grants grant
    pure ((), { store with grants })

/-- `insert(grants)` of a root: bootstrap, admission and renewal of a customer. -/
def insertRoot (accountId : AccountId) (policy : GrantPolicy) (expiresAt : Instant) :
    Env → Store → Except Fault (Unit × Store) := fun env store => do
  let grants ← insertGrant store.grants
    { id := env.freshGrant, accountId, parentId := none, policy, expiresAt, revokedAt := none }
  pure ((), { store with grants })

/-- The transaction of `DELETE /v1/grants/:grantId`. -/
def revokeGrant (principal : Principal) (grantId : GrantId) :
    Env → Store → Except Fault (Unit × Store) := fun env store => do
  lockAccount env.rows.accounts principal.accountId
  let (accountId, grants) ← revokedGrants store.grants env.now principal.grantId grantId
  let store ← closeGrantAccess env { store with grants } accountId grantId
  pure ((), store)

/-- An anchor is revoked once, with every session below it. -/
def retireCustomer (env : Env) (store : Store) (accountId : AccountId) (anchorId : GrantId) :
    Except Fault Store :=
  closeGrantAccess env { store with grants := retireAnchor store.grants anchorId env.now }
    accountId anchorId

def disableCustomer (accountId : AccountId) (anchorId : GrantId) :
    Env → Store → Except Fault (Unit × Store) := fun env store => do
  lockAccount env.rows.accounts accountId
  let store ← retireCustomer env store accountId anchorId
  pure ((), store)

def renewCustomer (accountId : AccountId) (anchorId : GrantId) (policy : GrantPolicy)
    (expiresAt : Instant) : Env → Store → Except Fault (Unit × Store) := fun env store => do
  lockAccount env.rows.accounts accountId
  refuse (expiresAt ≤ env.now ∨ env.now + 366 * 86400000 < expiresAt)
    (cloudError .invalidInput "Customer admission expiry must be within the next year.")
  let store ← retireCustomer env store accountId anchorId
  insertRoot accountId policy expiresAt env store

/-- The grants and sessions of a control recovery that begins. -/
def beginRecovery : Env → Store → Except Fault (Unit × Store) := fun env store => do
  let store ← updateSessions env.clock (fun row => row.connection.isClosed = false)
    (fun row =>
      { row with connection := .closed row.connection.claim? .authorizationChanged env.now })
    { store with grants := revokeAll store.grants env.now }
  pure ((), store)

/-! ## Admission -/

structure AccessRequest where
  publicKey : String
  ticketHash : String
  deriving DecidableEq, Repr

/-- The JSON text that is hashed to the fingerprint of a request. -/
def fingerprint (config : ServiceConfig) (machineId : MachineId) (request : AccessRequest) :
    String :=
  config.hashToken ("\x7b\"machineId\":\"" ++ machineId ++ "\",\"publicKey\":\"" ++ request.publicKey ++
    "\",\"ticketHash\":\"" ++ request.ticketHash ++ "\"\x7d")

/-- Until when an open session counts as a reservation. -/
def reservedUntil (session : Session) : Instant :=
  match session.connection, session.issuance with
  | .claimed _, _ => session.hardDeadline
  | _, .issued credential => credential.ticketDeadline
  | _, _ => session.issueDeadline

def isRecent (now : Instant) (session : Session) : Bool := now < session.admittedAt + 300000

def isReserved (now : Instant) (session : Session) : Bool :=
  ¬ session.connection.isClosed ∧ now < reservedUntil session

/-- The rate and reservation limits of one account and one grant. -/
def assertAdmissible (sessions : List Session) (now : Instant) (principal : Principal) :
    Except Fault Unit := do
  let counted := sessions.filter fun row =>
    row.accountId = principal.accountId ∧ (isRecent now row ∨ now < row.hardDeadline)
  let granted := counted.filter (·.grantId = principal.grantId)
  refuse (60 ≤ counted.countP (isRecent now) ∨ 30 ≤ granted.countP (isRecent now))
    (retryableError .quotaExceeded
      "SSH session rate reached: 30 per grant or 60 per account in five minutes. Wait for the rolling window before retrying.")
  refuse (20 ≤ counted.countP (isReserved now) ∨ 4 ≤ granted.countP (isReserved now))
    (retryableError .quotaExceeded
      "SSH concurrent reservation limit reached: 4 per grant or 20 per account. Close active sessions or wait for unused reservations to expire.")

/-- The request was admitted before: the same session answers it. -/
def repeatAdmission (config : ServiceConfig) (authority : Authority) (session : Session)
    (machineId : MachineId) (request : AccessRequest) : Except Fault Session := do
  authorize authority.principal .machineExec (some session.projectId)
  refuse (session.fingerprint ≠ fingerprint config machineId request)
    (cloudError .idempotencyConflict "Request key already belongs to different access.")
  pure session

/-- A new request: the session row, inserted. -/
def newAdmission (config : ServiceConfig) (env : Env) (store : Store) (principal : Principal)
    (machineId : MachineId) (request : AccessRequest) (key : String) :
    Except Fault (Session × Store) := do
  let context ← current config env.rows store.grants env.now
    ⟨principal.accountId, principal.grantId, machineId⟩
  let now := context.authority.checkedAt
  let hardDeadline := min (now + 3600000) context.authority.expiresAt
  refuse (hardDeadline < now + 10000)
    (cloudError .permissionDenied "SSH requires at least ten seconds of remaining authority.")
  assertAdmissible store.sessions now principal
  let session : Session :=
    { id := env.freshSession
      accountId := principal.accountId
      projectId := context.machine.projectId
      grantId := principal.grantId
      machineId
      allocationId := context.spec.allocationId
      machineVersion := context.machine.version
      requestKey := key
      fingerprint := fingerprint config machineId request
      publicKey := request.publicKey
      ticketHash := request.ticketHash
      identityPin := context.pin
      gateway := config.gateway
      admittedAt := now
      issueDeadline := now + 90000
      hardDeadline
      issuance := .pending
      connection := .unclaimed }
  refuse (∃ row ∈ store.sessions, row.ticketHash = request.ticketHash)
    (cloudError .idempotencyConflict "Transport ticket already belongs to another session.")
  refuse (getSession store session.id).isSome (violation "access_sessions_pkey")
  guardAdmission session env.clock
  pure (session, { store with sessions := store.sessions ++ [session] })

/-- `admit`. -/
def admitSession (config : ServiceConfig) (principal : Principal) (machineId : MachineId)
    (request : AccessRequest) (key : String) : Env → Store → Except Fault (Session × Store) :=
  fun env store => do
    refuse env.machineBusy (retryableError .resourceBusy "Machine is busy.")
    lockAccount env.rows.accounts principal.accountId
    let authority ← loadAuthority store.grants env.now principal.grantId
    match store.sessions.find? fun row =>
        row.accountId = principal.accountId ∧ row.grantId = principal.grantId ∧
          row.requestKey = key with
    | some session => do
      let session ← repeatAdmission config authority session machineId request
      pure (session, store)
    | none => newAdmission config env store principal machineId request key

/-! ## Issuance -/

/-- `readSession` outside a transaction. -/
def readSession (id : AccessSessionId) : Program Session :=
  Prog.transact fun _ store => do
    let session ← present (getSession store id)
      (cloudError .notFound "Access session not found.")
    pure (session, store)

/-- The beginning of a `locked` transaction: the machine lock, and `readSession`. -/
def lockedRead (id : AccessSessionId) : Program Session :=
  Prog.transact fun env store => do
    refuse env.machineBusy (retryableError .resourceBusy "Machine is busy.")
    let session ← present (getSession store id)
      (cloudError .notFound "Access session not found.")
    pure (session, store)

def Issuance.isOpen : Issuance → Bool
  | .pending => true
  | .attempted _ => true
  | _ => false

/-- `try ... catch (error) { if (!(error instanceof CloudError)) throw error; ... }`. -/
def caught {α : Type} : Except Fault α → Except Fault (Except Failure α)
  | .ok a => .ok (.ok a)
  | .error (.cloud failure) => .ok (.error failure)
  | .error fault => .error fault

/-- `setIssuance(...); return null;`. -/
def giveUp {α : Type} (env : Env) (store : Store) (session : Session) (reason : UnavailableReason) :
    Except Fault (Option α × Store) := do
  let store ← setIssuance env store session.id (.unavailable reason)
  pure (none, store)

def unclaimedContext (config : ServiceConfig) (env : Env) (store : Store) (session : Session) :
    Except Fault Context := do
  let context ← current config env.rows store.grants env.now (sessionScope session)
  unchanged config session context
  refuse (session.connection ≠ .unclaimed) (cloudError .permissionDenied "Access closed.")
  pure context

/-- The second half of `prepare`, once the session is read. -/
def prepare (config : ServiceConfig) (session : Session) (env : Env) (store : Store) :
    Except Fault (Option Context × Store) :=
  match session.issuance with
  | .attempted _ => giveUp env store session .signingUnknown
  | .pending =>
    if session.deadline ≤ env.now then giveUp env store session .deadlineExceeded
    else do
      match ← caught (unclaimedContext config env store session) with
      | .ok context => pure (some context, store)
      | .error failure =>
        giveUp env store session
          (if failure.code = .unauthenticated then .authorizationChanged else .targetChanged)
  | _ => pure (none, store)

/-- `checkNetwork` and `observeGuest`, with the handler of the two. -/
def observeAddress (id : AccessSessionId) (context : Context) : Program (Option String) :=
  Prog.tryCatch
    (do
      let network ← Prog.ask (S := interface) .checkNetwork
      Prog.ofExcept network
      let observed ← Prog.ask (S := interface) (.observeGuest context.allocation.id)
      let address ← Prog.ofExcept observed
      pure (some address))
    fun fault =>
      match fault with
      | .cloud ⟨_, _, true⟩ => pure none
      | _ => do
        let session ← lockedRead id
        Prog.transact fun env store => giveUp env store session .providerRejected

structure Attempt where
  session : Session
  authority : Authority

def currentContext (config : ServiceConfig) (env : Env) (store : Store) (session : Session) :
    Except Fault Context := do
  let context ← current config env.rows store.grants env.now (sessionScope session)
  unchanged config session context
  pure context

/-- The transaction that commits the attempted mark. -/
def attempt (config : ServiceConfig) (session : Session) (env : Env) (store : Store) :
    Except Fault (Option Attempt × Store) := do
  match ← caught (currentContext config env store session) with
  | .error _ => giveUp env store session .authorizationChanged
  | .ok context =>
    if session.connection ≠ .unclaimed ∨ session.issuance ≠ .pending then pure (none, store)
    else if session.deadline ≤ context.authority.checkedAt then
      giveUp env store session .deadlineExceeded
    else do
      let issuance : Issuance := .attempted context.authority.checkedAt
      let store ← setIssuance env store session.id issuance
      pure (some ⟨{ session with issuance }, context.authority⟩, store)

/-- What the store keeps of a signature that was reported as failed. -/
def signFailure : SignResult → UnavailableReason
  | .unknown => .signingUnknown
  | .rejected => .providerRejected
  | _ => .signingFailed

/-- The outcome of a signature under a context that still holds. -/
def outcome (session : Session) (context : Context) (address : String) (result : SignResult) :
    Issuance :=
  let now := context.authority.checkedAt
  let deadline := min session.deadline context.authority.expiresAt
  if deadline ≤ now ∨ session.connection ≠ .unclaimed then .unavailable .deadlineExceeded
  else match result with
    | .issued certificate expiresAt =>
      if expiresAt ≤ now then .unavailable .deadlineExceeded
      else .issued
        { certificate
          issuedAt := now
          ticketDeadline := min (now + 60000) deadline
          certificateExpiresAt := expiresAt
          target := ⟨session.identityPin, address, 22⟩ }
    | result => .unavailable (signFailure result)

/-- The transaction that records the signature's outcome. -/
def publish (config : ServiceConfig) (address : String) (result : SignResult) (session : Session)
    (env : Env) (store : Store) : Except Fault (Unit × Store) :=
  match session.issuance with
  | .attempted _ => do
    match ← caught (currentContext config env store session) with
    | .error _ => do
      let store ← setIssuance env store session.id (.unavailable .authorizationChanged)
      pure ((), store)
    | .ok context => do
      let store ← setIssuance env store session.id (outcome session context address result)
      pure ((), store)
  | _ => pure ((), store)

/-- From the attempted mark on: the one signature, and its record. -/
def signAndPublish (config : ServiceConfig) (id : AccessSessionId) (address : String)
    (marked : Attempt) : Program Unit := do
  let signer ← Prog.ask (S := interface) .openSigner
  Prog.ofExcept signer
  let reply ← Prog.ask (S := interface) (.sign marked.session marked.authority)
  let result ← Prog.ofExcept reply
  let session ← lockedRead id
  Prog.transact (publish config address result session)

def attemptAndSign (config : ServiceConfig) (id : AccessSessionId) (address : String) :
    Program Unit := do
  let session ← lockedRead id
  let marked ← Prog.transact (attempt config session)
  match marked with
  | none => pure ()
  | some marked => signAndPublish config id address marked

/-- `issue`, by whoever holds the lock of the session. -/
def issue (config : ServiceConfig) (id : AccessSessionId) : Program Unit := do
  let session ← readSession id
  if session.issuance.isOpen then
    let session ← lockedRead id
    let context ← Prog.transact (prepare config session)
    match context with
    | none => pure ()
    | some context => do
      let address ← observeAddress id context
      match address with
      | none => pure ()
      | some address => attemptAndSign config id address
  else pure ()

/-! ## Claim, check and close -/

structure ConnectionId where
  sessionId : AccessSessionId
  gatewayInstanceId : String
  connectionId : String
  deriving DecidableEq, Repr

structure Lease where
  sessionId : AccessSessionId
  connectionId : String
  remainingMs : Nat
  target : OwnedSshTarget
  deriving DecidableEq, Repr

/-- The target of a session whose issued ticket is claimed by exactly this connection. -/
def leasedTarget (session : Session) (claim : ConnectionId) : Option OwnedSshTarget :=
  match session.issuance, session.connection with
  | .issued credential, .claimed held =>
    if held.gatewayInstanceId = claim.gatewayInstanceId ∧ held.connectionId = claim.connectionId
    then some credential.target else none
  | _, _ => none

def validConnection (config : ServiceConfig) (rows : Rows) (grants : List Grant) (now : Instant)
    (session : Session) (claim : ConnectionId) : Except Fault Lease := do
  let context ← current config rows grants now (sessionScope session)
  unchanged config session context
  let target ← present (leasedTarget session claim)
    (cloudError .permissionDenied "Access connection is not current.")
  let remaining := min session.hardDeadline context.authority.expiresAt
  refuse (remaining ≤ context.authority.checkedAt)
    (cloudError .unauthenticated "Access expired.")
  pure ⟨session.id, claim.connectionId, remaining - context.authority.checkedAt, target⟩

structure ClaimRequest where
  ticket : String
  gatewayInstanceId : String
  connectionId : String
  deriving DecidableEq, Repr

/-- The ticket can be claimed at `now`. -/
def claimable (session : Session) (now : Instant) : Prop :=
  session.connection = .unclaimed ∧ ∃ credential, session.issuance = .issued credential ∧
    now < min (min credential.ticketDeadline credential.certificateExpiresAt) session.hardDeadline

instance (session : Session) (now : Instant) : Decidable (claimable session now) :=
  match h : session.issuance with
  | .issued credential =>
    decidable_of_iff (session.connection = .unclaimed ∧ now < min (min credential.ticketDeadline
      credential.certificateExpiresAt) session.hardDeadline) (by simp [claimable, h])
  | .pending => isFalse (by simp [claimable, h])
  | .attempted _ => isFalse (by simp [claimable, h])
  | .unavailable _ => isFalse (by simp [claimable, h])

/-- The transaction that consumes the ticket. -/
def consume (config : ServiceConfig) (request : ClaimRequest) (session : Session) (env : Env)
    (store : Store) : Except Fault (Lease × Store) := do
  let context ← currentContext config env store session
  let now := context.authority.checkedAt
  refuse (¬ claimable session now)
    (cloudError .unauthenticated "Transport ticket is expired or consumed.")
  let connection : Connection := .claimed ⟨request.gatewayInstanceId, request.connectionId, now⟩
  let store ← setConnection env store session.id connection
  let lease ← validConnection config env.rows store.grants env.later { session with connection }
    ⟨session.id, request.gatewayInstanceId, request.connectionId⟩
  pure (lease, store)

/-- The address of an issued session's target. -/
def issuedAddress (session : Session) : Option String :=
  match session.issuance with
  | .issued credential => some credential.target.address
  | _ => none

/-- `claim`. -/
def claim (config : ServiceConfig) (request : ClaimRequest) : Program Lease := do
  let original ← Prog.transact fun _ store => do
    let row ← present
      (store.sessions.find? fun row => row.ticketHash = config.hashToken request.ticket)
      (cloudError .unauthenticated "Transport ticket is invalid.")
    pure (row, store)
  let observedContext ← Prog.transact fun env store => do
    refuse env.machineBusy (retryableError .resourceBusy "Machine is busy.")
    let context ← currentContext config env store original
    pure (context, store)
  let network ← Prog.ask (S := interface) .checkNetwork
  Prog.ofExcept network
  let observed ← Prog.ask (S := interface) (.observeGuest observedContext.allocation.id)
  let address ← Prog.ofExcept observed
  Prog.ofExcept (refuse (issuedAddress original ≠ some address)
    (cloudError .permissionDenied "Access target address changed."))
  let session ← lockedRead original.id
  Prog.transact (consume config request session)

/-- One connection of `check`: its lease, or nothing. -/
def checkOne (config : ServiceConfig) (connection : ConnectionId) : Program (Option Lease) :=
  Prog.tryCatch
    (do
      let _ ← readSession connection.sessionId
      let session ← lockedRead connection.sessionId
      let lease ← Prog.transact fun env store => do
        let lease ← validConnection config env.rows store.grants env.now session connection
        pure (lease, store)
      pure (some lease))
    fun fault =>
      match fault with
      -- Omission denies this exact connection; a failure elsewhere cannot renew any lease.
      | .cloud _ => pure none
      | fault => Prog.throw fault

/-- `check`. -/
def check (config : ServiceConfig) : List ConnectionId → Program (List Lease)
  | [] => pure []
  | connection :: connections => do
    let lease ← checkOne config connection
    let leases ← check config connections
    pure (lease.toList ++ leases)

/-- The transaction of `close`; `readSession` runs after the account lock here. -/
def closeConnection (request : ConnectionId) (reason : CloseReason) (session : Session)
    (env : Env) (store : Store) : Except Fault (Unit × Store) := do
  refuse env.machineBusy (retryableError .resourceBusy "Machine is busy.")
  lockAccount env.rows.accounts session.accountId
  let latest ← present (getSession store session.id)
    (cloudError .notFound "Access session not found.")
  let prior ← present latest.connection.claim?
    (cloudError .notFound "Access connection not found.")
  refuse (prior.connectionId ≠ request.connectionId ∨
      prior.gatewayInstanceId ≠ request.gatewayInstanceId)
    (cloudError .notFound "Access connection not found.")
  if latest.connection.isClosed then pure ((), store)
  else do
    let store ← setConnection env store latest.id (.closed (some prior) reason env.now)
    pure ((), store)

/-- `close`. -/
def close (config : ServiceConfig) (request : ConnectionId) (reason : CloseReason) :
    Program Unit := do
  let session ← readSession request.sessionId
  Prog.ofExcept (refuse (session.gateway.id ≠ config.gateway.id)
    (cloudError .notFound "Access session not found."))
  Prog.transact (closeConnection request reason session)

end AgentCloud.Access
