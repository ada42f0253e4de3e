/-
  CUSTOMERS AND THEIR CREDENTIALS: everything that writes a row of the grant table.

  A customer identity has an account and an ANCHOR, a root grant that holds what the operator
  admitted.  Signing in adds a grant below the anchor, a delegation adds one below any grant that
  may delegate, a renewal replaces the anchor by another root.  Rows are never rewritten, except for
  `revoked_at`.

  A row that is computed from what was read before is computed in one action here and inserted in
  the next: with several statements in a transaction, others may commit in between.
-/
import AgentCloud.Grants
import AgentCloud.Lib.Durable

namespace AgentCloud.Delegation

open Checked Durable

abbrev GithubUserId := String

structure Account where
  id : AccountId
  maxMachines : Nat
  currency : String
  maxHourlyMicros : Micros
  deriving DecidableEq, Repr

structure Identity where
  githubUserId : GithubUserId
  accountId : AccountId
  anchorGrantId : GrantId
  deriving DecidableEq, Repr

structure LoginRow where
  id : String
  githubUserId : GithubUserId
  accountId : AccountId
  grantId : GrantId
  tokenHash : String
  createdAt : Instant
  deriving DecidableEq, Repr

structure Store where
  accounts : List Account
  identities : List Identity
  logins : List LoginRow
  grants : List Grant
  deriving DecidableEq, Repr

def getAccount (store : Store) (id : AccountId) : Option Account :=
  Table.get Account.id store.accounts id

def getIdentity (store : Store) (id : GithubUserId) : Option Identity :=
  Table.get Identity.githubUserId store.identities id

def getLogin (store : Store) (id : String) : Option LoginRow :=
  Table.get LoginRow.id store.logins id

/-- The database's clock and the identifiers that a transaction draws. -/
structure Env where
  now : Instant
  freshGrant : GrantId
  freshAccount : AccountId

inductive Call where
  /-- GitHub's answer to a token: who it belongs to. -/
  | verify (token : String)
  deriving DecidableEq, Repr

abbrev Call.Reply : Call → Type
  | .verify _ => Except Fault GithubUserId

abbrev interface : Interface where
  Env := Env
  Store := Store
  Call := Call
  Reply := Call.Reply
  Fault := Fault

abbrev Program := Prog interface

def addGrant (store : Store) (grant : Grant) : Except Fault Store := do
  let grants ← insertGrant store.grants grant
  pure { store with grants }

def lockedAccount (store : Store) (id : AccountId) : Except Fault Account :=
  present (getAccount store id) (cloudError .unauthenticated "Account not found.")

/-- A grant without a parent. -/
def rootGrant (id : GrantId) (accountId : AccountId) (policy : GrantPolicy) (expiresAt : Instant) :
    Grant :=
  { id, accountId, parentId := none, policy, expiresAt, revokedAt := none }

def accountOf (id : AccountId) (policy : GrantPolicy) : Account :=
  ⟨id, policy.maxMachines, policy.currency, policy.maxHourlyMicros⟩

def insertAccount (store : Store) (account : Account) : Except Fault Store := do
  refuse (getAccount store account.id).isSome (.other "accounts_pkey")
  pure { store with accounts := store.accounts ++ [account] }

/-- The root credential of a new installation. -/
def bootstrap (accountId : AccountId) (grantId : GrantId) (policy : GrantPolicy)
    (expiresAt : Instant) : Env → Store → Except Fault (Unit × Store) := fun _ store =>
  if (Grant.lookup store.grants grantId).isSome then pure ((), store)
  else do
    let store ← insertAccount store (accountOf accountId policy)
    let store ← addGrant store (rootGrant grantId accountId policy expiresAt)
    pure ((), store)

def withinNextYear (now expiresAt : Instant) : Except Fault Unit :=
  refuse (expiresAt ≤ now ∨ now + 366 * 86400000 < expiresAt)
    (cloudError .invalidInput "Customer admission expiry must be within the next year.")

def admitCustomer (githubUserId : GithubUserId) (policy : GrantPolicy) (expiresAt : Instant) :
    Env → Store → Except Fault (Unit × Store) := fun env store => do
  refuse (policy.projects ≠ .all)
    (cloudError .invalidInput
      "A new customer account needs all-project authority; delegated credentials can narrow it.")
  refuse (getIdentity store githubUserId).isSome
    (cloudError .idempotencyConflict
      "GitHub identity already has a customer account; inspect it instead of creating another.")
  withinNextYear env.now expiresAt
  let store ← insertAccount store (accountOf env.freshAccount policy)
  let store ← addGrant store (rootGrant env.freshGrant env.freshAccount policy expiresAt)
  pure ((), { store with
    identities := store.identities ++ [⟨githubUserId, env.freshAccount, env.freshGrant⟩] })

/-! ## Signing in -/

structure LoginRequest where
  id : String
  tokenHash : String
  deriving DecidableEq, Repr

/-- Sign-ins of the last day. -/
def recentLogins (store : Store) (accountId : AccountId) (checkedAt : Instant) : Nat :=
  store.logins.countP fun row => row.accountId = accountId ∧ checkedAt < row.createdAt + 86400000

/-- The replay of a sign-in returns its grant. -/
def replayLogin (identity : Identity) (request : LoginRequest) (now : Instant) (store : Store)
    (existing : LoginRow) : Except Fault Unit := do
  refuse (existing.accountId ≠ identity.accountId ∨ existing.githubUserId ≠ identity.githubUserId ∨
      existing.tokenHash ≠ request.tokenHash)
    (cloudError .idempotencyConflict "Login ID belongs to a different credential.")
  let _ ← loadAuthority store.grants now existing.grantId
  pure ()

/-- The transaction of `login` up to its insert; nothing is inserted for a replay. -/
def prepareLogin (identity : Identity) (request : LoginRequest) :
    Env → Store → Except Fault (Option Grant × Store) := fun env store => do
  let _ ← lockedAccount store identity.accountId
  let authority ← loadAuthority store.grants env.now identity.anchorGrantId
  match getLogin store request.id with
  | some existing => do
    replayLogin identity request env.now store existing
    pure (none, store)
  | none => do
    refuse (20 ≤ recentLogins store identity.accountId authority.checkedAt)
      (cloudError .quotaExceeded
        "Customer sign-in limit reached for today. Reuse or revoke existing credentials.")
    let grant ← loginGrant store.grants env.now env.freshGrant identity.accountId
      identity.anchorGrantId
    pure (some grant, store)

def recordLogin (identity : Identity) (request : LoginRequest) (grant : Grant) :
    Env → Store → Except Fault (Unit × Store) := fun env store => do
  let store ← addGrant store grant
  refuse (getLogin store request.id).isSome (.other "customer_logins_pkey")
  pure ((), { store with
    logins := store.logins ++ [⟨request.id, identity.githubUserId, identity.accountId, grant.id,
      request.tokenHash, env.now⟩] })

def finishLogin (identity : Identity) (request : LoginRequest) : Option Grant → Program Unit
  | none => pure ()
  | some grant => Prog.transact (recordLogin identity request grant)

def notAdmitted : Fault :=
  cloudError .permissionDenied
    "This GitHub identity has not been admitted to this cloud. Ask its operator for access."

def signIn (request : LoginRequest) : Option Identity → Program Unit
  | none => Prog.throw notAdmitted
  | some identity => do
    let grant ← Prog.transact (prepareLogin identity request)
    finishLogin identity request grant

def login (token : String) (request : LoginRequest) : Program Unit := do
  let verified ← Prog.ask (S := interface) (.verify token)
  let githubUserId ← Prog.ofExcept (S := interface) verified
  let identity ← Prog.read (S := interface) fun store => getIdentity store githubUserId
  signIn request identity

/-! ## Delegation and revocation -/

def issueGrant (principal : Principal) (policy : GrantPolicy) (expiresAt : Instant) :
    Program Unit := do
  let grant ← Prog.transact (S := interface) fun env store => do
    let grant ← delegatedGrant store.grants env.now env.freshGrant principal.grantId policy expiresAt
    pure (grant, store)
  Prog.transact fun _ store => do
    let store ← addGrant store grant
    pure ((), store)

def revokeGrant (principal : Principal) (grantId : GrantId) :
    Env → Store → Except Fault (Unit × Store) := fun env store => do
  let _ ← lockedAccount store principal.accountId
  let (_, grants) ← revokedGrants store.grants env.now principal.grantId grantId
  pure ((), { store with grants })

def disableCustomer (githubUserId : GithubUserId) : Env → Store → Except Fault (Unit × Store) :=
  fun env store => do
  let identity ← present (getIdentity store githubUserId)
    (cloudError .notFound "Customer identity is not admitted.")
  let _ ← lockedAccount store identity.accountId
  pure ((), { store with grants := retireAnchor store.grants identity.anchorGrantId env.now })

def renewCustomer (githubUserId : GithubUserId) (expectedAnchorGrantId : GrantId)
    (policy : GrantPolicy) (expiresAt : Instant) : Env → Store → Except Fault (Unit × Store) :=
  fun env store => do
  refuse (policy.projects ≠ .all)
    (cloudError .invalidInput "Customer admission requires all-project authority.")
  let identity ← present (getIdentity store githubUserId)
    (cloudError .notFound "Customer identity is not admitted.")
  let account ← lockedAccount store identity.accountId
  refuse (account.currency ≠ policy.currency)
    (cloudError .invalidInput "Admission renewal cannot change the account currency.")
  refuse (identity.anchorGrantId ≠ expectedAnchorGrantId)
    (cloudError .versionConflict
      "Customer admission changed. Inspect its current anchor before renewal.")
  withinNextYear env.now expiresAt
  let store : Store :=
    { store with grants := retireAnchor store.grants expectedAnchorGrantId env.now }
  let store ← addGrant store (rootGrant env.freshGrant identity.accountId policy expiresAt)
  pure ((), { store with
    identities := Table.update Identity.githubUserId store.identities githubUserId fun identity =>
      { identity with anchorGrantId := env.freshGrant }
    accounts := Table.update Account.id store.accounts identity.accountId fun account =>
      accountOf account.id policy })

/-- The grants of a control recovery that begins. -/
def beginRecovery : Env → Store → Except Fault (Unit × Store) := fun env store =>
  .ok ((), { store with grants := revokeAll store.grants env.now })

/-! ## The system -/

/-- Any number of callers, each with any of the programs. -/
inductive Job : Nat → Program Unit → Prop where
  | bootstrap (n : Nat) (accountId : AccountId) (grantId : GrantId) (policy : GrantPolicy)
      (expiresAt : Instant) : Job n (Prog.transact (bootstrap accountId grantId policy expiresAt))
  | admitCustomer (n : Nat) (githubUserId : GithubUserId) (policy : GrantPolicy)
      (expiresAt : Instant) : Job n (Prog.transact (admitCustomer githubUserId policy expiresAt))
  | login (n : Nat) (token : String) (request : LoginRequest) : Job n (login token request)
  | issueGrant (n : Nat) (principal : Principal) (policy : GrantPolicy) (expiresAt : Instant) :
      Job n (issueGrant principal policy expiresAt)
  | revokeGrant (n : Nat) (principal : Principal) (grantId : GrantId) :
      Job n (Prog.transact (revokeGrant principal grantId))
  | disableCustomer (n : Nat) (githubUserId : GithubUserId) :
      Job n (Prog.transact (disableCustomer githubUserId))
  | renewCustomer (n : Nat) (githubUserId : GithubUserId) (expectedAnchorGrantId : GrantId)
      (policy : GrantPolicy) (expiresAt : Instant) :
      Job n (Prog.transact (renewCustomer githubUserId expectedAnchorGrantId policy expiresAt))
  | beginRecovery (n : Nat) : Job n (Prog.transact beginRecovery)

def system : System interface Nat where
  job := Job
  other _ _ := False
  allows _ _ _ := True

end AgentCloud.Delegation
