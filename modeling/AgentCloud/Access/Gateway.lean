/-
  THE ACCESS GATEWAY: the connections of one gateway process, and the leases that keep them open.

  The gateway has a monotone clock of its own.  A lease says how many milliseconds are left, and it
  is counted from the moment the request for it was sent, so the gateway's deadline is never later
  than the one the control plane had in mind, however long the reply took (`Honest`).  An upgrade
  claims its ticket, checks it once more, connects to the target and becomes a live connection; from
  then on a heartbeat checks all live connections in batches of a hundred, one round at a time.

  Each handler below is one turn of the event loop.  A turn of the clock (`pass`) never goes beyond
  an armed timer, which then fires: that is what `setTimeout` is relied upon for.  Sockets may be
  closed, and requests may fail, at any time.
-/
import AgentCloud.Access.Service

namespace AgentCloud.Access.Gateway

open Checked

/-! ## Connections -/

/-- A check whose reply had a lease for the connection. -/
structure Check where
  started : Instant
  remainingMs : Nat
  deriving DecidableEq, Repr

/-- A live connection; `checked` is its last successful check, which only the theorems read. -/
structure Live where
  identity : ConnectionId
  hardDeadline : Instant
  deadlineTimer : Instant
  checked : Check
  deriving DecidableEq, Repr

inductive Phase where
  | claiming (claimStarted : Instant)
  | checking (sessionId : AccessSessionId) (hardDeadline checkStarted : Instant)
  | connecting (sessionId : AccessSessionId) (hardDeadline checkStarted : Instant)
      (remainingMs : Nat)
  deriving DecidableEq, Repr

/-- A request that is being upgraded. -/
structure Upgrade where
  connectionId : String
  phase : Phase
  deriving DecidableEq, Repr

/-- A round of checks: when it started, and the connections that are still to be checked. -/
structure Heartbeat where
  started : Instant
  rest : List ConnectionId
  deriving DecidableEq, Repr

structure State where
  now : Instant
  upgrades : List Upgrade
  connections : List Live
  checking : Option Heartbeat
  /-- What was reported to the control plane. -/
  closes : List (ConnectionId × CloseReason)
  deriving DecidableEq, Repr

structure GatewayConfig where
  gatewayInstanceId : String
  maximumConnections : Nat

/-! ## Handlers -/

/-- `refresh`: the deadline of a connection after a check that was started at `started`. -/
def refresh (now : Instant) (remaining : Nat) (started : Instant) (identity : ConnectionId)
    (hardDeadline : Instant) : Except CloseReason Live :=
  let hardDeadline := min hardDeadline (started + remaining)
  let deadline := min hardDeadline (started + 15000)
  if deadline ≤ now then .error .expired
  else .ok ⟨identity, hardDeadline, deadline, ⟨started, remaining⟩⟩

/-- `leases.get(connectionId)` of a reply: the last one of that name, for this session. -/
def leaseOf (leases : List Lease) (identity : ConnectionId) : Option Lease :=
  (leases.reverse.find? fun lease => lease.connectionId = identity.connectionId).filter
    fun lease => lease.sessionId = identity.sessionId

/-- What a reply to a batch does to one connection. -/
def beatOne (now started : Instant) (batch : List ConnectionId) (leases : List Lease) (c : Live) :
    Except CloseReason Live :=
  if c.identity ∈ batch then
    match leaseOf leases c.identity with
    | none => .error .authorizationChanged
    | some lease => refresh now lease.remainingMs started c.identity c.hardDeadline
  else .ok c

namespace State

/-- `stop(reason)`. -/
def stop (s : State) (c : Live) (reason : CloseReason) : State :=
  { s with
    connections := s.connections.filter fun other =>
      other.identity.connectionId ≠ c.identity.connectionId
    closes := s.closes ++ [(c.identity, reason)] }

/-- The upgrade ends, and is reported if the control plane knows of it. -/
def abandon (s : State) (u : Upgrade) (report : Option (ConnectionId × CloseReason)) : State :=
  { s with
    upgrades := s.upgrades.filter fun other => other.connectionId ≠ u.connectionId
    closes := s.closes ++ report.toList }

def enter (s : State) (u : Upgrade) (phase : Phase) : State :=
  { s with upgrades := Table.update Upgrade.connectionId s.upgrades u.connectionId fun u =>
      { u with phase } }

/-- The reply to `claim`. -/
def onClaim (config : GatewayConfig) (s : State) (u : Upgrade) (claimStarted : Instant)
    (lease : Lease) (socketClosed : Bool) : State :=
  if socketClosed then
    s.abandon u (some (⟨lease.sessionId, config.gatewayInstanceId, u.connectionId⟩, .clientClosed))
  else s.enter u (.checking lease.sessionId (claimStarted + lease.remainingMs) s.now)

/-- The reply to the `check` of an upgrade. -/
def onCheck (config : GatewayConfig) (s : State) (u : Upgrade) (sessionId : AccessSessionId)
    (hardDeadline checkStarted : Instant) (leases : List Lease) (socketClosed : Bool) : State :=
  let identity : ConnectionId := ⟨sessionId, config.gatewayInstanceId, u.connectionId⟩
  match leases.find? fun lease =>
      lease.sessionId = sessionId ∧ lease.connectionId = u.connectionId with
  | none => s.abandon u (some (identity, .authorizationChanged))
  | some current =>
    let hardDeadline := min hardDeadline (checkStarted + current.remainingMs)
    if min hardDeadline (checkStarted + 15000) ≤ s.now ∨ socketClosed = true then
      s.abandon u (some (identity, .expired))
    else s.enter u (.connecting sessionId hardDeadline checkStarted current.remainingMs)

/-- The target is connected and the socket upgraded. -/
def onConnect (config : GatewayConfig) (s : State) (u : Upgrade) (sessionId : AccessSessionId)
    (hardDeadline checkStarted : Instant) (remainingMs : Nat) (socketClosed : Bool) : State :=
  let identity : ConnectionId := ⟨sessionId, config.gatewayInstanceId, u.connectionId⟩
  if socketClosed then s.abandon u (some (identity, .clientClosed))
  else
    match refresh s.now remainingMs checkStarted identity hardDeadline with
    | .error reason => s.abandon u (some (identity, reason))
    | .ok c => { s.abandon u none with connections := s.connections ++ [c] }

/-- The interval of the heartbeat. -/
def onHeartbeat (s : State) : State :=
  if s.checking.isSome ∨ s.connections = [] then s
  else { s with checking := some ⟨s.now, s.connections.map Live.identity⟩ }

/-- The reply to the next batch of the round. -/
def onBeat (s : State) (h : Heartbeat) (leases : List Lease) : State :=
  let batch := h.rest.take 100
  let rest := h.rest.drop 100
  { s with
    connections := s.connections.filterMap fun c => (beatOne s.now h.started batch leases c).toOption
    checking := if rest = [] then none else some { h with rest }
    closes := s.closes ++ s.connections.filterMap fun c =>
      match beatOne s.now h.started batch leases c with
      | .ok _ => none
      | .error reason => some (c.identity, reason) }

end State

/-! ## Turns of the event loop -/

/-- `randomUUID`: an identifier that nothing else has. -/
structure Fresh (s : State) (connectionId : String) : Prop where
  upgrades : ∀ u ∈ s.upgrades, u.connectionId ≠ connectionId
  connections : ∀ c ∈ s.connections, c.identity.connectionId ≠ connectionId
  checking : ∀ h ∈ s.checking, ∀ identity ∈ h.rest, identity.connectionId ≠ connectionId

/-- One turn; `replies` are the leases that may be received for a request, by when it was sent and
    when its reply came. -/
inductive Step (config : GatewayConfig) (replies : Instant → Instant → Lease → Prop) (s : State) :
    State → Prop where
  | pass (passed : Nat) (armed : ∀ c ∈ s.connections, s.now + passed ≤ c.deadlineTimer) :
      Step config replies s { s with now := s.now + passed }
  /-- The timer of a connection. -/
  | expire (c : Live) (mem : c ∈ s.connections) (due : c.deadlineTimer ≤ s.now) :
      Step config replies s (s.stop c .expired)
  /-- A socket fails or is closed, a limit is reached, the gateway shuts down. -/
  | stop (c : Live) (mem : c ∈ s.connections) (reason : CloseReason) :
      Step config replies s (s.stop c reason)
  | upgrade (connectionId : String) (fresh : Fresh s connectionId)
      (room : s.upgrades.length + s.connections.length < config.maximumConnections) :
      Step config replies s
        { s with upgrades := s.upgrades ++ [⟨connectionId, .claiming s.now⟩] }
  | claim (u : Upgrade) (mem : u ∈ s.upgrades) (claimStarted : Instant)
      (phase : u.phase = .claiming claimStarted) (lease : Lease)
      (reply : replies claimStarted s.now lease) (socketClosed : Bool) :
      Step config replies s (s.onClaim config u claimStarted lease socketClosed)
  | check (u : Upgrade) (mem : u ∈ s.upgrades) (sessionId : AccessSessionId)
      (hardDeadline checkStarted : Instant)
      (phase : u.phase = .checking sessionId hardDeadline checkStarted) (leases : List Lease)
      (reply : ∀ lease ∈ leases, replies checkStarted s.now lease) (socketClosed : Bool) :
      Step config replies s
        (s.onCheck config u sessionId hardDeadline checkStarted leases socketClosed)
  | connect (u : Upgrade) (mem : u ∈ s.upgrades) (sessionId : AccessSessionId)
      (hardDeadline checkStarted : Instant) (remainingMs : Nat)
      (phase : u.phase = .connecting sessionId hardDeadline checkStarted remainingMs)
      (socketClosed : Bool) :
      Step config replies s
        (s.onConnect config u sessionId hardDeadline checkStarted remainingMs socketClosed)
  /-- A request of the upgrade fails, or its target does. -/
  | fail (u : Upgrade) (mem : u ∈ s.upgrades) (report : Option (ConnectionId × CloseReason)) :
      Step config replies s (s.abandon u report)
  | heartbeat : Step config replies s s.onHeartbeat
  | beat (h : Heartbeat) (here : s.checking = some h) (leases : List Lease)
      (reply : ∀ lease ∈ leases, replies h.started s.now lease) :
      Step config replies s (s.onBeat h leases)
  /-- A check fails, and with it the rest of its round. -/
  | missed (h : Heartbeat) (here : s.checking = some h) :
      Step config replies s { s with checking := none }

abbrev Reach (config : GatewayConfig) (replies : Instant → Instant → Lease → Prop) :
    State → State → Prop := Relation.ReflTransGen (Step config replies)

/-- A gateway that was just started. -/
def initial (now : Instant) : State := ⟨now, [], [], none, []⟩

/-- The leases of a control plane whose clock runs like the gateway's: a lease was computed between
    the request and its reply, and did not reach beyond the session's deadline. -/
def Honest (deadline : AccessSessionId → Instant) (started received : Instant) (lease : Lease) :
    Prop :=
  ∃ computed, started ≤ computed ∧ computed ≤ received ∧
    computed + lease.remainingMs ≤ deadline lease.sessionId

end AgentCloud.Access.Gateway
