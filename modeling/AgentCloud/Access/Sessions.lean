/-
  ACCESS SESSIONS: the rows, and the trigger that guards every write of them.

  A session has two halves.  Its ISSUANCE goes pending -> attempted -> issued, or to unavailable
  from either of the first two; `attempted` is the mark that a signature may have been asked for.
  Its CONNECTION goes unclaimed -> claimed -> closed, or straight to closed; closing keeps the
  claim it found.  Everything else in the row is fixed when it is admitted.

  `guardAccessSession` is the trigger `guard_access_session`, check by check, over typed values:
  what the SQL checks about the SHAPE of a JSON value is the type here.  It runs on the row as it
  is at the time of the write, so a service that decided on an older row is caught by it.
  `Moves` says what an update it lets through can do, and is all that later proofs use.
-/
import AgentCloud.Contracts
import AgentCloud.Lib.Table
import Mathlib.Logic.Basic
import Mathlib.Tactic.ByContra

namespace AgentCloud.Access

open Checked

/-! ## Rows -/

inductive ProviderKind where
  | hetzner
  | simulated
  deriving DecidableEq, Repr

structure IdentityPin where
  provider : ProviderKind
  serverId : String
  primaryIpId : String
  hostAlias : String
  sshHostCa : String
  guestHostPublicKey : String
  imageManifestDigest : String
  deriving DecidableEq, Repr

structure Gateway where
  id : String
  origin : String
  egressCidrs : List String
  deriving DecidableEq, Repr

/-- `ownedSshTargetSchema`: the pin, with the address that was observed. -/
structure OwnedSshTarget where
  pin : IdentityPin
  address : String
  port : Nat
  deriving DecidableEq, Repr

inductive UnavailableReason where
  | signingUnknown
  | signingFailed
  | providerRejected
  | authorizationChanged
  | targetChanged
  | deadlineExceeded
  deriving DecidableEq, Repr

structure Credential where
  certificate : String
  issuedAt : Instant
  ticketDeadline : Instant
  certificateExpiresAt : Instant
  target : OwnedSshTarget
  deriving DecidableEq, Repr

inductive Issuance where
  | pending
  | attempted (attemptedAt : Instant)
  | issued (credential : Credential)
  | unavailable (reason : UnavailableReason)
  deriving DecidableEq, Repr

inductive CloseReason where
  | clientClosed
  | targetClosed
  | authorizationChanged
  | targetChanged
  | expired
  | gatewayUnavailable
  | transportFailed
  | limitExceeded
  deriving DecidableEq, Repr

structure Claim where
  gatewayInstanceId : String
  connectionId : String
  claimedAt : Instant
  deriving DecidableEq, Repr

/-- `previous` of a closed connection is the claim it retains; `none` is an unclaimed one. -/
inductive Connection where
  | unclaimed
  | claimed (claim : Claim)
  | closed (previous : Option Claim) (reason : CloseReason) (closedAt : Instant)
  deriving DecidableEq, Repr

/-- `connection.kind === 'closed' ? connection.previous : connection`, as a claim. -/
def Connection.claim? : Connection → Option Claim
  | .unclaimed => none
  | .claimed claim => some claim
  | .closed previous _ _ => previous

def Connection.isClosed : Connection → Bool
  | .closed .. => true
  | _ => false

structure Session where
  id : AccessSessionId
  accountId : AccountId
  projectId : ProjectId
  grantId : GrantId
  machineId : MachineId
  allocationId : AllocationId
  machineVersion : Nat
  requestKey : String
  fingerprint : String
  publicKey : String
  ticketHash : String
  identityPin : IdentityPin
  gateway : Gateway
  admittedAt : Instant
  issueDeadline : Instant
  hardDeadline : Instant
  issuance : Issuance
  connection : Connection
  deriving DecidableEq, Repr

namespace Session

/-- `LEAST(issue_deadline, hard_deadline)`. -/
def deadline (session : Session) : Instant := min session.issueDeadline session.hardDeadline

/-- Everything but the two states. -/
def fixed (session : Session) : Session :=
  { session with issuance := .pending, connection := .unclaimed }

def isIssued (session : Session) : Bool :=
  match session.issuance with
  | .issued _ => true
  | _ => false

end Session

/-! ## The trigger -/

/-- A trigger's exception: no caller looks into it. -/
def violation (message : String) : Fault := .other message

/-- The checks on a new issuance by itself. -/
def guardIssuance (session : Session) (clock : Instant) : Except Fault Unit :=
  match session.issuance with
  | .pending => .ok ()
  | .unavailable _ => .ok ()
  | .attempted attemptedAt =>
    refuse (attemptedAt < session.admittedAt ∨ session.deadline ≤ attemptedAt ∨
        clock < attemptedAt)
      (violation "Signing attempt is outside its authority")
  | .issued credential => do
    refuse (credential.target.pin ≠ session.identityPin ∨ credential.target.port ≠ 22)
      (violation "Issued access must retain its exact target and certificate")
    refuse (credential.issuedAt < session.admittedAt ∨ session.deadline ≤ credential.issuedAt ∨
        clock < credential.issuedAt ∨
        credential.ticketDeadline ≤ credential.issuedAt ∨
        min (credential.issuedAt + 60000) session.deadline < credential.ticketDeadline ∨
        credential.certificateExpiresAt ≤ credential.issuedAt ∨
        min (credential.issuedAt + 300000) session.hardDeadline < credential.certificateExpiresAt)
      (violation "Issued credentials exceed their original authority")

/-- The order of issuances: one signing attempt, one result. -/
def issuanceFollows : Issuance → Issuance → Bool
  | .pending, .attempted _ => true
  | .pending, .unavailable _ => true
  | .attempted _, .issued _ => true
  | .attempted _, .unavailable _ => true
  | _, _ => false

/-- `state_kind IN ('attempted','issued')`. -/
def Issuance.submits : Issuance → Bool
  | .attempted _ => true
  | .issued _ => true
  | _ => false

/-- Reasons that only a signature can have. -/
def Issuance.reportsSigning : Issuance → Bool
  | .unavailable .signingUnknown => true
  | .unavailable .signingFailed => true
  | _ => false

/-- Publication requires a preceding attempt and unexpired credentials. -/
def guardPublication (old new : Session) (clock : Instant) : Except Fault Unit :=
  match old.issuance, new.issuance with
  | .attempted attemptedAt, .issued credential =>
    refuse (min credential.ticketDeadline credential.certificateExpiresAt ≤ clock ∨
        credential.issuedAt < attemptedAt)
      (violation "Publication requires a preceding attempt and unexpired credentials")
  | _, _ => .ok ()

/-- The checks on a changed issuance. -/
def guardIssuanceChange (old new : Session) (clock : Instant) : Except Fault Unit :=
  if new.issuance = old.issuance then .ok ()
  else do
    refuse (¬ issuanceFollows old.issuance new.issuance)
      (violation "An access session permits only one signing attempt and result")
    refuse (old.issuance = .pending ∧ new.issuance.reportsSigning)
      (violation "Signing outcomes require a preceding attempt")
    refuse (new.issuance.submits ∧
        (new.connection ≠ .unclaimed ∨ old.connection ≠ new.connection ∨ new.deadline ≤ clock))
      (violation "Closed or expired sessions cannot submit or publish credentials")
    guardPublication old new clock

/-- A claim that is kept, at or before `closedAt` if there is one, in the window of its ticket. -/
def guardClaim (session : Session) (claim : Claim) (closedAt : Option Instant) (clock : Instant) :
    Except Fault Unit :=
  match session.issuance with
  | .issued credential =>
    refuse (claim.claimedAt < credential.issuedAt ∨
        min credential.ticketDeadline session.hardDeadline ≤ claim.claimedAt ∨
        clock < claim.claimedAt ∨ ∃ at_ ∈ closedAt, at_ < claim.claimedAt)
      (violation "Claim time exceeds the issued ticket authority")
  | _ => .error (violation
      "A ticket claim requires issued credentials and exact connection identity")

/-- The checks on a connection by itself. -/
def guardConnection (session : Session) (clock : Instant) : Except Fault Unit :=
  match session.connection with
  | .unclaimed => .ok ()
  | .claimed claim => guardClaim session claim none clock
  | .closed previous _ closedAt => do
    refuse (closedAt < session.admittedAt ∨ clock < closedAt)
      (violation "Access closure requires an observed database instant")
    match previous with
    | none => .ok ()
    | some claim => guardClaim session claim (some closedAt) clock

/-- The claim of an issued and unexpired ticket, once. -/
def guardTicket (old new : Session) (clock : Instant) : Except Fault Unit :=
  match old.issuance with
  | .issued credential =>
    refuse (new.issuance ≠ old.issuance ∨
        min credential.ticketDeadline new.hardDeadline ≤ clock)
      (violation "Ticket must be issued and unexpired before one atomic claim")
  | _ => .error (violation "Ticket must be issued and unexpired before one atomic claim")

/-- The checks on a changed connection. -/
def guardConnectionChange (old new : Session) (clock : Instant) : Except Fault Unit :=
  if new.connection = old.connection then .ok ()
  else match old.connection, new.connection with
    | .unclaimed, .claimed _ => guardTicket old new clock
    | .unclaimed, .closed previous _ _ =>
      refuse (previous ≠ none)
        (violation "Closure cannot replace the original connection receipt")
    | .claimed claim, .closed previous _ _ =>
      refuse (previous ≠ some claim)
        (violation "Closure cannot replace the original connection receipt")
    | _, _ => .error (violation "Consumed or closed access cannot reopen")

/-- `guard_access_session` on an insert. -/
def guardAdmission (session : Session) (clock : Instant) : Except Fault Unit :=
  refuse (session.issuance ≠ .pending ∨ session.connection ≠ .unclaimed ∨
      clock < session.admittedAt)
    (violation "Access admission must begin pending and unclaimed at database time")

/-- `guard_access_session` on an update. -/
def guardAccessSession (old new : Session) (clock : Instant) : Except Fault Unit := do
  refuse (new.fixed ≠ old.fixed)
    (violation "Access ownership, request, identity and deadlines are immutable")
  guardIssuance new clock
  guardIssuanceChange old new clock
  guardConnection new clock
  guardConnectionChange old new clock

/-! ## What an update can do -/

/-- One update of a session row that the trigger let through. -/
structure Moves (old new : Session) : Prop where
  fixed : new.fixed = old.fixed
  issuance : new.issuance = old.issuance ∨ issuanceFollows old.issuance new.issuance = true
  submits : new.issuance ≠ old.issuance → new.issuance.submits = true →
    old.connection = .unclaimed ∧ new.connection = .unclaimed
  connection : new.connection = old.connection ∨
    (old.connection = .unclaimed ∧ (∃ claim, new.connection = .claimed claim) ∧
      old.isIssued = true ∧ new.issuance = old.issuance) ∨
    (old.connection.isClosed = false ∧ new.connection.isClosed = true ∧
      new.connection.claim? = old.connection.claim?)

theorem guardIssuanceChange_ok {old new : Session} {clock : Instant}
    (h : guardIssuanceChange old new clock = .ok ()) :
    (new.issuance = old.issuance ∨ issuanceFollows old.issuance new.issuance = true) ∧
    (new.issuance ≠ old.issuance → new.issuance.submits = true →
      old.connection = .unclaimed ∧ new.connection = .unclaimed) := by
  rw [guardIssuanceChange] at h
  split at h
  · next heq => exact ⟨.inl heq, fun hne => absurd heq hne⟩
  · simp only [bind_ok_iff, refuse_ok_iff, not_not, not_and_or, not_or] at h
    obtain ⟨-, hfollows, -, -, -, hsubmits, -⟩ := h
    refine ⟨.inr hfollows, fun _ hs => ?_⟩
    rcases hsubmits with hn | ⟨hnew, hsame, -⟩
    · exact absurd hs hn
    · exact ⟨hsame.trans hnew, hnew⟩

theorem guardTicket_ok {old new : Session} {clock : Instant}
    (h : guardTicket old new clock = .ok ()) :
    old.isIssued = true ∧ new.issuance = old.issuance := by
  rw [guardTicket] at h
  split at h
  · next credential hi =>
    simp only [refuse_ok_iff, not_or, not_not] at h
    exact ⟨by simp [Session.isIssued, hi], h.1⟩
  · cases h

theorem guardConnectionChange_ok {old new : Session} {clock : Instant}
    (h : guardConnectionChange old new clock = .ok ()) :
    new.connection = old.connection ∨
      (old.connection = .unclaimed ∧ (∃ claim, new.connection = .claimed claim) ∧
        old.isIssued = true ∧ new.issuance = old.issuance) ∨
      (old.connection.isClosed = false ∧ new.connection.isClosed = true ∧
        new.connection.claim? = old.connection.claim?) := by
  rw [guardConnectionChange] at h
  split at h
  · next heq => exact .inl heq
  · split at h
    · next claim hold hnew =>
      obtain ⟨hissued, hsame⟩ := guardTicket_ok h
      exact .inr (.inl ⟨hold, ⟨claim, hnew⟩, hissued, hsame⟩)
    · next previous reason closedAt hold hnew =>
      simp only [refuse_ok_iff, not_not] at h
      exact .inr (.inr ⟨by simp [hold, Connection.isClosed], by simp [hnew, Connection.isClosed],
        by simp [hold, hnew, Connection.claim?, h]⟩)
    · next claim previous reason closedAt hold hnew =>
      simp only [refuse_ok_iff, not_not] at h
      exact .inr (.inr ⟨by simp [hold, Connection.isClosed], by simp [hnew, Connection.isClosed],
        by simp [hold, hnew, Connection.claim?, h]⟩)
    · cases h

theorem guardAccessSession_ok {old new : Session} {clock : Instant}
    (h : guardAccessSession old new clock = .ok ()) : Moves old new := by
  simp only [guardAccessSession, bind_ok_iff, refuse_ok_iff, not_not] at h
  obtain ⟨-, hfixed, _, -, _, hissuance, _, -, hconnection⟩ := h
  obtain ⟨hfollows, hsubmits⟩ := guardIssuanceChange_ok hissuance
  exact ⟨hfixed, hfollows, hsubmits, guardConnectionChange_ok hconnection⟩

theorem Moves.refl (session : Session) : Moves session session :=
  ⟨rfl, .inl rfl, fun h => absurd rfl h, .inl rfl⟩

theorem Moves.id_eq {old new : Session} (h : Moves old new) : new.id = old.id := by
  show new.fixed.id = old.fixed.id
  rw [h.fixed]

theorem Moves.grantId_eq {old new : Session} (h : Moves old new) : new.grantId = old.grantId := by
  show new.fixed.grantId = old.fixed.grantId
  rw [h.fixed]

theorem Moves.ticketHash_eq {old new : Session} (h : Moves old new) :
    new.ticketHash = old.ticketHash := by
  show new.fixed.ticketHash = old.fixed.ticketHash
  rw [h.fixed]

/-- A claim, once there, stays the claim of the session. -/
theorem Moves.claim_kept {old new : Session} (h : Moves old new) {claim : Claim}
    (hclaim : old.connection.claim? = some claim) : new.connection.claim? = some claim := by
  rcases h.connection with hsame | ⟨hold, -⟩ | ⟨-, -, hkept⟩
  · rw [hsame, hclaim]
  · rw [hold] at hclaim
    cases hclaim
  · rw [hkept, hclaim]

/-- A closed session stays as it is, except that a pending or attempted issuance may end. -/
theorem Moves.closed {old new : Session} (h : Moves old new)
    (hclosed : old.connection.isClosed = true) :
    new.connection = old.connection ∧ (new.isIssued = true → new.issuance = old.issuance) := by
  have hconnection : new.connection = old.connection := by
    rcases h.connection with hsame | ⟨hold, -⟩ | ⟨hopen, -⟩
    · exact hsame
    · rw [hold] at hclosed
      cases hclosed
    · rw [hopen] at hclosed
      cases hclosed
  refine ⟨hconnection, fun hissued => ?_⟩
  by_contra hne
  have hsubmits : new.issuance.submits = true := by
    revert hissued
    simp only [Session.isIssued, Issuance.submits]
    cases new.issuance <;> simp
  rw [(h.submits hne hsubmits).1] at hclosed
  cases hclosed

end AgentCloud.Access
