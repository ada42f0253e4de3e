/-
  ACCESS RECORDS: what `accessSessionRecordSchema` accepts.

  Every reader of a session row parses it, and a row that does not parse cannot be claimed, checked
  or closed by the service any more.  `issues` is the schema's `superRefine`, message by message,
  over the typed row; the trigger says much the same in SQL.  `Guarded` is what the trigger and the
  `access_deadlines` check demand of a row by itself, and a guarded row is readable
  (`Guarded.readable`).
-/
import AgentCloud.Access.Target

namespace AgentCloud.Access

open Checked

/-! ## The schema -/

/-- `if (condition) reject(message)`. -/
def rejectIf (condition : Prop) [Decidable condition] (message : String) : List String :=
  if condition then [message] else []

def issuanceIssues (session : Session) : List String :=
  match session.issuance with
  | .attempted attemptedAt =>
    rejectIf (attemptedAt < session.admittedAt ∨
        min session.issueDeadline session.hardDeadline ≤ attemptedAt)
      "Signing attempt is outside its authority."
  | .issued credential =>
    rejectIf (credential.issuedAt < session.admittedAt ∨
        min session.issueDeadline session.hardDeadline ≤ credential.issuedAt ∨
        credential.ticketDeadline ≤ credential.issuedAt ∨
        min (min (credential.issuedAt + 60000) session.issueDeadline) session.hardDeadline <
          credential.ticketDeadline ∨
        credential.certificateExpiresAt ≤ credential.issuedAt ∨
        min (credential.issuedAt + 300000) session.hardDeadline < credential.certificateExpiresAt)
      "Issued credentials exceed their original authority." ++
    rejectIf (credential.target.pin ≠ session.identityPin)
      "Issued target differs from the admission pin."
  | _ => []

def claimIssues (session : Session) (claim : Claim) : List String :=
  match session.issuance with
  | .issued credential =>
    rejectIf (claim.claimedAt < credential.issuedAt ∨
        min credential.ticketDeadline session.hardDeadline ≤ claim.claimedAt)
      "Ticket claim is outside its original authority."
  | _ => ["Only issued credentials can be claimed."]

def closureIssues (session : Session) : List String :=
  match session.connection with
  | .closed previous _ closedAt =>
    rejectIf (closedAt < (previous.map Claim.claimedAt).getD session.admittedAt)
      "Connection closure cannot precede admission or claim."
  | _ => []

/-- `superRefine`. -/
def issues (session : Session) : List String :=
  rejectIf (session.issueDeadline ≤ session.admittedAt ∨
      session.admittedAt + 90000 < session.issueDeadline ∨
      session.hardDeadline ≤ session.admittedAt ∨
      session.admittedAt + 3600000 < session.hardDeadline)
    "Session deadlines exceed their admission limits." ++
  rejectIf (session.identityPin.hostAlias ≠ hostAlias session.allocationId)
    "Host identity belongs to another allocation." ++
  issuanceIssues session ++
  (session.connection.claim?.map (claimIssues session)).getD [] ++
  closureIssues session

/-- The row parses. -/
def Readable (session : Session) : Prop := issues session = []

instance (session : Session) : Decidable (Readable session) :=
  inferInstanceAs (Decidable (issues session = []))

/-! ## What the database demands of a row -/

/-- The check `access_deadlines`, and the trigger's check of the pin on admission. -/
structure Bounds (session : Session) : Prop where
  issueAfter : session.admittedAt < session.issueDeadline
  issueWithin : session.issueDeadline ≤ session.admittedAt + 90000
  hardAfter : session.admittedAt < session.hardDeadline
  hardWithin : session.hardDeadline ≤ session.admittedAt + 3600000
  pinned : session.identityPin.hostAlias = hostAlias session.allocationId

/-- A row that the trigger finds in order when its clock stands at `clock`. -/
structure Guarded (clock : Instant) (session : Session) : Prop where
  bounds : Bounds session
  admitted : session.admittedAt ≤ clock
  issuance : guardIssuance session clock = .ok ()
  connection : guardConnection session clock = .ok ()

variable {session old new : Session} {clock clock' : Instant} {claim : Claim}

@[simp] theorem rejectIf_eq_nil {condition : Prop} [Decidable condition] {message : String} :
    rejectIf condition message = [] ↔ ¬ condition := by
  simp [rejectIf]

theorem guardClaim_issued {closedAt : Option Instant}
    (h : guardClaim session claim closedAt clock = .ok ()) :
    ∃ credential, session.issuance = .issued credential ∧ credential.issuedAt ≤ claim.claimedAt ∧
      claim.claimedAt < min credential.ticketDeadline session.hardDeadline ∧
      claim.claimedAt ≤ clock ∧ ∀ t ∈ closedAt, claim.claimedAt ≤ t := by
  unfold guardClaim at h
  split at h
  · next credential hissued =>
    simp only [refuse_ok_iff, not_or, Nat.not_lt, Nat.not_le, not_exists, not_and] at h
    obtain ⟨hissuedAt, hticket, hclock, hclosed⟩ := h
    exact ⟨credential, hissued, hissuedAt, hticket, hclock, hclosed⟩
  · cases h

theorem Guarded.claimed (h : Guarded clock session) (hclaim : session.connection.claim? = some claim) :
    ∃ credential, session.issuance = .issued credential ∧ credential.issuedAt ≤ claim.claimedAt ∧
      claim.claimedAt < min credential.ticketDeadline session.hardDeadline ∧
      claim.claimedAt ≤ clock := by
  have hguard := h.connection
  unfold guardConnection at hguard
  cases hconnection : session.connection with
  | unclaimed => simp [hconnection, Connection.claim?] at hclaim
  | claimed held =>
    rw [hconnection] at hclaim hguard
    obtain rfl := Option.some.inj hclaim
    obtain ⟨credential, hissued, hafter, hbefore, hclock, -⟩ := guardClaim_issued hguard
    exact ⟨credential, hissued, hafter, hbefore, hclock⟩
  | closed previous reason closedAt =>
    rw [hconnection] at hclaim hguard
    obtain rfl : previous = some claim := hclaim
    obtain ⟨_, -, hguard⟩ := bind_ok_iff.mp hguard
    obtain ⟨credential, hissued, hafter, hbefore, hclock, -⟩ := guardClaim_issued hguard
    exact ⟨credential, hissued, hafter, hbefore, hclock⟩

/-- A closure is observed, and not before what it closes. -/
theorem Guarded.closed (h : Guarded clock session) {previous : Option Claim} {reason : CloseReason}
    {closedAt : Instant} (hclosed : session.connection = .closed previous reason closedAt) :
    (previous.map Claim.claimedAt).getD session.admittedAt ≤ closedAt ∧ closedAt ≤ clock := by
  have hguard := h.connection
  rw [guardConnection, hclosed] at hguard
  simp only [bind_ok_iff, refuse_ok_iff, not_or, Nat.not_lt] at hguard
  obtain ⟨_, ⟨hadmitted, hclock⟩, hguard⟩ := hguard
  cases previous with
  | none => exact ⟨hadmitted, hclock⟩
  | some claim =>
    obtain ⟨_, -, -, -, -, hbefore⟩ := guardClaim_issued hguard
    exact ⟨hbefore closedAt rfl, hclock⟩

theorem min_ticket {issuedAt ticket issue hard : Instant} :
    min (min (issuedAt + 60000) issue) hard < ticket ↔ min (issuedAt + 60000) (min issue hard) < ticket := by
  rw [Nat.min_assoc]

/-- **A row that the database keeps is a row that the service can read.** -/
theorem Guarded.readable (h : Guarded clock session) : Readable session := by
  have hbounds := h.bounds
  unfold Readable issues
  simp only [List.append_eq_nil_iff, rejectIf_eq_nil]
  refine ⟨⟨⟨⟨?_, ?_⟩, ?_⟩, ?_⟩, ?_⟩
  · rw [not_or, not_or, not_or, Nat.not_le, Nat.not_lt, Nat.not_le, Nat.not_lt]
    exact ⟨hbounds.issueAfter, hbounds.issueWithin, hbounds.hardAfter, hbounds.hardWithin⟩
  · exact not_not.mpr hbounds.pinned
  · have hguard := h.issuance
    unfold guardIssuance at hguard
    unfold issuanceIssues
    cases hissuance : session.issuance with
    | pending | unavailable => rfl
    | attempted attemptedAt =>
      rw [hissuance] at hguard
      simp only [refuse_ok_iff, not_or] at hguard
      simp only [rejectIf_eq_nil, not_or]
      exact ⟨hguard.1, hguard.2.1⟩
    | issued credential =>
      rw [hissuance] at hguard
      simp only [bind_ok_iff, refuse_ok_iff, not_or] at hguard
      obtain ⟨_, htarget, hafter, hbefore, -, hticket, hticketWithin, hcertificate, hwithin⟩ := hguard
      simp only [List.append_eq_nil_iff, rejectIf_eq_nil, not_or]
      exact ⟨⟨hafter, hbefore, hticket, fun hlate => hticketWithin (min_ticket.mp hlate),
        hcertificate, hwithin⟩, htarget.1⟩
  · cases hclaim : session.connection.claim? with
    | none => rfl
    | some claim =>
      obtain ⟨credential, hissued, hafter, hbefore, -⟩ := h.claimed hclaim
      show claimIssues session claim = []
      simp only [claimIssues, hissued, rejectIf_eq_nil, not_or, Nat.not_lt, Nat.not_le]
      exact ⟨hafter, hbefore⟩
  · unfold closureIssues
    cases hconnection : session.connection with
    | unclaimed | claimed => rfl
    | closed previous reason closedAt =>
      simp only [rejectIf_eq_nil, Nat.not_lt]
      exact (h.closed hconnection).1

end AgentCloud.Access
