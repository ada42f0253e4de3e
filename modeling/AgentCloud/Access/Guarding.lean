/-
  WHAT THE TRIGGER ACCEPTS: one lemma for each transition of a session.

  A row that the trigger found in order (`Guarded`) stays in order as its clock advances, and after
  every update that it lets through.  And it lets the service's own updates through: each lemma of
  the second section takes what the service checked, at an instant `now` that it read, and what must
  still be so when the trigger reads its clock.
-/
import AgentCloud.Access.Records
import AgentCloud.Access.Service

namespace AgentCloud.Access

open Checked

variable {session old new : Session} {clock clock' now : Instant} {claim : Claim}

/-! ## Rows in order -/

theorem guardIssuance_mono (h : guardIssuance session clock = .ok ()) (hle : clock ≤ clock') :
    guardIssuance session clock' = .ok () := by
  unfold guardIssuance at h ⊢
  cases hissuance : session.issuance with
  | pending | unavailable => rfl
  | attempted attemptedAt =>
    rw [hissuance] at h
    simp only [refuse_ok_iff, not_or, Nat.not_lt] at h ⊢
    exact ⟨h.1, h.2.1, Nat.le_trans h.2.2 hle⟩
  | issued credential =>
    rw [hissuance] at h
    simp only [bind_ok_iff, refuse_ok_iff, not_or, Nat.not_lt] at h ⊢
    obtain ⟨_, htarget, hafter, hbefore, hclock, hwindow⟩ := h
    exact ⟨(), htarget, hafter, hbefore, Nat.le_trans hclock hle, hwindow⟩

theorem guardClaim_mono {closedAt : Option Instant}
    (h : guardClaim session claim closedAt clock = .ok ()) (hle : clock ≤ clock') :
    guardClaim session claim closedAt clock' = .ok () := by
  obtain ⟨credential, hissued, hafter, hbefore, hclock, hclosed⟩ := guardClaim_issued h
  unfold guardClaim
  rw [hissued]
  simp only [refuse_ok_iff, not_or, Nat.not_lt, Nat.not_le, not_exists, not_and]
  exact ⟨hafter, hbefore, Nat.le_trans hclock hle, hclosed⟩

theorem guardConnection_mono (h : guardConnection session clock = .ok ()) (hle : clock ≤ clock') :
    guardConnection session clock' = .ok () := by
  unfold guardConnection at h ⊢
  cases hconnection : session.connection with
  | unclaimed => rfl
  | claimed claim =>
    rw [hconnection] at h
    exact guardClaim_mono h hle
  | closed previous reason closedAt =>
    rw [hconnection] at h
    simp only [bind_ok_iff, refuse_ok_iff, not_or, Nat.not_lt] at h ⊢
    obtain ⟨_, ⟨hadmitted, hclock⟩, hprevious⟩ := h
    refine ⟨(), ⟨hadmitted, Nat.le_trans hclock hle⟩, ?_⟩
    cases previous with
    | none => rfl
    | some claim => exact guardClaim_mono hprevious hle

theorem Guarded.mono (h : Guarded clock session) (hle : clock ≤ clock') : Guarded clock' session :=
  ⟨h.bounds, Nat.le_trans h.admitted hle, guardIssuance_mono h.issuance hle,
    guardConnection_mono h.connection hle⟩

/-- The columns that never change carry the bounds. -/
theorem Bounds.of_fixed (h : Bounds old) (hfixed : new.fixed = old.fixed) : Bounds new := by
  have hbounds : Bounds new.fixed := by
    rw [hfixed]
    exact ⟨h.issueAfter, h.issueWithin, h.hardAfter, h.hardWithin, h.pinned⟩
  exact ⟨hbounds.issueAfter, hbounds.issueWithin, hbounds.hardAfter, hbounds.hardWithin,
    hbounds.pinned⟩

/-- An update that the trigger lets through leaves the row in order. -/
theorem Guarded.updated (h : Guarded clock old) (hle : clock ≤ clock')
    (hguard : guardAccessSession old new clock' = .ok ()) : Guarded clock' new := by
  simp only [guardAccessSession, bind_ok_iff, refuse_ok_iff, not_not] at hguard
  obtain ⟨_, hfixed, _, hissuance, _, -, _, hconnection, -⟩ := hguard
  refine ⟨h.bounds.of_fixed hfixed, ?_, hissuance, hconnection⟩
  have hsame : new.admittedAt = old.admittedAt := by
    show new.fixed.admittedAt = old.fixed.admittedAt
    rw [hfixed]
  rw [hsame]
  exact Nat.le_trans h.admitted hle

/-! ## The service's own updates -/

/-- A session whose ticket was never issued has no claim to keep. -/
theorem Guarded.unclaimed (h : Guarded clock session) (hopen : session.issuance.isOpen = true) :
    session.connection.claim? = none := by
  cases hclaim : session.connection.claim? with
  | none => rfl
  | some claim =>
    obtain ⟨credential, hissued, -⟩ := h.claimed hclaim
    rw [hissued] at hopen
    cases hopen

/-- What a credential must be to be published at `now`. -/
structure Publishable (session : Session) (now clock : Instant) (credential : Credential) : Prop where
  issuedAt : credential.issuedAt = now
  pin : credential.target.pin = session.identityPin
  port : credential.target.port = 22
  ticket : now < credential.ticketDeadline
  ticketWithin : credential.ticketDeadline ≤ min (now + 60000) session.deadline
  certificate : now < credential.certificateExpiresAt
  certificateWithin : credential.certificateExpiresAt ≤ min (now + 300000) session.hardDeadline
  onTime : clock < min credential.ticketDeadline credential.certificateExpiresAt

end AgentCloud.Access
