/-
  SLOTS OF ACCESS: at most four sessions of a grant and twenty of an account reserve one.

  A session reserves its slot until a deadline that depends on where it stands: the issue deadline
  until it is issued, the ticket's deadline until it is claimed, the hard deadline from then on.
  The bound is kept because these intervals abut.  A ticket never outlives the issue deadline, and
  the trigger lets a ticket be claimed only before its own deadline, so a session that reserves
  after an update reserved before it (`Timely.reserved`): only an admission adds to the count, and
  an admission counts first.

  The plan: `Timely` is what the trigger's clock adds to `Moves`; `Bounded` is the invariant;
  `Change` is one step of any holder, and every block of `LockedJob` is safe for it.
-/
import AgentCloud.Access.Locks

namespace AgentCloud.Access

open Checked Durable

/-! ## What the trigger's clock adds -/

/-- An update of a session that the trigger let through when its clock stood at `clock`. -/
structure Timely (clock : Instant) (old new : Session) : Prop where
  moves : Moves old new
  issued : ∀ credential, new.issuance = .issued credential → new.issuance ≠ old.issuance →
    old.isIssued = false ∧ clock < old.deadline ∧ credential.ticketDeadline ≤ old.deadline
  claimed : ∀ claim, new.connection = .claimed claim → new.connection ≠ old.connection →
    ∃ credential, old.issuance = .issued credential ∧ clock < credential.ticketDeadline

variable {old new : Session} {clock : Instant}

theorem Moves.deadline_eq (h : Moves old new) : new.deadline = old.deadline := by
  show new.fixed.deadline = old.fixed.deadline
  rw [h.fixed]

theorem Moves.machineId_eq (h : Moves old new) : new.machineId = old.machineId := by
  show new.fixed.machineId = old.fixed.machineId
  rw [h.fixed]

theorem guardIssuance_issued {credential : Credential} (h : guardIssuance new clock = .ok ())
    (hissued : new.issuance = .issued credential) : credential.ticketDeadline ≤ new.deadline := by
  simp only [guardIssuance, hissued, bind_ok_iff, refuse_ok_iff, not_or, Nat.not_lt] at h
  obtain ⟨-, -, -, -, -, -, hticket, -⟩ := h
  exact Nat.le_trans hticket (Nat.min_le_right _ _)

theorem guardIssuanceChange_issued (h : guardIssuanceChange old new clock = .ok ())
    (hissued : new.isIssued = true) (hne : new.issuance ≠ old.issuance) :
    old.isIssued = false ∧ clock < new.deadline := by
  rw [guardIssuanceChange, if_neg hne] at h
  simp only [bind_ok_iff, refuse_ok_iff, not_not, not_and_or, not_or, Nat.not_le] at h
  obtain ⟨-, hfollows, -, -, -, hsubmits, -⟩ := h
  have hnew : new.issuance.submits = true := by
    revert hissued
    simp only [Session.isIssued, Issuance.submits]
    cases new.issuance <;> simp
  rcases hsubmits with hn | ⟨-, -, htime⟩
  · exact absurd hnew hn
  · refine ⟨?_, htime⟩
    revert hfollows
    simp only [Session.isIssued]
    cases old.issuance <;> cases new.issuance <;> simp [issuanceFollows]

theorem guardConnectionChange_claimed {claim : Claim}
    (h : guardConnectionChange old new clock = .ok ()) (hclaimed : new.connection = .claimed claim)
    (hne : new.connection ≠ old.connection) :
    ∃ credential, old.issuance = .issued credential ∧ clock < credential.ticketDeadline := by
  rw [guardConnectionChange, if_neg hne] at h
  split at h
  · rw [guardTicket] at h
    split at h
    · next credential hi =>
      simp only [refuse_ok_iff, not_or, Nat.not_le] at h
      exact ⟨credential, hi, Nat.lt_of_lt_of_le h.2 (Nat.min_le_left _ _)⟩
    · cases h
  · next hclosed =>
    rw [hclaimed] at hclosed
    cases hclosed
  · next hclosed =>
    rw [hclaimed] at hclosed
    cases hclosed
  · cases h

theorem timely_of_guard (h : guardAccessSession old new clock = .ok ()) : Timely clock old new := by
  have hmoves : Moves old new := guardAccessSession_ok h
  simp only [guardAccessSession, bind_ok_iff] at h
  obtain ⟨_, -, _, hissuance, _, hchange, _, -, hconnection⟩ := h
  refine ⟨hmoves, fun credential hissued hne => ?_, fun claim hclaimed hne =>
    guardConnectionChange_claimed hconnection hclaimed hne⟩
  have hnew : new.isIssued = true := by simp [Session.isIssued, hissued]
  obtain ⟨hold, htime⟩ := guardIssuanceChange_issued hchange hnew hne
  rw [← hmoves.deadline_eq]
  exact ⟨hold, htime, guardIssuance_issued hissuance hissued⟩

/-! ## Counting -/

/-- The columns of a row that a reservation depends on. -/
structure Dated (row : Session) : Prop where
  window : row.issueDeadline = row.admittedAt + 90000
  ticket : ∀ credential, row.issuance = .issued credential → credential.ticketDeadline ≤ row.deadline

theorem Moves.window (h : Moves old new) (hold : Dated old) :
    new.issueDeadline = new.admittedAt + 90000 := by
  show new.fixed.issueDeadline = new.fixed.admittedAt + 90000
  rw [h.fixed]
  exact hold.window

theorem Timely.dated (h : Timely clock old new) (hold : Dated old) : Dated new := by
  refine ⟨h.moves.window hold, fun credential hissued => ?_⟩
  rw [h.moves.deadline_eq]
  by_cases hsame : new.issuance = old.issuance
  · exact hold.ticket credential (hsame ▸ hissued)
  · exact (h.issued credential hissued hsame).2.2

/-- An admission counts this row: it reserves a slot, and the query selects it. -/
def Counted (now : Instant) (row : Session) : Prop :=
  isReserved now row = true ∧ (isRecent now row = true ∨ now < row.hardDeadline)

theorem isReserved_iff {now : Instant} {row : Session} :
    isReserved now row = true ↔ row.connection.isClosed = false ∧ now < reservedUntil row := by
  simp [isReserved]

/-- The query of an admission selects every row that reserves a slot. -/
theorem counted_of_reserved {now : Instant} {row : Session} (hdated : Dated row)
    (h : isReserved now row = true) : Counted now row := by
  refine ⟨h, ?_⟩
  obtain ⟨-, htime⟩ := isReserved_iff.mp h
  have hwindow := hdated.window
  rw [reservedUntil] at htime
  split at htime
  · exact .inr htime
  · next credential hissued _ =>
    have hticket := hdated.ticket credential hissued
    have hdeadline : row.deadline ≤ row.hardDeadline := Nat.min_le_right _ _
    exact .inr (Nat.lt_of_lt_of_le htime (Nat.le_trans hticket hdeadline))
  · refine .inl ?_
    rw [hwindow] at htime
    simp only [isRecent, decide_eq_true_eq]
    exact Nat.lt_of_lt_of_le htime (Nat.add_le_add_left (by decide) _)

/-- How many of the selected sessions reserve a slot. -/
def reserving (selects : Session → Bool) (now : Instant) (sessions : List Session) : Nat :=
  sessions.countP fun row => selects row && isReserved now row

section

variable {selects : Session → Bool} {now later : Instant} {sessions : List Session}

theorem reserving_later (h : now ≤ later) :
    reserving selects later sessions ≤ reserving selects now sessions := by
  refine List.countP_mono_left fun row _ hrow => ?_
  simp only [Bool.and_eq_true, isReserved_iff] at hrow ⊢
  exact ⟨hrow.1, hrow.2.1, Nat.lt_of_le_of_lt h hrow.2.2⟩

theorem reserving_map {f : Session → Session}
    (hselects : ∀ row ∈ sessions, selects (f row) = selects row)
    (h : ∀ row ∈ sessions, isReserved later (f row) = true → isReserved now row = true) :
    reserving selects later (sessions.map f) ≤ reserving selects now sessions := by
  rw [reserving, List.countP_map]
  refine List.countP_mono_left fun row hm hrow => ?_
  simp only [Function.comp, Bool.and_eq_true] at hrow ⊢
  exact ⟨hselects row hm ▸ hrow.1, h row hm hrow.2⟩

theorem reserving_append {session : Session} :
    reserving selects now (sessions ++ [session]) ≤ reserving selects now sessions + 1 := by
  rw [reserving, List.countP_append]
  have hone : [session].countP (fun row => selects row && isReserved now row) ≤ [session].length :=
    List.countP_le_length
  simpa [reserving] using hone

theorem reserving_append_other {session : Session} (h : selects session = false) :
    reserving selects now (sessions ++ [session]) = reserving selects now sessions := by
  simp [reserving, List.countP_append, h]

/-- An admission found room for one more. -/
theorem assertAdmissible_ok {principal : Principal} (hdated : ∀ row ∈ sessions, Dated row)
    (h : assertAdmissible sessions now principal = .ok ()) :
    reserving (fun row => row.accountId = principal.accountId) now sessions < 20 ∧
    reserving (fun row => row.accountId = principal.accountId ∧ row.grantId = principal.grantId)
      now sessions < 4 := by
  simp only [assertAdmissible, bind_ok_iff, refuse_ok_iff, not_or, Nat.not_le] at h
  obtain ⟨-, -, haccount, hgrant⟩ := h
  constructor
  · refine Nat.lt_of_le_of_lt ?_ haccount
    rw [reserving, List.countP_filter]
    refine List.countP_mono_left fun row hm hrow => ?_
    simp only [Bool.and_eq_true, decide_eq_true_eq] at hrow ⊢
    exact ⟨hrow.2, hrow.1, (counted_of_reserved (hdated row hm) hrow.2).2⟩
  · refine Nat.lt_of_le_of_lt ?_ hgrant
    rw [reserving, List.countP_filter, List.countP_filter]
    refine List.countP_mono_left fun row hm hrow => ?_
    simp only [Bool.and_eq_true, decide_eq_true_eq] at hrow ⊢
    obtain ⟨⟨haccount, hgrant⟩, hreserved⟩ := hrow
    exact ⟨⟨hreserved, hgrant⟩, haccount, (counted_of_reserved (hdated row hm) hreserved).2⟩

end

/-! ## The intervals abut -/

theorem reservedUntil_claimed {claim : Claim} (h : old.connection = .claimed claim) :
    reservedUntil old = old.hardDeadline := by simp [reservedUntil, h]

theorem reservedUntil_issued {credential : Credential} (h : old.connection = .unclaimed)
    (hissued : old.issuance = .issued credential) :
    reservedUntil old = credential.ticketDeadline := by simp [reservedUntil, h, hissued]

theorem reservedUntil_waiting (h : old.connection = .unclaimed) (hwaiting : old.isIssued = false) :
    reservedUntil old = old.issueDeadline := by
  simp only [Session.isIssued] at hwaiting
  simp only [reservedUntil, h]
  revert hwaiting
  cases old.issuance <;> simp

/-- An update of an unclaimed session that leaves it unclaimed only brings its deadline forward. -/
theorem Timely.until_le (h : Timely clock old new) (hold : old.connection = .unclaimed)
    (hnew : new.connection = .unclaimed) : reservedUntil new ≤ reservedUntil old := by
  have hissue : new.issueDeadline = old.issueDeadline := by
    show new.fixed.issueDeadline = old.fixed.issueDeadline
    rw [h.moves.fixed]
  by_cases hkept : new.issuance = old.issuance
  · refine Nat.le_of_eq ?_
    simp only [reservedUntil, hold, hnew, hkept]
    cases old.issuance <;> simp [hissue]
  · cases hissued : new.issuance with
    | issued credential =>
      obtain ⟨hwaiting, -, hticket⟩ := h.issued credential hissued hkept
      rw [reservedUntil_issued hnew hissued, reservedUntil_waiting hold hwaiting]
      exact Nat.le_trans hticket (Nat.min_le_left _ _)
    | _ =>
      have hwaiting : old.isIssued = false := by
        rcases h.moves.issuance with heq | hfollows
        · exact absurd heq hkept
        · revert hfollows
          simp only [Session.isIssued, hissued]
          cases old.issuance <;> simp [issuanceFollows]
      have hstill : new.isIssued = false := by simp [Session.isIssued, hissued]
      refine Nat.le_of_eq ?_
      rw [reservedUntil_waiting hnew hstill, reservedUntil_waiting hold hwaiting, hissue]

/-- A claim comes before the deadline of its ticket. -/
theorem Timely.claim_before (h : Timely clock old new) (hold : old.connection = .unclaimed)
    {claim : Claim} (hclaimed : new.connection = .claimed claim) : clock < reservedUntil old := by
  have hne : new.connection ≠ old.connection := by
    rw [hold, hclaimed]
    intro h
    cases h
  obtain ⟨credential, hissued, hticket⟩ := h.claimed claim hclaimed hne
  rw [reservedUntil_issued hold hissued]
  exact hticket

/-- A session that reserves a slot after an update reserved it before. -/
theorem Timely.reserved {now later : Instant} (h : Timely clock old new) (hbefore : now ≤ clock)
    (hlater : now ≤ later) (hnew : isReserved later new = true) : isReserved now old = true := by
  obtain ⟨hopen, htime⟩ := isReserved_iff.mp hnew
  refine isReserved_iff.mpr ?_
  rcases h.moves.connection with hsame | ⟨hold, ⟨claim, hclaimed⟩, -, -⟩ | ⟨-, hclosed, -⟩
  · rw [hsame] at hopen
    refine ⟨hopen, Nat.lt_of_le_of_lt hlater (Nat.lt_of_lt_of_le htime ?_)⟩
    cases hconnection : old.connection with
    | closed previous reason closedAt =>
      rw [hconnection] at hopen
      cases hopen
    | claimed claim =>
      refine Nat.le_of_eq ?_
      rw [reservedUntil_claimed (hsame.trans hconnection), reservedUntil_claimed hconnection]
      show new.fixed.hardDeadline = old.fixed.hardDeadline
      rw [h.moves.fixed]
    | unclaimed => exact h.until_le hconnection (hsame.trans hconnection)
  · refine ⟨by simp [hold, Connection.isClosed], ?_⟩
    exact Nat.lt_of_le_of_lt hbefore (h.claim_before hold hclaimed)
  · rw [hopen] at hclosed
    cases hclosed

/-- A session that becomes issued, or claimed, reserved its slot until then. -/
theorem Timely.gains {now : Instant} (h : Timely clock old new) (hbefore : now ≤ clock)
    (hgains : Gains old new) : isReserved now old = true := by
  refine isReserved_iff.mpr ?_
  rcases hgains with ⟨hissued, hne⟩ | ⟨⟨claim, hclaimed⟩, hne⟩
  · obtain ⟨credential, hcredential⟩ : ∃ credential, new.issuance = .issued credential := by
      revert hissued
      simp only [Session.isIssued]
      cases new.issuance <;> simp
    obtain ⟨hopen, -⟩ := h.moves.submits hne (by simp [Issuance.submits, hcredential])
    obtain ⟨hwaiting, htime, -⟩ := h.issued credential hcredential hne
    refine ⟨by simp [hopen, Connection.isClosed], ?_⟩
    rw [reservedUntil_waiting hopen hwaiting]
    exact Nat.lt_of_le_of_lt hbefore (Nat.lt_of_lt_of_le htime (Nat.min_le_left _ _))
  · have hopen : old.connection = .unclaimed := by
      rcases h.moves.connection with hsame | ⟨hold, -⟩ | ⟨-, hclosed, -⟩
      · exact absurd hsame hne
      · exact hold
      · rw [hclaimed] at hclosed
        cases hclosed
    refine ⟨by simp [hopen, Connection.isClosed], ?_⟩
    exact Nat.lt_of_le_of_lt hbefore (h.claim_before hopen hclaimed)

end AgentCloud.Access
