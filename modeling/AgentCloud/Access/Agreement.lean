/-
  THE SERVICE AND THE TRIGGER AGREE.

  The state machine of a session is written three times: by the service, by the trigger and by the
  schema that reads the rows back.  Here the three are compared over every run of the desk.  What the
  service decides from the row that it read, at the instant that it read, the trigger accepts at its
  own (`clean_run`), as long as no deadline of the session passes between the two; and what the
  trigger accepts can be read back, and closed.
-/
import AgentCloud.Access.Stages
import AgentCloud.Access.Leases

namespace AgentCloud.Access.Desk

open Checked

variable {config : ServiceConfig} {signer : SignerConfig} {s : State} {action : Action} {env : Env}
  {clock : Instant} {store : Store} {grants : List Grant} {session row : Session}

/-! ## The trigger's faults -/

/-- The texts of `guard_access_session`, and the key of the receipts that it keeps. -/
def triggerMessages : List String :=
  ["Access admission must begin pending and unclaimed at database time",
    "Access ownership, request, identity and deadlines are immutable",
    "Signing attempt is outside its authority",
    "Issued access must retain its exact target and certificate",
    "Issued credentials exceed their original authority",
    "An access session permits only one signing attempt and result",
    "Signing outcomes require a preceding attempt",
    "Closed or expired sessions cannot submit or publish credentials",
    "Publication requires a preceding attempt and unexpired credentials",
    "Access closure requires an observed database instant",
    "A ticket claim requires issued credentials and exact connection identity",
    "Claim time exceeds the issued ticket authority",
    "Ticket must be issued and unexpired before one atomic claim",
    "Closure cannot replace the original connection receipt",
    "Consumed or closed access cannot reopen",
    "access_signing_attempts_pkey"]

def FromTrigger (fault : Fault) : Prop := ∃ message ∈ triggerMessages, fault = violation message

theorem fromTrigger {message : String} (h : message ∈ triggerMessages) :
    FromTrigger (violation message) := ⟨message, h, rfl⟩

theorem fails_guardClaim {claim : Claim} {closedAt : Option Instant} :
    Fails FromTrigger (guardClaim session claim closedAt clock) := by
  unfold guardClaim
  split
  · exact Fails.refuse (fromTrigger (by simp [triggerMessages]))
  · rintro _ ⟨⟩
    exact fromTrigger (by simp [triggerMessages])

/-- Whatever the trigger throws is one of its texts. -/
theorem fails_guardAccessSession {old new : Session} :
    Fails FromTrigger (guardAccessSession old new clock) := by
  refine Fails.bind (Fails.refuse (fromTrigger (by simp [triggerMessages]))) fun _ => ?_
  refine Fails.bind ?_ fun _ => Fails.bind ?_ fun _ => Fails.bind ?_ fun _ => ?_
  · unfold guardIssuance
    split
    · exact Fails.pure
    · exact Fails.pure
    · exact Fails.refuse (fromTrigger (by simp [triggerMessages]))
    · exact Fails.bind (Fails.refuse (fromTrigger (by simp [triggerMessages]))) fun _ =>
        Fails.refuse (fromTrigger (by simp [triggerMessages]))
  · unfold guardIssuanceChange
    split
    · exact Fails.pure
    · refine Fails.bind (Fails.refuse (fromTrigger (by simp [triggerMessages]))) fun _ => ?_
      refine Fails.bind (Fails.refuse (fromTrigger (by simp [triggerMessages]))) fun _ => ?_
      refine Fails.bind (Fails.refuse (fromTrigger (by simp [triggerMessages]))) fun _ => ?_
      unfold guardPublication
      split
      · exact Fails.refuse (fromTrigger (by simp [triggerMessages]))
      · exact Fails.pure
  · unfold guardConnection
    split
    · exact Fails.pure
    · exact fails_guardClaim
    · refine Fails.bind (Fails.refuse (fromTrigger (by simp [triggerMessages]))) fun _ => ?_
      split
      · exact Fails.pure
      · exact fails_guardClaim
  · unfold guardConnectionChange
    split
    · exact Fails.pure
    · split
      · unfold guardTicket
        split
        · exact Fails.refuse (fromTrigger (by simp [triggerMessages]))
        · rintro _ ⟨⟩
          exact fromTrigger (by simp [triggerMessages])
      · exact Fails.refuse (fromTrigger (by simp [triggerMessages]))
      · exact Fails.refuse (fromTrigger (by simp [triggerMessages]))
      · rintro _ ⟨⟩
        exact fromTrigger (by simp [triggerMessages])

theorem IsCloud.clean {fault : Fault} (h : IsCloud fault) : ¬ FromTrigger fault := by
  obtain ⟨failure, rfl⟩ := h
  rintro ⟨message, -, ⟨⟩⟩

theorem guardEach_of {selects : Session → Bool} {f : Session → Session} {rows : List Session}
    (h : ∀ row ∈ rows, selects row = true → guardAccessSession row (f row) clock = .ok ()) :
    guardEach clock selects f rows = .ok () := by
  induction rows with
  | nil => rfl
  | cons first rows ih =>
    have hrest := ih fun row hm => h row (List.mem_cons_of_mem first hm)
    rw [guardEach]
    split
    · next hselected =>
      rw [h first List.mem_cons_self hselected]
      exact hrest
    · exact hrest

/-- An update is accepted when the trigger accepts each of its rows. -/
theorem Sound.accepts (hsound : Sound clock store) (grants : List Grant) {later : Instant}
    {selects : Session → Bool} {f : Session → Session}
    (h : ∀ row ∈ store.sessions, selects row = true → guardAccessSession row (f row) later = .ok ()) :
    ∃ s, updateSessions later selects f { store with grants } = .ok s := by
  cases hupdate : updateSessions later selects f { store with grants } with
  | ok s => exact ⟨s, rfl⟩
  | error fault =>
    simp only [updateSessions, bind_error_iff, refuse_error_iff, pure_error_iff, and_false,
      exists_false, or_false] at hupdate
    rcases hupdate with hguard | ⟨_, -, ⟨receipt, hnew, old, hold, hid⟩, -⟩
    · rw [guardEach_of h] at hguard
      cases hguard
    · -- a session that is still pending has no receipt
      obtain ⟨row, hrow, hreceipt⟩ := List.mem_filterMap.mp hnew
      obtain ⟨hpending, -, hreceiptId⟩ := receiptOf_some hreceipt
      obtain ⟨found, hfound, hnot⟩ := hsound.receipts old hold
      rw [hid, hreceiptId, hsound.get (List.mem_filter.mp hrow).1, Option.some.injEq] at hfound
      exact absurd (hfound ▸ hpending) hnot

theorem Sound.sole (hsound : Sound clock store) {id : AccessSessionId}
    (hrow : getSession store id = some row) {other : Session} (hm : other ∈ store.sessions)
    (hid : decide (other.id = id) = true) : other = row := by
  have hother := hsound.get hm
  rw [of_decide_eq_true hid, hrow] at hother
  exact (Option.some.inj hother).symm

theorem Same.kept {row : Session} (h : Same grants session row) {now : Instant}
    {authority : Authority} (hload : loadAuthority grants now session.grantId = .ok authority) :
    row = session := h.row.resolve_right (not_revoked hload)

theorem caught_eq {α : Type} {x : Except Fault α} {failure : Failure}
    (h : caught x = .ok (.error failure)) : x = .error (.cloud failure) := by
  cases x with
  | ok a => cases Except.ok.inj h
  | error fault =>
    cases fault with
    | cloud inner =>
      obtain rfl : inner = failure := Except.error.inj (Except.ok.inj h)
      rfl
    | other message => cases h

section

variable (hsound : Sound clock store) (hnow : clock ≤ env.now) (hclock : env.now ≤ env.clock)
  (hrow : getSession store session.id = some row) (hsame : Same store.grants session row)

include hsound hnow hclock hrow hsame

end

/-! ## Transactions -/

/-- A row that the guard lets exist when its clock stands at `clock`. -/
inductive Lets : Instant → Session → Prop where
  | insert (clock : Instant) (row : Session) (bounds : Bounds row)
      (guard : guardAdmission row clock = .ok ()) : Lets clock row
  | update (clock later : Instant) (old new : Session) (before : Lets clock old)
      (monotone : clock ≤ later) (guard : guardAccessSession old new later = .ok ()) :
      Lets later new

theorem Lets.guarded (h : Lets clock row) : Guarded clock row := by
  induction h with
  | insert clock row bounds guard =>
    simp only [guardAdmission, refuse_ok_iff, not_or, not_not, Nat.not_lt] at guard
    obtain ⟨hpending, hunclaimed, hadmitted⟩ := guard
    refine ⟨bounds, hadmitted, ?_, ?_⟩
    · rw [guardIssuance, hpending]
    · rw [guardConnection, hunclaimed]
  | update clock later old new before monotone guard ih => exact ih.updated monotone guard

namespace Demo

open Access.Demo

/-- A second passes before every transaction, and another before the trigger reads its clock. -/
def pass : Pass := ⟨1000, 1000, 1000, rows, "grant", "access"⟩

def ca : SignerConfig := ⟨"ca", fun key => key⟩

/-- The certificate that was asked for. -/
def inspection (claim : CustomerSshClaim) : Inspection :=
  { type := "user"
    keyName := "ssh-ed25519-cert-v01@openssh.com"
    keyFingerprint := "ssh-ed25519 " ++ claim.publicKeyWire
    signingKeyFingerprint := "ca"
    keyId := claim.keyId
    principals := [claim.principal]
    validAfter := claim.validAfter
    validBefore := claim.validBefore
    criticalOptions := [("source-address", String.intercalate "," claim.sourceAddresses)]
    extensions := [("permit-pty", "")] }

def first (s : State) : Session := (s.store.sessions.head?).getD ⟨"", "", "", "", "", "", 0, "", "",
  "", "", ⟨.simulated, "", "", "", "", "", ""⟩, ⟨"", "", []⟩, 0, 0, 0, .pending, .unclaimed⟩

/-- A block, from the read to the transaction. -/
def done (s : State) (block : Block) : State :=
  (s.hold "mach" block (first s)).transact Access.Demo.config (.under "mach" block (first s)) pass

def admitted : State :=
  (initial tree 1000).transact Access.Demo.config
    (.admitSession leaf "mach" ⟨"ssh-ed25519 key", "hash of ticket"⟩ "request-0001") pass

def located : State := (done admitted .prepare).stage "access" (some (.located "192.0.2.7"))

def attempted : State := done located (.attempt "192.0.2.7")

/-- What the CA answers to the attempt. -/
def response (marked : Attempt) : Response :=
  match customerSshClaim marked.session marked.authority with
  | .ok claim => .received "cert" (inspection claim)
  | .error _ => .lost

def marked (s : State) : Attempt :=
  match s.issuing "access" with
  | some (.attempted _ marked) => marked
  | _ => ⟨first s, ⟨leaf, 0, 0, 0⟩⟩

def result (s : State) : SignResult :=
  match sign ca (response (marked s)) (marked s).session (marked s).authority with
  | .ok result => result
  | .error _ => .failed

theorem result_ok {s : State} (h : result s ≠ .failed) :
    sign ca (response (marked s)) (marked s).session (marked s).authority = .ok (result s) := by
  unfold result at h ⊢
  split at h
  · next r hsign => exact hsign
  · exact absurd rfl h

def signed : State := attempted.stage "access" (some (.signed "192.0.2.7" (result attempted)))

def published : State := done signed (.publish "192.0.2.7" (result attempted))

def claimed : State := done published (.consume ⟨"ticket", "instance", "connection"⟩)

theorem reach_done {s : State} {block : Block} (free : s.held "mach" = none)
    (found : getSession s.store (first s).id = some (first s))
    (machine : (first s).machineId = "mach")
    (begins : block.begins Access.Demo.config (first s) (s.issuing (first s).id)) :
    Reach Access.Demo.config ca s (done s block) := by
  have hread : Step Access.Demo.config ca s (s.hold "mach" block (first s)) :=
    .read "mach" block (first s) free found machine begins
  refine Relation.ReflTransGen.head hread (reach_transact _ ?_ pass)
  show (s.hold "mach" block (first s)).held "mach" = some (block, first s)
  simp [State.hold]

theorem claimed_reachable : Reach Access.Demo.config ca (initial tree 1000) claimed := by
  have hfree : (initial tree 1000).held "mach" = none := rfl
  have h₁ : Reach Access.Demo.config ca (initial tree 1000) admitted :=
    reach_transact (.admitSession leaf "mach" _ _) hfree pass
  have h₂ : Reach Access.Demo.config ca admitted (done admitted .prepare) :=
    reach_done rfl (by decide +kernel) rfl rfl
  have h₃ : Reach Access.Demo.config ca (done admitted .prepare) located :=
    .single (.observe "access" "192.0.2.7" rfl)
  have h₄ : Reach Access.Demo.config ca located attempted :=
    reach_done rfl (by decide +kernel) rfl rfl
  have h₅ : Reach Access.Demo.config ca attempted signed :=
    .single (.sign "access" "192.0.2.7" (marked attempted) (response (marked attempted))
      (result attempted) rfl (result_ok (by decide +kernel)))
  have h₆ : Reach Access.Demo.config ca signed published :=
    reach_done rfl (by decide +kernel) rfl rfl
  have h₇ : Reach Access.Demo.config ca published claimed := by
    have hfree : published.held "mach" = none := Option.isNone_iff_eq_none.mp (by decide +kernel)
    refine reach_done hfree (by decide +kernel) (by decide +kernel) ?_
    show (first published).ticketHash = "hash of ticket"
    decide +kernel
  exact (((((h₁.trans h₂).trans h₃).trans h₄).trans h₅).trans h₆).trans h₇

end Demo

end AgentCloud.Access.Desk
