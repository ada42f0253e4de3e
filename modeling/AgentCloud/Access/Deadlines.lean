/-
  DEADLINES NEST, from the grant down to the open connection.

  The grant's ancestors expire no earlier than the session's hard deadline; the ticket, the
  certificate and every lease end within it; and a gateway keeps a connection open no longer than
  the lease of its last successful check says, counted from when that check was sent, and never
  longer than fifteen seconds.  Three clocks are involved: a deadline of the control plane reaches
  the gateway only as a number of milliseconds, so that `connection_honest` alone compares them.
-/
import AgentCloud.Access.Agreement
import AgentCloud.Access.Heartbeats

namespace AgentCloud.Access.Desk

open Checked

/-! ## Rows -/

/-- The deadlines of a session lie within each other. -/
structure Nested (grants : List Grant) (row : Session) : Prop where
  hard : Within grants row row.hardDeadline
  ticket : ∀ credential, row.issuance = .issued credential →
    Within grants row credential.ticketDeadline
  certificate : ∀ credential, row.issuance = .issued credential →
    Within grants row credential.certificateExpiresAt ∧
      credential.certificateExpiresAt ≤ credential.issuedAt + 300000

variable {config : ServiceConfig} {signer : SignerConfig} {s : State} {grants : List Grant}
  {clock : Instant} {store : Store} {session row : Session} {env : Env}

theorem Sound.nested (h : Sound clock store) (hm : row ∈ store.sessions) :
    Nested store.grants row := by
  have hhard := h.hard row hm
  have hissued : ∀ credential, row.issuance = .issued credential →
      credential.ticketDeadline ≤ row.hardDeadline ∧
        credential.certificateExpiresAt ≤ min (credential.issuedAt + 300000) row.hardDeadline := by
    intro credential hissued
    have hguard := (h.guarded row hm).issuance
    rw [guardIssuance, hissued] at hguard
    simp only [bind_ok_iff, refuse_ok_iff, not_or, Nat.not_lt] at hguard
    obtain ⟨_, -, -, -, -, -, hticket, -, hcertificate⟩ := hguard
    have hdeadline : credential.ticketDeadline ≤ row.deadline :=
      Nat.le_trans hticket (Nat.min_le_right _ _)
    exact ⟨Nat.le_trans hdeadline (Nat.min_le_right _ _), hcertificate⟩
  refine ⟨hhard, fun credential h' => hhard.le (hissued credential h').1, fun credential h' => ?_⟩
  obtain ⟨-, hcertificate⟩ := hissued credential h'
  exact ⟨hhard.le (Nat.le_trans hcertificate (Nat.min_le_right _ _)),
    Nat.le_trans hcertificate (Nat.min_le_left _ _)⟩

/-! ## Leases and certificates -/

/-- A lease ends within the session and within every grant above it. -/
theorem lease_within {rows : Rows} {now : Instant} {connection : ConnectionId} {lease : Lease}
    (h : validConnection config rows grants now session connection = .ok lease) :
    Within grants session (now + lease.remainingMs) := by
  simp only [validConnection, bind_ok_iff, present_ok_iff, refuse_ok_iff, Nat.not_le,
    pure_ok_iff] at h
  obtain ⟨context, hcurrent, _, -, target, -, _, hremaining, rfl⟩ := h
  have hload := current_loads hcurrent
  rw [loadAuthority_checkedAt hload] at hremaining ⊢
  have hends : now + (min session.hardDeadline context.authority.expiresAt - now) =
      min session.hardDeadline context.authority.expiresAt :=
    Nat.add_sub_cancel' (Nat.le_of_lt hremaining)
  rw [hends]
  exact within_authority hload (Nat.min_le_left _ _) (Nat.min_le_right _ _)

/-- The lease of a claim is computed at the later of its two instants. -/
theorem claim_within {request : ClaimRequest} {lease : Lease} {store' : Store}
    (h : consume config request session env store = .ok (lease, store')) :
    Within store'.grants session (env.later + lease.remainingMs) := by
  simp only [consume, bind_ok_iff, pure_ok_iff, Prod.mk.injEq] at h
  obtain ⟨context, -, _, -, s, -, found, hvalid, rfl, rfl⟩ := h
  -- the claim itself changes neither the grant nor the deadline of the session
  have hwithin := lease_within hvalid
  exact ⟨hwithin.1, hwithin.2⟩

/-- What the CA signs ends within the session, and is valid for at most five minutes. -/
theorem Good.signed_within (hg : Good s) {id : AccessSessionId} {address certificate : String}
    {marked : Attempt} (here : s.issuing id = some (.attempted address marked)) {response : Response}
    {expiresAt : Instant}
    (h : sign signer response marked.session marked.authority = .ok (.issued certificate expiresAt)) :
    ∃ inspection, response = .received certificate inspection ∧
      Signed marked.session marked.authority inspection expiresAt ∧
      Within s.store.grants marked.session expiresAt := by
  obtain ⟨inspection, hresponse, -, hsigned⟩ := sign_issued h
  obtain ⟨row, hrow, hfixed, -⟩ := hg.issuing _ _ here
  have hm := Table.get_mem hrow
  have hgrant : marked.session.grantId = row.grantId := by
    show marked.session.fixed.grantId = row.fixed.grantId
    rw [hfixed]
  have hhard : marked.session.hardDeadline = row.hardDeadline := by
    show marked.session.fixed.hardDeadline = row.fixed.hardDeadline
    rw [hfixed]
  refine ⟨inspection, hresponse, hsigned, hsigned.withinSession, fun g grant hanc hgrant' => ?_⟩
  rw [hgrant] at hanc
  exact Nat.le_trans (hhard ▸ hsigned.withinSession) ((hg.sound.hard row hm).2 g grant hanc hgrant')

/-! ## Connections -/

/-- A connection is open for at most fifteen seconds, and for at most its lease, after its last
    successful check was sent. -/
structure OpenWithin (replies : Instant → Instant → Lease → Prop) (now : Instant)
    (c : Gateway.Live) : Prop where
  replied : Gateway.Replied replies now c.identity c.checked
  round : now ≤ c.checked.started + 15000
  lease : now ≤ c.checked.started + c.checked.remainingMs

theorem open_within {replies : Instant → Instant → Lease → Prop} {now : Instant} {c : Gateway.Live}
    (h : Gateway.Held replies now c) : OpenWithin replies now c := by
  have harmed := h.armed
  rw [h.timer] at harmed
  exact ⟨h.replied, Nat.le_trans harmed (Nat.min_le_right _ _),
    Nat.le_trans harmed (Nat.le_trans (Nat.min_le_left _ _) h.lease)⟩

/-- With a control plane whose clock runs like its own, the gateway ends a connection by the
    session's deadline. -/
theorem connection_honest {deadline : AccessSessionId → Instant} {now : Instant} {c : Gateway.Live}
    (h : Gateway.Held (Gateway.Honest deadline) now c) : now ≤ deadline c.identity.sessionId := by
  have harmed := h.armed
  rw [h.timer] at harmed
  exact Nat.le_trans harmed (Nat.le_trans (Nat.min_le_left _ _) h.honest)

/-- **Access deadlines nest.** In every state of the desk the deadlines of every session lie within
    its hard deadline and within every grant above it, and so does every lease that a claim or a
    check returns and every certificate that is signed, which is valid for five minutes at most.  In
    every state of a gateway, whatever the replies, a connection is within its last successful check;
    and a turn leaves it alone or renews it by the reply to a check sent no earlier than that one,
    strictly later if its deadline moves on. -/
theorem access_deadlines_nest (config : ServiceConfig) (signer : SignerConfig) {grants : List Grant}
    (hgrants : ValidGrants grants) {start : Instant} {s : State}
    (hreach : Reach config signer (initial grants start) s) :
    (∀ row ∈ s.store.sessions, Nested s.store.grants row) ∧
    (∀ machineId request session, s.held machineId = some (.consume request, session) →
      ∀ (pass : Pass) lease store,
        consume config request session (pass.env s.clock) s.store = .ok (lease, store) →
        Within store.grants session ((pass.env s.clock).later + lease.remainingMs)) ∧
    (∀ machineId connection session, s.held machineId = some (.check connection, session) →
      ∀ (pass : Pass) lease store,
        validation config connection session (pass.env s.clock) s.store = .ok (lease, store) →
        Within store.grants session ((pass.env s.clock).now + lease.remainingMs)) ∧
    (∀ id address marked, s.issuing id = some (.attempted address marked) →
      ∀ response certificate expiresAt,
        sign signer response marked.session marked.authority = .ok (.issued certificate expiresAt) →
        ∃ inspection, response = .received certificate inspection ∧
          Signed marked.session marked.authority inspection expiresAt ∧
          Within s.store.grants marked.session expiresAt) ∧
    ∀ (gateway : Gateway.GatewayConfig) (now : Instant) (replies : Instant → Instant → Lease → Prop)
      (g : Gateway.State), Gateway.Reach gateway replies (Gateway.initial now) g →
      (∀ c ∈ g.connections, OpenWithin replies g.now c) ∧
      (∀ deadline, replies = Gateway.Honest deadline →
        ∀ c ∈ g.connections, g.now ≤ deadline c.identity.sessionId) ∧
      ∀ g', Gateway.Step gateway replies g g' → ∀ c ∈ g.connections, ∀ c' ∈ g'.connections,
        c'.identity.connectionId = c.identity.connectionId →
        c' = c ∨ Gateway.Renewed replies g c c' := by
  have hg : Good s := good_run hgrants hreach
  refine ⟨fun row hm => hg.sound.nested hm, fun machineId request session _ pass lease store hok =>
    claim_within hok, fun machineId connection session _ pass lease store hok => ?_,
    fun id address marked here response certificate expiresAt hsign => hg.signed_within here hsign,
    fun gateway now replies g hrun => ?_⟩
  · simp only [validation, bind_ok_iff, pure_ok_iff, Prod.mk.injEq] at hok
    obtain ⟨_, hvalid, rfl, rfl⟩ := hok
    exact lease_within hvalid
  · have hgood := Gateway.good_run hrun
    refine ⟨fun c hc => open_within (hgood.held c hc), fun deadline hhonest c hc => ?_,
      fun g' hstep c hc c' hc' hid => hstep.renewed hgood hc hc' hid⟩
    subst hhonest
    exact connection_honest (hgood.held c hc)

/-- The deadlines of a session that was admitted, signed for and claimed. -/
theorem access_deadlines_nest_demo :
    (Demo.claimed.store.sessions.map fun row => row.hardDeadline) = [3602000] ∧
    ∀ row ∈ Demo.claimed.store.sessions, Nested Demo.claimed.store.grants row :=
  ⟨by decide +kernel,
    (access_deadlines_nest Access.Demo.config Demo.ca Access.Demo.start_valid.inv.1
      Demo.claimed_reachable).1⟩

end AgentCloud.Access.Desk
