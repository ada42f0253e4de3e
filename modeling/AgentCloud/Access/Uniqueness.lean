/-
  ONE SIGNATURE, ONE CLAIM: what an access session can go through in any run.

  The signature is irreversible and happens outside the database, between two transactions, so the
  order is: commit `attempted`, then ask for the signature, then record the outcome.  A worker that
  dies after the mark leaves a session that no later `issue` signs again (it is given up as
  `signing_unknown`).  The claim is kept for ever, also by a closure, so that a second connection
  finds the ticket consumed.
-/
import AgentCloud.Access.Revocation

namespace AgentCloud.Access

open Checked Durable

section

variable {config : ServiceConfig}

/-- **Run lemma.** The claim of a session is kept. -/
theorem claim_run {c c' : Config interface Slot} (hc : Discipline.InOrder signatures.contract c)
    (hreach : (system config).Reach c c') {id : AccessSessionId} {row : Session} {held : Claim}
    (hrow : getSession c.world.store id = some row) (hclaim : row.connection.claim? = some held) :
    ∃ row', getSession c'.world.store id = some row' ∧ row'.connection.claim? = some held := by
  refine Marks.store_invariant (access_discipline config) (fun _ _ h => h)
    (P := fun store => ∃ row', getSession store id = some row' ∧ row'.connection.claim? = some held)
    ?_ hc ⟨row, hrow, hclaim⟩ hreach
  intro k store store' _ hP hstep
  obtain ⟨mid, hmid, hheld⟩ := hP
  obtain ⟨last, hlast, hrowstep⟩ := hstep.rows id mid hmid
  exact ⟨last, hlast, hrowstep.moves.claim_kept hheld⟩

end

/-- **Access-session uniqueness.**  In every run of the service, from any valid store, with any
    number of callers and a death after any action: a session is signed for at most once, and only
    while its attempted mark is committed; a session that is closed, or whose grant is revoked
    anywhere up its chain, is never issued or claimed later; the first claim of a session is its
    only one; and a ticket belongs to one session. -/
theorem access_session_unique (config : ServiceConfig) {start : World interface}
    (hstart : Valid start) {c : Config interface Slot}
    (hreach : (system config).Reach (.idle start) c) :
    (∀ id, signs c.world.log id ≤ 1) ∧
    (∀ c' session authority r, (system config).Step c c' →
      c'.world.log = c.world.log ++ [⟨.sign session authority, r⟩] →
      AttemptRecorded c.world.store session ∧ signs c.world.log session.id = 0) ∧
    (∀ c' id row, (system config).Reach c c' → getSession c.world.store id = some row →
      (row.connection.isClosed = true ∨ Revoked c.world.store.grants row.grantId) →
      ∃ row', getSession c'.world.store id = some row' ∧ Kept row row') ∧
    (∀ c' id row held, (system config).Reach c c' → getSession c.world.store id = some row →
      row.connection.claim? = some held →
      ∃ row', getSession c'.world.store id = some row' ∧ row'.connection.claim? = some held) ∧
    (∀ id id' row row', getSession c.world.store id = some row →
      getSession c.world.store id' = some row' → row.ticketHash = row'.ticketHash → id = id') := by
  have hin : Discipline.InOrder signatures.contract c :=
    (access_discipline config).inOrder (Discipline.inOrder_idle hstart) hreach
  refine ⟨hin.1.once, ?_, ?_, ?_, ?_⟩
  · intro c' session authority r hstep hlog
    have hx : signatures.effect (.sign session authority) = some session.id := rfl
    obtain ⟨hfirst, -, hready⟩ :=
      Marks.marked_first (access_discipline config) (fun h => h.elim) hin hstep hx hlog
    exact ⟨hready session rfl, hfirst⟩
  · intro c' id row hlater hrow hfrozen
    obtain ⟨row', hrow', hkept, -⟩ := frozen_run hin hlater hrow hfrozen
    exact ⟨row', hrow', hkept⟩
  · intro c' id row held hlater hrow hclaim
    exact claim_run hin hlater hrow hclaim
  · intro id id' row row' hrow hrow' hticket
    have hfirst := hin.1.inv.2.tickets.get (Table.get_mem hrow)
    have hsecond := hin.1.inv.2.tickets.get (Table.get_mem hrow')
    rw [← hticket, hfirst, Option.some.injEq] at hsecond
    have hid : row.id = id := Table.get_key hrow
    have hid' : row'.id = id' := Table.get_key hrow'
    rw [← hid, ← hid', hsecond]

/-! ## A session from its admission to its close -/

namespace Demo

def machine : MachineRow :=
  ⟨"mach", "acct", "proj", 3, .allocated "alloc_1" "srv" .running (.ssh 0 "v1" "m0" "boot") .unknown⟩

def rows : Rows :=
  { accounts := ["acct"]
    machines := [machine]
    unverifiedRestores := []
    activeOperations := []
    allocations := [⟨"alloc_1", "acct", .simulated, some "srv", none⟩]
    bootstraps := [⟨"acct", "mach", "alloc_1", 1, "m0", "host-ca"⟩]
    identities := [⟨"alloc_1", some "host-key"⟩]
    resources := [⟨"alloc_1", "acct", .server, .simulated, "srv", none⟩,
      ⟨"alloc_1", "acct", .primaryIp, .simulated, "ip", none⟩] }

/-- The clock of the run stands still at 1000. -/
def moment : Env := { env with later := 1000, clock := 1000, rows }

def reply : World interface → (c : Call) → c.Reply
  | _, .checkNetwork => .ok ()
  | _, .observeGuest _ => .ok "192.0.2.7"
  | _, .openSigner => .ok ()
  | _, .sign .. => .ok (.issued "cert" 60000)

def leaf : Principal := ⟨"acct", "leaf", policy⟩

def admission : Program Unit :=
  (Prog.transact (admitSession config leaf "mach" ⟨"key", "hash of ticket"⟩ "request-0001")).ignore

def connection : ConnectionId := ⟨"access", "instance", "connection"⟩

def admitted : World interface := (admission.run (fun _ => moment) reply start).2
def issued : World interface := ((issue config "access").run (fun _ => moment) reply admitted).2
def ticket : ClaimRequest := ⟨"ticket", "instance", "connection"⟩
def claimed : World interface :=
  (((claim config ticket).ignore).run (fun _ => moment) reply issued).2
def closed : World interface :=
  ((close config connection .clientClosed).run (fun _ => moment) reply claimed).2

theorem closed_reachable : (system config).Reach (.idle start) (.idle closed) := by
  have hjob : ∀ k p w, Job config k p → (system config).Reach (.idle w)
      (.idle (p.run (fun _ => moment) reply w).2) :=
    fun k p w h => System.reach_job _ k _ reply (fun _ _ => trivial) p w h
  have h₁ := hjob (.caller 0) admission start (.admitSession 0 ..)
  have h₂ := hjob (.issuer "access") _ admitted (.issue "access")
  have h₃ := hjob (.caller 0) _ issued (.claim 0 ticket)
  have h₄ := hjob (.caller 0) _ claimed (.close 0 connection .clientClosed)
  exact ((h₁.trans h₂).trans h₃).trans h₄

end Demo

/-- The run signs once, and its session ends closed with its claim. -/
theorem access_session_unique_demo :
    (signs Demo.closed.log "access" = 1 ∧ ∀ row ∈ getSession Demo.closed.store "access",
      row.connection = .closed (some ⟨"instance", "connection", 1000⟩) .clientClosed 1000) ∧
    signs Demo.closed.log "access" ≤ 1 :=
  ⟨by decide +kernel,
    (access_session_unique Demo.config Demo.start_valid Demo.closed_reachable).1 "access"⟩

end AgentCloud.Access
