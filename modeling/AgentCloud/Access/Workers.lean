/-
  THE WORKERS of the access service, and that each keeps the discipline.

  `Job` lists every program that may be started: `issue` in the slot of its session, everything
  else in a caller's slot, any number of times and in any order.  The only program with an argument
  in it is `issue`.  What carries it from one transaction to the next is that its slot owns the
  issuance of the session: `Reading` is the session it read, `Marked` the attempted mark that it
  committed and that nobody can have touched, or signed for, since.
-/
import AgentCloud.Access.Discipline

namespace AgentCloud.Access

open Checked Durable

inductive Job (config : ServiceConfig) : Slot → Program Unit → Prop where
  | issue (id : AccessSessionId) : Job config (.issuer id) (issue config id)
  | admitSession (n : Nat) (principal : Principal) (machineId : MachineId) (request : AccessRequest)
      (key : String) :
      Job config (.caller n) (Prog.transact (admitSession config principal machineId request key)).ignore
  | claim (n : Nat) (request : ClaimRequest) : Job config (.caller n) (claim config request).ignore
  | check (n : Nat) (connections : List ConnectionId) :
      Job config (.caller n) (check config connections).ignore
  | close (n : Nat) (request : ConnectionId) (reason : CloseReason) :
      Job config (.caller n) (close config request reason)
  | issueGrant (n : Nat) (principal : Principal) (policy : GrantPolicy) (expiresAt : Instant) :
      Job config (.caller n) (issueGrant principal policy expiresAt)
  | login (n : Nat) (accountId : AccountId) (anchorId : GrantId) :
      Job config (.caller n) (login accountId anchorId)
  | insertRoot (n : Nat) (accountId : AccountId) (policy : GrantPolicy) (expiresAt : Instant) :
      Job config (.caller n) (Prog.transact (insertRoot accountId policy expiresAt))
  | revokeGrant (n : Nat) (principal : Principal) (grantId : GrantId) :
      Job config (.caller n) (Prog.transact (revokeGrant principal grantId))
  | disableCustomer (n : Nat) (accountId : AccountId) (anchorId : GrantId) :
      Job config (.caller n) (Prog.transact (disableCustomer accountId anchorId))
  | renewCustomer (n : Nat) (accountId : AccountId) (anchorId : GrantId) (policy : GrantPolicy)
      (expiresAt : Instant) :
      Job config (.caller n) (Prog.transact (renewCustomer accountId anchorId policy expiresAt))
  | beginRecovery (n : Nat) : Job config (.caller n) (Prog.transact beginRecovery)
  | closeMachineAccess (n : Nat) (accountId : AccountId) (machineId : MachineId) :
      Job config (.caller n) (Prog.transact fun env store => do
        let store ← closeMachineAccess env store accountId machineId
        pure ((), store))

/-- The service: any replies, and nothing but its workers writes the store. -/
def system (config : ServiceConfig) : System interface Slot where
  job := Job config
  other _ _ := False
  allows _ _ _ := True

variable {config : ServiceConfig} {k : Slot} {w : World interface}

/-- Nothing is claimed about the end. -/
abbrev Anyhow {α : Type} : α → World interface → Prop := fun _ _ => True

/-! ## Steps that every program is made of -/

/-- A transaction that keeps the discipline, whatever the worker knows. -/
theorem safe_step {α : Type} {t : Env → Store → Except Fault (α × Store)}
    (h : ∀ store env a s, t env store = .ok (a, s) → StoreStep k store s) :
    Safe signatures.contract k (Ends Anyhow) (Prog.transact (S := interface) t) w :=
  Marks.safe_write fun _ _ _ _ _ _ hok => ⟨h _ _ _ _ hok, trivial⟩

/-- A transaction that only reads. -/
theorem safe_look {α : Type} {t : Env → Store → Except Fault (α × Store)}
    (h : ∀ store env a s, t env store = .ok (a, s) → s = store) :
    Safe signatures.contract k (Ends Anyhow) (Prog.transact (S := interface) t) w :=
  safe_step fun store env a s hok => by
    rw [h store env a s hok]
    exact .refl k store

theorem safe_call {c : Call} (quiet : c.signs = none) :
    Safe signatures.contract k (Ends Anyhow) (Prog.ask (S := interface) c) w :=
  Marks.safe_quiet (by simp [signatures, quiet]) fun _ _ _ _ => trivial

/-! ## Reading a session -/

/-- A row that was read: it is still there, with the columns that never change and, for the owner
    of the session, with its issuance. -/
structure Reading (k : Slot) (session : Session) (v : World interface) : Prop where
  row : ∃ row, getSession v.store session.id = some row ∧ row.fixed = session.fixed ∧
    (k = .issuer session.id → row.issuance = session.issuance)

theorem Reading.rely {session : Session} {v v' : World interface} (h : Reading k session v)
    (hv : signatures.Rely k v v') : Reading k session v' := by
  obtain ⟨row, hrow, hfixed, hown⟩ := h.row
  obtain ⟨row', hrow', hfixed', hown'⟩ := hv.store _ row hrow
  exact ⟨row', hrow', hfixed'.trans hfixed, fun hk => (hown' hk).trans (hown hk)⟩

theorem safe_read {id : AccessSessionId} {t : Env → Store → Except Fault (Session × Store)}
    (h : ∀ env store session s, t env store = .ok (session, s) →
      s = store ∧ getSession store id = some session) :
    Safe signatures.contract k (Ends fun session v => session.id = id ∧ Reading k session v)
      (Prog.transact (S := interface) t) w := by
  refine Marks.safe_write fun v env session s _ _ hok => ?_
  obtain ⟨rfl, hget⟩ := h env v.store session s hok
  have hid : session.id = id := Table.get_key hget
  exact ⟨.refl k _, hid, ⟨session, hid ▸ hget, rfl, fun _ => rfl⟩⟩

theorem safe_readSession (id : AccessSessionId) :
    Safe signatures.contract k (Ends fun session v => session.id = id ∧ Reading k session v)
      (readSession id) w := by
  refine safe_read fun env store session s hok => ?_
  simp only [bind_ok_iff, present_ok_iff, pure_ok_iff, Prod.mk.injEq] at hok
  obtain ⟨row, hget, rfl, rfl⟩ := hok
  exact ⟨rfl, hget⟩

theorem safe_lockedRead (id : AccessSessionId) :
    Safe signatures.contract k (Ends fun session v => session.id = id ∧ Reading k session v)
      (lockedRead id) w := by
  refine safe_read fun env store session s hok => ?_
  simp only [bind_ok_iff, refuse_ok_iff, present_ok_iff, pure_ok_iff, Prod.mk.injEq] at hok
  obtain ⟨_, -, row, hget, rfl, rfl⟩ := hok
  exact ⟨rfl, hget⟩

/-! ## Callers -/

theorem safe_insertGrant {grant : Grant} :
    Safe signatures.contract k (Ends Anyhow) (Prog.transact (S := interface) fun _ store => do
      let grants ← insertGrant store.grants grant
      pure ((), { store with grants })) w := by
  refine safe_step fun store env a s hok => ?_
  simp only [bind_ok_iff, pure_ok_iff, Prod.mk.injEq] at hok
  obtain ⟨grants, hinsert, -, rfl⟩ := hok
  exact storeStep_grants (grantStep_insert hinsert)

theorem safe_issueGrant (principal : Principal) (policy : GrantPolicy) (expiresAt : Instant) :
    Safe signatures.contract k (Ends Anyhow) (issueGrant principal policy expiresAt) w := by
  refine Safe.seq (safe_look fun store env a s hok => ?_) fun grant v _ => safe_insertGrant
  simp only [bind_ok_iff, pure_ok_iff, Prod.mk.injEq] at hok
  obtain ⟨_, -, -, rfl⟩ := hok
  rfl

theorem safe_login (accountId : AccountId) (anchorId : GrantId) :
    Safe signatures.contract k (Ends Anyhow) (login accountId anchorId) w := by
  refine Safe.seq (safe_look fun store env a s hok => ?_) fun grant v _ => safe_insertGrant
  simp only [bind_ok_iff, pure_ok_iff, Prod.mk.injEq] at hok
  obtain ⟨_, -, _, -, -, rfl⟩ := hok
  rfl

theorem step_insertRoot {accountId : AccountId} {policy : GrantPolicy} {expiresAt : Instant}
    {env : Env} {store s : Store} {a : Unit}
    (h : insertRoot accountId policy expiresAt env store = .ok (a, s)) :
    s.sessions = store.sessions ∧ GrantStep store.grants s.grants := by
  simp only [insertRoot, bind_ok_iff, pure_ok_iff, Prod.mk.injEq] at h
  obtain ⟨grants, hinsert, -, rfl⟩ := h
  exact ⟨rfl, grantStep_insert hinsert⟩

theorem step_revokeGrant {principal : Principal} {grantId : GrantId} {env : Env} {store s : Store}
    {a : Unit} (h : revokeGrant principal grantId env store = .ok (a, s)) : StoreStep k store s := by
  simp only [revokeGrant, bind_ok_iff, pure_ok_iff, Prod.mk.injEq, Prod.exists] at h
  obtain ⟨_, -, accountId, grants, hrevoked, closed, hclose, -, rfl⟩ := h
  obtain ⟨rfl, -⟩ := revokedGrants_ok hrevoked
  exact storeStep_closeGrantAccess (grantStep_markRevoked _ _ _) hclose

theorem step_retireCustomer {accountId : AccountId} {anchorId : GrantId} {env : Env}
    {store s : Store} (h : retireCustomer env store accountId anchorId = .ok s) :
    StoreStep k store s := storeStep_closeGrantAccess (grantStep_retireAnchor _ _) h

/-- A transaction followed by one that only writes grants. -/
theorem StoreStep.then_grants {store mid s : Store} (h : StoreStep k store mid)
    (hsessions : s.sessions = mid.sessions) (hgrants : GrantStep mid.grants s.grants) :
    StoreStep k store s := by
  refine ⟨⟨h.grants.grows.trans hgrants.grows, fun hv => hgrants.valid (h.grants.valid hv)⟩,
    fun id row hrow => ?_, fun hk => hsessions ▸ h.keys hk⟩
  obtain ⟨row', hrow', hstep⟩ := h.rows id row hrow
  exact ⟨row', by rwa [getSession, hsessions], hstep⟩

theorem step_admitSession {principal : Principal} {machineId : MachineId} {request : AccessRequest}
    {key : String} {env : Env} {store s : Store} {session : Session}
    (h : admitSession config principal machineId request key env store = .ok (session, s)) :
    StoreStep k store s := by
  simp only [admitSession, bind_ok_iff] at h
  obtain ⟨_, -, _, -, authority, -, h⟩ := h
  split at h
  · simp only [bind_ok_iff, pure_ok_iff, Prod.mk.injEq] at h
    obtain ⟨_, -, -, rfl⟩ := h
    exact .refl k store
  · simp only [newAdmission, bind_ok_iff, refuse_ok_iff, pure_ok_iff, Prod.mk.injEq] at h
    obtain ⟨context, -, _, -, _, -, _, hticket, _, hid, _, -, rfl, rfl⟩ := h
    refine ⟨GrantStep.refl _, fun id row hrow => ⟨row, ?_, .refl _ row⟩, fun hk => ⟨?_, ?_⟩⟩
    · simp only [getSession, Table.get_append] at hrow ⊢
      simp [hrow]
    · exact hk.ids.insert (by simpa [getSession] using hid)
    · refine hk.tickets.insert (Table.get_eq_none.mpr fun row hm heq => hticket ⟨row, hm, heq⟩)

theorem step_setConnection {id : AccessSessionId} {connection : Connection} {env : Env}
    {store s : Store} (h : setConnection env store id connection = .ok s)
    (hopen : ∀ claim, connection ≠ .claimed claim) : StoreStep k store s :=
  storeStep_setConnection h fun _ claim _ hclaim => absurd hclaim (hopen claim)

theorem step_closeConnection {request : ConnectionId} {reason : CloseReason} {session : Session}
    {env : Env} {store s : Store} {a : Unit}
    (h : closeConnection request reason session env store = .ok (a, s)) : StoreStep k store s := by
  simp only [closeConnection, bind_ok_iff] at h
  obtain ⟨_, -, _, -, latest, -, prior, -, _, -, h⟩ := h
  split at h
  · simp only [pure_ok_iff, Prod.mk.injEq] at h
    exact h.2 ▸ .refl k store
  · simp only [bind_ok_iff, pure_ok_iff, Prod.mk.injEq] at h
    obtain ⟨s', hset, -, rfl⟩ := h
    exact step_setConnection hset fun claim hclaim => by cases hclaim

theorem currentContext_loads {env : Env} {store : Store} {session : Session} {context : Context}
    (h : currentContext config env store session = .ok context) :
    loadAuthority store.grants env.now session.grantId = .ok context.authority := by
  simp only [currentContext, bind_ok_iff, pure_ok_iff] at h
  obtain ⟨_, hcurrent, _, -, rfl⟩ := h
  exact current_loads hcurrent

/-- The grant of a row that was read is the grant of the row. -/
theorem Reading.grantId_eq {session row : Session} {v : World interface} (h : Reading k session v)
    (hrow : getSession v.store session.id = some row) : row.grantId = session.grantId := by
  obtain ⟨found, hfound, hfixed, -⟩ := h.row
  obtain rfl : row = found := Option.some.inj (hrow.symm.trans hfound)
  show row.fixed.grantId = session.fixed.grantId
  rw [hfixed]

theorem safe_consume {request : ClaimRequest} {session : Session} (h : Reading k session w) :
    Safe signatures.contract k (Ends Anyhow) (Prog.transact (S := interface) (consume config request session))
      w := by
  refine Marks.safe_write fun v env lease s hv _ hok => ⟨?_, trivial⟩
  simp only [consume, bind_ok_iff, pure_ok_iff, Prod.mk.injEq] at hok
  obtain ⟨context, hcontext, _, -, s', hset, _, -, -, rfl⟩ := hok
  refine storeStep_setConnection hset fun row claim hrow _ => ?_
  rw [(h.rely hv).grantId_eq hrow]
  exact ⟨env.now, context.authority, currentContext_loads hcontext⟩

theorem safe_claim (request : ClaimRequest) :
    Safe signatures.contract k (Ends Anyhow) (claim config request) w := by
  refine Safe.seq (Q := Anyhow) (safe_look fun store env a s hok => ?_) fun original _ _ => ?_
  · simp only [bind_ok_iff, present_ok_iff, pure_ok_iff, Prod.mk.injEq] at hok
    obtain ⟨_, -, -, rfl⟩ := hok
    rfl
  refine Safe.seq (Q := Anyhow) (safe_look fun store env a s hok => ?_) fun context _ _ => ?_
  · simp only [bind_ok_iff, pure_ok_iff, Prod.mk.injEq] at hok
    obtain ⟨_, -, _, -, -, rfl⟩ := hok
    rfl
  refine Safe.seq (safe_call rfl) fun network _ _ => ?_
  refine Safe.seq (Safe.ofExcept (Q := Anyhow) fun _ _ => trivial) fun _ _ _ => ?_
  refine Safe.seq (safe_call rfl) fun observed _ _ => ?_
  refine Safe.seq (Safe.ofExcept (Q := Anyhow) fun _ _ => trivial) fun address _ _ => ?_
  refine Safe.seq (Safe.ofExcept (Q := Anyhow) fun _ _ => trivial) fun _ _ _ => ?_
  exact Safe.seq (safe_lockedRead original.id) fun session v hread => safe_consume hread.2

theorem safe_checkOne (connection : ConnectionId) :
    Safe signatures.contract k (Ends Anyhow) (checkOne config connection) w := by
  refine Safe.recover ?_ fun fault v => ?_
  · refine Safe.seq (safe_readSession connection.sessionId) fun _ _ _ => ?_
    refine Safe.seq (safe_lockedRead connection.sessionId) fun session _ _ => ?_
    refine Safe.seq (Q := Anyhow) (safe_look fun store env a s hok => ?_) fun lease _ _ => ?_
    · simp only [bind_ok_iff, pure_ok_iff, Prod.mk.injEq] at hok
      obtain ⟨_, -, -, rfl⟩ := hok
      rfl
    · exact Safe.ends trivial
  · cases fault with
    | cloud failure => exact Safe.ends trivial
    | other message => trivial

theorem safe_check (connections : List ConnectionId) :
    Safe signatures.contract k (Ends Anyhow) (check config connections) w := by
  induction connections generalizing w with
  | nil => exact Safe.ends trivial
  | cons connection connections ih =>
    refine Safe.seq (safe_checkOne connection) fun lease _ _ => ?_
    exact Safe.seq ih fun leases _ _ => Safe.ends trivial

theorem safe_close (request : ConnectionId) (reason : CloseReason) :
    Safe signatures.contract k (Ends Anyhow) (close config request reason) w := by
  refine Safe.seq (safe_readSession request.sessionId) fun session _ _ => ?_
  refine Safe.seq (Safe.ofExcept (Q := Anyhow) fun _ _ => trivial) fun _ _ _ => ?_
  exact safe_step fun _ _ _ _ hok => step_closeConnection hok

/-! ## The issuer -/

/-- The attempted mark of an issuer: committed, still there, and not yet signed for. -/
structure Marked (id : AccessSessionId) (marked : Attempt) (v : World interface) : Prop where
  id_eq : marked.session.id = id
  recorded : AttemptRecorded v.store marked.session
  unsigned : signs v.log id = 0

theorem Marked.rely {id : AccessSessionId} {marked : Attempt} {v v' : World interface}
    (h : Marked id marked v) (hv : signatures.Rely (.issuer id) v v') : Marked id marked v' := by
  obtain ⟨row, attemptedAt, hrow, hissuance, hgiven⟩ := h.recorded
  obtain ⟨row', hrow', -, hown⟩ := hv.store _ row hrow
  have hkept := hown (by rw [h.id_eq])
  exact ⟨h.id_eq, ⟨row', attemptedAt, hrow', hkept.trans hissuance, hgiven⟩,
    (hv.log id rfl).trans h.unsigned⟩

variable {id : AccessSessionId}

theorem step_giveUp {α : Type} {env : Env} {store s : Store} {session : Session}
    {reason : UnavailableReason} {a : Option α} (hid : session.id = id)
    (h : giveUp env store session reason = .ok (a, s)) :
    a = none ∧ StoreStep (.issuer id) store s := by
  simp only [giveUp, bind_ok_iff, pure_ok_iff, Prod.mk.injEq] at h
  obtain ⟨s', hset, rfl, rfl⟩ := h
  rw [hid] at hset
  exact ⟨rfl, storeStep_setIssuance hset fun _ _ _ hissued => by cases hissued⟩

theorem caught_ok {α : Type} {r : Except Fault α} {a : α} (h : caught r = .ok (.ok a)) :
    r = .ok a := by
  cases r with
  | ok b => simpa [caught] using h
  | error fault => cases fault <;> simp [caught] at h

theorem step_prepare {session : Session} {env : Env} {store s : Store} {context : Option Context}
    (hid : session.id = id) (h : prepare config session env store = .ok (context, s)) :
    StoreStep (.issuer id) store s := by
  rw [prepare] at h
  split at h
  · exact (step_giveUp hid h).2
  · split at h
    · exact (step_giveUp hid h).2
    · obtain ⟨tried, -, h⟩ := bind_ok_iff.mp h
      cases tried with
      | ok context =>
        simp only [pure_ok_iff, Prod.mk.injEq] at h
        exact h.2 ▸ .refl _ store
      | error failure => exact (step_giveUp hid h).2
  · simp only [pure_ok_iff, Prod.mk.injEq] at h
    exact h.2 ▸ .refl _ store

theorem safe_observeAddress (context : Context) :
    Safe signatures.contract (.issuer id) (Ends Anyhow) (observeAddress id context) w := by
  refine Safe.recover ?_ fun fault v => ?_
  · refine Safe.seq (safe_call rfl) fun network _ _ => ?_
    refine Safe.seq (Safe.ofExcept (Q := Anyhow) fun _ _ => trivial) fun _ _ _ => ?_
    refine Safe.seq (safe_call rfl) fun observed _ _ => ?_
    refine Safe.seq (Safe.ofExcept (Q := Anyhow) fun _ _ => trivial) fun address _ _ => ?_
    exact Safe.ends trivial
  · split
    · exact Safe.ends trivial
    · refine Safe.seq (safe_lockedRead id) fun session v hread => ?_
      exact safe_step fun _ _ _ _ hok => (step_giveUp hread.1 hok).2

/-- A pending session, as its issuer read it, has not been signed for. -/
theorem Reading.unsigned {session : Session} {v : World interface}
    (h : Reading (.issuer session.id) session v) (hvalid : Valid v)
    (hpending : session.issuance = .pending) : signs v.log session.id = 0 := by
  refine hvalid.count_eq_zero fun c hc hmark => ?_
  obtain ⟨asked, hasked, hid⟩ := Option.map_eq_some_iff.mp hc
  obtain ⟨row, hrow, hmarked⟩ := hmark asked hasked
  obtain ⟨found, hfound, -, hown⟩ := h.row
  rw [hid, hfound, Option.some.injEq] at hrow
  exact hmarked (hrow ▸ (hown rfl).trans hpending)

/-- The row of a session after its issuance was set. -/
theorem getSession_setIssuance {env : Env} {store s : Store} {issuance : Issuance} {row : Session}
    (h : setIssuance env store id issuance = .ok s) (hrow : getSession store id = some row) :
    getSession s id = some { row with issuance } := by
  obtain ⟨-, hsessions, -⟩ := updateSessions_ok h
  have hid : row.id = id := Table.get_key hrow
  rw [getSession, hsessions, Table.get_map fun old _ => by split <;> rfl]
  simp only [getSession] at hrow
  simp [hrow, hid]

theorem safe_attempt {session : Session} (hid : session.id = id)
    (hread : Reading (.issuer id) session w) :
    Safe signatures.contract (.issuer id) (Ends fun marked v => ∀ m, marked = some m → Marked id m v)
      (Prog.transact (S := interface) (attempt config session)) w := by
  subst hid
  refine Marks.safe_write fun v env marked s hv hvalid hok => ?_
  obtain ⟨tried, -, h⟩ := bind_ok_iff.mp hok
  cases tried with
  | error failure =>
    obtain ⟨rfl, hstep⟩ := step_giveUp rfl h
    exact ⟨hstep, fun m hm => by cases hm⟩
  | ok context =>
    simp only at h
    split at h
    · simp only [pure_ok_iff, Prod.mk.injEq] at h
      obtain ⟨rfl, rfl⟩ := h
      exact ⟨.refl _ _, fun m hm => by cases hm⟩
    · next hfree =>
      simp only [not_or, not_not] at hfree
      split at h
      · obtain ⟨rfl, hstep⟩ := step_giveUp rfl h
        exact ⟨hstep, fun m hm => by cases hm⟩
      · simp only [bind_ok_iff, pure_ok_iff, Prod.mk.injEq] at h
        obtain ⟨s', hset, rfl, rfl⟩ := h
        have hstep := storeStep_setIssuance hset fun _ _ _ hissued => by cases hissued
        obtain ⟨row, hrow, -⟩ := (hread.rely hv).row
        refine ⟨hstep, fun m hm => ?_⟩
        obtain rfl := Option.some.inj hm
        exact ⟨rfl, ⟨_, _, getSession_setIssuance hset hrow, rfl, rfl⟩,
          (hread.rely hv).unsigned hvalid hfree.2⟩

/-- The one signature: of a mark that is still committed and was not signed for. -/
theorem safe_sign {marked : Attempt} (h : Marked id marked w) :
    Safe signatures.contract (.issuer id) (Ends Anyhow)
      (Prog.ask (S := interface) (.sign marked.session marked.authority)) w := by
  refine Marks.safe_effect (x := id) (by simp [signatures, Call.signs, h.id_eq]) rfl fun v hv _ => ?_
  have hmarked := h.rely hv
  obtain ⟨row, attemptedAt, hrow, hissuance, hgiven⟩ := hmarked.recorded
  refine ⟨hmarked.unsigned, fun session hsession => ?_, fun session hsession => ?_,
    fun _ => trivial⟩
  · obtain rfl := Option.some.inj hsession
    exact ⟨row, hrow, by simp [hissuance]⟩
  · obtain rfl := Option.some.inj hsession
    exact hmarked.recorded

theorem safe_publish {session : Session} {address : String} {result : SignResult}
    (hid : session.id = id) (hread : Reading (.issuer id) session w) :
    Safe signatures.contract (.issuer id) (Ends Anyhow)
      (Prog.transact (S := interface) (publish config address result session)) w := by
  subst hid
  refine Marks.safe_write fun v env a s hv _ hok => ⟨?_, trivial⟩
  rw [publish] at hok
  split at hok
  · obtain ⟨tried, htried, h⟩ := bind_ok_iff.mp hok
    cases tried with
    | error failure =>
      simp only [bind_ok_iff, pure_ok_iff, Prod.mk.injEq] at h
      obtain ⟨s', hset, -, rfl⟩ := h
      exact storeStep_setIssuance hset fun _ _ _ hissued => by cases hissued
    | ok context =>
      simp only [bind_ok_iff, pure_ok_iff, Prod.mk.injEq] at h
      obtain ⟨s', hset, -, rfl⟩ := h
      refine storeStep_setIssuance hset fun row _ hrow _ => ?_
      rw [(hread.rely hv).grantId_eq hrow]
      exact ⟨env.now, context.authority, currentContext_loads (caught_ok htried)⟩
  · simp only [pure_ok_iff, Prod.mk.injEq] at hok
    exact hok.2 ▸ .refl _ _

theorem safe_signAndPublish {address : String} {marked : Attempt} (h : Marked id marked w) :
    Safe signatures.contract (.issuer id) (Ends Anyhow) (signAndPublish config id address marked) w := by
  have hsigner : Safe signatures.contract (.issuer id) (Ends fun _ v => Marked id marked v)
      (Prog.ask (S := interface) .openSigner) w :=
    Marks.safe_quiet rfl fun v r hv _ => by
      have hmarked := h.rely hv
      exact ⟨hmarked.id_eq, hmarked.recorded,
        (Marks.count_quiet (by simp [signatures, Call.signs])).trans hmarked.unsigned⟩
  refine Safe.seq hsigner fun signer v hv => ?_
  refine Safe.seq (Q := fun _ v => Marked id marked v) (Safe.ofExcept fun _ _ => hv) fun _ v hv => ?_
  refine Safe.seq (safe_sign hv) fun reply _ _ => ?_
  refine Safe.seq (Safe.ofExcept (Q := Anyhow) fun _ _ => trivial) fun result _ _ => ?_
  exact Safe.seq (safe_lockedRead id) fun session v hread => safe_publish hread.1 hread.2

theorem safe_attemptAndSign (address : String) :
    Safe signatures.contract (.issuer id) (Ends Anyhow) (attemptAndSign config id address) w := by
  refine Safe.seq (safe_lockedRead id) fun session v hread => ?_
  refine Safe.seq (safe_attempt hread.1 hread.2) fun marked v hmarked => ?_
  cases marked with
  | none => exact Safe.ends trivial
  | some m => exact safe_signAndPublish (hmarked m rfl)

theorem safe_issue : Safe signatures.contract (.issuer id) (Ends Anyhow) (issue config id) w := by
  refine Safe.seq (safe_readSession id) fun session v _ => ?_
  split
  · refine Safe.seq (safe_lockedRead id) fun session v hread => ?_
    refine Safe.seq (safe_step fun _ _ _ _ hok => step_prepare hread.1 hok) fun context v _ => ?_
    cases context with
    | none => exact Safe.ends trivial
    | some context =>
      refine Safe.seq (safe_observeAddress context) fun address v _ => ?_
      cases address with
      | none => exact Safe.ends trivial
      | some address => exact safe_attemptAndSign address
  · exact Safe.ends trivial

/-! ## The discipline -/

theorem anyhow {p : Program Unit} (h : Safe signatures.contract k (Ends Anyhow) p w) :
    Safe signatures.contract k (fun _ _ => True) p w := h.mono fun _ _ _ => trivial

theorem safe_job {p : Program Unit} (h : Job config k p) :
    Safe signatures.contract k (fun _ _ => True) p w := by
  cases h with
  | issue id => exact anyhow safe_issue
  | admitSession n principal machineId request key =>
    exact Safe.ignore (safe_step (w := w) fun _ _ _ _ hok => step_admitSession hok)
  | claim n request => exact Safe.ignore (safe_claim request)
  | check n connections => exact Safe.ignore (safe_check connections)
  | close n request reason => exact anyhow (safe_close request reason)
  | issueGrant n principal policy expiresAt => exact anyhow (safe_issueGrant principal policy expiresAt)
  | login n accountId anchorId => exact anyhow (safe_login accountId anchorId)
  | insertRoot n accountId policy expiresAt =>
    refine anyhow (safe_step fun store env a s hok => ?_)
    obtain ⟨hsessions, hgrants⟩ := step_insertRoot hok
    exact (StoreStep.refl _ store).then_grants hsessions hgrants
  | revokeGrant n principal grantId => exact anyhow (safe_step fun _ _ _ _ hok => step_revokeGrant hok)
  | disableCustomer n accountId anchorId =>
    refine anyhow (safe_step fun store env a s hok => ?_)
    simp only [disableCustomer, bind_ok_iff, pure_ok_iff, Prod.mk.injEq] at hok
    obtain ⟨_, -, s', hretire, -, rfl⟩ := hok
    exact step_retireCustomer hretire
  | renewCustomer n accountId anchorId policy expiresAt =>
    refine anyhow (safe_step fun store env a s hok => ?_)
    simp only [renewCustomer, bind_ok_iff] at hok
    obtain ⟨_, -, _, -, mid, hretire, hok⟩ := hok
    obtain ⟨hsessions, hgrants⟩ := step_insertRoot hok
    exact (step_retireCustomer hretire).then_grants hsessions hgrants
  | beginRecovery n =>
    refine anyhow (safe_step fun store env a s hok => ?_)
    simp only [beginRecovery, bind_ok_iff, pure_ok_iff, Prod.mk.injEq] at hok
    obtain ⟨s', hclose, -, rfl⟩ := hok
    exact storeStep_close (grantStep_revokeAll _) hclose
  | closeMachineAccess n accountId machineId =>
    refine anyhow (safe_step fun store env a s hok => ?_)
    simp only [bind_ok_iff, pure_ok_iff, Prod.mk.injEq] at hok
    obtain ⟨s', hclose, -, rfl⟩ := hok
    exact storeStep_close (GrantStep.refl _) hclose

/-- **The access service keeps its discipline.** -/
theorem access_discipline (config : ServiceConfig) : Discipline (system config) signatures.contract where
  job_safe h _ := safe_job h
  other_valid _ h := h.elim
  other_rely _ h := h.elim
  allows _ _ := trivial

end AgentCloud.Access
