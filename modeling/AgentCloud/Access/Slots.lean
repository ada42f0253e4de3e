/-
  EVERY BLOCK KEEPS THE BOUND, and what follows for the runs of the locked service.

  A block writes nothing, or updates the one session that it read under the lock of its machine
  (`Writes`); a revocation updates sessions whose grants it revokes; an admission adds one row.
  So every job of `lockedSystem` is safe for `lockContract`, and the theorem is read off a run.
-/
import AgentCloud.Access.Concurrency
import AgentCloud.Access.Uniqueness

namespace AgentCloud.Access

open Checked Durable

section

variable {config : ServiceConfig} {k : Holder} {machineId : MachineId} {w : World boardInterface}

/-- Nothing is claimed about the end. -/
abbrev Whatever {α : Type} : α → World boardInterface → Prop := fun _ _ => True

/-! ## Updates -/

theorem sessionKeys_map {f : Session → Session} {rows : List Session}
    (hf : ∀ row ∈ rows, (f row).fixed = row.fixed) (h : SessionKeys rows) :
    SessionKeys (rows.map f) := by
  have hmap : ∀ key : Session → String, (∀ row, key row.fixed = key row) →
      (rows.map f).map key = rows.map key := by
    intro key hkey
    rw [List.map_map]
    refine List.map_congr_left fun row hm => ?_
    show key (f row) = key row
    rw [← hkey (f row), ← hkey row, hf row hm]
  refine ⟨?_, ?_⟩
  · rw [Table.Keyed, hmap _ fun _ => rfl]
    exact h.ids
  · rw [Table.Keyed, hmap _ fun _ => rfl]
    exact h.tickets

/-- A transaction that writes grants and then updates sessions, each under the lock of its machine
    or with its grant revoked. -/
theorem change_update {board : Board} {pass : Pass} {grants : List Grant} {store : Store}
    {selects : Session → Bool} {f : Session → Session} (hgrants : GrantStep board.store.grants grants)
    (h : updateSessions (pass.env board.clock).clock selects f { board.store with grants } = .ok store)
    (howner : ∀ row ∈ board.store.sessions, selects row = true →
      k = .machine row.machineId ∨ Revoked grants row.grantId) :
    Change k board { board with store, clock := (pass.env board.clock).later } := by
  simp only [updateSessions, bind_ok_iff, refuse_ok_iff, pure_ok_iff] at h
  obtain ⟨_, hguard, _, -, rfl⟩ := h
  have hlater : board.clock ≤ (pass.env board.clock).later := by
    simp only [Pass.env]
    exact Nat.le_trans (Nat.le_trans (Nat.le_add_right _ _) (Nat.le_add_right _ _))
      (Nat.le_add_right _ _)
  have htrigger : board.clock ≤ (pass.env board.clock).clock := by
    simp only [Pass.env]
    exact Nat.le_trans (Nat.le_add_right _ _) (Nat.le_add_right _ _)
  have htimely : ∀ row ∈ board.store.sessions, selects row = true →
      Timely (pass.env board.clock).clock row (f row) :=
    fun row hm hs => timely_of_guard (guardEach_each hguard row hm hs)
  refine ⟨hlater, hgrants, fun hkeys => sessionKeys_map (fun row hm => ?_) hkeys,
    .inl ⟨fun row => if selects row then f row else row, rfl, fun row hm => ?_⟩, [], by simp, by simp⟩
  · split
    · next hs => exact (htimely row hm hs).moves.fixed
    · rfl
  · show RowChange k _ _ row (if selects row then f row else row)
    split
    · next hs => exact ⟨.inr ⟨_, htrigger, htimely row hm hs⟩, .inr (howner row hm hs)⟩
    · exact .refl row

/-- A transaction that writes grants alone. -/
theorem change_grants {board : Board} {pass : Pass} {grants : List Grant}
    (hgrants : GrantStep board.store.grants grants) :
    Change k board
      { board with store := { board.store with grants }, clock := (pass.env board.clock).later } := by
  refine ⟨?_, hgrants, fun h => h, .inl ⟨fun row => row, by simp, fun row _ => .refl row⟩, [],
    by simp, by simp⟩
  simp only [Pass.env]
  exact Nat.le_trans (Nat.le_trans (Nat.le_add_right _ _) (Nat.le_add_right _ _))
    (Nat.le_add_right _ _)

/-! ## Blocks -/

/-- What a block does to the store: nothing, or one update of the session that it read. -/
def Writes (id : AccessSessionId) (env : Env) (store s : Store) : Prop :=
  s = store ∨ ∃ f, updateSessions env.clock (fun row => row.id = id) f store = .ok s

/-- What a block of an issuer does to the store: nothing, or one new issuance. -/
def Reissues (id : AccessSessionId) (env : Env) (store s : Store) : Prop :=
  s = store ∨ ∃ issuance, setIssuance env store id issuance = .ok s

/-- What the other blocks do to the store: nothing, or one new connection. -/
def Reconnects (id : AccessSessionId) (env : Env) (store s : Store) : Prop :=
  s = store ∨ ∃ connection, setConnection env store id connection = .ok s

section

variable {session : Session} {env : Env} {store s : Store}

theorem Reissues.writes {id : AccessSessionId} (h : Reissues id env store s) :
    Writes id env store s :=
  h.imp_right fun ⟨_, hset⟩ => ⟨_, hset⟩

theorem Reconnects.writes {id : AccessSessionId} (h : Reconnects id env store s) :
    Writes id env store s :=
  h.imp_right fun ⟨_, hset⟩ => ⟨_, hset⟩

theorem reissues_giveUp {α : Type} {reason : UnavailableReason} {a : Option α}
    (h : giveUp env store session reason = .ok (a, s)) : Reissues session.id env store s := by
  simp only [giveUp, bind_ok_iff, pure_ok_iff, Prod.mk.injEq] at h
  obtain ⟨s', hset, -, rfl⟩ := h
  exact .inr ⟨_, hset⟩

theorem reissues_prepare {context : Option Context}
    (h : prepare config session env store = .ok (context, s)) : Reissues session.id env store s := by
  rw [prepare] at h
  split at h
  · exact reissues_giveUp h
  · split at h
    · exact reissues_giveUp h
    · obtain ⟨tried, -, h⟩ := bind_ok_iff.mp h
      cases tried with
      | ok context =>
        simp only [pure_ok_iff, Prod.mk.injEq] at h
        exact .inl h.2.symm
      | error failure => exact reissues_giveUp h
  · simp only [pure_ok_iff, Prod.mk.injEq] at h
    exact .inl h.2.symm

theorem reissues_attempt {marked : Option Attempt}
    (h : attempt config session env store = .ok (marked, s)) : Reissues session.id env store s := by
  obtain ⟨tried, -, h⟩ := bind_ok_iff.mp h
  cases tried with
  | error failure => exact reissues_giveUp h
  | ok context =>
    simp only at h
    split at h
    · simp only [pure_ok_iff, Prod.mk.injEq] at h
      exact .inl h.2.symm
    · split at h
      · exact reissues_giveUp h
      · simp only [bind_ok_iff, pure_ok_iff, Prod.mk.injEq] at h
        obtain ⟨s', hset, -, rfl⟩ := h
        exact .inr ⟨_, hset⟩

theorem reissues_publish {address : String} {result : SignResult} {a : Unit}
    (h : publish config address result session env store = .ok (a, s)) :
    Reissues session.id env store s := by
  rw [publish] at h
  split at h
  · obtain ⟨tried, -, h⟩ := bind_ok_iff.mp h
    cases tried with
    | error failure =>
      simp only [bind_ok_iff, pure_ok_iff, Prod.mk.injEq] at h
      obtain ⟨s', hset, -, rfl⟩ := h
      exact .inr ⟨_, hset⟩
    | ok context =>
      simp only [bind_ok_iff, pure_ok_iff, Prod.mk.injEq] at h
      obtain ⟨s', hset, -, rfl⟩ := h
      exact .inr ⟨_, hset⟩
  · simp only [pure_ok_iff, Prod.mk.injEq] at h
    exact .inl h.2.symm

theorem reconnects_consume {request : ClaimRequest} {lease : Lease}
    (h : consume config request session env store = .ok (lease, s)) :
    Reconnects session.id env store s := by
  simp only [consume, bind_ok_iff, pure_ok_iff, Prod.mk.injEq] at h
  obtain ⟨context, -, _, -, s', hset, _, -, -, rfl⟩ := h
  exact .inr ⟨_, hset⟩

theorem reconnects_closeConnection {request : ConnectionId} {reason : CloseReason} {a : Unit}
    (h : closeConnection request reason session env store = .ok (a, s)) :
    Reconnects session.id env store s := by
  simp only [closeConnection, bind_ok_iff, present_ok_iff] at h
  obtain ⟨_, -, _, -, latest, hlatest, prior, -, _, -, h⟩ := h
  have hid : latest.id = session.id := Table.get_key hlatest
  split at h
  · simp only [pure_ok_iff, Prod.mk.injEq] at h
    exact .inl h.2.symm
  · simp only [bind_ok_iff, pure_ok_iff, Prod.mk.injEq] at h
    obtain ⟨s', hset, -, rfl⟩ := h
    rw [hid] at hset
    exact .inr ⟨_, hset⟩

end

/-- A session that was read under the lock of its machine. -/
structure Holding (machineId : MachineId) (session : Session) (board : Board) : Prop where
  machine : session.machineId = machineId
  row : ∃ row, getSession board.store session.id = some row ∧ row.fixed = session.fixed ∧
    (row = session ∨ Revoked board.store.grants session.grantId)

theorem Holding.under {session : Session} {board board' : Board}
    (h : Holding machineId session board) (hu : Under (.machine machineId) board board') :
    Holding machineId session board' := by
  obtain ⟨row, hrow, hfixed, hkept⟩ := h.row
  obtain ⟨row', hrow', hfixed', hkept'⟩ := hu.rows _ row hrow
  have hgrant : row.grantId = session.grantId := by
    show row.fixed.grantId = session.fixed.grantId
    rw [hfixed]
  have hmachine : row.machineId = machineId := by
    show row.fixed.machineId = machineId
    rw [hfixed]
    exact h.machine
  refine ⟨h.machine, row', hrow', hfixed'.trans hfixed, ?_⟩
  rcases hkept' (by rw [hmachine]) with rfl | hrevoked
  · rcases hkept with rfl | hrevoked
    · exact .inl rfl
    · exact .inr (hrevoked.grows hu.grants)
  · exact .inr (hgrant ▸ hrevoked)

/-- What a block writes is a change under the lock of its machine. -/
theorem Holding.change {session : Session} {board : Board} {pass : Pass} {s : Store}
    (h : Holding machineId session board) (hb : Bounded board)
    (hw : Writes session.id (pass.env board.clock) board.store s) :
    Change (.machine machineId) board
      { board with store := s, clock := (pass.env board.clock).later } := by
  rcases hw with rfl | ⟨f, hupdate⟩
  · exact change_grants (GrantStep.refl _)
  · refine change_update (GrantStep.refl _) hupdate fun row hm hselected => .inl ?_
    have hid : row.id = session.id := by simpa using hselected
    obtain ⟨found, hfound, hfixed, -⟩ := h.row
    have hget : getSession board.store row.id = some row := hb.keys.ids.get hm
    rw [hid, hfound, Option.some.injEq] at hget
    have hmachine : row.machineId = session.machineId := by
      show row.fixed.machineId = session.fixed.machineId
      rw [← hget, hfixed]
    rw [hmachine, h.machine]

/-! ## Jobs -/

theorem safe_timed {α : Type} {t : Env → Store → Except Fault (α × Store)}
    (h : ∀ (board : Board) (pass : Pass) (a : α) (s : Store), Under k w.store board →
      Bounded board → t (pass.env board.clock) board.store = .ok (a, s) →
      Change k board { board with store := s, clock := (pass.env board.clock).later }) :
    Safe lockContract k (Ends Whatever) (onBoard (Prog.transact t)) w := by
  refine Safe.commit fun v pass a board hv hb hok => ⟨?_, trivial⟩
  obtain ⟨s, ht, rfl⟩ := timed_ok hok
  exact h v.store pass a s hv hb ht

theorem safe_ignore {α : Type} {p : Program α}
    (h : Safe lockContract k (Ends Whatever) (onBoard p) w) :
    Safe lockContract k (Ends Whatever) (onBoard p.ignore) w := by
  rw [Prog.ignore, onBoard_bind]
  exact Safe.seq h fun _ _ _ => Safe.ends trivial

/-- The first half of a block: the session, read under the lock. -/
theorem safe_read_locked (id : AccessSessionId) :
    Safe lockContract (.machine machineId)
      (Ends fun session v => session.machineId = machineId → Holding machineId session v.store)
      (onBoard (lockedRead id)) w := by
  refine Safe.commit fun v pass session board hv hb hok => ?_
  obtain ⟨s, ht, rfl⟩ := timed_ok hok
  simp only [bind_ok_iff, refuse_ok_iff, present_ok_iff, pure_ok_iff, Prod.mk.injEq] at ht
  obtain ⟨_, -, row, hget, rfl, rfl⟩ := ht
  have hid : row.id = id := Table.get_key hget
  exact ⟨change_grants (GrantStep.refl _), fun hmachine =>
    ⟨hmachine, row, by rw [hid]; exact hget, rfl, .inl rfl⟩⟩

theorem safe_underLock {α : Type} {id : AccessSessionId}
    {t : Session → Env → Store → Except Fault (α × Store)}
    (h : ∀ session env store a s, t session env store = .ok (a, s) →
      Writes session.id env store s) :
    Safe lockContract (.machine machineId) (Ends Whatever) (onBoard (underLock machineId id t)) w := by
  rw [underLock, Prog.bind_def, onBoard_bind]
  refine Safe.seq (safe_read_locked id) fun session v hread => ?_
  rw [Prog.bind_def, onBoard_bind]
  refine Safe.seq (Q := fun _ v => Holding machineId session v.store)
    (Safe.ofExcept fun _ hok => hread (by simpa using hok)) fun _ v hholding => ?_
  refine safe_ignore (safe_timed fun board pass a s hv hb hok => ?_)
  exact (hholding.under hv).change hb (h session _ _ a s hok)

/-- A revoked grant does not load. -/
theorem not_revoked {grants : List Grant} {now : Instant} {id : GrantId} {authority : Authority}
    (h : loadAuthority grants now id = .ok authority) : ¬ Revoked grants id := by
  intro hrevoked
  rw [hrevoked.refused now] at h
  cases h

/-- A lease is renewed for a claimed connection whose hard deadline is ahead. -/
theorem validConnection_ok {rows : Rows} {grants : List Grant} {now : Instant} {session : Session}
    {connection : ConnectionId} {lease : Lease}
    (h : validConnection config rows grants now session connection = .ok lease) :
    (∃ authority, loadAuthority grants now session.grantId = .ok authority) ∧
    (∃ claim, session.connection = .claimed claim) ∧ now < session.hardDeadline := by
  simp only [validConnection, bind_ok_iff, present_ok_iff, refuse_ok_iff, Nat.not_le,
    pure_ok_iff] at h
  obtain ⟨context, hcurrent, _, -, target, hleased, _, hexpires, -⟩ := h
  have hload := current_loads hcurrent
  refine ⟨⟨_, hload⟩, ?_, ?_⟩
  · rw [leasedTarget] at hleased
    split at hleased
    · next credential claim _ hclaimed => exact ⟨claim, hclaimed⟩
    · cases hleased
  · rw [loadAuthority_checkedAt hload] at hexpires
    exact Nat.lt_of_lt_of_le hexpires (Nat.min_le_left _ _)

theorem safe_checkBlock (connection : ConnectionId) :
    Safe lockContract (.machine machineId) (Ends Whatever)
      (checkBlock config machineId connection) w := by
  refine Safe.seq (safe_read_locked connection.sessionId) fun session v hread => ?_
  refine Safe.seq (Q := fun _ v => Holding machineId session v.store)
    (Safe.ofExcept fun _ hok => hread (by simpa using hok)) fun _ v hholding => ?_
  refine Safe.seq (Q := Whatever) (Safe.commit fun v' pass lease board hv hb hok => ⟨?_, trivial⟩)
    fun _ _ _ => Safe.ends trivial
  simp only [renewal, bind_ok_iff, pure_ok_iff, Prod.mk.injEq, Prod.exists] at hok
  obtain ⟨_, timedBoard, htimed, rfl, rfl⟩ := hok
  obtain ⟨s, ht, rfl⟩ := timed_ok htimed
  simp only [validation, bind_ok_iff, pure_ok_iff, Prod.mk.injEq] at ht
  obtain ⟨_, hvalid, rfl, rfl⟩ := ht
  obtain ⟨⟨authority, hload⟩, ⟨claim, hclaimed⟩, hdeadline⟩ := validConnection_ok hvalid
  obtain ⟨row, hrow, -, hkept⟩ := (hholding.under hv).row
  -- the grant loads, so nobody closed the session since it was read
  have hsame : row = session := hkept.resolve_right (not_revoked hload)
  subst hsame
  have hbefore : v'.store.clock ≤ (pass.env v'.store.clock).now := Nat.le_add_right _ _
  have hreserved : isReserved v'.store.clock row = true := by
    refine isReserved_iff.mpr ⟨by simp [hclaimed, Connection.isClosed], ?_⟩
    rw [reservedUntil_claimed hclaimed]
    exact Nat.lt_of_le_of_lt hbefore hdeadline
  have hstep : Change (.machine machineId) v'.store
      { v'.store with clock := (pass.env v'.store.clock).later } :=
    change_grants (GrantStep.refl _)
  exact hstep.renew rfl hrow (counted_of_reserved (hb.dated row (Table.get_mem hrow)) hreserved)

/-! ## Grants, and closures -/

/-- A session that `closeGrantAccess` selects is below the grant. -/
theorem revoked_of_selected {grants : List Grant} {accountId : AccountId} {grantId : GrantId}
    (hvalid : ValidGrants grants)
    (hrevoked : ∀ row ∈ grants, row.id = grantId → row.accountId = accountId → row.revoked = true)
    {session : Session}
    (hmem : session.grantId ∈ subtree grants accountId 32
      ((grants.filter fun row => row.id = grantId ∧ row.accountId = accountId).map Grant.id)) :
    Revoked grants session.grantId := by
  obtain ⟨top, htop, hanc⟩ := ancestor_of_mem_subtree hvalid.keyed hmem
  simp only [List.mem_map, List.mem_filter, decide_eq_true_eq] at htop
  obtain ⟨root, ⟨hroot, hid, haccount⟩, rfl⟩ := htop
  exact ⟨root.id, root, hanc, hvalid.keyed.get hroot, hrevoked root hroot hid haccount⟩

theorem change_closeGrantAccess {board : Board} {pass : Pass} {grants : List Grant} {store : Store}
    {accountId : AccountId} {grantId : GrantId} (hgrants : GrantStep board.store.grants grants)
    (hvalid : ValidGrants grants)
    (hrevoked : ∀ row ∈ grants, row.id = grantId → row.accountId = accountId → row.revoked = true)
    (h : closeGrantAccess (pass.env board.clock) { board.store with grants } accountId grantId =
      .ok store) :
    Change k board { board with store, clock := (pass.env board.clock).later } := by
  refine change_update hgrants h fun row _ hselected => .inr ?_
  simp only [decide_eq_true_eq, List.contains_iff_mem] at hselected
  exact revoked_of_selected hvalid hrevoked hselected.2.2

theorem revoked_markRevoked {grants : List Grant} {accountId : AccountId} {grantId : GrantId}
    {now : Instant} {row : Grant} (hm : row ∈ markRevoked grants accountId grantId now)
    (hid : row.id = grantId) (haccount : row.accountId = accountId) : row.revoked = true := by
  obtain ⟨old, -, rfl⟩ := List.mem_map.mp hm
  by_cases hold : old.id = grantId
  · simp only [hold, if_true] at haccount ⊢
    by_cases hmine : old.accountId = accountId
    · simp [hmine, Grant.revoked]
    · simp [hmine] at haccount
  · simp [hold] at hid

theorem change_revokeGrant {principal : Principal} {grantId : GrantId} {board : Board} {pass : Pass}
    {a : Unit} {s : Store} (hb : Bounded board)
    (h : revokeGrant principal grantId (pass.env board.clock) board.store = .ok (a, s)) :
    Change k board { board with store := s, clock := (pass.env board.clock).later } := by
  simp only [revokeGrant, bind_ok_iff, pure_ok_iff, Prod.mk.injEq, Prod.exists] at h
  obtain ⟨_, -, accountId, grants, hrevoked, closed, hclose, -, rfl⟩ := h
  obtain ⟨rfl, -⟩ := revokedGrants_ok hrevoked
  have hstep : GrantStep board.store.grants
      (markRevoked board.store.grants accountId grantId (pass.env board.clock).now) :=
    grantStep_markRevoked _ _ _
  exact change_closeGrantAccess hstep (hstep.valid hb.grants)
    (fun row hm hid haccount => revoked_markRevoked hm hid haccount) hclose

theorem revoked_retireAnchor {grants : List Grant} {anchorId : GrantId} {now : Instant} {row : Grant}
    (hm : row ∈ retireAnchor grants anchorId now) (hid : row.id = anchorId) : row.revoked = true := by
  obtain ⟨old, -, rfl⟩ := List.mem_map.mp hm
  by_cases hold : old.id = anchorId
  · simp [hold, Grant.revoked]
  · simp [hold] at hid

theorem change_retireCustomer {accountId : AccountId} {anchorId : GrantId} {board : Board}
    {pass : Pass} {s : Store} (hb : Bounded board)
    (h : retireCustomer (pass.env board.clock) board.store accountId anchorId = .ok s) :
    Change k board { board with store := s, clock := (pass.env board.clock).later } := by
  have hstep : GrantStep board.store.grants
      (retireAnchor board.store.grants anchorId (pass.env board.clock).now) :=
    grantStep_retireAnchor _ _
  exact change_closeGrantAccess hstep (hstep.valid hb.grants)
    (fun row hm hid _ => revoked_retireAnchor hm hid) h

/-- A change, after which the same transaction writes grants alone. -/
theorem Change.then_grants {before after : Board} (h : Change k before after) {grants : List Grant}
    (hgrants : GrantStep after.store.grants grants) :
    Change k before { after with store := { after.store with grants } } := by
  refine ⟨h.clock, ⟨h.grants.grows.trans hgrants.grows, fun hv => hgrants.valid (h.grants.valid hv)⟩,
    h.keys, ?_, h.renewed⟩
  rcases h.sessions with ⟨f, hsessions, hchanges⟩ | ⟨session, hadmits⟩
  · refine .inl ⟨f, hsessions, fun row hm => ?_⟩
    obtain ⟨htimely, howner⟩ := hchanges row hm
    exact ⟨htimely, howner.imp_right (Or.imp_right fun hr => hr.grows hgrants.grows)⟩
  · exact .inr ⟨session, hadmits.sessions, hadmits.owned, hadmits.dated, hadmits.room⟩

/-- A recovery revokes the grant of every session. -/
theorem Owned.revokeAll {grants : List Grant} {row : Session} (h : Owned grants row) {now : Instant} :
    Revoked (AgentCloud.revokeAll grants now) row.grantId := by
  obtain ⟨grant, hgrant, -⟩ := h
  refine ⟨row.grantId, { grant with revokedAt := grant.revokedAt.or (some now) }, .refl, ?_, ?_⟩
  · rw [AgentCloud.revokeAll, Grant.lookup, Table.get_map fun old _ => (ages_retired now old).id_eq]
    rw [Grant.lookup] at hgrant
    rw [hgrant]
    rfl
  · simp [Grant.revoked]

theorem change_beginRecovery {board : Board} {pass : Pass} {a : Unit} {s : Store} (hb : Bounded board)
    (h : beginRecovery (pass.env board.clock) board.store = .ok (a, s)) :
    Change k board { board with store := s, clock := (pass.env board.clock).later } := by
  simp only [beginRecovery, bind_ok_iff, pure_ok_iff, Prod.mk.injEq] at h
  obtain ⟨closed, hclose, -, rfl⟩ := h
  exact change_update (grantStep_revokeAll _) hclose fun row hm _ =>
    .inr (hb.owned row hm).revokeAll

/-! ## Admissions -/

theorem current_account {rows : Rows} {grants : List Grant} {now : Instant} {scope : Scope}
    {context : Context} (h : current config rows grants now scope = .ok context) :
    context.authority.principal.accountId = scope.accountId := by
  simp only [current, bind_ok_iff, refuse_ok_iff, not_not] at h
  obtain ⟨_, -, authority, -, _, haccount, h⟩ := h
  obtain ⟨_, -, _, -, _, -, pair, -, h⟩ := h
  obtain ⟨_, -, _, -, _, -, _, -, _, -, _, -, owned, -, h⟩ := h
  simp only [pure_ok_iff] at h
  obtain ⟨_, -, rfl⟩ := h
  exact haccount

theorem change_newAdmission {principal : Principal} {request : AccessRequest} {key : String}
    {board : Board} {pass : Pass} {session : Session} {s : Store} (hb : Bounded board)
    (h : newAdmission config (pass.env board.clock) board.store principal machineId request key =
      .ok (session, s)) :
    Change k board { board with store := s, clock := (pass.env board.clock).later } := by
  simp only [newAdmission, bind_ok_iff, refuse_ok_iff, pure_ok_iff, Prod.mk.injEq] at h
  obtain ⟨context, hcurrent, _, -, _, hroom, _, hticket, _, hid, _, -, rfl, rfl⟩ := h
  have hload := current_loads hcurrent
  rw [loadAuthority_checkedAt hload] at hroom
  obtain ⟨haccount, hgrant⟩ := assertAdmissible_ok hb.dated hroom
  obtain ⟨-, row, hrow, hsame⟩ := loadAuthority_leaf hload
  have hnow : board.clock ≤ (pass.env board.clock).now := Nat.le_add_right _ _
  have hlater : (pass.env board.clock).now ≤ (pass.env board.clock).later := by
    simp only [Pass.env]
    exact Nat.le_trans (Nat.le_add_right _ _) (Nat.le_add_right _ _)
  refine ⟨Nat.le_trans hnow hlater, .refl _, fun hkeys => ⟨?_, ?_⟩, .inr ⟨_, rfl, ?_, ?_, ?_⟩, [],
    by simp, by simp⟩
  · exact hkeys.ids.insert (by simpa [getSession] using hid)
  · exact hkeys.tickets.insert
      (Table.get_eq_none.mpr fun row hm heq => hticket ⟨row, hm, heq⟩)
  · exact ⟨row, hrow, hsame.trans (current_account hcurrent)⟩
  · refine ⟨rfl, fun credential hissued => ?_⟩
    cases hissued
  · exact ⟨_, hnow, hlater, haccount, hgrant⟩

theorem change_admitSession {principal : Principal} {request : AccessRequest} {key : String}
    {board : Board} {pass : Pass} {session : Session} {s : Store} (hb : Bounded board)
    (h : admitSession config principal machineId request key (pass.env board.clock) board.store =
      .ok (session, s)) :
    Change k board { board with store := s, clock := (pass.env board.clock).later } := by
  simp only [admitSession, bind_ok_iff] at h
  obtain ⟨_, -, _, -, authority, -, h⟩ := h
  split at h
  · simp only [bind_ok_iff, pure_ok_iff, Prod.mk.injEq] at h
    obtain ⟨_, -, -, rfl⟩ := h
    exact change_grants (GrantStep.refl _)
  · exact change_newAdmission hb h

/-! ## The discipline -/

theorem safe_insertLocked {grant : Grant} :
    Safe lockContract k (Ends Whatever) (onBoard (Prog.transact fun _ store => do
      let grants ← insertGrant store.grants grant
      pure ((), { store with grants }))) w := by
  refine safe_timed fun board pass a s _ _ hok => ?_
  simp only [bind_ok_iff, pure_ok_iff, Prod.mk.injEq] at hok
  obtain ⟨grants, hinsert, -, rfl⟩ := hok
  exact change_grants (grantStep_insert hinsert)

theorem safe_locked_job {p : Prog boardInterface Unit} (h : LockedJob config k p) :
    Safe lockContract k (Ends Whatever) p w := by
  cases h with
  | admitSession machineId principal request key =>
    exact safe_ignore (safe_timed fun board pass session s _ hb hok => change_admitSession hb hok)
  | prepare machineId id => exact safe_underLock fun _ _ _ _ _ h => (reissues_prepare h).writes
  | reject machineId id => exact safe_underLock fun _ _ _ _ _ h => (reissues_giveUp h).writes
  | attempt machineId id => exact safe_underLock fun _ _ _ _ _ h => (reissues_attempt h).writes
  | publish machineId id address result => exact safe_underLock fun _ _ _ _ _ h => (reissues_publish h).writes
  | consume machineId id request => exact safe_underLock fun _ _ _ _ _ h => (reconnects_consume h).writes
  | check machineId connection => exact safe_checkBlock connection
  | close machineId request reason =>
    exact safe_underLock fun _ _ _ _ _ h => (reconnects_closeConnection h).writes
  | closeMachineAccess machineId accountId =>
    refine safe_timed fun board pass a s _ _ hok => ?_
    simp only [bind_ok_iff, pure_ok_iff, Prod.mk.injEq] at hok
    obtain ⟨closed, hclose, -, rfl⟩ := hok
    refine change_update (GrantStep.refl _) hclose fun row _ hselected => .inl ?_
    simp only [decide_eq_true_eq] at hselected
    rw [hselected.2.2]
  | issueGrant n principal policy expiresAt =>
    rw [issueGrant, Prog.bind_def, onBoard_bind]
    refine Safe.seq (safe_timed fun board pass a s _ _ hok => ?_) fun grant v _ => safe_insertLocked
    simp only [bind_ok_iff, pure_ok_iff, Prod.mk.injEq] at hok
    obtain ⟨_, -, -, rfl⟩ := hok
    exact change_grants (GrantStep.refl _)
  | login n accountId anchorId =>
    rw [login, Prog.bind_def, onBoard_bind]
    refine Safe.seq (safe_timed fun board pass a s _ _ hok => ?_) fun grant v _ => safe_insertLocked
    simp only [bind_ok_iff, pure_ok_iff, Prod.mk.injEq] at hok
    obtain ⟨_, -, _, -, -, rfl⟩ := hok
    exact change_grants (GrantStep.refl _)
  | insertRoot n accountId policy expiresAt =>
    refine safe_timed fun board pass a s _ _ hok => ?_
    simp only [insertRoot, bind_ok_iff, pure_ok_iff, Prod.mk.injEq] at hok
    obtain ⟨grants, hinsert, -, rfl⟩ := hok
    exact change_grants (grantStep_insert hinsert)
  | revokeGrant n principal grantId =>
    exact safe_timed fun board pass a s _ hb hok => change_revokeGrant hb hok
  | disableCustomer n accountId anchorId =>
    refine safe_timed fun board pass a s _ hb hok => ?_
    simp only [disableCustomer, bind_ok_iff, pure_ok_iff, Prod.mk.injEq] at hok
    obtain ⟨_, -, s', hretire, -, rfl⟩ := hok
    exact change_retireCustomer hb hretire
  | renewCustomer n accountId anchorId policy expiresAt =>
    refine safe_timed fun board pass a s _ hb hok => ?_
    simp only [renewCustomer, insertRoot, bind_ok_iff, pure_ok_iff, Prod.mk.injEq] at hok
    obtain ⟨_, -, _, -, s', hretire, grants, hinsert, -, rfl⟩ := hok
    exact (change_retireCustomer hb hretire).then_grants (grantStep_insert hinsert)
  | beginRecovery n =>
    exact safe_timed fun board pass a s _ hb hok => change_beginRecovery hb hok

theorem lock_discipline (config : ServiceConfig) :
    Discipline (lockedSystem config) lockContract where
  job_safe h _ := (safe_locked_job h).mono fun _ _ _ => trivial
  other_valid hb h := by
    obtain ⟨passed, rfl⟩ := h
    exact (Change.passes (.anyone 0) _ (Nat.le_add_right _ passed)).bounded hb
  other_rely {k w w'} _ h := by
    obtain ⟨passed, rfl⟩ := h
    exact ⟨Nat.le_add_right _ passed, .refl _, fun _ row hrow =>
      ⟨row, hrow, rfl, fun _ => .inl rfl⟩⟩
  allows _ _ := trivial

/-! ## Runs -/

variable {start : Board}

theorem bounded_start (hempty : start.store.sessions = []) (hgrants : ValidGrants start.store.grants) :
    Bounded start := by
  refine ⟨hgrants, ?_, ?_, ?_, fun id => ?_, fun id => ?_⟩
  · rw [hempty]
    exact ⟨Table.Keyed.nil, Table.Keyed.nil⟩
  · simp [hempty]
  · simp [hempty]
  · simp [hempty, reserving]
  · simp [hempty, reserving]

/-- A row later: if it still reserves a slot, it reserved one all along. -/
structure Later (before after : Board) : Prop where
  clock : before.clock ≤ after.clock
  rows : ∀ id row, getSession before.store id = some row → ∃ row',
    getSession after.store id = some row' ∧
      (isReserved after.clock row' = true → isReserved before.clock row = true)

theorem Change.later {before after : Board} (h : Change k before after) : Later before after := by
  refine ⟨h.clock, fun id row hrow => ?_⟩
  obtain ⟨row', hrow', hchange⟩ := h.row hrow
  exact ⟨row', hrow', hchange.reserved h.clock⟩

theorem Later.trans {a b c : Board} (h : Later a b) (h' : Later b c) : Later a c := by
  refine ⟨Nat.le_trans h.clock h'.clock, fun id row hrow => ?_⟩
  obtain ⟨mid, hmid, hback⟩ := h.rows id row hrow
  obtain ⟨last, hlast, hback'⟩ := h'.rows id mid hmid
  exact ⟨last, hlast, fun hr => hback (hback' hr)⟩

/-- **Run lemma.** -/
theorem later_run {c c' : Config boardInterface Holder}
    (hc : Discipline.InOrder lockContract c) (hreach : (lockedSystem config).Reach c c') :
    Later c.world.store c'.world.store := by
  refine (lock_discipline config).transition (T := fun v w => Later v.store w.store)
    (fun w => (Change.refl (.anyone 0) w.store).later) (fun h h' => h.trans h')
    (fun _ h => h.later) (fun _ h => ?_) hc hreach
  obtain ⟨passed, rfl⟩ := h
  exact (Change.passes (.anyone 0) _ (Nat.le_add_right _ passed)).later

/-- A step issues, claims or renews the session. -/
def Advances (before after : Board) (id : AccessSessionId) : Prop :=
  (∃ row row', getSession before.store id = some row ∧ getSession after.store id = some row' ∧
    Gains row row') ∨
  ∃ ids, after.renewed = before.renewed ++ ids ∧ id ∈ ids

/-- **Step lemma.** What a step advances reserves a slot until then. -/
theorem Change.advances {before after : Board} (h : Change k before after) {id : AccessSessionId}
    {row : Session} (hrow : getSession before.store id = some row)
    (hadvances : Advances before after id) : isReserved before.clock row = true := by
  rcases hadvances with ⟨old, new, hold, hnew, hgains⟩ | ⟨ids, hids, hmem⟩
  · obtain ⟨row', hrow', hchange⟩ := h.row hrow
    obtain rfl : row = old := Option.some.inj (hrow.symm.trans hold)
    obtain rfl : row' = new := Option.some.inj (hrow'.symm.trans hnew)
    exact hchange.gains hgains
  · obtain ⟨added, hadded, hcounted⟩ := h.renewed
    obtain rfl : ids = added := List.append_cancel_left (hids.symm.trans hadded)
    obtain ⟨found, hfound, hreserved, -⟩ := hcounted id hmem
    obtain rfl : row = found := Option.some.inj (hrow.symm.trans hfound)
    exact hreserved

/-- **Access concurrency.**  In every run that begins without sessions, at every instant, at most
    four sessions of a grant and twenty of an account reserve a slot; and a session that any later
    step issues, claims or renews the lease of is counted by an admission at this instant. -/
theorem access_concurrency_bounded (config : ServiceConfig)
    (hempty : start.store.sessions = []) (hgrants : ValidGrants start.store.grants)
    {c : Config boardInterface Holder}
    (hreach : (lockedSystem config).Reach (.idle ⟨start, []⟩) c) :
    (∀ grantId, reserving (fun row => row.grantId = grantId) c.world.store.clock
      c.world.store.store.sessions ≤ 4) ∧
    (∀ accountId, reserving (fun row => row.accountId = accountId) c.world.store.clock
      c.world.store.store.sessions ≤ 20) ∧
    ∀ id row, getSession c.world.store.store id = some row →
      ∀ c₁ c₂, (lockedSystem config).Reach c c₁ → (lockedSystem config).Step c₁ c₂ →
        Advances c₁.world.store c₂.world.store id → Counted c.world.store.clock row := by
  have hin : Discipline.InOrder lockContract c :=
    (lock_discipline config).inOrder (Discipline.inOrder_idle (bounded_start hempty hgrants)) hreach
  refine ⟨hin.1.grant, hin.1.account, fun id row hrow c₁ c₂ hlater hstep hadvances => ?_⟩
  have hin₁ := (lock_discipline config).inOrder hin hlater
  obtain ⟨row₁, hrow₁, hback⟩ := (later_run hin hlater).rows id row hrow
  refine counted_of_reserved (hin.1.dated row (Table.get_mem hrow)) (hback ?_)
  have hnone : ∀ after : Board, after.store = c₁.world.store.store →
      after.renewed = c₁.world.store.renewed → ¬ Advances c₁.world.store after id := by
    intro after hstore hrenewed h
    rcases h with ⟨old, new, hold, hnew, hgains⟩ | ⟨ids, hids, hmem⟩
    · rw [hstore, hold, Option.some.injEq] at hnew
      subst hnew
      rcases hgains with ⟨-, hne⟩ | ⟨-, hne⟩
      · exact absurd rfl hne
      · exact absurd rfl hne
    · rw [hrenewed, List.self_eq_append_right] at hids
      rw [hids] at hmem
      cases hmem
  refine ((lock_discipline config).step hin₁ hstep).2.elim
    (P := fun w => Advances c₁.world.store w.store id → isReserved c₁.world.store.clock row₁ = true)
    (fun h => absurd h (hnone _ rfl rfl)) (fun k h => h.advances hrow₁) (fun h => ?_) hadvances
  obtain ⟨passed, hpassed⟩ := h
  rw [hpassed]
  exact fun h => absurd h (hnone _ rfl rfl)

end

/-! ## One admission -/

namespace Demo

def board : Board := ⟨⟨tree, [], []⟩, 1000, []⟩

def lockedAdmission : Prog boardInterface Unit :=
  onBoard (Prog.transact (admitSession config leaf "mach" ⟨"key", "hash of ticket"⟩
    "request-0001")).ignore

/-- One second passes in every transaction. -/
def pass : Pass := ⟨1000, 0, 0, rows, "grant", "access"⟩

def replyNothing : World boardInterface → (c : Call) → c.Reply
  | _, .checkNetwork => .ok ()
  | _, .observeGuest _ => .ok "192.0.2.7"
  | _, .openSigner => .ok ()
  | _, .sign .. => .ok .unknown

def admittedBoard : World boardInterface :=
  (lockedAdmission.run (fun _ => pass) replyNothing ⟨board, []⟩).2

theorem admittedBoard_reachable :
    (lockedSystem config).Reach (.idle ⟨board, []⟩) (.idle admittedBoard) := by
  have hjob : LockedJob config (.machine "mach") lockedAdmission :=
    .admitSession "mach" leaf ⟨"key", "hash of ticket"⟩ "request-0001"
  exact System.reach_job (lockedSystem config) (Holder.machine "mach") (fun _ => pass) replyNothing
    (fun _ _ => trivial) lockedAdmission ⟨board, []⟩ hjob

end Demo

/-- The admitted session holds the one slot of its grant that is taken. -/
theorem access_concurrency_bounded_demo :
    reserving (fun row => row.grantId = "leaf") Demo.admittedBoard.store.clock
      Demo.admittedBoard.store.store.sessions = 1 ∧
    reserving (fun row => row.grantId = "leaf") Demo.admittedBoard.store.clock
      Demo.admittedBoard.store.store.sessions ≤ 4 :=
  ⟨by decide +kernel,
    (access_concurrency_bounded Demo.config rfl Demo.start_valid.inv.1
      Demo.admittedBoard_reachable).1 "leaf"⟩

end AgentCloud.Access
