/-
  WHAT A TRANSACTION AT THE DESK DOES: once for all of them, and what follows from it.

  `Effect` lists what the transactions do to the store: they write grants, admit one session, set one
  half of the session that a block read, or close sessions, each under the lock of its machine or
  with its grant revoked.  `run_effect` is the only place that opens them.  From it:

  * `Sound` stays: every row is as the trigger demands, and ends before its grant does;
  * `Frame`: a session read under a machine lock is still the row when the block gets to its
    transaction, or its grant is revoked; and its issuance is the issuer's own.
-/
import AgentCloud.Access.Desk
import AgentCloud.Access.Guarding
import AgentCloud.Access.Slots

namespace AgentCloud.Access.Desk

open Checked

variable {config : ServiceConfig} {env : Env} {store s s' : Store} {action : Action}
  {clock : Instant} {old new grants : List Grant} {row row' : Session}

/-! ## The invariant of the store -/

/-- An instant within the session, and within every grant that it rests upon. -/
def Within (grants : List Grant) (row : Session) (deadline : Instant) : Prop :=
  deadline ≤ row.hardDeadline ∧ ∀ g grant, Ancestor grants row.grantId g →
    Grant.lookup grants g = some grant → deadline ≤ grant.expiresAt

structure Sound (clock : Instant) (store : Store) : Prop where
  keyed : Table.Keyed Session.id store.sessions
  grants : ValidGrants store.grants
  owned : ∀ row ∈ store.sessions, Owned store.grants row
  guarded : ∀ row ∈ store.sessions, Guarded clock row
  hard : ∀ row ∈ store.sessions, Within store.grants row row.hardDeadline
  receipts : ∀ receipt ∈ store.signingAttempts, ∃ row,
    getSession store receipt.sessionId = some row ∧ row.issuance ≠ .pending

theorem Within.le {earlier later : Instant} (h : Within grants row later) (hle : earlier ≤ later) :
    Within grants row earlier :=
  ⟨Nat.le_trans hle h.1, fun g grant hg hgrant => Nat.le_trans hle (h.2 g grant hg hgrant)⟩

/-- The ancestors of a session's grant keep their expiry. -/
theorem Within.grows {deadline : Instant} (h : Within old row deadline) (howned : Owned old row)
    (hvalid : ValidGrants old) (hgrows : Grows old new) (hfixed : row'.fixed = row.fixed) :
    Within new row' deadline := by
  have hgrantId : row'.grantId = row.grantId := by
    show row'.fixed.grantId = row.fixed.grantId
    rw [hfixed]
  have hhard : row'.hardDeadline = row.hardDeadline := by
    show row'.fixed.hardDeadline = row.fixed.hardDeadline
    rw [hfixed]
  obtain ⟨own, hown, -⟩ := howned
  refine ⟨hhard ▸ h.1, fun g grant hg hgrant => ?_⟩
  rw [hgrantId] at hg
  obtain ⟨hanc, before, hbefore⟩ := hgrows.ancestor_of_new hvalid.parents hown hg
  obtain ⟨after, hafter, hage⟩ := hgrows g before hbefore
  obtain rfl : after = grant := Option.some.inj (hafter.symm.trans hgrant)
  have hexpires : after.expiresAt = before.expiresAt := by rw [← hage.same]
  rw [hexpires]
  exact h.2 g before hanc hbefore

/-- Whatever a grant was loaded with, its ancestors expire no earlier. -/
theorem within_authority {now : Instant} {authority : Authority} {deadline : Instant}
    (hload : loadAuthority grants now row.grantId = .ok authority)
    (hhard : deadline ≤ row.hardDeadline) (hexpires : deadline ≤ authority.expiresAt) :
    Within grants row deadline := by
  refine ⟨hhard, fun g grant hg hgrant => ?_⟩
  obtain ⟨found, hfound, -, -, hle⟩ := loadAuthority_ancestor hload hg
  obtain rfl : found = grant := Option.some.inj (hfound.symm.trans hgrant)
  exact Nat.le_trans hexpires hle

theorem Sound.mono {later : Instant} (h : Sound clock store) (hle : clock ≤ later) :
    Sound later store :=
  ⟨h.keyed, h.grants, h.owned, fun row hm => (h.guarded row hm).mono hle, h.hard, h.receipts⟩

theorem Sound.get (h : Sound clock store) (hm : row ∈ store.sessions) :
    getSession store row.id = some row := h.keyed.get hm

/-! ## What a transaction does -/

/-- The session whose issuance may be written. -/
def Action.issues : Action → Option AccessSessionId
  | .under _ block session => if block.issues then some session.id else none
  | _ => none

inductive Effect (env : Env) (action : Action) (store : Store) : Store → Prop where
  | nothing : Effect env action store store
  | grants {s : Store} {grants : List Grant} (before : Effect env action store s)
      (step : GrantStep s.grants grants) : Effect env action store { s with grants }
  | insert (session : Session) (fresh : getSession store session.id = none)
      (guarded : Guarded env.clock session) (owned : Owned store.grants session)
      (hard : Within store.grants session session.hardDeadline) :
      Effect env action store { store with sessions := store.sessions ++ [session] }
  | issuance {machineId : MachineId} {block : Block} {session : Session} {issuance : Issuance}
      {s : Store} (here : action = .under machineId block session) (issues : block.issues = true)
      (update : setIssuance env store session.id issuance = .ok s) : Effect env action store s
  | connection {machineId : MachineId} {block : Block} {session : Session}
      {connection : Connection} {s : Store} (here : action = .under machineId block session)
      (update : setConnection env store session.id connection = .ok s) : Effect env action store s
  | close {grants : List Grant} {selects : Session → Bool} {reason : CloseReason} {s : Store}
      (step : GrantStep store.grants grants)
      (update : updateSessions env.clock selects
        (fun row => { row with connection := .closed row.connection.claim? reason env.now })
        { store with grants } = .ok s)
      (owner : ∀ row ∈ store.sessions, selects row = true →
        action.machine = some row.machineId ∨ Revoked grants row.grantId) :
      Effect env action store s

theorem Effect.of_reissues {machineId : MachineId} {block : Block} {session : Session}
    (issues : block.issues = true) (h : Reissues session.id env store s) :
    Effect env (.under machineId block session) store s := by
  rcases h with rfl | ⟨issuance, hset⟩
  · exact .nothing
  · exact .issuance rfl issues hset

theorem Effect.of_reconnects {machineId : MachineId} {block : Block} {session : Session}
    (h : Reconnects session.id env store s) : Effect env (.under machineId block session) store s := by
  rcases h with rfl | ⟨connection, hset⟩
  · exact .nothing
  · exact .connection rfl hset

theorem effect_block {machineId : MachineId} {block : Block} {session : Session}
    {stage : Option Stage} (h : block.run config session env store = .ok (stage, s)) :
    Effect env (.under machineId block session) store s := by
  cases block with
  | prepare =>
    simp only [Block.run, bind_ok_iff, pure_ok_iff, Prod.mk.injEq, Prod.exists] at h
    obtain ⟨context, s', hprepare, -, rfl⟩ := h
    exact .of_reissues rfl (reissues_prepare hprepare)
  | reject => exact .of_reissues rfl (reissues_giveUp h)
  | attempt address =>
    simp only [Block.run, bind_ok_iff, pure_ok_iff, Prod.mk.injEq, Prod.exists] at h
    obtain ⟨marked, s', hattempt, -, rfl⟩ := h
    exact .of_reissues rfl (reissues_attempt hattempt)
  | publish address result =>
    simp only [Block.run, bind_ok_iff, pure_ok_iff, Prod.mk.injEq, Prod.exists] at h
    obtain ⟨_, s', hpublish, -, rfl⟩ := h
    exact .of_reissues rfl (reissues_publish hpublish)
  | consume request =>
    simp only [Block.run, bind_ok_iff, pure_ok_iff, Prod.mk.injEq, Prod.exists] at h
    obtain ⟨lease, s', hconsume, -, rfl⟩ := h
    exact .of_reconnects (reconnects_consume hconsume)
  | check connection =>
    simp only [Block.run, validation, bind_ok_iff, pure_ok_iff, Prod.mk.injEq, Prod.exists] at h
    obtain ⟨_, _, ⟨_, -, -, rfl⟩, -, rfl⟩ := h
    exact .nothing
  | close request reason =>
    simp only [Block.run, bind_ok_iff, pure_ok_iff, Prod.mk.injEq, Prod.exists] at h
    obtain ⟨_, s', hclose, -, rfl⟩ := h
    exact .of_reconnects (reconnects_closeConnection hclose)

/-- The pin that a session is admitted with is of its allocation. -/
theorem current_pin {rows : Rows} {now : Instant} {scope : Scope} {context : Context}
    (h : current config rows grants now scope = .ok context) :
    context.pin.hostAlias = hostAlias context.spec.allocationId := by
  simp only [current, bind_ok_iff, refuse_ok_iff, not_or, not_not] at h
  obtain ⟨_, -, authority, -, _, -, machine, -, _, -, _, -, pair, -, h⟩ := h
  obtain ⟨_, -, allocation, -, spec, -, identity, -, key, -, _, hsame, owned, -, h⟩ := h
  simp only [pure_ok_iff] at h
  obtain ⟨_, -, rfl⟩ := h
  show hostAlias allocation.id = hostAlias spec.allocationId
  rw [hsame.2.2.2.1]

theorem effect_admission {principal : Principal} {machineId : MachineId} {request : AccessRequest}
    {key : String} {session : Session}
    (h : newAdmission config env store principal machineId request key = .ok (session, s)) :
    Effect env action store s := by
  simp only [newAdmission, bind_ok_iff, refuse_ok_iff, pure_ok_iff, Prod.mk.injEq] at h
  obtain ⟨context, hcurrent, _, hsoon, _, -, _, -, _, hfresh, _, hguard, rfl, rfl⟩ := h
  have hload := current_loads hcurrent
  obtain ⟨-, own, hown, hsame⟩ := loadAuthority_leaf hload
  simp only [guardAdmission, refuse_ok_iff, not_or, Nat.not_lt] at hguard
  obtain ⟨-, -, hadmitted⟩ := hguard
  have hhard : context.authority.checkedAt + 10000 ≤
      min (context.authority.checkedAt + 3600000) context.authority.expiresAt := Nat.not_lt.mp hsoon
  have hlater : ∀ t : Nat, t < t + 90000 ∧ t < t + 10000 := fun t => by omega
  refine .insert _ (by simpa using hfresh) ⟨⟨?_, Nat.le_refl _, ?_, Nat.min_le_left _ _,
    current_pin hcurrent⟩, hadmitted, rfl, rfl⟩ ⟨own, hown, hsame.trans (current_account hcurrent)⟩
    (within_authority hload (Nat.le_refl _) (Nat.min_le_right _ _))
  · exact (hlater _).1
  · exact Nat.lt_of_lt_of_le (hlater _).2 hhard

theorem effect_closeGrantAccess {accountId : AccountId} {grantId : GrantId}
    (hstep : GrantStep store.grants grants) (hvalid : ValidGrants store.grants)
    (hrevoked : ∀ row ∈ grants, row.id = grantId → row.accountId = accountId → row.revoked = true)
    (h : closeGrantAccess env { store with grants } accountId grantId = .ok s) :
    Effect env action store s := by
  refine .close hstep h fun row _ hselected => .inr ?_
  simp only [decide_eq_true_eq, List.contains_iff_mem] at hselected
  exact revoked_of_selected (hstep.valid hvalid) hrevoked hselected.2.2

theorem effect_retireCustomer {accountId : AccountId} {anchorId : GrantId}
    (hvalid : ValidGrants store.grants) (h : retireCustomer env store accountId anchorId = .ok s) :
    Effect env action store s :=
  effect_closeGrantAccess (grantStep_retireAnchor _ _) hvalid
    (fun row hm hid _ => revoked_retireAnchor hm hid) h

/-- **What a transaction does.** -/
theorem run_effect {stage : Option Stage} (hsound : Sound clock store)
    (h : action.run config env store = .ok (stage, s)) : Effect env action store s := by
  cases action with
  | admitSession principal machineId request key =>
    simp only [Action.run, Action.unstaged, admitSession, bind_ok_iff, pure_ok_iff, Prod.mk.injEq,
      Prod.exists] at h
    obtain ⟨session, s', ⟨_, -, _, -, authority, -, h⟩, -, rfl⟩ := h
    split at h
    · simp only [bind_ok_iff, pure_ok_iff, Prod.mk.injEq] at h
      obtain ⟨_, -, -, rfl⟩ := h
      exact .nothing
    · exact effect_admission h
  | under machineId block session => exact effect_block h
  | closeMachineAccess accountId machineId =>
    simp only [Action.run, bind_ok_iff, pure_ok_iff, Prod.mk.injEq] at h
    obtain ⟨s', hclose, -, rfl⟩ := h
    refine .close (GrantStep.refl _) hclose fun row _ hselected => .inl ?_
    simp only [decide_eq_true_eq] at hselected
    rw [hselected.2.2]
    rfl
  | insertGrant grant =>
    simp only [Action.run, bind_ok_iff, pure_ok_iff, Prod.mk.injEq] at h
    obtain ⟨grants, hinsert, -, rfl⟩ := h
    exact .grants .nothing (grantStep_insert hinsert)
  | revokeGrant principal grantId =>
    simp only [Action.run, Action.unstaged, revokeGrant, bind_ok_iff, pure_ok_iff, Prod.mk.injEq,
      Prod.exists] at h
    obtain ⟨_, s', ⟨_, -, accountId, grants, hrevoked, closed, hclose, -, rfl⟩, -, rfl⟩ := h
    obtain ⟨rfl, -⟩ := revokedGrants_ok hrevoked
    exact effect_closeGrantAccess (grantStep_markRevoked _ _ _) hsound.grants
      (fun row hm hid haccount => revoked_markRevoked hm hid haccount) hclose
  | disableCustomer accountId anchorId =>
    simp only [Action.run, Action.unstaged, disableCustomer, bind_ok_iff, pure_ok_iff,
      Prod.mk.injEq, Prod.exists] at h
    obtain ⟨_, s', ⟨_, -, retired, hretire, -, rfl⟩, -, rfl⟩ := h
    exact effect_retireCustomer hsound.grants hretire
  | renewCustomer accountId anchorId policy expiresAt =>
    simp only [Action.run, Action.unstaged, renewCustomer, insertRoot, bind_ok_iff, pure_ok_iff,
      Prod.mk.injEq, Prod.exists] at h
    obtain ⟨_, s', ⟨_, -, _, -, retired, hretire, grants, hinsert, -, rfl⟩, -, rfl⟩ := h
    exact .grants (effect_retireCustomer hsound.grants hretire) (grantStep_insert hinsert)
  | beginRecovery =>
    simp only [Action.run, Action.unstaged, beginRecovery, bind_ok_iff, pure_ok_iff, Prod.mk.injEq,
      Prod.exists] at h
    obtain ⟨_, s', ⟨closed, hclose, -, rfl⟩, -, rfl⟩ := h
    exact .close (grantStep_revokeAll _) hclose fun row hm _ =>
      .inr (hsound.owned row hm).revokeAll

/-! ## What it keeps -/

/-- An update, row by row. -/
structure Updated (clock : Instant) (selects : Session → Bool) (f : Session → Session)
    (grants : List Grant) (store s : Store) : Prop where
  grants : s.grants = grants
  sessions : s.sessions = store.sessions.map fun row => if selects row then f row else row
  guarded : ∀ row ∈ store.sessions, selects row = true → guardAccessSession row (f row) clock = .ok ()
  receipts : ∀ receipt ∈ s.signingAttempts, receipt ∈ store.signingAttempts ∨
    ∃ row ∈ store.sessions, selects row = true ∧ receiptOf row (f row) = some receipt

theorem updated_of {selects : Session → Bool} {f : Session → Session}
    (h : updateSessions clock selects f { store with grants } = .ok s) :
    Updated clock selects f grants store s := by
  simp only [updateSessions, bind_ok_iff, refuse_ok_iff, pure_ok_iff] at h
  obtain ⟨_, hguard, _, -, rfl⟩ := h
  refine ⟨rfl, rfl, guardEach_each hguard, fun receipt hm => ?_⟩
  rcases List.mem_append.mp hm with hold | hnew
  · exact .inl hold
  · obtain ⟨row, hrow, hreceipt⟩ := List.mem_filterMap.mp hnew
    obtain ⟨hrow, hselected⟩ := List.mem_filter.mp hrow
    exact .inr ⟨row, hrow, hselected, hreceipt⟩

theorem receiptOf_some {receipt : SigningAttempt} (h : receiptOf row row' = some receipt) :
    row.issuance = .pending ∧ (∃ attemptedAt, row'.issuance = .attempted attemptedAt) ∧
      receipt.sessionId = row.id := by
  unfold receiptOf at h
  split at h
  · next attemptedAt hold hnew =>
    obtain rfl := Option.some.inj h
    exact ⟨hold, ⟨attemptedAt, hnew⟩, rfl⟩
  · cases h

section

variable {selects : Session → Bool} {f : Session → Session}

theorem Updated.moves (h : Updated clock selects f grants store s) (hm : row ∈ store.sessions) :
    Moves row (if selects row then f row else row) := by
  split
  · next hselected => exact guardAccessSession_ok (h.guarded row hm hselected)
  · exact .refl row

theorem Updated.get (h : Updated clock selects f grants store s) {id : AccessSessionId}
    (hrow : getSession store id = some row) :
    getSession s id = some (if selects row then f row else row) := by
  rw [getSession] at hrow ⊢
  rw [h.sessions, Table.get_map fun row hm => (h.moves hm).id_eq, hrow]
  rfl

theorem Updated.sound {later : Instant} (h : Updated later selects f grants store s)
    (hsound : Sound clock store) (hle : clock ≤ later) (hstep : GrantStep store.grants grants) :
    Sound later s := by
  have hmem : ∀ row' ∈ s.sessions, ∃ row ∈ store.sessions,
      row' = if selects row then f row else row := by
    intro row' hm
    rw [h.sessions] at hm
    obtain ⟨row, hrow, rfl⟩ := List.mem_map.mp hm
    exact ⟨row, hrow, rfl⟩
  refine ⟨?_, ?_, fun row' hm => ?_, fun row' hm => ?_, fun row' hm => ?_, fun receipt hm => ?_⟩
  · have hids : s.sessions.map Session.id = store.sessions.map Session.id := by
      rw [h.sessions, List.map_map]
      exact List.map_congr_left fun row hm => (h.moves hm).id_eq
    rw [Table.Keyed, hids]
    exact hsound.keyed
  · rw [h.grants]
    exact hstep.valid hsound.grants
  · obtain ⟨row, hrow, rfl⟩ := hmem row' hm
    rw [h.grants]
    exact (hsound.owned row hrow).grows hstep.grows (h.moves hrow).fixed
  · obtain ⟨row, hrow, rfl⟩ := hmem row' hm
    split
    · next hselected => exact (hsound.guarded row hrow).updated hle (h.guarded row hrow hselected)
    · exact (hsound.guarded row hrow).mono hle
  · obtain ⟨row, hrow, rfl⟩ := hmem row' hm
    have hfixed := (h.moves hrow).fixed
    have hhard : (if selects row then f row else row).hardDeadline = row.hardDeadline := by
      show Session.hardDeadline (Session.fixed _) = row.fixed.hardDeadline
      rw [hfixed]
    rw [h.grants, hhard]
    exact (hsound.hard row hrow).grows (hsound.owned row hrow) hsound.grants hstep.grows hfixed
  · rcases h.receipts receipt hm with hold | ⟨row, hrow, hselected, hreceipt⟩
    · obtain ⟨row, hrow, hpending⟩ := hsound.receipts receipt hold
      exact ⟨_, h.get hrow, (h.moves (Table.get_mem hrow)).not_pending hpending⟩
    · obtain ⟨-, ⟨attemptedAt, hattempted⟩, hid⟩ := receiptOf_some hreceipt
      refine ⟨_, h.get (hid ▸ hsound.get hrow), ?_⟩
      rw [if_pos hselected, hattempted]
      rintro ⟨⟩

end

/-- The grants grow under a store that stays. -/
theorem Sound.granted (h : Sound clock store) (hstep : GrantStep store.grants grants) :
    Sound clock { store with grants } :=
  ⟨h.keyed, hstep.valid h.grants, fun row hm => (h.owned row hm).grows hstep.grows rfl, h.guarded,
    fun row hm => (h.hard row hm).grows (h.owned row hm) h.grants hstep.grows rfl, h.receipts⟩

theorem Sound.admitted (h : Sound clock store) (hfresh : getSession store row.id = none)
    (hguarded : Guarded clock row) (howned : Owned store.grants row)
    (hhard : Within store.grants row row.hardDeadline) :
    Sound clock { store with sessions := store.sessions ++ [row] } := by
  have hmem : ∀ other ∈ store.sessions ++ [row], other ∈ store.sessions ∨ other = row :=
    fun other hm => by simpa using hm
  refine ⟨h.keyed.insert hfresh, h.grants, fun other hm => ?_, fun other hm => ?_,
    fun other hm => ?_, fun receipt hm => ?_⟩
  · rcases hmem other hm with hold | rfl
    · exact h.owned other hold
    · exact howned
  · rcases hmem other hm with hold | rfl
    · exact h.guarded other hold
    · exact hguarded
  · rcases hmem other hm with hold | rfl
    · exact h.hard other hold
    · exact hhard
  · obtain ⟨old, hold, hpending⟩ := h.receipts receipt hm
    refine ⟨old, ?_, hpending⟩
    rw [getSession] at hold ⊢
    rw [Table.get_append, hold]
    rfl

/-- **A transaction keeps the store sound.** -/
theorem Effect.sound (h : Effect env action store s) (hsound : Sound clock store)
    (hle : clock ≤ env.clock) : Sound env.clock s := by
  induction h with
  | nothing => exact hsound.mono hle
  | grants before step ih => exact ih.granted step
  | insert session fresh guarded owned hard =>
    exact (hsound.mono hle).admitted fresh guarded owned hard
  | issuance here issues update => exact (updated_of update).sound hsound hle (GrantStep.refl _)
  | connection here update => exact (updated_of update).sound hsound hle (GrantStep.refl _)
  | close step update owner => exact (updated_of update).sound hsound hle step

/-- What a transaction leaves of the rows: the columns that never change, the issuance of every
    other issuer's session, and what is under another machine lock unless its grant is revoked. -/
structure Frame (action : Action) (store s : Store) : Prop where
  grants : Grows store.grants s.grants
  rows : ∀ id row, getSession store id = some row → ∃ row', getSession s id = some row' ∧
    row'.fixed = row.fixed ∧ (row'.issuance = row.issuance ∨ action.issues = some id) ∧
    (row' = row ∨ action.machine = some row.machineId ∨
      row'.issuance = row.issuance ∧ Revoked s.grants row.grantId)

/-- A block writes the session that it read, under the lock of its machine. -/
theorem Updated.frame {machineId : MachineId} {block : Block} {session : Session}
    {f : Session → Session} (h : Updated clock (fun row => row.id = session.id) f store.grants store s)
    (hissuance : block.issues = true ∨ ∀ row, (f row).issuance = row.issuance)
    (hmachine : ∀ row, getSession store session.id = some row → row.machineId = machineId) :
    Frame (.under machineId block session) store s := by
  refine ⟨h.grants ▸ .refl _, fun id row hrow => ⟨_, h.get hrow, (h.moves (Table.get_mem hrow)).fixed,
    ?_, ?_⟩⟩
  · split
    · next hselected =>
      rcases hissuance with hissues | hsame
      · have hid : session.id = id := (of_decide_eq_true hselected).symm.trans (Table.get_key hrow)
        exact .inr (by simp only [Action.issues, hissues, if_true, hid])
      · exact .inl (hsame row)
    · exact .inl rfl
  · split
    · next hselected =>
      have hid : session.id = id := (of_decide_eq_true hselected).symm.trans (Table.get_key hrow)
      refine .inr (.inl ?_)
      rw [hmachine row (hid ▸ hrow)]
      rfl
    · exact .inl rfl

theorem Effect.frame (h : Effect env action store s)
    (hmachine : ∀ machineId block session, action = .under machineId block session → ∀ row,
      getSession store session.id = some row → row.machineId = machineId) : Frame action store s := by
  induction h with
  | nothing => exact ⟨.refl _, fun _ row hrow => ⟨row, hrow, rfl, .inl rfl, .inl rfl⟩⟩
  | grants before step ih =>
    refine ⟨ih.grants.trans step.grows, fun id row hrow => ?_⟩
    obtain ⟨row', hrow', hfixed, hissuance, howner⟩ := ih.rows id row hrow
    exact ⟨row', hrow', hfixed, hissuance,
      howner.imp_right (Or.imp_right (And.imp_right fun hr => hr.grows step.grows))⟩
  | insert session fresh guarded owned hard =>
    refine ⟨.refl _, fun id row hrow => ⟨row, ?_, rfl, .inl rfl, .inl rfl⟩⟩
    rw [getSession] at hrow ⊢
    rw [Table.get_append, hrow]
    rfl
  | issuance here issues update =>
    subst here
    exact (updated_of update).frame (.inl issues) (hmachine _ _ _ rfl)
  | connection here update =>
    subst here
    exact (updated_of update).frame (.inr fun _ => rfl) (hmachine _ _ _ rfl)
  | close step update owner =>
    have hupdated := updated_of update
    refine ⟨hupdated.grants ▸ step.grows, fun id row hrow => ⟨_, hupdated.get hrow,
      (hupdated.moves (Table.get_mem hrow)).fixed, .inl ?_, ?_⟩⟩
    · split <;> rfl
    · split
      · next hselected =>
        refine .inr ((owner row (Table.get_mem hrow) hselected).imp_right fun hrevoked => ⟨rfl, ?_⟩)
        rw [hupdated.grants]
        exact hrevoked
      · exact .inl rfl

end AgentCloud.Access.Desk
