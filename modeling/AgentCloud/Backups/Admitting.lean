/-
  EVERYBODY ELSE KEEPS THE LEDGER: restores, admissions, and schedules.

  None of them owns a backup, and none of them needs to know anything between two actions: what a
  change rests on is checked in the transaction that makes it.  So there is one lemma for each
  transaction here, which says which change of the ledger it is.
-/
import AgentCloud.Backups.Purging

namespace AgentCloud.Backups.Admitting

open Checked Durable

variable {admission : AdmissionConfig} {config : BackupConfig} {k : Slot} {w : World interface}
  {log : Log} {store store' : Store} {env : Env} {id : RestoreId}

/-- A transaction that checks for itself what it rests on. -/
theorem safe_any {t : Env → Store → Except WorkFault (Unit × Store)}
    (h : ∀ v env s, Valid admission v → t env v.store = .ok ((), s) →
      Changes admission v.log k v.store s) :
    Safe (ledger admission) k (Ends Anyhow) (Prog.transact (S := interface) t) w :=
  Safe.commit fun v env _ s _ hvalid hok => ⟨.write s (h v env s hvalid hok), trivial⟩

theorem safe_look {α : Type} {f : Env → Store → α} :
    Safe (ledger admission) k (Ends Anyhow) (Prog.observe (S := interface) f) w :=
  Safe.observe (fun v => v.put_self ▸ .write v.store .refl) fun _ _ _ _ => trivial

theorem quiet_any : Quiet (ledger admission) k (fun _ => True) fun _ _ => True :=
  ⟨fun hc _ => Safe.ask fun _ _ _ r _ => ⟨.quiet _ r (Recording.Call.beside_of_passive hc), trivial⟩,
    fun _ => trivial⟩

/-! ## Restores -/

theorem changes_restore {f : RestoreRow → RestoreRow}
    (same : ∀ row, (f row).id = row.id ∧ (f row).backupId = row.backupId ∧
      (f row).machineId = row.machineId) :
    Changes admission log (.restore id) store (writeRestore id f store) :=
  .single (.restoring id f rfl same)

theorem safe_saveRestore {work : RestoreWork} :
    Safe (ledger admission) (.restore id) (Ends Anyhow) (saveRestore id work) w := by
  refine safe_any fun v env s _ hok => ?_
  obtain ⟨-, rfl⟩ := Prod.mk.inj (Except.ok.inj hok)
  exact changes_restore fun _ => ⟨rfl, rfl, rfl⟩

theorem safe_authorized {accountId : AccountId} {grantId : GrantId} {projectId : ProjectId}
    {capability : Capability} {work : Store → Store}
    (h : ∀ v : World interface, Changes admission v.log k v.store (work v.store)) :
    Safe (ledger admission) k (Ends Anyhow)
      (authorizeEffect accountId grantId projectId capability work) w := by
  refine safe_any fun v env s _ hok => ?_
  simp only [bind_ok_iff, pure_ok_iff, Prod.mk.injEq] at hok
  obtain ⟨_, -, _, -, -, rfl⟩ := hok
  exact h v

theorem safe_blockRestore {reason : String} :
    Safe (ledger admission) (.restore id) (Ends Anyhow) (blockRestore id reason) w := by
  refine Safe.seq (quiet_any.ask rfl trivial) fun _ v _ => ?_
  refine safe_any fun v env s _ hok => ?_
  obtain ⟨-, rfl⟩ := Prod.mk.inj (Except.ok.inj hok)
  exact changes_restore fun _ => ⟨rfl, rfl, rfl⟩

/-- A verified restore ends and verifies its source. -/
theorem change_finished {f : RestoreRow → RestoreRow} {backupId : BackupId}
    (same : ∀ row, (f row).id = row.id ∧ (f row).backupId = row.backupId ∧
      (f row).machineId = row.machineId)
    (h : verifySource backupId (writeRestore id f store) = .ok store') :
    Change admission log (.restore id) store store' := by
  simp only [verifySource, bind_ok_iff, present_ok_iff] at h
  obtain ⟨source, hsource, h⟩ := h
  cases hstate : source.state with
  | captured bytes capturedAt validation manifest =>
    rw [hstate] at h
    obtain rfl := Except.ok.inj h
    refine .finished id f rfl same backupId _ (fun _ => rfl) fun row hrow => ?_
    obtain rfl : source = row := Option.some.inj (hsource.symm.trans hrow)
    exact .verified bytes capturedAt validation manifest hstate
  | pending => rw [hstate] at h; cases h
  | blocked reason => rw [hstate] at h; cases h
  | purgePending purgeId => rw [hstate] at h; cases h
  | purged purgeId purgedAt => rw [hstate] at h; cases h

theorem safe_finish {row : RestoreRow} {result : Completed} :
    Safe (ledger admission) (.restore row.id) (Ends Anyhow) (finish row result) w := by
  refine Safe.seq (quiet_any.refuseIf trivial) fun _ v _ => ?_
  refine Safe.seq (quiet_any.ask rfl trivial) fun _ v _ => ?_
  refine safe_any fun v env s _ hok => ?_
  simp only [bind_ok_iff, pure_ok_iff, Prod.mk.injEq] at hok
  obtain ⟨verified, hverified, -, rfl⟩ := hok
  exact .single (change_finished (f := fun row =>
    { row with work := .done, state := .restored result }) (fun _ => ⟨rfl, rfl, rfl⟩) hverified)

theorem safe_settle {row : RestoreRow} {state : RestoreGuestState} :
    Safe (ledger admission) (.restore row.id) (Ends Anyhow) (settle row state) w := by
  cases state with
  | restored result => exact safe_finish
  | failed _ _ => exact safe_blockRestore
  | pending _ => exact Safe.ends trivial

theorem safe_runRestoreCommand {row : RestoreRow} {request : RestoreGuestRequest} :
    Safe (ledger admission) (.restore row.id) (Ends Anyhow)
      (runRestoreCommand request (markSubmitted row)) w := by
  refine Safe.recover ?_ fun _ _ => trivial
  refine Safe.seq (quiet_any.ask rfl trivial) fun _ v _ => ?_
  refine Safe.seq (safe_authorized fun _ => changes_restore fun _ => ⟨rfl, rfl, rfl⟩) fun _ v _ => ?_
  have hstream : Safe (ledger admission) (.restore row.id) (Ends Anyhow)
      (Prog.ask (S := interface) (.streamRestore request)) v :=
    Safe.ask fun _ _ _ r _ => ⟨.quiet (.streamRestore request) r rfl, trivial⟩
  exact Safe.seq hstream fun reply v _ => quiet_any.thrown trivial

theorem safe_submitRestore {row : RestoreRow} {allocationId : AllocationId} {parts : Sealed}
    {receipt : Receipt} :
    Safe (ledger admission) (.restore row.id) (Ends Anyhow)
      (submitRestore config row allocationId parts receipt) w := by
  refine Safe.seq (quiet_any.ask rfl trivial) fun _ v _ => ?_
  refine Safe.seq (quiet_any.ask rfl trivial) fun _ v _ => ?_
  exact Safe.seq safe_runRestoreCommand fun _ _ _ => safe_settle

theorem safe_keyUnavailable {α : Type} {Q : α → World interface → Prop} {row : RestoreRow} :
    Safe (ledger admission) (.restore row.id) (Ends Q) (keyUnavailable row) w :=
  Safe.seq (safe_authorized fun _ => changes_restore fun _ => ⟨rfl, rfl, rfl⟩) fun _ _ _ => trivial

theorem safe_openKeyring {row : RestoreRow} {encryption : Encryption} :
    Safe (ledger admission) (.restore row.id) (Ends Anyhow) (openKeyring row encryption) w := by
  refine Safe.seq (quiet_any.asks rfl trivial) fun keyring v _ => ?_
  cases keyring with
  | error _ => exact safe_keyUnavailable
  | ok _ =>
    refine Safe.seq (quiet_any.asks rfl trivial) fun verified v _ => ?_
    cases verified with
    | error _ => trivial
    | ok opens =>
      cases opens with
      | true => exact Safe.ends trivial
      | false => exact safe_keyUnavailable

theorem safe_preparePhase {row : RestoreRow} {allocationId : AllocationId} {attempts : Nat} :
    Safe (ledger admission) (.restore row.id) (Ends Anyhow)
      (preparePhase config row allocationId attempts) w := by
  rw [preparePhase]
  split
  · exact safe_blockRestore
  · refine Safe.seq (quiet_any.ask rfl trivial) fun _ v _ => ?_
    refine Safe.seq (quiet_any.ask rfl trivial) fun _ v _ => ?_
    refine Safe.seq (quiet_any.ask rfl trivial) fun _ v _ => ?_
    refine Safe.seq (safe_authorized fun _ => .refl) fun _ v _ => ?_
    have hsource : Safe (ledger admission) (.restore row.id) (Ends Anyhow)
        (Prog.transact (S := interface) fun _ store => do
          let source ← storedSource row store
          pure (source, store)) v := by
      refine Safe.commit fun u env a s _ _ hok => ⟨.write s ?_, trivial⟩
      simp only [bind_ok_iff, pure_ok_iff, Prod.mk.injEq] at hok
      obtain ⟨_, -, -, rfl⟩ := hok
      exact .refl
    refine Safe.seq hsource fun source v _ => ?_
    refine Safe.seq safe_openKeyring fun _ v _ => ?_
    refine Safe.seq (safe_authorized fun _ => changes_restore fun _ => ⟨rfl, rfl, rfl⟩)
      fun _ v _ => ?_
    exact Safe.ensure safe_submitRestore fun u => quiet_any.ask rfl trivial

theorem safe_submittedPhase {row : RestoreRow} {allocationId : AllocationId} {attempts : Nat} :
    Safe (ledger admission) (.restore row.id) (Ends Anyhow)
      (submittedPhase row allocationId attempts) w := by
  refine Safe.seq (quiet_any.ask rfl trivial) fun _ v _ => ?_
  split
  · exact safe_blockRestore
  · refine Safe.seq safe_saveRestore fun _ v _ => ?_
    refine Safe.seq (quiet_any.ask rfl trivial) fun _ v _ => ?_
    refine Safe.seq (quiet_any.asks rfl trivial) fun reply v _ => ?_
    refine Safe.seq (quiet_any.thrown trivial) fun state v _ => ?_
    split
    · exact safe_finish
    · exact safe_blockRestore
    · trivial

theorem safe_targetPhase {row : RestoreRow} {target : TargetMachine} {work : RestoreWork} :
    Safe (ledger admission) (.restore row.id) (Ends Anyhow) (targetPhase config row target work)
      w := by
  rw [targetPhase]
  split
  · trivial
  · split
    · exact safe_submittedPhase
    · exact safe_preparePhase
    · exact Safe.ends trivial

theorem safe_waitingPhase {row : RestoreRow} {target : TargetMachine} :
    Safe (ledger admission) (.restore row.id) (Ends Anyhow) (waitingPhase config row target) w := by
  refine Safe.seq safe_look fun operation v _ => ?_
  split
  · trivial
  · exact safe_blockRestore
  · exact Safe.ends trivial
  · exact Safe.seq safe_saveRestore fun _ v _ => safe_targetPhase

theorem safe_advancePending {row : RestoreRow} :
    Safe (ledger admission) (.restore row.id) (Ends Anyhow) (advancePending config row) w := by
  refine Safe.seq (Q := fun _ _ => True) safe_look fun target v _ => ?_
  cases target with
  | none => trivial
  | some target =>
    simp only
    split
    · exact safe_blockRestore
    · split
      · exact safe_waitingPhase
      · exact safe_targetPhase

/-- A tick of a restore. -/
theorem safe_advanceRestoreTick :
    Safe (ledger admission) (.restore id) (Ends Anyhow) (advanceRestoreTick config id) w := by
  have hread : Safe (ledger admission) (.restore id)
      (Ends fun (got : Option RestoreRow) _ => ∀ row ∈ got, row.id = id) (readRestore id) w :=
    Safe.read (fun v => v.put_self ▸ .write v.store .refl) fun v _ _ row hrow => Table.get_key hrow
  refine Safe.recover (Safe.seq hread fun row v hrow => ?_) fun fault v => ?_
  · cases row with
    | none => exact Safe.ends trivial
    | some row =>
      obtain rfl := hrow row rfl
      simp only
      split
      · exact safe_advancePending
      · exact Safe.ends trivial
  · cases fault with
    | authority => exact safe_blockRestore
    | fault f => trivial

/-! ## Captures -/

/-- A machine that an admission reads is one of the store's; its row is new. -/
theorem admittedBackup_ok {authority : Authority} {principal : Principal} {machineId : MachineId}
    {id : BackupId} {recipe : Recipe} {row : BackupRow}
    (h : admittedBackup admission env store authority principal machineId id recipe = .ok row) :
    row.id = id ∧ NewBackup admission row ∧ Fits admission store row.accountId ∧
      row.createdAt = authority.checkedAt := by
  simp only [admittedBackup, bind_ok_iff, pure_ok_iff] at h
  obtain ⟨machine, -, _, -, _, hcapacity, rfl⟩ := h
  simp only [assertCapacity, bind_ok_iff, refuse_ok_iff] at hcapacity
  obtain ⟨_, hfits, -⟩ := hcapacity
  rw [not_or, Nat.not_lt, Nat.not_lt] at hfits
  exact ⟨rfl, ⟨rfl, rfl, rfl, rfl⟩, ⟨hfits.1, hfits.2⟩, rfl⟩

/-- A capture is the one that was admitted before, or a new row that fits. -/
theorem captureInTransaction_ok {principal : Principal} {machineId : MachineId} {id : BackupId}
    {recipe : Recipe}
    (h : captureInTransaction admission principal machineId id recipe env store = .ok ((), store')) :
    store' = store ∨ ∃ row, getBackup store id = none ∧ row.id = id ∧ NewBackup admission row ∧
      Fits admission store row.accountId ∧ row.createdAt = env.now ∧
      store' = { store with backups := store.backups ++ [row] } := by
  simp only [captureInTransaction, bind_ok_iff, lift_ok_iff] at h
  obtain ⟨authority, hauthority, h⟩ := h
  cases hrow : getBackup store id with
  | some row =>
    simp only [hrow, bind_ok_iff, pure_ok_iff, Prod.mk.injEq] at h
    obtain ⟨_, -, _, -, -, rfl⟩ := h
    exact .inl rfl
  | none =>
    simp only [hrow, bind_ok_iff, pure_ok_iff, Prod.mk.injEq, lift_ok_iff] at h
    obtain ⟨row, hadmitted, -, rfl⟩ := h
    obtain ⟨hid, hnew, hfits, hcreated⟩ := admittedBackup_ok hadmitted
    simp only [lockedAuthority, bind_ok_iff] at hauthority
    obtain ⟨_, -, hload⟩ := hauthority
    exact .inr ⟨row, rfl, hid, hnew, hfits, hcreated.trans (loadAuthority_checkedAt hload), rfl⟩

theorem changes_captureInTransaction {principal : Principal} {machineId : MachineId}
    {id : BackupId} {recipe : Recipe}
    (h : captureInTransaction admission principal machineId id recipe env store = .ok ((), store')) :
    Changes admission log k store store' := by
  rcases captureInTransaction_ok h with rfl | ⟨row, hnone, rfl, hnew, hfits, -, rfl⟩
  · exact .refl
  · exact .single (.admitted row hnone hnew hfits)

/-! ## Restore admissions -/

/-- The target is one of the machines, and the others are as they were. -/
theorem admitTarget_kept {machines machines' : List TargetMachine} {restore : RestoreRow}
    {allocationId : AllocationId} (h : admitTarget machines restore allocationId = .ok machines') :
    MachinesMove machines machines' := by
  unfold admitTarget at h
  split at h
  · simp only [bind_ok_iff, pure_ok_iff] at h
    obtain ⟨_, -, rfl⟩ := h
    exact fun machine hm => ⟨machine, hm, rfl, rfl, MachineState.mayBecome_refl⟩
  · obtain rfl := Except.ok.inj h
    exact fun machine hm =>
      ⟨machine, List.mem_append_left _ hm, rfl, rfl, MachineState.mayBecome_refl⟩

theorem changes_restoreInTransaction {principal : Principal} {id : RestoreId} {backupId : BackupId}
    {app : String} {machineId : MachineId} {allocationId : AllocationId}
    {operationId : OperationId}
    (h : restoreInTransaction principal id backupId app machineId allocationId operationId env
      store = .ok ((), store')) : Changes admission log k store store' := by
  simp only [restoreInTransaction, bind_ok_iff] at h
  obtain ⟨authority, -, h⟩ := h
  cases hrow : getRestore store id with
  | some row =>
    simp only [hrow, bind_ok_iff, pure_ok_iff, Prod.mk.injEq] at h
    obtain ⟨_, -, _, -, -, rfl⟩ := h
    exact .refl
  | none =>
    simp only [hrow, bind_ok_iff, pure_ok_iff, Prod.mk.injEq, lift_ok_iff, admittedRestore,
      present_ok_iff, refuse_ok_iff, insertRestore] at h
    obtain ⟨row, ⟨backup, hbackup, _, -, _, hcaptured, rfl⟩, machines, htarget, _, ⟨_, -, rfl⟩, -,
      rfl⟩ := h
    obtain ⟨hget, -⟩ := Option.mem_filter_iff.mp hbackup
    rw [not_or, Bool.not_eq_false] at hcaptured
    exact .single (.restore _ hrow ⟨backup, hget, hcaptured.1⟩ machines (admitTarget_kept htarget))

/-! ## Purge admissions -/

theorem assertPurgeable_ok {row : BackupRow} (h : assertPurgeable store row = .ok ()) :
    Purgeable store row := by
  unfold assertPurgeable at h
  split at h
  · next hstate hwork =>
    simp only [bind_ok_iff, refuse_ok_iff] at h
    obtain ⟨_, -, _, -, hpinned⟩ := h
    exact ⟨by rw [hstate]; rfl, by rw [hwork]; rfl, by simpa using hpinned⟩
  · cases h

theorem change_admitPurge {now : Instant} {row : BackupRow} {purgeId : PurgeId}
    {reason : PurgeReason} {grantId : Option GrantId}
    (hrow : getBackup store row.id = some row)
    (heligible : reason = .retention → retentionEligible now store row = true)
    (h : admitPurge now store row purgeId reason grantId = .ok store') :
    Change admission log k store store' := by
  simp only [admitPurge, bind_ok_iff, refuse_ok_iff, pure_ok_iff] at h
  obtain ⟨_, hpurgeable, _, hfresh, rfl⟩ := h
  refine .purge row hrow (assertPurgeable_ok hpurgeable) now purgeId reason grantId ?_ heligible
  intro purge hm
  exact ⟨fun hid => hfresh ⟨purge, hm, .inl hid⟩, fun hid => hfresh ⟨purge, hm, .inr hid⟩⟩

theorem changes_requestPurge {principal : Principal} {id : BackupId} {purgeId : PurgeId}
    (h : requestPurge principal id purgeId env store = .ok ((), store')) :
    Changes admission log k store store' := by
  simp only [requestPurge, bind_ok_iff, lift_ok_iff, present_ok_iff] at h
  obtain ⟨authority, -, row, hrow, _, -, h⟩ := h
  obtain ⟨hget, -⟩ := Option.mem_filter_iff.mp hrow
  have hid : row.id = id := Table.get_key hget
  cases hpurge : getPurge store purgeId with
  | some purge =>
    simp only [hpurge, bind_ok_iff, pure_ok_iff, Prod.mk.injEq] at h
    obtain ⟨_, -, -, rfl⟩ := h
    exact .refl
  | none =>
    simp only [hpurge, bind_ok_iff, pure_ok_iff, Prod.mk.injEq, lift_ok_iff] at h
    obtain ⟨_, -, _, hadmit, -, rfl⟩ := h
    have hcustomer : PurgeReason.customer = .retention → retentionEligible env.now store row = true := by
      rintro ⟨⟩
    exact .single (change_admitPurge (hid ▸ hget) hcustomer hadmit)

/-- An automatic purge is decided by the query that it is selected by, asked again. -/
theorem changes_admitExpiredBackup {id : BackupId}
    (h : admitExpiredBackup id env store = .ok ((), store')) :
    Changes admission log k store store' := by
  unfold admitExpiredBackup at h
  split at h
  · obtain ⟨-, rfl⟩ := Prod.mk.inj (Except.ok.inj h)
    exact .refl
  · next selected hselected =>
    have hid : selected.id = id := Table.get_key hselected
    simp only [bind_ok_iff] at h
    obtain ⟨_, -, h⟩ := h
    split at h
    · next heligible =>
      simp only [bind_ok_iff, pure_ok_iff, Prod.mk.injEq, lift_ok_iff] at h
      obtain ⟨_, hadmit, -, rfl⟩ := h
      exact .single (change_admitPurge (hid ▸ hselected) (fun _ => heligible) hadmit)
    · obtain ⟨-, rfl⟩ := Prod.mk.inj (Except.ok.inj h)
      exact .refl

theorem safe_admitCandidates {deadline : Instant} (ids : List BackupId) :
    Safe (ledger admission) k (Ends Anyhow) (admitCandidates deadline ids) w := by
  induction ids generalizing w with
  | nil => exact Safe.ends trivial
  | cons id rest ih =>
    refine Safe.seq (quiet_any.asks rfl trivial) fun now v _ => ?_
    split
    · exact Safe.ends trivial
    · exact Safe.seq (safe_any fun _ _ _ _ hok => changes_admitExpiredBackup hok) fun _ v _ => ih

theorem safe_pruneScheduled {maxObjects maxRunSeconds : Nat} :
    Safe (ledger admission) k (Ends Anyhow) (pruneScheduled maxObjects maxRunSeconds) w := by
  refine Safe.seq (quiet_any.asks rfl trivial) fun started v _ => ?_
  exact Safe.seq safe_look fun candidates v _ => safe_admitCandidates candidates

/-! ## Schedules -/

theorem changes_createSchedule {principal : Principal} {machineId : MachineId} {id : ScheduleId}
    {recipe : Recipe} (h : createSchedule principal machineId id recipe env store = .ok ((), store')) :
    Changes admission log k store store' := by
  simp only [createSchedule, bind_ok_iff] at h
  obtain ⟨authority, -, h⟩ := h
  cases hrow : getSchedule store id with
  | some row =>
    simp only [hrow, bind_ok_iff, pure_ok_iff, Prod.mk.injEq] at h
    obtain ⟨_, -, _, -, -, rfl⟩ := h
    exact .refl
  | none =>
    simp only [hrow, bind_ok_iff, pure_ok_iff, Prod.mk.injEq, lift_ok_iff, insertSchedule,
      refuse_ok_iff, not_not] at h
    obtain ⟨machine, -, _, -, allocationId, -, _, -, _, -, _, ⟨_, hsole, rfl⟩, -, rfl⟩ := h
    exact .single (.created _ hrow hsole rfl rfl)

theorem changes_disableSchedule {principal : Principal} {id : ScheduleId}
    (h : disableSchedule principal id env store = .ok ((), store')) :
    Changes admission log k store store' := by
  simp only [disableSchedule, bind_ok_iff] at h
  obtain ⟨_, -, row, -, _, -, h⟩ := h
  split at h
  · obtain ⟨-, rfl⟩ := Prod.mk.inj (Except.ok.inj h)
    exact .single (.disabled id _)
  · obtain ⟨-, rfl⟩ := Prod.mk.inj (Except.ok.inj h)
    exact .refl

/-- The capture of a tick is a new row, for a slot that has none. -/
theorem scheduledCapture_ok {row : ScheduleRow}
    (h : scheduledCapture admission env store row = .ok store') :
    ∃ backup, getBackup store backup.id = none ∧ backup.id = env.uuid ∧
      NewBackup admission backup ∧ Fits admission store backup.accountId ∧
      backup.createdAt = env.now ∧
      (∀ run ∈ store.runs, run.scheduleId = row.id → run.dueAt ≠ row.nextRunAt) ∧
      store' = { store with
        backups := store.backups ++ [backup]
        runs := store.runs ++ [⟨row.id, backup.id, row.nextRunAt⟩] } := by
  simp only [scheduledCapture, bind_ok_iff, pure_ok_iff, lift_ok_iff, refuse_ok_iff, not_not] at h
  obtain ⟨authority, -, _, -, machine, -, _, -, _, hfresh, ⟨_, captured⟩, hcaptured, _, hslot, rfl⟩ := h
  rcases captureInTransaction_ok hcaptured with rfl | ⟨backup, hnone, hid, hnew, hfits, hcreated, rfl⟩
  · simp only [captureInTransaction, bind_ok_iff, hfresh, lift_ok_iff, pure_ok_iff,
      Prod.mk.injEq] at hcaptured
    obtain ⟨_, -, backup, -, -, hstore⟩ := hcaptured
    have hlength := congrArg (fun store => store.backups.length) hstore
    simp at hlength
  · refine ⟨backup, hid ▸ hnone, hid, hnew, hfits, hcreated, fun run hm hrun hdue => ?_, ?_⟩
    · exact hslot ⟨run, hm, hrun, hdue⟩
    · rw [hid]

theorem changes_attemptSchedule {row : ScheduleRow} (hrow : getSchedule store row.id = some row)
    (henabled : row.enabled = true) (hdue : row.nextRunAt ≤ env.now)
    (h : attemptSchedule admission env store row = .ok store') :
    Change admission log k store store' := by
  unfold attemptSchedule at h
  split at h
  · next captured hcaptured =>
    obtain rfl := Except.ok.inj h
    obtain ⟨backup, hnone, hid, hnew, hfits, hcreated, hslot, rfl⟩ := scheduledCapture_ok hcaptured
    rw [← hid]
    exact .ran row hrow henabled env.now hdue backup hnone hnew hcreated hfits hslot
  · next failure hfailed =>
    obtain rfl := Except.ok.inj h
    exact .refused row hrow henabled env.now hdue failure _
  · cases h

theorem changes_advanceSchedule {id : ScheduleId}
    (h : advanceSchedule admission id env store = .ok ((), store')) :
    Changes admission log k store store' := by
  unfold advanceSchedule at h
  split at h
  · obtain ⟨-, rfl⟩ := Prod.mk.inj (Except.ok.inj h)
    exact .refl
  · next row hrow =>
    have hid : row.id = id := Table.get_key hrow
    simp only [bind_ok_iff] at h
    obtain ⟨_, -, h⟩ := h
    split at h
    · next hdue =>
      simp only [bind_ok_iff, pure_ok_iff, Prod.mk.injEq] at h
      obtain ⟨_, hattempt, -, rfl⟩ := h
      rw [Bool.and_eq_true, decide_eq_true_iff] at hdue
      exact .single (changes_attemptSchedule (hid ▸ hrow) hdue.1 hdue.2 hattempt)
    · obtain ⟨-, rfl⟩ := Prod.mk.inj (Except.ok.inj h)
      exact .refl

theorem safe_reconcileSchedules :
    Safe (ledger admission) k (Ends Anyhow) (reconcileSchedules admission) w := by
  refine Safe.seq safe_look fun due v _ => ?_
  have hround : ∀ id ∈ due, ∀ v : World interface, True → Safe (ledger admission) k
      (fun r _ => match r with
        | .ok _ => True
        | .error _ => True) (Prog.transact (S := interface) (advanceSchedule admission id)) v := by
    intro id _ v _
    refine (safe_any fun _ _ _ _ hok => changes_advanceSchedule hok).mono fun r _ _ => ?_
    cases r <;> trivial
  exact Safe.forEach trivial hround fun _ _ => trivial

end AgentCloud.Backups.Admitting
