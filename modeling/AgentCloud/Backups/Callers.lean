/-
  THE OTHER WRITERS KEEP THE DISCIPLINE: admissions, schedules, purges, and the recovery of uploads.

  None of them moves a phase of a row that exists, but the recovery, which holds the worker lock of
  its backup.  A purge asks the object store for things as well, and none of them is an upload.
-/
import AgentCloud.Backups.RestoreWorkers
import AgentCloud.Backups.Purges
import AgentCloud.Backups.Schedules

namespace AgentCloud.Backups

open Checked Durable

variable {k : Slot} {w : World interface} {P : World interface → Prop} {config : BackupConfig}

theorem lift_ok_iff {α : Type} {r : Except Fault α} {a : α} : lift r = .ok a ↔ r = .ok a := by
  cases r with
  | ok b => simp [lift]
  | error e => simp [lift]

/-! ## Admission -/

/-- The discipline is about two tables. -/
theorem Writes.congr {old new new' : Store} (h : Writes k old new)
    (hbackups : new'.backups = new.backups) (hrestores : new'.restores = new.restores) :
    Writes k old new' := by
  have hgetBackup : ∀ id, getBackup new' id = getBackup new id := by
    intro id
    simp only [getBackup, hbackups]
  have hgetRestore : ∀ id, getRestore new' id = getRestore new id := by
    intro id
    simp only [getRestore, hrestores]
  refine ⟨fun id row hrow => ?_, fun id row hrow => ?_, fun hown id row hrow => ?_⟩
  · rw [hgetBackup]
    exact h.backups id row hrow
  · rw [hgetRestore]
    exact h.restores id row hrow
  · rw [hgetBackup] at hrow
    exact h.own hown id row hrow

theorem writes_of_tables {old new : Store} (hbackups : new.backups = old.backups)
    (hrestores : new.restores = old.restores) : Writes k old new :=
  (Writes.refl k old).congr hbackups hrestores

theorem writes_captureInTransaction {admission : AdmissionConfig} {principal : Principal}
    {machineId : MachineId} {id : BackupId} {recipe : Recipe} {env : Env} {store store' : Store}
    (h : captureInTransaction admission principal machineId id recipe env store = .ok ((), store')) :
    Writes k store store' := by
  simp only [captureInTransaction, bind_ok_iff] at h
  obtain ⟨authority, -, h⟩ := h
  cases hrow : getBackup store id with
  | some row =>
    simp only [hrow, bind_ok_iff, pure_ok_iff, Prod.mk.injEq] at h
    obtain ⟨_, -, _, -, -, rfl⟩ := h
    exact .refl _ _
  | none =>
    simp only [hrow, bind_ok_iff, pure_ok_iff, Prod.mk.injEq, lift_ok_iff, admittedBackup] at h
    obtain ⟨row, ⟨_, -, _, -, _, -, rfl⟩, -, rfl⟩ := h
    refine writes_insert_backup ?_
    intro parts hparts
    simp [BackupWork.sealed?] at hparts

theorem writes_restoreInTransaction {principal : Principal} {id : RestoreId} {backupId : BackupId}
    {app : String} {machineId : MachineId} {allocationId : AllocationId}
    {operationId : OperationId} {env : Env} {store store' : Store}
    (h : restoreInTransaction principal id backupId app machineId allocationId operationId env
      store = .ok ((), store')) : Writes k store store' := by
  simp only [restoreInTransaction, bind_ok_iff] at h
  obtain ⟨authority, -, h⟩ := h
  cases hrow : getRestore store id with
  | some row =>
    simp only [hrow, bind_ok_iff, pure_ok_iff, Prod.mk.injEq] at h
    obtain ⟨_, -, _, -, -, rfl⟩ := h
    exact .refl _ _
  | none =>
    simp only [hrow, bind_ok_iff, pure_ok_iff, Prod.mk.injEq, lift_ok_iff, insertRestore] at h
    obtain ⟨row, -, machines, -, _, ⟨_, -, rfl⟩, -, rfl⟩ := h
    have hinsert : Writes k store { store with restores := store.restores ++ [row] } :=
      writes_insert_restore
    exact hinsert.congr rfl rfl

/-! ## Schedules -/

theorem writes_createSchedule {principal : Principal} {machineId : MachineId} {id : ScheduleId}
    {recipe : Recipe} {env : Env} {store store' : Store}
    (h : createSchedule principal machineId id recipe env store = .ok ((), store')) :
    Writes k store store' := by
  simp only [createSchedule, bind_ok_iff] at h
  obtain ⟨authority, -, h⟩ := h
  cases hrow : getSchedule store id with
  | some row =>
    simp only [hrow, bind_ok_iff, pure_ok_iff, Prod.mk.injEq] at h
    obtain ⟨_, -, _, -, -, rfl⟩ := h
    exact .refl _ _
  | none =>
    simp only [hrow, bind_ok_iff, pure_ok_iff, Prod.mk.injEq, lift_ok_iff, insertSchedule] at h
    obtain ⟨_, -, _, -, _, -, _, -, _, -, _, ⟨_, -, rfl⟩, -, rfl⟩ := h
    exact writes_of_tables rfl rfl

theorem writes_disableSchedule {principal : Principal} {id : ScheduleId} {env : Env}
    {store store' : Store} (h : disableSchedule principal id env store = .ok ((), store')) :
    Writes k store store' := by
  simp only [disableSchedule, bind_ok_iff] at h
  obtain ⟨_, -, row, -, _, -, h⟩ := h
  split at h
  · obtain ⟨-, rfl⟩ := Prod.mk.inj (Except.ok.inj h)
    exact writes_of_tables rfl rfl
  · obtain ⟨-, rfl⟩ := Prod.mk.inj (Except.ok.inj h)
    exact .refl _ _

theorem writes_attemptSchedule {admission : AdmissionConfig} {env : Env} {row : ScheduleRow}
    {store store' : Store} (h : attemptSchedule admission env store row = .ok store') :
    Writes k store store' := by
  unfold attemptSchedule at h
  split at h
  · next captured hcaptured =>
    obtain rfl := Except.ok.inj h
    simp only [scheduledCapture, bind_ok_iff, pure_ok_iff] at hcaptured
    obtain ⟨_, -, _, -, _, -, _, -, _, -, ⟨_, inner⟩, hinner, _, -, rfl⟩ := hcaptured
    exact (writes_captureInTransaction hinner).congr rfl rfl
  · obtain rfl := Except.ok.inj h
    exact writes_of_tables rfl rfl
  · cases h

theorem writes_advanceSchedule {admission : AdmissionConfig} {id : ScheduleId} {env : Env}
    {store store' : Store} (h : advanceSchedule admission id env store = .ok ((), store')) :
    Writes k store store' := by
  unfold advanceSchedule at h
  split at h
  · obtain ⟨-, rfl⟩ := Prod.mk.inj (Except.ok.inj h)
    exact .refl _ _
  · simp only [bind_ok_iff] at h
    obtain ⟨_, -, h⟩ := h
    split at h
    · simp only [bind_ok_iff, pure_ok_iff, Prod.mk.injEq] at h
      obtain ⟨_, hattempt, -, rfl⟩ := h
      exact writes_attemptSchedule hattempt
    · obtain ⟨-, rfl⟩ := Prod.mk.inj (Except.ok.inj h)
      exact .refl _ _

theorem safe_reconcileSchedules {admission : AdmissionConfig} :
    Safe submissions.contract k (Ends Anyhow) (reconcileSchedules admission) w := by
  refine Safe.seq (Q := fun _ _ => True)
    (Marks.safe_look Marks.Stable.trivial trivial fun v env a s _ _ hok => ?_) fun due v _ => ?_
  · obtain ⟨-, rfl⟩ := Prod.mk.inj (Except.ok.inj hok)
    exact ⟨rfl, trivial⟩
  · have hround : ∀ id ∈ due, ∀ v : World interface, True → Safe submissions.contract k
        (fun r _ => match r with
          | .ok _ => True
          | .error _ => True) (Prog.transact (S := interface) (advanceSchedule admission id)) v := by
      intro id _ v _
      refine (safe_record fun _ _ _ hok => writes_advanceSchedule hok).mono fun r _ _ => ?_
      cases r <;> trivial
    exact Safe.forEach trivial hround fun _ _ => trivial

/-! ## Purges -/

theorem writes_admitPurge {now : Instant} {row : BackupRow} {purgeId : PurgeId}
    {reason : PurgeReason} {grantId : Option GrantId} {store store' : Store}
    (h : admitPurge now store row purgeId reason grantId = .ok store') : Writes k store store' := by
  simp only [admitPurge, bind_ok_iff, pure_ok_iff] at h
  obtain ⟨_, -, _, -, rfl⟩ := h
  have hpending : Writes k store (setState store row.id (.purgePending purgeId)) :=
    writes_backup_record (fun _ => rfl) fun _ => rfl
  exact hpending.congr rfl rfl

theorem writes_requestPurge {principal : Principal} {id : BackupId} {purgeId : PurgeId} {env : Env}
    {store store' : Store} (h : requestPurge principal id purgeId env store = .ok ((), store')) :
    Writes k store store' := by
  simp only [requestPurge, bind_ok_iff] at h
  obtain ⟨authority, -, row, -, _, -, h⟩ := h
  cases hpurge : getPurge store purgeId with
  | some purge =>
    simp only [hpurge, bind_ok_iff, pure_ok_iff, Prod.mk.injEq] at h
    obtain ⟨_, -, -, rfl⟩ := h
    exact .refl _ _
  | none =>
    simp only [hpurge, bind_ok_iff, pure_ok_iff, Prod.mk.injEq, lift_ok_iff] at h
    obtain ⟨_, -, _, hadmit, -, rfl⟩ := h
    exact writes_admitPurge hadmit

theorem writes_admitExpiredBackup {id : BackupId} {env : Env} {store store' : Store}
    (h : admitExpiredBackup id env store = .ok ((), store')) : Writes k store store' := by
  unfold admitExpiredBackup at h
  split at h
  · obtain ⟨-, rfl⟩ := Prod.mk.inj (Except.ok.inj h)
    exact .refl _ _
  · simp only [bind_ok_iff] at h
    obtain ⟨_, -, h⟩ := h
    split at h
    · simp only [bind_ok_iff, pure_ok_iff, Prod.mk.injEq, lift_ok_iff] at h
      obtain ⟨_, hadmit, -, rfl⟩ := h
      exact writes_admitPurge hadmit
    · obtain ⟨-, rfl⟩ := Prod.mk.inj (Except.ok.inj h)
      exact .refl _ _

theorem safe_admitCandidates {deadline : Instant} (ids : List BackupId) :
    Safe submissions.contract k (Ends Anyhow) (admitCandidates deadline ids) w := by
  induction ids generalizing w with
  | nil => exact Safe.ends trivial
  | cons id rest ih =>
    refine Safe.seq (Marks.safe_ask Marks.Stable.trivial rfl trivial) fun now v _ => ?_
    split
    · exact Safe.ends trivial
    · exact Safe.seq (safe_record fun _ _ _ hok => writes_admitExpiredBackup hok) fun _ v _ => ih

theorem safe_pruneScheduled {maxObjects maxRunSeconds : Nat} :
    Safe submissions.contract k (Ends Anyhow) (pruneScheduled maxObjects maxRunSeconds) w := by
  refine Safe.seq (Marks.safe_ask Marks.Stable.trivial rfl trivial) fun started v _ => ?_
  refine Safe.seq (Q := fun _ _ => True)
    (Marks.safe_look Marks.Stable.trivial trivial fun v env a s _ _ hok => ?_)
    fun candidates v _ => safe_admitCandidates candidates
  obtain ⟨-, rfl⟩ := Prod.mk.inj (Except.ok.inj hok)
  exact ⟨rfl, trivial⟩

theorem safe_savePurge {id : PurgeId} {f : PurgeRow → PurgeRow} :
    Safe submissions.contract k (Ends Anyhow) (savePurge id f) w := by
  refine safe_record fun env store s hok => ?_
  obtain ⟨-, rfl⟩ := Prod.mk.inj (Except.ok.inj hok)
  exact writes_of_tables rfl rfl

theorem writes_completePurge {purge : PurgeRow} {env : Env} {store store' : Store}
    (h : completePurge purge env store = .ok ((), store')) : Writes k store store' := by
  simp only [completePurge, bind_ok_iff, pure_ok_iff, Prod.mk.injEq] at h
  obtain ⟨row, -, _, -, -, rfl⟩ := h
  have hreleased : Writes k store (updateBackup store purge.backupId fun row =>
      { row with state := .purged purge.id env.now, reservedBytes := 0 }) :=
    writes_backup_record (fun _ => rfl) fun _ => rfl
  exact hreleased.congr rfl rfl

theorem safe_versionExists {receipt : Receipt} :
    Safe submissions.contract k (Ends Anyhow) (versionExists receipt) w := by
  refine Safe.seq (Marks.safe_ask Marks.Stable.trivial rfl trivial) fun reply v _ => ?_
  refine Safe.seq (safe_thrown (P := fun _ => True) trivial) fun head v _ => ?_
  cases head with
  | none => exact Safe.ends trivial
  | some head =>
    exact Safe.seq (safe_checkMetadata (quiet_of_stable Marks.Stable.trivial) trivial) fun _ _ _ => Safe.ends trivial

theorem safe_purgeObject {store : StoreConfig} {receipt : Receipt} :
    Safe submissions.contract k (Ends Anyhow) (purgeObject store receipt) w := by
  refine Safe.seq (safe_bind (P := fun _ => True) (quiet_of_stable Marks.Stable.trivial) trivial) fun _ v _ => ?_
  refine Safe.seq (Marks.safe_ask Marks.Stable.trivial rfl trivial) fun protection v _ => ?_
  refine Safe.seq (safe_thrown (P := fun _ => True) trivial) fun _ v _ => ?_
  refine Safe.seq safe_versionExists fun present v _ => ?_
  split
  · refine Safe.seq (safe_retainedUntil (P := fun _ => True) (quiet_of_stable Marks.Stable.trivial) trivial)
      fun retainUntil v _ => ?_
    refine Safe.seq (Marks.safe_ask Marks.Stable.trivial rfl trivial) fun now v _ => ?_
    split
    · exact Safe.ends trivial
    · refine Safe.seq (Marks.safe_ask Marks.Stable.trivial rfl trivial) fun reply v _ => ?_
      refine Safe.seq (safe_thrown (P := fun _ => True) trivial) fun _ v _ => ?_
      refine Safe.seq safe_versionExists fun present v _ => ?_
      exact Safe.seq (safe_refuseIf (P := fun _ => True) trivial) fun _ _ _ => Safe.ends trivial
  · exact Safe.ends trivial

theorem safe_settlePurge {purge : PurgeRow} {outcome : PurgeOutcome} :
    Safe submissions.contract k (Ends Anyhow) (settlePurge purge outcome) w := by
  cases outcome with
  | absent => exact safe_record fun _ _ _ hok => writes_completePurge hok
  | retained retainUntil =>
    exact Safe.seq (Marks.safe_ask Marks.Stable.trivial rfl trivial) fun _ _ _ => safe_savePurge

theorem safe_executePurge {store : StoreConfig} {purge : PurgeRow} {now : Instant} :
    Safe submissions.contract k (Ends Anyhow) (executePurge store purge now) w := by
  refine Safe.seq (Q := fun _ _ => True)
    (Marks.safe_look Marks.Stable.trivial trivial fun v env a s _ _ hok => ?_) fun row v _ => ?_
  · obtain ⟨-, rfl⟩ := Prod.mk.inj (Except.ok.inj hok)
    exact ⟨rfl, trivial⟩
  · refine Safe.seq (Q := fun _ _ => True) (Safe.ofExcept fun _ _ => trivial) fun receipt v _ => ?_
    refine Safe.seq safe_savePurge fun _ v _ => ?_
    refine Safe.seq (Q := fun _ _ => True) (Safe.attempt ?_) fun outcome v _ => ?_
    · exact safe_purgeObject.mono fun _ _ _ => trivial
    · cases outcome with
      | error fault =>
        refine safe_record fun env store s hok => ?_
        obtain ⟨-, rfl⟩ := Prod.mk.inj (Except.ok.inj hok)
        exact writes_of_tables rfl rfl
      | ok outcome => exact safe_settlePurge

theorem safe_advancePurge {store : StoreConfig} {backupId : BackupId} {id : PurgeId} :
    Safe submissions.contract k (Ends Anyhow) (advancePurge store backupId id) w := by
  refine Safe.seq (Q := fun _ _ => True)
    (Marks.safe_look Marks.Stable.trivial trivial fun v env a s _ _ hok => ?_) fun purge v _ => ?_
  · obtain ⟨-, rfl⟩ := Prod.mk.inj (Except.ok.inj hok)
    exact ⟨rfl, trivial⟩
  · cases purge with
    | none => exact Safe.ends trivial
    | some purge =>
      refine Safe.seq (Q := fun _ _ => True)
        (Marks.safe_look Marks.Stable.trivial trivial fun v env a s _ _ hok => ?_) fun now v _ => ?_
      · obtain ⟨-, rfl⟩ := Prod.mk.inj (Except.ok.inj hok)
        exact ⟨rfl, trivial⟩
      · split
        · exact safe_executePurge
        · exact Safe.ends trivial

/-! ## Recovery -/

/-- The recovery of an upload asks for nothing, and stores what was submitted. -/
theorem safe_applyRecovery {id : BackupId} {expected : ReceiptIdentity} :
    Safe submissions.contract (.backup id) (Ends Anyhow) (applyRecovery config id expected) w := by
  refine Safe.seq safe_readBackup fun row v hfound => ?_
  cases row with
  | none => trivial
  | some row =>
    obtain ⟨hid, hown, hphase⟩ := hfound row rfl
    subst hid
    simp only
    split
    · trivial
    · split
      · next parts attempts hwork =>
        rw [hwork] at hphase
        have hparts : parts.intent.attemptId = row.id :=
          hown parts (by simp [hwork, BackupWork.sealed?])
        split
        · refine Safe.seq (safe_recover (quiet_of_stable stable_phase) hphase) fun resolution v hv => ?_
          cases resolution with
          | none => trivial
          | some receipt =>
            refine Marks.safe_write fun u env a s hu _ hok => ?_
            simp only [resolveUpload, bind_ok_iff, pure_ok_iff, Prod.mk.injEq] at hok
            obtain ⟨_, -, _, -, _, -, -, rfl⟩ := hok
            have hsealed : ∀ got ∈ (BackupWork.stored parts receipt false 0).sealed?,
                got.intent.attemptId = row.id := by
              intro got hgot
              obtain rfl := Option.some.inj hgot
              exact hparts
            have hrank : (BackupWork.uploadSubmitted parts attempts).rank ≤
                (BackupWork.stored parts receipt false 0).rank := Nat.le_succ 3
            refine ⟨And.left (writes_phase (stable_phase.rely hu hv.2) ?_ ?_ hrank hsealed), trivial⟩
            · intro found
              rfl
            · intro found
              rfl
        · trivial
      · split
        · exact Safe.ends trivial
        · trivial

end AgentCloud.Backups
