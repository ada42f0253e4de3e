/-
  PURGE SAFETY: an object that is deleted is one that nobody can still need.

  The admission of a purge is the turning point.  It is refused while an unfinished restore of the
  backup has a target that is not destroyed, and from then on no restore of it is admitted, as it is
  not captured any more.  So from the admission on every restore of it is done or has lost its
  target, and since neither of these is ever undone, this is still so when the DELETE is sent, days
  later (`Change.unpinned`).
-/
import AgentCloud.Backups.Accounting

namespace AgentCloud.Backups

open Checked Durable

variable {admission : AdmissionConfig} {k : Slot} {log : Log} {store store' : Store} {id : BackupId}
  {w start : World interface} {c c' : Config interface Slot}

/-! ## Machines and restores -/

theorem isDestroyed_move {machines : List TargetMachine} {machineId : MachineId}
    (h : MachinesMove store.machines machines) (hmachines : store'.machines = machines)
    (hdestroyed : isDestroyed store machineId = true) : isDestroyed store' machineId = true := by
  obtain ⟨machine, hm, hmachine⟩ := List.any_eq_true.mp hdestroyed
  simp only [decide_eq_true_eq] at hmachine
  obtain ⟨machine', hm', hid, -, hforward⟩ := h machine hm
  refine List.any_eq_true.mpr ⟨machine', hmachines ▸ hm', ?_⟩
  have hstage := MachineState.stage_le hforward
  simp only [decide_eq_true_eq]
  exact ⟨hid.trans hmachine.1, by omega⟩

/-- Every restore of the backup is done, or has lost its target. -/
theorem pinned_eq_false : pinned store id = false ↔ ∀ restore ∈ store.restores,
    restore.backupId = id → restore.work = .done ∨ isDestroyed store restore.machineId = true := by
  rw [pinned, List.any_eq_false]
  refine forall_congr' fun restore => forall_congr' fun hm => ?_
  by_cases hof : restore.backupId = id
  · by_cases hdone : restore.work = .done
    · simp [hof, hdone]
    · cases hdestroyed : isDestroyed store restore.machineId <;> simp [hof, hdone]
  · simp [hof]

theorem Change.machines_move (h : Change admission log k store store') :
    MachinesMove store.machines store'.machines := by
  have hsame : MachinesMove store.machines store.machines :=
    fun machine hm => ⟨machine, hm, rfl, rfl, MachineState.mayBecome_refl⟩
  cases h with
  | restore row fresh source machines kept => exact kept
  | admitted | move | restoring | finished | purge | purging | purged | created | disabled
    | refused | ran => exact hsame

/-- A restore that is there was there before, or its backup was captured when it was admitted. -/
theorem Change.restore_back (h : Change admission log k store store') {restore' : RestoreRow}
    (hm : restore' ∈ store'.restores) :
    (∃ restore ∈ store.restores, restore'.id = restore.id ∧
      restore'.backupId = restore.backupId ∧ restore'.machineId = restore.machineId) ∨
    ∃ backup, getBackup store restore'.backupId = some backup ∧
      backup.state.isCaptured = true := by
  have hupdate : ∀ (restoreId : RestoreId) (f : RestoreRow → RestoreRow),
      (∀ row, (f row).id = row.id ∧ (f row).backupId = row.backupId ∧
        (f row).machineId = row.machineId) →
      restore' ∈ (updateRestore store restoreId f).restores →
      ∃ restore ∈ store.restores, restore'.id = restore.id ∧
        restore'.backupId = restore.backupId ∧ restore'.machineId = restore.machineId := by
    intro restoreId f hf hm
    obtain ⟨restore, hrestore, rfl⟩ := Table.mem_update hm
    refine ⟨restore, hrestore, ?_⟩
    split
    · exact hf restore
    · exact ⟨rfl, rfl, rfl⟩
  cases h with
  | restore row fresh source machines kept =>
    rcases List.mem_append.mp hm with hm | hm
    · exact .inl ⟨restore', hm, rfl, rfl, rfl⟩
    · obtain rfl := List.mem_singleton.mp hm
      exact .inr source
  | restoring restoreId f own same => exact .inl (hupdate restoreId f same hm)
  | finished restoreId f own same source g sameSource moves =>
    exact .inl (hupdate restoreId f same hm)
  | admitted | move | purge | purging | purged | created | disabled | refused | ran =>
    exact .inl ⟨restore', hm, rfl, rfl, rfl⟩

/-! ## Given up -/

/-- A purge of the backup was admitted. -/
def GivenUp (store : Store) (id : BackupId) : Prop :=
  ∃ row, getBackup store id = some row ∧ row.state.purge? ≠ none

theorem RowStep.givenUp {row row' : BackupRow} (h : RowStep log k row row')
    (hgiven : row.state.purge? ≠ none) : row'.state.purge? ≠ none := by
  cases h with
  | same => exact hgiven
  | pended | retired => simp [BackupState.purge?]
  | moves h =>
    cases h with
    | phase work own pending => simp [pending, BackupState.purge?] at hgiven
    | blocked reason own pending => simp [pending, BackupState.purge?] at hgiven
    | stored parts attempts receipt own submitted waiting receives =>
      rcases waiting with hpending | hblocked
      · simp [hpending, BackupState.purge?] at hgiven
      · cases hstate : row.state <;> simp_all [BackupState.purge?, BackupState.isBlocked]
    | cleaned => exact hgiven
    | verified bytes capturedAt validation manifest captured =>
      simp [captured, BackupState.purge?] at hgiven

/-- A backup that was given up stays so, and gets no further restore. -/
theorem Change.givenUp (h : Change admission log k store store') (hgiven : GivenUp store id) :
    GivenUp store' id ∧ ∀ restore' ∈ store'.restores, restore'.backupId = id →
      ∃ restore ∈ store.restores, restore'.id = restore.id ∧
        restore'.backupId = restore.backupId ∧ restore'.machineId = restore.machineId := by
  obtain ⟨row, hrow, hpurge⟩ := hgiven
  obtain ⟨row', hrow', hstep⟩ := h.row_step hrow
  refine ⟨⟨row', hrow', hstep.givenUp hpurge⟩, fun restore' hm hof => ?_⟩
  rcases h.restore_back hm with hold | ⟨backup, hbackup, hcaptured⟩
  · exact hold
  · rw [hof, hrow] at hbackup
    obtain rfl := Option.some.inj hbackup
    cases hstate : row.state <;> simp_all [BackupState.isCaptured, BackupState.purge?]

/-- No backup that was given up is pinned by a restore. -/
def Unpinned (store : Store) : Prop := ∀ id, GivenUp store id → pinned store id = false

/-- **Inversion.**  Only the admission of a purge gives a backup up. -/
theorem Change.admits (h : Change admission log k store store') {row : BackupRow}
    (hrow : getBackup store id = some row) (hfresh : row.state.purge? = none)
    (hgiven : GivenUp store' id) :
    ∃ now purgeId reason grantId, Purgeable store row ∧
      (reason = .retention → retentionEligible now store row = true) ∧
      store' = { setState store id (.purgePending purgeId) with
        purges := store.purges ++ [newPurge now row purgeId reason grantId] } := by
  obtain ⟨row', hrow', hpurge⟩ := hgiven
  have hmoved : ∀ {row' : BackupRow}, Moves k row row' → row'.state.purge? = none := by
    intro row' hmoves
    cases hmoves with
    | phase | cleaned => exact hfresh
    | stored | blocked | verified => rfl
  have hrewritten : ∀ (j : BackupId) (f : BackupRow → BackupRow), (∀ row, (f row).id = row.id) →
      getBackup (updateBackup store j f) id = some row' → row' = row ∨ id = j ∧ row' = f row := by
    intro j f hf hfound
    rw [getBackup_update hf] at hfound
    split at hfound
    · next hid =>
      rw [hrow] at hfound
      exact .inr ⟨hid, (Option.some.inj hfound).symm⟩
    · exact .inl (Option.some.inj (hfound.symm.trans hrow))
  have hdifferent : row' ≠ row := by
    rintro rfl
    exact hpurge hfresh
  cases h with
  | purge found mem purgeable now purgeId reason grantId fresh eligible =>
    rcases hrewritten found.id (fun row => { row with state := .purgePending purgeId })
      (fun _ => rfl) hrow' with heq | ⟨rfl, -⟩
    · exact absurd heq hdifferent
    · obtain rfl := Option.some.inj (mem.symm.trans hrow)
      exact ⟨now, purgeId, reason, grantId, purgeable, eligible, rfl⟩
  | move j f same moves =>
    rcases hrewritten j f same hrow' with heq | ⟨rfl, rfl⟩
    · exact absurd heq hdifferent
    · exact absurd (hmoved (moves row hrow)) hpurge
  | finished restoreId f own same source g sameSource moves =>
    rcases hrewritten source g sameSource hrow' with heq | ⟨rfl, rfl⟩
    · exact absurd heq hdifferent
    · exact absurd (hmoved (moves row hrow)) hpurge
  | purged found mem own purge owns recorded pending parts receipt cleaned attempts stored absent
      gone now =>
    rcases hrewritten found.id (fun row =>
      { row with state := .purged purge.id now, reservedBytes := 0 }) (fun _ => rfl) hrow' with
      heq | ⟨rfl, -⟩
    · exact absurd heq hdifferent
    · obtain rfl := Option.some.inj (mem.symm.trans hrow)
      simp [pending, BackupState.purge?] at hfresh
  | admitted new =>
    exact absurd (Option.some.inj (hrow'.symm.trans (get_inserted hrow))) hdifferent
  | ran schedule mem enabled now due backup =>
    exact absurd (Option.some.inj (hrow'.symm.trans (get_inserted hrow))) hdifferent
  | restore | restoring | purging | created | disabled | refused =>
    exact absurd (Option.some.inj (hrow'.symm.trans hrow)) hdifferent

/-- **Step lemma.**  A restore that is done stays done, and a destroyed target destroyed. -/
theorem Change.unpinned (hs : Sound admission store) (hP : Unpinned store)
    (h : Change admission log k store store') (hwrites : Writes k store store') :
    Unpinned store' := by
  intro id hgiven'
  by_cases hgiven : GivenUp store id
  · have hbefore := pinned_eq_false.mp (hP id hgiven)
    refine pinned_eq_false.mpr fun restore' hm hof => ?_
    obtain ⟨restore, hrestore, hid, hbackup, hmachine⟩ := (h.givenUp hgiven).2 restore' hm hof
    rcases hbefore restore hrestore (hbackup.symm.trans hof) with hdone | hdestroyed
    · left
      obtain ⟨found, hfound, hstep⟩ := hwrites.restores restore.id restore (hs.restores.get hrestore)
      have hget : getRestore store' restore'.id = some restore' := (h.sound hs).restores.get hm
      rw [hid, hfound] at hget
      obtain rfl := Option.some.inj hget
      have hforward := hstep.forward
      rw [hdone] at hforward
      cases hwork : found.work <;> simp_all [RestoreWork.rank]
    · right
      rw [hmachine]
      exact isDestroyed_move h.machines_move rfl hdestroyed
  · cases hrow : getBackup store id with
    | none =>
      obtain ⟨row', hrow', hpurge⟩ := hgiven'
      have hnew := h.row_new hrow hrow'
      simp [hnew.state, BackupState.purge?] at hpurge
    | some row =>
      have hfresh : row.state.purge? = none := by
        by_contra hne
        exact hgiven ⟨row, hrow, hne⟩
      obtain ⟨now, purgeId, reason, grantId, purgeable, -, rfl⟩ := h.admits hrow hfresh hgiven'
      have hid : row.id = id := Table.get_key hrow
      exact hid ▸ purgeable.unpinned

/-! ## Every run -/

/-- What was given up gets no further restore. -/
def Closed (id : BackupId) (v v' : World interface) : Prop :=
  GivenUp v.store id → GivenUp v'.store id ∧ ∀ restore' ∈ v'.store.restores,
    restore'.backupId = id → ∃ restore ∈ v.store.restores, restore'.id = restore.id

theorem Closed.refl (id : BackupId) (v : World interface) : Closed id v v :=
  fun hgiven => ⟨hgiven, fun restore hm _ => ⟨restore, hm, rfl⟩⟩

end AgentCloud.Backups
