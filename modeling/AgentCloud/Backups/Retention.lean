/-
  RETENTION: what automatic purges leave.

  An automatic purge of a backup is admitted on the strength of seven later days that still have a
  captured backup of the same series.  Some of those may be given up in turn, and then each of them
  had seven later days of its own, which are later days of the first backup as well.  So the number
  seven survives any sequence of automatic purges, in any order (`Change.protected`); nothing but a
  purge by the account can lower it.
-/
import AgentCloud.Backups.PurgeSafety
import Mathlib.Data.List.Perm.Subperm

namespace AgentCloud.Backups

open Checked Durable

variable {admission : AdmissionConfig} {k : Slot} {log : Log} {store store' : Store} {id : BackupId}
  {w start : World interface} {c c' : Config interface Slot} {row : BackupRow}

/-! ## Series and days -/

theorem sameSeries_iff {row other : BackupRow} : row.sameSeries other = true ↔
    other.machineId = row.machineId ∧ other.accountId = row.accountId ∧
      other.request.recipe.data = row.request.recipe.data := by
  simp [BackupRow.sameSeries, and_assoc]

theorem sameSeries_trans {a b c : BackupRow} (h : a.sameSeries b = true)
    (h' : b.sameSeries c = true) : a.sameSeries c = true := by
  rw [sameSeries_iff] at h h' ⊢
  exact ⟨h'.1.trans h.1, h'.2.1.trans h.2.1, h'.2.2.trans h.2.2⟩

/-- What no change of a row touches. -/
structure SameBackup (row row' : BackupRow) : Prop where
  id : row'.id = row.id
  created : row'.createdAt = row.createdAt
  machine : row'.machineId = row.machineId
  account : row'.accountId = row.accountId
  request : row'.request = row.request

theorem RowStep.sameBackup {row' : BackupRow} (h : RowStep log k row row') :
    SameBackup row row' := by
  cases h with
  | same | pended | retired => exact ⟨rfl, rfl, rfl, rfl, rfl⟩
  | moves h => cases h <;> exact ⟨rfl, rfl, rfl, rfl, rfl⟩

theorem SameBackup.series {row' other other' : BackupRow} (h : SameBackup row row')
    (h' : SameBackup other other') (hs : row.sameSeries other = true) :
    row'.sameSeries other' = true := by
  rw [sameSeries_iff] at hs ⊢
  rw [h.machine, h.account, h.request, h'.machine, h'.account, h'.request]
  exact hs

/-- Another backup of the series, by a schedule, on a later day. -/
structure Later (store : Store) (row later : BackupRow) : Prop where
  mem : later ∈ store.backups
  scheduled : isScheduled store later.id = true
  series : row.sameSeries later = true
  day : utcDay row.createdAt < utcDay later.createdAt

theorem mem_laterDays {day : Nat} : day ∈ laterDays store row ↔ ∃ later, Later store row later ∧
    later.state.isCaptured = true ∧ utcDay later.createdAt = day := by
  simp only [laterDays, laterCaptures, List.mem_dedup, List.mem_map, List.mem_filter,
    Bool.and_eq_true, decide_eq_true_eq]
  constructor
  · rintro ⟨later, ⟨hm, ⟨⟨hscheduled, hseries⟩, hcaptured⟩, hday⟩, rfl⟩
    exact ⟨later, ⟨hm, hscheduled, hseries, hday⟩, hcaptured, rfl⟩
  · rintro ⟨later, ⟨hm, hscheduled, hseries, hday⟩, hcaptured, rfl⟩
    exact ⟨later, ⟨hm, ⟨⟨hscheduled, hseries⟩, hcaptured⟩, hday⟩, rfl⟩

/-- The later days on which a backup of the series was stored, whatever became of it since. -/
def successfulDays (store : Store) (row : BackupRow) : List Nat :=
  ((store.backups.filter fun later => isScheduled store later.id && row.sameSeries later &&
    decide (later.work.rank = 4) && decide (utcDay row.createdAt < utcDay later.createdAt)).map
    fun later => utcDay later.createdAt).dedup

theorem mem_successfulDays {day : Nat} : day ∈ successfulDays store row ↔
    ∃ later, Later store row later ∧ later.work.rank = 4 ∧ utcDay later.createdAt = day := by
  simp only [successfulDays, List.mem_dedup, List.mem_map, List.mem_filter,
    Bool.and_eq_true, decide_eq_true_eq]
  constructor
  · rintro ⟨later, ⟨hm, ⟨⟨hscheduled, hseries⟩, hrank⟩, hday⟩, rfl⟩
    exact ⟨later, ⟨hm, hscheduled, hseries, hday⟩, hrank, rfl⟩
  · rintro ⟨later, ⟨hm, hscheduled, hseries, hday⟩, hrank, rfl⟩
    exact ⟨later, ⟨hm, ⟨⟨hscheduled, hseries⟩, hrank⟩, hday⟩, rfl⟩

/-- Distinct days are counted, so more days are a greater number. -/
theorem days_le {days days' : List Nat} (hnodup : days.Nodup)
    (h : ∀ day ∈ days, day ∈ days') : days.length ≤ days'.length :=
  (hnodup.subperm h).length_le

theorem laterDays_nodup : (laterDays store row).Nodup := List.nodup_dedup _

theorem successfulDays_nodup : (successfulDays store row).Nodup := List.nodup_dedup _

/-! ## What a change does to schedules' backups -/

theorem Change.runs_kept (h : Change admission log k store store') {run : ScheduleRun}
    (hm : run ∈ store.runs) : run ∈ store'.runs := by
  cases h with
  | ran => exact List.mem_append_left _ hm
  | admitted | move | restore | restoring | finished | purge | purging | purged | created
    | disabled | refused => exact hm

theorem Change.scheduled_kept (h : Change admission log k store store')
    (hscheduled : isScheduled store id = true) : isScheduled store' id = true := by
  obtain ⟨run, hm, hrun⟩ := List.any_eq_true.mp hscheduled
  exact List.any_eq_true.mpr ⟨run, h.runs_kept hm, hrun⟩

/-- Whether a backup is a schedule's is settled when its row is written. -/
theorem Change.scheduled_iff (h : Change admission log k store store')
    (hrow : getBackup store id = some row) : isScheduled store' id = isScheduled store id := by
  cases h with
  | ran schedule mem enabled now due backup fresh =>
    have hne : backup.id ≠ id := by
      rintro rfl
      cases fresh.symm.trans hrow
    simp [isScheduled, recordAttempt, updateSchedule, hne]
  | admitted | move | restore | restoring | finished | purge | purging | purged | created
    | disabled | refused => rfl

/-- A later backup of the series is still there. -/
theorem Change.later (hs : Sound admission store) (h : Change admission log k store store')
    {row' later : BackupRow} (hsame : SameBackup row row') (hlater : Later store row later) :
    ∃ later', Later store' row' later' ∧ RowStep log k later later' := by
  obtain ⟨later', hlater', hstep⟩ := h.row_step (hs.get hlater.mem)
  have hsame' := hstep.sameBackup
  refine ⟨later', ⟨Table.get_mem hlater', ?_, hsame.series hsame' hlater.series, ?_⟩, hstep⟩
  · rw [hsame'.id]
    exact h.scheduled_kept hlater.scheduled
  · rw [hsame.created, hsame'.created]
    exact hlater.day

/-- A captured backup that is not given up is still captured. -/
theorem RowStep.captured {row' : BackupRow} (h : RowStep log k row row')
    (hcaptured : row.state.isCaptured = true) (hkept : row'.state.purge? = none) :
    row'.state.isCaptured = true := by
  cases h with
  | same => exact hcaptured
  | pended | retired => cases hkept
  | moves h =>
    cases h with
    | phase | cleaned => exact hcaptured
    | blocked reason own pending => simp [pending, BackupState.isCaptured] at hcaptured
    | stored | verified => rfl

/-- Days whose captures are not given up are still later days. -/
theorem Change.days_kept (hs : Sound admission store) (h : Change admission log k store store')
    {row' : BackupRow} (hsame : SameBackup row row')
    (hkept : ∀ later, Later store row later → later.state.isCaptured = true →
      ¬ GivenUp store' later.id) :
    (laterDays store row).length ≤ (laterDays store' row').length := by
  refine days_le laterDays_nodup fun day hday => ?_
  obtain ⟨later, hlater, hcaptured, rfl⟩ := mem_laterDays.mp hday
  obtain ⟨later', hlater', hstep⟩ := h.later hs hsame hlater
  refine mem_laterDays.mpr ⟨later', hlater', hstep.captured hcaptured ?_, ?_⟩
  · by_contra hgiven
    have hid := hstep.sameBackup.id
    refine hkept later hlater hcaptured ⟨later', ?_, hgiven⟩
    exact hid ▸ (h.sound hs).get hlater'.mem
  · rw [hstep.sameBackup.created]

theorem captured_fresh {state : BackupState} (h : state.isCaptured = true) :
    state.purge? = none := by
  cases state <;> simp_all [BackupState.isCaptured, BackupState.purge?]

/-- One change gives up one backup at most. -/
theorem Change.gives_up_one (h : Change admission log k store store') {other : BackupRow}
    (hrow : getBackup store id = some row) (hfresh : row.state.purge? = none)
    (hgiven : GivenUp store' id) (hother : getBackup store other.id = some other)
    (hotherFresh : other.state.purge? = none) (hotherGiven : GivenUp store' other.id) :
    other.id = id := by
  obtain ⟨now, purgeId, reason, grantId, -, -, rfl⟩ := h.admits hrow hfresh hgiven
  by_contra hne
  obtain ⟨found, hfound, hpurge⟩ := hotherGiven
  have hsame : getBackup (setState store id (.purgePending purgeId)) other.id = some other := by
    have hget : getBackup (setState store id (.purgePending purgeId)) other.id =
        if other.id = id then (getBackup store other.id).map fun row =>
          { row with state := .purgePending purgeId } else getBackup store other.id :=
      getBackup_update fun _ => rfl
    rw [hget, if_neg hne, hother]
  obtain rfl := Option.some.inj (hsame.symm.trans hfound)
  exact hpurge hotherFresh

/-! ## Purge rows -/

/-- A purge that is there was there before, or was admitted by this change. -/
theorem Change.purge_back (h : Change admission log k store store') {purge' : PurgeRow}
    (hm : purge' ∈ store'.purges) :
    (∃ purge ∈ store.purges, purge'.id = purge.id ∧ purge'.backupId = purge.backupId ∧
      purge'.reason = purge.reason) ∨
    ∃ row now, getBackup store purge'.backupId = some row ∧ row.state.isCaptured = true ∧
      (purge'.reason = .retention → retentionEligible now store row = true) := by
  have hsame : ∀ purge ∈ store.purges, ∃ found ∈ store.purges, purge.id = found.id ∧
      purge.backupId = found.backupId ∧ purge.reason = found.reason :=
    fun purge hm => ⟨purge, hm, rfl, rfl, rfl⟩
  have hupdate : ∀ (purgeId : PurgeId) (f : PurgeRow → PurgeRow),
      (∀ purge, (f purge).id = purge.id ∧ (f purge).backupId = purge.backupId ∧
        (f purge).reason = purge.reason) →
      purge' ∈ (updatePurge store purgeId f).purges →
      ∃ purge ∈ store.purges, purge'.id = purge.id ∧ purge'.backupId = purge.backupId ∧
        purge'.reason = purge.reason := by
    intro purgeId f hf hm
    obtain ⟨purge, hpurge, rfl⟩ := Table.mem_update hm
    refine ⟨purge, hpurge, ?_⟩
    split
    · exact hf purge
    · exact ⟨rfl, rfl, rfl⟩
  cases h with
  | purge row mem purgeable now purgeId reason grantId fresh eligible =>
    rcases List.mem_append.mp hm with hm | hm
    · exact .inl (hsame purge' hm)
    · obtain rfl := List.mem_singleton.mp hm
      exact .inr ⟨row, now, mem, purgeable.captured, eligible⟩
  | purging purgeId f own same => exact .inl (hupdate purgeId f same hm)
  | purged row mem own purge owns recorded pending parts receipt cleaned attempts stored absent gone
      now =>
    refine .inl (hupdate purge.id (fun purge =>
      { purge with state := .purged now, nextAttemptAt := none }) (fun _ => ⟨rfl, rfl, rfl⟩) hm)
  | admitted | move | restore | restoring | finished | created | disabled | refused | ran =>
    exact .inl (hsame purge' hm)

theorem Change.purges_kept (h : Change admission log k store store') {purge : PurgeRow}
    (hm : purge ∈ store.purges) : ∃ purge' ∈ store'.purges, purge'.reason = purge.reason := by
  have hupdate : ∀ (purgeId : PurgeId) (f : PurgeRow → PurgeRow),
      (∀ purge, (f purge).reason = purge.reason) →
      ∃ purge' ∈ (updatePurge store purgeId f).purges, purge'.reason = purge.reason := by
    intro purgeId f hf
    refine ⟨if purge.id = purgeId then f purge else purge, List.mem_map_of_mem hm, ?_⟩
    split
    · exact hf purge
    · rfl
  cases h with
  | purge => exact ⟨purge, List.mem_append_left _ hm, rfl⟩
  | purging purgeId f own same => exact hupdate purgeId f fun purge => (same purge).2.2
  | purged row mem own other owns recorded pending parts receipt cleaned attempts stored absent gone
      now =>
    exact hupdate other.id (fun purge =>
      { purge with state := .purged now, nextAttemptAt := none }) fun _ => rfl
  | admitted | move | restore | restoring | finished | created | disabled | refused | ran =>
    exact ⟨purge, hm, rfl⟩

/-! ## Protection -/

theorem eligible_iff {now : Instant} : retentionEligible now store row = true →
    row.state.isCaptured = true ∧ isScheduled store row.id = true ∧
      7 ≤ (laterDays store row).length := by
  simp only [retentionEligible, Bool.and_eq_true, decide_eq_true_eq]
  rintro ⟨⟨⟨⟨⟨hcaptured, -⟩, -⟩, hscheduled⟩, -⟩, hdays⟩
  exact ⟨hcaptured, hscheduled, hdays⟩

/-- Nobody asked for a purge. -/
def Automatic (store : Store) : Prop := ∀ purge ∈ store.purges, purge.reason = .retention

/-- What is given up is a schedule's, and seven later days still have a captured backup. -/
def Protected (store : Store) : Prop := ∀ row ∈ store.backups, row.state.purge? ≠ none →
  isScheduled store row.id = true ∧ 7 ≤ (laterDays store row).length

theorem Change.automatic (h : Change admission log k store store') (hall : Automatic store') :
    Automatic store := by
  intro purge hm
  obtain ⟨purge', hm', hreason⟩ := h.purges_kept hm
  exact hreason ▸ hall purge' hm'

/-- An automatic admission was eligible. -/
theorem Change.eligible (h : Change admission log k store store') (hall : Automatic store')
    (hrow : getBackup store id = some row) (hfresh : row.state.purge? = none)
    (hgiven : GivenUp store' id) : isScheduled store row.id = true ∧
      7 ≤ (laterDays store row).length := by
  obtain ⟨now, purgeId, reason, grantId, -, eligible, rfl⟩ := h.admits hrow hfresh hgiven
  have hreason : reason = .retention :=
    hall (newPurge now row purgeId reason grantId) (List.mem_append_right _ (by simp))
  exact (eligible_iff (eligible hreason)).2

/-- **Step lemma.**  Where a day of a given-up backup is lost, the backup that is given up now had
    seven later days itself. -/
theorem Change.protected (hs : Sound admission store) (hP : Protected store)
    (h : Change admission log k store store') (hall : Automatic store') : Protected store' := by
  intro row' hm hpurge
  have hget : getBackup store' row'.id = some row' := (h.sound hs).get hm
  cases hrow : getBackup store row'.id with
  | none =>
    have hnew := h.row_new hrow hget
    simp [hnew.state, BackupState.purge?] at hpurge
  | some row =>
    obtain ⟨found, hfound, hstep⟩ := h.row_step hrow
    obtain rfl : found = row' := Option.some.inj (hfound.symm.trans hget)
    have hsame := hstep.sameBackup
    have hbefore : isScheduled store row.id = true ∧ 7 ≤ (laterDays store row).length := by
      by_cases hfresh : row.state.purge? = none
      · exact h.eligible hall hrow hfresh ⟨found, hget, hpurge⟩
      · exact hP row (Table.get_mem hrow) hfresh
    refine ⟨hsame.id ▸ h.scheduled_kept hbefore.1, ?_⟩
    by_cases hlost : ∃ later, Later store row later ∧ later.state.isCaptured = true ∧
        GivenUp store' later.id
    · obtain ⟨later, hlater, hcaptured, hgiven⟩ := hlost
      have hfresh := captured_fresh hcaptured
      have hdays := (h.eligible hall (hs.get hlater.mem) hfresh hgiven).2
      have hlaterSame : SameBackup later later := ⟨rfl, rfl, rfl, rfl, rfl⟩
      have hkept : (laterDays store later).length ≤ (laterDays store' later).length := by
        refine h.days_kept hs hlaterSame fun last hlast hlastCaptured hlastGiven => ?_
        have heq := h.gives_up_one (hs.get hlater.mem) hfresh hgiven (hs.get hlast.mem)
          (captured_fresh hlastCaptured) hlastGiven
        have hlastEq := hs.backups.unique hlast.mem hlater.mem heq
        have hday := hlast.day
        rw [hlastEq] at hday
        omega
      have hdeeper : (laterDays store' later).length ≤ (laterDays store' found).length := by
        refine days_le laterDays_nodup fun day hday => ?_
        obtain ⟨last, hlast, hlastCaptured, hlastDay⟩ := mem_laterDays.mp hday
        have hseries : found.sameSeries later = true := hsame.series hlaterSame hlater.series
        have hfirst : utcDay found.createdAt < utcDay later.createdAt := by
          rw [hsame.created]
          exact hlater.day
        have hlastDay' := hlast.day
        exact mem_laterDays.mpr ⟨last, ⟨hlast.mem, hlast.scheduled,
          sameSeries_trans hseries hlast.series, by omega⟩, hlastCaptured, hlastDay⟩
      omega
    · have hkept := h.days_kept hs hsame fun later hlater hcaptured hgiven =>
        hlost ⟨later, hlater, hcaptured, hgiven⟩
      omega

/-- What automatic purges took, whatever else was purged. -/
def Superseded (store : Store) : Prop := ∀ purge ∈ store.purges, purge.reason = .retention →
  ∃ row, getBackup store purge.backupId = some row ∧ isScheduled store row.id = true ∧
    7 ≤ (successfulDays store row).length

/-- **Step lemma.**  A day of success stays one. -/
theorem Change.superseded (hs : Sound admission store) (hP : Superseded store)
    (h : Change admission log k store store') : Superseded store' := by
  intro purge' hm hreason
  have hbefore : ∃ row, getBackup store purge'.backupId = some row ∧
      isScheduled store row.id = true ∧ 7 ≤ (successfulDays store row).length := by
    rcases h.purge_back hm with ⟨purge, hpurge, -, hof, hsame⟩ | ⟨row, now, hrow, -, eligible⟩
    · rw [hof]
      exact hP purge hpurge (hsame ▸ hreason)
    · obtain ⟨-, hscheduled, hdays⟩ := eligible_iff (eligible hreason)
      refine ⟨row, hrow, hscheduled, Nat.le_trans hdays (days_le laterDays_nodup ?_)⟩
      intro day hday
      obtain ⟨later, hlater, hcaptured, hlaterDay⟩ := mem_laterDays.mp hday
      have hfits := (hs.rows later hlater.mem).fits
      refine mem_successfulDays.mpr ⟨later, hlater, ?_, hlaterDay⟩
      cases hstate : later.state <;> cases hwork : later.work <;>
        simp_all [fits, BackupState.isCaptured, BackupWork.rank]
  obtain ⟨row, hrow, hscheduled, hdays⟩ := hbefore
  obtain ⟨row', hrow', hstep⟩ := h.row_step hrow
  have hsame := hstep.sameBackup
  refine ⟨row', hrow', hsame.id ▸ h.scheduled_kept hscheduled, Nat.le_trans hdays ?_⟩
  refine days_le successfulDays_nodup fun day hday => ?_
  obtain ⟨later, hlater, hrank, hlaterDay⟩ := mem_successfulDays.mp hday
  obtain ⟨later', hlater', hlaterStep⟩ := h.later hs hsame hlater
  have hforward := hlaterStep.forward
  have hle : later'.work.rank ≤ 4 := by cases later'.work <;> simp [BackupWork.rank]
  refine mem_successfulDays.mpr ⟨later', hlater', by omega, ?_⟩
  rw [hlaterStep.sameBackup.created, hlaterDay]

/-! ## Every run -/

/-- **Run lemma.**  After automatic purges alone. -/
theorem protected_run (hstart : Opened start)
    (hreach : (storage admission).Reach (.idle start) c) (hall : Automatic c.world.store) :
    Protected c.world.store := by
  have hrun : Automatic c.world.store → Protected c.world.store := by
    refine storage_invariant (P := fun v => Automatic v.store → Protected v.store) ?_
      (fun _ hP _ => hP) (fun hP _ => hP) hstart.idle ?_ hreach
    · intro k w s hw hP hchange _ hall
      exact hchange.protected hw.sound (hP (hchange.automatic hall)) hall
    · intro _ row hm
      simp [Config.idle, hstart.backups] at hm
  exact hrun hall

/-- **Run lemma.**  After whatever purges. -/
theorem superseded_run (hstart : Opened start)
    (hreach : (storage admission).Reach (.idle start) c) : Superseded c.world.store := by
  refine storage_invariant (P := fun v => Superseded v.store) ?_ (fun _ hP _ => hP)
    (fun hP _ => hP) hstart.idle ?_ hreach
  · intro k w s hw hP hchange _
    exact hchange.superseded hw.sound hP
  · intro purge hm
    simp [Config.idle, hstart.purges] at hm

/-- **Run lemma.**  A manual backup is never a schedule's, nor the other way round. -/
theorem scheduled_run (hin : Discipline.InOrder (keeping admission) c)
    (hrow : getBackup c.world.store id = some row) (hreach : (storage admission).Reach c c') :
    isScheduled c'.world.store id = isScheduled c.world.store id := by
  have hrun : (∃ found, getBackup c'.world.store id = some found) ∧
      isScheduled c'.world.store id = isScheduled c.world.store id := by
    refine storage_invariant (P := fun v => (∃ found, getBackup v.store id = some found) ∧
      isScheduled v.store id = isScheduled c.world.store id) ?_ (fun _ hP _ => hP)
      (fun hP _ => hP) hin ⟨⟨row, hrow⟩, rfl⟩ hreach
    rintro k w s - ⟨⟨found, hfound⟩, hsame⟩ hchange -
    obtain ⟨next, hnext, -⟩ := hchange.row_step hfound
    exact ⟨⟨next, hnext⟩, (hchange.scheduled_iff hfound).trans hsame⟩
  exact hrun.2

/-- A step that admits an automatic purge finds its backup eligible. -/
theorem purge_step {purge : PurgeRow} (hin : Discipline.InOrder (keeping admission) c)
    (hstep : (storage admission).Step c c') (hbefore : getPurge c.world.store purge.id = none)
    (hafter : getPurge c'.world.store purge.id = some purge) (hreason : purge.reason = .retention) :
    ∃ row now, getBackup c.world.store purge.backupId = some row ∧
      retentionEligible now c.world.store row = true := by
  have hsame : ∀ {v : World interface}, getPurge v.store purge.id = some purge →
      v.store.purges = c.world.store.purges → False := by
    intro v hv hpurges
    rw [getPurge, hpurges] at hv
    cases hbefore.symm.trans hv
  have heffect := (storage_discipline.step hin hstep).2
  generalize c'.world = w' at heffect hafter
  cases heffect with
  | idle => exact (hsame hafter rfl).elim
  | other h =>
    obtain ⟨machines, -, rfl⟩ := h
    exact (hsame hafter rfl).elim
  | does k h =>
    obtain ⟨hdoes, -⟩ := h
    cases hdoes with
    | quiet | act => exact (hsame hafter rfl).elim
    | write store h =>
      cases h with
      | refl => exact (hsame hafter rfl).elim
      | single hchange =>
        rcases hchange.purge_back (Table.get_mem hafter) with
          ⟨old, hold, hid, -, -⟩ | ⟨row, now, hrow, -, eligible⟩
        · have hnone := Table.get_eq_none.mp hbefore old hold
          exact absurd hid.symm hnone
        · exact ⟨row, now, hrow, eligible hreason⟩

/-- **Retention keeps seven days.**  In every run from an empty database, with any captures, purges
    and retention runs: an automatic purge is admitted only for a captured backup of a schedule, with
    seven later days that have a captured backup of the schedules of its series; a manual backup is
    never purged automatically, and it stays a manual one; and what automatic purges have taken has
    seven later days of success.  While there were no other purges, every stored backup that is
    manual, or within the newest seven days with a captured backup, is captured still. -/
theorem retention_keeps_seven (hstart : Opened start)
    (hreach : (storage admission).Reach (.idle start) c) :
    (∀ c' purge, (storage admission).Step c c' → getPurge c.world.store purge.id = none →
      getPurge c'.world.store purge.id = some purge → purge.reason = .retention →
      ∃ row, getBackup c.world.store purge.backupId = some row ∧ row.state.isCaptured = true ∧
        isScheduled c.world.store row.id = true ∧ 7 ≤ (laterDays c.world.store row).length) ∧
    (∀ purge ∈ c.world.store.purges, purge.reason = .retention →
      isScheduled c.world.store purge.backupId = true ∧
      ∃ row, getBackup c.world.store purge.backupId = some row ∧
        7 ≤ (successfulDays c.world.store row).length) ∧
    (∀ c' id row, (storage admission).Reach c c' → getBackup c.world.store id = some row →
      isScheduled c'.world.store id = isScheduled c.world.store id) ∧
    (Automatic c.world.store → ∀ row ∈ c.world.store.backups, row.work.rank = 4 →
      isScheduled c.world.store row.id = false ∨ (laterDays c.world.store row).length < 7 →
      row.state.isCaptured = true) := by
  have hin := inOrder_storage hstart hreach
  refine ⟨fun c' purge hstep hbefore hafter hreason => ?_, fun purge hm hreason => ?_,
    fun c' id row hlater hrow => scheduled_run hin hrow hlater, fun hall row hm hstored hnewest => ?_⟩
  · obtain ⟨row, now, hrow, heligible⟩ := purge_step hin hstep hbefore hafter hreason
    exact ⟨row, hrow, eligible_iff heligible⟩
  · obtain ⟨row, hrow, hscheduled, hdays⟩ := superseded_run hstart hreach purge hm hreason
    have hid : row.id = purge.backupId := Table.get_key hrow
    exact ⟨hid ▸ hscheduled, row, hrow, hdays⟩
  · by_contra hlost
    have hfits := (hin.1.1.sound.rows row hm).fits
    obtain ⟨parts, receipt, cleaned, attempts, hwork⟩ := exists_stored hstored
    have hgiven : row.state.purge? ≠ none := by
      rw [hwork] at hfits
      cases hstate : row.state <;> simp_all [fits, BackupState.isCaptured, BackupState.purge?]
    obtain ⟨hscheduled, hdays⟩ := protected_run hstart hreach hall row hm hgiven
    rcases hnewest with hmanual | hfew
    · simp [hscheduled] at hmanual
    · omega

/-! ## Eight days, and a retention run -/

namespace Kept

/-- Eight days later, the oldest backup of eight is given up. -/
def pruned : World interface := run (9 * dayMs) "pur" (pruneScheduled 100 60) (daily week scheduled)

theorem pruned_reachable : (storage allowance).Reach (.idle Demo.start) (.idle pruned) :=
  (scheduled_reachable.trans (daily_run week scheduled)).trans
    (reach_run (.prune 0 100 60) (9 * dayMs) "pur" _)

end Kept

theorem retention_keeps_seven_demo :
    (Kept.pruned.store.backups.map fun row => (row.id, row.state.isCaptured)) =
      [("b0", false), ("b1", true), ("b2", true), ("b3", true), ("b4", true), ("b5", true),
        ("b6", true), ("b7", true)] ∧
    ∀ purge ∈ Kept.pruned.store.purges, purge.reason = .retention →
      isScheduled Kept.pruned.store purge.backupId = true ∧
      ∃ row, getBackup Kept.pruned.store purge.backupId = some row ∧
        7 ≤ (successfulDays Kept.pruned.store row).length :=
  ⟨by decide +kernel, (retention_keeps_seven Kept.opened Kept.pruned_reachable).2.1⟩

end AgentCloud.Backups
