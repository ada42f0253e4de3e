/-
  SPACING: what a schedule admits, and when.

  A tick that is due moves the next slot to a day after the tick, whether its capture was admitted
  or refused.  So a schedule's next slot is a day after every capture it has admitted (`Spaced`), and
  the next capture is not admitted before it: the captures of one schedule are a day apart, however
  late or often its ticks come.  Nothing brings a disabled schedule back (`disabled_run`).
-/
import AgentCloud.Backups.Retention

namespace AgentCloud.Backups

open Checked Durable

variable {admission : AdmissionConfig} {k : Slot} {log : Log} {store store' : Store}
  {w start : World interface} {c c' : Config interface Slot} {env : Env}

/-! ## What a change does to a schedule -/

inductive ScheduleMoves (row : ScheduleRow) : ScheduleRow → Prop where
  | same : ScheduleMoves row row
  | disabled (now : Instant) : ScheduleMoves row { row with disabledAt := some now }
  | ticked (now : Instant) (attempt : Attempt) (disabledAt : Option Instant)
      (enabled : row.enabled = true) (due : row.nextRunAt ≤ now) :
      ScheduleMoves row { row with lastAttempt := attempt, disabledAt, nextRunAt := now + dayMs }

theorem ScheduleMoves.next {row row' : ScheduleRow} (h : ScheduleMoves row row') :
    row.nextRunAt ≤ row'.nextRunAt := by
  cases h with
  | same | disabled => exact Nat.le_refl _
  | ticked now attempt disabledAt enabled due =>
    show row.nextRunAt ≤ now + dayMs
    exact Nat.le_trans due (Nat.le_add_right now dayMs)

theorem ScheduleMoves.frozen {row row' : ScheduleRow} (h : ScheduleMoves row row')
    (hdisabled : row.enabled = false) :
    row'.enabled = false ∧ row'.nextRunAt = row.nextRunAt ∧ row'.lastAttempt = row.lastAttempt := by
  cases h with
  | same => exact ⟨hdisabled, rfl, rfl⟩
  | disabled now => exact ⟨rfl, rfl, rfl⟩
  | ticked now attempt disabledAt enabled due => simp [hdisabled] at enabled

/-- A schedule stays for the same machine and application, and is enabled only if it was. -/
theorem ScheduleMoves.active {row row' : ScheduleRow} (h : ScheduleMoves row row') :
    row'.machineId = row.machineId ∧ row'.recipe = row.recipe ∧
      (row'.enabled = true → row.enabled = true) := by
  cases h with
  | same => exact ⟨rfl, rfl, id⟩
  | disabled now => exact ⟨rfl, rfl, fun h => by simp [ScheduleRow.enabled] at h⟩
  | ticked now attempt disabledAt enabled due => exact ⟨rfl, rfl, fun _ => enabled⟩

/-- The rows of a rewrite by key. -/
theorem moves_rewrite {rows : List ScheduleRow} (hkeyed : Table.Keyed ScheduleRow.id rows)
    {id : ScheduleId} {f : ScheduleRow → ScheduleRow}
    (hmoves : ∀ row, Table.get ScheduleRow.id rows id = some row → ScheduleMoves row (f row)) :
    ∀ row ∈ rows, ScheduleMoves row (if row.id = id then f row else row) := by
  intro row hm
  split
  · next hid => exact hmoves row (hid ▸ hkeyed.get hm)
  · exact .same

/-- A change adds an enabled schedule where there is none, or moves the ones that there are. -/
inductive Reschedules (store store' : Store) : Prop where
  | added (row : ScheduleRow) (fresh : getSchedule store row.id = none)
      (sole : activeFor store row.machineId row.recipe.app = [])
      (schedules : store'.schedules = store.schedules ++ [row])
  | moved (f : ScheduleRow → ScheduleRow) (schedules : store'.schedules = store.schedules.map f)
      (same : ∀ row ∈ store.schedules, (f row).id = row.id)
      (moves : ∀ row ∈ store.schedules, ScheduleMoves row (f row))

theorem Reschedules.rewrite {id : ScheduleId} {f : ScheduleRow → ScheduleRow}
    (hkeyed : Table.Keyed ScheduleRow.id store.schedules)
    (hschedules : store'.schedules = Table.update ScheduleRow.id store.schedules id f)
    (hsame : ∀ row, (f row).id = row.id)
    (hmoves : ∀ row, getSchedule store id = some row → ScheduleMoves row (f row)) :
    Reschedules store store' := by
  refine .moved (fun row => if row.id = id then f row else row) hschedules (fun row _ => ?_)
    (moves_rewrite hkeyed hmoves)
  split
  · exact hsame row
  · rfl

theorem Reschedules.unchanged (h : store'.schedules = store.schedules) :
    Reschedules store store' :=
  .moved id (by rw [h, List.map_id]) (fun _ _ => rfl) fun _ _ => .same

theorem Change.reschedules (hs : Sound admission store) (h : Change admission log k store store') :
    Reschedules store store' := by
  cases h with
  | created row fresh sole enabled due => exact .added row fresh sole rfl
  | disabled id now =>
    exact Reschedules.rewrite (f := fun row => { row with disabledAt := some now }) hs.schedules rfl
      (fun _ => rfl) fun _ _ => .disabled now
  | refused row mem enabled now due failure disabledAt =>
    refine Reschedules.rewrite (f := fun row => { row with
      lastAttempt := .refused now failure, disabledAt, nextRunAt := now + dayMs }) hs.schedules rfl
      (fun _ => rfl) fun found hfound => ?_
    obtain rfl := Option.some.inj (mem.symm.trans hfound)
    exact .ticked now _ disabledAt enabled due
  | ran row mem enabled now due backup =>
    refine Reschedules.rewrite (f := fun row => { row with
      lastAttempt := .admitted now backup.id, disabledAt := none, nextRunAt := now + dayMs })
      hs.schedules rfl (fun _ => rfl) fun found hfound => ?_
    obtain rfl := Option.some.inj (mem.symm.trans hfound)
    exact .ticked now _ none enabled due
  | admitted | move | restore | restoring | finished | purge | purging | purged =>
    exact .unchanged rfl

theorem Reschedules.moves (h : Reschedules store store') {id : ScheduleId} {row : ScheduleRow}
    (hrow : getSchedule store id = some row) :
    ∃ row', getSchedule store' id = some row' ∧ ScheduleMoves row row' := by
  cases h with
  | added new fresh sole schedules =>
    refine ⟨row, ?_, .same⟩
    rw [getSchedule, schedules, Table.get_append]
    exact Option.or_eq_some_iff.mpr (.inl hrow)
  | moved f schedules same moves =>
    refine ⟨f row, ?_, moves row (Table.get_mem hrow)⟩
    have hrow' : Table.get ScheduleRow.id store.schedules id = some row := hrow
    rw [getSchedule, schedules, Table.get_map same, hrow', Option.map_some]

/-! ## One enabled schedule for an application -/

def Sole (store : Store) : Prop := ∀ machineId app, (activeFor store machineId app).length ≤ 1

theorem Reschedules.sole (h : Reschedules store store') (hsole : Sole store) : Sole store' := by
  intro machineId app
  cases h with
  | added row fresh sole schedules =>
    by_cases hrow : row.machineId = machineId ∧ row.recipe.app = app
    · obtain ⟨rfl, rfl⟩ := hrow
      unfold activeFor at sole ⊢
      rw [schedules, List.filter_append, sole, List.nil_append]
      exact List.length_filter_le _ _
    · have hkept : activeFor store' machineId app = activeFor store machineId app := by
        unfold activeFor
        rw [schedules, List.filter_append, List.append_right_eq_self, List.filter_eq_nil_iff]
        rintro other hother
        obtain rfl := List.mem_singleton.mp hother
        simp only [Bool.and_eq_true, decide_eq_true_eq]
        exact fun h => hrow ⟨h.1.2, h.2⟩
      rw [hkept]
      exact hsole machineId app
  | moved f schedules same moves =>
    refine Nat.le_trans ?_ (hsole machineId app)
    unfold activeFor
    rw [schedules, ← List.countP_eq_length_filter, ← List.countP_eq_length_filter, List.countP_map]
    refine List.countP_mono_left fun row hm hactive => ?_
    obtain ⟨hmachine, hrecipe, henabled⟩ := (moves row hm).active
    simp only [Function.comp_apply, Bool.and_eq_true, decide_eq_true_eq] at hactive ⊢
    rw [hmachine, hrecipe] at hactive
    exact ⟨⟨henabled hactive.1.1, hactive.1.2⟩, hactive.2⟩

/-! ## The captures of a schedule -/

/-- When the capture of a run was admitted. -/
def admittedAt (store : Store) (run : ScheduleRun) : Option Instant :=
  (getBackup store run.backupId).map BackupRow.createdAt

theorem Change.admittedAt_kept (h : Change admission log k store store') {run : ScheduleRun} {t : Instant}
    (hrun : admittedAt store run = some t) : admittedAt store' run = some t := by
  obtain ⟨row, hrow, hcreated⟩ := Option.map_eq_some_iff.mp hrun
  obtain ⟨row', hrow', hstep⟩ := h.row_step hrow
  exact Option.map_eq_some_iff.mpr ⟨row', hrow', hstep.sameBackup.created.trans hcreated⟩

/-- A run was for a slot that had come, and the next slot of its schedule is a day after it. -/
structure Dated (store : Store) (run : ScheduleRun) (t : Instant) : Prop where
  admitted : admittedAt store run = some t
  due : run.dueAt ≤ t
  next : ∃ row, getSchedule store run.scheduleId = some row ∧ t + dayMs ≤ row.nextRunAt

/-- Two runs have two backups, and the slot of the second is a day after the first. -/
def Apart (store : Store) (a b : ScheduleRun) : Prop :=
  a.backupId ≠ b.backupId ∧
    (a.scheduleId = b.scheduleId → ∀ t, admittedAt store a = some t → t + dayMs ≤ b.dueAt)

structure Spaced (store : Store) : Prop where
  dated : ∀ run ∈ store.runs, ∃ t, Dated store run t
  apart : store.runs.Pairwise (Apart store)

theorem Dated.change (hs : Sound admission store) (h : Change admission log k store store')
    {run : ScheduleRun} {t : Instant} (hd : Dated store run t) : Dated store' run t := by
  obtain ⟨row, hrow, hnext⟩ := hd.next
  obtain ⟨row', hrow', hmoves⟩ := (h.reschedules hs).moves hrow
  exact ⟨h.admittedAt_kept hd.admitted, hd.due, row', hrow', Nat.le_trans hnext hmoves.next⟩

/-- What was admitted once is admitted at the same time for ever. -/
theorem Spaced.apart_change (hP : Spaced store) (h : Change admission log k store store') :
    store.runs.Pairwise (Apart store') := by
  refine hP.apart.imp_of_mem fun {a b} ha _ hab => ⟨hab.1, fun hsame t ht => hab.2 hsame t ?_⟩
  obtain ⟨found, hfound⟩ := hP.dated a ha
  have hkept := h.admittedAt_kept hfound.admitted
  rw [ht] at hkept
  rw [hfound.admitted, ← hkept]

theorem getSchedule_recordAttempt {id : ScheduleId} {row : ScheduleRow} {attempt : Attempt}
    {disabledAt : Option Instant} {now : Instant} (hrow : getSchedule store id = some row) :
    getSchedule (recordAttempt store id attempt disabledAt now) id =
      some { row with lastAttempt := attempt, disabledAt, nextRunAt := now + dayMs } := by
  let f : ScheduleRow → ScheduleRow := fun row =>
    { row with lastAttempt := attempt, disabledAt, nextRunAt := now + dayMs }
  have hf : ∀ row, (f row).id = row.id := fun _ => rfl
  have hget : getSchedule (recordAttempt store id attempt disabledAt now) id =
      (getSchedule store id).map f := Table.get_update_self hf
  rw [hget, hrow, Option.map_some]

/-- The run of a tick is a day or more after those that its schedule already had. -/
theorem spaced_ran {row : ScheduleRow} {backup : BackupRow} {now : Instant}
    (mem : getSchedule store row.id = some row) (due : row.nextRunAt ≤ now)
    (fresh : getBackup store backup.id = none) (created : backup.createdAt = now)
    (hP : Spaced store) (hstore' : store' = recordAttempt { store with
      backups := store.backups ++ [backup]
      runs := store.runs ++ [⟨row.id, backup.id, row.nextRunAt⟩] }
      row.id (.admitted now backup.id) none now)
    (hdated : ∀ run ∈ store.runs, ∃ t, Dated store' run t)
    (hapart : store.runs.Pairwise (Apart store'))
    (hkept : ∀ run t, admittedAt store run = some t → admittedAt store' run = some t) :
    Spaced store' := by
  have hruns : store'.runs = store.runs ++ [⟨row.id, backup.id, row.nextRunAt⟩] := by
    rw [hstore']
    rfl
  have hbackup : getBackup store' backup.id = some backup := by
    rw [hstore']
    show getBackup { store with backups := store.backups ++ [backup] } backup.id = some backup
    unfold getBackup at fresh ⊢
    rw [Table.get_append, fresh, if_pos rfl, Option.none_or]
  have hnew : Dated store' ⟨row.id, backup.id, row.nextRunAt⟩ now := by
    refine ⟨?_, due, ?_⟩
    · show (getBackup store' backup.id).map BackupRow.createdAt = some now
      rw [hbackup, Option.map_some, created]
    · rw [hstore']
      exact ⟨_, getSchedule_recordAttempt mem, Nat.le_refl _⟩
  constructor
  · rw [hruns]
    intro run hm
    rcases List.mem_append.mp hm with hold | hone
    · exact hdated run hold
    · obtain rfl := List.mem_singleton.mp hone
      exact ⟨now, hnew⟩
  · rw [hruns]
    refine List.pairwise_append.mpr ⟨hapart, List.pairwise_singleton _ _, ?_⟩
    intro a ha b hb
    obtain rfl := List.mem_singleton.mp hb
    obtain ⟨t, hold⟩ := hP.dated a ha
    constructor
    · intro hsame
      obtain ⟨found, hfound, -⟩ := Option.map_eq_some_iff.mp hold.admitted
      rw [show a.backupId = backup.id from hsame, fresh] at hfound
      cases hfound
    · intro hsame t' ht'
      obtain ⟨found, hfound, hnext⟩ := hold.next
      rw [show a.scheduleId = row.id from hsame, mem] at hfound
      obtain rfl := Option.some.inj hfound
      obtain rfl := Option.some.inj ((hkept a t hold.admitted).symm.trans ht')
      exact hnext

/-- A change adds no run, or the run of a due schedule's tick. -/
theorem Change.spaced (hs : Sound admission store) (hP : Spaced store)
    (h : Change admission log k store store') : Spaced store' := by
  have hdated : ∀ run ∈ store.runs, ∃ t, Dated store' run t := fun run hm =>
    (hP.dated run hm).imp fun _ hd => hd.change hs h
  have hapart := hP.apart_change h
  have hkept : ∀ run t, admittedAt store run = some t → admittedAt store' run = some t :=
    fun run t => h.admittedAt_kept
  cases h with
  | ran row mem enabled now due backup fresh new created fits slot =>
    exact spaced_ran mem due fresh created hP rfl hdated hapart hkept
  | admitted | move | restore | restoring | finished | purge | purging | purged | created
    | disabled | refused => exact ⟨hdated, hapart⟩

/-- The tick admitted one capture, for the slot that was due. -/
def Admitted (now : Instant) (row : ScheduleRow) (store store' : Store) : Prop :=
  ∃ backup, getBackup store backup.id = none ∧ backup.createdAt = now ∧
    store'.backups = store.backups ++ [backup] ∧
    store'.runs = store.runs ++ [⟨row.id, backup.id, row.nextRunAt⟩]

end AgentCloud.Backups
