/-
  THE LEDGER: what holds of the backup tables, and what a worker of a backup can count on.

  A row reserves what its phase says it owes (`due`): the limit until its object is found and
  verified, then the object's size, and nothing once the object is known to be gone.  The phase and
  the state of a row fit each other, so a row in a phase before `stored` is pending or blocked.

  Only the worker of a backup moves its phase, and only it asks for anything about its archive or
  its object; others can merely verify it or admit a purge (`Drifts`).
-/
import AgentCloud.Backups.Changes

namespace AgentCloud.Backups

open Checked Durable

variable {config : AdmissionConfig} {k : Slot} {log : Log} {store store' : Store}

/-! ## Rows -/

/-- A phase and a state that go together. -/
def fits : BackupWork → BackupState → Bool
  | .stored .., .captured .. => true
  | .stored .., .purgePending _ => true
  | .stored .., .purged .. => true
  | .stored .., _ => false
  | _, .pending => true
  | _, .blocked _ => true
  | _, _ => false

/-- What a row has to reserve. -/
def BackupRow.due (row : BackupRow) : Nat :=
  match row.work with
  | .stored _ receipt _ _ => if row.state.isPurged then 0 else receipt.intent.digests.size
  | _ => row.request.limits.maxBytes

structure RowSound (config : AdmissionConfig) (row : BackupRow) : Prop where
  limits : row.request.limits = config.limits
  fits : fits row.work row.state = true
  reserved : row.reservedBytes = row.due
  bounded : ∀ parts ∈ row.work.sealed?, parts.intent.attemptId = row.id ∧
    parts.intent.digests.size ≤ config.limits.maxBytes
  receipt : ∀ parts receipt cleaned attempts, row.work = .stored parts receipt cleaned attempts →
    receipt.intent = parts.intent

theorem fits_early {work : BackupWork} {state : BackupState} (h : fits work state = true)
    (hearly : work.rank < 4) : state = .pending ∨ state.isBlocked = true := by
  cases work <;> cases state <;>
    simp_all [fits, BackupWork.rank, BackupState.isBlocked]

theorem fits_of_early {work : BackupWork} {state : BackupState} (hearly : work.rank < 4)
    (hstate : state = .pending ∨ state.isBlocked = true) : fits work state = true := by
  cases work <;> cases state <;> simp_all [fits, BackupWork.rank, BackupState.isBlocked]

theorem fits_stored {work : BackupWork} {state : BackupState} (h : fits work state = true)
    (hstate : state = .pending ∨ state.isBlocked = true) : work.rank < 4 := by
  cases work <;> cases state <;> simp_all [fits, BackupWork.rank, BackupState.isBlocked]

theorem due_early {row : BackupRow} (h : row.work.rank < 4) :
    row.due = row.request.limits.maxBytes := by
  unfold BackupRow.due
  cases hwork : row.work <;> simp_all [BackupWork.rank]

theorem exists_stored {work : BackupWork} (h : work.rank = 4) :
    ∃ parts receipt cleaned attempts, work = .stored parts receipt cleaned attempts := by
  cases work with
  | stored parts receipt cleaned attempts => exact ⟨parts, receipt, cleaned, attempts, rfl⟩
  | capture => cases h
  | encrypt => cases h
  | uploadReady => cases h
  | uploadSubmitted => cases h

/-- The object of a sound row is never larger than its limit. -/
theorem RowSound.reserved_le {row : BackupRow} (h : RowSound config row) :
    row.reservedBytes ≤ config.limits.maxBytes := by
  rw [h.reserved]
  by_cases hearly : row.work.rank < 4
  · exact Nat.le_of_eq (by rw [due_early hearly, h.limits])
  · have hrank : row.work.rank = 4 := by
      have hle : row.work.rank ≤ 4 := by cases row.work <;> simp [BackupWork.rank]
      omega
    obtain ⟨parts, receipt, cleaned, attempts, hwork⟩ := exists_stored hrank
    have hbound := (h.bounded parts (by simp [hwork, BackupWork.sealed?])).2
    rw [BackupRow.due, hwork]
    simp only
    split
    · exact Nat.zero_le _
    · rw [h.receipt parts receipt cleaned attempts hwork]
      exact hbound

theorem NewBackup.sound {row : BackupRow} (h : NewBackup config row) : RowSound config row where
  limits := h.limits
  fits := by rw [h.work, h.state]; rfl
  reserved := by rw [h.reserved, BackupRow.due, h.work, h.limits]
  bounded := by simp [h.work, BackupWork.sealed?]
  receipt := by simp [h.work]

/-- A sealed archive stays the sealed archive. -/
theorem sealed_of_forward {old new : BackupWork} {parts : Sealed} (hold : old.sealed? = some parts)
    (hforward : old.rank ≤ new.rank)
    (hsealing : ∀ found ∈ new.sealed?, old.sealed? = some found ∨ old.rank < 2) :
    new.sealed? = some parts := by
  have hrank : 2 ≤ old.rank := by cases old <;> simp_all [BackupWork.sealed?, BackupWork.rank]
  have hsome : ∃ found, new.sealed? = some found := by
    have hnew : 2 ≤ new.rank := Nat.le_trans hrank hforward
    cases new <;> simp_all [BackupWork.sealed?, BackupWork.rank]
  obtain ⟨found, hfound⟩ := hsome
  rcases hsealing found hfound with hsame | hlow
  · rw [hfound, ← hold, ← hsame]
  · omega

/-- **Step lemma.**  A change of a row keeps it sound. -/
theorem Moves.sound {row row' : BackupRow} (h : RowSound config row) (hmoves : Moves k row row') :
    RowSound config row' := by
  have hlow : row.state = .pending → row.work.rank < 4 := fun hpending =>
    fits_stored h.fits (.inl hpending)
  cases hmoves with
  | phase work own pending early forward sealing =>
    refine ⟨h.limits, fits_of_early early (.inl pending), ?_, fun parts hparts => ?_, ?_⟩
    · have hdue : BackupRow.due { row with work } = row.request.limits.maxBytes := due_early early
      exact (h.reserved.trans (due_early (hlow pending))).trans hdue.symm
    · rcases sealing parts hparts with hsame | ⟨-, -, howner, hsize⟩
      · exact h.bounded parts hsame
      · exact ⟨howner, h.limits ▸ hsize⟩
    · rintro parts receipt cleaned attempts rfl
      exact absurd early (by simp [BackupWork.rank])
  | stored parts attempts receipt own submitted waiting receives =>
    have hbounded := h.bounded parts (by simp [submitted, BackupWork.sealed?])
    refine ⟨h.limits, rfl, rfl, fun found hfound => ?_, fun parts' receipt' _ _ hwork => ?_⟩
    · obtain rfl := Option.some.inj hfound
      exact hbounded
    · obtain ⟨rfl, rfl, -, -⟩ := BackupWork.stored.inj hwork
      exact receives
  | cleaned parts receipt cleaned cleaned' attempts attempts' own stored live =>
    have hfits : fits (.stored parts receipt cleaned' attempts') row.state = true := by
      have := h.fits
      rw [stored] at this
      cases hstate : row.state <;> simp_all [fits]
    refine ⟨h.limits, hfits, ?_, fun found hfound => ?_, fun parts' receipt' _ _ hwork => ?_⟩
    · rw [h.reserved, BackupRow.due, BackupRow.due, stored]
    · obtain rfl := Option.some.inj hfound
      exact h.bounded parts (by simp [stored, BackupWork.sealed?])
    · obtain ⟨rfl, rfl, -, -⟩ := BackupWork.stored.inj hwork
      exact h.receipt parts receipt cleaned attempts stored
  | blocked reason own pending =>
    have hearly := hlow pending
    refine ⟨h.limits, fits_of_early hearly (.inr rfl), ?_, h.bounded, h.receipt⟩
    have hdue : BackupRow.due { row with state := .blocked reason } = row.request.limits.maxBytes :=
      due_early hearly
    exact (h.reserved.trans (due_early hearly)).trans hdue.symm
  | verified bytes capturedAt validation manifest captured =>
    have hrow := h.fits
    have hreserved := h.reserved
    rw [captured] at hrow
    refine ⟨h.limits, ?_, ?_, h.bounded, h.receipt⟩
    · cases hwork : row.work <;> simp_all [fits]
    · rw [hreserved, BackupRow.due, BackupRow.due, captured]
      rfl

theorem Moves.id_eq {row row' : BackupRow} (h : Moves k row row') : row'.id = row.id := by
  cases h <;> rfl

/-! ## Tables -/

structure Sound (config : AdmissionConfig) (store : Store) : Prop where
  backups : Table.Keyed BackupRow.id store.backups
  restores : Table.Keyed RestoreRow.id store.restores
  purges : Table.Keyed PurgeRow.id store.purges
  schedules : Table.Keyed ScheduleRow.id store.schedules
  rows : ∀ row ∈ store.backups, RowSound config row

theorem Sound.get (h : Sound config store) {row : BackupRow} (hm : row ∈ store.backups) :
    getBackup store row.id = some row := h.backups.get hm

/-- One row is rewritten. -/
theorem Sound.mem_updateBackup (h : Sound config store) {id : BackupId} {f : BackupRow → BackupRow}
    {row : BackupRow} (hm : row ∈ (updateBackup store id f).backups) :
    (row ∈ store.backups ∧ row.id ≠ id) ∨
      ∃ old, getBackup store id = some old ∧ row = f old := by
  obtain ⟨old, hold, rfl⟩ := Table.mem_update hm
  split
  · next hid =>
    subst hid
    exact .inr ⟨old, h.get hold, rfl⟩
  · next hid => exact .inl ⟨hold, hid⟩

/-- The rewriting of one row keeps the tables sound. -/
theorem Sound.updateBackup (h : Sound config store) {id : BackupId} {f : BackupRow → BackupRow}
    (hid : ∀ row, (f row).id = row.id)
    (hrow : ∀ row, getBackup store id = some row → RowSound config row → RowSound config (f row)) :
    Sound config (updateBackup store id f) where
  backups := h.backups.update hid
  restores := h.restores
  purges := h.purges
  schedules := h.schedules
  rows := by
    intro row hm
    rcases h.mem_updateBackup hm with ⟨hold, -⟩ | ⟨old, hget, rfl⟩
    · exact h.rows row hold
    · exact hrow old hget (h.rows old (Table.get_mem hget))

theorem Sound.insertBackup (h : Sound config store) {row : BackupRow}
    (fresh : getBackup store row.id = none) (new : NewBackup config row) :
    Sound config { store with backups := store.backups ++ [row] } where
  backups := h.backups.insert fresh
  restores := h.restores
  purges := h.purges
  schedules := h.schedules
  rows := by
    intro found hm
    rcases List.mem_append.mp hm with hm | hm
    · exact h.rows found hm
    · obtain rfl := List.mem_singleton.mp hm
      exact new.sound

/-- A stored backup that gives up its object stays sound. -/
theorem RowSound.retire {row : BackupRow} (h : RowSound config row) {purgeId : PurgeId}
    {now : Instant} (hrank : row.work.rank = 4) :
    RowSound config { row with state := .purged purgeId now, reservedBytes := 0 } := by
  obtain ⟨parts, receipt, cleaned, attempts, hwork⟩ := exists_stored hrank
  refine ⟨h.limits, ?_, ?_, h.bounded, h.receipt⟩
  · simp only [hwork]
    rfl
  · simp only [BackupRow.due, hwork]
    rfl

theorem RowSound.pend {row : BackupRow} (h : RowSound config row) {purgeId : PurgeId}
    (hrank : row.work.rank = 4) (hlive : row.state.isPurged = false) :
    RowSound config { row with state := .purgePending purgeId } := by
  obtain ⟨parts, receipt, cleaned, attempts, hwork⟩ := exists_stored hrank
  refine ⟨h.limits, ?_, ?_, h.bounded, h.receipt⟩
  · simp only [hwork]
    rfl
  · have hreserved := h.reserved
    simp only [BackupRow.due, hwork, hlive] at hreserved ⊢
    exact hreserved

theorem isPurged_of_captured {state : BackupState} (h : state.isCaptured = true) :
    state.isPurged = false := by
  cases state <;> simp_all [BackupState.isCaptured, BackupState.isPurged]

/-- **Step lemma.**  Every change keeps the tables sound. -/
theorem Change.sound (h : Sound config store) (change : Change config log k store store') :
    Sound config store' := by
  cases change with
  | admitted row fresh new fits => exact h.insertBackup fresh new
  | move id f same moves =>
    exact h.updateBackup same fun row hget hrow => (moves row hget).sound hrow
  | restore row fresh source machines kept =>
    exact ⟨h.backups, h.restores.insert fresh, h.purges, h.schedules, h.rows⟩
  | restoring id f own same =>
    exact ⟨h.backups, h.restores.update fun row => (same row).1, h.purges, h.schedules, h.rows⟩
  | finished id f own same source g sameSource moves =>
    have hsource := h.updateBackup sameSource fun row hget hrow => (moves row hget).sound hrow
    exact ⟨hsource.backups, h.restores.update fun row => (same row).1, h.purges, h.schedules,
      hsource.rows⟩
  | purge row mem purgeable now purgeId reason grantId fresh eligible =>
    have hpend : Sound config (setState store row.id (.purgePending purgeId)) := by
      refine h.updateBackup (fun _ => rfl) fun found hget hrow => ?_
      obtain rfl : row = found := Option.some.inj (mem.symm.trans hget)
      exact hrow.pend purgeable.stored (isPurged_of_captured purgeable.captured)
    have hnew : Table.get PurgeRow.id store.purges (newPurge now row purgeId reason grantId).id =
        none := Table.get_eq_none.mpr fun purge hm => (fresh purge hm).1
    exact ⟨hpend.backups, h.restores, h.purges.insert hnew, h.schedules, hpend.rows⟩
  | purging id f own same =>
    exact ⟨h.backups, h.restores, h.purges.update fun purge => (same purge).1, h.schedules, h.rows⟩
  | purged row mem own purge owns recorded pending parts receipt cleaned attempts stored absent gone
      now =>
    have hrank : row.work.rank = 4 := by rw [stored]; rfl
    have hretire : Sound config (Backups.updateBackup store row.id fun row =>
        { row with state := .purged purge.id now, reservedBytes := 0 }) := by
      refine h.updateBackup (fun _ => rfl) fun found hget hrow => ?_
      obtain rfl : row = found := Option.some.inj (mem.symm.trans hget)
      exact hrow.retire hrank
    refine ⟨hretire.backups, h.restores, h.purges.update fun _ => rfl, h.schedules, hretire.rows⟩
  | created row fresh sole enabled due =>
    exact ⟨h.backups, h.restores, h.purges, h.schedules.insert fresh, h.rows⟩
  | disabled id now =>
    exact ⟨h.backups, h.restores, h.purges, h.schedules.update fun _ => rfl, h.rows⟩
  | refused row mem enabled now due failure disabledAt =>
    exact ⟨h.backups, h.restores, h.purges, h.schedules.update fun _ => rfl, h.rows⟩
  | ran row mem enabled now due backup fresh new created fits slot =>
    have hinsert := h.insertBackup fresh new
    exact ⟨hinsert.backups, h.restores, h.purges, h.schedules.update fun _ => rfl, hinsert.rows⟩

end AgentCloud.Backups
