/-
  THE DISCIPLINE OF THE BACKUP WORKERS: phases only move forward, and each row has one worker.

  The lock of a row is its slot.  A tick starts from the phase it read, and only it changes that
  phase, so `Phase` (this row is in this phase) survives everything the others do; and what it saves
  next is never an earlier phase.  The PUT is asked for in the one place where the tick itself has
  just committed `upload_submitted`, having found `upload_ready`; the stream likewise.
-/
import AgentCloud.Backups.Admission
import AgentCloud.Backups.Reading
import AgentCloud.Lib.Once

namespace AgentCloud.Backups

open Checked Durable

/-! ## One transaction -/

inductive Slot where
  | backup (id : BackupId)
  | restore (id : RestoreId)
  | caller (n : Nat)
  deriving DecidableEq, Repr

structure BackupStep (k : Slot) (old new : BackupRow) : Prop where
  id_eq : new.id = old.id
  forward : old.work.rank ≤ new.work.rank
  owner : new.work ≠ old.work → k = .backup old.id
  own : old.SealedOwn → new.SealedOwn

structure RestoreStep (k : Slot) (old new : RestoreRow) : Prop where
  id_eq : new.id = old.id
  forward : old.work.rank ≤ new.work.rank
  owner : new.work ≠ old.work → k = .restore old.id

/-- Every recorded intent is for an object of its own backup. -/
def OwnIntents (store : Store) : Prop :=
  ∀ id row, getBackup store id = some row → row.SealedOwn

structure Writes (k : Slot) (old new : Store) : Prop where
  backups : ∀ id row, getBackup old id = some row →
    ∃ row', getBackup new id = some row' ∧ BackupStep k row row'
  restores : ∀ id row, getRestore old id = some row →
    ∃ row', getRestore new id = some row' ∧ RestoreStep k row row'
  own : OwnIntents old → OwnIntents new

variable {k : Slot} {store : Store}

theorem BackupStep.refl (row : BackupRow) : BackupStep k row row :=
  ⟨rfl, Nat.le_refl _, fun h => absurd rfl h, fun h => h⟩

theorem RestoreStep.refl (row : RestoreRow) : RestoreStep k row row :=
  ⟨rfl, Nat.le_refl _, fun h => absurd rfl h⟩

theorem Writes.refl (k : Slot) (store : Store) : Writes k store store :=
  ⟨fun _ row h => ⟨row, h, .refl row⟩, fun _ row h => ⟨row, h, .refl row⟩, fun h => h⟩

theorem getBackup_update {id j : BackupId} {f : BackupRow → BackupRow}
    (hf : ∀ row, (f row).id = row.id) : getBackup (updateBackup store id f) j =
      if j = id then (getBackup store j).map f else getBackup store j := Table.get_update hf

theorem getRestore_update {id j : RestoreId} {f : RestoreRow → RestoreRow}
    (hf : ∀ row, (f row).id = row.id) : getRestore (updateRestore store id f) j =
      if j = id then (getRestore store j).map f else getRestore store j := Table.get_update hf

theorem writes_updateBackup {id : BackupId} {f : BackupRow → BackupRow}
    (hf : ∀ row, (f row).id = row.id)
    (hstep : ∀ row, getBackup store id = some row → BackupStep k row (f row)) :
    Writes k store (updateBackup store id f) := by
  refine ⟨fun j row hrow => ?_, fun j row hrow => ⟨row, hrow, .refl row⟩, fun hown j row hrow => ?_⟩
  · rw [getBackup_update hf]
    split
    · next hj => exact ⟨f row, by rw [hrow]; rfl, hstep row (hj ▸ hrow)⟩
    · exact ⟨row, hrow, .refl row⟩
  · rw [getBackup_update hf] at hrow
    split at hrow
    · next hj =>
      obtain ⟨old, hold, rfl⟩ := Option.map_eq_some_iff.mp hrow
      exact (hstep old (hj ▸ hold)).own (hown j old hold)
    · exact hown j row hrow

theorem writes_updateRestore {id : RestoreId} {f : RestoreRow → RestoreRow}
    (hf : ∀ row, (f row).id = row.id)
    (hstep : ∀ row, getRestore store id = some row → RestoreStep k row (f row)) :
    Writes k store (updateRestore store id f) := by
  refine ⟨fun j row hrow => ⟨row, hrow, .refl row⟩, fun j row hrow => ?_, fun hown => hown⟩
  rw [getRestore_update hf]
  split
  · next hj => exact ⟨f row, by rw [hrow]; rfl, hstep row (hj ▸ hrow)⟩
  · exact ⟨row, hrow, .refl row⟩

/-- A write that leaves the phase alone is anybody's. -/
theorem writes_backup_record {id : BackupId} {f : BackupRow → BackupRow}
    (hid : ∀ row, (f row).id = row.id) (hwork : ∀ row, (f row).work = row.work) :
    Writes k store (updateBackup store id f) :=
  writes_updateBackup hid fun row _ => ⟨hid row, Nat.le_of_eq (by rw [hwork]), fun h => absurd (hwork row) h,
    fun hown => by rwa [BackupRow.SealedOwn, hwork, hid]⟩

theorem writes_restore_record {id : RestoreId} {f : RestoreRow → RestoreRow}
    (hid : ∀ row, (f row).id = row.id) (hwork : ∀ row, (f row).work = row.work) :
    Writes k store (updateRestore store id f) :=
  writes_updateRestore hid fun row _ => ⟨hid row, Nat.le_of_eq (by rw [hwork]), fun h => absurd (hwork row) h⟩

theorem writes_insert_backup {row : BackupRow} (hown : row.SealedOwn) :
    Writes k store { store with backups := store.backups ++ [row] } := by
  refine ⟨fun id old hold => ⟨old, ?_, .refl old⟩, fun _ old hold => ⟨old, hold, .refl old⟩,
    fun howns id got hgot => ?_⟩
  · simp only [getBackup, Table.get_append] at hold ⊢
    simp [hold]
  · simp only [getBackup, Table.get_append, Option.or_eq_some_iff] at hgot
    rcases hgot with hgot | ⟨-, hgot⟩
    · exact howns id got hgot
    · split at hgot
      · exact Option.some.inj hgot ▸ hown
      · cases hgot

theorem writes_insert_restore {row : RestoreRow} :
    Writes k store { store with restores := store.restores ++ [row] } := by
  refine ⟨fun _ old hold => ⟨old, hold, .refl old⟩, fun id old hold => ⟨old, ?_, .refl old⟩,
    fun howns => howns⟩
  simp only [getRestore, Table.get_append] at hold ⊢
  simp [hold]

/-! ## The marks -/

/-- A PUT of a backup's object, or the archive stream of a restore. -/
inductive Effect where
  | put (id : BackupId)
  | stream (id : RestoreId)
  deriving DecidableEq, Repr

def Call.effect : Call → Option Effect
  | .putObject intent => some (.put intent.attemptId)
  | .streamRestore request => some (.stream request.id)
  | _ => none

def Effect.owner : Effect → Slot
  | .put id => .backup id
  | .stream id => .restore id

/-- The mark of an effect: the phase is at, or past, the submission. -/
def Effect.submitted (store : Store) : Effect → Prop
  | .put id => ∃ row, getBackup store id = some row ∧ 3 ≤ row.work.rank
  | .stream id => ∃ row, getRestore store id = some row ∧ 2 ≤ row.work.rank

/-- What is recorded when the effect is asked for: exactly this upload, or a fresh submission. -/
def Call.recorded (store : Store) : Call → Prop
  | .putObject intent => ∃ row parts, getBackup store intent.attemptId = some row ∧
      row.work = .uploadSubmitted parts 0 ∧ parts.intent = intent
  | .streamRestore request => ∃ row, getRestore store request.id = some row ∧
      row.work = .submitted 0
  | _ => True

def Sees (k : Slot) (old new : Store) : Prop :=
  (∀ id row, getBackup old id = some row →
    ∃ row', getBackup new id = some row' ∧ (k = .backup id → row'.work = row.work)) ∧
  (∀ id row, getRestore old id = some row →
    ∃ row', getRestore new id = some row' ∧ (k = .restore id → row'.work = row.work))

theorem Sees.refl (k : Slot) (store : Store) : Sees k store store :=
  ⟨fun _ row h => ⟨row, h, fun _ => rfl⟩, fun _ row h => ⟨row, h, fun _ => rfl⟩⟩

theorem Sees.trans {a b c : Store} (h : Sees k a b) (h' : Sees k b c) : Sees k a c := by
  refine ⟨fun id row hrow => ?_, fun id row hrow => ?_⟩
  · obtain ⟨mid, hmid, hown⟩ := h.1 id row hrow
    obtain ⟨last, hlast, hown'⟩ := h'.1 id mid hmid
    exact ⟨last, hlast, fun hk => (hown' hk).trans (hown hk)⟩
  · obtain ⟨mid, hmid, hown⟩ := h.2 id row hrow
    obtain ⟨last, hlast, hown'⟩ := h'.2 id mid hmid
    exact ⟨last, hlast, fun hk => (hown' hk).trans (hown hk)⟩

theorem Writes.sees {j : Slot} {store' : Store} (hne : j ≠ k) (h : Writes j store store') :
    Sees k store store' := by
  refine ⟨fun id row hrow => ?_, fun id row hrow => ?_⟩
  · obtain ⟨row', hrow', hstep⟩ := h.backups id row hrow
    refine ⟨row', hrow', fun hk => ?_⟩
    by_contra hchanged
    have hj := hstep.owner hchanged
    rw [Table.get_key hrow] at hj
    exact hne (hj.trans hk.symm)
  · obtain ⟨row', hrow', hstep⟩ := h.restores id row hrow
    refine ⟨row', hrow', fun hk => ?_⟩
    by_contra hchanged
    have hj := hstep.owner hchanged
    rw [Table.get_key hrow] at hj
    exact hne (hj.trans hk.symm)

theorem Writes.submitted {store' : Store} (h : Writes k store store') {effect : Effect}
    (hmark : effect.submitted store) : effect.submitted store' := by
  cases effect with
  | put id =>
    obtain ⟨row, hrow, hrank⟩ := hmark
    obtain ⟨row', hrow', hstep⟩ := h.backups id row hrow
    exact ⟨row', hrow', Nat.le_trans hrank hstep.forward⟩
  | stream id =>
    obtain ⟨row, hrow, hrank⟩ := hmark
    obtain ⟨row', hrow', hstep⟩ := h.restores id row hrow
    exact ⟨row', hrow', Nat.le_trans hrank hstep.forward⟩

def submissions : Marks interface Effect Slot where
  effect := Call.effect
  owner := Effect.owner
  mark store c := ∀ effect ∈ c.effect, effect.submitted store
  ready store c := c.recorded store
  inv := OwnIntents
  writes := Writes
  sees := Sees
  sees_refl := Sees.refl
  sees_trans := Sees.trans
  writes_refl := Writes.refl
  writes_inv h hstep := hstep.own h
  writes_sees _ hne hstep := hstep.sees hne
  writes_mark _ hstep hmark effect heffect := hstep.submitted (hmark effect heffect)

/-- An effect whose row has not reached the submission has not been asked for. -/
theorem unasked {v : World interface} (hv : submissions.Valid v) {effect : Effect}
    (hnone : ¬ effect.submitted v.store) : submissions.count v.log effect = 0 :=
  hv.count_eq_zero fun _ hc hmark => hnone (hmark effect hc)

/-! ## Knowledge of the tick -/

/-- This backup is in this phase. -/
def Phase (id : BackupId) (work : BackupWork) (v : World interface) : Prop :=
  ∃ row, getBackup v.store id = some row ∧ row.work = work

/-- This restore is in this phase. -/
def RestorePhase (id : RestoreId) (work : RestoreWork) (v : World interface) : Prop :=
  ∃ row, getRestore v.store id = some row ∧ row.work = work

theorem stable_phase {id : BackupId} {work : BackupWork} :
    submissions.Stable (.backup id) (Phase id work) := by
  refine ⟨fun hv hphase => ?_, fun _ hphase => hphase⟩
  obtain ⟨row, hrow, hwork⟩ := hphase
  obtain ⟨row', hrow', hown⟩ := hv.store.1 id row hrow
  exact ⟨row', hrow', (hown rfl).trans hwork⟩

theorem stable_restorePhase {id : RestoreId} {work : RestoreWork} :
    submissions.Stable (.restore id) (RestorePhase id work) := by
  refine ⟨fun hv hphase => ?_, fun _ hphase => hphase⟩
  obtain ⟨row, hrow, hwork⟩ := hphase
  obtain ⟨row', hrow', hown⟩ := hv.store.2 id row hrow
  exact ⟨row', hrow', (hown rfl).trans hwork⟩

variable {w : World interface} {P : World interface → Prop}

/-- Nothing is known at the end. -/
abbrev Anyhow {α : Type} : α → World interface → Prop := fun _ _ => True

theorem Call.effect_of_passive {c : Call} (hc : c.passive = true) : c.effect = none := by
  cases c <;> first | rfl | cases hc

theorem quiet_of_stable (hP : submissions.Stable k P) :
    Quiet submissions.contract k P fun _ _ => True :=
  ⟨fun hc hw => Marks.safe_ask hP (Call.effect_of_passive hc) hw, fun _ => trivial⟩

/-- A write that changes no phase keeps what is known about one. -/
theorem safe_record {t : Env → Store → Except WorkFault (Unit × Store)}
    (h : ∀ env store s, t env store = .ok ((), s) → Writes k store s) :
    Safe submissions.contract k (Ends Anyhow) (Prog.transact (S := interface) t) w :=
  Marks.safe_write fun _ _ _ _ _ _ hok => ⟨h _ _ _ hok, trivial⟩

end AgentCloud.Backups
