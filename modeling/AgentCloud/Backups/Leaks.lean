/-
  LEAKS: a capture that is blocked before its upload reserves its limit for ever.

  Nothing leads on from such a row.  A tick stops at a blocked backup, the recovery wants a recorded
  upload, and a purge wants a stored object, so no change of the ledger applies to it
  (`RowStep.eq_of_leaked`) and it keeps what it reserved.  The rows of an account that have leaked
  are counted by every later admission.
-/
import AgentCloud.Backups.Accounting

namespace AgentCloud.Backups

open Checked Durable

variable {admission : AdmissionConfig} {k : Slot} {log : Log} {store : Store} {id : BackupId}
  {w start : World interface} {c c' : Config interface Slot}

/-- Blocked, and nothing was ever put. -/
def BackupRow.leaked (row : BackupRow) : Bool := row.state.isBlocked && decide (row.work.rank < 3)

/-- No change applies to such a row. -/
theorem RowStep.eq_of_leaked {row row' : BackupRow} (h : RowStep log k row row')
    (hleaked : row.leaked = true) : row' = row := by
  simp only [BackupRow.leaked, Bool.and_eq_true, decide_eq_true_eq] at hleaked
  obtain ⟨hblocked, hearly⟩ := hleaked
  have hpending : row.state ≠ .pending := by
    intro hpending
    simp [hpending, BackupState.isBlocked] at hblocked
  cases h with
  | same => rfl
  | pended purgeId captured stored => omega
  | retired own purgeId now pending parts receipt cleaned attempts stored =>
    have hrank : row.work.rank = 4 := by rw [stored]; rfl
    omega
  | moves h =>
    cases h with
    | phase work own pending => exact absurd pending hpending
    | blocked reason own pending => exact absurd pending hpending
    | stored parts attempts receipt own submitted =>
      have hrank : row.work.rank = 3 := by rw [submitted]; rfl
      omega
    | cleaned parts receipt cleaned cleaned' attempts attempts' own stored =>
      have hrank : row.work.rank = 4 := by rw [stored]; rfl
      omega
    | verified bytes capturedAt validation manifest captured =>
      simp [captured, BackupState.isBlocked] at hblocked

/-- **Run lemma.**  It is the same row in every later state. -/
theorem leaked_run {row : BackupRow} (hin : Discipline.InOrder (keeping admission) c)
    (hrow : getBackup c.world.store id = some row) (hleaked : row.leaked = true)
    (hreach : (storage admission).Reach c c') : getBackup c'.world.store id = some row := by
  refine storage_invariant (P := fun v => getBackup v.store id = some row) ?_
    (fun _ hP _ => hP) (fun hP _ => hP) hin hrow hreach
  intro k w s _ hP hchange _
  obtain ⟨row', hrow', hstep⟩ := hchange.row_step hP
  obtain rfl := hstep.eq_of_leaked hleaked
  exact hrow'

/-- A leaked row reserves the limit. -/
theorem leaked_reserved {row : BackupRow} (hw : Valid admission w)
    (hrow : getBackup w.store id = some row) (hleaked : row.leaked = true) :
    row.reservedBytes = admission.limits.maxBytes := by
  simp only [BackupRow.leaked, Bool.and_eq_true, decide_eq_true_eq] at hleaked
  have hsound := hw.sound.rows row (Table.get_mem hrow)
  rw [hsound.reserved, due_early (by omega), hsound.limits]

/-! ## Exhaustion -/

/-- The leaked rows of an account. -/
def leakedOf (store : Store) (accountId : AccountId) : List BackupRow :=
  store.backups.filter fun row => row.accountId = accountId ∧ row.leaked = true

theorem reservedBytes_sublist {rows rows' : List BackupRow} (h : rows.Sublist rows') :
    reservedBytes rows ≤ reservedBytes rows' := by
  induction h with
  | slnil => exact Nat.le_refl 0
  | cons row _ ih =>
    simp only [reservedBytes, List.foldr_cons] at ih ⊢
    omega
  | cons_cons row _ ih =>
    simp only [reservedBytes, List.foldr_cons] at ih ⊢
    omega

theorem reservedBytes_const {rows : List BackupRow} {bytes : Nat}
    (h : ∀ row ∈ rows, row.reservedBytes = bytes) : reservedBytes rows = rows.length * bytes := by
  induction rows with
  | nil => simp [reservedBytes]
  | cons row rows ih =>
    have hrow := h row (by simp)
    have hrest := ih fun other hm => h other (List.mem_cons_of_mem row hm)
    simp only [reservedBytes, List.foldr_cons, List.length_cons, Nat.add_mul] at hrest ⊢
    omega

/-- Leaks are for ever: their number never falls. -/
theorem leaked_length (hin : Discipline.InOrder (keeping admission) c) {accountId : AccountId}
    (hreach : (storage admission).Reach c c') :
    (leakedOf c.world.store accountId).length ≤ (leakedOf c'.world.store accountId).length := by
  refine storage_discipline.transition
    (T := fun v v' => (leakedOf v.store accountId).length ≤ (leakedOf v'.store accountId).length)
    (fun _ => Nat.le_refl _) Nat.le_trans ?_ ?_ hin hreach
  · rintro k w w' hw ⟨hdoes, -⟩
    cases hdoes with
    | quiet | act => exact Nat.le_refl _
    | write store h =>
      cases h with
      | refl => exact Nat.le_refl _
      | single hchange =>
        rcases hchange.table hw.1.sound with ⟨g, htable, hsteps⟩ | ⟨row, htable, hnew, -⟩
        · simp only [leakedOf, World.put_store, htable, List.filter_map, List.length_map]
          rw [← List.countP_eq_length_filter, ← List.countP_eq_length_filter]
          refine List.countP_mono_left fun row hm hrow => ?_
          simp only [decide_eq_true_eq] at hrow
          have hsame : g row = row := (hsteps row hm).eq_of_leaked hrow.2
          simpa [hsame] using hrow
        · simp only [leakedOf, World.put_store, htable, List.filter_append, List.length_append]
          exact Nat.le_add_right _ _
  · rintro w w' - ⟨machines, -, rfl⟩
    exact Nat.le_refl _

/-- What an account has leaked, every later admission counts. -/
theorem leaked_refused {principal : Principal} {machineId : MachineId} {recipe : Recipe} {env : Env}
    {store' : Store} (hw : Valid admission w)
    (hfull : admission.maxAccountBytes <
      (leakedOf w.store principal.accountId).length * admission.limits.maxBytes +
        admission.limits.maxBytes)
    (hnew : getBackup w.store id = none) :
    captureInTransaction admission principal machineId id recipe env w.store ≠ .ok ((), store') := by
  intro hcaptured
  have hle : (leakedOf w.store principal.accountId).length * admission.limits.maxBytes ≤
      reservedBytes (w.store.backups.filter fun row => row.accountId = principal.accountId) := by
    have hsub : (leakedOf w.store principal.accountId).Sublist
        (w.store.backups.filter fun row => row.accountId = principal.accountId) := by
      refine List.monotone_filter_right w.store.backups fun row hrow => ?_
      simp only [decide_eq_true_eq] at hrow ⊢
      exact hrow.1
    have hconst : reservedBytes (leakedOf w.store principal.accountId) =
        (leakedOf w.store principal.accountId).length * admission.limits.maxBytes := by
      refine reservedBytes_const fun row hm => ?_
      obtain ⟨hm, hrow⟩ := List.mem_filter.mp hm
      simp only [decide_eq_true_eq] at hrow
      exact leaked_reserved hw (hw.sound.get hm) hrow.2
    exact hconst ▸ reservedBytes_sublist hsub
  simp only [captureInTransaction, hnew, bind_ok_iff, lift_ok_iff] at hcaptured
  obtain ⟨authority, -, row, hadmitted, -⟩ := hcaptured
  simp only [admittedBackup, assertCapacity, bind_ok_iff, refuse_ok_iff, not_or] at hadmitted
  obtain ⟨_, -, _, -, _, ⟨_, ⟨haccount, -⟩, -⟩, -⟩ := hadmitted
  omega

/-! ## Every run -/

/-- Some operation of the system, now or later, releases what the backup reserves. -/
def Releasable (admission : AdmissionConfig) (c : Config interface Slot) (id : BackupId) : Prop :=
  ∃ c' row, (storage admission).Reach c c' ∧ getBackup c'.world.store id = some row ∧
    row.reservedBytes = 0

/-- **A capture blocked before its upload leaks.**  In every state of every run from an empty
    database, a backup that is blocked before anything was put is releasable only if a capture
    reserves nothing to begin with: it keeps its whole reservation in every later state.  Once an
    account has leaked up to less than one capture below its allowance, no capture of it is admitted
    in any later state. -/
theorem blocked_capture_leaks (hstart : Opened start)
    (hreach : (storage admission).Reach (.idle start) c) :
    (∀ id row, getBackup c.world.store id = some row → row.state.isBlocked = true →
      row.work.rank < 3 →
      (Releasable admission c id ↔ admission.limits.maxBytes = 0) ∧
      ∀ c', (storage admission).Reach c c' → getBackup c'.world.store id = some row ∧
        row.reservedBytes = admission.limits.maxBytes) ∧
    ∀ principal : Principal, admission.maxAccountBytes <
        (leakedOf c.world.store principal.accountId).length * admission.limits.maxBytes +
          admission.limits.maxBytes →
      ∀ c', (storage admission).Reach c c' → ∀ machineId id recipe env store',
        getBackup c'.world.store id = none →
        captureInTransaction admission principal machineId id recipe env c'.world.store ≠
          .ok ((), store') := by
  have hin := inOrder_storage hstart hreach
  refine ⟨fun id row hrow hblocked hearly => ?_, fun principal hfull c' hlater => ?_⟩
  · have hleaked : row.leaked = true := by simp [BackupRow.leaked, hblocked, hearly]
    have hreserved := leaked_reserved hin.1.1 hrow hleaked
    refine ⟨⟨?_, fun hzero => ⟨c, row, .refl, hrow, hreserved.trans hzero⟩⟩,
      fun c' hlater => ⟨leaked_run hin hrow hleaked hlater, hreserved⟩⟩
    rintro ⟨c', row', hlater, hrow', hzero⟩
    have hsame := leaked_run hin hrow hleaked hlater
    obtain rfl := Option.some.inj (hsame.symm.trans hrow')
    rw [← hreserved, hzero]
  · intro machineId id recipe env store' hnew
    have hlater' := storage_discipline.inOrder hin hlater
    have hgrown : (leakedOf c.world.store principal.accountId).length *
        admission.limits.maxBytes ≤ (leakedOf c'.world.store principal.accountId).length *
          admission.limits.maxBytes := Nat.mul_le_mul_right _ (leaked_length hin hlater)
    exact leaked_refused hlater'.1.1 (by omega) hnew

/-! ## A credential that is gone before the first tick -/

namespace Kept

/-- The tick of a capture whose grant is gone. -/
def abandoned : World interface :=
  ((advanceBackupTick Demo.config "bak").run (fun _ => { env 1000 "uuid" with grants := [] })
    (reply 1000) admitted).2

theorem abandoned_reachable : (storage allowance).Reach (.idle Demo.start) (.idle abandoned) := by
  have h₁ := reach_run (.capture 0 principal "mach" "bak" Demo.recipe) 1000 "uuid" Demo.start
  have h₂ := System.reach_job (storage allowance) (.backup "bak")
    (fun _ => { env 1000 "uuid" with grants := [] }) (reply 1000) (reply_kept 1000)
    (advanceBackupTick Demo.config "bak") admitted (.advanceBackup Demo.config "bak")
  exact h₁.trans h₂

end Kept

/-- Its backup is blocked in its first phase, with the whole limit reserved. -/
theorem blocked_capture_leaks_demo :
    ((getBackup Kept.abandoned.store "bak").map fun row =>
      (row.state, row.work, row.reservedBytes)) =
      some (.blocked revokedReason, .capture 0, 100) ∧
    ∀ row, getBackup Kept.abandoned.store "bak" = some row → row.state.isBlocked = true →
      row.work.rank < 3 →
      (Releasable Kept.allowance (.idle Kept.abandoned) "bak" ↔
        Kept.allowance.limits.maxBytes = 0) ∧
      ∀ c', (storage Kept.allowance).Reach (.idle Kept.abandoned) c' →
        getBackup c'.world.store "bak" = some row ∧
          row.reservedBytes = Kept.allowance.limits.maxBytes :=
  ⟨by decide +kernel,
    (blocked_capture_leaks Kept.opened Kept.abandoned_reachable).1 "bak"⟩

/-- Not every backup that is blocked before its upload reserves nothing or can be released. -/
theorem blocked_capture_kept : ¬ ∀ (c : Config interface Slot) (id : BackupId) (row : BackupRow),
    (storage Kept.allowance).Reach (.idle Demo.start) c → getBackup c.world.store id = some row →
    row.state.isBlocked = true → row.work.rank < 3 →
    row.reservedBytes = 0 ∨ Releasable Kept.allowance c id := by
  intro hall
  have hsome : ∃ row, getBackup Kept.abandoned.store "bak" = some row ∧ row.leaked = true ∧
      row.reservedBytes = 100 := by
    cases hrow : getBackup Kept.abandoned.store "bak" with
    | none => exact absurd hrow (by decide +kernel)
    | some row =>
      have hfacts : ((getBackup Kept.abandoned.store "bak").map fun row =>
          (row.leaked, row.reservedBytes)) = some (true, 100) := by decide +kernel
      rw [hrow] at hfacts
      obtain ⟨hleaked, hbytes⟩ := Prod.mk.inj (Option.some.inj hfacts)
      exact ⟨row, rfl, hleaked, hbytes⟩
  obtain ⟨row, hrow, hleaked, hbytes⟩ := hsome
  have hparts := hleaked
  simp only [BackupRow.leaked, Bool.and_eq_true, decide_eq_true_eq] at hparts
  rcases hall _ "bak" row Kept.abandoned_reachable hrow hparts.1 hparts.2 with hzero | hreleased
  · omega
  · obtain ⟨c', row', hlater, hrow', hzero⟩ := hreleased
    have hsame := leaked_run (inOrder_storage Kept.opened Kept.abandoned_reachable) hrow hleaked
      hlater
    obtain rfl := Option.some.inj (hsame.symm.trans hrow')
    omega

end AgentCloud.Backups
