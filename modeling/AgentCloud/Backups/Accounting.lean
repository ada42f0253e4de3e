/-
  ACCOUNTING: the reservations stay within the limits, and they cover what the bucket may contain.

  Only an admission adds to the reservations, and it checks both limits under the account's lock
  first.  Every other change of a row leaves its reservation or lowers it: to the size of the object
  when it is found and verified, and to nothing when the object is not found any more.  The bucket
  never holds more of a backup than its row reserves, as its one PUT is of the sealed archive, which
  is within the limit.
-/
import AgentCloud.Backups.Storage

namespace AgentCloud.Backups

open Checked Durable

variable {admission : AdmissionConfig} {k : Slot} {log : Log} {store store' : Store}
  {w start : World interface} {c : Config interface Slot}

/-! ## Sums of reservations -/

theorem reservedBytes_append {rows : List BackupRow} {row : BackupRow} :
    reservedBytes (rows ++ [row]) = reservedBytes rows + row.reservedBytes := by
  induction rows with
  | nil => simp [reservedBytes]
  | cons first rows ih =>
    simp only [reservedBytes, List.cons_append, List.foldr_cons] at ih ⊢
    omega

theorem reservedBytes_map_le {rows : List BackupRow} {g : BackupRow → BackupRow}
    (h : ∀ row ∈ rows, (g row).reservedBytes ≤ row.reservedBytes) :
    reservedBytes (rows.map g) ≤ reservedBytes rows := by
  induction rows with
  | nil => exact Nat.le_refl 0
  | cons row rows ih =>
    have hrow := h row (by simp)
    have hrest := ih fun other hm => h other (List.mem_cons_of_mem row hm)
    simp only [reservedBytes, List.map_cons, List.foldr_cons] at hrest ⊢
    omega

/-- What the bucket may contain of these backups. -/
def bucketBytes (log : Log) (rows : List BackupRow) : Nat :=
  rows.foldr (fun row total => objectBytes log row.id + total) 0

theorem bucketBytes_le {rows : List BackupRow}
    (h : ∀ row ∈ rows, objectBytes log row.id ≤ row.reservedBytes) :
    bucketBytes log rows ≤ reservedBytes rows := by
  induction rows with
  | nil => exact Nat.le_refl 0
  | cons row rows ih =>
    have hrow := h row (by simp)
    have hrest := ih fun other hm => h other (List.mem_cons_of_mem row hm)
    simp only [bucketBytes, reservedBytes, List.foldr_cons] at hrest ⊢
    omega

/-! ## Changes of the table -/

/-- **Inversion.**  A change rewrites rows, or adds one that fits. -/
theorem Change.table (hs : Sound admission store) (h : Change admission log k store store') :
    (∃ g : BackupRow → BackupRow, store'.backups = store.backups.map g ∧
      ∀ row ∈ store.backups, RowStep log k row (g row)) ∨
    ∃ row, store'.backups = store.backups ++ [row] ∧ NewBackup admission row ∧
      Fits admission store row.accountId := by
  have hsame : ∃ g : BackupRow → BackupRow, store.backups = store.backups.map g ∧
      ∀ row ∈ store.backups, RowStep log k row (g row) :=
    ⟨id, by simp, fun row _ => .same⟩
  have hrewritten : ∀ (id : BackupId) (f : BackupRow → BackupRow),
      (∀ row, getBackup store id = some row → RowStep log k row (f row)) →
      ∃ g : BackupRow → BackupRow, (updateBackup store id f).backups = store.backups.map g ∧
        ∀ row ∈ store.backups, RowStep log k row (g row) := by
    intro id f hf
    refine ⟨fun row => if row.id = id then f row else row, rfl, fun row hm => ?_⟩
    simp only
    split
    · next hid => exact hf row (hid ▸ hs.get hm)
    · exact .same
  cases h with
  | admitted row fresh new fits => exact .inr ⟨row, rfl, new, fits⟩
  | move id f same moves => exact .inl (hrewritten id f fun row hrow => .moves (moves row hrow))
  | finished restore f own same source g sameSource moves =>
    exact .inl (hrewritten source g fun row hrow => .moves (moves row hrow))
  | purge row mem purgeable now purgeId reason grantId fresh eligible =>
    refine .inl (hrewritten row.id _ fun found hfound => ?_)
    obtain rfl : row = found := Option.some.inj (mem.symm.trans hfound)
    exact .pended purgeId purgeable.captured purgeable.stored
  | purged row mem own purge owns recorded pending parts receipt cleaned attempts stored absent gone
      now =>
    refine .inl (hrewritten row.id _ fun found hfound => ?_)
    obtain rfl : row = found := Option.some.inj (mem.symm.trans hfound)
    exact .retired own purge.id now pending parts receipt cleaned attempts stored absent gone
  | ran row mem enabled now due backup fresh new created fits slot =>
    exact .inr ⟨backup, rfl, new, fits⟩
  | restore | restoring | purging | created | disabled | refused => exact .inl hsame

/-- A change of a row never raises its reservation, and never gives the row away. -/
theorem RowStep.reserved_le {row row' : BackupRow} (hs : RowSound admission row)
    (h : RowStep log k row row') :
    row'.reservedBytes ≤ row.reservedBytes ∧ row'.accountId = row.accountId := by
  cases h with
  | same | pended => exact ⟨Nat.le_refl _, rfl⟩
  | retired => exact ⟨Nat.zero_le _, rfl⟩
  | moves h =>
    cases h with
    | phase | cleaned | blocked | verified => exact ⟨Nat.le_refl _, rfl⟩
    | stored parts attempts receipt own submitted waiting receives =>
      have hbound := (hs.bounded parts (by rw [submitted]; rfl)).2
      have hdue : row.reservedBytes = admission.limits.maxBytes := by
        rw [hs.reserved, due_early (by rw [submitted]; exact Nat.le_refl 4), hs.limits]
      refine ⟨?_, rfl⟩
      simp only
      rw [hdue, receives]
      exact hbound

/-- The reservations of each account, and of all of them, are within the limits. -/
structure Within (admission : AdmissionConfig) (store : Store) : Prop where
  account : ∀ accountId, reservedBytes (store.backups.filter fun row => row.accountId = accountId) ≤
    admission.maxAccountBytes
  total : reservedBytes store.backups ≤ admission.maxGlobalBytes

/-- **Step lemma.**  A change keeps the reservations within the limits. -/
theorem Change.within (hs : Sound admission store) (hw : Within admission store)
    (h : Change admission log k store store') : Within admission store' := by
  rcases h.table hs with ⟨g, htable, hsteps⟩ | ⟨row, htable, hnew, hfits⟩
  · have hle : ∀ row ∈ store.backups, (g row).reservedBytes ≤ row.reservedBytes :=
      fun row hm => ((hsteps row hm).reserved_le (hs.rows row hm)).1
    have howner : ∀ row ∈ store.backups, (g row).accountId = row.accountId :=
      fun row hm => ((hsteps row hm).reserved_le (hs.rows row hm)).2
    refine ⟨fun accountId => ?_, ?_⟩
    · have hfilter : (store.backups.map g).filter (fun row => row.accountId = accountId) =
          (store.backups.filter fun row => row.accountId = accountId).map g := by
        rw [List.filter_map]
        refine congrArg (List.map g) (List.filter_congr fun row hm => ?_)
        simp only [Function.comp_apply, howner row hm]
      rw [htable, hfilter]
      refine Nat.le_trans (reservedBytes_map_le fun row hm => ?_) (hw.account accountId)
      exact hle row (List.mem_of_mem_filter hm)
    · rw [htable]
      exact Nat.le_trans (reservedBytes_map_le hle) hw.total
  · refine ⟨fun accountId => ?_, ?_⟩
    · rw [htable, List.filter_append]
      by_cases howner : row.accountId = accountId
      · have hone : [row].filter (fun row => row.accountId = accountId) = [row] := by
          simp [howner]
        rw [hone, reservedBytes_append, hnew.reserved]
        exact howner ▸ hfits.account
      · have hnone : [row].filter (fun row => row.accountId = accountId) = [] := by
          simp [howner]
        rw [hnone, List.append_nil]
        exact hw.account accountId
    · rw [htable, reservedBytes_append, hnew.reserved]
      exact hfits.total

/-! ## Released objects -/

/-- A purged backup's object was not found. -/
def Released (w : World interface) : Prop :=
  ∀ id row, getBackup w.store id = some row → row.state.isPurged = true →
    ∃ parts receipt cleaned attempts, row.work = .stored parts receipt cleaned attempts ∧
      notFound receipt ∈ w.log

theorem Change.released (hr : Released w) {s : Store}
    (h : Change admission w.log k w.store s) : Released (w.put s) := by
  intro id row' hrow' hpurged
  cases hrow : getBackup w.store id with
  | none =>
    have hnew := h.row_new hrow hrow'
    simp [hnew.state, BackupState.isPurged] at hpurged
  | some row =>
    obtain ⟨found, hfound, hstep⟩ := h.row_step hrow
    obtain rfl : found = row' := Option.some.inj (hfound.symm.trans hrow')
    by_cases hbefore : row.state.isPurged = true
    · obtain rfl := hstep.eq_of_purged hbefore
      exact hr id found hrow hbefore
    · cases hstep with
      | same => exact absurd hpurged hbefore
      | pended => cases hpurged
      | retired own purgeId now pending parts receipt cleaned attempts stored absent gone =>
        exact ⟨parts, receipt, cleaned, attempts, stored, absent⟩
      | moves hmoves =>
        cases hmoves with
        | phase | cleaned => exact absurd hpurged hbefore
        | stored | blocked | verified => cases hpurged

/-! ## Every run -/

/-- The records, the limits and the releases. -/
structure Accounted (admission : AdmissionConfig) (w : World interface) : Prop where
  within : Within admission w.store
  released : Released w

theorem Opened.accounted (h : Opened start) : Accounted admission start := by
  refine ⟨⟨fun accountId => ?_, ?_⟩, fun id row hrow => ?_⟩
  · rw [h.backups]
    exact Nat.zero_le _
  · rw [h.backups]
    exact Nat.zero_le _
  · simp [getBackup, h.backups] at hrow

/-- **Run lemma.** -/
theorem accounted_run (hstart : Opened start)
    (hreach : (storage admission).Reach (.idle start) c) : Accounted admission c.world := by
  refine storage_invariant ?_ ?_ ?_ hstart.idle hstart.accounted hreach
  · intro k w s hw hP hchange _
    exact ⟨hchange.within hw.sound hP.within, hchange.released hP.released⟩
  · intro w q r _ hP _
    refine ⟨hP.within, fun id row hrow hpurged => ?_⟩
    obtain ⟨parts, receipt, cleaned, attempts, hwork, hm⟩ := hP.released id row hrow hpurged
    exact ⟨parts, receipt, cleaned, attempts, hwork, List.mem_append_left _ hm⟩
  · intro w machines hP _
    exact ⟨⟨hP.within.account, hP.within.total⟩, hP.released⟩

/-- A backup never has more in the bucket than its row reserves. -/
theorem Valid.covered (hw : Valid admission w) {row : BackupRow} (hm : row ∈ w.store.backups) :
    objectBytes w.log row.id ≤ row.reservedBytes := by
  have hsound := hw.sound.rows row hm
  rcases hw.held row.id with hzero | ⟨found, parts, hfound, hrank, hparts, hbytes, hlive⟩
  · omega
  · obtain rfl : row = found := Option.some.inj ((hw.sound.get hm).symm.trans hfound)
    rw [hbytes, hsound.reserved]
    by_cases hearly : row.work.rank < 4
    · rw [due_early hearly, hsound.limits]
      exact (hsound.bounded parts hparts).2
    · have hstored : row.work.rank = 4 := by
        have hle : row.work.rank ≤ 4 := by cases row.work <;> simp [BackupWork.rank]
        omega
      obtain ⟨sealed, receipt, cleaned, attempts, hwork⟩ := exists_stored hstored
      rw [hwork] at hparts
      obtain rfl := Option.some.inj hparts
      rw [BackupRow.due, hwork]
      simp only [hlive]
      rw [hsound.receipt sealed receipt cleaned attempts hwork]
      exact Nat.le_refl _

/-- A stored backup reserves the size of its object, or it is purged, and its version was not
    found. -/
theorem stored_reserved (hw : Valid admission w) (hr : Released w) {row : BackupRow}
    {parts : Sealed} {receipt : Receipt} {cleaned : Bool} {attempts : Nat}
    (hm : row ∈ w.store.backups) (hwork : row.work = .stored parts receipt cleaned attempts) :
    (row.state.isPurged = false ∧ row.reservedBytes = receipt.intent.digests.size) ∨
      (row.state.isPurged = true ∧ row.reservedBytes = 0 ∧ notFound receipt ∈ w.log) := by
  have hreserved := (hw.sound.rows row hm).reserved
  rw [BackupRow.due, hwork] at hreserved
  cases hpurged : row.state.isPurged with
  | false =>
    simp only [hpurged] at hreserved
    exact .inl ⟨rfl, hreserved⟩
  | true =>
    simp only [hpurged] at hreserved
    obtain ⟨_, _, _, _, hstored, hgone⟩ := hr row.id row (hw.sound.get hm) hpurged
    rw [hwork] at hstored
    obtain ⟨-, rfl, -, -⟩ := BackupWork.stored.inj hstored
    exact .inr ⟨rfl, hreserved, hgone⟩

/-- **Accounting.**  In every state of every run from an empty database: the reservations of each
    account and of all of them are within the limits; a backup reserves the limit until its object
    is stored, then the object's size, and nothing once it is purged, which it is only if its one
    version was not found; an object was put at most once, and only for a row that sealed it; so the
    reservations cover what the bucket may contain, backup by backup and account by account. -/
theorem storage_accounted (hstart : Opened start)
    (hreach : (storage admission).Reach (.idle start) c) :
    (∀ accountId, reservedBytes (c.world.store.backups.filter fun row =>
      row.accountId = accountId) ≤ admission.maxAccountBytes) ∧
    reservedBytes c.world.store.backups ≤ admission.maxGlobalBytes ∧
    (∀ row ∈ c.world.store.backups,
      (row.work.rank < 4 → row.reservedBytes = admission.limits.maxBytes) ∧
      (∀ parts receipt cleaned attempts, row.work = .stored parts receipt cleaned attempts →
        (row.state.isPurged = false → row.reservedBytes = receipt.intent.digests.size) ∧
        (row.state.isPurged = true → row.reservedBytes = 0 ∧ notFound receipt ∈ c.world.log ∧
          objectBytes c.world.log row.id = 0)) ∧
      objectBytes c.world.log row.id ≤ row.reservedBytes) ∧
    (∀ exchange ∈ c.world.log, ∀ intent, exchange.call = .putObject intent →
      puts c.world.log intent.attemptId = 1 ∧
      ∃ row parts, getBackup c.world.store intent.attemptId = some row ∧ 3 ≤ row.work.rank ∧
        row.work.sealed? = some parts ∧ parts.intent = intent) ∧
    ∀ accountId, bucketBytes c.world.log (c.world.store.backups.filter fun row =>
      row.accountId = accountId) ≤ admission.maxAccountBytes := by
  have hvalid := (inOrder_storage hstart hreach).1.1
  have haccounted := accounted_run hstart hreach
  have honce := (backup_effects_once hstart.submissions_valid (storage_reach hreach)).1
  refine ⟨haccounted.within.account, haccounted.within.total, fun row hm => ?_, ?_, ?_⟩
  · have hsound := hvalid.sound.rows row hm
    have hcovered := hvalid.covered hm
    refine ⟨fun hearly => ?_, fun parts receipt cleaned attempts hwork => ?_, hcovered⟩
    · rw [hsound.reserved, due_early hearly, hsound.limits]
    · rcases stored_reserved hvalid haccounted.released hm hwork with
        ⟨hlive, hbytes⟩ | ⟨hpurged, hbytes, hgone⟩
      · exact ⟨fun _ => hbytes, fun hpurged => absurd hpurged (by simp [hlive])⟩
      · exact ⟨fun hlive => absurd hlive (by simp [hpurged]), fun _ => ⟨hbytes, hgone, by omega⟩⟩
  · intro exchange hm intent hput
    refine ⟨Nat.le_antisymm (honce intent.attemptId) ?_, hvalid.recorded exchange hm intent hput⟩
    refine List.countP_pos_iff.mpr ⟨exchange, hm, ?_⟩
    simp [hput, Call.effect]
  · intro accountId
    refine Nat.le_trans (bucketBytes_le fun row hm => ?_) (haccounted.within.account accountId)
    exact hvalid.covered (List.mem_of_mem_filter hm)

/-- The demonstration's backup is stored, purged by its owner, and then reserves nothing. -/
theorem storage_accounted_demo :
    (getBackup Kept.purged.store "bak").map BackupRow.reservedBytes = some 0 ∧
    (getBackup Kept.uploaded.store "bak").map BackupRow.reservedBytes = some 12 ∧
    reservedBytes Kept.purged.store.backups ≤ 1000 :=
  ⟨by decide +kernel, by decide +kernel,
    (storage_accounted Kept.opened Kept.purged_reachable).2.1⟩

end AgentCloud.Backups
