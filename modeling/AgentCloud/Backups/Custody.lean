/-
  CUSTODY: what the worker of a backup can count on between two of its actions.

  `RowStep` is what any change does to one row, so that nothing below looks at the changes again.
  Only the worker of a backup moves its phase, and only it asks for anything about its archive or
  its object; others can merely verify it or admit a purge (`Drifts`).  The rest of the worlds is
  open: restores and callers count on nothing.
-/
import AgentCloud.Backups.Ledger
import Mathlib.Data.List.Induction

namespace AgentCloud.Backups

open Checked Durable

variable {config : AdmissionConfig} {k : Slot} {log : Log} {store store' : Store}
  {w w' : World interface} {id : BackupId}

/-! ## What a change does to one row -/

inductive RowStep (log : Log) (k : Slot) (row : BackupRow) : BackupRow → Prop where
  | same : RowStep log k row row
  | moves {row' : BackupRow} (h : Moves k row row') : RowStep log k row row'
  | pended (purgeId : PurgeId) (captured : row.state.isCaptured = true)
      (stored : row.work.rank = 4) : RowStep log k row { row with state := .purgePending purgeId }
  | retired (own : k = .backup row.id) (purgeId : PurgeId) (now : Instant)
      (pending : row.state = .purgePending purgeId) (parts : Sealed) (receipt : Receipt)
      (cleaned : Bool) (attempts : Nat) (stored : row.work = .stored parts receipt cleaned attempts)
      (absent : notFound receipt ∈ log) (gone : objectBytes log row.id = 0) :
      RowStep log k row { row with state := .purged purgeId now, reservedBytes := 0 }

/-- A row, and what became of it when one row was rewritten. -/
theorem get_rewritten {j : BackupId} {f : BackupRow → BackupRow} {row : BackupRow}
    (hf : ∀ row, (f row).id = row.id) (hrow : getBackup store j = some row)
    (hstep : j = id → RowStep log k row (f row)) :
    ∃ row', getBackup (updateBackup store id f) j = some row' ∧ RowStep log k row row' := by
  rw [getBackup_update hf]
  split
  · next hj => exact ⟨f row, by rw [hrow]; rfl, hstep hj⟩
  · exact ⟨row, hrow, .same⟩

theorem get_inserted {row new : BackupRow} (hrow : getBackup store id = some row) :
    getBackup { store with backups := store.backups ++ [new] } id = some row := by
  simp only [getBackup, Table.get_append] at hrow ⊢
  simp [hrow]

/-- **Inversion.**  What a change does to a row. -/
theorem Change.row_step (h : Change config log k store store') {row : BackupRow}
    (hrow : getBackup store id = some row) :
    ∃ row', getBackup store' id = some row' ∧ RowStep log k row row' := by
  cases h with
  | admitted new fresh isNew fits => exact ⟨row, get_inserted hrow, .same⟩
  | move other f same moves =>
    refine get_rewritten same hrow fun hid => .moves (moves row ?_)
    rwa [← hid]
  | finished restore f own same source g sameSource moves =>
    have hsource : ∃ row', getBackup (updateBackup store source g) id = some row' ∧
        RowStep log k row row' :=
      get_rewritten sameSource hrow fun hid => .moves (moves row (hid ▸ hrow))
    exact hsource
  | purge found mem purgeable now purgeId reason grantId fresh eligible =>
    have hpend : ∃ row', getBackup (setState store found.id (.purgePending purgeId)) id =
        some row' ∧ RowStep log k row row' := by
      refine get_rewritten (fun _ => rfl) hrow fun hid => ?_
      obtain rfl : found = row := Option.some.inj (mem.symm.trans (hid ▸ hrow))
      exact .pended purgeId purgeable.captured purgeable.stored
    exact hpend
  | purged found mem own purge owns recorded pending parts receipt cleaned attempts stored absent
      gone now =>
    have hretire : ∃ row', getBackup (updateBackup store found.id fun row =>
        { row with state := .purged purge.id now, reservedBytes := 0 }) id = some row' ∧
        RowStep log k row row' := by
      refine get_rewritten (fun _ => rfl) hrow fun hid => ?_
      obtain rfl : found = row := Option.some.inj (mem.symm.trans (hid ▸ hrow))
      exact .retired own purge.id now pending parts receipt cleaned attempts stored absent gone
    exact hretire
  | ran schedule mem enabled now due backup fresh new created fits slot =>
    exact ⟨row, get_inserted hrow, .same⟩
  | restore | restoring | purging | created | disabled | refused => exact ⟨row, hrow, .same⟩

/-- A row that was not there before was just admitted. -/
theorem Change.row_new (h : Change config log k store store') {row : BackupRow}
    (hnone : getBackup store id = none) (hrow : getBackup store' id = some row) :
    NewBackup config row := by
  have hinsert : ∀ new : BackupRow,
      getBackup { store with backups := store.backups ++ [new] } id = some row → row = new := by
    intro new hnew
    simp only [getBackup, Table.get_append] at hnone hnew
    rw [hnone] at hnew
    simp only [Option.none_or, Option.ite_none_right_eq_some, Option.some.injEq] at hnew
    exact hnew.2.symm
  have hupdate : ∀ (other : BackupId) (f : BackupRow → BackupRow), (∀ row, (f row).id = row.id) →
      getBackup (updateBackup store other f) id = none := by
    intro other f hf
    rw [getBackup_update hf, hnone]
    split <;> rfl
  cases h with
  | admitted new fresh isNew fits => exact hinsert new hrow ▸ isNew
  | move other f same moves =>
    rw [hupdate other f same] at hrow
    cases hrow
  | finished restore f own same source g sameSource moves =>
    cases (hupdate source g sameSource).symm.trans hrow
  | purge found mem purgeable now purgeId reason grantId fresh eligible =>
    have hpend : getBackup (setState store found.id (.purgePending purgeId)) id = none :=
      hupdate found.id _ fun _ => rfl
    cases hpend.symm.trans hrow
  | purged found mem own purge owns recorded pending parts receipt cleaned attempts stored absent
      gone now =>
    have hretire := hupdate found.id (fun row =>
      { row with state := .purged purge.id now, reservedBytes := 0 }) fun _ => rfl
    cases hretire.symm.trans hrow
  | ran schedule mem enabled now due backup fresh new created fits slot =>
    exact hinsert backup hrow ▸ new
  | restore | restoring | purging | created | disabled | refused => cases hnone.symm.trans hrow

/-! ## What one step of a row keeps -/

theorem RowStep.id_eq {row row' : BackupRow} (h : RowStep log k row row') : row'.id = row.id := by
  cases h with
  | moves h => exact h.id_eq
  | same | pended | retired => rfl

theorem Moves.forward {row row' : BackupRow} (h : Moves k row row') :
    row.work.rank ≤ row'.work.rank := by
  cases h with
  | phase work own pending early forward sealing => exact forward
  | stored parts attempts receipt own submitted waiting receives =>
    rw [submitted]
    exact Nat.le_succ 3
  | cleaned parts receipt cleaned cleaned' attempts attempts' own stored live =>
    rw [stored]
    exact Nat.le_refl 4
  | blocked | verified => exact Nat.le_refl _

theorem RowStep.forward {row row' : BackupRow} (h : RowStep log k row row') :
    row.work.rank ≤ row'.work.rank := by
  cases h with
  | moves h => exact h.forward
  | same | pended | retired => exact Nat.le_refl _

theorem Moves.sealed {row row' : BackupRow} {parts : Sealed} (h : Moves k row row')
    (hparts : row.work.sealed? = some parts) : row'.work.sealed? = some parts := by
  cases h with
  | phase work own pending early forward sealing =>
    exact sealed_of_forward hparts forward fun found hfound =>
      (sealing found hfound).imp_right And.left
  | stored found attempts receipt own submitted waiting receives =>
    rwa [submitted] at hparts
  | cleaned found receipt cleaned cleaned' attempts attempts' own stored live =>
    rwa [stored] at hparts
  | blocked | verified => exact hparts

theorem RowStep.sealed {row row' : BackupRow} {parts : Sealed} (h : RowStep log k row row')
    (hparts : row.work.sealed? = some parts) : row'.work.sealed? = some parts := by
  cases h with
  | moves h => exact h.sealed hparts
  | same | pended | retired => exact hparts

/-- A purged row never changes again. -/
theorem RowStep.eq_of_purged {row row' : BackupRow} (h : RowStep log k row row')
    (hpurged : row.state.isPurged = true) : row' = row := by
  cases h with
  | same => rfl
  | pended purgeId captured stored => simp [isPurged_of_captured captured] at hpurged
  | retired own purgeId now pending => simp [pending, BackupState.isPurged] at hpurged
  | moves h =>
    cases h with
    | phase work own pending early forward sealing =>
      simp [pending, BackupState.isPurged] at hpurged
    | stored parts attempts receipt own submitted waiting receives =>
      rcases waiting with hpending | hblocked
      · simp [hpending, BackupState.isPurged] at hpurged
      · cases hstate : row.state <;> simp_all [BackupState.isPurged, BackupState.isBlocked]
    | cleaned parts receipt cleaned cleaned' attempts attempts' own stored live =>
      simp [live] at hpurged
    | blocked reason own pending => simp [pending, BackupState.isPurged] at hpurged
    | verified bytes capturedAt validation manifest captured =>
      simp [captured, BackupState.isPurged] at hpurged

/-! ## The rely of a worker -/

/-- What others do to a backup: they verify it, or admit a purge of it. -/
def Drifts (row row' : BackupRow) : Prop :=
  ∃ state, row' = { row with state } ∧ (state = row.state ∨ row.state.isCaptured = true ∧
    (state.isCaptured = true ∨ ∃ purgeId, state = .purgePending purgeId))

theorem Drifts.refl (row : BackupRow) : Drifts row row := ⟨row.state, rfl, .inl rfl⟩

theorem Drifts.trans {a b c : BackupRow} (h : Drifts a b) (h' : Drifts b c) : Drifts a c := by
  obtain ⟨mid, rfl, hmid⟩ := h
  obtain ⟨last, rfl, hlast⟩ := h'
  refine ⟨last, rfl, ?_⟩
  rcases hlast with rfl | ⟨hcaptured, hlast⟩
  · exact hmid
  · rcases hmid with rfl | ⟨hfirst, -⟩
    · exact .inr ⟨hcaptured, hlast⟩
    · exact .inr ⟨hfirst, hlast⟩

theorem RowStep.drifts {row row' : BackupRow} (h : RowStep log k row row')
    (hne : k ≠ .backup row.id) : Drifts row row' := by
  cases h with
  | same => exact .refl row
  | pended purgeId captured stored => exact ⟨_, rfl, .inr ⟨captured, .inr ⟨purgeId, rfl⟩⟩⟩
  | retired own => exact absurd own hne
  | moves h =>
    cases h with
    | phase work own => exact absurd own hne
    | stored parts attempts receipt own => exact absurd own hne
    | cleaned parts receipt cleaned cleaned' attempts attempts' own => exact absurd own hne
    | blocked reason own => exact absurd own hne
    | verified bytes capturedAt validation manifest captured =>
      exact ⟨_, rfl, .inr ⟨by rw [captured]; rfl, .inl rfl⟩⟩

/-- Exchanges that are not about a backup. -/
def Beside (id : BackupId) (extra : Log) : Prop := ∀ exchange ∈ extra, exchange.call.about ≠ some id

/-- What the worker of a backup can count on. -/
structure Custody (id : BackupId) (w w' : World interface) : Prop where
  row : ∀ row, getBackup w.store id = some row →
    ∃ row', getBackup w'.store id = some row' ∧ Drifts row row'
  log : ∃ extra, w'.log = w.log ++ extra ∧ Beside id extra
  purges : ∀ purge, getPurge w.store purge.id = some purge → purge.backupId = id →
    getPurge w'.store purge.id = some purge

theorem Custody.refl (id : BackupId) (w : World interface) : Custody id w w :=
  ⟨fun row h => ⟨row, h, .refl row⟩, ⟨[], by simp, fun _ h => nomatch h⟩, fun _ h _ => h⟩

theorem Custody.trans {a b c : World interface} (h : Custody id a b) (h' : Custody id b c) :
    Custody id a c := by
  refine ⟨fun row hrow => ?_, ?_, fun purge hpurge hid => h'.purges purge (h.purges purge hpurge hid) hid⟩
  · obtain ⟨mid, hmid, hdrift⟩ := h.row row hrow
    obtain ⟨last, hlast, hdrift'⟩ := h'.row mid hmid
    exact ⟨last, hlast, hdrift.trans hdrift'⟩
  · obtain ⟨first, hfirst, hbeside⟩ := h.log
    obtain ⟨second, hsecond, hbeside'⟩ := h'.log
    refine ⟨first ++ second, by rw [hsecond, hfirst, List.append_assoc], fun exchange hm => ?_⟩
    rcases List.mem_append.mp hm with hm | hm
    · exact hbeside exchange hm
    · exact hbeside' exchange hm

/-- What a call that is not about a backup leaves alone. -/
theorem foldl_beside {α : Type} {step : α → Exchange interface → α} {extra : Log}
    (hstep : ∀ exchange ∈ extra, ∀ a, step a exchange = a) (a : α) :
    extra.foldl step a = a := by
  induction extra with
  | nil => rfl
  | cons exchange extra ih =>
    rw [List.foldl_cons, hstep exchange (by simp)]
    exact ih fun other hm => hstep other (List.mem_cons_of_mem exchange hm)

theorem objectBytes_beside {extra : Log} (h : Beside id extra) :
    objectBytes (log ++ extra) id = objectBytes log id := by
  rw [objectBytes, List.foldl_append]
  refine foldl_beside (fun exchange hm bytes => ?_) _
  have hne := h exchange hm
  obtain ⟨c, r⟩ := exchange
  cases c <;> try rfl
  · next intent =>
    have hid : intent.attemptId ≠ id := fun heq => hne (congrArg some heq)
    simp [storedAfter, hid]
  · next receipt =>
    have hid : receipt.intent.attemptId ≠ id := fun heq => hne (congrArg some heq)
    cases r with
    | error fault => rfl
    | ok head => cases head <;> simp [storedAfter, hid]

theorem lastEncryption_beside {extra : Log} (h : Beside id extra) :
    lastEncryption (log ++ extra) id = lastEncryption log id := by
  rw [lastEncryption, List.foldl_append]
  refine foldl_beside (fun exchange hm last => ?_) _
  have hne := h exchange hm
  obtain ⟨c, r⟩ := exchange
  cases c <;> try rfl
  next other captured keyring =>
    have hid : other ≠ id := fun heq => hne (congrArg some heq)
    cases r <;> simp [encryptionOf, hid]

theorem Custody.objectBytes_eq (h : Custody id w w') :
    objectBytes w'.log id = objectBytes w.log id := by
  obtain ⟨extra, hlog, hbeside⟩ := h.log
  rw [hlog, objectBytes_beside hbeside]

theorem Custody.lastEncryption_eq (h : Custody id w w') :
    lastEncryption w'.log id = lastEncryption w.log id := by
  obtain ⟨extra, hlog, hbeside⟩ := h.log
  rw [hlog, lastEncryption_beside hbeside]

theorem Custody.mem_log (h : Custody id w w') {exchange : Exchange interface}
    (hm : exchange ∈ w.log) : exchange ∈ w'.log := by
  obtain ⟨extra, hlog, -⟩ := h.log
  exact hlog ▸ List.mem_append_left extra hm

/-! ## The contract -/

theorem Changes.sound (hs : Sound config store) (h : Changes config log k store store') :
    Sound config store' := by
  cases h with
  | refl => exact hs
  | single hchange => exact hchange.sound hs

/-- The purges of a backup are its worker's. -/
theorem Change.purge_kept (h : Change config log k store store') {purge : PurgeRow}
    (hpurge : getPurge store purge.id = some purge) (hne : k ≠ .backup purge.backupId) :
    getPurge store' purge.id = some purge := by
  cases h with
  | purge found mem purgeable now purgeId reason grantId fresh eligible =>
    simp only [getPurge, Table.get_append] at hpurge ⊢
    simp [hpurge]
  | purging other f own same =>
    have hid : purge.id ≠ other := by
      rintro rfl
      exact hne (own purge hpurge)
    exact (Table.get_update_ne (fun row => (same row).1) hid).trans hpurge
  | purged found mem own other owns recorded pending parts receipt cleaned attempts stored absent
      gone now =>
    have hid : purge.id ≠ other.id := by
      intro heq
      rw [heq, recorded] at hpurge
      obtain rfl := Option.some.inj hpurge
      exact hne (own.trans (congrArg Slot.backup owns.symm))
    have hkept : ∀ f : PurgeRow → PurgeRow, (∀ purge, (f purge).id = purge.id) →
        getPurge (updatePurge store other.id f) purge.id = some purge := fun f hf =>
      (Table.get_update_ne hf hid).trans hpurge
    exact hkept _ fun _ => rfl
  | admitted | move | restore | restoring | finished | created | disabled | refused | ran =>
    exact hpurge

/-- What the writes of others leave to the worker of a backup. -/
theorem Changes.custody {s : Store} (h : Changes config w.log k w.store s)
    (hne : k ≠ .backup id) : Custody id w (w.put s) := by
  cases h with
  | refl => exact .refl id w
  | single hchange =>
    refine ⟨fun row hrow => ?_, ⟨[], by simp, fun _ h => nomatch h⟩, ?_⟩
    · obtain ⟨row', hrow', hstep⟩ := hchange.row_step hrow
      have hid : row.id = id := Table.get_key hrow
      exact ⟨row', hrow', hstep.drifts (hid ▸ hne)⟩
    · rintro purge hpurge rfl
      exact hchange.purge_kept hpurge hne

/-- Every object that was put has a row that sealed it. -/
def Recorded (w : World interface) : Prop :=
  ∀ exchange ∈ w.log, ∀ intent, exchange.call = .putObject intent →
    ∃ row parts, getBackup w.store intent.attemptId = some row ∧ 3 ≤ row.work.rank ∧
      row.work.sealed? = some parts ∧ parts.intent = intent

/-- What may be stored of a backup is the object that its row sealed, and the row is not purged. -/
def Held (w : World interface) (id : BackupId) : Prop :=
  objectBytes w.log id = 0 ∨
    ∃ row parts, getBackup w.store id = some row ∧ 3 ≤ row.work.rank ∧
      row.work.sealed? = some parts ∧ objectBytes w.log id = parts.intent.digests.size ∧
      row.state.isPurged = false

structure Valid (config : AdmissionConfig) (w : World interface) : Prop where
  sound : Sound config w.store
  recorded : Recorded w
  held : ∀ id, Held w id

/-- Only the retirement of a row makes it purged, and then its object is gone. -/
theorem RowStep.live {row row' : BackupRow} (h : RowStep log k row row')
    (hlive : row.state.isPurged = false) (hbytes : objectBytes log row.id ≠ 0) :
    row'.state.isPurged = false := by
  cases h with
  | same => exact hlive
  | pended => rfl
  | retired own purgeId now pending parts receipt cleaned attempts stored absent gone =>
    exact absurd gone hbytes
  | moves h =>
    cases h with
    | phase | cleaned => exact hlive
    | stored | blocked | verified => rfl

theorem Changes.valid {s : Store} (hw : Valid config w) (h : Changes config w.log k w.store s) :
    Valid config (w.put s) := by
  cases h with
  | refl => exact hw
  | single hchange =>
    refine ⟨hchange.sound hw.sound, fun exchange hm intent hput => ?_, fun id => ?_⟩
    · obtain ⟨row, parts, hrow, hrank, hparts, hintent⟩ := hw.recorded exchange hm intent hput
      obtain ⟨row', hrow', hstep⟩ := hchange.row_step hrow
      exact ⟨row', parts, hrow', Nat.le_trans hrank hstep.forward, hstep.sealed hparts, hintent⟩
    · by_cases hzero : objectBytes w.log id = 0
      · exact .inl hzero
      · rcases hw.held id with hnone | ⟨row, parts, hrow, hrank, hparts, hbytes, hlive⟩
        · exact absurd hnone hzero
        · obtain ⟨row', hrow', hstep⟩ := hchange.row_step hrow
          have hid : row.id = id := Table.get_key hrow
          exact .inr ⟨row', parts, hrow', Nat.le_trans hrank hstep.forward, hstep.sealed hparts,
            hbytes, hstep.live hlive (hid ▸ hzero)⟩

/-- Nothing is stored of a backup whose object was never put. -/
theorem objectBytes_unput (h : ∀ exchange ∈ log, ∀ intent, exchange.call = .putObject intent →
    intent.attemptId ≠ id) : objectBytes log id = 0 := by
  induction log using List.reverseRecOn with
  | nil => rfl
  | append_singleton log exchange ih =>
    have hlog := ih fun other hm => h other (List.mem_append_left _ hm)
    have hlast := h exchange (by simp)
    rw [objectBytes, List.foldl_append]
    change storedAfter id (objectBytes log id) exchange = 0
    rw [hlog]
    obtain ⟨c, r⟩ := exchange
    cases c <;> try rfl
    · next intent => simp [storedAfter, hlast intent rfl]
    · next receipt =>
      cases r with
      | error fault => rfl
      | ok head => cases head <;> simp [storedAfter]

theorem objectBytes_append (exchange : Exchange interface) :
    objectBytes (log ++ [exchange]) id = storedAfter id (objectBytes log id) exchange := by
  rw [objectBytes, List.foldl_append]
  rfl

/-- A call keeps the records valid: a PUT is of the sealed object, and nothing else adds to the
    bucket. -/
theorem valid_call {c : Call} {r : c.Reply} (hw : Valid config w) (ready : c.ready w) :
    Valid config (w.exchange c r) := by
  refine ⟨hw.sound, fun exchange hm intent hput => ?_, fun id => ?_⟩
  · rcases List.mem_append.mp hm with hm | hm
    · exact hw.recorded exchange hm intent hput
    · obtain rfl := List.mem_singleton.mp hm
      obtain rfl : c = .putObject intent := hput
      obtain ⟨⟨row, parts, attempts, hrow, hwork, hintent⟩, -⟩ := ready
      exact ⟨row, parts, hrow, by rw [hwork]; exact Nat.le_refl 3, by rw [hwork]; rfl, hintent⟩
  · by_cases hsame : objectBytes (w.exchange c r).log id = objectBytes w.log id
    · rcases hw.held id with hzero | ⟨row, parts, hrow, hrank, hparts, hbytes, hlive⟩
      · exact .inl (hsame.trans hzero)
      · exact .inr ⟨row, parts, hrow, hrank, hparts, hsame.trans hbytes, hlive⟩
    · rw [World.exchange_log, objectBytes_append] at hsame
      rw [Held, World.exchange_log, objectBytes_append]
      cases c with
      | putObject intent =>
        obtain ⟨⟨row, parts, attempts, hrow, hwork, hintent⟩, hfirst⟩ := ready
        by_cases hid : intent.attemptId = id
        · subst hid
          have hnone : objectBytes w.log intent.attemptId = 0 :=
            objectBytes_unput fun exchange hm other hput => hfirst exchange hm other hput
          have hfits := (hw.sound.rows row (Table.get_mem hrow)).fits
          refine .inr ⟨row, parts, hrow, by rw [hwork]; exact Nat.le_refl 3, by rw [hwork]; rfl,
            ?_, ?_⟩
          · rw [hnone, ← hintent]
            simp [storedAfter]
          · rw [hwork] at hfits
            cases hstate : row.state <;> simp_all [fits, BackupState.isPurged]
        · exact absurd (by simp [storedAfter, hid]) hsame
      | probeVersion receipt =>
        cases r with
        | error fault => exact absurd rfl hsame
        | ok head =>
          cases head with
          | some head => exact absurd rfl hsame
          | none =>
            by_cases hid : receipt.intent.attemptId = id
            · exact .inl (by simp [storedAfter, hid])
            · exact absurd (by simp [storedAfter, hid]) hsame
      | _ => exact absurd rfl hsame

theorem Does.valid (hw : Valid config w) (h : Does config k w w') : Valid config w' := by
  cases h with
  | write store h => exact h.valid hw
  | quiet c r quiet =>
    refine valid_call hw ?_
    cases c <;> first | exact trivial | cases quiet
  | act c r id about own ready => exact valid_call hw ready

/-- What a slot can count on. -/
def Relies : Slot → World interface → World interface → Prop
  | .backup id => Custody id
  | _ => fun _ _ => True

theorem Does.custody (hne : k ≠ .backup id) (h : Does config k w w') : Custody id w w' := by
  have hcall : ∀ (c : Call) (r : c.Reply), c.about ≠ some id → Custody id w (w.exchange c r) := by
    intro c r hbeside
    refine ⟨fun row hrow => ⟨row, hrow, .refl row⟩, ⟨[⟨c, r⟩], rfl, fun exchange hm => ?_⟩,
      fun purge hpurge _ => hpurge⟩
    obtain rfl := List.mem_singleton.mp hm
    exact hbeside
  cases h with
  | write store h => exact h.custody hne
  | quiet c r quiet => exact hcall c r (by simp [quiet])
  | act c r other about own ready =>
    refine hcall c r fun habout => hne ?_
    rw [own, Option.some.inj (about.symm.trans habout)]

/-- The contract of everything that writes the backup tables. -/
def ledger (config : AdmissionConfig) : Contract interface Slot where
  valid := Valid config
  rely := Relies
  does := Does config
  allows := FilesKept
  rely_refl k w := by
    cases k with
    | backup id => exact Custody.refl id w
    | restore id => trivial
    | caller n => trivial
  rely_trans {k _ _ _} h h' := by
    cases k with
    | backup id => exact Custody.trans h h'
    | restore id => trivial
    | caller n => trivial
  does_valid := Does.valid
  does_rely {j k _ _} _ hne h := by
    cases k with
    | backup id => exact h.custody hne
    | restore id => trivial
    | caller n => trivial

end AgentCloud.Backups
