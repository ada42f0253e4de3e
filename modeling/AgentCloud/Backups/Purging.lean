/-
  THE PURGE WORKER KEEPS THE LEDGER: one version is deleted, and its bytes are released when it is
  not found.

  A purge-pending backup is its worker's alone, and so is the row of its purge.  Between the commit
  of `submitted` and the end of the tick the worker therefore knows both exactly (`Owned`), and what
  it asks the object store for is the recorded version.  `Gone` is the one fact that releases the
  reservation: a head that was not found.
-/
import AgentCloud.Backups.Recording

namespace AgentCloud.Backups.Purging

open Checked Durable Recording

variable {admission : AdmissionConfig} {config : StoreConfig} {w : World interface}
  {E : WorkFault → World interface → Prop} {purge : PurgeRow} {row : BackupRow} {receipt : Receipt}

/-! ## What the worker of a purge knows -/

/-- The recorded purge of this backup. -/
def Recorded (purge : PurgeRow) (v : World interface) : Prop :=
  getPurge v.store purge.id = some purge

theorem steady_recorded : Steady purge.backupId (Recorded purge) :=
  ⟨fun h hv => h.purges purge hv rfl⟩

/-- The purge is submitted, and it owns the version of this receipt. -/
structure Owned (purge : PurgeRow) (receipt : Receipt) (v : World interface) : Prop where
  recorded : Recorded purge v
  submitted : ∃ date, purge.state = .submitted date
  own : receipt.intent.attemptId = purge.backupId
  source : ∃ row parts cleaned attempts, getBackup v.store purge.backupId = some row ∧
    row.state = .purgePending purge.id ∧ row.work = .stored parts receipt cleaned attempts

theorem steady_owned : Steady purge.backupId (Owned purge receipt) := by
  constructor
  intro v v' h hv
  refine ⟨steady_recorded.keep h hv.recorded, hv.submitted, hv.own, ?_⟩
  obtain ⟨row, parts, cleaned, attempts, hrow, hstate, hwork⟩ := hv.source
  have hid : row.id = purge.backupId := Table.get_key hrow
  have hhere : Here row v := ⟨hid ▸ hrow, by rw [hstate]; rfl⟩
  have hkept := steady_here.keep (hid ▸ h) hhere
  exact ⟨row, parts, cleaned, attempts, hid ▸ hkept.1, hstate, hwork⟩

/-- The version of this receipt was not found. -/
def Gone (receipt : Receipt) (v : World interface) : Prop :=
  notFound receipt ∈ v.log ∧ objectBytes v.log receipt.intent.attemptId = 0

theorem steady_gone : Steady receipt.intent.attemptId (Gone receipt) :=
  ⟨fun h hv => ⟨h.mem_log hv.1, h.objectBytes_eq.trans hv.2⟩⟩

/-- The retention time of this receipt is over. -/
def Expired (receipt : Receipt) (v : World interface) : Prop :=
  ∃ now : Instant, clockShowed now ∈ v.log ∧ receipt.intent.retention.retainUntil ≤ now

theorem steady_expired {id : BackupId} : Steady id (Expired receipt) := by
  constructor
  rintro v v' h ⟨now, hm, hle⟩
  exact ⟨now, h.mem_log hm, hle⟩

/-- Whatever happens, the purge is a purge of this backup. -/
def Of (purge : PurgeRow) (_ : WorkFault) (v : World interface) : Prop :=
  ∃ found, getPurge v.store purge.id = some found ∧ found.backupId = purge.backupId

theorem quiet_owned {P : World interface → Prop} (hP : Steady purge.backupId P)
    (h : ∀ v, P v → Recorded purge v) :
    Quiet (ledger admission) (.backup purge.backupId) P (Of purge) :=
  quiet hP fun _ v hv => ⟨purge, h v hv, rfl⟩

/-! ## The deleter -/

theorem safe_versionExists (hw : Owned purge receipt w) :
    Safe (ledger admission) (.backup purge.backupId)
      (Told (fun present v => Owned purge receipt v ∧ (present = false → Gone receipt v))
        (Of purge)) (versionExists receipt) w := by
  have hprobe : Safe (ledger admission) (.backup purge.backupId)
      (Told (fun reply v => Owned purge receipt v ∧ (reply = .ok none → Gone receipt v))
        (Of purge)) (Prog.ask (S := interface) (.probeVersion receipt)) w := by
    refine safe_act steady_owned (congrArg some hw.own) hw fun v hv _ =>
      ⟨trivial, fun r _ => ⟨⟨hv.recorded, hv.submitted, hv.own, hv.source⟩, ?_⟩⟩
    rintro rfl
    refine ⟨List.mem_append_right _ (List.mem_singleton.mpr rfl), ?_⟩
    rw [World.exchange_log, objectBytes_append]
    exact if_pos rfl
  refine Safe.seq hprobe fun reply v hv => ?_
  have hsteady : Steady purge.backupId fun v => Owned purge receipt v ∧
      (reply = .ok none → Gone receipt v) :=
    ⟨fun h hv => ⟨steady_owned.keep h hv.1, fun hreply =>
      steady_gone.keep (hv.1.own.symm ▸ h) (hv.2 hreply)⟩⟩
  refine Safe.seq ((quiet_owned hsteady fun _ hv => hv.1.recorded).returned hv)
    fun head v hv => ?_
  obtain ⟨hreply, howned, hgone⟩ := hv
  cases head with
  | none => exact Safe.ends ⟨howned, fun _ => hgone hreply⟩
  | some head =>
    exact Safe.seq (safe_checkMetadata (quiet_owned steady_owned fun _ hv => hv.recorded) howned)
      fun _ v hv => Safe.ends ⟨hv, fun h => nomatch h⟩

/-- What a purge found out: the version is absent only if it was not found. -/
def Learned (purge : PurgeRow) (receipt : Receipt) (outcome : PurgeOutcome)
    (v : World interface) : Prop :=
  Owned purge receipt v ∧ (outcome = .absent → Gone receipt v)

theorem safe_deleteVerified (hw : Owned purge receipt w ∧ Expired receipt w) :
    Safe (ledger admission) (.backup purge.backupId)
      (Told (Learned purge receipt) (Of purge)) (deleteVerified receipt) w := by
  have hsteady : Steady purge.backupId fun v => Owned purge receipt v ∧ Expired receipt v :=
    steady_owned.and steady_expired
  have hdelete : Safe (ledger admission) (.backup purge.backupId)
      (Told (fun _ => Owned purge receipt) (Of purge))
      (Prog.ask (S := interface) (.deleteVersion receipt)) w := by
    refine safe_act hsteady (congrArg some hw.1.own) hw fun v hv _ =>
      ⟨⟨?_, hv.2⟩, fun r _ => ⟨hv.1.recorded, hv.1.submitted, hv.1.own, hv.1.source⟩⟩
    obtain ⟨date, hdate⟩ := hv.1.submitted
    exact ⟨purge, date, hv.1.recorded, hdate, hv.1.own.symm, hv.1.source⟩
  have hquiet : Quiet (ledger admission) (.backup purge.backupId) (Owned purge receipt)
      (Of purge) := quiet_owned steady_owned fun _ hv => hv.recorded
  refine Safe.seq hdelete fun reply v hv => ?_
  refine Safe.seq (hquiet.thrown hv) fun _ v hv => ?_
  refine Safe.seq (safe_versionExists hv) fun present v hv => ?_
  have hlearned : Steady purge.backupId fun v => Owned purge receipt v ∧
      (present = false → Gone receipt v) :=
    ⟨fun h hv => ⟨steady_owned.keep h hv.1, fun habsent =>
      steady_gone.keep (hv.1.own.symm ▸ h) (hv.2 habsent)⟩⟩
  refine Safe.seq ((quiet_owned hlearned fun _ hv => hv.1.recorded).checked hv)
    fun _ v hv => Safe.ends ⟨hv.2.1, fun _ => hv.2.2 ?_⟩
  simpa using hv.1

theorem safe_purgeObject (hw : Owned purge receipt w) :
    Safe (ledger admission) (.backup purge.backupId)
      (Told (Learned purge receipt) (Of purge)) (purgeObject config receipt) w := by
  have hquiet : Quiet (ledger admission) (.backup purge.backupId) (Owned purge receipt)
      (Of purge) := quiet_owned steady_owned fun _ hv => hv.recorded
  refine Safe.seq (safe_bind hquiet hw) fun _ v hv => ?_
  refine Safe.seq (hquiet.asks rfl hv.2) fun protection v hv => ?_
  refine Safe.seq (hquiet.thrown hv) fun _ v hv => ?_
  refine Safe.seq (safe_versionExists hv) fun present v hv => ?_
  cases present with
  | false => exact Safe.ends ⟨hv.1, fun _ => hv.2 rfl⟩
  | true =>
    refine Safe.seq (safe_retainedUntil hquiet hv.1) fun retainUntil v hv => ?_
    obtain ⟨hretained, hv⟩ := hv
    have hclock : Safe (ledger admission) (.backup purge.backupId)
        (Told (fun now v => Owned purge receipt v ∧ clockShowed now ∈ v.log) (Of purge))
        (Prog.ask (S := interface) .localClock) v :=
      safe_ask steady_owned rfl hv fun v now hv _ =>
        ⟨⟨hv.recorded, hv.submitted, hv.own, hv.source⟩,
          List.mem_append_right _ (List.mem_singleton.mpr rfl)⟩
    refine Safe.seq hclock fun now v hv => ?_
    split
    · exact Safe.ends ⟨hv.1, fun h => nomatch h⟩
    · next hdue =>
      refine safe_deleteVerified ⟨hv.1, now, hv.2, ?_⟩
      exact Nat.le_trans hretained (Nat.le_of_not_lt hdue)

/-! ## The worker -/

theorem safe_savePurge {f : Env → PurgeRow → PurgeRow}
    (hf : ∀ env found, (f env found).id = found.id ∧ (f env found).backupId = found.backupId ∧
      (f env found).reason = found.reason)
    (hw : ∃ found, getPurge w.store purge.id = some found ∧ found.backupId = purge.backupId) :
    Safe (ledger admission) (.backup purge.backupId) (Told Anyhow E)
      (Prog.transact (S := interface) fun env store =>
        .ok ((), updatePurge store purge.id (f env))) w := by
  have hsteady : Steady purge.backupId fun v => ∃ found,
      getPurge v.store purge.id = some found ∧ found.backupId = purge.backupId := by
    constructor
    rintro v v' h ⟨found, hfound, hof⟩
    have hid : found.id = purge.id := Table.get_key hfound
    exact ⟨found, hid ▸ h.purges found (hid ▸ hfound) hof, hof⟩
  refine safe_commit hsteady hw fun v env hv _ => ⟨.single (.purging purge.id (f env) ?_ (hf env)),
    trivial⟩
  intro other hother
  obtain ⟨found, hfound, hof⟩ := hv
  obtain rfl : found = other := Option.some.inj (hfound.symm.trans hother)
  rw [hof]

theorem safe_completePurge (hw : Owned purge receipt w ∧ Gone receipt w) :
    Safe (ledger admission) (.backup purge.backupId) (Told Anyhow fun _ _ => True)
      (Prog.transact (S := interface) (completePurge purge)) w := by
  refine Safe.transact fun v hv _ env => ⟨fun _ _ => trivial, fun a s hok => ⟨?_, trivial⟩⟩
  have howned := steady_owned.keep hv hw.1
  have hgone : Gone receipt v := steady_gone.keep (hw.1.own.symm ▸ hv) hw.2
  obtain ⟨row, parts, cleaned, attempts, hrow, hstate, hwork⟩ := howned.source
  have hid : row.id = purge.backupId := Table.get_key hrow
  simp only [completePurge, bind_ok_iff, pure_ok_iff, Prod.mk.injEq] at hok
  obtain ⟨found, -, _, -, -, rfl⟩ := hok
  rw [← hid]
  refine .write _ (.single (.purged row (hid ▸ hrow) rfl purge hid.symm howned.recorded hstate parts
    receipt cleaned attempts hwork hgone.1 ?_ env.now))
  rw [hid, ← howned.own]
  exact hgone.2

theorem safe_settlePurge (purge : PurgeRow) {stale : PurgeRow} {outcome : PurgeOutcome} (hid : stale.id = purge.id)
    (hof : stale.backupId = purge.backupId) (hw : Learned purge receipt outcome w) :
    Safe (ledger admission) (.backup purge.backupId) (Told Anyhow fun _ _ => True)
      (settlePurge stale outcome) w := by
  cases outcome with
  | absent =>
    have hcomplete : completePurge stale = completePurge purge := by
      unfold completePurge
      rw [hid, hof]
    rw [settlePurge, hcomplete]
    exact safe_completePurge ⟨hw.1, hw.2 rfl⟩
  | retained retainUntil =>
    have hquiet : Quiet (ledger admission) (.backup purge.backupId) (Owned purge receipt)
        fun _ _ => True := quiet steady_owned fun _ _ _ => trivial
    rw [settlePurge, hid]
    refine Safe.seq (hquiet.asks rfl hw.1) fun now v hv => ?_
    exact safe_savePurge (fun _ _ => ⟨rfl, rfl, rfl⟩) ⟨purge, hv.recorded, rfl⟩

/-- A purge owns a row that is purge-pending for it. -/
theorem ownedReceipt_ok (h : ownedReceipt purge row = .ok receipt) :
    row.state = .purgePending purge.id ∧ receipt.intent.attemptId = row.id ∧
      ∃ parts cleaned attempts, row.work = .stored parts receipt cleaned attempts := by
  simp only [ownedReceipt, bind_ok_iff, refuse_ok_iff] at h
  obtain ⟨_, howner, h⟩ := h
  rw [not_or, not_or, not_not, not_not, not_not] at howner
  cases hwork : row.work with
  | stored parts found cleaned attempts =>
    simp only [hwork, bind_ok_iff, refuse_ok_iff, pure_ok_iff] at h
    obtain ⟨_, hown, rfl⟩ := h
    exact ⟨howner.2.2, by simpa using hown, parts, cleaned, attempts, rfl⟩
  | capture => simp [hwork] at h
  | encrypt => simp [hwork] at h
  | uploadReady => simp [hwork] at h
  | uploadSubmitted => simp [hwork] at h

/-- `submitted` is persisted, and then the purge owns what it deletes. -/
theorem safe_submitPurge {now : Instant} {row : BackupRow} {parts : Sealed} {cleaned : Bool}
    {attempts : Nat} (hid : row.id = purge.backupId) (hpending : row.state = .purgePending purge.id)
    (hstored : row.work = .stored parts receipt cleaned attempts)
    (hown : receipt.intent.attemptId = row.id) (hw : Recorded purge w ∧ Here row w) :
    Safe (ledger admission) (.backup purge.backupId)
      (Told (fun _ => Owned { purge with state := .submitted now } receipt) E)
      (savePurge purge.id fun row => { row with state := .submitted now }) w := by
  have hsteady : Steady purge.backupId fun v => Recorded purge v ∧ Here row v :=
    steady_recorded.and (hid ▸ steady_here)
  refine safe_commit (Q := Owned { purge with state := .submitted now } receipt) hsteady hw
    fun v env hv _ => ⟨.single (.purging purge.id (fun row => { row with state := .submitted now })
      (fun other hother => ?_) fun _ => ⟨rfl, rfl, rfl⟩), ?_, ⟨now, rfl⟩, hown.trans hid, ?_⟩
  · obtain rfl : purge = other := Option.some.inj (hv.1.symm.trans hother)
    rfl
  · have hfound : getPurge v.store purge.id = some purge := hv.1
    have hget : getPurge (updatePurge v.store purge.id fun row =>
        { row with state := .submitted now }) purge.id =
        (getPurge v.store purge.id).map fun row => { row with state := .submitted now } :=
      Table.get_update_self fun _ => rfl
    exact hget.trans (by rw [hfound]; rfl)
  · exact ⟨row, parts, cleaned, attempts, hid ▸ hv.2.1, hpending, hstored⟩

theorem safe_executePurge {now : Instant} (hw : Recorded purge w) :
    Safe (ledger admission) (.backup purge.backupId) (Told Anyhow fun _ _ => True)
      (executePurge config purge now) w := by
  have hread : Safe (ledger admission) (.backup purge.backupId)
      (Told (fun got v => got = getBackup v.store purge.backupId ∧ Recorded purge v)
        fun _ _ => True) (readBackup purge.backupId) w :=
    safe_read steady_recorded hw fun v hv _ => ⟨rfl, hv⟩
  refine Safe.seq hread fun got v hv => ?_
  obtain ⟨hgot, hrecorded⟩ := hv
  refine Safe.seq (Q := fun receipt v => ∃ row, ownedReceipt purge row = .ok receipt ∧
      getBackup v.store purge.backupId = some row ∧ Recorded purge v)
    (Safe.ofExcept fun receipt hok => ?_) fun receipt v hv => ?_
  · simp only [lift_ok_iff, bind_ok_iff, present_ok_iff] at hok
    obtain ⟨row, rfl, howned⟩ := hok
    exact ⟨row, howned, hgot.symm, hrecorded⟩
  · obtain ⟨row, howned, hrow, hrecorded⟩ := hv
    obtain ⟨hpending, hown, parts, cleaned, attempts, hstored⟩ := ownedReceipt_ok howned
    have hid : row.id = purge.backupId := Table.get_key hrow
    refine Safe.seq (safe_submitPurge hid hpending hstored hown
      ⟨hrecorded, hid ▸ hrow, by rw [hpending]; rfl⟩) fun _ v hv => ?_
    have hpurge : Safe (ledger admission) (.backup purge.backupId)
        (Told (Told (Learned { purge with state := .submitted now } receipt) (Of purge))
          fun _ _ => True)
        (Prog.attempt (purgeObject config receipt)) v := by
      refine Safe.attempt ((safe_purgeObject hv).mono fun r u hr => ?_)
      cases r with
      | ok outcome => exact hr
      | error fault => exact hr
    refine Safe.seq hpurge fun outcome v hv => ?_
    cases outcome with
    | error fault => exact safe_savePurge (fun _ _ => ⟨rfl, rfl, rfl⟩) hv
    | ok outcome => exact safe_settlePurge { purge with state := .submitted now } rfl rfl hv

/-- A tick of a purge. -/
theorem safe_advancePurge {id : BackupId} {purgeId : PurgeId} :
    Safe (ledger admission) (.backup id) (Told Anyhow fun _ _ => True)
      (advancePurge config id purgeId) w := by
  have hread : Safe (ledger admission) (.backup id)
      (Told (fun selected v => ∀ purge ∈ selected, purge.backupId = id ∧ Recorded purge v)
        fun _ _ => True)
      (Prog.read (S := interface) fun store =>
        (getPurge store purgeId).filter fun purge => purge.backupId = id) w := by
    refine safe_read Steady.trivial trivial fun v _ _ purge hpurge => ?_
    obtain ⟨hfound, hof⟩ := Option.mem_filter_iff.mp hpurge
    have hid : purge.id = purgeId := Table.get_key hfound
    refine ⟨by simpa using hof, ?_⟩
    rw [Recorded, hid]
    exact hfound
  refine Safe.seq hread fun selected v hv => ?_
  cases selected with
  | none => exact Safe.ends trivial
  | some purge =>
    obtain ⟨rfl, hrecorded⟩ := hv purge rfl
    have hobserve : Safe (ledger admission) (.backup purge.backupId)
        (Told (fun _ => Recorded purge) fun _ _ => True)
        (Prog.observe (S := interface) fun env _ => env.now) v :=
      Safe.observe (fun v => v.put_self ▸ .write v.store .refl) fun v hv _ _ =>
        steady_recorded.keep hv hrecorded
    refine Safe.seq hobserve fun now v hv => ?_
    split
    · exact safe_executePurge hv
    · exact Safe.ends trivial

end AgentCloud.Backups.Purging
