/-
  THE CAPTURE WORKER KEEPS THE LEDGER: each phase writes what the ledger allows, and nothing else.

  A backup that is not captured belongs to its worker alone, so a tick knows its row exactly (`Here`)
  from the read to its next write.  Three facts are carried beside the row: that the archive in the
  scratch directory is within the limit (`Archived`), that nothing was put yet (`Unput`), and, should
  the credential turn out to be gone, that the backup is still pending (`Aborted`).
-/
import AgentCloud.Backups.Custody

namespace AgentCloud.Backups.Recording

open Checked Durable

variable {admission : AdmissionConfig} {config : BackupConfig} {k : Slot} {w : World interface}
  {P Q : World interface → Prop} {id : BackupId} {row : BackupRow}
  {E : WorkFault → World interface → Prop}

/-! ## What the worker of a backup knows -/

/-- Others leave it alone. -/
structure Steady (id : BackupId) (P : World interface → Prop) : Prop where
  keep : ∀ {v v' : World interface}, Custody id v v' → P v → P v'

theorem Steady.trivial : Steady id fun _ => True := ⟨fun _ _ => .intro⟩

theorem Steady.and (hP : Steady id P) (hQ : Steady id Q) : Steady id fun v => P v ∧ Q v :=
  ⟨fun h hv => ⟨hP.keep h hv.1, hQ.keep h hv.2⟩⟩

/-- The row is this one, and others leave it alone. -/
def Here (row : BackupRow) (v : World interface) : Prop :=
  getBackup v.store row.id = some row ∧ row.state.isCaptured = false

theorem steady_here : Steady row.id (Here row) := by
  constructor
  rintro v v' h ⟨hrow, hstate⟩
  obtain ⟨row', hrow', state, rfl, hsame | ⟨hcaptured, -⟩⟩ := h.row row hrow
  · subst hsame
    exact ⟨hrow', hstate⟩
  · simp [hcaptured] at hstate

theorem steady_work (row : BackupRow) (work : BackupWork) :
    Steady row.id (Here { row with work }) := @steady_here { row with work }

/-- The archive in the scratch directory is within the limit. -/
def Archived (id : BackupId) (maxBytes : Nat) (v : World interface) : Prop :=
  ∀ encryption ∈ lastEncryption v.log id, encryption.ciphertextBytes ≤ maxBytes

theorem steady_archived {maxBytes : Nat} : Steady id (Archived id maxBytes) := by
  constructor
  intro v v' h harchived
  rwa [Archived, h.lastEncryption_eq]

/-- No object of the backup was put. -/
def Unput (id : BackupId) (v : World interface) : Prop :=
  ∀ exchange ∈ v.log, ∀ intent, exchange.call = .putObject intent → intent.attemptId ≠ id

theorem steady_unput : Steady id (Unput id) := by
  constructor
  intro v v' h hunput exchange hm intent hput
  obtain ⟨extra, hlog, hbeside⟩ := h.log
  rw [hlog] at hm
  rcases List.mem_append.mp hm with hm | hm
  · exact hunput exchange hm intent hput
  · intro hid
    exact hbeside exchange hm (by rw [hput, ← hid]; rfl)

/-- The backup is stored, and its object not given up. -/
def Stored (id : BackupId) (parts : Sealed) (receipt : Receipt) (cleaned : Bool) (attempts : Nat)
    (v : World interface) : Prop :=
  ∃ row, getBackup v.store id = some row ∧ row.work = .stored parts receipt cleaned attempts ∧
    row.state.isPurged = false

theorem steady_stored {parts : Sealed} {receipt : Receipt} {cleaned : Bool} {attempts : Nat} :
    Steady id (Stored id parts receipt cleaned attempts) := by
  constructor
  rintro v v' h ⟨row, hrow, hwork, hlive⟩
  obtain ⟨row', hrow', state, rfl, hstate⟩ := h.row row hrow
  refine ⟨_, hrow', hwork, ?_⟩
  rcases hstate with rfl | ⟨-, hcaptured | ⟨purgeId, rfl⟩⟩
  · exact hlive
  · exact isPurged_of_captured hcaptured
  · rfl

/-- A pending backup. -/
def Pending (id : BackupId) (v : World interface) : Prop :=
  ∃ row, getBackup v.store id = some row ∧ row.state = .pending

theorem steady_pending : Steady id (Pending id) := by
  constructor
  rintro v v' h ⟨row, hrow, hpending⟩
  obtain ⟨row', hrow', state, rfl, hsame | ⟨hcaptured, -⟩⟩ := h.row row hrow
  · exact ⟨_, hrow', hsame.trans hpending⟩
  · simp [hpending, BackupState.isCaptured] at hcaptured

theorem Here.pending (h : Here row w) (hpending : row.state = .pending) : Pending row.id w :=
  ⟨row, h.1, hpending⟩

/-- Where the credential is gone, the backup is still pending. -/
def Aborted (id : BackupId) (fault : WorkFault) (v : World interface) : Prop :=
  fault = .authority → Pending id v

theorem aborted_fault {f : Fault} {v : World interface} : Aborted id (.fault f) v :=
  fun h => nomatch h

/-! ## Rules -/

theorem Call.beside_of_passive {c : Call} (hc : c.passive = true) : c.about = none := by
  cases c <;> first | rfl | cases hc

theorem custody_exchange {c : Call} {r : c.Reply} (hc : c.about ≠ some id) :
    Custody id w (w.exchange c r) := by
  refine ⟨fun row hrow => ⟨row, hrow, .refl row⟩, ⟨[⟨c, r⟩], rfl, fun exchange hm => ?_⟩,
    fun purge hpurge _ => hpurge⟩
  obtain rfl := List.mem_singleton.mp hm
  exact hc

/-- A call that is about no backup. -/
theorem safe_ask (hP : Steady id P) {c : Call} {Q : c.Reply → World interface → Prop}
    (hc : c.about = none) (hw : P w)
    (h : ∀ v r, P v → FilesKept v c r → Q r (v.exchange c r)) :
    Safe (ledger admission) (.backup id) (Told Q E) (Prog.ask (S := interface) c) w :=
  Safe.ask fun v hv _ r hr => ⟨.quiet c r hc, h v r (hP.keep hv hw) hr⟩

theorem quiet (hP : Steady id P) (hE : ∀ f v, P v → E (.fault f) v) :
    Quiet (ledger admission) (.backup id) P E :=
  ⟨fun hc hw => safe_ask hP (Call.beside_of_passive hc) hw fun _ _ hv _ =>
      hP.keep (custody_exchange (by simp [Call.beside_of_passive hc])) hv,
    fun hw => hE _ _ hw⟩

theorem quiet_aborted (hP : Steady id P) : Quiet (ledger admission) (.backup id) P (Aborted id) :=
  quiet hP fun _ _ _ => aborted_fault

/-- A transaction that always commits. -/
theorem safe_commit (hP : Steady id P) {f : Env → Store → Store} (hw : P w)
    (h : ∀ v env, P v → Valid admission v →
      Changes admission v.log (.backup id) v.store (f env v.store) ∧ Q (v.put (f env v.store))) :
    Safe (ledger admission) (.backup id) (Told (fun _ => Q) E)
      (Prog.transact (S := interface) fun env store => .ok ((), f env store)) w :=
  Safe.transact fun v hv hvalid env => by
    obtain ⟨hchanges, hQ⟩ := h v env (hP.keep hv hw) hvalid
    refine ⟨fun _ herror => (nomatch herror), fun a s hok => ?_⟩
    obtain ⟨-, rfl⟩ := Prod.mk.inj (Except.ok.inj hok)
    exact ⟨.write _ hchanges, hQ⟩

/-- A read. -/
theorem safe_read (hP : Steady id P) {α : Type} {f : Store → α} {Q : α → World interface → Prop}
    (hw : P w) (h : ∀ v, P v → Valid admission v → Q (f v.store) v) :
    Safe (ledger admission) (.backup id) (Told Q E) (Prog.read (S := interface) f) w :=
  Safe.read (fun v => v.put_self ▸ .write v.store .refl) fun v hv hvalid => h v (hP.keep hv hw) hvalid

/-- A call about the worker's own backup. -/
theorem safe_act (hP : Steady id P) {c : Call} {Q : c.Reply → World interface → Prop}
    (hc : c.about = some id) (hw : P w)
    (h : ∀ v, P v → Valid admission v → c.ready v ∧ ∀ r, FilesKept v c r → Q r (v.exchange c r)) :
    Safe (ledger admission) (.backup id) (Told Q E) (Prog.ask (S := interface) c) w :=
  Safe.ask fun v hv hvalid r hr =>
    have ⟨hready, hQ⟩ := h v (hP.keep hv hw) hvalid
    ⟨.act c r id hc rfl hready, hQ r hr⟩

/-! ## Writes of the row -/

/-- The row is rewritten by a permitted move. -/
theorem changes_row {v : World interface} {f : BackupRow → BackupRow}
    (hrow : getBackup v.store row.id = some row) (hf : ∀ row, (f row).id = row.id)
    (hmoves : Moves k row (f row)) :
    Changes admission v.log k v.store (updateBackup v.store row.id f) ∧
      getBackup (updateBackup v.store row.id f) row.id = some (f row) := by
  refine ⟨.single (.move row.id f hf fun found hfound => ?_), ?_⟩
  · obtain rfl : row = found := Option.some.inj (hrow.symm.trans hfound)
    exact hmoves
  · rw [getBackup_update hf, if_pos rfl, hrow]
    rfl

/-- The next phase of a pending backup. -/
theorem changes_phase {v : World interface} {work : BackupWork} (hhere : Here row v)
    (hpending : row.state = .pending) (hearly : work.rank < 4)
    (hforward : row.work.rank ≤ work.rank)
    (hsealing : ∀ parts ∈ work.sealed?, row.work.sealed? = some parts ∨
      (row.work.rank < 2 ∧ work.rank = 2 ∧ parts.intent.attemptId = row.id ∧
        parts.intent.digests.size ≤ row.request.limits.maxBytes)) :
    Changes admission v.log (.backup row.id) v.store (writeWork row.id work v.store) ∧
      Here { row with work } (v.put (writeWork row.id work v.store)) := by
  obtain ⟨hchanges, hget⟩ := changes_row (f := fun row => { row with work }) hhere.1
    (fun _ => rfl) (.phase work rfl hpending hearly hforward hsealing)
  exact ⟨hchanges, hget, hhere.2⟩

theorem safe_save (row : BackupRow) {work : BackupWork} (hhere : Here row w) (hpending : row.state = .pending)
    (hearly : work.rank < 4) (hforward : row.work.rank ≤ work.rank)
    (hsealing : ∀ parts ∈ work.sealed?, row.work.sealed? = some parts ∨
      (row.work.rank < 2 ∧ work.rank = 2 ∧ parts.intent.attemptId = row.id ∧
        parts.intent.digests.size ≤ row.request.limits.maxBytes)) :
    Safe (ledger admission) (.backup row.id) (Told (fun _ => Here { row with work }) E)
      (save row.id work) w :=
  safe_commit steady_here hhere fun _ _ hv _ => changes_phase hv hpending hearly hforward hsealing

theorem safe_authorizedWork (row : BackupRow) {accountId : AccountId} {grantId : GrantId} {projectId : ProjectId}
    {capability : Capability} {work : BackupWork} (hhere : Here row w)
    (hpending : row.state = .pending) (hearly : work.rank < 2)
    (hforward : row.work.rank ≤ work.rank) :
    Safe (ledger admission) (.backup row.id) (Told (fun _ => Here { row with work })
      (Aborted row.id))
      (authorizeEffect accountId grantId projectId capability (writeWork row.id work)) w := by
  have hopen : ∀ parts, parts ∉ work.sealed? := by
    intro parts hparts
    cases work <;> simp_all [BackupWork.sealed?, BackupWork.rank]
  refine Safe.transact fun v hv _ env => ⟨fun e _ _ => ?_, fun a s hok => ?_⟩
  · exact (steady_here.keep hv hhere).pending hpending
  · simp only [bind_ok_iff, pure_ok_iff, Prod.mk.injEq] at hok
    obtain ⟨_, -, _, -, -, rfl⟩ := hok
    obtain ⟨hchanges, hnext⟩ := changes_phase (steady_here.keep hv hhere) hpending (by omega) hforward
      fun parts hparts => absurd hparts (hopen parts)
    exact ⟨.write _ hchanges, hnext⟩

theorem safe_blockBackup {reason : String} (hpending : Pending id w) :
    Safe (ledger admission) (.backup id) (Told Anyhow E) (blockBackup id reason) w := by
  refine safe_commit steady_pending hpending fun v _ hv _ => ⟨?_, trivial⟩
  obtain ⟨row, hrow, hstate⟩ := hv
  obtain rfl : row.id = id := Table.get_key hrow
  have hblocked : Moves (.backup row.id) row { row with state := .blocked reason } :=
    .blocked reason rfl hstate
  exact (changes_row (f := fun row => { row with state := .blocked reason }) hrow (fun _ => rfl)
    hblocked).1

/-! ## Sealing an archive -/

theorem lastEncryption_append {log : Log} (exchange : Exchange interface) :
    lastEncryption (log ++ [exchange]) id =
      (encryptionOf id exchange).or (lastEncryption log id) := by
  rw [lastEncryption, List.foldl_append]
  rfl

theorem safe_encryptBackup (row : BackupRow) {captured : Capture} {keyring : String} {maxBytes : Nat}
    (hhere : Here row w) :
    Safe (ledger admission) (.backup row.id)
      (Told (fun _ v => Here row v ∧ Archived row.id maxBytes v) (Aborted row.id))
      (encryptBackup row.id captured keyring maxBytes) w := by
  have hread : Safe (ledger admission) (.backup row.id)
      (Told (fun reply v => Here row v ∧ ∀ encryption, reply = .ok encryption →
        lastEncryption v.log row.id = some encryption) (Aborted row.id))
      (Prog.ask (S := interface) (.readAndEncrypt row.id captured keyring)) w := by
    refine safe_act steady_here rfl hhere fun v hv _ => ⟨trivial, fun r _ => ⟨hv, ?_⟩⟩
    rintro encryption rfl
    rw [World.exchange_log, lastEncryption_append]
    simp [encryptionOf]
  refine Safe.seq hread fun reply v hv => ?_
  have hsteady : Steady row.id fun v => Here row v ∧ ∀ encryption, reply = .ok encryption →
      lastEncryption v.log row.id = some encryption := by
    constructor
    intro v v' h hv
    exact ⟨steady_here.keep h hv.1, fun encryption hreply =>
      h.lastEncryption_eq.trans (hv.2 encryption hreply)⟩
  refine Safe.seq ((quiet_aborted hsteady).returned hv) fun encryption v hv => ?_
  obtain ⟨hreply, hv⟩ := hv
  refine Safe.seq ((quiet_aborted hsteady).checked hv) fun _ v hv => Safe.ends ?_
  obtain ⟨hchecked, hhere, hlast⟩ := hv
  refine ⟨hhere, fun found hfound => ?_⟩
  obtain rfl := Option.some.inj ((hlast encryption hreply).symm.trans hfound)
  omega

theorem safe_prepareUpload (row : BackupRow) {store : StoreConfig} {maxBytes : Nat} {retention : Retention}
    (hw : Here row w ∧ Archived row.id maxBytes w) :
    Safe (ledger admission) (.backup row.id)
      (Told (fun intent v => Here row v ∧ intent.attemptId = row.id ∧
        intent.digests.size ≤ maxBytes) (Aborted row.id))
      (prepareUpload store row.id retention) w := by
  have hhash : Safe (ledger admission) (.backup row.id)
      (Told (fun reply v => Here row v ∧ ∀ digests, reply = .ok digests →
        digests.size ≤ maxBytes) (Aborted row.id))
      (Prog.ask (S := interface) (.hashFile row.id)) w := by
    refine safe_ask (steady_here.and steady_archived) rfl hw fun v r hv hkept => ⟨hv.1, ?_⟩
    rintro digests rfl
    obtain ⟨encryption, hlast, hsize⟩ := hkept
    exact hsize ▸ hv.2 encryption hlast
  refine Safe.seq hhash fun reply v hv => ?_
  have hsteady : Steady row.id fun v => Here row v ∧ ∀ digests, reply = .ok digests →
      digests.size ≤ maxBytes := ⟨fun h hv => ⟨steady_here.keep h hv.1, hv.2⟩⟩
  refine Safe.seq ((quiet_aborted hsteady).returned hv) fun digests v hv => ?_
  obtain ⟨hreply, hhere, hsize⟩ := hv
  refine (safe_bind (quiet_aborted steady_here) hhere).mono fun r v hr => ?_
  cases r with
  | ok intent =>
    obtain ⟨rfl, hhere⟩ := hr
    exact ⟨hhere, rfl, hsize digests hreply⟩
  | error fault => exact hr

/-! ## The phases of a capture -/

theorem safe_cleanupPhase {first : BackupRow} {parts : Sealed} {receipt : Receipt} {cleaned : Bool} {attempts : Nat}
    (hid : first.id = row.id) (hstored : Stored row.id parts receipt cleaned attempts w) :
    Safe (ledger admission) (.backup row.id) (Told Anyhow (Aborted row.id))
      (cleanupPhase first parts receipt cleaned attempts) w := by
  rw [cleanupPhase, hid]
  have hsave : ∀ {cleaned cleaned' : Bool} {attempts attempts' : Nat} {v : World interface},
      Stored row.id parts receipt cleaned attempts v →
      Safe (ledger admission) (.backup row.id)
        (Told (fun _ => Stored row.id parts receipt cleaned' attempts') (Aborted row.id))
        (save row.id (.stored parts receipt cleaned' attempts')) v := by
    intro cleaned cleaned' attempts attempts' v hv
    refine safe_commit steady_stored hv fun u _ hu _ => ?_
    obtain ⟨found, hfound, hwork, hlive⟩ := hu
    have hid : found.id = row.id := Table.get_key hfound
    have hmoves : Moves (.backup found.id) found
        { found with work := .stored parts receipt cleaned' attempts' } :=
      .cleaned parts receipt cleaned cleaned' attempts attempts' rfl hwork hlive
    obtain ⟨hchanges, hget⟩ := changes_row (f := fun row =>
      { row with work := .stored parts receipt cleaned' attempts' }) (hid ▸ hfound)
      (fun _ => rfl) hmoves
    rw [hid] at hchanges hget
    exact ⟨hchanges, _, hget, rfl, hlive⟩
  refine Safe.seq ((quiet_aborted steady_stored).ask rfl hstored) fun _ v hv => ?_
  split
  · refine Safe.seq (hsave hv) fun _ v hv => ?_
    refine Safe.seq (safe_read (Q := fun _ => Stored row.id parts receipt false (attempts + 1))
      steady_stored hv fun _ hv _ => hv) fun machine v hv => ?_
    split
    · refine Safe.seq ((quiet_aborted steady_stored).ask rfl hv) fun _ v hv => ?_
      refine Safe.seq ((quiet_aborted steady_stored).ask rfl hv) fun _ v hv => ?_
      exact (hsave hv).mono fun r v hr => by
        cases r with
        | ok _ => trivial
        | error _ => exact hr
    · exact (hsave hv).mono fun r v hr => by
        cases r with
        | ok _ => trivial
        | error _ => exact hr
  · exact Safe.ends trivial

theorem safe_saveStored (row : BackupRow) {parts : Sealed} {attempts : Nat} {receipt : Receipt}
    (hhere : Here row w) (hwork : row.work = .uploadSubmitted parts attempts)
    (hpending : row.state = .pending) (hreceives : receipt.intent = parts.intent) :
    Safe (ledger admission) (.backup row.id)
      (Told (fun _ => Stored row.id parts receipt false 0) (Aborted row.id))
      (saveStored row.id parts receipt) w := by
  refine safe_commit steady_here hhere fun v _ hv _ => ?_
  have hmoves : Moves (.backup row.id) row
      { row with
        work := .stored parts receipt false 0
        state := .captured receipt.intent.digests.size parts.capture.manifest.capturedAt
          .captured parts.capture.manifest
        reservedBytes := receipt.intent.digests.size } :=
    .stored parts attempts receipt rfl hwork (.inl hpending) hreceives
  obtain ⟨hchanges, hget⟩ := changes_row (f := fun row => { row with
      work := .stored parts receipt false 0
      state := .captured receipt.intent.digests.size parts.capture.manifest.capturedAt
        .captured parts.capture.manifest
      reservedBytes := receipt.intent.digests.size }) hv.1 (fun _ => rfl) hmoves
  exact ⟨hchanges, _, hget, rfl, rfl⟩

/-- The mark of an upload: a row before it has put nothing. -/
theorem safe_markUpload (row : BackupRow) {parts : Sealed} (hhere : Here row w)
    (hwork : row.work = .uploadReady parts) (hpending : row.state = .pending) :
    Safe (ledger admission) (.backup row.id)
      (Told (fun _ v => Here { row with work := .uploadSubmitted parts 0 } v ∧ Unput row.id v)
        (Aborted row.id))
      (save row.id (.uploadSubmitted parts 0)) w := by
  refine safe_commit (Q := fun v => Here { row with work := .uploadSubmitted parts 0 } v ∧
    Unput row.id v) steady_here hhere fun v _ hv hvalid => ?_
  have hearly : (BackupWork.uploadSubmitted parts 0).rank < 4 := Nat.le_refl 4
  have hforward : row.work.rank ≤ (BackupWork.uploadSubmitted parts 0).rank := by
    rw [hwork]
    exact Nat.le_succ 2
  obtain ⟨hchanges, hnext⟩ := changes_phase hv hpending hearly hforward
    fun found hfound => .inl <| by
      rw [hwork]
      exact hfound
  refine ⟨hchanges, hnext, fun exchange hm intent hput hid => ?_⟩
  obtain ⟨found, sealed, hfound, hrank, -⟩ := hvalid.recorded exchange hm intent hput
  rw [hid, hv.1] at hfound
  obtain rfl := Option.some.inj hfound
  rw [hwork] at hrank
  exact absurd hrank (by decide : ¬ 3 ≤ 2)

/-- The one PUT of a backup. -/
theorem safe_upload (row : BackupRow) {store : StoreConfig} {parts : Sealed}
    (hw : Here row w ∧ Unput row.id w) (hwork : row.work = .uploadSubmitted parts 0)
    (hown : parts.intent.attemptId = row.id) :
    Safe (ledger admission) (.backup row.id)
      (Told (fun receipt v => receipt.intent = parts.intent ∧ Here row v) (Aborted row.id))
      (upload store parts.intent) w := by
  have hmarked : Steady row.id fun v => Here row v ∧ Unput row.id v :=
    steady_here.and steady_unput
  refine Safe.seq (safe_bind (quiet_aborted hmarked) hw) fun intent v hv => ?_
  obtain ⟨rfl, hv⟩ := hv
  refine Safe.seq ((quiet_aborted hmarked).asks rfl hv) fun protection v hv => ?_
  refine Safe.seq ((quiet_aborted hmarked).thrown hv) fun _ v hv => ?_
  refine Safe.seq ((quiet_aborted hmarked).asks rfl hv) fun reply v hv => ?_
  refine Safe.seq ((quiet_aborted hmarked).thrown hv) fun digests v hv => ?_
  refine Safe.seq ((quiet_aborted hmarked).asks rfl hv) fun submitted v hv => ?_
  refine Safe.seq ((quiet_aborted hmarked).refuseIf hv) fun _ v hv => ?_
  have hput : Safe (ledger admission) (.backup row.id) (Told (fun _ => Here row) (Aborted row.id))
      (Prog.ask (S := interface) (.putObject parts.intent)) v := by
    refine safe_act hmarked (congrArg some hown) hv fun u hu _ =>
      ⟨⟨⟨row, parts, 0, ?_, hwork, rfl⟩, fun exchange hm other hput => ?_⟩, fun _ _ => hu.1⟩
    · rw [hown]
      exact hu.1.1
    · rw [hown]
      exact hu.2 exchange hm other hput
  refine Safe.seq hput fun put v hv => ?_
  refine Safe.seq ((quiet_aborted steady_here).thrown hv) fun versionId v hv => ?_
  refine Safe.seq (safe_receiptOf (quiet_aborted steady_here) hv) fun receipt v hv => ?_
  obtain ⟨rfl, hv⟩ := hv
  refine Safe.seq (safe_inspectMetadata (quiet_aborted steady_here) hv) fun _ v hv => ?_
  exact Safe.seq (safe_readVersion (quiet_aborted steady_here) hv) fun _ v hv =>
    Safe.ends ⟨rfl, hv⟩

theorem safe_uploadPhase {first : BackupRow} {parts : Sealed} (hid : first.id = row.id)
    (hhere : Here { row with work := .uploadReady parts } w) (hpending : row.state = .pending)
    (hown : parts.intent.attemptId = row.id) :
    Safe (ledger admission) (.backup row.id) (Told Anyhow (Aborted row.id))
      (uploadPhase config first parts) w := by
  rw [uploadPhase, hid]
  refine Safe.seq (safe_markUpload { row with work := .uploadReady parts } hhere rfl hpending)
    fun _ v hv => ?_
  refine Safe.seq (safe_upload { row with work := .uploadSubmitted parts 0 } hv rfl hown)
    fun receipt v hv => ?_
  obtain ⟨hreceives, hhere⟩ := hv
  refine Safe.seq (safe_saveStored { row with work := .uploadSubmitted parts 0 } hhere rfl hpending
    hreceives) fun _ v hv => ?_
  exact safe_cleanupPhase hid hv

theorem safe_recoverPhase {parts : Sealed} {attempts : Nat}
    (hhere : Here row w) (hwork : row.work = .uploadSubmitted parts attempts)
    (hpending : row.state = .pending) :
    Safe (ledger admission) (.backup row.id) (Told Anyhow (Aborted row.id))
      (recoverPhase config row parts attempts) w := by
  rw [recoverPhase]
  split
  · exact safe_blockBackup (hhere.pending hpending)
  · have hsave : Safe (ledger admission) (.backup row.id)
        (Told (fun _ => Here { row with work := .uploadSubmitted parts (attempts + 1) })
          (Aborted row.id)) (save row.id (.uploadSubmitted parts (attempts + 1))) w :=
      safe_save row hhere hpending (Nat.le_refl 4) (by rw [hwork]; exact Nat.le_refl 3)
        fun found hfound => .inl (by rw [hwork]; exact hfound)
    refine Safe.seq hsave fun _ v hv => ?_
    have hsteady := steady_work row (.uploadSubmitted parts (attempts + 1))
    refine Safe.seq (safe_recover (quiet_aborted hsteady) hv) fun recovered v hv => ?_
    obtain ⟨hrecovered, hhere⟩ := hv
    cases recovered with
    | none => exact aborted_fault
    | some receipt =>
      refine Safe.seq (safe_saveStored { row with work := .uploadSubmitted parts (attempts + 1) }
        hhere rfl hpending (hrecovered receipt rfl)) fun _ v hv => ?_
      exact safe_cleanupPhase rfl hv

theorem safe_encryptPhase {first : BackupRow} {captured : Capture} {attempts : Nat}
    (hid : first.id = row.id) (hrequest : first.request = row.request)
    (hhere : Here { row with work := .encrypt captured attempts } w)
    (hpending : row.state = .pending) :
    Safe (ledger admission) (.backup row.id) (Told Anyhow (Aborted row.id))
      (encryptPhase config first captured attempts) w := by
  rw [encryptPhase, hid, hrequest]
  have hsteady := fun attempts => steady_work row (.encrypt captured attempts)
  split
  · exact safe_blockBackup (hhere.pending hpending)
  · refine Safe.seq ((quiet_aborted (hsteady attempts)).ask rfl hhere) fun _ v hv => ?_
    refine Safe.seq ((quiet_aborted (hsteady attempts)).ask rfl hv) fun _ v hv => ?_
    refine Safe.seq ((quiet_aborted (hsteady attempts)).ask rfl hv) fun _ v hv => ?_
    refine Safe.seq (safe_authorizedWork { row with work := .encrypt captured attempts } hv hpending
      (Nat.le_refl 2) (Nat.le_refl 1)) fun _ v hv => ?_
    have hnext := hsteady (attempts + 1)
    refine Safe.seq ((quiet_aborted hnext).asks rfl hv) fun reply v hv => ?_
    refine Safe.seq ((quiet_aborted hnext).thrown hv) fun keyring v hv => ?_
    refine Safe.seq ((quiet_aborted hnext).ask rfl hv) fun _ v hv => ?_
    refine Safe.seq (safe_encryptBackup { row with work := .encrypt captured (attempts + 1) } hv)
      fun encryption v hv => ?_
    refine Safe.seq ((quiet_aborted (hnext.and steady_archived)).refuseIf hv) fun _ v hv => ?_
    refine Safe.seq (safe_prepareUpload { row with work := .encrypt captured (attempts + 1) } hv)
      fun intent v hv => ?_
    obtain ⟨hhere, hown, hsize⟩ := hv
    refine Safe.seq (safe_save { row with work := .encrypt captured (attempts + 1) } hhere hpending
      (by decide : (2 : Nat) < 4) (Nat.le_succ 1) fun found hfound => ?_) fun _ v hv => ?_
    · obtain rfl := Option.some.inj hfound
      exact .inr ⟨Nat.le_refl 2, rfl, hown, hsize⟩
    · exact safe_uploadPhase hid hv hpending hown

theorem safe_capturePhase {attempts : Nat} (hhere : Here row w)
    (hwork : row.work = .capture attempts) (hpending : row.state = .pending) :
    Safe (ledger admission) (.backup row.id) (Told Anyhow (Aborted row.id))
      (capturePhase config row attempts) w := by
  rw [capturePhase]
  split
  · exact safe_blockBackup (hhere.pending hpending)
  · refine Safe.seq (safe_authorizedWork row hhere hpending (by decide : (0 : Nat) < 2)
      (by rw [hwork]; exact Nat.le_refl 0)) fun _ v hv => ?_
    have hsteady := steady_work row (.capture (attempts + 1))
    refine Safe.seq ((quiet_aborted hsteady).ask rfl hv) fun _ v hv => ?_
    refine Safe.seq ((quiet_aborted hsteady).asks rfl hv) fun reply v hv => ?_
    refine Safe.seq ((quiet_aborted hsteady).thrown hv) fun state v hv => ?_
    refine Safe.seq (Q := fun _ => Here { row with work := .capture (attempts + 1) }) ?_
      fun captured v hv => ?_
    · cases capturedState state with
      | none => exact aborted_fault
      | some captured => exact hv
    · refine Safe.seq ((quiet_aborted hsteady).refuseIf hv) fun _ v hv => ?_
      refine Safe.seq (safe_save { row with work := .capture (attempts + 1) } hv hpending
        (by decide : (1 : Nat) < 4) (Nat.zero_le 1) (by rintro _ ⟨⟩)) fun _ v hv => ?_
      exact safe_encryptPhase rfl rfl hv hpending

/-! ## Ticks -/

theorem safe_carryOn (hsound : RowSound admission row) (hrow : getBackup w.store row.id = some row)
    (hopen : row.state.isOpen = true) :
    Safe (ledger admission) (.backup row.id) (Told Anyhow (Aborted row.id)) (carryOn config row)
      w := by
  have hearly : row.work.rank < 4 → row.state = .pending := by
    intro hearly
    rcases fits_early hsound.fits hearly with hpending | hblocked
    · exact hpending
    · cases hstate : row.state <;> simp_all [BackupState.isOpen, BackupState.isBlocked]
  have hhere : row.work.rank < 4 → Here row w := fun hlow =>
    ⟨hrow, by rw [hearly hlow]; rfl⟩
  rw [carryOn]
  cases hwork : row.work with
  | capture attempts =>
    have hlow : row.work.rank < 4 := by rw [hwork]; exact (by decide : (0 : Nat) < 4)
    exact safe_capturePhase (hhere hlow) hwork (hearly hlow)
  | encrypt captured attempts =>
    have hlow : row.work.rank < 4 := by rw [hwork]; exact (by decide : (1 : Nat) < 4)
    have hhere := hhere hlow
    have hsame : { row with work := .encrypt captured attempts } = row := by rw [← hwork]
    exact safe_encryptPhase rfl rfl (hsame ▸ hhere) (hearly hlow)
  | uploadReady parts =>
    have hlow : row.work.rank < 4 := by rw [hwork]; exact (by decide : (2 : Nat) < 4)
    have hhere := hhere hlow
    have hsame : { row with work := .uploadReady parts } = row := by rw [← hwork]
    have hown := (hsound.bounded parts (by rw [hwork]; rfl)).1
    exact safe_uploadPhase rfl (hsame ▸ hhere) (hearly hlow) hown
  | uploadSubmitted parts attempts =>
    have hlow : row.work.rank < 4 := by rw [hwork]; exact (by decide : (3 : Nat) < 4)
    exact safe_recoverPhase (hhere hlow) hwork (hearly hlow)
  | stored parts receipt cleaned attempts =>
    refine safe_cleanupPhase rfl ⟨row, hrow, hwork, ?_⟩
    cases hstate : row.state <;> simp_all [BackupState.isOpen, BackupState.isPurged]

theorem safe_readBackup {Q : Option BackupRow → World interface → Prop}
    (h : ∀ v, Valid admission v → Q (getBackup v.store id) v) :
    Safe (ledger admission) (.backup id) (Told Q E) (readBackup id) w :=
  safe_read Steady.trivial trivial fun v _ hvalid => h v hvalid

theorem safe_advanceCapture :
    Safe (ledger admission) (.backup id) (Told Anyhow (Aborted id)) (advanceCapture config id)
      w := by
  have hread : Safe (ledger admission) (.backup id)
      (Told (fun got v => got = getBackup v.store id ∧ Valid admission v) (Aborted id))
      (readBackup id) w := safe_readBackup fun v hvalid => ⟨rfl, hvalid⟩
  refine Safe.seq hread fun got v hv => ?_
  obtain ⟨hgot, hvalid⟩ := hv
  cases got with
  | none => exact Safe.ends trivial
  | some row =>
    obtain rfl : row.id = id := Table.get_key hgot.symm
    simp only
    split
    · next hopen =>
      exact safe_carryOn (hvalid.sound.rows row (Table.get_mem hgot.symm)) hgot.symm hopen
    · exact Safe.ends trivial

theorem safe_tidyBackup :
    Safe (ledger admission) (.backup id) (Told Anyhow fun _ _ => True) (tidyBackup id) w := by
  refine Safe.seq (Q := fun _ _ => True) (safe_readBackup fun _ _ => trivial) fun row v _ => ?_
  split
  · exact (quiet Steady.trivial fun _ _ _ => trivial).ask rfl trivial
  · exact Safe.ends trivial

/-- A tick of a capture.  Where its credential is gone, it found the backup pending, and blocks
    it. -/
theorem safe_advanceBackupTick :
    Safe (ledger admission) (.backup id) (Told Anyhow fun _ _ => True)
      (advanceBackupTick config id) w := by
  have hwork : Safe (ledger admission) (.backup id) (Told Anyhow fun _ _ => True)
      (onAuthority (advanceCapture config id) (blockBackup id revokedReason)) w := by
    refine Safe.handle safe_advanceCapture fun fault v hfault => ?_
    cases fault with
    | authority => exact safe_blockBackup (hfault rfl)
    | fault f => trivial
  exact Safe.ensure hwork fun _ => safe_tidyBackup

/-! ## Operator recovery -/

/-- The recovery checks in its transaction what it had read, and a receipt that it found is one of
    the submitted intent. -/
theorem safe_resolveUpload {parts : Sealed} {attempts : Nat} {receipt : Receipt}
    (hwork : row.work = .uploadSubmitted parts attempts) (hcan : row.state.canResolve = true)
    (hreceives : receipt.intent = parts.intent) :
    Safe (ledger admission) (.backup row.id) (Told Anyhow fun _ _ => True)
      (Prog.transact (S := interface) (resolveUpload row parts receipt)) w := by
  refine Safe.transact fun v _ hvalid env => ⟨fun _ _ => trivial, fun a s hok => ⟨?_, trivial⟩⟩
  simp only [resolveUpload, bind_ok_iff, pure_ok_iff, Prod.mk.injEq, lift_ok_iff, present_ok_iff,
    refuse_ok_iff] at hok
  obtain ⟨_, -, current, hcurrent, _, hsame, -, rfl⟩ := hok
  rw [not_or, not_not, not_not] at hsame
  obtain ⟨hstate, hcurrentWork⟩ := hsame
  have hid : current.id = row.id := Table.get_key hcurrent
  have hwaiting : current.state = .pending ∨ current.state.isBlocked = true := by
    rw [hstate]
    cases hrow : row.state <;> simp_all [BackupState.canResolve, BackupState.isBlocked]
  have hmoves : Moves (.backup current.id) current
      { current with
        work := .stored parts receipt false 0
        state := .captured receipt.intent.digests.size parts.capture.manifest.capturedAt
          .captured parts.capture.manifest
        reservedBytes := receipt.intent.digests.size } :=
    .stored parts attempts receipt rfl (hcurrentWork.trans hwork) hwaiting hreceives
  obtain ⟨hchanges, -⟩ := changes_row (f := fun row => { row with
      work := .stored parts receipt false 0
      state := .captured receipt.intent.digests.size parts.capture.manifest.capturedAt
        .captured parts.capture.manifest
      reservedBytes := receipt.intent.digests.size }) (hid ▸ hcurrent) (fun _ => rfl) hmoves
  rw [hid] at hchanges
  exact .write _ hchanges

theorem safe_applyRecovery {expected : ReceiptIdentity} :
    Safe (ledger admission) (.backup id) (Told Anyhow fun _ _ => True)
      (applyRecovery config id expected) w := by
  have hread : Safe (ledger admission) (.backup id)
      (Told (fun got v => got = getBackup v.store id) fun _ _ => True) (readBackup id) w :=
    safe_readBackup fun _ _ => rfl
  refine Safe.seq hread fun got v hgot => ?_
  cases got with
  | none => trivial
  | some row =>
    obtain rfl : row.id = id := Table.get_key hgot.symm
    simp only
    split
    · trivial
    · split
      · next parts attempts hwork =>
        split
        · next hcan =>
          have hquiet : Quiet (ledger admission) (.backup row.id) (fun _ => True) fun _ _ => True :=
            quiet Steady.trivial fun _ _ _ => trivial
          refine Safe.seq (safe_recover hquiet trivial) fun resolution v hv => ?_
          cases resolution with
          | none => trivial
          | some receipt => exact safe_resolveUpload hwork hcan (hv.1 receipt rfl)
        · trivial
      · split
        · exact Safe.ends trivial
        · trivial

end AgentCloud.Backups.Recording
