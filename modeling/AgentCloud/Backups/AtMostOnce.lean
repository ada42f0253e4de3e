/-
  AT MOST ONE PUT, AT MOST ONE STREAM: what the backup system does in any run.

  `Job` lists the programs: a tick of a backup or a restore in the slot of its row, and the recovery
  of an upload and a purge in the slot of their backup, since all take the worker lock; admissions in
  any number of callers.  The configuration is an argument of each job, so that it may change
  between two of them.  Grants, operations and clocks are read from an environment that is chosen
  anew for every transaction: a credential may be revoked between any two of them.
-/
import AgentCloud.Backups.Callers

namespace AgentCloud.Backups

open Checked Durable

inductive Job : Slot → Program Unit → Prop where
  | advanceBackup (config : BackupConfig) (id : BackupId) :
      Job (.backup id) (advanceBackupTick config id)
  | advanceRestore (config : BackupConfig) (id : RestoreId) :
      Job (.restore id) (advanceRestoreTick config id)
  | applyRecovery (config : BackupConfig) (id : BackupId) (expected : ReceiptIdentity) :
      Job (.backup id) (applyRecovery config id expected)
  | capture (n : Nat) (config : AdmissionConfig) (principal : Principal) (machineId : MachineId)
      (id : BackupId) (recipe : Recipe) :
      Job (.caller n) (Prog.transact (captureInTransaction config principal machineId id recipe))
  | restore (n : Nat) (principal : Principal) (id : RestoreId) (backupId : BackupId) (app : String)
      (machineId : MachineId) (allocationId : AllocationId) (operationId : OperationId) :
      Job (.caller n) (Prog.transact
        (restoreInTransaction principal id backupId app machineId allocationId operationId))
  | requestPurge (n : Nat) (principal : Principal) (id : BackupId) (purgeId : PurgeId) :
      Job (.caller n) (Prog.transact (requestPurge principal id purgeId))
  | prune (n maxObjects maxRunSeconds : Nat) :
      Job (.caller n) (pruneScheduled maxObjects maxRunSeconds)
  | advancePurge (config : StoreConfig) (id : BackupId) (purgeId : PurgeId) :
      Job (.backup id) (advancePurge config id purgeId)
  | createSchedule (n : Nat) (principal : Principal) (machineId : MachineId) (id : ScheduleId)
      (recipe : Recipe) :
      Job (.caller n) (Prog.transact (createSchedule principal machineId id recipe))
  | disableSchedule (n : Nat) (principal : Principal) (id : ScheduleId) :
      Job (.caller n) (Prog.transact (disableSchedule principal id))
  | advanceSchedule (n : Nat) (config : AdmissionConfig) (id : ScheduleId) :
      Job (.caller n) (Prog.transact (advanceSchedule config id))
  | reconcileSchedules (n : Nat) (config : AdmissionConfig) :
      Job (.caller n) (reconcileSchedules config)

/-- Any replies, and nobody else writes these tables, but the machines. -/
def system : System interface Slot where
  job := Job
  other w w' := ∃ machines, w' = w.put { w.store with machines }
  allows _ _ _ := True

theorem backup_discipline : Discipline system submissions.contract where
  job_safe {k p w} hjob _ := by
    have hdone : ∀ {p : Program Unit}, Safe submissions.contract k (Ends Anyhow) p w →
        Safe submissions.contract k (fun _ _ => True) p w := fun h => h.mono fun _ _ _ => trivial
    apply hdone
    cases hjob with
    | advanceBackup config id => exact safe_advanceBackupTick
    | advanceRestore config id => exact safe_advanceRestoreTick
    | applyRecovery config id expected => exact safe_applyRecovery
    | capture n config principal machineId id recipe =>
      exact safe_record fun _ _ _ hok => writes_captureInTransaction hok
    | restore n principal id backupId app machineId allocationId operationId =>
      exact safe_record fun _ _ _ hok => writes_restoreInTransaction hok
    | requestPurge n principal id purgeId =>
      exact safe_record fun _ _ _ hok => writes_requestPurge hok
    | prune n maxObjects maxRunSeconds => exact safe_pruneScheduled
    | advancePurge config id purgeId => exact safe_advancePurge
    | createSchedule n principal machineId id recipe =>
      exact safe_record fun _ _ _ hok => writes_createSchedule hok
    | disableSchedule n principal id =>
      exact safe_record fun _ _ _ hok => writes_disableSchedule hok
    | advanceSchedule n config id =>
      exact safe_record fun _ _ _ hok => writes_advanceSchedule hok
    | reconcileSchedules n config => exact safe_reconcileSchedules
  other_valid := by
    rintro w w' hw ⟨machines, rfl⟩
    exact ⟨hw.inv, hw.once, hw.marked⟩
  other_rely := by
    rintro k w w' hw ⟨machines, rfl⟩
    exact ⟨Sees.refl _ _, fun _ _ => rfl⟩
  allows _ _ := trivial

/-! ## Runs -/

/-- The PUTs of a backup. -/
def puts (log : List (Exchange interface)) (id : BackupId) : Nat :=
  log.countP fun exchange => exchange.call.effect = some (.put id)

/-- The streams of a restore. -/
def streams (log : List (Exchange interface)) (id : RestoreId) : Nat :=
  log.countP fun exchange => exchange.call.effect = some (.stream id)

/-- A phase never leads back. -/
def PhasesForward (old new : Store) : Prop :=
  (∀ id row, getBackup old id = some row →
    ∃ row', getBackup new id = some row' ∧ row.work.rank ≤ row'.work.rank) ∧
  (∀ id row, getRestore old id = some row →
    ∃ row', getRestore new id = some row' ∧ row.work.rank ≤ row'.work.rank)

theorem PhasesForward.refl (store : Store) : PhasesForward store store :=
  ⟨fun _ row h => ⟨row, h, Nat.le_refl _⟩, fun _ row h => ⟨row, h, Nat.le_refl _⟩⟩

theorem PhasesForward.trans {a b c : Store} (h : PhasesForward a b) (h' : PhasesForward b c) :
    PhasesForward a c := by
  refine ⟨fun id row hrow => ?_, fun id row hrow => ?_⟩
  · obtain ⟨mid, hmid, hle⟩ := h.1 id row hrow
    obtain ⟨last, hlast, hle'⟩ := h'.1 id mid hmid
    exact ⟨last, hlast, Nat.le_trans hle hle'⟩
  · obtain ⟨mid, hmid, hle⟩ := h.2 id row hrow
    obtain ⟨last, hlast, hle'⟩ := h'.2 id mid hmid
    exact ⟨last, hlast, Nat.le_trans hle hle'⟩

theorem Writes.phasesForward {k : Slot} {store store' : Store} (h : Writes k store store') :
    PhasesForward store store' := by
  refine ⟨fun id row hrow => ?_, fun id row hrow => ?_⟩
  · obtain ⟨row', hrow', hstep⟩ := h.backups id row hrow
    exact ⟨row', hrow', hstep.forward⟩
  · obtain ⟨row', hrow', hstep⟩ := h.restores id row hrow
    exact ⟨row', hrow', hstep.forward⟩

/-- The machines are not a phase, and no call. -/
theorem other_phasesForward {v v' : World interface} (h : system.other v v') :
    PhasesForward v.store v'.store := by
  obtain ⟨machines, rfl⟩ := h
  exact PhasesForward.refl v.store

theorem other_log {v v' : World interface} (h : system.other v v') : v'.log = v.log := by
  obtain ⟨machines, rfl⟩ := h
  rfl

/-- **Run lemma.** In every run, each phase goes forward. -/
theorem phases_run {c c' : Config interface Slot} (hc : Discipline.InOrder submissions.contract c)
    (hreach : system.Reach c c') : PhasesForward c.world.store c'.world.store :=
  Marks.store_transition backup_discipline (fun hother => other_phasesForward hother)
    PhasesForward.refl PhasesForward.trans Writes.phasesForward hc hreach

/-- **Backup effects at most once.**  In every run from a valid world, with a death after any
    action: each backup's object is put at most once and each restore's archive is streamed at most
    once; the PUT is asked for exactly when `upload_submitted` of this very intent is committed and
    no PUT was asked for, and the stream likewise; and from a committed submission nothing leads back
    to a phase that would submit again. -/
theorem backup_effects_once {start : World interface} (hstart : submissions.Valid start)
    {c : Config interface Slot} (hreach : system.Reach (.idle start) c) :
    (∀ id, puts c.world.log id ≤ 1) ∧
    (∀ id, streams c.world.log id ≤ 1) ∧
    (∀ c' intent r, system.Step c c' →
      c'.world.log = c.world.log ++ [⟨.putObject intent, r⟩] →
      puts c.world.log intent.attemptId = 0 ∧
      ∃ row parts, getBackup c.world.store intent.attemptId = some row ∧
        row.work = .uploadSubmitted parts 0 ∧ parts.intent = intent) ∧
    (∀ c' request r, system.Step c c' →
      c'.world.log = c.world.log ++ [⟨.streamRestore request, r⟩] →
      streams c.world.log request.id = 0 ∧
      ∃ row, getRestore c.world.store request.id = some row ∧ row.work = .submitted 0) ∧
    (∀ c', system.Reach c c' → PhasesForward c.world.store c'.world.store) := by
  have hin : Discipline.InOrder submissions.contract c :=
    backup_discipline.inOrder (Discipline.inOrder_idle hstart) hreach
  refine ⟨fun id => hin.1.once (.put id), fun id => hin.1.once (.stream id), ?_, ?_,
    fun c' hlater => phases_run hin hlater⟩
  · intro c' intent r hstep hlog
    have hx : submissions.effect (.putObject intent) = some (.put intent.attemptId) := rfl
    obtain ⟨hfirst, -, hready⟩ :=
      Marks.marked_first backup_discipline other_log hin hstep hx hlog
    exact ⟨hfirst, hready⟩
  · intro c' request r hstep hlog
    have hx : submissions.effect (.streamRestore request) = some (.stream request.id) := rfl
    obtain ⟨hfirst, -, hready⟩ :=
      Marks.marked_first backup_discipline other_log hin hstep hx hlog
    exact ⟨hfirst, hready⟩

/-! ## A backup that is captured, uploaded and restored -/

namespace Demo

def policy : GrantPolicy :=
  { capabilities := [.backupCreate, .backupRestore]
    projects := .all
    sizes := [.small]
    regions := [.nbg1]
    maxMachines := 2
    currency := "EUR"
    maxHourlyMicros := 1000 }

def principal : Principal := ⟨"acct", "root", policy⟩

def guest (allocationId : AllocationId) : MachineState :=
  .allocated allocationId "srv" .running (.ssh 0 "v1" "m0" "boot") .unknown

def env : Env :=
  { now := 1000
    uuid := "uuid"
    accounts := ["acct"]
    grants := [⟨"root", "acct", none, policy, 10000000, none⟩]
    operations := [("op", .succeeded)] }

def limits : Limits := ⟨100, 60⟩
def config : BackupConfig := ⟨⟨"store", "bucket", "backups", 1000⟩, .governance, limits⟩
def recipe : Recipe := ⟨"app", "rel", "web", "db", "user", ["data"]⟩
def captured : Capture := ⟨"bak", ⟨recipe, 900⟩, 10, "plain"⟩
def digests : Digests := ⟨12, "cipher", "md5"⟩

def intent : Intent :=
  ⟨"store", "bucket", "backups/bak.enc", "bak", digests, ⟨.governance, 86401000⟩⟩

def head : Head := ⟨"v1", 12, some (metadata intent), false⟩

def reply : World interface → (c : Call) → c.Reply
  | _, .openGuest .. => .ok ()
  | _, .captureGuest _ => .ok (.captured captured)
  | _, .readAndEncrypt .. => .ok ⟨10, "plain", 12, "envelope"⟩
  | _, .removeGuest _ => .ok ()
  | _, .scratch _ => .ok ()
  | _, .requireScratchSpace _ => .ok ()
  | _, .cleanupScratch _ => .ok ()
  | _, .keyring => .ok "keyring"
  | _, .verifyKey _ => .ok true
  | _, .localClock => (1000 : Nat)
  | _, .hashFile _ => .ok digests
  | _, .alreadySubmitted _ => false
  | _, .checkProtection => .ok ()
  | _, .putObject _ => .ok "v1"
  | _, .headObject .. => .ok head
  | _, .getObject _ => .ok head
  | _, .getRetention receipt => .ok receipt.intent.retention
  | _, .listVersions .. => .error (.other "not asked")
  | _, .probeVersion _ => .ok none
  | _, .deleteVersion _ => .ok ()
  | _, .downloadAndDecrypt .. => .ok ()
  | _, .spawnRestore _ => .ok ()
  | _, .streamRestore request => .ok (.restored ⟨request.id, request.app, "rel"⟩)
  | _, .inspectRestore _ => .ok none

def machines : List TargetMachine :=
  [⟨"mach", "acct", "proj", guest "alloc_1"⟩, ⟨"target", "acct", "proj", guest "alloc_2"⟩]

def start : World interface := ⟨⟨[], [], [], [], [], machines⟩, []⟩

theorem start_valid : submissions.Valid start where
  inv id row h := by cases h
  once _ := Nat.zero_le 1
  marked _ h := nomatch h

def run (p : Program Unit) (w : World interface) : World interface :=
  (p.run (fun _ => env) reply w).2

def admission : Program Unit :=
  Prog.transact (captureInTransaction ⟨limits, 1000, 1000, 1⟩ principal "mach" "bak" recipe)

def restoration : Program Unit :=
  Prog.transact (restoreInTransaction principal "res" "bak" "app" "target" "alloc_2" "op")

def admitted : World interface := run admission start
def uploaded : World interface := run (advanceBackupTick config "bak") admitted
def requested : World interface := run restoration uploaded
def restored : World interface := run (advanceRestoreTick config "res") requested

theorem restored_reachable : system.Reach (.idle start) (.idle restored) := by
  have hjob : ∀ k p w, Job k p → system.Reach (.idle w) (.idle (run p w)) :=
    fun k p w h => System.reach_job _ k _ reply (fun _ _ => trivial) p w h
  have h₁ := hjob (.caller 0) admission start (.capture ..)
  have h₂ := hjob (.backup "bak") _ admitted (.advanceBackup config "bak")
  have h₃ := hjob (.caller 0) restoration uploaded (.restore ..)
  have h₄ := hjob (.restore "res") _ requested (.advanceRestore config "res")
  exact ((h₁.trans h₂).trans h₃).trans h₄

end Demo

/-- The run puts once, streams once, and ends with a restored archive. -/
theorem backup_effects_once_demo :
    (puts Demo.restored.log "bak" = 1 ∧ streams Demo.restored.log "res" = 1 ∧
      ∀ row ∈ getRestore Demo.restored.store "res", row.state = .restored ⟨"res", "app", "rel"⟩) ∧
    puts Demo.restored.log "bak" ≤ 1 ∧ streams Demo.restored.log "res" ≤ 1 :=
  ⟨by decide +kernel,
    (backup_effects_once Demo.start_valid Demo.restored_reachable).1 "bak",
    (backup_effects_once Demo.start_valid Demo.restored_reachable).2.1 "res"⟩

end AgentCloud.Backups
