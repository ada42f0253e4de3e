/-
  THE STORAGE SYSTEM: the backup system of one configuration, whose files keep what was written.

  It is the system of `AtMostOnce` with one admission configuration for the whole run, with machines
  that go forward, and with a scratch directory that returns the archive that was written to it.  So
  what holds of every run there holds here (`storage_reach`), and every run here keeps the ledger.
-/
import AgentCloud.Backups.Admitting
import AgentCloud.Backups.AtMostOnce

namespace AgentCloud.Backups

open Checked Durable

variable {admission : AdmissionConfig} {k : Slot} {p : Program Unit} {w w' start : World interface}
  {c c' : Config interface Slot}

inductive Storing (admission : AdmissionConfig) : Slot → Program Unit → Prop where
  | advanceBackup (config : BackupConfig) (id : BackupId) :
      Storing admission (.backup id) (advanceBackupTick config id)
  | advanceRestore (config : BackupConfig) (id : RestoreId) :
      Storing admission (.restore id) (advanceRestoreTick config id)
  | applyRecovery (config : BackupConfig) (id : BackupId) (expected : ReceiptIdentity) :
      Storing admission (.backup id) (applyRecovery config id expected)
  | capture (n : Nat) (principal : Principal) (machineId : MachineId) (id : BackupId)
      (recipe : Recipe) : Storing admission (.caller n)
        (Prog.transact (captureInTransaction admission principal machineId id recipe))
  | restore (n : Nat) (principal : Principal) (id : RestoreId) (backupId : BackupId) (app : String)
      (machineId : MachineId) (allocationId : AllocationId) (operationId : OperationId) :
      Storing admission (.caller n) (Prog.transact
        (restoreInTransaction principal id backupId app machineId allocationId operationId))
  | requestPurge (n : Nat) (principal : Principal) (id : BackupId) (purgeId : PurgeId) :
      Storing admission (.caller n) (Prog.transact (requestPurge principal id purgeId))
  | prune (n maxObjects maxRunSeconds : Nat) :
      Storing admission (.caller n) (pruneScheduled maxObjects maxRunSeconds)
  | advancePurge (config : StoreConfig) (id : BackupId) (purgeId : PurgeId) :
      Storing admission (.backup id) (advancePurge config id purgeId)
  | createSchedule (n : Nat) (principal : Principal) (machineId : MachineId) (id : ScheduleId)
      (recipe : Recipe) : Storing admission (.caller n)
        (Prog.transact (createSchedule principal machineId id recipe))
  | disableSchedule (n : Nat) (principal : Principal) (id : ScheduleId) :
      Storing admission (.caller n) (Prog.transact (disableSchedule principal id))
  | advanceSchedule (n : Nat) (id : ScheduleId) :
      Storing admission (.caller n) (Prog.transact (advanceSchedule admission id))
  | reconcileSchedules (n : Nat) :
      Storing admission (.caller n) (reconcileSchedules admission)

def storage (admission : AdmissionConfig) : System interface Slot where
  job := Storing admission
  other w w' := ∃ machines, MachinesMove w.store.machines machines ∧
    w' = w.put { w.store with machines }
  allows := FilesKept

/-! ## The discipline of the submissions -/

theorem Storing.job (h : Storing admission k p) : Job k p := by
  cases h with
  | advanceBackup config id => exact .advanceBackup config id
  | advanceRestore config id => exact .advanceRestore config id
  | applyRecovery config id expected => exact .applyRecovery config id expected
  | capture n principal machineId id recipe => exact .capture n admission principal machineId id recipe
  | restore n principal id backupId app machineId allocationId operationId =>
    exact .restore n principal id backupId app machineId allocationId operationId
  | requestPurge n principal id purgeId => exact .requestPurge n principal id purgeId
  | prune n maxObjects maxRunSeconds => exact .prune n maxObjects maxRunSeconds
  | advancePurge config id purgeId => exact .advancePurge config id purgeId
  | createSchedule n principal machineId id recipe =>
    exact .createSchedule n principal machineId id recipe
  | disableSchedule n principal id => exact .disableSchedule n principal id
  | advanceSchedule n id => exact .advanceSchedule n admission id
  | reconcileSchedules n => exact .reconcileSchedules n admission

/-- A run of the storage system is a run of the backup system. -/
theorem storage_reach (h : (storage admission).Reach c c') : system.Reach c c' := by
  refine Relation.ReflTransGen.mono (fun _ _ hstep => ?_) _ _ h
  refine hstep.mono (fun _ _ hjob => hjob.job) ?_ fun _ _ _ _ => trivial
  rintro w w' ⟨machines, -, rfl⟩
  exact ⟨machines, rfl⟩

/-! ## The discipline of the ledger -/

theorem valid_machines {machines : List TargetMachine} (hw : Valid admission w) :
    Valid admission (w.put { w.store with machines }) :=
  ⟨⟨hw.sound.backups, hw.sound.restores, hw.sound.purges, hw.sound.schedules, hw.sound.rows⟩,
    hw.recorded, hw.held⟩

theorem ledger_discipline : Discipline (storage admission) (ledger admission) where
  job_safe {k p w} hjob _ := by
    have hdone : ∀ {p : Program Unit}, Safe (ledger admission) k (Ends Anyhow) p w →
        Safe (ledger admission) k (fun _ _ => True) p w := fun h => h.mono fun _ _ _ => trivial
    apply hdone
    cases hjob with
    | advanceBackup config id => exact Recording.safe_advanceBackupTick
    | advanceRestore config id => exact Admitting.safe_advanceRestoreTick
    | applyRecovery config id expected => exact Recording.safe_applyRecovery
    | capture n principal machineId id recipe =>
      exact Admitting.safe_any fun _ _ _ _ hok => Admitting.changes_captureInTransaction hok
    | restore n principal id backupId app machineId allocationId operationId =>
      exact Admitting.safe_any fun _ _ _ _ hok => Admitting.changes_restoreInTransaction hok
    | requestPurge n principal id purgeId =>
      exact Admitting.safe_any fun _ _ _ _ hok => Admitting.changes_requestPurge hok
    | prune n maxObjects maxRunSeconds => exact Admitting.safe_pruneScheduled
    | advancePurge config id purgeId => exact Purging.safe_advancePurge
    | createSchedule n principal machineId id recipe =>
      exact Admitting.safe_any fun _ _ _ _ hok => Admitting.changes_createSchedule hok
    | disableSchedule n principal id =>
      exact Admitting.safe_any fun _ _ _ _ hok => Admitting.changes_disableSchedule hok
    | advanceSchedule n id =>
      exact Admitting.safe_any fun _ _ _ _ hok => Admitting.changes_advanceSchedule hok
    | reconcileSchedules n => exact Admitting.safe_reconcileSchedules
  other_valid := by
    rintro w w' hw ⟨machines, -, rfl⟩
    exact valid_machines hw
  other_rely := by
    rintro k w w' hw ⟨machines, -, rfl⟩
    cases k with
    | backup id => exact ⟨fun row h => ⟨row, h, .refl row⟩, ⟨[], by simp, fun _ h => nomatch h⟩,
        fun _ h _ => h⟩
    | restore id => trivial
    | caller n => trivial
  allows _ h := h

/-! ## Runs from the beginning -/

/-- No row was written, and nothing was asked for. -/
structure Opened (w : World interface) : Prop where
  backups : w.store.backups = []
  restores : w.store.restores = []
  purges : w.store.purges = []
  schedules : w.store.schedules = []
  runs : w.store.runs = []
  log : w.log = []

theorem Opened.valid (h : Opened start) : Valid admission start := by
  refine ⟨⟨?_, ?_, ?_, ?_, ?_⟩, fun exchange hm => ?_, fun id => .inl ?_⟩
  · exact h.backups ▸ Table.Keyed.nil
  · exact h.restores ▸ Table.Keyed.nil
  · exact h.purges ▸ Table.Keyed.nil
  · exact h.schedules ▸ Table.Keyed.nil
  · simp [h.backups]
  · simp [h.log] at hm
  · rw [h.log]
    rfl

theorem Opened.submissions_valid (h : Opened start) : submissions.Valid start where
  inv id row hrow := by simp [getBackup, h.backups] at hrow
  once x := by simp [Marks.count, h.log]
  marked exchange hm := by simp [h.log] at hm

/-- Both disciplines: what the ledger records, and the phases of the submissions. -/
abbrev keeping (admission : AdmissionConfig) : Contract interface Slot :=
  (ledger admission).both submissions.contract

theorem storage_discipline : Discipline (storage admission) (keeping admission) := by
  refine ledger_discipline.both (backup_discipline.mono (fun _ _ hjob => hjob.job) ?_
    fun _ _ _ _ => trivial)
  rintro w w' ⟨machines, -, rfl⟩
  exact ⟨machines, rfl⟩

theorem Opened.idle (h : Opened start) : Discipline.InOrder (keeping admission) (.idle start) :=
  Discipline.inOrder_idle ⟨h.valid, h.submissions_valid⟩

theorem inOrder_storage (hstart : Opened start)
    (hreach : (storage admission).Reach (.idle start) c) :
    Discipline.InOrder (keeping admission) c := storage_discipline.inOrder hstart.idle hreach

/-- A transaction writes what the submissions allow. -/
theorem writes_of_does {s : Store} (h : submissions.Does k w (w.put s)) : Writes k w.store s := by
  generalize hw' : w.put s = w' at h
  have hstore : s = w'.store := congrArg World.store hw'
  cases h with
  | write s' h => exact hstore ▸ h
  | quiet | effect => exact hstore ▸ Writes.refl k w.store

/-- **Run lemma.**  What every change of the tables and every call keeps, every run keeps. -/
theorem storage_invariant {P : World interface → Prop}
    (hchange : ∀ {k w s}, Valid admission w → P w → Change admission w.log k w.store s →
      Writes k w.store s → P (w.put s))
    (hcall : ∀ {w} {q : Call} {r : q.Reply}, Valid admission w → P w → q.ready w →
      P (w.exchange q r))
    (hmachines : ∀ {w machines}, P w → MachinesMove w.store.machines machines →
      P (w.put { w.store with machines }))
    (hin : Discipline.InOrder (keeping admission) c) (hP : P c.world)
    (hreach : (storage admission).Reach c c') : P c'.world := by
  refine storage_discipline.invariant (fun {k w w'} hw hPw hdoes => ?_) ?_ hin hP hreach
  · obtain ⟨hledger, hsubmissions⟩ := hdoes
    cases hledger with
    | write store h =>
      cases h with
      | refl => exact hPw
      | single hone => exact hchange hw.1 hPw hone (writes_of_does hsubmissions)
    | quiet q r quiet =>
      refine hcall hw.1 hPw ?_
      cases q <;> first | exact trivial | cases quiet
    | act q r id about own ready => exact hcall hw.1 hPw ready
  · rintro w w' - hPw ⟨machines, hmove, rfl⟩
    exact hmachines hPw hmove

/-! ## A backup that is stored and purged -/

namespace Kept

def policy : GrantPolicy :=
  { Demo.policy with capabilities := [.backupCreate, .backupRestore, .backupPurge] }

def principal : Principal := ⟨"acct", "root", policy⟩

/-- The transactions at a time. -/
def env (now : Instant) (uuid : String) : Env :=
  { now
    uuid
    accounts := ["acct"]
    grants := [⟨"root", "acct", none, policy, 100000000000, none⟩]
    operations := [("op", .succeeded)] }

/-- Files keep what was written to them. -/
def hashed (log : Log) (id : BackupId) : Except Fault Digests :=
  match lastEncryption log id with
  | some encryption => .ok ⟨encryption.ciphertextBytes, "cipher", "md5"⟩
  | none => .error (.other "ENOENT")

/-- The head of a stored version. -/
def headOf (intent : Intent) (versionId : String) : Head :=
  ⟨versionId, intent.digests.size, some (metadata intent), false⟩

/-- What was put under a key. -/
def stored (log : Log) (key : String) : Option Intent :=
  log.findSome? fun exchange => match exchange.call with
    | .putObject intent => if intent.key = key then some intent else none
    | _ => none

/-- A version is there until it is deleted. -/
def probed (log : Log) (receipt : Receipt) : Option Head :=
  if log.any fun exchange => match exchange.call with
    | .deleteVersion other => decide (other = receipt)
    | _ => false
  then none else some (headOf receipt.intent receipt.versionId)

/-- An object store and a guest that do what they are asked for. -/
def reply (now : Instant) : World interface → (c : Call) → c.Reply
  | _, .localClock => now
  | w, .hashFile id => hashed w.log id
  | _, .captureGuest request => .ok (.captured ⟨request.id, ⟨request.recipe, now⟩, 10, "plain"⟩)
  | w, .headObject key versionId => match stored w.log key with
    | some intent => .ok (headOf intent versionId)
    | none => .error (.other "NotFound")
  | _, .getObject receipt => .ok (headOf receipt.intent receipt.versionId)
  | w, .probeVersion receipt => .ok (probed w.log receipt)
  | w, c => Demo.reply w c

theorem reply_kept (now : Instant) (w : World interface) (c : Call) :
    FilesKept w c (reply now w c) := by
  cases c with
  | hashFile id =>
    simp only [reply, hashed]
    split
    · next encryption hlast => exact ⟨encryption, hlast, rfl⟩
    · trivial
  | _ => trivial

def run (now : Instant) (uuid : String) (p : Program Unit) (w : World interface) :
    World interface :=
  (p.run (fun _ => env now uuid) (reply now) w).2

def allowance : AdmissionConfig := ⟨Demo.limits, 1000, 1000, 1⟩

theorem reach_run {k : Slot} {p : Program Unit} (h : Storing allowance k p) (now : Instant)
    (uuid : String) (w : World interface) :
    (storage allowance).Reach (.idle w) (.idle (run now uuid p w)) :=
  System.reach_job _ k _ (reply now) (reply_kept now) p w h

def capture : Program Unit :=
  Prog.transact (captureInTransaction allowance principal "mach" "bak" Demo.recipe)

def purge : Program Unit := Prog.transact (requestPurge principal "bak" "pur")

theorem opened : Opened Demo.start := ⟨rfl, rfl, rfl, rfl, rfl, rfl⟩

def admitted : World interface := run 1000 "uuid" capture Demo.start
def uploaded : World interface := run 1000 "uuid" (advanceBackupTick Demo.config "bak") admitted
def requested : World interface := run 2000 "uuid" purge uploaded

def purged : World interface :=
  run 90000000 "uuid" (advancePurge Demo.config.store "bak" "pur") requested

theorem purged_reachable : (storage allowance).Reach (.idle Demo.start) (.idle purged) := by
  have h₁ := reach_run (.capture 0 principal "mach" "bak" Demo.recipe) 1000 "uuid" Demo.start
  have h₂ := reach_run (.advanceBackup Demo.config "bak") 1000 "uuid" admitted
  have h₃ := reach_run (.requestPurge 0 principal "bak" "pur") 2000 "uuid" uploaded
  have h₄ := reach_run (.advancePurge Demo.config.store "bak" "pur") 90000000 "uuid" requested
  exact ((h₁.trans h₂).trans h₃).trans h₄

/-! ### A daily schedule -/

def schedule : Program Unit :=
  Prog.transact (createSchedule principal "mach" "sched" Demo.recipe)

def scheduled : World interface := run 1000 "uuid" schedule Demo.start

/-- Each day a tick of the schedule, and one of the capture that it admits. -/
def daily : List (Nat × BackupId) → World interface → World interface
  | [], w => w
  | (day, id) :: rest, w =>
    daily rest (run (day * dayMs + 1000) id (advanceBackupTick Demo.config id)
      (run (day * dayMs + 1000) id (Prog.transact (advanceSchedule allowance "sched")) w))

def week : List (Nat × BackupId) :=
  [(0, "b0"), (1, "b1"), (2, "b2"), (3, "b3"), (4, "b4"), (5, "b5"), (6, "b6"), (7, "b7")]

theorem daily_run (days : List (Nat × BackupId)) (w : World interface) :
    (storage allowance).Reach (.idle w) (.idle (daily days w)) := by
  induction days generalizing w with
  | nil => exact .refl
  | cons first rest ih =>
    obtain ⟨day, id⟩ := first
    have hadmitted := reach_run (.advanceSchedule 0 "sched") (day * dayMs + 1000) id w
    have htick := reach_run (.advanceBackup Demo.config id) (day * dayMs + 1000) id
      (run (day * dayMs + 1000) id (Prog.transact (advanceSchedule allowance "sched")) w)
    have hday := hadmitted.trans htick
    exact hday.trans (ih _)

theorem scheduled_reachable : (storage allowance).Reach (.idle Demo.start) (.idle scheduled) :=
  reach_run (.createSchedule 0 principal "mach" "sched" Demo.recipe) 1000 "uuid" Demo.start

end Kept

end AgentCloud.Backups
