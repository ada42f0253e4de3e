/-
  RESTORE TARGETS: a restore waits for the create of its target, which has a life of its own.

  The ticks of the create run on the journal of the target, under the machine's lock; the ticks of
  the restore only read that journal, and are frozen by what they saw.  A `Joint` is both pools side
  by side: a restore's transaction runs with an environment that shows the operations of the journal
  as they are then, and the machine's row is mirrored into the table that restores read.

  `failed` and `cancelled` are final, `blocked` is not: the worker comes back to a blocked operation
  every thirty seconds, and a lost reply that was reported blocked may be confirmed later.
  `waitingPhase` takes all three for an end.
-/
import AgentCloud.Backups.AtMostOnce
import AgentCloud.Lifecycle.Names
import AgentCloud.Lib.Warrants

namespace AgentCloud.Backups

open Checked Durable

/-! ## What a restore sees of its target -/

/-- `['failed', 'cancelled', 'blocked'].includes(progress.kind)`, and `succeeded`. -/
def provisioning : Lifecycle.OperationProgress → Provisioning
  | .failed .. => .failed
  | .cancelled _ => .failed
  | .blocked _ => .failed
  | .succeeded _ => .succeeded
  | _ => .unfinished

/-- The environment shows the operations of the journal. -/
def Agrees (journal : Lifecycle.Journal) (env : Env) : Prop :=
  ∀ operation ∈ journal.operations, (env.operations.find? fun entry => entry.1 = operation.id) =
    some (operation.id, provisioning operation.progress)

/-- The reason that a restore is blocked with when its target was not provisioned. -/
def unprovisioned : String :=
  "Restore target provisioning did not succeed. Inspect its operation and cleanup obligations; the source backup is unchanged."

/-- The transaction reads the table of the operations. -/
def ReadsOperations {β : Type} (t : Env → Store → Except WorkFault (β × Store)) : Prop :=
  ∃ env operations store, t { env with operations } store ≠ t env store

/-! ## The two pools -/

/-- What the rest of the control plane does to these tables: it admits restores, and leaves the row
    of this machine alone. -/
def Besides (machineId : MachineId) (w w' : World interface) : Prop :=
  w'.log = w.log ∧ (∃ rows, w'.store.restores = w.store.restores ++ rows) ∧
    ∀ machine : TargetMachine, machine.id = machineId →
      (machine ∈ w'.store.machines ↔ machine ∈ w.store.machines)

/-- The ticks of the restores, each under its lock. -/
def ticks (machineId : MachineId) : System interface Slot where
  job k p := ∃ config id, k = .restore id ∧ p = advanceRestoreTick config id
  other := Besides machineId
  allows _ _ _ := True

structure Joint where
  machine : Lifecycle.Machine
  restores : Durable.Config interface Slot

/-- The row of the machine, in the table that restores read. -/
def mirror (machine : Lifecycle.MachineRow) (store : Store) : Store :=
  { store with
    machines := store.machines.map fun row =>
      if row.id = machine.id then { row with state := machine.state } else row }

/-- One step of either pool; `may` limits the environments in which a restore's transactions run. -/
inductive Joint.Step (offline : Bool) (may : Lifecycle.Journal → Remark interface) (c : Joint) :
    Joint → Prop where
  | machine (machine : Lifecycle.Machine)
      (h : (Lifecycle.system Lifecycle.anyReply offline).Step c.machine machine) :
      Step offline may c ⟨machine, { c.restores with
        world := c.restores.world.put
          (mirror machine.world.store.journal.machine c.restores.world.store) }⟩
  | restores (restores : Durable.Config interface Slot)
      (h : (ticks c.machine.world.store.journal.machine.id).StepIn
        (may c.machine.world.store.journal) c.restores restores) :
      Step offline may c ⟨c.machine, restores⟩

abbrev Joint.Reach (offline : Bool) (may : Lifecycle.Journal → Remark interface) :
    Joint → Joint → Prop :=
  Relation.ReflTransGen (Joint.Step offline may)

/-- The create and the restore as they were admitted, in one transaction. -/
structure AwaitsCreate (c : Joint) (id : RestoreId) (operationId : OperationId) : Prop where
  machine : ∃ w, Lifecycle.Initial w ∧ c.machine = .idle w ∧
    ∃ operation ∈ w.store.journal.operations, operation.id = operationId
  restore : ∃ w row, c.restores = .idle w ∧ getRestore w.store id = some row ∧
    row.operationId = operationId ∧ row.state = .pending false ∧ row.work = .waiting

/-- The create still runs, and is blocked. -/
def Stalled (journal : Lifecycle.Journal) (operationId : OperationId) : Prop :=
  ∃ operation ∈ journal.operations, operation.id = operationId ∧ operation.intent = .run ∧
    ∃ reason, operation.progress = .blocked reason

/-- As `agreeing`, and no restore reads the operations while the create is stalled. -/
def sparing (operationId : OperationId) (journal : Lifecycle.Journal) : Remark interface :=
  fun _ t env _ => Agrees journal env ∧ (ReadsOperations t → ¬ Stalled journal operationId)

/-- The restore is blocked because its target was not provisioned. -/
def GaveUp (id : RestoreId) (store : Store) : Prop :=
  ∃ row, getRestore store id = some row ∧ row.state = .blocked unprovisioned

/-! ## What a tick writes -/

section Writes

variable (id : RestoreId) (operationId : OperationId)

/-- The restore is for this operation. -/
def Owned (store : Store) : Prop :=
  ∃ row, getRestore store id = some row ∧ row.operationId = operationId

/-- The restore gives up. -/
def Marks (old new : Store) : Prop := GaveUp id new ∧ ¬ GaveUp id old

/-- The transaction has read that the operation did not succeed. -/
def tells : Remark interface := fun _ t env _ =>
  ReadsOperations t ∧
    (env.operations.find? fun entry => entry.1 = operationId).map Prod.snd = some .failed

/-- A write that does not give up. -/
def Keeps (old new : Store) : Prop :=
  Owned id operationId old → Owned id operationId new ∧ ¬ Marks id old new

variable {id : RestoreId} {operationId : OperationId}

theorem Keeps.of_eq {old new : Store} (h : new.restores = old.restores) :
    Keeps id operationId old new := by
  have hget : getRestore new id = getRestore old id := by rw [getRestore, getRestore, h]
  refine fun howned => ⟨?_, fun hmarks => hmarks.2 ?_⟩
  · rwa [Owned, hget]
  · obtain ⟨row, hrow, hstate⟩ := hmarks.1
    exact ⟨row, hget ▸ hrow, hstate⟩

theorem Keeps.refl (store : Store) : Keeps id operationId store store := .of_eq rfl

theorem Keeps.trans {a b c : Store} (h : Keeps id operationId a b) (h' : Keeps id operationId b c) :
    Keeps id operationId a c := by
  intro howned
  obtain ⟨hb, hab⟩ := h howned
  obtain ⟨hc, hbc⟩ := h' hb
  refine ⟨hc, fun hmarks => ?_⟩
  by_cases hmid : GaveUp id b
  · exact hab ⟨hmid, hmarks.2⟩
  · exact hbc ⟨hmarks.1, hmid⟩

/-- A write of a restore's row that keeps its state, or gives it one that is no giving up. -/
theorem Keeps.update {store : Store} {other : RestoreId} {f : RestoreRow → RestoreRow}
    (hid : ∀ row, (f row).id = row.id) (hoperation : ∀ row, (f row).operationId = row.operationId)
    (hstate : ∀ row, (f row).state = row.state ∨ (f row).state ≠ .blocked unprovisioned) :
    Keeps id operationId store (writeRestore other f store) := by
  rintro ⟨row, hrow, hown⟩
  have hget : getRestore (writeRestore other f store) id =
      some (if id = other then f row else row) := by
    rw [writeRestore, getRestore_update hid, hrow]
    split <;> rfl
  refine ⟨⟨_, hget, ?_⟩, ?_⟩
  · split
    · exact (hoperation row).trans hown
    · exact hown
  · rintro ⟨⟨new, hnew, hblocked⟩, hnot⟩
    obtain rfl := Option.some.inj (hget.symm.trans hnew)
    split at hblocked
    · rcases hstate row with hsame | hother
      · exact hnot ⟨row, hrow, hsame ▸ hblocked⟩
      · exact hother hblocked
    · exact hnot ⟨row, hrow, hblocked⟩

/-- The writes of another restore are none of this one's business. -/
theorem Keeps.elsewhere {store : Store} {other : RestoreId} (hne : id ≠ other)
    {f : RestoreRow → RestoreRow} (hid : ∀ row, (f row).id = row.id) :
    Keeps id operationId store (writeRestore other f store) := by
  have hget : getRestore (writeRestore other f store) id = getRestore store id := by
    rw [writeRestore, getRestore_update hid, if_neg hne]
  rintro ⟨row, hrow, hown⟩
  refine ⟨⟨row, hget.trans hrow, hown⟩, fun hmarks => hmarks.2 ?_⟩
  obtain ⟨new, hnew, hblocked⟩ := hmarks.1
  exact ⟨new, hget ▸ hnew, hblocked⟩

end Writes

/-! ## The parts of a tick that do not give up -/

section Silent

variable {id : RestoreId} {operationId : OperationId} {α β : Type} {config : BackupConfig}

/-- No transaction of the program gives up. -/
abbrev Silent (id : RestoreId) (operationId : OperationId) {α : Type} (p : Program α) : Prop :=
  p.Writes (Keeps id operationId)

theorem silent_bind {p : Program α} {f : α → Program β} (h : Silent id operationId p)
    (hf : ∀ a, Silent id operationId (f a)) : Silent id operationId (p >>= f) :=
  Prog.Writes.bind h hf

theorem silent_pure {a : α} : Silent id operationId (pure a : Program α) := trivial

theorem silent_raise {fault : Fault} : Silent id operationId (raise fault : Program α) := trivial

theorem silent_refuseIf {c : Prop} [Decidable c] {message : String} :
    Silent id operationId (refuseIf c message) := Prog.Writes.ofExcept

theorem silent_thrown {r : Except Fault α} : Silent id operationId (thrown r) :=
  Prog.Writes.ofExcept

theorem silent_ask {c : Call} {h : c.Reply = Except Fault Unit} :
    Silent id operationId (ask c h) :=
  silent_bind Prog.Writes.ask fun _ => silent_thrown

/-- A write, if the admitting credential is still believed. -/
theorem silent_authorizeEffect {accountId : AccountId} {grantId : GrantId} {projectId : ProjectId}
    {capability : Capability} {work : Store → Store}
    (h : ∀ store, Keeps id operationId store (work store)) :
    Silent id operationId (authorizeEffect accountId grantId projectId capability work) := by
  refine Prog.Writes.transact fun env store a store' hok => ?_
  simp only [bind_ok_iff, pure_ok_iff, Prod.mk.injEq] at hok
  obtain ⟨-, -, -, -, -, rfl⟩ := hok
  exact h store

theorem silent_saveRestore {other : RestoreId} {work : RestoreWork} :
    Silent id operationId (saveRestore other work) := by
  refine Prog.Writes.transact fun env store a store' hok => ?_
  obtain ⟨-, rfl⟩ := Prod.mk.inj (Except.ok.inj hok)
  exact .update (fun _ => rfl) (fun _ => rfl) fun _ => .inl rfl

theorem silent_blockRestore {other : RestoreId} {reason : String} (h : reason ≠ unprovisioned) :
    Silent id operationId (blockRestore other reason) := by
  refine silent_bind silent_ask fun _ => Prog.Writes.transact fun env store a store' hok => ?_
  obtain ⟨-, rfl⟩ := Prod.mk.inj (Except.ok.inj hok)
  refine .update (fun _ => rfl) (fun _ => rfl) fun row => .inr fun heq => h ?_
  exact RestoreState.blocked.inj heq

theorem keeps_verifySource {backupId : BackupId} {store store' : Store}
    (h : verifySource backupId store = .ok store') : Keeps id operationId store store' := by
  simp only [verifySource, bind_ok_iff] at h
  obtain ⟨source, -, h⟩ := h
  split at h
  · obtain rfl := pure_ok_iff.mp h
    exact .of_eq rfl
  · cases h

theorem silent_finish {row : RestoreRow} {result : Completed} :
    Silent id operationId (finish row result) := by
  refine silent_bind silent_refuseIf fun _ => silent_bind silent_ask fun _ =>
    Prog.Writes.transact fun env store a store' hok => ?_
  simp only [bind_ok_iff, pure_ok_iff, Prod.mk.injEq] at hok
  obtain ⟨verified, hverified, -, rfl⟩ := hok
  have hdone : Keeps id operationId store (writeRestore row.id
      (fun row => { row with work := .done, state := .restored result }) store) :=
    .update (fun _ => rfl) (fun _ => rfl) fun _ => .inr (by simp)
  exact hdone.trans (keeps_verifySource hverified)

theorem silent_keyUnavailable {row : RestoreRow} :
    Silent id operationId (keyUnavailable row : Program α) := by
  refine silent_bind (silent_authorizeEffect fun store => ?_) fun _ => silent_raise
  exact .update (fun _ => rfl) (fun _ => rfl) fun _ => .inr (by simp)

theorem silent_openKeyring {row : RestoreRow} {encryption : Encryption} :
    Silent id operationId (openKeyring row encryption) := by
  refine silent_bind Prog.Writes.ask fun keyring => ?_
  split
  · exact silent_keyUnavailable
  · refine silent_bind Prog.Writes.ask fun verified => ?_
    split
    · exact silent_pure
    · exact silent_keyUnavailable
    · exact silent_raise

theorem silent_settle {row : RestoreRow} {state : RestoreGuestState} :
    Silent id operationId (settle row state) := by
  unfold settle
  split
  · exact silent_finish
  · exact silent_blockRestore (by simp [unprovisioned])
  · exact silent_pure

theorem silent_submitRestore {row : RestoreRow} {allocationId : AllocationId} {parts : Sealed}
    {receipt : Receipt} : Silent id operationId
      (submitRestore config row allocationId parts receipt) := by
  refine silent_bind silent_ask fun _ => silent_bind silent_ask fun _ => silent_bind ?_ fun _ =>
    silent_settle
  refine Prog.Writes.tryCatch ?_ fun _ => silent_raise
  refine silent_bind silent_ask fun _ => silent_bind ?_ fun _ =>
    silent_bind Prog.Writes.ask fun _ => silent_thrown
  exact silent_authorizeEffect fun store => .update (fun _ => rfl) (fun _ => rfl) fun _ => .inl rfl

theorem silent_preparePhase {row : RestoreRow} {allocationId : AllocationId} {attempts : Nat} :
    Silent id operationId (preparePhase config row allocationId attempts) := by
  unfold preparePhase
  split
  · exact silent_blockRestore (by simp [unprovisioned])
  · refine silent_bind silent_ask fun _ => silent_bind silent_ask fun _ =>
      silent_bind silent_ask fun _ =>
        silent_bind (silent_authorizeEffect fun store => .refl store) fun _ =>
          silent_bind ?_ fun source => silent_bind silent_openKeyring fun _ => silent_bind
            (silent_authorizeEffect fun store =>
              .update (fun _ => rfl) (fun _ => rfl) fun _ => .inr (by simp)) fun _ => ?_
    · refine Prog.Writes.transact fun env store a store' hok => ?_
      simp only [bind_ok_iff, pure_ok_iff, Prod.mk.injEq] at hok
      obtain ⟨-, -, -, rfl⟩ := hok
      exact .refl _
    · exact Prog.Writes.ensure silent_submitRestore silent_ask

theorem silent_submittedPhase {row : RestoreRow} {allocationId : AllocationId} {attempts : Nat} :
    Silent id operationId (submittedPhase row allocationId attempts) := by
  refine silent_bind silent_ask fun _ => ?_
  split
  · exact silent_blockRestore (by simp [unprovisioned])
  · refine silent_bind silent_saveRestore fun _ => silent_bind silent_ask fun _ =>
      silent_bind Prog.Writes.ask fun _ => silent_bind silent_thrown fun state => ?_
    split
    · exact silent_finish
    · exact silent_blockRestore (by simp [unprovisioned])
    · exact silent_raise

theorem silent_targetPhase {row : RestoreRow} {target : TargetMachine} {work : RestoreWork} :
    Silent id operationId (targetPhase config row target work) := by
  unfold targetPhase
  split
  · exact silent_raise
  · split
    · exact silent_submittedPhase
    · exact silent_preparePhase
    · exact silent_pure

end Silent

/-! ## A tick gives up by what it has read -/

section Warranted

variable {id : RestoreId} {operationId : OperationId} {config : BackupConfig} {known : Prop}

/-- Every giving up is warranted by a read that the operation did not succeed. -/
abbrev Warranted (id : RestoreId) (operationId : OperationId) (p : Program Unit) (known : Prop) :
    Prop :=
  p.Warranted (Owned id operationId) (tells operationId) (Marks id) Prog.Warranted.Anyhow known

theorem Silent.warranted {p : Program Unit} (h : Silent id operationId p) :
    Warranted id operationId p known :=
  Prog.Warranted.of_writes h fun _ _ hkeeps howned => hkeeps howned

theorem not_marks_self (store : Store) : ¬ Marks id store store := fun h => h.2 h.1

theorem owned_writeRestore {store : Store} {other : RestoreId} {f : RestoreRow → RestoreRow}
    (hid : ∀ row, (f row).id = row.id) (hoperation : ∀ row, (f row).operationId = row.operationId)
    (h : Owned id operationId store) : Owned id operationId (writeRestore other f store) := by
  obtain ⟨row, hrow, hown⟩ := h
  refine ⟨if id = other then f row else row, ?_, ?_⟩
  · rw [writeRestore, getRestore_update hid, hrow]
    split <;> rfl
  · split
    · exact (hoperation row).trans hown
    · exact hown

/-- A restore that gives up has been told so; another one may. -/
theorem warranted_giveUp {row : RestoreRow} (h : row.id = id → known) :
    Warranted id operationId (blockRestore row.id unprovisioned) known := by
  by_cases hid : row.id = id
  · have hwrites : (blockRestore row.id unprovisioned).Writes
        fun s s' => Owned id operationId s → Owned id operationId s' := by
      refine Prog.Writes.bind (Prog.Writes.bind Prog.Writes.ask fun _ => Prog.Writes.ofExcept)
        fun _ => Prog.Writes.transact fun env store a store' hok => ?_
      obtain ⟨-, rfl⟩ := Prod.mk.inj (Except.ok.inj hok)
      exact owned_writeRestore (fun _ => rfl) fun _ => rfl
    exact Prog.Warranted.of_known (h hid) hwrites fun _ _ hkept howned => hkept howned
  · refine Silent.warranted (silent_bind silent_ask fun _ =>
      Prog.Writes.transact fun env store a store' hok => ?_)
    obtain ⟨-, rfl⟩ := Prod.mk.inj (Except.ok.inj hok)
    exact .elsewhere (Ne.symm hid) fun _ => rfl

/-- The read of the provisioning operation is one of the table of the operations. -/
theorem reads_lookup {env : Env} {store : Store} {operationId : OperationId}
    (h : (env.operations.find? fun entry => entry.1 = operationId).map Prod.snd = some .failed) :
    ReadsOperations fun (env : Env) (store : Store) =>
      (.ok ((env.operations.find? fun entry => entry.1 = operationId).map Prod.snd, store) :
        Except WorkFault (Option Provisioning × Store)) := by
  refine ⟨env, [], store, fun heq => ?_⟩
  have hnone := congrArg Prod.fst (Except.ok.inj heq)
  rw [h] at hnone
  cases hnone

theorem warranted_waitingPhase {row : RestoreRow} {target : TargetMachine}
    (hown : row.id = id → row.operationId = operationId) :
    Warranted id operationId (waitingPhase config row target) known := by
  refine Prog.Warranted.observe not_marks_self fun env store _ => ?_
  split
  · trivial
  · next hfailed =>
    refine warranted_giveUp fun hid => .inr ?_
    rw [hown hid] at hfailed ⊢
    exact ⟨@reads_lookup _ store _ hfailed, hfailed⟩
  · exact Silent.warranted silent_pure
  · exact Silent.warranted (silent_bind silent_saveRestore fun _ => silent_targetPhase)

theorem warranted_advancePending {row : RestoreRow}
    (hown : row.id = id → row.operationId = operationId) :
    Warranted id operationId (advancePending config row) known := by
  refine Prog.Warranted.observe not_marks_self fun env store _ => ?_
  split
  · trivial
  · split
    · exact Silent.warranted (silent_blockRestore (by simp [unprovisioned]))
    · split
      · exact warranted_waitingPhase hown
      · exact Silent.warranted silent_targetPhase

theorem warranted_advanceRestore {other : RestoreId} :
    Warranted id operationId (advanceRestore config other) known := by
  refine Prog.Warranted.observe not_marks_self fun env store howned => ?_
  split
  · exact Silent.warranted silent_pure
  · next row hrow =>
    split
    · refine warranted_advancePending fun hid => ?_
      obtain ⟨own, hown, hoperation⟩ := howned
      have hkey : row.id = other := Table.get_key hrow
      obtain rfl : id = other := hid.symm.trans hkey
      obtain rfl := Option.some.inj (hown.symm.trans hrow)
      exact hoperation
    · exact Silent.warranted silent_pure

/-- A tick of any restore. -/
theorem warranted_advanceRestoreTick {other : RestoreId} :
    Warranted id operationId (advanceRestoreTick config other) known := by
  refine Prog.Warranted.tryCatch (warranted_advanceRestore.mono fun r known _ => ?_)
  cases r with
  | ok u => trivial
  | error fault =>
    cases fault with
    | authority => exact Silent.warranted (silent_blockRestore (by simp [unprovisioned, revokedReason]))
    | fault _ => trivial

end Warranted

/-! ## A create that cannot succeed any more -/

/-- The create has ended without success, or no longer runs. -/
structure Doomed (operation : Lifecycle.OperationRow) : Prop where
  create : operation.kind = .create
  unsuccessful : ∀ date, operation.progress ≠ .succeeded date
  ended : operation.terminal = true ∨ operation.intent ≠ .run

/-- The create of this identifier is doomed. -/
def Lost (operationId : OperationId) (journal : Lifecycle.Journal) : Prop :=
  ∃ operation ∈ journal.operations, operation.id = operationId ∧ Doomed operation

section Lost

variable {operationId : OperationId} {journal journal' : Lifecycle.Journal}

/-- Rewriting an operation that goes on: the doomed row stays, or its rewriting is doomed again. -/
theorem Lost.rewrite (hs : Lifecycle.Sound journal) (h : Lost operationId journal)
    {operation : Lifecycle.OperationRow} (active : journal.Active operation)
    {f : Lifecycle.OperationRow → Lifecycle.OperationRow} (hid : ∀ row, (f row).id = row.id)
    (hdoomed : operation.intent ≠ .run → operation.kind = .create → Doomed (f operation)) :
    ∃ row ∈ Table.update Lifecycle.OperationRow.id journal.operations operation.id f,
      row.id = operationId ∧ Doomed row := by
  obtain ⟨row, hrow, hkey, hrowDoomed⟩ := h
  have hmem : ∀ r, r ∈ Table.update Lifecycle.OperationRow.id journal.operations operation.id f ↔
      r = f operation ∨ (r ∈ journal.operations ∧ r.id ≠ operation.id) :=
    fun _ => hs.operations.keyed.mem_update active.mem
  by_cases hsame : row.id = operation.id
  · obtain rfl := hs.operations.keyed.unique hrow active.mem hsame
    have hintent : row.intent ≠ .run := by
      rcases hrowDoomed.ended with hterminal | hintent
      · rw [active.going] at hterminal
        cases hterminal
      · exact hintent
    exact ⟨f row, (hmem _).mpr (.inl rfl), (hid row).trans hkey,
      hdoomed hintent hrowDoomed.create⟩
  · exact ⟨row, (hmem _).mpr (.inr ⟨hrow, hsame⟩), hkey, hrowDoomed⟩

/-- **Step lemma.**  No change of the journal revives a doomed create. -/
theorem Lost.change {log : Lifecycle.Log} {clock : Instant} (hs : Lifecycle.Sound journal)
    (h : Lost operationId journal)
    (change : Lifecycle.Change Lifecycle.anyReply log clock journal journal') : Lost operationId journal' := by
  cases change with
  | prepare | outcome | claim | bind | absent | settle | granted | closure => exact h
  | progress active progress going =>
    refine h.rewrite hs active (fun _ => rfl) fun hintent hcreate => ⟨hcreate, ?_, .inr hintent⟩
    intro date hdate
    have hdate : progress = .succeeded date := hdate
    rw [hdate] at going
    cases going
  | compensate active create run =>
    exact h.rewrite hs active (fun _ => rfl) fun hintent _ => absurd run hintent
  | failed active =>
    exact h.rewrite hs active (fun _ => rfl) fun _ hcreate =>
      ⟨hcreate, fun _ hdate => (by cases hdate), .inl rfl⟩
  | completed active run =>
    exact h.rewrite hs active (fun _ => rfl) fun hintent _ => absurd run hintent
  | @cleaned operation active =>
    refine h.rewrite hs active (fun _ => rfl) fun hintent hcreate => ?_
    have hend : ∀ date, Lifecycle.cleanupEnd operation.kind date = .cancelled date :=
      fun date => if_pos hcreate
    refine ⟨hcreate, fun date hdate => ?_, .inr hintent⟩
    simp [hend] at hdate
  | takeover active =>
    exact h.rewrite hs active (fun _ => rfl) fun _ hcreate =>
      ⟨hcreate, fun _ hdate => (by cases hdate), .inr (by simp)⟩
  | opened =>
    obtain ⟨row, hrow, hkey, hdoomed⟩ := h
    exact ⟨row, List.mem_append_left _ hrow, hkey, hdoomed⟩
  | @controlClosed operation active =>
    refine h.rewrite hs active (fun _ => rfl) fun hintent hcreate => ?_
    refine ⟨hcreate, fun date hdate => ?_, .inr hintent⟩
    simp [hcreate] at hdate

/-- **Run lemma.**  A doomed create stays doomed. -/
theorem Lost.run {offline : Bool} {m m' : Lifecycle.Machine}
    (hin : Discipline.InOrder (Lifecycle.contract Lifecycle.anyReply) m)
    (h : Lost operationId m.world.store.journal)
    (hreach : (Lifecycle.system Lifecycle.anyReply offline).Reach m m') :
    Lost operationId m'.world.store.journal :=
  Lifecycle.run_rows (P := Lost operationId) (fun hs hj change => hj.change hs change)
    (fun _ hj action ok => by
      obtain ⟨row, hrow, hkey, hdoomed⟩ := hj
      obtain ⟨hourlyMicros, version, heq⟩ := (Lifecycle.admission_of_ok action ok).eq
      rw [heq]
      exact ⟨row, List.mem_append_left _ hrow, hkey, hdoomed⟩) hin h hreach

end Lost

/-! ## Every run -/

section Made

variable {operationId : OperationId} {journal journal' : Lifecycle.Journal}

/-- The operation is the create of the machine. -/
def Made (operationId : OperationId) (journal : Lifecycle.Journal) : Prop :=
  ∃ operation ∈ journal.operations, operation.id = operationId ∧ operation.kind = .create

theorem Made.mapOperation (h : Made operationId journal) {id : OperationId}
    {f : Lifecycle.OperationRow → Lifecycle.OperationRow} (hid : ∀ row, (f row).id = row.id)
    (hkind : ∀ row, (f row).kind = row.kind) :
    ∃ row ∈ Table.update Lifecycle.OperationRow.id journal.operations id f,
      row.id = operationId ∧ row.kind = .create := by
  obtain ⟨row, hrow, hkey, hcreate⟩ := h
  refine ⟨_, List.mem_map_of_mem hrow, ?_, ?_⟩ <;> split
  · exact (hid row).trans hkey
  · exact hkey
  · exact (hkind row).trans hcreate
  · exact hcreate

theorem Made.change {log : Lifecycle.Log} {clock : Instant} (h : Made operationId journal)
    (change : Lifecycle.Change Lifecycle.anyReply log clock journal journal') :
    Made operationId journal' := by
  cases change with
  | prepare | outcome | claim | bind | absent | settle | granted | closure => exact h
  | progress | compensate | failed | completed | cleaned | takeover | controlClosed =>
    exact h.mapOperation (fun _ => rfl) fun _ => rfl
  | opened =>
    obtain ⟨row, hrow, hmade⟩ := h
    exact ⟨row, List.mem_append_left _ hrow, hmade⟩

theorem Made.run {offline : Bool} {m m' : Lifecycle.Machine}
    (hin : Discipline.InOrder (Lifecycle.contract Lifecycle.anyReply) m)
    (h : Made operationId m.world.store.journal)
    (hreach : (Lifecycle.system Lifecycle.anyReply offline).Reach m m') :
    Made operationId m'.world.store.journal :=
  Lifecycle.run_rows (P := Made operationId) (fun _ hj change => hj.change change)
    (fun _ hj action ok => by
      obtain ⟨row, hrow, hmade⟩ := hj
      obtain ⟨hourlyMicros, version, heq⟩ := (Lifecycle.admission_of_ok action ok).eq
      rw [heq]
      exact ⟨row, List.mem_append_left _ hrow, hmade⟩) hin h hreach

end Made

variable {offline : Bool} {id : RestoreId} {operationId : OperationId}

/-- What holds in every run that spares stalled creates. -/
structure Just (id : RestoreId) (operationId : OperationId) (c : Joint) : Prop where
  inOrder : Discipline.InOrder (Lifecycle.contract Lifecycle.anyReply) c.machine
  made : Made operationId c.machine.world.store.journal
  owned : Owned id operationId c.restores.world.store
  warranted : c.restores.Warranted (Owned id operationId) (tells operationId) (Marks id)
    (Lost operationId c.machine.world.store.journal)
  just : GaveUp id c.restores.world.store → Lost operationId c.machine.world.store.journal

/-- What a restore reads of an operation that does not run stalled. -/
theorem lost_of_tells {journal : Lifecycle.Journal} (hs : Lifecycle.Sound journal)
    (made : Made operationId journal) {β : Type}
    {t : Env → Store → Except WorkFault (β × Store)} {env : Env} {store : Store}
    (may : sparing operationId journal β t env store) (htells : tells operationId β t env store) :
    Lost operationId journal := by
  obtain ⟨operation, hm, hkey, hcreate⟩ := made
  obtain ⟨hagrees, hspares⟩ := may
  obtain ⟨hreads, hfailed⟩ := htells
  have hshown := hagrees operation hm
  rw [hkey] at hshown
  rw [hshown] at hfailed
  have hprogress : provisioning operation.progress = .failed := Option.some.inj hfailed
  refine ⟨operation, hm, hkey, hcreate, fun date hdate => ?_, ?_⟩
  · rw [hdate] at hprogress
    cases hprogress
  · cases hkind : operation.progress with
    | failed date error => exact .inl (by simp [Lifecycle.OperationRow.terminal, hkind,
        Lifecycle.OperationProgress.terminal])
    | cancelled date => exact .inl (by simp [Lifecycle.OperationRow.terminal, hkind,
        Lifecycle.OperationProgress.terminal])
    | blocked reason =>
      refine .inr fun hrun => hspares hreads ⟨operation, hm, hkey, hrun, reason, hkind⟩
    | _ =>
      rw [hkind] at hprogress
      cases hprogress

theorem getRestore_mirror {machine : Lifecycle.MachineRow} {store : Store} {other : RestoreId} :
    getRestore (mirror machine store) other = getRestore store other := rfl

/-- Rows that are added later do not hide one that is there. -/
theorem getRestore_later {old new : Store} {rows : List RestoreRow} {row : RestoreRow}
    (h : getRestore old id = some row) (hrows : new.restores = old.restores ++ rows) :
    getRestore new id = some row := by
  simp only [getRestore, Table.get] at h ⊢
  rw [hrows, List.find?_append, h]
  rfl

/-- **Step lemma.**  A step that spares stalled creates keeps every giving up just. -/
theorem Just.step {c c' : Joint} (h : Just id operationId c)
    (hstep : Joint.Step offline (sparing operationId) c c') : Just id operationId c' := by
  cases hstep with
  | machine m hm =>
    have hreach : (Lifecycle.system Lifecycle.anyReply offline).Reach c.machine m := .single hm
    have hlost : Lost operationId c.machine.world.store.journal →
        Lost operationId m.world.store.journal := fun hlost => hlost.run h.inOrder hreach
    refine ⟨(Lifecycle.disciplined Lifecycle.anyReply offline).inOrder h.inOrder hreach,
      h.made.run h.inOrder hreach, h.owned, fun k p hp => ?_, fun hgave => hlost (h.just hgave)⟩
    obtain ⟨known, hknown, hwarranted⟩ := h.warranted k p hp
    exact ⟨known, fun hk => hlost (hknown hk), hwarranted⟩
  | restores r hr =>
    have hjobs : ∀ k p, (ticks c.machine.world.store.journal.machine.id).job k p → ∀ known,
        Warranted id operationId p known := by
      rintro k p ⟨config, other, -, rfl⟩ known
      exact warranted_advanceRestoreTick
    obtain ⟨hwarranted, hwrote⟩ := hr.warranted hjobs
      (fun β t env s may htells => lost_of_tells h.inOrder.1.sound h.made may htells) h.warranted
      h.owned
    refine ⟨h.inOrder, h.made, ?_, hwarranted, ?_⟩
    · rcases hwrote with hsame | ⟨howned, -⟩ | hother
      · show Owned id operationId r.world.store
        rw [hsame]
        exact h.owned
      · exact howned
      · obtain ⟨-, ⟨rows, hrows⟩, -⟩ := hother
        obtain ⟨row, hrow, hown⟩ := h.owned
        exact ⟨row, getRestore_later hrow hrows, hown⟩
    · intro hgave
      by_cases hbefore : GaveUp id c.restores.world.store
      · exact h.just hbefore
      · rcases hwrote with hsame | ⟨-, hmarks⟩ | hother
        · exact absurd (hsame ▸ hgave) hbefore
        · exact hmarks ⟨hgave, hbefore⟩
        · refine absurd ?_ hbefore
          obtain ⟨-, ⟨rows, hrows⟩, -⟩ := hother
          obtain ⟨row, hrow, hown⟩ := h.owned
          obtain ⟨found, hfound, hstate⟩ := hgave
          exact ⟨found, hrow.trans ((getRestore_later hrow hrows).symm.trans hfound), hstate⟩

theorem AwaitsCreate.just {c : Joint} (h : AwaitsCreate c id operationId) : Just id operationId c := by
  obtain ⟨w, hinitial, hmachine, operation, hm, hkey⟩ := h.machine
  obtain ⟨v, row, hrestores, hrow, hown, hstate, -⟩ := h.restore
  have hin : Discipline.InOrder (Lifecycle.contract Lifecycle.anyReply) c.machine := by
    rw [hmachine]
    exact Discipline.inOrder_idle hinitial.valid
  have hcreate : operation.kind = .create := by
    obtain ⟨machineId, allocationId, createId, principal, projectId, spec, catalog, offer, date,
      profile, -, heq⟩ := hinitial.born.born
    rw [heq] at hm
    obtain rfl := List.mem_singleton.mp hm
    rfl
  have hget : getRestore c.restores.world.store id = some row := by
    rw [hrestores]
    exact hrow
  refine ⟨hin, ⟨operation, by rw [hmachine]; exact hm, hkey, hcreate⟩, ⟨row, hget, hown⟩, ?_, ?_⟩
  · intro k p hp
    rw [hrestores] at hp
    cases hp
  · rintro ⟨found, hfound, hblocked⟩
    obtain rfl := Option.some.inj (hget.symm.trans hfound)
    rw [hstate] at hblocked
    cases hblocked

/-- **Run lemma.**  As long as no restore reads the operations while the create is stalled, a
    restore that gave up has a create that is lost. -/
theorem Just.run {c c' : Joint} (h : Just id operationId c)
    (hreach : Joint.Reach offline (sparing operationId) c c') : Just id operationId c' := by
  induction hreach with
  | refl => exact h
  | tail _ hstep ih => exact ih.step hstep

namespace Demo

open Lifecycle (ProviderServer ProviderPrimaryIp)

/-- What a restore sees of a journal. -/
def shown (journal : Lifecycle.Journal) : Env :=
  { env with
    operations := journal.operations.map fun operation =>
      (operation.id, provisioning operation.progress) }

namespace Lost

def offer : Lifecycle.CatalogItem :=
  { Lifecycle.Demo.offer with
    providerBackups := .daily 500
    hourlyMicros := 7500
    total := rfl }

def catalog : Lifecycle.Catalog := ⟨.hetzner, 0, 1000000, [offer], by simp [offer]⟩

def config : Lifecycle.Config := ⟨.hetzner, ⟨"EUR", 10, 100000⟩, true⟩

def start : World Lifecycle.interface :=
  ⟨⟨1000, Lifecycle.newJournal "mach" "alloc" "create" Lifecycle.Demo.principal "proj"
    ⟨"web", .small, .nbg1⟩ .hetzner offer 0⟩, []⟩

theorem start_initial : Lifecycle.Initial start :=
  ⟨rfl, ⟨"mach", "alloc", "create", Lifecycle.Demo.principal, "proj", ⟨"web", .small, .nbg1⟩,
    catalog, offer, 0, .managedIpv4, by simp [catalog], rfl⟩⟩

def env (w : World Lifecycle.interface) : Lifecycle.Env :=
  { Lifecycle.Demo.env w with
    id := match w.store.journal.attempts.length with
      | 0 => "address"
      | 1 => "server"
      | _ => "backup"
    identityIssued := true }

def labels : Lifecycle.Labels :=
  Lifecycle.allocationLabels start.store.journal.machine start.store.journal.allocation ++
    [("operation_id", "create")]

def ip : ProviderPrimaryIp := ⟨"ip", "nbg1", labels, true, .unassigned⟩

def asked (w : World Lifecycle.interface) (attemptId : AttemptId) : Bool :=
  w.log.any fun exchange => exchange.call.attempt? = some attemptId

def server (w : World Lifecycle.interface) : ProviderServer :=
  ⟨"srv", "cx22", "nbg1", .running, labels, some "ip",
    if asked w "backup" then .enabled else .disabled⟩

/-- A provider that loses its first reply, and lists what it created only the second time. -/
def reply (w : World Lifecycle.interface) : (c : Lifecycle.Call) → c.Reply
  | .getCatalog => .ok catalog
  | .submit _ (.createPrimaryIp ..) => .error (.other "socket hang up")
  | .submit .. => .ok (.completed ⟨.server, "srv"⟩)
  | .getAction _ => .ok .succeeded
  | .getServer _ => .ok (some (server w))
  | .findServers _ => .ok []
  | .getPrimaryIp _ => .ok (some ip)
  | .findPrimaryIps labels =>
    if w.log.any fun exchange => exchange.call = .findPrimaryIps labels then .ok [ip] else .ok []
  | .resolveImage _ => .ok "image"
  | .prepareBootstrap .. => .ok "bootstrap"
  | .inspectGuest _ => .ok (.ready (server w) 900 "v1" "m0" "boot")

def tick (w : World Lifecycle.interface) : World Lifecycle.interface :=
  ((Lifecycle.advanceLocked config "create").run env reply w).2

theorem tick_reachable (w : World Lifecycle.interface) :
    (Lifecycle.system Lifecycle.anyReply true).Reach (.idle w) (.idle (tick w)) :=
  System.reach_job _ () env reply (fun _ _ => trivial) _ w (.tick true config "create")

/-- The lost reply has been reported. -/
def blocked : World Lifecycle.interface := tick (tick start)

/-- The address was found after all, and everything else went well. -/
def succeeded : World Lifecycle.interface :=
  tick (tick (tick (tick (tick (tick blocked)))))

end Lost

end Demo

end AgentCloud.Backups
