/-
  NAMES: when the admission of a create counts the name of a machine as taken.

  `admit` looks for a machine of that name in the project whose state is not `destroyed`.  The
  allocation of a machine is retired by a cleanup, by a closure of control recovery, and by a create
  that fails with nothing left; the first two destroy the machine, the last leaves it `failed`.  From
  then on no request touches the machine any more, so its name stays taken.

  `Leaves` says what any transaction of a worker does to the allocation.  It is a fact about the text
  of the workers (`Writes`); that a retired allocation is the end of a machine's journal is one about
  its changes.
-/
import AgentCloud.Lifecycle.Runs
import AgentCloud.Lib.Writes

namespace AgentCloud.Lifecycle

open Checked Durable

/-! ## The check of a create -/

/-- `state->>'kind' <> 'destroyed'`. -/
def named : MachineState → Bool
  | .destroyed _ => false
  | _ => true

/-- The machine has the name in the project. -/
def MachineRow.holds (machine : MachineRow) (projectId : ProjectId) (name : String) : Bool :=
  decide (machine.projectId = projectId ∧ machine.spec.name = name) && named machine.state

/-- The name check of `admit`. -/
def checkName (machines : List MachineRow) (projectId : ProjectId) (name : String) :
    Except Fault Unit :=
  refuse (machines.any fun machine => machine.holds projectId name)
    (cloudError .resourceBusy "A live machine already has this name.")

/-- The part of `admit` for a create, after the replay of its idempotency key was ruled out.
    `env.others` are all live allocations here. -/
def admitCreate (provider : ProviderKind) (limits : Limits) (catalog : Catalog) (env : Env)
    (projects : List (ProjectId × AccountId)) (machines : List MachineRow) (account : Account)
    (principal : Principal) (projectId : ProjectId) (spec : MachineSpec) (machineId : MachineId)
    (allocationId : AllocationId) : Except Fault Journal := do
  authorizeCommand principal projectId (.create spec)
  refuse ((projectId, principal.accountId) ∉ projects) (cloudError .notFound "Project not found.")
  checkName machines projectId spec.name
  let offer ← quoteOffer catalog provider spec.size spec.region env.date
  assertReservation limits account principal env.others 1 offer.hourlyMicros offer.currency
  pure (newJournal machineId allocationId env.id principal projectId spec provider offer env.date)

theorem named_iff {state : MachineState} : named state = true ↔ state.stage ≠ 4 := by
  cases state <;> simp [named, MachineState.stage]

/-- A machine that holds the name refuses every create. -/
theorem admitCreate_held {provider : ProviderKind} {limits : Limits} {catalog : Catalog} {env : Env}
    {projects : List (ProjectId × AccountId)} {machines : List MachineRow} {account : Account}
    {principal : Principal} {projectId : ProjectId} {spec : MachineSpec} {machineId : MachineId}
    {allocationId : AllocationId} {machine : MachineRow} (hm : machine ∈ machines)
    (holds : machine.holds projectId spec.name = true) :
    (admitCreate provider limits catalog env projects machines account principal projectId spec
      machineId allocationId).isOk = false := by
  cases h : admitCreate provider limits catalog env projects machines account principal projectId
      spec machineId allocationId with
  | error e => rfl
  | ok journal =>
    simp only [admitCreate, checkName, bind_ok_iff, refuse_ok_iff] at h
    obtain ⟨-, -, -, -, -, hfree, -⟩ := h
    exact absurd (List.any_eq_true.mpr ⟨machine, hm, holds⟩) hfree

/-- A machine that does not hold the name is not counted. -/
theorem checkName_free {before after : List MachineRow} {machine : MachineRow}
    {projectId : ProjectId} {name : String} (free : machine.holds projectId name = false) :
    checkName (before ++ machine :: after) projectId name =
      checkName (before ++ after) projectId name := by
  simp [checkName, free]

/-! ## What a transaction does to the allocation -/

/-- The transaction of `fail` that ends a create with nothing left. -/
def Abandons (old new : Journal) : Prop :=
  ∃ env operation error, operation.kind = .create ∧
    failJournal env old operation error true = .ok new

/-- A transaction retires the allocation with the machine destroyed, or abandons a create. -/
def Leaves (old new : Journal) : Prop :=
  new.allocation.live = old.allocation.live ∨ new.machine.state.stage = 4 ∨ Abandons old new

section Transactions

variable {env : Env} {now : Instant} {journal journal' : Journal}

theorem updateOperation_live {id : OperationId} {f : OperationRow → OperationRow}
    (h : updateOperation journal id f = .ok journal') :
    journal'.allocation.live = journal.allocation.live := by
  rcases updateOperation_ok h with ⟨-, rfl⟩ | ⟨old, -, -, rfl⟩ <;> rfl

theorem updateOperation_machine {id : OperationId} {f : OperationRow → OperationRow}
    (h : updateOperation journal id f = .ok journal') : journal'.machine = journal.machine := by
  rcases updateOperation_ok h with ⟨-, rfl⟩ | ⟨old, -, -, rfl⟩ <;> rfl

theorem writeProgress_live {id : OperationId} {progress : OperationProgress}
    (h : writeProgress journal id progress = .ok journal') :
    journal'.allocation.live = journal.allocation.live := by
  unfold writeProgress at h
  split at h
  · exact updateOperation_live h
  · obtain rfl := pure_ok_iff.mp h
    rfl

theorem updateAttempts_live {where? : Attempt → Bool} {f : Attempt → Attempt}
    (h : updateAttempts env journal where? f = .ok journal') :
    journal'.allocation.live = journal.allocation.live := by
  obtain ⟨-, rfl⟩ := updateAttempts_ok h
  rfl

theorem bindServer_live {ref : ResourceRef} (h : bindServer journal ref = .ok journal') :
    journal'.allocation.live = journal.allocation.live := by
  unfold bindServer at h
  split at h
  · simp only [updateAllocation, bind_ok_iff, pure_ok_iff] at h
    obtain ⟨-, -, rfl⟩ := h
    rfl
  · obtain rfl := pure_ok_iff.mp h
    rfl

theorem insertResource_live {ref : ResourceRef} {labels : Labels}
    (h : insertResource env journal now ref labels = .ok journal') :
    journal'.allocation.live = journal.allocation.live := by
  unfold insertResource at h
  split at h
  · obtain rfl := pure_ok_iff.mp h
    rfl
  · split at h
    · cases h
    · obtain rfl := pure_ok_iff.mp h
      rfl

theorem claimResource_live {ref : ResourceRef} {labels : Labels}
    (h : claimResource env now journal ref labels = .ok journal') :
    journal'.allocation.live = journal.allocation.live := by
  simp only [claimResource, bind_ok_iff] at h
  obtain ⟨inserted, hinsert, -, -, hbind⟩ := h
  exact (bindServer_live hbind).trans (insertResource_live hinsert)

theorem settleJournal_live {attempt : Attempt} {labels : Labels} {resolution : EffectResolution}
    (h : settleJournal env now journal attempt labels resolution = .ok journal') :
    journal'.allocation.live = journal.allocation.live := by
  simp only [settleJournal, bind_ok_iff] at h
  obtain ⟨recorded, hrecord, hupdate⟩ := h
  refine (updateAttempts_live hupdate).trans ?_
  unfold recordResolution at hrecord
  split at hrecord
  · unfold recordObservation at hrecord
    split at hrecord
    · obtain rfl := pure_ok_iff.mp hrecord
      rfl
    · exact claimResource_live hrecord
    · exact claimResource_live hrecord
  · obtain rfl := pure_ok_iff.mp hrecord
    rfl

theorem insertAttempt_live {new : Attempt} (h : insertAttempt env journal now new = .ok journal') :
    journal'.allocation.live = journal.allocation.live := by
  obtain ⟨-, -, -, rfl⟩ := insertAttempt_ok h
  rfl

end Transactions

/-! ## What a worker does to the allocation -/

/-- Every transaction of the worker leaves the allocation as `Leaves` says. -/
abbrev Keeps {α : Type} (p : Program α) : Prop :=
  p.Writes fun store store' : Store => Leaves store.journal store'.journal

section Programs

variable {α β : Type} {config : Config} {operation : OperationRow}

theorem Leaves.refl (journal : Journal) : Leaves journal journal := .inl rfl

theorem keeps_bind {p : Program α} {f : α → Program β} (h : Keeps p) (hf : ∀ a, Keeps (f a)) :
    Keeps (p >>= f) :=
  Prog.Writes.bind h hf

theorem keeps_pure {a : α} : Keeps (pure a : Program α) := trivial

theorem keeps_raise {fault : Fault} : Keeps (raise fault : Program α) := trivial

theorem keeps_read : Keeps readJournal := Prog.Writes.read fun _ => .refl _

theorem keeps_ask {c : Call} : Keeps (Prog.ask (S := interface) c) := Prog.Writes.ask

/-- A transaction on the journal. -/
theorem keeps_transact {t : Env → Instant → Journal → Except Fault (α × Journal)}
    (h : ∀ env now journal a journal', t env now journal = .ok (a, journal') →
      Leaves journal journal') : Keeps (transact t) := by
  refine Prog.Writes.transact fun env store a store' hok => ?_
  simp only [bind_ok_iff, pure_ok_iff, Prod.mk.injEq] at hok
  obtain ⟨⟨b, journal⟩, hok, -, rfl⟩ := hok
  exact h env store.clock store.journal b journal hok

/-- A transaction without a result. -/
theorem keeps_write {t : Env → Instant → Journal → Except Fault Journal}
    (h : ∀ env now journal journal', t env now journal = .ok journal' → Leaves journal journal') :
    Keeps (transact fun env now journal => do
      let journal ← t env now journal
      pure ((), journal)) := by
  refine keeps_transact fun env now journal a journal' hok => ?_
  simp only [bind_ok_iff, pure_ok_iff, Prod.mk.injEq] at hok
  obtain ⟨written, hok, -, rfl⟩ := hok
  exact h env now journal written hok

theorem keeps_setProgress {id : OperationId} {progress : OperationProgress} :
    Keeps (setProgress id progress) :=
  keeps_write fun _ _ _ _ h => .inl (writeProgress_live h)

theorem keeps_blockMismatch {id : OperationId} : Keeps (blockMismatch id) := keeps_setProgress

theorem keeps_recordAbsenceNow {ref : ResourceRef} : Keeps (recordAbsenceNow ref) := by
  refine keeps_transact fun env now journal a journal' h => ?_
  obtain ⟨-, rfl⟩ := Prod.mk.inj (Except.ok.inj h)
  exact .inl rfl

theorem keeps_getServer {id : String} : Keeps (getServer id) := keeps_bind keeps_ask fun _ => trivial

theorem keeps_getPrimaryIp {id : String} : Keeps (getPrimaryIp id) :=
  keeps_bind keeps_ask fun _ => trivial

theorem keeps_getAction {id : String} : Keeps (getAction id) := keeps_bind keeps_ask fun _ => trivial

theorem keeps_search {kind : ResourceKind} {labels : Labels} : Keeps (search kind labels) := by
  cases kind <;> exact keeps_bind keeps_ask fun _ => keeps_bind trivial fun _ => trivial

theorem keeps_look {ref : ResourceRef} : Keeps (look ref) := by
  unfold look
  split
  · exact keeps_bind keeps_getServer fun _ => trivial
  · exact keeps_bind keeps_getPrimaryIp fun _ => trivial

theorem keeps_claimNow {ref : ResourceRef} {labels : Labels} : Keeps (claimNow ref labels) := by
  refine keeps_bind (keeps_write fun _ _ _ _ h => .inl (insertResource_live h)) fun _ => ?_
  refine keeps_bind ?_ fun _ => keeps_write fun _ _ _ _ h => .inl (bindServer_live h)
  refine keeps_transact fun env now journal a journal' h => ?_
  simp only [bind_ok_iff, pure_ok_iff, Prod.mk.injEq] at h
  obtain ⟨-, -, -, rfl⟩ := h
  exact .refl _

/-! ### Effects -/

theorem keeps_quote {allocation : Allocation} {command : ProviderCommand} :
    Keeps (quote operation allocation command) := by
  unfold quote
  split
  · exact keeps_bind keeps_read fun _ => keeps_bind trivial fun _ =>
      keeps_bind (keeps_bind keeps_ask fun _ => trivial) fun _ =>
        keeps_bind (Prog.Writes.observe fun _ => .refl _) fun _ => trivial
  · exact keeps_pure

theorem keeps_journalEffect {allocation : Allocation} {command : ProviderCommand}
    {authorization : Authorization} :
    Keeps (journalEffect config operation allocation command authorization) := by
  refine keeps_bind keeps_quote fun _ => keeps_bind ?_ fun id => keeps_bind ?_ fun outcome =>
    keeps_bind (keeps_write fun _ _ _ _ h => .inl (updateAttempts_live h)) fun _ => ?_
  · refine keeps_transact fun env now journal a journal' h => ?_
    obtain ⟨account, stored, -, -, -, -, -, rfl⟩ := prepareAttempt_ok h
    exact .inl rfl
  · refine keeps_bind keeps_ask fun reply => ?_
    cases reply <;> exact trivial
  · refine keeps_transact fun env now journal a journal' h => ?_
    split at h
    · split at h
      · simp only [bind_ok_iff, pure_ok_iff, Prod.mk.injEq] at h
        obtain ⟨claimed, hclaim, -, rfl⟩ := h
        exact .inl (claimResource_live hclaim)
      · obtain ⟨-, rfl⟩ := Prod.mk.inj (pure_ok_iff.mp h)
        exact .refl _
    · obtain ⟨-, rfl⟩ := Prod.mk.inj (pure_ok_iff.mp h)
      exact .refl _

theorem keeps_claimMatches {kind : ResourceKind} {labels : Labels}
    {found : List (String × Labels)} {mismatch : Bool} :
    Keeps (claimMatches kind labels found mismatch) := by
  induction found generalizing mismatch with
  | nil => exact keeps_pure
  | cons entry rest ih =>
    obtain ⟨id, shown⟩ := entry
    rw [claimMatches]
    split
    · refine keeps_bind (Prog.Writes.tryCatch (keeps_bind keeps_claimNow fun _ => trivial)
        fun fault => ?_) fun _ => ih
      cases fault <;> exact trivial
    · exact ih

theorem keeps_discover {attempt : Attempt} {labels : Labels} : Keeps (discover attempt labels) := by
  refine keeps_bind keeps_search fun found => keeps_bind keeps_claimMatches fun mismatch => ?_
  split
  · exact keeps_pure
  · refine keeps_bind keeps_read fun journal => ?_
    split
    · exact keeps_pure
    · split <;> exact keeps_pure

theorem keeps_locate {attempt : Attempt} : Keeps (locate attempt) := by
  unfold locate
  split
  · exact keeps_pure
  · split
    · exact keeps_pure
    · refine keeps_bind keeps_getAction fun action => ?_
      split <;> exact keeps_pure
  · split <;> exact keeps_pure
  · split
    · exact keeps_discover
    · exact keeps_pure
    · exact keeps_pure

theorem keeps_vanished {recovering : Bool} {command : ProviderCommand} :
    Keeps (vanished recovering command) := by
  unfold vanished
  split
  · exact keeps_bind keeps_look fun _ => trivial
  · exact keeps_bind keeps_look fun _ => trivial
  · exact keeps_bind keeps_look fun _ => trivial
  · exact keeps_pure

theorem keeps_evaluate {recovering : Bool} {attempt : Attempt} {labels : Labels} :
    Keeps (evaluate recovering attempt labels) := by
  refine keeps_bind keeps_vanished fun gone => ?_
  split
  · exact keeps_pure
  · refine keeps_bind keeps_locate fun located => ?_
    split
    · exact keeps_pure
    · unfold observe
      split
      · exact keeps_bind keeps_getPrimaryIp fun _ => trivial
      · exact keeps_bind keeps_getServer fun _ => trivial

theorem keeps_settle {attempt : Attempt} {labels : Labels} {resolution : EffectResolution} :
    Keeps (Prog.tryCatch (settle attempt labels resolution) (unsettled operation.id)) := by
  refine Prog.Writes.tryCatch (keeps_write fun _ _ _ _ h => .inl (settleJournal_live h))
    fun fault => ?_
  cases fault with
  | other message => exact keeps_raise
  | cloud failure => exact keeps_blockMismatch

theorem keeps_resolveEffect {attempt : Attempt} {labels : Labels} :
    Keeps (resolveEffect operation attempt labels) := by
  unfold resolveEffect
  split
  · exact keeps_pure
  · refine keeps_bind keeps_read fun journal => keeps_bind trivial fun _ => keeps_bind ?_ ?_
    · refine Prog.Writes.tryCatch (keeps_bind keeps_evaluate fun _ => trivial) fun fault => ?_
      cases fault with
      | other message => exact keeps_raise
      | cloud failure =>
        show Keeps (if failure.code = .providerUnavailable then raise (.cloud failure) else _)
        split
        · exact keeps_raise
        · exact keeps_bind keeps_blockMismatch fun _ => keeps_pure
    · intro result
      split
      · exact keeps_pure
      · exact keeps_setProgress
      · exact keeps_settle
      · exact keeps_settle

/-! ### Ends -/

theorem failJournal_leaves {env : Env} {journal journal' : Journal} {error : Failure}
    {absent : Bool} (h : failJournal env journal operation error absent = .ok journal') :
    Leaves journal journal' := by
  by_cases habandon : operation.kind = .create ∧ absent = true
  · obtain ⟨hcreate, rfl⟩ := habandon
    exact .inr (.inr ⟨env, operation, error, hcreate, h⟩)
  · refine .inl ?_
    simp only [failJournal, bind_ok_iff] at h
    obtain ⟨updated, hupdate, h⟩ := h
    have hlive := updateOperation_live hupdate
    split at h
    · next hcreate =>
      rw [if_neg (fun habsent => habandon ⟨hcreate, habsent⟩)] at h
      obtain rfl := pure_ok_iff.mp h
      exact hlive
    · obtain rfl := pure_ok_iff.mp h
      exact hlive

theorem keeps_fail {error : Failure} {absent : Bool} : Keeps (fail operation error absent) :=
  keeps_write fun _ _ _ _ h => failJournal_leaves h

theorem completeTarget_leaves {env : Env} {journal journal' : Journal} {machine : MachineRow}
    {server : Option ProviderServer} {verification : Option GuestVerification}
    (h : completeTarget env journal operation machine server verification = .ok journal') :
    journal'.allocation.live = journal.allocation.live ∨ journal'.machine.state.stage = 4 := by
  unfold completeTarget at h
  split at h
  · refine .inr ?_
    simp only [completeDestroy, bind_ok_iff, pure_ok_iff] at h
    obtain ⟨-, -, -, -, updated, -, rfl⟩ := h
    rfl
  · refine .inl ?_
    simp only [bind_ok_iff] at h
    obtain ⟨found, -, h⟩ := h
    simp only [completeServer, updateAllocation, bind_ok_iff, pure_ok_iff] at h
    obtain ⟨stored, -, offer, -, updated, ⟨-, -, rfl⟩, rfl⟩ := h
    rfl

theorem completeJournal_leaves {env : Env} {now : Instant} {journal journal' : Journal}
    {machine : MachineRow} {server : Option ProviderServer}
    {verification : Option GuestVerification}
    (h : completeJournal env now journal operation machine server verification = .ok journal') :
    Leaves journal journal' := by
  simp only [completeJournal, bind_ok_iff] at h
  obtain ⟨passed, -, h⟩ := h
  split at h
  · obtain rfl := pure_ok_iff.mp h
    exact .refl _
  · exact .inl (writeProgress_live h)
  · simp only [bind_ok_iff] at h
    obtain ⟨-, -, ended, hended, hupdate⟩ := h
    rcases completeTarget_leaves hended with hlive | hdestroyed
    · exact .inl ((updateOperation_live hupdate).trans hlive)
    · exact .inr (.inl (by rw [updateOperation_machine hupdate]; exact hdestroyed))

theorem keeps_complete {work : Work} {server : Option ProviderServer}
    {verification : Option GuestVerification} : Keeps (complete work server verification) :=
  keeps_write fun _ _ _ _ h => completeJournal_leaves h

/-! ### A tick -/

theorem keeps_verifyRuntime {work : Work} : Keeps (verifyRuntime config work) := by
  unfold verifyRuntime
  split
  · refine keeps_bind (keeps_bind (Prog.Writes.observe fun _ => .refl _) fun expired => ?_)
      fun decision => ?_
    · split
      · exact keeps_raise
      · exact keeps_pure
      · exact keeps_bind keeps_ask fun _ => trivial
    · split
      · exact keeps_pure
      · exact keeps_setProgress
      · exact keeps_complete
  · exact keeps_setProgress

theorem keeps_ensureProviderBackups {work : Work} {server : ProviderServer} {offer : CatalogItem} :
    Keeps (ensureProviderBackups config work server offer) := by
  have hblocked : Keeps (do
      blockMismatch work.operation.id
      pure (none : Option ProviderServer)) := keeps_bind keeps_blockMismatch fun _ => trivial
  unfold ensureProviderBackups
  split
  · exact keeps_pure
  · refine keeps_bind keeps_getServer fun seen => ?_
    split
    · split
      · exact hblocked
      · split
        · exact keeps_pure
        · split
          · exact hblocked
          · exact keeps_bind keeps_journalEffect fun _ => trivial
    · exact hblocked

theorem keeps_beginFailure {work : Work} {error : Failure} : Keeps (beginFailure work error) := by
  unfold beginFailure
  split
  · dsimp only
    split
    · exact keeps_bind (keeps_write fun _ _ _ _ h => .inl (updateOperation_live h)) fun _ =>
        keeps_setProgress
    · exact keeps_fail
  · exact keeps_fail

theorem keeps_cleanupIpThen {work : Work} {rest : Program Unit} (h : Keeps rest) :
    Keeps (cleanupIpThen config work rest) := by
  refine keeps_bind ?_ fun clean => ?_
  · unfold cleanupIp
    split
    · exact keeps_pure
    · refine keeps_bind keeps_getPrimaryIp fun seen => ?_
      split
      · exact keeps_bind keeps_recordAbsenceNow fun _ => trivial
      · split
        · exact keeps_bind keeps_blockMismatch fun _ => trivial
        · split
          · exact keeps_bind keeps_setProgress fun _ => trivial
          · exact keeps_bind keeps_journalEffect fun _ => trivial
  · split
    · exact h
    · exact keeps_pure

theorem keeps_submitCreate {work : Work} {offer : CatalogItem} {image : Option String} :
    Keeps (submitCreate config work offer image) := by
  refine keeps_bind ?_ fun free => ?_
  · unfold checkAddress
    split
    · exact keeps_pure
    · exact keeps_raise
    · refine keeps_bind keeps_getPrimaryIp fun seen => ?_
      split
      · exact keeps_bind keeps_recordAbsenceNow fun _ => keeps_raise
      · split
        · exact keeps_bind keeps_blockMismatch fun _ => trivial
        · exact keeps_pure
  · split
    · refine keeps_bind ?_ fun _ => keeps_journalEffect
      unfold createCommand
      split
      · unfold guestCommand
        split
        · exact keeps_bind keeps_ask fun _ => keeps_bind trivial fun _ => trivial
        · exact keeps_raise
      · exact keeps_pure
    · exact keeps_pure

theorem keeps_advanceCreate {work : Work} : Keeps (advanceCreate config work) := by
  refine keeps_bind trivial fun offer => ?_
  split
  · refine keeps_bind ?_ fun image => ?_
    · unfold createImage
      split
      · split
        · exact keeps_bind keeps_ask fun _ => keeps_bind trivial fun _ => trivial
        · exact keeps_raise
      · exact keeps_pure
    · split
      · exact keeps_journalEffect
      · exact keeps_submitCreate
  · split
    · exact keeps_journalEffect
    · refine keeps_bind trivial fun server => keeps_bind keeps_ensureProviderBackups
        fun backedUp => ?_
      split
      · exact keeps_pure
      · split
        · exact keeps_bind (Prog.Writes.observe fun _ => .refl _) fun _ =>
            keeps_bind keeps_setProgress fun _ => keeps_verifyRuntime
        · exact keeps_complete

theorem keeps_finishAction {work : Work} {effect : Attempt} :
    Keeps (finishAction config work effect) := by
  unfold finishAction
  split
  · split
    · exact keeps_cleanupIpThen keeps_complete
    · split
      · split
        · exact keeps_bind keeps_setProgress fun _ => keeps_verifyRuntime
        · split
          · refine keeps_bind trivial fun offer => keeps_bind keeps_ensureProviderBackups
              fun verified => ?_
            split
            · exact keeps_pure
            · exact keeps_complete
          · exact keeps_complete
      · exact keeps_raise
  · exact keeps_raise

theorem keeps_submitAction {work : Work} : Keeps (submitAction config work) := by
  unfold submitAction
  split
  · refine keeps_bind keeps_getServer fun seen => ?_
    split
    · unfold submitOwned
      split
      · exact keeps_blockMismatch
      · exact keeps_bind trivial fun _ => keeps_journalEffect
    · split
      · exact keeps_recordAbsenceNow
      · exact keeps_raise
  · exact keeps_raise

theorem keeps_advanceWork {work : Work} : Keeps (advanceWork config work) := by
  unfold advanceWork
  split
  · exact keeps_resolveEffect
  · unfold advanceSettled
    split
    · exact keeps_cleanupIpThen keeps_fail
    · split
      · unfold afterFailure
        split
        · exact keeps_cleanupIpThen keeps_complete
        · exact keeps_beginFailure
      · refine Prog.Writes.tryCatch ?_ fun fault => ?_
        · split
          · exact keeps_advanceCreate
          · unfold advanceAction
            split
            · exact keeps_cleanupIpThen keeps_complete
            · split
              · exact keeps_finishAction
              · exact keeps_submitAction
        · unfold recoverFailure
          split
          · exact keeps_raise
          · split
            · exact keeps_pure
            · refine keeps_bind keeps_read fun journal => ?_
              split
              · exact keeps_blockMismatch
              · exact keeps_beginFailure

/-! ### A cleanup -/

theorem keeps_deleteTarget {work : CleanupWork} {allocation : Allocation} {history : List Attempt}
    {ref : ResourceRef} : Keeps (deleteTarget config work allocation history ref) := by
  refine keeps_bind ?_ fun done => ?_
  · unfold actionOver
    split
    · exact keeps_pure
    · exact keeps_bind keeps_getAction fun _ => trivial
  · split
    · refine keeps_bind (Prog.Writes.observe fun _ => .refl _) fun decision => ?_
      split
      · exact keeps_pure
      · exact keeps_setProgress
      · exact keeps_journalEffect
    · exact keeps_pure

theorem keeps_cleanServer {work : CleanupWork} {journal : Journal} {history : List Attempt}
    {row : OwnedResource} : Keeps (cleanServer config work journal history row) := by
  have hblocked : Keeps (do
      blockMismatch work.operation.id
      pure false) := keeps_bind keeps_blockMismatch fun _ => trivial
  refine keeps_bind keeps_getServer fun seen => ?_
  split
  · exact keeps_recordAbsenceNow
  · split
    · exact keeps_blockMismatch
    · refine keeps_bind ?_ fun free => ?_
      · unfold checkAttached
        split
        · exact keeps_pure
        · refine keeps_bind keeps_getPrimaryIp fun ip => ?_
          split
          · split
            · exact hblocked
            · exact keeps_pure
          · exact hblocked
      · split
        · exact keeps_deleteTarget
        · exact keeps_pure

theorem keeps_cleanIp {work : CleanupWork} {journal : Journal} {history : List Attempt}
    {row : OwnedResource} : Keeps (cleanIp config work journal history row) := by
  refine keeps_bind keeps_getPrimaryIp fun seen => ?_
  split
  · exact keeps_recordAbsenceNow
  · split
    · exact keeps_blockMismatch
    · split
      · exact keeps_setProgress
      · exact keeps_deleteTarget

theorem keeps_retire : Keeps (retire operation) := by
  refine keeps_write fun env now journal journal' h => .inr (.inl ?_)
  simp only [retireJournal, updateAllocation, bind_ok_iff, pure_ok_iff] at h
  obtain ⟨retired, ⟨-, -, rfl⟩, hupdate⟩ := h
  rw [updateOperation_machine hupdate]
  rfl

theorem keeps_resolvePending {work : CleanupWork} {journal : Journal} {attempts : List Attempt} :
    Keeps (resolvePending work journal attempts) := by
  induction attempts with
  | nil => exact keeps_pure
  | cons attempt rest ih =>
    exact keeps_bind trivial fun _ => keeps_bind keeps_resolveEffect fun _ => ih

theorem keeps_advanceCleanup {journal : Journal} :
    Keeps (advanceCleanup config operation journal) := by
  refine Prog.Writes.tryCatch (keeps_bind trivial fun cleanup =>
    keeps_bind keeps_resolvePending fun _ => keeps_bind keeps_read fun current => ?_)
    fun fault => ?_
  · unfold finishCleanup
    split
    · unfold cleanTarget
      split
      · exact keeps_cleanServer
      · exact keeps_cleanIp
    · split
      · exact keeps_pure
      · exact keeps_retire
  · unfold recoverCleanup
    split
    · exact keeps_raise
    · split
      · exact keeps_pure
      · exact keeps_blockMismatch

theorem keeps_advanceLocked {id : OperationId} : Keeps (advanceLocked config id) := by
  refine keeps_bind keeps_read fun journal => ?_
  split
  · exact keeps_pure
  · split
    · exact keeps_pure
    · refine keeps_bind trivial fun _ => keeps_bind trivial fun _ => ?_
      split
      · exact keeps_advanceCleanup
      · exact keeps_advanceWork

/-! ### Requests -/

theorem cleanupJournal_live {env : Env} {now : Instant} {journal journal' : Journal}
    {grantId : GrantId} {version : Nat} {allowDataLoss : Bool} {row : OperationRow}
    (h : cleanupJournal env now journal grantId version allowDataLoss = .ok (row, journal')) :
    journal'.allocation.live = journal.allocation.live := by
  simp only [cleanupJournal, openCleanup, bind_ok_iff] at h
  obtain ⟨authority, -, -, -, -, -, -, -, -, -, source, -, h⟩ := h
  split at h
  · obtain ⟨-, rfl⟩ := Prod.mk.inj (pure_ok_iff.mp h)
    rfl
  · simp only [startCleanup, bind_ok_iff, pure_ok_iff, Prod.mk.injEq] at h
    obtain ⟨⟨placed, journal₁⟩, hplace, journal₂, hinsert, -, rfl⟩ := h
    have hcleanup : journal₂.allocation = journal₁.allocation := by
      simp only [insertCleanup, bind_ok_iff, pure_ok_iff] at hinsert
      obtain ⟨-, -, -, -, rfl⟩ := hinsert
      rfl
    have hplaced : journal₁.allocation.live = journal.allocation.live := by
      unfold placeCleanup at hplace
      split at hplace
      · simp only [bind_ok_iff, pure_ok_iff, Prod.mk.injEq] at hplace
        obtain ⟨updated, hupdate, -, rfl⟩ := hplace
        exact updateOperation_live hupdate
      · simp only [insertOperation, bind_ok_iff, pure_ok_iff, Prod.mk.injEq] at hplace
        obtain ⟨updated, ⟨-, -, rfl⟩, -, rfl⟩ := hplace
        rfl
    show journal₂.allocation.live = journal.allocation.live
    rw [hcleanup]
    exact hplaced

theorem keeps_admitCleanup {grantId : GrantId} {version : Nat} {allowDataLoss : Bool} :
    Keeps (admitCleanup grantId version allowDataLoss) := by
  refine keeps_transact fun env now journal a journal' h => ?_
  simp only [bind_ok_iff, pure_ok_iff, Prod.mk.injEq] at h
  obtain ⟨⟨row, admitted⟩, hadmit, -, rfl⟩ := h
  exact .inl (cleanupJournal_live hadmit)

theorem keeps_claimUnknown {current : Snapshot} {kind : ResourceKind} {labels : Labels}
    {found : List (String × Labels)} {mismatch : Bool} :
    Keeps (claimUnknown current kind labels found mismatch) := by
  induction found generalizing mismatch with
  | nil => exact keeps_pure
  | cons entry rest ih =>
    obtain ⟨id, shown⟩ := entry
    rw [claimUnknown]
    split
    · split
      · exact ih
      · refine keeps_bind (Prog.Writes.tryCatch (keeps_bind keeps_claimNow fun _ => trivial)
          fun fault => ?_) fun _ => ih
        cases fault <;> exact trivial
    · exact ih

theorem keeps_confirmSources {rows : List OwnedResource} : Keeps (confirmSources rows) := by
  induction rows with
  | nil => exact keeps_pure
  | cons row rest ih => exact keeps_bind keeps_look fun _ => keeps_bind trivial fun _ => ih

theorem keeps_checkDecision {request : OperatorRecovery} {current : Snapshot} {target : Attempt} :
    Keeps (checkDecision request current target) := by
  unfold checkDecision
  split
  · exact keeps_bind trivial fun _ => keeps_bind keeps_search fun _ =>
      keeps_bind keeps_claimUnknown fun _ => keeps_bind keeps_read fun _ =>
        keeps_bind trivial fun _ => keeps_bind trivial fun _ => keeps_bind trivial fun _ =>
          keeps_bind trivial fun _ => keeps_confirmSources
  · refine keeps_bind keeps_read fun journal => keeps_bind trivial fun ref =>
      keeps_bind keeps_look fun seen => keeps_bind trivial fun _ => ?_
    split
    · exact keeps_pure
    · exact keeps_bind keeps_getAction fun _ => trivial

theorem recordRecovery_live {env : Env} {journal journal' : Journal} {request : OperatorRecovery}
    {target : Attempt} (h : recordRecovery env journal request target = .ok journal') :
    journal'.allocation.live = journal.allocation.live := by
  simp only [recordRecovery, insertRecovery, bind_ok_iff, pure_ok_iff] at h
  obtain ⟨current, -, -, -, inserted, ⟨-, -, -, -, rfl⟩, h⟩ := h
  split at h
  · obtain rfl := pure_ok_iff.mp h
    rfl
  · have hlive := updateAttempts_live h
    exact hlive

theorem keeps_applyRecovery {provider : ProviderKind} {request : OperatorRecovery} :
    Keeps (applyRecovery provider request) := by
  refine keeps_bind keeps_read fun journal => ?_
  split
  · exact trivial
  · exact keeps_bind trivial fun current => keeps_bind trivial fun target =>
      keeps_bind keeps_checkDecision fun _ =>
        keeps_write fun _ _ _ _ h => .inl (recordRecovery_live h)

theorem keeps_handoffRuntime {id : OperationId} : Keeps (handoffRuntime id) := by
  refine keeps_write fun env now journal journal' h => .inl ?_
  unfold handoffJournal at h
  split at h
  · obtain rfl := pure_ok_iff.mp h
    rfl
  · split at h
    · exact updateOperation_live h
    · obtain rfl := pure_ok_iff.mp h
      rfl

theorem closeJournal_stage {env : Env} {now : Instant} {journal journal' : Journal}
    {request : CloseRequest} {kind : OperationKind}
    (h : closeJournal env now journal request kind = .ok journal') :
    journal'.machine.state.stage = 4 := by
  simp only [closeJournal, bind_ok_iff] at h
  obtain ⟨closed, -, retired, -, hupdate⟩ := h
  rw [updateOperation_machine hupdate]
  rfl

theorem keeps_confirmGone {refs : List ResourceRef} : Keeps (confirmGone refs) := by
  induction refs with
  | nil => exact keeps_pure
  | cons ref rest ih => exact keeps_bind keeps_look fun _ => keeps_bind trivial fun _ => ih

theorem keeps_closeOperation {provider : ProviderKind} {request : CloseRequest} :
    Keeps (closeOperation provider request) := by
  refine keeps_bind keeps_read fun journal => keeps_bind trivial fun row => keeps_bind
    (keeps_bind keeps_search fun _ => keeps_bind keeps_search fun _ => trivial) fun _ =>
    keeps_bind keeps_confirmGone fun _ => ?_
  refine keeps_transact fun env now journal a journal' h => ?_
  simp only [bind_ok_iff, pure_ok_iff, Prod.mk.injEq] at h
  obtain ⟨-, -, closed, hclose, -, rfl⟩ := h
  exact .inr (.inl (closeJournal_stage hclose))

/-- Whatever may be started keeps to it. -/
theorem keeps_job {offline : Bool} {p : Program Unit} (job : Job offline p) : Keeps p := by
  cases job with
  | tick => exact keeps_advanceLocked
  | destroy => exact keeps_admitCleanup
  | recover => exact keeps_applyRecovery
  | handoff => exact keeps_handoffRuntime
  | close => exact keeps_closeOperation

end Programs

/-! ## Every run -/

variable {A : Replies} {offline : Bool}

/-- Where the allocation is retired, no operation goes on and none can begin: the machine and its
    allocation stay as they are. -/
theorem frozen {machine : MachineRow} {c c' : Machine}
    (hin : Discipline.InOrder (contract A) c)
    (hc : c.world.store.journal.allocation.live = false ∧ c.world.store.journal.machine = machine)
    (hreach : (system A offline).Reach c c') :
    c'.world.store.journal.allocation.live = false ∧ c'.world.store.journal.machine = machine := by
  refine run_rows (P := fun j => j.allocation.live = false ∧ j.machine = machine) ?_ ?_ hin hc
    hreach
  · intro log clock journal journal' hs hj change
    cases change with
    | progress | prepare | outcome | claim | absent | settle | compensate | granted | closure =>
      exact hj
    | bind active => exact (hs.not_retired active hj.1).elim
    | failed active => exact (hs.not_retired active hj.1).elim
    | completed active => exact (hs.not_retired active hj.1).elim
    | cleaned active => exact (hs.not_retired active hj.1).elim
    | takeover active => exact (hs.not_retired active hj.1).elim
    | controlClosed active => exact (hs.not_retired active hj.1).elim
    | opened _ _ _ live =>
      rw [hj.1] at live
      cases live
  · intro limits catalog env account principal command operation journal journal' _ hj action ok
    have hlive := (admission_of_ok action ok).live
    rw [hj.1] at hlive
    cases hlive

theorem Abandons.retired {old new : Journal} (h : Abandons old new) :
    new.allocation.live = false ∧ named new.machine.state = true := by
  obtain ⟨env, operation, error, hcreate, hfail⟩ := h
  simp only [failJournal, if_pos hcreate, updateAllocation, bind_ok_iff, if_true,
    pure_ok_iff] at hfail
  obtain ⟨updated, -, -, -, rfl⟩ := hfail
  refine ⟨?_, rfl⟩
  show Allocation.live (Allocation.retire env.date updated.allocation) = false
  unfold Allocation.retire
  split
  · rfl
  · next hlive => exact Bool.eq_false_iff.mpr hlive

/-- A step in which no create is abandoned. -/
def Spares (A : Replies) (offline : Bool) (c c' : Machine) : Prop :=
  (system A offline).Step c c' ∧ ¬ Abandons c.world.store.journal c'.world.store.journal

/-- A retired allocation has a machine that is gone, and whatever runs keeps to `Leaves`. -/
structure Gone (A : Replies) (c : Machine) : Prop where
  inOrder : Discipline.InOrder (contract A) c
  writes : c.Writes fun store store' : Store => Leaves store.journal store'.journal
  destroyed : c.world.store.journal.allocation.live = false →
    c.world.store.journal.machine.state.stage = 4

/-- **Step lemma.**  A step that abandons no create retires an allocation only with its machine. -/
theorem Gone.step {c c' : Machine} (h : Gone A c) (hstep : Spares A offline c c') : Gone A c' := by
  obtain ⟨hstep, hspared⟩ := hstep
  obtain ⟨hwrites, hwrote⟩ := hstep.writes (fun _ _ job => keeps_job job) h.writes
  refine ⟨(disciplined A offline).inOrder h.inOrder (.single hstep), hwrites, fun hretired => ?_⟩
  cases hlive : c.world.store.journal.allocation.live with
  | false =>
    obtain ⟨-, hsame⟩ := frozen h.inOrder ⟨hlive, rfl⟩
      (Relation.ReflTransGen.single hstep : (system A offline).Reach c c')
    rw [hsame]
    exact h.destroyed hlive
  | true =>
    rcases hwrote with hsame | hleaves | hother
    · rw [hsame, hlive] at hretired
      cases hretired
    · rcases hleaves with hsame | hdestroyed | habandons
      · rw [hretired, hlive] at hsame
        cases hsame
      · exact hdestroyed
      · exact absurd habandons hspared
    · exfalso
      generalize c'.world = w' at hother hretired
      cases (show Drift c.world w' from hother) with
      | time clock later =>
        rw [show (c.world.put { c.world.store with clock }).store.journal =
          c.world.store.journal from rfl, hlive] at hretired
        cases hretired
      | admitted limits catalog env account principal command action operation journal ok =>
        obtain ⟨hourlyMicros, version, heq⟩ := (admission_of_ok action ok).eq
        rw [show (c.world.put (c.world.store.write journal)).store.journal = journal from rfl,
          heq] at hretired
        exact Bool.false_ne_true (hretired.symm.trans hlive)

theorem Initial.gone {w : World interface} (h : Initial w) : Gone A (.idle w) where
  inOrder := Discipline.inOrder_idle h.valid
  writes := .idle
  destroyed hretired := by
    obtain ⟨machineId, allocationId, operationId, principal, projectId, spec, catalog, offer, date,
      profile, -, heq⟩ := h.born.born
    rw [show (Config.idle w : Machine).world.store.journal = w.store.journal from rfl, heq]
      at hretired
    cases hretired

/-- **Run lemma.**  In a run that abandons no create, a retired allocation has no machine. -/
theorem Gone.run {c c' : Machine} (h : Gone A c)
    (hreach : Relation.ReflTransGen (Spares A offline) c c') : Gone A c' := by
  induction hreach with
  | refl => exact h
  | tail _ hstep ih => exact ih.step hstep

/-- Every run abandons no create, or has left a machine that keeps its name. -/
theorem spared_or_named {w : World interface} (initial : Initial w) {c : Machine}
    (hreach : (system anyReply offline).Reach (.idle w) c) :
    Relation.ReflTransGen (Spares anyReply offline) (.idle w) c ∨
      c.world.store.journal.allocation.live = false ∧
        named c.world.store.journal.machine.state = true := by
  induction hreach with
  | refl => exact .inl .refl
  | @tail b c hbefore hstep ih =>
    rcases ih with hspared | hnamed
    · by_cases habandons : Abandons b.world.store.journal c.world.store.journal
      · exact .inr habandons.retired
      · exact .inl (hspared.tail ⟨hstep, habandons⟩)
    · obtain ⟨hlive, hsame⟩ := frozen (initial.inOrder hbefore) ⟨hnamed.1, rfl⟩
        (Relation.ReflTransGen.single hstep : (system anyReply offline).Reach b c)
      refine .inr ⟨hlive, ?_⟩
      rw [hsame]
      exact hnamed.2

/-- In every run that abandons no create, the machine of a retired allocation is counted by no name
    check; after a create is abandoned, its name is refused in every later state. -/
theorem names_released {w : World interface} (initial : Initial w) :
    (∀ c, Relation.ReflTransGen (Spares anyReply offline) (.idle w) c →
      c.world.store.journal.allocation.live = false →
      ∀ before after projectId name,
        checkName (before ++ c.world.store.journal.machine :: after) projectId name =
          checkName (before ++ after) projectId name) ∧
    ∀ c c' later, (system anyReply offline).Reach (.idle w) c →
      (system anyReply offline).Step c c' →
      Abandons c.world.store.journal c'.world.store.journal →
      (system anyReply offline).Reach c' later →
      later.world.store.journal.allocation.live = false ∧
      ∀ provider limits catalog env projects machines account principal spec machineId allocationId,
        later.world.store.journal.machine ∈ machines →
        spec.name = later.world.store.journal.machine.spec.name →
        (admitCreate provider limits catalog env projects machines account principal
          later.world.store.journal.machine.projectId spec machineId allocationId).isOk = false := by
  constructor
  · intro c hreach hretired before after projectId name
    have hgone := (initial.gone.run hreach).destroyed hretired
    refine checkName_free ?_
    have hnamed : named c.world.store.journal.machine.state = false := by
      cases h : named c.world.store.journal.machine.state with
      | false => rfl
      | true => exact absurd hgone (named_iff.mp h)
    simp [MachineRow.holds, hnamed]
  · intro c c' later hreach hstep habandons hlater
    obtain ⟨hretired, hnamed⟩ := habandons.retired
    have hin := initial.inOrder (hreach.tail hstep)
    obtain ⟨hlive, hsame⟩ := frozen hin ⟨hretired, rfl⟩ hlater
    refine ⟨hlive, fun provider limits catalog env projects machines account principal spec
      machineId allocationId hm hname => admitCreate_held hm ?_⟩
    simp [MachineRow.holds, hname, hsame, hnamed]

/-! ## A create without capacity -/

namespace Demo

/-- The offer has sold out since the create was admitted. -/
def soldOut (w : World interface) : (c : Call) → c.Reply
  | .getCatalog => .ok ⟨.simulated, 0, 1000000, [{ offer with available := false }], by simp [offer]⟩
  | c => reply w c

def failedCreate : World interface := ((advanceLocked config "create").run env soldOut start).2

theorem failedCreate_reached :
    (system anyReply true).Reach (.idle start) (.idle failedCreate) :=
  System.reach_job _ () env soldOut (fun _ _ => trivial) _ start (.tick true config "create")

theorem failedCreate_rows : failedCreate.store.journal.allocation.live = false ∧
    named failedCreate.store.journal.machine.state = true ∧
    failedCreate.store.journal.resources = [] := by
  decide +kernel

/-- A create that found no capacity has nothing left, and no request ever frees its name. -/
theorem name_kept : ∃ w c, Initial w ∧ (system anyReply true).Reach (.idle w) c ∧
    c.world.store.journal.allocation.live = false ∧
    ∀ later, (system anyReply true).Reach c later → ∀ others, ∃ fault,
      checkName (later.world.store.journal.machine :: others)
        later.world.store.journal.machine.projectId
        later.world.store.journal.machine.spec.name = .error fault := by
  refine ⟨start, .idle failedCreate, start_initial, failedCreate_reached, failedCreate_rows.1, ?_⟩
  intro later hlater others
  have hin := start_initial.inOrder failedCreate_reached
  obtain ⟨-, hsame⟩ := frozen hin ⟨failedCreate_rows.1, rfl⟩ hlater
  refine ⟨cloudError .resourceBusy "A live machine already has this name.", ?_⟩
  have hnamed := failedCreate_rows.2.1
  simp only [checkName, refuse, List.any_cons, MachineRow.holds, hsame]
  simp [show named (Config.idle failedCreate : Machine).world.store.journal.machine.state = true
    from hnamed]

theorem destroyed_rows : destroyed.store.journal.allocation.live = false ∧
    named destroyed.store.journal.machine.state = false := by
  decide +kernel

/-- A run that destroys its machine abandons nothing, and the name is free. -/
theorem destroyed_released : checkName [destroyed.store.journal.machine] "proj" "web" =
    checkName [] "proj" "web" := by
  have hspared : Relation.ReflTransGen (Spares anyReply true) (.idle start) (.idle destroyed) := by
    rcases spared_or_named start_initial (destroyed_reached true) with hspared | ⟨-, hnamed⟩
    · exact hspared
    · exact absurd (hnamed.symm.trans destroyed_rows.2) (by decide)
  exact (names_released start_initial).1 (.idle destroyed) hspared destroyed_rows.1 [] [] "proj" "web"

end Demo

end AgentCloud.Lifecycle
