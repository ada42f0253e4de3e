/-
  IDEMPOTENCY: a key stands for one request and one operation, forever.

  The two admissions share the keys.  Both look for the key before they look at the state of the
  machine, its version or the budget, so a replay is answered whatever happened since; and both insert
  the key in the transaction that inserts the operation, so no operation is lost or doubled.

  `Fleet.Recorded` is the invariant: what was answered is what is recorded, a recorded key has its
  operation on the machine or in the project that its scope names.
-/
import AgentCloud.Lifecycle.FleetOrder

namespace AgentCloud.Lifecycle

open Checked Durable

/-! ## What is recorded -/

/-- The machine is the one, or in the project, that the scope names. -/
def Scope.Names : Scope → World interface → Prop
  | machines projectId, world => world.store.journal.machine.projectId = projectId
  | actions machineId, world => machineIdOf world = machineId

/-- The operation of a key is there. -/
def Stored (machines : List (World interface)) (row : IdempotencyRow) : Prop :=
  ∃ world ∈ machines, world.store.journal.machine.accountId = row.accountId ∧
    (world.store.journal.operation row.operationId).isSome = true ∧ row.scope.Names world

structure Fleet.Recorded (fleet : Fleet) : Prop where
  unique : ∀ row ∈ fleet.tables.keys, ∀ other ∈ fleet.tables.keys, row.accountId = other.accountId →
    row.scope = other.scope → row.key = other.key → row = other
  answered : ∀ answer ∈ fleet.answers, answer ∈ fleet.tables.keys
  stored : ∀ row ∈ fleet.tables.keys, Stored fleet.tables.machines row

variable {setting : Setting} {A : Replies} {offline : Bool} {fleet fleet' : Fleet}
  {tables : Tables} {machines before after : List (World interface)} {world world' : World interface}
  {row : IdempotencyRow}

theorem Scope.Names.turned {scope : Scope} (h : scope.Names world)
    (hid : machineIdOf world' = machineIdOf world)
    (hproject : world'.store.journal.machine.projectId = world.store.journal.machine.projectId) :
    scope.Names world' := by
  cases scope with
  | machines projectId => exact hproject.trans h
  | actions machineId => exact hid.trans h

theorem Stored.turned (h : Stored (before ++ world :: after) row)
    (hid : machineIdOf world' = machineIdOf world)
    (haccount : world'.store.journal.machine.accountId = world.store.journal.machine.accountId)
    (hproject : world'.store.journal.machine.projectId = world.store.journal.machine.projectId)
    (hkept : Remembers world.store.journal world'.store.journal) :
    Stored (before ++ world' :: after) row := by
  obtain ⟨found, hm, howner, hthere, hscope⟩ := h
  simp only [List.mem_append, List.mem_cons] at hm
  rcases hm with hm | rfl | hm
  · exact ⟨found, by simp [hm], howner, hthere, hscope⟩
  · exact ⟨world', by simp, haccount.trans howner, hkept _ hthere, hscope.turned hid hproject⟩
  · exact ⟨found, by simp [hm], howner, hthere, hscope⟩

theorem Stored.more (h : Stored machines row) : Stored (machines ++ [world]) row := by
  obtain ⟨found, hm, hrest⟩ := h
  exact ⟨found, List.mem_append_left _ hm, hrest⟩

/-- The lookup of a stored operation finds it. -/
theorem stored_some (h : Stored tables.machines row) :
    ∃ projectId operation, tables.stored row.operationId row.accountId = some (projectId, operation) ∧
      operation.id = row.operationId := by
  obtain ⟨world, hm, howner, hthere, -⟩ := h
  cases hstored : tables.stored row.operationId row.accountId with
  | none =>
    have hnone := List.findSome?_eq_none_iff.mp hstored world hm
    rw [if_pos howner] at hnone
    cases hget : world.store.journal.operation row.operationId with
    | none =>
      rw [hget] at hthere
      cases hthere
    | some operation =>
      rw [hget] at hnone
      cases hnone
  | some found =>
    obtain ⟨projectId, operation⟩ := found
    obtain ⟨other, -, hfound⟩ := List.exists_of_findSome?_eq_some hstored
    split at hfound
    · obtain ⟨there, hget, hpair⟩ := Option.map_eq_some_iff.mp hfound
      obtain ⟨-, rfl⟩ := Prod.mk.inj hpair
      exact ⟨projectId, there, rfl, Table.get_key hget⟩
    · cases hfound

theorem previous_mem {accountId : AccountId} {scope : Scope} {key : String}
    (h : tables.previous accountId scope key = some row) :
    row ∈ tables.keys ∧ row.accountId = accountId ∧ row.scope = scope ∧ row.key = key := by
  have hp := List.find?_some h
  simp only [decide_eq_true_eq] at hp
  exact ⟨List.mem_of_find?_eq_some h, hp⟩

theorem previous_none {accountId : AccountId} {scope : Scope} {key : String}
    (h : tables.previous accountId scope key = none) :
    ∀ row ∈ tables.keys, row.accountId = accountId → row.scope = scope → row.key = key → False := by
  intro row hm haccount hscope hkey
  have hnot := List.find?_eq_none.mp h row hm
  simp only [decide_eq_true_eq] at hnot
  exact hnot ⟨haccount, hscope, hkey⟩

theorem Fleet.Recorded.previous (h : fleet.Recorded) (hm : row ∈ fleet.tables.keys) :
    fleet.tables.previous row.accountId row.scope row.key = some row := by
  cases hprevious : fleet.tables.previous row.accountId row.scope row.key with
  | none => exact (previous_none hprevious row hm rfl rfl rfl).elim
  | some other =>
    obtain ⟨ho, haccount, hscope, hkey⟩ := previous_mem hprevious
    rw [h.unique other ho row hm haccount hscope hkey]

theorem replay_ok {accountId : AccountId} {request : LifecycleCommand} {previous : IdempotencyRow}
    {projectId : ProjectId} {operation : OperationRow}
    (h : replay tables accountId request previous = .ok (projectId, operation)) :
    previous.request = request ∧ operation.id = previous.operationId := by
  simp only [replay, bind_ok_iff, refuse_ok_iff, present_ok_iff, not_not] at h
  obtain ⟨-, hrequest, hstored⟩ := h
  obtain ⟨other, -, hfound⟩ := List.exists_of_findSome?_eq_some hstored
  split at hfound
  · obtain ⟨there, hget, hpair⟩ := Option.map_eq_some_iff.mp hfound
    obtain ⟨-, rfl⟩ := Prod.mk.inj hpair
    exact ⟨hrequest, Table.get_key hget⟩
  · cases hfound

/-! ## Every step -/

/-- A new key, with its operation in place. -/
theorem Fleet.Recorded.insert (h : fleet.Recorded)
    (hnew : fleet.tables.previous row.accountId row.scope row.key = none)
    (hkept : ∀ other ∈ fleet.tables.keys, Stored machines other) (hstored : Stored machines row)
    {running : MachineId → Option (Program Unit)} {admitting : Option Tally} :
    (⟨⟨machines, fleet.tables.keys ++ [row]⟩, running, admitting, fleet.answers ++ [row]⟩ :
      Fleet).Recorded where
  unique := by
    have hclash := previous_none hnew
    intro a ha b hb haccount hscope hkey
    rcases List.mem_append.mp ha with hold | hrow
    · rcases List.mem_append.mp hb with hold' | hrow'
      · exact h.unique a hold b hold' haccount hscope hkey
      · obtain rfl := List.mem_singleton.mp hrow'
        exact (hclash a hold haccount hscope hkey).elim
    · obtain rfl := List.mem_singleton.mp hrow
      rcases List.mem_append.mp hb with hold' | hrow'
      · exact (hclash b hold' haccount.symm hscope.symm hkey.symm).elim
      · exact (List.mem_singleton.mp hrow').symm
  answered := by
    intro answer ha
    rcases List.mem_append.mp ha with ha | ha
    · exact List.mem_append_left _ (h.answered answer ha)
    · exact List.mem_append_right _ ha
  stored := by
    intro other ho
    rcases List.mem_append.mp ho with ho | ho
    · exact hkept other ho
    · exact List.mem_singleton.mp ho ▸ hstored

/-- A replay answers what is recorded. -/
theorem Fleet.Recorded.repeated (h : fleet.Recorded) (hm : row ∈ fleet.tables.keys)
    {admitting : Option Tally} :
    ({ fleet with admitting, answers := fleet.answers ++ [row] } : Fleet).Recorded where
  unique := h.unique
  answered := by
    intro answer ha
    rcases List.mem_append.mp ha with ha | ha
    · exact h.answered answer ha
    · exact List.mem_singleton.mp ha ▸ hm
  stored := h.stored

theorem isSome_append {operations : List OperationRow} {id : OperationId} (new : OperationRow)
    (h : (Table.get OperationRow.id operations id).isSome = true) :
    (Table.get OperationRow.id (operations ++ [new]) id).isSome = true := by
  rw [Table.get_append]
  cases hget : Table.get OperationRow.id operations id with
  | none =>
    rw [hget] at h
    cases h
  | some row => rfl

theorem Admission.remembers {journal journal' : Journal} {operation : OperationRow}
    (h : Admission journal journal' operation) : Remembers journal journal' := by
  obtain ⟨hourlyMicros, version, rfl⟩ := h.eq
  exact fun id hid => isSome_append operation hid

theorem Admission.inserted {journal journal' : Journal} {operation : OperationRow}
    (h : Admission journal journal' operation) : (journal'.operation operation.id).isSome = true := by
  have hfresh : Table.get OperationRow.id journal.operations operation.id = none := h.fresh
  obtain ⟨hourlyMicros, version, rfl⟩ := h.eq
  show (Table.get OperationRow.id (journal.operations ++ [operation]) operation.id).isSome = true
  rw [Table.get_append, hfresh, if_pos rfl]
  rfl

theorem admitAction_account {limits : Limits} {catalog : Catalog} {env : Env} {journal journal' : Journal}
    {account : Account} {principal : Principal} {command : LifecycleCommand} {operation : OperationRow}
    (h : admitAction limits catalog env journal account principal command = .ok (operation, journal')) :
    journal.machine.accountId = principal.accountId := by
  simp only [admitAction, bind_ok_iff, refuse_ok_iff, not_not] at h
  obtain ⟨-, haccount, -⟩ := h
  exact haccount

theorem openCleanup_inserted {env : Env} {clock : Instant} {journal journal' : Journal}
    {grantId : GrantId} {expectedVersion : Nat} {operation : OperationRow} (hs : Sound journal)
    (h : openCleanup env clock journal grantId expectedVersion = .ok (operation, journal')) :
    (journal'.operation operation.id).isSome = true := by
  simp only [openCleanup, bind_ok_iff, refuse_ok_iff, present_ok_iff] at h
  obtain ⟨-, -, -, -, -, -, source, -, h⟩ := h
  have hactive : ∀ row, journal.active = some row →
      (Table.get OperationRow.id journal.operations row.id).isSome = true := by
    intro row hrow
    rw [hs.operations.keyed.get (Journal.active_eq_some hrow).mem]
    rfl
  split at h
  next joined hjoined =>
    obtain ⟨rfl, rfl⟩ := Prod.mk.inj (pure_ok_iff.mp h)
    exact hactive joined (Option.filter_eq_some_iff.mp hjoined).1
  next =>
    simp only [startCleanup, insertCleanup, bind_ok_iff, refuse_ok_iff, pure_ok_iff] at h
    obtain ⟨⟨placed, j⟩, hplace, inserted, ⟨-, -, -, -, rfl⟩, hpair⟩ := h
    obtain ⟨rfl, rfl⟩ := Prod.mk.inj hpair
    unfold placeCleanup at hplace
    split at hplace
    next create hcreate =>
      simp only [bind_ok_iff, pure_ok_iff] at hplace
      obtain ⟨updated, hupdate, hpair⟩ := hplace
      obtain ⟨rfl, rfl⟩ := Prod.mk.inj hpair
      rcases updateOperation_ok hupdate with ⟨-, rfl⟩ | ⟨row, -, -, rfl⟩
      · exact hactive create hcreate
      · refine isSome_get_update ?_ (hactive create hcreate)
        intro row
        rfl
    next =>
      simp only [insertOperation, bind_ok_iff, refuse_ok_iff, pure_ok_iff] at hplace
      obtain ⟨written, ⟨-, -, rfl⟩, hpair⟩ := hplace
      obtain ⟨rfl, rfl⟩ := Prod.mk.inj hpair
      show (Table.get OperationRow.id (journal.operations ++ [_]) _).isSome = true
      rw [Table.get_append, if_pos rfl]
      cases Table.get OperationRow.id journal.operations env.id <;> rfl

/-- **Step lemma.** -/
theorem Fleet.Step.recorded (ho : fleet.Ordered A) (h : fleet.Recorded)
    (step : Fleet.Step setting A offline fleet fleet') : fleet'.Recorded := by
  cases step with
  | @works before after world here machine step anchored unique =>
    have hmem : world ∈ fleet.tables.machines := by rw [here]; simp
    obtain ⟨-, hturned⟩ := works_turned (ho.machines world hmem) step
    refine ⟨h.unique, h.answered, fun row hrow => ?_⟩
    have hstored : Stored (before ++ world :: after) row := here ▸ h.stored row hrow
    exact hstored.turned anchored.id anchored.accountId anchored.projectId hturned.remembers
  | locks free => exact ⟨h.unique, h.answered, h.stored⟩
  | admitted locked reads caller genuine request key operation tables ok =>
    obtain ⟨account, authority, -, hauthority, ⟨previous, projectId, hprevious, hreplay, rfl⟩ |
      ⟨hprevious, hkeys, hplaced⟩⟩ := admitRequest_ok ho.keyed ok
    · obtain ⟨hm, haccount, hscope, hkey⟩ := previous_mem hprevious
      obtain ⟨hrequest, hid⟩ := replay_ok hreplay
      have hrow : (⟨caller.accountId, request.scope, key, request.command, operation.id⟩ :
          IdempotencyRow) = previous := by
        rw [← genuine.accountId hauthority, ← haccount, ← hscope, ← hkey, ← hrequest, hid]
      rw [hrow]
      exact h.repeated hm
    rw [genuine.accountId hauthority] at hprevious hkeys
    obtain ⟨machines, keys⟩ := tables
    clear ok
    dsimp only at hkeys hplaced
    subst hkeys
    refine h.insert hprevious (fun other hother => ?_) ?_
    · have hstored := h.stored other hother
      cases hplaced with
      | created ok unused new inserted => exact hstored.more
      | @acted machineId command action before after world journal operation here hid ok unused =>
        have hadmission := admission_of_ok action ok
        obtain ⟨hsame, howner, hproject, -⟩ := hadmission.ids
        rw [here] at hstored
        exact hstored.turned hsame howner hproject hadmission.remembers
    · cases hplaced with
      | @created projectId spec journal operation ok unused new inserted =>
        obtain ⟨-, howner, hproject, -, -⟩ := @created_inOrder A _ _ _ _ _ _ _ _ _ _ _ _ _ reads.now ok
        have hid : operation.id = reads.env.id := Table.get_key inserted
        refine ⟨⟨⟨reads.now, journal⟩, []⟩, by simp, ?_, ?_, hproject⟩
        · exact howner.trans (genuine.accountId hauthority)
        · show (journal.operation operation.id).isSome = true
          rw [hid, inserted]
          rfl
      | @acted machineId command action before after world journal operation here hid ok unused =>
        have hadmission := admission_of_ok action ok
        obtain ⟨hsame, howner, -, -⟩ := hadmission.ids
        refine ⟨world.put (world.store.write journal), by simp, ?_, hadmission.inserted, hsame.trans hid⟩
        rw [← genuine.accountId hauthority, ← admitAction_account ok]
        exact howner
  | cleaned locked env caller genuine machineId expectedVersion allowDataLoss key operation tables ok =>
    obtain ⟨before, after, world, authority, here, hid, howner, hheld, hauthority,
      ⟨previous, projectId, hprevious, hreplay, rfl⟩ | ⟨journal, hprevious, hopen, -, hkeys, hmachines⟩⟩ :=
      admitDestroy_ok ho.keyed ok
    · obtain ⟨hm, haccount, hscope, hkey⟩ := previous_mem hprevious
      obtain ⟨hrequest, hoperation⟩ := replay_ok hreplay
      have hrow : (⟨caller.accountId, .actions machineId, key,
          .destroy expectedVersion allowDataLoss, operation.id⟩ : IdempotencyRow) = previous := by
        rw [← genuine.accountId hauthority, ← haccount, ← hscope, ← hkey, ← hrequest, hoperation]
      rw [hrow]
      exact h.repeated hm
    rw [genuine.accountId hauthority] at hprevious hkeys
    subst hid
    have hmem : world ∈ fleet.tables.machines := by rw [here]; simp
    have hfree : fleet.running (machineIdOf world) = none := by simpa using hheld
    have hworld := ho.machines world hmem
    rw [controlOf, hfree] at hworld
    obtain ⟨-, hturned⟩ := destroyed_inOrder hworld hopen
    obtain ⟨hsame, haccount, hproject, -⟩ := openCleanup_ids hopen
    obtain ⟨machines, keys⟩ := tables
    clear ok
    dsimp only at hkeys hmachines
    subst hkeys hmachines
    refine h.insert hprevious (fun other hother => ?_) ?_
    · have hstored := h.stored other hother
      rw [here] at hstored
      exact hstored.turned hsame haccount hproject hturned.remembers
    · exact ⟨world.put (world.store.write journal), by simp, haccount.trans howner,
        openCleanup_inserted hworld.inOrder.1.sound hopen, hsame⟩
  | gone => exact ⟨h.unique, h.answered, h.stored⟩

theorem Fleet.Recorded.empty : Fleet.empty.Recorded where
  unique := by intro row hrow; cases hrow
  answered := by intro answer ha; cases ha
  stored := by intro row hrow; cases hrow

/-- **Run lemma.** -/
theorem Fleet.Reach.recorded (ho : fleet.Ordered A) (h : fleet.Recorded)
    (reach : Fleet.Reach setting A offline fleet fleet') : fleet'.Recorded := by
  induction reach with
  | refl => exact h
  | tail before step ih => exact step.recorded (Fleet.Reach.ordered ho before) ih

/-! ## Replays -/

/-- What a caller of its account is told of a recorded key: the operation, or a conflict.  Nothing is
    changed. -/
structure Replayed (setting : Setting) (tables : Tables) (row : IdempotencyRow)
    (projectId : ProjectId) (operation : OperationRow) : Prop where
  id : operation.id = row.operationId
  requested : ∀ {reads : Reads} {tally : Tally} {caller : Principal} {request : AdmissionRequest}
    {account : Account} {authority : AgentCloud.Authority}, caller.accountId = row.accountId →
    request.scope = row.scope → setting.accounts caller.accountId = some account →
    Genuine reads.env.grants caller →
    loadAuthority reads.env.grants reads.now caller.grantId = .ok authority →
    (request.command ≠ row.request →
      admitRequest setting reads tally tables caller request row.key = .error idempotencyConflict) ∧
    (request.command = row.request →
      authorizeCommand authority.principal projectId request.command = .ok () →
      admitRequest setting reads tally tables caller request row.key = .ok (operation, tables))
  destroyed : ∀ {env : Env} {caller : Principal} {machineId : MachineId} {expectedVersion : Nat}
    {allowDataLoss : Bool} {world : World interface} {authority : AgentCloud.Authority},
    caller.accountId = row.accountId → row.scope = .actions machineId →
    tables.machine machineId = some world → Genuine env.grants caller →
    loadAuthority env.grants world.store.clock caller.grantId = .ok authority →
    authorizeCleanup authority.principal world.store.journal allowDataLoss = .ok () →
    (.destroy expectedVersion allowDataLoss ≠ row.request →
      admitDestroy env tables false caller machineId expectedVersion allowDataLoss row.key =
        .error idempotencyConflict) ∧
    (.destroy expectedVersion allowDataLoss = row.request →
      admitDestroy env tables false caller machineId expectedVersion allowDataLoss row.key =
        .ok (operation, tables))

section Replays

variable {projectId : ProjectId} {operation : OperationRow} {request : LifecycleCommand}

theorem replay_conflict (hrequest : request ≠ row.request) :
    replay tables row.accountId request row = .error idempotencyConflict :=
  bind_error_iff.mpr (.inl (refuse_error_iff.mpr ⟨hrequest.symm, rfl⟩))

theorem replay_same (hrequest : request = row.request)
    (hstored : tables.stored row.operationId row.accountId = some (projectId, operation)) :
    replay tables row.accountId request row = .ok (projectId, operation) :=
  bind_ok_iff.mpr ⟨(), refuse_ok_iff.mpr (fun hne => hne hrequest.symm), present_ok_iff.mpr hstored⟩

end Replays

theorem Fleet.Recorded.replayed (ho : fleet.Ordered A) (h : fleet.Recorded)
    (hm : row ∈ fleet.tables.keys) :
    ∃ projectId operation, Replayed setting fleet.tables row projectId operation := by
  obtain ⟨projectId, operation, hstored, hid⟩ := stored_some (h.stored row hm)
  have hprevious := h.previous hm
  refine ⟨projectId, operation, hid, ?_, ?_⟩
  · intro reads tally caller request account authority howner hscope haccount genuine hauthority
    have hprincipal := (genuine.accountId hauthority).trans howner
    constructor
    · intro hrequest
      simp only [admitRequest, bind_error_iff]
      refine .inr ⟨account, present_ok_iff.mpr haccount, .inr ⟨authority, hauthority, ?_⟩⟩
      rw [hprincipal, hscope, hprevious]
      exact bind_error_iff.mpr (.inl (replay_conflict hrequest))
    · intro hrequest hauthorized
      simp only [admitRequest, bind_ok_iff]
      refine ⟨account, present_ok_iff.mpr haccount, authority, hauthority, ?_⟩
      rw [hprincipal, hscope, hprevious]
      exact bind_ok_iff.mpr ⟨_, replay_same hrequest hstored, bind_ok_iff.mpr ⟨(), hauthorized, rfl⟩⟩
  · intro env caller machineId expectedVersion allowDataLoss world authority howner hscope hworld genuine
      hauthority hauthorized
    have hprincipal := (genuine.accountId hauthority).trans howner
    -- the machine of the scope belongs to the account of the key
    have haccount : world.store.journal.machine.accountId = caller.accountId := by
      obtain ⟨there, hthere, howned, -, hnamed⟩ := h.stored row hm
      rw [hscope] at hnamed
      have hsame : there = world :=
        ho.keyed.unique hthere (Table.get_mem hworld) (hnamed.trans (Table.get_key hworld).symm)
      rw [← hsame, howned, howner]
    constructor
    · intro hrequest
      simp only [admitDestroy, bind_error_iff]
      refine .inr ⟨world, present_ok_iff.mpr hworld, .inr ⟨(), refuse_ok_iff.mpr (fun hne => hne haccount),
        .inr ⟨(), refuse_ok_iff.mpr (by simp), .inr ⟨authority, hauthority,
          .inr ⟨(), hauthorized, ?_⟩⟩⟩⟩⟩
      rw [hprincipal, ← hscope, hprevious]
      exact bind_error_iff.mpr (.inl (replay_conflict hrequest))
    · intro hrequest
      simp only [admitDestroy, bind_ok_iff]
      refine ⟨world, present_ok_iff.mpr hworld, (), refuse_ok_iff.mpr (fun hne => hne haccount),
        (), refuse_ok_iff.mpr (by simp), authority, hauthority, (), hauthorized, ?_⟩
      rw [hprincipal, ← hscope, hprevious]
      exact bind_ok_iff.mpr ⟨_, replay_same hrequest hstored, rfl⟩

/-! ## Busy machines -/

section Busy

variable {tables' : Tables} {caller : Principal} {key : String} {operation active : OperationRow}

/-- A create or an action leaves every busy machine alone. -/
theorem admitRequest_busy {reads : Reads} {tally : Tally} {request : AdmissionRequest}
    (hkeyed : Table.Keyed machineIdOf tables.machines)
    (h : admitRequest setting reads tally tables caller request key = .ok (operation, tables'))
    (hm : world ∈ tables.machines) (hbusy : world.store.journal.busy = true) :
    world ∈ tables'.machines := by
  obtain ⟨account, authority, -, -, ⟨-, -, -, -, rfl⟩ | ⟨-, -, hplaced⟩⟩ := admitRequest_ok hkeyed h
  · exact hm
  clear h
  obtain ⟨machines, keys⟩ := tables'
  dsimp only at hplaced ⊢
  cases hplaced with
  | created => exact List.mem_append_left _ hm
  | @acted machineId command action before after acted journal operation here hid ok unused =>
    rw [here] at hm
    simp only [List.mem_append, List.mem_cons] at hm ⊢
    rcases hm with hm | rfl | hm
    · exact .inl hm
    · rw [(admission_of_ok action ok).free] at hbusy
      cases hbusy
    · exact .inr (.inr hm)

/-- A destroy supersedes only a create that is active, and joins only an active cleanup. -/
theorem admitDestroy_busy {env : Env} {held : Bool} {machineId : MachineId} {expectedVersion : Nat}
    {allowDataLoss : Bool} (hkeyed : Table.Keyed machineIdOf tables.machines)
    (h : admitDestroy env tables held caller machineId expectedVersion allowDataLoss key =
      .ok (operation, tables'))
    (hm : world ∈ tables.machines) (hs : Sound world.store.journal)
    (hactive : world.store.journal.Active active) :
    world ∈ tables'.machines ∨
      (machineIdOf world = machineId ∧ active.kind = .create ∧ active.isCleanup = false ∧
        operation.id = active.id) := by
  obtain ⟨before, after, other, authority, here, hid, -, -, -,
    ⟨-, -, -, -, rfl⟩ | ⟨journal, -, hopen, -, -, hmachines⟩⟩ := admitDestroy_ok hkeyed h
  · exact .inl hm
  rw [here] at hm
  rw [hmachines]
  simp only [List.mem_append, List.mem_cons] at hm ⊢
  rcases hm with hm | rfl | hm
  · exact .inl (.inl hm)
  · have hfirst : world.store.journal.active = some active := by
      cases hget : world.store.journal.active with
      | none =>
        have hidle := List.find?_eq_none.mp hget active hactive.mem
        simp [hactive.going] at hidle
      | some row =>
        have hrow := Journal.active_eq_some hget
        rw [hs.operations.one row hrow.mem active hactive.mem hrow.going hactive.going]
    simp only [openCleanup, bind_ok_iff, refuse_ok_iff, present_ok_iff] at hopen
    obtain ⟨-, -, -, -, -, hreplaceable, source, -, hopen⟩ := hopen
    rw [hfirst] at hopen hreplaceable
    cases hcleanup : active.isCleanup with
    | true =>
      -- the cleanup that goes on is joined
      simp only [Option.filter, hcleanup, if_true] at hopen
      obtain ⟨-, rfl⟩ := Prod.mk.inj (pure_ok_iff.mp hopen)
      exact .inl (.inr (.inl rfl))
    | false =>
      refine .inr ⟨hid, by simpa [replaceable, hcleanup] using hreplaceable, rfl, ?_⟩
      simp only [Option.filter, hcleanup, startCleanup, placeCleanup, bind_ok_iff, pure_ok_iff,
        Bool.false_eq_true, if_false] at hopen
      obtain ⟨⟨placed, j⟩, ⟨updated, -, hplaced⟩, inserted, -, hpair⟩ := hopen
      obtain ⟨rfl, -⟩ := Prod.mk.inj hpair
      obtain ⟨rfl, -⟩ := Prod.mk.inj hplaced
      rfl
  · exact .inl (.inr (.inr hm))

end Busy

/-- An admission that ends without an answer has changed nothing. -/
theorem Fleet.Step.unanswered (step : Fleet.Step setting A offline fleet fleet')
    (hlocked : fleet.admitting ≠ none) (hdone : fleet'.admitting = none)
    (hunanswered : fleet'.answers = fleet.answers) : fleet'.tables = fleet.tables := by
  have hlonger : ∀ {answer : IdempotencyRow}, fleet.answers ++ [answer] = fleet.answers → False := by
    intro answer heq
    have hlength := congrArg List.length heq
    simp at hlength
  cases step with
  | works here step anchored unique => exact absurd hdone hlocked
  | locks free => cases hdone
  | admitted => exact (hlonger hunanswered).elim
  | cleaned => exact (hlonger hunanswered).elim
  | gone => rfl

/-- **Idempotent and exclusive admission.**  In every run of the fleet: a key of an account and a scope
    stands for one request and one operation, the one that every answer under it has named; a replay
    is told that operation, or a conflict, and changes nothing; a machine has at most one active
    operation, which no create or action touches, and which a destroy takes over only if it is a
    create; and an admission that ends without an answer has changed no row. -/
theorem admission_exclusive (reach : Fleet.Reach setting A offline .empty fleet) :
    ((∀ row ∈ fleet.tables.keys, ∀ other ∈ fleet.tables.keys, row.accountId = other.accountId →
        row.scope = other.scope → row.key = other.key → row = other) ∧
      ∀ answer ∈ fleet.answers, answer ∈ fleet.tables.keys) ∧
    (∀ row ∈ fleet.tables.keys,
      ∃ projectId operation, Replayed setting fleet.tables row projectId operation) ∧
    (∀ world ∈ fleet.tables.machines,
      (∀ a ∈ world.store.journal.operations, ∀ b ∈ world.store.journal.operations,
        a.terminal = false → b.terminal = false → a = b) ∧
      ∀ active, world.store.journal.Active active →
        (∀ reads tally caller request key operation tables,
          admitRequest setting reads tally fleet.tables caller request key = .ok (operation, tables) →
          world ∈ tables.machines) ∧
        ∀ env held caller machineId expectedVersion allowDataLoss key operation tables,
          admitDestroy env fleet.tables held caller machineId expectedVersion allowDataLoss key =
            .ok (operation, tables) →
          world ∈ tables.machines ∨ (machineIdOf world = machineId ∧ active.kind = .create ∧
            active.isCleanup = false ∧ operation.id = active.id)) ∧
    ∀ fleet', Fleet.Step setting A offline fleet fleet' → fleet.admitting ≠ none →
      fleet'.admitting = none → fleet'.answers = fleet.answers → fleet'.tables = fleet.tables := by
  have hordered : fleet.Ordered A := Fleet.Reach.ordered .empty reach
  have hrecorded : fleet.Recorded := Fleet.Reach.recorded .empty .empty reach
  refine ⟨⟨hrecorded.unique, hrecorded.answered⟩, ?_, ?_, ?_⟩
  · intro row hrow
    exact hrecorded.replayed hordered hrow
  · intro world hm
    have hs : Sound world.store.journal := (hordered.machines world hm).inOrder.1.sound
    refine ⟨hs.operations.one, fun active hactive => ⟨?_, ?_⟩⟩
    · intro reads tally caller request key operation tables h
      exact admitRequest_busy hordered.keyed h hm hactive.busy
    · intro env held caller machineId expectedVersion allowDataLoss key operation tables h
      exact admitDestroy_busy hordered.keyed h hm hs hactive
  · intro fleet' step hlocked hdone hunanswered
    exact step.unanswered hlocked hdone hunanswered

namespace Demo

/-- The one request is answered again as it was. -/
theorem one_replayed : ∃ fleet : Fleet, fleet.tables.keys = [recorded] ∧
    ∃ projectId operation, Replayed configured fleet.tables recorded projectId operation := by
  obtain ⟨fleet, reach, -, hkeys⟩ := one_reached
  exact ⟨fleet, hkeys, (admission_exclusive reach).2.1 recorded (by simp [hkeys])⟩

end Demo

end AgentCloud.Lifecycle
