/-
  THE OTHER WRITERS ARE SAFE, and so is the system.

  An operator's decision reads the provider and claims what it discovers; the decision itself is one
  transaction that checks again everything it rests on.  Admission, enrollment and the closure of
  control recovery are one transaction each.  `disciplined` collects the workers: every run of the
  system keeps to the discipline.
-/
import AgentCloud.Lifecycle.Cleaning

namespace AgentCloud.Lifecycle

open Checked Durable

variable {A : Replies} {operation : OperationRow} {start journal journal' : Journal} {log : Log}
  {clock : Instant}

/-! ## Operator recovery -/

theorem snapshot_ok {operationId : OperationId} {current : Snapshot}
    (h : snapshot journal operationId = .ok current) :
    journal.cleanup operationId = some current.authority ∧
      journal.operation operationId = some current.operation ∧
      current.allocation = journal.allocation ∧
      current.attempts = journal.cleanupHistory current.authority ∧
      current.resources = journal.resources := by
  simp only [snapshot, bind_ok_iff, present_ok_iff, pure_ok_iff] at h
  obtain ⟨authority, hauthority, row, hrow, rfl⟩ := h
  exact ⟨hauthority, hrow, rfl, rfl, rfl⟩

theorem checkScope_ok {provider : ProviderKind} {current : Snapshot} {request : OperatorRecovery}
    {target : Attempt} (h : checkScope provider journal current request = .ok target) :
    current.operation.terminal = false ∧ request.expectedState = current ∧
      target ∈ current.attempts ∧ target.id = request.attemptId := by
  simp only [checkScope, bind_ok_iff, refuse_ok_iff, present_ok_iff, not_or, not_not] at h
  obtain ⟨_, -, _, hopen, _, hstate, hfind⟩ := h
  refine ⟨by simpa using hopen.2, hstate, List.mem_of_find?_eq_some hfind, ?_⟩
  simpa using List.find?_some hfind

theorem verified_claimUnknown {current : Snapshot} {kind : ResourceKind} {labels : Labels}
    (hclaim : ∀ id, Claimable start.attempts ⟨kind, id⟩ labels) (found : List (String × Labels))
    (mismatch : Bool) :
    Verified A (fun j _ => Discovering operation start j)
      (claimUnknown current kind labels found mismatch)
      (fun _ j _ => Discovering operation start j) fun j _ => Discovering operation start j := by
  induction found generalizing mismatch with
  | nil => exact .pure fun _ _ h => h
  | cons first rest ih =>
    obtain ⟨id, seen⟩ := first
    rw [claimUnknown]
    split
    · split
      · exact ih _
      · refine .bind (Q := fun _ j _ => Discovering operation start j) (.handle
          (F := fun j _ => Discovering operation start j)
          (.bind (verified_claimNow (hclaim id)) fun _ => .pure fun _ _ h => h) fun fault => ?_)
          fun conflict => ih _
        cases fault with
        | cloud failure => exact .pure fun _ _ h => h
        | other message => exact .raise fun _ _ h => h
    · exact ih true

theorem verified_confirmSources (rows : List OwnedResource) :
    Verified A (fun j _ => Discovering operation start j) (confirmSources rows)
      (fun _ j _ => Discovering operation start j) fun j _ => Discovering operation start j := by
  induction rows with
  | nil => exact .pure fun _ _ h => h
  | cons row rest ih =>
    exact .bind (verified_look fun _ h => h.busy) fun seen =>
      .bind (Q := fun _ j _ => Discovering operation start j)
        (.ofExcept (fun _ _ _ _ h => h) fun _ _ h => h) fun _ => ih

/-- The provider is read for a closure, and what is discovered is claimed. -/
theorem verified_checkClosure {request : OperatorRecovery} {current : Snapshot} {target : Attempt}
    {resourceIds : List String} (hm : target ∈ start.attempts) :
    Verified A (fun j _ => Discovering operation start j)
      (checkClosure request current target resourceIds)
      (fun _ j _ => Discovering operation start j) fun j _ => Discovering operation start j := by
  have hcheck : ∀ p : Except Fault Unit, Verified A (fun j _ => Discovering operation start j)
      (Prog.ofExcept (S := interface) p) (fun _ j _ => Discovering operation start j)
      fun j _ => Discovering operation start j :=
    fun p => .ofExcept (fun _ _ _ _ h => h) fun _ _ h => h
  refine .bind (Q := fun _ j _ => checkClosable current target = .ok () ∧
    Discovering operation start j) (.ofExcept (fun _ hok _ _ h => ⟨hok, h⟩) fun _ _ h => h)
    fun _ => .fact fun hclosable => ?_
  simp only [checkClosable, refuse_ok_iff, not_or, Bool.not_eq_false] at hclosable
  obtain ⟨-, -, huncertain, hcreation⟩ := hclosable
  obtain ⟨labels, hlabels⟩ := ProviderCommand.labels?_of_isCreation hcreation
  have hmay : target.mayExist = true := by
    simp [Attempt.mayExist, AttemptOutcome.rejected_of_uncertain huncertain]
  have hclaim : ∀ id, Claimable start.attempts ⟨target.command.resourceKind, id⟩
      (target.command.labels?.getD []) := by
    intro id
    rw [hlabels]
    exact claimable_of_attempt hm hmay rfl hlabels
  exact .bind (verified_search fun _ h => h.busy) fun found =>
    .bind (verified_claimUnknown hclaim found false) fun mismatch =>
    .bind (Q := fun _ j _ => Discovering operation start j)
      (.readJournal (fun _ _ h => h.busy) fun _ _ h _ => h) fun journal =>
    .bind (Q := fun _ j _ => Discovering operation start j)
      (.ofExcept (fun _ _ _ _ h => h) fun _ _ h => h) fun discovered =>
    .bind (hcheck _) fun _ => .bind (hcheck _) fun _ => .bind (hcheck _) fun _ =>
    verified_confirmSources _

theorem verified_checkRetry {current : Snapshot} {target : Attempt} :
    Verified A (fun j _ => Discovering operation start j) (checkRetry current target)
      (fun _ j _ => Discovering operation start j) fun j _ => Discovering operation start j := by
  refine .bind (Q := fun _ j _ => Discovering operation start j)
      (.readJournal (fun _ _ h => h.busy) fun _ _ h _ => h) fun journal =>
    .bind (Q := fun _ j _ => Discovering operation start j)
      (.ofExcept (fun _ _ _ _ h => h) fun _ _ h => h) fun ref =>
    .bind (verified_look fun _ h => h.busy) fun seen =>
    .bind (Q := fun _ j _ => Discovering operation start j)
      (.ofExcept (fun _ _ _ _ h => h) fun _ _ h => h) fun _ => ?_
  split
  · exact .pure fun _ _ h => h
  · exact .bind (verified_getAction fun _ h => h.busy) fun action =>
      .ofExcept (fun _ _ _ _ h => h) fun _ _ h => h

theorem verified_checkDecision {request : OperatorRecovery} {current : Snapshot}
    {target : Attempt} (hm : target ∈ start.attempts) :
    Verified A (fun j _ => Discovering operation start j) (checkDecision request current target)
      (fun _ j _ => Discovering operation start j) fun j _ => Discovering operation start j := by
  unfold checkDecision
  split
  · exact verified_checkClosure hm
  · exact verified_checkRetry

theorem insertRecovery_ok {row : RecoveryRow} (h : insertRecovery journal row = .ok journal') :
    (∀ other ∈ journal.recoveries, other.id ≠ row.id ∧ other.attemptId ≠ row.attemptId) ∧
      guardOperatorRecovery journal row = .ok () ∧
      journal' = { journal with recoveries := journal.recoveries ++ [row] } := by
  simp only [insertRecovery, bind_ok_iff, refuse_ok_iff, pure_ok_iff] at h
  obtain ⟨_, hunique, _, hguard, rfl⟩ := h
  refine ⟨fun other hm => ?_, hguard, rfl⟩
  have hother : ¬ (other.id = row.id ∨ other.attemptId = row.attemptId) :=
    fun heq => hunique (List.any_eq_true.mpr ⟨other, hm, by simpa using heq⟩)
  exact not_or.mp hother

/-- What the guard of a decision has found. -/
theorem guardOperatorRecovery_ok {row : RecoveryRow}
    (h : guardOperatorRecovery journal row = .ok ()) :
    ∃ cleanup source, journal.cleanup row.operationId = some cleanup ∧
      journal.attempt row.attemptId = some source ∧
      (journal.operation row.operationId).any OperationRow.terminal = false ∧
      ∀ ids, row.request.kind = .closeCreate ids →
        source.command.isCreation = true ∧ source.operationId = cleanup.sourceOperationId ∧
          source.resolution = .pending ∧ source.outcome.uncertain = true ∧
          (retainedIds journal source).isPerm ids = true := by
  simp only [guardOperatorRecovery, bind_ok_iff, present_ok_iff, refuse_ok_iff, not_or] at h
  obtain ⟨cleanup, hcleanup, source, hsource, _, ⟨-, hopen, -⟩, hkind⟩ := h
  refine ⟨cleanup, source, hcleanup, hsource, by simpa using hopen, fun ids hids => ?_⟩
  rw [hids] at hkind
  simp only [bind_ok_iff, refuse_ok_iff, not_or, not_not, Bool.not_eq_false] at hkind
  obtain ⟨_, ⟨hcreation, howner, hpending, huncertain⟩, hperm⟩ := hkind
  exact ⟨hcreation, howner, hpending, huncertain, hperm⟩

theorem recordRecovery_changes {env : Env} {request : OperatorRecovery} {target : Attempt}
    (hs : Sound journal) (htarget : target.id = request.attemptId)
    (h : recordRecovery env journal request target = .ok journal') :
    Changes A log clock journal journal' := by
  simp only [recordRecovery, bind_ok_iff, refuse_ok_iff] at h
  obtain ⟨current, hcurrent, _, -, inserted, hinserted, h⟩ := h
  obtain ⟨hauthority, hrow, -, -, -⟩ := snapshot_ok hcurrent
  obtain ⟨-, hguard, rfl⟩ := insertRecovery_ok hinserted
  obtain ⟨cleanup, source, hcleanup, hsource, hopen, hclose⟩ := guardOperatorRecovery_ok hguard
  cases hkind : request.kind with
  | retryDelete =>
    rw [hkind] at h
    obtain rfl := pure_ok_iff.mp h
    exact .single (.granted _ hkind hinserted)
  | closeCreate ids =>
    rw [hkind] at h
    obtain ⟨-, howner, hpending, -, -⟩ := hclose ids hkind
    simp only [updateAttempts, bind_ok_iff, pure_ok_iff] at h
    obtain ⟨-, -, rfl⟩ := h
    have hgoing : current.operation.terminal = false := by
      simpa [hrow] using hopen
    have active : journal.Active current.operation := ⟨Table.get_mem hrow, hgoing⟩
    have hid : source.id = request.attemptId := Table.get_key hsource
    have hsame : cleanup = current.authority := Option.some.inj (hcleanup.symm.trans hauthority)
    -- the attempt's identifier is its key: the owner in the update's condition says no more
    have hmap : (journal.attempts.map fun row =>
        if (decide (row.id = target.id ∧ row.operationId = current.authority.sourceOperationId)) = true
          then { row with resolution := .operatorClosed request.id } else row) =
        Table.update Attempt.id journal.attempts source.id fun row =>
          { row with resolution := .operatorClosed request.id } := by
      refine List.map_congr_left fun row hm => ?_
      by_cases hkey : row.id = source.id
      · obtain rfl := hs.attempts.keyed.unique hm (Table.get_mem hsource) hkey
        simp [hid, htarget, howner, hsame]
      · simp [hkey, htarget, ← hid]
    have hchange : Change A log clock journal _ := .closure active
      ⟨request.id, request.operationId, request.attemptId, request⟩ ids hkind hinserted
      (Table.get_mem hsource) hid.symm hpending
    rw [Journal.mapAttempt, ← hmap] at hchange
    exact .single hchange

/-- An operator's decision. -/
theorem verified_applyRecovery {provider : ProviderKind} {request : OperatorRecovery} :
    Verified A (fun _ _ => True) (applyRecovery provider request) (fun _ _ _ => True)
      fun _ _ => True := by
  refine .bind (Q := fun found j _ => Sound found ∧ found = j)
    (.readFirst fun j _ hs => ⟨hs, rfl⟩) fun found => .fact fun hs => ?_
  cases hsaved : found.recoveries.find? fun row => row.id = request.id with
  | some saved => exact .ofExcept (fun _ _ _ _ _ => trivial) fun _ _ _ => trivial
  | none =>
    refine .bind (Q := fun current j _ => snapshot found request.operationId = .ok current ∧
        found = j)
      (.ofExcept (fun _ hok _ _ h => ⟨hok, h⟩) fun _ _ _ => trivial) fun current =>
      .fact fun hcurrent => ?_
    refine .bind (Q := fun target j _ =>
        checkScope provider found current request = .ok target ∧ found = j)
      (.ofExcept (fun _ hok _ _ h => ⟨hok, h⟩) fun _ _ _ => trivial) fun target =>
      .fact fun hscope => ?_
    obtain ⟨-, hrow, -, hattempts, -⟩ := snapshot_ok hcurrent
    obtain ⟨hgoing, -, hm, hid⟩ := checkScope_ok hscope
    have active : found.Active current.operation := ⟨Table.get_mem hrow, hgoing⟩
    rw [hattempts] at hm
    have hmem : target ∈ found.attempts := (List.mem_filter.mp hm).1
    have hdecision : Verified A (fun j _ => Discovering current.operation found j)
        (checkDecision request current target)
        (fun _ j _ => Discovering current.operation found j)
        (fun j _ => Discovering current.operation found j) := verified_checkDecision hmem
    refine .bind (Q := fun _ _ _ => True) ((hdecision.pre ?_).post ?_ ?_)
      fun _ => .transactFree fun v hv env a j' hok => ?_
    · rintro j l rfl
      exact ⟨active.working, .refl _⟩
    · exact fun _ _ _ _ => trivial
    · exact fun _ _ _ => trivial
    · simp only [bind_ok_iff, pure_ok_iff, Prod.mk.injEq] at hok
      obtain ⟨j, hj, -, rfl⟩ := hok
      exact recordRecovery_changes hv.sound hid hj

/-! ## Enrollment -/

theorem handoffJournal_changes {operationId : OperationId}
    (h : handoffJournal journal operationId = .ok journal') :
    Changes A log clock journal journal' := by
  unfold handoffJournal at h
  split at h
  · obtain rfl := pure_ok_iff.mp h
    exact .refl
  · next serverId hserver =>
    split at h
    · next hwaits =>
      rcases updateOperation_ok h with ⟨-, rfl⟩ | ⟨old, hold, -, rfl⟩
      · exact .refl
      · have hprogress : old.progress = .waitingGuest serverId .enrollment := by
          simpa [hold] using hwaits
        have active : journal.Active old :=
          ⟨Table.get_mem hold, by simp [OperationRow.terminal, hprogress, OperationProgress.terminal]⟩
        have hid : old.id = operationId := Table.get_key hold
        rw [← hid]
        exact .single (.progress active (.waitingGuest serverId .runtime) rfl)
    · obtain rfl := pure_ok_iff.mp h
      exact .refl

theorem verified_handoffRuntime {operationId : OperationId} :
    Verified A (fun _ _ => True) (handoffRuntime operationId) (fun _ _ _ => True)
      fun _ _ => True := by
  refine .transactFree fun v _ env a j' hok => ?_
  simp only [bind_ok_iff, pure_ok_iff, Prod.mk.injEq] at hok
  obtain ⟨j, hj, -, rfl⟩ := hok
  exact handoffJournal_changes hj

/-! ## Admitting a cleanup -/

/-- The active operation is the one that is not over. -/
theorem Journal.active_eq_some {row : OperationRow} (h : journal.active = some row) :
    journal.Active row :=
  ⟨List.mem_of_find?_eq_some h, by simpa using List.find?_some h⟩

theorem openCleanup_changes {env : Env} {grantId : GrantId} {version : Nat}
    {admitted : OperationRow} (hs : Sound journal)
    (h : openCleanup env clock journal grantId version = .ok (admitted, journal')) :
    Changes A log clock journal journal' := by
  simp only [openCleanup, bind_ok_iff, refuse_ok_iff, present_ok_iff, not_or,
    Bool.not_eq_false] at h
  obtain ⟨_, -, _, ⟨hlive, -⟩, _, hreplaceable, source, hsource, h⟩ := h
  have hmem : source ∈ journal.operations := List.mem_of_find?_eq_some hsource
  have hcreate : source.kind = .create := by simpa using List.find?_some hsource
  cases hfilter : journal.active.filter OperationRow.isCleanup with
  | some joined =>
    -- a cleanup in progress is joined
    rw [hfilter] at h
    obtain ⟨-, rfl⟩ := Prod.mk.inj (pure_ok_iff.mp h)
    exact .refl
  | none =>
    rw [hfilter] at h
    simp only [startCleanup, bind_ok_iff, pure_ok_iff] at h
    obtain ⟨⟨operation, placed⟩, hplace, inserted, hinsert, hpair⟩ := h
    obtain ⟨rfl, rfl⟩ := Prod.mk.inj hpair
    simp only [insertCleanup, bind_ok_iff, refuse_ok_iff, pure_ok_iff] at hinsert
    obtain ⟨_, -, _, -, rfl⟩ := hinsert
    cases hactive : journal.active with
    | some row =>
      have active : journal.Active row := Journal.active_eq_some hactive
      have huncleaned : row.isCleanup = false := by
        simpa [hactive, Option.filter] using hfilter
      have hrow : row.kind = .create := by
        simpa [replaceable, hactive, huncleaned] using hreplaceable
      -- the machine has one create
      obtain rfl := hs.operations.create row active.mem source hmem hrow hcreate
      rw [hactive] at hplace
      simp only [placeCleanup, bind_ok_iff, pure_ok_iff, Prod.mk.injEq] at hplace
      obtain ⟨j, hj, rfl, rfl⟩ := hplace
      rcases updateOperation_ok hj with ⟨hnone, -⟩ | ⟨old, -, -, rfl⟩
      · have hget : journal.operation row.id = some row := hs.operations.keyed.get active.mem
        rw [hget] at hnone
        cases hnone
      · exact .single (.takeover active hrow huncleaned hlive grantId version _ rfl rfl)
    | none =>
      have hfree : journal.busy = false := by simp [Journal.busy, hactive]
      rw [hactive] at hplace
      simp only [placeCleanup, insertOperation, bind_ok_iff, refuse_ok_iff, pure_ok_iff,
        Prod.mk.injEq, not_or, not_not] at hplace
      obtain ⟨j, ⟨_, ⟨hfresh, -⟩, rfl⟩, rfl, rfl⟩ := hplace
      exact .single (.opened hmem hcreate hfree hlive env.id hfresh grantId version _ rfl rfl)

theorem verified_admitCleanup {grantId : GrantId} {version : Nat} {allowDataLoss : Bool} :
    Verified A (fun _ _ => True) (admitCleanup grantId version allowDataLoss) (fun _ _ _ => True)
      fun _ _ => True := by
  refine .transactFree fun v hv env a j' hok => ?_
  simp only [cleanupJournal, bind_ok_iff, pure_ok_iff, Prod.mk.injEq] at hok
  obtain ⟨⟨admitted, j⟩, ⟨authority, -, _, -, hopen⟩, -, rfl⟩ := hok
  exact openCleanup_changes hv.sound hopen

/-! ## Control recovery -/

theorem checkClose_ok {provider : ProviderKind} {request : CloseRequest}
    (h : checkClose provider journal request = .ok operation) :
    journal.Active operation ∧ operation.id = request.operationId := by
  simp only [checkClose, bind_ok_iff, present_ok_iff, refuse_ok_iff, pure_ok_iff] at h
  obtain ⟨row, hrow, _, -, _, hgoing, _, -, _, -, _, -, rfl⟩ := h
  exact ⟨⟨Table.get_mem hrow, by simpa using hgoing⟩, Table.get_key hrow⟩

theorem closeJournal_changes {env : Env} {request : CloseRequest}
    (active : journal.Active operation) (hid : operation.id = request.operationId)
    (h : closeJournal env clock journal request operation.kind = .ok journal') :
    Changes A log clock journal journal' := by
  simp only [closeJournal, updateAttempts, updateAllocation, bind_ok_iff, pure_ok_iff] at h
  obtain ⟨_, ⟨-, -, rfl⟩, _, ⟨_, -, rfl⟩, h⟩ := h
  have hmap : (journal.attempts.map fun attempt =>
      if (decide (attempt.operationId = request.operationId) && attempt.pending) = true then
        { attempt with resolution := .controlClosed request.id } else attempt) =
      journal.attempts.map fun attempt =>
        if attempt.operationId = operation.id ∧ attempt.resolution = .pending then
          { attempt with resolution := .controlClosed request.id } else attempt := by
    refine List.map_congr_left fun attempt _ => ?_
    simp [hid]
  have hchange : Change A log clock journal _ := .controlClosed active
    ⟨request.id, request.operationId, request.recoveryId⟩
    (journal.machine.become (.destroyed clock)) rfl
  rw [← hmap] at hchange
  rcases updateOperation_ok h with ⟨hnone, -⟩ | ⟨old, -, -, rfl⟩
  · exact absurd hid (Table.get_eq_none.mp hnone operation active.mem)
  · rw [hid] at hchange
    exact .single hchange

theorem verified_confirmGone {P : Journal → Prop} (hP : ∀ j, P j → j.busy = true)
    (refs : List ResourceRef) :
    Verified A (fun j _ => P j) (confirmGone refs) (fun _ j _ => P j) fun j _ => P j := by
  induction refs with
  | nil => exact .pure fun _ _ h => h
  | cons ref rest ih =>
    exact .bind (verified_look hP) fun seen => .bind (Q := fun _ j _ => P j)
      (.ofExcept (fun _ _ _ _ h => h) fun _ _ h => h) fun _ => ih

theorem verified_closeOperation {provider : ProviderKind} {request : CloseRequest} :
    Verified A (fun _ _ => True) (closeOperation provider request) (fun _ _ _ => True)
      fun _ _ => True := by
  refine .bind (Q := fun found j _ => found = j) (.readFirst fun j _ _ => rfl) fun found => ?_
  refine .bind (Q := fun row j _ => checkClose provider found request = .ok row ∧ found = j)
    (.ofExcept (fun _ hok _ _ h => ⟨hok, h⟩) fun _ _ _ => trivial) fun row =>
    .fact fun hclose => ?_
  obtain ⟨active, hid⟩ := checkClose_ok hclose
  have hbusy : ∀ j, found = j → j.busy = true := by
    rintro j rfl
    exact active.busy
  have hkept : ∀ p : Except Fault Unit, Verified A (fun j _ => found = j)
      (Prog.ofExcept (S := interface) p) (fun _ j _ => found = j) fun _ _ => True :=
    fun p => .ofExcept (fun _ _ _ _ h => h) fun _ _ _ => trivial
  refine .bind (Q := fun _ j _ => found = j) (.bind (Q := fun _ j _ => found = j)
    ((verified_search hbusy).post (fun _ _ _ h => h) fun _ _ _ => trivial) fun servers =>
    .bind (Q := fun _ j _ => found = j)
    ((verified_search hbusy).post (fun _ _ _ h => h) fun _ _ _ => trivial) fun ips => hkept _)
    fun _ => .bind ((verified_confirmGone hbusy _).post (fun _ _ _ h => h) fun _ _ _ => trivial)
    fun _ => .transact (fun j _ h => hbusy j h) (fun _ _ _ => trivial) fun v hv _ env a j' hok => ?_
  simp only [bind_ok_iff, refuse_ok_iff, pure_ok_iff, Prod.mk.injEq] at hok
  obtain ⟨_, -, j, hj, -, rfl⟩ := hok
  rw [show found = v.store.journal from hv] at active
  exact ⟨closeJournal_changes active hid hj, fun _ => trivial⟩

/-! ## The system -/

theorem disciplined (A : Replies) (offline : Bool) :
    Discipline (system A offline) (contract A) where
  job_safe job _ := by
    cases job with
    | tick offline config operationId => exact Triple.safe (verified_advanceLocked operationId) _
    | destroy => exact Triple.safe verified_admitCleanup _
    | recover => exact Triple.safe verified_applyRecovery _
    | handoff => exact Triple.safe verified_handoffRuntime _
    | close => exact Triple.safe verified_closeOperation _
  other_valid := Drift.valid
  other_rely _ h := Drift.sees h
  allows _ h := h

end AgentCloud.Lifecycle
