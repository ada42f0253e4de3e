/-
  THE ORDER OF A CLEANUP.

  From the admission of a cleanup on, whoever works on the machine submits deletions and nothing
  else, each of an exact resource that the ledger has and does not record absent.  An address goes
  last: not while a server create of the source is unresolved, and not while a server is left; and a
  server that would take its address along waits for the source's create as well.  The cleanup ends
  when nothing is pending and nothing is left.
-/
import AgentCloud.Lifecycle.Endings

namespace AgentCloud.Lifecycle

open Checked Durable

variable {A : Replies} {offline : Bool}

/-! ## Admitted cleanups -/

/-- **Step lemma.**  An admitted cleanup stays admitted. -/
theorem Change.cleanup_mem {log : Log} {clock : Instant} {journal journal' : Journal}
    (change : Change A log clock journal journal') {cleanup : OperationCleanup}
    (hc : cleanup ∈ journal.cleanups) : cleanup ∈ journal'.cleanups := by
  cases change with
  | takeover => exact List.mem_append_left _ hc
  | opened => exact List.mem_append_left _ hc
  | progress => exact hc
  | prepare => exact hc
  | outcome => exact hc
  | claim => exact hc
  | bind => exact hc
  | absent => exact hc
  | settle => exact hc
  | compensate => exact hc
  | failed => exact hc
  | completed => exact hc
  | cleaned => exact hc
  | granted => exact hc
  | closure => exact hc
  | controlClosed => exact hc

/-- **Run lemma.**  So it stays in every run. -/
theorem cleanup_run {c c' : Machine} (hin : Discipline.InOrder (contract A) c)
    {cleanup : OperationCleanup} (hc : cleanup ∈ c.world.store.journal.cleanups)
    (hreach : (system A offline).Reach c c') : cleanup ∈ c'.world.store.journal.cleanups := by
  refine run_rows (P := fun journal => cleanup ∈ journal.cleanups)
    (fun _ h change => change.cleanup_mem h) (fun _ h action ok => ?_) hin hc hreach
  obtain ⟨hourlyMicros, version, rfl⟩ := (admission_of_ok action ok).eq
  exact h

/-! ## What a cleanup submits, and how it ends -/

/-- Nothing that creates a server of the operation is unresolved. -/
theorem pendingServer_eq_false {journal : Journal} {id : OperationId} :
    pendingServer journal id = false ↔ ∀ attempt ∈ journal.attempts, attempt.operationId = id →
      attempt.command.isServerCreate = true → attempt.resolution ≠ .pending := by
  simp [pendingServer, Journal.history]

/-- No server of the allocation is left. -/
theorem liveServer_eq_false {journal : Journal} :
    liveServer journal = false ↔
      ∀ resource ∈ journal.resources, resource.ref.kind = .server → resource.live = false := by
  simp [liveServer]

/-- What a cleanup is cleared for, in terms of the rows. -/
theorem Cleared.rows {log : Log} {journal : Journal} {cleanup : OperationCleanup}
    {command : ProviderCommand} (h : Cleared log journal cleanup command) :
    ∃ resource ∈ journal.resources, command = .deletion resource.ref ∧ resource.live = true ∧
      (resource.ref.kind = .primaryIp →
        (∀ attempt ∈ journal.attempts, attempt.operationId = cleanup.sourceOperationId →
          attempt.command.isServerCreate = true → attempt.resolution ≠ .pending) ∧
        ∀ other ∈ journal.resources, other.ref.kind = .server → other.live = false) ∧
      (resource.ref.kind = .server →
        (∃ attempt ∈ journal.attempts, attempt.operationId = cleanup.sourceOperationId ∧
          attempt.command.isServerCreate = true ∧ attempt.resolution = .pending) →
        Detached log resource.ref.id) := by
  obtain ⟨ref, hcommand, hlive, hip, hserver⟩ := h
  obtain ⟨resource, hget, hrow⟩ := (Option.any_eq_true _ _).mp hlive
  obtain rfl : resource.ref = ref := Table.get_key hget
  refine ⟨resource, Table.get_mem hget, hcommand, hrow, fun hkind => ?_, fun hkind hpending => ?_⟩
  · obtain ⟨hunresolved, hserverless⟩ := hip hkind
    exact ⟨pendingServer_eq_false.mp hunresolved, liveServer_eq_false.mp hserverless⟩
  · refine hserver hkind ?_
    cases hresolved : pendingServer journal cleanup.sourceOperationId with
    | true => rfl
    | false =>
      obtain ⟨attempt, hm, howner, hcreate, hopen⟩ := hpending
      exact absurd hopen (pendingServer_eq_false.mp hresolved attempt hm howner hcreate)

/-- How the operation of a cleanup ends: cancelled for a create, succeeded for a destroy. -/
def EndsAs (row : OperationRow) : Prop :=
  (row.kind = .create ∧ ∃ date, row.progress = .cancelled date) ∨
    (row.kind = .destroy ∧ ∃ date, row.progress = .succeeded date)

theorem endsAs_of_ended {row : OperationRow} (hkind : row.kind = .create ∨ row.kind = .destroy)
    (hends : row.progress.endsCleanup row.kind = true) : EndsAs row := by
  cases hprogress : row.progress with
  | succeeded date =>
    rcases hkind with hkind | hkind
    · simp [hprogress, OperationProgress.endsCleanup, hkind] at hends
    · exact .inr ⟨hkind, date, hprogress⟩
  | cancelled date =>
    rcases hkind with hkind | hkind
    · exact .inl ⟨hkind, date, hprogress⟩
    · simp [hprogress, OperationProgress.endsCleanup, hkind] at hends
  | _ => simp [hprogress, OperationProgress.endsCleanup] at hends

/-- An ended cleanup has settled everything. -/
theorem Sound.cleaned {journal : Journal} (hs : Sound journal) {row : OperationRow}
    (hm : row ∈ journal.operations) {cleanup : OperationCleanup} (hc : cleanup ∈ journal.cleanups)
    (hid : row.id = cleanup.operationId) (hdone : row.terminal = true) :
    EndsAs row ∧ (∀ attempt ∈ journal.attempts, attempt.resolution ≠ .pending) ∧
      ∀ resource ∈ journal.resources, resource.live = false := by
  have hintent := hs.executor hm hc hid.symm
  have hcleanup : row.isCleanup = true := by simp [OperationRow.isCleanup, hintent]
  obtain ⟨hends, hretired⟩ := hs.operations.ended row hm hcleanup hdone
  exact ⟨endsAs_of_ended (hs.operations.cleans row hm hcleanup) hends,
    hs.settled_of_retired hretired, hs.ledger.gone hretired⟩

/-- **Cleanup ordering and exclusivity.**  In every reachable state in which a cleanup is admitted:
    it stays admitted in every later state; whatever is submitted next, by whichever worker, is the
    deletion of an exact resource of the allocation that is not recorded absent, of an address only
    when no server create of the source is unresolved and no server is left, and of a server, while
    such a create is unresolved, only if by the latest reads it leaves its address where it is; and
    the cleanup's operation is over only as it should end, with every attempt of the machine settled
    and every resource absent. -/
theorem cleanup_ordered {start : World interface} (hstart : Initial start) {c : Machine}
    (hreach : (system anyReply true).Reach (.idle start) c) {cleanup : OperationCleanup}
    (hc : cleanup ∈ c.world.store.journal.cleanups) :
    (∀ c', (system anyReply true).Reach c c' → cleanup ∈ c'.world.store.journal.cleanups) ∧
    (∀ c' attemptId command r, (system anyReply true).Step c c' →
      c'.world.log = c.world.log ++ [⟨.submit attemptId command, r⟩] →
      ∃ resource ∈ c.world.store.journal.resources,
        command = .deletion resource.ref ∧ resource.live = true ∧
        (resource.ref.kind = .primaryIp →
          (∀ attempt ∈ c.world.store.journal.attempts,
            attempt.operationId = cleanup.sourceOperationId →
            attempt.command.isServerCreate = true → attempt.resolution ≠ .pending) ∧
          ∀ other ∈ c.world.store.journal.resources,
            other.ref.kind = .server → other.live = false) ∧
        (resource.ref.kind = .server →
          (∃ attempt ∈ c.world.store.journal.attempts,
            attempt.operationId = cleanup.sourceOperationId ∧
            attempt.command.isServerCreate = true ∧ attempt.resolution = .pending) →
          Detached c.world.log resource.ref.id)) ∧
    (∀ row ∈ c.world.store.journal.operations, row.id = cleanup.operationId →
      row.terminal = true → EndsAs row ∧
        (∀ attempt ∈ c.world.store.journal.attempts, attempt.resolution ≠ .pending) ∧
        ∀ resource ∈ c.world.store.journal.resources, resource.live = false) := by
  have hin : Discipline.InOrder (contract anyReply) c := hstart.inOrder hreach
  refine ⟨fun c' hlater => cleanup_run hin hc hlater, fun c' attemptId command r hstep hlog => ?_,
    fun row hm hid hdone => hin.1.sound.cleaned hm hc hid hdone⟩
  obtain ⟨attempt, -, rfl, hsubmits⟩ := submits_of_step hin hstep hlog
  exact (hsubmits.cleared cleanup hc).rows

namespace Demo

/-- The destroy of the machine ended with everything settled. -/
theorem destroyed_cleaned :
    ∃ row ∈ destroyed.store.journal.operations, row.id = "destroy" ∧ row.terminal = true ∧
      EndsAs row := by
  have hc : ⟨"destroy", "create", "root", 2, 1000⟩ ∈ destroyed.store.journal.cleanups := by
    decide +kernel
  obtain ⟨row, hm, hid, hdone⟩ : ∃ row ∈ destroyed.store.journal.operations,
      row.id = "destroy" ∧ row.terminal = true := by
    decide +kernel
  exact ⟨row, hm, hid, hdone,
    ((cleanup_ordered start_initial (destroyed_reached true) hc).2.2 row hm hid hdone).1⟩

end Demo

end AgentCloud.Lifecycle
