/-
  WHAT IS OVER STAYS OVER.

  An operation that is over has nothing pending, its row never changes again, and nothing is
  submitted for it any more: every change rewrites the row of an operation that goes on, and an
  effect is asked for by one.  A retired allocation has no such operation, so it is the whole machine
  that has come to rest: every effect is settled, every resource recorded absent, and no request
  leaves any more.
-/
import AgentCloud.Lifecycle.Submissions

namespace AgentCloud.Lifecycle

open Checked Durable

variable {A : Replies} {offline : Bool}

/-! ## Rows that stay -/

/-- Rewriting an operation that goes on keeps the rows of those that are over. -/
theorem Sound.mem_mapOperation {journal : Journal} (hs : Sound journal)
    {operation row : OperationRow} (active : journal.Active operation)
    (hm : row ∈ journal.operations) (hdone : row.terminal = true)
    (f : OperationRow → OperationRow) : row ∈ (journal.mapOperation operation.id f).operations := by
  have hne : row.id ≠ operation.id := by
    intro hid
    obtain rfl := hs.operations.keyed.unique hm active.mem hid
    rw [active.going] at hdone
    cases hdone
  exact (hs.operations.keyed.mem_update active.mem).mpr (.inr ⟨hm, hne⟩)

/-- **Step lemma.**  The row of an operation that is over stays. -/
theorem Change.stays {log : Log} {clock : Instant} {journal journal' : Journal}
    (hs : Sound journal) (change : Change A log clock journal journal') {row : OperationRow}
    (hm : row ∈ journal.operations) (hdone : row.terminal = true) : row ∈ journal'.operations := by
  cases change with
  | progress active => exact hs.mem_mapOperation active hm hdone _
  | compensate active => exact hs.mem_mapOperation active hm hdone _
  | failed active => exact hs.mem_mapOperation active hm hdone _
  | completed active => exact hs.mem_mapOperation active hm hdone _
  | cleaned active => exact hs.mem_mapOperation active hm hdone _
  | takeover active => exact hs.mem_mapOperation active hm hdone _
  | controlClosed active => exact hs.mem_mapOperation active hm hdone _
  | opened => exact List.mem_append_left _ hm
  | prepare => exact hm
  | outcome => exact hm
  | claim => exact hm
  | bind => exact hm
  | absent => exact hm
  | settle => exact hm
  | granted => exact hm
  | closure => exact hm

theorem Admission.stays {journal journal' : Journal} {operation row : OperationRow}
    (h : Admission journal journal' operation) (hm : row ∈ journal.operations) :
    row ∈ journal'.operations := by
  obtain ⟨hourlyMicros, version, rfl⟩ := h.eq
  exact List.mem_append_left _ hm

/-! ## Operations that are over -/

/-- Since `log`, nothing was submitted for the operation, and its row is the same. -/
structure Frozen (log : Log) (row : OperationRow) (w : World interface) : Prop where
  mem : row ∈ w.store.journal.operations
  quiet : ∃ later, w.log = log ++ later ∧ ∀ exchange ∈ later, ∀ attemptId,
    exchange.call.attempt? = some attemptId → ∃ attempt ∈ w.store.journal.attempts,
      attempt.id = attemptId ∧ attempt.operationId ≠ row.id

/-- What was submitted stays so, whatever happens to the attempts otherwise. -/
theorem Frozen.rows {log : Log} {row : OperationRow} {w : World interface} {store : Store}
    (h : Frozen log row w) (hm : row ∈ store.journal.operations)
    (hkept : Kept w.store.journal.attempts store.journal.attempts) :
    Frozen log row (w.put store) := by
  obtain ⟨later, hlog, hquiet⟩ := h.quiet
  refine ⟨hm, later, hlog, fun exchange hx attemptId hcall => ?_⟩
  obtain ⟨a, ha, hid, howner⟩ := hquiet exchange hx attemptId hcall
  obtain ⟨b, hb, hkeeps⟩ := hkept a ha
  exact ⟨b, hb, hkeeps.same.id.trans hid, fun hb' => howner (hkeeps.same.operationId ▸ hb')⟩

/-- One more exchange, which is not for the operation. -/
theorem Frozen.exchange {log : Log} {row : OperationRow} {w : World interface} {q : Call}
    {r : q.Reply} (h : Frozen log row w) (hother : ∀ attemptId, q.attempt? = some attemptId →
      ∃ attempt ∈ w.store.journal.attempts, attempt.id = attemptId ∧
        attempt.operationId ≠ row.id) : Frozen log row (w.exchange q r) := by
  obtain ⟨later, hlog, hquiet⟩ := h.quiet
  refine ⟨h.mem, later ++ [⟨q, r⟩], by simp [hlog], fun exchange hx => ?_⟩
  rcases List.mem_append.mp hx with hx | hx
  · exact hquiet exchange hx
  · obtain rfl := List.mem_singleton.mp hx
    exact hother

/-- **Run lemma.**  An operation that is over is frozen. -/
theorem frozen_run {c c' : Machine} (hin : Discipline.InOrder (contract A) c) {row : OperationRow}
    (hm : row ∈ c.world.store.journal.operations) (hdone : row.terminal = true)
    (hreach : (system A offline).Reach c c') : Frozen c.world.log row c'.world := by
  refine run_invariant (P := Frozen c.world.log row) (fun {w j} hvalid h change => ?_)
    (fun {w q r} _ h quiet _ => ?_) (fun {w attempt r} hvalid h submits _ => ?_)
    (fun _ h _ => ?_) (fun {w _ _ _ _ _ _ _ j} _ h action ok => ?_) hin
    ⟨hm, [], by simp, fun _ hx => by cases hx⟩ hreach
  · exact h.rows (change.stays hvalid.sound h.mem hdone) (change.kept hvalid.sound)
  · refine h.exchange fun attemptId hcall => ?_
    rw [quiet] at hcall
    cases hcall
  · refine h.exchange fun attemptId hcall => ?_
    obtain ⟨operation, active, howner⟩ := submits.active
    refine ⟨attempt, submits.mem, Option.some.inj hcall, fun hid => ?_⟩
    -- the submitting operation goes on
    obtain rfl := hvalid.sound.operations.keyed.unique h.mem active.mem (hid.symm.trans howner)
    rw [active.going] at hdone
    cases hdone
  · exact h.rows h.mem (.refl _)
  · have hadmission := admission_of_ok action ok
    exact h.rows (hadmission.stays h.mem) (hadmission.attempts ▸ .refl _)

/-- **Terminal operations are settled and frozen.**  In every reachable state an operation that is
    over has no pending attempt, whether a cleanup was admitted or not; and from then on, whatever
    ticks, cleanups, decisions, enrollment steps, closures and admissions follow, its row (status,
    result and error) stays the same and nothing more is submitted for it. -/
theorem terminal_settled_and_frozen {start : World interface} (hstart : Initial start)
    {c : Machine} (hreach : (system anyReply true).Reach (.idle start) c) {row : OperationRow}
    (hm : row ∈ c.world.store.journal.operations) (hdone : row.terminal = true) :
    (∀ attempt ∈ c.world.store.journal.attempts, attempt.operationId = row.id →
      attempt.resolution ≠ .pending) ∧
    ∀ c', (system anyReply true).Reach c c' →
      row ∈ c'.world.store.journal.operations ∧
      ∃ later, c'.world.log = c.world.log ++ later ∧ ∀ exchange ∈ later, ∀ attemptId,
        exchange.call.attempt? = some attemptId →
          ∃ attempt ∈ c'.world.store.journal.attempts,
            attempt.id = attemptId ∧ attempt.operationId ≠ row.id := by
  have hin : Discipline.InOrder (contract anyReply) c := hstart.inOrder hreach
  refine ⟨hin.1.sound.settled row hm hdone, fun c' hlater => ?_⟩
  have hfrozen := frozen_run hin hm hdone hlater
  exact ⟨hfrozen.mem, hfrozen.quiet⟩

/-! ## Retired allocations -/

/-- Whatever was attempted for a retired allocation is settled. -/
theorem Sound.settled_of_retired {journal : Journal} (hs : Sound journal)
    (hretired : journal.allocation.live = false) :
    ∀ attempt ∈ journal.attempts, attempt.resolution ≠ .pending := by
  intro attempt hm
  obtain ⟨row, hrow, hid⟩ := hs.attempts.owner attempt hm
  exact hs.settled row hrow (hs.operations.retired hretired row hrow) attempt hm hid.symm

/-- **Step lemma.**  A retired allocation stays retired. -/
theorem Change.retired {log : Log} {clock : Instant} {journal journal' : Journal}
    (hs : Sound journal) (change : Change A log clock journal journal')
    (hretired : journal.allocation.live = false) : journal'.allocation.live = false := by
  have hactive : ∀ {operation : OperationRow}, ¬ journal.Active operation :=
    fun active => hs.not_retired active hretired
  cases change with
  | outcome => exact hretired
  | granted => exact hretired
  | opened mem create free live => rw [hretired] at live; cases live
  | progress active => exact absurd active hactive
  | prepare active => exact absurd active hactive
  | claim active => exact absurd active hactive
  | bind active => exact absurd active hactive
  | absent active => exact absurd active hactive
  | settle active => exact absurd active hactive
  | compensate active => exact absurd active hactive
  | failed active => exact absurd active hactive
  | completed active => exact absurd active hactive
  | cleaned active => exact absurd active hactive
  | takeover active => exact absurd active hactive
  | closure active => exact absurd active hactive
  | controlClosed active => exact absurd active hactive

/-- Retired, and no request since `log`. -/
structure AtRest (log : Log) (w : World interface) : Prop where
  retired : w.store.journal.allocation.live = false
  quiet : ∃ later, w.log = log ++ later ∧ ∀ exchange ∈ later, exchange.call.attempt? = none

/-- **Run lemma.**  A retired allocation is at rest. -/
theorem atRest_run {c c' : Machine} (hin : Discipline.InOrder (contract A) c)
    (hretired : c.world.store.journal.allocation.live = false)
    (hreach : (system A offline).Reach c c') : AtRest c.world.log c'.world := by
  refine run_invariant (P := AtRest c.world.log) (fun hvalid h change => ?_)
    (fun {w q r} _ h quiet _ => ?_) (fun {w attempt r} hvalid h submits _ => ?_)
    (fun _ h _ => ⟨h.retired, h.quiet⟩) (fun _ h action ok => ?_) hin
    ⟨hretired, [], by simp, fun _ hx => by cases hx⟩ hreach
  · exact ⟨change.retired hvalid.sound h.retired, h.quiet⟩
  · obtain ⟨later, hlog, hquiet⟩ := h.quiet
    refine ⟨h.retired, later ++ [⟨q, r⟩], by simp [hlog], fun exchange hx => ?_⟩
    rcases List.mem_append.mp hx with hx | hx
    · exact hquiet exchange hx
    · obtain rfl := List.mem_singleton.mp hx
      exact quiet
  · obtain ⟨operation, active, -⟩ := submits.active
    exact (hvalid.sound.not_retired active h.retired).elim
  · have hlive := (admission_of_ok action ok).live
    rw [h.retired] at hlive
    cases hlive

/-- **No orphan on retirement.**  In every reachable state in which the allocation is retired, on
    whichever path it was, every attempt of its operations is settled and every resource recorded for
    it is recorded absent; the allocation stays retired, and no effect at all is submitted for it
    afterwards. -/
theorem retired_without_orphan {start : World interface} (hstart : Initial start)
    {c : Machine} (hreach : (system anyReply true).Reach (.idle start) c)
    (hretired : c.world.store.journal.allocation.live = false) :
    (∀ attempt ∈ c.world.store.journal.attempts, attempt.resolution ≠ .pending) ∧
    (∀ resource ∈ c.world.store.journal.resources, resource.live = false) ∧
    ∀ c', (system anyReply true).Reach c c' →
      c'.world.store.journal.allocation.live = false ∧
      ∃ later, c'.world.log = c.world.log ++ later ∧
        ∀ exchange ∈ later, exchange.call.attempt? = none := by
  have hin : Discipline.InOrder (contract anyReply) c := hstart.inOrder hreach
  refine ⟨hin.1.sound.settled_of_retired hretired, hin.1.sound.ledger.gone hretired,
    fun c' hlater => ?_⟩
  have hrest := atRest_run hin hretired hlater
  exact ⟨hrest.retired, hrest.quiet⟩

namespace Demo

/-- The destroyed machine has nothing pending and nothing left. -/
theorem destroyed_without_orphan :
    (∀ attempt ∈ destroyed.store.journal.attempts, attempt.resolution ≠ .pending) ∧
    ∀ resource ∈ destroyed.store.journal.resources, resource.live = false := by
  have hretired : destroyed.store.journal.allocation.live = false := by decide +kernel
  have h := retired_without_orphan start_initial (destroyed_reached true) hretired
  exact ⟨h.1, h.2.1⟩

/-- The create as it ended. -/
def createRow : OperationRow :=
  ⟨"create", "root", .create ⟨"web", .small, .nbg1⟩, some offer, .run, .succeeded 1000, 0⟩

/-- The cleanup did not reopen the create. -/
theorem create_frozen : createRow ∈ destroyed.store.journal.operations := by
  have hm : createRow ∈ created.store.journal.operations := by decide +kernel
  have h := terminal_settled_and_frozen start_initial (created_reachable true) hm rfl
  exact (h.2 _ ((cleaning_reachable true).trans (destroyed_reachable true))).1

end Demo

end AgentCloud.Lifecycle
