/-
  JOURNALLING IS SAFE: an effect is asked for only with its own committed attempt.

  `Ready` is what a worker must know before it journals an effect; the branches of the workers prove
  it.  `verified_journalEffect` follows `journalEffect` from there: the attempt is committed within
  its authority (`Prepared`), submitted once, its receipt recorded and what it names claimed.  A
  death between any two of these leaves the journal in order, since each is a change of its own.
-/
import AgentCloud.Lifecycle.Rules

namespace AgentCloud.Lifecycle

open Checked Durable

variable {A : Replies} {config : Config} {operation : OperationRow} {command : ProviderCommand}
  {authorization : Authorization} {journal journal' : Journal} {log : Log} {now : Instant}

/-- What must be known before an effect is journalled. -/
structure Ready (operation : OperationRow) (command : ProviderCommand)
    (authorization : Authorization) (journal : Journal) (log : Log) : Prop where
  working : Working operation journal
  target : ∀ ref, command.target? = some ref → (journal.resource ref).any OwnedResource.live = true
  authority : (authorization ≠ .admittedCleanup ∧ operation.isCleanup = false ∧
      journal.Idle operation ∧ NextEffect journal operation command) ∨
    (authorization = .admittedCleanup ∧ ∃ ref, command = .deletion ref ∧ (ref.kind = .server →
      ∀ cleanup ∈ journal.cleanups, pendingServer journal cleanup.sourceOperationId = true →
        Detached log ref.id))

/-- An attempt that is committed and not submitted. -/
structure Prepared (operation : OperationRow) (command : ProviderCommand) (id : AttemptId)
    (journal : Journal) (log : Log) : Prop where
  working : Working operation journal
  attempt : ∃ a ∈ journal.attempts, a.id = id ∧ a.command = command ∧
    a.operationId = operation.id ∧ a.outcome = .prepared ∧ a.resolution = .pending
  unasked : submissions log id = 0
  unclaimed : command.isCreation = true →
    ∀ row ∈ journal.resources, row.ref.kind ≠ command.resourceKind
  cleared : ∀ cleanup ∈ journal.cleanups, Cleared log journal cleanup command

/-! ## The attempt is committed -/

theorem insertAttempt_ok {env : Env} {new : Attempt}
    (h : insertAttempt env journal now new = .ok journal') :
    journal.attempt new.id = none ∧ guardCleanupEffect journal now new = .ok () ∧
      journal' = { journal with attempts := journal.attempts ++ [new] } := by
  simp only [insertAttempt, bind_ok_iff, refuse_ok_iff] at h
  obtain ⟨_, hfresh, _, -, _, -, _, hguard, hinsert⟩ := h
  refine ⟨?_, hguard, ?_⟩
  · refine Table.get_eq_none.mpr fun a ha hid => hfresh ?_
    rw [List.any_eq_true]
    exact ⟨a, ha, by simp [hid]⟩
  · split at hinsert
    · simp at hinsert
    · exact (pure_ok_iff.mp hinsert).symm

/-- The attempt that the transaction commits. -/
def attemptOf (operation : OperationRow) (command : ProviderCommand) (env : Env)
    (journal : Journal) (now : Instant) : Attempt :=
  ⟨env.id, operation.id, (journal.history operation.id).length + 1, command, .prepared, .pending, now⟩

theorem prepareAttempt_ok {env : Env} {id : AttemptId}
    (h : prepareAttempt config operation command authorization env now journal =
      .ok (id, journal')) :
    ∃ account stored, journal.operation operation.id = some stored ∧
      checkAuthorization config operation command authorization env now journal account stored =
        .ok () ∧
      id = env.id ∧ journal.attempt env.id = none ∧
      guardCleanupEffect journal now (attemptOf operation command env journal now) = .ok () ∧
      journal' = { journal with
          attempts := journal.attempts ++ [attemptOf operation command env journal now] }.mapOperation
        operation.id fun row => { row with progress := .submitting env.id } := by
  simp only [prepareAttempt, bind_ok_iff, present_ok_iff, pure_ok_iff, Prod.mk.injEq] at h
  obtain ⟨account, -, stored, hstored, _, hcheck, j₁, hinsert, j₂, hupdate, rfl, rfl⟩ := h
  obtain ⟨hfresh, hguard, rfl⟩ := insertAttempt_ok hinsert
  rcases updateOperation_ok hupdate with ⟨hnone, -⟩ | ⟨old, -, -, rfl⟩
  · rw [show journal.operation operation.id = none from hnone] at hstored; cases hstored
  · exact ⟨account, stored, hstored, hcheck, rfl, hfresh, hguard, rfl⟩

/-- The effect does not depend on the progress of its operation. -/
theorem NextEffect.reprogress {progress : OperationProgress}
    (h : NextEffect journal operation command) :
    NextEffect journal { operation with progress } command :=
  ⟨h.asks, h.intent, h.keeps, h.labelled, h.offered, h.backedUp, h.first⟩

/-- A cleanup's deletion, behind the guard of the database. -/
theorem cleared_of_guarded {new : Attempt} {cleanup : OperationCleanup} {ref : ResourceRef}
    (hs : Sound journal) (hc : cleanup ∈ journal.cleanups)
    (hguard : guardAdmittedEffect journal now new = .ok ()) (href : new.command = .deletion ref)
    (hdetached : ref.kind = .server → pendingServer journal cleanup.sourceOperationId = true →
      Detached log ref.id) : Cleared log journal cleanup new.command := by
  simp only [guardAdmittedEffect, bind_ok_iff, present_ok_iff, refuse_ok_iff] at hguard
  obtain ⟨own, hown, ref', href', _, hlive, _, hunsettled, -⟩ := hguard
  obtain rfl : ref' = ref := by
    rw [href, ProviderCommand.deletion_deletes?, Option.some.injEq] at href'
    exact href'.symm
  obtain rfl := hs.operations.single _ (Table.get_mem hown) _ hc
  simp only [not_or, not_not] at hlive
  refine ⟨ref', href, hlive.2, fun hip => ?_, hdetached⟩
  simp only [hip, true_and, not_or] at hunsettled
  exact ⟨by simpa using hunsettled.1, by simpa using hunsettled.2⟩

/-- A deletion that is prepared disturbs no clearance. -/
theorem Cleared.append {cleanup : OperationCleanup} (new : Attempt)
    (h : Cleared log journal cleanup new.command) {operations : List OperationRow} :
    Cleared log { journal with operations, attempts := journal.attempts ++ [new] } cleanup
      new.command := by
  obtain ⟨ref, hdelete, hlive, hip, hserver⟩ := h
  have hpending : ∀ id, pendingServer { journal with
      operations, attempts := journal.attempts ++ [new] } id = pendingServer journal id := by
    intro id
    have hno : new.command.isServerCreate = false := by
      rw [hdelete]
      obtain ⟨kind, id⟩ := ref
      cases kind <;> rfl
    simp only [pendingServer, Journal.history, List.filter_append, List.any_append]
    by_cases hid : new.operationId = id <;> simp [hid, hno]
  refine ⟨ref, hdelete, hlive, fun hkind => ?_, fun hkind hp => ?_⟩
  · rw [hpending]
    exact hip hkind
  · rw [hpending] at hp
    exact hserver hkind hp

/-- What was claimed before an effect was journalled came from other creates. -/
theorem unclaimed_of_next (hs : Sound journal) (hw : Working operation journal)
    (effect : NextEffect journal operation command) (hcreation : command.isCreation = true) :
    ∀ row ∈ journal.resources, row.ref.kind ≠ command.resourceKind := by
  intro row hm hkind
  obtain ⟨a, ha, hacreation, hakind, -⟩ := hs.ledger.created row hm
  obtain ⟨owner, howner, hid⟩ := hs.attempts.owner a ha
  obtain ⟨progress, active⟩ := hw.row
  -- there is one create, so both creations are its own
  have hcreate := OperationRow.create_of_mayAsk (hs.attempts.asked a ha owner howner hid) hacreation
  have hsame := hs.operations.create _ howner _ active.mem hcreate
    (@OperationRow.create_of_mayAsk operation _ effect.asks hcreation)
  have hown : a.operationId = operation.id := by rw [← hid, hsame]
  refine effect.first a ha hown (ProviderCommand.once_of_kind hacreation hcreation ?_)
  rw [hakind, hkind]

/-- A cleanup's effects pass its guard. -/
theorem guarded_of_admitted {env : Env} {account : Account} {stored : OperationRow} {new : Attempt}
    (hcheck : checkAuthorization config operation command .admittedCleanup env now journal account
      stored = .ok ()) (howner : new.operationId = operation.id)
    (hguard : guardCleanupEffect journal now new = .ok ()) :
    ∃ cleanup ∈ journal.cleanups, cleanup.operationId = operation.id ∧
      guardAdmittedEffect journal now new = .ok () := by
  simp only [checkAuthorization, checkAdmitted, bind_ok_iff, refuse_ok_iff] at hcheck
  obtain ⟨_, hnone, -⟩ := hcheck
  obtain ⟨cleanup, hget⟩ := Option.ne_none_iff_exists'.mp hnone
  have hmem := Table.get_mem hget
  have hkey : cleanup.operationId = operation.id := Table.get_key hget
  refine ⟨cleanup, hmem, hkey, ?_⟩
  rw [guardCleanupEffect, if_pos] at hguard
  · exact hguard
  · rw [List.any_eq_true]
    exact ⟨cleanup, hmem, by simp [hkey, howner]⟩

theorem verified_prepareAttempt :
    Verified A (Ready operation command authorization)
      (transact (prepareAttempt config operation command authorization))
      (fun id => Prepared operation command id) fun j _ => Working operation j := by
  refine .transact (fun _ _ h => h.working.busy) (fun _ _ h => h.working)
    fun v hv hvalid env id j' hok => ?_
  obtain ⟨account, stored, -, hcheck, rfl, hfresh, hguard, rfl⟩ := prepareAttempt_ok hok
  obtain ⟨hworking, htarget, hauthority⟩ := hv
  have hs := hvalid.sound
  have htick := hworking
  obtain ⟨progress, active⟩ := hworking.row
  let new := attemptOf operation command env v.store.journal v.store.clock
  have hunasked : submissions v.log env.id = 0 := by
    rw [submissions, List.countP_eq_zero]
    intro exchange hm hid
    obtain ⟨call, reply⟩ := exchange
    cases call <;> simp only [Call.attempt?, decide_eq_true_eq, reduceCtorEq] at hid
    obtain ⟨a, ha, haid, -⟩ := hvalid.submitted _ hm _ _ rfl
    exact Table.get_eq_none.mp hfresh a ha (haid.trans (Option.some.inj (of_decide_eq_true hid)))
  -- who may prepare it, and what clears its submission
  have hprepare : Authority v.store.journal v.store.clock { operation with progress } new ∧
      (command.isCreation = true →
        ∀ row ∈ v.store.journal.resources, row.ref.kind ≠ command.resourceKind) ∧
      ∀ cleanup ∈ v.store.journal.cleanups, Cleared v.log v.store.journal cleanup command := by
    rcases hauthority with ⟨-, huncleaned, hidle, heffect⟩ | ⟨rfl, ref, hdelete, hdetached⟩
    · have hnone := hs.operations.uncleaned_of_active active.mem active.going huncleaned
      refine ⟨.next hnone hidle heffect.reprogress, unclaimed_of_next hs htick heffect, ?_⟩
      simp [hnone]
    · obtain ⟨cleanup, hmem, hkey, hadmitted⟩ := guarded_of_admitted hcheck rfl hguard
      refine ⟨.admitted cleanup hmem hkey hadmitted, fun hcreation => ?_, fun c hc => ?_⟩
      · rw [hdelete, ProviderCommand.deletion_isCreation] at hcreation; cases hcreation
      · exact cleared_of_guarded hs hc hadmitted hdelete fun hkind =>
          hdetached hkind c hc
  obtain ⟨hauth, hunclaimed, hcleared⟩ := hprepare
  have hchange : Change A v.log v.store.clock v.store.journal
      { v.store.journal with attempts := v.store.journal.attempts ++ [new] } :=
    .prepare active (hs.live_of_active active) new hfresh rfl rfl rfl rfl htarget hauth
  have hsound := hchange.sound hs
  have hmid : Working operation
      { v.store.journal with attempts := v.store.journal.attempts ++ [new] } :=
    htick.of_operations rfl
  obtain ⟨progress', active'⟩ := hmid.row
  refine ⟨(Relation.ReflTransGen.single hchange).tail
    (.progress active' (.submitting env.id) rfl), fun _ => ?_⟩
  exact {
    working := hmid.mapProgress hsound rfl
    attempt := ⟨new, List.mem_append_right _ (List.mem_singleton.mpr rfl), rfl, rfl, rfl, rfl, rfl⟩
    unasked := hunasked
    unclaimed := hunclaimed
    cleared := fun c hc => (hcleared c hc).append new }

/-! ## The effect is asked for -/

/-- An attempt that is submitted, with its receipt still to be recorded. -/
structure Submitted (operation : OperationRow) (command : ProviderCommand) (id : AttemptId)
    (journal : Journal) : Prop where
  working : Working operation journal
  attempt : ∃ a ∈ journal.attempts, a.id = id ∧ a.command = command ∧ a.outcome = .prepared
  unclaimed : command.isCreation = true →
    ∀ row ∈ journal.resources, row.ref.kind ≠ command.resourceKind

theorem verified_submit {id : AttemptId} :
    Verified A (Prepared operation command id) (submit id command)
      (fun _ j _ => Submitted operation command id j) fun j _ => Working operation j := by
  refine .bind (Q := fun _ j _ => Submitted operation command id j)
    (Triple.ask (Condition.Busy.stable fun j l (h : Prepared operation command id j l) =>
      h.working.busy) fun v hv hvalid r hr => ?_) fun r => ?_
  · obtain ⟨hworking, ⟨a, ha, rfl, rfl, howner, hprepared, hpending⟩, hunasked, hunclaimed,
      hcleared⟩ := hv
    obtain ⟨progress, active⟩ := hworking.row
    exact ⟨.submit active ha howner hprepared hpending hunasked hcleared r hr,
      hworking, ⟨a, ha, rfl, rfl, hprepared⟩, hunclaimed⟩
  · split
    · exact .pure fun _ _ h => h
    · exact .pure fun _ _ h => h

/-! ## What came of it -/

theorem updateAttempts_ok {env : Env} {where? : Attempt → Bool} {f : Attempt → Attempt}
    (h : updateAttempts env journal where? f = .ok journal') :
    (∀ a ∈ journal.attempts, where? a = true → guardProviderAttempt env journal a (f a) = .ok ()) ∧
      journal' = { journal with
        attempts := journal.attempts.map fun a => if where? a then f a else a } := by
  simp only [updateAttempts, bind_ok_iff, pure_ok_iff] at h
  obtain ⟨checked, hcheck, rfl⟩ := h
  refine ⟨fun a ha hwhere => ?_, rfl⟩
  obtain ⟨u, -, hok⟩ := (checkEach_ok hcheck).1 a (List.mem_filter.mpr ⟨ha, hwhere⟩)
  exact hok

/-- The update of the attempt with an identifier, as the rewrite of one row. -/
theorem updateAttempt_ok {env : Env} {id : AttemptId} {f : Attempt → Attempt}
    (h : updateAttempts env journal (fun a => decide (a.id = id)) f = .ok journal') :
    (∀ a ∈ journal.attempts, a.id = id → guardProviderAttempt env journal a (f a) = .ok ()) ∧
      journal' = journal.mapAttempt id f := by
  obtain ⟨hguard, rfl⟩ := updateAttempts_ok h
  refine ⟨fun a ha hid => hguard a ha (by simp [hid]), ?_⟩
  simp [Journal.mapAttempt, Table.update]

/-- The attempt with the receipt that was recorded. -/
structure Receipted (operation : OperationRow) (command : ProviderCommand) (outcome : Submission)
    (journal : Journal) : Prop where
  working : Working operation journal
  attempt : ∃ a ∈ journal.attempts, a.command = command ∧ a.outcome = .received outcome

theorem verified_recordOutcome {id : AttemptId} {outcome : Submission} :
    Verified A (fun j _ => Submitted operation command id j) (recordOutcome id outcome)
      (fun _ j _ => Receipted operation command outcome j) fun j _ => Working operation j := by
  refine .transact (fun _ _ h => h.working.busy) (fun _ _ h => h.working)
    fun v hv hvalid env u j' hok => ?_
  simp only [bind_ok_iff, pure_ok_iff, Prod.mk.injEq] at hok
  obtain ⟨j₁, hupdate, -, rfl⟩ := hok
  obtain ⟨-, rfl⟩ := updateAttempt_ok hupdate
  obtain ⟨hworking, ⟨a, ha, rfl, rfl, hprepared⟩, hunclaimed⟩ := hv
  refine ⟨.single (.outcome ha hprepared outcome hunclaimed), fun _ =>
    ⟨hworking.of_operations rfl, { a with outcome := .received outcome }, ?_, rfl, rfl⟩⟩
  exact (hvalid.sound.attempts.keyed.mem_update ha).mpr (.inl rfl)

theorem verified_claimReceipt {outcome : Submission} :
    Verified A (fun j _ => Receipted operation command outcome j) (claimReceipt command outcome)
      (fun _ j _ => Working operation j) fun j _ => Working operation j := by
  refine .transact (fun _ _ h => h.working.busy) (fun _ _ h => h.working)
    fun v hv hvalid env u j' hok => ?_
  obtain ⟨hworking, a, ha, rfl, houtcome⟩ := hv
  have hsame : Changes A v.log v.store.clock v.store.journal v.store.journal ∧
      (Sound v.store.journal → Working operation v.store.journal) := ⟨.refl, fun _ => hworking⟩
  split at hok
  · next resource labels hresource hlabels =>
    split at hok
    · next hkind =>
      simp only [bind_ok_iff, pure_ok_iff, Prod.mk.injEq] at hok
      obtain ⟨j₁, hclaim, -, rfl⟩ := hok
      -- a receipt that names a resource is no rejection
      have hmay : a.mayExist = true := by
        rw [Attempt.mayExist, houtcome]
        cases outcome <;> simp_all [Submission.resource?, AttemptOutcome.rejected]
      have hcreation := ProviderCommand.isCreation_of_labels hlabels
      obtain ⟨hchanges, hclaims⟩ := claimResource_changes A v.log hworking
        (.inl ⟨a, ha, hcreation, hmay, hkind, hlabels⟩) hclaim
      exact ⟨hchanges, fun _ => hclaims.working hworking⟩
    · obtain ⟨-, rfl⟩ := Prod.mk.inj (pure_ok_iff.mp hok)
      exact hsame
  · obtain ⟨-, rfl⟩ := Prod.mk.inj (pure_ok_iff.mp hok)
    exact hsame

/-! ## The whole -/

/-- From the committed attempt on. -/
theorem verified_journal :
    Verified A (Ready operation command authorization)
      (Prog.bind (S := interface)
        (transact (prepareAttempt config operation command authorization)) fun attemptId =>
        (submit attemptId command).bind fun outcome =>
          (recordOutcome attemptId outcome).bind fun _ => claimReceipt command outcome)
      (fun _ j _ => Working operation j) fun j _ => Working operation j :=
  .bind verified_prepareAttempt fun _ => .bind verified_submit fun _ =>
    .bind verified_recordOutcome fun _ => verified_claimReceipt

/-- The quote of an effect reads. -/
theorem verified_quote {P : Condition} {allocation : Allocation} (hP : P.Busy)
    (hquiet : command.monetary = true → ∀ j l l', P j l → P j l') :
    Verified A P (quote operation allocation command) (fun _ => P) P := by
  unfold quote
  split
  · next hmonetary =>
    have hkeep : ∀ j l l', P j l → P j l' := hquiet hmonetary
    refine .bind (Q := fun _ => P) (.readJournal hP fun _ _ h _ => h) fun journal =>
      .bind (Q := fun _ => P) (.ofExcept (fun _ _ _ _ h => h) fun _ _ h => h) fun offer =>
      .bind (Q := fun _ => P) ?_ fun catalog =>
      .bind (Q := fun _ => P) (.observe hP fun _ h _ _ => h) fun date =>
      .ofExcept (fun _ _ _ _ h => h) fun _ _ h => h
    refine .bind (Q := fun _ => P) (.ask hP rfl fun v hv r _ => ?_) fun r =>
      .ofExcept (fun _ _ _ _ h => h) fun _ _ h => h
    exact hkeep _ _ _ hv
  · exact .pure fun _ _ h => h

/-- **Journalling is safe.** -/
theorem verified_journalEffect {allocation : Allocation} :
    Verified A (Ready operation command authorization)
      (journalEffect config operation allocation command authorization)
      (fun _ j _ => Working operation j) fun j _ => Working operation j := by
  refine .bind (.post (verified_quote (P := Ready operation command authorization)
    (fun _ _ h => h.working.busy) fun hmonetary j l l' h => ?_) (fun _ _ _ h => h)
    fun _ _ h => h.working) fun _ => verified_journal
  -- a monetary effect is no deletion, so nothing about the log was known
  obtain ⟨hworking, htarget, hauthority⟩ := h
  refine ⟨hworking, htarget, ?_⟩
  rcases hauthority with hfresh | ⟨-, ref, rfl, -⟩
  · exact .inl hfresh
  · obtain ⟨kind, id⟩ := ref
    cases kind <;> cases hmonetary

end AgentCloud.Lifecycle
