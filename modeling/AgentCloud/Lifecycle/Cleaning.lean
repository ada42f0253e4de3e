/-
  CLEANING IS SAFE: a tick of an admitted cleanup, and the tick of any operation.

  The pending attempts are resolved one after another, each against the ledger as it was before the
  loop; `Sweeping` is what survives a round.  The rest of the tick works on one resource.  A server is
  deleted under what the two latest reads say about it and its address (`Detached`), which no call in
  between disturbs; everything else about a deletion is the guard's business.
-/
import AgentCloud.Lifecycle.Advancing

namespace AgentCloud.Lifecycle

open Checked Durable

variable {A : Replies} {config : Config} {operation : OperationRow} {start current : Journal}

/-! ## Resolving what is pending -/

/-- What survives a round: the cleanup goes on, and the attempts still to be looked at are there. -/
structure Sweeping (operation : OperationRow) (start : Journal) (rest : List Attempt)
    (journal : Journal) : Prop where
  working : Working operation journal
  cleanups : journal.cleanups = start.cleanups
  kept : ∀ a ∈ rest, a ∈ journal.attempts
  refs : ∀ row ∈ start.resources, ∃ row' ∈ journal.resources, row'.ref = row.ref

theorem verified_resolvePending {work : CleanupWork} (hwork : work.operation = operation)
    (hs : Sound start) (rest : List Attempt) (hrest : ∀ a ∈ rest, a ∈ start.attempts)
    (hpending : ∀ a ∈ rest, a.resolution = .pending) (hdistinct : (rest.map Attempt.id).Nodup) :
    Verified A (fun j _ => Sweeping operation start rest j)
      (resolvePending work start rest)
      (fun _ j _ => Sweeping operation start [] j) fun j _ => Working operation j := by
  induction rest with
  | nil => exact .pure fun _ _ hj => hj
  | cons attempt rest ih =>
    rw [List.map_cons, List.nodup_cons] at hdistinct
    have hnext := ih (fun a ha => hrest a (by simp [ha])) (fun a ha => hpending a (by simp [ha]))
      hdistinct.2
    refine .bind (Q := fun _ j _ => Sweeping operation start (attempt :: rest) j)
      (.ofExcept (fun _ _ _ _ hj => hj) fun _ _ hj => hj.working) fun _ => ?_
    rw [hwork]
    -- the round works on the journal as it is now
    refine .bind (Q := fun _ j _ => Sweeping operation start rest j)
      (.pre (P := fun j _ => ∃ now, Sweeping operation start (attempt :: rest) now ∧
        Discovering operation now j) (.ex fun now => .fact fun hnow => ?_) fun j _ hj =>
        ⟨j, hj, hj.working, .refl j⟩) fun _ => hnext
    have hmem : attempt ∈ now.attempts := hnow.kept attempt (by simp)
    have hknown : TargetKnown attempt now := by
      intro target htarget
      obtain ⟨row, hrow, href⟩ := hs.attempts.target attempt (hrest attempt (by simp)) target htarget
      obtain ⟨row', hrow', href'⟩ := hnow.refs row hrow
      exact ⟨row', hrow', href'.trans href⟩
    refine .post (verified_resolveEffect hknown hmem (hpending attempt (by simp)))
      (fun _ j _ hj => ⟨hj.working, hj.cleanups.trans hnow.cleanups, fun a ha => ?_,
        fun row hrow => ?_⟩) fun _ _ hj => hj
    · refine hj.kept a (hnow.kept a (by simp [ha])) fun hid => ?_
      exact hdistinct.1 (hid ▸ List.mem_map.mpr ⟨a, ha, rfl⟩)
    · obtain ⟨row', hrow', href'⟩ := hnow.refs row hrow
      obtain ⟨row'', hrow'', href''⟩ := hj.refs row' hrow'
      exact ⟨row'', hrow'', href''.trans href'⟩

/-! ## Deleting a resource -/

/-- The resource of a tick: a live one of the journal that the tick has read again. -/
structure OnTarget (current : Journal) (operation : OperationRow) (work : CleanupWork)
    (row : OwnedResource) : Prop where
  sound : Sound current
  working : Working operation current
  same : work.operation = operation
  cleanup : work.cleanup ∈ current.cleanups
  mem : row ∈ current.resources
  live : row.live = true

/-- The deletion of a server is cleared by the log. -/
def ClearedBy (current : Journal) (ref : ResourceRef) (log : Log) : Prop :=
  ref.kind = .server → ∀ cleanup ∈ current.cleanups,
    pendingServer current cleanup.sourceOperationId = true → Detached log ref.id

theorem Latest.append {log : Log} {exchange later : Exchange interface} (h : Latest log exchange)
    (hne : later.call ≠ exchange.call) : Latest (log ++ [later]) exchange := by
  obtain ⟨before, after, rfl, hafter⟩ := h
  refine ⟨before, after ++ [later], by simp, fun e he => ?_⟩
  rcases List.mem_append.mp he with he | he
  · exact hafter e he
  · obtain rfl := List.mem_singleton.mp he
    exact hne

theorem Latest.last {log : Log} {exchange : Exchange interface} : Latest (log ++ [exchange]) exchange :=
  ⟨log, [], rfl, by simp⟩

/-- Reading an action says nothing new about a server. -/
theorem Detached.append {log : Log} {serverId actionId : String}
    {reply : Except Fault ProviderAction} (h : Detached log serverId) :
    Detached (log ++ [⟨.getAction actionId, reply⟩]) serverId := by
  obtain ⟨server, hserver, hips⟩ := h
  refine ⟨server, hserver.append (fun h => by cases h), fun ipId hip => ?_⟩
  obtain ⟨ip, hauto, hlatest⟩ := hips ipId hip
  exact ⟨ip, hauto, hlatest.append fun h => by cases h⟩

theorem verified_actionOver {ref : ResourceRef} {actionId : Option String}
    (hw : Working operation current) :
    Verified A (fun j l => j = current ∧ ClearedBy current ref l) (actionOver actionId)
      (fun _ j l => j = current ∧ ClearedBy current ref l) fun j _ => Working operation j := by
  unfold actionOver
  split
  · exact .pure fun _ _ hj => hj
  · refine .bind (.bind (Q := fun _ j l => j = current ∧ ClearedBy current ref l)
      (.ask (fun _ _ hj => hj.1 ▸ hw.busy) rfl fun v hv r _ => ⟨hv.1, fun hkind c hc hp =>
        (hv.2 hkind c hc hp).append⟩) fun r => .ofExcept (fun _ _ _ _ hj => hj)
        fun _ _ hj => hj.1 ▸ hw) fun action => .pure fun _ _ hj => hj

theorem verified_deleteTarget {work : CleanupWork} {row : OwnedResource} {history : List Attempt}
    (h : OnTarget current operation work row) :
    Verified A (fun j l => j = current ∧ ClearedBy current row.ref l)
      (deleteTarget config work current.allocation history row.ref)
      (fun _ j _ => Working operation j) fun j _ => Working operation j := by
  refine .bind (verified_actionOver h.working) fun done => ?_
  split
  · refine .bind (Q := fun _ j l => j = current ∧ ClearedBy current row.ref l)
      (.observe (fun _ _ hj => hj.1 ▸ h.working.busy) fun v hv _ _ => hv) fun decision => ?_
    rw [h.same]
    split
    · exact .pure fun _ _ hj => hj.1 ▸ h.working
    · exact .pre (verified_setProgress (P := fun j => Working operation j) (fun _ hw => hw)
        (fun _ _ _ hw => hw) rfl) fun _ _ hj => hj.1 ▸ h.working
    · refine .pre verified_journalEffect fun j l hj => ?_
      obtain ⟨rfl, hcleared⟩ := hj
      refine ⟨h.working, fun ref href => ?_, .inr ⟨rfl, row.ref, rfl, hcleared⟩⟩
      rw [ProviderCommand.target?_of_deletes (ProviderCommand.deletion_deletes? row.ref)] at href
      obtain rfl := Option.some.inj href
      rw [Journal.resource, h.sound.ledger.keyed.get h.mem]
      exact h.live
  · exact .pure fun _ _ hj => hj.1 ▸ h.working

/-- The source's pending server create is among the attempts of its cleanup. -/
theorem pendingVm_of_source {cleanup : OperationCleanup}
    (h : pendingServer current cleanup.sourceOperationId = true) :
    pendingVm (current.cleanupHistory cleanup) = true := by
  simp only [pendingServer, Journal.history, pendingVm, Journal.cleanupHistory, List.any_filter,
    List.any_eq_true, Bool.and_eq_true, decide_eq_true_eq] at h ⊢
  obtain ⟨a, ha, hop, hserver, hpending⟩ := h
  exact ⟨a, ha, .inr hop, hpending, hserver⟩

/-- The address of the server, and what its deletion takes along. -/
theorem verified_checkAttached {work : CleanupWork} {row : OwnedResource} {server : ProviderServer}
    (h : OnTarget current operation work row) :
    Verified A (fun j l => j = current ∧ ∃ before, l = before ++ [⟨.getServer row.ref.id,
        (.ok (some server) : Except Fault (Option ProviderServer))⟩])
      (checkAttached work current.resources (current.cleanupHistory work.cleanup) server)
      (fun free j l => (free = true → j = current ∧ ClearedBy current row.ref l) ∧
        Working operation j)
      fun j _ => Working operation j := by
  have hblock : ∀ P : Condition, (∀ j l, P j l → j = current) → Verified A P
      ((blockMismatch work.operation.id).bind fun _ => Pure.pure false)
      (fun free j l => (free = true → j = current ∧ ClearedBy current row.ref l) ∧
        Working operation j) fun j _ => Working operation j := by
    intro P hP
    rw [h.same]
    exact .bind (.pre verified_blockMismatch fun j l hj => hP j l hj ▸ h.working) fun _ =>
      .pure fun _ _ hj => ⟨fun hf => (by cases hf), hj⟩
  unfold checkAttached
  split
  · next hnone =>
    refine .pure fun j l ⟨hj, before, hl⟩ => ⟨fun _ => ⟨hj, fun _ _ _ _ => ?_⟩, hj ▸ h.working⟩
    rw [hl]
    exact ⟨server, .last, fun ipId hip => by rw [hnone] at hip; cases hip⟩
  · next ipId hsome =>
    refine .bind (.post (verified_readPrimaryIp (P := fun j l => j = current ∧ ∃ before, l = before ++
        [⟨.getServer row.ref.id, (.ok (some server) : Except Fault (Option ProviderServer))⟩])
      fun _ _ hj => hj.1 ▸ h.working.busy) (fun _ _ _ hj => hj) fun _ _ ⟨_, hj⟩ =>
      hj.1 ▸ h.working) fun seen => ?_
    split
    · next found ip hfound =>
      split
      · exact hblock _ fun j l ⟨v, hv, hj, _⟩ => hj.trans hv.1
      · refine .pure fun j l ⟨v, hv, hj, hl, _⟩ => ⟨fun hfree => ?_, (hj.trans hv.1) ▸ h.working⟩
        refine ⟨hj.trans hv.1, fun _ cleanup hc hpending => ?_⟩
        obtain ⟨before, hbefore⟩ := hv.2
        obtain rfl := h.sound.operations.single _ hc _ h.cleanup
        have hauto : ip.autoDelete = false := by
          simpa [pendingVm_of_source hpending] using hfree
        rw [hl, hbefore]
        refine ⟨server, Latest.last.append fun hcall => (by cases hcall), fun ipId' hip => ?_⟩
        obtain rfl : ipId = ipId' := Option.some.inj (hsome.symm.trans hip)
        exact ⟨ip, hauto, .last⟩
    · exact hblock _ fun j l ⟨v, hv, hj, _⟩ => hj.trans hv.1

theorem verified_cleanServer {work : CleanupWork} {row : OwnedResource}
    (h : OnTarget current operation work row) (hkind : row.ref.kind = .server) :
    Verified A (fun j _ => j = current)
      (cleanServer config work current (current.cleanupHistory work.cleanup) row)
      (fun _ j _ => Working operation j) fun j _ => Working operation j := by
  refine .bind (.post (verified_readServer (P := fun j _ => j = current)
    fun _ _ hj => hj ▸ h.working.busy) (fun _ _ _ hj => hj) fun _ _ hj => hj.elim fun _ heq => heq ▸ h.working)
    fun seen => ?_
  split
  · refine .pre verified_recordAbsenceNow ?_
    rintro j l ⟨v, rfl, rfl, hl, hA⟩
    exact ⟨h.working, v, rfl, by simp [nullRead, hkind, hl], by simpa [nullRead, hkind] using hA⟩
  · next server =>
    split
    · rw [h.same]
      refine .pre verified_blockMismatch ?_
      rintro j l ⟨v, rfl, rfl, -⟩
      exact h.working
    · refine .bind (.pre (verified_checkAttached h) ?_) fun free => ?_
      · rintro j l ⟨v, rfl, rfl, hl, -⟩
        exact ⟨rfl, v.log, hl⟩
      · split
        · next hfree => exact .pre (verified_deleteTarget h) fun _ _ hj => hj.1 hfree
        · exact .pure fun _ _ hj => hj.2

theorem verified_cleanIp {work : CleanupWork} {row : OwnedResource} {history : List Attempt}
    (h : OnTarget current operation work row) (hkind : row.ref.kind = .primaryIp) :
    Verified A (fun j _ => j = current) (cleanIp config work current history row)
      (fun _ j _ => Working operation j) fun j _ => Working operation j := by
  refine .bind (.post (verified_readPrimaryIp (P := fun j _ => j = current)
    fun _ _ hj => hj ▸ h.working.busy) (fun _ _ _ hj => hj) fun _ _ hj => hj.elim fun _ heq => heq ▸ h.working)
    fun seen => ?_
  split
  · refine .pre verified_recordAbsenceNow ?_
    rintro j l ⟨v, rfl, rfl, hl, hA⟩
    exact ⟨h.working, v, rfl, by simp [nullRead, hkind, hl], by simpa [nullRead, hkind] using hA⟩
  · next ip =>
    split
    · rw [h.same]
      refine .pre verified_blockMismatch ?_
      rintro j l ⟨v, rfl, rfl, -⟩
      exact h.working
    · split
      · next serverId _ =>
        rw [h.same]
        refine .pre (verified_setProgress (P := fun j => Working operation j) (fun _ hw => hw)
          (fun _ _ _ hw => hw) ?_) ?_
        · split <;> rfl
        · rintro j l ⟨v, rfl, rfl, -⟩
          exact h.working
      · refine .pre (verified_deleteTarget h) ?_
        rintro j l ⟨v, rfl, rfl, -⟩
        exact ⟨rfl, fun hserver => by rw [hkind] at hserver; cases hserver⟩

/-! ## The end of a cleanup -/

theorem retireJournal_changes {log : Log} {now : Instant} {journal journal' : Journal}
    {cleanup : OperationCleanup} (hs : Sound journal) (hw : Working operation journal)
    (hc : cleanup ∈ journal.cleanups) (hexecutor : cleanup.operationId = operation.id)
    (h : retireJournal now journal operation = .ok journal') :
    Changes A log now journal journal' := by
  obtain ⟨progress, hget, active⟩ := hw.get hs
  simp only [retireJournal, updateAllocation, bind_ok_iff, pure_ok_iff] at h
  obtain ⟨j₁, ⟨-, -, rfl⟩, hupdate⟩ := h
  have hlive : journal.allocation.live = true := hs.live_of_active active
  rcases updateOperation_ok hupdate with ⟨hnone, -⟩ | ⟨old, hold, hguard, rfl⟩
  · have hnone' : journal.operation operation.id = none := hnone
    rw [hget] at hnone'
    cases hnone'
  · have hold' : journal.operation operation.id = some old := hold
    rw [hget] at hold'
    obtain rfl := Option.some.inj hold'
    -- the guard has seen everything settled
    have hcleanup := hs.cleanup_get hc
    rw [hexecutor] at hcleanup
    have hsettled : journal.settled cleanup = true := by
      simp only [guardCleanupOperation, Journal.cleanup] at hguard
      rw [show Table.get OperationCleanup.operationId journal.cleanups operation.id = some cleanup
        from hcleanup] at hguard
      simp only [refuse_ok_iff, not_or] at hguard
      have hterminal : (cleanupEnd operation.kind now).terminal = true := by
        unfold cleanupEnd; split <;> rfl
      have hunsettled := hguard.2.2
      simp only [OperationRow.terminal, hterminal, true_and, not_or] at hunsettled
      have hopen := hunsettled.2.1
      simp only [Bool.not_eq_false] at hopen
      exact hopen
    have : Change A log now journal _ := .cleaned active hc hexecutor hsettled now
      (journal.machine.become (.destroyed now)) rfl
    have hretire : Allocation.retire now journal.allocation =
        { journal.allocation with retiredAt := some now } := if_pos hlive
    rw [hretire]
    exact .single this

theorem verified_retire {cleanup : OperationCleanup} (hw : Working operation current)
    (hc : cleanup ∈ current.cleanups) (hexecutor : cleanup.operationId = operation.id) :
    Verified A (fun j _ => j = current) (retire operation) (fun _ _ _ => True)
      fun j _ => Working operation j := by
  refine .transact (fun _ _ hj => hj ▸ hw.busy) (fun _ _ hj => hj ▸ hw) fun v hv hvalid env u j' hok => ?_
  simp only [bind_ok_iff, pure_ok_iff, Prod.mk.injEq] at hok
  obtain ⟨j₁, hretire, -, rfl⟩ := hok
  have hv' : v.store.journal = current := hv
  rw [← hv'] at hw hc
  exact ⟨retireJournal_changes hvalid.sound hw hc hexecutor hretire, fun _ => trivial⟩

/-! ## The tick -/

theorem verified_finishCleanup {work : CleanupWork} (hs : Sound current)
    (hw : Working operation current) (hsame : work.operation = operation)
    (hc : work.cleanup ∈ current.cleanups) (hexecutor : work.cleanup.operationId = operation.id) :
    Verified A (fun j _ => j = current) (finishCleanup config work current)
      (fun _ _ _ => True) fun j _ => Working operation j := by
  unfold finishCleanup
  split
  · next row hrow =>
    have htarget : row ∈ current.resources ∧ row.live = true := by
      have hfound : row ∈ current.resources.filter OwnedResource.live := by
        simp only [nextTarget, Option.or_eq_some_iff] at hrow
        rcases hrow with hserver | ⟨-, hip⟩
        · exact List.mem_of_find?_eq_some hserver
        · split at hip
          · cases hip
          · exact List.mem_of_find?_eq_some hip
      exact List.mem_filter.mp hfound
    have h : OnTarget current operation work row :=
      ⟨hs, hw, hsame, hc, htarget.1, htarget.2⟩
    unfold cleanTarget
    split
    · next hkind =>
      exact .post (verified_cleanServer h hkind) (fun _ _ _ _ => trivial) fun _ _ hj => hj
    · next hkind =>
      exact .post (verified_cleanIp h hkind) (fun _ _ _ _ => trivial) fun _ _ hj => hj
  · split
    · exact .pure fun _ _ _ => trivial
    · rw [hsame]
      exact verified_retire hw hc hexecutor

theorem verified_advanceCleanupWork {work : CleanupWork} (hs : Sound start)
    (hw : Working operation start) (hsame : work.operation = operation)
    (hc : work.cleanup ∈ start.cleanups) (hexecutor : work.cleanup.operationId = operation.id) :
    Verified A (fun j _ => j = start) (advanceCleanupWork config work start)
      (fun _ _ _ => True) fun j _ => Working operation j := by
  refine .bind (.pre (verified_resolvePending hsame hs _ (fun a ha => ?_) (fun a ha => ?_) ?_)
    fun j l hj => ?_) fun _ =>
    .bind (Q := fun journal j _ => (Sound journal ∧ Working operation journal ∧
      work.cleanup ∈ journal.cleanups) ∧ j = journal) (.readJournal (fun _ _ hj => hj.working.busy)
      fun j _ hj hs => ⟨⟨hs, hj.working, hj.cleanups ▸ hc⟩, rfl⟩) fun journal =>
    .fact fun ⟨hs', hw', hc'⟩ => verified_finishCleanup hs' hw' hsame hc' hexecutor
  · exact (List.mem_filter.mp (List.mem_filter.mp ha).1).1
  · simpa using (List.mem_filter.mp ha).2
  · -- attempts are keyed, and a filter keeps their order
    refine List.Nodup.sublist (List.Sublist.map _ ?_) hs.attempts.keyed
    exact (List.filter_sublist).trans List.filter_sublist
  · subst hj
    exact ⟨hw, rfl, fun a ha => (List.mem_filter.mp (List.mem_filter.mp ha).1).1,
      fun row hrow => ⟨row, hrow, rfl⟩⟩

theorem verified_recoverCleanup (fault : Fault) :
    Verified A (fun j _ => Working operation j) (recoverCleanup operation.id fault)
      (fun _ _ _ => True) fun _ _ => True := by
  cases fault with
  | other message => exact .raise fun _ _ _ => trivial
  | cloud failure =>
    unfold recoverCleanup
    split
    · next heq => cases heq
    · split
      · exact .pure fun _ _ _ => trivial
      · exact .post verified_blockMismatch (fun _ _ _ _ => trivial) fun _ _ _ => trivial

theorem verified_advanceCleanup (hs : Sound start) (active : start.Active operation) :
    Verified A (fun j _ => j = start) (advanceCleanup config operation start)
      (fun _ _ _ => True) fun _ _ => True := by
  refine .handle (F := fun j _ => Working operation j) ?_ verified_recoverCleanup
  refine .bind (Q := fun cleanup j _ => (cleanup ∈ start.cleanups ∧
    cleanup.operationId = operation.id) ∧ j = start) (.ofExcept (fun cleanup hok j _ hj => ⟨?_, hj⟩)
    fun _ _ hj => hj ▸ active.working) fun cleanup => .fact fun ⟨hc, hexecutor⟩ =>
    verified_advanceCleanupWork hs active.working rfl hc hexecutor
  simp only [authorityOf, bind_ok_iff, present_ok_iff, pure_ok_iff] at hok
  obtain ⟨found, hget, -, -, rfl⟩ := hok
  exact ⟨Table.get_mem hget, Table.get_key hget⟩

/-- **A tick is safe.** -/
theorem verified_advanceLocked (operationId : OperationId) :
    Verified A (fun _ _ => True) (advanceLocked config operationId)
      (fun _ _ _ => True) fun _ _ => True := by
  refine .bind (Q := fun journal j _ => Sound journal ∧ j = journal)
    (.readFirst fun j _ hs => ⟨hs, rfl⟩) fun start => .fact fun hs => ?_
  split
  · exact .pure fun _ _ _ => trivial
  · next operation hfound =>
    split
    · exact .pure fun _ _ _ => trivial
    · next hgoing =>
      have active : start.Active operation :=
        ⟨Table.get_mem hfound, by simpa using hgoing⟩
      refine .bind (Q := fun _ j _ => j = start)
          (.ofExcept (fun _ _ _ _ hj => hj) fun _ _ _ => trivial) fun _ =>
        .bind (Q := fun _ j _ => j = start)
          (.ofExcept (fun _ _ _ _ hj => hj) fun _ _ _ => trivial) fun _ => ?_
      split
      · exact verified_advanceCleanup hs active
      · next hun => exact verified_advanceWork hs active (by simpa using hun)

end AgentCloud.Lifecycle
