/-
  ADVANCING IS SAFE: a tick of an operation that no cleanup has replaced.

  Everything a tick knows, it knows from the journal it has read (`start`): whose operation this is,
  that nothing of it is pending where it goes on to a next effect, and what its history shows.  Each
  branch then proves its effect to be a `NextEffect`, or its end to be one that the rows permit.
  Every failure before an end leaves the operation going (`Working`), which is all that the handler
  of the tick counts on.
-/
import AgentCloud.Lifecycle.Resolving

namespace AgentCloud.Lifecycle

open Checked Durable

variable {A : Replies} {config : Config} {operation : OperationRow} {start : Journal}

/-! ## The tick -/

/-- The rows of a tick: the operation that no cleanup has replaced, and what was read with it. -/
structure OnTick (start : Journal) (operation : OperationRow) (work : Work) : Prop where
  sound : Sound start
  working : Working operation start
  uncleaned : operation.isCleanup = false
  same : work.operation = operation
  history : work.history = start.history operation.id
  resources : work.resources = start.resources

/-- A tick that goes on to a next effect, or to its end. -/
structure OnFresh (start : Journal) (operation : OperationRow) (work : Work) : Prop extends
    OnTick start operation work where
  idle : start.Idle operation
  run : operation.intent = .run

namespace OnTick

variable {work : Work}

theorem mem_history (h : OnTick start operation work) {a : Attempt} :
    a ∈ work.history ↔ a ∈ start.attempts ∧ a.operationId = operation.id := by
  simp [h.history, Journal.history]

theorem kind_ne_destroy (h : OnTick start operation work) : operation.kind ≠ .destroy := by
  intro hkind
  obtain ⟨progress, active⟩ := h.working.row
  have hcleanup := h.sound.operations.destroys _ active.mem hkind
  exact Bool.false_ne_true (h.uncleaned.symm.trans hcleanup)

theorem kind_of_compensate (h : OnTick start operation work) {error : Failure}
    (hcomp : operation.intent = .compensate error) : operation.kind = .create := by
  obtain ⟨progress, active⟩ := h.working.row
  have hkind := h.sound.operations.compensates _ active.mem error hcomp
  exact hkind

/-- What a search of the history did not find is not among the attempts. -/
theorem effectOf_none (h : OnTick start operation work) {kind : ProviderCommand → Bool}
    (hnone : effectOf work.history kind = none) {a : Attempt} (ha : a ∈ start.attempts)
    (hop : a.operationId = operation.id) : kind a.command = false := by
  have := List.find?_eq_none.mp hnone a (h.mem_history.mpr ⟨ha, hop⟩)
  simpa using this

/-- A row of the ledger is still there. -/
theorem resource_live (h : OnTick start operation work) {journal : Journal}
    (hj : Ticking operation start journal) {row : OwnedResource} (hm : row ∈ work.resources)
    (hl : row.live = true) : (journal.resource row.ref).any OwnedResource.live = true := by
  rw [h.resources] at hm
  rw [Journal.resource, hj.resources, h.sound.ledger.keyed.get hm]
  exact hl

end OnTick

/-- Whatever the tick has read of attempts still holds. -/
theorem Ticking.idle {journal : Journal} (hj : Ticking operation start journal)
    (hidle : start.Idle operation) : journal.Idle operation := by
  intro a ha
  rw [hj.attempts] at ha
  exact hidle a ha

theorem NextEffect.ticking {journal : Journal} {command : ProviderCommand}
    (h : NextEffect start operation command) (hj : Ticking operation start journal) :
    NextEffect journal operation command :=
  ⟨h.asks, h.intent, h.keeps, h.labelled, h.offered, h.backedUp, by rw [hj.attempts]; exact h.first⟩

/-- What is ready to be journalled from a tick. -/
theorem Ticking.ready {journal : Journal} {log : Log} {command : ProviderCommand}
    {authorization : Authorization} (hj : Ticking operation start journal)
    (huncleaned : operation.isCleanup = false) (hidle : start.Idle operation)
    (hauth : authorization ≠ .admittedCleanup) (heffect : NextEffect start operation command)
    (htarget : ∀ ref, command.target? = some ref →
      (journal.resource ref).any OwnedResource.live = true) :
    Ready operation command authorization journal log :=
  ⟨hj.working, htarget, .inl ⟨hauth, huncleaned, hj.idle hidle, heffect.ticking hj⟩⟩

/-! ## Failure -/

theorem failJournal_changes {log : Log} {clock : Instant} {env : Env} {journal journal' : Journal}
    {error : Failure} {absent : Bool} (hs : Sound journal) (hw : Working operation journal)
    (huncleaned : operation.isCleanup = false) (hidle : journal.Idle operation)
    (hvacant : absent = true → operation.kind = .create →
      ∀ row ∈ journal.resources, row.live = false)
    (h : failJournal env journal operation error absent = .ok journal') :
    Changes A log clock journal journal' := by
  obtain ⟨progress, hget, active⟩ := hw.get hs
  simp only [failJournal, bind_ok_iff] at h
  obtain ⟨j₁, hupdate, h⟩ := h
  obtain ⟨old, -, -, rfl⟩ : ∃ old, journal.operation operation.id = some old ∧
      guardCleanupOperation journal old _ = .ok () ∧ j₁ = journal.mapOperation operation.id _ := by
    rcases updateOperation_ok hupdate with ⟨hnone, -⟩ | hsome
    · rw [hnone] at hget; cases hget
    · exact hsome
  split at h
  · next hcreate =>
    split at h
    · next habsent =>
      simp only [updateAllocation, bind_ok_iff, pure_ok_iff] at h
      obtain ⟨-, -, rfl⟩ := h
      have hlive : journal.allocation.live = true := hs.live_of_active active
      have : Change A log clock journal _ := .failed active huncleaned hidle env.date
        error (journal.machine.become (.failed error)) rfl (by simp [MachineRow.become,
          MachineState.stage]) (some env.date) fun _ => ⟨hcreate, hvacant habsent hcreate⟩
      refine .single ?_
      simpa [Allocation.retire, hlive, Journal.mapOperation] using this
    · obtain rfl := pure_ok_iff.mp h
      exact .single (.failed active huncleaned hidle env.date
        error (journal.machine.become (.failed error)) rfl (by simp [MachineRow.become,
          MachineState.stage]) journal.allocation.retiredAt fun hne => absurd rfl hne)
  · obtain rfl := pure_ok_iff.mp h
    exact .single (.failed active huncleaned hidle env.date
      error journal.machine rfl (hs.standing (hs.live_of_active active))
      journal.allocation.retiredAt fun hne => absurd rfl hne)

theorem verified_fail {error : Failure} {absent : Bool} (huncleaned : operation.isCleanup = false)
    (hidle : start.Idle operation) (hvacant : absent = true → operation.kind = .create →
      ∀ row ∈ start.resources, row.live = false) :
    Verified A (fun j _ => Ticking operation start j) (fail operation error absent)
      (fun _ _ _ => True) fun _ _ => True := by
  refine .transact (fun _ _ h => h.busy) (fun _ _ _ => trivial) fun v hv hvalid env u j' hok => ?_
  simp only [bind_ok_iff, pure_ok_iff, Prod.mk.injEq] at hok
  obtain ⟨j₁, hfail, -, rfl⟩ := hok
  refine ⟨failJournal_changes hvalid.sound hv.working huncleaned (hv.idle hidle) ?_ hfail,
    fun _ => trivial⟩
  intro habsent hcreate
  rw [hv.resources]
  exact hvacant habsent hcreate

/-! ## Compensation -/

/-- The address of a compensation: recorded absent, deleted, or nothing of it is left. -/
theorem verified_cleanupIp {work : Work} {error : Failure} (h : OnTick start operation work)
    (hidle : start.Idle operation) (hcomp : operation.intent = .compensate error) :
    Verified A (fun j _ => Ticking operation start j) (cleanupIp config work)
      (fun clean j _ => (clean = true → work.liveIp = none ∧ Ticking operation start j) ∧
        Working operation j)
      fun j _ => Working operation j := by
  unfold cleanupIp
  split
  · next hnone => exact .pure fun _ _ hj => ⟨fun _ => ⟨hnone, hj⟩, hj.working⟩
  · next resource hfound =>
    have hmem := List.mem_of_find?_eq_some hfound
    have hprop := List.find?_some hfound
    simp only [Bool.and_eq_true, decide_eq_true_eq] at hprop
    have hno : ∀ j, Working operation j → ((false : Bool) = true →
        work.liveIp = none ∧ Ticking operation start j) ∧ Working operation j :=
      fun j hj => ⟨fun h => (by cases h), hj⟩
    refine .bind (.post (verified_readPrimaryIp (P := fun j _ => Ticking operation start j)
      fun _ _ h => h.busy) (fun _ _ _ h => h) fun _ _ hj => hj.elim fun _ h => h.working) fun seen => ?_
    split
    · refine .bind (Q := fun _ j _ => Working operation j) (.pre verified_recordAbsenceNow ?_)
        fun _ => .pure fun j _ hj => hno j hj
      rintro j l ⟨v, hv, rfl, hl, hA⟩
      exact ⟨hv.working, v, rfl, by simp [nullRead, hprop.1, hl], by simpa [nullRead, hprop.1] using hA⟩
    · next ip =>
      split
      · refine .bind (Q := fun _ j _ => Working operation j) ?_ fun _ => .pure fun j _ hj => hno j hj
        rw [h.same]
        refine .pre verified_blockMismatch ?_
        rintro j l ⟨v, hv, rfl, -⟩
        exact hv.working
      · next hshown =>
        split
        · refine .bind (Q := fun _ j _ => Working operation j) ?_
            fun _ => .pure fun j _ hj => hno j hj
          rw [h.same]
          refine .pre (verified_setProgress (P := fun j => Working operation j) (fun _ hw => hw)
            (fun _ _ _ hw => hw) rfl) ?_
          rintro j l ⟨v, hv, rfl, -⟩
          exact hv.working
        · next hfirst =>
          refine .bind (Q := fun _ j _ => Working operation j) ?_
            fun _ => .pure fun j _ hj => hno j hj
          rw [h.same]
          refine .pre verified_journalEffect ?_
          rintro j l ⟨v, hv, rfl, -⟩
          have hid : ip.id = resource.ref.id := by
            simp only [not_or, not_not] at hshown
            exact hshown.1
          have hnone : effectOf work.history (ProviderCommand.deletesIp ip.id) = none := by
            simpa using hfirst
          refine hv.ready h.uncleaned hidle (fun h => (by cases h)) ?_ fun ref href => ?_
          · exact {
              asks := @OperationRow.mayAsk_deletion operation _
                (.inl (h.kind_of_compensate hcomp)) ⟨.primaryIp, ip.id⟩ rfl
              intent := .inr ⟨⟨error, hcomp⟩, ip.id, rfl⟩
              keeps := fun hrun => by rw [hcomp] at hrun; cases hrun
              labelled := fun _ hl => by cases hl
              offered := fun _ hs => by cases hs
              backedUp := fun hb => by cases hb
              first := by
                intro a ha hop honce
                have hdelete := h.effectOf_none hnone ha hop
                obtain ⟨id, operationId, sequence, command, outcome, resolution, createdAt⟩ := a
                cases command <;>
                  simp_all [ProviderCommand.once, ProviderCommand.deletesIp] }
          · obtain rfl : resource.ref = ref := by
              rw [← Option.some.inj href, hid, ← hprop.1]
            exact h.resource_live hv hmem hprop.2

/-- A compensating create has no server, so nothing is left once its address is gone. -/
theorem vacant_of_compensation {work : Work} {error : Failure} (h : OnTick start operation work)
    (hcomp : operation.intent = .compensate error) (hnone : work.liveIp = none) :
    ∀ row ∈ start.resources, row.live = false := by
  intro row hm
  obtain ⟨a, ha, hcreation, hkind, hmay, -⟩ := h.sound.ledger.created row hm
  have hrow := List.find?_eq_none.mp hnone row (h.resources ▸ hm)
  cases hk : row.ref.kind with
  | primaryIp => simpa [hk] using hrow
  | server =>
    have hserver : a.command.isServerCreate = true := by
      rw [hk] at hkind
      cases hc : a.command <;> simp_all [ProviderCommand.isCreation, ProviderCommand.isServerCreate,
        ProviderCommand.isIpCreate, ProviderCommand.resourceKind]
    obtain ⟨progress, active⟩ := h.working.row
    rw [h.sound.ledger.unserved _ active.mem error hcomp a ha hserver] at hmay
    cases hmay

/-- A tick of a compensation. -/
theorem verified_compensation {work : Work} {error : Failure} (h : OnTick start operation work)
    (hidle : start.Idle operation) (hcomp : operation.intent = .compensate error) :
    Verified A (fun j _ => Ticking operation start j)
      (cleanupIpThen config work (fail operation error true))
      (fun _ _ _ => True) fun _ _ => True := by
  refine .bind (.post (verified_cleanupIp h hidle hcomp) (fun _ _ _ h => h) fun _ _ _ => trivial)
    fun clean => ?_
  split
  · next hclean =>
    refine .pre (P := fun j _ => work.liveIp = none ∧ Ticking operation start j) (.fact fun hnone =>
      verified_fail h.uncleaned hidle fun _ _ => vacant_of_compensation h hcomp hnone)
      fun j l hj => hj.1 hclean
  · exact .pure fun _ _ _ => trivial

/-- A compensation begins only where the create cannot have a server. -/
theorem unserved_of_history {work : Work} (h : OnTick start operation work)
    (hcreate : operation.kind = .create) (hno : possibleServer work.history = false) :
    ∀ a ∈ start.attempts, a.command.isServerCreate = true → a.mayExist = false := by
  intro a ha hserver
  obtain ⟨owner, howner, hid⟩ := h.sound.attempts.owner a ha
  have hcreation : a.command.isCreation = true := by simp [ProviderCommand.isCreation, hserver]
  have hkind := OperationRow.create_of_mayAsk (h.sound.attempts.asked a ha owner howner hid) hcreation
  obtain ⟨progress, active⟩ := h.working.row
  have hop : a.operationId = operation.id := by
    rw [← hid, h.sound.operations.create _ howner _ active.mem hkind hcreate]
  cases hfound : effectOf work.history ProviderCommand.isServerCreate with
  | none =>
    rw [h.effectOf_none hfound ha hop] at hserver
    cases hserver
  | some first =>
    -- the one that the history shows is the only one
    have hmem := h.mem_history.mp (List.mem_of_find?_eq_some hfound)
    have hfirst : first.command.isServerCreate = true := by simpa using List.find?_some hfound
    have hfirst' : first.command.isCreation = true := by simp [ProviderCommand.isCreation, hfirst]
    have hkinds : a.command.resourceKind = first.command.resourceKind := by
      rw [ProviderCommand.resourceKind_of_server hserver,
        ProviderCommand.resourceKind_of_server hfirst]
    obtain rfl := h.sound.attempts.once a ha first hmem.1 (hop.trans hmem.2.symm)
      (ProviderCommand.once_of_kind hcreation hfirst' hkinds)
      (ProviderCommand.once_of_server hserver) fun hd =>
        absurd (ProviderCommand.deletes?_of_server hserver) hd
    rw [possibleServer, hfound] at hno
    exact hno

theorem verified_beginFailure {work : Work} {error : Failure} (h : OnFresh start operation work) :
    Verified A (fun j _ => Ticking operation start j) (beginFailure work error)
      (fun _ _ _ => True) fun _ _ => True := by
  unfold beginFailure
  rw [h.same]
  split
  · next hcreate =>
    dsimp only
    split
    · next hcomp =>
      have hunserved := unserved_of_history h.toOnTick hcreate hcomp.1
      refine .bind (Q := fun _ j _ => Working { operation with intent := .compensate error } j)
        (.transact (fun _ _ hj => hj.busy) (fun _ _ _ => trivial) fun v hv hvalid env u j' hok => ?_)
        fun _ => .post (@verified_setProgress A { operation with intent := .compensate error } _
          (fun j => Working { operation with intent := .compensate error } j) (fun _ hw => hw)
          (fun _ _ _ hw => hw) rfl) (fun _ _ _ _ => trivial) fun _ _ _ => trivial
      simp only [bind_ok_iff, pure_ok_iff, Prod.mk.injEq] at hok
      obtain ⟨j₁, hupdate, -, rfl⟩ := hok
      obtain ⟨progress, hget, active⟩ := hv.working.get hvalid.sound
      rcases updateOperation_ok hupdate with ⟨hnone, -⟩ | ⟨old, -, -, rfl⟩
      · rw [hnone] at hget; cases hget
      · refine ⟨.single (.compensate active hcreate h.run error ?_), fun _ => ⟨progress, ?_, ?_⟩⟩
        · intro a ha
          rw [hv.attempts] at ha
          exact hunserved a ha
        · exact (hvalid.sound.operations.keyed.mem_update active.mem).mpr (.inl rfl)
        · exact active.going
    · refine verified_fail h.uncleaned h.idle fun habsent _ row hm => ?_
      simp only [Bool.and_eq_true, decide_eq_true_eq] at habsent
      have hnone := List.filter_eq_nil_iff.mp habsent.2 row (h.resources ▸ hm)
      simpa using hnone
  · exact verified_fail h.uncleaned h.idle fun habsent => by cases habsent

/-- What a tick throws is answered from the journal as it is then. -/
theorem verified_recoverFailure {work : Work} (huncleaned : operation.isCleanup = false)
    (hrun : operation.intent = .run) (hwork : work.operation = operation) (fault : Fault) :
    Verified A (fun j _ => Working operation j) (recoverFailure work fault)
      (fun _ _ _ => True) fun _ _ => True := by
  cases fault with
  | other message => exact .raise fun _ _ _ => trivial
  | cloud failure =>
    unfold recoverFailure
    split
    · next heq => cases heq
    · next failure' heq =>
      obtain rfl := Fault.cloud.inj heq
      split
      · exact .pure fun _ _ _ => trivial
      · refine .bind (Q := fun journal j _ => Sound journal ∧ Working operation j ∧ j = journal)
          (.readJournal (fun _ _ hj => hj.busy) fun j _ hj hs => ⟨hs, hj, rfl⟩) fun journal => ?_
        split
        · rw [hwork]
          exact .post (.pre verified_blockMismatch fun _ _ hj => hj.2.1) (fun _ _ _ _ => trivial)
            fun _ _ _ => trivial
        · next hpending =>
          refine .fact fun hs => ?_
          refine .pre (P := fun j _ => (Working operation journal) ∧ Ticking operation journal j)
            (.fact fun hw => verified_beginFailure ⟨⟨hs, hw, huncleaned, hwork, ?_, rfl⟩, ?_, hrun⟩)
            fun j l ⟨hj, heq⟩ => ?_
          · rw [hwork]
          · intro a ha hop
            simp only [Journal.history, List.any_filter, List.any_eq_true, not_exists] at hpending
            have := hpending a
            rw [hwork] at this
            simpa [ha, hop] using this
          · subst heq
            exact ⟨hj, hj, rfl, rfl, rfl, rfl⟩

/-! ## Completion -/

theorem completeServer_ok {env : Env} {journal journal' : Journal} {machine : MachineRow}
    {server : ProviderServer} {verification : Option GuestVerification} (hs : Sound journal)
    (hw : Working operation journal)
    (h : completeServer env journal operation machine server verification = .ok journal') :
    ∃ offer machine', (operation.command.priced = false → offer = none) ∧
      (operation.command.priced = true → offer = operation.offer) ∧
      machine'.provider = journal.machine.provider ∧ machine'.state.stage ≠ 4 ∧
      journal' = { journal with
        machine := machine'
        allocation := journal.allocation.complete server.id offer } := by
  obtain ⟨progress, hget, -⟩ := hw.get hs
  simp only [completeServer, updateAllocation, bind_ok_iff, present_ok_iff, pure_ok_iff] at h
  obtain ⟨stored, hstored, offer, hoffer, j₁, ⟨-, -, rfl⟩, rfl⟩ := h
  obtain rfl : { operation with progress } = stored := Option.some.inj (hget.symm.trans hstored)
  refine ⟨offer, _, fun hun => ?_, fun hpriced => ?_, ?_, ?_, rfl⟩
  · rw [admittedOffer, if_neg (by simp [hun])] at hoffer
    exact (pure_ok_iff.mp hoffer).symm
  · rw [admittedOffer, if_pos hpriced] at hoffer
    simp only [storedOffer, Option.bind_some, bind_ok_iff, present_ok_iff, pure_ok_iff] at hoffer
    obtain ⟨item, hitem, -, -, rfl⟩ := hoffer
    exact hitem.symm
  · rfl
  · simp [MachineRow.become, MachineState.stage]

/-- A completion has seen the type that its resize asked for. -/
def SeenResize (start : Journal) (operation : OperationRow) : Prop :=
  operation.kind = .resize → ∃ attempt ∈ start.attempts, attempt.operationId = operation.id ∧
    operation.command.asks attempt.command = true ∧
    ∃ observation, attempt.resolution = .confirmed observation

theorem completeJournal_changes {log : Log} {env : Env} {now : Instant}
    {journal journal' : Journal} {machine : MachineRow} {server : Option ProviderServer}
    {verification : Option GuestVerification} (hs : Sound journal) (hw : Working operation journal)
    (hkind : operation.kind ≠ .destroy) (hrun : operation.intent = .run)
    (hidle : journal.Idle operation) (hseen : SeenResize journal operation)
    (h : completeJournal env now journal operation machine server verification = .ok journal') :
    Changes A log now journal journal' := by
  simp only [completeJournal, bind_ok_iff] at h
  obtain ⟨passed, -, h⟩ := h
  cases passed with
  | stale =>
    obtain rfl := pure_ok_iff.mp h
    exact .refl
  | expired => exact (writeProgress_changes hs hw rfl h).1
  | proceed =>
    obtain ⟨progress, active⟩ := hw.row
    simp only [completeTarget, if_neg hkind, bind_ok_iff, present_ok_iff] at h
    obtain ⟨-, -, j₁, ⟨shown, -, htarget⟩, hupdate⟩ := h
    obtain ⟨offer, machine', hunpriced, hpriced, hprovider, hstanding, rfl⟩ :=
      completeServer_ok hs hw htarget
    rcases updateOperation_ok hupdate with ⟨hnone, -⟩ | ⟨old, -, -, rfl⟩
    · have hsome := hs.operations.keyed.get active.mem
      rw [show Table.get OperationRow.id journal.operations operation.id = none from hnone] at hsome
      cases hsome
    · exact .single (.completed active hrun hkind hidle env.date machine' hprovider hstanding
        shown.id offer ⟨hunpriced, hpriced, hseen⟩)

theorem verified_complete {work : Work} {server : Option ProviderServer}
    {verification : Option GuestVerification} (h : OnFresh start operation work)
    (hseen : SeenResize start operation) :
    Verified A (fun j _ => Ticking operation start j) (complete work server verification)
      (fun _ _ _ => True) fun j _ => Working operation j := by
  refine .transact (fun _ _ hj => hj.busy) (fun _ _ hj => hj.working)
    fun v hv hvalid env u j' hok => ?_
  simp only [bind_ok_iff, pure_ok_iff, Prod.mk.injEq] at hok
  obtain ⟨j₁, hcomplete, -, rfl⟩ := hok
  rw [h.same] at hcomplete
  refine ⟨completeJournal_changes hvalid.sound hv.working h.kind_ne_destroy h.run
    (hv.idle h.idle) (fun hresize => ?_) hcomplete, fun _ => trivial⟩
  rw [hv.attempts]
  exact hseen hresize

/-! ## The guest, and the backups of the provider -/

theorem verified_checkGuest {waiting : OperationRow} :
    Verified A (fun j _ => Ticking operation start j) (checkGuest waiting)
      (fun _ j _ => Ticking operation start j) fun j _ => Working operation j := by
  refine .bind (Q := fun _ j _ => Ticking operation start j)
    (.observe (fun _ _ hj => hj.busy) fun v hv _ _ => hv) fun expired => ?_
  split
  · exact .raise fun _ _ hj => hj.working
  · exact .pure fun _ _ hj => hj
  · exact .post (.bind (verified_ask (fun _ hj => Ticking.busy hj) rfl) fun _ => verified_thrown)
      (fun _ _ _ hj => hj) fun _ _ hj => hj.working

theorem verified_verifyRuntime {work : Work} (h : OnFresh start operation work)
    (hseen : SeenResize start operation) :
    Verified A (fun j _ => Ticking operation start j) (verifyRuntime config work)
      (fun _ _ _ => True) fun j _ => Working operation j := by
  have hblock : ∀ reason, Verified A (fun j _ => Ticking operation start j)
      (setProgress work.operation.id (.blocked reason)) (fun _ _ _ => True)
      fun j _ => Working operation j := by
    intro reason
    rw [h.same]
    exact .post (verified_tick rfl) (fun _ _ _ _ => trivial) fun _ _ hj => hj.working
  unfold verifyRuntime
  split
  · refine .bind verified_checkGuest fun decision => ?_
    split
    · exact .pure fun _ _ _ => trivial
    · exact hblock _
    · exact verified_complete h hseen
  · exact hblock _

/-- The server with its backups enabled, or one more effect. -/
theorem verified_ensureProviderBackups {work : Work} {server : ProviderServer}
    {offer : CatalogItem} (h : OnFresh start operation work) (hoffer : operation.offer = some offer)
    (hkind : operation.kind = .create ∨ operation.kind = .resize) :
    Verified A (fun j _ => Ticking operation start j)
      (ensureProviderBackups config work server offer)
      (fun r j _ => (r.isSome = true → Ticking operation start j) ∧ Working operation j)
      fun j _ => Working operation j := by
  have hno : ∀ j, Working operation j →
      ((none : Option ProviderServer).isSome = true → Ticking operation start j) ∧
        Working operation j := fun j hj => ⟨fun h => (by cases h), hj⟩
  have hblock : Verified A (fun j _ => Ticking operation start j)
      ((blockMismatch work.operation.id).bind fun _ => Pure.pure (none : Option ProviderServer))
      (fun r j _ => (r.isSome = true → Ticking operation start j) ∧ Working operation j)
      fun j _ => Working operation j := by
    rw [h.same]
    exact .bind (.pre verified_blockMismatch fun _ _ hj => hj.working) fun _ =>
      .pure fun j _ hj => hno j hj
  unfold ensureProviderBackups
  split
  · exact .pure fun _ _ hj => ⟨fun _ => hj, hj.working⟩
  · next henabled =>
    refine .bind (.post (verified_getServer fun _ hj => Ticking.busy hj) (fun _ _ _ hj => hj)
      fun _ _ hj => hj.working) fun seen => ?_
    split
    · next resource observed hrow =>
      split
      · exact hblock
      · split
        · exact .pure fun _ _ hj => ⟨fun _ => hj, hj.working⟩
        · split
          · exact hblock
          · next hfirst =>
            refine .bind (Q := fun _ j _ => Working operation j) ?_
              fun _ => .pure fun j _ hj => hno j hj
            rw [h.same]
            refine .pre verified_journalEffect fun j l hj => ?_
            simp only [not_or, Bool.not_eq_true, Option.isSome_eq_false_iff,
              Option.isNone_iff_eq_none] at hfirst
            have hfound := List.find?_some hrow
            simp only [Bool.and_eq_true, decide_eq_true_eq] at hfound
            refine hj.ready h.uncleaned h.idle (fun hc => (by cases hc)) ?_ fun ref href => ?_
            · exact {
                asks := by rcases hkind with hk | hk <;> simp [OperationRow.mayAsk, hk,
                  ProviderCommand.once]
                intent := .inl h.run
                keeps := fun _ => rfl
                labelled := fun _ hl => by cases hl
                offered := fun _ hs => by cases hs
                backedUp := fun _ => ⟨offer, hoffer, henabled⟩
                first := by
                  intro a ha hop honce
                  have hbackup := h.effectOf_none hfirst.2 ha hop
                  obtain ⟨id, operationId, sequence, command, outcome, resolution, createdAt⟩ := a
                  cases command <;>
                    simp_all [ProviderCommand.once, ProviderCommand.isEnableBackup] }
            · obtain rfl : resource.ref = ref := by
                rw [← Option.some.inj href, hfound.1]
              exact h.resource_live hj (List.mem_of_find?_eq_some hrow) hfound.2
    · exact hblock

/-! ## The create -/

/-- A creation as the next effect of a create. -/
theorem nextEffect_of_creation {work : Work} {command : ProviderCommand}
    {kind : ProviderCommand → Bool} (h : OnFresh start operation work)
    (hcreate : operation.kind = .create) (hcommand : command.isCreation = true)
    (hlabels : command.labels? = some (effectLabels work.operation work.machine work.allocation))
    (hoffered : ∀ serverType, command.serverType? = some serverType →
      ∃ offer, operation.offer = some offer ∧ offer.serverType = serverType)
    (hkind : ∀ other, other.once = command.once → kind other = true)
    (hfirst : effectOf work.history kind = none) : NextEffect start operation command where
  asks := by
    cases command <;> simp_all [OperationRow.mayAsk, ProviderCommand.once,
      ProviderCommand.isCreation, ProviderCommand.isServerCreate, ProviderCommand.isIpCreate]
  intent := .inl h.run
  keeps _ := by
    cases command <;> simp_all [ProviderCommand.isCreation, ProviderCommand.isServerCreate,
      ProviderCommand.isIpCreate, ProviderCommand.deletes?]
  labelled labels hl := by
    obtain rfl := Option.some.inj (hlabels.symm.trans hl)
    rw [effectLabels_operation, h.same]
  offered := hoffered
  backedUp hb := by cases command <;> cases hb; cases hcommand
  first a ha hop honce := by
    have hno := h.effectOf_none hfirst ha hop
    rw [hkind _ honce] at hno
    cases hno

theorem verified_submitIp {work : Work} {offer : CatalogItem} (h : OnFresh start operation work)
    (hcreate : operation.kind = .create) (hneeds : needsIp work = true) :
    Verified A (fun j _ => Ticking operation start j) (submitIp config work offer)
      (fun _ j _ => Working operation j) fun j _ => Working operation j := by
  simp only [needsIp, Bool.and_eq_true, Option.isNone_iff_eq_none] at hneeds
  unfold submitIp
  rw [h.same]
  refine .pre verified_journalEffect fun j l hj => hj.ready h.uncleaned h.idle (fun hc => (by
    cases hc)) (nextEffect_of_creation h hcreate rfl (by rw [h.same]; rfl) (fun _ hs => by cases hs)
      (fun other honce => ?_) hneeds.2) fun _ href => by cases href
  cases other <;> simp_all [ProviderCommand.once, ProviderCommand.isIpCreate]

theorem verified_checkAddress {work : Work} (h : OnFresh start operation work) :
    Verified A (fun j _ => Ticking operation start j) (checkAddress work work.liveIp)
      (fun free j _ => (free = true → Ticking operation start j) ∧ Working operation j)
      fun j _ => Working operation j := by
  unfold checkAddress
  split
  · exact .pure fun _ _ hj => ⟨fun _ => hj, hj.working⟩
  · exact .raise fun _ _ hj => hj.working
  · next row hfound =>
    have hprop := List.find?_some hfound
    simp only [Bool.and_eq_true, decide_eq_true_eq] at hprop
    refine .bind (.post (verified_readPrimaryIp (P := fun j _ => Ticking operation start j)
      fun _ _ h => h.busy) (fun _ _ _ h => h) fun _ _ hj => hj.elim fun _ h => h.working) fun seen => ?_
    split
    · refine .bind (Q := fun _ j _ => Working operation j) (.pre verified_recordAbsenceNow ?_)
        fun _ => .raise fun _ _ hj => hj
      rintro j l ⟨v, hv, rfl, hl, hA⟩
      exact ⟨hv.working, v, rfl, by simp [nullRead, hprop.1, hl], by simpa [nullRead, hprop.1] using hA⟩
    · split
      · refine .bind (Q := fun _ j _ => Working operation j) ?_ fun _ =>
          .pure fun _ _ hj => ⟨fun hf => (by cases hf), hj⟩
        rw [h.same]
        refine .pre verified_blockMismatch ?_
        rintro j l ⟨v, hv, rfl, -⟩
        exact hv.working
      · refine .pure ?_
        rintro j l ⟨v, hv, rfl, -⟩
        exact ⟨fun _ => hv, hv.working⟩

/-- The server create that a tick comes to. -/
structure CreatesServer (request : ServerRequest) (command : ProviderCommand) : Prop where
  server : command.isServerCreate = true
  labels : command.labels? = some request.labels
  serverType : command.serverType? = some request.serverType

theorem verified_createCommand {work : Work} {request : ServerRequest} {image : Option String}
    {row : Option OwnedResource} :
    Verified A (fun j _ => Ticking operation start j) (createCommand work request image row)
      (fun command j _ => CreatesServer request command ∧ Ticking operation start j)
      fun j _ => Working operation j := by
  unfold createCommand
  split
  · unfold guestCommand
    split
    · refine .bind (.post (verified_ask (fun _ hj => Ticking.busy hj) rfl) (fun _ _ _ hj => hj)
        fun _ _ hj => hj.working) fun reply => .bind (Q := fun _ j _ => Ticking operation start j)
        (.ofExcept (fun _ _ _ _ hj => hj) fun _ _ hj => hj.working) fun bootstrap =>
        .pure fun _ _ hj => ⟨⟨rfl, rfl, rfl⟩, hj⟩
    · exact .raise fun _ _ hj => hj.working
  · exact .pure fun _ _ hj => ⟨⟨rfl, rfl, rfl⟩, hj⟩

theorem verified_submitCreate {work : Work} {offer : CatalogItem} {image : Option String}
    (h : OnFresh start operation work) (hcreate : operation.kind = .create)
    (hoffer : operation.offer = some offer)
    (hfirst : effectOf work.history ProviderCommand.isServerCreate = none) :
    Verified A (fun j _ => Ticking operation start j) (submitCreate config work offer image)
      (fun _ j _ => Working operation j) fun j _ => Working operation j := by
  refine .bind (verified_checkAddress h) fun free => ?_
  split
  · next hfree =>
    refine .bind (.pre verified_createCommand fun _ _ hj => hj.1 hfree) fun command =>
      .fact fun hserver => ?_
    have hcreation : command.isCreation = true := by
      simp [ProviderCommand.isCreation, hserver.server]
    have hlabels := hserver.labels
    rw [h.same]
    refine .pre verified_journalEffect fun j l hj => hj.ready h.uncleaned h.idle (fun hc => (by
      cases hc)) (nextEffect_of_creation h hcreate hcreation hlabels (fun serverType htype => ?_)
        (fun other honce => ?_) hfirst) fun ref href => ?_
    · rw [hserver.serverType, Option.some.injEq] at htype
      exact ⟨offer, hoffer, htype⟩
    · have := hserver.server
      cases command <;> cases other <;>
        simp_all [ProviderCommand.once, ProviderCommand.isServerCreate]
    · rw [ProviderCommand.target?_of_labels hlabels] at href
      cases href
  · exact .pure fun _ _ hj => hj.2

theorem verified_finishCreate {work : Work} {create : Attempt} {offer : CatalogItem}
    (h : OnFresh start operation work) (hcreate : operation.kind = .create)
    (hoffer : operation.offer = some offer) :
    Verified A (fun j _ => Ticking operation start j) (finishCreate config work create offer)
      (fun _ _ _ => True) fun j _ => Working operation j := by
  have hseen : SeenResize start operation := fun hresize => by rw [hcreate] at hresize; cases hresize
  refine .bind (Q := fun _ j _ => Ticking operation start j)
      (.ofExcept (fun _ _ _ _ hj => hj) fun _ _ hj => hj.working) fun server =>
    .bind (verified_ensureProviderBackups h hoffer (.inl hcreate)) fun backedUp => ?_
  split
  · exact .pure fun _ _ _ => trivial
  · split
    · refine .bind (Q := fun _ j _ => Ticking operation start j)
        (.observe (fun _ _ hj => hj.2.busy) fun _ hj _ _ => hj.1 rfl) fun stage =>
        .bind (Q := fun _ j _ => Ticking operation start j) ?_ fun _ =>
        verified_verifyRuntime h hseen
      rw [h.same]
      exact .post (verified_tick rfl) (fun _ _ _ hj => hj) fun _ _ hj => hj.working
    · exact .pre (verified_complete h hseen) fun _ _ hj => hj.1 rfl

theorem verified_createImage {work : Work} :
    Verified A (fun j _ => Ticking operation start j) (createImage config work)
      (fun _ j _ => Ticking operation start j) fun j _ => Working operation j := by
  unfold createImage
  split
  · split
    · exact .bind (.post (verified_ask (fun _ hj => Ticking.busy hj) rfl) (fun _ _ _ hj => hj)
        fun _ _ hj => hj.working) fun reply => .bind (Q := fun _ j _ => Ticking operation start j)
        (.ofExcept (fun _ _ _ _ hj => hj) fun _ _ hj => hj.working) fun image =>
        .pure fun _ _ hj => hj
    · exact .raise fun _ _ hj => hj.working
  · exact .pure fun _ _ hj => hj

theorem verified_advanceCreate {work : Work} (h : OnFresh start operation work)
    (hcreate : operation.kind = .create) :
    Verified A (fun j _ => Ticking operation start j) (advanceCreate config work)
      (fun _ _ _ => True) fun j _ => Working operation j := by
  refine .bind (Q := fun offer j _ => operation.offer = some offer ∧ Ticking operation start j)
    (.ofExcept (fun offer hoffer _ _ hj => ⟨?_, hj⟩) fun _ _ hj => hj.working) fun offer =>
    .fact fun hoffer => ?_
  · simp only [storedOffer, Option.bind_some, present_ok_iff] at hoffer
    rw [← h.same]
    exact hoffer
  · split
    · next hnone =>
      refine .bind verified_createImage fun image => ?_
      split
      · next hneeds =>
        exact .post (verified_submitIp h hcreate hneeds) (fun _ _ _ _ => trivial) fun _ _ hj => hj
      · exact .post (verified_submitCreate h hcreate hoffer hnone) (fun _ _ _ _ => trivial)
          fun _ _ hj => hj
    · split
      · next hneeds =>
        exact .post (verified_submitIp h hcreate hneeds) (fun _ _ _ _ => trivial) fun _ _ hj => hj
      · exact verified_finishCreate h hcreate hoffer

/-! ## The other commands -/

/-- The command's own effect as the next one of its operation. -/
theorem nextEffect_of_action {work : Work} {command : ProviderCommand} {serverId : String}
    (h : OnFresh start operation work) (hcreate : operation.kind ≠ .create)
    (hcommand : effectCommand operation serverId = .ok command)
    (hfirst : effectOf work.history operation.command.asks = none) :
    NextEffect start operation command ∧ command.target? = some ⟨.server, serverId⟩ := by
  have hdestroy := h.kind_ne_destroy
  have hasked : ∀ a ∈ start.attempts, a.operationId = operation.id →
      a.command.once ≠ some .action := by
    intro a ha hop honce
    -- an action of this operation is the one its command asks for, which the history lacks
    have hno := h.effectOf_none hfirst ha hop
    obtain ⟨progress, active⟩ := h.working.row
    have hasks := h.sound.attempts.asked a ha _ active.mem hop.symm
    have hasks' : operation.mayAsk a.command = true := hasks
    cases hk : operation.kind <;> simp_all [OperationRow.mayAsk]
  have hown : ∀ command, command.once = some .action → operation.command.asks command = true →
      command.labels? = none → command.deletes? = none → command.isEnableBackup = false →
      (∀ serverType, command.serverType? = some serverType →
        ∃ offer, operation.offer = some offer ∧ offer.serverType = serverType) →
      NextEffect start operation command := by
    intro command honce hasks hlabels hdeletes hbackup hoffered
    exact {
      asks := by cases hk : operation.kind <;> simp_all [OperationRow.mayAsk]
      intent := .inl h.run
      keeps := fun _ => hdeletes
      labelled := fun _ hl => by rw [hlabels] at hl; cases hl
      offered := hoffered
      backedUp := fun hb => by rw [hbackup] at hb; cases hb
      first := fun a ha hop he => hasked a ha hop (he.trans honce) }
  unfold effectCommand at hcommand
  split at hcommand
  · cases hcommand
  · next hlifecycle =>
    obtain rfl := Except.ok.inj hcommand
    exact ⟨hown _ rfl (by rw [hlifecycle]; rfl) rfl rfl rfl fun _ hs => (by cases hs), rfl⟩
  · next hlifecycle =>
    obtain rfl := Except.ok.inj hcommand
    exact ⟨hown _ rfl (by rw [hlifecycle]; rfl) rfl rfl rfl fun _ hs => (by cases hs), rfl⟩
  · next hlifecycle =>
    obtain rfl := Except.ok.inj hcommand
    exact ⟨hown _ rfl (by rw [hlifecycle]; rfl) rfl rfl rfl fun _ hs => (by cases hs), rfl⟩
  · next hlifecycle =>
    simp only [storedOffer, Option.bind_some, bind_ok_iff, present_ok_iff, pure_ok_iff] at hcommand
    obtain ⟨offer, hoffer, rfl⟩ := hcommand
    exact ⟨hown _ rfl (by rw [hlifecycle]; rfl) rfl rfl rfl fun serverType hs =>
      ⟨offer, hoffer, Option.some.inj hs⟩, rfl⟩
  · next hlifecycle =>
    exact absurd (by rw [OperationRow.kind, hlifecycle]; rfl) hdestroy

theorem verified_submitAction {work : Work} (h : OnFresh start operation work)
    (hcreate : operation.kind ≠ .create)
    (hfirst : effectOf work.history operation.command.asks = none) :
    Verified A (fun j _ => Ticking operation start j) (submitAction config work)
      (fun _ j _ => Working operation j) fun j _ => Working operation j := by
  unfold submitAction
  split
  · next row serverId hrow hserverId =>
    have hfound := List.find?_some hrow
    simp only [Bool.and_eq_true, decide_eq_true_eq] at hfound
    refine .bind (.post (verified_getServer fun _ hj => Ticking.busy hj) (fun _ _ _ hj => hj)
      fun _ _ hj => hj.working) fun seen => ?_
    split
    · next server =>
      unfold submitOwned
      rw [h.same]
      split
      · exact .pre verified_blockMismatch fun _ _ hj => hj.working
      · next hshown =>
        refine .bind (Q := fun command j _ => effectCommand operation server.id = .ok command ∧
          Ticking operation start j) (.ofExcept (fun command hc _ _ hj => ⟨hc, hj⟩)
          fun _ _ hj => hj.working) fun command => .fact fun hcommand => ?_
        obtain ⟨heffect, htarget⟩ := nextEffect_of_action h hcreate hcommand hfirst
        refine .pre verified_journalEffect fun j l hj =>
          hj.ready h.uncleaned h.idle (fun hc => (by cases hc)) heffect fun ref href => ?_
        simp only [not_or, not_not] at hshown
        obtain rfl : row.ref = ref := by
          rw [htarget, hshown.1] at href
          rw [← Option.some.inj href, ← hfound.1]
        exact h.resource_live hj (List.mem_of_find?_eq_some hrow) hfound.2
    · rw [h.same, if_neg h.kind_ne_destroy]
      exact .raise fun _ _ hj => hj.working
  · exact .raise fun _ _ hj => hj.working

theorem verified_finishAction {work : Work} {effect : Attempt} (h : OnFresh start operation work)
    (hfound : effectOf work.history operation.command.asks = some effect) :
    Verified A (fun j _ => Ticking operation start j) (finishAction config work effect)
      (fun _ _ _ => True) fun j _ => Working operation j := by
  unfold finishAction
  rw [h.same]
  split
  · next observation hconfirmed =>
    rw [if_neg h.kind_ne_destroy]
    have hmem := h.mem_history.mp (List.mem_of_find?_eq_some hfound)
    have hasks : operation.command.asks effect.command = true := by
      simpa using List.find?_some hfound
    have hseen : SeenResize start operation := fun _ =>
      ⟨effect, hmem.1, hmem.2, hasks, observation, hconfirmed⟩
    split
    · split
      · refine .bind (Q := fun _ j _ => Ticking operation start j)
          (.post (verified_tick rfl) (fun _ _ _ hj => hj) fun _ _ hj => hj.working) fun _ =>
          verified_verifyRuntime h hseen
      · split
        · next hresize =>
          refine .bind (Q := fun offer j _ => operation.offer = some offer ∧
            Ticking operation start j) (.ofExcept (fun offer hoffer _ _ hj => ⟨?_, hj⟩)
            fun _ _ hj => hj.working) fun offer => .fact fun hoffer =>
            .bind (verified_ensureProviderBackups h hoffer (.inr hresize)) fun verified => ?_
          · simpa [storedOffer] using hoffer
          · split
            · exact .pure fun _ _ _ => trivial
            · exact .pre (verified_complete h hseen) fun _ _ hj => hj.1 rfl
        · exact verified_complete h hseen
    · exact .raise fun _ _ hj => hj.working
  · exact .raise fun _ _ hj => hj.working

theorem verified_advanceAction {work : Work} (h : OnFresh start operation work)
    (hcreate : operation.kind ≠ .create) :
    Verified A (fun j _ => Ticking operation start j) (advanceAction config work)
      (fun _ _ _ => True) fun j _ => Working operation j := by
  unfold advanceAction
  rw [h.same, if_neg fun hd => h.kind_ne_destroy hd.1]
  split
  · next effect hfound => exact verified_finishAction h hfound
  · next hfirst =>
    exact .post (verified_submitAction h hcreate hfirst) (fun _ _ _ _ => trivial) fun _ _ hj => hj

/-! ## The whole tick -/

theorem verified_advanceFresh {work : Work} (h : OnFresh start operation work) :
    Verified A (fun j _ => Ticking operation start j) (advanceFresh config work)
      (fun _ _ _ => True) fun _ _ => True := by
  unfold advanceFresh
  rw [h.same]
  refine .handle (F := fun j _ => Working operation j) ?_ fun fault =>
    verified_recoverFailure h.uncleaned h.run h.same fault
  split
  · next hcreate => exact verified_advanceCreate h hcreate
  · next hcreate => exact verified_advanceAction h hcreate

theorem verified_advanceSettled {work : Work} (h : OnTick start operation work)
    (hidle : start.Idle operation) :
    Verified A (fun j _ => Ticking operation start j) (advanceSettled config work)
      (fun _ _ _ => True) fun _ _ => True := by
  unfold advanceSettled
  rw [h.same]
  split
  · next error hcomp => exact verified_compensation h hidle hcomp
  · next hnot =>
    have hrun : operation.intent = .run := by
      cases hi : operation.intent with
      | run => rfl
      | compensate error => exact absurd hi (hnot error)
      | cleanup source =>
        have := h.uncleaned
        simp [OperationRow.isCleanup, hi] at this
    have hfresh : OnFresh start operation work := ⟨h, hidle, hrun⟩
    split
    · next attempt error hfailure =>
      unfold afterFailure
      split
      · next id hdelete =>
        -- a running operation has deleted nothing
        obtain ⟨a, ha, hpair⟩ := List.exists_of_findSome?_eq_some hfailure
        obtain ⟨_, -, heq⟩ := Option.map_eq_some_iff.mp hpair
        obtain rfl : a = attempt := congrArg Prod.fst heq
        have hmem := h.mem_history.mp ha
        obtain ⟨progress, active⟩ := h.working.row
        have := h.sound.attempts.keeps _ hmem.1 _ active.mem hmem.2.symm hrun
        rw [hdelete] at this
        cases this
      · exact verified_beginFailure hfresh
    · exact verified_advanceFresh hfresh

/-- **A tick is safe**, of an operation that no cleanup has replaced. -/
theorem verified_advanceWork (hs : Sound start) (active : start.Active operation)
    (huncleaned : operation.isCleanup = false) :
    Verified A (fun j _ => j = start) (advanceWork config (workOf start operation))
      (fun _ _ _ => True) fun _ _ => True := by
  have htick : OnTick start operation (workOf start operation) :=
    ⟨hs, active.working, huncleaned, rfl, rfl, rfl⟩
  unfold advanceWork
  split
  · next attempt hfound =>
    have hmem := htick.mem_history.mp (List.mem_of_find?_eq_some hfound)
    have hpending : attempt.resolution = .pending := by simpa using List.find?_some hfound
    refine .post (.pre (verified_resolveEffect
      (hs.attempts.target attempt hmem.1) hmem.1 hpending)
      fun j l hj => ?_) (fun _ _ _ _ => trivial) fun _ _ _ => trivial
    subst hj
    exact ⟨active.working, .refl _⟩
  · next hnone =>
    refine .pre (verified_advanceSettled htick fun a ha hop => ?_) fun j l hj => by
      subst hj
      exact active.ticking
    have := List.find?_eq_none.mp hnone a (htick.mem_history.mpr ⟨ha, hop⟩)
    simpa using this

end AgentCloud.Lifecycle
