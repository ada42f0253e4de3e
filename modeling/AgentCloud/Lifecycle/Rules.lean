/-
  RULES FOR THE WORKERS: triples on the journal and the log.

  `Verified A P p Q E` is a triple whose conditions are about the rows and the exchanges alone.  While
  the journal is busy nobody disturbs either, so every such precondition is stable; `Working` (the
  operation of the tick still goes on) is what makes it so, and what every failure of a tick leaves.

  The lemmas on the small functions that all workers share (reads, progress, claims, absence) are
  here; each larger function has its triple in one of the modules after this one.
-/
import AgentCloud.Lifecycle.Discipline

namespace AgentCloud.Lifecycle

open Checked Durable

/-- A condition on the rows and the exchanges. -/
abbrev Condition := Journal → Log → Prop

/-- The condition, of a world. -/
abbrev Condition.holds (P : Condition) (w : World interface) : Prop := P w.store.journal w.log

/-- Only a busy journal meets the condition. -/
def Condition.Busy (P : Condition) : Prop := ∀ j l, P j l → j.busy = true

abbrev Verified {α : Type} (A : Replies) (P : Condition) (p : Program α) (Q : α → Condition)
    (E : Condition) : Prop :=
  Triple (contract A) () P.holds p (fun a => (Q a).holds) (fun _ => E.holds)

variable {A : Replies} {α β : Type}

theorem Condition.Busy.stable {P : Condition} (h : P.Busy) : Stable (contract A) () P.holds := by
  intro w v hsees hP
  have hjournal : v.store.journal = w.store.journal := Sees.journal hsees (h _ _ hP)
  have hlog : v.log = w.log := Sees.log hsees
  rw [Condition.holds, hjournal, hlog]
  exact hP

namespace Verified

variable {P : Condition} {Q : α → Condition} {E : Condition}

/-- A transaction: a refusal changes nothing, a commit is a chain of changes. -/
theorem transact {t : Env → Instant → Journal → Except Fault (α × Journal)} (hP : P.Busy)
    (herror : ∀ j l, P j l → E j l)
    (hok : ∀ v : World interface, P.holds v → Valid v → ∀ env a j',
      t env v.store.clock v.store.journal = .ok (a, j') →
        Changes A v.log v.store.clock v.store.journal j' ∧ (Sound j' → Q a j' v.log)) :
    Verified A P (Lifecycle.transact t) Q E := by
  refine Triple.transact hP.stable (fun _ hv _ _ _ _ => herror _ _ hv)
    fun v hv hvalid env a s hs => ?_
  simp only [bind_ok_iff, pure_ok_iff] at hs
  obtain ⟨⟨b, j'⟩, hb, hpair⟩ := hs
  obtain ⟨rfl, rfl⟩ := Prod.mk.inj hpair
  obtain ⟨hchanges, hQ⟩ := hok v hv hvalid env b j' hb
  exact ⟨.write j' hchanges, fun hvalid' => hQ hvalid'.sound⟩

/-- A transaction that may start on a journal that is not busy. -/
theorem transactFree {t : Env → Instant → Journal → Except Fault (α × Journal)}
    (hok : ∀ v : World interface, Valid v → ∀ env a j',
      t env v.store.clock v.store.journal = .ok (a, j') →
        Changes A v.log v.store.clock v.store.journal j') :
    Verified A (fun _ _ => True) (Lifecycle.transact t) (fun _ _ _ => True) (fun _ _ => True) := by
  refine Triple.transact (fun _ _ _ _ => trivial) (fun _ _ _ _ _ _ => trivial)
    fun v _ hvalid env a s hs => ?_
  simp only [bind_ok_iff, pure_ok_iff] at hs
  obtain ⟨⟨b, j'⟩, hb, hpair⟩ := hs
  obtain ⟨rfl, rfl⟩ := Prod.mk.inj hpair
  exact ⟨.write j' (hok v hvalid env b j' hb), fun _ => trivial⟩

/-- A transaction that only reads. -/
theorem observe {f : Env → Store → α} (hP : P.Busy)
    (h : ∀ v : World interface, P.holds v → Valid v → ∀ env, Q (f env v.store) v.store.journal v.log) :
    Verified A P (Prog.observe (S := interface) f) Q E :=
  Triple.observe hP.stable (Does.refl A) h

/-- Reading the journal while it is busy. -/
theorem readJournal {Q : Journal → Condition} (hP : P.Busy)
    (h : ∀ j l, P j l → Sound j → Q j j l) : Verified A P Lifecycle.readJournal Q E :=
  Triple.read hP.stable (Does.refl A) fun _ hv hvalid => h _ _ hv hvalid.sound

/-- The first read of a worker, from any world. -/
theorem readFirst {Q : Journal → Condition} (h : ∀ j l, Sound j → Q j j l) :
    Verified A (fun _ _ => True) Lifecycle.readJournal Q E :=
  Triple.read (fun _ _ _ _ => trivial) (Does.refl A) fun _ _ hvalid => h _ _ hvalid.sound

/-- One exchange that asks for no effect. -/
theorem ask {c : Call} {Q : c.Reply → Condition} (hP : P.Busy) (quiet : c.attempt? = none)
    (h : ∀ v : World interface, P.holds v → ∀ r, A v ⟨c, r⟩ →
      Q r v.store.journal (v.log ++ [⟨c, r⟩])) :
    Verified A P (Prog.ask (S := interface) c) Q E :=
  Triple.ask hP.stable fun v hv _ r hr => ⟨.ask c r quiet hr, h v hv r hr⟩

theorem bind {R : β → Condition} {p : Program α} {f : α → Program β} (h : Verified A P p Q E)
    (hnext : ∀ a, Verified A (Q a) (f a) R E) : Verified A P (p.bind f) R E :=
  Triple.bind h hnext

theorem pre {P' : Condition} {p : Program α} (h : Verified A P p Q E)
    (hP : ∀ j l, P' j l → P j l) : Verified A P' p Q E :=
  Triple.pre h fun w => hP w.store.journal w.log

theorem post {Q' : α → Condition} {E' : Condition} {p : Program α} (h : Verified A P p Q E)
    (hQ : ∀ a j l, Q a j l → Q' a j l) (hE : ∀ j l, E j l → E' j l) : Verified A P p Q' E' :=
  Triple.post h (fun a w => hQ a w.store.journal w.log) fun _ w => hE w.store.journal w.log

theorem pure {a : α} (h : ∀ j l, P j l → Q a j l) :
    Verified A P (Pure.pure a : Program α) Q E :=
  Triple.pure fun w => h w.store.journal w.log

theorem raise {fault : Fault} (h : ∀ j l, P j l → E j l) :
    Verified A P (Lifecycle.raise fault : Program α) Q E :=
  Triple.throw fun w => h w.store.journal w.log

/-- A check, or a reply that was thrown. -/
theorem ofExcept {r : Except Fault α} (hok : ∀ a, r = .ok a → ∀ j l, P j l → Q a j l)
    (herror : ∀ j l, P j l → E j l) :
    Verified A P (Prog.ofExcept (S := interface) r) Q E :=
  Triple.ofExcept (fun a ha w => hok a ha w.store.journal w.log) fun _ _ w =>
    herror w.store.journal w.log

theorem handle {F : Condition} {p : Program α} {handler : Fault → Program α}
    (h : Verified A P p Q F) (hhandler : ∀ e, Verified A F (handler e) Q E) :
    Verified A P (Prog.tryCatch (S := interface) p handler) Q E :=
  Triple.handle h hhandler

/-- A part of the precondition that is not about the world. -/
theorem fact {φ : Prop} {p : Program α} (h : φ → Verified A P p Q E) :
    Verified A (fun j l => φ ∧ P j l) p Q E :=
  Triple.fact h

theorem ex {γ : Type} {P : γ → Condition} {p : Program α} (h : ∀ x, Verified A (P x) p Q E) :
    Verified A (fun j l => ∃ x, P x j l) p Q E :=
  Triple.ex h

end Verified

/-! ## Reading the provider -/

section Reading

variable {P : Journal → Prop}

/-- A call that asks for no effect keeps what is known of the rows. -/
theorem verified_ask {c : Call} (hP : ∀ j, P j → j.busy = true) (quiet : c.attempt? = none) :
    Verified A (fun j _ => P j) (Prog.ask (S := interface) c) (fun _ j _ => P j) fun j _ => P j :=
  .ask (fun j _ => hP j) quiet fun _ hv _ _ => hv

theorem verified_thrown {r : Except Fault α} :
    Verified A (fun j _ => P j) (thrown r) (fun _ j _ => P j) fun j _ => P j :=
  .ofExcept (fun _ _ _ _ hj => hj) fun _ _ hj => hj

theorem verified_getCatalog (hP : ∀ j, P j → j.busy = true) :
    Verified A (fun j _ => P j) getCatalog (fun _ j _ => P j) fun j _ => P j :=
  .bind (verified_ask hP rfl) fun _ => verified_thrown

theorem verified_getAction (hP : ∀ j, P j → j.busy = true) {actionId : String} :
    Verified A (fun j _ => P j) (getAction actionId) (fun _ j _ => P j) fun j _ => P j :=
  .bind (verified_ask hP rfl) fun _ => verified_thrown

theorem verified_getServer (hP : ∀ j, P j → j.busy = true) {serverId : String} :
    Verified A (fun j _ => P j) (getServer serverId) (fun _ j _ => P j) fun j _ => P j :=
  .bind (verified_ask hP rfl) fun _ => verified_thrown

theorem verified_getPrimaryIp (hP : ∀ j, P j → j.busy = true) {primaryIpId : String} :
    Verified A (fun j _ => P j) (getPrimaryIp primaryIpId) (fun _ j _ => P j) fun j _ => P j :=
  .bind (verified_ask hP rfl) fun _ => verified_thrown

theorem verified_look (hP : ∀ j, P j → j.busy = true) {ref : ResourceRef} :
    Verified A (fun j _ => P j) (look ref) (fun _ j _ => P j) fun j _ => P j := by
  unfold look
  split
  · exact .bind (verified_getServer hP) fun _ => .pure fun _ _ hj => hj
  · exact .bind (verified_getPrimaryIp hP) fun _ => .pure fun _ _ hj => hj

theorem verified_search (hP : ∀ j, P j → j.busy = true) {kind : ResourceKind} {labels : Labels} :
    Verified A (fun j _ => P j) (search kind labels) (fun _ j _ => P j) fun j _ => P j := by
  unfold search
  split
  · exact .bind (verified_ask hP rfl) fun _ => .bind verified_thrown fun _ =>
      .pure fun _ _ hj => hj
  · exact .bind (verified_ask hP rfl) fun _ => .bind verified_thrown fun _ =>
      .pure fun _ _ hj => hj

/-- The exact read of a server, with its reply as the latest exchange. -/
theorem verified_readServer {P : Condition} (hP : P.Busy) {serverId : String} :
    Verified A P (getServer serverId)
      (fun seen j l => ∃ v : World interface, P.holds v ∧ j = v.store.journal ∧
        l = v.log ++ [⟨.getServer serverId,
          (.ok seen : Except Fault (Option ProviderServer))⟩] ∧
        A v ⟨.getServer serverId, (.ok seen : Except Fault (Option ProviderServer))⟩)
      (fun j _ => ∃ l, P j l) := by
  refine .bind (.ask (Q := fun r j l => ∃ v : World interface, P.holds v ∧ j = v.store.journal ∧
    l = v.log ++ [⟨.getServer serverId, r⟩] ∧ A v ⟨.getServer serverId, r⟩) hP rfl
    fun v hv r hr => ⟨v, hv, rfl, rfl, hr⟩) fun r => ?_
  refine .ofExcept (fun seen hseen j l hj => ?_) fun j l hj => ?_
  · rw [show r = .ok seen from hseen] at hj
    exact hj
  · obtain ⟨v, hv, rfl, -⟩ := hj
    exact ⟨v.log, hv⟩

/-- The exact read of an address, with its reply as the latest exchange. -/
theorem verified_readPrimaryIp {P : Condition} (hP : P.Busy) {primaryIpId : String} :
    Verified A P (getPrimaryIp primaryIpId)
      (fun seen j l => ∃ v : World interface, P.holds v ∧ j = v.store.journal ∧
        l = v.log ++ [⟨.getPrimaryIp primaryIpId,
          (.ok seen : Except Fault (Option ProviderPrimaryIp))⟩] ∧
        A v ⟨.getPrimaryIp primaryIpId, (.ok seen : Except Fault (Option ProviderPrimaryIp))⟩)
      (fun j _ => ∃ l, P j l) := by
  refine .bind (.ask (Q := fun r j l => ∃ v : World interface, P.holds v ∧ j = v.store.journal ∧
    l = v.log ++ [⟨.getPrimaryIp primaryIpId, r⟩] ∧ A v ⟨.getPrimaryIp primaryIpId, r⟩) hP rfl
    fun v hv r hr => ⟨v, hv, rfl, rfl, hr⟩) fun r => ?_
  refine .ofExcept (fun seen hseen j l hj => ?_) fun j l hj => ?_
  · rw [show r = .ok seen from hseen] at hj
    exact hj
  · obtain ⟨v, hv, rfl, -⟩ := hj
    exact ⟨v.log, hv⟩

/-- Both exact reads, for a resource of either kind. -/
theorem verified_lookNull (hP : ∀ j, P j → j.busy = true) {ref : ResourceRef} :
    Verified A (fun j _ => P j) (look ref)
      (fun seen j l => P j ∧ (seen = none → ReadNull A l j ref)) fun j _ => P j := by
  obtain ⟨kind, id⟩ := ref
  cases kind with
  | server =>
    refine .bind (.post (verified_readServer (P := fun j _ => P j) (fun j _ => hP j))
      (fun _ _ _ h => h) fun j l ⟨_, h⟩ => h) fun seen => ?_
    refine .pure fun j l ⟨v, hv, hj, hl, hA⟩ => ⟨hj ▸ hv, fun hnone => ?_⟩
    obtain rfl : seen = none := by simpa using hnone
    exact ⟨v, hj.symm, hl, hA⟩
  | primaryIp =>
    refine .bind (.post (verified_readPrimaryIp (P := fun j _ => P j) (fun j _ => hP j))
      (fun _ _ _ h => h) fun j l ⟨_, h⟩ => h) fun seen => ?_
    refine .pure fun j l ⟨v, hv, hj, hl, hA⟩ => ⟨hj ▸ hv, fun hnone => ?_⟩
    obtain rfl : seen = none := by simpa using hnone
    exact ⟨v, hj.symm, hl, hA⟩

end Reading

/-! ## The operation of a tick -/

/-- The operation goes on: its row is as it was read, but for its progress. -/
structure Working (operation : OperationRow) (journal : Journal) : Prop where
  row : ∃ progress, journal.Active { operation with progress }

/-- As the tick found the journal, but for the progress of its operation. -/
structure Ticking (operation : OperationRow) (start journal : Journal) : Prop where
  working : Working operation journal
  attempts : journal.attempts = start.attempts
  resources : journal.resources = start.resources
  cleanups : journal.cleanups = start.cleanups
  allocation : journal.allocation = start.allocation

theorem Journal.Active.busy {journal : Journal} {operation : OperationRow}
    (h : journal.Active operation) : journal.busy = true := by
  rw [Journal.busy, Journal.active, List.find?_isSome]
  exact ⟨operation, h.mem, by simp [h.going]⟩

theorem Journal.Active.working {journal : Journal} {operation : OperationRow}
    (h : journal.Active operation) : Working operation journal := ⟨operation.progress, h⟩

theorem Journal.Active.ticking {journal : Journal} {operation : OperationRow}
    (h : journal.Active operation) : Ticking operation journal journal :=
  ⟨h.working, rfl, rfl, rfl, rfl⟩

namespace Working

variable {operation : OperationRow} {journal : Journal}

theorem busy (h : Working operation journal) : journal.busy = true := by
  obtain ⟨progress, active⟩ := h.row
  exact active.busy

/-- The row that the journal has for the operation. -/
theorem get (h : Working operation journal) (hs : Sound journal) :
    ∃ progress, journal.operation operation.id = some { operation with progress } ∧
      journal.Active { operation with progress } := by
  obtain ⟨progress, active⟩ := h.row
  exact ⟨progress, hs.operations.keyed.get active.mem, active⟩

/-- The same operations, elsewhere. -/
theorem of_operations {journal' : Journal} (h : Working operation journal)
    (heq : journal'.operations = journal.operations) : Working operation journal' := by
  obtain ⟨progress, active⟩ := h.row
  exact ⟨progress, heq ▸ active.mem, active.going⟩

end Working

theorem Ticking.busy {operation : OperationRow} {start journal : Journal}
    (h : Ticking operation start journal) : journal.busy = true := h.working.busy

/-! ## Writing progress -/

/-- An update of a row that is there: behind its guard, one rewrite. -/
theorem updateOperation_ok {journal journal' : Journal} {id : OperationId}
    {f : OperationRow → OperationRow} (h : updateOperation journal id f = .ok journal') :
    (journal.operation id = none ∧ journal' = journal) ∨
      ∃ old, journal.operation id = some old ∧ guardCleanupOperation journal old (f old) = .ok () ∧
        journal' = journal.mapOperation id f := by
  unfold updateOperation at h
  split at h
  · next hnone => exact .inl ⟨hnone, (pure_ok_iff.mp h).symm⟩
  · next old hold =>
    simp only [bind_ok_iff, pure_ok_iff] at h
    obtain ⟨_, hguard, _, -, rfl⟩ := h
    exact .inr ⟨old, hold, hguard, rfl⟩

section Progress

variable {operation : OperationRow} {log : Log} {clock : Instant} {start journal journal' : Journal}
  {progress : OperationProgress}

/-- The rewritten row is the operation's own again. -/
theorem Working.mapProgress (h : Working operation journal) (hs : Sound journal)
    (going : progress.terminal = false) :
    Working operation (journal.mapOperation operation.id fun row => { row with progress }) := by
  obtain ⟨old, active⟩ := h.row
  refine ⟨progress, (hs.operations.keyed.mem_update active.mem).mpr (.inl rfl), going⟩

/-- Progress that goes on is one change, or none. -/
theorem writeProgress_changes (hs : Sound journal) (h : Working operation journal)
    (going : progress.terminal = false)
    (hok : writeProgress journal operation.id progress = .ok journal') :
    Changes A log clock journal journal' ∧ Working operation journal' ∧
      ∃ operations, journal' = { journal with operations } := by
  unfold writeProgress at hok
  split at hok
  · rcases updateOperation_ok hok with ⟨-, rfl⟩ | ⟨old, -, -, rfl⟩
    · exact ⟨.refl, h, journal'.operations, rfl⟩
    · obtain ⟨current, active⟩ := h.row
      exact ⟨.single (.progress active progress going), h.mapProgress hs going, _, rfl⟩
  · obtain rfl := pure_ok_iff.mp hok
    exact ⟨.refl, h, journal.operations, rfl⟩

/-- Writing progress keeps whatever else is known of the rows. -/
theorem verified_setProgress {P : Journal → Prop} (hP : ∀ j, P j → Working operation j)
    (hkeep : ∀ j operations, P j → Working operation { j with operations } →
      P { j with operations }) (going : progress.terminal = false) :
    Verified A (fun j _ => P j) (setProgress operation.id progress) (fun _ j _ => P j)
      fun j _ => P j := by
  refine .transact (fun j _ h => (hP j h).busy) (fun _ _ h => h) fun v hv hvalid env a j' hok => ?_
  simp only [bind_ok_iff, pure_ok_iff, Prod.mk.injEq] at hok
  obtain ⟨j₁, hwrite, -, rfl⟩ := hok
  obtain ⟨hchanges, hworking, operations, rfl⟩ :=
    writeProgress_changes (A := A) hvalid.sound (hP _ hv) going hwrite
  exact ⟨hchanges, fun _ => hkeep _ _ hv hworking⟩

theorem verified_tick (going : progress.terminal = false) :
    Verified A (fun j _ => Ticking operation start j) (setProgress operation.id progress)
      (fun _ j _ => Ticking operation start j) fun j _ => Ticking operation start j :=
  verified_setProgress (fun _ h => h.working)
    (fun _ _ h hw => ⟨hw, h.attempts, h.resources, h.cleanups, h.allocation⟩) going

theorem verified_blockMismatch :
    Verified A (fun j _ => Working operation j) (blockMismatch operation.id)
      (fun _ j _ => Working operation j) fun j _ => Working operation j :=
  verified_setProgress (fun _ h => h) (fun _ _ _ hw => hw) rfl

end Progress

/-! ## Claims -/

/-- The create that a resource is claimed for. -/
structure Claimable (attempts : List Attempt) (ref : ResourceRef) (labels : Labels) : Prop where
  attempt : ∃ a ∈ attempts, a.command.isCreation = true ∧ a.mayExist = true ∧
    ref.kind = a.command.resourceKind ∧ a.command.labels? = some labels

/-- Resources were claimed, and nothing else happened. -/
structure Claims (start journal : Journal) : Prop where
  eq : ∃ claimed serverId, journal = { start with
    resources := start.resources ++ claimed
    allocation := { start.allocation with serverId } }

theorem Claims.refl (journal : Journal) : Claims journal journal :=
  ⟨[], journal.allocation.serverId, by simp⟩

theorem Claims.trans {a b c : Journal} (h : Claims a b) (h' : Claims b c) : Claims a c := by
  obtain ⟨claimed, serverId, rfl⟩ := h.eq
  obtain ⟨more, serverId', rfl⟩ := h'.eq
  exact ⟨claimed ++ more, serverId', by simp⟩

section Claiming

variable {operation : OperationRow} {env : Env} {log : Log} {now : Instant}
  {start journal journal' : Journal} {ref : ResourceRef} {labels : Labels}

theorem insertResource_ok (h : insertResource env journal now ref labels = .ok journal') :
    journal' = journal ∨ (journal.resource ref = none ∧
      journal' = { journal with resources := journal.resources ++ [⟨ref, labels, none, now⟩] }) := by
  unfold insertResource at h
  split at h
  · exact .inl (pure_ok_iff.mp h).symm
  · next hnew =>
    split at h
    · simp at h
    · simp only [not_or, not_not] at hnew
      exact .inr ⟨hnew.1, (pure_ok_iff.mp h).symm⟩

theorem insertResource_changes (A : Replies) (log : Log) (hw : Working operation journal)
    (hclaim : Claimable journal.attempts ref labels ∨ journal.resource ref ≠ none)
    (h : insertResource env journal now ref labels = .ok journal') :
    Changes A log now journal journal' ∧ Claims journal journal' := by
  rcases insertResource_ok h with rfl | ⟨hnone, rfl⟩
  · exact ⟨.refl, .refl _⟩
  · rcases hclaim with hclaim | hknown
    · obtain ⟨a, ha, hcreation, hmay, hkind, hlabels⟩ := hclaim.attempt
      obtain ⟨progress, active⟩ := hw.row
      exact ⟨.single (.claim active ha hcreation hmay ref labels hkind hlabels hnone),
        ⟨[⟨ref, labels, none, now⟩], journal.allocation.serverId, rfl⟩⟩
    · exact absurd hnone hknown

theorem bindServer_changes (A : Replies) (log : Log) (hw : Working operation journal)
    (hlive : (journal.resource ref).any OwnedResource.live = true)
    (h : bindServer journal ref = .ok journal') :
    Changes A log now journal journal' ∧ Claims journal journal' := by
  unfold bindServer at h
  split at h
  · simp only [updateAllocation, bind_ok_iff, pure_ok_iff] at h
    obtain ⟨-, -, rfl⟩ := h
    obtain ⟨row, hget, hrow⟩ := (Option.any_eq_true _ _).mp hlive
    obtain ⟨progress, active⟩ := hw.row
    have hid : row.ref.id = ref.id := congrArg ResourceRef.id (Table.get_key hget)
    rw [← hid]
    exact ⟨.single (.bind active (Table.get_mem hget) hrow), ⟨[], some row.ref.id, by simp⟩⟩
  · obtain rfl := pure_ok_iff.mp h
    exact ⟨.refl, .refl _⟩

theorem Claims.working (h : Claims start journal) (hw : Working operation start) :
    Working operation journal := by
  obtain ⟨claimed, serverId, rfl⟩ := h.eq
  exact hw.of_operations rfl

theorem Claims.attempts (h : Claims start journal) : journal.attempts = start.attempts := by
  obtain ⟨claimed, serverId, rfl⟩ := h.eq
  rfl

theorem Claims.cleanups (h : Claims start journal) : journal.cleanups = start.cleanups := by
  obtain ⟨claimed, serverId, rfl⟩ := h.eq
  rfl

/-- What was in the ledger stays in it. -/
theorem Claims.resources (h : Claims start journal) {row : OwnedResource}
    (hm : row ∈ start.resources) : row ∈ journal.resources := by
  obtain ⟨claimed, serverId, rfl⟩ := h.eq
  exact List.mem_append_left _ hm

/-- A claim in a transaction. -/
theorem claimResource_changes (A : Replies) (log : Log) (hw : Working operation journal)
    (hclaim : Claimable journal.attempts ref labels ∨ journal.resource ref ≠ none)
    (h : claimResource env now journal ref labels = .ok journal') :
    Changes A log now journal journal' ∧ Claims journal journal' := by
  simp only [claimResource, checkClaim, bind_ok_iff, refuse_ok_iff, not_not] at h
  obtain ⟨j, hinsert, _, hlive, hbind⟩ := h
  obtain ⟨hc, hclaims⟩ := insertResource_changes A log hw hclaim hinsert
  obtain ⟨hc', hclaims'⟩ := bindServer_changes A log
    (hclaims.working hw) hlive hbind
  exact ⟨hc.trans hc', hclaims.trans hclaims'⟩

/-- What a worker has discovered, and that it goes on. -/
structure Discovering (operation : OperationRow) (start journal : Journal) : Prop where
  working : Working operation journal
  claims : Claims start journal

theorem Discovering.busy (h : Discovering operation start journal) : journal.busy = true :=
  h.working.busy

theorem Discovering.trans {journal' : Journal} (h : Discovering operation start journal)
    (hclaims : Claims journal journal') : Discovering operation start journal' :=
  ⟨hclaims.working h.working, h.claims.trans hclaims⟩

/-- A claim with the plain connection: a process death may fall between its statements. -/
theorem verified_claimNow (hclaim : Claimable start.attempts ref labels) :
    Verified A (fun j _ => Discovering operation start j) (claimNow ref labels)
      (fun _ j _ => Discovering operation start j) fun j _ => Discovering operation start j := by
  refine .bind (Q := fun _ j _ => Discovering operation start j)
    (.transact (fun _ _ h => h.busy) (fun _ _ h => h) fun v hv hvalid env a j' hok => ?_) fun _ =>
    .bind (Q := fun _ j _ => Discovering operation start j ∧
      (j.resource ref).any OwnedResource.live = true)
    (.transact (fun _ _ h => h.busy) (fun _ _ h => h) fun v hv hvalid env a j' hok => ?_) fun _ =>
    .transact (fun _ _ h => h.1.busy) (fun _ _ h => h.1) fun v hv hvalid env a j' hok => ?_
  · simp only [bind_ok_iff, pure_ok_iff, Prod.mk.injEq] at hok
    obtain ⟨j₁, hinsert, -, rfl⟩ := hok
    have hattempts := Claims.attempts hv.claims
    obtain ⟨hchanges, hclaims⟩ := insertResource_changes A v.log hv.working
      (.inl (hattempts ▸ hclaim)) hinsert
    exact ⟨hchanges, fun _ => hv.trans hclaims⟩
  · simp only [checkClaim, bind_ok_iff, pure_ok_iff, refuse_ok_iff, not_not, Prod.mk.injEq] at hok
    obtain ⟨_, hlive, -, rfl⟩ := hok
    exact ⟨.refl, fun _ => ⟨hv, hlive⟩⟩
  · simp only [bind_ok_iff, pure_ok_iff, Prod.mk.injEq] at hok
    obtain ⟨j₁, hbind, -, rfl⟩ := hok
    obtain ⟨hchanges, hclaims⟩ := bindServer_changes A v.log hv.1.working hv.2 hbind
    exact ⟨hchanges, fun _ => hv.1.trans hclaims⟩

end Claiming

/-! ## Absence -/

/-- An absence is recorded from the exact read that was the latest exchange. -/
theorem recordAbsence_changes {operation : OperationRow} {env : Env} {log : Log} {now : Instant}
    {journal : Journal} {ref : ResourceRef} (hw : Working operation journal)
    (hread : ReadNull A log journal ref) :
    Changes A log now journal (recordAbsence env journal ref) := by
  obtain ⟨progress, active⟩ := hw.row
  exact .single (.absent active ref env.date hread)

theorem verified_recordAbsenceNow {operation : OperationRow} {ref : ResourceRef} :
    Verified A (fun j l => Working operation j ∧ ReadNull A l j ref) (recordAbsenceNow ref)
      (fun _ j _ => Working operation j) fun j _ => Working operation j := by
  refine .transact (fun _ _ h => h.1.busy) (fun _ _ h => h.1) fun v hv hvalid env a j' hok => ?_
  obtain ⟨-, rfl⟩ := Prod.mk.inj (Except.ok.inj hok)
  exact ⟨recordAbsence_changes hv.1 hv.2, fun _ => hv.1.of_operations rfl⟩

end AgentCloud.Lifecycle
