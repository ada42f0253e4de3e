/-
  THE INVARIANT OF A JOURNAL.

  Three parts, each about the tables it reads: `OperationsSound` (one operation at a time, one
  create, one cleanup and what it has replaced), `AttemptsSound` (every attempt is one its operation
  asks for, aims at what is in the ledger, and is asked for once) and `LedgerSound` (every resource
  was claimed for a create that may have made it).  `Sound` adds what ties them together: what is
  over has nothing pending, and a retired allocation has nothing left.

  `Change.sound` carries it over every change.  Most changes rewrite one row; the lemmas on the
  parts say which rewrites each part does not see.
-/
import AgentCloud.Lifecycle.Changes

namespace AgentCloud.Lifecycle

open Checked Durable

/-! ## Commands and their operations -/

namespace ProviderCommand

variable {command : ProviderCommand}

/-- What deletes is not labelled, and creates nothing. -/
theorem labels?_of_deletes {ref : ResourceRef} (h : command.deletes? = some ref) :
    command.labels? = none := by
  obtain rfl := deletes?_eq_some.mp h
  obtain ⟨kind, id⟩ := ref
  cases kind <;> rfl

/-- What is labelled is a creation. -/
theorem isCreation_of_labels {labels : Labels} (h : command.labels? = some labels) :
    command.isCreation = true := by
  cases command <;> simp_all [labels?, isCreation, isServerCreate, isIpCreate]

theorem labels?_of_isCreation (h : command.isCreation = true) :
    ∃ labels, command.labels? = some labels := by
  cases command <;> simp_all [labels?, isCreation, isServerCreate, isIpCreate]

/-- A command creates what it labels, or names what it works on. -/
theorem target?_of_labels {labels : Labels} (h : command.labels? = some labels) :
    command.target? = none := by
  cases command <;> simp_all [labels?, target?, serverId?]

theorem target?_of_unlabelled (h : command.labels? = none) :
    ∃ ref, command.target? = some ref := by
  cases command <;> simp_all [labels?, target?, serverId?]

theorem resourceKind_of_server (h : command.isServerCreate = true) :
    command.resourceKind = .server := by
  cases command <;> simp_all [isServerCreate, resourceKind]

theorem once_of_server (h : command.isServerCreate = true) : command.once ≠ none := by
  cases command <;> simp_all [isServerCreate, once]

theorem deletes?_of_server (h : command.isServerCreate = true) : command.deletes? = none := by
  cases command <;> simp_all [isServerCreate, deletes?]

/-- Commands that are asked for once as the same effect delete alike. -/
theorem deletes?_of_once {other : ProviderCommand} (h : command.once = other.once)
    (hsome : command.once ≠ none) : command.deletes? = other.deletes? := by
  cases command <;> cases other <;> simp_all [once, deletes?]

/-- Creations of one kind are asked for once as the same effect. -/
theorem once_of_kind {other : ProviderCommand} (h : command.isCreation = true)
    (ho : other.isCreation = true) (hkind : command.resourceKind = other.resourceKind) :
    command.once = other.once := by
  cases command <;> cases other <;>
    simp_all [isCreation, isServerCreate, isIpCreate, resourceKind, once]

end ProviderCommand

namespace OperationRow

variable {operation : OperationRow} {command : ProviderCommand}

/-- Only a create asks for a server or an address. -/
theorem create_of_mayAsk (h : operation.mayAsk command = true)
    (hcreation : command.isCreation = true) : operation.kind = .create := by
  obtain ⟨id, grantId, lifecycle, offer, intent, progress, createdAt⟩ := operation
  cases lifecycle <;> cases command <;>
    simp_all [mayAsk, OperationRow.kind, LifecycleCommand.kind, ProviderCommand.once,
      ProviderCommand.deletes?, ProviderCommand.isCreation, ProviderCommand.isServerCreate,
      ProviderCommand.isIpCreate, LifecycleCommand.asks]

theorem mayAsk_deletion (hkind : operation.kind = .create ∨ operation.kind = .destroy)
    {ref : ResourceRef} (h : command.deletes? = some ref) : operation.mayAsk command = true := by
  obtain rfl := ProviderCommand.deletes?_eq_some.mp h
  obtain ⟨kind, id⟩ := ref
  rcases hkind with hkind | hkind <;> cases kind <;> simp [mayAsk, hkind] <;> rfl

end OperationRow

/-- The guard of a cleanup's effects lets only deletions pass. -/
theorem deletes_of_guarded {journal : Journal} {clock : Instant} {new : Attempt}
    (h : guardAdmittedEffect journal clock new = .ok ()) :
    ∃ ref, new.command.deletes? = some ref := by
  simp only [guardAdmittedEffect, bind_ok_iff, present_ok_iff] at h
  obtain ⟨-, -, ref, href, -⟩ := h
  exact ⟨ref, href⟩

/-! ## Operations -/

structure OperationsSound (operations : List OperationRow) (cleanups : List OperationCleanup)
    (live : Bool) : Prop where
  keyed : Table.Keyed OperationRow.id operations
  one : ∀ a ∈ operations, ∀ b ∈ operations, a.terminal = false → b.terminal = false → a = b
  source : ∃ row ∈ operations, row.kind = .create
  create : ∀ a ∈ operations, ∀ b ∈ operations, a.kind = .create → b.kind = .create → a = b
  alone : ∀ a ∈ operations, a.kind = .create → a.terminal = false → ∀ b ∈ operations, b = a
  single : ∀ c ∈ cleanups, ∀ d ∈ cleanups, c = d
  executor : ∀ c ∈ cleanups, ∃ row ∈ operations,
    row.id = c.operationId ∧ row.intent = .cleanup c.sourceOperationId
  origin : ∀ c ∈ cleanups, ∃ row ∈ operations, row.id = c.sourceOperationId ∧ row.kind = .create
  joined : ∀ row ∈ operations, row.isCleanup = true → ∃ c ∈ cleanups, c.operationId = row.id
  destroys : ∀ row ∈ operations, row.kind = .destroy → row.isCleanup = true
  cleans : ∀ row ∈ operations, row.isCleanup = true → row.kind = .create ∨ row.kind = .destroy
  compensates : ∀ row ∈ operations, ∀ error, row.intent = .compensate error → row.kind = .create
  replaced : ∀ c ∈ cleanups, ∀ row ∈ operations, row.terminal = false → row.id = c.operationId
  ended : ∀ row ∈ operations, row.isCleanup = true → row.terminal = true →
    row.progress.endsCleanup row.kind = true ∧ live = false
  cancelled : ∀ row ∈ operations, ∀ date, row.progress = .cancelled date → live = false
  retired : live = false → ∀ row ∈ operations, row.terminal = true

namespace OperationsSound

variable {operations : List OperationRow} {cleanups : List OperationCleanup} {live live' : Bool}

theorem live_of_active (h : OperationsSound operations cleanups live) {row : OperationRow}
    (hm : row ∈ operations) (hgoing : row.terminal = false) : live = true := by
  cases live with
  | true => rfl
  | false =>
    have := h.retired rfl row hm
    rw [hgoing] at this
    cases this

/-- A cleanup that is over has retired the allocation. -/
theorem uncleaned_of_free (h : OperationsSound operations cleanups true)
    (hfree : ∀ row ∈ operations, row.terminal = true) : cleanups = [] := by
  cases cleanups with
  | nil => rfl
  | cons c cleanups =>
    obtain ⟨row, hm, -, hintent⟩ := h.executor c (by simp)
    have hcleanup : row.isCleanup = true := by simp [OperationRow.isCleanup, hintent]
    have := (h.ended row hm hcleanup (hfree row hm)).2
    cases this

/-- While an operation without a cleanup goes on, there is none. -/
theorem uncleaned_of_active (h : OperationsSound operations cleanups live) {row : OperationRow}
    (hm : row ∈ operations) (hgoing : row.terminal = false) (hrow : row.isCleanup = false) :
    cleanups = [] := by
  cases cleanups with
  | nil => rfl
  | cons c cleanups =>
    obtain ⟨executor, hex, hid, hintent⟩ := h.executor c (by simp)
    have hkey : row.id = executor.id := (h.replaced c (by simp) row hm hgoing).trans hid.symm
    obtain rfl := h.keyed.unique hm hex hkey
    simp [OperationRow.isCleanup, hintent] at hrow

/-- The row of the active operation is rewritten; `live'` is what becomes of the allocation.  No
    cleanup begins or ends to be one. -/
theorem rewrite (h : OperationsSound operations cleanups live) {row : OperationRow}
    (hm : row ∈ operations) (hgoing : row.terminal = false) {f : OperationRow → OperationRow}
    (hid : ∀ r, (f r).id = r.id) (hcommand : (f row).command = row.command)
    (hclean : (f row).isCleanup = row.isCleanup)
    (hintent : row.isCleanup = true → (f row).intent = row.intent)
    (hcompensate : ∀ error, (f row).intent = .compensate error → row.kind = .create)
    (hlive : live' = false → (f row).terminal = true)
    (hends : row.isCleanup = true → (f row).terminal = true →
      (f row).progress.endsCleanup row.kind = true ∧ live' = false)
    (hcancel : ∀ date, (f row).progress = .cancelled date → live' = false) :
    OperationsSound (Table.update OperationRow.id operations row.id f) cleanups live' := by
  have hl : live = true := h.live_of_active hm hgoing
  have hkind : (f row).kind = row.kind := by rw [OperationRow.kind, hcommand]; rfl
  -- a row afterwards is the rewritten one, or another one, which is over
  have hmem : ∀ r, r ∈ Table.update OperationRow.id operations row.id f ↔
      r = f row ∨ (r ∈ operations ∧ r.id ≠ row.id) := fun r => h.keyed.mem_update hm
  have hover : ∀ r ∈ operations, r.id ≠ row.id → r.terminal = true := by
    intro r hr hne
    cases hrt : r.terminal with
    | true => rfl
    | false => exact absurd (congrArg OperationRow.id (h.one r hr row hm hrt hgoing)) hne
  -- a row before is found again
  have hagain : ∀ r ∈ operations, ∃ r' ∈ Table.update OperationRow.id operations row.id f,
      r'.id = r.id ∧ r'.kind = r.kind ∧ (r.isCleanup = true → r'.intent = r.intent) := by
    intro r hr
    by_cases hkey : r.id = row.id
    · obtain rfl := h.keyed.unique hr hm hkey
      exact ⟨f r, (hmem _).mpr (.inl rfl), hid r, hkind, hintent⟩
    · exact ⟨r, (hmem r).mpr (.inr ⟨hr, hkey⟩), rfl, rfl, fun _ => rfl⟩
  exact {
    keyed := h.keyed.update hid
    one := by
      intro a ha b hb hat hbt
      rcases (hmem a).mp ha with rfl | ⟨ha, hia⟩
      · rcases (hmem b).mp hb with rfl | ⟨hb, hib⟩
        · rfl
        · rw [hover b hb hib] at hbt; cases hbt
      · rw [hover a ha hia] at hat; cases hat
    source := by
      obtain ⟨r, hr, hcreate⟩ := h.source
      obtain ⟨r', hr', -, hk, -⟩ := hagain r hr
      exact ⟨r', hr', hk.trans hcreate⟩
    create := by
      intro a ha b hb hak hbk
      rcases (hmem a).mp ha with rfl | ⟨ha, hia⟩
      · rcases (hmem b).mp hb with rfl | ⟨hb, hib⟩
        · rfl
        · rw [hkind] at hak
          exact absurd (congrArg OperationRow.id (h.create b hb row hm hbk hak)) hib
      · rcases (hmem b).mp hb with rfl | ⟨hb, hib⟩
        · rw [hkind] at hbk
          exact absurd (congrArg OperationRow.id (h.create a ha row hm hak hbk)) hia
        · exact h.create a ha b hb hak hbk
    alone := by
      intro a ha hak hat b hb
      rcases (hmem a).mp ha with rfl | ⟨ha, hia⟩
      · rcases (hmem b).mp hb with rfl | ⟨hb, hib⟩
        · rfl
        · rw [hkind] at hak
          exact absurd (congrArg OperationRow.id (h.alone row hm hak hgoing b hb)) hib
      · rw [hover a ha hia] at hat; cases hat
    single := h.single
    executor := by
      intro c hc
      obtain ⟨r, hr, hkey, hcleanup⟩ := h.executor c hc
      obtain ⟨r', hr', hid', -, hi'⟩ := hagain r hr
      have : r.isCleanup = true := by simp [OperationRow.isCleanup, hcleanup]
      exact ⟨r', hr', hid'.trans hkey, (hi' this).trans hcleanup⟩
    origin := by
      intro c hc
      obtain ⟨r, hr, hkey, hcreate⟩ := h.origin c hc
      obtain ⟨r', hr', hid', hk, -⟩ := hagain r hr
      exact ⟨r', hr', hid'.trans hkey, hk.trans hcreate⟩
    joined := by
      intro r hr hcleanup
      rcases (hmem r).mp hr with rfl | ⟨hr, -⟩
      · obtain ⟨c, hc, hkey⟩ := h.joined row hm (hclean ▸ hcleanup)
        exact ⟨c, hc, hkey.trans (hid row).symm⟩
      · exact h.joined r hr hcleanup
    destroys := by
      intro r hr hdestroy
      rcases (hmem r).mp hr with rfl | ⟨hr, -⟩
      · exact hclean.trans (h.destroys row hm (hkind ▸ hdestroy))
      · exact h.destroys r hr hdestroy
    cleans := by
      intro r hr hcleanup
      rcases (hmem r).mp hr with rfl | ⟨hr, -⟩
      · rw [hkind]
        exact h.cleans row hm (hclean ▸ hcleanup)
      · exact h.cleans r hr hcleanup
    compensates := by
      intro r hr error hcomp
      rcases (hmem r).mp hr with rfl | ⟨hr, -⟩
      · exact hkind.trans (hcompensate error hcomp)
      · exact h.compensates r hr error hcomp
    replaced := by
      intro c hc r hr hrt
      rcases (hmem r).mp hr with rfl | ⟨hr, hne⟩
      · exact (hid row).trans (h.replaced c hc row hm hgoing)
      · rw [hover r hr hne] at hrt; cases hrt
    ended := by
      intro r hr hcleanup hrt
      rcases (hmem r).mp hr with rfl | ⟨hr, -⟩
      · rw [hkind]
        exact hends (hclean ▸ hcleanup) hrt
      · rw [(h.ended r hr hcleanup hrt).2] at hl; cases hl
    cancelled := by
      intro r hr date hdate
      rcases (hmem r).mp hr with rfl | ⟨hr, -⟩
      · exact hcancel date hdate
      · rw [h.cancelled r hr date hdate] at hl; cases hl
    retired := by
      intro hlive' r hr
      rcases (hmem r).mp hr with rfl | ⟨hr, hne⟩
      · exact hlive hlive'
      · exact hover r hr hne }

/-- A cleanup takes over the create, which is alone. -/
theorem takeover (h : OperationsSound operations cleanups live) {row : OperationRow}
    (hm : row ∈ operations) (hgoing : row.terminal = false) (hcreate : row.kind = .create)
    (huncleaned : row.isCleanup = false) (grantId : GrantId) (version : Nat) (clock : Instant) :
    OperationsSound
      (Table.update OperationRow.id operations row.id fun r =>
        { r with intent := .cleanup row.id, progress := .cleaningUp })
      (cleanups ++ [⟨row.id, row.id, grantId, version, clock⟩]) live := by
  have hl : live = true := h.live_of_active hm hgoing
  have hnone : cleanups = [] := h.uncleaned_of_active hm hgoing huncleaned
  subst hnone hl
  let new : OperationRow := { row with intent := .cleanup row.id, progress := .cleaningUp }
  have hmem : ∀ r, r ∈ Table.update OperationRow.id operations row.id (fun r =>
      { r with intent := .cleanup row.id, progress := .cleaningUp }) ↔ r = new := by
    intro r
    rw [h.keyed.mem_update hm]
    constructor
    · rintro (rfl | ⟨hr, hne⟩)
      · rfl
      · exact absurd (congrArg OperationRow.id (h.alone row hm hcreate hgoing r hr)) hne
    · exact .inl
  have hkind : new.kind = .create := hcreate
  exact {
    keyed := h.keyed.update fun _ => rfl
    one := fun a ha b hb _ _ => ((hmem a).mp ha).trans ((hmem b).mp hb).symm
    source := ⟨new, (hmem new).mpr rfl, hkind⟩
    create := fun a ha b hb _ _ => ((hmem a).mp ha).trans ((hmem b).mp hb).symm
    alone := fun a ha _ _ b hb => ((hmem b).mp hb).trans ((hmem a).mp ha).symm
    single := by simp
    executor := by
      intro c hc
      obtain rfl := by simpa using hc
      exact ⟨new, (hmem new).mpr rfl, rfl, rfl⟩
    origin := by
      intro c hc
      obtain rfl := by simpa using hc
      exact ⟨new, (hmem new).mpr rfl, rfl, hkind⟩
    joined := by
      intro r hr _
      obtain rfl := (hmem r).mp hr
      exact ⟨_, List.mem_singleton.mpr rfl, rfl⟩
    destroys := by
      intro r hr hdestroy
      obtain rfl := (hmem r).mp hr
      rfl
    cleans := by
      intro r hr _
      obtain rfl := (hmem r).mp hr
      exact .inl hkind
    compensates := by
      intro r hr error hintent
      obtain rfl := (hmem r).mp hr
      exact hkind
    replaced := by
      intro c hc r hr _
      obtain rfl := (hmem r).mp hr
      obtain rfl := by simpa using hc
      rfl
    ended := by
      intro r hr _ hrt
      obtain rfl := (hmem r).mp hr
      cases hrt
    cancelled := by
      intro r hr date hdate
      obtain rfl := (hmem r).mp hr
      cases hdate
    retired := by
      intro hlive
      cases hlive }

/-- An operation is admitted on a machine that is not busy, as a cleanup of its own or without
    one. -/
theorem admitted (h : OperationsSound operations cleanups true)
    (hfree : ∀ row ∈ operations, row.terminal = true) {new : OperationRow}
    (hfresh : Table.get OperationRow.id operations new.id = none)
    (hgoing : new.terminal = false) (hkind : new.kind ≠ .create) {opened : List OperationCleanup}
    (hopen : (opened = [] ∧ new.intent = .run ∧ new.kind ≠ .destroy) ∨
      ∃ c, opened = [c] ∧ c.operationId = new.id ∧ new.intent = .cleanup c.sourceOperationId ∧
        new.kind = .destroy ∧ ∃ row ∈ operations, row.id = c.sourceOperationId ∧ row.kind = .create) :
    OperationsSound (operations ++ [new]) (cleanups ++ opened) true := by
  have hnone : cleanups = [] := h.uncleaned_of_free hfree
  subst hnone
  have hmem : ∀ r, r ∈ operations ++ [new] ↔ r ∈ operations ∨ r = new := by simp
  have hcreates : ∀ r ∈ operations ++ [new], r.kind = .create → r ∈ operations := by
    intro r hr hk
    rcases (hmem r).mp hr with hr | rfl
    · exact hr
    · exact absurd hk hkind
  have hgo : ∀ r ∈ operations ++ [new], r.terminal = false → r = new := by
    intro r hr hrt
    rcases (hmem r).mp hr with hr | rfl
    · rw [hfree r hr] at hrt; cases hrt
    · rfl
  have huncleaned : ∀ r ∈ operations, r.isCleanup = false := by
    intro r hr
    cases hc : r.isCleanup with
    | false => rfl
    | true => obtain ⟨c, hc, -⟩ := h.joined r hr hc; cases hc
  exact {
    keyed := h.keyed.insert hfresh
    one := fun a ha b hb hat hbt => (hgo a ha hat).trans (hgo b hb hbt).symm
    source := by
      obtain ⟨r, hr, hk⟩ := h.source
      exact ⟨r, (hmem r).mpr (.inl hr), hk⟩
    create := fun a ha b hb hak hbk => h.create a (hcreates a ha hak) b (hcreates b hb hbk) hak hbk
    alone := by
      intro a ha hak hat
      obtain rfl := hgo a ha hat
      exact absurd hak hkind
    single := by
      rcases hopen with ⟨rfl, -⟩ | ⟨c, rfl, -⟩ <;> simp
    executor := by
      intro c hc
      rcases hopen with ⟨rfl, -⟩ | ⟨d, rfl, hid, hintent, -⟩
      · cases hc
      · obtain rfl := by simpa using hc
        exact ⟨new, (hmem new).mpr (.inr rfl), hid.symm, hintent⟩
    origin := by
      intro c hc
      rcases hopen with ⟨rfl, -⟩ | ⟨d, rfl, -, -, -, r, hr, hid, hk⟩
      · cases hc
      · obtain rfl := by simpa using hc
        exact ⟨r, (hmem r).mpr (.inl hr), hid, hk⟩
    joined := by
      intro r hr hcleanup
      rcases (hmem r).mp hr with hr | rfl
      · rw [huncleaned r hr] at hcleanup; cases hcleanup
      · rcases hopen with ⟨-, hrun, -⟩ | ⟨d, rfl, hid, -⟩
        · simp [OperationRow.isCleanup, hrun] at hcleanup
        · exact ⟨d, by simp, hid⟩
    destroys := by
      intro r hr hdestroy
      rcases (hmem r).mp hr with hr | rfl
      · exact h.destroys r hr hdestroy
      · rcases hopen with ⟨-, -, hnot⟩ | ⟨d, -, -, hintent, -⟩
        · exact absurd hdestroy hnot
        · simp [OperationRow.isCleanup, hintent]
    cleans := by
      intro r hr hcleanup
      rcases (hmem r).mp hr with hr | rfl
      · exact h.cleans r hr hcleanup
      · rcases hopen with ⟨-, hrun, -⟩ | ⟨d, -, -, -, hdestroy, -⟩
        · simp [OperationRow.isCleanup, hrun] at hcleanup
        · exact .inr hdestroy
    compensates := by
      intro r hr error hintent
      rcases (hmem r).mp hr with hr | rfl
      · exact h.compensates r hr error hintent
      · rcases hopen with ⟨-, hrun, -⟩ | ⟨d, -, -, hcleanup, -⟩
        · rw [hrun] at hintent; cases hintent
        · rw [hcleanup] at hintent; cases hintent
    replaced := by
      intro c hc r hr hrt
      obtain rfl := hgo r hr hrt
      rcases hopen with ⟨rfl, -⟩ | ⟨d, rfl, hid, -⟩
      · cases hc
      · obtain rfl := by simpa using hc
        exact hid.symm
    ended := by
      intro r hr hcleanup hrt
      rcases (hmem r).mp hr with hr | rfl
      · rw [huncleaned r hr] at hcleanup; cases hcleanup
      · rw [hgoing] at hrt; cases hrt
    cancelled := by
      intro r hr date hdate
      rcases (hmem r).mp hr with hr | rfl
      · exact h.cancelled r hr date hdate
      · simp [OperationRow.terminal, hdate, OperationProgress.terminal] at hgoing
    retired := by
      intro hlive
      cases hlive }

end OperationsSound

/-! ## Attempts -/

structure AttemptsSound (operations : List OperationRow) (cleanups : List OperationCleanup)
    (attempts : List Attempt) (resources : List OwnedResource) : Prop where
  keyed : Table.Keyed Attempt.id attempts
  owner : ∀ a ∈ attempts, ∃ row ∈ operations, row.id = a.operationId
  asked : ∀ a ∈ attempts, ∀ row ∈ operations, row.id = a.operationId →
    row.mayAsk a.command = true
  keeps : ∀ a ∈ attempts, ∀ row ∈ operations, row.id = a.operationId → row.intent = .run →
    a.command.deletes? = none
  target : ∀ a ∈ attempts, ∀ ref, a.command.target? = some ref → ∃ row ∈ resources, row.ref = ref
  labelled : ∀ a ∈ attempts, ∀ labels, a.command.labels? = some labels →
    labels.lookup "operation_id" = some a.operationId
  once : ∀ a ∈ attempts, ∀ b ∈ attempts, a.operationId = b.operationId →
    a.command.once = b.command.once → a.command.once ≠ none →
    (a.command.deletes? ≠ none → ∀ c ∈ cleanups, c.operationId ≠ a.operationId) → a = b

/-- What never changes about an attempt. -/
structure Attempt.Same (a b : Attempt) : Prop where
  id : b.id = a.id
  operationId : b.operationId = a.operationId
  sequence : b.sequence = a.sequence
  command : b.command = a.command
  createdAt : b.createdAt = a.createdAt

namespace AttemptsSound

variable {operations operations' : List OperationRow} {cleanups cleanups' : List OperationCleanup}
  {attempts : List Attempt} {resources resources' : List OwnedResource}

/-- Operations may be rewritten, and new ones without attempts may appear. -/
theorem reoperate (h : AttemptsSound operations cleanups attempts resources)
    (hback : ∀ row ∈ operations, ∃ row' ∈ operations', row'.id = row.id)
    (hrow : ∀ row' ∈ operations', (∃ row ∈ operations, row.id = row'.id ∧
      row.command = row'.command ∧ (row'.intent = .run → row.intent = .run)) ∨
      ∀ a ∈ attempts, row'.id ≠ a.operationId)
    (hclean : ∀ c ∈ cleanups, c ∈ cleanups') :
    AttemptsSound operations' cleanups' attempts resources where
  keyed := h.keyed
  owner := by
    intro a ha
    obtain ⟨row, hm, hid⟩ := h.owner a ha
    obtain ⟨row', hm', hid'⟩ := hback row hm
    exact ⟨row', hm', hid'.trans hid⟩
  asked := by
    intro a ha row' hm' hid
    rcases hrow row' hm' with ⟨row, hm, hkey, hcommand, -⟩ | hnone
    · have := h.asked a ha row hm (hkey.trans hid)
      simpa [OperationRow.mayAsk, OperationRow.kind, hcommand] using this
    · exact absurd hid (hnone a ha)
  keeps := by
    intro a ha row' hm' hid hrun
    rcases hrow row' hm' with ⟨row, hm, hkey, -, hintent⟩ | hnone
    · exact h.keeps a ha row hm (hkey.trans hid) (hintent hrun)
    · exact absurd hid (hnone a ha)
  target := h.target
  labelled := h.labelled
  once := by
    intro a ha b hb hop honce hsome hdel
    exact h.once a ha b hb hop honce hsome fun hd c hc => hdel hd c (hclean c hc)

/-- The row of one operation is rewritten. -/
theorem rewrite (h : AttemptsSound operations cleanups attempts resources) {id : OperationId}
    {f : OperationRow → OperationRow} (hid : ∀ row, (f row).id = row.id)
    (hcommand : ∀ row, (f row).command = row.command)
    (hintent : ∀ row, (f row).intent = .run → row.intent = .run)
    (hclean : ∀ c ∈ cleanups, c ∈ cleanups') :
    AttemptsSound (Table.update OperationRow.id operations id f) cleanups' attempts resources := by
  refine h.reoperate (fun row hm => ?_) (fun row' hm' => ?_) hclean
  · refine ⟨if row.id = id then f row else row, List.mem_map.mpr ⟨row, hm, rfl⟩, ?_⟩
    split
    · exact hid row
    · rfl
  · obtain ⟨row, hm, rfl⟩ := Table.mem_update hm'
    refine .inl ⟨row, hm, ?_⟩
    split
    · exact ⟨(hid row).symm, (hcommand row).symm, hintent row⟩
    · exact ⟨rfl, rfl, fun h => h⟩

/-- The ledger may grow, and record absences. -/
theorem rebook (h : AttemptsSound operations cleanups attempts resources)
    (hrefs : ∀ row ∈ resources, ∃ row' ∈ resources', row'.ref = row.ref) :
    AttemptsSound operations cleanups attempts resources' where
  keyed := h.keyed
  owner := h.owner
  asked := h.asked
  keeps := h.keeps
  target := by
    intro a ha ref href
    obtain ⟨row, hm, heq⟩ := h.target a ha ref href
    obtain ⟨row', hm', heq'⟩ := hrefs row hm
    exact ⟨row', hm', heq'.trans heq⟩
  labelled := h.labelled
  once := h.once

/-- What was learnt about the attempts is written. -/
theorem learn (h : AttemptsSound operations cleanups attempts resources) {f : Attempt → Attempt}
    (hf : ∀ a : Attempt, a.Same (f a)) :
    AttemptsSound operations cleanups (attempts.map f) resources where
  keyed := by
    have : (attempts.map f).map Attempt.id = attempts.map Attempt.id := by
      rw [List.map_map]
      exact List.map_congr_left fun a _ => (hf a).id
    rw [Table.Keyed, this]
    exact h.keyed
  owner := by
    intro b hb
    obtain ⟨a, ha, rfl⟩ := List.mem_map.mp hb
    rw [(hf a).operationId]
    exact h.owner a ha
  asked := by
    intro b hb
    obtain ⟨a, ha, rfl⟩ := List.mem_map.mp hb
    rw [(hf a).operationId, (hf a).command]
    exact h.asked a ha
  keeps := by
    intro b hb
    obtain ⟨a, ha, rfl⟩ := List.mem_map.mp hb
    rw [(hf a).operationId, (hf a).command]
    exact h.keeps a ha
  target := by
    intro b hb
    obtain ⟨a, ha, rfl⟩ := List.mem_map.mp hb
    rw [(hf a).command]
    exact h.target a ha
  labelled := by
    intro b hb
    obtain ⟨a, ha, rfl⟩ := List.mem_map.mp hb
    rw [(hf a).operationId, (hf a).command]
    exact h.labelled a ha
  once := by
    intro a' ha' b' hb'
    obtain ⟨a, ha, rfl⟩ := List.mem_map.mp ha'
    obtain ⟨b, hb, rfl⟩ := List.mem_map.mp hb'
    rw [(hf a).operationId, (hf a).command, (hf b).operationId, (hf b).command]
    intro hop honce hsome hdel
    exact congrArg f (h.once a ha b hb hop honce hsome hdel)

end AttemptsSound

/-! ## The ledger -/

structure LedgerSound (operations : List OperationRow) (attempts : List Attempt)
    (resources : List OwnedResource) (live : Bool) : Prop where
  keyed : Table.Keyed OwnedResource.ref resources
  created : ∀ row ∈ resources, ∃ a ∈ attempts, a.command.isCreation = true ∧
    a.command.resourceKind = row.ref.kind ∧ a.mayExist = true ∧ a.command.labels? = some row.labels
  unserved : ∀ row ∈ operations, ∀ error, row.intent = .compensate error → ∀ a ∈ attempts,
    a.command.isServerCreate = true → a.mayExist = false
  gone : live = false → ∀ row ∈ resources, row.live = false

namespace LedgerSound

variable {operations operations' : List OperationRow} {attempts : List Attempt}
  {resources : List OwnedResource} {live live' : Bool}

/-- No compensation begins, and the allocation is not retired over a live resource. -/
theorem reoperate (h : LedgerSound operations attempts resources live)
    (hrow : ∀ row' ∈ operations', ∀ error, row'.intent = .compensate error →
      ∃ row ∈ operations, row.intent = .compensate error)
    (hgone : live' = false → ∀ row ∈ resources, row.live = false) :
    LedgerSound operations' attempts resources live' where
  keyed := h.keyed
  created := h.created
  unserved := by
    intro row' hm' error hintent
    obtain ⟨row, hm, hcomp⟩ := hrow row' hm' error hintent
    exact h.unserved row hm error hcomp
  gone := hgone

/-- The row of one operation is rewritten. -/
theorem rewrite (h : LedgerSound operations attempts resources live) {id : OperationId}
    {f : OperationRow → OperationRow}
    (hintent : ∀ row error, (f row).intent = .compensate error → row.intent = .compensate error)
    (hgone : live' = false → ∀ row ∈ resources, row.live = false) :
    LedgerSound (Table.update OperationRow.id operations id f) attempts resources live' := by
  refine h.reoperate (fun row' hm' error hcomp => ?_) hgone
  obtain ⟨row, hm, rfl⟩ := Table.mem_update hm'
  refine ⟨row, hm, ?_⟩
  split at hcomp
  · exact hintent row error hcomp
  · exact hcomp

/-- What was learnt about the attempts is written: never that an effect with a resource behind it
    was rejected, nor that a rejected one was accepted. -/
theorem learn (h : LedgerSound operations attempts resources live) {f : Attempt → Attempt}
    (hf : ∀ a : Attempt, a.Same (f a))
    (hexist : ∀ a ∈ attempts, (f a).mayExist = a.mayExist ∨ a.mayExist = true ∧
      (a.command.isCreation = true → ∀ row ∈ resources, row.ref.kind ≠ a.command.resourceKind)) :
    LedgerSound operations (attempts.map f) resources live where
  keyed := h.keyed
  created := by
    intro row hm
    obtain ⟨a, ha, hcreation, hkind, hmay, hlabels⟩ := h.created row hm
    refine ⟨f a, List.mem_map.mpr ⟨a, ha, rfl⟩, ?_⟩
    rw [(hf a).command]
    rcases hexist a ha with hsame | ⟨-, hnone⟩
    · exact ⟨hcreation, hkind, hsame.trans hmay, hlabels⟩
    · exact absurd hkind.symm (hnone hcreation row hm)
  unserved := by
    intro row hm error hintent b hb
    obtain ⟨a, ha, rfl⟩ := List.mem_map.mp hb
    rw [(hf a).command]
    intro hserver
    have hno := h.unserved row hm error hintent a ha hserver
    rcases hexist a ha with hsame | ⟨hmay, -⟩
    · exact hsame.trans hno
    · rw [hno] at hmay; cases hmay
  gone := h.gone

/-- A resource may be recorded absent. -/
theorem rebook (h : LedgerSound operations attempts resources live)
    {f : OwnedResource → OwnedResource} (href : ∀ row, (f row).ref = row.ref)
    (hlabels : ∀ row, (f row).labels = row.labels)
    (hlive : ∀ row, row.live = false → (f row).live = false) :
    LedgerSound operations attempts (resources.map f) live where
  keyed := by
    have : (resources.map f).map OwnedResource.ref = resources.map OwnedResource.ref := by
      rw [List.map_map]
      exact List.map_congr_left fun row _ => href row
    rw [Table.Keyed, this]
    exact h.keyed
  created := by
    intro row' hm'
    obtain ⟨row, hm, rfl⟩ := List.mem_map.mp hm'
    rw [href, hlabels]
    exact h.created row hm
  unserved := h.unserved
  gone := by
    intro hl row' hm'
    obtain ⟨row, hm, rfl⟩ := List.mem_map.mp hm'
    exact hlive row (h.gone hl row hm)

end LedgerSound

/-! ## The journal -/

/-- What is over has nothing pending. -/
def Settled (operations : List OperationRow) (attempts : List Attempt) : Prop :=
  ∀ row ∈ operations, row.terminal = true → ∀ a ∈ attempts, a.operationId = row.id →
    a.resolution ≠ .pending

/-- The row of one operation is rewritten; it is idle if that ends it. -/
theorem Settled.rewrite {operations : List OperationRow} {attempts : List Attempt}
    (h : Settled operations attempts) (keyed : Table.Keyed OperationRow.id operations)
    {row : OperationRow} (hm : row ∈ operations) {f : OperationRow → OperationRow}
    (hid : (f row).id = row.id) (hidle : (f row).terminal = true → ∀ a ∈ attempts,
      a.operationId = row.id → a.resolution ≠ .pending) :
    Settled (Table.update OperationRow.id operations row.id f) attempts := by
  intro r hr hterminal
  rcases (keyed.mem_update hm).mp hr with rfl | ⟨hr, -⟩
  · rw [hid]
    exact hidle hterminal
  · exact h r hr hterminal

/-- The journal of a machine, in order. -/
structure Sound (journal : Journal) : Prop where
  operations :
    OperationsSound journal.operations journal.cleanups journal.allocation.live
  attempts : AttemptsSound journal.operations journal.cleanups journal.attempts journal.resources
  ledger : LedgerSound journal.operations journal.attempts journal.resources journal.allocation.live
  settled : Settled journal.operations journal.attempts
  standing : journal.allocation.live = true → journal.machine.state.stage ≠ 4

namespace Sound

variable {journal : Journal} {operation : OperationRow}

theorem live_of_active (h : Sound journal) (active : journal.Active operation) :
    journal.allocation.live = true :=
  h.operations.live_of_active active.mem active.going

/-- While an operation goes on, the allocation is not retired. -/
theorem not_retired (h : Sound journal) (active : journal.Active operation)
    (hl : journal.allocation.live = false) : False := by
  rw [h.live_of_active active] at hl
  cases hl

/-- The executor of a cleanup is the operation of that identifier. -/
theorem executor (h : Sound journal) (hm : operation ∈ journal.operations)
    {cleanup : OperationCleanup} (hc : cleanup ∈ journal.cleanups)
    (hid : cleanup.operationId = operation.id) :
    operation.intent = .cleanup cleanup.sourceOperationId := by
  obtain ⟨row, hrow, hkey, hintent⟩ := h.operations.executor cleanup hc
  obtain rfl := h.operations.keyed.unique hrow hm (hkey.trans hid)
  exact hintent

/-- There is one cleanup, so a search by its executor finds it. -/
theorem cleanup_get (h : Sound journal) {cleanup : OperationCleanup}
    (hc : cleanup ∈ journal.cleanups) : journal.cleanup cleanup.operationId = some cleanup := by
  cases hget : journal.cleanup cleanup.operationId with
  | none => exact absurd rfl (Table.get_eq_none.mp hget cleanup hc)
  | some found => rw [h.operations.single found (Table.get_mem hget) cleanup hc]

/-- The operation goes on. -/
theorem progress (h : Sound journal) (active : journal.Active operation)
    {progress : OperationProgress} (going : progress.terminal = false) :
    Sound (journal.mapOperation operation.id fun row => { row with progress }) where
  operations := by
    refine h.operations.rewrite active.mem active.going (fun _ => rfl) rfl rfl (fun _ => rfl)
      (fun error hc => h.operations.compensates _ active.mem error hc)
      (fun hl => (h.not_retired active hl).elim) (fun _ ht => ?_) (fun date hdate => ?_)
    · rw [show progress.terminal = true from ht] at going; cases going
    · rw [show progress = .cancelled date from hdate] at going; cases going
  attempts := h.attempts.rewrite (fun _ => rfl) (fun _ => rfl) (fun _ hi => hi) fun _ hc => hc
  ledger := h.ledger.rewrite (fun _ _ hi => hi) h.ledger.gone
  settled := by
    refine h.settled.rewrite h.operations.keyed active.mem rfl fun ht => ?_
    rw [show progress.terminal = true from ht] at going; cases going
  standing := h.standing

/-- What an authority prepares: its operation asks for it, and a running one keeps what it has. -/
theorem asked_of_authority (h : Sound journal) (active : journal.Active operation) {clock : Instant}
    {new : Attempt} (authority : Authority journal clock operation new) :
    operation.mayAsk new.command = true ∧
      (operation.intent = .run → new.command.deletes? = none) ∧
      (∀ labels, new.command.labels? = some labels →
        labels.lookup "operation_id" = some operation.id) := by
  cases authority with
  | next uncleaned idle effect => exact ⟨effect.asks, effect.keeps, effect.labelled⟩
  | admitted cleanup hc executor guarded =>
    have hintent := h.executor active.mem hc executor
    have hcleanup : operation.isCleanup = true := by simp [OperationRow.isCleanup, hintent]
    obtain ⟨ref, href⟩ := deletes_of_guarded guarded
    refine ⟨?_, fun hrun => ?_, fun labels hl => ?_⟩
    · exact OperationRow.mayAsk_deletion (h.operations.cleans _ active.mem hcleanup) href
    · rw [hintent] at hrun; cases hrun
    · rw [ProviderCommand.labels?_of_deletes href] at hl; cases hl

/-- An attempt is recorded. -/
theorem prepare (h : Sound journal) (active : journal.Active operation) {clock : Instant}
    {new : Attempt} (fresh : journal.attempt new.id = none)
    (owner : new.operationId = operation.id)
    (target : ∀ ref, new.command.target? = some ref →
      (journal.resource ref).any OwnedResource.live = true)
    (authority : Authority journal clock operation new) :
    Sound { journal with attempts := journal.attempts ++ [new] } where
  operations := h.operations
  attempts := by
    obtain ⟨hasks, hkeeps, hlabels⟩ := h.asked_of_authority active authority
    have hmem : ∀ a, a ∈ journal.attempts ++ [new] ↔ a ∈ journal.attempts ∨ a = new := by simp
    have hrow : ∀ row ∈ journal.operations, row.id = new.operationId → row = operation :=
      fun row hm hid => h.operations.keyed.unique hm active.mem (hid.trans owner)
    -- the new attempt is the first of its kind, where that counts
    have hfirst : ∀ a ∈ journal.attempts, a.operationId = new.operationId →
        a.command.once = new.command.once → (new.command.deletes? ≠ none →
          ∀ c ∈ journal.cleanups, c.operationId ≠ new.operationId) → False := by
      intro a ha hop honce hdel
      cases authority with
      | next uncleaned idle effect => exact effect.first a ha (hop.trans owner) honce
      | admitted cleanup hc executor guarded =>
        obtain ⟨ref, href⟩ := deletes_of_guarded guarded
        exact hdel (by simp [href]) cleanup hc (executor.trans owner.symm)
    exact {
      keyed := h.attempts.keyed.insert fresh
      owner := by
        intro a ha
        rcases (hmem a).mp ha with ha | rfl
        · exact h.attempts.owner a ha
        · exact ⟨operation, active.mem, owner.symm⟩
      asked := by
        intro a ha row hm hid
        rcases (hmem a).mp ha with ha | rfl
        · exact h.attempts.asked a ha row hm hid
        · rw [hrow row hm hid]; exact hasks
      keeps := by
        intro a ha row hm hid hrun
        rcases (hmem a).mp ha with ha | rfl
        · exact h.attempts.keeps a ha row hm hid hrun
        · rw [hrow row hm hid] at hrun; exact hkeeps hrun
      target := by
        intro a ha ref href
        rcases (hmem a).mp ha with ha | rfl
        · exact h.attempts.target a ha ref href
        · obtain ⟨row, hget, -⟩ := (Option.any_eq_true _ _).mp (target ref href)
          exact ⟨row, Table.get_mem hget, Table.get_key hget⟩
      labelled := by
        intro a ha labels hl
        rcases (hmem a).mp ha with ha | rfl
        · exact h.attempts.labelled a ha labels hl
        · rw [owner]; exact hlabels labels hl
      once := by
        intro a ha b hb hop honce hsome hdel
        rcases (hmem a).mp ha with hold | rfl
        · rcases (hmem b).mp hb with hold' | rfl
          · exact h.attempts.once a hold b hold' hop honce hsome hdel
          · rw [hop, ProviderCommand.deletes?_of_once honce hsome] at hdel
            exact (hfirst a hold hop honce hdel).elim
        · rcases (hmem b).mp hb with hold' | rfl
          · exact (hfirst b hold' hop.symm honce.symm hdel).elim
          · rfl }
  ledger := by
    obtain ⟨hasks, -, -⟩ := h.asked_of_authority active authority
    have hmem : ∀ a, a ∈ journal.attempts ++ [new] ↔ a ∈ journal.attempts ∨ a = new := by simp
    exact {
      keyed := h.ledger.keyed
      created := by
        intro row hm
        obtain ⟨a, ha, hcreated⟩ := h.ledger.created row hm
        exact ⟨a, (hmem a).mpr (.inl ha), hcreated⟩
      unserved := by
        intro row hm error hintent a ha hserver
        rcases (hmem a).mp ha with ha | rfl
        · exact h.ledger.unserved row hm error hintent a ha hserver
        -- the compensating operation is the one that asks, and it asks for deletions only
        · have hkind := OperationRow.create_of_mayAsk hasks (by
            simp [ProviderCommand.isCreation, hserver])
          obtain rfl := h.operations.create _ hm _ active.mem
            (h.operations.compensates _ hm error hintent) hkind
          cases authority with
          | next uncleaned idle effect =>
            rcases effect.intent with hrun | ⟨-, id, hdelete⟩
            · rw [hrun] at hintent; cases hintent
            · rw [hdelete] at hserver; cases hserver
          | admitted cleanup hc executor guarded =>
            rw [h.executor active.mem hc executor] at hintent; cases hintent
      gone := h.ledger.gone }
  settled := by
    intro row hm hterminal a ha hop
    rcases List.mem_append.mp ha with ha | ha
    · exact h.settled row hm hterminal a ha hop
    · obtain rfl := List.mem_singleton.mp ha
      obtain rfl := h.operations.keyed.unique hm active.mem (hop.symm.trans owner)
      rw [active.going] at hterminal; cases hterminal
  standing := h.standing

/-- What was learnt about attempts is written. -/
theorem learn (h : Sound journal) {f : Attempt → Attempt} (hf : ∀ a : Attempt, a.Same (f a))
    (hexist : ∀ a ∈ journal.attempts, (f a).mayExist = a.mayExist ∨ a.mayExist = true ∧
      (a.command.isCreation = true →
        ∀ row ∈ journal.resources, row.ref.kind ≠ a.command.resourceKind))
    (hsettled : ∀ a, a.resolution ≠ .pending → (f a).resolution ≠ .pending) :
    Sound { journal with attempts := journal.attempts.map f } where
  operations := h.operations
  attempts := h.attempts.learn hf
  ledger := h.ledger.learn hf hexist
  settled := by
    intro row hm hterminal b hb hop
    obtain ⟨a, ha, rfl⟩ := List.mem_map.mp hb
    rw [(hf a).operationId] at hop
    exact hsettled a (h.settled row hm hterminal a ha hop)
  standing := h.standing

/-- A receipt is recorded. -/
theorem outcome (h : Sound journal) {attempt : Attempt} (mem : attempt ∈ journal.attempts)
    (prepared : attempt.outcome = .prepared) (submission : Submission)
    (unclaimed : attempt.command.isCreation = true →
      ∀ resource ∈ journal.resources, resource.ref.kind ≠ attempt.command.resourceKind) :
    Sound (journal.mapAttempt attempt.id fun row => { row with outcome := .received submission }) := by
  refine h.learn (fun a => ?_) (fun a ha => ?_) (fun a ha => ?_)
  · split <;> exact ⟨rfl, rfl, rfl, rfl, rfl⟩
  · split
    · next hid =>
      obtain rfl := h.attempts.keyed.unique ha mem hid
      exact .inr ⟨by simp [Attempt.mayExist, prepared, AttemptOutcome.rejected], unclaimed⟩
    · exact .inl rfl
  · split <;> exact ha

/-- An attempt is settled. -/
theorem settle (h : Sound journal) {id : AttemptId} {resolution : EffectResolution}
    (settled : resolution.settled = true) :
    Sound (journal.mapAttempt id fun row => { row with resolution }) := by
  refine h.learn (fun a => ?_) (fun a ha => ?_) (fun a ha => ?_)
  · split <;> exact ⟨rfl, rfl, rfl, rfl, rfl⟩
  · split <;> exact .inl rfl
  · split
    · exact EffectResolution.settled_eq_true.mp settled
    · exact ha

/-- A resource is claimed. -/
theorem claim (h : Sound journal) (active : journal.Active operation) {attempt : Attempt}
    (mem : attempt ∈ journal.attempts) (creation : attempt.command.isCreation = true)
    (mayExist : attempt.mayExist = true) {ref : ResourceRef} {labels : Labels}
    (kind : ref.kind = attempt.command.resourceKind)
    (labelled : attempt.command.labels? = some labels) (new : journal.resource ref = none)
    (clock : Instant) :
    Sound { journal with resources := journal.resources ++ [⟨ref, labels, none, clock⟩] } where
  operations := h.operations
  attempts := h.attempts.rebook fun row hm => ⟨row, by simp [hm], rfl⟩
  ledger := {
    keyed := h.ledger.keyed.insert new
    created := by
      intro row hm
      rcases List.mem_append.mp hm with hm | hm
      · exact h.ledger.created row hm
      · obtain rfl := List.mem_singleton.mp hm
        exact ⟨attempt, mem, creation, kind.symm, mayExist, labelled⟩
    unserved := h.ledger.unserved
    gone := fun hl => (h.not_retired active hl).elim }
  settled := h.settled
  standing := h.standing

/-- Resources are recorded absent. -/
theorem absent (h : Sound journal) {f : OwnedResource → OwnedResource}
    (href : ∀ row, (f row).ref = row.ref) (hlabels : ∀ row, (f row).labels = row.labels)
    (hlive : ∀ row, row.live = false → (f row).live = false) : Sound (journal.mapResources f) where
  operations := h.operations
  attempts := h.attempts.rebook fun row hm => ⟨f row, List.mem_map.mpr ⟨row, hm, rfl⟩, href row⟩
  ledger := h.ledger.rebook href hlabels hlive
  settled := h.settled
  standing := h.standing

/-- A compensation begins. -/
theorem compensate (h : Sound journal) (active : journal.Active operation)
    (create : operation.kind = .create) (run : operation.intent = .run) {error : Failure}
    (unserved : ∀ attempt ∈ journal.attempts, attempt.command.isServerCreate = true →
      attempt.mayExist = false) :
    Sound (journal.mapOperation operation.id fun row => { row with intent := .compensate error }) where
  operations := by
    have huncleaned : operation.isCleanup = false := by simp [OperationRow.isCleanup, run]
    refine h.operations.rewrite active.mem active.going (fun _ => rfl) rfl huncleaned.symm
      (fun hc => ?_) (fun _ _ => create) (fun hl => (h.not_retired active hl).elim) (fun hc => ?_)
      (fun date hdate => h.operations.cancelled _ active.mem date hdate)
    · rw [huncleaned] at hc; cases hc
    · rw [huncleaned] at hc; cases hc
  attempts := h.attempts.rewrite (fun _ => rfl) (fun _ => rfl) (fun _ hi => by cases hi)
    fun _ hc => hc
  ledger := {
    keyed := h.ledger.keyed
    created := h.ledger.created
    unserved := fun _ _ _ _ => unserved
    gone := h.ledger.gone }
  settled := by
    refine h.settled.rewrite h.operations.keyed active.mem rfl fun ht => ?_
    have := active.going
    rw [show operation.terminal = true from ht] at this; cases this
  standing := h.standing

/-- An operation ends, and the allocation with it or not. -/
theorem finish (h : Sound journal) (active : journal.Active operation)
    (progress : OperationProgress) (machine : MachineRow) (allocation : Allocation)
    (idle : journal.Idle operation) (terminal : progress.terminal = true)
    (hends : operation.isCleanup = true →
      progress.endsCleanup operation.kind = true ∧ allocation.live = false)
    (hcancel : ∀ date, progress = .cancelled date → allocation.live = false)
    (hgone : allocation.live = false → ∀ row ∈ journal.resources, row.live = false)
    (standing : allocation.live = true → machine.state.stage ≠ 4) :
    Sound { journal.mapOperation operation.id fun row => { row with progress } with
      machine
      allocation } where
  operations := h.operations.rewrite active.mem active.going (fun _ => rfl) rfl rfl (fun _ => rfl)
    (fun error hc => h.operations.compensates _ active.mem error hc) (fun _ => terminal)
    (fun hc _ => hends hc) hcancel
  attempts := h.attempts.rewrite (fun _ => rfl) (fun _ => rfl) (fun _ hi => hi) fun _ hc => hc
  ledger := h.ledger.rewrite (fun _ _ hi => hi) hgone
  settled := h.settled.rewrite h.operations.keyed active.mem rfl fun _ => idle
  standing := standing

/-- Settled means that nothing of the executor is pending, and nothing of the allocation is left. -/
theorem idle_of_settled {cleanup : OperationCleanup} (hs : journal.settled cleanup = true)
    (executor : cleanup.operationId = operation.id) :
    journal.Idle operation ∧ ∀ row ∈ journal.resources, row.live = false := by
  simp only [Journal.settled, Journal.cleanupHistory, Bool.and_eq_true, List.all_eq_true,
    List.mem_filter, decide_eq_true_eq, Bool.not_eq_true', Attempt.pending_eq_false, and_imp] at hs
  exact ⟨fun a ha hop => hs.1 a ha (.inl (hop.trans executor.symm)), hs.2⟩

/-- A cleanup takes over. -/
theorem takeover (h : Sound journal) (active : journal.Active operation)
    (create : operation.kind = .create) (uncleaned : operation.isCleanup = false)
    (grantId : GrantId) (version : Nat) (clock : Instant) {machine : MachineRow}
    (state : machine.state = journal.machine.state) :
    Sound { journal.mapOperation operation.id fun row =>
        { row with intent := .cleanup operation.id, progress := .cleaningUp } with
      machine
      cleanups := journal.cleanups ++ [⟨operation.id, operation.id, grantId, version, clock⟩] } where
  operations := h.operations.takeover active.mem active.going create uncleaned grantId version clock
  attempts := h.attempts.rewrite (fun _ => rfl) (fun _ => rfl) (fun _ hi => by cases hi)
    fun _ hc => List.mem_append_left _ hc
  ledger := h.ledger.rewrite (fun _ _ hi => by cases hi) h.ledger.gone
  settled := h.settled.rewrite h.operations.keyed active.mem rfl fun ht => by cases ht
  standing := by
    rw [state]
    exact h.standing

/-- An operation is admitted on a machine that is not busy. -/
theorem admitted (h : Sound journal) (free : journal.busy = false)
    (live : journal.allocation.live = true) {new : OperationRow}
    (fresh : journal.operation new.id = none) (hgoing : new.terminal = false)
    (hkind : new.kind ≠ .create) (opened : List OperationCleanup)
    (hopen : (opened = [] ∧ new.intent = .run ∧ new.kind ≠ .destroy) ∨
      ∃ c, opened = [c] ∧ c.operationId = new.id ∧ new.intent = .cleanup c.sourceOperationId ∧
        new.kind = .destroy ∧
        ∃ row ∈ journal.operations, row.id = c.sourceOperationId ∧ row.kind = .create)
    (machine : MachineRow) (state : machine.state = journal.machine.state)
    (allocation : Allocation) (hlive : allocation.live = true) :
    Sound { journal with
      machine
      allocation
      operations := journal.operations ++ [new]
      cleanups := journal.cleanups ++ opened } where
  operations := by
    have hfree : ∀ row ∈ journal.operations, row.terminal = true := by
      simpa [Journal.busy, Journal.active] using free
    have hops := h.operations
    rw [live] at hops
    rw [show allocation.live = true from hlive]
    exact hops.admitted hfree fresh hgoing hkind hopen
  attempts := by
    refine h.attempts.reoperate (fun row hm => ⟨row, by simp [hm], rfl⟩) (fun row' hm' => ?_)
      fun c hc => List.mem_append_left _ hc
    rcases List.mem_append.mp hm' with hm | hm
    · exact .inl ⟨row', hm, rfl, rfl, fun hi => hi⟩
    · obtain rfl := List.mem_singleton.mp hm
      -- the identifier is new, so no attempt belongs to it
      refine .inr fun a ha heq => ?_
      obtain ⟨row, hrow, hid⟩ := h.attempts.owner a ha
      exact Table.get_eq_none.mp fresh row hrow (hid.trans heq.symm)
  ledger := by
    refine h.ledger.reoperate (fun row' hm' error hintent => ?_) fun hl => by
      rw [show allocation.live = true from hlive] at hl; cases hl
    rcases List.mem_append.mp hm' with hm | hm
    · exact ⟨row', hm, hintent⟩
    · obtain rfl := List.mem_singleton.mp hm
      rcases hopen with ⟨-, hrun, -⟩ | ⟨c, -, -, hcleanup, -⟩
      · rw [hrun] at hintent; cases hintent
      · rw [hcleanup] at hintent; cases hintent
  settled := by
    intro row hm hterminal
    rcases List.mem_append.mp hm with hm | hm
    · exact h.settled row hm hterminal
    · obtain rfl := List.mem_singleton.mp hm
      rw [hgoing] at hterminal; cases hterminal
  standing := by
    intro _
    rw [state]
    exact h.standing live

/-- Control recovery closes an operation: its effects, what is left, and the allocation. -/
theorem controlClosed (h : Sound journal) (active : journal.Active operation) {clock : Instant}
    (closure : ControlClosure) (machine : MachineRow) :
    Sound
      { machine
        allocation := { journal.allocation with retiredAt := some clock }
        operations := Table.update OperationRow.id journal.operations operation.id fun row =>
          { row with
            progress := if operation.kind = .destroy then .succeeded clock else .cancelled clock }
        attempts := journal.attempts.map fun attempt =>
          if attempt.operationId = operation.id ∧ attempt.resolution = .pending then
            { attempt with resolution := .controlClosed closure.id }
          else attempt
        resources := journal.resources.map fun row =>
          if row.live = true then { row with absentAt := some clock } else row
        cleanups := journal.cleanups
        recoveries := journal.recoveries
        closures := journal.closures ++ [closure] } := by
  -- first the effects, then what is left, then the operation and its allocation
  have hlearnt := h.learn (f := fun attempt =>
      if attempt.operationId = operation.id ∧ attempt.resolution = .pending then
        { attempt with resolution := .controlClosed closure.id }
      else attempt)
    (fun a => by split <;> exact ⟨rfl, rfl, rfl, rfl, rfl⟩)
    (fun a _ => by split <;> exact .inl rfl)
    (fun a ha => by
      split
      · exact fun h => by cases h
      · exact ha)
  have hbooked := hlearnt.absent (f := fun row =>
      if row.live = true then { row with absentAt := some clock } else row)
    (fun row => by split <;> rfl) (fun row => by split <;> rfl)
    (fun row hl => by rw [if_neg (by simp [hl])]; exact hl)
  have hdone := hbooked.finish ⟨active.mem, active.going⟩
    (if operation.kind = .destroy then .succeeded clock else .cancelled clock) machine
    { journal.allocation with retiredAt := some clock } ?_ (by split <;> rfl) (fun hc => ⟨?_, rfl⟩) (fun _ _ => rfl)
    (fun _ => ?_) (fun hl => by cases hl)
  · exact ⟨hdone.operations, hdone.attempts, hdone.ledger, hdone.settled, hdone.standing⟩
  · intro a ha hop
    obtain ⟨b, hb, rfl⟩ := List.mem_map.mp ha
    split
    · exact fun h => by cases h
    · next hnot =>
      rw [if_neg hnot] at hop
      exact fun hpending => hnot ⟨hop, hpending⟩
  · rcases h.operations.cleans _ active.mem hc with hk | hk <;>
      simp [hk, OperationProgress.endsCleanup]
  · intro row hm
    obtain ⟨old, -, rfl⟩ := List.mem_map.mp hm
    split
    · rfl
    · next hl => simpa using hl

end Sound

/-- **Step lemma.**  Every change keeps the journal in order. -/
theorem Change.sound {A : Replies} {log : Log} {clock : Instant} {journal journal' : Journal}
    (h : Sound journal) (change : Change A log clock journal journal') : Sound journal' := by
  cases change with
  | progress active progress going => exact h.progress active going
  | prepare active live new fresh owner prepared pending now target authority =>
    exact h.prepare active fresh owner target authority
  | outcome mem prepared submission unclaimed => exact h.outcome mem prepared submission unclaimed
  | claim active mem creation mayExist ref labels kind labelled new =>
    exact h.claim active mem creation mayExist kind labelled new clock
  | bind active mem live => exact ⟨h.operations, h.attempts, h.ledger, h.settled, h.standing⟩
  | absent active ref date read =>
    refine h.absent (fun row => ?_) (fun row => ?_) (fun row hl => ?_)
    · split <;> rfl
    · split <;> rfl
    · split
      · rfl
      · exact hl
  | settle active mem pending resolution settled provider confirms => exact h.settle settled
  | compensate active create run error unserved => exact h.compensate active create run unserved
  | @failed operation active uncleaned idle date error machine provider standing retiredAt vacant =>
    refine h.finish active _ _ _ idle rfl (fun hc => ?_) (fun _ hd => by cases hd) (fun hl => ?_)
      fun _ => standing
    · rw [uncleaned] at hc; cases hc
    · refine (vacant fun hsame => h.not_retired active ?_).2
      rw [← hl, Allocation.live, Allocation.live, hsame]
  | @completed operation active run kept idle date machine provider standing serverId offer hdone =>
    have huncleaned : operation.isCleanup = false := by simp [OperationRow.isCleanup, run]
    have hlive : (journal.allocation.complete serverId offer).live = true :=
      h.live_of_active active
    refine h.finish active _ _ _ idle rfl (fun hc => ?_) (fun _ hd => by cases hd) (fun hl => ?_)
      fun _ => standing
    · rw [huncleaned] at hc; cases hc
    · rw [hlive] at hl; cases hl
  | @cleaned operation active cleanup mem executor settled date machine provider =>
    obtain ⟨hidle, hgone⟩ := Sound.idle_of_settled settled executor
    refine h.finish active _ _ _ hidle ?_ (fun _ => ⟨?_, rfl⟩) (fun _ _ => rfl) (fun _ => hgone)
      fun hl => by cases hl
    · unfold cleanupEnd; split <;> rfl
    · unfold cleanupEnd; split <;> simp_all [OperationProgress.endsCleanup]
  | takeover active create uncleaned live grantId version machine provider state =>
    exact h.takeover active create uncleaned grantId version clock state
  | @opened source mem create free live id fresh grantId version machine provider state =>
    exact h.admitted free live fresh rfl (fun hk => by cases hk) _
      (.inr ⟨_, rfl, rfl, rfl, rfl, source, mem, rfl, create⟩) _ state _ live
  | granted row kind inserted => exact ⟨h.operations, h.attempts, h.ledger, h.settled, h.standing⟩
  | @closure operation active row ids kind inserted attempt mem target pending =>
    have : Sound (journal.mapAttempt attempt.id fun attempt =>
      { attempt with resolution := .operatorClosed row.id }) := h.settle rfl
    exact ⟨this.operations, this.attempts, this.ledger, this.settled, this.standing⟩
  | @controlClosed operation active closure machine provider =>
    exact h.controlClosed active closure machine

end AgentCloud.Lifecycle
