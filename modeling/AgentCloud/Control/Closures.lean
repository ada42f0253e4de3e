/-
  CLOSURES: `close_operation` of control recovery, with the journal of its machine.

  The request is checked twice over.  `applyControlRecovery` asks for the fence, the private
  generation file and a receipt of its own, `Lifecycle.closeOperation` for the operation and for
  the provider.  Both are one transaction in the source, so a fault of either leaves the tables as
  they were, and a request that is answered again leaves the journal alone.

  `closeJournal_closed` says what the writes come to; that they keep the invariant of the journal is
  `Sound.controlClosed`, the lemma that the normal operation of a machine is proved with.
-/
import AgentCloud.Lib.Executions
import AgentCloud.Lifecycle.Recovering
import AgentCloud.Lifecycle.Runs
import AgentCloud.Control.Requests

namespace AgentCloud.Control

open Checked Durable
open Lifecycle (Journal OperationRow ProviderKind CloseRequest RecoveryId ResourceRef Evidence
  interface isOperator allocationLabels requiredRefs)

/-! ## The request -/

/-- A `close_operation` request.  Its digest stands for the inspection that the operator saw. -/
structure Closure where
  id : RecoveryId
  generation : Generation
  operator : String
  recoveryId : RecoveryId
  operationId : OperationId
  expectedState : String
  seen : Lifecycle.Inspection
  resourceIds : List ResourceRef
  evidence : Evidence
  named : isOperator operator = true
  formed : (Decision.closeOperation recoveryId operationId expectedState resourceIds
    evidence).formed = true

def Closure.request (closure : Closure) : Request where
  id := closure.id
  generation := closure.generation
  operator := closure.operator
  decision := .closeOperation closure.recoveryId closure.operationId closure.expectedState
    closure.resourceIds closure.evidence
  named := closure.named
  formed := closure.formed

/-- What the journal is asked for. -/
def Closure.close (closure : Closure) : CloseRequest :=
  ⟨closure.id, closure.recoveryId, closure.operationId, closure.seen, closure.resourceIds⟩

/-- The recovery state, and the journal of the operation's machine. -/
structure Tables where
  control : Store
  journal : Journal

/-- What a closure meets: what every request meets, the provider, and the rows and the clock of the
    database. -/
structure Site where
  env : Env
  provider : ProviderKind
  rows : Lifecycle.Env
  now : Instant
  reply : (call : Lifecycle.Call) → call.Reply

/-- The recovery that the database is fenced for, which the trigger on attempts reads. -/
def Store.recovering (store : Store) : Option RecoveryId :=
  match store.row with
  | some (.recovering _ recoveryId) => some recoveryId
  | _ => none

/-- The journal's part, run to its end: the lock excludes everybody else. -/
def Site.run (site : Site) (tables : Tables) (closure : Closure) :
    Except Fault Unit × World interface :=
  (Lifecycle.closeOperation site.provider closure.close).run
    (fun _ => { site.rows with recovering := tables.control.recovering })
    (fun _ => site.reply) ⟨⟨site.now, tables.journal⟩, []⟩

/-- `applyControlRecovery` for a closure. -/
def applyClosure (site : Site) (closure : Closure) (tables : Tables) :
    Except Fault (Answer × Tables) := do
  let (answer, control) ← applyControlRecovery
    { site.env with closure := (site.run tables closure).1 } closure.request tables.control
  pure (answer, ⟨control,
    if answer.replayed = true then tables.journal else (site.run tables closure).2.store.journal⟩)

/-- The tables after the request: what is refused is rolled back. -/
def Tables.closed (tables : Tables) (site : Site) (closure : Closure) : Tables :=
  match applyClosure site closure tables with
  | .ok (_, tables') => tables'
  | .error _ => tables

/-! ## What the provider was asked -/

/-- The exact read of a resource finds nothing. -/
def Site.absent (site : Site) (ref : ResourceRef) : Prop :=
  match ref with
  | ⟨.server, id⟩ => site.reply (.getServer id) = .ok none
  | ⟨.primaryIp, id⟩ => site.reply (.getPrimaryIp id) = .ok none

variable {site : Site} {closure : Closure} {tables : Tables} {env : Lifecycle.Env}
  {w : World interface}

/-- An exact read leaves the store, and finds nothing only where there is nothing. -/
theorem run_look (ref : ResourceRef) :
    ((Lifecycle.look ref).run (fun _ => env) (fun _ => site.reply) w).2.store = w.store ∧
      (((Lifecycle.look ref).run (fun _ => env) (fun _ => site.reply) w).1 = .ok none →
        site.absent ref) := by
  obtain ⟨kind, id⟩ := ref
  cases kind with
  | server =>
    simp only [Lifecycle.look, Lifecycle.getServer, Lifecycle.thrown, Site.absent]
    cases hreply : site.reply (.getServer id) with
    | error fault => exact ⟨by simp [Prog.ask, Prog.run, Prog.bind, Prog.ofExcept, hreply]; rfl,
        by simp [Prog.ask, Prog.run, Prog.bind, Prog.ofExcept, hreply]⟩
    | ok server =>
      refine ⟨by simp [Prog.ask, Prog.run, Prog.bind, Prog.ofExcept, hreply]; rfl, ?_⟩
      cases server with
      | none => exact fun _ => rfl
      | some server => simp [Prog.ask, Prog.run, Prog.bind, Prog.ofExcept, hreply]
  | primaryIp =>
    simp only [Lifecycle.look, Lifecycle.getPrimaryIp, Lifecycle.thrown, Site.absent]
    cases hreply : site.reply (.getPrimaryIp id) with
    | error fault => exact ⟨by simp [Prog.ask, Prog.run, Prog.bind, Prog.ofExcept, hreply]; rfl,
        by simp [Prog.ask, Prog.run, Prog.bind, Prog.ofExcept, hreply]⟩
    | ok ip =>
      refine ⟨by simp [Prog.ask, Prog.run, Prog.bind, Prog.ofExcept, hreply]; rfl, ?_⟩
      cases ip with
      | none => exact fun _ => rfl
      | some ip => simp [Prog.ask, Prog.run, Prog.bind, Prog.ofExcept, hreply]

theorem run_confirmGone {refs : List ResourceRef} {u : Unit}
    (h : ((Lifecycle.confirmGone refs).run (fun _ => env) (fun _ => site.reply) w).1 = .ok u) :
    ((Lifecycle.confirmGone refs).run (fun _ => env) (fun _ => site.reply) w).2.store = w.store ∧
      ∀ ref ∈ refs, site.absent ref := by
  induction refs generalizing w with
  | nil => exact ⟨rfl, by simp⟩
  | cons ref rest ih =>
    obtain ⟨hsame, hfirst⟩ := @run_look site env w ref
    obtain ⟨seen, hlook, hafter⟩ := Prog.run_bind_ok h
    rw [Lifecycle.confirmGone, Prog.bind_def, hafter]
    replace h := hafter ▸ h
    obtain ⟨⟨⟩, hnone, hlater⟩ := Prog.run_bind_ok h
    rw [Prog.bind_def, hlater]
    replace h := hlater ▸ h
    obtain ⟨hstore, habsent⟩ := ih h
    refine ⟨hstore.trans hsame, ?_⟩
    intro found hfound
    rcases List.mem_cons.mp hfound with rfl | hfound
    · cases seen with
      | none => exact hfirst hlook
      | some sighting => exact absurd hnone (by simp [refuse, Prog.ofExcept, Prog.run])
    · exact habsent found hfound

/-- The search of the inventory leaves the store, and the inventory is empty if it passed. -/
theorem run_confirmEmpty {machine : Lifecycle.MachineRow} {allocation : Lifecycle.Allocation}
    {u : Unit}
    (h : ((Lifecycle.confirmEmpty machine allocation).run (fun _ => env) (fun _ => site.reply) w).1 =
      .ok u) :
    ((Lifecycle.confirmEmpty machine allocation).run (fun _ => env)
        (fun _ => site.reply) w).2.store = w.store ∧
      site.reply (.findServers (allocationLabels machine allocation)) = .ok [] ∧
      site.reply (.findPrimaryIps (allocationLabels machine allocation)) = .ok [] := by
  simp only [Lifecycle.confirmEmpty, Lifecycle.search, Lifecycle.thrown] at h ⊢
  cases hservers : site.reply (.findServers (allocationLabels machine allocation)) with
  | error fault =>
    simp [Prog.ask, Prog.run, Prog.bind, Prog.ofExcept, hservers] at h
  | ok servers =>
    cases hips : site.reply (.findPrimaryIps (allocationLabels machine allocation)) with
    | error fault =>
      simp [Prog.ask, Prog.run, Prog.bind, Prog.ofExcept, hservers, hips] at h
    | ok ips =>
      simp [Prog.ask, Prog.run, Prog.bind, Prog.ofExcept, hservers, hips] at h ⊢
      obtain ⟨rfl, rfl⟩ := h
      exact ⟨rfl, rfl, rfl⟩

/-! ## What a closure does to the journal -/

/-- The closure of an operation: what it rested on, and what it left. -/
structure Closed (site : Site) (close : CloseRequest) (operation : OperationRow)
    (journal journal' : Journal) : Prop where
  found : journal.operation close.operationId = some operation
  expected : Lifecycle.inspect journal operation = close.expectedState
  unfinished : operation.terminal = false
  live : journal.allocation.live = true ∧ journal.allocation.provider = site.provider
  acknowledged : close.resourceIds.Nodup ∧
    ∀ ref ∈ requiredRefs journal operation, ref ∈ close.resourceIds
  absent : ∀ ref ∈ close.resourceIds, site.absent ref
  empty :
    site.reply (.findServers (allocationLabels journal.machine journal.allocation)) = .ok [] ∧
      site.reply (.findPrimaryIps (allocationLabels journal.machine journal.allocation)) = .ok []
  /-- The pending attempts of the operation are settled, and no others. -/
  settled : journal'.attempts = journal.attempts.map fun attempt =>
    if attempt.operationId = close.operationId ∧ attempt.pending = true then
      { attempt with resolution := .controlClosed close.id }
    else attempt
  resolved : ∀ attempt ∈ journal'.attempts, attempt.pending = false
  retired : journal'.allocation = { journal.allocation with retiredAt := some site.now }
  gone : ∀ row ∈ journal'.resources, row.live = false
  destroyed : journal'.machine = journal.machine.become (.destroyed site.now)
  ended : ∀ row ∈ journal'.operations, row.id = close.operationId → row.terminal = true
  others : ∀ row ∈ journal'.operations, row.id ≠ close.operationId → row ∈ journal.operations
  kept : Lifecycle.Sound journal → Lifecycle.Sound journal'
  /-- Nothing of the machine goes on. -/
  idle : Lifecycle.Sound journal → ∀ row ∈ journal'.operations, row.terminal = true

theorem closeJournal_ok {close : CloseRequest} {operation : OperationRow} {now : Instant}
    {journal journal' : Journal}
    (hoperation : journal.operation close.operationId = some operation)
    (h : Lifecycle.closeJournal env now journal close operation.kind = .ok journal') :
    journal' =
      { machine := journal.machine.become (.destroyed now)
        allocation := { journal.allocation with retiredAt := some now }
        operations := Table.update OperationRow.id journal.operations close.operationId fun row =>
          { row with
            progress := if operation.kind = .destroy then .succeeded now else .cancelled now }
        attempts := journal.attempts.map fun attempt =>
          if attempt.operationId = close.operationId ∧ attempt.resolution = .pending then
            { attempt with resolution := .controlClosed close.id }
          else attempt
        resources := journal.resources.map fun row =>
          if row.live = true then { row with absentAt := some now } else row
        cleanups := journal.cleanups
        recoveries := journal.recoveries
        closures := journal.closures ++ [⟨close.id, close.operationId, close.recoveryId⟩] } := by
  simp only [Lifecycle.closeJournal, Lifecycle.updateAttempts, Lifecycle.updateAllocation,
    bind_ok_iff, pure_ok_iff] at h
  obtain ⟨_, ⟨-, -, rfl⟩, _, ⟨_, -, rfl⟩, h⟩ := h
  rcases Lifecycle.updateOperation_ok h with ⟨hnone, -⟩ | ⟨old, -, -, rfl⟩
  · exact absurd (hoperation.symm.trans hnone) (by simp)
  · have hmap : (journal.attempts.map fun attempt =>
        if (decide (attempt.operationId = close.operationId) && attempt.pending) = true then
          { attempt with resolution := .controlClosed close.id } else attempt) =
        journal.attempts.map fun attempt =>
          if attempt.operationId = close.operationId ∧ attempt.resolution = .pending then
            { attempt with resolution := .controlClosed close.id } else attempt := by
      refine List.map_congr_left fun attempt _ => ?_
      simp
    rw [← hmap]
    rfl

/-- What a closure writes, once its checks have passed. -/
theorem closed_of_checks {close : CloseRequest} {operation : OperationRow} {journal journal' : Journal}
    (hcheck : Lifecycle.checkClose site.provider journal close = .ok operation)
    (habsent : ∀ ref ∈ close.resourceIds, site.absent ref)
    (hempty :
      site.reply (.findServers (allocationLabels journal.machine journal.allocation)) = .ok [] ∧
        site.reply (.findPrimaryIps (allocationLabels journal.machine journal.allocation)) = .ok [])
    (hwrite : Lifecycle.closeJournal env site.now journal close operation.kind = .ok journal') :
    Closed site close operation journal journal' := by
  obtain ⟨active, hid⟩ := Lifecycle.checkClose_ok hcheck
  simp only [Lifecycle.checkClose, bind_ok_iff, present_ok_iff, refuse_ok_iff, pure_ok_iff] at hcheck
  obtain ⟨target, hrow, -, hseen, -, hgoing, -, hlive, -, hothers, -, hlisted, rfl⟩ := hcheck
  obtain rfl := closeJournal_ok hrow hwrite
  have hsound : Lifecycle.Sound journal → Lifecycle.Sound _ := fun h =>
    @Lifecycle.Sound.controlClosed journal target h active site.now
      ⟨close.id, close.operationId, close.recoveryId⟩
      (journal.machine.become (.destroyed site.now))
  rw [hid] at hsound
  exact
    { found := hrow
      expected := not_not.mp hseen
      unfinished := active.going
      live := by simpa using hlive
      acknowledged := by simpa using hlisted
      absent := habsent
      empty := hempty
      settled := by
        refine List.map_congr_left fun attempt _ => ?_
        simp
      resolved := by
        intro attempt hattempt
        obtain ⟨before, hbefore, rfl⟩ := List.mem_map.mp hattempt
        by_cases hown : before.operationId = close.operationId ∧ before.resolution = .pending
        · rw [if_pos hown]
          rfl
        · rw [if_neg hown]
          -- A pending attempt of another operation would have refused the closure.
          by_contra hpending
          refine hothers (List.any_eq_true.mpr ⟨before, hbefore, ?_⟩)
          have : before.operationId ≠ close.operationId := by
            intro heq
            exact hown ⟨heq, by simpa using hpending⟩
          simp [this, by simpa using hpending]
      retired := rfl
      gone := by
        intro row hresource
        obtain ⟨before, -, rfl⟩ := List.mem_map.mp hresource
        by_cases hbefore : before.live = true
        · rw [if_pos hbefore]
          rfl
        · rw [if_neg hbefore]
          exact Bool.not_eq_true _ ▸ hbefore
      destroyed := rfl
      ended := by
        intro row hmem hkey
        obtain ⟨before, -, rfl⟩ := List.mem_map.mp hmem
        by_cases hbefore : before.id = close.operationId
        · rw [if_pos hbefore]
          by_cases hkind : target.kind = .destroy <;> simp [hkind, OperationRow.terminal] <;> rfl
        · rw [if_neg hbefore] at hkey
          exact absurd hkey hbefore
      others := by
        intro row hmem hkey
        obtain ⟨before, hmember, rfl⟩ := List.mem_map.mp hmem
        by_cases hbefore : before.id = close.operationId
        · rw [if_pos hbefore] at hkey
          exact absurd hbefore hkey
        · rw [if_neg hbefore]
          exact hmember
      kept := hsound
      idle := fun h => (hsound h).operations.retired rfl }

/-- The journal's part of a request that was accepted. -/
theorem closeOperation_closed {close : CloseRequest} {journal : Journal} {u : Unit}
    (hw : w.store = ⟨site.now, journal⟩)
    (h : ((Lifecycle.closeOperation site.provider close).run (fun _ => env)
      (fun _ => site.reply) w).1 = .ok u) :
    ∃ operation, Closed site close operation journal
      ((Lifecycle.closeOperation site.provider close).run (fun _ => env)
        (fun _ => site.reply) w).2.store.journal := by
  unfold Lifecycle.closeOperation Lifecycle.transact at h ⊢
  obtain ⟨found, hread, hafter⟩ := Prog.run_bind_ok h
  rw [Prog.bind_def, hafter]
  replace h := hafter ▸ h
  obtain rfl : w.store.journal = found := Except.ok.inj hread
  obtain ⟨operation, hcheck, hafter⟩ := Prog.run_bind_ok h
  rw [Prog.bind_def, hafter]
  replace h := hafter ▸ h
  obtain ⟨⟨⟩, hempty, hafter⟩ := Prog.run_bind_ok h
  rw [Prog.bind_def, hafter]
  replace h := hafter ▸ h
  obtain ⟨⟨⟩, hgone, hafter⟩ := Prog.run_bind_ok h
  rw [Prog.bind_def, hafter]
  replace h := hafter ▸ h
  -- The reads have left the store, so the transaction meets the journal that was checked.
  obtain ⟨hstore, habsent⟩ := run_confirmGone hgone
  obtain ⟨hstore', hnone⟩ := run_confirmEmpty hempty
  obtain ⟨written, htransact, hworld⟩ := Prog.run_transact_ok h
  have hjournal : w.store.journal = journal := by rw [hw]
  refine ⟨operation, ?_⟩
  rw [hstore, hstore', hjournal] at htransact
  rw [hjournal] at hcheck hnone
  obtain ⟨⟨⟨⟩, journal'⟩, hwritten, hput⟩ := bind_ok_iff.mp htransact
  obtain ⟨⟨⟩, -, hclosed⟩ := bind_ok_iff.mp hwritten
  obtain ⟨written', hwrite, hpair⟩ := bind_ok_iff.mp hclosed
  have hwrite' : Lifecycle.closeJournal env w.store.clock w.store.journal close operation.kind =
      .ok written' := hwrite
  rw [hw] at hwrite'
  obtain rfl : written' = journal' := congrArg Prod.snd (pure_ok_iff.mp hpair)
  have hleft : written.journal = written' :=
    congrArg (fun pair => pair.2.journal) (pure_ok_iff.mp hput).symm
  rw [hworld, World.put_store, hleft]
  exact closed_of_checks hcheck habsent hnone hwrite'

/-! ## The request -/

/-- An accepted closure: the fence it was given under, its receipt, and what it did. -/
structure Accepted (site : Site) (closure : Closure) (tables tables' : Tables) : Prop where
  target : site.env.target = .ok closure.generation
  alone : site.env.busy = false
  fenced : tables.control.row = some (.recovering closure.generation closure.recoveryId)
  first : tables.control.saved closure.id = none
  receipt : tables'.control = ⟨tables.control.row, tables.control.receipts ++ [closure.request]⟩
  closed : ∃ operation, Closed site closure.close operation tables.journal tables'.journal

/-- A closure is refused and leaves the tables, or is answered again and leaves them, or settles
    exactly what its operation left unsettled, on the evidence it was given. -/
theorem closure_sound (site : Site) (closure : Closure) (tables : Tables) :
    ((∃ fault, applyClosure site closure tables = .error fault) ∧
        tables.closed site closure = tables) ∨
      (tables.control.saved closure.id = some closure.request ∧
        tables.closed site closure = tables) ∨
      Accepted site closure tables (tables.closed site closure) := by
  unfold Tables.closed
  cases happly : applyClosure site closure tables with
  | error fault => exact .inl ⟨⟨fault, rfl⟩, rfl⟩
  | ok pair =>
    obtain ⟨answer, tables'⟩ := pair
    refine .inr ?_
    obtain ⟨⟨told, control⟩, hcontrol, hpair⟩ := bind_ok_iff.mp happly
    obtain ⟨rfl, rfl⟩ := Prod.mk.inj (pure_ok_iff.mp hpair)
    simp only [applyControlRecovery, bind_ok_iff, refuse_ok_iff] at hcontrol
    obtain ⟨_, htarget, _, halone, hcontrol⟩ := hcontrol
    split at hcontrol
    · rename_i saved hsaved
      simp only [bind_ok_iff, refuse_ok_iff, pure_ok_iff, Prod.mk.injEq, not_not] at hcontrol
      obtain ⟨_, rfl, rfl, rfl⟩ := hcontrol
      exact .inl ⟨hsaved, rfl⟩
    · rename_i hsaved
      simp only [bind_ok_iff, pure_ok_iff, Prod.mk.injEq] at hcontrol
      obtain ⟨_, -, row, hrow, _, -, rfl, rfl⟩ := hcontrol
      have hdecided : (do
          requireRecovery tables.control closure.request closure.recoveryId
          (site.run tables closure).1
          pure tables.control.row) = Except.ok row := hrow
      simp only [bind_ok_iff, pure_ok_iff] at hdecided
      obtain ⟨_, hheld, _, hran, rfl⟩ := hdecided
      refine .inr ⟨readTarget_ok.mp htarget, by simpa using halone, requireRecovery_ok hheld, hsaved,
        rfl, ?_⟩
      exact closeOperation_closed rfl hran

/-! ## An abandoned create -/

namespace Demo

/-- Restored with a create that was queued and has asked for nothing yet. -/
def abandoned : Tables :=
  ⟨⟨some (.recovering "22222222-2222-4222-8222-222222222222"
    "bbbbbbbb-bbbb-4bbb-8bbb-bbbbbbbbbbbb"), []⟩, Lifecycle.Demo.born⟩

/-- A provider that has nothing of it. -/
def emptied (call : Lifecycle.Call) : call.Reply :=
  match call with
  | .findServers _ => .ok []
  | .findPrimaryIps _ => .ok []
  | .getServer _ => .ok none
  | .getPrimaryIp _ => .ok none
  | .getCatalog => .error (.other "not asked")
  | .submit _ _ => .error (.other "not asked")
  | .getAction _ => .error (.other "not asked")
  | .resolveImage _ => .error (.other "not asked")
  | .prepareBootstrap .. => .error (.other "not asked")
  | .inspectGuest _ => .error (.other "not asked")

def offline : Site where
  env :=
    { target := .ok "22222222-2222-4222-8222-222222222222"
      busy := false
      targetInside := .ok "22222222-2222-4222-8222-222222222222"
      occupied := true
      closure := .ok ()
      inspection := .ok ⟨[], "", ""⟩
      targetBefore := .ok "22222222-2222-4222-8222-222222222222" }
  provider := .simulated
  rows := Lifecycle.Demo.env Lifecycle.Demo.start
  now := 2000
  reply := emptied

def givenUp : Closure where
  id := "eeeeeeee-eeee-4eee-8eee-eeeeeeeeeeee"
  generation := "22222222-2222-4222-8222-222222222222"
  operator := "second-operator"
  recoveryId := "bbbbbbbb-bbbb-4bbb-8bbb-bbbbbbbbbbbb"
  operationId := "create"
  expectedState := "e3b0c44298fc1c149afbf4c8996fb92427ae41e4649b934ca495991b7852b855"
  seen := ⟨Lifecycle.Demo.born.operations.head (List.cons_ne_nil _ _), Lifecycle.Demo.born.allocation, [], []⟩
  resourceIds := []
  evidence :=
    ⟨"incident-7", "e3b0c44298fc1c149afbf4c8996fb92427ae41e4649b934ca495991b7852b855"⟩
  named := by decide
  formed := by decide

example : (abandoned.closed offline givenUp).journal.machine.state = .destroyed 2000 := by
  decide +kernel

end Demo

end AgentCloud.Control
