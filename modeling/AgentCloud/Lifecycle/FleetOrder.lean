/-
  THE ORDER OF THE FLEET: what every step of it keeps.

  Every machine keeps the order of its own control plane (`Machine.InOrder`), identifiers stay
  identifiers, and what the holder of the admission lock has read bounds the live allocations.

  CRUX: a worker never raises a reservation (`Change.lowers`).  It does not take the admission lock,
  so what was read under it may be stale when the admission commits; but it is stale in one direction
  only (`ReadOf`).
-/
import AgentCloud.Lifecycle.Fleet
import Mathlib.Data.List.Forall2

namespace AgentCloud.Lifecycle

open Checked Durable

/-! ## What a worker does to one machine -/

variable {A : Replies} {offline : Bool} {setting : Setting}

/-- The reservation is not raised, and a retired allocation stays retired. -/
def Lowers (journal journal' : Journal) : Prop :=
  journal'.allocation.live = true →
    journal.allocation.live = true ∧ journal'.allocation.hourlyMicros ≤ journal.allocation.hourlyMicros

theorem Lowers.refl (journal : Journal) : Lowers journal journal := fun h => ⟨h, Nat.le_refl _⟩

theorem Lowers.trans {j j' j'' : Journal} (h : Lowers j j') (h' : Lowers j' j'') : Lowers j j'' := by
  intro hlive
  obtain ⟨hmid, hle⟩ := h' hlive
  obtain ⟨hfirst, hle'⟩ := h hmid
  exact ⟨hfirst, Nat.le_trans hle hle'⟩

/-- Operations stay under their identifiers. -/
def Remembers (journal journal' : Journal) : Prop :=
  ∀ id, (journal.operation id).isSome = true → (journal'.operation id).isSome = true

section Journals

variable {log : Log} {clock : Instant} {journal journal' : Journal}

/-- **Step lemma.**  No change raises the reservation.  A completion prices the allocation as its
    operation was admitted, and the reservation of an operation that goes on covers its offer. -/
theorem Change.lowers (hs : Sound journal) (hr : journal.Reserved)
    (change : Change A log clock journal journal') : Lowers journal journal' := by
  have hsame : ∀ {j : Journal}, j.allocation.live = journal.allocation.live →
      j.allocation.hourlyMicros = journal.allocation.hourlyMicros → Lowers journal j := by
    intro j hlive hprice h
    exact ⟨hlive ▸ h, Nat.le_of_eq hprice⟩
  have hretired : ∀ {j : Journal}, j.allocation.live = false → Lowers journal j := by
    intro j hlive h
    rw [hlive] at h
    cases h
  cases change with
  | progress | prepare | outcome | claim | bind | absent | settle | compensate | takeover | opened
  | granted | closure => exact hsame rfl rfl
  | failed active => exact fun _ => ⟨hs.live_of_active active, Nat.le_refl _⟩
  | @completed operation active run kept idle date machine provider standing serverId offer completion =>
    intro _
    refine ⟨hs.live_of_active active, ?_⟩
    show (offer.map CatalogItem.hourlyMicros).getD journal.allocation.hourlyMicros ≤ _
    cases hoffer : offer with
    | none => exact Nat.le_refl _
    | some item =>
      have hpriced : operation.command.priced = true := by
        cases h : operation.command.priced with
        | true => rfl
        | false =>
          have hnone := completion.unpriced h
          rw [hoffer] at hnone
          cases hnone
      have hadmitted : operation.offer = some item := by
        rw [← completion.priced hpriced, hoffer]
      exact hr.bound operation active.mem active.going item hadmitted
  | cleaned => exact hretired rfl
  | controlClosed => exact hretired rfl

theorem isSome_get_update {operations : List OperationRow} {id : OperationId}
    {f : OperationRow → OperationRow} (hf : ∀ row, (f row).id = row.id) {other : OperationId}
    (h : (Table.get OperationRow.id operations other).isSome = true) :
    (Table.get OperationRow.id (Table.update OperationRow.id operations id f) other).isSome = true := by
  rw [Table.get_update hf]
  split
  · simpa using h
  · exact h

theorem Change.remembers (change : Change A log clock journal journal') :
    Remembers journal journal' := by
  intro id hid
  cases change with
  | prepare | outcome | claim | bind | absent | settle | granted | closure => exact hid
  | progress | compensate | failed | completed | cleaned | takeover | controlClosed =>
    refine isSome_get_update ?_ hid
    intro row
    rfl
  | opened =>
    show (Table.get OperationRow.id (journal.operations ++ _) id).isSome = true
    rw [Table.get_append]
    cases hget : Table.get OperationRow.id journal.operations id with
    | some row => rfl
    | none =>
      have hnone : journal.operation id = none := hget
      rw [hnone] at hid
      cases hid

/-- What a chain of changes does to a machine that is in order. -/
structure Turned (journal journal' : Journal) : Prop where
  reserved : journal'.Reserved
  lowers : Lowers journal journal'
  remembers : Remembers journal journal'

theorem Changes.turned (hs : Sound journal) (hr : journal.Reserved)
    (changes : Changes A log clock journal journal') : Turned journal journal' := by
  refine (changes.keep (P := Turned journal) ?_ hs
    ⟨hr, .refl _, fun _ h => h⟩).2
  intro j j' hj turned change
  exact ⟨change.reserved hj turned.reserved, turned.lowers.trans (change.lowers hj turned.reserved),
    fun id h => change.remembers id (turned.remembers id h)⟩

end Journals

/-- A machine of the fleet is in order. -/
structure Machine.InOrder (A : Replies) (machine : Machine) : Prop where
  inOrder : Discipline.InOrder (contract A) machine
  reserved : machine.world.store.journal.Reserved

/-- **Step lemma.**  A worker keeps its machine in order and does not raise its reservation. -/
theorem works_turned {machine machine' : Machine} (h : Machine.InOrder A machine)
    (step : (workers A offline).Step machine machine') : Machine.InOrder A machine' ∧
      Turned machine.world.store.journal machine'.world.store.journal := by
  have hstep : (system A offline).Step machine machine' := by
    refine step.mono (fun _ _ hjob => hjob.job) (fun w w' hpass => ?_) (fun _ _ _ h => h)
    cases hpass with
    | time clock later => exact .time clock later
  have hturned : Turned machine.world.store.journal machine'.world.store.journal := by
    have hstay : Turned machine.world.store.journal machine.world.store.journal :=
      ⟨h.reserved, .refl _, fun _ h => h⟩
    cases step with
    | start | refuse | call | stop => exact hstay
    | other w hpass =>
      cases hpass with
      | time clock later => exact hstay
    | commit k t next env b s here ok =>
      -- the transaction is one of the changes that its worker may make
      have hdoes := h.inOrder.2 k _ here machine.world (Sees.refl _) h.inOrder.1 env
      rw [ok] at hdoes
      have hwrite : Does A machine.world (machine.world.put s) := hdoes.1
      show Turned machine.world.store.journal (machine.world.put s).store.journal
      generalize machine.world.put s = w' at hwrite
      cases hwrite with
      | write journal changes => exact changes.turned h.inOrder.1.sound h.reserved
      | ask | submit => exact hstay
  exact ⟨⟨((disciplined A offline).step h.inOrder hstep).1, hturned.reserved⟩, hturned⟩

/-! ## What was read -/

/-- What was read of a machine bounds what there is. -/
def Covers (read there : List Reservation) : Prop :=
  there = [] ∨ ∃ old new : Reservation, read = [old] ∧ there = [new] ∧
    new.accountId = old.accountId ∧ new.hourlyMicros ≤ old.hourlyMicros

theorem covers_of_lowers {journal journal' : Journal} (h : Lowers journal journal')
    (haccount : journal'.machine.accountId = journal.machine.accountId) :
    Covers journal.reservation journal'.reservation := by
  cases hlive : journal'.allocation.live with
  | false => exact .inl (by simp [Journal.reservation, hlive])
  | true =>
    obtain ⟨hbefore, hle⟩ := h hlive
    refine .inr ⟨⟨journal.machine.accountId, journal.allocation.currency,
      journal.allocation.hourlyMicros⟩, ⟨journal'.machine.accountId, journal'.allocation.currency,
      journal'.allocation.hourlyMicros⟩, ?_, ?_, haccount, hle⟩
    · simp [Journal.reservation, hbefore]
    · simp [Journal.reservation, hlive]

theorem Covers.refl (world : World interface) : Covers (reservationOf world) (reservationOf world) :=
  covers_of_lowers (.refl _) rfl

theorem Covers.trans {r r' r'' : List Reservation} (h : Covers r r') (h' : Covers r' r'') :
    Covers r r'' := by
  rcases h' with rfl | ⟨old', new', rfl, rfl, haccount', hle'⟩
  · exact .inl rfl
  · rcases h with h | ⟨old, new, rfl, hnew, haccount, hle⟩
    · cases h
    · obtain rfl := (List.cons.inj hnew).1
      exact .inr ⟨old, new', rfl, rfl, haccount'.trans haccount, Nat.le_trans hle' hle⟩

/-- A row of the tally, of a machine. -/
def ReadOf (row : MachineId × List Reservation) (world : World interface) : Prop :=
  row.1 = machineIdOf world ∧ Covers row.2 (reservationOf world)

theorem tally_reads (tables : Tables) : List.Forall₂ ReadOf tables.tally tables.machines := by
  unfold Tables.tally
  induction tables.machines with
  | nil => exact .nil
  | cons world rest ih => exact .cons ⟨rfl, Covers.refl world⟩ ih

theorem reads_turned {tally : Tally} {before after : List (World interface)}
    {world world' : World interface} (h : List.Forall₂ ReadOf tally (before ++ world :: after))
    (hid : machineIdOf world' = machineIdOf world)
    (hcovers : Covers (reservationOf world) (reservationOf world')) :
    List.Forall₂ ReadOf tally (before ++ world' :: after) := by
  induction before generalizing tally with
  | nil =>
    cases h with
    | cons hrow hrest => exact .cons ⟨hrow.1.trans hid.symm, hrow.2.trans hcovers⟩ hrest
  | cons first before ih =>
    cases h with
    | cons hrow hrest => exact .cons hrow (ih hrest)

/-! ## Lists of machines -/

section Lists

variable {tables : Tables} {before after : List (World interface)} {world : World interface}
  {journal : Journal}

theorem write_split (hkeyed : Table.Keyed machineIdOf tables.machines)
    (hget : tables.machine (machineIdOf world) = some world) :
    ∃ before after, tables.machines = before ++ world :: after ∧
      (tables.write (machineIdOf world) journal).machines =
        before ++ world.put (world.store.write journal) :: after := by
  obtain ⟨before, after, hsplit⟩ := List.append_of_mem (Table.get_mem hget)
  refine ⟨before, after, hsplit, ?_⟩
  rw [hsplit, Table.Keyed, List.map_append, List.map_cons] at hkeyed
  obtain ⟨-, htail, hdisjoint⟩ := List.nodup_append.mp hkeyed
  have hafter : machineIdOf world ∉ after.map machineIdOf := (List.nodup_cons.mp htail).1
  have hbefore : machineIdOf world ∉ before.map machineIdOf := by
    intro hm
    exact hdisjoint _ hm _ (by simp) rfl
  have hskip : ∀ worlds : List (World interface), machineIdOf world ∉ worlds.map machineIdOf →
      (worlds.map fun w => if machineIdOf w = machineIdOf world then
        w.put (w.store.write journal) else w) = worlds := by
    intro worlds hnot
    refine (List.map_congr_left fun w hw => ?_).trans (List.map_id worlds)
    have hne : machineIdOf w ≠ machineIdOf world := by
      intro heq
      exact hnot (heq ▸ List.mem_map_of_mem hw)
    rw [if_neg hne]
    rfl
  show tables.machines.map _ = _
  rw [hsplit, List.map_append, List.map_cons, hskip before hbefore, hskip after hafter, if_pos rfl]

/-- A machine that is rewritten under its identifier. -/
theorem keyed_turned {world' : World interface}
    (h : Table.Keyed machineIdOf (before ++ world :: after))
    (hid : machineIdOf world' = machineIdOf world) :
    Table.Keyed machineIdOf (before ++ world' :: after) := by
  rw [Table.Keyed, List.map_append, List.map_cons, hid]
  rw [Table.Keyed, List.map_append, List.map_cons] at h
  exact h

/-- Machines have no operation in common. -/
def Distinct (machines : List (World interface)) : Prop :=
  ∀ v ∈ machines, ∀ w ∈ machines, ∀ id, (v.store.journal.operation id).isSome = true →
    (w.store.journal.operation id).isSome = true → v = w

theorem distinct_turned {world' : World interface} (h : Distinct (before ++ world :: after))
    (unused : Unused (before ++ after) world'.store.journal) :
    Distinct (before ++ world' :: after) := by
  have hcases : ∀ v ∈ before ++ world' :: after, v = world' ∨ v ∈ before ++ after := by
    intro v hv
    simp only [List.mem_append, List.mem_cons] at hv ⊢
    tauto
  have hother : ∀ v ∈ before ++ after, v ∈ before ++ world :: after := by
    intro v hv
    simp only [List.mem_append, List.mem_cons] at hv ⊢
    tauto
  have hclash : ∀ v ∈ before ++ after, ∀ id, (v.store.journal.operation id).isSome = true →
      (world'.store.journal.operation id).isSome = true → False := by
    intro v hv id hsome hsome'
    rw [unused v hv id hsome'] at hsome
    cases hsome
  intro v hv w hw id hid hid'
  rcases hcases v hv with hv' | hv'
  · rcases hcases w hw with hw' | hw'
    · rw [hv', hw']
    · exact (hclash w hw' id hid' (hv' ▸ hid)).elim
  · rcases hcases w hw with hw' | hw'
    · exact (hclash v hv' id hid (hw' ▸ hid')).elim
    · exact h v (hother v hv') w (hother w hw') id hid hid'

/-- Another machine has another identifier. -/
theorem other_id (h : Table.Keyed machineIdOf (before ++ world :: after)) {other : World interface}
    (ho : other ∈ before ++ after) : machineIdOf other ≠ machineIdOf world := by
  rw [Table.Keyed, List.map_append, List.map_cons] at h
  obtain ⟨-, htail, hdisjoint⟩ := List.nodup_append.mp h
  rcases List.mem_append.mp ho with ho | ho
  · exact hdisjoint _ (List.mem_map_of_mem ho) _ (by simp)
  · intro heq
    exact (List.nodup_cons.mp htail).1 (heq ▸ List.mem_map_of_mem ho)

end Lists

/-! ## The invariant -/

/-- Every machine is in order, what identifies a row identifies one row, and what the holder of the
    admission lock has read still bounds the live allocations. -/
structure Fleet.Ordered (A : Replies) (fleet : Fleet) : Prop where
  keyed : Table.Keyed machineIdOf fleet.tables.machines
  machines : ∀ world ∈ fleet.tables.machines, Machine.InOrder A (controlOf fleet.running world)
  distinct : Distinct fleet.tables.machines
  quiet : ∀ id, (∀ world ∈ fleet.tables.machines, machineIdOf world ≠ id) → fleet.running id = none
  tallied : ∀ tally, fleet.admitting = some tally →
    List.Forall₂ ReadOf tally fleet.tables.machines

theorem Fleet.Ordered.empty : Fleet.empty.Ordered A where
  keyed := .nil
  machines := by intro world hw; cases hw
  distinct := by intro v hv; cases hv
  quiet := by intro id _; rfl
  tallied := by intro tally h; cases h

/-- One machine is rewritten, and its lock may change hands. -/
theorem Fleet.Ordered.turn {fleet : Fleet} (h : fleet.Ordered A) {before after : List (World interface)}
    {world world' : World interface} (here : fleet.tables.machines = before ++ world :: after)
    (hid : machineIdOf world' = machineIdOf world) {slot : Option (Program Unit)}
    (hmachine : Machine.InOrder A ⟨world', fun _ => slot⟩)
    (unused : Unused (before ++ after) world'.store.journal)
    {keys answers : List IdempotencyRow} {admitting : Option Tally}
    (hread : admitting = none ∨ (admitting = fleet.admitting ∧
      Covers (reservationOf world) (reservationOf world'))) :
    (⟨⟨before ++ world' :: after, keys⟩, Function.update fleet.running (machineIdOf world) slot,
      admitting, answers⟩ : Fleet).Ordered A where
  keyed := keyed_turned (here ▸ h.keyed) hid
  machines := by
    intro v hv
    have hcases : v = world' ∨ v ∈ before ++ after := by
      simp only [List.mem_append, List.mem_cons] at hv ⊢
      tauto
    rcases hcases with rfl | hv
    · show Machine.InOrder A ⟨v, fun _ => Function.update fleet.running (machineIdOf world) slot
        (machineIdOf v)⟩
      rw [hid, Function.update_self]
      exact hmachine
    · have hne := other_id (here ▸ h.keyed) hv
      show Machine.InOrder A ⟨v, fun _ => Function.update fleet.running (machineIdOf world) slot
        (machineIdOf v)⟩
      rw [Function.update_of_ne hne]
      refine h.machines v ?_
      rw [here]
      simp only [List.mem_append, List.mem_cons] at hv ⊢
      tauto
  distinct := distinct_turned (here ▸ h.distinct) unused
  quiet := by
    intro id hnone
    have hne : id ≠ machineIdOf world := by
      intro heq
      exact hnone world' (by simp) (hid.trans heq.symm)
    show Function.update fleet.running (machineIdOf world) slot id = none
    rw [Function.update_of_ne hne]
    refine h.quiet id fun v hv => ?_
    rw [here] at hv
    simp only [List.mem_append, List.mem_cons] at hv
    rcases hv with hv | rfl | hv
    · exact hnone v (by simp [hv])
    · exact fun heq => hne heq.symm
    · exact hnone v (by simp [hv])
  tallied := by
    intro tally htally
    rcases hread with hnone | ⟨hsame, hcovers⟩
    · have hsome : admitting = some tally := htally
      rw [hnone] at hsome
      cases hsome
    · have hsome : fleet.admitting = some tally := hsame ▸ htally
      exact reads_turned (here ▸ h.tallied tally hsome) hid hcovers

/-! ## What an admission writes -/

/-- The rows of a request whose key is new. -/
inductive Placed (setting : Setting) (reads : Reads) (tally : Tally) (account : Account)
    (principal : Principal) (machines : List (World interface)) :
    AdmissionRequest → OperationRow → List (World interface) → Prop where
  | created {projectId : ProjectId} {spec : MachineSpec} {journal : Journal} {operation : OperationRow}
      (ok : admitCreate setting.provider setting.limits reads.catalog
        { reads.env with others := tally.flatMap Prod.snd } reads.projects
        (machines.map fun world => world.store.journal.machine) account principal projectId
        spec reads.machineId reads.allocationId = .ok journal)
      (unused : ∀ world ∈ machines, world.store.journal.operation reads.env.id = none)
      (new : ∀ world ∈ machines, machineIdOf world ≠ reads.machineId)
      (inserted : journal.operation reads.env.id = some operation) :
      Placed setting reads tally account principal machines (.create projectId spec) operation
        (machines ++ [⟨⟨reads.now, journal⟩, []⟩])
  | acted {machineId : MachineId} {command : LifecycleCommand} {action : command.isAction = true}
      {before after : List (World interface)} {world : World interface} {journal : Journal}
      {operation : OperationRow} (here : machines = before ++ world :: after)
      (id : machineIdOf world = machineId)
      (ok : admitAction setting.limits reads.catalog
        { reads.env with others := tally.others machineId } world.store.journal account principal
        command = .ok (operation, journal))
      (unused : ∀ world ∈ machines, world.store.journal.operation operation.id = none) :
      Placed setting reads tally account principal machines (.action machineId command action)
        operation (before ++ world.put (world.store.write journal) :: after)

/-- The loaded principal is the caller's. -/
theorem Genuine.accountId {grants : List Grant} {caller : Principal} (h : Genuine grants caller)
    {now : Instant} {authority : AgentCloud.Authority}
    (hauthority : loadAuthority grants now caller.grantId = .ok authority) :
    authority.principal.accountId = caller.accountId := by
  obtain ⟨-, row, hrow, haccount⟩ := loadAuthority_leaf hauthority
  exact haccount.symm.trans (h row (Table.get_mem hrow) (Grant.lookup_id hrow))

section Writes

variable {reads : Reads} {tally : Tally} {account : Account} {principal caller : Principal}
  {tables tables' : Tables} {request : AdmissionRequest} {key : String} {operation : OperationRow}

theorem holds_eq_false {id : OperationId} : tables.holds id = false ↔
    ∀ world ∈ tables.machines, world.store.journal.operation id = none := by
  simp [Tables.holds]

theorem place_ok (hkeyed : Table.Keyed machineIdOf tables.machines)
    (h : place setting reads tally tables account principal request = .ok (operation, tables')) :
    tables'.keys = tables.keys ∧ Placed setting reads tally account principal tables.machines
      request operation tables'.machines := by
  cases request with
  | create projectId spec =>
    simp only [place, bind_ok_iff, refuse_ok_iff, present_ok_iff, pure_ok_iff, not_or] at h
    obtain ⟨journal, hjournal, -, ⟨hholds, hmachine⟩, inserted, hinserted, hpair⟩ := h
    obtain ⟨rfl, rfl⟩ := Prod.mk.inj hpair
    refine ⟨rfl, .created hjournal (holds_eq_false.mp (Bool.not_eq_true _ ▸ hholds)) ?_ hinserted⟩
    have hnone : tables.machine reads.machineId = none := by simpa using hmachine
    exact Table.get_eq_none.mp hnone
  | action machineId command action =>
    simp only [place, bind_ok_iff, refuse_ok_iff, present_ok_iff, pure_ok_iff] at h
    obtain ⟨world, hworld, ⟨op, journal⟩, hadmitted, -, hholds, hpair⟩ := h
    obtain ⟨rfl, rfl⟩ := Prod.mk.inj hpair
    have hid : machineIdOf world = machineId := Table.get_key hworld
    subst hid
    obtain ⟨before, after, here, hwritten⟩ := @write_split _ _ journal hkeyed hworld
    refine ⟨rfl, ?_⟩
    rw [hwritten]
    exact .acted here rfl hadmitted (holds_eq_false.mp (Bool.not_eq_true _ ▸ hholds))

/-- An admission answers from its key, or places the request under it. -/
theorem admitRequest_ok (hkeyed : Table.Keyed machineIdOf tables.machines)
    (h : admitRequest setting reads tally tables caller request key = .ok (operation, tables')) :
    ∃ account authority, setting.accounts caller.accountId = some account ∧
      loadAuthority reads.env.grants reads.now caller.grantId = .ok authority ∧
      ((∃ previous projectId,
          tables.previous authority.principal.accountId request.scope key = some previous ∧
          replay tables authority.principal.accountId request.command previous =
            .ok (projectId, operation) ∧ tables' = tables) ∨
        (tables.previous authority.principal.accountId request.scope key = none ∧
          tables'.keys = tables.keys ++ [⟨authority.principal.accountId, request.scope, key,
            request.command, operation.id⟩] ∧
          Placed setting reads tally account authority.principal tables.machines request operation
            tables'.machines)) := by
  simp only [admitRequest, bind_ok_iff, present_ok_iff] at h
  obtain ⟨account, haccount, authority, hauthority, h⟩ := h
  refine ⟨account, authority, haccount, hauthority, ?_⟩
  split at h
  next previous hprevious =>
    simp only [bind_ok_iff, pure_ok_iff] at h
    obtain ⟨⟨projectId, stored⟩, hreplay, -, -, hpair⟩ := h
    obtain ⟨rfl, rfl⟩ := Prod.mk.inj hpair
    exact .inl ⟨previous, projectId, hprevious, hreplay, rfl⟩
  next hprevious =>
    simp only [bind_ok_iff, pure_ok_iff] at h
    obtain ⟨⟨op, placed⟩, hplace, hpair⟩ := h
    obtain ⟨rfl, rfl⟩ := Prod.mk.inj hpair
    exact .inr ⟨hprevious, rfl, (place_ok hkeyed hplace).2⟩

/-- A destroy answers from its key, or opens a cleanup under it. -/
theorem admitDestroy_ok {env : Env} {held : Bool} {machineId : MachineId} {expectedVersion : Nat}
    {allowDataLoss : Bool} (hkeyed : Table.Keyed machineIdOf tables.machines)
    (h : admitDestroy env tables held caller machineId expectedVersion allowDataLoss key =
      .ok (operation, tables')) :
    ∃ before after world authority, tables.machines = before ++ world :: after ∧
      machineIdOf world = machineId ∧ world.store.journal.machine.accountId = caller.accountId ∧
      held = false ∧ loadAuthority env.grants world.store.clock caller.grantId = .ok authority ∧
      ((∃ previous projectId,
          tables.previous authority.principal.accountId (.actions machineId) key = some previous ∧
          replay tables authority.principal.accountId (.destroy expectedVersion allowDataLoss)
            previous = .ok (projectId, operation) ∧ tables' = tables) ∨
        (∃ journal, tables.previous authority.principal.accountId (.actions machineId) key = none ∧
          openCleanup env world.store.clock world.store.journal authority.principal.grantId
            expectedVersion = .ok (operation, journal) ∧
          (world.store.journal.operation operation.id = none →
            ∀ other ∈ tables.machines, other.store.journal.operation operation.id = none) ∧
          tables'.keys = tables.keys ++ [⟨authority.principal.accountId, .actions machineId, key,
            .destroy expectedVersion allowDataLoss, operation.id⟩] ∧
          tables'.machines = before ++ world.put (world.store.write journal) :: after)) := by
  simp only [admitDestroy, bind_ok_iff, present_ok_iff, refuse_ok_iff, not_not] at h
  obtain ⟨world, hworld, -, haccount, -, hheld, authority, hauthority, -, -, h⟩ := h
  have hid : machineIdOf world = machineId := Table.get_key hworld
  subst hid
  have hfree : held = false := by simpa using hheld
  split at h
  next previous hprevious =>
    simp only [bind_ok_iff, pure_ok_iff] at h
    obtain ⟨⟨projectId, stored⟩, hreplay, hpair⟩ := h
    obtain ⟨rfl, rfl⟩ := Prod.mk.inj hpair
    obtain ⟨before, after, here⟩ := List.append_of_mem (Table.get_mem hworld)
    exact ⟨before, after, world, authority, here, rfl, haccount, hfree, hauthority,
      .inl ⟨previous, projectId, hprevious, hreplay, rfl⟩⟩
  next hprevious =>
    simp only [bind_ok_iff, refuse_ok_iff, pure_ok_iff] at h
    obtain ⟨⟨op, journal⟩, hopen, -, hunused, hpair⟩ := h
    obtain ⟨rfl, rfl⟩ := Prod.mk.inj hpair
    obtain ⟨before, after, here, hwritten⟩ := @write_split _ _ journal hkeyed hworld
    refine ⟨before, after, world, authority, here, rfl, haccount, hfree, hauthority,
      .inr ⟨journal, hprevious, hopen, ?_, rfl, hwritten⟩⟩
    intro hnone
    refine holds_eq_false.mp ?_
    cases hholds : tables.holds op.id with
    | false => rfl
    | true => exact absurd ⟨hnone, hholds⟩ hunused

end Writes

/-! ## Steps keep the order -/

section Steps

variable {machines before after : List (World interface)} {world : World interface}

/-- Operations that a machine had are nobody else's. -/
theorem unused_old (hkeyed : Table.Keyed machineIdOf (before ++ world :: after))
    (hdistinct : Distinct (before ++ world :: after)) : Unused (before ++ after) world.store.journal := by
  intro other hother id hsome
  have hmem : other ∈ before ++ world :: after := by
    simp only [List.mem_append, List.mem_cons] at hother ⊢
    tauto
  cases hget : other.store.journal.operation id with
  | none => rfl
  | some row =>
    have hsame := hdistinct other hmem world (by simp) id (by rw [hget]; rfl) hsome
    exact absurd (congrArg machineIdOf hsame) (other_id hkeyed hother)

/-- One more operation, which was nobody's. -/
theorem unused_more (hkeyed : Table.Keyed machineIdOf (before ++ world :: after))
    (hdistinct : Distinct (before ++ world :: after)) {journal' : Journal} {id : OperationId}
    (hids : ∀ other, (journal'.operation other).isSome = true →
      (world.store.journal.operation other).isSome = true ∨ other = id)
    (hnew : world.store.journal.operation id = none →
      ∀ other ∈ before ++ world :: after, other.store.journal.operation id = none) :
    Unused (before ++ after) journal' := by
  intro other hother id' hsome
  rcases hids id' hsome with hold | rfl
  · exact unused_old hkeyed hdistinct other hother id' hold
  · cases hget : world.store.journal.operation id' with
    | some row => exact unused_old hkeyed hdistinct other hother id' (by rw [hget]; rfl)
    | none =>
      refine hnew hget other ?_
      simp only [List.mem_append, List.mem_cons] at hother ⊢
      tauto

variable {account : Account} {principal : Principal} {journal : Journal} {operation : OperationRow}

/-- An action that is admitted keeps its machine in order. -/
theorem acted_inOrder {slot : Option (Program Unit)} (h : Machine.InOrder A ⟨world, fun _ => slot⟩)
    {limits : Limits} {catalog : Catalog} {env : Env} {command : LifecycleCommand}
    (action : command.isAction = true)
    (ok : admitAction limits catalog env world.store.journal account principal command =
      .ok (operation, journal)) :
    Machine.InOrder A ⟨world.put (world.store.write journal), fun _ => slot⟩ := by
  refine ⟨((disciplined A false).step h.inOrder (.other _ (.admitted limits catalog env account
    principal command action operation journal ok))).1, ?_⟩
  exact admitAction_reserved h.inOrder.1.sound h.reserved action ok

/-- A destroy that is admitted under the free lock of its machine keeps it in order. -/
theorem destroyed_inOrder (h : Machine.InOrder A ⟨world, fun _ => none⟩) {env : Env}
    {grantId : GrantId} {expectedVersion : Nat}
    (ok : openCleanup env world.store.clock world.store.journal grantId expectedVersion =
      .ok (operation, journal)) :
    Machine.InOrder A ⟨world.put (world.store.write journal), fun _ => none⟩ ∧
      Turned world.store.journal journal := by
  have hchanges : Changes A world.log world.store.clock world.store.journal journal :=
    openCleanup_changes h.inOrder.1.sound ok
  have hturned := hchanges.turned h.inOrder.1.sound h.reserved
  refine ⟨⟨⟨Does.valid h.inOrder.1 (.write journal hchanges), ?_⟩, hturned.reserved⟩, hturned⟩
  intro k p hp
  cases hp

theorem openCleanup_ids {env : Env} {clock : Instant} {old : Journal} {grantId : GrantId}
    {expectedVersion : Nat} (ok : openCleanup env clock old grantId expectedVersion =
      .ok (operation, journal)) :
    journal.machine.id = old.machine.id ∧ journal.machine.accountId = old.machine.accountId ∧
      journal.machine.projectId = old.machine.projectId ∧
      ∀ id, (journal.operation id).isSome = true → (old.operation id).isSome = true ∨ id = operation.id := by
  simp only [openCleanup, bind_ok_iff, refuse_ok_iff, present_ok_iff] at ok
  obtain ⟨-, -, -, -, -, -, source, -, ok⟩ := ok
  split at ok
  · obtain ⟨-, rfl⟩ := Prod.mk.inj (pure_ok_iff.mp ok)
    exact ⟨rfl, rfl, rfl, fun _ h => .inl h⟩
  · simp only [startCleanup, insertCleanup, bind_ok_iff, refuse_ok_iff, pure_ok_iff] at ok
    obtain ⟨⟨placed, j⟩, hplace, inserted, ⟨-, -, -, -, rfl⟩, hpair⟩ := ok
    obtain ⟨rfl, rfl⟩ := Prod.mk.inj hpair
    unfold placeCleanup at hplace
    split at hplace
    next create _ =>
      simp only [bind_ok_iff, pure_ok_iff] at hplace
      obtain ⟨updated, hupdate, hpair⟩ := hplace
      obtain ⟨rfl, rfl⟩ := Prod.mk.inj hpair
      rcases updateOperation_ok hupdate with ⟨-, rfl⟩ | ⟨row, -, -, rfl⟩
      · exact ⟨rfl, rfl, rfl, fun _ h => .inl h⟩
      · refine ⟨rfl, rfl, rfl, fun id h => .inl ?_⟩
        have hupdated : (Table.get OperationRow.id (Table.update OperationRow.id old.operations
            create.id fun row => { row with intent := .cleanup source.id, progress := .cleaningUp })
            id).isSome = true := h
        rw [Table.get_update (by intro row; rfl)] at hupdated
        have hold : (Table.get OperationRow.id old.operations id).isSome = true := by
          split at hupdated
          · simpa using hupdated
          · exact hupdated
        exact hold
    next =>
      simp only [insertOperation, bind_ok_iff, refuse_ok_iff, pure_ok_iff] at hplace
      obtain ⟨written, ⟨-, -, rfl⟩, hpair⟩ := hplace
      obtain ⟨rfl, rfl⟩ := Prod.mk.inj hpair
      refine ⟨rfl, rfl, rfl, fun id h => ?_⟩
      have happended : (Table.get OperationRow.id (old.operations ++ [_]) id).isSome = true := h
      rw [Table.get_append] at happended
      cases hget : Table.get OperationRow.id old.operations id with
      | some row =>
        have hsome : old.operation id = some row := hget
        exact .inl (by rw [hsome]; rfl)
      | none =>
        rw [hget] at happended
        split at happended
        next heq => exact .inr heq.symm
        next => cases happended

theorem Admission.ids {old : Journal} (h : Admission old journal operation) :
    journal.machine.id = old.machine.id ∧ journal.machine.accountId = old.machine.accountId ∧
      journal.machine.projectId = old.machine.projectId ∧
      ∀ id, (journal.operation id).isSome = true → (old.operation id).isSome = true ∨ id = operation.id := by
  obtain ⟨hourlyMicros, version, rfl⟩ := h.eq
  refine ⟨rfl, rfl, rfl, fun id hsome => ?_⟩
  have happended : (Table.get OperationRow.id (old.operations ++ [operation]) id).isSome = true := hsome
  rw [Table.get_append] at happended
  cases hget : Table.get OperationRow.id old.operations id with
  | some row =>
    have hrow : old.operation id = some row := hget
    exact .inl (by rw [hrow]; rfl)
  | none =>
    rw [hget] at happended
    split at happended
    next heq => exact .inr heq.symm
    next => cases happended

/-- A create that is admitted is a machine in order. -/
theorem created_inOrder {provider : ProviderKind} {limits : Limits} {catalog : Catalog} {env : Env}
    {projects : List (ProjectId × AccountId)} {rows : List MachineRow} {projectId : ProjectId}
    {spec : MachineSpec} {machineId : MachineId} {allocationId : AllocationId} (now : Instant)
    (ok : admitCreate provider limits catalog env projects rows account principal projectId spec
      machineId allocationId = .ok journal) :
    journal.machine.id = machineId ∧ journal.machine.accountId = principal.accountId ∧
      journal.machine.projectId = projectId ∧
      (∀ id, (journal.operation id).isSome = true → id = env.id) ∧
      Machine.InOrder A ⟨⟨⟨now, journal⟩, []⟩, fun _ => none⟩ := by
  simp only [admitCreate, quoteOffer, bind_ok_iff, refuse_ok_iff, pure_ok_iff] at ok
  obtain ⟨-, -, -, -, -, -, offer, ⟨-, hprovider, hselect⟩, -, -, rfl⟩ := ok
  rw [Decidable.not_not] at hprovider
  subst hprovider
  have hborn : Born (newJournal machineId allocationId env.id principal projectId spec
      catalog.provider offer env.date) :=
    ⟨⟨machineId, allocationId, env.id, principal, projectId, spec, catalog, offer, env.date,
      .managedIpv4, selectOffer_mem hselect, rfl⟩⟩
  refine ⟨rfl, rfl, rfl, fun id hsome => ?_, ?_, hborn.reserved⟩
  · have hone : (Table.get OperationRow.id [_] id).isSome = true := hsome
    rw [Table.get_cons] at hone
    split at hone
    next heq => exact heq.symm
    next => cases hone
  · exact Discipline.inOrder_idle (Initial.valid ⟨rfl, hborn⟩)

/-- A machine that nobody had is added. -/
theorem Fleet.Ordered.insert {fleet : Fleet} (h : fleet.Ordered A) {world : World interface}
    (hnew : ∀ other ∈ fleet.tables.machines, machineIdOf other ≠ machineIdOf world)
    (hmachine : Machine.InOrder A ⟨world, fun _ => none⟩)
    (unused : Unused fleet.tables.machines world.store.journal)
    {keys answers : List IdempotencyRow} :
    (⟨⟨fleet.tables.machines ++ [world], keys⟩, fleet.running, none, answers⟩ : Fleet).Ordered A where
  keyed := h.keyed.insert (Table.get_eq_none.mpr hnew)
  machines := by
    intro v hv
    rcases List.mem_append.mp hv with hv | hv
    · exact h.machines v hv
    · obtain rfl := List.mem_singleton.mp hv
      show Machine.InOrder A ⟨v, fun _ => fleet.running (machineIdOf v)⟩
      rw [h.quiet _ hnew]
      exact hmachine
  distinct := by
    have hclash : ∀ v ∈ fleet.tables.machines, ∀ id, (v.store.journal.operation id).isSome = true →
        (world.store.journal.operation id).isSome = true → False := by
      intro v hv id hsome hsome'
      rw [unused v hv id hsome'] at hsome
      cases hsome
    intro v hv w hw id hid hid'
    rcases List.mem_append.mp hv with hv | hv
    · rcases List.mem_append.mp hw with hw | hw
      · exact h.distinct v hv w hw id hid hid'
      · rw [List.mem_singleton.mp hw] at hid'
        exact (hclash v hv id hid hid').elim
    · rcases List.mem_append.mp hw with hw | hw
      · rw [List.mem_singleton.mp hv] at hid
        exact (hclash w hw id hid' hid).elim
      · rw [List.mem_singleton.mp hv, List.mem_singleton.mp hw]
  quiet := by
    intro id hnone
    exact h.quiet id fun other ho => hnone other (List.mem_append_left _ ho)
  tallied := by intro tally htally; cases htally

theorem Fleet.Ordered.unlock {fleet : Fleet} (h : fleet.Ordered A) {answers : List IdempotencyRow} :
    ({ fleet with admitting := none, answers } : Fleet).Ordered A where
  keyed := h.keyed
  machines := h.machines
  distinct := h.distinct
  quiet := h.quiet
  tallied := by intro tally htally; cases htally

/-- **Step lemma.** -/
theorem Fleet.Step.ordered {fleet fleet' : Fleet} (h : fleet.Ordered A)
    (step : Fleet.Step setting A offline fleet fleet') : fleet'.Ordered A := by
  cases step with
  | @works before after world here machine step anchored unique =>
    have hmem : world ∈ fleet.tables.machines := by rw [here]; simp
    obtain ⟨hmachine, hturned⟩ := works_turned (h.machines world hmem) step
    exact h.turn here anchored.id hmachine unique
      (.inr ⟨rfl, covers_of_lowers hturned.lowers anchored.accountId⟩)
  | locks free =>
    refine ⟨h.keyed, h.machines, h.distinct, h.quiet, fun tally htally => ?_⟩
    obtain rfl := Option.some.inj htally
    exact tally_reads fleet.tables
  | admitted locked reads caller genuine request key operation tables ok =>
    obtain ⟨account, authority, -, -, ⟨previous, projectId, -, -, rfl⟩ | ⟨-, hkeys, hplaced⟩⟩ :=
      admitRequest_ok h.keyed ok
    · exact h.unlock
    obtain ⟨machines, keys⟩ := tables
    clear ok
    dsimp only at hkeys hplaced
    cases hplaced with
    | created ok unused new inserted =>
      obtain ⟨hid, -, -, hids, hmachine⟩ := created_inOrder reads.now ok
      refine h.insert (fun other ho => ?_) hmachine fun other ho id hsome => ?_
      · exact fun heq => new other ho (heq.trans hid)
      · rw [hids id hsome]
        exact unused other ho
    | @acted machineId command action before after world journal operation here hid ok unused =>
      have hmem : world ∈ fleet.tables.machines := by rw [here]; simp
      obtain ⟨hsame, -, -, hids⟩ := (admission_of_ok action ok).ids
      have hkeep : machineIdOf (world.put (world.store.write journal)) = machineIdOf world := hsame
      have hturn : (⟨⟨before ++ world.put (world.store.write journal) :: after, keys⟩,
          Function.update fleet.running (machineIdOf world) (fleet.running (machineIdOf world)),
          none, fleet.answers⟩ : Fleet).Ordered A :=
        h.turn here hkeep (acted_inOrder (h.machines world hmem) action ok)
          (unused_more (here ▸ h.keyed) (here ▸ h.distinct) hids fun _ => here ▸ unused) (.inl rfl)
      rw [Function.update_eq_self] at hturn
      exact hturn.unlock
  | cleaned locked env caller genuine machineId expectedVersion allowDataLoss key operation tables ok =>
    obtain ⟨before, after, world, authority, here, hid, -, hheld, -,
      ⟨previous, projectId, -, -, rfl⟩ | ⟨journal, -, hopen, hnew, hkeys, hmachines⟩⟩ :=
      admitDestroy_ok h.keyed ok
    · exact h.unlock
    subst hid
    have hmem : world ∈ fleet.tables.machines := by rw [here]; simp
    have hfree : fleet.running (machineIdOf world) = none := by simpa using hheld
    have hworld := h.machines world hmem
    rw [controlOf, hfree] at hworld
    obtain ⟨hmachine, -⟩ := destroyed_inOrder hworld hopen
    obtain ⟨hsame, -, -, hids⟩ := openCleanup_ids hopen
    have hkeep : machineIdOf (world.put (world.store.write journal)) = machineIdOf world := hsame
    have hturn : (⟨⟨before ++ world.put (world.store.write journal) :: after, tables.keys⟩,
        Function.update fleet.running (machineIdOf world) none, none, fleet.answers⟩ :
          Fleet).Ordered A :=
      h.turn here hkeep hmachine
        (unused_more (here ▸ h.keyed) (here ▸ h.distinct) hids (here ▸ hnew)) (.inl rfl)
    rw [← hfree, Function.update_eq_self, ← hmachines] at hturn
    exact hturn.unlock
  | gone => exact h.unlock

/-- **Run lemma.** -/
theorem Fleet.Reach.ordered {fleet fleet' : Fleet} (h : fleet.Ordered A)
    (reach : Fleet.Reach setting A offline fleet fleet') : fleet'.Ordered A := by
  induction reach with
  | refl => exact h
  | tail _ step ih => exact step.ordered ih

end Steps

/-! ## A fleet of one machine -/

namespace Demo

def configured : Setting :=
  ⟨⟨"EUR", 2, 20000⟩, .simulated,
    fun id => if id = "acct" then some ⟨"acct", "EUR", 2, 20000⟩ else none⟩

def consulted : Reads :=
  { env := { env start with id := "create" }
    now := 1000
    catalog
    projects := [("proj", "acct")]
    machineId := "mach"
    allocationId := "alloc" }

def webCreate : AdmissionRequest := .create "proj" ⟨"web", .small, .nbg1⟩

def recorded : IdempotencyRow :=
  ⟨"acct", .machines "proj", "key", .create ⟨"web", .small, .nbg1⟩, "create"⟩

/-- The first request of all. -/
def asked : Except Fault (OperationRow × Tables) :=
  admitRequest configured consulted [] ⟨[], []⟩ principal webCreate "key"

theorem asked_ok : ∃ operation tables, asked = .ok (operation, tables) ∧
    tables.reservations = [⟨"acct", "EUR", 7000⟩] ∧ tables.keys = [recorded] := by
  have h : asked.toOption.map (fun result => (result.2.reservations, result.2.keys)) =
      some ([⟨"acct", "EUR", 7000⟩], [recorded]) := by decide +kernel
  cases hasked : asked with
  | error fault =>
    rw [hasked] at h
    cases h
  | ok result =>
    rw [hasked] at h
    obtain ⟨hrows, hkeys⟩ := Prod.mk.inj (Option.some.inj h)
    exact ⟨result.1, result.2, rfl, hrows, hkeys⟩

theorem genuine_consulted : Genuine consulted.env.grants principal := by
  intro grant hgrant _
  obtain rfl := List.mem_singleton.mp hgrant
  rfl

theorem one_reached : ∃ fleet, Fleet.Reach configured anyReply false .empty fleet ∧
    fleet.tables.reservations = [⟨"acct", "EUR", 7000⟩] ∧ fleet.tables.keys = [recorded] := by
  obtain ⟨operation, tables, hasked, hrows, hkeys⟩ := asked_ok
  have hlock : Fleet.Step configured anyReply false .empty { Fleet.empty with admitting := some [] } :=
    .locks rfl
  exact ⟨_, (Relation.ReflTransGen.single hlock).tail
    (.admitted rfl consulted principal genuine_consulted webCreate "key" operation tables hasked),
    hrows, hkeys⟩

end Demo

end AgentCloud.Lifecycle
