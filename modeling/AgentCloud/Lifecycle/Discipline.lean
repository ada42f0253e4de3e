/-
  THE DISCIPLINE OF THE WORKERS: what a worker may do, what it may count on, and the system they run in.

  One worker at a time holds a machine's lock, so the pool has one slot.  Between two of its actions
  only two things happen: time passes, and, on a machine that is not busy, an action is admitted.
  A worker on a busy machine therefore knows the journal exactly.

  A worker changes the journal by chains of the elementary changes, asks the provider what it likes,
  and asks for an effect only with a committed attempt that was never submitted before.  While a
  cleanup is admitted, the effect is moreover a deletion that the cleanup is cleared for.
-/
import AgentCloud.Lifecycle.Invariant
import AgentCloud.Lib.Triple

namespace AgentCloud.Lifecycle

open Checked Durable

/-! ## Submissions -/

/-- The attempt that a call submits. -/
def Call.attempt? : Call → Option AttemptId
  | submit attemptId _ => some attemptId
  | _ => none

/-- How often an attempt was submitted. -/
def submissions (log : Log) (id : AttemptId) : Nat :=
  log.countP fun exchange => exchange.call.attempt? = some id

theorem submissions_quiet {log : Log} {exchange : Exchange interface} {id : AttemptId}
    (h : exchange.call.attempt? ≠ some id) :
    submissions (log ++ [exchange]) id = submissions log id := by
  simp [submissions, h]

theorem submissions_submit {log : Log} {exchange : Exchange interface} {id : AttemptId}
    (h : exchange.call.attempt? = some id) :
    submissions (log ++ [exchange]) id = submissions log id + 1 := by
  simp [submissions, h]

/-- What a cleanup submits: the deletion of an exact resource that is not recorded absent.  An
    address only once no server is left or to come; a server that is still to come keeps the address
    of the one that is deleted. -/
def Cleared (log : Log) (journal : Journal) (cleanup : OperationCleanup)
    (command : ProviderCommand) : Prop :=
  ∃ ref, command = .deletion ref ∧ (journal.resource ref).any OwnedResource.live = true ∧
    (ref.kind = .primaryIp →
      pendingServer journal cleanup.sourceOperationId = false ∧ liveServer journal = false) ∧
    (ref.kind = .server →
      pendingServer journal cleanup.sourceOperationId = true → Detached log ref.id)

/-! ## What a worker may do -/

/-- The changes of one transaction. -/
abbrev Changes (A : Replies) (log : Log) (clock : Instant) : Journal → Journal → Prop :=
  Relation.ReflTransGen (Change A log clock)

inductive Does (A : Replies) (w : World interface) : World interface → Prop where
  | write (journal : Journal) (h : Changes A w.log w.store.clock w.store.journal journal) :
      Does A w (w.put (w.store.write journal))
  | ask (c : Call) (r : c.Reply) (quiet : c.attempt? = none) (allowed : A w ⟨c, r⟩) :
      Does A w (w.exchange c r)
  | submit {operation : OperationRow} (active : w.store.journal.Active operation)
      {attempt : Attempt} (mem : attempt ∈ w.store.journal.attempts)
      (owner : attempt.operationId = operation.id) (prepared : attempt.outcome = .prepared)
      (pending : attempt.resolution = .pending) (unasked : submissions w.log attempt.id = 0)
      (cleared : ∀ cleanup ∈ w.store.journal.cleanups,
        Cleared w.log w.store.journal cleanup attempt.command)
      (r : (Call.submit attempt.id attempt.command).Reply)
      (allowed : A w ⟨.submit attempt.id attempt.command, r⟩) :
      Does A w (w.exchange (.submit attempt.id attempt.command) r)

theorem Does.refl (A : Replies) (w : World interface) : Does A w w :=
  .write w.store.journal .refl

/-! ## What holds of the world -/

structure Valid (w : World interface) : Prop where
  sound : Sound w.store.journal
  timely : w.store.journal.attempts.Pairwise (fun a b => a.createdAt ≤ b.createdAt) ∧
    ∀ a ∈ w.store.journal.attempts, a.createdAt ≤ w.store.clock
  submitted : ∀ exchange ∈ w.log, ∀ id command, exchange.call = .submit id command →
    ∃ a ∈ w.store.journal.attempts, a.id = id ∧ a.command = command
  once : ∀ id, submissions w.log id ≤ 1

/-- Attempts are added at the present time, and what they are never changes. -/
structure AttemptsGrow (clock : Instant) (old new : List Attempt) : Prop where
  kept : ∀ a ∈ old, ∃ b ∈ new, a.Same b
  timely : old.Pairwise (fun a b => a.createdAt ≤ b.createdAt) ∧
      (∀ a ∈ old, a.createdAt ≤ clock) →
    new.Pairwise (fun a b => a.createdAt ≤ b.createdAt) ∧ ∀ a ∈ new, a.createdAt ≤ clock

theorem Attempt.Same.refl (a : Attempt) : a.Same a := ⟨rfl, rfl, rfl, rfl, rfl⟩

theorem Attempt.Same.trans {a b c : Attempt} (h : a.Same b) (h' : b.Same c) : a.Same c :=
  ⟨h'.id.trans h.id, h'.operationId.trans h.operationId, h'.sequence.trans h.sequence,
    h'.command.trans h.command, h'.createdAt.trans h.createdAt⟩

namespace AttemptsGrow

variable {clock : Instant} {old new newer : List Attempt}

theorem refl : AttemptsGrow clock old old := ⟨fun a ha => ⟨a, ha, .refl a⟩, fun h => h⟩

theorem trans (h : AttemptsGrow clock old new) (h' : AttemptsGrow clock new newer) :
    AttemptsGrow clock old newer := by
  refine ⟨fun a ha => ?_, fun ht => h'.timely (h.timely ht)⟩
  obtain ⟨b, hb, hab⟩ := h.kept a ha
  obtain ⟨c, hc, hbc⟩ := h'.kept b hb
  exact ⟨c, hc, hab.trans hbc⟩

theorem map {f : Attempt → Attempt} (hf : ∀ a : Attempt, a.Same (f a)) :
    AttemptsGrow clock old (old.map f) := by
  refine ⟨fun a ha => ⟨f a, List.mem_map.mpr ⟨a, ha, rfl⟩, hf a⟩, fun ⟨hsorted, hpast⟩ => ⟨?_, ?_⟩⟩
  · rw [List.pairwise_map]
    refine hsorted.imp fun {a b} hab => ?_
    rw [(hf a).createdAt, (hf b).createdAt]
    exact hab
  · intro b hb
    obtain ⟨a, ha, rfl⟩ := List.mem_map.mp hb
    rw [(hf a).createdAt]
    exact hpast a ha

end AttemptsGrow

theorem Change.attemptsGrow {A : Replies} {log : Log} {clock : Instant} {journal journal' : Journal}
    (change : Change A log clock journal journal') :
    AttemptsGrow clock journal.attempts journal'.attempts := by
  cases change with
  | prepare active live new fresh owner prepared pending now target authority =>
    refine ⟨fun a ha => ⟨a, List.mem_append_left _ ha, .refl a⟩, fun ⟨hsorted, hpast⟩ => ⟨?_, ?_⟩⟩
    · refine List.pairwise_append.mpr ⟨hsorted, by simp, fun a ha b hb => ?_⟩
      obtain rfl := List.mem_singleton.mp hb
      rw [now]
      exact hpast a ha
    · intro a ha
      rcases List.mem_append.mp ha with ha | ha
      · exact hpast a ha
      · obtain rfl := List.mem_singleton.mp ha
        exact Nat.le_of_eq now
  | outcome => exact .map fun a => by split <;> exact ⟨rfl, rfl, rfl, rfl, rfl⟩
  | settle => exact .map fun a => by split <;> exact ⟨rfl, rfl, rfl, rfl, rfl⟩
  | closure => exact .map fun a => by split <;> exact ⟨rfl, rfl, rfl, rfl, rfl⟩
  | controlClosed => exact .map fun a => by split <;> exact ⟨rfl, rfl, rfl, rfl, rfl⟩
  | progress => exact .refl
  | claim => exact .refl
  | bind => exact .refl
  | absent => exact .refl
  | compensate => exact .refl
  | failed => exact .refl
  | completed => exact .refl
  | cleaned => exact .refl
  | takeover => exact .refl
  | opened => exact .refl
  | granted => exact .refl

/-- What every change keeps, a transaction keeps. -/
theorem Changes.keep {A : Replies} {log : Log} {clock : Instant} {journal journal' : Journal}
    {P : Journal → Prop} (changes : Changes A log clock journal journal')
    (hstep : ∀ {j j'}, Sound j → P j → Change A log clock j j' → P j') (h : Sound journal)
    (hP : P journal) : Sound journal' ∧ P journal' := by
  induction changes with
  | refl => exact ⟨h, hP⟩
  | tail _ change ih => exact ⟨change.sound ih.1, hstep ih.1 ih.2 change⟩

theorem Changes.sound {A : Replies} {log : Log} {clock : Instant} {journal journal' : Journal}
    (changes : Changes A log clock journal journal') (h : Sound journal) : Sound journal' :=
  (changes.keep (P := fun _ => True) (fun _ _ _ => trivial) h trivial).1

theorem Changes.attemptsGrow {A : Replies} {log : Log} {clock : Instant}
    {journal journal' : Journal} (changes : Changes A log clock journal journal') :
    AttemptsGrow clock journal.attempts journal'.attempts := by
  induction changes with
  | refl => exact .refl
  | tail _ change ih => exact ih.trans change.attemptsGrow

/-- **Step lemma.**  What a worker may do keeps the world in order. -/
theorem Does.valid {A : Replies} {w w' : World interface} (h : Valid w) (does : Does A w w') :
    Valid w' := by
  cases does with
  | write journal changes =>
    have hgrow := changes.attemptsGrow
    refine ⟨changes.sound h.sound, hgrow.timely h.timely, fun exchange hm id command hcall => ?_,
      h.once⟩
    obtain ⟨a, ha, hid, hcommand⟩ := h.submitted exchange hm id command hcall
    obtain ⟨b, hb, hsame⟩ := hgrow.kept a ha
    exact ⟨b, hb, hsame.id.trans hid, hsame.command.trans hcommand⟩
  | ask c r quiet allowed =>
    refine ⟨h.sound, h.timely, fun exchange hm id command hcall => ?_, fun id => ?_⟩
    · rcases List.mem_append.mp hm with hm | hm
      · exact h.submitted exchange hm id command hcall
      · obtain rfl := List.mem_singleton.mp hm
        rw [show c = .submit id command from hcall] at quiet
        cases quiet
    · rw [World.exchange_log, submissions_quiet (by simp [quiet])]
      exact h.once id
  | @submit operation active attempt mem owner prepared pending unasked cleared r allowed =>
    refine ⟨h.sound, h.timely, fun exchange hm id command hcall => ?_, fun id => ?_⟩
    · rcases List.mem_append.mp hm with hm | hm
      · exact h.submitted exchange hm id command hcall
      · obtain rfl := List.mem_singleton.mp hm
        obtain ⟨rfl, rfl⟩ := Call.submit.inj hcall
        exact ⟨attempt, mem, rfl, rfl⟩
    · by_cases hid : attempt.id = id
      · subst hid
        rw [World.exchange_log, submissions_submit rfl]
        omega
      · rw [World.exchange_log, submissions_quiet (by simp [Call.attempt?, hid])]
        exact h.once id

/-! ## What happens besides -/

/-- The commands that are admitted as actions. -/
def LifecycleCommand.isAction (command : LifecycleCommand) : Bool :=
  decide (command.kind ≠ .create ∧ command.kind ≠ .destroy)

/-- Between two actions of a worker: time passes, or an action is admitted. -/
inductive Drift (w : World interface) : World interface → Prop where
  | time (clock : Instant) (h : w.store.clock ≤ clock) : Drift w (w.put { w.store with clock })
  | admitted (limits : Limits) (catalog : Catalog) (env : Env) (account : Account)
      (principal : Principal) (command : LifecycleCommand) (action : command.isAction = true)
      (operation : OperationRow) (journal : Journal)
      (ok : admitAction limits catalog env w.store.journal account principal command =
        .ok (operation, journal)) : Drift w (w.put (w.store.write journal))

/-- What a worker may count on. -/
structure Sees (w w' : World interface) : Prop where
  log : w'.log = w.log
  clock : w.store.clock ≤ w'.store.clock
  journal : w.store.journal.busy = true → w'.store.journal = w.store.journal

theorem Sees.refl (w : World interface) : Sees w w := ⟨rfl, Nat.le_refl _, fun _ => rfl⟩

theorem Sees.trans {u v w : World interface} (h : Sees u v) (h' : Sees v w) : Sees u w where
  log := h'.log.trans h.log
  clock := Nat.le_trans h.clock h'.clock
  journal hbusy := by
    have hv := h.journal hbusy
    exact (h'.journal (by rw [hv]; exact hbusy)).trans hv

/-- What an admitted action has found, and has written. -/
structure Admission (journal journal' : Journal) (operation : OperationRow) : Prop where
  free : journal.busy = false
  live : journal.allocation.live = true
  fresh : journal.operation operation.id = none
  queued : operation.progress = .queued
  run : operation.intent = .run
  action : operation.command.isAction = true
  eq : ∃ hourlyMicros version, journal' = { journal with
    machine := { journal.machine with version }
    allocation := { journal.allocation with hourlyMicros }
    operations := journal.operations ++ [operation] }

theorem reserve_ok {limits : Limits} {catalog : Catalog} {env : Env} {journal journal' : Journal}
    {account : Account} {principal : Principal} {command : LifecycleCommand}
    {offer : Option CatalogItem}
    (h : reserve limits catalog env journal account principal command = .ok (offer, journal')) :
    ∃ hourlyMicros, journal' =
      { journal with allocation := { journal.allocation with hourlyMicros } } := by
  cases command with
  | resize version size =>
    simp only [reserve, reserveResize, updateAllocation, bind_ok_iff, pure_ok_iff] at h
    obtain ⟨⟨item, j⟩, ⟨-, -, item', -, -, -, -, -, -, -, j', ⟨-, -, rfl⟩, hpair⟩, hj⟩ := h
    obtain ⟨rfl, rfl⟩ := Prod.mk.inj hpair
    obtain ⟨-, rfl⟩ := Prod.mk.inj hj
    exact ⟨_, rfl⟩
  | create | reboot | powerOff | powerOn | destroy =>
    obtain ⟨-, rfl⟩ := Prod.mk.inj (Except.ok.inj h)
    exact ⟨journal.allocation.hourlyMicros, rfl⟩

theorem admission_of_ok {limits : Limits} {catalog : Catalog} {env : Env}
    {journal journal' : Journal} {account : Account} {principal : Principal}
    {command : LifecycleCommand} (action : command.isAction = true) {operation : OperationRow}
    (h : admitAction limits catalog env journal account principal command =
      .ok (operation, journal')) : Admission journal journal' operation := by
  simp only [admitAction, bind_ok_iff, pure_ok_iff, refuse_ok_iff, insertOperation] at h
  obtain ⟨-, -, -, -, -, -, -, hfree, -, hlive, ⟨offer, reserved⟩, hreserve, inserted, ⟨-, hfresh, rfl⟩,
    hpair⟩ := h
  obtain ⟨hourlyMicros, rfl⟩ := reserve_ok hreserve
  obtain ⟨rfl, rfl⟩ := Prod.mk.inj hpair
  exact {
    free := by simpa using hfree
    live := by
      cases hl : journal.allocation.live with
      | true => rfl
      | false => exact absurd (.inl hl) hlive
    fresh := by
      simp only [Journal.operation, not_or, not_not] at hfresh
      exact hfresh.1
    queued := rfl
    run := rfl
    action
    eq := ⟨hourlyMicros, journal.machine.version + 1, rfl⟩ }

/-- An admitted action keeps the journal in order. -/
theorem Admission.sound {journal journal' : Journal} {operation : OperationRow}
    (h : Admission journal journal' operation) (hs : Sound journal) : Sound journal' := by
  obtain ⟨hourlyMicros, version, rfl⟩ := h.eq
  have haction := h.action
  simp only [LifecycleCommand.isAction, decide_eq_true_eq] at haction
  have := hs.admitted h.free h.live h.fresh
    (by simp [OperationRow.terminal, h.queued, OperationProgress.terminal]) haction.1 []
    (.inl ⟨rfl, h.run, haction.2⟩) { journal.machine with version } rfl
    { journal.allocation with hourlyMicros } h.live
  simpa using this

theorem Drift.sees {w w' : World interface} (h : Drift w w') : Sees w w' := by
  cases h with
  | time clock hclock => exact ⟨rfl, hclock, fun _ => rfl⟩
  | admitted limits catalog env account principal command action operation journal ok =>
    refine ⟨rfl, Nat.le_refl _, fun hbusy => ?_⟩
    rw [(admission_of_ok action ok).free] at hbusy
    cases hbusy

/-- **Step lemma.**  What happens besides keeps the world in order. -/
theorem Drift.valid {w w' : World interface} (hw : Valid w) (h : Drift w w') : Valid w' := by
  cases h with
  | time clock hclock =>
    exact ⟨hw.sound, ⟨hw.timely.1, fun a ha => Nat.le_trans (hw.timely.2 a ha) hclock⟩,
      hw.submitted, hw.once⟩
  | admitted limits catalog env account principal command action operation journal ok =>
    have hadmission := admission_of_ok action ok
    have hattempts : journal.attempts = w.store.journal.attempts := by
      obtain ⟨hourlyMicros, version, rfl⟩ := hadmission.eq
      rfl
    refine ⟨hadmission.sound hw.sound, ?_, ?_, hw.once⟩
    · rw [show (w.put (w.store.write journal)).store.journal.attempts = journal.attempts from rfl,
        hattempts]
      exact hw.timely
    · rw [show (w.put (w.store.write journal)).store.journal.attempts = journal.attempts from rfl,
        hattempts]
      exact hw.submitted

/-! ## The contract -/

/-- The contract of the one worker. -/
def contract (A : Replies) : Contract interface Unit where
  valid := Valid
  rely _ := Sees
  does _ := Does A
  allows w c r := A w ⟨c, r⟩
  rely_refl _ := Sees.refl
  rely_trans := Sees.trans
  does_valid := Does.valid
  does_rely _ hne _ := absurd rfl hne

/-! ## The system -/

/-- The workers of a machine.  `offline`: control recovery has fenced the control plane, and may
    close operations. -/
inductive Job : Bool → Program Unit → Prop where
  | tick (offline : Bool) (config : Config) (operationId : OperationId) :
      Job offline (advanceLocked config operationId)
  | destroy (offline : Bool) (grantId : GrantId) (expectedVersion : Nat) (allowDataLoss : Bool) :
      Job offline (admitCleanup grantId expectedVersion allowDataLoss)
  | recover (offline : Bool) (provider : ProviderKind) (request : OperatorRecovery) :
      Job offline (applyRecovery provider request)
  | handoff (offline : Bool) (operationId : OperationId) :
      Job offline (handoffRuntime operationId)
  | close (provider : ProviderKind) (request : CloseRequest) :
      Job true (closeOperation provider request)

/-- The control plane of one machine, with the replies that are considered. -/
def system (A : Replies) (offline : Bool) : System interface Unit where
  job _ := Job offline
  other := Drift
  allows w c r := A w ⟨c, r⟩

/-- Every reply. -/
def anyReply : Replies := fun _ _ => True

/-- A machine as it was admitted.  Allocations older than managed addresses have the legacy
    profile. -/
structure Born (journal : Journal) : Prop where
  born : ∃ machineId allocationId operationId principal projectId spec catalog offer date profile,
    offer ∈ (catalog : Catalog).items ∧
    journal = { newJournal machineId allocationId operationId principal projectId spec
        catalog.provider offer date with
      allocation := { (newJournal machineId allocationId operationId principal projectId spec
        catalog.provider offer date).allocation with networkProfile := profile } }

/-- Nothing was asked of the provider yet. -/
structure Initial (w : World interface) : Prop where
  quiet : w.log = []
  born : Born w.store.journal

theorem Born.sound {journal : Journal} (h : Born journal) : Sound journal := by
  obtain ⟨machineId, allocationId, operationId, principal, projectId, spec, catalog, offer, date,
    profile, hoffer, rfl⟩ := h.born
  exact {
    operations := {
      keyed := by simp [newJournal, Table.Keyed]
      one := by simp [newJournal]
      source := by simp [newJournal, OperationRow.kind, LifecycleCommand.kind]
      create := by simp [newJournal]
      alone := by simp [newJournal]
      single := by simp [newJournal]
      executor := by simp [newJournal]
      origin := by simp [newJournal]
      joined := by simp [newJournal, OperationRow.isCleanup]
      destroys := by simp [newJournal, OperationRow.kind, LifecycleCommand.kind]
      cleans := by simp [newJournal, OperationRow.isCleanup]
      compensates := by simp [newJournal]
      replaced := by simp [newJournal]
      ended := by simp [newJournal, OperationRow.isCleanup]
      cancelled := by simp [newJournal]
      retired := by simp [newJournal, Allocation.live] }
    attempts := by constructor <;> simp [newJournal, Table.Keyed]
    ledger := by constructor <;> simp [newJournal, Table.Keyed]
    settled := by simp [Settled, newJournal]
    standing := by simp [newJournal, MachineState.stage] }

theorem Initial.valid {w : World interface} (h : Initial w) : Valid w := by
  have hnone : w.store.journal.attempts = [] := by
    obtain ⟨machineId, allocationId, operationId, principal, projectId, spec, catalog, offer, date,
      profile, hoffer, heq⟩ := h.born.born
    rw [heq]
    rfl
  refine ⟨h.born.sound, ?_, ?_, ?_⟩
  · simp [hnone]
  · simp [h.quiet]
  · simp [h.quiet, submissions]

end AgentCloud.Lifecycle
