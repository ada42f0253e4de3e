/-
  RUNS: how a fact about one change becomes a fact about every run.

  A run of the control plane of one machine is any interleaving of ticks, destroys, operator
  decisions, enrollment steps, closures and admissions, with a process death after any action and
  any reply.  `run_invariant` is the one induction over it: what each elementary change, each
  exchange and each admission keeps, every run keeps.  The theorems on runs that follow in the other
  modules are its instances.
-/
import AgentCloud.Lifecycle.Recovering

namespace AgentCloud.Lifecycle

open Checked Durable

/-- The control plane of a machine: its world, and the worker that holds its lock. -/
abbrev Machine := Durable.Config interface Unit

variable {A : Replies} {offline : Bool}

/-! ## One step -/

/-- What holds when an effect is asked for. -/
structure Submits (w : World interface) (attempt : Attempt) : Prop where
  active : ∃ operation, w.store.journal.Active operation ∧ attempt.operationId = operation.id
  mem : attempt ∈ w.store.journal.attempts
  prepared : attempt.outcome = .prepared
  pending : attempt.resolution = .pending
  unasked : submissions w.log attempt.id = 0
  cleared : ∀ cleanup ∈ w.store.journal.cleanups,
    Cleared w.log w.store.journal cleanup attempt.command

/-- A change of the world that asks for an effect. -/
theorem Does.submits {w w' : World interface} (does : Does A w w') {attemptId : AttemptId}
    {command : ProviderCommand} {r : (Call.submit attemptId command).Reply}
    (hlog : w'.log = w.log ++ [⟨.submit attemptId command, r⟩]) :
    ∃ attempt, attempt.id = attemptId ∧ attempt.command = command ∧ Submits w attempt := by
  cases does with
  | write journal changes =>
    have hlength := congrArg List.length hlog
    simp at hlength
  | ask c r' quiet allowed =>
    obtain ⟨-, hlast⟩ := List.append_inj' hlog rfl
    have hcall : c = .submit attemptId command := congrArg Exchange.call (List.cons.inj hlast).1
    rw [hcall] at quiet
    cases quiet
  | @submit operation active attempt mem owner prepared pending unasked cleared r' allowed =>
    obtain ⟨-, hlast⟩ := List.append_inj' hlog rfl
    have hcall : Call.submit attempt.id attempt.command = .submit attemptId command :=
      congrArg Exchange.call (List.cons.inj hlast).1
    obtain ⟨hid, hcommand⟩ := Call.submit.inj hcall
    exact ⟨attempt, hid, hcommand, ⟨operation, active, owner⟩, mem, prepared, pending, unasked,
      cleared⟩

theorem Initial.inOrder {w : World interface} (h : Initial w) {c : Machine}
    (hreach : (system A offline).Reach (.idle w) c) : Discipline.InOrder (contract A) c :=
  (disciplined A offline).inOrder (Discipline.inOrder_idle h.valid) hreach

/-- **Step lemma.**  An effect is asked for with its own committed attempt, prepared and never
    submitted before. -/
theorem submits_of_step {c c' : Machine} (hin : Discipline.InOrder (contract A) c)
    (hstep : (system A offline).Step c c') {attemptId : AttemptId} {command : ProviderCommand}
    {r : (Call.submit attemptId command).Reply}
    (hlog : c'.world.log = c.world.log ++ [⟨.submit attemptId command, r⟩]) :
    ∃ attempt, attempt.id = attemptId ∧ attempt.command = command ∧
      Submits c.world attempt := by
  have hlonger : c'.world.log.length = c.world.log.length + 1 := by simp [hlog]
  have heffect := ((disciplined A offline).step hin hstep).2
  generalize c'.world = w' at heffect hlog hlonger
  cases heffect with
  | idle => omega
  | does k hdoes => exact Does.submits hdoes hlog
  | other hother =>
    have hsame : w'.log = c.world.log := (Drift.sees hother).log
    rw [hsame] at hlonger
    omega

/-! ## Every run -/

/-- **Run lemma.**  What every change, exchange and admission keeps, every run keeps. -/
theorem run_invariant {P : World interface → Prop}
    (hchange : ∀ {w : World interface} {journal : Journal}, Valid w → P w →
      Change A w.log w.store.clock w.store.journal journal → P (w.put (w.store.write journal)))
    (hask : ∀ {w : World interface} {q : Call} {r : q.Reply}, Valid w → P w → q.attempt? = none →
      A w ⟨q, r⟩ → P (w.exchange q r))
    (hsubmit : ∀ {w : World interface} {attempt : Attempt}
      {r : (Call.submit attempt.id attempt.command).Reply}, Valid w → P w → Submits w attempt →
      A w ⟨.submit attempt.id attempt.command, r⟩ →
      P (w.exchange (.submit attempt.id attempt.command) r))
    (htime : ∀ {w : World interface} {clock : Instant}, Valid w → P w → w.store.clock ≤ clock →
      P (w.put { w.store with clock }))
    (hadmitted : ∀ {w : World interface} {limits : Limits} {catalog : Catalog} {env : Env}
      {account : Account} {principal : Principal} {command : LifecycleCommand}
      {operation : OperationRow} {journal : Journal}, Valid w → P w → command.isAction = true →
      admitAction limits catalog env w.store.journal account principal command =
        .ok (operation, journal) → P (w.put (w.store.write journal)))
    {c c' : Machine} (hin : Discipline.InOrder (contract A) c) (hP : P c.world)
    (hreach : (system A offline).Reach c c') : P c'.world := by
  refine (disciplined A offline).invariant (fun {_ w w'} hvalid hw hdoes => ?_)
    (fun {w w'} hvalid hw hother => ?_) hin hP hreach
  · cases (show Does A w w' from hdoes) with
    | write journal changes =>
      -- a transaction is a chain of changes, and each of its prefixes is a world in order
      have hchain : ∀ {j}, Changes A w.log w.store.clock w.store.journal j →
          P (w.put (w.store.write j)) := by
        intro j hj
        induction hj with
        | refl => exact hw
        | @tail before after hbefore hlast ih =>
          exact hchange (w := w.put (w.store.write before))
            (Does.valid hvalid (.write before hbefore)) ih hlast
      exact hchain changes
    | ask q r quiet allowed => exact hask hvalid hw quiet allowed
    | @submit operation active attempt mem owner prepared pending unasked cleared r allowed =>
      exact hsubmit hvalid hw
        ⟨⟨operation, active, owner⟩, mem, prepared, pending, unasked, cleared⟩ allowed
  · cases (show Drift w w' from hother) with
    | time clock later => exact htime hvalid hw later
    | admitted limits catalog env account principal command action operation journal ok =>
      exact hadmitted hvalid hw action ok

/-- What is about the rows alone. -/
theorem run_rows {P : Journal → Prop}
    (hchange : ∀ {log : Log} {clock : Instant} {journal journal' : Journal}, Sound journal →
      P journal → Change A log clock journal journal' → P journal')
    (hadmitted : ∀ {limits : Limits} {catalog : Catalog} {env : Env}
      {account : Account} {principal : Principal} {command : LifecycleCommand}
      {operation : OperationRow} {journal journal' : Journal}, Sound journal → P journal →
      command.isAction = true →
      admitAction limits catalog env journal account principal command =
        .ok (operation, journal') → P journal')
    {c c' : Machine} (hin : Discipline.InOrder (contract A) c) (hP : P c.world.store.journal)
    (hreach : (system A offline).Reach c c') : P c'.world.store.journal :=
  run_invariant (P := fun w => P w.store.journal)
    (fun hvalid hw change => hchange hvalid.sound hw change) (fun _ hw _ _ => hw)
    (fun _ hw _ _ => hw) (fun _ hw _ => hw)
    (fun hvalid hw action ok => hadmitted hvalid.sound hw action ok) hin hP hreach

/-! ## A machine that is created and destroyed -/

namespace Demo

def policy : GrantPolicy :=
  { capabilities := [.machineCreate, .machineOperate, .machineDestroy, .machineDestroyDataLoss]
    projects := .all
    sizes := [.small, .medium]
    regions := [.nbg1]
    maxMachines := 2
    currency := "EUR"
    maxHourlyMicros := 20000 }

def principal : Principal := ⟨"acct", "root", policy⟩

def offer : CatalogItem :=
  { size := .small
    serverType := "cx22"
    region := .nbg1
    architecture := .x86
    diskGb := 40
    available := true
    currency := "EUR"
    serverHourlyMicros := 6000
    ipv4HourlyMicros := 1000
    providerBackups := .disabled
    hourlyMicros := 7000
    total := rfl }

def catalog : Catalog := ⟨.simulated, 0, 1000000, [offer], by simp [offer]⟩

def config : Config := ⟨.simulated, ⟨"EUR", 10, 100000⟩, false⟩

/-- A machine older than managed addresses. -/
def born : Journal :=
  let journal := newJournal "mach" "alloc" "create" principal "proj" ⟨"web", .small, .nbg1⟩
    .simulated offer 0
  { journal with allocation := { journal.allocation with networkProfile := .legacy } }

def start : World interface := ⟨⟨1000, born⟩, []⟩

theorem start_initial : Initial start :=
  ⟨rfl, ⟨"mach", "alloc", "create", principal, "proj", ⟨"web", .small, .nbg1⟩, catalog, offer, 0,
    .legacy, by simp [catalog], rfl⟩⟩

def env (w : World interface) : Env :=
  { id := match w.store.journal.operations.length, w.store.journal.attempts.length with
      | 1, 0 => "create-1"
      | 1, _ => "destroy"
      | _, 1 => "delete-1"
      | _, _ => "delete-2"
    date := w.store.clock
    grants := [⟨"root", "acct", none, policy, 10000000, none⟩]
    account := some ⟨"acct", "EUR", 2, 20000⟩
    others := []
    bound := fun _ => false
    refused := none
    identityIssued := false
    recovering := none }

def labels : Labels :=
  allocationLabels born.machine born.allocation ++ [("operation_id", "create")]

def server : ProviderServer := ⟨"srv", "cx22", "nbg1", .running, labels, none, .unknown⟩

/-- A provider that does what it is asked for at once. -/
def reply (w : World interface) : (c : Call) → c.Reply
  | .getCatalog => .ok catalog
  | .submit _ (.destroy id) => .ok (.completed ⟨.server, id⟩)
  | .submit .. => .ok (.completed ⟨.server, "srv"⟩)
  | .getAction _ => .ok .succeeded
  | .getServer _ =>
    if w.log.any fun exchange => exchange.call.attempt? = some "delete-1" then .ok none
    else .ok (some server)
  | .findServers _ => .ok []
  | .getPrimaryIp _ => .ok none
  | .findPrimaryIps _ => .ok []
  | .resolveImage _ => .ok "image"
  | .prepareBootstrap .. => .ok "bootstrap"
  | .inspectGuest _ => .ok .waiting

def run (p : Program Unit) (w : World interface) : World interface := (p.run env reply w).2

def tick (id : OperationId) : World interface → World interface :=
  run (advanceLocked config id)

def created : World interface := tick "create" (tick "create" (tick "create" start))
def cleaning : World interface := run (admitCleanup "root" 2 true) created
def destroyed : World interface :=
  tick "destroy" (tick "destroy" (tick "destroy" (tick "destroy" cleaning)))

theorem run_reachable {offline : Bool} {p : Program Unit} (job : Job offline p)
    (w : World interface) : (system anyReply offline).Reach (.idle w) (.idle (run p w)) :=
  System.reach_job _ () env reply (fun _ _ => trivial) p w job

theorem tick_reachable {offline : Bool} (id : OperationId) (w : World interface) :
    (system anyReply offline).Reach (.idle w) (.idle (tick id w)) :=
  run_reachable (.tick offline config id) w

theorem created_reachable (offline : Bool) :
    (system anyReply offline).Reach (.idle start) (.idle created) :=
  (tick_reachable _ _).trans ((tick_reachable _ _).trans (tick_reachable _ _))

theorem cleaning_reachable (offline : Bool) :
    (system anyReply offline).Reach (.idle created) (.idle cleaning) :=
  run_reachable (.destroy offline "root" 2 true) created

theorem destroyed_reachable (offline : Bool) :
    (system anyReply offline).Reach (.idle cleaning) (.idle destroyed) :=
  (tick_reachable _ _).trans
    ((tick_reachable _ _).trans ((tick_reachable _ _).trans (tick_reachable _ _)))

theorem destroyed_reached (offline : Bool) :
    (system anyReply offline).Reach (.idle start) (.idle destroyed) :=
  (created_reachable offline).trans
    ((cleaning_reachable offline).trans (destroyed_reachable offline))

end Demo

end AgentCloud.Lifecycle
