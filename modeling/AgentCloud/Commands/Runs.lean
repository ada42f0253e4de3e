/-
  THE GUEST'S RUN COMMANDS: `createGuestRuns`, the wrapper's `command` and the unit's `work`, as
  programs of atomic actions.

  Every file is read and written by an action of its own.  A read may fail; a write happens or does
  not, and it may be reported as failed although it happened (`Write.lost`: the directory could not
  be synced).  What systemd and the child reply is arbitrary, within what `systemctl` means.

  Four fields of the store are not in the source and no program branches on them: how far a unit's
  worker is, what it has published, which run an inspection believes to have no result, and what the
  summaries of all runs have reported.
-/
import AgentCloud.Commands.Paging
import AgentCloud.Lib.Machine

namespace AgentCloud.Commands

open Checked Durable

/-! ## The machine -/

/-- How far the worker of an active unit is: before its checks, past them, past `started.json`, past
    `result.json`. -/
inductive Phase where
  | begun
  | cleared
  | marked
  | finished
  deriving DecidableEq, Repr

/-- What a summary returned, and what the worker had published when the summary began. -/
structure Report where
  id : RunId
  state : RunState
  published : Option RunResult
  deriving DecidableEq, Repr

structure Store where
  bootId : BootId
  /-- The names in the directory of runs. -/
  directory : List RunId
  records : RunId → Record
  /-- The active units, each with the phase of its worker. -/
  units : RunId → Option Phase
  published : RunId → Option RunResult
  /-- The run that the last inspection found without a result. -/
  looking : Option RunId
  reports : List Report

/-- What becomes of a write: it fails, it happens, or it happens and is reported as failed. -/
inductive Write where
  | refused
  | done
  | lost
  deriving DecidableEq, Repr

structure Env where
  now : Instant
  readable : Bool
  write : Write
  /-- `disk.bavail * disk.bsize`. -/
  freeBytes : Nat

/-- Everything a child does, and the code it closes with; none if a signal ended it. -/
structure Child where
  events : List ChildEvent
  code : Option Nat

inductive SystemCall where
  | start (id : RunId)
  | stop (id : RunId)
  | active (id : RunId)
  | activeCount
  | spawn (id : RunId) (request : RunRequest)

/-- `systemctl` may fail: then a state or a count is missing. -/
def SystemCall.Reply : SystemCall → Type
  | .start _ => Bool
  | .stop _ => Bool
  | .active _ => Option Bool
  | .activeCount => Option Nat
  | .spawn _ _ => Child

abbrev Guest : Interface where
  Env := Env
  Store := Store
  Call := SystemCall
  Reply := SystemCall.Reply
  Fault := Fault

abbrev Job (α : Type) := Prog Guest α

namespace Store

/-- Rewrites the record of one run. -/
def edit (s : Store) (id : RunId) (f : Record → Record) : Store :=
  { s with records := Function.update s.records id (f (s.records id)) }

def enter (s : Store) (id : RunId) (phase : Option Phase) : Store :=
  { s with units := Function.update s.units id phase }

def publish (s : Store) (id : RunId) (result : RunResult) : Store :=
  { s with published := Function.update s.published id (some result) }

end Store

/-! ## Files -/

def ioError : Fault := .other "Guest state file ownership, permissions or size are invalid."

def unavailable : Fault := .other "Durable command service is unavailable."

/-- A read, which may fail; `mark` is what the model remembers about it. -/
def loadAnd {α : Type} (f : Store → α) (mark : Store → Store) : Job α :=
  .transact fun env s => if env.readable then .ok (f s, mark s) else .error ioError

/-- `optional(...)`, and every other read. -/
def load {α : Type} (f : Store → α) : Job α := loadAnd f id

def clock : Job Instant := .observe fun env _ => env.now

/-- `atomicWrite`, `mkdir` and their syncs. -/
def save (f : Store → Store) : Job Unit := do
  let synced ← .transact fun env s =>
    match env.write with
    | .refused => .error ioError
    | .done => .ok (true, f s)
    | .lost => .ok (false, f s)
  if synced then pure () else .throw ioError

/-- `saved(id)`. -/
def saved (id : RunId) : Job SavedRequest := do
  let value ← load fun s => (s.records id).request
  .ofExcept (present (value.filter (·.id = id))
    (cloudError .notFound "Durable command does not exist."))

/-! ## systemd -/

def ask (c : SystemCall) : Job c.Reply := Prog.ask (S := Guest) c

def start (id : RunId) : Job Unit := do
  let ok : Bool ← ask (.start id)
  if ok then pure () else .throw unavailable

def stop (id : RunId) : Job Unit := do
  let ok : Bool ← ask (.stop id)
  if ok then pure () else .throw unavailable

def isActive (id : RunId) : Job Bool := do
  let state : Option Bool ← ask (.active id)
  .ofExcept (present state unavailable)

def activeCount : Job Nat := do
  let count : Option Nat ← ask .activeCount
  .ofExcept (present count unavailable)

/-! ## Summaries -/

/-- `sameBoot && (await input.system.active(id))`. -/
def activeNow (id : RunId) (sameBoot : Bool) : Job Bool :=
  if sameBoot then isActive id else pure false

/-- The outcome of a run whose worker is gone, saved. -/
def settle (id : RunId) (cancelled : Bool) : Job RunResult := do
  let now ← clock
  let result := .terminated (if cancelled then .cancelled else .interrupted) now
  save (·.edit id ({ · with result := some result }))
  pure result

/-- The result as it was read, or the one to be derived. -/
def outcome (id : RunId) (result : Option RunResult) (started cancelled : Option Instant)
    (sameBoot active : Bool) : Job (Option RunResult) :=
  if result.isNone ∧ (sameBoot = false ∨ (active = false ∧ (started.isSome ∨ cancelled.isSome)))
  then do
    let result ← settle id cancelled.isSome
    pure (some result)
  else pure result

def stateOf (result : Option RunResult) (started cancelled : Option Instant) : RunState :=
  match result, cancelled, started with
  | some result, _, _ => .final result
  | none, some _, _ => .cancelling
  | none, none, some startedAt => .running startedAt
  | none, none, none => .queued

/-- A summary returns. -/
def report (report : Report) : Job Unit :=
  .transact fun _ s => .ok ((), { s with reports := s.reports ++ [report] })

/-- `summary(id)`. -/
def summary (id : RunId) : Job RunSummary := do
  let published ← .read fun s => s.published id
  let request ← saved id
  let result ← loadAnd (fun s => (s.records id).result) fun s =>
    { s with looking := if (s.records id).result.isNone then some id else none }
  let started ← load fun s => (s.records id).started
  let cancelled ← load fun s => (s.records id).cancelled
  let bootId ← load (·.bootId)
  let sameBoot := decide (request.bootId = bootId)
  let active ← activeNow id sameBoot
  let result ← outcome id result started cancelled sameBoot active
  let state := stateOf result started cancelled
  report ⟨id, state, published⟩
  pure ⟨id, request.requestDigest, request.submittedAt, state⟩

/-! ## Commands -/

/-- The admission of a new invocation. -/
def admitRequest (id : RunId) (request : RunRequest) : Job Unit := do
  let retained ← load (·.directory.length)
  .ofExcept (refuse (retained ≥ 1024)
    (cloudError .quotaExceeded "Retained invocation limit reached."))
  let free ← .observe fun env _ => env.freeBytes
  .ofExcept (refuse (free < 268435456)
    (cloudError .quotaExceeded "Insufficient free disk for durable command records."))
  let count ← activeCount
  .ofExcept (refuse (count ≥ 4)
    (retryableError .resourceBusy "Concurrent command limit reached."))
  save fun s => { s with directory := if id ∈ s.directory then s.directory else s.directory ++ [id] }
  let bootId ← load (·.bootId)
  let now ← clock
  save (·.edit id ({ · with request := some ⟨id, request, request, bootId, now⟩ }))

/-- A queued run is asked to start, again if a reply was lost. -/
def startQueued (id : RunId) (current : RunSummary) : Job Unit :=
  if current.state = .queued then do
    let count ← activeCount
    .ofExcept (refuse (count ≥ 4) (retryableError .resourceBusy
      "Concurrent command limit reached; retain this invocation ID."))
    start id
  else pure ()

def admitNew (id : RunId) (request : RunRequest) (existing : Option SavedRequest) : Job Unit :=
  if existing.isNone then admitRequest id request else pure ()

def submit (id : RunId) (request : RunRequest) : Job Unit := do
  let existing ← load fun s => (s.records id).request
  .ofExcept (refuse (∃ saved ∈ existing, saved.requestDigest ≠ request.sorted)
    (cloudError .idempotencyConflict "Invocation ID belongs to a different request."))
  admitNew id request.sorted existing
  let current ← summary id
  startQueued id current

/-- The cancellation is recorded once, before the unit is stopped. -/
def recordCancel (id : RunId) (cancelled : Option Instant) : Job Unit :=
  if cancelled.isNone then do
    let now ← clock
    save (·.edit id ({ · with cancelled := some now }))
  else pure ()

def cancelRun (id : RunId) (current : RunSummary) : Job Unit :=
  if current.state.terminal = false then do
    let cancelled ← load fun s => (s.records id).cancelled
    recordCancel id cancelled
    stop id
  else pure ()

def cancel (id : RunId) : Job Unit := do
  let current ← summary id
  cancelRun id current

/-- What a command does before its reply is made. -/
def act : RunCommand → Job Unit
  | .submit id request => submit id request
  | .cancel id => cancel id
  | .inspect _ => pure ()
  | .logs _ _ => pure ()

/-- The entries of the output file, and the cursor. -/
def readLogs : RunCommand → Job (List LogEntry × Nat)
  | .logs id cursor => do
    let output ← load fun s => (s.records id).output
    pure (output.getD [], cursor)
  | _ => pure ([], 0)

/-- `command(command)`. -/
def command (c : RunCommand) : Job RunResponse := do
  -- the directory of runs is there and synced
  save fun s => s
  act c
  let run ← summary c.id
  let logs ← readLogs c
  .ofExcept (respond run logs.1 logs.2)

/-! ## The worker -/

/-- Writes the kept lines; the answer is whether one of the writes failed. -/
def writeLines (id : RunId) : List LogEntry → Job Bool
  | [] => pure false
  | entry :: entries => do
    let failed ← .tryCatch (do
        save (·.edit id fun record =>
          { record with output := record.output.map (· ++ [entry]) })
        pure false)
      fun _ => pure true
    let more ← writeLines id entries
    pure (failed || more)

/-- `execute(request, outputPath)`.  A failed write stops the child as an interruption does, which
    counts unless there was a reason before. -/
def execute (id : RunId) (request : RunRequest) : Job RunResult := do
  .transact fun env s =>
    if env.write = .refused ∨ (s.records id).output.isSome then .error ioError
    else .ok ((), s.edit id ({ · with output := some [] }))
  let child : Child ← ask (.spawn id request)
  let run := execution request.maximumOutputBytes child.events
  let failed ← writeLines id run.lines
  let now ← clock
  pure ((if failed then run.stop .interrupted else run).result child.code now)

/-- An interruption that was asked for is a cancellation. -/
def relabel (id : RunId) : RunResult → Job RunResult
  | .terminated .interrupted finishedAt => do
    let cancelled ← load fun s => (s.records id).cancelled
    pure (.terminated (if cancelled.isSome then .cancelled else .interrupted) finishedAt)
  | result => pure result

def publish (id : RunId) (result : RunResult) : Job Unit :=
  save fun s => ((s.edit id ({ · with result := some result })).publish id result).enter id
    (some .finished)

/-- The worker is past its checks. -/
def perform (id : RunId) (value : SavedRequest) : Job Unit := do
  let now ← clock
  save fun s => (s.edit id ({ · with started := some now })).enter id (some .marked)
  let result ← execute id value.request
  let result ← relabel id result
  publish id result

/-- `cancelled.json` is the last thing the worker looks for. -/
def unlessCancelled (id : RunId) (value : SavedRequest) (sameBoot : Bool) : Job Unit :=
  if sameBoot then do
    let cancelled ← loadAnd (fun s => (s.records id).cancelled) fun s =>
      if (s.records id).cancelled.isNone then s.enter id (some .cleared) else s
    if cancelled.isSome then pure () else perform id value
  else pure ()

def unlessFinished (id : RunId) (value : SavedRequest) (started : Bool) : Job Unit :=
  if started then pure ()
  else do
    let result ← load fun s => (s.records id).result
    if result.isSome then pure ()
    else do
      let bootId ← load (·.bootId)
      unlessCancelled id value (decide (value.bootId = bootId))

/-- `work(id)`. -/
def work (id : RunId) : Job Unit := do
  let value ← saved id
  let started ← load fun s => (s.records id).started
  unlessFinished id value started.isSome

/-! ## Who runs when -/

/-- The wrapper holds one lock around every command, a worker the lock of its run. -/
inductive Slot where
  | wrapper
  | worker (id : RunId)
  deriving DecidableEq, Repr

/-- What `systemctl` means: a unit that is said to be inactive, or to be stopped, has no worker. -/
def Honest (w : World Guest) : (c : SystemCall) → c.Reply → Prop
  | .active id, reply => reply = some false → w.store.units id = none
  | .stop id, reply => reply = true → w.store.units id = none
  | _, _ => True

/-- The condition: systemd does not say of a run that it is inactive to an inspection that found no
    result, when by now there is one. -/
def Attentive (w : World Guest) : (c : SystemCall) → c.Reply → Prop
  | .active id, reply =>
    reply = some false → w.store.looking = some id → (w.store.records id).result = none
  | _, _ => True

/-- After a reboot no unit is active, and the boot ID is one that no run was admitted under. -/
def Reboots (s s' : Store) : Prop :=
  ∃ bootId, (∀ id, ∀ request ∈ (s.records id).request, request.bootId ≠ bootId) ∧
    s' = { s with bootId, units := fun _ => none }

inductive IsJob : Slot → Job Unit → Prop where
  | command (c : RunCommand) : IsJob .wrapper (command c).ignore
  | work (id : RunId) : IsJob (.worker id) (work id)

/-- The guest; `attentive` restricts its runs to those whose steps all meet the condition. -/
def guest (attentive : Prop) : Machine Guest Slot where
  job := IsJob
  born
    | .wrapper, s => s
    | .worker id, s => s.enter id (some .begun)
  gone
    | .wrapper, s => s
    | .worker id, s => s.enter id none
  reboot := Reboots
  allows w c reply := Honest w c reply ∧ (attentive → Attentive w c reply)

/-- A guest on which nothing ever ran. -/
def Store.fresh (bootId : BootId) : Store :=
  ⟨bootId, [], fun _ => .none, fun _ => none, fun _ => none, none, []⟩

end AgentCloud.Commands
