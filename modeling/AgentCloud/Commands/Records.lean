/-
  DURABLE COMMANDS: the records of an invocation and the schemas of a request and a reply, as
  `packages/contracts/src/runs.ts` and `packages/guestctl/src/runs.ts` declare them.

  An invocation is one directory with up to five files.  `request.json` is written at admission,
  `started.json` before the command is spawned, `cancelled.json` when a cancellation is asked for,
  `result.json` by the worker or by an inspection that found the worker gone, and `output.jsonl`
  line by line while the command runs.

  The digest of a request stands for the request it is the digest of: environment variables are
  brought into the order of `localeCompare` first, so that two spellings of one request agree.
-/
import AgentCloud.Contracts
import AgentCloud.Lib.Utf

namespace AgentCloud.Commands

open Utf

abbrev RunId := String

/-- `/proc/sys/kernel/random/boot_id`. -/
abbrev BootId := String

/-! ## Requests -/

structure RunRequest where
  argv : List String
  cwd : String
  env : List (String × String)
  stdin : Text
  timeoutSeconds : Nat
  maximumOutputBytes : Nat
  deriving DecidableEq, Repr

/-- Where a character of a variable's name is sorted: `_`, then digits, then letters whatever
    their case. -/
def primaryWeight (c : Char) : Nat :=
  if c = '_' then 0
  else if c.isDigit then 1 + (c.toNat - '0'.toNat)
  else 11 + (c.toLower.toNat - 'a'.toNat)

/-- The last difference that counts: a small letter before its capital. -/
def tertiaryWeight (c : Char) : Nat := if c.isUpper then 1 else 0

/-- `a.localeCompare(b) <= 0` on names of environment variables. -/
def localeCompare (a b : String) : Bool :=
  let primary (name : String) := name.toList.map primaryWeight
  let tertiary (name : String) := name.toList.map tertiaryWeight
  if primary a = primary b then lexicographic (tertiary a) (tertiary b)
  else lexicographic (primary a) (primary b)

/-- `{ ...request, env: Object.fromEntries(Object.entries(request.env).sort(...)) }`. -/
def RunRequest.sorted (request : RunRequest) : RunRequest :=
  { request with env := request.env.mergeSort fun a b => localeCompare a.1 b.1 }

/-- `savedRequestSchema`. -/
structure SavedRequest where
  id : RunId
  request : RunRequest
  requestDigest : RunRequest
  bootId : BootId
  submittedAt : Instant
  deriving DecidableEq, Repr

/-! ## Results and states -/

inductive Termination where
  | cancelled
  | timeout
  | outputLimit
  | interrupted
  | startFailed
  deriving DecidableEq, Repr

/-- `runResultSchema`. -/
inductive RunResult where
  | exited (code : Nat) (finishedAt : Instant)
  | terminated (reason : Termination) (finishedAt : Instant)
  deriving DecidableEq, Repr

/-- `runStateSchema`; a final state is the result. -/
inductive RunState where
  | queued
  | running (startedAt : Instant)
  | cancelling
  | final (result : RunResult)
  deriving DecidableEq, Repr

namespace RunState

/-- `!['queued', 'running', 'cancelling'].includes(state.kind)`. -/
def terminal : RunState → Bool
  | .final _ => true
  | _ => false

end RunState

structure RunSummary where
  id : RunId
  requestDigest : RunRequest
  submittedAt : Instant
  state : RunState
  deriving DecidableEq, Repr

/-! ## Output -/

inductive Stream where
  | stdout
  | stderr
  deriving DecidableEq, Repr

def Stream.text : Stream → String
  | .stdout => "stdout"
  | .stderr => "stderr"

/-- `runLogEntrySchema`. -/
structure LogEntry where
  stream : Stream
  text : Text
  deriving DecidableEq, Repr

/-- `JSON.stringify(entry)`. -/
def LogEntry.json (entry : LogEntry) : Text :=
  ofString "\x7b\"stream\":\"" ++ ofString entry.stream.text ++ ofString "\",\"text\":\"" ++
    escaped entry.text ++ ofString "\"\x7d"

structure RunResponse where
  run : RunSummary
  logs : List LogEntry
  nextCursor : Nat
  complete : Bool
  deriving DecidableEq, Repr

/-! ## Commands and the directory of an invocation -/

/-- `runCommandSchema`. -/
inductive RunCommand where
  | submit (id : RunId) (request : RunRequest)
  | inspect (id : RunId)
  | cancel (id : RunId)
  | logs (id : RunId) (cursor : Nat)
  deriving DecidableEq, Repr

def RunCommand.id : RunCommand → RunId
  | .submit id _ => id
  | .inspect id => id
  | .cancel id => id
  | .logs id _ => id

/-- The files of one invocation. -/
structure Record where
  request : Option SavedRequest
  started : Option Instant
  cancelled : Option Instant
  result : Option RunResult
  output : Option (List LogEntry)
  deriving DecidableEq, Repr

/-- A directory that does not exist yet. -/
def Record.none : Record := ⟨.none, .none, .none, .none, .none⟩

end AgentCloud.Commands
