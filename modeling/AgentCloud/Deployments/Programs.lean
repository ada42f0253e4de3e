/-
  THE GUEST'S DEPLOYMENT COMMANDS: `createComposeDeployments`, the wrapper's `command` and the
  periodic `work`, as programs of atomic actions.

  Every file is read and written by an action of its own; a read or a write may fail, and then it
  leaves nothing.  What `docker`, `docker compose` and `systemctl` reply is arbitrary.

  Three fields of the store are not in the source and no program branches on them: the heads an
  application has had, the releases of it that have succeeded, and the answers commands have given.
-/
import AgentCloud.Deployments.Records
import AgentCloud.Lib.Machine

namespace AgentCloud.Deployments

open Checked Durable Json
open Compose (Volume Service ComposeConfig composeConfigSchema)

/-! ## The guest -/

/-- The files of one application. -/
structure AppFiles where
  head : Option ReleaseId
  /-- The names in the directory of releases. -/
  names : List ReleaseId
  releases : ReleaseId → ReleaseFiles
  heads : List ReleaseId
  succeeded : List ReleaseId

def ReleaseFiles.none : ReleaseFiles := ⟨.none, .none, [], .none, .none⟩

def AppFiles.empty : AppFiles := ⟨none, [], fun _ => .none, [], []⟩

/-- What a command answered to a request: whether the request was one whose release had been made
    the head before, and the reply or the fault. -/
structure Answer where
  request : ComposeRequest
  admitted : Bool
  result : Except Fault ComposeResponse

structure Store where
  /-- The names in the directory of applications. -/
  directory : List AppName
  apps : AppName → AppFiles
  answers : List Answer

def Store.fresh : Store := ⟨[], fun _ => .empty, []⟩

structure Env where
  now : Instant
  readable : Bool
  writable : Bool
  /-- `disk.bavail * disk.bsize`. -/
  freeBytes : Nat

inductive Call where
  /-- `systemctl start`. -/
  | wake
  | config (app : AppName) (file : String)
  | build (app : AppName) (id : ReleaseId)
  | pull (app : AppName) (id : ReleaseId)
  | imageId (image : String)
  | imageVolumes (image : String)
  | up (app : AppName) (id : ReleaseId) (waitSeconds : Nat) (recreate : Bool)
  | ps (app : AppName) (file : String)
  | logs (app : AppName) (file : String) (service : Option String)

/-- What was printed, or why the tool failed. -/
def Call.Reply : Call → Type
  | .wake => Except Fault Unit
  | .config .. => Except Fault Json
  | .build .. => Except Fault Unit
  | .pull .. => Except Fault Unit
  | .imageId _ => Except Fault String
  | .imageVolumes _ => Except Fault (List String)
  | .up .. => Except Fault Unit
  | .ps .. => Except Fault String
  | .logs .. => Except Fault String

abbrev Guest : Interface where
  Env := Env
  Store := Store
  Call := Call
  Reply := Call.Reply
  Fault := Fault

abbrev Job (α : Type) := Prog Guest α

namespace Store

def editApp (s : Store) (app : AppName) (f : AppFiles → AppFiles) : Store :=
  { s with apps := Function.update s.apps app (f (s.apps app)) }

/-- Rewrites the files of one release. -/
def edit (s : Store) (app : AppName) (id : ReleaseId) (f : ReleaseFiles → ReleaseFiles) : Store :=
  s.editApp app fun files =>
    { files with releases := Function.update files.releases id (f (files.releases id)) }

/-- The files of one release. -/
def release (s : Store) (app : AppName) (id : ReleaseId) : ReleaseFiles :=
  (s.apps app).releases id

end Store

/-! ## Files -/

def ioError : Fault := .other "Guest state file ownership, permissions or size are invalid."

/-- `ENOENT`. -/
def missing : Fault := .other "ENOENT"

def load {α : Type} (f : Store → α) : Job α :=
  .transact fun env s => if env.readable then .ok (f s, s) else .error ioError

def clock : Job Instant := .observe fun env _ => env.now

/-- `atomicWrite`, `mkdir` and their syncs. -/
def save (f : Store → Store) : Job Unit :=
  .transact fun env s => if env.writable then .ok ((), f s) else .error ioError

/-- A tool is run. -/
def tool {α : Type} (c : Call) (h : c.Reply = Except Fault α) : Job α := do
  let reply ← Prog.ask (S := Guest) c
  .ofExcept (h ▸ reply)

/-- `readRelease(app, id)`. -/
def readRelease (app : AppName) (id : ReleaseId) : Job ComposeRelease := do
  let state ← load fun s => (s.release app id).state
  let release ← .ofExcept (present state missing)
  .ofExcept (refuse (release.id ≠ id) (.other "Release record differs from its directory."))
  pure release

/-- The release that `readRelease` finds, or none. -/
def existingRelease (app : AppName) (id : ReleaseId) : Job (Option ComposeRelease) :=
  .tryCatch (do
    let release ← readRelease app id
    pure (some release))
    fun fault => if fault = missing then pure none else .throw fault

def currentOf (app : AppName) : Option ReleaseId → Job (Option ComposeRelease)
  | none => pure none
  | some id => do
    let release ← readRelease app id
    pure (some release)

/-- `current(app)`. -/
def current (app : AppName) : Job (Option ComposeRelease) := do
  let head ← load fun s => (s.apps app).head
  currentOf app head

/-- `save(app, release)`, of a release whose state is rewritten by `mark` as well. -/
def saveRelease (app : AppName) (release : ComposeRelease) : Job Unit :=
  save fun s => s.edit app release.id ({ · with state := some release })

/-! ## Commands -/

/-- `reply(app, release)`. -/
def reply (app : AppName) (release : Option ComposeRelease) : ComposeResponse :=
  ⟨app, project app, release, ""⟩

/-- The file that selects the project: the rendered configuration if there is one. -/
def selected (app : AppName) (id : ReleaseId) : Job String := do
  save fun s => s
  let runtime ← load fun s => (s.release app id).runtime
  pure (if runtime.isSome then releasePath app id ++ "/runtime.json"
    else root ++ "/" ++ app ++ "/selector.json")

/-- `inspect`. -/
def inspect (app : AppName) : Option ComposeRelease → Job ComposeResponse
  | none => pure (reply app none)
  | some release => do
    let file ← selected app release.id
    let output ← tool (.ps app file) rfl
    pure { reply app (some release) with output }

/-- `logs`. -/
def logs (app : AppName) (service : Option String) :
    Option ComposeRelease → Job ComposeResponse
  | none => pure (reply app none)
  | some release => do
    let file ← selected app release.id
    let output ← tool (.logs app file service) rfl
    pure { reply app (some release) with output }

/-- The release that a recovery or a promotion starts from has succeeded. -/
def checkOrigin (request : ComposeRequest) (promotes : Bool) (origin : ReleaseId) : Job Unit := do
  let source ← readRelease request.app origin
  .ofExcept (refuse (source.phase ≠ .succeeded)
    (cloudError .invalidInput "Recovery requires a previously succeeded release."))
  .ofExcept (refuse (promotes = true ∧ some origin ≠ request.expectedReleaseId)
    (cloudError .invalidInput "Promote the current verified isolated release."))

def checkChange (request : ComposeRequest) : Job Unit :=
  match request.change with
  | .apply file files => .ofExcept (refuse (∀ entry ∈ files, entry.path ≠ file)
      (cloudError .invalidInput "The selected Compose file is missing from the source bundle."))
  | .recover origin => checkOrigin request false origin
  | .promote origin => checkOrigin request true origin

/-- The request is saved once. -/
def saveRequest (request : ComposeRequest) : Option ComposeRequest → Job Unit
  | some stored => .ofExcept (refuse (stored ≠ request)
      (cloudError .idempotencyConflict "Release ID already has different saved inputs."))
  | none => save (·.edit request.app request.releaseId ({ · with request := some request }))

/-- `head?.phase === 'succeeded' ? head.id : (head?.previousSuccessfulReleaseId ?? null)`. -/
def previousSuccessful : Option ComposeRelease → Option ReleaseId
  | none => none
  | some head => if head.phase = .succeeded then some head.id else head.previousSuccessfulReleaseId

/-- A release that was just admitted. -/
def newRelease (request : ComposeRequest) (head : Option ComposeRelease) (now : Instant) :
    ComposeRelease :=
  ⟨request.releaseId, request, previousSuccessful head, .queued, now, now, none, [], none⟩

/-- The directories of the application and of its releases, and room for another release. -/
def makeRoom (request : ComposeRequest) (head existing : Option ComposeRelease) : Job Unit := do
  let apps ← load (·.directory.length)
  .ofExcept (refuse (apps ≥ 32 ∧ head = none)
    (cloudError .quotaExceeded "Managed Compose app limit reached."))
  save fun s => { s with
    directory := if request.app ∈ s.directory then s.directory else s.directory ++ [request.app] }
  let releases ← load fun s => (s.apps request.app).names.length
  .ofExcept (refuse (releases ≥ 128 ∧ existing = none) (cloudError .quotaExceeded
    "Retained release limit reached; retained sources are needed for recovery."))
  let free ← .observe fun env _ => env.freeBytes
  .ofExcept (refuse (free < 536870912)
    (cloudError .quotaExceeded "Insufficient free disk for another release."))
  save (·.editApp request.app fun files => { files with
    names := if request.releaseId ∈ files.names then files.names
      else files.names ++ [request.releaseId] })

/-- The head is written. -/
def publish (app : AppName) (id : ReleaseId) : Job Unit :=
  save (·.editApp app fun files => { files with head := some id, heads := files.heads ++ [id] })

/-- The rest of a mutation that is not a retry: request, state and head, in this order. -/
def admission (request : ComposeRequest) (head existing : Option ComposeRelease) :
    Job ComposeResponse := do
  .ofExcept (refuse (head.map (·.id) ≠ request.expectedReleaseId) (cloudError .versionConflict
    "Expected release differs from the current deployment. Inspect before applying another release."))
  .ofExcept (refuse (∃ release ∈ head, release.phase.terminal = false)
    (retryableError .resourceBusy "A deployment is still active for this app."))
  checkChange request
  makeRoom request head existing
  let stored ← load fun s => (s.release request.app request.releaseId).request
  saveRequest request stored
  let now ← clock
  let release := existing.getD (newRelease request head now)
  saveRelease request.app release
  publish request.app release.id
  tool .wake rfl
  let release ← current request.app
  pure (reply request.app release)

/-- A retry of a request that was admitted, or whose release is over, returns its release. -/
def admitOrReturn (request : ComposeRequest) (head existing : Option ComposeRelease) :
    Job ComposeResponse :=
  match existing with
  | some release =>
    if head.map (·.id) = some release.id ∨ release.phase.terminal = true then
      pure (reply request.app (some release))
    else admission request head existing
  | none => admission request head existing

def mutate (request : ComposeRequest) : Job ComposeResponse := do
  let head ← current request.app
  let existing ← existingRelease request.app request.releaseId
  .ofExcept (refuse (∃ release ∈ existing, release.requestDigest ≠ request)
    (cloudError .idempotencyConflict "Release ID belongs to a different deployment request."))
  admitOrReturn request head existing

/-- Was the request's release made the head before? -/
def wasAdmitted (s : Store) (request : ComposeRequest) : Bool :=
  decide (request.releaseId ∈ (s.apps request.app).heads) &&
    decide ((s.release request.app request.releaseId).request = some request)

/-- A mutation, with its answer. -/
def answered (request : ComposeRequest) : Job Unit := do
  let admitted ← .read fun s => wasAdmitted s request
  let result ← (mutate request).attempt
  .transact fun _ s => .ok ((), { s with answers := s.answers ++ [⟨request, admitted, result⟩] })

/-- `command(command)`. -/
def command : ComposeCommand → Job Unit
  | .mutate request => answered request.sorted
  | .inspect app => .ignore do
    let release ← current app
    inspect app release
  | .logs app service => .ignore do
    let release ← current app
    logs app service release

/-! ## The worker -/

structure Prepared where
  request : ComposeRequest
  configDigest : ComposeConfig
  images : List (String × String)

def checkImages : List (String × String) → Job Unit
  | [] => pure ()
  | image :: images => do
    let found ← tool (.imageId image.2) rfl
    .ofExcept (refuse (found ≠ image.2) (.other "Recovery image differs."))
    checkImages images

/-- The configuration that a recovery or promotion runs. -/
def derivedRuntime (request : ComposeRequest) (runtime : ComposeConfig) :
    Except Fault ComposeConfig :=
  match request.change with
  | .promote _ => promoteRestoreNetwork runtime (project request.app) request.releaseId
  | _ => .ok runtime

def saveRuntime (app : AppName) (id : ReleaseId) (config : ComposeConfig) : Job Unit :=
  save (·.edit app id ({ · with runtime := some config }))

/-- `prepare` of a recovery or a promotion. -/
def prepareFrom (request : ComposeRequest) (origin : ReleaseId) : Job Prepared := do
  let original ← readRelease request.app origin
  .ofExcept (refuse (original.phase ≠ .succeeded) (.other "Recovery source is not successful."))
  let stored ← load fun s => (s.release request.app original.id).runtime
  let runtime ← .ofExcept (present stored missing)
  .ofExcept (refuse (some runtime ≠ original.configDigest)
    (.other "Recovery configuration integrity differs."))
  checkImages original.images
  let runtime ← .ofExcept (derivedRuntime request runtime)
  saveRuntime request.app request.releaseId runtime
  pure ⟨request, runtime, original.images⟩

/-- The files of the source; each must be new. -/
def writeSource (app : AppName) (id : ReleaseId) : List ComposeFile → Job Unit
  | [] => pure ()
  | file :: files => do
    .transact fun env s =>
      if env.writable = false ∨ file.path ∈ (s.release app id).source then .error ioError
      else .ok ((), s.edit app id fun release =>
        { release with source := release.source ++ [file.path] })
    writeSource app id files

/-- Every service's image, found and pinned. -/
def pinImages : List (String × Service) → Job (List (String × Service) × List (String × String))
  | [] => pure ([], [])
  | (name, service) :: services => do
    let image ← .ofExcept (present service.image
      (.other "Every service needs a built or pulled image."))
    let id ← tool (.imageId image) rfl
    let declared ← tool (.imageVolumes id) rfl
    .ofExcept (refuse (declared.all (covered service) = false) (cloudError .invalidInput
      "An image declares a data volume without an explicit persistent mount. Add a named volume or bind mount for every image-declared volume."))
    let rest ← pinImages services
    pure ((name, pinned service id) :: rest.1, (name, id) :: rest.2)

/-- `prepare` of an applied source. -/
def prepareSource (request : ComposeRequest) (file : String) (files : List ComposeFile) :
    Job Prepared := do
  let app := request.app
  let id := request.releaseId
  writeSource app id files
  let rendered ← tool (.config app (sourcePath app id ++ "/" ++ file)) rfl
  let config ← .ofExcept (composeConfigSchema rendered)
  let services ← .ofExcept (checkEach (tagService app id) config.services)
  save (·.edit app id ({ · with build := some { config with services } }))
  tool (.build app id) rfl
  tool (.pull app id) rfl
  let images ← pinImages services
  saveRuntime app id { config with services := images.1 }
  pure ⟨request, { config with services := images.1 }, images.2⟩

def prepareChange (request : ComposeRequest) : Job Prepared :=
  match request.change with
  | .apply file files => prepareSource request file files
  | .recover origin => prepareFrom request origin
  | .promote origin => prepareFrom request origin

/-- `prepare(app, release)`. -/
def prepare (app : AppName) (release : ComposeRelease) : Job Prepared := do
  let stored ← load fun s => (s.release app release.id).request
  let request ← .ofExcept (present stored missing)
  .ofExcept (refuse (request ≠ release.requestDigest ∨ request.app ≠ app ∨
    request.releaseId ≠ release.id) (.other "Saved deployment input integrity differs."))
  prepareChange request

def ComposeRelease.at (release : ComposeRelease) (phase : Phase) (now : Instant) :
    ComposeRelease := { release with phase, updatedAt := now }

def interruptedFailure : String :=
  "The deployment worker stopped before recording completion. Inspect running containers, then explicitly recover or apply a new release."

/-- The failure that is recorded. -/
def failureText : Fault → String
  | .cloud failure => failure.message
  | .other _ => "Deployment preparation or application failed. Inspect the release and logs; retained volumes have not been deleted."

/-- The release succeeded. -/
def recordSuccess (app : AppName) (release : ComposeRelease) : Job Unit := do
  let now ← clock
  save fun s => (s.edit app release.id
    ({ · with state := some (release.at .succeeded now) })).editApp app fun files =>
      { files with succeeded := files.succeeded ++ [release.id] }

def recordFailure (app : AppName) (release : ComposeRelease) (fault : Fault) : Job Unit := do
  let now ← clock
  saveRelease app { release.at .failed now with failure := some (failureText fault) }

/-- From `applying` on: the application is started once. -/
def applyRelease (app : AppName) (release : ComposeRelease) (request : ComposeRequest) :
    Job Unit := do
  saveRelease app release
  let recreates := match request.change with
    | .promote _ => true
    | _ => false
  tool (.up app release.id request.waitSeconds recreates) rfl
  recordSuccess app release

/-- The release as it is applied. -/
def ComposeRelease.applied (release : ComposeRelease) (prepared : Prepared) (now : Instant) :
    ComposeRelease :=
  { release.at .applying now with
    configDigest := some prepared.configDigest, images := prepared.images }

/-- `try` from `applying` on, with the release as it is by then. -/
def applyOrFail (app : AppName) (release : ComposeRelease) (prepared : Prepared) : Job Unit := do
  let now ← clock
  .tryCatch (applyRelease app (release.applied prepared now) prepared.request)
    (recordFailure app (release.applied prepared now))

/-- `try` up to the end of `prepare`; none if it failed and was recorded. -/
def prepareOrFail (app : AppName) (release : ComposeRelease) : Job (Option Prepared) :=
  .tryCatch (do
    saveRelease app release
    let prepared ← prepare app release
    pure (some prepared))
    fun fault => do
      recordFailure app release fault
      pure none

def applyPrepared (app : AppName) (release : ComposeRelease) : Option Prepared → Job Unit
  | none => pure ()
  | some prepared => applyOrFail app release prepared

/-- A queued release is prepared and applied. -/
def runRelease (app : AppName) (release : ComposeRelease) : Job Unit := do
  let now ← clock
  let prepared ← prepareOrFail app (release.at .preparing now)
  applyPrepared app (release.at .preparing now) prepared

/-- A release whose worker stopped is interrupted. -/
def interrupt (app : AppName) (release : ComposeRelease) : Job Unit := do
  let now ← clock
  saveRelease app { release.at .interrupted now with failure := some interruptedFailure }

def workRelease (app : AppName) : Option ComposeRelease → Job Unit
  | none => pure ()
  | some release =>
    if release.phase.terminal then pure ()
    else if release.phase ≠ .queued then interrupt app release
    else runRelease app release

def workApp (app : AppName) : Job Unit := do
  let release ← current app
  workRelease app release

/-- `work()`. -/
def work : Job Unit := do
  let apps ← load (·.directory)
  .forEach apps workApp

/-! ## Who runs when -/

/-- The admission lock and the lock of the worker. -/
inductive Slot where
  | wrapper
  | worker
  deriving DecidableEq, Repr

inductive IsJob : Slot → Job Unit → Prop where
  | command (c : ComposeCommand) : IsJob .wrapper (command c)
  | work : IsJob .worker work

/-- The guest: nothing but these two touches the files, and tools reply what they like. -/
def guest : System Guest Slot where
  job := IsJob
  other _ _ := False
  allows _ _ _ := True

end AgentCloud.Deployments
