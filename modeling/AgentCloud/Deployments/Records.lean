/-
  COMPOSE DEPLOYMENTS: requests, releases and replies, as `packages/contracts/src/compose.ts` and
  `packages/guestctl/src/compose.ts` declare them.

  A release is a directory with its request, its state, the files of its source and two rendered
  configurations.  An application has a head: the release that is current.  The digest of a request
  or of a configuration stands for what it is the digest of, and a file of JSON for its value.
-/
import AgentCloud.Compose.Config
import AgentCloud.Lib.Utf

namespace AgentCloud.Deployments

open Checked Posix Json
open Compose (Volume Service ComposeConfig composeConfigSchema schemaError)

abbrev AppName := String
abbrev ReleaseId := String

/-! ## Requests -/

/-- `composeFileSchema`. -/
structure ComposeFile where
  path : String
  content : String
  executable : Bool
  deriving DecidableEq, Repr

/-- What a request asks for besides what all of them have. -/
inductive Change where
  | apply (file : String) (files : List ComposeFile)
  | recover (fromReleaseId : ReleaseId)
  | promote (fromReleaseId : ReleaseId)
  deriving DecidableEq, Repr

/-- The release whose configuration a request starts from. -/
def Change.origin? : Change → Option ReleaseId
  | .apply .. => none
  | .recover fromReleaseId => some fromReleaseId
  | .promote fromReleaseId => some fromReleaseId

/-- `composeApplySchema`, `composeRecoverSchema`, `composePromoteSchema`. -/
structure ComposeRequest where
  app : AppName
  releaseId : ReleaseId
  expectedReleaseId : Option ReleaseId
  waitSeconds : Nat
  change : Change
  deriving DecidableEq, Repr

/-- `files.sort((a, b) => a.path.localeCompare(b.path))`; the order that stands for it is that of
    the code units. -/
def sortedFiles (files : List ComposeFile) : List ComposeFile :=
  files.mergeSort fun a b => Utf.lexicographic (Utf.ofString a.path) (Utf.ofString b.path)

def ComposeRequest.sorted (request : ComposeRequest) : ComposeRequest :=
  match request.change with
  | .apply file files => { request with change := .apply file (sortedFiles files) }
  | _ => request

/-- `composeCommandSchema`. -/
inductive ComposeCommand where
  | mutate (request : ComposeRequest)
  | inspect (app : AppName)
  | logs (app : AppName) (service : Option String)
  deriving DecidableEq, Repr

/-! ## Releases -/

inductive Phase where
  | queued
  | preparing
  | applying
  | succeeded
  | failed
  | interrupted
  deriving DecidableEq, Repr

/-- `terminal(release)`. -/
def Phase.terminal : Phase → Bool
  | .succeeded => true
  | .failed => true
  | .interrupted => true
  | _ => false

/-- `composeReleaseSchema`. -/
structure ComposeRelease where
  id : ReleaseId
  requestDigest : ComposeRequest
  previousSuccessfulReleaseId : Option ReleaseId
  phase : Phase
  submittedAt : Instant
  updatedAt : Instant
  configDigest : Option ComposeConfig
  images : List (String × String)
  failure : Option String
  deriving DecidableEq

/-- The files of one release. -/
structure ReleaseFiles where
  request : Option ComposeRequest
  state : Option ComposeRelease
  source : List String
  build : Option ComposeConfig
  runtime : Option ComposeConfig
  deriving DecidableEq

/-- What `docker compose` printed, for an inspection. -/
structure ComposeResponse where
  app : AppName
  project : String
  release : Option ComposeRelease
  output : String
  deriving DecidableEq

/-! ## Paths and names -/

def root : String := "/var/lib/agent-cloud/compose"

def releasePath (app : AppName) (id : ReleaseId) : String :=
  root ++ "/" ++ app ++ "/releases/" ++ id

def sourcePath (app : AppName) (id : ReleaseId) : String := releasePath app id ++ "/source"

def project (app : AppName) : String := "acld-" ++ app

/-- The tag of a built image; the name of the service stands for its digest. -/
def imageTag (app : AppName) (id : ReleaseId) (service : String) : String :=
  project app ++ ":" ++ id ++ "-" ++ service

/-! ## Checks of configurations -/

/-- `z.strictObject`: no field but these. -/
def strict (keys : List String) (fields : Fields) : Except Fault Unit :=
  refuse (∃ field ∈ fields, field.1 ∉ keys) schemaError

/-- `networks` of a service: `['default']`, or `{ default: null | {...} }`. -/
def onlyDefaultNetwork (networks : Option Json) : Except Fault Unit :=
  match networks with
  | some (.arr [.str "default"]) => .ok ()
  | some (.obj fields) => do
    strict ["default"] fields
    match Fields.get fields "default" with
    | some .null => .ok ()
    | some (.obj _) => .ok ()
    | _ => .error schemaError
  | _ => .error schemaError

/-- `z.array(z.looseObject({ host_ip: z.literal('127.0.0.1') }))`, of ports that are there. -/
def loopbackPorts (ports : Option Json) : Except Fault Unit :=
  if isTruthy ports then do
    let ports ← Compose.required Compose.array ports
    let _ ← checkEach (fun port => do
      let fields ← Compose.record port
      refuse ((fields.get "host_ip").any (isStr "127.0.0.1") = false) schemaError) ports
    pure ()
  else pure ()

def promotableService (service : Service) : Except Fault Unit := do
  refuse (isTruthy (service.rest.get "network_mode") = true)
    (cloudError .invalidInput "Promotion does not permit host networking.")
  onlyDefaultNetwork (service.rest.get "networks")
  loopbackPorts (service.rest.get "ports")

/-- The one network of an isolated application. -/
def isolatedNetwork (networks : Option Json) : Except Fault Fields := do
  let networks ← Compose.required Compose.record networks
  strict ["default"] networks
  let network ← Compose.required Compose.record (networks.get "default")
  strict ["internal", "name", "ipam"] network
  refuse ((network.get "internal").any (fun value => decide (value = .bool true)) = false)
    schemaError
  let _ ← Compose.optional Compose.string (network.get "name")
  let ipam ← Compose.optional Compose.record (network.get "ipam")
  strict [] (ipam.getD [])
  pure network

/-- `promoteRestoreNetwork(value, project, release)`. -/
def promoteRestoreNetwork (config : ComposeConfig) (project : String) (release : ReleaseId) :
    Except Fault ComposeConfig := do
  let network ← isolatedNetwork (config.rest.get "networks")
  refuse (isTruthy (network.get "name") = true ∧
      (network.get "name").any (isStr (project ++ "_default")) = false)
    (cloudError .invalidInput "Promotion requires the isolated project network.")
  let _ ← checkEach (fun service => promotableService service.2) config.services
  let name := project ++ "_promoted_" ++ release
  let networks : Json := .obj [("default", .obj [("name", .str name)])]
  pure { config with rest := config.rest.set "networks" networks }

/-- A volume that a release may have: no anonymous one, no writable bind of its own source. -/
def checkVolume (source : String) (volume : Volume) : Except Fault Unit := do
  refuse (volume.type = "volume" ∧ volume.source.getD "" = "") (cloudError .invalidInput
    "Use named volumes for persistent data; anonymous volumes cannot be recovered reliably.")
  let path := (resolve Dir.root (volume.source.getD "")).text
  refuse (volume.type = "bind" ∧ volume.source.getD "" ≠ "" ∧
      (path = source ∨ startsWith path (source ++ "/")) ∧ volume.readOnly.getD false = false)
    (cloudError .invalidInput
      "Release source bind mounts must be read-only. Keep mutable data in a named volume or an explicit external path.")

/-- The checks and the tags of `prepare`, service by service. -/
def tagService (app : AppName) (id : ReleaseId) (service : String × Service) :
    Except Fault (String × Service) := do
  let _ ← checkEach (checkVolume (sourcePath app id)) (service.2.volumes.getD [])
  pure (service.1, if service.2.build.isSome
    then { service.2 with image := some (imageTag app id service.1) } else service.2)

/-- Is a data volume that the image declares mounted from somewhere? -/
def covered (service : Service) (declared : String) : Bool :=
  (service.volumes.getD []).any fun volume =>
    let path := (resolve Dir.root declared).text
    let target := (resolve Dir.root volume.target).text
    (decide (volume.type = "volume") || decide (volume.type = "bind")) &&
      decide (volume.source.getD "" ≠ "") &&
      (decide (path = target) ||
        startsWith path (if target.endsWith "/" then target else target ++ "/"))

/-- A service as it is run: its image pinned, nothing to build. -/
def pinned (service : Service) (image : String) : Service :=
  { service with
    image := some image, build := none, rest := service.rest.set "pull_policy" (.str "never") }

end AgentCloud.Deployments
