/-
  THE CONFIGURATION OF A RESTORED APPLICATION: `isolatedBackupConfig`.

  A captured application comes with its rendered Compose configuration.  Before it is started again
  on another guest, the configuration is rebased: paths below the captured source go to the restored
  source (where the configuration file lies, so they become relative), captured customer files go
  below a root of their own, and everything that would lead elsewhere is refused, or so the function
  intends.

  The schema is `composeConfigSchema`: what it names is a field here, every other key of a service
  or of the configuration stays in `rest`.
-/
import AgentCloud.Contracts
import AgentCloud.Lib.Json
import AgentCloud.Lib.Posix

namespace AgentCloud.Compose

open Checked Posix Json

/-! ## The schema -/

structure Volume where
  type : String
  target : String
  source : Option String
  readOnly : Option Bool
  rest : Fields
  deriving DecidableEq

structure Service where
  image : Option String
  build : Option Json
  volumes : Option (List Volume)
  rest : Fields
  deriving DecidableEq

structure ComposeConfig where
  services : List (String × Service)
  rest : Fields
  deriving DecidableEq

def schemaError : Fault := .other "ZodError"

def record (value : Json) : Except Fault Fields := present value.fields? schemaError
def array (value : Json) : Except Fault (List Json) := present value.items? schemaError
def string (value : Json) : Except Fault String := present value.str? schemaError

def boolean : Json → Except Fault Bool
  | .bool value => .ok value
  | _ => .error schemaError

/-- A field that must be there. -/
def required {α : Type} (schema : Json → Except Fault α) (value : Option Json) : Except Fault α :=
  value.elim (.error schemaError) schema

def optional {α : Type} (schema : Json → Except Fault α) :
    Option Json → Except Fault (Option α)
  | none => .ok none
  | some value => (schema value).map some

def nullable {α : Type} (schema : Json → Except Fault α) : Json → Except Fault (Option α)
  | .null => .ok none
  | value => (schema value).map some

/-- The members of a record, each parsed. -/
def members {α : Type} (schema : Json → Except Fault α) (fields : Fields) :
    Except Fault (List (String × α)) :=
  checkEach (fun field => (schema field.2).map fun value => (field.1, value)) fields

/-- `z.record(z.string(), schema).parse(value ?? {})`. -/
def records {α : Type} (schema : Json → Except Fault α) :
    Option Json → Except Fault (List (String × α))
  | none => .ok []
  | some .null => .ok []
  | some value => do
    let fields ← record value
    members schema fields

def volumeSchema (value : Json) : Except Fault Volume := do
  let fields ← record value
  let type ← required string (fields.get "type")
  let target ← required string (fields.get "target")
  let source ← optional string (fields.get "source")
  let readOnly ← optional boolean (fields.get "read_only")
  let rest := (((fields.erase "type").erase "target").erase "source").erase "read_only"
  pure { type, target, source, readOnly, rest }

def volumesSchema (value : Json) : Except Fault (List Volume) := do
  let items ← array value
  checkEach volumeSchema items

def serviceSchema (value : Json) : Except Fault Service := do
  let fields ← record value
  let image ← optional string (fields.get "image")
  let volumes ← optional volumesSchema (fields.get "volumes")
  let rest := ((fields.erase "image").erase "build").erase "volumes"
  pure { image, build := fields.get "build", volumes, rest }

/-- `^[a-zA-Z0-9][a-zA-Z0-9_.-]{0,127}$`. -/
def isServiceName (name : String) : Bool :=
  match name.toList with
  | [] => false
  | first :: rest => first.isAlphanum && decide (rest.length ≤ 127) &&
      rest.all fun c => c.isAlphanum || c == '_' || c == '.' || c == '-'

def composeConfigSchema (value : Json) : Except Fault ComposeConfig := do
  let fields ← record value
  let services ← required record (fields.get "services")
  refuse (∃ service ∈ services, isServiceName service.1 = false) schemaError
  let services ← members serviceSchema services
  refuse (services.length = 0 ∨ 32 < services.length) schemaError
  pure { services, rest := fields.erase "services" }

/-! ## Rebasing -/

/-- What the function is told besides the configuration.  Both roots of the capture are absolute,
    as its metadata schema checks; they need not be normal. -/
structure RestoreInput where
  cwd : Dir
  sourceRoot : String
  customerRoot : String
  filesRoot : String
  declared : List String
  databaseService : String
  sourceRoot_absolute : isAbsolute sourceRoot = true
  customerRoot_absolute : isAbsolute customerRoot = true

def rebase (input : RestoreInput) (path : String) : Except Fault String :=
  let absolute := resolve input.cwd path
  if below input.sourceRoot absolute then
    .ok ("./" ++ relative input.cwd input.sourceRoot absolute.text)
  else if below input.customerRoot absolute then do
    let name := relative input.cwd input.customerRoot absolute.text
    refuse (¬ ∃ file ∈ input.declared, name = "" ∨ file = name ∨ startsWith file (name ++ "/"))
      (cloudError .invalidInput "Restore bind mounts require explicitly captured customer files.")
    pure (resolve (resolve input.cwd input.filesRoot) name).text
  else
    .error (cloudError .invalidInput
      "Restore cannot use a bind or build path outside captured source and declared files.")

/-! ## Volumes, networks, configs and secrets -/

/-- `value[key] && value[key] !== expected`. -/
def otherThan (expected : String) (value : Option Json) : Bool :=
  value.any fun value => value.truthy && !value.isStr expected

def isolateNamedVolume (volume : Option Fields) : Except Fault (Option Fields) := do
  let fields := volume.getD []
  refuse (isTruthy (fields.get "external") = true ∨ isTruthy (fields.get "driver_opts") = true ∨
      otherThan "local" (fields.get "driver") = true)
    (cloudError .invalidInput "Restore requires project-owned local volumes without external paths.")
  pure (volume.map fun fields => fields.erase "name")

def fromNullable : Option Fields → Json
  | none => .null
  | some fields => .obj fields

def isolateVolumes (rest : Fields) : Except Fault Fields := do
  let volumes ← records (nullable record) (rest.get "volumes")
  let volumes ← checkEach
    (fun volume => (isolateNamedVolume volume.2).map fun fields => (volume.1, fromNullable fields))
    volumes
  pure (rest.set "volumes" (.obj volumes))

/-- An external network, or one of another driver than `bridge`. -/
def isForeignNetwork (network : Option Fields) : Bool :=
  let fields := network.getD []
  isTruthy (fields.get "external") || otherThan "bridge" (fields.get "driver")

def isolateNetworks (rest : Fields) : Except Fault Fields := do
  let networks ← records (nullable record) (rest.get "networks")
  refuse (∃ network ∈ networks, isForeignNetwork network.2 = true)
    (cloudError .invalidInput "Restore cannot attach an external or host network.")
  pure (rest.set "networks" (.obj [("default", .obj [("internal", .bool true)])]))

def rebaseFile (input : RestoreInput) (resource : Fields) : Except Fault Fields :=
  if isTruthy (resource.get "file") then do
    let file ← required string (resource.get "file")
    let file ← rebase input file
    pure (resource.set "file" (.str file))
  else pure resource

def isolateResource (input : RestoreInput) (resource : Fields) : Except Fault Fields := do
  refuse (isTruthy (resource.get "external") = true)
    (cloudError .invalidInput "Restore cannot use external configuration or secrets.")
  let resource ← rebaseFile input resource
  pure (resource.erase "name")

/-- `configs` or `secrets`. -/
def isolateResources (input : RestoreInput) (name : String) (rest : Fields) :
    Except Fault Fields := do
  let resources ← records record (rest.get name)
  let resources ← checkEach
    (fun resource => (isolateResource input resource.2).map fun fields =>
      (resource.1, Json.obj fields)) resources
  pure (if resources.length = 0 then rest else rest.set name (.obj resources))

/-! ## Services -/

def hostAccessKeys : List String :=
  ["privileged", "network_mode", "pid", "ipc", "uts", "devices", "device_cgroup_rules",
    "volumes_from", "external_links", "cap_add", "use_api_socket", "extra_hosts"]

def isolateVolume (input : RestoreInput) (volume : Volume) : Except Fault Volume :=
  let source := volume.source.getD ""
  if volume.type = "bind" ∧ source ≠ "" then do
    let source ← rebase input source
    pure { volume with source := some source }
  else do
    refuse (volume.type ≠ "volume" ∨ source = "")
      (cloudError .invalidInput
        "Restore requires named persistent volumes or captured regular-file binds.")
    pure volume

def rebaseDockerfile (input : RestoreInput) (context : String) (build : Fields) :
    Except Fault Fields :=
  if isTruthy (build.get "dockerfile") then do
    let dockerfile ← required string (build.get "dockerfile")
    if isAbsolute dockerfile then do
      let _ ← rebase input dockerfile
      pure (build.set "dockerfile" (.str (relative input.cwd context dockerfile)))
    else pure build
  else pure build

def isolateBuild (input : RestoreInput) (value : Json) : Except Fault Json := do
  let build ← record value
  refuse (isTruthy (build.get "additional_contexts") = true ∨ isTruthy (build.get "ssh") = true ∨
      (build.get "network").any (isStr "host") = true)
    (cloudError .invalidInput
      "Restore does not support external build contexts or host build access.")
  let context ← required string (build.get "context")
  let rebased ← rebase input context
  let build ← rebaseDockerfile input context (build.set "context" (.str rebased))
  pure (.obj build)

def confinePorts (rest : Fields) : Except Fault Fields :=
  if isTruthy (rest.get "ports") then do
    let ports ← required array (rest.get "ports")
    let ports ← checkEach record ports
    pure (rest.set "ports"
      (.arr (ports.map fun port => .obj (port.set "host_ip" (.str "127.0.0.1")))))
  else pure rest

/-- The named volume that holds the database. -/
def holdsDatabase (volume : Volume) : Bool :=
  volume.type = "volume" && volume.source.getD "" ≠ "" &&
    volume.target = "/var/lib/postgresql/data"

def isolateService (input : RestoreInput) (name : String) (service : Service) :
    Except Fault Service := do
  refuse (∃ key ∈ hostAccessKeys, isTruthy (service.rest.get key) = true)
    (cloudError .invalidInput "Restore does not allow host access or privileged Compose services.")
  let rest := ((service.rest.erase "container_name").erase "env_file").set "networks"
    (.arr [.str "default"])
  let volumes ← checkEach (isolateVolume input) (service.volumes.getD [])
  let build ← optional (isolateBuild input) service.build
  let rest ← confinePorts rest
  refuse (name = input.databaseService ∧ volumes.any holdsDatabase = false)
    (cloudError .invalidInput
      "PostgreSQL restore requires its explicit named /var/lib/postgresql/data volume.")
  pure { image := service.image, build, volumes := service.volumes.map fun _ => volumes, rest }

def isolatedBackupConfig (value : Json) (input : RestoreInput) : Except Fault ComposeConfig := do
  let config ← composeConfigSchema value
  let rest ← isolateVolumes config.rest
  let rest ← isolateNetworks rest
  let rest ← isolateResources input "configs" rest
  let rest ← isolateResources input "secrets" rest
  let services ← checkEach
    (fun service => (isolateService input service.1 service.2).map fun isolated =>
      (service.1, isolated)) config.services
  refuse (services.all fun service => service.1 ≠ input.databaseService)
    (cloudError .invalidInput "Captured database service is missing.")
  pure { services, rest := rest.erase "name" }

end AgentCloud.Compose
