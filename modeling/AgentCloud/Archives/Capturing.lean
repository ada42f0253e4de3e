/-
  CAPTURES: what a capture checks, describes and packs (`capture` of `backups.ts`).

  A capture first proves that what it is about to copy can be packaged again: it rebases the
  configuration for a restore under its own ID and weighs it with the source.  Then it copies the
  declared files, the role globals and the database dump, each within what is left of the byte
  limit, describes them in the metadata and packs metadata, globals, dump and files in this order.

  What a later restore relies on is in `Captured.Sound`: the metadata passes its schema, it names
  the packed files, each name once, and the archive is within the limit.
-/
import AgentCloud.Archives.CustomerFiles
import AgentCloud.Lib.JsonText

namespace AgentCloud.Archives

open Checked Posix FileTree
open Compose (ComposeConfig Service Volume RestoreInput isolatedBackupConfig schemaError)
open Deployments (ComposeFile)

/-! ## What is captured -/

/-- `backupLimitsSchema`. -/
structure Limits where
  maxBytes : Nat
  timeoutSeconds : Nat
  atLeast : 1048576 ≤ maxBytes
  atMost : maxBytes ≤ 1073741824
  notShort : 30 ≤ timeoutSeconds
  notLong : timeoutSeconds ≤ 900

/-- `backupGuestCaptureSchema`. -/
structure CaptureRequest where
  id : String
  recipe : BackupRecipe
  limits : Limits

/-- A guest, by the directory of its customer. -/
structure Guest where
  customerDirectory : Dir

/-- The deployment that the recipe names: its apply request, its rendered configuration, and where
    its source lies. -/
structure Deployment where
  request : ComposeApply
  config : Json
  sourceRoot : Dir

/-- What the capture reads. -/
structure Sources where
  deployment : Deployment
  customerFiles : Disk Stored
  /-- What `pg_dumpall --globals-only` prints. -/
  globals : Except Fault Bytes
  /-- What `pg_dump` prints. -/
  dump : Except Fault Bytes
  postgresVersion : String
  capturedAt : String
  completedAt : String

structure Captured where
  metadata : Metadata
  files : List Named
  archive : Bytes
  deriving DecidableEq

theorem isAbsolute_text (d : Dir) : isAbsolute d.text = true :=
  isAbsolute_iff.mpr ⟨join d.parts, d.text_toList⟩

/-! ## The configuration as JSON -/

/-- An optional field of an object. -/
def field (name : String) (value : Option Json) : Json.Fields :=
  (value.map fun value => (name, value)).toList

def volumeJson (volume : Volume) : Json :=
  .obj ([("type", .str volume.type), ("target", .str volume.target)] ++
    field "source" (volume.source.map .str) ++ field "read_only" (volume.readOnly.map .bool) ++
    volume.rest)

def serviceJson (service : Service) : Json :=
  .obj (field "image" (service.image.map .str) ++ field "build" service.build ++
    field "volumes" (service.volumes.map fun volumes => .arr (volumes.map volumeJson)) ++
    service.rest)

def configJson (config : ComposeConfig) : Json :=
  .obj (("services", .obj (config.services.map fun service => (service.1, serviceJson service.2))) ::
    config.rest)

/-- `JSON.stringify(config)`. -/
def configText (ports : Ports) (config : ComposeConfig) : List Char :=
  Json.text ports.number (configJson config)

/-! ## The capture -/

/-- What the configuration is rebased with, for a files root. -/
def rebaseInput (sourceRoot customerRoot : String) (hsource : isAbsolute sourceRoot = true)
    (hcustomer : isAbsolute customerRoot = true) (filesRoot : Dir) (recipe : BackupRecipe) :
    RestoreInput where
  cwd := Dir.root
  sourceRoot := sourceRoot
  customerRoot := customerRoot
  filesRoot := filesRoot.text
  declared := recipe.files
  databaseService := recipe.service
  sourceRoot_absolute := hsource
  customerRoot_absolute := hcustomer

def noRoom : Fault :=
  cloudError .quotaExceeded
    "Captured source leaves insufficient room for an isolated restore configuration."

/-- The captured recipe can be rebased, and what is restored with it fits in a bundle. -/
def checkRestorable (ports : Ports) (guest : Guest) (request : CaptureRequest)
    (deployment : Deployment) : Except Fault Unit := do
  let normalized ← isolatedBackupConfig deployment.config
    (rebaseInput deployment.sourceRoot.text guest.customerDirectory.text (isAbsolute_text _)
      (isAbsolute_text _) (filesRootOf guest.customerDirectory request.id) request.recipe)
  refuse (deployment.request.files.length ≥ 1024 ∨
    encodedBytes deployment.request.files * 3 + Json.size (configText ports normalized) * 4 >
      11184000 * 3) noRoom

/-- `customerFile`, `open` and `fstat` of a declared file. -/
def openDeclared (root : Dir) (relative : String) : Files Stored := do
  let path ← customerFile root relative false
  let info ← attempt (lstat path)
  match info with
  | .file stored => pure stored
  | .dir => raise (cloudError .invalidInput "Declared backup entries must be regular files.")
  | .link _ => raise ioError

def entryName (index : Nat) : String := "file-" ++ toString index

/-- The loop over the declared files; `copied` bytes were copied before. -/
def copyFiles (file : String → Except Fault Stored) (maximum : Nat) :
    Nat → Nat → List String → Except Fault (List (DeclaredFile × Bytes))
  | _, _, [] => .ok []
  | index, copied, relative :: paths => do
    let found ← file relative
    refuse (found.content.length > maximum - copied) overLimit
    let copies ← copyFiles file maximum (index + 1) (copied + found.content.length) paths
    pure ((⟨relative, entryName index, found.mode % 0o1000, found.uid, found.gid⟩, found.content)
      :: copies)

/-- The first bytes of a custom-format dump, as `toString('ascii')` reads them. -/
def checkDump (dump : Bytes) : Except Fault Unit :=
  refuse ((dump.take 5).map (fun b => b.toNat % 128) ≠ [80, 71, 68, 77, 80])
    (cloudError .invalidInput "Backup requires a PostgreSQL custom-format dump.")

def manifestOf (request : CaptureRequest) (sources : Sources) : Manifest where
  recipe := request.recipe
  capturedAt := sources.capturedAt
  completedAt := sources.completedAt
  postgresVersion := sources.postgresVersion
  sourceFiles := sources.deployment.request.files.length
  declaredFiles := request.recipe.files

def metadataOf (guest : Guest) (request : CaptureRequest) (sources : Sources)
    (files : List DeclaredFile) : Metadata where
  backupId := request.id
  manifest := manifestOf request sources
  source := sources.deployment.request
  config := sources.deployment.config
  sourceRoot := sources.deployment.sourceRoot.text
  customerRoot := guest.customerDirectory.text
  files := files

/-- The order in which everything is packed. -/
def archived (text globals dump : Bytes) (copies : List (DeclaredFile × Bytes)) : List Named :=
  ("metadata.json", text) :: ("globals.sql", globals) :: ("database.dump", dump) ::
    copies.map fun copy => (copy.1.entry, copy.2)

def capture (ports : Ports) (guest : Guest) (request : CaptureRequest) (sources : Sources) :
    Except Fault Captured := do
  refuse (¬ request.recipe.files.Nodup)
    (cloudError .invalidInput "Declared backup files must be unique.")
  checkRestorable ports guest request sources.deployment
  let copies ← copyFiles
    (fun relative => (openDeclared guest.customerDirectory relative sources.customerFiles).1)
    request.limits.maxBytes 0 0 request.recipe.files
  let copied := totalBytes (copies.map fun copy => (copy.1.entry, copy.2))
  let globals ← sources.globals
  refuse (globals.length > min 16777216 (request.limits.maxBytes - copied)) overLimit
  let dump ← sources.dump
  refuse (dump.length > request.limits.maxBytes - (copied + globals.length)) overLimit
  checkDump dump
  let metadata := metadataOf guest request sources (copies.map Prod.fst)
  refuse (metadataSchema metadata = false) schemaError
  refuse ((ports.text metadata).length > metadataMaximum)
    (cloudError .quotaExceeded "Backup source metadata exceeds its limit.")
  let files := archived (ports.text metadata) globals dump copies
  let archive ← packBackup ports files request.limits.maxBytes
  pure { metadata, files, archive }

/-! ## What it has checked -/

theorem copyFiles_ok {file : String → Except Fault Stored} {maximum index copied : Nat}
    {paths : List String} {copies : List (DeclaredFile × Bytes)}
    (h : copyFiles file maximum index copied paths = .ok copies) :
    copies.map (fun copy => copy.1.path) = paths ∧
      copies.map (fun copy => copy.1.entry) = (List.range' index paths.length).map entryName := by
  induction paths generalizing index copied copies with
  | nil =>
    obtain rfl := Except.ok.inj h
    exact ⟨rfl, rfl⟩
  | cons path paths ih =>
    simp only [copyFiles, bind_ok_iff, pure_ok_iff] at h
    obtain ⟨found, -, -, -, rest, hrest, rfl⟩ := h
    obtain ⟨hpaths, hentries⟩ := ih hrest
    refine ⟨by rw [List.map_cons, hpaths], ?_⟩
    rw [List.map_cons, hentries, List.length_cons, List.range'_succ, List.map_cons]

/-- Up to a hundred entries have different names, all of them well formed. -/
theorem entryNames : ((List.range 100).map entryName).Nodup ∧
    ∀ name ∈ (List.range 100).map entryName, isEntryName name = true := by
  decide +kernel

/-- What a restore of a capture relies on. -/
structure Captured.Sound (ports : Ports) (guest : Guest) (request : CaptureRequest)
    (deployment : Deployment) (captured : Captured) : Prop where
  restorable : checkRestorable ports guest request deployment = .ok ()
  schema : metadataSchema captured.metadata = true
  described : captured.metadata.backupId = request.id ∧
    captured.metadata.manifest.recipe = request.recipe ∧
    captured.metadata.manifest.sourceFiles = captured.metadata.source.files.length ∧
    captured.metadata.manifest.declaredFiles = request.recipe.files ∧
    captured.metadata.source = deployment.request ∧ captured.metadata.config = deployment.config ∧
    captured.metadata.sourceRoot = deployment.sourceRoot.text ∧
    captured.metadata.customerRoot = guest.customerDirectory.text
  paths : captured.metadata.files.map DeclaredFile.path = request.recipe.files
  unique : request.recipe.files.Nodup
  names : captured.files.map Prod.fst =
    ["metadata.json", "globals.sql", "database.dump"] ++
      captured.metadata.files.map DeclaredFile.entry
  distinct : (captured.files.map Prod.fst).Nodup
  text : ("metadata.json", ports.text captured.metadata) ∈ captured.files
  size : (ports.text captured.metadata).length ≤ metadataMaximum
  dump : ∃ dump, ("database.dump", dump) ∈ captured.files ∧ checkDump dump = .ok ()
  archive : captured.archive = packed ports captured.files
  within : captured.archive.length ≤ request.limits.maxBytes

theorem metadataSchema_files {metadata : Metadata} (h : metadataSchema metadata = true) :
    metadata.files.length ≤ 100 := by
  simp only [metadataSchema, Bool.and_eq_true, decide_eq_true_eq] at h
  exact h.1.2

theorem capture_sound {ports : Ports} {guest : Guest} {request : CaptureRequest}
    {sources : Sources} {captured : Captured}
    (h : capture ports guest request sources = .ok captured) :
    captured.Sound ports guest request sources.deployment := by
  simp only [capture, packBackup, bind_ok_iff, refuse_ok_iff, pure_ok_iff, Decidable.not_not,
    Bool.not_eq_false] at h
  obtain ⟨-, hunique, ⟨⟩, hrestorable, copies, hcopies, globals, -, -, -, dump, -, -, -, ⟨⟩, hdump, -,
    hschema, -, hsize, archive, ⟨-, hwithin, rfl⟩, rfl⟩ := h
  obtain ⟨hpaths, hentries⟩ := copyFiles_ok hcopies
  have hcount : request.recipe.files.length ≤ 100 := by
    have hfiles := metadataSchema_files hschema
    have hlength := congrArg List.length hpaths
    simp only [metadataOf, List.length_map] at hfiles hlength
    omega
  -- the names of the copies are the first of the hundred
  have hstarted : (copies.map fun copy => copy.1.entry).Sublist ((List.range 100).map entryName) := by
    rw [hentries, ← List.range_eq_range']
    exact (List.range_sublist.mpr hcount).map entryName
  have hdistinct : (copies.map fun copy => copy.1.entry).Nodup := hstarted.nodup entryNames.1
  have hentry : ∀ copy ∈ copies, isEntryName copy.1.entry = true := fun copy hm =>
    entryNames.2 _ (hstarted.subset (List.mem_map_of_mem hm))
  have hnames : ∀ name ∈ ["metadata.json", "globals.sql", "database.dump"],
      isEntryName name = false := by decide +kernel
  have hothers : ∀ name ∈ ["metadata.json", "globals.sql", "database.dump"],
      name ∉ copies.map fun copy => copy.1.entry := by
    intro name hname hm
    obtain ⟨copy, hcopy, rfl⟩ := List.mem_map.mp hm
    have hfalse := hnames _ hname
    rw [hentry copy hcopy] at hfalse
    cases hfalse
  have hpacked : (archived (ports.text (metadataOf guest request sources (copies.map Prod.fst)))
      globals dump copies).map Prod.fst =
      ["metadata.json", "globals.sql", "database.dump"] ++ copies.map fun copy => copy.1.entry := by
    simp [archived, Function.comp_def]
  have hall : (["metadata.json", "globals.sql", "database.dump"] ++
      copies.map fun copy => copy.1.entry).Nodup :=
    List.nodup_append.mpr ⟨by decide, hdistinct, fun a ha b hb hab => hothers a ha (hab ▸ hb)⟩
  exact
    { restorable := hrestorable
      schema := hschema
      described := ⟨rfl, rfl, rfl, rfl, rfl, rfl, rfl, rfl⟩
      paths := by simpa [metadataOf, Function.comp_def] using hpaths
      unique := hunique
      names := by simpa [metadataOf, Function.comp_def] using hpacked
      distinct := by rw [hpacked]; exact hall
      text := by simp [archived]
      size := Nat.not_lt.mp hsize
      dump := ⟨dump, by simp [archived], hdump⟩
      archive := rfl
      within := Nat.not_lt.mp hwithin }

end AgentCloud.Archives
