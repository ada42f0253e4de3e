/-
  RESTORING AN ARCHIVE: everything that is checked before a customer file is written, and where the
  files are written then (`restore` of `backups.ts`).

  1. **Round trip.**  What a capture packs is unpacked to the same names and bytes under the same
     limit, and the checks of the restore accept it (`archives`, first part).  The reader is assumed
     to invert the packer on this archive, and `JSON.parse` its printer on this metadata.

  2. **Acceptance.**  For an archive that is read as any sequence of entries, nothing in the
     customer's directory changes unless the entries are exactly those of the metadata (`Exactly`).

  3. **Containment.**  What is written then is new; it is a directory, or it stands below the files
     root of this restore (`WrittenBelow`), and after a restore of all files each has its bytes.
-/
import AgentCloud.Archives.Capturing
import AgentCloud.Compose.Restored
import Mathlib.Data.List.Dedup
import Mathlib.Data.List.Perm.Subperm

namespace AgentCloud.Archives

open Checked Posix FileTree
open Compose (schemaError)

/-! ## The checks -/

/-- `restoreGuestRequestSchema`. -/
structure RestoreRequest where
  id : String
  backupId : String
  app : String
  limits : Limits
  bytes : Nat
  sha256 : String

/-- What was unpacked under a name. -/
def contentOf (unpacked : List Named) (name : String) : Option Bytes :=
  (unpacked.find? fun file => file.1 = name).map Prod.snd

/-- `new Set(values).size`. -/
def setSize (values : List String) : Nat := values.dedup.length

def fixedNames : List String := ["metadata.json", "globals.sql", "database.dump"]

def expectedNames (metadata : Metadata) : List String :=
  fixedNames ++ metadata.files.map DeclaredFile.entry

def readMetadata (ports : Ports) (unpacked : List Named) : Except Fault Metadata := do
  let text ← present (contentOf unpacked "metadata.json") ioError
  refuse (text.length > metadataMaximum)
    (.other "Guest state file ownership, permissions or size are invalid.")
  let metadata ← present (ports.parse text) schemaError
  refuse (metadataSchema metadata = false) schemaError
  pure metadata

def checkMetadata (request : RestoreRequest) (metadata : Metadata) : Except Fault Unit :=
  refuse (metadata.backupId ≠ request.backupId ∨
      metadata.manifest.sourceFiles ≠ metadata.source.files.length ∨
      metadata.manifest.declaredFiles ≠ metadata.files.map DeclaredFile.path ∨
      metadata.manifest.recipe.files ≠ metadata.manifest.declaredFiles)
    (cloudError .invalidInput "Restore metadata differs from the requested backup.")

def checkEntries (unpacked : List Named) (metadata : Metadata) : Except Fault Unit :=
  refuse (setSize (expectedNames metadata) ≠ 3 + metadata.files.length ∨
      setSize (metadata.files.map DeclaredFile.path) ≠ metadata.files.length ∨
      unpacked.length ≠ setSize (expectedNames metadata) ∨
      ∃ file ∈ unpacked, file.1 ∉ expectedNames metadata)
    (cloudError .invalidInput "Restore archive entries differ from its manifest.")

/-- Everything that is done with a received archive before customer files are written. -/
def readArchive (ports : Ports) (request : RestoreRequest) (received : Bytes) :
    Except Fault (Metadata × List Named) := do
  refuse (request.bytes > request.limits.maxBytes)
    (cloudError .quotaExceeded "Restore archive exceeds its admitted byte limit.")
  refuse (received.length > request.bytes) overLimit
  refuse (received.length ≠ request.bytes ∨ ports.sha256 received ≠ request.sha256)
    (cloudError .invalidInput "Restore archive length or checksum differs.")
  let unpacked ← unpackBackup (ports.extract received) request.limits.maxBytes
  let metadata ← readMetadata ports unpacked
  checkMetadata request metadata
  checkEntries unpacked metadata
  let dump ← present (contentOf unpacked "database.dump") ioError
  checkDump dump
  pure (metadata, unpacked)

def restore (ports : Ports) (guest : Guest) (request : RestoreRequest) (received : Bytes) :
    Files Unit := do
  let archive ← Action.ofExcept (readArchive ports request received)
  restoreFiles guest.customerDirectory request.id (contentOf archive.2) request.limits.maxBytes
    archive.1.files

/-! ## What they ask for -/

/-- The entries are exactly the three fixed names and the distinct files of the metadata, each a
    regular file with the bytes its header declares, and together within the limit. -/
structure Exactly (ports : Ports) (maximum : Nat) (tape : Tape) (metadata : Metadata) : Prop where
  described : ∃ entry ∈ tape.entries, entry.header.name = "metadata.json" ∧
    ports.parse entry.body = some metadata
  names : (tape.entries.map fun entry => entry.header.name).Perm (expectedNames metadata)
  distinct : (tape.entries.map fun entry => entry.header.name).Nodup
  paths : (metadata.files.map DeclaredFile.path).Nodup
  regular : ∀ entry ∈ tape.entries, Regular entry
  within : totalBytes (tape.entries.map Entry.named) ≤ maximum
  ended : tape.stop = none

theorem setSize_iff {values : List String} : setSize values = values.length ↔ values.Nodup := by
  constructor
  · intro h
    have hsame := (List.dedup_sublist values).eq_of_length h
    rw [← hsame]
    exact List.nodup_dedup values
  · intro h
    rw [setSize, h.dedup]

theorem contentOf_mem {unpacked : List Named} {name : String} {bytes : Bytes}
    (h : contentOf unpacked name = some bytes) : (name, bytes) ∈ unpacked := by
  unfold contentOf at h
  obtain ⟨file, hfind, rfl⟩ := Option.map_eq_some_iff.mp h
  have hmem := List.mem_of_find?_eq_some hfind
  have hname := List.find?_some hfind
  simp only [decide_eq_true_eq] at hname
  exact hname ▸ hmem

theorem contentOf_of_mem {unpacked : List Named} {name : String} {bytes : Bytes}
    (hdistinct : (unpacked.map Prod.fst).Nodup) (h : (name, bytes) ∈ unpacked) :
    contentOf unpacked name = some bytes := by
  induction unpacked with
  | nil => cases h
  | cons file unpacked ih =>
    rw [List.map_cons, List.nodup_cons] at hdistinct
    unfold contentOf
    rcases List.mem_cons.mp h with rfl | h
    · simp
    · have hne : file.1 ≠ name := by
        intro heq
        exact hdistinct.1 (heq ▸ List.mem_map_of_mem h)
      rw [List.find?_cons_of_neg (by simpa using hne)]
      exact ih hdistinct.2 h

theorem maxBytes_safe (limits : Limits) : (limits.maxBytes : Int) ≤ maxSafeInteger := by
  have hmost := limits.atMost
  unfold maxSafeInteger
  omega

/-- Only an archive that is exactly as its metadata says gets through. -/
theorem readArchive_exactly {ports : Ports} {request : RestoreRequest} {received : Bytes}
    {metadata : Metadata} {unpacked : List Named}
    (h : readArchive ports request received = .ok (metadata, unpacked)) :
    Exactly ports request.limits.maxBytes (ports.extract received) metadata := by
  simp only [readArchive, readMetadata, checkMetadata, checkEntries, bind_ok_iff, refuse_ok_iff,
    present_ok_iff, pure_ok_iff, not_or, ne_eq, Decidable.not_not, not_exists, not_and] at h
  obtain ⟨-, -, -, -, -, -, files, hunpacked, metadata', ⟨text, htext, -, -, parsed, hparsed, -, -,
    rfl⟩, -, -, -, ⟨hexpected, hpaths, hcount, hsubset⟩, -, -, -, -, hpair⟩ := h
  obtain ⟨rfl, rfl⟩ := Prod.mk.inj hpair
  have hall := (unpackBackup_ok (maxBytes_safe request.limits)).mp hunpacked
  have hnames : files.map Prod.fst = (ports.extract received).entries.map fun e => e.header.name := by
    rw [hall.files, List.map_map]
    rfl
  have hnodup : (expectedNames parsed).Nodup := by
    rw [← setSize_iff, hexpected]
    simp [expectedNames, fixedNames]
    omega
  refine ⟨?_, ?_, hnames ▸ hall.distinct, setSize_iff.mp (by rw [hpaths, List.length_map]),
    hall.regular, hall.files ▸ hall.total, hall.ended⟩
  · have hmem := contentOf_mem htext
    rw [hall.files] at hmem
    obtain ⟨entry, hentry, hnamed⟩ := List.mem_map.mp hmem
    obtain ⟨hname, rfl⟩ := Prod.mk.inj hnamed
    exact ⟨entry, hentry, hname, hparsed⟩
  · rw [← hnames]
    refine List.Subperm.perm_of_length_le (hall.distinct.subperm fun name hname => ?_) ?_
    · obtain ⟨file, hfile, rfl⟩ := List.mem_map.mp hname
      exact hsubset file hfile
    · have hlength := setSize_iff.mpr hnodup
      rw [List.length_map]
      omega

/-! ## Round trip -/

/-- The reader yields the packed files, each as a regular file. -/
structure Inverts (tape : Tape) (files : List Named) : Prop where
  files : tape.entries.map Entry.named = files
  regular : ∀ entry ∈ tape.entries, Regular entry
  ended : tape.stop = none

/-- The request by which a capture is restored. -/
structure RestoreRequest.Of (restore : RestoreRequest) (ports : Ports) (request : CaptureRequest)
    (captured : Captured) : Prop where
  backup : restore.backupId = request.id
  limit : restore.limits.maxBytes = request.limits.maxBytes
  bytes : restore.bytes = captured.archive.length
  sha256 : restore.sha256 = ports.sha256 captured.archive

section

variable {ports : Ports} {guest : Guest} {request : CaptureRequest} {deployment : Deployment}
  {captured : Captured}

theorem Captured.Sound.entries (h : captured.Sound ports guest request deployment) :
    expectedNames captured.metadata = captured.files.map Prod.fst := h.names.symm

theorem Captured.Sound.unpacked (h : captured.Sound ports guest request deployment)
    (hinverts : Inverts (ports.extract captured.archive) captured.files) :
    unpackBackup (ports.extract captured.archive) request.limits.maxBytes = .ok captured.files := by
  have hcount : captured.files.length ≤ 103 := by
    have hlength := congrArg List.length h.names
    have hfiles := metadataSchema_files h.schema
    simp only [List.length_map, List.length_append, List.length_cons, List.length_nil] at hlength
    omega
  have hknown : ∀ name ∈ captured.files.map Prod.fst, isArchiveName name = true := by
    intro name hname
    rw [h.names, List.mem_append] at hname
    rcases hname with hname | hname
    · have hfixed : ∀ name ∈ ["metadata.json", "globals.sql", "database.dump"],
          isArchiveName name = true := by decide +kernel
      exact hfixed name hname
    · obtain ⟨file, hfile, rfl⟩ := List.mem_map.mp hname
      have hschema := h.schema
      simp only [metadataSchema, Bool.and_eq_true, List.all_eq_true] at hschema
      simp [isArchiveName, (hschema.2 file hfile).1.2]
  refine (unpackBackup_ok (maxBytes_safe request.limits)).mpr
    ⟨hinverts.files.symm, hinverts.regular, fun entry hentry => ?_, h.distinct, hcount, ?_,
      hinverts.ended⟩
  · refine hknown entry.header.name ?_
    rw [← hinverts.files, List.map_map]
    exact List.mem_map_of_mem (f := Prod.fst ∘ Entry.named) hentry
  · have hfits := bytes_le_pack ports captured.files
    have hwithin := h.within
    rw [h.archive] at hwithin
    omega

theorem Captured.Sound.read (h : captured.Sound ports guest request deployment)
    (hinverts : Inverts (ports.extract captured.archive) captured.files)
    (hparse : ports.parse (ports.text captured.metadata) = some captured.metadata)
    {restore : RestoreRequest} (hof : restore.Of ports request captured) :
    readArchive ports restore captured.archive = .ok (captured.metadata, captured.files) := by
  obtain ⟨hbackup, hrecipe, hsource, hdeclared, -, -, -, -⟩ := h.described
  obtain ⟨dump, hdump, hchecked⟩ := h.dump
  have hwithin := h.within
  have hexpected : (expectedNames captured.metadata).Nodup := by
    rw [h.entries]
    exact h.distinct
  have hlength : (expectedNames captured.metadata).length = 3 + captured.metadata.files.length := by
    simp [expectedNames, fixedNames]
    omega
  simp only [readArchive, readMetadata, checkMetadata, checkEntries, bind_ok_iff, refuse_ok_iff,
    present_ok_iff, pure_ok_iff, not_or, ne_eq, Decidable.not_not, not_exists, not_and,
    Bool.not_eq_false]
  refine ⟨(), ?_, (), ?_, (), ⟨hof.bytes.symm, hof.sha256.symm⟩, captured.files, ?_,
    captured.metadata, ⟨_, contentOf_of_mem h.distinct h.text, (), ?_, _, hparse, (), h.schema, rfl⟩,
    (), ⟨?_, hsource, ?_, ?_⟩, (), ⟨?_, ?_, ?_, ?_⟩, dump, contentOf_of_mem h.distinct hdump, (),
    hchecked, rfl⟩
  · rw [hof.bytes, hof.limit]
    omega
  · rw [hof.bytes]
    omega
  · rw [hof.limit]
    exact h.unpacked hinverts
  · have hsize := h.size
    omega
  · rw [hbackup, hof.backup]
  · rw [hdeclared, h.paths]
  · rw [hrecipe, hdeclared]
  · rw [setSize_iff.mpr hexpected, hlength]
  · have hunique := setSize_iff.mpr (h.paths ▸ h.unique)
    rw [hunique, List.length_map]
  · rw [setSize_iff.mpr hexpected, h.entries, List.length_map]
  · intro file hfile
    rw [h.entries]
    exact List.mem_map_of_mem hfile

end

/-! ## Containment -/

/-- What changed was not there before, and it is a directory or stands below the files root of the
    restore; nothing was removed or replaced. -/
def WrittenBelow (filesRoot : Dir) (t t' : Disk Stored) : Prop :=
  ∀ d, t' d ≠ t d → t d = none ∧ (t' d = some .dir ∨
    ∃ canonical, realpath t' filesRoot = .ok canonical ∧ Real t' canonical ∧ Below canonical d)

theorem WrittenBelow.of_adds {filesRoot canonical : Dir} {t t' : Disk Stored}
    (hroot : realpath t' filesRoot = .ok canonical) (hreal : Real t' canonical)
    (h : Adds (fun d new => new = .dir ∨ Below canonical d) t t') : WrittenBelow filesRoot t t' := by
  intro d hchanged
  rcases h d with hsame | ⟨hnone, new, hnew, hdir | hbelow⟩
  · exact absurd hsame hchanged
  · exact ⟨hnone, .inl (hdir ▸ hnew)⟩
  · exact ⟨hnone, .inr ⟨canonical, hroot, hreal, hbelow⟩⟩

theorem WrittenBelow.of_dirs {filesRoot : Dir} {t t' : Disk Stored}
    (h : Adds (fun _ new => new = .dir) t t') : WrittenBelow filesRoot t t' := by
  intro d hchanged
  rcases h d with hsame | ⟨hnone, new, hnew, hdir⟩
  · exact absurd hsame hchanged
  · exact ⟨hnone, .inl (hdir ▸ hnew)⟩

theorem restore_ends (ports : Ports) (guest : Guest) (request : RestoreRequest) (received : Bytes)
    (t : Disk Stored) :
    (restore ports guest request received).Ends t fun r t' =>
      WrittenBelow (filesRootOf guest.customerDirectory request.id) t t' ∧
        (r = .ok () → ∃ metadata unpacked canonical,
          readArchive ports request received = .ok (metadata, unpacked) ∧
          realpath t' (filesRootOf guest.customerDirectory request.id) = .ok canonical ∧
          ∀ file ∈ metadata.files, Restored canonical (contentOf unpacked) t' file) := by
  refine Action.Ends.bind (Action.Ends.ofExcept ?_)
  cases hread : readArchive ports request received with
  | error e => exact ⟨fun d h => absurd rfl h, fun h => by cases h⟩
  | ok archive =>
    refine (restoreFiles_ends _ _ _ _ _ t).mono fun r t' h => ?_
    rcases h with ⟨hdirs, hr⟩ | ⟨canonical, hroot, hreal, hadds, hall⟩
    · exact ⟨.of_dirs hdirs, fun h => absurd h hr⟩
    · exact ⟨.of_adds hroot hreal hadds, fun hr =>
        ⟨archive.1, archive.2, canonical, rfl, hroot, hall hr⟩⟩

/-- **Archives.**  What a capture packs under a limit is unpacked to the same names and bytes, and
    the restore's checks accept it; an archive whose entries are not exactly those of its metadata
    leaves the customer's directory untouched; and what a restore writes, whatever was there and
    however it ends, is new and stands below its own files root. -/
theorem archives (ports : Ports) :
    (∀ guest request sources captured restore,
      capture ports guest request sources = .ok captured →
      Inverts (ports.extract captured.archive) captured.files →
      ports.parse (ports.text captured.metadata) = some captured.metadata →
      RestoreRequest.Of restore ports request captured →
      unpackBackup (ports.extract captured.archive) request.limits.maxBytes = .ok captured.files ∧
      readArchive ports restore captured.archive = .ok (captured.metadata, captured.files)) ∧
    (∀ guest request received tree,
      (∀ metadata, ¬ Exactly ports request.limits.maxBytes (ports.extract received) metadata) →
      (restore ports guest request received tree).2 = tree ∧
      ∃ fault, (restore ports guest request received tree).1 = .error fault) ∧
    ∀ guest request received tree,
      WrittenBelow (filesRootOf guest.customerDirectory request.id) tree
        (restore ports guest request received tree).2 ∧
      ((restore ports guest request received tree).1 = .ok () →
        ∃ metadata unpacked canonical,
          readArchive ports request received = .ok (metadata, unpacked) ∧
          realpath (restore ports guest request received tree).2
            (filesRootOf guest.customerDirectory request.id) = .ok canonical ∧
          ∀ file ∈ metadata.files, Restored canonical (contentOf unpacked)
            (restore ports guest request received tree).2 file) := by
  refine ⟨fun guest request sources captured restore hcapture hinverts hparse hof => ?_,
    fun guest request received tree hno => ?_, fun guest request received tree =>
      restore_ends ports guest request received tree⟩
  · have hsound := capture_sound hcapture
    exact ⟨hsound.unpacked hinverts, hsound.read hinverts hparse hof⟩
  · cases hread : readArchive ports request received with
    | ok archive => exact absurd (readArchive_exactly hread) (hno archive.1)
    | error fault =>
      have hrun : restore ports guest request received tree = (.error fault, tree) := by
        show (Action.ofExcept (readArchive ports request received) >>= _) tree = _
        simp only [Bind.bind, Action.ofExcept, hread]
      exact ⟨by rw [hrun], fault, by rw [hrun]⟩

namespace Demo

def recipe : BackupRecipe :=
  ⟨"shop", "1c6f0a52-7f0e-4b1b-8a53-5f6f8f1f2d10", "db", "shop", "shop", ["data/a.txt"]⟩

def limits : Limits := ⟨1048576, 300, by decide, by decide, by decide, by decide⟩

def request : CaptureRequest := ⟨"9b2e4c1a-6f3d-4d8e-9a77-0c5d1e2f3a4b", recipe, limits⟩

def guest : Guest := ⟨resolve Dir.root "/var/lib/agent-customer"⟩

def source : ComposeApply :=
  ⟨"shop", "1c6f0a52-7f0e-4b1b-8a53-5f6f8f1f2d10", none, 120, "compose.yaml",
    [⟨"compose.yaml", "c2VydmljZXM6Cg==", false⟩]⟩

def deployment : Deployment :=
  ⟨source, Compose.Demo.captured "restart" (.str "always"), resolve Dir.root
    "/var/lib/agent-cloud/compose/shop/releases/1c6f0a52-7f0e-4b1b-8a53-5f6f8f1f2d10/source"⟩

def upload : Stored := ⟨[104, 105], 0o100644, 1000, 1000⟩

/-- The customer's directory with one file in a directory of it. -/
def tree : Disk Stored := fun d =>
  if d.text = "/var/lib/agent-customer/data/a.txt" then some (.file upload)
  else if d.text ∈ ["/var", "/var/lib", "/var/lib/agent-customer", "/var/lib/agent-customer/data"] then
    some .dir
  else none

def sources : Sources :=
  { deployment := deployment
    customerFiles := tree
    globals := .ok [45, 45, 10]
    dump := .ok [80, 71, 68, 77, 80, 1, 14]
    postgresVersion := "17.9"
    capturedAt := "2025-01-01T00:00:00.000Z"
    completedAt := "2025-01-01T00:00:01.000Z" }

def metadata : Metadata :=
  metadataOf guest request sources [⟨"data/a.txt", "file-0", 0o644, 1000, 1000⟩]

/-- `JSON.stringify` of it, with the constant fields of the manifest. -/
def text : String :=
  "\x7b\"version\":1,\"backupId\":\"9b2e4c1a-6f3d-4d8e-9a77-0c5d1e2f3a4b\",\"manifest\":\x7b\"version\":1,\"recipe\":\x7b\"kind\":\"compose-postgres\",\"app\":\"shop\",\"releaseId\":\"1c6f0a52-7f0e-4b1b-8a53-5f6f8f1f2d10\",\"service\":\"db\",\"database\":\"shop\",\"user\":\"shop\",\"files\":[\"data/a.txt\"]\x7d,\"capturedAt\":\"2025-01-01T00:00:00.000Z\",\"completedAt\":\"2025-01-01T00:00:01.000Z\",\"postgresVersion\":\"17.9\",\"sourceFiles\":1,\"declaredFiles\":[\"data/a.txt\"],\"consistency\":\"database-consistent-files-best-effort\",\"exclusions\":[\"Other databases, tablespaces, replication slots and undeclared files are excluded.\",\"Files and role globals are captured separately from the database snapshot.\",\"Images must remain buildable or pullable from captured Compose source.\",\"File ACLs, extended attributes and filesystem snapshots are not captured.\"]\x7d,\"source\":\x7b\"kind\":\"apply\",\"app\":\"shop\",\"releaseId\":\"1c6f0a52-7f0e-4b1b-8a53-5f6f8f1f2d10\",\"expectedReleaseId\":null,\"waitSeconds\":120,\"file\":\"compose.yaml\",\"files\":[\x7b\"path\":\"compose.yaml\",\"content\":\"c2VydmljZXM6Cg==\",\"executable\":false\x7d]\x7d,\"config\":\x7b\"services\":\x7b\"db\":\x7b\"image\":\"postgres:17.9\",\"restart\":\"always\",\"volumes\":[\x7b\"type\":\"volume\",\"source\":\"data\",\"target\":\"/var/lib/postgresql/data\"\x7d]\x7d\x7d\x7d,\"sourceRoot\":\"/var/lib/agent-cloud/compose/shop/releases/1c6f0a52-7f0e-4b1b-8a53-5f6f8f1f2d10/source\",\"customerRoot\":\"/var/lib/agent-customer\",\"files\":[\x7b\"path\":\"data/a.txt\",\"entry\":\"file-0\",\"mode\":420,\"uid\":1000,\"gid\":1000\x7d]\x7d\n"

/-! ### The tar format, for names of up to a hundred bytes and files of up to eight gigabytes -/

def ascii (text : String) : Bytes := text.toList.map fun c => UInt8.ofNat c.toNat

def octal (width n : Nat) : Bytes :=
  (List.range width).reverse.map (fun i => UInt8.ofNat (48 + n / Nat.pow 8 i % 8)) ++ [32]

def padTo (width : Nat) (bytes : Bytes) : Bytes :=
  bytes ++ List.replicate (width - bytes.length) 0

def headerWith (checksum : Bytes) (name : String) (size : Nat) : Bytes :=
  padTo 100 (ascii name) ++ padTo 8 (octal 6 0o600) ++ padTo 8 (octal 6 0) ++ padTo 8 (octal 6 0) ++
    octal 11 size ++ octal 11 0 ++ checksum ++ ascii "0" ++ padTo 100 [] ++ padTo 6 (ascii "ustar") ++
    ascii "00" ++ padTo 64 [] ++ padTo 8 (octal 6 0) ++ padTo 8 (octal 6 0) ++ padTo 167 []

def header (name : String) (size : Nat) : Bytes :=
  let blank := headerWith (List.replicate 8 32) name size
  headerWith (padTo 8 (octal 6 (blank.foldl (fun sum b => sum + b.toNat) 0))) name size

def readName (header : Bytes) : String :=
  String.ofList (((header.take 100).takeWhile fun b => b ≠ 0).map fun b => Char.ofNat b.toNat)

def readSize (header : Bytes) : Nat :=
  ((header.drop 124).take 11).foldl (fun value b => value * 8 + (b.toNat - 48)) 0

def extractFrom : Nat → Bytes → List Entry
  | 0, _ => []
  | n + 1, bytes =>
    let header := bytes.take block
    if header.all (fun b => b = 0) then []
    else
      let size := readSize header
      let body := (bytes.drop block).take size
      ⟨⟨readName header, some (if header.getD 156 0 = 48 then "file" else "unknown"), some (size : Int),
        none⟩, [body], none⟩ ::
        extractFrom n ((bytes.drop block).drop (size + (padding size).length))

/-- The ports, with the text of the metadata. -/
def ports (json : Bytes) : Ports :=
  { header := header
    extract := fun bytes => ⟨extractFrom 103 bytes, none⟩
    text := fun _ => json
    parse := fun bytes => if bytes = json then some metadata else none
    number := fun _ => []
    sha256 := fun _ => "37e9c6ee3fa1878414f5910578ad26893c042bb5dfb1ac9b05bf4a71d54cd7ce" }

def copies : List (DeclaredFile × Bytes) :=
  [(⟨"data/a.txt", "file-0", 0o644, 1000, 1000⟩, [104, 105])]

def files (json : Bytes) : List Named :=
  archived json [45, 45, 10] [80, 71, 68, 77, 80, 1, 14] copies

def captured (json : Bytes) : Captured := ⟨metadata, files json, packed (ports json) (files json)⟩

def restoreRequest : RestoreRequest :=
  ⟨"5a0d7c3e-2b41-4f6a-b0c8-7d9e1f203142", request.id, "shop", limits, 6144,
    "37e9c6ee3fa1878414f5910578ad26893c042bb5dfb1ac9b05bf4a71d54cd7ce"⟩

set_option maxRecDepth 20000 in
theorem text_length : (Json.utf8 text.toList).length = 1411 := by
  obtain ⟨chars, hchars, hlength⟩ : ∃ chars, text.toList = chars ∧ (Json.utf8 chars).length = 1411 :=
    ⟨_, String.toList_ofList, by decide +kernel⟩
  rw [hchars, hlength]

theorem ok_of_toOption {ε α : Type} {x : Except ε α} {a : α} (h : x.toOption = some a) :
    x = .ok a := by
  cases x with
  | error e => cases h
  | ok b => exact congrArg _ (Option.some.inj h)

/-- A header that is read back. -/
structure ReadsBack (name : String) (size : Nat) : Prop where
  length : (header name size).length = block
  named : readName (header name size) = name
  sized : readSize (header name size) = size
  regular : (header name size).getD 156 0 = 48
  used : (header name size).all (fun b => b = 0) = false

theorem header_reads : ReadsBack "metadata.json" 1411 ∧ ReadsBack "globals.sql" 3 ∧
    ReadsBack "database.dump" 7 ∧ ReadsBack "file-0" 2 := by
  refine ⟨⟨?_, ?_, ?_, ?_, ?_⟩, ⟨?_, ?_, ?_, ?_, ?_⟩, ⟨?_, ?_, ?_, ?_, ?_⟩, ?_, ?_, ?_, ?_, ?_⟩
  all_goals decide +kernel

/-- An archive ends with two empty blocks. -/
theorem extractFrom_end (n : Nat) : extractFrom (n + 1) (List.replicate (2 * block) 0) = [] := by
  have hempty : (((List.replicate (2 * block) 0).take block).all fun b : UInt8 => b = 0) = true := by
    rw [List.take_replicate]
    simp
  rw [extractFrom]
  exact if_pos hempty

theorem captured_parses (json : Bytes) :
    (ports json).parse ((ports json).text (captured json).metadata) =
      some (captured json).metadata := if_pos rfl

/-! Of the text only its length matters. -/

section

variable {json : Bytes} (hlength : json.length = 1411)

theorem packEntry_length {file : Named} (h : ReadsBack file.1 file.2.length) :
    (packEntry (ports json) file).length = block + file.2.length + (padding file.2.length).length := by
  show (header file.1 file.2.length ++ file.2 ++ padding file.2.length).length = _
  rw [List.length_append, List.length_append, h.length]

/-- One packed entry is read back, and reading goes on behind its padding. -/
theorem extractFrom_packEntry {n : Nat} {file : Named} {rest : Bytes}
    (h : ReadsBack file.1 file.2.length) :
    extractFrom (n + 1) (packEntry (ports json) file ++ rest) =
      ⟨⟨file.1, some "file", some (file.2.length : Int), none⟩, [file.2], none⟩ ::
        extractFrom n rest := by
  have hbytes : packEntry (ports json) file ++ rest =
      header file.1 file.2.length ++ (file.2 ++ (padding file.2.length ++ rest)) := by
    show header file.1 file.2.length ++ file.2 ++ padding file.2.length ++ rest = _
    simp only [List.append_assoc]
  have htake : (packEntry (ports json) file ++ rest).take block = header file.1 file.2.length := by
    rw [hbytes, ← h.length, List.take_left]
  have hdrop : (packEntry (ports json) file ++ rest).drop block =
      file.2 ++ (padding file.2.length ++ rest) := by
    rw [hbytes, ← h.length, List.drop_left]
  rw [extractFrom]
  dsimp only
  rw [htake, hdrop, h.used, h.sized, h.named, h.regular, List.take_left, ← List.drop_drop,
    List.drop_left, List.drop_left]
  rfl

include hlength

theorem files_read : ∀ file ∈ files json, ReadsBack file.1 file.2.length := by
  obtain ⟨hmetadata, hglobals, hdump, hfile⟩ := header_reads
  intro file hm
  simp only [files, archived, copies, List.map_cons, List.map_nil, List.mem_cons,
    List.not_mem_nil, or_false] at hm
  rcases hm with rfl | rfl | rfl | rfl
  · show ReadsBack "metadata.json" json.length
    rw [hlength]
    exact hmetadata
  · exact hglobals
  · exact hdump
  · exact hfile

theorem captured_inverts :
    Inverts ((ports json).extract (captured json).archive) (captured json).files := by
  have hread := files_read hlength
  have hextract : ((ports json).extract (captured json).archive).entries =
      extractFrom 103 (captured json).archive := by simp only [ports]
  have harchive : (captured json).archive = packed (ports json) (files json) := by
    simp only [captured]
  have hentries : ((ports json).extract (captured json).archive).entries = (files json).map fun file =>
      ⟨⟨file.1, some "file", some (file.2.length : Int), none⟩, [file.2], none⟩ := by
    rw [hextract, harchive, packed]
    simp only [files, archived, copies, List.map_cons, List.map_nil, List.flatMap_cons,
      List.flatMap_nil, List.append_assoc, List.append_nil] at hread ⊢
    rw [extractFrom_packEntry (hread _ (by simp)), extractFrom_packEntry (hread _ (by simp)),
      extractFrom_packEntry (hread _ (by simp)), extractFrom_packEntry (hread _ (by simp)),
      extractFrom_end]
  refine ⟨?_, fun entry hentry => ?_, rfl⟩
  · rw [hentries, List.map_map]
    simp [Function.comp_def, Entry.named, Entry.body, captured]
  · rw [hentries] at hentry
    obtain ⟨file, -, rfl⟩ := List.mem_map.mp hentry
    exact ⟨rfl, rfl, by simp [Entry.body], rfl⟩

theorem packed_length : (packed (ports json) (files json)).length = 6144 := by
  have hread := files_read hlength
  rw [packed]
  simp only [files, archived, copies, List.map_cons, List.map_nil, List.flatMap_cons,
    List.flatMap_nil, List.append_nil, List.length_append, List.length_replicate] at hread ⊢
  rw [packEntry_length (hread _ (by simp)), packEntry_length (hread _ (by simp)),
    packEntry_length (hread _ (by simp)), packEntry_length (hread _ (by simp)), hlength]
  simp only [padding, block, List.length_replicate, List.length_cons, List.length_nil]

theorem captured_ok : capture (ports json) guest request sources = .ok (captured json) := by
  -- of the ports this needs only how numbers are written
  have hnumbers : checkRestorable (ports []) guest request deployment = .ok () :=
    ok_of_toOption (by decide +kernel)
  have hrestorable : checkRestorable (ports json) guest request deployment = .ok () := hnumbers
  have hcopies : copyFiles (fun relative =>
      (openDeclared guest.customerDirectory relative sources.customerFiles).1)
      limits.maxBytes 0 0 recipe.files = .ok copies := ok_of_toOption (by decide +kernel)
  have hschema : metadataSchema metadata = true := by decide +kernel
  simp only [capture, packBackup, bind_ok_iff, refuse_ok_iff, pure_ok_iff, Decidable.not_not]
  refine ⟨(), by decide, (), hrestorable, copies, hcopies, _, rfl, (), by decide, _, rfl, (),
    by decide, (), by decide, (), ?_, (), ?_, _, ⟨(), ?_, rfl⟩, rfl⟩
  · rw [Bool.not_eq_false]
    exact hschema
  · show ¬ json.length > metadataMaximum
    rw [hlength]
    decide
  · show ¬ (packed (ports json) (files json)).length > limits.maxBytes
    rw [packed_length hlength]
    decide

theorem captured_requested : restoreRequest.Of (ports json) request (captured json) :=
  ⟨rfl, rfl, (packed_length hlength).symm, rfl⟩

end

/-- A database with one uploaded file is captured, and its archive passes the checks of a restore. -/
theorem captured_restores : ∃ json, (Json.utf8 text.toList) = json ∧
    unpackBackup ((ports json).extract (captured json).archive) limits.maxBytes =
      .ok (captured json).files ∧
    readArchive (ports json) restoreRequest (captured json).archive =
      .ok ((captured json).metadata, (captured json).files) :=
  ⟨_, rfl, (archives (ports _)).1 guest request sources (captured _) restoreRequest
    (captured_ok text_length) (captured_inverts text_length) (captured_parses _)
    (captured_requested text_length)⟩

end Demo

end AgentCloud.Archives
