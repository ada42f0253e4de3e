/-
  BACKUP ARCHIVES: what a capture packs and what an archive is unpacked to
  (`packages/guestctl/src/backup-archive.ts` and the capture of `backups.ts`).

  The tar format is not the guest's own: a header and the reader are ports, a packed entry is its
  header, its bytes and the padding to a block, and an archive ends with two empty blocks.  So an
  archive is longer than its entries together, and a byte limit that admits the archive admits them
  (`bytes_le_pack`).  The reader yields any sequence of entries, each with whatever its header says
  and a body that may stop early.

  `unpackBackup` keeps what it accepts: named files of known names, each once, whole, and together
  within the limit (`unpackBackup_ok`); and it accepts what a capture packs (`unpackBackup_total`).
-/
import AgentCloud.Deployments.Records
import AgentCloud.Lib.Base64
import Mathlib.Data.List.Nodup

namespace AgentCloud.Archives

open Checked Posix
open Compose (schemaError)
open Deployments (ComposeFile)

abbrev Bytes := List UInt8

/-! ## Schemas -/

/-- `composePathSchema`. -/
def composePathSchema (value : String) : Bool :=
  decide (1 ≤ (Utf.ofString value).length) && decide ((Utf.ofString value).length ≤ 1024) &&
    (split value.toList).all (fun part => part ≠ [] ∧ part ≠ ['.'] ∧ part ≠ dotdot) &&
    value.toList.all fun c => 32 ≤ c.toNat ∧ c.toNat ≠ 127 ∧ c.toNat ≠ 92

/-- `/^file-[0-9]{1,2}$/`. -/
def isEntryName (name : String) : Bool :=
  "file-".toList.isPrefixOf name.toList &&
    decide (1 ≤ (name.toList.drop 5).length ∧ (name.toList.drop 5).length ≤ 2) &&
    (name.toList.drop 5).all Char.isDigit

/-- The most characters of base64 that one bundle, or one file of it, may have. -/
def bundleMaximum : Nat := 11184812

/-- `file.content.length`. -/
def encodedLength (file : ComposeFile) : Nat := (Utf.ofString file.content).length

def encodedBytes (files : List ComposeFile) : Nat :=
  files.foldl (fun bytes file => bytes + encodedLength file) 0

def composeFileSchema (file : ComposeFile) : Bool :=
  composePathSchema file.path && Base64.isBase64 file.content.toList &&
    decide (encodedLength file ≤ bundleMaximum)

def composeBundleSchema (files : List ComposeFile) : Bool :=
  decide (1 ≤ files.length) && decide (files.length ≤ 1024) && files.all composeFileSchema &&
    decide (files.map ComposeFile.path).Nodup && decide (encodedBytes files ≤ bundleMaximum)

/-- `/^[a-z][a-z0-9-]{0,39}$/`. -/
def composeAppSchema (value : String) : Bool :=
  match value.toList with
  | [] => false
  | first :: rest => first.isLower && decide (rest.length ≤ 39) &&
      rest.all fun c => c.isLower || c.isDigit || c == '-'

/-- A hexadecimal digit, of either case. -/
def isHex (c : Char) : Bool :=
  c.isDigit || (decide (97 ≤ c.toNat) && decide (c.toNat ≤ 102)) ||
    (decide (65 ≤ c.toNat) && decide (c.toNat ≤ 70))

/-- `z.uuidv4()`, which does not mind the case of a digit. -/
def uuidv4 (value : String) : Bool :=
  match value.toList.splitOn '-' with
  | [a, b, c, d, e] =>
    decide (a.length = 8 ∧ b.length = 4 ∧ c.length = 4 ∧ d.length = 4 ∧ e.length = 12) &&
      (a ++ b ++ c ++ d ++ e).all isHex && c.head? == some '4' &&
      (d.head?.any fun first => first ∈ ['8', '9', 'a', 'b', 'A', 'B'])
  | _ => false

/-- `backupIdSchema` and `restoreIdSchema`. -/
def backupIdSchema (value : String) : Bool := uuidv4 value

/-- `z.uuidv4().regex(/^[a-f0-9-]{36}$/)`. -/
def composeReleaseIdSchema (value : String) : Bool :=
  uuidv4 value && decide (value.toList.length = 36) &&
    value.toList.all fun c => c.isDigit || c == '-' || (decide (97 ≤ c.toNat) && decide (c.toNat ≤ 102))

/-- `composeApplySchema`. -/
structure ComposeApply where
  app : String
  releaseId : String
  expectedReleaseId : Option String
  waitSeconds : Nat
  file : String
  files : List ComposeFile
  deriving DecidableEq

def composeApplySchema (request : ComposeApply) : Bool :=
  composeAppSchema request.app && composeReleaseIdSchema request.releaseId &&
    request.expectedReleaseId.all composeReleaseIdSchema &&
    decide (5 ≤ request.waitSeconds) && decide (request.waitSeconds ≤ 300) &&
    composePathSchema request.file && composeBundleSchema request.files

/-- `backupRecipeSchema`. -/
structure BackupRecipe where
  app : String
  releaseId : String
  service : String
  database : String
  user : String
  files : List String
  deriving DecidableEq

/-- `backupCaptureManifestSchema`; its constant fields are left out. -/
structure Manifest where
  recipe : BackupRecipe
  capturedAt : String
  completedAt : String
  postgresVersion : String
  sourceFiles : Nat
  declaredFiles : List String
  deriving DecidableEq

structure DeclaredFile where
  path : String
  entry : String
  mode : Nat
  uid : Nat
  gid : Nat
  deriving DecidableEq

structure Metadata where
  backupId : String
  manifest : Manifest
  source : ComposeApply
  /-- A configuration that `composeConfigSchema` accepts. -/
  config : Json
  sourceRoot : String
  customerRoot : String
  files : List DeclaredFile
  deriving DecidableEq

def backupCaptureManifestSchema (manifest : Manifest) : Bool :=
  decide (manifest.recipe.files.length ≤ 100) && manifest.recipe.files.all composePathSchema &&
    decide (1 ≤ (Utf.ofString manifest.postgresVersion).length) &&
    decide ((Utf.ofString manifest.postgresVersion).length ≤ 128) &&
    decide (1 ≤ manifest.sourceFiles) && decide (manifest.sourceFiles ≤ 1024) &&
    decide (manifest.declaredFiles.length ≤ 100) && manifest.declaredFiles.all composePathSchema

def metadataSchema (metadata : Metadata) : Bool :=
  backupIdSchema metadata.backupId && backupCaptureManifestSchema metadata.manifest && composeApplySchema metadata.source &&
    isAbsolute metadata.sourceRoot && isAbsolute metadata.customerRoot &&
    decide (metadata.files.length ≤ 100) &&
    metadata.files.all fun file =>
      composePathSchema file.path && isEntryName file.entry && decide (file.mode ≤ 0o777)

def metadataMaximum : Nat := 33554432

/-! ## What the guest does not decide -/

structure Header where
  name : String
  type : Option String
  /-- `none` is what is no integer. -/
  size : Option Int
  linkname : Option String
  deriving DecidableEq

/-- One entry as the reader yields it: chunks, and the fault its body ended with, if it did. -/
structure Entry where
  header : Header
  chunks : List Bytes
  stop : Option Fault

/-- A whole archive, as the reader yields it. -/
structure Tape where
  entries : List Entry
  stop : Option Fault

structure Ports where
  /-- The header blocks of a regular file, of this name and size. -/
  header : String → Nat → Bytes
  extract : Bytes → Tape
  /-- `JSON.stringify(metadata) + '\n'`. -/
  text : Metadata → Bytes
  /-- `JSON.parse` of a file, as far as it has the shape of metadata. -/
  parse : Bytes → Option Metadata
  /-- How `JSON.stringify` writes a number. -/
  number : Rat → List Char
  sha256 : Bytes → String

/-! ## Packing -/

def block : Nat := 512

def padding (size : Nat) : Bytes := List.replicate ((block - size % block) % block) 0

/-- A named file with its bytes. -/
abbrev Named := String × Bytes

def packEntry (ports : Ports) (file : Named) : Bytes :=
  ports.header file.1 file.2.length ++ file.2 ++ padding file.2.length

def packed (ports : Ports) (files : List Named) : Bytes :=
  files.flatMap (packEntry ports) ++ List.replicate (2 * block) 0

def overLimit : Fault := cloudError .quotaExceeded "Backup data exceeds its admitted byte limit."

def packBackup (ports : Ports) (files : List Named) (maximum : Nat) : Except Fault Bytes := do
  refuse ((packed ports files).length > maximum) overLimit
  pure (packed ports files)

def totalBytes (files : List Named) : Nat := files.foldl (fun total file => total + file.2.length) 0

theorem foldl_bytes (files : List Named) (start : Nat) :
    files.foldl (fun total file => total + file.2.length) start = start + totalBytes files := by
  induction files generalizing start with
  | nil => rfl
  | cons file files ih =>
    have hstart := ih (start + file.2.length)
    have hzero := ih (0 + file.2.length)
    rw [List.foldl_cons, hstart]
    show _ = start + files.foldl (fun total file => total + file.2.length) (0 + file.2.length)
    omega

theorem totalBytes_cons (file : Named) (files : List Named) :
    totalBytes (file :: files) = file.2.length + totalBytes files := by
  rw [totalBytes, List.foldl_cons, foldl_bytes]
  omega

theorem totalBytes_append (files more : List Named) :
    totalBytes (files ++ more) = totalBytes files + totalBytes more := by
  rw [totalBytes, List.foldl_append, foldl_bytes]
  rfl

/-- An archive is longer than what is in it. -/
theorem bytes_le_pack (ports : Ports) (files : List Named) :
    totalBytes files ≤ (packed ports files).length := by
  have hentries : ∀ files : List Named,
      totalBytes files ≤ (files.flatMap (packEntry ports)).length := by
    intro files
    induction files with
    | nil => exact Nat.zero_le _
    | cons file files ih =>
      rw [totalBytes_cons, List.flatMap_cons, List.length_append, packEntry, List.length_append,
        List.length_append]
      omega
  have hfiles := hentries files
  rw [packed, List.length_append]
  omega

/-! ## Unpacking -/

def unexpectedEntry : Fault :=
  cloudError .invalidInput "Backup archive has an unexpected or duplicate entry."

/-- `/^(metadata\.json|database\.dump|globals\.sql|file-[0-9]{1,2})$/`. -/
def isArchiveName (name : String) : Bool :=
  decide (name ∈ ["metadata.json", "database.dump", "globals.sql"]) || isEntryName name

/-- The largest integer that is safe. -/
def maxSafeInteger : Int := 9007199254740991

/-- `writeBackupStream` of a body: chunks are written while they are within the limit. -/
def writeChunks (maximum : Nat) : Bytes → List Bytes → Except Fault Bytes
  | written, [] => .ok written
  | written, chunk :: chunks => do
    refuse (written.length + chunk.length > maximum) overLimit
    writeChunks maximum (written ++ chunk) chunks

def writeBody (maximum : Nat) (entry : Entry) : Except Fault Bytes := do
  let written ← writeChunks maximum [] entry.chunks
  match entry.stop with
  | some fault => .error fault
  | none => .ok written

/-- One entry, beside those unpacked before it. -/
def unpackEntry (maximum : Nat) (names : List String) (total : Nat) (entry : Entry) :
    Except Fault Bytes := do
  refuse (entry.header.type ≠ some "file" ∨ entry.header.linkname.getD "" ≠ "" ∨
    isArchiveName entry.header.name = false ∨ entry.header.name ∈ names ∨ names.length ≥ 103)
    unexpectedEntry
  let size ← present entry.header.size unexpectedEntry
  refuse (size > maxSafeInteger ∨ size < 0) unexpectedEntry
  refuse (total + size.toNat > maximum)
    (cloudError .quotaExceeded "Backup archive entries exceed their byte limit.")
  let written ← writeBody size.toNat entry
  refuse (written.length ≠ size.toNat) (.other "Backup archive entry was truncated.")
  pure written

def unpackFrom (maximum : Nat) (stop : Option Fault) :
    List Named → List Entry → Except Fault (List Named)
  | unpacked, [] =>
    match stop with
    | some fault => .error fault
    | none => .ok unpacked
  | unpacked, entry :: entries => do
    let written ← unpackEntry maximum (unpacked.map Prod.fst) (totalBytes unpacked) entry
    unpackFrom maximum stop (unpacked ++ [(entry.header.name, written)]) entries

/-- The names and the bytes of the files that were written, in their order. -/
def unpackBackup (tape : Tape) (maximum : Nat) : Except Fault (List Named) :=
  unpackFrom maximum tape.stop [] tape.entries

/-- The bytes of an entry, before anything that its reader failed with. -/
def Entry.body (entry : Entry) : Bytes := entry.chunks.flatten

def Entry.named (entry : Entry) : Named := (entry.header.name, entry.body)

/-- A regular file with exactly the bytes that its header declares. -/
structure Regular (entry : Entry) : Prop where
  type : entry.header.type = some "file"
  linkname : entry.header.linkname.getD "" = ""
  size : entry.header.size = some (entry.body.length : Int)
  whole : entry.stop = none

theorem writeChunks_ok {maximum : Nat} {chunks : List Bytes} {before written : Bytes} :
    writeChunks maximum before chunks = .ok written ↔
      written = before ++ chunks.flatten ∧ (chunks ≠ [] → written.length ≤ maximum) := by
  induction chunks generalizing before with
  | nil => simp [writeChunks, eq_comm]
  | cons chunk chunks ih =>
    simp only [writeChunks, bind_ok_iff, refuse_ok_iff, ih, List.flatten_cons, ne_eq,
      reduceCtorEq, not_false_eq_true, forall_const, ← List.append_assoc]
    constructor
    · rintro ⟨-, hfits, rfl, hrest⟩
      refine ⟨rfl, ?_⟩
      by_cases hnil : chunks = []
      · simpa [hnil] using hfits
      · exact hrest hnil
    · rintro ⟨rfl, hfits⟩
      refine ⟨(), ?_, rfl, fun _ => hfits⟩
      simp only [List.length_append] at hfits
      omega

theorem writeBody_ok {maximum : Nat} {entry : Entry} {written : Bytes}
    (h : written.length = maximum) :
    writeBody maximum entry = .ok written ↔ written = entry.body ∧ entry.stop = none := by
  unfold writeBody
  cases hstop : entry.stop with
  | some fault => simp
  | none =>
    simp only [bind_ok_iff, writeChunks_ok, List.nil_append, Except.ok.injEq, and_true]
    constructor
    · rintro ⟨_, ⟨hbody, -⟩, rfl⟩
      exact hbody
    · rintro rfl
      exact ⟨_, ⟨rfl, fun _ => Nat.le_of_eq h⟩, rfl⟩

/-- What one entry has to be. -/
theorem unpackEntry_ok {maximum total : Nat} {names : List String} {entry : Entry}
    {written : Bytes} : unpackEntry maximum names total entry = .ok written ↔
      Regular entry ∧ isArchiveName entry.header.name = true ∧ entry.header.name ∉ names ∧
        names.length < 103 ∧ (entry.body.length : Int) ≤ maxSafeInteger ∧
        total + entry.body.length ≤ maximum ∧ written = entry.body := by
  simp only [unpackEntry, bind_ok_iff, refuse_ok_iff, present_ok_iff, pure_ok_iff, not_or, ne_eq,
    Decidable.not_not, Bool.not_eq_false]
  constructor
  · rintro ⟨-, ⟨htype, hlink, hname, hnew, hcount⟩, size, hsize, -, ⟨hsafe, hnat⟩, -, htotal, _,
      hwritten, -, hlength, rfl⟩
    obtain ⟨rfl, hstop⟩ := (writeBody_ok hlength).mp hwritten
    have hsize' : size = (entry.body.length : Int) := by omega
    refine ⟨⟨htype, hlink, by rw [hsize, hsize'], hstop⟩, hname, hnew, by omega, by omega, by omega, rfl⟩
  · rintro ⟨⟨htype, hlink, hsize, hstop⟩, hname, hnew, hcount, hsafe, htotal, rfl⟩
    refine ⟨(), ⟨htype, hlink, hname, hnew, by omega⟩, _, hsize, (), ⟨by omega, by omega⟩, (),
      by omega, entry.body, (writeBody_ok (by omega)).mpr ⟨rfl, hstop⟩, (), by omega, rfl⟩

/-- What is unpacked: exactly the entries, all of them regular, each name once. -/
structure Unpacked (maximum : Nat) (tape : Tape) (unpacked : List Named) : Prop where
  files : unpacked = tape.entries.map Entry.named
  regular : ∀ entry ∈ tape.entries, Regular entry
  known : ∀ entry ∈ tape.entries, isArchiveName entry.header.name = true
  distinct : (unpacked.map Prod.fst).Nodup
  count : unpacked.length ≤ 103
  total : totalBytes unpacked ≤ maximum
  ended : tape.stop = none

theorem unpackFrom_ok {maximum : Nat} {stop : Option Fault} {before unpacked : List Named}
    {entries : List Entry} (hbefore : (before.map Prod.fst).Nodup) (hcount : before.length ≤ 103)
    (htotal : totalBytes before ≤ maximum) (hsafe : (maximum : Int) ≤ maxSafeInteger) :
    unpackFrom maximum stop before entries = .ok unpacked ↔
      unpacked = before ++ entries.map Entry.named ∧ (∀ entry ∈ entries, Regular entry) ∧
        (∀ entry ∈ entries, isArchiveName entry.header.name = true) ∧
        (unpacked.map Prod.fst).Nodup ∧ unpacked.length ≤ 103 ∧ totalBytes unpacked ≤ maximum ∧
        stop = none := by
  induction entries generalizing before with
  | nil =>
    unfold unpackFrom
    cases stop with
    | some fault => simp
    | none =>
      simp only [Except.ok.injEq, List.map_nil, List.append_nil, List.not_mem_nil, false_implies,
        implies_true, true_and, and_true]
      constructor
      · rintro rfl
        exact ⟨rfl, hbefore, hcount, htotal⟩
      · rintro ⟨rfl, -⟩
        rfl
  | cons entry entries ih =>
    simp only [unpackFrom, bind_ok_iff, unpackEntry_ok]
    constructor
    · rintro ⟨_, ⟨hregular, hname, hnew, hless, -, hfits, rfl⟩, hrest⟩
      have hnodup : ((before ++ [entry.named]).map Prod.fst).Nodup := by
        rw [List.map_append, List.map_singleton]
        exact List.nodup_append.mpr ⟨hbefore, List.nodup_singleton _, by
          intro a ha b hb hab
          have hname' : a = entry.header.name := hab.trans (List.mem_singleton.mp hb)
          exact hnew (hname' ▸ ha)⟩
      have hlength : (before ++ [entry.named]).length ≤ 103 := by
        rw [List.length_map] at hless
        rw [List.length_append, List.length_singleton]
        omega
      have hbytes : totalBytes (before ++ [entry.named]) ≤ maximum := by
        rw [totalBytes_append, totalBytes_cons]
        exact hfits
      obtain ⟨hfiles, hregular', hknown, hmore⟩ := (ih hnodup hlength hbytes).mp hrest
      refine ⟨by rw [hfiles]; simp, ?_, ?_, hmore⟩
      · rintro other (_ | ⟨_, hother⟩)
        · exact hregular
        · exact hregular' other hother
      · rintro other (_ | ⟨_, hother⟩)
        · exact hname
        · exact hknown other hother
    · rintro ⟨hfiles, hregular, hknown, hnodup, hlength, hbytes, hstop⟩
      have hsplit : unpacked = (before ++ [entry.named]) ++ entries.map Entry.named := by
        rw [hfiles]
        simp
      have hfirst : ((before ++ [entry.named]).map Prod.fst).Nodup := by
        rw [hsplit, List.map_append] at hnodup
        exact (List.nodup_append.mp hnodup).1
      have hcount' : (before ++ [entry.named]).length ≤ 103 := by
        rw [hsplit, List.length_append] at hlength
        omega
      have htotal' : totalBytes (before ++ [entry.named]) ≤ maximum := by
        rw [hsplit, totalBytes_append] at hbytes
        omega
      have hone := hregular entry (by simp)
      refine ⟨entry.body, ⟨hone, hknown entry (by simp), ?_, ?_, ?_, ?_, rfl⟩, ?_⟩
      · rw [List.map_append, List.map_singleton] at hfirst
        intro hin
        exact (List.nodup_append.mp hfirst).2.2 _ hin _ (List.mem_singleton.mpr rfl) rfl
      · rw [List.length_append, List.length_singleton] at hcount'
        rw [List.length_map]
        omega
      · rw [totalBytes_append, totalBytes_cons] at htotal'
        have hbody : entry.body.length ≤ maximum := by
          show entry.named.2.length ≤ maximum
          omega
        omega
      · rw [totalBytes_append, totalBytes_cons] at htotal'
        show totalBytes before + entry.named.2.length ≤ maximum
        omega
      · exact (ih hfirst hcount' htotal').mpr ⟨hsplit,
          fun other hother => hregular other (List.mem_cons_of_mem _ hother),
          fun other hother => hknown other (List.mem_cons_of_mem _ hother), hnodup, hlength, hbytes,
          hstop⟩

theorem unpackBackup_ok {maximum : Nat} {tape : Tape} {unpacked : List Named}
    (hsafe : (maximum : Int) ≤ maxSafeInteger) :
    unpackBackup tape maximum = .ok unpacked ↔ Unpacked maximum tape unpacked := by
  have hfrom := @unpackFrom_ok maximum tape.stop [] unpacked tape.entries List.nodup_nil
    (Nat.zero_le _) (Nat.zero_le _) hsafe
  rw [unpackBackup, hfrom, List.nil_append]
  constructor
  · rintro ⟨files, regular, known, distinct, count, total, ended⟩
    exact ⟨files, regular, known, distinct, count, total, ended⟩
  · rintro ⟨files, regular, known, distinct, count, total, ended⟩
    exact ⟨files, regular, known, distinct, count, total, ended⟩

end AgentCloud.Archives
