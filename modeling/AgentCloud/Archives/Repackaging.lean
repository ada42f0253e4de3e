/-
  PACKAGING FOR A RESTORE: the apply request that a restore makes of an archive (`restore` of
  `backups.ts`), and whether every capture can be made into one.

  What the capture has checked bounds the source files and the configuration it rebased under the
  backup's ID; the restore encodes the configuration rebased under its own.  Both IDs have 36 plain
  characters, so the two are equally long, and what base64 adds by rounding is below the difference
  of the two limits.  What no capture can check is the ID of the restore: `restoreIdSchema` reads
  hexadecimal digits of either case, `composeReleaseIdSchema` only lower ones, and the restore uses
  its ID as the release ID.

  `repackaging`: a capture is packaged for exactly the restore IDs without an upper-case letter.
-/
import AgentCloud.Archives.Rebasing
import AgentCloud.Archives.Restoring

namespace AgentCloud.Archives

open Checked Posix FileTree
open Compose (ComposeConfig RestoreInput isolatedBackupConfig schemaError)
open Deployments (ComposeFile)

/-! ## The apply request -/

/-- `restoreIdSchema`. -/
def restoreIdSchema (value : String) : Bool := uuidv4 value

def restoreFilename (id : String) : String := "restore-" ++ id ++ ".json"

/-- `Buffer.from(JSON.stringify(config)).toString('base64')`. -/
def configContent (ports : Ports) (config : ComposeConfig) : String :=
  String.ofList (Base64.encode (Json.utf8 (configText ports config)))

def commandOf (ports : Ports) (request : RestoreRequest) (metadata : Metadata)
    (config : ComposeConfig) : ComposeApply where
  app := request.app
  releaseId := request.id
  expectedReleaseId := none
  waitSeconds := min 300 request.limits.timeoutSeconds
  file := restoreFilename request.id
  files := metadata.source.files ++ [⟨restoreFilename request.id, configContent ports config, false⟩]

/-- From the metadata of an archive to the request that is applied.  That both roots are absolute
    was checked with the metadata's schema. -/
def restoreCommand (ports : Ports) (guest : Guest) (request : RestoreRequest) (metadata : Metadata) :
    Except Fault ComposeApply :=
  if habsolute : isAbsolute metadata.sourceRoot = true ∧ isAbsolute metadata.customerRoot = true then do
    let config ← isolatedBackupConfig metadata.config
      { cwd := Dir.root
        sourceRoot := metadata.sourceRoot
        customerRoot := metadata.customerRoot
        filesRoot := (filesRootOf guest.customerDirectory request.id).text
        declared := metadata.manifest.declaredFiles
        databaseService := metadata.manifest.recipe.service
        sourceRoot_absolute := habsolute.1
        customerRoot_absolute := habsolute.2 }
    refuse (∃ file ∈ metadata.source.files, file.path = restoreFilename request.id)
      (cloudError .invalidInput "Restore configuration path collides with captured source.")
    refuse (composeReleaseIdSchema request.id = false) schemaError
    refuse (composeApplySchema (commandOf ports request metadata config) = false) schemaError
    pure (commandOf ports request metadata config)
  else .error schemaError

/-- The same, from a received archive; the customer files are written in between. -/
def restoreApply (ports : Ports) (guest : Guest) (request : RestoreRequest) (received : Bytes) :
    Except Fault ComposeApply := do
  let archive ← readArchive ports request received
  restoreCommand ports guest request archive.1

/-! ## IDs -/

/-- What an ID is written with. -/
theorem uuidv4_chars {value : String} (h : uuidv4 value = true) :
    value.toList.length = 36 ∧ ∀ c ∈ value.toList, isHex c = true ∨ c = '-' := by
  unfold uuidv4 at h
  split at h
  next a b c d e hsplit =>
    have hjoin : value.toList = ['-'].intercalate [a, b, c, d, e] := by
      rw [← hsplit, List.intercalate_splitOn]
    simp only [Bool.and_eq_true, decide_eq_true_eq, List.all_eq_true, List.mem_append] at h
    obtain ⟨⟨⟨⟨ha, hb, hc, hd, he⟩, hhex⟩, -⟩, -⟩ := h
    have hflat : value.toList = a ++ '-' :: b ++ '-' :: c ++ '-' :: d ++ '-' :: e := by
      rw [hjoin]
      simp [List.intercalate, List.intersperse]
    constructor
    · rw [hflat]
      simp only [List.length_append, List.length_cons]
      omega
    · intro x hx
      rw [hflat] at hx
      simp only [List.mem_append, List.mem_cons] at hx
      have hall := hhex x
      grind
  next => cases h

/-- A character of a release ID. -/
def isLowerIdChar (c : Char) : Bool :=
  c.isDigit || c == '-' || (decide (97 ≤ c.toNat) && decide (c.toNat ≤ 102))

theorem idChar {c : Char} (h : isHex c = true ∨ c = '-') :
    Unescaped c ∧ c ≠ '/' ∧ c ≠ '.' ∧ (isLowerIdChar c = true ↔ c.isUpper = false) := by
  have hascii : c.toNat < 128 := by
    rcases h with h | rfl
    · simp only [isHex, Bool.or_eq_true, Bool.and_eq_true, decide_eq_true_eq] at h
      rcases h with (h | h) | h
      · have halphanum : (c.isAlpha || c.isDigit) = true := by rw [h, Bool.or_true]
        exact Base64.isAlphanum_ascii halphanum
      · omega
      · omega
    · decide
  have hall : ∀ n < 128, isHex (Char.ofNat n) = true ∨ Char.ofNat n = '-' →
      (32 ≤ (Char.ofNat n).toNat ∧ (Char.ofNat n).toNat < 127 ∧ (Char.ofNat n).toNat ≠ 34 ∧
        (Char.ofNat n).toNat ≠ 92) ∧ Char.ofNat n ≠ '/' ∧ Char.ofNat n ≠ '.' ∧
        (isLowerIdChar (Char.ofNat n) = true ↔ (Char.ofNat n).isUpper = false) := by
    decide +kernel
  have hc := hall c.toNat hascii
  rw [Char.ofNat_toNat] at hc
  exact hc h

/-- Where the two schemas differ. -/
theorem composeReleaseIdSchema_iff {value : String} (h : uuidv4 value = true) :
    composeReleaseIdSchema value = true ↔ ∀ c ∈ value.toList, c.isUpper = false := by
  obtain ⟨hlength, hchars⟩ := uuidv4_chars h
  have hschema : composeReleaseIdSchema value = value.toList.all isLowerIdChar := by
    simp only [composeReleaseIdSchema, h, hlength, decide_true, Bool.true_and]
    rfl
  rw [hschema, List.all_eq_true]
  exact forall₂_congr fun c hc => (idChar (hchars c hc)).2.2.2

theorem plain_id {value : String} (h : uuidv4 value = true) : Plain value.toList := by
  obtain ⟨hlength, hchars⟩ := uuidv4_chars h
  refine ⟨?_, ?_, ?_, ?_⟩
  · intro hnil
    rw [hnil] at hlength
    cases hlength
  · intro hdot
    rw [hdot] at hlength
    cases hlength
  · intro hdots
    rw [hdots] at hlength
    cases hlength
  · intro hslash
    exact (idChar (hchars '/' hslash)).2.1 rfl

theorem escapedSize_id {value : String} (h : uuidv4 value = true) : escapedSize value.toList = 36 := by
  obtain ⟨hlength, hchars⟩ := uuidv4_chars h
  rw [escapedSize_unescaped fun c hc => (idChar (hchars c hc)).1, hlength]

/-! ## The schema of the request -/

theorem units_ascii {c : Char} (h : c.toNat < 128) : (Utf.units c).length = 1 := by
  rw [Utf.units, if_pos (by omega)]
  rfl

theorem encode_ascii {cs : List Char} (h : ∀ c ∈ cs, c.toNat < 128) :
    (Utf.encode cs).length = cs.length := by
  induction cs with
  | nil => rfl
  | cons c cs ih =>
    rw [Utf.encode_cons, List.length_append, units_ascii (h c (by simp)),
      ih fun c' hc' => h c' (List.mem_cons_of_mem c hc'), List.length_cons]
    omega

/-- A character that a file may have in its name. -/
def Printable (c : Char) : Prop := 32 ≤ c.toNat ∧ c.toNat < 127 ∧ c.toNat ≠ 92 ∧ c ≠ '/'

instance (c : Char) : Decidable (Printable c) :=
  inferInstanceAs (Decidable (32 ≤ c.toNat ∧ c.toNat < 127 ∧ c.toNat ≠ 92 ∧ c ≠ '/'))

theorem printable_of_all {cs : List Char} (h : (cs.all fun c => decide (Printable c)) = true) :
    ∀ c ∈ cs, Printable c := by
  simpa using h

/-- The name of the configuration is a path of one part. -/
theorem restoreFilename_path {id : String} (h : uuidv4 id = true) :
    composePathSchema (restoreFilename id) = true := by
  obtain ⟨hlength, hchars⟩ := uuidv4_chars h
  have hname : (restoreFilename id).toList = "restore-".toList ++ id.toList ++ ".json".toList := by
    rw [restoreFilename, String.toList_append, String.toList_append]
  have hprintable : ∀ c ∈ (restoreFilename id).toList, Printable c := by
    intro c hc
    rw [hname, List.mem_append, List.mem_append] at hc
    rcases hc with (hc | hc) | hc
    · exact @printable_of_all "restore-".toList (by decide) c hc
    · obtain ⟨⟨hlow, hhigh, -, hback⟩, hslash, -⟩ := idChar (hchars c hc)
      exact ⟨hlow, hhigh, hback, hslash⟩
    · exact @printable_of_all ".json".toList (by decide) c hc
  have htotal : (restoreFilename id).toList.length = 49 := by
    rw [hname, List.length_append, List.length_append, hlength]
    decide
  have hunits : (Utf.ofString (restoreFilename id)).length = 49 := by
    have hascii := encode_ascii fun c hc => Nat.lt_succ_of_lt (hprintable c hc).2.1
    exact hascii.trans htotal
  have hsplit : split (restoreFilename id).toList = [(restoreFilename id).toList] := by
    have hjoin := @split_join [(restoreFilename id).toList]
      (by simpa using fun hc => (hprintable '/' hc).2.2.2 rfl) (by simp)
    simpa [join] using hjoin
  have hpart : ∀ part : Part, part.length ≠ 49 → (restoreFilename id).toList ≠ part := by
    intro part hne heq
    exact hne (heq ▸ htotal)
  simp only [composePathSchema, hunits, hsplit, Bool.and_eq_true, decide_eq_true_eq, List.all_eq_true,
    List.mem_singleton, forall_eq]
  refine ⟨⟨⟨by decide, by decide⟩, hpart [] (by decide), hpart ['.'] (by decide),
    hpart dotdot (by decide)⟩, fun c hc => ?_⟩
  obtain ⟨hlow, hhigh, hback, -⟩ := hprintable c hc
  exact ⟨hlow, by omega, hback⟩

theorem encodedLength_config (ports : Ports) (config : ComposeConfig) (path : String) (executable : Bool) :
    encodedLength ⟨path, configContent ports config, executable⟩ =
      (Json.size (configText ports config) + 2) / 3 * 4 := by
  have hascii := Base64.isBase64_ascii
    (Base64.isBase64_encode (Json.utf8 (configText ports config)))
  show (Utf.encode (String.ofList _).toList).length = _
  rw [String.toList_ofList, encode_ascii hascii, Base64.length_encode]
  rfl

theorem encodedBytes_concat (files : List ComposeFile) (file : ComposeFile) :
    encodedBytes (files ++ [file]) = encodedBytes files + encodedLength file := by
  rw [encodedBytes, List.foldl_append]
  rfl

/-- What was weighed at the capture fits in the bundle, also after rounding. -/
theorem composeBundleSchema_concat {ports : Ports} {config : ComposeConfig} {files : List ComposeFile}
    {path : String} (hfiles : composeBundleSchema files = true) (hpath : composePathSchema path = true)
    (hcount : files.length < 1024) (hnew : ∀ file ∈ files, file.path ≠ path)
    (hsize : encodedBytes files * 3 + Json.size (configText ports config) * 4 ≤ 11184000 * 3) :
    composeBundleSchema (files ++ [⟨path, configContent ports config, false⟩]) = true := by
  simp only [composeBundleSchema, Bool.and_eq_true, decide_eq_true_eq, List.all_eq_true] at hfiles ⊢
  obtain ⟨⟨⟨⟨hsome, -⟩, hall⟩, hpaths⟩, -⟩ := hfiles
  have hencoded := encodedLength_config ports config path false
  have hbytes := encodedBytes_concat files ⟨path, configContent ports config, false⟩
  have htotal : encodedBytes (files ++ [⟨path, configContent ports config, false⟩]) ≤ bundleMaximum := by
    rw [hbytes, hencoded]
    show _ ≤ 11184812
    omega
  have hone : encodedLength ⟨path, configContent ports config, false⟩ ≤ bundleMaximum := by
    omega
  have hcontent : Base64.isBase64 (configContent ports config).toList = true := by
    rw [configContent, String.toList_ofList]
    exact Base64.isBase64_encode _
  refine ⟨⟨⟨⟨?_, ?_⟩, ?_⟩, ?_⟩, htotal⟩
  · rw [List.length_append]
    omega
  · rw [List.length_append, List.length_singleton]
    omega
  · intro file hm
    rcases List.mem_append.mp hm with hm | hm
    · exact hall file hm
    · obtain rfl := List.mem_singleton.mp hm
      simp only [composeFileSchema, Bool.and_eq_true, decide_eq_true_eq]
      exact ⟨⟨hpath, hcontent⟩, hone⟩
  · rw [List.map_append, List.map_singleton]
    apply List.nodup_append.mpr
    refine ⟨hpaths, List.nodup_singleton _, ?_⟩
    intro a ha b hb heq
    obtain rfl := List.mem_singleton.mp hb
    obtain ⟨file, hm, rfl⟩ := List.mem_map.mp ha
    exact hnew file hm heq

/-! ## Packaging -/

/-- `Limits` are within those of an apply request. -/
theorem waitSeconds_ok (limits : Limits) :
    5 ≤ min 300 limits.timeoutSeconds ∧ min 300 limits.timeoutSeconds ≤ 300 := by
  have hnotShort := limits.notShort
  omega

section

variable {ports : Ports} {guest : Guest} {request : CaptureRequest} {deployment : Deployment}
  {captured : Captured} {restore : RestoreRequest}

/-- The restore rebases the captured configuration too, to a text of the same size. -/
theorem Captured.Sound.rebased (h : captured.Sound ports guest request deployment)
    (hid : uuidv4 restore.id = true) : ∃ config,
    isolatedBackupConfig deployment.config
        (rebaseInput deployment.sourceRoot.text guest.customerDirectory.text (isAbsolute_text _)
          (isAbsolute_text _) (filesRootOf guest.customerDirectory restore.id) request.recipe) =
      .ok config ∧
    deployment.request.files.length < 1024 ∧
    encodedBytes deployment.request.files * 3 + Json.size (configText ports config) * 4 ≤
      11184000 * 3 := by
  have hbackup : uuidv4 request.id = true := by
    have hschema := h.schema
    simp only [metadataSchema, Bool.and_eq_true, h.described.1] at hschema
    exact hschema.1.1.1.1.1.1
  have hrestorable := h.restorable
  simp only [checkRestorable, bind_ok_iff, refuse_ok_iff] at hrestorable
  obtain ⟨normalized, hnormalized, hroom⟩ := hrestorable
  have hakin := @akin_of_roots deployment.sourceRoot.text guest.customerDirectory.text (isAbsolute_text _)
    (isAbsolute_text _) guest.customerDirectory request.id restore.id request.recipe
    (plain_id hbackup) (plain_id hid) (by rw [escapedSize_id hbackup, escapedSize_id hid])
  obtain ⟨config, hconfig, halike⟩ :=
    isolatedBackupConfig_follows hakin deployment.config normalized hnormalized
  have hsize : Json.size (configText ports normalized) = Json.size (configText ports config) :=
    Json.Alike.size ports.number _ _ halike
  refine ⟨config, hconfig, ?_, ?_⟩
  · omega
  · omega

/-- The packaging of a capture, step by step. -/
theorem Captured.Sound.restoreCommand (h : captured.Sound ports guest request deployment)
    (hid : restoreIdSchema restore.id = true) (happ : composeAppSchema restore.app = true)
    (hfree : ∀ file ∈ captured.metadata.source.files, file.path ≠ restoreFilename restore.id) :
    (∃ command, restoreCommand ports guest restore captured.metadata = .ok command) ↔
      composeReleaseIdSchema restore.id = true := by
  obtain ⟨config, hconfig, hcount, hsize⟩ := h.rebased hid
  obtain ⟨-, hrecipe, -, hdeclared, hsource, hconfigured, hsourceRoot, hcustomerRoot⟩ := h.described
  have habsolute : isAbsolute captured.metadata.sourceRoot = true ∧
      isAbsolute captured.metadata.customerRoot = true := by
    rw [hsourceRoot, hcustomerRoot]
    exact ⟨isAbsolute_text _, isAbsolute_text _⟩
  have hsame : isolatedBackupConfig captured.metadata.config
      { cwd := Dir.root
        sourceRoot := captured.metadata.sourceRoot
        customerRoot := captured.metadata.customerRoot
        filesRoot := (filesRootOf guest.customerDirectory restore.id).text
        declared := captured.metadata.manifest.declaredFiles
        databaseService := captured.metadata.manifest.recipe.service
        sourceRoot_absolute := habsolute.1
        customerRoot_absolute := habsolute.2 } = .ok config := by
    simp only [hconfigured, hsourceRoot, hcustomerRoot, hdeclared, hrecipe]
    exact hconfig
  have hbundle : composeBundleSchema captured.metadata.source.files = true := by
    have hschema := h.schema
    simp only [metadataSchema, composeApplySchema, Bool.and_eq_true] at hschema
    exact hschema.1.1.1.1.2.2
  have hfiles := @composeBundleSchema_concat ports config _ _ hbundle
    (restoreFilename_path hid) (by rw [hsource]; exact hcount) hfree (by rw [hsource]; exact hsize)
  have hschema : composeApplySchema (commandOf ports restore captured.metadata config) =
      composeReleaseIdSchema restore.id := by
    have hwait := waitSeconds_ok restore.limits
    simp [composeApplySchema, commandOf, happ, restoreFilename_path hid, hfiles, hwait.1, hwait.2]
  have hfreed : ¬ ∃ file ∈ captured.metadata.source.files,
      file.path = restoreFilename restore.id := by
    rintro ⟨file, hm, heq⟩
    exact hfree file hm heq
  rw [Archives.restoreCommand, dif_pos habsolute]
  simp only [hsame, bind_ok_iff, refuse_ok_iff, pure_ok_iff]
  constructor
  · rintro ⟨command, _, -, -, -, -, hlower, -⟩
    rwa [Bool.not_eq_false] at hlower
  · intro hlower
    refine ⟨_, config, rfl, (), hfreed, (), ?_, (), ?_, rfl⟩
    · rw [Bool.not_eq_false]
      exact hlower
    · rw [hschema, Bool.not_eq_false]
      exact hlower

end

/-- **Repackaging.**  A completed capture passes the packaging of a restore, whatever its limits, if
    and only if the restore's ID has no upper-case letter; and what the restore packages from the
    received archive is the captured metadata. -/
theorem repackaging (ports : Ports) (guest : Guest) (request : CaptureRequest) (sources : Sources)
    (captured : Captured) (restore : RestoreRequest)
    (hcapture : capture ports guest request sources = .ok captured)
    (hid : restoreIdSchema restore.id = true) (happ : composeAppSchema restore.app = true)
    (hfree : ∀ file ∈ captured.metadata.source.files, file.path ≠ restoreFilename restore.id) :
    ((∃ command, restoreCommand ports guest restore captured.metadata = .ok command) ↔
      ∀ c ∈ restore.id.toList, c.isUpper = false) ∧
    (Inverts (ports.extract captured.archive) captured.files →
      ports.parse (ports.text captured.metadata) = some captured.metadata →
      restore.Of ports request captured →
      restoreApply ports guest restore captured.archive =
        restoreCommand ports guest restore captured.metadata) := by
  have hsound := capture_sound hcapture
  constructor
  · rw [hsound.restoreCommand hid happ hfree]
    exact composeReleaseIdSchema_iff hid
  · intro hinverts hparse hof
    rw [restoreApply, hsound.read hinverts hparse hof]
    rfl

namespace Demo

/-- The restore of the demo under an ID with upper-case letters. -/
def shouted : RestoreRequest := { restoreRequest with id := "5A0D7C3E-2B41-4F6A-B0C8-7D9E1F203142" }

theorem restorable (json : Bytes) {restore : RestoreRequest} (hlength : json.length = 1411)
    (hof : restore.Of (ports json) request (captured json)) (hid : restoreIdSchema restore.id = true)
    (happ : composeAppSchema restore.app = true)
    (hfree : restoreFilename restore.id ≠ "compose.yaml") :
    readArchive (ports json) restore (captured json).archive =
        .ok ((captured json).metadata, (captured json).files) ∧
      ((∃ command, restoreCommand (ports json) guest restore (captured json).metadata = .ok command) ↔
        composeReleaseIdSchema restore.id = true) := by
  have hsound := capture_sound (captured_ok hlength)
  refine ⟨hsound.read (captured_inverts hlength) (captured_parses json) hof,
    hsound.restoreCommand hid happ ?_⟩
  intro file hm heq
  obtain rfl := List.mem_singleton.mp hm
  exact hfree heq.symm

/-- A capture that a restore under an ID of its schema does not package. -/
theorem unpackaged : ∃ ports guest request sources captured restore,
    capture ports guest request sources = .ok captured ∧ restoreIdSchema restore.id = true ∧
    composeAppSchema restore.app = true ∧
    (∀ file ∈ captured.metadata.source.files, file.path ≠ restoreFilename restore.id) ∧
    readArchive ports restore captured.archive = .ok (captured.metadata, captured.files) ∧
    ∀ command, restoreApply ports guest restore captured.archive ≠ .ok command := by
  have hid : restoreIdSchema shouted.id = true := by decide +kernel
  have happ : composeAppSchema shouted.app = true := by decide +kernel
  have hfree : restoreFilename shouted.id ≠ "compose.yaml" := by decide +kernel
  have hupper : composeReleaseIdSchema shouted.id = false := by decide +kernel
  generalize hjson : Json.utf8 text.toList = json
  have hlength : json.length = 1411 := by rw [← hjson, text_length]
  have hof : shouted.Of (ports json) request (captured json) :=
    ⟨rfl, rfl, (packed_length hlength).symm, rfl⟩
  obtain ⟨hread, hcommand⟩ := restorable json hlength hof hid happ hfree
  refine ⟨ports json, guest, request, sources, captured json, shouted, captured_ok hlength, hid, happ,
    ?_, hread, ?_⟩
  · intro file hm heq
    obtain rfl := List.mem_singleton.mp hm
    exact hfree heq.symm
  · intro command hok
    rw [restoreApply, hread] at hok
    have hlower := hcommand.mp ⟨command, hok⟩
    rw [hupper] at hlower
    cases hlower

/-- The demo's own restore is packaged. -/
theorem packaged : ∃ json, Json.utf8 text.toList = json ∧
    ∃ command, restoreApply (ports json) guest restoreRequest (captured json).archive = .ok command := by
  refine ⟨_, rfl, ?_⟩
  have hfree : ∀ file ∈ (captured (Json.utf8 text.toList)).metadata.source.files,
      file.path ≠ restoreFilename restoreRequest.id := by
    intro file hm
    obtain rfl := List.mem_singleton.mp hm
    decide +kernel
  have hid : restoreIdSchema restoreRequest.id = true := by decide +kernel
  have hlower := (composeReleaseIdSchema_iff hid).mp (by decide +kernel)
  obtain ⟨hpackaged, hread⟩ := repackaging (ports _) guest request sources
    (captured (Json.utf8 text.toList)) restoreRequest (captured_ok text_length) hid
    (by decide +kernel) hfree
  rw [hread (captured_inverts text_length) (captured_parses _) (captured_requested text_length)]
  exact hpackaged.mpr hlower

end Demo

end AgentCloud.Archives
