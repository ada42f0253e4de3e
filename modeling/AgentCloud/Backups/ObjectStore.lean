/-
  THE OBJECT STORE: the writer (`prepareUpload`, `upload`, `recover`) and the deleter (`purge`).

  `upload` is the only function that puts an object.  `recover` is the way back from an upload
  whose outcome is unknown: it lists the versions of the intended key, at most four pages of them,
  and accepts the single version whose metadata is that of the intent.  It reads and never writes.

  `purgeObject` is the only function that deletes.  It asks for one exact version, after its actual
  retention has passed, and calls nothing absent but a version whose head is not found.
-/
import AgentCloud.Backups.Records

namespace AgentCloud.Backups

open Checked Durable

structure StoreConfig where
  storeId : String
  bucket : String
  keyPrefix : String
  maxBytes : Nat
  deriving DecidableEq, Repr

structure BackupConfig where
  store : StoreConfig
  retentionMode : RetentionMode
  limits : Limits
  deriving DecidableEq, Repr

def objectKey (config : StoreConfig) (attemptId : BackupId) : String :=
  config.keyPrefix ++ "/" ++ attemptId ++ ".enc"

/-- `bind`: the intent belongs to this store, and its retention still runs if that is asked. -/
def bind (config : StoreConfig) (intent : Intent) (requireCurrentRetention : Bool) :
    Program Intent := do
  let now ← Prog.ask (S := interface) .localClock
  refuseIf (intent.storeId ≠ config.storeId ∨ intent.bucket ≠ config.bucket ∨
      intent.key ≠ objectKey config intent.attemptId ∨ config.maxBytes < intent.digests.size ∨
      (requireCurrentRetention = true ∧ intent.retention.retainUntil ≤ now))
    "Backup receipt does not match this protected store."
  pure intent

/-- `metadata`: what a put object carries. -/
def metadata (intent : Intent) : Metadata :=
  ⟨intent.attemptId, intent.digests.ciphertextSha256, intent.digests.size, intent⟩

/-- The number of UTF-16 code units. -/
def utf16Length (text : String) : Nat :=
  text.toList.foldl (fun n c => n + if c.toNat < 65536 then 1 else 2) 0

/-- `versionId` of `backupObjectReceiptSchema`. -/
def isVersionId (versionId : String) : Bool :=
  decide (1 ≤ utf16Length versionId) && decide (utf16Length versionId ≤ 1024) &&
    decide (versionId ≠ "null")

/-- `backupObjectReceiptSchema.parse({ ...intent, versionId })` -/
def receiptOf (intent : Intent) (versionId : String) : Program Receipt := do
  refuseIf (isVersionId versionId = false) "Invalid version ID"
  pure ⟨intent, versionId⟩

def checkMetadata (head : Head) (receipt : Receipt) : Program Unit := do
  refuseIf (head.deleteMarker = true ∨ head.versionId ≠ receipt.versionId ∨
      head.contentLength ≠ receipt.intent.digests.size)
    "S3 returned a different object version or size."
  refuseIf (head.metadata ≠ some (metadata receipt.intent))
    "S3 returned inconsistent backup metadata."

/-- `checkRetention`: until when the object is retained. -/
def retainedUntil (receipt : Receipt) (requireCurrentRetention : Bool) : Program Instant := do
  let reply ← Prog.ask (S := interface) (.getRetention receipt)
  let retained ← thrown reply
  let now ← Prog.ask (S := interface) .localClock
  refuseIf (retained.mode ≠ receipt.intent.retention.mode ∨
      retained.retainUntil < receipt.intent.retention.retainUntil ∨
      (requireCurrentRetention = true ∧ retained.retainUntil ≤ now))
    "Object retention does not meet its recorded protection."
  pure retained.retainUntil

/-- `checkRetention` where only its refusal counts. -/
def checkRetention (receipt : Receipt) (requireCurrentRetention : Bool) : Program Unit := do
  let _ ← retainedUntil receipt requireCurrentRetention
  pure ()

def inspectMetadata (receipt : Receipt) (requireCurrentRetention : Bool) : Program Unit := do
  let reply ← Prog.ask (S := interface) (.headObject receipt.intent.key receipt.versionId)
  let head ← thrown reply
  checkMetadata head receipt
  checkRetention receipt requireCurrentRetention

def readVersion (receipt : Receipt) (requireCurrentRetention : Bool) : Program Unit := do
  let reply ← Prog.ask (S := interface) (.getObject receipt)
  let head ← thrown reply
  checkMetadata head receipt
  checkRetention receipt requireCurrentRetention

/-- `Math.ceil(value / 1000) * 1000`. -/
def wholeSeconds (instant : Instant) : Instant := (instant + 999) / 1000 * 1000

def prepareUpload (config : StoreConfig) (attemptId : BackupId) (retention : Retention) :
    Program Intent := do
  let reply ← Prog.ask (S := interface) (.hashFile attemptId)
  let digests ← thrown reply
  bind config
    { storeId := config.storeId
      bucket := config.bucket
      key := objectKey config attemptId
      attemptId
      digests
      retention := { retention with retainUntil := wholeSeconds retention.retainUntil } } true

def upload (config : StoreConfig) (intent : Intent) : Program Receipt := do
  let intent' ← bind config intent true
  let protection ← Prog.ask (S := interface) .checkProtection
  thrown protection
  let reply ← Prog.ask (S := interface) (.hashFile intent'.attemptId)
  let digests ← thrown reply
  let submitted ← Prog.ask (S := interface) (.alreadySubmitted intent'.attemptId)
  refuseIf (digests ≠ intent'.digests ∨ submitted = true)
    "Ciphertext differs or this attempt was already submitted."
  let put ← Prog.ask (S := interface) (.putObject intent')
  let versionId ← thrown put
  let receipt ← receiptOf intent' versionId
  inspectMetadata receipt true
  readVersion receipt true
  pure receipt

/-- The versions of one page: the candidates, or nothing when there are two. -/
def scanVersions (intent : Intent) : List ListedVersion → List String → Program (Option (List String))
  | [], candidates => pure (some candidates)
  | version :: versions, candidates =>
    if version.key ≠ intent.key then scanVersions intent versions candidates
    else do
      let receipt ← receiptOf intent version.versionId
      let reply ← Prog.ask (S := interface) (.headObject intent.key receipt.versionId)
      let head ← thrown reply
      if head.metadata.map Metadata.attempt ≠ some intent.attemptId then
        scanVersions intent versions candidates
      else do
        checkMetadata head receipt
        if 1 < (candidates ++ [receipt.versionId]).length then pure none
        else scanVersions intent versions (candidates ++ [receipt.versionId])

/-- The last page: its one candidate, verified. -/
def verifyCandidate (intent : Intent) : List String → Program (Option Receipt)
  | [] => pure none
  | versionId :: _ => do
    let receipt ← receiptOf intent versionId
    inspectMetadata receipt false
    readVersion receipt false
    pure (some receipt)

/-- At most `pages` pages of versions. -/
def recoverPages (intent : Intent) : Nat → Option (String × String) → List String →
    Program (Option Receipt)
  | 0, _, _ => pure none
  | pages + 1, marker, candidates => do
    let reply ← Prog.ask (S := interface) (.listVersions intent.key marker)
    let page ← thrown reply
    refuseIf (page.isTruncated = none) "Version listing is incomplete."
    let found ← scanVersions intent page.versions candidates
    match found with
    | none => pure none
    | some candidates =>
      if page.isTruncated = some false then verifyCandidate intent candidates
      else do
        refuseIf (page.next = none ∨ page.next = marker) "Version listing did not advance."
        recoverPages intent pages page.next candidates

/-- `recover`: the receipt of the intended object, or nothing while it is unresolved. -/
def recover (config : StoreConfig) (intent : Intent) : Program (Option Receipt) := do
  let intent' ← bind config intent false
  let protection ← Prog.ask (S := interface) .checkProtection
  thrown protection
  recoverPages intent' 4 none []

/-! ## The deleter -/

/-- What a purge found out about its object version. -/
inductive PurgeOutcome where
  | absent
  | retained (retainUntil : Instant)
  deriving DecidableEq, Repr

/-- `exists`: a permission error or a lost reply is not absence. -/
def versionExists (receipt : Receipt) : Program Bool := do
  let reply ← Prog.ask (S := interface) (.probeVersion receipt)
  let head ← thrown reply
  match head with
  | none => pure false
  | some head => do
    checkMetadata head receipt
    pure true

/-- The DELETE of one version, and that it is gone. -/
def deleteVerified (receipt : Receipt) : Program PurgeOutcome := do
  let reply ← Prog.ask (S := interface) (.deleteVersion receipt)
  thrown reply
  let present ← versionExists receipt
  refuseIf (present = true) "Backup version absence is not verified."
  pure .absent

/-- `purge` of `createBackupDeleter`. -/
def purgeObject (config : StoreConfig) (receipt : Receipt) : Program PurgeOutcome := do
  let _ ← bind config receipt.intent false
  let protection ← Prog.ask (S := interface) .checkProtection
  thrown protection
  let present ← versionExists receipt
  if present then do
    let retainUntil ← retainedUntil receipt false
    let now ← Prog.ask (S := interface) .localClock
    if now < retainUntil then pure (.retained retainUntil) else deleteVerified receipt
  else pure .absent

end AgentCloud.Backups
