/-
  BACKUP ENVELOPES: `apps/control/src/backup-crypto.ts`.

  A backup is encrypted under a data key of its own, and the data key under a wrapping key that the
  operator keeps.  Both are bound to the account, the backup and its manifest.  What comes back when
  the backup is read has passed two tags, two sizes and two digests; its plaintext is written to a
  temporary file before the tag is known, and becomes the destination by a hard link afterwards.

  The cipher is ideal: it keeps the boxes it has sealed, opens those and no others, and its random
  keys are fresh.  The model also keeps the encryptions that were returned.  Every step may fail.  A
  canonical base64 text stands for its bytes, the associated data for the binding they spell out;
  clearing buffers is left out.
-/
import AgentCloud.Contracts
import AgentCloud.Lib.Runs

namespace AgentCloud.Envelopes

open Checked Durable

abbrev Bytes := List UInt8

/-- `bindingSchema` -/
structure Binding where
  accountId : String
  backupId : String
  manifestSha256 : String
  deriving DecidableEq, Repr

structure Encryption where
  version : Nat
  algorithm : String
  keyVersion : String
  binding : Binding
  iv : Bytes
  tag : Bytes
  wrappedKey : Bytes
  wrappingIv : Bytes
  wrappingTag : Bytes
  plaintextBytes : Nat
  plaintextSha256 : String
  ciphertextBytes : Nat
  ciphertextSha256 : String
  deriving DecidableEq, Repr

structure Keyring where
  current : String
  keys : List (String × Bytes)
  deriving DecidableEq, Repr

/-- `/^[a-f0-9]{64}$/` -/
def isDigest (text : String) : Bool :=
  decide (text.toList.length = 64) && text.toList.all fun c =>
    (decide (97 ≤ c.toNat) && decide (c.toNat ≤ 102)) || (decide (48 ≤ c.toNat) && decide (c.toNat ≤ 57))

/-- `/^[a-zA-Z0-9_-]{1,64}$/` -/
def isKeyVersion (text : String) : Bool :=
  decide (1 ≤ text.toList.length) && decide (text.toList.length ≤ 64) && text.toList.all fun c =>
    (decide (97 ≤ c.toNat) && decide (c.toNat ≤ 122)) ||
      (decide (65 ≤ c.toNat) && decide (c.toNat ≤ 90)) ||
      (decide (48 ≤ c.toNat) && decide (c.toNat ≤ 57)) || decide (c = '_') || decide (c = '-')

/-- `backupEncryptionSchema` -/
def isEncryption (encryption : Encryption) : Bool :=
  decide (encryption.version = 1) && decide (encryption.algorithm = "aes-256-gcm") &&
    isKeyVersion encryption.keyVersion && isDigest encryption.binding.manifestSha256 &&
    decide (encryption.iv.length = 12) && decide (encryption.tag.length = 16) &&
    decide (encryption.wrappedKey.length = 32) && decide (encryption.wrappingIv.length = 12) &&
    decide (encryption.wrappingTag.length = 16) && decide (0 < encryption.plaintextBytes) &&
    isDigest encryption.plaintextSha256 && decide (0 < encryption.ciphertextBytes) &&
    isDigest encryption.ciphertextSha256

/-- `keyring.keys[version]` -/
def Keyring.key (keyring : Keyring) (version : String) : Option Bytes :=
  (keyring.keys.find? fun entry => decide (entry.1 = version)).map Prod.snd

/-- `backupKeyringSchema` -/
def isKeyring (keyring : Keyring) : Bool :=
  (keyring.keys.all fun entry => isKeyVersion entry.1 && decide (entry.2.length = 32)) &&
    (keyring.key keyring.current).isSome

/-! ## The world -/

/-- What a box holds: the bytes of a backup, or the key of one. -/
inductive Holds where
  | backup
  | key
  deriving DecidableEq, Repr

structure Box where
  holds : Holds
  key : Bytes
  iv : Bytes
  aad : Binding
  ciphertext : Bytes
  tag : Bytes
  plaintext : Bytes
  deriving DecidableEq, Repr

/-- An encryption that was returned, with what it is one of. -/
structure Issue where
  encryption : Encryption
  ciphertext : Bytes
  plaintext : Bytes
  masterKey : Bytes
  deriving DecidableEq, Repr

structure File where
  bytes : Bytes
  regular : Bool
  owned : Bool
  isPrivate : Bool
  deriving DecidableEq, Repr

structure Store where
  files : String → Option File
  boxes : List Box
  issued : List Issue
  /-- Some step failed. -/
  failed : Bool

/-- Does the next step fail?  What do `randomBytes` and the cipher return, and how much of a
    plaintext is written before its tag is known? -/
structure Env where
  fails : Bool
  random : Bytes
  text : String
  ciphertext : Bytes
  tag : Bytes
  spilled : Bytes

abbrev interface : Interface where
  Env := Env
  Store := Store
  Call := Empty
  Reply := fun _ => Unit
  Fault := Fault

abbrev Program := Prog interface

def thrown {α : Type} (message : String) : Program α := Prog.throw (.other message)

/-- What a step returned or threw, if it did not fail. -/
def settle {α : Type} : Option (Except Fault α) → Program α
  | none => thrown "Backup file operation failed."
  | some result => Prog.ofExcept result

/-- One step, which may fail without effect, or throw. -/
def operate {α : Type} (f : Env → Store → Option (Except Fault (α × Store))) : Program α := do
  let result ← Prog.transact (S := interface) fun env s =>
    match if env.fails = true then none else f env s with
    | none => .ok (none, { s with failed := true })
    | some (.error e) => .ok (some (.error e), s)
    | some (.ok (a, s')) => .ok (some (.ok a), s')
  settle result

def refuseIf (c : Prop) [Decidable c] (message : String) : Program Unit :=
  Prog.ofExcept (refuse c (.other message))

/-! ## Files -/

def Store.write (s : Store) (path : String) (file : Option File) : Store :=
  { s with files := fun other => if other = path then file else s.files other }

/-- A file that this process makes. -/
def ownFile (bytes : Bytes) : File := ⟨bytes, true, true, true⟩

/-- `open(path, 'wx', 0o600)` -/
def createFile (path : String) : Program Unit :=
  operate fun _ s =>
    if (s.files path).isSome = true then some (.error (.other "EEXIST"))
    else some (.ok ((), s.write path (some (ownFile []))))

def writeFile (path : String) (bytes : Bytes) : Program Unit :=
  operate fun _ s => some (.ok ((), s.write path (some (ownFile bytes))))

def persist (path : String) : Program Unit :=
  operate fun _ s =>
    if (s.files path).isSome = true then some (.ok ((), s)) else some (.error (.other "ENOENT"))

def link (path target : String) : Program Unit :=
  operate fun _ s =>
    match s.files path with
    | none => some (.error (.other "ENOENT"))
    | some file =>
      if (s.files target).isSome = true then some (.error (.other "EEXIST"))
      else some (.ok ((), s.write target (some file)))

/-- `rm(path, { force: true })` -/
def remove (path : String) : Program Unit :=
  operate fun _ s => some (.ok ((), s.write path none))

/-- `if (created) await rm(path)` where `p` did not come to its end. -/
def orRemove {α : Type} (path : String) (p : Program α) : Program α :=
  p.tryCatch fun e => do
    remove path
    Prog.throw e

/-- `measured`: no more than `maximum` bytes pass. -/
def measured (maximum : Nat) : Nat → List Bytes → Except Fault Unit
  | _, [] => .ok ()
  | bytes, chunk :: chunks => do
    refuse (maximum < bytes + chunk.length)
      (.other "Backup stream exceeds its admitted byte limit.")
    measured maximum (bytes + chunk.length) chunks

/-! ## The cipher -/

def randomBytes (length : Nat) : Program Bytes :=
  operate fun env s => if env.random.length = length then some (.ok (env.random, s)) else none

/-- A data key: a random one, which nobody has used before. -/
def randomKey (keyring : Keyring) : Program Bytes :=
  operate fun env s =>
    if env.random.length = 32 ∧ env.random ∉ s.boxes.map Box.key ∧
        env.random ∉ keyring.keys.map Prod.snd then some (.ok (env.random, s))
    else none

def Box.fits (box : Box) (key iv : Bytes) (aad : Binding) (ciphertext tag : Bytes) : Bool :=
  decide (box.key = key ∧ box.iv = iv ∧ box.aad = aad ∧ box.ciphertext = ciphertext ∧ box.tag = tag)

/-- What the cipher opens: what it has sealed. -/
def openBox (boxes : List Box) (key iv : Bytes) (aad : Binding) (ciphertext tag : Bytes) :
    Option Bytes :=
  (boxes.find? fun box => box.fits key iv aad ciphertext tag).map Box.plaintext

/-- A box for `plaintext`: a ciphertext of its length and a tag, not sealed before. -/
def sealBox (holds : Holds) (key iv : Bytes) (aad : Binding) (plaintext : Bytes) :
    Program (Bytes × Bytes) :=
  operate fun env s =>
    if env.ciphertext.length = plaintext.length ∧ env.tag.length = 16 ∧
        openBox s.boxes key iv aad env.ciphertext env.tag = none then
      some (.ok ((env.ciphertext, env.tag),
        { s with boxes := s.boxes ++ [⟨holds, key, iv, aad, env.ciphertext, env.tag, plaintext⟩] }))
    else none

def wrappingKey (keyring : Keyring) (version : String) : Except Fault Bytes :=
  present (keyring.key version)
    (.other "Required backup wrapping key version is unavailable. Restore its offline copy.")

/-! ## Encryption -/

section

-- the digest of bytes, in hexadecimal
variable (sha256 : Bytes → String)

structure EncryptInput where
  /-- The chunks that the source delivers. -/
  source : List Bytes
  destination : String
  binding : Binding
  keyring : Keyring
  maxBytes : Nat

def isMaximum (maxBytes : Nat) : Bool := decide (0 < maxBytes) && decide (maxBytes ≤ 1073741824)

/-- The data key is wrapped, and the envelope returned. -/
def wrapKey (input : EncryptInput) (dataKey masterKey iv wrappingIv : Bytes)
    (sealed : Bytes × Bytes) : Program Encryption := do
  let wrapped ← sealBox .key masterKey wrappingIv input.binding dataKey
  let encryption : Encryption :=
    { version := 1
      algorithm := "aes-256-gcm"
      keyVersion := input.keyring.current
      binding := input.binding
      iv
      tag := sealed.2
      wrappedKey := wrapped.1
      wrappingIv
      wrappingTag := wrapped.2
      plaintextBytes := input.source.flatten.length
      plaintextSha256 := sha256 input.source.flatten
      ciphertextBytes := sealed.1.length
      ciphertextSha256 := sha256 sealed.1 }
  refuseIf (isEncryption encryption = false) "Invalid backup encryption."
  let issue : Issue := ⟨encryption, sealed.1, input.source.flatten, masterKey⟩
  Prog.transact (S := interface) fun _ s =>
    .ok (encryption, { s with issued := s.issued ++ [issue] })

/-- From the destination's creation on. -/
def encryptInto (input : EncryptInput) (dataKey masterKey iv wrappingIv : Bytes) :
    Program Encryption := do
  Prog.ofExcept (measured input.maxBytes 0 input.source)
  let sealed ← sealBox .backup dataKey iv input.binding input.source.flatten
  Prog.ofExcept (measured input.maxBytes 0 [sealed.1])
  writeFile input.destination sealed.1
  persist input.destination
  wrapKey sha256 input dataKey masterKey iv wrappingIv sealed

def encryptBackup (input : EncryptInput) : Program Encryption := do
  refuseIf (isKeyring input.keyring = false) "Invalid backup keyring."
  refuseIf (isDigest input.binding.manifestSha256 = false) "Invalid backup binding."
  refuseIf (isMaximum input.maxBytes = false) "Invalid byte limit."
  let dataKey ← randomKey input.keyring
  let masterKey ← Prog.ofExcept (wrappingKey input.keyring input.keyring.current)
  let iv ← randomBytes 12
  let wrappingIv ← randomBytes 12
  createFile input.destination
  orRemove input.destination (encryptInto sha256 input dataKey masterKey iv wrappingIv)

/-! ## Decryption -/

structure DecryptInput where
  source : String
  destination : String
  encryption : Encryption
  binding : Binding
  keyring : Keyring
  maxBytes : Nat

/-- `unwrapBackupKey` -/
def unwrapBackupKey (encryption : Encryption) (binding : Binding) (keyring : Keyring) :
    Program Bytes := do
  refuseIf (isKeyring keyring = false) "Invalid backup keyring."
  let masterKey ← Prog.ofExcept (wrappingKey keyring encryption.keyVersion)
  operate fun _ s =>
    match openBox s.boxes masterKey encryption.wrappingIv binding encryption.wrappedKey
        encryption.wrappingTag with
    | none => some (.error (.other
        "Backup wrapping key could not authenticate this envelope. Recover the matching offline key and verify the backup receipt."))
    | some key => some (.ok (key, s))

/-- The source, opened and looked at. -/
def openSource (path : String) (encryption : Encryption) : Program Bytes :=
  operate fun _ s =>
    match s.files path with
    | none => some (.error (.other "ENOENT"))
    | some file =>
      if file.regular = false ∨ file.owned = false ∨ file.isPrivate = false ∨
          file.bytes.length ≠ encryption.ciphertextBytes then
        some (.error (.other "Backup ciphertext file is invalid."))
      else some (.ok (file.bytes, s))

/-- Some plaintext reaches the file before the tag is known. -/
def spill (path : String) : Program Unit :=
  operate fun env s => some (.ok ((), s.write path (some (ownFile env.spilled))))

/-- The whole plaintext, once the tag is verified. -/
def decipher (path : String) (encryption : Encryption) (binding : Binding)
    (dataKey ciphertext : Bytes) : Program Bytes :=
  operate fun _ s =>
    match openBox s.boxes dataKey encryption.iv binding ciphertext encryption.tag with
    | none => some (.error (.other "Unsupported state or unable to authenticate data"))
    | some plaintext => some (.ok (plaintext, s.write path (some (ownFile plaintext))))

/-- From the temporary file's creation to its removal. -/
def decryptInto (input : DecryptInput) (temporary : String) (dataKey ciphertext : Bytes) :
    Program Unit := do
  Prog.ofExcept (measured input.maxBytes 0 [ciphertext])
  spill temporary
  let plaintext ← decipher temporary input.encryption input.binding dataKey ciphertext
  Prog.ofExcept (measured input.maxBytes 0 [plaintext])
  refuseIf (plaintext.length ≠ input.encryption.plaintextBytes ∨
      sha256 plaintext ≠ input.encryption.plaintextSha256 ∨
      ciphertext.length ≠ input.encryption.ciphertextBytes ∨
      sha256 ciphertext ≠ input.encryption.ciphertextSha256)
    "Backup bytes differ from the captured encryption receipt."
  persist temporary
  link temporary input.destination
  persist input.destination
  remove temporary

/-- `${destination}.${random}.partial` -/
def temporaryName (destination random : String) : String := destination ++ "." ++ random ++ ".partial"

def randomText : Program String :=
  operate fun env s => if env.text.toList.length = 32 then some (.ok (env.text, s)) else none

def decryptBackup (input : DecryptInput) : Program Unit := do
  refuseIf (isEncryption input.encryption = false) "Invalid backup encryption."
  refuseIf (isDigest input.binding.manifestSha256 = false) "Invalid backup binding."
  refuseIf (input.binding ≠ input.encryption.binding)
    "Backup encryption belongs to a different account, backup or manifest."
  refuseIf (isMaximum input.maxBytes = false) "Invalid byte limit."
  refuseIf (input.maxBytes < input.encryption.plaintextBytes ∨
      input.maxBytes < input.encryption.ciphertextBytes)
    "Backup exceeds the admitted restore byte limit."
  let dataKey ← unwrapBackupKey input.encryption input.binding input.keyring
  let random ← randomText
  let ciphertext ← openSource input.source input.encryption
  createFile (temporaryName input.destination random)
  orRemove (temporaryName input.destination random)
    (decryptInto sha256 input (temporaryName input.destination random) dataKey ciphertext)
  persist input.destination

end

end AgentCloud.Envelopes
