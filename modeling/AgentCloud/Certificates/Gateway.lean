/-
  THE GATEWAY CERTIFICATE: `apps/public-gateway/src/certificate.ts`.

  The gateway keeps three files: the receipt of its certificate, the PEM that Caddy reads, and the
  last attempt to renew.  `restore` publishes what the receipt says; `refresh` restores, and asks the
  signer for a new certificate when the old one has less than twenty minutes to go, after it has
  recorded the attempt.

  Each file is replaced in one atomic step, which may fail, and may fail after it took effect.  A
  process may die between any two steps; what it had validated dies with it.  The clock is a process
  of its own that only moves forward.

  The model is more talkative than the code: it keeps every attempt and every receipt that was
  written, notes when a step failed, and writes down how each refresh was answered and what the files
  held then.  Digests stand for what they are digests of.
-/
import AgentCloud.Contracts
import AgentCloud.Lib.Machine

namespace AgentCloud.Certificates

open Checked Durable

/-- `gatewayCertificateReceiptSchema` -/
structure Receipt where
  name : String
  certificate : String
  issuedAt : Instant
  expiresAt : Instant
  deriving DecidableEq, Repr

/-- What `renewGatewayTls` returns; the text has passed the same schema as that of a receipt. -/
structure Renewed where
  certificate : String
  issuedAt : Instant
  expiresAt : Instant
  deriving DecidableEq, Repr

structure Identity where
  name : String
  privateKey : String
  certificate : String
  issuedAt : Instant
  deriving DecidableEq, Repr

/-- `renewalAttemptSchema` -/
structure Attempt where
  id : String
  certificateDigest : String
  startedAt : Instant
  deriving DecidableEq, Repr

/-- An attempt, with the number of receipts that had been written before it. -/
structure Ticket where
  attempt : Attempt
  era : Nat
  deriving DecidableEq, Repr

inductive Renewal where
  | notDue
  | unavailable
  | renewed
  deriving DecidableEq, Repr

/-- How a refresh ended, with what there was at that moment; without an outcome it threw. -/
structure Answer where
  outcome : Option Renewal
  receipt : Option Receipt
  published : Option String
  answeredAt : Instant
  failed : Bool
  deriving DecidableEq, Repr

structure Store where
  /-- The receipt file; none when it is missing or does not parse. -/
  receipt : Option Receipt
  published : Option String
  attempt : Option Attempt
  privateKey : String
  tlsRoot : String
  clock : Instant
  /-- `validatedDigest`, in the memory of the process. -/
  validated : Option (Receipt × String × String)
  tickets : List Ticket
  receipts : List Receipt
  failed : Bool
  answers : List Answer
  deriving DecidableEq, Repr

/-- Does the next file operation fail, and after its effect?  Which UUID is drawn, and how late is it? -/
structure Env where
  fails : Bool
  synced : Bool
  uuid : String
  time : Instant

inductive Call where
  | validate (identity : Identity)
  | renew (ticket : Ticket) (identity : Identity)
  deriving DecidableEq, Repr

/-- The reply of the signer, with the moment of the request and the PEM of that moment. -/
structure Signing where
  requestedAt : Instant
  published : Option String
  outcome : Option Renewed
  deriving DecidableEq, Repr

abbrev Call.Reply : Call → Type
  | .validate _ => Option Instant
  | .renew .. => Signing

abbrev interface : Interface where
  Env := Env
  Store := Store
  Call := Call
  Reply := Call.Reply
  Fault := Fault

abbrev Program := Prog interface

/-! ## Steps -/

/-- White space, as `trim` understands it. -/
def isSpace (c : Char) : Bool :=
  (decide (9 ≤ c.toNat) && decide (c.toNat ≤ 13)) ||
    (decide (8192 ≤ c.toNat) && decide (c.toNat ≤ 8202)) ||
    [32, 160, 5760, 8232, 8233, 8239, 8287, 12288, 65279].contains c.toNat

/-- `text.trim()` -/
def trimmed (text : String) : List Char :=
  ((text.toList.dropWhile isSpace).reverse.dropWhile isSpace).reverse

def thrown {α : Type} (message : String) : Program α := Prog.throw (.other message)

/-- What a step returned, if it did not fail. -/
def settle {α : Type} : Option α → Program α
  | none => thrown "Gateway file operation failed."
  | some a => pure a

/-- One operation on the files, `f`, which may fail before or after it took effect. -/
def operate {α : Type} (f : Env → Store → Option (α × Store)) : Program α := do
  let result ← Prog.transact (S := interface) fun env s =>
    match if env.fails = true then none else f env s with
    | none => .ok (none, { s with failed := true })
    | some (a, s') =>
      if env.synced = true then .ok (some a, s') else .ok (none, { s' with failed := true })
  settle result

/-- Something outside refused. -/
def refused {α : Type} (message : String) : Program α := do
  let _ ← Prog.transact (S := interface) fun _ s => .ok ((), { s with failed := true })
  thrown message

/-- `operations.now()` -/
def now : Program Instant := Prog.read (S := interface) Store.clock

/-! ## Restoring -/

/-- What validation said about the certificate of the receipt. -/
def checkValidity (receipt : Receipt) (privateKey tlsRoot : String) : Option Instant → Program Unit
  | none => refused "Gateway certificate tooling failed."
  | some expiresAt =>
    if expiresAt ≠ receipt.expiresAt then
      refused "Gateway receipt expiry disagrees with its certificate."
    else
      Prog.transact (S := interface) fun _ s =>
        .ok ((), { s with validated := some (receipt, privateKey, tlsRoot) })

def validate (receipt : Receipt) (privateKey tlsRoot : String) (identity : Identity) :
    Program Unit := do
  let validated ← Prog.read (S := interface) Store.validated
  if validated = some (receipt, privateKey, tlsRoot) then pure ()
  else do
    let reply ← Prog.ask (S := interface) (.validate identity)
    checkValidity receipt privateKey tlsRoot reply

def checkExpiry (receipt : Receipt) : Program Unit := do
  let moment ← now
  if receipt.expiresAt ≤ moment + 30000 then
    thrown "Gateway certificate has expired or is about to expire."
  else pure ()

def publish (receipt : Receipt) : Program Unit := do
  let published ← operate fun _ s => some (s.published, s)
  if published.map trimmed = some (trimmed receipt.certificate) then pure ()
  else operate fun _ s => some ((), { s with published := some receipt.certificate })

/-- The receipt, if it is this gateway's. -/
def ownReceipt (name : String) : Program Receipt := do
  let receipt ← operate fun _ s => s.receipt.map fun receipt => (receipt, s)
  if receipt.name ≠ name then thrown "Gateway certificate receipt belongs to another identity."
  else pure receipt

def restore (name : String) : Program (Receipt × Identity) := do
  let receipt ← ownReceipt name
  let privateKey ← operate fun _ s => some (s.privateKey, s)
  let tlsRoot ← operate fun _ s => some (s.tlsRoot, s)
  let identity : Identity := ⟨receipt.name, privateKey, receipt.certificate, receipt.issuedAt⟩
  validate receipt privateKey tlsRoot identity
  checkExpiry receipt
  publish receipt
  pure (receipt, identity)

/-! ## Refreshing -/

/-- The attempt file, under a UUID that was never drawn before. -/
def writeAttempt (receipt : Receipt) (startedAt : Instant) : Program Ticket :=
  operate fun env s =>
    if env.uuid ∈ s.tickets.map fun ticket => ticket.attempt.id then none
    else
      let ticket : Ticket := ⟨⟨env.uuid, receipt.certificate, startedAt⟩, s.receipts.length⟩
      some (ticket, { s with attempt := some ticket.attempt, tickets := s.tickets ++ [ticket] })

def writeReceipt (receipt : Receipt) : Program Unit :=
  operate fun _ s =>
    some ((), { s with receipt := some receipt, receipts := s.receipts ++ [receipt] })

/-- What is done with the signer's reply. -/
def record (name : String) (receipt : Receipt) : Option Renewed → Program Renewal
  | none => pure .unavailable
  | some renewed => do
    writeReceipt ⟨receipt.name, renewed.certificate, renewed.issuedAt, renewed.expiresAt⟩
    let _ ← restore name
    pure .renewed

def request (name : String) (receipt : Receipt) (identity : Identity) : Program Renewal := do
  let startedAt ← now
  let ticket ← writeAttempt receipt startedAt
  let reply ← Prog.ask (S := interface) (.renew ticket identity)
  record name receipt reply.outcome

def renew (name : String) (receipt : Receipt) (identity : Identity) : Program Renewal := do
  let previous ← operate fun _ s => some (s.attempt, s)
  let moment ← now
  if ∃ attempt ∈ previous, attempt.certificateDigest = receipt.certificate ∧
      moment < attempt.startedAt + 60000 then pure .unavailable
  else request name receipt identity

def refresh (name : String) : Program Renewal := do
  let (receipt, identity) ← restore name
  let moment ← now
  if moment + 20 * 60000 < receipt.expiresAt then pure .notDue
  else renew name receipt identity

/-! ## The process -/

/-- A refresh from its start to its answer. -/
def answered (name : String) : Program Unit := do
  let _ ← Prog.transact (S := interface) fun _ s => .ok ((), { s with failed := false })
  let result ← (refresh name).attempt
  Prog.transact (S := interface) fun _ s =>
    .ok ((), { s with answers := s.answers ++
      [⟨result.toOption, s.receipt, s.published, s.clock, s.failed⟩] })

inductive Request where
  | restore
  | refresh
  deriving DecidableEq, Repr

def handle (name : String) : Request → Program Unit
  | .restore => do
    let _ ← (restore name).attempt
    pure ()
  | .refresh => answered name

/-- The calls of one process, one after the other; what is thrown ends one call only. -/
def serve (name : String) (requests : List Request) : Program Unit :=
  Prog.forEach requests (handle name)

def tick : Program Unit :=
  Prog.transact (S := interface) fun env s => .ok ((), { s with clock := max s.clock env.time })

inductive Slot where
  | process
  | clock
  deriving DecidableEq, Repr

/-- A process starts without memory. -/
def forget (k : Slot) (s : Store) : Store :=
  match k with
  | .process => { s with validated := none }
  | .clock => s

/-- The gateway: `certifies` is what the key infrastructure checks of a certificate before it
    returns it, that it is one for this name and this key. -/
def gateway (name : String) (certifies : String → String → String → Prop) :
    Machine interface Slot where
  job
    | .process, p => ∃ requests, p = serve name requests
    | .clock, p => p = tick
  born := forget
  gone := forget
  reboot _ _ := False
  allows w
    | .validate _, _ => True
    | .renew _ identity, reply => reply.requestedAt = w.store.clock ∧
        reply.published = w.store.published ∧
        ∀ renewed ∈ reply.outcome, certifies renewed.certificate identity.name identity.privateKey

end AgentCloud.Certificates
