/-
  CUSTOMERS OF A RELEASE (`allocation-image.ts`): the pin of an allocation, and the creates that boot
  from it.

  Admission pins one allocation to the release in the transaction that admits its create.  The worker
  prepares the create's effects behind `guard_pinned_guest_effect`; a guest's user-data is rendered
  only after the release was read once more.  Of the rest of the customers' lifecycle only what bears
  on a pin is kept: what is recorded about an effect is immutable, and so is retirement.
-/
import AgentCloud.Images.Publication

namespace AgentCloud.Images

open Checked Durable
open Lifecycle (raised Journal Attempt OperationRow Allocation ProviderCommand)

/-! ## Pins -/

/-- The release that a pin may name. -/
def Store.release (store : Store) (buildId : ImageBuildId) : Option SignedImageRelease :=
  (store.build buildId).bind fun build => build.publication.bind fun publication =>
    publication.release

/-- `guard_allocation_image`. -/
def guardAllocationImage (store : Store) (pin : AllocationImage) : Except Fault Unit := do
  let refusal := raised
    "Allocation image must pin a compatible retained release before boot work starts"
  let build ← present (store.build pin.buildId) refusal
  let release ← present (store.release pin.buildId) refusal
  let journal ← present (store.customer pin.allocationId) refusal
  let operation ← present (journal.operation pin.operationId) refusal
  refuse (build.state.retained? = false ∨ pin.snapshotId ≠ release.payload.snapshot.id ∨
      journal.machine.accountId ≠ pin.accountId ∨ journal.allocation.provider ≠ .hetzner ∨
      journal.allocation.retiredAt.isSome ∨ operation.kind ≠ .create ∨
      operation.progress ≠ .queued ∨
      release.payload.manifest.architecture ≠ journal.allocation.offer.architecture ∨
      journal.allocation.offer.diskGb < release.payload.snapshot.diskGb ∨
      release.payload.retainUntil ≤ operation.createdAt + 1800000 ∨
      (journal.history pin.operationId) ≠ []) refusal

/-- `requireCustomerImage`: the units that renew a guest's certificate. -/
def requireCustomerImage (release : SignedImageRelease) : Except Fault Unit :=
  refuse (¬ (release.payload.inputs.any (fun file =>
        decide (file.1 = "systemd/agent-cloud-renew.service")) &&
      release.payload.inputs.any fun file =>
        decide (file.1 = "systemd/agent-cloud-renew.timer")) = true)
    (cloudError .permissionDenied "Customer machines require a renewal-capable image release.")

/-- `pinAllocationImage`; `trusted` is the verification of the release with the current keys. -/
def pinAllocationImage (trusted : SignedImageRelease → Bool) (pin : AllocationImage)
    (store : Store) : Except Fault Store := do
  let refusal := cloudError .providerUnavailable
    "New allocations require a retained published image."
  let build ← present (store.build pin.buildId) refusal
  let release ← present (store.release pin.buildId) refusal
  refuse (build.state.retained? = false) refusal
  refuse (trusted release = false)
    (cloudError .permissionDenied
      "Image release is invalid, expired or its signing key is not trusted.")
  requireCustomerImage release
  refuse (store.pins.any (fun other => decide (other.allocationId = pin.allocationId ∨
      other.operationId = pin.operationId)) = true)
    (raised "duplicate key value violates unique constraint")
  guardAllocationImage store pin
  pure { store with pins := store.pins ++ [pin] }

/-! ## Creates -/

/-- `NEW.command->>'kind' IN ('create','create_guest','create_primary_ip')`. -/
def bootEffect (command : ProviderCommand) : Bool := command.isServerCreate || command.isIpCreate

/-- The commands are of one kind. -/
def sameKind : ProviderCommand → ProviderCommand → Bool
  | .createGuest .., .createGuest .. => true
  | .createPrimaryIp .., .createPrimaryIp .. => true
  | .create .., .create .. => true
  | _, _ => false

/-- The pin of an operation. -/
def Store.pinOf (store : Store) (operationId : OperationId) : Option AllocationImage :=
  store.pins.find? fun pin => pin.operationId = operationId

/-- A release that customers may still boot from. -/
def ImageBuild.bootable (build : ImageBuild) (now : Instant) : Bool :=
  build.state.retained? &&
    build.admission.retention.deleteAfter?.any fun deleteAfter => decide (now < deleteAfter)

/-- `guard_pinned_guest_effect`. -/
def guardPinnedGuestEffect (store : Store) (journal : Journal) (new : Attempt) :
    Except Fault Unit :=
  match store.pinOf new.operationId with
  | none => pure ()
  | some pin =>
    if bootEffect new.command then do
      let refusal := raised
        "Pinned guest creation requires an active release and one initial effect"
      let build ← present (store.build pin.buildId) refusal
      let operation ← present (journal.operation pin.operationId) refusal
      refuse (build.bootable store.clock = false ∨ operation.progress.concluded = true ∨
          journal.allocation.retiredAt.isSome ∨ operation.createdAt + 1800000 ≤ store.clock ∨
          journal.allocation.id ≠ pin.allocationId ∨
          (journal.history new.operationId).any (fun attempt =>
            sameKind attempt.command new.command) = true) refusal
      match new.command with
      | .createGuest _ _ bootstrap =>
        refuse (bootstrap ≠ pin.allocationId)
          (raised "Guest effect must use its pinned allocation bootstrap")
      | .createPrimaryIp .. => pure ()
      | _ => throw refusal
    else pure ()

/-- The journal of an allocation, rewritten. -/
def Store.putCustomer (store : Store) (id : AllocationId) (journal : Journal) : Store :=
  { store with customers :=
      Table.update (fun row => row.allocation.id) store.customers id fun _ => journal }

/-- `INSERT INTO provider_attempts`, of whatever operation. -/
def insertAttempt (store : Store) (journal : Journal) (new : Attempt) : Except Fault Journal := do
  refuse (store.customers.any (fun other => (other.attempt new.id).isSome) = true)
    (raised "duplicate key value violates unique constraint")
  refuse (new.outcome ≠ .prepared ∨ new.resolution ≠ .pending)
    (raised "Provider attempts must begin prepared and unresolved")
  guardPinnedGuestEffect store journal new
  pure { journal with attempts := journal.attempts ++ [new] }

/-- The attempt of a customer's effect is committed. -/
def prepareCustomer (allocationId : AllocationId) (operationId : OperationId)
    (command : ProviderCommand) : Program AttemptId :=
  Prog.transact (S := interface) fun env store => do
    let journal ← present (store.customer allocationId)
      (cloudError .internalError "Operation ownership disappeared.")
    let journal' ← insertAttempt store journal
      ⟨env.id, operationId, (journal.history operationId).length + 1, command, .prepared, .pending,
        store.clock⟩
    pure (env.id, store.putCustomer allocationId journal')

/-- The renderer's last check: a guest boots from its pin only while the release is retained. -/
def renderBoot (operationId : OperationId) (command : ProviderCommand) : Program Unit :=
  match command with
  | .createGuest .. =>
    (Prog.read (S := interface) fun store => (store.pinOf operationId).all fun pin =>
        (store.build pin.buildId).any fun build => build.state.retained?).bind fun going =>
      if going then pure ()
      else raise (cloudError .permissionDenied
        "Only a retained published image can be selected.")
  | _ => pure ()

/-- What came back of a customer's effect is recorded once. -/
def recordCustomer (allocationId : AllocationId) (attemptId : AttemptId)
    (submission : Lifecycle.Submission) : Program Unit :=
  Prog.transact (S := interface) fun _ store =>
    match store.customer allocationId with
    | none => pure ((), store)
    | some journal =>
      let record (attempt : Attempt) : Attempt :=
        if attempt.outcome = .prepared then { attempt with outcome := .received submission }
        else attempt
      pure ((), store.putCustomer allocationId
        { journal with attempts := Table.update Attempt.id journal.attempts attemptId record })

/-- A customer's effect: committed, rendered, submitted. -/
def customerEffect (allocationId : AllocationId) (operationId : OperationId)
    (command : ProviderCommand) : Program Unit :=
  (prepareCustomer allocationId operationId command).bind fun attemptId =>
    (Prog.attempt (renderBoot operationId command)).bind fun rendered =>
      match rendered with
      | .error _ => recordCustomer allocationId attemptId
          (.unknown "Provider submission ended without a definitive response.")
      | .ok _ =>
        (Prog.ask (S := interface) (.customerSubmit attemptId command)).bind fun reply =>
          recordCustomer allocationId attemptId (match reply with
            | .ok submission => submission
            | .error _ => .unknown "Provider submission ended without a definitive response.")

/-! ## The rest of the lifecycle -/

/-- What may become of the row of an attempt (`guard_provider_attempt`). -/
structure AttemptChange (old new : Attempt) : Prop where
  id : new.id = old.id
  operationId : new.operationId = old.operationId
  command : new.command = old.command
  settled : old.resolution ≠ .pending → new.resolution = old.resolution

/-- What may become of the journal of an allocation, apart from new attempts: nothing recorded is
    taken back (`guard_provider_attempt`, `guard_pinned_allocation`). -/
structure CustomerChange (old new : Journal) : Prop where
  attempts : List.Forall₂ AttemptChange old.attempts new.attempts
  allocation : new.allocation.id = old.allocation.id
  retired : old.allocation.retiredAt.isSome → new.allocation.retiredAt = old.allocation.retiredAt
  account : new.machine.accountId = old.machine.accountId

end AgentCloud.Images
