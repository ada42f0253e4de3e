/-
  THE ALLOWANCE OF IMAGE BUILDS: what one build reserves, and what the open ones may reserve together.

  An admission names a cap for its machines and one for its snapshot (`image-budget.ts`).  The caps
  are checked against the admitted prices once (`checkImageAdmission`); afterwards the prices may only
  fall (`checkImagePrices`), and the operator's limits are checked against the caps of the builds that
  are not cleaned (`checkImageLimits`): at admission, and before every create.
-/
import AgentCloud.Images.Guards

namespace AgentCloud.Images

open Checked
open Lifecycle (ProviderKind)

/-! ## One build -/

structure ImageReservation where
  vmGrossMicros : Micros
  snapshotMonthlyGrossMicros : Micros
  deriving DecidableEq, Repr

/-- Whole hours of a window, rounded up. -/
def hoursOf (duration : Nat) : Nat := (duration + 3599999) / 3600000

/-- `microsSchema.parse`. -/
def parseMicros (micros : Nat) : Except Fault Micros := do
  refuse (2147483647 < micros) (.other "Too big: expected number to be <=2147483647")
  pure micros

/-- Builder and verifier may each exist for the entire window, including while stopped. -/
def imageReservation (admission : ImageBuildAdmission) : Except Fault ImageReservation := do
  let duration := admission.deadlineAt - admission.admittedAt
  refuse (admission.deadlineAt ≤ admission.admittedAt ∨ 86400000 < duration)
    (cloudError .invalidInput "Image builds need a deadline within 24 hours.")
  let vmGrossMicros ← parseMicros (2 * hoursOf duration * admission.offer.hourlyMicros)
  let snapshotMonthlyGrossMicros ← parseMicros
    (admission.budget.maxSnapshotGb * admission.storagePrice.grossMicrosPerGbMonth)
  pure ⟨vmGrossMicros, snapshotMonthlyGrossMicros⟩

/-- `catalogResponseSchema`, with the full items. -/
structure ImageCatalog where
  provider : ProviderKind
  pricing : PriceBasis
  observedAt : Instant
  expiresAt : Instant
  items : List ImageOffer

/-- `selectOffer` over the full items. -/
def selectImageOffer (catalog : ImageCatalog) (size : Size) (region : Region) (now : Instant) :
    Except Fault ImageOffer := do
  refuse (catalog.expiresAt ≤ now ∨ now + 5000 < catalog.observedAt)
    (retryableError .providerUnavailable
      "The provider catalog is stale; refresh before provisioning.")
  let offer ← present (catalog.items.find? fun item => item.size = size ∧ item.region = region)
    (retryableError .capacityUnavailable "The configured offer has no capacity in this region.")
  refuse (offer.available = false)
    (retryableError .capacityUnavailable "The configured offer has no capacity in this region.")
  pure offer

/-- Current prices against the admitted ones. -/
def checkImagePrices (admission : ImageBuildAdmission) (catalog : ImageCatalog)
    (storagePrice : StoragePrice) (now : Instant) : Except Fault Unit := do
  let offer := admission.offer
  let current ← selectImageOffer catalog offer.size offer.region now
  refuse (catalog.provider ≠ .hetzner ∨ catalog.pricing ≠ .accountGross ∨
      current.serverType ≠ offer.serverType ∨ current.architecture ≠ offer.architecture ∨
      current.diskGb ≠ offer.diskGb ∨ current.memoryGb ≠ offer.memoryGb ∨
      current.vcpus ≠ offer.vcpus)
    (cloudError .capacityUnavailable "The exact admitted image-build offer is unavailable.")
  refuse (current.currency ≠ offer.currency ∨ storagePrice.currency ≠ offer.currency ∨
      offer.serverHourlyMicros < current.serverHourlyMicros ∨
      offer.ipv4HourlyMicros < current.ipv4HourlyMicros ∨
      admission.storagePrice.grossMicrosPerGbMonth < storagePrice.grossMicrosPerGbMonth)
    (cloudError .budgetExceeded "Current image-build prices exceed the admission.")
  refuse (now + 5000 < storagePrice.observedAt ∨ storagePrice.expiresAt ≤ now ∨
      storagePrice.expiresAt ≤ storagePrice.observedAt)
    (retryableError .providerUnavailable
      "Refresh snapshot pricing before admission or creation.")

def checkRetention (admission : ImageBuildAdmission) : Except Fault Unit :=
  match admission.retention with
  | .verificationOnly => pure ()
  | .retain deleteAfter =>
    refuse (deleteAfter ≤ admission.deadlineAt ∨
        admission.admittedAt + 30 * 86400000 < deleteAfter)
      (cloudError .invalidInput
        "Snapshot retention must follow the build deadline and fit within 30 days.")

def checkImageAdmission (admission : ImageBuildAdmission) (now : Instant) : Except Fault Unit := do
  refuse (admission.offer.priceBasis ≠ .accountGross ∨ admission.offer.available = false ∨
      admission.offer.currency ≠ admission.budget.currency ∨
      admission.storagePrice.currency ≠ admission.budget.currency ∨
      admission.source.manifest.architecture ≠ admission.offer.architecture ∨
      admission.budget.maxSnapshotGb < admission.offer.diskGb)
    (cloudError .invalidInput
      "Image architecture, gross currency and snapshot disk ceiling must match the offer.")
  refuse (admission.admittedAt + 5000 < now ∨ now + 5000 < admission.admittedAt ∨
      admission.deadlineAt ≤ now)
    (cloudError .invalidInput "Admission needs a current timestamp and a future deadline.")
  checkRetention admission
  let reservation ← imageReservation admission
  refuse (admission.budget.maxVmGrossMicros < reservation.vmGrossMicros ∨
      admission.budget.maxSnapshotMonthlyGrossMicros < reservation.snapshotMonthlyGrossMicros)
    (cloudError .budgetExceeded
      "Image-build caps do not cover both machines, IPv4 and snapshot storage.")

/-! ## All builds -/

structure ReservationRow where
  currency : String
  openBuilds : Nat
  vmGrossMicros : Micros
  snapshotMonthlyGrossMicros : Micros
  deriving DecidableEq, Repr

/-- A retained build has no temporary machines left, a cleaned one has nothing left. -/
def reservationOf (admission : ImageBuildAdmission) (state : ImageBuildState) : ReservationRow where
  currency := admission.budget.currency
  openBuilds := if state.retained? || state.cleaned? then 0 else 1
  vmGrossMicros :=
    if state.retained? || state.cleaned? then 0 else admission.budget.maxVmGrossMicros
  snapshotMonthlyGrossMicros :=
    if state.cleaned? then 0 else admission.budget.maxSnapshotMonthlyGrossMicros

def parseImageReservations (rows : List (ImageBuildAdmission × ImageBuildState)) :
    List ReservationRow :=
  rows.map fun row => reservationOf row.1 row.2

structure ImageBuildLimits where
  currency : String
  maxOpenBuilds : Nat
  maxVmGrossMicros : Micros
  maxSnapshotMonthlyGrossMicros : Micros
  deriving DecidableEq, Repr

/-- The sum of one column. -/
def total (column : ReservationRow → Nat) (rows : List ReservationRow) : Nat :=
  rows.foldr (fun row sum => column row + sum) 0

/-- The operator's limits cover what is reserved. -/
structure Within (limits : ImageBuildLimits) (rows : List ReservationRow) : Prop where
  openBuilds : total ReservationRow.openBuilds rows ≤ limits.maxOpenBuilds
  currency : ∀ row ∈ rows, row.currency = limits.currency
  vmGross : total ReservationRow.vmGrossMicros rows ≤ limits.maxVmGrossMicros
  snapshots :
    total ReservationRow.snapshotMonthlyGrossMicros rows ≤ limits.maxSnapshotMonthlyGrossMicros

def checkImageLimits (rows : List ReservationRow) (limits : ImageBuildLimits) :
    Except Fault Unit :=
  refuse (limits.maxOpenBuilds < total ReservationRow.openBuilds rows ∨
      rows.any (fun row => decide (row.currency ≠ limits.currency)) = true ∨
      limits.maxVmGrossMicros < total ReservationRow.vmGrossMicros rows ∨
      limits.maxSnapshotMonthlyGrossMicros <
        total ReservationRow.snapshotMonthlyGrossMicros rows)
    (cloudError .budgetExceeded
      "Open image builds and retained snapshots exceed the current operator limits.")

/-- The check passes exactly within the limits. -/
theorem checkImageLimits_ok {rows : List ReservationRow} {limits : ImageBuildLimits} :
    checkImageLimits rows limits = .ok () ↔ Within limits rows := by
  simp only [checkImageLimits, refuse_ok_iff, not_or, Nat.not_lt, Bool.not_eq_true,
    List.any_eq_false, decide_eq_true_eq, ne_eq, not_not]
  constructor
  · rintro ⟨hopen, hcurrency, hvm, hsnapshots⟩
    exact ⟨hopen, hcurrency, hvm, hsnapshots⟩
  · rintro ⟨hopen, hcurrency, hvm, hsnapshots⟩
    exact ⟨hopen, hcurrency, hvm, hsnapshots⟩

/-! ## Admission -/

/-- The builds that count: `state->>'kind' <> 'cleaned'`. -/
def Store.uncleaned (store : Store) : List (ImageBuildAdmission × ImageBuildState) :=
  (store.builds.filter fun build => !build.state.cleaned?).map fun build =>
    (build.admission, build.state)

/-- The transaction of `admitImageBuild`, under the allowance lock; `date` is the worker's clock. -/
def admitImageBuild (admission : ImageBuildAdmission) (catalog : ImageCatalog)
    (limits : ImageBuildLimits) (date : Instant) (store : Store) :
    Except Fault (ImageBuildState × Store) :=
  match store.build admission.id with
  | some previous => do
    refuse (previous.admission ≠ admission)
      (cloudError .idempotencyConflict "This build ID already describes a different admission.")
    pure (previous.state, store)
  | none => do
    checkImageAdmission admission date
    checkImagePrices admission catalog admission.storagePrice date
    checkImageLimits (parseImageReservations (store.uncleaned ++ [(admission, .running)])) limits
    pure (.running, { store with builds := store.builds ++ [.admitted admission] })

end AgentCloud.Images
