/-
  THE RESOURCE JOURNAL: which provider resources the allocation owns.

  A resource is claimed for the allocation, once and for good, and later recorded absent, also for
  good: a claim of a resource that is bound elsewhere or already absent is refused.  Inside a
  transaction a claim is one step; where the source claims with the plain connection it is three
  statements, and a worker may die between them.

  The calls to the provider that the workers share are here too.
-/
import AgentCloud.Lifecycle.Guards

namespace AgentCloud.Lifecycle

open Checked Durable

/-! ## Labels -/

/-- `allocationLabels`. -/
def allocationLabels (machine : MachineRow) (allocation : Allocation) : Labels :=
  [("managed_by", "agent-cloud"), ("account_id", machine.accountId), ("machine_id", machine.id),
    ("allocation_id", allocation.id)]

/-- `effectLabels`. -/
def effectLabels (operation : OperationRow) (machine : MachineRow) (allocation : Allocation) :
    Labels :=
  allocationLabels machine allocation ++ [("operation_id", operation.id)]

@[simp] theorem effectLabels_operation (operation : OperationRow) (machine : MachineRow)
    (allocation : Allocation) :
    (effectLabels operation machine allocation).lookup "operation_id" = some operation.id := by
  simp [effectLabels, allocationLabels, List.lookup_cons]

/-! ## Claims and absence -/

/-- `INSERT INTO provider_resources ... ON CONFLICT DO NOTHING`. -/
def insertResource (env : Env) (journal : Journal) (now : Instant) (ref : ResourceRef)
    (labels : Labels) : Except Fault Journal :=
  if journal.resource ref ≠ none ∨ env.bound ref then pure journal
  else
    match env.refused with
    | some message => throw (raised message)
    | none => pure { journal with resources := journal.resources ++ [⟨ref, labels, none, now⟩] }

def claimRefused : Fault :=
  cloudError .providerOutcomeUnknown
    "Provider resource is bound elsewhere or was already confirmed absent."

/-- The check of a claim: the resource is bound to this allocation and not recorded absent. -/
def checkClaim (journal : Journal) (ref : ResourceRef) : Except Fault Unit :=
  refuse (¬ (journal.resource ref).any OwnedResource.live) claimRefused

/-- `if (resource.kind === 'server') ... set({ serverId: resource.id })`. -/
def bindServer (journal : Journal) (ref : ResourceRef) : Except Fault Journal :=
  match ref.kind with
  | .server => updateAllocation journal fun allocation => { allocation with serverId := some ref.id }
  | .primaryIp => pure journal

/-- `claimResource` in a transaction. -/
def claimResource (env : Env) (now : Instant) (journal : Journal) (ref : ResourceRef)
    (labels : Labels) : Except Fault Journal := do
  let journal ← insertResource env journal now ref labels
  checkClaim journal ref
  bindServer journal ref

/-- `claimResource` with the plain connection. -/
def claimNow (ref : ResourceRef) (labels : Labels) : Program Unit := do
  transact fun env now journal => do
    let journal ← insertResource env journal now ref labels
    pure ((), journal)
  transact fun _ _ journal => do
    checkClaim journal ref
    pure ((), journal)
  transact fun _ _ journal => do
    let journal ← bindServer journal ref
    pure ((), journal)

/-- `recordAbsence`. -/
def recordAbsence (env : Env) (journal : Journal) (ref : ResourceRef) : Journal :=
  { journal with
    resources := journal.resources.map fun resource =>
      if resource.ref = ref ∧ resource.live = true then { resource with absentAt := some env.date }
      else resource }

/-- `recordAbsence` with the plain connection. -/
def recordAbsenceNow (ref : ResourceRef) : Program Unit :=
  transact fun env _ journal => .ok ((), recordAbsence env journal ref)

/-! ## Progress -/

/-- `setProgress` in a transaction. -/
def writeProgress (journal : Journal) (id : OperationId) (progress : OperationProgress) :
    Except Fault Journal :=
  if (journal.operation id).any fun operation => operation.progress ≠ progress then
    updateOperation journal id fun operation => { operation with progress }
  else pure journal

def setProgress (id : OperationId) (progress : OperationProgress) : Program Unit :=
  transact fun _ _ journal => do
    let journal ← writeProgress journal id progress
    pure ((), journal)

/-! ## Reading the provider -/

def getCatalog : Program Catalog := do
  let reply ← Prog.ask (S := interface) .getCatalog
  thrown reply

def getAction (actionId : String) : Program ProviderAction := do
  let reply ← Prog.ask (S := interface) (.getAction actionId)
  thrown reply

def getServer (serverId : String) : Program (Option ProviderServer) := do
  let reply ← Prog.ask (S := interface) (.getServer serverId)
  thrown reply

def getPrimaryIp (primaryIpId : String) : Program (Option ProviderPrimaryIp) := do
  let reply ← Prog.ask (S := interface) (.getPrimaryIp primaryIpId)
  thrown reply

/-- `findServers` or `findPrimaryIps`: the identifiers and labels found. -/
def search (kind : ResourceKind) (labels : Labels) : Program (List (String × Labels)) :=
  match kind with
  | .server => do
    let reply ← Prog.ask (S := interface) (.findServers labels)
    let servers ← thrown reply
    pure (servers.map fun server => (server.id, server.labels))
  | .primaryIp => do
    let reply ← Prog.ask (S := interface) (.findPrimaryIps labels)
    let ips ← thrown reply
    pure (ips.map fun ip => (ip.id, ip.labels))

/-- What an exact read shows of a resource of either kind: its identifier and labels, and that no
    server is attached to it. -/
structure Sighting where
  id : String
  labels : Labels
  free : Bool
  deriving DecidableEq, Repr

/-- The exact read of a resource. -/
def look (ref : ResourceRef) : Program (Option Sighting) :=
  match ref.kind with
  | .server => do
    let server ← getServer ref.id
    pure (server.map fun server => ⟨server.id, server.labels, true⟩)
  | .primaryIp => do
    let ip ← getPrimaryIp ref.id
    pure (ip.map fun ip => ⟨ip.id, ip.labels, decide (ip.assignment = .unassigned)⟩)

/-- The call that reads a resource exactly. -/
def exactRead (ref : ResourceRef) : Call :=
  match ref.kind with
  | .server => .getServer ref.id
  | .primaryIp => .getPrimaryIp ref.id

end AgentCloud.Lifecycle
