/-
  THE RELEASE PLANNER (`image-release-plan.ts`): what a worker does next for a build, from its record.

  The plan is one ordered chain of questions, and the first that is not settled is what is to be
  done: `return plan` in the middle of the chain is an early exit here (`Except Plan`).  Each created
  resource is one link: without an effect its create is planned, and what was created must be the
  one observed resource of its role, under a confirmed effect (`created`).

  `Dependency` says that of a resource, and `Planned` lists every fresh command with what the chain
  has settled before it; `PlanSafe` is what follows for every record whatsoever.
-/
import AgentCloud.Images.Invariant

namespace AgentCloud.Images

open Checked

/-! ## What is planned -/

inductive Plan where
  | effect (command : ImageProviderCommand)
  | builder
  | cleanup (reason : CleanupReason)
  | cleaned
  | verifierPrepare
  | verifierCheck
  | verified
  | publicationPrepare
  | releaseCleanup
  | retained
  | verificationRequired (snapshotId : String)
  deriving DecidableEq, Repr

/-- `imageVerificationSchema`. -/
inductive ImageVerification where
  | waiting
  | prepared (spec : VerifierBootstrap)
  | claimed (spec : VerifierBootstrap) (identity : VerifierIdentity)
  | enrolled (spec : VerifierBootstrap) (identity : VerifierIdentity)
  | verified (spec : VerifierBootstrap) (identity : VerifierIdentity) (result : VerificationResult)
  deriving DecidableEq, Repr

/-- `readImageVerification`. -/
def readImageVerification (build : ImageBuild) : ImageVerification :=
  match build.bootstrap with
  | none => .waiting
  | some spec =>
    match build.identity with
    | none => .prepared spec
    | some identity =>
      if identity.issued then
        match build.result with
        | none => .enrolled spec identity
        | some result => .verified spec identity result
      else .claimed spec identity

/-! ## The chain -/

/-- `role.replaceAll('_', '-')`. -/
def ImageResourceRole.dashed (role : ImageResourceRole) : String :=
  role.text.map fun c => if c = '_' then '-' else c

/-- `identity(role).name`. -/
def ImageBuild.nameOf (build : ImageBuild) (role : ImageResourceRole) : String :=
  "image-" ++ role.dashed ++ "-" ++ build.admission.id

/-- `imageBuildLabels(admission.id, role)`. -/
def ImageBuild.labelsOf (build : ImageBuild) (role : ImageResourceRole) : ImageBuildLabels :=
  ⟨build.admission.id, role⟩

/-- `effect(role)`. -/
def ImageBuild.createEffect (build : ImageBuild) (role : ImageResourceRole) : Option Effect :=
  build.effects.find? fun item => item.key = ⟨.create role, none⟩

/-- `resource(role)`: the only one of its role, if it is observed. -/
def ImageBuild.onlyResource (build : ImageBuild) (role : ImageResourceRole) : Option Resource :=
  match build.resources.filter fun item => item.role = role with
  | [first] => if first.state.resource?.isSome then some first else none
  | _ => none

/-- One link of the chain: the create is planned, has failed, or has left its resource. -/
def created (build : ImageBuild) (role : ImageResourceRole) (command : ImageProviderCommand) :
    Except Plan Resource := do
  let effect ← present (build.createEffect role) (.effect command)
  let resource ← present (build.onlyResource role) (.cleanup .failed)
  refuse (effect.resolution.confirmed? = false) (.cleanup .failed)
  pure resource

/-- The access key and the access firewall. -/
def planAccess (build : ImageBuild) : Except Plan (Resource × Resource) := do
  let key ← created build .accessKey (.createSshKey (build.nameOf .accessKey)
    (build.labelsOf .accessKey) build.admission.access.publicKey)
  let firewall ← created build .accessFirewall (.createFirewall (build.nameOf .accessFirewall)
    (build.labelsOf .accessFirewall) build.admission.access.managementAddress)
  pure (key, firewall)

/-- An address and the server that gets it. -/
def planServer (build : ImageBuild) (ipRole role : ImageResourceRole) (key firewall : Resource)
    (imageId : String) (bootData : BootData) : Except Plan Resource := do
  let ip ← created build ipRole (.createPrimaryIp (build.nameOf ipRole) (build.labelsOf ipRole)
    build.admission.offer.region.text)
  created build role (.createServer (build.nameOf role) (build.labelsOf role)
    ⟨build.admission.offer.serverType, build.admission.offer.region.text, imageId, ip.ref.id,
      key.ref.id, firewall.ref.id, bootData⟩)

/-- The stopped builder and its snapshot. -/
def planSnapshot (build : ImageBuild) (builder : Resource) : Except Plan Resource := do
  let work ← present build.builderWork .builder
  let sanitation ← present work.progress.sanitation? .builder
  refuse (work.serverId ≠ builder.ref.id ∨ work.effectId ≠ builder.effectId) (.cleanup .failed)
  refuse (build.effects.any (fun item => decide (item.command.stops? = some builder.ref.id) &&
      item.resolution.confirmed?) = false) (.effect (.powerOff builder.ref.id sanitation))
  created build .snapshot (.createSnapshot (build.nameOf .snapshot) (build.labelsOf .snapshot)
    builder.ref.id)

/-- How far the verification is; the expiry of its bootstrap counts until the enrollment. -/
def planVerification (build : ImageBuild) (now : Instant) (publicationEnabled : Bool) :
    Except Plan Unit :=
  match readImageVerification build with
  | .verified .. => throw (
      if publicationEnabled = false then .verified
      else if build.admission.retention.deleteAfter?.isSome then .publicationPrepare
      else .cleanup .requested)
  | .waiting => throw .verifierPrepare
  | .prepared spec => refuse (spec.expiresAt ≤ now) (.cleanup .failed)
  | .claimed spec _ => refuse (spec.expiresAt ≤ now) (.cleanup .failed)
  | .enrolled .. => pure ()

/-- The chain of a running build with nothing pending. -/
def planRunning (build : ImageBuild) (now : Instant)
    (verificationEnabled publicationEnabled : Bool) : Except Plan Plan := do
  let access ← planAccess build
  let builder ← planServer build .builderIp .builder access.1 access.2 build.admission.baseImageId
    (.imageBuildSecret build.admission.access.secretId build.admission.source.manifestDigest)
  let snapshot ← planSnapshot build builder
  refuse (verificationEnabled = false) (.verificationRequired snapshot.ref.id)
  planVerification build now publicationEnabled
  let _ ← planServer build .verifierIp .verifier access.1 access.2 snapshot.ref.id
    (.imageVerifierSecret build.admission.id build.admission.source.manifestDigest)
  pure .verifierCheck

/-- What a chain came to. -/
def planOf : Except Plan Plan → Plan
  | .ok plan => plan
  | .error plan => plan

def planImageRelease (build : ImageBuild) (now : Instant)
    (verificationEnabled publicationEnabled : Bool) : Plan :=
  match build.state with
  | .cleaned _ => .cleaned
  | .cleaning reason => .cleanup reason
  | .retained _ =>
    if build.admission.retention.deleteAfter?.any (fun deleteAfter => decide (now < deleteAfter)) then
      .retained
    else .cleanup .expired
  | .releasing => if build.expired now then .cleanup .expired else .releaseCleanup
  | .running =>
    if build.expired now then .cleanup .expired
    else
      match build.effects.find? Effect.pending with
      | some pending => .effect pending.command
      | none => planOf (planRunning build now verificationEnabled publicationEnabled)

/-! ## What the links settle -/

variable {build : ImageBuild} {now : Instant} {verificationEnabled publicationEnabled : Bool}
  {role : ImageResourceRole} {row : Resource} {command : ImageProviderCommand} {plan : Plan}

/-- The role has no create effect. -/
def Uncreated (build : ImageBuild) (role : ImageResourceRole) : Prop :=
  ∀ effect ∈ build.effects, effect.key ≠ ⟨.create role, none⟩

/-- The single observed resource of a confirmed create; where the tables keep their guards, of that
    very create. -/
structure Dependency (build : ImageBuild) (role : ImageResourceRole) (row : Resource) : Prop where
  single : (build.resources.filter fun item => item.role = role) = [row]
  observed : row.state.resource?.isSome
  confirmed : ∃ effect ∈ build.effects, effect.key = ⟨.create role, none⟩ ∧
    effect.resolution.confirmed? = true ∧ (Sound build → effect.id = row.effectId)

namespace Dependency

theorem mem (h : Dependency build role row) : row ∈ build.resources := by
  have hmem : row ∈ build.resources.filter fun item => item.role = role := by simp [h.single]
  exact (List.mem_filter.mp hmem).1

theorem role_eq (h : Dependency build role row) : row.role = role := by
  have hmem : row ∈ build.resources.filter fun item => item.role = role := by simp [h.single]
  exact of_decide_eq_true (List.mem_filter.mp hmem).2

end Dependency

theorem mem_of_createEffect {effect : Effect} (h : build.createEffect role = some effect) :
    effect ∈ build.effects ∧ effect.key = ⟨.create role, none⟩ := by
  unfold ImageBuild.createEffect at h
  exact ⟨List.mem_of_find?_eq_some h, of_decide_eq_true (List.find?_some h :)⟩

theorem createEffect_eq_none (h : build.createEffect role = none) : Uncreated build role := by
  intro effect heffect hkey
  unfold ImageBuild.createEffect at h
  exact List.find?_eq_none.mp h effect heffect (decide_eq_true hkey)

theorem onlyResource_eq_some :
    build.onlyResource role = some row ↔
      (build.resources.filter fun item => item.role = role) = [row] ∧
        row.state.resource?.isSome := by
  unfold ImageBuild.onlyResource
  split
  · next first hfirst =>
    rw [hfirst]
    constructor
    · intro h
      split at h
      · next hobserved =>
        obtain rfl := Option.some.inj h
        exact ⟨rfl, hobserved⟩
      · cases h
    · rintro ⟨hrow, hobserved⟩
      obtain rfl := List.singleton_inj.mp hrow
      rw [if_pos hobserved]
  · next hother =>
    constructor
    · intro h
      cases h
    · rintro ⟨hrow, -⟩
      exact absurd hrow (hother row)

/-- What was created under a role is owned by the role's one create. -/
theorem owner_of_role (hs : Sound build) {effect : Effect} (mem : effect ∈ build.effects)
    (key : effect.key = ⟨.create role, none⟩) (hrow : row ∈ build.resources)
    (hrole : row.role = role) : effect.id = row.effectId := by
  obtain ⟨owner, howner, hid, hlabels⟩ := hs.resources.owner row hrow
  obtain ⟨labels, hlabels, hlabelled⟩ := Option.map_eq_some_iff.mp hlabels
  have hbase := hs.effects.base effect mem
  rw [key] at hbase
  obtain ⟨labels', hlabels', hlabelled'⟩ := labels?_of_imageEffectKey hbase.symm
  rw [hs.effects.create_unique mem howner hlabels' hlabels
    (hlabelled'.trans (hlabelled.trans hrole).symm)]
  exact hid

/-- A link that is settled has left its resource. -/
theorem created_ok (h : created build role command = .ok row) : Dependency build role row := by
  simp only [created, bind_ok_iff, present_ok_iff, refuse_ok_iff, pure_ok_iff,
    Bool.not_eq_false] at h
  obtain ⟨effect, heffect, resource, hresource, _, hconfirmed, rfl⟩ := h
  obtain ⟨hsingle, hobserved⟩ := onlyResource_eq_some.mp hresource
  obtain ⟨hmem, hkey⟩ := mem_of_createEffect heffect
  refine ⟨hsingle, hobserved, effect, hmem, hkey, hconfirmed, fun hs => ?_⟩
  have hrow : resource ∈ build.resources.filter fun item => item.role = role := by simp [hsingle]
  exact owner_of_role hs hmem hkey (List.mem_filter.mp hrow).1
    (of_decide_eq_true (List.mem_filter.mp hrow).2)

/-- A link that is not settled plans its own create, for a role that has none, or gives up. -/
theorem created_error (h : created build role command = .error plan) :
    (plan = .effect command ∧ Uncreated build role) ∨ plan = .cleanup .failed := by
  simp only [created, bind_error_iff, present_error_iff, refuse_error_iff, pure_error_iff] at h
  rcases h with ⟨hnone, rfl⟩ | ⟨_, -, ⟨-, rfl⟩ | ⟨_, -, ⟨-, rfl⟩ | ⟨_, -, hfalse⟩⟩⟩
  · exact .inl ⟨rfl, createEffect_eq_none hnone⟩
  · exact .inr rfl
  · exact .inr rfl
  · exact hfalse.elim

/-! ## What the chain settles -/

/-- The work of the builder is on this server, and the server is sanitized. -/
structure Sanitized (build : ImageBuild) (serverId : String) (work : BuilderWork)
    (sanitation : Sanitation) : Prop where
  recorded : build.builderWork = some work
  server : work.serverId = serverId
  sanitation : work.progress.sanitation? = some sanitation

/-- A stop of the server is confirmed. -/
def Stopped (build : ImageBuild) (serverId : String) : Prop :=
  ∃ effect ∈ build.effects, effect.command.stops? = some serverId ∧
    effect.resolution.confirmed? = true

/-- What the create of a server attaches. -/
structure Attached (build : ImageBuild) (ipRole : ImageResourceRole) (ip key firewall : Resource) :
    Prop where
  ip : Dependency build ipRole ip
  key : Dependency build .accessKey key
  firewall : Dependency build .accessFirewall firewall

/-- The fresh commands, each with what is settled before it. -/
inductive Planned (build : ImageBuild) (now : Instant) : ImageProviderCommand → Prop where
  | accessKey (fresh : Uncreated build .accessKey) :
      Planned build now (.createSshKey (build.nameOf .accessKey) (build.labelsOf .accessKey)
        build.admission.access.publicKey)
  | accessFirewall (fresh : Uncreated build .accessFirewall) :
      Planned build now (.createFirewall (build.nameOf .accessFirewall)
        (build.labelsOf .accessFirewall) build.admission.access.managementAddress)
  | builderIp (fresh : Uncreated build .builderIp) :
      Planned build now (.createPrimaryIp (build.nameOf .builderIp) (build.labelsOf .builderIp)
        build.admission.offer.region.text)
  | builder {ip key firewall : Resource} (attached : Attached build .builderIp ip key firewall)
      (fresh : Uncreated build .builder) :
      Planned build now (.createServer (build.nameOf .builder) (build.labelsOf .builder)
        ⟨build.admission.offer.serverType, build.admission.offer.region.text,
          build.admission.baseImageId, ip.ref.id, key.ref.id, firewall.ref.id,
          .imageBuildSecret build.admission.access.secretId build.admission.source.manifestDigest⟩)
  | powerOff {builder : Resource} {work : BuilderWork} {sanitation : Sanitation}
      (owned : Dependency build .builder builder)
      (sanitized : Sanitized build builder.ref.id work sanitation)
      (unstopped : ¬ Stopped build builder.ref.id) :
      Planned build now (.powerOff builder.ref.id sanitation)
  | snapshot {builder : Resource} {work : BuilderWork} {sanitation : Sanitation}
      (owned : Dependency build .builder builder)
      (sanitized : Sanitized build builder.ref.id work sanitation)
      (stopped : Stopped build builder.ref.id) (fresh : Uncreated build .snapshot) :
      Planned build now (.createSnapshot (build.nameOf .snapshot) (build.labelsOf .snapshot)
        builder.ref.id)
  | verifierIp {snapshot : Resource} (source : Dependency build .snapshot snapshot)
      (fresh : Uncreated build .verifierIp) :
      Planned build now (.createPrimaryIp (build.nameOf .verifierIp) (build.labelsOf .verifierIp)
        build.admission.offer.region.text)
  | verifier {builder snapshot ip key firewall : Resource} {work : BuilderWork}
      {sanitation : Sanitation} {spec : VerifierBootstrap}
      (owned : Dependency build .builder builder)
      (sanitized : Sanitized build builder.ref.id work sanitation)
      (source : Dependency build .snapshot snapshot)
      (attached : Attached build .verifierIp ip key firewall)
      (bootstrap : build.bootstrap = some spec)
      (active : build.identity = none → now < spec.expiresAt) (fresh : Uncreated build .verifier) :
      Planned build now (.createServer (build.nameOf .verifier) (build.labelsOf .verifier)
        ⟨build.admission.offer.serverType, build.admission.offer.region.text, snapshot.ref.id,
          ip.ref.id, key.ref.id, firewall.ref.id,
          .imageVerifierSecret build.admission.id build.admission.source.manifestDigest⟩)

/-- What the chain has settled before it ends in a plan. -/
def Plan.Justified (build : ImageBuild) (now : Instant) : Plan → Prop
  | .effect command => Planned build now command
  | .verifierPrepare => ∃ snapshot, Dependency build .snapshot snapshot
  | .verifierCheck => ∃ snapshot, Dependency build .snapshot snapshot
  | _ => True

theorem created_justified (h : created build role command = .error plan)
    (planned : Uncreated build role → Planned build now command) : plan.Justified build now := by
  rcases created_error h with ⟨rfl, hfresh⟩ | rfl
  · exact planned hfresh
  · trivial

theorem planAccess_ok {key firewall : Resource} (h : planAccess build = .ok (key, firewall)) :
    Dependency build .accessKey key ∧ Dependency build .accessFirewall firewall := by
  simp only [planAccess, bind_ok_iff, pure_ok_iff] at h
  obtain ⟨_, hkey, _, hfirewall, hpair⟩ := h
  obtain ⟨rfl, rfl⟩ := Prod.mk.inj hpair
  exact ⟨created_ok hkey, created_ok hfirewall⟩

theorem planAccess_error (h : planAccess build = .error plan) : plan.Justified build now := by
  simp only [planAccess, bind_error_iff, pure_error_iff] at h
  rcases h with hkey | ⟨_, -, hfirewall | ⟨_, -, hfalse⟩⟩
  · exact created_justified hkey .accessKey
  · exact created_justified hfirewall .accessFirewall
  · exact hfalse.elim

section Servers

variable {ipRole : ImageResourceRole} {key firewall : Resource} {imageId : String}
  {bootData : BootData}

theorem planServer_ok (h : planServer build ipRole role key firewall imageId bootData = .ok row) :
    Dependency build role row := by
  simp only [planServer, bind_ok_iff] at h
  obtain ⟨_, -, hserver⟩ := h
  exact created_ok hserver

theorem planServer_error
    (h : planServer build ipRole role key firewall imageId bootData = .error plan)
    (address : Uncreated build ipRole → Planned build now (.createPrimaryIp (build.nameOf ipRole)
      (build.labelsOf ipRole) build.admission.offer.region.text))
    (server : ∀ ip, Dependency build ipRole ip → Uncreated build role →
      Planned build now (.createServer (build.nameOf role) (build.labelsOf role)
        ⟨build.admission.offer.serverType, build.admission.offer.region.text, imageId, ip.ref.id,
          key.ref.id, firewall.ref.id, bootData⟩)) : plan.Justified build now := by
  simp only [planServer, bind_error_iff] at h
  rcases h with hip | ⟨ip, hip, hserver⟩
  · exact created_justified hip address
  · exact created_justified hserver (server ip (created_ok hip))

end Servers

/-- Past the stop: the sanitized builder. -/
theorem planSnapshot_ok {builder snapshot : Resource}
    (h : planSnapshot build builder = .ok snapshot) : Dependency build .snapshot snapshot ∧
      ∃ work sanitation, Sanitized build builder.ref.id work sanitation := by
  simp only [planSnapshot, bind_ok_iff, present_ok_iff, refuse_ok_iff, not_or, not_not, ne_eq] at h
  obtain ⟨work, hwork, sanitation, hsanitation, _, ⟨hserver, -⟩, _, -, hsnapshot⟩ := h
  exact ⟨created_ok hsnapshot, work, sanitation, hwork, hserver, hsanitation⟩

theorem planSnapshot_error {builder : Resource} (owned : Dependency build .builder builder)
    (h : planSnapshot build builder = .error plan) : plan.Justified build now := by
  simp only [planSnapshot, bind_error_iff, present_error_iff, refuse_error_iff, present_ok_iff,
    refuse_ok_iff, not_or, not_not, ne_eq] at h
  rcases h with ⟨-, rfl⟩ | ⟨work, hwork, ⟨-, rfl⟩ | ⟨sanitation, hsanitation, ⟨-, rfl⟩ |
    ⟨_, ⟨hserver, -⟩, ⟨hunstopped, rfl⟩ | ⟨_, hstopped, hsnapshot⟩⟩⟩⟩
  · trivial
  · trivial
  · trivial
  · refine .powerOff owned ⟨hwork, hserver, hsanitation⟩ ?_
    rintro ⟨effect, heffect, hstops, hconfirmed⟩
    refine List.any_eq_false.mp hunstopped effect heffect ?_
    rw [hconfirmed, decide_eq_true hstops]
    rfl
  · rw [Bool.not_eq_false, List.any_eq_true] at hstopped
    obtain ⟨effect, heffect, hstops⟩ := hstopped
    rw [Bool.and_eq_true, decide_eq_true_eq] at hstops
    exact created_justified hsnapshot
      (.snapshot owned ⟨hwork, hserver, hsanitation⟩ ⟨effect, heffect, hstops⟩)

theorem planVerification_ok (h : planVerification build now publicationEnabled = .ok ()) :
    ∃ spec, build.bootstrap = some spec ∧ (build.identity = none → now < spec.expiresAt) := by
  unfold planVerification readImageVerification at h
  cases hbootstrap : build.bootstrap with
  | none => rw [hbootstrap] at h; cases h
  | some spec =>
    refine ⟨spec, rfl, fun hidentity => ?_⟩
    rw [hbootstrap, hidentity] at h
    exact Nat.not_le.mp (refuse_ok_iff.mp h)

theorem planVerification_error {snapshot : Resource} (source : Dependency build .snapshot snapshot)
    (h : planVerification build now publicationEnabled = .error plan) :
    plan.Justified build now := by
  unfold planVerification at h
  split at h
  · obtain rfl := Except.error.inj h
    split
    · trivial
    · split <;> trivial
  · obtain rfl := Except.error.inj h
    exact ⟨snapshot, source⟩
  · obtain ⟨-, rfl⟩ := refuse_error_iff.mp h
    trivial
  · obtain ⟨-, rfl⟩ := refuse_error_iff.mp h
    trivial
  · cases h

/-- **The chain.**  Whatever it plans is justified by what it has settled. -/
theorem planRunning_justified :
    (planOf (planRunning build now verificationEnabled publicationEnabled)).Justified build now := by
  cases hplan : planRunning build now verificationEnabled publicationEnabled with
  | ok plan =>
    simp only [planRunning, bind_ok_iff, pure_ok_iff] at hplan
    obtain ⟨_, -, builder, -, snapshot, hsnapshot, _, -, _, -, _, -, rfl⟩ := hplan
    exact ⟨snapshot, (planSnapshot_ok hsnapshot).1⟩
  | error plan =>
    simp only [planRunning, bind_error_iff, refuse_error_iff, pure_error_iff] at hplan
    rcases hplan with haccess | ⟨⟨key, firewall⟩, haccess, hplan⟩
    · exact planAccess_error haccess
    obtain ⟨hkey, hfirewall⟩ := planAccess_ok haccess
    rcases hplan with hbuilder | ⟨builder, hbuilder, hplan⟩
    · exact planServer_error hbuilder .builderIp fun ip hip => .builder ⟨hip, hkey, hfirewall⟩
    have howned := planServer_ok hbuilder
    rcases hplan with hsnapshot | ⟨snapshot, hsnapshot, hplan⟩
    · exact planSnapshot_error howned hsnapshot
    obtain ⟨hsource, work, sanitation, hsanitized⟩ := planSnapshot_ok hsnapshot
    rcases hplan with ⟨-, rfl⟩ | ⟨_, -, hverification | ⟨_, hverification, hplan⟩⟩
    · trivial
    · exact planVerification_error hsource hverification
    obtain ⟨spec, hspec, hactive⟩ := planVerification_ok hverification
    rcases hplan with hverifier | ⟨_, -, hfalse⟩
    · exact planServer_error hverifier (.verifierIp hsource) fun ip hip =>
        .verifier howned hsanitized hsource ⟨hip, hkey, hfirewall⟩ hspec hactive
    · exact hfalse.elim

/-! ## Every record -/

/-- The resources that a command refers to, each under its role. -/
def ImageProviderCommand.references : ImageProviderCommand → List (ImageResourceRole × String)
  | createServer _ labels intent =>
    (if labels.role = .verifier then
      [(.snapshot, intent.imageId), (.verifierIp, intent.primaryIpId)]
    else [(.builderIp, intent.primaryIpId)]) ++
      [(.accessKey, intent.sshKeyId), (.accessFirewall, intent.firewallId)]
  | powerOff serverId _ => [(.builder, serverId)]
  | createSnapshot _ _ serverId => [(.builder, serverId)]
  | _ => []

/-- Work on the verifier. -/
def Plan.verifies : Plan → Bool
  | verifierPrepare => true
  | verifierCheck => true
  | effect command => command.labels?.any fun labels =>
      labels.role = .verifierIp || labels.role = .verifier
  | _ => false

structure PlanSafe (build : ImageBuild) (now : Instant) (plan : Plan) : Prop where
  /-- While an effect is pending, no command but a pending one. -/
  pending : build.effects.any Effect.pending = true → ∀ command, plan = .effect command →
    ∃ effect ∈ build.effects, effect.resolution = .pending ∧ effect.command = command
  /-- No create for a role that has one. -/
  fresh : build.effects.any Effect.pending = false → ∀ command labels, plan = .effect command →
    command.labels? = some labels → Uncreated build labels.role
  /-- Nothing is referred to that is not there, and nothing is deleted. -/
  owned : build.effects.any Effect.pending = false → ∀ command, plan = .effect command →
    command.isDelete = false ∧ ∀ reference ∈ command.references,
      ∃ row, Dependency build reference.1 row ∧ row.ref.id = reference.2
  /-- No snapshot before the confirmed stop of the sanitized builder. -/
  snapshot : build.effects.any Effect.pending = false → ∀ name labels serverId,
    plan = .effect (.createSnapshot name labels serverId) →
      Stopped build serverId ∧ ∃ work sanitation, Sanitized build serverId work sanitation
  /-- No work on the verifier before the confirmed snapshot. -/
  verifier : build.effects.any Effect.pending = false → plan.verifies = true →
    ∃ snapshot, Dependency build .snapshot snapshot
  /-- From the deadline on, nothing but cleanup. -/
  expired : build.state = .running ∨ build.state = .releasing →
    build.admission.deadlineAt ≤ now → plan = .cleanup .expired

theorem Planned.uncreated {labels : ImageBuildLabels} (h : Planned build now command)
    (hlabels : command.labels? = some labels) : Uncreated build labels.role := by
  cases h with
  | powerOff => cases hlabels
  | accessKey fresh | accessFirewall fresh | builderIp fresh | builder _ fresh
  | snapshot _ _ _ fresh | verifierIp _ fresh | verifier _ _ _ _ _ _ fresh =>
    obtain rfl := Option.some.inj hlabels
    exact fresh

theorem Planned.owned (h : Planned build now command) :
    command.isDelete = false ∧ ∀ reference ∈ command.references,
      ∃ row, Dependency build reference.1 row ∧ row.ref.id = reference.2 := by
  cases h with
  | accessKey => exact ⟨rfl, by simp [ImageProviderCommand.references]⟩
  | accessFirewall => exact ⟨rfl, by simp [ImageProviderCommand.references]⟩
  | builderIp => exact ⟨rfl, by simp [ImageProviderCommand.references]⟩
  | verifierIp => exact ⟨rfl, by simp [ImageProviderCommand.references]⟩
  | @powerOff builder _ _ owned =>
    refine ⟨rfl, fun reference hreference => ?_⟩
    obtain rfl := List.mem_singleton.mp hreference
    exact ⟨builder, owned, rfl⟩
  | @snapshot builder _ _ owned =>
    refine ⟨rfl, fun reference hreference => ?_⟩
    obtain rfl := List.mem_singleton.mp hreference
    exact ⟨builder, owned, rfl⟩
  | @builder ip key firewall attached =>
    refine ⟨rfl, fun reference hreference => ?_⟩
    simp only [ImageProviderCommand.references, ImageBuild.labelsOf, reduceCtorEq, if_false,
      List.cons_append, List.nil_append, List.mem_cons, List.not_mem_nil, or_false] at hreference
    rcases hreference with rfl | rfl | rfl
    · exact ⟨ip, attached.ip, rfl⟩
    · exact ⟨key, attached.key, rfl⟩
    · exact ⟨firewall, attached.firewall, rfl⟩
  | @verifier _ snapshot ip key firewall _ _ _ _ _ source attached =>
    refine ⟨rfl, fun reference hreference => ?_⟩
    simp only [ImageProviderCommand.references, ImageBuild.labelsOf, if_true, List.cons_append,
      List.nil_append, List.mem_cons, List.not_mem_nil, or_false] at hreference
    rcases hreference with rfl | rfl | rfl | rfl
    · exact ⟨snapshot, source, rfl⟩
    · exact ⟨ip, attached.ip, rfl⟩
    · exact ⟨key, attached.key, rfl⟩
    · exact ⟨firewall, attached.firewall, rfl⟩

theorem Planned.verifies (h : Planned build now command)
    (hverifies : (Plan.effect command).verifies = true) :
    ∃ snapshot, Dependency build .snapshot snapshot := by
  cases h with
  | verifierIp source => exact ⟨_, source⟩
  | verifier _ _ source => exact ⟨_, source⟩
  | _ => simp [Plan.verifies, ImageProviderCommand.labels?, ImageBuild.labelsOf] at hverifies

/-- Only a running build before its deadline has a command to run. -/
theorem running_of_effect
    (h : planImageRelease build now verificationEnabled publicationEnabled = .effect command) :
    build.state = .running ∧ build.expired now = false := by
  unfold planImageRelease at h
  split at h
  · cases h
  · cases h
  · split at h <;> cases h
  · split at h <;> cases h
  · next hrunning =>
    split at h
    · cases h
    · next hactive => exact ⟨hrunning, by simpa using hactive⟩

theorem plan_justified (idle : build.effects.any Effect.pending = false) :
    (planImageRelease build now verificationEnabled publicationEnabled).Justified build now := by
  have hnone : build.effects.find? Effect.pending = none := by
    rw [List.find?_eq_none]
    exact List.any_eq_false.mp idle
  unfold planImageRelease
  split
  · trivial
  · trivial
  · split <;> trivial
  · split <;> trivial
  · split
    · trivial
    · rw [hnone]
      exact planRunning_justified

theorem planned_of_effect (idle : build.effects.any Effect.pending = false)
    (h : planImageRelease build now verificationEnabled publicationEnabled = .effect command) :
    Planned build now command := by
  have hjustified : (planImageRelease build now verificationEnabled publicationEnabled).Justified
    build now := plan_justified idle
  rw [h] at hjustified
  exact hjustified

/-- **The planner is safe**, whatever the record and the clock. -/
theorem planImageRelease_safe : PlanSafe build now
    (planImageRelease build now verificationEnabled publicationEnabled) where
  pending hpending command hplan := by
    obtain ⟨effect, heffect, hisPending⟩ := List.any_eq_true.mp hpending
    have hfound : ∃ e, build.effects.find? Effect.pending = some e := by
      rw [← Option.isSome_iff_exists, List.find?_isSome]
      exact ⟨effect, heffect, hisPending⟩
    obtain ⟨e, he⟩ := hfound
    unfold planImageRelease at hplan
    rw [he] at hplan
    split at hplan
    · cases hplan
    · cases hplan
    · split at hplan <;> cases hplan
    · split at hplan <;> cases hplan
    · split at hplan
      · cases hplan
      · obtain rfl := Plan.effect.inj hplan
        exact ⟨e, List.mem_of_find?_eq_some he, Effect.pending_eq_true.mp (List.find?_some he :), rfl⟩
  fresh idle _ _ hplan hlabels := (planned_of_effect idle hplan).uncreated hlabels
  owned idle _ hplan := (planned_of_effect idle hplan).owned
  snapshot idle name labels serverId hplan := by
    cases planned_of_effect idle hplan with
    | snapshot owned sanitized stopped => exact ⟨stopped, _, _, sanitized⟩
  verifier idle hverifies := by
    have hjustified : (planImageRelease build now verificationEnabled publicationEnabled).Justified
      build now := plan_justified idle
    generalize planImageRelease build now verificationEnabled publicationEnabled = plan at *
    cases plan with
    | verifierPrepare => exact hjustified
    | verifierCheck => exact hjustified
    | effect command => exact Planned.verifies hjustified hverifies
    | _ => cases hverifies
  expired hstate hdeadline := by
    have hexpired : build.expired now = true := decide_eq_true hdeadline
    unfold planImageRelease
    rcases hstate with hstate | hstate <;> simp [hstate, hexpired]

end AgentCloud.Images
