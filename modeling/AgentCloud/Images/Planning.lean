/-
  WHAT THE PLANNER PLANS, THE EXECUTOR ADMITS: every fresh command that the release planner reads off
  a reachable record passes the checks of the journal, of the policy and of the trigger that depend
  on the record alone.

  The planner does not repeat those checks, so the record has to.  `Evidenced` is what every run
  keeps: a sanitation receipt is the admitted one, a shutdown carries the receipt of the work, only a
  build that no longer runs has deletions, a prepared verifier still has its available snapshot, and
  one that was claimed has a server.

  What depends on the provider as well is put as a run: where some replies take the policy's program
  to its end (`MayReturn`), nothing in the record stands against it.
-/
import AgentCloud.Images.Plan
import AgentCloud.Images.Releases
import AgentCloud.Lib.Runs

namespace AgentCloud.Images

open Checked Durable
open Lifecycle (matchesLabels)

/-! ## What a record proves -/

/-- The snapshot that a verifier is prepared for: confirmed, available, of the sanitized builder. -/
structure Source (b : ImageBuild) (snapshotId : String) : Prop where
  row : ∃ row ∈ b.resources, row.ref = ⟨.snapshot, snapshotId⟩ ∧ row.role = .snapshot ∧
    b.confirmed row.effectId = true ∧ ∃ seen snapshot work sanitation,
      row.state.resource? = some seen ∧ seen.snapshot? = some snapshot ∧
      snapshot.status = .available ∧ Sanitized b work.serverId work sanitation ∧
      snapshot.sourceServerId = some work.serverId

structure Evidenced (b : ImageBuild) : Prop where
  /-- A sanitation receipt is the admitted one. -/
  sanitation : ∀ work s, b.builderWork = some work → work.progress.sanitation? = some s →
    s = ⟨b.id, b.admission.source.manifestDigest⟩
  /-- A shutdown carries the receipt of the work. -/
  stops : ∀ e ∈ b.effects, ∀ serverId s, e.command = .powerOff serverId s →
    ∃ work, Sanitized b serverId work s
  /-- Only a build that no longer runs has deletions. -/
  deletes : ∀ e ∈ b.effects, e.command.isDelete = true → b.state ≠ .running
  /-- A verifier that was not yet verified still has its snapshot. -/
  source : ∀ spec, b.bootstrap = some spec → b.state = .running → b.result = none →
    Source b spec.snapshotId
  /-- A verifier that was claimed has a server. -/
  claimed : ∀ identity, b.identity = some identity → ∃ e ∈ b.effects, ∃ labels,
    e.command.labels? = some labels ∧ labels.role = .verifier
  verified : b.result.isSome = true → b.identity.isSome = true

theorem Evidenced.admitted (admission : ImageBuildAdmission) : Evidenced (.admitted admission) := by
  constructor <;> simp [ImageBuild.admitted]

variable {store : Store} {log : Log} {b b' : ImageBuild} {now : Instant}

/-! ## The work of the builder -/

/-- A phase that carries a receipt carries the admitted one. -/
theorem updateBuilderWork_sanitation {progress : ImageBuilderProgress} {work : BuilderWork}
    {s : Sanitation} (h : updateBuilderWork now b progress = .ok b')
    (hold : ∀ work s, b.builderWork = some work → work.progress.sanitation? = some s →
      s = ⟨b.id, b.admission.source.manifestDigest⟩)
    (hwork : b'.builderWork = some work) (hs : work.progress.sanitation? = some s) :
    s = ⟨b.id, b.admission.source.manifestDigest⟩ := by
  unfold updateBuilderWork at h
  split at h
  · obtain rfl := pure_ok_iff.mp h
    exact hold work s hwork hs
  · next old hrecorded =>
    simp only [bind_ok_iff, refuse_ok_iff] at h
    obtain ⟨_, -, h⟩ := h
    split at h
    · obtain rfl := pure_ok_iff.mp h
      exact hold work s hwork hs
    · simp only [bind_ok_iff, refuse_ok_iff, pure_ok_iff, not_or, Bool.not_eq_false] at h
      obtain ⟨_, -, _, -, _, ⟨-, hadmitted⟩, rfl⟩ := h
      obtain rfl := Option.some.inj hwork
      rw [show progress.sanitation? = some s from hs] at hadmitted
      exact of_decide_eq_true hadmitted

/-- What one change does to the work of the builder. -/
inductive WorkChange (now : Instant) (b : ImageBuild) : Option BuilderWork → Prop where
  | kept : WorkChange now b b.builderWork
  | started (effectId : EffectId) (serverId : String) (fresh : b.builderWork = none) :
      WorkChange now b (some ⟨effectId, serverId, .installing⟩)
  | progressed (work : BuilderWork) (next : ImageBuilderProgress) (here : b.builderWork = some work)
      (may : work.progress.mayBecome next = true)
      (admitted : ∀ s, next.sanitation? = some s → s = ⟨b.id, b.admission.source.manifestDigest⟩) :
      WorkChange now b (some { work with progress := next })

theorem Change.builderWork (h : Evidenced b) (change : Change store log b b') :
    WorkChange store.clock b b'.builderWork := by
  have hkept : b'.builderWork = b.builderWork → WorkChange store.clock b b'.builderWork := by
    intro heq
    rw [heq]
    exact .kept
  cases change with
  | prepare new superseded => cases superseded <;> exact .kept
  | receipt => exact .kept
  | settle => exact .kept
  | claim => exact .kept
  | observe => exact .kept
  | work effectId serverId written =>
    obtain ⟨hnone, rfl⟩ := insertBuilderWork_ok written
    exact .started effectId serverId hnone
  | progress next written =>
    rcases updateBuilderWork_ok written with heq | ⟨work, hwork, hmay, heq⟩
    · exact hkept (by rw [heq])
    · have hadmitted : ∀ s, next.sanitation? = some s →
          s = ⟨b.id, b.admission.source.manifestDigest⟩ := fun s hs =>
        updateBuilderWork_sanitation written h.sanitation (by rw [heq]) hs
      rw [heq]
      exact .progressed work next hwork hmay hadmitted
  | verification date write written => exact hkept (VerificationWrite.apply_ok written).builderWork
  | evidence evidence written releasing =>
    have hreleasing := (updateImageBuild_builderWork ⟨rfl, rfl⟩ releasing).1
    rw [(insertPublication_ok written).2.2.2.2.2.2] at hreleasing
    exact hkept hreleasing
  | release release written retained =>
    have hretained := (updateImageBuild_builderWork ⟨rfl, rfl⟩ retained).1
    rcases updatePublication_ok written with ⟨-, heq⟩ | ⟨publication, -, -, -, -, heq⟩ <;>
      exact hkept (by rw [hretained, heq])
  | cleaned date written => exact hkept (updateImageBuild_builderWork ⟨rfl, rfl⟩ written).1
  | cleaning reason written =>
    refine hkept (updateImageBuild_builderWork ?_ written).1
    unfold ImageBuild.requested
    split <;> exact ⟨rfl, rfl⟩
  | runRequested written => exact hkept (updateImageBuild_builderWork ⟨rfl, rfl⟩ written).1
  | accessRemoved gone written => exact hkept (updateImageBuild_builderWork ⟨rfl, rfl⟩ written).1

/-- A sanitized builder stays as it is. -/
theorem Change.sanitized (h : Evidenced b) (change : Change store log b b') {serverId : String}
    {work : BuilderWork} {s : Sanitation} (hs : Sanitized b serverId work s) :
    Sanitized b' serverId work s := by
  have hchange := change.builderWork h
  refine ⟨?_, hs.server, hs.sanitation⟩
  generalize b'.builderWork = changed at hchange
  cases hchange with
  | kept => exact hs.recorded
  | started effectId server fresh =>
    rw [hs.recorded] at fresh
    cases fresh
  | progressed old next here may =>
    rw [hs.recorded] at here
    obtain rfl := Option.some.inj here
    rw [mayBecome_sanitized (by rw [hs.sanitation]; rfl)] at may
    cases may

theorem WorkChange.admitted (h : Evidenced b) (hadmission : b'.admission = b.admission)
    (change : WorkChange now b b'.builderWork) (work : BuilderWork) (s : Sanitation)
    (hwork : b'.builderWork = some work) (hs : work.progress.sanitation? = some s) :
    s = ⟨b'.id, b'.admission.source.manifestDigest⟩ := by
  rw [ImageBuild.id, hadmission]
  generalize b'.builderWork = changed at change hwork
  cases change with
  | kept => exact h.sanitation work s hwork hs
  | started effectId server fresh =>
    obtain rfl := Option.some.inj hwork
    cases hs
  | progressed old next here may admitted =>
    obtain rfl := Option.some.inj hwork
    exact admitted s hs

/-! ## The journal -/

/-- Every effect has the command of an earlier one, or is a fresh one that the guards let through. -/
theorem EffectsChange.fresh {effects : List Effect}
    (change : EffectsChange store log b effects) (mem : b ∈ store.builds)
    (hs : EffectsSound b.id b.effects) :
    ∀ f ∈ effects, (∃ e ∈ b.effects, f.command = e.command) ∨
      (guardImageSnapshotEvidence b f = .ok () ∧ Inserted store b f) := by
  intro f hf
  cases change with
  | kept => exact .inl ⟨f, hf, rfl⟩
  | prepare new superseded fresh unkeyed created base inserted pins retry create evidence =>
    rw [ImageBuild.prepared_effects (fresh_of_retry fresh mem retry create)] at hf
    rcases List.mem_append.mp hf with hf | hf
    · rcases mem_supersededRows hf with hm | ⟨e, he, -, rfl⟩
      · exact .inl ⟨f, hm, rfl⟩
      · exact .inl ⟨e, he, rfl⟩
    · obtain rfl := List.mem_singleton.mp hf
      exact .inr ⟨evidence, inserted⟩
  | receipt effect memEffect =>
    rcases (hs.keyed.mem_update memEffect).mp hf with rfl | ⟨hm, -⟩
    · exact .inl ⟨effect, memEffect, rfl⟩
    · exact .inl ⟨f, hm, rfl⟩
  | settle effect memEffect =>
    rcases (hs.keyed.mem_update memEffect).mp hf with rfl | ⟨hm, -⟩
    · exact .inl ⟨effect, memEffect, rfl⟩
    · exact .inl ⟨f, hm, rfl⟩

/-- A shutdown that the guard lets through is for the sanitized builder. -/
theorem sanitized_of_evidence {f : Effect} {serverId : String} {s : Sanitation}
    (h : guardImageSnapshotEvidence b f = .ok ()) (hcommand : f.command = .powerOff serverId s) :
    ∃ work, Sanitized b serverId work s := by
  simp only [guardImageSnapshotEvidence, hcommand, bind_ok_iff, present_ok_iff, refuse_ok_iff,
    not_or, not_not, ne_eq] at h
  obtain ⟨work, hwork, hs, hserver⟩ := h
  exact ⟨work, hwork, hserver, hs⟩

/-! ## The verification -/

/-- What one change does to the rows of the verification. -/
inductive VerificationChange (now : Instant) (b : ImageBuild) : Option VerifierBootstrap →
    Option VerifierIdentity → Option VerificationResult → Prop where
  | kept : VerificationChange now b b.bootstrap b.identity b.result
  | prepared (spec : VerifierBootstrap) (fresh : b.bootstrap = none)
      (source : Source b spec.snapshotId) :
      VerificationChange now b (some spec) b.identity b.result
  | identified (identity : VerifierIdentity) (spec spec' : VerifierBootstrap)
      (here : b.bootstrap = some spec) (same : spec'.snapshotId = spec.snapshotId)
      (server : b.verifierServer spec identity = true) :
      VerificationChange now b (some spec') (some identity) b.result
  | verified (result : VerificationResult) (known : b.identity.isSome = true) :
      VerificationChange now b b.bootstrap b.identity (some result)

/-- The bootstrap's guard asks for the snapshot. -/
theorem source_of_insertBootstrap {spec : VerifierBootstrap}
    (h : insertBootstrap now b spec = .ok b') :
    b.bootstrap = none ∧ Source b spec.snapshotId ∧ b' = { b with bootstrap := some spec } := by
  simp only [insertBootstrap, bind_ok_iff, refuse_ok_iff, pure_ok_iff, not_or, Bool.not_eq_true,
    Option.isSome_eq_false_iff, Option.isNone_iff_eq_none, Bool.not_eq_false, List.any_eq_true,
    Bool.and_eq_true, decide_eq_true_eq, Option.any_eq_true] at h
  obtain ⟨_, hnone, _, -, _, ⟨-, -, -, -, row, hrow, ⟨⟨href, hrole⟩, hconfirmed⟩, seen, hseen,
    snapshot, hsnapshot, hstatus, work, hwork, hsanitized, hserver⟩, rfl⟩ := h
  obtain ⟨sanitation, hsanitation⟩ := Option.isSome_iff_exists.mp hsanitized
  exact ⟨hnone, ⟨row, hrow, href, hrole, hconfirmed, seen, snapshot, work, sanitation, hseen,
    hsnapshot, hstatus, ⟨hwork, rfl, hsanitation⟩, hserver⟩, rfl⟩

theorem server_of_writeIdentity {identity : VerifierIdentity}
    (h : writeIdentity now b identity = .ok b') : ∃ spec, b.bootstrap = some spec ∧
      b.verifierServer spec identity = true ∧ b' = { b with identity := some identity } := by
  simp only [writeIdentity, bind_ok_iff, refuse_ok_iff, present_ok_iff, pure_ok_iff, not_or,
    Bool.not_eq_false] at h
  obtain ⟨_, -, spec, hspec, _, ⟨-, -, hserver⟩, _, -, rfl⟩ := h
  exact ⟨spec, hspec, hserver, rfl⟩

theorem VerificationWrite.verification {date : Instant} {write : VerificationWrite}
    (h : write.apply now date b = .ok b') :
    VerificationChange now b b'.bootstrap b'.identity b'.result := by
  cases write with
  | bootstrap spec =>
    obtain ⟨hnone, hsource, rfl⟩ := source_of_insertBootstrap h
    exact .prepared spec hnone hsource
  | claim effectId serverId =>
    obtain ⟨spec, hspec, hserver, rfl⟩ := server_of_writeIdentity h
    have hchange : VerificationChange now b (some spec) _ b.result :=
      .identified _ spec spec hspec rfl hserver
    rw [← hspec] at hchange
    exact hchange
  | issue effectId serverId =>
    simp only [VerificationWrite.apply, bind_ok_iff] at h
    obtain ⟨issued, hissued, hconsumed⟩ := h
    obtain ⟨spec, hspec, hserver, rfl⟩ := server_of_writeIdentity hissued
    simp only [consumeBootstrap, bind_ok_iff, refuse_ok_iff, present_ok_iff, pure_ok_iff]
      at hconsumed
    obtain ⟨_, -, old, hold, _, -, rfl⟩ := hconsumed
    rw [show b.bootstrap = some old from hold] at hspec
    obtain rfl := Option.some.inj hspec
    exact .identified _ old _ hold rfl hserver
  | result result =>
    simp only [VerificationWrite.apply, insertResult, bind_ok_iff, refuse_ok_iff, present_ok_iff,
      pure_ok_iff] at h
    obtain ⟨_, -, _, -, spec, -, identity, hidentity, work, -, _, -, rfl⟩ := h
    exact .verified result (by rw [hidentity]; rfl)

theorem updateImageBuild_verification {f : ImageBuild → ImageBuild}
    (hf : (f b).bootstrap = b.bootstrap ∧ (f b).identity = b.identity ∧ (f b).result = b.result)
    (h : updateImageBuild now b f = .ok b') :
    b'.bootstrap = b.bootstrap ∧ b'.identity = b.identity ∧ b'.result = b.result := by
  rw [(updateImageBuild_ok h).2.2]
  exact hf

theorem Change.verificationRows (change : Change store log b b') :
    VerificationChange store.clock b b'.bootstrap b'.identity b'.result := by
  have hkept : b'.bootstrap = b.bootstrap ∧ b'.identity = b.identity ∧ b'.result = b.result →
      VerificationChange store.clock b b'.bootstrap b'.identity b'.result := by
    rintro ⟨hbootstrap, hidentity, hresult⟩
    rw [hbootstrap, hidentity, hresult]
    exact .kept
  cases change with
  | prepare new superseded => cases superseded <;> exact .kept
  | receipt => exact .kept
  | settle => exact .kept
  | claim => exact .kept
  | observe => exact .kept
  | work effectId serverId written =>
    rw [(insertBuilderWork_ok written).2]
    exact .kept
  | progress next written =>
    rcases updateBuilderWork_ok written with rfl | ⟨work, -, -, rfl⟩ <;> exact .kept
  | verification date write written => exact VerificationWrite.verification written
  | evidence evidence written releasing =>
    have hreleasing := updateImageBuild_verification ⟨rfl, rfl, rfl⟩ releasing
    rw [(insertPublication_ok written).2.2.2.2.2.2] at hreleasing
    exact hkept hreleasing
  | release release written retained =>
    have hretained := updateImageBuild_verification ⟨rfl, rfl, rfl⟩ retained
    rcases updatePublication_ok written with ⟨-, heq⟩ | ⟨publication, -, -, -, -, heq⟩ <;>
      · rw [heq] at hretained
        exact hkept hretained
  | cleaned date written => exact hkept (updateImageBuild_verification ⟨rfl, rfl, rfl⟩ written)
  | cleaning reason written =>
    refine hkept (updateImageBuild_verification ?_ written)
    unfold ImageBuild.requested
    split <;> exact ⟨rfl, rfl, rfl⟩
  | runRequested written => exact hkept (updateImageBuild_verification ⟨rfl, rfl, rfl⟩ written)
  | accessRemoved gone written =>
    exact hkept (updateImageBuild_verification ⟨rfl, rfl, rfl⟩ written)

/-! ## The snapshot -/

theorem role_of_snapshot {role : ImageResourceRole} (h : imageRoleKind role = .snapshot) :
    role = .snapshot := by
  cases role with
  | snapshot => rfl
  | _ => cases h

/-- While the build runs unverified, nobody looks at the confirmed snapshot again. -/
theorem unwatched {row : Resource} (hs : Sound b) (h : Evidenced b) (mem : row ∈ b.resources)
    (kind : row.ref.kind = .snapshot) (confirmed : b.confirmed row.effectId = true)
    (running : b.state = .running) (unverified : b.result = none) : ¬ b.Watched := by
  intro hwatched
  obtain ⟨e, he, hpending, hsnapshot | hdelete⟩ := hwatched running unverified
  · -- the one create of the snapshot is confirmed
    obtain ⟨owner, howner, hid, hrole⟩ := hs.resources.owner row mem
    obtain ⟨labels, hlabels, hlabelled⟩ := Option.map_eq_some_iff.mp hrole
    obtain ⟨labels', hlabels'⟩ : ∃ labels', e.command.labels? = some labels' := by
      cases hcommand : e.command <;>
        simp_all [ImageProviderCommand.isCreateSnapshot, ImageProviderCommand.labels?]
    have hcreates := (hs.effects.create e he labels' hlabels').2.2
    have hcreates' : e.command.creates? = some .snapshot := by
      cases hcommand : e.command <;>
        simp_all [ImageProviderCommand.isCreateSnapshot, ImageProviderCommand.creates?]
    rw [hcreates', Option.some.injEq] at hcreates
    have hkind := hs.resources.kind row mem
    rw [kind] at hkind
    have hroles : labels'.role = labels.role := by
      rw [role_of_snapshot hcreates.symm, hlabelled, role_of_snapshot hkind]
    obtain rfl := hs.effects.create_unique he howner hlabels' hlabels hroles
    obtain ⟨f, hf, hconfirmed⟩ := List.any_eq_true.mp confirmed
    rw [Bool.and_eq_true, decide_eq_true_eq] at hconfirmed
    obtain rfl := hs.effects.keyed.unique hf he (hconfirmed.1.trans hid.symm)
    rw [hpending] at hconfirmed
    cases hconfirmed.2
  · exact h.deletes e he hdelete running

theorem Source.keep (h : Evidenced b) (hs : Sound b) (mem : b ∈ store.builds)
    (change : Change store log b b') (running : b.state = .running) (unverified : b.result = none)
    {snapshotId : String} (source : Source b snapshotId) : Source b' snapshotId := by
  obtain ⟨row, hrow, href, hrole, hconfirmed, seen, snapshot, work, sanitation, hseen, hsnapshot,
    hstatus, hsanitized, hserver⟩ := source.row
  have hkept : row ∈ b'.resources → Source b' snapshotId := fun hmem =>
    ⟨row, hmem, href, hrole, change.confirmed mem hs hconfirmed, seen, snapshot, work, sanitation,
      hseen, hsnapshot, hstatus, change.sanitized h hsanitized, hserver⟩
  have hchange := change.resources
  refine hkept ?_
  generalize b'.resources = resources at hchange
  cases hchange with
  | kept => exact hrow
  | claim => exact List.mem_append_left _ hrow
  | observe other memOther isOpen state known final watched =>
    refine (hs.resources.keyed.mem_update memOther).mpr (.inr ⟨hrow, fun hsame => ?_⟩)
    have hkind : other.ref.kind = .snapshot := by rw [← hsame, href]
    obtain rfl := hs.resources.keyed.unique hrow memOther hsame
    exact unwatched hs h hrow hkind hconfirmed running unverified (watched hkind)

/-! ## Every change -/

/-- **Step lemma.** -/
theorem Evidenced.change (h : Evidenced b) (hs : Sound b) (mem : b ∈ store.builds)
    (change : Change store log b b') : Evidenced b' := by
  have hfresh := change.effects.fresh mem hs.effects
  have hcreates : ∀ e ∈ b.effects, ∃ f ∈ b'.effects, f.command = e.command := fun e he => by
    obtain ⟨f, hf, hsame⟩ := change.effects.kept_rows mem hs.effects e he
    exact ⟨f, hf, hsame.command⟩
  have hsource : b'.state = .running → ∀ {id}, b.result = none → Source b id → Source b' id :=
    fun hrunning _ hnone => Source.keep h hs mem change (change.running hrunning) hnone
  have hverification := change.verificationRows
  refine {
    sanitation := (change.builderWork h).admitted h change.admission
    stops := fun f hf serverId s hcommand => ?_
    deletes := fun f hf hdelete hrunning => ?_
    source := fun spec hspec hrunning hnone => ?_
    claimed := fun identity hidentity => ?_
    verified := fun hresult => ?_ }
  · rcases hfresh f hf with ⟨e, he, hsame⟩ | ⟨hevidence, -⟩
    · obtain ⟨work, hsanitized⟩ := h.stops e he serverId s (hsame.symm.trans hcommand)
      exact ⟨work, change.sanitized h hsanitized⟩
    · obtain ⟨work, hsanitized⟩ := sanitized_of_evidence hevidence hcommand
      exact ⟨work, change.sanitized h hsanitized⟩
  · have hran := change.running hrunning
    rcases hfresh f hf with ⟨e, he, hsame⟩ | ⟨-, inserted⟩
    · exact h.deletes e he (by rw [← hsame]; exact hdelete) hran
    · cases hcommand : f.command with
      | delete ref =>
        rcases (inserted.delete ref hcommand).1 with hstate | hstate <;> rw [hran] at hstate <;>
          cases hstate
      | _ => rw [hcommand] at hdelete; cases hdelete
  · have hran := change.running hrunning
    generalize b'.bootstrap = bootstrap, b'.identity = identity, b'.result = result
      at hverification hspec hnone
    cases hverification with
    | kept => exact hsource hrunning hnone (h.source spec hspec hran hnone)
    | prepared spec' fresh source =>
      obtain rfl := Option.some.inj hspec
      exact hsource hrunning hnone source
    | identified identity old new here same server =>
      obtain rfl := Option.some.inj hspec
      rw [same]
      exact hsource hrunning hnone (h.source old here hran hnone)
    | verified result known => cases hnone
  · have hold : ∀ old, b.identity = some old → ∃ e ∈ b'.effects, ∃ labels,
        e.command.labels? = some labels ∧ labels.role = .verifier := fun old hidentity => by
      obtain ⟨e, he, labels, hlabels, hrole⟩ := h.claimed old hidentity
      obtain ⟨f, hf, hsame⟩ := hcreates e he
      exact ⟨f, hf, labels, by rw [hsame]; exact hlabels, hrole⟩
    generalize b'.bootstrap = bootstrap, b'.identity = claimed, b'.result = result
      at hverification hidentity
    cases hverification with
    | kept => exact hold identity hidentity
    | prepared => exact hold identity hidentity
    | verified => exact hold identity hidentity
    | identified new spec spec' here same server =>
      rw [ImageBuild.verifierServer, Bool.and_eq_true, Option.any_eq_true] at server
      obtain ⟨⟨e, he, hserver⟩, -⟩ := server
      rw [Bool.and_eq_true] at hserver
      obtain ⟨f, hf, hsame⟩ := hcreates e (Table.get_mem he)
      cases hcommand : e.command with
      | createServer name labels intent =>
        simp only [hcommand, decide_eq_true_eq] at hserver
        exact ⟨f, hf, labels, by rw [hsame, hcommand]; rfl, hserver.2.1⟩
      | _ => simp [hcommand] at hserver
  · generalize b'.bootstrap = bootstrap, b'.identity = claimed, b'.result = result
      at hverification hresult
    cases hverification with
    | kept => exact h.verified hresult
    | prepared => exact h.verified hresult
    | identified => rfl
    | verified result known => exact known

theorem evidenced {c : Plane} {clock : Instant} (h : system.Reach (.idle (empty clock)) c) :
    ∀ b ∈ c.world.store.builds, Evidenced b :=
  build_invariant (P := fun _ b => Evidenced b) (fun _ admission => .admitted admission)
    (fun hb _ => hb) (fun mem hs hb change => hb.change hs mem change) h

/-! ## What the policy asks of the record -/

variable {role : ImageResourceRole} {row : Resource} {command : ImageProviderCommand}

theorem matchesLabels_self (id : ImageBuildId) (role : ImageResourceRole) (effectId : EffectId) :
    matchesLabels (imageEffectLabels id role effectId) (imageEffectLabels id role effectId) =
      true := by
  simp [matchesLabels, imageEffectLabels, ImageBuildLabels.entries, List.lookup_cons]

/-- The provider may show anything. -/
theorem mayReturn_get (ref : ImageResourceRef) (seen : Option ImageProviderResource) :
    (get ref).MayReturn seen := by
  have hreply : (Prog.ask (S := interface) (.get ref)).MayReturn (.ok seen) := .ask _
  exact hreply.bind (.ofExcept rfl)

/-- The pinned base image may be there. -/
theorem mayReturn_readBaseImage : (readBaseImage b command).MayReturn () := by
  unfold readBaseImage
  split
  · have hreply : (Prog.ask (S := interface) (.getBaseImage b.admission.baseImageId)).MayReturn
        (.ok (some ⟨b.admission.baseImageId, "system", "available", b.admission.offer.architecture,
          "ubuntu", some "24.04", 0, false, false⟩)) := .ask _
    refine hreply.bind (Prog.MayReturn.bind (.ofExcept rfl) (.ofExcept ?_))
    simp [checkBaseImage]
  · exact .pure

namespace Dependency

theorem kind (h : Dependency b role row) (hs : Sound b) : row.ref.kind = imageRoleKind role := by
  rw [← hs.resources.kind row h.mem, h.role_eq]

theorem confirmed_owner (h : Dependency b role row) (hs : Sound b) :
    b.confirmed row.effectId = true := by
  obtain ⟨effect, heffect, -, hconfirmed, howner⟩ := h.confirmed
  refine List.any_eq_true.mpr ⟨effect, heffect, ?_⟩
  rw [hconfirmed, decide_eq_true (howner hs)]
  rfl

theorem live (h : Dependency b role row) : row.live = true := by
  have hobserved := h.observed
  cases hstate : row.state with
  | observed => simp [Resource.live, hstate, ImageResourceState.absent?]
  | unverified => rw [hstate] at hobserved; cases hobserved
  | absent => rw [hstate] at hobserved; cases hobserved

/-- The provider may still have the dependency, as any resource with its name and labels. -/
theorem owned (h : Dependency b role row) (hs : Sound b) {seen : ImageProviderResource}
    (ref : seen.ref = row.ref)
    (labels : seen.labels = imageEffectLabels b.id role row.effectId) :
    (Images.owned b role row.ref.id).MayReturn seen := by
  have href : (⟨imageRoleKind role, row.ref.id⟩ : ImageResourceRef) = row.ref := by
    rw [← h.kind hs]
  have hfind : b.resources.find? (fun other => decide (other.role = role ∧ other.ref = row.ref)) =
      some row := by
    cases hfound : b.resources.find? (fun other =>
        decide (other.role = role ∧ other.ref = row.ref)) with
    | none =>
      have := List.find?_eq_none.mp hfound row h.mem
      simp [h.role_eq] at this
    | some other =>
      have hother := of_decide_eq_true (List.find?_some hfound :)
      exact congrArg some
        (hs.resources.keyed.unique (List.mem_of_find?_eq_some hfound) h.mem hother.2)
  unfold Images.owned
  simp only [href, hfind, h.live, h.confirmed_owner hs, Bool.and_self, if_true]
  refine (mayReturn_get row.ref (some seen)).bind (.ofExcept ?_)
  simp [present, refuse, ref, labels, matchesLabels_self, bind, Except.bind, pure, Except.pure]

end Dependency

/-! ## Each command -/

section Commands

variable {ip key firewall builder snapshot : Resource} {work : BuilderWork} {sanitation : Sanitation}

/-- What a create attaches may be just as the command needs it. -/
def addressOf (b : ImageBuild) (ipRole : ImageResourceRole) (ip : Resource) : ImageProviderResource :=
  .primaryIp ⟨ip.ref.id, imageEffectLabels b.id ipRole ip.effectId, b.admission.offer.region.text, "",
    false, none⟩

def keyOf (b : ImageBuild) (key : Resource) : ImageProviderResource :=
  .sshKey ⟨key.ref.id, imageEffectLabels b.id .accessKey key.effectId, b.admission.access.publicKey⟩

def firewallOf (b : ImageBuild) (firewall : Resource) : ImageProviderResource :=
  .firewall ⟨firewall.ref.id, imageEffectLabels b.id .accessFirewall firewall.effectId,
    [⟨"in", "tcp", some "22", [b.admission.access.managementAddress ++ "/32"], []⟩], []⟩

def builderOf (b : ImageBuild) (builder : Resource) : ImageProviderResource :=
  .server ⟨builder.ref.id, imageEffectLabels b.id .builder builder.effectId, "",
    b.admission.offer.serverType, b.admission.offer.region.text, b.admission.offer.architecture, .off,
    none, none, none, [], false, b.admission.offer.diskGb⟩

def snapshotOf (b : ImageBuild) (snapshot : Resource) (serverId : String) : ImageProviderResource :=
  .snapshot ⟨snapshot.ref.id, imageEffectLabels b.id .snapshot snapshot.effectId,
    b.admission.offer.architecture, .available, some serverId, none, b.admission.offer.diskGb, false, 0⟩

theorem ref_eq {kind : ImageResourceKind} (h : row.ref.kind = kind) :
    (⟨kind, row.ref.id⟩ : ImageResourceRef) = row.ref := by
  rw [← h]

/-- The dependencies of a server, as the provider may show them. -/
structure Shows (b : ImageBuild) (ipRole : ImageResourceRole) (ip key firewall : Resource) : Prop where
  ip : (owned b ipRole ip.ref.id).MayReturn (addressOf b ipRole ip)
  key : (owned b .accessKey key.ref.id).MayReturn (keyOf b key)
  firewall : (owned b .accessFirewall firewall.ref.id).MayReturn (firewallOf b firewall)

theorem Attached.shows {ipRole : ImageResourceRole} (h : Attached b ipRole ip key firewall)
    (hs : Sound b) (address : imageRoleKind ipRole = .primaryIp) : Shows b ipRole ip key firewall where
  ip := h.ip.owned hs (ref_eq ((h.ip.kind hs).trans address)) rfl
  key := h.key.owned hs (ref_eq (h.key.kind hs)) rfl
  firewall := h.firewall.owned hs (ref_eq (h.firewall.kind hs)) rfl

theorem attachable_shown {ipRole : ImageResourceRole} {intent : ServerIntent}
    (region : intent.region = b.admission.offer.region.text) (builderId : Option String) :
    attachable b intent builderId (addressOf b ipRole ip) (keyOf b key) (firewallOf b firewall) =
      true := by
  simp [attachable, addressOf, keyOf, firewallOf, accessRule, region]

/-- The builder's create, once its dependencies are there. -/
theorem mayReturn_createBuilder (hs : Sound b) (h : Attached b .builderIp ip key firewall) :
    (checkCreateServer b (b.labelsOf .builder) ⟨b.admission.offer.serverType,
      b.admission.offer.region.text, b.admission.baseImageId, ip.ref.id, key.ref.id, firewall.ref.id,
      .imageBuildSecret b.admission.access.secretId b.admission.source.manifestDigest⟩
      now).MayReturn () := by
  have hshows := h.shows hs rfl
  refine Prog.MayReturn.bind (a := ()) (.ofExcept ?_) (hshows.ip.bind (hshows.key.bind
    (hshows.firewall.bind (Prog.MayReturn.bind (a := none) .pure (.ofExcept ?_)))))
  · simp [checkImageServerIntent, checkImageBuilderIntent, ImageBuild.labelsOf]
  · rw [attachable_shown rfl]
    rfl

theorem mayReturn_powerOff (hs : Sound b) (he : Evidenced b) (h : Dependency b .builder builder)
    (hsanitized : Sanitized b builder.ref.id work sanitation) :
    (checkPowerOff b builder.ref.id sanitation).MayReturn () := by
  have hadmitted := he.sanitation work sanitation hsanitized.recorded hsanitized.sanitation
  have howned := @Dependency.owned _ _ _ h hs (builderOf b builder) (ref_eq (h.kind hs)) rfl
  refine Prog.MayReturn.bind (a := ()) (.ofExcept ?_) (howned.bind .pure)
  rw [refuse_ok_iff]
  simp [hsanitized.recorded, hsanitized.server, hsanitized.sanitation, hadmitted, ImageBuild.id]

theorem stoppedAt_of_stopped {serverId : String} (h : Stopped b serverId) :
    (b.stoppedAt serverId).isSome := by
  obtain ⟨effect, heffect, hstops, hconfirmed⟩ := h
  obtain ⟨time, htime⟩ := ImageEffectResolution.confirmed?_eq_true.mp hconfirmed
  rw [ImageBuild.stoppedAt, List.findSome?_isSome_iff]
  exact ⟨effect, heffect, by simp [Effect.stoppedAt, htime, hstops]⟩

theorem mayReturn_createSnapshot (hs : Sound b) (h : Dependency b .builder builder)
    (hsanitized : Sanitized b builder.ref.id work sanitation)
    (hstopped : Stopped b builder.ref.id) :
    (checkCreateSnapshot b builder.ref.id).MayReturn () := by
  have howned := @Dependency.owned _ _ _ h hs (builderOf b builder) (ref_eq (h.kind hs)) rfl
  have hat := stoppedAt_of_stopped hstopped
  refine howned.bind (Prog.MayReturn.bind (a := ()) (.ofExcept ?_) (.ofExcept ?_))
  · rw [refuse_ok_iff]
    simp [hsanitized.recorded, hsanitized.server, hsanitized.sanitation]
  · rw [refuse_ok_iff]
    simp [hat, Option.isSome_iff_ne_none.mp hat, builderOf, ImageProviderResource.server?]

/-- Without a create of the verifier nothing was claimed for it. -/
theorem unclaimed_of_uncreated (hs : Sound b) (he : Evidenced b) (h : Uncreated b .verifier) :
    b.identity = none ∧ b.result = none := by
  have hidentity : b.identity = none := by
    cases hidentity : b.identity with
    | none => rfl
    | some identity =>
      obtain ⟨e, hmem, labels, hlabels, hrole⟩ := he.claimed identity hidentity
      have hkey := (hs.effects.create e hmem labels hlabels).1
      rw [hrole] at hkey
      exact absurd hkey (h e hmem)
  refine ⟨hidentity, ?_⟩
  cases hresult : b.result with
  | none => rfl
  | some result =>
    have := he.verified (by rw [hresult]; rfl)
    rw [hidentity] at this
    cases this

/-- The recorded snapshot is what the verifier boots from. -/
theorem verifierSnapshot_ok (hs : Sound b) (h : Dependency b .snapshot snapshot)
    (hwork : b.builderWork = some work) {snapshotId : String} (source : Source b snapshotId) :
    verifierSnapshot b = .ok (snapshot, work.serverId) ∧ snapshot.ref.id = snapshotId := by
  obtain ⟨row, hrow, href, hrole, hconfirmed, seen, shown, work', sanitation, hseen, hshown, hstatus,
    hsanitized, hserver⟩ := source.row
  have hmem : row ∈ b.resources.filter fun item => item.role = .snapshot :=
    List.mem_filter.mpr ⟨hrow, decide_eq_true hrole⟩
  rw [h.single, List.mem_singleton] at hmem
  subst hmem
  have hworks := hsanitized.recorded
  rw [hwork] at hworks
  obtain rfl := Option.some.inj hworks
  refine ⟨?_, by rw [href]⟩
  simp [verifierSnapshot, confirmedImageResource, h.single, present, refuse, hseen, hconfirmed,
    hwork, hshown, hstatus, hserver, hsanitized.sanitation, bind, Except.bind, pure, Except.pure]

theorem mayReturn_checkSource (hs : Sound b) (hbuilder : Dependency b .builder builder)
    (h : Dependency b .snapshot snapshot) (hwork : work.serverId = builder.ref.id)
    (hsnapshot : verifierSnapshot b = .ok (snapshot, work.serverId)) :
    (checkSource b).MayReturn (some work.serverId) := by
  have hshows := @Dependency.owned _ _ _ h hs (snapshotOf b snapshot work.serverId) (ref_eq (h.kind hs)) rfl
  have hserver := @Dependency.owned _ _ _ hbuilder hs (builderOf b builder) (ref_eq (hbuilder.kind hs)) rfl
  rw [← hwork] at hserver
  refine Prog.MayReturn.bind (.ofExcept hsnapshot) (hshows.bind (Prog.MayReturn.bind (a := ())
    (.ofExcept ?_) (hserver.bind (Prog.MayReturn.bind (a := ()) (.ofExcept ?_) .pure))))
  · simp [refuse, snapshotOf, ImageProviderResource.snapshot?]
  · simp [refuse, builderOf, ImageProviderResource.server?]

theorem mayReturn_createVerifier (hs : Sound b) (he : Evidenced b) (hrunning : b.state = .running)
    (hbuilder : Dependency b .builder builder)
    (hsanitized : Sanitized b builder.ref.id work sanitation)
    (hsnapshot : Dependency b .snapshot snapshot) (h : Attached b .verifierIp ip key firewall)
    {spec : VerifierBootstrap} (hspec : b.bootstrap = some spec)
    (hactive : b.identity = none → now < spec.expiresAt) (hfresh : Uncreated b .verifier) :
    (checkCreateServer b (b.labelsOf .verifier) ⟨b.admission.offer.serverType,
      b.admission.offer.region.text, snapshot.ref.id, ip.ref.id, key.ref.id, firewall.ref.id,
      .imageVerifierSecret b.admission.id b.admission.source.manifestDigest⟩ now).MayReturn () := by
  obtain ⟨hidentity, hresult⟩ := unclaimed_of_uncreated hs he hfresh
  have hsource := he.source spec hspec hrunning hresult
  obtain ⟨hverifier, hid⟩ := verifierSnapshot_ok hs hsnapshot hsanitized.recorded hsource
  have hexpires := hactive hidentity
  have hshows := h.shows hs rfl
  have hchecked := mayReturn_checkSource hs hbuilder hsnapshot hsanitized.server hverifier
  refine Prog.MayReturn.bind (a := ()) (.ofExcept ?_) (hshows.ip.bind (hshows.key.bind
    (hshows.firewall.bind (hchecked.bind (.ofExcept ?_)))))
  · simp [checkImageServerIntent, ImageBuild.labelsOf, hverifier, ImageBuild.prepared?, hidentity,
      hspec, present, refuse, hid, Nat.not_le.mpr hexpires, bind, Except.bind]
  · rw [attachable_shown rfl]
    rfl

end Commands

/-! ## The checks before the provider is asked -/

/-- What is checked of a command by the record of its build alone. -/
structure Admits (b : ImageBuild) (now : Instant) (command : ImageProviderCommand) : Prop where
  /-- Its key does not describe another command. -/
  identity : ∀ last, (b.history (imageEffectKey command)).getLast? = some last →
    last.command = command
  permitted : ∀ inUse, checkPermitted b command
    ((b.history (imageEffectKey command)).getLast?.map Effect.id) inUse now = .ok ()
  /-- Nothing in the record stands against the policy. -/
  checked : (checkImageCommand b command now).MayReturn ()
  guarded : ∀ id createdAt, guardImageBuildEffect now b
    ⟨id, nextKey b command, command, .prepared, .pending, createdAt⟩ = .ok ()

section Admission

variable (hs : Sound b) (he : Evidenced b) (hrunning : b.state = .running)
  (hactive : b.expired now = false) (idle : b.effects.any Effect.pending = false)

include hs in
/-- A role without a create has no history. -/
theorem history_of_uncreated (h : Uncreated b role) :
    (b.history (.create role)).getLast? = none := by
  rw [List.getLast?_eq_none_iff, ImageBuild.history, List.filter_eq_nil_iff]
  intro effect heffect hbase
  have hbase' := of_decide_eq_true hbase
  have hkey := hs.effects.base effect heffect
  rw [hbase'] at hkey
  obtain ⟨labels, hlabels, hrole⟩ := labels?_of_imageEffectKey hkey.symm
  have hcreate := (hs.effects.create effect heffect labels hlabels).1
  rw [hrole] at hcreate
  exact h effect heffect hcreate

include hrunning hactive idle in
/-- With nothing pending, a running build permits whatever does not delete. -/
theorem checkPermitted_ok (exact_ : command.isDelete = false)
    (target : command.target?.any (fun ref => decide (ref.kind = .snapshot)) = false)
    (last : Option EffectId) (inUse : Bool) :
    checkPermitted b command last inUse now = .ok () := by
  have hidle : b.effects.any (fun effect =>
      effect.pending && decide (some effect.id ≠ last)) = false := by
    rw [List.any_eq_false] at idle ⊢
    intro effect heffect h
    rw [Bool.and_eq_true] at h
    exact idle effect heffect h.1
  simp only [checkPermitted, bind_ok_iff, refuse_ok_iff]
  refine ⟨(), ?_, (), ?_, (), ?_, ?_⟩
  · simp [hrunning, hactive]
  · simp [exact_]
  · rw [hidle]
    simp
  · rw [target]
    simp

include hrunning hactive in
theorem guardImageBuildEffect_of {effect : Effect} (prepared : effect.outcome = .prepared)
    (pending : effect.resolution = .pending) (exact_ : effect.command.isDelete = false)
    (create : guardCreate b effect = .ok ()) : guardImageBuildEffect now b effect = .ok () := by
  simp only [guardImageBuildEffect, bind_ok_iff, refuse_ok_iff]
  refine ⟨(), ?_, (), ?_, (), ?_, (), create, ?_⟩
  · simp [hrunning, ImageBuildState.cleaned?]
  · simp [prepared, pending]
  · simp [hrunning, hactive]
  · unfold guardDelete
    split
    · next resource hcommand =>
      rw [hcommand] at exact_
      cases exact_
    · rfl

include hs hrunning hactive idle in
/-- A fresh create of a running build is admitted if the policy permits it. -/
theorem admits_create (hlabels : command.labels? = some (b.labelsOf role))
    (hcreates : command.creates? = some (imageRoleKind role)) (hfresh : Uncreated b role)
    (target : command.target? = none)
    (checked : (checkByKind b now command).MayReturn ()) : Admits b now command := by
  have hkey : imageEffectKey command = .create role := imageEffectKey_create hlabels
  have hcreate : command.isImageCreate = true := by
    rw [ImageProviderCommand.isImageCreate, hlabels]
    rfl
  have hexact : command.isDelete = false := by
    cases hdelete : command.isDelete with
    | false => rfl
    | true =>
      rw [ImageProviderCommand.isDelete_not_create hdelete] at hcreate
      cases hcreate
  have hnone := history_of_uncreated hs hfresh
  refine ⟨fun last hlast => ?_, checkPermitted_ok hrunning hactive idle hexact ?_ _, ?_,
    fun id createdAt => guardImageBuildEffect_of hrunning hactive rfl rfl hexact ?_⟩
  · rw [hkey, hnone] at hlast
    cases hlast
  · rw [target]
    rfl
  · refine mayReturn_readBaseImage.bind (Prog.MayReturn.bind (a := ()) (.ofExcept ?_) checked)
    simp [checkCreateLabels, hlabels, hcreates, ImageBuild.labelsOf]
  · simp only [guardCreate, hlabels, bind_ok_iff, refuse_ok_iff]
    refine ⟨(), ?_, ?_⟩
    · simp [hcreates, nextKey, hkey, hcreate, ImageBuild.labelsOf, ImageBuild.id]
    · simp [idle]

include hs he hrunning hactive idle in
/-- A shutdown of the sanitized builder is admitted. -/
theorem admits_powerOff {builder : Resource} {work : BuilderWork} {sanitation : Sanitation}
    (owned : Dependency b .builder builder)
    (sanitized : Sanitized b builder.ref.id work sanitation) :
    Admits b now (.powerOff builder.ref.id sanitation) := by
  refine ⟨fun last hlast => ?_, checkPermitted_ok hrunning hactive idle rfl rfl _, ?_,
    fun id createdAt => guardImageBuildEffect_of hrunning hactive rfl rfl rfl rfl⟩
  · have hmem := List.mem_of_getLast? hlast
    obtain ⟨hlastMem, hbase⟩ := mem_historyOf.mp hmem
    have hkey := hs.effects.base last hlastMem
    rw [hbase] at hkey
    -- an earlier shutdown of the builder carries the same receipt
    cases hcommand : last.command with
    | powerOff serverId other =>
      rw [hcommand] at hkey
      obtain rfl := EffectBase.powerOff.inj hkey
      obtain ⟨work', hwork'⟩ := he.stops last hlastMem _ other hcommand
      have hworks := hwork'.recorded
      rw [sanitized.recorded] at hworks
      obtain rfl := Option.some.inj hworks
      have hreceipts := hwork'.sanitation
      rw [sanitized.sanitation] at hreceipts
      obtain rfl := Option.some.inj hreceipts
      rfl
    | _ => rw [hcommand] at hkey; cases hkey
  · exact mayReturn_readBaseImage.bind (Prog.MayReturn.bind (a := ()) (.ofExcept rfl)
      (mayReturn_powerOff hs he owned sanitized))

include hs he hrunning hactive idle in
/-- **Every fresh command of the planner is admitted.** -/
theorem Planned.admits (h : Planned b now command) : Admits b now command := by
  cases h with
  | accessKey fresh =>
    exact admits_create hs hrunning hactive idle rfl rfl fresh rfl (.ofExcept (by simp [refuse]))
  | accessFirewall fresh =>
    exact admits_create hs hrunning hactive idle rfl rfl fresh rfl (.ofExcept (by simp [refuse]))
  | builderIp fresh =>
    exact admits_create hs hrunning hactive idle rfl rfl fresh rfl (.ofExcept (by simp [refuse]))
  | verifierIp source fresh =>
    exact admits_create hs hrunning hactive idle rfl rfl fresh rfl (.ofExcept (by simp [refuse]))
  | builder attached fresh =>
    exact admits_create hs hrunning hactive idle rfl rfl fresh rfl
      (mayReturn_createBuilder hs attached)
  | powerOff owned sanitized => exact admits_powerOff hs he hrunning hactive idle owned sanitized
  | snapshot owned sanitized stopped fresh =>
    exact admits_create hs hrunning hactive idle rfl rfl fresh rfl
      (mayReturn_createSnapshot hs owned sanitized stopped)
  | verifier owned sanitized source attached bootstrap active fresh =>
    exact admits_create hs hrunning hactive idle rfl rfl fresh rfl
      (mayReturn_createVerifier hs he hrunning owned sanitized source attached bootstrap active fresh)

end Admission

/-! ## Every run -/

/-- **The release planner.**  Every record is planned safely; in a reachable one, a fresh command
    meets nothing in the record that would refuse it, and a command that is already pending is the
    newest of its kind, for the journal to reconcile. -/
theorem planner (build : ImageBuild) (now : Instant)
    (verificationEnabled publicationEnabled : Bool) :
    PlanSafe build now (planImageRelease build now verificationEnabled publicationEnabled) ∧
    ∀ {clock : Instant} {c : Plane}, system.Reach (.idle (empty clock)) c →
      build ∈ c.world.store.builds → ∀ command,
      planImageRelease build now verificationEnabled publicationEnabled = .effect command →
        (build.effects.any Effect.pending = false → Admits build now command) ∧
        (build.effects.any Effect.pending = true → ∃ effect ∈ build.effects,
          effect.resolution = .pending ∧ effect.command = command ∧
            (build.history (imageEffectKey command)).getLast? = some effect) := by
  have hsafe : PlanSafe build now
    (planImageRelease build now verificationEnabled publicationEnabled) := planImageRelease_safe
  refine ⟨hsafe, fun hreach mem command hplan => ⟨fun idle => ?_, fun hpending => ?_⟩⟩
  · have hs := (valid hreach).sound build mem
    have he := evidenced hreach build mem
    have hplanned := planned_of_effect idle hplan
    obtain ⟨hrunning, hactive⟩ := running_of_effect hplan
    exact hplanned.admits hs he hrunning hactive idle
  · have hs := (valid hreach).sound build mem
    obtain ⟨effect, heffect, hresolution, rfl⟩ := hsafe.pending hpending command hplan
    refine ⟨effect, heffect, hresolution, rfl, ?_⟩
    rw [← hs.effects.base effect heffect]
    exact hs.effects.newest effect heffect hresolution

namespace Demo

/-- The build with its builder sanitized, and nothing pending. -/
def sanitizing : List (Scene allowance) :=
  [.event (.admission (admission "build") catalog)] ++ (building "build").take 6

theorem shutdown_admitted : ∃ (w : World interface) (b : ImageBuild), b ∈ w.store.builds ∧
    planImageRelease b 0 true true = .effect (.powerOff "builder" (sanitation "build")) ∧
    Admits b 0 (.powerOff "builder" (sanitation "build")) := by
  have h : (playAll sanitizing (empty 0)).any (fun w => (w.store.build "build").any fun b =>
      decide (planImageRelease b 0 true true =
        .effect (.powerOff "builder" (sanitation "build"))) &&
      !b.effects.any Effect.pending) = true := by
    decide +kernel
  obtain ⟨w, hreach, hw⟩ := reach_any h
  obtain ⟨b, hb, hplan⟩ := (Option.any_eq_true _ _).mp hw
  rw [Bool.and_eq_true, decide_eq_true_eq, Bool.not_eq_true'] at hplan
  have mem := Store.build_mem hb
  exact ⟨w, b, mem, hplan.1, ((planner b 0 true true).2 (reach_of_limited hreach) mem _
    hplan.1).1 hplan.2⟩

/-- A provider at which the builder is deleted once its shutdown was asked for. -/
def vanishing (w : World interface) : (c : Call) → c.Reply
  | .get ref => if stopped w "builder" ∧ ref = ⟨.server, "builder"⟩ then .ok none
      else reply w (.get ref)
  | call => reply w call

/-- The worker of the shutdown dies when it has recorded the builder as absent. -/
def abandoned : List (Scene allowance) :=
  sanitizing ++ [.died env vanishing
    (.effect "build" (.powerOff "builder" (sanitation "build")) (some allowance)) 10]

end Demo

/-- A shutdown needs its builder on record. -/
theorem powerOff_refused {serverId : String} {s : Sanitation}
    (absent : ∀ row ∈ b.resources, row.role = .builder → row.live = false) :
    ¬ (checkImageCommand b (.powerOff serverId s) now).MayReturn () := by
  have howned : ∃ fault, Images.owned b .builder serverId = raise fault := by
    unfold Images.owned
    dsimp only
    split
    · exact ⟨_, rfl⟩
    · next row hfound =>
      have hrole := of_decide_eq_true (List.find?_some hfound :)
      rw [absent row (List.mem_of_find?_eq_some hfound) hrole.1]
      exact ⟨_, rfl⟩
  obtain ⟨fault, howned⟩ := howned
  have hraises : ∃ fault, checkImageCommand b (.powerOff serverId s) now = raise fault := by
    show ∃ fault, checkPowerOff b serverId s = raise fault
    unfold checkPowerOff refuse
    rw [howned]
    split
    · exact ⟨_, rfl⟩
    · exact ⟨fault, rfl⟩
  obtain ⟨fault, hraises⟩ := hraises
  intro h
  obtain ⟨w', hw'⟩ := h (empty 0)
  rw [hraises] at hw'
  cases hw'

/-- A pending shutdown is planned again though the record of its builder is gone, and the policy
    refuses it for that; so does the worker that runs it. -/
theorem Demo.abandoned_refused : ∃ (w : World interface) (b : ImageBuild),
    system.Reach (.idle (empty 0)) (.idle w) ∧ b ∈ w.store.builds ∧
    planImageRelease b 0 true true = .effect (.powerOff "builder" (sanitation "build")) ∧
    ¬ (checkImageCommand b (.powerOff "builder" (sanitation "build")) 0).MayReturn () ∧
    ((runImageEffect "build" (.powerOff "builder" (sanitation "build")) (some allowance)).run env
      vanishing w).1.isOk = false := by
  have h : (playAll abandoned (empty 0)).any (fun w => (w.store.build "build").any fun b =>
      decide (planImageRelease b 0 true true =
        .effect (.powerOff "builder" (sanitation "build"))) &&
      (b.resources.all fun row => decide (row.role = .builder → row.live = false)) &&
      !((runImageEffect "build" (.powerOff "builder" (sanitation "build")) (some allowance)).run env
        vanishing w).1.isOk) = true := by
    decide +kernel
  obtain ⟨w, hreach, hw⟩ := reach_any h
  obtain ⟨b, hb, hplan⟩ := (Option.any_eq_true _ _).mp hw
  rw [Bool.and_eq_true, Bool.and_eq_true, decide_eq_true_eq, Bool.not_eq_true'] at hplan
  obtain ⟨⟨hplan, habsent⟩, hrun⟩ := hplan
  exact ⟨w, b, reach_of_limited hreach, Store.build_mem hb, hplan, powerOff_refused fun row hrow =>
    of_decide_eq_true (List.all_eq_true.mp habsent row hrow), hrun⟩

end AgentCloud.Images
