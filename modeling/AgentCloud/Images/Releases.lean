/-
  RELEASES: a signed release is stored once, and it tells the history of its build.

  The evidence is written while the machines exist and the release when they are gone, so the law has
  two halves.  `History` is what the evidence has in common with the rows of the build; once the
  evidence is there, no change touches those rows any more.  `PublicationSound` adds the states: the
  release and the retained state come together, and both need the temporary cleanup.

  The heart is that behind a publication only deletions can be pending.  So nothing is claimed, no
  shutdown is confirmed any more, and the rows that the evidence was read from stay.
-/
import AgentCloud.Images.Submissions

namespace AgentCloud.Images

open Checked Durable

variable {store : Store} {log : Log} {b b' : ImageBuild}

/-! ## The history that the evidence tells -/

structure History (b : ImageBuild) (evidence : ImageReleaseEvidence) : Prop where
  named : evidence.buildId = b.id
  admitted : evidence.manifest = b.admission.source.manifest ∧
    evidence.inputs = b.admission.source.inputs ∧
    evidence.artifacts = b.admission.source.artifacts ∧
    b.admission.retention.deleteAfter? = some evidence.retainUntil
  sanitized : ∃ work, b.builderWork = some work ∧ work.serverId = evidence.serverId ∧
    work.progress.sanitation? = some evidence.sanitation
  /-- The source of the snapshot is the sanitized server, and its shutdown was confirmed. -/
  stopped : evidence.snapshot.sourceServerId = evidence.serverId ∧
    b.stoppedAt evidence.serverId = some evidence.snapshot.sourceStoppedAt
  /-- The one snapshot of the build, whose create was confirmed. -/
  snapshot : ∃ record, b.snapshots = [record] ∧ record.ref.id = evidence.snapshot.id ∧
    b.confirmed record.effectId = true
  sized : evidence.snapshot.diskGb = b.admission.offer.diskGb
  /-- The verified boot is that of the same snapshot. -/
  verified : ∃ result, b.result = some result ∧ result.snapshotId = evidence.snapshot.id ∧
    evidence.verifiedBoot =
      ⟨result.serverId, result.bootId, result.manifestDigest, result.verifiedAt⟩
  ordered : evidence.ordered

/-- The evidence that the guard expects tells the history. -/
theorem history_of_expected {evidence : ImageReleaseEvidence}
    (h : expectedEvidence b = some evidence) (ordered : evidence.ordered) : History b evidence := by
  simp only [expectedEvidence, Option.bind_eq_bind, Option.bind_eq_some_iff] at h
  obtain ⟨deleteAfter, hdelete, work, hwork, sanitation, hsanitation, verified, hverified, stopped,
    hstopped, record, hrecord, snapshot, hsnapshot, h⟩ := h
  split at h
  · next hprovides =>
    obtain rfl := Option.some.inj h
    obtain ⟨-, -, hsize, -, -, hid, hconfirmed⟩ := hprovides
    have hone : b.snapshots = [record] := by
      unfold ImageBuild.snapshot? at hrecord
      split at hrecord
      · next hlength =>
        obtain ⟨row, hrow⟩ := List.length_eq_one_iff.mp hlength
        rw [hrow] at hrecord
        rw [hrow, show row = record from Option.some.inj hrecord]
      · cases hrecord
    exact ⟨rfl, ⟨rfl, rfl, rfl, hdelete⟩, ⟨work, hwork, rfl, hsanitation⟩, ⟨rfl, hstopped⟩,
      ⟨record, hone, rfl, hconfirmed⟩, hsize, ⟨verified, hverified, hid, rfl⟩, ordered⟩
  · cases h

/-! ## Rows that no change touches -/

/-- Only deletions are pending. -/
def Resolved (b : ImageBuild) : Prop :=
  ∀ e ∈ b.effects, e.command.isDelete = false → e.resolution ≠ .pending

theorem Resolved.of_idle (h : b.effects.any Effect.pending = false) : Resolved b := by
  intro e he _ hpending
  have := List.any_eq_false.mp h e he
  exact this (Effect.pending_eq_true.mpr hpending)

/-- Past the running state only deletions begin. -/
theorem Change.resolved (change : Change store log b b') (mem : b ∈ store.builds) (hs : Sound b)
    (hpast : b.state ≠ .running) (h : Resolved b) : Resolved b' := by
  intro f hf hexact hpending
  obtain ⟨g, hg, hrows | ⟨new, superseded, hrows, -, -, -, -, inserted, -⟩⟩ :=
    change.effects.rows mem hs.effects
  · rw [hrows] at hf
    obtain ⟨e, he, rfl⟩ := List.mem_map.mp hf
    rw [(hg e he).command] at hexact
    exact h e he hexact ((hg e he).pending hpending)
  · rw [hrows] at hf
    rcases List.mem_append.mp hf with hf | hf
    · obtain ⟨e, he, rfl⟩ := List.mem_map.mp hf
      rw [(hg e he).command] at hexact
      exact h e he hexact ((hg e he).pending hpending)
    · obtain rfl := List.mem_singleton.mp hf
      exact hpast (inserted.work hexact).1

theorem isDelete_of_stops {command : ImageProviderCommand} {serverId : String}
    (h : command.stops? = some serverId) : command.isDelete = false := by
  cases command <;> simp_all [ImageProviderCommand.stops?, ImageProviderCommand.isDelete]

theorem isDelete_of_creates {command : ImageProviderCommand} {role : ImageResourceRole}
    (h : command.labels?.map ImageBuildLabels.role = some role) : command.isDelete = false := by
  cases command <;> simp_all [ImageProviderCommand.labels?, ImageProviderCommand.isDelete]

theorem stoppedAt_pending {e : Effect} {serverId : String} (h : e.resolution = .pending) :
    e.stoppedAt serverId = none := by
  rw [Effect.stoppedAt, h]

/-- A rewritten row stops what it stopped, where only deletions are pending. -/
theorem Effect.Rewrite.stoppedAt {e f : Effect} (h : e.Rewrite f)
    (resolved : e.command.isDelete = false → e.resolution ≠ .pending) (serverId : String) :
    f.stoppedAt serverId = e.stoppedAt serverId := by
  by_cases hpending : e.resolution = .pending
  · rw [stoppedAt_pending hpending]
    unfold Effect.stoppedAt
    split
    · rw [if_neg]
      intro hstops
      rw [h.command] at hstops
      exact resolved (isDelete_of_stops hstops) hpending
    · rfl
  · unfold Effect.stoppedAt
    rw [h.settled hpending, h.command]

theorem Change.stoppedAt (change : Change store log b b') (mem : b ∈ store.builds) (hs : Sound b)
    (h : Resolved b) (serverId : String) : b'.stoppedAt serverId = b.stoppedAt serverId := by
  obtain ⟨g, hg, hrows⟩ := change.effects.rows mem hs.effects
  have hold : ∀ es : List Effect, (∀ e ∈ es, e ∈ b.effects) →
      (es.map g).findSome? (fun e => e.stoppedAt serverId) =
        es.findSome? fun e => e.stoppedAt serverId := by
    intro es hes
    induction es with
    | nil => rfl
    | cons e es ih =>
      have he := hes e List.mem_cons_self
      rw [List.map_cons, List.findSome?_cons, List.findSome?_cons,
        (hg e he).stoppedAt (h e he) serverId,
        ih fun x hx => hes x (List.mem_cons_of_mem e hx)]
  rw [ImageBuild.stoppedAt, ImageBuild.stoppedAt]
  rcases hrows with hrows | ⟨new, superseded, hrows, -, -, -, -, inserted, -⟩
  · rw [hrows]
    exact hold b.effects fun _ he => he
  · rw [hrows, List.findSome?_append, hold b.effects fun _ he => he]
    simp [stoppedAt_pending inserted.pending]

/-- What is confirmed stays confirmed. -/
theorem Change.confirmed (change : Change store log b b') (mem : b ∈ store.builds) (hs : Sound b)
    {id : EffectId} (h : b.confirmed id = true) : b'.confirmed id = true := by
  obtain ⟨e, he, hid⟩ := List.any_eq_true.mp h
  rw [Bool.and_eq_true, decide_eq_true_eq] at hid
  obtain ⟨f, hf, hsame⟩ := change.effects.kept_rows mem hs.effects e he
  obtain ⟨time, htime⟩ := ImageEffectResolution.confirmed?_eq_true.mp hid.2
  refine List.any_eq_true.mpr ⟨f, hf, ?_⟩
  rw [Bool.and_eq_true, decide_eq_true_eq]
  exact ⟨hsame.id.trans hid.1, by rw [hsame.settled (by simp [htime])]; exact hid.2⟩

/-- No row is claimed where no create is pending. -/
theorem Change.snapshots (change : Change store log b b') (h : Resolved b) {record : Resource}
    (hone : b.snapshots = [record]) :
    ∃ record', b'.snapshots = [record'] ∧ record'.ref = record.ref ∧
      record'.effectId = record.effectId := by
  have hchange := change.resources
  rw [ImageBuild.snapshots] at hone ⊢
  generalize b'.resources = resources at hchange ⊢
  cases hchange with
  | kept => exact ⟨record, hone, rfl, rfl⟩
  | claim row isOpen unclaimed effect memEffect owner pending role kind unverified =>
    exact absurd pending (h effect memEffect (isDelete_of_creates role))
  | observe row memRow isOpen state known final =>
    have hfilter : (Table.update Resource.ref b.resources row.ref fun other =>
        { other with state }).filter (fun resource => resource.role = .snapshot) =
        (b.resources.filter fun resource => resource.role = .snapshot).map fun other =>
          if other.ref = row.ref then { other with state } else other := by
      rw [Table.update, List.filter_map]
      refine congrArg _ (List.filter_congr fun other _ => ?_)
      simp only [Function.comp_apply]
      split <;> rfl
    refine ⟨if record.ref = row.ref then { record with state } else record, ?_, ?_, ?_⟩
    · rw [hfilter, hone]
      rfl
    · split <;> rfl
    · split <;> rfl

theorem mayBecome_sanitized {progress next : ImageBuilderProgress}
    (h : progress.sanitation?.isSome = true) : progress.mayBecome next = false := by
  cases progress <;> simp_all [ImageBuilderProgress.sanitation?, ImageBuilderProgress.mayBecome]

theorem updateImageBuild_builderWork {now : Instant} {f : ImageBuild → ImageBuild}
    (hf : (f b).builderWork = b.builderWork ∧ (f b).result = b.result)
    (h : updateImageBuild now b f = .ok b') :
    b'.builderWork = b.builderWork ∧ b'.result = b.result := by
  rw [(updateImageBuild_ok h).2.2]
  exact hf

/-- The work of a sanitized builder is over, and the verification is written once. -/
theorem Change.evidenceRows (change : Change store log b b') {work : BuilderWork}
    (hwork : b.builderWork = some work) (hsanitized : work.progress.sanitation?.isSome = true)
    (hresult : b.result.isSome = true) :
    b'.builderWork = b.builderWork ∧ b'.result = b.result := by
  cases change with
  | prepare new superseded => cases superseded <;> exact ⟨rfl, rfl⟩
  | receipt => exact ⟨rfl, rfl⟩
  | settle => exact ⟨rfl, rfl⟩
  | claim => exact ⟨rfl, rfl⟩
  | observe => exact ⟨rfl, rfl⟩
  | work effectId serverId written =>
    rw [(insertBuilderWork_ok written).1] at hwork
    cases hwork
  | progress next written =>
    rcases updateBuilderWork_ok written with rfl | ⟨work', hwork', hmay, -⟩
    · exact ⟨rfl, rfl⟩
    · rw [hwork] at hwork'
      obtain rfl := Option.some.inj hwork'
      rw [mayBecome_sanitized hsanitized] at hmay
      cases hmay
  | verification date write written =>
    have hsame := VerificationWrite.apply_ok written
    exact ⟨hsame.builderWork, hsame.result hresult⟩
  | evidence evidence written releasing =>
    have hreleasing := updateImageBuild_builderWork ⟨rfl, rfl⟩ releasing
    rw [(insertPublication_ok written).2.2.2.2.2.2] at hreleasing
    exact hreleasing
  | release release written retained =>
    have hretained := updateImageBuild_builderWork ⟨rfl, rfl⟩ retained
    rcases updatePublication_ok written with ⟨-, heq⟩ | ⟨publication, -, -, -, -, heq⟩ <;>
      · rw [heq] at hretained
        exact hretained
  | cleaned date written => exact updateImageBuild_builderWork ⟨rfl, rfl⟩ written
  | cleaning reason written =>
    refine updateImageBuild_builderWork ?_ written
    unfold ImageBuild.requested
    split <;> exact ⟨rfl, rfl⟩
  | runRequested written => exact updateImageBuild_builderWork ⟨rfl, rfl⟩ written
  | accessRemoved gone written => exact updateImageBuild_builderWork ⟨rfl, rfl⟩ written

/-- No change touches the history that the evidence tells. -/
theorem History.keep {evidence : ImageReleaseEvidence} (h : History b evidence)
    (change : Change store log b b') (mem : b ∈ store.builds) (hs : Sound b) (hr : Resolved b) :
    History b' evidence := by
  obtain ⟨work, hwork, hserver, hsanitation⟩ := h.sanitized
  obtain ⟨record, hone, hid, hconfirmed⟩ := h.snapshot
  obtain ⟨result, hresult, hsnapshot, hboot⟩ := h.verified
  obtain ⟨hsameWork, hsameResult⟩ := change.evidenceRows hwork (by rw [hsanitation]; rfl)
    (by rw [hresult]; rfl)
  obtain ⟨record', hone', href, howner⟩ := change.snapshots hr hone
  exact {
    named := h.named.trans change.id.symm
    admitted := by
      rw [change.admission]
      exact h.admitted
    sanitized := ⟨work, hsameWork.trans hwork, hserver, hsanitation⟩
    stopped := ⟨h.stopped.1, (change.stoppedAt mem hs hr _).trans h.stopped.2⟩
    snapshot := ⟨record', hone', by rw [href]; exact hid, change.confirmed mem hs (by
      rw [howner]
      exact hconfirmed)⟩
    sized := by
      rw [change.admission]
      exact h.sized
    verified := ⟨result, hsameResult.trans hresult, hsnapshot, hboot⟩
    ordered := h.ordered }

/-! ## What becomes of the publication and of the state -/

/-- What one change does to the state, the publication and the access keys. -/
inductive Progress (store : Store) (log : Log) (b b' : ImageBuild) : Prop where
  | still (state : b'.state = b.state) (publication : b'.publication = b.publication)
      (access : b'.accessRemovedAt = b.accessRemovedAt)
  | evidence (evidence : ImageReleaseEvidence) (fresh : b.publication = none)
      (running : b.state = .running) (active : b.expired store.clock = false)
      (expected : expectedEvidence b = some evidence)
      (idle : b.effects.any Effect.pending = false) (ordered : evidence.ordered)
      (eq : b' = { b with publication := some ⟨evidence, none⟩, state := .releasing })
  | release (publication : Publication) (release : SignedImageRelease)
      (releasable : Releasable b publication release) (active : b.expired store.clock = false)
      (issued : release.payload.issuedAt ≤ store.clock)
      (retained : store.clock < publication.evidence.retainUntil)
      (eq : b' = { b with
        publication := some { publication with release := some release }
        state := .retained release.payload.issuedAt })
  | cleaning (reason : CleanupReason) (early : b.state.stage < 3)
      (eq : b' = { b with state := .cleaning reason })
  | cleaned (date : Instant) (cleaning : b.state.cleaning? = true)
      (idle : b.effects.any Effect.pending = false)
      (absent : b.resources.any Resource.live = false)
      (eq : b' = { b with state := .cleaned date })
  | removed (date : Instant) (fresh : b.accessRemovedAt = none) (gone : removedAccess b.id ∈ log)
      (past : b.state ≠ .running) (eq : b' = { b with accessRemovedAt := some date })

theorem Change.progressed (change : Change store log b b') : Progress store log b b' := by
  cases change with
  | prepare new superseded => cases superseded <;> exact .still rfl rfl rfl
  | receipt => exact .still rfl rfl rfl
  | settle => exact .still rfl rfl rfl
  | claim => exact .still rfl rfl rfl
  | observe => exact .still rfl rfl rfl
  | work effectId serverId written =>
    rw [(insertBuilderWork_ok written).2]
    exact .still rfl rfl rfl
  | progress next written =>
    rcases updateBuilderWork_ok written with rfl | ⟨work, -, -, rfl⟩ <;> exact .still rfl rfl rfl
  | verification date write written =>
    have hsame := VerificationWrite.apply_ok written
    exact .still hsame.state hsame.publication hsame.accessRemoved
  | evidence evidence written releasing =>
    obtain ⟨hfresh, hrunning, hactive, hexpected, hidle, hordered, rfl⟩ :=
      insertPublication_ok written
    exact .evidence evidence hfresh hrunning hactive hexpected hidle hordered
      (updateImageBuild_ok releasing).2.2
  | release release written retained =>
    obtain ⟨hguard, -, rfl⟩ := updateImageBuild_ok retained
    rcases updatePublication_ok written with
      ⟨hnone, rfl⟩ | ⟨publication, hreleasable, hactive, hissued, hretained, rfl⟩
    · -- without a publication nothing may become retained
      rcases (guardImageBuild_ok hguard).2 with hsame | ⟨hmay, -⟩
      · exact .still hsame rfl rfl
      · simp [ImageBuild.mayBecome, hnone] at hmay
    · exact .release publication release hreleasable hactive hissued hretained rfl
  | cleaned date written =>
    obtain ⟨hguard, -, rfl⟩ := updateImageBuild_ok written
    rcases (guardImageBuild_ok hguard).2 with hsame | ⟨hmay, -, hclean⟩
    · exact .still hsame rfl rfl
    · obtain ⟨hidle, habsent⟩ := hclean rfl
      exact .cleaned date hmay hidle habsent rfl
  | cleaning reason written =>
    obtain ⟨hguard, -, rfl⟩ := updateImageBuild_ok written
    unfold ImageBuild.requested
    split
    · next hearly => exact .cleaning reason hearly rfl
    · exact .still rfl rfl rfl
  | runRequested written =>
    rw [(updateImageBuild_ok written).2.2]
    exact .still rfl rfl rfl
  | accessRemoved gone written =>
    obtain ⟨-, hworkflow, rfl⟩ := updateImageBuild_ok written
    rcases (guardImageWorkflow_ok hworkflow).2 with hsame | ⟨hfresh, hpast, -⟩
    · exact .still rfl rfl hsame
    · exact .removed store.clock hfresh gone hpast rfl

/-! ## The invariant -/

structure PublicationSound (log : Log) (b : ImageBuild) : Prop where
  /-- The evidence tells the history, and nothing but deletions is pending behind it. -/
  told : ∀ p, b.publication = some p →
    History b p.evidence ∧ Resolved b ∧ b.state ≠ .running
  signed : ∀ p r, b.publication = some p → p.release = some r → 2 ≤ b.state.stage ∧
    r.payload.toImageReleaseEvidence = p.evidence ∧
    p.evidence.verifiedBoot.checkedAt ≤ r.payload.issuedAt ∧
    b.accessRemovedAt.isSome = true ∧ b.temporary = false
  retained : ∀ since, b.state = .retained since →
    (∃ p r, b.publication = some p ∧ p.release = some r ∧ r.payload.issuedAt = since) ∧
      b.effects.any Effect.pending = false
  removed : b.accessRemovedAt.isSome = true → removedAccess b.id ∈ log

theorem PublicationSound.admitted (log : Log) (admission : ImageBuildAdmission) :
    PublicationSound log (.admitted admission) := by
  constructor <;> simp [ImageBuild.admitted]

theorem PublicationSound.append (h : PublicationSound log b) (new : Log) :
    PublicationSound (log ++ new) b :=
  ⟨h.told, h.signed, h.retained, fun hremoved => List.mem_append_left _ (h.removed hremoved)⟩

/-- While a build is retained, no change touches its journal but to say the same again. -/
theorem Change.idle (change : Change store log b b') (mem : b ∈ store.builds) (hs : Sound b)
    {since : Instant} (hstate : b.state = .retained since)
    (hidle : b.effects.any Effect.pending = false) : b'.effects.any Effect.pending = false := by
  rw [List.any_eq_false] at hidle ⊢
  intro f hf hpending
  rw [Effect.pending_eq_true] at hpending
  obtain ⟨g, hg, hrows | ⟨new, superseded, hrows, -, -, -, -, inserted, -⟩⟩ :=
    change.effects.rows mem hs.effects
  · rw [hrows] at hf
    obtain ⟨e, he, rfl⟩ := List.mem_map.mp hf
    exact hidle e he (Effect.pending_eq_true.mpr ((hg e he).pending hpending))
  · rw [hrows] at hf
    rcases List.mem_append.mp hf with hf | hf
    · obtain ⟨e, he, rfl⟩ := List.mem_map.mp hf
      exact hidle e he (Effect.pending_eq_true.mpr ((hg e he).pending hpending))
    · -- nothing begins: a retained build has no fresh work and is not cleaned up
      obtain rfl := List.mem_singleton.mp hf
      cases hdelete : f.command.isDelete with
      | false =>
        have := (inserted.work hdelete).1
        rw [hstate] at this
        cases this
      | true =>
        cases hcommand : f.command with
        | delete ref =>
          rcases (inserted.delete ref hcommand).1 with h | h <;> rw [hstate] at h <;> cases h
        | _ => rw [hcommand] at hdelete; cases hdelete

/-- Temporary resources that are gone stay gone. -/
theorem Change.temporary (change : Change store log b b') (hs : Sound b) (hr : Resolved b)
    (h : b.temporary = false) : b'.temporary = false := by
  have hchange := change.resources
  rw [ImageBuild.temporary, List.any_eq_false] at h ⊢
  generalize b'.resources = resources at hchange ⊢
  cases hchange with
  | kept => exact h
  | claim row isOpen unclaimed effect memEffect owner pending role kind unverified =>
    exact absurd pending (hr effect memEffect (isDelete_of_creates role))
  | observe row memRow isOpen state known final =>
    intro other hother hlive
    rcases (hs.resources.keyed.mem_update memRow).mp hother with rfl | ⟨hother, -⟩
    · rw [Bool.and_eq_true, decide_eq_true_eq] at hlive
      have hrow := h row memRow
      rw [Bool.and_eq_true, decide_eq_true_eq, not_and, Bool.not_eq_true] at hrow
      have hgone := hrow hlive.1
      have hsame : ({ row with state } : Resource).live = false := by
        rw [final hgone]
        exact hgone
      rw [hsame] at hlive
      exact absurd hlive.2 (by simp)
    · exact h other hother hlive

theorem stage_pos {state : ImageBuildState} (h : state ≠ .running) : 1 ≤ state.stage := by
  cases state <;> simp_all [ImageBuildState.stage]

/-- **Step lemma.** -/
theorem PublicationSound.change (h : PublicationSound log b) (change : Change store log b b')
    (mem : b ∈ store.builds) (hs : Sound b) : PublicationSound log b' := by
  -- what the evidence told before, it tells now
  have htold : ∀ p, b.publication = some p → History b' p.evidence ∧ Resolved b' := by
    intro p hp
    obtain ⟨hhistory, hresolved, hpast⟩ := h.told p hp
    exact ⟨hhistory.keep change mem hs hresolved, change.resolved mem hs hpast hresolved⟩
  cases change.progressed with
  | still state publication access =>
    refine ⟨fun p hp => ?_, fun p r hp hr => ?_, fun since hsince => ?_, fun hremoved => ?_⟩
    · rw [publication] at hp
      rw [state]
      exact ⟨(htold p hp).1, (htold p hp).2, (h.told p hp).2.2⟩
    · rw [publication] at hp
      rw [state, access]
      obtain ⟨hstage, hevidence, hchecked, haccess, htemporary⟩ := h.signed p r hp hr
      exact ⟨hstage, hevidence, hchecked, haccess, change.temporary hs (h.told p hp).2.1 htemporary⟩
    · rw [state] at hsince
      rw [publication]
      obtain ⟨hrelease, hidle⟩ := h.retained since hsince
      exact ⟨hrelease, change.idle mem hs hsince hidle⟩
    · rw [access] at hremoved
      rw [change.id]
      exact h.removed hremoved
  | evidence evidence fresh running active expected idle ordered eq =>
    have hresolved : Resolved b := .of_idle idle
    subst eq
    refine ⟨fun p hp => ?_, fun p r hp hr => ?_, fun since hsince => ?_, h.removed⟩
    · obtain rfl := Option.some.inj hp
      exact ⟨(history_of_expected expected ordered).keep change mem hs hresolved, hresolved,
        by simp⟩
    · obtain rfl := Option.some.inj hp
      cases hr
    · cases hsince
  | release publication release releasable active issued retained eq =>
    have hp' := htold publication releasable.prepared
    subst eq
    refine ⟨fun p hp => ?_, fun p r hp hr => ?_, fun since hsince => ?_, h.removed⟩
    · obtain rfl := Option.some.inj hp
      exact ⟨hp'.1, hp'.2, by simp⟩
    · obtain rfl := Option.some.inj hp
      obtain rfl := Option.some.inj hr
      refine ⟨Nat.le_refl 2, releasable.evidence, releasable.checked, ?_, releasable.absent⟩
      exact Option.isSome_iff_ne_none.mpr releasable.accessRemoved
    · obtain rfl := ImageBuildState.retained.inj hsince
      exact ⟨⟨_, release, rfl, rfl, rfl⟩, releasable.idle⟩
  | cleaning reason early eq =>
    subst eq
    refine ⟨fun p hp => ⟨(htold p hp).1, (htold p hp).2, by simp⟩, fun p r hp hr => ?_,
      fun since hsince => (by cases hsince), h.removed⟩
    obtain ⟨hstage, hrest⟩ := h.signed p r hp hr
    exact ⟨by simp [ImageBuildState.stage], hrest⟩
  | cleaned date cleaning idle absent eq =>
    subst eq
    refine ⟨fun p hp => ⟨(htold p hp).1, (htold p hp).2, by simp⟩, fun p r hp hr => ?_,
      fun since hsince => (by cases hsince), h.removed⟩
    obtain ⟨hstage, hrest⟩ := h.signed p r hp hr
    exact ⟨by simp [ImageBuildState.stage], hrest⟩
  | removed date fresh gone past eq =>
    subst eq
    refine ⟨fun p hp => ⟨(htold p hp).1, (htold p hp).2, past⟩, fun p r hp hr => ?_,
      fun since hsince => h.retained since hsince, fun _ => gone⟩
    obtain ⟨hstage, hevidence, hchecked, -, htemporary⟩ := h.signed p r hp hr
    exact ⟨hstage, hevidence, hchecked, rfl, htemporary⟩

/-! ## What never changes -/

/-- How a publication may go on: the evidence stays, and so does a release. -/
structure PublicationKept (b b' : ImageBuild) : Prop where
  evidence : ∀ p, b.publication = some p →
    ∃ p', b'.publication = some p' ∧ p'.evidence = p.evidence ∧
      ∀ r, p.release = some r → p'.release = some r
  forward : b.state.stage ≤ b'.state.stage
  /-- A build that reached cleaning is never published. -/
  unpublished : 3 ≤ b.state.stage → b'.publication = b.publication

theorem PublicationKept.refl (b : ImageBuild) : PublicationKept b b :=
  ⟨fun p hp => ⟨p, hp, rfl, fun _ h => h⟩, Nat.le_refl _, fun _ => rfl⟩

theorem PublicationKept.trans {a b c : ImageBuild} (h : PublicationKept a b)
    (h' : PublicationKept b c) : PublicationKept a c := by
  refine ⟨fun p hp => ?_, Nat.le_trans h.forward h'.forward, fun hstage => ?_⟩
  · obtain ⟨p', hp', hevidence, hrelease⟩ := h.evidence p hp
    obtain ⟨p'', hp'', hevidence', hrelease'⟩ := h'.evidence p' hp'
    exact ⟨p'', hp'', hevidence'.trans hevidence, fun r hr => hrelease' r (hrelease r hr)⟩
  · exact (h'.unpublished (Nat.le_trans hstage h.forward)).trans (h.unpublished hstage)

theorem Change.publicationKept (change : Change store log b b') : PublicationKept b b' := by
  have hkept : b'.publication = b.publication → b.state.stage ≤ b'.state.stage →
      PublicationKept b b' := fun hpublication hstage =>
    ⟨fun p hp => ⟨p, by rw [hpublication]; exact hp, rfl, fun _ h => h⟩, hstage,
      fun _ => hpublication⟩
  cases change.progressed with
  | still state publication access => exact hkept publication (Nat.le_of_eq (by rw [state]))
  | evidence evidence fresh running active expected idle ordered eq =>
    subst eq
    refine ⟨fun p hp => ?_, by simp [running, ImageBuildState.stage], fun hstage => ?_⟩
    · rw [fresh] at hp
      cases hp
    · rw [running] at hstage
      cases hstage
  | release publication release releasable active issued retained eq =>
    subst eq
    refine ⟨fun p hp => ?_, by simp [releasable.releasing, ImageBuildState.stage],
      fun hstage => ?_⟩
    · rw [releasable.prepared] at hp
      obtain rfl := Option.some.inj hp
      refine ⟨_, rfl, rfl, fun r hr => ?_⟩
      rw [releasable.unsigned] at hr
      cases hr
    · rw [releasable.releasing] at hstage
      simp [ImageBuildState.stage] at hstage
  | cleaning reason early eq =>
    subst eq
    exact hkept rfl (Nat.le_of_lt early)
  | cleaned date cleaning idle absent eq =>
    subst eq
    refine hkept rfl ?_
    rw [stage_of_cleaning cleaning]
    simp [ImageBuildState.stage]
  | removed date fresh gone past eq =>
    subst eq
    exact hkept rfl (Nat.le_refl _)

/-! ## Every run -/

variable {w w' : World interface} {c c' : Plane} {clock : Instant}

def ImageBuild.release? (b : ImageBuild) : Option SignedImageRelease :=
  b.publication.bind Publication.release

/-- How a release comes to be: it is stored over the evidence, together with the retained state. -/
structure Publishes (w : World interface) (b b' : ImageBuild) (publication : Publication)
    (release : SignedImageRelease) : Prop where
  releasable : Releasable b publication release
  /-- What it says is the history of the build, as its rows tell it now. -/
  history : History b release.payload.toImageReleaseEvidence
  active : b.expired w.store.clock = false
  issued : release.payload.issuedAt ≤ w.store.clock ∧
    w.store.clock < publication.evidence.retainUntil
  eq : b' = { b with
    publication := some { publication with release := some release }
    state := .retained release.payload.issuedAt }

/-- What one step adds to the publications. -/
structure Publishing (w w' : World interface) : Prop where
  /-- Evidence that appears is what the rows give, while nothing is pending. -/
  evidence : ∀ b' ∈ w'.store.builds, ∀ p, b'.publication = some p →
    (∀ b, w.store.build b'.id = some b → b.publication = none) →
    ∃ b, w.store.build b'.id = some b ∧ b.state = .running ∧ b.expired w.store.clock = false ∧
      expectedEvidence b = some p.evidence ∧ b.effects.any Effect.pending = false ∧
      p.evidence.ordered ∧ b' = { b with publication := some ⟨p.evidence, none⟩, state := .releasing }
  release : ∀ b' ∈ w'.store.builds, ∀ r, b'.release? = some r →
    (∀ b, w.store.build b'.id = some b → b.release? = none) →
    ∃ b publication, w.store.build b'.id = some b ∧ Publishes w b b' publication r
  retained : ∀ b' ∈ w'.store.builds, ∀ since, b'.state = .retained since →
    (∀ b, w.store.build b'.id = some b → b.state ≠ .retained since) →
    ∃ b publication r, w.store.build b'.id = some b ∧ Publishes w b b' publication r

theorem Progress.publishes {publication : Publication} {release : SignedImageRelease}
    (h : PublicationSound w.log b) (releasable : Releasable b publication release)
    (active : b.expired w.store.clock = false) (issued : release.payload.issuedAt ≤ w.store.clock)
    (retained : w.store.clock < publication.evidence.retainUntil)
    (eq : b' = { b with
      publication := some { publication with release := some release }
      state := .retained release.payload.issuedAt }) : Publishes w b b' publication release := by
  refine ⟨releasable, ?_, active, ⟨issued, retained⟩, eq⟩
  rw [releasable.evidence]
  exact (h.told publication releasable.prepared).1

theorem publishing (h : Valid w) (hp : ∀ b ∈ w.store.builds, PublicationSound w.log b)
    (effect : Discipline.Effect system contract w w') : Publishing w w' := by
  have hmoved := (moved h effect).1
  have hsame : ∀ {b'}, b' ∈ w.store.builds → w.store.build b'.id = some b' := fun hb' =>
    h.keyed.get hb'
  refine ⟨fun b' hb' p hpub hnone => ?_, fun b' hb' r hr hnone => ?_,
    fun b' hb' since hsince hnone => ?_⟩
  · cases hmoved b' hb' with
    | same mem =>
      rw [hnone b' (hsame mem)] at hpub
      cases hpub
    | admitted admission fresh eq =>
      rw [eq] at hpub
      cases hpub
    | changed b here change =>
      have hfresh := hnone b here
      refine ⟨b, here, ?_⟩
      cases change.progressed with
      | still state publication access =>
        rw [publication, hfresh] at hpub
        cases hpub
      | evidence evidence fresh running active expected idle ordered eq =>
        rw [eq] at hpub
        obtain rfl := Option.some.inj hpub
        exact ⟨running, active, expected, idle, ordered, eq⟩
      | release publication release releasable active issued retained eq =>
        rw [releasable.prepared] at hfresh
        cases hfresh
      | cleaning reason early eq =>
        rw [eq, show ({ b with state := .cleaning reason } : ImageBuild).publication =
          b.publication from rfl, hfresh] at hpub
        cases hpub
      | cleaned date cleaning idle absent eq =>
        rw [eq, show ({ b with state := .cleaned date } : ImageBuild).publication =
          b.publication from rfl, hfresh] at hpub
        cases hpub
      | removed date fresh gone past eq =>
        rw [eq, show ({ b with accessRemovedAt := some date } : ImageBuild).publication =
          b.publication from rfl, hfresh] at hpub
        cases hpub
  · cases hmoved b' hb' with
    | same mem =>
      rw [hnone b' (hsame mem)] at hr
      cases hr
    | admitted admission fresh eq =>
      rw [eq] at hr
      cases hr
    | changed b here change =>
      have hfresh := hnone b here
      have hkept : b'.publication = b.publication → False := fun heq => by
        rw [ImageBuild.release?, heq] at hr
        rw [ImageBuild.release?, hr] at hfresh
        cases hfresh
      cases change.progressed with
      | still state publication access => exact (hkept publication).elim
      | evidence evidence fresh running active expected idle ordered eq =>
        rw [eq] at hr
        cases hr
      | release publication release releasable active issued retained eq =>
        have hp := Progress.publishes (hp b (Store.build_mem here)) releasable active issued
          retained eq
        rw [eq] at hr
        obtain rfl := Option.some.inj hr
        exact ⟨b, publication, here, hp⟩
      | cleaning reason early eq => exact (hkept (by rw [eq])).elim
      | cleaned date cleaning idle absent eq => exact (hkept (by rw [eq])).elim
      | removed date fresh gone past eq => exact (hkept (by rw [eq])).elim
  · cases hmoved b' hb' with
    | same mem => exact absurd hsince (hnone b' (hsame mem))
    | admitted admission fresh eq =>
      rw [eq] at hsince
      cases hsince
    | changed b here change =>
      have hfresh := hnone b here
      cases change.progressed with
      | still state publication access => exact absurd (state.symm.trans hsince) hfresh
      | evidence evidence fresh running active expected idle ordered eq =>
        rw [eq] at hsince
        cases hsince
      | release publication release releasable active issued retained eq =>
        exact ⟨b, publication, release, here, Progress.publishes (hp b (Store.build_mem here))
          releasable active issued retained eq⟩
      | cleaning reason early eq =>
        rw [eq] at hsince
        cases hsince
      | cleaned date cleaning idle absent eq =>
        rw [eq] at hsince
        cases hsince
      | removed date fresh gone past eq =>
        rw [eq] at hsince
        exact absurd hsince hfresh

theorem publicationSound (h : system.Reach (.idle (empty clock)) c) :
    ∀ b ∈ c.world.store.builds, PublicationSound c.world.log b :=
  build_invariant PublicationSound.admitted (fun hp new => hp.append new)
    (fun mem hs hp change => hp.change change mem hs) h

/-- **A release is stored once, over evidence that tells the history of its build.**  In every
    reachable configuration, for every step that may come next and for every run from there. -/
theorem publication_integrity (h : system.Reach (.idle (empty clock)) c) :
    (∀ b ∈ c.world.store.builds, PublicationSound c.world.log b) ∧
      (∀ c', system.Step c c' → Publishing c.world c'.world) ∧
      ∀ c', system.Reach c c' → ∀ b ∈ c.world.store.builds,
        ∃ b' ∈ c'.world.store.builds, b'.id = b.id ∧ PublicationKept b b' :=
  ⟨publicationSound h,
    fun _ step => publishing (valid h) (publicationSound h) (discipline.step (inOrder h) step).2,
    fun _ hr => build_transition PublicationKept.refl (fun hab hbc => hab.trans hbc)
      (fun _ _ change => change.publicationKept) (inOrder h) hr⟩

/-- A build whose release is stored. -/
theorem Demo.story_released : ∃ w : World interface, (∀ b ∈ w.store.builds,
    PublicationSound w.log b) ∧ (w.store.build "build").any (fun b => b.release?.isSome) = true := by
  have h : (playAll Demo.story (empty 0)).any (fun w =>
      (w.store.build "build").any fun b => b.release?.isSome) = true := by
    decide +kernel
  obtain ⟨w, hreach, hw⟩ := reach_any h
  exact ⟨w, (publication_integrity (reach_of_limited hreach)).1, hw⟩

end AgentCloud.Images
