/-
  AT MOST ONCE: what the journal promises of everything that was asked of the provider.

  A role has one create, and every attempt is asked for once, so a role's create is asked for once.
  A shutdown or a deletion may be asked for again, as a fresh attempt: `Follows` says what had become
  of the one before it.  All of it is read off one step, on top of the invariant.
-/
import AgentCloud.Images.Runs

namespace AgentCloud.Images

open Checked Durable

/-! ## Creates -/

/-- The labels of the create that a call submits. -/
def Call.creates? : Call → Option ImageBuildLabels
  | submit _ command => command.labels?
  | _ => none

/-- How often the create of a role was asked for. -/
def createSubmissions (log : Log) (buildId : ImageBuildId) (role : ImageResourceRole) : Nat :=
  log.countP fun exchange => exchange.call.creates? = some ⟨buildId, role⟩

theorem Call.submit_of_creates {c : Call} {labels : ImageBuildLabels}
    (h : c.creates? = some labels) :
    ∃ effectId command, c = .submit effectId command ∧ command.labels? = some labels := by
  cases c <;> simp_all [creates?]

variable {w w' : World interface} {c c' : Plane} {clock : Instant}

/-- The create of a role is one effect. -/
theorem Valid.created (h : Valid w) {labels : ImageBuildLabels} {exchange : Exchange interface}
    (hm : exchange ∈ w.log) (hcreates : exchange.call.creates? = some labels) :
    ∃ b ∈ w.store.builds, b.id = labels.buildId ∧ ∃ e ∈ b.effects,
      e.command.labels? = some labels ∧ exchange.call.effect? = some e.id := by
  obtain ⟨effectId, command, hcall, hlabels⟩ := Call.submit_of_creates hcreates
  obtain ⟨b, hb, e, he, rfl, rfl⟩ := h.submitted exchange hm effectId command hcall
  have hname := ((h.sound b hb).effects.create e he labels hlabels).2.1
  exact ⟨b, hb, hname.symm, e, he, hlabels, by rw [hcall]; rfl⟩

theorem Valid.create_once (h : Valid w) (buildId : ImageBuildId) (role : ImageResourceRole) :
    createSubmissions w.log buildId role ≤ 1 := by
  by_cases hnone : createSubmissions w.log buildId role = 0
  · omega
  · obtain ⟨exchange, hm, hcreates⟩ := List.countP_pos_iff.mp (Nat.pos_of_ne_zero hnone)
    obtain ⟨b, hb, hid, e, he, hlabels, -⟩ := h.created hm (of_decide_eq_true hcreates)
    -- whatever else created the role was the same effect
    have hsame : createSubmissions w.log buildId role ≤ submissions w.log e.id := by
      refine List.countP_mono_left fun other hother hcreates' => ?_
      obtain ⟨b', hb', hid', f, hf, hlabels', heffect⟩ :=
        h.created hother (of_decide_eq_true hcreates')
      obtain rfl := h.keyed.unique hb hb' (hid.trans hid'.symm)
      obtain rfl := (h.sound b hb).effects.create_unique he hf hlabels hlabels' rfl
      exact decide_eq_true heffect
    have honce := h.once e.id
    omega

/-! ## Attempts -/

/-- What a fresh shutdown or deletion comes after: the first of its target, or an attempt of the
    same command that failed, or an uncertain one that it supersedes; `effects` is the journal as the
    commit leaves it. -/
def Follows (w : World interface) (b : ImageBuild) (effects : List Effect) (new : Effect) : Prop :=
  ∀ last, (b.history (imageEffectKey new.command)).getLast? = some last →
    last.command = new.command ∧ (last.resolution.failed? = true ∨
      (last.resolution = .pending ∧ Uncertain w.log b.id last ∧
        Table.get Effect.id effects last.id = some (last.supersede new.id)))

/-- What is true of an effect when it appears. -/
structure Appears (w : World interface) (b : ImageBuild) (effects : List Effect) (new : Effect) :
    Prop where
  prepared : new.outcome = .prepared ∧ new.resolution = .pending
  work : new.command.isDelete = false →
    b.state = .running ∧ w.store.clock < b.admission.deadlineAt
  create : new.command.isImageCreate = true → b.history (imageEffectKey new.command) = []
  again : new.command.isImageCreate = false → Follows w b effects new

theorem follows_of_succeeds {b : ImageBuild} {new : Effect} {superseded : Option EffectId}
    (hs : Sound b) (mem : b ∈ w.store.builds)
    (fresh : ∀ other ∈ w.store.builds, other.effect new.id = none)
    (succeeds : Succeeds w.log b new.command superseded) :
    Follows w b (b.prepared new superseded).effects new := by
  intro last here
  cases succeeds with
  | first alone =>
    rw [alone] at here
    cases here
  | again other hother same ended =>
    rw [hother] at here
    obtain rfl := Option.some.inj here
    exact ⟨same, .inl ended⟩
  | delegated other hother same pending unsure =>
    rw [hother] at here
    obtain rfl := Option.some.inj here
    refine ⟨same, .inr ⟨pending, unsure, ?_⟩⟩
    have hmem := (mem_historyOf.mp (List.mem_of_getLast? hother)).1
    have hget : Table.get Effect.id b.effects other.id = some other := hs.effects.keyed.get hmem
    have hrow : Table.get Effect.id (Table.update Effect.id (b.effects ++ [new]) other.id
        fun effect => effect.supersede new.id) other.id =
        (Table.get Effect.id (b.effects ++ [new]) other.id).map fun effect =>
          effect.supersede new.id :=
      Table.get_update_self fun _ => rfl
    rw [Table.get_append, hget] at hrow
    exact hrow

/-- **Step lemma.**  An effect that one change adds. -/
theorem Change.appears {b b' : ImageBuild} (h : Valid w) (mem : b ∈ w.store.builds)
    (change : Change w.store w.log b b') {new : Effect} (hnew : new ∈ b'.effects)
    (hfresh : b.effect new.id = none) : Appears w b b'.effects new := by
  have hs := h.sound b mem
  have hold : ∀ e ∈ b.effects, e.id ≠ new.id := Table.get_eq_none.mp hfresh
  have heffects := change.effects
  generalize b'.effects = effects at hnew heffects ⊢
  -- only a fresh attempt adds a row
  cases heffects with
  | kept => exact absurd rfl (hold new hnew)
  | prepare added superseded fresh unkeyed now base inserted pins retry create =>
    have hid : ∀ id, superseded = some id → added.id ≠ id := fresh_of_retry fresh mem retry create
    rw [ImageBuild.prepared_effects hid] at hnew
    rcases List.mem_append.mp hnew with hnew | hnew
    · rcases mem_supersededRows hnew with hm | ⟨e, he, -, rfl⟩
      · exact absurd rfl (hold new hm)
      · exact absurd rfl (hold e he)
    · obtain rfl := List.mem_singleton.mp hnew
      refine ⟨⟨inserted.prepared, inserted.pending⟩, fun hwork => ?_, fun hcreate => ?_,
        fun hexact => follows_of_succeeds hs mem fresh (retry hexact)⟩
      · obtain ⟨hrunning, hexpired⟩ := inserted.work hwork
        exact ⟨hrunning, by simpa [ImageBuild.expired] using hexpired⟩
      · obtain ⟨labels, hlabels⟩ := Option.isSome_iff_exists.mp hcreate
        rw [ImageBuild.history_eq, List.eq_nil_iff_forall_not_mem]
        intro e he
        obtain ⟨hme, hbase⟩ := mem_historyOf.mp he
        rw [imageEffectKey_create hlabels, hs.effects.base e hme] at hbase
        obtain ⟨labels', hlabels', hrole⟩ := labels?_of_imageEffectKey hbase
        have hkey := (hs.effects.create e hme labels' hlabels').1
        rw [hrole, ← (inserted.create labels hlabels).1] at hkey
        exact unkeyed e hme hkey
  | receipt effect hm here pending isOpen submission =>
    rcases (hs.effects.keyed.mem_update hm).mp hnew with rfl | ⟨hm', -⟩
    · exact absurd rfl (hold effect hm)
    · exact absurd rfl (hold new hm')
  | settle effect hm resolution pending isOpen final recorded =>
    rcases (hs.effects.keyed.mem_update hm).mp hnew with rfl | ⟨hm', -⟩
    · exact absurd rfl (hold effect hm)
    · exact absurd rfl (hold new hm')

/-- What one step adds to the journals and to what was asked. -/
structure Advances (w w' : World interface) : Prop where
  /-- An effect that appears is one of a build, and may appear. -/
  appears : ∀ b' ∈ w'.store.builds, ∀ new ∈ b'.effects,
    (∀ b ∈ w.store.builds, b.effect new.id = none) →
    ∃ b, w.store.build b'.id = some b ∧ Appears w b b'.effects new
  /-- What is submitted was committed, prepared and never submitted. -/
  submitted : ∀ effectId command r,
    w'.log = w.log ++ [⟨.submit effectId command, r⟩] → ∃ b ∈ w.store.builds, ∃ e ∈ b.effects,
      e.id = effectId ∧ e.command = command ∧ e.outcome = .prepared ∧ e.resolution = .pending ∧
        submissions w.log effectId = 0

theorem submitted_of_effect (effect : Discipline.Effect system contract w w') {effectId : EffectId}
    {command : ImageProviderCommand} {r : (Call.submit effectId command).Reply}
    (hlog : w'.log = w.log ++ [⟨.submit effectId command, r⟩]) :
    ∃ b ∈ w.store.builds, ∃ e ∈ b.effects, e.id = effectId ∧ e.command = command ∧
      e.outcome = .prepared ∧ e.resolution = .pending ∧ submissions w.log effectId = 0 := by
  have hlonger : w'.log.length = w.log.length + 1 := by simp [hlog]
  have hrows : w'.log = w.log → False := fun hsame => by
    rw [hsame] at hlonger
    omega
  cases effect with
  | idle => exact (hrows rfl).elim
  | does lock does =>
    cases does with
    | idle => exact (hrows rfl).elim
    | write => exact (hrows rfl).elim
    | attempt => exact (hrows rfl).elim
    | customer => exact (hrows rfl).elim
    | removed => exact (hrows rfl).elim
    | ask call reply quiet =>
      obtain ⟨-, hlast⟩ := List.append_inj' hlog rfl
      have hcall : call = .submit effectId command := congrArg Exchange.call (List.cons.inj hlast).1
      rw [hcall] at quiet
      exact quiet.elim
    | customerSubmit here mem reply =>
      obtain ⟨-, hlast⟩ := List.append_inj' hlog rfl
      have hcall := congrArg Exchange.call (List.cons.inj hlast).1
      cases hcall
    | @submit id w b here e mem prepared pending unasked reply =>
      obtain ⟨-, hlast⟩ := List.append_inj' hlog rfl
      have hcall : Call.submit e.id e.command = .submit effectId command :=
        congrArg Exchange.call (List.cons.inj hlast).1
      obtain ⟨rfl, rfl⟩ := Call.submit.inj hcall
      exact ⟨b, Store.build_mem here, e, mem, rfl, rfl, prepared, pending, unasked⟩
  | other drift => cases drift <;> exact (hrows rfl).elim

theorem advances (h : Valid w) (effect : Discipline.Effect system contract w w') :
    Advances w w' := by
  refine ⟨fun b' hb' new hnew hfresh => ?_, fun effectId command r hlog =>
    submitted_of_effect effect hlog⟩
  cases (moved h effect).1 b' hb' with
  | same mem => exact absurd rfl (Table.get_eq_none.mp (hfresh b' mem) new hnew)
  | changed b here change =>
    have mem := Store.build_mem here
    exact ⟨b, here, change.appears h mem hnew (hfresh b mem)⟩
  | admitted admission fresh eq =>
    rw [eq] at hnew
    cases hnew

/-! ## Every run -/

/-- What holds of the journals and of everything that was asked. -/
structure AtMostOnce (w : World interface) : Prop where
  creates : ∀ buildId role, createSubmissions w.log buildId role ≤ 1
  attempts : ∀ effectId, submissions w.log effectId ≤ 1
  committed : ∀ exchange ∈ w.log, ∀ effectId command, exchange.call = .submit effectId command →
    ∃ b ∈ w.store.builds, ∃ e ∈ b.effects, e.id = effectId ∧ e.command = command
  /-- A target has at most one pending attempt. -/
  pending : ∀ b ∈ w.store.builds, ∀ e ∈ b.effects, ∀ f ∈ b.effects,
    imageEffectKey e.command = imageEffectKey f.command → e.resolution = .pending →
      f.resolution = .pending → e = f

theorem Valid.atMostOnce (h : Valid w) : AtMostOnce w where
  creates := h.create_once
  attempts := h.once
  committed := h.submitted
  pending b hb e he f hf hkey pe pf := by
    have hs := (h.sound b hb).effects
    exact hs.one he hf (by rw [hs.base e he, hs.base f hf, hkey]) pe pf

/-- **Image effects happen at most once.**  In every reachable configuration, and for every step that
    may come next. -/
theorem image_effects_at_most_once (h : system.Reach (.idle (empty clock)) c) :
    AtMostOnce c.world ∧ ∀ c', system.Step c c' → Advances c.world c'.world :=
  ⟨(valid h).atMostOnce, fun _ step => advances (valid h) (discipline.step (inOrder h) step).2⟩

/-- A whole build, whose machines were each asked for once. -/
theorem Demo.story_once : ∃ w : World interface, AtMostOnce w ∧
    createSubmissions w.log "build" .builder = 1 ∧ createSubmissions w.log "build" .verifier = 1 := by
  have h : (playAll Demo.story (empty 0)).any (fun w => decide
      (createSubmissions w.log "build" .builder = 1 ∧
        createSubmissions w.log "build" .verifier = 1)) = true := by
    decide +kernel
  obtain ⟨w, hreach, hw⟩ := reach_any h
  exact ⟨w, (image_effects_at_most_once (reach_of_limited hreach)).1, of_decide_eq_true hw⟩

end AgentCloud.Images
