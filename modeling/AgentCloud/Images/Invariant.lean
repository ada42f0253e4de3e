/-
  THE INVARIANT OF A BUILD.

  `EffectsSound` is about the journal alone: every key names one effect, a create is the only one of
  its role, and a pending effect is the newest of its kind, so that no target has two.  `Sound` adds
  the resources: every one was claimed for a create of its role, and a settled create has left the
  resource that the provider named or showed.

  `Change.sound` carries it over every change.  What a change does to the journal is one of three
  things (`Change.effects`): a fresh attempt, one rewritten row, or nothing.
-/
import AgentCloud.Images.Changes

namespace AgentCloud.Images

open Checked Durable

/-! ## The journal -/

/-- The effects with a base, oldest first. -/
def historyOf (effects : List Effect) (base : EffectBase) : List Effect :=
  effects.filter fun effect => effect.key.base = base

theorem ImageBuild.history_eq (build : ImageBuild) (base : EffectBase) :
    build.history base = historyOf build.effects base := rfl

theorem mem_historyOf {effects : List Effect} {base : EffectBase} {e : Effect} :
    e ∈ historyOf effects base ↔ e ∈ effects ∧ e.key.base = base := by
  simp [historyOf]

theorem historyOf_map {effects : List Effect} {f : Effect → Effect} (base : EffectBase)
    (hf : ∀ e ∈ effects, (f e).key = e.key) :
    historyOf (effects.map f) base = (historyOf effects base).map f := by
  rw [historyOf, historyOf, List.filter_map]
  refine congrArg (List.map f) (List.filter_congr fun row hrow => ?_)
  simp [hf row hrow]

structure EffectsSound (id : ImageBuildId) (effects : List Effect) : Prop where
  keyed : Table.Keyed Effect.id effects
  keys : Table.Keyed Effect.key effects
  base : ∀ e ∈ effects, e.key.base = imageEffectKey e.command
  create : ∀ e ∈ effects, ∀ labels, e.command.labels? = some labels →
    e.key = ⟨.create labels.role, none⟩ ∧ labels.buildId = id ∧
      e.command.creates? = some (imageRoleKind labels.role)
  newest : ∀ e ∈ effects, e.resolution = .pending →
    (historyOf effects e.key.base).getLast? = some e

/-- A rewritten row is the effect that it was; what was recorded of it stays. -/
structure Effect.Rewrite (e f : Effect) : Prop extends e.Same f where
  settled : e.resolution ≠ .pending → f.resolution = e.resolution
  received : e.outcome ≠ .prepared → f.outcome = e.outcome

namespace Effect.Rewrite

theorem refl (e : Effect) : e.Rewrite e := ⟨.refl e, fun _ => rfl, fun _ => rfl⟩

theorem trans {e f g : Effect} (h : e.Rewrite f) (h' : f.Rewrite g) : e.Rewrite g where
  toSame := h.toSame.trans h'.toSame
  settled hsettled := by
    have hf := h.settled hsettled
    exact (h'.settled (by rw [hf]; exact hsettled)).trans hf
  received hreceived := by
    have hf := h.received hreceived
    exact (h'.received (by rw [hf]; exact hreceived)).trans hf

/-- What is settled does not come back to life. -/
theorem pending {e f : Effect} (h : e.Rewrite f) (hf : f.resolution = .pending) :
    e.resolution = .pending := by
  by_contra hne
  exact hne ((h.settled hne).symm.trans hf)

end Effect.Rewrite

namespace EffectsSound

variable {buildId : ImageBuildId} {effects : List Effect}

theorem nil : EffectsSound buildId [] := by
  constructor <;> simp [Table.Keyed]

/-- No target has two pending effects. -/
theorem one (h : EffectsSound buildId effects) {e f : Effect} (he : e ∈ effects) (hf : f ∈ effects)
    (hbase : e.key.base = f.key.base) (pe : e.resolution = .pending)
    (pf : f.resolution = .pending) : e = f := by
  have hlast := h.newest e he pe
  rw [hbase, h.newest f hf pf] at hlast
  exact (Option.some.inj hlast).symm

/-- A role has one create. -/
theorem create_unique (h : EffectsSound buildId effects) {e f : Effect} (he : e ∈ effects)
    (hf : f ∈ effects) {l m : ImageBuildLabels} (hl : e.command.labels? = some l)
    (hm : f.command.labels? = some m) (hrole : l.role = m.role) : e = f := by
  refine h.keys.unique he hf ?_
  rw [(h.create e he l hl).1, (h.create f hf m hm).1, hrole]

/-- Rewriting rows keeps the journal in order. -/
theorem map (h : EffectsSound buildId effects) {f : Effect → Effect}
    (hf : ∀ e ∈ effects, e.Rewrite (f e)) : EffectsSound buildId (effects.map f) where
  keyed := by
    have hids : (effects.map f).map Effect.id = effects.map Effect.id := by
      rw [List.map_map]
      exact List.map_congr_left fun e he => (hf e he).id
    rw [Table.Keyed, hids]
    exact h.keyed
  keys := by
    have hkeys : (effects.map f).map Effect.key = effects.map Effect.key := by
      rw [List.map_map]
      exact List.map_congr_left fun e he => (hf e he).key
    rw [Table.Keyed, hkeys]
    exact h.keys
  base e' he' := by
    obtain ⟨e, he, rfl⟩ := List.mem_map.mp he'
    rw [(hf e he).key, (hf e he).command]
    exact h.base e he
  create e' he' labels hlabels := by
    obtain ⟨e, he, rfl⟩ := List.mem_map.mp he'
    rw [(hf e he).command] at hlabels ⊢
    rw [(hf e he).key]
    exact h.create e he labels hlabels
  newest e' he' hpending := by
    obtain ⟨e, he, rfl⟩ := List.mem_map.mp he'
    have hlast := h.newest e he ((hf e he).pending hpending)
    rw [(hf e he).key, historyOf_map _ fun row hrow => (hf row hrow).key, List.getLast?_map, hlast]
    rfl

/-- Rewriting the row of one identifier. -/
theorem rewrite_one (h : EffectsSound buildId effects) {effect : Effect} (mem : effect ∈ effects)
    {f : Effect → Effect} (hf : effect.Rewrite (f effect)) :
    ∀ e ∈ effects, e.Rewrite (if e.id = effect.id then f e else e) := by
  intro e he
  split
  · next heq =>
    obtain rfl := h.keyed.unique he mem heq
    exact hf
  · exact .refl e

/-- A fresh attempt of a kind of which nothing is pending. -/
theorem append (h : EffectsSound buildId effects) {new : Effect}
    (fresh : ∀ e ∈ effects, e.id ≠ new.id) (unkeyed : ∀ e ∈ effects, e.key ≠ new.key)
    (base : new.key.base = imageEffectKey new.command)
    (create : ∀ labels, new.command.labels? = some labels →
      new.key = ⟨.create labels.role, none⟩ ∧ labels.buildId = buildId ∧
        new.command.creates? = some (imageRoleKind labels.role))
    (idle : ∀ e ∈ effects, e.key.base = new.key.base → e.resolution ≠ .pending) :
    EffectsSound buildId (effects ++ [new]) where
  keyed := h.keyed.insert (Table.get_eq_none.mpr fresh)
  keys := h.keys.insert (Table.get_eq_none.mpr unkeyed)
  base e he := by
    rcases List.mem_append.mp he with he | he
    · exact h.base e he
    · obtain rfl := List.mem_singleton.mp he
      exact base
  create e he := by
    rcases List.mem_append.mp he with he | he
    · exact h.create e he
    · obtain rfl := List.mem_singleton.mp he
      exact create
  newest e he hpending := by
    rcases List.mem_append.mp he with he | he
    · have hne : e.key.base ≠ new.key.base := fun heq => idle e he heq hpending
      have hhistory : historyOf (effects ++ [new]) e.key.base = historyOf effects e.key.base := by
        simp [historyOf, List.filter_append, Ne.symm hne]
      rw [hhistory]
      exact h.newest e he hpending
    · obtain rfl := List.mem_singleton.mp he
      simp [historyOf, List.filter_append]

end EffectsSound

/-! ## Fresh attempts -/

/-- The rows that were there before a fresh attempt; the one it replaces is superseded. -/
def supersededRows (effects : List Effect) (superseded : Option EffectId) (id : EffectId) :
    List Effect :=
  match superseded with
  | none => effects
  | some old => Table.update Effect.id effects old fun effect => effect.supersede id

/-- The fresh attempt comes after the rows that were there. -/
theorem ImageBuild.prepared_effects {build : ImageBuild} {new : Effect}
    {superseded : Option EffectId}
    (fresh : ∀ id, superseded = some id → new.id ≠ id) :
    (build.prepared new superseded).effects =
      supersededRows build.effects superseded new.id ++ [new] := by
  cases superseded with
  | none => rfl
  | some id => simp [ImageBuild.prepared, supersededRows, Table.update, fresh id rfl]

theorem mem_supersededRows {effects : List Effect} {superseded : Option EffectId} {id : EffectId}
    {f : Effect} (h : f ∈ supersededRows effects superseded id) :
    f ∈ effects ∨ ∃ e ∈ effects, superseded = some e.id ∧ f = e.supersede id := by
  cases superseded with
  | none => exact .inl h
  | some old =>
    obtain ⟨e, he, rfl⟩ := Table.mem_update h
    split
    · next heq => exact .inr ⟨e, he, by rw [heq], rfl⟩
    · exact .inl he

/-- The rows that were there are rewritten, if what is superseded is pending. -/
theorem supersededRows_rewrite {effects : List Effect} {superseded : Option EffectId}
    (id : EffectId)
    (pending : ∀ e ∈ effects, superseded = some e.id → e.resolution = .pending) :
    ∃ f : Effect → Effect, (∀ e ∈ effects, e.Rewrite (f e)) ∧
      supersededRows effects superseded id = effects.map f := by
  cases superseded with
  | none => exact ⟨fun e => e, fun e _ => .refl e, (List.map_id' effects).symm⟩
  | some old =>
    refine ⟨fun e => if e.id = old then e.supersede id else e, fun e he => ?_, rfl⟩
    show e.Rewrite (if e.id = old then e.supersede id else e)
    split
    · next heq =>
      have hpending := pending e he (by rw [heq])
      exact ⟨⟨rfl, rfl, rfl, rfl⟩, fun hne => absurd hpending hne, fun _ => rfl⟩
    · exact .refl e

/-! ## What a change does to the journal -/

variable {store : Store} {log : Log} {build build' : ImageBuild}

/-- What the guards of an insert let through. -/
structure Inserted (store : Store) (build : ImageBuild) (new : Effect) : Prop where
  prepared : new.outcome = .prepared
  pending : new.resolution = .pending
  isOpen : build.state.cleaned? = false
  work : new.command.isDelete = false →
    build.state = .running ∧ build.expired store.clock = false
  create : ∀ labels, new.command.labels? = some labels →
    new.key = ⟨.create labels.role, none⟩ ∧ labels.buildId = build.id ∧
      new.command.creates? = some (imageRoleKind labels.role) ∧
      build.effects.any Effect.pending = false
  delete : ∀ ref, new.command = .delete ref →
    (build.state = .releasing ∨ build.state.cleaning? = true) ∧
      (build.state = .releasing → ref.kind ≠ .snapshot) ∧
      (build.resource ref).any Resource.live = true

theorem guardImageBuildEffect_ok {new : Effect}
    (h : guardImageBuildEffect store.clock build new = .ok ()) : Inserted store build new := by
  simp only [guardImageBuildEffect, bind_ok_iff, refuse_ok_iff, not_or, not_not, ne_eq, not_and,
    Bool.not_eq_true] at h
  obtain ⟨_, hopen, _, ⟨hprepared, hpending⟩, _, hwork, _, hcreate, hdelete⟩ := h
  refine ⟨hprepared, hpending, hopen, fun hdel => ?_, fun labels hlabels => ?_, fun ref href => ?_⟩
  · exact hwork hdel
  · simp only [guardCreate, hlabels, bind_ok_iff, refuse_ok_iff, not_or, not_not, ne_eq,
      Bool.not_eq_true] at hcreate
    obtain ⟨_, ⟨hkind, hkey, hid⟩, hidle⟩ := hcreate
    exact ⟨hkey, hid, hkind, hidle⟩
  · simp only [guardDelete, href, bind_ok_iff, refuse_ok_iff, not_and, Bool.not_eq_false,
      ne_eq] at hdelete
    obtain ⟨_, hstate, _, hsnapshot, hlive⟩ := hdelete
    refine ⟨?_, hsnapshot, hlive⟩
    by_cases hreleasing : build.state = .releasing
    · exact .inl hreleasing
    · exact .inr (hstate hreleasing)

/-- What one transaction does to the effects of a build. -/
inductive EffectsChange (store : Store) (log : Log) (build : ImageBuild) : List Effect → Prop where
  | kept : EffectsChange store log build build.effects
  | prepare (new : Effect) (superseded : Option EffectId)
      (fresh : ∀ other ∈ store.builds, other.effect new.id = none)
      (unkeyed : ∀ effect ∈ build.effects, effect.key ≠ new.key)
      (now : new.createdAt = store.clock)
      (base : new.key.base = imageEffectKey new.command)
      (inserted : Inserted store build new)
      (pins : guardSnapshotPins store build new = .ok ())
      (retry : new.command.isImageCreate = false → Succeeds log build new.command superseded)
      (create : new.command.isImageCreate = true → superseded = none)
      (evidence : guardImageSnapshotEvidence build new = .ok ()) :
      EffectsChange store log build (build.prepared new superseded).effects
  | receipt (effect : Effect) (mem : effect ∈ build.effects) (here : effect.outcome = .prepared)
      (pending : effect.resolution = .pending) (isOpen : build.state.cleaned? = false)
      (submission : ImageSubmission) :
      EffectsChange store log build (Table.update Effect.id build.effects effect.id fun row =>
        { row with outcome := .received submission })
  | settle (effect : Effect) (mem : effect ∈ build.effects) (resolution : ImageEffectResolution)
      (pending : effect.resolution = .pending ∨ resolution = effect.resolution)
      (isOpen : build.state.cleaned? = false)
      (final : resolution.confirmed? = true ∨ resolution.failed? = true)
      (recorded : Recorded build effect resolution) :
      EffectsChange store log build (Table.update Effect.id build.effects effect.id fun row =>
        { row with resolution := resolution })

theorem updateImageBuild_effects {now : Instant} {f : ImageBuild → ImageBuild}
    (hf : (f build).effects = build.effects) (h : updateImageBuild now build f = .ok build') :
    build'.effects = build.effects := by
  rw [(updateImageBuild_ok h).2.2]
  exact hf

theorem ImageBuild.requested_effects (reason : CleanupReason) :
    (build.requested reason).effects = build.effects := by
  unfold ImageBuild.requested
  split <;> rfl

theorem Change.effects (change : Change store log build build') :
    EffectsChange store log build build'.effects := by
  have hkept : build'.effects = build.effects → EffectsChange store log build build'.effects := by
    intro heq
    rw [heq]
    exact .kept
  cases change with
  | prepare new superseded fresh unkeyed now base guarded evidence pins retry create =>
    exact .prepare new superseded fresh unkeyed now base (guardImageBuildEffect_ok guarded) pins
      (fun h => (retry h).2) create evidence
  | receipt effect mem here pending isOpen submission =>
    exact .receipt effect mem here pending isOpen submission
  | settle effect mem resolution pending isOpen final recorded =>
    exact .settle effect mem resolution pending isOpen final recorded
  | claim => exact .kept
  | observe => exact .kept
  | work effectId serverId written => exact hkept (by rw [(insertBuilderWork_ok written).2])
  | progress next written =>
    refine hkept ?_
    rcases updateBuilderWork_ok written with heq | ⟨work, -, -, heq⟩ <;> rw [heq]
  | verification date write written => exact hkept (VerificationWrite.apply_ok written).effects
  | evidence evidence written releasing =>
    have hreleasing := updateImageBuild_effects rfl releasing
    rw [(insertPublication_ok written).2.2.2.2.2.2] at hreleasing
    exact hkept hreleasing
  | release release written retained =>
    have hretained := updateImageBuild_effects rfl retained
    rcases updatePublication_ok written with ⟨-, heq⟩ | ⟨publication, -, -, -, -, heq⟩ <;>
      exact hkept (by rw [hretained, heq])
  | cleaned date written => exact hkept (updateImageBuild_effects rfl written)
  | cleaning reason written =>
    exact hkept (updateImageBuild_effects (ImageBuild.requested_effects reason) written)
  | runRequested written => exact hkept (updateImageBuild_effects rfl written)
  | accessRemoved gone written => exact hkept (updateImageBuild_effects rfl written)

/-- Nothing of the kind is pending once the predecessor is superseded. -/
theorem idle_of_succeeds {command : ImageProviderCommand} {superseded : Option EffectId}
    {id : EffectId} (h : EffectsSound build.id build.effects)
    (succeeds : Succeeds log build command superseded) :
    ∀ e ∈ supersededRows build.effects superseded id,
      e.key.base = imageEffectKey command → e.resolution ≠ .pending := by
  intro e he hbase hpending
  cases succeeds with
  | first alone =>
    have hlast := h.newest e he hpending
    rw [hbase, ← ImageBuild.history_eq, alone] at hlast
    cases hlast
  | again last here same ended =>
    have hlast := h.newest e he hpending
    rw [hbase, ← ImageBuild.history_eq, here] at hlast
    rw [Option.some.inj hlast, hpending] at ended
    cases ended
  | delegated last here same pending unsure =>
    obtain ⟨old, hold, rfl⟩ := Table.mem_update he
    split at hpending
    · simp [Effect.supersede] at hpending
    · next hne =>
      rw [if_neg hne] at hbase
      have hlast := h.newest old hold hpending
      rw [hbase, ← ImageBuild.history_eq, here] at hlast
      exact hne (congrArg Effect.id (Option.some.inj hlast)).symm

/-- What a fresh attempt supersedes is pending. -/
theorem pending_of_succeeds {command : ImageProviderCommand} {superseded : Option EffectId}
    (h : EffectsSound build.id build.effects)
    (succeeds : Succeeds log build command superseded) :
    ∀ e ∈ build.effects, superseded = some e.id → e.resolution = .pending := by
  intro e he hid
  cases succeeds with
  | first => cases hid
  | again => cases hid
  | delegated last here same pending unsure =>
    have hmem := (mem_historyOf.mp (List.mem_of_getLast? here)).1
    obtain rfl := h.keyed.unique he hmem (Option.some.inj hid).symm
    exact pending

/-- What a fresh attempt supersedes is an attempt of the same command. -/
theorem command_of_succeeds {command : ImageProviderCommand} {superseded : Option EffectId}
    (h : EffectsSound build.id build.effects)
    (succeeds : Succeeds log build command superseded) :
    ∀ e ∈ build.effects, superseded = some e.id → e.command = command := by
  intro e he hid
  cases succeeds with
  | first => cases hid
  | again => cases hid
  | delegated last here same pending unsure =>
    have hmem := (mem_historyOf.mp (List.mem_of_getLast? here)).1
    obtain rfl := h.keyed.unique he hmem (Option.some.inj hid).symm
    exact same

/-- A fresh attempt does not supersede itself. -/
theorem fresh_of_retry {new : Effect} {superseded : Option EffectId}
    (fresh : ∀ other ∈ store.builds, other.effect new.id = none) (mem : build ∈ store.builds)
    (retry : new.command.isImageCreate = false → Succeeds log build new.command superseded)
    (create : new.command.isImageCreate = true → superseded = none) :
    ∀ id, superseded = some id → new.id ≠ id := by
  rintro id rfl heq
  cases hcreate : new.command.isImageCreate with
  | true => cases create hcreate
  | false =>
    cases retry hcreate with
    | delegated last here same pending unsure =>
      have hmem := (mem_historyOf.mp (List.mem_of_getLast? here)).1
      exact Table.get_eq_none.mp (fresh build mem) last hmem heq.symm

/-- The rows of a build after a change: those that were there, rewritten, and at most one fresh
    attempt. -/
theorem EffectsChange.rows {effects : List Effect}
    (change : EffectsChange store log build effects) (mem : build ∈ store.builds)
    (h : EffectsSound build.id build.effects) :
    ∃ f : Effect → Effect, (∀ e ∈ build.effects, e.Rewrite (f e)) ∧
      (effects = build.effects.map f ∨ ∃ new superseded,
        effects = build.effects.map f ++ [new] ∧
        (∀ other ∈ store.builds, other.effect new.id = none) ∧
        (∀ effect ∈ build.effects, effect.key ≠ new.key) ∧
        new.createdAt = store.clock ∧ new.key.base = imageEffectKey new.command ∧
        Inserted store build new ∧ guardSnapshotPins store build new = .ok () ∧
        (new.command.isImageCreate = false → Succeeds log build new.command superseded) ∧
        (new.command.isImageCreate = true → superseded = none) ∧
        build.effects.map f = supersededRows build.effects superseded new.id) := by
  cases change with
  | kept => exact ⟨fun e => e, fun e _ => .refl e, .inl (List.map_id' _).symm⟩
  | prepare new superseded fresh unkeyed now base inserted pins retry create =>
    have hpending : ∀ e ∈ build.effects, superseded = some e.id → e.resolution = .pending := by
      cases hcreate : new.command.isImageCreate with
      | true => simp [create hcreate]
      | false => exact pending_of_succeeds h (retry hcreate)
    have hold : ∀ id, superseded = some id → new.id ≠ id := fresh_of_retry fresh mem retry create
    obtain ⟨f, hf, hrows⟩ := supersededRows_rewrite new.id hpending
    refine ⟨f, hf, .inr ⟨new, superseded, ?_, fresh, unkeyed, now, base, inserted, pins, retry,
      create, hrows.symm⟩⟩
    rw [ImageBuild.prepared_effects hold, hrows]
  | receipt effect memEffect here pending isOpen submission =>
    exact ⟨_, h.rewrite_one memEffect ⟨⟨rfl, rfl, rfl, rfl⟩, fun _ => rfl, fun hne => absurd here hne⟩,
      .inl rfl⟩
  | settle effect memEffect resolution pending isOpen final recorded =>
    exact ⟨_, h.rewrite_one memEffect ⟨⟨rfl, rfl, rfl, rfl⟩, fun hne => pending.resolve_left hne,
      fun _ => rfl⟩, .inl rfl⟩

theorem EffectsChange.sound {effects : List Effect}
    (change : EffectsChange store log build effects) (mem : build ∈ store.builds)
    (h : EffectsSound build.id build.effects) : EffectsSound build.id effects := by
  obtain ⟨f, hf, rfl | ⟨new, superseded, rfl, fresh, unkeyed, -, base, inserted, -, retry, create,
    hrows⟩⟩ := change.rows mem h
  · exact h.map hf
  have hidle : ∀ e ∈ supersededRows build.effects superseded new.id,
      e.key.base = new.key.base → e.resolution ≠ .pending := by
    rw [base]
    cases hcreate : new.command.isImageCreate with
    | false => exact idle_of_succeeds h (retry hcreate)
    | true =>
      obtain rfl := create hcreate
      obtain ⟨labels, hlabels⟩ := Option.isSome_iff_exists.mp hcreate
      have hnone := (inserted.create labels hlabels).2.2.2
      intro e he _ hpending
      have := List.any_eq_false.mp hnone e he
      exact this (Effect.pending_eq_true.mpr hpending)
  rw [← hrows] at hidle
  refine (h.map hf).append (fun e' he' => ?_) (fun e' he' => ?_) base
    (fun labels hlabels => ?_) hidle
  · obtain ⟨e, he, rfl⟩ := List.mem_map.mp he'
    rw [(hf e he).id]
    exact Table.get_eq_none.mp (fresh build mem) e he
  · obtain ⟨e, he, rfl⟩ := List.mem_map.mp he'
    rw [(hf e he).key]
    exact unkeyed e he
  · obtain ⟨hkey, hid, hkind, -⟩ := inserted.create labels hlabels
    exact ⟨hkey, hid, hkind⟩

/-- Every effect stays, as what it was. -/
theorem EffectsChange.kept_rows {effects : List Effect}
    (change : EffectsChange store log build effects) (mem : build ∈ store.builds)
    (h : EffectsSound build.id build.effects) :
    ∀ e ∈ build.effects, ∃ f ∈ effects, e.Rewrite f := by
  intro e he
  obtain ⟨f, hf, rfl | ⟨new, superseded, rfl, -⟩⟩ := change.rows mem h
  · exact ⟨f e, List.mem_map_of_mem he, hf e he⟩
  · exact ⟨f e, List.mem_append_left _ (List.mem_map_of_mem he), hf e he⟩

/-- Every effect was there before, or is a fresh one. -/
theorem EffectsChange.old {effects : List Effect} (change : EffectsChange store log build effects)
    (mem : build ∈ store.builds) (h : EffectsSound build.id build.effects) :
    ∀ f ∈ effects, (∃ e ∈ build.effects, f.id = e.id) ∨
      ∀ other ∈ store.builds, other.effect f.id = none := by
  intro f hf
  obtain ⟨g, hg, rfl | ⟨new, superseded, rfl, fresh, -⟩⟩ := change.rows mem h
  · obtain ⟨e, he, rfl⟩ := List.mem_map.mp hf
    exact .inl ⟨e, he, (hg e he).id⟩
  · rcases List.mem_append.mp hf with hf | hf
    · obtain ⟨e, he, rfl⟩ := List.mem_map.mp hf
      exact .inl ⟨e, he, (hg e he).id⟩
    · obtain rfl := List.mem_singleton.mp hf
      exact .inr fresh

/-! ## What a change does to the resources -/

/-- Some transaction of the build has seen the row go. -/
inductive ResourcesChange (store : Store) (build : ImageBuild) : List Resource → Prop where
  | kept : ResourcesChange store build build.resources
  | claim (row : Resource) (isOpen : build.state.cleaned? = false)
      (unclaimed : ∀ other ∈ store.builds, other.resource row.ref = none)
      (effect : Effect) (mem : effect ∈ build.effects) (owner : effect.id = row.effectId)
      (pending : effect.resolution = .pending)
      (role : effect.command.labels?.map ImageBuildLabels.role = some row.role)
      (kind : imageRoleKind row.role = row.ref.kind) (unverified : row.state = .unverified) :
      ResourcesChange store build (build.resources ++ [row])
  | observe (row : Resource) (mem : row ∈ build.resources) (isOpen : build.state.cleaned? = false)
      (state : ImageResourceState) (known : state ≠ .unverified)
      (final : row.live = false → state = row.state)
      (watched : row.ref.kind = .snapshot → build.Watched) :
      ResourcesChange store build
        (Table.update Resource.ref build.resources row.ref fun other => { other with state })

theorem updateImageBuild_resources {now : Instant} {f : ImageBuild → ImageBuild}
    (hf : (f build).resources = build.resources) (h : updateImageBuild now build f = .ok build') :
    build'.resources = build.resources := by
  rw [(updateImageBuild_ok h).2.2]
  exact hf

theorem ImageBuild.requested_resources (reason : CleanupReason) :
    (build.requested reason).resources = build.resources := by
  unfold ImageBuild.requested
  split <;> rfl

theorem ImageBuild.prepared_resources (new : Effect) (superseded : Option EffectId) :
    (build.prepared new superseded).resources = build.resources := by
  cases superseded <;> rfl

theorem Change.resources (change : Change store log build build') :
    ResourcesChange store build build'.resources := by
  have hkept : build'.resources = build.resources →
      ResourcesChange store build build'.resources := by
    intro heq
    rw [heq]
    exact .kept
  cases change with
  | prepare new superseded => exact hkept (ImageBuild.prepared_resources new superseded)
  | receipt => exact .kept
  | settle => exact .kept
  | claim row isOpen unclaimed effect mem owner pending role kind unverified =>
    exact .claim row isOpen unclaimed effect mem owner pending role kind unverified
  | observe row mem isOpen state known final own watched =>
    exact .observe row mem isOpen state known final watched
  | work effectId serverId written => exact hkept (by rw [(insertBuilderWork_ok written).2])
  | progress next written =>
    refine hkept ?_
    rcases updateBuilderWork_ok written with heq | ⟨work, -, -, heq⟩ <;> rw [heq]
  | verification date write written => exact hkept (VerificationWrite.apply_ok written).resources
  | evidence evidence written releasing =>
    have hreleasing := updateImageBuild_resources rfl releasing
    rw [(insertPublication_ok written).2.2.2.2.2.2] at hreleasing
    exact hkept hreleasing
  | release release written retained =>
    have hretained := updateImageBuild_resources rfl retained
    rcases updatePublication_ok written with ⟨-, heq⟩ | ⟨publication, -, -, -, -, heq⟩ <;>
      exact hkept (by rw [hretained, heq])
  | cleaned date written => exact hkept (updateImageBuild_resources rfl written)
  | cleaning reason written =>
    exact hkept (updateImageBuild_resources (ImageBuild.requested_resources reason) written)
  | runRequested written => exact hkept (updateImageBuild_resources rfl written)
  | accessRemoved gone written => exact hkept (updateImageBuild_resources rfl written)

structure ResourcesSound (effects : List Effect) (resources : List Resource) : Prop where
  keyed : Table.Keyed Resource.ref resources
  owner : ∀ row ∈ resources, ∃ e ∈ effects,
    e.id = row.effectId ∧ e.command.labels?.map ImageBuildLabels.role = some row.role
  kind : ∀ row ∈ resources, imageRoleKind row.role = row.ref.kind

/-- Every row stays, under the same owner, and what is gone stays gone. -/
structure ResourcesKept (old new : List Resource) : Prop where
  kept : ∀ row ∈ old, ∃ row' ∈ new, row'.ref = row.ref ∧ row'.role = row.role ∧
    row'.effectId = row.effectId ∧ (row.live = false → row'.state = row.state)

theorem ResourcesKept.refl (rows : List Resource) : ResourcesKept rows rows :=
  ⟨fun row hrow => ⟨row, hrow, rfl, rfl, rfl, fun _ => rfl⟩⟩

theorem ResourcesKept.trans {a b c : List Resource} (h : ResourcesKept a b)
    (h' : ResourcesKept b c) : ResourcesKept a c := by
  refine ⟨fun row hrow => ?_⟩
  obtain ⟨r, hr, href, hrole, howner, hgone⟩ := h.kept row hrow
  obtain ⟨s, hs, href', hrole', howner', hgone'⟩ := h'.kept r hr
  refine ⟨s, hs, href'.trans href, hrole'.trans hrole, howner'.trans howner, fun hl => ?_⟩
  have hstate := hgone hl
  have hr' : r.live = false := by rw [Resource.live, hstate]; exact hl
  exact (hgone' hr').trans hstate

theorem ResourcesChange.kept_rows {resources : List Resource}
    (change : ResourcesChange store build resources)
    (hkeyed : Table.Keyed Resource.ref build.resources) :
    ResourcesKept build.resources resources := by
  cases change with
  | kept => exact .refl build.resources
  | claim row =>
    exact ⟨fun row hrow => ⟨row, List.mem_append_left _ hrow, rfl, rfl, rfl, fun _ => rfl⟩⟩
  | observe row mem isOpen state known final =>
    refine ⟨fun other hother => ?_⟩
    by_cases href : other.ref = row.ref
    · obtain rfl := hkeyed.unique hother mem href
      exact ⟨{ other with state }, (hkeyed.mem_update mem).mpr (.inl rfl), rfl, rfl, rfl, final⟩
    · exact ⟨other, (hkeyed.mem_update mem).mpr (.inr ⟨hother, href⟩), rfl, rfl, rfl,
        fun _ => rfl⟩

/-! ## The invariant -/

structure Sound (build : ImageBuild) : Prop where
  effects : EffectsSound build.id build.effects
  resources : ResourcesSound build.effects build.resources
  settled : ∀ e ∈ build.effects, e.resolution ≠ .pending → Recorded build e e.resolution

theorem Sound.admitted (admission : ImageBuildAdmission) : Sound (.admitted admission) where
  effects := .nil
  resources := ⟨Table.Keyed.nil, by simp [ImageBuild.admitted], by simp [ImageBuild.admitted]⟩
  settled := by simp [ImageBuild.admitted]

/-- What was recorded of an effect is still on record. -/
theorem Recorded.keep {effect other : Effect} {resolution : ImageEffectResolution}
    (h : Recorded build effect resolution) (id : other.id = effect.id)
    (command : other.command = effect.command) (outcome : other.outcome = effect.outcome)
    (resources : ResourcesKept build.resources build'.resources) :
    Recorded build' other resolution := by
  refine ⟨fun hcreate ref href => ?_, fun hcreate hconfirmed => ?_, fun hcreate hfailed => ?_⟩
  · rw [command] at hcreate
    rw [outcome] at href
    obtain ⟨row, hrow, href, howner⟩ := h.receipt hcreate ref href
    obtain ⟨row', hrow', hrefs, -, howners, -⟩ := resources.kept row hrow
    exact ⟨row', hrow', hrefs.trans href, (howners.trans howner).trans id.symm⟩
  · rw [command] at hcreate
    obtain ⟨row, hrow, howner⟩ := h.confirmed hcreate hconfirmed
    obtain ⟨row', hrow', -, -, howners, -⟩ := resources.kept row hrow
    exact ⟨row', hrow', (howners.trans howner).trans id.symm⟩
  · rw [command] at hcreate
    rw [outcome]
    exact h.failed hcreate hfailed

/-- A settled effect was settled before, or this change recorded what it left; apart from the exact
    effects that are superseded. -/
theorem EffectsChange.settled {effects : List Effect}
    (change : EffectsChange store log build effects) (mem : build ∈ store.builds)
    (h : EffectsSound build.id build.effects) :
    ∀ f ∈ effects, f.resolution ≠ .pending → f.command.isImageCreate = false ∨
      ∃ e ∈ build.effects, f.id = e.id ∧ f.command = e.command ∧ f.outcome = e.outcome ∧
        ((e.resolution ≠ .pending → Recorded build e e.resolution) →
          Recorded build e f.resolution) := by
  intro f hf hsettled
  have hsame : f ∈ build.effects → ∃ e ∈ build.effects, f.id = e.id ∧ f.command = e.command ∧
      f.outcome = e.outcome ∧ ((e.resolution ≠ .pending → Recorded build e e.resolution) →
        Recorded build e f.resolution) :=
    fun hm => ⟨f, hm, rfl, rfl, rfl, fun hrecorded => hrecorded hsettled⟩
  cases change with
  | kept => exact .inr (hsame hf)
  | prepare new superseded fresh unkeyed now base inserted pins retry create =>
    cases hcreate : f.command.isImageCreate with
    | false => exact .inl rfl
    | true =>
      right
      refine hsame ?_
      have hold : ∀ id, superseded = some id → new.id ≠ id := fresh_of_retry fresh mem retry create
      rw [ImageBuild.prepared_effects hold] at hf
      rcases List.mem_append.mp hf with hf | hf
      · rcases mem_supersededRows hf with hm | ⟨e, he, rfl, rfl⟩
        · exact hm
        · -- only an exact effect is ever superseded
          exfalso
          cases hnew : new.command.isImageCreate with
          | true => cases create hnew
          | false =>
            have hcommand : e.command = new.command := command_of_succeeds h (retry hnew) e he rfl
            rw [Effect.supersede, hcommand, hnew] at hcreate
            cases hcreate
      · obtain rfl := List.mem_singleton.mp hf
        exact absurd inserted.pending hsettled
  | receipt effect memEffect here pending isOpen submission =>
    rcases (h.keyed.mem_update memEffect).mp hf with rfl | ⟨hm, -⟩
    · exact absurd pending hsettled
    · exact .inr (hsame hm)
  | settle effect memEffect resolution pending isOpen final recorded =>
    rcases (h.keyed.mem_update memEffect).mp hf with rfl | ⟨hm, -⟩
    · exact .inr ⟨effect, memEffect, rfl, rfl, rfl, fun _ => recorded⟩
    · exact .inr (hsame hm)

theorem ResourcesChange.sound {effects : List Effect} {resources : List Resource}
    (change : ResourcesChange store build resources) (mem : build ∈ store.builds)
    (kept : ∀ e ∈ build.effects, ∃ f ∈ effects, e.Rewrite f)
    (h : ResourcesSound build.effects build.resources) : ResourcesSound effects resources := by
  have howner : ∀ e ∈ build.effects, ∀ row : Resource, e.id = row.effectId →
      e.command.labels?.map ImageBuildLabels.role = some row.role →
      ∃ f ∈ effects, f.id = row.effectId ∧
        f.command.labels?.map ImageBuildLabels.role = some row.role := by
    intro e he row hid hrole
    obtain ⟨f, hf, hsame⟩ := kept e he
    exact ⟨f, hf, hsame.id.trans hid, by rw [hsame.command]; exact hrole⟩
  have hold : ∀ row ∈ build.resources, ∃ f ∈ effects, f.id = row.effectId ∧
      f.command.labels?.map ImageBuildLabels.role = some row.role := by
    intro row hrow
    obtain ⟨e, he, hid, hrole⟩ := h.owner row hrow
    exact howner e he row hid hrole
  cases change with
  | kept => exact ⟨h.keyed, hold, h.kind⟩
  | claim row isOpen unclaimed effect memEffect owner pending role kind unverified =>
    refine ⟨h.keyed.insert (unclaimed build mem), fun other hother => ?_, fun other hother => ?_⟩
    · rcases List.mem_append.mp hother with hother | hother
      · exact hold other hother
      · obtain rfl := List.mem_singleton.mp hother
        exact howner effect memEffect other owner role
    · rcases List.mem_append.mp hother with hother | hother
      · exact h.kind other hother
      · obtain rfl := List.mem_singleton.mp hother
        exact kind
  | observe row memRow isOpen state known final =>
    refine ⟨h.keyed.update fun _ => rfl, fun other hother => ?_, fun other hother => ?_⟩
    · rcases (h.keyed.mem_update memRow).mp hother with rfl | ⟨hother, -⟩
      · exact hold row memRow
      · exact hold other hother
    · rcases (h.keyed.mem_update memRow).mp hother with rfl | ⟨hother, -⟩
      · exact h.kind row memRow
      · exact h.kind other hother

/-- Nobody rewrites an admission. -/
theorem Change.admission (change : Change store log build build') :
    build'.admission = build.admission := by
  cases change with
  | prepare new superseded => cases superseded <;> rfl
  | receipt => rfl
  | settle => rfl
  | claim => rfl
  | observe => rfl
  | work effectId serverId written => rw [(insertBuilderWork_ok written).2]
  | progress next written =>
    rcases updateBuilderWork_ok written with heq | ⟨work, -, -, heq⟩ <;> rw [heq]
  | verification date write written => exact (VerificationWrite.apply_ok written).admission
  | evidence evidence written releasing =>
    have hguard := (guardImageBuild_ok (updateImageBuild_ok releasing).1).1
    rw [(insertPublication_ok written).2.2.2.2.2.2] at hguard
    exact hguard
  | release release written retained =>
    have hguard := (guardImageBuild_ok (updateImageBuild_ok retained).1).1
    rcases updatePublication_ok written with ⟨-, heq⟩ | ⟨publication, -, -, -, -, heq⟩ <;>
      exact hguard.trans (by rw [heq])
  | cleaned date written => exact (guardImageBuild_ok (updateImageBuild_ok written).1).1
  | cleaning reason written => exact (guardImageBuild_ok (updateImageBuild_ok written).1).1
  | runRequested written => exact (guardImageBuild_ok (updateImageBuild_ok written).1).1
  | accessRemoved gone written => exact (guardImageBuild_ok (updateImageBuild_ok written).1).1

theorem Change.id (change : Change store log build build') : build'.id = build.id := by
  rw [ImageBuild.id, change.admission, ImageBuild.id]

theorem running_of_updateImageBuild {now : Instant} {f : ImageBuild → ImageBuild}
    (h : updateImageBuild now build f = .ok build') (running : build'.state = .running) :
    build.state = .running := by
  rcases (guardImageBuild_ok (updateImageBuild_ok h).1).2 with heq | ⟨hmay, -⟩
  · rw [← heq]
    exact running
  · rw [running] at hmay
    cases hmay

/-- A build that runs has run all along. -/
theorem Change.running (change : Change store log build build')
    (running : build'.state = .running) : build.state = .running := by
  cases change with
  | prepare new superseded => cases superseded <;> exact running
  | receipt => exact running
  | settle => exact running
  | claim => exact running
  | observe => exact running
  | work effectId serverId written =>
    rw [(insertBuilderWork_ok written).2] at running
    exact running
  | progress next written =>
    rcases updateBuilderWork_ok written with heq | ⟨work, -, -, heq⟩ <;>
      · rw [heq] at running
        exact running
  | verification date write written =>
    rw [(VerificationWrite.apply_ok written).state] at running
    exact running
  | evidence evidence written releasing =>
    rw [(updateImageBuild_ok releasing).2.2] at running
    cases running
  | release release written retained =>
    rw [(updateImageBuild_ok retained).2.2] at running
    cases running
  | cleaned date written =>
    rw [(updateImageBuild_ok written).2.2] at running
    cases running
  | cleaning reason written => exact running_of_updateImageBuild written running
  | runRequested written => exact running_of_updateImageBuild written running
  | accessRemoved gone written => exact running_of_updateImageBuild written running

/-- The result of the verification stays. -/
theorem Change.result (change : Change store log build build') (known : build.result.isSome) :
    build'.result = build.result := by
  cases change with
  | prepare new superseded => cases superseded <;> rfl
  | receipt => rfl
  | settle => rfl
  | claim => rfl
  | observe => rfl
  | work effectId serverId written => rw [(insertBuilderWork_ok written).2]
  | progress next written =>
    rcases updateBuilderWork_ok written with heq | ⟨work, -, -, heq⟩ <;> rw [heq]
  | verification date write written => exact (VerificationWrite.apply_ok written).result known
  | evidence evidence written releasing =>
    rw [(updateImageBuild_ok releasing).2.2, (insertPublication_ok written).2.2.2.2.2.2]
  | release release written retained =>
    rw [(updateImageBuild_ok retained).2.2]
    rcases updatePublication_ok written with ⟨-, heq⟩ | ⟨publication, -, -, -, -, heq⟩ <;> rw [heq]
  | cleaned date written => rw [(updateImageBuild_ok written).2.2]
  | cleaning reason written =>
    rw [(updateImageBuild_ok written).2.2, ImageBuild.requested]
    split <;> rfl
  | runRequested written => rw [(updateImageBuild_ok written).2.2]
  | accessRemoved gone written => rw [(updateImageBuild_ok written).2.2]

/-- **Step lemma.**  Every change keeps the build in order. -/
theorem Change.sound (change : Change store log build build') (mem : build ∈ store.builds)
    (h : Sound build) : Sound build' := by
  have hkept := change.effects.kept_rows mem h.effects
  have hresources := change.resources.kept_rows h.resources.keyed
  refine ⟨?_, change.resources.sound mem hkept h.resources, fun f hf hsettled => ?_⟩
  · rw [change.id]
    exact change.effects.sound mem h.effects
  · rcases change.effects.settled mem h.effects f hf hsettled with
      hexact | ⟨e, he, hid, hcommand, houtcome, hrecorded⟩
    · refine ⟨fun hcreate => ?_, fun hcreate => ?_, fun hcreate => ?_⟩ <;>
        · rw [hexact] at hcreate
          cases hcreate
    · have := hrecorded fun hne => h.settled e he hne
      exact this.keep hid hcommand houtcome hresources

end AgentCloud.Images
