/-
  RUNNING AN EFFECT IS SAFE: it is committed before it is asked for, and asked for once.

  `Ready` is what the review of the earlier attempts leaves: the fresh attempt may follow them.  The
  policy and the prices are read in peace, so it still holds when the attempt is committed.
  `Committed` is then what the worker submits on: the row is there, prepared, and was never asked
  for.
-/
import AgentCloud.Images.Reconciling

namespace AgentCloud.Images

open Checked Durable

variable {id : ImageBuildId} {seen : ImageBuild} {command : ImageProviderCommand}

/-! ## The review -/

/-- A fresh attempt of the command may be committed. -/
structure Ready (command : ImageProviderCommand) (supersede : Option Effect) (b : ImageBuild)
    (log : Log) : Prop where
  retry : command.isImageCreate = false → Succeeds log b command (supersede.map Effect.id)
  create : command.isImageCreate = true → supersede = none
  mem : ∀ last, supersede = some last → last ∈ b.effects

theorem ImageBuild.history_congr {b b' : ImageBuild} (h : b'.effects = b.effects)
    (base : EffectBase) : b'.history base = b.history base := by
  rw [ImageBuild.history_eq, ImageBuild.history_eq, h]

theorem Succeeds.unlocked {log : Log} {b b' : ImageBuild} {superseded : Option EffectId}
    (h : Succeeds log b command superseded) (hunlocked : Unlocked b b') :
    Succeeds log b' command superseded := by
  have hhistory := ImageBuild.history_congr hunlocked.effects (imageEffectKey command)
  cases h with
  | first alone => exact .first (by rw [hhistory]; exact alone)
  | again last here same ended => exact .again last (by rw [hhistory]; exact here) same ended
  | delegated last here same pending unsure =>
    exact .delegated last (by rw [hhistory]; exact here) same pending (by
      rw [hunlocked.id]
      exact unsure)

theorem Succeeds.aside {log : Log} {b : ImageBuild} {superseded : Option EffectId}
    {exchange : Exchange interface} (h : Succeeds log b command superseded)
    (haside : Aside b exchange.call) : Succeeds (log ++ [exchange]) b command superseded := by
  cases h with
  | first alone => exact .first alone
  | again last here same ended => exact .again last here same ended
  | delegated last here same pending unsure =>
    exact .delegated last here same pending (unsure.append haside.1)

theorem Ready.calm {supersede : Option Effect} :
    Condition.Calm (Ready command supersede) where
  unlocked h hunlocked := ⟨fun hexact => (h.retry hexact).unlocked hunlocked, h.create,
    fun last hlast => by rw [hunlocked.effects]; exact h.mem last hlast⟩
  aside h haside := ⟨fun hexact => (h.retry hexact).aside haside, h.create, h.mem⟩

/-- The newest attempt, after the reconciler has settled it. -/
theorem getLast_settledAs {es : List Effect} {base : EffectBase} {last : Effect}
    {resolution : ImageEffectResolution} (h : (historyOf es base).getLast? = some last) :
    (historyOf (settledAs es last resolution) base).getLast? =
      some { last with resolution := resolution } := by
  have hhistory : historyOf (settledAs es last resolution) base =
      (historyOf es base).map fun row =>
        if row.id = last.id then { row with resolution := resolution } else row := by
    rw [historyOf, settledAs, Table.update, List.filter_map, historyOf]
    refine congrArg _ (List.filter_congr fun row _ => ?_)
    simp only [Function.comp_apply]
    split <;> rfl
  rw [hhistory, List.getLast?_map, h]
  simp

theorem verified_reviewPrevious :
    Verified seen.id (fun b _ => Unlocked seen b ∧ Sound seen) (reviewPrevious seen command)
      (fun previous b l => match previous with
        | .settled _ => True
        | .fresh supersede => Ready command supersede b l)
      (fun _ _ => True) := by
  unfold reviewPrevious
  split
  · next hnone =>
    refine .pure fun b l h => ⟨fun _ => .first ?_, fun _ => rfl, by simp⟩
    rw [ImageBuild.history_congr h.1.effects]
    exact hnone
  · next last hlast =>
    split
    · exact .raise fun _ _ _ => trivial
    · next hsame =>
      have same : last.command = command := not_not.mp hsame
      have mem : last ∈ seen.effects := (mem_historyOf.mp (List.mem_of_getLast? hlast)).1
      refine Verified.pre (P := fun b _ => Sound seen ∧ Unlocked seen b) (.fact fun hs => ?_)
        fun b l h => ⟨h.2, h.1⟩
      have hreconcile := @verified_reconcileImageEffect seen _ _ mem hs.effects.keyed
      refine .bind ((hreconcile.pre fun b l h => ⟨⟨h.effects, by
        rw [h.resources]
        exact .refl _, fun _ hf => hf.elim⟩, h.id⟩).post (fun _ _ _ h => h) fun _ _ _ => trivial)
        fun result => ?_
      cases result with
      | failed reason =>
        refine .pure fun b l h => ?_
        by_cases hcreate : command.isImageCreate = true
        · rw [if_pos hcreate]
          trivial
        · rw [if_neg hcreate]
          obtain ⟨resolution, heffects, -, -, hfailed, -⟩ := h.effects
          have hnewest : (b.history (imageEffectKey command)).getLast? =
              some { last with resolution := resolution } := by
            rw [ImageBuild.history_eq, heffects]
            exact getLast_settledAs hlast
          exact ⟨fun _ => .again _ hnewest same (hfailed reason rfl), fun _ => rfl, fun _ hnone => by cases hnone⟩
      | retry reason =>
        refine Verified.named (P := fun b l => b.id = seen.id ∧
          Reconciled seen seen.effects last b l (.retry reason)) (.pure fun b l h => ?_)
            fun b l hid h => ⟨hid, h⟩
        by_cases hcreate : command.isImageCreate = true
        · rw [if_pos hcreate]
          trivial
        · rw [if_neg hcreate]
          obtain ⟨resolution, heffects, -, -, -, hretry⟩ := h.2.effects
          obtain ⟨hres, hexact, hpending, hunsure⟩ := hretry reason rfl
          have hsame : b.effects = seen.effects := by
            rw [heffects, hres, ← hpending, settledAs_self hs.effects.keyed mem]
          refine ⟨fun _ => .delegated last ?_ same hpending (by rw [h.1]; exact hunsure),
            fun h => absurd h hcreate, ?_⟩
          · rw [ImageBuild.history_congr hsame]
            exact hlast
          · intro other hother
            obtain rfl := Option.some.inj hother
            rw [hsame]
            exact mem
      | confirmed => exact .pure fun _ _ _ => trivial
      | pending reason => exact .pure fun _ _ _ => trivial

/-! ## The policy -/

theorem peaceful_owned {role : ImageResourceRole} {ref : String} :
    Peaceful (owned seen role ref) := by
  unfold owned
  dsimp only
  split
  · exact .raise
  · split
    · exact Peaceful.get.bind fun _ => .ofExcept
    · exact .raise

theorem peaceful_readBaseImage : Peaceful (readBaseImage seen command) := by
  unfold readBaseImage
  split
  · exact (Peaceful.ask (by trivial)).bind fun _ => Peaceful.thrown.bind fun _ => .ofExcept
  · exact .pure

theorem peaceful_checkSource : Peaceful (checkSource seen) := by
  unfold checkSource
  exact Peaceful.ofExcept.bind fun _ => peaceful_owned.bind fun _ => Peaceful.ofExcept.bind fun _ =>
    peaceful_owned.bind fun _ => Peaceful.ofExcept.bind fun _ => .pure

theorem peaceful_checkDelete {resource : ImageResourceRef} :
    Peaceful (checkDelete seen resource) := by
  unfold checkDelete
  split
  · exact .raise
  · split
    · exact .raise
    · split
      · refine Peaceful.get.bind fun current => ?_
        split
        · exact .pure
        · exact .ofExcept
      · exact .raise

theorem peaceful_checkByKind {now : Instant} : Peaceful (checkByKind seen now command) := by
  cases command with
  | createSshKey => exact .ofExcept
  | createFirewall => exact .ofExcept
  | createPrimaryIp => exact .ofExcept
  | createServer name labels intent =>
    unfold checkByKind checkCreateServer
    refine Peaceful.ofExcept.bind fun _ => peaceful_owned.bind fun _ => peaceful_owned.bind fun _ =>
      peaceful_owned.bind fun _ => Peaceful.bind ?_ fun _ => .ofExcept
    split
    · exact peaceful_checkSource
    · exact .pure
  | powerOff serverId sanitation =>
    unfold checkByKind checkPowerOff
    exact Peaceful.ofExcept.bind fun _ => peaceful_owned.bind fun _ => .pure
  | createSnapshot name labels serverId =>
    unfold checkByKind checkCreateSnapshot
    exact peaceful_owned.bind fun _ => Peaceful.ofExcept.bind fun _ => .ofExcept
  | delete resource => exact peaceful_checkDelete

theorem peaceful_checkImageCommand {now : Instant} :
    Peaceful (checkImageCommand seen command now) :=
  peaceful_readBaseImage.bind fun _ => Peaceful.ofExcept.bind fun _ => peaceful_checkByKind

theorem peaceful_readPricing {pricing : Pricing} : Peaceful (readPricing command pricing) := by
  unfold readPricing
  split
  · split
    · exact .raise
    · exact (Peaceful.ask (by trivial)).bind fun _ => Peaceful.thrown.bind fun _ => .pure
  · exact .pure

/-! ## The commit -/

/-- The attempt stands committed, prepared and pending, and was never asked for. -/
def Committed (command : ImageProviderCommand) (effectId : EffectId) : Condition :=
  fun b log => (∃ e ∈ b.effects, e.id = effectId ∧ e.command = command ∧ e.outcome = .prepared ∧
    e.resolution = .pending) ∧ submissions log effectId = 0

theorem Committed.calm {effectId : EffectId} : (Committed command effectId).Calm where
  unlocked h hunlocked := by
    obtain ⟨⟨e, he, hrest⟩, hnone⟩ := h
    exact ⟨⟨e, by rw [hunlocked.effects]; exact he, hrest⟩, hnone⟩
  aside h haside := by
    obtain ⟨⟨e, he, hid, hrest⟩, hnone⟩ := h
    refine ⟨⟨e, he, hid, hrest⟩, ?_⟩
    rw [submissions_append (by simpa [hid] using haside.2 e he)]
    exact hnone

theorem insertEffect_ok {store : Store} {b b' : ImageBuild} {new : Effect}
    (h : insertEffect store b new = .ok b') :
    (∀ other ∈ store.builds, other.effect new.id = none) ∧
      (∀ e ∈ b.effects, e.key ≠ new.key) ∧
      guardImageBuildEffect store.clock b new = .ok () ∧
      guardImageSnapshotEvidence b new = .ok () ∧ guardSnapshotPins store b new = .ok () ∧
      b' = { b with effects := b.effects ++ [new] } := by
  simp only [insertEffect, bind_ok_iff, refuse_ok_iff, pure_ok_iff, not_or] at h
  obtain ⟨_, ⟨hfresh, hunkeyed⟩, _, hguard, _, hevidence, _, -, _, hpins, rfl⟩ := h
  refine ⟨?_, ?_, hguard, hevidence, hpins, rfl⟩
  · simpa using hfresh
  · simpa using hunkeyed

/-- Inserting and superseding together are one fresh attempt. -/
theorem prepared_of_supersedeBy {b b' : ImageBuild} {new : Effect} {supersede : Option Effect}
    (mem : ∀ last, supersede = some last → last ∈ b.effects)
    (h : supersedeBy supersede new.id { b with effects := b.effects ++ [new] } = .ok b') :
    b' = b.prepared new (supersede.map Effect.id) := by
  cases supersede with
  | none => exact (pure_ok_iff.mp h).symm
  | some last =>
    rcases updateEffect_ok h with ⟨hnone, -⟩ | ⟨old, -, -, rfl⟩
    · have hlast := mem last rfl
      exact absurd rfl (Table.get_eq_none.mp hnone last (List.mem_append_left _ hlast))
    · rfl

theorem mem_prepared {b : ImageBuild} {new : Effect} {superseded : Option EffectId}
    (h : ∀ id, superseded = some id → new.id ≠ id) : new ∈ (b.prepared new superseded).effects := by
  rw [ImageBuild.prepared_effects h]
  exact List.mem_append_right _ (List.mem_singleton.mpr rfl)

theorem verified_prepareEffect {pricing : Pricing} {prices : Option (ImageCatalog × StoragePrice)}
    {supersede : Option Effect} :
    Verified seen.id (Ready command supersede) (prepareEffect seen command pricing prices supersede)
      (Committed command) (fun _ _ => True) := by
  refine .onBuild Ready.calm (fun _ _ _ => trivial) fun w hvalid b hb hp env a b' ht => ?_
  simp only [bind_ok_iff, pure_ok_iff] at ht
  obtain ⟨_, -, _, -, inserted, hinsert, b'', hsupersede, hpair⟩ := ht
  obtain ⟨rfl, rfl⟩ := Prod.mk.inj hpair
  obtain ⟨hfresh, hunkeyed, hguard, hevidence, hpins, rfl⟩ := insertEffect_ok hinsert
  set new : Effect := ⟨env.id, nextKey seen command, command, .prepared, .pending, w.store.clock⟩
    with hnew
  have hsupersede' : supersedeBy supersede new.id { b with effects := b.effects ++ [new] } =
    .ok b'' := hsupersede
  obtain rfl := prepared_of_supersedeBy hp.mem hsupersede'
  have hbuild := Store.build_mem hb
  have hretry : new.command.isImageCreate = false → Succeeds w.log b new.command
    (supersede.map Effect.id) := hp.retry
  have hcreate : new.command.isImageCreate = true → supersede.map Effect.id = none := fun h => by
    rw [hp.create h]
    rfl
  refine ⟨.inr (.prepare new (supersede.map Effect.id) hfresh hunkeyed rfl rfl hguard hevidence
    hpins (fun hexact => ⟨?_, hretry hexact⟩) hcreate), fun _ => ⟨⟨new, mem_prepared
      (fresh_of_retry hfresh hbuild hretry hcreate), rfl, rfl, rfl, rfl⟩, ?_⟩⟩
  · have : command.isImageCreate = false := hexact
    simp [hnew, nextKey, this]
  · -- what was submitted has a row, and no row has the fresh identifier
    rw [submissions, List.countP_eq_zero]
    intro exchange hm hcall
    simp only [decide_eq_true_eq] at hcall
    obtain ⟨call, reply⟩ := exchange
    cases call with
    | submit effectId c =>
      obtain rfl := Option.some.inj hcall
      obtain ⟨other, hother, e, he, hid, -⟩ := hvalid.submitted _ hm _ c rfl
      exact Table.get_eq_none.mp (hfresh other hother) e he hid
    | _ => cases hcall

/-! ## The submission -/

/-- The attempt stands, prepared and pending. -/
def Standing (effectId : EffectId) (b : ImageBuild) : Prop :=
  ∃ e ∈ b.effects, e.id = effectId ∧ e.outcome = .prepared ∧ e.resolution = .pending

theorem verified_submit {effectId : EffectId} :
    Verified id (Committed command effectId) (submit effectId command)
      (fun _ b _ => Standing effectId b) (fun _ _ => True) := by
  refine .bind (Q := fun _ b _ => Standing effectId b) (Triple.ask (Committed.calm.stable id) ?_)
    fun reply => ?_
  · rintro w ⟨b, hb, ⟨e, he, rfl, rfl, hprepared, hpending⟩, hnone⟩ - r -
    exact ⟨.submit hb he hprepared hpending hnone r, b, hb, e, he, rfl, hprepared, hpending⟩
  · cases reply with
    | ok submission => exact .pure fun _ _ h => h
    | error fault => exact .pure fun _ _ h => h

theorem verified_recordOutcome {effectId : EffectId} {submission : ImageSubmission} :
    Verified id (fun b _ => Standing effectId b) (recordOutcome id effectId submission)
      (fun _ _ _ => True) (fun _ _ => True) := by
  have hcalm : Condition.Calm fun b (_ : Log) => Standing effectId b := by
    refine ⟨fun h hunlocked => ?_, fun h _ => h⟩
    obtain ⟨e, he, hrest⟩ := h
    exact ⟨e, by rw [hunlocked.effects]; exact he, hrest⟩
  refine .onBuild hcalm (fun _ _ _ => trivial) fun w hvalid b hb hp env a b' ht => ?_
  simp only [bind_ok_iff, pure_ok_iff] at ht
  obtain ⟨b'', hupdate, hpair⟩ := ht
  obtain ⟨-, rfl⟩ := Prod.mk.inj hpair
  refine ⟨?_, fun _ => trivial⟩
  obtain ⟨e, he, rfl, hprepared, hpending⟩ := hp
  rcases updateEffect_ok hupdate with ⟨-, rfl⟩ | ⟨old, -, hguard, rfl⟩
  · exact .inl rfl
  · exact .inr (.receipt e he hprepared hpending (guardEffectUpdate_open hguard) submission)

/-- The build, inspected in between. -/
theorem verified_inspected {α : Type} {p : ImageBuild → Program α} {Q : α → Condition}
    (h : ∀ b, b.id = id → Verified b.id (fun c _ => Unlocked b c ∧ Sound b) (p b) Q
      fun _ _ => True) :
    Verified id (fun _ _ => True) ((inspectImageBuild id).bind p) Q fun _ _ => True := by
  refine .bind (Q := fun b c _ => Unlocked b c ∧ Sound b ∧ b.id = id)
    (.inspect .const fun b _ _ hs hid => ⟨.refl b, hs, hid⟩) fun b => ?_
  refine Verified.pre (P := fun c _ => b.id = id ∧ (Unlocked b c ∧ Sound b)) (.fact fun hid => ?_)
    fun c _ hc => ⟨hc.2.2, hc.1, hc.2.1⟩
  have := h b hid
  rwa [hid] at this

/-- Reconciling an effect of a build that was just inspected. -/
theorem verified_reconcileInspected {e : Effect} (mem : e ∈ seen.effects) :
    Verified seen.id (fun b _ => Unlocked seen b ∧ Sound seen) (reconcileImageEffect seen e)
      (fun _ _ _ => True) (fun _ _ => True) := by
  refine Verified.pre (P := fun b _ => Sound seen ∧ Unlocked seen b) (.fact fun hs => ?_)
    fun b l h => ⟨h.2, h.1⟩
  refine ((verified_reconcileImageEffect mem hs.effects.keyed).pre fun b l h => ⟨⟨h.effects, by
    rw [h.resources]
    exact .refl _, fun _ hf => hf.elim⟩, h.id⟩).post (fun _ _ _ _ => trivial) fun _ _ _ => trivial

theorem verified_submitPrepared {effectId : EffectId} :
    Verified id (Committed command effectId) (submitPrepared id command effectId)
      (fun _ _ _ => True) (fun _ _ => True) := by
  refine .bind verified_submit fun submission => .bind verified_recordOutcome fun _ =>
    verified_inspected fun updated _ => ?_
  split
  · exact .raise fun _ _ _ => trivial
  · next effect heffect => exact verified_reconcileInspected (Table.get_mem heffect)

/-! ## The whole -/

theorem verified_freshEffect {pricing : Pricing} {supersede : Option Effect} :
    Verified seen.id (Ready command supersede) (freshEffect seen command pricing supersede)
      (fun _ _ _ => True) (fun _ _ => True) := by
  unfold freshEffect
  split
  · exact .pure fun _ _ _ => trivial
  · refine .bind (.read Ready.calm) fun shown => ?_
    refine .bind (.ofExcept (fun _ _ _ _ h => h) fun _ _ _ => trivial) fun _ => ?_
    refine .bind (.read Ready.calm) fun now => ?_
    refine .bind ((peaceful_checkImageCommand.verified Ready.calm).post (fun _ _ _ h => h)
      fun _ _ _ => trivial) fun _ => ?_
    refine .bind ((peaceful_readPricing.verified Ready.calm).post (fun _ _ _ h => h)
      fun _ _ _ => trivial) fun prices => ?_
    exact .bind verified_prepareEffect fun effectId => verified_submitPrepared

/-- **The journal's worker**, from the build that it has inspected. -/
theorem verified_runInspected {pricing : Pricing} :
    Verified seen.id (fun b _ => Unlocked seen b ∧ Sound seen)
      ((reviewPrevious seen command).bind fun previous =>
        match previous with
        | .settled resolution => pure resolution
        | .fresh supersede => freshEffect seen command pricing supersede)
      (fun _ _ _ => True) fun _ _ => True := by
  refine .bind verified_reviewPrevious fun previous => ?_
  cases previous with
  | settled resolution => exact .pure fun _ _ _ => trivial
  | fresh supersede => exact verified_freshEffect

end AgentCloud.Images
