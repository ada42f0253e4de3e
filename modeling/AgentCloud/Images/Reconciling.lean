/-
  RECONCILING IS SAFE: one effect is settled at most, and a retry is allowed only where nothing
  definitive was heard.

  `Holding` is what the reconciler knows: the journal exactly, and the resources that it has seen
  claimed for the effect.  Claims and observations keep it; the one write to the journal is the
  resolution at the end, and `Reconciled` says what it was for each answer.
-/
import AgentCloud.Images.Rules

namespace AgentCloud.Images

open Checked Durable
open Lifecycle (Labels matchesLabels)

variable {seen : ImageBuild} {es : List Effect} {effect : Effect}
  {known : ImageResourceRef → Prop}

/-! ## What the reconciler knows -/

/-- The effect has a row for the resource. -/
def Claimed (effect : Effect) (b : ImageBuild) (ref : ImageResourceRef) : Prop :=
  ∃ row ∈ b.resources, row.ref = ref ∧ row.effectId = effect.id

structure Holding (seen : ImageBuild) (es : List Effect) (effect : Effect)
    (known : ImageResourceRef → Prop) (b : ImageBuild) : Prop where
  effects : b.effects = es
  resources : ResourcesKept seen.resources b.resources
  claimed : ∀ ref, known ref → Claimed effect b ref

theorem Claimed.keep {b b' : ImageBuild} {ref : ImageResourceRef} (h : Claimed effect b ref)
    (kept : ResourcesKept b.resources b'.resources) : Claimed effect b' ref := by
  obtain ⟨row, hrow, href, howner⟩ := h
  obtain ⟨row', hrow', href', -, howner', -⟩ := kept.kept row hrow
  exact ⟨row', hrow', href'.trans href, howner'.trans howner⟩

namespace Holding

theorem keep {b b' : ImageBuild} (h : Holding seen es effect known b)
    (effects : b'.effects = b.effects) (kept : ResourcesKept b.resources b'.resources) :
    Holding seen es effect known b' :=
  ⟨effects.trans h.effects, h.resources.trans kept, fun ref href => (h.claimed ref href).keep kept⟩

theorem calm : Condition.Calm fun b _ => Holding seen es effect known b where
  unlocked h hunlocked := h.keep hunlocked.effects (by
    rw [hunlocked.resources]
    exact .refl _)
  aside h _ := h

theorem mono {known' : ImageResourceRef → Prop} {b : ImageBuild}
    (h : Holding seen es effect known b) (hsub : ∀ ref, known' ref → known ref) :
    Holding seen es effect known' b :=
  ⟨h.effects, h.resources, fun ref href => h.claimed ref (hsub ref href)⟩

theorem learn {b : ImageBuild} {ref : ImageResourceRef} (h : Holding seen es effect known b)
    (hclaimed : Claimed effect b ref) :
    Holding seen es effect (fun other => known other ∨ other = ref) b := by
  refine ⟨h.effects, h.resources, fun other hother => ?_⟩
  rcases hother with hother | rfl
  · exact h.claimed other hother
  · exact hclaimed

end Holding

/-- The journal with one effect resolved. -/
def settledAs (es : List Effect) (effect : Effect) (resolution : ImageEffectResolution) :
    List Effect :=
  Table.update Effect.id es effect.id fun row => { row with resolution }

theorem settledAs_self (hkeyed : Table.Keyed Effect.id es) (mem : effect ∈ es) :
    settledAs es effect effect.resolution = es := by
  have : ∀ row ∈ es, (if row.id = effect.id then { row with resolution := effect.resolution }
      else row) = row := by
    intro row hrow
    split
    · next heq =>
      obtain rfl := hkeyed.unique hrow mem heq
      rfl
    · rfl
  rw [settledAs, Table.update, List.map_congr_left this, List.map_id']

/-- What an answer of the reconciler stands for. -/
structure Reconciled (seen : ImageBuild) (es : List Effect) (effect : Effect) (b : ImageBuild)
    (log : Log) (result : Resolution) : Prop where
  resources : ResourcesKept seen.resources b.resources
  effects : ∃ resolution, b.effects = settledAs es effect resolution ∧
    (effect.resolution ≠ .pending → resolution = effect.resolution) ∧
    (result = .confirmed → resolution.confirmed? = true) ∧
    (∀ reason, result = .failed reason → resolution.failed? = true) ∧
    (∀ reason, result = .retry reason → resolution = .pending ∧
      effect.command.isImageCreate = false ∧ effect.resolution = .pending ∧
      Uncertain log seen.id effect)

/-- The answer was that nothing is decided. -/
theorem Holding.undecided {b : ImageBuild} {log : Log} {reason : String}
    (h : Holding seen es effect known b) (hkeyed : Table.Keyed Effect.id es) (mem : effect ∈ es) :
    Reconciled seen es effect b log (.pending reason) :=
  ⟨h.resources, effect.resolution, by rw [settledAs_self hkeyed mem, h.effects], fun _ => rfl,
    by simp, by simp, by simp⟩

/-! ## Uncertainty -/

theorem Latest.append {log : Log} {exchange other : Exchange interface} (h : Latest log exchange)
    (hne : other.call ≠ exchange.call) : Latest (log ++ [other]) exchange := by
  obtain ⟨before, after, rfl, hlater⟩ := h
  refine ⟨before, after ++ [other], by simp, fun later hm => ?_⟩
  rcases List.mem_append.mp hm with hm | hm
  · exact hlater later hm
  · obtain rfl := List.mem_singleton.mp hm
    exact hne

theorem Latest.last {log : Log} {exchange : Exchange interface} :
    Latest (log ++ [exchange]) exchange :=
  ⟨log, [], rfl, by simp⟩

theorem Uncertain.append {log : Log} {id : ImageBuildId} {exchange : Exchange interface}
    (h : Uncertain log id effect)
    (hne : ∀ actionId ref, exchange.call ≠ .getAction id actionId ref) :
    Uncertain (log ++ [exchange]) id effect := by
  rcases h with h | ⟨resource, actionId, haccepted, hlatest⟩
  · exact .inl h
  · exact .inr ⟨resource, actionId, haccepted, hlatest.append (hne actionId resource)⟩

/-! ## Writing -/

theorem guardEffectUpdate_open {b : ImageBuild} {old new : Effect}
    (h : guardEffectUpdate b old new = .ok ()) : b.state.cleaned? = false := by
  simp only [guardEffectUpdate, bind_ok_iff, refuse_ok_iff, Bool.not_eq_true] at h
  obtain ⟨_, hopen, -⟩ := h
  exact hopen

/-- The row of an effect of the journal is the effect. -/
theorem effect_of_mem {b : ImageBuild} (hs : Sound b) (mem : effect ∈ b.effects) :
    b.effect effect.id = some effect :=
  hs.effects.keyed.get mem

theorem verified_settle {resolution : Env → ImageEffectResolution} (mem : effect ∈ es)
    (pending : effect.resolution = .pending)
    (final : ∀ env, (resolution env).confirmed? = true ∨ (resolution env).failed? = true)
    (recorded : ∀ env b, Holding seen es effect known b → Recorded b effect (resolution env)) :
    Verified seen.id (fun b _ => Holding seen es effect known b)
      (settle seen.id effect.id resolution)
      (fun _ b _ => ResourcesKept seen.resources b.resources ∧
        ∃ env, b.effects = settledAs es effect (resolution env))
      (fun b _ => Holding seen es effect known b) := by
  refine .onBuild Holding.calm (fun _ _ h => h) fun w hvalid b hb hp env a b' ht => ?_
  simp only [bind_ok_iff, pure_ok_iff] at ht
  obtain ⟨b'', hupdate, hpair⟩ := ht
  obtain ⟨-, rfl⟩ := Prod.mk.inj hpair
  have hs := hvalid.sound_of hb
  have memb : effect ∈ b.effects := by rw [hp.effects]; exact mem
  rcases updateEffect_ok hupdate with ⟨hnone, -⟩ | ⟨old, -, hguard, rfl⟩
  · rw [effect_of_mem hs memb] at hnone
    cases hnone
  · refine ⟨.inr (.settle effect memb (resolution env) (.inl pending)
      (guardEffectUpdate_open hguard) (final env) (recorded env b hp)), fun _ => ?_⟩
    exact ⟨hp.resources, env, by rw [← hp.effects]; rfl⟩

theorem verified_settleConfirmed (mem : effect ∈ es) (pending : effect.resolution = .pending)
    (recorded : ∀ date b, Holding seen es effect known b →
      Recorded b effect (.confirmed date)) :
    Verified seen.id (fun b _ => Holding seen es effect known b) (settleConfirmed seen effect)
      (fun result b l => Reconciled seen es effect b l result)
      (fun b _ => Holding seen es effect known b) := by
  refine .bind (verified_settle mem pending (fun _ => .inl rfl) fun env b =>
    recorded env.date b) fun _ => .pure ?_
  rintro b l ⟨hkept, env, heffects⟩
  exact ⟨hkept, .confirmed env.date, heffects, fun hne => absurd pending hne, fun _ => rfl,
    by simp, by simp⟩

theorem verified_settleFailed {reason : String} (mem : effect ∈ es)
    (pending : effect.resolution = .pending)
    (recorded : ∀ b, Holding seen es effect known b → Recorded b effect (.failed reason)) :
    Verified seen.id (fun b _ => Holding seen es effect known b) (settleFailed seen effect reason)
      (fun result b l => Reconciled seen es effect b l result ∧ result = .failed reason)
      (fun b _ => Holding seen es effect known b) := by
  refine .bind (verified_settle mem pending (fun _ => .inr rfl) fun _ b => recorded b) fun _ =>
    .pure ?_
  rintro b l ⟨hkept, env, heffects⟩
  exact ⟨⟨hkept, .failed reason, heffects, fun hne => absurd pending hne, by simp,
    fun _ _ => rfl, by simp⟩, rfl⟩

/-! ## Claims and observations -/

/-- A change that leaves the journal alone keeps what is known. -/
theorem Holding.change {store : Store} {log : Log} {b b' : ImageBuild}
    (h : Holding seen es effect known b) (hs : Sound b) (change : Change store log b b')
    (effects : b'.effects = b.effects) : Holding seen es effect known b' :=
  h.keep effects (change.resources.kept_rows hs.resources.keyed)

theorem insertResource_ok {store : Store} {foreign : ImageResourceRef → Bool} {b b' : ImageBuild}
    {new : Resource} (h : insertResource store foreign b new = .ok b') :
    guardImageBuildResource b new = .ok () ∧ (b' = b ∨ (store.claimed new.ref = false ∧
      b' = { b with resources := b.resources ++ [new] })) := by
  simp only [insertResource, bind_ok_iff, refuse_ok_iff] at h
  obtain ⟨_, hguard, _, -, h⟩ := h
  refine ⟨hguard, ?_⟩
  split at h
  · exact .inl (pure_ok_iff.mp h).symm
  · next hclaimed => exact .inr ⟨by simpa using hclaimed, (pure_ok_iff.mp h).symm⟩

theorem checkClaim_ok {store : Store} {id : ImageBuildId} {effectId : EffectId}
    {ref : ImageResourceRef} (h : checkClaim store id effectId ref = .ok ()) :
    ∃ b, store.build id = some b ∧ ∃ row, b.resource ref = some row ∧ row.effectId = effectId := by
  simp only [checkClaim, refuse_ok_iff, Bool.not_eq_false, Option.any_eq_true, Bool.and_eq_true,
    decide_eq_true_eq] at h
  obtain ⟨b, hb, row, hrow, howner, -⟩ := h
  exact ⟨b, hb, row, hrow, howner⟩

theorem verified_claimImageResource {ref : ImageResourceRef} (mem : effect ∈ es)
    (pending : effect.resolution = .pending) :
    Verified seen.id (fun b _ => Holding seen es effect known b)
      (claimImageResource seen effect ref)
      (fun _ b _ => Holding seen es effect (fun other => known other ∨ other = ref) b)
      (fun b _ => Holding seen es effect known b) := by
  unfold claimImageResource
  split
  · exact .raise fun _ _ h => h
  · next labels hlabels =>
    split
    · exact .raise fun _ _ h => h
    · next hkind =>
      refine .bind (Q := fun r b _ => Holding seen es effect known b ∧
        (r = .ok () → Claimed effect b ref)) ?_ fun r => ?_
      · refine .onBuild Holding.calm (fun _ _ h => h) fun w hvalid b hb hp env a b' ht => ?_
        simp only [bind_ok_iff, pure_ok_iff] at ht
        obtain ⟨b'', hinsert, hpair⟩ := ht
        obtain ⟨rfl, rfl⟩ := Prod.mk.inj hpair
        have hs := hvalid.sound_of hb
        obtain ⟨hguard, hrows⟩ := insertResource_ok hinsert
        have hchange : b'' = b ∨ Change w.store w.log b b'' := by
          rcases hrows with rfl | ⟨hclaimed, rfl⟩
          · exact .inl rfl
          · simp only [guardImageBuildResource, bind_ok_iff, refuse_ok_iff, Bool.not_eq_true,
              present_ok_iff] at hguard
            obtain ⟨_, hopen, -⟩ := hguard
            have hunclaimed : ∀ other ∈ w.store.builds, other.resource ref = none := by
              simpa [Store.claimed] using hclaimed
            exact .inr (.claim _ hopen hunclaimed effect (by rw [hp.effects]; exact mem) rfl
              pending (by rw [hlabels]; rfl) (by simpa using hkind) rfl)
        have heffects : b''.effects = b.effects := by
          rcases hrows with rfl | ⟨-, rfl⟩ <;> rfl
        have hid : b''.id = b.id := by
          rcases hrows with rfl | ⟨-, rfl⟩ <;> rfl
        have hkept : Holding seen es effect known b'' := by
          rcases hchange with rfl | hchange
          · exact hp
          · exact hp.change hs hchange heffects
        refine ⟨hchange, fun _ => ⟨hkept, fun hok => ?_⟩⟩
        obtain ⟨c, hc, row, hrow, howner⟩ := checkClaim_ok hok
        have hput : (w.store.putBuild b'').build seen.id = some b'' := by
          rw [← Store.build_id hb, Store.build_putBuild hid (by rw [Store.build_id hb]; exact hb),
            if_pos rfl]
        rw [hput] at hc
        obtain rfl := Option.some.inj hc
        exact ⟨row, Table.get_mem hrow, Table.get_key hrow, howner⟩
      · refine .ofExcept (fun a ha b l h => ?_) fun b l h => h.1
        cases a
        exact h.1.learn (h.2 ha)

theorem guardResourceUpdate_ok {b : ImageBuild} {old : Resource} {state : ImageResourceState}
    (h : guardResourceUpdate b old state = .ok ()) : b.state.cleaned? = false ∧
      (old.live = false → state = old.state) ∧
      (state ≠ old.state → ∀ resource, state.resource? = some resource → resource.ref = old.ref) := by
  simp only [guardResourceUpdate, bind_ok_iff, refuse_ok_iff, Bool.not_eq_true] at h
  obtain ⟨_, hopen, h⟩ := h
  split at h
  · next hsame => exact ⟨hopen, fun _ => hsame, fun hne => absurd hsame hne⟩
  · simp only [bind_ok_iff, refuse_ok_iff, not_or, Bool.not_eq_true] at h
    obtain ⟨_, ⟨hlive, -⟩, h⟩ := h
    refine ⟨hopen, fun hgone => ?_, fun _ resource hresource => ?_⟩
    · simp [Resource.live, hlive] at hgone
    · cases state with
      | unverified => cases hresource
      | absent => cases hresource
      | observed shown date =>
        simp only [refuse_ok_iff, not_or, not_not, ne_eq] at h
        obtain rfl := Option.some.inj hresource
        exact h.1

/-- An observation is a change that rewrites the resources, or none. -/
theorem change_of_updateResource {store : Store} {log : Log} {b b' : ImageBuild}
    {ref : ImageResourceRef} {state : ImageResourceState} (known : state ≠ .unverified)
    (watched : ref.kind = .snapshot → b.Watched) (h : updateResource b ref state = .ok b') :
    (b' = b ∨ Change store log b b') ∧ ∃ rows, b' = { b with resources := rows } := by
  rcases updateResource_ok h with ⟨-, rfl⟩ | ⟨old, hold, hguard, rfl⟩
  · exact ⟨.inl rfl, b'.resources, rfl⟩
  · obtain ⟨hopen, hfinal, hown⟩ := guardResourceUpdate_ok hguard
    have hkey := Table.get_key hold
    refine ⟨.inr ?_, _, rfl⟩
    rw [← hkey] at watched ⊢
    exact .observe old (Table.get_mem hold) hopen state known hfinal hown watched

theorem change_of_observe (store : Store) (log : Log) {env : Env} {snapshot b b' : ImageBuild}
    {ref : ImageResourceRef} {shown : Option ImageProviderResource}
    (watched : ref.kind = .snapshot → b.Watched) (h : observe env snapshot b ref shown = .ok b') :
    (b' = b ∨ Change store log b b') ∧ ∃ rows, b' = { b with resources := rows } := by
  simp only [observe, bind_ok_iff, present_ok_iff] at h
  obtain ⟨record, -, h⟩ := h
  cases shown with
  | none =>
    simp only at h
    split at h
    · exact change_of_updateResource (by simp) watched h
    · obtain rfl := pure_ok_iff.mp h
      exact ⟨.inl rfl, b.resources, rfl⟩
  | some resource =>
    simp only [bind_ok_iff] at h
    obtain ⟨_, -, h⟩ := h
    exact change_of_updateResource (by simp) watched h

/-- An observation keeps whatever survives another reading of the rows. -/
theorem verified_observeImageResource {ref : ImageResourceRef}
    {shown : Option ImageProviderResource} {P : Condition} (hP : P.Calm)
    (hwatched : ref.kind = .snapshot → ∀ {b l}, Sound b → P b l → b.Watched)
    (hkeep : ∀ {b l} rows, P b l → ResourcesKept b.resources rows →
      P { b with resources := rows } l) :
    Verified seen.id P (observeImageResource seen ref shown) (fun _ => P) P := by
  refine .onBuild hP (fun _ _ h => h) fun w hvalid b hb hp env a b' ht => ?_
  simp only [bind_ok_iff, pure_ok_iff] at ht
  obtain ⟨b'', hobserve, hpair⟩ := ht
  obtain ⟨-, rfl⟩ := Prod.mk.inj hpair
  have hs := hvalid.sound_of hb
  obtain ⟨hchange, rows, hrows⟩ :=
    change_of_observe w.store w.log (fun hkind => hwatched hkind hs hp) hobserve
  refine ⟨hchange, fun _ => ?_⟩
  rcases hchange with rfl | hchange
  · exact hp
  · have hkept := hchange.resources.kept_rows hs.resources.keyed
    rw [hrows] at hkept ⊢
    exact hkeep rows hp hkept

/-- A snapshot that a pending create has claimed is watched. -/
theorem Claimed.watched {b : ImageBuild} {ref : ImageResourceRef} (h : Claimed effect b ref)
    (hs : Sound b) (mem : effect ∈ b.effects) (pending : effect.resolution = .pending)
    (kind : ref.kind = .snapshot) : b.Watched := by
  intro _ _
  obtain ⟨row, hrow, rfl, howner⟩ := h
  obtain ⟨e, he, hid, hrole⟩ := hs.resources.owner row hrow
  obtain rfl := hs.effects.keyed.unique he mem (hid.trans howner)
  obtain ⟨labels, hlabels, hlabelled⟩ := Option.map_eq_some_iff.mp hrole
  have hcreates := (hs.effects.create e mem labels hlabels).2.2
  rw [hlabelled, hs.resources.kind row hrow, kind] at hcreates
  refine ⟨e, mem, pending, .inl ?_⟩
  cases hcommand : e.command <;>
    simp_all [ImageProviderCommand.creates?, ImageProviderCommand.isCreateSnapshot]

theorem verified_observe {ref : ImageResourceRef} {shown : Option ImageProviderResource}
    (mem : effect ∈ es) (pending : effect.resolution = .pending) (claimed : known ref) :
    Verified seen.id (fun b _ => Holding seen es effect known b)
      (observeImageResource seen ref shown) (fun _ b _ => Holding seen es effect known b)
      (fun b _ => Holding seen es effect known b) :=
  verified_observeImageResource Holding.calm
    (fun hkind _ _ hs h => (h.claimed ref claimed).watched hs (by rw [h.effects]; exact mem) pending
      hkind)
    fun _ h hkept => h.keep rfl hkept

/-! ## Creates -/

/-- A question about the build's own actions. -/
theorem Verified.askAction {id : ImageBuildId} {P : Condition} {actionId : String}
    {ref : ImageResourceRef} {Q : Except Fault ImageAction → Condition} {E : Condition}
    (hP : P.Calm) (h : ∀ b l r, P b l → Q r b (l ++ [⟨.getAction id actionId ref, r⟩])) :
    Verified id P (Prog.ask (S := interface) (.getAction id actionId ref)) Q E := by
  refine Triple.ask (hP.stable id) ?_
  rintro w ⟨b, hb, hp⟩ - r -
  have hquiet : (Call.getAction id actionId ref).quiet (.build id) := rfl
  exact ⟨.ask (.getAction id actionId ref) r hquiet, b, hb, h b _ r hp⟩

/-- The resource that the receipt of the effect names. -/
def Receipted (effect : Effect) (ref : ImageResourceRef) : Prop :=
  effect.outcome.resource? = some ref

theorem verified_recordReceipt (mem : effect ∈ es) (pending : effect.resolution = .pending) :
    Verified seen.id (fun b _ => Holding seen es effect (fun _ => False) b)
      (recordReceipt seen effect) (fun _ b _ => Holding seen es effect (Receipted effect) b)
      (fun b _ => Holding seen es effect (fun _ => False) b) := by
  unfold recordReceipt
  split
  · next hnone =>
    refine .pure fun b _ h => ⟨h.effects, h.resources, fun ref href => ?_⟩
    rw [Receipted, hnone] at href
    cases href
  · next resource hresource =>
    split
    · next hrow =>
      refine .pure fun b _ h => ⟨h.effects, h.resources, fun ref href => ?_⟩
      rw [Receipted, hresource] at href
      obtain rfl := Option.some.inj href
      obtain ⟨row, hrow, howner⟩ := List.any_eq_true.mp hrow
      simp only [decide_eq_true_eq] at howner
      have hclaimed : Claimed effect seen resource := ⟨row, hrow, howner.2, howner.1⟩
      exact hclaimed.keep h.resources
    · refine (verified_claimImageResource mem pending).post (fun _ b _ h => h.mono ?_)
        fun _ _ h => h
      intro ref href
      rw [Receipted, hresource] at href
      exact .inr (Option.some.inj href).symm

theorem recorded_failed {b : ImageBuild} {reason : String}
    (h : Holding seen es effect (Receipted effect) b)
    (said : effect.outcome.rejected = true ∨ effect.outcome.resource?.isSome = true) :
    Recorded b effect (.failed reason) where
  receipt _ ref href := h.claimed ref href
  confirmed _ hconfirmed := by cases hconfirmed
  failed _ _ := said

theorem verified_checkCreateAction (mem : effect ∈ es) (pending : effect.resolution = .pending)
    (hkeyed : Table.Keyed Effect.id es) :
    Verified seen.id (fun b _ => Holding seen es effect (Receipted effect) b)
      (checkCreateAction seen effect)
      (fun decided b l => match decided with
        | none => Holding seen es effect (Receipted effect) b
        | some result => Reconciled seen es effect b l result)
      (fun b _ => Holding seen es effect (Receipted effect) b) := by
  unfold checkCreateAction
  split
  · exact .pure fun _ _ h => h
  · next resource actionId haccepted =>
    refine .bind (Q := fun _ b _ => Holding seen es effect (Receipted effect) b)
      (.bind (.askAction Holding.calm fun _ _ _ h => h) fun _ =>
        .ofExcept (fun _ _ _ _ h => h) fun _ _ h => h) fun action => ?_
    split
    · exact .pure fun b l h => h.undecided hkeyed mem
    · refine .bind (verified_settleFailed mem pending fun b h => recorded_failed h (.inr ?_))
        fun result => .pure fun b l h => h.1
      cases houtcome : effect.outcome <;> simp_all [ImageEffectOutcome.accepted?]
      split at haccepted <;> simp_all [ImageEffectOutcome.resource?]
    · exact .pure fun _ _ h => h

theorem verified_claimCandidate {kind : ImageResourceKind} {labels : Labels}
    {resource : ImageProviderResource} (mem : effect ∈ es)
    (pending : effect.resolution = .pending) :
    Verified seen.id (fun b _ => Holding seen es effect known b)
      (claimCandidate seen effect kind labels resource)
      (fun bad b _ => Holding seen es effect
        (fun ref => known ref ∨ (bad = false ∧ ref = ⟨kind, resource.ref.id⟩)) b)
      (fun b _ => Holding seen es effect known b) := by
  unfold claimCandidate
  split
  · exact .pure fun b _ h => h.mono fun ref href => by simpa using href
  · refine .handle (F := fun b _ => Holding seen es effect known b) ?_ fun fault => ?_
    · refine .bind (verified_claimImageResource mem pending) fun _ =>
        .bind ((verified_observe mem pending (.inr rfl)).post (fun _ _ _ h => h) fun b _ h =>
          h.mono fun ref href => .inl href) fun _ => .pure fun b _ h => h.mono fun ref href => ?_
      rcases href with href | ⟨-, href⟩
      · exact .inl href
      · exact .inr href
    · split
      · exact .pure fun b _ h => h.mono fun ref href => by simpa using href
      · exact .raise fun _ _ h => h

/-- Where nothing disagreed, every candidate is claimed. -/
theorem verified_claimCandidates {kind : ImageResourceKind} {labels : Labels} (mem : effect ∈ es)
    (pending : effect.resolution = .pending) (candidates : List ImageProviderResource) :
    ∀ (known : ImageResourceRef → Prop) (mismatched : Bool),
    Verified seen.id (fun b _ => Holding seen es effect known b)
      (claimCandidates seen effect kind labels candidates mismatched)
      (fun bad b _ => Holding seen es effect (fun ref => known ref ∨
          (bad = false ∧ ∃ c ∈ candidates, ref = ⟨kind, c.ref.id⟩)) b ∧
        (bad = false → mismatched = false))
      (fun b _ => Holding seen es effect known b) := by
  induction candidates with
  | nil =>
    intro known mismatched
    exact .pure fun b _ h => ⟨h.mono fun ref href => by simpa using href, fun h => h⟩
  | cons resource rest ih =>
    intro known mismatched
    refine .bind (verified_claimCandidate mem pending) fun bad => ?_
    refine (ih _ (mismatched || bad)).post (fun bad' b _ h => ?_) fun b _ h =>
      h.mono fun ref href => .inl href
    obtain ⟨hholding, hbad⟩ := h
    refine ⟨hholding.mono fun ref href => ?_, fun hbad' => ?_⟩
    · rcases href with href | ⟨hbad', c, hc, rfl⟩
      · exact .inl (.inl href)
      · rcases List.mem_cons.mp hc with rfl | hc
        · have := hbad hbad'
          rw [Bool.or_eq_false_iff] at this
          exact .inl (.inr ⟨this.2, rfl⟩)
        · exact .inr ⟨hbad', c, hc, rfl⟩
    · have := hbad hbad'
      rw [Bool.or_eq_false_iff] at this
      exact this.1

theorem verified_judgeCandidates {kind : ImageResourceKind}
    {candidates : List ImageProviderResource} {mismatched : Bool} (mem : effect ∈ es)
    (pending : effect.resolution = .pending) (hkeyed : Table.Keyed Effect.id es) :
    Verified seen.id
      (fun b _ => Holding seen es effect (fun ref => Receipted effect ref ∨
        (mismatched = false ∧ ∃ c ∈ candidates, ref = ⟨kind, c.ref.id⟩)) b)
      (judgeCandidates seen effect candidates mismatched)
      (fun result b l => Reconciled seen es effect b l result)
      (fun b _ => Holding seen es effect (fun _ => False) b) := by
  unfold judgeCandidates
  split
  · exact .pure fun b l h => h.undecided hkeyed mem
  · next hmatched =>
    split
    · exact .pure fun b l h => h.undecided hkeyed mem
    · split
      · next resource hshort =>
        split
        · exact .pure fun b l h => h.undecided hkeyed mem
        · split
          · refine (verified_settleConfirmed mem pending fun date b h => ⟨fun _ ref href =>
              h.claimed ref (.inl href), fun _ _ => ?_, fun _ hfailed => by cases hfailed⟩).post
                (fun _ _ _ h => h) fun b _ h => h.mono fun _ hf => hf.elim
            obtain ⟨row, hrow, -, howner⟩ := h.claimed ⟨kind, resource.ref.id⟩
              (.inr ⟨by simpa using hmatched, resource, by simp, rfl⟩)
            exact ⟨row, hrow, howner⟩
          · exact .pure fun b l h => h.undecided hkeyed mem
      · exact .pure fun b l h => h.undecided hkeyed mem

theorem verified_searchCreate {labels : ImageBuildLabels} (mem : effect ∈ es)
    (pending : effect.resolution = .pending) (hkeyed : Table.Keyed Effect.id es) :
    Verified seen.id (fun b _ => Holding seen es effect (Receipted effect) b)
      (searchCreate seen effect labels)
      (fun result b l => Reconciled seen es effect b l result)
      (fun b _ => Holding seen es effect (fun _ => False) b) := by
  have hforget : ∀ b, Holding seen es effect (Receipted effect) b →
      Holding seen es effect (fun _ => False) b := fun b h => h.mono fun _ hf => hf.elim
  refine .bind (.post (Peaceful.find.verified Holding.calm) (fun _ _ _ h => h)
    fun b _ h => hforget b h) fun found => ?_
  refine .bind (.post (verified_claimCandidates mem pending (candidatesOf found) _ false)
    (fun _ _ _ h => h.1) fun b _ h => hforget b h) fun bad => ?_
  exact verified_judgeCandidates mem pending hkeyed

theorem verified_reconcileCreate {labels : ImageBuildLabels} (mem : effect ∈ es)
    (pending : effect.resolution = .pending) (hkeyed : Table.Keyed Effect.id es) :
    Verified seen.id (fun b _ => Holding seen es effect (fun _ => False) b)
      (reconcileCreate seen effect labels)
      (fun result b l => Reconciled seen es effect b l result)
      (fun b _ => Holding seen es effect (fun _ => False) b) := by
  refine .bind (verified_recordReceipt mem pending) fun _ => ?_
  refine .bind ((verified_checkCreateAction mem pending hkeyed).post (fun _ _ _ h => h)
    fun b _ h => h.mono fun _ hf => hf.elim) fun decided => ?_
  cases decided with
  | some result => exact .pure fun b l h => h
  | none => exact verified_searchCreate mem pending hkeyed

/-! ## Exact effects -/

/-- Nothing is recorded of what an exact effect left. -/
theorem recorded_exact {b : ImageBuild} {resolution : ImageEffectResolution}
    (exact_ : effect.command.isImageCreate = false) : Recorded b effect resolution := by
  refine ⟨fun hcreate => ?_, fun hcreate => ?_, fun hcreate => ?_⟩ <;>
    · rw [exact_] at hcreate
      cases hcreate

/-- Before the exact read: a retry is allowed only where the effect is uncertain. -/
def Unsure (seen : ImageBuild) (es : List Effect) (effect : Effect) (retry : Bool) : Condition :=
  fun b log => Holding seen es effect (fun _ => False) b ∧ b.id = seen.id ∧
    (retry = true → Uncertain log seen.id effect)

theorem Unsure.calm {retry : Bool} : (Unsure seen es effect retry).Calm where
  unlocked h hunlocked :=
    ⟨@Condition.Calm.unlocked _ Holding.calm _ _ [] h.1 hunlocked, hunlocked.id.trans h.2.1, h.2.2⟩
  aside h haside := ⟨h.1, h.2.1, fun hretry => (h.2.2 hretry).append (by
    rw [← h.2.1]
    exact haside.1)⟩

theorem verified_judgeTarget {current : Option ImageProviderResource} {retry : Bool}
    (mem : effect ∈ es) (pending : effect.resolution = .pending)
    (hkeyed : Table.Keyed Effect.id es) (exact_ : effect.command.isImageCreate = false) :
    Verified seen.id (Unsure seen es effect retry) (judgeTarget seen effect current retry)
      (fun result b l => Reconciled seen es effect b l result)
      (fun b _ => Holding seen es effect (fun _ => False) b) := by
  unfold judgeTarget
  split
  · exact ((verified_settleFailed mem pending fun b _ => recorded_exact exact_).pre
      fun _ _ h => h.1).post (fun _ _ _ h => h.1) fun _ _ h => h
  · split
    · exact (verified_settleConfirmed mem pending fun _ b _ => recorded_exact exact_).pre
        fun _ _ h => h.1
    · split
      · next hretry =>
        refine .pure fun b l h => ⟨h.1.resources, .pending, ?_, ?_, by simp, by simp, ?_⟩
        · rw [← pending, settledAs_self hkeyed mem, h.1.effects]
        · exact fun hne => absurd pending hne
        · exact fun _ _ => ⟨rfl, exact_, pending, h.2.2 hretry⟩
      · exact .pure fun b l h => h.1.undecided hkeyed mem

theorem verified_readTarget {ref : ImageResourceRef} {retry : Bool}
    (mem : effect ∈ es) (pending : effect.resolution = .pending)
    (target : ref.kind = .snapshot → effect.command.isDelete = true)
    (hkeyed : Table.Keyed Effect.id es) (exact_ : effect.command.isImageCreate = false) :
    Verified seen.id (Unsure seen es effect retry) (readTarget seen effect ref retry)
      (fun result b l => Reconciled seen es effect b l result)
      (fun b _ => Holding seen es effect (fun _ => False) b) := by
  refine .bind (.post (Peaceful.get.verified Unsure.calm) (fun _ _ _ h => h) fun _ _ h => h.1)
    fun current => ?_
  refine .bind (.post (verified_observeImageResource Unsure.calm ?_ fun _ h hkept =>
    ⟨h.1.keep rfl hkept, h.2.1, h.2.2⟩) (fun _ _ _ h => h) fun _ _ h => h.1)
    fun _ => verified_judgeTarget mem pending hkeyed exact_
  intro hkind b l _ h _ _
  exact ⟨effect, by rw [h.1.effects]; exact mem, pending, .inr (target hkind)⟩

theorem verified_reconcileExact {ref : ImageResourceRef} (mem : effect ∈ es)
    (pending : effect.resolution = .pending) (hkeyed : Table.Keyed Effect.id es)
    (target : ref.kind = .snapshot → effect.command.isDelete = true)
    (exact_ : effect.command.isImageCreate = false) :
    Verified seen.id
      (fun b _ => Holding seen es effect (fun _ => False) b ∧ b.id = seen.id)
      (reconcileExact seen effect ref)
      (fun result b l => Reconciled seen es effect b l result)
      (fun b _ => Holding seen es effect (fun _ => False) b) := by
  have hcalm : Condition.Calm fun b (_ : Log) =>
      Holding seen es effect (fun _ => False) b ∧ b.id = seen.id :=
    Holding.calm.and ⟨fun h hunlocked => hunlocked.id.trans h, fun h _ => h⟩
  unfold reconcileExact
  split
  · exact .pure fun b l h => h.1.undecided hkeyed mem
  · split
    · next resource actionId haccepted =>
      refine .bind (Q := fun action b l => Holding seen es effect (fun _ => False) b ∧
        b.id = seen.id ∧ (action = .missing → Uncertain l seen.id effect)) ?_ fun action => ?_
      · refine .bind (Q := fun r b l => Holding seen es effect (fun _ => False) b ∧
          b.id = seen.id ∧ (r = .ok .missing → Uncertain l seen.id effect))
          (.askAction hcalm fun b l r h => ⟨h.1, h.2, ?_⟩) fun r => ?_
        · rintro rfl
          exact .inr ⟨resource, actionId, haccepted, Latest.last⟩
        · refine .ofExcept (fun action haction b l h => ⟨h.1, h.2.1, ?_⟩) fun _ _ h => h.1
          rintro rfl
          exact h.2.2 haction
      · cases action with
        | missing =>
          exact (verified_readTarget mem pending target hkeyed exact_).pre fun b l h =>
            ⟨h.1, h.2.1, fun _ => h.2.2 rfl⟩
        | known action =>
          cases action with
          | running => exact .pure fun b l h => h.1.undecided hkeyed mem
          | failed reason =>
            exact ((verified_settleFailed mem pending fun b _ => recorded_exact exact_).pre
              fun _ _ h => h.1).post (fun _ _ _ h => h.1) fun _ _ h => h
          | succeeded =>
            exact (verified_readTarget mem pending target hkeyed exact_).pre fun b l h =>
              ⟨h.1, h.2.1, fun hretry => by cases hretry⟩
    · refine (verified_readTarget mem pending target hkeyed exact_).pre fun b l h =>
        ⟨h.1, h.2, fun hretry => .inl hretry⟩

/-- **The reconciler.**  Whatever it answers, the journal was rewritten in this effect at most. -/
theorem verified_reconcileImageEffect (mem : effect ∈ es) (hkeyed : Table.Keyed Effect.id es) :
    Verified seen.id
      (fun b _ => Holding seen es effect (fun _ => False) b ∧ b.id = seen.id)
      (reconcileImageEffect seen effect)
      (fun result b l => Reconciled seen es effect b l result)
      (fun b _ => Holding seen es effect (fun _ => False) b) := by
  unfold reconcileImageEffect
  split
  · next hsettled =>
    refine .pure fun b l h => ⟨h.1.resources, effect.resolution, ?_, fun _ => rfl, ?_, ?_, ?_⟩
    · rw [settledAs_self hkeyed mem, h.1.effects]
    · intro hknown
      cases heq : effect.resolution <;> simp_all [ImageEffectResolution.known]
      rfl
    · intro reason hknown
      cases heq : effect.resolution <;> simp_all [ImageEffectResolution.known]
      rfl
    · intro reason hknown
      cases heq : effect.resolution <;> simp_all [ImageEffectResolution.known]
  · next hpending =>
    have pending : effect.resolution = .pending := not_not.mp hpending
    split
    · next reason houtcome =>
      refine ((verified_settleFailed mem pending fun b h => ⟨fun _ ref href => ?_,
        fun _ hconfirmed => (by cases hconfirmed), fun _ _ => .inl ?_⟩).pre
        fun _ _ h => h.1).post (fun _ _ _ h => h.1) fun _ _ h => h
      · rw [houtcome] at href
        cases href
      · rw [houtcome]
        rfl
    · split
      · exact (verified_reconcileCreate mem pending hkeyed).pre fun _ _ h => h.1
      · next labels ref hlabels htarget =>
        exact verified_reconcileExact mem pending hkeyed
          (ImageProviderCommand.isDelete_of_target htarget)
          (ImageProviderCommand.isImageCreate_eq_false.mpr hlabels)
      · exact .raise fun _ _ h => h.1

end AgentCloud.Images
