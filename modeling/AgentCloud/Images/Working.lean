/-
  EVERY WORKER KEEPS THE DISCIPLINE.

  `Works id p` is the triple without conditions: from any world, whatever is in the database, the
  program makes only permitted changes.  The journal's worker and the reconciling pass of a cleanup
  carry conditions of their own (`Running`); everything else is put together here from its guarded
  writes, and `discipline` says so of every job.
-/
import AgentCloud.Images.Running

namespace AgentCloud.Images

open Checked Durable
open Lifecycle (Journal Attempt ProviderCommand)

variable {id : ImageBuildId} {α β : Type}

/-! ## Programs without conditions -/

/-- From any world, the holder of the lock makes only permitted changes. -/
abbrev Works (lock : Lock) (p : Program α) : Prop :=
  Triple contract lock (fun _ => True) p (fun _ _ => True) fun _ _ => True

namespace Works

variable {lock : Lock}

theorem bind {p : Program α} {f : α → Program β} (h : Works lock p) (hf : ∀ a, Works lock (f a)) :
    Works lock (p.bind f) :=
  Triple.bind h fun a => hf a

theorem pure {a : α} : Works lock (Pure.pure a : Program α) := Triple.pure fun _ _ => trivial

theorem raise {fault : Fault} : Works lock (Images.raise fault : Program α) :=
  Triple.throw fun _ _ => trivial

theorem ofExcept {r : Except Fault α} : Works lock (Prog.ofExcept (S := interface) r) :=
  Triple.ofExcept (fun _ _ _ _ => trivial) fun _ _ _ _ => trivial

theorem handle {p : Program α} {handler : Fault → Program α} (h : Works lock p)
    (hhandler : ∀ e, Works lock (handler e)) :
    Works lock (Prog.tryCatch (S := interface) p handler) :=
  Triple.handle h hhandler

theorem ask {c : Call} (quiet : c.quiet lock) : Works lock (Prog.ask (S := interface) c) :=
  Triple.ask (fun _ _ _ _ => trivial) fun _ _ _ r _ => ⟨.ask c r quiet, trivial⟩

theorem read {f : Store → α} : Works lock (Prog.read (S := interface) f) :=
  Triple.read (fun _ _ _ _ => trivial) (fun _ => .idle) fun _ _ _ => trivial

/-- A program that only reads and makes mild calls. -/
theorem peaceful {p : Program α} (h : Peaceful p) : Works lock p := by
  induction h with
  | done r =>
    intro w _
    cases r <;> trivial
  | commit t next reads rest ih =>
    intro w _ v _ _ env
    split
    · exact ih _ v trivial
    · next value store' hok =>
      obtain rfl := reads env v.store value store' hok
      exact ⟨.idle, ih _ v trivial⟩
  | call c next mild rest ih =>
    intro w _ v _ _ r _
    refine ⟨.ask c r ?_, ih r _ trivial⟩
    cases c <;> simp_all [Call.quiet, Call.mild]

theorem forEach {as : List α} {f : α → Program Unit} (h : ∀ a ∈ as, Works lock (f a)) :
    Works lock (Prog.forEach as f) := by
  induction as with
  | nil => exact .pure
  | cons a as ih =>
    exact .bind (h a List.mem_cons_self) fun _ => ih fun b hb => h b (List.mem_cons_of_mem a hb)

/-- A transaction on the build, which is one change or none. -/
theorem onBuild {t : Env → Store → ImageBuild → Except Fault (α × ImageBuild)}
    (hok : ∀ (log : Log) store b env a b', t env store b = .ok (a, b') →
      b' = b ∨ Change store log b b') : Works (.build id) (Images.onBuild id t) := by
  refine Triple.transact (fun _ _ _ _ => trivial) (fun _ _ _ _ _ _ => trivial) ?_
  intro w _ hvalid env a s hs
  simp only [bind_ok_iff, present_ok_iff, pure_ok_iff] at hs
  obtain ⟨b, hb, ⟨value, b'⟩, ht, hpair⟩ := hs
  obtain ⟨rfl, rfl⟩ := Prod.mk.inj hpair
  refine ⟨?_, fun _ => trivial⟩
  rcases hok w.log w.store b env value b' ht with rfl | hchange
  · rw [Does.store_self hvalid hb]
    exact .idle
  · exact .write hb hchange

theorem requestCleanup {reason : CleanupReason} :
    Works (.build id) (requestImageCleanup id reason) := by
  refine Triple.transact (fun _ _ _ _ => trivial) (fun _ _ _ _ _ _ => trivial) ?_
  intro w _ hvalid env a s hs
  obtain ⟨b, b', hb, hwritten, rfl⟩ := requestCleanup_ok hs
  exact ⟨.write hb (.cleaning reason hwritten), fun _ => trivial⟩

theorem inspect : Works lock (inspectImageBuild id) := peaceful .inspect

/-- What follows an inspection may count on the build. -/
theorem inspected {p : ImageBuild → Program α}
    (h : ∀ b, b.id = id → Triple contract (.build b.id)
      (Condition.holds (fun c _ => Unlocked b c ∧ Sound b) b.id) (p b) (fun _ _ => True)
      fun _ _ => True) : Works (.build id) ((inspectImageBuild id).bind p) := by
  refine Triple.bind (Q := fun b w => b.id = id ∧
    Condition.holds (fun c _ => Unlocked b c ∧ Sound b) id w) ?_ fun b w hw => ?_
  · refine Triple.transact (fun _ _ _ _ => trivial) (fun _ _ _ _ _ _ => trivial) ?_
    intro w _ hvalid env a s hs
    simp only [bind_ok_iff, present_ok_iff, pure_ok_iff] at hs
    obtain ⟨b, hb, hpair⟩ := hs
    obtain ⟨rfl, rfl⟩ := Prod.mk.inj hpair
    exact ⟨by rw [World.put_self]; exact .idle, fun _ => ⟨Store.build_id hb, b, hb, .refl b,
      hvalid.sound_of hb⟩⟩
  · obtain ⟨rfl, hw⟩ := hw
    exact h b rfl w hw

/-- What follows an inspection, counting on nothing but its being in order. -/
theorem inspectingSound {p : ImageBuild → Program α}
    (h : ∀ b, b.id = id → Sound b → Works (.build b.id) (p b)) :
    Works (.build id) ((inspectImageBuild id).bind p) :=
  .inspected fun b hid w ⟨c, hc, hunlocked, hs⟩ => h b hid hs w trivial

/-- What follows an inspection without counting on it. -/
theorem inspecting {p : ImageBuild → Program α} (h : ∀ b, b.id = id → Works (.build b.id) (p b)) :
    Works (.build id) ((inspectImageBuild id).bind p) := by
  refine Triple.bind (Q := fun b _ => b.id = id) ?_ fun b w hid => ?_
  · refine Triple.transact (fun _ _ _ _ => trivial) (fun _ _ _ _ _ _ => trivial) ?_
    intro w _ hvalid env a s hs
    simp only [bind_ok_iff, present_ok_iff, pure_ok_iff] at hs
    obtain ⟨b, hb, hpair⟩ := hs
    obtain ⟨rfl, rfl⟩ := Prod.mk.inj hpair
    exact ⟨by rw [World.put_self]; exact .idle, fun _ => Store.build_id hb⟩
  · obtain rfl := hid
    exact h b rfl w trivial

end Works

/-! ## Cleanup -/

/-- The effects that a pass still has to reconcile are as it has seen them. -/
structure Left (seen : ImageBuild) (rest : List Effect) (b : ImageBuild) : Prop where
  resources : ResourcesKept seen.resources b.resources
  keyed : Table.Keyed Effect.id b.effects
  mem : ∀ e ∈ rest, e ∈ b.effects

theorem verified_reconcileAll (seen : ImageBuild) (rest : List Effect)
    (hnodup : Table.Keyed Effect.id rest) :
    Verified seen.id (fun b _ => Left seen rest b)
      (Prog.forEach rest fun effect => (reconcileImageEffect seen effect).ignore)
      (fun _ _ _ => True) fun _ _ => True := by
  induction rest with
  | nil => exact .pure fun _ _ _ => trivial
  | cons effect rest ih =>
    simp only [Table.Keyed, List.map_cons, List.nodup_cons, List.mem_map, not_exists,
      not_and] at hnodup
    obtain ⟨hne, hrest⟩ := hnodup
    refine .bind (Q := fun _ b _ => Left seen rest b) ?_ fun _ => ih hrest
    -- the journal as it stands is the one that the reconciler is started on
    refine Verified.named (P := fun b _ => ∃ es, Table.Keyed Effect.id es ∧ effect ∈ es ∧
      (∀ e ∈ rest, e ∈ es) ∧ Holding seen es effect (fun _ => False) b ∧ b.id = seen.id) ?_
      fun b l hid h => ⟨b.effects, h.keyed, h.mem effect List.mem_cons_self,
        fun e he => h.mem e (List.mem_cons_of_mem _ he), ⟨rfl, h.resources, fun _ hf => hf.elim⟩, hid⟩
    refine .ex fun es => .fact fun hkeyed => .fact fun hmem => .fact fun hsub => ?_
    refine .bind (.post (verified_reconcileImageEffect hmem hkeyed) (fun _ _ _ h => h)
      fun _ _ _ => trivial) fun result => .pure fun b l h => ?_
    obtain ⟨resolution, heffects, -⟩ := h.effects
    refine ⟨h.resources, ?_, fun e he => ?_⟩
    · rw [heffects]
      exact hkeyed.update fun _ => rfl
    · rw [heffects]
      exact (hkeyed.mem_update hmem).mpr (.inr ⟨hsub e he, hne e he⟩)

/-- What is not a snapshot may be looked at whenever. -/
theorem works_observeOther {seen : ImageBuild} {ref : ImageResourceRef}
    {shown : Option ImageProviderResource} (other : ref.kind ≠ .snapshot) :
    Works (.build seen.id) (observeImageResource seen ref shown) := by
  refine .onBuild fun log store b env a b' ht => ?_
  simp only [bind_ok_iff, pure_ok_iff] at ht
  obtain ⟨b'', hobserve, hpair⟩ := ht
  obtain ⟨-, rfl⟩ := Prod.mk.inj hpair
  exact (change_of_observe _ _ (fun hkind => absurd hkind other) hobserve).1

/-- What nothing that anybody does to a build ends. -/
structure Lasting (I : ImageBuild → Prop) : Prop where
  unlocked : ∀ {b b'}, I b → Unlocked b b' → I b'
  change : ∀ {store log b b'}, I b → Change store log b b' → I b'

theorem Lasting.calm {I : ImageBuild → Prop} (h : Lasting I) : Condition.Calm fun b _ => I b :=
  ⟨fun hI hunlocked => h.unlocked hI hunlocked, fun hI _ => hI⟩

theorem Lasting.does {I : ImageBuild → Prop} (hI : Lasting I) {w w' : World interface}
    (h : Condition.holds (fun b _ => I b) id w) (does : Does (.build id) w w') :
    Condition.holds (fun b _ => I b) id w' := by
  obtain ⟨b, hb, hIb⟩ := h
  cases does with
  | idle => exact ⟨b, hb, hIb⟩
  | write here change =>
    rw [hb] at here
    obtain rfl := Option.some.inj here
    obtain rfl := Store.build_id hb
    refine ⟨_, ?_, hI.change hIb change⟩
    rw [World.put_store, Store.build_putBuild change.id hb, if_pos rfl]
  | ask => exact ⟨b, hb, hIb⟩
  | submit => exact ⟨b, hb, hIb⟩

/-- A worker keeps what lasts. -/
theorem Lasting.verified {I : ImageBuild → Prop} (hI : Lasting I) {P : Condition} {p : Program α}
    {Q : α → Condition} {E : Condition} (h : Verified id P p Q E) :
    Verified id (fun b l => P b l ∧ I b) p (fun a b l => Q a b l ∧ I b)
      (fun b l => E b l ∧ I b) := by
  have hboth : ∀ {R : Condition} {w : World interface}, R.holds id w →
      Condition.holds (fun b _ => I b) id w → Condition.holds (fun b l => R b l ∧ I b) id w := by
    rintro R w ⟨b, hb, hR⟩ ⟨c, hc, hIc⟩
    rw [hb] at hc
    obtain rfl := Option.some.inj hc
    exact ⟨b, hb, hR, hIc⟩
  have hlasting := Triple.lasting (hI.calm.stable id) (fun _ _ hw does => hI.does hw does) h
  refine (hlasting.pre ?_).post (fun _ _ hw => hboth hw.1 hw.2) fun _ _ hw => hboth hw.1 hw.2
  rintro w ⟨b, hb, hP, hIb⟩
  exact ⟨⟨b, hb, hP⟩, b, hb, hIb⟩

theorem Lasting.works {I : ImageBuild → Prop} (hI : Lasting I) {p : Program α}
    (h : Works (.build id) p) :
    Verified id (fun b _ => I b) p (fun _ b _ => I b) (fun b _ => I b) :=
  ((Triple.lasting (hI.calm.stable id) (fun _ _ hw does => hI.does hw does) h).pre
    fun _ hw => ⟨trivial, hw⟩).post (fun _ _ hw => hw.2) fun _ _ hw => hw.2

/-- The build no longer runs. -/
def Ended : ImageBuild → Prop := fun b => b.state ≠ .running

theorem Ended.lasting : Lasting Ended where
  unlocked {b b'} h hunlocked hrunning := by
    rcases hunlocked.state with heq | ⟨-, hcleaning⟩
    · exact h (heq.symm.trans hrunning)
    · rw [hrunning] at hcleaning
      cases hcleaning
  change h change hrunning := h (change.running hrunning)

/-- The verification of the build has its result. -/
def Resulted : ImageBuild → Prop := fun b => b.result.isSome

theorem Resulted.lasting : Lasting Resulted where
  unlocked h hunlocked := by
    rw [Resulted, hunlocked.result]
    exact h
  change h change := by
    rw [Resulted, change.result h]
    exact h

/-- Whoever counts on something lasting that lets a snapshot be looked at may look at everything. -/
theorem Lasting.observe {I : ImageBuild → Prop} (hI : Lasting I)
    (hwatched : ∀ {b}, I b → b.Watched) (hrows : ∀ {b} rows, I b → I { b with resources := rows })
    {seen : ImageBuild} {ref : ImageResourceRef} {shown : Option ImageProviderResource} :
    Verified seen.id (fun b _ => I b) (observeImageResource seen ref shown) (fun _ b _ => I b)
      (fun b _ => I b) :=
  verified_observeImageResource hI.calm (fun _ _ _ _ h => hwatched h) fun rows h _ => hrows rows h

theorem ended_observe {seen : ImageBuild} {ref : ImageResourceRef}
    {shown : Option ImageProviderResource} :
    Verified seen.id (fun b _ => Ended b) (observeImageResource seen ref shown)
      (fun _ b _ => Ended b) (fun b _ => Ended b) :=
  Ended.lasting.observe (fun h hrunning _ => absurd hrunning h) fun _ h => h

theorem resulted_observe {seen : ImageBuild} {ref : ImageResourceRef}
    {shown : Option ImageProviderResource} :
    Verified seen.id (fun b _ => Resulted b) (observeImageResource seen ref shown)
      (fun _ b _ => Resulted b) (fun b _ => Resulted b) := by
  refine Resulted.lasting.observe (fun h _ hnone => ?_) fun _ h => h
  rw [Resulted, hnone] at h
  cases h

theorem ended_observeLeft {left : ImageBuild} {row : Resource} :
    Verified left.id (fun b _ => Ended b) (observeLeft left row) (fun _ b _ => Ended b)
      (fun b _ => Ended b) := by
  unfold observeLeft
  split
  · refine .bind (Peaceful.get.verified Ended.lasting.calm) fun current => ?_
    split
    · exact ended_observe
    · exact .pure fun _ _ h => h
  · exact .pure fun _ _ h => h

theorem ended_observeAll {left : ImageBuild} (rows : List Resource) :
    Verified left.id (fun b _ => Ended b) (Prog.forEach rows (observeLeft left))
      (fun _ b _ => Ended b) (fun b _ => Ended b) := by
  induction rows with
  | nil => exact .pure fun _ _ h => h
  | cons row rest ih => exact .bind ended_observeLeft fun _ => ih

theorem works_runningEffects {seen : ImageBuild} (effects : List Effect) :
    Works (.build seen.id) (runningEffects seen effects) := by
  induction effects with
  | nil => exact .pure
  | cons effect rest ih =>
    unfold runningEffects
    split
    · exact ih
    · exact .bind (.bind (.ask rfl) fun _ => .ofExcept) fun _ => .bind ih fun _ => .pure

theorem works_decideCleanup {seen : ImageBuild} {running : List EffectId} :
    Works (.build seen.id) (decideCleanup seen running) := by
  unfold decideCleanup
  split
  · exact .pure
  · refine .bind .read fun pinned => ?_
    split
    · exact .pure
    · split
      · exact .pure
      · split
        · exact .pure
        · split
          · exact .pure
          · refine .bind (.onBuild fun log store b env a b' ht => ?_) fun _ => .pure
            simp only [bind_ok_iff, pure_ok_iff] at ht
            obtain ⟨b'', hupdate, hpair⟩ := ht
            obtain ⟨-, rfl⟩ := Prod.mk.inj hpair
            exact .inr (.cleaned env.date hupdate)

theorem Sound.pendingEffects {b : ImageBuild} (h : Sound b) :
    Table.Keyed Effect.id b.pendingEffects :=
  List.Nodup.sublist (List.Sublist.map Effect.id List.filter_sublist) h.effects.keyed

theorem verified_cleanupPass : Verified id (fun b _ => Ended b) (cleanupPass id)
    (fun _ _ _ => True) (fun _ _ => True) := by
  refine .bind (Q := fun build b _ => (Unlocked build b ∧ Sound build ∧ build.id = id) ∧ Ended b)
    (.inspect Ended.lasting.calm fun b _ h hs hid => ⟨⟨.refl b, hs, hid⟩, h⟩) fun build => ?_
  refine Verified.pre (P := fun b _ => (Sound build ∧ build.id = id) ∧ Unlocked build b ∧ Ended b)
    (.fact fun ⟨hs, hid⟩ => ?_) fun b _ h => ⟨h.1.2, h.1.1, h.2⟩
  subst hid
  refine .bind (Q := fun _ b _ => Ended b) ?_ fun _ => ?_
  · have hpass := Ended.lasting.verified
      (verified_reconcileAll build build.pendingEffects hs.pendingEffects)
    refine (hpass.pre fun b _ h => ⟨⟨?_, ?_, ?_⟩, h.2⟩).post (fun _ _ _ h => h.2) fun _ _ _ => trivial
    · rw [h.1.resources]
      exact .refl _
    · rw [h.1.effects]
      exact hs.effects.keyed
    · rw [h.1.effects]
      exact fun e he => (List.mem_filter.mp he).1
  · refine .bind (Q := fun left b _ => left.id = build.id ∧ Ended b)
      (.inspect Ended.lasting.calm fun b _ h _ hid => ⟨hid, h⟩) fun left => .fact fun hleft => ?_
    rw [← hleft]
    refine .bind ((ended_observeAll left.resources).post (fun _ _ _ h => h) fun _ _ _ => trivial)
      fun _ => ?_
    have hrest : Works (.build left.id) ((inspectImageBuild left.id).bind fun seen =>
        (runningEffects seen seen.pendingEffects).bind fun running => decideCleanup seen running) :=
      .inspecting fun seen _ => .bind (works_runningEffects seen.pendingEffects) fun _ =>
        works_decideCleanup
    exact (Ended.lasting.works hrest).post (fun _ _ _ _ => trivial) fun _ _ _ => trivial

/-- A cleanup that was requested has ended the build's work. -/
theorem ended_requestCleanup {reason : CleanupReason} : Verified id (fun _ _ => True)
    (requestImageCleanup id reason) (fun _ b _ => Ended b) (fun _ _ => True) := by
  refine Triple.transact (Condition.Calm.const.stable id) (fun _ hp _ _ _ _ => hp) ?_
  rintro w ⟨b, hb, -⟩ hvalid env a s hs
  obtain ⟨c, b', hc, hwritten, rfl⟩ := requestCleanup_ok hs
  rw [hb] at hc
  obtain rfl := Option.some.inj hc
  have hunlocked := updateImageBuild_unlocked (unlocked_requested b reason) hwritten
  refine ⟨.write hb (.cleaning reason hwritten), fun _ => ⟨b', ?_, fun hrunning => ?_⟩⟩
  · obtain rfl := Store.build_id hb
    rw [World.put_store, Store.build_putBuild hunlocked.id hb, if_pos rfl]
  · rw [(updateImageBuild_ok hwritten).2.2, ImageBuild.requested] at hrunning
    split at hrunning
    · cases hrunning
    · next hlate =>
      rw [hrunning] at hlate
      exact hlate (by decide)

theorem works_planImageCleanup {intent : CleanupIntent} :
    Works (.build id) (planImageCleanup id intent) := by
  refine .inspected fun build hid => ?_
  rw [← hid]
  have hended : build.state ≠ .running → Triple contract (.build build.id)
      (Condition.holds (fun c _ => Unlocked build c ∧ Sound build) build.id)
      (cleanupPass build.id) (fun _ _ => True) fun _ _ => True := fun h =>
    Triple.post (verified_cleanupPass.pre fun _ _ hb => Ended.lasting.unlocked h hb.1)
      (fun _ _ _ => trivial) fun _ _ _ => trivial
  split
  · split
    · next hreleasing => exact hended (by simp [hreleasing])
    · exact Works.raise.pre fun _ _ => trivial
  · split
    · exact Works.pure.pre fun _ _ => trivial
    · split
      · next hcleaning =>
        refine hended fun hrunning => ?_
        rw [hrunning] at hcleaning
        cases hcleaning
      · exact Triple.post (Verified.bind (ended_requestCleanup.pre fun _ _ _ => trivial) fun _ =>
          verified_cleanupPass) (fun _ _ _ => trivial) fun _ _ _ => trivial

/-! ## The builder -/

theorem works_activeBuild : Works (.build id) (activeBuild id) := by
  refine .inspecting fun build hid => ?_
  rw [hid]
  split
  · exact .pure
  · refine .bind .read fun now => ?_
    split
    · exact .bind .requestCleanup fun _ => .pure
    · split
      · exact .raise
      · exact .pure

theorem works_whileActive {next : Program BuilderResult} (h : Works (.build id) next) :
    Works (.build id) (whileActive id next) := by
  refine .bind works_activeBuild fun going => ?_
  split
  · exact h
  · exact .pure

theorem recordedBuilder_ok {build : ImageBuild} {found : Resource × Effect × ServerIntent}
    (h : recordedBuilder build = .ok found) :
    found.1 ∈ build.resources ∧ found.1.role = .builder := by
  unfold recordedBuilder at h
  split at h
  · next row hrow =>
    have hmem : row ∈ build.resources.filter fun row => row.role = .builder := by simp [hrow]
    simp only [bind_ok_iff] at h
    obtain ⟨effect, -, _, -, h⟩ := h
    split at h
    · obtain rfl := pure_ok_iff.mp h
      exact ⟨(List.mem_filter.mp hmem).1, of_decide_eq_true (List.mem_filter.mp hmem).2⟩
    · cases h
  · cases h

theorem works_currentBuilder {build : ImageBuild} (hs : Sound build) :
    Works (.build build.id) (currentBuilder build) := by
  unfold currentBuilder
  refine Triple.bind (Q := fun found _ => found.1.ref.kind ≠ .snapshot)
    (Triple.ofExcept (fun found hfound _ _ => ?_) fun _ _ _ _ => trivial) fun found w hserver => ?_
  · simp only [bind_ok_iff, pure_ok_iff] at hfound
    obtain ⟨row, hrow, _, -, _, -, rfl⟩ := hfound
    obtain ⟨hmem, hrole⟩ := recordedBuilder_ok hrow
    rw [← hs.resources.kind _ hmem, hrole]
    decide
  · refine (?_ : Works (.build build.id) _) w trivial
    refine .bind (.peaceful .get) fun address => ?_
    refine .bind (works_observeOther (by simp)) fun _ => .bind .ofExcept fun _ => ?_
    exact .bind (.peaceful .get) fun current => .bind (works_observeOther hserver) fun _ =>
      .bind .inspect fun updated => .ofExcept

theorem works_saveProgress {progress : ImageBuilderProgress} :
    Works (.build id) (saveProgress id progress) := by
  refine .bind (.onBuild fun log store b env a b' ht => ?_) fun _ => .pure
  simp only [bind_ok_iff, pure_ok_iff] at ht
  obtain ⟨b'', hupdate, hpair⟩ := ht
  obtain ⟨-, rfl⟩ := Prod.mk.inj hpair
  exact .inr (.progress progress hupdate)

theorem works_remote {action : RemoteAction} {serverId : String} :
    Works (.build id) (remote action serverId) :=
  .bind (.ask (by trivial)) fun _ => .ofExcept

theorem works_recordInstallation {state : InstallState} :
    Works (.build id) (recordInstallation id state) := by
  cases state with
  | installed receipt => exact works_saveProgress
  | notStarted => exact .pure
  | started => exact .pure

theorem works_installBuilder {serverId : String} :
    Works (.build id) (installBuilder id serverId) := by
  refine .handle ?_ fun fault => ?_
  · refine .bind works_remote fun state => ?_
    cases state with
    | notStarted =>
      exact works_whileActive (.bind works_remote fun _ =>
        works_whileActive (.bind works_remote fun _ => works_recordInstallation))
    | started => exact works_recordInstallation
    | installed receipt => exact works_recordInstallation
  · cases fault with
    | cloud failure =>
      dsimp only
      split
      · exact .pure
      · exact .raise
    | other message => exact .raise

theorem works_attempt {lock : Lock} {p : Program α} (h : Works lock p) :
    Works lock (Prog.attempt p) := by
  intro w _
  exact Safe.attempt ((h w trivial).mono fun r v _ => by cases r <;> trivial)

theorem works_sanitizeBuilder {serverId : String} {installation : Installation} :
    Works (.build id) (sanitizeBuilder id serverId installation) := by
  refine works_whileActive (.bind works_saveProgress fun _ =>
    .bind (works_attempt works_remote) fun sanitation => ?_)
  split
  · exact .bind .requestCleanup fun _ => .pure
  · exact works_saveProgress

theorem works_continueBuilder {serverId : String} {progress : ImageBuilderProgress} :
    Works (.build id) (continueBuilder id serverId progress) := by
  cases progress with
  | installing => exact works_installBuilder
  | installed installation => exact works_sanitizeBuilder
  | sanitizing installation => exact .raise
  | sanitized installation sanitation => exact .raise

theorem works_startBuilder {build : ImageBuild} {serverId : String} {effectId : EffectId} :
    Works (.build build.id) (startBuilder build serverId effectId) := by
  unfold startBuilder
  split
  · exact .pure
  · refine .onBuild fun log store b env a b' ht => ?_
    simp only [bind_ok_iff, pure_ok_iff] at ht
    obtain ⟨b'', hinsert, hpair⟩ := ht
    obtain ⟨-, rfl⟩ := Prod.mk.inj hpair
    exact .inr (.work effectId serverId hinsert)

theorem works_runImageBuilderWork : Works (.build id) (runImageBuilderWork id) := by
  refine works_whileActive (.inspectingSound fun build hid hs => ?_)
  split
  · exact .pure
  · rw [hid]
    exact .bind .requestCleanup fun _ => .pure
  · refine .bind (works_currentBuilder hs) fun builder => ?_
    refine .bind (.ask (by trivial)) fun _ => .bind .ofExcept fun _ => ?_
    rw [hid]
    refine works_whileActive ?_
    rw [← hid]
    refine .bind works_startBuilder fun progress => ?_
    exact works_continueBuilder

theorem works_verify {write : VerificationWrite} : Works (.build id) (verify id write) := by
  refine .onBuild fun log store b env a b' ht => ?_
  simp only [bind_ok_iff, pure_ok_iff] at ht
  obtain ⟨_, -, b'', hwritten, hpair⟩ := ht
  obtain ⟨-, rfl⟩ := Prod.mk.inj hpair
  exact .inr (.verification env.date write hwritten)

/-! ## Publication -/

theorem peaceful_readOwned {build : ImageBuild} {row : Resource} :
    Peaceful (readOwned build row) :=
  Peaceful.get.bind fun _ => .ofExcept

theorem peaceful_observeImageVerifier {build : ImageBuild} :
    Peaceful (observeImageVerifier build) :=
  Peaceful.ofExcept.bind fun _ => peaceful_readOwned.bind fun _ => peaceful_readOwned.bind fun _ =>
    peaceful_readOwned.bind fun _ => .ofExcept

theorem works_requireActive : Works (.build id) (requireActive id) := by
  refine .onBuild fun log store b env a b' ht => ?_
  simp only [bind_ok_iff, pure_ok_iff] at ht
  obtain ⟨_, -, hpair⟩ := ht
  exact .inl (Prod.mk.inj hpair).2.symm

theorem works_commitEvidence {evidence : ImageReleaseEvidence} :
    Works (.build id) (commitEvidence id evidence) := by
  refine .onBuild fun log store b env a b' ht => ?_
  simp only [bind_ok_iff, pure_ok_iff] at ht
  obtain ⟨_, -, inserted, hinserted, b'', hupdate, hpair⟩ := ht
  obtain ⟨-, rfl⟩ := Prod.mk.inj hpair
  exact .inr (.evidence evidence hinserted hupdate)

theorem publishable_result {build : ImageBuild} {found : Publishable}
    (h : publishable build = .ok found) : Resulted build := by
  simp only [publishable, bind_ok_iff, present_ok_iff] at h
  obtain ⟨_, -, verified, hverified, -⟩ := h
  rw [Resulted, hverified]
  rfl

/-- The publication of a build that was verified. -/
theorem verified_prepare {build : ImageBuild} {found : Publishable} :
    Verified build.id (fun b _ => Resulted b)
      ((requireActive build.id).bind fun _ => (observeImageVerifier build).bind fun _ =>
        (Prog.ofExcept (verifierSnapshot build)).bind fun snapshot =>
          (get snapshot.1.ref).bind fun current =>
            (observeImageResource build snapshot.1.ref current).bind fun _ =>
              (Prog.ofExcept (evidenceOf build found current)).bind fun evidence =>
                commitEvidence build.id evidence)
      (fun _ b _ => Resulted b) (fun b _ => Resulted b) :=
  have hcalm := Resulted.lasting.calm
  .bind (Resulted.lasting.works works_requireActive) fun _ =>
    .bind (peaceful_observeImageVerifier.verified hcalm) fun _ =>
      .bind (Peaceful.ofExcept.verified hcalm) fun _ => .bind (Peaceful.get.verified hcalm) fun _ =>
        .bind resulted_observe fun _ => .bind (Peaceful.ofExcept.verified hcalm) fun _ =>
          Resulted.lasting.works works_commitEvidence

theorem works_prepareImagePublication : Works (.build id) (prepareImagePublication id) := by
  refine .inspected fun build hid => ?_
  split
  · exact Works.pure.pre fun _ _ => trivial
  · refine Triple.bind (Q := fun _ => Condition.holds (fun b _ => Resulted b) build.id)
      (Triple.ofExcept (fun found hfound w hw => ?_) fun _ _ _ _ => trivial) fun found => ?_
    · obtain ⟨b, hb, hunlocked, -⟩ := hw
      exact ⟨b, hb, Resulted.lasting.unlocked (publishable_result hfound) hunlocked⟩
    · rw [← hid]
      exact Triple.post verified_prepare (fun _ _ _ => trivial) fun _ _ _ => trivial

theorem works_commitRelease {release : SignedImageRelease} :
    Works (.build id) (commitRelease id release) := by
  refine .onBuild fun log store b env a b' ht => ?_
  simp only [bind_ok_iff, pure_ok_iff] at ht
  obtain ⟨published, hpublished, b'', hupdate, hpair⟩ := ht
  obtain ⟨-, rfl⟩ := Prod.mk.inj hpair
  exact .inr (.release release hpublished hupdate)

theorem peaceful_observePublishedSnapshot {build : ImageBuild} {evidence : ImageReleaseEvidence} :
    Peaceful (observePublishedSnapshot build evidence) :=
  Peaceful.ofExcept.bind fun _ => Peaceful.get.bind fun _ => .ofExcept

theorem peaceful_readKeys : Peaceful readKeys := (Peaceful.ask (by trivial)).bind fun _ => .thrown

theorem peaceful_resolvePublishedImage {signer : ImagePublicationSigner} {build : ImageBuild} :
    Peaceful (resolvePublishedImage signer build) :=
  Peaceful.ofExcept.bind fun _ => peaceful_readKeys.bind fun _ => Peaceful.read.bind fun _ =>
    Peaceful.ofExcept.bind fun _ => peaceful_observePublishedSnapshot.bind fun _ =>
      Peaceful.inspect.bind fun _ => Peaceful.ofExcept.bind fun _ => peaceful_readKeys.bind fun _ =>
        Peaceful.read.bind fun _ => Peaceful.ofExcept.bind fun _ => .pure

theorem verified_signRelease {signer : ImagePublicationSigner} {build : ImageBuild}
    {evidence : ImageReleaseEvidence} :
    Verified build.id (fun b _ => Ended b) (signRelease signer build evidence)
      (fun _ b _ => Ended b) (fun b _ => Ended b) :=
  have hcalm := Ended.lasting.calm
  .bind (peaceful_observePublishedSnapshot.verified hcalm) fun _ =>
    .bind ended_observe fun _ => .bind (Peaceful.read.verified hcalm) fun _ =>
      .bind (peaceful_readKeys.verified hcalm) fun _ =>
        .bind (Peaceful.ofExcept.verified hcalm) fun _ =>
          .bind (Ended.lasting.works works_commitRelease) fun _ => .pure fun _ _ h => h

theorem works_publishImageRelease {signer : ImagePublicationSigner} :
    Works (.build id) (publishImageRelease signer id) := by
  refine .inspected fun build hid => ?_
  split
  · exact (Works.peaceful peaceful_resolvePublishedImage).pre fun _ _ => trivial
  · refine Triple.bind (Q := fun _ => Condition.holds (fun b _ => Ended b) build.id)
      (Triple.ofExcept (fun evidence hevidence w hw => ?_) fun _ _ _ _ => trivial) fun evidence => ?_
    · simp only [bind_ok_iff, refuse_ok_iff, not_not, ne_eq] at hevidence
      obtain ⟨_, hreleasing, -⟩ := hevidence
      obtain ⟨b, hb, hunlocked, -⟩ := hw
      refine ⟨b, hb, Ended.lasting.unlocked ?_ hunlocked⟩
      rw [Ended, hreleasing]
      decide
    · exact Triple.post verified_signRelease (fun _ _ _ => trivial) fun _ _ _ => trivial

theorem works_readPublishedImage {signer : ImagePublicationSigner} :
    Works (.build id) (readPublishedImage signer id) :=
  .inspecting fun _ _ => .peaceful peaceful_resolvePublishedImage

theorem works_runImageEffect {command : ImageProviderCommand} {pricing : Pricing} :
    Works (.build id) (runImageEffect id command pricing) :=
  .inspected fun _ _ => Triple.post verified_runInspected (fun _ _ _ => trivial)
    fun _ _ _ => trivial

/-! ## Customers -/

section Customers

variable {allocationId : AllocationId} {attemptId : AttemptId} {operationId : OperationId}
  {command : ProviderCommand}

/-- The attempt of a customer's effect is on record. -/
def OnRecord (allocationId : AllocationId) (attemptId : AttemptId)
    (command : ProviderCommand) (w : World interface) : Prop :=
  ∃ journal, w.store.customer allocationId = some journal ∧
    ∃ a ∈ journal.attempts, a.id = attemptId ∧ a.command = command

theorem stable_attempt : Stable contract (.machine allocationId)
    (OnRecord allocationId attemptId command) := by
  rintro w v sees ⟨journal, hj, a, ha, hid, hcommand⟩
  obtain ⟨journal', hj', hkept⟩ := sees.customer allocationId journal hj
  obtain ⟨b, hb, hid', -, hcommand'⟩ := hkept a ha
  exact ⟨journal', hj', b, hb, hid'.trans hid, hcommand'.trans hcommand⟩

theorem triple_prepareCustomer : Triple contract (.machine allocationId) (fun _ => True)
    (prepareCustomer allocationId operationId command)
    (fun attemptId => OnRecord allocationId attemptId command) fun _ _ => True := by
  refine Triple.transact (fun _ _ _ _ => trivial) (fun _ _ _ _ _ _ => trivial) ?_
  intro w _ hvalid env a s hs
  simp only [bind_ok_iff, present_ok_iff, pure_ok_iff] at hs
  obtain ⟨journal, hj, journal', hinserted, hpair⟩ := hs
  obtain ⟨rfl, rfl⟩ := Prod.mk.inj hpair
  refine ⟨.attempt hj _ hinserted, fun _ => ⟨journal', ?_, ?_⟩⟩
  · rw [World.put_store, Store.customer_putCustomer hj (by rw [insertAttempt_allocation hinserted]),
      if_pos rfl]
  · rw [(insertAttempt_ok hinserted).2.2.2.2]
    exact ⟨_, List.mem_append_right _ (List.mem_singleton.mpr rfl), rfl, rfl⟩

theorem customerChange_record {journal : Journal} {record : Attempt → Attempt}
    (hrecord : ∀ a, AttemptChange a (record a)) : CustomerChange journal { journal with
      attempts := Table.update Attempt.id journal.attempts attemptId record } := by
  refine ⟨?_, rfl, fun _ => rfl, rfl⟩
  rw [Table.update]
  refine List.forall₂_map_right_iff.mpr (List.forall₂_same.mpr fun a _ => ?_)
  split
  · exact hrecord a
  · exact ⟨rfl, rfl, rfl, fun _ => rfl⟩

theorem works_recordCustomer {submission : Lifecycle.Submission} :
    Works (.machine allocationId) (recordCustomer allocationId attemptId submission) := by
  refine Triple.transact (fun _ _ _ _ => trivial) (fun _ _ _ _ _ _ => trivial) ?_
  intro w _ hvalid env a s hs
  refine ⟨?_, fun _ => trivial⟩
  split at hs
  · obtain ⟨-, rfl⟩ := Prod.mk.inj (pure_ok_iff.mp hs)
    exact .idle
  · next journal hj =>
    obtain ⟨-, rfl⟩ := Prod.mk.inj (pure_ok_iff.mp hs)
    refine .customer hj (customerChange_record fun a => ?_)
    split <;> exact ⟨rfl, rfl, rfl, fun _ => rfl⟩

theorem triple_renderBoot {P : World interface → Prop} {lock : Lock}
    (hP : Stable contract lock P) :
    Triple contract lock P (Prog.attempt (renderBoot operationId command)) (fun _ => P)
      fun _ _ => True := by
  intro w hw
  refine Safe.attempt ?_
  have hrender : Triple contract lock P (renderBoot operationId command) (fun _ => P)
      fun _ => P := by
    unfold renderBoot
    split
    · refine Triple.bind (Q := fun _ => P) (Triple.read hP (fun _ => .idle) fun v hv _ => hv)
        fun going => ?_
      split
      · exact Triple.pure fun _ hv => hv
      · exact Triple.throw fun _ hv => hv
    · exact Triple.pure fun _ hv => hv
  exact (hrender w hw).mono fun r v hr => by cases r <;> exact hr

theorem works_customerEffect : Works (.machine allocationId)
    (customerEffect allocationId operationId command) := by
  refine Triple.bind triple_prepareCustomer fun attemptId =>
    Triple.bind (triple_renderBoot stable_attempt) fun rendered => ?_
  cases rendered with
  | error fault => exact works_recordCustomer.pre fun _ _ => trivial
  | ok _ =>
    refine Triple.bind (Q := fun _ _ => True) (Triple.ask stable_attempt ?_) fun reply =>
      works_recordCustomer
    rintro w ⟨journal, hj, a, ha, rfl, rfl⟩ - r -
    exact ⟨.customerSubmit hj ha r, trivial⟩

end Customers

/-! ## Access keys -/

theorem works_completeImageAccessCleanup {worker : Nat} {build : ImageBuild} :
    Works (.access id worker) (completeImageAccessCleanup id build) := by
  unfold completeImageAccessCleanup
  split
  · exact .pure
  · have hstable : Stable contract (.access id worker) fun w => removedAccess id ∈ w.log := by
      intro w v sees hw
      obtain ⟨new, hlog, -⟩ := sees.log
      rw [hlog]
      exact List.mem_append_left _ hw
    refine Triple.bind (Q := fun reply w => reply = .ok () → removedAccess id ∈ w.log)
      (Triple.ask (fun _ _ _ _ => trivial) fun w _ _ r _ => ⟨.ask (.removeAccess id) r (by trivial), ?_⟩)
      fun reply => ?_
    · rintro rfl
      exact List.mem_append_right _ (List.mem_singleton.mpr rfl)
    · refine Triple.bind (Q := fun _ w => removedAccess id ∈ w.log)
        (Triple.ofExcept (fun _ hok w hw => hw hok) fun _ _ _ _ => trivial) fun _ => ?_
      refine Triple.transact hstable (fun _ _ _ _ _ _ => trivial) ?_
      intro w hgone hvalid env a s hs
      refine ⟨?_, fun _ => trivial⟩
      split at hs
      · obtain ⟨-, rfl⟩ := Prod.mk.inj (pure_ok_iff.mp hs)
        exact .idle
      · next b hb =>
        split at hs
        · obtain ⟨-, rfl⟩ := Prod.mk.inj (pure_ok_iff.mp hs)
          exact .idle
        · simp only [bind_ok_iff, pure_ok_iff] at hs
          obtain ⟨b', hupdate, hpair⟩ := hs
          obtain ⟨-, rfl⟩ := Prod.mk.inj hpair
          exact .removed hb hgone hupdate

/-! ## The discipline -/

theorem Works.ignore {lock : Lock} {p : Program α} (h : Works lock p) : Works lock p.ignore :=
  Works.bind h fun _ => Works.pure

theorem works_job {lock : Lock} {p : Program Unit} (job : Job lock p) : Works lock p := by
  cases job with
  | effect => exact works_runImageEffect.ignore
  | cleanup => exact works_planImageCleanup.ignore
  | builder => exact works_runImageBuilderWork.ignore
  | verify => exact works_verify
  | prepare => exact works_prepareImagePublication
  | publish => exact works_publishImageRelease.ignore
  | read => exact works_readPublishedImage.ignore
  | customer => exact works_customerEffect
  | access => exact works_completeImageAccessCleanup

/-- Every worker keeps the contract, and so does what happens besides. -/
theorem discipline : Discipline system contract where
  job_safe job _ := (works_job job).safe _
  other_valid h drift := Drift.valid h drift
  other_rely _ drift := drift.sees
  allows _ _ := trivial

end AgentCloud.Images
