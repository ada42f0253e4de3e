/-
  RETENTION: how long the snapshot of a release stays, and what a cleaned build leaves behind.

  Two parties hold on to a build.  The build itself cannot be recorded cleaned before its journal is
  settled and everything it made is recorded absent; after that nothing of it changes any more.  And
  the customers hold on to the snapshot: a deletion is prepared only when the create of every pin is
  settled, and by then no create can be prepared from a pin, as the build is being cleaned.

  What the law does not say is that nothing is submitted any more once a release has left the
  retained state: a create that was committed before may still be on its way.  It is pending, so the
  snapshot waits for it.
-/
import AgentCloud.Images.Allowance

namespace AgentCloud.Images

open Checked Durable
open Lifecycle (Journal Attempt ProviderCommand)

variable {store : Store} {log : Log} {b b' : ImageBuild}

/-! ## The last attempt of a target -/

/-- The last attempt of a target was not superseded. -/
def Unreplaced (effects : List Effect) : Prop :=
  ∀ base last, (historyOf effects base).getLast? = some last →
    ∀ id, last.resolution ≠ .superseded id

/-- Rewriting rows without superseding one keeps the last attempts standing. -/
theorem Unreplaced.map {effects : List Effect} (h : Unreplaced effects) {f : Effect → Effect}
    (hkey : ∀ e ∈ effects, (f e).key = e.key)
    (hf : ∀ e ∈ effects, ∀ id, (f e).resolution = .superseded id →
      e.resolution = .superseded id) : Unreplaced (effects.map f) := by
  intro base last hlast id hid
  rw [historyOf_map base hkey, List.getLast?_map] at hlast
  obtain ⟨e, he, rfl⟩ := Option.map_eq_some_iff.mp hlast
  have hm := (mem_historyOf.mp (List.mem_of_getLast? he)).1
  exact h base e he id (hf e hm id hid)

/-- Only the last attempt of a target is superseded, and the one that does it comes last. -/
theorem Unreplaced.prepared {effects : List Effect} (h : Unreplaced effects) {new : Effect}
    {superseded : Option EffectId} (hpending : new.resolution = .pending)
    (hbase : ∀ e ∈ effects, superseded = some e.id → e.key.base = new.key.base) :
    Unreplaced (supersededRows effects superseded new.id ++ [new]) := by
  intro base last hlast id hid
  by_cases hnew : new.key.base = base
  · have hhistory : historyOf (supersededRows effects superseded new.id ++ [new]) base =
        historyOf (supersededRows effects superseded new.id) base ++ [new] := by
      simp [historyOf, hnew]
    rw [hhistory, List.getLast?_concat] at hlast
    obtain rfl := Option.some.inj hlast
    rw [hpending] at hid
    cases hid
  · -- another target: its rows are as they were
    have hhistory : historyOf (supersededRows effects superseded new.id ++ [new]) base =
        historyOf effects base := by
      rw [historyOf, List.filter_append, List.filter_singleton, decide_eq_false hnew]
      cases superseded with
      | none => simp [supersededRows, historyOf]
      | some old =>
        rw [supersededRows, Table.update]
        have hrow : ∀ e ∈ effects, e.id = old → e.key.base ≠ base := fun e he heq hb =>
          hnew ((hbase e he (by rw [heq])).symm.trans hb)
        simp only [Bool.false_eq_true, if_false, List.append_nil, cond_false]
        rw [← historyOf, historyOf_map base (by
          intro e _
          split <;> rfl)]
        refine (List.map_congr_left fun e he => ?_).trans (List.map_id' _)
        obtain ⟨hm, hb⟩ := mem_historyOf.mp he
        rw [if_neg fun heq => hrow e hm heq hb]
    rw [hhistory] at hlast
    exact h base last hlast id hid

theorem Change.unreplaced (change : Change store log b b') (mem : b ∈ store.builds) (hs : Sound b)
    (h : Unreplaced b.effects) : Unreplaced b'.effects := by
  have heffects := change.effects
  generalize b'.effects = effects at heffects ⊢
  cases heffects with
  | kept => exact h
  | prepare new superseded fresh unkeyed now base inserted pins retry create =>
    rw [ImageBuild.prepared_effects (fresh_of_retry fresh mem retry create)]
    refine h.prepared inserted.pending fun e he hsuperseded => ?_
    cases hcreate : new.command.isImageCreate with
    | true =>
      rw [create hcreate] at hsuperseded
      cases hsuperseded
    | false =>
      have hretry := retry hcreate
      rw [hsuperseded] at hretry
      rw [hs.effects.base e he, base]
      obtain ⟨last, hlast, hid, hsame⟩ : ∃ last ∈ b.effects, last.id = e.id ∧
          last.command = new.command := by
        generalize hd : some e.id = delegated at hretry
        cases hretry with
        | first alone => cases hd
        | again last here same ended => cases hd
        | delegated last here same pending unsure =>
          exact ⟨last, (mem_historyOf.mp (List.mem_of_getLast? here)).1,
            (Option.some.inj hd).symm, same⟩
      obtain rfl := hs.effects.keyed.unique hlast he hid
      rw [hsame]
  | receipt effect hm here pending isOpen submission =>
    refine h.map (fun e _ => ?_) fun e _ id hid => ?_
    · split <;> rfl
    · split at hid <;> exact hid
  | settle effect hm resolution pending isOpen final recorded =>
    refine h.map (fun e _ => ?_) fun e _ id hid => ?_
    · split <;> rfl
    · split at hid
      · rw [show resolution = .superseded id from hid] at final
        rcases final with h | h <;> cases h
      · exact hid

/-! ## A cleaned build -/

theorem Progress.closes (h : Progress store log b b') (hcleaned : b'.state.cleaned? = true) :
    b.state.cleaned? = true ∨ (b.effects.any Effect.pending = false ∧
      b.resources.any Resource.live = false) := by
  cases h with
  | still state publication access => exact .inl (by rw [← state]; exact hcleaned)
  | evidence evidence fresh running active expected idle ordered eq =>
    rw [eq] at hcleaned
    cases hcleaned
  | release publication release releasable active issued retained eq =>
    rw [eq] at hcleaned
    cases hcleaned
  | cleaning reason early eq =>
    rw [eq] at hcleaned
    cases hcleaned
  | cleaned date cleaning idle absent eq => exact .inr ⟨idle, absent⟩
  | removed date fresh gone past eq =>
    rw [eq] at hcleaned
    exact .inl hcleaned

/-- The journal of a build that is or becomes cleaned is not touched. -/
theorem Change.frozen (change : Change store log b b') (h : b'.state.cleaned? = true) :
    b'.effects = b.effects ∧ b'.resources = b.resources := by
  cases change.progressed with
  | still state publication access =>
    rw [state] at h
    have heffects := change.effects
    have hresources := change.resources
    have hnot : b.state.cleaned? ≠ false := by simp [h]
    generalize b'.effects = effects at heffects ⊢
    generalize b'.resources = resources at hresources ⊢
    refine ⟨?_, ?_⟩
    · cases heffects with
      | kept => rfl
      | prepare new superseded fresh unkeyed now base inserted =>
        exact absurd inserted.isOpen hnot
      | receipt effect hm here pending isOpen => exact absurd isOpen hnot
      | settle effect hm resolution pending isOpen => exact absurd isOpen hnot
    · cases hresources with
      | kept => rfl
      | claim row isOpen => exact absurd isOpen hnot
      | observe row memRow isOpen => exact absurd isOpen hnot
  | evidence evidence fresh running active expected idle ordered eq =>
    rw [eq] at h
    cases h
  | release publication release releasable active issued retained eq =>
    rw [eq] at h
    cases h
  | cleaning reason early eq =>
    rw [eq] at h
    cases h
  | cleaned date cleaning idle absent eq => rw [eq]; exact ⟨rfl, rfl⟩
  | removed date fresh gone past eq => rw [eq]; exact ⟨rfl, rfl⟩

/-- What is true of every build, for the sake of the cleaned ones. -/
structure Closing (b : ImageBuild) : Prop where
  sound : Sound b
  unreplaced : Unreplaced b.effects
  closed : b.state.cleaned? = true →
    b.effects.any Effect.pending = false ∧ b.resources.any Resource.live = false

theorem Closing.change (h : Closing b) (change : Change store log b b') (mem : b ∈ store.builds) :
    Closing b' := by
  refine ⟨change.sound mem h.sound, change.unreplaced mem h.sound h.unreplaced, fun hcleaned => ?_⟩
  obtain ⟨heffects, hresources⟩ := change.frozen hcleaned
  rw [heffects, hresources]
  rcases change.progressed.closes hcleaned with hbefore | hidle
  · exact h.closed hbefore
  · exact hidle

/-- A cleaned build leaves nothing open and nothing behind. -/
structure Cleaned (b : ImageBuild) : Prop where
  settled : ∀ e ∈ b.effects, e.resolution ≠ .pending
  /-- Also where an uncertain attempt was replaced: the last of its target came to a definite end. -/
  concluded : ∀ e ∈ b.effects, ∃ last ∈ b.effects,
    (b.history (imageEffectKey e.command)).getLast? = some last ∧
      (last.resolution.confirmed? = true ∨ last.resolution.failed? = true)
  /-- A create was rejected, or what it made is on record. -/
  accounted : ∀ e ∈ b.effects, e.command.isImageCreate = true →
    e.outcome.rejected = true ∨ ∃ row ∈ b.resources, row.effectId = e.id
  named : ∀ e ∈ b.effects, e.command.isImageCreate = true → ∀ ref,
    e.outcome.resource? = some ref → ∃ row ∈ b.resources, row.ref = ref ∧ row.effectId = e.id
  absent : ∀ row ∈ b.resources, row.live = false

theorem ends_of_settled {resolution : ImageEffectResolution} (hpending : resolution ≠ .pending)
    (hsuperseded : ∀ id, resolution ≠ .superseded id) :
    resolution.confirmed? = true ∨ resolution.failed? = true := by
  cases resolution with
  | pending => exact absurd rfl hpending
  | superseded id => exact absurd rfl (hsuperseded id)
  | confirmed time => exact .inl rfl
  | failed reason => exact .inr rfl

theorem Closing.cleaned (h : Closing b) (hcleaned : b.state.cleaned? = true) : Cleaned b := by
  obtain ⟨hidle, habsent⟩ := h.closed hcleaned
  have hsettled : ∀ e ∈ b.effects, e.resolution ≠ .pending := fun e he hpending =>
    List.any_eq_false.mp hidle e he (Effect.pending_eq_true.mpr hpending)
  have hlast : ∀ e ∈ b.effects, ∃ last ∈ b.effects,
      (historyOf b.effects e.key.base).getLast? = some last ∧
        (last.resolution.confirmed? = true ∨ last.resolution.failed? = true) := by
    intro e he
    have hne : historyOf b.effects e.key.base ≠ [] :=
      List.ne_nil_of_mem (mem_historyOf.mpr ⟨he, rfl⟩)
    have hlast := List.getLast?_eq_some_getLast hne
    have hm := (mem_historyOf.mp (List.getLast_mem hne)).1
    exact ⟨_, hm, hlast, ends_of_settled (hsettled _ hm) (h.unreplaced _ _ hlast)⟩
  refine ⟨hsettled, fun e he => ?_, fun e he hcreate => ?_, fun e he hcreate =>
    (h.sound.settled e he (hsettled e he)).receipt hcreate, fun row hrow => ?_⟩
  · rw [ImageBuild.history_eq, ← h.sound.effects.base e he]
    exact hlast e he
  · -- a create is alone in its history, so it was not superseded
    obtain ⟨last, hm, hl, hends⟩ := hlast e he
    obtain ⟨labels, hlabels⟩ := Option.isSome_iff_exists.mp hcreate
    have hbase := (mem_historyOf.mp (List.mem_of_getLast? hl)).2
    rw [h.sound.effects.base last hm, h.sound.effects.base e he, imageEffectKey_create hlabels]
      at hbase
    obtain ⟨labels', hlabels', hrole⟩ := labels?_of_imageEffectKey hbase
    obtain rfl := h.sound.effects.create_unique hm he hlabels' hlabels hrole
    have hrecorded := h.sound.settled last he (hsettled last he)
    rcases hends with hconfirmed | hfailed
    · exact .inr (hrecorded.confirmed hcreate hconfirmed)
    · rcases hrecorded.failed hcreate hfailed with hrejected | hnamed
      · exact .inl hrejected
      · obtain ⟨ref, href⟩ := Option.isSome_iff_exists.mp hnamed
        obtain ⟨row, hrow, -, howner⟩ := hrecorded.receipt hcreate ref href
        exact .inr ⟨row, hrow, howner⟩
  · exact Bool.eq_false_iff.mpr (List.any_eq_false.mp habsent row hrow)

/-! ## Customers that hold on to a snapshot -/

def guestCreate : ProviderCommand → Bool
  | .createGuest .. => true
  | _ => false

/-- The attempt is the create of the pin. -/
def AllocationImage.boots (pin : AllocationImage) (a : Attempt) : Bool :=
  decide (a.operationId = pin.operationId) && guestCreate a.command

/-- A deletion of the snapshot was prepared. -/
def ImageBuild.snapshotDeleted (b : ImageBuild) : Prop :=
  ∃ e ∈ b.effects, ∃ ref, e.command = .delete ref ∧ ref.kind = .snapshot

/-- How a pin stands to its build and to its allocation. -/
structure Pinned (b : ImageBuild) (journal : Journal) (pin : AllocationImage) : Prop where
  account : journal.machine.accountId = pin.accountId
  released : 2 ≤ b.state.stage
  once : (journal.attempts.filter pin.boots).length ≤ 1
  /-- The snapshot waits for the create of the pin. -/
  settled : b.snapshotDeleted → ∀ a ∈ journal.attempts, pin.boots a = true →
    a.resolution ≠ .pending

structure PinsSound (store : Store) : Prop where
  keyed : Table.Keyed AllocationImage.operationId store.pins
  closing : ∀ b ∈ store.builds, b.snapshotDeleted → 3 ≤ b.state.stage
  pinned : ∀ pin ∈ store.pins, ∃ b journal, store.build pin.buildId = some b ∧
    store.customer pin.allocationId = some journal ∧ Pinned b journal pin

theorem guestCreate_sameKind {c d : ProviderCommand} (hc : guestCreate c = true)
    (hd : guestCreate d = true) : sameKind c d = true := by
  cases c <;> cases d <;> simp_all [guestCreate, sameKind]

theorem bootEffect_of_guestCreate {c : ProviderCommand} (h : guestCreate c = true) :
    bootEffect c = true := by
  cases c <;> simp_all [guestCreate, bootEffect, ProviderCommand.isServerCreate]

/-- What confirms a pin is its create. -/
theorem AllocationImage.boots_of_confirmedBy {pin : AllocationImage} {a : Attempt}
    (h : pin.confirmedBy a = true) : pin.boots a = true ∧ a.resolution ≠ .pending := by
  rw [AllocationImage.confirmedBy, Bool.and_eq_true] at h
  obtain ⟨hoperation, hmatch⟩ := h
  split at hmatch
  · next hcommand hresolution =>
    rw [AllocationImage.boots, hoperation, hcommand, hresolution]
    exact ⟨rfl, by simp⟩
  · cases hmatch

/-- A released pin has no pending create. -/
theorem settled_of_released {pin : AllocationImage} {journal : Journal}
    (once : (journal.attempts.filter pin.boots).length ≤ 1) (h : pin.released journal = true) :
    ∀ a ∈ journal.attempts, pin.boots a = true → a.resolution ≠ .pending := by
  intro a ha hboots hpending
  rw [AllocationImage.released, Bool.or_eq_true] at h
  rcases h with hconfirmed | hretired
  · -- the confirmed create is the only one
    obtain ⟨c, hc, hconfirms⟩ := List.any_eq_true.mp hconfirmed
    obtain ⟨hcboots, hcsettled⟩ := AllocationImage.boots_of_confirmedBy hconfirms
    have hma : a ∈ journal.attempts.filter pin.boots := List.mem_filter.mpr ⟨ha, hboots⟩
    have hmc : c ∈ journal.attempts.filter pin.boots := List.mem_filter.mpr ⟨hc, hcboots⟩
    have hlength : (journal.attempts.filter pin.boots).length = 1 := by
      have := List.length_pos_of_mem hma
      omega
    obtain ⟨one, hone⟩ := List.length_eq_one_iff.mp hlength
    rw [hone] at hma hmc
    have heq : a = c := (List.mem_singleton.mp hma).trans (List.mem_singleton.mp hmc).symm
    rw [heq] at hpending
    exact hcsettled hpending
  · rw [Bool.and_eq_true, Bool.and_eq_true] at hretired
    obtain ⟨⟨-, hidle⟩, -⟩ := hretired
    rw [Bool.not_eq_true', List.any_eq_false] at hidle
    rw [AllocationImage.boots, Bool.and_eq_true] at hboots
    refine hidle a ha ?_
    rw [hboots.1, Lifecycle.Attempt.pending, hpending]
    rfl

/-! ## What one step does to the pins -/

/-- A deletion of the snapshot begins only when nobody needs it. -/
theorem Change.snapshotDeleted (change : Change store log b b') (mem : b ∈ store.builds)
    (hs : Sound b) (h : b'.snapshotDeleted) : b.snapshotDeleted ∨
      (b.state.cleaning? = true ∧ imageSnapshotInUse store b.id = false) := by
  obtain ⟨f, hf, ref, hcommand, hkind⟩ := h
  have hold : ∀ rows : List Effect, (∀ e ∈ rows, e ∈ b.effects) → ∀ g : Effect → Effect,
      (∀ e ∈ rows, (g e).command = e.command) → f ∈ rows.map g → b.snapshotDeleted := by
    intro rows hrows g hg hm
    obtain ⟨e, he, rfl⟩ := List.mem_map.mp hm
    exact ⟨e, hrows e he, ref, (hg e he).symm.trans hcommand, hkind⟩
  obtain ⟨g, hg, hrows | ⟨new, superseded, hrows, -, -, -, -, inserted, pins, -⟩⟩ :=
    change.effects.rows mem hs.effects
  · rw [hrows] at hf
    exact .inl (hold b.effects (fun _ he => he) g (fun e he => (hg e he).command) hf)
  · rw [hrows] at hf
    rcases List.mem_append.mp hf with hf | hf
    · exact .inl (hold b.effects (fun _ he => he) g (fun e he => (hg e he).command) hf)
    · obtain rfl := List.mem_singleton.mp hf
      right
      obtain ⟨hstate, hsnapshot, -⟩ := inserted.delete ref hcommand
      have hcleaning : b.state.cleaning? = true := by
        rcases hstate with hreleasing | hcleaning
        · exact absurd hkind (hsnapshot hreleasing)
        · exact hcleaning
      refine ⟨hcleaning, ?_⟩
      rw [guardSnapshotPins, hcommand] at pins
      simpa [refuse_ok_iff, hkind] using pins

/-- A pin of an unused snapshot is released. -/
theorem released_of_unused {pin : AllocationImage} {journal : Journal}
    (h : imageSnapshotInUse store pin.buildId = false) (mem : pin ∈ store.pins)
    (here : store.customer pin.allocationId = some journal)
    (account : journal.machine.accountId = pin.accountId) : pin.released journal = true := by
  have hpin := List.any_eq_false.mp h pin mem
  simpa [here, account] using hpin

variable {w w' : World interface}

theorem PinsSound.written {id : ImageBuildId} (h : PinsSound w.store) (hvalid : Valid w)
    (written : Written w id w') : PinsSound w'.store := by
  obtain @⟨b, b', here, change⟩ := written
  obtain rfl := Store.build_id here
  have hmem := Store.build_mem here
  have hs := hvalid.sound b hmem
  have hforward := change.publicationKept.forward
  refine ⟨h.keyed, fun x hx hdeleted => ?_, fun pin hpin => ?_⟩
  · rcases (Store.mem_putBuild hvalid.keyed change.id here).mp hx with rfl | ⟨hx, -⟩
    · rcases change.snapshotDeleted hmem hs hdeleted with hbefore | ⟨hcleaning, -⟩
      · exact Nat.le_trans (h.closing b hmem hbefore) hforward
      · rw [stage_of_cleaning hcleaning] at hforward
        exact hforward
    · exact h.closing x hx hdeleted
  · obtain ⟨c, journal, hc, hj, hpinned⟩ := h.pinned pin hpin
    have hbuild : (w.store.putBuild b').build pin.buildId =
        if pin.buildId = b.id then some b' else w.store.build pin.buildId :=
      Store.build_putBuild change.id here
    by_cases hid : pin.buildId = b.id
    · have hcb : c = b := by
        rw [hid, here] at hc
        exact (Option.some.inj hc).symm
      rw [hcb] at hpinned
      rw [if_pos hid] at hbuild
      refine ⟨b', journal, hbuild, hj, hpinned.account, Nat.le_trans hpinned.released hforward,
        hpinned.once, fun hdeleted => ?_⟩
      rcases change.snapshotDeleted hmem hs hdeleted with hbefore | ⟨-, hunused⟩
      · exact hpinned.settled hbefore
      · rw [← hid] at hunused
        exact settled_of_released hpinned.once
          (released_of_unused hunused hpin hj hpinned.account)
    · rw [if_neg hid, hc] at hbuild
      exact ⟨c, journal, hbuild, hj, hpinned⟩

/-- One rewritten customer journal. -/
theorem PinsSound.customer {id : AllocationId} {journal journal' : Journal}
    (h : PinsSound w.store) (here : w.store.customer id = some journal)
    (hid : journal'.allocation.id = journal.allocation.id)
    (hpinned : ∀ pin ∈ w.store.pins, ∀ b, w.store.build pin.buildId = some b →
      Pinned b journal pin → Pinned b journal' pin) :
    PinsSound (w.store.putCustomer id journal') := by
  refine ⟨h.keyed, h.closing, fun pin hpin => ?_⟩
  obtain ⟨b, j, hb, hj, hold⟩ := h.pinned pin hpin
  by_cases hsame : pin.allocationId = id
  · rw [hsame, here] at hj
    obtain rfl := Option.some.inj hj
    refine ⟨b, journal', hb, ?_, hpinned pin hpin b hb hold⟩
    rw [Store.customer_putCustomer here hid, if_pos hsame]
  · refine ⟨b, j, hb, ?_, hold⟩
    rw [Store.customer_putCustomer here hid, if_neg hsame]
    exact hj

theorem pinOf_mem {pin : AllocationImage} (h : PinsSound store) (mem : pin ∈ store.pins) :
    store.pinOf pin.operationId = some pin :=
  h.keyed.get mem

/-- A create from a pin is prepared once, while the release is retained. -/
theorem guardPinnedGuestEffect_ok {journal : Journal} {new : Attempt} {pin : AllocationImage}
    (h : guardPinnedGuestEffect store journal new = .ok ())
    (pinned : store.pinOf new.operationId = some pin) (boot : bootEffect new.command = true) :
    (∃ b, store.build pin.buildId = some b ∧ b.bootable store.clock = true) ∧
      (journal.history new.operationId).any (fun attempt =>
        sameKind attempt.command new.command) = false := by
  simp only [guardPinnedGuestEffect, pinned, boot, if_true, bind_ok_iff, present_ok_iff,
    refuse_ok_iff, not_or, Bool.not_eq_false, Bool.not_eq_true] at h
  obtain ⟨b, hb, operation, -, _, ⟨hbootable, -, -, -, -, hfirst⟩, -⟩ := h
  exact ⟨⟨b, hb, hbootable⟩, hfirst⟩

theorem stage_of_bootable {now : Instant} (h : b.bootable now = true) : b.state.stage = 2 := by
  rw [ImageBuild.bootable, Bool.and_eq_true] at h
  cases hs : b.state <;> simp_all [ImageBuildState.retained?, ImageBuildState.stage]

/-- A fresh attempt of a customer. -/
theorem PinsSound.attempt {id : AllocationId} {journal journal' : Journal} {new : Attempt}
    (h : PinsSound w.store) (here : w.store.customer id = some journal)
    (inserted : insertAttempt w.store journal new = .ok journal') :
    PinsSound (w.store.putCustomer id journal') := by
  obtain ⟨-, -, -, hguard, rfl⟩ := insertAttempt_ok inserted
  refine h.customer here rfl fun pin hpin b hb hold => ?_
  cases hboots : pin.boots new with
  | false =>
    refine ⟨hold.account, hold.released, ?_, fun hdeleted a ha hbootsa => ?_⟩
    · rw [List.filter_append, List.filter_cons_of_neg (by simp [hboots]), List.filter_nil,
        List.append_nil]
      exact hold.once
    · rcases List.mem_append.mp ha with ha | ha
      · exact hold.settled hdeleted a ha hbootsa
      · rw [List.mem_singleton.mp ha, hboots] at hbootsa
        cases hbootsa
  | true =>
    have hparts := hboots
    rw [AllocationImage.boots, Bool.and_eq_true, decide_eq_true_eq] at hparts
    obtain ⟨hoperation, hguest⟩ := hparts
    have hpinOf : w.store.pinOf new.operationId = some pin := by
      rw [hoperation]
      exact pinOf_mem h hpin
    obtain ⟨⟨c, hc, hbootable⟩, hfirst⟩ :=
      guardPinnedGuestEffect_ok hguard hpinOf (bootEffect_of_guestCreate hguest)
    have hnone : journal.attempts.filter pin.boots = [] := by
      refine List.filter_eq_nil_iff.mpr fun a ha hbootsa => ?_
      rw [AllocationImage.boots, Bool.and_eq_true, decide_eq_true_eq] at hbootsa
      refine List.any_eq_false.mp hfirst a ?_ (guestCreate_sameKind hbootsa.2 hguest)
      exact List.mem_filter.mpr ⟨ha, decide_eq_true (hbootsa.1.trans hoperation.symm)⟩
    refine ⟨hold.account, hold.released, ?_, fun hdeleted => ?_⟩
    · rw [List.filter_append, hnone, List.nil_append]
      exact List.length_filter_le _ _
    · -- the build of the pin is retained, so no deletion of its snapshot was prepared
      rw [hb] at hc
      obtain rfl := Option.some.inj hc
      have hstage := h.closing b (Store.build_mem hb) hdeleted
      rw [stage_of_bootable hbootable] at hstage
      omega

theorem AttemptChange.exists_old {old new : List Attempt}
    (h : List.Forall₂ AttemptChange old new) : ∀ y ∈ new, ∃ x ∈ old, AttemptChange x y := by
  intro y hy
  induction h with
  | nil => cases hy
  | cons hxy _ ih =>
    rcases List.mem_cons.mp hy with rfl | hy
    · exact ⟨_, List.mem_cons_self, hxy⟩
    · obtain ⟨x, hx, hchange⟩ := ih hy
      exact ⟨x, List.mem_cons_of_mem _ hx, hchange⟩

/-- What the rest of the lifecycle does to a customer's journal. -/
theorem Pinned.change {pin : AllocationImage} {journal journal' : Journal}
    (h : Pinned b journal pin) (change : CustomerChange journal journal') :
    Pinned b journal' pin := by
  have hboots : ∀ {x y : Attempt}, AttemptChange x y → pin.boots y = pin.boots x := by
    intro x y hxy
    rw [AllocationImage.boots, AllocationImage.boots, hxy.operationId, hxy.command]
  refine ⟨change.account.trans h.account, h.released, ?_, fun hdeleted y hy hbootsy => ?_⟩
  · have hlength : ∀ {old new : List Attempt}, List.Forall₂ AttemptChange old new →
        (new.filter pin.boots).length = (old.filter pin.boots).length := by
      intro old new hall
      induction hall with
      | nil => rfl
      | cons hxy _ ih =>
        rw [List.filter_cons, List.filter_cons, hboots hxy]
        split
        · rw [List.length_cons, List.length_cons, ih]
        · exact ih
    rw [hlength change.attempts]
    exact h.once
  · obtain ⟨x, hx, hxy⟩ := AttemptChange.exists_old change.attempts y hy
    rw [hboots hxy] at hbootsy
    have hsettled := h.settled hdeleted x hx hbootsy
    rw [hxy.settled hsettled]
    exact hsettled

/-- A fresh pin, of a release that is retained. -/
theorem PinsSound.pin {trusted : SignedImageRelease → Bool} {pin : AllocationImage}
    {store' : Store} (h : PinsSound store)
    (ok : pinAllocationImage trusted pin store = .ok store') : PinsSound store' := by
  obtain ⟨hguard, hunique, rfl⟩ := pinAllocationImage_ok ok
  simp only [guardAllocationImage, bind_ok_iff, present_ok_iff, refuse_ok_iff, not_or, not_not,
    ne_eq, Bool.not_eq_false] at hguard
  obtain ⟨b, hb, release, -, journal, hj, operation, -, hretained, -, haccount, -, -, -, -, -, -,
    -, hhistory⟩ := hguard
  refine ⟨h.keyed.insert (Table.get_eq_none.mpr fun other hother => (hunique other hother).2),
    h.closing, fun other hother => ?_⟩
  rcases List.mem_append.mp hother with hother | hother
  · exact h.pinned other hother
  · obtain rfl := List.mem_singleton.mp hother
    have hstage : b.state.stage = 2 := by
      cases hs : b.state <;> simp_all [ImageBuildState.retained?, ImageBuildState.stage]
    have hnone : journal.attempts.filter other.boots = [] := by
      refine List.filter_eq_nil_iff.mpr fun a ha hboots => ?_
      rw [AllocationImage.boots, Bool.and_eq_true] at hboots
      have hm : a ∈ journal.history other.operationId := List.mem_filter.mpr ⟨ha, hboots.1⟩
      rw [hhistory] at hm
      cases hm
    refine ⟨b, journal, hb, hj, haccount, by omega, by simp [hnone], fun hdeleted => ?_⟩
    have := h.closing b (Store.build_mem hb) hdeleted
    omega

/-- **Step lemma.** -/
theorem PinsSound.step (h : PinsSound w.store) (hvalid : Valid w)
    (effect : Discipline.Effect system contract w w') : PinsSound w'.store := by
  cases effect with
  | idle => exact h
  | does lock does =>
    cases does with
    | idle => exact h
    | write here change => exact h.written hvalid (.mk here change)
    | ask => exact h
    | submit => exact h
    | attempt here new inserted => exact h.attempt here inserted
    | customer here change =>
      exact h.customer here change.allocation fun pin _ b _ hold => hold.change change
    | customerSubmit => exact h
    | removed here gone written =>
      obtain rfl := Store.build_id here
      exact h.written hvalid (.mk here (.accessRemoved gone written))
  | other drift =>
    cases drift with
    | time => exact ⟨h.keyed, h.closing, h.pinned⟩
    | admitted admission catalog limits date state store ok =>
      rcases admitImageBuild_ok ok with rfl | ⟨hfresh, rfl⟩
      · exact h
      · refine ⟨h.keyed, fun b hb hdeleted => ?_, fun pin hpin => ?_⟩
        · rcases List.mem_append.mp hb with hb | hb
          · exact h.closing b hb hdeleted
          · rw [List.mem_singleton.mp hb] at hdeleted
            obtain ⟨e, he, -⟩ := hdeleted
            cases he
        · obtain ⟨b, journal, hb, hj, hold⟩ := h.pinned pin hpin
          refine ⟨b, journal, ?_, hj, hold⟩
          have hget : Table.get ImageBuild.id w.store.builds pin.buildId = some b := hb
          rw [World.put_store, Store.build, Table.get_append, hget]
          rfl
    | cancelled id reason store ok =>
      obtain ⟨b, b', here, written, rfl⟩ := requestCleanup_ok ok
      exact h.written hvalid (.mk here (.cleaning reason written))
    | runRequested here written => exact h.written hvalid (.mk here (.runRequested written))
    | enrolled journal fresh unasked =>
      refine ⟨h.keyed, h.closing, fun pin hpin => ?_⟩
      obtain ⟨b, j, hb, hj, hold⟩ := h.pinned pin hpin
      refine ⟨b, j, hb, ?_, hold⟩
      have hget : Table.get (fun row : Journal => row.allocation.id) w.store.customers
        pin.allocationId = some j := hj
      rw [World.put_store, Store.customer, Table.get_append, hget]
      rfl
    | pinned trusted pin store ok => exact h.pin ok
    | customer here change =>
      exact h.customer here change.allocation fun pin _ b _ hold => hold.change change

variable {c c' : Plane} {clock : Instant}

theorem closing (h : system.Reach (.idle (empty clock)) c) :
    ∀ b ∈ c.world.store.builds, Closing b :=
  build_invariant (P := fun _ b => Closing b)
    (fun _ admission => ⟨.admitted admission, by simp [Unreplaced, historyOf, ImageBuild.admitted],
      by simp [ImageBuild.admitted, ImageBuildState.cleaned?]⟩)
    (fun hb _ => hb) (fun mem _ hb change => hb.change change mem) h

/-- What is kept of a build until its customers and its own journal let go. -/
structure Retained (store : Store) : Prop where
  cleaned : ∀ b ∈ store.builds, b.state.cleaned? = true → Cleaned b
  pinned : ∀ pin ∈ store.pins, ∃ b journal, store.build pin.buildId = some b ∧
    store.customer pin.allocationId = some journal ∧ Pinned b journal pin

namespace Demo

def customer : Journal where
  machine := ⟨"mach", "acct", "proj", ⟨"web", .small, .nbg1⟩, .hetzner, .provisioning "alloc", 1⟩
  allocation := ⟨"alloc", .hetzner, none, .managedIpv4, "EUR", 6500, offer.toCatalogItem, none⟩
  operations := [⟨"create", "root", .create ⟨"web", .small, .nbg1⟩, some offer.toCatalogItem, .run,
    .queued, 0⟩]
  attempts := []
  resources := []
  cleanups := []
  recoveries := []
  closures := []

def pin : AllocationImage := ⟨"alloc", "acct", "create", "build", "snapshot"⟩

/-- A customer is admitted to a release. -/
def admitted : List (Scene allowance) :=
  story ++ [.event (.enroll customer), .event (.pin (fun _ => true) pin)]

def boot : ProviderCommand := .createGuest ⟨"web", "cx22", "nbg1", []⟩ "ip" "alloc"

/-- The next thing that is asked is the create of the pin, and its build is being cleaned. -/
def stale (v : World interface) : Option Call → Bool
  | some (.customerSubmit attemptId command) =>
    (v.store.build pin.buildId).any (fun b => b.state.cleaning?) &&
      decide (pin ∈ v.store.pins) &&
      (v.store.customer pin.allocationId).any fun journal => journal.attempts.any fun a =>
        pin.boots a && decide (a.id = attemptId ∧ a.command = command)
  | _ => false

end Demo

end AgentCloud.Images
