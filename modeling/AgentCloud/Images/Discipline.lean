/-
  THE DISCIPLINE OF THE IMAGE WORKERS: who may do what, and what a worker may count on.

  One worker at a time holds the lock of a build, and one that of a customer's machine; the removal
  of a build's access keys needs no lock, so any number of workers may be at it.  Between two actions
  of the holder of a build's lock, time passes, other builds move, customers come and go, and its own
  build may be cancelled, be asked to run or lose its access keys (`Unlocked`); its journal and its
  resources stay as it knows them.

  `Valid` is what holds of the database and of everything that was asked, and `Does.valid` and
  `Drift.valid` are its step lemmas.
-/
import AgentCloud.Images.Invariant
import AgentCloud.Lib.Triple

namespace AgentCloud.Images

open Checked Durable
open Lifecycle (Journal Attempt)

/-! ## Locks and calls -/

inductive Lock where
  | build (id : ImageBuildId)
  | machine (id : AllocationId)
  /-- `completeImageAccessCleanup` runs without a lock. -/
  | access (id : ImageBuildId) (worker : Nat)
  deriving DecidableEq

/-- The effect that a call submits. -/
def Call.effect? : Call → Option EffectId
  | submit effectId _ => some effectId
  | _ => none

/-- What may be asked without a row behind it; an action is asked for by its build's worker. -/
def Call.quiet (lock : Lock) : Call → Prop
  | submit .. => False
  | customerSubmit .. => False
  | getAction buildId _ _ => lock = .build buildId
  | _ => True

/-- How often an effect was submitted. -/
def submissions (log : Log) (id : EffectId) : Nat :=
  log.countP fun exchange => exchange.call.effect? = some id

theorem submissions_append {log new : Log} {id : EffectId}
    (h : ∀ exchange ∈ new, exchange.call.effect? ≠ some id) :
    submissions (log ++ new) id = submissions log id := by
  have hnone : new.countP (fun exchange => exchange.call.effect? = some id) = 0 := by
    rw [List.countP_eq_zero]
    intro exchange hm
    simpa using h exchange hm
  rw [submissions, List.countP_append, hnone, Nat.add_zero, submissions]

theorem submissions_submit {log : Log} {exchange : Exchange interface} {id : EffectId}
    (h : exchange.call.effect? = some id) :
    submissions (log ++ [exchange]) id = submissions log id + 1 := by
  simp [submissions, h]

/-! ## Rows of the store -/

namespace Store

variable {store : Store} {build build' : ImageBuild} {id : ImageBuildId}

theorem build_mem (h : store.build id = some build) : build ∈ store.builds := Table.get_mem h

theorem build_id (h : store.build id = some build) : build.id = id := Table.get_key h

theorem customer_id {journal : Journal} {id : AllocationId} (h : store.customer id = some journal) :
    journal.allocation.id = id :=
  @Table.get_key _ _ _ (fun journal : Journal => journal.allocation.id) _ _ _ h

theorem customer_putCustomer {journal journal' : Journal} {id other : AllocationId}
    (here : store.customer id = some journal)
    (hid : journal'.allocation.id = journal.allocation.id) :
    (store.putCustomer id journal').customer other =
      if other = id then some journal' else store.customer other := by
  have h : Table.get (fun journal : Journal => journal.allocation.id) store.customers id =
    some journal := here
  have hkey : journal'.allocation.id = id := hid.trans (customer_id here)
  have hreplaced : (store.putCustomer id journal').customer other =
      if other = id then (Table.get (fun journal : Journal => journal.allocation.id)
        store.customers id).map (fun _ => journal') else store.customer other :=
    Table.get_replace hkey
  rw [hreplaced, h]
  rfl

theorem build_putBuild (hid : build'.id = build.id) (h : store.build build.id = some build) :
    (store.putBuild build').build id = if id = build.id then some build' else store.build id := by
  have h' : Table.get ImageBuild.id store.builds build.id = some build := h
  have hreplaced : Table.get ImageBuild.id
      (Table.update ImageBuild.id store.builds build.id fun _ => build') id =
      if id = build.id then (Table.get ImageBuild.id store.builds build.id).map (fun _ => build')
        else store.build id :=
    Table.get_replace hid
  rw [Store.build, putBuild, updateBuild, hid, hreplaced, h']
  rfl

theorem mem_putBuild (hkeyed : Table.Keyed ImageBuild.id store.builds) (hid : build'.id = build.id)
    (h : store.build build.id = some build) {other : ImageBuild} :
    other ∈ (store.putBuild build').builds ↔
      other = build' ∨ (other ∈ store.builds ∧ other.id ≠ build.id) := by
  rw [putBuild, updateBuild, hid]
  exact hkeyed.mem_update (build_mem h)

end Store

/-! ## What holds of the world -/

structure Valid (w : World interface) : Prop where
  keyed : Table.Keyed ImageBuild.id w.store.builds
  /-- An effect belongs to one build. -/
  effects : ∀ b ∈ w.store.builds, ∀ c ∈ w.store.builds, ∀ e ∈ b.effects, ∀ f ∈ c.effects,
    e.id = f.id → b = c
  sound : ∀ b ∈ w.store.builds, Sound b
  submitted : ∀ exchange ∈ w.log, ∀ id command, exchange.call = .submit id command →
    ∃ b ∈ w.store.builds, ∃ e ∈ b.effects, e.id = id ∧ e.command = command
  once : ∀ id, submissions w.log id ≤ 1
  customers : Table.Keyed (fun journal : Journal => journal.allocation.id) w.store.customers

namespace Valid

variable {w : World interface} {b : ImageBuild} {id : ImageBuildId}

theorem get (h : Valid w) (hm : b ∈ w.store.builds) : w.store.build b.id = some b :=
  h.keyed.get hm

theorem sound_of (h : Valid w) (hb : w.store.build id = some b) : Sound b :=
  h.sound b (Store.build_mem hb)

/-- Effects of different builds are different. -/
theorem foreign (h : Valid w) {c : ImageBuild} (hb : b ∈ w.store.builds) (hc : c ∈ w.store.builds)
    (hne : b.id ≠ c.id) {e f : Effect} (he : e ∈ b.effects) (hf : f ∈ c.effects) : e.id ≠ f.id := by
  intro heq
  exact hne (congrArg ImageBuild.id (h.effects b hb c hc e he f hf heq))

end Valid

/-! ## What a worker may do -/

/-- The row of an attempt stays, as what it is. -/
def AttemptsKept (old new : Journal) : Prop :=
  ∀ a ∈ old.attempts, ∃ b ∈ new.attempts, b.id = a.id ∧ b.operationId = a.operationId ∧
    b.command = a.command

theorem AttemptsKept.refl (journal : Journal) : AttemptsKept journal journal :=
  fun a ha => ⟨a, ha, rfl, rfl, rfl⟩

theorem AttemptsKept.trans {a b c : Journal} (h : AttemptsKept a b) (h' : AttemptsKept b c) :
    AttemptsKept a c := by
  intro x hx
  obtain ⟨y, hy, hid, howner, hcommand⟩ := h x hx
  obtain ⟨z, hz, hid', howner', hcommand'⟩ := h' y hy
  exact ⟨z, hz, hid'.trans hid, howner'.trans howner, hcommand'.trans hcommand⟩

theorem AttemptChange.exists_new {old new : List Attempt} (h : List.Forall₂ AttemptChange old new) :
    ∀ a ∈ old, ∃ b ∈ new, AttemptChange a b := by
  intro a ha
  induction h with
  | nil => cases ha
  | cons change _ ih =>
    rcases List.mem_cons.mp ha with rfl | ha
    · exact ⟨_, List.mem_cons_self, change⟩
    · obtain ⟨b, hb, hsame⟩ := ih ha
      exact ⟨b, List.mem_cons_of_mem _ hb, hsame⟩

theorem CustomerChange.attemptsKept {old new : Journal} (h : CustomerChange old new) :
    AttemptsKept old new := by
  intro a ha
  obtain ⟨b, hb, change⟩ := AttemptChange.exists_new h.attempts a ha
  exact ⟨b, hb, change.id, change.operationId, change.command⟩

inductive Does : Lock → World interface → World interface → Prop where
  | idle {lock : Lock} {w : World interface} : Does lock w w
  | write {id : ImageBuildId} {w : World interface} {b b' : ImageBuild}
      (here : w.store.build id = some b) (change : Change w.store w.log b b') :
      Does (.build id) w (w.put (w.store.putBuild b'))
  | ask {lock : Lock} {w : World interface} (c : Call) (r : c.Reply) (quiet : c.quiet lock) :
      Does lock w (w.exchange c r)
  | submit {id : ImageBuildId} {w : World interface} {b : ImageBuild}
      (here : w.store.build id = some b) {e : Effect} (mem : e ∈ b.effects)
      (prepared : e.outcome = .prepared) (pending : e.resolution = .pending)
      (unasked : submissions w.log e.id = 0) (r : (Call.submit e.id e.command).Reply) :
      Does (.build id) w (w.exchange (.submit e.id e.command) r)
  | attempt {id : AllocationId} {w : World interface} {journal journal' : Journal}
      (here : w.store.customer id = some journal) (new : Attempt)
      (inserted : insertAttempt w.store journal new = .ok journal') :
      Does (.machine id) w (w.put (w.store.putCustomer id journal'))
  | customer {id : AllocationId} {w : World interface} {journal journal' : Journal}
      (here : w.store.customer id = some journal) (change : CustomerChange journal journal') :
      Does (.machine id) w (w.put (w.store.putCustomer id journal'))
  | customerSubmit {id : AllocationId} {w : World interface} {journal : Journal}
      (here : w.store.customer id = some journal) {a : Attempt} (mem : a ∈ journal.attempts)
      (r : (Call.customerSubmit a.id a.command).Reply) :
      Does (.machine id) w (w.exchange (.customerSubmit a.id a.command) r)
  /-- The keys are gone before it is recorded. -/
  | removed {id : ImageBuildId} {worker : Nat} {w : World interface} {b b' : ImageBuild}
      (here : w.store.build id = some b) (gone : removedAccess id ∈ w.log)
      (written : updateImageBuild w.store.clock b (fun row =>
        { row with accessRemovedAt := some w.store.clock }) = .ok b') :
      Does (.access id worker) w (w.put (w.store.putBuild b'))

/-- What happens besides: time passes, builds are admitted, cancelled and asked to run, and
    customers go their way. -/
inductive Drift (w : World interface) : World interface → Prop where
  | time (clock : Instant) (h : w.store.clock ≤ clock) : Drift w (w.put { w.store with clock })
  | admitted (admission : ImageBuildAdmission) (catalog : ImageCatalog) (limits : ImageBuildLimits)
      (date : Instant) (state : ImageBuildState) (store : Store)
      (ok : admitImageBuild admission catalog limits date w.store = .ok (state, store)) :
      Drift w (w.put store)
  | cancelled (id : ImageBuildId) (reason : CleanupReason) (store : Store)
      (ok : requestCleanup id reason w.store = .ok ((), store)) : Drift w (w.put store)
  | runRequested {id : ImageBuildId} {b b' : ImageBuild} (here : w.store.build id = some b)
      (written : updateImageBuild w.store.clock b (fun row =>
        { row with runRequestedAt := some w.store.clock }) = .ok b') :
      Drift w (w.put (w.store.putBuild b'))
  | enrolled (journal : Journal) (fresh : w.store.customer journal.allocation.id = none)
      (unasked : journal.attempts = []) :
      Drift w (w.put { w.store with customers := w.store.customers ++ [journal] })
  | pinned (trusted : SignedImageRelease → Bool) (pin : AllocationImage) (store : Store)
      (ok : pinAllocationImage trusted pin w.store = .ok store) : Drift w (w.put store)
  | customer {id : AllocationId} {journal journal' : Journal}
      (here : w.store.customer id = some journal) (change : CustomerChange journal journal') :
      Drift w (w.put (w.store.putCustomer id journal'))

/-! ## Changes without the lock -/

/-- Cancelling, asking to run and recording the removal of the keys are changes anybody may make. -/
theorem updateImageBuild_unlocked {now : Instant} {b b' : ImageBuild} {f : ImageBuild → ImageBuild}
    (hf : Unlocked b (f b)) (written : updateImageBuild now b f = .ok b') : Unlocked b b' := by
  rw [(updateImageBuild_ok written).2.2]
  exact hf

theorem unlocked_requested (b : ImageBuild) (reason : CleanupReason) :
    Unlocked b (b.requested reason) := by
  unfold ImageBuild.requested
  split
  · next hstage =>
    exact ⟨rfl, rfl, rfl, rfl, rfl, rfl, rfl, rfl, .inr ⟨hstage, rfl⟩, fun _ => rfl, fun _ => rfl⟩
  · exact .refl b

theorem guardImageWorkflow_ok {now : Instant} {old new : ImageBuild}
    (h : guardImageWorkflow now old new = .ok ()) :
    (new.runRequestedAt = old.runRequestedAt ∨ (old.runRequestedAt = none ∧
      new.state = .running ∧ now < new.admission.deadlineAt)) ∧
    (new.accessRemovedAt = old.accessRemovedAt ∨ (old.accessRemovedAt = none ∧
      new.state ≠ .running ∧ old.temporary = false ∧
      old.effects.any Effect.pending = false)) := by
  simp only [guardImageWorkflow, bind_ok_iff, refuse_ok_iff, not_and, not_or, ne_eq, not_not,
    Bool.not_eq_true, Option.isSome_eq_false_iff, Option.isNone_iff_eq_none, Nat.not_le] at h
  obtain ⟨_, hrun, haccess⟩ := h
  constructor
  · by_cases heq : new.runRequestedAt = old.runRequestedAt
    · exact .inl heq
    · obtain ⟨hnone, -, hrunning, hdeadline⟩ := hrun heq
      exact .inr ⟨hnone, hrunning, hdeadline⟩
  · by_cases heq : new.accessRemovedAt = old.accessRemovedAt
    · exact .inl heq
    · obtain ⟨hnone, -, hstate, htemporary, hidle⟩ := haccess heq
      exact .inr ⟨hnone, hstate, htemporary, hidle⟩

theorem unlocked_runRequested {now : Instant} {b b' : ImageBuild}
    (written : updateImageBuild now b (fun row => { row with runRequestedAt := some now }) =
      .ok b') : Unlocked b b' := by
  obtain ⟨-, hworkflow, rfl⟩ := updateImageBuild_ok written
  refine ⟨rfl, rfl, rfl, rfl, rfl, rfl, rfl, rfl, .inl rfl, fun _ => rfl, fun hsome => ?_⟩
  rcases (guardImageWorkflow_ok hworkflow).1 with heq | ⟨hnone, -⟩
  · exact heq
  · rw [hnone] at hsome
    cases hsome

theorem unlocked_removed {now : Instant} {b b' : ImageBuild}
    (written : updateImageBuild now b (fun row => { row with accessRemovedAt := some now }) =
      .ok b') : Unlocked b b' := by
  obtain ⟨-, hworkflow, rfl⟩ := updateImageBuild_ok written
  refine ⟨rfl, rfl, rfl, rfl, rfl, rfl, rfl, rfl, .inl rfl, fun hsome => ?_, fun _ => rfl⟩
  rcases (guardImageWorkflow_ok hworkflow).2 with heq | ⟨hnone, -⟩
  · exact heq
  · rw [hnone] at hsome
    cases hsome

theorem requestCleanup_ok {id : ImageBuildId} {reason : CleanupReason} {store store' : Store}
    (h : requestCleanup id reason store = .ok ((), store')) : ∃ b b', store.build id = some b ∧
      updateImageBuild store.clock b (fun row => row.requested reason) = .ok b' ∧
      store' = store.putBuild b' := by
  simp only [requestCleanup, bind_ok_iff, present_ok_iff, pure_ok_iff] at h
  obtain ⟨b, hb, b', hb', hpair⟩ := h
  exact ⟨b, b', hb, hb', (Prod.mk.inj hpair).2.symm⟩

/-- An admission leaves the builds alone, or adds a fresh one. -/
theorem admitImageBuild_ok {admission : ImageBuildAdmission} {catalog : ImageCatalog}
    {limits : ImageBuildLimits} {date : Instant} {state : ImageBuildState} {store store' : Store}
    (h : admitImageBuild admission catalog limits date store = .ok (state, store')) :
    store' = store ∨ (store.build admission.id = none ∧
      store' = { store with builds := store.builds ++ [.admitted admission] }) := by
  unfold admitImageBuild at h
  split at h
  · simp only [bind_ok_iff, pure_ok_iff] at h
    obtain ⟨_, -, hpair⟩ := h
    exact .inl (Prod.mk.inj hpair).2.symm
  · next hnone =>
    simp only [bind_ok_iff, pure_ok_iff] at h
    obtain ⟨_, -, _, -, _, -, hpair⟩ := h
    exact .inr ⟨hnone, (Prod.mk.inj hpair).2.symm⟩

/-- A pin adds itself and nothing else. -/
theorem pinAllocationImage_ok {trusted : SignedImageRelease → Bool} {pin : AllocationImage}
    {store store' : Store} (h : pinAllocationImage trusted pin store = .ok store') :
    guardAllocationImage store pin = .ok () ∧
      (∀ other ∈ store.pins, other.allocationId ≠ pin.allocationId ∧
        other.operationId ≠ pin.operationId) ∧
      store' = { store with pins := store.pins ++ [pin] } := by
  simp only [pinAllocationImage, bind_ok_iff, refuse_ok_iff, present_ok_iff, pure_ok_iff] at h
  obtain ⟨_, -, _, -, _, -, _, -, _, -, _, hunique, _, hguard, rfl⟩ := h
  refine ⟨hguard, fun other hother => ?_, rfl⟩
  simp only [List.any_eq_true, decide_eq_true_eq, not_exists, not_and, not_or] at hunique
  exact hunique other hother

theorem insertAttempt_ok {store : Store} {journal journal' : Journal} {new : Attempt}
    (h : insertAttempt store journal new = .ok journal') :
    (∀ other ∈ store.customers, other.attempt new.id = none) ∧ new.outcome = .prepared ∧
      new.resolution = .pending ∧ guardPinnedGuestEffect store journal new = .ok () ∧
      journal' = { journal with attempts := journal.attempts ++ [new] } := by
  simp only [insertAttempt, bind_ok_iff, refuse_ok_iff, pure_ok_iff, not_or, not_not, ne_eq] at h
  obtain ⟨_, hfresh, _, ⟨hprepared, hpending⟩, _, hguard, rfl⟩ := h
  refine ⟨fun other hother => ?_, hprepared, hpending, hguard, rfl⟩
  simp only [List.any_eq_true, not_exists, not_and, Bool.not_eq_true, Option.isSome_eq_false_iff,
    Option.isNone_iff_eq_none] at hfresh
  exact hfresh other hother

theorem insertAttempt_allocation {store : Store} {journal journal' : Journal} {new : Attempt}
    (h : insertAttempt store journal new = .ok journal') :
    journal'.allocation = journal.allocation := by
  rw [(insertAttempt_ok h).2.2.2.2]

/-- Any elementary change that is written by whoever, seen as one of the database. -/
inductive Written (w : World interface) (id : ImageBuildId) : World interface → Prop where
  | mk {b b' : ImageBuild} (here : w.store.build id = some b) (change : Change w.store w.log b b') :
      Written w id (w.put (w.store.putBuild b'))

theorem Written.valid {w w' : World interface} {id : ImageBuildId} (h : Valid w)
    (written : Written w id w') : Valid w' := by
  obtain @⟨b, b', here, change⟩ := written
  have hmem := Store.build_mem here
  have hid := Store.build_id here
  subst hid
  have hsound := h.sound b hmem
  have hold := change.effects.old hmem hsound.effects
  have hput : ∀ c, c ∈ (w.store.putBuild b').builds ↔
      c = b' ∨ (c ∈ w.store.builds ∧ c.id ≠ b.id) := fun c =>
    Store.mem_putBuild h.keyed change.id here
  refine ⟨?_, ?_, ?_, ?_, h.once, h.customers⟩
  · exact h.keyed.replace rfl
  · have hother : ∀ e ∈ b'.effects, ∀ c ∈ w.store.builds, c.id ≠ b.id → ∀ f ∈ c.effects,
        e.id ≠ f.id := by
      intro e he c hc hne f hf heq
      rcases hold e he with ⟨e', he', hid⟩ | hfresh
      · exact h.foreign hmem hc (Ne.symm hne) he' hf (hid.symm.trans heq)
      · exact Table.get_eq_none.mp (hfresh c hc) f hf heq.symm
    intro c hc d hd e he f hf heq
    rcases (hput c).mp hc with rfl | ⟨hcold, hcne⟩
    · rcases (hput d).mp hd with rfl | ⟨hdold, hdne⟩
      · rfl
      · exact absurd heq (hother e he d hdold hdne f hf)
    · rcases (hput d).mp hd with rfl | ⟨hdold, hdne⟩
      · exact absurd heq.symm (hother f hf c hcold hcne e he)
      · exact h.effects c hcold d hdold e he f hf heq
  · intro c hc
    rcases (hput c).mp hc with rfl | ⟨hc, -⟩
    · exact change.sound hmem hsound
    · exact h.sound c hc
  · intro exchange hm effectId command hcall
    obtain ⟨c, hc, e, he, hcid, hcommand⟩ := h.submitted exchange hm effectId command hcall
    by_cases hne : c.id = b.id
    · obtain rfl := h.keyed.unique hc hmem hne
      obtain ⟨f, hf, hsame⟩ := change.effects.kept_rows hmem hsound.effects e he
      exact ⟨b', (hput b').mpr (.inl rfl), f, hf, hsame.id.trans hcid,
        hsame.command.trans hcommand⟩
    · exact ⟨c, (hput c).mpr (.inr ⟨hc, hne⟩), e, he, hcid, hcommand⟩

/-- **Step lemma.**  What happens besides keeps the world in order. -/
theorem Drift.valid {w w' : World interface} (h : Valid w) (drift : Drift w w') : Valid w' := by
  cases drift with
  | time clock hclock => exact ⟨h.keyed, h.effects, h.sound, h.submitted, h.once, h.customers⟩
  | admitted admission catalog limits date state store ok =>
    rcases admitImageBuild_ok ok with rfl | ⟨hnew, rfl⟩
    · exact h
    · have hmem : ∀ c, c ∈ w.store.builds ++ [ImageBuild.admitted admission] ↔
          c ∈ w.store.builds ∨ c = ImageBuild.admitted admission := by
        simp
      refine ⟨h.keyed.insert hnew, fun c hc d hd e he f hf heq => ?_, fun c hc => ?_,
        fun exchange hm id command hcall => ?_, h.once, h.customers⟩
      · rcases (hmem c).mp hc with hc | rfl
        · rcases (hmem d).mp hd with hd | rfl
          · exact h.effects c hc d hd e he f hf heq
          · cases hf
        · cases he
      · rcases (hmem c).mp hc with hc | rfl
        · exact h.sound c hc
        · exact .admitted admission
      · obtain ⟨c, hc, rest⟩ := h.submitted exchange hm id command hcall
        exact ⟨c, (hmem c).mpr (.inl hc), rest⟩
  | cancelled id reason store ok =>
    obtain ⟨b, b', here, written, rfl⟩ := requestCleanup_ok ok
    exact (Written.mk here (.cleaning reason written)).valid h
  | runRequested here written => exact (Written.mk here (.runRequested written)).valid h
  | enrolled journal fresh unasked =>
    exact ⟨h.keyed, h.effects, h.sound, h.submitted, h.once, h.customers.insert fresh⟩
  | pinned trusted pin store ok =>
    obtain ⟨-, -, rfl⟩ := pinAllocationImage_ok ok
    exact ⟨h.keyed, h.effects, h.sound, h.submitted, h.once, h.customers⟩
  | @customer id journal journal' here change =>
    refine ⟨h.keyed, h.effects, h.sound, h.submitted, h.once, h.customers.replace ?_⟩
    rw [change.allocation]
    exact Store.customer_id here

/-- **Step lemma.**  What a worker may do keeps the world in order. -/
theorem Does.valid {lock : Lock} {w w' : World interface} (h : Valid w) (does : Does lock w w') :
    Valid w' := by
  cases does with
  | idle => exact h
  | write here change => exact (Written.mk here change).valid h
  | ask c r quiet =>
    have hquiet : ∀ id, c.effect? ≠ some id := by
      intro id hid
      cases c <;> simp_all [Call.effect?, Call.quiet]
    refine ⟨h.keyed, h.effects, h.sound, fun exchange hm id command hcall => ?_, fun id => ?_,
      h.customers⟩
    · rcases List.mem_append.mp hm with hm | hm
      · exact h.submitted exchange hm id command hcall
      · obtain rfl := List.mem_singleton.mp hm
        exact absurd (show c.effect? = some id by rw [show c = .submit id command from hcall]; rfl)
          (hquiet id)
    · rw [World.exchange_log, submissions_append (by simpa using hquiet id)]
      exact h.once id
  | @submit id w b here e mem prepared pending unasked r =>
    refine ⟨h.keyed, h.effects, h.sound, fun exchange hm effectId command hcall => ?_,
      fun effectId => ?_, h.customers⟩
    · rcases List.mem_append.mp hm with hm | hm
      · exact h.submitted exchange hm effectId command hcall
      · obtain rfl := List.mem_singleton.mp hm
        obtain ⟨rfl, rfl⟩ := Call.submit.inj hcall
        exact ⟨b, Store.build_mem here, e, mem, rfl, rfl⟩
    · by_cases heq : e.id = effectId
      · subst heq
        rw [World.exchange_log, submissions_submit rfl]
        omega
      · rw [World.exchange_log, submissions_append (by simp [Call.effect?, heq])]
        exact h.once effectId
  | attempt here new inserted =>
    refine ⟨h.keyed, h.effects, h.sound, h.submitted, h.once, h.customers.replace ?_⟩
    rw [insertAttempt_allocation inserted]
    exact Store.customer_id here
  | customer here change =>
    refine ⟨h.keyed, h.effects, h.sound, h.submitted, h.once, h.customers.replace ?_⟩
    rw [change.allocation]
    exact Store.customer_id here
  | customerSubmit here mem r =>
    refine ⟨h.keyed, h.effects, h.sound, fun exchange hm id command hcall => ?_, fun id => ?_,
      h.customers⟩
    · rcases List.mem_append.mp hm with hm | hm
      · exact h.submitted exchange hm id command hcall
      · obtain rfl := List.mem_singleton.mp hm
        cases hcall
    · rw [World.exchange_log, submissions_append (by simp [Call.effect?])]
      exact h.once id
  | removed here gone written =>
    obtain rfl := Store.build_id here
    exact (Written.mk here (.accessRemoved gone written)).valid h

/-! ## What a worker may count on -/

/-- A call that the holder of the lock is not concerned with. -/
def Foreign (lock : Lock) (w : World interface) (c : Call) : Prop :=
  ∀ id, lock = .build id → (∀ actionId ref, c ≠ .getAction id actionId ref) ∧
    ∀ b, w.store.build id = some b → ∀ e ∈ b.effects, c.effect? ≠ some e.id

structure Sees (lock : Lock) (w v : World interface) : Prop where
  clock : w.store.clock ≤ v.store.clock
  log : ∃ new, v.log = w.log ++ new ∧ ∀ exchange ∈ new, Foreign lock w exchange.call
  build : ∀ id b, w.store.build id = some b →
    ∃ b', v.store.build id = some b' ∧ (lock = .build id → Unlocked b b')
  customer : ∀ id journal, w.store.customer id = some journal →
    ∃ journal', v.store.customer id = some journal' ∧ AttemptsKept journal journal'

namespace Sees

variable {lock : Lock} {w v u : World interface}

/-- Nothing was asked, and the rows stay. -/
theorem of_rows (hlog : v.log = w.log) (hclock : w.store.clock ≤ v.store.clock)
    (hbuild : ∀ id b, w.store.build id = some b →
      ∃ b', v.store.build id = some b' ∧ (lock = .build id → Unlocked b b'))
    (hcustomer : ∀ id journal, w.store.customer id = some journal →
      ∃ journal', v.store.customer id = some journal' ∧ AttemptsKept journal journal') :
    Sees lock w v :=
  ⟨hclock, ⟨[], by simp [hlog], by simp⟩, hbuild, hcustomer⟩

/-- Nothing was written, and one call was made. -/
theorem of_call (c : Call) (r : c.Reply) (foreign : Foreign lock w c) :
    Sees lock w (w.exchange c r) :=
  ⟨Nat.le_refl _, ⟨[⟨c, r⟩], rfl, by simpa using foreign⟩,
    fun _ b hb => ⟨b, hb, fun _ => .refl b⟩, fun _ journal hj => ⟨journal, hj, .refl journal⟩⟩

theorem refl (lock : Lock) (w : World interface) : Sees lock w w :=
  of_rows rfl (Nat.le_refl _) (fun _ b hb => ⟨b, hb, fun _ => .refl b⟩)
    fun _ journal hj => ⟨journal, hj, .refl journal⟩

theorem trans (h : Sees lock u v) (h' : Sees lock v w) : Sees lock u w := by
  refine ⟨Nat.le_trans h.clock h'.clock, ?_, fun id b hb => ?_, fun id journal hj => ?_⟩
  · obtain ⟨new, hnew, hforeign⟩ := h.log
    obtain ⟨more, hmore, hforeign'⟩ := h'.log
    refine ⟨new ++ more, by rw [hmore, hnew, List.append_assoc], fun exchange hm => ?_⟩
    rcases List.mem_append.mp hm with hm | hm
    · exact hforeign exchange hm
    · intro id hlock
      obtain ⟨hquiet, hother⟩ := hforeign' exchange hm id hlock
      refine ⟨hquiet, fun b hb e he => ?_⟩
      obtain ⟨b', hb', hunlocked⟩ := h.build id b hb
      exact hother b' hb' e (by rw [(hunlocked hlock).effects]; exact he)
  · obtain ⟨b', hb', hunlocked⟩ := h.build id b hb
    obtain ⟨b'', hb'', hunlocked'⟩ := h'.build id b' hb'
    exact ⟨b'', hb'', fun hlock => (hunlocked hlock).trans (hunlocked' hlock)⟩
  · obtain ⟨j', hj', hkept⟩ := h.customer id journal hj
    obtain ⟨j'', hj'', hkept'⟩ := h'.customer id j' hj'
    exact ⟨j'', hj'', hkept.trans hkept'⟩

end Sees

/-- One rewritten build, as the others see it. -/
theorem sees_putBuild {lock : Lock} {w : World interface} {id : ImageBuildId} {b b' : ImageBuild}
    (here : w.store.build id = some b) (hid : b'.id = b.id)
    (hlock : lock = .build id → Unlocked b b') :
    Sees lock w (w.put (w.store.putBuild b')) := by
  obtain rfl := Store.build_id here
  refine .of_rows rfl (Nat.le_refl _) (fun other c hc => ?_) fun _ journal hj =>
    ⟨journal, hj, .refl journal⟩
  rw [World.put_store, Store.build_putBuild hid here]
  split
  · next heq =>
    subst heq
    rw [here] at hc
    obtain rfl := Option.some.inj hc
    exact ⟨b', rfl, hlock⟩
  · exact ⟨c, hc, fun _ => .refl c⟩

/-- One rewritten customer, as the workers see it. -/
theorem sees_putCustomer {lock : Lock} {w : World interface} {id : AllocationId}
    {journal journal' : Journal} (here : w.store.customer id = some journal)
    (hid : journal'.allocation.id = journal.allocation.id) (kept : AttemptsKept journal journal') :
    Sees lock w (w.put (w.store.putCustomer id journal')) := by
  refine .of_rows rfl (Nat.le_refl _) (fun _ b hb => ⟨b, hb, fun _ => .refl b⟩)
    fun other old hold => ?_
  rw [World.put_store, Store.customer_putCustomer here hid]
  split
  · next heq =>
    subst heq
    rw [here] at hold
    obtain rfl := Option.some.inj hold
    exact ⟨journal', rfl, kept⟩
  · exact ⟨old, hold, .refl old⟩

theorem insertAttempt_kept {store : Store} {journal journal' : Journal} {new : Attempt}
    (h : insertAttempt store journal new = .ok journal') : AttemptsKept journal journal' := by
  rw [(insertAttempt_ok h).2.2.2.2]
  exact fun a ha => ⟨a, List.mem_append_left _ ha, rfl, rfl, rfl⟩

/-- What happens besides is what every worker counts on. -/
theorem Drift.sees {lock : Lock} {w w' : World interface} (drift : Drift w w') :
    Sees lock w w' := by
  cases drift with
  | time clock hclock =>
    exact .of_rows rfl hclock (fun _ b hb => ⟨b, hb, fun _ => .refl b⟩)
      fun _ journal hj => ⟨journal, hj, .refl journal⟩
  | admitted admission catalog limits date state store ok =>
    rcases admitImageBuild_ok ok with rfl | ⟨-, rfl⟩
    · exact .refl lock w
    · refine .of_rows rfl (Nat.le_refl _) (fun id b hb => ⟨b, ?_, fun _ => .refl b⟩)
        fun _ journal hj => ⟨journal, hj, .refl journal⟩
      have hold : Table.get ImageBuild.id w.store.builds id = some b := hb
      rw [World.put_store, Store.build, Table.get_append, hold]
      rfl
  | cancelled id reason store ok =>
    obtain ⟨b, b', here, written, rfl⟩ := requestCleanup_ok ok
    have hunlocked := updateImageBuild_unlocked (unlocked_requested b reason) written
    exact sees_putBuild here hunlocked.id fun _ => hunlocked
  | runRequested here written =>
    have hunlocked := unlocked_runRequested written
    exact sees_putBuild here hunlocked.id fun _ => hunlocked
  | enrolled journal fresh unasked =>
    refine .of_rows rfl (Nat.le_refl _) (fun _ b hb => ⟨b, hb, fun _ => .refl b⟩)
      fun id old hold => ⟨old, ?_, .refl old⟩
    have hold' : Table.get (fun row : Journal => row.allocation.id) w.store.customers id =
      some old := hold
    rw [World.put_store, Store.customer, Table.get_append, hold']
    rfl
  | pinned trusted pin store ok =>
    obtain ⟨-, -, rfl⟩ := pinAllocationImage_ok ok
    exact .of_rows rfl (Nat.le_refl _) (fun _ b hb => ⟨b, hb, fun _ => .refl b⟩)
      fun _ journal hj => ⟨journal, hj, .refl journal⟩
  | customer here change => exact sees_putCustomer here change.allocation change.attemptsKept

/-- What one worker does is what every other counts on. -/
theorem Does.sees {lock other : Lock} {w w' : World interface} (h : Valid w) (hne : other ≠ lock)
    (does : Does other w w') : Sees lock w w' := by
  cases does with
  | idle => exact .refl lock w
  | write here change =>
    exact sees_putBuild here change.id fun hlock => absurd hlock.symm hne
  | ask c r quiet =>
    refine .of_call c r fun id hlock => ⟨fun actionId ref hcall => ?_, fun b hb e he => ?_⟩
    · subst hcall
      exact hne (Eq.trans quiet hlock.symm)
    · cases c <;> simp_all [Call.effect?, Call.quiet]
  | @submit id w b here e mem prepared pending unasked r =>
    refine .of_call _ r fun other hlock => ⟨fun _ _ => by simp, fun c hc f hf => ?_⟩
    have hids : b.id ≠ c.id := by
      rw [Store.build_id here, Store.build_id hc]
      rintro rfl
      exact hne hlock.symm
    have := h.foreign (Store.build_mem here) (Store.build_mem hc) hids mem hf
    simpa [Call.effect?] using this
  | attempt here new inserted =>
    exact sees_putCustomer here (by rw [insertAttempt_allocation inserted])
      (insertAttempt_kept inserted)
  | customer here change => exact sees_putCustomer here change.allocation change.attemptsKept
  | customerSubmit here mem r =>
    exact .of_call _ r fun _ _ => ⟨fun _ _ => by simp, fun _ _ _ _ => by simp [Call.effect?]⟩
  | removed here gone written =>
    have hunlocked := unlocked_removed written
    exact sees_putBuild here hunlocked.id fun _ => hunlocked

/-! ## The system -/

/-- The contract of the workers; every reply is considered. -/
def contract : Contract interface Lock where
  valid := Valid
  rely := Sees
  does := Does
  allows _ _ _ := True
  rely_refl := Sees.refl
  rely_trans := Sees.trans
  does_valid := Does.valid
  does_rely h hne does := does.sees h hne

/-- The workers: of the builds, of the customers, and of the access keys. -/
inductive Job : Lock → Program Unit → Prop where
  | effect (id : ImageBuildId) (command : ImageProviderCommand) (pricing : Pricing) :
      Job (.build id) (runImageEffect id command pricing).ignore
  | cleanup (id : ImageBuildId) (intent : CleanupIntent) :
      Job (.build id) (planImageCleanup id intent).ignore
  | builder (id : ImageBuildId) : Job (.build id) (runImageBuilderWork id).ignore
  | verify (id : ImageBuildId) (write : VerificationWrite) : Job (.build id) (verify id write)
  | prepare (id : ImageBuildId) : Job (.build id) (prepareImagePublication id)
  | publish (signer : ImagePublicationSigner) (id : ImageBuildId) :
      Job (.build id) (publishImageRelease signer id).ignore
  | read (signer : ImagePublicationSigner) (id : ImageBuildId) :
      Job (.build id) (readPublishedImage signer id).ignore
  | customer (id : AllocationId) (operationId : OperationId)
      (command : Lifecycle.ProviderCommand) :
      Job (.machine id) (customerEffect id operationId command)
  | access (id : ImageBuildId) (worker : Nat) (build : ImageBuild) :
      Job (.access id worker) (completeImageAccessCleanup id build)

/-- The control plane of image builds. -/
def system : System interface Lock where
  job := Job
  other := Drift
  allows _ _ _ := True

/-- An empty database, and nothing asked yet. -/
def empty (clock : Instant) : World interface := ⟨⟨clock, [], [], []⟩, []⟩

theorem empty_valid (clock : Instant) : Valid (empty clock) := by
  constructor <;> simp [empty, Table.Keyed, submissions]

end AgentCloud.Images
