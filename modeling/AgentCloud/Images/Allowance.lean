/-
  THE ALLOWANCE OVER TIME: what the builds hold together stays within the operator's limits.

  The limits are checked when a build is admitted and before a create, never when a state changes.
  So the sum has to be one that no change of state raises.  The sum of `parseImageReservations` is
  not: a retained build that starts cleaning counts as an open build again, with both machines.  The
  sum of `holding` is: it goes by the stored release instead of by the state, and a build with a
  release has no machine left, whatever becomes of it.

  Between the two there are exactly the caps of the published builds that are being cleaned.
-/
import AgentCloud.Images.Releases

namespace AgentCloud.Images

open Checked Durable

variable {limits : ImageBuildLimits} {store : Store} {log : Log} {b b' : ImageBuild}
  {column : ReservationRow → Nat}

/-! ## Sums -/

@[simp] theorem total_append {rows more : List ReservationRow} :
    total column (rows ++ more) = total column rows + total column more := by
  induction rows with
  | nil => simp [total]
  | cons row rows ih =>
    simp only [total, List.cons_append, List.foldr_cons] at ih ⊢
    omega

theorem total_map_le {α : Type} {xs : List α} {f g : α → ReservationRow}
    (h : ∀ x ∈ xs, column (f x) ≤ column (g x)) :
    total column (xs.map f) ≤ total column (xs.map g) := by
  induction xs with
  | nil => exact Nat.le_refl _
  | cons x xs ih =>
    have hx := h x List.mem_cons_self
    have hrest := ih fun y hy => h y (List.mem_cons_of_mem x hy)
    simp only [total, List.map_cons, List.foldr_cons] at hrest ⊢
    omega

theorem total_map_add {α : Type} {xs : List α} {f g k : α → ReservationRow}
    (h : ∀ x ∈ xs, column (f x) = column (g x) + column (k x)) :
    total column (xs.map f) = total column (xs.map g) + total column (xs.map k) := by
  induction xs with
  | nil => rfl
  | cons x xs ih =>
    have hx := h x List.mem_cons_self
    have hrest := ih fun y hy => h y (List.mem_cons_of_mem x hy)
    simp only [total, List.map_cons, List.foldr_cons] at hrest ⊢
    omega

theorem total_eq_zero {α : Type} {xs : List α} {f : α → ReservationRow}
    (h : ∀ x ∈ xs, column (f x) = 0) : total column (xs.map f) = 0 := by
  induction xs with
  | nil => rfl
  | cons x xs ih =>
    have hx := h x List.mem_cons_self
    have hrest := ih fun y hy => h y (List.mem_cons_of_mem x hy)
    simp only [total, List.map_cons, List.foldr_cons] at hrest ⊢
    omega

/-- Rows that count for nothing may be left out. -/
theorem total_filter {α : Type} {xs : List α} {f : α → ReservationRow} {p : α → Bool}
    (h : ∀ x ∈ xs, p x = false → column (f x) = 0) :
    total column ((xs.filter p).map f) = total column (xs.map f) := by
  induction xs with
  | nil => rfl
  | cons x xs ih =>
    have hrest := ih fun y hy => h y (List.mem_cons_of_mem x hy)
    cases hp : p x with
    | true =>
      rw [List.filter_cons_of_pos hp]
      simp only [total, List.map_cons, List.foldr_cons] at hrest ⊢
      omega
    | false =>
      have hx := h x List.mem_cons_self hp
      rw [List.filter_cons_of_neg (by simp [hp])]
      simp only [total, List.map_cons, List.foldr_cons] at hrest ⊢
      omega

/-! ## What a build holds -/

/-- What a build may still cost: a stored release means that the machines are gone. -/
def ImageBuild.holding (b : ImageBuild) : ReservationRow where
  currency := b.admission.budget.currency
  openBuilds := if b.release?.isSome || b.state.cleaned? then 0 else 1
  vmGrossMicros :=
    if b.release?.isSome || b.state.cleaned? then 0 else b.admission.budget.maxVmGrossMicros
  snapshotMonthlyGrossMicros :=
    if b.state.cleaned? then 0 else b.admission.budget.maxSnapshotMonthlyGrossMicros

/-- What a published build counts again while it is being cleaned. -/
def ImageBuild.reclaimed (b : ImageBuild) : ReservationRow where
  currency := b.admission.budget.currency
  openBuilds := if b.release?.isSome && b.state.cleaning? then 1 else 0
  vmGrossMicros :=
    if b.release?.isSome && b.state.cleaning? then b.admission.budget.maxVmGrossMicros else 0
  snapshotMonthlyGrossMicros := 0

def Store.remaining (store : Store) : List ImageBuild :=
  store.builds.filter fun b => !b.state.cleaned?

def Store.holdings (store : Store) : List ReservationRow :=
  store.remaining.map ImageBuild.holding

def Store.reclaimed (store : Store) : List ReservationRow :=
  store.remaining.map ImageBuild.reclaimed

/-- The rows that the limits are checked against. -/
def Store.reservations (store : Store) : List ReservationRow :=
  parseImageReservations store.uncleaned

theorem Store.reservations_eq : store.reservations =
    store.remaining.map fun b => reservationOf b.admission b.state := by
  simp [Store.reservations, parseImageReservations, Store.uncleaned, Store.remaining]

theorem ImageBuildState.cleaned_iff {state : ImageBuildState} :
    state.cleaned? = true ↔ 4 ≤ state.stage := by
  cases state <;> simp [ImageBuildState.cleaned?, ImageBuildState.stage]

/-- What is cleaned holds nothing. -/
theorem ImageBuild.holding_cleaned (h : b.state.cleaned? = true) :
    b.holding = ⟨b.admission.budget.currency, 0, 0, 0⟩ := by
  simp [ImageBuild.holding, h]

/-- What only one column says, in all three. -/
def Columns (P : (ReservationRow → Nat) → Prop) : Prop :=
  P ReservationRow.openBuilds ∧ P ReservationRow.vmGrossMicros ∧
    P ReservationRow.snapshotMonthlyGrossMicros

theorem Columns.imp {P Q : (ReservationRow → Nat) → Prop} (h : Columns P)
    (hPQ : ∀ column, P column → Q column) : Columns Q :=
  ⟨hPQ _ h.1, hPQ _ h.2.1, hPQ _ h.2.2⟩

theorem Columns.and {P Q : (ReservationRow → Nat) → Prop} (hP : Columns P) (hQ : Columns Q) :
    Columns fun column => P column ∧ Q column :=
  ⟨⟨hP.1, hQ.1⟩, ⟨hP.2.1, hQ.2.1⟩, hP.2.2, hQ.2.2⟩

theorem PublicationKept.release (h : PublicationKept b b') (hr : b.release?.isSome = true) :
    b'.release?.isSome = true := by
  obtain ⟨r, hr⟩ := Option.isSome_iff_exists.mp hr
  obtain ⟨p, hp, hrelease⟩ := Option.bind_eq_some_iff.mp hr
  obtain ⟨p', hp', -, hkeep⟩ := h.evidence p hp
  rw [ImageBuild.release?, hp', Option.bind_some, hkeep r hrelease]
  rfl

theorem ite_zero_le (p : Prop) [Decidable p] (n : Nat) : (if p then 0 else n) ≤ n := by
  split <;> omega

/-- No change of a build raises what it holds. -/
theorem Change.holding (change : Change store log b b') :
    Columns fun column => column b'.holding ≤ column b.holding := by
  have hkept := change.publicationKept
  have hadmission := change.admission
  have hcleaned : b.state.cleaned? = true → b'.state.cleaned? = true := fun h =>
    ImageBuildState.cleaned_iff.mpr (Nat.le_trans (ImageBuildState.cleaned_iff.mp h) hkept.forward)
  have hreleased := hkept.release
  simp only [Columns, ImageBuild.holding, hadmission]
  cases hr : b.release?.isSome <;> cases hc : b.state.cleaned? <;> simp_all [ite_zero_le]

/-- A build counts what it holds, and again what it had released. -/
theorem PublicationSound.reservation (h : PublicationSound log b) : Columns fun column =>
    column (reservationOf b.admission b.state) = column b.holding + column b.reclaimed := by
  have hsigned : b.release?.isSome = true → 2 ≤ b.state.stage := fun hr => by
    obtain ⟨r, hr⟩ := Option.isSome_iff_exists.mp hr
    obtain ⟨p, hp, hrelease⟩ := Option.bind_eq_some_iff.mp hr
    exact (h.signed p r hp hrelease).1
  have hretained : b.state.retained? = true → b.release?.isSome = true := fun hstate => by
    cases hs : b.state with
    | retained since =>
      obtain ⟨⟨p, r, hp, hr, -⟩, -⟩ := h.retained since hs
      rw [ImageBuild.release?, hp, Option.bind_some, hr]
      rfl
    | _ => rw [hs] at hstate; cases hstate
  simp only [Columns, reservationOf, ImageBuild.holding, ImageBuild.reclaimed]
  cases hr : b.release?.isSome <;> cases hs : b.state <;>
    simp_all [ImageBuildState.stage, ImageBuildState.retained?, ImageBuildState.cleaned?,
      ImageBuildState.cleaning?]

/-! ## What an admission covers -/

theorem le_hoursOf (duration : Nat) : duration ≤ 3600000 * hoursOf duration := by
  unfold hoursOf
  omega

/-- The caps of an admission cover both machines over the whole window, and the largest snapshot. -/
structure Covers (admission : ImageBuildAdmission) : Prop where
  reserved : ∃ reservation, imageReservation admission = .ok reservation ∧
    reservation.vmGrossMicros ≤ admission.budget.maxVmGrossMicros ∧
    reservation.snapshotMonthlyGrossMicros ≤ admission.budget.maxSnapshotMonthlyGrossMicros
  /-- Two machines, each paid by the hour. -/
  machines : 2 * (admission.offer.hourlyMicros * (admission.deadlineAt - admission.admittedAt)) ≤
    3600000 * admission.budget.maxVmGrossMicros
  snapshot : admission.budget.maxSnapshotGb * admission.storagePrice.grossMicrosPerGbMonth ≤
    admission.budget.maxSnapshotMonthlyGrossMicros
  disk : admission.offer.diskGb ≤ admission.budget.maxSnapshotGb

theorem parseMicros_ok {micros m : Nat} (h : parseMicros micros = .ok m) : m = micros := by
  simp only [parseMicros, bind_ok_iff, pure_ok_iff] at h
  obtain ⟨_, -, rfl⟩ := h
  rfl

theorem imageReservation_ok {admission : ImageBuildAdmission} {reservation : ImageReservation}
    (h : imageReservation admission = .ok reservation) :
    reservation.vmGrossMicros =
        2 * hoursOf (admission.deadlineAt - admission.admittedAt) * admission.offer.hourlyMicros ∧
      reservation.snapshotMonthlyGrossMicros =
        admission.budget.maxSnapshotGb * admission.storagePrice.grossMicrosPerGbMonth := by
  simp only [imageReservation, bind_ok_iff, pure_ok_iff] at h
  obtain ⟨_, -, vm, hvm, snapshot, hsnapshot, rfl⟩ := h
  exact ⟨parseMicros_ok hvm, parseMicros_ok hsnapshot⟩

theorem checkImageAdmission_ok {admission : ImageBuildAdmission} {date : Instant}
    (h : checkImageAdmission admission date = .ok ()) : Covers admission := by
  simp only [checkImageAdmission, bind_ok_iff, refuse_ok_iff, not_or, Nat.not_lt] at h
  obtain ⟨_, ⟨-, -, -, -, -, hdisk⟩, _, -, _, -, reservation, hreservation, hvm, hsnapshot⟩ := h
  obtain ⟨heqVm, heqSnapshot⟩ := imageReservation_ok hreservation
  refine ⟨⟨reservation, hreservation, hvm, hsnapshot⟩, ?_, heqSnapshot ▸ hsnapshot, hdisk⟩
  have hhours := le_hoursOf (admission.deadlineAt - admission.admittedAt)
  calc 2 * (admission.offer.hourlyMicros * (admission.deadlineAt - admission.admittedAt))
      ≤ 2 * (admission.offer.hourlyMicros *
          (3600000 * hoursOf (admission.deadlineAt - admission.admittedAt))) :=
        Nat.mul_le_mul_left 2 (Nat.mul_le_mul_left _ hhours)
    _ = 3600000 * reservation.vmGrossMicros := by
        rw [heqVm, Nat.mul_left_comm, Nat.mul_comm admission.offer.hourlyMicros, Nat.mul_assoc,
          Nat.mul_assoc, Nat.mul_assoc, Nat.mul_left_comm 2]
    _ ≤ 3600000 * admission.budget.maxVmGrossMicros := Nat.mul_le_mul_left _ hvm

theorem admitImageBuild_checked {admission : ImageBuildAdmission} {catalog : ImageCatalog}
    {date : Instant} {state : ImageBuildState} {store store' : Store}
    (h : admitImageBuild admission catalog limits date store = .ok (state, store')) :
    store' = store ∨ (Covers admission ∧
      Within limits (parseImageReservations (store.uncleaned ++ [(admission, .running)])) ∧
      store' = { store with builds := store.builds ++ [.admitted admission] }) := by
  unfold admitImageBuild at h
  split at h
  · simp only [bind_ok_iff, pure_ok_iff] at h
    obtain ⟨_, -, hpair⟩ := h
    exact .inl (Prod.mk.inj hpair).2.symm
  · simp only [bind_ok_iff, pure_ok_iff] at h
    obtain ⟨_, hadmission, _, -, _, hlimits, hpair⟩ := h
    exact .inr ⟨checkImageAdmission_ok hadmission, checkImageLimits_ok.mp hlimits,
      (Prod.mk.inj hpair).2.symm⟩

/-! ## Every run under fixed limits -/

variable {w w' : World interface} {c : Plane} {clock : Instant}

structure Allowed (limits : ImageBuildLimits) (store : Store) : Prop where
  held : Within limits store.holdings
  covered : ∀ b ∈ store.builds, Covers b.admission

/-- The sums over all builds, as a cleaned one holds nothing. -/
theorem total_holdings (store : Store) : Columns fun column =>
    total column store.holdings = total column (store.builds.map ImageBuild.holding) := by
  have hzero : ∀ b ∈ store.builds, (!b.state.cleaned?) = false →
      b.holding = ⟨b.admission.budget.currency, 0, 0, 0⟩ := fun b _ hb =>
    ImageBuild.holding_cleaned (by simpa using hb)
  refine ⟨total_filter fun b hb h => ?_, total_filter fun b hb h => ?_,
    total_filter fun b hb h => ?_⟩ <;> rw [hzero b hb h]

theorem Within.of_columns {rows more : List ReservationRow} (h : Within limits rows)
    (hle : Columns fun column => total column more ≤ total column rows)
    (hcurrency : ∀ row ∈ more, row.currency = limits.currency) : Within limits more :=
  ⟨Nat.le_trans hle.1 h.openBuilds, hcurrency, Nat.le_trans hle.2.1 h.vmGross,
    Nat.le_trans hle.2.2 h.snapshots⟩

/-- A change of one build keeps the allowance. -/
theorem Allowed.written {id : ImageBuildId} (h : Allowed limits w.store) (hvalid : Valid w)
    (written : Written w id w') : Allowed limits w'.store := by
  obtain @⟨b, b', here, change⟩ := written
  obtain rfl := Store.build_id here
  have hmem := Store.build_mem here
  have hrows : (w.store.putBuild b').builds =
      w.store.builds.map fun x => if x.id = b'.id then b' else x := rfl
  have hone : ∀ x ∈ w.store.builds, x.id = b'.id → x = b := fun x hx hid =>
    hvalid.keyed.unique hx hmem (hid.trans change.id)
  have hcolumns : Columns fun column => total column (w.store.putBuild b').holdings ≤
      total column w.store.holdings := by
    have hsum : ∀ column : ReservationRow → Nat, column b'.holding ≤ column b.holding →
        total column ((w.store.putBuild b').builds.map ImageBuild.holding) ≤
          total column (w.store.builds.map ImageBuild.holding) := by
      intro column hle
      rw [hrows, List.map_map]
      refine total_map_le fun x hx => ?_
      simp only [Function.comp_apply]
      split
      · next hid =>
        rw [hone x hx hid]
        exact hle
      · exact Nat.le_refl _
    have hold := total_holdings w.store
    have hnew := total_holdings (w.store.putBuild b')
    have hle := change.holding
    refine (hnew.and (hold.and hle)).imp fun column h => ?_
    obtain ⟨hn, ho, hl⟩ := h
    rw [hn, ho]
    exact hsum column hl
  refine ⟨h.held.of_columns hcolumns fun row hrow => ?_, fun x hx => ?_⟩
  · obtain ⟨x, hx, rfl⟩ := List.mem_map.mp hrow
    obtain ⟨hx, hcleaned⟩ := List.mem_filter.mp hx
    rcases (Store.mem_putBuild hvalid.keyed change.id here).mp hx with rfl | ⟨hx, -⟩
    · -- what is not cleaned now was not cleaned before
      have hbefore : (!b.state.cleaned?) = true := by
        cases hb : b.state.cleaned? with
        | false => rfl
        | true =>
          have hstage := ImageBuildState.cleaned_iff.mp hb
          have := ImageBuildState.cleaned_iff.mpr
            (Nat.le_trans hstage change.publicationKept.forward)
          rw [this] at hcleaned
          cases hcleaned
      have := h.held.currency b.holding
        (List.mem_map_of_mem (List.mem_filter.mpr ⟨hmem, hbefore⟩))
      rw [ImageBuild.holding, change.admission]
      exact this
    · exact h.held.currency _ (List.mem_map_of_mem (List.mem_filter.mpr ⟨hx, hcleaned⟩))
  · rcases (Store.mem_putBuild hvalid.keyed change.id here).mp hx with rfl | ⟨hx, -⟩
    · rw [change.admission]
      exact h.covered b hmem
    · exact h.covered x hx

/-- What all builds count: what they hold, and what the published ones take again. -/
theorem total_reservations (h : ∀ b ∈ store.builds, PublicationSound log b) :
    Columns fun column => total column store.reservations =
      total column store.holdings + total column store.reclaimed := by
  have hrow : ∀ b ∈ store.remaining, Columns fun column =>
      column (reservationOf b.admission b.state) = column b.holding + column b.reclaimed :=
    fun b hb => (h b (List.mem_filter.mp hb).1).reservation
  rw [Store.reservations_eq]
  exact ⟨total_map_add fun b hb => (hrow b hb).1, total_map_add fun b hb => (hrow b hb).2.1,
    total_map_add fun b hb => (hrow b hb).2.2⟩

/-- What is admitted had been counted in full. -/
theorem Allowed.admitted {admission : ImageBuildAdmission} (h : Allowed limits store)
    (hpub : ∀ b ∈ store.builds, PublicationSound log b) (covers : Covers admission)
    (within : Within limits (parseImageReservations (store.uncleaned ++ [(admission, .running)]))) :
    Allowed limits { store with builds := store.builds ++ [.admitted admission] } := by
  have hrows : parseImageReservations (store.uncleaned ++ [(admission, .running)]) =
      store.reservations ++ [reservationOf admission .running] := by
    simp [parseImageReservations, Store.reservations]
  have hholdings : ({ store with builds := store.builds ++ [.admitted admission] } : Store).holdings
      = store.holdings ++ [(ImageBuild.admitted admission).holding] := by
    simp [Store.holdings, Store.remaining, ImageBuild.admitted, ImageBuildState.cleaned?]
  have hadmitted : (ImageBuild.admitted admission).holding = reservationOf admission .running := rfl
  rw [hrows] at within
  refine ⟨?_, fun b hb => ?_⟩
  · rw [hholdings, hadmitted]
    refine within.of_columns ((total_reservations hpub).imp fun column hsum => ?_) fun row hrow => ?_
    · rw [total_append, total_append, hsum]
      omega
    · rcases List.mem_append.mp hrow with hrow | hrow
      · exact h.held.currency row hrow
      · exact within.currency row (List.mem_append_right _ hrow)
  · rcases List.mem_append.mp hb with hb | hb
    · exact h.covered b hb
    · rw [List.mem_singleton.mp hb]
      exact covers

/-- **Run lemma.** -/
theorem allowed (h : (limited limits).Reach (.idle (empty clock)) c) :
    Allowed limits c.world.store := by
  induction h with
  | refl =>
    refine ⟨⟨Nat.zero_le _, ?_, Nat.zero_le _, Nat.zero_le _⟩, ?_⟩ <;>
      simp [Config.idle, empty, Store.holdings, Store.remaining]
  | @tail d e hd hstep ih =>
    have hreach := reach_of_limited hd
    have hvalid := valid hreach
    have hsame : ∀ w' : World interface, w'.store.builds = d.world.store.builds →
        Allowed limits w'.store := by
      intro w' heq
      refine ⟨?_, by rw [heq]; exact ih.covered⟩
      rw [Store.holdings, Store.remaining, heq]
      exact ih.held
    have heffect := ((limited_discipline limits).step (inOrder hreach) hstep).2
    generalize e.world = w' at heffect ⊢
    cases heffect with
    | idle => exact ih
    | does lock does =>
      rcases does.rows with heq | ⟨id, hwritten⟩
      · exact hsame _ heq
      · exact ih.written hvalid hwritten
    | other hother =>
      cases hother.1.rows with
      | same eq => exact hsame _ eq
      | written written => exact ih.written hvalid written
      | admitted admission catalog other date state ok =>
        rcases admitImageBuild_ok ok with heq | ⟨-, heq⟩
        · exact hsame _ (congrArg Store.builds heq)
        · -- a build appeared, so the admission was checked against these limits
          rcases hother.2 with hlength | ⟨admission', catalog', date', state', ok'⟩
          · rw [heq] at hlength
            simp at hlength
          · rcases admitImageBuild_checked ok' with heq' | ⟨hcovers, hwithin, heq'⟩
            · exact hsame _ (congrArg Store.builds heq')
            · rw [heq']
              exact ih.admitted (publicationSound hreach) hcovers hwithin

/-! ## The allowance -/

structure AllowanceSafe (limits : ImageBuildLimits) (store : Store) : Prop where
  /-- What the builds hold stays within the limits, and so does all snapshot storage. -/
  held : Within limits store.holdings
  snapshots : total ReservationRow.snapshotMonthlyGrossMicros store.reservations ≤
    limits.maxSnapshotMonthlyGrossMicros
  currency : ∀ row ∈ store.reservations, row.currency = limits.currency
  /-- What is counted beyond that are the caps of published builds that are being cleaned. -/
  reclaimed : Columns fun column => total column store.reservations =
    total column store.holdings + total column store.reclaimed
  /-- These have no machine left. -/
  released : ∀ b ∈ store.builds, b.release?.isSome = true → b.temporary = false
  /-- Without such a build no create is refused for the limits. -/
  passes : (∀ b ∈ store.builds, b.state.cleaning? = true → b.release? = none) →
    checkImageLimits store.reservations limits = .ok ()
  covered : ∀ b ∈ store.builds, Covers b.admission

/-- **What the builds hold stays within the limits**, in every run under fixed limits. -/
theorem image_allowance_safe (h : (limited limits).Reach (.idle (empty clock)) c) :
    AllowanceSafe limits c.world.store := by
  have hallowed := allowed h
  have hpub := publicationSound (reach_of_limited h)
  have hsum := total_reservations hpub
  have hcurrency : ∀ row ∈ c.world.store.reservations, row.currency = limits.currency := by
    intro row hrow
    rw [Store.reservations_eq] at hrow
    obtain ⟨b, hb, rfl⟩ := List.mem_map.mp hrow
    exact hallowed.held.currency b.holding (List.mem_map_of_mem hb)
  have hstorage : total ReservationRow.snapshotMonthlyGrossMicros c.world.store.reclaimed = 0 :=
    total_eq_zero fun _ _ => rfl
  have hsnapshots : total ReservationRow.snapshotMonthlyGrossMicros c.world.store.reservations =
      total ReservationRow.snapshotMonthlyGrossMicros c.world.store.holdings := by
    have := hsum.2.2
    omega
  refine ⟨hallowed.held, hsnapshots ▸ hallowed.held.snapshots, hcurrency, hsum, fun b hb hr => ?_,
    fun hnone => ?_, hallowed.covered⟩
  · obtain ⟨r, hr⟩ := Option.isSome_iff_exists.mp hr
    obtain ⟨p, hp, hrelease⟩ := Option.bind_eq_some_iff.mp hr
    exact ((hpub b hb).signed p r hp hrelease).2.2.2.2
  · -- nothing is counted twice
    have hzero : ∀ b ∈ c.world.store.remaining,
        (b.release?.isSome && b.state.cleaning?) = false := by
      intro b hb
      have hbuild := (List.mem_filter.mp hb).1
      cases hc : b.state.cleaning? with
      | false => simp
      | true => simp [hnone b hbuild hc]
    have hreclaimed : Columns fun column => total column c.world.store.reclaimed = 0 :=
      ⟨total_eq_zero fun b hb => by simp [ImageBuild.reclaimed, hzero b hb],
        total_eq_zero fun b hb => by simp [ImageBuild.reclaimed, hzero b hb], hstorage⟩
    refine checkImageLimits_ok.mpr (hallowed.held.of_columns
      ((hsum.and hreclaimed).imp fun column h => ?_) hcurrency)
    obtain ⟨hsame, hnothing⟩ := h
    omega

namespace Demo

/-- The release of one build is retained, another is admitted in its place, and the first is
    cancelled. -/
def replaced : List (Scene allowance) := 
  story ++ [.event (.admission (admission "other") catalog)]

theorem story_allowed : ∃ w : World interface, AllowanceSafe allowance w.store ∧
    w.store.builds.length = 2 := by
  have h : (playAll replaced (empty 0)).any (fun w => w.store.builds.length = 2) = true := by
    decide +kernel
  obtain ⟨w, hreach, hw⟩ := reach_any h
  exact ⟨w, image_allowance_safe hreach, of_decide_eq_true hw⟩

/-- Cancelling the retained build makes the limits refuse every create of the other. -/
theorem cancelled_exceeds : ∃ w w' : World interface,
    (limited allowance).Reach (.idle (empty 0)) (.idle w) ∧
    checkImageLimits w.store.reservations allowance = .ok () ∧
    requestCleanup "build" .requested w.store = .ok ((), w'.store) ∧
    (limited allowance).Reach (.idle w) (.idle w') ∧
    allowance.maxOpenBuilds < total ReservationRow.openBuilds w'.store.reservations ∧
    checkImageLimits w'.store.reservations allowance ≠ .ok () := by
  have h : (playAll replaced (empty 0)).any (fun w =>
      (checkImageLimits w.store.reservations allowance).isOk &&
        ((Event.cancel "build" .requested : Event allowance).play w).any fun w' => decide
          (allowance.maxOpenBuilds < total ReservationRow.openBuilds w'.store.reservations)) =
      true := by
    decide +kernel
  obtain ⟨w, hreach, hw⟩ := reach_any h
  rw [Bool.and_eq_true] at hw
  obtain ⟨hok, hcancel⟩ := hw
  obtain ⟨w', hplay, hopen⟩ := (Option.any_eq_true _ _).mp hcancel
  have hexceeds := of_decide_eq_true hopen
  refine ⟨w, w', hreach, ?_, Event.cancel_play hplay,
    (Scene.event (.cancel "build" .requested)).reach hplay, hexceeds, fun hpass => Nat.lt_irrefl _ (Nat.lt_of_lt_of_le hexceeds
      (checkImageLimits_ok.mp hpass).openBuilds)⟩
  cases hcheck : checkImageLimits w.store.reservations allowance with
  | ok _ => rfl
  | error e =>
    rw [hcheck] at hok
    cases hok

end Demo

end AgentCloud.Images
