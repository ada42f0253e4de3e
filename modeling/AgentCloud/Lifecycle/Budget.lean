/-
  BUDGET: the live allocations stay within the limits of every account and of the platform.

  Both the number of machines and their price are bounded, for each account and for all accounts.
  The four sums are instances of one (`Measure`): a weight of a reservation that only grows with its
  price.  A worker's step lowers every such sum, and an admission raises it only after
  `assertReservation` has compared it with the limit.

  The comparison is with what was read under the admission lock, which bounds what there is
  (`total_read`); so it also bounds the sum that the admission leaves (`created_within`,
  `resized_within`).
-/
import AgentCloud.Lifecycle.FleetOrder

namespace AgentCloud.Lifecycle

open Checked Durable

/-! ## Measures -/

/-- A weight of reservations that only grows with the price. -/
structure Measure where
  weight : Reservation → Nat
  mono : ∀ {old new : Reservation}, new.accountId = old.accountId →
    new.hourlyMicros ≤ old.hourlyMicros → weight new ≤ weight old

namespace Measure

def total (m : Measure) : List Reservation → Nat
  | [] => 0
  | row :: rows => m.weight row + m.total rows

def count : Measure := ⟨fun _ => 1, fun _ _ => Nat.le_refl 1⟩

def price : Measure := ⟨Reservation.hourlyMicros, fun _ h => h⟩

/-- The weight counts for the rows of an account. -/
def only (m : Measure) (accountId : AccountId) : Measure where
  weight row := if row.accountId = accountId then m.weight row else 0
  mono := by
    intro old new haccount hprice
    rw [haccount]
    split
    · exact m.mono haccount hprice
    · exact Nat.le_refl 0

variable {m : Measure} {rows more : List Reservation} {row : Reservation} {accountId : AccountId}

@[simp] theorem weight_count : count.weight row = 1 := rfl

@[simp] theorem weight_price : price.weight row = row.hourlyMicros := rfl

theorem weight_mine (h : row.accountId = accountId) : (m.only accountId).weight row = m.weight row :=
  if_pos h

theorem weight_other (h : row.accountId ≠ accountId) : (m.only accountId).weight row = 0 := if_neg h

@[simp] theorem total_single : m.total [row] = m.weight row := rfl

@[simp] theorem total_append : m.total (rows ++ more) = m.total rows + m.total more := by
  induction rows with
  | nil => simp [total]
  | cons row rows ih =>
    rw [List.cons_append, total, total, ih]
    omega

theorem total_count : count.total rows = rows.length := by
  induction rows with
  | nil => rfl
  | cons row rows ih =>
    rw [total, ih, List.length_cons, weight_count]
    omega

theorem total_price : price.total rows = reserved rows := by
  induction rows with
  | nil => rfl
  | cons row rows ih =>
    rw [total, ih]
    rfl

theorem total_only : (m.only accountId).total rows = m.total (owned accountId rows) := by
  unfold owned
  induction rows with
  | nil => rfl
  | cons row rows ih =>
    rw [total, ih, List.filter_cons]
    by_cases h : row.accountId = accountId
    · rw [if_pos (by simpa using h), total, weight_mine h]
    · rw [if_neg (by simpa using h), weight_other h, Nat.zero_add]

theorem total_covers {read there : List Reservation} (h : Covers read there) :
    m.total there ≤ m.total read := by
  rcases h with rfl | ⟨old, new, rfl, rfl, haccount, hprice⟩
  · exact Nat.zero_le _
  · simpa [total] using m.mono haccount hprice

/-- What was read weighs at least what there is. -/
theorem total_read {tally : Tally} {machines : List (World interface)}
    (h : List.Forall₂ ReadOf tally machines) :
    m.total (machines.flatMap reservationOf) ≤ m.total (tally.flatMap Prod.snd) := by
  induction h with
  | nil => exact Nat.le_refl _
  | cons hrow _ ih =>
    rw [List.flatMap_cons, List.flatMap_cons, total_append, total_append]
    exact Nat.add_le_add (total_covers hrow.2) ih

end Measure

/-- The tally without a machine was read of the others. -/
theorem reads_others {tally : Tally} {machines : List (World interface)} {machineId : MachineId}
    (h : List.Forall₂ ReadOf tally machines) :
    List.Forall₂ ReadOf (tally.filter fun row => row.1 ≠ machineId)
      (machines.filter fun world => machineIdOf world ≠ machineId) := by
  induction h with
  | nil => exact .nil
  | @cons row world rows rest hrow _ ih =>
    rw [List.filter_cons, List.filter_cons]
    by_cases hid : machineIdOf world = machineId
    · rw [if_neg (by simpa [hrow.1] using hid), if_neg (by simpa using hid)]
      exact ih
    · rw [if_pos (by simpa [hrow.1] using hid), if_pos (by simpa using hid)]
      exact .cons hrow ih

theorem filter_others {before after : List (World interface)} {world : World interface}
    (h : Table.Keyed machineIdOf (before ++ world :: after)) :
    ((before ++ world :: after).filter fun other => machineIdOf other ≠ machineIdOf world) =
      before ++ after := by
  have hskip : ∀ others : List (World interface), (∀ other ∈ others, other ∈ before ++ after) →
      (others.filter fun other => machineIdOf other ≠ machineIdOf world) = others := by
    intro others hmem
    refine List.filter_eq_self.mpr fun other ho => ?_
    simpa using other_id h (hmem other ho)
  rw [List.filter_append, List.filter_cons, if_neg (by simp)]
  rw [hskip before fun other ho => List.mem_append_left _ ho,
    hskip after fun other ho => List.mem_append_right _ ho]

/-! ## The limits -/

/-- Which sum is bounded, and by what. -/
inductive Limit (setting : Setting) : Measure → Nat → Prop where
  | machines : Limit setting .count setting.limits.maxMachines
  | price : Limit setting .price setting.limits.maxHourlyMicros
  | accountMachines {id : AccountId} {account : Account} (h : setting.accounts id = some account) :
      Limit setting (.only .count id) account.maxMachines
  | accountPrice {id : AccountId} {account : Account} (h : setting.accounts id = some account) :
      Limit setting (.only .price id) account.maxHourlyMicros

/-- The live allocations are within every limit. -/
def Within (setting : Setting) (rows : List Reservation) : Prop :=
  ∀ m bound, Limit setting m bound → m.total rows ≤ bound

variable {setting : Setting} {m : Measure} {bound : Nat} {rows : List Reservation}

theorem Within.of_le {more : List Reservation} (h : Within setting rows)
    (hle : ∀ m : Measure, m.total more ≤ m.total rows) : Within setting more :=
  fun m bound hlimit => Nat.le_trans (hle m) (h m bound hlimit)

theorem assertReservation_ok {limits : Limits} {account : Account} {principal : Principal}
    {additionalMachines : Nat} {additionalPrice : Micros} {currency : String}
    (h : assertReservation limits account principal rows additionalMachines additionalPrice currency =
      .ok ()) :
    (owned principal.accountId rows).length + additionalMachines ≤ account.maxMachines ∧
      rows.length + additionalMachines ≤ limits.maxMachines ∧
      reserved (owned principal.accountId rows) + additionalPrice ≤ account.maxHourlyMicros ∧
      reserved rows + additionalPrice ≤ limits.maxHourlyMicros := by
  simp only [assertReservation, bind_ok_iff, refuse_ok_iff, not_or, Nat.not_lt] at h
  obtain ⟨-, -, -, ⟨hmine, hall⟩, hprice, hprices⟩ := h
  exact ⟨Nat.le_trans hmine (Nat.min_le_left _ _), hall,
    Nat.le_trans hprice (Nat.min_le_left _ _), hprices⟩

/-- The check of a create bounds each sum with the new allocation, unless it does not count. -/
theorem created_within {account : Account} {principal : Principal} {price : Micros}
    {currency : String} (haccount : setting.accounts principal.accountId = some account)
    (h : assertReservation setting.limits account principal rows 1 price currency = .ok ())
    (hlimit : Limit setting m bound) (new : Reservation)
    (howner : new.accountId = principal.accountId) (hprice : new.hourlyMicros = price) :
    m.weight new = 0 ∨ m.total rows + m.weight new ≤ bound := by
  obtain ⟨hmine, hall, hmyprice, hprices⟩ := assertReservation_ok h
  rw [← Measure.total_price, ← hprice] at hprices
  rw [← Measure.total_count] at hall
  rw [← Measure.total_count, ← Measure.total_only] at hmine
  rw [← Measure.total_price, ← Measure.total_only, ← hprice] at hmyprice
  cases hlimit with
  | machines => exact .inr hall
  | price => exact .inr hprices
  | @accountMachines id other hother =>
    by_cases hid : new.accountId = id
    · refine .inr ?_
      rw [Measure.weight_mine hid]
      rw [howner] at hid
      subst hid
      obtain rfl := Option.some.inj (haccount.symm.trans hother)
      exact hmine
    · exact .inl (Measure.weight_other hid)
  | @accountPrice id other hother =>
    by_cases hid : new.accountId = id
    · refine .inr ?_
      rw [Measure.weight_mine hid]
      rw [howner] at hid
      subst hid
      obtain rfl := Option.some.inj (haccount.symm.trans hother)
      exact hmyprice
    · exact .inl (Measure.weight_other hid)

/-- The check of a resize bounds each sum with the larger price, unless it does not count. -/
theorem resized_within {account : Account} {principal : Principal} {old new : Reservation}
    {currency : String} (haccount : setting.accounts principal.accountId = some account)
    (howner : old.accountId = principal.accountId) (hsame : new.accountId = old.accountId)
    (hlarger : old.hourlyMicros ≤ new.hourlyMicros)
    (h : assertReservation setting.limits account principal (rows ++ [old]) 0
      (new.hourlyMicros - old.hourlyMicros) currency = .ok ())
    (hlimit : Limit setting m bound) :
    m.weight new = 0 ∨ m.total rows + m.weight new ≤ bound := by
  obtain ⟨hmine, hall, hmyprice, hprices⟩ := assertReservation_ok h
  rw [← Measure.total_price, Measure.total_append] at hprices
  rw [← Measure.total_count, Measure.total_append] at hall
  rw [← Measure.total_count, ← Measure.total_only, Measure.total_append] at hmine
  rw [← Measure.total_price, ← Measure.total_only, Measure.total_append] at hmyprice
  rw [Measure.total_single, Measure.weight_mine howner] at hmine hmyprice
  have hmy : new.accountId = principal.accountId := hsame.trans howner
  have hsum : old.hourlyMicros + (new.hourlyMicros - old.hourlyMicros) = new.hourlyMicros :=
    Nat.add_sub_cancel' hlarger
  cases hlimit with
  | machines => exact .inr hall
  | price =>
    refine .inr ?_
    rw [Measure.total_single, Measure.weight_price, Nat.add_assoc, hsum] at hprices
    exact hprices
  | @accountMachines id other hother =>
    by_cases hid : new.accountId = id
    · refine .inr ?_
      rw [Measure.weight_mine hid]
      rw [hmy] at hid
      subst hid
      obtain rfl := Option.some.inj (haccount.symm.trans hother)
      exact hmine
    · exact .inl (Measure.weight_other hid)
  | @accountPrice id other hother =>
    by_cases hid : new.accountId = id
    · refine .inr ?_
      rw [Measure.weight_mine hid]
      rw [hmy] at hid
      subst hid
      obtain rfl := Option.some.inj (haccount.symm.trans hother)
      rw [Measure.weight_price, Nat.add_assoc, hsum] at hmyprice
      exact hmyprice
    · exact .inl (Measure.weight_other hid)

/-! ## Steps -/

variable {A : Replies} {offline : Bool} {fleet fleet' : Fleet}
  {before after : List (World interface)} {world world' : World interface}

def Fleet.Bounded (setting : Setting) (fleet : Fleet) : Prop :=
  Within setting fleet.tables.reservations

theorem total_split : m.total ((before ++ world :: after).flatMap reservationOf) =
    m.total ((before ++ after).flatMap reservationOf) + m.total (reservationOf world) := by
  simp only [List.flatMap_append, List.flatMap_cons, Measure.total_append]
  omega

/-- A machine whose reservation is not raised keeps every sum within its limit. -/
theorem Within.lowered (h : Within setting ((before ++ world :: after).flatMap reservationOf))
    (hcovers : Covers (reservationOf world) (reservationOf world')) :
    Within setting ((before ++ world' :: after).flatMap reservationOf) := by
  refine h.of_le fun m => ?_
  rw [total_split, total_split]
  exact Nat.add_le_add_left (Measure.total_covers hcovers) _

/-- What an action reserves: nothing new, or the larger price of a resize after its check. -/
theorem reserve_within {catalog : Catalog} {env : Env} {journal journal' : Journal} {account : Account}
    {principal : Principal} {command : LifecycleCommand} {offer : Option CatalogItem}
    (hlive : journal.allocation.live = true)
    (h : reserve setting.limits catalog env journal account principal command = .ok (offer, journal')) :
    journal'.reservation = journal.reservation ∨
      ∃ old new currency, journal.reservation = [old] ∧ journal'.reservation = [new] ∧
        new.accountId = old.accountId ∧ old.accountId = journal.machine.accountId ∧
        old.hourlyMicros ≤ new.hourlyMicros ∧
        assertReservation setting.limits account principal (env.others ++ [old]) 0
          (new.hourlyMicros - old.hourlyMicros) currency = .ok () := by
  cases command with
  | resize version size =>
    simp only [reserve, reserveResize, updateAllocation, bind_ok_iff, pure_ok_iff,
      refuse_ok_iff] at h
    obtain ⟨⟨quoted, reserved⟩, ⟨-, -, item, -, -, -, -, -, ⟨⟩, hassert, reserved', ⟨-, -, rfl⟩,
      hpair⟩, hjournal⟩ := h
    obtain ⟨-, rfl⟩ := Prod.mk.inj hpair
    obtain ⟨-, rfl⟩ := Prod.mk.inj hjournal
    have hold : journal.reservation = [⟨journal.machine.accountId, journal.allocation.currency,
        journal.allocation.hourlyMicros⟩] := by simp [Journal.reservation, hlive]
    rw [hold] at hassert
    refine .inr ⟨_, ⟨journal.machine.accountId, journal.allocation.currency,
      max journal.allocation.hourlyMicros item.hourlyMicros⟩, item.currency, hold, ?_, rfl, rfl,
      Nat.le_max_left _ _, hassert⟩
    have hstill : journal.allocation.retiredAt.isNone = true := hlive
    simp [Journal.reservation, Allocation.live, hstill]
  | create | reboot | powerOff | powerOn | destroy =>
    obtain ⟨-, rfl⟩ := Prod.mk.inj (Except.ok.inj h)
    exact .inl rfl

theorem admitCreate_within {catalog : Catalog} {env : Env} {projects : List (ProjectId × AccountId)}
    {machines : List MachineRow} {account : Account} {principal : Principal} {projectId : ProjectId}
    {spec : MachineSpec} {machineId : MachineId} {allocationId : AllocationId} {journal : Journal}
    (h : admitCreate setting.provider setting.limits catalog env projects machines account principal
      projectId spec machineId allocationId = .ok journal) :
    ∃ offer : CatalogItem, assertReservation setting.limits account principal env.others 1 offer.hourlyMicros
        offer.currency = .ok () ∧
      journal.reservation = [⟨principal.accountId, offer.currency, offer.hourlyMicros⟩] := by
  simp only [admitCreate, bind_ok_iff, refuse_ok_iff, pure_ok_iff] at h
  obtain ⟨-, -, -, -, -, -, offer, -, ⟨⟩, hassert, rfl⟩ := h
  exact ⟨offer, hassert, rfl⟩

theorem admitAction_within {catalog : Catalog} {env : Env} {journal journal' : Journal}
    {account : Account} {principal : Principal} {command : LifecycleCommand} {operation : OperationRow}
    (h : admitAction setting.limits catalog env journal account principal command =
      .ok (operation, journal')) :
    journal.machine.accountId = principal.accountId ∧
      (journal'.reservation = journal.reservation ∨
        ∃ old new currency, journal.reservation = [old] ∧ journal'.reservation = [new] ∧
          new.accountId = old.accountId ∧ old.accountId = journal.machine.accountId ∧
          old.hourlyMicros ≤ new.hourlyMicros ∧
          assertReservation setting.limits account principal (env.others ++ [old]) 0
            (new.hourlyMicros - old.hourlyMicros) currency = .ok ()) := by
  simp only [admitAction, bind_ok_iff, pure_ok_iff, refuse_ok_iff, insertOperation, not_not,
    not_or] at h
  obtain ⟨-, haccount, -, -, -, -, -, -, -, ⟨hlive, -, -⟩, ⟨offer, reserved⟩, hreserve, inserted,
    ⟨-, -, rfl⟩, hpair⟩ := h
  obtain ⟨-, rfl⟩ := Prod.mk.inj hpair
  have hwithin := reserve_within (by simpa using hlive) hreserve
  exact ⟨haccount, hwithin⟩

/-- **Step lemma.** -/
theorem Fleet.Step.bounded (h : fleet.Ordered A) (hb : fleet.Bounded setting)
    (step : Fleet.Step setting A offline fleet fleet') : fleet'.Bounded setting := by
  cases step with
  | @works before after world here machine step anchored unique =>
    have hmem : world ∈ fleet.tables.machines := by rw [here]; simp
    obtain ⟨-, hturned⟩ := works_turned (h.machines world hmem) step
    have hbefore : Within setting ((before ++ world :: after).flatMap reservationOf) := here ▸ hb
    exact hbefore.lowered (covers_of_lowers hturned.lowers anchored.accountId)
  | locks free => exact hb
  | @admitted tally locked reads caller genuine request key operation tables ok =>
    have hread := h.tallied tally locked
    obtain ⟨account, authority, haccount, hauthority, ⟨-, -, -, -, rfl⟩ | ⟨-, -, hplaced⟩⟩ :=
      admitRequest_ok h.keyed ok
    · exact hb
    rw [← genuine.accountId hauthority] at haccount
    clear ok
    obtain ⟨machines, keys⟩ := tables
    dsimp only at hplaced
    cases hplaced with
    | @created projectId spec journal operation ok unused new inserted =>
      obtain ⟨offer, hassert, hreservation⟩ := admitCreate_within ok
      intro m bound hlimit
      show m.total ((fleet.tables.machines ++ [_]).flatMap reservationOf) ≤ bound
      rw [List.flatMap_append, Measure.total_append]
      have hthere : m.total (fleet.tables.machines.flatMap reservationOf) ≤ _ := Measure.total_read hread
      have hnew : m.total ([(⟨⟨reads.now, journal⟩, []⟩ : World interface)].flatMap reservationOf) =
          m.weight ⟨authority.principal.accountId, offer.currency, offer.hourlyMicros⟩ := by
        rw [List.flatMap_singleton]
        show m.total journal.reservation = _
        rw [hreservation]
        rfl
      rw [hnew]
      rcases created_within haccount hassert hlimit ⟨authority.principal.accountId, offer.currency,
          offer.hourlyMicros⟩ rfl rfl with hzero | hle
      · rw [hzero]
        exact hb m bound hlimit
      · exact Nat.le_trans (Nat.add_le_add_right hthere _) hle
    | @acted machineId command action before after world journal operation here hid ok unused =>
      have hmem : world ∈ fleet.tables.machines := by rw [here]; simp
      subst hid
      rw [here] at hread
      have hothers := @reads_others _ _ (machineIdOf world) hread
      rw [filter_others (here ▸ h.keyed)] at hothers
      have hbefore : Within setting ((before ++ world :: after).flatMap reservationOf) := here ▸ hb
      obtain ⟨hmine, hsame | ⟨old, new, currency, hold, hnew, howner, hold', hlarger, hassert⟩⟩ :=
        admitAction_within ok
      · intro m bound hlimit
        have hle := hbefore m bound hlimit
        show m.total ((before ++ _ :: after).flatMap reservationOf) ≤ bound
        rw [total_split] at hle ⊢
        show _ + m.total journal.reservation ≤ bound
        rw [hsame]
        exact hle
      · intro m bound hlimit
        have hle := hbefore m bound hlimit
        show m.total ((before ++ _ :: after).flatMap reservationOf) ≤ bound
        rw [total_split] at hle ⊢
        show _ + m.total journal.reservation ≤ bound
        rw [hnew, Measure.total_single]
        rcases resized_within haccount (hold'.trans hmine) howner hlarger hassert hlimit with hzero | hsum
        · rw [hzero]
          exact Nat.le_trans (Nat.le_add_right _ _) hle
        · exact Nat.le_trans (Nat.add_le_add_right (Measure.total_read hothers) _) hsum
  | @cleaned tally locked env caller genuine machineId expectedVersion allowDataLoss key operation
      tables ok =>
    obtain ⟨before, after, world, authority, here, hid, -, hheld, -,
      ⟨-, -, -, -, rfl⟩ | ⟨journal, -, hopen, -, -, hmachines⟩⟩ := admitDestroy_ok h.keyed ok
    · exact hb
    subst hid
    have hmem : world ∈ fleet.tables.machines := by rw [here]; simp
    have hfree : fleet.running (machineIdOf world) = none := by simpa using hheld
    have hworld := h.machines world hmem
    rw [controlOf, hfree] at hworld
    obtain ⟨-, hturned⟩ := destroyed_inOrder hworld hopen
    have hbefore : Within setting ((before ++ world :: after).flatMap reservationOf) := here ▸ hb
    show Within setting (tables.machines.flatMap reservationOf)
    rw [hmachines]
    exact hbefore.lowered (covers_of_lowers hturned.lowers (openCleanup_ids hopen).2.1)
  | gone => exact hb

/-! ## Runs -/

theorem Fleet.Reach.bounded (h : fleet.Ordered A) (hb : fleet.Bounded setting)
    (reach : Fleet.Reach setting A offline fleet fleet') : fleet'.Bounded setting := by
  induction reach with
  | refl => exact hb
  | tail before step ih => exact step.bounded (Fleet.Reach.ordered h before) ih

/-- **Budget safety.**  In every run of the fleet, the number of live allocations and the sum of what
    they reserve are within the limits of each account and of the platform, and no step of a worker
    raises a reservation or brings a retired one back. -/
theorem budget_safe (reach : Fleet.Reach setting A offline .empty fleet) :
    fleet.tables.reservations.length ≤ setting.limits.maxMachines ∧
    reserved fleet.tables.reservations ≤ setting.limits.maxHourlyMicros ∧
    (∀ id account, setting.accounts id = some account →
      (owned id fleet.tables.reservations).length ≤ account.maxMachines ∧
      reserved (owned id fleet.tables.reservations) ≤ account.maxHourlyMicros) ∧
    ∀ world ∈ fleet.tables.machines, ∀ machine,
      (workers A offline).Step (controlOf fleet.running world) machine →
      Lowers world.store.journal machine.world.store.journal := by
  have hordered : fleet.Ordered A := Fleet.Reach.ordered .empty reach
  have hbounded : fleet.Bounded setting :=
    Fleet.Reach.bounded .empty (fun m bound _ => Nat.zero_le bound) reach
  refine ⟨?_, ?_, ?_, ?_⟩
  · rw [← Measure.total_count]
    exact hbounded _ _ .machines
  · rw [← Measure.total_price]
    exact hbounded _ _ .price
  · intro id account haccount
    constructor
    · rw [← Measure.total_count, ← Measure.total_only]
      exact hbounded _ _ (.accountMachines haccount)
    · rw [← Measure.total_price, ← Measure.total_only]
      exact hbounded _ _ (.accountPrice haccount)
  · intro world hmem machine step
    exact (works_turned (hordered.machines world hmem) step).2.lowers

namespace Demo

/-- One machine of an account that may have two. -/
theorem one_within : ∃ fleet : Fleet, fleet.tables.reservations = [⟨"acct", "EUR", 7000⟩] ∧
    reserved fleet.tables.reservations ≤ configured.limits.maxHourlyMicros := by
  obtain ⟨fleet, reach, hrows, -⟩ := one_reached
  exact ⟨fleet, hrows, (budget_safe reach).2.1⟩

end Demo

end AgentCloud.Lifecycle
