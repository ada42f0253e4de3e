/-
  THE INVARIANT OF THE HOSTING PROTOCOL.

  `Sound` is what holds in every reachable state, whatever the order of steps: hostnames are unique,
  guests are consistent, no version in flight is ahead of the desired one, a worker's retention is
  not ahead of the recorded acknowledgement, and a worker on the newest version agrees with the row
  about what that version is.  It says nothing about which version the gateway serves; `Removal` and
  `Retention` build on it for that.

  `Known store m a` is the one fact about machines that lasts: `m` has allocation `a` or is past
  having any.  It is what makes a target that went dark stay dark (`targetLive_of_step`).
-/
import AgentCloud.Hosting.Protocol

namespace AgentCloud.Hosting

open Checked

variable {config : Config} {e : Event} {s t : State} {hostname : Hostname}

/-! ## Machines only move forward -/

/-- The machine has this allocation, or is past having any. -/
def Known (store : Store) (machineId : MachineId) (allocationId : AllocationId) : Prop :=
  ∃ row, store.machine machineId = some row ∧
    (row.state.allocation? = some allocationId ∨ 2 < row.state.stage)

theorem Known.forward {store : Store} {m id : MachineId} {a : AllocationId} {state : MachineState}
    {row : MachineRow} (h : Known store m a) (here : store.machine id = some row)
    (forward : row.state.mayBecome state) :
    Known { store with
      machines := Table.update MachineRow.id store.machines id ({ · with state }) } m a := by
  obtain ⟨old, hold, hstate⟩ := h
  have hget : Table.get MachineRow.id
      (Table.update MachineRow.id store.machines id ({ · with state })) m = _ :=
    Table.get_update fun _ => rfl
  simp only [MachineState.mayBecome, Bool.and_eq_true, Bool.or_eq_true, decide_eq_true_eq] at forward
  by_cases hm : m = id
  · subst hm
    obtain rfl : row = old := Option.some.inj (here.symm.trans hold)
    refine ⟨{ row with state }, ?_, ?_⟩
    · rw [Store.machine, hget, if_pos rfl]
      rw [Store.machine] at hold
      rw [hold]; rfl
    · rcases hstate with ha | hpast
      · rcases forward.2 with (hn | hsame) | hpast
        · rw [ha] at hn; cases hn
        · exact .inl (hsame.trans ha)
        · exact .inr hpast
      · exact .inr (Nat.lt_of_lt_of_le hpast forward.1)
  · refine ⟨old, ?_, hstate⟩
    rw [Store.machine, hget, if_neg hm]
    exact hold

/-- A known target that is live after a machine changed was live before. -/
theorem targetLive_of_forward {store : Store} {id : MachineId} {state : MachineState}
    {row : MachineRow} {target : AppliedTarget}
    (known : Known store target.machineId target.allocationId)
    (here : store.machine id = some row) (forward : row.state.mayBecome state)
    (live : targetLive { store with
      machines := Table.update MachineRow.id store.machines id ({ · with state }) } target = true) :
    targetLive store target = true := by
  obtain ⟨old, hold, hstate⟩ := known
  have hget : Table.get MachineRow.id
      (Table.update MachineRow.id store.machines id ({ · with state })) target.machineId = _ :=
    Table.get_update fun _ => rfl
  have hfound := hold
  rw [Store.machine] at hfound
  simp only [targetLive, Store.machine, hget, hfound] at live ⊢
  rcases hstate with ha | hpast
  · simpa using ha
  · -- a machine past its allocation has none, before and after
    by_cases hm : target.machineId = id
    · rw [hm] at hold
      obtain rfl : row = old := Option.some.inj (here.symm.trans hold)
      simp only [hm, if_true, Option.map_some, decide_eq_true_eq] at live
      simp only [MachineState.mayBecome, Bool.and_eq_true, decide_eq_true_eq] at forward
      have hstage := MachineState.allocation?_stage live
      omega
    · simpa only [hm, if_false] using live

/-! ## The invariant -/

/-- `route` is what the row was when some attempt was claimed. -/
structure VersionOf (row : RouteRow) (route : Route) : Prop where
  version : route.version ≤ row.record.version
  retain : route.gatewayAppliedVersion.getD 0 ≤ row.record.gatewayAppliedVersion.getD 0
  newest : route.version = row.record.version →
    (route.state = .removed ↔ row.record.state = .removed) ∧
    route.machineId = row.record.machineId ∧ route.allocationId = row.record.allocationId

structure Sound (s : State) : Prop where
  keyed : Table.Keyed RouteRow.hostname s.store.routes
  guests : ∀ m, (s.guests m).Valid
  placed : ∀ {h row}, s.store.route h = some row →
    Known s.store row.record.machineId row.record.allocationId
  targeted : ∀ {h row target}, s.store.route h = some row → row.target = some target →
    target.version ≤ row.record.version ∧ Known s.store target.machineId target.allocationId
  acknowledged : ∀ {h row}, s.store.route h = some row →
    row.record.gatewayAppliedVersion.getD 0 ≤ row.record.version
  pending : ∀ {h v}, s.Pending h v → ∃ row, s.store.route h = some row ∧ v ≤ row.record.version
  worker : ∀ {w}, w ∈ s.workers → ∃ row, s.store.route w.route.hostname = some row ∧
    VersionOf row w.route

theorem initial_sound (machines : List MachineRow) : Sound (.initial machines) where
  keyed := Table.Keyed.nil
  guests _ := Guest.empty_valid
  placed h := by simp [State.initial, Store.route] at h
  targeted h := by simp [State.initial, Store.route] at h
  acknowledged h := by simp [State.initial, Store.route] at h
  pending h := by simp [State.initial, State.Pending, State.PendingIn] at h
  worker h := by simp [State.initial] at h

theorem Sound.carried (hs : Sound s) {w : Worker} (h : Carried s w) :
    ∃ row, s.store.route w.route.hostname = some row ∧ VersionOf row w.route := by
  obtain ⟨old, hm, hroute, -⟩ := h
  rw [hroute]
  exact hs.worker hm

/-! ## Rewritten rows -/

/-- A lookup in a store with one record replaced: the old row, or the old row with the new
    record. -/
theorem setRecord_cases {store : Store} {record : Route} {row after : RouteRow} {h : Hostname}
    (here : store.route hostname = some row)
    (found : (store.setRecord hostname record).route h = some after) :
    (h = hostname ∧ after = { row with record }) ∨ (h ≠ hostname ∧ store.route h = some after) := by
  rw [setRecord_route] at found
  split at found
  · next he =>
    subst he
    rw [here] at found
    exact .inl ⟨rfl, (Option.some.inj found).symm⟩
  · next hne => exact .inr ⟨hne, found⟩

theorem setRecord_some {store : Store} {record : Route} {row : RouteRow} {h : Hostname}
    (found : store.route h = some row) : (store.setRecord hostname record).route h =
      some (if h = hostname then { row with record } else row) := by
  rw [setRecord_route, found]
  split <;> rfl

/-- A worker's version survives a rewrite of the row that keeps what a version is. -/
theorem VersionOf.rewrite {row after : RouteRow} {route : Route} (h : VersionOf row route)
    (version : after.record.version = row.record.version)
    (gateway : row.record.gatewayAppliedVersion.getD 0 ≤
      after.record.gatewayAppliedVersion.getD 0)
    (state : route.version = row.record.version →
      (after.record.state = .removed ↔ row.record.state = .removed))
    (machine : after.record.machineId = row.record.machineId)
    (allocation : after.record.allocationId = row.record.allocationId) : VersionOf after route where
  version := version ▸ h.version
  retain := Nat.le_trans h.retain gateway
  newest he := by
    rw [version] at he
    obtain ⟨hst, hm, ha⟩ := h.newest he
    exact ⟨hst.trans (state he).symm, hm.trans machine.symm, ha.trans allocation.symm⟩

/-- A record rewritten without touching its version, place, state or acknowledgement. -/
theorem Sound.setRecord (hs : Sound s) {row : RouteRow} (record : Route)
    (here : s.store.route hostname = some row)
    (version : record.version = row.record.version)
    (gateway : row.record.gatewayAppliedVersion.getD 0 ≤ record.gatewayAppliedVersion.getD 0)
    (bound : record.gatewayAppliedVersion.getD 0 ≤ record.version)
    (state : record.state = row.record.state) (machine : record.machineId = row.record.machineId)
    (allocation : record.allocationId = row.record.allocationId) :
    Sound { s with store := s.store.setRecord hostname record } where
  keyed := updateRoute_keyed (fun _ => rfl) hs.keyed
  guests := hs.guests
  placed h := by
    rcases setRecord_cases here h with ⟨rfl, rfl⟩ | ⟨-, h⟩
    · have := hs.placed here
      simp only [machine, allocation]
      exact this
    · exact hs.placed h
  targeted h ht := by
    rcases setRecord_cases here h with ⟨rfl, rfl⟩ | ⟨-, h⟩
    · simp only [version]
      exact hs.targeted here ht
    · exact hs.targeted h ht
  acknowledged h := by
    rcases setRecord_cases here h with ⟨rfl, rfl⟩ | ⟨-, h⟩
    · exact bound
    · exact hs.acknowledged h
  pending h := by
    obtain ⟨found, hf, hle⟩ := hs.pending h
    refine ⟨_, setRecord_some hf, ?_⟩
    split
    · next he => subst he; rw [here] at hf; cases hf; simpa only [version] using hle
    · exact hle
  worker hw := by
    obtain ⟨found, hf, hv⟩ := hs.worker hw
    refine ⟨_, setRecord_some hf, ?_⟩
    split
    · next he =>
      rw [he, here] at hf
      cases hf
      exact hv.rewrite version gateway (fun _ => by simp only [state]) machine allocation
    · exact hv

/-! ## One step -/

theorem Sound.change (hs : Sound s) (h : Change config e s t) : Sound t := by
  cases h with
  | quiet workers acknowledging carried fewer =>
    exact ⟨hs.keyed, hs.guests, hs.placed, hs.targeted, hs.acknowledged,
      fun h => hs.pending (fewer _ _ h), fun hw => hs.carried (carried _ hw)⟩
  | admitted env principal command route store event adm =>
    have hmachine : ∀ m, store.machine m = s.store.machine m := fun m => by
      rw [Store.machine, adm.machines]; rfl
    have hknown : ∀ {m a}, Known s.store m a → Known store m a := fun ⟨row, hrow, hst⟩ =>
      ⟨row, (hmachine _).trans hrow, hst⟩
    obtain ⟨row, hrow, hrecord, htarget⟩ := adm.row
    -- the versions of the hostname before and after
    have hold : ∀ old, s.store.route route.hostname = some old →
        route.version = old.record.version + 1 ∧
        route.gatewayAppliedVersion = old.record.gatewayAppliedVersion := fun old h => by
      have h₁ := adm.version
      have h₂ := adm.expected
      have h₃ := adm.gateway
      rw [h] at h₂ h₃
      rw [← h₂] at h₁
      exact ⟨h₁, h₃⟩
    refine ⟨adm.keyed hs.keyed, hs.guests, fun {h r} hr => ?_, fun {h r target} hr ht => ?_,
      fun {h r} hr => ?_, fun {h v} hp => ?_, fun {w} hw => ?_⟩
    · by_cases hh : h = route.hostname
      · subst hh
        rw [hrow] at hr
        cases hr
        rw [hrecord]
        rcases adm.destination with ⟨machine, hm, ha⟩ | ⟨old, hold', hm, ha⟩
        · exact ⟨machine, (hmachine _).trans hm, .inl ha⟩
        · exact hm ▸ ha ▸ hknown (hs.placed hold')
      · rw [adm.other h hh] at hr
        exact hknown (hs.placed hr)
    · by_cases hh : h = route.hostname
      · subst hh
        rw [hrow] at hr
        cases hr
        rw [htarget] at ht
        obtain ⟨old, hold', ht⟩ := Option.bind_eq_some_iff.mp ht
        obtain ⟨hle, hk⟩ := hs.targeted hold' ht
        rw [hrecord, (hold old hold').1]
        exact ⟨Nat.le_succ_of_le hle, hknown hk⟩
      · rw [adm.other h hh] at hr
        exact (hs.targeted hr ht).imp_right hknown
    · by_cases hh : h = route.hostname
      · subst hh
        rw [hrow] at hr
        cases hr
        rw [hrecord]
        cases hold' : s.store.route route.hostname with
        | none => rw [adm.gateway, hold']; exact Nat.zero_le _
        | some old =>
          obtain ⟨hv, hg⟩ := hold old hold'
          rw [hv, hg]
          exact Nat.le_succ_of_le (hs.acknowledged hold')
      · rw [adm.other h hh] at hr
        exact hs.acknowledged hr
    · obtain ⟨old, hold', hle⟩ := hs.pending hp
      by_cases hh : h = route.hostname
      · subst hh
        refine ⟨row, hrow, ?_⟩
        rw [hrecord, (hold old hold').1]
        exact Nat.le_succ_of_le hle
      · exact ⟨old, (adm.other h hh).trans hold', hle⟩
    · obtain ⟨old, hold', hv⟩ := hs.worker hw
      by_cases hh : w.route.hostname = route.hostname
      · rw [hh] at hold'
        obtain ⟨hver, hgate⟩ := hold old hold'
        have hle := hv.version
        refine ⟨row, hh ▸ hrow, ?_, ?_, fun he => ?_⟩
        · rw [hrecord, hver]; exact Nat.le_succ_of_le hle
        · rw [hrecord, hgate]; exact hv.retain
        · -- the newest version has no worker yet
          rw [hrecord, hver] at he
          omega
      · exact ⟨old, (adm.other _ hh).trans hold', hv⟩
  | attempted name row application workers here hname carried =>
    have h := hs.setRecord { row.record with application } here rfl (Nat.le_refl _)
      (hs.acknowledged here) rfl rfl rfl
    refine ⟨h.keyed, h.guests, h.placed, h.targeted, h.acknowledged, h.pending, fun {w} hw => ?_⟩
    rcases carried w hw with hc | ⟨hroute, -⟩
    · exact h.carried hc
    · refine ⟨_, by rw [hroute]; exact setRecord_some (hname ▸ here), ?_⟩
      rw [if_pos hname, hroute]
      exact ⟨Nat.le_refl _, Nat.le_refl _, fun _ => ⟨Iff.rfl, rfl, rfl⟩⟩
  | commanded worker cut workers mem carried =>
    refine ⟨hs.keyed, fun m => ?_, hs.placed, hs.targeted, hs.acknowledged, hs.pending,
      fun {w} hw => ?_⟩
    · by_cases hm : m = worker.route.machineId
      · subst hm
        simp only [Function.update_self]
        exact Guest.command_valid (hs.guests _) cut _
      · simp only [Function.update_of_ne hm]
        exact hs.guests m
    · rcases carried w hw with hc | ⟨hroute, -⟩
      · exact hs.carried hc
      · rw [hroute]; exact hs.worker mem
  | recorded worker target row store workers mem phase here newest name machines commands keyed
      routes carried =>
    have hmachine : ∀ m, store.machine m = s.store.machine m := fun m => by
      rw [Store.machine, machines]; rfl
    have hknown : ∀ {m a}, Known s.store m a → Known store m a := fun ⟨row, hrow, hst⟩ =>
      ⟨row, (hmachine _).trans hrow, hst⟩
    obtain ⟨found, hf, hof⟩ := hs.worker mem
    rw [here] at hf
    cases hf
    obtain ⟨hstate, hm, ha⟩ := hof.newest newest.symm
    have hcases : ∀ {h r}, store.route h = some r →
        (h = worker.route.hostname ∧ r = Hosting.recorded worker.route target row) ∨
        (h ≠ worker.route.hostname ∧ s.store.route h = some r) := fun {h r} hr => by
      rw [routes] at hr
      split at hr
      · next he => exact .inl ⟨he, (Option.some.inj hr).symm⟩
      · next hne => exact .inr ⟨hne, hr⟩
    refine ⟨keyed hs.keyed, hs.guests, fun {h r} hr => ?_, fun {h r t} hr ht => ?_,
      fun {h r} hr => ?_, fun {h v} hp => ?_, fun {w} hw => ?_⟩
    · rcases hcases hr with ⟨rfl, rfl⟩ | ⟨-, hr⟩
      · exact hknown (by simpa only [Hosting.recorded] using hs.placed here)
      · exact hknown (hs.placed hr)
    · rcases hcases hr with ⟨rfl, rfl⟩ | ⟨-, hr⟩
      · obtain ⟨reached, -, rfl⟩ := Option.map_eq_some_iff.mp ht
        refine ⟨Nat.le_of_eq newest.symm, ?_⟩
        simp only [hm, ha]
        exact hknown (hs.placed here)
      · exact (hs.targeted hr ht).imp_right hknown
    · rcases hcases hr with ⟨rfl, rfl⟩ | ⟨-, hr⟩
      · simpa only [Hosting.recorded] using hs.acknowledged here
      · exact hs.acknowledged hr
    · obtain ⟨old, hold, hle⟩ := hs.pending hp
      by_cases hh : h = worker.route.hostname
      · subst hh
        rw [here] at hold
        cases hold
        exact ⟨_, (routes _).trans (if_pos rfl), hle⟩
      · exact ⟨old, (routes h).trans (by rw [if_neg hh, hold]), hle⟩
    · obtain ⟨old, hold, hv⟩ := hs.carried (carried w hw)
      by_cases hh : w.route.hostname = worker.route.hostname
      · rw [hh, here] at hold
        cases hold
        refine ⟨_, (routes _).trans (if_pos hh), hv.rewrite rfl (Nat.le_refl _) (fun _ => ?_) rfl rfl⟩
        simp only [Hosting.recorded]
        split <;> simp_all
      · exact ⟨old, (routes _).trans (by rw [if_neg hh, hold]), hv⟩
  | handed current read =>
    exact ⟨hs.keyed, hs.guests, hs.placed, hs.targeted, hs.acknowledged, hs.pending, hs.worker⟩
  | acknowledging current earlier read mem same =>
    refine ⟨hs.keyed, hs.guests, hs.placed, hs.targeted, hs.acknowledged, fun {h v} hp => ?_,
      hs.worker⟩
    obtain ⟨batch, hb, hv⟩ := hp
    rcases List.mem_cons.mp hb with rfl | hb
    · -- a version just read is the row's own, or its target's
      obtain ⟨entry, he, heq⟩ := List.mem_map.mp hv
      obtain ⟨rfl, rfl⟩ := Prod.mk.inj heq
      obtain ⟨row, hrow, hshow⟩ := gatewayState_ok hs.keyed read entry he
      refine ⟨row, hrow, ?_⟩
      rcases hshow with ⟨-, rfl⟩ | ⟨-, target, ht, -, rfl⟩
      · exact Nat.le_refl _
      · exact (hs.targeted hrow ht).1
    · exact hs.pending ⟨batch, hb, hv⟩
  | passed name version row acknowledging pending here hname raised fewer =>
    obtain ⟨found, hf, hle⟩ := hs.pending pending
    rw [here] at hf
    cases hf
    have h := hs.setRecord { row.record with gatewayAppliedVersion := some version }
      here rfl (Nat.le_of_lt raised) hle rfl rfl rfl
    exact ⟨h.keyed, h.guests, h.placed, h.targeted, h.acknowledged,
      fun hp => h.pending (fewer _ _ hp), h.worker⟩
  | machine id state row here forward =>
    exact ⟨hs.keyed, hs.guests, fun h => (hs.placed h).forward here forward,
      fun h ht => (hs.targeted h ht).imp_right fun hk => hk.forward here forward,
      hs.acknowledged, hs.pending, hs.worker⟩

/-- **Run lemma.** Every reachable state is sound. -/
theorem reachable_sound {machines : List MachineRow}
    (h : (hosting config).Reachable (.initial machines) s) : Sound s :=
  h.invariant (I := Sound) (fun hs _ he => hs.change (step_change he)) (initial_sound machines)

end AgentCloud.Hosting
