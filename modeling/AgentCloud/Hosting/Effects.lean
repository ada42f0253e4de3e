/-
  WHAT EACH HOSTING TRANSACTION WRITES, read back through lookups.

  One lemma per transaction of `Routes`.  Every later proof about a route row goes through these, so
  a change of a check or of a field in `Routes` is felt here and nowhere else.  `Admitted` is the
  full account of a mutation; the other transactions rewrite one row, and their lemmas name the
  rewritten fields.
-/
import AgentCloud.Hosting.Routes

namespace AgentCloud.Hosting

open Checked

variable {store after : Store} {hostname : Hostname} {row : RouteRow} {route : Route}

/-! ## Lookups -/

@[simp] theorem updateRoute_machines (f : RouteRow → RouteRow) :
    (store.updateRoute hostname f).machines = store.machines := rfl

@[simp] theorem updateRoute_machine (f : RouteRow → RouteRow) (id : MachineId) :
    (store.updateRoute hostname f).machine id = store.machine id := rfl

theorem updateRoute_route {f : RouteRow → RouteRow} (hf : ∀ row, (f row).hostname = row.hostname)
    (h : Hostname) : (store.updateRoute hostname f).route h =
      if h = hostname then (store.route h).map f else store.route h :=
  Table.get_update hf

theorem updateRoute_keyed {f : RouteRow → RouteRow} (hf : ∀ row, (f row).hostname = row.hostname)
    (hk : Table.Keyed RouteRow.hostname store.routes) :
    Table.Keyed RouteRow.hostname (store.updateRoute hostname f).routes := hk.update hf

theorem route_hostname (h : store.route hostname = some row) : row.hostname = hostname :=
  Table.get_key h

theorem routeSchema_ok {parsed : Route} (h : routeSchema route = .ok parsed) :
    parsed = route ∧ 0 < route.version := by
  simp only [routeSchema, bind_ok_iff, refuse_ok_iff, pure_ok_iff, not_or] at h
  obtain ⟨-, ⟨-, hv, -⟩, rfl⟩ := h
  exact ⟨rfl, Nat.pos_of_ne_zero hv⟩

/-- A record that reads is the row's own, under the row's own columns. -/
theorem routeRecord_ok (h : routeRecord row = .ok route) :
    route = row.record ∧ route.hostname = row.hostname ∧ 0 < route.version := by
  simp only [routeRecord, bind_ok_iff, refuse_ok_iff, pure_ok_iff, not_or, not_not] at h
  obtain ⟨record, hs, -, ⟨hh, -⟩, rfl⟩ := h
  obtain ⟨rfl, hv⟩ := routeSchema_ok hs
  exact ⟨rfl, hh, hv⟩

/-! ## Mutations -/

/-- Everything an admitted command does to the tables. -/
structure Admitted (config : Config) (store : Store) (command : RouteCommand) (route : Route) (after :
    Store) : Prop where
  name : route.hostname = commandHostname config command
  machines : after.machines = store.machines
  receipt : ∃ receipt, after.commands = store.commands ++ [receipt] ∧
    receipt.hostname = route.hostname ∧ receipt.digest = command ∧ receipt.version = route.version
  keyed : Table.Keyed RouteRow.hostname store.routes → Table.Keyed RouteRow.hostname after.routes
  other : ∀ h, h ≠ route.hostname → after.route h = store.route h
  /-- The row holds the new record and keeps its target. -/
  row : ∃ row, after.route route.hostname = some row ∧ row.record = route ∧
    row.target = (store.route route.hostname).bind (·.target)
  expected : (store.route route.hostname).map (·.record.version) = command.expectedVersion
  version : route.version = command.expectedVersion.getD 0 + 1
  state : route.state = if command.isRemove then .removed else .pending
  gateway : route.gatewayAppliedVersion =
    (store.route route.hostname).bind (·.record.gatewayAppliedVersion)
  /-- A publication goes to an allocated machine, a removal stays where the route was. -/
  destination :
    (∃ machine, store.machine route.machineId = some machine ∧
      machine.state.allocation? = some route.allocationId) ∨
    (∃ old, store.route route.hostname = some old ∧ old.record.machineId = route.machineId ∧
      old.record.allocationId = route.allocationId)

theorem putRoute_machines : (putRoute store route).machines = store.machines := by
  unfold putRoute; split <;> rfl

theorem putRoute_commands : (putRoute store route).commands = store.commands := by
  unfold putRoute; split <;> rfl

theorem putRoute_keyed (hk : Table.Keyed RouteRow.hostname store.routes) :
    Table.Keyed RouteRow.hostname (putRoute store route).routes := by
  unfold putRoute
  split
  · exact updateRoute_keyed (fun _ => rfl) hk
  · next hnone => exact hk.insert hnone

theorem putRoute_other {h : Hostname} (hne : h ≠ route.hostname) :
    (putRoute store route).route h = store.route h := by
  unfold putRoute
  split
  · rw [updateRoute_route, if_neg hne]
    exact fun _ => rfl
  · simp [Store.route, Ne.symm hne]

theorem putRoute_row : ∃ row, (putRoute store route).route route.hostname = some row ∧
    row.record = route ∧ row.target = (store.route route.hostname).bind (·.target) := by
  unfold putRoute
  split
  · next old hold =>
    rw [updateRoute_route, if_pos rfl, hold]
    · exact ⟨_, rfl, rfl, rfl⟩
    · exact fun _ => rfl
  · next hnone =>
    simp only [Store.route] at hnone
    exact ⟨⟨route.hostname, route.accountId, route.projectId, route.machineId, route, none⟩,
      by simp [Store.route, hnone], rfl, by simp [Store.route, hnone]⟩

theorem existingRecord_ok {row : Option RouteRow} {record : Option Route}
    (h : existingRecord row = .ok record) : record = row.map (·.record) := by
  cases row with
  | none => simp only [existingRecord, pure_ok_iff] at h; simp [← h]
  | some row =>
    simp only [existingRecord, bind_ok_iff, pure_ok_iff] at h
    obtain ⟨found, hf, rfl⟩ := h
    rw [(routeRecord_ok hf).1]; rfl

theorem previousRoute_ok {principal : Principal} {authority : Authority} {command : RouteCommand}
    {previous : Option Route}
    (h : previousRoute store principal authority command hostname = .ok previous) :
    previous = (store.route hostname).map (·.record) ∧
    previous.map (·.version) = command.expectedVersion := by
  simp only [previousRoute, bind_ok_iff, refuse_ok_iff, pure_ok_iff, not_not] at h
  obtain ⟨-, -, found, hfound, -, -, -, -, -, hver, rfl⟩ := h
  exact ⟨existingRecord_ok hfound, hver⟩

/-- A command is about the hostname it names, and a publication's destination is allocated. -/
theorem commandDestination_ok {config : Config} {env : Surroundings} {principal : Principal}
    {authority : Authority} {command : RouteCommand} {destination : Option Destination}
    (h : commandDestination config env store principal authority command =
      .ok (hostname, destination)) :
    hostname = commandHostname config command ∧
    ∀ chosen ∈ destination, ∃ machine, store.machine chosen.machineId = some machine ∧
      machine.state.allocation? = some chosen.allocationId := by
  cases command with
  | remove name request =>
    simp only [commandDestination, pure_ok_iff, Prod.mk.injEq] at h
    simp [commandHostname, ← h.1, ← h.2]
  | publish request =>
    simp only [commandDestination, publishDestination, bind_ok_iff, refuse_ok_iff, present_ok_iff,
      pure_ok_iff] at h
    obtain ⟨_, ⟨machine, hmachine, -, -, -, -, allocationId, hssh, -, -, -, -, -, -, rfl⟩, hpair⟩ := h
    simp only [Prod.mk.injEq] at hpair
    obtain ⟨rfl, rfl⟩ := hpair
    obtain ⟨hfound, -⟩ := Option.filter_eq_some_iff.mp hmachine
    refine ⟨rfl, fun chosen hc => ?_⟩
    obtain rfl : _ = chosen := by simpa using hc
    split at hssh
    · exact ⟨machine, hfound, hssh⟩
    · cases hssh

/-- **A mutation is a replay, which writes nothing, or an admission.** -/
theorem mutate_ok {config : Config} {env : Surroundings} {principal : Principal}
    {command : RouteCommand} (h : mutate config env principal command store = .ok (route, after)) :
    after = store ∨ Admitted config store command route after := by
  simp only [mutate, bind_ok_iff, refuse_ok_iff] at h
  obtain ⟨-, -, authority, -, h⟩ := h
  split at h
  · left
    simp only [bind_ok_iff, pure_ok_iff, Prod.mk.injEq] at h
    obtain ⟨_, -, -, rfl⟩ := h
    rfl
  · right
    simp only [admitCommand, bind_ok_iff, refuse_ok_iff, present_ok_iff, pure_ok_iff,
      Prod.mk.injEq] at h
    obtain ⟨⟨hostname, destination⟩, hdest, previous, hprev, chosen, hchosen, -, -, -, -, parsed,
      hparsed, rfl, rfl⟩ := h
    obtain ⟨rfl, -⟩ := routeSchema_ok hparsed
    obtain ⟨hname, hdest⟩ := commandDestination_ok hdest
    obtain ⟨hprev, hver⟩ := previousRoute_ok hprev
    have hv : (store.route hostname).map (·.record.version) = command.expectedVersion := by
      rw [← hver, hprev, Option.map_map]; rfl
    refine ⟨hname, putRoute_machines,
      ⟨⟨command.commandId, principal.accountId, hostname, command, _, env.now⟩,
        congrArg (· ++ _) putRoute_commands, rfl, rfl, rfl⟩, fun hk => putRoute_keyed hk, fun h hne => putRoute_other hne,
      putRoute_row, hv, by simp [nextRoute, hver], rfl, ?_, ?_⟩
    · simp only [nextRoute, hprev]
      cases store.route hostname <;> rfl
    · cases destination with
      | some place =>
        obtain rfl : place = chosen := by simpa [chosenDestination] using hchosen
        exact .inl (hdest place rfl)
      | none =>
        right
        rw [chosenDestination, hprev] at hchosen
        cases hold : store.route hostname with
        | none => simp [hold] at hchosen
        | some old =>
          obtain rfl : _ = chosen := by simpa [hold] using hchosen
          exact ⟨old, hold, rfl, rfl⟩

/-! ## The transactions of a worker -/

/-- The row of a hostname with another record. -/
theorem setRecord_route (record : Route) (h : Hostname) :
    (store.setRecord hostname record).route h =
      if h = hostname then (store.route h).map ({ · with record }) else store.route h := by
  rw [Store.setRecord, updateRoute_route]
  exact fun _ => rfl

/-- Claiming an attempt changes the application of one record, and hands that record on. -/
theorem advanceClaim_ok {claimed : Option Route}
    (h : advanceClaim hostname store = .ok (claimed, after)) :
    (claimed = none ∧ after = store) ∨
    ∃ row application, store.route hostname = some row ∧ row.record.hostname = hostname ∧
      after = store.setRecord hostname { row.record with application } ∧
      ∀ route ∈ claimed, route = { row.record with application } := by
  rw [advanceClaim] at h
  split at h
  · simp only [pure_ok_iff, Prod.mk.injEq] at h
    exact .inl ⟨h.1.symm, h.2.symm⟩
  · next row hrow =>
    simp only [bind_ok_iff] at h
    obtain ⟨current, hcur, h⟩ := h
    obtain ⟨rfl, hname, -⟩ := routeRecord_ok hcur
    rw [route_hostname hrow] at hname
    split at h
    · split at h
      · simp only [pure_ok_iff, Prod.mk.injEq] at h
        obtain ⟨rfl, rfl⟩ := h
        exact .inr ⟨row, _, hrow, hname, rfl, by simp⟩
      · simp only [bind_ok_iff, pure_ok_iff, Prod.mk.injEq] at h
        obtain ⟨parsed, hparsed, rfl, rfl⟩ := h
        obtain ⟨rfl, -⟩ := routeSchema_ok hparsed
        exact .inr ⟨row, _, hrow, hname, rfl, by simp⟩
    · simp only [pure_ok_iff, Prod.mk.injEq] at h
      exact .inl ⟨h.1.symm, h.2.symm⟩

/-- A failed attempt changes at most the application of its record. -/
theorem advanceBlock_ok (h : advanceBlock route store = .ok after) :
    after = store ∨ ∃ row application, store.route route.hostname = some row ∧
      row.record.hostname = route.hostname ∧
      after = store.setRecord route.hostname { row.record with application } := by
  rw [advanceBlock] at h
  split at h
  · exact .inl (pure_ok_iff.mp h).symm
  · next row hrow =>
    simp only [bind_ok_iff] at h
    obtain ⟨current, hcur, h⟩ := h
    obtain ⟨rfl, hname, -⟩ := routeRecord_ok hcur
    split at h
    · exact .inr ⟨row, _, hrow, hname.trans (route_hostname hrow), (pure_ok_iff.mp h).symm⟩
    · exact .inl (pure_ok_iff.mp h).symm

/-- The row a worker's answer leaves: the target moves to the worker's version. -/
def recorded (route : Route) (target : Option Target) (row : RouteRow) : RouteRow :=
  { row with
    target := target.map fun reached =>
      ⟨reached.address, reached.serverName, route.machineId, route.allocationId, route.version⟩
    record :=
      { row.record with
        state := if route.state = .removed then .removed else .active
        application := .applied
        appliedVersion := some route.version } }

/-- An answer is recorded only while its version is the newest one. -/
theorem advanceRecord_ok {target : Option Target}
    (h : advanceRecord route target store = .ok after) :
    after = store ∨ ∃ row, store.route route.hostname = some row ∧
      row.record.version = route.version ∧ row.record.hostname = route.hostname ∧
      after.machines = store.machines ∧ after.commands = store.commands ∧
      (Table.Keyed RouteRow.hostname store.routes →
        Table.Keyed RouteRow.hostname after.routes) ∧
      ∀ h, after.route h =
        if h = route.hostname then some (recorded route target row) else store.route h := by
  rw [advanceRecord] at h
  split at h
  · exact .inl (pure_ok_iff.mp h).symm
  · next row hrow =>
    simp only [bind_ok_iff] at h
    obtain ⟨latest, hcur, h⟩ := h
    obtain ⟨rfl, hname, -⟩ := routeRecord_ok hcur
    split at h
    · exact .inl (pure_ok_iff.mp h).symm
    · next hver =>
      rw [pure_ok_iff] at h
      subst h
      refine .inr ⟨row, hrow, not_not.mp hver, hname.trans (route_hostname hrow), rfl,
        rfl, updateRoute_keyed fun _ => rfl, fun h => ?_⟩
      rw [updateRoute_route]
      · split
        · next he => subst he; rw [hrow]; rfl
        · rfl
      · exact fun _ => rfl

/-- An acknowledgement only ever raises the acknowledged version. -/
theorem recordAcknowledgement_ok {version : Nat}
    (h : recordAcknowledgement hostname version store = .ok after) :
    after = store ∨ ∃ row, store.route hostname = some row ∧ row.record.hostname = hostname ∧
      row.record.gatewayAppliedVersion.getD 0 < version ∧
      after = store.setRecord hostname
        { row.record with gatewayAppliedVersion := some version } := by
  rw [recordAcknowledgement] at h
  split at h
  · exact .inl (pure_ok_iff.mp h).symm
  · next row hrow =>
    simp only [bind_ok_iff] at h
    obtain ⟨latest, hcur, h⟩ := h
    obtain ⟨rfl, hname, -⟩ := routeRecord_ok hcur
    split at h
    · exact .inl (pure_ok_iff.mp h).symm
    · next hver =>
      exact .inr ⟨row, hrow, hname.trans (route_hostname hrow), Nat.lt_of_not_le hver,
        (pure_ok_iff.mp h).symm⟩

/-! ## The snapshot -/

/-- What a row contributes to a snapshot. -/
def Shows (store : Store) (row : RouteRow) (entry : Observed) : Prop :=
  (row.record.state = .removed ∧ entry = .removed row.hostname row.record.version) ∨
  (row.record.state ≠ .removed ∧ ∃ target, row.target = some target ∧
    targetLive store target = true ∧ entry = .live row.hostname target)

theorem observe_ok {entry : Option Observed} (h : observe store row = .ok entry) :
    ∀ seen ∈ entry, Shows store row seen := by
  simp only [observe, bind_ok_iff] at h
  obtain ⟨record, hrec, h⟩ := h
  obtain ⟨rfl, hname, -⟩ := routeRecord_ok hrec
  rw [hname] at h
  intro seen hseen
  split at h
  · next hstate =>
    simp only [pure_ok_iff] at h
    subst h
    exact .inl ⟨hstate, by simpa [eq_comm] using hseen⟩
  · next hstate =>
    split at h
    · simp only [pure_ok_iff] at h; simp [← h] at hseen
    · next target htarget =>
      split at h
      · next hlive =>
        simp only [pure_ok_iff] at h
        subst h
        exact .inr ⟨hstate, target, htarget, hlive, by simpa [eq_comm] using hseen⟩
      · simp only [pure_ok_iff] at h; simp [← h] at hseen

theorem observeAll_ok {rows : List RouteRow} {observed : List Observed}
    (h : observeAll store rows = .ok observed) :
    ∀ entry ∈ observed, ∃ row ∈ rows, Shows store row entry := by
  induction rows generalizing observed with
  | nil => simp only [observeAll, pure_ok_iff] at h; simp [← h]
  | cons row rows ih =>
    simp only [observeAll, bind_ok_iff, pure_ok_iff] at h
    obtain ⟨first, hfirst, rest, hrest, rfl⟩ := h
    intro entry he
    rcases List.mem_append.mp he with he | he
    · exact ⟨row, by simp, observe_ok hfirst entry (by simpa using he)⟩
    · obtain ⟨found, hm, hs⟩ := ih hrest entry he
      exact ⟨found, by simp [hm], hs⟩

/-- Whatever a row shows is in the snapshot, if one is produced. -/
theorem observe_shows {entry : Option Observed} {seen : Observed}
    (h : observe store row = .ok entry) (hs : Shows store row seen) : entry = some seen := by
  simp only [observe, bind_ok_iff] at h
  obtain ⟨record, hrec, h⟩ := h
  obtain ⟨rfl, hname, -⟩ := routeRecord_ok hrec
  rw [hname] at h
  rcases hs with ⟨hstate, rfl⟩ | ⟨hstate, target, htarget, hlive, rfl⟩
  · rw [if_pos hstate, pure_ok_iff] at h
    exact h.symm
  · rw [if_neg hstate, htarget] at h
    simp only [hlive, if_true, pure_ok_iff] at h
    exact h.symm

theorem observeAll_shows {rows : List RouteRow} {observed : List Observed} {seen : Observed}
    (h : observeAll store rows = .ok observed) (hm : row ∈ rows) (hs : Shows store row seen) :
    seen ∈ observed := by
  induction rows generalizing observed with
  | nil => cases hm
  | cons first rows ih =>
    simp only [observeAll, bind_ok_iff, pure_ok_iff] at h
    obtain ⟨entry, hentry, rest, hrest, rfl⟩ := h
    rcases List.mem_cons.mp hm with rfl | hm
    · simp [observe_shows hentry hs]
    · exact List.mem_append_right _ (ih hrest hm)

theorem gatewayState_shows {current : GatewayState} {seen : Observed}
    (h : gatewayState store = .ok current) (here : store.route hostname = some row)
    (hs : Shows store row seen) : seen ∈ current.observed := by
  simp only [gatewayState, bind_ok_iff, refuse_ok_iff, pure_ok_iff] at h
  obtain ⟨observed, hobs, -, -, rfl⟩ := h
  exact observeAll_shows hobs ((List.perm_insertionSort _ _).mem_iff.mpr (Table.get_mem here)) hs

/-- **Every entry of a snapshot is what its hostname's row shows.** -/
theorem gatewayState_ok {current : GatewayState}
    (hk : Table.Keyed RouteRow.hostname store.routes) (h : gatewayState store = .ok current) :
    ∀ entry ∈ current.observed, ∃ row, store.route entry.hostname = some row ∧
      Shows store row entry := by
  simp only [gatewayState, bind_ok_iff, refuse_ok_iff, pure_ok_iff] at h
  obtain ⟨observed, hobs, -, -, rfl⟩ := h
  intro entry he
  obtain ⟨row, hm, hs⟩ := observeAll_ok hobs entry he
  have hget := hk.get ((List.perm_insertionSort _ _).mem_iff.mp hm)
  have hname : entry.hostname = row.hostname := by
    rcases hs with ⟨-, rfl⟩ | ⟨-, _, -, -, rfl⟩ <;> rfl
  exact ⟨row, hname ▸ hget, hs⟩

end AgentCloud.Hosting
