/-
  REMOVED TARGETS: does a hostname that was taken down ever serve an old version again?

  Two facts pull apart here.  The target of a row only ever moves to the newest version, so the
  served version never DECREASES (`Serves` at two states of a run, first theorem below).  But a
  removal does not touch the target: it hides it, until the guest has applied the removal.  A
  publication admitted in between makes the row visible again with the OLD target in it.

  So the law "what was removed stays removed" holds exactly along the runs in which a publication
  over a removed hostname finds the removal applied, or no live target to show (`RemovalApplied`),
  and `republished` is the shortest run outside them.
-/
import AgentCloud.Hosting.Invariant

namespace AgentCloud.Hosting

open Checked

section

variable {config : Config} {e : Event} {s t : State} {hostname : Hostname} {version : Nat}

/-- The hostnames and versions of the snapshot produced now. -/
def served (s : State) : List (Hostname × Nat) :=
  match gatewayState s.store with
  | .ok current => current.snapshot.routes.map fun route => (route.hostname, route.version)
  | .error _ => []

/-- The snapshot produced now serves the hostname at the version. -/
def Serves (s : State) (hostname : Hostname) (version : Nat) : Prop :=
  (hostname, version) ∈ served s

/-- The newest admitted command of the hostname is a removal, of this version. -/
def Removed (s : State) (hostname : Hostname) (version : Nat) : Prop :=
  ∃ row, s.store.route hostname = some row ∧ row.record.state = .removed ∧
    row.record.version = version

/-- A publication over a removed hostname finds the removal applied, or no live target. -/
def RemovalApplied (config : Config) (s : State) (e : Event) : Prop :=
  ∀ request ∈ e.publication?,
  ∀ row ∈ s.store.route (publishHostname config request.machineId request.destination),
    row.record.state = .removed → some row.record.version = request.expectedVersion →
    ∀ target ∈ row.target, targetLive s.store target = true → row.record.version ≤ target.version

instance (config : Config) (s : State) (e : Event) : Decidable (RemovalApplied config s e) := by
  unfold RemovalApplied; infer_instance

/-- The two readings of "a removed target never comes back", for the runs whose steps meet a
    condition: after a removal only its own and later versions are served, and the served version
    never decreases. -/
def NeverReturns (config : Config) (meets : State → Event → Prop) : Prop :=
  ∀ machines s t, (hosting config).Reach meets (.initial machines) s →
    (hosting config).Reach meets s t → ∀ hostname,
      (∀ removal version, Removed s hostname removal → Serves t hostname version →
        removal ≤ version) ∧
      (∀ before version, Serves s hostname before → Serves t hostname version → before ≤ version)

/-! ## What the snapshot shows -/

/-- A served version is the one of the row's live target. -/
theorem Serves.target (hs : Sound s) (h : Serves s hostname version) :
    ∃ row target, s.store.route hostname = some row ∧ row.record.state ≠ .removed ∧
      row.target = some target ∧ targetLive s.store target = true ∧ target.version = version := by
  rw [Serves, served] at h
  split at h
  case h_2 => simp at h
  next current read =>
  obtain ⟨route, hm, heq⟩ := List.mem_map.mp h
  obtain ⟨rfl, rfl⟩ := Prod.mk.inj heq
  obtain ⟨entry, he, hroute⟩ := List.mem_filterMap.mp hm
  obtain ⟨row, hrow, ⟨-, rfl⟩ | ⟨hst, target, ht, live, rfl⟩⟩ := gatewayState_ok hs.keyed read entry he
  · simp [Observed.snapshotRoute?] at hroute
  · simp only [Observed.snapshotRoute?, Option.some.injEq] at hroute
    subst hroute
    exact ⟨row, target, hrow, hst, ht, live, rfl⟩

/-! ## The served version never decreases -/

/-- Neither the desired version nor the target is behind `version`. -/
def Passed (hostname : Hostname) (version : Nat) (s : State) : Prop :=
  ∃ row, s.store.route hostname = some row ∧ version ≤ row.record.version ∧
    ∀ target, row.target = some target → version ≤ target.version

theorem Passed.change (hp : Passed hostname version s) (h : Change config e s t) :
    Passed hostname version t := by
  obtain ⟨row, hrow, hver, htarget⟩ := hp
  cases h with
  | quiet | commanded | handed | acknowledging | machine => exact ⟨row, hrow, hver, htarget⟩
  | admitted env principal command route store event adm =>
    by_cases hh : hostname = route.hostname
    · subst hh
      obtain ⟨after, hafter, hrecord, htarget'⟩ := adm.row
      refine ⟨after, hafter, ?_, fun target ht => ?_⟩
      · have h₁ := adm.version
        rw [← adm.expected, hrow] at h₁
        rw [hrecord, h₁]
        exact Nat.le_succ_of_le hver
      · rw [htarget', hrow] at ht
        exact htarget target ht
    · exact ⟨row, (adm.other _ hh).trans hrow, hver, htarget⟩
  | attempted name found application workers here =>
    refine ⟨_, setRecord_some hrow, ?_, ?_⟩
    · split
      · next he => subst he; rw [hrow] at here; cases here; exact hver
      · exact hver
    · split <;> exact htarget
  | passed name v found acknowledging pending here =>
    refine ⟨_, setRecord_some hrow, ?_, ?_⟩
    · split
      · next he => subst he; rw [hrow] at here; cases here; exact hver
      · exact hver
    · split <;> exact htarget
  | recorded worker target found store workers mem phase here newest name machines commands keyed
      routes =>
    by_cases hh : hostname = worker.route.hostname
    · subst hh
      rw [hrow] at here
      cases here
      refine ⟨_, (routes _).trans (if_pos rfl), hver, fun reached ht => ?_⟩
      obtain ⟨_, -, rfl⟩ := Option.map_eq_some_iff.mp ht
      exact newest ▸ hver
    · exact ⟨row, (routes _).trans (by rw [if_neg hh, hrow]), hver, htarget⟩

/-! ## After a removal -/

/-- The hostname is past the removal: still removed, or without a live target older than it. -/
def Gone (hostname : Hostname) (removal : Nat) (s : State) : Prop :=
  ∃ row, s.store.route hostname = some row ∧ removal ≤ row.record.version ∧
    (row.record.state = .removed ∨
      ∀ target, row.target = some target → targetLive s.store target = true →
        removal ≤ target.version)

theorem Gone.change {removal : Nat} (hs : Sound s) (hg : Gone hostname removal s)
    (meets : RemovalApplied config s e) (h : Change config e s t) : Gone hostname removal t := by
  obtain ⟨row, hrow, hver, hgone⟩ := hg
  cases h with
  | quiet | commanded | handed | acknowledging => exact ⟨row, hrow, hver, hgone⟩
  | admitted env principal command route store event adm =>
    have hlive : ∀ target, targetLive store target = targetLive s.store target := fun target => by
      simp only [targetLive, Store.machine, adm.machines]
    by_cases hh : hostname = route.hostname
    · subst hh
      obtain ⟨after, hafter, hrecord, htarget⟩ := adm.row
      have hexpected := adm.expected
      have hversion := adm.version
      rw [hrow] at htarget hexpected
      rw [← hexpected] at hversion
      refine ⟨after, hafter, by rw [hrecord, hversion]; exact Nat.le_succ_of_le hver, ?_⟩
      cases command with
      | remove name request => exact .inl (by rw [hrecord, adm.state]; rfl)
      | publish request =>
        refine .inr fun target ht live => ?_
        rw [htarget] at ht
        rw [hlive] at live
        rcases hgone with hremoved | hgone
        · -- published over the removal: the condition is about exactly this row
          subst event
          have hname : route.hostname =
            publishHostname config request.machineId request.destination := adm.name
          exact Nat.le_trans hver
            (meets request rfl row (by rw [← hname]; exact hrow) hremoved hexpected target ht live)
        · exact hgone target ht live
    · refine ⟨row, (adm.other _ hh).trans hrow, hver, hgone.imp_right fun hg target ht live => ?_⟩
      rw [hlive] at live
      exact hg target ht live
  | attempted name found application workers here =>
    refine ⟨_, setRecord_some hrow, ?_, ?_⟩
    · split
      · next he => subst he; rw [hrow] at here; cases here; exact hver
      · exact hver
    · split
      · next he => subst he; rw [hrow] at here; cases here; exact hgone
      · exact hgone
  | passed name v found acknowledging pending here =>
    refine ⟨_, setRecord_some hrow, ?_, ?_⟩
    · split
      · next he => subst he; rw [hrow] at here; cases here; exact hver
      · exact hver
    · split
      · next he => subst he; rw [hrow] at here; cases here; exact hgone
      · exact hgone
  | recorded worker target found store workers mem phase here newest name machines commands keyed
      routes =>
    by_cases hh : hostname = worker.route.hostname
    · subst hh
      rw [hrow] at here
      cases here
      refine ⟨_, (routes _).trans (if_pos rfl), hver, .inr fun reached ht _ => ?_⟩
      obtain ⟨_, -, rfl⟩ := Option.map_eq_some_iff.mp ht
      exact newest ▸ hver
    · refine ⟨row, (routes _).trans (by rw [if_neg hh, hrow]), hver,
        hgone.imp_right fun hg reached ht live => hg reached ht ?_⟩
      simpa only [targetLive, Store.machine, machines] using live
  | machine id state found here forward =>
    exact ⟨row, hrow, hver, hgone.imp_right fun hg target ht live =>
      hg target ht (targetLive_of_forward (hs.targeted hrow ht).2 here forward live)⟩

/-! ## Runs -/

/-- **A removed target never comes back** along the runs in which no publication overtakes an
    unapplied removal. -/
theorem removal_applied_never_returns (config : Config) :
    NeverReturns config (RemovalApplied config) := by
  intro machines s t hs ht hostname
  have hsound : Sound s := reachable_sound hs.reachable
  have hsound' : Sound t := reachable_sound (Protocol.Reach.reachable (hs.trans ht))
  refine ⟨fun removal version hr hv => ?_, fun before version hb hv => ?_⟩
  · obtain ⟨row, hrow, hstate, rfl⟩ := hr
    have hgone : Gone hostname row.record.version s := ⟨row, hrow, Nat.le_refl _, .inl hstate⟩
    obtain ⟨-, after, hafter, -, hcase⟩ :=
      ht.invariant (I := fun u => Sound u ∧ Gone hostname row.record.version u)
        (fun hu hm he => ⟨hu.1.change (step_change he), hu.2.change hu.1 hm (step_change he)⟩)
        ⟨hsound, hgone⟩
    obtain ⟨found, target, hfound, hactive, htarget, hlive, rfl⟩ := hv.target hsound'
    rw [hafter] at hfound
    cases hfound
    rcases hcase with hremoved | hlater
    · exact absurd hremoved hactive
    · exact hlater target htarget hlive
  · obtain ⟨row, target, hrow, -, htarget, -, rfl⟩ := hb.target hsound
    have hpassed : Passed hostname target.version s :=
      ⟨row, hrow, (hsound.targeted hrow htarget).1, fun other ho => by
        rw [htarget] at ho; cases ho; exact Nat.le_refl _⟩
    obtain ⟨after, hafter, -, hlater⟩ :=
      ht.invariant (I := Passed hostname target.version)
        (fun hp _ he => hp.change (step_change he)) hpassed
    obtain ⟨found, now, hfound, -, hnow, -, rfl⟩ := hv.target hsound'
    rw [hafter] at hfound
    cases hfound
    exact hlater now hnow

/-- The condition leaves out nothing else: an admitted publication that does not meet it serves a
    version older than the removal in the very next snapshot. -/
theorem overtaken_removal_returns {env : Surroundings} {principal : Principal}
    {request : RoutePublish} {route : Route} {store : Store} {current : GatewayState}
    (admitted : Admitted config s.store (.publish request) route store)
    (fails : ¬ RemovalApplied config s (.mutate env principal (.publish request)))
    (read : gatewayState store = .ok current) :
    ∃ removal version, Removed s route.hostname removal ∧ version < removal ∧
      Serves { s with store } route.hostname version := by
  simp only [RemovalApplied, not_forall, Nat.not_le] at fails
  obtain ⟨found, hrequest, row, hrow, hremoved, -, target, htarget, hlive, hlt⟩ := fails
  obtain rfl : request = found := by simpa [Event.publication?] using hrequest
  have hname : route.hostname = publishHostname config request.machineId request.destination :=
    admitted.name
  rw [← hname] at hrow
  obtain ⟨after, hafter, hrecord, htarget'⟩ := admitted.row
  rw [show s.store.route route.hostname = some row from hrow] at htarget'
  refine ⟨row.record.version, target.version, ⟨row, hrow, hremoved, rfl⟩, hlt, ?_⟩
  have hshow : Shows store after (.live after.hostname target) := by
    refine .inr ⟨by rw [hrecord, admitted.state]; simp [RouteCommand.isRemove], target,
      htarget'.trans htarget, ?_, rfl⟩
    simpa only [targetLive, Store.machine, admitted.machines] using hlive
  have hmem := gatewayState_shows read hafter hshow
  rw [route_hostname hafter] at hmem
  simp only [Serves, served, read, List.mem_map]
  exact ⟨_, List.mem_filterMap.mpr ⟨_, hmem, rfl⟩, rfl⟩

end

/-! ## The run outside the condition -/

namespace Demo

def config : Config := ⟨"apps.example.test", []⟩

def principal : Principal :=
  ⟨"acc_1", "grant_1", ⟨[.routePublish], .all, [.small], [.fsn1], 1, "EUR", 100⟩⟩

def surroundings : Surroundings := ⟨.ok ⟨principal, 10, 100, 1⟩, fun _ => .ok (), [], 10⟩

/-- An allocated machine with a verified guest. -/
def machine : MachineRow :=
  ⟨"vm_1", "acc_1", "prj_1", .allocated "alloc_1" "7" .running (.ssh 1 "v" "m" "b") .disabled⟩

def hostname : Hostname := "web-1.apps.example.test"

def publish (command : String) (expected : Option Nat) : Event :=
  .mutate surroundings principal (.publish ⟨command, "vm_1", .generated "web", 3000, expected⟩)

def remove (command : String) (expected : Nat) : Event :=
  .mutate surroundings principal (.remove hostname ⟨command, expected⟩)

/-- One undisturbed run of `advance`. -/
def advance : List Event :=
  [.claim hostname, .applyGuest 0 (.ok "192.0.2.1"), .guest 0 .none, .finish 0]

/-- Published and applied, then removed; the removal is not applied yet. -/
def takenDown : List Event := publish "first" none :: advance ++ [remove "second" 1]

end Demo

/-- Version 1 is served, removal 2 is admitted, and after publication 3 version 1 is served again:
    without the condition the law is false. -/
theorem republished_serves_removed : ¬ NeverReturns Demo.config fun _ _ => True := by
  intro h
  have hdown : ((hosting Demo.config).run (.initial [Demo.machine]) Demo.takenDown).map
      (fun s => (s.store.route Demo.hostname).map fun row =>
        (row.record.state, row.record.version)) = some (some (.removed, 2)) := by decide +kernel
  have hup : ((hosting Demo.config).run (.initial [Demo.machine])
      (Demo.takenDown ++ [Demo.publish "third" (some 2)])).map served =
        some [(Demo.hostname, 1)] := by decide +kernel
  obtain ⟨s, hs, hremoved⟩ := Option.map_eq_some_iff.mp hdown
  obtain ⟨t, ht, hserved⟩ := Option.map_eq_some_iff.mp hup
  obtain ⟨row, hrow, hpair⟩ := Option.map_eq_some_iff.mp hremoved
  obtain ⟨hstate, hversion⟩ := Prod.mk.inj hpair
  rw [Protocol.run_append, hs] at ht
  have hback : (2 : Nat) ≤ 1 :=
    (h [Demo.machine] s t (Protocol.reachable_of_run hs) (Protocol.reachable_of_run ht)
      Demo.hostname).1 2 1 ⟨row, hrow, hstate, hversion⟩ (by rw [Serves, hserved]; simp)
  omega

/-- Once the removal is applied, publication 3 meets the condition: nothing older than the removal
    is served. -/
theorem removal_applied_never_returns_demo :
    ∃ s t, Removed s Demo.hostname 2 ∧ (hosting Demo.config).Reach (RemovalApplied Demo.config) s t ∧
      Serves t Demo.hostname 2 ∧ ∀ version, Serves t Demo.hostname version → 2 ≤ version := by
  have hdown : ((hosting Demo.config).follow (RemovalApplied Demo.config)
      (.initial [Demo.machine]) Demo.takenDown).map (fun s =>
        ((s.store.route Demo.hostname).map fun row => (row.record.state, row.record.version),
          ((hosting Demo.config).follow (RemovalApplied Demo.config) s
            (Demo.advance ++ [Demo.publish "third" (some 2)])).map served)) =
      some (some (.removed, 2), some [(Demo.hostname, 2)]) := by decide +kernel
  obtain ⟨s, hs, hpair⟩ := Option.map_eq_some_iff.mp hdown
  obtain ⟨hremoved, hup⟩ := Prod.mk.inj hpair
  obtain ⟨t, ht, hserved⟩ := Option.map_eq_some_iff.mp hup
  obtain ⟨row, hrow, hrow'⟩ := Option.map_eq_some_iff.mp hremoved
  obtain ⟨hstate, hversion⟩ := Prod.mk.inj hrow'
  have hr : Removed s Demo.hostname 2 := ⟨row, hrow, hstate, hversion⟩
  have hst := Protocol.reach_of_follow ht
  exact ⟨s, t, hr, hst, by rw [Serves, hserved]; simp,
    fun version hv => (removal_applied_never_returns Demo.config [Demo.machine] s t
      (Protocol.reach_of_follow hs) hst Demo.hostname).1 2 version hr hv⟩

end AgentCloud.Hosting
