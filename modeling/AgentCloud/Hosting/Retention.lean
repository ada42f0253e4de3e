/-
  BINDING RETENTION: while a snapshot may be live, does the guest still answer for it?

  A guest gives up a binding for two reasons only (`Guest.command_holds`): a command retains from a
  later version, or the very version is removed.  The retention of a command is at most the recorded
  acknowledgement, so a version is safe while it is
    * `Published`: its receipt is a publication, so no removal of it is on its way;
    * `Unpassed`: the recorded acknowledgement has not passed it;
    * `NothingPending`: no acknowledgement still being recorded passes it.
  Together with the binding itself this is `Protected`, which every step keeps except the reading of
  an acknowledgement (`Protected.change`); and an acknowledgement can only be read for a snapshot
  that was handed out, whose versions the newest snapshot has not fallen behind (`History`).

  What breaks it is once more a publication over a removed hostname.  It makes the old target
  visible, and nothing protects that target any more: if the removal was applied the target is the
  removal's own version, for which no guest ever had a binding, and if the removal was acknowledged
  the next guest command prunes the target.  `RemovalOutstanding` says that neither happened; along
  such runs the law holds.
-/
import AgentCloud.Hosting.Removal

namespace AgentCloud.Hosting

open Checked

section

variable {config : Config} {e : Event} {s t : State} {hostname : Hostname} {version : Nat}

/-! ## The law and its condition -/

/-- Every guest a snapshot routes to has the binding it is asked for. -/
def Bound (s : State) (current : GatewayState) : Prop :=
  ∀ entry ∈ current.observed, ∀ target ∈ entry.target?,
    (s.guests target.machineId).Holds entry.hostname target.version

/-- The newest snapshot handed out and the newest acknowledged one are bound. -/
def BindingsRetained (s : State) : Prop :=
  (∀ current ∈ s.handed.head?, Bound s current) ∧ ∀ current ∈ s.acknowledged, Bound s current

instance (s : State) : Decidable (BindingsRetained s) := by
  unfold BindingsRetained Bound; infer_instance

/-- Binding retention along the runs whose steps meet a condition. -/
def RetainsBindings (config : Config) (meets : State → Event → Prop) : Prop :=
  ∀ machines s, (hosting config).Reach meets (.initial machines) s → BindingsRetained s

/-- The version was admitted as a publication. -/
def Published (s : State) (hostname : Hostname) (version : Nat) : Prop :=
  ∃ receipt ∈ s.store.commands, receipt.hostname = hostname ∧ receipt.version = version ∧
    receipt.digest.isRemove = false

/-- No recorded acknowledgement is past the version. -/
def Unpassed (s : State) (hostname : Hostname) (version : Nat) : Prop :=
  ∀ row ∈ s.store.route hostname, row.record.gatewayAppliedVersion.getD 0 ≤ version

/-- No acknowledgement still being recorded is past the version. -/
def NothingPending (s : State) (hostname : Hostname) (version : Nat) : Prop :=
  ∀ batch ∈ s.acknowledging, ∀ entry ∈ batch, entry.1 = hostname → entry.2 ≤ version

/-- A publication over a removed hostname finds no live target, or finds the removal neither applied
    (the target is still a publication's) nor acknowledged. -/
def RemovalOutstanding (config : Config) (s : State) (e : Event) : Prop :=
  ∀ request ∈ e.publication?,
  ∀ row ∈ s.store.route (publishHostname config request.machineId request.destination),
    row.record.state = .removed → some row.record.version = request.expectedVersion →
    ∀ target ∈ row.target, targetLive s.store target = true →
      Published s row.hostname target.version ∧ Unpassed s row.hostname target.version ∧
        NothingPending s row.hostname target.version

instance : Decidable (Published s hostname version) := by unfold Published; infer_instance

instance : Decidable (Unpassed s hostname version) := by unfold Unpassed; infer_instance

instance : Decidable (NothingPending s hostname version) := by
  unfold NothingPending; infer_instance

instance (config : Config) (s : State) (e : Event) : Decidable (RemovalOutstanding config s e) := by
  unfold RemovalOutstanding; infer_instance

/-! ## Receipts -/

/-- The receipts tell publications and removals apart, for rows and for workers. -/
structure Receipted (s : State) : Prop where
  row : ∀ receipt ∈ s.store.commands, ∃ row, s.store.route receipt.hostname = some row ∧
    0 < receipt.version ∧ receipt.version ≤ row.record.version ∧
    (receipt.version = row.record.version →
      (row.record.state = .removed ↔ receipt.digest.isRemove = true))
  worker : ∀ w ∈ s.workers, ∀ receipt ∈ s.store.commands, receipt.hostname = w.route.hostname →
    receipt.version = w.route.version →
    (w.route.state = .removed ↔ receipt.digest.isRemove = true)
  active : ∀ {h row}, s.store.route h = some row → row.record.state ≠ .removed →
    Published s h row.record.version

theorem initial_receipted (machines : List MachineRow) : Receipted (.initial machines) where
  row := by simp [State.initial]
  worker := by simp [State.initial]
  active h := by simp [State.initial, Store.route] at h

/-- A record rewritten without touching its version or state. -/
theorem Receipted.setRecord (hr : Receipted s) {row : RouteRow} (record : Route)
    (here : s.store.route hostname = some row) (version : record.version = row.record.version)
    (state : record.state = row.record.state) :
    Receipted { s with store := s.store.setRecord hostname record } where
  row receipt hm := by
    obtain ⟨found, hf, hpos, hle, hsame⟩ := hr.row receipt hm
    refine ⟨_, setRecord_some hf, hpos, ?_⟩
    split
    · next he =>
      rw [he, here] at hf
      cases hf
      simpa only [version, state] using ⟨hle, hsame⟩
    · exact ⟨hle, hsame⟩
  worker := hr.worker
  active h hst := by
    rcases setRecord_cases here h with ⟨rfl, rfl⟩ | ⟨-, h⟩
    · simp only [state] at hst
      simp only [version]
      exact hr.active here hst
    · exact hr.active h hst

theorem Receipted.change (hs : Sound s) (hr : Receipted s) (h : Change config e s t) :
    Receipted t := by
  cases h with
  | quiet workers acknowledging carried fewer =>
    refine ⟨hr.row, fun w hw => ?_, hr.active⟩
    obtain ⟨old, hm, hroute, -⟩ := carried w hw
    rw [hroute]
    exact hr.worker old hm
  | admitted env principal command route store event adm =>
    obtain ⟨receipt, hcommands, hname, hdigest, hversion⟩ := adm.receipt
    obtain ⟨row, hrow, hrecord, -⟩ := adm.row
    have hold : ∀ old, s.store.route route.hostname = some old →
        route.version = old.record.version + 1 := fun old h => by
      have h₁ := adm.version
      rw [← adm.expected, h] at h₁
      exact h₁
    have hmem : ∀ found, found ∈ store.commands ↔ found ∈ s.store.commands ∨ found = receipt :=
      fun found => by rw [hcommands]; simp
    refine ⟨fun found hm => ?_, fun w hw found hm hh hv => ?_, fun {h r} hf hst => ?_⟩
    · rcases (hmem found).mp hm with hm | rfl
      · obtain ⟨old, hold', hpos, hle, hsame⟩ := hr.row found hm
        by_cases hh : found.hostname = route.hostname
        · rw [hh] at hold'
          have hnext := hold old hold'
          refine ⟨row, hh ▸ hrow, hpos, ?_, fun he => ?_⟩
          · rw [hrecord, hnext]; exact Nat.le_succ_of_le hle
          · rw [hrecord, hnext] at he; omega
        · exact ⟨old, (adm.other _ hh).trans hold', hpos, hle, hsame⟩
      · refine ⟨row, hname ▸ hrow, ?_, ?_, fun _ => ?_⟩
        · rw [hversion, adm.version]; exact Nat.succ_pos _
        · rw [hversion, hrecord]
        · rw [hrecord, adm.state, hdigest]
          cases command.isRemove <;> simp
    · rcases (hmem found).mp hm with hm | rfl
      · exact hr.worker w hw found hm hh hv
      · -- no worker is on a version that was only just admitted
        obtain ⟨old, hold', hof⟩ := hs.worker hw
        rw [← hh, hname] at hold'
        have := hof.version
        rw [← hv, hversion, hold old hold'] at this
        omega
    · by_cases hh : h = route.hostname
      · subst hh
        rw [hrow] at hf
        cases hf
        refine ⟨receipt, (hmem receipt).mpr (.inr rfl), hname, by rw [hversion, hrecord], ?_⟩
        rw [hrecord, adm.state] at hst
        rw [hdigest]
        simpa using hst
      · rw [adm.other h hh] at hf
        obtain ⟨found, hm, hfound⟩ := hr.active hf hst
        exact ⟨found, (hmem found).mpr (.inl hm), hfound⟩
  | attempted name row application workers here hname carried =>
    have h := hr.setRecord { row.record with application } here rfl rfl
    refine ⟨h.row, fun w hw receipt hm hh hv => ?_, h.active⟩
    rcases carried w hw with ⟨old, hmem, hroute, -⟩ | ⟨hroute, -⟩
    · rw [hroute] at hh hv ⊢
      exact hr.worker old hmem receipt hm hh hv
    · obtain ⟨found, hf, -, -, hsame⟩ := hr.row receipt hm
      rw [hh, hroute] at hf
      simp only [hname, here, Option.some.injEq] at hf
      subst hf
      rw [hroute] at hv ⊢
      exact hsame hv
  | commanded worker cut workers mem carried =>
    refine ⟨hr.row, fun w hw => ?_, hr.active⟩
    rcases carried w hw with ⟨old, hm, hroute, -⟩ | ⟨hroute, -⟩
    · rw [hroute]; exact hr.worker old hm
    · rw [hroute]; exact hr.worker worker mem
  | recorded worker target row store workers mem phase here newest name machines commands keyed
      routes carried =>
    obtain ⟨found, hf, hof⟩ := hs.worker mem
    rw [here] at hf
    cases hf
    obtain ⟨hstate, -, -⟩ := hof.newest newest.symm
    have hafter : (Hosting.recorded worker.route target row).record.state = .removed ↔
        row.record.state = .removed := by
      rw [← hstate]
      simp only [Hosting.recorded]
      split <;> simp_all
    refine ⟨fun receipt hm => ?_, fun w hw receipt hm => ?_, fun {h r} hr' hst => ?_⟩
    · rw [commands] at hm
      obtain ⟨old, hold, hpos, hle, hsame⟩ := hr.row receipt hm
      by_cases hh : receipt.hostname = worker.route.hostname
      · rw [hh, here] at hold
        cases hold
        exact ⟨_, (routes _).trans (if_pos hh), hpos, hle, fun he => hafter.trans (hsame he)⟩
      · exact ⟨old, (routes _).trans (by rw [if_neg hh, hold]), hpos, hle, hsame⟩
    · rw [commands] at hm
      obtain ⟨old, hmem, hroute, -⟩ := carried w hw
      rw [hroute]
      exact hr.worker old hmem receipt hm
    · have hpub : ∀ h v, Published s h v → Published { s with store, workers } h v := by
        intro h v hp
        obtain ⟨found, hm, hfound⟩ := hp
        exact ⟨found, by rw [commands]; exact hm, hfound⟩
      rw [routes] at hr'
      split at hr'
      · next he =>
        subst he
        cases hr'
        have hactive := hr.active here fun hrem => hst (hafter.mpr hrem)
        exact hpub _ _ hactive
      · exact hpub _ _ (hr.active hr' hst)
  | handed current read => exact ⟨hr.row, hr.worker, hr.active⟩
  | acknowledging current earlier read mem same => exact ⟨hr.row, hr.worker, hr.active⟩
  | passed name v row acknowledging pending here =>
    have h := hr.setRecord { row.record with gatewayAppliedVersion := some v }
      here rfl rfl
    exact ⟨h.row, h.worker, h.active⟩
  | machine id state row here forward => exact ⟨hr.row, hr.worker, hr.active⟩

/-! ## What one step can do to a protected version -/

theorem Published.change (hp : Published s hostname version) (h : Change config e s t) :
    Published t hostname version := by
  obtain ⟨receipt, hm, hreceipt⟩ := hp
  refine ⟨receipt, ?_, hreceipt⟩
  cases h with
  | quiet | attempted | commanded | handed | acknowledging | passed | machine => exact hm
  | admitted env principal command route store event adm =>
    obtain ⟨_, hcommands, -⟩ := adm.receipt
    simp [hcommands, hm]
  | recorded worker target row store workers mem phase here newest name machines commands =>
    simpa [commands] using hm

/-- A version that was published before some row's newest version was published before the step. -/
theorem Published.before (h : Change config e s t)
    (hp : Published t hostname version) {row : RouteRow}
    (here : s.store.route hostname = some row) (old : version ≤ row.record.version) :
    Published s hostname version := by
  obtain ⟨receipt, hm, hh, hv, hput⟩ := hp
  refine ⟨receipt, ?_, hh, hv, hput⟩
  cases h with
  | quiet | attempted | commanded | handed | acknowledging | passed | machine => exact hm
  | admitted env principal command route store event adm =>
    obtain ⟨added, hcommands, hname, -, hversion⟩ := adm.receipt
    simp only [hcommands, List.mem_append, List.mem_singleton] at hm
    rcases hm with hm | rfl
    · exact hm
    · -- the new receipt is for a later version
      have h₁ := adm.version
      rw [← adm.expected, ← hname, hh, here] at h₁
      simp only [Option.map_some, Option.getD_some] at h₁
      omega
  | recorded worker target found store workers mem phase here' newest name machines commands =>
    simpa [commands] using hm

/-- The recorded acknowledgement never falls, so what is unpassed now was unpassed before. -/
theorem Unpassed.before (h : Change config e s t) (hu : Unpassed t hostname version) :
    Unpassed s hostname version := by
  intro row hrow
  cases h with
  | quiet | commanded | handed | acknowledging | machine => exact hu row hrow
  | admitted env principal command route store event adm =>
    by_cases hh : hostname = route.hostname
    · subst hh
      obtain ⟨after, hafter, hrecord, -⟩ := adm.row
      have h₁ := hu after hafter
      rw [hrecord, adm.gateway, show s.store.route route.hostname = some row from hrow] at h₁
      exact h₁
    · exact hu row ((adm.other _ hh).trans hrow)
  | attempted name found application workers here =>
    have h₁ := hu _ (setRecord_some hrow)
    split at h₁
    · next he =>
      rw [← he, show s.store.route hostname = some row from hrow] at here
      cases here
      exact h₁
    · exact h₁
  | passed name v found acknowledging pending here hname raised =>
    have h₁ := hu _ (setRecord_some hrow)
    split at h₁
    · next he =>
      rw [← he, show s.store.route hostname = some row from hrow] at here
      cases here
      exact Nat.le_of_lt (Nat.lt_of_lt_of_le raised h₁)
    · exact h₁
  | recorded worker target found store workers mem phase here newest name machines commands keyed
      routes =>
    by_cases hh : hostname = worker.route.hostname
    · subst hh
      rw [show s.store.route _ = some row from hrow] at here
      cases here
      have h₁ := hu (Hosting.recorded worker.route target row) ((routes _).trans (if_pos rfl))
      exact h₁
    · exact hu row ((routes _).trans (by rw [if_neg hh]; exact hrow))

/-- Recording an acknowledgement cannot pass a version that no pending one is past. -/
theorem Unpassed.change (hu : Unpassed s hostname version)
    (hn : NothingPending s hostname version) (h : Change config e s t) :
    Unpassed t hostname version := by
  intro after hafter
  cases h with
  | quiet | commanded | handed | acknowledging | machine => exact hu after hafter
  | admitted env principal command route store event adm =>
    by_cases hh : hostname = route.hostname
    · subst hh
      obtain ⟨row, hrow, hrecord, -⟩ := adm.row
      rw [show store.route route.hostname = some after from hafter] at hrow
      cases hrow
      rw [hrecord, adm.gateway]
      cases hold : s.store.route route.hostname with
      | none => exact Nat.zero_le _
      | some old => exact hu old hold
    · exact hu after (by rw [← adm.other _ hh]; exact hafter)
  | attempted name found application workers here =>
    rcases setRecord_cases here hafter with ⟨rfl, rfl⟩ | ⟨-, hafter⟩
    · exact hu found here
    · exact hu after hafter
  | passed name v found acknowledging pending here =>
    rcases setRecord_cases here hafter with ⟨rfl, rfl⟩ | ⟨-, hafter⟩
    · obtain ⟨batch, hb, hv⟩ := pending
      exact hn batch hb _ hv rfl
    · exact hu after hafter
  | recorded worker target found store workers mem phase here newest name machines commands keyed
      routes =>
    rw [Option.mem_def, routes] at hafter
    split at hafter
    · next he =>
      subst he
      cases hafter
      exact hu found here
    · exact hu after hafter

/-- Acknowledgements are only added by reading one. -/
theorem NothingPending.change (hn : NothingPending s hostname version) (h : Change config e s t)
    (read : ∀ current, gatewayState s.store = .ok current →
      (∃ earlier ∈ s.handed, current.revision = earlier.revision) →
      ∀ entry ∈ current.observed, entry.hostname = hostname → entry.version ≤ version) :
    NothingPending t hostname version := by
  have key : ∀ acknowledging, (∀ h v, State.PendingIn acknowledging h v → s.Pending h v) →
      ∀ batch ∈ acknowledging, ∀ entry ∈ batch, entry.1 = hostname → entry.2 ≤ version := by
    intro acknowledging fewer batch hb entry he hh
    obtain ⟨batch', hb', he'⟩ := fewer entry.1 entry.2 ⟨batch, hb, he⟩
    exact hn batch' hb' _ he' hh
  cases h with
  | admitted | attempted | commanded | recorded | handed | machine => exact hn
  | quiet workers acknowledging carried fewer => exact key acknowledging fewer
  | passed name v row acknowledging pending here hname raised fewer => exact key acknowledging fewer
  | acknowledging current earlier hread mem same =>
    intro batch hb entry he hh
    rcases List.mem_cons.mp hb with rfl | hb
    · obtain ⟨seen, hseen, rfl⟩ := List.mem_map.mp he
      exact read current hread ⟨earlier, mem, same⟩ seen hseen hh
    · exact hn batch hb entry he hh

/-- A binding of a publication that no acknowledgement has passed is not pruned. -/
theorem holds_change {m : MachineId} (hs : Sound s) (hr : Receipted s)
    (hp : Published s hostname version) (hu : Unpassed s hostname version)
    (hold : (s.guests m).Holds hostname version) (h : Change config e s t) :
    (t.guests m).Holds hostname version := by
  cases h with
  | quiet | admitted | attempted | recorded | handed | acknowledging | passed | machine => exact hold
  | commanded worker cut workers mem carried =>
    by_cases hm : m = worker.route.machineId
    · subst hm
      simp only [Function.update_self]
      rcases Guest.command_holds hold cut worker.route.guestRoute
        (worker.route.gatewayAppliedVersion.getD 1) with hkept | ⟨hh, hlost⟩
      · exact hkept
      · exfalso
        rw [Route.guestRoute_hostname] at hh
        obtain ⟨row, hrow, hof⟩ := hs.worker mem
        rw [hh] at hrow
        obtain ⟨receipt, hmem, hrh, hrv, hput⟩ := hp
        rcases hlost with ⟨hlt, -⟩ | ⟨hv, hremove⟩
        · -- the retention is at most the recorded acknowledgement, or one
          have hle := Nat.le_trans hof.retain (hu row hrow)
          obtain ⟨-, -, hpos, -⟩ := hr.row receipt hmem
          cases hg : worker.route.gatewayAppliedVersion with
          | none => rw [hg] at hlt; simp only [Option.getD_none] at hlt; omega
          | some g => rw [hg] at hlt hle; simp only [Option.getD_some] at hlt hle; omega
        · rw [Route.guestRoute_version] at hv
          rw [Route.guestRoute_isPut] at hremove
          have hst : worker.route.state = .removed := by simpa using hremove
          have := (hr.worker worker mem receipt hmem (hrh.trans hh.symm) (hrv.trans hv.symm)).mp hst
          rw [hput] at this
          cases this
    · simpa only [Function.update_of_ne hm] using hold

/-! ## Protected versions -/

/-- The guest of `m` holds the version, and nothing on its way can take it. -/
structure Protected (s : State) (m : MachineId) (hostname : Hostname) (version : Nat) : Prop where
  published : Published s hostname version
  unpassed : Unpassed s hostname version
  nothingPending : NothingPending s hostname version
  holds : (s.guests m).Holds hostname version

theorem Protected.change {m : MachineId} (hs : Sound s) (hr : Receipted s)
    (hp : Protected s m hostname version) (h : Change config e s t)
    (read : ∀ current, gatewayState s.store = .ok current →
      (∃ earlier ∈ s.handed, current.revision = earlier.revision) →
      ∀ entry ∈ current.observed, entry.hostname = hostname → entry.version ≤ version) :
    Protected t m hostname version where
  published := hp.published.change h
  unpassed := hp.unpassed.change hp.nothingPending h
  nothingPending := hp.nothingPending.change h read
  holds := holds_change hs hr hp.published hp.unpassed hp.holds h

/-! ## Confirmed workers and targets -/

/-- What a confirmed worker on the newest version and a live target stand for. -/
structure Kept (s : State) : Prop where
  confirmed : ∀ w ∈ s.workers, w.confirmed = true → w.route.state ≠ .removed →
    ∀ {row}, s.store.route w.route.hostname = some row → w.route.version = row.record.version →
    Unpassed s w.route.hostname w.route.version →
    (s.guests w.route.machineId).Holds w.route.hostname w.route.version
  /-- A target that is a publication's is bound for as long as it is not acknowledged away. -/
  hidden : ∀ {h row target}, s.store.route h = some row → row.target = some target →
    targetLive s.store target = true → Published s h target.version →
    Unpassed s h target.version → (s.guests target.machineId).Holds h target.version
  /-- A target that is shown is protected. -/
  shown : ∀ {h row target}, s.store.route h = some row → row.target = some target →
    targetLive s.store target = true → row.record.state ≠ .removed →
    Protected s target.machineId h target.version

theorem initial_kept (machines : List MachineRow) : Kept (.initial machines) where
  confirmed := by simp [State.initial]
  hidden h := by simp [State.initial, Store.route] at h
  shown h := by simp [State.initial, Store.route] at h

/-- The entries of one snapshot for one hostname are the row's own. -/
theorem entry_of_shown (hs : Sound s) {current : GatewayState} {row : RouteRow}
    {target : AppliedTarget} (read : gatewayState s.store = .ok current)
    (here : s.store.route hostname = some row) (active : row.record.state ≠ .removed)
    (ht : row.target = some target) :
    ∀ entry ∈ current.observed, entry.hostname = hostname → entry.version = target.version := by
  intro entry he hh
  obtain ⟨found, hf, hshow⟩ := gatewayState_ok hs.keyed read entry he
  rw [hh, here] at hf
  cases hf
  rcases hshow with ⟨hst, -⟩ | ⟨-, reached, hreached, -, rfl⟩
  · exact absurd hst active
  · rw [ht] at hreached; cases hreached; rfl

/-- A row survives every step, and its version never falls. -/
theorem version_grows {row : RouteRow} (h : Change config e s t)
    (here : s.store.route hostname = some row) :
    ∃ after, t.store.route hostname = some after ∧ row.record.version ≤ after.record.version := by
  cases h with
  | quiet | commanded | handed | acknowledging | machine => exact ⟨row, here, Nat.le_refl _⟩
  | admitted env principal command route store event adm =>
    by_cases hh : hostname = route.hostname
    · subst hh
      obtain ⟨after, hafter, hrecord, -⟩ := adm.row
      have h₁ := adm.version
      rw [← adm.expected, here] at h₁
      exact ⟨after, hafter, by rw [hrecord, h₁]; exact Nat.le_succ _⟩
    · exact ⟨row, (adm.other _ hh).trans here, Nat.le_refl _⟩
  | attempted name found application workers here' =>
    refine ⟨_, setRecord_some here, ?_⟩
    split
    · next he => subst he; rw [here] at here'; cases here'; exact Nat.le_refl _
    · exact Nat.le_refl _
  | passed name v found acknowledging pending here' =>
    refine ⟨_, setRecord_some here, ?_⟩
    split
    · next he => subst he; rw [here] at here'; cases here'; exact Nat.le_refl _
    · exact Nat.le_refl _
  | recorded worker target found store workers mem phase here' newest name machines commands keyed
      routes =>
    by_cases hh : hostname = worker.route.hostname
    · subst hh
      rw [here] at here'
      cases here'
      exact ⟨_, (routes _).trans (if_pos rfl), Nat.le_refl _⟩
    · exact ⟨row, (routes _).trans (by rw [if_neg hh, here]), Nat.le_refl _⟩

/-- Where a confirmed worker comes from: it was confirmed before, or its guest just answered. -/
theorem confirmed_cases (h : Change config e s t) {w : Worker} (hw : w ∈ t.workers)
    (hc : w.confirmed = true) :
    (∃ old ∈ s.workers, w.route = old.route ∧ old.confirmed = true) ∨
    (∃ old ∈ s.workers, w.route = old.route ∧ ∃ cut,
      ((s.guests w.route.machineId).command cut w.route.guestCommand).1 =
        .ok (some w.route.guestRoute) ∧
      t.guests w.route.machineId =
        ((s.guests w.route.machineId).command cut w.route.guestCommand).2) := by
  have lift : ∀ {w}, Carried s w → w.confirmed = true →
      ∃ old ∈ s.workers, w.route = old.route ∧ old.confirmed = true :=
    fun ⟨old, hm, hr, ho⟩ hc => ⟨old, hm, hr, ho hc⟩
  cases h with
  | quiet workers acknowledging carried => exact .inl (lift (carried w hw) hc)
  | admitted | handed | acknowledging | passed | machine => exact .inl ⟨w, hw, rfl, hc⟩
  | recorded worker target found store workers mem phase here newest name machines commands keyed
      routes carried => exact .inl (lift (carried w hw) hc)
  | attempted name found application workers here hname carried =>
    rcases carried w hw with hw | ⟨-, hnot⟩
    · exact .inl (lift hw hc)
    · rw [hnot] at hc; cases hc
  | commanded worker cut workers mem carried =>
    rcases carried w hw with hw | ⟨hroute, hreply⟩
    · exact .inl (lift hw hc)
    · refine .inr ⟨worker, mem, hroute, cut, ?_, ?_⟩
      · rw [hroute]; exact hreply
      · rw [hroute]; simp only [Function.update_self]

/-- Where a live target comes from. -/
inductive TargetOrigin (config : Config) (e : Event) (s t : State) (hostname : Hostname)
    (after : RouteRow) (target : AppliedTarget) : Prop where
  /-- It was there, and was not brought back into view. -/
  | kept (row : RouteRow) (here : s.store.route hostname = some row)
      (same : row.target = some target) (live : targetLive s.store target = true)
      (view : row.record.state = .removed → after.record.state = .removed)
  /-- A publication was admitted over a removal. -/
  | published (env : Surroundings) (principal : Principal) (request : RoutePublish) (row : RouteRow)
      (event : e = .mutate env principal (.publish request))
      (name : hostname = publishHostname config request.machineId request.destination)
      (here : s.store.route hostname = some row) (same : row.target = some target)
      (live : targetLive s.store target = true) (removed : row.record.state = .removed)
      (expected : some row.record.version = request.expectedVersion)
      (acknowledging : t.acknowledging = s.acknowledging)
  /-- A worker recorded its confirmed version. -/
  | recorded (worker : Worker) (row : RouteRow) (mem : worker ∈ s.workers)
      (confirmed : worker.confirmed = true) (name : worker.route.hostname = hostname)
      (here : s.store.route hostname = some row)
      (newest : row.record.version = worker.route.version)
      (machine : target.machineId = worker.route.machineId)
      (version : target.version = worker.route.version)
      (view : after.record.state = .removed ↔ worker.route.state = .removed)
      (guests : t.guests = s.guests) (acknowledging : t.acknowledging = s.acknowledging)

theorem target_origin (hs : Sound s) (h : Change config e s t) {after : RouteRow}
    {target : AppliedTarget} (hafter : t.store.route hostname = some after)
    (ht : after.target = some target) (live : targetLive t.store target = true) :
    TargetOrigin config e s t hostname after target := by
  cases h with
  | quiet | commanded | handed | acknowledging => exact .kept after hafter ht live id
  | machine id state row here forward =>
    exact .kept after hafter ht
      (targetLive_of_forward (hs.targeted hafter ht).2 here forward live) fun h => h
  | attempted name found application workers here =>
    rcases setRecord_cases here hafter with ⟨rfl, rfl⟩ | ⟨-, hafter⟩
    · exact .kept found here ht live id
    · exact .kept after hafter ht live id
  | passed name v found acknowledging pending here =>
    rcases setRecord_cases here hafter with ⟨rfl, rfl⟩ | ⟨-, hafter⟩
    · exact .kept found here ht live id
    · exact .kept after hafter ht live id
  | admitted env principal command route store event adm =>
    have hlive : targetLive s.store target = true := by
      simpa only [targetLive, Store.machine, adm.machines] using live
    by_cases hh : hostname = route.hostname
    · subst hh
      obtain ⟨found, hfound, hrecord, htarget⟩ := adm.row
      rw [hafter] at hfound
      cases hfound
      rw [htarget] at ht
      obtain ⟨row, hrow, ht⟩ := Option.bind_eq_some_iff.mp ht
      by_cases hst : row.record.state = .removed
      · cases command with
        | remove name request =>
          exact .kept row hrow ht hlive fun _ => by rw [hrecord, adm.state]; rfl
        | publish request =>
          have hexpected := adm.expected
          rw [hrow] at hexpected
          exact .published env principal request row event adm.name hrow ht hlive hst hexpected rfl
      · exact .kept row hrow ht hlive fun h => absurd h hst
    · exact .kept after ((adm.other _ hh).symm.trans hafter) ht hlive id
  | recorded worker reached found store workers mem phase here newest name machines commands keyed
      routes =>
    have hlive : targetLive s.store target = true := by
      simpa only [targetLive, Store.machine, machines] using live
    simp only [routes] at hafter
    split at hafter
    · next hh =>
      subst hh
      cases hafter
      obtain ⟨place, hplace, rfl⟩ := Option.map_eq_some_iff.mp ht
      refine .recorded worker found mem ?_ rfl here newest rfl rfl ?_ rfl rfl
      · rw [Worker.confirmed, phase, hplace]
      · simp only [Hosting.recorded]
        split <;> simp_all
    · exact .kept after hafter ht hlive id

theorem Kept.change (hs : Sound s) (hr : Receipted s) (hk : Kept s)
    (meets : RemovalOutstanding config s e) (h : Change config e s t) : Kept t := by
  refine ⟨fun w hw hc hst {after} hafter hnewest hu => ?_,
    fun {h' after target} hafter ht live hp hu => ?_,
    fun {h' after target} hafter ht live hst => ?_⟩
  · -- a worker confirmed before is on the version that was the newest before as well
    have before : ∀ old ∈ s.workers, w.route = old.route → ∃ row,
        s.store.route w.route.hostname = some row ∧ w.route.version = row.record.version ∧
        Published s w.route.hostname w.route.version := by
      intro old hm hroute
      obtain ⟨row, hrow, hof⟩ := hs.worker hm
      rw [← hroute] at hrow hof
      obtain ⟨found, hfound, hle⟩ := version_grows h hrow
      rw [hafter] at hfound
      cases hfound
      have heq : w.route.version = row.record.version := by
        have := hof.version
        omega
      refine ⟨row, hrow, heq, ?_⟩
      rw [heq]
      exact hr.active hrow fun hrem => hst ((hof.newest heq).1.mpr hrem)
    rcases confirmed_cases h hw hc with ⟨old, hm, hroute, hco⟩ | ⟨old, hm, hroute, cut, hreply, hguest⟩
    · obtain ⟨row, hrow, heq, hpub⟩ := before old hm hroute
      have hub := hu.before h
      refine holds_change hs hr hpub hub ?_ h
      rw [hroute] at hst hrow heq hub ⊢
      exact hk.confirmed old hm hco hst hrow heq hub
    · rw [hguest]
      have hput : w.route.guestRoute =
          .put w.route.hostname w.route.version w.route.port := if_neg hst
      have hcommand : w.route.guestCommand = .change
          (.put w.route.hostname w.route.version w.route.port)
          (w.route.gatewayAppliedVersion.getD 1) := by
        rw [Route.guestCommand, hput]
      rw [hcommand] at hreply ⊢
      exact Guest.command_put (hs.guests _) (Prod.ext hreply rfl)
  · rcases target_origin hs h hafter ht live with
      ⟨row, here, same, live', -⟩ |
      ⟨env, principal, request, row, event, name, here, same, live', -, -, -⟩ |
      ⟨worker, row, mem, hc, rfl, here, newest, hm, hv, -, hg, -⟩
    · have hpub := hp.before h here (hs.targeted here same).1
      have hub := hu.before h
      exact holds_change hs hr hpub hub (hk.hidden here same live' hpub hub) h
    · have hpub := hp.before h here (hs.targeted here same).1
      have hub := hu.before h
      exact holds_change hs hr hpub hub (hk.hidden here same live' hpub hub) h
    · rw [hv] at hp hu ⊢
      rw [hm, hg]
      have hpub := hp.before h here (Nat.le_of_eq newest.symm)
      -- the receipt of the recorded version is a publication, so the worker's is
      obtain ⟨receipt, hmem, hh, hver, hput⟩ := hpub
      refine hk.confirmed worker mem hc (fun hrem => ?_) here newest.symm (hu.before h)
      have := (hr.worker worker mem receipt hmem hh hver).mp hrem
      rw [hput] at this
      cases this
  · rcases target_origin hs h hafter ht live with
      ⟨row, here, same, live', view⟩ |
      ⟨env, principal, request, row, event, name, here, same, live', removed, expected, hack⟩ |
      ⟨worker, row, mem, hc, rfl, here, newest, hm, hv, view, hg, hack⟩
    · have active : row.record.state ≠ .removed := fun hrem => hst (view hrem)
      refine (hk.shown here same live' active).change hs hr h fun current read _ entry he hh => ?_
      exact Nat.le_of_eq (entry_of_shown hs read here active same entry he hh)
    · -- published over a removal: this is where the condition is needed
      subst event
      obtain ⟨hpub, hun, hno⟩ :=
        meets request rfl row (name ▸ here) removed expected target same live'
      rw [route_hostname here] at hpub hun hno
      refine ⟨hpub.change h, hun.change hno h, ?_,
        holds_change hs hr hpub hun (hk.hidden here same live' hpub hun) h⟩
      rw [NothingPending, hack]
      exact hno
    · have hactive : worker.route.state ≠ .removed := fun hrem => hst (view.mpr hrem)
      obtain ⟨found, hf, hof⟩ := hs.worker mem
      rw [here] at hf
      cases hf
      have hpub : Published s worker.route.hostname worker.route.version := by
        rw [← newest]
        exact hr.active here fun hrem => hactive ((hof.newest newest.symm).1.mpr hrem)
      have hun : Unpassed s worker.route.hostname worker.route.version := fun r hrow => by
        rw [Option.mem_def, here] at hrow
        cases hrow
        exact newest ▸ hs.acknowledged here
      have hno : NothingPending s worker.route.hostname worker.route.version :=
        fun batch hb entry he hh => by
          obtain ⟨r, hrow, hle⟩ := hs.pending ⟨batch, hb, he⟩
          rw [hh, here] at hrow
          cases hrow
          exact newest ▸ hle
      rw [hv, hm]
      refine ⟨hpub.change h, hun.change hno h, ?_, ?_⟩
      · rw [NothingPending, hack]; exact hno
      · rw [hg]; exact hk.confirmed worker mem hc hactive here newest.symm hun

end

end AgentCloud.Hosting
