/-
  THE SNAPSHOTS A GATEWAY HOLDS, and binding retention for them.

  `History` orders the snapshots that were handed out: the newest one is not behind any other, none
  is ahead of its row, and a snapshot that saw the newest removal is followed only by snapshots
  without the hostname.  It is what makes an acknowledgement harmless, however late it arrives: to be
  accepted its revision must be the current one, so what it acknowledges is what the newest snapshot
  serves, or nothing of it (`acknowledged_le_newest`).

  With the protection of `Retention` this gives the law for every run that meets
  `RemovalOutstanding`; the two runs at the end leave it in the two possible ways.
-/
import AgentCloud.Hosting.Retention

namespace AgentCloud.Hosting

open Checked

section

variable {config : Config} {e : Event} {s t : State} {hostname : Hostname} {version : Nat}

/-! ## The order of the snapshots -/

structure History (s : State) : Prop where
  newest : ∀ last ∈ s.handed.head?, ∀ earlier ∈ s.handed, ∀ {h old now},
    Observed.live h old ∈ earlier.observed → Observed.live h now ∈ last.observed →
    old.version ≤ now.version
  behind : ∀ earlier ∈ s.handed, ∀ {h target}, Observed.live h target ∈ earlier.observed →
    Passed h target.version s
  removed : ∀ earlier ∈ s.handed, ∀ {h removal}, Observed.removed h removal ∈ earlier.observed →
    ∃ row, s.store.route h = some row ∧ removal ≤ row.record.version ∧
      (removal = row.record.version → row.record.state = .removed ∧
        ∀ last ∈ s.handed.head?, ∀ target, Observed.live h target ∉ last.observed)

theorem initial_history (machines : List MachineRow) : History (.initial machines) where
  newest := by simp [State.initial]
  behind := by simp [State.initial]
  removed := by simp [State.initial]

/-- A live entry of the current snapshot is its row's target. -/
theorem live_entry (hs : Sound s) {current : GatewayState} {target : AppliedTarget}
    (read : gatewayState s.store = .ok current)
    (h : Observed.live hostname target ∈ current.observed) :
    ∃ row, s.store.route hostname = some row ∧ row.record.state ≠ .removed ∧
      row.target = some target ∧ targetLive s.store target = true := by
  obtain ⟨row, hrow, ⟨-, heq⟩ | ⟨hst, reached, ht, live, heq⟩⟩ := gatewayState_ok hs.keyed read _ h
  · cases heq
  · cases heq; exact ⟨row, hrow, hst, ht, live⟩

/-- A removed entry of the current snapshot is its row's newest version. -/
theorem removed_entry (hs : Sound s) {current : GatewayState} {removal : Nat}
    (read : gatewayState s.store = .ok current)
    (h : Observed.removed hostname removal ∈ current.observed) :
    ∃ row, s.store.route hostname = some row ∧ row.record.state = .removed ∧
      removal = row.record.version := by
  obtain ⟨row, hrow, ⟨hst, heq⟩ | ⟨-, reached, -, -, heq⟩⟩ := gatewayState_ok hs.keyed read _ h
  · cases heq; exact ⟨row, hrow, hst, rfl⟩
  · cases heq

/-- A removal that is the newest version stays the newest state of the row. -/
theorem removal_stays {row after : RouteRow} (hs : Sound s) (h : Change config e s t)
    (here : s.store.route hostname = some row) (hafter : t.store.route hostname = some after)
    (same : after.record.version = row.record.version) (hst : row.record.state = .removed) :
    after.record.state = .removed := by
  cases h with
  | quiet | commanded | handed | acknowledging | machine =>
    cases here.symm.trans hafter
    exact hst
  | admitted env principal command route store event adm =>
    by_cases hh : hostname = route.hostname
    · subst hh
      obtain ⟨found, hfound, hrecord, -⟩ := adm.row
      cases hafter.symm.trans hfound
      have h₁ := adm.version
      rw [← adm.expected, here] at h₁
      simp only [Option.map_some, Option.getD_some] at h₁
      rw [hrecord] at same
      omega
    · cases here.symm.trans ((adm.other _ hh).symm.trans hafter)
      exact hst
  | attempted name found application workers here' =>
    rcases setRecord_cases here' hafter with ⟨rfl, rfl⟩ | ⟨-, hafter⟩
    · cases here.symm.trans here'; exact hst
    · cases here.symm.trans hafter; exact hst
  | passed name v found acknowledging pending here' =>
    rcases setRecord_cases here' hafter with ⟨rfl, rfl⟩ | ⟨-, hafter⟩
    · cases here.symm.trans here'; exact hst
    · cases here.symm.trans hafter; exact hst
  | recorded worker target found store workers mem phase here' newest name machines commands keyed
      routes =>
    simp only [routes] at hafter
    split at hafter
    · next hh =>
      subst hh
      cases hafter
      cases here.symm.trans here'
      obtain ⟨row', hrow', hof⟩ := hs.worker mem
      cases here.symm.trans hrow'
      have := (hof.newest newest.symm).1.mpr hst
      simp [Hosting.recorded, this]
    · cases here.symm.trans hafter; exact hst

theorem History.change (hs : Sound s) (hh : History s) (h : Change config e s t) : History t := by
  -- all steps but one leave the snapshots alone
  have keep : t.handed = s.handed → History t := by
    intro hsame
    refine ⟨by rw [hsame]; exact hh.newest, fun earlier hm h' target hl => ?_,
      fun earlier hm {h' removal} hl => ?_⟩
    · rw [hsame] at hm
      exact (hh.behind earlier hm hl).change h
    · rw [hsame] at hm ⊢
      obtain ⟨row, hrow, hle, hnewest⟩ := hh.removed earlier hm hl
      obtain ⟨after, hafter, hgrow⟩ := version_grows h hrow
      refine ⟨after, hafter, Nat.le_trans hle hgrow, fun he => ?_⟩
      obtain ⟨hst, hlast⟩ := hnewest (Nat.le_antisymm hle (he ▸ hgrow))
      exact ⟨removal_stays hs h hrow hafter (by omega) hst, hlast⟩
  cases h with
  | quiet | admitted | attempted | commanded | recorded | acknowledging | passed | machine =>
    exact keep rfl
  | handed current read =>
    have hnow : ∀ {h target}, Observed.live h target ∈ current.observed →
        Passed h target.version s := fun hl => by
      obtain ⟨row, hrow, -, ht, -⟩ := live_entry hs read hl
      refine ⟨row, hrow, (hs.targeted hrow ht).1, fun other ho => ?_⟩
      rw [ht] at ho
      cases ho
      exact Nat.le_refl _
    refine ⟨?_, ?_, ?_⟩
    · intro last hl earlier hm h old now hold hnow'
      obtain rfl : current = last := by simpa using hl
      obtain ⟨row, hrow, -, ht, -⟩ := live_entry hs read hnow'
      have hpassed : Passed h old.version s := by
        rcases List.mem_cons.mp hm with rfl | hm
        · exact hnow hold
        · exact hh.behind earlier hm hold
      obtain ⟨found, hfound, -, htarget⟩ := hpassed
      rw [hrow] at hfound
      cases hfound
      exact htarget now ht
    · intro earlier hm h target hl
      rcases List.mem_cons.mp hm with rfl | hm
      · exact hnow hl
      · exact hh.behind earlier hm hl
    · intro earlier hm h removal hl
      -- a hostname that is removed now is not in the snapshot handed out now
      have absent : ∀ {row}, s.store.route h = some row → row.record.state = .removed →
          ∀ last ∈ (current :: s.handed).head?, ∀ target,
            Observed.live h target ∉ last.observed := by
        intro row hrow hst last hlast target hlive
        obtain rfl : current = last := by simpa using hlast
        obtain ⟨found, hfound, hactive, -, -⟩ := live_entry hs read hlive
        rw [hrow] at hfound
        cases hfound
        exact hactive hst
      rcases List.mem_cons.mp hm with rfl | hm
      · obtain ⟨row, hrow, hst, rfl⟩ := removed_entry hs read hl
        exact ⟨row, hrow, Nat.le_refl _, fun _ => ⟨hst, absent hrow hst⟩⟩
      · obtain ⟨row, hrow, hle, hnewest⟩ := hh.removed earlier hm hl
        exact ⟨row, hrow, hle, fun he => ⟨(hnewest he).1, absent hrow (hnewest he).1⟩⟩

/-- **A late acknowledgement is harmless**: what an accepted revision acknowledges of a hostname is
    not past what the newest snapshot serves. -/
theorem acknowledged_le_newest (hs : Sound s) (hh : History s) {last current : GatewayState}
    (hl : last ∈ s.handed.head?) {target : AppliedTarget}
    (hlive : Observed.live hostname target ∈ last.observed)
    (read : gatewayState s.store = .ok current)
    (accepted : ∃ earlier ∈ s.handed, current.revision = earlier.revision) :
    ∀ entry ∈ current.observed, entry.hostname = hostname → entry.version ≤ target.version := by
  intro entry he hname
  obtain ⟨earlier, hm, hsame⟩ := accepted
  have hfp : entry.fingerprint ∈ earlier.revision := hsame ▸ List.mem_map_of_mem he
  obtain ⟨seen, hseen, heq⟩ := List.mem_map.mp hfp
  cases entry with
  | live h now =>
    cases seen with
    | removed h' v => cases heq
    | live h' old =>
      simp only [Observed.fingerprint, Fingerprint.live.injEq] at heq
      obtain ⟨rfl, -, -, hv⟩ := heq
      simp only [Observed.hostname] at hname
      subst hname
      simp only [Observed.version, ← hv]
      exact hh.newest last hl earlier hm hseen hlive
  | removed h removal =>
    cases seen with
    | live h' old => cases heq
    | removed h' v =>
      simp only [Observed.fingerprint, Fingerprint.removed.injEq] at heq
      obtain ⟨rfl, rfl⟩ := heq
      simp only [Observed.hostname] at hname
      subst hname
      -- the newest removal was seen before the newest snapshot, which therefore is without it
      obtain ⟨row, hrow, -, rfl⟩ := removed_entry hs read he
      obtain ⟨found, hfound, -, hnewest⟩ := hh.removed earlier hm hseen
      rw [hrow] at hfound
      cases hfound
      exact absurd hlive ((hnewest rfl).2 last hl target)

/-! ## The law -/

/-- Every guest a snapshot routes to has a protected binding. -/
def AllProtected (s : State) (current : GatewayState) : Prop :=
  ∀ {h target}, Observed.live h target ∈ current.observed →
    Protected s target.machineId h target.version

/-- Everything binding retention rests on. -/
structure Retained (s : State) : Prop where
  sound : Sound s
  receipted : Receipted s
  kept : Kept s
  history : History s
  handed : ∀ last ∈ s.handed.head?, AllProtected s last
  acknowledged : ∀ current ∈ s.acknowledged, AllProtected s current

theorem initial_retained (machines : List MachineRow) : Retained (.initial machines) :=
  ⟨initial_sound machines, initial_receipted machines, initial_kept machines,
    initial_history machines, by simp [State.initial], by simp [State.initial]⟩

/-- The entries of the current snapshot are protected. -/
theorem current_protected (hs : Sound s) (hk : Kept s) {current : GatewayState}
    (read : gatewayState s.store = .ok current) : AllProtected s current := by
  intro h target hl
  obtain ⟨row, hrow, hst, ht, live⟩ := live_entry hs read hl
  exact hk.shown hrow ht live hst

theorem Retained.change (hr : Retained s) (meets : RemovalOutstanding config s e)
    (h : Change config e s t) : Retained t := by
  have hnewest : ∀ last ∈ s.handed.head?, AllProtected t last := fun last hl _ _ hlive =>
    (hr.handed last hl hlive).change hr.sound hr.receipted h fun current read accepted =>
      acknowledged_le_newest hr.sound hr.history hl hlive read accepted
  refine ⟨hr.sound.change h, hr.receipted.change hr.sound h,
    hr.kept.change hr.sound hr.receipted meets h, hr.history.change hr.sound h, ?_, ?_⟩
  · cases h with
    | quiet | admitted | attempted | commanded | recorded | acknowledging | passed | machine =>
      exact hnewest
    | handed current read =>
      intro last hl h target hlive
      obtain rfl : current = last := by simpa using hl
      have hp := current_protected hr.sound hr.kept read hlive
      exact ⟨hp.published, hp.unpassed, hp.nothingPending, hp.holds⟩
  · -- only reading an acknowledgement can pass a version, and then it replaces the snapshot
    have hkeep : t.acknowledging = s.acknowledging ∨
        (∀ h v, State.PendingIn t.acknowledging h v → s.Pending h v) →
        ∀ current ∈ s.acknowledged, AllProtected t current := by
      intro hpending current hc h' target hlive
      have hp := hr.acknowledged current hc hlive
      refine ⟨hp.published.change h, hp.unpassed.change hp.nothingPending h, ?_,
        holds_change hr.sound hr.receipted hp.published hp.unpassed hp.holds h⟩
      rcases hpending with hsame | hfewer
      · rw [NothingPending, hsame]; exact hp.nothingPending
      · intro batch hb entry he hh
        obtain ⟨batch', hb', he'⟩ := hfewer entry.1 entry.2 ⟨batch, hb, he⟩
        exact hp.nothingPending batch' hb' _ he' hh
    cases h with
    | admitted | attempted | commanded | recorded | handed | machine => exact hkeep (.inl rfl)
    | quiet workers acknowledging carried fewer => exact hkeep (.inr fewer)
    | passed name v row acknowledging pending here hname raised fewer => exact hkeep (.inr fewer)
    | acknowledging current earlier read mem same =>
      intro found hf h' target hlive
      obtain rfl : current = found := by simpa using hf
      obtain ⟨row, hrow, hst, ht, live⟩ := live_entry hr.sound read hlive
      refine (hr.kept.shown hrow ht live hst).change hr.sound hr.receipted
        (Change.acknowledging current earlier read mem same : Change config e s _)
        fun found read' _ entry he hh => ?_
      exact Nat.le_of_eq (entry_of_shown hr.sound read' hrow hst ht entry he hh)

/-- **Binding retention**, along the runs in which no publication shows the target of a removal
    that was applied or acknowledged. -/
theorem outstanding_removal_retains_bindings (config : Config) :
    RetainsBindings config (RemovalOutstanding config) := by
  intro machines s hs
  have hr : Retained s := hs.invariant (I := Retained)
    (fun hr hm he => hr.change hm (step_change he)) (initial_retained machines)
  have bound : ∀ current, AllProtected s current → Bound s current := by
    intro current hp entry he target ht
    cases entry with
    | removed h v => cases ht
    | live h found => cases ht; exact (hp he).holds
  exact ⟨fun last hl => bound last (hr.handed last hl),
    fun current hc => bound current (hr.acknowledged current hc)⟩

end

/-! ## The runs outside the condition -/

/-- A followed run that ends without its bindings refutes retention. -/
theorem not_retained_of_run {config : Config} {meets : State → Event → Prop}
    [∀ s e, Decidable (meets s e)] (machines : List MachineRow) (events : List Event)
    (h : ((hosting config).follow meets (.initial machines) events).map
      (fun s => decide (BindingsRetained s)) = some false) : ¬ RetainsBindings config meets := by
  intro hret
  obtain ⟨s, hs, hlost⟩ := Option.map_eq_some_iff.mp h
  exact of_decide_eq_false hlost (hret machines s (Protocol.reach_of_follow hs))

namespace Demo

/-- The removal is applied before the hostname is published again. -/
def overApplied : List Event :=
  takenDown ++ advance ++ [publish "third" (some 2), .snapshot]

/-- The removal is acknowledged before the hostname is published again. -/
def overAcknowledged : List Event :=
  takenDown ++ [.snapshot, .acknowledge [.removed hostname 2], .record 0,
    publish "third" (some 2), .snapshot] ++ advance

/-- The removal is neither applied nor acknowledged. -/
def overOutstanding : List Event :=
  takenDown ++ [publish "third" (some 2), .snapshot] ++ advance

/-- The target is still a publication's; acknowledgements are not looked at. -/
def notApplied (s : State) (e : Event) : Prop :=
  ∀ request ∈ e.publication?,
  ∀ row ∈ s.store.route (publishHostname config request.machineId request.destination),
    ∀ target ∈ row.target, Published s row.hostname target.version

instance (s : State) (e : Event) : Decidable (notApplied s e) := by
  unfold notApplied; infer_instance

end Demo

/-- Published again over an applied removal, the snapshot asks the guest for the removal's own
    version: without the condition the law is false. -/
theorem republished_over_removal_unbound : ¬ RetainsBindings Demo.config fun _ _ => True :=
  not_retained_of_run [Demo.machine] Demo.overApplied (by decide +kernel)

/-- Published again over an acknowledged removal, the next guest command prunes the version the
    newest snapshot asks for: the condition's second half is needed as well. -/
theorem acknowledged_removal_prunes : ¬ RetainsBindings Demo.config Demo.notApplied :=
  not_retained_of_run [Demo.machine] Demo.overAcknowledged (by decide +kernel)

/-- Published again over an outstanding removal, the old version is shown and still bound. -/
theorem outstanding_removal_retains_bindings_demo :
    ∃ s, (hosting Demo.config).Reach (RemovalOutstanding Demo.config) (.initial [Demo.machine]) s ∧
      (s.handed.head?.map fun last => last.observed.map (·.version)) = some [1] ∧
      BindingsRetained s := by
  have h : ((hosting Demo.config).follow (RemovalOutstanding Demo.config)
      (.initial [Demo.machine]) Demo.overOutstanding).map
      (fun s => s.handed.head?.map fun last => last.observed.map (·.version)) =
        some (some [1]) := by decide +kernel
  obtain ⟨s, hs, hlast⟩ := Option.map_eq_some_iff.mp h
  have hreach := Protocol.reach_of_follow hs
  exact ⟨s, hreach, hlast,
    outstanding_removal_retains_bindings Demo.config [Demo.machine] s hreach⟩

end AgentCloud.Hosting
