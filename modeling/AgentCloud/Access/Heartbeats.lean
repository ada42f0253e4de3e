/-
  HEARTBEATS: how long a connection of the gateway stays open.

  `Held` is a live connection with the check that holds it open: its timer is armed for the earlier
  of its hard deadline and fifteen seconds after that check was sent, and the hard deadline is within
  the lease that the check returned.  Every turn keeps it (`Step.good`), so no connection is open
  past either.  And a turn changes a live connection only by a later reply of a round that was
  started no earlier than its last successful check (`Step.renewed`): a check that fails, or is
  overtaken, extends nothing.
-/
import AgentCloud.Access.Gateway

namespace AgentCloud.Access.Gateway

open Checked

variable {config : GatewayConfig} {replies : Instant → Instant → Lease → Prop} {s s' : State}
  {identity : ConnectionId} {now started hardDeadline : Instant} {remaining : Nat} {c c' : Live}

/-! ## One refresh -/

theorem refresh_ok (h : refresh now remaining started identity hardDeadline = .ok c) :
    c.identity = identity ∧ c.checked = ⟨started, remaining⟩ ∧
      c.hardDeadline = min hardDeadline (started + remaining) ∧
      c.deadlineTimer = min c.hardDeadline (started + 15000) ∧ now < c.deadlineTimer := by
  simp only [refresh] at h
  split at h
  · cases h
  · next hlate =>
    obtain rfl := Except.ok.inj h
    exact ⟨rfl, rfl, rfl, rfl, Nat.lt_of_not_le hlate⟩

/-- A reply that was overtaken does not move the deadline on. -/
theorem refresh_stale (hc : c.deadlineTimer = min c.hardDeadline (c.checked.started + 15000))
    (hstale : started ≤ c.checked.started)
    (h : refresh now remaining started c.identity c.hardDeadline = .ok c') :
    c'.deadlineTimer ≤ c.deadlineTimer := by
  obtain ⟨-, -, hhard, htimer, -⟩ := refresh_ok h
  rw [hc, htimer, hhard]
  have hbound : started + 15000 ≤ c.checked.started + 15000 := Nat.add_le_add_right hstale 15000
  exact Nat.le_min.mpr ⟨Nat.le_trans (Nat.min_le_left _ _) (Nat.min_le_left _ _),
    Nat.le_trans (Nat.min_le_right _ _) hbound⟩

/-- A reply that comes too late ends the connection. -/
theorem refresh_late (hlate : started + remaining ≤ now ∨ started + 15000 ≤ now) :
    refresh now remaining started identity hardDeadline = .error .expired := by
  simp only [refresh]
  rw [if_pos]
  rcases hlate with hlease | hround
  · exact Nat.le_trans (Nat.min_le_left _ _) (Nat.le_trans (Nat.min_le_right _ _) hlease)
  · exact Nat.le_trans (Nat.min_le_right _ _) hround

theorem leaseOf_some {leases : List Lease} {lease : Lease} (h : leaseOf leases identity = some lease) :
    lease ∈ leases ∧ lease.sessionId = identity.sessionId ∧
      lease.connectionId = identity.connectionId := by
  obtain ⟨hfind, hsession⟩ := Option.mem_filter_iff.mp h
  have hmem : lease ∈ leases := List.mem_reverse.mp (List.mem_of_find?_eq_some hfind)
  have hid : lease.connectionId = identity.connectionId := by simpa using List.find?_some hfind
  exact ⟨hmem, of_decide_eq_true hsession, hid⟩

/-! ## The invariant -/

/-- The control plane leased the session to the connection, in reply to a check of `check`. -/
def Replied (replies : Instant → Instant → Lease → Prop) (now : Instant) (identity : ConnectionId)
    (check : Check) : Prop :=
  ∃ lease received, check.started ≤ received ∧ received ≤ now ∧
    replies check.started received lease ∧ lease.sessionId = identity.sessionId ∧
    lease.connectionId = identity.connectionId ∧ lease.remainingMs = check.remainingMs

structure Held (replies : Instant → Instant → Lease → Prop) (now : Instant) (c : Live) : Prop where
  timer : c.deadlineTimer = min c.hardDeadline (c.checked.started + 15000)
  lease : c.hardDeadline ≤ c.checked.started + c.checked.remainingMs
  armed : now ≤ c.deadlineTimer
  replied : Replied replies now c.identity c.checked

/-- An upgrade sent its request in the past, and its check was replied to. -/
def Phased (config : GatewayConfig) (replies : Instant → Instant → Lease → Prop) (now : Instant)
    (u : Upgrade) : Prop :=
  match u.phase with
  | .claiming claimStarted => claimStarted ≤ now
  | .checking _ _ checkStarted => checkStarted ≤ now
  | .connecting sessionId _ checkStarted remainingMs =>
    Replied replies now ⟨sessionId, config.gatewayInstanceId, u.connectionId⟩
      ⟨checkStarted, remainingMs⟩

/-- The round was started after the last successful check of whatever it is yet to check. -/
structure Round (now : Instant) (connections : List Live) (upgrades : List Upgrade)
    (h : Heartbeat) : Prop where
  started : h.started ≤ now
  later : ∀ c ∈ connections, c.identity ∈ h.rest → c.checked.started ≤ h.started
  live : ∀ u ∈ upgrades, ∀ identity ∈ h.rest, identity.connectionId ≠ u.connectionId

structure Good (config : GatewayConfig) (replies : Instant → Instant → Lease → Prop) (s : State) :
    Prop where
  held : ∀ c ∈ s.connections, Held replies s.now c
  phased : ∀ u ∈ s.upgrades, Phased config replies s.now u
  round : ∀ h ∈ s.checking, Round s.now s.connections s.upgrades h
  connections : (s.connections.map fun c => c.identity.connectionId).Nodup
  upgrades : (s.upgrades.map Upgrade.connectionId).Nodup
  apart : ∀ c ∈ s.connections, ∀ u ∈ s.upgrades, c.identity.connectionId ≠ u.connectionId

theorem good_initial : Good config replies (initial now) := by
  refine ⟨?_, ?_, ?_, List.nodup_nil, List.nodup_nil, ?_⟩ <;> simp [initial]

theorem Replied.started_le {check : Check} (h : Replied replies now identity check) :
    check.started ≤ now := by
  obtain ⟨_, received, hsent, hcame, -⟩ := h
  exact Nat.le_trans hsent hcame

theorem Replied.later {check : Check} (h : Replied replies now identity check) {now' : Instant}
    (hnow : now ≤ now') : Replied replies now' identity check := by
  obtain ⟨lease, received, hsent, hcame, hreply⟩ := h
  exact ⟨lease, received, hsent, Nat.le_trans hcame hnow, hreply⟩

theorem Phased.later {u : Upgrade} (h : Phased config replies now u) {now' : Instant}
    (hnow : now ≤ now') : Phased config replies now' u := by
  unfold Phased at h ⊢
  split at h
  · exact Nat.le_trans h hnow
  · exact Nat.le_trans h hnow
  · exact h.later hnow

/-- Time passes up to the next timer. -/
theorem Good.pass (hg : Good config replies s) {passed : Nat}
    (harmed : ∀ c ∈ s.connections, s.now + passed ≤ c.deadlineTimer) :
    Good config replies { s with now := s.now + passed } := by
  have hnow : s.now ≤ s.now + passed := Nat.le_add_right _ _
  refine ⟨fun c hm => ?_, fun u hm => (hg.phased u hm).later hnow, fun h hh => ?_, hg.connections,
    hg.upgrades, hg.apart⟩
  · obtain ⟨timer, lease, -, replied⟩ := hg.held c hm
    exact ⟨timer, lease, harmed c hm, replied.later hnow⟩
  · obtain ⟨started, later, live⟩ := hg.round h hh
    exact ⟨Nat.le_trans started hnow, later, live⟩

/-- Connections and upgrades may go, and reports may come, at any time. -/
theorem Good.fewer (hg : Good config replies s) {connections : List Live} {upgrades : List Upgrade}
    {closes : List (ConnectionId × CloseReason)} {checking : Option Heartbeat}
    (hconnections : connections.Sublist s.connections) (hupgrades : upgrades.Sublist s.upgrades)
    (hchecking : ∀ h ∈ checking, h ∈ s.checking) :
    Good config replies { s with connections, upgrades, checking, closes } := by
  refine ⟨fun c hm => hg.held c (hconnections.subset hm),
    fun u hm => hg.phased u (hupgrades.subset hm), fun h hh => ?_,
    hg.connections.sublist (hconnections.map _), hg.upgrades.sublist (hupgrades.map _),
    fun c hc u hu => hg.apart c (hconnections.subset hc) u (hupgrades.subset hu)⟩
  · obtain ⟨started, later, live⟩ := hg.round h (hchecking h hh)
    exact ⟨started, fun c hm => later c (hconnections.subset hm),
      fun u hm => live u (hupgrades.subset hm)⟩

theorem Good.stop (hg : Good config replies s) (reason : CloseReason) :
    Good config replies (s.stop c reason) :=
  hg.fewer List.filter_sublist (List.Sublist.refl _) fun _ h => h

theorem Good.abandon (hg : Good config replies s) (u : Upgrade)
    (report : Option (ConnectionId × CloseReason)) : Good config replies (s.abandon u report) :=
  hg.fewer (List.Sublist.refl _) List.filter_sublist fun _ h => h

/-- A new request. -/
theorem Good.upgrade (hg : Good config replies s) {connectionId : String}
    (hfresh : Fresh s connectionId) : Good config replies
      { s with upgrades := s.upgrades ++ [⟨connectionId, .claiming s.now⟩] } := by
  have hcases : ∀ u ∈ s.upgrades ++ [⟨connectionId, .claiming s.now⟩],
      u ∈ s.upgrades ∨ u = ⟨connectionId, .claiming s.now⟩ := fun u hm => by
    rcases List.mem_append.mp hm with hold | hnew
    · exact .inl hold
    · exact .inr (List.mem_singleton.mp hnew)
  refine ⟨hg.held, fun u hm => ?_, fun h hh => ?_, hg.connections, ?_, fun c hc u hm => ?_⟩
  · rcases hcases u hm with hold | rfl
    · exact hg.phased u hold
    · exact Nat.le_refl s.now
  · obtain ⟨started, later, live⟩ := hg.round h hh
    refine ⟨started, later, fun u hm => ?_⟩
    rcases hcases u hm with hold | rfl
    · exact live u hold
    · exact fun identity hi => hfresh.checking h hh identity hi
  · rw [List.map_append]
    refine List.nodup_append.mpr ⟨hg.upgrades, by simp, ?_⟩
    rintro a ha b hb rfl
    obtain ⟨u, hu, rfl⟩ := List.mem_map.mp ha
    exact hfresh.upgrades u hu (List.mem_singleton.mp hb)
  · rcases hcases u hm with hold | rfl
    · exact hg.apart c hc u hold
    · exact hfresh.connections c hc

/-- An upgrade enters its next phase. -/
theorem Good.enter (hg : Good config replies s) {u : Upgrade} {phase : Phase}
    (hphase : Phased config replies s.now ⟨u.connectionId, phase⟩) :
    Good config replies (s.enter u phase) := by
  have hids : (s.enter u phase).upgrades.map Upgrade.connectionId =
      s.upgrades.map Upgrade.connectionId := by
    show (Table.update _ _ _ _).map _ = _
    rw [Table.update, List.map_map]
    refine List.map_congr_left fun other _ => ?_
    simp only [Function.comp_apply]
    split <;> rfl
  have hmem : ∀ other ∈ (s.enter u phase).upgrades, ∃ old ∈ s.upgrades,
      other.connectionId = old.connectionId := fun other hm => by
    have hid : other.connectionId ∈ s.upgrades.map Upgrade.connectionId :=
      hids ▸ List.mem_map_of_mem hm
    obtain ⟨old, hold, hsame⟩ := List.mem_map.mp hid
    exact ⟨old, hold, hsame.symm⟩
  refine ⟨hg.held, fun other hm => ?_, fun h hh => ?_, hg.connections, hids ▸ hg.upgrades,
    fun c hc other hm => ?_⟩
  · obtain ⟨old, hold, rfl⟩ := Table.mem_update hm
    split
    · next hid => exact hid ▸ hphase
    · exact hg.phased old hold
  · obtain ⟨started, later, live⟩ := hg.round h hh
    refine ⟨started, later, fun other hm => ?_⟩
    obtain ⟨old, hold, hid⟩ := hmem other hm
    rw [hid]
    exact live old hold
  · obtain ⟨old, hold, hid⟩ := hmem other hm
    rw [hid]
    exact hg.apart c hc old hold

theorem Good.onClaim (hg : Good config replies s) (u : Upgrade) {claimStarted : Instant}
    {lease : Lease} {socketClosed : Bool} :
    Good config replies (s.onClaim config u claimStarted lease socketClosed) := by
  unfold State.onClaim
  split
  · exact hg.abandon u _
  · exact hg.enter (Nat.le_refl s.now)

theorem Good.onCheck (hg : Good config replies s) (u : Upgrade) {sessionId : AccessSessionId}
    {checkStarted : Instant} {leases : List Lease} {socketClosed : Bool}
    (hsent : checkStarted ≤ s.now) (hreply : ∀ lease ∈ leases, replies checkStarted s.now lease) :
    Good config replies
      (s.onCheck config u sessionId hardDeadline checkStarted leases socketClosed) := by
  simp only [State.onCheck]
  split
  · exact hg.abandon u _
  · next current hfind =>
    split
    · exact hg.abandon u _
    · have hmem : current ∈ leases := List.mem_of_find?_eq_some hfind
      have hmatch : current.sessionId = sessionId ∧ current.connectionId = u.connectionId := by
        simpa using List.find?_some hfind
      exact hg.enter ⟨current, s.now, hsent, Nat.le_refl _, hreply current hmem, hmatch.1, hmatch.2,
        rfl⟩

/-- The last successful check of a new connection is the one of its upgrade. -/
theorem Good.onConnect (hg : Good config replies s) {u : Upgrade} (hu : u ∈ s.upgrades)
    {sessionId : AccessSessionId} {checkStarted : Instant} {socketClosed : Bool}
    (hreplied : Replied replies s.now ⟨sessionId, config.gatewayInstanceId, u.connectionId⟩
      ⟨checkStarted, remaining⟩) :
    Good config replies
      (s.onConnect config u sessionId hardDeadline checkStarted remaining socketClosed) := by
  simp only [State.onConnect]
  split
  · exact hg.abandon u _
  · split
    · exact hg.abandon u _
    · next c hrefresh =>
      obtain ⟨hidentity, hchecked, hhard, htimer, hopen⟩ := refresh_ok hrefresh
      have hleft := hg.abandon u none
      have hconnectionId : c.identity.connectionId = u.connectionId := by rw [hidentity]
      have hnew : Held replies s.now c := by
        refine ⟨by rw [hchecked]; exact htimer, ?_, Nat.le_of_lt hopen, ?_⟩
        · rw [hhard, hchecked]
          exact Nat.min_le_right _ _
        · rw [hidentity, hchecked]
          exact hreplied
      have hcases : ∀ other ∈ s.connections ++ [c], other ∈ s.connections ∨ other = c :=
        fun other hm => by simpa using hm
      refine ⟨fun other hm => ?_, hleft.phased, fun h hh => ?_, ?_, hleft.upgrades, ?_⟩
      · rcases hcases other hm with hold | rfl
        · exact hg.held other hold
        · exact hnew
      · obtain ⟨started, later, live⟩ := hleft.round h hh
        refine ⟨started, fun other hm hrest => ?_, live⟩
        rcases hcases other hm with hold | rfl
        · exact later other hold hrest
        · exact absurd hconnectionId ((hg.round h hh).live u hu _ hrest)
      · show ((s.connections ++ [c]).map _).Nodup
        rw [List.map_append]
        refine List.nodup_append.mpr ⟨hg.connections, by simp, ?_⟩
        rintro a ha b hb rfl
        obtain ⟨old, hold, rfl⟩ := List.mem_map.mp ha
        exact hg.apart old hold u hu ((List.mem_singleton.mp hb).trans hconnectionId)
      · intro other hm v hv
        obtain ⟨hv, hne⟩ := List.mem_filter.mp hv
        rcases hcases other hm with hold | rfl
        · exact hg.apart other hold v hv
        · rw [hconnectionId]
          exact fun heq => of_decide_eq_true hne heq.symm

theorem Good.onHeartbeat (hg : Good config replies s) : Good config replies s.onHeartbeat := by
  unfold State.onHeartbeat
  split
  · exact hg
  · refine ⟨hg.held, hg.phased, fun h hh => ?_, hg.connections, hg.upgrades, hg.apart⟩
    obtain rfl := Option.some.inj hh
    refine ⟨Nat.le_refl _, fun c hm _ => (hg.held c hm).replied.started_le, fun u hu identity hi => ?_⟩
    obtain ⟨c, hc, rfl⟩ := List.mem_map.mp hi
    exact hg.apart c hc u hu

/-! ## A batch of a round -/

/-- A connection after the reply to a batch: as it was, or refreshed by a lease of the reply. -/
theorem beatOne_ok {batch : List ConnectionId} {leases : List Lease}
    (h : beatOne now started batch leases c = .ok c') :
    c' = c ∨ c.identity ∈ batch ∧ ∃ lease ∈ leases, lease.sessionId = c.identity.sessionId ∧
      lease.connectionId = c.identity.connectionId ∧
      refresh now lease.remainingMs started c.identity c.hardDeadline = .ok c' := by
  unfold beatOne at h
  split at h
  · next hbatch =>
    split at h
    · cases h
    · next lease hlease =>
      obtain ⟨hmem, hsession, hconnection⟩ := leaseOf_some hlease
      exact .inr ⟨hbatch, lease, hmem, hsession, hconnection, h⟩
  · exact .inl (Except.ok.inj h).symm

theorem beatOne_identity {batch : List ConnectionId} {leases : List Lease}
    (h : beatOne now started batch leases c = .ok c') : c'.identity = c.identity := by
  rcases beatOne_ok h with rfl | ⟨-, lease, -, -, -, hrefresh⟩
  · rfl
  · exact (refresh_ok hrefresh).1

theorem mem_onBeat {h : Heartbeat} {leases : List Lease}
    (hm : c' ∈ (s.onBeat h leases).connections) :
    ∃ c ∈ s.connections, beatOne s.now h.started (h.rest.take 100) leases c = .ok c' := by
  obtain ⟨c, hc, hok⟩ := List.mem_filterMap.mp hm
  refine ⟨c, hc, ?_⟩
  cases hbeat : beatOne s.now h.started (h.rest.take 100) leases c with
  | error reason => rw [hbeat] at hok; cases hok
  | ok kept =>
    rw [hbeat] at hok
    rw [Option.some.inj hok]

/-- A reply holds a connection open from when its round was started. -/
theorem Held.beat {batch : List ConnectionId} {leases : List Lease} (hc : Held replies now c)
    (hsent : started ≤ now) (hreply : ∀ lease ∈ leases, replies started now lease)
    (h : beatOne now started batch leases c = .ok c') : Held replies now c' := by
  rcases beatOne_ok h with rfl | ⟨-, lease, hmem, hsession, hconnection, hrefresh⟩
  · exact hc
  · obtain ⟨hidentity, hchecked, hhard, htimer, hopen⟩ := refresh_ok hrefresh
    refine ⟨by rw [hchecked]; exact htimer, ?_, Nat.le_of_lt hopen, ?_⟩
    · rw [hhard, hchecked]
      exact Nat.min_le_right _ _
    · rw [hidentity, hchecked]
      exact ⟨lease, now, hsent, Nat.le_refl _, hreply lease hmem, hsession, hconnection, rfl⟩

/-- Dropping rows, and rewriting others without their keys, leaves a sublist of the keys. -/
theorem map_filterMap_sublist {α κ : Type} {key : α → κ} {f : α → Option α}
    (hf : ∀ a b, f a = some b → key b = key a) (rows : List α) :
    ((rows.filterMap f).map key).Sublist (rows.map key) := by
  induction rows with
  | nil => exact .slnil
  | cons row rows ih =>
    cases hrow : f row with
    | none =>
      rw [List.filterMap_cons_none hrow]
      exact ih.cons (key row)
    | some kept =>
      rw [List.filterMap_cons_some hrow, List.map_cons, List.map_cons, hf row kept hrow]
      exact ih.cons_cons (key row)

theorem Good.onBeat (hg : Good config replies s) {h : Heartbeat} (hh : s.checking = some h)
    {leases : List Lease} (hreply : ∀ lease ∈ leases, replies h.started s.now lease) :
    Good config replies (s.onBeat h leases) := by
  have hround := hg.round h hh
  have hids : ((s.onBeat h leases).connections.map fun c => c.identity.connectionId).Sublist
      (s.connections.map fun c => c.identity.connectionId) := by
    refine map_filterMap_sublist (fun c c' hc => ?_) s.connections
    cases hbeat : beatOne s.now h.started (h.rest.take 100) leases c with
    | error reason => rw [hbeat] at hc; cases hc
    | ok kept =>
      rw [hbeat] at hc
      obtain rfl := Option.some.inj hc
      rw [beatOne_identity hbeat]
  refine ⟨fun c' hm => ?_, hg.phased, fun h' hh' => ?_, hg.connections.sublist hids, hg.upgrades,
    fun c' hm u hu => ?_⟩
  · obtain ⟨c, hc, hbeat⟩ := mem_onBeat hm
    exact (hg.held c hc).beat hround.started hreply hbeat
  · have hrest : h'.started = h.started ∧ ∀ identity ∈ h'.rest, identity ∈ h.rest := by
      change h' ∈ (if h.rest.drop 100 = [] then none else some { h with rest := h.rest.drop 100 }) at hh'
      split at hh'
      · cases hh'
      · obtain rfl := Option.some.inj hh'
        exact ⟨rfl, fun identity hi => List.mem_of_mem_drop hi⟩
    refine ⟨hrest.1 ▸ hround.started, fun c' hm hin => ?_, fun u hu identity hi =>
      hround.live u hu identity (hrest.2 identity hi)⟩
    obtain ⟨c, hc, hbeat⟩ := mem_onBeat hm
    rw [hrest.1]
    rcases beatOne_ok hbeat with rfl | ⟨-, lease, -, -, -, hrefresh⟩
    · exact hround.later c' hc (hrest.2 _ hin)
    · exact Nat.le_of_eq (by rw [(refresh_ok hrefresh).2.1])
  · obtain ⟨c, hc, hbeat⟩ := mem_onBeat hm
    rw [beatOne_identity hbeat]
    exact hg.apart c hc u hu

/-! ## Turns and runs -/

/-- **Step lemma.** -/
theorem Step.good (hg : Good config replies s) (h : Step config replies s s') :
    Good config replies s' := by
  cases h with
  | pass passed armed => exact hg.pass armed
  | expire c mem due => exact hg.stop .expired
  | stop c mem reason => exact hg.stop reason
  | upgrade connectionId fresh room => exact hg.upgrade fresh
  | claim u mem claimStarted phase lease reply socketClosed => exact hg.onClaim u
  | check u mem sessionId hardDeadline checkStarted phase leases reply socketClosed =>
    have hphased := hg.phased u mem
    simp only [Phased, phase] at hphased
    exact hg.onCheck u hphased reply
  | connect u mem sessionId hardDeadline checkStarted remainingMs phase socketClosed =>
    have hphased := hg.phased u mem
    simp only [Phased, phase] at hphased
    exact hg.onConnect mem hphased
  | fail u mem report => exact hg.abandon u report
  | heartbeat => exact hg.onHeartbeat
  | beat h here leases reply => exact hg.onBeat here reply
  | missed h here => exact hg.fewer (List.Sublist.refl _) (List.Sublist.refl _) (by simp)

/-- **Run lemma.** -/
theorem good_run (hreach : Reach config replies (initial now) s) : Good config replies s := by
  induction hreach with
  | refl => exact good_initial
  | tail _ hstep ih => exact hstep.good ih

/-- The reply to a check of the connection, in a round that is no older than its last success. -/
structure Renewed (replies : Instant → Instant → Lease → Prop) (s : State) (c c' : Live) : Prop where
  round : ∃ h lease, s.checking = some h ∧ c.identity ∈ h.rest ∧ replies h.started s.now lease ∧
    lease.sessionId = c.identity.sessionId ∧ lease.connectionId = c.identity.connectionId ∧
    c'.checked = ⟨h.started, lease.remainingMs⟩
  identity : c'.identity = c.identity
  started : c.checked.started ≤ c'.checked.started
  hard : c'.hardDeadline ≤ c.hardDeadline
  extended : c.deadlineTimer < c'.deadlineTimer → c.checked.started < c'.checked.started

theorem Good.same (hg : Good config replies s) (hc : c ∈ s.connections) (hc' : c' ∈ s.connections)
    (hid : c'.identity.connectionId = c.identity.connectionId) : c' = c :=
  Table.Keyed.unique hg.connections hc' hc hid

/-- A turn leaves a connection as it is, or renews it. -/
theorem Step.renewed (hg : Good config replies s) (h : Step config replies s s')
    (hc : c ∈ s.connections) (hc' : c' ∈ s'.connections)
    (hid : c'.identity.connectionId = c.identity.connectionId) : c' = c ∨ Renewed replies s c c' := by
  have hkept : c' ∈ s.connections → c' = c ∨ Renewed replies s c c' :=
    fun hm => .inl (hg.same hc hm hid)
  cases h with
  | pass | upgrade | missed => exact hkept hc'
  | expire | stop => exact hkept (List.mem_filter.mp hc').1
  | fail => exact hkept hc'
  | claim =>
    refine hkept ?_
    simp only [State.onClaim] at hc'
    split at hc' <;> exact hc'
  | check =>
    refine hkept ?_
    simp only [State.onCheck] at hc'
    split at hc'
    · exact hc'
    · split at hc' <;> exact hc'
  | connect u mem sessionId hardDeadline checkStarted remainingMs phase socketClosed =>
    refine hkept ?_
    simp only [State.onConnect] at hc'
    split at hc'
    · exact hc'
    · split at hc'
      · exact hc'
      · next new hrefresh =>
        rcases List.mem_append.mp hc' with hold | hnew
        · exact hold
        · -- a new connection has an identifier of its own
          obtain rfl := List.mem_singleton.mp hnew
          rw [(refresh_ok hrefresh).1] at hid
          exact absurd hid.symm (hg.apart c hc u mem)
  | heartbeat =>
    refine hkept ?_
    unfold State.onHeartbeat at hc'
    split at hc' <;> exact hc'
  | beat h here leases reply =>
    obtain ⟨old, hold, hbeat⟩ := mem_onBeat hc'
    obtain rfl : old = c := hg.same hc hold (by rw [← hid, beatOne_identity hbeat])
    rcases beatOne_ok hbeat with rfl | ⟨hbatch, lease, hmem, hsession, hconnection, hrefresh⟩
    · exact .inl rfl
    · obtain ⟨hidentity, hchecked, hhard, htimer, -⟩ := refresh_ok hrefresh
      have hrest : old.identity ∈ h.rest := List.mem_of_mem_take hbatch
      have hlater := (hg.round h here).later old hc hrest
      refine .inr ⟨⟨h, lease, here, hrest, reply lease hmem, hsession, hconnection, hchecked⟩,
        hidentity, by rw [hchecked]; exact hlater, by rw [hhard]; exact Nat.min_le_left _ _,
        fun hextended => ?_⟩
      rw [hchecked]
      refine Nat.lt_of_not_le fun hstale => ?_
      exact absurd (refresh_stale (hg.held old hc).timer hstale hrefresh) (Nat.not_le.mpr hextended)

/-- A lease of an honest control plane, counted from its request, ends before the session does. -/
theorem Held.honest {deadline : AccessSessionId → Instant} (h : Held (Honest deadline) now c) :
    c.hardDeadline ≤ deadline c.identity.sessionId := by
  obtain ⟨lease, received, -, -, ⟨computed, hsent, -, hwithin⟩, hsession, -, hremaining⟩ := h.replied
  have hlease := h.lease
  rw [← hsession]
  refine Nat.le_trans hlease (Nat.le_trans ?_ hwithin)
  rw [hremaining]
  exact Nat.add_le_add_right hsent c.checked.remainingMs

end AgentCloud.Access.Gateway
