/-
  THE HOSTING PROTOCOL: control database, guests and public gateway, with everything in flight.

  Three parties keep their own versions.  The control database has the desired record and the target
  of each hostname; each guest has its bindings; the gateway has the snapshots it fetched.  Between
  them travel
    * WORKERS, the runs of `advance`: a claimed attempt, then a guest command on its way, then its
      answer, then the recording transaction.  A worker may stop or give up waiting at any point;
      a command whose sender is gone (`lost`) may still reach the guest later;
    * ACKNOWLEDGEMENTS, the runs of `acknowledge`: the versions read, recorded one by one.
  `step` moves one of them by one transaction or one guest command, in any order.  `Event` carries
  what the state does not decide.

  `Change` is the same protocol with the reasons dropped: what a step may do to each part of the
  state.  `step_change` shows that the executable step does nothing else, so an invariant is
  checked against the nine changes, never against the code.
-/
import AgentCloud.Lib.Protocol
import AgentCloud.Hosting.Effects
import Mathlib.Logic.Function.Basic

namespace AgentCloud.Hosting

open Checked

/-! ## State -/

inductive Phase where
  /-- The attempt is recorded. -/
  | claimed
  /-- The guest command is on its way; `target` is what its acknowledgement will establish. -/
  | commanded (target : Target)
  /-- The command is on its way and nobody waits for its answer. -/
  | lost
  | answered (target : Option Target)
  | failed
  deriving DecidableEq, Repr

/-- One run of `advance` after its first transaction. -/
structure Worker where
  route : Route
  phase : Phase
  deriving DecidableEq, Repr

/-- The guest confirmed the worker's version, or the machine is gone. -/
def Worker.confirmed (worker : Worker) : Bool := worker.phase matches .answered (some _)

structure State where
  store : Store
  guests : MachineId → Guest
  workers : List Worker
  /-- The acknowledgements still being recorded. -/
  acknowledging : List (List (Hostname × Nat))
  /-- The snapshots handed to the gateway, newest first. -/
  handed : List GatewayState
  /-- The snapshot the gateway acknowledged last. -/
  acknowledged : Option GatewayState

namespace State

/-- Some acknowledgement still has `version` to record. -/
def PendingIn (acknowledging : List (List (Hostname × Nat))) (hostname : Hostname)
    (version : Nat) : Prop := ∃ batch ∈ acknowledging, (hostname, version) ∈ batch

/-- An acknowledgement of `version` was read and is still to be recorded. -/
def Pending (s : State) : Hostname → Nat → Prop := PendingIn s.acknowledging

/-- No route was ever published. -/
def initial (machines : List MachineRow) : State :=
  ⟨⟨machines, [], []⟩, fun _ => Guest.empty, [], [], [], none⟩

end State

/-! ## Steps -/

inductive Event where
  | mutate (env : Surroundings) (principal : Principal) (command : RouteCommand)
  | claim (hostname : Hostname)
  | applyGuest (worker : Nat) (observed : Except Fault String)
  | guest (worker : Nat) (cut : Guest.Cut)
  | giveUp (worker : Nat)
  | finish (worker : Nat)
  | stop (worker : Nat)
  | snapshot
  | acknowledge (revision : Revision)
  | record (acknowledgement : Nat)
  | abandon (acknowledgement : Nat)
  | machine (id : MachineId) (state : MachineState)

/-- The request of a publication. -/
def Event.publication? : Event → Option RoutePublish
  | .mutate _ _ (.publish request) => some request
  | _ => none

/-- The worker's answer from its guest. -/
def Worker.answer (worker : Worker) (target : Target)
    (reply : Except Fault (Option GuestRoute)) : Worker :=
  if reply = .ok (some worker.route.guestRoute) then
    { worker with phase := .answered (some target) }
  else { worker with phase := .failed }

/-- A transaction of a worker that ends with it; a transaction that throws writes nothing. -/
def Store.orElse (store : Store) (result : Except Fault Store) : Store :=
  match result with
  | .ok next => next
  | .error _ => store

def step (config : Config) (s : State) : Event → Option State
  | .mutate env principal command =>
    match mutate config env principal command s.store with
    | .ok (_, store) => some { s with store }
    | .error _ => some s
  | .claim hostname =>
    match advanceClaim hostname s.store with
    | .ok (none, store) => some { s with store }
    | .ok (some route, store) => some { s with store, workers := s.workers ++ [⟨route, .claimed⟩] }
    | .error _ => some s
  | .applyGuest i observed =>
    match s.workers[i]? with
    | some ⟨route, .claimed⟩ =>
      match applyGuest s.store observed route with
      | .ok (some target) => some { s with workers := s.workers.set i ⟨route, .commanded target⟩ }
      | .ok none => some { s with workers := s.workers.set i ⟨route, .answered none⟩ }
      | .error _ => some { s with workers := s.workers.set i ⟨route, .failed⟩ }
    | _ => none
  | .guest i cut =>
    match s.workers[i]? with
    | some ⟨route, .commanded target⟩ =>
      let (reply, guest) := (s.guests route.machineId).command cut route.guestCommand
      some { s with
        guests := Function.update s.guests route.machineId guest
        workers := s.workers.set i (Worker.answer ⟨route, .commanded target⟩ target reply) }
    | some ⟨route, .lost⟩ =>
      let (_, guest) := (s.guests route.machineId).command cut route.guestCommand
      some { s with
        guests := Function.update s.guests route.machineId guest
        workers := s.workers.eraseIdx i }
    | _ => none
  | .giveUp i =>
    match s.workers[i]? with
    | some ⟨route, .commanded _⟩ =>
      some { s with workers := s.workers.set i ⟨route, .failed⟩ ++ [⟨route, .lost⟩] }
    | _ => none
  | .finish i =>
    match s.workers[i]? with
    | some ⟨route, .answered target⟩ =>
      some { s with
        store := s.store.orElse (advanceRecord route target s.store)
        workers := s.workers.eraseIdx i }
    | some ⟨route, .failed⟩ =>
      some { s with
        store := s.store.orElse (advanceBlock route s.store)
        workers := s.workers.eraseIdx i }
    | _ => none
  | .stop i =>
    match s.workers[i]? with
    | some ⟨route, .commanded _⟩ => some { s with workers := s.workers.set i ⟨route, .lost⟩ }
    | some _ => some { s with workers := s.workers.eraseIdx i }
    | none => none
  | .snapshot =>
    match gatewayState s.store with
    | .ok current => some { s with handed := current :: s.handed }
    | .error _ => some s
  | .acknowledge revision =>
    if revision ∈ s.handed.map (·.revision) then
      match gatewayState s.store with
      | .ok current =>
        if current.revision = revision then
          some { s with
            acknowledging := current.versions :: s.acknowledging
            acknowledged := some current }
        else some s
      | .error _ => some s
    else none
  | .record i =>
    match s.acknowledging[i]? with
    | some ((hostname, version) :: rest) =>
      some { s with
        store := s.store.orElse (recordAcknowledgement hostname version s.store)
        acknowledging := s.acknowledging.set i rest }
    | _ => none
  | .abandon i => some { s with acknowledging := s.acknowledging.eraseIdx i }
  | .machine id state =>
    match s.store.machine id with
    | none => none
    | some row =>
      if row.state.mayBecome state then
        some { s with store := { s.store with
          machines := Table.update MachineRow.id s.store.machines id fun row =>
            { row with state } } }
      else none

def hosting (config : Config) : Protocol State Event := ⟨step config⟩

/-! ## What a step may change -/

/-- The workers all run on routes of `s`, and none was confirmed meanwhile. -/
def Carried (s : State) (worker : Worker) : Prop :=
  ∃ old ∈ s.workers, worker.route = old.route ∧ (worker.confirmed → old.confirmed)

inductive Change (config : Config) (e : Event) (s : State) : State → Prop where
  /-- Messages are lost, workers stop or fail. -/
  | quiet (workers : List Worker) (acknowledging : List (List (Hostname × Nat)))
      (carried : ∀ w ∈ workers, Carried s w)
      (fewer : ∀ h v, State.PendingIn acknowledging h v → s.Pending h v) :
      Change config e s { s with workers, acknowledging }
  | admitted (env : Surroundings) (principal : Principal) (command : RouteCommand) (route : Route)
      (store : Store) (event : e = .mutate env principal command)
      (admitted : Admitted config s.store command route store) :
      Change config e s { s with store }
  /-- An attempt is claimed or a version blocked. -/
  | attempted (hostname : Hostname) (row : RouteRow) (application : Application)
      (workers : List Worker) (here : s.store.route hostname = some row)
      (name : row.record.hostname = hostname)
      (carried : ∀ w ∈ workers, Carried s w ∨
        (w.route = { row.record with application } ∧ w.confirmed = false)) :
      Change config e s { s with
        store := s.store.setRecord hostname { row.record with application }
        workers }
  /-- A guest executes a worker's command. -/
  | commanded (worker : Worker) (cut : Guest.Cut) (workers : List Worker)
      (mem : worker ∈ s.workers)
      (carried : ∀ w ∈ workers, Carried s w ∨ (w.route = worker.route ∧
        ((s.guests worker.route.machineId).command cut worker.route.guestCommand).1 =
          .ok (some worker.route.guestRoute))) :
      Change config e s { s with
        guests := Function.update s.guests worker.route.machineId
          ((s.guests worker.route.machineId).command cut worker.route.guestCommand).2
        workers }
  /-- A confirmed version, or the removal of a route whose machine is gone, becomes the target. -/
  | recorded (worker : Worker) (target : Option Target) (row : RouteRow) (store : Store)
      (workers : List Worker) (mem : worker ∈ s.workers) (phase : worker.phase = .answered target)
      (here : s.store.route worker.route.hostname = some row)
      (newest : row.record.version = worker.route.version)
      (name : row.record.hostname = worker.route.hostname)
      (machines : store.machines = s.store.machines)
      (commands : store.commands = s.store.commands)
      (keyed : Table.Keyed RouteRow.hostname s.store.routes →
        Table.Keyed RouteRow.hostname store.routes)
      (routes : ∀ h, store.route h = if h = worker.route.hostname
        then some (Hosting.recorded worker.route target row) else s.store.route h)
      (carried : ∀ w ∈ workers, Carried s w) :
      Change config e s { s with store, workers }
  | handed (current : GatewayState) (read : gatewayState s.store = .ok current) :
      Change config e s { s with handed := current :: s.handed }
  | acknowledging (current earlier : GatewayState) (read : gatewayState s.store = .ok current)
      (mem : earlier ∈ s.handed) (same : current.revision = earlier.revision) :
      Change config e s { s with
        acknowledging := current.versions :: s.acknowledging
        acknowledged := some current }
  | passed (hostname : Hostname) (version : Nat) (row : RouteRow)
      (acknowledging : List (List (Hostname × Nat))) (pending : s.Pending hostname version)
      (here : s.store.route hostname = some row) (name : row.record.hostname = hostname)
      (raised : row.record.gatewayAppliedVersion.getD 0 < version)
      (fewer : ∀ h v, State.PendingIn acknowledging h v → s.Pending h v) :
      Change config e s { s with
        store := s.store.setRecord hostname
          { row.record with gatewayAppliedVersion := some version }
        acknowledging }
  | machine (id : MachineId) (state : MachineState) (row : MachineRow)
      (here : s.store.machine id = some row) (forward : row.state.mayBecome state) :
      Change config e s { s with store := { s.store with
        machines := Table.update MachineRow.id s.store.machines id fun row =>
          { row with state } } }

theorem Change.refl {config : Config} {e : Event} {s : State} : Change config e s s :=
  .quiet s.workers s.acknowledging (fun w hw => ⟨w, hw, rfl, id⟩) fun _ _ h => h

theorem carried_self {s : State} {w : Worker} (h : w ∈ s.workers) : Carried s w :=
  ⟨w, h, rfl, id⟩

theorem carried_eraseIdx {s : State} {i : Nat} : ∀ w ∈ s.workers.eraseIdx i, Carried s w :=
  fun _ hw => carried_self (List.mem_of_mem_eraseIdx hw)

/-- Replacing a worker by one on the same route. -/
theorem carried_set {s : State} {i : Nat} {old new : Worker} (h : s.workers[i]? = some old)
    (hroute : new.route = old.route) (hnew : new.confirmed = false) :
    ∀ w ∈ s.workers.set i new, Carried s w := by
  intro w hw
  rcases List.mem_or_eq_of_mem_set hw with hw | rfl
  · exact carried_self hw
  · exact ⟨old, List.mem_of_getElem? h, hroute, by simp [hnew]⟩

/-- A step that rewrites one worker, to an unconfirmed one on the same route. -/
theorem Change.set {config : Config} {e : Event} {s : State} {i : Nat} {old new : Worker}
    (h : s.workers[i]? = some old) (hroute : new.route = old.route)
    (hnew : new.confirmed = false) :
    Change config e s { s with workers := s.workers.set i new } :=
  .quiet _ s.acknowledging (carried_set h hroute hnew) fun _ _ h => h

/-- **The executable protocol makes only these changes.** -/
theorem step_change {config : Config} {s t : State} {e : Event} (h : step config s e = some t) :
    Change config e s t := by
  cases e with
  | mutate env principal command =>
    simp only [step] at h
    split at h
    · next route store hm =>
      cases h
      rcases mutate_ok hm with rfl | hadm
      · exact .refl
      · exact .admitted env principal command route store rfl hadm
    · cases h; exact .refl
  | claim hostname =>
    simp only [step] at h
    split at h
    · next store hc =>
      cases h
      rcases advanceClaim_ok hc with ⟨-, rfl⟩ | ⟨row, application, here, name, rfl, -⟩
      · exact .refl
      · exact .attempted hostname row application s.workers here name
          fun w hw => .inl (carried_self hw)
    · next route store hc =>
      cases h
      rcases advanceClaim_ok hc with ⟨hn, -⟩ | ⟨row, application, here, name, rfl, hroute⟩
      · cases hn
      · refine .attempted hostname row application _ here name fun w hw => ?_
        rcases List.mem_append.mp hw with hw | hw
        · exact .inl (carried_self hw)
        · rw [List.mem_singleton] at hw
          exact .inr ⟨by rw [hw]; exact hroute route rfl, by rw [hw]; rfl⟩
    · cases h; exact .refl
  | applyGuest i observed =>
    simp only [step] at h
    split at h
    · next route hw =>
      split at h <;> cases h <;> exact .set hw rfl rfl
    · cases h
  | guest i cut =>
    simp only [step] at h
    split at h
    · next route target hw =>
      cases h
      refine .commanded ⟨route, .commanded target⟩ cut _ (List.mem_of_getElem? hw) fun w hw' => ?_
      rcases List.mem_or_eq_of_mem_set hw' with hw' | rfl
      · exact .inl (carried_self hw')
      · -- the worker is confirmed only by exactly the reply it waits for
        unfold Worker.answer
        split
        · next hreply => exact .inr ⟨rfl, hreply⟩
        · exact .inl ⟨_, List.mem_of_getElem? hw, rfl, by simp [Worker.confirmed]⟩
    · next route hw =>
      cases h
      exact .commanded ⟨route, .lost⟩ cut _ (List.mem_of_getElem? hw)
        fun w hw' => .inl (carried_eraseIdx w hw')
    · cases h
  | giveUp i =>
    simp only [step] at h
    split at h
    · next route target hw =>
      cases h
      refine .quiet _ s.acknowledging (fun w hw' => ?_) fun _ _ h => h
      rcases List.mem_append.mp hw' with hw' | hw'
      · exact carried_set hw (by rfl) (by rfl) w hw'
      · rw [List.mem_singleton] at hw'
        exact ⟨_, List.mem_of_getElem? hw, by rw [hw'], by simp [hw', Worker.confirmed]⟩
    · cases h
  | finish i =>
    simp only [step] at h
    split at h
    · next route target hw =>
      cases h
      cases hr : advanceRecord route target s.store with
      | error fault => exact .quiet _ s.acknowledging carried_eraseIdx fun _ _ h => h
      | ok store =>
        rcases advanceRecord_ok hr with rfl | ⟨row, here, newest, name, machines,
          commands, keyed, routes⟩
        · exact .quiet _ s.acknowledging carried_eraseIdx fun _ _ h => h
        · exact .recorded ⟨route, .answered target⟩ target row store _ (List.mem_of_getElem? hw)
            rfl here newest name machines commands keyed routes carried_eraseIdx
    · next route hw =>
      cases h
      cases hr : advanceBlock route s.store with
      | error fault => exact .quiet _ s.acknowledging carried_eraseIdx fun _ _ h => h
      | ok store =>
        rcases advanceBlock_ok hr with rfl | ⟨row, application, here, name, rfl⟩
        · exact .quiet _ s.acknowledging carried_eraseIdx fun _ _ h => h
        · exact .attempted route.hostname row application _ here name
            fun w hw' => .inl (carried_eraseIdx w hw')
    · cases h
  | stop i =>
    simp only [step] at h
    split at h
    · next route target hw => cases h; exact .set hw rfl rfl
    · cases h; exact .quiet _ s.acknowledging carried_eraseIdx fun _ _ h => h
    · cases h
  | snapshot =>
    simp only [step] at h
    split at h
    · next current hg => cases h; exact .handed current hg
    · cases h; exact .refl
  | acknowledge revision =>
    simp only [step] at h
    split at h
    · next hrev =>
      obtain ⟨earlier, hm, rfl⟩ := List.mem_map.mp hrev
      split at h
      · next current hg =>
        split at h
        · next hsame => cases h; exact .acknowledging current earlier hg hm hsame
        · cases h; exact .refl
      · cases h; exact .refl
    · cases h
  | record i =>
    simp only [step] at h
    split at h
    · next hostname version rest hb =>
      cases h
      have hmem := List.mem_of_getElem? hb
      have fewer : ∀ h v, State.PendingIn (s.acknowledging.set i rest) h v → s.Pending h v := by
        rintro h v ⟨batch, hbatch, hv⟩
        rcases List.mem_or_eq_of_mem_set hbatch with hbatch | rfl
        · exact ⟨batch, hbatch, hv⟩
        · exact ⟨_, hmem, by simp [hv]⟩
      cases hr : recordAcknowledgement hostname version s.store with
      | error fault => exact .quiet s.workers _ (fun w hw => carried_self hw) fewer
      | ok store =>
        rcases recordAcknowledgement_ok hr with rfl | ⟨row, here, name, raised, rfl⟩
        · exact .quiet s.workers _ (fun w hw => carried_self hw) fewer
        · exact .passed hostname version row _ ⟨_, hmem, by simp⟩ here name raised fewer
    · cases h
  | abandon i =>
    simp only [step, Option.some.injEq] at h
    subst h
    refine .quiet s.workers _ (fun w hw => carried_self hw) ?_
    rintro h v ⟨batch, hbatch, hv⟩
    exact ⟨batch, List.mem_of_mem_eraseIdx hbatch, hv⟩
  | machine id state =>
    simp only [step] at h
    split at h
    · cases h
    · next row hrow =>
      split at h
      · next hf => cases h; exact .machine id state row hrow hf
      · cases h

end AgentCloud.Hosting
