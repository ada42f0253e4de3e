/-
  WHAT A RUN ID STANDS FOR: one execution at most, and one result.

  `command_runs_at_most_once` holds of every run of the guest: with any commands, worker starts,
  crashes and reboots.  It is read off `Settled`: whatever bars a run from being spawned settles it.

  The result is another matter.  A summary that read `result.json` before the worker published, and
  asks for the unit after the worker is gone, derives an outcome and saves it over the published
  one (`Demo.result_lost`).  `results_stable` shows that this is the only way to lose a result.
-/
import AgentCloud.Commands.Working

namespace AgentCloud.Commands

open Durable

variable {attentive : Prop}

/-! ## What lasts -/

/-- What every run of the guest leaves of a run's life. -/
structure Lasts (w w' : World Guest) : Prop where
  request : ∀ id r, (life w id).request = some r → (life w' id).request = some r
  settled : ∀ id, Settled w.store.bootId (life w id) →
    Settled w'.store.bootId (life w' id) ∧ spawned w' id = spawned w id
  reboot : ∀ id, (life w id).request.isSome → w'.store.bootId ≠ w.store.bootId →
    Settled w'.store.bootId (life w' id)

theorem Lasts.refl (w : World Guest) : Lasts w w :=
  ⟨fun _ _ h => h, fun _ h => ⟨h, rfl⟩, fun _ _ h => (h rfl).elim⟩

theorem Lasts.trans {a b c : World Guest} (h : Lasts a b) (h' : Lasts b c) : Lasts a c where
  request id r hr := h'.request id r (h.request id r hr)
  settled id hs := by
    obtain ⟨hb, heq⟩ := h.settled id hs
    obtain ⟨hc, heq'⟩ := h'.settled id hb
    exact ⟨hc, heq'.trans heq⟩
  reboot id hr hne := by
    by_cases hboot : b.store.bootId = a.store.bootId
    · obtain ⟨r, hsome⟩ := Option.isSome_iff_exists.mp hr
      refine h'.reboot id ?_ (hboot ▸ hne)
      rw [h.request id r hsome]
      rfl
    · exact (h'.settled id (h.reboot id hr hboot)).1

theorem Does.lasts {k : Slot} {w w' : World Guest} (hv : Valid attentive w)
    (h : Does attentive k w w') : Lasts w w' where
  request id r hr := by
    rcases h.lives id with heq | hstep
    · rw [heq]
      exact hr
    · exact hstep.request hr
  settled id hs := by
    rw [h.bootId]
    rcases h.lives id with heq | hstep
    · rw [heq]
      exact ⟨hs, congrArg Life.spawned heq⟩
    · exact hs.step (hv.lives id) hstep
  reboot id _ hne := (hne h.bootId).elim

theorem Reboots.lasts {w : World Guest} {s : Store} (h : Reboots w.store s) : Lasts w (w.put s) := by
  obtain ⟨bootId, hnew, rfl⟩ := h
  refine ⟨fun id r hr => hr, fun id hs => ?_, fun id hr _ => ?_⟩
  · obtain ⟨request, hrequest, -⟩ := hs
    rw [life_reboot]
    exact ⟨settled_reboot hrequest (hnew id request hrequest), rfl⟩
  · obtain ⟨request, hrequest⟩ := Option.isSome_iff_exists.mp hr
    rw [life_reboot]
    exact settled_reboot hrequest (hnew id request hrequest)

/-- **Run lemma.** -/
theorem lasts {c c' : Config Guest Slot} (hc : Discipline.InOrder (contract attentive) c)
    (h : (guest attentive).Reach c c') : Lasts c.world c'.world :=
  (guest_keeps attentive).transition Lasts.refl (fun h h' => h.trans h')
    (fun hv hd => Does.lasts hv hd) (fun _ hr => Reboots.lasts hr) hc h

/-! ## At most one execution -/

/-- A cancellation is on record, and no worker has looked for one yet. -/
def CancelledInTime (w : World Guest) (id : RunId) : Prop :=
  (w.store.records id).cancelled.isSome ∧
    (w.store.units id = none ∨ w.store.units id = some .begun)

/-- A summary has reported a final state of a run that was not spawned. -/
def EndedUnspawned (w : World Guest) (id : RunId) : Prop :=
  spawned w id = [] ∧ ∃ r ∈ w.store.reports, r.id = id ∧ r.state.terminal = true

theorem settled_of_cancelled {w : World Guest} {id : RunId} (hv : Valid attentive w)
    (h : CancelledInTime w id) : Settled w.store.bootId (life w id) := by
  obtain ⟨hcancelled, hphase⟩ := h
  obtain ⟨request, hrequest⟩ := Option.isSome_iff_exists.mp
    ((hv.lives id).admitted (.inr (.inl hcancelled)))
  exact ⟨request, hrequest, .inr ⟨.inr hcancelled, hphase⟩⟩

theorem settled_of_ended {w : World Guest} {id : RunId} (hv : Valid attentive w)
    (h : EndedUnspawned w id) : Settled w.store.bootId (life w id) := by
  obtain ⟨hnone, r, hr, rfl, hterminal⟩ := h
  cases hstate : r.state with
  | final result =>
    exact (hv.lives r.id).settled ((hv.reports r hr).final result hstate).1 hnone
  | queued => rw [hstate] at hterminal; cases hterminal
  | running startedAt => rw [hstate] at hterminal; cases hterminal
  | cancelling => rw [hstate] at hterminal; cases hterminal

/-- What the spawns of a run amount to, in a configuration and in all that follow it. -/
structure RunsOnce (c : Config Guest Slot) (id : RunId) : Prop where
  /-- At most one spawn, with the request on record. -/
  once : spawned c.world id = [] ∨ ∃ r, (c.world.store.records id).request = some r ∧
    spawned c.world id = [r.request]
  /-- The request on record is the one admitted first. -/
  first : ∀ c', (guest False).Reach c c' → ∀ r,
    (c.world.store.records id).request = some r → (c'.world.store.records id).request = some r
  /-- No spawn after a reboot since the admission. -/
  rebooted : ∀ c' c'', (guest False).Reach c c' → (guest False).Reach c' c'' →
    (c.world.store.records id).request.isSome →
    c'.world.store.bootId ≠ c.world.store.bootId → spawned c''.world id = spawned c'.world id
  /-- No spawn after a cancellation recorded in time, nor after a final state of a run that was not
      spawned. -/
  barred : CancelledInTime c.world id ∨ EndedUnspawned c.world id →
    ∀ c', (guest False).Reach c c' → spawned c'.world id = spawned c.world id

/-- **At most one execution.**  Whatever commands are given for a run ID, and however workers start,
    crash and reboot: its command is spawned at most once, with the request admitted first, never
    after a reboot since, never after a cancellation that the worker could have seen, and never
    after a final state was reported. -/
theorem command_runs_at_most_once (bootId : BootId) (c : Config Guest Slot)
    (h : (guest False).Reach (Config.idle ⟨Store.fresh bootId, []⟩) c) (id : RunId) :
    RunsOnce c id := by
  have horder := (guest_keeps False).inOrder (fresh_inOrder False bootId) h
  have hv := horder.1
  refine ⟨?_, fun c' hr r hrequest => ?_, fun c' c'' hr hr' hsome hne => ?_, fun hbar c' hr => ?_⟩
  · exact (hv.lives id).once.imp_right fun ⟨_, r, hrequest, heq⟩ => ⟨r, hrequest, heq⟩
  · exact (lasts horder hr).request id r hrequest
  · have hsettled := (lasts horder hr).reboot id hsome hne
    exact ((lasts ((guest_keeps False).inOrder horder hr) hr').settled id hsettled).2
  · have hsettled : Settled c.world.store.bootId (life c.world id) := by
      rcases hbar with hcancelled | hended
      · exact settled_of_cancelled hv hcancelled
      · exact settled_of_ended hv hended
    exact ((lasts horder hr).settled id hsettled).2

/-! ## One result -/

/-- The result of a run is stable: the worker's is on record, summaries that began after it was
    published report it, and final states agree. -/
structure ResultStable (w : World Guest) (id : RunId) : Prop where
  published : ∀ result, w.store.published id = some result →
    (w.store.records id).result = some result
  told : ∀ r ∈ w.store.reports, r.id = id → ∀ result, r.published = some result →
    r.state = .final result
  agree : ∀ r₁ ∈ w.store.reports, ∀ r₂ ∈ w.store.reports, r₁.id = id → r₂.id = id →
    ∀ result₁ result₂, r₁.state = .final result₁ → r₂.state = .final result₂ → result₁ = result₂

/-- **One result**, in every run in which no unit that has published ends between an inspection's
    reading of `result.json` and its question for the unit. -/
theorem results_stable (bootId : BootId) (c : Config Guest Slot)
    (h : (guest True).Reach (Config.idle ⟨Store.fresh bootId, []⟩) c) (id : RunId) :
    ResultStable c.world id := by
  have hv := ((guest_keeps True).inOrder (fresh_inOrder True bootId) h).1
  refine ⟨fun result hp => ?_, fun r hr _ result hp => ?_, fun r₁ h₁ r₂ h₂ he₁ he₂ R₁ R₂ hR₁ hR₂ => ?_⟩
  · exact ((hv.lives id).published result hp).2 trivial
  · exact (hv.reports r hr).told trivial result hp
  · have hfirst := ((hv.reports r₁ h₁).final R₁ hR₁).2 trivial
    have hsecond := ((hv.reports r₂ h₂).final R₂ hR₂).2 trivial
    rw [he₁] at hfirst
    rw [he₂, hfirst] at hsecond
    exact Option.some.inj hsecond

/-! ## Two runs of a guest -/

namespace Demo

def run : RunId := "3f0a1a52-6d3c-4f5e-9d0e-2f7f7a2b9c11"

def boot : BootId := "8d9f2b60-14a5-4a37-a1a5-6a7f5f0f3a10"

def request : RunRequest := ⟨["/bin/true"], "/var/lib/agent-customer", [], [], 300, 262144⟩

def env (_ : World Guest) : Env := ⟨7, true, .done, 1073741824⟩

/-- systemd says what is the case, or what was: a unit may linger.  The child writes a line and
    exits. -/
def reply (lingers : Bool) (w : World Guest) : (c : SystemCall) → c.Reply
  | .start _ => true
  | .stop id => (w.store.units id).isNone
  | .active id => some (lingers || (w.store.units id).isSome)
  | .activeCount => some 0
  | .spawn _ _ => ⟨[.data .stdout [0x6f, 0x6b, 0x0a]], some 0⟩

theorem honest (lingers : Bool) (w : World Guest) (c : SystemCall) :
    Honest w c (reply lingers w c) := by
  cases c with
  | active id =>
    intro hreply
    have hsaid : (lingers || (w.store.units id).isSome) = false := Option.some.inj hreply
    rw [Bool.or_eq_false_iff] at hsaid
    exact Option.isNone_iff_eq_none.mp (by simpa using hsaid.2)
  | stop id => exact fun hreply => Option.isNone_iff_eq_none.mp hreply
  | start id => trivial
  | activeCount => trivial
  | spawn id request => trivial

def submission : List (Machine.Move Guest Slot) :=
  [.start .wrapper (command (.submit run request)).ignore, .act .wrapper 100, .stop .wrapper]

def inspection : List (Machine.Move Guest Slot) :=
  [.start .wrapper (command (.inspect run)).ignore, .act .wrapper 100, .stop .wrapper]

/-- A run that is submitted, executed and inspected. -/
def plain : List (Machine.Move Guest Slot) :=
  submission ++ [.start (.worker run) (work run), .act (.worker run) 100, .stop (.worker run)] ++
    inspection

/-- The same, with an inspection that reads `result.json` just before it is there and asks for the
    unit just after it is gone. -/
def overlapping : List (Machine.Move Guest Slot) :=
  submission ++ [.start (.worker run) (work run), .act (.worker run) 11,
    .start .wrapper (command (.inspect run)).ignore, .act .wrapper 4,
    .act (.worker run) 100, .stop (.worker run), .act .wrapper 100, .stop .wrapper] ++ inspection

def play (lingers : Bool) (moves : List (Machine.Move Guest Slot)) : Config Guest Slot :=
  moves.foldl ((guest False).play env (reply lingers)) (Config.idle ⟨Store.fresh boot, []⟩)

theorem jobs {moves : List (Machine.Move Guest Slot)} (h : moves = plain ∨ moves = overlapping) :
    ∀ k p, .start k p ∈ moves → IsJob k p := by
  intro k p hmem
  rcases h with rfl | rfl
  · simp [plain, submission, inspection] at hmem
    rcases hmem with ⟨rfl, rfl⟩ | ⟨rfl, rfl⟩ | ⟨rfl, rfl⟩
    · exact .command _
    · exact .work _
    · exact .command _
  · simp [overlapping, submission, inspection] at hmem
    rcases hmem with ⟨rfl, rfl⟩ | ⟨rfl, rfl⟩ | ⟨rfl, rfl⟩
    · exact .command _
    · exact .work _
    · exact .command _

theorem reach_plain :
    (guest False).Reach (Config.idle ⟨Store.fresh boot, []⟩) (play false plain) :=
  (guest False).reach_play env (reply false) (fun w c => ⟨honest false w c, False.elim⟩) plain
    (jobs (.inl rfl)) _

theorem reach_overlapping :
    (guest False).Reach (Config.idle ⟨Store.fresh boot, []⟩) (play false overlapping) :=
  (guest False).reach_play env (reply false) (fun w c => ⟨honest false w c, False.elim⟩) overlapping
    (jobs (.inr rfl)) _

/-- A unit that lingers is never said to be inactive too early. -/
theorem reach_attentive :
    (guest True).Reach (Config.idle ⟨Store.fresh boot, []⟩) (play true plain) := by
  refine (guest True).reach_play env (reply true) (fun w c => ⟨honest true w c, fun _ => ?_⟩) plain
    (jobs (.inl rfl)) _
  cases c with
  | active id => exact fun hreply => by cases hreply
  | stop id => trivial
  | start id => trivial
  | activeCount => trivial
  | spawn id request => trivial

/-- The command of the plain run is spawned once, with its request. -/
theorem ran_once : spawned (play false plain).world run = [request] ∧
    RunsOnce (play false plain) run :=
  ⟨by decide +kernel, command_runs_at_most_once boot _ reach_plain run⟩

/-- The plain run's result is reported and stays. -/
theorem result_kept :
    ⟨run, .final (.exited 0 7), some (.exited 0 7)⟩ ∈ (play true plain).world.store.reports ∧
      ResultStable (play true plain).world run :=
  ⟨by decide +kernel, results_stable boot _ reach_attentive run⟩

/-- **A lost result.**  The worker published an exit code; an inspection that overlapped its end
    replaced it, and every later one reports an interruption. -/
theorem result_lost : ∃ c, (guest False).Reach (Config.idle ⟨Store.fresh boot, []⟩) c ∧
    ¬ ResultStable c.world run := by
  refine ⟨play false overlapping, reach_overlapping, fun hstable => ?_⟩
  have hreported : ⟨run, .final (.terminated .interrupted 7), some (.exited 0 7)⟩ ∈
      (play false overlapping).world.store.reports := by decide +kernel
  have hsame := hstable.told _ hreported rfl _ rfl
  cases hsame

end Demo

end AgentCloud.Commands
