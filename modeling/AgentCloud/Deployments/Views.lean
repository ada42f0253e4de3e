/-
  THE STORE OF RELEASES: what a command and the worker may do to one application.

  `View` is what matters of an application's files, with the list of heads it has had, the releases
  that succeeded and the ones `compose up` was run for.  `ByCommand` and `ByWorker` list the changes
  of the two parties, each under the condition that its program has established by then.

  The heads carry the order of everything.  A head is replaced only when its release is over, so the
  earlier heads are all over; a release that is not among them was recorded but never made the head,
  and is queued for ever unless a retry publishes it.  `previous` and `ordered` say what a release
  knows of the ones before it: the last success among the heads it was recorded after, and an origin
  that succeeded before it did.
-/
import AgentCloud.Deployments.Programs

namespace AgentCloud.Deployments

open Durable
open Compose (ComposeConfig)

/-! ## Views -/

structure View where
  app : AppName
  head : Option ReleaseId
  names : List ReleaseId
  heads : List ReleaseId
  succeeded : List ReleaseId
  state : ReleaseId → Option ComposeRelease
  request : ReleaseId → Option ComposeRequest
  runtime : ReleaseId → Option ComposeConfig
  ups : List ReleaseId

/-- The release that a call starts. -/
def Call.ups (app : AppName) : Call → List ReleaseId
  | .up other id _ _ => if other = app then [id] else []
  | _ => []

def view (w : World Guest) (app : AppName) : View where
  app
  head := (w.store.apps app).head
  names := (w.store.apps app).names
  heads := (w.store.apps app).heads
  succeeded := (w.store.apps app).succeeded
  state id := (w.store.release app id).state
  request id := (w.store.release app id).request
  runtime id := (w.store.release app id).runtime
  ups := w.log.flatMap fun e => e.call.ups app

/-- How far a release is; nothing leads back. -/
def Phase.stage : Phase → Nat
  | .queued => 0
  | .preparing => 1
  | .applying => 2
  | _ => 3

theorem Phase.terminal_iff {phase : Phase} : phase.terminal = true ↔ phase.stage = 3 := by
  cases phase <;> simp [terminal, stage]

namespace View

variable (v : View)

def Over (id : ReleaseId) : Prop := ∃ r, v.state id = some r ∧ r.phase.terminal = true

def Succeeded (id : ReleaseId) : Prop := ∃ r, v.state id = some r ∧ r.phase = .succeeded

/-- No deployment is active. -/
def Idle : Prop := ∀ id, v.head = some id → v.Over id

/-- The last release of a list that succeeded. -/
def latest (ids : List ReleaseId) : Option ReleaseId :=
  (ids.filter fun id => (v.state id).any fun r => decide (r.phase = .succeeded)).getLast?

/-- The release runs the configuration it says, and a recovery that of its origin. -/
def Rendered (id : ReleaseId) (r : ComposeRelease) : Prop :=
  r.configDigest.isSome ∧ v.runtime id = r.configDigest ∧
    ∀ origin, r.requestDigest.change = .recover origin →
      ∃ other, v.state origin = some other ∧ other.phase = .succeeded ∧
        other.configDigest = r.configDigest

end View

/-- The changes of a command. -/
inductive ByCommand (v : View) : View → Prop where
  | name (id : ReleaseId) (new : id ∉ v.names) (room : v.names.length < 128) :
      ByCommand v { v with names := v.names ++ [id] }
  | request (q : ComposeRequest) (new : v.request q.releaseId = none)
      (named : q.releaseId ∈ v.names) (own : q.app = v.app)
      (origin : ∀ o, q.change.origin? = some o → v.Succeeded o) :
      ByCommand v { v with request := Function.update v.request q.releaseId (some q) }
  | record (r : ComposeRelease) (new : v.state r.id = none) (queued : r.phase = .queued)
      (digest : v.request r.id = some r.requestDigest) (id : r.requestDigest.releaseId = r.id)
      (expected : r.requestDigest.expectedReleaseId = v.head) (idle : v.Idle)
      (previous : r.previousSuccessfulReleaseId = v.latest v.heads) :
      ByCommand v { v with state := Function.update v.state r.id (some r) }
  | publish (r : ComposeRelease) (state : v.state r.id = some r) (new : r.id ∉ v.heads)
      (idle : v.Idle) (expected : r.requestDigest.expectedReleaseId = v.head) :
      ByCommand v { v with head := some r.id, heads := v.heads ++ [r.id] }

/-- The changes of the worker: all of them to the head. -/
inductive ByWorker (v : View) : View → Prop where
  | advance (id : ReleaseId) (r r' : ComposeRelease) (head : v.head = some id)
      (state : v.state id = some r) (next : r.phase.stage < r'.phase.stage)
      (same : r'.id = r.id ∧ r'.requestDigest = r.requestDigest ∧
        r'.previousSuccessfulReleaseId = r.previousSuccessfulReleaseId)
      (unfinished : r'.phase ≠ .succeeded) (rendered : r'.phase = .applying → v.Rendered id r') :
      ByWorker v { v with state := Function.update v.state id (some r') }
  | success (id : ReleaseId) (r r' : ComposeRelease) (head : v.head = some id)
      (state : v.state id = some r) (applying : r.phase = .applying)
      (same : r'.id = r.id ∧ r'.requestDigest = r.requestDigest ∧
        r'.previousSuccessfulReleaseId = r.previousSuccessfulReleaseId ∧
        r'.configDigest = r.configDigest)
      (phase : r'.phase = .succeeded) :
      ByWorker v { v with
        state := Function.update v.state id (some r'), succeeded := v.succeeded ++ [id] }
  | render (id : ReleaseId) (r : ComposeRelease) (config : ComposeConfig)
      (head : v.head = some id) (state : v.state id = some r) (phase : r.phase = .preparing) :
      ByWorker v { v with runtime := Function.update v.runtime id (some config) }
  | up (id : ReleaseId) (r : ComposeRelease) (head : v.head = some id)
      (state : v.state id = some r) (phase : r.phase = .applying) (new : id ∉ v.ups) :
      ByWorker v { v with ups := v.ups ++ [id] }

def Change.step (v v' : View) : Prop := ByCommand v v' ∨ ByWorker v v'

/-! ## The invariant -/

/-- What a recorded release knows of the heads before it. -/
def Preceded (v : View) (id : ReleaseId) (r : ComposeRelease) : Prop :=
  ∃ before, before <+: v.heads ∧ r.requestDigest.expectedReleaseId = before.getLast? ∧
    (id ∈ v.heads → before ++ [id] <+: v.heads) ∧ (∀ b ∈ before, v.Over b) ∧
    r.previousSuccessfulReleaseId = v.latest before

structure ViewValid (v : View) : Prop where
  head : v.head = v.heads.getLast?
  nodup : v.heads.Nodup
  recorded : ∀ id ∈ v.heads, (v.state id).isSome
  ended : ∀ id ∈ v.heads, v.head ≠ some id → v.Over id
  orphan : ∀ id r, v.state id = some r → id ∉ v.heads → r.phase = .queued
  saved : ∀ id r, v.state id = some r → r.id = id ∧ v.request id = some r.requestDigest
  requested : ∀ id q, v.request id = some q → id ∈ v.names ∧ q.releaseId = id ∧
    ∀ o, q.change.origin? = some o → v.Succeeded o
  own : ∀ id q, v.request id = some q → q.app = v.app
  names : v.names.Nodup ∧ v.names.length ≤ 128
  ups : v.ups.Nodup ∧ ∀ id ∈ v.ups, ∃ r, v.state id = some r ∧ 2 ≤ r.phase.stage
  previous : ∀ id r, v.state id = some r → Preceded v id r
  succeeded : ∀ id, id ∈ v.succeeded ↔ v.Succeeded id
  once : v.succeeded.Nodup
  ordered : ∀ pre id post, v.succeeded = pre ++ id :: post → ∀ q, v.request id = some q →
    ∀ o, q.change.origin? = some o → o ∈ pre
  rendered : ∀ id r, v.state id = some r → r.phase = .applying ∨ r.phase = .succeeded →
    v.Rendered id r

/-- A view on an application that was never deployed. -/
def View.empty (app : AppName) : View :=
  ⟨app, .none, [], [], [], fun _ => .none, fun _ => .none, fun _ => .none, []⟩

theorem empty_valid (app : AppName) : ViewValid (.empty app) where
  head := rfl
  nodup := List.nodup_nil
  recorded _ h := by cases h
  ended _ h := by cases h
  orphan _ _ h := by cases h
  saved _ _ h := by cases h
  requested _ _ h := by cases h
  own _ _ h := by cases h
  names := ⟨List.nodup_nil, Nat.zero_le _⟩
  ups := ⟨List.nodup_nil, fun _ h => by cases h⟩
  previous _ _ h := by cases h
  succeeded id := by
    constructor
    · intro h
      cases h
    · rintro ⟨r, hr, -⟩
      cases hr
  once := List.nodup_nil
  ordered pre id post h := by
    have := congrArg List.length h
    simp [View.empty] at this
  rendered _ _ h := by cases h

/-! ## Lists -/

theorem nodup_concat {α : Type} {l : List α} {a : α} (h : l.Nodup) (ha : a ∉ l) :
    (l ++ [a]).Nodup := by
  rw [List.nodup_append]
  refine ⟨h, by simp, fun b hb c hc heq => ha ?_⟩
  rw [List.mem_singleton] at hc
  exact hc ▸ heq ▸ hb

/-- Two prefixes of a list without repetitions that end alike are the same; here, one of them is
    the whole list. -/
theorem eq_of_prefix_of_getLast? {α : Type} {before all : List α} (hnodup : all.Nodup)
    (hbegin : before <+: all) (hlast : before.getLast? = all.getLast?) : before = all := by
  obtain ⟨rest, rfl⟩ := hbegin
  cases rest using List.reverseRecOn with
  | nil => exact (List.append_nil before).symm
  | append_singleton rest a =>
    rw [← List.append_assoc, List.getLast?_concat] at hlast
    obtain ⟨pre, rfl⟩ := List.getLast?_eq_some_iff.mp hlast
    exact ((List.nodup_append.mp hnodup).2.2 a (by simp) a (by simp) rfl).elim

namespace View

variable {v v' : View} {id : ReleaseId}

theorem latest_concat (ids : List ReleaseId) (id : ReleaseId) :
    v.latest (ids ++ [id]) = if (v.state id).any (fun r => decide (r.phase = .succeeded)) = true
      then some id else v.latest ids := by
  unfold latest
  rw [List.filter_append]
  split
  · next h => simp [h]
  · next h => simp [h]

/-- The last success among releases whose states are kept. -/
theorem latest_congr {ids : List ReleaseId} (h : ∀ id ∈ ids, v'.state id = v.state id) :
    v'.latest ids = v.latest ids := by
  unfold latest
  rw [List.filter_congr fun id hid => by rw [h id hid]]

theorem Over.mono (h : v.Over id) (hstate : ∀ r, v.state id = some r → v'.state id = some r) :
    v'.Over id := by
  obtain ⟨r, hr, hterminal⟩ := h
  exact ⟨r, hstate r hr, hterminal⟩

theorem Succeeded.ended (h : v.Succeeded id) : v.Over id := by
  obtain ⟨r, hr, hphase⟩ := h
  exact ⟨r, hr, by rw [hphase]; rfl⟩

end View

/-! ## What changes keep -/

variable {v v' : View} {id : ReleaseId}

/-- A state changes from nothing, or from a release that is not over. -/
theorem Change.step.kept (h : Change.step v v') {r : ComposeRelease} (hr : v.state id = some r)
    (hterminal : r.phase.terminal = true) : v'.state id = some r := by
  rw [Phase.terminal_iff] at hterminal
  rcases h with h | h
  · cases h with
    | record new hnew queued digest hid expected idle previous =>
      have hne : id ≠ new.id := by
        rintro rfl
        rw [hr] at hnew
        cases hnew
      rw [← hr]
      exact Function.update_of_ne hne _ _
    | name id' hnew room => exact hr
    | request q hnew named own origin => exact hr
    | publish r' state hnew idle expected => exact hr
  · cases h with
    | advance other old new head state next same unfinished rendered =>
      have hne : id ≠ other := by
        rintro rfl
        rw [hr] at state
        obtain rfl := Option.some.inj state
        have : new.phase.stage ≤ 3 := by cases new.phase <;> simp [Phase.stage]
        omega
      rw [← hr]
      exact Function.update_of_ne hne _ _
    | success other old new head state applying same phase =>
      have hne : id ≠ other := by
        rintro rfl
        rw [hr] at state
        obtain rfl := Option.some.inj state
        rw [applying] at hterminal
        cases hterminal
      rw [← hr]
      exact Function.update_of_ne hne _ _
    | render other old config head state phase => exact hr
    | up other old head state phase new => exact hr

theorem View.Over.step (h : v.Over id) (hstep : Change.step v v') : v'.Over id := by
  obtain ⟨r, hr, hterminal⟩ := h
  exact ⟨r, hstep.kept hr hterminal, hterminal⟩

theorem View.Succeeded.step (h : v.Succeeded id) (hstep : Change.step v v') :
    v'.Succeeded id := by
  obtain ⟨r, hr, hphase⟩ := h
  exact ⟨r, hstep.kept hr (by rw [hphase]; rfl), hphase⟩

/-- The last success among releases that are over stays. -/
theorem View.latest_step (hstep : Change.step v v') {ids : List ReleaseId}
    (h : ∀ id ∈ ids, v.Over id) : v'.latest ids = v.latest ids := by
  refine View.latest_congr fun id hid => ?_
  obtain ⟨r, hr, hterminal⟩ := h id hid
  rw [hr, hstep.kept hr hterminal]

theorem Preceded.step {r r' : ComposeRelease} (h : Preceded v id r) (hstep : Change.step v v')
    (hsame : r'.requestDigest = r.requestDigest ∧
      r'.previousSuccessfulReleaseId = r.previousSuccessfulReleaseId)
    (hheads : v'.heads = v.heads) : Preceded v' id r' := by
  obtain ⟨before, hbegin, hexpected, hplace, hover, hprevious⟩ := h
  refine ⟨before, hheads ▸ hbegin, by rw [hsame.1]; exact hexpected, ?_, ?_, ?_⟩
  · rw [hheads]
    exact hplace
  · exact fun b hb => (hover b hb).step hstep
  · rw [hsame.2, hprevious, View.latest_step hstep hover]

/-- A rendered release stays rendered as long as its own file does. -/
theorem View.Rendered.step {r : ComposeRelease} (h : v.Rendered id r) (hstep : Change.step v v')
    (hruntime : v'.runtime id = v.runtime id) : v'.Rendered id r := by
  obtain ⟨hsome, hsame, horigin⟩ := h
  refine ⟨hsome, hruntime.trans hsame, fun origin ho => ?_⟩
  obtain ⟨other, hother, hphase, hconfig⟩ := horigin origin ho
  exact ⟨other, hstep.kept hother (by rw [hphase]; rfl), hphase, hconfig⟩

end AgentCloud.Deployments
