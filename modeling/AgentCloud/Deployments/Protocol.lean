/-
  THE RELEASE PROTOCOL: what holds of the releases of an application in every run of the guest.

  `release_protocol` is read off the invariant and off what a run leaves: states that are over,
  requests and heads last (`Lasts`), and a head is replaced only by a publication, which asks for an
  idle application.

  A command is admitted once the head is written.  One that was interrupted before leaves at most a
  queued release that was never the head, which is never started unless a retry publishes it.
-/
import AgentCloud.Deployments.Working

namespace AgentCloud.Deployments

open Checked Durable Json

variable {app : AppName}

/-! ## What lasts -/

/-- What every run leaves of an application. -/
structure Lasts (v v' : View) : Prop where
  frozen : ∀ id r, v.state id = some r → r.phase.terminal = true → v'.state id = some r
  request : ∀ id q, v.request id = some q → v'.request id = some q
  heads : v.heads <+: v'.heads

theorem Lasts.refl (v : View) : Lasts v v := ⟨fun _ _ h _ => h, fun _ _ h => h, List.prefix_refl _⟩

theorem Lasts.trans {a b c : View} (h : Lasts a b) (h' : Lasts b c) : Lasts a c where
  frozen id r hr hterminal := h'.frozen id r (h.frozen id r hr hterminal) hterminal
  request id q hq := h'.request id q (h.request id q hq)
  heads := h.heads.trans h'.heads

theorem Change.step.lasts {v v' : View} (h : Change.step v v') : Lasts v v' where
  frozen _ _ hr hterminal := h.kept hr hterminal
  request _ _ hq := h.request hq
  heads := by
    rcases h with h | h
    · cases h with
      | publish r state new idle expected => exact List.prefix_append _ _
      | name id new room => exact List.prefix_refl _
      | request q new named own origin => exact List.prefix_refl _
      | record r new queued digest id expected idle previous => exact List.prefix_refl _
    · simp [h.kept.2.2.1]

/-- **Run lemma.** -/
theorem lasts {c c' : Durable.Config Guest Slot} (hc : Discipline.InOrder contract c)
    (h : guest.Reach c c') (app : AppName) : Lasts (view c.world app) (view c'.world app) := by
  have hall := guest_disciplined.transition
    (T := fun w w' => ∀ app, Lasts (view w app) (view w' app)) (fun w app => Lasts.refl _)
    (fun h h' app => (h app).trans (h' app)) (fun {k w w'} _ hdoes app => ?_)
    (fun _ hother => hother.elim) hc h
  · exact hall app
  · rcases hdoes.views app with heq | hstep
    · rw [heq]
      exact Lasts.refl _
    · exact hstep.step.lasts

/-- What holds of an application's releases, in a configuration and from there on. -/
structure Protocol (c : Durable.Config Guest Slot) (app : AppName) : Prop where
  /-- `compose up` runs at most once for a release, and only for one that was made the head. -/
  once : (view c.world app).ups.Nodup ∧ ∀ id ∈ (view c.world app).ups, id ∈ (view c.world app).heads
  /-- A release that is over never changes. -/
  frozen : ∀ c', guest.Reach c c' → ∀ id r, (view c.world app).state id = some r →
    r.phase.terminal = true → (view c'.world app).state id = some r
  /-- The head moves only from a release that is over. -/
  head : ∀ c', guest.Step c c' → (view c'.world app).head ≠ (view c.world app).head →
    (view c.world app).Idle
  /-- Every other release is over, or queued and never was the head. -/
  others : ∀ id r, (view c.world app).state id = some r → (view c.world app).head ≠ some id →
    r.phase.terminal = true ∨ (r.phase = .queued ∧ id ∉ (view c.world app).heads)
  /-- What a release says of the heads before it. -/
  previous : ∀ id r, (view c.world app).state id = some r → Preceded (view c.world app) id r
  /-- A release ID denotes one request. -/
  denotes : ∀ id, (∀ r, (view c.world app).state id = some r →
      (view c.world app).request id = some r.requestDigest) ∧
    ∀ c', guest.Reach c c' → ∀ q, (view c.world app).request id = some q →
      (view c'.world app).request id = some q
  /-- A reply shows the request's own release, once it is the head; a retry of an admitted request
      fails only if a file is not read. -/
  answers : ∀ a ∈ c.world.store.answers, a.request.app = app → Truthful (view c.world app) a

namespace Demo

def shop : AppName := "shop"

def files : List ComposeFile := [⟨"compose.yaml", "c2VydmljZXM6IHt9", false⟩]

def first : ComposeRequest := ⟨shop, "r1", none, 300, .apply "compose.yaml" files⟩

def second : ComposeRequest := ⟨shop, "r2", some "r1", 300, .recover "r1"⟩

def env (_ : World Guest) : Env := ⟨7, true, true, 1073741824⟩

/-- One service of a public image. -/
def rendered : Json := .obj [("services", .obj [("web", .obj [("image", .str "nginx:1.29")])])]

def reply (_ : World Guest) : (c : Call) → c.Reply
  | .wake => .ok ()
  | .config _ _ => .ok rendered
  | .build _ _ => .ok ()
  | .pull _ _ => .ok ()
  | .imageId _ => .ok "sha256:0a"
  | .imageVolumes _ => .ok []
  | .up _ _ _ _ => .ok ()
  | .ps _ _ => .ok ""
  | .logs _ _ _ => .ok ""

def after (p : Job Unit) (w : World Guest) : World Guest := (p.run env reply w).2

/-- A deployment; a recovery of it; both retried. -/
def deployed : World Guest := after work (after (command (.mutate first)) ⟨Store.fresh, []⟩)

def recovered : World Guest := after work (after (command (.mutate second)) deployed)

theorem reach_after {k : Slot} {p : Job Unit} (h : IsJob k p) (w : World Guest) :
    guest.Reach (Durable.Config.idle w) (Durable.Config.idle (after p w)) :=
  System.reach_job guest k env reply (fun _ _ => trivial) p w h

theorem reach_recovered :
    guest.Reach (Durable.Config.idle ⟨Store.fresh, []⟩) (Durable.Config.idle recovered) := by
  have h₁ := reach_after (.command (.mutate first)) ⟨Store.fresh, []⟩
  have h₂ := reach_after .work (after (command (.mutate first)) ⟨Store.fresh, []⟩)
  have h₃ := reach_after (.command (.mutate second)) deployed
  have h₄ := reach_after .work (after (command (.mutate second)) deployed)
  exact ((h₁.trans h₂).trans h₃).trans h₄

end Demo

end AgentCloud.Deployments
