/-
  PROTOCOLS: several parties, each with its own state, and messages in flight between them.

  A protocol is one executable step function on the joint state.  Everything that is not decided
  by the state (which party moves, what a clock shows, whether a message is lost) is in the EVENT,
  so a run is a list of events and a scenario can simply be evaluated (`run`).

  Statements are about every run.  `Reach meets` restricts the steps of a run to those that meet a
  condition on the state BEFORE the step and the event; with the trivial condition it is plain
  reachability.  The two rules turn a fact about one step into a fact about runs: `invariant` for a
  property of states, `transition` for a preorder between the two ends of a run.
-/
import Mathlib.Logic.Relation

structure Protocol (σ ε : Type) where
  step : σ → ε → Option σ

namespace Protocol

variable {σ ε : Type} (P : Protocol σ ε) (meets : σ → ε → Prop)

/-- One step, under an event that meets the condition. -/
def Moves (s t : σ) : Prop := ∃ e, meets s e ∧ P.step s e = some t

/-- Any number of such steps. -/
abbrev Reach : σ → σ → Prop := Relation.ReflTransGen (P.Moves meets)

/-- Any number of steps, without a condition. -/
abbrev Reachable : σ → σ → Prop := P.Reach fun _ _ => True

/-- The run of a list of events; `none` when a step is not enabled. -/
def run : σ → List ε → Option σ
  | s, [] => some s
  | s, e :: es => (P.step s e).bind fun t => run t es

/-- The run of a list of events which stops at the first step that does not meet the condition. -/
def follow [∀ s e, Decidable (meets s e)] : σ → List ε → Option σ
  | s, [] => some s
  | s, e :: es => if meets s e then (P.step s e).bind fun t => follow t es else none

variable {P meets}

theorem run_append {s : σ} {es fs : List ε} :
    P.run s (es ++ fs) = (P.run s es).bind fun t => P.run t fs := by
  induction es generalizing s with
  | nil => rfl
  | cons e es ih =>
    cases h : P.step s e with
    | none => simp [run, h]
    | some t => simpa [run, h] using ih

theorem reachable_of_run {s t : σ} {es : List ε} (h : P.run s es = some t) :
    P.Reachable s t := by
  induction es generalizing s with
  | nil => cases h; exact .refl
  | cons e es ih =>
    obtain ⟨u, hu, hes⟩ := Option.bind_eq_some_iff.mp h
    exact .head ⟨e, trivial, hu⟩ (ih hes)

theorem reach_of_follow [∀ s e, Decidable (meets s e)] {s t : σ} {es : List ε}
    (h : P.follow meets s es = some t) : P.Reach meets s t := by
  induction es generalizing s with
  | nil => cases h; exact .refl
  | cons e es ih =>
    rw [follow] at h
    split at h
    · next hm =>
      obtain ⟨u, hu, hes⟩ := Option.bind_eq_some_iff.mp h
      exact .head ⟨e, hm, hu⟩ (ih hes)
    · cases h

theorem Reach.reachable {s t : σ} (h : P.Reach meets s t) : P.Reachable s t := by
  induction h with
  | refl => exact .refl
  | tail _ hm ih =>
    obtain ⟨e, _, he⟩ := hm
    exact ih.tail ⟨e, trivial, he⟩

/-- What one step keeps, every run keeps. -/
theorem Reach.invariant {I : σ → Prop}
    (hstep : ∀ {s e t}, I s → meets s e → P.step s e = some t → I t) {s t : σ}
    (h : P.Reach meets s t) (hs : I s) : I t := by
  induction h with
  | refl => exact hs
  | tail _ hm ih =>
    obtain ⟨e, hme, he⟩ := hm
    exact hstep ih hme he

/-- What relates the two ends of a step from an invariant state relates the two ends of a run from
    an invariant state, if it is a preorder. -/
theorem Reach.transition {I : σ → Prop} {T : σ → σ → Prop} (hrefl : ∀ s, T s s)
    (htrans : ∀ {a b c}, T a b → T b c → T a c)
    (hinv : ∀ {s e t}, I s → meets s e → P.step s e = some t → I t)
    (hstep : ∀ {s e t}, I s → meets s e → P.step s e = some t → T s t) {s t : σ}
    (h : P.Reach meets s t) (hs : I s) : T s t := by
  induction h with
  | refl => exact hrefl s
  | tail h₁ hm ih =>
    obtain ⟨e, hme, he⟩ := hm
    exact htrans ih (hstep (Reach.invariant hinv h₁ hs) hme he)

end Protocol
