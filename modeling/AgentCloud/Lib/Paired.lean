/-
  TWO RUNS of checked computations, side by side.

  `Follows R x y`: where `x` returns, `y` returns too, and `R` relates what they return.  A check
  that refuses one of two runs may refuse only the first.  There is one rule for each way a checked
  computation is put together (`Follows.bind`, `Follows.checkEach`), so that two runs of one function
  are compared along its own structure.
-/
import AgentCloud.Lib.Checked
import Mathlib.Data.List.Forall2

namespace Checked

variable {ε α β γ δ : Type} {R : α → β → Prop} {S : γ → δ → Prop}

def Follows (R : α → β → Prop) (x : Except ε α) (y : Except ε β) : Prop :=
  ∀ a, x = .ok a → ∃ b, y = .ok b ∧ R a b

namespace Follows

theorem same {x : Except ε α} : Follows Eq x x := fun a h => ⟨a, h, rfl⟩

theorem pure {a : α} {b : β} (h : R a b) :
    Follows R (Pure.pure a : Except ε α) (Pure.pure b : Except ε β) := by
  intro a' ha
  obtain rfl := pure_ok_iff.mp ha
  exact ⟨b, rfl, h⟩

theorem bind {x : Except ε α} {y : Except ε β} {f : α → Except ε γ} {g : β → Except ε δ}
    (h : Follows R x y) (hf : ∀ a b, R a b → Follows S (f a) (g b)) :
    Follows S (x >>= f) (y >>= g) := by
  intro c hc
  obtain ⟨a, ha, hfa⟩ := bind_ok_iff.mp hc
  obtain ⟨b, hb, hR⟩ := h a ha
  obtain ⟨d, hd, hS⟩ := hf a b hR c hfa
  exact ⟨d, bind_ok_iff.mpr ⟨b, hb, hd⟩, hS⟩

/-- The same first step, and then runs that follow each other. -/
theorem after {x : Except ε α} {f : α → Except ε γ} {g : α → Except ε δ}
    (h : ∀ a, Follows S (f a) (g a)) : Follows S (x >>= f) (x >>= g) :=
  same.bind fun a _ hab => hab ▸ h a

theorem map {x : Except ε α} {y : Except ε β} {f : α → γ} {g : β → δ} (h : Follows R x y)
    (hS : ∀ a b, R a b → S (f a) (g b)) : Follows S (x.map f) (y.map g) := by
  intro c hc
  cases hx : x with
  | error e =>
    rw [hx] at hc
    cases hc
  | ok a =>
    obtain ⟨b, rfl, hR⟩ := h a hx
    rw [hx] at hc
    obtain rfl := Except.ok.inj hc
    exact ⟨g b, rfl, hS a b hR⟩

theorem checkEach {f : γ → Except ε α} {g : γ → Except ε β} {items : List γ}
    (h : ∀ item ∈ items, Follows R (f item) (g item)) :
    Follows (List.Forall₂ R) (Checked.checkEach f items) (Checked.checkEach g items) := by
  induction items with
  | nil =>
    intro as has
    obtain rfl := Except.ok.inj has
    exact ⟨[], rfl, .nil⟩
  | cons item items ih =>
    have hrest := ih fun item' hm => h item' (List.mem_cons_of_mem item hm)
    apply bind (h item (by simp))
    intro a b hab
    apply bind hrest
    intro as bs hall
    exact pure (.cons hab hall)

end Follows

end Checked
