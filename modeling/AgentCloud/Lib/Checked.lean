/-
  CHECKED COMPUTATIONS: transactions and parsers that either refuse with a fault or return.

  A transaction of the modelled code is a chain of checks, `if (bad) throw ...`, followed by the
  rows it writes.  Here it is an `Except` computation in the same order, and the proofs about it
  want the chain BACKWARDS: from "it returned `b`" to "every check passed, and this was written".
  The three inversion lemmas below do that, so no proof unfolds a `do` block by hand; all are
  simp lemmas.
-/

namespace Checked

variable {ε α β : Type}

/-- `if (c) throw e`. -/
def refuse (c : Prop) [Decidable c] (e : ε) : Except ε Unit := if c then .error e else .ok ()

/-- `if (!row) throw e`, keeping the row. -/
def present (row : Option α) (e : ε) : Except ε α := row.elim (.error e) .ok

@[simp] theorem bind_ok_iff {x : Except ε α} {f : α → Except ε β} {b : β} :
    (x >>= f) = .ok b ↔ ∃ a, x = .ok a ∧ f a = .ok b := by
  cases x <;> simp [bind, Except.bind]

@[simp] theorem pure_ok_iff {a b : α} : (pure a : Except ε α) = .ok b ↔ a = b := by
  simp [pure, Except.pure]

@[simp] theorem refuse_ok_iff {c : Prop} [Decidable c] {e : ε} {u : Unit} :
    refuse c e = .ok u ↔ ¬ c := by
  unfold refuse; split <;> simp_all

@[simp] theorem present_ok_iff {row : Option α} {e : ε} {a : α} :
    present row e = .ok a ↔ row = some a := by
  cases row <;> simp [present]

@[simp] theorem throw_ok_iff {e : ε} {a : α} : (throw e : Except ε α) = .ok a ↔ False := by
  simp [throw, throwThe, MonadExceptOf.throw]

/-! ## Faults

What a computation may fail with, read off its chain of checks from the front. -/

theorem bind_error_iff {x : Except ε α} {f : α → Except ε β} {e : ε} :
    (x >>= f) = .error e ↔ x = .error e ∨ ∃ a, x = .ok a ∧ f a = .error e := by
  cases x <;> simp [bind, Except.bind]

theorem pure_error_iff {a : α} {e : ε} : (pure a : Except ε α) = .error e ↔ False := by
  simp [pure, Except.pure]

theorem refuse_error_iff {c : Prop} [Decidable c] {e e' : ε} :
    refuse c e = .error e' ↔ c ∧ e = e' := by
  unfold refuse; split <;> simp_all

theorem present_error_iff {row : Option α} {e e' : ε} :
    present row e = .error e' ↔ row = none ∧ e = e' := by
  cases row <;> simp [present]

/-- Whatever is thrown satisfies `P`. -/
def Fails (P : ε → Prop) (x : Except ε α) : Prop := ∀ e, x = .error e → P e

section

variable {P : ε → Prop}

/-- What follows on a check may rely on what the check returned. -/
theorem Fails.then {x : Except ε α} {f : α → Except ε β} (hx : Fails P x)
    (hf : ∀ a, x = .ok a → Fails P (f a)) : Fails P (x >>= f) := by
  intro e h
  rcases bind_error_iff.mp h with hfirst | ⟨a, hok, hrest⟩
  · exact hx e hfirst
  · exact hf a hok e hrest

theorem Fails.bind {x : Except ε α} {f : α → Except ε β} (hx : Fails P x)
    (hf : ∀ a, Fails P (f a)) : Fails P (x >>= f) :=
  hx.then fun a _ => hf a

theorem Fails.of_ok {x : Except ε α} {a : α} (h : x = .ok a) : Fails P x := by
  intro e he
  rw [h] at he
  cases he

theorem Fails.mono {Q : ε → Prop} {x : Except ε α} (h : Fails P x) (hPQ : ∀ e, P e → Q e) :
    Fails Q x := fun e he => hPQ e (h e he)

theorem Fails.refuse {c : Prop} [Decidable c] {e : ε} (he : P e) :
    Fails P (Checked.refuse c e) := by
  intro e' h
  obtain ⟨-, rfl⟩ := refuse_error_iff.mp h
  exact he

theorem Fails.present {row : Option α} {e : ε} (he : P e) : Fails P (Checked.present row e) := by
  intro e' h
  obtain ⟨-, rfl⟩ := present_error_iff.mp h
  exact he

theorem Fails.pure {a : α} : Fails P (pure a : Except ε α) :=
  fun _ h => (pure_error_iff.mp h).elim

end

/-! ## Loops

`for (const a of as)` with a check in it: the first refusal is thrown.  What comes back is related
to what went in element by element. -/

def checkEach (f : α → Except ε β) : List α → Except ε (List β)
  | [] => .ok []
  | a :: as => do
    let b ← f a
    let bs ← checkEach f as
    pure (b :: bs)

theorem checkEach_ok {f : α → Except ε β} {as : List α} {bs : List β}
    (h : checkEach f as = .ok bs) :
    (∀ a ∈ as, ∃ b ∈ bs, f a = .ok b) ∧ ∀ b ∈ bs, ∃ a ∈ as, f a = .ok b := by
  induction as generalizing bs with
  | nil =>
    obtain rfl := Except.ok.inj h
    simp
  | cons a as ih =>
    simp only [checkEach, bind_ok_iff, pure_ok_iff] at h
    obtain ⟨b, hb, rest, hrest, rfl⟩ := h
    obtain ⟨hforth, hback⟩ := ih hrest
    constructor
    · intro a' ha'
      rcases List.mem_cons.mp ha' with rfl | ha'
      · exact ⟨b, by simp, hb⟩
      · obtain ⟨b', hb', hok⟩ := hforth a' ha'
        exact ⟨b', List.mem_cons_of_mem b hb', hok⟩
    · intro b' hb'
      rcases List.mem_cons.mp hb' with rfl | hb'
      · exact ⟨a, by simp, hb⟩
      · obtain ⟨a', ha', hok⟩ := hback b' hb'
        exact ⟨a', List.mem_cons_of_mem a ha', hok⟩

theorem checkEach_total {f : α → Except ε β} {as : List α}
    (h : ∀ a ∈ as, ∃ b, f a = .ok b) : ∃ bs, checkEach f as = .ok bs := by
  induction as with
  | nil => exact ⟨[], rfl⟩
  | cons a as ih =>
    obtain ⟨b, hb⟩ := h a (by simp)
    obtain ⟨bs, hbs⟩ := ih fun a' ha' => h a' (by simp [ha'])
    refine ⟨b :: bs, ?_⟩
    rw [checkEach, hb, hbs]
    rfl

end Checked
