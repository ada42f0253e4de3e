/-
  DECIMAL TEXT: numerals such as `12.0345`, the rational number they denote, and that number in
  whole units of `10 ^ -places`, rounded up.

  A numeral is read in the way programs without decimal arithmetic read it: the digits before the
  point, the first `places` digits after it (filled up with zeros), and whether any later digit is
  not zero.  `scaled_eq_ceil` says that this is the ceiling of the exact value times
  `10 ^ places`; `roundedUp_eq_ceil` says the same of a division of integers.

  Nothing here mentions a particular program.
-/
import Mathlib.Algebra.Order.Floor.Semiring
import Mathlib.Data.Rat.Floor
import Mathlib.Tactic.Linarith
import Mathlib.Tactic.FieldSimp
import Mathlib.Tactic.Ring

namespace Decimal

/-! ## Digits -/

def isDigit (c : Char) : Bool := decide (48 ≤ c.toNat) && decide (c.toNat ≤ 57)

/-- A digit other than zero. -/
def isNonzero (c : Char) : Bool := decide (49 ≤ c.toNat) && decide (c.toNat ≤ 57)

def digit (c : Char) : Nat := c.toNat - 48

/-- The number that a list of digits denotes. -/
def value (cs : List Char) : Nat := cs.foldl (fun n c => 10 * n + digit c) 0

theorem digit_lt {c : Char} (h : isDigit c = true) : digit c < 10 := by
  simp only [isDigit, Bool.and_eq_true, decide_eq_true_eq] at h
  simp only [digit]
  omega

theorem isNonzero_iff {c : Char} (h : isDigit c = true) : isNonzero c = true ↔ 0 < digit c := by
  simp only [isDigit, isNonzero, Bool.and_eq_true, decide_eq_true_eq, digit] at *
  omega

@[simp] theorem value_nil : value [] = 0 := rfl

theorem foldl_value (cs : List Char) (n : Nat) :
    cs.foldl (fun n c => 10 * n + digit c) n = n * 10 ^ cs.length + value cs := by
  induction cs generalizing n with
  | nil => simp
  | cons c cs ih =>
    have hleft := ih (10 * n + digit c)
    have hright := ih (10 * 0 + digit c)
    simp only [List.foldl_cons, List.length_cons, value] at *
    rw [hleft, hright, Nat.pow_succ]
    ring

theorem value_append (cs ds : List Char) :
    value (cs ++ ds) = value cs * 10 ^ ds.length + value ds := by
  rw [value, List.foldl_append, ← value, foldl_value]

theorem value_cons (c : Char) (cs : List Char) :
    value (c :: cs) = digit c * 10 ^ cs.length + value cs := by
  have h := value_append [c] cs
  simpa [value] using h

theorem value_lt {cs : List Char} (h : cs.all isDigit = true) : value cs < 10 ^ cs.length := by
  induction cs with
  | nil => simp
  | cons c cs ih =>
    simp only [List.all_cons, Bool.and_eq_true] at h
    have hdigit := digit_lt h.1
    have hrest := ih h.2
    have hle : digit c * 10 ^ cs.length ≤ 9 * 10 ^ cs.length :=
      Nat.mul_le_mul_right _ (by omega)
    rw [value_cons, List.length_cons, Nat.pow_succ]
    omega

/-- Some digit is not zero: `/[1-9]/.test(cs)`. -/
theorem value_pos_iff {cs : List Char} (h : cs.all isDigit = true) :
    cs.any isNonzero = true ↔ 0 < value cs := by
  induction cs with
  | nil => simp
  | cons c cs ih =>
    simp only [List.all_cons, Bool.and_eq_true] at h
    have hpow : 0 < 10 ^ cs.length := Nat.pow_pos (by decide)
    rw [List.any_cons, Bool.or_eq_true, ih h.2, isNonzero_iff h.1, value_cons]
    constructor
    · rintro (hdigit | hrest)
      · have := Nat.mul_pos hdigit hpow
        omega
      · omega
    · intro hsum
      by_contra hnone
      have hdigit : digit c = 0 := by omega
      rw [hdigit] at hsum
      omega

theorem value_replicate_zero (n : Nat) : value (List.replicate n '0') = 0 := by
  induction n with
  | zero => rfl
  | succ n ih =>
    rw [List.replicate_succ, value_cons, ih]
    simp [digit]

/-! ## Numerals -/

/-- What the digits before and after the point denote together. -/
def exact (whole fraction : List Char) : ℚ :=
  value whole + value fraction / 10 ^ fraction.length

/-- `cs.padEnd(n, '0')`. -/
def padEnd (n : Nat) (cs : List Char) : List Char := cs ++ List.replicate (n - cs.length) '0'

/-- The numeral in units of `10 ^ -places`, its remainder rounded up. -/
def scaled (places : Nat) (whole fraction : List Char) : Nat :=
  value whole * 10 ^ places + value (padEnd places (fraction.take places)) +
    if (fraction.drop places).any isNonzero = true then 1 else 0

theorem exact_nonneg (whole fraction : List Char) : 0 ≤ exact whole fraction := by
  unfold exact
  positivity

/-- The same value as a fraction of integers. -/
theorem exact_eq_div (whole fraction : List Char) :
    exact whole fraction = value (whole ++ fraction) / 10 ^ fraction.length := by
  rw [exact, value_append]
  push_cast
  field_simp

/-- A number that is at least `x` and less than one above it is its ceiling. -/
theorem eq_ceil {x : ℚ} {m : Nat} (hle : x ≤ m) (hlt : (m : ℚ) < x + 1) : m = ⌈x⌉₊ := by
  apply Nat.le_antisymm
  · apply Nat.le_of_lt_succ
    have hceil := Nat.le_ceil x
    have hcast : (m : ℚ) < (⌈x⌉₊ + 1 : Nat) := by
      push_cast
      linarith
    exact_mod_cast hcast
  · exact Nat.ceil_le.mpr hle

/-- With digits to spare after `places` of them: what they add is less than one unit. -/
theorem padEnd_take_of_le {places : Nat} {fraction : List Char}
    (h : places ≤ fraction.length) : padEnd places (fraction.take places) = fraction.take places := by
  simp [padEnd, List.length_take, Nat.min_eq_left h]

theorem value_padEnd {places : Nat} {cs : List Char} :
    value (padEnd places cs) = value cs * 10 ^ (places - cs.length) := by
  rw [padEnd, value_append, value_replicate_zero, List.length_replicate, Nat.add_zero]

/-- No digits to spare: the scaled value is exact. -/
theorem scaled_of_short {places : Nat} {whole fraction : List Char}
    (h : fraction.length ≤ places) :
    (scaled places whole fraction : ℚ) = exact whole fraction * 10 ^ places := by
  obtain ⟨more, rfl⟩ : ∃ more, places = fraction.length + more := ⟨_, (Nat.add_sub_of_le h).symm⟩
  have hdrop : fraction.drop (fraction.length + more) = [] := List.drop_eq_nil_of_le (by omega)
  have htake : fraction.take (fraction.length + more) = fraction := List.take_of_length_le (by omega)
  rw [scaled, hdrop, htake, value_padEnd, exact, Nat.add_sub_cancel_left]
  simp only [List.any_nil, Bool.false_eq_true, if_false]
  push_cast
  rw [pow_add]
  field_simp
  ring

theorem scaled_eq_ceil {places : Nat} {whole fraction : List Char}
    (h : fraction.all isDigit = true) :
    scaled places whole fraction = ⌈exact whole fraction * 10 ^ places⌉₊ := by
  rcases Nat.le_total fraction.length places with hshort | hlong
  · have hexact := @scaled_of_short places whole fraction hshort
    exact eq_ceil (le_of_eq hexact.symm) (by linarith)
  -- the fraction is its first digits and a remainder of less than one unit
  · obtain ⟨first, rest, rfl, rfl⟩ : ∃ first rest, fraction = first ++ rest ∧
        places = first.length := by
      refine ⟨fraction.take places, fraction.drop places, ?_, ?_⟩
      · exact (List.take_append_drop places fraction).symm
      · rw [List.length_take, Nat.min_eq_left hlong]
    rw [List.all_append, Bool.and_eq_true] at h
    have hsplit : exact whole (first ++ rest) * 10 ^ first.length =
        value whole * 10 ^ first.length + value first + value rest / 10 ^ rest.length := by
      rw [exact, value_append, List.length_append, pow_add]
      push_cast
      field_simp
      ring
    have hscaled : scaled first.length whole (first ++ rest) =
        value whole * 10 ^ first.length + value first +
          if rest.any isNonzero = true then 1 else 0 := by
      rw [scaled, padEnd_take_of_le hlong, List.take_left, List.drop_left]
    have hpow : (0 : ℚ) < 10 ^ rest.length := by positivity
    have hlt : (value rest : ℚ) / 10 ^ rest.length < 1 := by
      rw [div_lt_one hpow]
      exact_mod_cast value_lt h.2
    have hnonneg : (0 : ℚ) ≤ value rest / 10 ^ rest.length := by positivity
    rw [hscaled]
    by_cases hrest : rest.any isNonzero = true
    · have hpos : (0 : ℚ) < value rest / 10 ^ rest.length := by
        have := (value_pos_iff h.2).mp hrest
        positivity
      rw [if_pos hrest]
      refine eq_ceil ?_ ?_ <;> rw [hsplit] <;> push_cast <;> linarith
    · have hzero : value rest = 0 := by
        have := (value_pos_iff h.2).not.mp hrest
        omega
      rw [if_neg hrest]
      refine eq_ceil ?_ ?_ <;> rw [hsplit, hzero] <;> push_cast <;> simp

/-- Without a later digit that is not zero nothing was rounded. -/
theorem scaled_exact {places : Nat} {whole fraction : List Char}
    (h : fraction.all isDigit = true) (hnone : (fraction.drop places).any isNonzero = false) :
    (scaled places whole fraction : ℚ) = exact whole fraction * 10 ^ places := by
  rcases Nat.le_total fraction.length places with hshort | hlong
  · exact scaled_of_short hshort
  · have hzero : value (fraction.drop places) = 0 := by
      have hdigits : (fraction.drop places).all isDigit = true := by
        rw [List.all_eq_true] at h ⊢
        exact fun c hc => h c (List.mem_of_mem_drop hc)
      have := (value_pos_iff hdigits).not.mp (by simp [hnone])
      omega
    have hvalue : value fraction =
        value (fraction.take places) * 10 ^ (fraction.length - places) := by
      conv_lhs => rw [← List.take_append_drop places fraction]
      rw [value_append, hzero, List.length_drop, Nat.add_zero]
    have hpow : (10 : ℚ) ^ fraction.length =
        10 ^ places * 10 ^ (fraction.length - places) := by
      rw [← pow_add, Nat.add_sub_of_le hlong]
    rw [scaled, padEnd_take_of_le hlong, hnone, exact, hvalue, hpow]
    simp only [Bool.false_eq_true, if_false]
    push_cast
    field_simp
    ring

/-! ## Division -/

/-- `(n + d - 1) / d` of integers. -/
def roundedUp (n d : Nat) : Nat := (n + d - 1) / d

theorem roundedUp_eq_ceil {n d : Nat} (hd : 0 < d) : roundedUp n d = ⌈(n / d : ℚ)⌉₊ := by
  have hpos : (0 : ℚ) < d := by exact_mod_cast hd
  have hlow : n ≤ roundedUp n d * d := by
    have := Nat.lt_mul_div_succ (n + d - 1) hd
    rw [Nat.mul_comm, Nat.add_mul] at this
    simp only [roundedUp]
    omega
  have hhigh : roundedUp n d * d < n + d := by
    have := Nat.div_mul_le_self (n + d - 1) d
    simp only [roundedUp]
    omega
  apply eq_ceil
  · rw [div_le_iff₀ hpos]
    exact_mod_cast hlow
  · rw [← sub_lt_iff_lt_add, lt_div_iff₀ hpos, sub_mul, one_mul, sub_lt_iff_lt_add]
    exact_mod_cast hhigh

end Decimal
