/-
  MONEY: `packages/contracts/src/money.ts`.

  A price arrives as decimal text and is reserved in micro-units.  `decimalToMicros` rounds what
  lies beyond the sixth decimal up, so a reservation never falls short of the price
  (`decimalToMicros_ok_iff`).  A limit is an authorization, and rounding it up would extend it:
  `decimalLimitToMicros` refuses what it cannot represent.
-/
import AgentCloud.Contracts
import AgentCloud.Lib.Decimal

namespace AgentCloud.Pricing

open Checked Decimal

/-- What precedes the point. -/
def wholeOf (text : List Char) : List Char := text.takeWhile isDigit

/-- The point and what follows it. -/
def restOf (text : List Char) : List Char := text.dropWhile isDigit

/-- `/^(0|[1-9][0-9]*)(\.[0-9]+)?$/` -/
def isDecimal (text : List Char) : Bool :=
  (decide (wholeOf text = ['0']) || (wholeOf text).head?.any isNonzero) &&
    match restOf text with
    | [] => true
    | c :: fraction => decide (c = '.') && !fraction.isEmpty && fraction.all isDigit

/-- `decimalPriceSchema` -/
def isDecimalPrice (value : String) : Bool :=
  decide (value.toList.length ≤ 40) && isDecimal value.toList

/-- A parsed decimal price. -/
def DecimalPrice := { value : String // isDecimalPrice value = true }

def decimalPriceSchema (value : String) : Except Fault DecimalPrice :=
  if h : isDecimalPrice value = true then .ok ⟨value, h⟩ else .error (.other "Invalid string")

/-- `microsSchema` of a number that is not negative. -/
def microsSchema (value : Nat) : Except Fault Micros := do
  refuse (2147483647 < value) (.other "Too big")
  pure value

/-- `const [whole = '0', fraction = ''] = text.split('.')` -/
def splitDecimal (text : List Char) : List Char × List Char :=
  let parts := text.splitOn '.'
  (parts[0]?.getD ['0'], parts[1]?.getD [])

/-- The micro-units of a price that parsed. -/
def DecimalPrice.micros (price : DecimalPrice) : Except Fault Micros :=
  let (whole, fraction) := splitDecimal price.val.toList
  let remainder := fraction.drop 6
  let micros := value whole * 1000000 + value (padEnd 6 (fraction.take 6))
  microsSchema (micros + if remainder.any isNonzero = true then 1 else 0)

def decimalToMicros (value : String) : Except Fault Micros := do
  let price ← decimalPriceSchema value
  price.micros

def decimalLimitToMicros (value : String) : Except Fault Micros := do
  let parsed ← decimalPriceSchema value
  refuse (((splitDecimal parsed.val.toList).2.drop 6).any isNonzero = true)
    (.other "Spending limits allow at most six nonzero decimal places.")
  decimalToMicros parsed.val

/-! ## The price a text denotes -/

/-- The exact decimal: its digits before the point, and those behind it by their places. -/
def DecimalPrice.exact (price : DecimalPrice) : ℚ :=
  Decimal.exact (wholeOf price.val.toList) ((restOf price.val.toList).drop 1)

theorem point_notMem {cs : List Char} (h : cs.all isDigit = true) : '.' ∉ cs := by
  intro hmem
  have := List.all_eq_true.mp h '.' hmem
  exact absurd this (by decide)

/-- A numeral is its digits, or two groups of digits with a point between them. -/
theorem isDecimal_shape {text : List Char} (h : isDecimal text = true) :
    (restOf text).drop 1 = [] ∧ text = wholeOf text ∨
      (restOf text).drop 1 ≠ [] ∧
        text = wholeOf text ++ '.' :: (restOf text).drop 1 := by
  have htext : text = wholeOf text ++ restOf text := List.takeWhile_append_dropWhile.symm
  simp only [isDecimal, Bool.and_eq_true] at h
  obtain ⟨-, hrest⟩ := h
  cases hcase : restOf text with
  | nil =>
    left
    rw [hcase, List.append_nil] at htext
    exact ⟨rfl, htext⟩
  | cons c fraction =>
    right
    rw [hcase] at hrest htext
    simp only [Bool.and_eq_true, decide_eq_true_eq] at hrest
    obtain ⟨⟨hc, hne⟩, -⟩ := hrest
    rw [← hc]
    refine ⟨?_, htext⟩
    intro hnil
    rw [List.drop_succ_cons, List.drop_zero] at hnil
    rw [hnil] at hne
    cases hne

theorem isDecimal_fraction {text : List Char} (h : isDecimal text = true) :
    ((restOf text).drop 1).all isDigit = true := by
  simp only [isDecimal, Bool.and_eq_true] at h
  obtain ⟨-, hrest⟩ := h
  cases hcase : restOf text with
  | nil => rfl
  | cons c fraction =>
    rw [hcase] at hrest
    simp only [Bool.and_eq_true] at hrest
    exact hrest.2

/-- Splitting at the point finds those two groups. -/
theorem splitDecimal_eq {text : List Char} (h : isDecimal text = true) :
    splitDecimal text = (wholeOf text, (restOf text).drop 1) := by
  have hwhole : '.' ∉ wholeOf text := point_notMem List.all_takeWhile
  have hfraction : '.' ∉ (restOf text).drop 1 := point_notMem (isDecimal_fraction h)
  rcases isDecimal_shape h with ⟨hnil, htext⟩ | ⟨-, htext⟩
  · have hsplit : text.splitOn '.' = [wholeOf text] := by
      have hone : (['.'].intercalate [wholeOf text]).splitOn '.' = [wholeOf text] :=
        List.splitOn_intercalate '.' (by simpa using hwhole) (by simp)
      rw [List.intercalate_singleton] at hone
      conv_lhs => rw [htext]
      exact hone
    simp [splitDecimal, hsplit, hnil]
  · have hsplit : text.splitOn '.' = [wholeOf text, (restOf text).drop 1] := by
      have htwo : (['.'].intercalate [wholeOf text, (restOf text).drop 1]).splitOn '.' =
          [wholeOf text, (restOf text).drop 1] := List.splitOn_intercalate '.'
        (by rintro part (_ | ⟨_, _ | ⟨_, hnone⟩⟩) <;> first | assumption | cases hnone) (by simp)
      conv_lhs => rw [htext]
      simpa [List.intercalate] using htwo
    simp [splitDecimal, hsplit]

namespace DecimalPrice

variable (price : DecimalPrice)

theorem decimal : isDecimal price.val.toList = true := by
  have h := price.property
  simp only [isDecimalPrice, Bool.and_eq_true] at h
  exact h.2

theorem exact_nonneg : 0 ≤ price.exact := Decimal.exact_nonneg _ _

/-- The micro-units are the exact price in micro-units, rounded up. -/
theorem micros_eq : price.micros = microsSchema ⌈price.exact * 10 ^ 6⌉₊ := by
  have hceil := @scaled_eq_ceil 6 (wholeOf price.val.toList) _ (isDecimal_fraction price.decimal)
  simp only [micros, splitDecimal_eq price.decimal]
  rw [exact, ← hceil]
  rfl

end DecimalPrice

theorem microsSchema_ok_iff {value : Nat} {micros : Micros} :
    microsSchema value = .ok micros ↔ value ≤ 2147483647 ∧ micros = value := by
  simp only [microsSchema, bind_ok_iff, refuse_ok_iff, pure_ok_iff, Nat.not_lt]
  constructor
  · rintro ⟨_, hle, rfl⟩
    exact ⟨hle, rfl⟩
  · rintro ⟨hle, rfl⟩
    exact ⟨(), hle, rfl⟩

theorem decimalPriceSchema_ok_iff {value : String} {price : DecimalPrice} :
    decimalPriceSchema value = .ok price ↔ price.val = value := by
  unfold decimalPriceSchema
  constructor
  · intro h
    split at h
    · rw [← Except.ok.inj h]
    · cases h
  · rintro rfl
    rw [dif_pos price.property]
    rfl

theorem DecimalPrice.micros_ok_iff {price : DecimalPrice} {micros : Micros} :
    price.micros = .ok micros ↔
      ⌈price.exact * 10 ^ 6⌉₊ ≤ 2147483647 ∧ micros = ⌈price.exact * 10 ^ 6⌉₊ := by
  rw [price.micros_eq, microsSchema_ok_iff]

/-- What is accepted, and what comes back. -/
theorem decimalToMicros_ok_iff {value : String} {micros : Micros} :
    decimalToMicros value = .ok micros ↔
      ∃ price : DecimalPrice, price.val = value ∧
        ⌈price.exact * 10 ^ 6⌉₊ ≤ 2147483647 ∧ micros = ⌈price.exact * 10 ^ 6⌉₊ := by
  simp only [decimalToMicros, bind_ok_iff, decimalPriceSchema_ok_iff,
    DecimalPrice.micros_ok_iff]

/-- A limit is the exact decimal. -/
theorem decimalLimitToMicros_exact {value : String} {micros : Micros}
    (h : decimalLimitToMicros value = .ok micros) :
    ∃ price : DecimalPrice, price.val = value ∧ (micros : ℚ) = price.exact * 10 ^ 6 := by
  simp only [decimalLimitToMicros, bind_ok_iff, decimalPriceSchema_ok_iff, refuse_ok_iff,
    decimalToMicros_ok_iff] at h
  obtain ⟨price, hvalue, _, hnone, price', hsame, -, rfl⟩ := h
  obtain rfl : price' = price := Subtype.ext hsame
  rw [splitDecimal_eq price'.decimal, Bool.not_eq_true] at hnone
  have hdigits := isDecimal_fraction price'.decimal
  refine ⟨price', hvalue, ?_⟩
  rw [DecimalPrice.exact, ← scaled_eq_ceil hdigits]
  exact scaled_exact hdigits hnone

end AgentCloud.Pricing
