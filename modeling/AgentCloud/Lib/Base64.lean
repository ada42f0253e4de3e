/-
  BASE64, with padding.

  Three bytes are four characters of the alphabet; a last group of one or two bytes is padded.  What
  users of the encoding need: the text is well formed (`isBase64_encode`), and four thirds of the
  bytes long (`length_encode`).
-/
import Mathlib.Data.List.Nodup

namespace Base64

abbrev Bytes := List UInt8

/-- A sextet as a character. -/
def digit (n : Nat) : Char :=
  if n < 26 then Char.ofNat (65 + n)
  else if n < 52 then Char.ofNat (71 + n)
  else if n < 62 then Char.ofNat (n - 4)
  else if n = 62 then '+'
  else '/'

/-- `[0-9a-zA-Z+/]`. -/
def isDigit (c : Char) : Bool := c.isAlphanum || c == '+' || c == '/'

/-- `buffer.toString('base64')`. -/
def encode : Bytes → List Char
  | [] => []
  | [a] => [digit (a.toNat / 4), digit (a.toNat % 4 * 16), '=', '=']
  | [a, b] =>
    [digit (a.toNat / 4), digit (a.toNat % 4 * 16 + b.toNat / 16), digit (b.toNat % 16 * 4), '=']
  | a :: b :: c :: bytes =>
    digit (a.toNat / 4) :: digit (a.toNat % 4 * 16 + b.toNat / 16) ::
      digit (b.toNat % 16 * 4 + c.toNat / 64) :: digit (c.toNat % 64) :: encode bytes

/-- `/^$|^(?:[0-9a-zA-Z+/]{4})*(?:(?:[0-9a-zA-Z+/]{2}==)|(?:[0-9a-zA-Z+/]{3}=))?$/`. -/
def isBase64 : List Char → Bool
  | [] => true
  | a :: b :: c :: d :: rest =>
    isDigit a && isDigit b &&
      ((isDigit c && isDigit d && isBase64 rest) ||
        (rest.isEmpty && d == '=' && (isDigit c || c == '=')))
  | _ => false

theorem isDigit_digit {n : Nat} (h : n < 64) : isDigit (digit n) = true := by
  have hall : ∀ n < 64, isDigit (digit n) = true := by decide
  exact hall n h

theorem isBase64_encode (bytes : Bytes) : isBase64 (encode bytes) = true := by
  induction bytes using encode.induct with
  | case1 => rfl
  | case2 a =>
    have ha := a.toNat_lt
    have hfirst := isDigit_digit (show a.toNat / 4 < 64 by omega)
    have hsecond := isDigit_digit (show a.toNat % 4 * 16 < 64 by omega)
    simp [encode, isBase64, hfirst, hsecond]
  | case3 a b =>
    have ha := a.toNat_lt
    have hb := b.toNat_lt
    have hfirst := isDigit_digit (show a.toNat / 4 < 64 by omega)
    have hsecond := isDigit_digit (show a.toNat % 4 * 16 + b.toNat / 16 < 64 by omega)
    have hthird := isDigit_digit (show b.toNat % 16 * 4 < 64 by omega)
    simp [encode, isBase64, hfirst, hsecond, hthird]
  | case4 a b c bytes ih =>
    have ha := a.toNat_lt
    have hb := b.toNat_lt
    have hc := c.toNat_lt
    have hfirst := isDigit_digit (show a.toNat / 4 < 64 by omega)
    have hsecond := isDigit_digit (show a.toNat % 4 * 16 + b.toNat / 16 < 64 by omega)
    have hthird := isDigit_digit (show b.toNat % 16 * 4 + c.toNat / 64 < 64 by omega)
    have hfourth := isDigit_digit (show c.toNat % 64 < 64 by omega)
    simp [encode, isBase64, hfirst, hsecond, hthird, hfourth, ih]

theorem length_encode (bytes : Bytes) : (encode bytes).length = (bytes.length + 2) / 3 * 4 := by
  induction bytes using encode.induct with
  | case1 => rfl
  | case2 a => simp [encode]
  | case3 a b => simp [encode]
  | case4 a b c bytes ih =>
    simp only [encode, List.length_cons, ih]
    omega

theorem isAlphanum_ascii {c : Char} (h : c.isAlphanum = true) : c.toNat < 128 := by
  have hbound : ∀ d : Char, d.toNat < 128 → c.val ≤ d.val → c.toNat < 128 := by
    intro d hd hle
    have hnat : c.val.toNat ≤ d.val.toNat := UInt32.le_iff_toNat_le.mp hle
    exact Nat.lt_of_le_of_lt hnat hd
  have hcases : ((c.isUpper || c.isLower) || c.isDigit) = true := h
  rw [Bool.or_eq_true, Bool.or_eq_true] at hcases
  rcases hcases with (hupper | hlower) | hdigit
  · have hrange : c.val ≥ 'A'.val ∧ c.val ≤ 'Z'.val := of_decide_eq_true hupper
    exact hbound 'Z' (by decide) hrange.2
  · have hrange : (decide (c.val ≥ 'a'.val) && decide (c.val ≤ 'z'.val)) = true := hlower
    rw [Bool.and_eq_true] at hrange
    exact hbound 'z' (by decide) (of_decide_eq_true hrange.2)
  · have hrange : (decide (c.val ≥ '0'.val) && decide (c.val ≤ '9'.val)) = true := hdigit
    rw [Bool.and_eq_true] at hrange
    exact hbound '9' (by decide) (of_decide_eq_true hrange.2)

theorem isDigit_ascii {c : Char} (h : isDigit c = true) : c.toNat < 128 := by
  simp only [isDigit, Bool.or_eq_true, beq_iff_eq] at h
  rcases h with (h | rfl) | rfl
  · exact isAlphanum_ascii h
  · decide
  · decide

theorem isBase64_ascii {text : List Char} (h : isBase64 text = true) :
    ∀ c ∈ text, c.toNat < 128 := by
  have hpad : '='.toNat < 128 := by decide
  induction text using isBase64.induct with
  | case1 => simp
  | case2 a b c d rest ih =>
    simp only [isBase64, Bool.and_eq_true, Bool.or_eq_true, beq_iff_eq, List.isEmpty_iff] at h
    obtain ⟨⟨ha, hb⟩, ⟨⟨hc, hd⟩, hrest⟩ | ⟨⟨rfl, rfl⟩, hc⟩⟩ := h
    · intro e he
      simp only [List.mem_cons] at he
      rcases he with rfl | rfl | rfl | rfl | he
      · exact isDigit_ascii ha
      · exact isDigit_ascii hb
      · exact isDigit_ascii hc
      · exact isDigit_ascii hd
      · exact ih hrest e he
    · intro e he
      simp only [List.mem_cons, List.not_mem_nil, or_false] at he
      rcases he with rfl | rfl | rfl | rfl
      · exact isDigit_ascii ha
      · exact isDigit_ascii hb
      · rcases hc with hc | rfl
        · exact isDigit_ascii hc
        · exact hpad
      · exact hpad
  | case3 text hnil hlong => simp [isBase64] at h

end Base64
