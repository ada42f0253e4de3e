/-
  TEXT OF A BYTE STREAM: UTF-8 decoded chunk by chunk, and the UTF-16 code units JavaScript counts
  and cuts by.

  A decoder that is fed a stream in chunks holds back the bytes of a character that is not complete
  yet.  Fed one byte at a time it is a machine whose state is those bytes (`feed`), so that how the
  stream was cut into chunks cannot matter (`write_append`).  Bytes that are no UTF-8 become
  replacement characters, as many as the maximal well-formed pieces they fall into.

  A string is the list of its code units.  A character outside the basic plane is a pair of them,
  and a cut may fall between the two; `Whole.split` says which cuts do not.

  Nothing here mentions a particular program.
-/
import Mathlib.Tactic.ByContra

namespace Utf

abbrev Bytes := List UInt8

/-- A string, by its UTF-16 code units. -/
abbrev Text := List Nat

/-! ## UTF-8 -/

/-- A byte that continues a character. -/
def isContinuation (b : UInt8) : Bool := 0x80 ≤ b.toNat && b.toNat < 0xc0

/-- The length of the sequence that a byte announces. -/
def announced (b : UInt8) : Nat :=
  if b.toNat < 0xc0 then 1
  else if b.toNat < 0xe0 then 2
  else if b.toNat < 0xf0 then 3
  else if b.toNat < 0xf8 then 4
  else 1

/-- May `b` follow the lead byte?  Overlong forms, surrogates and what lies beyond U+10FFFF are
    excluded here. -/
def mayFollow (lead b : UInt8) : Bool :=
  if lead.toNat < 0xc2 ∨ 0xf4 < lead.toNat then false
  else if lead.toNat = 0xe0 then decide (0xa0 ≤ b.toNat)
  else if lead.toNat = 0xed then decide (b.toNat < 0xa0)
  else if lead.toNat = 0xf0 then decide (0x90 ≤ b.toNat)
  else if lead.toNat = 0xf4 then decide (b.toNat < 0x90)
  else true

/-- U+FFFD. -/
def replacement : Char := Char.ofNat 0xfffd

/-- The characters of one sequence: a first byte and the continuation bytes taken with it. -/
def sequence : Bytes → List Char
  | [] => []
  | [b] => if b.toNat < 0x80 then [Char.ofNat b.toNat] else [replacement]
  | lead :: second :: rest =>
    if mayFollow lead second = false then List.replicate (rest.length + 2) replacement
    else if rest.length + 2 = announced lead then
      [Char.ofNat ((second :: rest).foldl (fun value b => value * 64 + b.toNat % 64)
        (lead.toNat % Nat.pow 2 (7 - announced lead)))]
    else [replacement]

/-- One byte: the bytes held back from now on, and the characters that became complete. -/
def feed (held : Bytes) (b : UInt8) : Bytes × List Char :=
  match held with
  | [] => if announced b = 1 then ([], sequence [b]) else ([b], [])
  | lead :: more =>
    if isContinuation b then
      if more.length + 2 = announced lead then ([], sequence (lead :: more ++ [b]))
      else (lead :: more ++ [b], [])
    else if announced b = 1 then ([], sequence (lead :: more) ++ sequence [b])
    else ([b], sequence (lead :: more))

/-- `decoder.write(chunk)`. -/
def write : Bytes → Bytes → Bytes × List Char
  | held, [] => (held, [])
  | held, b :: chunk =>
    let (held, first) := feed held b
    let (held, rest) := write held chunk
    (held, first ++ rest)

/-- A stream that ended: what a decoder returns for all of it, `decoder.end()` included. -/
def decode (bytes : Bytes) : List Char := (write [] bytes).2 ++ sequence (write [] bytes).1

/-- **Chunks do not matter.** -/
theorem write_append (held a b : Bytes) :
    write held (a ++ b) =
      ((write (write held a).1 b).1, (write held a).2 ++ (write (write held a).1 b).2) := by
  induction a generalizing held with
  | nil => simp [write]
  | cons x a ih => simp [write, ih]

example : decode [0xe2, 0x82, 0xac, 0xf0, 0x9f, 0x98] = [Char.ofNat 0x20ac, replacement] := by
  decide +kernel

/-! ## UTF-16 -/

def isHigh (u : Nat) : Bool := 0xd800 ≤ u && u ≤ 0xdbff

def isLow (u : Nat) : Bool := 0xdc00 ≤ u && u ≤ 0xdfff

/-- The code units of a character. -/
def units (c : Char) : Text :=
  if c.toNat < 0x10000 then [c.toNat]
  else [0xd800 + (c.toNat - 0x10000) / 0x400, 0xdc00 + (c.toNat - 0x10000) % 0x400]

def encode (cs : List Char) : Text := cs.flatMap units

@[simp] theorem encode_nil : encode [] = [] := rfl

@[simp] theorem encode_append (a b : List Char) : encode (a ++ b) = encode a ++ encode b := by
  simp [encode]

theorem encode_cons (c : Char) (cs : List Char) : encode (c :: cs) = units c ++ encode cs := by
  simp [encode]

/-- A text of whole characters: no surrogate stands alone. -/
def Whole (text : Text) : Prop := ∃ cs, text = encode cs

/-- A character is one unit that is no surrogate, or a pair of surrogates. -/
theorem units_cases (c : Char) :
    (∃ u, units c = [u] ∧ isHigh u = false) ∨
      ∃ high low, units c = [high, low] ∧ isHigh high = true ∧ isLow low = true := by
  have hvalid : c.toNat < 0xd800 ∨ 0xdfff < c.toNat ∧ c.toNat < 0x110000 := by
    have := c.valid
    simp only [UInt32.isValidChar, Nat.isValidChar] at this
    exact this
  unfold units
  split
  · refine .inl ⟨c.toNat, rfl, ?_⟩
    simp only [isHigh, Bool.and_eq_false_iff, decide_eq_false_iff_not]
    omega
  · refine .inr ⟨_, _, rfl, ?_, ?_⟩
    · simp only [isHigh, Bool.and_eq_true, decide_eq_true_eq]
      omega
    · simp only [isLow, Bool.and_eq_true, decide_eq_true_eq]
      omega

/-- A text of whole characters may be cut wherever the cut does not part a pair. -/
theorem Whole.split {a b : Text} (h : Whole (a ++ b))
    (hcut : ∀ u ∈ a.getLast?, ∀ v ∈ b.head?, isHigh u = true → isLow v = true → False) :
    Whole a ∧ Whole b := by
  obtain ⟨cs, hcs⟩ := h
  induction cs generalizing a with
  | nil =>
    obtain ⟨rfl, rfl⟩ := List.append_eq_nil_iff.mp hcs
    exact ⟨⟨[], rfl⟩, [], rfl⟩
  | cons c cs ih =>
    cases a with
    | nil => exact ⟨⟨[], rfl⟩, c :: cs, hcs⟩
    | cons x a =>
      rw [encode_cons] at hcs
      have hlast : ∀ (y : Nat) (l : Text), (y :: l).getLast? = l.getLast?.or (some y) := by
        intro y l
        cases l <;> simp [List.getLast?_cons]
      rcases units_cases c with ⟨u, hu, -⟩ | ⟨high, low, hu, hhigh, hlow⟩
      · -- a unit of its own: the cut lies behind it
        rw [hu] at hcs
        simp only [List.cons_append, List.nil_append, List.cons.injEq] at hcs
        obtain ⟨rfl, hcs⟩ := hcs
        obtain ⟨⟨as, rfl⟩, hb⟩ := ih (a := a) (fun u hu => hcut u (by rw [hlast, hu]; rfl)) hcs
        exact ⟨⟨c :: as, by rw [encode_cons, hu]; rfl⟩, hb⟩
      · -- a pair: the cut lies behind both, as it may not lie between them
        rw [hu] at hcs
        simp only [List.cons_append, List.nil_append, List.cons.injEq] at hcs
        obtain ⟨rfl, hcs⟩ := hcs
        cases a with
        | nil =>
          exact (hcut x (by simp) low (by simp [show b = low :: encode cs from hcs]) hhigh
            hlow).elim
        | cons y a =>
          simp only [List.cons_append, List.cons.injEq] at hcs
          obtain ⟨rfl, hcs⟩ := hcs
          obtain ⟨⟨as, rfl⟩, hb⟩ :=
            ih (a := a) (fun u hu => hcut u (by rw [hlast, hlast, hu]; rfl)) hcs
          exact ⟨⟨c :: as, by rw [encode_cons, hu]; rfl⟩, hb⟩

/-! ## Order and measures -/

/-- The order of two texts by their first difference. -/
def lexicographic : List Nat → List Nat → Bool
  | [], _ => true
  | _ :: _, [] => false
  | x :: xs, y :: ys => if x = y then lexicographic xs ys else x < y

/-- `Buffer.byteLength(text)`: the bytes of a text written as UTF-8; a surrogate without its pair
    is written as a replacement character. -/
def byteLength : Text → Nat
  | [] => 0
  | u :: v :: rest =>
    if isHigh u && isLow v then 4 + byteLength rest
    else (if u < 0x80 then 1 else if u < 0x800 then 2 else 3) + byteLength (v :: rest)
  | [u] => if u < 0x80 then 1 else if u < 0x800 then 2 else 3

def hexDigit (n : Nat) : Nat := if n < 10 then 0x30 + n else 0x57 + n

/-- `\uXXXX`. -/
def hexEscape (u : Nat) : Text :=
  [0x5c, 0x75, hexDigit (u / 0x1000 % 16), hexDigit (u / 0x100 % 16), hexDigit (u / 0x10 % 16),
    hexDigit (u % 16)]

/-- One unit inside a JSON string. -/
def escape (u : Nat) : Text :=
  if u = 0x22 ∨ u = 0x5c then [0x5c, u]
  else if u = 0x08 then [0x5c, 0x62]
  else if u = 0x09 then [0x5c, 0x74]
  else if u = 0x0a then [0x5c, 0x6e]
  else if u = 0x0c then [0x5c, 0x66]
  else if u = 0x0d then [0x5c, 0x72]
  else if u < 0x20 then hexEscape u
  else [u]

/-- The inside of `JSON.stringify(text)`; a surrogate without its pair is escaped. -/
def escaped : Text → Text
  | [] => []
  | u :: v :: rest =>
    if isHigh u && isLow v then u :: v :: escaped rest
    else (if isHigh u || isLow u then hexEscape u else escape u) ++ escaped (v :: rest)
  | [u] => if isHigh u || isLow u then hexEscape u else escape u

/-- The units of a literal. -/
def ofString (s : String) : Text := encode s.toList

end Utf
