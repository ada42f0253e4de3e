/-
  JSON TEXT: `JSON.stringify` of a value, and its length in bytes.

  How a number is written is a parameter.  What sizes need is that they do not depend on what a
  string says: two values that differ only in strings of one size (`Alike`) have texts of one size
  (`Alike.size`).
-/
import AgentCloud.Lib.Json

namespace Json

/-! ## Text -/

def hexDigit (n : Nat) : Char := Char.ofNat (if n < 10 then 48 + n else 87 + n)

def backslash : Char := Char.ofNat 92

def quotation : Char := Char.ofNat 34

/-- A character inside a string. -/
def escapeChar (c : Char) : List Char :=
  let n := c.toNat
  if n = 34 ∨ n = 92 then [backslash, c]
  else if n = 8 then [backslash, 'b']
  else if n = 9 then [backslash, 't']
  else if n = 10 then [backslash, 'n']
  else if n = 12 then [backslash, 'f']
  else if n = 13 then [backslash, 'r']
  else if n < 32 then [backslash, 'u', '0', '0', hexDigit (n / 16), hexDigit (n % 16)]
  else [c]

def quoted (value : String) : List Char :=
  quotation :: value.toList.flatMap escapeChar ++ [quotation]

variable (number : Rat → List Char)

mutual

/-- `JSON.stringify(value)`. -/
def text : Json → List Char
  | null => "null".toList
  | bool value => (if value then "true" else "false").toList
  | num value => number value
  | str value => quoted value
  | arr items => '[' :: [','].intercalate (textItems items) ++ [']']
  | obj fields => Char.ofNat 123 :: [','].intercalate (textFields fields) ++ [Char.ofNat 125]

def textItems : List Json → List (List Char)
  | [] => []
  | item :: items => text item :: textItems items

def textFields : List (String × Json) → List (List Char)
  | [] => []
  | (name, value) :: fields => (quoted name ++ ':' :: text value) :: textFields fields

end

/-- `Buffer.from(text)`. -/
def utf8 (text : List Char) : List UInt8 := text.flatMap String.utf8EncodeChar

/-! ## Size -/

/-- `Buffer.byteLength(text)`. -/
def size (text : List Char) : Nat := (utf8 text).length

@[simp] theorem size_nil : size [] = 0 := rfl

@[simp] theorem size_cons (c : Char) (text : List Char) : size (c :: text) = c.utf8Size + size text := by
  simp [size, utf8]

@[simp] theorem size_append (a b : List Char) : size (a ++ b) = size a + size b := by
  simp [size, utf8]

/-- The bytes of some texts, and of the commas between them. -/
theorem size_intercalate {as bs : List (List Char)} (h : as.map size = bs.map size) :
    size ([','].intercalate as) = size ([','].intercalate bs) := by
  induction as generalizing bs with
  | nil =>
    obtain rfl : bs = [] := by simpa using h.symm
    rfl
  | cons a as ih =>
    cases bs with
    | nil => simp at h
    | cons b bs =>
      obtain ⟨hfirst, hrest⟩ := List.cons.inj h
      have hmore := ih hrest
      cases as with
      | nil =>
        obtain rfl : bs = [] := by simpa using hrest.symm
        simpa [List.intercalate] using hfirst
      | cons a' as =>
        cases bs with
        | nil => simp at hrest
        | cons b' bs =>
          have hsplit : ∀ (x y : List Char) (zs : List (List Char)),
              [','].intercalate (x :: y :: zs) = x ++ ',' :: [','].intercalate (y :: zs) := by
            intro x y zs
            simp [List.intercalate, List.intersperse]
          rw [hsplit, hsplit, size_append, size_append, size_cons, size_cons, hmore, hfirst]

/-- Strings of one size. -/
def SameSize (a b : String) : Prop := size (quoted a) = size (quoted b)

mutual

/-- Values that differ only in strings of one size. -/
def Alike : Json → Json → Prop
  | null, null => True
  | bool a, bool b => a = b
  | num a, num b => a = b
  | str a, str b => SameSize a b
  | arr as, arr bs => AlikeItems as bs
  | obj as, obj bs => AlikeFields as bs
  | _, _ => False

def AlikeItems : List Json → List Json → Prop
  | [], [] => True
  | a :: as, b :: bs => Alike a b ∧ AlikeItems as bs
  | _, _ => False

def AlikeFields : List (String × Json) → List (String × Json) → Prop
  | [], [] => True
  | (name, a) :: as, (name', b) :: bs => name = name' ∧ Alike a b ∧ AlikeFields as bs
  | _, _ => False

end

mutual

theorem Alike.refl : (a : Json) → Alike a a
  | null => by simp [Alike]
  | bool _ => by simp [Alike]
  | num _ => by simp [Alike]
  | str _ => by simp [Alike, SameSize]
  | arr items => by simpa [Alike] using AlikeItems.refl items
  | obj fields => by simpa [Alike] using AlikeFields.refl fields

theorem AlikeItems.refl : (as : List Json) → AlikeItems as as
  | [] => by simp [AlikeItems]
  | a :: as => by simpa [AlikeItems] using ⟨Alike.refl a, AlikeItems.refl as⟩

theorem AlikeFields.refl : (as : List (String × Json)) → AlikeFields as as
  | [] => by simp [AlikeFields]
  | (_, a) :: as => by simpa [AlikeFields] using ⟨Alike.refl a, AlikeFields.refl as⟩

end

mutual

/-- Alike values have texts of one size. -/
theorem Alike.size : (a b : Json) → Alike a b → Json.size (text number a) = Json.size (text number b)
  | null, b => by cases b <;> simp [Alike]
  | bool a, b => by cases b <;> simp +contextual [Alike]
  | num a, b => by cases b <;> simp +contextual [Alike]
  | str a, b => by cases b <;> simp +contextual [Alike, SameSize, text]
  | arr as, b => by
    cases b with
    | arr bs =>
      intro h
      have hitems := AlikeItems.size as bs (by simpa [Alike] using h)
      simp only [text, size_cons, size_append, size_nil, size_intercalate hitems]
    | null | bool _ | num _ | str _ | obj _ => simp [Alike]
  | obj as, b => by
    cases b with
    | obj bs =>
      intro h
      have hfields := AlikeFields.size as bs (by simpa [Alike] using h)
      simp only [text, size_cons, size_append, size_nil, size_intercalate hfields]
    | null | bool _ | num _ | str _ | arr _ => simp [Alike]

theorem AlikeItems.size : (as bs : List Json) → AlikeItems as bs →
    (textItems number as).map Json.size = (textItems number bs).map Json.size
  | [], bs => by cases bs <;> simp [AlikeItems]
  | a :: as, [] => by simp [AlikeItems]
  | a :: as, b :: bs => by
    intro h
    simp only [AlikeItems] at h
    simp only [textItems, List.map_cons, Alike.size a b h.1, AlikeItems.size as bs h.2]

theorem AlikeFields.size : (as bs : List (String × Json)) → AlikeFields as bs →
    (textFields number as).map Json.size = (textFields number bs).map Json.size
  | [], bs => by cases bs <;> simp [AlikeFields]
  | _ :: _, [] => by simp [AlikeFields]
  | (name, a) :: as, (name', b) :: bs => by
    intro h
    simp only [AlikeFields] at h
    obtain ⟨rfl, ha, hs⟩ := h
    simp only [textFields, List.map_cons, size_append, size_cons, Alike.size a b ha,
      AlikeFields.size as bs hs]

end

/-! ## Fields of alike objects -/

namespace AlikeFields

variable {as bs : Fields} {a b : Json} {name : String}

theorem append {cs ds : Fields} (h : AlikeFields as bs) (h' : AlikeFields cs ds) :
    AlikeFields (as ++ cs) (bs ++ ds) := by
  induction as generalizing bs with
  | nil =>
    cases bs with
    | nil => exact h'
    | cons b bs => simp [AlikeFields] at h
  | cons a as ih =>
    cases bs with
    | nil => simp [AlikeFields] at h
    | cons b bs =>
      simp only [AlikeFields] at h
      simp only [List.cons_append, AlikeFields]
      exact ⟨h.1, h.2.1, ih h.2.2⟩

theorem erase (h : AlikeFields as bs) : AlikeFields (as.erase name) (bs.erase name) := by
  induction as generalizing bs with
  | nil =>
    cases bs with
    | nil => simp [Fields.erase, AlikeFields]
    | cons b bs => simp [AlikeFields] at h
  | cons a as ih =>
    cases bs with
    | nil => simp [AlikeFields] at h
    | cons b bs =>
      obtain ⟨key, a⟩ := a
      obtain ⟨key', b⟩ := b
      simp only [AlikeFields] at h
      obtain ⟨rfl, hvalue, hrest⟩ := h
      have hmore := ih hrest
      unfold Fields.erase at hmore ⊢
      by_cases hkey : key = name
      · rw [List.filter_cons_of_neg (by simp [hkey]), List.filter_cons_of_neg (by simp [hkey])]
        exact hmore
      · rw [List.filter_cons_of_pos (by simp [hkey]), List.filter_cons_of_pos (by simp [hkey])]
        simp only [AlikeFields]
        exact ⟨trivial, hvalue, hmore⟩

theorem set (h : AlikeFields as bs) (hvalue : Alike a b) :
    AlikeFields (as.set name a) (bs.set name b) :=
  h.erase.append (by simpa [AlikeFields] using hvalue)

end AlikeFields

end Json
