/-
  JSON VALUES, as JavaScript reads them.

  An object is the list of its fields; `get` is `value[key]` with `none` for `undefined`, and `set`
  and `erase` are the assignment and the `delete` of a field.  The order of fields is not kept by
  `set`, nothing depends on it.  `truthy` is the test of `if (value)`.
-/

inductive Json where
  | null
  | bool (value : Bool)
  /-- A number is what it was parsed to, a finite double. -/
  | num (value : Rat)
  | str (value : String)
  | arr (items : List Json)
  | obj (fields : List (String × Json))

namespace Json

abbrev Fields := List (String × Json)

def truthy : Json → Bool
  | null => false
  | bool value => value
  | num value => value ≠ 0
  | str value => value ≠ ""
  | arr _ => true
  | obj _ => true

/-- `if (value)` of a field. -/
def isTruthy (value : Option Json) : Bool := value.any truthy

def isStr (text : String) : Json → Bool
  | str value => value = text
  | _ => false

/-- The fields of an object. -/
def fields? : Json → Option Fields
  | obj fields => some fields
  | _ => none

/-- The items of an array. -/
def items? : Json → Option (List Json)
  | arr items => some items
  | _ => none

def str? : Json → Option String
  | str value => some value
  | _ => none

theorem isStr_iff {text : String} {value : Json} : value.isStr text = true ↔ value = .str text := by
  cases value <;> simp [isStr]

theorem str?_iff {text : String} {value : Json} : value.str? = some text ↔ value = .str text := by
  cases value <;> simp [str?]

theorem fields?_iff {fields : Fields} {value : Json} :
    value.fields? = some fields ↔ value = .obj fields := by
  cases value <;> simp [fields?]

namespace Fields

def get (fields : Fields) (key : String) : Option Json := List.lookup key fields

def erase (fields : Fields) (key : String) : Fields := fields.filter fun field => field.1 ≠ key

def set (fields : Fields) (key : String) (value : Json) : Fields := erase fields key ++ [(key, value)]

variable {fields : Fields} {key other : String} {value : Json}

theorem get_nil : get [] key = none := rfl

theorem get_cons {field : String × Json} :
    get (field :: fields) key = if key = field.1 then some field.2 else get fields key := by
  obtain ⟨name, value⟩ := field
  by_cases h : key = name
  · simp [get, h]
  · have hbeq : (key == name) = false := beq_false_of_ne h
    simp [get, List.lookup_cons, h, hbeq]

theorem get_erase :
    get (erase fields key) other = if other = key then none else get fields other := by
  induction fields with
  | nil => simp [erase, get_nil]
  | cons field fields ih =>
    have hrest : get (List.filter (fun field => field.1 ≠ key) fields) other =
        if other = key then none else get fields other := ih
    by_cases hfield : field.1 = key
    · rw [erase, List.filter_cons_of_neg (by simp [hfield]), hrest, get_cons, hfield]
      split <;> rfl
    · rw [erase, List.filter_cons_of_pos (by simp [hfield]), get_cons, get_cons, hrest]
      by_cases hother : other = field.1
      · rw [if_pos hother, if_pos hother, if_neg (hother ▸ hfield)]
      · rw [if_neg hother, if_neg hother]

theorem get_append_single :
    get (fields ++ [(key, value)]) other =
      (get fields other).or (if other = key then some value else none) := by
  induction fields with
  | nil => simp [get_cons, get_nil]
  | cons field fields ih =>
    rw [List.cons_append, get_cons, get_cons, ih]
    split <;> simp

theorem get_ne_none {field : String × Json} (h : field ∈ fields) :
    get fields field.1 ≠ none := by
  induction fields with
  | nil => cases h
  | cons first fields ih =>
    rw [get_cons]
    split
    · simp
    · rename_i hne
      rcases List.mem_cons.mp h with rfl | h
      · exact absurd rfl hne
      · exact ih h

@[simp] theorem get_set :
    get (set fields key value) other = if other = key then some value else get fields other := by
  rw [set, get_append_single, get_erase]
  by_cases h : other = key <;> simp [h]

@[simp] theorem get_erase_self : get (erase fields key) key = none := by simp [get_erase]

theorem get_erase_ne (h : other ≠ key) : get (erase fields key) other = get fields other := by
  simp [get_erase, h]

end Fields

/-! ## Equality -/

mutual

def beq : Json → Json → Bool
  | null, null => true
  | bool a, bool b => a == b
  | num a, num b => a == b
  | str a, str b => a == b
  | arr a, arr b => beqItems a b
  | obj a, obj b => beqFields a b
  | _, _ => false

def beqItems : List Json → List Json → Bool
  | [], [] => true
  | a :: as, b :: bs => beq a b && beqItems as bs
  | _, _ => false

def beqFields : List (String × Json) → List (String × Json) → Bool
  | [], [] => true
  | (name, a) :: as, (name', b) :: bs => name == name' && beq a b && beqFields as bs
  | _, _ => false

end

mutual

theorem beq_iff : (a b : Json) → (beq a b = true ↔ a = b)
  | null, b => by cases b <;> simp [beq]
  | bool a, b => by cases b <;> simp [beq]
  | num a, b => by cases b <;> simp [beq]
  | str a, b => by cases b <;> simp [beq]
  | arr a, b => by
    cases b with
    | arr b => simp [beq, beqItems_iff a b]
    | null | bool _ | num _ | str _ | obj _ => simp [beq]
  | obj a, b => by
    cases b with
    | obj b => simp [beq, beqFields_iff a b]
    | null | bool _ | num _ | str _ | arr _ => simp [beq]

theorem beqItems_iff : (a b : List Json) → (beqItems a b = true ↔ a = b)
  | [], b => by cases b <;> simp [beqItems]
  | a :: as, [] => by simp [beqItems]
  | a :: as, b :: bs => by simp [beqItems, beq_iff a b, beqItems_iff as bs]

theorem beqFields_iff : (a b : List (String × Json)) → (beqFields a b = true ↔ a = b)
  | [], b => by cases b <;> simp [beqFields]
  | _ :: _, [] => by simp [beqFields]
  | (name, a) :: as, (name', b) :: bs => by
    simp [beqFields, beq_iff a b, beqFields_iff as bs, and_assoc]

end

instance : DecidableEq Json := fun a b => decidable_of_iff (beq a b = true) (beq_iff a b)

end Json
