/-
  KEYED TABLES: a database table as the list of its rows, with a primary key.

  `get` is `SELECT ... WHERE key = k`, `update` is `UPDATE ... WHERE key = k`, `insert` appends.
  Everything a proof about a transaction needs is how a later `get` sees an earlier write; those are
  the simp lemmas of the first section.  `Keyed` is the primary key itself, and only a query over the
  whole table needs it (`Keyed.get`: the row at hand IS the row of its key).
-/

namespace Table

variable {α κ : Type} [DecidableEq κ] {key : α → κ} {rows : List α} {k j : κ} {row : α}

/-- The row of a key. -/
def get (key : α → κ) (rows : List α) (k : κ) : Option α := rows.find? fun row => key row = k

/-- Rewrites the row of a key; nothing happens when there is none. -/
def update (key : α → κ) (rows : List α) (k : κ) (f : α → α) : List α :=
  rows.map fun row => if key row = k then f row else row

/-! ## Reading back a write -/

theorem get_key (h : get key rows k = some row) : key row = k := by
  simpa using List.find?_some h

theorem get_mem (h : get key rows k = some row) : row ∈ rows := List.mem_of_find?_eq_some h

@[simp] theorem get_nil : get key [] k = none := rfl

theorem get_cons : get key (row :: rows) k = if key row = k then some row else get key rows k := by
  unfold get
  by_cases h : key row = k <;> simp [h]

theorem get_eq_none : get key rows k = none ↔ ∀ row ∈ rows, key row ≠ k := by
  simp [get]

@[simp] theorem get_append :
    get key (rows ++ [row]) k = (get key rows k).or (if key row = k then some row else none) := by
  simp [get]

/-- A whole-table rewrite that keeps the keys is seen row by row. -/
theorem get_map {f : α → α} (hf : ∀ row ∈ rows, key (f row) = key row) :
    get key (rows.map f) k = (get key rows k).map f := by
  induction rows with
  | nil => rfl
  | cons row rows ih =>
    have hrow : key (f row) = key row := hf row (by simp)
    have hrest := ih fun other hm => hf other (List.mem_cons_of_mem row hm)
    by_cases h : key row = k
    · simp [get_cons, hrow, h]
    · simp [get_cons, hrow, h, hrest]

theorem get_update_self {f : α → α} (hf : ∀ row, key (f row) = key row) :
    get key (update key rows k f) k = (get key rows k).map f := by
  induction rows with
  | nil => rfl
  | cons row rows ih =>
    simp only [update, List.map_cons] at ih ⊢
    by_cases h : key row = k
    · simp [get_cons, h, hf]
    · simp [get_cons, h, ih]

theorem get_update_ne {f : α → α} (hf : ∀ row, key (f row) = key row) (hj : j ≠ k) :
    get key (update key rows k f) j = get key rows j := by
  induction rows with
  | nil => rfl
  | cons row rows ih =>
    simp only [update, List.map_cons] at ih ⊢
    by_cases h : key row = k
    · simp [get_cons, h, hf, ih, Ne.symm hj]
    · simp [get_cons, h, ih]

theorem get_update {f : α → α} (hf : ∀ row, key (f row) = key row) :
    get key (update key rows k f) j = if j = k then (get key rows j).map f else get key rows j := by
  split
  · next h => subst h; exact get_update_self hf
  · next h => exact get_update_ne hf h

/-- A row that is replaced by another of its key. -/
theorem get_replace {value : α} (hv : key value = k) :
    get key (update key rows k fun _ => value) j =
      if j = k then (get key rows k).map (fun _ => value) else get key rows j := by
  induction rows with
  | nil => simp [update]
  | cons first rows ih =>
    simp only [update, List.map_cons] at ih ⊢
    by_cases hfirst : key first = k
    · by_cases hj : j = k
      · simp [get_cons, hfirst, hv, hj]
      · simp [get_cons, hfirst, hv, ih, hj, Ne.symm hj]
    · by_cases hj : j = k
      · subst hj
        simp [get_cons, hfirst, ih]
      · simp [get_cons, hfirst, ih, hj]

theorem mem_update {f : α → α} (h : row ∈ update key rows k f) :
    ∃ old ∈ rows, row = if key old = k then f old else old := by
  obtain ⟨old, hm, rfl⟩ := List.mem_map.mp h
  exact ⟨old, hm, rfl⟩

/-! ## The primary key -/

/-- No two rows share a key. -/
def Keyed (key : α → κ) (rows : List α) : Prop := (rows.map key).Nodup

omit [DecidableEq κ] in
theorem Keyed.nil : Keyed key [] := List.nodup_nil

theorem Keyed.get (h : Keyed key rows) (hm : row ∈ rows) : Table.get key rows (key row) = some row := by
  induction rows with
  | nil => simp at hm
  | cons first rows ih =>
    simp only [Keyed, List.map_cons, List.nodup_cons, List.mem_map, not_exists, not_and] at h
    rcases List.mem_cons.mp hm with rfl | hm
    · simp [get_cons]
    · have hne : key first ≠ key row := fun he => h.1 row hm he.symm
      simpa [get_cons, hne] using ih h.2 hm

/-- A row is determined by its key. -/
theorem Keyed.unique {other : α} (h : Keyed key rows) (hm : row ∈ rows) (ho : other ∈ rows)
    (heq : key row = key other) : row = other := by
  have hrow := h.get hm
  rw [heq, h.get ho] at hrow
  exact (Option.some.inj hrow).symm

/-- After the rewrite of one row, a row is the rewritten one or one of the others. -/
theorem Keyed.mem_update {f : α → α} {old : α} (h : Keyed key rows) (hold : old ∈ rows) :
    row ∈ Table.update key rows (key old) f ↔
      row = f old ∨ (row ∈ rows ∧ key row ≠ key old) := by
  constructor
  · intro hm
    obtain ⟨other, hother, rfl⟩ := Table.mem_update hm
    by_cases hkey : key other = key old
    · obtain rfl := h.unique hother hold hkey
      exact .inl (if_pos rfl)
    · rw [if_neg hkey]
      exact .inr ⟨hother, hkey⟩
  · rintro (rfl | ⟨hm, hkey⟩)
    · exact List.mem_map.mpr ⟨old, hold, if_pos rfl⟩
    · exact List.mem_map.mpr ⟨row, hm, if_neg hkey⟩

omit [DecidableEq κ] in
theorem Keyed.nodup (h : Keyed key rows) : rows.Nodup :=
  List.Pairwise.of_map key (fun _ _ hne heq => hne (congrArg key heq)) h

theorem Keyed.update {f : α → α} (h : Keyed key rows) (hf : ∀ row, key (f row) = key row) :
    Keyed key (Table.update key rows k f) := by
  have : (Table.update key rows k f).map key = rows.map key := by
    simp only [Table.update, List.map_map]
    refine List.map_congr_left fun row _ => ?_
    simp only [Function.comp_apply]
    split
    · exact hf row
    · rfl
  rwa [Keyed, this]

theorem Keyed.replace {value : α} (h : Keyed key rows) (hv : key value = k) :
    Keyed key (Table.update key rows k fun _ => value) := by
  have : (Table.update key rows k fun _ => value).map key = rows.map key := by
    simp only [Table.update, List.map_map]
    refine List.map_congr_left fun row _ => ?_
    simp only [Function.comp_apply]
    split
    · next heq => rw [hv, heq]
    · rfl
  rwa [Keyed, this]

/-- Replacing a row by itself changes nothing. -/
theorem Keyed.replace_self {value : α} (h : Keyed key rows) (hget : Table.get key rows k = some value) :
    (Table.update key rows k fun _ => value) = rows := by
  have : ∀ row ∈ rows, (if key row = k then value else row) = row := by
    intro row hrow
    split
    · next heq => exact h.unique (get_mem hget) hrow ((get_key hget).trans heq.symm)
    · rfl
  rw [Table.update, List.map_congr_left this, List.map_id']

theorem Keyed.insert (h : Keyed key rows) (hnew : Table.get key rows (key row) = none) :
    Keyed key (rows ++ [row]) := by
  rw [Keyed, List.map_append, List.map_singleton, List.nodup_append]
  refine ⟨h, by simp, fun a ha b hb => ?_⟩
  obtain ⟨old, hold, rfl⟩ := List.mem_map.mp ha
  rw [List.mem_singleton] at hb
  exact hb ▸ get_eq_none.mp hnew old hold

end Table
