/-
  POSIX PATHS, as strings: `resolve`, `relative` and `isAbsolute`.

  All of it is lexical, no link is followed.  A path string is read as the parts between its
  slashes; `Dir` is an absolute path that is normal: parts that name something, so neither empty nor
  `.` nor `..`.  `Dir.walk d path` is where `path` leads from `d`.  A `..` above the root stays at
  the root.

  What containment checks need is at the end of each section: writing a `Dir` and reading it back
  (`resolve_text`), what a string prefix of a written path says about its parts (`parts_of_below`),
  and where a relative path leads, from its own start and from elsewhere (`walk_relative`,
  `walk_relative_below`).
-/
import Mathlib.Data.List.Induction

namespace Posix

/-! ## Parts -/

abbrev Part := List Char

def dotdot : Part := ['.', '.']

/-- A part that leads into a directory entry. -/
def Plain (part : Part) : Prop := part ≠ [] ∧ part ≠ ['.'] ∧ part ≠ dotdot ∧ '/' ∉ part

def split (path : List Char) : List Part := path.splitOn '/'

def join (parts : List Part) : List Char := ['/'].intercalate parts

/-- One part further: `normalizeString`. -/
def enter (base : List Part) (part : Part) : List Part :=
  if part = [] ∨ part = ['.'] then base
  else if part = dotdot then base.dropLast
  else base ++ [part]

theorem slash_notMem_split (path : List Char) : ∀ part ∈ split path, '/' ∉ part := by
  induction path with
  | nil => simp [split]
  | cons c path ih =>
    intro part hpart
    rw [split, List.splitOn_cons_eq_if_modifyHead] at hpart
    split at hpart
    · rcases List.mem_cons.mp hpart with rfl | hpart
      · simp
      · exact ih part hpart
    · next hc =>
      have hslash : c ≠ '/' := by simpa using hc
      generalize hparts : List.splitOn '/' path = parts at hpart
      have ih' : ∀ part ∈ parts, '/' ∉ part := by rwa [split, hparts] at ih
      cases parts with
      | nil => cases hpart
      | cons first rest =>
        rcases List.mem_cons.mp hpart with rfl | hpart
        · have hfirst := ih' first (by simp)
          simp [hfirst, Ne.symm hslash]
        · exact ih' part (List.mem_cons_of_mem first hpart)

theorem split_join {parts : List Part} (h : ∀ part ∈ parts, '/' ∉ part) (hne : parts ≠ []) :
    split (join parts) = parts := List.splitOn_intercalate '/' h hne

theorem plain_enter {base : List Part} {part : Part} (hbase : ∀ p ∈ base, Plain p)
    (hpart : '/' ∉ part) : ∀ p ∈ enter base part, Plain p := by
  intro p hp
  unfold enter at hp
  split at hp
  · exact hbase p hp
  · next hskip =>
    split at hp
    · exact hbase p ((List.dropLast_sublist base).subset hp)
    · next hup =>
      rcases List.mem_append.mp hp with hp | hp
      · exact hbase p hp
      · obtain rfl := List.mem_singleton.mp hp
        exact ⟨fun h => hskip (.inl h), fun h => hskip (.inr h), hup, hpart⟩

theorem plain_foldl {parts : List Part} (hparts : ∀ part ∈ parts, '/' ∉ part) :
    ∀ {base : List Part}, (∀ p ∈ base, Plain p) → ∀ p ∈ parts.foldl enter base, Plain p := by
  induction parts with
  | nil => exact fun hbase => hbase
  | cons part parts ih =>
    intro base hbase
    have hrest : ∀ part ∈ parts, '/' ∉ part := fun p hp => hparts p (List.mem_cons_of_mem part hp)
    exact ih hrest (plain_enter hbase (hparts part (by simp)))

theorem foldl_plain {parts : List Part} (h : ∀ part ∈ parts, Plain part) (base : List Part) :
    parts.foldl enter base = base ++ parts := by
  induction parts generalizing base with
  | nil => simp
  | cons part parts ih =>
    obtain ⟨hempty, hdot, hup, -⟩ := h part (by simp)
    have henter : enter base part = base ++ [part] := by simp [enter, hempty, hdot, hup]
    rw [List.foldl_cons, henter, ih fun p hp => h p (List.mem_cons_of_mem part hp)]
    simp

theorem enter_dotdot (base : List Part) (part : Part) : enter (base ++ [part]) dotdot = base := by
  simp [enter, dotdot]

theorem foldl_dotdot (base above : List Part) :
    (List.replicate above.length dotdot).foldl enter (base ++ above) = base := by
  induction above using List.reverseRecOn with
  | nil => simp
  | append_singleton above part ih =>
    rw [List.length_append, List.length_singleton, List.replicate_succ, List.foldl_cons,
      ← List.append_assoc, enter_dotdot, ih]

/-! ## Directories -/

/-- An absolute, normal path. -/
@[ext] structure Dir where
  parts : List Part
  plain : ∀ part ∈ parts, Plain part

def isAbsolute (path : String) : Bool := path.toList.head? == some '/'

namespace Dir

def root : Dir := ⟨[], fun _ h => nomatch h⟩

/-- Where the characters of a path lead from here. -/
def follow (d : Dir) (path : List Char) : Dir :=
  ⟨(split path).foldl enter d.parts, plain_foldl (slash_notMem_split path) d.plain⟩

@[simp] theorem follow_parts (d : Dir) (path : List Char) :
    (d.follow path).parts = (split path).foldl enter d.parts := rfl

/-- Where a relative path leads from here. -/
def walk (d : Dir) (path : String) : Dir := d.follow path.toList

def text (d : Dir) : String := String.ofList ('/' :: join d.parts)

/-- `d` is `above` or something below it. -/
def Within (above d : Dir) : Prop := above.parts <+: d.parts

instance (above d : Dir) : Decidable (Within above d) := inferInstanceAs (Decidable (_ <+: _))

theorem Within.refl (d : Dir) : Within d d := List.prefix_rfl

/-- What `d` is below `above`, below `target`. -/
def move (above target d : Dir) : Dir :=
  ⟨target.parts ++ d.parts.drop above.parts.length, by
    intro part hpart
    rcases List.mem_append.mp hpart with hpart | hpart
    · exact target.plain part hpart
    · exact d.plain part (List.mem_of_mem_drop hpart)⟩

theorem within_move (above target d : Dir) : Within target (move above target d) :=
  List.prefix_append _ _

theorem move_parts {above target d : Dir} {rest : List Part}
    (h : d.parts = above.parts ++ rest) : (move above target d).parts = target.parts ++ rest := by
  simp [move, h]

end Dir

/-- `resolve(path)` in the working directory. -/
def resolve (cwd : Dir) (path : String) : Dir := (if isAbsolute path then Dir.root else cwd).walk path

theorem Dir.follow_join {d : Dir} {parts : List Part} (h : ∀ part ∈ parts, '/' ∉ part) :
    (d.follow (join parts)).parts = parts.foldl enter d.parts := by
  cases parts with
  | nil => simp [split, join, enter]
  | cons part parts => rw [Dir.follow_parts, split_join h (by simp)]

/-- A leading part that leads nowhere. -/
theorem Dir.follow_here {d : Dir} {part : Part} {path : List Char} (hslash : '/' ∉ part)
    (h : part = [] ∨ part = ['.']) : d.follow (part ++ '/' :: path) = d.follow path := by
  apply Dir.ext
  rw [Dir.follow_parts, split, List.splitOn_append_cons_self_of_not_mem hslash, List.foldl_cons,
    enter, if_pos h]
  rfl

theorem isAbsolute_iff {path : String} :
    isAbsolute path = true ↔ ∃ cs, path.toList = '/' :: cs := by
  unfold isAbsolute
  cases path.toList with
  | nil => simp
  | cons c cs => simp

theorem resolve_absolute {cwd : Dir} {path : String} {cs : List Char}
    (h : path.toList = '/' :: cs) : resolve cwd path = Dir.root.follow cs := by
  have habs : isAbsolute path = true := isAbsolute_iff.mpr ⟨cs, h⟩
  have hhere : Dir.root.follow ([] ++ '/' :: cs) = Dir.root.follow cs :=
    Dir.follow_here (by simp) (.inl rfl)
  rw [resolve, if_pos habs, Dir.walk, h]
  exact hhere

theorem Dir.text_toList (d : Dir) : d.text.toList = '/' :: join d.parts := String.toList_ofList

/-- A written directory is read back, whatever the working directory. -/
theorem resolve_text (cwd d : Dir) : resolve cwd d.text = d := by
  apply Dir.ext
  have hslash : ∀ part ∈ d.parts, '/' ∉ part := fun part h => (d.plain part h).2.2.2
  rw [resolve_absolute d.text_toList, Dir.follow_join hslash, foldl_plain d.plain]
  rfl

/-! ## Below a directory, by its string -/

def startsWith (path start : String) : Bool := start.toList.isPrefixOf path.toList

/-- `path === dir || path.startsWith(dir + sep)`. -/
def below (dir : String) (d : Dir) : Bool :=
  decide (d.text = dir) || startsWith d.text (dir ++ "/")

/-- A written path that is below an absolute string is below the directory of that string. -/
theorem parts_of_below {cwd d : Dir} {dir : String} (habs : isAbsolute dir = true)
    (h : below dir d = true) : ∃ rest, d.parts = (resolve cwd dir).parts ++ rest := by
  rw [below, Bool.or_eq_true, decide_eq_true_iff] at h
  rcases h with rfl | h
  · exact ⟨[], by rw [resolve_text, List.append_nil]⟩
  · obtain ⟨cs, hcs⟩ := isAbsolute_iff.mp habs
    obtain ⟨tail, htail⟩ := List.isPrefixOf_iff_prefix.mp h
    have hchars : join d.parts = cs ++ '/' :: tail := by
      rw [d.text_toList, String.toList_append, hcs] at htail
      have hcons := List.cons.inj htail.symm
      simpa using hcons.2
    have hne : d.parts ≠ [] := by
      intro hnil
      rw [hnil] at hchars
      simp [join] at hchars
    -- The parts of `dir` are the first parts of `d`, so they are plain and `dir` is normal.
    have hparts : d.parts = split cs ++ split tail := by
      rw [← split_join (fun part hp => (d.plain part hp).2.2.2) hne, hchars, split,
        List.splitOn_append_cons_self]
      rfl
    have hplain : ∀ part ∈ split cs, Plain part := fun part hp =>
      d.plain part (by rw [hparts]; exact List.mem_append_left _ hp)
    refine ⟨split tail, ?_⟩
    rw [resolve_absolute hcs, Dir.follow_parts, foldl_plain hplain, hparts]
    rfl

/-! ## Relative paths -/

/-- The parts from one directory to another: up to the last common one, and down. -/
def climb : List Part → List Part → List Part
  | a :: as, b :: bs =>
    if a = b then climb as bs else List.replicate (a :: as).length dotdot ++ b :: bs
  | as, bs => List.replicate as.length dotdot ++ bs

/-- `relative(from, to)`. -/
def relative (cwd : Dir) (start goal : String) : String :=
  String.ofList (join (climb (resolve cwd start).parts (resolve cwd goal).parts))

theorem climb_append (base rest : List Part) : climb base (base ++ rest) = rest := by
  induction base with
  | nil => simp [climb]
  | cons part base ih => simp [climb, ih]

/-- The parts of a relative path are neither empty nor do they contain a slash. -/
theorem mem_climb {as bs : List Part} (h : ∀ part ∈ bs, Plain part) :
    ∀ part ∈ climb as bs, part ≠ [] ∧ '/' ∉ part := by
  have hplain : ∀ part ∈ bs, part ≠ [] ∧ '/' ∉ part := fun part hp =>
    ⟨(h part hp).1, (h part hp).2.2.2⟩
  have hups : ∀ n, ∀ part ∈ List.replicate n dotdot, part ≠ [] ∧ '/' ∉ part := by
    intro n part hpart
    rw [(List.mem_replicate.mp hpart).2]
    decide
  induction as, bs using climb.induct with
  | case1 as b bs ih =>
    intro part hpart
    rw [climb, if_pos rfl] at hpart
    have hrest : ∀ part ∈ bs, part ∈ b :: bs := fun p hp => List.mem_cons_of_mem b hp
    exact ih (fun p hp => h p (hrest p hp)) (fun p hp => hplain p (hrest p hp)) part hpart
  | case2 a as b bs hne =>
    intro part hpart
    rw [climb, if_neg hne] at hpart
    rcases List.mem_append.mp hpart with hpart | hpart
    · exact hups _ part hpart
    · exact hplain part hpart
  | case3 as bs hcons =>
    intro part hpart
    rw [climb.eq_2 as bs hcons] at hpart
    rcases List.mem_append.mp hpart with hpart | hpart
    · exact hups _ part hpart
    · exact hplain part hpart

theorem foldl_climb (base as bs : List Part) (h : ∀ part ∈ bs, Plain part) :
    (climb as bs).foldl enter (base ++ as) = base ++ bs := by
  induction as, bs using climb.induct generalizing base with
  | case1 as b bs ih =>
    rw [climb, if_pos rfl]
    have hrest := ih (base ++ [b]) fun p hp => h p (List.mem_cons_of_mem b hp)
    simpa using hrest
  | case2 a as b bs hne =>
    rw [climb, if_neg hne, List.foldl_append, foldl_dotdot, foldl_plain h]
  | case3 as bs hcons =>
    rw [climb.eq_2 as bs hcons, List.foldl_append, foldl_dotdot, foldl_plain h]

/-- A relative path leads from its start to its goal. -/
theorem walk_relative (cwd : Dir) (start goal : String) :
    (resolve cwd start).walk (relative cwd start goal) = resolve cwd goal := by
  apply Dir.ext
  have hgoal : ∀ part ∈ (resolve cwd goal).parts, Plain part := (resolve cwd goal).plain
  have hslash : ∀ part ∈ climb (resolve cwd start).parts (resolve cwd goal).parts, '/' ∉ part :=
    fun part hp => (mem_climb hgoal part hp).2
  rw [Dir.walk, relative, String.toList_ofList, Dir.follow_join hslash]
  have hclimb := foldl_climb [] (resolve cwd start).parts (resolve cwd goal).parts hgoal
  simpa using hclimb

/-- To something below its start it leads down, from wherever it is followed. -/
theorem walk_relative_below {cwd d : Dir} {start goal : String} {rest : List Part}
    (h : (resolve cwd goal).parts = (resolve cwd start).parts ++ rest) :
    (d.walk (relative cwd start goal)).parts = d.parts ++ rest := by
  have hplain : ∀ part ∈ rest, Plain part := fun part hp =>
    (resolve cwd goal).plain part (by rw [h]; exact List.mem_append_right _ hp)
  rw [Dir.walk, relative, String.toList_ofList, h, climb_append,
    Dir.follow_join fun part hp => (hplain part hp).2.2.2, foldl_plain hplain]

theorem head_join {parts : List Part} (h : ∀ part ∈ parts, part ≠ [] ∧ '/' ∉ part) :
    (join parts).head? ≠ some '/' := by
  cases parts with
  | nil => simp [join]
  | cons part parts =>
    obtain ⟨hempty, hslash⟩ := h part (by simp)
    obtain ⟨c, cs, rfl⟩ := List.exists_cons_of_ne_nil hempty
    have hc : c ≠ '/' := fun heq => hslash (by simp [heq])
    cases parts <;> simp [join, hc]

theorem isAbsolute_relative (cwd : Dir) (start goal : String) :
    isAbsolute (relative cwd start goal) = false := by
  have hhead := head_join (@mem_climb (resolve cwd start).parts _ (resolve cwd goal).plain)
  rw [isAbsolute, relative, String.toList_ofList]
  exact beq_false_of_ne hhead

theorem resolve_relative (d cwd : Dir) (start goal : String) :
    resolve d (relative cwd start goal) = d.walk (relative cwd start goal) := by
  simp [resolve, isAbsolute_relative]

/-- `./path` leads where `path` does. -/
theorem resolve_here (d : Dir) (path : String) : resolve d ("./" ++ path) = d.walk path := by
  have hchars : ("./" ++ path).toList = ['.'] ++ '/' :: path.toList := by
    rw [String.toList_append]
    rfl
  have hrelative : isAbsolute ("./" ++ path) = false := by
    rw [isAbsolute, hchars]
    rfl
  rw [resolve, hrelative, if_neg (by decide), Dir.walk, hchars, Dir.follow_here (by decide) (.inr rfl)]
  rfl

example : (relative Dir.root "/a/b" "/a/c/d", (resolve Dir.root "/a/./b//../c").text) =
    ("../c/d", "/a/c") := by decide +kernel

end Posix
