/-
  FILE TREES: directories, files and symbolic links, and the calls that create in them.

  A tree says what stands at each place.  `walk` follows a path as the kernel does: a link met on
  the way is replaced by where it points, at most `links` times, and `..` goes up from where the
  path has led.  A run of calls is an action: it may fail in the middle, and what it did until then
  stays.

  What callers want to know of such a run: it only adds, and only certain places (`Adds`); a path
  that led somewhere still leads there (`Grows.walk`); and a path through real directories, none of
  them a link, leads to itself (`Real.walk`), so that what is created there is created there.

  Permissions and owners are not kept, and nothing is removed or replaced.
-/
import AgentCloud.Lib.Posix
import Mathlib.Data.List.Basic

namespace FileTree

open Posix

inductive Node (α : Type) where
  | dir
  | file (content : α)
  | link (target : List Char)
deriving DecidableEq

inductive Errno where
  | noEntry
  | exists
  | notDirectory
  | loop
deriving DecidableEq

/-- What stands at each place below the root. -/
abbrev Disk (α : Type) := Dir → Option (Node α)

variable {α β γ ε : Type} {t t' : Disk α} {d here : Dir} {part : Part} {rest : List Part}

instance : DecidableEq Dir := fun a b => decidable_of_iff (a.parts = b.parts) Dir.ext_iff.symm

instance (part : Part) : Decidable (Plain part) := inferInstanceAs (Decidable (_ ∧ _ ∧ _ ∧ _))

/-- The root is a directory. -/
def node (t : Disk α) (d : Dir) : Option (Node α) := if d.parts = [] then some .dir else t d

/-! ## Following a path -/

/-- One path, until a link is met. -/
def walkUntil (t : Disk α) (jump : Dir → List Part → Except Errno Dir) :
    Dir → List Part → Except Errno Dir
  | here, [] => .ok here
  | here, part :: rest =>
    if Plain part then
      match t (here.follow part) with
      | none => .error .noEntry
      | some .dir => walkUntil t jump (here.follow part) rest
      | some (.file _) => if rest = [] then .ok (here.follow part) else .error .notDirectory
      | some (.link target) =>
        jump (if target.head? = some '/' then Dir.root else here) (split target ++ rest)
    else walkUntil t jump (here.follow part) rest

/-- Where a path leads that may go through `n` links. -/
def walk (t : Disk α) : Nat → Dir → List Part → Except Errno Dir
  | 0 => walkUntil t fun _ _ => .error .loop
  | n + 1 => walkUntil t (walk t n)

/-- `ELOOP` comes after forty of them. -/
def links : Nat := 40

def realpath (t : Disk α) (path : Dir) : Except Errno Dir := walk t links Dir.root path.parts

/-- `dirname`. -/
def dirname (d : Dir) : Dir :=
  ⟨d.parts.dropLast, fun part h => d.plain part (List.dropLast_subset _ h)⟩

/-- Where the last part of a path stands, if it is a link the link itself. -/
def located (t : Disk α) (path : Dir) : Except Errno Dir :=
  match path.parts.getLast? with
  | none => .ok Dir.root
  | some name =>
    match realpath t (dirname path) with
    | .error e => .error e
    | .ok dir =>
      match node t dir with
      | some .dir => .ok (dir.follow name)
      | _ => .error .notDirectory

/-! ## Real directories -/

/-- A directory that is reached through directories only. -/
inductive Real (t : Disk α) : Dir → Prop where
  | root : Real t Dir.root
  | child {d : Dir} {part : Part} (above : Real t d) (plain : Plain part)
      (dir : t (d.follow part) = some .dir) : Real t (d.follow part)

theorem follow_plain (h : Plain part) : (d.follow part).parts = d.parts ++ [part] := by
  have hsplit : split part = [part] := by
    have hjoin := @split_join [part] (by simpa using h.2.2.2) (by simp)
    simpa [join] using hjoin
  obtain ⟨hempty, hdot, hup, -⟩ := h
  rw [Dir.follow_parts, hsplit, List.foldl_cons, List.foldl_nil, enter]
  simp [hempty, hdot, hup]

/-- A path of plain parts, from a directory. -/
theorem parts_follow {path : List Char} (h : ∀ part ∈ split path, Plain part) :
    (d.follow path).parts = d.parts ++ split path := by
  rw [Dir.follow_parts, foldl_plain h]

theorem dirname_follow (h : Plain part) : dirname (d.follow part) = d := by
  apply Dir.ext
  show (d.follow part).parts.dropLast = d.parts
  rw [follow_plain h, List.dropLast_concat]

theorem node_follow (h : Plain part) : node t (d.follow part) = t (d.follow part) := by
  rw [node, if_neg (by rw [follow_plain h]; simp)]

namespace Real

theorem node (h : Real t d) : node t d = some .dir := by
  cases h with
  | root => rfl
  | child _ plain dir => rw [node_follow plain, dir]

theorem above (h : Real t d) : Real t (dirname d) := by
  cases h with
  | root => exact .root
  | child above plain _ => rwa [dirname_follow plain]

/-- A path to a real directory goes there, and on. -/
theorem walkUntil (h : Real t d) {jump : Dir → List Part → Except Errno Dir} :
    ∀ rest, walkUntil t jump Dir.root (d.parts ++ rest) = walkUntil t jump d rest := by
  induction h with
  | root => exact fun rest => rfl
  | child above plain dir ih =>
    intro rest
    rw [follow_plain plain, List.append_assoc, ih, List.singleton_append, FileTree.walkUntil,
      if_pos plain, dir]

theorem walk (h : Real t d) (n : Nat) : walk t n Dir.root d.parts = .ok d := by
  have hgo : ∀ jump : Dir → List Part → Except Errno Dir,
      FileTree.walkUntil t jump Dir.root d.parts = .ok d := by
    intro jump
    have hpath := @Real.walkUntil _ t d h jump []
    rw [List.append_nil] at hpath
    rw [hpath, FileTree.walkUntil]
  cases n with
  | zero => exact hgo _
  | succ n => exact hgo _

theorem realpath (h : Real t d) : realpath t d = .ok d := h.walk links

/-- What is named in a real directory stands in it. -/
theorem located (h : Real t d) (plain : Plain part) :
    located t (d.follow part) = .ok (d.follow part) := by
  have hlast : (d.follow part).parts.getLast? = some part := by
    rw [follow_plain plain, List.getLast?_concat]
  simp only [FileTree.located, hlast, dirname_follow plain, h.realpath, h.node]

end Real

/-- A part that names nothing leads to a real directory too. -/
theorem Real.skip (h : Real t here) (hslash : '/' ∉ part) (hskip : ¬ Plain part) :
    Real t (here.follow part) := by
  have hparts : (here.follow part).parts = enter here.parts part := by
    have hsplit : split part = [part] := by
      have hjoin := @split_join [part] (by simpa using hslash) (by simp)
      simpa [join] using hjoin
    rw [Dir.follow_parts, hsplit, List.foldl_cons, List.foldl_nil]
  have hcases : (part = [] ∨ part = ['.']) ∨ part = dotdot := by
    by_contra hnot
    simp only [not_or] at hnot
    exact hskip ⟨hnot.1.1, hnot.1.2, hnot.2, hslash⟩
  rcases hcases with hhere | hup
  · have hsame : here.follow part = here := Dir.ext (by rw [hparts, enter, if_pos hhere])
    rwa [hsame]
  · have hno : ¬ (part = [] ∨ part = ['.']) := by rw [hup]; decide
    have habove : here.follow part = dirname here :=
      Dir.ext (by rw [hparts, enter, if_neg hno, if_pos hup]; rfl)
    rw [habove]
    exact h.above

/-- Where a path leads is real, if it is a directory. -/
theorem Real.of_walk {n : Nat} (hhere : Real t here) (hrest : ∀ part ∈ rest, '/' ∉ part)
    (h : FileTree.walk t n here rest = .ok d) (hdir : FileTree.node t d = some .dir) :
    Real t d := by
  have hone : ∀ (jump : Dir → List Part → Except Errno Dir),
      (∀ here rest, Real t here → (∀ part ∈ rest, '/' ∉ part) → jump here rest = .ok d → Real t d) →
      ∀ rest here, Real t here → (∀ part ∈ rest, '/' ∉ part) →
        FileTree.walkUntil t jump here rest = .ok d → Real t d := by
    intro jump hjump rest
    induction rest with
    | nil =>
      intro here hhere _ h
      rw [FileTree.walkUntil] at h
      cases h
      exact hhere
    | cons part rest ih =>
      intro here hhere hslash h
      have htail : ∀ part ∈ rest, '/' ∉ part := fun p hp => hslash p (List.mem_cons_of_mem _ hp)
      have hpart : '/' ∉ part := hslash part (by simp)
      rw [FileTree.walkUntil] at h
      by_cases plain : Plain part
      · rw [if_pos plain] at h
        split at h
        · cases h
        · next dir => exact ih _ (hhere.child plain dir) htail h
        · next content hfile =>
          split at h
          · cases h
            rw [node_follow plain, hfile] at hdir
            cases hdir
          · cases h
        · next target _ =>
          refine hjump _ _ ?_ ?_ h
          · split
            · exact .root
            · exact hhere
          · intro p hp
            rcases List.mem_append.mp hp with hp | hp
            · exact slash_notMem_split target p hp
            · exact htail p hp
      · rw [if_neg plain] at h
        exact ih _ (hhere.skip hpart plain) htail h
  induction n generalizing here rest with
  | zero => exact hone _ (fun _ _ _ _ h => by cases h) rest here hhere hrest h
  | succ n ih => exact hone _ (fun here rest hhere hrest h => ih hhere hrest h) rest here hhere hrest h

/-- One directory further. -/
theorem walk_concat {n : Nat} (h : walk t n here rest = .ok d) (hdir : node t d = some .dir)
    (plain : Plain part) (hpart : t (d.follow part) = some .dir) :
    walk t n here (rest ++ [part]) = .ok (d.follow part) := by
  have hone : ∀ (jump : Dir → List Part → Except Errno Dir),
      (∀ here rest, jump here rest = .ok d → jump here (rest ++ [part]) = .ok (d.follow part)) →
      ∀ rest here, walkUntil t jump here rest = .ok d →
        walkUntil t jump here (rest ++ [part]) = .ok (d.follow part) := by
    intro jump hjump rest
    induction rest with
    | nil =>
      intro here h
      rw [walkUntil] at h
      cases h
      rw [List.nil_append, walkUntil, if_pos plain, hpart]
      rfl
    | cons first rest ih =>
      intro here h
      rw [walkUntil] at h
      rw [List.cons_append, walkUntil]
      by_cases hfirst : Plain first
      · rw [if_pos hfirst] at h ⊢
        cases hat : t (here.follow first) with
        | none => simp only [hat] at h; cases h
        | some found =>
          simp only [hat] at h ⊢
          cases found with
          | dir => exact ih _ h
          | file content =>
            dsimp only at h
            split at h
            · cases h
              rw [node_follow hfirst, hat] at hdir
              cases hdir
            · cases h
          | link target =>
            show jump _ (split target ++ (rest ++ [part])) = _
            rw [← List.append_assoc]
            exact hjump _ _ h
      · rw [if_neg hfirst] at h ⊢
        exact ih _ h
  induction n generalizing here rest with
  | zero => exact hone _ (fun _ _ h => by cases h) rest here h
  | succ n ih => exact hone _ (fun _ _ h => ih h) rest here h

theorem located_follow {path : Dir} (plain : Plain part)
    (h : located t (path.follow part) = .ok d) :
    ∃ dir, realpath t path = .ok dir ∧ d = dir.follow part := by
  have hlast : (path.follow part).parts.getLast? = some part := by
    rw [follow_plain plain, List.getLast?_concat]
  simp only [located, hlast, dirname_follow plain] at h
  cases hreal : realpath t path with
  | error e => simp [hreal] at h
  | ok dir =>
    simp only [hreal] at h
    split at h
    · exact ⟨dir, rfl, (Except.ok.inj h).symm⟩
    · cases h

/-- A path whose last part is a directory, and not a link to one, leads to a real directory. -/
theorem Real.of_located {path : Dir} (h : FileTree.located t path = .ok d)
    (hdir : FileTree.node t d = some .dir) : Real t d ∧ FileTree.realpath t path = .ok d := by
  unfold FileTree.located at h
  split at h
  · next hlast =>
    cases h
    have hparts : path.parts = [] := List.getLast?_eq_none_iff.mp hlast
    refine ⟨.root, ?_⟩
    rw [FileTree.realpath, hparts]
    exact Real.root.walk links
  · next name hlast =>
    have hmem : name ∈ path.parts := List.mem_of_getLast? hlast
    have plain : Plain name := path.plain name hmem
    have hparts : path.parts = (dirname path).parts ++ [name] :=
      (List.dropLast_append_getLast? name hlast).symm
    split at h
    · cases h
    · next dir hreal =>
      split at h
      · next hat =>
        cases h
        rw [node_follow plain] at hdir
        have habove : Real t dir := Real.of_walk .root
          (fun part hp => ((dirname path).plain part hp).2.2.2) hreal hat
        refine ⟨habove.child plain hdir, ?_⟩
        rw [FileTree.realpath, hparts]
        exact walk_concat hreal hat plain hdir
      · cases h

/-! ## Adding -/

/-- What stood stays, what is new is permitted. -/
def Adds (P : Dir → Node α → Prop) (t t' : Disk α) : Prop :=
  ∀ d, t' d = t d ∨ t d = none ∧ ∃ new, t' d = some new ∧ P d new

def Grows (t t' : Disk α) : Prop := ∀ d stands, t d = some stands → t' d = some stands

variable {P Q : Dir → Node α → Prop}

theorem Adds.refl (t : Disk α) : Adds P t t := fun _ => .inl rfl

theorem Adds.of_eq (h : t' = t) : Adds P t t' := h ▸ Adds.refl t'

theorem Adds.grows (h : Adds P t t') : Grows t t' := by
  intro d stands ht
  rcases h d with hsame | ⟨hnone, -⟩
  · rw [hsame, ht]
  · rw [hnone] at ht
    cases ht

theorem Adds.trans {t'' : Disk α} (h : Adds P t t') (h' : Adds P t' t'') : Adds P t t'' := by
  intro d
  rcases h d with hsame | ⟨hnone, new, hnew, hP⟩
  · rcases h' d with hsame' | ⟨hnone', new, hnew, hP⟩
    · exact .inl (hsame'.trans hsame)
    · exact .inr ⟨hsame ▸ hnone', new, hnew, hP⟩
  · exact .inr ⟨hnone, new, h'.grows d new hnew, hP⟩

theorem Adds.mono (h : Adds P t t') (hPQ : ∀ d new, P d new → Q d new) : Adds Q t t' := by
  intro d
  rcases h d with hsame | ⟨hnone, new, hnew, hP⟩
  · exact .inl hsame
  · exact .inr ⟨hnone, new, hnew, hPQ d new hP⟩

namespace Grows

theorem refl (t : Disk α) : Grows t t := fun _ _ h => h

theorem trans {t'' : Disk α} (h : Grows t t') (h' : Grows t' t'') : Grows t t'' :=
  fun d stands ht => h' d stands (h d stands ht)

theorem node (h : Grows t t') {stands : Node α} (hd : node t d = some stands) :
    node t' d = some stands := by
  unfold FileTree.node at hd ⊢
  split at hd
  · next hroot => rwa [if_pos hroot]
  · next hbelow => rw [if_neg hbelow, h d stands hd]

theorem real (h : Grows t t') (hd : Real t d) : Real t' d := by
  induction hd with
  | root => exact .root
  | child _ plain dir ih => exact ih.child plain (h _ _ dir)

/-- A path that led somewhere still leads there. -/
theorem walk (h : Grows t t') {n : Nat} (hwalk : walk t n here rest = .ok d) :
    FileTree.walk t' n here rest = .ok d := by
  have hone : ∀ (jump jump' : Dir → List Part → Except Errno Dir),
      (∀ here rest, jump here rest = .ok d → jump' here rest = .ok d) →
      ∀ rest here, walkUntil t jump here rest = .ok d → walkUntil t' jump' here rest = .ok d := by
    intro jump jump' hjump rest
    induction rest with
    | nil => exact fun here h => h
    | cons part rest ih =>
      intro here hwalk
      rw [walkUntil] at hwalk ⊢
      by_cases plain : Plain part
      · rw [if_pos plain] at hwalk ⊢
        cases hat : t (here.follow part) with
        | none => simp only [hat] at hwalk; cases hwalk
        | some found =>
          simp only [hat, h _ _ hat] at hwalk ⊢
          cases found with
          | dir => exact ih _ hwalk
          | file content => exact hwalk
          | link target => exact hjump _ _ hwalk
      · rw [if_neg plain] at hwalk ⊢
        exact ih _ hwalk
  induction n generalizing here rest with
  | zero => exact hone _ _ (fun _ _ h => by cases h) rest here hwalk
  | succ n ih => exact hone _ _ (fun _ _ h => ih h) rest here hwalk

theorem realpath (h : Grows t t') {path : Dir} (hpath : realpath t path = .ok d) :
    FileTree.realpath t' path = .ok d := h.walk hpath

end Grows

/-! ## Calls -/

/-- A run of calls: what it returned or failed with, and what it has done. -/
def Action (α ε β : Type) := Disk α → Except ε β × Disk α

instance : Monad (Action α ε) where
  pure b := fun t => (.ok b, t)
  bind m f := fun t =>
    match m t with
    | (.ok b, t') => f b t'
    | (.error e, t') => (.error e, t')

namespace Action

/-- What the tree does not decide. -/
def ofExcept (x : Except ε β) : Action α ε β := fun t => (x, t)

/-- What is only looked up. -/
def read (f : Disk α → Except ε β) : Action α ε β := fun t => (f t, t)

/-- `m.catch(f)`. -/
def handle {δ : Type} (m : Action α δ β) (f : δ → Action α ε β) : Action α ε β := fun t =>
  match m t with
  | (.ok b, t') => (.ok b, t')
  | (.error e, t') => f e t'

/-- How an action ends that starts in `t`. -/
def Ends (m : Action α ε β) (t : Disk α) (Q : Except ε β → Disk α → Prop) : Prop :=
  Q (m t).1 (m t).2

theorem Ends.bind {m : Action α ε β} {f : β → Action α ε γ} {Q : Except ε γ → Disk α → Prop}
    (h : m.Ends t fun r t' =>
      match r with
      | .ok b => (f b).Ends t' Q
      | .error e => Q (.error e) t') : (m >>= f).Ends t Q := by
  show Q _ _
  unfold Ends at h
  simp only [Bind.bind]
  rcases hm : m t with ⟨r, t'⟩
  rw [hm] at h
  cases r with
  | ok b => exact h
  | error e => exact h

theorem Ends.pure {b : β} {Q : Except ε β → Disk α → Prop} (h : Q (.ok b) t) :
    (Pure.pure b : Action α ε β).Ends t Q := h

theorem Ends.ofExcept {x : Except ε β} {Q : Except ε β → Disk α → Prop} (h : Q x t) :
    (Action.ofExcept x : Action α ε β).Ends t Q := h

theorem Ends.read {f : Disk α → Except ε β} {Q : Except ε β → Disk α → Prop} (h : Q (f t) t) :
    (Action.read f).Ends t Q := h

theorem Ends.mono {m : Action α ε β} {Q Q' : Except ε β → Disk α → Prop} (h : m.Ends t Q)
    (hQ : ∀ r t', Q r t' → Q' r t') : m.Ends t Q' := hQ _ _ h

theorem Ends.handle {δ : Type} {m : Action α δ β} {f : δ → Action α ε β}
    {Q : Except ε β → Disk α → Prop}
    (h : m.Ends t fun r t' =>
      match r with
      | .ok b => Q (.ok b) t'
      | .error e => (f e).Ends t' Q) : (m.handle f).Ends t Q := by
  show Q _ _
  unfold Ends at h
  unfold Action.handle
  rcases hm : m t with ⟨r, t'⟩
  rw [hm] at h
  cases r with
  | ok b => exact h
  | error e => exact h

end Action

/-- What stands at a path, a link not followed. -/
def lstat (path : Dir) : Action α Errno (Node α) := fun t =>
  match located t path with
  | .error e => (.error e, t)
  | .ok place =>
    match node t place with
    | none => (.error .noEntry, t)
    | some stands => (.ok stands, t)

def put (t : Disk α) (place : Dir) (new : Node α) : Disk α :=
  fun d => if d = place then some new else t d

/-- A new entry, if there is none of its name. -/
def enter (new : Node α) (path : Dir) : Action α Errno Unit := fun t =>
  match located t path with
  | .error e => (.error e, t)
  | .ok place =>
    match node t place with
    | none => (.ok (), put t place new)
    | some _ => (.error .exists, t)

def mkdir (path : Dir) : Action α Errno Unit := enter .dir path

/-- `open(path, 'wx')`, written to its end. -/
def create (path : Dir) (content : α) : Action α Errno Unit := enter (.file content) path

/-- A directory stands there already, if need be behind a link; else the fault is thrown. -/
def existing (path : Dir) (e : Errno) : Action α Errno Unit := fun t =>
  match realpath t path with
  | .error e' => (.error e', t)
  | .ok place =>
    match node t place with
    | some .dir => (.ok (), t)
    | _ => (.error e, t)

/-- `mkdir(path, { recursive: true })`, for a path of at most `n` parts. -/
def mkdirAll : Nat → Dir → Action α Errno Unit
  | 0, path => (mkdir path).handle (existing path)
  | n + 1, path => (mkdir path).handle fun e =>
    if e = .noEntry then do
      mkdirAll n (dirname path)
      mkdir path
    else existing path e

theorem node_put {place : Dir} {new : Node α} (h : node t place = none) :
    put t place new place = some new ∧ Adds (fun d n => d = place ∧ n = new) t (put t place new) := by
  have hempty : t place = none := by
    unfold node at h
    split at h
    · cases h
    · exact h
  refine ⟨if_pos rfl, fun d => ?_⟩
  by_cases hd : d = place
  · exact .inr ⟨hd ▸ hempty, new, if_pos hd, hd, rfl⟩
  · exact .inl (if_neg hd)

/-- An entry is made where its path is located, or nothing is. -/
theorem enter_ends (new : Node α) (path : Dir) (t : Disk α) :
    (enter new path).Ends t fun r t' =>
      match r with
      | .ok () => ∃ place, located t path = .ok place ∧ t place = none ∧ t' place = some new ∧
          Adds (fun d n => d = place ∧ n = new) t t'
      | .error _ => t' = t := by
  unfold Action.Ends enter
  cases hlocated : located t path with
  | error e => rfl
  | ok place =>
    dsimp only
    cases hnode : node t place with
    | some stands => rfl
    | none =>
      obtain ⟨hput, hadds⟩ := @node_put _ t place new hnode
      have hempty : t place = none := by
        unfold node at hnode
        split at hnode
        · cases hnode
        · exact hnode
      exact ⟨place, rfl, hempty, hput, hadds⟩

theorem lstat_ends (path : Dir) (t : Disk α) :
    (lstat path).Ends t fun r t' => t' = t ∧
      ∀ stands, r = .ok stands → ∃ place, located t path = .ok place ∧ node t place = some stands := by
  unfold Action.Ends lstat
  cases hlocated : located t path with
  | error e => exact ⟨rfl, fun _ h => by cases h⟩
  | ok place =>
    dsimp only
    cases hnode : node t place with
    | none => exact ⟨rfl, fun _ h => by cases h⟩
    | some stands =>
      refine ⟨rfl, fun found h => ?_⟩
      obtain rfl : stands = found := Except.ok.inj h
      exact ⟨place, rfl, hnode⟩

theorem existing_ends (path : Dir) (e : Errno) (t : Disk α) :
    (existing path e).Ends t fun _ t' => t' = t := by
  unfold Action.Ends existing
  cases realpath t path with
  | error e' => rfl
  | ok place => dsimp only; split <;> rfl

/-- Directories are added, and nothing else. -/
theorem mkdirAll_adds (n : Nat) (path : Dir) (t : Disk α) :
    (mkdirAll n path).Ends t fun _ t' => Adds (fun _ new => new = .dir) t t' := by
  have hmkdir : ∀ (path : Dir) (t : Disk α),
      (mkdir path).Ends t fun _ t' => Adds (fun _ new => new = .dir) t t' := by
    intro path t
    refine (enter_ends .dir path t).mono fun r t' h => ?_
    cases r with
    | error e => exact .of_eq h
    | ok u =>
      obtain ⟨_, -, -, -, hadds⟩ := h
      exact hadds.mono fun d new h => h.2
  have hexisting : ∀ (path : Dir) (e : Errno) (t : Disk α),
      (existing path e).Ends t fun _ t' => Adds (fun _ new => new = .dir) t t' :=
    fun path e t => (existing_ends path e t).mono fun _ t' h => .of_eq h
  induction n generalizing path t with
  | zero =>
    refine Action.Ends.handle ((hmkdir path t).mono fun r t' h => ?_)
    cases r with
    | ok u => exact h
    | error e => exact (hexisting path e t').mono fun _ t'' h' => h.trans h'
  | succ n ih =>
    refine Action.Ends.handle ((hmkdir path t).mono fun r t' h => ?_)
    cases r with
    | ok u => exact h
    | error e =>
      dsimp only
      split
      · refine Action.Ends.bind ((ih (dirname path) t').mono fun r t'' h' => ?_)
        cases r with
        | error e => exact h.trans h'
        | ok u => exact (hmkdir path t'').mono fun _ _ h'' => (h.trans h').trans h''
      · exact (hexisting path e t').mono fun _ t'' h' => h.trans h'

end FileTree
