/-
  CUSTOMER FILES: where the declared files of a backup are read from and restored to
  (`customerFile` and the file loop of `restore`).

  A declared path is walked part by part from the canonical files root, and every directory on the
  way has to be one itself: a link is refused.  Then the path is what it says, and a file that is
  created there stands below the root (`publishFiles_ends`), whatever was in the tree before: links
  on the way to the root, links in it, files where directories should be.

  Modes and owners are set right after a file is written, so a file is created with them.
-/
import AgentCloud.Archives.Packing
import AgentCloud.Lib.FileTree

namespace AgentCloud.Archives

open Checked Posix FileTree
open Compose (schemaError)

structure Stored where
  content : Bytes
  mode : Nat
  uid : Nat
  gid : Nat
  deriving DecidableEq

/-- Actions on the customer's files. -/
abbrev Files := Action Stored Fault

variable {β : Type}

def raise (fault : Fault) : Files β := Action.ofExcept (.error fault)

def ioError : Fault := .other "I/O error"

/-- A call that is not expected to fail. -/
def attempt (m : Action Stored Errno β) : Files β := m.handle fun _ => raise ioError

/-! ## The functions -/

def badDirectory : Fault := .other "Guest state directory ownership or permissions are invalid."

def ensureDirectory (path : Dir) : Files Unit := do
  attempt (mkdirAll path.parts.length path)
  let info ← attempt (lstat path)
  match info with
  | .dir => pure ()
  | _ => raise badDirectory

def makeParent (createParents : Bool) (path : Dir) : Files Unit :=
  if createParents then
    (mkdir path).handle fun e => if e = .exists then pure () else raise ioError
  else pure ()

def unrealParent : Fault :=
  cloudError .invalidInput "Declared file parents must be real directories."

/-- The loop of `customerFile` over all parts but the last. -/
def walkParents (createParents : Bool) : Dir → List Part → Files Dir
  | parent, [] => pure parent
  | parent, part :: parts => do
    makeParent createParents (parent.follow part)
    let info ← attempt (lstat (parent.follow part))
    match info with
    | .dir => walkParents createParents (parent.follow part) parts
    | _ => raise unrealParent

def customerFile (root : Dir) (relative : String) (createParents : Bool) : Files Dir := do
  Action.ofExcept (refuse (composePathSchema relative = false) schemaError)
  let canonical ← attempt (Action.read fun tree => realpath tree root)
  let parent ← walkParents createParents canonical (split relative.toList).dropLast
  Action.ofExcept (refuse
    (startsWith (canonical.walk relative).text (canonical.text ++ "/") = false ∨
      dirname (canonical.walk relative) ≠ parent)
    (cloudError .invalidInput "Declared file escaped the customer directory."))
  pure (canonical.walk relative)

/-- How much of a file is read at once. -/
def chunkSize : Nat := 65536

/-- `writeBackupStream(path, readBackupHandle(source), budget)`, and the mode and owner of it. -/
def writeFile (path : Dir) (file : Stored) (maximum : Nat) : Files Unit :=
  if file.content.length ≤ maximum then attempt (create path file)
  else do
    attempt (create path
      ⟨file.content.take (maximum / chunkSize * chunkSize), 0o600, 0, 0⟩)
    raise overLimit

/-- The file loop of `restore`; `content` is what was unpacked. -/
def publishFiles (filesRoot : Dir) (content : String → Option Bytes) (maximum : Nat) :
    List DeclaredFile → Files Unit
  | [] => pure ()
  | file :: files => do
    let path ← customerFile filesRoot file.path true
    let bytes ← Action.ofExcept (present (content file.entry) ioError)
    writeFile path ⟨bytes, file.mode, file.uid, file.gid⟩ maximum
    publishFiles filesRoot content maximum files

def restores : Part := "restores".toList

def filesRootOf (customerDirectory : Dir) (id : String) : Dir :=
  (customerDirectory.follow restores).follow id.toList

def restoreFiles (customerDirectory : Dir) (id : String) (content : String → Option Bytes)
    (maximum : Nat) (files : List DeclaredFile) : Files Unit := do
  ensureDirectory (customerDirectory.follow restores)
  ensureDirectory (filesRootOf customerDirectory id)
  publishFiles (filesRootOf customerDirectory id) content maximum files

/-! ## What they leave -/

variable {t : Disk Stored} {root canonical parent : Dir}

/-- Strictly below a directory. -/
def Below (above d : Dir) : Prop := ∃ rest, rest ≠ [] ∧ d.parts = above.parts ++ rest

theorem below_follow {part : Part} (plain : Plain part) : Below parent (parent.follow part) :=
  ⟨[part], by simp, follow_plain plain⟩

theorem Below.trans {a b c : Dir} (h : Below a b) (h' : Below b c) : Below a c := by
  obtain ⟨rest, hne, hb⟩ := h
  obtain ⟨more, -, hc⟩ := h'
  exact ⟨rest ++ more, by simp [hne], by rw [hc, hb, List.append_assoc]⟩

theorem attempt_ends {m : Action Stored Errno β} {Q : Except Fault β → Disk Stored → Prop}
    (h : m.Ends t fun r t' =>
      match r with
      | .ok b => Q (.ok b) t'
      | .error _ => Q (.error ioError) t') : (attempt m).Ends t Q := by
  refine Action.Ends.handle (h.mono fun r t' h => ?_)
  cases r with
  | ok b => exact h
  | error e => exact h

theorem makeParent_ends (createParents : Bool) {part : Part} (hreal : Real t parent)
    (plain : Plain part) : (makeParent createParents (parent.follow part)).Ends t fun _ t' =>
      Adds (fun d new => Below parent d ∧ new = .dir) t t' := by
  unfold makeParent
  split
  · refine Action.Ends.handle ((enter_ends .dir _ t).mono fun r t' h => ?_)
    cases r with
    | error e =>
      dsimp only
      split
      · exact .of_eq h
      · exact .of_eq h
    | ok u =>
      obtain ⟨place, hplace, -, -, hadds⟩ := h
      obtain rfl := Except.ok.inj ((hreal.located plain).symm.trans hplace)
      refine hadds.mono fun d new h => ?_
      rw [h.1, h.2]
      exact ⟨below_follow plain, rfl⟩
  · exact Adds.refl t

theorem walkParents_ends (createParents : Bool) (parts : List Part)
    (hplain : ∀ part ∈ parts, Plain part) (hreal : Real t parent) :
    (walkParents createParents parent parts).Ends t fun r t' =>
      Adds (fun d new => Below parent d ∧ new = .dir) t t' ∧
        ∀ d, r = .ok d → Real t' d ∧ d.parts = parent.parts ++ parts := by
  induction parts generalizing t parent with
  | nil =>
    refine Action.Ends.pure ⟨Adds.refl t, fun d h => ?_⟩
    obtain rfl := Except.ok.inj h
    exact ⟨hreal, (List.append_nil _).symm⟩
  | cons part parts ih =>
    have plain : Plain part := hplain part (by simp)
    have hrest : ∀ part ∈ parts, Plain part := fun p hp => hplain p (List.mem_cons_of_mem _ hp)
    refine Action.Ends.bind ((makeParent_ends createParents hreal plain).mono fun r t' hadds => ?_)
    cases r with
    | error e => exact ⟨hadds, fun d h => by cases h⟩
    | ok u =>
      have hreal' : Real t' parent := hadds.grows.real hreal
      refine Action.Ends.bind (attempt_ends ((lstat_ends _ t').mono fun r t'' h => ?_))
      obtain ⟨rfl, hstands⟩ := h
      cases r with
      | error e => exact ⟨hadds, fun d h => by cases h⟩
      | ok info =>
        obtain ⟨place, hplace, hnode⟩ := hstands info rfl
        obtain rfl := Except.ok.inj ((hreal'.located plain).symm.trans hplace)
        cases info with
        | file content => exact ⟨hadds, fun d h => by cases h⟩
        | link target => exact ⟨hadds, fun d h => by cases h⟩
        | dir =>
          rw [node_follow plain] at hnode
          refine (ih hrest (hreal'.child plain hnode)).mono fun r t''' h => ?_
          obtain ⟨hmore, hok⟩ := h
          refine ⟨hadds.trans (hmore.mono fun d new h => ⟨(below_follow plain).trans h.1, h.2⟩),
            fun d hd => ?_⟩
          obtain ⟨hdreal, hparts⟩ := hok d hd
          refine ⟨hdreal, ?_⟩
          rw [hparts, follow_plain plain, List.append_assoc, List.singleton_append]

/-- The parts of a declared path. -/
theorem plain_of_composePath {value : String} (h : composePathSchema value = true) :
    split value.toList ≠ [] ∧ ∀ part ∈ split value.toList, Plain part := by
  simp only [composePathSchema, Bool.and_eq_true, List.all_eq_true, decide_eq_true_eq] at h
  obtain ⟨⟨-, hparts⟩, -⟩ := h
  refine ⟨?_, fun part hpart => ?_⟩
  · intro hnil
    have hjoin := List.splitOn_ne_nil '/' value.toList
    exact hjoin hnil
  · obtain ⟨hempty, hdot, hup⟩ := hparts part hpart
    exact ⟨hempty, hdot, hup, slash_notMem_split _ part hpart⟩

theorem customerFile_ends {relative : String} (createParents : Bool)
    (hroot : realpath t root = .ok canonical) (hreal : Real t canonical) :
    (customerFile root relative createParents).Ends t fun r t' =>
      Adds (fun d new => Below canonical d ∧ new = .dir) t t' ∧
        ∀ path, r = .ok path → path = canonical.walk relative ∧ Below canonical path ∧
          ∃ name, Plain name ∧ Real t' (dirname path) ∧ path = (dirname path).follow name := by
  refine Action.Ends.bind (Action.Ends.ofExcept ?_)
  by_cases hpath : composePathSchema relative = false
  · simp only [refuse, if_pos hpath]
    exact ⟨Adds.refl t, fun path h => by cases h⟩
  · simp only [refuse, if_neg hpath]
    obtain ⟨hne, hplain⟩ := plain_of_composePath (by simpa using hpath)
    refine Action.Ends.bind (attempt_ends (Action.Ends.read ?_))
    rw [hroot]
    dsimp only
    have hinit : ∀ part ∈ (split relative.toList).dropLast, Plain part := fun part hp =>
      hplain part (List.dropLast_subset _ hp)
    refine Action.Ends.bind ((walkParents_ends createParents _ hinit hreal).mono fun r t' h => ?_)
    obtain ⟨hadds, hok⟩ := h
    cases r with
    | error e => exact ⟨hadds, fun path h => by cases h⟩
    | ok parent =>
      obtain ⟨hparent, hparts⟩ := hok parent rfl
      refine Action.Ends.bind (Action.Ends.ofExcept ?_)
      have hwhole : (canonical.walk relative).parts = canonical.parts ++ split relative.toList :=
        parts_follow hplain
      have hdirname : dirname (canonical.walk relative) = parent := by
        apply Dir.ext
        show (canonical.walk relative).parts.dropLast = parent.parts
        rw [hwhole, hparts, List.dropLast_append_of_ne_nil hne]
      split
      · refine ⟨hadds, fun path h => ?_⟩
        obtain rfl := Except.ok.inj h
        refine ⟨rfl, ⟨_, hne, hwhole⟩, (split relative.toList).getLast hne,
          hplain _ (List.getLast_mem hne), hdirname ▸ hparent, ?_⟩
        apply Dir.ext
        rw [follow_plain (hplain _ (List.getLast_mem hne)), hdirname, hparts, hwhole,
          List.append_assoc, List.dropLast_append_getLast hne]
      · exact ⟨hadds, fun path h => by cases h⟩

theorem writeFile_ends {path : Dir} {name : Part} (file : Stored) (maximum : Nat)
    (hreal : Real t (dirname path)) (plain : Plain name) (hpath : path = (dirname path).follow name) :
    (writeFile path file maximum).Ends t fun r t' =>
      Adds (fun d new => d = path ∧ ∃ content, new = .file content) t t' ∧
        (r = .ok () → t' path = some (.file file)) := by
  have hcreate : ∀ file : Stored, (create path file).Ends t fun r t' =>
      Adds (fun d new => d = path ∧ ∃ content, new = .file content) t t' ∧
        (r = .ok () → t' path = some (.file file)) := by
    intro file
    refine (enter_ends (.file file) path t).mono fun r t' h => ?_
    cases r with
    | error e => exact ⟨.of_eq h, fun h => by cases h⟩
    | ok u =>
      obtain ⟨place, hplace, -, hnew, hadds⟩ := h
      rw [hpath] at hplace
      have hsame : place = path :=
        (Except.ok.inj ((hreal.located plain).symm.trans hplace)).symm.trans hpath.symm
      subst hsame
      exact ⟨hadds.mono fun d new h => ⟨h.1, file, h.2⟩, fun _ => hnew⟩
  unfold writeFile
  split
  · refine attempt_ends ((hcreate file).mono fun r t' h => ?_)
    cases r with
    | ok u => exact ⟨h.1, fun _ => h.2 rfl⟩
    | error e => exact ⟨h.1, fun h => by cases h⟩
  · refine Action.Ends.bind (attempt_ends ((hcreate _).mono fun r t' h => ?_))
    cases r with
    | ok u => exact ⟨h.1, fun h => by cases h⟩
    | error e => exact ⟨h.1, fun h => by cases h⟩

/-- A declared file, restored. -/
def Restored (canonical : Dir) (content : String → Option Bytes) (t : Disk Stored)
    (file : DeclaredFile) : Prop :=
  ∃ bytes, content file.entry = some bytes ∧
    t (canonical.walk file.path) = some (.file ⟨bytes, file.mode, file.uid, file.gid⟩)

theorem Restored.grows {content : String → Option Bytes} {t t' : Disk Stored} {file : DeclaredFile}
    (h : Restored canonical content t file) (hgrows : FileTree.Grows t t') :
    Restored canonical content t' file := by
  obtain ⟨bytes, hcontent, hstands⟩ := h
  exact ⟨bytes, hcontent, hgrows _ _ hstands⟩

/-- Everything that is written for the declared files is new and stands below the files root, also
    when the loop fails half-way; and when it does not, every file is there with its bytes. -/
theorem publishFiles_ends (content : String → Option Bytes) (maximum : Nat)
    (files : List DeclaredFile) (hroot : realpath t root = .ok canonical)
    (hreal : Real t canonical) :
    (publishFiles root content maximum files).Ends t fun r t' =>
      Adds (fun d _ => Below canonical d) t t' ∧
        (r = .ok () → ∀ file ∈ files, Restored canonical content t' file) := by
  induction files generalizing t with
  | nil => exact ⟨Adds.refl t, fun _ file h => by cases h⟩
  | cons file files ih =>
    refine Action.Ends.bind ((customerFile_ends true hroot hreal).mono fun r t' h => ?_)
    obtain ⟨hadds, hok⟩ := h
    have hbelow : Adds (fun d _ => Below canonical d) t t' := hadds.mono fun d new h => h.1
    cases r with
    | error e => exact ⟨hbelow, fun h => by cases h⟩
    | ok path =>
      obtain ⟨rfl, hpath, name, plain, hdirname, hname⟩ := hok path rfl
      refine Action.Ends.bind (Action.Ends.ofExcept ?_)
      cases hcontent : content file.entry with
      | none => exact ⟨hbelow, fun h => by cases h⟩
      | some bytes =>
        refine Action.Ends.bind
          ((writeFile_ends _ maximum hdirname plain hname).mono fun r t'' h => ?_)
        obtain ⟨hwrite, hwritten⟩ := h
        have hbelow' : Adds (fun d _ => Below canonical d) t t'' := by
          refine hbelow.trans (hwrite.mono fun d new h => ?_)
          rw [h.1]
          exact hpath
        cases r with
        | error e => exact ⟨hbelow', fun h => by cases h⟩
        | ok u =>
          have hrest := ih (hbelow'.grows.realpath hroot) (hbelow'.grows.real hreal)
          refine hrest.mono fun r t''' h => ?_
          obtain ⟨hmore, hall⟩ := h
          refine ⟨hbelow'.trans hmore, fun hr other hother => ?_⟩
          rcases List.mem_cons.mp hother with rfl | hother
          · have hone : Restored canonical content t'' other := ⟨bytes, hcontent, hwritten rfl⟩
            exact hone.grows hmore.grows
          · exact hall hr other hother

theorem ensureDirectory_ends (path : Dir) :
    (ensureDirectory path).Ends t fun r t' =>
      Adds (fun _ new => new = .dir) t t' ∧
        (r = .ok () → ∃ place, located t' path = .ok place ∧ node t' place = some .dir) := by
  refine Action.Ends.bind (attempt_ends ((mkdirAll_adds _ path t).mono fun r t' hadds => ?_))
  cases r with
  | error e => exact ⟨hadds, fun h => by cases h⟩
  | ok u =>
    refine Action.Ends.bind (attempt_ends ((lstat_ends path t').mono fun r t'' h => ?_))
    obtain ⟨rfl, hstands⟩ := h
    cases r with
    | error e => exact ⟨hadds, fun h => by cases h⟩
    | ok info =>
      obtain ⟨place, hplace, hnode⟩ := hstands info rfl
      cases info with
      | dir => exact ⟨hadds, fun _ => ⟨place, hplace, hnode⟩⟩
      | file content => exact ⟨hadds, fun h => by cases h⟩
      | link target => exact ⟨hadds, fun h => by cases h⟩

/-- Where a restore writes: directories on the way to its files root, and then only below it. -/
theorem restoreFiles_ends (customerDirectory : Dir) (id : String)
    (content : String → Option Bytes) (maximum : Nat) (files : List DeclaredFile)
    (t : Disk Stored) :
    (restoreFiles customerDirectory id content maximum files).Ends t fun r t' =>
      Adds (fun _ new => new = .dir) t t' ∧ r ≠ .ok () ∨
      ∃ canonical, realpath t' (filesRootOf customerDirectory id) = .ok canonical ∧
        Real t' canonical ∧ Adds (fun d new => new = .dir ∨ Below canonical d) t t' ∧
        (r = .ok () → ∀ file ∈ files, Restored canonical content t' file) := by
  refine Action.Ends.bind ((ensureDirectory_ends _).mono fun r t₁ h₁ => ?_)
  cases r with
  | error e => exact .inl ⟨h₁.1, fun h => by cases h⟩
  | ok u =>
    refine Action.Ends.bind ((ensureDirectory_ends _).mono fun r t₂ h₂ => ?_)
    have hadds : Adds (fun _ new => new = .dir) t t₂ := h₁.1.trans h₂.1
    cases r with
    | error e => exact .inl ⟨hadds, fun h => by cases h⟩
    | ok u =>
      obtain ⟨canonical, hlocated, hnode⟩ := h₂.2 rfl
      obtain ⟨hreal, hroot⟩ := Real.of_located hlocated hnode
      refine (publishFiles_ends content maximum files hroot hreal).mono fun r t₃ h₃ => ?_
      obtain ⟨hmore, hall⟩ := h₃
      exact .inr ⟨canonical, hmore.grows.realpath hroot, hmore.grows.real hreal,
        (hadds.mono fun d new h => .inl h).trans (hmore.mono fun d new h => .inr h), hall⟩

end AgentCloud.Archives
