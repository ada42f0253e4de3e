/-
  REBASING ELSEWHERE: what `isolatedBackupConfig` makes of one configuration for two files roots.

  A capture weighs the configuration as a restore under the ID of the BACKUP would rebase it; the
  restore rebases it under its own ID.  Only the paths of customer files name the files root, so the
  two configurations differ in those strings alone, and these are equally long when both IDs are.

  CRUX: `isolatedBackupConfig_follows`, along the function: whatever one of two `Akin` inputs
  accepts, the other accepts, and the two results are `Alike`.
-/
import AgentCloud.Archives.Capturing
import AgentCloud.Lib.Paired

namespace AgentCloud.Archives

open Checked Posix FileTree Json
open Compose hiding string

/-! ## Alike parts of a configuration -/

section

variable {α : Type}

theorem alikeFields_map {f g : α → String × Json} {as bs : List α}
    (h : List.Forall₂ (fun a b => (f a).1 = (g b).1 ∧ Alike (f a).2 (g b).2) as bs) :
    AlikeFields (as.map f) (bs.map g) := by
  induction h with
  | nil => simp [AlikeFields]
  | cons hab _ ih => simpa [AlikeFields] using ⟨hab.1, hab.2, ih⟩

theorem alikeItems_map {f g : α → Json} {as bs : List α}
    (h : List.Forall₂ (fun a b => Alike (f a) (g b)) as bs) :
    AlikeItems (as.map f) (bs.map g) := by
  induction h with
  | nil => simp [AlikeItems]
  | cons hab _ ih => simpa [AlikeItems] using ⟨hab, ih⟩

end

/-- Volumes with alike paths, in the same role. -/
def AkinVolumes (a b : Volume) : Prop :=
  Alike (volumeJson a) (volumeJson b) ∧ holdsDatabase a = holdsDatabase b

theorem holdsDatabase_any {as bs : List Volume} (h : List.Forall₂ AkinVolumes as bs) :
    as.any holdsDatabase = bs.any holdsDatabase := by
  induction h with
  | nil => rfl
  | cons hab _ ih => rw [List.any_cons, List.any_cons, hab.2, ih]

/-- Services of one name with alike configurations. -/
def AkinServices (a b : String × Service) : Prop :=
  a.1 = b.1 ∧ Alike (serviceJson a.2) (serviceJson b.2)

/-! ## Two runs -/

/-- Inputs that differ in how they rebase a path, and there in strings of one size. -/
structure Akin (input input' : RestoreInput) : Prop where
  cwd : input.cwd = input'.cwd
  database : input.databaseService = input'.databaseService
  rebase : ∀ path, Follows SameSize (rebase input path) (rebase input' path)

section

variable {input input' : RestoreInput} {rest rest' : Fields} {name : String}

theorem rebaseFile_follows (h : Akin input input') (resource : Fields) :
    Follows AlikeFields (rebaseFile input resource) (rebaseFile input' resource) := by
  unfold rebaseFile
  split
  · apply Follows.after
    intro file
    apply (h.rebase file).bind
    intro a b hab
    apply Follows.pure
    exact (AlikeFields.refl resource).set (by simpa [Alike] using hab)
  · exact Follows.pure (AlikeFields.refl resource)

theorem isolateResource_follows (h : Akin input input') (resource : Fields) :
    Follows AlikeFields (isolateResource input resource) (isolateResource input' resource) := by
  apply Follows.after
  intro _
  apply (rebaseFile_follows h resource).bind
  intro a b hab
  exact Follows.pure hab.erase

/-- What the two runs carry on: alike fields, which agree under the names still to be read. -/
structure Ahead (names : List String) (rest rest' : Fields) : Prop where
  alike : AlikeFields rest rest'
  same : ∀ name ∈ names, rest.get name = rest'.get name

theorem isolateResources_follows {names : List String} (h : Akin input input') (hname : name ∉ names)
    (hrest : Ahead (name :: names) rest rest') :
    Follows (Ahead names) (isolateResources input name rest)
      (isolateResources input' name rest') := by
  unfold isolateResources
  rw [hrest.same name (by simp)]
  apply Follows.after
  intro resources
  have heach : ∀ resource ∈ resources, Follows (fun a b : String × Json => a.1 = b.1 ∧ Alike a.2 b.2)
      ((isolateResource input resource.2).map fun fields => (resource.1, Json.obj fields))
      ((isolateResource input' resource.2).map fun fields => (resource.1, Json.obj fields)) := by
    intro resource _
    apply (isolateResource_follows h resource.2).map
    intro a b hab
    exact ⟨rfl, by simpa [Alike] using hab⟩
  apply (Follows.checkEach heach).bind
  intro as bs hall
  have hsame : ∀ other ∈ names, rest.get other = rest'.get other := fun other hother =>
    hrest.same other (List.mem_cons_of_mem name hother)
  have hlength : as.length = bs.length := hall.length_eq
  apply Follows.pure
  rw [hlength]
  split
  · exact ⟨hrest.alike, hsame⟩
  · constructor
    · have hfields : AlikeFields (as.map id) (bs.map id) := alikeFields_map hall
      rw [List.map_id, List.map_id] at hfields
      exact hrest.alike.set (by simpa [Alike] using hfields)
    · intro other hother
      have hne : other ≠ name := fun heq => hname (heq ▸ hother)
      rw [Fields.get_set, Fields.get_set, if_neg hne, if_neg hne, hsame other hother]

theorem isolateVolume_follows (h : Akin input input') (volume : Volume) :
    Follows AkinVolumes (isolateVolume input volume) (isolateVolume input' volume) := by
  unfold isolateVolume
  dsimp only
  split
  next hbind =>
    apply (h.rebase _).bind
    intro a b hab
    apply Follows.pure
    constructor
    · have hsource : AlikeFields (field "source" (some (.str a))) (field "source" (some (.str b))) := by
        simpa [field, AlikeFields, Alike] using hab
      have hfields := (((AlikeFields.refl [("type", .str volume.type), ("target", .str volume.target)]).append
        hsource).append (AlikeFields.refl (field "read_only" (volume.readOnly.map .bool)))).append
        (AlikeFields.refl volume.rest)
      simpa [volumeJson, Alike] using hfields
    · simp [holdsDatabase, hbind.1]
  next =>
    apply Follows.after
    intro _
    exact Follows.pure ⟨Alike.refl _, rfl⟩

theorem rebaseDockerfile_follows (h : Akin input input') (context : String) {build build' : Fields}
    (halike : AlikeFields build build') (hget : build.get "dockerfile" = build'.get "dockerfile") :
    Follows AlikeFields (rebaseDockerfile input context build)
      (rebaseDockerfile input' context build') := by
  unfold rebaseDockerfile
  rw [hget, h.cwd]
  split
  · apply Follows.after
    intro dockerfile
    split
    · apply (h.rebase dockerfile).bind
      intro _ _ _
      exact Follows.pure (halike.set (Alike.refl _))
    · exact Follows.pure halike
  · exact Follows.pure halike

theorem isolateBuild_follows (h : Akin input input') (value : Json) :
    Follows Alike (isolateBuild input value) (isolateBuild input' value) := by
  unfold isolateBuild
  apply Follows.after
  intro build
  apply Follows.after
  intro _
  apply Follows.after
  intro context
  apply (h.rebase context).bind
  intro a b hab
  have halike : AlikeFields (build.set "context" (.str a)) (build.set "context" (.str b)) :=
    (AlikeFields.refl build).set (by simpa [Alike] using hab)
  have hget : (build.set "context" (.str a)).get "dockerfile" =
      (build.set "context" (.str b)).get "dockerfile" := by
    rw [Fields.get_set, Fields.get_set, if_neg (by decide), if_neg (by decide)]
  apply (rebaseDockerfile_follows h context halike hget).bind
  intro fields fields' hfields
  exact Follows.pure (by simpa [Alike] using hfields)

/-- A build, if there is one. -/
theorem optionalBuild_follows (h : Akin input input') (build : Option Json) :
    Follows (fun a b => AlikeFields (field "build" a) (field "build" b))
      (Compose.optional (isolateBuild input) build) (Compose.optional (isolateBuild input') build) := by
  cases build with
  | none => exact Follows.pure (AlikeFields.refl _)
  | some value =>
    apply (isolateBuild_follows h value).map
    intro a b hab
    simpa [field, AlikeFields] using hab

theorem isolateService_follows (h : Akin input input') (service : Service) :
    Follows (fun a b => Alike (serviceJson a) (serviceJson b)) (isolateService input name service)
      (isolateService input' name service) := by
  unfold isolateService
  apply Follows.after
  intro _
  apply (Follows.checkEach fun volume _ => isolateVolume_follows h volume).bind
  intro volumes volumes' hvolumes
  apply (optionalBuild_follows h service.build).bind
  intro build build' hbuild
  apply Follows.after
  intro rest
  rw [holdsDatabase_any hvolumes, h.database]
  apply Follows.after
  intro _
  apply Follows.pure
  have hmounts : AlikeFields
      (field "volumes" ((service.volumes.map fun _ => volumes).map fun vs => .arr (vs.map volumeJson)))
      (field "volumes" ((service.volumes.map fun _ => volumes').map fun vs => .arr (vs.map volumeJson))) := by
    cases service.volumes with
    | none => exact AlikeFields.refl _
    | some _ =>
      have hitems := alikeItems_map (hvolumes.imp fun _ _ hab => hab.1)
      simpa [field, AlikeFields, Alike] using hitems
  have hfields := (((AlikeFields.refl (field "image" (service.image.map .str))).append hbuild).append
    hmounts).append (AlikeFields.refl rest)
  simpa [serviceJson, Alike] using hfields

/-- **Two files roots.**  What one input accepts, the other accepts, with an alike result. -/
theorem isolatedBackupConfig_follows (h : Akin input input') (value : Json) :
    Follows (fun a b => Alike (configJson a) (configJson b)) (isolatedBackupConfig value input)
      (isolatedBackupConfig value input') := by
  unfold isolatedBackupConfig
  apply Follows.after
  intro config
  apply Follows.after
  intro rest
  apply Follows.after
  intro rest
  have hstart : Ahead ["configs", "secrets"] rest rest := ⟨AlikeFields.refl rest, fun _ _ => rfl⟩
  apply (isolateResources_follows h (by decide) hstart).bind
  intro rest rest' hconfigs
  apply (isolateResources_follows h (by decide) hconfigs).bind
  intro rest rest' hsecrets
  have heach : ∀ service ∈ config.services, Follows AkinServices
      ((isolateService input service.1 service.2).map fun isolated => (service.1, isolated))
      ((isolateService input' service.1 service.2).map fun isolated => (service.1, isolated)) := by
    intro service _
    apply (isolateService_follows h service.2).map
    intro a b hab
    exact ⟨rfl, hab⟩
  apply (Follows.checkEach heach).bind
  intro services services' hservices
  have hnames : services.all (fun service => service.1 ≠ input.databaseService) =
      services'.all fun service => service.1 ≠ input'.databaseService := by
    rw [h.database]
    clear heach
    induction hservices with
    | nil => rfl
    | cons hab _ ih => rw [List.all_cons, List.all_cons, hab.1, ih]
  rw [hnames]
  apply Follows.after
  intro _
  apply Follows.pure
  have hall : AlikeFields (services.map fun service => (service.1, serviceJson service.2))
      (services'.map fun service => (service.1, serviceJson service.2)) := alikeFields_map hservices
  have hrest : AlikeFields (rest.erase "name") (rest'.erase "name") := hsecrets.alike.erase
  simpa [configJson, Alike, AlikeFields] using ⟨hall, hrest⟩

end

/-! ## Two files roots -/

/-- How long a text is inside a string. -/
def escapedSize (text : List Char) : Nat := Json.size (text.flatMap escapeChar)

theorem escapedSize_append (a b : List Char) : escapedSize (a ++ b) = escapedSize a + escapedSize b := by
  rw [escapedSize, List.flatMap_append, size_append]
  rfl

theorem escapedSize_cons (c : Char) (cs : List Char) :
    escapedSize (c :: cs) = escapedSize [c] + escapedSize cs := escapedSize_append [c] cs

theorem sameSize_of_escaped {a b : List Char} (h : escapedSize a = escapedSize b) :
    SameSize (String.ofList a) (String.ofList b) := by
  unfold SameSize quoted
  rw [String.toList_ofList, String.toList_ofList, List.cons_append, List.cons_append, size_cons,
    size_cons, size_append, size_append]
  unfold escapedSize at h
  omega

/-- A character that is written as it is, in one byte. -/
def Unescaped (c : Char) : Prop := 32 ≤ c.toNat ∧ c.toNat < 127 ∧ c.toNat ≠ 34 ∧ c.toNat ≠ 92

theorem escapedSize_unescaped {cs : List Char} (h : ∀ c ∈ cs, Unescaped c) :
    escapedSize cs = cs.length := by
  induction cs with
  | nil => rfl
  | cons c cs ih =>
    obtain ⟨hlow, hhigh, hquote, hslash⟩ := h c (by simp)
    have hescape : escapeChar c = [c] := by
      unfold escapeChar
      simp only [hquote, hslash, or_self, if_false]
      repeat rw [if_neg (by omega)]
    have hsize : c.utf8Size = 1 := by
      have hval : c.val ≤ UInt32.ofNatLT 127 (by decide) := by
        rw [UInt32.le_iff_toNat_le]
        show c.toNat ≤ 127
        omega
      exact if_pos hval
    have hone : escapedSize [c] = 1 := by
      simp [escapedSize, hescape, hsize]
    rw [escapedSize_cons, hone, ih fun c' hc' => h c' (List.mem_cons_of_mem c hc'), List.length_cons]
    omega

theorem join_cons {part : Part} {parts : List Part} (h : parts ≠ []) :
    join (part :: parts) = part ++ '/' :: join parts := by
  obtain ⟨next, parts, rfl⟩ := List.exists_cons_of_ne_nil h
  simp [join, List.intercalate, List.intersperse]

theorem escapedSize_join {part part' : Part} (h : escapedSize part = escapedSize part')
    (above below : List Part) :
    escapedSize (join (above ++ part :: below)) = escapedSize (join (above ++ part' :: below)) := by
  induction above with
  | nil =>
    cases below with
    | nil => simpa [join, List.intercalate] using h
    | cons next below =>
      have hne : next :: below ≠ [] := List.cons_ne_nil next below
      rw [List.nil_append, List.nil_append, join_cons hne, join_cons hne, escapedSize_append,
        escapedSize_append, h]
  | cons first above ih =>
    have hne : ∀ part, above ++ part :: below ≠ [] := by simp
    rw [List.cons_append, List.cons_append, join_cons (hne part), join_cons (hne part'),
      escapedSize_append, escapedSize_append, escapedSize_cons,
      escapedSize_cons '/' (join (above ++ part' :: below)), ih]

theorem filesRootOf_parts (customerDirectory : Dir) {id : String} (h : Plain id.toList) :
    (filesRootOf customerDirectory id).parts =
      (customerDirectory.parts ++ [restores]) ++ [id.toList] := by
  rw [filesRootOf, follow_plain h, follow_plain (by decide)]

/-- The files roots of two restores whose IDs are equally long. -/
theorem akin_of_roots {sourceRoot customerRoot : String} {hsource : isAbsolute sourceRoot = true}
    {hcustomer : isAbsolute customerRoot = true} {customerDirectory : Dir} {id id' : String}
    (recipe : BackupRecipe) (hid : Plain id.toList) (hid' : Plain id'.toList)
    (hsize : escapedSize id.toList = escapedSize id'.toList) :
    Akin (rebaseInput sourceRoot customerRoot hsource hcustomer (filesRootOf customerDirectory id) recipe)
      (rebaseInput sourceRoot customerRoot hsource hcustomer (filesRootOf customerDirectory id')
        recipe) := by
  refine ⟨rfl, rfl, ?_⟩
  intro path
  let input (id : String) : RestoreInput :=
    rebaseInput sourceRoot customerRoot hsource hcustomer (filesRootOf customerDirectory id) recipe
  show Follows SameSize (rebase (input id) path) (rebase (input id') path)
  by_cases hsourced : below sourceRoot (resolve Dir.root path) = true
  · have hrun : ∀ id, rebase (input id) path =
        .ok ("./" ++ relative Dir.root sourceRoot (resolve Dir.root path).text) :=
      fun _ => if_pos hsourced
    rw [hrun, hrun]
    exact Follows.pure rfl
  by_cases hbelow : below customerRoot (resolve Dir.root path) = true
  · have hrun : ∀ id, rebase (input id) path = _ := fun _ => (if_neg hsourced).trans (if_pos hbelow)
    rw [hrun, hrun]
    apply Follows.after
    intro _
    apply Follows.pure
    -- both lead from their files root to where the path is below the customer's directory
    obtain ⟨rest, hrest⟩ := @parts_of_below Dir.root _ _ hcustomer hbelow
    have hgoal : (resolve Dir.root (resolve Dir.root path).text).parts =
        (resolve Dir.root customerRoot).parts ++ rest := by rw [resolve_text, hrest]
    have htext : ∀ id : String, Plain id.toList →
        (resolve (resolve Dir.root (filesRootOf customerDirectory id).text)
          (relative Dir.root customerRoot (resolve Dir.root path).text)).text =
        String.ofList ('/' :: join ((customerDirectory.parts ++ [restores]) ++ id.toList :: rest)) := by
      intro id hid
      rw [resolve_text, resolve_relative, Dir.text, walk_relative_below hgoal, filesRootOf_parts _ hid,
        List.append_assoc, List.singleton_append]
    show SameSize (resolve (resolve Dir.root (filesRootOf customerDirectory id).text) _).text
      (resolve (resolve Dir.root (filesRootOf customerDirectory id').text) _).text
    dsimp only [input, rebaseInput]
    rw [htext id hid, htext id' hid']
    apply sameSize_of_escaped
    rw [escapedSize_cons, escapedSize_join hsize, ← escapedSize_cons]
  · have hrun : ∀ id, rebase (input id) path = _ := fun _ => (if_neg hsourced).trans (if_neg hbelow)
    intro a h
    rw [hrun] at h
    cases h

end AgentCloud.Archives
