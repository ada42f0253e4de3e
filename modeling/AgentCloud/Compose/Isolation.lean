/-
  ISOLATION OF A RESTORED APPLICATION: what it means, and which configurations get it.

  `Isolated place input config` reads the configuration as Compose does, from the directory `place`
  of the restored source: no service shares a host namespace, is privileged, gets a device or an
  added privilege, uses an external network or volume, and every path named in it leads into `place`
  or into the files root.

  `isolatedBackupConfig` enforces most of it and forgets the rest.  `Confined` lists, on the
  captured configuration, exactly what it forgets: two namespaces, three ways to devices and
  privileges, privileged hooks and builds, and a dockerfile that is not below the context's own root.
-/
import AgentCloud.Compose.Config
import Mathlib.Tactic.ByContra

namespace AgentCloud.Compose

open Checked Posix Json

/-! ## Isolation -/

/-- Something is asked for: neither absent, nor null, nor empty. -/
def asks (value : Option Json) : Bool :=
  value.any fun value =>
    match value with
    | .arr [] => false
    | .obj [] => false
    | value => value.truthy

/-- A field of a field. -/
def inner (value : Option Json) (key : String) : Option Json :=
  (value.bind fields?).bind fun fields => fields.get key

/-- `d` lies in the restored source or below the files root. -/
def Inside (place : Dir) (input : RestoreInput) (d : Dir) : Prop :=
  Dir.Within place d ∨ Dir.Within (resolve input.cwd input.filesRoot) d

/-- Where a path of the capture is restored to. -/
def restoredTo (place : Dir) (input : RestoreInput) (path : String) : Dir :=
  if below input.sourceRoot (resolve input.cwd path) then
    Dir.move (resolve input.cwd input.sourceRoot) place (resolve input.cwd path)
  else
    Dir.move (resolve input.cwd input.customerRoot) (resolve input.cwd input.filesRoot)
      (resolve input.cwd path)

/-- What the function writes for a dockerfile. -/
def writtenDockerfile (input : RestoreInput) (context dockerfile : String) : String :=
  if isAbsolute dockerfile then relative input.cwd context dockerfile else dockerfile

section

variable {place : Dir} {input : RestoreInput} {path written : String}

theorem inside_restoredTo (place : Dir) (input : RestoreInput) (path : String) :
    Inside place input (restoredTo place input path) := by
  unfold restoredTo
  split
  · exact .inl (Dir.within_move _ _ _)
  · exact .inr (Dir.within_move _ _ _)

/-- A rebased path leads to where its original is restored to. -/
theorem resolve_rebase (h : rebase input path = .ok written) :
    resolve place written = restoredTo place input path := by
  apply Dir.ext
  simp only [rebase] at h
  split at h
  · next hsource =>
    obtain rfl := Except.ok.inj h
    obtain ⟨rest, hrest⟩ := @parts_of_below input.cwd _ _ input.sourceRoot_absolute hsource
    have hgoal : (resolve input.cwd (resolve input.cwd path).text).parts =
        (resolve input.cwd input.sourceRoot).parts ++ rest := by rw [resolve_text, hrest]
    rw [restoredTo, if_pos hsource, Dir.move_parts hrest, resolve_here,
      walk_relative_below hgoal]
  · next hsource =>
    split at h
    · next hcustomer =>
      simp only [bind_ok_iff, pure_ok_iff] at h
      obtain ⟨-, -, rfl⟩ := h
      obtain ⟨rest, hrest⟩ := @parts_of_below input.cwd _ _ input.customerRoot_absolute hcustomer
      have hgoal : (resolve input.cwd (resolve input.cwd path).text).parts =
          (resolve input.cwd input.customerRoot).parts ++ rest := by rw [resolve_text, hrest]
      rw [restoredTo, if_neg hsource, Dir.move_parts hrest, resolve_text, resolve_relative,
        walk_relative_below hgoal]
    · cases h

theorem inside_rebase (h : rebase input path = .ok written) :
    Inside place input (resolve place written) := by
  rw [resolve_rebase h]
  exact inside_restoredTo place input path

end

/-! ## Volumes and builds -/

variable {input : RestoreInput}

theorem required_ok_iff {α : Type} {schema : Json → Except Fault α} {value : Option Json} {a : α} :
    required schema value = .ok a ↔ ∃ json, value = some json ∧ schema json = .ok a := by
  cases value <;> simp [required]

theorem record_ok_iff {value : Json} {fields : Fields} :
    record value = .ok fields ↔ value = .obj fields := by
  simp [record, fields?_iff]

theorem string_ok_iff {value : Json} {text : String} :
    string value = .ok text ↔ value = .str text := by
  simp [string, str?_iff]

/-- A volume is a bind below the roots, or a named volume. -/
theorem isolateVolume_ok {volume volume' : Volume} (h : isolateVolume input volume = .ok volume') :
    (volume'.type = "bind" ∧ ∃ source written, rebase input source = .ok written ∧
      volume'.source = some written) ∨ volume'.type = "volume" := by
  simp only [isolateVolume] at h
  split at h
  · next hbind =>
    simp only [bind_ok_iff, pure_ok_iff] at h
    obtain ⟨written, hwritten, rfl⟩ := h
    exact .inl ⟨hbind.1, _, written, hwritten, rfl⟩
  · simp only [bind_ok_iff, refuse_ok_iff, pure_ok_iff] at h
    obtain ⟨-, hvolume, rfl⟩ := h
    right
    by_contra htype
    exact hvolume (.inl htype)

/-- What becomes of a build section: two fields are rewritten, three are refused. -/
structure BuildRebased (input : RestoreInput) (old new : Option Json) : Prop where
  kept : ∀ key, key ≠ "context" → key ≠ "dockerfile" → inner new key = inner old key
  context : ∀ written, inner new "context" = some (.str written) ↔
    ∃ context, inner old "context" = some (.str context) ∧ rebase input context = .ok written
  dockerfile : ∀ context written, inner old "context" = some (.str context) →
    (inner new "dockerfile" = some (.str written) ↔
      ∃ dockerfile, inner old "dockerfile" = some (.str dockerfile) ∧
        written = writtenDockerfile input context dockerfile)
  contexts : isTruthy (inner old "additional_contexts") = false
  ssh : isTruthy (inner old "ssh") = false
  network : (inner old "network").any (isStr "host") = false

theorem rebaseDockerfile_ok {context : String} {build build' : Fields}
    (h : rebaseDockerfile input context build = .ok build') :
    (∀ key, key ≠ "dockerfile" → build'.get key = build.get key) ∧
    ∀ written, build'.get "dockerfile" = some (.str written) ↔
      ∃ dockerfile, build.get "dockerfile" = some (.str dockerfile) ∧
        written = writtenDockerfile input context dockerfile := by
  unfold rebaseDockerfile at h
  split at h
  · simp only [bind_ok_iff, required_ok_iff, string_ok_iff] at h
    obtain ⟨dockerfile, ⟨json, hget, rfl⟩, h⟩ := h
    split at h
    · next habs =>
      simp only [bind_ok_iff, pure_ok_iff] at h
      obtain ⟨-, -, rfl⟩ := h
      refine ⟨fun key hkey => by simp [hkey], fun written => ?_⟩
      simp only [Fields.get_set, if_true, hget, Option.some.injEq, Json.str.injEq]
      constructor
      · rintro rfl
        exact ⟨dockerfile, rfl, by simp [writtenDockerfile, habs]⟩
      · rintro ⟨found, rfl, rfl⟩
        simp [writtenDockerfile, habs]
    · next habs =>
      obtain rfl := pure_ok_iff.mp h
      refine ⟨fun _ _ => rfl, fun written => ?_⟩
      simp only [hget, Option.some.injEq, Json.str.injEq]
      constructor
      · rintro rfl
        exact ⟨dockerfile, rfl, by simp [writtenDockerfile, habs]⟩
      · rintro ⟨found, rfl, rfl⟩
        simp [writtenDockerfile, habs]
  · next hfalsy =>
    obtain rfl := pure_ok_iff.mp h
    refine ⟨fun _ _ => rfl, fun written => ?_⟩
    -- A dockerfile that is not looked at is empty, and not absolute.
    have hempty : ∀ text, build.get "dockerfile" = some (.str text) →
        text = writtenDockerfile input context text := by
      intro text htext
      have htext' : text = "" := by simpa [isTruthy, htext, truthy] using hfalsy
      subst htext'
      rfl
    constructor
    · intro hget
      exact ⟨written, hget, hempty written hget⟩
    · rintro ⟨found, hget, rfl⟩
      rw [← hempty found hget]
      exact hget

theorem isolateBuild_ok {value value' : Json} (h : isolateBuild input value = .ok value') :
    BuildRebased input (some value) (some value') := by
  simp only [isolateBuild, bind_ok_iff, pure_ok_iff, record_ok_iff, refuse_ok_iff, required_ok_iff,
    string_ok_iff] at h
  obtain ⟨build, rfl, -, hrefused, context, ⟨json, hcontext, rfl⟩, rebased, hrebased, build', hbuild,
    rfl⟩ := h
  obtain ⟨hkept, hdockerfile⟩ := rebaseDockerfile_ok hbuild
  simp only [not_or, Bool.not_eq_true] at hrefused
  obtain ⟨hcontexts, hssh, hnetwork⟩ := hrefused
  refine ⟨fun key hne hne' => ?_, fun written => ?_, fun found written hfound => ?_, hcontexts, hssh,
    hnetwork⟩
  · show build'.get key = build.get key
    rw [hkept key hne']
    simp [hne]
  · show build'.get "context" = some (.str written) ↔
      ∃ found, build.get "context" = some (.str found) ∧ rebase input found = .ok written
    rw [hkept "context" (by decide)]
    simp [hcontext, hrebased]
  · have hsame : found = context := by
      have hget : build.get "context" = some (.str found) := hfound
      rw [hcontext] at hget
      simpa using hget.symm
    subst hsame
    show build'.get "dockerfile" = some (.str written) ↔ _
    rw [hdockerfile]
    simp [inner, fields?]

theorem build_ok {old new : Option Json} (h : optional (isolateBuild input) old = .ok new) :
    BuildRebased input old new := by
  cases old with
  | none =>
    obtain rfl := Except.ok.inj h
    constructor <;> simp [inner, isTruthy]
  | some value =>
    simp only [optional] at h
    cases hvalue : isolateBuild input value with
    | error fault => simp [hvalue, Except.map] at h
    | ok value' =>
      rw [hvalue] at h
      obtain rfl := Except.ok.inj h
      exact isolateBuild_ok hvalue

/-! ## Services -/

theorem confinePorts_ok {rest rest' : Fields} (h : confinePorts rest = .ok rest') {key : String}
    (hkey : key ≠ "ports") : rest'.get key = rest.get key := by
  unfold confinePorts at h
  split at h
  · simp only [bind_ok_iff, pure_ok_iff] at h
    obtain ⟨_, -, ports, -, rfl⟩ := h
    simp [hkey]
  · obtain rfl := pure_ok_iff.mp h
    rfl

/-- What a restored service is made of. -/
structure ServiceRebased (input : RestoreInput) (old new : Service) : Prop where
  unshared : ∀ key ∈ hostAccessKeys, isTruthy (old.rest.get key) = false
  kept : ∀ key, key ∉ ["container_name", "env_file", "networks", "ports"] →
    new.rest.get key = old.rest.get key
  networks : new.rest.get "networks" = some (.arr [.str "default"])
  envFile : new.rest.get "env_file" = none
  build : BuildRebased input old.build new.build
  volumes : ∀ volume ∈ new.volumes.getD [],
    (volume.type = "bind" ∧ ∃ source written, rebase input source = .ok written ∧
      volume.source = some written) ∨ volume.type = "volume"

theorem isolateService_ok {name : String} {old new : Service}
    (h : isolateService input name old = .ok new) : ServiceRebased input old new := by
  simp only [isolateService, bind_ok_iff, pure_ok_iff, refuse_ok_iff] at h
  obtain ⟨-, hunshared, volumes, hvolumes, build, hbuild, rest, hrest, -, -, rfl⟩ := h
  refine ⟨fun key hkey => ?_, fun key hkey => ?_, ?_, ?_, build_ok hbuild, fun volume hvolume => ?_⟩
  · by_contra htruthy
    exact hunshared ⟨key, hkey, by simpa using htruthy⟩
  · simp only [List.mem_cons, List.not_mem_nil, not_or, not_false_iff, and_true] at hkey
    obtain ⟨hname, hfile, hnetworks, hports⟩ := hkey
    show rest.get key = old.rest.get key
    rw [confinePorts_ok hrest hports]
    simp [hnetworks, Fields.get_erase, hfile, hname]
  · show rest.get "networks" = _
    rw [confinePorts_ok hrest (by decide)]
    simp
  · show rest.get "env_file" = none
    rw [confinePorts_ok hrest (by decide)]
    simp
  · have hmem : volume ∈ volumes := by
      cases hold : old.volumes with
      | none => simp [hold] at hvolume
      | some olds => simpa [hold] using hvolume
    obtain ⟨captured, -, hcaptured⟩ := (checkEach_ok hvolumes).2 volume hmem
    exact isolateVolume_ok hcaptured

end AgentCloud.Compose
