/-
  PROMOTION: `promoteRestoreNetwork` over what `isolatedBackupConfig` makes.

  A restored application runs on an internal network of its own.  Its promotion gives it another
  network and changes nothing else; it is refused unless the services have nothing but the internal
  network and the loopback ports that the isolation gave them (`Promotable`).

  Between the two lies what Compose prints for the isolated configuration (`Normalised`) and the
  pinning of the images.  Neither touches what the promotion looks at, but for the forms that it
  allows.
-/
import AgentCloud.Compose.Restored
import AgentCloud.Deployments.Programs
import AgentCloud.Lib.Runs

namespace AgentCloud.Deployments

open Compose Checked Durable Json

/-! ## What a promotion asks for -/

/-- The service is on the default network alone. -/
structure OnDefaultNetwork (rest : Fields) : Prop where
  own : isTruthy (rest.get "network_mode") = false
  networks : rest.get "networks" = some (.arr [.str "default"]) ∨
    ∃ fields : Fields, rest.get "networks" = some (.obj fields) ∧
      (∀ field ∈ fields, field.1 = "default") ∧
      (fields.get "default" = some .null ∨ ∃ options, fields.get "default" = some (.obj options))

/-- The service publishes nothing, or on the loopback address. -/
def OnLoopback (rest : Fields) : Prop :=
  isTruthy (rest.get "ports") = false ∨
    ∃ ports, rest.get "ports" = some (.arr ports) ∧
      ∀ port ∈ ports, ∃ fields : Fields, port = .obj fields ∧
        fields.get "host_ip" = some (.str "127.0.0.1")

/-- The default network is internal, and no other than the project's. -/
def InternalNetwork (project : String) (rest : Fields) : Prop :=
  ∃ networks network : Fields, rest.get "networks" = some (.obj networks) ∧
    (∀ field ∈ networks, field.1 = "default") ∧ networks.get "default" = some (.obj network) ∧
    (∀ field ∈ network, field.1 ∈ ["internal", "name", "ipam"]) ∧
    network.get "internal" = some (.bool true) ∧
    (network.get "name" = none ∨ network.get "name" = some (.str "") ∨
      network.get "name" = some (.str (project ++ "_default"))) ∧
    (network.get "ipam" = none ∨ network.get "ipam" = some (.obj []))

structure Promotable (project : String) (config : ComposeConfig) : Prop where
  network : InternalNetwork project config.rest
  services : ∀ service ∈ config.services, OnDefaultNetwork service.2.rest ∧ OnLoopback service.2.rest

/-! ## The checks -/

theorem strict_ok_iff {keys : List String} {fields : Fields} {u : Unit} :
    strict keys fields = .ok u ↔ ∀ field ∈ fields, field.1 ∈ keys := by
  simp [strict]

theorem array_ok_iff {value : Json} {items : List Json} :
    Compose.array value = .ok items ↔ value = .arr items := by
  cases value <;> simp [Compose.array, items?]

theorem optional_ok_iff {α : Type} {schema : Json → Except Fault α} {value : Option Json}
    {r : Option α} : Compose.optional schema value = .ok r ↔
      (value = none ∧ r = none) ∨ ∃ json a, value = some json ∧ schema json = .ok a ∧ r = some a := by
  cases value with
  | none => simp [Compose.optional, eq_comm]
  | some json =>
    simp only [Compose.optional, map_ok_iff]
    constructor
    · rintro ⟨a, ha, rfl⟩
      exact .inr ⟨json, a, rfl, ha, rfl⟩
    · rintro (⟨h, -⟩ | ⟨_, a, h, ha, rfl⟩)
      · cases h
      · obtain rfl := Option.some.inj h
        exact ⟨a, ha, rfl⟩

theorem onlyDefaultNetwork_ok_iff {networks : Option Json} {u : Unit} :
    onlyDefaultNetwork networks = .ok u ↔ networks = some (.arr [.str "default"]) ∨
      ∃ fields : Fields, networks = some (.obj fields) ∧
        (∀ field ∈ fields, field.1 = "default") ∧
        (fields.get "default" = some .null ∨
          ∃ options, fields.get "default" = some (.obj options)) := by
  unfold onlyDefaultNetwork
  split
  · simp
  · rename_i fields
    simp only [bind_ok_iff, strict_ok_iff, List.mem_singleton]
    constructor
    · rintro ⟨-, hdefault, hget⟩
      refine .inr ⟨fields, rfl, hdefault, ?_⟩
      split at hget
      · rename_i hnull
        exact .inl hnull
      · rename_i options hoptions
        exact .inr ⟨options, hoptions⟩
      · cases hget
    · rintro (h | ⟨found, h, hdefault, hget⟩)
      · cases h
      · obtain rfl : fields = found := by simpa using h
        refine ⟨(), hdefault, ?_⟩
        rcases hget with hget | ⟨options, hget⟩
        · rw [hget]
        · rw [hget]
  · rename_i hlist hmap
    constructor
    · intro h
      cases h
    · rintro (h | ⟨fields, h, -⟩)
      · exact absurd h hlist
      · exact absurd h (hmap fields)

theorem loopbackPorts_ok_iff {rest : Fields} {u : Unit} :
    loopbackPorts (rest.get "ports") = .ok u ↔ OnLoopback rest := by
  unfold loopbackPorts OnLoopback
  split
  · rename_i htruthy
    simp only [bind_ok_iff, required_ok_iff, array_ok_iff, pure_ok_iff]
    constructor
    · rintro ⟨ports, ⟨json, hget, rfl⟩, checked, hchecked, -⟩
      refine .inr ⟨ports, hget, fun port hport => ?_⟩
      obtain ⟨_, -, hok⟩ := (checkEach_ok hchecked).1 port hport
      simp only [bind_ok_iff, record_ok_iff, refuse_ok_iff] at hok
      obtain ⟨fields, rfl, hhost⟩ := hok
      refine ⟨fields, rfl, ?_⟩
      cases hip : fields.get "host_ip" with
      | none => simp [hip] at hhost
      | some value =>
        rw [hip] at hhost
        have hstr : value.isStr "127.0.0.1" = true := by simpa using hhost
        rw [isStr_iff.mp hstr]
    · rintro (h | ⟨ports, hget, hports⟩)
      · rw [h] at htruthy
        cases htruthy
      · obtain ⟨checked, hchecked⟩ : ∃ checked, checkEach (fun port => do
            let fields ← Compose.record port
            refuse ((fields.get "host_ip").any (isStr "127.0.0.1") = false) schemaError) ports =
            .ok checked := checkEach_total (by
          intro port hport
          obtain ⟨fields, rfl, hip⟩ := hports port hport
          exact ⟨(), by simp [Compose.record, fields?, hip, isStr]⟩)
        exact ⟨ports, ⟨_, hget, rfl⟩, checked, hchecked, trivial⟩
  · rename_i hfalsy
    simp [hfalsy]

theorem promotableService_ok_iff {service : Service} {u : Unit} :
    promotableService service = .ok u ↔
      OnDefaultNetwork service.rest ∧ OnLoopback service.rest := by
  simp only [promotableService, bind_ok_iff, refuse_ok_iff, onlyDefaultNetwork_ok_iff,
    loopbackPorts_ok_iff, Bool.not_eq_true, exists_and_left, exists_const]
  constructor
  · rintro ⟨hown, hnetworks, hports⟩
    exact ⟨⟨hown, hnetworks⟩, hports⟩
  · rintro ⟨⟨hown, hnetworks⟩, hports⟩
    exact ⟨hown, hnetworks, hports⟩

/-- The shape of the isolation network; its name is looked at next. -/
theorem isolatedNetwork_ok_iff {rest network : Fields} :
    isolatedNetwork (rest.get "networks") = .ok network ↔
      ∃ networks : Fields, rest.get "networks" = some (.obj networks) ∧
        (∀ field ∈ networks, field.1 = "default") ∧ networks.get "default" = some (.obj network) ∧
        (∀ field ∈ network, field.1 ∈ ["internal", "name", "ipam"]) ∧
        network.get "internal" = some (.bool true) ∧
        (network.get "name" = none ∨ ∃ name, network.get "name" = some (.str name)) ∧
        (network.get "ipam" = none ∨ network.get "ipam" = some (.obj [])) := by
  have hinternal : ((network.get "internal").any (fun value => decide (value = .bool true)) = false
      → False) ↔ network.get "internal" = some (.bool true) := by
    cases network.get "internal" <;> simp
  have hname : (∃ name, Compose.optional Compose.string (network.get "name") = .ok name) ↔
      (network.get "name" = none ∨ ∃ name, network.get "name" = some (.str name)) := by
    simp only [optional_ok_iff, string_ok_iff]
    constructor
    · rintro ⟨_, ⟨hnone, rfl⟩ | ⟨_, name, hget, rfl, rfl⟩⟩
      · exact .inl hnone
      · exact .inr ⟨name, hget⟩
    · rintro (hnone | ⟨name, hget⟩)
      · exact ⟨none, .inl ⟨hnone, rfl⟩⟩
      · exact ⟨some name, .inr ⟨_, name, hget, rfl, rfl⟩⟩
  have hipam : (∃ ipam, Compose.optional Compose.record (network.get "ipam") = .ok ipam ∧
      ∀ field ∈ ipam.getD [], field.1 ∈ ([] : List String)) ↔
      (network.get "ipam" = none ∨ network.get "ipam" = some (.obj [])) := by
    simp only [optional_ok_iff, record_ok_iff, List.not_mem_nil]
    constructor
    · rintro ⟨_, ⟨hnone, rfl⟩ | ⟨_, fields, hget, rfl, rfl⟩, hempty⟩
      · exact .inl hnone
      · have hnil : fields = [] := List.eq_nil_iff_forall_not_mem.mpr hempty
        rw [hnil] at hget
        exact .inr hget
    · rintro (hnone | hget)
      · exact ⟨none, .inl ⟨hnone, rfl⟩, by simp⟩
      · exact ⟨some [], .inr ⟨_, [], hget, rfl, rfl⟩, by simp⟩
  simp only [isolatedNetwork, bind_ok_iff, required_ok_iff, record_ok_iff, strict_ok_iff,
    refuse_ok_iff, pure_ok_iff, List.mem_singleton]
  constructor
  · rintro ⟨networks, ⟨json, hget, rfl⟩, -, honly, found, ⟨json', hget', rfl⟩, -, hkeys, -, htrue,
      name, hstring, ipam, hrecord, -, hempty, rfl⟩
    exact ⟨networks, hget, honly, hget', hkeys, hinternal.mp htrue, hname.mp ⟨name, hstring⟩,
      hipam.mp ⟨ipam, hrecord, hempty⟩⟩
  · rintro ⟨networks, hget, honly, hget', hkeys, htrue, hnamed, hempty⟩
    obtain ⟨name, hstring⟩ := hname.mpr hnamed
    obtain ⟨ipam, hrecord, hstrict⟩ := hipam.mpr hempty
    exact ⟨networks, ⟨_, hget, rfl⟩, (), honly, network, ⟨_, hget', rfl⟩, (), hkeys, (),
      hinternal.mpr htrue, name, hstring, ipam, hrecord, (), hstrict, rfl⟩

/-- What a promotion writes. -/
def promotedNetworks (project : String) (release : ReleaseId) : Json :=
  .obj [("default", .obj [("name", .str (project ++ "_promoted_" ++ release))])]

/-- **Promotion.** A configuration is promoted if and only if it is promotable, and then its networks
    section is replaced. -/
theorem promoteRestoreNetwork_ok_iff {config promoted : ComposeConfig} {project : String}
    {release : ReleaseId} :
    promoteRestoreNetwork config project release = .ok promoted ↔
      Promotable project config ∧ promoted =
        { config with rest := config.rest.set "networks" (promotedNetworks project release) } := by
  have hnamed : ∀ network : Fields, (network.get "name" = none ∨
        ∃ name, network.get "name" = some (.str name)) →
      (¬ (isTruthy (network.get "name") = true ∧
        (network.get "name").any (isStr (project ++ "_default")) = false) ↔
      (network.get "name" = none ∨ network.get "name" = some (.str "") ∨
        network.get "name" = some (.str (project ++ "_default")))) := by
    rintro network (hname | ⟨name, hname⟩)
    · simp [hname, isTruthy]
    · simp only [hname, isTruthy, Option.any_some, truthy, isStr, decide_eq_true_eq,
        decide_eq_false_iff_not, Option.some.injEq, Json.str.injEq, reduceCtorEq, false_or]
      constructor
      · intro h
        by_cases hempty : name = ""
        · exact .inl hempty
        · exact .inr (Decidable.byContradiction fun hne => h ⟨by simpa using hempty, hne⟩)
      · rintro (rfl | rfl) ⟨hne, hother⟩
        · simp at hne
        · exact hother rfl
  simp only [promoteRestoreNetwork, bind_ok_iff, isolatedNetwork_ok_iff, refuse_ok_iff, pure_ok_iff]
  constructor
  · rintro ⟨network, ⟨networks, hget, honly, hget', hkeys, htrue, hname, hempty⟩, -, hproject,
      checked, hchecked, rfl⟩
    refine ⟨⟨⟨networks, network, hget, honly, hget', hkeys, htrue, (hnamed network hname).mp hproject,
      hempty⟩, fun service hservice => ?_⟩, rfl⟩
    obtain ⟨_, -, hok⟩ := (checkEach_ok hchecked).1 service hservice
    exact promotableService_ok_iff.mp hok
  · rintro ⟨⟨⟨networks, network, hget, honly, hget', hkeys, htrue, hproject, hempty⟩, hservices⟩, rfl⟩
    have hname : network.get "name" = none ∨ ∃ name, network.get "name" = some (.str name) := by
      rcases hproject with h | h | h
      · exact .inl h
      · exact .inr ⟨_, h⟩
      · exact .inr ⟨_, h⟩
    obtain ⟨checked, hchecked⟩ : ∃ checked, checkEach (fun service : String × Service =>
        promotableService service.2) config.services = .ok checked :=
      checkEach_total fun service hservice =>
        ⟨(), promotableService_ok_iff.mpr (hservices service hservice)⟩
    exact ⟨network, ⟨networks, hget, honly, hget', hkeys, htrue, hname, hempty⟩, (),
      (hnamed network hname).mpr hproject, checked, hchecked, rfl⟩

/-! ## What Compose prints -/

/-- A list of networks, as it is or as a map. -/
def NormalNetworks (networks networks' : Option Json) : Prop :=
  networks' = networks ∨ ∃ names : List String, networks = some (.arr (names.map .str)) ∧
    networks' = some (.obj (names.map fun name => (name, .null)))

structure ServiceNormal (service service' : String × Service) : Prop where
  name : service'.1 = service.1
  image : service'.2.image = service.2.image
  build : service'.2.build = service.2.build
  volumes : service'.2.volumes = service.2.volumes
  networks : NormalNetworks (service.2.rest.get "networks") (service'.2.rest.get "networks")
  kept : ∀ key, key ≠ "networks" → service'.2.rest.get key = service.2.rest.get key

/-- A network, with the name that the project gives it and an empty `ipam` if it had none. -/
structure NetworkNormal (project : String) (network network' : String × Json) : Prop where
  name : network'.1 = network.1
  fields : network'.2 = network.2 ∨ ∃ fields fields' : Fields,
    network.2 = .obj fields ∧ network'.2 = .obj fields' ∧
    (fields'.get "name" = fields.get "name" ∨
      fields.get "name" = none ∧ fields'.get "name" = some (.str (project ++ "_" ++ network.1))) ∧
    (fields'.get "ipam" = fields.get "ipam" ∨
      fields.get "ipam" = none ∧ fields'.get "ipam" = some (.obj [])) ∧
    ∀ key, key ≠ "name" → key ≠ "ipam" → fields'.get key = fields.get key

/-- What Compose prints for a configuration, parsed. -/
structure Normalised (project : String) (config rendered : ComposeConfig) : Prop where
  services : List.Forall₂ ServiceNormal config.services rendered.services
  networks : ∀ networks, config.rest.get "networks" = some (.obj networks) →
    ∃ networks', rendered.rest.get "networks" = some (.obj networks') ∧
      List.Forall₂ (NetworkNormal project) networks networks'
  kept : ∀ key, key ≠ "networks" → rendered.rest.get key = config.rest.get key

/-! ## From the isolation to the promotion -/

theorem confinePorts_onLoopback {rest rest' : Fields} (h : confinePorts rest = .ok rest') :
    OnLoopback rest' := by
  unfold confinePorts at h
  split at h
  · simp only [bind_ok_iff, pure_ok_iff] at h
    obtain ⟨_, -, ports, -, rfl⟩ := h
    refine .inr ⟨_, by rw [Fields.get_set, if_pos rfl], fun port hport => ?_⟩
    obtain ⟨fields, -, rfl⟩ := List.mem_map.mp hport
    exact ⟨_, rfl, by rw [Fields.get_set, if_pos rfl]⟩
  · rename_i hfalsy
    obtain rfl := pure_ok_iff.mp h
    exact .inl (by simpa using hfalsy)

/-- A service that the isolation made: nothing but its list of networks and its ports matter. -/
theorem isolateService_promotable {input : RestoreInput} {name : String} {old new : Service}
    (h : isolateService input name old = .ok new) :
    isTruthy (new.rest.get "network_mode") = false ∧
      new.rest.get "networks" = some (.arr [.str "default"]) ∧ OnLoopback new.rest := by
  have hrebased := isolateService_ok h
  refine ⟨?_, hrebased.networks, ?_⟩
  · rw [hrebased.kept "network_mode" (by decide)]
    exact hrebased.unshared "network_mode" (by decide)
  · simp only [isolateService, bind_ok_iff, pure_ok_iff] at h
    obtain ⟨-, -, volumes, -, build, -, rest, hrest, -, -, rfl⟩ := h
    exact confinePorts_onLoopback hrest

/-- The network of an isolated configuration, and its services. -/
theorem isolatedBackupConfig_networks {value : Json} {input : RestoreInput} {config : ComposeConfig}
    (h : isolatedBackupConfig value input = .ok config) :
    config.rest.get "networks" = some (.obj [("default", .obj [("internal", .bool true)])]) ∧
      ∀ service ∈ config.services, isTruthy (service.2.rest.get "network_mode") = false ∧
        service.2.rest.get "networks" = some (.arr [.str "default"]) ∧ OnLoopback service.2.rest := by
  simp only [isolatedBackupConfig, bind_ok_iff, pure_ok_iff] at h
  obtain ⟨captured, -, rest₁, -, rest₂, hnetworks, rest₃, hconfigs, rest₄, hsecrets, services,
    hservices, -, -, rfl⟩ := h
  constructor
  · show (rest₄.erase "name").get "networks" = _
    rw [Fields.get_erase_ne (by decide), (isolateResources_ok Posix.Dir.root hsecrets).1 _ (by decide),
      (isolateResources_ok Posix.Dir.root hconfigs).1 _ (by decide)]
    simp only [isolateNetworks, bind_ok_iff, pure_ok_iff] at hnetworks
    obtain ⟨-, -, -, -, rfl⟩ := hnetworks
    rw [Fields.get_set, if_pos rfl]
  · intro service hservice
    obtain ⟨old, -, hold⟩ := (checkEach_ok hservices).2 service hservice
    obtain ⟨isolated, hok, rfl⟩ := map_ok_iff.mp hold
    exact isolateService_promotable hok

/-! ## Normalising and pinning -/

theorem forall₂_exists {α β : Type} {r : α → β → Prop} {as : List α} {bs : List β}
    (h : List.Forall₂ r as bs) : ∀ b ∈ bs, ∃ a ∈ as, r a b := by
  induction h with
  | nil => simp
  | cons hr _ ih =>
    intro b hb
    rcases List.mem_cons.mp hb with rfl | hb
    · exact ⟨_, List.mem_cons_self, hr⟩
    · obtain ⟨a, ha, hab⟩ := ih b hb
      exact ⟨a, List.mem_cons_of_mem _ ha, hab⟩

theorem NormalNetworks.onDefault {rest rest' : Fields}
    (hown : isTruthy (rest'.get "network_mode") = false)
    (h : NormalNetworks (rest.get "networks") (rest'.get "networks"))
    (hlist : rest.get "networks" = some (.arr [.str "default"])) : OnDefaultNetwork rest' := by
  refine ⟨hown, ?_⟩
  rcases h with hsame | ⟨names, hold, hnew⟩
  · exact .inl (hsame.trans hlist)
  · have hnames : names = ["default"] := by
      rw [hlist] at hold
      cases names with
      | nil => simp at hold
      | cons name names =>
        cases names with
        | nil => simpa using hold.symm
        | cons other names => simp at hold
    refine .inr ⟨[("default", .null)], by rw [hnew, hnames]; rfl, by simp, .inl rfl⟩

/-- The network of the project, under its own name and with an empty `ipam` or without. -/
theorem Normalised.internal {project : String} {config rendered : ComposeConfig}
    (h : Normalised project config rendered)
    (hnetwork : config.rest.get "networks" =
      some (.obj [("default", .obj [("internal", .bool true)])])) :
    InternalNetwork project rendered.rest := by
  obtain ⟨networks', hget, hnormal⟩ := h.networks _ hnetwork
  cases hnormal with
  | @cons _ network' _ rest' hone hnone =>
    cases hnone
    obtain ⟨name, json⟩ := network'
    obtain ⟨hname, hfields⟩ := hone
    obtain rfl : name = "default" := hname
    rcases hfields with hsame | ⟨fields, fields', hold, hnew, hnamed, hipam, hkept⟩
    · obtain rfl : json = .obj [("internal", .bool true)] := hsame
      exact ⟨_, _, hget, by simp, rfl, by simp, rfl, .inl rfl, .inl rfl⟩
    · obtain rfl : json = .obj fields' := hnew
      obtain rfl : [("internal", Json.bool true)] = fields := by simpa using hold
      refine ⟨_, fields', hget, by simp, rfl, ?_, ?_, ?_, ?_⟩
      · -- a further key would have been there before
        intro field hfield
        by_cases hin : field.1 = "name" ∨ field.1 = "ipam"
        · rcases hin with h | h <;> simp [h]
        · have hsome : fields'.get field.1 ≠ none := Fields.get_ne_none hfield
          rw [not_or] at hin
          rw [hkept _ hin.1 hin.2, Fields.get_cons] at hsome
          split at hsome
          · rename_i hinternal
            simp [hinternal]
          · exact absurd Fields.get_nil hsome
      · rw [hkept _ (by decide) (by decide)]
        rfl
      · rcases hnamed with h | ⟨-, h⟩
        · exact .inl h
        · refine .inr (.inr ?_)
          rw [h, String.append_assoc]
          rfl
      · rcases hipam with h | ⟨-, h⟩
        · exact .inl h
        · exact .inr h

/-- Every service that is pinned is one of them, with another image and nothing to build. -/
theorem pinImages_safe (services : List (String × Service)) (w : World Guest) :
    Safe (alone Guest) () (Ends fun pins _ => ∀ service ∈ pins.1, ∃ old ∈ services, ∃ id,
      service = (old.1, pinned old.2 id)) (pinImages services) w := by
  induction services generalizing w with
  | nil => exact fun _ h => absurd h List.not_mem_nil
  | cons service services ih =>
    obtain ⟨name, service⟩ := service
    refine Safe.seq Safe.anything fun image v _ => ?_
    refine Safe.seq Safe.anything fun id v _ => ?_
    refine Safe.seq Safe.anything fun declared v _ => ?_
    refine Safe.seq Safe.anything fun _ v _ => ?_
    refine Safe.seq (ih v) fun rest u hrest => ?_
    refine Safe.ends ?_
    intro found hfound
    rcases List.mem_cons.mp hfound with rfl | hfound
    · exact ⟨_, List.mem_cons_self, id, rfl⟩
    · obtain ⟨old, hold, hpinned⟩ := hrest found hfound
      exact ⟨old, List.mem_cons_of_mem _ hold, hpinned⟩

/-! ## The promotion -/

/-- **Promotion is sound, minimal and complete for restores.**  It accepts what is on the internal
    network and the loopback address alone, and changes the networks section only.  It accepts every
    isolated configuration, as Compose prints it and with its images pinned. -/
theorem promotion (release : ReleaseId) :
    (∀ project value fields config promoted, value = .obj fields →
      composeConfigSchema value = .ok config →
      promoteRestoreNetwork config project release = .ok promoted →
      Promotable project config ∧ promoted.services = config.services ∧
        ∀ key, key ≠ "services" → key ≠ "networks" →
          promoted.rest.get key = Fields.get fields key) ∧
    ∀ app id value input config rendered services pins w w',
      isolatedBackupConfig value input = .ok config → Normalised (project app) config rendered →
      checkEach (tagService app id) rendered.services = .ok services →
      Runs (pinImages services) w (.ok pins) w' →
      ∃ promoted, promoteRestoreNetwork { rendered with services := pins.1 } (project app) release =
        .ok promoted := by
  constructor
  · intro project value fields config promoted hvalue hconfig hpromoted
    obtain ⟨hpromotable, rfl⟩ := promoteRestoreNetwork_ok_iff.mp hpromoted
    refine ⟨hpromotable, rfl, fun key hservices hnetworks => ?_⟩
    simp only [composeConfigSchema, bind_ok_iff, record_ok_iff, pure_ok_iff] at hconfig
    obtain ⟨found, hfound, -, -, -, -, -, -, -, -, rfl⟩ := hconfig
    obtain rfl : fields = found := by simpa [hvalue] using hfound
    show (Fields.set (Fields.erase fields "services") "networks" _).get key = _
    rw [Fields.get_set, if_neg hnetworks, Fields.get_erase_ne hservices]
  · intro app id value input config rendered services pins w w' hisolated hnormal htagged hpinned
    obtain ⟨hnetwork, hservices⟩ := isolatedBackupConfig_networks hisolated
    have hpins := (pinImages_safe services w).runs hpinned
    refine ⟨_, promoteRestoreNetwork_ok_iff.mpr ⟨⟨hnormal.internal hnetwork, ?_⟩, rfl⟩⟩
    intro service hservice
    obtain ⟨tagged, hmem, image, rfl⟩ := hpins service hservice
    obtain ⟨printed, hprinted, htag⟩ := (checkEach_ok htagged).2 tagged hmem
    obtain ⟨old, hold, hone⟩ := forall₂_exists hnormal.services printed hprinted
    obtain ⟨hown, hlist, hports⟩ := hservices old hold
    -- tagging and pinning leave these three keys alone
    have hkept : ∀ key, key ≠ "pull_policy" →
        (pinned tagged.2 image).rest.get key = printed.2.rest.get key := by
      intro key hkey
      simp only [tagService, bind_ok_iff, pure_ok_iff] at htag
      obtain ⟨-, -, rfl⟩ := htag
      rw [pinned, Fields.get_set, if_neg hkey]
      split <;> rfl
    refine ⟨@NormalNetworks.onDefault old.2.rest _ ?_ ?_ hlist, ?_⟩
    · rw [hkept _ (by decide), hone.kept _ (by decide)]
      exact hown
    · rw [hkept _ (by decide)]
      exact hone.networks
    · unfold OnLoopback
      rw [hkept _ (by decide), hone.kept _ (by decide)]
      exact hports

/-! ## The restart policy of the captured database, promoted -/

namespace Demo

/-- What Compose prints for it. -/
def normalised : ComposeConfig :=
  { services := [("db",
      { image := some "postgres:17.9"
        build := none
        volumes := some [Compose.Demo.volume]
        rest := [("restart", .str "always"), ("networks", .obj [("default", .null)])] })]
    rest := [("volumes", .obj []), ("networks", .obj [("default",
      .obj [("name", .str "acld-app_default"), ("ipam", .obj []), ("internal", .bool true)])])] }

theorem normalised_normal :
    Normalised (project "app") (Compose.Demo.config "restart" (.str "always")) normalised := by
  refine ⟨.cons ⟨rfl, rfl, rfl, rfl, .inr ⟨["default"], rfl, rfl⟩, fun key hkey => ?_⟩ .nil,
    fun networks h => ?_, fun key hkey => ?_⟩
  · show Fields.get [("restart", .str "always"), ("networks", .obj [("default", .null)])] key =
      Fields.get [("restart", .str "always"), ("networks", .arr [.str "default"])] key
    simp [Fields.get_cons, hkey]
  · obtain rfl : [("default", Json.obj [("internal", .bool true)])] = networks := by
      have hget : Fields.get (Compose.Demo.config "restart" (.str "always")).rest "networks" =
        some (.obj [("default", .obj [("internal", .bool true)])]) := by rfl
      rw [hget] at h
      simpa using h
    refine ⟨_, rfl, .cons ⟨rfl, .inr ⟨_, _, rfl, rfl, .inr ⟨rfl, rfl⟩, .inr ⟨rfl, rfl⟩, ?_⟩⟩ .nil⟩
    intro key hname hipam
    simp [Fields.get_cons, hname, hipam]
  · show Fields.get [("volumes", _), ("networks", _)] key = Fields.get [("volumes", _), ("networks", _)] key
    simp [Fields.get_cons, hkey]

def imageReply : (c : Call) → c.Reply
  | .imageId _ => .ok "sha256:17"
  | .imageVolumes _ => .ok ["/var/lib/postgresql/data"]
  | .wake => .ok ()
  | .config .. => .ok .null
  | .build .. => .ok ()
  | .pull .. => .ok ()
  | .up .. => .ok ()
  | .ps .. => .ok ""
  | .logs .. => .ok ""

def pins : List (String × Service) × List (String × String) :=
  ([("db", pinned ⟨some "postgres:17.9", none, some [Compose.Demo.volume],
    [("restart", .str "always"), ("networks", .obj [("default", .null)])]⟩ "sha256:17")],
    [("db", "sha256:17")])

theorem pinned_runs : ∃ w', Runs (pinImages normalised.services) ⟨Store.fresh, []⟩ (.ok pins) w' := by
  have hruns := Prog.runFrom_runs (S := Guest) (fun _ => ⟨0, true, true, 0⟩) imageReply 0
    (pinImages normalised.services) ⟨Store.fresh, []⟩
  exact ⟨_, hruns⟩

/-- The restored database is promoted, and only its networks change. -/
theorem restored_promotes :
    ∃ promoted, promoteRestoreNetwork { normalised with services := pins.1 } "acld-app" "r2" =
        .ok promoted := by
  obtain ⟨w', hruns⟩ := pinned_runs
  exact (promotion "r2").2 "app" "r1" (Compose.Demo.captured "restart" (.str "always"))
    Compose.Demo.input _ normalised normalised.services pins _ w' Compose.Demo.accepted_restart
    normalised_normal rfl hruns

end Demo

end AgentCloud.Deployments
