/-
  RUNS: how a fact about one change of a build becomes a fact about every run.

  A run is any interleaving of the workers of any number of builds and customers, with a process
  death after any action and any reply.  One step changes one build at most (`moved`), by one change;
  `build_invariant` and `build_transition` are the two inductions over runs, and the theorems in the
  modules after this one are their instances.
-/
import AgentCloud.Images.Working

namespace AgentCloud.Images

open Checked Durable

/-- The control plane: its world, and the workers that hold its locks. -/
abbrev Plane := Durable.Config interface Lock

/-- What became of a build in one step. -/
inductive Moved (w : World interface) (b' : ImageBuild) : Prop where
  | same (mem : b' ∈ w.store.builds)
  | changed (b : ImageBuild) (here : w.store.build b'.id = some b)
      (change : Change w.store w.log b b')
  | admitted (admission : ImageBuildAdmission) (fresh : w.store.build admission.id = none)
      (eq : b' = .admitted admission)

variable {w w' : World interface} {c c' : Plane} {clock : Instant}

/-! ## One step -/

theorem Written.moved {id : ImageBuildId} (h : Valid w) (written : Written w id w') :
    (∀ b' ∈ w'.store.builds, Moved w b') ∧
      ∀ b ∈ w.store.builds, ∃ b' ∈ w'.store.builds, b' = b ∨ Change w.store w.log b b' := by
  obtain @⟨b, b', here, change⟩ := written
  obtain rfl := Store.build_id here
  have hput : ∀ x, x ∈ (w.store.putBuild b').builds ↔
      x = b' ∨ (x ∈ w.store.builds ∧ x.id ≠ b.id) := fun x =>
    Store.mem_putBuild h.keyed change.id here
  refine ⟨fun x hx => ?_, fun x hx => ?_⟩
  · rcases (hput x).mp hx with rfl | ⟨hx, -⟩
    · exact .changed b (by rw [change.id]; exact here) change
    · exact .same hx
  · by_cases hid : x.id = b.id
    · obtain rfl := h.keyed.unique hx (Store.build_mem here) hid
      exact ⟨b', (hput b').mpr (.inl rfl), .inr change⟩
    · exact ⟨x, (hput x).mpr (.inr ⟨hx, hid⟩), .inl rfl⟩

/-- The builds are the same. -/
theorem moved_same (hbuilds : w'.store.builds = w.store.builds) :
    (∀ b' ∈ w'.store.builds, Moved w b') ∧
      ∀ b ∈ w.store.builds, ∃ b' ∈ w'.store.builds, b' = b ∨ Change w.store w.log b b' := by
  rw [hbuilds]
  exact ⟨fun b' hb' => .same hb', fun b hb => ⟨b, hb, .inl rfl⟩⟩

/-- What one step does to the table of builds. -/
inductive Rows (w w' : World interface) : Prop where
  | same (eq : w'.store.builds = w.store.builds)
  | written {id : ImageBuildId} (written : Written w id w')
  | admitted (admission : ImageBuildAdmission) (catalog : ImageCatalog)
      (limits : ImageBuildLimits) (date : Instant) (state : ImageBuildState)
      (ok : admitImageBuild admission catalog limits date w.store = .ok (state, w'.store))

theorem Does.rows {lock : Lock} (does : Does lock w w') :
    w'.store.builds = w.store.builds ∨ ∃ id, Written w id w' := by
  cases does with
  | idle => exact .inl rfl
  | write here change => exact .inr ⟨_, .mk here change⟩
  | ask => exact .inl rfl
  | submit => exact .inl rfl
  | attempt => exact .inl rfl
  | customer => exact .inl rfl
  | customerSubmit => exact .inl rfl
  | removed here gone written =>
    obtain rfl := Store.build_id here
    exact .inr ⟨_, .mk here (.accessRemoved gone written)⟩

theorem Drift.rows (drift : Drift w w') : Rows w w' := by
  cases drift with
  | time => exact .same rfl
  | admitted admission catalog limits date state store ok =>
    exact .admitted admission catalog limits date state ok
  | cancelled id reason store ok =>
    obtain ⟨b, b', here, written, rfl⟩ := requestCleanup_ok ok
    exact .written (.mk here (.cleaning reason written))
  | runRequested here written => exact .written (.mk here (.runRequested written))
  | enrolled => exact .same rfl
  | pinned trusted pin store ok =>
    obtain ⟨-, -, rfl⟩ := pinAllocationImage_ok ok
    exact .same rfl
  | customer => exact .same rfl

theorem rows (effect : Discipline.Effect system contract w w') : Rows w w' := by
  cases effect with
  | idle => exact .same rfl
  | does lock does =>
    rcases does.rows with heq | ⟨id, hwritten⟩
    · exact .same heq
    · exact .written hwritten
  | other drift => exact drift.rows

/-- **Step lemma.**  One step changes one build at most, and takes none away. -/
theorem moved (h : Valid w) (effect : Discipline.Effect system contract w w') :
    (∀ b' ∈ w'.store.builds, Moved w b') ∧
      ∀ b ∈ w.store.builds, ∃ b' ∈ w'.store.builds, b' = b ∨ Change w.store w.log b b' := by
  cases rows effect with
  | same eq => exact moved_same eq
  | written written => exact written.moved h
  | admitted admission catalog limits date state ok =>
    rcases admitImageBuild_ok ok with heq | ⟨hfresh, heq⟩
    · exact moved_same (congrArg Store.builds heq)
    · rw [heq]
      refine ⟨fun b' hb' => ?_, fun b hb => ⟨b, List.mem_append_left _ hb, .inl rfl⟩⟩
      rcases List.mem_append.mp hb' with hb' | hb'
      · exact .same hb'
      · exact .admitted admission hfresh (List.mem_singleton.mp hb')

/-! ## Every run -/

theorem inOrder (h : system.Reach (.idle (empty clock)) c) : Discipline.InOrder contract c :=
  discipline.inOrder (Discipline.inOrder_idle (empty_valid clock)) h

theorem valid (h : system.Reach (.idle (empty clock)) c) : Valid c.world := (inOrder h).1

/-- Nothing that was asked is forgotten. -/
theorem log_grows (effect : Discipline.Effect system contract w w') :
    ∃ new, w'.log = w.log ++ new := by
  have hsame : w'.log = w.log → ∃ new, w'.log = w.log ++ new := fun h => ⟨[], by rw [h]; simp⟩
  cases effect with
  | idle => exact hsame rfl
  | does lock does =>
    cases does with
    | idle => exact hsame rfl
    | write => exact hsame rfl
    | ask c r quiet => exact ⟨_, rfl⟩
    | submit => exact ⟨_, rfl⟩
    | attempt => exact hsame rfl
    | customer => exact hsame rfl
    | customerSubmit => exact ⟨_, rfl⟩
    | removed => exact hsame rfl
  | other drift => cases drift <;> exact hsame rfl

/-- **Run lemma.**  What every change of a build and every exchange keeps, every run keeps. -/
theorem build_invariant {P : Log → ImageBuild → Prop}
    (hadmitted : ∀ log admission, P log (.admitted admission))
    (hlog : ∀ {log b}, P log b → ∀ new, P (log ++ new) b)
    (hchange : ∀ {store log b b'}, b ∈ store.builds → Sound b → P log b →
      Change store log b b' → P log b')
    (h : system.Reach (.idle (empty clock)) c) :
    ∀ b ∈ c.world.store.builds, P c.world.log b := by
  have hstep : ∀ {w w' : World interface}, Valid w → (∀ b ∈ w.store.builds, P w.log b) →
      Discipline.Effect system contract w w' → ∀ b' ∈ w'.store.builds, P w'.log b' := by
    intro w w' hvalid hP effect b' hb'
    obtain ⟨new, hnew⟩ := log_grows effect
    rw [hnew]
    cases (moved hvalid effect).1 b' hb' with
    | same mem => exact hlog (hP b' mem) new
    | changed b here change =>
      have mem := Store.build_mem here
      exact hlog (hchange mem (hvalid.sound b mem) (hP b mem) change) new
    | admitted admission fresh eq =>
      rw [eq]
      exact hadmitted _ admission
  exact discipline.invariant (P := fun w => ∀ b ∈ w.store.builds, P w.log b)
    (fun hvalid hP does => hstep hvalid hP (.does _ does))
    (fun hvalid hP drift => hstep hvalid hP (.other drift))
    (Discipline.inOrder_idle (empty_valid clock)) (by simp [Config.idle, empty]) h

/-- **Run lemma.**  What relates the two ends of every change relates a build to what becomes of it
    in every run, if it is a preorder that keeps the build's name. -/
theorem build_transition {T : ImageBuild → ImageBuild → Prop} (hrefl : ∀ b, T b b)
    (htrans : ∀ {a b c}, T a b → T b c → T a c)
    (hchange : ∀ {store log b b'}, b ∈ store.builds → Sound b → Change store log b b' → T b b')
    (hc : Discipline.InOrder contract c) (h : system.Reach c c') :
    ∀ b ∈ c.world.store.builds, ∃ b' ∈ c'.world.store.builds, b'.id = b.id ∧ T b b' := by
  have hstep : ∀ {w w' : World interface}, Valid w → Discipline.Effect system contract w w' →
      ∀ b ∈ w.store.builds, ∃ b' ∈ w'.store.builds, b'.id = b.id ∧ T b b' := by
    intro w w' hvalid effect b hb
    obtain ⟨b', hb', rfl | change⟩ := (moved hvalid effect).2 b hb
    · exact ⟨b', hb', rfl, hrefl b'⟩
    · exact ⟨b', hb', change.id, hchange hb (hvalid.sound b hb) change⟩
  refine discipline.transition (T := fun w w' => ∀ b ∈ w.store.builds,
    ∃ b' ∈ w'.store.builds, b'.id = b.id ∧ T b b') (fun w b hb => ⟨b, hb, rfl, hrefl b⟩) ?_
    (fun hvalid does => hstep hvalid (.does _ does))
    (fun hvalid drift => hstep hvalid (.other drift)) hc h
  intro u v w huv hvw b hb
  obtain ⟨b', hb', hid, hT⟩ := huv b hb
  obtain ⟨b'', hb'', hid', hT'⟩ := hvw b' hb'
  exact ⟨b'', hb'', hid'.trans hid, htrans hT hT'⟩

/-! ## Under fixed limits -/

/-- A build appears only as an admission under these limits. -/
def AdmitsUnder (limits : ImageBuildLimits) (w w' : World interface) : Prop :=
  w'.store.builds.length = w.store.builds.length ∨
    ∃ admission catalog date state,
      admitImageBuild admission catalog limits date w.store = .ok (state, w'.store)

/-- The control plane of an operator who keeps to the same limits. -/
def limited (limits : ImageBuildLimits) : System interface Lock where
  job := Job
  other w w' := Drift w w' ∧ AdmitsUnder limits w w'
  allows _ _ _ := True

theorem step_of_limited {limits : ImageBuildLimits} (h : (limited limits).Step c c') :
    system.Step c c' :=
  h.mono (fun _ _ job => job) (fun _ _ other => other.1) fun _ _ _ allowed => allowed

theorem reach_of_limited {limits : ImageBuildLimits} (h : (limited limits).Reach c c') :
    system.Reach c c' :=
  Relation.ReflTransGen.mono (fun _ _ step => step_of_limited step) _ _ h

theorem limited_discipline (limits : ImageBuildLimits) : Discipline (limited limits) contract :=
  discipline.mono (fun _ _ job => job) (fun _ _ other => other.1) fun _ _ _ allowed => allowed

/-! ## Scenarios -/

/-- Something that happens besides the workers, if it can. -/
structure Event (limits : ImageBuildLimits) where
  play : World interface → Option (World interface)
  drift : ∀ {w w'}, play w = some w' → (limited limits).other w w'

theorem AdmitsUnder.same {limits : ImageBuildLimits} (h : w'.store.builds = w.store.builds) :
    AdmitsUnder limits w w' :=
  .inl (congrArg List.length h)

theorem AdmitsUnder.putBuild {limits : ImageBuildLimits} (b' : ImageBuild) :
    AdmitsUnder limits w (w.put (w.store.putBuild b')) :=
  .inl (List.length_map _)

variable {limits : ImageBuildLimits}

def Event.time (clock : Instant) : Event limits where
  play w := if w.store.clock ≤ clock then some (w.put { w.store with clock }) else none
  drift {w w'} h := by
    split at h
    · next hclock =>
      obtain rfl := Option.some.inj h
      exact ⟨.time clock hclock, .same rfl⟩
    · cases h

def Event.admission (admission : ImageBuildAdmission) (catalog : ImageCatalog) :
    Event limits where
  play w := match admitImageBuild admission catalog limits w.store.clock w.store with
    | .ok (_, store) => some (w.put store)
    | .error _ => none
  drift {w w'} h := by
    split at h
    · next state store hok =>
      obtain rfl := Option.some.inj h
      exact ⟨.admitted admission catalog limits w.store.clock state store hok,
        .inr ⟨admission, catalog, _, state, hok⟩⟩
    · cases h

def Event.cancel (id : ImageBuildId) (reason : CleanupReason) : Event limits where
  play w := match requestCleanup id reason w.store with
    | .ok (_, store) => some (w.put store)
    | .error _ => none
  drift {w w'} h := by
    split at h
    · next store hok =>
      obtain rfl := Option.some.inj h
      obtain ⟨b, b', -, -, heq⟩ := requestCleanup_ok hok
      refine ⟨.cancelled id reason store hok, ?_⟩
      rw [heq]
      exact .putBuild b'
    · cases h

def Event.enroll (journal : Lifecycle.Journal) : Event limits where
  play w := if w.store.customer journal.allocation.id = none ∧ journal.attempts = [] then
    some (w.put { w.store with customers := w.store.customers ++ [journal] }) else none
  drift {w w'} h := by
    split at h
    · next hfresh =>
      obtain rfl := Option.some.inj h
      exact ⟨.enrolled journal hfresh.1 hfresh.2, .same rfl⟩
    · cases h

def Event.pin (trusted : SignedImageRelease → Bool) (pin : AllocationImage) : Event limits where
  play w := match pinAllocationImage trusted pin w.store with
    | .ok store => some (w.put store)
    | .error _ => none
  drift {w w'} h := by
    split at h
    · next store hok =>
      obtain rfl := Option.some.inj h
      obtain ⟨-, -, heq⟩ := pinAllocationImage_ok hok
      refine ⟨.pinned trusted pin store hok, .same ?_⟩
      rw [heq]
      rfl
    · cases h

theorem Event.cancel_play {id : ImageBuildId} {reason : CleanupReason}
    (h : (Event.cancel id reason : Event limits).play w = some w') :
    requestCleanup id reason w.store = .ok ((), w'.store) := by
  simp only [Event.cancel] at h
  split at h
  · next store hok =>
    obtain rfl := Option.some.inj h
    exact hok
  · cases h

/-- A part of a run that begins and ends with no worker at work. -/
structure Scene (limits : ImageBuildLimits) where
  play : World interface → Option (World interface)
  reach : ∀ {w w'}, play w = some w' → (limited limits).Reach (.idle w) (.idle w')

/-- One scene after another. -/
def playAll : List (Scene limits) → World interface → Option (World interface)
  | [], w => some w
  | scene :: rest, w => (scene.play w).bind (playAll rest)

theorem reach_playAll {scenes : List (Scene limits)} {w w' : World interface}
    (h : playAll scenes w = some w') : (limited limits).Reach (.idle w) (.idle w') := by
  induction scenes generalizing w with
  | nil =>
    obtain rfl := Option.some.inj h
    exact .refl
  | cons scene rest ih =>
    obtain ⟨v, hv, hrest⟩ := Option.bind_eq_some_iff.mp h
    exact (scene.reach hv).trans (ih hrest)

/-- A scenario that can be played to the end leads to its last world. -/
theorem reach_any {scenes : List (Scene limits)} {w : World interface}
    {p : World interface → Bool} (h : (playAll scenes w).any p = true) :
    ∃ w', (limited limits).Reach (.idle w) (.idle w') ∧ p w' = true := by
  obtain ⟨w', hw', hp⟩ := (Option.any_eq_true _ _).mp h
  exact ⟨w', reach_playAll hw', hp⟩

def Scene.event (event : Event limits) : Scene limits where
  play := event.play
  reach {w w'} h := .single (.other (c := .idle w) w' (event.drift h))

/-- A worker's run, with chosen environments and replies. -/
def Scene.job {lock : Lock} {p : Program Unit} (env : World interface → Env)
    (reply : World interface → (c : Call) → c.Reply) (job : Job lock p) : Scene limits where
  play w := some (p.run env reply w).2
  reach {w w'} h := by
    obtain rfl := Option.some.inj h
    exact (limited limits).reach_job lock env reply (fun _ _ => trivial) p w job

/-- A worker's run, with an event after `n` of its actions. -/
def Scene.interrupted {lock : Lock} {p : Program Unit} (env : World interface → Env)
    (reply : World interface → (c : Call) → c.Reply) (job : Job lock p) (n : Nat)
    (event : Event limits) : Scene limits where
  play w := (event.play (p.runFor env reply n w).2).map fun v =>
    ((p.runFor env reply n w).1.run env reply v).2
  reach {w w'} h := by
    obtain ⟨v, hv, rfl⟩ := Option.map_eq_some_iff.mp h
    exact (limited limits).reach_interrupted lock env reply (fun _ _ => trivial) p n job
      (event.drift hv)

/-- A worker's run, up to its death after `n` of its actions. -/
def Scene.died {lock : Lock} {p : Program Unit} (env : World interface → Env)
    (reply : World interface → (c : Call) → c.Reply) (job : Job lock p) (n : Nat) : Scene limits where
  play w := some (p.runFor env reply n w).2
  reach {w w'} h := by
    obtain rfl := Option.some.inj h
    exact (limited limits).reach_died lock env reply (fun _ _ => trivial) p n job

namespace Demo

def manifest : Manifest := ⟨"1", .x86, "ca", [], true⟩

def offer : ImageOffer :=
  { size := .small
    serverType := "cx22"
    region := .nbg1
    architecture := .x86
    diskGb := 40
    available := true
    currency := "EUR"
    serverHourlyMicros := 4500
    ipv4HourlyMicros := 2000
    providerBackups := .disabled
    hourlyMicros := 6500
    total := rfl
    vcpus := 2
    memoryGb := 4
    priceBasis := .accountGross }

def admission (id : ImageBuildId) : ImageBuildAdmission where
  id := id
  source := ⟨manifest, [("systemd/agent-cloud-renew.service", "s"),
    ("systemd/agent-cloud-renew.timer", "t")], "artifacts", "manifest", "checksum"⟩
  offer := offer
  storagePrice := ⟨"EUR", 10, 0, 10000000⟩
  baseImageId := "base"
  access := ⟨"192.0.2.1", "public", "host", "secret"⟩
  budget := ⟨"EUR", 14000, 400, 40⟩
  admittedAt := 0
  deadlineAt := 3600000
  retention := .retain 9000000

def catalog : ImageCatalog := ⟨.hetzner, .accountGross, 0, 10000000, [offer]⟩

def allowance : ImageBuildLimits := ⟨"EUR", 1, 14000, 1000⟩

/-- Identifiers in the order in which they are drawn. -/
def names : List String :=
  ["e1", "e2", "e3", "e4", "e5", "e6", "e7", "e8", "e9", "e10", "e11", "e12", "e13", "e14", "e15",
    "e16", "e17", "e18", "e19", "e20"]

def env (w : World interface) : Env where
  date := w.store.clock
  id := names.getD (w.store.builds.foldr (fun b n => b.effects.length + n) 0 +
    w.store.customers.foldr (fun j n => j.attempts.length + n) 0) "e"
  foreign := fun _ => false

/-! A provider that does what it is asked for at once: what there is follows from what was asked. -/

def created (w : World interface) : List (EffectId × ImageProviderCommand) :=
  w.log.filterMap fun exchange => match exchange.call with
    | .submit id command => some (id, command)
    | _ => none

def deleted (w : World interface) (ref : ImageResourceRef) : Bool :=
  w.log.any fun exchange => match exchange.call with
    | .submit _ (.delete other) => decide (other = ref)
    | _ => false

/-- What a create made is named after its role. -/
def refOf (labels : ImageBuildLabels) : ImageResourceRef :=
  ⟨imageRoleKind labels.role, labels.role.text⟩

def stopped (w : World interface) (id : String) : Bool :=
  w.log.any fun exchange => match exchange.call with
    | .submit _ (.powerOff other _) => decide (other = id)
    | _ => false

/-- The server that an address is assigned to. -/
def assigned (w : World interface) (ipId : String) : Option String :=
  (created w).findSome? fun request => match request.2 with
    | .createServer _ labels intent =>
      if intent.primaryIpId = ipId ∧ deleted w (refOf labels) = false then some (refOf labels).id
      else none
    | _ => none

def attachments (w : World interface) : List FirewallAttachment :=
  (created w).filterMap fun request => match request.2 with
    | .createServer _ labels _ =>
      if deleted w (refOf labels) then none else some (.server (refOf labels).id)
    | _ => none

def made (w : World interface) (id : EffectId) (labels : ImageBuildLabels) :
    ImageProviderCommand → Option ImageProviderResource
  | .createSshKey _ _ key => some (.sshKey ⟨(refOf labels).id,
      imageEffectLabels labels.buildId labels.role id, key⟩)
  | .createFirewall _ _ address => some (.firewall ⟨(refOf labels).id,
      imageEffectLabels labels.buildId labels.role id,
      [⟨"in", "tcp", some "22", [address ++ "/32"], []⟩], attachments w⟩)
  | .createPrimaryIp _ _ region => some (.primaryIp ⟨(refOf labels).id,
      imageEffectLabels labels.buildId labels.role id, region, labels.role.text, false,
      assigned w (refOf labels).id⟩)
  | .createServer name _ intent => some (.server ⟨(refOf labels).id,
      imageEffectLabels labels.buildId labels.role id, name, intent.serverType, intent.region, .x86,
      if stopped w (refOf labels).id then .off else .running, some intent.imageId,
      some intent.primaryIpId, some intent.primaryIpId, [(intent.firewallId, "applied")], false, 40⟩)
  | .createSnapshot _ _ serverId => some (.snapshot ⟨(refOf labels).id,
      imageEffectLabels labels.buildId labels.role id, .x86, .available, some serverId, some 30, 40,
      false, w.store.clock⟩)
  | _ => none

/-- Everything that is there. -/
def existing (w : World interface) : List ImageProviderResource :=
  (created w).filterMap fun request => request.2.labels?.bind fun labels =>
    if deleted w (refOf labels) then none else made w request.1 labels request.2

def sanitation (id : ImageBuildId) : Sanitation := ⟨id, "manifest"⟩

def submission : ImageProviderCommand → ImageSubmission
  | .powerOff serverId _ => .completed ⟨.server, serverId⟩
  | .delete ref => .completed ref
  | command => match command.labels? with
    | some labels => .completed (refOf labels)
    | none => .rejected ""

def remoteReply (id : ImageBuildId) : (action : RemoteAction) → action.Reply
  | .inspect => InstallState.installed ⟨id, "manifest", "machine"⟩
  | .upload => ()
  | .install => InstallState.installed ⟨id, "manifest", "machine"⟩
  | .sanitize => sanitation id

def reply (w : World interface) : (c : Call) → c.Reply
  | .submit _ command => .ok (submission command)
  | .get ref => .ok ((existing w).find? fun resource => resource.ref = ref)
  | .find kind labels => .ok ((existing w).filter fun resource =>
      decide (resource.ref.kind = kind) && Lifecycle.matchesLabels resource.labels labels)
  | .getAction .. => .ok (.known .succeeded)
  | .getBaseImage id => .ok (some ⟨id, "system", "available", .x86, "ubuntu", some "24.04", 40, false,
      false⟩)
  | .pricing => .ok (catalog, ⟨"EUR", 10, 0, 10000000⟩)
  | .recoverAccess _ => .ok ()
  | .removeAccess _ => .ok ()
  | .remote action _ => .ok (remoteReply "build" action)
  | .readKeys => .ok []
  | .customerSubmit .. => .ok (.unknown "lost")

def effect (id : ImageBuildId) (command : ImageProviderCommand) : Scene allowance :=
  .job env reply (.effect id command (some allowance))

def builder : ServerIntent :=
  ⟨"cx22", "nbg1", "base", "builder_ip", "access_key", "access_firewall",
    .imageBuildSecret "secret" "manifest"⟩

def verifier (id : ImageBuildId) : ServerIntent :=
  ⟨"cx22", "nbg1", "snapshot", "verifier_ip", "access_key", "access_firewall",
    .imageVerifierSecret id "manifest"⟩

/-- The machine of the builder, up to its confirmed shutdown. -/
def building (id : ImageBuildId) : List (Scene allowance) :=
  [effect id (.createSshKey "key" ⟨id, .accessKey⟩ "public"),
    effect id (.createFirewall "firewall" ⟨id, .accessFirewall⟩ "192.0.2.1"),
    effect id (.createPrimaryIp "ip" ⟨id, .builderIp⟩ "nbg1"),
    effect id (.createServer "builder" ⟨id, .builder⟩ builder),
    .job env reply (.builder id),
    .job env reply (.builder id),
    effect id (.powerOff "builder" (sanitation id))]

/-- The snapshot and the machine that verifies it, up to the evidence. -/
def verifying (id : ImageBuildId) : List (Scene allowance) :=
  [effect id (.createSnapshot "snapshot" ⟨id, .snapshot⟩ "builder"),
    .job env reply (.verify id (.bootstrap ⟨"snapshot", 1000, none⟩)),
    effect id (.createPrimaryIp "ip" ⟨id, .verifierIp⟩ "nbg1"),
    effect id (.createServer "verifier" ⟨id, .verifier⟩ (verifier id)),
    .job env reply (.verify id (.claim "e8" "verifier")),
    .job env reply (.verify id (.issue "e8" "verifier")),
    .job env reply (.verify id (.result ⟨"verifier", "e8", "snapshot", "boot", "other", "manifest",
      0⟩)),
    .job env reply (.prepare id)]

def signer : ImagePublicationSigner := ⟨fun _ => ("key", "signature"), fun _ _ _ => true⟩

/-- The temporary cleanup and the release. -/
def releasing (id : ImageBuildId) : List (Scene allowance) :=
  [effect id (.delete ⟨.server, "verifier"⟩),
    effect id (.delete ⟨.server, "builder"⟩),
    effect id (.delete ⟨.primaryIp, "builder_ip"⟩),
    effect id (.delete ⟨.primaryIp, "verifier_ip"⟩),
    effect id (.delete ⟨.firewall, "access_firewall"⟩),
    effect id (.delete ⟨.sshKey, "access_key"⟩),
    .job env reply (.access id 0 (.admitted (admission id))),
    .job env reply (.publish signer id)]

/-- A build from its admission to its release. -/
def story : List (Scene allowance) :=
  [.event (.admission (admission "build") catalog)] ++ building "build" ++ verifying "build" ++
    releasing "build"


end Demo

end AgentCloud.Images
