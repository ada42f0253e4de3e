/-
  THE GUEST SIDE OF HOSTING: `createGuestHosting(...).command`, the one helper that changes which
  local port a hostname and version are forwarded to.

  The guest keeps three lists in `routes.json`.  `prepared` is the newest change begun for each
  hostname, `committed` the newest one finished, and `bindings` every version the public gateway may
  still be asking for.  A change is recorded in `bindings` and `prepared` BEFORE Caddy is reloaded,
  and in `committed` after the live file is in place; it forgets bindings of its hostname only below
  `retainFromVersion`.

  A command can fail at any file or tool it touches, and the helper can die between any two of them.
  `Cut` says where: `command` is run up to that point and what it left on disk stays.

  `command_change` states everything a `put` or `remove` can do to the recorded bindings, in two
  cases; `Guest.Valid` is what makes a repeated command's short answer trustworthy.
-/
import AgentCloud.Contracts
import Mathlib.Tactic.ByContra

namespace AgentCloud.Hosting

open Checked

abbrev Hostname := String

/-! ## Commands and state -/

/-- `hostingGuestRouteSchema`. -/
inductive GuestRoute where
  | put (hostname : Hostname) (version port : Nat)
  | remove (hostname : Hostname) (version : Nat)
  deriving DecidableEq, Repr

namespace GuestRoute

def hostname : GuestRoute → Hostname
  | .put hostname .. => hostname
  | .remove hostname _ => hostname

def version : GuestRoute → Nat
  | .put _ version _ => version
  | .remove _ version => version

/-- `desired.kind === 'put'`. -/
def isPut : GuestRoute → Bool
  | .put .. => true
  | .remove .. => false

end GuestRoute

/-- `hostingGuestCommandSchema`: a `put` or `remove` with its retention, or an inspection. -/
inductive GuestCommand where
  | change (desired : GuestRoute) (retainFromVersion : Nat)
  | inspect (hostname : Hostname)
  deriving DecidableEq, Repr

/-- `routes.json`, the live Caddy file and the configuration Caddy is running. -/
structure Guest where
  prepared : List GuestRoute
  committed : List GuestRoute
  bindings : List GuestRoute
  installed : List GuestRoute
  running : List GuestRoute
  deriving DecidableEq, Repr

namespace Guest

/-- A guest that never had a route. -/
def empty : Guest := ⟨[], [], [], [], []⟩

/-- The first route of a hostname. -/
def find (routes : List GuestRoute) (hostname : Hostname) : Option GuestRoute :=
  routes.find? (·.hostname = hostname)

theorem find_mem {routes : List GuestRoute} {hostname : Hostname} {route : GuestRoute}
    (h : find routes hostname = some route) : route ∈ routes ∧ route.hostname = hostname :=
  ⟨List.mem_of_find?_eq_some h, by simpa using List.find?_some h⟩

/-- The routes other than those of a hostname. -/
def without (routes : List GuestRoute) (hostname : Hostname) : List GuestRoute :=
  routes.filter (·.hostname ≠ hostname)

@[simp] theorem mem_without {routes : List GuestRoute} {hostname : Hostname} {route : GuestRoute} :
    route ∈ without routes hostname ↔ route ∈ routes ∧ route.hostname ≠ hostname := by
  simp [without]

/-- The bindings a change leaves: those of its hostname go below the retention and at its own
    version, and a `put` adds itself. -/
def retained (bindings : List GuestRoute) (desired : GuestRoute) (retainFromVersion : Nat) :
    List GuestRoute :=
  bindings.filter (fun route => route.hostname ≠ desired.hostname ∨
    (retainFromVersion ≤ route.version ∧ route.version ≠ desired.version)) ++
    if desired.isPut then [desired] else []

theorem mem_retained {bindings : List GuestRoute} {desired route : GuestRoute} {retain : Nat} :
    route ∈ retained bindings desired retain ↔
      (route ∈ bindings ∧ (route.hostname ≠ desired.hostname ∨
        (retain ≤ route.version ∧ route.version ≠ desired.version))) ∨
      (desired.isPut ∧ route = desired) := by
  cases hd : desired.isPut <;> simp [retained, hd]

/-! ## The command -/

/-- Where a command was cut short: before it wrote anything, after recording the bindings, after
    Caddy reloaded the candidate, after the candidate became the live file, or not at all. -/
inductive Cut where
  | start
  | recorded
  | reloaded
  | installed
  | none
  deriving DecidableEq, Repr

/-- What the checks of a change decide: it is already committed, or this is the state to record. -/
inductive Plan where
  | committed (route : GuestRoute)
  | record (guest : Guest)
  deriving DecidableEq, Repr

/-- The checks, in the source's order, and the state they lead to. -/
def prepare (guest : Guest) (desired : GuestRoute) (retainFromVersion : Nat) :
    Except Fault Plan := do
  let committed := find guest.committed desired.hostname
  refuse (retainFromVersion > desired.version)
    (cloudError .invalidInput "Retention cannot exceed the requested route version.")
  let current := find guest.prepared desired.hostname
  refuse (∃ route ∈ current, route.version > desired.version ∨
      (route.version = desired.version ∧ route ≠ desired))
    (cloudError .versionConflict "Guest route version belongs to a different change.")
  match committed.filter (·.version = desired.version) with
  | some route => pure (.committed route)
  | none =>
    refuse (current = none ∧ guest.prepared.length ≥ 100)
      (cloudError .quotaExceeded "Guest route history is limited to one hundred names.")
    let bindings := retained guest.bindings desired retainFromVersion
    refuse (bindings.length > 1000)
      (cloudError .quotaExceeded
        "Gateway acknowledgement is required before retaining more route versions.")
    pure (.record
      { guest with bindings, prepared := without guest.prepared desired.hostname ++ [desired] })

/-- Any failure of a file, a tool or the process itself. -/
def interrupted : Fault := .other "Guest hosting command was interrupted."

/-- `command`, run up to `cut`: the reply, and what the guest has on disk and in Caddy. -/
def command (cut : Cut) (guest : Guest) :
    GuestCommand → Except Fault (Option GuestRoute) × Guest
  | .inspect hostname =>
    if cut = .none then (.ok (find guest.committed hostname), guest)
    else (.error interrupted, guest)
  | .change desired retainFromVersion =>
    if cut = .start then (.error interrupted, guest)
    else
      match prepare guest desired retainFromVersion with
      | .error fault => (.error fault, guest)
      | .ok (.committed route) =>
        if cut = .none then (.ok (some route), guest) else (.error interrupted, guest)
      | .ok (.record recorded) =>
        let routes := recorded.bindings.filter (·.isPut)
        let reloaded := { recorded with running := routes }
        let installed := { reloaded with installed := routes }
        match cut with
        | .start | .recorded => (.error interrupted, recorded)
        | .reloaded => (.error interrupted, reloaded)
        | .installed => (.error interrupted, installed)
        | .none =>
          (.ok (some desired),
            { installed with
              committed := without guest.committed desired.hostname ++ [desired] })

/-! ## What a change can do -/

/-- The state is consistent: a prepared `put` is bound, a hostname is prepared once, and what is
    committed was prepared. -/
structure Valid (guest : Guest) : Prop where
  bound : ∀ route ∈ guest.prepared, route.isPut → route ∈ guest.bindings
  once : ∀ r₁ ∈ guest.prepared, ∀ r₂ ∈ guest.prepared, r₁.hostname = r₂.hostname → r₁ = r₂
  begun : ∀ route ∈ guest.committed, ∃ newest ∈ guest.prepared,
    newest.hostname = route.hostname ∧ route.version ≤ newest.version

theorem empty_valid : Valid empty := ⟨by simp [empty], by simp [empty], by simp [empty]⟩

/-- A prepared change is the one its hostname is looked up to. -/
theorem Valid.find_prepared {guest : Guest} (hv : guest.Valid) {route : GuestRoute}
    (hr : route ∈ guest.prepared) : find guest.prepared route.hostname = some route := by
  cases hp : find guest.prepared route.hostname with
  | none => simp [find, List.find?_eq_none] at hp; exact absurd rfl (hp route hr)
  | some current =>
    obtain ⟨hcm, hch⟩ := find_mem hp
    rw [hv.once current hcm route hr hch]

/-- The guest serves a hostname at a version. -/
def Holds (guest : Guest) (hostname : Hostname) (version : Nat) : Prop :=
  ∃ port, GuestRoute.put hostname version port ∈ guest.bindings

instance (guest : Guest) (hostname : Hostname) (version : Nat) :
    Decidable (guest.Holds hostname version) :=
  decidable_of_iff (∃ route ∈ guest.bindings, route.isPut = true ∧ route.hostname = hostname ∧
      route.version = version) <| by
    constructor
    · rintro ⟨route, hm, hput, rfl, rfl⟩
      cases route with
      | put hostname version port => exact ⟨port, hm⟩
      | remove hostname version => cases hput
    · rintro ⟨port, hm⟩
      exact ⟨_, hm, rfl, rfl, rfl⟩

/-- The checks passed and the change is new: what is recorded. -/
theorem prepare_record {guest recorded : Guest} {desired : GuestRoute} {retain : Nat}
    (h : prepare guest desired retain = .ok (.record recorded)) :
    retain ≤ desired.version ∧
    (∀ route, find guest.prepared desired.hostname = some route →
      route.version ≤ desired.version) ∧
    recorded = { guest with
      bindings := retained guest.bindings desired retain
      prepared := without guest.prepared desired.hostname ++ [desired] } := by
  simp only [prepare, bind_ok_iff, refuse_ok_iff] at h
  obtain ⟨-, hr, -, hc, h⟩ := h
  split at h
  · simp at h
  · simp only [bind_ok_iff, refuse_ok_iff, pure_ok_iff, Plan.record.injEq] at h
    obtain ⟨-, -, -, -, rfl⟩ := h
    refine ⟨by omega, fun route hf => ?_, rfl⟩
    by_contra hlt
    exact hc ⟨route, hf, .inl (by omega)⟩

/-- The checks passed and the change was already committed: then it is still the prepared one. -/
theorem prepare_committed {guest : Guest} (hv : guest.Valid) {desired route : GuestRoute}
    {retain : Nat} (h : prepare guest desired retain = .ok (.committed route)) :
    desired ∈ guest.prepared := by
  simp only [prepare, bind_ok_iff, refuse_ok_iff] at h
  obtain ⟨-, -, -, hc, h⟩ := h
  split at h
  · next found hf =>
    obtain ⟨hfind, hver⟩ := Option.filter_eq_some_iff.mp hf
    obtain ⟨hm, hh⟩ := find_mem hfind
    obtain ⟨newest, hn, hnh, hle⟩ := hv.begun found hm
    -- the prepared change of this hostname is not older, and the check excludes a newer one
    have hcur : find guest.prepared desired.hostname = some newest :=
      hh ▸ hnh ▸ hv.find_prepared hn
    simp only [decide_eq_true_eq] at hver
    have hsame : newest = desired := by
      by_contra hne
      refine hc ⟨newest, hcur, ?_⟩
      by_cases hgt : newest.version > desired.version
      · exact .inl hgt
      · exact .inr ⟨by omega, hne⟩
    exact hsame ▸ hn
  · simp only [bind_ok_iff, refuse_ok_iff, pure_ok_iff] at h
    obtain ⟨-, -, -, -, h⟩ := h
    cases h

/-- A recorded change keeps the guest's state consistent. -/
theorem record_valid {guest recorded : Guest} (hv : guest.Valid) {desired : GuestRoute}
    {retain : Nat} (h : prepare guest desired retain = .ok (.record recorded)) :
    recorded.Valid := by
  obtain ⟨-, hcur, rfl⟩ := prepare_record h
  refine ⟨fun route hr hput => ?_, fun r₁ h₁ r₂ h₂ heq => ?_, fun route hr => ?_⟩
  · rcases List.mem_append.mp hr with hr | hr
    · obtain ⟨hr, hne⟩ := mem_without.mp hr
      exact mem_retained.mpr (.inl ⟨hv.bound route hr hput, .inl hne⟩)
    · rw [List.mem_singleton] at hr
      exact mem_retained.mpr (.inr ⟨hr ▸ hput, hr⟩)
  · simp only [List.mem_append, mem_without, List.mem_singleton] at h₁ h₂
    rcases h₁ with ⟨h₁, hne₁⟩ | rfl <;> rcases h₂ with ⟨h₂, hne₂⟩ | rfl
    · exact hv.once r₁ h₁ r₂ h₂ heq
    · exact absurd heq hne₁
    · exact absurd heq.symm hne₂
    · rfl
  · obtain ⟨newest, hn, hnh, hle⟩ := hv.begun route hr
    by_cases hd : newest.hostname = desired.hostname
    · -- the hostname's prepared change is replaced by this one, which is not older
      refine ⟨desired, by simp, hd ▸ hnh, ?_⟩
      exact Nat.le_trans hle (hcur newest (hd ▸ hv.find_prepared hn))
    · exact ⟨newest, by simp [hn, hd], hnh, hle⟩

/-- **Everything a change can do.**  Either nothing is recorded, or the recorded state is the one
    `prepare` decided on; the rest of the command touches the Caddy files and the receipt only. -/
theorem command_change (cut : Cut) (guest : Guest) (desired : GuestRoute) (retain : Nat) :
    (command cut guest (.change desired retain)).2 = guest ∨
    ∃ recorded, prepare guest desired retain = .ok (.record recorded) ∧
      (command cut guest (.change desired retain)).2.bindings = recorded.bindings ∧
      (command cut guest (.change desired retain)).2.prepared = recorded.prepared ∧
      ((command cut guest (.change desired retain)).2.committed = recorded.committed ∨
        (command cut guest (.change desired retain)).2.committed =
          without guest.committed desired.hostname ++ [desired]) := by
  rw [command]
  split
  · exact .inl rfl
  · cases hp : prepare guest desired retain with
    | error fault => exact .inl rfl
    | ok plan =>
      cases plan with
      | committed route => left; dsimp only; split <;> rfl
      | record recorded => exact .inr ⟨recorded, rfl, by cases cut <;> simp⟩

theorem command_valid {guest : Guest} (hv : guest.Valid) (cut : Cut) (c : GuestCommand) :
    (command cut guest c).2.Valid := by
  cases c with
  | inspect hostname => rw [command]; split <;> exact hv
  | change desired retain =>
    rcases command_change cut guest desired retain with h | ⟨recorded, hp, hb, hpr, hc⟩
    · rwa [h]
    · have hr := record_valid hv hp
      refine ⟨by rw [hb, hpr]; exact hr.bound, by rw [hpr]; exact hr.once, ?_⟩
      rw [hpr]
      rcases hc with hc | hc <;> rw [hc]
      · exact hr.begun
      · obtain ⟨-, -, rfl⟩ := prepare_record hp
        intro route hm
        rcases List.mem_append.mp hm with hm | hm
        · exact hr.begun route (mem_without.mp hm).1
        · rw [List.mem_singleton] at hm
          exact ⟨desired, by simp, hm ▸ rfl, hm ▸ Nat.le_refl _⟩

/-- A change gives up a binding of its own hostname only, and only one below its retention or the
    very version it removes. -/
theorem command_holds {guest : Guest} {hostname : Hostname} {version : Nat}
    (hold : guest.Holds hostname version) (cut : Cut) (desired : GuestRoute) (retain : Nat) :
    (command cut guest (.change desired retain)).2.Holds hostname version ∨
    (desired.hostname = hostname ∧
      ((version < retain ∧ retain ≤ desired.version) ∨
        (desired.version = version ∧ desired.isPut = false))) := by
  obtain ⟨port, hm⟩ := hold
  rcases command_change cut guest desired retain with h | ⟨recorded, hp, hb, -, -⟩
  · exact .inl ⟨port, by rwa [h]⟩
  · obtain ⟨hle, -, rfl⟩ := prepare_record hp
    simp only at hb
    by_cases hh : desired.hostname = hostname
    · by_cases hlt : version < retain
      · exact .inr ⟨hh, .inl ⟨hlt, hle⟩⟩
      · by_cases hver : desired.version = version
        · cases desired with
          | put h v p =>
            simp only [GuestRoute.hostname, GuestRoute.version] at hh hver
            subst hh hver
            exact .inl ⟨p, by rw [hb]; exact mem_retained.mpr (.inr ⟨rfl, rfl⟩)⟩
          | remove h v => exact .inr ⟨hh, .inr ⟨hver, rfl⟩⟩
        · refine .inl ⟨port, ?_⟩
          rw [hb]
          exact mem_retained.mpr
            (.inl ⟨hm, .inr ⟨Nat.not_lt.mp hlt, fun he => hver he.symm⟩⟩)
    · refine .inl ⟨port, ?_⟩
      rw [hb]
      exact mem_retained.mpr (.inl ⟨hm, .inl fun he => hh he.symm⟩)

/-- An acknowledged `put` is bound. -/
theorem command_put {guest guest' : Guest} (hv : guest.Valid) {cut : Cut} {hostname : Hostname}
    {version port retain : Nat} {reply : Option GuestRoute}
    (h : command cut guest (.change (.put hostname version port) retain) = (.ok reply, guest')) :
    guest'.Holds hostname version := by
  rw [command] at h
  split at h
  · cases h
  · cases hp : prepare guest (.put hostname version port) retain with
    | error fault => rw [hp] at h; cases h
    | ok plan =>
      rw [hp] at h
      cases plan with
      | committed route =>
        have hbound := hv.bound _ (prepare_committed hv hp) rfl
        dsimp only at h
        split at h
        · cases h; exact ⟨port, hbound⟩
        · cases h
      | record recorded =>
        obtain ⟨-, -, rfl⟩ := prepare_record hp
        cases cut with
        | none =>
          cases h
          exact ⟨port, mem_retained.mpr (.inr ⟨rfl, rfl⟩)⟩
        | start | recorded | reloaded | installed => cases h

end Guest

end AgentCloud.Hosting
