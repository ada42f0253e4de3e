/-
  RUNS OF THE GUEST'S HOSTING COMMAND: any commands, in any order, cut short anywhere.

  An `Attempt` is a command, the point where it was cut short, and what Caddy runs if its reload
  failed: nobody knows, so any configuration.

  The invariant is `Behind`: whatever is bound or committed is older than the newest change of its
  hostname, or is that change.  It is why a change never drops the binding of its own version, and
  with `command_change` it gives everything `commands_keep` says.

  A repeated command answers without a reload.  So after another hostname's reload failed, its
  success does not mean that every recorded binding is being served (`Demo.served_in_part`).
-/
import AgentCloud.Hosting.Guest

namespace AgentCloud.Hosting.Guest

open Checked

/-! ## Attempts -/

structure Attempt where
  command : GuestCommand
  cut : Cut
  /-- What Caddy runs if the reload failed. -/
  left : List GuestRoute
  deriving DecidableEq, Repr

/-- The configuration that a command gives to Caddy, if it gets that far. -/
def candidate? (guest : Guest) : GuestCommand → Option (List GuestRoute)
  | .inspect _ => none
  | .change desired retainFromVersion =>
    match prepare guest desired retainFromVersion with
    | .ok (.record recorded) => some (recorded.bindings.filter (·.isPut))
    | _ => none

/-- A command that was cut short after recording the bindings may have failed to reload them. -/
def attempt (guest : Guest) (a : Attempt) : Except Fault (Option GuestRoute) × Guest :=
  let result := command a.cut guest a.command
  if a.cut = .recorded ∧ (candidate? guest a.command).isSome then
    (result.1, { result.2 with running := a.left })
  else result

/-- The guest after a sequence of attempts. -/
def after (guest : Guest) (attempts : List Attempt) : Guest :=
  attempts.foldl (fun guest a => (attempt guest a).2) guest

/-- The configuration that an attempt may have loaded. -/
def loads (guest : Guest) (a : Attempt) : Option (List GuestRoute) :=
  if a.cut = .start then none else candidate? guest a.command

/-- The hostname and the retention of a change that was recorded. -/
def accepts (guest : Guest) (a : Attempt) : Option (Hostname × Nat) :=
  match a.command with
  | .inspect _ => none
  | .change desired retainFromVersion =>
    if (loads guest a).isSome then some (desired.hostname, retainFromVersion) else none

/-- Every configuration that a sequence of attempts may have loaded. -/
def loaded : Guest → List Attempt → List (List GuestRoute)
  | _, [] => []
  | guest, a :: attempts => (loads guest a).toList ++ loaded (attempt guest a).2 attempts

/-- Every retention that a sequence of attempts accepted. -/
def accepted : Guest → List Attempt → List (Hostname × Nat)
  | _, [] => []
  | guest, a :: attempts => (accepts guest a).toList ++ accepted (attempt guest a).2 attempts

/-! ## What an attempt does to the files -/

variable {guest recorded : Guest} {desired route : GuestRoute} {retain : Nat} {a : Attempt}

/-- The files are as after the command itself. -/
theorem attempt_files :
    (attempt guest a).2.prepared = (command a.cut guest a.command).2.prepared ∧
      (attempt guest a).2.committed = (command a.cut guest a.command).2.committed ∧
      (attempt guest a).2.bindings = (command a.cut guest a.command).2.bindings := by
  rw [attempt]
  dsimp only
  split <;> exact ⟨rfl, rfl, rfl⟩

theorem candidate?_record (h : prepare guest desired retain = .ok (.record recorded)) :
    candidate? guest (.change desired retain) = some (recorded.bindings.filter (·.isPut)) := by
  rw [candidate?, h]

/-- Without a candidate nothing changes. -/
theorem command_quiet {cut : Cut} {c : GuestCommand} (h : candidate? guest c = none) :
    (command cut guest c).2 = guest := by
  cases c with
  | inspect hostname =>
    rw [command]
    split <;> rfl
  | change desired retain =>
    rw [command]
    split
    · rfl
    · cases hp : prepare guest desired retain with
      | error fault => rfl
      | ok plan =>
        cases plan with
        | committed route =>
          dsimp only
          split <;> rfl
        | record recorded =>
          rw [candidate?_record hp] at h
          cases h

theorem attempt_quiet (h : loads guest a = none) : (attempt guest a).2 = guest := by
  rw [loads] at h
  rw [attempt]
  dsimp only
  split at h
  · next hstart =>
    rw [if_neg (by rw [hstart]; simp), hstart]
    cases a.command with
    | inspect hostname => rfl
    | change desired retain => rfl
  · rw [h, if_neg (by simp)]
    exact command_quiet h

/-- **Everything an attempt can do.**  Nothing, or it is a change that was recorded. -/
theorem attempt_cases (guest : Guest) (a : Attempt) :
    (loads guest a = none ∧ accepts guest a = none ∧ (attempt guest a).2 = guest) ∨
    ∃ desired retain recorded, a.command = .change desired retain ∧
      prepare guest desired retain = .ok (.record recorded) ∧
      loads guest a = some (recorded.bindings.filter (·.isPut)) ∧
      accepts guest a = some (desired.hostname, retain) ∧
      (attempt guest a).2.bindings = recorded.bindings ∧
      (attempt guest a).2.prepared = recorded.prepared ∧
      ((attempt guest a).2.committed = guest.committed ∨
        (attempt guest a).2.committed = without guest.committed desired.hostname ++ [desired]) := by
  cases hloads : loads guest a with
  | none =>
    refine .inl ⟨rfl, ?_, attempt_quiet hloads⟩
    rw [accepts]
    split
    · rfl
    · rw [hloads]
      rfl
  | some config =>
    obtain ⟨hprepared, hcommitted, hbindings⟩ := @attempt_files guest a
    have hcandidate : a.cut ≠ .start ∧ candidate? guest a.command = some config := by
      rw [loads] at hloads
      split at hloads
      · cases hloads
      · next hstart => exact ⟨hstart, hloads⟩
    cases hc : a.command with
    | inspect hostname =>
      rw [hc] at hcandidate
      cases hcandidate.2
    | change desired retain =>
      rw [hc] at hcandidate hprepared hcommitted hbindings
      cases hp : prepare guest desired retain with
      | error fault =>
        rw [candidate?, hp] at hcandidate
        cases hcandidate.2
      | ok plan =>
        cases plan with
        | committed route =>
          rw [candidate?, hp] at hcandidate
          cases hcandidate.2
        | record recorded =>
          have hconfig : config = recorded.bindings.filter (·.isPut) := by
            rw [candidate?_record hp] at hcandidate
            exact (Option.some.inj hcandidate.2).symm
          have hrecorded : recorded.committed = guest.committed := by
            obtain ⟨-, -, rfl⟩ := prepare_record hp
            rfl
          refine .inr ⟨desired, retain, recorded, rfl, hp, by rw [hconfig], ?_, ?_, ?_, ?_⟩
          · rw [accepts, hc]
            simp [hloads]
          all_goals
            rw [command, if_neg hcandidate.1, hp] at hprepared hcommitted hbindings
            dsimp only at hprepared hcommitted hbindings
          · rw [hbindings]
            cases a.cut <;> rfl
          · rw [hprepared]
            cases a.cut <;> rfl
          · rw [hcommitted]
            cases a.cut
            case none => exact .inr rfl
            all_goals exact .inl hrecorded

/-! ## The invariant -/

/-- Older than the newest change of its hostname, or that change. -/
def Behind (guest : Guest) (route : GuestRoute) : Prop :=
  ∃ newest ∈ guest.prepared, newest.hostname = route.hostname ∧
    (route.version < newest.version ∨ route = newest)

structure Sound (guest : Guest) : Prop where
  valid : guest.Valid
  puts : ∀ route ∈ guest.bindings, route.isPut = true
  bindings : ∀ route ∈ guest.bindings, guest.Behind route
  committed : ∀ route ∈ guest.committed, guest.Behind route

theorem empty_sound : Sound empty where
  valid := empty_valid
  puts _ h := by cases h
  bindings _ h := by cases h
  committed _ h := by cases h

/-- A change that was recorded is newer than what was prepared, or the same. -/
theorem prepare_newer (h : prepare guest desired retain = .ok (.record recorded))
    (hroute : find guest.prepared desired.hostname = some route) :
    route.version < desired.version ∨ route = desired := by
  obtain ⟨-, hle, -⟩ := prepare_record h
  simp only [prepare, bind_ok_iff, refuse_ok_iff] at h
  obtain ⟨-, -, -, hconflict, -⟩ := h
  by_cases hsame : route = desired
  · exact .inr hsame
  · refine .inl (Nat.lt_of_le_of_ne (hle route hroute) fun heq => hconflict ?_)
    exact ⟨route, hroute, .inr ⟨heq, hsame⟩⟩

/-- What is behind stays behind. -/
theorem Behind.record (hv : guest.Valid)
    (h : prepare guest desired retain = .ok (.record recorded)) (hb : guest.Behind route) :
    recorded.Behind route := by
  obtain ⟨newest, hn, hname, hage⟩ := hb
  obtain ⟨-, -, rfl⟩ := prepare_record h
  by_cases hd : newest.hostname = desired.hostname
  · have hnewer := prepare_newer h (hd ▸ hv.find_prepared hn)
    refine ⟨desired, by simp, hd ▸ hname, ?_⟩
    rcases hnewer with hlt | rfl
    · rcases hage with hage | rfl
      · exact .inl (Nat.lt_trans hage hlt)
      · exact .inl hlt
    · exact hage
  · exact ⟨newest, by simp [hn, hd], hname, hage⟩

theorem Behind.of_prepared {guest' : Guest} (hb : guest.Behind route)
    (h : guest'.prepared = guest.prepared) : guest'.Behind route := by
  unfold Behind
  rw [h]
  exact hb

/-- **Step lemma.** -/
theorem attempt_sound (hs : guest.Sound) (a : Attempt) : (attempt guest a).2.Sound := by
  rcases attempt_cases guest a with ⟨-, -, hsame⟩ |
    ⟨desired, retain, recorded, hc, hp, -, -, hbindings, hprepared, hcommitted⟩
  · rw [hsame]
    exact hs
  have hbehind : ∀ {route}, guest.Behind route → (attempt guest a).2.Behind route :=
    fun hb => (hb.record hs.valid hp).of_prepared hprepared
  have hown : (attempt guest a).2.Behind desired := by
    have hnewest : recorded.Behind desired := by
      obtain ⟨-, -, rfl⟩ := prepare_record hp
      exact ⟨desired, by simp, rfl, .inr rfl⟩
    exact hnewest.of_prepared hprepared
  have hvalid : (attempt guest a).2.Valid := by
    have hrecorded := record_valid hs.valid hp
    refine ⟨?_, ?_, fun route hr => ?_⟩
    · rw [hbindings, hprepared]
      exact hrecorded.bound
    · rw [hprepared]
      exact hrecorded.once
    · have hb : (attempt guest a).2.Behind route := by
        rcases hcommitted with heq | heq
        · rw [heq] at hr
          exact hbehind (hs.committed route hr)
        · rw [heq] at hr
          rcases List.mem_append.mp hr with hr | hr
          · exact hbehind (hs.committed route (mem_without.mp hr).1)
          · rw [List.mem_singleton.mp hr]
            exact hown
      obtain ⟨newest, hn, hname, hage⟩ := hb
      refine ⟨newest, hn, hname, ?_⟩
      rcases hage with hlt | rfl
      · exact Nat.le_of_lt hlt
      · exact Nat.le_refl _
  refine ⟨hvalid, fun route hr => ?_, fun route hr => ?_, fun route hr => ?_⟩
  · rw [hbindings] at hr
    obtain ⟨-, -, rfl⟩ := prepare_record hp
    rcases mem_retained.mp hr with ⟨hr, -⟩ | ⟨hput, rfl⟩
    · exact hs.puts route hr
    · exact hput
  · rw [hbindings] at hr
    have hr' := hr
    obtain ⟨-, -, rfl⟩ := prepare_record hp
    rcases mem_retained.mp hr' with ⟨hold, -⟩ | ⟨-, rfl⟩
    · exact hbehind (hs.bindings route hold)
    · exact hown
  · rcases hcommitted with heq | heq
    · rw [heq] at hr
      exact hbehind (hs.committed route hr)
    · rw [heq] at hr
      rcases List.mem_append.mp hr with hr | hr
      · exact hbehind (hs.committed route (mem_without.mp hr).1)
      · rw [List.mem_singleton.mp hr]
        exact hown

/-- **Run lemma.** -/
theorem after_sound (hs : guest.Sound) (attempts : List Attempt) :
    (after guest attempts).Sound := by
  induction attempts generalizing guest with
  | nil => exact hs
  | cons a attempts ih => exact ih (attempt_sound hs a)

/-! ## Versions -/

/-- The newest version begun for a hostname only grows. -/
theorem attempt_prepared (hs : guest.Sound) (a : Attempt) (hr : route ∈ guest.prepared) :
    ∃ newer ∈ (attempt guest a).2.prepared, newer.hostname = route.hostname ∧
      route.version ≤ newer.version := by
  rcases attempt_cases guest a with ⟨-, -, hsame⟩ |
    ⟨desired, retain, recorded, hc, hp, -, -, -, hprepared, -⟩
  · rw [hsame]
    exact ⟨route, hr, rfl, Nat.le_refl _⟩
  · have hb : guest.Behind route := ⟨route, hr, rfl, .inr rfl⟩
    obtain ⟨newer, hn, hname, hage⟩ := (hb.record hs.valid hp).of_prepared hprepared
    refine ⟨newer, hn, hname, ?_⟩
    rcases hage with hlt | rfl
    · exact Nat.le_of_lt hlt
    · exact Nat.le_refl _

theorem after_prepared (hs : guest.Sound) (attempts : List Attempt) (hr : route ∈ guest.prepared) :
    ∃ newer ∈ (after guest attempts).prepared, newer.hostname = route.hostname ∧
      route.version ≤ newer.version := by
  induction attempts generalizing guest route with
  | nil => exact ⟨route, hr, rfl, Nat.le_refl _⟩
  | cons a attempts ih =>
    obtain ⟨newer, hn, hname, hle⟩ := attempt_prepared hs a hr
    obtain ⟨newest, hnewest, hname', hle'⟩ := ih (attempt_sound hs a) hn
    exact ⟨newest, hnewest, hname'.trans hname, Nat.le_trans hle hle'⟩

/-- A stale change, or another of the same version. -/
def Stale (guest : Guest) (desired : GuestRoute) : Prop :=
  ∃ route, find guest.prepared desired.hostname = some route ∧
    (route.version > desired.version ∨ (route.version = desired.version ∧ route ≠ desired))

theorem attempt_stale (h : guest.Stale desired) (hc : a.command = .change desired retain) :
    ∃ fault, attempt guest a = (.error fault, guest) := by
  obtain ⟨route, hroute, hstale⟩ := h
  have hp : ∃ fault, prepare guest desired retain = .error fault := by
    have hconflict : ∃ route ∈ find guest.prepared desired.hostname,
        route.version > desired.version ∨ (route.version = desired.version ∧ route ≠ desired) :=
      ⟨route, hroute, hstale⟩
    by_cases hretain : retain > desired.version
    · exact ⟨_, by simp only [prepare, refuse, if_pos hretain]; rfl⟩
    · exact ⟨_, by simp only [prepare, refuse, if_neg hretain, if_pos hconflict]; rfl⟩
  obtain ⟨fault, hp⟩ := hp
  rw [attempt, hc]
  dsimp only
  rw [if_neg (by rw [candidate?, hp]; simp), command]
  split
  · exact ⟨_, rfl⟩
  · rw [hp]
    exact ⟨_, rfl⟩

/-- A committed change that is not superseded answers at once. -/
theorem attempt_repeated (hs : guest.Sound)
    (hcommitted : find guest.committed desired.hostname = some desired)
    (hnewest : ∀ newest, find guest.prepared desired.hostname = some newest →
      newest.version ≤ desired.version)
    (hretain : retain ≤ desired.version) (hc : a.command = .change desired retain)
    (hcut : a.cut = .none) : attempt guest a = (.ok (some desired), guest) := by
  obtain ⟨newest, hn, hname, hage⟩ := hs.committed desired (find_mem hcommitted).1
  have hfind : find guest.prepared desired.hostname = some newest :=
    hname ▸ hs.valid.find_prepared hn
  have hsame : desired = newest := by
    rcases hage with hlt | heq
    · exact absurd (hnewest newest hfind) (by omega)
    · exact heq
  have hp : prepare guest desired retain = .ok (.committed desired) := by
    have hpass : ¬∃ route ∈ find guest.prepared desired.hostname,
        route.version > desired.version ∨ (route.version = desired.version ∧ route ≠ desired) := by
      rintro ⟨route, hroute, hbad⟩
      rw [hfind] at hroute
      obtain rfl := Option.some.inj hroute
      rw [← hsame] at hbad
      rcases hbad with hbad | hbad
      · omega
      · exact hbad.2 rfl
    have hkept : ¬retain > desired.version := by omega
    simp only [prepare, refuse, if_neg hkept, if_neg hpass, hcommitted]
    simp [Option.filter, bind, Except.bind, pure, Except.pure]
  rw [attempt, hc, hcut]
  dsimp only
  rw [if_neg (by simp), command, if_neg (by simp), hp]
  rfl

/-! ## Bindings -/

/-- A binding that the retention leaves is left. -/
theorem retained_of_behind (hs : guest.Sound)
    (hp : prepare guest desired retain = .ok (.record recorded)) (hr : route ∈ guest.bindings)
    (hretain : desired.hostname = route.hostname → retain ≤ route.version) :
    route ∈ recorded.bindings := by
  have hput := hs.puts route hr
  obtain ⟨newest, hn, hname, hage⟩ := hs.bindings route hr
  have hnewer : desired.hostname = newest.hostname →
      newest.version < desired.version ∨ newest = desired := fun hd =>
    prepare_newer hp (hd ▸ hs.valid.find_prepared hn)
  obtain ⟨-, -, rfl⟩ := prepare_record hp
  refine mem_retained.mpr ?_
  by_cases hd : route.hostname = desired.hostname
  · by_cases hversion : route.version = desired.version
    · -- the binding is the newest change, which is the one that is recorded again
      have hsame : route = desired := by
        rcases hnewer (hd.symm.trans hname.symm) with hlt | rfl
        · rcases hage with hage | rfl <;> omega
        · rcases hage with hage | heq
          · omega
          · exact heq
      exact .inr ⟨hsame ▸ hput, hsame⟩
    · exact .inl ⟨hr, .inr ⟨hretain hd.symm, hversion⟩⟩
  · exact .inl ⟨hr, .inl hd⟩

/-- A binding at or above the retentions accepted from some point on stays, and is in every
    configuration loaded from there on. -/
theorem after_binding (hs : guest.Sound) (attempts : List Attempt) (hr : route ∈ guest.bindings)
    (hretain : ∀ entry ∈ accepted guest attempts, entry.1 = route.hostname →
      entry.2 ≤ route.version) :
    route ∈ (after guest attempts).bindings ∧ ∀ config ∈ loaded guest attempts, route ∈ config := by
  induction attempts generalizing guest with
  | nil => exact ⟨hr, fun _ h => by cases h⟩
  | cons a attempts ih =>
    have hrest : ∀ entry ∈ accepted (attempt guest a).2 attempts, entry.1 = route.hostname →
        entry.2 ≤ route.version :=
      fun entry he => hretain entry (List.mem_append_right _ he)
    rcases attempt_cases guest a with ⟨hloads, -, hsame⟩ |
      ⟨desired, retain, recorded, hc, hp, hloads, haccepts, hbindings, -, -⟩
    · obtain ⟨hstay, hall⟩ := ih (attempt_sound hs a) (by rw [hsame]; exact hr) hrest
      refine ⟨hstay, fun config hconfig => hall config ?_⟩
      rw [loaded, hloads] at hconfig
      exact hconfig
    · have hmem : route ∈ recorded.bindings := by
        refine retained_of_behind hs hp hr fun hd => ?_
        refine hretain (desired.hostname, retain) ?_ hd
        rw [accepted, haccepts]
        simp
      obtain ⟨hstay, hall⟩ := ih (attempt_sound hs a) (by rw [hbindings]; exact hmem) hrest
      refine ⟨hstay, fun config hconfig => ?_⟩
      rw [loaded, hloads] at hconfig
      rcases List.mem_append.mp hconfig with hown | hlater
      · rw [Option.toList_some, List.mem_singleton] at hown
        rw [hown, List.mem_filter]
        exact ⟨hmem, hs.puts route hr⟩
      · exact hall config hlater

/-- A binding is in the configuration of the very attempt that records it. -/
theorem loads_binding {config : List GuestRoute} (hs : guest.Sound)
    (hr : route ∈ (attempt guest a).2.bindings) (hloads : loads guest a = some config) :
    route ∈ config := by
  have hput := (attempt_sound hs a).puts route hr
  rcases attempt_cases guest a with ⟨hnone, -, -⟩ |
    ⟨desired, retain, recorded, hc, hp, hsome, -, hbindings, -, -⟩
  · rw [hnone] at hloads
    cases hloads
  · rw [hsome] at hloads
    rw [← Option.some.inj hloads, List.mem_filter]
    rw [hbindings] at hr
    exact ⟨hr, hput⟩

/-- A command that reloads and succeeds leaves Caddy with exactly the recorded bindings. -/
theorem attempt_served {reply : Option GuestRoute} (h : (attempt guest a).1 = .ok reply)
    (hloads : (loads guest a).isSome) :
    (attempt guest a).2.running = (attempt guest a).2.bindings.filter (·.isPut) := by
  rcases attempt_cases guest a with ⟨hnone, -, -⟩ |
    ⟨desired, retain, recorded, hc, hp, -, -, -, -, -⟩
  · rw [hnone] at hloads
    cases hloads
  · rw [attempt, hc] at h ⊢
    dsimp only at h ⊢
    split
    · next hcut =>
      rw [if_pos hcut, command, hp, hcut.1] at h
      cases h
    · next hcut =>
      rw [if_neg hcut, command] at h
      rw [command]
      split at h
      · cases h
      · next hstart =>
        rw [hp] at h
        rw [if_neg hstart, hp]
        cases hcut' : a.cut with
        | none => rfl
        | start => exact absurd hcut' hstart
        | recorded => simp [hcut'] at h
        | reloaded => simp [hcut'] at h
        | installed => simp [hcut'] at h

/-! ## The command over whole runs -/

/-- What holds of a guest that has been given any attempts, and of any that follow. -/
structure CommandKeeps (guest : Guest) (attempts : List Attempt) : Prop where
  /-- The version prepared for a hostname never decreases. -/
  grows : ∀ hostname route, find guest.prepared hostname = some route →
    ∃ newer, find (after guest attempts).prepared hostname = some newer ∧
      route.version ≤ newer.version
  /-- The version committed for a hostname is at most the prepared one. -/
  committed : ∀ hostname route, find guest.committed hostname = some route →
    ∃ newest, find guest.prepared hostname = some newest ∧ route.version ≤ newest.version
  /-- A stale version, or the same version with other content, is refused and changes nothing. -/
  stale : ∀ a desired retain, a.command = .change desired retain → guest.Stale desired →
    ∃ fault, attempt guest a = (.error fault, guest)
  /-- A committed command repeated returns its route, unless a newer version is prepared. -/
  repeated : ∀ a desired retain, a.command = .change desired retain → a.cut = .none →
    find guest.committed desired.hostname = some desired → retain ≤ desired.version →
    (∀ newest, find guest.prepared desired.hostname = some newest →
      newest.version ≤ desired.version) →
    attempt guest a = (.ok (some desired), guest)
  /-- A recorded binding at or above the retentions accepted since stays recorded, and is in every
      configuration loaded since. -/
  retained : ∀ route ∈ guest.bindings,
    (∀ entry ∈ accepted guest attempts, entry.1 = route.hostname → entry.2 ≤ route.version) →
    route ∈ (after guest attempts).bindings ∧ ∀ config ∈ loaded guest attempts, route ∈ config
  /-- A binding is in the configuration that the attempt which records it loads. -/
  recorded : ∀ a route config, route ∈ (attempt guest a).2.bindings →
    loads guest a = some config → route ∈ config
  /-- After a command that reloaded and succeeded, exactly the recorded puts are served. -/
  served : ∀ a reply, (attempt guest a).1 = .ok reply → (loads guest a).isSome →
    (attempt guest a).2.running = (attempt guest a).2.bindings.filter (·.isPut)

/-- **The hosting command**, in any sequence of commands, duplicates, old versions, failures and
    crashes. -/
theorem commands_keep (before attempts : List Attempt) :
    CommandKeeps (after empty before) attempts := by
  have hs := after_sound empty_sound before
  generalize after empty before = guest at hs
  refine ⟨fun hostname route hroute => ?_, fun hostname route hroute => ?_,
    fun a desired retain hc h => attempt_stale h hc,
    fun a desired retain hc hcut hcommitted hretain hnewest =>
      attempt_repeated hs hcommitted hnewest hretain hc hcut,
    fun route hr hretain => after_binding hs attempts hr hretain,
    fun a route config hr hloads => loads_binding hs hr hloads,
    fun a reply h hloads => attempt_served h hloads⟩
  · obtain ⟨hmem, rfl⟩ := find_mem hroute
    obtain ⟨newer, hn, hname, hle⟩ := after_prepared hs attempts hmem
    have hfind := (after_sound hs attempts).valid.find_prepared hn
    rw [hname] at hfind
    exact ⟨newer, hfind, hle⟩
  · obtain ⟨hmem, rfl⟩ := find_mem hroute
    obtain ⟨newest, hn, hname, hle⟩ := hs.valid.begun route hmem
    have hfind := hs.valid.find_prepared hn
    rw [hname] at hfind
    exact ⟨newest, hfind, hle⟩

namespace Demo

/-- A name is routed; another one's reload fails; the first command is repeated. -/
def failing : List Attempt :=
  [⟨.change (.put "a.example" 1 3000) 1, .none, []⟩,
   ⟨.change (.put "b.example" 1 4000) 1, .recorded, [.put "a.example" 1 3000]⟩]

def repeated : Attempt := ⟨.change (.put "a.example" 1 3000) 1, .none, []⟩

/-- The repeated command succeeds while a recorded binding is not being served. -/
theorem served_in_part :
    ¬∀ (before : List Attempt) (a : Attempt) (reply : Option GuestRoute),
      (attempt (after empty before) a).1 = .ok reply →
      (attempt (after empty before) a).2.running =
        (attempt (after empty before) a).2.bindings.filter (·.isPut) := by
  intro h
  exact absurd (h failing repeated (some (.put "a.example" 1 3000)) rfl) (by decide)

end Demo

end AgentCloud.Hosting.Guest
