/-
  THE VERSIONS OF A HOSTNAME, over every interleaving of the protocol.

  `RowStep` says what one step can do to the row of one hostname: nothing, the admission of a
  command, an attempt claimed, a version blocked, a version applied, or an acknowledgement.  Every
  fact about versions, attempts and owners is read off its six cases.

  The attempts of a version are counted from behind: `remaining` is how many may still be claimed,
  and each claim lowers it.
-/
import AgentCloud.Hosting.Removal

namespace AgentCloud.Hosting

open Checked

variable {config : Config} {s t : State} {e : Event} {h : Hostname}

/-! ## Mutations -/

/-- What a first reservation rests on: a name of the application domain, or a verified challenge
    that has not expired. -/
def Reserves (config : Config) (env : Surroundings) (accountId : AccountId) (h : Hostname)
    (command : RouteCommand) : Prop :=
  ∃ request, command = .publish request ∧
    ((∃ name, request.destination = .generated name ∧
        h = publishHostname config request.machineId (.generated name)) ∨
      ∃ challengeId authority challenge, request.destination = .custom h challengeId ∧
        env.authority = .ok authority ∧ challenge ∈ env.challenges ∧
        challenge.id = challengeId ∧ challenge.accountId = accountId ∧ challenge.hostname = h ∧
        challenge.verifiedAt ≠ none ∧ authority.checkedAt < challenge.expiresAt)

/-- An admitted command, with the owner and the acknowledgements it leaves. -/
structure Written (config : Config) (env : Surroundings) (principal : Principal)
    (command : RouteCommand) (store after : Store) : Prop where
  fresh : store.receipt command.commandId = none
  receipt : ∃ receipt, after.commands = store.commands ++ [receipt] ∧
    receipt.id = command.commandId ∧ receipt.hostname = commandHostname config command
  other : ∀ h, h ≠ commandHostname config command → after.route h = store.route h
  owned : ∀ row, store.route (commandHostname config command) = some row →
    row.accountId = principal.accountId
  expected : (store.route (commandHostname config command)).map (·.record.version) =
    command.expectedVersion
  row : ∃ row, after.route (commandHostname config command) = some row ∧
    row.accountId = principal.accountId ∧
    row.record.version =
      ((store.route (commandHostname config command)).map (·.record.version)).getD 0 + 1 ∧
    row.record.appliedVersion =
      (store.route (commandHostname config command)).bind (·.record.appliedVersion) ∧
    row.record.gatewayAppliedVersion =
      (store.route (commandHostname config command)).bind (·.record.gatewayAppliedVersion) ∧
    row.record.application = .pending 0
  reserves : store.route (commandHostname config command) = none →
    Reserves config env principal.accountId (commandHostname config command) command

theorem putRoute_account {store : Store} {route : Route}
    (howned : ∀ row, store.route route.hostname = some row → row.accountId = route.accountId) :
    ∃ row, (putRoute store route).route route.hostname = some row ∧
      row.accountId = route.accountId ∧ row.record = route := by
  unfold putRoute
  split
  · next old hold =>
    rw [updateRoute_route, if_pos rfl, hold]
    · exact ⟨_, rfl, howned old hold, rfl⟩
    · exact fun _ => rfl
  · next hnone =>
    simp only [Store.route] at hnone
    exact ⟨⟨route.hostname, route.accountId, route.projectId, route.machineId, route, none⟩,
      by simp [Store.route, hnone], rfl, rfl⟩

/-- Only a publication can be the first command of a hostname, and a custom name needs its claim. -/
theorem reserves_of_first {env : Surroundings} {store : Store} {principal : Principal}
    {authority : Authority} {command : RouteCommand} {hostname : Hostname}
    {destination : Option Destination} (hauth : env.authority = .ok authority)
    (hdest : commandDestination config env store principal authority command =
      .ok (hostname, destination))
    (hchosen : ∃ chosen, chosenDestination destination none = some chosen)
    (hmove : command.isMove = false) :
    Reserves config env principal.accountId hostname command := by
  cases command with
  | remove name request =>
    simp only [commandDestination, pure_ok_iff, Prod.mk.injEq] at hdest
    obtain ⟨-, rfl⟩ := hdest
    obtain ⟨chosen, hchosen⟩ := hchosen
    cases hchosen
  | publish request =>
    refine ⟨request, rfl, ?_⟩
    simp only [commandDestination, publishDestination, bind_ok_iff, refuse_ok_iff, present_ok_iff,
      pure_ok_iff] at hdest
    obtain ⟨_, ⟨machine, -, -, -, -, -, allocationId, -, -, -, -, -, _, hassert, rfl⟩, hpair⟩ := hdest
    obtain ⟨rfl, -⟩ := Prod.mk.inj hpair
    cases hkind : request.destination with
    | generated name => exact .inl ⟨name, rfl, rfl⟩
    | existing name => simp [RouteCommand.isMove, hkind] at hmove
    | custom name challengeId =>
      rw [hkind] at hassert
      obtain ⟨_, -, hheld⟩ := bind_ok_iff.mp hassert
      simp only [refuse_ok_iff, not_or, not_exists, not_and] at hheld
      obtain ⟨hsome, hfresh⟩ := hheld
      obtain ⟨challenge, hfind⟩ := Option.ne_none_iff_exists'.mp hsome
      have hmatch := List.find?_some hfind
      simp only [decide_eq_true_eq] at hmatch
      obtain ⟨hid, haccount, hname⟩ := hmatch
      have hvalid := hfresh challenge hfind
      refine .inr ⟨challengeId, authority, challenge, ?_, hauth, List.mem_of_find?_eq_some hfind, hid,
        haccount, ?_, hvalid.1, Nat.lt_of_not_le hvalid.2⟩
      · simp [publishHostname]
      · exact hname

theorem mutate_written {env : Surroundings} {principal : Principal} {command : RouteCommand}
    {store after : Store} {route : Route}
    (hm : mutate config env principal command store = .ok (route, after)) :
    after = store ∨ Written config env principal command store after := by
  simp only [mutate, bind_ok_iff, refuse_ok_iff] at hm
  obtain ⟨_, hexplicit, authority, hauth, hm⟩ := hm
  split at hm
  · left
    simp only [bind_ok_iff, pure_ok_iff, Prod.mk.injEq] at hm
    obtain ⟨_, -, -, rfl⟩ := hm
    rfl
  · rename_i hfresh
    right
    simp only [admitCommand, bind_ok_iff, refuse_ok_iff, present_ok_iff, pure_ok_iff,
      Prod.mk.injEq] at hm
    obtain ⟨⟨hostname, destination⟩, hdest, previous, hprev, chosen, hchosen, -, -, -, -, parsed,
      hparsed, rfl, rfl⟩ := hm
    obtain ⟨rfl, -⟩ := routeSchema_ok hparsed
    obtain ⟨rfl, -⟩ := commandDestination_ok hdest
    obtain ⟨hrecord, hversion⟩ := previousRoute_ok hprev
    simp only [previousRoute, bind_ok_iff, refuse_ok_iff, pure_ok_iff, not_exists, not_and,
      not_not] at hprev
    obtain ⟨_, howner, _, _, _, hmoved, _, _, _, _, rfl⟩ := hprev
    subst hrecord
    have howned : ∀ row, store.route (commandHostname config command) = some row →
        row.accountId = principal.accountId := fun row hrow => howner row hrow
    obtain ⟨row, hrow, haccount, hput⟩ := @putRoute_account store
      (nextRoute principal authority command (commandHostname config command) chosen
        ((store.route (commandHostname config command)).map (·.record))) howned
    refine ⟨hfresh, ⟨_, congrArg (· ++ _) putRoute_commands, rfl, rfl⟩,
      fun h hne => putRoute_other hne, howned, ?_, ⟨row, hrow, haccount, ?_, ?_, ?_, ?_⟩, ?_⟩
    · rw [← hversion, Option.map_map]
      rfl
    · rw [hput, nextRoute, Option.map_map]
      rfl
    · rw [hput]
      cases store.route (commandHostname config command) <;> rfl
    · rw [hput]
      cases store.route (commandHostname config command) <;> rfl
    · rw [hput]
      rfl
    · intro hnone
      rw [hnone] at hchosen hmoved
      refine reserves_of_first hauth hdest ⟨chosen, hchosen⟩ ?_
      simpa using hmoved

/-! ## One step, one hostname -/

/-- The attempt that an event starts: its hostname and version. -/
def started (s : State) : Event → Option (Hostname × Nat)
  | .claim hostname =>
    match advanceClaim hostname s.store with
    | .ok (some route, _) => some (hostname, route.version)
    | _ => none
  | _ => none

/-- What a step can do to the row of a hostname. -/
inductive RowStep (config : Config) (s : State) (e : Event) (h : Hostname) :
    Option RouteRow → Option RouteRow → Prop where
  | same (row : Option RouteRow) (idle : ∀ v, started s e ≠ some (h, v)) : RowStep config s e h row row
  | written (env : Surroundings) (principal : Principal) (command : RouteCommand) (after : Store)
      (event : e = .mutate env principal command)
      (written : Written config env principal command s.store after)
      (name : h = commandHostname config command) :
      RowStep config s e h (s.store.route h) (after.route h)
  | claimed (row : RouteRow) (attempts : Nat) (pending : row.record.application = .pending attempts)
      (few : attempts < 5) (event : started s e = some (h, row.record.version)) :
      RowStep config s e h (some row)
        (some { row with record := { row.record with application := .pending (attempts + 1) } })
  | blocked (row : RouteRow) (idle : ∀ v, started s e ≠ some (h, v)) :
      RowStep config s e h (some row)
        (some { row with record := { row.record with application := .blocked } })
  | recorded (route : Route) (target : Option Target) (row : RouteRow)
      (newest : row.record.version = route.version) (idle : ∀ v, started s e ≠ some (h, v)) :
      RowStep config s e h (some row) (some (Hosting.recorded route target row))
  | passed (row : RouteRow) (version : Nat)
      (raised : row.record.gatewayAppliedVersion.getD 0 < version)
      (pending : s.Pending h version) (idle : ∀ v, started s e ≠ some (h, v)) :
      RowStep config s e h (some row)
        (some { row with record := { row.record with gatewayAppliedVersion := some version } })

/-- A claim is one attempt, or blocks a version that has used all of them. -/
theorem advanceClaim_row {hostname : Hostname} {store after : Store} {claimed : Option Route}
    (hc : advanceClaim hostname store = .ok (claimed, after)) :
    (claimed = none ∧ after = store) ∨
    ∃ row, store.route hostname = some row ∧
      ((claimed = none ∧ after = store.setRecord hostname { row.record with application := .blocked }) ∨
        ∃ attempts, row.record.application = .pending attempts ∧ attempts < 5 ∧
          claimed = some { row.record with application := .pending (attempts + 1) } ∧
          after = store.setRecord hostname
            { row.record with application := .pending (attempts + 1) }) := by
  rw [advanceClaim] at hc
  split at hc
  · simp only [pure_ok_iff, Prod.mk.injEq] at hc
    exact .inl ⟨hc.1.symm, hc.2.symm⟩
  · next row hrow =>
    simp only [bind_ok_iff] at hc
    obtain ⟨current, hcur, hc⟩ := hc
    obtain ⟨rfl, -, -⟩ := routeRecord_ok hcur
    split at hc
    · next attempts hpending =>
      split at hc
      · simp only [pure_ok_iff, Prod.mk.injEq] at hc
        obtain ⟨rfl, rfl⟩ := hc
        exact .inr ⟨row, hrow, .inl ⟨rfl, rfl⟩⟩
      · next hfew =>
        simp only [bind_ok_iff, pure_ok_iff, Prod.mk.injEq] at hc
        obtain ⟨parsed, hparsed, rfl, rfl⟩ := hc
        have hbound := hparsed
        obtain ⟨rfl, -⟩ := routeSchema_ok hparsed
        simp only [routeSchema, bind_ok_iff, refuse_ok_iff, not_or] at hbound
        obtain ⟨_, ⟨-, -, -, -, hfive⟩, -⟩ := hbound
        simp only [Application.attempts] at hfive
        exact .inr ⟨row, hrow, .inr ⟨attempts, hpending, by omega, rfl, rfl⟩⟩
    · simp only [pure_ok_iff, Prod.mk.injEq] at hc
      exact .inl ⟨hc.1.symm, hc.2.symm⟩

/-- A failed attempt blocks its version, or changes nothing. -/
theorem advanceBlock_row {route : Route} {store after : Store}
    (hb : advanceBlock route store = .ok after) :
    after = store ∨ ∃ row, store.route route.hostname = some row ∧
      after = store.setRecord route.hostname { row.record with application := .blocked } := by
  rw [advanceBlock] at hb
  split at hb
  · exact .inl (pure_ok_iff.mp hb).symm
  · next row hrow =>
    simp only [bind_ok_iff] at hb
    obtain ⟨current, hcur, hb⟩ := hb
    obtain ⟨rfl, -, -⟩ := routeRecord_ok hcur
    split at hb
    · exact .inr ⟨row, hrow, (pure_ok_iff.mp hb).symm⟩
    · exact .inl (pure_ok_iff.mp hb).symm

/-- The row of a hostname after a record was replaced. -/
theorem route_setRecord {store : Store} {hostname : Hostname} {record : Route} {row : RouteRow}
    (here : store.route hostname = some row) :
    (store.setRecord hostname record).route h =
      if h = hostname then some { row with record } else store.route h := by
  rw [setRecord_route]
  by_cases heq : h = hostname
  · rw [if_pos heq, if_pos heq, heq, here]
    rfl
  · rw [if_neg heq, if_neg heq]

/-- One row is replaced, and the others stay. -/
theorem RowStep.replaced {hostname : Hostname} {row next : RouteRow}
    (here : s.store.route hostname = some row) (hidle : ∀ v, started s e ≠ some (h, v))
    (hrow : h = hostname → RowStep config s e h (some row) (some next)) :
    RowStep config s e h (s.store.route h) (if h = hostname then some next else s.store.route h) := by
  by_cases hname : h = hostname
  · rw [if_pos hname, hname, here, ← hname]
    exact hrow hname
  · rw [if_neg hname]
    exact .same _ hidle

theorem mutate_row {env : Surroundings} {principal : Principal} {command : RouteCommand}
    (hstep : step config s (.mutate env principal command) = some t) (h : Hostname) :
    RowStep config s (.mutate env principal command) h (s.store.route h) (t.store.route h) := by
  have hidle : ∀ v, started s (.mutate env principal command) ≠ some (h, v) := by
    intro v hv
    cases hv
  simp only [step] at hstep
  split at hstep
  · next route store hm =>
    cases hstep
    rcases mutate_written hm with rfl | hwritten
    · exact .same _ hidle
    · by_cases hname : h = commandHostname config command
      · exact .written env principal command store rfl hwritten hname
      · rw [show (State.store { s with store }).route h = s.store.route h from
          hwritten.other h hname]
        exact .same _ hidle
  · cases hstep
    exact .same _ hidle

theorem claim_row {hostname : Hostname} (hstep : step config s (.claim hostname) = some t)
    (h : Hostname) :
    RowStep config s (.claim hostname) h (s.store.route h) (t.store.route h) := by
  simp only [step] at hstep
  cases hc : advanceClaim hostname s.store with
  | error fault =>
    rw [hc] at hstep
    cases hstep
    exact .same _ (by simp [started, hc])
  | ok pair =>
    obtain ⟨claimed, after⟩ := pair
    have hstarted : started s (.claim hostname) = claimed.map fun route =>
        (hostname, route.version) := by
      simp only [started, hc]
      cases claimed <;> rfl
    have hrow : t.store.route h = after.route h := by
      rw [hc] at hstep
      cases claimed <;> cases hstep <;> rfl
    rw [hrow]
    rcases advanceClaim_row hc with ⟨rfl, rfl⟩ | ⟨row, here, ⟨rfl, rfl⟩ | ⟨attempts, hpending, hfew,
      rfl, rfl⟩⟩
    · exact .same _ (by simp [hstarted])
    · have hidle : ∀ v, started s (.claim hostname) ≠ some (h, v) := by simp [hstarted]
      rw [route_setRecord here]
      exact .replaced here hidle fun _ => .blocked row hidle
    · rw [route_setRecord here]
      by_cases hname : h = hostname
      · subst hname
        rw [if_pos rfl, here]
        exact .claimed row attempts hpending hfew hstarted
      · rw [if_neg hname]
        refine .same _ fun v hv => hname ?_
        rw [hstarted] at hv
        exact (congrArg Prod.fst (Option.some.inj hv)).symm

theorem finish_row {i : Nat} (hstep : step config s (.finish i) = some t) (h : Hostname) :
    RowStep config s (.finish i) h (s.store.route h) (t.store.route h) := by
  have hidle : ∀ v, started s (.finish i) ≠ some (h, v) := fun v hv => by cases hv
  simp only [step] at hstep
  split at hstep
  · next route target hw =>
    cases hstep
    cases hr : advanceRecord route target s.store with
    | error fault => exact .same _ hidle
    | ok store =>
      rcases advanceRecord_ok hr with rfl | ⟨row, here, newest, -, -, -, -, routes⟩
      · exact .same _ hidle
      · rw [show (s.store.orElse (.ok store)).route h = _ from routes h]
        exact .replaced here hidle fun _ => .recorded route target row newest hidle
  · next route hw =>
    cases hstep
    cases hr : advanceBlock route s.store with
    | error fault => exact .same _ hidle
    | ok store =>
      rcases advanceBlock_row hr with rfl | ⟨row, here, rfl⟩
      · exact .same _ hidle
      · rw [show (s.store.orElse (.ok (s.store.setRecord route.hostname
          { row.record with application := .blocked }))).route h = _ from route_setRecord here]
        exact .replaced here hidle fun _ => .blocked row hidle
  · cases hstep

theorem record_row {i : Nat} (hstep : step config s (.record i) = some t) (h : Hostname) :
    RowStep config s (.record i) h (s.store.route h) (t.store.route h) := by
  have hidle : ∀ v, started s (.record i) ≠ some (h, v) := fun v hv => by cases hv
  simp only [step] at hstep
  split at hstep
  · next hostname version rest hb =>
    cases hstep
    cases hr : recordAcknowledgement hostname version s.store with
    | error fault => exact .same _ hidle
    | ok store =>
      rcases recordAcknowledgement_ok hr with rfl | ⟨row, here, -, raised, rfl⟩
      · exact .same _ hidle
      · have hpending : s.Pending hostname version := ⟨_, List.mem_of_getElem? hb, by simp⟩
        rw [show (s.store.orElse (.ok (s.store.setRecord hostname
          { row.record with gatewayAppliedVersion := some version }))).route h = _ from
            route_setRecord here]
        exact .replaced here hidle fun hname => .passed row version raised (hname ▸ hpending) hidle
  · cases hstep

/-- The events that run a transaction on the store. -/
def Event.writes : Event → Bool
  | .mutate .. | .claim _ | .finish _ | .record _ | .machine .. => true
  | _ => false

theorem step_store (hstep : step config s e = some t) (hreads : e.writes = false) :
    t.store = s.store := by
  cases e with
  | mutate | claim | finish | record | machine => cases hreads
  | applyGuest i observed =>
    simp only [step] at hstep
    split at hstep
    · split at hstep <;> cases hstep <;> rfl
    · cases hstep
  | acknowledge revision =>
    simp only [step] at hstep
    split at hstep
    · split at hstep
      · split at hstep <;> cases hstep <;> rfl
      · cases hstep
        rfl
    · cases hstep
  | guest | giveUp | stop | snapshot =>
    simp only [step] at hstep
    split at hstep <;> cases hstep <;> rfl
  | abandon i =>
    cases hstep
    rfl

/-- **Step lemma.** -/
theorem step_row (hstep : step config s e = some t) (h : Hostname) :
    RowStep config s e h (s.store.route h) (t.store.route h) := by
  cases e with
  | mutate env principal command => exact mutate_row hstep h
  | claim hostname => exact claim_row hstep h
  | finish i => exact finish_row hstep h
  | record i => exact record_row hstep h
  | applyGuest | guest | giveUp | stop | snapshot | acknowledge | abandon =>
    rw [step_store hstep rfl]
    exact .same _ fun v hv => by cases hv
  | machine id state =>
    have hroute : t.store.route h = s.store.route h := by
      simp only [step] at hstep
      split at hstep
      · cases hstep
      · split at hstep <;> cases hstep
        rfl
    rw [hroute]
    exact .same _ fun v hv => by cases hv

/-! ## Versions and owners -/

/-- Only a mutation changes a version. -/
theorem RowStep.version {before after : Option RouteRow} (hrow : RowStep config s e h before after)
    (hquiet : ∀ env principal command, e ≠ .mutate env principal command) :
    after.map (·.record.version) = before.map (·.record.version) := by
  cases hrow with
  | written env principal command store event => exact absurd event (hquiet env principal command)
  | same | claimed | blocked | recorded | passed => rfl

/-- What a later row keeps of an earlier one. -/
structure Later (row after : RouteRow) : Prop where
  account : after.accountId = row.accountId
  version : row.record.version ≤ after.record.version
  applied : row.record.appliedVersion.getD 0 ≤ after.record.appliedVersion.getD 0
  gateway : row.record.gatewayAppliedVersion.getD 0 ≤ after.record.gatewayAppliedVersion.getD 0

theorem Later.refl (row : RouteRow) : Later row row :=
  ⟨rfl, Nat.le_refl _, Nat.le_refl _, Nat.le_refl _⟩

theorem Later.trans {a b c : RouteRow} (hab : Later a b) (hbc : Later b c) : Later a c :=
  ⟨hbc.account.trans hab.account, hab.version.trans hbc.version, hab.applied.trans hbc.applied,
    hab.gateway.trans hbc.gateway⟩

theorem RowStep.later {row : RouteRow} {before after : Option RouteRow}
    (hrow : RowStep config s e h before after) (hbefore : before = some row)
    (hbound : row.record.appliedVersion.getD 0 ≤ row.record.version) :
    ∃ next, after = some next ∧ Later row next := by
  cases hrow with
  | same => exact ⟨row, hbefore, .refl row⟩
  | written env principal command store event written name =>
    obtain ⟨next, hnext, haccount, hversion, happlied, hgateway, -⟩ := written.row
    rw [name] at hbefore ⊢
    rw [hbefore] at hversion happlied hgateway
    refine ⟨next, hnext, haccount.trans (written.owned row hbefore).symm, ?_, ?_, ?_⟩
    · rw [hversion]
      exact Nat.le_succ _
    · rw [happlied]
      exact Nat.le_refl _
    · rw [hgateway]
      exact Nat.le_refl _
  | claimed found attempts =>
    obtain rfl := Option.some.inj hbefore
    exact ⟨_, rfl, rfl, Nat.le_refl _, Nat.le_refl _, Nat.le_refl _⟩
  | blocked found =>
    obtain rfl := Option.some.inj hbefore
    exact ⟨_, rfl, rfl, Nat.le_refl _, Nat.le_refl _, Nat.le_refl _⟩
  | recorded route target found newest =>
    obtain rfl := Option.some.inj hbefore
    refine ⟨_, rfl, rfl, Nat.le_refl _, ?_, Nat.le_refl _⟩
    -- the recorded version is the newest one, which bounds what was applied before
    exact hbound.trans (Nat.le_of_eq newest)
  | passed found version raised =>
    obtain rfl := Option.some.inj hbefore
    exact ⟨_, rfl, rfl, Nat.le_refl _, Nat.le_refl _, Nat.le_of_lt raised⟩

/-- A step admits one command, or leaves the receipts and every version. -/
theorem step_commands (hstep : step config s e = some t) :
    (∃ env principal command, e = .mutate env principal command ∧
        Written config env principal command s.store t.store) ∨
      (t.store.commands = s.store.commands ∧
        ∀ h, (t.store.route h).map (·.record.version) = (s.store.route h).map (·.record.version)) := by
  by_cases hmutate : ∃ env principal command, e = .mutate env principal command
  · obtain ⟨env, principal, command, rfl⟩ := hmutate
    simp only [step] at hstep
    split at hstep
    · next route store hm =>
      cases hstep
      rcases mutate_written hm with rfl | hwritten
      · exact .inr ⟨rfl, fun _ => rfl⟩
      · exact .inl ⟨env, principal, command, rfl, hwritten⟩
    · cases hstep
      exact .inr ⟨rfl, fun _ => rfl⟩
  · have hquiet : ∀ env principal command, e ≠ .mutate env principal command :=
      fun env principal command heq => hmutate ⟨env, principal, command, heq⟩
    refine .inr ⟨?_, fun h => (step_row hstep h).version hquiet⟩
    cases step_change hstep with
    | admitted env principal command route store event => exact absurd event (hquiet _ _ _)
    | recorded worker target row store workers mem phase here newest name machines commands =>
      exact commands
    | quiet | attempted | commanded | handed | acknowledging | passed | machine => rfl

/-- What holds of the routes and the receipts in every state. -/
structure Versions (s : State) : Prop where
  counted : ∀ h, ((s.store.route h).map (·.record.version)).getD 0 =
    s.store.commands.countP fun row => decide (row.hostname = h)
  keyed : Table.Keyed CommandRow.id s.store.commands
  applied : ∀ h row, s.store.route h = some row →
    row.record.appliedVersion.getD 0 ≤ row.record.version

theorem RowStep.applied {before after : Option RouteRow} {next : RouteRow}
    (hrow : RowStep config s e h before after) (hafter : after = some next)
    (hbound : ∀ row, before = some row →
      row.record.appliedVersion.getD 0 ≤ row.record.version) :
    next.record.appliedVersion.getD 0 ≤ next.record.version := by
  cases hrow with
  | same => exact hbound next hafter
  | written env principal command store event written name =>
    obtain ⟨found, hfound, -, hversion, happlied, -⟩ := written.row
    rw [name, hfound] at hafter
    obtain rfl := Option.some.inj hafter
    rw [hversion, happlied]
    rw [name] at hbound
    cases hold : s.store.route (commandHostname config command) with
    | none => exact Nat.zero_le _
    | some row => exact Nat.le_succ_of_le (hbound row hold)
  | claimed found attempts =>
    obtain rfl := Option.some.inj hafter
    exact hbound found rfl
  | blocked found =>
    obtain rfl := Option.some.inj hafter
    exact hbound found rfl
  | recorded route target found newest =>
    obtain rfl := Option.some.inj hafter
    exact Nat.le_of_eq newest.symm
  | passed found version raised =>
    obtain rfl := Option.some.inj hafter
    exact hbound found rfl

theorem Versions.step (hs : Versions s) (hstep : Hosting.step config s e = some t) : Versions t := by
  refine ⟨?_, ?_, fun h row hrow => (step_row hstep h).applied hrow (hs.applied h)⟩
  · intro h
    rcases step_commands hstep with ⟨env, principal, command, -, hwritten⟩ | ⟨hcommands, hversions⟩
    · obtain ⟨receipt, hreceipt, -, hname⟩ := hwritten.receipt
      rw [hreceipt, List.countP_append, ← hs.counted h]
      by_cases heq : h = commandHostname config command
      · subst heq
        obtain ⟨row, hrow, -, hversion, -⟩ := hwritten.row
        rw [hrow]
        simp only [Option.map_some, Option.getD_some, hversion]
        simp [hname]
      · rw [hwritten.other h heq]
        simp [hname, Ne.symm heq]
    · rw [hcommands, hversions h, hs.counted h]
  · rcases step_commands hstep with ⟨env, principal, command, -, hwritten⟩ | ⟨hcommands, -⟩
    · obtain ⟨receipt, hreceipt, hid, -⟩ := hwritten.receipt
      rw [hreceipt]
      exact hs.keyed.insert (hid ▸ hwritten.fresh)
    · rw [hcommands]
      exact hs.keyed

/-! ## Attempts -/

/-- The attempts that a run starts. -/
def attempts (config : Config) : State → List Event → List (Hostname × Nat)
  | _, [] => []
  | s, e :: es =>
    (started s e).toList ++
      match step config s e with
      | some t => attempts config t es
      | none => []

/-- How many attempts of a version may still start. -/
def remaining (row : Option RouteRow) (version : Nat) : Nat :=
  match row with
  | none => 5
  | some row =>
    if row.record.version < version then 5
    else if row.record.version = version then
      match row.record.application with
      | .pending attempts => 5 - attempts
      | _ => 0
    else 0

theorem remaining_le (row : Option RouteRow) (version : Nat) : remaining row version ≤ 5 := by
  unfold remaining
  split
  · exact Nat.le_refl _
  · split
    · exact Nat.le_refl _
    · split
      · split <;> omega
      · exact Nat.zero_le _

/-- A later version has all its attempts. -/
theorem remaining_newer {row : RouteRow} {version : Nat} (h : row.record.version < version) :
    remaining (some row) version = 5 := by
  simp [remaining, h]

/-- **Step lemma.** An attempt that starts is taken from those that remain. -/
theorem RowStep.remaining {before after : Option RouteRow} {version : Nat}
    (hrow : RowStep config s e h before after) :
    Hosting.remaining after version + (started s e).toList.count (h, version) ≤
      Hosting.remaining before version := by
  have hzero (hidle : ∀ v, started s e ≠ some (h, v)) :
      (started s e).toList.count (h, version) = 0 := by
    rw [List.count_eq_zero]
    intro hmem
    exact hidle version (Option.mem_toList.mp hmem)
  cases hrow with
  | same row idle => rw [hzero idle]; exact Nat.le_refl _
  | written env principal command store event written name =>
    have hidle : (started s e).toList.count (h, version) = 0 := by
      rw [event]
      rfl
    rw [hidle, Nat.add_zero, name]
    obtain ⟨row, hnext, -, hversion, -⟩ := written.row
    rw [hnext]
    cases hold : s.store.route (commandHostname config command) with
    | none => exact remaining_le _ _
    | some old =>
      rw [hold] at hversion
      simp only [Option.map_some, Option.getD_some] at hversion
      by_cases hnewer : old.record.version < version
      · rw [remaining_newer hnewer]
        exact remaining_le _ _
      · -- the version is not above the old one, so the new one has passed it
        have hpassed : ¬ row.record.version < version := by omega
        have hother : row.record.version ≠ version := by omega
        simp [Hosting.remaining, hpassed, hother]
  | claimed row attempts pending few event =>
    rw [event]
    by_cases hnewest : row.record.version = version
    · subst hnewest
      simp [Hosting.remaining, pending]
      omega
    · have : ¬ (h, row.record.version) = (h, version) := fun heq => hnewest (Prod.mk.inj heq).2
      simp [Hosting.remaining, hnewest]
  | blocked row idle =>
    rw [hzero idle]
    unfold Hosting.remaining
    simp only
    split
    · omega
    · split <;> omega
  | recorded route target row newest idle =>
    -- an applied version has no attempts left
    have happlied : Hosting.remaining (some (Hosting.recorded route target row)) version =
        if row.record.version < version then 5
        else if row.record.version = version then 0 else 0 := rfl
    rw [hzero idle, happlied, ite_self, Nat.add_zero]
    by_cases hlt : row.record.version < version
    · rw [if_pos hlt, remaining_newer hlt]
    · rw [if_neg hlt]
      exact Nat.zero_le _
  | passed row raised version pending idle => rw [hzero idle]; exact Nat.le_refl _

end AgentCloud.Hosting
