/-
  A GATEWAY CHECK, and the leases it renews.

  A check evaluates its connections one after the other, each in three transactions: the session is
  read, it is read again under the machine's advisory lock, and it is validated under the account's
  row lock.  The row lock is waited for.  The advisory lock is TRIED: when anything else holds it,
  `locked` throws `resource_busy`, which `check` answers as it answers a denial, by leaving the
  connection out.  The gateway ends every connection that was left out.

  So between the validity of a connection and its renewal stands exactly the lock
  (`check_renews_iff_unlocked`).
-/
import AgentCloud.Access.Uniqueness
import AgentCloud.Lib.Outcome

namespace AgentCloud.Access

open Checked Durable

/-! ## Evaluations -/

/-- What happens between two transactions of a check: any run of the service. -/
def Interferes (config : ServiceConfig) (start w v : World interface) : Prop :=
  ∃ c c', (system config).Reach (.idle start) c ∧ (system config).Reach c c' ∧
    c.world = w ∧ c'.world = v

/-- One connection of a check: what its transactions met, and what it adds to the reply. -/
structure Evaluation where
  connection : ConnectionId
  moments : List (Moment interface)
  lease : Option Lease

/-- The machine lock was free when it was tried, in the second transaction. -/
def Evaluation.Unlocked (evaluation : Evaluation) : Prop :=
  ∀ moment, evaluation.moments[1]? = some moment → moment.env.machineBusy = false

/-- The lease of exactly this connection, with time left. -/
def Evaluation.Renewed (evaluation : Evaluation) : Prop :=
  ∃ lease, evaluation.lease = some lease ∧ lease.sessionId = evaluation.connection.sessionId ∧
    lease.connectionId = evaluation.connection.connectionId ∧ 0 < lease.remainingMs

def HeldBy (claim : Claim) (connection : ConnectionId) : Prop :=
  claim.gatewayInstanceId = connection.gatewayInstanceId ∧
    claim.connectionId = connection.connectionId

/-- The connection claimed its session. -/
def ClaimedBy (store : Store) (connection : ConnectionId) : Prop :=
  ∃ row claim, getSession store connection.sessionId = some row ∧
    row.connection.claim? = some claim ∧ HeldBy claim connection

/-- Grant chain, machine and session are valid for the connection, and none has expired. -/
structure ValidAt (config : ServiceConfig) (connection : ConnectionId) (moment : Moment interface)
    (row : Session) (context : Context) : Prop where
  found : getSession moment.store connection.sessionId = some row
  loads : current config moment.env.rows moment.store.grants moment.env.now (sessionScope row) =
    .ok context
  same : unchanged config row context = .ok ()
  issued : row.isIssued = true
  claimed : ∃ claim, row.connection = .claimed claim ∧ HeldBy claim connection
  session : moment.env.now < row.hardDeadline
  grant : moment.env.now < context.authority.expiresAt

/-- The connection is valid when its evaluation comes to an end. -/
def Evaluation.Valid (config : ServiceConfig) (evaluation : Evaluation) : Prop :=
  ∃ moment row context, evaluation.moments.getLast? = some moment ∧
    ValidAt config evaluation.connection moment row context

/-- `leases.get(connectionId)` of the gateway's heartbeat, and the connections that it stops. -/
def gatewayStops (leases : List Lease) (connection : ConnectionId) : Bool :=
  match leases.reverse.find? (·.connectionId = connection.connectionId) with
  | none => true
  | some lease => lease.sessionId ≠ connection.sessionId

section

variable {config : ServiceConfig} {start w w' : World interface} {moments : List (Moment interface)}

/-! ## What a run does to a claimed session -/

/-- A row later, as far as a check depends on it. -/
structure Aged (old new : Session) : Prop where
  fixed : new.fixed = old.fixed
  claim : ∀ claim, old.connection.claim? = some claim → new.connection.claim? = some claim
  closed : old.connection.isClosed = true → new.connection.isClosed = true
  used : old.connection ≠ .unclaimed → new.connection ≠ .unclaimed
  issuance : old.connection ≠ .unclaimed → new.isIssued = true → new.issuance = old.issuance

theorem Aged.refl (row : Session) : Aged row row :=
  ⟨rfl, fun _ h => h, fun h => h, fun h => h, fun _ _ => rfl⟩

theorem Aged.trans {a b c : Session} (h : Aged a b) (h' : Aged b c) : Aged a c := by
  refine ⟨h'.fixed.trans h.fixed, fun claim hc => h'.claim claim (h.claim claim hc),
    fun hc => h'.closed (h.closed hc), fun hu => h'.used (h.used hu), fun hu hissued => ?_⟩
  have hlast : c.issuance = b.issuance := h'.issuance (h.used hu) hissued
  have hmid : b.isIssued = true := by simpa only [Session.isIssued, hlast] using hissued
  exact hlast.trans (h.issuance hu hmid)

theorem Moves.aged {old new : Session} (h : Moves old new) : Aged old new := by
  refine ⟨h.fixed, fun claim => h.claim_kept, fun hclosed => ?_, fun hused => ?_,
    fun hused hissued => ?_⟩
  · rw [(h.closed hclosed).1]
    exact hclosed
  · rcases h.connection with hsame | ⟨hold, -⟩ | ⟨-, hclosed, -⟩
    · rw [hsame]
      exact hused
    · exact absurd hold hused
    · intro hnew
      rw [hnew] at hclosed
      cases hclosed
  · by_contra hne
    have hsubmits : new.issuance.submits = true := by
      revert hissued
      simp only [Session.isIssued, Issuance.submits]
      cases new.issuance <;> simp
    exact hused (h.submits hne hsubmits).1

/-- **Run lemma.** -/
theorem aged_run {c c' : Config interface Slot} (hc : Discipline.InOrder signatures.contract c)
    (hreach : (system config).Reach c c') {id : AccessSessionId} {row : Session}
    (hrow : getSession c.world.store id = some row) :
    ∃ row', getSession c'.world.store id = some row' ∧ Aged row row' := by
  refine Marks.store_invariant (access_discipline config) (fun _ _ h => h)
    (P := fun store => ∃ row', getSession store id = some row' ∧ Aged row row') ?_ hc
    ⟨row, hrow, .refl row⟩ hreach
  intro k store store' _ hP hstep
  obtain ⟨mid, hmid, haged⟩ := hP
  obtain ⟨last, hlast, hrowstep⟩ := hstep.rows id mid hmid
  exact ⟨last, hlast, haged.trans hrowstep.moves.aged⟩

theorem Interferes.aged (hstart : Valid start) (h : Interferes config start w w')
    {id : AccessSessionId} {row : Session} (hrow : getSession w.store id = some row) :
    ∃ row', getSession w'.store id = some row' ∧ Aged row row' := by
  obtain ⟨c, c', hbefore, hreach, rfl, rfl⟩ := h
  exact aged_run ((access_discipline config).inOrder (Discipline.inOrder_idle hstart) hbefore)
    hreach hrow

theorem Session.ext_states {a b : Session} (hfixed : a.fixed = b.fixed)
    (hissuance : a.issuance = b.issuance) (hconnection : a.connection = b.connection) : a = b := by
  cases a
  cases b
  simp only [Session.fixed, Session.mk.injEq] at hfixed
  simp_all

/-- A session that its connection has claimed, and that is valid for it later, has not changed. -/
theorem Aged.eq_of_valid {old new : Session} {connection : ConnectionId} {held : Claim}
    (h : Aged old new) (hheld : old.connection.claim? = some held) (hissued : new.isIssued = true)
    (hclaimed : ∃ claim, new.connection = .claimed claim ∧ HeldBy claim connection) : old = new := by
  obtain ⟨claim, hnew, -⟩ := hclaimed
  have hused : old.connection ≠ .unclaimed := by
    intro hold
    rw [hold] at hheld
    cases hheld
  have hconnection : old.connection = new.connection := by
    have hkept := h.claim held hheld
    rw [hnew] at hkept ⊢
    cases hold : old.connection with
    | unclaimed => exact absurd hold hused
    | claimed claim' =>
      rw [hold] at hheld
      rw [Option.some.inj hheld, Option.some.inj hkept]
    | closed previous reason closedAt =>
      have hclosed := h.closed (by simp [hold, Connection.isClosed])
      rw [hnew] at hclosed
      cases hclosed
  exact Session.ext_states h.fixed.symm (h.issuance hused hissued).symm hconnection

/-! ## Denials -/

/-- A `CloudError`, which is what `check` catches. -/
def IsCloud (fault : Fault) : Prop := ∃ failure, fault = .cloud failure

theorem denies_loadAuthority {grants : List Grant} {now : Instant} {id : GrantId} :
    Fails IsCloud (loadAuthority grants now id) :=
  fun _ h => ⟨_, loadAuthority_error h⟩

theorem denies_authorize {principal : Principal} {capability : Capability}
    {projectId : Option ProjectId} : Fails IsCloud (authorize principal capability projectId) := by
  refine Fails.bind (Fails.refuse ⟨_, rfl⟩) fun _ => ?_
  split
  · exact Fails.refuse ⟨_, rfl⟩
  · exact Fails.pure

theorem denies_current {rows : Rows} {grants : List Grant} {now : Instant} {scope : Scope} :
    Fails IsCloud (current config rows grants now scope) := by
  refine Fails.bind (Fails.refuse ⟨_, rfl⟩) fun _ => ?_
  refine Fails.bind denies_loadAuthority fun authority => ?_
  refine Fails.bind (Fails.refuse ⟨_, rfl⟩) fun _ => ?_
  refine Fails.bind (Fails.present ⟨_, rfl⟩) fun machine => ?_
  refine Fails.bind denies_authorize fun _ => ?_
  refine Fails.bind (Fails.refuse ⟨_, rfl⟩) fun _ => ?_
  refine Fails.bind (Fails.present ⟨_, rfl⟩) fun pair => ?_
  refine Fails.bind (Fails.refuse ⟨_, rfl⟩) fun _ => ?_
  refine Fails.bind (Fails.present ⟨_, rfl⟩) fun allocation => ?_
  refine Fails.bind (Fails.present ⟨_, rfl⟩) fun spec => ?_
  refine Fails.bind (Fails.present ⟨_, rfl⟩) fun identity => ?_
  refine Fails.bind (Fails.present ⟨_, rfl⟩) fun key => ?_
  refine Fails.bind (Fails.refuse ⟨_, rfl⟩) fun _ => ?_
  refine Fails.bind (Fails.present ⟨_, rfl⟩) fun owned => ?_
  exact Fails.bind (Fails.refuse ⟨_, rfl⟩) fun _ => Fails.pure

theorem denies_validConnection {rows : Rows} {grants : List Grant} {now : Instant}
    {session : Session} {connection : ConnectionId} :
    Fails IsCloud (validConnection config rows grants now session connection) := by
  refine Fails.bind denies_current fun context => ?_
  refine Fails.bind (Fails.refuse ⟨_, rfl⟩) fun _ => ?_
  refine Fails.bind (Fails.present ⟨_, rfl⟩) fun target => ?_
  exact Fails.bind (Fails.refuse ⟨_, rfl⟩) fun _ => Fails.pure

/-! ## One connection -/

/-- A valid connection is renewed when it is validated. -/
theorem ValidAt.validConnection {connection : ConnectionId} {moment : Moment interface}
    {row : Session} {context : Context} (h : ValidAt config connection moment row context) :
    ∃ lease, validConnection config moment.env.rows moment.store.grants moment.env.now row
      connection = .ok lease ∧ lease.sessionId = connection.sessionId ∧
      lease.connectionId = connection.connectionId ∧ 0 < lease.remainingMs := by
  obtain ⟨claim, hclaimed, hgateway, hconnection⟩ := h.claimed
  obtain ⟨credential, hissued⟩ : ∃ credential, row.issuance = .issued credential := by
    have := h.issued
    revert this
    simp only [Session.isIssued]
    cases row.issuance <;> simp
  have hload := current_loads h.loads
  have hnow : context.authority.checkedAt = moment.env.now := loadAuthority_checkedAt hload
  have hleased : leasedTarget row connection = some credential.target := by
    simp [leasedTarget, hissued, hclaimed, hgateway, hconnection]
  have hremaining : moment.env.now < min row.hardDeadline context.authority.expiresAt :=
    Nat.lt_min.mpr ⟨h.session, h.grant⟩
  have hid : row.id = connection.sessionId := Table.get_key h.found
  refine ⟨⟨row.id, connection.connectionId,
    min row.hardDeadline context.authority.expiresAt - moment.env.now, credential.target⟩, ?_,
    hid, rfl, Nat.sub_pos_of_lt hremaining⟩
  simp only [Access.validConnection, bind_ok_iff, present_ok_iff, refuse_ok_iff, Nat.not_le,
    pure_ok_iff]
  exact ⟨context, h.loads, (), h.same, _, hleased, (), by rw [hnow]; exact hremaining, by rw [hnow]⟩

/-- How the evaluation of a connection can go. -/
inductive Evaluated (config : ServiceConfig) (start : World interface) (connection : ConnectionId) :
    World interface → List (Moment interface) → Option Lease → World interface → Prop where
  | missing {w v : World interface} {env : Env} (first : Interferes config start w v)
      (absent : getSession v.store connection.sessionId = none) :
      Evaluated config start connection w [⟨env, v.store⟩] none v
  | locked {w v v' : World interface} {env env' : Env} (first : Interferes config start w v)
      (second : Interferes config start v v')
      (out : env'.machineBusy = true ∨ getSession v'.store connection.sessionId = none) :
      Evaluated config start connection w [⟨env, v.store⟩, ⟨env', v'.store⟩] none v'
  | validated {w v v' v'' : World interface} {env env' env'' : Env} {session : Session}
      {lease : Option Lease} (first : Interferes config start w v)
      (second : Interferes config start v v') (third : Interferes config start v' v'')
      (free : env'.machineBusy = false)
      (found : getSession v'.store connection.sessionId = some session)
      (result : lease = (validConnection config env''.rows v''.store.grants env''.now session
        connection).toOption) :
      Evaluated config start connection w
        [⟨env, v.store⟩, ⟨env', v'.store⟩, ⟨env'', v''.store⟩] lease v''

theorem checkOne_evaluated {connection : ConnectionId} {r : Except Fault (Option Lease)}
    (h : Outcome (Interferes config start) (checkOne config connection) w moments r w') :
    ∃ lease, r = .ok lease ∧ Evaluated config start connection w moments lease w' := by
  obtain ⟨body, rest, result, v, rfl, hbody, hend⟩ := h.tryCatch_inv
  -- whatever the body throws is a `CloudError`, and omits the connection
  have homits : ∀ fault, result = .error fault → IsCloud fault →
      rest = [] ∧ r = .ok none ∧ w' = v := by
    rintro fault rfl ⟨failure, rfl⟩
    obtain ⟨hrest, hr, hw⟩ := hend.pure_inv
    exact ⟨hrest, hr, hw⟩
  obtain ⟨first, later, read, v₁, rfl, hfirst, hlater⟩ := hbody.bind_inv
  obtain ⟨u, env, hu, rfl, hread⟩ := hfirst.transact_inv
  rcases hread with ⟨row, s, hok, rfl, rfl⟩ | ⟨fault, herror, rfl, rfl⟩
  · simp only [bind_ok_iff, present_ok_iff, pure_ok_iff, Prod.mk.injEq] at hok
    obtain ⟨_, -, -, rfl⟩ := hok
    obtain ⟨second, last, locked, v₂, rfl, hsecond, hlast⟩ := hlater.bind_inv
    obtain ⟨u', env', hu', rfl, hlocked⟩ := hsecond.transact_inv
    rcases hlocked with ⟨session, s, hok, rfl, rfl⟩ | ⟨fault, herror, rfl, rfl⟩
    · simp only [bind_ok_iff, refuse_ok_iff, present_ok_iff, pure_ok_iff, Prod.mk.injEq] at hok
      obtain ⟨_, hfree, _, hfound, rfl, rfl⟩ := hok
      obtain ⟨third, final, validated, v₃, rfl, hthird, hfinal⟩ := hlast.bind_inv
      obtain ⟨u'', env'', hu'', rfl, hvalidated⟩ := hthird.transact_inv
      rcases hvalidated with ⟨lease, s, hok, rfl, rfl⟩ | ⟨fault, herror, rfl, rfl⟩
      · simp only [bind_ok_iff, pure_ok_iff, Prod.mk.injEq] at hok
        obtain ⟨_, hvalid, rfl, rfl⟩ := hok
        obtain ⟨rfl, rfl, rfl⟩ := hfinal.pure_inv
        obtain ⟨rfl, rfl, rfl⟩ := hend
        exact ⟨_, rfl, .validated hu hu' hu'' (by simpa using hfree) hfound (by rw [hvalid]; rfl)⟩
      · obtain ⟨rfl, rfl, rfl⟩ := hfinal
        simp only [bind_error_iff, pure_error_iff, and_false, exists_false, or_false] at herror
        obtain ⟨rfl, rfl, rfl⟩ := homits _ rfl (denies_validConnection _ herror)
        exact ⟨_, rfl, .validated hu hu' hu'' (by simpa using hfree) hfound (by rw [herror]; rfl)⟩
    · obtain ⟨rfl, rfl, rfl⟩ := hlast
      simp only [bind_error_iff, refuse_error_iff, present_error_iff, pure_error_iff, and_false,
        exists_false, or_false] at herror
      rcases herror with ⟨hbusy, rfl⟩ | ⟨_, -, habsent, rfl⟩
      · obtain ⟨rfl, rfl, rfl⟩ := homits _ rfl ⟨_, rfl⟩
        exact ⟨_, rfl, .locked hu hu' (.inl hbusy)⟩
      · obtain ⟨rfl, rfl, rfl⟩ := homits _ rfl ⟨_, rfl⟩
        exact ⟨_, rfl, .locked hu hu' (.inr habsent)⟩
  · obtain ⟨rfl, rfl, rfl⟩ := hlater
    simp only [bind_error_iff, present_error_iff, pure_error_iff, and_false, exists_false,
      or_false] at herror
    obtain ⟨habsent, rfl⟩ := herror
    obtain ⟨rfl, rfl, rfl⟩ := homits _ rfl ⟨_, rfl⟩
    exact ⟨_, rfl, .missing hu habsent⟩

/-- A claim stays the claim of its session. -/
theorem ClaimedBy.later {connection : ConnectionId} (hstart : Valid start)
    (hclaimed : ClaimedBy w.store connection) (h : Interferes config start w w') :
    ClaimedBy w'.store connection := by
  obtain ⟨row, claim, hrow, hclaim, hheld⟩ := hclaimed
  obtain ⟨row', hrow', haged⟩ := h.aged hstart hrow
  exact ⟨row', claim, hrow', haged.claim claim hclaim, hheld⟩

theorem ClaimedBy.present {store : Store} {connection : ConnectionId}
    (h : ClaimedBy store connection) : getSession store connection.sessionId ≠ none := by
  obtain ⟨row, claim, hrow, -⟩ := h
  simp [hrow]

theorem Evaluated.claimedBy {connection other : ConnectionId} {lease : Option Lease}
    (hstart : Valid start) (h : Evaluated config start connection w moments lease w')
    (hclaimed : ClaimedBy w.store other) : ClaimedBy w'.store other := by
  cases h with
  | missing first absent => exact hclaimed.later hstart first
  | locked first second out => exact (hclaimed.later hstart first).later hstart second
  | validated first second third free found result =>
    exact ((hclaimed.later hstart first).later hstart second).later hstart third

/-- A valid connection is renewed if the machine lock was free, and only then. -/
theorem Evaluated.renewed_iff {connection : ConnectionId} {lease : Option Lease}
    (hstart : Valid start) (h : Evaluated config start connection w moments lease w')
    (hclaimed : ClaimedBy w.store connection)
    (hvalid : Evaluation.Valid config ⟨connection, moments, lease⟩) :
    Evaluation.Renewed ⟨connection, moments, lease⟩ ↔
      Evaluation.Unlocked ⟨connection, moments, lease⟩ := by
  cases h with
  | missing first absent => exact absurd absent (hclaimed.later hstart first).present
  | locked first second out =>
    rcases out with hbusy | habsent
    · constructor
      · rintro ⟨_, hlease, -⟩
        cases hlease
      · intro hfree
        rw [hfree _ rfl] at hbusy
        cases hbusy
    · exact absurd habsent ((hclaimed.later hstart first).later hstart second).present
  | @validated v v' v'' env env' env'' session _ first second third free found result =>
    obtain ⟨moment, row, context, hlast, hat⟩ := hvalid
    obtain rfl : (⟨env'', w'.store⟩ : Moment interface) = moment := Option.some.inj hlast
    -- what was read under the lock is what is valid now
    obtain ⟨row', hrow', haged⟩ := third.aged hstart found
    obtain rfl : row' = row := Option.some.inj (hrow'.symm.trans hat.found)
    obtain ⟨row₂, claim, hrow₂, hclaim, -⟩ := (hclaimed.later hstart first).later hstart second
    obtain rfl : session = row₂ := Option.some.inj (found.symm.trans hrow₂)
    obtain rfl : session = row' := haged.eq_of_valid hclaim hat.issued hat.claimed
    obtain ⟨renewed, hok, hrenewed⟩ := hat.validConnection
    constructor
    · intro _ moment hmoment
      obtain rfl := Option.some.inj hmoment
      exact free
    · intro _
      refine ⟨renewed, ?_, hrenewed⟩
      rw [result]
      simp only at hok
      rw [hok]
      rfl

/-! ## The whole check -/

/-- **A check renews what is valid, unless the machine is locked.**  In every run of the service
    with a check of any connections in it, whatever happens between its transactions: the check
    returns, its reply is what the evaluations of its connections add one after the other, and a
    connection that had claimed its session, and is valid when it is evaluated, is renewed exactly
    if the machine's advisory lock was free when the check tried it. -/
theorem check_renews_iff_unlocked (config : ServiceConfig) {start : World interface}
    (hstart : Valid start) {connections : List ConnectionId} {w w' : World interface}
    {moments : List (Moment interface)} {r : Except Fault (List Lease)}
    (h : Outcome (Interferes config start) (check config connections) w moments r w') :
    ∃ evaluations : List Evaluation,
      r = .ok (evaluations.flatMap fun evaluation => evaluation.lease.toList) ∧
      evaluations.map Evaluation.connection = connections ∧
      moments = evaluations.flatMap Evaluation.moments ∧
      ∀ evaluation ∈ evaluations, ClaimedBy w.store evaluation.connection →
        evaluation.Valid config → (evaluation.Renewed ↔ evaluation.Unlocked) := by
  induction connections generalizing w w' moments r with
  | nil =>
    obtain ⟨rfl, rfl, -⟩ := h.pure_inv
    exact ⟨[], rfl, rfl, rfl, by simp⟩
  | cons connection connections ih =>
    obtain ⟨first, rest, result, v, rfl, hfirst, hrest⟩ := h.bind_inv
    obtain ⟨lease, rfl, hevaluated⟩ := checkOne_evaluated hfirst
    obtain ⟨later, last, result', v', rfl, hlater, hlast⟩ := hrest.bind_inv
    obtain ⟨evaluations, rfl, hconnections, rfl, hall⟩ := ih hlater
    obtain ⟨rfl, rfl, -⟩ := hlast.pure_inv
    refine ⟨⟨connection, first, lease⟩ :: evaluations, rfl, by simp [hconnections], by simp, ?_⟩
    intro evaluation hm hclaimed hvalid
    rcases List.mem_cons.mp hm with rfl | hm
    · exact hevaluated.renewed_iff hstart hclaimed hvalid
    · exact hall evaluation hm (hevaluated.claimedBy hstart hclaimed) hvalid

end

/-! ## A locked machine -/

namespace Demo

/-- The moment of the demo run, while something else holds the machine's lock. -/
def busy : Env := { moment with machineBusy := true }

theorem claimed_reachable : (system config).Reach (.idle start) (.idle claimed) := by
  have hjob : ∀ k p w, Job config k p → (system config).Reach (.idle w)
      (.idle (p.run (fun _ => moment) reply w).2) :=
    fun k p w h => System.reach_job _ k _ reply (fun _ _ => trivial) p w h
  have h₁ := hjob (.caller 0) admission start (.admitSession 0 ..)
  have h₂ := hjob (.issuer "access") _ admitted (.issue "access")
  have h₃ := hjob (.caller 0) _ issued (.claim 0 ticket)
  exact (h₁.trans h₂).trans h₃

/-- Nothing else happens between the transactions of the check. -/
theorem stays : Interferes config start claimed claimed :=
  ⟨.idle claimed, .idle claimed, claimed_reachable, .refl, rfl, rfl⟩

def claimedContext : Context where
  authority := ⟨leaf, 1000, 10000000, 3⟩
  machine := machine
  allocation := ⟨"alloc_1", "acct", .simulated, some "srv", none⟩
  spec := ⟨"acct", "mach", "alloc_1", 1, "m0", "host-ca"⟩
  pin := ⟨.simulated, "srv", "ip", "alloc-1.guest.agent-cloud.internal", "host-ca", "host-key", "m0"⟩

/-- The session as it was claimed. -/
def claimedRow : Session where
  id := "access"
  accountId := "acct"
  projectId := "proj"
  grantId := "leaf"
  machineId := "mach"
  allocationId := "alloc_1"
  machineVersion := 3
  requestKey := "request-0001"
  fingerprint := fingerprint config "mach" ⟨"key", "hash of ticket"⟩
  publicKey := "key"
  ticketHash := "hash of ticket"
  identityPin := claimedContext.pin
  gateway := config.gateway
  admittedAt := 1000
  issueDeadline := 91000
  hardDeadline := 3601000
  issuance := .issued ⟨"cert", 1000, 61000, 60000, ⟨claimedContext.pin, "192.0.2.7", 22⟩⟩
  connection := .claimed ⟨"instance", "connection", 1000⟩

theorem claimed_row : getSession claimed.store "access" = some claimedRow := by decide +kernel

theorem claimed_valid :
    ValidAt config connection ⟨busy, claimed.store⟩ claimedRow claimedContext where
  found := claimed_row
  loads := by rfl
  same := by rfl
  issued := rfl
  claimed := ⟨_, rfl, rfl, rfl⟩
  session := by decide
  grant := by decide

/-- The check that meets a locked machine. -/
theorem check_busy :
    Outcome (Interferes config start) (check config [connection]) claimed
      [⟨moment, claimed.store⟩, ⟨busy, claimed.store⟩] (.ok []) claimed := by
  refine .commit stays (s := claimed.store) (b := claimedRow) ?_ ?_
  · simp only [bind_ok_iff, present_ok_iff, pure_ok_iff, Prod.mk.injEq]
    exact ⟨claimedRow, claimed_row, rfl, trivial⟩
  · refine .refuse stays (e := retryableError .resourceBusy "Machine is busy.") ?_ ?_
    · rfl
    · exact .done

theorem claimed_by : ClaimedBy claimed.store connection :=
  ⟨claimedRow, _, claimed_row, rfl, rfl, rfl⟩

end Demo

/-- A claimed connection, valid when it is evaluated, is left out of the reply because the machine
    is locked, and the gateway ends it. -/
theorem locked_machine_ends_valid_connection :
    (system Demo.config).Reach (.idle Demo.start) (.idle Demo.claimed) ∧
    ClaimedBy Demo.claimed.store Demo.connection ∧
    Outcome (Interferes Demo.config Demo.start) (check Demo.config [Demo.connection]) Demo.claimed
      [⟨Demo.moment, Demo.claimed.store⟩, ⟨Demo.busy, Demo.claimed.store⟩] (.ok []) Demo.claimed ∧
    Evaluation.Valid Demo.config
      ⟨Demo.connection, [⟨Demo.moment, Demo.claimed.store⟩, ⟨Demo.busy, Demo.claimed.store⟩], none⟩ ∧
    gatewayStops [] Demo.connection = true :=
  ⟨Demo.claimed_reachable, Demo.claimed_by, Demo.check_busy,
    ⟨_, Demo.claimedRow, Demo.claimedContext, rfl, Demo.claimed_valid⟩, rfl⟩

/-- The theorem at that check. -/
theorem check_renews_iff_unlocked_demo :
    ∃ evaluation : Evaluation, evaluation.connection = Demo.connection ∧
      evaluation.moments = [⟨Demo.moment, Demo.claimed.store⟩, ⟨Demo.busy, Demo.claimed.store⟩] ∧
      (evaluation.Renewed ↔ evaluation.Unlocked) := by
  obtain ⟨evaluations, -, hconnections, hmoments, hall⟩ :=
    check_renews_iff_unlocked Demo.config Demo.start_valid Demo.check_busy
  obtain ⟨evaluation, rfl, hconnection⟩ := List.map_eq_singleton_iff.mp hconnections
  simp only [List.flatMap_cons, List.flatMap_nil, List.append_nil] at hmoments
  refine ⟨evaluation, hconnection, hmoments.symm, hall evaluation (by simp) ?_ ?_⟩
  · rw [hconnection]
    exact Demo.claimed_by
  · refine ⟨_, Demo.claimedRow, Demo.claimedContext, by rw [← hmoments]; rfl, ?_⟩
    rw [hconnection]
    exact Demo.claimed_valid

end AgentCloud.Access
