/-
  EVERY REACHABLE CHAIN OF DELEGATIONS IS ATTENUATED.

  `Sound` is the invariant of the store: the keys of the grant table, its rows attenuated, and every
  anchor a root.  A program may only make the table grow, and keep that; the two programs that
  insert a delegated row know, from the authority they loaded, that it is `Delegable`.
-/
import AgentCloud.Delegation.Attenuation

namespace AgentCloud.Delegation

open Checked Durable

/-! ## The invariant -/

structure Sound (store : Store) : Prop where
  valid : ValidGrants store.grants
  attenuated : Attenuated store.grants
  anchors : ∀ id identity, getIdentity store id = some identity →
    ∃ row, Grant.lookup store.grants identity.anchorGrantId = some row ∧ row.parentId = none

/-- A step of a program. -/
structure Steps (old new : Store) : Prop where
  grows : Grows old.grants new.grants
  sound : Sound old → Sound new

def contract : Contract interface Nat where
  valid w := Sound w.store
  rely _ w w' := Grows w.store.grants w'.store.grants
  does _ w w' := Steps w.store w'.store
  allows _ _ _ := True
  rely_refl _ w := .refl w.store.grants
  rely_trans h h' := h.trans h'
  does_valid hw h := h.sound hw
  does_rely _ _ h := h.grows

section

variable {old new store : Store} {k : Nat} {w : World interface}

theorem Steps.refl (store : Store) : Steps store store := ⟨.refl _, fun h => h⟩

theorem Steps.trans {a b c : Store} (h : Steps a b) (h' : Steps b c) : Steps a c :=
  ⟨h.grows.trans h'.grows, fun hs => h'.sound (h.sound hs)⟩

/-- The anchors stay roots while rows only age. -/
theorem anchors_grow (h : Grows old.grants new.grants) (hsame : new.identities = old.identities)
    (hanchors : ∀ id identity, getIdentity old id = some identity →
      ∃ row, Grant.lookup old.grants identity.anchorGrantId = some row ∧ row.parentId = none) :
    ∀ id identity, getIdentity new id = some identity →
      ∃ row, Grant.lookup new.grants identity.anchorGrantId = some row ∧ row.parentId = none := by
  intro id identity hidentity
  rw [getIdentity, hsame] at hidentity
  obtain ⟨row, hrow, hparent⟩ := hanchors id identity hidentity
  obtain ⟨row', hrow', hage⟩ := h _ row hrow
  exact ⟨row', hrow', hage.parentId_eq.trans hparent⟩

theorem steps_map {f : Grant → Grant} (hf : ∀ row, Grant.Ages row (f row)) :
    Steps store { store with grants := store.grants.map f } := by
  have hstep : GrantStep store.grants (store.grants.map f) := grantStep_map hf
  exact ⟨hstep.grows, fun hs => ⟨hstep.valid hs.valid, attenuated_map hf hs.attenuated,
    @anchors_grow store { store with grants := store.grants.map f } hstep.grows rfl hs.anchors⟩⟩

theorem steps_addGrant {grant : Grant} (h : addGrant old grant = .ok new)
    (hd : Delegable old.grants grant) : Steps old new := by
  simp only [addGrant, bind_ok_iff, pure_ok_iff] at h
  obtain ⟨grants, hinsert, rfl⟩ := h
  have hstep := grantStep_insert hinsert
  exact ⟨hstep.grows, fun hs => ⟨hstep.valid hs.valid,
    attenuated_insert hs.valid hs.attenuated hinsert hd,
    @anchors_grow old { old with grants } hstep.grows rfl hs.anchors⟩⟩

theorem delegable_root {grants : List Grant} {id : GrantId} {accountId : AccountId}
    {policy : GrantPolicy} {expiresAt : Instant} :
    Delegable grants (rootGrant id accountId policy expiresAt) :=
  fun _ hparent => nomatch hparent

/-- The root that was just inserted. -/
theorem lookup_addGrant {grant : Grant} (h : addGrant old grant = .ok new) :
    Grant.lookup new.grants grant.id = some grant := by
  simp only [addGrant, insertGrant, bind_ok_iff, refuse_ok_iff, pure_ok_iff] at h
  obtain ⟨grants, ⟨-, hfree, -, -, -, -, rfl⟩, rfl⟩ := h
  have hnone : Grant.lookup old.grants grant.id = none := by simpa using hfree
  show Grant.lookup (old.grants ++ [grant]) grant.id = some grant
  simp only [Grant.lookup, Table.get_append] at hnone ⊢
  simp [hnone]

theorem steps_accounts {accounts : List Account} : Steps store { store with accounts } :=
  ⟨.refl _, fun hs => ⟨hs.valid, hs.attenuated, hs.anchors⟩⟩

theorem steps_insertAccount {account : Account} (h : insertAccount old account = .ok new) :
    Steps old new := by
  simp only [insertAccount, bind_ok_iff, pure_ok_iff] at h
  obtain ⟨-, -, rfl⟩ := h
  exact steps_accounts

/-! ## Transactions -/

theorem steps_bootstrap {accountId : AccountId} {grantId : GrantId} {policy : GrantPolicy}
    {expiresAt : Instant} {env : Env} {u : Unit}
    (h : bootstrap accountId grantId policy expiresAt env old = .ok (u, new)) : Steps old new := by
  unfold bootstrap at h
  split at h
  · obtain ⟨-, rfl⟩ := Prod.mk.inj (pure_ok_iff.mp h)
    exact .refl _
  · simp only [bind_ok_iff, pure_ok_iff, Prod.mk.injEq] at h
    obtain ⟨mid, haccount, last, hgrant, -, rfl⟩ := h
    exact (steps_insertAccount haccount).trans (steps_addGrant hgrant delegable_root)

theorem steps_admitCustomer {githubUserId : GithubUserId} {policy : GrantPolicy}
    {expiresAt : Instant} {env : Env} {u : Unit}
    (h : admitCustomer githubUserId policy expiresAt env old = .ok (u, new)) : Steps old new := by
  simp only [admitCustomer, bind_ok_iff, pure_ok_iff, Prod.mk.injEq] at h
  obtain ⟨-, -, -, -, -, -, mid, haccount, last, hgrant, -, rfl⟩ := h
  have hsteps := (steps_insertAccount haccount).trans (steps_addGrant hgrant delegable_root)
  refine ⟨hsteps.grows, fun hs => ?_⟩
  obtain ⟨hvalid, hattenuated, hanchors⟩ := hsteps.sound hs
  refine ⟨hvalid, hattenuated, fun id identity hidentity => ?_⟩
  simp only [getIdentity, Table.get_append, Option.or_eq_some_iff] at hidentity
  rcases hidentity with hidentity | ⟨-, hidentity⟩
  · exact hanchors id identity hidentity
  · split at hidentity
    · obtain rfl := Option.some.inj hidentity
      exact ⟨_, lookup_addGrant hgrant, rfl⟩
    · cases hidentity

theorem steps_renewCustomer {githubUserId : GithubUserId} {expectedAnchorGrantId : GrantId}
    {policy : GrantPolicy} {expiresAt : Instant} {env : Env} {u : Unit}
    (h : renewCustomer githubUserId expectedAnchorGrantId policy expiresAt env old = .ok (u, new)) :
    Steps old new := by
  simp only [renewCustomer, bind_ok_iff, pure_ok_iff, Prod.mk.injEq] at h
  obtain ⟨-, -, identity, -, account, -, -, -, -, -, -, -, last, hgrant, -, rfl⟩ := h
  have hretire : Steps old { old with grants := retireAnchor old.grants expectedAnchorGrantId env.now } :=
    steps_map (ages_update (ages_retired env.now) expectedAnchorGrantId)
  have hsteps := hretire.trans (steps_addGrant hgrant delegable_root)
  refine ⟨hsteps.grows, fun hs => ?_⟩
  obtain ⟨hvalid, hattenuated, hanchors⟩ := hsteps.sound hs
  refine ⟨hvalid, hattenuated, fun id found hfound => ?_⟩
  have hget : getIdentity last id = Table.get Identity.githubUserId last.identities id := rfl
  simp only [getIdentity] at hfound
  have hkey : ∀ identity : Identity, Identity.githubUserId
      { identity with anchorGrantId := env.freshGrant } = identity.githubUserId := fun _ => rfl
  rw [Table.get_update hkey] at hfound
  split at hfound
  · obtain ⟨before, -, rfl⟩ := Option.map_eq_some_iff.mp hfound
    exact ⟨_, lookup_addGrant hgrant, rfl⟩
  · exact hanchors id found (hget.trans hfound)

theorem steps_revokeGrant {principal : Principal} {grantId : GrantId} {env : Env} {u : Unit}
    (h : revokeGrant principal grantId env old = .ok (u, new)) : Steps old new := by
  simp only [revokeGrant, bind_ok_iff, pure_ok_iff, Prod.mk.injEq, Prod.exists] at h
  obtain ⟨-, -, accountId, grants, hrevoked, -, rfl⟩ := h
  obtain ⟨rfl, -⟩ := revokedGrants_ok hrevoked
  exact steps_map (ages_update (ages_markRevoked accountId env.now) grantId)

theorem steps_disableCustomer {githubUserId : GithubUserId} {env : Env} {u : Unit}
    (h : disableCustomer githubUserId env old = .ok (u, new)) : Steps old new := by
  simp only [disableCustomer, bind_ok_iff, pure_ok_iff, Prod.mk.injEq] at h
  obtain ⟨identity, -, -, -, -, rfl⟩ := h
  exact steps_map (ages_update (ages_retired env.now) identity.anchorGrantId)

/-! ## Delegated rows -/

/-- The delegation is one row deeper than the authority it was issued under. -/
theorem delegable_delegatedGrant {grants : List Grant} (hs : Attenuated grants) {now : Instant}
    {id principalGrantId : GrantId} {policy : GrantPolicy} {expiresAt : Instant} {grant : Grant}
    (h : delegatedGrant grants now id principalGrantId policy expiresAt = .ok grant) :
    Delegable grants grant := by
  simp only [delegatedGrant, bind_ok_iff, refuse_ok_iff, pure_ok_iff, not_or, Nat.not_lt,
    Nat.not_le] at h
  obtain ⟨authority, hload, -, -, -, hdepth, _, hsubset, -, hexpires, rfl⟩ := h
  obtain ⟨row, hrow, hprincipal, hle, hlength⟩ := loadAuthority_row hload
  obtain ⟨n, hn, hdepthOf⟩ := hs.depth principalGrantId row hrow
  rw [hdepthOf.chain_length hn] at hlength
  intro parent hparent
  have hid : authority.principal.grantId = parent := Option.some.inj hparent
  rw [hprincipal] at hid
  obtain rfl : principalGrantId = parent := hid
  refine ⟨row, n, hrow, ?_, Nat.le_trans hexpires.1 hle, hdepthOf, by omega⟩
  have hwithin := assertPolicySubset_ok hsubset
  rwa [hprincipal] at hwithin

/-- A sign-in is one row below an anchor. -/
theorem delegable_loginGrant {grants : List Grant} {now : Instant} {id : GrantId}
    {accountId : AccountId} {anchorId : GrantId} {grant root : Grant}
    (hroot : Grant.lookup grants anchorId = some root) (hnone : root.parentId = none)
    (h : loginGrant grants now id accountId anchorId = .ok grant) : Delegable grants grant := by
  simp only [loginGrant, bind_ok_iff, pure_ok_iff] at h
  obtain ⟨authority, hload, -, -, rfl⟩ := h
  obtain ⟨row, hrow, hprincipal, hle, -⟩ := loadAuthority_row hload
  obtain rfl : root = row := Option.some.inj (hroot.symm.trans hrow)
  intro parent hparent
  obtain rfl : anchorId = parent := Option.some.inj hparent
  refine ⟨root, 1, hroot, ?_, Nat.le_trans (Nat.min_le_left _ _) hle, .root hroot hnone, by omega⟩
  rw [hprincipal]
  exact .refl root.policy

/-! ## Programs -/

theorem safe_transact {α : Type} {Q : α → World interface → Prop}
    {t : Env → Store → Except Fault (α × Store)}
    (h : ∀ (v : World interface) env a s, Grows w.store.grants v.store.grants → Sound v.store →
      t env v.store = .ok (a, s) → Steps v.store s ∧ Q a (v.put s)) :
    Safe contract k (Ends Q) (Prog.transact (S := interface) t) w :=
  Safe.commit fun v env a s hv hvalid hok => h v env a s hv hvalid hok

theorem safe_steps {t : Env → Store → Except Fault (Unit × Store)}
    (h : ∀ env old new u, t env old = .ok (u, new) → Steps old new) :
    Safe contract k (Ends fun _ _ => True) (Prog.transact (S := interface) t) w :=
  safe_transact fun _ _ _ _ _ _ hok => ⟨h _ _ _ _ hok, trivial⟩

theorem safe_issueGrant {principal : Principal} {policy : GrantPolicy} {expiresAt : Instant} :
    Safe contract k (Ends fun _ _ => True) (issueGrant principal policy expiresAt) w := by
  refine Safe.seq (Q := fun grant (v : World interface) => Delegable v.store.grants grant)
    (safe_transact fun v env grant s _ hs hok => ?_) fun grant v hd => ?_
  · simp only [bind_ok_iff, pure_ok_iff, Prod.mk.injEq] at hok
    obtain ⟨_, hgrant, rfl, rfl⟩ := hok
    exact ⟨.refl _, delegable_delegatedGrant hs.attenuated hgrant⟩
  · refine safe_transact fun u env _ s hu hs hok => ?_
    simp only [bind_ok_iff, pure_ok_iff, Prod.mk.injEq] at hok
    obtain ⟨_, hadd, -, rfl⟩ := hok
    exact ⟨steps_addGrant hadd (hu.delegable hd), trivial⟩

theorem safe_prepareLogin {identity : Identity} {request : LoginRequest} {root : Grant}
    (hroot : Grant.lookup w.store.grants identity.anchorGrantId = some root)
    (hnone : root.parentId = none) :
    Safe contract k (Ends fun got (v : World interface) => ∀ grant ∈ got, Delegable v.store.grants grant)
      (Prog.transact (S := interface) (prepareLogin identity request)) w := by
  refine safe_transact fun v env got s hv hs hok => ?_
  obtain ⟨root', hroot', hage⟩ := hv _ root hroot
  simp only [prepareLogin, bind_ok_iff] at hok
  obtain ⟨-, -, authority, -, hok⟩ := hok
  cases hlogin : getLogin v.store request.id with
  | some existing =>
    simp only [hlogin, bind_ok_iff, pure_ok_iff, Prod.mk.injEq] at hok
    obtain ⟨-, -, rfl, rfl⟩ := hok
    refine ⟨.refl _, ?_⟩
    intro grant hgrant
    cases hgrant
  | none =>
    simp only [hlogin, bind_ok_iff, pure_ok_iff, Prod.mk.injEq] at hok
    obtain ⟨-, -, grant, hgrant, rfl, rfl⟩ := hok
    refine ⟨.refl _, fun found hfound => ?_⟩
    obtain rfl := Option.some.inj hfound
    exact delegable_loginGrant hroot' (hage.parentId_eq.trans hnone) hgrant

theorem safe_login {token : String} {request : LoginRequest} :
    Safe contract k (Ends fun _ _ => True) (login token request) w := by
  refine Safe.seq (Q := fun _ _ => True) (Safe.ask fun v hv hs r _ => ⟨.refl _, trivial⟩)
    fun verified v _ => ?_
  refine Safe.seq (Q := fun _ _ => True) (Safe.ofExcept fun _ _ => trivial) fun githubUserId v _ => ?_
  refine Safe.seq (Q := fun got (v : World interface) => ∀ identity ∈ got, ∃ row,
      Grant.lookup v.store.grants identity.anchorGrantId = some row ∧ row.parentId = none)
    (Safe.read (fun _ => .refl _) fun v _ hs => fun identity hidentity =>
      hs.anchors githubUserId identity hidentity) fun got v hanchor => ?_
  cases got with
  | none => trivial
  | some identity =>
    obtain ⟨root, hroot, hnone⟩ := hanchor identity rfl
    refine Safe.seq (safe_prepareLogin hroot hnone) fun prepared v hd => ?_
    cases prepared with
    | none => exact Safe.ends trivial
    | some grant =>
      refine safe_transact fun u env _ s hu hs hok => ?_
      simp only [recordLogin, bind_ok_iff, pure_ok_iff, Prod.mk.injEq] at hok
      obtain ⟨mid, hadd, -, -, -, rfl⟩ := hok
      have hsteps := steps_addGrant hadd (hu.delegable (hd grant rfl))
      refine ⟨⟨hsteps.grows, fun hs => ?_⟩, trivial⟩
      obtain ⟨hvalid, hattenuated, hanchors⟩ := hsteps.sound hs
      exact ⟨hvalid, hattenuated, hanchors⟩

theorem delegation_discipline : Discipline system contract where
  job_safe {k p w} hjob _ := by
    have hdone : ∀ {p : Program Unit}, Safe contract k (Ends fun _ _ => True) p w →
        Safe contract k (fun _ _ => True) p w := fun h => h.mono fun _ _ _ => trivial
    apply hdone
    cases hjob with
    | bootstrap accountId grantId policy expiresAt =>
      exact safe_steps fun _ _ _ _ hok => steps_bootstrap hok
    | admitCustomer githubUserId policy expiresAt =>
      exact safe_steps fun _ _ _ _ hok => steps_admitCustomer hok
    | login token request => exact safe_login
    | issueGrant principal policy expiresAt => exact safe_issueGrant
    | revokeGrant principal grantId => exact safe_steps fun _ _ _ _ hok => steps_revokeGrant hok
    | disableCustomer githubUserId => exact safe_steps fun _ _ _ _ hok => steps_disableCustomer hok
    | renewCustomer githubUserId expected policy expiresAt =>
      exact safe_steps fun _ _ _ _ hok => steps_renewCustomer hok
    | beginRecovery =>
      refine safe_steps fun env old new u hok => ?_
      obtain ⟨-, rfl⟩ := Prod.mk.inj (Except.ok.inj hok)
      exact steps_map (ages_retired env.now)
  other_valid _ h := h.elim
  other_rely _ h := h.elim
  allows _ _ := trivial

end

/-! ## Runs -/

/-- **Delegation attenuation.**  In every store that any run of sign-ins, renewals, delegations,
    revocations and admissions reaches from a sound one: a grant is contained in each of its
    ancestors, in policy, expiry and account; it is at most 32 rows deep; and it has a root of its
    account and currency, which authorizes whatever it authorizes. -/
theorem delegation_attenuated {start : World interface} (hstart : Sound start.store)
    {c : Config interface Nat} (hreach : system.Reach (.idle start) c) {d : GrantId} {row : Grant}
    (hrow : Grant.lookup c.world.store.grants d = some row) :
    (∀ g above, Ancestor c.world.store.grants d g →
      Grant.lookup c.world.store.grants g = some above → row.Within above) ∧
    (∃ n, n ≤ 32 ∧ DepthOf c.world.store.grants d n) ∧
    ∃ r root, Ancestor c.world.store.grants d r ∧
      Grant.lookup c.world.store.grants r = some root ∧ root.parentId = none ∧
      row.accountId = root.accountId ∧ row.policy.currency = root.policy.currency ∧
      ∀ capability projectId,
        authorize ⟨row.accountId, d, row.policy⟩ capability projectId = .ok () →
        authorize ⟨root.accountId, r, root.policy⟩ capability projectId = .ok () := by
  have hsound : Sound c.world.store :=
    (delegation_discipline.inOrder (Discipline.inOrder_idle hstart) hreach).1
  obtain ⟨n, hn, hdepth⟩ := hsound.attenuated.depth d row hrow
  obtain ⟨r, root, hanc, hroot, hnone⟩ := hdepth.root_above
  have hwithin := hsound.attenuated.ancestor hanc hrow hroot
  refine ⟨fun g above hg habove => hsound.attenuated.ancestor hg hrow habove, ⟨n, hn, hdepth⟩, r,
    root, hanc, hroot, hnone, hwithin.accountId, hwithin.policy.currency, fun _ _ hok => ?_⟩
  rw [hwithin.accountId] at hok
  exact hwithin.policy.authorize hok

/-! ## A customer who signs in and delegates -/

namespace Demo

def start : World interface := ⟨⟨[], [], [], []⟩, []⟩

theorem start_sound : Sound start.store :=
  ⟨validGrants_of_rows .nil (fun _ h => (nomatch h)),
    ⟨fun _ _ _ _ h => (nomatch h), fun _ _ h => (nomatch h)⟩, fun _ _ h => (nomatch h)⟩

def policy (capabilities : List Capability) : GrantPolicy :=
  { capabilities
    projects := .all
    sizes := [.small]
    regions := [.nbg1]
    maxMachines := 2
    currency := "EUR"
    maxHourlyMicros := 1000 }

def admitted : GrantPolicy := policy [.machineRead, .grantManage]

/-- Identifiers are drawn by counting the rows. -/
def env (w : World interface) : Env :=
  { now := 1000
    freshGrant := "grant " ++ toString w.store.grants.length
    freshAccount := "acct" }

def reply : World interface → (c : Call) → c.Reply
  | _, .verify _ => .ok "42"

def run (p : Program Unit) (w : World interface) : World interface := (p.run env reply w).2

def customer : World interface := run (Prog.transact (admitCustomer "42" admitted 100000000)) start
def signedIn : World interface := run (login "token" ⟨"login", "hash"⟩) customer
def delegated : World interface :=
  run (issueGrant ⟨"acct", "grant 1", admitted⟩ (policy [.machineRead]) 50000000) signedIn

theorem delegated_reachable : system.Reach (.idle start) (.idle delegated) := by
  have hjob : ∀ k p w, Job k p → system.Reach (.idle w) (.idle (run p w)) :=
    fun k p w h => System.reach_job _ k _ reply (fun _ _ => trivial) p w h
  have h₁ := hjob 0 _ start (.admitCustomer 0 "42" admitted 100000000)
  have h₂ := hjob 0 _ customer (.login 0 "token" ⟨"login", "hash"⟩)
  have h₃ := hjob 0 _ signedIn (.issueGrant 0 ⟨"acct", "grant 1", admitted⟩ (policy [.machineRead]) 50000000)
  exact (h₁.trans h₂).trans h₃

def leaf : Grant :=
  ⟨"grant 2", "acct", some "grant 1", policy [.machineRead], 50000000, none⟩

theorem leaf_found : Grant.lookup delegated.store.grants "grant 2" = some leaf := by decide +kernel

end Demo

theorem delegation_attenuated_demo :
    ∃ n, n ≤ 32 ∧ DepthOf Demo.delegated.store.grants "grant 2" n :=
  (delegation_attenuated Demo.start_sound Demo.delegated_reachable Demo.leaf_found).2.1

end AgentCloud.Delegation
