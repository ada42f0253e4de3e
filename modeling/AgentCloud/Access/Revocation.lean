/-
  REVOCATION CLOSES A SUBTREE, for ever, and nothing beside it.

  Whoever holds a grant `d` below a revoked `g` is stopped by `loadAuthority`, which reads the whole
  chain again at every use.  So nothing here depends on how far the revocation's own closure of
  sessions got, on how deep `d` lies below `g`, or on whether `d` was inserted before or after:
  its chain goes through `g` in the table that is read.

  `Frozen` is the common reason why a session can gain nothing more: it is closed, or its grant
  does not load.  `frozen_run` is the run lemma for both.
-/
import AgentCloud.Access.Workers

namespace AgentCloud.Access

open Checked Durable

section

variable {config : ServiceConfig} {k : Slot}

/-! ## Frozen sessions -/

/-- Some row of the grant's chain is revoked. -/
def Revoked (grants : List Grant) (d : GrantId) : Prop :=
  ∃ g row, Ancestor grants d g ∧ Grant.lookup grants g = some row ∧ row.revoked = true

theorem Revoked.refused {grants : List Grant} {d : GrantId} (h : Revoked grants d) (now : Instant) :
    loadAuthority grants now d = .error invalidCredential := by
  obtain ⟨g, row, hanc, hrow, hrevoked⟩ := h
  exact loadAuthority_revoked hanc hrow hrevoked now

theorem Revoked.grows {old new : List Grant} {d : GrantId} (h : Revoked old d)
    (hgrows : Grows old new) : Revoked new d := by
  obtain ⟨g, row, hanc, hrow, hrevoked⟩ := h
  obtain ⟨row', hrow', hage⟩ := hgrows g row hrow
  exact ⟨g, row', hgrows.ancestor hanc, hrow', hage.revoked hrevoked⟩

/-- The session is closed, or its grant is revoked somewhere up its chain. -/
def Frozen (store : Store) (session : Session) : Prop :=
  session.connection.isClosed = true ∨ Revoked store.grants session.grantId

/-- The session has not become issued and has not been claimed. -/
structure Kept (old new : Session) : Prop where
  fixed : new.fixed = old.fixed
  issuance : new.isIssued = true → new.issuance = old.issuance
  connection : (∃ claim, new.connection = .claimed claim) → new.connection = old.connection

theorem Kept.trans {a b c : Session} (h : Kept a b) (h' : Kept b c) : Kept a c := by
  refine ⟨h'.fixed.trans h.fixed, fun hissued => ?_, fun hclaimed => ?_⟩
  · have hbc := h'.issuance hissued
    have hb : b.isIssued = true := by
      simpa only [Session.isIssued, hbc] using hissued
    exact hbc.trans (h.issuance hb)
  · have hbc := h'.connection hclaimed
    exact hbc.trans (h.connection (hbc ▸ hclaimed))

/-- What does not gain is kept. -/
theorem RowStep.kept {grants : List Grant} {old new : Session} (h : RowStep k grants old new)
    (hnone : ¬ Gains old new) : Kept old new := by
  refine ⟨h.moves.fixed, fun hissued => ?_, fun hclaimed => ?_⟩
  · by_contra hne
    exact hnone (.inl ⟨hissued, hne⟩)
  · by_contra hne
    exact hnone (.inr ⟨hclaimed, hne⟩)

theorem RowStep.frozen {store store' : Store} {old new : Session} (h : RowStep k store.grants old new)
    (hgrows : Grows store.grants store'.grants) (hfrozen : Frozen store old) :
    Kept old new ∧ Frozen store' new := by
  rcases hfrozen with hclosed | hrevoked
  · obtain ⟨hconnection, hissuance⟩ := h.moves.closed hclosed
    refine ⟨h.kept ?_, .inl (hconnection ▸ hclosed)⟩
    rintro (⟨hissued, hne⟩ | ⟨-, hne⟩)
    · exact hne (hissuance hissued)
    · exact hne hconnection
  · refine ⟨h.kept fun hgains => ?_, .inr ?_⟩
    · obtain ⟨now, authority, hload⟩ := h.loads hgains
      rw [hrevoked.refused now] at hload
      cases hload
    · rw [h.moves.grantId_eq]
      exact hrevoked.grows hgrows

/-- **Run lemma.** A frozen session stays frozen, and gains nothing. -/
theorem frozen_run {c c' : Config interface Slot} (hc : Discipline.InOrder signatures.contract c)
    (hreach : (system config).Reach c c') {id : AccessSessionId} {row : Session}
    (hrow : getSession c.world.store id = some row) (hfrozen : Frozen c.world.store row) :
    ∃ row', getSession c'.world.store id = some row' ∧ Kept row row' ∧
      Frozen c'.world.store row' := by
  refine Marks.store_invariant (access_discipline config) (fun _ _ h => h)
    (P := fun store => ∃ row', getSession store id = some row' ∧ Kept row row' ∧ Frozen store row')
    ?_ hc ⟨row, hrow, ⟨rfl, fun _ => rfl, fun _ => rfl⟩, hfrozen⟩ hreach
  intro k store store' _ hP hstep
  obtain ⟨mid, hmid, hkept, hfrozen⟩ := hP
  obtain ⟨last, hlast, hrowstep⟩ := hstep.rows id mid hmid
  obtain ⟨hkept', hfrozen'⟩ := hrowstep.frozen hstep.grants.grows hfrozen
  exact ⟨last, hlast, hkept.trans hkept', hfrozen'⟩

/-! ## The table of a run -/

/-- The grants of a run only grow. -/
theorem grants_run {c c' : Config interface Slot} (hc : Discipline.InOrder signatures.contract c)
    (hreach : (system config).Reach c c') :
    Grows c.world.store.grants c'.world.store.grants :=
  Marks.store_transition (access_discipline config) (fun h => h.elim)
    (T := fun store store' => Grows store.grants store'.grants) (fun store => .refl store.grants)
    (fun h h' => h.trans h') (fun hstep => hstep.grants.grows) hc hreach

/-- The pool step in which `DELETE /v1/grants/<g>` commits. -/
def Revokes (principal : Principal) (g : GrantId) (c c' : Config interface Slot) : Prop :=
  ∃ k next env s, c.running k = some (Prog.commit (revokeGrant principal g) next) ∧
    revokeGrant principal g env c.world.store = .ok ((), s) ∧
    c' = ⟨c.world.put s, Function.update c.running k (some (next (.ok ())))⟩

theorem Revokes.step {principal : Principal} {g : GrantId} {c c' : Config interface Slot}
    (h : Revokes principal g c c') : (system config).Step c c' := by
  obtain ⟨k, next, env, s, here, hok, rfl⟩ := h
  exact .commit k (revokeGrant principal g) next env () s here hok

/-- What the commit leaves: the row of `g` marked, no other row changed, and every session of a
    grant outside the subtree as it was. -/
theorem revokeGrant_ok {principal : Principal} {g : GrantId} {env : Env} {store s : Store}
    (hvalid : ValidGrants store.grants) (h : revokeGrant principal g env store = .ok ((), s)) :
    (∃ row, Grant.lookup s.grants g = some row ∧ row.revoked = true) ∧
    (∀ id, id ≠ g → Grant.lookup s.grants id = Grant.lookup store.grants id) ∧
    (∀ id row, getSession store id = some row → ¬ Ancestor store.grants row.grantId g →
      getSession s id = some row) := by
  simp only [revokeGrant, bind_ok_iff, pure_ok_iff, Prod.mk.injEq, Prod.exists] at h
  obtain ⟨_, -, accountId, grants, hrevoked, closed, hclose, -, rfl⟩ := h
  obtain ⟨rfl, row, hrow, haccount⟩ := revokedGrants_ok hrevoked
  have hstep : GrantStep store.grants (markRevoked store.grants accountId g env.now) :=
    grantStep_markRevoked accountId g env.now
  obtain ⟨hgrants, hsessions, hmoves⟩ := updateSessions_ok hclose
  have hmarked : Grant.lookup closed.grants g = some { row with revokedAt := some env.now } := by
    rw [hgrants, lookup_markRevoked, if_pos rfl, hrow]
    simp [haccount]
  refine ⟨⟨_, hmarked, rfl⟩, fun id hne => ?_, fun id row hget hother => ?_⟩
  · rw [hgrants, lookup_markRevoked, if_neg hne]
  · rw [getSession, hsessions, Table.get_map]
    · simp only [getSession] at hget
      rw [hget, Option.map_some, if_neg]
      rintro hselected
      simp only [decide_eq_true_eq, List.contains_iff_mem] at hselected
      obtain ⟨-, -, hmem⟩ := hselected
      obtain ⟨top, htop, hanc⟩ := ancestor_of_mem_subtree (hstep.valid hvalid).keyed hmem
      simp only [List.mem_map, List.mem_filter, decide_eq_true_eq] at htop
      obtain ⟨root, ⟨-, rfl, -⟩, rfl⟩ := htop
      exact hother (ancestor_of_map (ages_update (ages_markRevoked accountId env.now) root.id) hanc)
    · intro old hm
      split
      · next hs => exact (hmoves old hm hs).id_eq
      · rfl

/-- **Revocation closure.**  After `revokeGrant(g)` commits, in every run from any valid store:
    no grant whose chain reaches `g` loads in any later state, whenever it was inserted; no session
    of such a grant becomes issued or is claimed; and the grants and sessions outside the subtree
    are as before, a grant for as long as none of its own ancestors is revoked. -/
theorem revocation_closes_subtree (config : ServiceConfig) {start : World interface}
    (hstart : Valid start) {c c₁ : Config interface Slot}
    (hbefore : (system config).Reach (.idle start) c) {principal : Principal} {g : GrantId}
    (hrevoke : Revokes principal g c c₁) :
    (∀ c₂, (system config).Reach c₁ c₂ → ∀ d, Ancestor c₂.world.store.grants d g → ∀ now,
      loadAuthority c₂.world.store.grants now d = .error invalidCredential) ∧
    (∀ c₂ c₃, (system config).Reach c₁ c₂ → (system config).Reach c₂ c₃ →
      ∀ id row, getSession c₂.world.store id = some row →
        Ancestor c₂.world.store.grants row.grantId g →
        ∃ row', getSession c₃.world.store id = some row' ∧ Kept row row') ∧
    (∀ id row, getSession c.world.store id = some row →
      ¬ Ancestor c.world.store.grants row.grantId g → getSession c₁.world.store id = some row) ∧
    (∀ e row, Grant.lookup c.world.store.grants e = some row →
      ¬ Ancestor c.world.store.grants e g →
      (∀ now, loadAuthority c₁.world.store.grants now e = loadAuthority c.world.store.grants now e) ∧
      ∀ c₂, (system config).Reach c₁ c₂ →
        (∀ h a b, Ancestor c.world.store.grants e h → Grant.lookup c.world.store.grants h = some a →
          Grant.lookup c₂.world.store.grants h = some b → b.revoked = a.revoked) →
        ∀ now, loadAuthority c₂.world.store.grants now e =
          loadAuthority c.world.store.grants now e) := by
  have hin : Discipline.InOrder signatures.contract c :=
    (access_discipline config).inOrder (Discipline.inOrder_idle hstart) hbefore
  have hin₁ : Discipline.InOrder signatures.contract c₁ := ((access_discipline config).step hin hrevoke.step).1
  have hstep : (system config).Step c c₁ := hrevoke.step
  have hgrows : Grows c.world.store.grants c₁.world.store.grants := grants_run hin (.single hstep)
  obtain ⟨⟨top, htop, hmarked⟩, hothers, hsessions⟩ :
      (∃ row, Grant.lookup c₁.world.store.grants g = some row ∧ row.revoked = true) ∧
      (∀ id, id ≠ g → Grant.lookup c₁.world.store.grants id =
        Grant.lookup c.world.store.grants id) ∧
      (∀ id row, getSession c.world.store id = some row →
        ¬ Ancestor c.world.store.grants row.grantId g → getSession c₁.world.store id = some row) := by
    obtain ⟨k, next, env, s, -, hok, rfl⟩ := hrevoke
    exact revokeGrant_ok hin.1.inv.1 hok
  -- below `g` the chain is revoked in every later table
  have hrevoked : ∀ c₂, (system config).Reach c₁ c₂ → ∀ d,
      Ancestor c₂.world.store.grants d g → Revoked c₂.world.store.grants d := by
    intro c₂ hreach d hanc
    obtain ⟨row, hrow, hage⟩ := grants_run hin₁ hreach g top htop
    exact ⟨g, row, hanc, hrow, hage.revoked hmarked⟩
  refine ⟨fun c₂ hreach d hanc => (hrevoked c₂ hreach d hanc).refused, ?_, hsessions, ?_⟩
  · intro c₂ c₃ hreach hlater id row hrow hanc
    have hin₂ := (access_discipline config).inOrder hin₁ hreach
    obtain ⟨row', hrow', hkept, -⟩ :=
      frozen_run hin₂ hlater hrow (.inr (hrevoked c₂ hreach row.grantId hanc))
    exact ⟨row', hrow', hkept⟩
  · intro e row hrow hother
    refine ⟨?_, fun c₂ hreach hkept => ?_⟩
    · -- the one row the commit changed is not on the chain of `e`
      refine hgrows.loadAuthority_eq hin.1.inv.1.parents hrow fun id a b hid ha hb => ?_
      have hne : id ≠ g := by
        rintro rfl
        exact hother hid
      rw [hothers id hne, ha, Option.some.injEq] at hb
      rw [hb]
    · exact (hgrows.trans (grants_run hin₁ hreach)).loadAuthority_eq hin.1.inv.1.parents hrow hkept

end

/-! ## A small tree -/

namespace Demo

def policy : GrantPolicy :=
  { capabilities := [.machineExec, .grantManage]
    projects := .all
    sizes := [.small]
    regions := [.nbg1]
    maxMachines := 1
    currency := "EUR"
    maxHourlyMicros := 1000 }

def grant (id : GrantId) (parentId : Option GrantId) : Grant :=
  { id, accountId := "acct", parentId, policy, expiresAt := 10000000, revokedAt := none }

/-- `root` above `left` and `right`, `leaf` below `left`. -/
def tree : List Grant :=
  [grant "root" none, grant "left" (some "root"), grant "right" (some "root"),
    grant "leaf" (some "left")]

def start : World interface := ⟨⟨tree, [], []⟩, []⟩

theorem start_valid : Valid start where
  inv := ⟨validGrants_of_rows (by unfold Table.Keyed; decide +kernel) (by decide +kernel),
    Table.Keyed.nil, Table.Keyed.nil⟩
  once _ := Nat.zero_le 1
  marked _ h := nomatch h

def config : ServiceConfig :=
  { gateway := ⟨"gw", "wss://gw.example.test", ["192.0.2.0/24"]⟩
    provider := .simulated
    hashToken := fun token => "hash of " ++ token }

def root : Principal := ⟨"acct", "root", policy⟩

def env : Env :=
  { now := 1000
    later := 1001
    clock := 1002
    rows :=
      { accounts := ["acct"]
        machines := []
        unverifiedRestores := []
        activeOperations := []
        allocations := []
        bootstraps := []
        identities := []
        resources := [] }
    machineBusy := false
    freshGrant := "grant"
    freshSession := "access" }

/-- The pool with the revocation of `left` about to commit, and after it. -/
def before : Config interface Slot :=
  ⟨start, Function.update (fun _ => none) (.caller 0)
    (some (Prog.transact (revokeGrant root "left")))⟩

def revoked : Store := ⟨markRevoked tree "acct" "left" 1000, [], []⟩

def after : Config interface Slot :=
  ⟨start.put revoked, Function.update before.running (.caller 0) (some (.done (.ok ())))⟩

theorem before_reachable : (system config).Reach (.idle start) before :=
  .single (.start (Slot.caller 0) _ rfl (Job.revokeGrant 0 root "left"))

theorem after_revokes : Revokes root "left" before after :=
  ⟨.caller 0, Prog.done, env, revoked, by simp [before, Prog.transact], by rfl, rfl⟩

theorem leaf_below_left : Ancestor after.world.store.grants "leaf" "left" :=
  .single ⟨grant "leaf" (some "left"), by decide +kernel, rfl⟩

end Demo

theorem revocation_closes_subtree_demo :
    loadAuthority Demo.after.world.store.grants 2000 "leaf" = .error invalidCredential :=
  (revocation_closes_subtree Demo.config Demo.start_valid Demo.before_reachable
    Demo.after_revokes).1 _ .refl "leaf" Demo.leaf_below_left 2000

end AgentCloud.Access
