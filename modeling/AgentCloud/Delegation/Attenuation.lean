/-
  DELEGATION ONLY ATTENUATES.

  One step compares a row with its PARENT, when it is inserted, and nothing else is ever compared.
  Since rows never change and containment is a preorder, that is enough: along any parent chain each
  row is contained in every row above it, up to the root.

  What a program knows between computing a row and inserting it is `Delegable`: the parent is there
  and contains it.  Others only make the table grow, so that stays true.
-/
import AgentCloud.Delegation.Customers

namespace AgentCloud

open Checked Durable

/-! ## Containment -/

/-- What the child may do, the parent may do. -/
structure GrantPolicy.Within (child parent : GrantPolicy) : Prop where
  capabilities : child.capabilities ⊆ parent.capabilities
  projects : parent.projects.allows child.projects = true
  sizes : child.sizes ⊆ parent.sizes
  regions : child.regions ⊆ parent.regions
  maxMachines : child.maxMachines ≤ parent.maxMachines
  currency : child.currency = parent.currency
  maxHourlyMicros : child.maxHourlyMicros ≤ parent.maxHourlyMicros

theorem ProjectScope.allows_refl (scope : ProjectScope) : scope.allows scope = true := by
  cases scope <;> simp [ProjectScope.allows]

theorem ProjectScope.allows_trans {a b c : ProjectScope} (h : b.allows a = true)
    (h' : c.allows b = true) : c.allows a = true := by
  cases c with
  | all => cases a <;> rfl
  | selected ids =>
    cases b with
    | all => cases h'
    | selected mids =>
      cases a with
      | all => cases h
      | selected childs =>
        simp only [ProjectScope.allows, List.all_eq_true, List.contains_iff_mem] at h h' ⊢
        exact fun id hid => h' id (h id hid)

namespace GrantPolicy.Within

theorem refl (policy : GrantPolicy) : policy.Within policy :=
  ⟨fun _ h => h, ProjectScope.allows_refl _, fun _ h => h, fun _ h => h, Nat.le_refl _, rfl,
    Nat.le_refl _⟩

theorem trans {a b c : GrantPolicy} (h : a.Within b) (h' : b.Within c) : a.Within c where
  capabilities := fun _ hm => h'.capabilities (h.capabilities hm)
  projects := ProjectScope.allows_trans h.projects h'.projects
  sizes := fun _ hm => h'.sizes (h.sizes hm)
  regions := fun _ hm => h'.regions (h.regions hm)
  maxMachines := Nat.le_trans h.maxMachines h'.maxMachines
  currency := h.currency.trans h'.currency
  maxHourlyMicros := Nat.le_trans h.maxHourlyMicros h'.maxHourlyMicros

/-- What a contained policy authorizes, the containing one authorizes. -/
theorem authorize {child parent : GrantPolicy} (h : child.Within parent) {accountId : AccountId}
    {childId parentId : GrantId} {capability : Capability} {projectId : Option ProjectId}
    (hok : AgentCloud.authorize ⟨accountId, childId, child⟩ capability projectId = .ok ()) :
    AgentCloud.authorize ⟨accountId, parentId, parent⟩ capability projectId = .ok () := by
  simp only [AgentCloud.authorize, bind_ok_iff, refuse_ok_iff, Decidable.not_not] at hok ⊢
  obtain ⟨-, hcapability, hproject⟩ := hok
  refine ⟨(), h.capabilities hcapability, ?_⟩
  cases projectId with
  | none => cases parent.projects <;> rfl
  | some id =>
    have hprojects := h.projects
    cases hparent : parent.projects with
    | all => rfl
    | selected ids =>
      rw [hparent] at hprojects
      cases hchild : child.projects with
      | all => rw [hchild] at hprojects; cases hprojects
      | selected childs =>
        rw [hchild] at hprojects hproject
        have hmem : id ∈ childs := by simpa using hproject
        simp only [ProjectScope.allows, List.all_eq_true, List.contains_iff_mem] at hprojects
        simpa using hprojects id hmem

end GrantPolicy.Within

theorem assertPolicySubset_ok {child parent : GrantPolicy} {u : Unit}
    (h : assertPolicySubset child parent = .ok u) : child.Within parent := by
  simp only [assertPolicySubset, refuse_ok_iff, not_or, not_exists, not_and, Decidable.not_not,
    Nat.not_lt] at h
  obtain ⟨hprojects, hcurrency, hcapabilities, hsizes, hregions, hmachines, hmicros⟩ := h
  exact ⟨fun _ hm => hcapabilities _ hm, hprojects, fun _ hm => hsizes _ hm,
    fun _ hm => hregions _ hm, hmachines, hcurrency, hmicros⟩

/-- A row and one above it. -/
structure Grant.Within (row above : Grant) : Prop where
  policy : row.policy.Within above.policy
  expiresAt : row.expiresAt ≤ above.expiresAt
  accountId : row.accountId = above.accountId

theorem Grant.Within.refl (row : Grant) : row.Within row := ⟨.refl _, Nat.le_refl _, rfl⟩

theorem Grant.Within.trans {a b c : Grant} (h : a.Within b) (h' : b.Within c) : a.Within c :=
  ⟨h.policy.trans h'.policy, Nat.le_trans h.expiresAt h'.expiresAt, h.accountId.trans h'.accountId⟩

theorem Grant.Ages.within {row row' above above' : Grant} (hrow : Grant.Ages row row')
    (habove : Grant.Ages above above') (h : row.Within above) : row'.Within above' := by
  rw [← hrow.same, ← habove.same] at h
  exact ⟨h.policy, h.expiresAt, h.accountId⟩

/-! ## Depth -/

/-- `n` rows lead from a grant to its root. -/
inductive DepthOf (grants : List Grant) : GrantId → Nat → Prop where
  | root {id : GrantId} {row : Grant} (hrow : Grant.lookup grants id = some row)
      (hparent : row.parentId = none) : DepthOf grants id 1
  | child {id parent : GrantId} {row : Grant} {n : Nat}
      (hrow : Grant.lookup grants id = some row) (hparent : row.parentId = some parent)
      (habove : DepthOf grants parent n) : DepthOf grants id (n + 1)

variable {grants old new : List Grant} {d g : GrantId}

theorem Grows.depthOf {n : Nat} (h : Grows old new) (hd : DepthOf old d n) : DepthOf new d n := by
  induction hd with
  | root hrow hparent =>
    obtain ⟨row', hrow', hage⟩ := h _ _ hrow
    exact .root hrow' (hage.parentId_eq.trans hparent)
  | child hrow hparent _ ih =>
    obtain ⟨row', hrow', hage⟩ := h _ _ hrow
    exact .child hrow' (hage.parentId_eq.trans hparent) ih

/-- A grant of finite depth has a root. -/
theorem DepthOf.root_above {n : Nat} (h : DepthOf grants d n) :
    ∃ r root, Ancestor grants d r ∧ Grant.lookup grants r = some root ∧ root.parentId = none := by
  induction h with
  | @root id row hrow hparent => exact ⟨id, row, .refl, hrow, hparent⟩
  | @child id parent row n hrow hparent _ ih =>
    obtain ⟨r, root, hanc, hroot, hnone⟩ := ih
    exact ⟨r, root, .head ⟨row, hrow, hparent⟩ hanc, hroot, hnone⟩

/-- The chain query sees the whole chain if it is short enough. -/
theorem DepthOf.chain_length {n depth : Nat} (h : DepthOf grants d n) (hle : n ≤ depth) :
    (chain grants depth d).length = n := by
  induction h generalizing depth with
  | root hrow hparent =>
    cases depth with
    | zero => omega
    | succ depth => simp [chain, hrow, hparent]
  | child hrow hparent _ ih =>
    cases depth with
    | zero => omega
    | succ depth => simp [chain, hrow, hparent, ih (by omega : _ ≤ depth)]

/-- What a loaded authority says about the grant's own row. -/
theorem loadAuthority_row {now : Instant} {authority : Authority}
    (h : loadAuthority grants now d = .ok authority) :
    ∃ row, Grant.lookup grants d = some row ∧ authority.principal = ⟨row.accountId, d, row.policy⟩ ∧
      authority.expiresAt ≤ row.expiresAt ∧
      authority.delegationDepth = (chain grants 32 d).length := by
  obtain ⟨row, hrow, -, -, hle⟩ := loadAuthority_ancestor h (.refl : Ancestor grants d d)
  refine ⟨row, hrow, ?_, hle, ?_⟩
  · rw [loadAuthority] at h
    have hchain : ∃ rest, chain grants 32 d = row :: rest := by simp [chain, hrow]
    obtain ⟨rest, hchain⟩ := hchain
    rw [hchain] at h
    simp only [bind_ok_iff, pure_ok_iff] at h
    obtain ⟨-, -, rfl⟩ := h
    rw [Grant.lookup_id hrow]
  · rw [loadAuthority] at h
    split at h
    · cases h
    · next leaf rest hchain =>
      simp only [bind_ok_iff, pure_ok_iff] at h
      obtain ⟨-, -, rfl⟩ := h
      rw [hchain]

/-! ## The invariant of the table -/

structure Attenuated (grants : List Grant) : Prop where
  within : ∀ id row parent above, Grant.lookup grants id = some row → row.parentId = some parent →
    Grant.lookup grants parent = some above → row.Within above
  depth : ∀ id row, Grant.lookup grants id = some row → ∃ n, n ≤ 32 ∧ DepthOf grants id n

/-- A row that may be inserted: its parent, if it has one, contains it and is not too deep. -/
def Delegable (grants : List Grant) (grant : Grant) : Prop :=
  ∀ parent, grant.parentId = some parent → ∃ above n, Grant.lookup grants parent = some above ∧
    grant.policy.Within above.policy ∧ grant.expiresAt ≤ above.expiresAt ∧
    DepthOf grants parent n ∧ n < 32

theorem Grows.delegable {grant : Grant} (h : Grows old new) (hd : Delegable old grant) :
    Delegable new grant := by
  intro parent hparent
  obtain ⟨above, n, habove, hpolicy, hexpires, hdepth, hn⟩ := hd parent hparent
  obtain ⟨above', habove', hage⟩ := h parent above habove
  have hsame := hage.same
  refine ⟨above', n, habove', ?_, ?_, h.depthOf hdepth, hn⟩
  · rw [← hsame] at hpolicy
    exact hpolicy
  · rw [← hsame] at hexpires
    exact hexpires

theorem attenuated_insert {grant : Grant} (hvalid : ValidGrants old) (h : Attenuated old)
    (hinsert : insertGrant old grant = .ok new) (hd : Delegable old grant) : Attenuated new := by
  have hgrows := (grantStep_insert hinsert).grows
  simp only [insertGrant, bind_ok_iff, refuse_ok_iff, pure_ok_iff] at hinsert
  obtain ⟨-, hfree, -, haccount, -, -, rfl⟩ := hinsert
  have hlookup : ∀ id, Grant.lookup (old ++ [grant]) id =
      (Grant.lookup old id).or (if grant.id = id then some grant else none) := fun _ => Table.get_append
  have hkeep : ∀ id row, Grant.lookup old id = some row →
      Grant.lookup (old ++ [grant]) id = some row := by
    intro id row hrow
    rw [hlookup, hrow, Option.some_or]
  -- A row of the new table is an old row, or the inserted one.
  have hcases : ∀ id row, Grant.lookup (old ++ [grant]) id = some row →
      Grant.lookup old id = some row ∨ row = grant := by
    intro id row hrow
    rw [hlookup, Option.or_eq_some_iff] at hrow
    rcases hrow with hrow | ⟨-, hrow⟩
    · exact .inl hrow
    · right
      split at hrow
      · exact (Option.some.inj hrow).symm
      · cases hrow
  constructor
  · intro id row parent above hrow hparent habove
    rcases hcases id row hrow with hold | rfl
    · obtain ⟨above', habove'⟩ := hvalid.parents id row parent hold hparent
      obtain rfl : above' = above := Option.some.inj ((hkeep _ _ habove').symm.trans habove)
      exact h.within id row parent above' hold hparent habove'
    · obtain ⟨above', n, habove', hpolicy, hexpires, -, -⟩ := hd parent hparent
      obtain rfl : above' = above := Option.some.inj ((hkeep _ _ habove').symm.trans habove)
      refine ⟨hpolicy, hexpires, ?_⟩
      by_contra hne
      refine haccount ⟨parent, hparent, fun found hfound => ?_⟩
      obtain rfl : above' = found := Option.some.inj (habove'.symm.trans hfound)
      exact fun heq => hne heq.symm
  · intro id row hrow
    rcases hcases id row hrow with hold | rfl
    · obtain ⟨n, hn, hdepth⟩ := h.depth id row hold
      exact ⟨n, hn, hgrows.depthOf hdepth⟩
    · cases hparent : row.parentId with
      | none => exact ⟨1, by omega, .root hrow hparent⟩
      | some parent =>
        obtain ⟨above, n, -, -, -, hdepth, hn⟩ := hd parent hparent
        exact ⟨n + 1, hn, .child hrow hparent (hgrows.depthOf hdepth)⟩

theorem attenuated_map {f : Grant → Grant} (hf : ∀ row, Grant.Ages row (f row))
    (h : Attenuated grants) : Attenuated (grants.map f) := by
  have hlookup : ∀ id, Grant.lookup (grants.map f) id = (Grant.lookup grants id).map f :=
    fun _ => Table.get_map fun row _ => (hf row).id_eq
  constructor
  · intro id row parent above hrow hparent habove
    rw [hlookup, Option.map_eq_some_iff] at hrow habove
    obtain ⟨before, hbefore, rfl⟩ := hrow
    obtain ⟨aboveBefore, haboveBefore, rfl⟩ := habove
    have hparent' : before.parentId = some parent := (hf before).parentId_eq ▸ hparent
    exact (hf before).within (hf aboveBefore)
      (h.within id before parent aboveBefore hbefore hparent' haboveBefore)
  · intro id row hrow
    rw [hlookup, Option.map_eq_some_iff] at hrow
    obtain ⟨before, hbefore, rfl⟩ := hrow
    obtain ⟨n, hn, hdepth⟩ := h.depth id before hbefore
    exact ⟨n, hn, (grows_map hf).depthOf hdepth⟩

/-- Containment, from a row to any row above it. -/
theorem Attenuated.ancestor (h : Attenuated grants) {row above : Grant} (hd : Ancestor grants d g)
    (hrow : Grant.lookup grants d = some row) (habove : Grant.lookup grants g = some above) :
    row.Within above := by
  induction hd generalizing above with
  | refl =>
    obtain rfl : row = above := Option.some.inj (hrow.symm.trans habove)
    exact .refl row
  | @tail mid top _ hp ih =>
    obtain ⟨between, hbetween, hparent⟩ := hp
    exact (ih hbetween).trans (h.within mid between top above hbetween hparent habove)

end AgentCloud
