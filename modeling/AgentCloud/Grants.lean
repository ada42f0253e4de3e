/-
  THE WRITERS OF THE GRANT TABLE: issuing, signing in, renewing, revoking.

  Whatever they do, the table only GROWS: a row keeps its parent, its policy and its expiry for
  ever, `revoked_at` is never cleared, and a new row needs a parent that is there already (the
  foreign key).  `Grows` says that, once for all writers; it is a preorder, so it relates the two
  ends of any run.

  Two consequences carry everything about revocation:

  * `loadAuthority_revoked` - a revoked row anywhere on the parent chain of `d` stops `d` from
    loading, at every clock, in every later table;
  * `Grows.loadAuthority_eq` - a grant whose ancestors were not revoked meanwhile loads exactly
    as before, because the chain of an old row never meets a new one.
-/
import AgentCloud.Auth

namespace AgentCloud

open Checked

variable {grants old new : List Grant} {d g : GrantId}

/-! ## Issuing -/

/-- The projects of a child lie within its parent's. -/
def ProjectScope.allows : ProjectScope → ProjectScope → Bool
  | .all, _ => true
  | .selected ids, .selected child => child.all fun id => ids.contains id
  | .selected _, .all => false

def assertPolicySubset (child parent : GrantPolicy) : Except Fault Unit :=
  refuse (¬ parent.projects.allows child.projects ∨ child.currency ≠ parent.currency ∨
      (∃ cap ∈ child.capabilities, cap ∉ parent.capabilities) ∨
      (∃ size ∈ child.sizes, size ∉ parent.sizes) ∨
      (∃ region ∈ child.regions, region ∉ parent.regions) ∨
      parent.maxMachines < child.maxMachines ∨ parent.maxHourlyMicros < child.maxHourlyMicros)
    (cloudError .permissionDenied "A delegated credential cannot exceed its parent policy.")

/-- `INSERT INTO grants`, with the primary key and the foreign key to the parent of the account. -/
def insertGrant (grants : List Grant) (grant : Grant) : Except Fault (List Grant) := do
  refuse (Grant.lookup grants grant.id).isSome (.other "grants_pkey")
  refuse (∃ parent ∈ grant.parentId, ∀ row ∈ Grant.lookup grants parent,
      row.accountId ≠ grant.accountId)
    (.other "grants_account_id_parent_id_grants_account_id_id_fk")
  refuse (∃ parent ∈ grant.parentId, Grant.lookup grants parent = none)
    (.other "grants_account_id_parent_id_grants_account_id_id_fk")
  pure (grants ++ [grant])

/-- `issueGrant` up to its insert: the row a delegation will add. -/
def delegatedGrant (grants : List Grant) (now : Instant) (id principalGrantId : GrantId)
    (policy : GrantPolicy) (expiresAt : Instant) : Except Fault Grant := do
  let authority ← loadAuthority grants now principalGrantId
  authorize authority.principal .grantManage none
  refuse (32 ≤ authority.delegationDepth)
    (cloudError .permissionDenied "The maximum delegation depth is 32.")
  assertPolicySubset policy authority.principal.policy
  refuse (authority.expiresAt < expiresAt ∨ expiresAt ≤ authority.checkedAt)
    (cloudError .invalidInput
      "Expiry must be in the future and no later than any parent credential.")
  pure
    { id
      accountId := authority.principal.accountId
      parentId := some authority.principal.grantId
      policy
      expiresAt
      revokedAt := none }

/-- The row `login` adds under the anchor of an admitted customer. -/
def loginGrant (grants : List Grant) (now : Instant) (id : GrantId) (accountId : AccountId)
    (anchorId : GrantId) : Except Fault Grant := do
  let authority ← loadAuthority grants now anchorId
  let expiresAt := min authority.expiresAt (authority.checkedAt + 30 * 86400000)
  refuse (expiresAt < authority.checkedAt + 60000)
    (cloudError .permissionDenied
      "Customer admission is expiring; ask the operator to renew access.")
  pure
    { id
      accountId
      parentId := some anchorId
      policy := authority.principal.policy
      expiresAt
      revokedAt := none }

/-! ## Revoking -/

/-- The walk of `revokeGrant` from a grant upwards: it meets `ancestor` within `depth` rows. -/
def descends (grants : List Grant) (accountId : AccountId) (ancestor : GrantId) :
    Nat → Option GrantId → Bool
  | _, none => false
  | 0, some _ => false
  | depth + 1, some id =>
    id = ancestor ||
      descends grants accountId ancestor depth
        (((Grant.lookup grants id).filter fun row => row.accountId = accountId).bind
          fun row => row.parentId)

/-- `UPDATE grants SET revoked_at = ... WHERE id = grantId AND account_id = accountId`. -/
def markRevoked (grants : List Grant) (accountId : AccountId) (grantId : GrantId) (now : Instant) :
    List Grant :=
  Table.update Grant.id grants grantId fun row =>
    if row.accountId = accountId then { row with revokedAt := some now } else row

/-- `UPDATE grants SET revoked_at = COALESCE(revoked_at, clock_timestamp()) WHERE id = grantId`,
    by which `disableCustomer` and `renewCustomer` retire an anchor. -/
def retireAnchor (grants : List Grant) (grantId : GrantId) (now : Instant) : List Grant :=
  Table.update Grant.id grants grantId fun row =>
    { row with revokedAt := row.revokedAt.or (some now) }

/-- `UPDATE grants SET revoked_at = ... WHERE revoked_at IS NULL`, when a recovery begins. -/
def revokeAll (grants : List Grant) (now : Instant) : List Grant :=
  grants.map fun row => { row with revokedAt := row.revokedAt.or (some now) }

/-- Any credential may revoke itself; revoking another requires delegation authority. -/
def authorizeRevocation (principal : Principal) (grantId : GrantId) : Except Fault Unit :=
  if grantId = principal.grantId then .ok () else authorize principal .grantManage none

/-- The grants of `revokeGrant`, with the checks before it: who may revoke what. -/
def revokedGrants (grants : List Grant) (now : Instant) (principalGrantId grantId : GrantId) :
    Except Fault (AccountId × List Grant) := do
  let authority ← loadAuthority grants now principalGrantId
  let principal := authority.principal
  authorizeRevocation principal grantId
  refuse (descends grants principal.accountId principal.grantId 32 (some grantId) = false)
    (cloudError .notFound "Credential not found in your delegation tree.")
  pure (principal.accountId, markRevoked grants principal.accountId grantId now)

/-- `WITH RECURSIVE subtree`: the given level, then the children of it, `depth` levels in all. -/
def subtree (grants : List Grant) (accountId : AccountId) : Nat → List GrantId → List GrantId
  | 0, _ => []
  | depth + 1, level =>
    level ++ subtree grants accountId depth
      ((grants.filter fun row =>
        row.accountId = accountId ∧ ∃ parent ∈ row.parentId, parent ∈ level).map Grant.id)

/-! ## What every writer keeps -/

/-- What `loadAuthority` selects of a row: when it was revoked is not part of it. -/
def Grant.observed (grant : Grant) : Grant := { grant with revokedAt := grant.revokedAt.map fun _ => 0 }

@[simp] theorem Grant.observed_id (grant : Grant) : grant.observed.id = grant.id := rfl
@[simp] theorem Grant.observed_accountId (grant : Grant) :
    grant.observed.accountId = grant.accountId := rfl
@[simp] theorem Grant.observed_parentId (grant : Grant) :
    grant.observed.parentId = grant.parentId := rfl
@[simp] theorem Grant.observed_policy (grant : Grant) : grant.observed.policy = grant.policy := rfl
@[simp] theorem Grant.observed_expiresAt (grant : Grant) :
    grant.observed.expiresAt = grant.expiresAt := rfl
@[simp] theorem Grant.observed_revoked (grant : Grant) :
    grant.observed.revoked = grant.revoked := by
  simp [Grant.observed, Grant.revoked]

/-- One row against its older self: only the revocation may have been added. -/
structure Grant.Ages (old new : Grant) : Prop where
  same : { new with revokedAt := old.revokedAt } = old
  revoked : old.revoked = true → new.revoked = true

namespace Grant.Ages

theorem refl (row : Grant) : Grant.Ages row row := ⟨rfl, fun h => h⟩

theorem trans {a b c : Grant} (h : Grant.Ages a b) (h' : Grant.Ages b c) : Grant.Ages a c := by
  refine ⟨?_, fun hr => h'.revoked (h.revoked hr)⟩
  have hb := h'.same
  have ha := h.same
  cases a; cases b; cases c
  simp_all

variable {row row' : Grant}

theorem id_eq (h : Grant.Ages row row') : row'.id = row.id := by rw [← h.same]
theorem parentId_eq (h : Grant.Ages row row') : row'.parentId = row.parentId := by rw [← h.same]

theorem observed_eq (h : Grant.Ages row row') (hr : row'.revoked = row.revoked) :
    row'.observed = row.observed := by
  have hs := h.same
  cases row with
  | mk _ _ _ _ _ a =>
    cases row' with
    | mk _ _ _ _ _ b =>
      cases a <;> cases b <;> simp_all [Grant.observed, Grant.revoked]

end Grant.Ages

/-- A later grant table. -/
def Grows (old new : List Grant) : Prop :=
  ∀ id row, Grant.lookup old id = some row →
    ∃ row', Grant.lookup new id = some row' ∧ Grant.Ages row row'

/-- The foreign key of the parent column. -/
def ParentsExist (grants : List Grant) : Prop :=
  ∀ id row parent, Grant.lookup grants id = some row → row.parentId = some parent →
    ∃ above, Grant.lookup grants parent = some above

theorem Grows.refl (grants : List Grant) : Grows grants grants :=
  fun _ row h => ⟨row, h, .refl row⟩

theorem Grows.trans {a b c : List Grant} (h : Grows a b) (h' : Grows b c) : Grows a c := by
  intro id row hrow
  obtain ⟨mid, hmid, hage⟩ := h id row hrow
  obtain ⟨last, hlast, hage'⟩ := h' id mid hmid
  exact ⟨last, hlast, hage.trans hage'⟩

/-- A rewrite that ages every row. -/
theorem grows_map {f : Grant → Grant} (hf : ∀ row, Grant.Ages row (f row)) :
    Grows grants (grants.map f) := by
  intro id row hrow
  refine ⟨f row, ?_, hf row⟩
  rw [Grant.lookup, Table.get_map fun row _ => (hf row).id_eq]
  exact Option.map_eq_some_iff.mpr ⟨row, hrow, rfl⟩

theorem parentsExist_map {f : Grant → Grant} (hf : ∀ row, Grant.Ages row (f row))
    (h : ParentsExist grants) : ParentsExist (grants.map f) := by
  have hget : ∀ id, Grant.lookup (grants.map f) id = (Grant.lookup grants id).map f :=
    fun id => Table.get_map fun row _ => (hf row).id_eq
  intro id row parent hrow hparent
  rw [hget, Option.map_eq_some_iff] at hrow
  obtain ⟨before, hbefore, rfl⟩ := hrow
  obtain ⟨above, habove⟩ := h id before parent hbefore ((hf before).parentId_eq ▸ hparent)
  exact ⟨f above, by simp [hget, habove]⟩

theorem ages_update {f : Grant → Grant} (hf : ∀ row, Grant.Ages row (f row)) (id : GrantId)
    (row : Grant) : Grant.Ages row (if row.id = id then f row else row) := by
  split
  · exact hf row
  · exact .refl row

theorem ages_markRevoked (accountId : AccountId) (now : Instant) (row : Grant) :
    Grant.Ages row (if row.accountId = accountId then { row with revokedAt := some now } else row) := by
  split
  · exact ⟨rfl, fun _ => rfl⟩
  · exact .refl row

theorem ages_retired (now : Instant) (row : Grant) :
    Grant.Ages row { row with revokedAt := row.revokedAt.or (some now) } :=
  ⟨rfl, fun h => by simp_all [Grant.revoked]⟩

/-- The keys of the table: the primary key, and the foreign key of the parent column. -/
structure ValidGrants (grants : List Grant) : Prop where
  keyed : Table.Keyed Grant.id grants
  parents : ParentsExist grants

/-- The keys, as a check of the rows. -/
theorem validGrants_of_rows (hkeyed : Table.Keyed Grant.id grants)
    (hparents : ∀ row ∈ grants, ∀ parent ∈ row.parentId, (Grant.lookup grants parent).isSome) :
    ValidGrants grants :=
  ⟨hkeyed, fun _ row parent hrow hp =>
    Option.isSome_iff_exists.mp (hparents row (Table.get_mem hrow) parent hp)⟩

/-- A step of the grant table: it grows, and the keys still hold. -/
structure GrantStep (old new : List Grant) : Prop where
  grows : Grows old new
  valid : ValidGrants old → ValidGrants new

theorem GrantStep.refl (grants : List Grant) : GrantStep grants grants :=
  ⟨.refl grants, fun h => h⟩

theorem grantStep_map {f : Grant → Grant} (hf : ∀ row, Grant.Ages row (f row)) :
    GrantStep grants (grants.map f) := by
  refine ⟨grows_map hf, fun h => ⟨?_, parentsExist_map hf h.parents⟩⟩
  have hkeys : (grants.map f).map Grant.id = grants.map Grant.id := by
    simp only [List.map_map]
    exact List.map_congr_left fun row _ => (hf row).id_eq
  rw [Table.Keyed, hkeys]
  exact h.keyed

theorem grantStep_insert {grant : Grant} (h : insertGrant old grant = .ok new) :
    GrantStep old new := by
  simp only [insertGrant, bind_ok_iff, refuse_ok_iff, pure_ok_iff] at h
  obtain ⟨-, hfree, -, -, -, hparent, rfl⟩ := h
  have hkeep : ∀ id row, Grant.lookup old id = some row →
      Grant.lookup (old ++ [grant]) id = some row := by
    intro id row hrow
    simp_all [Grant.lookup]
  refine ⟨fun id row hrow => ⟨row, hkeep id row hrow, .refl row⟩, fun hold =>
    ⟨hold.keyed.insert (by simpa [Grant.lookup] using hfree), ?_⟩⟩
  intro id row parent hrow hp
  cases hin : Grant.lookup old id with
  | some before =>
    obtain rfl : before = row := by
      have := hkeep id before hin
      rw [this] at hrow
      exact Option.some.inj hrow
    obtain ⟨above, habove⟩ := hold.parents id before parent hin hp
    exact ⟨above, hkeep parent above habove⟩
  | none =>
    -- the row of the insert itself, whose parent was checked
    obtain rfl : grant = row := by
      simp only [Grant.lookup, Table.get_append] at hrow hin
      simp only [hin, Option.none_or] at hrow
      split at hrow
      · exact Option.some.inj hrow
      · cases hrow
    cases habove : Grant.lookup old parent with
    | none => exact absurd ⟨parent, hp, habove⟩ hparent
    | some above => exact ⟨above, hkeep parent above habove⟩

theorem grantStep_markRevoked (accountId : AccountId) (grantId : GrantId) (now : Instant) :
    GrantStep grants (markRevoked grants accountId grantId now) :=
  grantStep_map (ages_update (ages_markRevoked accountId now) grantId)

theorem grantStep_retireAnchor (grantId : GrantId) (now : Instant) :
    GrantStep grants (retireAnchor grants grantId now) :=
  grantStep_map (ages_update (ages_retired now) grantId)

theorem grantStep_revokeAll (now : Instant) : GrantStep grants (revokeAll grants now) :=
  grantStep_map (ages_retired now)

/-! ## Chains in a growing table -/

theorem Grows.parentOf (h : Grows old new) {child parent : GrantId}
    (hp : ParentOf old child parent) : ParentOf new child parent := by
  obtain ⟨row, hrow, hparent⟩ := hp
  obtain ⟨row', hrow', hage⟩ := h child row hrow
  exact ⟨row', hrow', hage.parentId_eq.trans hparent⟩

theorem Grows.ancestor (h : Grows old new) (hd : Ancestor old d g) : Ancestor new d g :=
  hd.lift (fun id => id) fun _ _ => h.parentOf

/-- The ancestors of an old row are the ones it always had. -/
theorem Grows.ancestor_of_new (h : Grows old new) (hold : ParentsExist old) {row : Grant}
    (hrow : Grant.lookup old d = some row) (hd : Ancestor new d g) :
    Ancestor old d g ∧ ∃ above, Grant.lookup old g = some above := by
  induction hd with
  | refl => exact ⟨.refl, row, hrow⟩
  | @tail mid top _ hp ih =>
    obtain ⟨hanc, above, habove⟩ := ih
    obtain ⟨later, hlater, hage⟩ := h mid above habove
    obtain ⟨row', hrow', hparent⟩ := hp
    obtain rfl : later = row' := Option.some.inj (hlater.symm.trans hrow')
    have hup : above.parentId = some top := hage.parentId_eq ▸ hparent
    exact ⟨hanc.tail ⟨above, habove, hup⟩, hold mid above top habove hup⟩

/-- A rewrite that only ages rows adds no ancestors. -/
theorem ancestor_of_map {f : Grant → Grant} (hf : ∀ row, Grant.Ages row (f row))
    (h : Ancestor (grants.map f) d g) : Ancestor grants d g := by
  refine h.lift (fun id => id) fun child parent hp => ?_
  obtain ⟨row, hrow, hparent⟩ := hp
  rw [Grant.lookup, Table.get_map fun row _ => (hf row).id_eq, Option.map_eq_some_iff] at hrow
  obtain ⟨before, hbefore, rfl⟩ := hrow
  exact ⟨before, hbefore, (hf before).parentId_eq ▸ hparent⟩

/-- **A revoked ancestor stops a grant.** -/
theorem loadAuthority_revoked {row : Grant} (hd : Ancestor grants d g)
    (hrow : Grant.lookup grants g = some row) (hrevoked : row.revoked = true) (now : Instant) :
    loadAuthority grants now d = .error invalidCredential := by
  cases hload : loadAuthority grants now d with
  | ok authority =>
    obtain ⟨found, hfound, hlive, -⟩ := loadAuthority_ancestor hload hd
    rw [hrow, Option.some.injEq] at hfound
    rw [← hfound, hrevoked] at hlive
    cases hlive
  | error fault =>
    rw [loadAuthority_error hload]

/-- The walk sees rows only through `observed`. -/
theorem walk_observed (accountId : AccountId) (now : Instant) (rows : List Grant)
    (seen : List GrantId) (expected : Option GrantId) (start : Instant) :
    walk accountId now (rows.map Grant.observed) seen expected start =
      walk accountId now rows seen expected start := by
  induction rows generalizing seen expected start with
  | nil => rfl
  | cons row rows ih => simp [walk, ih]

theorem loadAuthority_congr {now : Instant}
    (h : (chain new 32 d).map Grant.observed = (chain old 32 d).map Grant.observed) :
    loadAuthority new now d = loadAuthority old now d := by
  unfold loadAuthority
  cases hnew : chain new 32 d with
  | nil =>
    cases hold : chain old 32 d with
    | nil => rfl
    | cons row rows => simp [hnew, hold] at h
  | cons row rows =>
    cases hold : chain old 32 d with
    | nil => simp [hnew, hold] at h
    | cons row' rows' =>
      rw [hnew, hold] at h
      have hlen : (row :: rows).length = (row' :: rows').length := by
        simpa using congrArg List.length h
      have hwalk := walk_observed row.accountId now (row :: rows) [] (some d) row.expiresAt
      have hwalk' := walk_observed row.accountId now (row' :: rows') [] (some d) row.expiresAt
      rw [h] at hwalk
      have hhead : row.observed = row'.observed := by simpa using (List.cons.inj h).1
      have hid : row.id = row'.id := by simpa using congrArg Grant.id hhead
      have haccount : row.accountId = row'.accountId := by simpa using congrArg Grant.accountId hhead
      have hpolicy : row.policy = row'.policy := by simpa using congrArg Grant.policy hhead
      have hexpires : row.expiresAt = row'.expiresAt := by simpa using congrArg Grant.expiresAt hhead
      simp only [← hwalk, hwalk', hid, hpolicy, hlen, ← haccount, ← hexpires]

/-- The chain of a row whose ancestors kept their revocation state. -/
theorem Grows.chain_eq (h : Grows old new) (hold : ParentsExist old) (depth : Nat) {row : Grant}
    (hrow : Grant.lookup old d = some row)
    (hkept : ∀ id row row', Ancestor old d id → Grant.lookup old id = some row →
      Grant.lookup new id = some row' → row'.revoked = row.revoked) :
    (chain new depth d).map Grant.observed = (chain old depth d).map Grant.observed := by
  induction depth generalizing d row with
  | zero => rfl
  | succ depth ih =>
    obtain ⟨row', hrow', hage⟩ := h d row hrow
    have hobs : row'.observed = row.observed :=
      hage.observed_eq (hkept d row row' .refl hrow hrow')
    simp only [chain, hrow, hrow', hage.parentId_eq, List.map_cons, hobs]
    congr 1
    cases hp : row.parentId with
    | none => rfl
    | some parent =>
      obtain ⟨above, habove⟩ := hold d row parent hrow hp
      exact ih habove fun id a b hid => hkept id a b (.head ⟨row, hrow, hp⟩ hid)

/-- **A grant with no newly revoked ancestor loads exactly as before.** -/
theorem Grows.loadAuthority_eq (h : Grows old new) (hold : ParentsExist old) {row : Grant}
    (hrow : Grant.lookup old d = some row)
    (hkept : ∀ id row row', Ancestor old d id → Grant.lookup old id = some row →
      Grant.lookup new id = some row' → row'.revoked = row.revoked) (now : Instant) :
    loadAuthority new now d = loadAuthority old now d :=
  loadAuthority_congr (h.chain_eq hold 32 hrow hkept)

/-! ## What `revokeGrant` does to the table -/

/-- The walk upwards only returns through rows of the account. -/
theorem descends_row {accountId : AccountId} {ancestor : GrantId} {depth : Nat}
    (h : descends grants accountId ancestor depth (some g) = true) (hne : g ≠ ancestor) :
    ∃ row, Grant.lookup grants g = some row ∧ row.accountId = accountId := by
  cases depth with
  | zero => simp [descends] at h
  | succ depth =>
    simp only [descends, hne, decide_false, Bool.false_or] at h
    cases hrow : Grant.lookup grants g with
    | none => cases depth <;> simp [hrow, descends] at h
    | some row =>
      by_cases ha : row.accountId = accountId
      · exact ⟨row, rfl, ha⟩
      · rw [hrow, Option.filter_some_neg (by simpa using ha)] at h
        cases depth <;> simp [descends] at h

/-- A successful revocation found the row, in the account of the caller, and marked it alone. -/
theorem revokedGrants_ok {now : Instant} {principalGrantId : GrantId} {accountId : AccountId}
    (h : revokedGrants old now principalGrantId g = .ok (accountId, new)) :
    new = markRevoked old accountId g now ∧
      ∃ row, Grant.lookup old g = some row ∧ row.accountId = accountId := by
  simp only [revokedGrants, bind_ok_iff, refuse_ok_iff, pure_ok_iff, Prod.mk.injEq] at h
  obtain ⟨authority, hload, -, -, -, hdesc, haccount, rfl⟩ := h
  subst haccount
  refine ⟨rfl, ?_⟩
  by_cases hself : g = authority.principal.grantId
  · obtain ⟨hid, row, hrow, haccount⟩ := loadAuthority_leaf hload
    exact ⟨row, by rw [hself, hid]; exact hrow, haccount⟩
  · exact descends_row (by simpa using hdesc) hself

theorem lookup_markRevoked {accountId : AccountId} {now : Instant} {id : GrantId} :
    Grant.lookup (markRevoked grants accountId g now) id =
      if id = g then (Grant.lookup grants id).map fun row =>
        if row.accountId = accountId then { row with revokedAt := some now } else row
      else Grant.lookup grants id :=
  Table.get_update fun row => (ages_markRevoked accountId now row).id_eq

/-- The subtree query returns descendants only. -/
theorem ancestor_of_mem_subtree {accountId : AccountId} (hkeyed : Table.Keyed Grant.id grants)
    {depth : Nat} {level : List GrantId} (h : d ∈ subtree grants accountId depth level) :
    ∃ top ∈ level, Ancestor grants d top := by
  induction depth generalizing level with
  | zero => simp [subtree] at h
  | succ depth ih =>
    rcases List.mem_append.mp h with h | h
    · exact ⟨d, h, .refl⟩
    · obtain ⟨mid, hmid, hanc⟩ := ih h
      simp only [List.mem_map, List.mem_filter, decide_eq_true_eq] at hmid
      obtain ⟨row, ⟨hrow, -, parent, hparent, hlevel⟩, rfl⟩ := hmid
      exact ⟨parent, hlevel, hanc.tail ⟨row, hkeyed.get hrow, hparent⟩⟩

end AgentCloud
