/-
  DELEGATED CREDENTIALS: the grants table, and what it takes for a credential to be believed.

  A grant is a row with a parent; the root of an account has none.  `loadAuthority` reads the chain
  from a grant to its root in ONE statement (at most 32 rows) and believes the grant only if every
  row of the chain is unrevoked and unexpired and the walk really ended at a root.  Revoking a grant
  therefore needs no walk over its descendants: it marks one row, and every chain through that row
  stops loading.

  The chain is read by `chain`, which follows the recursive query of the source; `walk` is the loop
  over its rows.  The specification side is `Ancestor`: the reflexive transitive closure of the
  parent relation, with no bound on the depth.  `loadAuthority_ancestor` connects the two: a grant
  that loads has only unrevoked, unexpired ancestors.
-/
import AgentCloud.Contracts
import AgentCloud.Lib.Table
import Mathlib.Logic.Relation
import Mathlib.Logic.Basic

namespace AgentCloud

open Checked

/-! ## Rows -/

structure Grant where
  id : GrantId
  accountId : AccountId
  parentId : Option GrantId
  policy : GrantPolicy
  expiresAt : Instant
  revokedAt : Option Instant
  deriving DecidableEq, Repr

namespace Grant

def revoked (grant : Grant) : Bool := grant.revokedAt.isSome

/-- The row of an identifier; identifiers are primary keys. -/
def lookup (grants : List Grant) (id : GrantId) : Option Grant := Table.get Grant.id grants id

theorem lookup_id {grants : List Grant} {id : GrantId} {grant : Grant}
    (h : lookup grants id = some grant) : grant.id = id := Table.get_key h

end Grant

/-! ## Loading an authority -/

/-- What `loadAuthority` returns. -/
structure Authority where
  principal : Principal
  checkedAt : Instant
  expiresAt : Instant
  delegationDepth : Nat
  deriving DecidableEq, Repr

def invalidCredential : Fault := cloudError .unauthenticated "Credential is invalid or expired."

/-- `WITH RECURSIVE chain`: the row of `id`, then its parents, at most `depth` rows in all. -/
def chain (grants : List Grant) : Nat → GrantId → List Grant
  | 0, _ => []
  | depth + 1, id =>
    match Grant.lookup grants id with
    | none => []
    | some grant =>
      grant :: (match grant.parentId with
        | none => []
        | some parent => chain grants depth parent)

/-- One pass over the chain: every row must be the expected one, of the leaf's account, live, and
    new; the result is the earliest expiry.  A chain that stopped before a root is refused. -/
def walk (accountId : AccountId) (checkedAt : Instant) :
    List Grant → List GrantId → Option GrantId → Instant → Except Fault Instant
  | [], _, none, expiresAt => .ok expiresAt
  | [], _, some _, _ => .error invalidCredential
  | current :: rest, seen, expectedId, expiresAt =>
    if current.id ∈ seen ∨ expectedId ≠ some current.id ∨ current.accountId ≠ accountId ∨
        current.revoked ∨ current.expiresAt ≤ checkedAt then
      .error invalidCredential
    else
      walk accountId checkedAt rest (current.id :: seen) current.parentId
        (min current.expiresAt expiresAt)

def loadAuthority (grants : List Grant) (checkedAt : Instant) (grantId : GrantId) :
    Except Fault Authority :=
  match chain grants 32 grantId with
  | [] => .error invalidCredential
  | leaf :: rest => do
    let expiresAt ← walk leaf.accountId checkedAt (leaf :: rest) [] (some grantId) leaf.expiresAt
    pure
      { principal := ⟨leaf.accountId, leaf.id, leaf.policy⟩
        checkedAt
        expiresAt
        delegationDepth := (leaf :: rest).length }

/-- `SELECT ... FOR UPDATE` of the account's row, which serialises what the account does. -/
def lockAccount (accounts : List AccountId) (accountId : AccountId) : Except Fault Unit :=
  refuse (accountId ∉ accounts) (cloudError .unauthenticated "Account not found.")

def authorize (principal : Principal) (capability : Capability) (projectId : Option ProjectId) :
    Except Fault Unit := do
  refuse (capability ∉ principal.policy.capabilities)
    (cloudError .permissionDenied ("Credential lacks " ++ capability.text ++ "."))
  match projectId, principal.policy.projects with
  | some id, .selected ids => refuse (id ∉ ids) (cloudError .notFound "Resource not found.")
  | _, _ => pure ()

/-! ## Ancestors -/

/-- `parent` is the parent of `child`. -/
def ParentOf (grants : List Grant) (child parent : GrantId) : Prop :=
  ∃ grant, Grant.lookup grants child = some grant ∧ grant.parentId = some parent

/-- The parent chain of `d` reaches `g`. -/
def Ancestor (grants : List Grant) : GrantId → GrantId → Prop :=
  Relation.ReflTransGen (ParentOf grants)

/-- A walk that succeeds has met every row of its chain alive, and ended at a root. -/
theorem walk_ok {accountId : AccountId} {now : Instant} {rows : List Grant} {seen : List GrantId}
    {expected : Option GrantId} {start expiresAt : Instant}
    (h : walk accountId now rows seen expected start = .ok expiresAt) :
    (∀ grant ∈ rows, grant.revoked = false ∧ now < grant.expiresAt ∧ expiresAt ≤ grant.expiresAt ∧
      grant.accountId = accountId ∧ grant.id ∉ seen) ∧ expiresAt ≤ start ∧
    (rows = [] → expected = none) ∧ (∀ last, rows.getLast? = some last → last.parentId = none) := by
  induction rows generalizing seen expected start with
  | nil =>
    cases expected with
    | none => simp_all [walk]
    | some id => simp [walk] at h
  | cons current rest ih =>
    rw [walk] at h
    split at h
    · cases h
    · next hpass =>
      simp only [not_or, not_not, Nat.not_le] at hpass
      obtain ⟨hnew, -, haccount, halive, hlater⟩ := hpass
      obtain ⟨hrows, hstart, hend, hlast⟩ := ih h
      have hle : expiresAt ≤ current.expiresAt := Nat.le_trans hstart (Nat.min_le_left _ _)
      refine ⟨fun grant hg => ?_, Nat.le_trans hstart (Nat.min_le_right _ _), by simp, fun last hl => ?_⟩
      · rcases List.mem_cons.mp hg with rfl | hg
        · exact ⟨by simpa using halive, hlater, hle, haccount, hnew⟩
        · obtain ⟨h₁, h₂, h₃, h₄, h₅⟩ := hrows grant hg
          exact ⟨h₁, h₂, h₃, h₄, fun hs => h₅ (by simp [hs])⟩
      · cases rest with
        | nil => exact (by simpa using hl : current = last) ▸ hend rfl
        | cons next rest => exact hlast last (by simpa using hl)

/-- The chain of a grant whose last row is a root contains every ancestor. -/
theorem ancestor_mem_chain {grants : List Grant} {d g : GrantId} (h : Ancestor grants d g) :
    ∀ depth : Nat, (∀ last, (chain grants depth d).getLast? = some last → last.parentId = none) →
      chain grants depth d ≠ [] → ∃ grant ∈ chain grants depth d, grant.id = g := by
  induction h using Relation.ReflTransGen.head_induction_on with
  | refl =>
    intro depth _ hne
    cases depth with
    | zero => exact absurd rfl hne
    | succ depth =>
      cases hl : Grant.lookup grants g with
      | none => simp [chain, hl] at hne
      | some grant => exact ⟨grant, by simp [chain, hl], Grant.lookup_id hl⟩
  | @head child parent hp _ ih =>
    intro depth hlast hne
    obtain ⟨grant, hl, hparent⟩ := hp
    cases depth with
    | zero => exact absurd rfl hne
    | succ depth =>
      have hc : chain grants (depth + 1) child = grant :: chain grants depth parent := by
        rw [chain, hl]; simp [hparent]
      -- the walk cannot have stopped here: this row still has a parent
      have hrest : chain grants depth parent ≠ [] := by
        intro hnil
        have := hlast grant (by simp [hc, hnil])
        simp [hparent] at this
      obtain ⟨found, hm, hid⟩ := ih depth
        (fun last h' => hlast last (by rw [hc, List.getLast?_cons, h']; rfl)) hrest
      exact ⟨found, by simp [hc, hm], hid⟩

/-- A walk refuses in one way only. -/
theorem walk_error {accountId : AccountId} {now : Instant} {rows : List Grant} {seen : List GrantId}
    {expected : Option GrantId} {start : Instant} {fault : Fault}
    (h : walk accountId now rows seen expected start = .error fault) : fault = invalidCredential := by
  induction rows generalizing seen expected start with
  | nil =>
    cases expected with
    | none => simp [walk] at h
    | some id => simpa [walk] using h.symm
  | cons current rest ih =>
    rw [walk] at h
    split at h
    · simpa using h.symm
    · exact ih h

theorem loadAuthority_error {grants : List Grant} {now : Instant} {d : GrantId} {fault : Fault}
    (h : loadAuthority grants now d = .error fault) : fault = invalidCredential := by
  rw [loadAuthority] at h
  split at h
  · simpa using h.symm
  · next leaf rest hc =>
    cases hw : walk leaf.accountId now (leaf :: rest) [] (some d) leaf.expiresAt with
    | ok expiresAt => simp [hw, bind, Except.bind, pure, Except.pure] at h
    | error inner =>
      have hinner := walk_error hw
      simp only [hw, bind, Except.bind, Except.error.injEq] at h
      exact h ▸ hinner

/-- The principal of a loaded authority is the row it was loaded for. -/
theorem loadAuthority_leaf {grants : List Grant} {now : Instant} {d : GrantId}
    {authority : Authority} (h : loadAuthority grants now d = .ok authority) :
    authority.principal.grantId = d ∧ ∃ row, Grant.lookup grants d = some row ∧
      row.accountId = authority.principal.accountId := by
  rw [loadAuthority] at h
  split at h
  · cases h
  · next leaf rest hc =>
    obtain ⟨expiresAt, -, hr⟩ := bind_ok_iff.mp h
    rw [chain] at hc
    split at hc
    · cases hc
    · next row hrow =>
      obtain ⟨rfl, -⟩ := List.cons.inj hc
      simp only [pure_ok_iff] at hr
      subst hr
      exact ⟨Grant.lookup_id hrow, row, hrow, rfl⟩

theorem loadAuthority_checkedAt {grants : List Grant} {now : Instant} {d : GrantId}
    {authority : Authority} (h : loadAuthority grants now d = .ok authority) :
    authority.checkedAt = now := by
  rw [loadAuthority] at h
  split at h
  · cases h
  · obtain ⟨expiresAt, -, hr⟩ := bind_ok_iff.mp h
    simp only [pure_ok_iff] at hr
    rw [← hr]

/-- The rows of a chain are rows of the table. -/
theorem mem_of_mem_chain {grants : List Grant} {depth : Nat} {d : GrantId} {grant : Grant}
    (h : grant ∈ chain grants depth d) : Grant.lookup grants grant.id = some grant := by
  induction depth generalizing d with
  | zero => simp [chain] at h
  | succ depth ih =>
    rw [chain] at h
    split at h
    · simp at h
    · next row hl =>
      rcases List.mem_cons.mp h with rfl | h
      · rwa [Grant.lookup_id hl]
      · split at h
        · simp at h
        · exact ih h

/-- **Every ancestor of a believed grant is live.** -/
theorem loadAuthority_ancestor {grants : List Grant} {now : Instant} {d g : GrantId}
    {authority : Authority} (h : loadAuthority grants now d = .ok authority)
    (hg : Ancestor grants d g) :
    ∃ grant, Grant.lookup grants g = some grant ∧ grant.revoked = false ∧ now < grant.expiresAt ∧
      authority.expiresAt ≤ grant.expiresAt := by
  rw [loadAuthority] at h
  split at h
  · cases h
  · next leaf rest hc =>
    obtain ⟨expiresAt, hw, hr⟩ := bind_ok_iff.mp h
    obtain ⟨hrows, -, -, hlast⟩ := walk_ok hw
    obtain ⟨grant, hm, rfl⟩ := ancestor_mem_chain hg 32 (by rwa [hc]) (by simp [hc])
    obtain ⟨h₁, h₂, h₃, -⟩ := hrows grant (hc ▸ hm)
    simp only [pure_ok_iff] at hr
    exact ⟨grant, mem_of_mem_chain hm, h₁, h₂, hr ▸ h₃⟩

end AgentCloud
