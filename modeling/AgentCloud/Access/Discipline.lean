/-
  THE DISCIPLINE OF THE ACCESS SERVICE: what any of its workers may do, whatever the others do.

  There is one issuer slot for every session (the lock `access-session:<id>`), and any number of
  callers: gateways, customers, operators, revocations.  `StoreStep` is one committed transaction,
  seen row by row:

  * the trigger let it through (`Moves`);
  * only the issuer of a session changes its issuance;
  * a session becomes issued or claimed only while its grant loads, in the table of that very
    transaction.

  A signature is asked for by the issuer alone, while the session's row says `attempted`, and never
  twice: `signatures` states that as marks.
-/
import AgentCloud.Access.Service
import AgentCloud.Lib.Once

namespace AgentCloud.Access

open Checked Durable

/-! ## One transaction -/

inductive Slot where
  | issuer (id : AccessSessionId)
  | caller (n : Nat)
  deriving DecidableEq, Repr

/-- The session becomes issued, or claimed. -/
def Gains (old new : Session) : Prop :=
  (new.isIssued = true ∧ new.issuance ≠ old.issuance) ∨
    ((∃ claim, new.connection = .claimed claim) ∧ new.connection ≠ old.connection)

structure RowStep (k : Slot) (grants : List Grant) (old new : Session) : Prop where
  moves : Moves old new
  issuer : new.issuance ≠ old.issuance → k = .issuer old.id
  loads : Gains old new → ∃ now authority, loadAuthority grants now old.grantId = .ok authority

/-- The unique columns of the sessions. -/
structure SessionKeys (sessions : List Session) : Prop where
  ids : Table.Keyed Session.id sessions
  tickets : Table.Keyed Session.ticketHash sessions

structure StoreStep (k : Slot) (old new : Store) : Prop where
  grants : GrantStep old.grants new.grants
  rows : ∀ id row, getSession old id = some row →
    ∃ row', getSession new id = some row' ∧ RowStep k old.grants row row'
  keys : SessionKeys old.sessions → SessionKeys new.sessions

variable {k : Slot} {store store' : Store}

theorem RowStep.refl (grants : List Grant) (row : Session) : RowStep k grants row row := by
  refine ⟨.refl row, fun h => absurd rfl h, fun h => ?_⟩
  rcases h with ⟨-, hne⟩ | ⟨-, hne⟩
  · exact absurd rfl hne
  · exact absurd rfl hne

theorem StoreStep.refl (k : Slot) (store : Store) : StoreStep k store store :=
  ⟨.refl _, fun _ row h => ⟨row, h, .refl _ row⟩, fun h => h⟩

/-- A transaction that only writes grants. -/
theorem storeStep_grants {grants : List Grant} (h : GrantStep store.grants grants) :
    StoreStep k store { store with grants } :=
  ⟨h, fun _ row hrow => ⟨row, hrow, .refl _ row⟩, fun hk => hk⟩

theorem guardEach_each {clock : Instant} {selects : Session → Bool} {f : Session → Session}
    {rows : List Session} (h : guardEach clock selects f rows = .ok ()) :
    ∀ row ∈ rows, selects row = true → guardAccessSession row (f row) clock = .ok () := by
  induction rows with
  | nil => simp
  | cons first rows ih =>
    rw [guardEach] at h
    intro row hm hs
    rcases List.mem_cons.mp hm with rfl | hm
    · rw [if_pos hs, bind_ok_iff] at h
      obtain ⟨_, hfirst, -⟩ := h
      exact hfirst
    · split at h
      · obtain ⟨_, -, hrest⟩ := bind_ok_iff.mp h
        exact ih hrest row hm hs
      · exact ih h row hm hs

theorem guardEach_ok {clock : Instant} {selects : Session → Bool} {f : Session → Session}
    {rows : List Session} (h : guardEach clock selects f rows = .ok ()) :
    ∀ row ∈ rows, selects row = true → Moves row (f row) :=
  fun row hm hs => guardAccessSession_ok (guardEach_each h row hm hs)

theorem updateSessions_ok {clock : Instant} {selects : Session → Bool} {f : Session → Session}
    (h : updateSessions clock selects f store = .ok store') :
    store'.grants = store.grants ∧
    store'.sessions = store.sessions.map (fun row => if selects row then f row else row) ∧
    ∀ row ∈ store.sessions, selects row = true → Moves row (f row) := by
  simp only [updateSessions, bind_ok_iff, refuse_ok_iff, pure_ok_iff] at h
  obtain ⟨_, hguard, _, -, rfl⟩ := h
  exact ⟨rfl, rfl, guardEach_ok hguard⟩

/-- A transaction that writes grants and then updates sessions: what it selects must be a
    permitted change of the row. -/
theorem storeStep_update {grants : List Grant} {clock : Instant} {selects : Session → Bool}
    {f : Session → Session} (hgrants : GrantStep store.grants grants)
    (h : updateSessions clock selects f { store with grants } = .ok store')
    (hrow : ∀ row, getSession store row.id = some row → selects row = true → Moves row (f row) →
      RowStep k store.grants row (f row)) :
    StoreStep k store store' := by
  obtain ⟨hg, hsessions, hmoves⟩ := updateSessions_ok h
  have hkeep : ∀ row ∈ store.sessions,
      Moves row (if selects row then f row else row) := by
    intro row hm
    split
    · next hs => exact hmoves row hm hs
    · exact .refl row
  refine ⟨hg ▸ hgrants, fun id row hget => ?_, fun hk => ?_⟩
  · refine ⟨if selects row then f row else row, ?_, ?_⟩
    · rw [getSession, hsessions, Table.get_map fun row hm => (hkeep row hm).id_eq]
      simp only [getSession] at hget
      simp [hget]
    · split
      · next hs =>
        have hid : row.id = id := Table.get_key hget
        exact hrow row (hid ▸ hget) hs (hmoves row (Table.get_mem hget) hs)
      · exact .refl _ row
  · have hmap : ∀ key : Session → String, (∀ old new, Moves old new → key new = key old) →
        store'.sessions.map key = store.sessions.map key := by
      intro key hkey
      rw [hsessions, List.map_map]
      exact List.map_congr_left fun row hm => hkey row _ (hkeep row hm)
    refine ⟨?_, ?_⟩
    · rw [Table.Keyed, hmap _ fun _ _ hm => hm.id_eq]
      exact hk.ids
    · rw [Table.Keyed, hmap _ fun _ _ hm => hm.ticketHash_eq]
      exact hk.tickets

/-- A closure is anybody's. -/
theorem storeStep_close {grants : List Grant} {clock : Instant} {selects : Session → Bool}
    {reason : CloseReason} {now : Instant} (hgrants : GrantStep store.grants grants)
    (h : updateSessions clock selects
      (fun row => { row with connection := .closed row.connection.claim? reason now })
      { store with grants } = .ok store') : StoreStep k store store' := by
  refine storeStep_update hgrants h fun row _ _ hmoves =>
    ⟨hmoves, fun hne => absurd rfl hne, fun hgains => ?_⟩
  rcases hgains with ⟨-, hne⟩ | ⟨⟨claim, hclaim⟩, -⟩
  · exact absurd rfl hne
  · cases hclaim

theorem storeStep_closeGrantAccess {env : Env} {grants : List Grant} {accountId : AccountId}
    {grantId : GrantId} (hgrants : GrantStep store.grants grants)
    (h : closeGrantAccess env { store with grants } accountId grantId = .ok store') :
    StoreStep k store store' := storeStep_close hgrants h

/-- The issuer gives a session up, or records an attempt: neither issues anything. -/
theorem storeStep_setIssuance {env : Env} {id : AccessSessionId} {issuance : Issuance}
    (h : setIssuance env store id issuance = .ok store')
    (hloads : ∀ row credential, getSession store id = some row → issuance = .issued credential →
      ∃ now authority, loadAuthority store.grants now row.grantId = .ok authority) :
    StoreStep (.issuer id) store store' := by
  refine storeStep_update (GrantStep.refl _) h fun row hget hselected hmoves => ?_
  have hid : row.id = id := by simpa using hselected
  refine ⟨hmoves, fun _ => by rw [hid], fun hgains => ?_⟩
  rcases hgains with ⟨hissued, -⟩ | ⟨-, hne⟩
  · cases issuance with
    | issued credential => exact hloads row credential (hid ▸ hget) rfl
    | _ => cases hissued
  · exact absurd rfl hne

/-- A connection is closed, or claimed while the grant loads. -/
theorem storeStep_setConnection {env : Env} {id : AccessSessionId} {connection : Connection}
    (h : setConnection env store id connection = .ok store')
    (hloads : ∀ row claim, getSession store id = some row → connection = .claimed claim →
      ∃ now authority, loadAuthority store.grants now row.grantId = .ok authority) :
    StoreStep k store store' := by
  refine storeStep_update (GrantStep.refl _) h fun row hget hselected hmoves => ?_
  have hid : row.id = id := by simpa using hselected
  refine ⟨hmoves, fun hne => absurd rfl hne, fun hgains => ?_⟩
  rcases hgains with ⟨-, hne⟩ | ⟨⟨claim, hclaim⟩, -⟩
  · exact absurd rfl hne
  · exact hloads row claim (hid ▸ hget) hclaim

/-! ## The marks -/

/-- What the others may do to the sessions: rows stay, with the columns that never change, and
    nobody else changes the issuance of the issuer's session. -/
def Sees (k : Slot) (old new : Store) : Prop :=
  ∀ id row, getSession old id = some row → ∃ row', getSession new id = some row' ∧
    row'.fixed = row.fixed ∧ (k = .issuer id → row'.issuance = row.issuance)

theorem Sees.refl (k : Slot) (store : Store) : Sees k store store :=
  fun _ row h => ⟨row, h, rfl, fun _ => rfl⟩

theorem Sees.trans {a b c : Store} (h : Sees k a b) (h' : Sees k b c) : Sees k a c := by
  intro id row hrow
  obtain ⟨mid, hmid, hfixed, hown⟩ := h id row hrow
  obtain ⟨last, hlast, hfixed', hown'⟩ := h' id mid hmid
  exact ⟨last, hlast, hfixed'.trans hfixed, fun hk => (hown' hk).trans (hown hk)⟩

theorem StoreStep.sees {j : Slot} (hne : j ≠ k) (h : StoreStep j store store') :
    Sees k store store' := by
  intro id row hrow
  obtain ⟨row', hrow', hstep⟩ := h.rows id row hrow
  refine ⟨row', hrow', hstep.moves.fixed, fun hk => ?_⟩
  by_contra hchanged
  have hj : j = .issuer row.id := hstep.issuer hchanged
  rw [Table.get_key hrow] at hj
  exact hne (hj.trans hk.symm)

/-- An issuance that is not pending does not become pending again. -/
theorem Moves.not_pending {old new : Session} (h : Moves old new) (hold : old.issuance ≠ .pending) :
    new.issuance ≠ .pending := by
  rcases h.issuance with hsame | hfollows
  · rwa [hsame]
  · intro hnew
    rw [hnew] at hfollows
    revert hfollows
    cases old.issuance <;> simp [issuanceFollows]

/-- The session whose signature a call asks for. -/
def Call.signs : Call → Option Session
  | .sign session _ => some session
  | _ => none

/-- The attempted mark that a request carries is the one in the store. -/
def AttemptRecorded (store : Store) (session : Session) : Prop :=
  ∃ row attemptedAt, getSession store session.id = some row ∧
    row.issuance = .attempted attemptedAt ∧ session.issuance = .attempted attemptedAt

/-- Signatures, one for each session: the issuer of the session asks for it, the mark is that the
    session is no longer pending. -/
def signatures : Marks interface AccessSessionId Slot where
  effect c := c.signs.map Session.id
  owner id := .issuer id
  mark store c := ∀ session ∈ c.signs, ∃ row, getSession store session.id = some row ∧
    row.issuance ≠ .pending
  ready store c := ∀ session ∈ c.signs, AttemptRecorded store session
  inv store := ValidGrants store.grants ∧ SessionKeys store.sessions
  writes := StoreStep
  sees := Sees
  sees_refl := Sees.refl
  sees_trans := Sees.trans
  writes_refl := StoreStep.refl
  writes_inv h hstep := ⟨hstep.grants.valid h.1, hstep.keys h.2⟩
  writes_sees _ hne hstep := hstep.sees hne
  writes_mark _ hstep hmark session hsession := by
    obtain ⟨row, hrow, hpending⟩ := hmark session hsession
    obtain ⟨row', hrow', hrowstep⟩ := hstep.rows _ row hrow
    exact ⟨row', hrow', hrowstep.moves.not_pending hpending⟩

/-- How often a signature was asked for a session. -/
abbrev signs (log : List (Exchange interface)) (id : AccessSessionId) : Nat :=
  signatures.count log id

/-- A store that the service can start from. -/
abbrev Valid (w : World interface) : Prop := signatures.Valid w

end AgentCloud.Access
