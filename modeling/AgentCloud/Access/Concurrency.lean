/-
  THE BOUND ON CONCURRENT ACCESS, over every run of `lockedSystem`.

  `Change` is one step of a holder: it lets rows change at or after the last instant read, each in
  a way that the trigger allows; a row of a machine changes under that machine's lock, or because
  its grant is revoked in the same transaction.  The second half is what a check needs: the row it
  read under the lock is still the row when it is evaluated, or its grant does not load.
-/
import AgentCloud.Access.Reservations

namespace AgentCloud.Access

open Checked Durable

/-! ## The invariant and its steps -/

/-- The row's grant is there, and of the row's account. -/
def Owned (grants : List Grant) (row : Session) : Prop :=
  ∃ grant, Grant.lookup grants row.grantId = some grant ∧ grant.accountId = row.accountId

structure Bounded (board : Board) : Prop where
  grants : ValidGrants board.store.grants
  keys : SessionKeys board.store.sessions
  owned : ∀ row ∈ board.store.sessions, Owned board.store.grants row
  dated : ∀ row ∈ board.store.sessions, Dated row
  grant : ∀ id, reserving (fun row => row.grantId = id) board.clock board.store.sessions ≤ 4
  account : ∀ id, reserving (fun row => row.accountId = id) board.clock board.store.sessions ≤ 20

/-- A row changes at or after `start`, by whoever may change it: `grants` are those after it. -/
structure RowChange (k : Holder) (start : Instant) (grants : List Grant) (old new : Session) :
    Prop where
  timely : new = old ∨ ∃ clock, start ≤ clock ∧ Timely clock old new
  owner : new = old ∨ k = .machine old.machineId ∨ Revoked grants old.grantId

def Updates (k : Holder) (before after : Board) : Prop :=
  ∃ f, after.store.sessions = before.store.sessions.map f ∧
    ∀ row ∈ before.store.sessions, RowChange k before.clock after.store.grants row (f row)

/-- One more session, for which there was room at an instant read on the way. -/
structure Admits (before after : Board) (session : Session) : Prop where
  sessions : after.store.sessions = before.store.sessions ++ [session]
  owned : Owned before.store.grants session
  dated : Dated session
  room : ∃ now, before.clock ≤ now ∧ now ≤ after.clock ∧
    reserving (fun row => row.accountId = session.accountId) now before.store.sessions < 20 ∧
    reserving (fun row => row.accountId = session.accountId ∧ row.grantId = session.grantId) now
      before.store.sessions < 4

structure Change (k : Holder) (before after : Board) : Prop where
  clock : before.clock ≤ after.clock
  grants : GrantStep before.store.grants after.store.grants
  keys : SessionKeys before.store.sessions → SessionKeys after.store.sessions
  sessions : Updates k before after ∨ ∃ session, Admits before after session
  renewed : ∃ ids, after.renewed = before.renewed ++ ids ∧ ∀ id ∈ ids, ∃ row,
    getSession before.store id = some row ∧ Counted before.clock row

variable {k : Holder} {before after : Board}

theorem RowChange.refl {start : Instant} {grants : List Grant} (row : Session) :
    RowChange k start grants row row := ⟨.inl rfl, .inl rfl⟩

section

variable {start : Instant} {grants : List Grant} {old new : Session}

theorem RowChange.fixed (h : RowChange k start grants old new) : new.fixed = old.fixed := by
  rcases h.timely with rfl | ⟨_, -, htimely⟩
  · rfl
  · exact htimely.moves.fixed

theorem RowChange.reserved {later : Instant} (h : RowChange k start grants old new)
    (hclock : start ≤ later) (hnew : isReserved later new = true) : isReserved start old = true := by
  rcases h.timely with rfl | ⟨clock, hbefore, htimely⟩
  · obtain ⟨hopen, htime⟩ := isReserved_iff.mp hnew
    exact isReserved_iff.mpr ⟨hopen, Nat.lt_of_le_of_lt hclock htime⟩
  · exact htimely.reserved hbefore hclock hnew

theorem RowChange.gains (h : RowChange k start grants old new) (hgains : Gains old new) :
    isReserved start old = true := by
  rcases h.timely with rfl | ⟨clock, hbefore, htimely⟩
  · rcases hgains with ⟨-, hne⟩ | ⟨-, hne⟩
    · exact absurd rfl hne
    · exact absurd rfl hne
  · exact htimely.gains hbefore hgains

theorem RowChange.dated (h : RowChange k start grants old new) (hold : Dated old) : Dated new := by
  rcases h.timely with rfl | ⟨clock, -, htimely⟩
  · exact hold
  · exact htimely.dated hold

end

theorem Owned.grows {old new : List Grant} {row row' : Session} (h : Owned old row)
    (hgrows : Grows old new) (hfixed : row'.fixed = row.fixed) : Owned new row' := by
  obtain ⟨grant, hgrant, haccount⟩ := h
  obtain ⟨grant', hgrant', hage⟩ := hgrows _ grant hgrant
  have hid : row'.grantId = row.grantId := by
    show row'.fixed.grantId = row.fixed.grantId
    rw [hfixed]
  have hrow : row'.accountId = row.accountId := by
    show row'.fixed.accountId = row.fixed.accountId
    rw [hfixed]
  have hsame : grant'.accountId = grant.accountId := by rw [← hage.same]
  exact ⟨grant', by rw [hid]; exact hgrant', by rw [hsame, haccount, hrow]⟩

/-- The row of a session after a change: the old row, changed. -/
theorem Change.row (h : Change k before after) {id : AccessSessionId} {row : Session}
    (hrow : getSession before.store id = some row) :
    ∃ row', getSession after.store id = some row' ∧
      RowChange k before.clock after.store.grants row row' := by
  rcases h.sessions with ⟨f, hsessions, hchanges⟩ | ⟨session, hadmits⟩
  · refine ⟨f row, ?_, hchanges row (Table.get_mem hrow)⟩
    have hids : ∀ old ∈ before.store.sessions, (f old).id = old.id := by
      intro old hm
      show (f old).fixed.id = old.fixed.id
      rw [(hchanges old hm).fixed]
    rw [getSession] at hrow ⊢
    rw [hsessions, Table.get_map hids, hrow]
    rfl
  · refine ⟨row, ?_, .refl row⟩
    rw [getSession] at hrow ⊢
    rw [hadmits.sessions, Table.get_append, hrow]
    rfl

/-- The rows that reserve a slot after an update reserved one before. -/
theorem Updates.reserving_le (h : Updates k before after) (hclock : before.clock ≤ after.clock)
    {selects : Session → Bool} (hselects : ∀ old new : Session, new.fixed = old.fixed →
      selects new = selects old) :
    reserving selects after.clock after.store.sessions ≤
      reserving selects before.clock before.store.sessions := by
  obtain ⟨f, hsessions, hchanges⟩ := h
  rw [hsessions]
  refine reserving_map (fun row hm => hselects row (f row) (hchanges row hm).fixed) fun row hm => ?_
  exact (hchanges row hm).reserved hclock

theorem selects_grant (id : GrantId) (old new : Session) (h : new.fixed = old.fixed) :
    decide (new.grantId = id) = decide (old.grantId = id) := by
  have hsame : new.grantId = old.grantId := by
    show new.fixed.grantId = old.fixed.grantId
    rw [h]
  rw [hsame]

theorem selects_account (id : AccountId) (old new : Session) (h : new.fixed = old.fixed) :
    decide (new.accountId = id) = decide (old.accountId = id) := by
  have hsame : new.accountId = old.accountId := by
    show new.fixed.accountId = old.fixed.accountId
    rw [h]
  rw [hsame]

/-- One more session stays within a limit below which the count was. -/
theorem reserving_admitted {selects : Session → Bool} {now later : Instant}
    {sessions : List Session} {session : Session} {limit : Nat} (hlater : now ≤ later)
    (hroom : reserving selects now sessions < limit) :
    reserving selects later (sessions ++ [session]) ≤ limit := by
  have hone : reserving selects later (sessions ++ [session]) ≤
      reserving selects later sessions + 1 := reserving_append
  have hmono : reserving selects later sessions ≤ reserving selects now sessions :=
    reserving_later hlater
  omega

/-- **Step lemma.** Every change keeps the bound. -/
theorem Change.bounded (h : Change k before after) (hb : Bounded before) : Bounded after := by
  rcases h.sessions with hupdates | ⟨session, hadmits⟩
  · obtain ⟨f, hsessions, hchanges⟩ := hupdates
    refine ⟨h.grants.valid hb.grants, h.keys hb.keys, ?_, ?_, fun id => ?_, fun id => ?_⟩
    · intro row hm
      rw [hsessions] at hm
      obtain ⟨old, hold, rfl⟩ := List.mem_map.mp hm
      exact (hb.owned old hold).grows h.grants.grows (hchanges old hold).fixed
    · intro row hm
      rw [hsessions] at hm
      obtain ⟨old, hold, rfl⟩ := List.mem_map.mp hm
      exact (hchanges old hold).dated (hb.dated old hold)
    · exact Nat.le_trans
        (Updates.reserving_le ⟨f, hsessions, hchanges⟩ h.clock (selects_grant id)) (hb.grant id)
    · exact Nat.le_trans
        (Updates.reserving_le ⟨f, hsessions, hchanges⟩ h.clock (selects_account id)) (hb.account id)
  · obtain ⟨now, hnow, hafter, haccount, hgrant⟩ := hadmits.room
    refine ⟨h.grants.valid hb.grants, h.keys hb.keys, ?_, ?_, fun id => ?_, fun id => ?_⟩
    · intro row hm
      rw [hadmits.sessions] at hm
      rcases List.mem_append.mp hm with hm | hm
      · exact (hb.owned row hm).grows h.grants.grows rfl
      · obtain rfl := List.mem_singleton.mp hm
        exact hadmits.owned.grows h.grants.grows rfl
    · intro row hm
      rw [hadmits.sessions] at hm
      rcases List.mem_append.mp hm with hm | hm
      · exact hb.dated row hm
      · obtain rfl := List.mem_singleton.mp hm
        exact hadmits.dated
    · rw [hadmits.sessions]
      by_cases hid : session.grantId = id
      · -- the sessions of a grant are sessions of its account
        refine reserving_admitted hafter (Nat.lt_of_le_of_lt ?_ hgrant)
        refine List.countP_mono_left fun row hm hrow => ?_
        simp only [Bool.and_eq_true, decide_eq_true_eq] at hrow ⊢
        obtain ⟨grant, hgrant, hsame⟩ := hb.owned row hm
        obtain ⟨grant', hgrant', hsame'⟩ := hadmits.owned
        rw [hrow.1, ← hid, hgrant', Option.some.injEq] at hgrant
        exact ⟨⟨by rw [← hsame, ← hgrant, hsame'], hrow.1.trans hid.symm⟩, hrow.2⟩
      · rw [reserving_append_other (by simpa using hid)]
        exact Nat.le_trans (reserving_later h.clock) (hb.grant id)
    · rw [hadmits.sessions]
      by_cases hid : session.accountId = id
      · subst hid
        exact reserving_admitted hafter haccount
      · rw [reserving_append_other (by simpa using hid)]
        exact Nat.le_trans (reserving_later h.clock) (hb.account id)

/-! ## The contract -/

/-- What the others may do to the sessions of a lock: nothing, unless the grant is revoked. -/
structure Under (k : Holder) (before after : Board) : Prop where
  clock : before.clock ≤ after.clock
  grants : Grows before.store.grants after.store.grants
  rows : ∀ id row, getSession before.store id = some row → ∃ row',
    getSession after.store id = some row' ∧ row'.fixed = row.fixed ∧
      (k = .machine row.machineId → row' = row ∨ Revoked after.store.grants row.grantId)

theorem Under.refl (k : Holder) (board : Board) : Under k board board :=
  ⟨Nat.le_refl _, .refl _, fun _ row hrow => ⟨row, hrow, rfl, fun _ => .inl rfl⟩⟩

theorem Under.trans {a b c : Board} (h : Under k a b) (h' : Under k b c) : Under k a c := by
  refine ⟨Nat.le_trans h.clock h'.clock, h.grants.trans h'.grants, fun id row hrow => ?_⟩
  obtain ⟨mid, hmid, hfixed, hkept⟩ := h.rows id row hrow
  obtain ⟨last, hlast, hfixed', hkept'⟩ := h'.rows id mid hmid
  refine ⟨last, hlast, hfixed'.trans hfixed, fun hk => ?_⟩
  rcases hkept hk with rfl | hrevoked
  · exact hkept' hk
  · exact .inr (hrevoked.grows h'.grants)

theorem Change.refl (k : Holder) (board : Board) : Change k board board :=
  ⟨Nat.le_refl _, .refl _, fun h => h,
    .inl ⟨fun row => row, by simp, fun row _ => .refl row⟩, [], by simp, by simp⟩

theorem Change.under {j : Holder} (hne : j ≠ k) (h : Change j before after) :
    Under k before after := by
  refine ⟨h.clock, h.grants.grows, fun id row hrow => ?_⟩
  obtain ⟨row', hrow', hchange⟩ := h.row hrow
  refine ⟨row', hrow', hchange.fixed, fun hk => ?_⟩
  rcases hchange.owner with hsame | hj | hrevoked
  · exact .inl hsame
  · exact absurd (hj.trans hk.symm) hne
  · exact .inr hrevoked

/-- A check adds a session that is counted. -/
theorem Change.renew (h : Change k before after) (hsame : after.renewed = before.renewed)
    {id : AccessSessionId} {row : Session} (hrow : getSession before.store id = some row)
    (hcounted : Counted before.clock row) :
    Change k before { after with renewed := after.renewed ++ [id] } := by
  refine ⟨h.clock, h.grants, h.keys, ?_, [id], by rw [hsame], fun id' hid => ?_⟩
  · rcases h.sessions with hupdates | ⟨session, hadmits⟩
    · exact .inl hupdates
    · exact .inr ⟨session, hadmits.sessions, hadmits.owned, hadmits.dated, hadmits.room⟩
  · obtain rfl := List.mem_singleton.mp hid
    exact ⟨row, hrow, hcounted⟩

/-- Time alone. -/
theorem Change.passes (k : Holder) (board : Board) {clock : Instant} (h : board.clock ≤ clock) :
    Change k board { board with clock } :=
  ⟨h, .refl _, fun h => h, .inl ⟨fun row => row, by simp, fun row _ => .refl row⟩, [], by simp,
    by simp⟩

def lockContract : Contract boardInterface Holder where
  valid w := Bounded w.store
  rely k v w := Under k v.store w.store
  does k v w := Change k v.store w.store
  allows _ _ _ := True
  rely_refl k w := .refl k w.store
  rely_trans := Under.trans
  does_valid hb h := h.bounded hb
  does_rely _ hne h := h.under hne

end AgentCloud.Access
