/-
  WHAT THE DESK MAY RELY ON between two transactions.

  `Good` is the invariant of a run: the store is sound; the session of every block is still the row
  under the lock, or its grant has been revoked; and what an issuer carries from stage to stage fits
  the row of its session.  A signature, above all, ends within the session.
-/
import AgentCloud.Access.Effects

namespace AgentCloud.Access.Desk

open Checked

variable {config : ServiceConfig} {signer : SignerConfig} {s s' : State} {action : Action}
  {env : Env} {clock later : Instant} {store store' : Store} {grants : List Grant}
  {session row row' : Session} {stage : Option Stage}

/-! ## The invariant -/

/-- A certificate that may be published at any later instant, if it has not ended by then. -/
def Signable (clock : Instant) (session : Session) (result : SignResult) : Prop :=
  ∀ certificate expiresAt, result = .issued certificate expiresAt →
    expiresAt ≤ clock + 240000 ∧ expiresAt ≤ session.hardDeadline

def Block.Fits (clock : Instant) (session : Session) : Block → Prop
  | .reject => session.issuance = .pending
  | .attempt _ => session.issuance = .pending
  | .publish _ result => Signable clock session result
  | _ => True

def Stage.Fits (clock : Instant) (row : Session) : Stage → Prop
  | .prepared => row.issuance = .pending
  | .located _ => row.issuance = .pending
  | .attempted _ marked =>
    marked.session.fixed = row.fixed ∧ marked.authority.checkedAt ≤ clock
  | .signed _ result => Signable clock row result

/-- The row of a session that was read: the same, or closed since by a revocation. -/
structure Same (grants : List Grant) (session row : Session) : Prop where
  fixed : row.fixed = session.fixed
  issuance : row.issuance = session.issuance
  row : row = session ∨ Revoked grants session.grantId

structure Good (s : State) : Prop where
  sound : Sound s.clock s.store
  held : ∀ machineId block session, s.held machineId = some (block, session) →
    session.machineId = machineId ∧ block.Fits s.clock session ∧
      ∃ row, getSession s.store session.id = some row ∧ Same s.store.grants session row
  issuing : ∀ id stage, s.issuing id = some stage →
    ∃ row, getSession s.store id = some row ∧ stage.Fits s.clock row

theorem Signable.mono {result : SignResult} (h : Signable clock session result)
    (hle : clock ≤ later) : Signable later session result := by
  intro certificate expiresAt hissued
  obtain ⟨hsoon, hhard⟩ := h certificate expiresAt hissued
  exact ⟨Nat.le_trans hsoon (Nat.add_le_add_right hle 240000), hhard⟩

theorem Signable.of_fixed {result : SignResult} (h : Signable clock row result)
    (hfixed : row'.fixed = row.fixed) : Signable clock row' result := by
  have hhard : row'.hardDeadline = row.hardDeadline := by
    show row'.fixed.hardDeadline = row.fixed.hardDeadline
    rw [hfixed]
  intro certificate expiresAt hissued
  rw [hhard]
  exact h certificate expiresAt hissued

theorem Block.Fits.mono {block : Block} (h : block.Fits clock session) (hle : clock ≤ later) :
    block.Fits later session := by
  cases block with
  | publish address result => exact Signable.mono h hle
  | reject | attempt => exact h
  | prepare | consume | check | close => trivial

theorem Stage.Fits.mono {stage : Stage} (h : stage.Fits clock row) (hle : clock ≤ later) :
    stage.Fits later row := by
  cases stage with
  | prepared | located => exact h
  | attempted address marked => exact ⟨h.1, Nat.le_trans h.2 hle⟩
  | signed address result => exact Signable.mono h hle

theorem Stage.Fits.same {stage : Stage} (h : stage.Fits clock row) (hfixed : row'.fixed = row.fixed)
    (hissuance : row'.issuance = row.issuance) : stage.Fits clock row' := by
  cases stage with
  | prepared | located => exact hissuance.trans h
  | attempted address marked => exact ⟨h.1.trans hfixed.symm, h.2⟩
  | signed address result => exact Signable.of_fixed h hfixed

/-- A block that begins fits the session that it reads. -/
theorem Good.begins (hg : Good s) {block : Block}
    (hrow : getSession s.store session.id = some session)
    (h : block.begins config session (s.issuing session.id)) : block.Fits s.clock session := by
  have hstage : ∀ stage, s.issuing session.id = some stage → stage.Fits s.clock session := by
    intro stage hissuing
    obtain ⟨row, hfound, hfits⟩ := hg.issuing _ _ hissuing
    obtain rfl : row = session := Option.some.inj (hfound.symm.trans hrow)
    exact hfits
  cases block with
  | reject | attempt => exact hstage _ h
  | publish address result => exact hstage _ h
  | prepare | consume | check | close => trivial

/-! ## The stage that a block reaches -/

theorem caught_ok {α : Type} {x : Except Fault α} {a : α} (h : caught x = .ok (.ok a)) :
    x = .ok a := by
  cases x with
  | ok found =>
    obtain rfl : found = a := Except.ok.inj (Except.ok.inj h)
    rfl
  | error fault =>
    cases fault with
    | cloud failure => cases Except.ok.inj h
    | other message => cases h

theorem currentContext_loads {context : Context}
    (h : currentContext config env store session = .ok context) :
    loadAuthority store.grants env.now session.grantId = .ok context.authority := by
  simp only [currentContext, bind_ok_iff, pure_ok_iff] at h
  obtain ⟨_, hcurrent, _, -, rfl⟩ := h
  exact current_loads hcurrent

theorem giveUp_none {α : Type} {reason : UnavailableReason} {a : Option α}
    (h : giveUp env store session reason = .ok (a, store')) : a = none := by
  simp only [giveUp, bind_ok_iff, pure_ok_iff, Prod.mk.injEq] at h
  obtain ⟨_, -, hnone, -⟩ := h
  exact hnone.symm

theorem fits_prepare {context : Context}
    (h : prepare config session env store = .ok (some context, store')) :
    store' = store ∧ session.issuance = .pending := by
  rw [prepare] at h
  split at h
  · cases giveUp_none h
  · next hpending =>
    split at h
    · cases giveUp_none h
    · obtain ⟨tried, -, h⟩ := bind_ok_iff.mp h
      cases tried with
      | ok context' =>
        simp only [pure_ok_iff, Prod.mk.injEq] at h
        exact ⟨h.2.symm, hpending⟩
      | error failure => cases giveUp_none h
  · simp only [pure_ok_iff, Prod.mk.injEq] at h
    cases h.1

/-- The attempted mark is of the session that was read, at the instant that was read. -/
theorem fits_attempt {marked : Attempt}
    (h : attempt config session env store = .ok (some marked, store')) :
    marked.session.fixed = session.fixed ∧ marked.authority.checkedAt = env.now := by
  obtain ⟨tried, htried, h⟩ := bind_ok_iff.mp h
  cases tried with
  | error failure => cases giveUp_none h
  | ok context =>
    have hload := currentContext_loads (caught_ok htried)
    simp only at h
    split at h
    · simp only [pure_ok_iff, Prod.mk.injEq] at h
      cases h.1
    · split at h
      · cases giveUp_none h
      · simp only [bind_ok_iff, pure_ok_iff, Prod.mk.injEq, Option.some.injEq] at h
        obtain ⟨_, -, rfl, -⟩ := h
        exact ⟨rfl, loadAuthority_checkedAt hload⟩

/-- The stage that a block reaches fits the row that it leaves. -/
theorem fits_block {block : Block} {stage : Stage}
    (h : block.run config session env store = .ok (some stage, store'))
    (hrow : getSession store session.id = some row) (hrow' : getSession store' session.id = some row')
    (hfixed : row'.fixed = session.fixed) (hissuance : row.issuance = session.issuance) :
    stage.Fits env.now row' := by
  cases block with
  | prepare =>
    simp only [Block.run, bind_ok_iff, pure_ok_iff, Prod.mk.injEq, Prod.exists,
      Option.map_eq_some_iff] at h
    obtain ⟨_, _, hprepare, ⟨context, rfl, rfl⟩, rfl⟩ := h
    obtain ⟨rfl, hpending⟩ := fits_prepare hprepare
    obtain rfl : row = row' := Option.some.inj (hrow.symm.trans hrow')
    exact hissuance.trans hpending
  | reject => cases giveUp_none h
  | attempt address =>
    simp only [Block.run, bind_ok_iff, pure_ok_iff, Prod.mk.injEq, Prod.exists,
      Option.map_eq_some_iff] at h
    obtain ⟨_, _, hattempt, ⟨marked, rfl, rfl⟩, rfl⟩ := h
    obtain ⟨hsame, hnow⟩ := fits_attempt hattempt
    exact ⟨hsame.trans hfixed.symm, Nat.le_of_eq hnow⟩
  | publish | consume | check | close =>
    simp only [Block.run, bind_ok_iff, pure_ok_iff, Prod.mk.injEq, Prod.exists] at h
    obtain ⟨_, _, -, hnone, -⟩ := h
    cases hnone

/-! ## Events and runs -/

theorem held_settle {machineId : MachineId} {held : Block × Session}
    (h : (s.settle action stage).held machineId = some held) :
    s.held machineId = some held ∧ ∀ block session, action ≠ .under machineId block session := by
  cases action with
  | under m block session =>
    have hheld : (s.release m).held machineId = some held := by
      simp only [State.settle] at h
      split at h
      · exact h
      · exact h
    simp only [State.release, Function.update_apply] at hheld
    split at hheld
    · cases hheld
    · next hne =>
      refine ⟨hheld, fun block session heq => hne ?_⟩
      injection heq with hm
      exact hm.symm
  | _ => exact ⟨h, by rintro block session ⟨⟩⟩

theorem issuing_settle {id : AccessSessionId} {reached : Stage}
    (h : (s.settle action stage).issuing id = some reached) :
    (s.issuing id = some reached ∧ action.issues ≠ some id) ∨
      ∃ machineId block session, action = .under machineId block session ∧ session.id = id ∧
        stage = some reached := by
  cases action with
  | under m block session =>
    simp only [State.settle] at h
    split at h
    · next hissues =>
      simp only [State.stage, State.release, Function.update_apply] at h
      split at h
      · next hid => exact .inr ⟨m, block, session, rfl, hid.symm, h⟩
      · next hid =>
        refine .inl ⟨h, ?_⟩
        simp only [Action.issues, hissues, if_true]
        exact fun heq => hid (Option.some.inj heq).symm
    · next hissues =>
      refine .inl ⟨h, ?_⟩
      simp only [Action.issues, hissues]
      rintro ⟨⟩
  | _ => exact .inl ⟨h, by rintro ⟨⟩⟩

@[simp] theorem settle_store : (s.settle action stage).store = s.store := by
  unfold State.settle
  split
  · split <;> rfl
  · rfl

@[simp] theorem settle_clock : (s.settle action stage).clock = s.clock := by
  unfold State.settle
  split
  · split <;> rfl
  · rfl

theorem Good.staged (hg : Good s) {id : AccessSessionId}
    (h : ∀ reached, stage = some reached →
      ∃ row, getSession s.store id = some row ∧ reached.Fits s.clock row) :
    Good (s.stage id stage) := by
  refine ⟨hg.sound, hg.held, fun id' reached hissuing => ?_⟩
  simp only [State.stage, Function.update_apply] at hissuing
  split at hissuing
  · next hid => exact hid ▸ h reached hissuing
  · exact hg.issuing id' reached hissuing

theorem pass_le (pass : Pass) (clock : Instant) :
    clock ≤ (pass.env clock).now ∧ (pass.env clock).now ≤ (pass.env clock).clock ∧
      (pass.env clock).clock ≤ (pass.env clock).later :=
  ⟨Nat.le_add_right _ _, Nat.le_add_right _ _, Nat.le_add_right _ _⟩

/-- A machine lock that somebody holds is not the lock of the transaction. -/
theorem Action.Enabled.machine_ne (h : action.Enabled s) {machineId : MachineId}
    {held : Block × Session} (hheld : s.held machineId = some held)
    (hother : ∀ block session, action ≠ .under machineId block session) :
    action.machine ≠ some machineId := by
  intro hmachine
  cases action with
  | admitSession principal m request key =>
    obtain rfl : m = machineId := Option.some.inj hmachine
    have hfree : s.held m = none := h
    rw [hfree] at hheld
    cases hheld
  | closeMachineAccess accountId m =>
    obtain rfl : m = machineId := Option.some.inj hmachine
    have hfree : s.held m = none := h
    rw [hfree] at hheld
    cases hheld
  | under m block session =>
    obtain rfl : m = machineId := Option.some.inj hmachine
    exact hother block session rfl
  | _ => cases hmachine

theorem Good.commit (hg : Good s) {pass : Pass} (enabled : action.Enabled s)
    (ok : action.run config (pass.env s.clock) s.store = .ok (stage, store')) :
    Good (({ s with store := store', clock := (pass.env s.clock).later } : State).settle action
      stage) := by
  obtain ⟨hnow, htrigger, hlater⟩ := pass_le pass s.clock
  have hclock : s.clock ≤ (pass.env s.clock).clock := Nat.le_trans hnow htrigger
  have heffect := run_effect hg.sound ok
  have hframe : Frame action s.store store' := by
    refine heffect.frame fun machineId block session hunder row hrow => ?_
    subst hunder
    obtain ⟨hmachine, -, found, hfound, hsame⟩ := hg.held _ _ _ enabled
    obtain rfl : found = row := Option.some.inj (hfound.symm.trans hrow)
    rw [← hmachine]
    show found.fixed.machineId = session.fixed.machineId
    rw [hsame.fixed]
  refine ⟨?_, fun machineId block session hheld => ?_, fun id reached hissuing => ?_⟩
  · rw [settle_store, settle_clock]
    exact (heffect.sound hg.sound hclock).mono hlater
  · rw [settle_store, settle_clock]
    obtain ⟨hheld, hother⟩ := held_settle hheld
    obtain ⟨hmachine, hfits, row, hrow, hsame⟩ := hg.held _ _ _ hheld
    obtain ⟨row', hrow', hfixed, -, howner⟩ := hframe.rows _ row hrow
    have hrowMachine : row.machineId = machineId := by
      rw [← hmachine]
      show row.fixed.machineId = session.fixed.machineId
      rw [hsame.fixed]
    have hgrant : row.grantId = session.grantId := by
      show row.fixed.grantId = session.fixed.grantId
      rw [hsame.fixed]
    refine ⟨hmachine, hfits.mono (Nat.le_trans hclock hlater), row', hrow',
      hfixed.trans hsame.fixed, ?_, ?_⟩
    · rcases howner with rfl | hlock | ⟨hissuance, -⟩
      · exact hsame.issuance
      · exact absurd (hrowMachine ▸ hlock) (enabled.machine_ne hheld hother)
      · exact hissuance.trans hsame.issuance
    · rcases howner with rfl | hlock | ⟨-, hrevoked⟩
      · exact hsame.row.imp_right fun hrevoked => hrevoked.grows hframe.grants
      · exact absurd (hrowMachine ▸ hlock) (enabled.machine_ne hheld hother)
      · exact .inr (hgrant ▸ hrevoked)
  · rw [settle_store, settle_clock]
    rcases issuing_settle hissuing with ⟨hissuing, hother⟩ | ⟨m, block, session, rfl, rfl, rfl⟩
    · obtain ⟨row, hrow, hfits⟩ := hg.issuing id reached hissuing
      obtain ⟨row', hrow', hfixed, hissuance, -⟩ := hframe.rows id row hrow
      exact ⟨row', hrow', (hfits.mono (Nat.le_trans hclock hlater)).same hfixed
        (hissuance.resolve_right hother)⟩
    · obtain ⟨-, -, row, hrow, hsame⟩ := hg.held _ _ _ enabled
      obtain ⟨row', hrow', hfixed, -⟩ := hframe.rows _ row hrow
      have hfits := fits_block ok hrow hrow' (hfixed.trans hsame.fixed) hsame.issuance
      exact ⟨row', hrow', hfits.mono (Nat.le_trans htrigger hlater)⟩

/-- **Step lemma.** -/
theorem Step.good (hg : Good s) (h : Step config signer s s') : Good s' := by
  cases h with
  | pass passed =>
    have hle : s.clock ≤ s.clock + passed := Nat.le_add_right _ _
    refine ⟨hg.sound.mono hle, fun machineId block session hheld => ?_, fun id stage hissuing => ?_⟩
    · obtain ⟨hmachine, hfits, hrow⟩ := hg.held _ _ _ hheld
      exact ⟨hmachine, hfits.mono hle, hrow⟩
    · obtain ⟨row, hrow, hfits⟩ := hg.issuing _ _ hissuing
      exact ⟨row, hrow, hfits.mono hle⟩
  | read machineId block session free found machine begins =>
    refine ⟨hg.sound, fun machineId' block' session' hheld => ?_, hg.issuing⟩
    simp only [State.hold, Function.update_apply] at hheld
    split at hheld
    · next hid =>
      obtain ⟨rfl, rfl⟩ := Prod.mk.inj (Option.some.inj hheld)
      exact ⟨machine.trans hid.symm, hg.begins found begins, session, found, rfl, rfl, .inl rfl⟩
    · exact hg.held _ _ _ hheld
  | commit action pass stage store enabled ok => exact hg.commit enabled ok
  | abort machineId =>
    refine ⟨hg.sound, fun machineId' block session hheld => ?_, hg.issuing⟩
    simp only [State.release, Function.update_apply] at hheld
    split at hheld
    · cases hheld
    · exact hg.held _ _ _ hheld
  | observe id address here =>
    refine hg.staged fun reached hreached => ?_
    obtain rfl := Option.some.inj hreached
    obtain ⟨row, hrow, hpending⟩ := hg.issuing _ _ here
    exact ⟨row, hrow, hpending⟩
  | sign id address marked response result here signed =>
    refine hg.staged fun reached hreached => ?_
    obtain rfl := Option.some.inj hreached
    obtain ⟨row, hrow, hfixed, hchecked⟩ := hg.issuing _ _ here
    refine ⟨row, hrow, fun certificate expiresAt hissued => ?_⟩
    subst hissued
    obtain ⟨inspection, -, -, hsigned⟩ := sign_issued signed
    have hhard : marked.session.hardDeadline = row.hardDeadline := by
      show marked.session.fixed.hardDeadline = row.fixed.hardDeadline
      rw [hfixed]
    exact ⟨Nat.le_trans hsigned.soon (Nat.add_le_add_right hchecked 240000),
      hhard ▸ hsigned.withinSession⟩
  | drop id => exact hg.staged (by rintro _ ⟨⟩)

theorem good_initial (hgrants : ValidGrants grants) (clock : Instant) :
    Good (initial grants clock) :=
  ⟨⟨Table.Keyed.nil, hgrants, by rintro _ ⟨⟩, by rintro _ ⟨⟩, by rintro _ ⟨⟩, by rintro _ ⟨⟩⟩,
    by rintro _ _ _ ⟨⟩, by rintro _ _ ⟨⟩⟩

/-- **Run lemma.** -/
theorem good_run (hgrants : ValidGrants grants)
    (hreach : Reach config signer (initial grants clock) s) : Good s := by
  induction hreach with
  | refl => exact good_initial hgrants clock
  | tail _ hstep ih => exact hstep.good ih

end AgentCloud.Access.Desk
