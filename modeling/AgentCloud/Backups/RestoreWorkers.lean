/-
  THE RESTORE WORKERS KEEP THE DISCIPLINE.

  A restore's tick knows its phase up to the `beforeSubmit` of the stream.  There it finds `prepare`
  on the row, so that no stream was asked for (`safe_markSubmitted`), and between that commit and
  the stream there is nothing but the stream (`safe_runRestoreCommand`).  What follows needs no
  knowledge: `done` is behind every phase.
-/
import AgentCloud.Backups.Workers

namespace AgentCloud.Backups

open Checked Durable

variable {k : Slot} {w : World interface} {P : World interface → Prop} {config : BackupConfig}

/-! ## Two writes in one transaction -/

theorem BackupStep.trans {a b c : BackupRow} (h : BackupStep k a b) (h' : BackupStep k b c) :
    BackupStep k a c := by
  refine ⟨h'.id_eq.trans h.id_eq, Nat.le_trans h.forward h'.forward, fun hne => ?_,
    fun hown => h'.own (h.own hown)⟩
  by_cases hmid : b.work = a.work
  · have hk := h'.owner fun heq => hne (heq.trans hmid)
    rwa [h.id_eq] at hk
  · exact h.owner hmid

theorem RestoreStep.trans {a b c : RestoreRow} (h : RestoreStep k a b) (h' : RestoreStep k b c) :
    RestoreStep k a c := by
  refine ⟨h'.id_eq.trans h.id_eq, Nat.le_trans h.forward h'.forward, fun hne => ?_⟩
  by_cases hmid : b.work = a.work
  · have hk := h'.owner fun heq => hne (heq.trans hmid)
    rwa [h.id_eq] at hk
  · exact h.owner hmid

theorem Writes.trans {a b c : Store} (h : Writes k a b) (h' : Writes k b c) : Writes k a c := by
  refine ⟨fun id row hrow => ?_, fun id row hrow => ?_, fun hown => h'.own (h.own hown)⟩
  · obtain ⟨mid, hmid, hstep⟩ := h.backups id row hrow
    obtain ⟨last, hlast, hstep'⟩ := h'.backups id mid hmid
    exact ⟨last, hlast, hstep.trans hstep'⟩
  · obtain ⟨mid, hmid, hstep⟩ := h.restores id row hrow
    obtain ⟨last, hlast, hstep'⟩ := h'.restores id mid hmid
    exact ⟨last, hlast, hstep.trans hstep'⟩

/-! ## Writes of a restore's phase -/

section Restore

variable {id : RestoreId} {old new : RestoreWork}

theorem writes_restorePhase {v : World interface} {f : RestoreRow → RestoreRow}
    (hphase : RestorePhase id old v) (hid : ∀ row, (f row).id = row.id)
    (hwork : ∀ row, (f row).work = new) (hrank : old.rank ≤ new.rank) :
    Writes (.restore id) v.store (writeRestore id f v.store) ∧
      RestorePhase id new (v.put (writeRestore id f v.store)) := by
  obtain ⟨row, hrow, hold⟩ := hphase
  refine ⟨writes_updateRestore hid fun found hfound => ?_, f row, ?_, hwork row⟩
  · obtain rfl : row = found := Option.some.inj (hrow.symm.trans hfound)
    have hkey : row.id = id := Table.get_key hrow
    exact ⟨hid row, by rw [hwork, hold]; exact hrank, fun _ => by rw [hkey]⟩
  · rw [World.put_store, writeRestore, getRestore_update hid, if_pos rfl, hrow]
    rfl

theorem safe_saveRestore (hphase : RestorePhase id old w) (hrank : old.rank ≤ new.rank) :
    Safe submissions.contract (.restore id) (Ends fun _ => RestorePhase id new)
      (saveRestore id new) w := by
  refine Marks.safe_write fun v env a s hv _ hok => ?_
  obtain ⟨-, rfl⟩ := Prod.mk.inj (Except.ok.inj hok)
  exact writes_restorePhase (stable_restorePhase.rely hv hphase) (fun _ => rfl) (fun _ => rfl) hrank

theorem safe_authorizedRestore {accountId : AccountId} {grantId : GrantId} {projectId : ProjectId}
    {capability : Capability} {f : RestoreRow → RestoreRow} (hphase : RestorePhase id old w)
    (hid : ∀ row, (f row).id = row.id) (hwork : ∀ row, (f row).work = new)
    (hrank : old.rank ≤ new.rank) :
    Safe submissions.contract (.restore id) (Ends fun _ => RestorePhase id new)
      (authorizeEffect accountId grantId projectId capability (writeRestore id f)) w :=
  safe_authorized fun _ hv =>
    writes_restorePhase (stable_restorePhase.rely hv hphase) hid hwork hrank

/-- A restore is blocked: its phase stays. -/
theorem safe_blockRestore {reason : String} :
    Safe submissions.contract k (Ends Anyhow) (blockRestore id reason) w := by
  refine Safe.seq (Quiet.ask (quiet_of_stable Marks.Stable.trivial) rfl trivial) fun _ v _ => ?_
  refine safe_record fun env store s hok => ?_
  obtain ⟨-, rfl⟩ := Prod.mk.inj (Except.ok.inj hok)
  exact writes_restore_record (fun _ => rfl) fun _ => rfl

theorem writes_verifySource {backupId : BackupId} {store store' : Store}
    (h : verifySource backupId store = .ok store') : Writes k store store' := by
  simp only [verifySource, bind_ok_iff] at h
  obtain ⟨source, -, h⟩ := h
  cases hstate : source.state with
  | captured bytes capturedAt validation manifest =>
    rw [hstate] at h
    obtain rfl := Except.ok.inj h
    exact writes_backup_record (fun _ => rfl) fun _ => rfl
  | pending => rw [hstate] at h; cases h
  | blocked reason => rw [hstate] at h; cases h
  | purgePending purgeId => rw [hstate] at h; cases h
  | purged purgeId purgedAt => rw [hstate] at h; cases h

/-- The end of a restore is behind every phase. -/
theorem safe_finish {row : RestoreRow} {result : Completed} (hid : row.id = id) :
    Safe submissions.contract (.restore id) (Ends Anyhow) (finish row result) w := by
  subst hid
  refine Safe.seq (safe_refuseIf (P := fun _ => True) trivial) fun _ v _ => ?_
  refine Safe.seq (Quiet.ask (quiet_of_stable Marks.Stable.trivial) rfl trivial) fun _ v _ => ?_
  refine safe_record fun env store s hok => ?_
  simp only [bind_ok_iff, pure_ok_iff, Prod.mk.injEq] at hok
  obtain ⟨verified, hverified, -, rfl⟩ := hok
  refine Writes.trans ?_ (writes_verifySource hverified)
  refine writes_updateRestore (fun _ => rfl) fun found hfound => ?_
  have hkey : found.id = row.id := Table.get_key hfound
  have hrank : found.work.rank ≤ 3 := by cases found.work <;> simp [RestoreWork.rank]
  exact ⟨rfl, hrank, fun _ => by rw [hkey]⟩

/-! ## The stream -/

/-- The mark of a stream: nothing was streamed, as the phase found was an earlier one. -/
def Submitted (id : RestoreId) (v : World interface) : Prop :=
  RestorePhase id (.submitted 0) v ∧ submissions.count v.log (.stream id) = 0

theorem stable_submitted : submissions.Stable (.restore id) (Submitted id) :=
  stable_restorePhase.and (Marks.Stable.unasked rfl)

theorem safe_markSubmitted {row : RestoreRow} {attempts : Nat} (hid : row.id = id)
    (hphase : RestorePhase id (.prepare attempts) w) :
    Safe submissions.contract (.restore id) (Ends fun _ => Submitted id) (markSubmitted row) w := by
  subst hid
  refine Marks.safe_write fun v env a s hv hvalid hok => ?_
  simp only [bind_ok_iff, pure_ok_iff, Prod.mk.injEq] at hok
  obtain ⟨_, -, _, -, -, rfl⟩ := hok
  have hprepare := stable_restorePhase.rely hv hphase
  have hnone : ¬ Effect.submitted v.store (.stream row.id) := by
    rintro ⟨found, hfound, hrank⟩
    obtain ⟨current, hcurrent, hwork⟩ := hprepare
    obtain rfl : found = current := Option.some.inj (hfound.symm.trans hcurrent)
    rw [hwork] at hrank
    have hprepare_rank : (RestoreWork.prepare attempts).rank = 1 := rfl
    omega
  obtain ⟨hwrites, hsubmitted⟩ := writes_restorePhase (f := fun row => { row with work := .submitted 0 })
    hprepare (fun _ => rfl) (fun _ => rfl) (Nat.le_succ 1)
  exact ⟨hwrites, hsubmitted, unasked hvalid hnone⟩

/-- The one stream of a restore, right behind its mark. -/
theorem safe_stream {request : RestoreGuestRequest} (hid : request.id = id)
    (hmarked : Submitted id w) :
    Safe submissions.contract (.restore id) (Ends Anyhow)
      (Prog.ask (S := interface) (.streamRestore request)) w := by
  subst hid
  refine Marks.safe_effect (x := .stream request.id) rfl rfl fun v hv _ => ?_
  obtain ⟨⟨row, hrow, hwork⟩, hfirst⟩ := stable_submitted.rely hv hmarked
  refine ⟨hfirst, fun effect heffect => ?_, ⟨row, hrow, hwork⟩, fun _ => trivial⟩
  obtain rfl := Option.some.inj heffect
  exact ⟨row, hrow, by rw [hwork]; exact Nat.le_refl 2⟩

theorem safe_runRestoreCommand {row : RestoreRow} {request : RestoreGuestRequest} {attempts : Nat}
    (hid : row.id = id) (hrequest : request.id = id)
    (hphase : RestorePhase id (.prepare attempts) w) :
    Safe submissions.contract (.restore id) (Ends Anyhow)
      (runRestoreCommand request (markSubmitted row)) w := by
  refine Safe.recover ?_ fun _ _ => trivial
  refine Safe.seq (Quiet.ask (quiet_of_stable stable_restorePhase) rfl hphase) fun _ v hv => ?_
  refine Safe.seq (safe_markSubmitted hid hv) fun _ v hv => ?_
  exact Safe.seq (safe_stream hrequest hv) fun reply v hv => safe_thrown hv

theorem safe_settle {row : RestoreRow} {state : RestoreGuestState} (hid : row.id = id) :
    Safe submissions.contract (.restore id) (Ends Anyhow) (settle row state) w := by
  cases state with
  | restored result => exact safe_finish hid
  | failed _ _ => exact safe_blockRestore
  | pending _ => exact Safe.ends trivial

theorem safe_submitRestore {row : RestoreRow} {allocationId : AllocationId} {parts : Sealed}
    {receipt : Receipt} {attempts : Nat} (hid : row.id = id)
    (hphase : RestorePhase id (.prepare attempts) w) :
    Safe submissions.contract (.restore id) (Ends Anyhow)
      (submitRestore config row allocationId parts receipt) w := by
  refine Safe.seq (Quiet.ask (quiet_of_stable stable_restorePhase) rfl hphase) fun _ v hv => ?_
  refine Safe.seq (Quiet.ask (quiet_of_stable stable_restorePhase) rfl hv) fun _ v hv => ?_
  exact Safe.seq (safe_runRestoreCommand hid hid hv) fun _ _ _ => safe_settle hid

/-! ## The phases of a restore -/

/-- Waiting for a key changes no phase. -/
theorem safe_keyUnavailable {α : Type} {Q : α → World interface → Prop} {row : RestoreRow} :
    Safe submissions.contract k (Ends Q) (keyUnavailable row) w :=
  Safe.seq (safe_authorized (Q := fun _ => True) fun _ _ =>
    ⟨writes_restore_record (fun _ => rfl) fun _ => rfl, trivial⟩) fun _ _ _ => trivial

theorem safe_openKeyring {row : RestoreRow} {encryption : Encryption}
    (hP : submissions.Stable k P) (hw : P w) :
    Safe submissions.contract k (Ends fun _ => P) (openKeyring row encryption) w := by
  refine Safe.seq (Marks.safe_ask hP rfl hw) fun keyring v hv => ?_
  cases keyring with
  | error _ => exact safe_keyUnavailable
  | ok _ =>
    refine Safe.seq (Marks.safe_ask hP rfl hv) fun verified v hv => ?_
    cases verified with
    | error _ => trivial
    | ok opens =>
      cases opens with
      | true => exact Safe.ends hv
      | false => exact safe_keyUnavailable

theorem safe_preparePhase {row : RestoreRow} {allocationId : AllocationId} {attempts : Nat}
    (hid : row.id = id) (hphase : RestorePhase id (.prepare attempts) w) :
    Safe submissions.contract (.restore id) (Ends Anyhow)
      (preparePhase config row allocationId attempts) w := by
  subst hid
  rw [preparePhase]
  split
  · exact safe_blockRestore
  · refine Safe.seq (Quiet.ask (quiet_of_stable stable_restorePhase) rfl hphase) fun _ v hv => ?_
    refine Safe.seq (Quiet.ask (quiet_of_stable stable_restorePhase) rfl hv) fun _ v hv => ?_
    refine Safe.seq (Quiet.ask (quiet_of_stable stable_restorePhase) rfl hv) fun _ v hv => ?_
    refine Safe.seq (safe_authorized (Q := RestorePhase row.id (.prepare attempts)) fun u hu =>
      ⟨.refl _ _, stable_restorePhase.rely hu hv⟩) fun _ v hv => ?_
    refine Safe.seq (Q := fun _ => RestorePhase row.id (.prepare attempts))
      (Marks.safe_look stable_restorePhase hv fun u env a s hu _ hok => ?_) fun source v hv => ?_
    · simp only [bind_ok_iff, pure_ok_iff, Prod.mk.injEq] at hok
      obtain ⟨_, -, -, rfl⟩ := hok
      exact ⟨rfl, hu⟩
    · refine Safe.seq (safe_openKeyring stable_restorePhase hv) fun _ v hv => ?_
      refine Safe.seq (safe_authorizedRestore hv (fun _ => rfl) (fun _ => rfl) (Nat.le_refl 1))
        fun _ v hv => ?_
      exact Safe.ensure (safe_submitRestore rfl hv) fun u =>
        Quiet.ask (quiet_of_stable Marks.Stable.trivial) rfl trivial

theorem safe_submittedPhase {row : RestoreRow} {allocationId : AllocationId} {attempts : Nat}
    (hid : row.id = id) (hphase : RestorePhase id (.submitted attempts) w) :
    Safe submissions.contract (.restore id) (Ends Anyhow)
      (submittedPhase row allocationId attempts) w := by
  subst hid
  refine Safe.seq (Quiet.ask (quiet_of_stable stable_restorePhase) rfl hphase) fun _ v hv => ?_
  split
  · exact safe_blockRestore
  · refine Safe.seq (safe_saveRestore hv (Nat.le_refl 2)) fun _ v hv => ?_
    refine Safe.seq (Quiet.ask (quiet_of_stable stable_restorePhase) rfl hv) fun _ v hv => ?_
    refine Safe.seq (Marks.safe_ask stable_restorePhase rfl hv) fun reply v hv => ?_
    refine Safe.seq (safe_thrown hv) fun state v hv => ?_
    split
    · exact safe_finish rfl
    · exact safe_blockRestore
    · trivial

theorem safe_targetPhase {row : RestoreRow} {target : TargetMachine} {work : RestoreWork}
    (hid : row.id = id) (hphase : RestorePhase id work w) :
    Safe submissions.contract (.restore id) (Ends Anyhow) (targetPhase config row target work) w := by
  rw [targetPhase]
  split
  · trivial
  · split
    · exact safe_submittedPhase hid hphase
    · exact safe_preparePhase hid hphase
    · exact Safe.ends trivial

theorem safe_waitingPhase {row : RestoreRow} {target : TargetMachine} (hid : row.id = id)
    (hphase : RestorePhase id .waiting w) :
    Safe submissions.contract (.restore id) (Ends Anyhow) (waitingPhase config row target) w := by
  subst hid
  refine Safe.seq (Q := fun _ => RestorePhase row.id .waiting)
    (Marks.safe_look stable_restorePhase hphase fun u env a s hu _ hok => ?_) fun operation v hv => ?_
  · obtain ⟨-, rfl⟩ := Prod.mk.inj (Except.ok.inj hok)
    exact ⟨rfl, hu⟩
  · split
    · trivial
    · exact safe_blockRestore
    · exact Safe.ends trivial
    · refine Safe.seq (safe_saveRestore hv (Nat.zero_le 1)) fun _ v hv => ?_
      exact safe_targetPhase rfl hv

theorem safe_advancePending {row : RestoreRow} (hid : row.id = id)
    (hphase : RestorePhase id row.work w) :
    Safe submissions.contract (.restore id) (Ends Anyhow) (advancePending config row) w := by
  refine Safe.seq (Q := fun _ => RestorePhase id row.work)
    (Marks.safe_look stable_restorePhase hphase fun u env a s hu _ hok => ?_) fun target v hv => ?_
  · obtain ⟨-, rfl⟩ := Prod.mk.inj (Except.ok.inj hok)
    exact ⟨rfl, hu⟩
  · cases target with
    | none => trivial
    | some target =>
      simp only
      split
      · exact safe_blockRestore
      · split
        · next hwaiting => exact safe_waitingPhase hid (hwaiting ▸ hv)
        · exact safe_targetPhase hid hv

theorem safe_readRestore :
    Safe submissions.contract (.restore id)
      (Ends fun got v => ∀ row ∈ got, row.id = id ∧ RestorePhase id row.work v) (readRestore id) w := by
  refine Marks.safe_write fun v env got s _ _ hok => ?_
  obtain ⟨rfl, rfl⟩ := Prod.mk.inj (Except.ok.inj hok)
  exact ⟨.refl _ _, fun row hrow => ⟨Table.get_key hrow, row, hrow, rfl⟩⟩

theorem safe_advanceRestore :
    Safe submissions.contract (.restore id) (Ends Anyhow) (advanceRestore config id) w := by
  refine Safe.seq safe_readRestore fun row v hfound => ?_
  cases row with
  | none => exact Safe.ends trivial
  | some row =>
    obtain ⟨hid, hphase⟩ := hfound row rfl
    simp only
    split
    · exact safe_advancePending hid hphase
    · exact Safe.ends trivial

end Restore

/-! ## Ticks -/

theorem safe_onAuthority {work blocked : Program Unit}
    (hwork : Safe submissions.contract k (Ends Anyhow) work w)
    (hblocked : ∀ v, Safe submissions.contract k (Ends Anyhow) blocked v) :
    Safe submissions.contract k (Ends Anyhow) (onAuthority work blocked) w := by
  refine Safe.recover hwork fun fault v => ?_
  cases fault with
  | authority => exact hblocked v
  | fault _ => trivial

theorem safe_tidyBackup {id : BackupId} :
    Safe submissions.contract (.backup id) (Ends Anyhow) (tidyBackup id) w := by
  refine Safe.seq safe_readBackup fun row v _ => ?_
  split
  · exact Quiet.ask (quiet_of_stable Marks.Stable.trivial) rfl trivial
  · exact Safe.ends trivial

theorem safe_advanceBackupTick {id : BackupId} :
    Safe submissions.contract (.backup id) (Ends Anyhow) (advanceBackupTick config id) w :=
  Safe.ensure (safe_onAuthority safe_advanceCapture fun _ => safe_blockBackup) fun _ =>
    safe_tidyBackup

theorem safe_advanceRestoreTick {id : RestoreId} :
    Safe submissions.contract (.restore id) (Ends Anyhow) (advanceRestoreTick config id) w :=
  safe_onAuthority safe_advanceRestore fun _ => safe_blockRestore

end AgentCloud.Backups
