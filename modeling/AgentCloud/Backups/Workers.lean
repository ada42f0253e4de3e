/-
  THE BACKUP WORKERS KEEP THE DISCIPLINE, phase by phase.

  Each lemma starts from what its phase knows (`Phase`, and for the upload that no PUT was asked
  for) and follows the program; the proofs have the shape of the programs.  The four places that
  matter: `safe_markUpload` and `safe_markSubmitted` commit a mark and learn that nothing was asked
  for yet, `safe_upload` and `safe_submit` ask for the effect.
-/
import AgentCloud.Backups.Discipline

namespace AgentCloud.Backups

open Checked Durable

variable {k : Slot} {w : World interface} {P : World interface → Prop} {config : BackupConfig}

/-! ## Sealing an archive -/

theorem safe_prepareUpload {store : StoreConfig} {id : BackupId} {retention : Retention}
    (hP : submissions.Stable k P) (hw : P w) :
    Safe submissions.contract k (Ends fun intent v => intent.attemptId = id ∧ P v)
      (prepareUpload store id retention) w := by
  refine Safe.seq (Marks.safe_ask hP rfl hw) fun reply v hv => ?_
  refine Safe.seq (safe_thrown hv) fun digests v hv => ?_
  refine (safe_bind (quiet_of_stable hP) hv).mono fun r v hr => ?_
  cases r with
  | ok intent => exact ⟨hr.1 ▸ rfl, hr.2⟩
  | error fault => trivial

theorem safe_encryptBackup {id : BackupId} {captured : Capture} {keyring : String}
    {maxBytes : Nat} (hP : submissions.Stable k P) (hw : P w) :
    Safe submissions.contract k (Ends fun _ => P) (encryptBackup id captured keyring maxBytes)
      w := by
  refine Safe.seq (Marks.safe_ask hP rfl hw) fun reply v hv => ?_
  refine Safe.seq (safe_thrown hv) fun encryption v hv => ?_
  exact Safe.seq (safe_refuseIf hv) fun _ v hv => Safe.ends hv

/-! ## Writes of a backup's phase -/

section Backup

variable {id : BackupId} {old new : BackupWork} {parts : Sealed}

/-- Moving a backup to a phase that is not earlier. -/
theorem writes_phase {v : World interface} {f : BackupRow → BackupRow} (hphase : Phase id old v)
    (hid : ∀ row, (f row).id = row.id) (hwork : ∀ row, (f row).work = new)
    (hrank : old.rank ≤ new.rank)
    (hown : ∀ parts ∈ new.sealed?, parts.intent.attemptId = id) :
    Writes (.backup id) v.store (updateBackup v.store id f) ∧
      Phase id new (v.put (updateBackup v.store id f)) := by
  obtain ⟨row, hrow, hold⟩ := hphase
  refine ⟨writes_updateBackup hid fun found hfound => ?_, f row, ?_, hwork row⟩
  · obtain rfl : row = found := Option.some.inj (hrow.symm.trans hfound)
    have hkey : row.id = id := Table.get_key hrow
    refine ⟨hid row, by rw [hwork, hold]; exact hrank, fun _ => by rw [hkey], fun _ => ?_⟩
    rw [BackupRow.SealedOwn, hwork, hid, hkey]
    exact hown
  · rw [World.put_store, getBackup_update hid, if_pos rfl, hrow]
    rfl

theorem safe_save (hphase : Phase id old w) (hrank : old.rank ≤ new.rank)
    (hown : ∀ parts ∈ new.sealed?, parts.intent.attemptId = id) :
    Safe submissions.contract (.backup id) (Ends fun _ => Phase id new) (save id new) w := by
  refine Marks.safe_write fun v env a s hv _ hok => ?_
  obtain ⟨-, rfl⟩ := Prod.mk.inj (Except.ok.inj hok)
  exact writes_phase (stable_phase.rely hv hphase) (fun _ => rfl) (fun _ => rfl) hrank hown

theorem safe_saveStored {receipt : Receipt} (hphase : Phase id old w) (hrank : old.rank ≤ 4)
    (hown : parts.intent.attemptId = id) :
    Safe submissions.contract (.backup id) (Ends fun _ => Phase id (.stored parts receipt false 0))
      (saveStored id parts receipt) w := by
  refine Marks.safe_write fun v env a s hv _ hok => ?_
  obtain ⟨-, rfl⟩ := Prod.mk.inj (Except.ok.inj hok)
  refine writes_phase (stable_phase.rely hv hphase) (fun _ => rfl) (fun _ => rfl) hrank ?_
  intro got hgot
  obtain rfl := Option.some.inj hgot
  exact hown

theorem safe_blockBackup {reason : String} :
    Safe submissions.contract k (Ends Anyhow) (blockBackup id reason) w := by
  refine safe_record fun env store s hok => ?_
  obtain ⟨-, rfl⟩ := Prod.mk.inj (Except.ok.inj hok)
  exact writes_backup_record (fun _ => rfl) fun _ => rfl

/-- A write under a believed credential. -/
theorem safe_authorized {accountId : AccountId} {grantId : GrantId} {projectId : ProjectId}
    {capability : Capability} {work : Store → Store} {Q : World interface → Prop}
    (h : ∀ v, submissions.Rely k w v →
      Writes k v.store (work v.store) ∧ Q (v.put (work v.store))) :
    Safe submissions.contract k (Ends fun _ => Q)
      (authorizeEffect accountId grantId projectId capability work) w := by
  refine Marks.safe_write fun v env a s hv _ hok => ?_
  simp only [bind_ok_iff, pure_ok_iff, Prod.mk.injEq] at hok
  obtain ⟨_, -, _, -, -, rfl⟩ := hok
  exact h v hv

theorem safe_authorizedWork {accountId : AccountId} {grantId : GrantId} {projectId : ProjectId}
    {capability : Capability} (hphase : Phase id old w) (hrank : old.rank ≤ new.rank)
    (hown : ∀ parts ∈ new.sealed?, parts.intent.attemptId = id) :
    Safe submissions.contract (.backup id) (Ends fun _ => Phase id new)
      (authorizeEffect accountId grantId projectId capability (writeWork id new)) w :=
  safe_authorized fun _ hv =>
    writes_phase (stable_phase.rely hv hphase) (fun _ => rfl) (fun _ => rfl) hrank hown

/-! ## The phases of a capture -/

theorem safe_cleanupPhase {row : BackupRow} {receipt : Receipt} {cleaned : Bool} {attempts : Nat}
    (hid : row.id = id) (hown : parts.intent.attemptId = id)
    (hphase : Phase id (.stored parts receipt cleaned attempts) w) :
    Safe submissions.contract (.backup id) (Ends Anyhow)
      (cleanupPhase row parts receipt cleaned attempts) w := by
  subst hid
  have howns : ∀ (cleaned : Bool) (attempts : Nat), ∀ got ∈
      (BackupWork.stored parts receipt cleaned attempts).sealed?, got.intent.attemptId = row.id := by
    intro cleaned attempts got hgot
    obtain rfl := Option.some.inj hgot
    exact hown
  refine Safe.seq (Quiet.ask (quiet_of_stable stable_phase) rfl hphase) fun _ v hv => ?_
  split
  · refine Safe.seq (safe_save hv (Nat.le_refl 4) (howns _ _)) fun _ v hv => ?_
    refine Safe.seq (Q := fun _ => Phase row.id (.stored parts receipt false (attempts + 1)))
      (Marks.safe_look stable_phase hv fun v env a s hP _ hok => ?_) fun machine v hv => ?_
    · obtain ⟨-, rfl⟩ := Prod.mk.inj (Except.ok.inj hok)
      exact ⟨rfl, hP⟩
    · have hrank : (BackupWork.stored parts receipt false (attempts + 1)).rank ≤
          (BackupWork.stored parts receipt true (attempts + 1)).rank := Nat.le_refl 4
      have hdone : ∀ v, Phase row.id (.stored parts receipt false (attempts + 1)) v →
          Safe submissions.contract (.backup row.id) (Ends Anyhow)
            (save row.id (.stored parts receipt true (attempts + 1))) v := by
        intro v hv
        refine (safe_save hv hrank (howns _ _)).mono fun r _ _ => ?_
        cases r <;> trivial
      split
      · refine Safe.seq (Quiet.ask (quiet_of_stable stable_phase) rfl hv) fun _ v hv => ?_
        exact Safe.seq (Quiet.ask (quiet_of_stable stable_phase) rfl hv) fun _ v hv => hdone v hv
      · exact hdone v hv
  · exact Safe.ends trivial

/-- The mark of an upload: the object was never put, as the phase found was an earlier one. -/
def Marked (id : BackupId) (parts : Sealed) (v : World interface) : Prop :=
  Phase id (.uploadSubmitted parts 0) v ∧ submissions.count v.log (.put id) = 0

theorem stable_marked : submissions.Stable (.backup id) (Marked id parts) :=
  stable_phase.and (Marks.Stable.unasked rfl)

theorem safe_markUpload (hown : parts.intent.attemptId = id)
    (hphase : Phase id (.uploadReady parts) w) :
    Safe submissions.contract (.backup id) (Ends fun _ => Marked id parts)
      (save id (.uploadSubmitted parts 0)) w := by
  refine Marks.safe_write fun v env a s hv hvalid hok => ?_
  obtain ⟨-, rfl⟩ := Prod.mk.inj (Except.ok.inj hok)
  have hready := stable_phase.rely hv hphase
  have hnone : ¬ Effect.submitted v.store (.put id) := by
    rintro ⟨row, hrow, hrank⟩
    obtain ⟨found, hfound, hwork⟩ := hready
    obtain rfl : row = found := Option.some.inj (hrow.symm.trans hfound)
    rw [hwork] at hrank
    have hready_rank : (BackupWork.uploadReady parts).rank = 2 := rfl
    omega
  have hsealed : ∀ got ∈ (BackupWork.uploadSubmitted parts 0).sealed?, got.intent.attemptId = id := by
    intro got hgot
    obtain rfl := Option.some.inj hgot
    exact hown
  obtain ⟨hwrites, hphase⟩ := writes_phase (f := fun row => { row with work := .uploadSubmitted parts 0 })
    hready (fun _ => rfl) (fun _ => rfl) (Nat.le_succ 2) hsealed
  exact ⟨hwrites, hphase, unasked hvalid hnone⟩

/-- The one PUT of a backup: from its mark to the verified receipt. -/
theorem safe_upload {store : StoreConfig} (hown : parts.intent.attemptId = id)
    (hmarked : Marked id parts w) :
    Safe submissions.contract (.backup id) (Ends fun _ => Phase id (.uploadSubmitted parts 0))
      (upload store parts.intent) w := by
  refine Safe.seq (safe_bind (quiet_of_stable stable_marked) hmarked) fun intent v hv => ?_
  obtain ⟨rfl, hv⟩ := hv
  refine Safe.seq (Marks.safe_ask stable_marked rfl hv) fun protection v hv => ?_
  refine Safe.seq (safe_thrown hv) fun _ v hv => ?_
  refine Safe.seq (Marks.safe_ask stable_marked rfl hv) fun reply v hv => ?_
  refine Safe.seq (safe_thrown hv) fun digests v hv => ?_
  refine Safe.seq (Marks.safe_ask stable_marked rfl hv) fun submitted v hv => ?_
  refine Safe.seq (safe_refuseIf hv) fun _ v hv => ?_
  have hput : Safe submissions.contract (.backup id)
      (Ends fun _ => Phase id (.uploadSubmitted parts 0))
      (Prog.ask (S := interface) (.putObject parts.intent)) v := by
    refine Marks.safe_effect (x := .put id) (by simp [submissions, Call.effect, hown]) rfl
      fun u hu _ => ?_
    obtain ⟨⟨row, hrow, hwork⟩, hfirst⟩ := stable_marked.rely hu hv
    refine ⟨hfirst, fun effect heffect => ?_, ⟨row, parts, by rw [hown]; exact hrow, hwork, rfl⟩,
      fun _ => ⟨row, hrow, hwork⟩⟩
    obtain rfl := Option.some.inj heffect
    exact ⟨row, by rw [hown]; exact hrow, by rw [hwork]; exact Nat.le_refl 3⟩
  refine Safe.seq hput fun put v hv => ?_
  refine Safe.seq (safe_thrown hv) fun versionId v hv => ?_
  refine Safe.seq (safe_receiptOf (quiet_of_stable stable_phase) hv) fun receipt v hv => ?_
  obtain ⟨rfl, hv⟩ := hv
  refine Safe.seq (safe_inspectMetadata (quiet_of_stable stable_phase) hv) fun _ v hv => ?_
  exact Safe.seq (safe_readVersion (quiet_of_stable stable_phase) hv) fun _ v hv => Safe.ends hv

theorem safe_uploadPhase {row : BackupRow} (hid : row.id = id) (hown : parts.intent.attemptId = id)
    (hphase : Phase id (.uploadReady parts) w) :
    Safe submissions.contract (.backup id) (Ends Anyhow) (uploadPhase config row parts) w := by
  subst hid
  refine Safe.seq (safe_markUpload hown hphase) fun _ v hv => ?_
  refine Safe.seq (safe_upload hown hv) fun receipt v hv => ?_
  refine Safe.seq (safe_saveStored hv (by decide : (3 : Nat) ≤ 4) hown) fun _ v hv => ?_
  exact safe_cleanupPhase rfl hown hv

theorem safe_recoverPhase {row : BackupRow} {attempts : Nat} (hid : row.id = id)
    (hown : parts.intent.attemptId = id) (hphase : Phase id (.uploadSubmitted parts attempts) w) :
    Safe submissions.contract (.backup id) (Ends Anyhow) (recoverPhase config row parts attempts)
      w := by
  subst hid
  rw [recoverPhase]
  split
  · exact safe_blockBackup
  · refine Safe.seq (safe_save hphase (Nat.le_refl 3) fun got hgot => ?_) fun _ v hv => ?_
    · obtain rfl := Option.some.inj hgot
      exact hown
    · refine Safe.seq (safe_recover (quiet_of_stable stable_phase) hv) fun recovered v hv => ?_
      cases recovered with
      | none => trivial
      | some receipt =>
        refine Safe.seq (safe_saveStored hv.2 (by decide : (3 : Nat) ≤ 4) hown) fun _ v hv => ?_
        exact safe_cleanupPhase rfl hown hv

theorem safe_encryptPhase {row : BackupRow} {captured : Capture} {attempts : Nat}
    (hid : row.id = id) (hphase : Phase id (.encrypt captured attempts) w) :
    Safe submissions.contract (.backup id) (Ends Anyhow)
      (encryptPhase config row captured attempts) w := by
  subst hid
  rw [encryptPhase]
  split
  · exact safe_blockBackup
  · refine Safe.seq (Quiet.ask (quiet_of_stable stable_phase) rfl hphase) fun _ v hv => ?_
    refine Safe.seq (Quiet.ask (quiet_of_stable stable_phase) rfl hv) fun _ v hv => ?_
    refine Safe.seq (Quiet.ask (quiet_of_stable stable_phase) rfl hv) fun _ v hv => ?_
    refine Safe.seq (safe_authorizedWork hv (Nat.le_refl 1) (by rintro _ ⟨⟩)) fun _ v hv => ?_
    refine Safe.seq (Marks.safe_ask stable_phase rfl hv) fun reply v hv => ?_
    refine Safe.seq (safe_thrown hv) fun keyring v hv => ?_
    refine Safe.seq (Quiet.ask (quiet_of_stable stable_phase) rfl hv) fun _ v hv => ?_
    refine Safe.seq (safe_encryptBackup stable_phase hv) fun encryption v hv => ?_
    refine Safe.seq (safe_refuseIf hv) fun _ v hv => ?_
    refine Safe.seq (safe_prepareUpload stable_phase hv) fun intent v hv => ?_
    obtain ⟨hown, hv⟩ := hv
    refine Safe.seq (safe_save hv (by decide : (1 : Nat) ≤ 2) fun got hgot => ?_) fun _ v hv => ?_
    · obtain rfl := Option.some.inj hgot
      exact hown
    · exact safe_uploadPhase rfl hown hv

theorem safe_capturePhase {row : BackupRow} {attempts : Nat} (hid : row.id = id)
    (hphase : Phase id (.capture attempts) w) :
    Safe submissions.contract (.backup id) (Ends Anyhow) (capturePhase config row attempts) w := by
  subst hid
  rw [capturePhase]
  split
  · exact safe_blockBackup
  · refine Safe.seq (safe_authorizedWork hphase (Nat.le_refl 0) (by rintro _ ⟨⟩))
      fun _ v hv => ?_
    refine Safe.seq (Quiet.ask (quiet_of_stable stable_phase) rfl hv) fun _ v hv => ?_
    refine Safe.seq (Marks.safe_ask stable_phase rfl hv) fun reply v hv => ?_
    refine Safe.seq (safe_thrown hv) fun state v hv => ?_
    refine Safe.seq (Safe.ofExcept fun _ _ => hv) fun captured v hv => ?_
    refine Safe.seq (safe_refuseIf hv) fun _ v hv => ?_
    refine Safe.seq (safe_save hv (by decide : (0 : Nat) ≤ 1) (by rintro _ ⟨⟩)) fun _ v hv => ?_
    exact safe_encryptPhase rfl hv

/-- The row a tick starts from. -/
def Found (id : BackupId) (got : Option BackupRow) (v : World interface) : Prop :=
  ∀ row ∈ got, row.id = id ∧ row.SealedOwn ∧ Phase id row.work v

theorem safe_readBackup :
    Safe submissions.contract (.backup id) (Ends (Found id)) (readBackup id) w := by
  refine Marks.safe_write fun v env got s _ hvalid hok => ?_
  obtain ⟨rfl, rfl⟩ := Prod.mk.inj (Except.ok.inj hok)
  exact ⟨.refl _ _, fun row hrow =>
    ⟨Table.get_key hrow, hvalid.inv id row hrow, row, hrow, rfl⟩⟩

theorem safe_carryOn {row : BackupRow} (hid : row.id = id) (hown : row.SealedOwn)
    (hphase : Phase id row.work w) :
    Safe submissions.contract (.backup id) (Ends Anyhow) (carryOn config row) w := by
  rw [carryOn]
  cases hwork : row.work with
  | capture attempts => exact safe_capturePhase hid (hwork ▸ hphase)
  | encrypt captured attempts => exact safe_encryptPhase hid (hwork ▸ hphase)
  | uploadReady parts =>
    exact safe_uploadPhase hid (hid ▸ hown parts (by simp [hwork, BackupWork.sealed?]))
      (hwork ▸ hphase)
  | uploadSubmitted parts attempts =>
    exact safe_recoverPhase hid (hid ▸ hown parts (by simp [hwork, BackupWork.sealed?]))
      (hwork ▸ hphase)
  | stored parts receipt cleaned attempts =>
    exact safe_cleanupPhase hid (hid ▸ hown parts (by simp [hwork, BackupWork.sealed?]))
      (hwork ▸ hphase)

theorem safe_advanceCapture :
    Safe submissions.contract (.backup id) (Ends Anyhow) (advanceCapture config id) w := by
  refine Safe.seq safe_readBackup fun row v hfound => ?_
  cases row with
  | none => exact Safe.ends trivial
  | some row =>
    obtain ⟨hid, hown, hphase⟩ := hfound row rfl
    simp only
    split
    · exact safe_carryOn hid hown hphase
    · exact Safe.ends trivial

end Backup

end AgentCloud.Backups
