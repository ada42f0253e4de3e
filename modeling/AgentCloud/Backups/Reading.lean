/-
  WHAT ONLY READS: the programs of the object store that ask, check, and change nothing.

  They are verified once, for every contract of the backup workers and for everything that passive
  calls keep (`Quiet`).  What they return is said here as well: a bound intent is the intent, and a
  recovered receipt is a receipt of it.
-/
import AgentCloud.Backups.ObjectStore

namespace AgentCloud.Backups

open Checked Durable

/-- Calls that write nothing outside, and whose reply no write outside rests on. -/
def Call.passive : Call → Bool
  | .putObject _ => false
  | .streamRestore _ => false
  | .readAndEncrypt .. => false
  | .probeVersion _ => false
  | .deleteVersion _ => false
  | _ => true

variable {K : Type} {C : Contract interface K} {k : K} {P : World interface → Prop}
  {E : WorkFault → World interface → Prop} {w : World interface} {store : StoreConfig}
  {intent : Intent} {receipt : Receipt} {current : Bool}

/-- Passive calls keep what is known, and a fault from there ends as it may. -/
structure Quiet (C : Contract interface K) (k : K) (P : World interface → Prop)
    (E : WorkFault → World interface → Prop) : Prop where
  asks : ∀ {c : Call} {w : World interface}, c.passive = true → P w →
    Safe C k (Told (fun _ => P) E) (Prog.ask (S := interface) c) w
  faults : ∀ {f : Fault} {w : World interface}, P w → E (.fault f) w

theorem safe_thrown {α : Type} {r : Except Fault α} (hw : P w) :
    Safe C k (Ends fun _ => P) (thrown r) w := Safe.ofExcept fun _ _ => hw

theorem safe_refuseIf {c : Prop} [Decidable c] {message : String} (hw : P w) :
    Safe C k (Ends fun _ => P) (refuseIf c message) w :=
  Safe.ofExcept fun _ _ => hw

namespace Quiet

theorem returned {α : Type} {r : Except Fault α} (hq : Quiet C k P E) (hw : P w) :
    Safe C k (Told (fun a v => r = .ok a ∧ P v) E) (Backups.thrown r) w := by
  cases r with
  | ok a => exact ⟨rfl, hw⟩
  | error f => exact hq.faults hw

theorem thrown {α : Type} {r : Except Fault α} (hq : Quiet C k P E) (hw : P w) :
    Safe C k (Told (fun _ => P) E) (Backups.thrown r) w :=
  (hq.returned hw).mono fun r v hr => by
    cases r with
    | ok _ => exact hr.2
    | error _ => exact hr

/-- A check that was passed. -/
theorem checked {c : Prop} [Decidable c] {message : String} (hq : Quiet C k P E) (hw : P w) :
    Safe C k (Told (fun _ v => ¬ c ∧ P v) E) (refuseIf c message) w := by
  unfold refuseIf refuse
  split
  · exact hq.faults hw
  · next hc => exact ⟨hc, hw⟩

theorem refuseIf {c : Prop} [Decidable c] {message : String} (hq : Quiet C k P E) (hw : P w) :
    Safe C k (Told (fun _ => P) E) (Backups.refuseIf c message) w :=
  (hq.checked hw).mono fun r v hr => by
    cases r with
    | ok _ => exact hr.2
    | error _ => exact hr

theorem ask (hq : Quiet C k P E) {c : Call} {h : c.Reply = Except Fault Unit}
    (hc : c.passive = true) (hw : P w) : Safe C k (Told (fun _ => P) E) (Backups.ask c h) w :=
  Safe.seq (hq.asks hc hw) fun _ _ hv => hq.thrown hv

end Quiet

theorem safe_bind (hq : Quiet C k P E) (hw : P w) :
    Safe C k (Told (fun got v => got = intent ∧ P v) E) (bind store intent current) w := by
  refine Safe.seq (hq.asks rfl hw) fun now v hv => ?_
  exact Safe.seq (hq.refuseIf hv) fun _ v hv => Safe.ends ⟨rfl, hv⟩

theorem safe_checkMetadata {head : Head} (hq : Quiet C k P E) (hw : P w) :
    Safe C k (Told (fun _ => P) E) (checkMetadata head receipt) w :=
  Safe.seq (hq.refuseIf hw) fun _ _ hv => hq.refuseIf hv

theorem safe_retainedUntil (hq : Quiet C k P E) (hw : P w) :
    Safe C k
      (Told (fun retained v => receipt.intent.retention.retainUntil ≤ retained ∧ P v) E)
      (retainedUntil receipt current) w := by
  refine Safe.seq (hq.asks rfl hw) fun reply v hv => ?_
  refine Safe.seq (hq.thrown hv) fun retained v hv => ?_
  refine Safe.seq (hq.asks rfl hv) fun now v hv => ?_
  refine Safe.seq (hq.checked hv) fun _ v hv => Safe.ends ?_
  obtain ⟨hpassed, hv⟩ := hv
  simp only [not_or, Nat.not_lt] at hpassed
  exact ⟨hpassed.2.1, hv⟩

theorem safe_checkRetention (hq : Quiet C k P E) (hw : P w) :
    Safe C k (Told (fun _ => P) E) (checkRetention receipt current) w :=
  Safe.seq (safe_retainedUntil hq hw) fun _ _ hv => Safe.ends hv.2

theorem safe_inspectMetadata (hq : Quiet C k P E) (hw : P w) :
    Safe C k (Told (fun _ => P) E) (inspectMetadata receipt current) w := by
  refine Safe.seq (hq.asks rfl hw) fun reply v hv => ?_
  refine Safe.seq (hq.thrown hv) fun head v hv => ?_
  exact Safe.seq (safe_checkMetadata hq hv) fun _ v hv => safe_checkRetention hq hv

theorem safe_readVersion (hq : Quiet C k P E) (hw : P w) :
    Safe C k (Told (fun _ => P) E) (readVersion receipt current) w := by
  refine Safe.seq (hq.asks rfl hw) fun reply v hv => ?_
  refine Safe.seq (hq.thrown hv) fun head v hv => ?_
  exact Safe.seq (safe_checkMetadata hq hv) fun _ v hv => safe_checkRetention hq hv

theorem safe_receiptOf {versionId : String} (hq : Quiet C k P E) (hw : P w) :
    Safe C k (Told (fun receipt v => receipt = ⟨intent, versionId⟩ ∧ P v) E)
      (receiptOf intent versionId) w :=
  Safe.seq (hq.refuseIf hw) fun _ _ hv => Safe.ends ⟨rfl, hv⟩

theorem safe_scanVersions (hq : Quiet C k P E) (versions : List ListedVersion)
    (candidates : List String) (hw : P w) :
    Safe C k (Told (fun _ => P) E) (scanVersions intent versions candidates) w := by
  induction versions generalizing candidates w with
  | nil => exact Safe.ends hw
  | cons version versions ih =>
    rw [scanVersions]
    split
    · exact ih candidates hw
    · refine Safe.seq (safe_receiptOf hq hw) fun receipt v hv => ?_
      obtain ⟨rfl, hv⟩ := hv
      refine Safe.seq (hq.asks rfl hv) fun reply v hv => ?_
      refine Safe.seq (hq.thrown hv) fun head v hv => ?_
      split
      · exact ih candidates hv
      · refine Safe.seq (safe_checkMetadata hq hv) fun _ v hv => ?_
        split
        · exact Safe.ends hv
        · exact ih _ hv

/-- What was found is a receipt of the intent. -/
def Recovered (intent : Intent) (found : Option Receipt) : Prop :=
  ∀ receipt ∈ found, receipt.intent = intent

theorem Recovered.none : Recovered intent none := fun _ h => nomatch h

theorem safe_verifyCandidate (hq : Quiet C k P E) (candidates : List String) (hw : P w) :
    Safe C k (Told (fun found v => Recovered intent found ∧ P v) E)
      (verifyCandidate intent candidates) w := by
  cases candidates with
  | nil => exact Safe.ends ⟨.none, hw⟩
  | cons versionId rest =>
    refine Safe.seq (safe_receiptOf hq hw) fun receipt v hv => ?_
    obtain ⟨rfl, hv⟩ := hv
    refine Safe.seq (safe_inspectMetadata hq hv) fun _ v hv => ?_
    refine Safe.seq (safe_readVersion hq hv) fun _ v hv => Safe.ends ⟨?_, hv⟩
    intro receipt hreceipt
    obtain rfl := Option.some.inj hreceipt
    rfl

theorem safe_recoverPages (hq : Quiet C k P E) (pages : Nat) (marker : Option (String × String))
    (candidates : List String) (hw : P w) :
    Safe C k (Told (fun found v => Recovered intent found ∧ P v) E)
      (recoverPages intent pages marker candidates) w := by
  induction pages generalizing marker candidates w with
  | zero => exact Safe.ends ⟨.none, hw⟩
  | succ pages ih =>
    refine Safe.seq (hq.asks rfl hw) fun reply v hv => ?_
    refine Safe.seq (hq.thrown hv) fun page v hv => ?_
    refine Safe.seq (hq.refuseIf hv) fun _ v hv => ?_
    refine Safe.seq (safe_scanVersions hq _ _ hv) fun found v hv => ?_
    cases found with
    | none => exact Safe.ends ⟨.none, hv⟩
    | some candidates =>
      simp only
      split
      · exact safe_verifyCandidate hq candidates hv
      · exact Safe.seq (hq.refuseIf hv) fun _ v hv => ih _ _ hv

/-- Recovery reads only. -/
theorem safe_recover (hq : Quiet C k P E) (hw : P w) :
    Safe C k (Told (fun found v => Recovered intent found ∧ P v) E) (recover store intent) w := by
  refine Safe.seq (safe_bind hq hw) fun intent' v hv => ?_
  obtain ⟨rfl, hv⟩ := hv
  refine Safe.seq (hq.asks rfl hv) fun protection v hv => ?_
  exact Safe.seq (hq.thrown hv) fun _ v hv => safe_recoverPages hq 4 none [] hv

end AgentCloud.Backups
