/-
  RESOLVING IS SAFE: what is settled was seen.

  `evaluate` reads the provider and claims what it discovers; `Witnessed` is what a confirmation rests
  on when it comes to be written: an exact read that found nothing for an absence, a server or
  address that the ledger knows or may claim for the rest.  `verified_resolveEffect` then writes one
  resolution at most, of this attempt, and leaves the others alone.
-/
import AgentCloud.Lifecycle.Journalling

namespace AgentCloud.Lifecycle

open Checked Durable

variable {A : Replies} {operation : OperationRow} {attempt : Attempt} {start journal : Journal}
  {log : Log} {labels : Labels}

/-! ## The judgements -/

/-- An evaluation that settles nothing by an observation. -/
def Evaluation.Open : Evaluation → Prop
  | confirmed _ => False
  | failed _ => True
  | pending progress => progress.terminal = false

theorem Evaluation.open_waiting {resource : ResourceRef} : (waiting attempt resource).Open := by
  unfold waiting
  split <;> rfl

/-- What an exact read shows of a server, where it settles an effect. -/
structure ShownServer (attempt : Attempt) (resource : ResourceRef) (seen : Option ProviderServer)
    (observation : ResourceObservation) : Prop where
  shown : (observation = .absent resource ∧ seen = none) ∨
    ∃ server, seen = some server ∧ observation = .server server ∧ server.id = resource.id
  confirms : Confirms attempt.command (.confirmed observation)

theorem judgeShown_cases {resource : ResourceRef} {server : ProviderServer} {shown : Bool} :
    (judgeShown attempt resource server shown).Open ∨
      shown = true ∧ judgeShown attempt resource server shown = .confirmed (.server server) := by
  unfold judgeShown
  split
  · next h => exact .inr ⟨h, rfl⟩
  · exact .inl Evaluation.open_waiting

theorem judgeCreated_cases {request : ServerRequest} {resource : ResourceRef}
    {server : ProviderServer} :
    (judgeCreated attempt request resource server).Open ∨
      judgeCreated attempt request resource server = .confirmed (.server server) := by
  unfold judgeCreated
  split
  · exact .inl rfl
  · split
    · exact .inl Evaluation.open_waiting
    · exact .inr rfl

theorem judgeOwned_cases {resource : ResourceRef} {server : ProviderServer} :
    (judgeOwned attempt resource server).Open ∨
      judgeOwned attempt resource server = .confirmed (.server server) ∧
        Confirms attempt.command (.confirmed (.server server)) := by
  -- only a resize says something about the type that was seen
  have hfree : (∀ serverId serverType, attempt.command ≠ .resize serverId serverType) →
      Confirms attempt.command (.confirmed (.server server)) :=
    fun hno _ _ serverId serverType hresize => absurd hresize (hno serverId serverType)
  unfold judgeOwned
  split
  · next h => exact judgeCreated_cases.imp_right fun hc => ⟨hc, hfree (by simp [h])⟩
  · next h => exact judgeCreated_cases.imp_right fun hc => ⟨hc, hfree (by simp [h])⟩
  · next serverType h =>
    refine judgeShown_cases.imp_right fun ⟨hshown, hc⟩ => ⟨hc, ?_⟩
    rintro observation hobs _ _ hresize
    obtain ⟨-, rfl⟩ := ProviderCommand.resize.inj (h.symm.trans hresize)
    obtain rfl := EffectResolution.confirmed.inj hobs
    exact ⟨server, rfl, of_decide_eq_true hshown⟩
  · next h => exact judgeShown_cases.imp_right fun hc => ⟨hc.2, hfree (by simp [h])⟩
  · next h => exact judgeShown_cases.imp_right fun hc => ⟨hc.2, hfree (by simp [h])⟩
  · next h => exact judgeShown_cases.imp_right fun hc => ⟨hc.2, hfree (by simp [h])⟩
  · next h => exact judgeShown_cases.imp_right fun hc => ⟨hc.2, hfree (by simp [h])⟩
  · exact .inl Evaluation.open_waiting
  · exact .inl rfl
  · exact .inl rfl

theorem judgeServer_cases {recovering : Bool} {resource : ResourceRef}
    {seen : Option ProviderServer} :
    (judgeServer recovering attempt labels resource seen).Open ∨
      ∃ observation, judgeServer recovering attempt labels resource seen = .confirmed observation ∧
        ShownServer attempt resource seen observation := by
  unfold judgeServer
  split
  · exact .inl rfl
  · next hid =>
    split
    · next h =>
      exact .inr ⟨_, rfl, .inl ⟨rfl, rfl⟩, fun _ _ _ _ hresize => by rw [h] at hresize; cases hresize⟩
    · split
      · next hgone =>
        refine .inr ⟨_, rfl, .inl ⟨rfl, rfl⟩, fun _ _ _ _ hresize => ?_⟩
        have := hgone.2.2
        rw [hresize] at this
        cases this
      · exact .inl Evaluation.open_waiting
    · next server =>
      split
      · exact .inl rfl
      · refine judgeOwned_cases.imp_right fun ⟨hc, hconfirms⟩ => ⟨_, hc, ?_, hconfirms⟩
        exact .inr ⟨server, rfl, rfl, by simpa using hid⟩

/-- What an exact read shows of an address, where it settles an effect. -/
structure ShownIp (attempt : Attempt) (resource : ResourceRef) (seen : Option ProviderPrimaryIp)
    (observation : ResourceObservation) : Prop where
  shown : (observation = .absent resource ∧ seen = none) ∨
    ∃ ip, seen = some ip ∧ observation = .primaryIp ip ∧ ip.id = resource.id ∧
      attempt.command.isIpCreate = true
  confirms : Confirms attempt.command (.confirmed observation)

theorem judgeIp_cases {recovering : Bool} {resource : ResourceRef}
    {seen : Option ProviderPrimaryIp} :
    (judgeIp recovering attempt labels resource seen).Open ∨
      ∃ observation, judgeIp recovering attempt labels resource seen = .confirmed observation ∧
        ShownIp attempt resource seen observation := by
  have hfree : ∀ resolution, (∀ serverId serverType,
      attempt.command ≠ .resize serverId serverType) → Confirms attempt.command resolution :=
    fun _ hno _ _ serverId serverType hresize => absurd hresize (hno serverId serverType)
  unfold judgeIp
  split
  · exact .inl rfl
  · next hid =>
    split
    · next h => exact .inr ⟨_, rfl, .inl ⟨rfl, rfl⟩, hfree _ (by simp [h])⟩
    · split
      · exact .inl rfl
      · exact .inl Evaluation.open_waiting
    · next h =>
      split
      · exact .inr ⟨_, rfl, .inl ⟨rfl, rfl⟩, hfree _ (by simp [h])⟩
      · exact .inl Evaluation.open_waiting
    · next ip h =>
      split
      · exact .inl rfl
      · refine .inr ⟨_, rfl, .inr ⟨ip, rfl, rfl, by simpa using hid, ?_⟩, hfree _ (by simp [h])⟩
        rw [h]
        rfl
    · exact .inl rfl

/-! ## The resource to look at -/

/-- Where the effect is to be seen: the target of its command, or what it created. -/
structure Located (attempt : Attempt) (resource : ResourceRef) : Prop where
  mayExist : attempt.mayExist = true
  target : ∀ target, attempt.command.target? = some target → target = resource
  kind : resource.kind = attempt.command.resourceKind

theorem Located.of_receipt {resource : ResourceRef} (hmay : attempt.mayExist = true)
    (h : receiptMismatch attempt.command resource = false) : Located attempt resource := by
  simp only [receiptMismatch, Bool.or_eq_false_iff, decide_eq_false_iff_not, not_not] at h
  refine ⟨hmay, fun target htarget => ?_, h.1⟩
  have hid := h.2
  rw [htarget] at hid
  have hkind := ProviderCommand.resourceKind_of_target htarget
  obtain ⟨kind, id⟩ := target
  obtain ⟨kind', id'⟩ := resource
  simp_all

/-- What was located, or an evaluation that settles nothing. -/
def Found (attempt : Attempt) : Except Evaluation ResourceRef → Prop
  | .ok resource => Located attempt resource
  | .error evaluation => evaluation.Open

theorem verified_claimMatches {kind : ResourceKind} {labels : Labels}
    (hclaim : ∀ id, Claimable start.attempts ⟨kind, id⟩ labels) (found : List (String × Labels))
    (mismatch : Bool) :
    Verified A (fun j _ => Discovering operation start j) (claimMatches kind labels found mismatch)
      (fun _ j _ => Discovering operation start j) fun j _ => Discovering operation start j := by
  induction found generalizing mismatch with
  | nil => exact .pure fun _ _ h => h
  | cons first rest ih =>
    obtain ⟨id, seen⟩ := first
    rw [claimMatches]
    split
    · refine .bind (Q := fun _ j _ => Discovering operation start j) (.handle
        (F := fun j _ => Discovering operation start j)
        (.bind (verified_claimNow (hclaim id)) fun _ => .pure fun _ _ h => h) fun fault => ?_)
        fun conflict => ih _
      cases fault with
      | cloud failure => exact .pure fun _ _ h => h
      | other message => exact .raise fun _ _ h => h
    · exact ih true

/-- An uncertain create may claim every match. -/
theorem claimable_of_attempt {ref : ResourceRef} (hm : attempt ∈ start.attempts)
    (hmay : attempt.mayExist = true) (hkind : ref.kind = attempt.command.resourceKind)
    (hlabels : attempt.command.labels? = some labels) : Claimable start.attempts ref labels :=
  ⟨attempt, hm, ProviderCommand.isCreation_of_labels hlabels, hmay, hkind, hlabels⟩

theorem verified_discover (hm : attempt ∈ start.attempts) (hmay : attempt.mayExist = true)
    (hlabels : attempt.command.labels? = some labels) :
    Verified A (fun j _ => Discovering operation start j) (discover attempt labels)
      (fun r j _ => Found attempt r ∧ Discovering operation start j)
      fun j _ => Discovering operation start j := by
  refine .bind (verified_search fun _ h => h.busy) fun found =>
    .bind (verified_claimMatches (fun id => claimable_of_attempt hm hmay rfl hlabels) found false)
      fun mismatch => ?_
  split
  · exact .pure fun _ _ h => ⟨rfl, h⟩
  · refine .bind (Q := fun _ j _ => Discovering operation start j)
      (.readJournal (fun _ _ h => h.busy) fun _ _ h _ => h) fun journal => ?_
    split
    · exact .pure fun _ _ h => ⟨rfl, h⟩
    · split
      · exact .pure fun _ _ h => ⟨rfl, h⟩
      · refine .pure fun _ _ h => ⟨⟨hmay, fun target htarget => ?_, rfl⟩, h⟩
        rw [ProviderCommand.target?_of_labels hlabels] at htarget
        cases htarget

theorem verified_locate (hm : attempt ∈ start.attempts) :
    Verified A (fun j _ => Discovering operation start j) (locate attempt)
      (fun r j _ => Found attempt r ∧ Discovering operation start j)
      fun j _ => Discovering operation start j := by
  have hmay : ∀ outcome, attempt.outcome = outcome → outcome.rejected = false →
      attempt.mayExist = true := by
    rintro outcome rfl hrejected
    simp [Attempt.mayExist, hrejected]
  unfold locate
  split
  · exact .pure fun _ _ h => ⟨trivial, h⟩
  · next resource actionId houtcome =>
    split
    · exact .pure fun _ _ h => ⟨rfl, h⟩
    · next hmatch =>
      refine .bind (verified_getAction fun _ h => h.busy) fun action => ?_
      split
      · exact .pure fun _ _ h => ⟨rfl, h⟩
      · exact .pure fun _ _ h => ⟨trivial, h⟩
      · exact .pure fun _ _ h =>
          ⟨.of_receipt (hmay _ houtcome rfl) (Bool.eq_false_iff.mpr hmatch), h⟩
  · next resource houtcome =>
    split
    · exact .pure fun _ _ h => ⟨rfl, h⟩
    · next hmatch =>
      exact .pure fun _ _ h =>
        ⟨.of_receipt (hmay _ houtcome rfl) (Bool.eq_false_iff.mpr hmatch), h⟩
  · next hnot hnot' hnot'' =>
    have hexist : attempt.mayExist = true := by
      refine hmay _ rfl ?_
      cases houtcome : attempt.outcome with
      | prepared => rfl
      | received submission => cases submission <;> simp_all [AttemptOutcome.rejected]
    split
    · next labels hlabels => exact verified_discover hm hexist hlabels
    · next target hnone htarget =>
      refine .pure fun _ _ h => ⟨⟨hexist, fun target' htarget' => ?_, ?_⟩, h⟩
      · rw [htarget] at htarget'
        exact (Option.some.inj htarget').symm
      · exact (ProviderCommand.resourceKind_of_target htarget).symm
    · exact .pure fun _ _ h => ⟨rfl, h⟩

/-! ## The evaluation -/

/-- The resource that an observation shows. -/
def ResourceObservation.owned? : ResourceObservation → Option ResourceRef
  | server shown => some ⟨.server, shown.id⟩
  | primaryIp shown => some ⟨.primaryIp, shown.id⟩
  | absent _ => none

/-- What a confirmation rests on when it comes to be written. -/
structure Witnessed (A : Replies) (attempt : Attempt) (labels : Labels)
    (observation : ResourceObservation) (journal : Journal) (log : Log) : Prop where
  confirms : Confirms attempt.command (.confirmed observation)
  absent : ∀ ref, observation = .absent ref → ReadNull A log journal ref
  owned : ∀ ref, observation.owned? = some ref →
    Claimable journal.attempts ref (attempt.command.labels?.getD labels) ∨
      journal.resource ref ≠ none

/-- The ledger has what the attempt works on. -/
def TargetKnown (attempt : Attempt) (journal : Journal) : Prop :=
  ∀ target, attempt.command.target? = some target → ∃ row ∈ journal.resources, row.ref = target

/-- What is located is claimable, or in the ledger. -/
theorem Located.owned {resource : ResourceRef} (h : Located attempt resource)
    (hknown : TargetKnown attempt start) (hm : attempt ∈ start.attempts)
    (hj : Discovering operation start journal) :
    Claimable journal.attempts resource (attempt.command.labels?.getD labels) ∨
      journal.resource resource ≠ none := by
  cases hlabels : attempt.command.labels? with
  | some found =>
    rw [hj.claims.attempts]
    exact .inl (claimable_of_attempt hm h.mayExist h.kind hlabels)
  | none =>
    obtain ⟨target, htarget⟩ := ProviderCommand.target?_of_unlabelled hlabels
    obtain ⟨row, hrow, href⟩ := hknown target htarget
    refine .inr fun hnone => ?_
    have hrow' := hj.claims.resources hrow
    exact Table.get_eq_none.mp hnone row hrow' (href.trans (h.target target htarget))

theorem verified_observe {recovering : Bool} {resource : ResourceRef}
    (located : Located attempt resource) (hknown : TargetKnown attempt start)
    (hm : attempt ∈ start.attempts) :
    Verified A (fun j _ => Discovering operation start j)
      (observe recovering attempt labels resource)
      (fun e j l => (e.Open ∨ ∃ observation, e = .confirmed observation ∧
        Witnessed A attempt labels observation j l) ∧ Discovering operation start j)
      fun j _ => Discovering operation start j := by
  unfold observe
  split
  · next hkind =>
    refine .bind (.post (verified_readPrimaryIp (P := fun j _ => Discovering operation start j)
      fun _ _ h => h.busy) (fun _ _ _ h => h) fun _ _ ⟨_, h⟩ => h) fun seen => .pure ?_
    rintro j l ⟨v, hv, rfl, hl, hA⟩
    refine ⟨judgeIp_cases.imp_right fun ⟨observation, heq, hshown⟩ => ⟨observation, heq, ?_⟩, hv⟩
    rcases hshown.shown with ⟨rfl, rfl⟩ | ⟨ip, rfl, rfl, hid, -⟩
    · refine ⟨hshown.confirms, fun ref href => ?_, fun ref href => (by cases href)⟩
      obtain rfl := ResourceObservation.absent.inj href
      exact ⟨v, rfl, by simp [nullRead, hkind, hl], by simpa [nullRead, hkind] using hA⟩
    · refine ⟨hshown.confirms, fun ref href => (by cases href), fun ref href => ?_⟩
      obtain rfl : resource = ref := by
        rw [← Option.some.inj href, hid, ← hkind]
      exact located.owned hknown hm hv
  · next hkind =>
    refine .bind (.post (verified_readServer (P := fun j _ => Discovering operation start j)
      fun _ _ h => h.busy) (fun _ _ _ h => h) fun _ _ ⟨_, h⟩ => h) fun seen => .pure ?_
    rintro j l ⟨v, hv, rfl, hl, hA⟩
    refine ⟨judgeServer_cases.imp_right fun ⟨observation, heq, hshown⟩ =>
      ⟨observation, heq, ?_⟩, hv⟩
    rcases hshown.shown with ⟨rfl, rfl⟩ | ⟨server, rfl, rfl, hid⟩
    · refine ⟨hshown.confirms, fun ref href => ?_, fun ref href => (by cases href)⟩
      obtain rfl := ResourceObservation.absent.inj href
      exact ⟨v, rfl, by simp [nullRead, hkind, hl], by simpa [nullRead, hkind] using hA⟩
    · refine ⟨hshown.confirms, fun ref href => (by cases href), fun ref href => ?_⟩
      obtain rfl : resource = ref := by
        rw [← Option.some.inj href, hid, ← hkind]
      exact located.owned hknown hm hv

/-- What an evaluation settles, or leaves open. -/
def Sighted (A : Replies) (attempt : Attempt) (labels : Labels) (evaluation : Evaluation)
    (journal : Journal) (log : Log) : Prop :=
  evaluation.Open ∨ ∃ observation, evaluation = .confirmed observation ∧
    Witnessed A attempt labels observation journal log

theorem verified_vanished {recovering : Bool} {command : ProviderCommand} :
    Verified A (fun j _ => Discovering operation start j) (vanished recovering command)
      (fun gone j l => (∀ ref, gone = some ref → ReadNull A l j ref ∧
        ∀ resolution, Confirms command resolution) ∧ Discovering operation start j)
      fun j _ => Discovering operation start j := by
  have hlook : ∀ ref, (∀ resolution, Confirms command resolution) → Verified A
      (fun j _ => Discovering operation start j)
      ((look ref).bind fun seen => Pure.pure (if seen.isSome then none else some ref))
      (fun gone j l => (∀ ref, gone = some ref → ReadNull A l j ref ∧
        ∀ resolution, Confirms command resolution) ∧ Discovering operation start j)
      fun j _ => Discovering operation start j := by
    intro ref hconfirms
    refine .bind (verified_lookNull fun _ h => h.busy) fun seen => .pure fun j l ⟨hj, hnull⟩ =>
      ⟨fun ref' hsome => ?_, hj⟩
    cases seen with
    | some sighting => cases hsome
    | none =>
      obtain rfl := Option.some.inj hsome
      exact ⟨hnull rfl, hconfirms⟩
  unfold vanished
  split
  · exact hlook _ fun _ _ _ _ _ hresize => by cases hresize
  · exact hlook _ fun _ _ _ _ _ hresize => by cases hresize
  · exact hlook _ fun _ _ _ _ _ hresize => by cases hresize
  · exact .pure fun _ _ h => ⟨fun _ hnone => (by cases hnone), h⟩

theorem verified_evaluate {recovering : Bool} (hknown : TargetKnown attempt start)
    (hm : attempt ∈ start.attempts) :
    Verified A (fun j _ => Discovering operation start j) (evaluate recovering attempt labels)
      (fun e j l => Sighted A attempt labels e j l ∧ Discovering operation start j)
      fun j _ => Discovering operation start j := by
  refine .bind verified_vanished fun gone => ?_
  split
  · next resource =>
    refine .pure fun j l ⟨hgone, hj⟩ => ⟨.inr ⟨_, rfl, ?_⟩, hj⟩
    obtain ⟨hread, hconfirms⟩ := hgone resource rfl
    refine ⟨hconfirms _, fun ref href => ?_, fun ref href => by cases href⟩
    obtain rfl := ResourceObservation.absent.inj href
    exact hread
  · refine .bind (.pre (verified_locate hm) fun _ _ h => h.2) fun located => ?_
    split
    · exact .pure fun _ _ ⟨hfound, hj⟩ => ⟨.inl hfound, hj⟩
    · exact .fact fun hfound => verified_observe hfound hknown hm

/-! ## The settlement -/

/-- What a tick may count on after one of its attempts was looked at: the others are as they were. -/
structure Resolved (operation : OperationRow) (attempt : Attempt) (start journal : Journal) :
    Prop where
  working : Working operation journal
  cleanups : journal.cleanups = start.cleanups
  kept : ∀ a ∈ start.attempts, a.id ≠ attempt.id → a ∈ journal.attempts
  refs : ∀ row ∈ start.resources, ∃ row' ∈ journal.resources, row'.ref = row.ref

theorem Discovering.resolved (h : Discovering operation start journal) :
    Resolved operation attempt start journal :=
  ⟨h.working, h.claims.cleanups, fun a ha _ => by rw [h.claims.attempts]; exact ha,
    fun row hm => ⟨row, h.claims.resources hm, rfl⟩⟩

/-- The resolutions that come from the provider. -/
structure Settles (A : Replies) (attempt : Attempt) (labels : Labels)
    (resolution : EffectResolution) (journal : Journal) (log : Log) : Prop where
  settled : resolution.settled = true
  provider : ∀ id, resolution ≠ .operatorClosed id
  witnessed : ∀ observation, resolution = .confirmed observation →
    Witnessed A attempt labels observation journal log

/-- The ledger is written first; nothing else of the journal changes. -/
theorem recordResolution_changes {env : Env} {now : Instant} {journal' : Journal}
    {resolution : EffectResolution} (hw : Working operation journal)
    (hsettles : Settles A attempt labels resolution journal log)
    (h : recordResolution env now journal attempt labels resolution = .ok journal') :
    Changes A log now journal journal' ∧ Working operation journal' ∧
      journal'.attempts = journal.attempts ∧ journal'.cleanups = journal.cleanups ∧
      ∀ row ∈ journal.resources, ∃ row' ∈ journal'.resources, row'.ref = row.ref := by
  cases resolution with
  | confirmed observation =>
    have hwitness := hsettles.witnessed observation rfl
    have hclaim : ∀ ref, observation.owned? = some ref →
        claimResource env now journal ref (attempt.command.labels?.getD labels) = .ok journal' →
        Changes A log now journal journal' ∧ Working operation journal' ∧
          journal'.attempts = journal.attempts ∧ journal'.cleanups = journal.cleanups ∧
          ∀ row ∈ journal.resources, ∃ row' ∈ journal'.resources, row'.ref = row.ref := by
      intro ref howned hok
      obtain ⟨hchanges, hclaims⟩ := claimResource_changes A _ hw (hwitness.owned ref howned) hok
      exact ⟨hchanges, hclaims.working hw, hclaims.attempts, hclaims.cleanups,
        fun row hm => ⟨row, hclaims.resources hm, rfl⟩⟩
    cases observation with
    | server shown => exact hclaim _ rfl h
    | primaryIp shown => exact hclaim _ rfl h
    | absent ref =>
      obtain rfl := pure_ok_iff.mp h
      refine ⟨recordAbsence_changes hw (hwitness.absent ref rfl), hw.of_operations rfl, rfl, rfl,
        fun row hm => ⟨_, List.mem_map.mpr ⟨row, hm, rfl⟩, ?_⟩⟩
      split <;> rfl
  | pending | failed | operatorClosed | controlClosed =>
    obtain rfl := pure_ok_iff.mp h
    exact ⟨.refl, hw, rfl, rfl, fun row hm => ⟨row, hm, rfl⟩⟩

theorem verified_settle {resolution : EffectResolution} (hm : attempt ∈ start.attempts)
    (hpending : attempt.resolution = .pending) :
    Verified A (fun j l => Settles A attempt labels resolution j l ∧ Discovering operation start j)
      (settle attempt labels resolution)
      (fun _ j _ => Resolved operation attempt start j)
      fun j _ => Resolved operation attempt start j := by
  refine .transact (fun _ _ h => h.2.busy) (fun _ _ h => h.2.resolved) fun v hv hvalid env u j' hok => ?_
  obtain ⟨hsettles, hdiscovering⟩ := hv
  simp only [settleJournal, bind_ok_iff, pure_ok_iff, Prod.mk.injEq] at hok
  obtain ⟨j₂, ⟨j₁, hrecord, hupdate⟩, -, rfl⟩ := hok
  obtain ⟨hchanges, hworking, hattempts, hcleanups, hrefs⟩ :=
    recordResolution_changes hdiscovering.working hsettles hrecord
  obtain ⟨-, rfl⟩ := updateAttempt_ok hupdate
  have hstart : j₁.attempts = start.attempts := hattempts.trans hdiscovering.claims.attempts
  have hmem : attempt ∈ j₁.attempts := by rw [hstart]; exact hm
  obtain ⟨progress, active⟩ := hworking.row
  refine ⟨hchanges.tail (.settle active hmem hpending resolution hsettles.settled
    hsettles.provider fun observation hobs => ?_), fun _ => ?_⟩
  · subst hobs
    exact (hsettles.witnessed observation rfl).confirms observation rfl
  · refine ⟨hworking.of_operations rfl, hcleanups.trans hdiscovering.claims.cleanups,
      fun a ha hne => ?_, fun row hrow => ?_⟩
    · rw [← hstart] at ha
      have hkeyed := (hchanges.sound hvalid.sound).attempts.keyed
      exact (hkeyed.mem_update hmem).mpr (.inr ⟨ha, hne⟩)
    · exact hrefs row (hdiscovering.claims.resources hrow)

/-- A conflict blocks the operation and settles nothing. -/
theorem verified_block :
    Verified A (fun j _ => Resolved operation attempt start j) (blockMismatch operation.id)
      (fun _ j _ => Resolved operation attempt start j)
      fun j _ => Resolved operation attempt start j :=
  verified_setProgress (fun _ h => h.working) (fun _ _ h hw => ⟨hw, h.cleanups, h.kept, h.refs⟩) rfl

theorem verified_settleOrBlock {resolution : EffectResolution} (hm : attempt ∈ start.attempts)
    (hpending : attempt.resolution = .pending) :
    Verified A (fun j l => Settles A attempt labels resolution j l ∧ Discovering operation start j)
      (Prog.tryCatch (S := interface) (settle attempt labels resolution) (unsettled operation.id))
      (fun _ j _ => Resolved operation attempt start j) fun j _ => Working operation j := by
  refine .handle (verified_settle hm hpending) fun fault => ?_
  cases fault with
  | cloud failure => exact .post verified_block (fun _ _ _ h => h) fun _ _ h => h.working
  | other message => exact .raise fun _ _ h => h.working

/-- **Resolving is safe.** -/
theorem verified_resolveEffect (hknown : TargetKnown attempt start)
    (hm : attempt ∈ start.attempts) (hpending : attempt.resolution = .pending) :
    Verified A (fun j _ => Discovering operation start j) (resolveEffect operation attempt labels)
      (fun _ j _ => Resolved operation attempt start j) fun j _ => Working operation j := by
  unfold resolveEffect
  rw [if_neg (by simp [hpending])]
  refine .bind (Q := fun _ j _ => Discovering operation start j)
      (.readJournal (fun _ _ h => h.busy) fun _ _ h _ => h) fun journal =>
    .bind (Q := fun _ j _ => Discovering operation start j)
      (.ofExcept (fun _ _ _ _ h => h) fun _ _ h => h.working) fun _ =>
    .bind (Q := fun result j l => match result with
        | none => Resolved operation attempt start j
        | some e => Sighted A attempt labels e j l ∧ Discovering operation start j)
      (.handle (F := fun j _ => Discovering operation start j)
        (.bind (verified_evaluate hknown hm) fun e => .pure fun _ _ h => h) fun fault => ?_)
      fun result => ?_
  · cases fault with
    | other message => exact .raise fun _ _ h => h.working
    | cloud failure =>
      unfold unreadable
      split
      · next hother => cases hother
      · next failure' heq =>
        obtain rfl := Fault.cloud.inj heq
        split
        · exact .raise fun _ _ h => h.working
        · exact .bind (.pre (.post verified_block
            (fun _ _ _ h => h) fun _ _ h => h.working) fun _ _ h => h.resolved) fun _ =>
            .pure fun _ _ h => h
  · cases result with
    | none => exact .pure fun _ _ h => h
    | some evaluation =>
      cases evaluation with
      | pending progress =>
        refine .pre (P := fun j _ => progress.terminal = false ∧ Discovering operation start j)
          (.fact fun going => .post (.pre (verified_setProgress
            (P := Resolved operation attempt start) (fun _ h => h.working)
            (fun _ _ h hw => ⟨hw, h.cleanups, h.kept, h.refs⟩) going) fun _ _ h => h.resolved)
            (fun _ _ _ h => h) fun _ _ h => h.working) fun j l ⟨hsighted, hj⟩ => ⟨?_, hj⟩
        rcases hsighted with hopen | ⟨_, heq, -⟩
        · exact hopen
        · cases heq
      | confirmed observation =>
        refine .pre (verified_settleOrBlock hm hpending) fun j l ⟨hsighted, hj⟩ =>
          ⟨⟨rfl, fun _ hno => (by cases hno), fun seen heq => ?_⟩, hj⟩
        obtain rfl := EffectResolution.confirmed.inj heq
        rcases hsighted with hopen | ⟨_, heq, hwitness⟩
        · exact hopen.elim
        · obtain rfl := Evaluation.confirmed.inj heq
          exact hwitness
      | failed error =>
        exact .pre (verified_settleOrBlock hm hpending) fun j l ⟨_, hj⟩ =>
          ⟨⟨rfl, fun _ hno => (by cases hno), fun seen heq => (by cases heq)⟩, hj⟩

end AgentCloud.Lifecycle
