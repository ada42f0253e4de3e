/-
  PREPARED BEFORE SUBMITTED, AT MOST ONCE.

  An attempt is committed before its effect is asked for, and is asked for at most once; so however
  often a tick dies between the two, the provider receives an attempt's command once or never.  That
  an operation has one attempt for each effect it may ask for once is part of the journal's
  invariant (`AttemptsSound.once`), and bounds what the provider receives for the operation.

  What is recorded about an attempt, its receipt and its resolution, is recorded once.
-/
import AgentCloud.Lifecycle.Runs

namespace AgentCloud.Lifecycle

open Checked Durable

variable {A : Replies} {offline : Bool}

/-! ## What is recorded once -/

/-- An attempt keeps its command, and whatever was recorded about it. -/
structure Attempt.Keeps (a b : Attempt) : Prop where
  same : a.Same b
  outcome : a.outcome ≠ .prepared → b.outcome = a.outcome
  resolution : a.resolution ≠ .pending → b.resolution = a.resolution

theorem Attempt.Keeps.refl (a : Attempt) : a.Keeps a := ⟨.refl a, fun _ => rfl, fun _ => rfl⟩

theorem Attempt.Keeps.trans {a b c : Attempt} (h : a.Keeps b) (h' : b.Keeps c) : a.Keeps c where
  same := h.same.trans h'.same
  outcome hset := by
    have hb : b.outcome = a.outcome := h.outcome hset
    exact (h'.outcome (hb ▸ hset)).trans hb
  resolution hset := by
    have hb : b.resolution = a.resolution := h.resolution hset
    exact (h'.resolution (hb ▸ hset)).trans hb

/-- Every attempt is still there, with what was recorded about it. -/
def Kept (old new : List Attempt) : Prop := ∀ a ∈ old, ∃ b ∈ new, a.Keeps b

theorem Kept.refl (attempts : List Attempt) : Kept attempts attempts := fun a ha => ⟨a, ha, .refl a⟩

theorem Kept.trans {a b c : List Attempt} (h : Kept a b) (h' : Kept b c) : Kept a c := by
  intro x hx
  obtain ⟨y, hy, hxy⟩ := h x hx
  obtain ⟨z, hz, hyz⟩ := h' y hy
  exact ⟨z, hz, hxy.trans hyz⟩

theorem Kept.map {attempts : List Attempt} {f : Attempt → Attempt}
    (hf : ∀ a ∈ attempts, a.Keeps (f a)) : Kept attempts (attempts.map f) :=
  fun a ha => ⟨f a, List.mem_map.mpr ⟨a, ha, rfl⟩, hf a ha⟩

/-- **Step lemma.**  Receipts and resolutions are recorded once. -/
theorem Change.kept {log : Log} {clock : Instant} {journal journal' : Journal}
    (hs : Sound journal) (change : Change A log clock journal journal') :
    Kept journal.attempts journal'.attempts := by
  have hunique : ∀ {a b : Attempt}, a ∈ journal.attempts → b ∈ journal.attempts → a.id = b.id →
      a = b := fun ha hb hid => hs.attempts.keyed.unique ha hb hid
  cases change with
  | prepare => exact fun a ha => ⟨a, List.mem_append_left _ ha, .refl a⟩
  | @outcome attempt mem prepared submission unclaimed =>
    refine .map fun a ha => ?_
    split
    · next hid =>
      obtain rfl := hunique ha mem hid
      exact ⟨⟨rfl, rfl, rfl, rfl, rfl⟩, fun hset => absurd prepared hset, fun _ => rfl⟩
    · exact .refl a
  | @settle operation active attempt mem pending resolution settled provider confirms =>
    refine .map fun a ha => ?_
    split
    · next hid =>
      obtain rfl := hunique ha mem hid
      exact ⟨⟨rfl, rfl, rfl, rfl, rfl⟩, fun _ => rfl, fun hset => absurd pending hset⟩
    · exact .refl a
  | @closure operation active row ids kind inserted attempt mem target pending =>
    refine .map fun a ha => ?_
    split
    · next hid =>
      obtain rfl := hunique ha mem hid
      exact ⟨⟨rfl, rfl, rfl, rfl, rfl⟩, fun _ => rfl, fun hset => absurd pending hset⟩
    · exact .refl a
  | controlClosed active closure machine provider =>
    refine .map fun a ha => ?_
    split
    · next hopen => exact ⟨⟨rfl, rfl, rfl, rfl, rfl⟩, fun _ => rfl, fun hset => absurd hopen.2 hset⟩
    · exact .refl a
  | progress => exact .refl _
  | claim => exact .refl _
  | bind => exact .refl _
  | absent => exact .refl _
  | compensate => exact .refl _
  | failed => exact .refl _
  | completed => exact .refl _
  | cleaned => exact .refl _
  | takeover => exact .refl _
  | opened => exact .refl _
  | granted => exact .refl _

theorem Admission.attempts {journal journal' : Journal} {operation : OperationRow}
    (h : Admission journal journal' operation) : journal'.attempts = journal.attempts := by
  obtain ⟨hourlyMicros, version, rfl⟩ := h.eq
  rfl

/-- **Run lemma.**  What is recorded about an attempt stays as it is. -/
theorem kept_run {c c' : Machine} (hin : Discipline.InOrder (contract A) c)
    (hreach : (system A offline).Reach c c') :
    Kept c.world.store.journal.attempts c'.world.store.journal.attempts :=
  run_rows (P := fun journal => Kept c.world.store.journal.attempts journal.attempts)
    (fun hs hkept change => hkept.trans (change.kept hs))
    (fun _ hkept action ok => (admission_of_ok action ok).attempts ▸ hkept) hin (.refl _) hreach

/-! ## What the provider receives for an operation -/

/-- The exchange submits an attempt of the operation, for the effect. -/
def requests (journal : Journal) (id : OperationId) (effect : Once)
    (exchange : Exchange interface) : Bool :=
  match exchange.call with
  | .submit attemptId command => decide (command.once = some effect) &&
      (journal.attempt attemptId).any fun attempt => decide (attempt.operationId = id)
  | _ => false

/-- How often the provider was asked for an effect of an operation. -/
def received (w : World interface) (id : OperationId) (effect : Once) : Nat :=
  w.log.countP (requests w.store.journal id effect)

/-- A request is for an attempt of the operation. -/
theorem requests_attempt {w : World interface} (hw : Valid w) {id : OperationId} {effect : Once}
    {exchange : Exchange interface} (hm : exchange ∈ w.log)
    (h : requests w.store.journal id effect exchange = true) :
    ∃ attempt ∈ w.store.journal.attempts, exchange.call.attempt? = some attempt.id ∧
      attempt.operationId = id ∧ attempt.command.once = some effect := by
  unfold requests at h
  split at h
  · next attemptId command hcall =>
    simp only [Bool.and_eq_true, decide_eq_true_eq, Option.any_eq_true] at h
    obtain ⟨honce, attempt, hget, howner⟩ := h
    obtain ⟨a, ha, hid, hcommand⟩ := hw.submitted exchange hm attemptId command hcall
    -- the submitted attempt is the one of its identifier
    have hkey : attempt.id = attemptId := Table.get_key hget
    obtain rfl := hw.sound.attempts.keyed.unique ha (Table.get_mem hget) (hid.trans hkey.symm)
    exact ⟨a, ha, by simp [hcall, Call.attempt?, hid], howner, hcommand ▸ honce⟩
  · cases h

/-- The effects that delete. -/
def Once.releases : Once → Bool
  | release _ => true
  | _ => false

theorem ProviderCommand.releases_of_deletes {command : ProviderCommand} {effect : Once}
    (h : command.once = some effect) (hdeletes : command.deletes? ≠ none) :
    effect.releases = true := by
  cases command <;> simp_all [once, deletes?] <;> (subst h; rfl)

/-- What an operation asks for once is received once. -/
theorem received_le_one {w : World interface} (hw : Valid w) {id : OperationId} {effect : Once}
    (huncleaned : effect.releases = true →
      ∀ cleanup ∈ w.store.journal.cleanups, cleanup.operationId ≠ id) :
    received w id effect ≤ 1 := by
  by_cases hnone : ∀ exchange ∈ w.log, requests w.store.journal id effect exchange = false
  · rw [received, List.countP_eq_zero.mpr fun e he => by simp [hnone e he]]
    omega
  · simp only [not_forall, Bool.not_eq_false] at hnone
    obtain ⟨first, hfirst, hrequest⟩ := hnone
    obtain ⟨a, ha, hcall, howner, honce⟩ := requests_attempt hw hfirst hrequest
    -- every request is for the one attempt of this effect, which was submitted once
    have hsame : ∀ exchange ∈ w.log, requests w.store.journal id effect exchange = true →
        decide (exchange.call.attempt? = some a.id) = true := by
      intro exchange hm hx
      obtain ⟨b, hb, hbcall, hbowner, hbonce⟩ := requests_attempt hw hm hx
      have heq : b = a := by
        refine hw.sound.attempts.once b hb a ha (hbowner.trans howner.symm)
          (hbonce.trans honce.symm) (by simp [hbonce]) fun hdeletes c hc => ?_
        rw [hbowner]
        exact huncleaned (ProviderCommand.releases_of_deletes hbonce hdeletes) c hc
      rw [hbcall, heq]
      exact decide_eq_true rfl
    exact Nat.le_trans (List.countP_mono_left hsame) (hw.once a.id)

/-- **Prepared before submitted, at most once.**  In every run of the control plane of a machine,
    whatever the provider replies and wherever a worker dies: for each operation the provider
    receives at most one creation of an address, one of a server, one resize, power or reboot, one
    enabling of backups, and, until a cleanup of the operation is admitted, one deletion of each
    address; no attempt is submitted twice; each submission finds its own committed attempt,
    prepared, pending, with exactly that command and not submitted before; and no later step changes
    a receipt or a resolution. -/
theorem submitted_once {start : World interface} (hstart : Initial start) {c : Machine}
    (hreach : (system anyReply true).Reach (.idle start) c) :
    (∀ id effect, effect.releases = false → received c.world id effect ≤ 1) ∧
    (∀ id primaryIpId,
      (∀ cleanup ∈ c.world.store.journal.cleanups, cleanup.operationId ≠ id) →
      received c.world id (.release primaryIpId) ≤ 1) ∧
    (∀ attemptId, submissions c.world.log attemptId ≤ 1) ∧
    (∀ exchange ∈ c.world.log, ∀ attemptId command, exchange.call = .submit attemptId command →
      ∃ attempt ∈ c.world.store.journal.attempts,
        attempt.id = attemptId ∧ attempt.command = command) ∧
    (∀ c' attemptId command r, (system anyReply true).Step c c' →
      c'.world.log = c.world.log ++ [⟨.submit attemptId command, r⟩] →
      ∃ attempt ∈ c.world.store.journal.attempts, attempt.id = attemptId ∧
        attempt.command = command ∧ attempt.outcome = .prepared ∧ attempt.resolution = .pending ∧
        submissions c.world.log attemptId = 0) ∧
    (∀ c', (system anyReply true).Reach c c' →
      Kept c.world.store.journal.attempts c'.world.store.journal.attempts) := by
  have hin : Discipline.InOrder (contract anyReply) c := hstart.inOrder hreach
  refine ⟨fun id effect hkeeps => received_le_one hin.1 fun hreleases => ?_,
    fun id primaryIpId huncleaned => received_le_one hin.1 fun _ => huncleaned, hin.1.once,
    hin.1.submitted, fun c' attemptId command r hstep hlog => ?_,
    fun c' hlater => kept_run hin hlater⟩
  · rw [hkeeps] at hreleases
    cases hreleases
  · obtain ⟨attempt, rfl, hcommand, hsubmits⟩ := submits_of_step hin hstep hlog
    exact ⟨attempt, hsubmits.mem, rfl, hcommand, hsubmits.prepared, hsubmits.pending,
      hsubmits.unasked⟩

namespace Demo

/-- The server of the machine was created once, and nothing of its create was submitted twice. -/
theorem destroyed_once :
    received destroyed "create" .server ≤ 1 ∧ received destroyed "create" .server ≠ 0 :=
  ⟨(submitted_once start_initial (destroyed_reached true)).1 "create" .server rfl,
    by decide +kernel⟩

end Demo

end AgentCloud.Lifecycle
