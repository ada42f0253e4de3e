/-
  BOUNDED DELETES: how often a cleanup asks for one deletion.

  The database counts the attempts of a cleanup for one exact deletion (`submitted`), those of its
  source included: at most three, and one for each retry that an operator granted, five and then
  thirty seconds apart.  A retry is granted for the latest attempt of an exhausted target, so there
  are always at least two attempts more than grants.

  The planner of a cleanup decides the same on its own (`retryOf`).  Both read the same attempts at
  one clock, so they agree (`guard_iff_retry`).
-/
import AgentCloud.Lifecycle.CleanupOrder

namespace AgentCloud.Lifecycle

open Checked Durable

variable {A : Replies} {offline : Bool}

/-! ## Deletions of a cleanup -/

/-- The retries that were granted for exactly this deletion. -/
def grants (journal : Journal) (cleanupId : OperationId) (command : ProviderCommand) :
    List RecoveryRow :=
  journal.recoveries.filter fun row => row.operationId = cleanupId ∧
    row.request.kind = .retryDelete ∧
    (journal.attempt row.attemptId).any fun attempt => attempt.command = command

theorem deleteLimit_eq (journal : Journal) (cleanupId : OperationId) (command : ProviderCommand) :
    journal.deleteLimit cleanupId command = 3 + (grants journal cleanupId command).length := rfl

theorem mem_submitted {journal : Journal} {cleanup : OperationCleanup} {command : ProviderCommand}
    {a : Attempt} : a ∈ submitted journal cleanup command ↔ a ∈ journal.attempts ∧
      (a.operationId = cleanup.operationId ∨ a.operationId = cleanup.sourceOperationId) ∧
      a.command = command := by
  simp only [submitted, Journal.cleanupHistory, List.mem_filter, decide_eq_true_eq, and_assoc]

/-- Consecutive attempts are five, then thirty seconds apart. -/
def Spaced (attempts : List Attempt) : Prop :=
  ∀ i a b, attempts[i]? = some a → attempts[i + 1]? = some b →
    a.createdAt + backoff (i + 1) ≤ b.createdAt

theorem Spaced.of_short {attempts : List Attempt} (h : attempts.length ≤ 1) : Spaced attempts := by
  intro i a b ha hb
  have hlt : i + 1 < attempts.length := by
    obtain ⟨hlt, -⟩ := List.getElem?_eq_some_iff.mp hb
    exact hlt
  omega

theorem Spaced.append {attempts : List Attempt} {new : Attempt} (h : Spaced attempts)
    (hnew : ∀ last, attempts.getLast? = some last →
      last.createdAt + backoff attempts.length ≤ new.createdAt) : Spaced (attempts ++ [new]) := by
  intro i a b ha hb
  have hlt : i + 1 < (attempts ++ [new]).length := by
    obtain ⟨hlt, -⟩ := List.getElem?_eq_some_iff.mp hb
    exact hlt
  simp only [List.length_append, List.length_singleton] at hlt
  have ha' : attempts[i]? = some a := by
    rwa [List.getElem?_append_left (by omega)] at ha
  by_cases hlast : i + 1 = attempts.length
  · -- the pair is the old last attempt and the new one
    have hb' : b = new := by
      rw [hlast, List.getElem?_append_right (Nat.le_refl _)] at hb
      simpa using hb.symm
    subst hb'
    rw [hlast]
    refine hnew a ?_
    rw [List.getLast?_eq_getElem?, ← hlast]
    simpa using ha'
  · refine h i a b ha' ?_
    rwa [List.getElem?_append_left (by omega)] at hb

theorem Spaced.map {attempts : List Attempt} {f : Attempt → Attempt} (h : Spaced attempts)
    (hf : ∀ a : Attempt, (f a).createdAt = a.createdAt) : Spaced (attempts.map f) := by
  intro i a b ha hb
  rw [List.getElem?_map, Option.map_eq_some_iff] at ha hb
  obtain ⟨a, ha, rfl⟩ := ha
  obtain ⟨b, hb, rfl⟩ := hb
  rw [hf, hf]
  exact h i a b ha hb

/-! ## The latest attempt -/

theorem latest_bound {attempts : List Attempt} {time bound : Instant} (htime : time ≤ bound)
    (h : ∀ a ∈ attempts, a.createdAt ≤ bound) :
    attempts.foldl (fun time attempt => max time attempt.createdAt) time ≤ bound := by
  induction attempts generalizing time with
  | nil => exact htime
  | cons a rest ih =>
    refine ih (Nat.max_le.mpr ⟨htime, h a (by simp)⟩) fun b hb => h b (by simp [hb])

theorem le_latest {attempts : List Attempt} (time : Instant) :
    time ≤ attempts.foldl (fun time attempt => max time attempt.createdAt) time ∧
      ∀ a ∈ attempts, a.createdAt ≤
        attempts.foldl (fun time attempt => max time attempt.createdAt) time := by
  induction attempts generalizing time with
  | nil => exact ⟨Nat.le_refl _, by simp⟩
  | cons a rest ih =>
    obtain ⟨hfirst, hrest⟩ := ih (max time a.createdAt)
    refine ⟨Nat.le_trans (Nat.le_max_left ..) hfirst, fun b hb => ?_⟩
    rcases List.mem_cons.mp hb with rfl | hb
    · exact Nat.le_trans (Nat.le_max_right ..) hfirst
    · exact hrest b hb

/-- Attempts stand in the order of their creation, so the latest is the last. -/
theorem latest_eq_last {attempts : List Attempt}
    (hsorted : attempts.Pairwise fun a b => a.createdAt ≤ b.createdAt) {last : Attempt}
    (hlast : attempts.getLast? = some last) : latest attempts = last.createdAt := by
  obtain ⟨before, rfl⟩ := List.getLast?_eq_some_iff.mp hlast
  refine Nat.le_antisymm (latest_bound (Nat.zero_le _) fun a ha => ?_)
    ((le_latest 0).2 last (by simp))
  rcases List.mem_append.mp ha with ha | ha
  · exact (List.pairwise_append.mp hsorted).2.2 a ha last (by simp)
  · obtain rfl := List.mem_singleton.mp ha
    exact Nat.le_refl _

/-! ## What the attempts and grants keep -/

structure Bounded (journal : Journal) : Prop where
  /-- Only a cleanup deletes a server. -/
  executed : ∀ a ∈ journal.attempts, a.command.once = none →
    ∃ cleanup ∈ journal.cleanups, cleanup.operationId = a.operationId
  covered : ∀ row ∈ journal.recoveries,
    ∃ cleanup ∈ journal.cleanups, cleanup.operationId = row.operationId
  recorded : ∀ row ∈ journal.recoveries, journal.attempt row.attemptId ≠ none
  within : ∀ cleanup ∈ journal.cleanups, ∀ ref,
    (submitted journal cleanup (.deletion ref)).length ≤
      journal.deleteLimit cleanup.operationId (.deletion ref)
  granted : ∀ cleanup ∈ journal.cleanups, ∀ ref,
    (grants journal cleanup.operationId (.deletion ref)).length ≤
      (submitted journal cleanup (.deletion ref)).length - 2
  spaced : ∀ cleanup ∈ journal.cleanups, ∀ ref,
    Spaced (submitted journal cleanup (.deletion ref))

namespace Bounded

variable {journal journal' : Journal}

/-- The bound reads three tables. -/
theorem of_eq (h : Bounded journal) (hattempts : journal'.attempts = journal.attempts)
    (hcleanups : journal'.cleanups = journal.cleanups)
    (hrecoveries : journal'.recoveries = journal.recoveries) : Bounded journal' := by
  obtain ⟨machine, allocation, operations, attempts, resources, cleanups, recoveries, closures⟩ :=
    journal
  obtain ⟨machine', allocation', operations', attempts', resources', cleanups', recoveries',
    closures'⟩ := journal'
  simp only at hattempts hcleanups hrecoveries
  subst hattempts hcleanups hrecoveries
  exact ⟨h.executed, h.covered, h.recorded, h.within, h.granted, h.spaced⟩

theorem submitted_map {f : Attempt → Attempt} (hf : ∀ a : Attempt, a.Same (f a))
    (hattempts : journal'.attempts = journal.attempts.map f) (cleanup : OperationCleanup)
    (command : ProviderCommand) :
    submitted journal' cleanup command = (submitted journal cleanup command).map f := by
  simp only [submitted, Journal.cleanupHistory, hattempts, List.filter_map]
  congr 1
  simp [Function.comp_def, (hf _).operationId, (hf _).command]

theorem attempt_map {f : Attempt → Attempt} (hf : ∀ a : Attempt, a.Same (f a))
    (hattempts : journal'.attempts = journal.attempts.map f) (id : AttemptId) :
    journal'.attempt id = (journal.attempt id).map f := by
  rw [Journal.attempt, hattempts]
  exact Table.get_map fun row _ => (hf row).id

theorem grants_map {f : Attempt → Attempt} (hf : ∀ a : Attempt, a.Same (f a))
    (hattempts : journal'.attempts = journal.attempts.map f)
    (hrecoveries : journal'.recoveries = journal.recoveries) (id : OperationId)
    (command : ProviderCommand) : grants journal' id command = grants journal id command := by
  unfold grants
  rw [hrecoveries]
  refine List.filter_congr fun row _ => ?_
  rw [attempt_map hf hattempts]
  cases journal.attempt row.attemptId <;> simp [(hf _).command]

/-- What is learnt about the attempts is not counted. -/
theorem learn (h : Bounded journal) {f : Attempt → Attempt} (hf : ∀ a : Attempt, a.Same (f a))
    (hattempts : journal'.attempts = journal.attempts.map f)
    (hcleanups : journal'.cleanups = journal.cleanups)
    (hrecoveries : journal'.recoveries = journal.recoveries) : Bounded journal' where
  executed := by
    intro a ha honce
    rw [hattempts] at ha
    obtain ⟨b, hb, rfl⟩ := List.mem_map.mp ha
    rw [hcleanups, (hf b).operationId]
    exact h.executed b hb ((hf b).command ▸ honce)
  covered := by
    rw [hcleanups, hrecoveries]
    exact h.covered
  recorded := by
    intro row hm
    rw [attempt_map hf hattempts]
    simpa using h.recorded row (hrecoveries ▸ hm)
  within := by
    intro cleanup hc ref
    rw [deleteLimit_eq, submitted_map hf hattempts, grants_map hf hattempts hrecoveries,
      List.length_map]
    exact h.within cleanup (hcleanups ▸ hc) ref
  granted := by
    intro cleanup hc ref
    rw [submitted_map hf hattempts, grants_map hf hattempts hrecoveries, List.length_map]
    exact h.granted cleanup (hcleanups ▸ hc) ref
  spaced := by
    intro cleanup hc ref
    rw [submitted_map hf hattempts]
    exact (h.spaced cleanup (hcleanups ▸ hc) ref).map fun a => (hf a).createdAt

/-! ### One more attempt -/

/-- A fresh attempt does not turn up behind an earlier grant. -/
theorem grants_append (h : Bounded journal) (new : Attempt) (id : OperationId)
    (command : ProviderCommand) :
    grants { journal with attempts := journal.attempts ++ [new] } id command =
      grants journal id command := by
  refine List.filter_congr fun row hm => ?_
  have hget : Journal.attempt { journal with attempts := journal.attempts ++ [new] }
      row.attemptId = journal.attempt row.attemptId := by
    rw [Journal.attempt, Table.get_append]
    cases hrow : Table.get Attempt.id journal.attempts row.attemptId with
    | none => exact absurd hrow (h.recorded row hm)
    | some found => rw [Journal.attempt, hrow]; rfl
  rw [hget]

theorem submitted_append (new : Attempt) (cleanup : OperationCleanup) (command : ProviderCommand) :
    submitted { journal with attempts := journal.attempts ++ [new] } cleanup command =
      submitted journal cleanup command ++
        if (new.operationId = cleanup.operationId ∨ new.operationId = cleanup.sourceOperationId) ∧
          new.command = command then [new] else [] := by
  simp only [submitted, Journal.cleanupHistory, List.filter_append]
  congr 1
  by_cases howner : new.operationId = cleanup.operationId ∨
      new.operationId = cleanup.sourceOperationId <;>
    by_cases hcommand : new.command = command <;> simp [howner, hcommand]

/-- The guard of a cleanup's effects is the bound. -/
theorem guardAdmittedEffect_ok {clock : Instant} {new : Attempt}
    (hguard : guardAdmittedEffect journal clock new = .ok ()) :
    ∃ cleanup, journal.cleanup new.operationId = some cleanup ∧
      (submitted journal cleanup new.command).length <
        journal.deleteLimit cleanup.operationId new.command ∧
      (0 < (submitted journal cleanup new.command).length →
        latest (submitted journal cleanup new.command) +
          backoff (submitted journal cleanup new.command).length ≤ clock) := by
  simp only [guardAdmittedEffect, bind_ok_iff, present_ok_iff, refuse_ok_iff, not_or, not_and,
    Nat.not_le, Nat.not_lt] at hguard
  obtain ⟨cleanup, hcleanup, ref, -, _, -, _, -, hlimit, hbackoff⟩ := hguard
  exact ⟨cleanup, hcleanup, hlimit, hbackoff⟩

/-- An attempt within the guard stays within the bound. -/
theorem prepare (h : Bounded journal) (hs : Sound journal) {clock : Instant} {new : Attempt}
    {cleanup : OperationCleanup} (hc : cleanup ∈ journal.cleanups)
    (howner : cleanup.operationId = new.operationId) (now : new.createdAt = clock)
    (hguard : guardAdmittedEffect journal clock new = .ok ()) :
    Bounded { journal with attempts := journal.attempts ++ [new] } := by
  obtain ⟨found, hfound, hlimit, hbackoff⟩ := guardAdmittedEffect_ok hguard
  -- there is one cleanup
  obtain rfl : found = cleanup := hs.operations.single found (Table.get_mem hfound) cleanup hc
  have hcounted : ∀ other ∈ journal.cleanups, ∀ ref,
      submitted { journal with attempts := journal.attempts ++ [new] } other (.deletion ref) =
        submitted journal other (.deletion ref) ++
          if new.command = .deletion ref then [new] else [] := by
    intro other hother ref
    obtain rfl := hs.operations.single other hother found hc
    simp [submitted_append, howner]
  exact {
    executed := by
      intro a ha honce
      rcases List.mem_append.mp ha with ha | ha
      · exact h.executed a ha honce
      · obtain rfl := List.mem_singleton.mp ha
        exact ⟨found, hc, howner⟩
    covered := h.covered
    recorded := by
      intro row hm hnone
      rw [Journal.attempt, Table.get_append, Option.or_eq_none_iff] at hnone
      exact h.recorded row hm hnone.1
    within := by
      intro other hother ref
      rw [deleteLimit_eq, h.grants_append, hcounted other hother]
      have hwithin := h.within other hother ref
      rw [deleteLimit_eq] at hwithin
      split
      · next hcommand =>
        obtain rfl := hs.operations.single other hother found hc
        rw [hcommand, deleteLimit_eq] at hlimit
        simp only [List.length_append, List.length_singleton]
        omega
      · simpa using hwithin
    granted := by
      intro other hother ref
      rw [h.grants_append, hcounted other hother]
      have hgranted := h.granted other hother ref
      simp only [List.length_append]
      omega
    spaced := by
      intro other hother ref
      rw [hcounted other hother]
      have hspaced := h.spaced other hother ref
      split
      · next hcommand =>
        obtain rfl := hs.operations.single other hother found hc
        refine hspaced.append fun last hlast => ?_
        rw [hcommand] at hbackoff
        have hmem : last ∈ submitted journal other (.deletion ref) :=
          List.mem_of_getLast? hlast
        have hlate := hbackoff (List.length_pos_of_mem hmem)
        have hle := (le_latest 0).2 last hmem
        rw [now]
        exact Nat.le_trans (Nat.add_le_add_right hle _) hlate
      · simpa using hspaced }

/-! ### Cleanups and grants -/

/-- Before its cleanup an operation deletes each address at most once, and no server. -/
theorem short_of_uncleaned (h : Bounded journal) (hs : Sound journal)
    (huncleaned : journal.cleanups = []) {cleanup : OperationCleanup}
    (hone : ∀ a ∈ journal.attempts, ∀ b ∈ journal.attempts,
      (a.operationId = cleanup.operationId ∨ a.operationId = cleanup.sourceOperationId) →
      (b.operationId = cleanup.operationId ∨ b.operationId = cleanup.sourceOperationId) →
      a.operationId = b.operationId) (command : ProviderCommand) :
    (submitted journal cleanup command).length ≤ 1 := by
  have hnodup : (submitted journal cleanup command).Nodup :=
    (hs.attempts.keyed.nodup.filter _).filter _
  by_contra hlong
  -- two attempts of one deletion are one attempt
  match hlist : submitted journal cleanup command with
  | [] => simp [hlist] at hlong
  | [_] => simp [hlist] at hlong
  | a :: b :: rest =>
    have ha : a ∈ submitted journal cleanup command := by simp [hlist]
    have hb : b ∈ submitted journal cleanup command := by simp [hlist]
    obtain ⟨ham, hao, hac⟩ := mem_submitted.mp ha
    obtain ⟨hbm, hbo, hbc⟩ := mem_submitted.mp hb
    have honce : a.command.once ≠ none := by
      intro hnone
      obtain ⟨other, hother, -⟩ := h.executed a ham hnone
      rw [huncleaned] at hother
      cases hother
    have heq : a = b := hs.attempts.once a ham b hbm (hone a ham b hbm hao hbo)
      (by rw [hac, hbc]) honce fun _ c hc => by rw [huncleaned] at hc; cases hc
    rw [hlist] at hnodup
    exact (List.nodup_cons.mp hnodup).1 (by simp [heq])

/-- A cleanup is admitted. -/
theorem admitted (h : Bounded journal) (hs : Sound journal) (huncleaned : journal.cleanups = [])
    {cleanup : OperationCleanup}
    (hone : ∀ a ∈ journal.attempts, ∀ b ∈ journal.attempts,
      (a.operationId = cleanup.operationId ∨ a.operationId = cleanup.sourceOperationId) →
      (b.operationId = cleanup.operationId ∨ b.operationId = cleanup.sourceOperationId) →
      a.operationId = b.operationId) (hattempts : journal'.attempts = journal.attempts)
    (hcleanups : journal'.cleanups = journal.cleanups ++ [cleanup])
    (hrecoveries : journal'.recoveries = journal.recoveries) : Bounded journal' := by
  -- there was no decision yet
  have hnone : journal.recoveries = [] := by
    refine List.eq_nil_iff_forall_not_mem.mpr fun row hm => ?_
    obtain ⟨other, hother, -⟩ := h.covered row hm
    rw [huncleaned] at hother
    cases hother
  rw [huncleaned, List.nil_append] at hcleanups
  rw [hnone] at hrecoveries
  have hshort : ∀ command, (submitted journal' cleanup command).length ≤ 1 := by
    intro command
    have := h.short_of_uncleaned hs huncleaned hone command
    simpa [submitted, Journal.cleanupHistory, hattempts] using this
  have hgrants : ∀ id command, grants journal' id command = [] := by
    intro id command
    simp [grants, hrecoveries]
  have hmem : ∀ other ∈ journal'.cleanups, other = cleanup := by simp [hcleanups]
  exact {
    executed := by
      intro a ha honce
      rw [hattempts] at ha
      obtain ⟨other, hother, -⟩ := h.executed a ha honce
      rw [huncleaned] at hother
      cases hother
    covered := by simp [hrecoveries]
    recorded := by simp [hrecoveries]
    within := by
      intro other hother ref
      obtain rfl := hmem other hother
      have := hshort (.deletion ref)
      rw [deleteLimit_eq]
      omega
    granted := by
      intro other hother ref
      rw [hgrants]
      exact Nat.zero_le _
    spaced := by
      intro other hother ref
      obtain rfl := hmem other hother
      exact .of_short (hshort _) }

/-- A decision that grants nothing. -/
theorem decided (h : Bounded journal) {row : RecoveryRow}
    (hcovered : ∃ cleanup ∈ journal.cleanups, cleanup.operationId = row.operationId)
    (hrecorded : journal.attempt row.attemptId ≠ none) (hkind : row.request.kind ≠ .retryDelete) :
    Bounded { journal with recoveries := journal.recoveries ++ [row] } := by
  have hsame : ∀ id command, grants { journal with recoveries := journal.recoveries ++ [row] } id
      command = grants journal id command := by
    intro id command
    have hget : ∀ attemptId, Journal.attempt
      { journal with recoveries := journal.recoveries ++ [row] } attemptId =
        journal.attempt attemptId := fun _ => rfl
    simp only [grants, List.filter_append, hget]
    simp [hkind]
  exact {
    executed := h.executed
    covered := by
      intro other hm
      rcases List.mem_append.mp hm with hm | hm
      · exact h.covered other hm
      · obtain rfl := List.mem_singleton.mp hm
        exact hcovered
    recorded := by
      intro other hm
      rcases List.mem_append.mp hm with hm | hm
      · exact h.recorded other hm
      · obtain rfl := List.mem_singleton.mp hm
        exact hrecorded
    within := by
      intro cleanup hc ref
      rw [deleteLimit_eq, hsame]
      exact h.within cleanup hc ref
    granted := by
      intro cleanup hc ref
      rw [hsame]
      exact h.granted cleanup hc ref
    spaced := h.spaced }

/-- A retry is granted to an exhausted target. -/
theorem grant (h : Bounded journal) (hs : Sound journal) {row : RecoveryRow}
    (hkind : row.request.kind = .retryDelete)
    (hguard : guardOperatorRecovery journal row = .ok ()) :
    Bounded { journal with recoveries := journal.recoveries ++ [row] } := by
  obtain ⟨cleanup, source, hcleanup, hsource, -, -⟩ := guardOperatorRecovery_ok hguard
  have hc : cleanup ∈ journal.cleanups := Table.get_mem hcleanup
  have hid : cleanup.operationId = row.operationId := Table.get_key hcleanup
  -- the target of the grant has used up what it had
  have hexhausted : (submitted journal cleanup source.command).length =
      journal.deleteLimit cleanup.operationId source.command := by
    simp only [guardOperatorRecovery, hcleanup, hsource, hkind, bind_ok_iff, present_ok_iff,
      refuse_ok_iff, not_or, not_not, Option.some.injEq, exists_eq_left'] at hguard
    obtain ⟨-, -, ref, -, -, -, -, hlength⟩ := hguard
    exact hlength
  have hadds : ∀ command, grants { journal with recoveries := journal.recoveries ++ [row] }
      cleanup.operationId command = grants journal cleanup.operationId command ++
        if source.command = command then [row] else [] := by
    intro command
    have hget : ∀ id, Journal.attempt { journal with recoveries := journal.recoveries ++ [row] } id =
      journal.attempt id := fun _ => rfl
    simp only [grants, List.filter_append, hget]
    congr 1
    by_cases hcommand : source.command = command <;> simp [hid, hkind, hsource, hcommand]
  exact {
    executed := h.executed
    covered := by
      intro other hm
      rcases List.mem_append.mp hm with hm | hm
      · exact h.covered other hm
      · obtain rfl := List.mem_singleton.mp hm
        exact ⟨cleanup, hc, hid⟩
    recorded := by
      intro other hm
      rcases List.mem_append.mp hm with hm | hm
      · exact h.recorded other hm
      · obtain rfl := List.mem_singleton.mp hm
        rw [Journal.attempt] at hsource
        simp [Journal.attempt, hsource]
    within := by
      intro other hother ref
      obtain rfl := hs.operations.single other hother cleanup hc
      have hwithin := h.within other hother ref
      rw [deleteLimit_eq] at hwithin ⊢
      rw [hadds, List.length_append]
      exact Nat.le_trans hwithin (by omega)
    granted := by
      intro other hother ref
      obtain rfl := hs.operations.single other hother cleanup hc
      have hgranted := h.granted other hother ref
      rw [hadds]
      split
      · next hcommand =>
        rw [hcommand, deleteLimit_eq] at hexhausted
        simp only [List.length_append, List.length_singleton]
        rw [show submitted { journal with recoveries := journal.recoveries ++ [row] } other
          (.deletion ref) = submitted journal other (.deletion ref) from rfl]
        omega
      · rw [List.append_nil]
        exact hgranted
    spaced := h.spaced }

end Bounded

/-- Before any cleanup, an effect that an operation asks for once. -/
theorem Bounded.next {journal : Journal} (h : Bounded journal) (huncleaned : journal.cleanups = [])
    {new : Attempt} (honce : new.command.once ≠ none) :
    Bounded { journal with attempts := journal.attempts ++ [new] } where
  executed := by
    intro a ha hnone
    rcases List.mem_append.mp ha with ha | ha
    · exact h.executed a ha hnone
    · obtain rfl := List.mem_singleton.mp ha
      exact absurd hnone honce
  covered := h.covered
  recorded := by
    intro row hm hnone
    rw [Journal.attempt, Table.get_append, Option.or_eq_none_iff] at hnone
    exact h.recorded row hm hnone.1
  within := by simp [huncleaned]
  granted := by simp [huncleaned]
  spaced := by simp [huncleaned]

/-- What an operation asks for before its cleanup, it asks for once. -/
theorem NextEffect.once {journal : Journal} {operation : OperationRow} {command : ProviderCommand}
    (h : NextEffect journal operation command) : command.once ≠ none := by
  rcases h.intent with hrun | ⟨-, id, rfl⟩
  · have hkeeps := h.keeps hrun
    cases command <;> simp_all [ProviderCommand.once, ProviderCommand.deletes?]
  · simp [ProviderCommand.once]

/-- **Step lemma.**  Every change stays within the bound. -/
theorem Change.bounded {log : Log} {clock : Instant} {journal journal' : Journal}
    (hs : Sound journal) (h : Bounded journal) (change : Change A log clock journal journal') :
    Bounded journal' := by
  cases change with
  | @prepare operation active live new fresh owner prepared pending now target authority =>
    cases authority with
    | next uncleaned idle effect => exact h.next uncleaned effect.once
    | admitted cleanup mem executor guarded =>
      exact h.prepare hs mem (executor.trans owner.symm) now guarded
  | outcome => exact h.learn (fun a => by split <;> exact ⟨rfl, rfl, rfl, rfl, rfl⟩) rfl rfl rfl
  | settle => exact h.learn (fun a => by split <;> exact ⟨rfl, rfl, rfl, rfl, rfl⟩) rfl rfl rfl
  | controlClosed =>
    exact h.learn (fun a => by split <;> exact ⟨rfl, rfl, rfl, rfl, rfl⟩) rfl rfl rfl
  | @takeover operation active create uncleaned live grantId version machine provider state =>
    refine h.admitted hs (hs.operations.uncleaned_of_active active.mem active.going uncleaned)
      (fun a _ b _ ha hb => ?_) rfl rfl rfl
    exact (ha.elim id id).trans (hb.elim id id).symm
  | @opened source mem create free live id fresh grantId version machine provider state =>
    have hfree : ∀ row ∈ journal.operations, row.terminal = true := by
      simpa [Journal.busy, Journal.active] using free
    have hops := hs.operations
    rw [live] at hops
    -- the new operation has no attempts yet
    have hsource : ∀ a ∈ journal.attempts, a.operationId = id ∨ a.operationId = source.id →
        a.operationId = source.id := by
      intro a ha howner
      rcases howner with hid | hid
      · obtain ⟨row, hrow, hkey⟩ := hs.attempts.owner a ha
        exact absurd (hkey.trans hid) (Table.get_eq_none.mp fresh row hrow)
      · exact hid
    exact h.admitted hs (hops.uncleaned_of_free hfree)
      (fun a ha b hb hao hbo => (hsource a ha hao).trans (hsource b hb hbo).symm) rfl rfl rfl
  | granted row kind inserted =>
    obtain ⟨-, hguard, -⟩ := insertRecovery_ok inserted
    exact h.grant hs kind hguard
  | @closure operation active row ids kind inserted attempt mem target pending =>
    obtain ⟨-, hguard, -⟩ := insertRecovery_ok inserted
    obtain ⟨cleanup, source, hcleanup, hsource, -, -⟩ := guardOperatorRecovery_ok hguard
    have hdecided : Bounded { journal with recoveries := journal.recoveries ++ [row] } :=
      h.decided ⟨cleanup, Table.get_mem hcleanup, Table.get_key hcleanup⟩ (by simp [hsource])
        (by simp [kind])
    exact hdecided.learn (fun a => by split <;> exact ⟨rfl, rfl, rfl, rfl, rfl⟩) rfl rfl rfl
  | progress => exact h.of_eq rfl rfl rfl
  | claim => exact h.of_eq rfl rfl rfl
  | bind => exact h.of_eq rfl rfl rfl
  | absent => exact h.of_eq rfl rfl rfl
  | compensate => exact h.of_eq rfl rfl rfl
  | failed => exact h.of_eq rfl rfl rfl
  | completed => exact h.of_eq rfl rfl rfl
  | cleaned => exact h.of_eq rfl rfl rfl

theorem Born.bounded {journal : Journal} (h : Born journal) : Bounded journal := by
  obtain ⟨machineId, allocationId, operationId, principal, projectId, spec, catalog, offer, date,
    profile, hoffer, rfl⟩ := h.born
  constructor <;> simp [newJournal]

/-- **Run lemma.**  Every reachable journal is within the bound. -/
theorem bounded_run {start : World interface} (hstart : Initial start) {c : Machine}
    (hreach : (system A offline).Reach (.idle start) c) : Bounded c.world.store.journal := by
  refine run_rows (P := Bounded) (fun hs h change => change.bounded hs h)
    (fun _ h action ok => ?_) (Discipline.inOrder_idle hstart.valid) hstart.born.bounded hreach
  obtain ⟨hourlyMicros, version, rfl⟩ := (admission_of_ok action ok).eq
  exact h.of_eq rfl rfl rfl

/-! ## The planner and the guard -/

/-- What the planner turns to next. -/
theorem nextTarget_ok {journal : Journal} {cleanup : OperationCleanup} {row : OwnedResource}
    (h : nextTarget journal.resources (journal.cleanupHistory cleanup) = some row) :
    row ∈ journal.resources ∧ row.live = true ∧ (row.ref.kind = .primaryIp →
      pendingServer journal cleanup.sourceOperationId = false ∧ liveServer journal = false) := by
  simp only [nextTarget, Option.or_eq_some_iff] at h
  rcases h with hserver | ⟨hnone, hip⟩
  · have hm := List.mem_filter.mp (List.mem_of_find?_eq_some hserver)
    have hkind := List.find?_some hserver
    simp only [decide_eq_true_eq] at hkind
    exact ⟨hm.1, hm.2, fun hother => by rw [hkind] at hother; cases hother⟩
  · split at hip
    · cases hip
    · next hpending =>
      have hm := List.mem_filter.mp (List.mem_of_find?_eq_some hip)
      refine ⟨hm.1, hm.2, fun _ => ⟨?_, ?_⟩⟩
      · cases hsource : pendingServer journal cleanup.sourceOperationId with
        | false => rfl
        | true => exact absurd (pendingVm_of_source hsource) hpending
      · refine liveServer_eq_false.mpr fun other hother hkind => ?_
        have := List.find?_eq_none.mp hnone other
        cases hlive : other.live with
        | false => rfl
        | true => exact absurd (by simpa using hkind) (this (List.mem_filter.mpr ⟨hother, hlive⟩))

theorem targeting_eq_submitted (journal : Journal) (cleanup : OperationCleanup)
    (ref : ResourceRef) : targeting ref (journal.cleanupHistory cleanup) =
      submitted journal cleanup (.deletion ref) := by
  refine List.filter_congr fun a _ => ?_
  simp [ProviderCommand.deletes?_eq_some]

/-- The planner's decision, in the terms of the guard. -/
theorem retryOf_submit {previous : List Attempt}
    (hsorted : previous.Pairwise fun a b => a.createdAt ≤ b.createdAt) {limit : Nat}
    (hlimit : 0 < limit) (now : Instant) :
    retryOf previous limit now = .submit ↔ previous.length < limit ∧
      (0 < previous.length → latest previous + backoff previous.length ≤ now) := by
  unfold retryOf
  cases hlast : previous.getLast? with
  | none =>
    obtain rfl := List.getLast?_eq_none_iff.mp hlast
    simp [hlimit]
  | some last =>
    have hpos : 0 < previous.length := List.length_pos_of_mem (List.mem_of_getLast? hlast)
    rw [latest_eq_last hsorted hlast]
    by_cases hfull : limit ≤ previous.length
    · simp [hfull, Nat.not_lt.mpr hfull]
    · by_cases hearly : now < last.createdAt + backoff previous.length
      · simp [hfull, hearly, hpos, Nat.not_le.mpr hearly]
      · simp [hfull, hearly, Nat.lt_of_not_le hfull, Nat.le_of_not_lt hearly]

/-- What may be submitted may be submitted later. -/
theorem retryOf_later {previous : List Attempt} {limit : Nat} {now later : Instant}
    (hle : now ≤ later) (h : retryOf previous limit now = .submit) :
    retryOf previous limit later = .submit := by
  unfold retryOf at h ⊢
  split at h
  · rfl
  · next last hlast =>
    split at h
    · cases h
    · next hopen =>
      split at h
      · cases h
      · next hlate =>
        rw [if_neg hopen, if_neg fun hearly => hlate (Nat.lt_of_le_of_lt hle hearly)]

/-- An exhausted target stays exhausted, whatever the time. -/
theorem retryOf_exhausted {previous : List Attempt} {limit : Nat} {now : Instant}
    (h : retryOf previous limit now = .exhausted) (later : Instant) :
    retryOf previous limit later = .exhausted := by
  unfold retryOf at h ⊢
  split at h
  · cases h
  · split at h
    · next hfull => exact if_pos hfull
    · split at h <;> cases h

/-- The planner submits exactly what the guard lets pass. -/
theorem guard_iff_retry {journal : Journal} (hs : Sound journal)
    (hsorted : journal.attempts.Pairwise fun a b => a.createdAt ≤ b.createdAt)
    {cleanup : OperationCleanup} (hc : cleanup ∈ journal.cleanups) {operation : OperationRow}
    (active : journal.Active operation) (hexecutor : operation.id = cleanup.operationId)
    {row : OwnedResource}
    (hnext : nextTarget journal.resources (journal.cleanupHistory cleanup) = some row)
    {new : Attempt} (howner : new.operationId = cleanup.operationId)
    (hcommand : new.command = .deletion row.ref) (now : Instant) :
    guardAdmittedEffect journal now new = .ok () ↔
      retryOf (targeting row.ref (journal.cleanupHistory cleanup))
        (journal.deleteLimit cleanup.operationId (.deletion row.ref)) now = .submit := by
  obtain ⟨hm, hlive, hip⟩ := nextTarget_ok hnext
  have hget : journal.operation cleanup.operationId = some operation := by
    rw [← hexecutor]
    exact hs.operations.keyed.get active.mem
  have hrow : journal.resource row.ref = some row := hs.ledger.keyed.get hm
  have hservers : row.ref.kind = .primaryIp →
      ¬ pendingServer journal cleanup.sourceOperationId = true ∧ ¬ liveServer journal = true :=
    fun hkind => ⟨by simp [(hip hkind).1], by simp [(hip hkind).2]⟩
  have hsubmitted : (submitted journal cleanup (.deletion row.ref)).Pairwise
      fun a b => a.createdAt ≤ b.createdAt :=
    hsorted.sublist (List.filter_sublist.trans List.filter_sublist)
  have hlimit : 0 < journal.deleteLimit cleanup.operationId (.deletion row.ref) := by
    rw [deleteLimit_eq]
    omega
  rw [targeting_eq_submitted, retryOf_submit hsubmitted hlimit]
  simp only [guardAdmittedEffect, bind_ok_iff, present_ok_iff, refuse_ok_iff, howner,
    hs.cleanup_get hc, hcommand, ProviderCommand.deletion_deletes?, Option.some.injEq,
    exists_eq_left', hget, hrow, Option.any_some, hlive, active.going, not_true_eq_false, not_or,
    not_and, Nat.not_le, Nat.not_lt]
  constructor
  · rintro ⟨-, -, -, -, hbound⟩
    exact hbound
  · intro hbound
    exact ⟨(), by simp, (), fun hkind => hservers hkind, hbound⟩

/-! ## What the provider receives -/

/-- Exchanges for a list of attempts, each submitted at most once. -/
theorem countP_le_length {log : Log} {p : Exchange interface → Bool} {ids : List AttemptId}
    (hkey : ∀ exchange ∈ log, p exchange = true → ∃ id ∈ ids, exchange.call.attempt? = some id)
    (honce : ∀ id, submissions log id ≤ 1) : log.countP p ≤ ids.length := by
  induction ids generalizing log with
  | nil =>
    refine Nat.le_of_eq (List.countP_eq_zero.mpr fun exchange hm hp => ?_)
    obtain ⟨id, hid, -⟩ := hkey exchange hm hp
    cases hid
  | cons id rest ih =>
    -- the exchanges of the first attempt, and all others
    let own : Exchange interface → Bool := fun exchange =>
      decide (exchange.call.attempt? = some id)
    have hfirst : (log.filter own).countP p ≤ 1 := by
      refine Nat.le_trans List.countP_le_length ?_
      rw [← List.countP_eq_length_filter]
      exact honce id
    have hrest : (log.filter fun exchange => !own exchange).countP p ≤ rest.length := by
      refine ih (fun exchange hm hp => ?_) fun other =>
        Nat.le_trans (List.filter_sublist.countP_le) (honce other)
      obtain ⟨hlog, hother⟩ := List.mem_filter.mp hm
      obtain ⟨found, hfound, hcall⟩ := hkey exchange hlog hp
      rcases List.mem_cons.mp hfound with rfl | hfound
      · simp [own, hcall] at hother
      · exact ⟨found, hfound, hcall⟩
    rw [List.countP_eq_countP_filter_add log p own, List.length_cons]
    omega

/-- The exchange submits exactly this command. -/
def submitsCommand (command : ProviderCommand) (exchange : Exchange interface) : Bool :=
  match exchange.call with
  | .submit _ submitted => decide (submitted = command)
  | _ => false

/-- Only a cleanup and its source delete. -/
theorem Sound.deleter {journal : Journal} (hs : Sound journal) {cleanup : OperationCleanup}
    (hc : cleanup ∈ journal.cleanups) {attempt : Attempt} (hm : attempt ∈ journal.attempts)
    (hdeletes : attempt.command.deletes? ≠ none) :
    attempt.operationId = cleanup.operationId ∨
      attempt.operationId = cleanup.sourceOperationId := by
  obtain ⟨row, hrow, hid⟩ := hs.attempts.owner attempt hm
  cases hintent : row.intent with
  | run => exact absurd (hs.attempts.keeps attempt hm row hrow hid hintent) hdeletes
  | compensate error =>
    -- only the create compensates, and it is the source
    obtain ⟨origin, horigin, hsource, hkind⟩ := hs.operations.origin cleanup hc
    obtain rfl := hs.operations.create row hrow origin horigin
      (hs.operations.compensates row hrow error hintent) hkind
    exact .inr (hid.symm.trans hsource)
  | cleanup source =>
    have hcleanup : row.isCleanup = true := by simp [OperationRow.isCleanup, hintent]
    obtain ⟨other, hother, howner⟩ := hs.operations.joined row hrow hcleanup
    obtain rfl := hs.operations.single other hother cleanup hc
    exact .inl (hid.symm.trans howner.symm)

/-- A deletion is asked for with an attempt of the cleanup or of its source. -/
theorem submitted_of_deletion {w : World interface} (hw : Valid w) {cleanup : OperationCleanup}
    (hc : cleanup ∈ w.store.journal.cleanups) {command : ProviderCommand}
    (hdeletes : command.deletes? ≠ none) {exchange : Exchange interface} (hm : exchange ∈ w.log)
    (h : submitsCommand command exchange = true) :
    ∃ id ∈ (submitted w.store.journal cleanup command).map Attempt.id,
      exchange.call.attempt? = some id := by
  unfold submitsCommand at h
  split at h
  · next attemptId found hcall =>
    obtain rfl : found = command := by simpa using h
    obtain ⟨a, ha, hid, hcommand⟩ := hw.submitted exchange hm attemptId found hcall
    have howner := hw.sound.deleter hc ha (hcommand ▸ hdeletes)
    exact ⟨a.id, List.mem_map.mpr ⟨a, mem_submitted.mpr ⟨ha, howner, hcommand⟩, rfl⟩,
      by simp [hcall, Call.attempt?, hid]⟩
  · cases h

/-- **Bounded deletes.**  In every run of the control plane of a machine, for every resource of a
    cleanup: the provider receives no more deletions of it than were recorded; recorded are at most
    three, and one for each retry that was granted; the grants are at least two behind; and the
    attempts are five, then thirty seconds apart.  While the cleanup goes on and turns to the
    resource, the planner and the guards agree: what the planner submits passes the guards from
    then on, and once it gives up they refuse any other attempt. -/
theorem deletes_bounded {start : World interface} (hstart : Initial start) {c : Machine}
    (hreach : (system anyReply true).Reach (.idle start) c) {cleanup : OperationCleanup}
    (hc : cleanup ∈ c.world.store.journal.cleanups) (ref : ResourceRef) :
    c.world.log.countP (submitsCommand (.deletion ref)) ≤
        (submitted c.world.store.journal cleanup (.deletion ref)).length ∧
    (submitted c.world.store.journal cleanup (.deletion ref)).length ≤
        3 + (grants c.world.store.journal cleanup.operationId (.deletion ref)).length ∧
    (grants c.world.store.journal cleanup.operationId (.deletion ref)).length ≤
        (submitted c.world.store.journal cleanup (.deletion ref)).length - 2 ∧
    Spaced (submitted c.world.store.journal cleanup (.deletion ref)) ∧
    (∀ operation row new now later, c.world.store.journal.Active operation →
      operation.id = cleanup.operationId →
      nextTarget c.world.store.journal.resources
        (c.world.store.journal.cleanupHistory cleanup) = some row → row.ref = ref →
      new.operationId = cleanup.operationId → new.command = .deletion ref → now ≤ later →
      (retryOf (targeting ref (c.world.store.journal.cleanupHistory cleanup))
          (c.world.store.journal.deleteLimit cleanup.operationId (.deletion ref)) now = .submit →
        guardAdmittedEffect c.world.store.journal later new = .ok ()) ∧
      (retryOf (targeting ref (c.world.store.journal.cleanupHistory cleanup))
          (c.world.store.journal.deleteLimit cleanup.operationId (.deletion ref)) now =
            .exhausted →
        guardAdmittedEffect c.world.store.journal later new ≠ .ok ())) := by
  have hw : Valid c.world := (hstart.inOrder hreach).1
  have hb : Bounded c.world.store.journal := bounded_run hstart hreach
  refine ⟨?_, hb.within cleanup hc ref, hb.granted cleanup hc ref, hb.spaced cleanup hc ref,
    fun operation row new now later active hexecutor hnext href howner hcommand hle => ?_⟩
  · have hdeletes : (ProviderCommand.deletion ref).deletes? ≠ none := by simp
    have hcount := countP_le_length
      (fun exchange hm => submitted_of_deletion hw hc hdeletes hm) hw.once
    rwa [List.length_map] at hcount
  · subst href
    have hagree : guardAdmittedEffect c.world.store.journal later new = .ok () ↔ _ :=
      guard_iff_retry hw.sound hw.timely.1 hc active hexecutor hnext howner hcommand later
    refine ⟨fun hsubmit => hagree.mpr (retryOf_later hle hsubmit), fun hexhausted hok => ?_⟩
    have hnever := retryOf_exhausted hexhausted later
    rw [hagree.mp hok] at hnever
    cases hnever

namespace Demo

/-- The server of the destroyed machine was deleted once, by an attempt of the cleanup. -/
theorem destroyed_bounded :
    ∃ cleanup ∈ destroyed.store.journal.cleanups,
      (submitted destroyed.store.journal cleanup (.deletion ⟨.server, "srv"⟩)).length = 1 ∧
      destroyed.log.countP (submitsCommand (.deletion ⟨.server, "srv"⟩)) ≤ 1 := by
  have hcleanup : ∃ cleanup ∈ destroyed.store.journal.cleanups,
      (submitted destroyed.store.journal cleanup (.deletion ⟨.server, "srv"⟩)).length = 1 := by
    decide +kernel
  obtain ⟨cleanup, hc, hlength⟩ := hcleanup
  exact ⟨cleanup, hc, hlength, hlength ▸
    (deletes_bounded start_initial (destroyed_reached true) hc ⟨.server, "srv"⟩).1⟩

end Demo

end AgentCloud.Lifecycle
