/-
  GENERATIONS ARE NOT ALWAYS LEFT FOR GOOD.

  A recovery begins with a generation that differs from the current one.  The receipts remember
  which generations there were, but the request is not compared with them: a generation that was
  superseded twice over may come back, and the processes and the generation files of its first time
  pass the fence again.

  The step lemma is `after_moves`.  From it, a generation becomes current only by an `initialize`
  or a `begin`, and once the receipts of a run are asked (`Reuses`), this happens to each at most
  once.  Both directions are proved: a run without such a request keeps every superseded generation
  out, and a request of this kind brings one back.
-/
import AgentCloud.Control.Requests
import Mathlib.Data.List.Induction

namespace AgentCloud.Control

open Checked

variable {store store' : Store} {event : Event} {events : List Event} {g : Generation}

/-! ## One request -/

/-- What a request does to the store when it is not refused and not a repetition. -/
inductive Moves (store : Store) (request : Request) : Store → Prop where
  | initializeControl (kind : request.decision = .initializeControl) (fresh : store.row = none) :
      Moves store request
        ⟨some (.ready request.generation), store.receipts ++ [request]⟩
  | begin (checkpoint evidence) (kind : request.decision = .begin checkpoint evidence)
      (may : mayBegin store.row request.generation = true) :
      Moves store request
        ⟨some (.recovering request.generation request.id), store.receipts ++ [request]⟩
  | settle (row : ControlState) (kind : request.decision.introduces = false)
      (held : store.generation = some request.generation)
      (same : row.generation = request.generation) :
      Moves store request ⟨some row, store.receipts ++ [request]⟩

theorem decided_moves {env : Env} {request : Request} {row : Option ControlState}
    (h : decided env request store = .ok row) :
    Moves store request ⟨row, store.receipts ++ [request]⟩ := by
  unfold decided at h
  split at h
  · rename_i hkind
    simp only [bind_ok_iff, refuse_ok_iff, pure_ok_iff, not_or] at h
    obtain ⟨-, ⟨hnone, -⟩, rfl⟩ := h
    exact .initializeControl hkind (by simpa using hnone)
  · rename_i checkpoint evidence hkind
    simp only [bind_ok_iff, refuse_ok_iff, pure_ok_iff, Bool.not_eq_false] at h
    obtain ⟨-, hmay, rfl⟩ := h
    exact .begin checkpoint evidence hkind hmay
  · rename_i recoveryId _ _ _ _ hkind
    simp only [bind_ok_iff, pure_ok_iff] at h
    obtain ⟨⟨⟩, hheld, _, -, rfl⟩ := h
    have hrow := requireRecovery_ok hheld
    rw [hrow]
    exact .settle _ (by rw [hkind]; rfl) (by simp [Store.generation, hrow]; rfl) rfl
  · rename_i recoveryId _ _ _ hkind
    simp only [bind_ok_iff, refuse_ok_iff, pure_ok_iff] at h
    obtain ⟨⟨⟩, hheld, _, _, _, _, _, _, rfl⟩ := h
    have hrow := requireRecovery_ok hheld
    exact .settle _ (by rw [hkind]; rfl) (by simp [Store.generation, hrow]; rfl) rfl

theorem apply_moves {env : Env} {request : Request} {answer : Answer}
    (h : applyControlRecovery env request store = .ok (answer, store')) :
    store' = store ∨ Moves store request store' := by
  simp only [applyControlRecovery, bind_ok_iff, readTarget_ok] at h
  obtain ⟨-, -, -, -, h⟩ := h
  split at h
  · simp only [bind_ok_iff, pure_ok_iff, Prod.mk.injEq] at h
    obtain ⟨-, -, -, rfl⟩ := h
    exact .inl rfl
  · simp only [bind_ok_iff, pure_ok_iff, Prod.mk.injEq] at h
    obtain ⟨-, -, row, hrow, -, -, -, rfl⟩ := h
    exact .inr (decided_moves hrow)

/-- The step lemma: a request changes nothing, or moves the store in one of three ways. -/
theorem after_moves (store : Store) (event : Event) :
    store.after event = store ∨ Moves store event.request (store.after event) := by
  unfold Store.after
  split
  · rename_i hok
    exact apply_moves hok
  · exact .inl rfl

/-! ## What the receipts remember -/

@[simp] theorem introduced_append (row : Option ControlState) (receipts : List Request)
    (request : Request) :
    (⟨row, receipts ++ [request]⟩ : Store).introduced =
      (⟨row, receipts⟩ : Store).introduced ++
        if request.decision.introduces = true then [request.generation] else [] := by
  unfold Store.introduced
  rw [List.filter_append, List.map_append]
  congr 1
  by_cases h : request.decision.introduces = true <;> simp [h]

/-- The current generation is on record, and an empty row has no record. -/
structure Sound (store : Store) : Prop where
  recorded : ∀ generation, store.generation = some generation → generation ∈ store.introduced
  blank : store.row = none → store.introduced = []

theorem Sound.empty : Sound Store.empty := ⟨by simp [Store.empty, Store.generation], fun _ => rfl⟩

/-- A generation that a request makes current is the request's own, and one the request brings in
    unless it was current before. -/
theorem Moves.generation {request : Request} (h : Moves store request store') :
    store'.generation = some request.generation := by
  cases h with
  | initializeControl kind fresh => rfl
  | begin checkpoint evidence kind may => rfl
  | settle row kind held same => simp [Store.generation, same]

theorem Moves.receipts {request : Request} (h : Moves store request store') :
    store'.receipts = store.receipts ++ [request] := by
  cases h <;> rfl

theorem Moves.introduced {request : Request} (h : Moves store request store') :
    store'.introduced = store.introduced ++
      if request.decision.introduces = true then [request.generation] else [] := by
  obtain ⟨row', receipts'⟩ := store'
  obtain rfl : receipts' = store.receipts ++ [request] := h.receipts
  rw [introduced_append]
  rfl

theorem Moves.sound {request : Request} (hs : Sound store) (h : Moves store request store') :
    Sound store' := by
  constructor
  · intro generation hgeneration
    rw [h.generation] at hgeneration
    obtain rfl := Option.some.inj hgeneration
    rw [h.introduced, List.mem_append]
    cases h with
    | initializeControl kind fresh => exact .inr (by simp [kind, Decision.introduces])
    | begin checkpoint evidence kind may => exact .inr (by simp [kind, Decision.introduces])
    | settle row kind held same => exact .inl (hs.recorded _ held)
  · intro hnone
    have hcurrent := h.generation
    rw [Store.generation, hnone] at hcurrent
    cases hcurrent

theorem Sound.after (hs : Sound store) (event : Event) : Sound (store.after event) := by
  rcases after_moves store event with heq | hmoves
  · rw [heq]
    exact hs
  · exact hmoves.sound hs

theorem Sound.run (hs : Sound store) (events : List Event) : Sound (store.run events) := by
  induction events generalizing store with
  | nil => exact hs
  | cons event events ih => exact ih (hs.after event)

/-- Receipts are retained. -/
theorem introduced_after (h : g ∈ store.introduced) (event : Event) :
    g ∈ (store.after event).introduced := by
  rcases after_moves store event with heq | hmoves
  · rw [heq]
    exact h
  · rw [hmoves.introduced]
    exact List.mem_append_left _ h

theorem introduced_run (h : g ∈ store.introduced) (events : List Event) :
    g ∈ (store.run events).introduced := by
  induction events generalizing store with
  | nil => exact h
  | cons event events ih => exact ih (introduced_after h event)

/-- Every generation on record was current once. -/
theorem introduced_earlier (h : g ∈ (Store.empty.run events).introduced) :
    ∃ before after, events = before ++ after ∧
      (Store.empty.run before).generation = some g := by
  induction events using List.reverseRecOn with
  | nil => simp [Store.empty, Store.introduced] at h
  | append_singleton events event ih =>
    have hearlier (hin : g ∈ (Store.empty.run events).introduced) :
        ∃ before after, events ++ [event] = before ++ after ∧
          (Store.empty.run before).generation = some g := by
      obtain ⟨before, after, rfl, hcurrent⟩ := ih hin
      exact ⟨before, after ++ [event], List.append_assoc _ _ _, hcurrent⟩
    rw [Store.run_append, Store.run_cons, Store.run_nil] at h
    rcases after_moves (Store.empty.run events) event with heq | hmoves
    · rw [heq] at h
      exact hearlier h
    · rw [hmoves.introduced, List.mem_append] at h
      rcases h with hin | hnew
      · exact hearlier hin
      · refine ⟨events ++ [event], [], (List.append_nil _).symm, ?_⟩
        have hown : g = event.request.generation := by
          split at hnew <;> simp_all
        rw [Store.run_append, Store.run_cons, Store.run_nil, hmoves.generation, hown]

/-! ## Requests that bring a generation back -/

/-- An admissible `begin`, with a generation that the receipts have already and that is not the
    current one. -/
structure Reuses (store : Store) (event : Event) : Prop where
  kind : ∃ checkpoint evidence, event.request.decision = .begin checkpoint evidence
  target : event.env.target = .ok event.request.generation
  alone : event.env.busy = false
  first : store.saved event.request.id = none
  targetInside : event.env.targetInside = .ok event.request.generation
  targetBefore : event.env.targetBefore = .ok event.request.generation
  replaced : ∃ previous, store.row = some (.ready previous) ∧ previous ≠ event.request.generation
  known : event.request.generation ∈ store.introduced

/-- Such a request is accepted. -/
theorem Reuses.generation (h : Reuses store event) :
    (store.after event).generation = some event.request.generation := by
  obtain ⟨checkpoint, evidence, hkind⟩ := h.kind
  obtain ⟨previous, hrow, hne⟩ := h.replaced
  have hmay : mayBegin store.row event.request.generation = true := by simp [mayBegin, hrow, hne]
  have hdecided : decided event.env event.request store =
      .ok (some (.recovering event.request.generation event.request.id)) := by
    unfold decided
    rw [hkind]
    simp only [bind_ok_iff, refuse_ok_iff, pure_ok_iff]
    exact ⟨(), by simp [hmay], trivial⟩
  have happly : applyControlRecovery event.env event.request store =
      .ok (⟨event.request.id, false⟩,
        ⟨some (.recovering event.request.generation event.request.id),
          store.receipts ++ [event.request]⟩) := by
    have hread (message : String) (file) (hfile : file = .ok event.request.generation) :
        readTarget file event.request message = .ok () := readTarget_ok.mpr hfile
    simp only [applyControlRecovery, bind_ok_iff, refuse_ok_iff, Bool.not_eq_true]
    refine ⟨(), hread _ _ h.target, (), h.alone, ?_⟩
    rw [h.first]
    simp only [bind_ok_iff, pure_ok_iff]
    exact ⟨(), hread _ _ h.targetInside, _, hdecided, (), hread _ _ h.targetBefore, rfl⟩
  rw [Store.after, happly]
  rfl

/-- What was reached by a request that moved it. -/
theorem after_applied (h : store.after event ≠ store) :
    ∃ answer, applyControlRecovery event.env event.request store =
      .ok (answer, store.after event) := by
  unfold Store.after at h ⊢
  split at h
  · rename_i answer store' hok
    exact ⟨answer, by rw [hok]⟩
  · exact absurd rfl h

/-- Without one, only a generation that was never on record becomes current. -/
theorem generation_fresh (hs : Sound store) (hnot : ¬ Reuses store event)
    (hwas : store.generation ≠ some g)
    (hnow : (store.after event).generation = some g) :
    g ∉ store.introduced := by
  intro hknown
  have hchanged : store.after event ≠ store := by
    intro heq
    rw [heq] at hnow
    exact hwas hnow
  obtain ⟨answer, hok⟩ := after_applied hchanged
  have hmoves := (after_moves store event).resolve_left hchanged
  have hown : event.request.generation = g :=
    Option.some.inj (hmoves.generation.symm.trans hnow)
  generalize hafter : store.after event = store' at hok hmoves hchanged
  cases hmoves with
  | initializeControl kind fresh =>
    rw [hs.blank fresh] at hknown
    cases hknown
  | settle row kind held same => exact hwas (hown ▸ held)
  | begin checkpoint evidence kind may =>
    -- The row was ready with another generation, so the request is one that reuses.
    simp only [applyControlRecovery, bind_ok_iff, readTarget_ok, refuse_ok_iff] at hok
    obtain ⟨_, htarget, _, hbusy, hok⟩ := hok
    split at hok
    · simp only [bind_ok_iff, pure_ok_iff, Prod.mk.injEq] at hok
      obtain ⟨-, -, -, heq⟩ := hok
      exact hchanged heq.symm
    · rename_i hsaved
      simp only [bind_ok_iff, readTarget_ok] at hok
      obtain ⟨_, hinside, _, _, _, hbefore, _⟩ := hok
      have hreplaced : ∃ previous, store.row = some (.ready previous) ∧
          previous ≠ event.request.generation := by
        cases hrow : store.row with
        | none =>
          rw [hs.blank hrow] at hknown
          cases hknown
        | some state =>
          cases state with
          | ready previous => exact ⟨previous, rfl, by simpa [mayBegin, hrow] using may⟩
          | recovering previous recoveryId => simp [mayBegin, hrow] at may
      exact hnot ⟨⟨checkpoint, evidence, kind⟩, htarget, by simpa using hbusy, hsaved, hinside,
        hbefore, hreplaced, hown ▸ hknown⟩

/-! ## Runs -/

/-- The generation is neither the current one nor admitted by the fence, with whatever file a new
    process reads and for the processes that were started with it. -/
structure Fenced (g : Generation) (store : Store) : Prop where
  gone : store.generation ≠ some g
  closed : ∀ mode acquired fence, openFence mode acquired (.ok g) store ≠ .ok fence
  stopped : ∀ mode file, Fence.check ⟨mode, g⟩ file store ≠ .ok ()

theorem inspectFence_ok {mode : Mode} {file : Except Fault Generation}
    (h : inspectFence mode file store = .ok g) :
    file = .ok g ∧ store.generation = some g := by
  simp only [inspectFence, Store.parsed, bind_ok_iff, present_ok_iff, refuse_ok_iff, pure_ok_iff,
    not_or, not_not] at h
  obtain ⟨external, hfile, state, hrow, -, ⟨-, hsame⟩, rfl⟩ := h
  exact ⟨hfile, by simp [Store.generation, hrow, hsame]⟩

/-- The fence passes the current generation only. -/
theorem Fenced.of_gone (h : store.generation ≠ some g) : Fenced g store := by
  refine ⟨h, ?_, ?_⟩
  · intro mode acquired fence hopen
    unfold openFence at hopen
    split at hopen
    · rename_i found hinspect
      obtain ⟨hfile, hcurrent⟩ := inspectFence_ok hinspect
      obtain rfl := Except.ok.inj hfile
      exact h hcurrent
    · cases hopen
  · intro mode file hcheck
    unfold Fence.check at hcheck
    split at hcheck
    · rename_i found hinspect
      simp only [refuse_ok_iff, not_not] at hcheck
      obtain rfl := hcheck
      exact h (inspectFence_ok hinspect).2
    · cases hcheck

/-- In every state that the run reaches, a generation that another one has superseded is fenced. -/
def StaySuperseded (events : List Event) : Prop :=
  ∀ before between after rest, events = before ++ between ++ after ++ rest →
    ∀ old new, (Store.empty.run before).generation = some old →
      (Store.empty.run (before ++ between)).generation = some new → new ≠ old →
        Fenced old (Store.empty.run (before ++ between ++ after))

/-- No request of the run brings a generation back. -/
def Fresh (events : List Event) : Prop :=
  ∀ before event after, events = before ++ event :: after →
    ¬ Reuses (Store.empty.run before) event

/-- A generation on record that is not current stays away while no request brings it back. -/
theorem generation_stays_away (hs : Sound store) (hknown : g ∈ store.introduced)
    (hgone : store.generation ≠ some g)
    (hfresh : ∀ before event after, events = before ++ event :: after →
      ¬ Reuses (store.run before) event) :
    (store.run events).generation ≠ some g := by
  induction events generalizing store with
  | nil => exact hgone
  | cons event events ih =>
    have hfirst : ¬ Reuses store event := hfresh [] event events rfl
    refine ih (hs.after event) (introduced_after hknown event) ?_ ?_
    · intro hnow
      exact generation_fresh hs hfirst hgone hnow hknown
    · intro before later rest hsplit
      have := hfresh (event :: before) later rest (by rw [hsplit]; rfl)
      rwa [Store.run_cons] at this

/-- Superseded generations stay away exactly in the runs that bring none of them back. -/
theorem superseded_iff_fresh (events : List Event) : StaySuperseded events ↔ Fresh events := by
  constructor
  · rintro hstay before event after rfl hreuses
    obtain ⟨first, second, rfl, hold⟩ := introduced_earlier hreuses.known
    obtain ⟨previous, hrow, hne⟩ := hreuses.replaced
    have hnew : (Store.empty.run (first ++ second)).generation = some previous := by
      rw [Store.generation, hrow]
      rfl
    have hfenced := hstay first second [event] after (by simp) _ _ hold hnew hne
    refine hfenced.gone ?_
    rw [Store.run_append, Store.run_cons, Store.run_nil]
    exact hreuses.generation
  · intro hfresh before between after rest hsplit old new hold hnew hne
    refine .of_gone ?_
    rw [Store.run_append]
    refine generation_stays_away (Sound.empty.run _) ?_ ?_ ?_
    · rw [Store.run_append]
      exact introduced_run ((Sound.empty.run before).recorded old hold) between
    · rw [hnew]
      exact fun heq => hne (Option.some.inj heq)
    · intro earlier event later hlater
      rw [← Store.run_append]
      refine hfresh (before ++ between ++ earlier) event (later ++ rest) ?_
      rw [hsplit, hlater]
      simp

/-! ## A generation that comes back -/

namespace Demo

def digest : String := "e3b0c44298fc1c149afbf4c8996fb92427ae41e4649b934ca495991b7852b855"

def evidence : Lifecycle.Evidence := ⟨"incident-7", digest⟩

def firstGeneration : Generation := "11111111-1111-4111-8111-111111111111"

def secondGeneration : Generation := "22222222-2222-4222-8222-222222222222"

/-- A quiet database whose target file holds this generation. -/
def quiet (target : Generation) : Env where
  target := .ok target
  busy := false
  targetInside := .ok target
  occupied := false
  closure := .ok ()
  inspection := .ok ⟨[], digest, digest⟩
  targetBefore := .ok target

def initial : Event :=
  ⟨quiet firstGeneration, ⟨"aaaaaaaa-aaaa-4aaa-8aaa-aaaaaaaaaaaa", firstGeneration, "operator",
    .initializeControl, by decide, by decide⟩⟩

def replacing : Event :=
  ⟨quiet secondGeneration, ⟨"bbbbbbbb-bbbb-4bbb-8bbb-bbbbbbbbbbbb", secondGeneration, "operator",
    .begin digest evidence, by decide, by decide⟩⟩

def resuming : Event :=
  ⟨quiet secondGeneration, ⟨"cccccccc-cccc-4ccc-8ccc-cccccccccccc", secondGeneration, "operator",
    .resume "bbbbbbbb-bbbb-4bbb-8bbb-bbbbbbbbbbbb" digest digest evidence, by decide, by decide⟩⟩

/-- A second recovery, onto the generation of the installation. -/
def returning : Event :=
  ⟨quiet firstGeneration, ⟨"dddddddd-dddd-4ddd-8ddd-dddddddddddd", firstGeneration, "operator",
    .begin digest evidence, by decide, by decide⟩⟩

theorem generation_returned : ¬ ∀ events, StaySuperseded events := by
  intro hall
  have hfenced := hall [initial, replacing, resuming, returning] [initial] [replacing, resuming]
    [returning] [] rfl firstGeneration secondGeneration (by decide) (by decide) (by decide)
  exact hfenced.gone (by decide)

end Demo

end AgentCloud.Control
