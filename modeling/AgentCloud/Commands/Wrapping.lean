/-
  THE WRAPPER AGAINST THE CONTRACT: every action of `command` is one of `ByWrapper`'s changes, and
  every summary it makes is truthful.

  A summary reads result, start, cancellation, boot and activity one after the other while the worker
  goes on.  `Seen` is what of that is still true later: a result that was found is still the result,
  a missing one is missing still unless the worker's boot is this one.  `Derivable` is what the last
  two reads add, when they lead to an outcome: the run is settled, and under the condition there is
  no result yet, so that saving one replaces none.
-/
import AgentCloud.Commands.Lives

namespace AgentCloud.Commands

open Checked Durable

variable {attentive : Prop} {k : Slot} {α : Type} {id : RunId}

/-! ## Actions -/

theorem Does.idle (k : Slot) (w : World Guest) : Does attentive k w w := by
  cases k with
  | wrapper => exact .wrapper rfl (fun _ => .inl rfl) (.inl rfl)
  | worker id => exact .worker id rfl rfl rfl (fun _ _ => rfl) (.inl rfl)

/-- A process makes only permitted changes, whatever it fails with. -/
abbrev Keeping (attentive : Prop) (k : Slot) (P : World Guest → Prop) (p : Job α)
    (Q : α → World Guest → Prop) : Prop :=
  Triple (contract attentive) k P p Q fun _ _ => True

variable {P : World Guest → Prop} {Q : α → World Guest → Prop}

theorem Keeping.loadAnd {f : Store → α} {mark : Store → Store}
    (hP : Stable (contract attentive) k P)
    (h : ∀ w, Valid attentive w → P w → Does attentive k w (w.put (mark w.store)) ∧
      (Valid attentive (w.put (mark w.store)) → Q (f w.store) (w.put (mark w.store)))) :
    Keeping attentive k P (loadAnd f mark) Q := by
  refine Triple.transact hP (fun _ _ _ _ _ _ => trivial) fun w hw hvalid env a s hok => ?_
  dsimp only at hok
  split at hok
  · obtain ⟨rfl, rfl⟩ := Prod.mk.inj (Except.ok.inj hok)
    exact h w hvalid hw
  · cases hok

theorem Keeping.load {f : Store → α} (hP : Stable (contract attentive) k P)
    (h : ∀ w, Valid attentive w → P w → Q (f w.store) w) :
    Keeping attentive k P (load f) Q :=
  Keeping.loadAnd hP fun w hvalid hw => ⟨Does.idle k w, fun _ => h w hvalid hw⟩

theorem Keeping.observe {f : Env → Store → α} (hP : Stable (contract attentive) k P)
    (h : ∀ w, P w → ∀ env, Q (f env w.store) w) :
    Keeping attentive k P (Prog.observe (S := Guest) f) Q :=
  Triple.observe hP (fun w => Does.idle k w) fun w hw _ env => h w hw env

theorem Keeping.save {f : Store → Store} {Q : World Guest → Prop}
    (hP : Stable (contract attentive) k P)
    (h : ∀ w, Valid attentive w → P w → Does attentive k w (w.put (f w.store)) ∧
      (Valid attentive (w.put (f w.store)) → Q (w.put (f w.store)))) :
    Keeping attentive k P (save f) fun _ => Q := by
  refine Triple.bind (Q := fun _ => Q) ?_ fun synced => ?_
  · refine Triple.transact hP (fun _ _ _ _ _ _ => trivial) fun w hw hvalid env a s hok => ?_
    dsimp only at hok
    split at hok
    · cases hok
    · obtain ⟨-, rfl⟩ := Prod.mk.inj (Except.ok.inj hok)
      exact h w hvalid hw
    · obtain ⟨-, rfl⟩ := Prod.mk.inj (Except.ok.inj hok)
      exact h w hvalid hw
  · cases synced with
    | true => exact Triple.pure fun _ hw => hw
    | false => exact Triple.throw fun _ _ => trivial

theorem Keeping.refuse {r : Except Fault α} {P : World Guest → Prop}
    (h : ∀ a, r = .ok a → ∀ w, P w → Q a w) :
    Keeping attentive k P (Prog.ofExcept (S := Guest) r) Q :=
  Triple.ofExcept h fun _ _ _ _ => trivial

/-- A call that spawns nothing changes no life. -/
theorem Does.exchange {w : World Guest} {c : SystemCall} {r : c.Reply} (hc : ∀ id, c.spawns id = []) :
    Does attentive k w (w.exchange c r) := by
  have hlives : ∀ id, life (w.exchange c r) id = life w id := by
    intro id
    simp [life, spawned_exchange, hc id]
  cases k with
  | wrapper => exact .wrapper rfl (fun id => .inl (hlives id)) (.inl rfl)
  | worker id => exact .worker id rfl rfl rfl (fun other _ => hlives other) (.inl (hlives id))

theorem Keeping.ask {c : SystemCall} {Q : c.Reply → World Guest → Prop}
    (hP : Stable (contract attentive) k P) (hc : ∀ id, c.spawns id = [])
    (h : ∀ w, Valid attentive w → P w → ∀ r, Replies attentive w c r → Q r (w.exchange c r)) :
    Keeping attentive k P (ask c) Q :=
  Triple.ask hP fun w hw hvalid r hr => ⟨Does.exchange hc, h w hvalid hw r hr⟩

/-- Which lives an edited record leaves alone. -/
theorem life_edit_other {w : World Guest} {other : RunId} {f : Record → Record}
    (h : other ≠ id) : life (w.put (w.store.edit id f)) other = life w other := by
  simp [life, Store.edit, Function.update_of_ne h]

theorem life_edit {w : World Guest} {f : Record → Record} :
    life (w.put (w.store.edit id f)) id =
      { life w id with
        request := (f (w.store.records id)).request
        started := (f (w.store.records id)).started
        cancelled := (f (w.store.records id)).cancelled
        result := (f (w.store.records id)).result } := by
  simp [life, Store.edit]

/-- An edited record is the wrapper's change if its run's life says so. -/
theorem Does.edit {w : World Guest} {f : Record → Record}
    (h : ByWrapper attentive w.store.bootId (life w id) (life (w.put (w.store.edit id f)) id)) :
    Does attentive .wrapper w (w.put (w.store.edit id f)) := by
  refine .wrapper rfl (fun other => ?_) (.inl rfl)
  by_cases hother : other = id
  · subst hother
    exact .inr h
  · exact .inl (life_edit_other hother)

/-! ## systemd and the clock -/

theorem Keeping.clock (hP : Stable (contract attentive) k P) :
    Keeping attentive k P clock fun _ => P :=
  Keeping.observe hP fun _ hw _ => hw

/-- What a call leaves alone. -/
def Unasked (P : World Guest → Prop) : Prop :=
  ∀ (w : World Guest) (c : SystemCall) (r : c.Reply), (∀ id, c.spawns id = []) → P w →
    P (w.exchange c r)

theorem Unasked.life {F : BootId → Life → Prop} : Unasked (OfLife id F) := by
  intro w c r hc h
  have heq : Commands.life (w.exchange c r) id = Commands.life w id := by
    simp [Commands.life, spawned_exchange, hc id]
  show F w.store.bootId (Commands.life (w.exchange c r) id)
  rw [heq]
  exact h

theorem Keeping.start (hP : Stable (contract attentive) k P) (hask : Unasked P) :
    Keeping attentive k P (start id) fun _ => P := by
  refine Triple.bind (Q := fun _ => P)
    (Keeping.ask hP (fun _ => rfl) fun w _ hw r _ => hask w _ r (fun _ => rfl) hw) fun ok => ?_
  dsimp only
  split
  · exact Triple.pure fun _ hw => hw
  · exact Triple.throw fun _ _ => trivial

theorem Keeping.stop (hP : Stable (contract attentive) k P) (hask : Unasked P) :
    Keeping attentive k P (stop id) fun _ => P := by
  refine Triple.bind (Q := fun _ => P)
    (Keeping.ask hP (fun _ => rfl) fun w _ hw r _ => hask w _ r (fun _ => rfl) hw) fun ok => ?_
  dsimp only
  split
  · exact Triple.pure fun _ hw => hw
  · exact Triple.throw fun _ _ => trivial

theorem Keeping.activeCount (hP : Stable (contract attentive) k P) (hask : Unasked P) :
    Keeping attentive k P activeCount fun _ => P :=
  Triple.bind (Q := fun _ => P)
    (Keeping.ask hP (fun _ => rfl) fun w _ hw r _ => hask w _ r (fun _ => rfl) hw)
    fun _ => Keeping.refuse fun _ _ _ hw => hw

/-! ## What a summary has seen -/

/-- What a summary that began when `began` was published, and read `request` and `result`, knows of
    the run from then on. -/
structure Seen (attentive : Prop) (began : Option RunResult) (request : SavedRequest)
    (result : Option RunResult) (boot : BootId) (l : Life) : Prop where
  admitted : l.request = some request
  kept : ∀ r, result = some r → l.result = some r
  absent : result = none → l.result = none ∨ request.bootId = boot
  told : attentive → ∀ r, began = some r → result = some r

/-- An outcome may be derived. -/
def Derivable (attentive : Prop) (boot : BootId) (l : Life) : Prop :=
  Settled boot l ∧ (attentive → l.result = none)

/-- The condition under which `summary` derives an outcome. -/
def Derives (result : Option RunResult) (started cancelled : Option Instant)
    (sameBoot active : Bool) : Prop :=
  result.isNone ∧ (sameBoot = false ∨ (active = false ∧ (started.isSome ∨ cancelled.isSome)))

variable {boot : BootId} {l l' : Life} {began result : Option RunResult} {request : SavedRequest}

/-- Where a worker can publish, its boot is this one. -/
theorem ByWorker.absent (hstep : ByWorker boot l l') (hv : LifeValid attentive boot l)
    (hrequest : l.request = some request) (h : l.result = none ∨ request.bootId = boot) :
    l'.result = none ∨ request.bootId = boot := by
  cases hstep with
  | publication other phase ran =>
    obtain ⟨-, -, saved, hsaved, hboot⟩ := hv.marked phase
    rw [hrequest] at hsaved
    exact .inr (Option.some.inj hsaved ▸ hboot)
  | birth => exact h
  | death => exact h
  | checks other admitted here started result' cancelled => exact h
  | receipt startedAt phase => exact h
  | spawn other admitted phase first => exact h

theorem Seen.step (h : Seen attentive began request result boot l)
    (hv : LifeValid attentive boot l) (hstep : ByWorker boot l l') :
    Seen attentive began request result boot l' where
  admitted := ByWorker.request hstep h.admitted
  kept r hr := hstep.result hv (h.kept r hr)
  absent hnone := hstep.absent hv h.admitted (h.absent hnone)
  told := h.told

theorem Derivable.step (h : Derivable attentive boot l) (hv : LifeValid attentive boot l)
    (hstep : ByWorker boot l l') : Derivable attentive boot l' := by
  refine ⟨(h.1.step hv (.inr hstep)).1, fun hattentive => ?_⟩
  have hnone := h.2 hattentive
  have hphase := h.1.phase hv
  cases hstep with
  | publication other phase ran => exact (hphase.2 phase).elim
  | birth => exact hnone
  | death => exact hnone
  | checks other admitted here started result' cancelled => exact hnone
  | receipt startedAt phase => exact hnone
  | spawn other admitted phase first => exact hnone

theorem started_step {l l' : Life} {boot : BootId} (hstep : ByWorker boot l l')
    (h : l.started.isSome) : l'.started.isSome := by
  cases hstep <;> first | exact h | rfl

theorem cancelled_step {l l' : Life} {boot : BootId} (hstep : ByWorker boot l l') :
    l'.cancelled = l.cancelled := by
  cases hstep <;> rfl

/-! ## The parts of a summary -/

theorem triple_saved {F : BootId → Life → Prop}
    (hF : Stable (contract attentive) k (OfLife id F)) :
    Keeping attentive k (OfLife id F) (saved id) fun request w =>
      OfLife id F w ∧ (life w id).request = some request := by
  refine Triple.bind (Q := fun value w => OfLife id F w ∧ (life w id).request = value)
    (Keeping.load hF fun w _ hw => ⟨hw, rfl⟩) fun value => ?_
  refine Keeping.refuse fun request hok w hw => ⟨hw.1, ?_⟩
  obtain ⟨hvalue, -⟩ := Option.filter_eq_some_iff.mp (present_ok_iff.mp hok)
  exact hw.2.trans hvalue

/-- A summary of a run that was found begins. -/
theorem triple_begin :
    Keeping attentive .wrapper (fun _ => True) (Prog.read (S := Guest) fun s => s.published id)
      fun began => OfLife id fun _ l => attentive → ∀ r, began = some r → l.result = some r :=
  Triple.read (fun _ _ _ h => h) (fun w => Does.idle _ w) fun w _ hvalid hattentive r hr =>
    ((hvalid.lives id).published r hr).2 hattentive

theorem triple_look :
    Keeping attentive .wrapper
      (OfLife id fun _ l => (attentive → ∀ r, began = some r → l.result = some r) ∧
        l.request = some request)
      (loadAnd (fun s => (s.records id).result) fun s =>
        { s with looking := if (s.records id).result.isNone then some id else none })
      fun result w => OfLife id (Seen attentive began request result) w ∧
        (result = none → w.store.looking = some id) := by
  have hstable : Stable (contract attentive) .wrapper
      (OfLife id fun _ l => (attentive → ∀ r, began = some r → l.result = some r) ∧
        l.request = some request) := by
    refine stable_wrapper fun boot l l' hv hstep h => ⟨fun hattentive r hr => ?_, ?_⟩
    · exact hstep.result hv (h.1 hattentive r hr)
    · exact ByWorker.request hstep h.2
  refine Keeping.loadAnd hstable fun w _ hw => ⟨.wrapper rfl (fun _ => .inl rfl) (.inl rfl), ?_⟩
  intro _
  refine ⟨⟨hw.2, fun r hr => hr, fun hnone => .inl hnone, fun hattentive r hr => ?_⟩, ?_⟩
  · exact hw.1 hattentive r hr
  · intro hnone
    simp [hnone]

variable {started cancelled : Option Instant}

/-- What is known before the unit is asked for. -/
structure Ready (attentive : Prop) (began : Option RunResult) (request : SavedRequest)
    (result : Option RunResult) (started cancelled : Option Instant) (boot : BootId) (l : Life) :
    Prop where
  seen : Seen attentive began request result boot l
  started : started.isSome → l.started.isSome
  cancelled : cancelled.isSome → l.cancelled.isSome

theorem Ready.step (h : Ready attentive began request result started cancelled boot l)
    (hv : LifeValid attentive boot l) (hstep : ByWorker boot l l') :
    Ready attentive began request result started cancelled boot l' where
  seen := h.seen.step hv hstep
  started hsome := started_step hstep (h.started hsome)
  cancelled hsome := by
    rw [cancelled_step hstep]
    exact h.cancelled hsome

theorem stable_ready : Stable (contract attentive) .wrapper
    (OfLife id (Ready attentive began request result started cancelled)) :=
  stable_wrapper fun _ _ _ hv hstep h => h.step hv hstep

theorem stable_looking_if {p : Prop} :
    Stable (contract attentive) .wrapper fun w => p → w.store.looking = some id :=
  Stable.imp stable_looking

/-- An inactive unit with a receipt or a cancellation is settled. -/
theorem Ready.settled (h : Ready attentive began request result started cancelled boot l)
    (hphase : l.phase = none) (hmark : started.isSome ∨ cancelled.isSome) : Settled boot l :=
  ⟨request, h.seen.admitted, .inr ⟨hmark.imp h.started h.cancelled, .inl hphase⟩⟩

theorem Ready.settled_of_boot
    (h : Ready attentive began request result started cancelled boot l)
    (hboot : request.bootId ≠ boot) (hnone : result = none) : Derivable attentive boot l :=
  ⟨⟨request, h.seen.admitted, .inl hboot⟩, fun _ => (h.seen.absent hnone).resolve_right hboot⟩

/-- What is known once the unit was asked for. -/
def Asked (attentive : Prop) (began : Option RunResult) (request : SavedRequest)
    (result : Option RunResult) (started cancelled : Option Instant) (sameBoot active : Bool)
    (boot : BootId) (l : Life) : Prop :=
  Seen attentive began request result boot l ∧
    (Derives result started cancelled sameBoot active → Derivable attentive boot l)

theorem stable_asked {sameBoot active : Bool} : Stable (contract attentive) .wrapper
    (OfLife id (Asked attentive began request result started cancelled sameBoot active)) :=
  stable_wrapper fun _ _ _ hv hstep h =>
    ⟨h.1.step hv hstep, fun hd => (h.2 hd).step hv hstep⟩

theorem triple_activeNow {sameBoot : Bool} :
    Keeping attentive .wrapper
      (fun w => (OfLife id (Ready attentive began request result started cancelled) w ∧
        (result = none → w.store.looking = some id)) ∧
        OfLife id (fun boot _ => sameBoot = decide (request.bootId = boot)) w)
      (activeNow id sameBoot)
      fun active => OfLife id
        (Asked attentive began request result started cancelled sameBoot active) := by
  have hboot : Stable (contract attentive) .wrapper
      (OfLife id fun boot _ => sameBoot = decide (request.bootId = boot)) :=
    stable_wrapper fun _ _ _ _ _ h => h
  have hready : Stable (contract attentive) .wrapper
      (OfLife id (Ready attentive began request result started cancelled)) := stable_ready
  have hlooking : Stable (contract attentive) .wrapper
      fun w => result = none → w.store.looking = some id := stable_looking_if
  have hstable := (hready.and hlooking).and hboot
  unfold activeNow
  split
  · next hsame =>
    -- the unit is asked for: "inactive" is true of it, and under the condition of an absent result
    refine Triple.bind (Q := fun state w => ∀ active, state = some active →
      OfLife id (Asked attentive began request result started cancelled sameBoot active) w) ?_
      fun state => ?_
    · refine Keeping.ask hstable (fun _ => rfl) fun w _ hw reply hreply active hactive => ?_
      have hlife : life (w.exchange (.active id) reply) id = life w id := by
        simp [life, spawned_exchange, SystemCall.spawns]
      obtain ⟨⟨hready, hlooking⟩, -⟩ := hw
      show Asked attentive began request result started cancelled sameBoot active
        w.store.bootId (life (w.exchange (.active id) reply) id)
      rw [hlife]
      refine ⟨hready.seen, fun ⟨hnone, hwhy⟩ => ?_⟩
      have hnone' : result = none := Option.isNone_iff_eq_none.mp hnone
      rcases hwhy with hother | ⟨hinactive, hmark⟩
      · rw [hsame] at hother
        cases hother
      · have hsaid : reply = some false := by rw [hactive, hinactive]
        exact ⟨hready.settled (hreply.1 hsaid) hmark,
          fun hattentive => hreply.2 hattentive hsaid (hlooking hnone')⟩
    · exact Keeping.refuse fun active hok w hw => hw active (present_ok_iff.mp hok)
  · next hsame =>
    refine Triple.pure fun w hw => ⟨hw.1.1.seen, fun ⟨hnone, _⟩ => ?_⟩
    have hother : request.bootId ≠ w.store.bootId := by
      intro heq
      exact hsame (hw.2.trans (decide_eq_true heq))
    exact hw.1.1.settled_of_boot hother (Option.isNone_iff_eq_none.mp hnone)

theorem triple_settle {c : Bool} :
    Keeping attentive .wrapper (OfLife id (Derivable attentive)) (settle id c) fun derived =>
      OfLife id fun _ l => l.request.isSome ∧ l.result = some derived := by
  have hstable : Stable (contract attentive) .wrapper (OfLife id (Derivable attentive)) :=
    stable_wrapper fun _ _ _ hv hstep h => h.step hv hstep
  refine Triple.bind (Keeping.clock hstable) fun now => ?_
  refine Triple.bind (Q := fun _ => OfLife id fun _ l => l.request.isSome ∧ l.result = some
    (.terminated (if c then .cancelled else .interrupted) now)) ?_ fun _ => ?_
  · refine Keeping.save hstable fun w _ hw => ⟨Does.edit ?_, fun _ => ?_⟩
    · rw [life_edit]
      exact .outcome _ hw.1 hw.2
    · obtain ⟨⟨request, hrequest, -⟩, -⟩ := hw
      show (life (w.put _) id).request.isSome ∧ _
      rw [life_edit]
      refine ⟨?_, rfl⟩
      have heq : (w.store.records id).request = some request := hrequest
      show (w.store.records id).request.isSome
      rw [heq]
      rfl
  · exact Triple.pure fun _ hw => hw

/-- What is known of the outcome. -/
structure Told (attentive : Prop) (began found : Option RunResult) (l : Life) : Prop where
  admitted : l.request.isSome
  final : ∀ r, found = some r → l.result = some r
  told : attentive → ∀ r, began = some r → found = some r

theorem Seen.told_outcome (h : Seen attentive began request result boot l) :
    Told attentive began result l where
  admitted := by rw [h.admitted]; rfl
  final := h.kept
  told := h.told

theorem Told.step {found : Option RunResult} (h : Told attentive began found l)
    (hv : LifeValid attentive boot l) (hstep : ByWorker boot l l') :
    Told attentive began found l' where
  admitted := by
    obtain ⟨request, hrequest⟩ := Option.isSome_iff_exists.mp h.admitted
    rw [ByWorker.request hstep hrequest]
    rfl
  final r hr := hstep.result hv (h.final r hr)
  told := h.told

theorem triple_outcome {sameBoot active : Bool} :
    Keeping attentive .wrapper
      (OfLife id (Asked attentive began request result started cancelled sameBoot active))
      (outcome id result started cancelled sameBoot active)
      fun found => OfLife id fun _ => Told attentive began found := by
  unfold outcome
  split
  · next hd =>
    have hnone : result = none := Option.isNone_iff_eq_none.mp hd.1
    have hbegan : Keeping attentive .wrapper
        (fun w => (attentive → ∀ r, began = some r → False) ∧ OfLife id (Derivable attentive) w)
        (settle id cancelled.isSome >>= fun derived => pure (some derived))
        fun found => OfLife id fun _ => Told attentive began found := by
      refine Triple.fact fun hfact => Triple.bind triple_settle fun derived => ?_
      refine Triple.pure fun w hw => ⟨hw.1, fun r hr => ?_, fun hattentive r hr => ?_⟩
      · exact hw.2.trans hr
      · exact (hfact hattentive r hr).elim
    refine Triple.pre hbegan fun w hw => ⟨fun hattentive r hr => ?_, hw.2 hd⟩
    have := hw.1.told hattentive r hr
    rw [hnone] at this
    cases this
  · exact Triple.pure fun w hw => hw.1.told_outcome

theorem stateOf_final {found : Option RunResult} {r : RunResult}
    (h : stateOf found started cancelled = .final r) : found = some r := by
  unfold stateOf at h
  split at h
  · exact congrArg some (RunState.final.inj h)
  · cases h
  · cases h
  · cases h

theorem triple_report {found : Option RunResult} :
    Keeping attentive .wrapper (OfLife id fun _ => Told attentive began found)
      (report ⟨id, stateOf found started cancelled, began⟩)
      fun _ => OfLife id fun _ l => l.request.isSome := by
  have hstable : Stable (contract attentive) .wrapper
      (OfLife id fun _ => Told attentive began found) :=
    stable_wrapper fun _ _ _ hv hstep h => h.step hv hstep
  refine Triple.transact hstable (fun _ _ _ _ _ h => by cases h) fun w hw _ env a s hok => ?_
  obtain ⟨-, rfl⟩ := Prod.mk.inj (Except.ok.inj hok)
  refine ⟨.wrapper rfl (fun _ => .inl rfl) (.inr ⟨_, rfl, ?_, ?_⟩), fun _ => hw.admitted⟩
  · intro r hr
    have hresult : (w.store.records id).result = some r := hw.final r (stateOf_final hr)
    show (w.store.records id).result.isSome ∧ (_ → (w.store.records id).result = some r)
    rw [hresult]
    exact ⟨rfl, fun _ => rfl⟩
  · intro hattentive r hr
    have hfound := hw.told hattentive r hr
    show stateOf found started cancelled = .final r
    rw [hfound]
    rfl

/-- **A summary is truthful**, and it is of an admitted run. -/
theorem triple_summary :
    Keeping attentive .wrapper (fun _ => True) (summary id)
      fun _ => OfLife id fun _ l => l.request.isSome := by
  refine Triple.bind triple_begin fun began => ?_
  have hbegan : Stable (contract attentive) .wrapper
      (OfLife id fun _ l => attentive → ∀ r, began = some r → l.result = some r) :=
    stable_wrapper fun _ _ _ hv hstep h hattentive r hr => hstep.result hv (h hattentive r hr)
  refine Triple.bind (triple_saved hbegan) fun request => ?_
  refine Triple.bind triple_look fun result => ?_
  have hseen : Stable (contract attentive) .wrapper
      (OfLife id (Seen attentive began request result)) :=
    stable_wrapper fun _ _ _ hv hstep h => h.step hv hstep
  have hlooking : Stable (contract attentive) .wrapper
      fun w => result = none → w.store.looking = some id := stable_looking_if
  refine Triple.bind (Q := fun started w =>
    OfLife id (Ready attentive began request result started none) w ∧
      (result = none → w.store.looking = some id)) ?_ fun started => ?_
  · refine Keeping.load (hseen.and hlooking) fun w _ hw => ⟨⟨hw.1, ?_, ?_⟩, hw.2⟩
    · exact fun hsome => hsome
    · exact fun hsome => by cases hsome
  refine Triple.bind (Q := fun cancelled w =>
    OfLife id (Ready attentive began request result started cancelled) w ∧
      (result = none → w.store.looking = some id)) ?_ fun cancelled => ?_
  · refine Keeping.load (stable_ready.and hlooking) fun w _ hw => ⟨⟨hw.1.seen, ?_, ?_⟩, hw.2⟩
    · exact hw.1.started
    · exact fun hsome => hsome
  refine Triple.bind (Q := fun bootId w =>
    (OfLife id (Ready attentive began request result started cancelled) w ∧
      (result = none → w.store.looking = some id)) ∧
      OfLife id (fun boot _ => decide (request.bootId = bootId) = decide (request.bootId = boot)) w)
    ?_ fun bootId => ?_
  · exact Keeping.load (stable_ready.and hlooking) fun w _ hw => ⟨hw, rfl⟩
  refine Triple.bind triple_activeNow fun active => ?_
  refine Triple.bind triple_outcome fun found => ?_
  refine Triple.bind triple_report fun _ => ?_
  exact Triple.pure fun _ hw => hw

/-! ## Commands -/

theorem stable_true : Stable (contract attentive) k fun _ => True := fun _ _ _ _ => trivial

theorem unasked_true : Unasked fun _ => True := fun _ _ _ _ _ => trivial

theorem triple_startQueued {current : RunSummary} :
    Keeping attentive .wrapper (fun _ => True) (startQueued id current) fun _ _ => True := by
  unfold startQueued
  split
  · refine Triple.bind (Keeping.activeCount stable_true unasked_true) fun count => ?_
    refine Triple.bind (Q := fun _ _ => True) (Keeping.refuse fun _ _ _ _ => trivial) fun _ => ?_
    exact Keeping.start stable_true unasked_true
  · exact Triple.pure fun _ _ => trivial

/-- The request is saved under the boot it is admitted in, where there was none. -/
theorem triple_admitRequest {request : RunRequest} :
    Keeping attentive .wrapper (OfLife id fun _ l => l.request = none) (admitRequest id request)
      fun _ _ => True := by
  have hnone : Stable (contract attentive) .wrapper (OfLife id fun _ l => l.request = none) :=
    stable_wrapper fun _ _ _ _ hstep h => by cases hstep <;> exact h
  have hhere (bootId : BootId) : Stable (contract attentive) .wrapper
      (OfLife id fun boot l => l.request = none ∧ bootId = boot) :=
    stable_wrapper fun _ _ _ _ hstep h => by cases hstep <;> exact h
  refine Triple.bind (Q := fun _ => OfLife id fun _ l => l.request = none)
    (Keeping.load hnone fun w _ hw => hw) fun retained => ?_
  refine Triple.bind (Q := fun _ => OfLife id fun _ l => l.request = none)
    (Keeping.refuse fun _ _ w hw => hw) fun _ => ?_
  refine Triple.bind (Q := fun _ => OfLife id fun _ l => l.request = none)
    (Keeping.observe hnone fun w hw _ => hw) fun free => ?_
  refine Triple.bind (Q := fun _ => OfLife id fun _ l => l.request = none)
    (Keeping.refuse fun _ _ w hw => hw) fun _ => ?_
  refine Triple.bind (Keeping.activeCount hnone Unasked.life) fun count => ?_
  refine Triple.bind (Q := fun _ => OfLife id fun _ l => l.request = none)
    (Keeping.refuse fun _ _ w hw => hw) fun _ => ?_
  refine Triple.bind (Q := fun _ => OfLife id fun _ l => l.request = none) ?_ fun _ => ?_
  · -- the directory of the run
    refine Keeping.save hnone fun w _ hw => ⟨.wrapper rfl (fun _ => .inl rfl) (.inl rfl), ?_⟩
    exact fun _ => hw
  refine Triple.bind (Q := fun bootId => OfLife id fun boot l => l.request = none ∧ bootId = boot)
    (Keeping.load hnone fun w _ hw => ⟨hw, rfl⟩) fun bootId => ?_
  refine Triple.bind (Keeping.clock (hhere bootId)) fun now => ?_
  refine Keeping.save (hhere bootId) fun w _ hw => ⟨Does.edit ?_, fun _ => trivial⟩
  rw [life_edit]
  exact .admission _ hw.1 hw.2

theorem triple_admitNew {request : RunRequest} {existing : Option SavedRequest} :
    Keeping attentive .wrapper
      (OfLife id fun _ l => existing = none → l.request = none) (admitNew id request existing)
      fun _ _ => True := by
  unfold admitNew
  split
  · next hnew =>
    exact Triple.pre triple_admitRequest fun w hw => hw (Option.isNone_iff_eq_none.mp hnew)
  · exact Triple.pure fun _ _ => trivial

theorem triple_submit {request : RunRequest} :
    Keeping attentive .wrapper (fun _ => True) (submit id request) fun _ _ => True := by
  have hstable (existing : Option SavedRequest) : Stable (contract attentive) .wrapper
      (OfLife id fun _ l => existing = none → l.request = none) :=
    stable_wrapper fun _ _ _ _ hstep h => by cases hstep <;> exact h
  refine Triple.bind (Q := fun existing => OfLife id fun _ l => existing = none → l.request = none)
    (Keeping.load stable_true fun w _ _ hnone => hnone) fun existing => ?_
  refine Triple.bind (Q := fun _ => OfLife id fun _ l => existing = none → l.request = none)
    (Keeping.refuse fun _ _ w hw => hw) fun _ => ?_
  refine Triple.bind triple_admitNew fun _ => ?_
  refine Triple.bind triple_summary fun current => ?_
  exact Triple.pre triple_startQueued fun _ _ => trivial

/-- A cancellation is recorded of an admitted run, before its unit is stopped. -/
theorem triple_cancel :
    Keeping attentive .wrapper (fun _ => True) (cancel id) fun _ _ => True := by
  have hadmitted : Stable (contract attentive) .wrapper
      (OfLife id fun _ l => l.request.isSome) := by
    refine stable_wrapper fun _ _ _ _ hstep h => ?_
    obtain ⟨request, hrequest⟩ := Option.isSome_iff_exists.mp h
    rw [hstep.request hrequest]
    rfl
  refine Triple.bind triple_summary fun current => ?_
  unfold cancelRun
  split
  · refine Triple.bind (Q := fun _ => OfLife id fun _ l => l.request.isSome)
      (Keeping.load hadmitted fun w _ hw => hw) fun cancelled => ?_
    refine Triple.bind (Q := fun _ _ => True) ?_ fun _ => Keeping.stop stable_true unasked_true
    unfold recordCancel
    split
    · refine Triple.bind (Keeping.clock hadmitted) fun now => ?_
      refine Keeping.save hadmitted fun w _ hw => ⟨Does.edit ?_, fun _ => trivial⟩
      rw [life_edit]
      exact .cancellation now hw
    · exact Triple.pure fun _ _ => trivial
  · exact Triple.pure fun _ _ => trivial

/-- **Every command** keeps the contract. -/
theorem triple_command (c : RunCommand) :
    Keeping attentive .wrapper (fun _ => True) (command c) fun _ _ => True := by
  refine Triple.bind (Q := fun _ _ => True) ?_ fun _ => ?_
  · exact Keeping.save stable_true fun w _ _ => ⟨Does.idle _ w, fun _ => trivial⟩
  refine Triple.bind (Q := fun _ _ => True) ?_ fun _ => ?_
  · cases c with
    | submit id request => exact triple_submit
    | cancel id => exact triple_cancel
    | inspect id => exact Triple.pure fun _ _ => trivial
    | logs id cursor => exact Triple.pure fun _ _ => trivial
  refine Triple.bind triple_summary fun run => ?_
  refine Triple.bind (Q := fun _ _ => True) ?_ fun logs => Keeping.refuse fun _ _ _ _ => trivial
  cases c with
  | logs id cursor =>
    refine Triple.bind (Q := fun _ _ => True) ?_ fun _ => Triple.pure fun _ _ => trivial
    exact Triple.pre (Keeping.load stable_true fun _ _ _ => trivial) fun _ _ => trivial
  | submit id request => exact Triple.pure fun _ _ => trivial
  | inspect id => exact Triple.pure fun _ _ => trivial
  | cancel id => exact Triple.pure fun _ _ => trivial

end AgentCloud.Commands
