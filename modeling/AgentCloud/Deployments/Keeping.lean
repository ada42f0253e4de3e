/-
  ONE CHANGE KEEPS THE RELEASE STORE VALID, case by case over the changes of both parties, and the
  contract that follows from it.
-/
import AgentCloud.Deployments.Views

namespace AgentCloud.Deployments

open Durable
open Compose (ComposeConfig)

variable {v v' : View} {id : ReleaseId}

/-! ## Changes of a command -/

/-- A new name, or a new request: no state, no head and no runtime changes. -/
theorem ViewValid.stated (hv : ViewValid v) (hstep : Change.step v v')
    (hheads : v'.head = v.head ∧ v'.heads = v.heads ∧ v'.ups = v.ups)
    (hstate : v'.state = v.state ∧ v'.succeeded = v.succeeded ∧ v'.runtime = v.runtime)
    (hrequest : ∀ id q, v.request id = some q → v'.request id = some q)
    (requested : ∀ id q, v'.request id = some q → id ∈ v'.names ∧ q.releaseId = id ∧
      ∀ o, q.change.origin? = some o → v.Succeeded o)
    (hnew : ∀ id q, v'.request id = some q → v.request id = some q ∨ v.state id = none)
    (own : ∀ id q, v'.request id = some q → q.app = v'.app)
    (names : v'.names.Nodup ∧ v'.names.length ≤ 128) : ViewValid v' := by
  obtain ⟨hhead, hheads, hups⟩ := hheads
  obtain ⟨hstate, hsucceeded, hruntime⟩ := hstate
  have hsucc : ∀ id, v'.Succeeded id ↔ v.Succeeded id := by
    intro id
    rw [View.Succeeded, hstate]
    rfl
  refine ⟨?_, ?_, ?_, ?_, ?_, ?_, ?_, own, names, ?_, ?_, ?_, ?_, ?_, ?_⟩
  · rw [hhead, hheads]
    exact hv.head
  · rw [hheads]
    exact hv.nodup
  · rw [hheads, hstate]
    exact hv.recorded
  · intro id hid hne
    rw [hheads] at hid
    rw [hhead] at hne
    exact (hv.ended id hid hne).step hstep
  · intro id r hr hnot
    rw [hstate] at hr
    rw [hheads] at hnot
    exact hv.orphan id r hr hnot
  · intro id r hr
    rw [hstate] at hr
    exact ⟨(hv.saved id r hr).1, hrequest id _ (hv.saved id r hr).2⟩
  · intro id q hq
    obtain ⟨hname, hid, horigin⟩ := requested id q hq
    exact ⟨hname, hid, fun o ho => (horigin o ho).step hstep⟩
  · rw [hups, hstate]
    exact hv.ups
  · intro id r hr
    rw [hstate] at hr
    exact (hv.previous id r hr).step hstep ⟨rfl, rfl⟩ hheads
  · intro id
    rw [hsucceeded, hsucc]
    exact hv.succeeded id
  · rw [hsucceeded]
    exact hv.once
  · intro pre id post hlist q hq o ho
    rw [hsucceeded] at hlist
    rcases hnew id q hq with hold | hnone
    · exact hv.ordered pre id post hlist q hold o ho
    · -- a request that is new is not one of a release that succeeded
      obtain ⟨r, hr, -⟩ := (hv.succeeded id).mp (by rw [hlist]; simp)
      rw [hnone] at hr
      cases hr
  · intro id r hr hphase
    rw [hstate] at hr
    exact (hv.rendered id r hr hphase).step hstep (by rw [hruntime])

theorem ViewValid.name (hv : ViewValid v) (new : id ∉ v.names) (room : v.names.length < 128) :
    ViewValid { v with names := v.names ++ [id] } := by
  refine hv.stated (.inl (.name id new room)) ⟨rfl, rfl, rfl⟩ ⟨rfl, rfl, rfl⟩ (fun _ _ h => h) ?_
    (fun _ _ h => .inl h) hv.own ⟨?_, ?_⟩
  · intro other q hq
    obtain ⟨hname, hrest⟩ := hv.requested other q hq
    exact ⟨List.mem_append_left _ hname, hrest⟩
  · exact nodup_concat hv.names.1 new
  · rw [List.length_append, List.length_singleton]
    omega

theorem ViewValid.requesting (hv : ViewValid v) {q : ComposeRequest}
    (new : v.request q.releaseId = none) (named : q.releaseId ∈ v.names) (own : q.app = v.app)
    (origin : ∀ o, q.change.origin? = some o → v.Succeeded o) :
    ViewValid { v with request := Function.update v.request q.releaseId (some q) } := by
  have hold : ∀ id q', v.request id = some q' →
      Function.update v.request q.releaseId (some q) id = some q' := by
    intro id q' h
    rw [Function.update_of_ne ?_, h]
    rintro rfl
    rw [new] at h
    cases h
  refine hv.stated (.inl (.request q new named own origin)) ⟨rfl, rfl, rfl⟩ ⟨rfl, rfl, rfl⟩ hold
    ?_ ?_ ?_ hv.names
  · intro id q' hq
    by_cases hid : id = q.releaseId
    · subst hid
      have hq' : some q = some q' := by simpa using hq
      obtain rfl := Option.some.inj hq'
      exact ⟨named, rfl, origin⟩
    · exact hv.requested id q' (by simpa [Function.update_of_ne hid] using hq)
  · intro id q' hq
    by_cases hid : id = q.releaseId
    · subst hid
      refine .inr ?_
      cases hstate : v.state q.releaseId with
      | none => rfl
      | some r =>
        have hsaved := (hv.saved _ r hstate).2
        rw [new] at hsaved
        cases hsaved
    · exact .inl (by simpa [Function.update_of_ne hid] using hq)
  · intro id q' hq
    by_cases hid : id = q.releaseId
    · subst hid
      have hq' : some q = some q' := by simpa using hq
      exact Option.some.inj hq' ▸ own
    · exact hv.own id q' (by simpa [Function.update_of_ne hid] using hq)

theorem ViewValid.record (hv : ViewValid v) {r : ComposeRelease} (new : v.state r.id = none)
    (queued : r.phase = .queued) (digest : v.request r.id = some r.requestDigest)
    (hid : r.requestDigest.releaseId = r.id)
    (expected : r.requestDigest.expectedReleaseId = v.head) (idle : v.Idle)
    (previous : r.previousSuccessfulReleaseId = v.latest v.heads) :
    ViewValid { v with state := Function.update v.state r.id (some r) } := by
  have hstep : Change.step v { v with state := Function.update v.state r.id (some r) } :=
    .inl (.record r new queued digest hid expected idle previous)
  have hsplit : ∀ {id r'}, Function.update v.state r.id (some r) id = some r' →
      (id = r.id ∧ r' = r) ∨ (id ≠ r.id ∧ v.state id = some r') := by
    intro id r' h
    by_cases hne : id = r.id
    · subst hne
      rw [Function.update_self] at h
      exact .inl ⟨rfl, (Option.some.inj h).symm⟩
    · exact .inr ⟨hne, by rwa [Function.update_of_ne hne] at h⟩
  have hnotin : r.id ∉ v.heads := by
    intro hmem
    have := hv.recorded r.id hmem
    rw [new] at this
    cases this
  have hsucc : ∀ id, View.Succeeded { v with state := Function.update v.state r.id (some r) } id →
      v.Succeeded id := by
    rintro id ⟨r', hr', hphase⟩
    rcases hsplit hr' with ⟨rfl, rfl⟩ | ⟨-, hold⟩
    · rw [queued] at hphase
      cases hphase
    · exact ⟨r', hold, hphase⟩
  -- every earlier head is over, as no deployment is active
  have hover : ∀ b ∈ v.heads, v.Over b := by
    intro b hb
    by_cases hhead : v.head = some b
    · exact idle b hhead
    · exact hv.ended b hb hhead
  refine ⟨hv.head, hv.nodup, fun id hmem => ?_, fun id hmem hne => ?_, fun id r' hr' hnot => ?_,
    fun id r' hr' => ?_, fun id q hq => ?_, hv.own, hv.names, ⟨hv.ups.1, fun id hmem => ?_⟩,
    fun id r' hr' => ?_, fun id => ⟨fun hmem => ?_, fun hs => ?_⟩, hv.once, hv.ordered,
    fun id r' hr' hphase => ?_⟩
  · have hne : id ≠ r.id := by
      rintro rfl
      exact hnotin hmem
    show (Function.update v.state r.id (some r) id).isSome
    rw [Function.update_of_ne hne]
    exact hv.recorded id hmem
  · exact (hv.ended id hmem hne).step hstep
  · rcases hsplit hr' with ⟨rfl, rfl⟩ | ⟨-, hold⟩
    · exact queued
    · exact hv.orphan id r' hold hnot
  · rcases hsplit hr' with ⟨rfl, rfl⟩ | ⟨-, hold⟩
    · exact ⟨rfl, digest⟩
    · exact hv.saved id r' hold
  · obtain ⟨hname, hqid, horigin⟩ := hv.requested id q hq
    exact ⟨hname, hqid, fun o ho => (horigin o ho).step hstep⟩
  · obtain ⟨r', hr', hstage⟩ := hv.ups.2 id hmem
    have hne : id ≠ r.id := by
      rintro rfl
      rw [new] at hr'
      cases hr'
    refine ⟨r', ?_, hstage⟩
    show Function.update v.state r.id (some r) id = some r'
    rw [Function.update_of_ne hne]
    exact hr'
  · rcases hsplit hr' with ⟨rfl, rfl⟩ | ⟨-, hold⟩
    · refine ⟨v.heads, List.prefix_refl _, expected.trans hv.head, fun hmem => ?_, ?_, ?_⟩
      · exact (hnotin hmem).elim
      · exact fun b hb => (hover b hb).step hstep
      · rw [previous, View.latest_step hstep hover]
    · exact (hv.previous id r' hold).step hstep ⟨rfl, rfl⟩ rfl
  · exact ((hv.succeeded id).mp hmem).step hstep
  · exact (hv.succeeded id).mpr (hsucc id hs)
  · rcases hsplit hr' with ⟨rfl, rfl⟩ | ⟨-, hold⟩
    · rw [queued] at hphase
      rcases hphase with hphase | hphase <;> cases hphase
    · exact (hv.rendered id r' hold hphase).step hstep rfl

theorem ViewValid.publish (hv : ViewValid v) {r : ComposeRelease} (state : v.state r.id = some r)
    (new : r.id ∉ v.heads) (idle : v.Idle)
    (expected : r.requestDigest.expectedReleaseId = v.head) :
    ViewValid { v with head := some r.id, heads := v.heads ++ [r.id] } := by
  have hover : ∀ b ∈ v.heads, v.Over b := by
    intro b hb
    by_cases hhead : v.head = some b
    · exact idle b hhead
    · exact hv.ended b hb hhead
  refine ⟨?_, ?_, fun id hmem => ?_, fun id hmem hne => ?_, fun id r' hr' hnot => ?_, hv.saved,
    hv.requested, hv.own, hv.names, hv.ups, fun id r' hr' => ?_, hv.succeeded, hv.once, hv.ordered,
    hv.rendered⟩
  · rw [List.getLast?_concat]
  · exact nodup_concat hv.nodup new
  · rcases List.mem_append.mp hmem with hmem | hmem
    · exact hv.recorded id hmem
    · obtain rfl := List.mem_singleton.mp hmem
      show (v.state r.id).isSome
      rw [state]
      rfl
  · rcases List.mem_append.mp hmem with hmem | hmem
    · exact hover id hmem
    · obtain rfl := List.mem_singleton.mp hmem
      exact (hne rfl).elim
  · exact hv.orphan id r' hr' fun hmem => hnot (List.mem_append_left _ hmem)
  · obtain ⟨before, hbegin, hexpected, hplace, hbefore, hprevious⟩ := hv.previous id r' hr'
    refine ⟨before, hbegin.trans (List.prefix_append _ _), hexpected, fun hmem => ?_, hbefore,
      hprevious⟩
    rcases List.mem_append.mp hmem with hmem | hmem
    · exact (hplace hmem).trans (List.prefix_append _ _)
    · -- the release was recorded after exactly these heads: the last of them is the expected one
      obtain rfl := List.mem_singleton.mp hmem
      obtain rfl := Option.some.inj (hr'.symm.trans state)
      have hall : before = v.heads := by
        refine eq_of_prefix_of_getLast? hv.nodup hbegin ?_
        rw [← hexpected, expected]
        exact hv.head
      subst hall
      exact List.prefix_refl _

/-! ## Changes of the worker -/

/-- A state of the head is rewritten by one further on. -/
theorem ViewValid.rewrite (hv : ViewValid v) {r r' : ComposeRelease} {succeeded : List ReleaseId}
    (hstep : Change.step v
      { v with state := Function.update v.state id (some r'), succeeded })
    (head : v.head = some id) (state : v.state id = some r)
    (next : r.phase.stage < r'.phase.stage)
    (same : r'.id = r.id ∧ r'.requestDigest = r.requestDigest ∧
      r'.previousSuccessfulReleaseId = r.previousSuccessfulReleaseId)
    (hsucceeded : ∀ other, other ∈ succeeded ↔
      (other = id ∧ r'.phase = .succeeded) ∨ (other ∈ v.succeeded))
    (hfirst : r'.phase = .succeeded → r.phase ≠ .succeeded)
    (once : succeeded.Nodup)
    (ordered : ∀ pre other post, succeeded = pre ++ other :: post →
      ∀ q, v.request other = some q → ∀ o, q.change.origin? = some o → o ∈ pre)
    (rendered : r'.phase = .applying ∨ r'.phase = .succeeded → v.Rendered id r') :
    ViewValid { v with state := Function.update v.state id (some r'), succeeded } := by
  have hmem : id ∈ v.heads := by
    have := hv.head
    rw [head] at this
    exact List.mem_of_getLast? this.symm
  have hsplit : ∀ {other r''}, Function.update v.state id (some r') other = some r'' →
      (other = id ∧ r'' = r') ∨ (other ≠ id ∧ v.state other = some r'') := by
    intro other r'' h
    by_cases hne : other = id
    · subst hne
      rw [Function.update_self] at h
      exact .inl ⟨rfl, (Option.some.inj h).symm⟩
    · exact .inr ⟨hne, by rwa [Function.update_of_ne hne] at h⟩
  refine ⟨hv.head, hv.nodup, fun other ho => ?_, fun other ho hne => ?_, fun other r'' hr hnot => ?_,
    fun other r'' hr => ?_, fun other q hq => ?_, hv.own, hv.names, ⟨hv.ups.1, fun other ho => ?_⟩,
    fun other r'' hr => ?_, fun other => ⟨fun ho => ?_, fun hs => ?_⟩, once, ordered,
    fun other r'' hr hphase => ?_⟩
  · by_cases hne : other = id
    · subst hne
      show (Function.update v.state other (some r') other).isSome
      rw [Function.update_self]
      rfl
    · show (Function.update v.state id (some r') other).isSome
      rw [Function.update_of_ne hne]
      exact hv.recorded other ho
  · exact (hv.ended other ho hne).step hstep
  · rcases hsplit hr with ⟨rfl, rfl⟩ | ⟨-, hold⟩
    · exact (hnot hmem).elim
    · exact hv.orphan other r'' hold hnot
  · rcases hsplit hr with ⟨rfl, rfl⟩ | ⟨-, hold⟩
    · obtain ⟨hid, hdigest⟩ := hv.saved other r state
      rw [same.1, same.2.1]
      exact ⟨hid, hdigest⟩
    · exact hv.saved other r'' hold
  · obtain ⟨hname, hqid, horigin⟩ := hv.requested other q hq
    exact ⟨hname, hqid, fun o ho => (horigin o ho).step hstep⟩
  · obtain ⟨r'', hr'', hstage⟩ := hv.ups.2 other ho
    by_cases hne : other = id
    · subst hne
      obtain rfl := Option.some.inj (hr''.symm.trans state)
      exact ⟨r', Function.update_self _ _ _, by omega⟩
    · refine ⟨r'', ?_, hstage⟩
      show Function.update v.state id (some r') other = some r''
      rw [Function.update_of_ne hne]
      exact hr''
  · rcases hsplit hr with ⟨rfl, rfl⟩ | ⟨-, hold⟩
    · exact (hv.previous other r state).step hstep same.2 rfl
    · exact (hv.previous other r'' hold).step hstep ⟨rfl, rfl⟩ rfl
  · rcases (hsucceeded other).mp ho with ⟨rfl, hphase⟩ | hold
    · exact ⟨r', Function.update_self _ _ _, hphase⟩
    · exact ((hv.succeeded other).mp hold).step hstep
  · obtain ⟨r'', hr'', hphase⟩ := hs
    rcases hsplit hr'' with ⟨rfl, rfl⟩ | ⟨-, hold⟩
    · exact (hsucceeded other).mpr (.inl ⟨rfl, hphase⟩)
    · exact (hsucceeded other).mpr (.inr ((hv.succeeded other).mpr ⟨r'', hold, hphase⟩))
  · rcases hsplit hr with ⟨rfl, rfl⟩ | ⟨-, hold⟩
    · exact (rendered hphase).step hstep rfl
    · exact (hv.rendered other r'' hold hphase).step hstep rfl

theorem ViewValid.advance (hv : ViewValid v) {r r' : ComposeRelease} (head : v.head = some id)
    (state : v.state id = some r) (next : r.phase.stage < r'.phase.stage)
    (same : r'.id = r.id ∧ r'.requestDigest = r.requestDigest ∧
      r'.previousSuccessfulReleaseId = r.previousSuccessfulReleaseId)
    (unfinished : r'.phase ≠ .succeeded) (rendered : r'.phase = .applying → v.Rendered id r') :
    ViewValid { v with state := Function.update v.state id (some r') } := by
  refine hv.rewrite (.inr (.advance id r r' head state next same unfinished rendered)) head state
    next same (fun other => ?_) (fun h => (unfinished h).elim) hv.once hv.ordered
    fun hphase => rendered (hphase.resolve_right unfinished)
  constructor
  · exact .inr
  · rintro (⟨-, h⟩ | h)
    · exact (unfinished h).elim
    · exact h

theorem ViewValid.success (hv : ViewValid v) {r r' : ComposeRelease} (head : v.head = some id)
    (state : v.state id = some r) (applying : r.phase = .applying)
    (same : r'.id = r.id ∧ r'.requestDigest = r.requestDigest ∧
      r'.previousSuccessfulReleaseId = r.previousSuccessfulReleaseId ∧
      r'.configDigest = r.configDigest)
    (phase : r'.phase = .succeeded) :
    ViewValid { v with
      state := Function.update v.state id (some r'), succeeded := v.succeeded ++ [id] } := by
  have hnew : id ∉ v.succeeded := by
    intro hmem
    obtain ⟨other, hother, hphase⟩ := (hv.succeeded id).mp hmem
    obtain rfl := Option.some.inj (hother.symm.trans state)
    rw [applying] at hphase
    cases hphase
  refine hv.rewrite (.inr (.success id r r' head state applying same phase)) head state
    (by rw [applying, phase]; decide) ⟨same.1, same.2.1, same.2.2.1⟩ (fun other => ?_)
    (fun _ h => by rw [applying] at h; cases h) ?_ (fun pre other post hlist q hq o ho => ?_)
    fun _ => ?_
  · rw [List.mem_append, List.mem_singleton]
    constructor
    · rintro (h | h)
      · exact .inr h
      · exact .inl ⟨h, phase⟩
    · rintro (⟨h, -⟩ | h)
      · exact .inr h
      · exact .inl h
  · exact nodup_concat hv.once hnew
  · cases post using List.reverseRecOn with
    | nil =>
      -- the release that just succeeded: its origin had succeeded when it was requested
      obtain ⟨rfl, hlast⟩ := List.append_inj' hlist rfl
      obtain rfl : id = other := by simpa using hlast
      exact (hv.succeeded o).mpr ((hv.requested id q hq).2.2 o ho)
    | append_singleton post last =>
      have hlist' : v.succeeded ++ [id] = (pre ++ other :: post) ++ [last] := by
        rw [hlist]
        simp
      obtain ⟨hinit, -⟩ := List.append_inj' hlist' rfl
      exact hv.ordered pre other post hinit q hq o ho
  · obtain ⟨hsome, hsame, horigin⟩ := hv.rendered id r state (.inl applying)
    refine ⟨by rw [same.2.2.2]; exact hsome, by rw [same.2.2.2]; exact hsame, fun o ho => ?_⟩
    rw [same.2.1] at ho
    rw [same.2.2.2]
    exact horigin o ho

theorem ViewValid.render (hv : ViewValid v) {r : ComposeRelease} {config : ComposeConfig}
    (head : v.head = some id) (state : v.state id = some r) (phase : r.phase = .preparing) :
    ViewValid { v with runtime := Function.update v.runtime id (some config) } := by
  have hstep : Change.step v { v with runtime := Function.update v.runtime id (some config) } :=
    .inr (.render id r config head state phase)
  refine ⟨hv.head, hv.nodup, hv.recorded, hv.ended, hv.orphan, hv.saved, hv.requested, hv.own,
    hv.names,
    hv.ups, hv.previous, hv.succeeded, hv.once, hv.ordered, fun other r' hr' hphase => ?_⟩
  refine (hv.rendered other r' hr' hphase).step hstep (Function.update_of_ne ?_ _ _)
  rintro rfl
  obtain rfl := Option.some.inj (hr'.symm.trans state)
  rw [phase] at hphase
  rcases hphase with hphase | hphase <;> cases hphase

theorem ViewValid.up (hv : ViewValid v) {r : ComposeRelease} (state : v.state id = some r)
    (phase : r.phase = .applying) (new : id ∉ v.ups) :
    ViewValid { v with ups := v.ups ++ [id] } := by
  refine ⟨hv.head, hv.nodup, hv.recorded, hv.ended, hv.orphan, hv.saved, hv.requested, hv.own,
    hv.names,
    ⟨?_, fun other ho => ?_⟩, hv.previous, hv.succeeded, hv.once, hv.ordered, hv.rendered⟩
  · exact nodup_concat hv.ups.1 new
  · rcases List.mem_append.mp ho with ho | ho
    · exact hv.ups.2 other ho
    · obtain rfl := List.mem_singleton.mp ho
      exact ⟨r, state, by rw [phase]; decide⟩

/-- **One change keeps the store valid.** -/
theorem ViewValid.step (hv : ViewValid v) (h : Change.step v v') : ViewValid v' := by
  rcases h with h | h
  · cases h with
    | name id new room => exact hv.name new room
    | request q new named own origin => exact hv.requesting new named own origin
    | record r new queued digest hid expected idle previous =>
      exact hv.record new queued digest hid expected idle previous
    | publish r state new idle expected => exact hv.publish state new idle expected
  · cases h with
    | advance id r r' head state next same unfinished rendered =>
      exact hv.advance head state next same unfinished rendered
    | success id r r' head state applying same phase =>
      exact hv.success head state applying same phase
    | render id r config head state phase => exact hv.render head state phase
    | up id r head state phase new => exact hv.up state phase new

end AgentCloud.Deployments
