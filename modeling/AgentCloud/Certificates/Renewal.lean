/-
  RENEWAL: what holds of the gateway's certificate in every run.

  The process and the clock are the only writers, and the clock writes the clock.  What the process
  has read therefore stays what it was, and a deadline that has passed stays passed: every fact that
  the proofs carry from one step to the next is stable (`Calm`).

  `Inv` is the invariant.  Attempts are grouped by the number of receipts that were written before
  them: as long as no new receipt is written the outcome of an attempt is lost, and the attempts of
  one group keep their distance.
-/
import AgentCloud.Certificates.Gateway

namespace AgentCloud.Certificates

open Checked Durable

/-! ## The log -/

/-- A request to the signer. -/
structure Sent where
  ticket : Ticket
  identity : Identity
  signing : Signing
  deriving DecidableEq, Repr

def sent : Exchange interface → Option Sent
  | ⟨.renew ticket identity, signing⟩ => some ⟨ticket, identity, signing⟩
  | ⟨.validate _, _⟩ => none

/-- The requests to the signer, oldest first. -/
def requests (log : List (Exchange interface)) : List Sent := log.filterMap sent

@[simp] theorem requests_validate (log : List (Exchange interface)) (identity : Identity)
    (reply : Option Instant) : requests (log ++ [⟨.validate identity, reply⟩]) = requests log := by
  simp [requests, sent]

@[simp] theorem requests_renew (log : List (Exchange interface)) (ticket : Ticket)
    (identity : Identity) (signing : Signing) :
    requests (log ++ [⟨.renew ticket identity, signing⟩]) =
      requests log ++ [⟨ticket, identity, signing⟩] := by
  simp [requests, sent]

/-! ## The invariant -/

/-- What the gateway was set up with. -/
structure Setup where
  name : String
  privateKey : String
  certifies : String → String → String → Prop
  first : Receipt

variable {setup : Setup} {w : World interface}

/-- The receipt of a certificate that the signer returned for this key. -/
def Issued (setup : Setup) (log : List (Exchange interface)) (receipt : Receipt) : Prop :=
  ∃ x ∈ requests log, ∃ renewed, x.signing.outcome = some renewed ∧
    x.identity.privateKey = setup.privateKey ∧
    receipt = ⟨setup.name, renewed.certificate, renewed.issuedAt, renewed.expiresAt⟩

/-- A complete receipt of the first certificate or of one that was issued, for the name and the key
    of the gateway. -/
structure Genuine (setup : Setup) (log : List (Exchange interface)) (receipt : Receipt) : Prop where
  name : receipt.name = setup.name
  certified : setup.certifies receipt.certificate setup.name setup.privateKey
  origin : receipt = setup.first ∨ Issued setup log receipt

/-- The PEM is the certificate, up to white space around it. -/
def Published (published : Option String) (certificate : String) : Prop :=
  published.map trimmed = some (trimmed certificate)

/-- An answer with an outcome leaves the certificate published.  A refresh throws only after an
    operation has failed, or within thirty seconds of the end of the certificate. -/
structure Fair (answer : Answer) : Prop where
  published : answer.outcome ≠ none → ∃ receipt, answer.receipt = some receipt ∧
    Published answer.published receipt.certificate
  thrown : answer.outcome = none → answer.failed = true ∨
    ∃ receipt, answer.receipt = some receipt ∧ receipt.expiresAt ≤ answer.answeredAt + 30000

/-- No receipt was written between the two attempts: they are for one certificate, and a minute
    apart. -/
def Apart (t u : Ticket) : Prop :=
  t.era = u.era → t.attempt.certificateDigest = u.attempt.certificateDigest ∧
    t.attempt.startedAt + 60000 ≤ u.attempt.startedAt

structure Inv (setup : Setup) (w : World interface) : Prop where
  key : w.store.privateKey = setup.privateKey
  receipt : ∃ receipt, w.store.receipt = some receipt ∧ Genuine setup w.log receipt
  ids : (w.store.tickets.map fun ticket => ticket.attempt.id).Nodup
  started : ∀ ticket ∈ w.store.tickets, ticket.attempt.startedAt ≤ w.store.clock
  eras : ∀ ticket ∈ w.store.tickets, ticket.era ≤ w.store.receipts.length
  /-- The attempts of the present group, of which the file holds the last one. -/
  latest : ∀ ticket ∈ w.store.tickets, ticket.era = w.store.receipts.length →
    ∃ last receipt, w.store.attempt = some last ∧ w.store.receipt = some receipt ∧
      ticket.attempt.startedAt ≤ last.startedAt ∧
      last.certificateDigest = receipt.certificate ∧
      ticket.attempt.certificateDigest = receipt.certificate
  apart : w.store.tickets.Pairwise Apart
  recorded : ((requests w.log).map Sent.ticket).Sublist w.store.tickets
  shown : ∀ x ∈ requests w.log, x.ticket.attempt.startedAt ≤ x.signing.requestedAt ∧
    Published x.signing.published x.identity.certificate
  answers : ∀ answer ∈ w.store.answers, Fair answer

theorem Issued.mono {log log' : List (Exchange interface)} {receipt : Receipt}
    (h : Issued setup log receipt) (hsub : ∀ x ∈ requests log, x ∈ requests log') :
    Issued setup log' receipt := by
  obtain ⟨x, hx, hrest⟩ := h
  exact ⟨x, hsub x hx, hrest⟩

theorem Genuine.mono {log log' : List (Exchange interface)} {receipt : Receipt}
    (h : Genuine setup log receipt) (hsub : ∀ x ∈ requests log, x ∈ requests log') :
    Genuine setup log' receipt :=
  ⟨h.name, h.certified, h.origin.imp_right fun hissued => hissued.mono hsub⟩

/-! ## What one change keeps -/

/-- A store in which nothing of the invariant changed but the time, which may be later. -/
structure Calm (s s' : Store) : Prop where
  receipt : s'.receipt = s.receipt
  attempt : s'.attempt = s.attempt
  privateKey : s'.privateKey = s.privateKey
  clock : s.clock ≤ s'.clock
  tickets : s'.tickets = s.tickets
  receipts : s'.receipts = s.receipts
  answers : s'.answers = s.answers

theorem Calm.same {s s' : Store} (hreceipt : s'.receipt = s.receipt)
    (hattempt : s'.attempt = s.attempt) (hkey : s'.privateKey = s.privateKey)
    (hclock : s'.clock = s.clock) (htickets : s'.tickets = s.tickets)
    (hreceipts : s'.receipts = s.receipts) (hanswers : s'.answers = s.answers) : Calm s s' :=
  ⟨hreceipt, hattempt, hkey, Nat.le_of_eq hclock.symm, htickets, hreceipts, hanswers⟩

theorem Inv.calm (h : Inv setup w) {s : Store} (hs : Calm w.store s) : Inv setup (w.put s) where
  key := hs.privateKey.trans h.key
  receipt := by
    obtain ⟨receipt, hreceipt, hgenuine⟩ := h.receipt
    exact ⟨receipt, hs.receipt.trans hreceipt, hgenuine⟩
  ids := by
    rw [World.put_store, hs.tickets]
    exact h.ids
  started := by
    intro ticket hm
    rw [World.put_store, hs.tickets] at hm
    exact Nat.le_trans (h.started ticket hm) hs.clock
  eras := by
    intro ticket hm
    rw [World.put_store, hs.tickets] at hm
    rw [World.put_store, hs.receipts]
    exact h.eras ticket hm
  latest := by
    intro ticket hm hera
    rw [World.put_store, hs.tickets] at hm
    rw [World.put_store, hs.receipts] at hera
    rw [World.put_store, hs.attempt, hs.receipt]
    exact h.latest ticket hm hera
  apart := by
    rw [World.put_store, hs.tickets]
    exact h.apart
  recorded := by
    rw [World.put_store, World.put_log, hs.tickets]
    exact h.recorded
  shown := h.shown
  answers := by
    rw [World.put_store, hs.answers]
    exact h.answers

/-- The next attempt: its file, and its place among the attempts. -/
theorem Inv.attempt (h : Inv setup w) {ticket : Ticket} {receipt : Receipt} {failed : Bool}
    (hreceipt : w.store.receipt = some receipt)
    (hdigest : ticket.attempt.certificateDigest = receipt.certificate)
    (hera : ticket.era = w.store.receipts.length)
    (hfresh : ticket.attempt.id ∉ w.store.tickets.map fun ticket => ticket.attempt.id)
    (hstarted : ticket.attempt.startedAt ≤ w.store.clock)
    (hspaced : ∀ last, w.store.attempt = some last → last.certificateDigest = receipt.certificate →
      last.startedAt + 60000 ≤ ticket.attempt.startedAt) :
    Inv setup (w.put { w.store with
      attempt := some ticket.attempt, tickets := w.store.tickets ++ [ticket], failed := failed }) where
  key := h.key
  receipt := h.receipt
  ids := by
    show ((w.store.tickets ++ [ticket]).map fun ticket => ticket.attempt.id).Nodup
    rw [List.map_append, List.nodup_append]
    refine ⟨h.ids, by simp, ?_⟩
    rintro a ha _ (_ | ⟨_, hnone⟩)
    · rintro rfl
      exact hfresh ha
    · cases hnone
  started := by
    intro other hm
    rcases List.mem_append.mp hm with hm | hm
    · exact h.started other hm
    · obtain rfl := List.mem_singleton.mp hm
      exact hstarted
  eras := by
    intro other hm
    rcases List.mem_append.mp hm with hm | hm
    · exact h.eras other hm
    · obtain rfl := List.mem_singleton.mp hm
      exact Nat.le_of_eq hera
  latest := by
    intro other hm hother
    refine ⟨ticket.attempt, receipt, rfl, hreceipt, ?_, hdigest, ?_⟩
    · rcases List.mem_append.mp hm with hm | hm
      · obtain ⟨last, receipt', hlast, hreceipt', hle, hsame, -⟩ := h.latest other hm hother
        obtain rfl := Option.some.inj (hreceipt.symm.trans hreceipt')
        have := hspaced last hlast hsame
        exact Nat.le_trans hle (Nat.le_trans (Nat.le_add_right _ _) this)
      · obtain rfl := List.mem_singleton.mp hm
        exact Nat.le_refl _
    · rcases List.mem_append.mp hm with hm | hm
      · obtain ⟨_, receipt', -, hreceipt', -, -, hcertificate⟩ := h.latest other hm hother
        obtain rfl := Option.some.inj (hreceipt.symm.trans hreceipt')
        exact hcertificate
      · obtain rfl := List.mem_singleton.mp hm
        exact hdigest
  apart := by
    refine List.pairwise_append.mpr ⟨h.apart, List.pairwise_singleton _ _, ?_⟩
    intro other hm last hlast hsame
    obtain rfl := List.mem_singleton.mp hlast
    obtain ⟨previous, receipt', hprevious, hreceipt', hle, hdue, hcertificate⟩ :=
      h.latest other hm (hsame.trans hera)
    obtain rfl := Option.some.inj (hreceipt.symm.trans hreceipt')
    have := hspaced previous hprevious hdue
    exact ⟨hcertificate.trans hdigest.symm, Nat.le_trans (Nat.add_le_add_right hle _) this⟩
  recorded := h.recorded.trans (List.sublist_append_left _ _)
  shown := h.shown
  answers := h.answers

/-- The receipt of a newly issued certificate begins a new group. -/
theorem Inv.written (h : Inv setup w) {receipt : Receipt} {failed : Bool}
    (hgenuine : Genuine setup w.log receipt) :
    Inv setup (w.put { w.store with
      receipt := some receipt, receipts := w.store.receipts ++ [receipt], failed := failed }) where
  key := h.key
  receipt := ⟨receipt, rfl, hgenuine⟩
  ids := h.ids
  started := h.started
  eras := by
    intro ticket hm
    have := h.eras ticket hm
    simp only [World.put_store, List.length_append, List.length_cons, List.length_nil]
    omega
  latest := by
    intro ticket hm hera
    have := h.eras ticket hm
    simp only [World.put_store, List.length_append, List.length_cons, List.length_nil] at hera
    omega
  apart := h.apart
  recorded := h.recorded
  shown := h.shown
  answers := h.answers

theorem Inv.answer (h : Inv setup w) {answer : Answer} (hfair : Fair answer) :
    Inv setup (w.put { w.store with answers := w.store.answers ++ [answer] }) where
  key := h.key
  receipt := h.receipt
  ids := h.ids
  started := h.started
  eras := h.eras
  latest := h.latest
  apart := h.apart
  recorded := h.recorded
  shown := h.shown
  answers := by
    intro other hm
    rcases List.mem_append.mp hm with hm | hm
    · exact h.answers other hm
    · obtain rfl := List.mem_singleton.mp hm
      exact hfair

theorem Inv.validated (h : Inv setup w) (identity : Identity) (reply : Option Instant) :
    Inv setup (w.exchange (.validate identity) reply) where
  key := h.key
  receipt := by
    obtain ⟨receipt, hreceipt, hgenuine⟩ := h.receipt
    exact ⟨receipt, hreceipt, hgenuine.mono fun x hx => by simpa using hx⟩
  ids := h.ids
  started := h.started
  eras := h.eras
  latest := h.latest
  apart := h.apart
  recorded := by simpa using h.recorded
  shown := by simpa using h.shown
  answers := h.answers

/-- A request under the last ticket, which no request was made under before. -/
theorem Inv.requested (h : Inv setup w) {ticket : Ticket} {tickets : List Ticket}
    {identity : Identity} {signing : Signing} (htickets : w.store.tickets = tickets ++ [ticket])
    (hunused : ((requests w.log).map Sent.ticket).Sublist tickets)
    (hat : signing.requestedAt = w.store.clock)
    (hshown : Published signing.published identity.certificate) :
    Inv setup (w.exchange (.renew ticket identity) signing) where
  key := h.key
  receipt := by
    obtain ⟨receipt, hreceipt, hgenuine⟩ := h.receipt
    refine ⟨receipt, hreceipt, hgenuine.mono fun x hx => ?_⟩
    rw [World.exchange_log, requests_renew]
    exact List.mem_append_left _ hx
  ids := h.ids
  started := h.started
  eras := h.eras
  latest := h.latest
  apart := h.apart
  recorded := by
    rw [World.exchange_log, World.exchange_store, requests_renew, List.map_append, htickets]
    exact hunused.append (List.Sublist.refl _)
  shown := by
    intro x hx
    rw [World.exchange_log, requests_renew] at hx
    rcases List.mem_append.mp hx with hx | hx
    · exact h.shown x hx
    · obtain rfl := List.mem_singleton.mp hx
      refine ⟨?_, hshown⟩
      have hmem : ticket ∈ w.store.tickets := by simp [htickets]
      have hstarted := h.started ticket hmem
      show ticket.attempt.startedAt ≤ signing.requestedAt
      rw [hat]
      exact hstarted
  answers := h.answers

/-! ## The contract -/

/-- The process keeps the invariant; the clock moves the clock. -/
def does (setup : Setup) : Slot → World interface → World interface → Prop
  | .process, _, w' => Inv setup w'
  | .clock, w, w' => ∃ time, w.store.clock ≤ time ∧ w' = w.put { w.store with clock := time }

theorem does_valid {k : Slot} {w w' : World interface} (h : Inv setup w) (hd : does setup k w w') :
    Inv setup w' := by
  cases k with
  | process => exact hd
  | clock =>
    obtain ⟨time, hle, rfl⟩ := hd
    exact h.calm ⟨rfl, rfl, rfl, hle, rfl, rfl, rfl⟩

def contract (setup : Setup) : Contract interface Slot :=
  Contract.interleaved (Inv setup) (does setup) (gateway setup.name setup.certifies).allows does_valid

/-- A fact that neither time nor validation disturbs. -/
structure Steady (P : World interface → Prop) : Prop where
  put : ∀ w s, Calm w.store s → s.published = w.store.published → P w → P (w.put s)
  validated : ∀ w identity reply, P w → P (w.exchange (.validate identity) reply)

theorem Steady.and {P Q : World interface → Prop} (hP : Steady P) (hQ : Steady Q) :
    Steady fun w => P w ∧ Q w where
  put w s hs hpublished h := ⟨hP.put w s hs hpublished h.1, hQ.put w s hs hpublished h.2⟩
  validated w identity reply h := ⟨hP.validated w identity reply h.1, hQ.validated w identity reply h.2⟩

theorem Steady.fact {φ : Prop} : Steady fun _ => φ :=
  ⟨fun _ _ _ _ h => h, fun _ _ _ h => h⟩

/-- Time alone disturbs it less. -/
theorem stable_of_tick {P : World interface → Prop}
    (h : ∀ w time, w.store.clock ≤ time → P w → P (w.put { w.store with clock := time })) :
    Stable (contract setup) .process P := by
  refine stable_interleaved fun j w w' hne _ hd hP => ?_
  cases j with
  | process => exact absurd rfl hne
  | clock =>
    obtain ⟨time, hle, rfl⟩ := hd
    exact h w time hle hP

theorem Steady.stable {P : World interface → Prop} (h : Steady P) :
    Stable (contract setup) .process P :=
  stable_of_tick fun w _ hle hP => h.put w _ ⟨rfl, rfl, rfl, hle, rfl, rfl, rfl⟩ rfl hP

/-- A step has failed, or the certificate is about to expire. -/
def Obstacle (w : World interface) : Prop :=
  w.store.failed = true ∨
    ∃ receipt, w.store.receipt = some receipt ∧ receipt.expiresAt ≤ w.store.clock + 30000

theorem stable_obstacle : Stable (contract setup) .process Obstacle := by
  refine stable_of_tick fun w time hle h => ?_
  rcases h with hfailed | ⟨receipt, hreceipt, hexpires⟩
  · exact .inl hfailed
  · exact .inr ⟨receipt, hreceipt, Nat.le_trans hexpires (Nat.add_le_add_right hle _)⟩

/-- The certificate of the receipt file is published. -/
def Shown (receipt : Receipt) (w : World interface) : Prop :=
  w.store.receipt = some receipt ∧ Published w.store.published receipt.certificate

theorem steady_shown {receipt : Receipt} : Steady (Shown receipt) where
  put w s hs hpublished h := by
    refine ⟨hs.receipt.trans h.1, ?_⟩
    show Published s.published receipt.certificate
    rw [hpublished]
    exact h.2
  validated _ _ _ h := h

theorem steady_held {receipt : Receipt} :
    Steady fun w : World interface => w.store.receipt = some receipt where
  put _ _ hs _ h := hs.receipt.trans h
  validated _ _ _ h := h

/-! ## The steps -/

section Steps

variable {P : World interface → Prop}

abbrev Does (setup : Setup) {α : Type} (p : Program α) (Q : α → World interface → Prop)
    (w : World interface) : Prop :=
  Safe (contract setup) .process (Told Q fun _ => Obstacle) p w

theorem safe_operate {α : Type} {f : Env → Store → Option (α × Store)}
    {Q : α → World interface → Prop} (hP : Steady P) (hw : P w)
    (h : ∀ v env a s, P v → Inv setup v → f env v.store = some (a, s) →
      Inv setup (v.put s) ∧ Q a (v.put s)) : Does setup (operate f) Q w := by
  refine Safe.seq (Q := fun result v => match result with
      | some a => Q a v
      | none => Obstacle v) (Safe.transact fun v hrely hvalid env => ?_) fun result v hv => ?_
  · have hv := hP.stable w v hrely hw
    have hfailed : ∀ s, Inv setup (v.put s) → Inv setup (v.put { s with failed := true }) :=
      fun s hs => hs.calm (Calm.same rfl rfl rfl rfl rfl rfl rfl)
    cases hresult : (if env.fails = true then none else f env v.store) with
    | none =>
      refine ⟨fun e he => (by cases he), fun a s hok => ?_⟩
      obtain ⟨rfl, rfl⟩ := Prod.mk.inj (Except.ok.inj hok)
      exact ⟨hfailed v.store hvalid, .inl rfl⟩
    | some pair =>
      obtain ⟨b, s'⟩ := pair
      have hf : f env v.store = some (b, s') := by
        split at hresult
        · cases hresult
        · exact hresult
      obtain ⟨hinv, hq⟩ := h v env b s' hv hvalid hf
      refine ⟨fun e he => ?_, fun a s hok => ?_⟩
      · dsimp only at he
        split at he <;> cases he
      · dsimp only at hok
        split at hok
        · obtain ⟨rfl, rfl⟩ := Prod.mk.inj (Except.ok.inj hok)
          exact ⟨hinv, hq⟩
        · obtain ⟨rfl, rfl⟩ := Prod.mk.inj (Except.ok.inj hok)
          exact ⟨hfailed s' hinv, .inl rfl⟩
  · cases result with
    | some a => exact Safe.ends hv
    | none => exact hv

/-- A read of the files. -/
theorem safe_look {α : Type} {g : Store → α} (hP : Steady P) (hw : P w) :
    Does setup (operate fun _ s => some (g s, s)) (fun a v => a = g v.store ∧ P v) w := by
  refine safe_operate hP hw fun v env a s hv hvalid hf => ?_
  obtain ⟨rfl, rfl⟩ := Prod.mk.inj (Option.some.inj hf)
  exact ⟨hvalid, rfl, hv⟩

theorem safe_now (hP : Steady P) (hw : P w) :
    Does setup now (fun moment v => moment = v.store.clock ∧ P v) w :=
  fun v hrely hvalid _ => ⟨hvalid, rfl, hP.stable w v hrely hw⟩

/-- A step in memory. -/
theorem safe_memory {f : Store → Store} (hP : Steady P) (hw : P w)
    (hf : ∀ s, Calm s (f s) ∧ (f s).published = s.published) :
    Does setup (Prog.transact (S := interface) fun _ s => .ok ((), f s)) (fun _ => P) w := by
  intro v hrely hvalid _
  obtain ⟨hcalm, hpublished⟩ := hf v.store
  exact ⟨hvalid.calm hcalm, hP.put v _ hcalm hpublished (hP.stable w v hrely hw)⟩

theorem safe_refused {α : Type} {Q : α → World interface → Prop} {message : String} :
    Does setup (refused message) Q w := by
  have hmark : Safe (contract setup) .process (Told (fun _ => Obstacle) fun _ => Obstacle)
      (Prog.transact (S := interface) fun _ s => .ok ((), { s with failed := true })) w := by
    intro v _ hvalid _
    exact ⟨hvalid.calm (Calm.same rfl rfl rfl rfl rfl rfl rfl), .inl rfl⟩
  exact Safe.seq hmark fun _ v hv => hv

/-! ### Restoring -/

theorem safe_checkValidity {receipt : Receipt} {privateKey tlsRoot : String} {reply : Option Instant}
    (hP : Steady P) (hw : P w) :
    Does setup (checkValidity receipt privateKey tlsRoot reply) (fun _ => P) w := by
  cases reply with
  | none => exact safe_refused
  | some expiresAt =>
    rw [checkValidity]
    split
    · exact safe_refused
    · exact safe_memory hP hw fun s => ⟨Calm.same rfl rfl rfl rfl rfl rfl rfl, rfl⟩

theorem safe_validate {receipt : Receipt} {privateKey tlsRoot : String} {identity : Identity}
    (hP : Steady P) (hw : P w) :
    Does setup (validate receipt privateKey tlsRoot identity) (fun _ => P) w := by
  have hread : Does setup (Prog.read (S := interface) Store.validated) (fun _ => P) w :=
    fun v hrely hvalid _ => ⟨hvalid, hP.stable w v hrely hw⟩
  refine Safe.seq hread fun validated v hv => ?_
  split
  · exact Safe.ends hv
  · have hask : Does setup (Prog.ask (S := interface) (.validate identity)) (fun _ => P) v :=
      fun u hrely hvalid reply _ =>
        ⟨hvalid.validated identity reply,
          hP.validated u identity reply (hP.stable v u hrely hv)⟩
    exact Safe.seq hask fun reply u hu => safe_checkValidity hP hu

theorem safe_checkExpiry {receipt : Receipt} (hP : Steady P)
    (hw : w.store.receipt = some receipt ∧ P w) :
    Does setup (checkExpiry receipt) (fun _ v => v.store.receipt = some receipt ∧ P v) w := by
  refine Safe.seq (safe_now (steady_held.and hP) hw) fun moment v hv => ?_
  obtain ⟨hmoment, hreceipt, hPv⟩ := hv
  split
  · rename_i hexpires
    rw [hmoment] at hexpires
    exact .inr ⟨receipt, hreceipt, hexpires⟩
  · exact Safe.ends ⟨hreceipt, hPv⟩

theorem safe_publish {receipt : Receipt} (hw : w.store.receipt = some receipt) :
    Does setup (publish receipt) (fun _ => Shown receipt) w := by
  have hlook : Does setup (operate fun _ s => some (s.published, s))
      (fun published v => v.store.receipt = some receipt ∧
        (Published published receipt.certificate → Shown receipt v)) w := by
    refine safe_operate steady_held hw fun v env a s hv hvalid hf => ?_
    obtain ⟨rfl, rfl⟩ := Prod.mk.inj (Option.some.inj hf)
    exact ⟨hvalid, hv, fun hpublished => ⟨hv, hpublished⟩⟩
  refine Safe.seq hlook fun published v hv => ?_
  split
  · rename_i hpublished
    exact Safe.ends (hv.2 hpublished)
  · refine safe_operate steady_held hv.1 fun u env a s hu hvalid hf => ?_
    obtain ⟨rfl, rfl⟩ := Prod.mk.inj (Option.some.inj hf)
    exact ⟨hvalid.calm (Calm.same rfl rfl rfl rfl rfl rfl rfl), hu, rfl⟩

/-- Nobody else writes the receipt, so it is this gateway's. -/
theorem safe_ownReceipt :
    Does setup (ownReceipt setup.name)
      (fun receipt v => v.store.receipt = some receipt ∧ receipt.name = setup.name) w := by
  have hread : Does setup (operate fun _ s => s.receipt.map fun receipt => (receipt, s))
      (fun receipt v => v.store.receipt = some receipt ∧ receipt.name = setup.name) w := by
    refine safe_operate (Steady.fact (φ := True)) trivial fun v env receipt s _ hvalid hf => ?_
    obtain ⟨receipt', hreceipt, hgenuine⟩ := hvalid.receipt
    rw [hreceipt] at hf
    obtain ⟨rfl, rfl⟩ := Prod.mk.inj (Option.some.inj hf)
    exact ⟨hvalid, hreceipt, hgenuine.name⟩
  refine Safe.seq hread fun receipt v hv => ?_
  rw [if_neg (not_not.mpr hv.2)]
  exact Safe.ends hv

/-- What the receipt says of the gateway. -/
def identityOf (setup : Setup) (receipt : Receipt) : Identity :=
  ⟨setup.name, setup.privateKey, receipt.certificate, receipt.issuedAt⟩

theorem safe_restore :
    Does setup (restore setup.name)
      (fun found v => found.2 = identityOf setup found.1 ∧ found.1.name = setup.name ∧
        Shown found.1 v) w := by
  refine Safe.seq safe_ownReceipt fun receipt v hv => ?_
  obtain ⟨hreceipt, hname⟩ := hv
  have hkey : Does setup (operate fun _ s => some (s.privateKey, s))
      (fun privateKey u => privateKey = setup.privateKey ∧ u.store.receipt = some receipt) v := by
    refine safe_operate steady_held hreceipt fun u env a s hu hvalid hf => ?_
    obtain ⟨rfl, rfl⟩ := Prod.mk.inj (Option.some.inj hf)
    exact ⟨hvalid, hvalid.key, hu⟩
  refine Safe.seq hkey fun privateKey v hv => ?_
  obtain ⟨rfl, hreceipt⟩ := hv
  refine Safe.seq (safe_look steady_held hreceipt) fun tlsRoot v hv => ?_
  refine Safe.seq (safe_validate steady_held hv.2) fun _ v hreceipt => ?_
  refine Safe.seq (safe_checkExpiry (Steady.fact (φ := True)) ⟨hreceipt, trivial⟩) fun _ v hv => ?_
  refine Safe.seq (safe_publish hv.1) fun _ v hshown => Safe.ends ⟨?_, hname, hshown⟩
  rw [identityOf, ← hname]

/-! ### Refreshing -/

/-- Some certificate is published, that of the receipt file. -/
def Current (w : World interface) : Prop := ∃ receipt, Shown receipt w

/-- The attempt file. -/
theorem steady_attempt {previous : Option Attempt} :
    Steady fun w : World interface => w.store.attempt = previous where
  put _ _ hs _ h := hs.attempt.trans h
  validated _ _ _ h := h

theorem steady_passed {moment : Instant} :
    Steady fun w : World interface => moment ≤ w.store.clock where
  put _ _ hs _ h := Nat.le_trans h hs.clock
  validated _ _ _ h := h

/-- The last attempt, under which nothing was requested yet. -/
def Unused (ticket : Ticket) (w : World interface) : Prop :=
  ∃ tickets, w.store.tickets = tickets ++ [ticket] ∧
    ((requests w.log).map Sent.ticket).Sublist tickets

theorem steady_unused {ticket : Ticket} : Steady (Unused ticket) where
  put w s hs _ h := by
    obtain ⟨tickets, htickets, hunused⟩ := h
    exact ⟨tickets, hs.tickets.trans htickets, hunused⟩
  validated w identity reply h := by
    obtain ⟨tickets, htickets, hunused⟩ := h
    refine ⟨tickets, htickets, ?_⟩
    rw [World.exchange_log, requests_validate]
    exact hunused

theorem safe_writeAttempt {receipt : Receipt} {previous : Option Attempt} {startedAt : Instant}
    (hspaced : ∀ last, previous = some last → last.certificateDigest = receipt.certificate →
      last.startedAt + 60000 ≤ startedAt)
    (hw : Shown receipt w ∧ w.store.attempt = previous ∧ startedAt ≤ w.store.clock) :
    Does setup (writeAttempt receipt startedAt)
      (fun ticket v => Shown receipt v ∧ Unused ticket v) w := by
  refine safe_operate (steady_shown.and (steady_attempt.and steady_passed)) hw
    fun v env ticket s hv hvalid hf => ?_
  obtain ⟨hshown, hprevious, hpassed⟩ := hv
  dsimp only at hf
  split at hf
  · cases hf
  · rename_i hfresh
    obtain ⟨rfl, rfl⟩ := Prod.mk.inj (Option.some.inj hf)
    have hnext := @Inv.attempt setup v hvalid
      ⟨⟨env.uuid, receipt.certificate, startedAt⟩, v.store.receipts.length⟩ receipt v.store.failed
      hshown.1 rfl rfl hfresh hpassed fun last hlast => hspaced last (hprevious.symm.trans hlast)
    exact ⟨hnext, hshown, v.store.tickets, rfl, hvalid.recorded⟩

/-- The request to the signer. -/
theorem safe_sign {receipt : Receipt} {ticket : Ticket}
    (hw : Shown receipt w ∧ Unused ticket w) :
    Does setup (Prog.ask (S := interface) (.renew ticket (identityOf setup receipt)))
      (fun reply v => Shown receipt v ∧ ∀ renewed, reply.outcome = some renewed →
        Genuine setup v.log
          ⟨setup.name, renewed.certificate, renewed.issuedAt, renewed.expiresAt⟩) w := by
  intro v hrely hvalid reply hallowed
  obtain ⟨hshown, tickets, htickets, hunused⟩ :=
    (steady_shown.and steady_unused).stable w v hrely hw
  obtain ⟨hat, hpublished, hcertified⟩ := hallowed
  have hpem : Published reply.published (identityOf setup receipt).certificate := by
    rw [hpublished]
    exact hshown.2
  refine ⟨hvalid.requested htickets hunused hat hpem, hshown, fun renewed hrenewed => ?_⟩
  refine ⟨rfl, hcertified renewed hrenewed, .inr ?_⟩
  refine ⟨⟨ticket, identityOf setup receipt, reply⟩, ?_, renewed, hrenewed, rfl, rfl⟩
  rw [World.exchange_log, requests_renew]
  exact List.mem_append_right _ (List.mem_singleton_self _)

theorem steady_genuine {receipt : Receipt} :
    Steady fun w : World interface => Genuine setup w.log receipt where
  put _ _ _ _ h := h
  validated w identity reply h := h.mono fun x hx => by simpa using hx

theorem safe_record {receipt : Receipt} {outcome : Option Renewed} (hname : receipt.name = setup.name)
    (hw : Shown receipt w ∧ ∀ renewed, outcome = some renewed → Genuine setup w.log
      ⟨setup.name, renewed.certificate, renewed.issuedAt, renewed.expiresAt⟩) :
    Does setup (record setup.name receipt outcome) (fun _ => Current) w := by
  cases outcome with
  | none => exact Safe.ends ⟨receipt, hw.1⟩
  | some renewed =>
    have hwrite : Does setup
        (writeReceipt ⟨receipt.name, renewed.certificate, renewed.issuedAt, renewed.expiresAt⟩)
        (fun _ _ => True) w := by
      refine safe_operate steady_genuine (hw.2 renewed rfl) fun v env a s hv hvalid hf => ?_
      obtain ⟨rfl, rfl⟩ := Prod.mk.inj (Option.some.inj hf)
      rw [hname]
      exact ⟨hvalid.written hv, trivial⟩
    refine Safe.seq hwrite fun _ v _ => ?_
    exact Safe.seq safe_restore fun found v hv => Safe.ends ⟨found.1, hv.2.2⟩

theorem safe_renew {receipt : Receipt} (hname : receipt.name = setup.name) (hw : Shown receipt w) :
    Does setup (renew setup.name receipt (identityOf setup receipt)) (fun _ => Current) w := by
  refine Safe.seq (safe_look steady_shown hw) fun previous v hv => ?_
  obtain ⟨hprevious, hshown⟩ := hv
  have hlook : Shown receipt v ∧ v.store.attempt = previous := ⟨hshown, hprevious.symm⟩
  refine Safe.seq (safe_now (steady_shown.and steady_attempt) hlook) fun moment v hv => ?_
  obtain ⟨hmoment, hshown, hattempt⟩ := hv
  split
  · exact Safe.ends ⟨receipt, hshown⟩
  · rename_i hdue
    have hlook : Shown receipt v ∧ v.store.attempt = previous ∧ moment ≤ v.store.clock :=
      ⟨hshown, hattempt, Nat.le_of_eq hmoment⟩
    refine Safe.seq (safe_now (steady_shown.and (steady_attempt.and steady_passed)) hlook)
      fun startedAt v hv => ?_
    obtain ⟨hstarted, hshown, hattempt, hpassed⟩ := hv
    -- the minute is over now, and all the more when the attempt is recorded
    have hspaced : ∀ last, previous = some last → last.certificateDigest = receipt.certificate →
        last.startedAt + 60000 ≤ startedAt := by
      intro last hlast hsame
      rw [hstarted]
      refine Nat.le_trans (Nat.not_lt.mp fun hearly => hdue ?_) hpassed
      exact ⟨last, hlast, hsame, hearly⟩
    refine Safe.seq (safe_writeAttempt hspaced ⟨hshown, hattempt, Nat.le_of_eq hstarted⟩)
      fun ticket v hv => ?_
    exact Safe.seq (safe_sign hv) fun reply v hv => safe_record hname hv

theorem safe_refresh : Does setup (refresh setup.name) (fun _ => Current) w := by
  refine Safe.seq safe_restore fun found v hv => ?_
  obtain ⟨receipt, identity⟩ := found
  obtain ⟨hidentity, hname, hshown⟩ := hv
  obtain rfl : identity = identityOf setup receipt := hidentity
  refine Safe.seq (safe_now steady_shown hshown) fun moment v hv => ?_
  split
  · exact Safe.ends ⟨receipt, hv.2⟩
  · exact safe_renew hname hv.2

/-! ### The process -/

theorem stable_current : Stable (contract setup) .process Current := by
  rintro w v hrely ⟨receipt, hshown⟩
  exact ⟨receipt, steady_shown.stable w v hrely hshown⟩

theorem safe_answered :
    Does setup (answered setup.name) (fun _ _ => True) w := by
  refine Safe.seq (safe_memory (Steady.fact (φ := True)) trivial fun s =>
    ⟨Calm.same rfl rfl rfl rfl rfl rfl rfl, rfl⟩) fun _ v _ => ?_
  have hrefresh : Does setup (refresh setup.name).attempt
      (fun result u => match result with
        | .ok _ => Current u
        | .error _ => Obstacle u) v := by
    refine Safe.attempt (safe_refresh.mono fun r u hr => ?_)
    cases r <;> exact hr
  refine Safe.seq hrefresh fun result v hv => ?_
  intro u hrely hvalid _
  refine ⟨hvalid.answer ?_, trivial⟩
  cases result with
  | ok renewal =>
    obtain ⟨receipt, hreceipt, hpublished⟩ := stable_current v u hrely hv
    exact ⟨fun _ => ⟨receipt, hreceipt, hpublished⟩, fun hnone => by cases hnone⟩
  | error e => exact ⟨fun hsome => absurd rfl hsome, fun _ => stable_obstacle v u hrely hv⟩

theorem safe_handle (request : Request) :
    Does setup (handle setup.name request) (fun _ _ => True) w := by
  cases request with
  | restore =>
    have hrestore : Does setup (restore setup.name).attempt (fun _ _ => True) w :=
      Safe.attempt (safe_restore.mono fun _ _ _ => trivial)
    exact Safe.seq hrestore fun _ _ _ => Safe.ends trivial
  | refresh => exact safe_answered

end Steps

/-! ## Every run -/

theorem safe_serve (list : List Request) :
    Does setup (serve setup.name list) (fun _ _ => True) w := by
  refine @Safe.forEach _ _ _ (contract setup) .process _ (fun _ => True) list
    (handle setup.name) w trivial (fun request _ v _ => ?_) fun _ _ => trivial
  exact (safe_handle request).mono fun r u hr => by
    cases r with
    | ok _ => trivial
    | error e => exact hr

theorem gateway_keeps : (gateway setup.name setup.certifies).Keeps (contract setup) where
  born {k w} h := by
    cases k with
    | process => exact h.calm (Calm.same rfl rfl rfl rfl rfl rfl rfl)
    | clock => exact ⟨w.store.clock, Nat.le_refl _, rfl⟩
  gone {k w} h := by
    cases k with
    | process => exact h.calm (Calm.same rfl rfl rfl rfl rfl rfl rfl)
    | clock => exact ⟨w.store.clock, Nat.le_refl _, rfl⟩
  job_safe {k p w} hjob h := by
    cases k with
    | process =>
      obtain ⟨list, rfl⟩ := hjob
      exact (safe_serve list).mono fun _ _ _ => trivial
    | clock =>
      obtain rfl := hjob
      exact fun v _ _ env => ⟨⟨max v.store.clock env.time, Nat.le_max_left _ _, rfl⟩, trivial⟩
  reboot _ h := h.elim
  allows _ h := h

/-- A gateway that was set up: a receipt of its own, and nothing tried yet. -/
structure Installed (setup : Setup) (s : Store) : Prop where
  receipt : s.receipt = some setup.first
  name : setup.first.name = setup.name
  certified : setup.certifies setup.first.certificate setup.name setup.privateKey
  key : s.privateKey = setup.privateKey
  tickets : s.tickets = []
  receipts : s.receipts = []
  answers : s.answers = []

theorem Installed.inv {s : Store} (h : Installed setup s) : Inv setup ⟨s, []⟩ where
  key := h.key
  receipt := ⟨setup.first, h.receipt, h.name, h.certified, .inl rfl⟩
  ids := by simp [h.tickets]
  started := by simp [h.tickets]
  eras := by simp [h.tickets]
  latest := by simp [h.tickets]
  apart := by simp [h.tickets]
  recorded := by simp [requests]
  shown := by simp [requests]
  answers := by simp [h.answers]

/-- **Run lemma.** -/
theorem inv_of_reach {s : Store} (h : Installed setup s) {c : Durable.Config interface Slot}
    (hr : (gateway setup.name setup.certifies).Reach (Config.idle ⟨s, []⟩) c) : Inv setup c.world :=
  (gateway_keeps.inOrder (Discipline.inOrder_idle h.inv) hr).1

/-- What a run of the gateway shows of its certificate. -/
structure Renews (setup : Setup) (w : World interface) : Prop where
  /-- The key is the one of the setup, and the receipt is complete and genuine. -/
  key : w.store.privateKey = setup.privateKey
  receipt : ∃ receipt, w.store.receipt = some receipt ∧ Genuine setup w.log receipt
  /-- An answered refresh has published the certificate of the receipt file, and a refresh throws
      only over a failed step or in the last thirty seconds of the certificate. -/
  answers : ∀ answer ∈ w.store.answers, Fair answer
  /-- The signer is asked only when the PEM is the certificate that is to be renewed. -/
  published : ∀ x ∈ requests w.log, Published x.signing.published x.identity.certificate
  /-- Every request is made under an attempt of its own, which was recorded before. -/
  recorded : ((requests w.log).map Sent.ticket).Sublist w.store.tickets
  own : (w.store.tickets.map fun ticket => ticket.attempt.id).Nodup
  before : ∀ x ∈ requests w.log, x.ticket.attempt.startedAt ≤ x.signing.requestedAt
  /-- As long as no receipt is written between two requests, the later one is for the same
      certificate and comes a minute after the attempt of the earlier one. -/
  apart : (requests w.log).Pairwise fun x y => x.ticket.era = y.ticket.era →
    x.ticket.attempt.certificateDigest = y.ticket.attempt.certificateDigest ∧
      x.ticket.attempt.startedAt + 60000 ≤ y.signing.requestedAt

theorem Inv.renews (h : Inv setup w) : Renews setup w where
  key := h.key
  receipt := h.receipt
  answers := h.answers
  published x hx := (h.shown x hx).2
  recorded := h.recorded
  own := h.ids
  before x hx := (h.shown x hx).1
  apart := by
    have hpairs := h.apart.sublist h.recorded
    rw [List.pairwise_map] at hpairs
    refine hpairs.imp_of_mem fun {x y} _ hy hapart hera => ?_
    obtain ⟨hsame, hspaced⟩ := hapart hera
    exact ⟨hsame, Nat.le_trans hspaced (h.shown y hy).1⟩

/-- **Certificate renewal.** -/
theorem renewal {s : Store} (h : Installed setup s) {c : Durable.Config interface Slot}
    (hr : (gateway setup.name setup.certifies).Reach (Config.idle ⟨s, []⟩) c) :
    Renews setup c.world :=
  (inv_of_reach h hr).renews

namespace Demo

def first (expiresAt : Instant) : Receipt := ⟨"a.gateway.agent-cloud.internal", "old", 0, expiresAt⟩

def own (expiresAt : Instant) : Setup where
  name := "a.gateway.agent-cloud.internal"
  privateKey := "key"
  certifies _ _ _ := True
  first := first expiresAt

def installed (expiresAt : Instant) : Store where
  receipt := some (first expiresAt)
  published := none
  attempt := none
  privateKey := "key"
  tlsRoot := "root"
  clock := 0
  validated := none
  tickets := []
  receipts := []
  failed := false
  answers := []

theorem installed_ok (expiresAt : Instant) : Installed (own expiresAt) (installed expiresAt) :=
  ⟨rfl, rfl, trivial, rfl, rfl, rfl, rfl⟩

/-- Nothing fails; the clock is moved to 50 seconds and then to a minute. -/
def env (w : World interface) : Env :=
  ⟨false, true, if w.store.tickets = [] then "1" else "2",
    if w.store.clock < 50000 then 50000 else 60000⟩

/-- Every certificate is valid as its receipt says, and the signer is never heard of. -/
def reply (w : World interface) : (c : Call) → c.Reply
  | .validate _ => w.store.receipt.map Receipt.expiresAt
  | .renew .. => ⟨w.store.clock, w.store.published, none⟩

def name : String := "a.gateway.agent-cloud.internal"

def machine : Machine interface Slot := gateway name fun _ _ _ => True

def played (expiresAt : Instant) (moves : List (Machine.Move interface Slot)) :
    Durable.Config interface Slot :=
  moves.foldl (machine.play env reply) (Config.idle ⟨installed expiresAt, []⟩)

theorem played_reached (expiresAt : Instant) {moves : List (Machine.Move interface Slot)}
    (jobs : ∀ k p, .start k p ∈ moves → machine.job k p) :
    machine.Reach (Config.idle ⟨installed expiresAt, []⟩) (played expiresAt moves) := by
  refine machine.reach_play env reply (fun w c => ?_) moves jobs _
  cases c with
  | validate identity => trivial
  | renew ticket identity => exact ⟨rfl, rfl, fun _ h => by cases h⟩

/-- A refresh twenty seconds before the end of the certificate. -/
def late : List (Machine.Move interface Slot) :=
  [.start .process (serve name [.refresh]), .act .process 40]

/-- Two refreshes; the first attempt is recorded at once and requested fifty seconds later. -/
def slow : List (Machine.Move interface Slot) :=
  [.start .process (serve name [.refresh, .refresh]), .act .process 15,
    .start .clock tick, .act .clock 1, .stop .clock, .act .process 2,
    .start .clock tick, .act .clock 1, .stop .clock, .act .process 40]

theorem late_jobs : ∀ k p, .start k p ∈ late → machine.job k p := by
  intro k p h
  simp only [late, List.mem_cons, Machine.Move.start.injEq, reduceCtorEq, List.not_mem_nil,
    or_false] at h
  obtain ⟨rfl, rfl⟩ := h
  exact ⟨_, rfl⟩

theorem slow_jobs : ∀ k p, .start k p ∈ slow → machine.job k p := by
  intro k p h
  simp only [slow, List.mem_cons, Machine.Move.start.injEq, reduceCtorEq, List.not_mem_nil, or_false,
    false_or] at h
  rcases h with ⟨rfl, rfl⟩ | ⟨rfl, rfl⟩ | ⟨rfl, rfl⟩
  · exact ⟨_, rfl⟩
  · rfl
  · rfl

theorem slow_renews : Renews (own 1000000) (played 1000000 slow).world :=
  renewal (installed_ok 1000000) (played_reached 1000000 slow_jobs)

/-- In the last thirty seconds a refresh throws and leaves the PEM as it is. -/
theorem late_answers : (played 20000 late).world.store.answers =
    [⟨none, some (first 20000), none, 0, false⟩] := by
  decide +kernel

/-- The second request follows the first one after ten seconds. -/
theorem slow_requests : (requests (played 1000000 slow).world.log).map
    (fun x => (x.identity.certificate, x.signing.requestedAt, x.signing.outcome)) =
      [("old", 50000, none), ("old", 60000, none)] := by
  decide +kernel

/-- Neither is an unexpired certificate always published by the next refresh, nor are two requests
    for it always a minute apart. -/
theorem not_renewing :
    (¬ ∀ setup s c, Installed setup s →
      (gateway setup.name setup.certifies).Reach (Config.idle ⟨s, []⟩) c →
      ∀ answer ∈ c.world.store.answers, answer.failed = false → ∀ receipt,
        answer.receipt = some receipt → answer.answeredAt < receipt.expiresAt →
        Published answer.published receipt.certificate) ∧
    ¬ ∀ setup s c, Installed setup s →
      (gateway setup.name setup.certifies).Reach (Config.idle ⟨s, []⟩) c →
      (requests c.world.log).Pairwise fun x y => x.signing.outcome = none →
        x.identity.certificate = y.identity.certificate →
        x.signing.requestedAt + 60000 ≤ y.signing.requestedAt := by
  constructor
  · intro h
    have hbad := h _ _ _ (installed_ok 20000) (played_reached 20000 late_jobs)
      ⟨none, some (first 20000), none, 0, false⟩ (by rw [late_answers]; exact List.mem_singleton_self _)
      rfl _ rfl (by decide)
    cases hbad
  · intro h
    have hpairs := h _ _ _ (installed_ok 1000000) (played_reached 1000000 slow_jobs)
    have hmapped : ((requests (played 1000000 slow).world.log).map fun x =>
        (x.identity.certificate, x.signing.requestedAt, x.signing.outcome)).Pairwise
          fun x y => x.2.2 = none → x.1 = y.1 → x.2.1 + 60000 ≤ y.2.1 :=
      List.pairwise_map.mpr hpairs
    rw [slow_requests] at hmapped
    have hclose := (List.pairwise_cons.mp hmapped).1 _ (List.mem_singleton_self _) rfl rfl
    exact absurd hclose (by decide)

end Demo

end AgentCloud.Certificates
