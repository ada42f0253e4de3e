/-
  RESERVATIONS: what an allocation reserves covers whatever the provider may run for it.

  What may run is read off the attempts, in the order in which they were prepared (`mayRun`).  An
  effect that was not definitively rejected may or may not have taken place, so a resize leaves both
  types possible, and only a confirmed one, whose server was seen with the new type, leaves one.  A
  failed action counts as one that may have taken place.

  CRUX: the operation that goes on has a block of attempts of its own at the end (`Reserved.own`).
  So when a resize is completed, which lowers the reservation to its offer, everything before its
  confirmed effect is out of the way, and everything after it was admitted under the same offer.
-/
import AgentCloud.Lifecycle.Runs
import Mathlib.Data.List.Basic

namespace AgentCloud.Lifecycle

open Checked Durable

/-! ## What may run -/

/-- A server of the type of an offer, with the provider's backups on or off. -/
structure Running where
  offer : CatalogItem
  backups : Bool

/-- Its price: that of the offer, with the backups only where they are on. -/
def Running.price (running : Running) : Micros :=
  running.offer.serverHourlyMicros + running.offer.ipv4HourlyMicros +
    if running.backups then running.offer.providerBackups.price else 0

def EffectResolution.isConfirmed : EffectResolution → Bool
  | confirmed _ => true
  | _ => false

/-- A command that changes what is charged. -/
def ProviderCommand.charged : ProviderCommand → Bool
  | create .. => true
  | createGuest .. => true
  | resize .. => true
  | enableBackup _ => true
  | _ => false

def ProviderCommand.isResize : ProviderCommand → Bool
  | resize .. => true
  | _ => false

/-- What an effect makes of what runs, where it takes place. -/
def ProviderCommand.apply (command : ProviderCommand) (offer : CatalogItem)
    (running : List Running) : List Running :=
  match command with
  | create .. => [⟨offer, false⟩]
  | createGuest .. => [⟨offer, false⟩]
  | resize .. => running.map fun r => { r with offer }
  | enableBackup _ => running.map fun r => { r with backups := true }
  | _ => []

/-- After an attempt: a confirmed resize has taken place, what was rejected has not, anything else
    may have. -/
def Attempt.after (offer : Option CatalogItem) (running : List Running) (attempt : Attempt) :
    List Running :=
  match offer with
  | none => running
  | some offer =>
    if attempt.command.isResize = true ∧ attempt.resolution.isConfirmed = true then
      attempt.command.apply offer running
    else if attempt.outcome.rejected then running
    else running ++ attempt.command.apply offer running

/-- The offer that an operation was admitted under. -/
def offerOf (operations : List OperationRow) (id : OperationId) : Option CatalogItem :=
  (Table.get OperationRow.id operations id).bind OperationRow.offer

/-- As `after`, where no attempt counts as rejected. -/
def Attempt.afterAll (offer : Option CatalogItem) (running : List Running) (attempt : Attempt) :
    List Running :=
  match offer with
  | none => running
  | some offer =>
    if attempt.command.isResize = true ∧ attempt.resolution.isConfirmed = true then
      attempt.command.apply offer running
    else running ++ attempt.command.apply offer running

def allRun (offer : OperationId → Option CatalogItem) (attempts : List Attempt)
    (running : List Running) : List Running :=
  attempts.foldl (fun running attempt => attempt.afterAll (offer attempt.operationId) running) running

variable {offer : OperationId → Option CatalogItem} {attempts : List Attempt}
  {running running' : List Running} {attempt : Attempt} {o : Option CatalogItem} {item : CatalogItem}

theorem apply_mono (command : ProviderCommand) (item : CatalogItem) (h : running ⊆ running') :
    command.apply item running ⊆ command.apply item running' := by
  cases command with
  | resize => exact List.map_subset _ h
  | enableBackup => exact List.map_subset _ h
  | create | createGuest | createPrimaryIp | reboot | powerOff | powerOn | deletePrimaryIp | destroy =>
    exact List.Subset.refl _

theorem after_subset (h : running ⊆ running') : attempt.after o running ⊆ attempt.afterAll o running' := by
  cases o with
  | none => exact h
  | some item =>
    have happly := apply_mono attempt.command item h
    unfold Attempt.after Attempt.afterAll
    dsimp only
    split
    · exact happly
    split
    · exact List.Subset.trans h (List.subset_append_left _ _)
    · exact List.append_subset.mpr ⟨List.Subset.trans h (List.subset_append_left _ _),
        List.Subset.trans happly (List.subset_append_right _ _)⟩

/-- What may happen to the row of an attempt: it is confirmed, or not yet. -/
structure Attempt.Learns (old new : Attempt) : Prop where
  operationId : new.operationId = old.operationId
  command : new.command = old.command
  confirmed : old.resolution.isConfirmed = true → new.resolution.isConfirmed = true

theorem Attempt.Learns.refl (attempt : Attempt) : attempt.Learns attempt := ⟨rfl, rfl, fun h => h⟩

theorem afterAll_subset {new : Attempt} (hlearns : attempt.Learns new) (h : running ⊆ running') :
    new.afterAll o running ⊆ attempt.afterAll o running' := by
  cases o with
  | none => exact h
  | some item =>
    have happly := apply_mono attempt.command item h
    unfold Attempt.afterAll
    rw [hlearns.command]
    dsimp only
    by_cases hold : attempt.command.isResize = true ∧ attempt.resolution.isConfirmed = true
    · rw [if_pos hold, if_pos ⟨hold.1, hlearns.confirmed hold.2⟩]
      exact happly
    rw [if_neg hold]
    split
    · exact List.Subset.trans happly (List.subset_append_right _ _)
    · exact List.append_subset.mpr ⟨List.Subset.trans h (List.subset_append_left _ _),
        List.Subset.trans happly (List.subset_append_right _ _)⟩

/-- Learning more about attempts leaves less possible. -/
theorem allRun_learn {f : Attempt → Attempt} (hf : ∀ attempt ∈ attempts, attempt.Learns (f attempt)) :
    ∀ running running', running ⊆ running' →
      allRun offer (attempts.map f) running ⊆ allRun offer attempts running' := by
  induction attempts with
  | nil => exact fun _ _ h => h
  | cons attempt attempts ih =>
    intro running running' h
    have hlearns := hf attempt (by simp)
    rw [List.map_cons]
    show allRun offer _ ((f attempt).afterAll (offer (f attempt).operationId) running) ⊆
      allRun offer attempts (attempt.afterAll (offer attempt.operationId) running')
    rw [hlearns.operationId]
    exact ih (fun a ha => hf a (List.mem_cons_of_mem _ ha)) _ _ (afterAll_subset hlearns h)

theorem allRun_append (more : List Attempt) :
    allRun offer (attempts ++ more) running = allRun offer more (allRun offer attempts running) :=
  List.foldl_append

theorem afterAll_offer (h : ∀ r ∈ running, r.offer = item) (ho : o = some item) :
    ∀ r ∈ attempt.afterAll o running, r.offer = item := by
  subst ho
  have happly : ∀ r ∈ attempt.command.apply item running, r.offer = item := by
    intro r hr
    cases hcommand : attempt.command <;> rw [hcommand] at hr <;> simp only [ProviderCommand.apply,
      List.mem_singleton, List.mem_map, List.not_mem_nil] at hr
    all_goals first
      | exact hr ▸ rfl
      | (obtain ⟨before, hb, rfl⟩ := hr; first | rfl | exact h before hb)
  unfold Attempt.afterAll
  dsimp only
  intro r hr
  split at hr
  · exact happly r hr
  · rcases List.mem_append.mp hr with hr | hr
    · exact h r hr
    · exact happly r hr

/-- Attempts of one operation after its confirmed resize leave only its own offer. -/
theorem allRun_confirmed (howner : ∀ attempt ∈ attempts, offer attempt.operationId = some item)
    (hconfirmed : ∃ attempt ∈ attempts, attempt.command.isResize = true ∧
      attempt.resolution.isConfirmed = true) :
    ∀ running, ∀ r ∈ allRun offer attempts running, r.offer = item := by
  have hkeeps : ∀ attempts : List Attempt, (∀ attempt ∈ attempts, offer attempt.operationId = some item) →
      ∀ running, (∀ r ∈ running, r.offer = item) → ∀ r ∈ allRun offer attempts running, r.offer = item := by
    intro attempts
    induction attempts with
    | nil => exact fun _ _ h => h
    | cons attempt attempts ih =>
      intro howner running h
      exact ih (fun a ha => howner a (List.mem_cons_of_mem _ ha)) _
        (afterAll_offer h (howner attempt (by simp)))
  induction attempts with
  | nil =>
    obtain ⟨attempt, hm, -⟩ := hconfirmed
    cases hm
  | cons attempt attempts ih =>
    intro running
    have hrest : ∀ a ∈ attempts, offer a.operationId = some item := fun a ha =>
      howner a (List.mem_cons_of_mem _ ha)
    obtain ⟨a, hm, hresize, hshown⟩ := hconfirmed
    rcases List.mem_cons.mp hm with rfl | hm
    · have hafter : ∀ r ∈ a.afterAll (offer a.operationId) running, r.offer = item := by
        rw [howner a (by simp)]
        unfold Attempt.afterAll
        dsimp only
        rw [if_pos ⟨hresize, hshown⟩]
        intro r hr
        obtain ⟨serverId, serverType, hcommand⟩ : ∃ serverId serverType, a.command = .resize serverId serverType := by
          cases hc : a.command <;> rw [hc] at hresize <;> first | exact ⟨_, _, rfl⟩ | cases hresize
        rw [hcommand] at hr
        obtain ⟨before, -, rfl⟩ := List.mem_map.mp hr
        rfl
      exact hkeeps attempts hrest _ hafter
    · exact ih hrest ⟨a, hm, hresize, hshown⟩ _

/-! ## The invariant -/

/-- The attempts of an operation stand at the end. -/
def AtEnd (attempts : List Attempt) (id : OperationId) : Prop :=
  ∃ before own, attempts = before ++ own ∧ (∀ attempt ∈ before, attempt.operationId ≠ id) ∧
    ∀ attempt ∈ own, attempt.operationId = id

structure Reserved (provider : ProviderKind) (hourlyMicros : Micros) (operations : List OperationRow)
    (attempts : List Attempt) : Prop where
  /-- Quotes of one provider include its backups, or none does. -/
  uniform : ∀ row ∈ operations, ∀ item, row.offer = some item →
    (item.providerBackups = .disabled ↔ provider = .simulated)
  bound : ∀ row ∈ operations, row.terminal = false → ∀ item, row.offer = some item →
    item.hourlyMicros ≤ hourlyMicros
  created : ∀ row ∈ operations, row.terminal = false → row.kind = .create → ∀ item,
    row.offer = some item → item.hourlyMicros = hourlyMicros
  offered : ∀ attempt ∈ attempts, attempt.command.charged = true →
    ∃ item, offerOf operations attempt.operationId = some item ∧
      (attempt.command.isEnableBackup = true → item.providerBackups ≠ .disabled)
  own : ∀ row ∈ operations, row.terminal = false → AtEnd attempts row.id
  covered : ∀ r ∈ allRun (offerOf operations) attempts [], r.offer.hourlyMicros ≤ hourlyMicros

namespace Reserved

variable {provider : ProviderKind} {hourlyMicros : Micros} {operations : List OperationRow}

theorem offerOf_update {operations : List OperationRow} {id : OperationId} {f : OperationRow → OperationRow}
    (hid : ∀ row, (f row).id = row.id) (hoffer : ∀ row, (f row).offer = row.offer) :
    offerOf (Table.update OperationRow.id operations id f) = offerOf operations := by
  funext other
  unfold offerOf
  rw [Table.get_update hid]
  split
  · cases Table.get OperationRow.id operations other with
    | none => rfl
    | some row => exact hoffer row
  · rfl

/-- The row of an operation goes on, or ends. -/
theorem rewrite (h : Reserved provider hourlyMicros operations attempts) (id : OperationId)
    {f : OperationRow → OperationRow} (hid : ∀ row, (f row).id = row.id)
    (hcommand : ∀ row, (f row).command = row.command) (hoffer : ∀ row, (f row).offer = row.offer)
    (hgoing : ∀ row ∈ operations, row.id = id → (f row).terminal = false → row.terminal = false) :
    Reserved provider hourlyMicros (Table.update OperationRow.id operations id f) attempts := by
  -- a row afterwards stands for one before
  have hrow : ∀ row ∈ Table.update OperationRow.id operations id f, ∃ old ∈ operations,
      row.id = old.id ∧ row.kind = old.kind ∧ row.offer = old.offer ∧
        (row.terminal = false → old.terminal = false) := by
    intro row hm
    obtain ⟨old, hold, rfl⟩ := Table.mem_update hm
    by_cases hkey : old.id = id
    · rw [if_pos hkey]
      refine ⟨old, hold, hid old, ?_, hoffer old, hgoing old hold hkey⟩
      rw [OperationRow.kind, hcommand]
      rfl
    · rw [if_neg hkey]
      exact ⟨old, hold, rfl, rfl, rfl, fun h => h⟩
  have hoffers := @offerOf_update operations id f hid hoffer
  constructor
  · intro row hm item hitem
    obtain ⟨old, hold, -, -, ho, -⟩ := hrow row hm
    exact h.uniform old hold item (ho ▸ hitem)
  · intro row hm hgo item hitem
    obtain ⟨old, hold, -, -, ho, ht⟩ := hrow row hm
    exact h.bound old hold (ht hgo) item (ho ▸ hitem)
  · intro row hm hgo hkind item hitem
    obtain ⟨old, hold, -, hk, ho, ht⟩ := hrow row hm
    exact h.created old hold (ht hgo) (hk ▸ hkind) item (ho ▸ hitem)
  · rw [hoffers]
    exact h.offered
  · intro row hm hgo
    obtain ⟨old, hold, hkey, -, -, ht⟩ := hrow row hm
    rw [hkey]
    exact h.own old hold (ht hgo)
  · rw [hoffers]
    exact h.covered

/-- More is learnt about attempts. -/
theorem learn (h : Reserved provider hourlyMicros operations attempts) {f : Attempt → Attempt}
    (hf : ∀ attempt ∈ attempts, attempt.Learns (f attempt)) :
    Reserved provider hourlyMicros operations (attempts.map f) := by
  refine ⟨h.uniform, h.bound, h.created, ?_, ?_, ?_⟩
  · intro attempt hm hcharged
    obtain ⟨old, hold, rfl⟩ := List.mem_map.mp hm
    rw [(hf old hold).command] at hcharged ⊢
    rw [(hf old hold).operationId]
    exact h.offered old hold hcharged
  · intro row hm hgo
    obtain ⟨before, own, rfl, hbefore, hown⟩ := h.own row hm hgo
    refine ⟨before.map f, own.map f, List.map_append, ?_, ?_⟩
    · intro attempt ha
      obtain ⟨old, hold, rfl⟩ := List.mem_map.mp ha
      rw [(hf old (List.mem_append_left _ hold)).operationId]
      exact hbefore old hold
    · intro attempt ha
      obtain ⟨old, hold, rfl⟩ := List.mem_map.mp ha
      rw [(hf old (List.mem_append_right _ hold)).operationId]
      exact hown old hold
  · intro r hr
    exact h.covered r (allRun_learn hf [] [] (List.Subset.refl _) hr)

/-- An attempt is prepared for the one operation that goes on. -/
theorem prepare (h : Reserved provider hourlyMicros operations attempts) {row : OperationRow}
    (hkeyed : Table.Keyed OperationRow.id operations) (hm : row ∈ operations)
    (hgoing : row.terminal = false)
    (hone : ∀ other ∈ operations, other.terminal = false → other = row) {new : Attempt}
    (howner : new.operationId = row.id) (hcharged : new.command.charged = true →
      ∃ item, row.offer = some item ∧
        (new.command.isEnableBackup = true → item.providerBackups ≠ .disabled)) :
    Reserved provider hourlyMicros operations (attempts ++ [new]) := by
  have hoffer : offerOf operations new.operationId = row.offer := by
    unfold offerOf
    rw [howner, hkeyed.get hm]
    rfl
  refine ⟨h.uniform, h.bound, h.created, ?_, ?_, ?_⟩
  · intro attempt ha hpriced
    rcases List.mem_append.mp ha with ha | ha
    · exact h.offered attempt ha hpriced
    · obtain rfl := List.mem_singleton.mp ha
      rw [hoffer]
      exact hcharged hpriced
  · intro other ho hgo
    obtain rfl := hone other ho hgo
    obtain ⟨before, own, rfl, hbefore, hown⟩ := h.own other ho hgo
    refine ⟨before, own ++ [new], List.append_assoc _ _ _, hbefore, ?_⟩
    intro attempt ha
    rcases List.mem_append.mp ha with ha | ha
    · exact hown attempt ha
    · obtain rfl := List.mem_singleton.mp ha
      exact howner
  · intro r hr
    rw [allRun_append] at hr
    have hlast : r ∈ new.afterAll (offerOf operations new.operationId)
        (allRun (offerOf operations) attempts []) := hr
    rw [hoffer] at hlast
    cases hitem : row.offer with
    | none =>
      rw [hitem] at hlast
      exact h.covered r hlast
    | some item =>
      rw [hitem] at hlast
      have hbound := h.bound row hm hgoing item hitem
      -- what it adds is of its own offer, or was there with backups off
      have happly : ∀ r ∈ new.command.apply item (allRun (offerOf operations) attempts []),
          r.offer.hourlyMicros ≤ hourlyMicros := by
        intro r hr
        cases hcommand : new.command <;> rw [hcommand] at hr <;>
          simp only [ProviderCommand.apply, List.mem_singleton, List.mem_map, List.not_mem_nil] at hr
        all_goals first
          | exact hr ▸ hbound
          | (obtain ⟨before, hb, rfl⟩ := hr; first | exact hbound | exact h.covered before hb)
      unfold Attempt.afterAll at hlast
      dsimp only at hlast
      split at hlast
      · exact happly r hlast
      · rcases List.mem_append.mp hlast with hlast | hlast
        · exact h.covered r hlast
        · exact happly r hlast

theorem allRun_congr {offer offer' : OperationId → Option CatalogItem}
    (h : ∀ attempt ∈ attempts, offer attempt.operationId = offer' attempt.operationId) :
    allRun offer attempts running = allRun offer' attempts running := by
  induction attempts generalizing running with
  | nil => rfl
  | cons attempt attempts ih =>
    have hfirst := h attempt (by simp)
    show allRun offer attempts (attempt.afterAll (offer attempt.operationId) running) =
      allRun offer' attempts (attempt.afterAll (offer' attempt.operationId) running)
    rw [hfirst]
    exact ih fun a ha => h a (List.mem_cons_of_mem _ ha)

/-- An operation is admitted while none goes on; the reservation covers its offer too. -/
theorem admitted (h : Reserved provider hourlyMicros operations attempts)
    (hfree : ∀ row ∈ operations, row.terminal = true) {new : OperationRow}
    (hfresh : Table.get OperationRow.id operations new.id = none)
    (howner : ∀ attempt ∈ attempts, ∃ row ∈ operations, row.id = attempt.operationId)
    (hkind : new.kind ≠ .create) {raised : Micros} (hraised : hourlyMicros ≤ raised)
    (hoffer : ∀ item, new.offer = some item → item.hourlyMicros ≤ raised ∧
      (item.providerBackups = .disabled ↔ provider = .simulated)) :
    Reserved provider raised (operations ++ [new]) attempts := by
  have hnone := Table.get_eq_none.mp hfresh
  have hother : ∀ attempt ∈ attempts, attempt.operationId ≠ new.id := by
    intro attempt hm heq
    obtain ⟨row, hrow, hid⟩ := howner attempt hm
    exact hnone row hrow (hid.trans heq)
  have hoffers : ∀ attempt ∈ attempts, offerOf (operations ++ [new]) attempt.operationId =
      offerOf operations attempt.operationId := by
    intro attempt hm
    unfold offerOf
    rw [Table.get_append, if_neg (fun heq => hother attempt hm heq.symm), Option.or_none]
  have hgoing : ∀ row ∈ operations ++ [new], row.terminal = false → row = new := by
    intro row hm hgo
    rcases List.mem_append.mp hm with hm | hm
    · rw [hfree row hm] at hgo
      cases hgo
    · exact List.mem_singleton.mp hm
  constructor
  · intro row hm item hitem
    rcases List.mem_append.mp hm with hm | hm
    · exact h.uniform row hm item hitem
    · obtain rfl := List.mem_singleton.mp hm
      exact (hoffer item hitem).2
  · intro row hm hgo item hitem
    obtain rfl := hgoing row hm hgo
    exact (hoffer item hitem).1
  · intro row hm hgo hcreate
    obtain rfl := hgoing row hm hgo
    exact absurd hcreate hkind
  · intro attempt hm hcharged
    rw [hoffers attempt hm]
    exact h.offered attempt hm hcharged
  · intro row hm hgo
    obtain rfl := hgoing row hm hgo
    exact ⟨attempts, [], (List.append_nil _).symm, hother, by simp⟩
  · rw [allRun_congr hoffers]
    intro r hr
    exact Nat.le_trans (h.covered r hr) hraised

/-- The operation is over, and the reservation is lowered to its offer. -/
theorem complete (h : Reserved provider hourlyMicros operations attempts) {lowered : Micros}
    (hover : ∀ row ∈ operations, row.terminal = true)
    (hlowered : ∀ r ∈ allRun (offerOf operations) attempts [], r.offer.hourlyMicros ≤ lowered) :
    Reserved provider lowered operations attempts := by
  have hnone : ∀ {p : Prop}, ∀ row ∈ operations, row.terminal = false → p := by
    intro p row hm hgo
    rw [hover row hm] at hgo
    cases hgo
  exact ⟨h.uniform, fun row hm hgo => hnone row hm hgo, fun row hm hgo => hnone row hm hgo, h.offered,
    fun row hm hgo => hnone row hm hgo, hlowered⟩

/-- After its confirmed resize, only the offer of the operation is left. -/
theorem confirmed (h : Reserved provider hourlyMicros operations attempts) {row : OperationRow}
    (hkeyed : Table.Keyed OperationRow.id operations) (hm : row ∈ operations)
    (hgoing : row.terminal = false) {item : CatalogItem} (hoffer : row.offer = some item)
    {attempt : Attempt} (ha : attempt ∈ attempts) (howner : attempt.operationId = row.id)
    (hresize : attempt.command.isResize = true) (hshown : attempt.resolution.isConfirmed = true) :
    ∀ r ∈ allRun (offerOf operations) attempts [], r.offer = item := by
  obtain ⟨before, own, rfl, hbefore, hown⟩ := h.own row hm hgoing
  have hattempt : attempt ∈ own := by
    rcases List.mem_append.mp ha with ha | ha
    · exact absurd howner (hbefore attempt ha)
    · exact ha
  have hitem : ∀ a ∈ own, offerOf operations a.operationId = some item := by
    intro a hm'
    rw [hown a hm', offerOf, hkeyed.get hm]
    exact hoffer
  rw [allRun_append]
  exact allRun_confirmed hitem ⟨attempt, hattempt, hresize, hshown⟩ _

end Reserved

/-! ## Every change -/

/-- The reservation of a journal is in order. -/
def Journal.Reserved (journal : Journal) : Prop :=
  Lifecycle.Reserved journal.machine.provider journal.allocation.hourlyMicros journal.operations
    journal.attempts

variable {A : Replies} {log : Log} {clock : Instant} {journal journal' : Journal}

theorem charged_of_deletes {command : ProviderCommand} {ref : ResourceRef}
    (h : command.deletes? = some ref) : command.charged = false := by
  cases command <;> simp_all [ProviderCommand.deletes?, ProviderCommand.charged]

/-- What an operation asks for is charged by its offer. -/
theorem Authority.charged {operation : OperationRow} {new : Attempt}
    (h : Authority journal clock operation new) (hcharged : new.command.charged = true) :
    ∃ item, operation.offer = some item ∧
      (new.command.isEnableBackup = true → item.providerBackups ≠ .disabled) := by
  cases h with
  | admitted cleanup mem executor guarded =>
    obtain ⟨ref, href⟩ := deletes_of_guarded guarded
    rw [charged_of_deletes href] at hcharged
    cases hcharged
  | next uncleaned idle effect =>
    by_cases hbackup : new.command.isEnableBackup = true
    · obtain ⟨item, hitem, hdaily⟩ := effect.backedUp hbackup
      exact ⟨item, hitem, fun _ => hdaily⟩
    · have htype : ∃ serverType, new.command.serverType? = some serverType := by
        cases hcommand : new.command <;> rw [hcommand] at hcharged hbackup <;>
          first | exact ⟨_, rfl⟩ | exact absurd rfl hbackup | cases hcharged
      obtain ⟨serverType, htype⟩ := htype
      obtain ⟨item, hitem, -⟩ := effect.offered serverType htype
      exact ⟨item, hitem, fun hb => absurd hb hbackup⟩

theorem Completion.covers {operation : OperationRow} {offer : Option CatalogItem}
    (h : Completion journal operation offer) (hs : Sound journal) (hr : journal.Reserved)
    (active : journal.Active operation) :
    ∀ r ∈ allRun (offerOf journal.operations) journal.attempts [],
      r.offer.hourlyMicros ≤ (offer.map CatalogItem.hourlyMicros).getD journal.allocation.hourlyMicros := by
  intro r hm
  cases hoffer : offer with
  | none => exact hr.covered r hm
  | some item =>
    have hpriced : operation.command.priced = true := by
      cases hp : operation.command.priced with
      | true => rfl
      | false =>
        rw [h.unpriced hp] at hoffer
        cases hoffer
    have hitem : operation.offer = some item := (h.priced hpriced).symm.trans hoffer
    show r.offer.hourlyMicros ≤ item.hourlyMicros
    cases hcommand : operation.command with
    | create spec =>
      have hkind : operation.kind = .create := by
        rw [OperationRow.kind, hcommand]
        rfl
      rw [hr.created operation active.mem active.going hkind item hitem]
      exact hr.covered r hm
    | resize version size =>
      have hkind : operation.kind = .resize := by
        rw [OperationRow.kind, hcommand]
        rfl
      obtain ⟨attempt, ha, howner, hasks, observation, hshown⟩ := h.resized hkind
      have hresize : attempt.command.isResize = true := by
        rw [hcommand] at hasks
        cases hc : attempt.command <;> rw [hc] at hasks <;> first | rfl | cases hasks
      have hoffered := hr.confirmed hs.operations.keyed active.mem active.going hitem ha howner hresize
        (by rw [hshown]; rfl) r hm
      exact Nat.le_of_eq (congrArg CatalogItem.hourlyMicros hoffered)
    | reboot | powerOff | powerOn | destroy =>
      rw [hcommand] at hpriced
      cases hpriced

/-- **Step lemma.**  Every change keeps the reservation in order. -/
theorem Change.reserved (hs : Sound journal) (hr : journal.Reserved)
    (change : Change A log clock journal journal') : journal'.Reserved := by
  have hkeyed := hs.operations.keyed
  -- all other operations are over
  have hover : ∀ {operation : OperationRow}, journal.Active operation →
      ∀ {f : OperationRow → OperationRow}, (f operation).terminal = true →
      ∀ row ∈ Table.update OperationRow.id journal.operations operation.id f, row.terminal = true := by
    intro operation active f hf row hm
    rcases (hkeyed.mem_update active.mem).mp hm with rfl | ⟨hm, hne⟩
    · exact hf
    · cases ht : row.terminal with
      | true => rfl
      | false =>
        have hsame := hs.operations.one row hm operation active.mem ht active.going
        exact absurd (congrArg OperationRow.id hsame) hne
  have hrewrite : ∀ {operation : OperationRow}, journal.Active operation →
      ∀ f : OperationRow → OperationRow, (∀ row, (f row).id = row.id) →
      (∀ row, (f row).command = row.command) → (∀ row, (f row).offer = row.offer) →
      Reserved journal.machine.provider journal.allocation.hourlyMicros
        (Table.update OperationRow.id journal.operations operation.id f) journal.attempts := by
    intro operation active f hid hcommand hoffer
    refine hr.rewrite operation.id hid hcommand hoffer ?_
    intro row hm hkey _
    rw [hkeyed.unique hm active.mem hkey]
    exact active.going
  have hlearns : ∀ {attempt : Attempt} (f : Attempt → Attempt), attempt ∈ journal.attempts →
      attempt.Learns (f attempt) → ∀ a ∈ journal.attempts,
        a.Learns (if a.id = attempt.id then f a else a) := by
    intro attempt f hm hf a ha
    by_cases hid : a.id = attempt.id
    · rw [if_pos hid, hs.attempts.keyed.unique ha hm hid]
      exact hf
    · rw [if_neg hid]
      exact .refl a
  cases change with
  | progress active progress going =>
    exact hrewrite active (fun row => { row with progress })
      (fun _ => rfl) (fun _ => rfl) (fun _ => rfl)
  | @prepare operation active live new fresh owner prepared pending now target authority =>
    refine Reserved.prepare hr hkeyed active.mem active.going ?_ owner authority.charged
    intro other ho hgo
    exact hs.operations.one other ho operation active.mem hgo active.going
  | @outcome attempt mem prepared submission unclaimed =>
    exact hr.learn (hlearns _ mem ⟨rfl, rfl, fun h => h⟩)
  | claim => exact hr
  | bind => exact hr
  | absent => exact hr
  | @settle operation active attempt mem pending resolution settled provider confirms =>
    refine hr.learn (hlearns (fun row => { row with resolution }) mem ⟨rfl, rfl, fun h => ?_⟩)
    rw [pending] at h
    cases h
  | compensate active create run error unserved =>
    exact hrewrite active (fun row => { row with intent := .compensate error })
      (fun _ => rfl) (fun _ => rfl) (fun _ => rfl)
  | failed active uncleaned idle date error machine provider standing retiredAt vacant =>
    have hrow := hrewrite active (fun row => { row with progress := .failed date error })
      (fun _ => rfl) (fun _ => rfl) (fun _ => rfl)
    rw [← provider] at hrow
    exact hrow
  | @completed operation active run kept idle date machine provider standing serverId offer completion =>
    have hrow := hrewrite active (fun row => { row with progress := .succeeded date })
      (fun _ => rfl) (fun _ => rfl) (fun _ => rfl)
    rw [← provider] at hrow
    have hoffers := @Reserved.offerOf_update journal.operations operation.id
      (fun row => { row with progress := .succeeded date }) (fun _ => rfl) (fun _ => rfl)
    have hcovers := completion.covers hs hr active
    rw [← hoffers] at hcovers
    exact hrow.complete (hover active rfl) hcovers
  | @cleaned operation active cleanup mem executor settled date machine provider =>
    have hrow := hrewrite active (fun row => { row with progress := cleanupEnd operation.kind date })
      (fun _ => rfl) (fun _ => rfl) (fun _ => rfl)
    rw [← provider] at hrow
    exact hrow
  | @takeover operation active create uncleaned live grantId version machine provider state =>
    have hrow := hrewrite active (fun row => { row with intent := .cleanup operation.id, progress := .cleaningUp })
      (fun _ => rfl) (fun _ => rfl) (fun _ => rfl)
    rw [← provider] at hrow
    exact hrow
  | @opened source mem create free live id fresh grantId version machine provider state =>
    have hfree : ∀ row ∈ journal.operations, row.terminal = true := by
      simpa [Journal.busy, Journal.active] using free
    have hkind : OperationKind.destroy ≠ .create := by decide
    have hrow := @Reserved.admitted _ _ _ _ hr hfree ⟨id, grantId, .destroy version true, none,
      .cleanup source.id, .cleaningUp, clock⟩ fresh hs.attempts.owner hkind _ (Nat.le_refl _) (by simp)
    rw [← provider] at hrow
    exact hrow
  | granted => exact hr
  | @closure operation active row ids kind inserted attempt mem target pending =>
    refine hr.learn (hlearns (fun a => { a with resolution := .operatorClosed row.id }) mem
      ⟨rfl, rfl, fun h => ?_⟩)
    rw [pending] at h
    cases h
  | @controlClosed operation active closure machine provider =>
    have hrow := hrewrite active (fun row => { row with
        progress := if operation.kind = .destroy then .succeeded clock else .cancelled clock })
      (fun _ => rfl) (fun _ => rfl) (fun _ => rfl)
    rw [← provider] at hrow
    refine hrow.learn fun a ha => ?_
    split
    next hpending =>
      refine ⟨rfl, rfl, fun h => ?_⟩
      rw [hpending.2] at h
      cases h
    next => exact .refl a

/-! ## Admissions and runs -/

/-- A reservation is only raised by an admission, and then covers the offer that was quoted. -/
theorem reserve_covers {limits : Limits} {catalog : Catalog} {env : Env} {account : Account}
    {principal : Principal} {command : LifecycleCommand} {offer : Option CatalogItem}
    (h : reserve limits catalog env journal account principal command = .ok (offer, journal')) :
    journal.allocation.hourlyMicros ≤ journal'.allocation.hourlyMicros ∧
      ∀ item, offer = some item → item.hourlyMicros ≤ journal'.allocation.hourlyMicros ∧
        (item.providerBackups = .disabled ↔ journal.machine.provider = .simulated) := by
  cases command with
  | resize version size =>
    simp only [reserve, reserveResize, updateAllocation, quoteOffer, bind_ok_iff, pure_ok_iff,
      refuse_ok_iff] at h
    obtain ⟨⟨quoted, reserved⟩, ⟨-, -, item, ⟨-, hprovider, hselect⟩, -, -, -, -, -, -, reserved', ⟨-, -, rfl⟩,
      hpair⟩, hjournal⟩ := h
    obtain ⟨rfl, rfl⟩ := Prod.mk.inj hpair
    obtain ⟨rfl, rfl⟩ := Prod.mk.inj hjournal
    refine ⟨Nat.le_max_left _ _, ?_⟩
    intro other hother
    obtain rfl := Option.some.inj hother
    rw [Decidable.not_not] at hprovider
    rw [← hprovider]
    exact ⟨Nat.le_max_right _ _, catalog.backups _ (selectOffer_mem hselect)⟩
  | create | reboot | powerOff | powerOn | destroy =>
    obtain ⟨rfl, rfl⟩ := Prod.mk.inj (Except.ok.inj h)
    exact ⟨Nat.le_refl _, fun item hitem => by cases hitem⟩

theorem admitAction_reserved (hs : Sound journal) (hr : journal.Reserved) {limits : Limits}
    {catalog : Catalog} {env : Env} {account : Account} {principal : Principal}
    {command : LifecycleCommand} {operation : OperationRow} (action : command.isAction = true)
    (h : admitAction limits catalog env journal account principal command =
      .ok (operation, journal')) : journal'.Reserved := by
  have hadmission := admission_of_ok action h
  simp only [admitAction, bind_ok_iff, pure_ok_iff, refuse_ok_iff, insertOperation] at h
  obtain ⟨-, -, -, -, -, -, -, -, -, -, ⟨offer, reserved⟩, hreserve, inserted, ⟨-, -, rfl⟩, hpair⟩ := h
  have hcovers := reserve_covers hreserve
  obtain ⟨hourlyMicros, rfl⟩ := reserve_ok hreserve
  obtain ⟨rfl, rfl⟩ := Prod.mk.inj hpair
  have hfree : ∀ row ∈ journal.operations, row.terminal = true := by
    simpa [Journal.busy, Journal.active] using hadmission.free
  have haction := hadmission.action
  simp only [LifecycleCommand.isAction, decide_eq_true_eq] at haction
  exact hr.admitted hfree hadmission.fresh hs.attempts.owner haction.1 hcovers.1 hcovers.2

theorem Born.reserved (h : Born journal) : journal.Reserved := by
  obtain ⟨machineId, allocationId, operationId, principal, projectId, spec, catalog, offer, date,
    profile, hoffer, rfl⟩ := h.born
  refine ⟨?_, ?_, ?_, ?_, ?_, ?_⟩
  · intro row hm item hitem
    obtain rfl := List.mem_singleton.mp hm
    obtain rfl := Option.some.inj hitem
    exact catalog.backups _ hoffer
  · intro row hm _ item hitem
    obtain rfl := List.mem_singleton.mp hm
    obtain rfl := Option.some.inj hitem
    exact Nat.le_refl _
  · intro row hm _ _ item hitem
    obtain rfl := List.mem_singleton.mp hm
    obtain rfl := Option.some.inj hitem
    rfl
  · intro attempt hm
    cases hm
  · intro row hm _
    exact ⟨[], [], rfl, by simp, by simp⟩
  · intro r hr
    cases hr

/-- Offers of one provider include its backups or none does, and nobody has backups that are not
    sold. -/
def Sold (provider : ProviderKind) (running : List Running) : Prop :=
  ∀ r ∈ running, (r.offer.providerBackups = .disabled ↔ provider = .simulated) ∧
    (r.backups = true → provider ≠ .simulated)

theorem Sold.after {provider : ProviderKind} (h : Sold provider running)
    (huniform : ∀ item, o = some item → (item.providerBackups = .disabled ↔ provider = .simulated))
    (hbackups : attempt.command.isEnableBackup = true → ∃ item, o = some item ∧
      item.providerBackups ≠ .disabled) : Sold provider (attempt.after o running) := by
  intro r hr
  have hall := after_subset (List.Subset.refl running) hr
  cases ho : o with
  | none =>
    rw [ho] at hall
    exact h r hall
  | some item =>
    rw [ho] at hall
    have hitem := huniform item ho
    have happly : ∀ r ∈ attempt.command.apply item running,
        (r.offer.providerBackups = .disabled ↔ provider = .simulated) ∧
          (r.backups = true → provider ≠ .simulated) := by
      intro r hr
      cases hcommand : attempt.command with
      | create | createGuest =>
        rw [hcommand] at hr
        obtain rfl := List.mem_singleton.mp hr
        exact ⟨hitem, fun hb => by cases hb⟩
      | resize =>
        rw [hcommand] at hr
        obtain ⟨before, hb, rfl⟩ := List.mem_map.mp hr
        exact ⟨hitem, (h before hb).2⟩
      | enableBackup serverId =>
        obtain ⟨other, hother, hdaily⟩ := hbackups (by rw [hcommand]; rfl)
        rw [hcommand] at hr
        obtain ⟨before, hb, rfl⟩ := List.mem_map.mp hr
        exact ⟨(h before hb).1, fun _ hs => hdaily ((huniform other hother).mpr hs)⟩
      | createPrimaryIp | reboot | powerOff | powerOn | deletePrimaryIp | destroy =>
        rw [hcommand] at hr
        cases hr
    unfold Attempt.afterAll at hall
    dsimp only at hall
    split at hall
    · exact happly r hall
    · rcases List.mem_append.mp hall with hall | hall
      · exact h r hall
      · exact happly r hall

namespace Demo

end Demo

end AgentCloud.Lifecycle
