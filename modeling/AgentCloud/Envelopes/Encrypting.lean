/-
  ENCRYPTING: what a call of `encryptBackup` leaves, however it ends.

  `Lost` is what a program owes when it throws: some fact about the store, which no failure breaks,
  and that a step has failed unless the input was refused.  One rule for steps and one for checks
  carry it through a program.

  The store is `Sound` between any two steps but the wrapping of the key and the return of the
  envelope; what lies between is a check that an envelope of a backup with bytes passes.
-/
import AgentCloud.Envelopes.Sealing

namespace AgentCloud.Envelopes

open Checked Durable

variable {sha256 : Bytes → String} {w : World interface}

/-! ## Rules -/

/-- It threw: `I` holds of the store, and something failed if `φ` holds. -/
def Lost (I : Store → Prop) (φ : Prop) : Fault → World interface → Prop :=
  fun _ w => I w.store ∧ (φ → w.store.failed = true)

/-- No failure breaks it. -/
def Steady (I : Store → Prop) : Prop := ∀ s, I s → I { s with failed := true }

variable {I : Store → Prop} {φ : Prop} {α : Type}

theorem operate_safe {f : Env → Store → Option (Except Fault (α × Store))}
    {Q : α → World interface → Prop} (hsteady : Steady I) (hI : I w.store)
    (herror : ∀ env e, f env w.store = some (.error e) → ¬ φ)
    (hok : ∀ env a s, f env w.store = some (.ok (a, s)) → Q a (w.put s)) :
    Safe (alone interface) () (Told Q (Lost I φ)) (operate f) w := by
  refine Safe.bind (Safe.transact fun v hv _ env => ?_)
  obtain rfl : v = w := hv
  constructor
  · intro e he
    revert he
    split
    · simp
    · simp
    · simp
  · intro a s hs
    revert hs
    split
    · intro hs
      obtain ⟨rfl, rfl⟩ := by simpa using hs
      exact ⟨trivial, hsteady _ hI, fun _ => rfl⟩
    · rename_i e he
      intro hs
      obtain ⟨rfl, rfl⟩ := by simpa using hs
      have hf : f env v.store = some (.error e) := by
        revert he
        split <;> simp
      exact ⟨trivial, hI, fun hφ => absurd hφ (herror env e hf)⟩
    · rename_i b s' he
      intro hs
      obtain ⟨rfl, rfl⟩ := by simpa using hs
      have hf : f env v.store = some (.ok (b, s')) := by
        revert he
        split <;> simp
      exact ⟨trivial, hok env b s' hf⟩

theorem refuseIf_safe {c : Prop} [Decidable c] {message : String}
    {Q : Unit → World interface → Prop} (herror : c → I w.store ∧ ¬ φ) (hok : ¬ c → Q () w) :
    Safe (alone interface) () (Told Q (Lost I φ)) (refuseIf c message) w := by
  by_cases hc : c
  · rw [refuseIf, refuse, if_pos hc]
    exact ⟨(herror hc).1, fun hφ => absurd hφ (herror hc).2⟩
  · rw [refuseIf, refuse, if_neg hc]
    exact hok hc

theorem ofExcept_safe {r : Except Fault α} {Q : α → World interface → Prop} (hI : I w.store)
    (herror : ∀ e, r = .error e → ¬ φ) (hok : ∀ a, r = .ok a → Q a w) :
    Safe (alone interface) () (Told Q (Lost I φ)) (Prog.ofExcept r) w := by
  cases r with
  | ok a => exact hok a rfl
  | error e => exact ⟨hI, fun hφ => absurd hφ (herror e rfl)⟩

variable {β : Type}

/-- A step, and what follows it. -/
theorem operate_then {f : Env → Store → Option (Except Fault (α × Store))} {next : α → Program β}
    {Q : β → World interface → Prop} (hsteady : Steady I) (hI : I w.store)
    (herror : ∀ env e, f env w.store = some (.error e) → ¬ φ)
    (hok : ∀ env a s, f env w.store = some (.ok (a, s)) →
      Safe (alone interface) () (Told Q (Lost I φ)) (next a) (w.put s)) :
    Safe (alone interface) () (Told Q (Lost I φ)) ((operate f).bind next) w :=
  Safe.seq (operate_safe (Q := fun a v => Safe (alone interface) () (Told Q (Lost I φ)) (next a) v)
    hsteady hI herror hok) fun _ _ h => h

/-- A check, and what follows it. -/
theorem refuseIf_then {c : Prop} [Decidable c] {message : String} {next : Unit → Program β}
    {Q : β → World interface → Prop} (herror : c → I w.store ∧ ¬ φ)
    (hok : ¬ c → Safe (alone interface) () (Told Q (Lost I φ)) (next ()) w) :
    Safe (alone interface) () (Told Q (Lost I φ)) ((refuseIf c message).bind next) w :=
  Safe.seq (refuseIf_safe (Q := fun a v => Safe (alone interface) () (Told Q (Lost I φ)) (next a) v)
    herror hok) fun _ _ h => h

theorem ofExcept_then {r : Except Fault α} {next : α → Program β} {Q : β → World interface → Prop}
    (hI : I w.store) (herror : ∀ e, r = .error e → ¬ φ)
    (hok : ∀ a, r = .ok a → Safe (alone interface) () (Told Q (Lost I φ)) (next a) w) :
    Safe (alone interface) () (Told Q (Lost I φ)) ((Prog.ofExcept r).bind next) w :=
  Safe.seq (ofExcept_safe (Q := fun a v => Safe (alone interface) () (Told Q (Lost I φ)) (next a) v)
    hI herror hok) fun _ _ h => h

/-- A value that is drawn, and what follows. -/
theorem draw_then {c : Env → Store → Prop} [∀ env s, Decidable (c env s)] {x : Env → α}
    {next : α → Program β} {Q : β → World interface → Prop} (hsteady : Steady I) (hI : I w.store)
    (hok : ∀ env, c env w.store → Safe (alone interface) () (Told Q (Lost I φ)) (next (x env)) w) :
    Safe (alone interface) () (Told Q (Lost I φ))
      ((operate fun env s => if c env s then some (.ok (x env, s)) else none).bind next) w := by
  refine operate_then hsteady hI ?_ ?_
  · intro env e h
    split at h <;> simp at h
  · intro env a s h
    split at h
    · rename_i hc
      obtain ⟨rfl, rfl⟩ := by simpa using h
      exact hok env hc
    · simp at h

/-- A file that is there, and what follows. -/
theorem persist_then {path : String} {next : Unit → Program β} {Q : β → World interface → Prop}
    (hsteady : Steady I) (hI : I w.store) (hthere : (w.store.files path).isSome = true)
    (hok : Safe (alone interface) () (Told Q (Lost I φ)) (next ()) w) :
    Safe (alone interface) () (Told Q (Lost I φ)) ((persist path).bind next) w := by
  refine operate_then hsteady hI ?_ ?_
  · intro env e h
    rw [if_pos hthere] at h
    simp at h
  · intro env a s h
    rw [if_pos hthere] at h
    obtain ⟨rfl, rfl⟩ := by simpa using h
    exact hok

/-- A box that is sealed, and what follows. -/
theorem sealBox_then {holds : Holds} {key iv plaintext : Bytes} {aad : Binding}
    {next : Bytes × Bytes → Program β} {Q : β → World interface → Prop} (hsteady : Steady I)
    (hI : I w.store)
    (hok : ∀ sealed : Bytes × Bytes, sealed.1.length = plaintext.length → sealed.2.length = 16 →
      openBox w.store.boxes key iv aad sealed.1 sealed.2 = none →
      Safe (alone interface) () (Told Q (Lost I φ)) (next sealed)
        (w.put { w.store with
          boxes := w.store.boxes ++ [⟨holds, key, iv, aad, sealed.1, sealed.2, plaintext⟩] })) :
    Safe (alone interface) () (Told Q (Lost I φ)) ((sealBox holds key iv aad plaintext).bind next)
      w := by
  refine operate_then hsteady hI ?_ ?_
  · intro env e h
    split at h <;> simp at h
  · intro env sealed s h
    split at h
    · rename_i hnew
      obtain ⟨rfl, rfl⟩ := by simpa using h
      exact hok _ hnew.1 hnew.2.1 hnew.2.2
    · simp at h

/-- Removing a file on the way out. -/
theorem orRemove_safe {path : String} {p : Program α} {Q : α → World interface → Prop}
    (hsteady : Steady I) (hremove : ∀ s, I s → I (s.write path none))
    (h : Safe (alone interface) () (Told Q (Lost I φ)) p w) :
    Safe (alone interface) () (Told Q (Lost I φ)) (orRemove path p) w := by
  refine Safe.handle h fun e v hv => ?_
  refine Safe.seq (operate_safe hsteady hv.1 (by simp) ?_) fun _ u hu => hu
  intro env a s hs
  obtain ⟨rfl, rfl⟩ := by simpa using hs
  exact ⟨hremove _ hv.1, hv.2⟩

/-- What fits into the limit passes. -/
theorem measured_ok {maximum bytes : Nat} {chunks : List Bytes}
    (h : bytes + chunks.flatten.length ≤ maximum) : measured maximum bytes chunks = .ok () := by
  induction chunks generalizing bytes with
  | nil => rfl
  | cons chunk chunks ih =>
    rw [List.flatten_cons, List.length_append] at h
    have hpasses : ¬ maximum < bytes + chunk.length := by omega
    rw [measured, refuse, if_neg hpasses]
    exact ih (by omega)

/-! ## The store of an encryption -/

/-- The store is in order, and no encryption is forgotten. -/
structure Kept (sha256 : Bytes → String) (issued : List Issue) (s : Store) : Prop where
  sound : Sound sha256 s.boxes s.issued
  remembers : ∀ issue ∈ issued, issue ∈ s.issued

theorem Kept.steady {issued : List Issue} : Steady (Kept sha256 issued) :=
  fun _ h => ⟨h.sound, h.remembers⟩

theorem Kept.write {issued : List Issue} {s : Store} (h : Kept sha256 issued s) (path : String)
    (file : Option File) : Kept sha256 issued (s.write path file) :=
  ⟨h.sound, h.remembers⟩

@[simp] theorem write_files (s : Store) (path : String) (file : Option File) :
    (s.write path file).files path = file := by
  simp [Store.write]

theorem write_files_of_ne (s : Store) {path other : String} (file : Option File)
    (h : other ≠ path) : (s.write path file).files other = s.files other := by
  simp [Store.write, h]

/-! ## Keyrings -/

theorem Keyring.mem_of_key {keyring : Keyring} {version : String} {key : Bytes}
    (h : keyring.key version = some key) : (version, key) ∈ keyring.keys := by
  obtain ⟨entry, hfind, hkey⟩ := Option.map_eq_some_iff.mp h
  have hversion := List.find?_some hfind
  have hmem := List.mem_of_find?_eq_some hfind
  rw [← hkey, ← of_decide_eq_true hversion]
  exact hmem

theorem Keyring.valid_key {keyring : Keyring} {version : String} {key : Bytes}
    (hvalid : isKeyring keyring = true) (h : keyring.key version = some key) :
    isKeyVersion version = true ∧ key.length = 32 := by
  simp only [isKeyring, Bool.and_eq_true, List.all_eq_true, decide_eq_true_eq] at hvalid
  exact hvalid.1 _ (mem_of_key h)

/-! ## The call -/

/-- What `encryptBackup` takes: an input in the range of its schemas, a source with bytes and within
    the limit, and a destination that does not exist. -/
structure Admissible (input : EncryptInput) (s : Store) : Prop where
  keyring : isKeyring input.keyring = true
  manifest : isDigest input.binding.manifestSha256 = true
  maximum : isMaximum input.maxBytes = true
  nonempty : input.source.flatten ≠ []
  within : input.source.flatten.length ≤ input.maxBytes
  free : s.files input.destination = none

/-- The encryption of the source, at the destination. -/
structure Encrypted (sha256 : Bytes → String) (input : EncryptInput) (encryption : Encryption)
    (s : Store) (issue : Issue) : Prop where
  issued : issue ∈ s.issued
  keyVersion : encryption.keyVersion = input.keyring.current
  binding : encryption.binding = input.binding
  plaintextBytes : encryption.plaintextBytes = input.source.flatten.length
  plaintextSha256 : encryption.plaintextSha256 = sha256 input.source.flatten
  encryption : issue.encryption = encryption
  plaintext : issue.plaintext = input.source.flatten
  masterKey : input.keyring.key input.keyring.current = some issue.masterKey
  destination : s.files input.destination = some (ownFile issue.ciphertext)

def Returned (sha256 : Bytes → String) (input : EncryptInput) (issued : List Issue)
    (encryption : Encryption) (w : World interface) : Prop :=
  Kept sha256 issued w.store ∧ ∃ issue, Encrypted sha256 input encryption w.store issue

/-- The envelope of two boxes passes the schema if the backup is not empty. -/
theorem isEncryption_envelopeOf {keyVersion : String} {outer inner : Box}
    (hhex : ∀ bytes, isDigest (sha256 bytes) = true) (hversion : isKeyVersion keyVersion = true)
    (hmanifest : isDigest inner.aad.manifestSha256 = true) (hiv : inner.iv.length = 12)
    (htag : inner.tag.length = 16) (hwrapped : outer.ciphertext.length = 32)
    (hwrappingIv : outer.iv.length = 12) (hwrappingTag : outer.tag.length = 16)
    (hlength : inner.ciphertext.length = inner.plaintext.length) :
    isEncryption (envelopeOf sha256 keyVersion outer inner) = true ↔ inner.plaintext ≠ [] := by
  simp [isEncryption, envelopeOf, hhex, hversion, hmanifest, hiv, htag, hwrapped, hwrappingIv,
    hwrappingTag, hlength, List.length_pos_iff]

section

variable {input : EncryptInput} {issued : List Issue} {dataKey masterKey iv wrappingIv : Bytes}
  {boxes : List Box} {sealed : Bytes × Bytes}

/-- What the call has drawn and found before it creates the destination. -/
structure Ready (input : EncryptInput) (boxes : List Box)
    (dataKey masterKey iv wrappingIv : Bytes) : Prop where
  keyring : isKeyring input.keyring = true
  manifest : isDigest input.binding.manifestSha256 = true
  apart : Apart input.keyring boxes
  length : dataKey.length = 32
  fresh : dataKey ∉ boxes.map Box.key
  secret : dataKey ∉ input.keyring.keys.map Prod.snd
  masterKey : input.keyring.key input.keyring.current = some masterKey
  iv : iv.length = 12
  wrappingIv : wrappingIv.length = 12

/-- The box of the backup. -/
def innerBox (input : EncryptInput) (dataKey iv : Bytes) (sealed : Bytes × Bytes) : Box :=
  ⟨.backup, dataKey, iv, input.binding, sealed.1, sealed.2, input.source.flatten⟩

/-- The box of its key. -/
def outerBox (input : EncryptInput) (dataKey masterKey wrappingIv : Bytes)
    (wrapped : Bytes × Bytes) : Box :=
  ⟨.key, masterKey, wrappingIv, input.binding, wrapped.1, wrapped.2, dataKey⟩

/-- The wrapping key is the data key of no backup, the new one included. -/
theorem Ready.unused (h : Ready input boxes dataKey masterKey iv wrappingIv) :
    ∀ box ∈ boxes ++ [innerBox input dataKey iv sealed], box.holds = .backup →
      box.key ≠ masterKey := by
  have hmaster : masterKey ∈ input.keyring.keys.map Prod.snd :=
    List.mem_map_of_mem (f := Prod.snd) (Keyring.mem_of_key h.masterKey)
  intro box hm hholds hkey
  rcases List.mem_append.mp hm with hm | hm
  · exact h.apart box hm hholds (hkey ▸ hmaster)
  · rw [List.mem_singleton.mp hm] at hkey
    have hsame : dataKey = masterKey := hkey
    exact h.secret (hsame ▸ hmaster)

theorem wrapKey_safe (hhex : ∀ bytes, isDigest (sha256 bytes) = true)
    (hready : Ready input boxes dataKey masterKey iv wrappingIv)
    (hboxes : w.store.boxes = boxes ++ [innerBox input dataKey iv sealed])
    (hkept : Kept sha256 issued w.store) (hlength : sealed.1.length = input.source.flatten.length)
    (htag : sealed.2.length = 16)
    (hfile : w.store.files input.destination = some (ownFile sealed.1))
    (hφ : φ → input.source.flatten ≠ []) :
    Safe (alone interface) () (Told (Returned sha256 input issued) (Lost (Kept sha256 issued) φ))
      (wrapKey sha256 input dataKey masterKey iv wrappingIv sealed) w := by
  have hversion := (Keyring.valid_key hready.keyring hready.masterKey).1
  have hinner : innerBox input dataKey iv sealed ∈ w.store.boxes := by simp [hboxes]
  have hunused := @Ready.unused _ _ _ _ _ _ sealed hready
  rw [← hboxes] at hunused
  refine sealBox_then Kept.steady hkept fun wrapped hwrapped hwrappedTag hnew => ?_
  have hpair : Pair (outerBox input dataKey masterKey wrappingIv wrapped)
      (innerBox input dataKey iv sealed) := ⟨rfl, rfl, rfl, rfl, hlength⟩
  have hvalid := @isEncryption_envelopeOf sha256 input.keyring.current
    (outerBox input dataKey masterKey wrappingIv wrapped) (innerBox input dataKey iv sealed) hhex hversion hready.manifest hready.iv htag
    (hwrapped.trans hready.length) hready.wrappingIv hwrappedTag hlength
  refine refuseIf_then ?_ ?_
  · -- a wrapped key without an envelope is the key of an empty backup
    intro hinvalid
    have hempty : input.source.flatten = [] :=
      Decidable.byContradiction fun hne =>
        Bool.false_ne_true (hinvalid.symm.trans (hvalid.mpr hne))
    have hsound : Sound sha256 (w.store.boxes ++ [outerBox input dataKey masterKey wrappingIv wrapped])
        (w.store.issued ++ []) :=
      hkept.sound.wrap hinner hpair hunused hnew (by simp) fun _ => hempty
    rw [List.append_nil] at hsound
    exact ⟨⟨hsound, hkept.remembers⟩, fun h => hφ h hempty⟩
  · intro hnot
    have hgood : isEncryption (envelopeOf sha256 input.keyring.current
        (outerBox input dataKey masterKey wrappingIv wrapped)
        (innerBox input dataKey iv sealed)) = true := eq_true_of_ne_false hnot
    have hsound : Sound sha256 (w.store.boxes ++ [outerBox input dataKey masterKey wrappingIv wrapped])
        (w.store.issued ++ [⟨envelopeOf sha256 input.keyring.current
          (outerBox input dataKey masterKey wrappingIv wrapped) (innerBox input dataKey iv sealed),
          sealed.1, input.source.flatten, masterKey⟩]) := hkept.sound.wrap hinner hpair hunused hnew
      (by
        intro issue hm
        rw [List.mem_singleton.mp hm]
        exact ⟨hgood, hpair, rfl, rfl, rfl, rfl⟩)
      (by simp)
    refine Safe.transact fun v hv _ env => ?_
    obtain rfl : v = _ := hv
    refine ⟨fun e he => by simp at he, fun a s hs => ?_⟩
    simp only [Except.ok.injEq, Prod.mk.injEq] at hs
    obtain ⟨rfl, rfl⟩ := hs
    exact ⟨trivial, ⟨hsound, fun issue hm => List.mem_append_left _ (hkept.remembers issue hm)⟩,
      _, List.mem_append_right _ (List.mem_singleton.mpr rfl), rfl, rfl, rfl, rfl, rfl, rfl,
      hready.masterKey, hfile⟩

/-- The run from the destination's creation on. -/
theorem encryptInto_safe (hhex : ∀ bytes, isDigest (sha256 bytes) = true)
    (hready : Ready input w.store.boxes dataKey masterKey iv wrappingIv)
    (hkept : Kept sha256 issued w.store) {s : Store} (hφ : φ → Admissible input s) :
    Safe (alone interface) () (Told (Returned sha256 input issued) (Lost (Kept sha256 issued) φ))
      (encryptInto sha256 input dataKey masterKey iv wrappingIv) w := by
  refine ofExcept_then hkept ?_ fun _ _ => ?_
  · intro e he h
    have hwithin := (hφ h).within
    rw [measured_ok (by omega)] at he
    cases he
  refine sealBox_then Kept.steady hkept fun sealed hlength htag hnew => ?_
  have hsound : Sound sha256 (w.store.boxes ++ [innerBox input dataKey iv sealed]) w.store.issued :=
    hkept.sound.backup rfl hready.fresh hnew
  have hkept' : Kept sha256 issued { w.store with
      boxes := w.store.boxes ++ [innerBox input dataKey iv sealed] } := ⟨hsound, hkept.remembers⟩
  refine ofExcept_then hkept' ?_ fun _ _ => ?_
  · intro e he h
    have hwithin := (hφ h).within
    rw [measured_ok (by simpa [hlength] using hwithin)] at he
    cases he
  refine operate_then Kept.steady hkept' (by simp) fun env _ s hs => ?_
  simp only [Option.some.injEq, Except.ok.injEq, Prod.mk.injEq] at hs
  obtain ⟨-, rfl⟩ := hs
  refine persist_then Kept.steady (hkept'.write _ _) (by simp) ?_
  exact wrapKey_safe hhex hready rfl (hkept'.write _ _) hlength htag (write_files _ _ _)
    fun h => (hφ h).nonempty

/-- **Encrypting.** The call leaves the store in order however it ends.  It returns an encryption of
    its source, and it does return unless a step fails or the input is refused. -/
theorem encryptBackup_safe (hhex : ∀ bytes, isDigest (sha256 bytes) = true)
    (hsound : Sound sha256 w.store.boxes w.store.issued)
    (hapart : Apart input.keyring w.store.boxes) :
    Safe (alone interface) () (Told (Returned sha256 input w.store.issued)
      (Lost (Kept sha256 w.store.issued) (Admissible input w.store)))
      (encryptBackup sha256 input) w := by
  have hkept : Kept sha256 w.store.issued w.store := ⟨hsound, fun _ h => h⟩
  refine refuseIf_then (fun hbad => ⟨hkept, fun hin => ?_⟩) fun hkeyring => ?_
  · rw [hin.keyring] at hbad
    cases hbad
  refine refuseIf_then (fun hbad => ⟨hkept, fun hin => ?_⟩) fun hmanifest => ?_
  · rw [hin.manifest] at hbad
    cases hbad
  refine refuseIf_then (fun hbad => ⟨hkept, fun hin => ?_⟩) fun hmaximum => ?_
  · rw [hin.maximum] at hbad
    cases hbad
  refine draw_then Kept.steady hkept fun drawn hdrawn => ?_
  refine ofExcept_then hkept ?_ fun masterKey hmaster => ?_
  · intro e he hin
    have hcurrent := hin.keyring
    rw [isKeyring, Bool.and_eq_true, Option.isSome_iff_exists] at hcurrent
    obtain ⟨-, key, hkey⟩ := hcurrent
    rw [wrappingKey, hkey] at he
    cases he
  refine draw_then Kept.steady hkept fun first hiv => ?_
  refine draw_then Kept.steady hkept fun second hwrappingIv => ?_
  have hready : Ready input w.store.boxes drawn.random masterKey first.random second.random :=
    ⟨eq_true_of_ne_false hkeyring, eq_true_of_ne_false hmanifest, hapart, hdrawn.1, hdrawn.2.1,
      hdrawn.2.2, present_ok_iff.mp hmaster, hiv, hwrappingIv⟩
  refine operate_then Kept.steady hkept ?_ fun env _ s hs => ?_
  · intro env e he hin
    rw [hin.free] at he
    simp at he
  split at hs
  · simp at hs
  · simp only [Option.some.injEq, Except.ok.injEq, Prod.mk.injEq] at hs
    obtain ⟨-, rfl⟩ := hs
    refine orRemove_safe Kept.steady (fun s hs => hs.write _ _) ?_
    exact encryptInto_safe hhex hready (hkept.write _ _) fun h => h

end

end AgentCloud.Envelopes
