/-
  RESTORING: what a call of `decryptBackup` leaves, and the envelope over whole histories.

  `Genuine` is the claim of an input on an encryption that was returned.  The plaintext becomes the
  destination by a link at the end of `decryptInto`; by then two boxes have been opened, and the input
  is genuine (`Sound.genuine`).  Up to then the destination is what it was before the call.

  Between the calls the files are anybody's: a history is any number of encryptions, with the files
  changed in any way in between.
-/
import AgentCloud.Envelopes.Encrypting

namespace AgentCloud.Envelopes

open Checked Durable

variable {sha256 : Bytes → String} {w : World interface}

/-! ## The input of a restore -/

/-- The input asks for this encryption: the key version is a name for the key it was wrapped with. -/
structure Genuine (input : DecryptInput) (s : Store) (issue : Issue) : Prop where
  issued : issue ∈ s.issued
  encryption :
    input.encryption = { issue.encryption with keyVersion := input.encryption.keyVersion }
  binding : input.binding = issue.encryption.binding
  masterKey : input.keyring.key input.encryption.keyVersion = some issue.masterKey
  ciphertext : ∃ file, s.files input.source = some file ∧ file.bytes = issue.ciphertext

/-- What `decryptBackup` takes besides: a limit, a private file of its own, and free names. -/
structure Restorable (input : DecryptInput) (s : Store) : Prop where
  keyring : isKeyring input.keyring = true
  maximum : isMaximum input.maxBytes = true
  plaintext : input.encryption.plaintextBytes ≤ input.maxBytes
  ciphertext : input.encryption.ciphertextBytes ≤ input.maxBytes
  source : ∀ file, s.files input.source = some file →
    file.regular = true ∧ file.owned = true ∧ file.isPrivate = true
  free : s.files input.destination = none
  temporary : ∀ random, s.files (temporaryName input.destination random) = none

/-- A genuine input that is taken. -/
def Fine (input : DecryptInput) (s : Store) : Prop :=
  (∃ issue, Genuine input s issue) ∧ Restorable input s

/-- The destination is what it was, unless the input is genuine. -/
structure Untouched (input : DecryptInput) (s s' : Store) : Prop where
  boxes : s'.boxes = s.boxes
  issued : s'.issued = s.issued
  destination : s'.files input.destination = s.files input.destination ∨
    ∃ issue, Genuine input s issue

/-- The plaintext is at the destination. -/
def Recovered (input : DecryptInput) (s : Store) (_ : Unit) (w : World interface) : Prop :=
  Untouched input s w.store ∧ ∃ issue, Genuine input s issue ∧
    w.store.files input.destination = some (ownFile issue.plaintext)

theorem Untouched.same {input : DecryptInput} {s : Store} : Untouched input s s :=
  ⟨rfl, rfl, .inl rfl⟩

theorem Untouched.steady {input : DecryptInput} {s : Store} : Steady (Untouched input s) :=
  fun _ h => ⟨h.boxes, h.issued, h.destination⟩

theorem temporaryName_ne (destination random : String) :
    destination ≠ temporaryName destination random := by
  intro h
  have hlength := congrArg (fun text => text.toList.length) h
  simp [temporaryName] at hlength

theorem Untouched.write {input : DecryptInput} {s s' : Store} (h : Untouched input s s')
    (random : String) (file : Option File) :
    Untouched input s (s'.write (temporaryName input.destination random) file) :=
  ⟨h.boxes, h.issued, h.destination.imp_left fun hsame =>
    (write_files_of_ne s' file (temporaryName_ne _ _)).trans hsame⟩

/-! ## Steps -/

section

variable {I : Store → Prop} {φ : Prop} {β : Type}

/-- A plaintext that is written out, and what follows. -/
theorem decipher_then {path : String} {encryption : Encryption} {binding : Binding}
    {dataKey ciphertext : Bytes} {next : Bytes → Program β} {Q : β → World interface → Prop}
    (hsteady : Steady I) (hI : I w.store)
    (herror : openBox w.store.boxes dataKey encryption.iv binding ciphertext encryption.tag = none →
      ¬ φ)
    (hok : ∀ plaintext, openBox w.store.boxes dataKey encryption.iv binding ciphertext
      encryption.tag = some plaintext → Safe (alone interface) () (Told Q (Lost I φ))
        (next plaintext) (w.put (w.store.write path (some (ownFile plaintext))))) :
    Safe (alone interface) () (Told Q (Lost I φ))
      ((decipher path encryption binding dataKey ciphertext).bind next) w := by
  refine operate_then hsteady hI ?_ ?_
  · intro env e h
    split at h
    · rename_i hnone
      exact herror hnone
    · simp at h
  · intro env a s h
    split at h
    · simp at h
    · rename_i plaintext hopen
      obtain ⟨rfl, rfl⟩ := by simpa using h
      exact hok _ hopen

/-- A file that gets a second name, and what follows. -/
theorem link_then {path target : String} {file : File} {next : Unit → Program β}
    {Q : β → World interface → Prop} (hsteady : Steady I) (hI : I w.store)
    (hfile : w.store.files path = some file) (herror : w.store.files target ≠ none → ¬ φ)
    (hok : Safe (alone interface) () (Told Q (Lost I φ)) (next ())
      (w.put (w.store.write target (some file)))) :
    Safe (alone interface) () (Told Q (Lost I φ)) ((link path target).bind next) w := by
  refine operate_then hsteady hI ?_ ?_
  · intro env e h
    simp only [hfile] at h
    split at h
    · rename_i hsome
      exact herror fun hnone => by simp [hnone] at hsome
    · simp at h
  · intro env a s h
    simp only [hfile] at h
    split at h
    · simp at h
    · obtain ⟨rfl, rfl⟩ := by simpa using h
      exact hok

end

/-! ## What a genuine input opens -/

/-- The boxes of a genuine input open, and hold what the envelope tells. -/
theorem Genuine.opens {input : DecryptInput} {s : Store} {issue : Issue}
    (h : Genuine input s issue) (hsound : Sound sha256 s.boxes s.issued) :
    ∃ dataKey, openBox s.boxes issue.masterKey input.encryption.wrappingIv input.binding
        input.encryption.wrappedKey input.encryption.wrappingTag = some dataKey ∧
      openBox s.boxes dataKey input.encryption.iv input.binding issue.ciphertext
        input.encryption.tag = some issue.plaintext ∧
      issue.plaintext.length = input.encryption.plaintextBytes ∧
      sha256 issue.plaintext = input.encryption.plaintextSha256 ∧
      issue.ciphertext.length = input.encryption.ciphertextBytes ∧
      sha256 issue.ciphertext = input.encryption.ciphertextSha256 := by
  obtain ⟨-, outer, houter, inner, hinner, hof⟩ := hsound.issues issue h.issued
  have hopens := hsound.opens outer houter
  have hopens' := hsound.opens inner hinner
  have henvelope := h.encryption
  rw [hof.encryption] at henvelope
  have hbinding : input.binding = inner.aad := by
    rw [h.binding, hof.encryption]
    rfl
  refine ⟨inner.key, ?_, ?_, ?_, ?_, ?_, ?_⟩
  · rw [henvelope, hbinding, ← hof.masterKey, ← hof.aad, ← hof.key]
    exact hopens
  · rw [henvelope, hbinding, ← hof.ciphertext, ← hof.plaintext]
    exact hopens'
  · rw [henvelope, ← hof.plaintext]
    rfl
  · rw [henvelope, ← hof.plaintext]
    rfl
  · rw [henvelope, ← hof.ciphertext]
    rfl
  · rw [henvelope, ← hof.ciphertext]
    rfl

/-- An input is genuine for one plaintext. -/
theorem Genuine.plaintext_eq {input : DecryptInput} {s : Store} {issue other : Issue}
    (h : Genuine input s issue) (hsound : Sound sha256 s.boxes s.issued)
    (h' : Genuine input s other) : issue.plaintext = other.plaintext := by
  obtain ⟨key, hunwrap, hopen, -⟩ := h.opens hsound
  obtain ⟨key', hunwrap', hopen', -⟩ := h'.opens hsound
  obtain ⟨file, hfile, hbytes⟩ := h.ciphertext
  obtain ⟨file', hfile', hbytes'⟩ := h'.ciphertext
  have hmaster : issue.masterKey = other.masterKey :=
    Option.some.inj (h.masterKey.symm.trans h'.masterKey)
  have hciphertext : issue.ciphertext = other.ciphertext := by
    rw [← hbytes, ← hbytes', Option.some.inj (hfile.symm.trans hfile')]
  rw [hmaster] at hunwrap
  rw [hciphertext, Option.some.inj (hunwrap.symm.trans hunwrap')] at hopen
  exact Option.some.inj (hopen.symm.trans hopen')

theorem Genuine.valid {input : DecryptInput} {s : Store} {issue : Issue}
    (h : Genuine input s issue) (hsound : Sound sha256 s.boxes s.issued)
    (hkeyring : isKeyring input.keyring = true) : isEncryption input.encryption = true := by
  obtain ⟨hvalid, -⟩ := hsound.issues issue h.issued
  have hversion := (Keyring.valid_key hkeyring h.masterKey).1
  rw [h.encryption]
  simp only [isEncryption, Bool.and_eq_true] at hvalid ⊢
  simp only [hvalid, hversion, and_self]

section

variable {input : DecryptInput} {s : Store} {masterKey dataKey : Bytes} {file : File}

/-- What the call has found before it creates the temporary file. -/
structure Unwrapped (input : DecryptInput) (s : Store) (masterKey dataKey : Bytes) (file : File) :
    Prop where
  encryption : isEncryption input.encryption = true
  binding : input.binding = input.encryption.binding
  wrapping : input.keyring.key input.encryption.keyVersion = some masterKey
  opens : openBox s.boxes masterKey input.encryption.wrappingIv input.binding
    input.encryption.wrappedKey input.encryption.wrappingTag = some dataKey
  source : s.files input.source = some file

/-- A fine input decrypts, within the limit and to what the envelope tells. -/
theorem Unwrapped.decrypts (h : Unwrapped input s masterKey dataKey file)
    (hsound : Sound sha256 s.boxes s.issued) (hfine : Fine input s) :
    ∃ plaintext, openBox s.boxes dataKey input.encryption.iv input.binding file.bytes
        input.encryption.tag = some plaintext ∧
      file.bytes.length ≤ input.maxBytes ∧ plaintext.length ≤ input.maxBytes ∧
      plaintext.length = input.encryption.plaintextBytes ∧
      sha256 plaintext = input.encryption.plaintextSha256 ∧
      file.bytes.length = input.encryption.ciphertextBytes ∧
      sha256 file.bytes = input.encryption.ciphertextSha256 := by
  obtain ⟨⟨issue, hgenuine⟩, hrestorable⟩ := hfine
  obtain ⟨key, hunwrap, hopen, hplain, hplainSha, hcipher, hcipherSha⟩ := hgenuine.opens hsound
  obtain ⟨found, hfound, hbytes⟩ := hgenuine.ciphertext
  have hfile : found = file := Option.some.inj (hfound.symm.trans h.source)
  have hmaster : issue.masterKey = masterKey :=
    Option.some.inj (hgenuine.masterKey.symm.trans h.wrapping)
  rw [hmaster] at hunwrap
  have hkey : key = dataKey := Option.some.inj (hunwrap.symm.trans h.opens)
  rw [hkey, ← hbytes, hfile] at hopen
  rw [← hbytes, hfile] at hcipher hcipherSha
  have hwithin := hrestorable.ciphertext
  have hwithin' := hrestorable.plaintext
  exact ⟨issue.plaintext, hopen, by omega, by omega, hplain, hplainSha, hcipher, hcipherSha⟩

/-- What passes the tags, the sizes and the digests was returned. -/
theorem Unwrapped.genuine (h : Unwrapped input s masterKey dataKey file)
    (hsound : Sound sha256 s.boxes s.issued) (hapart : Apart input.keyring s.boxes)
    {plaintext : Bytes}
    (hopen : openBox s.boxes dataKey input.encryption.iv input.binding file.bytes
      input.encryption.tag = some plaintext)
    (hsame : ¬ (plaintext.length ≠ input.encryption.plaintextBytes ∨
      sha256 plaintext ≠ input.encryption.plaintextSha256 ∨
      file.bytes.length ≠ input.encryption.ciphertextBytes ∨
      sha256 file.bytes ≠ input.encryption.ciphertextSha256)) :
    ∃ issue, Genuine input s issue ∧ issue.plaintext = plaintext := by
  simp only [not_or, ne_eq, Decidable.not_not] at hsame
  obtain ⟨hplain, hplainSha, hcipher, hcipherSha⟩ := hsame
  have hmem : masterKey ∈ input.keyring.keys.map Prod.snd :=
    List.mem_map_of_mem (f := Prod.snd) (Keyring.mem_of_key h.wrapping)
  obtain ⟨issue, hissue, hciphertext, hplaintext, hmaster, hbinding, hencryption⟩ :=
    hsound.genuine hapart hmem h.opens hopen h.encryption h.binding hplain hplainSha hcipher
      hcipherSha
  refine ⟨issue, ⟨hissue, hencryption, hbinding.symm, ?_, file, h.source, hciphertext.symm⟩,
    hplaintext⟩
  rw [hmaster]
  exact h.wrapping

/-- The run from the temporary file's creation on. -/
theorem decryptInto_safe (h : Unwrapped input s masterKey dataKey file)
    (hsound : Sound sha256 s.boxes s.issued) (hapart : Apart input.keyring s.boxes)
    (hboxes : w.store.boxes = s.boxes) (hissued : w.store.issued = s.issued)
    (hsame : w.store.files input.destination = s.files input.destination) (random : String) :
    Safe (alone interface) () (Told (Recovered input s) (Lost (Untouched input s) (Fine input s)))
      (decryptInto sha256 input (temporaryName input.destination random) dataKey file.bytes) w := by
  have hne := temporaryName_ne input.destination random
  have huntouched : Untouched input s w.store := ⟨hboxes, hissued, .inl hsame⟩
  refine ofExcept_then huntouched ?_ fun _ _ => ?_
  · intro e he hfine
    obtain ⟨-, -, hwithin, -⟩ := h.decrypts hsound hfine
    rw [measured_ok (by simpa using hwithin)] at he
    cases he
  refine operate_then Untouched.steady huntouched (by simp) fun env _ u hs => ?_
  simp only [Option.some.injEq, Except.ok.injEq, Prod.mk.injEq] at hs
  obtain ⟨-, rfl⟩ := hs
  have hspilled := huntouched.write random (some (ownFile env.spilled))
  refine decipher_then Untouched.steady hspilled ?_ fun plaintext hopen => ?_
  · intro hnone hfine
    obtain ⟨plaintext, hopen, -⟩ := h.decrypts hsound hfine
    rw [← hboxes] at hopen
    exact absurd (hnone.symm.trans hopen) (by simp)
  have hopen : openBox s.boxes dataKey input.encryption.iv input.binding file.bytes
      input.encryption.tag = some plaintext := hboxes ▸ hopen
  have hwritten := hspilled.write random (some (ownFile plaintext))
  -- a fine input has no other plaintext
  have hfits : Fine input s → plaintext.length ≤ input.maxBytes ∧
      ¬ (plaintext.length ≠ input.encryption.plaintextBytes ∨
        sha256 plaintext ≠ input.encryption.plaintextSha256 ∨
        file.bytes.length ≠ input.encryption.ciphertextBytes ∨
        sha256 file.bytes ≠ input.encryption.ciphertextSha256) := by
    intro hfine
    obtain ⟨other, hother, -, hwithin, hplain, hplainSha, hcipher, hcipherSha⟩ :=
      h.decrypts hsound hfine
    obtain rfl : other = plaintext := Option.some.inj (hother.symm.trans hopen)
    exact ⟨hwithin, by simp [hplain, hplainSha, hcipher, hcipherSha]⟩
  refine ofExcept_then hwritten ?_ fun _ _ => ?_
  · intro e he hfine
    rw [measured_ok (by simpa using (hfits hfine).1)] at he
    cases he
  refine refuseIf_then (fun hbad => ⟨hwritten, fun hfine => (hfits hfine).2 hbad⟩) fun hgood => ?_
  obtain ⟨issue, hgenuine, hplaintext⟩ := h.genuine hsound hapart hopen hgood
  refine persist_then Untouched.steady hwritten (by simp) ?_
  refine link_then Untouched.steady hwritten (write_files _ _ _) ?_ ?_
  · intro hthere hfine
    refine hthere ?_
    rw [World.put_store, write_files_of_ne _ _ hne, World.put_store, write_files_of_ne _ _ hne,
      hsame]
    exact hfine.2.free
  have hreal : ∀ s' : Store, s'.boxes = s.boxes → s'.issued = s.issued → Untouched input s s' :=
    fun _ hboxes' hissued' => ⟨hboxes', hissued', .inr ⟨issue, hgenuine⟩⟩
  refine persist_then Untouched.steady (hreal _ hboxes hissued) (by simp) ?_
  refine operate_safe Untouched.steady (hreal _ hboxes hissued) (by simp) fun env _ u hs => ?_
  simp only [Option.some.injEq, Except.ok.injEq, Prod.mk.injEq] at hs
  obtain ⟨-, rfl⟩ := hs
  refine ⟨hreal _ hboxes hissued, issue, hgenuine, ?_⟩
  rw [World.put_store, write_files_of_ne _ _ hne, World.put_store, write_files, hplaintext]

theorem unwrapBackupKey_safe (hsound : Sound sha256 w.store.boxes w.store.issued) :
    Safe (alone interface) ()
      (Told (fun key v => v = w ∧ ∃ masterKey,
          input.keyring.key input.encryption.keyVersion = some masterKey ∧
          openBox w.store.boxes masterKey input.encryption.wrappingIv input.binding
            input.encryption.wrappedKey input.encryption.wrappingTag = some key)
        (Lost (Untouched input w.store) (Fine input w.store)))
      (unwrapBackupKey input.encryption input.binding input.keyring) w := by
  have hsame : Untouched input w.store w.store := .same
  refine refuseIf_then (fun hbad => ⟨hsame, fun hfine => ?_⟩) fun hkeyring => ?_
  · rw [hfine.2.keyring] at hbad
    cases hbad
  refine ofExcept_then hsame ?_ fun masterKey hmaster => ?_
  · rintro e he ⟨⟨issue, hgenuine⟩, -⟩
    rw [wrappingKey, hgenuine.masterKey] at he
    cases he
  have hmaster := present_ok_iff.mp hmaster
  refine operate_safe Untouched.steady hsame ?_ fun env key s hs => ?_
  · rintro env e he ⟨⟨issue, hgenuine⟩, -⟩
    obtain ⟨key, hopen, -⟩ := hgenuine.opens hsound
    have hissue : issue.masterKey = masterKey :=
      Option.some.inj (hgenuine.masterKey.symm.trans hmaster)
    rw [hissue] at hopen
    simp [hopen] at he
  · split at hs
    · simp at hs
    · rename_i found hopen
      obtain ⟨rfl, rfl⟩ := by simpa using hs
      exact ⟨rfl, masterKey, hmaster, hopen⟩

/-- The file at the source: regular, private and as long as the envelope tells. -/
theorem openSource_safe (hsound : Sound sha256 w.store.boxes w.store.issued) :
    Safe (alone interface) ()
      (Told (fun bytes v => v = w ∧ ∃ file, w.store.files input.source = some file ∧
          bytes = file.bytes)
        (Lost (Untouched input w.store) (Fine input w.store)))
      (openSource input.source input.encryption) w := by
  have hsame : Untouched input w.store w.store := .same
  refine operate_safe Untouched.steady hsame ?_ fun env bytes s hs => ?_
  · rintro env e he ⟨⟨issue, hgenuine⟩, hrestorable⟩
    obtain ⟨-, -, -, -, -, hlength, -⟩ := hgenuine.opens hsound
    obtain ⟨file, hfile, hbytes⟩ := hgenuine.ciphertext
    obtain ⟨hregular, howned, hprivate⟩ := hrestorable.source file hfile
    simp [hfile, hregular, howned, hprivate, hbytes, hlength] at he
  · split at hs
    · simp at hs
    · rename_i file hfile
      split at hs
      · simp at hs
      · obtain ⟨rfl, rfl⟩ := by simpa using hs
        exact ⟨rfl, file, hfile, rfl⟩

/-- **Restoring.** The call puts the plaintext of a genuine input at the destination, or throws; it
    throws and leaves the destination alone if the input is not genuine, and it does not throw for a
    fine input unless a step fails. -/
theorem decryptBackup_safe (hsound : Sound sha256 w.store.boxes w.store.issued)
    (hapart : Apart input.keyring w.store.boxes) :
    Safe (alone interface) ()
      (Told (Recovered input w.store) (Lost (Untouched input w.store) (Fine input w.store)))
      (decryptBackup sha256 input) w := by
  have hsame : Untouched input w.store w.store := .same
  have hvalid : Fine input w.store → isEncryption input.encryption = true ∧
      input.binding = input.encryption.binding := by
    rintro ⟨⟨issue, hgenuine⟩, hrestorable⟩
    refine ⟨hgenuine.valid hsound hrestorable.keyring, ?_⟩
    rw [hgenuine.encryption]
    exact hgenuine.binding
  refine refuseIf_then (fun hbad => ⟨hsame, fun hfine => ?_⟩) fun hencryption => ?_
  · rw [(hvalid hfine).1] at hbad
    cases hbad
  refine refuseIf_then (fun hbad => ⟨hsame, fun hfine => ?_⟩) fun hmanifest => ?_
  · have hgood := (hvalid hfine).1
    rw [(hvalid hfine).2] at hbad
    simp [isEncryption, hbad] at hgood
  refine refuseIf_then (fun hbad => ⟨hsame, fun hfine => hbad (hvalid hfine).2⟩) fun hbinding => ?_
  refine refuseIf_then (fun hbad => ⟨hsame, fun hfine => ?_⟩) fun hmaximum => ?_
  · rw [hfine.2.maximum] at hbad
    cases hbad
  refine refuseIf_then (fun hbad => ⟨hsame, fun hfine => ?_⟩) fun hlimit => ?_
  · have hplain := hfine.2.plaintext
    have hcipher := hfine.2.ciphertext
    omega
  refine Safe.seq (unwrapBackupKey_safe hsound) ?_
  rintro dataKey v ⟨rfl, masterKey, hmaster, hopens⟩
  refine draw_then Untouched.steady hsame fun env _ => ?_
  refine Safe.seq (openSource_safe hsound) ?_
  rintro ciphertext v ⟨rfl, file, hfile, rfl⟩
  refine operate_then Untouched.steady hsame ?_ fun env' _ s hs => ?_
  · intro env' e he hfine
    rw [hfine.2.temporary env.text] at he
    simp at he
  split at hs
  · simp at hs
  simp only [Option.some.injEq, Except.ok.injEq, Prod.mk.injEq] at hs
  obtain ⟨-, rfl⟩ := hs
  have hunwrapped : Unwrapped input v.store masterKey dataKey file :=
    ⟨eq_true_of_ne_false hencryption, Decidable.not_not.mp hbinding, hmaster, hopens, hfile⟩
  have hdestination : ((v.store.write (temporaryName input.destination env.text)
      (some (ownFile []))).files input.destination) = v.store.files input.destination :=
    write_files_of_ne _ _ (temporaryName_ne _ _)
  refine Safe.seq (orRemove_safe Untouched.steady (fun s hs => hs.write env.text none)
    (decryptInto_safe (w := v.put (v.store.write (temporaryName input.destination env.text)
      (some (ownFile [])))) hunwrapped hsound hapart rfl rfl hdestination env.text)) ?_
  rintro _ u ⟨hrest, issue, hgenuine, hfound⟩
  refine operate_safe Untouched.steady hrest ?_ ?_
  · intro env' e he
    simp [hfound] at he
  · intro env' _ s hs
    rw [hfound] at hs
    obtain ⟨-, rfl⟩ := by simpa using hs
    exact ⟨hrest, issue, hgenuine, hfound⟩

end

/-! ## Histories -/

/-- What may become of a world: calls to their ends, and the files changed by anybody. -/
inductive Later (sha256 : Bytes → String) (w : World interface) : World interface → Prop
  | refl : Later sha256 w w
  | changed {v} (files : String → Option File) (failed : Bool) :
      Later sha256 w v → Later sha256 w (v.put { v.store with files, failed })
  | encrypted {v u input r} : Later sha256 w v → Apart input.keyring v.store.boxes →
      Runs (encryptBackup sha256 input) v r u → Later sha256 w u
  | decrypted {v u input r} : Later sha256 w v → Apart input.keyring v.store.boxes →
      Runs (decryptBackup sha256 input) v r u → Later sha256 w u

/-- A world before which nothing was encrypted has become this one. -/
def History (sha256 : Bytes → String) (w : World interface) : Prop :=
  ∃ start : World interface, start.store.boxes = [] ∧ start.store.issued = [] ∧
    Later sha256 start w

/-- Whatever happens, the store stays in order and no encryption is forgotten. -/
theorem Later.kept (hhex : ∀ bytes, isDigest (sha256 bytes) = true) {v : World interface}
    (h : Later sha256 w v) (hsound : Sound sha256 w.store.boxes w.store.issued) :
    Kept sha256 w.store.issued v.store := by
  induction h with
  | refl => exact ⟨hsound, fun _ h => h⟩
  | changed files failed _ ih => exact ⟨ih.sound, ih.remembers⟩
  | @encrypted v u input r _ hapart hruns ih =>
    have hkept : Kept sha256 v.store.issued u.store := by
      have hpost := (encryptBackup_safe hhex ih.sound hapart).runs hruns
      cases r with
      | ok encryption => exact hpost.1
      | error e => exact hpost.1
    exact ⟨hkept.sound, fun issue hm => hkept.remembers issue (ih.remembers issue hm)⟩
  | @decrypted v u input r _ hapart hruns ih =>
    have hsame : Untouched input v.store u.store := by
      have hpost := (decryptBackup_safe ih.sound hapart).runs hruns
      cases r with
      | ok encryption => exact hpost.1
      | error e => exact hpost.1
    refine ⟨?_, fun issue hm => ?_⟩
    · rw [hsame.boxes, hsame.issued]
      exact ih.sound
    · rw [hsame.issued]
      exact ih.remembers issue hm

theorem History.sound (hhex : ∀ bytes, isDigest (sha256 bytes) = true) (h : History sha256 w) :
    Sound sha256 w.store.boxes w.store.issued := by
  obtain ⟨start, hboxes, hissued, hlater⟩ := h
  have hsound : Sound sha256 start.store.boxes start.store.issued := by
    rw [hboxes, hissued]
    exact Sound.nil
  exact (hlater.kept hhex hsound).sound

/-! ## The envelope -/

/-- The restore asks for this encryption, unaltered. -/
structure Asks (restore : DecryptInput) (encryption : Encryption) (binding : Binding)
    (issue : Issue) (s : Store) : Prop where
  wrapping : restore.keyring.key encryption.keyVersion = some issue.masterKey
  encryption : restore.encryption = encryption
  binding : restore.binding = binding
  ciphertext : ∃ file, s.files restore.source = some file ∧ file.bytes = issue.ciphertext

/-- **The envelope.** `encryptBackup` returns an encryption of its source with the source's size and
    digest, unless a step fails; from then on `decryptBackup` gives the source back, unless a step
    fails.  An input that is not genuine is refused, and nothing is put at its destination. -/
theorem envelope (hhex : ∀ bytes, isDigest (sha256 bytes) = true) (hw : History sha256 w) :
    (∀ input r v, Apart input.keyring w.store.boxes → Runs (encryptBackup sha256 input) w r v →
      (Admissible input w.store → v.store.failed = true ∨ ∃ encryption, r = .ok encryption) ∧
      ∀ encryption, r = .ok encryption →
        ∃ issue, Encrypted sha256 input encryption v.store issue ∧
          ∀ u restore r' v', Later sha256 v u → Apart restore.keyring u.store.boxes →
            Asks restore encryption input.binding issue u.store → Restorable restore u.store →
            Runs (decryptBackup sha256 restore) u r' v' → v'.store.failed = true ∨
              r' = .ok () ∧ v'.store.files restore.destination =
                some (ownFile input.source.flatten)) ∧
    ∀ input r v, Apart input.keyring w.store.boxes → Runs (decryptBackup sha256 input) w r v →
      (¬ ∃ issue, Genuine input w.store issue) →
      (∃ e, r = .error e) ∧
        v.store.files input.destination = w.store.files input.destination := by
  have hsound := hw.sound hhex
  constructor
  · intro input r v hapart hruns
    have hpost := (encryptBackup_safe hhex hsound hapart).runs hruns
    cases r with
    | error e => exact ⟨fun hin => .inl (hpost.2 hin), nofun⟩
    | ok encryption =>
      obtain ⟨hkept, issue, hencrypted⟩ := hpost
      refine ⟨fun _ => .inr ⟨encryption, rfl⟩, ?_⟩
      rintro _ ⟨⟩
      refine ⟨issue, hencrypted, ?_⟩
      intro u restore r' v' hlater hapart' hasks hrestorable hruns'
      have hkept' := hlater.kept hhex hkept.sound
      have hgenuine : Genuine restore u.store issue := by
        refine ⟨hkept'.remembers issue hencrypted.issued, ?_, ?_, ?_, hasks.ciphertext⟩
        · rw [hasks.encryption, hencrypted.encryption]
        · rw [hasks.binding, hencrypted.encryption, hencrypted.binding]
        · rw [hasks.encryption]
          exact hasks.wrapping
      have hpost' := (decryptBackup_safe hkept'.sound hapart').runs hruns'
      cases r' with
      | error e => exact .inl (hpost'.2 ⟨⟨issue, hgenuine⟩, hrestorable⟩)
      | ok _ =>
        obtain ⟨-, found, hfound, hdestination⟩ := hpost'
        have hsame : found.plaintext = issue.plaintext :=
          hfound.plaintext_eq hkept'.sound hgenuine
        exact .inr ⟨rfl, by rw [hdestination, hsame, hencrypted.plaintext]⟩
  · intro input r v hapart hruns hnot
    have hpost := (decryptBackup_safe hsound hapart).runs hruns
    cases r with
    | ok _ =>
      obtain ⟨-, issue, hgenuine, -⟩ := hpost
      exact absurd ⟨issue, hgenuine⟩ hnot
    | error e => exact ⟨⟨e, rfl⟩, hpost.1.destination.resolve_right hnot⟩

/-! ## A backup of two bytes, and a wrapping key with two names -/

namespace Demo

/-- The digests of the plaintext and of the ciphertext, and of no bytes for the rest. -/
def digestOf (bytes : Bytes) : String :=
  if bytes = [104, 105] then "8f434346648f6b96df89dda901c5176b10a6d83961dd3c1ac88b59b2dc327aa4"
  else if bytes = [7, 8] then "bd7c250566c6e99f47c174b589b7551f8b0e930ed056511d1e8f653bc71d3c4a"
  else "e3b0c44298fc1c149afbf4c8996fb92427ae41e4649b934ca495991b7852b855"

theorem digestOf_isDigest (bytes : Bytes) : isDigest (digestOf bytes) = true := by
  unfold digestOf
  split
  · decide +kernel
  · split
    · decide +kernel
    · decide +kernel

def start : World interface :=
  ⟨⟨fun _ => none, [], [], false⟩, []⟩

def binding : Binding :=
  ⟨"account", "backup", "e3b0c44298fc1c149afbf4c8996fb92427ae41e4649b934ca495991b7852b855"⟩

def keyring : Keyring := ⟨"k1", [("k1", List.replicate 32 1), ("k2", List.replicate 32 1)]⟩

def input : EncryptInput := ⟨[[104], [105]], "/backup.enc", binding, keyring, 1024⟩

/-- A data key, two nonces, the box of the backup and the box of its key. -/
def env (n : Nat) : Env where
  fails := false
  random := if n = 0 then List.replicate 32 2 else List.replicate 12 3
  text := "0123456789abcdef0123456789abcdef"
  ciphertext := if n = 7 then List.replicate 32 9 else [7, 8]
  tag := List.replicate 16 4
  spilled := [104]

def encryption : Encryption where
  version := 1
  algorithm := "aes-256-gcm"
  keyVersion := "k1"
  binding := binding
  iv := List.replicate 12 3
  tag := List.replicate 16 4
  wrappedKey := List.replicate 32 9
  wrappingIv := List.replicate 12 3
  wrappingTag := List.replicate 16 4
  plaintextBytes := 2
  plaintextSha256 := "8f434346648f6b96df89dda901c5176b10a6d83961dd3c1ac88b59b2dc327aa4"
  ciphertextBytes := 2
  ciphertextSha256 := "bd7c250566c6e99f47c174b589b7551f8b0e930ed056511d1e8f653bc71d3c4a"

def encrypted : Except Fault Encryption × World interface :=
  (encryptBackup digestOf input).runFrom env (fun _ => ()) 0 start

example : encrypted.1.toOption = some encryption := by decide +kernel

theorem apart_nil (keyring : Keyring) : Apart keyring [] := by simp [Apart]

theorem encrypted_runs :
    Runs (encryptBackup digestOf input) start encrypted.1 encrypted.2 :=
  Prog.runFrom_runs env _ 0 _ start

theorem encrypted_history : History digestOf encrypted.2 :=
  ⟨start, rfl, rfl, .encrypted .refl (apart_nil _) encrypted_runs⟩

/-- The restore, under the other name of the wrapping key. -/
def altered : DecryptInput :=
  ⟨"/backup.enc", "/backup.tar", { encryption with keyVersion := "k2" }, binding, keyring, 1024⟩

def restored : Except Fault Unit × World interface :=
  (decryptBackup digestOf altered).runFrom env (fun _ => ()) 0 encrypted.2

theorem restored_runs :
    Runs (decryptBackup digestOf altered) encrypted.2 restored.1 restored.2 := by
  unfold restored
  exact Prog.runFrom_runs (S := interface) env _ 0 _ _

theorem restored_ok : restored.1.isOk = true := by decide +kernel

/-- Not every altered envelope is refused: an alteration of the key version is not, where the keyring
    has the wrapping key under two versions. -/
theorem not_refused :
    ¬ ∀ (digest : Bytes → String) (w : World interface), (∀ bytes, isDigest (digest bytes) = true) →
      History digest w → ∀ issue, w.store.issued = [issue] → ∀ input r v,
        Apart input.keyring w.store.boxes → input.encryption ≠ issue.encryption →
          Runs (decryptBackup digest input) w r v → ∃ e, r = .error e := by
  intro hall
  have hissued : encrypted.2.store.issued =
      [⟨encryption, [7, 8], [104, 105], List.replicate 32 1⟩] := by decide +kernel
  have hapart : ∀ box ∈ encrypted.2.store.boxes, box.holds = .backup →
      box.key ∉ keyring.keys.map Prod.snd := by decide +kernel
  obtain ⟨e, he⟩ := hall digestOf encrypted.2 digestOf_isDigest encrypted_history _ hissued altered
    restored.1 restored.2 hapart (by decide +kernel) restored_runs
  have hok := restored_ok
  rw [he] at hok
  cases hok

/-- The source is encrypted, as no step fails. -/
theorem encrypted_returns : ∃ encryption, encrypted.1 = .ok encryption :=
  (((envelope digestOf_isDigest ⟨start, rfl, rfl, .refl⟩).1 input encrypted.1 encrypted.2
    (apart_nil _) encrypted_runs).1
    ⟨by decide +kernel, by decide +kernel, by decide +kernel, by decide +kernel, by decide +kernel,
      rfl⟩).resolve_left (by decide +kernel)

end Demo

end AgentCloud.Envelopes
