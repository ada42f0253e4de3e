/-
  SEALING: what the boxes of the cipher say about the backups they hold.

  Every encryption leaves two boxes, one with the backup under a key that is used once, and one with
  that key under a wrapping key.  `Sound` says how the two belong together, over any number of
  encryptions; from it follows that a box opened under a wrapping key leads to one backup, its
  ciphertext and its envelope.
-/
import AgentCloud.Envelopes.Backup

namespace AgentCloud.Envelopes

open Checked Durable

variable {sha256 : Bytes → String} {boxes : List Box} {issued : List Issue}

/-! ## Boxes -/

theorem fits_iff {box : Box} {key iv : Bytes} {aad : Binding} {ciphertext tag : Bytes} :
    box.fits key iv aad ciphertext tag = true ↔
      box.key = key ∧ box.iv = iv ∧ box.aad = aad ∧ box.ciphertext = ciphertext ∧ box.tag = tag := by
  simp [Box.fits]

/-- What opens was sealed. -/
theorem mem_of_openBox {key iv : Bytes} {aad : Binding} {ciphertext tag plaintext : Bytes}
    (h : openBox boxes key iv aad ciphertext tag = some plaintext) :
    ∃ box ∈ boxes, box.key = key ∧ box.iv = iv ∧ box.aad = aad ∧ box.ciphertext = ciphertext ∧
      box.tag = tag ∧ box.plaintext = plaintext := by
  obtain ⟨box, hfind, hplaintext⟩ := Option.map_eq_some_iff.mp h
  have hfits := List.find?_some hfind
  obtain ⟨hkey, hiv, haad, hciphertext, htag⟩ := fits_iff.mp hfits
  exact ⟨box, List.mem_of_find?_eq_some hfind, hkey, hiv, haad, hciphertext, htag, hplaintext⟩

/-- A further box leaves the earlier ones as they open. -/
theorem openBox_append {key iv : Bytes} {aad : Binding} {ciphertext tag plaintext : Bytes} {box : Box}
    (h : openBox boxes key iv aad ciphertext tag = some plaintext) :
    openBox (boxes ++ [box]) key iv aad ciphertext tag = some plaintext := by
  obtain ⟨found, hfind, hplaintext⟩ := Option.map_eq_some_iff.mp h
  rw [openBox, List.find?_append, hfind]
  exact congrArg some hplaintext

/-- A box that is new opens to what was put in. -/
theorem openBox_new {box : Box}
    (h : openBox boxes box.key box.iv box.aad box.ciphertext box.tag = none) :
    openBox (boxes ++ [box]) box.key box.iv box.aad box.ciphertext box.tag = some box.plaintext := by
  have hnone := Option.map_eq_none_iff.mp h
  have hfits : box.fits box.key box.iv box.aad box.ciphertext box.tag = true :=
    fits_iff.mpr ⟨rfl, rfl, rfl, rfl, rfl⟩
  rw [openBox, List.find?_append, hnone]
  simp [hfits]

/-! ## The envelope of two boxes -/

/-- The envelope of a backup in `inner`, its key in `outer`. -/
def envelopeOf (sha256 : Bytes → String) (keyVersion : String) (outer inner : Box) : Encryption where
  version := 1
  algorithm := "aes-256-gcm"
  keyVersion := keyVersion
  binding := inner.aad
  iv := inner.iv
  tag := inner.tag
  wrappedKey := outer.ciphertext
  wrappingIv := outer.iv
  wrappingTag := outer.tag
  plaintextBytes := inner.plaintext.length
  plaintextSha256 := sha256 inner.plaintext
  ciphertextBytes := inner.ciphertext.length
  ciphertextSha256 := sha256 inner.ciphertext

/-- The boxes of one encryption. -/
structure Pair (outer inner : Box) : Prop where
  outer_key : outer.holds = .key
  inner_backup : inner.holds = .backup
  key : outer.plaintext = inner.key
  aad : outer.aad = inner.aad
  length : inner.ciphertext.length = inner.plaintext.length

/-- The encryption was returned for these boxes. -/
structure Issue.Of (sha256 : Bytes → String) (issue : Issue) (outer inner : Box) : Prop extends
    Pair outer inner where
  masterKey : outer.key = issue.masterKey
  encryption : issue.encryption = envelopeOf sha256 issue.encryption.keyVersion outer inner
  ciphertext : inner.ciphertext = issue.ciphertext
  plaintext : inner.plaintext = issue.plaintext

/-! ## The invariant -/

structure Sound (sha256 : Bytes → String) (boxes : List Box) (issued : List Issue) : Prop where
  opens : ∀ box ∈ boxes,
    openBox boxes box.key box.iv box.aad box.ciphertext box.tag = some box.plaintext
  /-- A data key is used for one backup, and for nothing else. -/
  single : ∀ a ∈ boxes, ∀ b ∈ boxes, a.holds = .backup → a.key = b.key → a = b
  /-- A wrapped key leads to its backup, and unless that is empty its envelope was returned. -/
  wraps : ∀ outer ∈ boxes, outer.holds = .key → ∃ inner ∈ boxes, Pair outer inner ∧
    (inner.plaintext = [] ∨ ∃ issue ∈ issued, issue.Of sha256 outer inner)
  issues : ∀ issue ∈ issued, isEncryption issue.encryption = true ∧
    ∃ outer ∈ boxes, ∃ inner ∈ boxes, issue.Of sha256 outer inner

theorem Sound.nil : Sound sha256 [] [] :=
  ⟨by simp, by simp, by simp, by simp⟩

/-- No wrapping key of the keyring is the data key of a backup. -/
def Apart (keyring : Keyring) (boxes : List Box) : Prop :=
  ∀ box ∈ boxes, box.holds = .backup → box.key ∉ keyring.keys.map Prod.snd

/-- The key of a backup is drawn anew. -/
theorem Sound.backup (h : Sound sha256 boxes issued) {box : Box} (hbackup : box.holds = .backup)
    (hfresh : box.key ∉ boxes.map Box.key)
    (hnew : openBox boxes box.key box.iv box.aad box.ciphertext box.tag = none) :
    Sound sha256 (boxes ++ [box]) issued where
  opens := by
    intro other hm
    rcases List.mem_append.mp hm with hm | hm
    · exact openBox_append (h.opens other hm)
    · rw [List.mem_singleton.mp hm]
      exact openBox_new hnew
  single := by
    intro a ha b hb hholds hkey
    have hother : ∀ other ∈ boxes, other.key ≠ box.key := by
      intro other hm hsame
      exact hfresh (hsame ▸ List.mem_map_of_mem hm)
    rcases List.mem_append.mp ha with ha | ha <;> rcases List.mem_append.mp hb with hb | hb
    · exact h.single a ha b hb hholds hkey
    · rw [List.mem_singleton.mp hb] at hkey
      exact absurd hkey (hother a ha)
    · rw [List.mem_singleton.mp ha] at hkey
      exact absurd hkey.symm (hother b hb)
    · rw [List.mem_singleton.mp ha, List.mem_singleton.mp hb]
  wraps := by
    intro outer hm houter
    rcases List.mem_append.mp hm with hm | hm
    · obtain ⟨inner, hinner, hrest⟩ := h.wraps outer hm houter
      exact ⟨inner, List.mem_append_left _ hinner, hrest⟩
    · rw [List.mem_singleton.mp hm, hbackup] at houter
      cases houter
  issues := by
    intro issue hm
    obtain ⟨hvalid, outer, houter, inner, hinner, hof⟩ := h.issues issue hm
    exact ⟨hvalid, outer, List.mem_append_left _ houter, inner, List.mem_append_left _ hinner, hof⟩

/-- The key of a backup is wrapped: under a key that is no data key, for the envelope `issue`, or for
    none when the backup is empty. -/
theorem Sound.wrap (h : Sound sha256 boxes issued) {outer inner : Box} {more : List Issue}
    (hinner : inner ∈ boxes) (hpair : Pair outer inner)
    (hapart : ∀ box ∈ boxes, box.holds = .backup → box.key ≠ outer.key)
    (hnew : openBox boxes outer.key outer.iv outer.aad outer.ciphertext outer.tag = none)
    (hmore : ∀ issue ∈ more, isEncryption issue.encryption = true ∧ issue.Of sha256 outer inner)
    (hempty : more = [] → inner.plaintext = []) :
    Sound sha256 (boxes ++ [outer]) (issued ++ more) where
  opens := by
    intro other hm
    rcases List.mem_append.mp hm with hm | hm
    · exact openBox_append (h.opens other hm)
    · rw [List.mem_singleton.mp hm]
      exact openBox_new hnew
  single := by
    intro a ha b hb hholds hkey
    rcases List.mem_append.mp ha with ha | ha
    · rcases List.mem_append.mp hb with hb | hb
      · exact h.single a ha b hb hholds hkey
      · rw [List.mem_singleton.mp hb] at hkey
        exact absurd hkey (hapart a ha hholds)
    · rw [List.mem_singleton.mp ha, hpair.outer_key] at hholds
      cases hholds
  wraps := by
    intro other hm hother
    rcases List.mem_append.mp hm with hm | hm
    · obtain ⟨found, hfound, hfoundPair, hrest⟩ := h.wraps other hm hother
      refine ⟨found, List.mem_append_left _ hfound, hfoundPair, hrest.imp_right ?_⟩
      rintro ⟨issue, hissue, hof⟩
      exact ⟨issue, List.mem_append_left _ hissue, hof⟩
    · rw [List.mem_singleton.mp hm]
      refine ⟨inner, List.mem_append_left _ hinner, hpair, ?_⟩
      cases more with
      | nil => exact .inl (hempty rfl)
      | cons issue rest =>
        exact .inr ⟨issue, by simp, (hmore issue List.mem_cons_self).2⟩
  issues := by
    intro issue hm
    rcases List.mem_append.mp hm with hm | hm
    · obtain ⟨hvalid, a, ha, b, hb, hof⟩ := h.issues issue hm
      exact ⟨hvalid, a, List.mem_append_left _ ha, b, List.mem_append_left _ hb, hof⟩
    · obtain ⟨hvalid, hof⟩ := hmore issue hm
      exact ⟨hvalid, outer, by simp, inner, List.mem_append_left _ hinner, hof⟩

/-! ## What the boxes of an envelope lead to -/

/-- Under a wrapping key opens the key of a backup, and under that key this backup alone. -/
theorem Sound.genuine (h : Sound sha256 boxes issued) {keyring : Keyring} {masterKey dataKey : Bytes}
    {encryption : Encryption} {binding : Binding} {ciphertext plaintext : Bytes}
    (hapart : Apart keyring boxes) (hmaster : masterKey ∈ keyring.keys.map Prod.snd)
    (hunwrap : openBox boxes masterKey encryption.wrappingIv binding encryption.wrappedKey
      encryption.wrappingTag = some dataKey)
    (hopen : openBox boxes dataKey encryption.iv binding ciphertext encryption.tag = some plaintext)
    (hvalid : isEncryption encryption = true) (hbinding : binding = encryption.binding)
    (hplaintextBytes : plaintext.length = encryption.plaintextBytes)
    (hplaintextSha : sha256 plaintext = encryption.plaintextSha256)
    (hciphertextBytes : ciphertext.length = encryption.ciphertextBytes)
    (hciphertextSha : sha256 ciphertext = encryption.ciphertextSha256) :
    ∃ issue ∈ issued, issue.ciphertext = ciphertext ∧ issue.plaintext = plaintext ∧
      issue.masterKey = masterKey ∧ issue.encryption.binding = binding ∧
      encryption = { issue.encryption with keyVersion := encryption.keyVersion } := by
  obtain ⟨outer, houter, hokey, hoiv, hoaad, hociphertext, hotag, hoplaintext⟩ :=
    mem_of_openBox hunwrap
  obtain ⟨box, hbox, hbkey, hbiv, hbaad, hbciphertext, hbtag, hbplaintext⟩ := mem_of_openBox hopen
  have hholds : outer.holds = .key := by
    cases hcase : outer.holds with
    | key => rfl
    | backup => exact absurd (hokey ▸ hmaster) (hapart outer houter hcase)
  obtain ⟨inner, hinner, hpair, hissued⟩ := h.wraps outer houter hholds
  -- the data key has no other box
  have hsame : inner = box := by
    refine h.single inner hinner box hbox hpair.inner_backup ?_
    rw [← hpair.key, hoplaintext, hbkey]
  subst hsame
  simp only [isEncryption, Bool.and_eq_true, decide_eq_true_eq] at hvalid
  obtain ⟨⟨⟨⟨⟨⟨⟨⟨⟨⟨⟨⟨hversion, halgorithm⟩, -⟩, -⟩, -⟩, -⟩, -⟩, -⟩, -⟩, hpositive⟩, -⟩, -⟩, -⟩ :=
    hvalid
  rcases hissued with hempty | ⟨issue, hissue, hof⟩
  · rw [← hbplaintext, hempty, List.length_nil] at hplaintextBytes
    omega
  · have hb : issue.encryption.binding = binding := by
      rw [hof.encryption]
      exact hbaad
    refine ⟨issue, hissue, hof.ciphertext.symm.trans hbciphertext,
      hof.plaintext.symm.trans hbplaintext, hof.masterKey.symm.trans hokey, hb, ?_⟩
    rw [hof.encryption]
    simp only [envelopeOf, hbiv, hbtag, hociphertext, hoiv, hotag, hbplaintext, hbciphertext,
      hplaintextBytes, hplaintextSha, hciphertextBytes, hciphertextSha, hbaad, hbinding, ← hversion,
      ← halgorithm]

end AgentCloud.Envelopes
