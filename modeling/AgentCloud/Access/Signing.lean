/-
  CUSTOMER CERTIFICATES: what the signer asks the CA for, and what it accepts back.

  `customerSshClaim` derives the window of the certificate from the authority that was loaded with
  the attempt; `inspectCustomerSsh` compares the inspected certificate with the claim, field by
  field, so that a certificate is passed on only with exactly that window.  What the CA and the
  network do is a parameter (`Response`): the signer sends one request, and everything it cannot
  make sense of after that is `unknown`.
-/
import AgentCloud.Access.Records
import AgentCloud.Access.Service

namespace AgentCloud.Access

open Checked

/-! ## The claim -/

/-- The order of `toSorted` on strings: by code units. -/
def charsBefore : List Char → List Char → Bool
  | [], _ => true
  | _ :: _, [] => false
  | a :: as, b :: bs =>
    if a.toNat = b.toNat then charsBefore as bs else decide (a.toNat < b.toNat)

/-- What the CA is asked to sign; instants before 1970 are negative. -/
structure CustomerSshClaim where
  keyId : String
  principal : String
  publicKeyWire : String
  sourceAddresses : List String
  validAfter : Int
  validBefore : Int
  deriving DecidableEq, Repr

/-- `Math.floor(instant / 1000) * 1000`. -/
def wholeSeconds (instant : Instant) : Instant := instant / 1000 * 1000

/-- `session.publicKey.slice('ssh-ed25519 '.length)`. -/
def keyWire (publicKey : String) : String := String.ofList (publicKey.toList.drop 12)

/-- The end of the certificate: a whole second, within every authority there is. -/
def validBefore (session : Session) (authority : Authority) : Instant :=
  wholeSeconds (min (min authority.expiresAt session.hardDeadline) (authority.checkedAt + 240000))

/-- The attempt was recorded, and is still current. -/
def currentAttempt (session : Session) (authority : Authority) : Prop :=
  (∃ attemptedAt, session.issuance = .attempted attemptedAt ∧ attemptedAt ≤ authority.checkedAt) ∧
    session.connection = .unclaimed ∧ authority.checkedAt < session.issueDeadline ∧
    authority.checkedAt < validBefore session authority

instance (session : Session) (authority : Authority) : Decidable (currentAttempt session authority) :=
  match h : session.issuance with
  | .attempted attemptedAt =>
    decidable_of_iff (attemptedAt ≤ authority.checkedAt ∧ session.connection = .unclaimed ∧
      authority.checkedAt < session.issueDeadline ∧
      authority.checkedAt < validBefore session authority) (by simp [currentAttempt, h])
  | .pending => isFalse (by simp [currentAttempt, h])
  | .issued _ => isFalse (by simp [currentAttempt, h])
  | .unavailable _ => isFalse (by simp [currentAttempt, h])

def customerSshClaim (session : Session) (authority : Authority) : Except Fault CustomerSshClaim := do
  refuse (¬ Readable session) (.other "ZodError")
  refuse (¬ currentAttempt session authority)
    (cloudError .permissionDenied "Customer signing requires a current recorded attempt.")
  pure
    { keyId := "customer:" ++ session.id ++ ":" ++ session.grantId ++ ":" ++ session.machineId
      principal := "customer-" ++ session.allocationId
      publicKeyWire := keyWire session.publicKey
      sourceAddresses := session.gateway.egressCidrs.mergeSort fun a b =>
        charsBefore a.toList b.toList
      validAfter := (wholeSeconds authority.checkedAt : Int) - 60000
      validBefore := validBefore session authority }

/-! ## The certificate -/

/-- `step ssh inspect`, as JSON. -/
structure Inspection where
  type : String
  keyName : String
  keyFingerprint : String
  signingKeyFingerprint : String
  keyId : String
  principals : List String
  validAfter : Int
  validBefore : Int
  criticalOptions : List (String × String)
  extensions : List (String × String)
  deriving DecidableEq, Repr

structure SignerConfig where
  userCa : String
  /-- `sshFingerprint`. -/
  fingerprint : String → String

/-- The inspected certificate is the one that was asked for. -/
def matchesClaim (signer : SignerConfig) (claim : CustomerSshClaim) (value : Inspection) : Prop :=
  value.type = "user" ∧ value.keyName = "ssh-ed25519-cert-v01@openssh.com" ∧
    value.keyFingerprint = signer.fingerprint ("ssh-ed25519 " ++ claim.publicKeyWire) ∧
    value.signingKeyFingerprint = signer.fingerprint signer.userCa ∧ value.keyId = claim.keyId ∧
    value.principals = [claim.principal] ∧
    value.criticalOptions = [("source-address", String.intercalate "," claim.sourceAddresses)] ∧
    value.extensions = [("permit-pty", "")] ∧ value.validAfter = claim.validAfter ∧
    value.validBefore = claim.validBefore

instance (signer : SignerConfig) (claim : CustomerSshClaim) (value : Inspection) :
    Decidable (matchesClaim signer claim value) := by
  unfold matchesClaim
  infer_instance

/-- The instant at which the certificate ends. -/
def inspectCustomerSsh (signer : SignerConfig) (claim : CustomerSshClaim) (value : Inspection) :
    Except Fault Instant := do
  refuse (¬ matchesClaim signer claim value)
    (cloudError .providerUnavailable "CA returned an incompatible customer certificate.")
  pure value.validBefore.toNat

/-! ## One signature -/

/-- What comes of the one request. -/
inductive Response where
  /-- The token was not made, or the request not sent. -/
  | unsent
  | rejected
  /-- Sent, and not answered with a certificate that can be inspected. -/
  | lost
  | received (certificate : String) (inspection : Inspection)
  deriving DecidableEq, Repr

/-- `sign`. -/
def sign (signer : SignerConfig) (response : Response) (session : Session) (authority : Authority) :
    Except Fault SignResult := do
  let claim ← customerSshClaim session authority
  match response with
  | .unsent => pure .failed
  | .rejected => pure .rejected
  | .lost => pure .unknown
  | .received certificate inspection =>
    match inspectCustomerSsh signer claim inspection with
    | .ok expiresAt => pure (.issued certificate expiresAt)
    | .error _ => pure .unknown

/-- A signature that the signer reports: a certificate whose window is at most five minutes long,
    and ends within the session and the authority. -/
structure Signed (session : Session) (authority : Authority) (inspection : Inspection)
    (expiresAt : Instant) : Prop where
  ends : inspection.validBefore = expiresAt
  window : inspection.validBefore - inspection.validAfter ≤ 300000
  withinSession : expiresAt ≤ session.hardDeadline
  withinAuthority : expiresAt ≤ authority.expiresAt
  soon : expiresAt ≤ authority.checkedAt + 240000

theorem wholeSeconds_le (instant : Instant) : wholeSeconds instant ≤ instant :=
  Nat.div_mul_le_self instant 1000

theorem wholeSeconds_add (instant : Instant) (seconds : Nat) :
    wholeSeconds (instant + seconds * 1000) = wholeSeconds instant + seconds * 1000 := by
  unfold wholeSeconds
  rw [Nat.add_mul_div_right _ _ (by decide), Nat.add_mul]

theorem wholeSeconds_mono {a b : Instant} (h : a ≤ b) : wholeSeconds a ≤ wholeSeconds b :=
  Nat.mul_le_mul_right 1000 (Nat.div_le_div_right h)

theorem validBefore_le (session : Session) (authority : Authority) :
    validBefore session authority ≤ session.hardDeadline ∧
      validBefore session authority ≤ authority.expiresAt ∧
      validBefore session authority ≤ wholeSeconds authority.checkedAt + 240000 := by
  have hle := wholeSeconds_le
    (min (min authority.expiresAt session.hardDeadline) (authority.checkedAt + 240000))
  refine ⟨?_, ?_, ?_⟩
  · exact Nat.le_trans hle (Nat.le_trans (Nat.min_le_left _ _) (Nat.min_le_right _ _))
  · exact Nat.le_trans hle (Nat.le_trans (Nat.min_le_left _ _) (Nat.min_le_left _ _))
  · have hsoon := wholeSeconds_mono (Nat.min_le_right
      (min authority.expiresAt session.hardDeadline) (authority.checkedAt + 240000))
    rw [show authority.checkedAt + 240000 = authority.checkedAt + 240 * 1000 from rfl,
      wholeSeconds_add] at hsoon
    exact hsoon

theorem customerSshClaim_ok {session : Session} {authority : Authority} {claim : CustomerSshClaim}
    (h : customerSshClaim session authority = .ok claim) :
    currentAttempt session authority ∧ claim.validBefore = validBefore session authority ∧
      claim.validAfter = (wholeSeconds authority.checkedAt : Int) - 60000 := by
  simp only [customerSshClaim, bind_ok_iff, refuse_ok_iff, not_not, pure_ok_iff] at h
  obtain ⟨_, -, _, hcurrent, rfl⟩ := h
  exact ⟨hcurrent, rfl, rfl⟩

theorem window_le {before second : Nat} (h : before ≤ second + 240000) :
    (before : Int) - ((second : Int) - 60000) ≤ 300000 := by
  omega

/-- **What is signed for is what was asked for.** -/
theorem sign_issued {signer : SignerConfig} {response : Response} {session : Session}
    {authority : Authority} {certificate : String} {expiresAt : Instant}
    (h : sign signer response session authority = .ok (.issued certificate expiresAt)) :
    ∃ inspection, response = .received certificate inspection ∧
      currentAttempt session authority ∧ Signed session authority inspection expiresAt := by
  simp only [sign, bind_ok_iff] at h
  obtain ⟨claim, hclaim, h⟩ := h
  obtain ⟨hcurrent, hbefore, hafter⟩ := customerSshClaim_ok hclaim
  cases response with
  | unsent | rejected | lost => cases h
  | received crt inspection =>
    simp only at h
    cases hinspect : inspectCustomerSsh signer claim inspection with
    | error fault => rw [hinspect] at h; cases h
    | ok ends =>
      rw [hinspect] at h
      cases h
      simp only [inspectCustomerSsh, bind_ok_iff, refuse_ok_iff, not_not, pure_ok_iff] at hinspect
      obtain ⟨_, hmatches, hends⟩ := hinspect
      obtain ⟨-, -, -, -, -, -, -, -, hvalidAfter, hvalidBefore⟩ := hmatches
      obtain ⟨hsession, hauthority, hsoon⟩ := validBefore_le session authority
      have hexpires : expiresAt = validBefore session authority := by
        rw [← hends, hvalidBefore, hbefore, Int.toNat_natCast]
      refine ⟨inspection, rfl, hcurrent, ?_, ?_, ?_, ?_, ?_⟩
      · rw [hvalidBefore, hbefore, hexpires]
      · rw [hvalidBefore, hvalidAfter, hbefore, hafter]
        exact window_le hsoon
      · rw [hexpires]
        exact hsession
      · rw [hexpires]
        exact hauthority
      · rw [hexpires]
        exact Nat.le_trans hsoon (Nat.add_le_add_right (wholeSeconds_le _) 240000)

end AgentCloud.Access
