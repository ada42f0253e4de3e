/-
  THE BUCKET: what the writer's requests are answered with, and what `upload` and `recover` can
  conclude from it.

  A version is named by its key and its version ID, and what it holds never changes.  Which versions
  there are does: from one request to the next a PUT may arrive late or never, other versions and
  other keys may come and go.  A listing is consistent with the bucket of its own moment: it goes on
  behind the marker, in an order that the names of versions determine, and says whether more
  follows.  Any request may fail.

  `Found` is what a recovered receipt stands for.  The proofs follow the text of the programs
  (`Meets`); the page loop carries what has been listed so far.
-/
import AgentCloud.Backups.ObjectStore
import AgentCloud.Lib.Exchanges
import Mathlib.Algebra.Order.Ring.Rat

namespace AgentCloud.Backups

open Checked Durable

abbrev Bytes := List UInt8

/-- Key and version ID. -/
abbrev VersionRef := String × String

structure Content where
  bytes : Bytes
  metadata : Option Metadata
  deleteMarker : Bool

/-- A bucket over the requests of a run. -/
structure History where
  content : VersionRef → Content
  /-- The place of a version in a listing. -/
  rank : VersionRef → ℚ
  present : Nat → List VersionRef
  retention : Nat → VersionRef → Option Retention
  sorted : ∀ n, (present n).Pairwise fun ref next => rank ref < rank next

namespace History

variable (bucket : History)

/-- What a listing under a prefix finds behind its marker. -/
def matching (n : Nat) (key : String) (marker : Option VersionRef) : List VersionRef :=
  (bucket.present n).filter fun ref =>
    key.toList.isPrefixOf ref.1.toList &&
      marker.all fun last => decide (bucket.rank last < bucket.rank ref)

/-- `ListObjectVersions` with `MaxKeys: 32`.  Delete markers count, but are not among `Versions`. -/
def page (n : Nat) (key : String) (marker : Option VersionRef) : VersionPage :=
  let found := bucket.matching n key marker
  let window := found.take 32
  { versions := (window.filter fun ref => !(bucket.content ref).deleteMarker).map
      fun ref => ⟨ref.1, ref.2⟩
    isTruncated := some (decide (32 < found.length))
    next := if 32 < found.length then window.getLast? else none }

def head (ref : VersionRef) : Head :=
  ⟨ref.2, (bucket.content ref).bytes.length, (bucket.content ref).metadata,
    (bucket.content ref).deleteMarker⟩

end History

/-- `readCiphertext`: the chunks of a body, and what was read before them. -/
def readCiphertext (sha256 : Bytes → String) (expected : Digests) :
    Bytes → List Bytes → Except Fault Unit
  | bytes, [] =>
    refuse (bytes.length ≠ expected.size ∨ sha256 bytes ≠ expected.ciphertextSha256)
      (.other "Ciphertext digest or size differs from its receipt.")
  | bytes, chunk :: chunks => do
    refuse (expected.size < (bytes ++ chunk).length)
      (.other "Ciphertext exceeds its recorded size.")
    readCiphertext sha256 expected (bytes ++ chunk) chunks

/-- The answers of the bucket.  A GET is answered when the body was read to its end and accepted;
    whatever else is replied is a request that failed, and about the other calls nothing is said. -/
def History.answers (sha256 : Bytes → String) (bucket : History) (n : Nat) :
    (c : Call) → c.Reply → Prop
  | .listVersions key marker, .ok page => page = bucket.page n key marker
  | .headObject key versionId, .ok head =>
    (key, versionId) ∈ bucket.present n ∧ head = bucket.head (key, versionId)
  | .getObject receipt, .ok head =>
    (receipt.intent.key, receipt.versionId) ∈ bucket.present n ∧
      head = bucket.head (receipt.intent.key, receipt.versionId) ∧
      ∃ chunks, chunks.flatten = (bucket.content (receipt.intent.key, receipt.versionId)).bytes ∧
        readCiphertext sha256 receipt.intent.digests [] chunks = .ok ()
  | .getRetention receipt, .ok retained =>
    (receipt.intent.key, receipt.versionId) ∈ bucket.present n ∧
      bucket.retention n (receipt.intent.key, receipt.versionId) = some retained
  | _, _ => True

/-! ## What a run has seen -/

/-- The versions that were listed. -/
def listed (τ : List (Exchange interface)) : List ListedVersion :=
  τ.flatMap fun
    | ⟨.listVersions _ _, .ok page⟩ => page.versions
    | _ => []

/-- A request that was not answered. -/
def failedExchange : Exchange interface → Bool
  | ⟨.checkProtection, .error _⟩ => true
  | ⟨.listVersions _ _, .error _⟩ => true
  | ⟨.headObject _ _, .error _⟩ => true
  | _ => false

/-- A page behind which nothing follows. -/
def lastPage : Exchange interface → Bool
  | ⟨.listVersions _ _, .ok page⟩ => decide (page.isTruncated = some false)
  | _ => false

/-- Some request of the run failed. -/
def Failed (τ : List (Exchange interface)) : Prop := ∃ exchange ∈ τ, failedExchange exchange = true

/-- The listing came to its end. -/
def Ended (τ : List (Exchange interface)) : Prop := ∃ exchange ∈ τ, lastPage exchange = true

@[simp] theorem listed_nil : listed [] = [] := rfl

@[simp] theorem listed_append (τ τ' : List (Exchange interface)) :
    listed (τ ++ τ') = listed τ ++ listed τ' := List.flatMap_append

theorem Failed.append_left {τ τ' : List (Exchange interface)} (h : Failed τ) :
    Failed (τ ++ τ') := by
  obtain ⟨exchange, hm, hfailed⟩ := h
  exact ⟨exchange, List.mem_append_left τ' hm, hfailed⟩

theorem Failed.append_right {τ τ' : List (Exchange interface)} (h : Failed τ') :
    Failed (τ ++ τ') := by
  obtain ⟨exchange, hm, hfailed⟩ := h
  exact ⟨exchange, List.mem_append_right τ hm, hfailed⟩

theorem Ended.append_left {τ τ' : List (Exchange interface)} (h : Ended τ) :
    Ended (τ ++ τ') := by
  obtain ⟨exchange, hm, hlast⟩ := h
  exact ⟨exchange, List.mem_append_left τ' hm, hlast⟩

theorem Ended.append_right {τ τ' : List (Exchange interface)} (h : Ended τ') :
    Ended (τ ++ τ') := by
  obtain ⟨exchange, hm, hlast⟩ := h
  exact ⟨exchange, List.mem_append_right τ hm, hlast⟩

section Versions

variable (bucket : History) (intent : Intent)

/-- A version of the attempt: under the intended key, its metadata naming the attempt. -/
def ofAttempt (version : ListedVersion) : Bool :=
  decide (version.key = intent.key) &&
    decide ((bucket.content (intent.key, version.versionId)).metadata.map Metadata.attempt =
      some intent.attemptId)

def attemptIds (versions : List ListedVersion) : List String :=
  (versions.filter (ofAttempt bucket intent)).map ListedVersion.versionId

/-- The version holds what the intent says of it: its metadata, which are the attempt, the size, the
    digest and the intent itself, and that many bytes. -/
structure Intended (versionId : String) : Prop where
  object : (bucket.content (intent.key, versionId)).deleteMarker = false
  length : (bucket.content (intent.key, versionId)).bytes.length = intent.digests.size
  metadata : (bucket.content (intent.key, versionId)).metadata = some (metadata intent)

/-- A version under the intended key that no receipt can name, or that names the attempt without
    being what was intended. -/
def Misfit (version : ListedVersion) : Prop :=
  version.key = intent.key ∧
    (isVersionId version.versionId = false ∨
      (ofAttempt bucket intent version = true ∧ ¬ Intended bucket intent version.versionId))

/-- The version holds exactly the intended bytes, and is retained as long as intended. -/
structure Verified (sha256 : Bytes → String) (versionId : String) : Prop extends
    Intended bucket intent versionId where
  sha256 : sha256 (bucket.content (intent.key, versionId)).bytes = intent.digests.ciphertextSha256
  present : ∃ n, (intent.key, versionId) ∈ bucket.present n
  retained : ∃ n retained, bucket.retention n (intent.key, versionId) = some retained ∧
    retained.mode = intent.retention.mode ∧ intent.retention.retainUntil ≤ retained.retainUntil

end Versions

/-- `bind` lets the intent pass. -/
structure Bound (config : StoreConfig) (intent : Intent) : Prop where
  storeId : intent.storeId = config.storeId
  bucket : intent.bucket = config.bucket
  key : intent.key = objectKey config intent.attemptId
  size : intent.digests.size ≤ config.maxBytes

/-! ## Rules for the checks of the store

Each check in front of a program: what it lets pass, and what it ends in. -/

section Rules

variable {answers : Answers interface} {α β : Type} {n m : Nat}
  {post : List (Exchange interface) → Except WorkFault β → Prop}

theorem meets_ask {c : Call} {f : c.Reply → Program β}
    (h : ∀ r, answers n c r → Meets answers (n + 1) (f r) m fun τ out => post (⟨c, r⟩ :: τ) out) :
    Meets answers n ((Prog.ask (S := interface) c).bind f) (m + 1) post :=
  Meets.call h

theorem meets_thrown {reply : Except Fault α} {f : α → Program β}
    (hok : ∀ a, reply = .ok a → Meets answers n (f a) m post)
    (herror : ∀ e, reply = .error e → post [] (.error (.fault e))) :
    Meets answers n ((thrown reply).bind f) m post := by
  cases reply with
  | ok a => exact hok a rfl
  | error e => exact Meets.done (herror e rfl)

theorem meets_refuseIf {c : Prop} [Decidable c] {message : String} {f : Unit → Program β}
    (hok : ¬ c → Meets answers n (f ()) m post)
    (herror : c → post [] (.error (.fault (.other message)))) :
    Meets answers n ((refuseIf c message).bind f) m post := by
  by_cases hc : c
  · have hrefuse : refuseIf c message = .done (.error (.fault (.other message))) := by
      simp [refuseIf, refuse, hc, Prog.ofExcept]
    rw [hrefuse]
    exact Meets.done (herror hc)
  · have hpass : refuseIf c message = .done (.ok ()) := by
      simp [refuseIf, refuse, hc, Prog.ofExcept]
    rw [hpass]
    exact hok hc

theorem meets_receiptOf {intent : Intent} {versionId : String} {f : Receipt → Program β}
    (hok : isVersionId versionId = true → Meets answers n (f ⟨intent, versionId⟩) m post)
    (herror : isVersionId versionId = false → ∀ e, post [] (.error e)) :
    Meets answers n ((receiptOf intent versionId).bind f) m post := by
  have hbind : (receiptOf intent versionId).bind f =
      (refuseIf (isVersionId versionId = false) "Invalid version ID").bind
        fun _ => f ⟨intent, versionId⟩ := by
    unfold receiptOf refuseIf refuse
    split <;> rfl
  rw [hbind]
  refine meets_refuseIf (fun h => hok ?_) fun h => herror h _
  simpa using h

theorem meets_checkMetadata {bucket : History} {intent : Intent} {versionId : String}
    {f : Unit → Program β}
    (hok : Intended bucket intent versionId → Meets answers n (f ()) m post)
    (herror : ¬ Intended bucket intent versionId → ∀ e, post [] (.error e)) :
    Meets answers n
      ((checkMetadata (bucket.head (intent.key, versionId)) ⟨intent, versionId⟩).bind f) m post := by
  have hbind : (checkMetadata (bucket.head (intent.key, versionId)) ⟨intent, versionId⟩).bind f =
      (refuseIf ((bucket.head (intent.key, versionId)).deleteMarker = true ∨
          (bucket.head (intent.key, versionId)).versionId ≠ versionId ∨
          (bucket.head (intent.key, versionId)).contentLength ≠ intent.digests.size)
        "S3 returned a different object version or size.").bind fun _ =>
      (refuseIf ((bucket.head (intent.key, versionId)).metadata ≠ some (metadata intent))
        "S3 returned inconsistent backup metadata.").bind f := by
    unfold checkMetadata refuseIf refuse
    split <;> rfl
  rw [hbind]
  refine meets_refuseIf (fun hfirst => meets_refuseIf (fun hsecond => hok ?_) fun hbad => ?_)
    fun hbad => ?_
  · simp only [History.head, not_or, not_not, Bool.not_eq_true] at hfirst hsecond
    exact ⟨hfirst.1, hfirst.2.2, hsecond⟩
  · exact herror (fun h => hbad h.metadata) _
  · refine herror (fun h => ?_) _
    simp [History.head, h.object, h.length] at hbad

end Rules

/-! ## Reading one version -/

/-- A body that was accepted has the recorded size and digest, however it was cut into chunks. -/
theorem readCiphertext_ok {sha256 : Bytes → String} {expected : Digests} {chunks : List Bytes}
    {bytes : Bytes} (h : readCiphertext sha256 expected bytes chunks = .ok ()) :
    (bytes ++ chunks.flatten).length = expected.size ∧
      sha256 (bytes ++ chunks.flatten) = expected.ciphertextSha256 := by
  induction chunks generalizing bytes with
  | nil =>
    simp only [readCiphertext, refuse_ok_iff, not_or, not_not] at h
    rw [List.flatten_nil, List.append_nil]
    exact h
  | cons chunk chunks ih =>
    simp only [readCiphertext, bind_ok_iff] at h
    obtain ⟨_, -, hrest⟩ := h
    rw [List.flatten_cons, ← List.append_assoc]
    exact ih hrest

section Runs

variable {sha256 : Bytes → String} {bucket : History} {intent : Intent} {n m : Nat}

/-- The retention that the intent asks for was in force when somebody looked. -/
def Retained (bucket : History) (intent : Intent) (versionId : String) : Prop :=
  ∃ n retained, bucket.retention n (intent.key, versionId) = some retained ∧
    retained.mode = intent.retention.mode ∧ intent.retention.retainUntil ≤ retained.retainUntil

/-- A program that lists nothing, and what its success tells. -/
def Tells (P : Prop) (τ : List (Exchange interface)) (out : Except WorkFault Unit) : Prop :=
  listed τ = [] ∧ (out = .ok () → P)

theorem meets_checkRetention {versionId : String} {current : Bool} :
    Meets (bucket.answers sha256) n (checkRetention ⟨intent, versionId⟩ current) 2
      (Tells (Retained bucket intent versionId)) := by
  have hbind : checkRetention ⟨intent, versionId⟩ current =
      (retainedUntil ⟨intent, versionId⟩ current).bind fun _ => .done (.ok ()) := rfl
  rw [hbind]
  have hretained : Meets (bucket.answers sha256) n (retainedUntil ⟨intent, versionId⟩ current) 2
      fun τ out => listed τ = [] ∧ ∀ until', out = .ok until' → Retained bucket intent versionId := by
    refine meets_ask fun reply hreply => ?_
    refine meets_thrown (fun retained hok => ?_) fun e _ => ⟨rfl, fun _ h => by cases h⟩
    refine meets_ask fun now _ => ?_
    refine meets_refuseIf (fun hpass => Meets.done ⟨rfl, fun _ _ => ?_⟩)
      fun _ => ⟨rfl, fun _ h => by cases h⟩
    subst hok
    simp only [not_or, not_not, Nat.not_lt] at hpass
    exact ⟨n, retained, hreply.2, hpass.1, hpass.2.1⟩
  refine hretained.bind (l := 0) (fun τ until' h _ => Meets.done ?_) fun τ e h => ?_
  · rw [List.append_nil]
    exact ⟨h.1, fun _ => h.2 until' rfl⟩
  · exact ⟨h.1, fun hnone => by cases hnone⟩

theorem meets_inspectMetadata {versionId : String} {current : Bool} :
    Meets (bucket.answers sha256) n (inspectMetadata ⟨intent, versionId⟩ current) 3
      (Tells (Intended bucket intent versionId ∧ Retained bucket intent versionId)) := by
  refine meets_ask fun reply hreply => ?_
  refine meets_thrown (fun head hok => ?_) fun e _ => ⟨rfl, fun h => by cases h⟩
  subst hok
  obtain ⟨-, rfl⟩ := hreply
  refine meets_checkMetadata (fun hintended => ?_) fun _ e => ⟨rfl, fun h => by cases h⟩
  exact meets_checkRetention.mono (Nat.le_refl 2) fun τ out h => ⟨h.1, fun hout => ⟨hintended, h.2 hout⟩⟩

theorem meets_readVersion {versionId : String} {current : Bool} :
    Meets (bucket.answers sha256) n (readVersion ⟨intent, versionId⟩ current) 3
      (Tells (Verified bucket intent sha256 versionId)) := by
  refine meets_ask fun reply hreply => ?_
  refine meets_thrown (fun head hok => ?_) fun e _ => ⟨rfl, fun h => by cases h⟩
  subst hok
  obtain ⟨hpresent, rfl, chunks, hbytes, hread⟩ := hreply
  have hdigest := (readCiphertext_ok hread).2
  rw [List.nil_append, hbytes] at hdigest
  refine meets_checkMetadata (fun hintended => ?_) fun _ e => ⟨rfl, fun h => by cases h⟩
  exact meets_checkRetention.mono (Nat.le_refl 2) fun τ out h =>
    ⟨h.1, fun hout => ⟨hintended, hdigest, ⟨n, hpresent⟩, h.2 hout⟩⟩

/-- The last page: nothing without a candidate, and a verified one otherwise. -/
def CandidateEnds (sha256 : Bytes → String) (bucket : History) (intent : Intent)
    (candidates : List String) : Except WorkFault (Option Receipt) → Prop
  | .ok (some receipt) => ∃ versionId rest, candidates = versionId :: rest ∧
      receipt = ⟨intent, versionId⟩ ∧ Verified bucket intent sha256 versionId
  | .ok none => candidates = []
  | .error _ => candidates ≠ []

theorem meets_verifyCandidate (candidates : List String) :
    Meets (bucket.answers sha256) n (verifyCandidate intent candidates) 6 fun τ out =>
      listed τ = [] ∧ CandidateEnds sha256 bucket intent candidates out := by
  cases candidates with
  | nil => exact Meets.done ⟨rfl, rfl⟩
  | cons versionId rest =>
    refine meets_receiptOf (fun _ => ?_) fun _ e => ⟨rfl, List.cons_ne_nil _ _⟩
    refine meets_inspectMetadata.bind (l := 3) (fun τ _ h _ => ?_)
      fun τ e h => ⟨h.1, List.cons_ne_nil _ _⟩
    refine meets_readVersion.bind (l := 0) (fun τ' _ h' _ => Meets.done ?_) fun τ' e h' => ?_
    · rw [List.append_nil, listed_append, h.1, h'.1]
      exact ⟨rfl, versionId, rest, rfl, rfl, h'.2 rfl⟩
    · rw [listed_append, h.1, h'.1]
      exact ⟨rfl, List.cons_ne_nil _ _⟩

/-! ## The listing -/

theorem page_truncated (key : String) (marker : Option VersionRef) :
    (bucket.page n key marker).isTruncated = some (decide (32 < (bucket.matching n key marker).length)) :=
  rfl

theorem page_versions_le (key : String) (marker : Option VersionRef) :
    (bucket.page n key marker).versions.length ≤ 32 := by
  have hfilter := List.length_filter_le (fun ref => !(bucket.content ref).deleteMarker)
    ((bucket.matching n key marker).take 32)
  have htake := List.length_take_le 32 (bucket.matching n key marker)
  simp only [History.page, List.length_map]
  omega

theorem mem_matching {key : String} {marker : Option VersionRef} {ref : VersionRef} :
    ref ∈ bucket.matching n key marker ↔ ref ∈ bucket.present n ∧
      key.toList.isPrefixOf ref.1.toList = true ∧
      ∀ last ∈ marker, bucket.rank last < bucket.rank ref := by
  cases marker <;> simp [History.matching]

/-- What the window shows of a version that is no delete marker. -/
theorem mem_versions {key : String} {marker : Option VersionRef} {ref : VersionRef}
    (h : ref ∈ (bucket.matching n key marker).take 32)
    (hobject : (bucket.content ref).deleteMarker = false) :
    (⟨ref.1, ref.2⟩ : ListedVersion) ∈ (bucket.page n key marker).versions := by
  refine List.mem_map.mpr ⟨ref, List.mem_filter.mpr ⟨h, ?_⟩, rfl⟩
  simp [hobject]

/-- A listing that goes on names the last version it showed. -/
theorem page_next {key : String} {marker : Option VersionRef}
    (h : 32 < (bucket.matching n key marker).length) :
    ∃ last, (bucket.page n key marker).next = some last ∧
      last ∈ bucket.matching n key marker ∧
      ∀ ref ∈ bucket.matching n key marker,
        ref ∈ (bucket.matching n key marker).take 32 ∨ bucket.rank last < bucket.rank ref := by
  obtain ⟨found, hfound⟩ : ∃ found, bucket.matching n key marker = found := ⟨_, rfl⟩
  rw [hfound] at h ⊢
  have hne : found.take 32 ≠ [] := by
    intro hnil
    have := congrArg List.length hnil
    rw [List.length_take, List.length_nil] at this
    omega
  have hnext : (bucket.page n key marker).next = (found.take 32).getLast? := by
    simp only [History.page, hfound, if_pos h]
  refine ⟨(found.take 32).getLast hne, ?_, List.mem_of_mem_take (List.getLast_mem hne), ?_⟩
  · rw [hnext, List.getLast?_eq_some_getLast hne]
  · -- what the window leaves out comes behind all of it
    intro ref href
    rw [← List.take_append_drop 32 found, List.mem_append] at href
    rcases href with hwindow | hrest
    · exact .inl hwindow
    · right
      have hsorted : found.Pairwise fun ref next => bucket.rank ref < bucket.rank next := by
        rw [← hfound]
        exact (bucket.sorted n).sublist List.filter_sublist
      rw [← List.take_append_drop 32 found, List.pairwise_append] at hsorted
      exact hsorted.2.2 _ (List.getLast_mem hne) _ hrest

/-- A listing that goes on goes forward. -/
theorem page_advances {key : String} {marker : Option VersionRef}
    (h : 32 < (bucket.matching n key marker).length) :
    ¬ ((bucket.page n key marker).next = none ∨ (bucket.page n key marker).next = marker) := by
  obtain ⟨last, hnext, hmem, -⟩ := page_next h
  rw [hnext]
  rintro (hnone | hsame)
  · cases hnone
  · exact absurd ((mem_matching.mp hmem).2.2 last hsame.symm) (lt_irrefl _)

/-! ## The candidates of a page -/

theorem attemptIds_append (versions versions' : List ListedVersion) :
    attemptIds bucket intent (versions ++ versions') =
      attemptIds bucket intent versions ++ attemptIds bucket intent versions' := by
  rw [attemptIds, List.filter_append, List.map_append]
  rfl

theorem attemptIds_skip {version : ListedVersion} {versions : List ListedVersion}
    (h : ofAttempt bucket intent version = false) :
    attemptIds bucket intent (version :: versions) = attemptIds bucket intent versions := by
  rw [attemptIds, List.filter_cons_of_neg (by simp [h])]
  rfl

theorem attemptIds_take {version : ListedVersion} {versions : List ListedVersion}
    (h : ofAttempt bucket intent version = true) :
    attemptIds bucket intent (version :: versions) =
      version.versionId :: attemptIds bucket intent versions := by
  rw [attemptIds, List.filter_cons_of_pos h]
  rfl

/-- What the versions of a page make of the candidates before it. -/
def ScanEnds (bucket : History) (intent : Intent) (versions : List ListedVersion)
    (candidates : List String) (τ : List (Exchange interface)) :
    Except WorkFault (Option (List String)) → Prop
  | .ok (some found) => found = candidates ++ attemptIds bucket intent versions ∧ found.length ≤ 1
  | .ok none => 1 < (candidates ++ attemptIds bucket intent versions).length
  | .error _ => Failed τ ∨ ∃ version ∈ versions, Misfit bucket intent version

theorem ScanEnds.skip {version : ListedVersion} {versions : List ListedVersion}
    {candidates : List String} {τ σ : List (Exchange interface)}
    {out : Except WorkFault (Option (List String))}
    (h : ScanEnds bucket intent versions candidates τ out)
    (hskip : ofAttempt bucket intent version = false) :
    ScanEnds bucket intent (version :: versions) candidates (σ ++ τ) out := by
  match out with
  | .ok (some found) => exact ⟨by rw [attemptIds_skip hskip]; exact h.1, h.2⟩
  | .ok none =>
    show 1 < (candidates ++ attemptIds bucket intent (version :: versions)).length
    rw [attemptIds_skip hskip]
    exact h
  | .error _ =>
    rcases h with hfailed | ⟨other, hm, hmisfit⟩
    · exact .inl hfailed.append_right
    · exact .inr ⟨other, List.mem_cons_of_mem version hm, hmisfit⟩

theorem ScanEnds.take {version : ListedVersion} {versions : List ListedVersion}
    {candidates : List String} {τ σ : List (Exchange interface)}
    {out : Except WorkFault (Option (List String))}
    (h : ScanEnds bucket intent versions (candidates ++ [version.versionId]) τ out)
    (htake : ofAttempt bucket intent version = true) :
    ScanEnds bucket intent (version :: versions) candidates (σ ++ τ) out := by
  have hids : candidates ++ attemptIds bucket intent (version :: versions) =
      candidates ++ [version.versionId] ++ attemptIds bucket intent versions := by
    rw [attemptIds_take htake, List.append_assoc]
    rfl
  match out with
  | .ok (some found) => exact ⟨by rw [hids]; exact h.1, h.2⟩
  | .ok none =>
    show 1 < (candidates ++ attemptIds bucket intent (version :: versions)).length
    rw [hids]
    exact h
  | .error _ =>
    rcases h with hfailed | ⟨other, hm, hmisfit⟩
    · exact .inl hfailed.append_right
    · exact .inr ⟨other, List.mem_cons_of_mem version hm, hmisfit⟩

/-- Induction on the versions of the page; each is asked about once at most. -/
theorem meets_scanVersions (versions : List ListedVersion) (candidates : List String)
    (hone : candidates.length ≤ 1) :
    Meets (bucket.answers sha256) n (scanVersions intent versions candidates) versions.length
      fun τ out => listed τ = [] ∧ ScanEnds bucket intent versions candidates τ out := by
  induction versions generalizing candidates n with
  | nil =>
    refine Meets.done ⟨rfl, ?_, hone⟩
    exact (List.append_nil candidates).symm
  | cons version versions ih =>
    rw [scanVersions]
    by_cases hkey : version.key = intent.key
    · rw [if_neg (not_not.mpr hkey), List.length_cons]
      have hofAttempt : ofAttempt bucket intent version =
          decide ((bucket.content (intent.key, version.versionId)).metadata.map Metadata.attempt =
            some intent.attemptId) := by
        simp [ofAttempt, hkey]
      refine meets_receiptOf (fun _ => ?_)
        fun hid e => ⟨rfl, .inr ⟨version, List.mem_cons_self, hkey, .inl hid⟩⟩
      refine meets_ask fun reply hreply => ?_
      refine meets_thrown (fun head hok => ?_)
        fun e herror => ⟨rfl, .inl ⟨_, List.mem_cons_self, by subst herror; rfl⟩⟩
      subst hok
      obtain ⟨-, rfl⟩ := hreply
      by_cases hattempt : (bucket.head (intent.key, version.versionId)).metadata.map
          Metadata.attempt = some intent.attemptId
      · have htake : ofAttempt bucket intent version = true := by rw [hofAttempt]; simpa [History.head] using hattempt
        rw [if_neg (not_not.mpr hattempt)]
        refine meets_checkMetadata (fun _ => ?_) fun hbad e =>
          ⟨rfl, .inr ⟨version, List.mem_cons_self, hkey, .inr ⟨htake, hbad⟩⟩⟩
        by_cases hmany : 1 < (candidates ++ [version.versionId]).length
        · rw [if_pos hmany]
          refine Meets.done ⟨rfl, ?_⟩
          show 1 < (candidates ++ attemptIds bucket intent (version :: versions)).length
          rw [attemptIds_take htake]
          simp only [List.length_append, List.length_cons, List.length_nil] at hmany ⊢
          omega
        · rw [if_neg hmany]
          refine (ih (n := n + 1) _ (Nat.not_lt.mp hmany)).mono (Nat.le_refl _) fun τ out h => ?_
          exact ⟨h.1, h.2.take (σ := [_]) htake⟩
      · have hskip : ofAttempt bucket intent version = false := by rw [hofAttempt]; simpa [History.head] using hattempt
        rw [if_pos hattempt]
        refine (ih (n := n + 1) _ hone).mono (Nat.le_refl _) fun τ out h => ?_
        exact ⟨h.1, h.2.skip (σ := [_]) hskip⟩
    · have hskip : ofAttempt bucket intent version = false := by simp [ofAttempt, hkey]
      rw [if_pos hkey]
      exact (ih candidates hone).mono (Nat.le_succ _) fun τ out h => ⟨h.1, h.2.skip (σ := []) hskip⟩

/-! ## The pages -/

/-- Every version under the prefix and behind the marker that was there all the time was listed. -/
def Complete (bucket : History) (key : String) (n : Nat) (marker : Option VersionRef)
    (τ : List (Exchange interface)) : Prop :=
  ∀ ref : VersionRef, (∀ k, n ≤ k → k < n + τ.length → ref ∈ bucket.present k) →
    key.toList.isPrefixOf ref.1.toList = true →
    (∀ last ∈ marker, bucket.rank last < bucket.rank ref) →
    (bucket.content ref).deleteMarker = false → ⟨ref.1, ref.2⟩ ∈ listed τ

/-- The end of a recovery that has `candidates` from the pages before. -/
def PagesEnd (sha256 : Bytes → String) (bucket : History) (intent : Intent) (n : Nat)
    (marker : Option VersionRef) (candidates : List String) (τ : List (Exchange interface)) :
    Except WorkFault (Option Receipt) → Prop
  | .ok (some receipt) => ∃ versionId,
      candidates ++ attemptIds bucket intent (listed τ) = [versionId] ∧
      receipt = ⟨intent, versionId⟩ ∧ Verified bucket intent sha256 versionId ∧ Ended τ ∧
      Complete bucket intent.key n marker τ
  | .ok none => True
  | .error _ =>
    (Ended τ ∧ (candidates ++ attemptIds bucket intent (listed τ)).length = 1) ∨ Failed τ ∨
      ∃ version ∈ listed τ, Misfit bucket intent version

theorem listed_page {key : String} {marker : Option VersionRef} {page : VersionPage}
    (τ : List (Exchange interface)) :
    listed (⟨.listVersions key marker, .ok page⟩ :: τ) = page.versions ++ listed τ := rfl

/-- After the last page. -/
theorem PagesEnd.last {key : String} {marker : Option VersionRef} {candidates found : List String}
    {τ τ' : List (Exchange interface)} {out : Except WorkFault (Option Receipt)}
    (hkey : key = intent.key) (hlast : ¬ 32 < (bucket.matching n key marker).length)
    (hscan : ScanEnds bucket intent (bucket.page n key marker).versions candidates τ (.ok (some found)))
    (hlisted : listed τ = []) (hlisted' : listed τ' = [])
    (h : CandidateEnds sha256 bucket intent found out) :
    PagesEnd sha256 bucket intent n marker candidates
      (⟨.listVersions key marker, .ok (bucket.page n key marker)⟩ :: (τ ++ τ')) out := by
  subst hkey
  obtain ⟨hfound, hone⟩ := hscan
  have hended : Ended (⟨.listVersions intent.key marker, .ok (bucket.page n intent.key marker)⟩ ::
      (τ ++ τ')) := by
    refine ⟨_, List.mem_cons_self, ?_⟩
    simp [lastPage, page_truncated, hlast]
  have hall : listed (⟨.listVersions intent.key marker, .ok (bucket.page n intent.key marker)⟩ ::
      (τ ++ τ')) = (bucket.page n intent.key marker).versions := by
    rw [listed_page, listed_append, hlisted, hlisted', List.append_nil, List.append_nil]
  match out with
  | .ok (some receipt) =>
    obtain ⟨versionId, rest, hcons, hreceipt, hverified⟩ := h
    rw [hcons] at hfound hone
    obtain rfl : rest = [] := by
      apply List.eq_nil_of_length_eq_zero
      simp only [List.length_cons] at hone
      omega
    refine ⟨versionId, by rw [hall]; exact hfound.symm, hreceipt, hverified, hended, ?_⟩
    intro ref hpresent hprefix hbehind hobject
    rw [hall]
    have hmatching : ref ∈ bucket.matching n intent.key marker :=
      mem_matching.mpr ⟨hpresent n (Nat.le_refl n) (by simp), hprefix, hbehind⟩
    refine mem_versions ?_ hobject
    rw [List.take_of_length_le (Nat.not_lt.mp hlast)]
    exact hmatching
  | .ok none => trivial
  | .error _ =>
    refine .inl ⟨hended, ?_⟩
    rw [hall, ← hfound]
    have hpos := List.length_pos_iff.mpr h
    omega

/-- Before a page that follows. -/
theorem PagesEnd.before {marker : Option VersionRef} {candidates found : List String}
    {τ τ' : List (Exchange interface)} {last : VersionRef}
    {out : Except WorkFault (Option Receipt)}
    (hbehind : ∀ ref ∈ bucket.matching n intent.key marker,
      ref ∈ (bucket.matching n intent.key marker).take 32 ∨ bucket.rank last < bucket.rank ref)
    (hscan : ScanEnds bucket intent (bucket.page n intent.key marker).versions candidates τ
      (.ok (some found)))
    (hlisted : listed τ = [])
    (h : PagesEnd sha256 bucket intent (n + 1 + τ.length) (some last) found τ' out) :
    PagesEnd sha256 bucket intent n marker candidates
      (⟨.listVersions intent.key marker, .ok (bucket.page n intent.key marker)⟩ :: (τ ++ τ')) out := by
  obtain ⟨hfound, -⟩ := hscan
  have hall : listed (⟨.listVersions intent.key marker, .ok (bucket.page n intent.key marker)⟩ ::
      (τ ++ τ')) = (bucket.page n intent.key marker).versions ++ listed τ' := by
    rw [listed_page, listed_append, hlisted, List.nil_append]
  have hids : candidates ++ attemptIds bucket intent
      ((bucket.page n intent.key marker).versions ++ listed τ') =
        found ++ attemptIds bucket intent (listed τ') := by
    rw [attemptIds_append, ← List.append_assoc, ← hfound]
  match out with
  | .ok (some receipt) =>
    obtain ⟨versionId, hcandidates, hreceipt, hverified, hended, hcomplete⟩ := h
    refine ⟨versionId, by rw [hall, hids]; exact hcandidates, hreceipt, hverified,
      hended.append_right (τ := _ :: τ), ?_⟩
    intro ref hpresent hprefix hafter hobject
    rw [hall, List.mem_append]
    have hmatching : ref ∈ bucket.matching n intent.key marker :=
      mem_matching.mpr ⟨hpresent n (Nat.le_refl n) (by simp), hprefix, hafter⟩
    rcases hbehind ref hmatching with hwindow | hlater
    · exact .inl (mem_versions hwindow hobject)
    · right
      refine hcomplete ref (fun k hfrom hto => hpresent k (by omega) ?_) hprefix ?_ hobject
      · simp only [List.length_cons, List.length_append]
        omega
      · rintro _ ⟨⟩
        exact hlater
  | .ok none => trivial
  | .error _ =>
    rcases h with ⟨hended, hone⟩ | hfailed | ⟨version, hm, hmisfit⟩
    · exact .inl ⟨hended.append_right (τ := _ :: τ), by rw [hall, hids]; exact hone⟩
    · exact .inr (.inl (hfailed.append_right (τ := _ :: τ)))
    · exact .inr (.inr ⟨version, by rw [hall]; exact List.mem_append_right _ hm, hmisfit⟩)

/-- Induction on the pages that are left. -/
theorem meets_recoverPages (pages : Nat) (marker : Option VersionRef) (candidates : List String)
    (hone : candidates.length ≤ 1) :
    Meets (bucket.answers sha256) n (recoverPages intent pages marker candidates) (33 * pages + 6)
      (PagesEnd sha256 bucket intent n marker candidates) := by
  induction pages generalizing n marker candidates with
  | zero => exact Meets.done trivial
  | succ pages ih =>
    have hbound : 33 * (pages + 1) + 6 = 32 + (33 * pages + 6) + 1 := by omega
    rw [recoverPages, hbound]
    refine meets_ask fun reply hreply => ?_
    refine meets_thrown (fun page hok => ?_)
      fun e herror => .inr (.inl ⟨_, List.mem_cons_self, by subst herror; rfl⟩)
    subst hok
    obtain rfl : page = bucket.page n intent.key marker := hreply
    refine meets_refuseIf (fun _ => ?_) fun hnone => ?_
    · have hscan : Meets (bucket.answers sha256) (n + 1)
          (scanVersions intent (bucket.page n intent.key marker).versions candidates) 32
          fun τ out => listed τ = [] ∧
            ScanEnds bucket intent (bucket.page n intent.key marker).versions candidates τ out :=
        (meets_scanVersions _ candidates hone).mono (page_versions_le intent.key marker)
          fun _ _ h => h
      refine hscan.bind (fun τ found h _ => ?_) fun τ e h => ?_
      · cases found with
        | none => exact Meets.done trivial
        | some found =>
          by_cases htruncated : 32 < (bucket.matching n intent.key marker).length
          · obtain ⟨last, hnext, -, hbehind⟩ := page_next htruncated
            have hgoes : (bucket.page n intent.key marker).isTruncated ≠ some false := by
              simp [page_truncated, htruncated]
            simp only [if_neg hgoes]
            refine meets_refuseIf (fun _ => ?_) fun hstuck => absurd hstuck (page_advances htruncated)
            rw [hnext]
            exact (ih (some last) found h.2.2).mono (Nat.le_refl _) fun τ' out hrest =>
              PagesEnd.before hbehind h.2 h.1 hrest
          · have hstops : (bucket.page n intent.key marker).isTruncated = some false := by
              simp [page_truncated, htruncated]
            simp only [if_pos hstops]
            exact (meets_verifyCandidate found).mono (by omega) fun τ' out hrest =>
              PagesEnd.last rfl htruncated h.2 h.1 hrest.1 hrest.2
      · rcases h.2 with hfailed | ⟨version, hm, hmisfit⟩
        · exact .inr (.inl (hfailed.append_right (τ := [_])))
        · exact .inr (.inr ⟨version, List.mem_append_left _ hm, hmisfit⟩)
    · rw [page_truncated] at hnone
      cases hnone

/-! ## Upload and recovery -/

/-- `bind` in front of a program. -/
theorem meets_bind {β : Type} {config : StoreConfig} {current : Bool} {f : Intent → Program β}
    {post : List (Exchange interface) → Except WorkFault β → Prop}
    (hok : ∀ now, Bound config intent → Meets (bucket.answers sha256) (n + 1) (f intent) m
      fun τ out => post (⟨.localClock, now⟩ :: τ) out)
    (herror : ∀ now e, (current = false → ¬ Bound config intent) →
      post [⟨.localClock, now⟩] (.error e)) :
    Meets (bucket.answers sha256) n ((bind config intent current).bind f) (m + 1) post := by
  have hbind : (bind config intent current).bind f = .call .localClock fun now =>
      (refuseIf (intent.storeId ≠ config.storeId ∨ intent.bucket ≠ config.bucket ∨
        intent.key ≠ objectKey config intent.attemptId ∨ config.maxBytes < intent.digests.size ∨
        (current = true ∧ intent.retention.retainUntil ≤ now))
        "Backup receipt does not match this protected store.").bind fun _ => f intent := by
    show Prog.call _ _ = _
    congr 1
    funext now
    show ((refuseIf _ _).bind _).bind f = _
    unfold refuseIf refuse
    split <;> rfl
  rw [hbind]
  refine Meets.call fun now _ => meets_refuseIf (fun hpass => hok now ?_) fun hbad => ?_
  · simp only [not_or, not_not, Nat.not_lt] at hpass
    exact ⟨hpass.1, hpass.2.1, hpass.2.2.1, hpass.2.2.2.1⟩
  · refine herror now _ fun hcurrent hbound => ?_
    rcases hbad with h | h | h | h | h
    · exact h hbound.storeId
    · exact h hbound.bucket
    · exact h hbound.key
    · exact absurd hbound.size (Nat.not_le.mpr h)
    · rw [hcurrent] at h
      cases h.1

/-- What a recovered receipt stands for: of the versions that name the attempt, the one that was
    listed, in a listing that came to its end; it holds what was intended; and no other one was in
    the bucket all the time. -/
structure Recovery (sha256 : Bytes → String) (bucket : History) (intent : Intent)
    (τ : List (Exchange interface)) (receipt : Receipt) : Prop where
  intended : receipt.intent = intent
  verified : Verified bucket intent sha256 receipt.versionId
  only : attemptIds bucket intent (listed τ) = [receipt.versionId]
  ended : Ended τ
  alone : ∀ versionId, (∀ k < τ.length, (intent.key, versionId) ∈ bucket.present k) →
    (bucket.content (intent.key, versionId)).deleteMarker = false →
    (bucket.content (intent.key, versionId)).metadata.map Metadata.attempt =
      some intent.attemptId → versionId = receipt.versionId

/-- The end of `recover`. -/
def RecoverEnds (sha256 : Bytes → String) (bucket : History) (config : StoreConfig)
    (intent : Intent) (τ : List (Exchange interface)) : Except WorkFault (Option Receipt) → Prop
  | .ok (some receipt) => Recovery sha256 bucket intent τ receipt
  | .ok none => True
  | .error _ => (Ended τ ∧ (attemptIds bucket intent (listed τ)).length = 1) ∨
      ¬ Bound config intent ∨ Failed τ ∨ ∃ version ∈ listed τ, Misfit bucket intent version

theorem PagesEnd.recovered {config : StoreConfig} {now : Instant}
    {τ : List (Exchange interface)} {out : Except WorkFault (Option Receipt)}
    (h : PagesEnd sha256 bucket intent 2 none [] τ out) :
    RecoverEnds sha256 bucket config intent
      (⟨.localClock, now⟩ :: ⟨.checkProtection, .ok ()⟩ :: τ) out := by
  match out with
  | .ok (some receipt) =>
    obtain ⟨versionId, honly, rfl, hverified, hended, hcomplete⟩ := h
    rw [List.nil_append] at honly
    refine ⟨rfl, hverified, honly, hended.append_right (τ := [_, _]), ?_⟩
    intro other hpresent hobject hattempt
    have hlisted : (⟨intent.key, other⟩ : ListedVersion) ∈ listed τ := by
      refine hcomplete (intent.key, other) (fun k _ hk => hpresent k ?_) (by simp)
        (fun _ hnone => by cases hnone) hobject
      simp only [List.length_cons]
      omega
    have hmem : other ∈ attemptIds bucket intent (listed τ) := by
      refine List.mem_map.mpr ⟨_, List.mem_filter.mpr ⟨hlisted, ?_⟩, rfl⟩
      simp [ofAttempt, hattempt]
    rw [honly] at hmem
    exact List.mem_singleton.mp hmem
  | .ok none => trivial
  | .error _ =>
    rcases h with ⟨hended, hone⟩ | hfailed | hmisfit
    · exact .inl ⟨hended.append_right (τ := [_, _]), hone⟩
    · exact .inr (.inr (.inl (hfailed.append_right (τ := [_, _]))))
    · exact .inr (.inr (.inr hmisfit))

theorem meets_recover {config : StoreConfig} :
    Meets (bucket.answers sha256) 0 (recover config intent) 140
      (RecoverEnds sha256 bucket config intent) := by
  refine meets_bind (fun now _ => ?_) fun now e hunbound => .inr (.inl (hunbound rfl))
  refine meets_ask fun reply _ => ?_
  refine meets_thrown (fun _ hok => ?_) fun e herror => ?_
  · subst hok
    exact (meets_recoverPages 4 none [] (Nat.zero_le 1)).mono (Nat.le_refl _)
      fun τ out h => h.recovered
  · subst herror
    exact .inr (.inr (.inl ⟨⟨.checkProtection, .error e⟩, by simp, rfl⟩))

theorem meets_upload {config : StoreConfig} :
    Meets (bucket.answers sha256) 0 (upload config intent) 11 fun _ out =>
      ∀ receipt, out = .ok receipt →
        receipt.intent = intent ∧ Verified bucket intent sha256 receipt.versionId := by
  refine meets_bind (fun now _ => ?_) fun now e _ _ h => by cases h
  refine meets_ask fun protection _ => ?_
  refine meets_thrown (fun _ _ => ?_) fun e _ _ h => by cases h
  refine meets_ask fun reply _ => ?_
  refine meets_thrown (fun digests _ => ?_) fun e _ _ h => by cases h
  refine meets_ask fun submitted _ => ?_
  refine meets_refuseIf (fun _ => ?_) fun _ _ h => by cases h
  refine meets_ask fun put _ => ?_
  refine meets_thrown (fun versionId _ => ?_) fun e _ _ h => by cases h
  refine meets_receiptOf (fun _ => ?_) fun _ e _ h => by cases h
  refine meets_inspectMetadata.bind (l := 3) (fun τ _ h _ => ?_) fun τ e _ _ h => by cases h
  refine meets_readVersion.bind (l := 0) (fun τ' _ h' _ => Meets.done ?_) fun τ' e _ _ h => by cases h
  intro receipt hreceipt
  obtain rfl := Except.ok.inj hreceipt
  exact ⟨rfl, h'.2 rfl⟩

end Runs

/-- **Upload recovery.**  Whatever the bucket's history: a recovery ends after at most 140 requests;
    what it finds is the single version of the attempt that was listed, verified; with none or
    several of them listed, or a listing that did not come to its end, it returns nothing or fails,
    and it fails only over an intent of another store, a request that was not answered, or a listed
    version that is not what its name or its metadata promise.  A receipt of an upload stands for
    the recorded bytes as well. -/
theorem recovery_exact (sha256 : Bytes → String) (bucket : History) (config : StoreConfig)
    (intent : Intent) :
    (∀ τ p, Steps (bucket.answers sha256) 0 (recover config intent) τ p → τ.length ≤ 140) ∧
    (∀ τ receipt, Steps (bucket.answers sha256) 0 (recover config intent) τ
        (.done (.ok (some receipt))) → Recovery sha256 bucket intent τ receipt) ∧
    (∀ τ out, Steps (bucket.answers sha256) 0 (recover config intent) τ (.done out) →
      ((attemptIds bucket intent (listed τ)).length ≠ 1 ∨ ¬ Ended τ) →
      out = .ok none ∨ (∃ e, out = .error e) ∧
        (¬ Bound config intent ∨ Failed τ ∨ ∃ version ∈ listed τ, Misfit bucket intent version)) ∧
    (∀ τ receipt, Steps (bucket.answers sha256) 0 (upload config intent) τ (.done (.ok receipt)) →
      receipt.intent = intent ∧ Verified bucket intent sha256 receipt.versionId) := by
  have hrecover : Meets (bucket.answers sha256) 0 (recover config intent) 140
      (RecoverEnds sha256 bucket config intent) := meets_recover
  refine ⟨fun τ p h => (hrecover τ p h).1, fun τ receipt h => (hrecover τ _ h).2 _ rfl, ?_,
    fun τ receipt h => (meets_upload τ _ h).2 _ rfl receipt rfl⟩
  intro τ out h hunsettled
  have hends := (hrecover τ _ h).2 _ rfl
  match out with
  | .ok (some receipt) =>
    rcases hunsettled with hcount | hopen
    · rw [hends.only] at hcount
      exact absurd rfl hcount
    · exact absurd hends.ended hopen
  | .ok none => exact .inl rfl
  | .error e =>
    rcases hends with ⟨hended, hone⟩ | hreason
    · rcases hunsettled with hcount | hopen
      · exact absurd hone hcount
      · exact absurd hended hopen
    · exact .inr ⟨⟨e, rfl⟩, hreason⟩

/-! ## Runs in which every request is answered -/

namespace History

variable (sha256 : Bytes → String) (bucket : History)

/-- What an obliging store replies. -/
def reply (n : Nat) : (c : Call) → c.Reply
  | .listVersions key marker => .ok (bucket.page n key marker)
  | .headObject key versionId =>
    if (key, versionId) ∈ bucket.present n then .ok (bucket.head (key, versionId))
    else .error (.other "NotFound")
  | .getObject receipt =>
    let ref := (receipt.intent.key, receipt.versionId)
    if ref ∈ bucket.present n ∧
        (readCiphertext sha256 receipt.intent.digests [] [(bucket.content ref).bytes]).isOk = true then
      .ok (bucket.head ref)
    else .error (.other "NoSuchVersion")
  | .getRetention receipt =>
    let ref := (receipt.intent.key, receipt.versionId)
    match bucket.retention n ref with
    | some retained =>
      if ref ∈ bucket.present n then .ok retained else .error (.other "NoSuchVersion")
    | none => .error (.other "NoSuchObjectLockConfiguration")
  | .localClock => (0 : Nat)
  | .checkProtection => .ok ()
  | .alreadySubmitted _ => false
  | .openGuest .. => .error (.other "unavailable")
  | .captureGuest _ => .error (.other "unavailable")
  | .readAndEncrypt .. => .error (.other "unavailable")
  | .removeGuest _ => .error (.other "unavailable")
  | .scratch _ => .error (.other "unavailable")
  | .requireScratchSpace _ => .error (.other "unavailable")
  | .cleanupScratch _ => .error (.other "unavailable")
  | .keyring => .error (.other "unavailable")
  | .verifyKey _ => .error (.other "unavailable")
  | .hashFile _ => .error (.other "unavailable")
  | .putObject _ => .error (.other "unavailable")
  | .probeVersion _ => .error (.other "unavailable")
  | .deleteVersion _ => .error (.other "unavailable")
  | .downloadAndDecrypt .. => .error (.other "unavailable")
  | .spawnRestore _ => .error (.other "unavailable")
  | .streamRestore _ => .error (.other "unavailable")
  | .inspectRestore _ => .error (.other "unavailable")

/-- Every request can be answered, so that every recovery can go on to its end. -/
theorem answers_reply (n : Nat) (c : Call) :
    bucket.answers sha256 n c (bucket.reply sha256 n c) := by
  cases c with
  | listVersions key marker => rfl
  | headObject key versionId =>
    simp only [reply]
    split
    · rename_i h
      exact ⟨h, rfl⟩
    · trivial
  | getObject receipt =>
    simp only [reply]
    split
    · rename_i h
      refine ⟨h.1, rfl, [_], List.flatten_singleton, ?_⟩
      revert h
      cases readCiphertext sha256 receipt.intent.digests []
        [(bucket.content (receipt.intent.key, receipt.versionId)).bytes] with
      | ok _ => exact fun _ => rfl
      | error e => exact fun h => absurd h.2 Bool.false_ne_true
    · trivial
  | getRetention receipt =>
    simp only [reply]
    split
    · rename_i retained hretained
      split
      · rename_i h
        exact ⟨h, hretained⟩
      · trivial
    · trivial
  | _ => trivial

end History

namespace Demo

def storeConfig : StoreConfig := ⟨"store", "bucket", "backups", 100⟩

def uploadIntent : Intent :=
  ⟨"store", "bucket", "backups/a.enc", "a", ⟨3, "digest", "md5"⟩, ⟨.governance, 5⟩⟩

/-- Three bytes have the recorded digest. -/
def digest (bytes : Bytes) : String := if bytes = [1, 2, 3] then "digest" else "other"

/-- Under the intended key: a version of somebody else, the uploaded one, and one that names the
    attempt with another size. -/
def content : VersionRef → Content
  | (_, "v1") => ⟨[1, 2, 3], some (metadata uploadIntent), false⟩
  | (_, "v2") => ⟨[1, 2], some (metadata uploadIntent), false⟩
  | _ => ⟨[7], none, false⟩

def rank : VersionRef → ℚ
  | (_, "v0") => 0
  | (_, "v1") => 1
  | _ => 2

/-- A bucket that stays as it is. -/
def bucketOf (present : List VersionRef)
    (h : present.Pairwise fun ref next => rank ref < rank next) : History where
  content := content
  rank := rank
  present _ := present
  retention _ _ := some ⟨.governance, 5⟩
  sorted _ := h

def stored : History :=
  bucketOf [("backups/a.enc", "v0"), ("backups/a.enc", "v1")] (by decide +kernel)

/-- The uploaded version is found. -/
def recovered : List (Exchange interface) × Program (Option Receipt) :=
  converse (stored.reply digest) 0 (recover storeConfig uploadIntent)

theorem recovered_found :
    Recovery digest stored uploadIntent recovered.1 ⟨uploadIntent, "v1"⟩ := by
  have hsteps := converse_steps (stored.answers_reply digest) 0 (recover storeConfig uploadIntent)
  exact (recovery_exact digest stored storeConfig uploadIntent).2.1 _ _ hsteps

def doubled : History :=
  bucketOf [("backups/a.enc", "v1"), ("backups/a.enc", "v2")] (by decide +kernel)

def confused : List (Exchange interface) × Program (Option Receipt) :=
  converse (doubled.reply digest) 0 (recover storeConfig uploadIntent)

/-- With two versions of the attempt listed, one of another size, a recovery fails: it does not
    return that the upload is unresolved. -/
theorem not_unresolved :
    ¬ ∀ (sha256 : Bytes → String) (bucket : History) (config : StoreConfig) (intent : Intent) τ out,
      Bound config intent → ¬ Failed τ →
      Steps (bucket.answers sha256) 0 (recover config intent) τ (.done out) →
      1 < (attemptIds bucket intent (listed τ)).length → out = .ok none := by
  intro h
  have hsteps := converse_steps (doubled.answers_reply digest) 0 (recover storeConfig uploadIntent)
  have hout := h digest doubled storeConfig uploadIntent confused.1 _
    ⟨rfl, rfl, by decide, by decide⟩ ?_ hsteps (by decide +kernel)
  · cases hout
  · have hanswered : confused.1.all (fun exchange => !failedExchange exchange) = true := by
      decide +kernel
    rintro ⟨exchange, hm, hfailed⟩
    have := List.all_eq_true.mp hanswered exchange hm
    rw [hfailed] at this
    cases this

end Demo

end AgentCloud.Backups
