/-
  BOUNDED OUTPUT: what `execute` keeps of the output of a command.

  Two streams share one budget of bytes.  Each chunk goes through its stream's decoder, what comes
  out is cut into records of at most 8192 code units, and a record is written if its JSON line still
  fits.  `bytes` counts the lines that did not fit as well, so that nothing is written after the
  first one of them: that is what makes the file a PREFIX of the output (`Kept`), although the stop
  reason that usually guards it may be another one by then.
-/
import AgentCloud.Commands.Records
import Mathlib.Data.List.Induction
import Mathlib.Logic.Function.Basic

namespace AgentCloud.Commands

open Utf

/-! ## The program -/

/-- The variables of `execute`, and the lines it has written to the output file. -/
structure Execution where
  reason : Option Termination
  bytes : Nat
  lines : List LogEntry
  /-- What the decoder of a stream holds back. -/
  held : Stream → Bytes

def Execution.start : Execution := ⟨none, 0, [], fun _ => []⟩

/-- `stop(why)`; the signals it sends are the child's business. -/
def Execution.stop (why : Termination) (run : Execution) : Execution :=
  if run.reason.isSome then run else { run with reason := some why }

/-- The line of an entry, as it is counted: `Buffer.byteLength(JSON.stringify(entry) + '\n')`. -/
def LogEntry.lineBytes (entry : LogEntry) : Nat := byteLength (entry.json ++ ofString "\n")

/-- Where a text longer than a record is cut. -/
def recordCut (text : Text) : Nat := if isHigh (text.getD 8191 0) then 8191 else 8192

theorem recordCut_bounds (text : Text) : 8191 ≤ recordCut text ∧ recordCut text ≤ 8192 := by
  unfold recordCut; split <;> omega

/-- `append(stream, text)`. -/
def append (maximumOutputBytes : Nat) (stream : Stream) (text : Text) (run : Execution) :
    Execution :=
  if text = [] ∨ run.reason = some .outputLimit then run
  else if _ : 8192 < text.length then
    append maximumOutputBytes stream (text.drop (recordCut text))
      (append maximumOutputBytes stream (text.take (recordCut text)) run)
  else if maximumOutputBytes < run.bytes + (LogEntry.mk stream text).lineBytes then
    Execution.stop .outputLimit
      { run with bytes := run.bytes + (LogEntry.mk stream text).lineBytes }
  else
    { run with bytes := run.bytes + (LogEntry.mk stream text).lineBytes,
               lines := run.lines ++ [⟨stream, text⟩] }
termination_by text.length
decreasing_by
  · have := recordCut_bounds text
    rw [List.length_take]
    omega
  · have := recordCut_bounds text
    rw [List.length_drop]
    omega

/-- What happens to a running child: a chunk of output, the timer, a signal to the worker, or an
    `error` event, which overrides the reason. -/
inductive ChildEvent where
  | data (stream : Stream) (chunk : Bytes)
  | timeout
  | interrupted
  | error

/-- The handler of an event. -/
def Execution.handle (maximumOutputBytes : Nat) (run : Execution) : ChildEvent → Execution
  | .data stream chunk =>
    append maximumOutputBytes stream (encode (write (run.held stream) chunk).2)
      { run with held := Function.update run.held stream (write (run.held stream) chunk).1 }
  | .timeout => run.stop .timeout
  | .interrupted => run.stop .interrupted
  | .error => { run with reason := some .startFailed }

/-- The end of a stream. -/
def Execution.flush (maximumOutputBytes : Nat) (stream : Stream) (run : Execution) : Execution :=
  append maximumOutputBytes stream (encode (sequence (run.held stream)))
    { run with held := Function.update run.held stream [] }

/-- The child closed: both decoders end. -/
def Execution.close (maximumOutputBytes : Nat) (run : Execution) : Execution :=
  (run.flush maximumOutputBytes .stdout).flush maximumOutputBytes .stderr

/-- `execute`, from the events of the child to its close. -/
def execution (maximumOutputBytes : Nat) (events : List ChildEvent) : Execution :=
  (events.foldl (Execution.handle maximumOutputBytes) .start).close maximumOutputBytes

/-- The result of a run that closed with this exit code. -/
def Execution.result (run : Execution) (code : Option Nat) (finishedAt : Instant) : RunResult :=
  match run.reason, code with
  | none, some code => .exited code finishedAt
  | reason, _ => .terminated (reason.getD .interrupted) finishedAt

/-! ## What it should keep -/

/-- The bytes a child wrote to a stream. -/
def written (stream : Stream) : List ChildEvent → Bytes
  | [] => []
  | .data other chunk :: events =>
    if other = stream then chunk ++ written stream events else written stream events
  | _ :: events => written stream events

/-- The decoded output of a stream. -/
def decodedOutput (stream : Stream) (events : List ChildEvent) : Text :=
  encode (decode (written stream events))

/-- The text of a stream in a list of entries. -/
def textOf (stream : Stream) : List LogEntry → Text
  | [] => []
  | entry :: entries =>
    if entry.stream = stream then entry.text ++ textOf stream entries else textOf stream entries

@[simp] theorem textOf_append (stream : Stream) (a b : List LogEntry) :
    textOf stream (a ++ b) = textOf stream a ++ textOf stream b := by
  induction a with
  | nil => rfl
  | cons entry a ih =>
    simp only [List.cons_append, textOf, ih]
    split <;> simp

/-- The size of the output file. -/
def fileBytes : List LogEntry → Nat
  | [] => 0
  | entry :: entries => entry.lineBytes + fileBytes entries

@[simp] theorem fileBytes_append (a b : List LogEntry) :
    fileBytes (a ++ b) = fileBytes a + fileBytes b := by
  induction a with
  | nil => simp [fileBytes]
  | cons entry a ih => simp only [List.cons_append, fileBytes, ih]; omega

/-- A record: not empty, at most 8192 code units, no surrogate without its pair. -/
structure LogEntry.Sound (entry : LogEntry) : Prop where
  nonempty : entry.text ≠ []
  short : entry.text.length ≤ 8192
  whole : Whole entry.text

/-! ## The invariant -/

/-- What `execute` has kept of the texts `output` it was given so far.  Nothing was left out as
    long as the count of bytes is within the budget. -/
structure Kept (maximumOutputBytes : Nat) (output : Stream → Text) (run : Execution) : Prop where
  pre : ∀ stream, textOf stream run.lines <+: output stream
  all : run.bytes ≤ maximumOutputBytes → ∀ stream, textOf stream run.lines = output stream
  counted : run.bytes ≤ maximumOutputBytes → fileBytes run.lines = run.bytes
  size : fileBytes run.lines ≤ maximumOutputBytes
  limited : run.reason = some .outputLimit → maximumOutputBytes < run.bytes
  sound : ∀ entry ∈ run.lines, entry.Sound

variable {maximumOutputBytes : Nat} {output : Stream → Text} {run : Execution}

/-- More text of one stream. -/
def extended (output : Stream → Text) (stream : Stream) (text : Text) : Stream → Text :=
  Function.update output stream (output stream ++ text)

theorem prefix_extended (output : Stream → Text) (stream other : Stream) (text : Text) :
    output other <+: extended output stream text other := by
  unfold extended
  by_cases h : other = stream
  · subst h
    rw [Function.update_self]
    exact List.prefix_append _ _
  · simp [Function.update_of_ne h]

/-- Once the budget is exceeded, whatever comes is beyond it. -/
theorem Kept.exceeded (h : Kept maximumOutputBytes output run) {next : Execution} {stream : Stream}
    {text : Text} (hlines : next.lines = run.lines) (hbytes : maximumOutputBytes < next.bytes) :
    Kept maximumOutputBytes (extended output stream text) next where
  pre other := hlines ▸ (h.pre other).trans (prefix_extended output stream other text)
  all hle := by omega
  counted hle := by omega
  size := hlines ▸ h.size
  limited _ := hbytes
  sound := hlines ▸ h.sound

theorem Kept.stop (h : Kept maximumOutputBytes output run) {why : Termination}
    (hwhy : why = .outputLimit → maximumOutputBytes < run.bytes) :
    Kept maximumOutputBytes output (run.stop why) := by
  unfold Execution.stop
  split
  · exact h
  · exact ⟨h.pre, h.all, h.counted, h.size, fun hreason => hwhy (Option.some.inj hreason), h.sound⟩

/-- A record that fits is one more line. -/
theorem Kept.push (h : Kept maximumOutputBytes output run) {stream : Stream} {text : Text}
    (hentry : (LogEntry.mk stream text).Sound)
    (hfits : run.bytes + (LogEntry.mk stream text).lineBytes ≤ maximumOutputBytes) :
    Kept maximumOutputBytes (extended output stream text)
      { run with bytes := run.bytes + (LogEntry.mk stream text).lineBytes,
                 lines := run.lines ++ [⟨stream, text⟩] } := by
  have hbytes : run.bytes ≤ maximumOutputBytes := by omega
  have hall : ∀ other, textOf other (run.lines ++ [⟨stream, text⟩]) =
      extended output stream text other := by
    intro other
    rw [textOf_append, h.all hbytes other]
    unfold extended
    by_cases hother : other = stream
    · subst hother
      simp [textOf]
    · rw [Function.update_of_ne hother]
      simp [textOf, Ne.symm hother]
  have hcounted : fileBytes (run.lines ++ [⟨stream, text⟩]) =
      run.bytes + (LogEntry.mk stream text).lineBytes := by
    rw [fileBytes_append, h.counted hbytes]
    simp [fileBytes]
  refine ⟨fun other => ?_, fun _ => hall, fun _ => hcounted, ?_, fun hreason => ?_,
    fun entry hmem => ?_⟩
  · show textOf other (run.lines ++ [⟨stream, text⟩]) <+: _
    simp [hall]
  · show fileBytes (run.lines ++ [⟨stream, text⟩]) ≤ _
    omega
  · have := h.limited hreason
    show _ < run.bytes + _
    omega
  · rcases List.mem_append.mp hmem with hmem | hmem
    · exact h.sound entry hmem
    · rw [List.mem_singleton] at hmem
      exact hmem ▸ hentry

/-- Cutting a text of whole characters where `append` does gives two of them. -/
theorem whole_recordCut {text : Text} (h : Whole text) (hlong : 8192 < text.length) :
    Whole (text.take (recordCut text)) ∧ Whole (text.drop (recordCut text)) := by
  refine Whole.split (by rwa [List.take_append_drop]) fun u hu v hv hhigh hlow => ?_
  have hlast : text.getD (recordCut text - 1) 0 = u := by
    have hb := recordCut_bounds text
    rw [List.getLast?_take, Option.mem_def] at hu
    have hget : text[recordCut text - 1]? = some text[recordCut text - 1] :=
      List.getElem?_eq_getElem (by omega)
    rw [if_neg (by omega), hget] at hu
    rw [List.getD_eq_getElem?_getD, hget]
    simpa using hu
  have hfirst : text.getD (recordCut text) 0 = v := by
    rw [List.head?_drop, Option.mem_def] at hv
    rw [List.getD_eq_getElem?_getD, hv]
    rfl
  -- either the unit before the cut is no high surrogate, or the unit behind it is one
  unfold recordCut at hlast hfirst
  split at hlast
  · next hcut =>
    rw [if_pos hcut] at hfirst
    rw [hfirst] at hcut
    simp only [isHigh, isLow, Bool.and_eq_true, decide_eq_true_eq] at hcut hlow
    omega
  · next hcut => exact hcut (by rw [hlast]; exact hhigh)

/-- **Step lemma.**  Appending a text of whole characters keeps what is kept a prefix. -/
theorem kept_append (stream : Stream) (text : Text) (hwhole : Whole text)
    (h : Kept maximumOutputBytes output run) :
    Kept maximumOutputBytes (extended output stream text)
      (append maximumOutputBytes stream text run) := by
  induction text, run using append.induct maximumOutputBytes stream generalizing output with
  | case1 text run hskip =>
    rw [append, if_pos hskip]
    rcases hskip with rfl | hreason
    · have hsame : extended output stream [] = output := by
        unfold extended
        rw [List.append_nil, Function.update_eq_self]
      rwa [hsame]
    · exact h.exceeded rfl (h.limited hreason)
  | case2 text run hskip hlong ihtake ihdrop =>
    rw [append, if_neg hskip, dif_pos hlong]
    obtain ⟨htake, hdrop⟩ := whole_recordCut hwhole hlong
    have hboth := ihdrop hdrop (ihtake htake h)
    have hjoin : extended (extended output stream (text.take (recordCut text))) stream
        (text.drop (recordCut text)) = extended output stream text := by
      unfold extended
      rw [Function.update_self, Function.update_idem, List.append_assoc, List.take_append_drop]
    rwa [hjoin] at hboth
  | case3 text run hskip hshort hover =>
    rw [append, if_neg hskip, dif_neg hshort, if_pos hover]
    have hover' : Kept maximumOutputBytes (extended output stream text)
        { run with bytes := run.bytes + (LogEntry.mk stream text).lineBytes } :=
      h.exceeded (by rfl) hover
    exact hover'.stop fun _ => hover
  | case4 text run hskip hshort hfits =>
    rw [append, if_neg hskip, dif_neg hshort, if_neg hfits]
    have hentry : (LogEntry.mk stream text).Sound :=
      ⟨fun hempty => hskip (.inl hempty), by simpa using hshort, hwhole⟩
    exact h.push hentry (by omega)

/-- What the decoders hold back does not matter to what is kept. -/
theorem Kept.holding (h : Kept maximumOutputBytes output run) (held : Stream → Bytes) :
    Kept maximumOutputBytes output { run with held } :=
  ⟨h.pre, h.all, h.counted, h.size, h.limited, h.sound⟩

theorem append_held (stream : Stream) (text : Text) :
    (append maximumOutputBytes stream text run).held = run.held := by
  induction text, run using append.induct maximumOutputBytes stream with
  | case1 text run hskip => rw [append, if_pos hskip]
  | case2 text run hskip hlong ihtake ihdrop =>
    rw [append, if_neg hskip, dif_pos hlong, ihdrop, ihtake]
  | case3 text run hskip hshort hover =>
    rw [append, if_neg hskip, dif_neg hshort, if_pos hover]
    unfold Execution.stop
    split <;> rfl
  | case4 text run hskip hshort hfits =>
    rw [append, if_neg hskip, dif_neg hshort, if_neg hfits]

/-! ## The run -/

/-- The text that a stream's decoder has let go of, and what it holds back. -/
def decoded (events : List ChildEvent) (stream : Stream) : Bytes × List Char :=
  write [] (written stream events)

theorem written_append (stream : Stream) (a b : List ChildEvent) :
    written stream (a ++ b) = written stream a ++ written stream b := by
  induction a with
  | nil => rfl
  | cons event a ih =>
    cases event with
    | data other chunk =>
      simp only [List.cons_append, written, ih]
      split <;> simp
    | timeout => exact ih
    | interrupted => exact ih
    | error => exact ih

theorem decoded_data (events : List ChildEvent) (stream : Stream) (chunk : Bytes) :
    decoded (events ++ [.data stream chunk]) stream =
      ((write (decoded events stream).1 chunk).1,
        (decoded events stream).2 ++ (write (decoded events stream).1 chunk).2) := by
  have hchunk : written stream [ChildEvent.data stream chunk] = chunk := by simp [written]
  unfold decoded
  rw [written_append, hchunk, write_append]

theorem decoded_other {events : List ChildEvent} {event : ChildEvent} {stream : Stream}
    (h : written stream [event] = []) : decoded (events ++ [event]) stream = decoded events stream := by
  unfold decoded
  rw [written_append, h, List.append_nil]

/-- **Run lemma.**  After any events, what is kept is kept of the output decoded so far. -/
theorem kept_events (maximumOutputBytes : Nat) (events : List ChildEvent) :
    Kept maximumOutputBytes (fun stream => encode (decoded events stream).2)
        (events.foldl (Execution.handle maximumOutputBytes) .start) ∧
      (events.foldl (Execution.handle maximumOutputBytes) .start).held =
        fun stream => (decoded events stream).1 := by
  induction events using List.reverseRecOn with
  | nil =>
    refine ⟨⟨fun _ => List.nil_prefix, fun _ _ => rfl, fun _ => rfl, Nat.zero_le _,
      fun h => ?_, fun _ h => ?_⟩, rfl⟩
    · cases h
    · cases h
  | append_singleton events event ih =>
    obtain ⟨hkept, hheld⟩ := ih
    rw [List.foldl_append]
    have hquiet : (∀ stream, written stream [event] = []) →
        (fun stream => decoded (events ++ [event]) stream) = decoded events := by
      intro h
      funext stream
      exact decoded_other (h stream)
    cases event with
    | data stream chunk =>
      have hother : ∀ other, other ≠ stream →
          decoded (events ++ [.data stream chunk]) other = decoded events other :=
        fun other hne => decoded_other (by simp [written, Ne.symm hne])
      have houtput : (fun other => encode (decoded (events ++ [.data stream chunk]) other).2) =
          extended (fun other => encode (decoded events other).2) stream
            (encode (write (decoded events stream).1 chunk).2) := by
        funext other
        unfold extended
        by_cases hne : other = stream
        · subst hne
          rw [Function.update_self, decoded_data, encode_append]
        · rw [Function.update_of_ne hne, hother other hne]
      constructor
      · rw [houtput]
        have hstep := kept_append stream (encode (write (decoded events stream).1 chunk).2)
          ⟨_, rfl⟩ (hkept.holding (Function.update (fun other => (decoded events other).1) stream
            (write (decoded events stream).1 chunk).1))
        simpa only [List.foldl_cons, List.foldl_nil, Execution.handle, hheld] using hstep
      · simp only [List.foldl_cons, List.foldl_nil, Execution.handle, append_held, hheld]
        funext other
        by_cases hne : other = stream
        · subst hne
          rw [Function.update_self, decoded_data]
        · rw [Function.update_of_ne hne, hother other hne]
    | timeout =>
      have hsame := hquiet fun _ => rfl
      simp only [funext_iff] at hsame
      simp only [hsame]
      refine ⟨hkept.stop (fun h => by cases h), ?_⟩
      rw [← hheld]
      simp only [List.foldl_cons, List.foldl_nil, Execution.handle, Execution.stop]
      split <;> rfl
    | interrupted =>
      have hsame := hquiet fun _ => rfl
      simp only [funext_iff] at hsame
      simp only [hsame]
      refine ⟨hkept.stop (fun h => by cases h), ?_⟩
      rw [← hheld]
      simp only [List.foldl_cons, List.foldl_nil, Execution.handle, Execution.stop]
      split <;> rfl
    | error =>
      have hsame := hquiet fun _ => rfl
      simp only [funext_iff] at hsame
      simp only [hsame]
      refine ⟨⟨hkept.pre, hkept.all, hkept.counted, hkept.size, fun h => ?_, hkept.sound⟩, ?_⟩
      · cases h
      · exact hheld

theorem kept_flush {held : Bytes} (stream : Stream) (h : Kept maximumOutputBytes output run)
    (hheld : run.held stream = held) :
    Kept maximumOutputBytes (extended output stream (encode (sequence held)))
        (run.flush maximumOutputBytes stream) ∧
      (run.flush maximumOutputBytes stream).held = Function.update run.held stream [] := by
  unfold Execution.flush
  rw [hheld]
  exact ⟨kept_append stream _ ⟨_, rfl⟩ (h.holding _), append_held stream _⟩

/-- What a whole run has kept, of everything its streams carried. -/
theorem kept_execution (maximumOutputBytes : Nat) (events : List ChildEvent) :
    Kept maximumOutputBytes (fun stream => decodedOutput stream events)
      (execution maximumOutputBytes events) := by
  obtain ⟨hkept, hheld⟩ := kept_events maximumOutputBytes events
  obtain ⟨hout, hheldout⟩ := kept_flush .stdout hkept (congrFun hheld .stdout)
  -- the end of one stream leaves the other decoder as it is
  have hother := (congrFun hheldout .stderr).trans (Function.update_of_ne (by decide) _ _)
  obtain ⟨herr, -⟩ := kept_flush .stderr hout (hother.trans (congrFun hheld .stderr))
  have houtput : (fun stream => decodedOutput stream events) =
      extended (extended (fun stream => encode (decoded events stream).2) .stdout
        (encode (sequence (decoded events .stdout).1))) .stderr
        (encode (sequence (decoded events .stderr).1)) := by
    funext stream
    cases stream <;> simp [extended, decodedOutput, decode, decoded]
  rw [houtput]
  exact herr

end AgentCloud.Commands
