/-
  PAGES OF A LOG: what a `logs` command replies, and what a client reads that follows `nextCursor`.

  A page holds at most 64 entries and stops before the entry that would take it beyond 65536 bytes,
  unless that entry is its first.  So a page is a prefix of what is left (`page_initial`) and is not
  empty while something is left (`page_progress`): following the cursor reads the file in order,
  every entry once (`follow_growing`), also while the run is still writing it.
-/
import AgentCloud.Commands.Output

namespace AgentCloud.Commands

open Checked Utf

/-! ## The reply -/

/-- `Buffer.byteLength(JSON.stringify(entry))`. -/
def LogEntry.bytes (entry : LogEntry) : Nat := byteLength entry.json

/-- The loop that fills a page: `logs` is the page so far, `size` its bytes. -/
def fill : List LogEntry → Nat → List LogEntry → List LogEntry
  | logs, _, [] => logs
  | logs, size, entry :: entries =>
    if logs ≠ [] ∧ size + entry.bytes > 65536 then logs
    else fill (logs ++ [entry]) (size + entry.bytes) entries

/-- The page at a cursor. -/
def page (entries : List LogEntry) (cursor : Nat) : List LogEntry :=
  fill [] 0 ((entries.drop cursor).take 64)

/-- The end of `command`: the reply about a run, with the page of its entries at the cursor. -/
def respond (run : RunSummary) (entries : List LogEntry) (cursor : Nat) :
    Except Fault RunResponse := do
  refuse (cursor > entries.length)
    (cloudError .invalidInput "Log cursor is beyond retained output.")
  let logs := page entries cursor
  pure
    { run, logs
      nextCursor := cursor + logs.length
      complete := run.state.terminal && decide (cursor + logs.length = entries.length) }

/-! ## Pages -/

/-- What `fill` adds to a page is a prefix of what it was offered. -/
theorem fill_eq (logs : List LogEntry) (size : Nat) (entries : List LogEntry) :
    ∃ more, more <+: entries ∧ fill logs size entries = logs ++ more := by
  induction entries generalizing logs size with
  | nil => exact ⟨[], List.prefix_refl _, (List.append_nil _).symm⟩
  | cons entry entries ih =>
    rw [fill]
    split
    · exact ⟨[], List.nil_prefix, (List.append_nil _).symm⟩
    · obtain ⟨more, hmore, heq⟩ := ih (logs ++ [entry]) (size + entry.bytes)
      refine ⟨entry :: more, ?_, by rw [heq, List.append_assoc]; rfl⟩
      exact List.cons_prefix_cons.mpr ⟨rfl, hmore⟩

theorem page_initial (entries : List LogEntry) (cursor : Nat) :
    page entries cursor <+: entries.drop cursor := by
  obtain ⟨more, hmore, heq⟩ := fill_eq [] 0 ((entries.drop cursor).take 64)
  rw [page, heq, List.nil_append]
  exact hmore.trans (List.take_prefix 64 _)

theorem page_length (entries : List LogEntry) (cursor : Nat) :
    (page entries cursor).length ≤ 64 := by
  obtain ⟨more, hmore, heq⟩ := fill_eq [] 0 ((entries.drop cursor).take 64)
  rw [page, heq, List.nil_append]
  have := hmore.length_le
  rw [List.length_take] at this
  omega

/-- The first entry of a page is taken whatever its size. -/
theorem page_progress {entries : List LogEntry} {cursor : Nat} (h : cursor < entries.length) :
    0 < (page entries cursor).length := by
  have hsplit : (entries.drop cursor).take 64 =
      entries[cursor] :: (entries.drop (cursor + 1)).take 63 := by
    rw [List.drop_eq_getElem_cons h, List.take_succ_cons]
  rw [page, hsplit, fill, if_neg (by simp)]
  obtain ⟨more, -, heq⟩ := fill_eq ([] ++ [entries[cursor]]) (0 + entries[cursor].bytes)
    ((entries.drop (cursor + 1)).take 63)
  rw [heq]
  simp

theorem page_end (entries : List LogEntry) {cursor : Nat} (h : cursor ≤ entries.length) :
    cursor + (page entries cursor).length ≤ entries.length := by
  have := (page_initial entries cursor).length_le
  rw [List.length_drop] at this
  omega

/-- A page continues what was read. -/
theorem take_page (entries : List LogEntry) (cursor : Nat) :
    entries.take cursor ++ page entries cursor =
      entries.take (cursor + (page entries cursor).length) := by
  obtain ⟨rest, hrest⟩ := page_initial entries cursor
  rw [List.take_add, ← hrest, List.take_left]

/-! ## Following the cursor -/

/-- A client that asks `n` times, from cursor 0 and then from the `nextCursor` it was told: what it
    has read, and its cursor.  At the `i`-th time the run and its file are `runs i` and
    `files i`. -/
def follow (runs : Nat → RunSummary) (files : Nat → List LogEntry) :
    Nat → Except Fault (List LogEntry × Nat)
  | 0 => .ok ([], 0)
  | n + 1 => do
    let (seen, cursor) ← follow runs files n
    let reply ← respond (runs n) (files n) cursor
    pure (seen ++ reply.logs, reply.nextCursor)

/-- **Run lemma.**  However the file grows meanwhile, a client has read the file up to its cursor,
    and one entry more at least with every reply as long as there is one. -/
theorem follow_growing (runs : Nat → RunSummary) {files : Nat → List LogEntry}
    (grows : ∀ i, files i <+: files (i + 1)) (n : Nat) :
    ∃ cursor, follow runs files n = .ok ((files n).take cursor, cursor) ∧
      cursor ≤ (files n).length ∧ min n (files 0).length ≤ cursor := by
  have hzero : ∀ i, (files 0).length ≤ (files i).length := by
    intro i
    induction i with
    | zero => exact Nat.le_refl _
    | succ i ih => exact Nat.le_trans ih (grows i).length_le
  induction n with
  | zero => exact ⟨0, rfl, Nat.zero_le _, by omega⟩
  | succ n ih =>
    obtain ⟨cursor, hfollow, hle, hmin⟩ := ih
    have hend := page_end (files n) hle
    have hlonger := (grows n).length_le
    refine ⟨cursor + (page (files n) cursor).length, ?_, by omega, ?_⟩
    · have hok : respond (runs n) (files n) cursor = .ok
          { run := runs n, logs := page (files n) cursor,
            nextCursor := cursor + (page (files n) cursor).length,
            complete := (runs n).state.terminal &&
              decide (cursor + (page (files n) cursor).length = (files n).length) } := by
        rw [respond, refuse, if_neg (by omega)]
        rfl
      have htake : (files n).take cursor ++ page (files n) cursor =
          (files (n + 1)).take (cursor + (page (files n) cursor).length) := by
        rw [take_page]
        obtain ⟨more, hmore⟩ := grows n
        rw [← hmore, List.take_append_of_le_length hend]
      rw [follow, hfollow]
      simp only [bind, Except.bind, hok, htake]
      rfl
    · by_cases hrest : cursor < (files n).length
      · have := page_progress hrest
        omega
      · have := hzero n
        omega

/-! ## Bounded output, read page by page -/

/-- What an execution keeps: per stream a prefix of its decoded output, in records that are short
    and made of whole characters, in a file within the budget. -/
structure Bounded (maximumOutputBytes : Nat) (events : List ChildEvent)
    (entries : List LogEntry) : Prop where
  pre : ∀ stream, textOf stream entries <+: decodedOutput stream events
  short : ∀ entry ∈ entries, entry.text.length ≤ 8192
  whole : ∀ entry ∈ entries, Whole entry.text
  size : fileBytes entries ≤ maximumOutputBytes

/-- What a client can rely on that reads a file page by page. -/
structure Paged (run : RunSummary) (entries : List LogEntry) : Prop where
  /-- After any number of replies it has read the entries before its cursor, each once, in order. -/
  ordered : ∀ n, ∃ cursor,
    follow (fun _ => run) (fun _ => entries) n = .ok (entries.take cursor, cursor)
  /-- After as many replies as there are entries it has read them all. -/
  all : follow (fun _ => run) (fun _ => entries) entries.length = .ok (entries, entries.length)
  progress : ∀ cursor reply, cursor < entries.length → respond run entries cursor = .ok reply →
    cursor < reply.nextCursor
  complete : ∀ cursor reply, respond run entries cursor = .ok reply → reply.complete = true →
    run.state.terminal = true ∧ reply.nextCursor = entries.length

/-- A part of the file that a crash left is bounded as well. -/
theorem Bounded.mono {maximumOutputBytes : Nat} {events : List ChildEvent}
    {entries part : List LogEntry} (h : Bounded maximumOutputBytes events entries)
    (hpart : part <+: entries) : Bounded maximumOutputBytes events part := by
  obtain ⟨rest, rfl⟩ := hpart
  refine ⟨fun stream => ?_, fun entry hentry => ?_, fun entry hentry => ?_, ?_⟩
  · have := h.pre stream
    rw [textOf_append] at this
    exact (List.prefix_append _ _).trans this
  · exact h.short entry (List.mem_append_left rest hentry)
  · exact h.whole entry (List.mem_append_left rest hentry)
  · have := h.size
    rw [fileBytes_append] at this
    omega

/-- **Bounded output.**  Whatever a command writes on its two streams, in whatever chunks, and
    whenever it is stopped: every file that its execution leaves, whole or cut off by a crash, is
    bounded; and every file is read page by page, each entry once and in order. -/
theorem output_bounded_and_paged :
    (∀ (maximumOutputBytes : Nat) (events : List ChildEvent) (part : List LogEntry),
      part <+: (execution maximumOutputBytes events).lines →
        Bounded maximumOutputBytes events part) ∧
    ∀ (run : RunSummary) (entries : List LogEntry), Paged run entries := by
  constructor
  · intro maximumOutputBytes events part hpart
    have h := kept_execution maximumOutputBytes events
    have hall : Bounded maximumOutputBytes events (execution maximumOutputBytes events).lines :=
      ⟨h.pre, fun entry he => (h.sound entry he).short, fun entry he => (h.sound entry he).whole,
        h.size⟩
    exact hall.mono hpart
  · intro run entries
    have hfollow := @follow_growing (fun _ => run) (fun _ => entries) fun _ => List.prefix_refl _
    refine ⟨fun n => ?_, ?_, fun cursor reply hlt h => ?_, fun cursor reply h hcomplete => ?_⟩
    · obtain ⟨cursor, hn, -⟩ := hfollow n
      exact ⟨cursor, hn⟩
    · obtain ⟨cursor, hn, hle, hmin⟩ := hfollow entries.length
      obtain rfl : cursor = entries.length := by omega
      rw [hn, List.take_length]
    · simp only [respond, bind_ok_iff, pure_ok_iff, refuse_ok_iff] at h
      obtain ⟨_, _, rfl⟩ := h
      have := page_progress hlt
      show cursor < cursor + (page entries cursor).length
      omega
    · simp only [respond, bind_ok_iff, pure_ok_iff, refuse_ok_iff] at h
      obtain ⟨_, _, rfl⟩ := h
      simpa only [Bool.and_eq_true, decide_eq_true_eq] using hcomplete

end AgentCloud.Commands
