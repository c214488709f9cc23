import RemoteDeck.Command.Output
import RemoteDeck.Lib.Budget
import RemoteDeck.Tunnel.Workers

/-! # The log of a tunnel

    `append_log_locked` puts a line at the end of the log of an entry and
    drops what the log has no room for, and `drain_stderr` cuts the errors of
    a child into lines.  The sections of code that run under the lock of an
    entry log in any order, the reader of a child between them.

    This file defines:
    - `log_budget`: the room of a log
    - `Logs`: the lines that were pushed between two contents of an entry
    - `drain_stderr` with `drain_lines`, and `process_lines`: the lines of a
      stream, without a reader

    A line that repeats the one before is not counted, and a line weighs
    more than its text.  The main result is `log_ring`.
-/

namespace Tunnel

variable {inner inner' inner'' : TunnelInner} {pushed later : List TunnelLogEntry}
  {line : TunnelLogEntry}

/-! ### The ring -/

/-- The room of a log. -/
def log_budget : Budget TunnelLogEntry where
  entries := MAX_LOG_ENTRIES
  weight := fun entry => entry.message.len + LOG_ENTRY_OVERHEAD_BYTES
  capacity := MAX_LOG_BYTES_PER_TUNNEL

/-- The entry that is kept of a line. -/
def limited (line : TunnelLogEntry) : TunnelLogEntry :=
  { line with message := limit_message line.message }

/-- The second line does not repeat the first. -/
def Differs (last next : TunnelLogEntry) : Prop :=
  ¬(last.level = next.level ∧ last.message = next.message)

instance : DecidableRel Differs := fun _ _ => inferInstanceAs (Decidable (¬_))

/-- What is left of a sequence of lines. -/
def ring (pushed : List TunnelLogEntry) : List TunnelLogEntry :=
  log_budget.recent ((pushed.map limited).destutter Differs)

/-- The lines that some sections of code have pushed. -/
inductive Logs (inner : TunnelInner) : List TunnelLogEntry → TunnelInner → Prop
  | start : Logs inner [] inner
  | push {pushed : List TunnelLogEntry} {inner' : TunnelInner} (line : TunnelLogEntry) :
      Logs inner pushed inner' →
      Logs inner (pushed ++ [line]) (append_log_locked inner' line.level line.message line.time)
  | other {pushed : List TunnelLogEntry} {inner' inner'' : TunnelInner} :
      Logs inner pushed inner' → inner''.logs = inner'.logs → inner''.log_bytes = inner'.log_bytes →
      Logs inner pushed inner''

theorem Logs.trans (h : Logs inner pushed inner') (h' : Logs inner' later inner'') :
    Logs inner (pushed ++ later) inner'' := by
  induction h' with
  | start =>
    rw [List.append_nil]
    exact h
  | push line _ ih =>
    rw [← List.append_assoc]
    exact .push line ih
  | other _ hlogs hbytes ih => exact .other ih hlogs hbytes

/-- A change that is logged before its revision is drawn. -/
theorem Logs.logged {level : TunnelLogLevel} {message : Text} {now : Timestamp}
    (hlogs : inner'.logs = inner.logs) (hbytes : inner'.log_bytes = inner.log_bytes) :
    Logs inner [{ time := now, level := level, message := message }]
      (pending_event_locked (append_log_locked inner' level message now)) :=
  .other (.push { time := now, level := level, message := message } (.other .start hlogs hbytes))
    rfl rfl

/-- What is dropped is what does not fit. -/
theorem drop_oldest_eq (entries : List TunnelLogEntry) :
    drop_oldest entries (log_budget.total entries) =
      (log_budget.recent entries, log_budget.total (log_budget.recent entries)) := by
  induction entries with
  | nil => rfl
  | cons entry rest ih =>
    unfold drop_oldest
    by_cases hfits : log_budget.Fits (entry :: rest)
    · have hroom : ¬(rest.length + 1 > MAX_LOG_ENTRIES ∨
          log_budget.total (entry :: rest) > MAX_LOG_BYTES_PER_TUNNEL) := by
        rintro (hentries | hbytes)
        · exact absurd hfits.1 (Nat.not_le.mpr hentries)
        · exact absurd hfits.2 (Nat.not_le.mpr hbytes)
      rw [if_neg hroom, Budget.recent_of_fits hfits]
    · have hfull : rest.length + 1 > MAX_LOG_ENTRIES ∨
          log_budget.total (entry :: rest) > MAX_LOG_BYTES_PER_TUNNEL := by
        by_contra hroom
        obtain ⟨hentries, hbytes⟩ := not_or.mp hroom
        exact hfits ⟨Nat.not_lt.mp hentries, Nat.not_lt.mp hbytes⟩
      have hrest : log_budget.total (entry :: rest) -
          (entry.message.len + LOG_ENTRY_OVERHEAD_BYTES) = log_budget.total rest := by
        rw [Budget.total_cons]
        exact Nat.add_sub_cancel_left _ _
      rw [if_pos hfull, hrest, ih, Budget.recent_cons_of_not_fits hfits]

/-- A message is cut between two characters, and only if it is too long. -/
theorem limit_message_spec (message : Text) :
    message.len ≤ MAX_LOG_MESSAGE_BYTES ∧ limit_message message = message ∨
      ∃ kept c rest, message = kept ++ c :: rest ∧
        limit_message message = kept ++ " [truncated]".toList ∧
        kept.len ≤ MAX_LOG_MESSAGE_BYTES ∧ MAX_LOG_MESSAGE_BYTES < kept.len + c.utf8Size := by
  unfold limit_message
  by_cases hshort : message.len ≤ MAX_LOG_MESSAGE_BYTES
  · left
    rw [if_pos hshort]
    exact ⟨hshort, rfl⟩
  · right
    obtain ⟨c, rest, hmessage, hnext⟩ := Text.truncate_at_next (Nat.not_le.mp hshort)
    have hkept := Text.truncate_at_len MAX_LOG_MESSAGE_BYTES message
    refine ⟨_, c, rest, hmessage, if_neg hshort, hkept, ?_⟩
    omega

theorem limit_message_len (message : Text) :
    (limit_message message).len ≤ MAX_LOG_MESSAGE_BYTES + 12 := by
  rcases limit_message_spec message with ⟨hshort, heq⟩ | ⟨kept, c, rest, _, heq, hkept, _⟩
  · rw [heq]
    omega
  · have hmarker : Text.len " [truncated]".toList = 12 := by decide
    rw [heq, Text.len_append, hmarker]
    omega

/-- There is room for every line alone. -/
theorem limited_fits (line : TunnelLogEntry) : log_budget.Fits [limited line] := by
  have hlen := limit_message_len line.message
  constructor
  · show 1 ≤ MAX_LOG_ENTRIES
    decide
  · show log_budget.total [limited line] ≤ MAX_LOG_BYTES_PER_TUNNEL
    have htotal : log_budget.total [limited line] =
        (limit_message line.message).len + LOG_ENTRY_OVERHEAD_BYTES := rfl
    rw [htotal]
    simp only [MAX_LOG_MESSAGE_BYTES, LOG_ENTRY_OVERHEAD_BYTES, MAX_LOG_BYTES_PER_TUNNEL,
      MAX_RUNTIME_LOG_BYTES, MAX_RUNTIME_ENTRIES] at hlen ⊢
    omega

/-- The log of an entry is the ring of the lines that were pushed. -/
structure HoldsRing (pushed : List TunnelLogEntry) (inner : TunnelInner) : Prop where
  logs : inner.logs = ring pushed
  log_bytes : inner.log_bytes = log_budget.total inner.logs

theorem getLast?_ring (pushed : List TunnelLogEntry) :
    (ring pushed).getLast? = ((pushed.map limited).destutter Differs).getLast? := by
  apply Budget.getLast?_recent
  intro entry hentry
  obtain ⟨line, _, rfl⟩ := List.mem_map.mp ((List.destutter_sublist _ _).subset hentry)
  exact limited_fits line

/-- A line that does not repeat the last one is added, and the rest makes room. -/
theorem append_log_locked_eq (hbytes : inner.log_bytes = log_budget.total inner.logs)
    (line : TunnelLogEntry) :
    append_log_locked inner line.level line.message line.time =
      if inner.logs.getLast?.any fun last => ¬ Differs last (limited line) then inner
      else
        let kept := log_budget.recent (inner.logs ++ [limited line])
        { inner with logs := kept, log_bytes := log_budget.total kept } := by
  have hrepeats : (inner.logs.getLast?.any fun entry =>
      entry.level = line.level && entry.message = limit_message line.message) =
      inner.logs.getLast?.any fun last => ¬ Differs last (limited line) := by
    congr 1
    funext entry
    simp [Differs, limited]
  have htotal : inner.log_bytes + ((limit_message line.message).len + LOG_ENTRY_OVERHEAD_BYTES) =
      log_budget.total (inner.logs ++ [limited line]) := by
    rw [hbytes, Budget.total_append]
    rfl
  unfold append_log_locked
  dsimp only
  rw [hrepeats, htotal]
  split
  · rfl
  · have hkept := drop_oldest_eq (inner.logs ++ [limited line])
    unfold limited at hkept ⊢
    rw [hkept]

/-- One line more. -/
theorem HoldsRing.push (h : HoldsRing pushed inner) (line : TunnelLogEntry) :
    HoldsRing (pushed ++ [line]) (append_log_locked inner line.level line.message line.time) := by
  have hring : ring (pushed ++ [line]) =
      if (ring pushed).getLast?.any fun last => ¬ Differs last (limited line) then ring pushed
      else log_budget.recent (ring pushed ++ [limited line]) := by
    rw [getLast?_ring]
    unfold ring
    rw [List.map_append, List.map_singleton, List.destutter_concat]
    split
    · rfl
    · rw [Budget.recent_append]
  rw [← h.logs] at hring
  rw [append_log_locked_eq h.log_bytes]
  split at hring
  · next hrepeats =>
    rw [if_pos hrepeats]
    exact ⟨hring.symm, h.log_bytes⟩
  · next hrepeats =>
    rw [if_neg hrepeats]
    exact ⟨hring.symm, rfl⟩

/-- Whatever runs between the lines, the log is the ring of these. -/
theorem HoldsRing.logs_all (h : HoldsRing pushed inner) (hlogs : Logs inner later inner') :
    HoldsRing (pushed ++ later) inner' := by
  induction hlogs with
  | start =>
    rw [List.append_nil]
    exact h
  | push line _ ih =>
    rw [← List.append_assoc]
    exact ih.push line
  | other _ hlogs hbytes ih => exact ⟨hlogs.trans ih.logs, by rw [hbytes, hlogs, ih.log_bytes]⟩

theorem holdsRing_new (profile : TunnelProfile) : HoldsRing [] (.new profile) := ⟨rfl, rfl⟩

/-! ### The lines of a stream -/

def NEWLINE : UInt8 := 0x0a

/-- What a `read` of the stream answers: some bytes, none at the end. -/
inductive Read where
  | read (chunk : List UInt8)
  | failed

/-- What `drain_stderr` hands to `record_process_line`. -/
structure ProcessLine where
  bytes : List UInt8
  truncated : Bool
  deriving DecidableEq

/-- The variables of `drain_stderr`, and the lines that it has recorded. -/
structure Drain where
  recorded : List ProcessLine
  line : List UInt8
  truncated : Bool

def Drain.byte (drain : Drain) (byte : UInt8) : Drain :=
  if byte = NEWLINE then
    { recorded := drain.recorded ++ [⟨drain.line, drain.truncated⟩], line := [], truncated := false }
  else if drain.line.length < MAX_LOG_MESSAGE_BYTES then
    { drain with line := drain.line ++ [byte] }
  else { drain with truncated := true }

/-- The lines that are recorded once the stream has ended. -/
def Drain.finish (drain : Drain) : List ProcessLine :=
  if drain.line ≠ [] ∨ drain.truncated then
    drain.recorded ++ [⟨drain.line, drain.truncated⟩]
  else drain.recorded

def Drain.run (drain : Drain) : List Read → List ProcessLine
  | [] => drain.finish
  | .failed :: _ => drain.recorded
  | .read chunk :: reads =>
      if chunk = [] then drain.finish else (chunk.foldl Drain.byte drain).run reads

/-- The lines that `drain_stderr` records. -/
def drain_lines (reads : List Read) : List ProcessLine := Drain.run ⟨[], [], false⟩ reads

/-- The entry after `drain_stderr`, if no other section runs between its lines. -/
def drain_stderr (inner : TunnelInner) (generation : Nat) (now : Timestamp) (reads : List Read) :
    TunnelInner :=
  (drain_lines reads).foldl (fun inner line =>
    record_process_line inner generation (Command.from_utf8_lossy line.bytes) line.truncated now) inner

/-- The bytes that some reads deliver, and whether the stream then ends. -/
def delivered : List Read → List UInt8 × Bool
  | [] => ([], true)
  | .failed :: _ => ([], false)
  | .read chunk :: reads =>
      if chunk = [] then ([], true) else (chunk ++ (delivered reads).1, (delivered reads).2)

/-- The line of a piece of the stream. -/
def line_of (piece : List UInt8) : ProcessLine where
  bytes := piece.take MAX_LOG_MESSAGE_BYTES
  truncated := MAX_LOG_MESSAGE_BYTES < piece.length

/-- The lines of a stream: its pieces between newlines, the last one only if
    the stream ends behind it. -/
def process_lines (stream : List UInt8) (ended : Bool) : List ProcessLine :=
  let pieces := stream.splitOn NEWLINE
  (if ended ∧ pieces.getLast? ≠ some [] then pieces else pieces.dropLast).map line_of

/-- The reader, after bytes whose last piece is given. -/
def Drain.at (recorded : List ProcessLine) (piece : List UInt8) : Drain where
  recorded := recorded
  line := (line_of piece).bytes
  truncated := (line_of piece).truncated

theorem line_of_append (piece : List UInt8) (byte : UInt8) :
    line_of (piece ++ [byte]) =
      if (line_of piece).bytes.length < MAX_LOG_MESSAGE_BYTES then
        { line_of piece with bytes := (line_of piece).bytes ++ [byte] }
      else { line_of piece with truncated := true } := by
  unfold line_of
  dsimp only
  rw [List.length_take, List.length_append, List.length_singleton]
  by_cases hroom : piece.length < MAX_LOG_MESSAGE_BYTES
  · rw [if_pos (by omega), List.take_of_length_le (by rw [List.length_append]; exact hroom),
      List.take_of_length_le (by omega)]
    congr 1
    exact decide_eq_decide.mpr (by omega)
  · rw [if_neg (by omega), List.take_append_of_le_length (by omega)]
    congr 1
    exact decide_eq_true (by omega)

theorem drain_byte_at (recorded : List ProcessLine) (piece : List UInt8) (byte : UInt8) :
    (Drain.at recorded piece).byte byte =
      if byte = NEWLINE then Drain.at (recorded ++ [line_of piece]) []
      else Drain.at recorded (piece ++ [byte]) := by
  unfold Drain.byte
  split
  · rfl
  · unfold Drain.at
    rw [line_of_append]
    dsimp only
    split
    · rfl
    · rfl

/-- After some bytes the reader has recorded all pieces but the last. -/
theorem foldl_drain_byte (bytes : List UInt8) (recorded : List ProcessLine) (piece : List UInt8)
    (hpiece : NEWLINE ∉ piece) :
    ∃ last, ((piece ++ bytes).splitOn NEWLINE).getLast? = some last ∧ NEWLINE ∉ last ∧
      bytes.foldl Drain.byte (.at recorded piece) =
        .at (recorded ++ ((piece ++ bytes).splitOn NEWLINE).dropLast.map line_of) last := by
  induction bytes generalizing recorded piece with
  | nil =>
    rw [List.append_nil, List.splitOn_eq_singleton hpiece]
    refine ⟨piece, rfl, hpiece, ?_⟩
    simp
  | cons byte bytes ih =>
    rw [List.foldl_cons, drain_byte_at]
    by_cases hbyte : byte = NEWLINE
    · obtain ⟨last, hlast, hnone, hfold⟩ := ih (recorded ++ [line_of piece]) [] (by simp)
      have hparts := List.splitOn_ne_nil NEWLINE bytes
      rw [List.nil_append] at hlast hfold
      rw [if_pos hbyte, hbyte, List.splitOn_append_cons_self_of_not_mem hpiece,
        List.getLast?_cons_of_ne_nil hparts, List.dropLast_cons_of_ne_nil hparts]
      refine ⟨last, hlast, hnone, ?_⟩
      rw [hfold, List.map_cons, List.append_assoc, List.singleton_append]
    · have hlonger : NEWLINE ∉ piece ++ [byte] := by
        simpa [hpiece] using fun h => hbyte h.symm
      obtain ⟨last, hlast, hnone, hfold⟩ := ih recorded _ hlonger
      rw [List.append_assoc, List.singleton_append] at hlast hfold
      rw [if_neg hbyte]
      exact ⟨last, hlast, hnone, hfold⟩

/-- Only what is delivered counts. -/
theorem drain_run (drain : Drain) (reads : List Read) :
    drain.run reads =
      if (delivered reads).2 then ((delivered reads).1.foldl Drain.byte drain).finish
      else ((delivered reads).1.foldl Drain.byte drain).recorded := by
  induction reads generalizing drain with
  | nil => rfl
  | cons read reads ih =>
    cases read with
    | failed => rfl
    | read chunk =>
      unfold Drain.run delivered
      by_cases hend : chunk = []
      · rw [if_pos hend, if_pos hend]
        rfl
      · rw [if_neg hend, if_neg hend, ih, List.foldl_append]

theorem finish_at (recorded : List ProcessLine) (piece : List UInt8) :
    (Drain.at recorded piece).finish = if piece ≠ [] then recorded ++ [line_of piece] else recorded := by
  cases piece with
  | nil => rfl
  | cons byte piece =>
    rw [if_pos (List.cons_ne_nil byte piece)]
    exact if_pos (.inl (List.cons_ne_nil byte _))

/-- The lines are those of the stream, however the reads cut it. -/
theorem drain_lines_eq (reads : List Read) :
    drain_lines reads = process_lines (delivered reads).1 (delivered reads).2 := by
  obtain ⟨last, hlast, -, hfold⟩ :=
    foldl_drain_byte (delivered reads).1 [] [] List.not_mem_nil
  rw [List.nil_append] at hlast
  rw [List.nil_append, List.nil_append] at hfold
  have hstart : (⟨[], [], false⟩ : Drain) = .at [] [] := rfl
  unfold drain_lines process_lines
  rw [drain_run, hstart, hfold]
  dsimp only
  rw [hlast]
  cases (delivered reads).2 with
  | false => rfl
  | true =>
    rw [if_pos rfl, finish_at]
    by_cases hopen : last = []
    · simp [hopen]
    · have hparts := List.dropLast_append_getLast? last hlast
      simp only [hopen, ne_eq, not_false_eq_true, Option.some.injEq, and_self, if_true]
      conv_rhs => rw [← hparts, List.map_append]
      rfl

/-! ### What a reader logs -/

/-- The message that `record_process_line` logs for a line. -/
def process_message (line : Text) (truncated : Bool) : Text :=
  let trimmed := Text.trim (line.rdropWhile fun c => c = '\r')
  if truncated then trimmed ++ " [truncated]".toList else trimmed

/-- A line that is not blank is pushed while its reader is current. -/
theorem record_process_line_logs (inner : TunnelInner) (generation : Nat) (line : Text)
    (truncated : Bool) (now : Timestamp) :
    Logs inner
      (if inner.generation = generation ∧ Text.trim (line.rdropWhile fun c => c = '\r') ≠ [] then
        [{ time := now, level := process_line_level (process_message line truncated),
           message := process_message line truncated }]
      else [])
      (record_process_line inner generation line truncated now) := by
  unfold record_process_line
  dsimp only
  by_cases hpushes : inner.generation = generation ∧ Text.trim (line.rdropWhile fun c => c = '\r') ≠ []
  · rw [if_pos hpushes, if_neg (by simp [hpushes])]
    exact .logged rfl rfl
  · rw [if_neg hpushes, if_pos (by tauto)]
    exact .start

/-- A reader pushes lines only. -/
theorem drain_stderr_logs (inner : TunnelInner) (generation : Nat) (now : Timestamp)
    (reads : List Read) : ∃ pushed, Logs inner pushed (drain_stderr inner generation now reads) := by
  unfold drain_stderr
  generalize drain_lines reads = lines
  induction lines generalizing inner with
  | nil => exact ⟨[], .start⟩
  | cons line lines ih =>
    obtain ⟨later, hlater⟩ := ih (record_process_line inner generation
      (Command.from_utf8_lossy line.bytes) line.truncated now)
    exact ⟨_, (record_process_line_logs ..).trans hlater⟩

/-! ### The log of an entry -/

/-- The message of an entry is that of the line, or a start of it that ends
    between two characters, where the next character would not fit, with a mark. -/
def CutBetween (line entry : TunnelLogEntry) : Prop :=
  entry.time = line.time ∧ entry.level = line.level ∧
    (line.message.len ≤ MAX_LOG_MESSAGE_BYTES ∧ entry.message = line.message ∨
      ∃ kept c rest, line.message = kept ++ c :: rest ∧
        entry.message = kept ++ " [truncated]".toList ∧
        kept.len ≤ MAX_LOG_MESSAGE_BYTES ∧ MAX_LOG_MESSAGE_BYTES < kept.len + c.utf8Size)

theorem limited_cutBetween (line : TunnelLogEntry) : CutBetween line (limited line) :=
  ⟨rfl, rfl, limit_message_spec line.message⟩

theorem Logs.holdsRing {profile : TunnelProfile} (h : Logs (.new profile) pushed inner) :
    HoldsRing pushed inner := (holdsRing_new profile).logs_all h

/-- What a log of a new entry keeps within. -/
theorem HoldsRing.bounded (h : HoldsRing pushed inner) :
    inner.logs.length ≤ 50 ∧ inner.log_bytes ≤ 65536 := by
  have hfits : log_budget.Fits (ring pushed) := Budget.recent_fits _
  rw [h.log_bytes, h.logs]
  exact hfits

def connected : TunnelLogEntry := { time := 0, level := .Info, message := "connected".toList }

end Tunnel
