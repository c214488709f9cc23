import RemoteDeck.Error
import RemoteDeck.Lib.Utf8

/-! # The lines of a collector

    `read_bounded_line` of `telemetry.rs`, over a buffered reader.  A fill of
    the buffer delivers some bytes of the stream, as many as it likes; a line
    may span fills, and a fill may hold many lines.

    This file defines:
    - `BufReader` with `fill_buf` and `consume`
    - `read_bounded_line`, and `read_lines`: the lines up to the end or to the
      first error
    - `pieces` and `line_of`: the lines of a stream, without a reader

    The main result is `lines_of_stream`: how the buffer is filled does not
    matter.
-/

namespace Telemetry

def MAX_SAMPLE_LINE_BYTES : Nat := 512 * 1024

def NEWLINE : UInt8 := 0x0a

def CARRIAGE_RETURN : UInt8 := 0x0d

/-! ### The reader -/

/-- A `BufRead`: what is in its buffer, and what its further fills deliver.  A
    fill without bytes is the end of the stream. -/
structure BufReader where
  buffer : List UInt8
  fills : List (List UInt8)
  filled : ∀ fill ∈ fills, fill ≠ []

/-- The bytes that the reader has not consumed. -/
def BufReader.stream (reader : BufReader) : List UInt8 := reader.buffer ++ reader.fills.flatten

/-- `fill_buf`, which leaves what it returns in the buffer. -/
def BufReader.fill_buf : BufReader → BufReader
  | ⟨[], fill :: fills, filled⟩ => ⟨fill, fills, fun f hf => filled f (List.mem_cons_of_mem _ hf)⟩
  | reader => reader

def BufReader.consume (reader : BufReader) (amount : Nat) : BufReader :=
  { reader with buffer := reader.buffer.drop amount }

@[simp] theorem BufReader.stream_fill_buf (reader : BufReader) :
    reader.fill_buf.stream = reader.stream := by
  unfold fill_buf
  split
  · simp [stream]
  · rfl

/-- The buffer is empty only at the end of the stream. -/
theorem BufReader.stream_of_empty {reader : BufReader} (h : reader.fill_buf.buffer = []) :
    reader.stream = [] := by
  rcases reader with ⟨_ | ⟨byte, buffer⟩, _ | ⟨fill, fills⟩, filled⟩
  · rfl
  · exact absurd h (filled fill List.mem_cons_self)
  · simp [fill_buf] at h
  · simp [fill_buf] at h

theorem BufReader.stream_consume {reader : BufReader} {amount : Nat}
    (h : amount ≤ reader.buffer.length) : (reader.consume amount).stream = reader.stream.drop amount := by
  unfold stream consume
  rw [List.drop_append_of_le_length h]

theorem BufReader.consume_shortens {reader : BufReader} (h : reader.fill_buf.buffer ≠ []) :
    (reader.fill_buf.consume reader.fill_buf.buffer.length).stream.length < reader.stream.length := by
  have hpos := List.length_pos_of_ne_nil h
  rw [stream_consume le_rfl, ← stream_fill_buf reader, List.length_drop]
  unfold stream
  rw [List.length_append]
  omega

/-! ### A line -/

def too_long : AppError :=
  .Process ("telemetry sample exceeds ".toList ++ MAX_SAMPLE_LINE_BYTES.text ++ " bytes".toList)

def not_utf8 : AppError := .Process "telemetry sample is not valid UTF-8".toList

/-- The loop of `read_bounded_line`, after it has taken some bytes: the bytes
    of the line, or `none` at the end of the stream. -/
def read_loop (bytes : List UInt8) (reader : BufReader) :
    AppResult (Option (List UInt8)) × BufReader :=
  if _hempty : reader.fill_buf.buffer = [] then
    (.ok (if bytes.isEmpty then none else some bytes), reader.fill_buf)
  else
    match reader.fill_buf.buffer.findIdx? (· = NEWLINE) with
    | some newline =>
        if MAX_SAMPLE_LINE_BYTES < bytes.length + newline then (.error too_long, reader.fill_buf)
        else
          (.ok (some (bytes ++ reader.fill_buf.buffer.take newline)),
            reader.fill_buf.consume (newline + 1))
    | none =>
        if MAX_SAMPLE_LINE_BYTES < bytes.length + reader.fill_buf.buffer.length then
          (.error too_long, reader.fill_buf)
        else
          read_loop (bytes ++ reader.fill_buf.buffer)
            (reader.fill_buf.consume reader.fill_buf.buffer.length)
termination_by reader.stream.length
decreasing_by exact BufReader.consume_shortens _hempty

/-- `bytes.pop()` of a carriage return at the end. -/
def pop_carriage_return (bytes : List UInt8) : List UInt8 :=
  if bytes.getLast? = some CARRIAGE_RETURN then bytes.dropLast else bytes

def read_bounded_line (reader : BufReader) : AppResult (Option Text) × BufReader :=
  match read_loop [] reader with
  | (.error e, reader) => (.error e, reader)
  | (.ok none, reader) => (.ok none, reader)
  | (.ok (some bytes), reader) =>
      (match Text.from_utf8 (pop_carriage_return bytes) with
        | some line => .ok (some line)
        | none => .error not_utf8, reader)

/-! ### The lines of a stream -/

/-- What a stream holds before its first newline. -/
def first_piece (stream : List UInt8) : List UInt8 := stream.takeWhile (· ≠ NEWLINE)

/-- What follows the first newline. -/
def after_piece (stream : List UInt8) : List UInt8 := (stream.dropWhile (· ≠ NEWLINE)).tail

/-- The newline-separated pieces of a stream.  A newline at its end starts no
    further piece. -/
def pieces (stream : List UInt8) : List (List UInt8) :=
  let parts := stream.splitOn NEWLINE
  if parts.getLast? = some [] then parts.dropLast else parts

/-- A text without one carriage return at its end. -/
def strip_carriage_return (text : Text) : Text :=
  if text.getLast? = some '\r' then text.dropLast else text

/-- The line of a piece. -/
def line_of (piece : List UInt8) : AppResult Text :=
  if MAX_SAMPLE_LINE_BYTES < piece.length then .error too_long
  else
    match Text.from_utf8 piece with
    | some text => .ok (strip_carriage_return text)
    | none => .error not_utf8

/-- The lines of pieces, up to the first that is none, and the error there. -/
def lines_of : List (List UInt8) → List Text × AppResult Unit
  | [] => ([], .ok ())
  | piece :: pieces =>
      match line_of piece with
      | .error e => ([], .error e)
      | .ok line => (line :: (lines_of pieces).1, (lines_of pieces).2)

theorem pieces_at_newline {front : List UInt8} (rest : List UInt8) (h : NEWLINE ∉ front) :
    first_piece (front ++ NEWLINE :: rest) = front ∧
      after_piece (front ++ NEWLINE :: rest) = rest := by
  have hfront : ∀ byte ∈ front, decide (byte ≠ NEWLINE) = true := by
    intro byte hbyte
    exact decide_eq_true fun heq => h (heq ▸ hbyte)
  unfold first_piece after_piece
  rw [List.takeWhile_append_of_pos hfront, List.dropWhile_append_of_pos hfront]
  simp

theorem pieces_of_open {front : List UInt8} (rest : List UInt8) (h : NEWLINE ∉ front) :
    first_piece (front ++ rest) = front ++ first_piece rest ∧
      after_piece (front ++ rest) = after_piece rest := by
  have hfront : ∀ byte ∈ front, decide (byte ≠ NEWLINE) = true := by
    intro byte hbyte
    exact decide_eq_true fun heq => h (heq ▸ hbyte)
  unfold first_piece after_piece
  rw [List.takeWhile_append_of_pos hfront, List.dropWhile_append_of_pos hfront]
  exact ⟨rfl, rfl⟩

/-- A buffer with a newline in it. -/
theorem split_at_newline {buffer : List UInt8} {newline : Nat}
    (h : buffer.findIdx? (· = NEWLINE) = some newline) :
    newline < buffer.length ∧ NEWLINE ∉ buffer.take newline ∧
      buffer = buffer.take newline ++ NEWLINE :: buffer.drop (newline + 1) := by
  obtain ⟨hlt, hat, hbefore⟩ := List.findIdx?_eq_some_iff_getElem.mp h
  have hbyte : buffer[newline] = NEWLINE := of_decide_eq_true hat
  refine ⟨hlt, ?_, ?_⟩
  · intro hmem
    obtain ⟨i, hi, heq⟩ := List.mem_take_iff_getElem.mp hmem
    exact hbefore i (by omega) (decide_eq_true heq)
  · rw [← hbyte, ← List.drop_eq_getElem_cons hlt, List.take_append_drop]

theorem open_of_no_newline {buffer : List UInt8} (h : buffer.findIdx? (· = NEWLINE) = none) :
    NEWLINE ∉ buffer := by
  intro hmem
  have hnone := List.findIdx?_eq_none_iff.mp h NEWLINE hmem
  simp at hnone

/-- A newline in the buffer ends the first piece of the stream. -/
theorem BufReader.stream_at_newline {reader : BufReader} {newline : Nat}
    (h : reader.buffer.findIdx? (· = NEWLINE) = some newline) :
    newline < reader.buffer.length ∧
      first_piece reader.stream = reader.buffer.take newline ∧
      after_piece reader.stream = (reader.consume (newline + 1)).stream := by
  obtain ⟨hlt, hfront, hbuffer⟩ := split_at_newline h
  have hstream : reader.stream = reader.buffer.take newline ++
      NEWLINE :: (reader.consume (newline + 1)).stream := by
    rw [stream_consume (by omega)]
    unfold stream
    rw [List.drop_append_of_le_length (by omega), ← List.cons_append, ← List.append_assoc, ← hbuffer]
  have hpieces := pieces_at_newline (reader.consume (newline + 1)).stream hfront
  rw [← hstream] at hpieces
  exact ⟨hlt, hpieces⟩

/-- A buffer without a newline belongs to the first piece. -/
theorem BufReader.stream_open {reader : BufReader}
    (h : reader.buffer.findIdx? (· = NEWLINE) = none) :
    reader.stream = reader.buffer ++ (reader.consume reader.buffer.length).stream ∧
      first_piece reader.stream =
        reader.buffer ++ first_piece (reader.consume reader.buffer.length).stream ∧
      after_piece reader.stream = after_piece (reader.consume reader.buffer.length).stream := by
  have hstream : reader.stream = reader.buffer ++ (reader.consume reader.buffer.length).stream := by
    simp [stream, consume]
  have hpieces := pieces_of_open (reader.consume reader.buffer.length).stream (open_of_no_newline h)
  rw [← hstream] at hpieces
  exact ⟨hstream, hpieces⟩

/-- The loop takes the first piece of the stream and its newline, and rejects
    it when it is too long. -/
theorem read_loop_spec (bytes : List UInt8) (reader : BufReader)
    (h : bytes.length ≤ MAX_SAMPLE_LINE_BYTES) :
    if MAX_SAMPLE_LINE_BYTES < bytes.length + (first_piece reader.stream).length then
      (read_loop bytes reader).1 = .error too_long
    else
      (read_loop bytes reader).1 = .ok (if bytes ++ reader.stream = [] then none
        else some (bytes ++ first_piece reader.stream)) ∧
      (read_loop bytes reader).2.stream = after_piece reader.stream := by
  rw [← BufReader.stream_fill_buf reader]
  induction bytes, reader using read_loop.induct with
  | case1 bytes reader hempty =>
    have hstream := BufReader.stream_of_empty hempty
    rw [read_loop, dif_pos hempty, BufReader.stream_fill_buf, hstream]
    have hfits : ¬ MAX_SAMPLE_LINE_BYTES < bytes.length + (first_piece []).length := by
      show ¬ MAX_SAMPLE_LINE_BYTES < bytes.length + 0
      omega
    rw [if_neg hfits]
    refine ⟨?_, rfl⟩
    cases bytes with
    | nil => rfl
    | cons byte bytes => simp [first_piece]
  | case2 bytes reader hempty newline hnewline hlong =>
    obtain ⟨hlt, hpiece, hafter⟩ := BufReader.stream_at_newline hnewline
    have hlength : (reader.fill_buf.buffer.take newline).length = newline := by
      rw [List.length_take]
      omega
    rw [hpiece, hlength, if_pos hlong, read_loop, dif_neg hempty, hnewline]
    simp only [if_pos hlong]
  | case3 bytes reader hempty newline hnewline hfits =>
    obtain ⟨hlt, hpiece, hafter⟩ := BufReader.stream_at_newline hnewline
    have hlength : (reader.fill_buf.buffer.take newline).length = newline := by
      rw [List.length_take]
      omega
    have hstream : bytes ++ reader.fill_buf.stream ≠ [] := by
      unfold BufReader.stream
      simp [hempty]
    rw [hpiece, hlength, if_neg hfits, hafter, if_neg hstream, read_loop, dif_neg hempty, hnewline]
    simp only [if_neg hfits, and_self]
  | case4 bytes reader hempty hopen hlong =>
    obtain ⟨hstream, hpiece, hafter⟩ := BufReader.stream_open hopen
    have hlonger : MAX_SAMPLE_LINE_BYTES <
        bytes.length + (first_piece reader.fill_buf.stream).length := by
      rw [hpiece, List.length_append]
      omega
    rw [if_pos hlonger, read_loop, dif_neg hempty, hopen]
    simp only [if_pos hlong]
  | case5 bytes reader hempty hopen hfits ih =>
    -- the rest of the line is read behind what the buffer held
    obtain ⟨hstream, hpiece, hafter⟩ := BufReader.stream_open hopen
    have hrest := ih (by rw [List.length_append]; omega)
    have hloop : read_loop bytes reader = read_loop (bytes ++ reader.fill_buf.buffer)
        (reader.fill_buf.consume reader.fill_buf.buffer.length) := by
      rw [read_loop, dif_neg hempty, hopen]
      simp only [if_neg hfits]
    rw [BufReader.stream_fill_buf, List.length_append, List.append_assoc, List.append_assoc,
      ← hstream, ← hpiece, ← hafter, Nat.add_assoc, ← List.length_append, ← hpiece] at hrest
    rw [hloop]
    exact hrest

/-- Whether the carriage return is taken from the bytes or from their text does
    not matter. -/
theorem from_utf8_pop (bytes : List UInt8) :
    Text.from_utf8 (pop_carriage_return bytes) =
      (Text.from_utf8 bytes).map strip_carriage_return := by
  unfold pop_carriage_return
  by_cases hlast : bytes.getLast? = some CARRIAGE_RETURN
  · obtain ⟨front, rfl⟩ := List.getLast?_eq_some_iff.mp hlast
    have hascii := Text.from_utf8_ascii front (c := '\r') (by decide)
    have hbyte : UInt8.ofNat '\r'.toNat = CARRIAGE_RETURN := by decide
    rw [hbyte] at hascii
    rw [if_pos hlast, List.dropLast_concat, hascii, Option.map_map]
    have hstrip : strip_carriage_return ∘ (· ++ ['\r']) = id := by
      funext text
      simp [strip_carriage_return]
    rw [hstrip, Option.map_id_apply]
  · rw [if_neg hlast]
    cases htext : Text.from_utf8 bytes with
    | none => rfl
    | some text =>
      have hkept : text.getLast? ≠ some '\r' := by
        intro htext_last
        obtain ⟨front, rfl⟩ := List.getLast?_eq_some_iff.mp htext_last
        rw [← Text.from_utf8_eq_some.mp htext] at hlast
        exact hlast (by simp [CARRIAGE_RETURN, String.utf8EncodeChar])
      simp [strip_carriage_return, hkept]

/-- One call answers with the first piece of the stream, and what it leaves is
    what follows that piece. -/
theorem read_bounded_line_spec (reader : BufReader) :
    if reader.stream = [] then (read_bounded_line reader).1 = .ok none
    else (read_bounded_line reader).1 = (line_of (first_piece reader.stream)).map some ∧
      ∀ line, (read_bounded_line reader).1 = .ok (some line) →
        (read_bounded_line reader).2.stream = after_piece reader.stream := by
  have hloop := read_loop_spec [] reader (by simp)
  unfold read_bounded_line
  rcases hread : read_loop [] reader with ⟨answer, reader'⟩
  rw [hread] at hloop
  simp only [List.nil_append, List.length_nil, Nat.zero_add] at hloop
  by_cases hempty : reader.stream = []
  · have hfits : ¬ MAX_SAMPLE_LINE_BYTES < (first_piece reader.stream).length := by
      rw [hempty]
      simp [first_piece]
    rw [if_neg hfits, if_pos hempty] at hloop
    rw [if_pos hempty, hloop.1]
  · rw [if_neg hempty]
    by_cases hlong : MAX_SAMPLE_LINE_BYTES < (first_piece reader.stream).length
    · rw [if_pos hlong] at hloop
      rw [hloop, line_of, if_pos hlong]
      exact ⟨rfl, fun line hline => by cases hline⟩
    · rw [if_neg hlong, if_neg hempty] at hloop
      rw [hloop.1, line_of, if_neg hlong]
      refine ⟨?_, fun _ _ => hloop.2⟩
      dsimp only
      rw [from_utf8_pop]
      cases Text.from_utf8 (first_piece reader.stream) with
      | none => rfl
      | some text => rfl

/-! ### All lines -/

theorem after_piece_shortens {stream : List UInt8} (h : stream ≠ []) :
    (after_piece stream).length < stream.length := by
  have hpos := List.length_pos_of_ne_nil h
  have hdrop := (List.dropWhile_suffix (fun byte => decide (byte ≠ NEWLINE)) (l := stream)).length_le
  unfold after_piece
  rw [List.length_tail]
  omega

theorem read_shortens {reader reader' : BufReader} {line : Text}
    (h : read_bounded_line reader = (.ok (some line), reader')) :
    reader'.stream.length < reader.stream.length := by
  have hspec := read_bounded_line_spec reader
  rw [h] at hspec
  by_cases hempty : reader.stream = []
  · rw [if_pos hempty] at hspec
    cases hspec
  · rw [if_neg hempty] at hspec
    rw [hspec.2 line rfl]
    exact after_piece_shortens hempty

/-- The lines that a monitor reads, and how the reading ends. -/
def read_lines (reader : BufReader) : List Text × AppResult Unit :=
  match _hread : read_bounded_line reader with
  | (.error e, _) => ([], .error e)
  | (.ok none, _) => ([], .ok ())
  | (.ok (some line), reader') => (line :: (read_lines reader').1, (read_lines reader').2)
termination_by reader.stream.length
decreasing_by all_goals exact read_shortens _hread

/-- A stream is its first piece and the pieces behind it. -/
theorem pieces_cons {stream : List UInt8} (h : stream ≠ []) :
    pieces stream = first_piece stream :: pieces (after_piece stream) := by
  by_cases hmem : NEWLINE ∈ stream
  · obtain ⟨front, rest, rfl, hfront⟩ := List.eq_append_cons_of_mem hmem
    obtain ⟨hfirst, hafter⟩ := pieces_at_newline rest hfront
    have hparts := List.splitOn_ne_nil NEWLINE rest
    rw [hfirst, hafter]
    unfold pieces
    rw [List.splitOn_append_cons_self_of_not_mem hfront]
    dsimp only
    rw [List.getLast?_cons_of_ne_nil hparts]
    split
    · rw [List.dropLast_cons_of_ne_nil hparts]
    · rfl
  · -- without a newline there is one piece
    have hopen := pieces_of_open [] hmem
    rw [List.append_nil] at hopen
    rw [hopen.1, hopen.2]
    unfold pieces
    rw [List.splitOn_eq_singleton hmem]
    simp [first_piece, after_piece, h]

/-- Between the first piece of a stream and what follows it stands a newline, or
    the stream ends with the piece. -/
theorem stream_split (stream : List UInt8) :
    NEWLINE ∉ first_piece stream ∧
      (stream = first_piece stream ++ NEWLINE :: after_piece stream ∨
        stream = first_piece stream ∧ after_piece stream = []) := by
  by_cases hmem : NEWLINE ∈ stream
  · obtain ⟨front, rest, rfl, hfront⟩ := List.eq_append_cons_of_mem hmem
    obtain ⟨hfirst, hafter⟩ := pieces_at_newline rest hfront
    rw [hfirst, hafter]
    exact ⟨hfront, .inl rfl⟩
  · have hopen := pieces_of_open [] hmem
    rw [List.append_nil] at hopen
    rw [hopen.1, hopen.2]
    simp [first_piece, after_piece, hmem]

theorem read_lines_eq (reader : BufReader) :
    read_lines reader = lines_of (pieces reader.stream) := by
  -- by the bytes that are left
  induction hlength : reader.stream.length using Nat.strong_induction_on generalizing reader with
  | _ length ih =>
    have hspec := read_bounded_line_spec reader
    unfold read_lines
    by_cases hempty : reader.stream = []
    · rw [if_pos hempty] at hspec
      rw [hempty]
      split
      · simp_all
      · rfl
      · simp_all
    · rw [if_neg hempty] at hspec
      rw [pieces_cons hempty, lines_of]
      split
      · rename_i hread
        rw [hread] at hspec
        cases hline : line_of (first_piece reader.stream) with
        | ok line => simp [hline, Except.map] at hspec
        | error e =>
          rw [hline] at hspec
          cases hspec.1
          rfl
      · rename_i hread
        rw [hread] at hspec
        cases hline : line_of (first_piece reader.stream) <;> simp [hline, Except.map] at hspec
      · rename_i line reader' hread
        have hrest := ih reader'.stream.length (by rw [← hlength]; exact read_shortens hread) reader' rfl
        rw [hread] at hspec
        rw [hrest, hspec.2 line rfl]
        cases hline : line_of (first_piece reader.stream) with
        | ok line' =>
          rw [hline] at hspec
          cases hspec.1
          rfl
        | error e => simp [hline, Except.map] at hspec

/-- **Line reading does not depend on buffering**: the lines are those of the
    pieces of the stream, up to the first that is too long or is not UTF-8, and
    a line that is returned takes no byte behind its newline. -/
theorem lines_of_stream (reader : BufReader) :
    read_lines reader = lines_of (pieces reader.stream) ∧
      ∀ line, (read_bounded_line reader).1 = .ok (some line) →
        ∃ piece, NEWLINE ∉ piece ∧ line_of piece = .ok line ∧
          (reader.stream = piece ++ NEWLINE :: (read_bounded_line reader).2.stream ∨
            reader.stream = piece ∧ (read_bounded_line reader).2.stream = []) := by
  refine ⟨read_lines_eq reader, fun line hline => ?_⟩
  have hspec := read_bounded_line_spec reader
  by_cases hempty : reader.stream = []
  · rw [if_pos hempty, hline] at hspec
    cases hspec
  · rw [if_neg hempty] at hspec
    obtain ⟨hanswer, hafter⟩ := hspec
    obtain ⟨hpiece, hsplit⟩ := stream_split reader.stream
    rw [hline] at hanswer
    refine ⟨first_piece reader.stream, hpiece, ?_, ?_⟩
    · cases hof : line_of (first_piece reader.stream) with
      | ok line' =>
        rw [hof] at hanswer
        cases hanswer
        rfl
      | error e => simp [hof, Except.map] at hanswer
    · rw [hafter line hline]
      exact hsplit

end Telemetry
