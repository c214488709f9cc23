import Mathlib.Data.List.Basic
import Mathlib.Data.List.Infix

/-! # The ConPTY start-up handshake

    `InitialConPtyCursorHandshake` of `session.rs`.  A pseudo-console may open
    its output with the cursor-position request `ESC[6n`.  The filter takes
    this request out, asks for the answer, and from then on passes every byte.

    This file defines:
    - `InitialConPtyCursorHandshake` with `consume` and `finish`
    - `filter_reads`: the filter over all reads of a terminal, as the reader
      thread uses it

    The main result is `handshake_transparent`: where the reads are cut does
    not matter, and only a request at the very start is taken.
-/

namespace Session

/-- `ESC[6n`. -/
def CONPTY_INITIAL_CURSOR_QUERY : List UInt8 := [0x1b, 0x5b, 0x36, 0x6e]

structure InitialConPtyCursorHandshake where
  awaiting_query : Bool
  matched : Nat
  deriving DecidableEq, Repr

structure InitialConPtyRead where
  answer_cursor_query : Bool
  output : List UInt8
  deriving DecidableEq, Repr

/-- `InitialConPtyCursorHandshake::new`; the application enables it on Windows. -/
def InitialConPtyCursorHandshake.new (enabled : Bool) : InitialConPtyCursorHandshake where
  awaiting_query := enabled
  matched := 0

/-- A filter that passes every byte. -/
def InitialConPtyCursorHandshake.inert : InitialConPtyCursorHandshake := ⟨false, 0⟩

/-- The loop of `consume`, on the bytes that are not consumed yet, and what
    follows it. -/
def InitialConPtyCursorHandshake.scan (matched : Nat) :
    List UInt8 → InitialConPtyRead × InitialConPtyCursorHandshake
  | [] =>
      if matched < CONPTY_INITIAL_CURSOR_QUERY.length then (⟨false, []⟩, ⟨true, matched⟩)
      else (⟨true, []⟩, inert)
  | byte :: bytes =>
      if matched < CONPTY_INITIAL_CURSOR_QUERY.length then
        -- a mismatch gives back what was withheld
        if CONPTY_INITIAL_CURSOR_QUERY[matched]? ≠ some byte then
          (⟨false, CONPTY_INITIAL_CURSOR_QUERY.take matched ++ byte :: bytes⟩, inert)
        else scan (matched + 1) bytes
      else (⟨true, byte :: bytes⟩, inert)

def InitialConPtyCursorHandshake.consume (handshake : InitialConPtyCursorHandshake)
    (bytes : List UInt8) : InitialConPtyRead × InitialConPtyCursorHandshake :=
  if handshake.awaiting_query then scan handshake.matched bytes else (⟨false, bytes⟩, handshake)

def InitialConPtyCursorHandshake.finish (handshake : InitialConPtyCursorHandshake) :
    List UInt8 × InitialConPtyCursorHandshake :=
  if handshake.awaiting_query then
    (CONPTY_INITIAL_CURSOR_QUERY.take handshake.matched, inert)
  else ([], handshake)

/-- What the reader thread makes of the reads of a terminal: how often it
    answers, and the bytes it passes on, with those that `finish` releases. -/
def filter_reads (handshake : InitialConPtyCursorHandshake) : List (List UInt8) → Nat × List UInt8
  | [] => (0, handshake.finish.1)
  | bytes :: reads =>
      let (read, handshake) := handshake.consume bytes
      let (answers, output) := filter_reads handshake reads
      (answers + read.answer_cursor_query.toNat, read.output ++ output)

namespace InitialConPtyCursorHandshake

/-! ### One read -/

/-- What is left of the request after a match. -/
theorem query_drop {matched : Nat} (h : matched < CONPTY_INITIAL_CURSOR_QUERY.length) :
    CONPTY_INITIAL_CURSOR_QUERY.drop matched =
      CONPTY_INITIAL_CURSOR_QUERY[matched] :: CONPTY_INITIAL_CURSOR_QUERY.drop (matched + 1) :=
  List.drop_eq_getElem_cons h

/-- A read completes the request, or is a part of what is left of it, or
    differs from it. -/
theorem scan_spec {matched : Nat} (h : matched ≤ CONPTY_INITIAL_CURSOR_QUERY.length)
    (bytes : List UInt8) :
    scan matched bytes =
      if CONPTY_INITIAL_CURSOR_QUERY.drop matched <+: bytes then
        (⟨true, bytes.drop (CONPTY_INITIAL_CURSOR_QUERY.length - matched)⟩, inert)
      else if bytes <+: CONPTY_INITIAL_CURSOR_QUERY.drop matched then
        (⟨false, []⟩, ⟨true, matched + bytes.length⟩)
      else (⟨false, CONPTY_INITIAL_CURSOR_QUERY.take matched ++ bytes⟩, inert) := by
  induction bytes generalizing matched with
  | nil =>
    unfold scan
    by_cases hlt : matched < CONPTY_INITIAL_CURSOR_QUERY.length
    · rw [if_pos hlt]
      simpa using hlt
    · have hall : matched = CONPTY_INITIAL_CURSOR_QUERY.length := by omega
      simp [hall]
  | cons byte bytes ih =>
    unfold scan
    by_cases hlt : matched < CONPTY_INITIAL_CURSOR_QUERY.length
    · rw [if_pos hlt, query_drop hlt, List.getElem?_eq_getElem hlt]
      by_cases hbyte : CONPTY_INITIAL_CURSOR_QUERY[matched] = byte
      · -- the byte is the next one of the request
        have htake : CONPTY_INITIAL_CURSOR_QUERY.take (matched + 1) =
            CONPTY_INITIAL_CURSOR_QUERY.take matched ++ [byte] := by
          rw [List.take_add_one, List.getElem?_eq_getElem hlt, hbyte]
          rfl
        have hleft : CONPTY_INITIAL_CURSOR_QUERY.length - matched =
            CONPTY_INITIAL_CURSOR_QUERY.length - (matched + 1) + 1 := by omega
        have hlength : matched + (byte :: bytes).length = matched + 1 + bytes.length := by
          simp only [List.length_cons]
          omega
        rw [if_neg (by simp [hbyte]), ih (by omega), htake, hleft, hlength, hbyte]
        simp only [List.cons_prefix_cons, true_and, List.drop_succ_cons, List.append_assoc,
          List.singleton_append]
      · rw [if_pos (by simpa using hbyte), if_neg, if_neg]
        · intro hprefix
          exact hbyte (List.cons_prefix_cons.mp hprefix).1.symm
        · intro hprefix
          exact hbyte (List.cons_prefix_cons.mp hprefix).1
    · have hall : matched = CONPTY_INITIAL_CURSOR_QUERY.length := by omega
      simp [hall]

/-! ### All reads -/

theorem filter_inert (reads : List (List UInt8)) :
    filter_reads inert reads = (0, reads.flatten) := by
  induction reads with
  | nil => rfl
  | cons bytes reads ih =>
    show (let (answers, output) := filter_reads inert reads; (answers + 0, bytes ++ output)) = _
    rw [ih]
    rfl

/-- The filter behind a part of the request, on the reads to come. -/
theorem filter_awaiting {matched : Nat} (h : matched < CONPTY_INITIAL_CURSOR_QUERY.length)
    (reads : List (List UInt8)) :
    filter_reads ⟨true, matched⟩ reads =
      if CONPTY_INITIAL_CURSOR_QUERY.drop matched <+: reads.flatten then
        (1, reads.flatten.drop (CONPTY_INITIAL_CURSOR_QUERY.length - matched))
      else (0, CONPTY_INITIAL_CURSOR_QUERY.take matched ++ reads.flatten) := by
  induction reads generalizing matched with
  | nil =>
    have hmore : ¬ CONPTY_INITIAL_CURSOR_QUERY.drop matched <+: [] := by simpa using h
    simp [filter_reads, finish, hmore]
  | cons bytes reads ih =>
    have hstep : filter_reads ⟨true, matched⟩ (bytes :: reads) =
        ((filter_reads (scan matched bytes).2 reads).1 +
            (scan matched bytes).1.answer_cursor_query.toNat,
          (scan matched bytes).1.output ++ (filter_reads (scan matched bytes).2 reads).2) := rfl
    rw [hstep, scan_spec h.le, List.flatten_cons]
    by_cases hdone : CONPTY_INITIAL_CURSOR_QUERY.drop matched <+: bytes
    · have hlength := hdone.length_le
      rw [List.length_drop] at hlength
      rw [if_pos hdone, if_pos (hdone.trans (List.prefix_append _ _)), filter_inert,
        List.drop_append_of_le_length hlength]
      rfl
    · rw [if_neg hdone]
      by_cases hpart : bytes <+: CONPTY_INITIAL_CURSOR_QUERY.drop matched
      · -- the read is withheld, and the request is still not complete
        obtain ⟨left, hleft⟩ := hpart
        have hcut : CONPTY_INITIAL_CURSOR_QUERY.drop (matched + bytes.length) = left := by
          rw [← List.drop_drop, ← hleft, List.drop_left]
        have hne : left ≠ [] := by
          rintro rfl
          exact hdone (by rw [← hleft, List.append_nil])
        have hlength := congrArg List.length hcut
        have hpos := List.length_pos_of_ne_nil hne
        rw [List.length_drop] at hlength
        have htake : CONPTY_INITIAL_CURSOR_QUERY.take (matched + bytes.length) =
            CONPTY_INITIAL_CURSOR_QUERY.take matched ++ bytes := by
          rw [List.take_add, ← hleft, List.take_left]
        have hcount : CONPTY_INITIAL_CURSOR_QUERY.length - matched =
            bytes.length + (CONPTY_INITIAL_CURSOR_QUERY.length - (matched + bytes.length)) := by
          omega
        rw [if_pos ⟨left, hleft⟩]
        show ((filter_reads ⟨true, matched + bytes.length⟩ reads).1 + 0,
          [] ++ (filter_reads ⟨true, matched + bytes.length⟩ reads).2) = _
        rw [ih (by omega), hcut, htake, ← hleft, hcount]
        simp only [List.prefix_append_right_inj, List.nil_append, Nat.add_zero,
          List.append_assoc]
        rw [← List.drop_drop, List.drop_left]
      · have hneither : ¬ CONPTY_INITIAL_CURSOR_QUERY.drop matched <+: bytes ++ reads.flatten := by
          intro hprefix
          rcases List.prefix_or_prefix_of_prefix hprefix (List.prefix_append _ _) with hcase | hcase
          · exact hdone hcase
          · exact hpart hcase
        rw [if_neg hpart, if_neg hneither, filter_inert, List.append_assoc]
        rfl

end InitialConPtyCursorHandshake

/-- **The handshake is transparent**: a request at the very start is taken out
    and answered once, and all other bytes pass in order, wherever the reads
    are cut. -/
theorem handshake_transparent (enabled : Bool) (reads : List (List UInt8)) :
    filter_reads (.new enabled) reads =
      if enabled ∧ CONPTY_INITIAL_CURSOR_QUERY <+: reads.flatten then
        (1, reads.flatten.drop CONPTY_INITIAL_CURSOR_QUERY.length)
      else (0, reads.flatten) := by
  cases enabled with
  | false =>
    rw [if_neg (by simp)]
    exact InitialConPtyCursorHandshake.filter_inert reads
  | true =>
    have hpos : 0 < CONPTY_INITIAL_CURSOR_QUERY.length := by decide
    have hawaiting := InitialConPtyCursorHandshake.filter_awaiting hpos reads
    simpa [InitialConPtyCursorHandshake.new] using hawaiting

end Session
