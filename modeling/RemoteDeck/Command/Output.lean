import RemoteDeck.Lib.Text

/-! # Output of a command

    What `command_job.rs` keeps of the output of a process: the bytes of a
    pipe become text with `String::from_utf8_lossy`, and a stream is cut at
    1 MiB, with a marker at its end.

    This file defines:
    - `from_utf8_lossy`, by the Unicode recommendation for ill-formed bytes
    - `append_bounded`: one piece of output is added to a stream
    - `output_units`: what every change of a stream increases
-/

namespace Command

def COMMAND_OUTPUT_LIMIT : Nat := 1024 * 1024

def OUTPUT_TRUNCATED_MARKER : Text := "\n[RemoteDeck: output truncated at 1 MiB]".toList

/-! ### Lossy decoding -/

def REPLACEMENT_CHARACTER : Char := Char.ofNat 0xFFFD

def is_continuation (byte : UInt8) : Bool := 0x80 ≤ byte && byte ≤ 0xBF

/-- What may follow the first byte of a sequence of three bytes. -/
def second_of_three (first second : UInt8) : Bool :=
  if first = 0xE0 then 0xA0 ≤ second && second ≤ 0xBF
  else if first = 0xED then 0x80 ≤ second && second ≤ 0x9F
  else is_continuation second

/-- What may follow the first byte of a sequence of four bytes. -/
def second_of_four (first second : UInt8) : Bool :=
  if first = 0xF0 then 0x90 ≤ second && second ≤ 0xBF
  else if first = 0xF4 then 0x80 ≤ second && second ≤ 0x8F
  else is_continuation second

/-- The low six bits of a continuation byte. -/
def continuation_bits (byte : UInt8) : Nat := byte.toNat - 0x80

def decode_two (first second : UInt8) : Char :=
  Char.ofNat ((first.toNat - 0xC0) * 0x40 + continuation_bits second)

def decode_three (first second third : UInt8) : Char :=
  Char.ofNat ((first.toNat - 0xE0) * 0x1000 + continuation_bits second * 0x40 +
    continuation_bits third)

def decode_four (first second third fourth : UInt8) : Char :=
  Char.ofNat ((first.toNat - 0xF0) * 0x40000 + continuation_bits second * 0x1000 +
    continuation_bits third * 0x40 + continuation_bits fourth)

/-- The first character of some bytes, and how many of them it takes.  An
    ill-formed start is replaced up to the first byte that cannot belong to it. -/
def decode_first (first : UInt8) (rest : List UInt8) : Char × Nat :=
  if first < 0x80 then (Char.ofNat first.toNat, 1)
  else if 0xC2 ≤ first && first ≤ 0xDF then
    match rest with
    | second :: _ =>
        if is_continuation second then (decode_two first second, 2) else (REPLACEMENT_CHARACTER, 1)
    | [] => (REPLACEMENT_CHARACTER, 1)
  else if 0xE0 ≤ first && first ≤ 0xEF then
    match rest with
    | second :: rest =>
        if second_of_three first second then
          match rest with
          | third :: _ =>
              if is_continuation third then (decode_three first second third, 3)
              else (REPLACEMENT_CHARACTER, 2)
          | [] => (REPLACEMENT_CHARACTER, 2)
        else (REPLACEMENT_CHARACTER, 1)
    | [] => (REPLACEMENT_CHARACTER, 1)
  else if 0xF0 ≤ first && first ≤ 0xF4 then
    match rest with
    | second :: rest =>
        if second_of_four first second then
          match rest with
          | third :: rest =>
              if is_continuation third then
                match rest with
                | fourth :: _ =>
                    if is_continuation fourth then (decode_four first second third fourth, 4)
                    else (REPLACEMENT_CHARACTER, 3)
                | [] => (REPLACEMENT_CHARACTER, 3)
              else (REPLACEMENT_CHARACTER, 2)
          | [] => (REPLACEMENT_CHARACTER, 2)
        else (REPLACEMENT_CHARACTER, 1)
    | [] => (REPLACEMENT_CHARACTER, 1)
  else (REPLACEMENT_CHARACTER, 1)

/-- `String::from_utf8_lossy`, after bytes that belong to the character before. -/
def from_utf8_lossy_after : Nat → List UInt8 → Text
  | _, [] => []
  | 0, first :: rest =>
      let (c, width) := decode_first first rest
      c :: from_utf8_lossy_after (width - 1) rest
  | taken + 1, _ :: rest => from_utf8_lossy_after taken rest

/-- `String::from_utf8_lossy`. -/
def from_utf8_lossy (data : List UInt8) : Text := from_utf8_lossy_after 0 data

/-- Every byte leaves a trace. -/
theorem from_utf8_lossy_ne_nil {data : List UInt8} (h : data ≠ []) : from_utf8_lossy data ≠ [] := by
  cases data with
  | nil => exact absurd rfl h
  | cons first rest => exact List.cons_ne_nil _ _

-- A character of three bytes, a byte that starts nothing, and a sequence cut short.
example : from_utf8_lossy [0x61, 0xE2, 0x82, 0xAC, 0xFF, 0xE2, 0x82, 0x62] =
    ['a', '€', REPLACEMENT_CHARACTER, REPLACEMENT_CHARACTER, 'b'] := by decide

/-! ### A stream -/

def truncate_utf8 (value : Text) (max_bytes : Nat) : Text := Text.truncate_at max_bytes value

/-- A stream of a job, with whether it was cut. -/
structure BoundedOutput where
  target : Text
  truncated : Bool
  deriving DecidableEq, Repr

/-- The stream after a piece of output that it has no room for. -/
def append_cut (target value : Text) : Text :=
  let content_limit := COMMAND_OUTPUT_LIMIT - OUTPUT_TRUNCATED_MARKER.len
  let kept := truncate_utf8 target content_limit
  kept ++ Text.truncate_at (content_limit - kept.len) value ++ OUTPUT_TRUNCATED_MARKER

/-- `append_bounded`, with whether the stream changed. -/
def append_bounded (output : BoundedOutput) (data : List UInt8) : BoundedOutput × Bool :=
  if data.isEmpty || output.truncated then (output, false)
  else
    let value := from_utf8_lossy data
    if output.target.len + value.len ≤ COMMAND_OUTPUT_LIMIT then
      ({ output with target := output.target ++ value }, true)
    else ({ target := append_cut output.target value, truncated := true }, true)

/-- How far a stream is, at most one more than the limit. -/
def output_units (output : BoundedOutput) : Nat :=
  if output.truncated then COMMAND_OUTPUT_LIMIT + 1 else min output.target.len COMMAND_OUTPUT_LIMIT

theorem output_units_le (output : BoundedOutput) : output_units output ≤ COMMAND_OUTPUT_LIMIT + 1 := by
  unfold output_units
  split
  · exact Nat.le_refl _
  · omega

theorem len_pos {value : Text} (h : value ≠ []) : 0 < value.len := by
  cases value with
  | nil => exact absurd rfl h
  | cons c rest =>
    have hc : 0 < c.utf8Size := Char.utf8Size_pos c
    rw [Text.len_cons]
    omega

/-- A stream is left alone, or it gets further. -/
theorem append_bounded_cases (output : BoundedOutput) (data : List UInt8) :
    append_bounded output data = (output, false) ∨
      (append_bounded output data).2 = true ∧
        output_units output < output_units (append_bounded output data).1 := by
  unfold append_bounded
  by_cases hskip : (data.isEmpty || output.truncated) = true
  · left
    exact if_pos hskip
  · right
    rw [if_neg hskip]
    rw [Bool.or_eq_true, not_or, Bool.not_eq_true, Bool.not_eq_true] at hskip
    have hdata : data ≠ [] := by
      intro hnil
      rw [hnil] at hskip
      exact absurd hskip.1 (by decide)
    have hvalue : 0 < (from_utf8_lossy data).len := len_pos (from_utf8_lossy_ne_nil hdata)
    dsimp only
    split
    · next hroom =>
      have hlen := Text.len_append output.target (from_utf8_lossy data)
      unfold output_units
      dsimp only
      rw [if_neg (Bool.not_eq_true _ ▸ hskip.2), if_neg (Bool.not_eq_true _ ▸ hskip.2), hlen]
      constructor
      · rfl
      · omega
    · unfold output_units
      rw [if_neg (Bool.not_eq_true _ ▸ hskip.2), if_pos rfl]
      constructor
      · rfl
      · omega

end Command
