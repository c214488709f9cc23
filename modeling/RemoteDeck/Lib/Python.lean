import RemoteDeck.Lib.Text

/-! # Texts in Python

    The operations of Python's `str` and `csv` that scripts use to take apart
    what other programs print.  They count characters where Rust counts bytes,
    and their white space and line ends are others than Rust's.

    This file defines:
    - `split`, `split_max`, `strip`, `splitlines`, `rfind`
    - `universal_newlines`, what text mode makes of line ends
    - `csv_reader` for the default dialect
    - `Python`: the numbers of the library, as parameters

    A field of `split` and all but the last of `split_max` have no white space,
    and none is empty (`mem_split`, `mem_split_max`).
-/

namespace Python

/-- `str.isspace` of a character. -/
def is_space (c : Char) : Bool := Text.is_whitespace c || (0x1c ≤ c.toNat && c.toNat ≤ 0x1f)

/-- `str.split()`. -/
def split (t : Text) : List Text := (t.splitOnP is_space).filter fun word => !word.isEmpty

/-- `str.split(None, n)`: at most `n` fields, and what is behind them. -/
def split_max : Nat → Text → List Text
  | 0, t =>
      match t.dropWhile is_space with
      | [] => []
      | rest => [rest]
  | n + 1, t =>
      match t.dropWhile is_space with
      | [] => []
      | rest => rest.takeWhile (fun c => !is_space c) :: split_max n (rest.dropWhile fun c => !is_space c)

/-- `str.strip()`. -/
def strip (t : Text) : Text := (t.dropWhile is_space).rdropWhile is_space

/-- The line ends of `str.splitlines`. -/
def is_line_end (c : Char) : Bool :=
  let n := c.toNat
  (0x0a ≤ n && n ≤ 0x0d) || (0x1c ≤ n && n ≤ 0x1e) || n = 0x85 || n = 0x2028 || n = 0x2029

/-- The lines of a text, after the characters of a line that has begun. -/
def lines_from (line : Text) : Text → List Text
  | [] => if line.isEmpty then [] else [line]
  | '\r' :: '\n' :: rest => line :: lines_from [] rest
  | c :: rest => if is_line_end c then line :: lines_from [] rest else lines_from (line ++ [c]) rest

/-- `str.splitlines()`. -/
def splitlines (t : Text) : List Text := lines_from [] t

/-- A text that is read in text mode: every line end is a line feed. -/
def universal_newlines : Text → Text
  | [] => []
  | '\r' :: '\n' :: rest => '\n' :: universal_newlines rest
  | c :: rest => (if c = '\r' then '\n' else c) :: universal_newlines rest

/-- The lines of a file that is read in text mode; the last one may lack its end. -/
def file_lines (contents : Text) : List Text :=
  let parts := (universal_newlines contents).splitOn '\n'
  parts.dropLast ++ parts.getLast?.toList.filter fun line => !line.isEmpty

/-- `str.rfind` of a character: -1 if there is none. -/
def rfind (c : Char) (t : Text) : Int :=
  match t.reverse.findIdx? (· = c) with
  | some behind => t.length - 1 - behind
  | none => -1

/-- `t[start:]` for a start that is not negative. -/
def from_index (start : Int) (t : Text) : Text := t.drop start.toNat

/-- `t[:n]`: characters, not bytes. -/
def up_to (n : Nat) (t : Text) : Text := t.take n

/-- What is left to replace, after the characters that a replacement skips. -/
def replace_from (old by_text : Text) : Nat → Text → Text
  | _, [] => []
  | skip + 1, _ :: rest => replace_from old by_text skip rest
  | 0, c :: rest =>
      if old.isPrefixOf (c :: rest) then by_text ++ replace_from old by_text (old.length - 1) rest
      else c :: replace_from old by_text 0 rest

/-- `str.replace` of a text that is not empty. -/
def replace (old by_text t : Text) : Text := replace_from old by_text 0 t

/-! ### Comma-separated values -/

inductive CsvMode where
  | start_record
  | start_field
  | in_field
  | in_quoted_field
  | quote_in_quoted_field
  deriving DecidableEq

structure CsvState where
  mode : CsvMode
  /-- The field that is being read, and those before it. -/
  field : Text
  fields : List Text

def CsvState.start : CsvState := ⟨.start_record, [], []⟩

def CsvState.save (s : CsvState) (mode : CsvMode) : CsvState := ⟨mode, [], s.fields ++ [s.field]⟩

def CsvState.add (s : CsvState) (mode : CsvMode) (c : Char) : CsvState :=
  { s with mode := mode, field := s.field ++ [c] }

/-- A character of a line. -/
def CsvState.read (s : CsvState) (c : Char) : CsvState :=
  match s.mode with
  | .start_record | .start_field =>
      if c = '"' then { s with mode := .in_quoted_field }
      else if c = ',' then s.save .start_field
      else s.add .in_field c
  | .in_field => if c = ',' then s.save .start_field else s.add .in_field c
  | .in_quoted_field =>
      if c = '"' then { s with mode := .quote_in_quoted_field } else s.add .in_quoted_field c
  | .quote_in_quoted_field =>
      if c = '"' then s.add .in_quoted_field c
      else if c = ',' then s.save .start_field
      else s.add .in_field c

/-- The end of a line, which a quoted field goes beyond. -/
def CsvState.end_line (s : CsvState) : CsvState :=
  match s.mode with
  | .start_record | .in_quoted_field => s
  | .start_field | .in_field | .quote_in_quoted_field => s.save .start_record

def rows_from (s : CsvState) : List Text → List (List Text)
  | [] => if s.field ≠ [] ∨ s.mode = .in_quoted_field then [s.fields ++ [s.field]] else []
  | line :: lines =>
      let after := (line.foldl CsvState.read s).end_line
      if after.mode = .start_record then after.fields :: rows_from .start lines
      else rows_from after lines

/-- `csv.reader` over lines without line ends. -/
def csv_reader (lines : List Text) : List (List Text) := rows_from .start lines

/-! ### Fields -/

theorem replace_ne_nil (old : Text) {by_text t : Text} (hby : by_text ≠ []) (ht : t ≠ []) :
    replace old by_text t ≠ [] := by
  cases t with
  | nil => exact absurd rfl ht
  | cons c rest =>
    unfold replace replace_from
    split
    · simp [hby]
    · simp

theorem mem_split {t word : Text} (h : word ∈ split t) :
    word ≠ [] ∧ ∀ c ∈ word, is_space c = false := by
  obtain ⟨hmem, hne⟩ := List.mem_filter.mp h
  exact ⟨by simpa using hne, Text.splitOnP_no_separator hmem⟩

theorem mem_replace_from {old by_text t : Text} {skip : Nat} {c : Char}
    (h : c ∈ replace_from old by_text skip t) : c ∈ by_text ∨ c ∈ t := by
  induction t generalizing skip with
  | nil => simp [replace_from] at h
  | cons d rest ih =>
    cases skip with
    | succ skip => exact (ih h).imp id (List.mem_cons_of_mem d)
    | zero =>
      unfold replace_from at h
      split at h
      · rcases List.mem_append.mp h with h | h
        · exact .inl h
        · exact (ih h).imp id (List.mem_cons_of_mem d)
      · rcases List.mem_cons.mp h with h | h
        · exact .inr (List.mem_cons.mpr (.inl h))
        · exact (ih h).imp id (List.mem_cons_of_mem d)

/-- Replacing by a text that is not longer makes nothing longer. -/
theorem length_replace_from {old by_text : Text} (h : by_text.length ≤ old.length) (skip : Nat)
    (t : Text) : (replace_from old by_text skip t).length ≤ t.length - skip := by
  induction t generalizing skip with
  | nil => simp [replace_from]
  | cons d rest ih =>
    cases skip with
    | succ skip =>
      have hrest := ih skip
      rw [List.length_cons]
      show (replace_from old by_text skip rest).length ≤ _
      omega
    | zero =>
      unfold replace_from
      split
      · next hold =>
        have hfits := (List.isPrefixOf_iff_prefix.mp hold).length_le
        have hrest := ih (old.length - 1)
        rw [List.length_append]
        rw [List.length_cons] at hfits ⊢
        omega
      · have hrest := ih 0
        rw [List.length_cons, List.length_cons]
        omega

theorem mem_replace {old by_text t : Text} {c : Char} (h : c ∈ replace old by_text t) :
    c ∈ by_text ∨ c ∈ t :=
  mem_replace_from h

theorem length_replace_le {old by_text : Text} (h : by_text.length ≤ old.length) (t : Text) :
    (replace old by_text t).length ≤ t.length :=
  length_replace_from h 0 t

theorem dropWhile_head {p : Char → Bool} {t : Text} {c : Char} {rest : Text}
    (h : t.dropWhile p = c :: rest) : p c = false := by
  have hne : t.dropWhile p ≠ [] := by
    rw [h]
    exact List.cons_ne_nil c rest
  have hhead := List.head_dropWhile_not p hne
  simpa [h] using hhead

theorem mem_split_max {n : Nat} {t word : Text} (h : word ∈ split_max n t) : word ≠ [] := by
  induction n generalizing t with
  | zero =>
    unfold split_max at h
    split at h
    · cases h
    · next hne =>
      obtain rfl := List.mem_singleton.mp h
      exact hne
  | succ n ih =>
    unfold split_max at h
    split at h
    · cases h
    · next hne =>
      rcases List.mem_cons.mp h with rfl | h
      · -- the first character behind the white space is none
        cases hrest : t.dropWhile is_space with
        | nil => exact absurd hrest hne
        | cons c rest =>
          have hc := dropWhile_head hrest
          simp [hc]
      · exact ih h

end Python

/-- What the library makes of numbers.  A finite double stays finite, and a
    percentage stays one, when it is rounded to some digits. -/
structure Python where
  /-- `int` of a text, unless it raises `ValueError`. -/
  int : Text → Option Int
  float : Text → Option Float
  /-- `int` of a double, unless it is infinite or no number. -/
  trunc : Float → Option Int
  /-- `float.__repr__` of a finite double. -/
  repr : Float → Text
  round : Float → Nat → Float
  /-- The double next to the quotient of two integers. -/
  true_div : Int → Int → Float
  repr_line : ∀ value, '\n' ∉ repr value
  round_finite : ∀ value digits, value.isFinite = true → (round value digits).isFinite = true
  round_percent : ∀ value digits, 0.0 ≤ value → value ≤ 100.0 →
    0.0 ≤ round value digits ∧ round value digits ≤ 100.0

namespace Python

/-- `max` of two doubles: the second one if it is greater. -/
def max_float (x y : Float) : Float := if x < y then y else x

def min_float (x y : Float) : Float := if y < x then y else x

end Python
