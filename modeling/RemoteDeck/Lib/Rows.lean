import RemoteDeck.Lib.Text

/-! # Rows

    A line-oriented text whose lines are read field by field means no more
    than its rows: the fields of every line that has any.  Texts that are
    edited line by line are compared through them.
-/

namespace Text

/-! ### Fields and trimming -/

theorem split_whitespace_spaces {w : Text} (h : ∀ c ∈ w, is_whitespace c = true) :
    split_whitespace w = [] := by
  induction w with
  | nil => simp
  | cons c w ih =>
    have hw : split_whitespace w = [] := ih fun d hd => h d (List.mem_cons_of_mem _ hd)
    have hsplit := split_whitespace_append_cons [] w (h c List.mem_cons_self)
    simpa [hw] using hsplit

theorem split_whitespace_append_spaces (a : Text) {w : Text}
    (h : ∀ c ∈ w, is_whitespace c = true) : split_whitespace (a ++ w) = split_whitespace a := by
  cases w with
  | nil => simp
  | cons c w =>
    have hw : split_whitespace w = [] :=
      split_whitespace_spaces fun d hd => h d (List.mem_cons_of_mem _ hd)
    rw [split_whitespace_append_cons a w (h c List.mem_cons_self), hw, List.append_nil]

theorem split_whitespace_spaces_append {w : Text} (b : Text)
    (h : ∀ c ∈ w, is_whitespace c = true) : split_whitespace (w ++ b) = split_whitespace b := by
  induction w with
  | nil => simp
  | cons c w ih =>
    have hsplit := split_whitespace_append_cons [] (w ++ b) (h c List.mem_cons_self)
    have hw := ih fun d hd => h d (List.mem_cons_of_mem _ hd)
    simpa [hw] using hsplit

/-- A text is its trim between white space. -/
theorem trim_between_spaces (t : Text) : ∃ a b : Text, t = a ++ t.trim ++ b ∧
    (∀ c ∈ a, is_whitespace c = true) ∧ ∀ c ∈ b, is_whitespace c = true := by
  refine ⟨t.takeWhile is_whitespace,
    (t.dropWhile is_whitespace).rtakeWhile is_whitespace, ?_, ?_, ?_⟩
  · have hright : t.trim ++ (t.dropWhile is_whitespace).rtakeWhile is_whitespace =
        t.dropWhile is_whitespace := List.rdropWhile_append_rtakeWhile
    rw [List.append_assoc, hright, List.takeWhile_append_dropWhile]
  · intro c hc
    exact List.mem_takeWhile_imp hc
  · intro c hc
    exact List.mem_rtakeWhile_imp hc

@[simp] theorem split_whitespace_trim (t : Text) : split_whitespace t.trim = split_whitespace t := by
  obtain ⟨a, b, ht, ha, hb⟩ := trim_between_spaces t
  calc split_whitespace t.trim = split_whitespace (a ++ t.trim) :=
        (split_whitespace_spaces_append _ ha).symm
    _ = split_whitespace (a ++ t.trim ++ b) := (split_whitespace_append_spaces _ hb).symm
    _ = split_whitespace t := by rw [← ht]

/-- The first field of a text that does not start with white space starts
    as the text does. -/
theorem split_whitespace_cons {c : Char} {t : Text} (hc : is_whitespace c = false) :
    ∃ word rest, split_whitespace (c :: t) = (c :: word) :: rest := by
  unfold split_whitespace
  rw [List.splitOnP_cons_eq_if_modifyHead, if_neg (by simp [hc])]
  cases hparts : t.splitOnP is_whitespace with
  | nil => exact absurd hparts (List.splitOnP_ne_nil _ _)
  | cons first rest => exact ⟨first, rest.filter fun word => !word.isEmpty, by simp⟩

/-- A trimmed text does not start with white space. -/
theorem trim_cons {t rest : Text} {c : Char} (h : t.trim = c :: rest) : is_whitespace c = false := by
  by_contra hc
  have hkept : ((t.dropWhile is_whitespace).rdropWhile is_whitespace).head? = some c := by
    change t.trim.head? = some c
    rw [h, List.head?_cons]
  have hne : (t.dropWhile is_whitespace) ≠ [] := by
    intro hnil
    simp [hnil] at hkept
  have hstart := List.rdropWhile_prefix is_whitespace (t.dropWhile is_whitespace)
  obtain ⟨suffix, hsuffix⟩ := hstart
  have hhead : (t.dropWhile is_whitespace).head? = some c := by
    rw [← hsuffix, List.head?_append, hkept, Option.some_or]
  have hfirst := List.head_dropWhile_not is_whitespace hne
  rw [List.head?_eq_some_head hne, Option.some.injEq] at hhead
  rw [hhead] at hfirst
  exact hc hfirst

theorem trim_trim (t : Text) : t.trim.trim = t.trim := by
  cases htrim : t.trim with
  | nil => rfl
  | cons c rest =>
    have hfirst : is_whitespace c = false := trim_cons htrim
    have hdrop : (c :: rest).dropWhile is_whitespace = c :: rest :=
      List.dropWhile_cons_of_neg (by rw [hfirst]; exact Bool.false_ne_true)
    unfold trim
    rw [hdrop, ← htrim]
    unfold trim
    exact List.rdropWhile_idempotent is_whitespace _

theorem len_trim_le (t : Text) : t.trim.len ≤ t.len := by
  obtain ⟨a, b, ht, _, _⟩ := trim_between_spaces t
  have hlen := congrArg len ht
  rw [len_append, len_append] at hlen
  omega

/-- Trimming a text shows the start of its first field. -/
theorem trim_head (t : Text) : t.trim.head? = t.split_whitespace.head?.bind List.head? := by
  rw [← split_whitespace_trim]
  cases htrim : t.trim with
  | nil => simp
  | cons c rest =>
    obtain ⟨word, more, hfields⟩ := split_whitespace_cons (t := rest) (trim_cons htrim)
    simp [hfields]

theorem trim_eq_nil (t : Text) : t.trim = [] ↔ t.split_whitespace = [] := by
  rw [← split_whitespace_trim]
  constructor
  · intro h
    simp [h]
  · intro h
    cases htrim : t.trim with
    | nil => rfl
    | cons c rest =>
      obtain ⟨word, more, hfields⟩ := split_whitespace_cons (t := rest) (trim_cons htrim)
      rw [htrim, hfields] at h
      simp at h

/-- A text that is a field wherever it stands between white space. -/
def IsWord (t : Text) : Prop := t ≠ [] ∧ ∀ c ∈ t, is_whitespace c = false

theorem IsWord.no_newline {t : Text} (h : IsWord t) : '\n' ∉ t := by
  intro hmem
  exact absurd (h.2 _ hmem) (by decide)

theorem IsWord.fields {t : Text} (h : IsWord t) : split_whitespace t = [t] :=
  split_whitespace_word h.1 h.2

/-- Words joined with spaces are the fields of the text. -/
theorem split_whitespace_words {words : List Text} (h : ∀ word ∈ words, IsWord word) :
    split_whitespace (join ' ' words) = words := by
  induction words with
  | nil => simp [join]
  | cons word words ih =>
    have hword : IsWord word := h word List.mem_cons_self
    have hrest := ih fun other hother => h other (List.mem_cons_of_mem _ hother)
    cases words with
    | nil => simpa [join] using hword.fields
    | cons next words =>
      have hjoin : join ' ' (word :: next :: words) = word ++ ' ' :: join ' ' (next :: words) := by
        simp [join, List.intercalate_cons_cons]
      have hspace : is_whitespace ' ' = true := by decide
      rw [hjoin, split_whitespace_append_cons _ _ hspace, hrest, hword.fields,
        List.singleton_append]

theorem mem_join {separator c : Char} {parts : List Text} (h : c ∈ join separator parts) :
    c = separator ∨ ∃ part ∈ parts, c ∈ part := by
  induction parts with
  | nil => simp [join] at h
  | cons part parts ih =>
    cases parts with
    | nil => exact .inr ⟨part, List.mem_cons_self, by simpa [join] using h⟩
    | cons next parts =>
      have hjoin : join separator (part :: next :: parts) =
          part ++ separator :: join separator (next :: parts) := by
        simp [join, List.intercalate_cons_cons]
      rw [hjoin, List.mem_append, List.mem_cons] at h
      rcases h with h | h | h
      · exact .inr ⟨part, List.mem_cons_self, h⟩
      · exact .inl h
      · rcases ih h with hsep | ⟨other, hother, hc⟩
        · exact .inl hsep
        · exact .inr ⟨other, List.mem_cons_of_mem _ hother, hc⟩

theorem mem_join_of_mem {separator c : Char} {parts : List Text} {part : Text}
    (hpart : part ∈ parts) (hc : c ∈ part) : c ∈ join separator parts := by
  induction parts with
  | nil => simp at hpart
  | cons first parts ih =>
    cases parts with
    | nil =>
      obtain rfl := List.mem_singleton.mp hpart
      simpa [join] using hc
    | cons next parts =>
      have hjoin : join separator (first :: next :: parts) =
          first ++ separator :: join separator (next :: parts) := by
        simp [join, List.intercalate_cons_cons]
      rw [hjoin, List.mem_append, List.mem_cons]
      rcases List.mem_cons.mp hpart with rfl | hpart
      · exact .inl hc
      · exact .inr (.inr (ih hpart))

theorem join_head (separator : Char) {part : Text} (parts : List Text) (h : part ≠ []) :
    (join separator (part :: parts)).head? = part.head? := by
  obtain ⟨c, rest, rfl⟩ := List.exists_cons_of_ne_nil h
  cases parts with
  | nil => simp [join]
  | cons next parts => simp [join, List.intercalate_cons_cons]

/-! ### Rows -/

/-- The fields of the texts that have any. -/
def rows_of (parts : List Text) : List (List Text) :=
  (parts.map split_whitespace).filter fun row => !row.isEmpty

@[simp] theorem rows_of_nil : rows_of [] = [] := rfl

@[simp] theorem rows_of_append (a b : List Text) : rows_of (a ++ b) = rows_of a ++ rows_of b := by
  simp [rows_of]

theorem rows_of_cons (part : Text) (parts : List Text) :
    rows_of (part :: parts) = rows_of [part] ++ rows_of parts :=
  rows_of_append [part] parts

theorem rows_of_map {f : Text → Text} (parts : List Text)
    (h : ∀ part, (f part).split_whitespace = part.split_whitespace) :
    rows_of (parts.map f) = rows_of parts := by
  unfold rows_of
  rw [List.map_map]
  congr 1
  exact List.map_congr_left fun part _ => h part

/-- A choice among lines that looks at their fields is one among rows. -/
theorem rows_of_filter (keep : List Text → Bool) (parts : List Text) :
    rows_of (parts.filter fun part => keep part.split_whitespace) =
      (rows_of parts).filter keep := by
  unfold rows_of
  have hmap : (parts.filter fun part => keep part.split_whitespace).map split_whitespace =
      (parts.map split_whitespace).filter keep := by
    rw [List.filter_map]
    rfl
  rw [hmap, List.filter_comm]

/-- An edit of lines that acts on their fields is one of rows. -/
theorem rows_of_flatMap {edit : Text → List Text} {change : List Text → List (List Text)}
    {parts : List Text}
    (h : ∀ part ∈ parts, rows_of (edit part) = (rows_of [part]).flatMap change) :
    rows_of (parts.flatMap edit) = (rows_of parts).flatMap change := by
  induction parts with
  | nil => rfl
  | cons part parts ih =>
    have hrest := ih fun other hother => h other (List.mem_cons_of_mem _ hother)
    rw [List.flatMap_cons, rows_of_append, rows_of_cons, List.flatMap_append,
      h part List.mem_cons_self, hrest]

theorem rows_of_eq_flatMap (parts : List Text) :
    rows_of parts = parts.flatMap fun part => rows_of [part] := by
  induction parts with
  | nil => rfl
  | cons part parts ih => rw [rows_of_cons, List.flatMap_cons, ih]

theorem rows_of_singleton {part : Text} (h : part.split_whitespace ≠ []) :
    rows_of [part] = [part.split_whitespace] := by
  simp [rows_of, h]

theorem rows_of_blank {part : Text} (h : part.split_whitespace = []) : rows_of [part] = [] := by
  simp [rows_of, h]

theorem mem_rows_of {parts : List Text} {row : List Text} :
    row ∈ rows_of parts ↔ row ≠ [] ∧ ∃ part ∈ parts, part.split_whitespace = row := by
  unfold rows_of
  rw [List.mem_filter, List.mem_map]
  constructor
  · rintro ⟨hpart, hne⟩
    exact ⟨by simpa using hne, hpart⟩
  · rintro ⟨hne, hpart⟩
    exact ⟨hpart, by simpa using hne⟩

/-- The rows of a text. -/
def rows (t : Text) : List (List Text) := rows_of (t.splitOn '\n')

@[simp] theorem rows_nil : rows [] = [] := by
  simp [rows, rows_of]

theorem rows_append_cons (a b : Text) : rows (a ++ '\n' :: b) = rows a ++ rows b := by
  unfold rows
  rw [List.splitOn_append_cons_self, rows_of_append]

theorem rows_line {line : Text} (h : '\n' ∉ line) : rows line = rows_of [line] := by
  unfold rows
  rw [List.splitOn_eq_singleton h]

/-- Ending the last line of a text does not change its rows. -/
theorem rows_append_newline (t : Text) : rows (t ++ ['\n']) = rows t := by
  rw [rows_append_cons, rows_nil, List.append_nil]

/-- The rows of the lines that make up a text are the rows of the text. -/
theorem rows_join {parts : List Text} (h : ∀ part ∈ parts, '\n' ∉ part) :
    rows (join '\n' parts) = rows_of parts := by
  by_cases hparts : parts = []
  · subst hparts
    rfl
  · unfold rows join
    rw [List.splitOn_intercalate '\n' h hparts]

/-- A text to which a line can be appended. -/
def Complete (t : Text) : Prop := t = [] ∨ ∃ u, t = u ++ ['\n']

theorem complete_append_newline (t : Text) : Complete (t ++ ['\n']) := .inr ⟨t, rfl⟩

theorem complete_of_getLast? {t : Text} (h : t.getLast? = some '\n') : Complete t :=
  .inr ⟨t.dropLast, (List.dropLast_append_getLast? _ h).symm⟩

theorem rows_append_line {t line : Text} (ht : Complete t) (hline : '\n' ∉ line) :
    rows (t ++ line ++ ['\n']) = rows t ++ rows_of [line] := by
  rcases ht with rfl | ⟨u, rfl⟩
  · rw [rows_append_newline, List.nil_append, rows_line hline, rows_nil, List.nil_append]
  · have happend : u ++ ['\n'] ++ line = u ++ '\n' :: line := List.append_cons u '\n' line |>.symm
    rw [rows_append_newline, happend, rows_append_cons, rows_append_newline, rows_line hline]

/-! ### Lines of a file -/

/-- The lines of a file: what stands before each newline, and what stands behind
    the last one, if anything does. -/
def file_lines (t : Text) : List Text :=
  let parts := t.splitOn '\n'
  if parts.getLast? = some [] then parts.dropLast else parts

@[simp] theorem file_lines_nil : file_lines [] = [] := by
  simp [file_lines]

theorem file_lines_newline (t : Text) : file_lines (t ++ ['\n']) = t.splitOn '\n' := by
  have hparts : (t ++ ['\n']).splitOn '\n' = t.splitOn '\n' ++ [[]] := by
    rw [List.splitOn_append_cons_self, List.splitOn_nil]
  unfold file_lines
  rw [hparts]
  simp

/-- Every text is a complete one and what stands on its last line. -/
theorem exists_complete_append (t : Text) : ∃ a b : Text, t = a ++ b ∧ Complete a ∧ '\n' ∉ b := by
  refine ⟨t.rdropWhile (· ≠ '\n'), t.rtakeWhile (· ≠ '\n'),
    List.rdropWhile_append_rtakeWhile.symm, ?_, fun hmem => ?_⟩
  · by_cases hnil : t.rdropWhile (· ≠ '\n') = []
    · exact .inl hnil
    · have hlast := List.rdropWhile_last_not (· ≠ '\n') t hnil
      apply complete_of_getLast?
      rw [List.getLast?_eq_some_getLast hnil]
      simpa using hlast
  · have hother := List.mem_rtakeWhile_imp hmem
    simp at hother

/-- Behind a complete text a line stands on its own. -/
theorem file_lines_append_line {t line : Text} (ht : Complete t) (hline : '\n' ∉ line) :
    file_lines (t ++ line ++ ['\n']) = file_lines t ++ [line] := by
  rw [file_lines_newline]
  rcases ht with rfl | ⟨u, rfl⟩
  · rw [List.nil_append, List.splitOn_eq_singleton hline, file_lines_nil, List.nil_append]
  · have happend : u ++ ['\n'] ++ line = u ++ '\n' :: line := List.append_cons u '\n' line |>.symm
    rw [happend, List.splitOn_append_cons_self, List.splitOn_eq_singleton hline, file_lines_newline]

/-- It need not end. -/
theorem file_lines_append_open {t line : Text} (ht : Complete t) (hline : '\n' ∉ line)
    (hne : line ≠ []) : file_lines (t ++ line) = file_lines t ++ [line] := by
  rcases ht with rfl | ⟨u, rfl⟩
  · unfold file_lines
    rw [List.nil_append, List.splitOn_eq_singleton hline]
    simp [hne]
  · have happend : u ++ ['\n'] ++ line = u ++ '\n' :: line := List.append_cons u '\n' line |>.symm
    rw [happend, file_lines_newline]
    unfold file_lines
    rw [List.splitOn_append_cons_self, List.splitOn_eq_singleton hline]
    simp [hne]

/-! ### Lines -/

theorem mem_splitOn_newline {t part : Text} (h : part ∈ t.splitOn '\n') : '\n' ∉ part := by
  rw [List.splitOn_eq_splitOnP] at h
  intro hmem
  simpa using splitOnP_no_separator h _ hmem

theorem strip_carriage_return_subset {line : Text} {c : Char}
    (h : c ∈ strip_carriage_return line) : c ∈ line := by
  unfold strip_carriage_return at h
  split at h
  · exact List.dropLast_subset _ h
  · exact h

@[simp] theorem split_whitespace_strip_carriage_return (line : Text) :
    (strip_carriage_return line).split_whitespace = line.split_whitespace := by
  unfold strip_carriage_return
  split
  case isTrue hlast =>
    have hline : line.dropLast ++ ['\r'] = line := List.dropLast_append_getLast? _ hlast
    have hspace : ∀ c ∈ ['\r'], is_whitespace c = true := by
      simp only [List.mem_singleton, forall_eq]
      decide
    conv_rhs => rw [← hline]
    exact (split_whitespace_append_spaces _ hspace).symm
  case isFalse => rfl

theorem mem_lines_newline {t line : Text} (h : line ∈ t.lines) : '\n' ∉ line := by
  rcases List.mem_append.mp h with h | h
  · obtain ⟨part, hpart, rfl⟩ := List.mem_map.mp h
    intro hmem
    exact mem_splitOn_newline (List.dropLast_subset _ hpart) (strip_carriage_return_subset hmem)
  · obtain ⟨hlast, _⟩ := List.mem_filter.mp h
    exact mem_splitOn_newline (List.mem_of_getLast? (Option.mem_toList.mp hlast))

/-- The lines of a text have its rows. -/
theorem rows_of_lines (t : Text) : rows_of t.lines = rows t := by
  have hne : t.splitOn '\n' ≠ [] := List.splitOn_ne_nil _ _
  have hlast : rows_of ((t.splitOn '\n').getLast?.toList.filter fun line => !line.isEmpty) =
      rows_of [(t.splitOn '\n').getLast hne] := by
    rw [List.getLast?_eq_some_getLast hne]
    by_cases hempty : (t.splitOn '\n').getLast hne = []
    · simp [hempty, rows_of]
    · simp [hempty]
  show rows_of ((t.splitOn '\n').dropLast.map strip_carriage_return ++ _) = _
  rw [rows_of_append, hlast, rows_of_map _ split_whitespace_strip_carriage_return,
    ← rows_of_append, List.dropLast_append_getLast]
  rfl

end Text
