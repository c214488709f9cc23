import RemoteDeck.Sftp.Listing

/-! # The names of a long listing

    A long listing of some entries, as the server writes it, and what
    `parse_long_listing` reads from it: the same names, kinds and sizes, in
    the same order.

    This file defines:
    - `LongEntry`, an entry with its columns, and `long_listing`
    - `Recoverable`: a name that the parser cuts out of its line

    White space at the start of a name is taken for space between columns,
    and the target of a symbolic link can hide where its name ends.
-/

namespace Sftp

/-! ### Reading back numbers -/

theorem digit_value {d : Nat} (h : d < 10) : (Nat.digitChar d).toNat - '0'.toNat = d := by
  revert d
  decide

/-- The value of a decimal text, after the value of the digits before. -/
def digits_value (before : Nat) (digits : Text) : Nat :=
  digits.foldl (fun n c => n * 10 + (c.toNat - '0'.toNat)) before

theorem digits_value_text (n : Nat) : digits_value 0 n.text = n := by
  unfold Nat.text
  induction n using Nat.strong_induction_on with
  | _ n ih =>
    rw [Nat.toDigits_eq_if (by decide)]
    split
    · next hsmall =>
      have hvalue : digits_value 0 [n.digitChar] = 0 * 10 + (n.digitChar.toNat - '0'.toNat) := rfl
      rw [hvalue, digit_value hsmall]
      omega
    · next hlarge =>
      have hrest := ih (n / 10) (by omega)
      have hlast := digit_value (Nat.mod_lt n (by decide : 10 > 0))
      unfold digits_value at hrest ⊢
      rw [List.foldl_append, hrest, List.foldl_cons, List.foldl_nil, hlast]
      omega

theorem text_ne_nil (n : Nat) : n.text ≠ [] := by
  unfold Nat.text
  rw [Nat.toDigits_eq_if (by decide)]
  split <;> simp

theorem parse_u64_text {n : Nat} (h : n < 18446744073709551616) : parse_u64 n.text = some n := by
  have hvalue := digits_value_text n
  have hall : n.text.all Char.isDigit = true := List.all_eq_true.mpr fun c hc => Nat.isDigit_of_mem_text hc
  unfold parse_u64
  cases htext : n.text with
  | nil => exact absurd htext (text_ne_nil n)
  | cons c rest =>
    have hplus : c ≠ '+' := by
      intro hc
      have hdigit : c.isDigit = true := Nat.isDigit_of_mem_text (n := n) (by rw [htext]; simp)
      rw [hc] at hdigit
      exact absurd hdigit (by decide)
    rw [htext] at hvalue hall
    unfold digits_value at hvalue
    split
    · next heq => exact absurd (List.cons.inj heq).1 hplus
    · dsimp only
      rw [hall, hvalue]
      simp [h]

/-! ### Lines -/

/-- A line of a text comes first in its lines. -/
theorem lines_cons {line rest : Text} (hbreak : '\n' ∉ line) (hreturn : line.getLast? ≠ some '\r') :
    Text.lines (line ++ '\n' :: rest) = line :: Text.lines rest := by
  have hsplit : (line ++ '\n' :: rest).splitOn '\n' = line :: rest.splitOn '\n' :=
    List.splitOn_append_cons_self_of_not_mem hbreak rest
  have hstrip : Text.strip_carriage_return line = line := if_neg hreturn
  have hparts : rest.splitOn '\n' ≠ [] := List.splitOn_ne_nil _ _
  unfold Text.lines
  rw [hsplit]
  dsimp only
  rw [List.dropLast_cons_of_ne_nil hparts, List.getLast?_cons_of_ne_nil hparts, List.map_cons,
    hstrip]
  rfl

/-- The fields of a line whose columns are separated by white space. -/
theorem take_fields_after_cons {field blanks rest : Text} (count : Nat) (hne : field ≠ [])
    (hfield : ∀ c ∈ field, Text.is_whitespace c = false) (hblanks : blanks ≠ [])
    (hwhite : ∀ c ∈ blanks, Text.is_whitespace c = true)
    (hrest : ∀ c, rest.head? = some c → Text.is_whitespace c = false) :
    take_fields_after (count + 1) (field ++ blanks ++ rest) =
      (take_fields_after count rest).map fun result => (field :: result.1, result.2) := by
  have hnext : ∀ t : Text, (blanks ++ t).dropWhile (fun c => !Text.is_whitespace c) = blanks ++ t ∧
      (blanks ++ t).takeWhile (fun c => !Text.is_whitespace c) = [] := by
    intro t
    obtain ⟨c, more, rfl⟩ := List.exists_cons_of_ne_nil hblanks
    have hc := hwhite c List.mem_cons_self
    rw [List.cons_append, List.dropWhile_cons_of_neg (by simp [hc]),
      List.takeWhile_cons_of_neg (by simp [hc])]
    exact ⟨rfl, rfl⟩
  have hfield' : ∀ c ∈ field, (!Text.is_whitespace c) = true := by
    intro c hc
    rw [hfield c hc]
    rfl
  have htake : (field ++ blanks ++ rest).takeWhile (fun c => !Text.is_whitespace c) = field := by
    rw [List.append_assoc, List.takeWhile_append_of_pos hfield', (hnext rest).2, List.append_nil]
  have hdrop : (field ++ blanks ++ rest).dropWhile (fun c => !Text.is_whitespace c) =
      blanks ++ rest := by
    rw [List.append_assoc, List.dropWhile_append_of_pos hfield', (hnext rest).1]
  have hskip : (blanks ++ rest).dropWhile Text.is_whitespace = rest := by
    rw [List.dropWhile_append_of_pos hwhite]
    cases rest with
    | nil => rfl
    | cons c rest => rw [List.dropWhile_cons_of_neg (by simp [hrest c rfl])]
  have hempty : (field ++ blanks ++ rest).isEmpty = false := by
    obtain ⟨c, more, rfl⟩ := List.exists_cons_of_ne_nil hne
    rfl
  have hunfold : take_fields_after (count + 1) (field ++ blanks ++ rest) =
      if (field ++ blanks ++ rest).isEmpty then none
      else (take_fields_after count
        (((field ++ blanks ++ rest).dropWhile fun c => !Text.is_whitespace c).dropWhile
          Text.is_whitespace)).bind fun result =>
            some ((field ++ blanks ++ rest).takeWhile (fun c => !Text.is_whitespace c) :: result.1,
              result.2) := rfl
  rw [hunfold, hempty, if_neg Bool.false_ne_true, htake, hdrop, hskip]
  cases take_fields_after count rest with
  | none => rfl
  | some result => rfl

/-- Where the separator does not occur again, a text is cut around it. -/
theorem rsplit_once_append {c : Char} {pattern : Text} (front : Text) {rest : Text}
    (h : (pattern ++ rest).rsplit_once (c :: pattern) = none) :
    (front ++ c :: pattern ++ rest).rsplit_once (c :: pattern) = some (front, rest) := by
  induction front with
  | nil =>
    have hfirst := Text.strip_leading_append (c :: pattern) rest
    rw [List.nil_append, List.cons_append]
    rw [List.cons_append] at hfirst
    unfold Text.rsplit_once
    rw [h]
    dsimp only
    rw [hfirst]
    rfl
  | cons d front ih =>
    rw [List.cons_append, List.cons_append]
    unfold Text.rsplit_once
    rw [ih]

theorem strip_leading_none {t pattern : Text} (h : pattern.isPrefixOf t = false) :
    t.strip_leading pattern = none := by
  induction pattern generalizing t with
  | nil => exact absurd h (by simp)
  | cons p pattern ih =>
    cases t with
    | nil => rfl
    | cons c t =>
      unfold Text.strip_leading
      split
      · next heq =>
        rw [List.isPrefixOf_cons_cons, heq, beq_self_eq_true, Bool.true_and] at h
        exact ih h
      · rfl

theorem rsplit_once_none {t pattern : Text} (h : t.contains_text pattern = false) :
    t.rsplit_once pattern = none := by
  induction t with
  | nil =>
    have hfirst : (pattern.isPrefixOf [] || false) = false := h
    rw [Bool.or_false] at hfirst
    unfold Text.rsplit_once
    rw [strip_leading_none hfirst]
    rfl
  | cons c t ih =>
    have hboth : (pattern.isPrefixOf (c :: t) || Text.contains_text t pattern) = false := h
    rw [Bool.or_eq_false_iff] at hboth
    unfold Text.rsplit_once
    rw [ih hboth.2]
    dsimp only
    rw [strip_leading_none hboth.1]
    rfl

/-! ### Long listings -/

/-- A character that stands in a column. -/
def is_column_char (c : Char) : Bool := !Text.is_whitespace c && !Text.is_control c

/-- A character that stands in a name. -/
def is_name_char (c : Char) : Bool := !Text.is_control c && c ≠ '/'

/-- An entry of a directory, with the columns that a long listing shows before
    its name, and how much wider than needed they are. -/
structure LongEntry where
  mode : Text
  links : Text
  owner : Text
  group : Text
  size : Nat
  month : Text
  day : Text
  time : Text
  padding : Nat → Nat
  name : Text
  /-- What a symbolic link refers to. -/
  target : Text

/-- What the parser's result should say of an entry. -/
def LongEntry.facts (entry : LongEntry) : Text × SftpEntryKind × Nat :=
  (entry.name, entry_kind entry.mode, entry.size)

/-- The columns, with the number of blanks after each beyond the first. -/
def LongEntry.columns (entry : LongEntry) : List (Text × Nat) :=
  [(entry.mode, entry.padding 0), (entry.links, entry.padding 1), (entry.owner, entry.padding 2),
    (entry.group, entry.padding 3), (entry.size.text, entry.padding 4),
    (entry.month, entry.padding 5), (entry.day, entry.padding 6), (entry.time, 0)]

/-- The name as it is shown: that of a symbolic link is followed by its target. -/
def LongEntry.shown (entry : LongEntry) : Text :=
  if entry_kind entry.mode = .Symlink then entry.name ++ " -> ".toList ++ entry.target
  else entry.name

def columns_text (columns : List (Text × Nat)) (shown : Text) : Text :=
  columns.foldr (fun column rest => column.1 ++ List.replicate (column.2 + 1) ' ' ++ rest) shown

def LongEntry.line (entry : LongEntry) : Text := columns_text entry.columns entry.shown

def long_listing (entries : List LongEntry) : Text :=
  entries.flatMap fun entry => entry.line ++ ['\n']

/-- An entry of a directory: any mode, columns, size and printable name. -/
structure LongEntry.Valid (entry : LongEntry) : Prop where
  mode : ∃ first rest, entry.mode = first :: rest ∧ first ∈ ['-', 'd', 'l', 'b', 'c', 'p', 's'] ∧
    9 ≤ rest.length ∧ ∀ c ∈ rest, c ∈ ['-', 'r', 'w', 'x', 's', 'S', 't', 'T', '+', '.', '@']
  column_chars : ∀ column ∈ entry.columns, column.1 ≠ [] ∧ column.1.all is_column_char = true
  size : entry.size < 18446744073709551616
  name : entry.name ≠ [] ∧ entry.name.all is_name_char = true
  target : ∀ c ∈ entry.target, Text.is_control c = false

/-- A name that the parser cuts out of its line: it does not begin with white
    space, and where an arrow to a target follows it, no other arrow does. -/
structure LongEntry.Recoverable (entry : LongEntry) : Prop where
  no_blank : ∀ c, entry.name.head? = some c → Text.is_whitespace c = false
  last_arrow : entry_kind entry.mode = .Symlink →
    Text.contains_text (' ' :: entry.target) " -> ".toList = false

/-! ### One line -/

theorem is_whitespace_blank {n : Nat} : ∀ c ∈ List.replicate n ' ', Text.is_whitespace c = true := by
  intro c hc
  rw [List.eq_of_mem_replicate hc]
  decide

theorem take_fields_after_columns {columns : List (Text × Nat)} {shown : Text}
    (hcolumns : ∀ column ∈ columns, column.1 ≠ [] ∧ column.1.all is_column_char = true)
    (hne : shown ≠ []) (hshown : ∀ c, shown.head? = some c → Text.is_whitespace c = false) :
    take_fields_after columns.length (columns_text columns shown) =
        some (columns.map Prod.fst, shown) ∧
      (∀ c, (columns_text columns shown).head? = some c → Text.is_whitespace c = false) := by
  induction columns with
  | nil =>
    refine ⟨?_, hshown⟩
    obtain ⟨c, rest, rfl⟩ := List.exists_cons_of_ne_nil hne
    rfl
  | cons column columns ih =>
    obtain ⟨hfields, hhead⟩ := ih fun other hother => hcolumns other (List.mem_cons_of_mem _ hother)
    obtain ⟨hcolumn, hchars⟩ := hcolumns column List.mem_cons_self
    have hfield : ∀ c ∈ column.1, Text.is_whitespace c = false := by
      intro c hc
      have hchar := List.all_eq_true.mp hchars c hc
      unfold is_column_char at hchar
      rw [Bool.and_eq_true] at hchar
      exact Bool.not_eq_true' .. ▸ hchar.1
    have htext : columns_text (column :: columns) shown =
        column.1 ++ List.replicate (column.2 + 1) ' ' ++ columns_text columns shown := rfl
    rw [htext]
    constructor
    · rw [List.length_cons, take_fields_after_cons columns.length hcolumn hfield (by simp)
        is_whitespace_blank hhead, hfields]
      rfl
    · intro c hc
      obtain ⟨first, more, hfirst⟩ := List.exists_cons_of_ne_nil hcolumn
      rw [hfirst, List.cons_append, List.cons_append, List.head?_cons] at hc
      rw [← Option.some.inj hc]
      exact hfield first (by rw [hfirst]; exact List.mem_cons_self)

section
variable {entry : LongEntry}

theorem name_char {c : Char} (hvalid : entry.Valid) (hc : c ∈ entry.name) :
    Text.is_control c = false ∧ c ≠ '/' := by
  have hchar := List.all_eq_true.mp hvalid.name.2 c hc
  unfold is_name_char at hchar
  rw [Bool.and_eq_true, decide_eq_true_eq] at hchar
  exact ⟨Bool.not_eq_true' .. ▸ hchar.1, hchar.2⟩

theorem shown_char {c : Char} (hvalid : entry.Valid) (hc : c ∈ entry.shown) :
    Text.is_control c = false := by
  unfold LongEntry.shown at hc
  split at hc
  · rcases List.mem_append.mp hc with hfront | htarget
    · rcases List.mem_append.mp hfront with hname | harrow
      · exact (name_char hvalid hname).1
      · have hall : ∀ d ∈ " -> ".toList, Text.is_control d = false :=
          Text.forall_mem_of_all (by decide)
        exact hall c harrow
    · exact hvalid.target c htarget
  · exact (name_char hvalid hc).1

theorem shown_head (hvalid : entry.Valid) :
    entry.shown ≠ [] ∧ entry.shown.head? = entry.name.head? := by
  obtain ⟨first, rest, hname⟩ := List.exists_cons_of_ne_nil hvalid.name.1
  unfold LongEntry.shown
  rw [hname]
  split
  · exact ⟨List.cons_ne_nil _ _, rfl⟩
  · exact ⟨List.cons_ne_nil _ _, rfl⟩

theorem line_eq : entry.line =
    entry.mode ++ List.replicate (entry.padding 0 + 1) ' ' ++
      columns_text entry.columns.tail entry.shown := rfl

theorem line_char {c : Char} (hvalid : entry.Valid) (hc : c ∈ entry.line) :
    Text.is_control c = false := by
  have hcolumns : ∀ columns : List (Text × Nat),
      (∀ column ∈ columns, column.1 ≠ [] ∧ column.1.all is_column_char = true) →
      c ∈ columns_text columns entry.shown → Text.is_control c = false := by
    intro columns hchars hmem
    induction columns with
    | nil => exact shown_char hvalid hmem
    | cons column columns ih =>
      have htext : columns_text (column :: columns) entry.shown =
          column.1 ++ List.replicate (column.2 + 1) ' ' ++ columns_text columns entry.shown := rfl
      rw [htext] at hmem
      rcases List.mem_append.mp hmem with hfront | hrest
      · rcases List.mem_append.mp hfront with hcolumn | hblank
        · have hchar := List.all_eq_true.mp (hchars column List.mem_cons_self).2 c hcolumn
          unfold is_column_char at hchar
          rw [Bool.and_eq_true] at hchar
          exact Bool.not_eq_true' .. ▸ hchar.2
        · rw [List.eq_of_mem_replicate hblank]
          decide
      · exact ih (fun other hother => hchars other (List.mem_cons_of_mem _ hother)) hrest
  exact hcolumns entry.columns hvalid.column_chars hc

/-- A line is not changed by cutting white space off its ends. -/
theorem listing_line_line (hvalid : entry.Valid) : listing_line entry.line = entry.line := by
  have hreturn : entry.line.rdropWhile (· = '\r') = entry.line := by
    rw [List.rdropWhile_eq_self_iff]
    intro hne hlast
    have hcontrol := line_char hvalid (List.getLast_mem hne)
    rw [of_decide_eq_true hlast] at hcontrol
    exact absurd hcontrol (by decide)
  obtain ⟨first, rest, hmode, hfirst, _, _⟩ := hvalid.mode
  have hkinds : ∀ c ∈ ['-', 'd', 'l', 'b', 'c', 'p', 's'], Text.is_whitespace c = false :=
    Text.forall_mem_of_all (by decide)
  have hwhite := hkinds first hfirst
  unfold listing_line
  rw [hreturn, line_eq, hmode, List.cons_append, List.cons_append,
    List.dropWhile_cons_of_neg (by simp [hwhite])]

theorem line_not_skipped (hvalid : entry.Valid) : is_skipped entry.line = false := by
  obtain ⟨first, rest, hmode, hfirst, hlength, hrest⟩ := hvalid.mode
  obtain ⟨second, more, hsecond⟩ : ∃ c t, rest = c :: t := by
    cases rest with
    | nil => exact absurd hlength (by simp)
    | cons c t => exact ⟨c, t, rfl⟩
  have hne : second ≠ 'f' := by
    intro hf
    have hmem := hrest second (by rw [hsecond]; exact List.mem_cons_self)
    rw [hf] at hmem
    exact absurd hmem (by decide)
  rw [line_eq, hmode, hsecond]
  unfold is_skipped Text.starts_with
  have hprompt : "sftp>".toList = ['s', 'f', 't', 'p', '>'] := rfl
  rw [hprompt]
  simp only [List.cons_append, List.head?_cons, List.isPrefixOf_cons_cons]
  rw [beq_eq_false_iff_ne.mpr hne.symm, Bool.false_and, Bool.and_false, Bool.false_or,
    List.contains_iff_mem.mpr hfirst]
  rfl

/-- The name is cut out of what is shown. -/
theorem shown_name_shown (hrecoverable : entry.Recoverable) :
    shown_name (entry_kind entry.mode) entry.shown = entry.name := by
  unfold shown_name LongEntry.shown
  split
  · next hlink =>
    -- the arrow before the target is the last one
    have hlater : Text.rsplit_once ("-> ".toList ++ entry.target) " -> ".toList = none := by
      apply rsplit_once_none
      have harrow := hrecoverable.last_arrow hlink
      have hshift : Text.contains_text ("-> ".toList ++ entry.target) " -> ".toList =
          Text.contains_text (' ' :: entry.target) " -> ".toList := rfl
      rw [hshift]
      exact harrow
    have harrow : " -> ".toList = ' ' :: "-> ".toList := rfl
    rw [harrow] at hlater ⊢
    rw [rsplit_once_append entry.name hlater]
  · rfl

theorem len_ge_length (t : Text) : t.length ≤ t.len := by
  induction t with
  | nil => exact Nat.le_refl _
  | cons c t ih =>
    have hc : 0 < c.utf8Size := Char.utf8Size_pos c
    rw [List.length_cons, Text.len_cons]
    omega

theorem parse_row_line (hvalid : entry.Valid) (hrecoverable : entry.Recoverable) :
    parse_row entry.line = .ok {
      permissions := entry.mode
      kind := entry_kind entry.mode
      size := entry.size
      displayed_name := entry.name } := by
  obtain ⟨hshown, hhead⟩ := shown_head hvalid
  have hblank : ∀ c, entry.shown.head? = some c → Text.is_whitespace c = false := by
    rw [hhead]
    exact hrecoverable.no_blank
  obtain ⟨hfields, hfirst⟩ := take_fields_after_columns hvalid.column_chars hshown hblank
  have hline : take_fields entry.line 8 = some (entry.columns.map Prod.fst, entry.shown) := by
    unfold take_fields LongEntry.line
    cases htext : columns_text entry.columns entry.shown with
    | nil =>
      rw [htext] at hfields
      exact hfields
    | cons c rest =>
      rw [htext] at hfields hfirst
      rw [List.dropWhile_cons_of_neg (by simp [hfirst c rfl])]
      exact hfields
  have hmode : ¬entry.mode.len < 10 := by
    obtain ⟨first, rest, hmode, _, hlength, _⟩ := hvalid.mode
    have hlen := len_ge_length entry.mode
    rw [hmode, List.length_cons] at hlen
    rw [hmode]
    omega
  have hname : (entry.name.isEmpty || entry.name.any is_line_break) = false := by
    rw [Bool.or_eq_false_iff]
    constructor
    · rw [List.isEmpty_eq_false_iff]
      exact hvalid.name.1
    · rw [List.any_eq_false]
      intro c hc hbreak
      have hbreaks : ∀ d ∈ [Char.ofNat 0, '\r', '\n'], Text.is_control d = true :=
        Text.forall_mem_of_all (by decide)
      have hcontrol := hbreaks c (List.contains_iff_mem.mp hbreak)
      rw [(name_char hvalid hc).1] at hcontrol
      exact absurd hcontrol Bool.false_ne_true
  have hpermissions : (entry.columns.map Prod.fst)[0]?.getD [] = entry.mode := rfl
  have hcolumn : (entry.columns.map Prod.fst)[4]?.getD [] = entry.size.text := rfl
  unfold parse_row
  rw [hline]
  dsimp only
  rw [hpermissions, hcolumn, if_neg hmode, parse_u64_text hvalid.size,
    shown_name_shown hrecoverable]
  dsimp only [Option.ok_or, bind, Except.bind]
  rw [hname]
  rfl

theorem listing_file_name_name (parent : Text) (hvalid : entry.Valid) :
    listing_file_name entry.name parent = entry.name := by
  have hslash : '/' ∉ entry.name := fun hmem => (name_char hvalid hmem).2 rfl
  have hleading : ∀ leading : Text, '/' ∈ leading → entry.name.strip_leading leading = none := by
    intro leading hmem
    cases hstrip : entry.name.strip_leading leading with
    | none => rfl
    | some rest =>
      rw [Text.strip_leading_eq_some hstrip] at hslash
      exact absurd (List.mem_append_left rest hmem) hslash
  have hself : entry.name.rtakeWhile (· ≠ '/') = entry.name := by
    rw [List.rtakeWhile_eq_self_iff]
    intro c hc
    exact decide_eq_true (name_char hvalid hc).2
  unfold listing_file_name
  dsimp only
  split
  · next hlast =>
    rw [hleading parent (List.mem_of_getLast? hlast)]
    exact hself
  · rw [hleading (parent ++ ['/']) (by simp)]
    exact hself

end

/-! ### A whole listing -/

theorem lines_long_listing {entries : List LongEntry} (hvalid : ∀ entry ∈ entries, entry.Valid) :
    Text.lines (long_listing entries) = entries.map LongEntry.line := by
  induction entries with
  | nil => rfl
  | cons entry entries ih =>
    have hentry := hvalid entry List.mem_cons_self
    have hbreak : '\n' ∉ entry.line := by
      intro hmem
      exact absurd (line_char hentry hmem) (by decide)
    have hreturn : entry.line.getLast? ≠ some '\r' := by
      intro hlast
      exact absurd (line_char hentry (List.mem_of_getLast? hlast)) (by decide)
    have hlisting : long_listing (entry :: entries) = entry.line ++ '\n' :: long_listing entries := by
      unfold long_listing
      rw [List.flatMap_cons, List.append_assoc]
      rfl
    rw [hlisting, lines_cons hbreak hreturn,
      ih fun other hother => hvalid other (List.mem_cons_of_mem _ hother)]
    rfl

/-- The bytes that the parser counts for an entry. -/
def LongEntry.bytes (parent : Text) (entry : LongEntry) : Nat :=
  entry.name.len + (remote_join parent entry.name).len + entry.mode.len

/-- The bytes that the parser counts for some entries. -/
def listing_bytes (parent : Text) (entries : List LongEntry) : Nat :=
  entries.foldr (fun entry total => entry.bytes parent + total) 0

theorem parse_lines_long_listing (parent : Text) {entries : List LongEntry} (count retained : Nat)
    (hvalid : ∀ entry ∈ entries, entry.Valid)
    (hrecoverable : ∀ entry ∈ entries, entry.Recoverable)
    (hcount : count + entries.length ≤ MAX_REMOTE_ENTRIES)
    (hbytes : retained + listing_bytes parent entries ≤ MAX_TREE_PATH_BYTES) :
    ∃ listed, parse_lines parent (entries.map LongEntry.line) count retained = .ok listed ∧
      listed.map (fun entry => (entry.name, entry.kind, entry.size)) =
        entries.map LongEntry.facts := by
  induction entries generalizing count retained with
  | nil => exact ⟨[], rfl, rfl⟩
  | cons entry entries ih =>
    have hentry := hvalid entry List.mem_cons_self
    rw [List.length_cons] at hcount
    have hsplit : listing_bytes parent (entry :: entries) =
        entry.name.len + (remote_join parent entry.name).len + entry.mode.len +
          listing_bytes parent entries := rfl
    rw [hsplit] at hbytes
    obtain ⟨listed, hlisted, hfacts⟩ := ih (count + 1)
      (retained + entry.name.len + (remote_join parent entry.name).len + entry.mode.len)
      (fun other hother => hvalid other (List.mem_cons_of_mem _ hother))
      (fun other hother => hrecoverable other (List.mem_cons_of_mem _ hother))
      (by omega) (by omega)
    have hnew : ¬MAX_TREE_PATH_BYTES <
        retained + entry.name.len + (remote_join parent entry.name).len + entry.mode.len := by omega
    have hroom : ¬MAX_REMOTE_ENTRIES ≤ count := by omega
    refine ⟨{ kind := entry_kind entry.mode, path := remote_join parent entry.name,
              name := entry.name, size := entry.size, permissions := entry.mode } :: listed, ?_, ?_⟩
    · rw [List.map_cons]
      unfold parse_lines
      dsimp only
      rw [listing_line_line hentry, line_not_skipped hentry,
        parse_row_line hentry (hrecoverable entry List.mem_cons_self)]
      dsimp only [bind, Except.bind]
      rw [if_neg Bool.false_ne_true, if_neg hroom, listing_file_name_name parent hentry,
        if_neg hnew, hlisted]
    · rw [List.map_cons, List.map_cons, hfacts]
      rfl

/-- What is read of a listing says of its entries what they are. -/
def Recovers (parent : Text) (entries : List LongEntry) : Prop :=
  ∃ listed, parse_long_listing (long_listing entries) parent = .ok listed ∧
    listed.map (fun entry => (entry.name, entry.kind, entry.size)) = entries.map LongEntry.facts

/-- Within the limits of the parser, a long listing of entries whose names can
    be cut out of their lines gives those names, kinds and sizes in order. -/
theorem parse_long_listing_recovers (parent : Text) (entries : List LongEntry)
    (hvalid : ∀ entry ∈ entries, entry.Valid)
    (hrecoverable : ∀ entry ∈ entries, entry.Recoverable)
    (hcount : entries.length ≤ MAX_REMOTE_ENTRIES)
    (hbytes : listing_bytes parent entries ≤ MAX_TREE_PATH_BYTES) : Recovers parent entries := by
  unfold Recovers parse_long_listing
  rw [lines_long_listing hvalid]
  exact parse_lines_long_listing parent 0 0 hvalid hrecoverable (by omega) (by omega)

/-- An entry with the usual columns. -/
def usual_entry (first : Char) (name target : Text) : LongEntry where
  mode := first :: "rw-r--r--".toList
  links := ['1']
  owner := "1000".toList
  group := "1000".toList
  size := 17
  month := "Aug".toList
  day := ['1']
  time := "12:34".toList
  padding := fun column => if column = 0 then 3 else 0
  name := name
  target := target

theorem usual_entry_valid {first : Char} {name target : Text}
    (hfirst : first ∈ ['-', 'd', 'l', 'b', 'c', 'p', 's'])
    (hname : name ≠ [] ∧ name.all is_name_char = true)
    (htarget : ∀ c ∈ target, Text.is_control c = false) : (usual_entry first name target).Valid where
  mode := ⟨first, "rw-r--r--".toList, rfl, hfirst, by decide, Text.forall_mem_of_all (by decide)⟩
  column_chars := by
    have hkinds : ∀ c ∈ ['-', 'd', 'l', 'b', 'c', 'p', 's'], is_column_char c = true :=
      Text.forall_mem_of_all (by decide)
    intro column hcolumn
    rcases List.mem_cons.mp hcolumn with rfl | hrest
    · refine ⟨List.cons_ne_nil _ _, ?_⟩
      have hmore : "rw-r--r--".toList.all is_column_char = true := by decide
      have hall : (usual_entry first name target).mode.all is_column_char =
          (is_column_char first && "rw-r--r--".toList.all is_column_char) := rfl
      rw [hall, hkinds first hfirst, hmore]
      rfl
    · have hothers : ∀ other ∈ (usual_entry '-' [] []).columns.tail,
          other.1 ≠ [] ∧ other.1.all is_column_char = true := by decide
      exact hothers column hrest
  size := by
    have hsize : (17 : Nat) < 18446744073709551616 := by decide
    exact hsize
  name := hname
  target := htarget

theorem parse_long_listing_recovers_two :
    Recovers "/t".toList
      [usual_entry '-' "a b".toList [], usual_entry 'l' "x".toList "y".toList] := by
  have hfile : (usual_entry '-' "a b".toList []).Valid :=
    usual_entry_valid (by decide) (by decide) (Text.forall_mem_of_all (by decide))
  have hlink : (usual_entry 'l' "x".toList "y".toList).Valid :=
    usual_entry_valid (by decide) (by decide) (Text.forall_mem_of_all (by decide))
  have hfile' : (usual_entry '-' "a b".toList []).Recoverable := by
    refine ⟨?_, fun hkind => absurd hkind (by decide)⟩
    intro c hc
    rw [← Option.some.inj hc]
    decide
  have hlink' : (usual_entry 'l' "x".toList "y".toList).Recoverable := by
    refine ⟨?_, fun _ => by decide⟩
    intro c hc
    rw [← Option.some.inj hc]
    decide
  exact parse_long_listing_recovers "/t".toList
    [usual_entry '-' "a b".toList [], usual_entry 'l' "x".toList "y".toList]
    (List.forall_mem_cons.mpr ⟨hfile, List.forall_mem_singleton.mpr hlink⟩)
    (List.forall_mem_cons.mpr ⟨hfile', List.forall_mem_singleton.mpr hlink'⟩) (by decide)
    (by decide)

/-- There are no more entries than the parser takes. -/
theorem parse_lines_length {parent : Text} {lines : List Text} {count retained : Nat}
    {listed : List ListedEntry} (h : parse_lines parent lines count retained = .ok listed)
    (hne : listed ≠ []) : count + listed.length ≤ MAX_REMOTE_ENTRIES := by
  induction lines generalizing count retained listed with
  | nil => exact absurd (Except.ok.inj h).symm hne
  | cons raw_line lines ih =>
    unfold parse_lines at h
    dsimp only at h
    split at h
    · exact ih h hne
    · obtain ⟨row, _, h⟩ := Outcome.bind_eq_ok.mp h
      rw [Outcome.ite_error_eq_ok, Outcome.ite_error_eq_ok] at h
      obtain ⟨hroom, _, h⟩ := h
      obtain ⟨rest, hrest, h⟩ := Outcome.bind_eq_ok.mp h
      have hlisted := Except.ok.inj h
      rw [← hlisted, List.length_cons]
      by_cases hnil : rest = []
      · rw [hnil, List.length_nil]
        omega
      · have hmore := ih hrest hnil
        omega

/-- A listing that is read as one of other entries. -/
def Misread (parent : Text) (entries : List LongEntry) : Prop :=
  (∀ entry ∈ entries, entry.Valid) ∧ ¬Recovers parent entries

theorem misread_of_name {first : Char} {name target : Text} (other : Text)
    (hvalid : (usual_entry first name target).Valid)
    (hread : (parse_long_listing (long_listing [usual_entry first name target])
      "/t".toList).map (List.map fun entry => entry.name) = .ok [other]) (hne : other ≠ name) :
    Misread "/t".toList [usual_entry first name target] := by
  refine ⟨List.forall_mem_singleton.mpr hvalid, ?_⟩
  rintro ⟨listed, hlisted, hfacts⟩
  rw [hlisted] at hread
  have hnames := congrArg (List.map Prod.fst) hfacts
  rw [List.map_map] at hnames
  have hsame : [other] = [name] := (Except.ok.inj hread).symm.trans hnames
  exact hne (List.cons.inj hsame).1

/-- A directory can have more entries than the parser takes, a name can begin
    with a blank, and the target of a symbolic link can contain an arrow. -/
theorem long_listings_misread :
    Misread "/t".toList
        (List.replicate (MAX_REMOTE_ENTRIES + 1) (usual_entry '-' "a".toList [])) ∧
      Misread "/t".toList [usual_entry '-' " a".toList []] ∧
      Misread "/t".toList [usual_entry 'l' "x".toList "y -> z".toList] := by
  refine ⟨⟨?_, ?_⟩, ?_, ?_⟩
  · intro entry hentry
    rw [List.eq_of_mem_replicate hentry]
    exact usual_entry_valid (by decide) (by decide) (Text.forall_mem_of_all (by decide))
  · rintro ⟨listed, hlisted, hfacts⟩
    have hlength := congrArg List.length hfacts
    rw [List.length_map, List.length_map, List.length_replicate] at hlength
    have hne : listed ≠ [] := by
      intro hnil
      rw [hnil] at hlength
      exact absurd hlength (by decide)
    have hbound := parse_lines_length hlisted hne
    omega
  · have hvalid : (usual_entry '-' " a".toList []).Valid :=
      usual_entry_valid (by decide) (by decide) (Text.forall_mem_of_all (by decide))
    exact misread_of_name "a".toList hvalid (by decide +kernel) (by decide)
  · have hvalid : (usual_entry 'l' "x".toList "y -> z".toList).Valid :=
      usual_entry_valid (by decide) (by decide) (Text.forall_mem_of_all (by decide))
    exact misread_of_name "x -> y".toList hvalid (by decide +kernel) (by decide)

end Sftp
