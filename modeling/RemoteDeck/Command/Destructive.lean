import RemoteDeck.Command.Risk

/-! # Destructive programs are found

    Where a word of a command is one of the programs that `level_two_findings`
    lists without a further condition, the command is of the highest level,
    whatever stands around the word.

    This file defines:
    - `Separated`: a word between separators, at any place of a text
    - `PLAIN_PROGRAMS`, and the programs `mkfs.*`
    - `names_mkfs`: the words of a text that name a program `mkfs.*`

    The programs `mkfs.*` are searched in the words of `shell_words`, which
    are separated by white space only: one that follows an operator, or that a
    redirection to a path follows, is missed.
-/

namespace Command

/-- A blank, a newline, or a character of a shell operator. -/
def is_separator (c : Char) : Bool := [' ', '\t', '\n', ';', '&', '|', '<', '>', '(', ')'].contains c

/-- The programs that are destructive whatever their arguments are. -/
def PLAIN_PROGRAMS : List String :=
  ["sudo", "su", "reboot", "shutdown", "poweroff", "halt", "rm", "rmdir", "unlink", "kill", "pkill",
    "killall", "mkfs", "fdisk", "parted", "wipefs"]

/-- A word between separators: a program name, with a directory in front of it
    or without, in any letter case. -/
structure Separated (front directory name back : Text) : Prop where
  front : ∀ c, front.getLast? = some c → is_separator c = true
  directory : ∀ c, directory.getLast? = some c → c = '/'
  back : ∀ c, back.head? = some c → is_separator c = true

/-! ### Programs between boundaries -/

/-- What may stand before a program. -/
def is_boundary_before (c : Char) : Bool := !is_word_byte c || c = '/'

theorem contains_command_after_append {program front back : Text} (before : Option Char)
    (hne : program ≠ [])
    (hfront : ∀ c, (front.getLast?.or before) = some c → is_boundary_before c = true)
    (hback : ∀ c, back.head? = some c → is_word_byte c = false) :
    contains_command_after program before (front ++ program ++ back) = true := by
  induction front generalizing before with
  | nil =>
    have hstrip := Text.strip_leading_append program back
    obtain ⟨c, rest, hprogram⟩ := List.exists_cons_of_ne_nil hne
    have hbefore : before.all (fun b => !is_word_byte b || b = '/') = true := by
      cases before with
      | none => rfl
      | some b => exact hfront b rfl
    have hafter : back.head?.all (fun a => !is_word_byte a) = true := by
      cases hhead : back.head? with
      | none => rfl
      | some a =>
        have hword := hback a hhead
        simp [hword]
    rw [List.nil_append]
    have htext : program ++ back = c :: (rest ++ back) := by rw [hprogram]; rfl
    rw [htext]
    unfold contains_command_after
    rw [← htext, hstrip]
    simp [hbefore, hafter]
  | cons c front ih =>
    have hrest := ih (some c) (by
      intro d hd
      apply hfront d
      cases hlast : front.getLast? with
      | none =>
        rw [hlast] at hd
        rw [List.getLast?_cons, hlast]
        exact hd
      | some e =>
        rw [hlast] at hd
        rw [List.getLast?_cons, hlast]
        exact hd)
    rw [List.cons_append, List.cons_append]
    unfold contains_command_after
    rw [hrest, Bool.or_true]

theorem contains_command_append {program front back : Text} (hne : program ≠ [])
    (hfront : ∀ c, front.getLast? = some c → is_boundary_before c = true)
    (hback : ∀ c, back.head? = some c → is_word_byte c = false) :
    contains_command (front ++ program ++ back) program = true := by
  unfold contains_command
  rw [contains_command_after_append none hne (by rwa [Option.or_none]) hback, Bool.and_true,
    Bool.not_eq_true', List.isEmpty_eq_false_iff]
  exact hne

theorem separator_not_word {c : Char} (h : is_separator c = true) : is_word_byte c = false := by
  have hall : ∀ d ∈ [' ', '\t', '\n', ';', '&', '|', '<', '>', '(', ')'],
      is_word_byte d = false := Text.forall_mem_of_all (by decide)
  exact hall c (List.contains_iff_mem.mp h)

theorem separator_lower {c : Char} (h : is_separator c = true) : c.toLower = c := by
  have hall : ∀ d ∈ [' ', '\t', '\n', ';', '&', '|', '<', '>', '(', ')'], d.toLower = d :=
    Text.forall_mem_of_all (by decide)
  exact hall c (List.contains_iff_mem.mp h)

section
variable {front directory name back : Text}

/-- A separated word stands between boundaries in the lower case text. -/
theorem Separated.contains_command (h : Separated front directory name back) {program : Text}
    (hne : program ≠ []) (hname : name.to_ascii_lowercase = program) :
    contains_command (front ++ directory ++ name ++ back).to_ascii_lowercase program = true := by
  have hlower : (front ++ directory ++ name ++ back).to_ascii_lowercase =
      (front ++ directory).to_ascii_lowercase ++ program ++ back.to_ascii_lowercase := by
    rw [Text.to_ascii_lowercase_append, Text.to_ascii_lowercase_append (front ++ directory), hname]
  rw [hlower]
  apply contains_command_append hne
  · intro c hc
    unfold Text.to_ascii_lowercase at hc
    rw [List.getLast?_map, Option.map_eq_some_iff] at hc
    obtain ⟨d, hd, rfl⟩ := hc
    rw [List.getLast?_append] at hd
    unfold is_boundary_before
    cases hdirectory : directory.getLast? with
    | some e =>
      rw [hdirectory] at hd
      have hslash : d = '/' := (Option.some.inj hd).symm.trans (h.directory e hdirectory)
      rw [hslash]
      decide
    | none =>
      rw [hdirectory, Option.none_or] at hd
      have hseparator := h.front d hd
      rw [separator_lower hseparator, separator_not_word hseparator]
      rfl
  · intro c hc
    unfold Text.to_ascii_lowercase at hc
    rw [List.head?_map, Option.map_eq_some_iff] at hc
    obtain ⟨d, hd, rfl⟩ := hc
    have hseparator := h.back d hd
    rw [separator_lower hseparator]
    exact separator_not_word hseparator

end

/-! ### The plain programs -/

theorem detected_risk_level_two {command : Text}
    (h : any_finding (level_two_findings command.to_ascii_lowercase) = true) :
    detected_risk command = .L2 := by
  unfold detected_risk
  exact if_pos h

/-- The programs that a finding of level two lists. -/
def listed_programs : List (List String) :=
  [["sudo", "su"], ["reboot", "shutdown", "poweroff", "halt"], ["rm", "rmdir", "unlink"],
    ["kill", "pkill", "killall"], ["mkfs", "fdisk", "parted", "wipefs"]]

theorem any_finding_of_listed {lower : Text} {programs : List String}
    (hlisted : programs ∈ listed_programs) (h : contains_any_command lower programs = true) :
    any_finding (level_two_findings lower) = true := by
  unfold listed_programs at hlisted
  unfold any_finding level_two_findings
  simp only [List.mem_cons, List.not_mem_nil, or_false] at hlisted
  rcases hlisted with rfl | rfl | rfl | rfl | rfl <;> simp [h]

theorem plain_listed {program : String} (h : program ∈ PLAIN_PROGRAMS) :
    ∃ programs ∈ listed_programs, program ∈ programs := by
  revert program
  decide

theorem Separated.plain {front directory name back : Text} (h : Separated front directory name back)
    {program : String} (hprogram : program ∈ PLAIN_PROGRAMS)
    (hname : name.to_ascii_lowercase = program.toList) :
    detected_risk (front ++ directory ++ name ++ back) = .L2 := by
  obtain ⟨programs, hlisted, hmem⟩ := plain_listed hprogram
  have hne : program.toList ≠ [] := by
    have hall : ∀ p ∈ PLAIN_PROGRAMS, p.toList ≠ [] := by decide
    exact hall program hprogram
  apply detected_risk_level_two
  apply any_finding_of_listed hlisted
  unfold contains_any_command
  rw [List.any_eq_true]
  exact ⟨program, hmem, h.contains_command hne hname⟩

/-! ### The programs `mkfs.*` -/

def MKFS : Text := "mkfs.".toList

/-- The findings of level two other than that for a word `mkfs.*`. -/
def other_level_two (lower : Text) : Bool :=
  listed_programs.any (contains_any_command lower) || contains_systemctl_reboot lower ||
    contains_find_delete lower || contains_systemctl_kill lower || contains_dd_device_copy lower ||
      contains_destructive_git lower || contains_remote_script_pipe lower ||
        contains_package_removal lower

theorem any_finding_level_two (lower : Text) :
    any_finding (level_two_findings lower) =
      ( contains_program_prefix lower MKFS || other_level_two lower) := by
  unfold any_finding level_two_findings other_level_two listed_programs MKFS
  simp only [List.any_cons, List.any_nil, Bool.or_false]
  ac_rfl

theorem detected_risk_iff (command : Text) :
    detected_risk command = .L2 ↔
      contains_program_prefix command.to_ascii_lowercase MKFS = true ∨
        other_level_two command.to_ascii_lowercase = true := by
  rw [← Bool.or_eq_true, ← any_finding_level_two]
  constructor
  · intro hrisk
    unfold detected_risk at hrisk
    dsimp only at hrisk
    by_contra hnone
    rw [if_neg hnone] at hrisk
    split at hrisk
    · cases hrisk
    · cases hrisk
  · exact detected_risk_level_two

/-- The characters that are cut off a word. -/
def is_stripped (c : Char) : Bool := "'\"()\x7b\x7d,".toList.contains c

theorem shell_words_eq (value : Text) :
    shell_words value =
      (value.split_whitespace.map fun word =>
        (word.trim_matches is_stripped).to_ascii_lowercase).filter fun word => !word.isEmpty := rfl

/-- What follows the last slash of a text. -/
theorem executable_basename_append {directory name : Text}
    (hdirectory : ∀ c, directory.getLast? = some c → c = '/') (hname : '/' ∉ name) :
    executable_basename (directory ++ name) = name := by
  have hself : name.splitOn '/' = [name] := List.splitOn_eq_singleton hname
  unfold executable_basename Text.split
  cases hlast : directory.getLast? with
  | none =>
    rw [List.getLast?_eq_none_iff.mp hlast, List.nil_append, hself]
    rfl
  | some c =>
    obtain ⟨start, rfl⟩ := List.getLast?_eq_some_iff.mp hlast
    rw [hdirectory c hlast, List.append_assoc, List.cons_append, List.nil_append,
      List.splitOn_append_cons_self, hself]
    simp

/-- Every text is a directory and what follows it. -/
theorem executable_basename_split (word : Text) :
    ∃ directory, word = directory ++ executable_basename word ∧
      (∀ c, directory.getLast? = some c → c = '/') ∧ '/' ∉ executable_basename word := by
  let keep : Char → Bool := fun c => c ≠ '/'
  have hsplit : word.rdropWhile keep ++ word.rtakeWhile keep = word :=
    List.rdropWhile_append_rtakeWhile
  have hdirectory : ∀ c, (word.rdropWhile keep).getLast? = some c → c = '/' := by
    intro c hc
    have hne : word.rdropWhile keep ≠ [] := by
      intro hnil
      rw [hnil] at hc
      cases hc
    have hstop := List.rdropWhile_last_not keep word hne
    rw [(List.getLast_eq_iff_getLast?_eq_some hne).mpr hc] at hstop
    simpa [keep] using hstop
  have hname : '/' ∉ word.rtakeWhile keep := by
    intro hmem
    have htaken := List.mem_rtakeWhile_imp hmem
    simp [keep] at htaken
  have hbase := executable_basename_append hdirectory hname
  rw [hsplit] at hbase
  exact ⟨word.rdropWhile keep, by rw [hbase, hsplit], hdirectory, by rwa [hbase]⟩

/-! ### Words of a text -/

/-- A word of a text: what stands between white space. -/
structure IsField (front word back : Text) : Prop where
  front : ∀ c, front.getLast? = some c → Text.is_whitespace c = true
  word : ∀ c ∈ word, Text.is_whitespace c = false
  back : ∀ c, back.head? = some c → Text.is_whitespace c = true

theorem split_whitespace_field {front word back : Text} (h : IsField front word back) :
    ∃ fields others, (front ++ word ++ back).split_whitespace =
      fields ++ word.split_whitespace ++ others := by
  have hfront : ∃ fields, ∀ t : Text, (front ++ t).split_whitespace = fields ++ t.split_whitespace := by
    cases hlast : front.getLast? with
    | none =>
      rw [List.getLast?_eq_none_iff.mp hlast]
      exact ⟨[], fun t => rfl⟩
    | some c =>
      obtain ⟨start, hstart⟩ := List.getLast?_eq_some_iff.mp hlast
      refine ⟨Text.split_whitespace start, fun t => ?_⟩
      rw [hstart, List.append_assoc, List.singleton_append]
      exact Text.split_whitespace_append_cons _ _ (h.front c hlast)
  have hback : ∃ others, (word ++ back).split_whitespace = word.split_whitespace ++ others := by
    cases hback : back with
    | nil => exact ⟨[], by simp⟩
    | cons c tail =>
      have hspace := h.back c (by rw [hback]; rfl)
      exact ⟨Text.split_whitespace tail, Text.split_whitespace_append_cons _ _ hspace⟩
  obtain ⟨fields, hfields⟩ := hfront
  obtain ⟨others, hothers⟩ := hback
  exact ⟨fields, others, by rw [List.append_assoc, hfields, hothers, List.append_assoc]⟩

theorem split_whitespace_finds {t word : Text} (h : word ∈ t.split_whitespace) :
    ∃ front back, t = front ++ word ++ back ∧ IsField front word back := by
  induction hlength : t.length using Nat.strong_induction_on generalizing t with
  | _ n ih =>
    by_cases hany : ∃ c ∈ t, Text.is_whitespace c = true
    · obtain ⟨c, hmem, hspace⟩ := hany
      obtain ⟨a, b, rfl⟩ := List.append_of_mem hmem
      rw [List.length_append, List.length_cons] at hlength
      rw [Text.split_whitespace_append_cons a b hspace, List.mem_append] at h
      rcases h with ha | hb
      · obtain ⟨front, back, rfl, hfield⟩ := ih a.length (by omega) ha rfl
        refine ⟨front, back ++ c :: b, by simp, hfield.front, hfield.word, ?_⟩
        intro d hd
        cases back with
        | nil =>
          obtain rfl := Option.some.inj hd
          exact hspace
        | cons e tail => exact hfield.back d hd
      · obtain ⟨front, back, rfl, hfield⟩ := ih b.length (by omega) hb rfl
        refine ⟨a ++ c :: front, back, by simp, ?_, hfield.word, hfield.back⟩
        intro d hd
        rw [List.getLast?_append, List.getLast?_cons, Option.some_or] at hd
        cases hlast : front.getLast? with
        | none =>
          rw [hlast] at hd
          obtain rfl := Option.some.inj hd
          exact hspace
        | some e =>
          rw [hlast] at hd
          obtain rfl := Option.some.inj hd
          exact hfield.front e hlast
    · have hword : ∀ c ∈ t, Text.is_whitespace c = false := by
        intro c hc
        by_contra hspace
        exact hany ⟨c, hc, by simpa using hspace⟩
      have hne : t ≠ [] := by
        rintro rfl
        rw [Text.split_whitespace_nil] at h
        cases h
      rw [Text.split_whitespace_word hne hword, List.mem_singleton] at h
      obtain rfl := h
      exact ⟨[], [], by simp, nofun, hword, nofun⟩

/-! ### The words that name a program `mkfs.*` -/

/-- `mkfs.` is followed by no slash, and it follows one, or nothing but what is
    cut off a word. -/
def names_mkfs (word : Text) : Prop :=
  ∃ before name rest, word = before ++ name ++ rest ∧ name.to_ascii_lowercase = MKFS ∧
    '/' ∉ rest ∧ (before.getLast? = some '/' ∨ ∀ c ∈ before, is_stripped c = true)

theorem mkfs_not_stripped {name : Text} (hname : name.to_ascii_lowercase = MKFS) :
    ∀ c ∈ name, is_stripped c = false := by
  intro c hc
  by_contra hstripped
  have hlower : c.toLower ∈ MKFS := by
    rw [← hname]
    exact List.mem_map_of_mem hc
  have hall : ∀ d ∈ "'\"()\x7b\x7d,".toList, d.toLower ∉ MKFS :=
    Text.forall_mem_of_all (by decide)
  rw [Bool.not_eq_false] at hstripped
  exact hall c (List.contains_iff_mem.mp hstripped) hlower

theorem rdropWhile_append_kept {p : Char → Bool} {t : Text} (rest : Text)
    (ht : ∀ c, t.getLast? = some c → p c = false) :
    (t ++ rest).rdropWhile p = t ++ rest.rdropWhile p := by
  induction rest using List.reverseRecOn with
  | nil =>
    rw [List.append_nil, List.rdropWhile_nil, List.append_nil, List.rdropWhile_eq_self_iff]
    intro hne
    rw [ht _ (List.getLast?_eq_some_getLast hne)]
    exact Bool.false_ne_true
  | append_singleton rest c ih =>
    rw [← List.append_assoc, List.rdropWhile_concat, List.rdropWhile_concat]
    by_cases hc : p c = true
    · rw [if_pos hc, if_pos hc, ih]
    · rw [if_neg hc, if_neg hc, List.append_assoc]

/-- What is cut off before a program leaves a directory. -/
theorem dropWhile_before {before name : Text} (rest : Text) (hname : name.to_ascii_lowercase = MKFS)
    (hbefore : before.getLast? = some '/' ∨ ∀ c ∈ before, is_stripped c = true) :
    ∃ directory : Text, (∀ c, directory.getLast? = some c → c = '/') ∧
      (before ++ name ++ rest).dropWhile is_stripped = directory ++ name ++ rest := by
  have hkept : (name ++ rest).dropWhile is_stripped = name ++ rest := by
    cases name with
    | nil => cases hname
    | cons c name =>
      have hc := mkfs_not_stripped hname c List.mem_cons_self
      rw [List.cons_append, List.dropWhile_cons_of_neg (by rw [hc]; exact Bool.false_ne_true)]
  rw [List.append_assoc]
  rcases hbefore with hslash | hstripped
  · obtain ⟨start, rfl⟩ := List.getLast?_eq_some_iff.mp hslash
    have hdrop : ∃ left : Text, ∀ t : Text,
        (start ++ '/' :: t).dropWhile is_stripped = left ++ '/' :: t := by
      clear hslash
      induction start with
      | nil => exact ⟨[], fun t => rfl⟩
      | cons c start ih =>
        by_cases hc : is_stripped c = true
        · obtain ⟨left, hleft⟩ := ih
          exact ⟨left, fun t => by rw [List.cons_append, List.dropWhile_cons_of_pos hc, hleft]⟩
        · exact ⟨c :: start, fun t => by rw [List.cons_append, List.dropWhile_cons_of_neg hc]⟩
    obtain ⟨left, hleft⟩ := hdrop
    refine ⟨left ++ ['/'], ?_, ?_⟩
    · intro c hc
      rw [List.getLast?_append] at hc
      exact (Option.some.inj hc).symm
    · simp [hleft]
  · refine ⟨[], nofun, ?_⟩
    rw [List.dropWhile_append_of_pos hstripped, hkept]
    rfl

theorem mem_slash_lower {t : Text} : '/' ∈ t.to_ascii_lowercase ↔ '/' ∈ t := by
  unfold Text.to_ascii_lowercase
  rw [List.mem_map]
  constructor
  · rintro ⟨c, hc, hlower⟩
    rwa [← Text.toLower_eq hlower (by decide)]
  · intro hmem
    exact ⟨'/', hmem, by decide⟩

theorem names_mkfs_iff (word : Text) :
    (executable_basename (word.trim_matches is_stripped).to_ascii_lowercase).starts_with MKFS =
      true ↔ names_mkfs word := by
  constructor
  · intro hstarts
    obtain ⟨directory, hsplit, hdirectory, hslash⟩ :=
      executable_basename_split (word.trim_matches is_stripped).to_ascii_lowercase
    obtain ⟨rest, hrest⟩ := List.isPrefixOf_iff_prefix.mp hstarts
    rw [← hrest] at hsplit hslash
    -- the same parts in the letter case of the word
    obtain ⟨before, tail, hword, hbefore, htail⟩ := List.map_eq_append_iff.mp hsplit
    obtain ⟨name, last, rfl, hname, hlast⟩ := List.map_eq_append_iff.mp htail
    have hstart := List.takeWhile_append_dropWhile (p := is_stripped) (l := word)
    have hend : (word.dropWhile is_stripped).rdropWhile is_stripped ++
        (word.dropWhile is_stripped).rtakeWhile is_stripped = word.dropWhile is_stripped :=
      List.rdropWhile_append_rtakeWhile
    have htrim : (word.dropWhile is_stripped).rdropWhile is_stripped = before ++ (name ++ last) :=
      hword
    refine ⟨word.takeWhile is_stripped ++ before, name,
      last ++ (word.dropWhile is_stripped).rtakeWhile is_stripped, ?_, hname, ?_, ?_⟩
    · calc word = word.takeWhile is_stripped ++ word.dropWhile is_stripped := hstart.symm
        _ = word.takeWhile is_stripped ++ ((before ++ (name ++ last)) ++
              (word.dropWhile is_stripped).rtakeWhile is_stripped) := by rw [← htrim, hend]
        _ = _ := by simp
    · rw [List.mem_append, not_or]
      constructor
      · intro hmem
        apply hslash
        rw [← hlast]
        exact List.mem_append_right _ (mem_slash_lower.mpr hmem)
      · intro hmem
        have hstripped : is_stripped '/' = true := List.mem_rtakeWhile_imp hmem
        revert hstripped
        decide
    · cases hlast' : before.getLast? with
      | none =>
        right
        rw [List.getLast?_eq_none_iff.mp hlast', List.append_nil]
        intro c hc
        exact List.mem_takeWhile_imp hc
      | some c =>
        left
        have hlower : directory.getLast? = some c.toLower := by
          rw [← hbefore, List.getLast?_map, hlast']
          rfl
        have hc : c = '/' := Text.toLower_eq (hdirectory _ hlower) (by decide)
        rw [List.getLast?_append, hlast', hc]
        rfl
  · rintro ⟨before, name, rest, rfl, hname, hslash, hbefore⟩
    obtain ⟨directory, hdirectory, hdrop⟩ := dropWhile_before rest hname hbefore
    have hlast : ∀ c, (directory ++ name).getLast? = some c → is_stripped c = false := by
      intro c hc
      cases hname' : name.getLast? with
      | none =>
        rw [List.getLast?_eq_none_iff.mp hname'] at hname
        cases hname
      | some d =>
        rw [List.getLast?_append, hname'] at hc
        obtain rfl := Option.some.inj hc
        exact mkfs_not_stripped hname _ (List.mem_of_getLast? hname')
    have htrim : Text.trim_matches is_stripped (before ++ name ++ rest) =
        directory ++ (name ++ rest.rdropWhile is_stripped) := by
      unfold Text.trim_matches
      rw [hdrop, rdropWhile_append_kept rest hlast, List.append_assoc]
    rw [htrim, Text.to_ascii_lowercase_append, Text.to_ascii_lowercase_append, hname,
      executable_basename_append]
    · exact List.isPrefixOf_iff_prefix.mpr (List.prefix_append _ _)
    · intro c hc
      unfold Text.to_ascii_lowercase at hc
      rw [List.getLast?_map, Option.map_eq_some_iff] at hc
      obtain ⟨d, hd, rfl⟩ := hc
      rw [hdirectory d hd]
      decide
    · rw [List.mem_append, not_or]
      constructor
      · decide
      · intro hmem
        exact hslash ((List.rdropWhile_prefix _ _).subset (mem_slash_lower.mp hmem))

theorem contains_program_prefix_iff (t : Text) :
    contains_program_prefix t MKFS = true ↔
      ∃ front word back, t = front ++ word ++ back ∧ IsField front word back ∧ names_mkfs word := by
  unfold contains_program_prefix
  rw [List.any_eq_true, shell_words_eq]
  constructor
  · rintro ⟨shown, hmem, hstarts⟩
    obtain ⟨hmem, -⟩ := List.mem_filter.mp hmem
    obtain ⟨word, hword, rfl⟩ := List.mem_map.mp hmem
    obtain ⟨front, back, ht, hfield⟩ := split_whitespace_finds hword
    exact ⟨front, word, back, ht, hfield, (names_mkfs_iff word).mp hstarts⟩
  · rintro ⟨front, word, back, rfl, hfield, hnames⟩
    obtain ⟨fields, others, hsplit⟩ := split_whitespace_field hfield
    have hstarts := (names_mkfs_iff word).mpr hnames
    have hne : word ≠ [] := by
      rintro rfl
      cases hstarts
    rw [Text.split_whitespace_word hne hfield.word] at hsplit
    refine ⟨_, List.mem_filter.mpr ⟨List.mem_map_of_mem (a := word) ?_, ?_⟩, hstarts⟩
    · rw [hsplit]
      simp
    · rw [Bool.not_eq_true', List.isEmpty_eq_false_iff]
      intro hempty
      rw [hempty] at hstarts
      cases hstarts

/-! ### The analysis of a text with a destructive program -/

theorem analyze_command_detected {command : Text} {declared_risk : RiskLevel}
    {l2_confirmation_text : Option Text} {analysis : RiskAnalysis}
    (h : analyze_command command declared_risk l2_confirmation_text = .ok analysis) :
    analysis.detected_risk = detected_risk command := by
  unfold analyze_command at h
  cases hvalid : validate_command command with
  | error e =>
    rw [hvalid] at h
    cases h
  | ok _ =>
    rw [hvalid] at h
    cases hconfirmation : confirmation_of (max declared_risk (detected_risk command))
        l2_confirmation_text with
    | error e =>
      simp only [bind, Except.bind, hconfirmation] at h
      cases h
    | ok confirmation =>
      simp only [bind, Except.bind, hconfirmation] at h
      obtain rfl := Except.ok.inj h
      rfl

/-- The plain programs are found wherever they stand.  The text of a program
    `mkfs.*` is of the highest level exactly when something else in it is, or
    when one of its words, as white space separates them, names such a program. -/
theorem destructive_program_found {front directory name back : Text}
    (h : Separated front directory name back) {declared_risk : RiskLevel}
    {l2_confirmation_text : Option Text} {analysis : RiskAnalysis}
    (hanalysis : analyze_command (front ++ directory ++ name ++ back) declared_risk
      l2_confirmation_text = .ok analysis) :
    (∀ program ∈ PLAIN_PROGRAMS, name.to_ascii_lowercase = program.toList →
        analysis.detected_risk = .L2) ∧
      (Text.starts_with name.to_ascii_lowercase MKFS = true →
        (analysis.detected_risk = .L2 ↔
          (∃ start word tail : Text,
            (front ++ directory ++ name ++ back).to_ascii_lowercase = start ++ word ++ tail ∧
              IsField start word tail ∧ names_mkfs word) ∨
          other_level_two (front ++ directory ++ name ++ back).to_ascii_lowercase = true)) := by
  rw [analyze_command_detected hanalysis]
  constructor
  · intro program hprogram hname
    exact h.plain hprogram hname
  · intro _
    rw [detected_risk_iff, contains_program_prefix_iff]

theorem destructive_program_found_remove :
    ∃ analysis, analyze_command "ls; /bin/RM x".toList .L0 (some "host".toList) = .ok analysis ∧
      analysis.detected_risk = .L2 := by
  have h : Separated "ls; ".toList "/bin/".toList "RM".toList " x".toList :=
    ⟨by rintro c ⟨⟩; rfl, by rintro c ⟨⟩; rfl, by rintro c ⟨⟩; rfl⟩
  have hsome : ∃ analysis,
      analyze_command ("ls; ".toList ++ "/bin/".toList ++ "RM".toList ++ " x".toList) .L0
        (some "host".toList) = .ok analysis := ⟨_, rfl⟩
  obtain ⟨analysis, hanalysis⟩ := hsome
  exact ⟨analysis, hanalysis,
    (destructive_program_found h hanalysis).1 "rm" (by decide) (by decide)⟩

/-- `mkfs.ext4` after an operator without a blank is not found. -/
theorem mkfs_after_operator :
    Separated "true;".toList [] "mkfs.ext4".toList " /dev/sda".toList ∧
      ∃ analysis, analyze_command "true;mkfs.ext4 /dev/sda".toList .L0 none = .ok analysis ∧
        analysis.detected_risk = .L1 := by
  constructor
  · exact ⟨by rintro c ⟨⟩; rfl, nofun, by rintro c ⟨⟩; rfl⟩
  · exact ⟨_, rfl, by decide +kernel⟩

end Command
