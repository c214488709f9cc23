import RemoteDeck.Command.Composition
import RemoteDeck.Lib.Lexing

/-! # The programs of a command of the lowest level

    A command is of the lowest level if the program of each of its segments is
    on the read-only list.  The classifier takes segments and words as they
    are written; a shell reads quotes, assignments and launchers.

    This file defines:
    - `RunsReadOnly`: a simple command that runs a program of the list
    - `IsPlain`: a simple command that the classifier reads as the shell does,
      up to its program
-/

namespace Command

open Posix

/-- A simple command runs a program of the read-only list, or none. -/
def RunsReadOnly (command : SimpleCommand) : Prop :=
  ∀ program, command.runs = some program → one_of (executable_basename program) READ_ONLY = true

instance (command : SimpleCommand) : Decidable (RunsReadOnly command) :=
  decidable_of_iff (command.runs.all fun program => one_of (executable_basename program) READ_ONLY)
    (by cases hruns : command.runs <;> simp [RunsReadOnly, hruns])

/-- A character that belongs to a word, for the classifier too. -/
def is_bare (c : Char) : Bool := !Text.is_whitespace c && !is_stripped c && !is_operator c

/-- A simple command whose first part is written plainly: variable assignments,
    `exec` and `command`, and a program in lower case that is no launcher. -/
structure PlainUpTo (command : SimpleCommand) (lead tail : List (Char × Role))
    (assignments launchers : List Text) (program : Text) : Prop where
  opener : ∀ c, command.opener = some c → is_operator c = true
  body : command.body = lead ++ tail
  chars : ∀ a ∈ lead, (a.2 = .blank ∧ is_blank a.1 = true) ∨ (a.2 = .plain ∧ is_bare a.1 = true)
  ends : (∃ a more, tail = a :: more ∧ a.2 = .blank ∧ is_blank a.1 = true) ∨
    (tail = [] ∧ ∀ c, command.closer = some c → is_operator c = true)
  words : Text.split_whitespace (lead.map Prod.fst) = assignments ++ launchers ++ [program]
  assignments : ∀ word ∈ assignments, is_environment_assignment word = true
  launchers : ∀ word ∈ launchers, word = "exec".toList ∨ word = "command".toList
  lower : program.to_ascii_lowercase = program
  no_assignment : is_environment_assignment program = false
  no_launcher : launcher_of program = none
  no_reserved : program ∉ RESERVED ++ CLOSING
  no_option : program.head? ≠ some '-'

/-- The classifier and the shell read the start of the command alike. -/
def IsPlain (command : SimpleCommand) : Prop :=
  ∃ lead tail assignments launchers program,
    PlainUpTo command lead tail assignments launchers program

section
variable {command : SimpleCommand} {lead tail : List (Char × Role)}
  {assignments launchers : List Text} {program : Text}

/-! ### What the shell runs -/

/-- The characters of a plain start, as white space sees them. -/
theorem PlainUpTo.white (h : PlainUpTo command lead tail assignments launchers program) :
    ∀ a ∈ lead, Text.is_whitespace a.1 = ends_word a := by
  intro a ha
  rcases h.chars a ha with ⟨hrole, hblank⟩ | ⟨hrole, hbare⟩
  · unfold ends_word
    rw [hrole, blank_whitespace hblank]
    rfl
  · unfold is_bare ends_word at *
    rw [Bool.and_eq_true, Bool.and_eq_true, Bool.not_eq_true'] at hbare
    rw [hrole, hbare.1.1]
    rfl

theorem PlainUpTo.lead_words (h : PlainUpTo command lead tail assignments launchers program) :
    (role_words lead).map (List.map Prod.fst) = assignments ++ launchers ++ [program] := by
  rw [← h.words]
  unfold role_words Text.split_whitespace
  rw [Text.splitOnP_map h.white, List.filter_map]
  congr 1
  refine List.filter_congr fun word _ => ?_
  rw [Function.comp_apply, List.isEmpty_map]

/-- The words of a plain start have only plain characters. -/
theorem PlainUpTo.word_plain (h : PlainUpTo command lead tail assignments launchers program)
    {word : List (Char × Role)} (hword : word ∈ role_words lead) : ∀ a ∈ word, a.2 = .plain := by
  intro a ha
  obtain ⟨hmem, hrole⟩ := mem_role_words hword ha
  rcases h.chars a hmem with ⟨hblank, _⟩ | ⟨hplain, _⟩
  · unfold ends_word at hrole
    rw [hblank] at hrole
    cases hrole
  · exact hplain

theorem literal_plain {word : List (Char × Role)} (h : ∀ a ∈ word, a.2 = .plain) :
    literal word = word.map Prod.fst := by
  unfold literal
  rw [List.filter_eq_self.mpr]
  intro a ha
  rw [h a ha]
  rfl

/-- The words of the command start with those of its plain start. -/
theorem PlainUpTo.command_words (h : PlainUpTo command lead tail assignments launchers program) :
    ∃ others, command.words = role_words lead ++ others := by
  have hkept : lead.filter (fun a => a.2 ≠ .skipped) = lead := by
    rw [List.filter_eq_self]
    intro a ha
    rcases h.chars a ha with ⟨hrole, _⟩ | ⟨hrole, _⟩ <;> rw [hrole] <;> rfl
  unfold SimpleCommand.words
  rw [h.body, List.filter_append, hkept]
  rcases h.ends with ⟨a, more, rfl, hrole, _⟩ | ⟨rfl, _⟩
  · have hends : ends_word a = true := by
      unfold ends_word
      rw [hrole]
      rfl
    rw [List.filter_cons_of_pos (by rw [hrole]; rfl), role_words_append_cons _ _ hends]
    exact ⟨_, rfl⟩
  · rw [List.filter_nil, List.append_nil]
    exact ⟨[], by rw [List.append_nil]⟩

/-- A plain word is an assignment as the classifier sees one. -/
theorem is_assignment_plain {word : List (Char × Role)} (h : ∀ a ∈ word, a.2 = .plain) :
    is_assignment word = is_environment_assignment (word.map Prod.fst) := by
  have hequals : ∀ a ∈ word, (a = ('=', Role.plain)) ↔ a.1 = '=' := by
    rintro ⟨c, role⟩ ha
    have hrole : role = .plain := h _ ha
    rw [hrole, Prod.mk.injEq]
    exact and_iff_left rfl
  have hcontains : word.contains ('=', Role.plain) = (word.map Prod.fst).contains '=' := by
    rw [Bool.eq_iff_iff, List.contains_iff_mem, List.contains_iff_mem, List.mem_map]
    constructor
    · intro hmem
      exact ⟨_, hmem, rfl⟩
    · rintro ⟨a, hmem, ha⟩
      rwa [← (hequals a hmem).mpr ha]
  have hname : (word.takeWhile fun a => a ≠ ('=', Role.plain)).map Prod.fst =
      (word.map Prod.fst).takeWhile fun c => c ≠ '=' := by
    clear hcontains h
    induction word with
    | nil => rfl
    | cons a word ih =>
      obtain ⟨ha, hrest⟩ := List.forall_mem_cons.mp hequals
      rw [List.map_cons, List.takeWhile_cons, List.takeWhile_cons, ← ih hrest]
      by_cases heq : a.1 = '='
      · rw [if_neg (by simp [ha.mpr heq]), if_neg (by simp [heq])]
        rfl
      · have hne : a ≠ ('=', Role.plain) := fun h => heq (ha.mp h)
        rw [if_pos (by simp [hne]), if_pos (by simp [heq])]
        rfl
  have hplain :
      ((word.takeWhile fun a => a ≠ ('=', Role.plain)).all fun a => a.2 = .plain) = true := by
    rw [List.all_eq_true]
    intro a ha
    exact decide_eq_true (h a ((List.takeWhile_prefix _).subset ha))
  unfold is_assignment is_environment_assignment
  dsimp only
  rw [hplain, hcontains, hname, Bool.and_true]
  generalize (word.map Prod.fst).takeWhile (fun c => c ≠ '=') = name
  unfold is_name
  cases name with
  | nil => simp
  | cons c name => simp only [List.isEmpty_cons, Bool.not_false, Bool.and_true, List.head?_cons,
      Option.any_some]; ac_rfl

theorem not_passed_over {behind : Option Launcher} (hbehind : behind ≠ some .env) {word : Text}
    (hword : word.head? ≠ some '-') :
    (behind.any fun launcher => passes_over launcher word) = false := by
  cases behind with
  | none => rfl
  | some launcher =>
    have henv : launcher ≠ .env := fun heq => hbehind (heq ▸ rfl)
    unfold passes_over
    simp [hword, henv]

/-- Behind `exec` and `command` the next word is the program. -/
theorem launched_plain {rest : List Text} (hlaunchers : ∀ word ∈ launchers,
      word = "exec".toList ∨ word = "command".toList) (hno : launcher_of program = none)
    (hoption : program.head? ≠ some '-') {behind : Option Launcher} (hbehind : behind ≠ some .env) :
    launched behind (launchers ++ program :: rest) = some program := by
  induction launchers generalizing behind with
  | nil =>
    rw [List.nil_append]
    unfold launched
    rw [not_passed_over hbehind hoption, if_neg Bool.false_ne_true, hno]
  | cons word launchers ih =>
    obtain ⟨hword, hrest⟩ := List.forall_mem_cons.mp hlaunchers
    have hdash : word.head? ≠ some '-' := by
      rcases hword with rfl | rfl <;> decide
    obtain ⟨launcher, hlauncher, henv⟩ : ∃ launcher, launcher_of word = some launcher ∧
        launcher ≠ .env := by
      rcases hword with rfl | rfl
      · exact ⟨.exec, rfl, by decide⟩
      · exact ⟨.command, rfl, by decide⟩
    rw [List.cons_append]
    unfold launched
    rw [not_passed_over hbehind hdash, if_neg Bool.false_ne_true, hlauncher]
    have hbehind' : some launcher ≠ some Launcher.env := fun heq => henv (Option.some.inj heq)
    show (launched (some launcher) (launchers ++ program :: rest)).or (some word) = some program
    rw [ih hrest hbehind', Option.some_or]

/-- The program that the shell runs is the one behind the launchers. -/
theorem PlainUpTo.runs_eq (h : PlainUpTo command lead tail assignments launchers program) :
    command.runs = some program := by
  obtain ⟨others, hwords⟩ := h.command_words
  -- the words of the plain start, part by part
  obtain ⟨front, last, hsplit, hfront, hlast⟩ := List.map_eq_append_iff.mp h.lead_words
  obtain ⟨wa, wl, rfl, hwa, hwl⟩ := List.map_eq_append_iff.mp hfront
  obtain ⟨wp, rfl, hwp⟩ := List.map_eq_singleton_iff.mp hlast
  have hliteral : ∀ word ∈ role_words lead, literal word = word.map Prod.fst := fun word hword =>
    literal_plain (h.word_plain hword)
  have hlisted : ∀ word ∈ role_words lead,
      literal word ∈ assignments ++ launchers ++ [program] := by
    intro word hword
    rw [hliteral word hword, ← h.lead_words]
    exact List.mem_map_of_mem hword
  have hreserved : ∀ word ∈ role_words lead, is_reserved RESERVED word = false ∧
      is_reserved CLOSING word = false := by
    intro word hword
    have hnone : literal word ∉ RESERVED ++ CLOSING := by
      have hmem := hlisted word hword
      rw [List.mem_append, List.mem_append, List.mem_singleton] at hmem
      rcases hmem with (hmem | hmem) | hmem
      · have hequals := h.assignments _ hmem
        intro hlist
        have hall : ∀ reserved ∈ RESERVED ++ CLOSING,
            is_environment_assignment reserved = false := by decide
        rw [hall _ hlist] at hequals
        cases hequals
      · rcases h.launchers _ hmem with heq | heq <;> rw [heq] <;> decide
      · rw [hmem]
        exact h.no_reserved
    rw [List.mem_append, not_or] at hnone
    unfold is_reserved
    exact ⟨by simp [hnone.1], by simp [hnone.2]⟩
  rw [hsplit] at hwords hliteral hreserved
  -- no word before the program is reserved, and the assignments end before the launchers
  have hfirst : ∀ reserved, (∀ word ∈ wa ++ wl ++ [wp], is_reserved reserved word = false) →
      command.words.dropWhile (is_reserved reserved) = command.words ∧
        command.words.head?.any (is_reserved reserved) = false := by
    intro reserved hnone
    obtain ⟨word, more, hcons⟩ : ∃ word more, wa ++ wl ++ [wp] = word :: more :=
      List.exists_cons_of_ne_nil (by simp)
    have hword := hnone word (by rw [hcons]; exact List.mem_cons_self)
    rw [hwords, hcons, List.cons_append, List.dropWhile_cons_of_neg (by rw [hword]; simp),
      List.head?_cons, Option.any_some]
    exact ⟨rfl, hword⟩
  have hassignment : ∀ word ∈ wa ++ wl ++ [wp],
      is_assignment word = is_environment_assignment (word.map Prod.fst) := by
    intro word hword
    exact is_assignment_plain (h.word_plain (by rw [hsplit]; exact hword))
  have hdropped : command.words.dropWhile is_assignment = wl ++ wp :: others := by
    have hwa' : ∀ word ∈ wa, is_assignment word = true := by
      intro word hword
      rw [hassignment word (by simp [hword])]
      exact h.assignments _ (hwa ▸ List.mem_map_of_mem hword)
    rw [hwords, List.append_assoc, List.append_assoc, List.dropWhile_append_of_pos hwa']
    cases wl with
    | nil =>
      have hlast : is_assignment wp = false := by
        rw [hassignment wp (by simp), hwp]
        exact h.no_assignment
      exact List.dropWhile_cons_of_neg (by rw [hlast]; exact Bool.false_ne_true)
    | cons word wl =>
      have hlauncher := h.launchers (word.map Prod.fst) (by rw [← hwl]; exact List.mem_cons_self)
      have hnone : is_assignment word = false := by
        rw [hassignment word (by simp)]
        rcases hlauncher with heq | heq <;> rw [heq] <;> rfl
      rw [List.cons_append, List.dropWhile_cons_of_neg (by rw [hnone]; exact Bool.false_ne_true)]
      rfl
  unfold SimpleCommand.runs
  rw [(hfirst RESERVED fun word hword => (hreserved word hword).1).1]
  dsimp only
  rw [(hfirst CLOSING fun word hword => (hreserved word hword).2).2, if_neg Bool.false_ne_true,
    hdropped, List.map_append, List.map_cons]
  have hwl' : wl.map literal = launchers := by
    rw [← hwl]
    exact List.map_congr_left fun word hword => hliteral word (by simp [hword])
  have hwp' : literal wp = program := (hliteral wp (by simp)).trans hwp
  rw [hwl', hwp']
  exact launched_plain h.launchers h.no_launcher h.no_option (by decide)

/-! ### What the classifier reads -/

/-- The lower case of a character is of the same kind. -/
theorem toLower_kind (c : Char) :
    c.toLower.isAlpha = c.isAlpha ∧ c.toLower.isAlphanum = c.isAlphanum := by
  suffices hcase : (c.toLower.isUpper || c.toLower.isLower) = (c.isUpper || c.isLower) ∧
      c.toLower.isDigit = c.isDigit by
    unfold Char.isAlphanum Char.isAlpha
    rw [hcase.1, hcase.2]
    exact ⟨rfl, rfl⟩
  unfold Char.toLower
  split
  · next hupper =>
    have hrange : (65 : UInt32) ≤ c.val ∧ c.val ≤ 90 := hupper
    have hlow := UInt32.le_iff_toNat_le.mp hrange.1
    have hhigh := UInt32.le_iff_toNat_le.mp hrange.2
    unfold Char.isUpper Char.isLower Char.isDigit
    simp only [ge_iff_le, UInt32.le_iff_toNat_le, UInt32.toNat_add] at hlow hhigh ⊢
    simp at hlow hhigh ⊢
    -- the sum is in the range of the lower case letters
    have hsum : (c.toNat + 32) % 4294967296 = c.toNat + 32 := Nat.mod_eq_of_lt (by omega)
    constructor
    · rw [Bool.eq_iff_iff]
      simp only [Bool.or_eq_true, Bool.and_eq_true, decide_eq_true_eq, hsum]
      omega
    · rw [Bool.eq_iff_iff]
      simp only [Bool.and_eq_true, decide_eq_true_eq, hsum]
      omega
  · exact ⟨rfl, rfl⟩

theorem is_environment_assignment_lower (word : Text) :
    is_environment_assignment word.to_ascii_lowercase = is_environment_assignment word := by
  have hequals : ∀ c : Char, c.toLower = '=' ↔ c = '=' := fun c =>
    ⟨fun h => Text.toLower_eq h (by decide), fun h => by rw [h]; rfl⟩
  have hunderscore : ∀ c : Char, c.toLower = '_' ↔ c = '_' := fun c =>
    ⟨fun h => Text.toLower_eq h (by decide), fun h => by rw [h]; rfl⟩
  have hcontains : word.to_ascii_lowercase.contains '=' = word.contains '=' := by
    rw [Bool.eq_iff_iff, List.contains_iff_mem, List.contains_iff_mem]
    unfold Text.to_ascii_lowercase
    rw [List.mem_map]
    constructor
    · rintro ⟨c, hmem, hc⟩
      rwa [← (hequals c).mp hc]
    · intro hmem
      exact ⟨'=', hmem, rfl⟩
  have hname : word.to_ascii_lowercase.takeWhile (fun c => c ≠ '=') =
      Text.to_ascii_lowercase (word.takeWhile fun c => c ≠ '=') := by
    unfold Text.to_ascii_lowercase
    rw [List.takeWhile_map]
    congr 2
    funext c
    simp [hequals c]
  unfold is_environment_assignment
  dsimp only
  rw [hcontains, hname]
  generalize word.takeWhile (fun c => c ≠ '=') = name
  unfold Text.to_ascii_lowercase
  rw [List.isEmpty_map, List.all_map, List.head?_map, Option.any_map]
  have hall : ((fun c : Char => decide (c = '_') || c.isAlphanum) ∘ Char.toLower) =
      fun c => decide (c = '_') || c.isAlphanum := by
    funext c
    rw [Function.comp_apply, (toLower_kind c).2, decide_eq_decide.mpr (hunderscore c)]
  have hfirst : (fun c : Char => decide (c.toLower = '_') || c.toLower.isAlpha) =
      fun c => decide (c = '_') || c.isAlpha := by
    funext c
    rw [(toLower_kind c).1, decide_eq_decide.mpr (hunderscore c)]
  rw [hall, hfirst]

theorem read_only_segment_program {segment : Text} (h : is_read_only_segment segment = true) :
    ∃ word arguments, ((shell_words segment).dropWhile is_environment_assignment).dropWhile
        (fun word => one_of word ["command", "exec", "if", "then"]) = word :: arguments ∧
      one_of (executable_basename word) READ_ONLY = true := by
  unfold is_read_only_segment at h
  split at h
  · cases h
  · dsimp only at h
    split at h
    · cases h
    · next word arguments hwords =>
      refine ⟨word, arguments, hwords, ?_⟩
      by_contra hnone
      rw [Bool.not_eq_true] at hnone
      rw [hnone] at h
      cases h

/-- A bare word is read as it is, in lower case. -/
theorem trim_matches_bare {word : Text} (h : ∀ c ∈ word, is_bare c = true) :
    word.trim_matches is_stripped = word := by
  have hkept : ∀ c ∈ word, is_stripped c = false := by
    intro c hc
    have hbare := h c hc
    unfold is_bare at hbare
    rw [Bool.and_eq_true, Bool.and_eq_true, Bool.not_eq_true', Bool.not_eq_true'] at hbare
    exact hbare.1.2
  have hdrop : word.dropWhile is_stripped = word := by
    cases word with
    | nil => rfl
    | cons c word =>
      have hfirst := hkept c List.mem_cons_self
      exact List.dropWhile_cons_of_neg (by rw [hfirst]; exact Bool.false_ne_true)
  unfold Text.trim_matches
  rw [hdrop, List.rdropWhile_eq_self_iff]
  intro hne
  rw [hkept _ (List.getLast_mem hne)]
  exact Bool.false_ne_true

theorem PlainUpTo.segment_words (h : PlainUpTo command lead tail assignments launchers program)
    {rest : Text} (hrest : ∀ c, rest.head? = some c → Text.is_whitespace c = true) :
    ∃ others, shell_words (lead.map Prod.fst ++ rest) =
      (assignments ++ launchers ++ [program]).map Text.to_ascii_lowercase ++ others := by
  have hbare : ∀ word ∈ assignments ++ launchers ++ [program], ∀ c ∈ word, is_bare c = true := by
    intro word hword c hc
    rw [← h.words] at hword
    have hspace := (Text.mem_split_whitespace hword).2 c hc
    have hmem := Text.splitOnP_subset (List.mem_filter.mp hword).1 c hc
    obtain ⟨a, ha, rfl⟩ := List.mem_map.mp hmem
    rcases h.chars a ha with ⟨_, hblank⟩ | ⟨_, hbare⟩
    · rw [blank_whitespace hblank] at hspace
      cases hspace
    · exact hbare
  have hne : ∀ word ∈ assignments ++ launchers ++ [program], word ≠ [] := by
    intro word hword
    rw [← h.words] at hword
    exact (Text.mem_split_whitespace hword).1
  rw [shell_words_eq, split_whitespace_before_space _ hrest, h.words, List.map_append,
    List.filter_append]
  refine ⟨_, congrArg (· ++ _) ?_⟩
  generalize assignments ++ launchers ++ [program] = words at hbare hne
  have hmap : words.map (fun word => (word.trim_matches is_stripped).to_ascii_lowercase) =
      words.map Text.to_ascii_lowercase := by
    refine List.map_congr_left fun word hword => ?_
    rw [trim_matches_bare (hbare word hword)]
  rw [hmap, List.filter_eq_self]
  intro lower hlower
  obtain ⟨word, hword, rfl⟩ := List.mem_map.mp hlower
  simpa [Text.to_ascii_lowercase] using hne word hword

/-- The first segment of what follows the opener starts as the command does. -/
theorem PlainUpTo.first_segment (h : PlainUpTo command lead tail assignments launchers program)
    {back : Text} (hback : (back = [] ∧ command.closer = none) ∨
      ∃ c more, back = c :: more ∧ command.closer = some c) :
    ∃ segment rest, segment ∈ split_shell_segments (command.body.map Prod.fst ++ back) ∧
      (∀ c, rest.head? = some c → Text.is_whitespace c = true) ∧
      shell_words segment = shell_words (lead.map Prod.fst ++ rest) := by
  have hlead : ∀ c ∈ lead.map Prod.fst, is_operator c = false := by
    intro c hc
    obtain ⟨a, ha, rfl⟩ := List.mem_map.mp hc
    rcases h.chars a ha with ⟨_, hblank⟩ | ⟨_, hbare⟩
    · exact blank_not_operator hblank
    · unfold is_bare at hbare
      rw [Bool.and_eq_true, Bool.not_eq_true'] at hbare
      exact hbare.2
  -- what follows the plain start begins with a blank, or with an operator, or is nothing
  have hnext : ∀ c, (tail.map Prod.fst ++ back).head? = some c →
      is_operator c = true ∨ Text.is_whitespace c = true := by
    intro c hc
    rcases h.ends with ⟨a, more, rfl, _, hblank⟩ | ⟨rfl, hclosed⟩
    · obtain rfl := Option.some.inj hc
      exact .inr (blank_whitespace hblank)
    · rcases hback with ⟨rfl, _⟩ | ⟨d, more, rfl, hcloser⟩
      · cases hc
      · obtain rfl := Option.some.inj hc
        exact .inl (hclosed d hcloser)
  rw [h.body, List.map_append, List.append_assoc]
  generalize tail.map Prod.fst ++ back = next at hnext
  let keep : Char → Bool := fun c => !is_operator c
  have hsplit : next = next.takeWhile keep ++ next.dropWhile keep :=
    List.takeWhile_append_dropWhile.symm
  have hwhite : ∀ c, (next.takeWhile keep).head? = some c → Text.is_whitespace c = true := by
    intro c hc
    cases next with
    | nil => cases hc
    | cons d next =>
      rw [List.takeWhile_cons] at hc
      split at hc
      · next hkeep =>
        obtain rfl := Option.some.inj hc
        refine (hnext d rfl).resolve_left fun hoperator => ?_
        simp [keep, hoperator] at hkeep
      · cases hc
  have hsegments : split_shell_segments (lead.map Prod.fst ++ next) =
      split_shell_segments (lead.map Prod.fst ++ next.takeWhile keep) ++
        split_shell_segments (next.dropWhile keep) := by
    conv_lhs => rw [hsplit, ← List.append_assoc]
    cases hdrop : next.dropWhile keep with
    | nil => rw [List.append_nil, segments_nil, List.append_nil]
    | cons d more =>
      have hne : next.dropWhile keep ≠ [] := by
        rw [hdrop]
        exact List.cons_ne_nil d more
      have hstop := List.head_dropWhile_not keep hne
      simp only [hdrop, List.head_cons] at hstop
      have hoperator : is_operator d = true := by simpa [keep] using hstop
      have hrest : split_shell_segments (d :: more) = split_shell_segments more :=
        segments_append_cons [] more hoperator
      rw [segments_append_cons _ more hoperator, hrest]
  refine ⟨Text.trim (lead.map Prod.fst ++ next.takeWhile keep), next.takeWhile keep, ?_, hwhite, ?_⟩
  · have hnone : ∀ c ∈ lead.map Prod.fst ++ next.takeWhile keep, is_operator c = false := by
      intro c hc
      rcases List.mem_append.mp hc with hc | hc
      · exact hlead c hc
      · simpa [keep] using List.mem_takeWhile_imp hc
    have hne : Text.trim (lead.map Prod.fst ++ next.takeWhile keep) ≠ [] := by
      rw [ne_eq, Text.trim_eq_nil, split_whitespace_before_space _ hwhite, h.words]
      simp
    rw [hsegments, segments_one hnone, List.mem_append]
    refine .inl (List.mem_filter.mpr ⟨List.mem_singleton_self _, ?_⟩)
    simpa using hne
  · rw [shell_words_eq, shell_words_eq, Text.split_whitespace_trim]

/-- The classifier takes the program of a plain start for the program. -/
theorem PlainUpTo.program_words (h : PlainUpTo command lead tail assignments launchers program)
    (others : List Text) :
    (((assignments ++ launchers ++ [program]).map Text.to_ascii_lowercase ++ others).dropWhile
      is_environment_assignment).dropWhile (fun word =>
        one_of word ["command", "exec", "if", "then"]) = program :: others := by
  have hassignments : ∀ word ∈ assignments.map Text.to_ascii_lowercase,
      is_environment_assignment word = true := by
    intro lower hlower
    obtain ⟨word, hword, rfl⟩ := List.mem_map.mp hlower
    rw [is_environment_assignment_lower]
    exact h.assignments word hword
  have hlaunchers : launchers.map Text.to_ascii_lowercase = launchers := by
    rw [List.map_congr_left (g := id), List.map_id]
    intro word hword
    rcases h.launchers word hword with rfl | rfl <;> rfl
  have hprogram : one_of program ["command", "exec", "if", "then"] = false := by
    rw [Bool.eq_false_iff]
    intro hlisted
    unfold one_of at hlisted
    simp only [List.any_cons, List.any_nil, Bool.or_false, Bool.or_eq_true, decide_eq_true_eq]
      at hlisted
    rcases hlisted with heq | heq | heq | heq
    · have hno := h.no_launcher
      rw [heq] at hno
      cases hno
    · have hno := h.no_launcher
      rw [heq] at hno
      cases hno
    · exact h.no_reserved (by rw [heq]; decide)
    · exact h.no_reserved (by rw [heq]; decide)
  rw [List.map_append, List.map_append, List.append_assoc, List.append_assoc,
    List.dropWhile_append_of_pos hassignments, hlaunchers, List.map_cons, List.map_nil, h.lower,
    List.singleton_append]
  have hstop : (launchers ++ program :: others).dropWhile is_environment_assignment =
      launchers ++ program :: others := by
    cases hcases : launchers with
    | nil =>
      exact List.dropWhile_cons_of_neg (by rw [h.no_assignment]; exact Bool.false_ne_true)
    | cons word rest =>
      have hword := h.launchers word (by rw [hcases]; exact List.mem_cons_self)
      have hnone : is_environment_assignment word = false := by
        rcases hword with rfl | rfl <;> rfl
      exact List.dropWhile_cons_of_neg (by rw [hnone]; exact Bool.false_ne_true)
  rw [hstop, List.dropWhile_append_of_pos, List.dropWhile_cons_of_neg]
  · rw [hprogram]
    exact Bool.false_ne_true
  · intro word hword
    rcases h.launchers word hword with rfl | rfl <;> rfl

/-- What a text of read-only segments runs in a plain command is on the list. -/
theorem PlainUpTo.read_only (h : PlainUpTo command lead tail assignments launchers program)
    {t : Text} (hmem : command ∈ simple_commands t) (hread_only : is_read_only_command t = true) :
    one_of (executable_basename program) READ_ONLY = true := by
  obtain ⟨front, back, ht, hopener, hcloser⟩ := simple_commands_stand hmem
  obtain ⟨_, hsegments⟩ := (is_read_only_command_iff t).mp hread_only
  -- the segments of what follows the opener are segments of the text
  have hfollows : ∀ segment ∈ split_shell_segments (command.body.map Prod.fst ++ back),
      is_read_only_segment segment = true := by
    intro segment hsegment
    apply hsegments
    rcases hopener with ⟨rfl, _⟩ | ⟨start, c, rfl, hc⟩
    · rw [ht, List.nil_append]
      exact hsegment
    · have htext : t = start ++ c :: (command.body.map Prod.fst ++ back) := by
        rw [ht]
        simp only [List.append_assoc, List.cons_append, List.nil_append]
      rw [htext, segments_append_cons start _ (h.opener c hc)]
      exact List.mem_append_right _ hsegment
  obtain ⟨segment, rest, hsegment, hwhite, hwords⟩ := h.first_segment hcloser
  obtain ⟨others, hread⟩ := h.segment_words hwhite
  obtain ⟨word, arguments, hprogram, hlisted⟩ := read_only_segment_program (hfollows _ hsegment)
  have hshown : word = program := by
    rw [hwords, hread, h.program_words] at hprogram
    exact (List.cons.inj hprogram).1.symm
  rw [← hshown]
  exact hlisted

end

/-! ### Commands of the lowest level -/

theorem is_read_only_of_lowest {t : Text} (h : detected_risk t = .L0) :
    is_read_only_command t = true := by
  by_contra hnone
  rw [Bool.not_eq_true] at hnone
  have hlevel := (level_one_le_iff t).mpr (.inr hnone)
  rw [h] at hlevel
  exact absurd hlevel (by decide)

/-- A plain command, with an argument in quotes. -/
def quoted_argument : Text := "LC_ALL=C exec ls 'a b'".toList

end Command
