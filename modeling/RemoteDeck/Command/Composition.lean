import Mathlib.Data.List.Infix
import RemoteDeck.Command.Destructive
import RemoteDeck.Lib.Lexing
import RemoteDeck.Lib.Rows

/-! # The risk of a composed command

    Two commands that stand around a separator are one command.  Its findings
    are those of the parts, as far as they look for programs and for texts: a
    separator is a boundary of programs.  It is no boundary of words, which are
    separated by white space only: what touches an operator makes one word
    with it.

    This file defines:
    - `Finding`: a finding as data, and the findings of both levels
    - `Joint`: a separator with the blanks around it
    - `Joint.words`: the words of the composed command
    - `JoinKeepsRisk`: when the composed command is no less than its parts
-/

namespace Command

open Posix (is_blank)

/-! ### Findings as data -/

/-- What a finding looks for: a program of each group, a text of each group,
    and for each test a word that meets it. -/
structure Finding where
  programs : List (List String)
  texts : List (List Text)
  words : List (Text → Bool)

/-- A word is spelled as one of the given ones, up to dashes around it. -/
def is_spelled (spellings : List String) (token : Text) : Bool :=
  let dash := fun c => c = '-'
  spellings.any fun expected =>
    token = expected.toList || token.trim_matches dash = Text.trim_matches dash expected.toList

def LEVEL_ONE : List Finding :=
  [ ⟨[["cp", "mv", "mkdir", "touch", "chmod", "chown"]], [], []⟩,
    ⟨[["systemctl", "service"]], [],
      [is_spelled ["start", "stop", "restart", "reload", "enable", "disable"]]⟩,
    ⟨[PACKAGE_MANAGERS], [], [is_spelled ["install", "upgrade", "update", "add"]]⟩,
    ⟨[["git"]], [], [is_spelled ["add", "commit", "checkout", "switch", "merge", "rebase", "pull",
      "push", "restore", "tag"]]⟩,
    ⟨[], [[['>']]], []⟩,
    ⟨[["tee", "truncate"]], [], []⟩,
    ⟨[["sed"]], [], [fun word => word.starts_with "-i".toList]⟩,
    ⟨[], [["$(".toList, [Char.ofNat 96]]], []⟩ ]

def LEVEL_TWO : List Finding :=
  [ ⟨[["sudo", "su"]], [], []⟩,
    ⟨[["reboot", "shutdown", "poweroff", "halt"]], [], []⟩,
    ⟨[["systemctl"]], [], [is_spelled ["reboot", "poweroff", "halt"]]⟩,
    ⟨[["rm", "rmdir", "unlink"]], [], []⟩,
    ⟨[["find"]], [], [is_spelled ["-delete"]]⟩,
    ⟨[["kill", "pkill", "killall"]], [], []⟩,
    ⟨[["systemctl"]], [], [is_spelled ["kill"]]⟩,
    ⟨[["mkfs", "fdisk", "parted", "wipefs"]], [], []⟩,
    ⟨[], [], [fun word => (executable_basename word).starts_with MKFS]⟩,
    ⟨[["dd"]], [["if=".toList, "of=".toList]], []⟩,
    ⟨[["git"]], [], [fun word => word = "reset".toList, fun word => word = "--hard".toList]⟩,
    ⟨[["git"]], [], [fun word => word = "clean".toList,
      fun word => word.starts_with ['-'] && word.contains 'f']⟩,
    ⟨[["git"]], [], [fun word => word = "push".toList,
      fun word => word = "--force".toList || word = "--force-with-lease".toList ||
        word = "-f".toList]⟩,
    ⟨[["curl", "wget"], ["sh", "bash", "zsh"]], [[['|']]], []⟩,
    ⟨[PACKAGE_MANAGERS], [], [is_spelled ["remove", "uninstall", "purge"]]⟩ ]

def Finding.found (finding : Finding) (command : Text) : Bool :=
  finding.programs.all (contains_any_command command) &&
    finding.texts.all (fun texts => texts.any fun t => command.contains_text t) &&
      finding.words.all fun test => (shell_words command).any test

theorem contains_text_iff {t pattern : Text} :
    t.contains_text pattern = true ↔ ∃ a b, t = a ++ pattern ++ b := by
  constructor
  · intro h
    unfold Text.contains_text at h
    obtain ⟨tail, htail, hstarts⟩ := List.any_eq_true.mp h
    obtain ⟨a, rfl⟩ := (List.mem_tails _ _).mp htail
    obtain ⟨b, rfl⟩ := List.isPrefixOf_iff_prefix.mp hstarts
    exact ⟨a, b, by rw [List.append_assoc]⟩
  · rintro ⟨a, b, rfl⟩
    rw [List.append_assoc]
    exact Text.contains_text_append a _ (List.isPrefixOf_iff_prefix.mpr ⟨b, rfl⟩)

theorem contains_text_singleton (t : Text) (c : Char) : t.contains_text [c] = t.contains c := by
  rw [Bool.eq_iff_iff, contains_text_iff, List.contains_iff_mem]
  constructor
  · rintro ⟨a, b, rfl⟩
    simp
  · intro hmem
    obtain ⟨a, b, rfl⟩ := List.append_of_mem hmem
    exact ⟨a, b, by simp⟩

theorem contains_any_command_singleton (command : Text) (program : String) :
    contains_any_command command [program] = contains_command command program.toList := by
  unfold contains_any_command
  rw [List.any_cons, List.any_nil, Bool.or_false]

theorem contains_any_word_eq (command : Text) (spellings : List String) :
    contains_any_word command spellings = (shell_words command).any (is_spelled spellings) := by
  unfold contains_any_word is_spelled
  rw [Bool.eq_iff_iff]
  simp only [List.any_eq_true]
  constructor
  · rintro ⟨expected, hexpected, token, htoken, h⟩
    exact ⟨token, htoken, expected, hexpected, h⟩
  · rintro ⟨token, htoken, expected, hexpected, h⟩
    exact ⟨expected, hexpected, token, htoken, h⟩

theorem contains_word_eq (words : List Text) (spelling : Text) :
    words.contains spelling = words.any fun word => word = spelling := by
  rw [Bool.eq_iff_iff, List.contains_iff_mem, List.any_eq_true]
  constructor
  · intro hmem
    exact ⟨spelling, hmem, decide_eq_true rfl⟩
  · rintro ⟨word, hmem, heq⟩
    exact of_decide_eq_true heq ▸ hmem

theorem any_level_one (command : Text) :
    any_finding (level_one_findings command) =
      LEVEL_ONE.any fun finding => finding.found command := by
  unfold any_finding level_one_findings LEVEL_ONE contains_service_mutation
    contains_package_mutation contains_mutating_git contains_redirection contains_sed_in_place
    Finding.found
  simp only [List.any_cons, List.any_nil, List.all_cons, List.all_nil, Bool.or_false, Bool.and_true,
    Bool.true_and, contains_any_word_eq, contains_any_command_singleton, contains_text_singleton]
  ac_rfl

theorem any_level_two (command : Text) :
    any_finding (level_two_findings command) =
      LEVEL_TWO.any fun finding => finding.found command := by
  unfold any_finding level_two_findings LEVEL_TWO contains_systemctl_reboot contains_find_delete
    contains_systemctl_kill contains_dd_device_copy contains_destructive_git
    contains_remote_script_pipe contains_package_removal contains_program_prefix Finding.found
  simp only [List.any_cons, List.any_nil, List.all_cons, List.all_nil, Bool.or_false, Bool.and_true,
    Bool.true_and, contains_any_word_eq, contains_any_command_singleton, contains_text_singleton,
    contains_word_eq, Bool.and_or_distrib_left]
  unfold MKFS
  ac_rfl

/-! ### What stands between two separators -/

section Joined
variable {S : Char → Prop} {c s d : Text}

/-- A piece of a text that has no character of a separator in it stands before
    the separator or after it. -/
theorem piece_of_joined {a p b : Text} (h : c ++ s ++ d = a ++ p ++ b) (hs : ∀ x ∈ s, S x)
    (hne : s ≠ []) (hp : ∀ x ∈ p, ¬ S x) (hpne : p ≠ []) :
    (∃ rest, c = a ++ p ++ rest ∧ b = rest ++ s ++ d) ∨
      ∃ front, d = front ++ p ++ b ∧ a = c ++ s ++ front := by
  rw [List.append_assoc] at h
  rcases List.append_eq_append_iff.mp h with ⟨m, hap, hsd⟩ | ⟨m, hc, hb⟩
  · rcases List.append_eq_append_iff.mp hap with ⟨k, hc, hkm⟩ | ⟨k, ha, hm⟩
    · -- the piece starts in the first text and ends after it
      cases m with
      | nil =>
        rw [List.append_nil] at hkm
        rw [List.nil_append] at hsd
        exact .inl ⟨[], by rw [hc, hkm, List.append_nil], by rw [← hsd]; rfl⟩
      | cons x m =>
        cases s with
        | nil => exact absurd rfl hne
        | cons y s =>
          obtain rfl := (List.cons.inj hsd).1
          refine absurd (hs y List.mem_cons_self) (hp y ?_)
          rw [hkm]
          exact List.mem_append_right k List.mem_cons_self
    · rw [hm, List.append_assoc] at hsd
      rcases List.append_eq_append_iff.mp hsd with ⟨k', hk, hd⟩ | ⟨k', hs', hpb⟩
      · exact .inr ⟨k', by rw [hd, List.append_assoc], by rw [ha, hk, List.append_assoc]⟩
      · -- the piece starts in the separator
        cases k' with
        | nil =>
          rw [List.append_nil] at hs'
          rw [List.nil_append] at hpb
          exact .inr ⟨[], by rw [← hpb]; rfl, by rw [ha, hs', List.append_nil]⟩
        | cons x k' =>
          cases p with
          | nil => exact absurd rfl hpne
          | cons y p =>
            obtain rfl := (List.cons.inj hpb).1
            refine absurd (hs y ?_) (hp y List.mem_cons_self)
            rw [hs']
            exact List.mem_append_right k List.mem_cons_self
  · exact .inl ⟨m, hc, by rw [hb, List.append_assoc]⟩

theorem contains_text_joined {pattern : Text} (hs : ∀ x ∈ s, S x) (hne : s ≠ [])
    (hpattern : ∀ x ∈ pattern, ¬ S x) (hpne : pattern ≠ []) :
    (c ++ s ++ d).contains_text pattern = (c.contains_text pattern || d.contains_text pattern) := by
  rw [Bool.eq_iff_iff, Bool.or_eq_true, contains_text_iff, contains_text_iff, contains_text_iff]
  constructor
  · rintro ⟨a, b, h⟩
    rcases piece_of_joined h hs hne hpattern hpne with ⟨rest, hc, _⟩ | ⟨front, hd, _⟩
    · exact .inl ⟨a, rest, hc⟩
    · exact .inr ⟨front, b, hd⟩
  · rintro (⟨a, b, rfl⟩ | ⟨a, b, rfl⟩)
    · exact ⟨a, b ++ s ++ d, by simp only [List.append_assoc]⟩
    · exact ⟨c ++ s ++ a, b, by simp only [List.append_assoc]⟩

/-- A program is found where it stands between boundaries. -/
theorem contains_command_iff {command program : Text} (hne : program ≠ []) :
    contains_command command program = true ↔
      ∃ front back, command = front ++ program ++ back ∧
        (∀ x, front.getLast? = some x → is_boundary_before x = true) ∧
        ∀ x, back.head? = some x → is_word_byte x = false := by
  constructor
  · intro h
    have hafter : ∀ (before : Option Char) (t : Text),
        contains_command_after program before t = true →
          ∃ front back, t = front ++ program ++ back ∧
            (∀ x, front.getLast?.or before = some x → is_boundary_before x = true) ∧
            ∀ x, back.head? = some x → is_word_byte x = false := by
      intro before t
      induction t generalizing before with
      | nil =>
        intro hfound
        cases hfound
      | cons x t ih =>
        intro hfound
        unfold contains_command_after at hfound
        rcases Bool.or_eq_true _ _ ▸ hfound with hhere | hlater
        · cases hstrip : Text.strip_leading (x :: t) program with
          | none =>
            rw [hstrip] at hhere
            cases hhere
          | some after =>
            rw [hstrip] at hhere
            obtain ⟨hbefore, hback⟩ := Bool.and_eq_true _ _ ▸ hhere
            refine ⟨[], after, Text.strip_leading_eq_some hstrip, ?_, ?_⟩
            · intro y hy
              have hy : before = some y := hy
              rw [hy] at hbefore
              exact hbefore
            · intro y hy
              rw [hy] at hback
              simpa using hback
        · obtain ⟨front, back, rfl, hfront, hback⟩ := ih (some x) hlater
          refine ⟨x :: front, back, rfl, ?_, hback⟩
          intro y hy
          apply hfront y
          rw [List.getLast?_cons] at hy
          cases hlast : front.getLast? with
          | none =>
            rw [hlast] at hy
            exact hy
          | some z =>
            rw [hlast] at hy
            exact hy
    obtain ⟨_, h⟩ := Bool.and_eq_true _ _ ▸ h
    obtain ⟨front, back, ht, hfront, hback⟩ := hafter none command h
    exact ⟨front, back, ht, by simpa using hfront, hback⟩
  · rintro ⟨front, back, rfl, hfront, hback⟩
    exact contains_command_append hne hfront hback

/-- A separator is a boundary of programs. -/
theorem contains_command_joined {program : Text} (hs : ∀ x ∈ s, is_separator x = true)
    (hne : s ≠ []) (hprogram : ∀ x ∈ program, ¬ is_separator x = true) (hpne : program ≠ []) :
    contains_command (c ++ s ++ d) program =
      (contains_command c program || contains_command d program) := by
  rw [Bool.eq_iff_iff, Bool.or_eq_true, contains_command_iff hpne, contains_command_iff hpne,
    contains_command_iff hpne]
  have hlast : ∀ x, s.getLast? = some x → is_boundary_before x = true := by
    intro x hx
    unfold is_boundary_before
    rw [separator_not_word (hs x (List.mem_of_getLast? hx))]
    rfl
  have hhead : ∀ x, s.head? = some x → is_word_byte x = false := fun x hx =>
    separator_not_word (hs x (List.mem_of_head? hx))
  have hfirst : s.head? = some (s.head hne) := List.head?_eq_some_head hne
  constructor
  · rintro ⟨front, back, h, hfront, hback⟩
    rcases piece_of_joined h hs hne hprogram hpne with ⟨rest, hc, rfl⟩ | ⟨rest, hd, rfl⟩
    · refine .inl ⟨front, rest, hc, hfront, fun x hx => hback x ?_⟩
      rw [List.append_assoc, List.head?_append, hx, Option.some_or]
    · refine .inr ⟨rest, back, hd, fun x hx => hfront x ?_, hback⟩
      rw [List.getLast?_append, hx, Option.some_or]
  · rintro (⟨front, back, rfl, hfront, hback⟩ | ⟨front, back, rfl, hfront, hback⟩)
    · refine ⟨front, back ++ s ++ d, by simp only [List.append_assoc], hfront, ?_⟩
      intro x hx
      rw [List.append_assoc, List.head?_append] at hx
      cases hhd : back.head? with
      | some y =>
        rw [hhd] at hx
        obtain rfl := Option.some.inj hx
        exact hback y hhd
      | none =>
        rw [hhd, Option.none_or, List.head?_append, hfirst] at hx
        obtain rfl := Option.some.inj hx
        exact hhead _ hfirst
    · refine ⟨c ++ s ++ front, back, by simp only [List.append_assoc], ?_, hback⟩
      intro x hx
      rw [List.getLast?_append] at hx
      cases hlst : front.getLast? with
      | some y =>
        rw [hlst] at hx
        obtain rfl := Option.some.inj hx
        exact hfront y hlst
      | none =>
        rw [hlst, Option.none_or, List.getLast?_append] at hx
        cases hl : s.getLast? with
        | none => exact absurd (List.getLast?_eq_none_iff.mp hl) hne
        | some y =>
          rw [hl] at hx
          obtain rfl := Option.some.inj hx
          exact hlast y hl

end Joined

/-! ### Separators -/

def OPERATORS : List Text := [[';'], ['&', '&'], ['|', '|'], ['|'], ['&'], ['\n']]

/-- A separator of two commands, with blanks around it or without. -/
structure Joint where
  before : Text
  operator : Text
  after : Text
  before_blank : ∀ c ∈ before, is_blank c = true
  operator_listed : operator ∈ OPERATORS
  after_blank : ∀ c ∈ after, is_blank c = true

def Joint.separator (j : Joint) : Text := j.before ++ j.operator ++ j.after

/-- The command of two commands with a separator between them. -/
def Joint.join (j : Joint) (c d : Text) : Text := c ++ j.separator ++ d

/-- The characters that separators are made of. -/
def is_joint (c : Char) : Bool := [' ', '\t', '\n', ';', '&', '|'].contains c

theorem is_joint_separator {c : Char} (h : is_joint c = true) : is_separator c = true := by
  have hall : ∀ d ∈ [' ', '\t', '\n', ';', '&', '|'], is_separator d = true :=
    Text.forall_mem_of_all (by decide)
  exact hall c (List.contains_iff_mem.mp h)

theorem blank_joint {c : Char} (h : is_blank c = true) : is_joint c = true := by
  unfold is_blank at h
  simp only [Bool.or_eq_true, decide_eq_true_eq] at h
  rcases h with rfl | rfl <;> decide

theorem blank_whitespace {c : Char} (h : is_blank c = true) : Text.is_whitespace c = true := by
  unfold is_blank at h
  simp only [Bool.or_eq_true, decide_eq_true_eq] at h
  rcases h with rfl | rfl <;> decide

theorem operator_joint {operator : Text} (h : operator ∈ OPERATORS) :
    ∀ c ∈ operator, is_joint c = true := by
  have hall : ∀ operator ∈ OPERATORS, (operator.all fun c => is_joint c) = true := by decide
  exact List.all_eq_true.mp (hall operator h)

namespace Joint
variable (j : Joint) (c d : Text)

theorem operator_ne_nil : j.operator ≠ [] := by
  have hall : ∀ operator ∈ OPERATORS, operator ≠ [] := by decide
  exact hall j.operator j.operator_listed

theorem separator_joint : ∀ x ∈ j.separator, is_joint x = true := by
  intro x hx
  unfold separator at hx
  rw [List.mem_append, List.mem_append] at hx
  rcases hx with (hx | hx) | hx
  · exact blank_joint (j.before_blank x hx)
  · exact operator_joint j.operator_listed x hx
  · exact blank_joint (j.after_blank x hx)

theorem separator_ne_nil : j.separator ≠ [] := by
  unfold separator
  rw [ne_eq, List.append_eq_nil_iff, List.append_eq_nil_iff]
  exact fun h => j.operator_ne_nil h.1.2

theorem join_lower :
    (j.join c d).to_ascii_lowercase = j.join c.to_ascii_lowercase d.to_ascii_lowercase := by
  have hseparator : j.separator.to_ascii_lowercase = j.separator := by
    unfold Text.to_ascii_lowercase
    rw [List.map_congr_left fun x hx =>
      separator_lower (is_joint_separator (j.separator_joint x hx)), List.map_id']
  unfold join
  rw [Text.to_ascii_lowercase_append, Text.to_ascii_lowercase_append, hseparator]

/-! ### The words of a composed command -/

end Joint

def is_visible (c : Char) : Bool := !Text.is_whitespace c

/-- The word that an operator makes of what touches it. -/
def Joint.edge (j : Joint) (c d : Text) : Text :=
  (c ++ j.before).rtakeWhile is_visible ++ j.operator ++ (j.after ++ d).takeWhile is_visible

/-- The words of the composed command: those of the parts, but for what
    touches an operator other than a newline. -/
def Joint.words (j : Joint) (c d : Text) : List Text :=
  if j.operator = ['\n'] then shell_words c ++ shell_words d
  else
    shell_words ((c ++ j.before).rdropWhile is_visible) ++ shell_words (j.edge c d) ++
      shell_words ((j.after ++ d).dropWhile is_visible)

theorem split_whitespace_after_space {front : Text} (t : Text)
    (h : ∀ c, front.getLast? = some c → Text.is_whitespace c = true) :
    Text.split_whitespace (front ++ t) =
      Text.split_whitespace front ++ Text.split_whitespace t := by
  cases hlast : front.getLast? with
  | none =>
    rw [List.getLast?_eq_none_iff.mp hlast, Text.split_whitespace_nil]
    rfl
  | some c =>
    obtain ⟨start, hstart⟩ := List.getLast?_eq_some_iff.mp hlast
    have hc := h c hlast
    have hfront : Text.split_whitespace front = Text.split_whitespace start := by
      rw [hstart, Text.split_whitespace_append_cons start [] hc, Text.split_whitespace_nil,
        List.append_nil]
    rw [hfront, hstart, List.append_assoc, List.singleton_append,
      Text.split_whitespace_append_cons start t hc]

theorem split_whitespace_before_space (t : Text) {back : Text}
    (h : ∀ c, back.head? = some c → Text.is_whitespace c = true) :
    Text.split_whitespace (t ++ back) = Text.split_whitespace t ++ Text.split_whitespace back := by
  cases back with
  | nil => rw [List.append_nil, Text.split_whitespace_nil, List.append_nil]
  | cons c back =>
    have hc := h c rfl
    have hback : Text.split_whitespace (c :: back) = Text.split_whitespace back := by
      have hsplit := Text.split_whitespace_append_cons [] back hc
      rwa [Text.split_whitespace_nil, List.nil_append, List.nil_append] at hsplit
    rw [hback, Text.split_whitespace_append_cons t back hc]

/-- What is left when the visible characters at the end are dropped ends with
    white space. -/
theorem rdropWhile_visible_last {t : Text} {x : Char}
    (h : (t.rdropWhile is_visible).getLast? = some x) : Text.is_whitespace x = true := by
  have hne : t.rdropWhile is_visible ≠ [] := by
    intro hnil
    rw [hnil] at h
    cases h
  have hstop := List.rdropWhile_last_not is_visible t hne
  rw [(List.getLast_eq_iff_getLast?_eq_some hne).mpr h] at hstop
  simpa [is_visible] using hstop

theorem dropWhile_visible_head {t : Text} {x : Char}
    (h : (t.dropWhile is_visible).head? = some x) : Text.is_whitespace x = true := by
  have hne : t.dropWhile is_visible ≠ [] := by
    intro hnil
    rw [hnil] at h
    cases h
  have hstop := List.head_dropWhile_not is_visible hne
  rw [List.head?_eq_some_head hne, Option.some.injEq] at h
  rw [h] at hstop
  simpa [is_visible] using hstop

/-- The words of the composed command are `Joint.words`. -/
theorem Joint.shell_words_join (j : Joint) (c d : Text) :
    shell_words (j.join c d) = j.words c d := by
  have hbefore : ∀ x ∈ j.before, Text.is_whitespace x = true := fun x hx =>
    blank_whitespace (j.before_blank x hx)
  have hafter : ∀ x ∈ j.after, Text.is_whitespace x = true := fun x hx =>
    blank_whitespace (j.after_blank x hx)
  have hjoin : j.join c d = (c ++ j.before) ++ j.operator ++ (j.after ++ d) := by
    unfold join separator
    simp only [List.append_assoc]
  unfold words
  split
  · next hnewline =>
    have hsplit : (j.join c d).split_whitespace = c.split_whitespace ++ d.split_whitespace := by
      rw [hjoin, hnewline, List.append_assoc, List.singleton_append,
        Text.split_whitespace_append_cons _ _ (by decide),
        Text.split_whitespace_append_spaces c hbefore, Text.split_whitespace_spaces_append d hafter]
    simp only [shell_words_eq, hsplit, List.map_append, List.filter_append]
  · have hsplit : (j.join c d).split_whitespace =
        Text.split_whitespace ((c ++ j.before).rdropWhile is_visible) ++
          Text.split_whitespace (j.edge c d) ++
          Text.split_whitespace ((j.after ++ d).dropWhile is_visible) := by
      have htext : j.join c d = (c ++ j.before).rdropWhile is_visible ++ j.edge c d ++
          (j.after ++ d).dropWhile is_visible := by
        rw [hjoin]
        unfold edge
        conv_lhs =>
          rw [← @List.rdropWhile_append_rtakeWhile _ is_visible (c ++ j.before),
            ← @List.takeWhile_append_dropWhile _ is_visible (j.after ++ d)]
        simp only [List.append_assoc]
      rw [htext, split_whitespace_before_space _ fun x hx => dropWhile_visible_head hx,
        split_whitespace_after_space _ fun x hx => rdropWhile_visible_last hx]
    simp only [shell_words_eq, hsplit, List.map_append, List.filter_append]

/-! ### The findings of a composed command -/

/-- A finding of a composed command, told from its parts. -/
def Finding.found_joined (finding : Finding) (j : Joint) (c d : Text) : Bool :=
  finding.programs.all (fun programs =>
      contains_any_command c programs || contains_any_command d programs) &&
    finding.texts.all (fun texts => texts.any fun t =>
      c.contains_text t || j.operator.contains_text t || d.contains_text t) &&
      finding.words.all fun test => (j.words c d).any test

/-- What the findings look for, so that a separator does not get in its way. -/
structure Finding.Compact (finding : Finding) : Prop where
  programs : ∀ programs ∈ finding.programs, ∀ program ∈ programs,
    program.toList ≠ [] ∧ ∀ x ∈ program.toList, ¬ is_separator x = true
  texts : ∀ texts ∈ finding.texts, ∀ t ∈ texts,
    t = ['|'] ∨ (t ≠ [] ∧ ∀ x ∈ t, ¬ is_joint x = true)

theorem findings_compact {finding : Finding} (h : finding ∈ LEVEL_ONE ++ LEVEL_TWO) :
    finding.Compact := by
  have hprograms : ((LEVEL_ONE ++ LEVEL_TWO).all fun finding => finding.programs.all fun programs =>
      programs.all fun program => !program.toList.isEmpty &&
        program.toList.all fun x => !is_separator x) = true := by decide
  have htexts : ((LEVEL_ONE ++ LEVEL_TWO).all fun finding => finding.texts.all fun texts =>
      texts.all fun t => t == ['|'] || !t.isEmpty && t.all fun x => !is_joint x) = true := by decide
  constructor
  · intro programs hmem program hprogram
    have hgroups := List.all_eq_true.mp hprograms finding h
    have hcheck := List.all_eq_true.mp (List.all_eq_true.mp hgroups programs hmem) program hprogram
    obtain ⟨hne, hall⟩ := Bool.and_eq_true _ _ ▸ hcheck
    exact ⟨by simpa using hne, fun x hx => by simpa using List.all_eq_true.mp hall x hx⟩
  · intro texts hmem t ht
    have hgroups := List.all_eq_true.mp htexts finding h
    have hcheck := List.all_eq_true.mp (List.all_eq_true.mp hgroups texts hmem) t ht
    rcases Bool.or_eq_true _ _ ▸ hcheck with hpipe | hrest
    · exact .inl (eq_of_beq hpipe)
    · obtain ⟨hne, hall⟩ := Bool.and_eq_true _ _ ▸ hrest
      exact .inr ⟨by simpa using hne, fun x hx => by simpa using List.all_eq_true.mp hall x hx⟩

theorem Joint.contains_any_command_join (j : Joint) (c d : Text) {programs : List String}
    (h : ∀ program ∈ programs,
      program.toList ≠ [] ∧ ∀ x ∈ program.toList, ¬ is_separator x = true) :
    contains_any_command (j.join c d) programs =
      (contains_any_command c programs || contains_any_command d programs) := by
  have hseparator : ∀ x ∈ j.separator, is_separator x = true := fun x hx =>
    is_joint_separator (j.separator_joint x hx)
  unfold contains_any_command
  induction programs with
  | nil => rfl
  | cons program programs ih =>
    obtain ⟨⟨hne, hchars⟩, hrest⟩ := List.forall_mem_cons.mp h
    rw [List.any_cons, List.any_cons, List.any_cons, ih hrest]
    unfold join
    rw [contains_command_joined hseparator j.separator_ne_nil hchars hne]
    ac_rfl

theorem Joint.contains_text_join (j : Joint) (c d : Text) {t : Text}
    (h : t = ['|'] ∨ (t ≠ [] ∧ ∀ x ∈ t, ¬ is_joint x = true)) :
    (j.join c d).contains_text t =
      (c.contains_text t || j.operator.contains_text t || d.contains_text t) := by
  rcases h with rfl | ⟨hne, hchars⟩
  · -- the blanks of the separator are no pipe
    have hbefore : '|' ∉ j.before := fun hmem => by cases j.before_blank '|' hmem
    have hafter : '|' ∉ j.after := fun hmem => by cases j.after_blank '|' hmem
    rw [Bool.eq_iff_iff]
    simp only [contains_text_singleton, Bool.or_eq_true, List.contains_iff_mem, join, separator,
      List.mem_append, hbefore, hafter, false_or, or_false]
  · have hoperator : j.operator.contains_text t = false := by
      rw [Bool.eq_false_iff]
      intro hfound
      obtain ⟨a, b, hab⟩ := contains_text_iff.mp hfound
      obtain ⟨x, rest, rfl⟩ := List.exists_cons_of_ne_nil hne
      refine hchars x List.mem_cons_self (operator_joint j.operator_listed x ?_)
      rw [hab]
      simp
    unfold join
    rw [contains_text_joined (S := fun x => is_joint x = true) j.separator_joint
      j.separator_ne_nil hchars hne, hoperator, Bool.or_false]

theorem Joint.found_join (j : Joint) (c d : Text) {finding : Finding}
    (h : finding ∈ LEVEL_ONE ++ LEVEL_TWO) :
    finding.found (j.join c d) = finding.found_joined j c d := by
  have hcompact := findings_compact h
  unfold Finding.found Finding.found_joined
  rw [j.shell_words_join]
  congr 2
  · rw [Bool.eq_iff_iff, List.all_eq_true, List.all_eq_true]
    refine forall₂_congr fun programs hmem => ?_
    rw [j.contains_any_command_join c d (hcompact.programs programs hmem)]
  · rw [Bool.eq_iff_iff, List.all_eq_true, List.all_eq_true]
    refine forall₂_congr fun texts hmem => ?_
    rw [List.any_eq_true, List.any_eq_true]
    refine exists_congr fun t => and_congr_right fun ht => ?_
    rw [j.contains_text_join c d (hcompact.texts texts hmem t ht)]

/-! ### The segments of a composed command -/

/-- White space around a text is trimmed with it. -/
theorem trim_between (t : Text) {w v : Text} (hw : ∀ x ∈ w, Text.is_whitespace x = true)
    (hv : ∀ x ∈ v, Text.is_whitespace x = true) : Text.trim (w ++ t ++ v) = Text.trim t := by
  have hright : ∀ u : Text, (u ++ v).rdropWhile Text.is_whitespace =
      u.rdropWhile Text.is_whitespace := by
    intro u
    unfold List.rdropWhile
    rw [List.reverse_append, List.dropWhile_append_of_pos]
    intro x hx
    exact hv x (List.mem_reverse.mp hx)
  unfold Text.trim
  rw [List.append_assoc, List.dropWhile_append_of_pos hw, List.dropWhile_append]
  split
  · next hempty =>
    rw [List.isEmpty_iff.mp hempty, List.dropWhile_eq_nil_iff.mpr hv]
  · exact hright _

def is_operator (c : Char) : Bool := "\n;|&".toList.contains c

theorem segments_append_cons (a b : Text) {x : Char} (hx : is_operator x = true) :
    split_shell_segments (a ++ x :: b) = split_shell_segments a ++ split_shell_segments b := by
  have hsplit : (a ++ x :: b).splitOnP is_operator =
      a.splitOnP is_operator ++ b.splitOnP is_operator :=
    List.splitOnP_append_cons a b hx
  show (((a ++ x :: b).splitOnP is_operator).map Text.trim).filter _ = _
  rw [hsplit, List.map_append, List.filter_append]
  rfl

theorem segments_nil : split_shell_segments [] = [] := rfl

theorem blank_not_operator {c : Char} (h : is_blank c = true) : is_operator c = false := by
  unfold is_blank at h
  simp only [Bool.or_eq_true, decide_eq_true_eq] at h
  rcases h with rfl | rfl <;> decide

/-- A text without operators is one segment. -/
theorem segments_one {t : Text} (h : ∀ x ∈ t, is_operator x = false) :
    split_shell_segments t = [t.trim].filter fun segment => !segment.isEmpty := by
  have hsplit : t.splitOnP is_operator = [t] := List.splitOnP_eq_singleton h
  show ((t.splitOnP is_operator).map Text.trim).filter _ = _
  rw [hsplit]
  rfl

/-- Blanks around a text belong to no segment. -/
theorem segments_between (t : Text) {w v : Text} (hw : ∀ x ∈ w, is_blank x = true)
    (hv : ∀ x ∈ v, is_blank x = true) :
    split_shell_segments (w ++ t ++ v) = split_shell_segments t := by
  induction hlength : t.length using Nat.strong_induction_on generalizing t w v with
  | _ n ih =>
    by_cases hany : ∃ x ∈ t, is_operator x = true
    · obtain ⟨x, hmem, hx⟩ := hany
      obtain ⟨a, b, rfl⟩ := List.append_of_mem hmem
      rw [List.length_append, List.length_cons] at hlength
      have ha := ih a.length (by omega) a hw (List.forall_mem_nil _) rfl
      have hb := ih b.length (by omega) b (List.forall_mem_nil _) hv rfl
      rw [List.append_nil] at ha
      rw [List.nil_append] at hb
      have htext : w ++ (a ++ x :: b) ++ v = (w ++ a) ++ x :: (b ++ v) := by
        simp only [List.append_assoc, List.cons_append]
      rw [htext, segments_append_cons _ _ hx, segments_append_cons _ _ hx, ha, hb]
    · have hnone : ∀ x ∈ t, is_operator x = false := by
        intro x hx
        by_contra hop
        exact hany ⟨x, hx, by simpa using hop⟩
      have hall : ∀ x ∈ w ++ t ++ v, is_operator x = false := by
        intro x hx
        rw [List.mem_append, List.mem_append] at hx
        rcases hx with (hx | hx) | hx
        · exact blank_not_operator (hw x hx)
        · exact hnone x hx
        · exact blank_not_operator (hv x hx)
      rw [segments_one hall, segments_one hnone, trim_between t (fun x hx => blank_whitespace (hw x hx))
        fun x hx => blank_whitespace (hv x hx)]

theorem Joint.segments_join (j : Joint) (c d : Text) :
    split_shell_segments (j.join c d) = split_shell_segments c ++ split_shell_segments d := by
  have hoperator : ∀ a b : Text, split_shell_segments (a ++ j.operator ++ b) =
      split_shell_segments a ++ split_shell_segments b := by
    intro a b
    -- an operator is one character, or one that stands twice
    have hone : ∀ x, is_operator x = true → split_shell_segments (a ++ [x] ++ b) =
        split_shell_segments a ++ split_shell_segments b := by
      intro x hx
      rw [List.append_assoc, List.singleton_append, segments_append_cons a b hx]
    have htwo : ∀ x, is_operator x = true → split_shell_segments (a ++ [x, x] ++ b) =
        split_shell_segments a ++ split_shell_segments b := by
      intro x hx
      have hrest : split_shell_segments (x :: b) = split_shell_segments b :=
        segments_append_cons [] b hx
      rw [List.append_assoc, List.cons_append, segments_append_cons a _ hx, List.singleton_append,
        hrest]
    have hlisted := j.operator_listed
    unfold OPERATORS at hlisted
    simp only [List.mem_cons, List.not_mem_nil, or_false] at hlisted
    rcases hlisted with h | h | h | h | h | h <;> rw [h]
    · exact hone ';' (by decide)
    · exact htwo '&' (by decide)
    · exact htwo '|' (by decide)
    · exact hone '|' (by decide)
    · exact hone '&' (by decide)
    · exact hone '\n' (by decide)
  have hjoin : j.join c d = (c ++ j.before) ++ j.operator ++ (j.after ++ d) := by
    unfold join separator
    simp only [List.append_assoc]
  have hc := segments_between c (List.forall_mem_nil _) j.before_blank
  have hd := segments_between d j.after_blank (List.forall_mem_nil _)
  rw [List.nil_append] at hc
  rw [List.append_nil] at hd
  rw [hjoin, hoperator, hc, hd]

/-! ### The risk of a composed command -/

/-- What stands in the way of the lowest level, beside a segment that is not
    read-only. -/
def has_finding (command : Text) : Bool :=
  (LEVEL_ONE ++ LEVEL_TWO).any fun finding => finding.found command.to_ascii_lowercase

/-- Where the parts have a finding, the findings of the same level that are
    told from the parts have one. -/
structure JoinKeepsRisk (j : Joint) (c d : Text) : Prop where
  /-- The highest level. -/
  level_two : (∃ finding ∈ LEVEL_TWO, finding.found c.to_ascii_lowercase = true ∨
      finding.found d.to_ascii_lowercase = true) →
    ∃ finding ∈ LEVEL_TWO, finding.found_joined j c.to_ascii_lowercase d.to_ascii_lowercase = true
  /-- The level above the lowest, if no segment is reason enough for it. -/
  level_one : (∀ segment ∈ split_shell_segments c ++ split_shell_segments d,
      is_read_only_segment segment = true) →
    split_shell_segments c ++ split_shell_segments d ≠ [] →
    (has_finding c = true ∨ has_finding d = true ∨ split_shell_segments c = [] ∨
      split_shell_segments d = []) →
    ∃ finding ∈ LEVEL_ONE ++ LEVEL_TWO,
      finding.found_joined j c.to_ascii_lowercase d.to_ascii_lowercase = true

theorem level_two_le_iff (command : Text) :
    .L2 ≤ detected_risk command ↔
      ∃ finding ∈ LEVEL_TWO, finding.found command.to_ascii_lowercase = true := by
  rw [← List.any_eq_true, ← any_level_two]
  unfold detected_risk
  dsimp only
  generalize any_finding (level_two_findings _) = two
  generalize (any_finding (level_one_findings _) || !is_read_only_command command) = one
  cases two <;> cases one <;> decide

theorem level_one_le_iff (command : Text) :
    .L1 ≤ detected_risk command ↔
      has_finding command = true ∨ is_read_only_command command = false := by
  unfold has_finding detected_risk
  rw [List.any_append, ← any_level_one, ← any_level_two]
  dsimp only
  generalize any_finding (level_two_findings _) = two
  generalize any_finding (level_one_findings _) = one
  generalize is_read_only_command command = read_only
  cases two <;> cases one <;> cases read_only <;> decide

theorem is_read_only_command_iff (command : Text) :
    is_read_only_command command = true ↔ split_shell_segments command ≠ [] ∧
      ∀ segment ∈ split_shell_segments command, is_read_only_segment segment = true := by
  unfold is_read_only_command
  rw [Bool.and_eq_true, Bool.not_eq_true', List.isEmpty_eq_false_iff, List.all_eq_true]

theorem not_read_only_of_nil {command : Text} (h : split_shell_segments command = []) :
    is_read_only_command command = false := by
  rw [Bool.eq_false_iff, ne_eq, is_read_only_command_iff]
  exact fun hread_only => hread_only.1 h

theorem nil_of_not_read_only {command : Text}
    (hsegments : ∀ segment ∈ split_shell_segments command, is_read_only_segment segment = true)
    (h : is_read_only_command command = false) : split_shell_segments command = [] := by
  by_contra hne
  rw [(is_read_only_command_iff command).mpr ⟨hne, hsegments⟩] at h
  cases h

theorem max_le_iff_levels (a b r : RiskLevel) :
    max a b ≤ r ↔ ((.L2 ≤ a ∨ .L2 ≤ b) → .L2 ≤ r) ∧ ((.L1 ≤ a ∨ .L1 ≤ b) → .L1 ≤ r) := by
  cases a <;> cases b <;> cases r <;> decide

theorem detected_risk_join_iff (j : Joint) (c d : Text) :
    max (detected_risk c) (detected_risk d) ≤ detected_risk (j.join c d) ↔
      JoinKeepsRisk j c d := by
  have hfound : ∀ finding ∈ LEVEL_ONE ++ LEVEL_TWO,
      finding.found (j.join c d).to_ascii_lowercase =
        finding.found_joined j c.to_ascii_lowercase d.to_ascii_lowercase := by
    intro finding hmem
    rw [j.join_lower, j.found_join _ _ hmem]
  have htwo : .L2 ≤ detected_risk (j.join c d) ↔ ∃ finding ∈ LEVEL_TWO,
      finding.found_joined j c.to_ascii_lowercase d.to_ascii_lowercase = true := by
    rw [level_two_le_iff]
    refine exists_congr fun finding => and_congr_right fun hmem => ?_
    rw [hfound finding (List.mem_append_right _ hmem)]
  have hjoined : has_finding (j.join c d) = true ↔ ∃ finding ∈ LEVEL_ONE ++ LEVEL_TWO,
      finding.found_joined j c.to_ascii_lowercase d.to_ascii_lowercase = true := by
    unfold has_finding
    rw [List.any_eq_true]
    refine exists_congr fun finding => and_congr_right fun hmem => ?_
    rw [hfound finding hmem]
  have hreads := is_read_only_command_iff (j.join c d)
  rw [j.segments_join] at hreads
  rw [max_le_iff_levels, htwo, level_two_le_iff, level_two_le_iff, level_one_le_iff,
    level_one_le_iff, level_one_le_iff, hjoined]
  constructor
  · rintro ⟨hlevel_two, hlevel_one⟩
    constructor
    · rintro ⟨finding, hmem, hc | hd⟩
      · exact hlevel_two (.inl ⟨finding, hmem, hc⟩)
      · exact hlevel_two (.inr ⟨finding, hmem, hd⟩)
    · intro hsegments hne hreason
      have hread_only := hreads.mpr ⟨hne, hsegments⟩
      refine (hlevel_one ?_).resolve_right (by rw [hread_only]; simp)
      rcases hreason with hc | hd | hc | hd
      · exact .inl (.inl hc)
      · exact .inr (.inl hd)
      · exact .inl (.inr (not_read_only_of_nil hc))
      · exact .inr (.inr (not_read_only_of_nil hd))
  · rintro ⟨hlevel_two, hlevel_one⟩
    constructor
    · rintro (⟨finding, hmem, hc⟩ | ⟨finding, hmem, hd⟩)
      · exact hlevel_two ⟨finding, hmem, .inl hc⟩
      · exact hlevel_two ⟨finding, hmem, .inr hd⟩
    · intro hreason
      cases hread_only : is_read_only_command (j.join c d) with
      | false => exact .inr rfl
      | true =>
        obtain ⟨hne, hsegments⟩ := hreads.mp hread_only
        have hall := List.forall_mem_append.mp hsegments
        refine .inl (hlevel_one hsegments hne ?_)
        rcases hreason with (hc | hc) | (hd | hd)
        · exact .inl hc
        · exact .inr (.inr (.inl (nil_of_not_read_only hall.1 hc)))
        · exact .inr (.inl hd)
        · exact .inr (.inr (.inr (nil_of_not_read_only hall.2 hd)))

/-! ### Separators that keep their distance -/

/-- The words of the parts are words of the composed command, if white space
    stands on both sides of the operator. -/
theorem Joint.words_apart (j : Joint) (c d : Text)
    (h : j.operator = ['\n'] ∨ (j.before ≠ [] ∧ j.after ≠ [])) {word : Text}
    (hword : word ∈ shell_words c ∨ word ∈ shell_words d) : word ∈ j.words c d := by
  unfold words
  split
  · exact List.mem_append.mpr hword
  · next hoperator =>
    obtain ⟨hbefore, hafter⟩ := h.resolve_left hoperator
    have hblank : ∀ x, is_blank x = true → is_visible x = false := by
      intro x hx
      unfold is_visible
      rw [blank_whitespace hx]
      rfl
    have hfront : (c ++ j.before).rdropWhile is_visible = c ++ j.before := by
      rw [List.rdropWhile_eq_self_iff]
      intro hne
      rw [List.getLast_append_of_ne_nil hne hbefore,
        hblank _ (j.before_blank _ (List.getLast_mem hbefore))]
      exact Bool.false_ne_true
    have hback : (j.after ++ d).dropWhile is_visible = j.after ++ d := by
      obtain ⟨x, rest, hcons⟩ := List.exists_cons_of_ne_nil hafter
      have hx := j.after_blank x (by rw [hcons]; exact List.mem_cons_self)
      rw [hcons, List.cons_append, List.dropWhile_cons_of_neg]
      rw [hblank x hx]
      exact Bool.false_ne_true
    have hc : shell_words (c ++ j.before) = shell_words c := by
      rw [shell_words_eq, shell_words_eq,
        Text.split_whitespace_append_spaces c fun x hx => blank_whitespace (j.before_blank x hx)]
    have hd : shell_words (j.after ++ d) = shell_words d := by
      rw [shell_words_eq, shell_words_eq,
        Text.split_whitespace_spaces_append d fun x hx => blank_whitespace (j.after_blank x hx)]
    rw [hfront, hback, hc, hd, List.mem_append, List.mem_append]
    rcases hword with hword | hword
    · exact .inl (.inl hword)
    · exact .inr hword

/-- A finding of a part whose words are all kept is told from the parts. -/
theorem Finding.found_joined_of_part {finding : Finding} {j : Joint} {c d : Text}
    (hc : ∀ word ∈ shell_words c, word ∈ j.words c d)
    (hd : ∀ word ∈ shell_words d, word ∈ j.words c d)
    (h : finding.found c = true ∨ finding.found d = true) : finding.found_joined j c d = true := by
  unfold Finding.found Finding.found_joined at *
  simp only [Bool.and_eq_true, List.all_eq_true, List.any_eq_true, Bool.or_eq_true] at h ⊢
  rcases h with ⟨⟨hprograms, htexts⟩, hwords⟩ | ⟨⟨hprograms, htexts⟩, hwords⟩
  · refine ⟨⟨fun programs hmem => .inl (hprograms programs hmem), fun texts hmem => ?_⟩,
      fun test hmem => ?_⟩
    · obtain ⟨t, ht, hfound⟩ := htexts texts hmem
      exact ⟨t, ht, .inl (.inl hfound)⟩
    · obtain ⟨word, hword, htest⟩ := hwords test hmem
      exact ⟨word, hc word hword, htest⟩
  · refine ⟨⟨fun programs hmem => .inr (hprograms programs hmem), fun texts hmem => ?_⟩,
      fun test hmem => ?_⟩
    · obtain ⟨t, ht, hfound⟩ := htexts texts hmem
      exact ⟨t, ht, .inr hfound⟩
    · obtain ⟨word, hword, htest⟩ := hwords test hmem
      exact ⟨word, hd word hword, htest⟩

/-- A separator with white space on both sides keeps the risk, if neither part
    is without segments. -/
theorem joinKeepsRisk_of_apart (j : Joint) (c d : Text)
    (h : j.operator = ['\n'] ∨ (j.before ≠ [] ∧ j.after ≠ []))
    (hc : split_shell_segments c ≠ []) (hd : split_shell_segments d ≠ []) :
    JoinKeepsRisk j c d := by
  have hkept : ∀ finding : Finding, finding.found c.to_ascii_lowercase = true ∨
      finding.found d.to_ascii_lowercase = true →
        finding.found_joined j c.to_ascii_lowercase d.to_ascii_lowercase = true := fun finding =>
    Finding.found_joined_of_part (fun word hword => j.words_apart _ _ h (.inl hword))
      fun word hword => j.words_apart _ _ h (.inr hword)
  constructor
  · rintro ⟨finding, hmem, hfound⟩
    exact ⟨finding, hmem, hkept finding hfound⟩
  · intro _ _ hreason
    unfold has_finding at hreason
    rw [List.any_eq_true, List.any_eq_true] at hreason
    rcases hreason with ⟨finding, hmem, hfound⟩ | ⟨finding, hmem, hfound⟩ | hnil | hnil
    · exact ⟨finding, hmem, hkept finding (.inl hfound)⟩
    · exact ⟨finding, hmem, hkept finding (.inr hfound)⟩
    · exact absurd hnil hc
    · exact absurd hnil hd

/-! ### The analysis of a composed command -/

/-- The composed command is no less than its parts exactly when a finding
    survives that is reason enough: its programs and texts are in the parts, and
    its words among the words that the separator leaves. -/
theorem composed_risk_iff (j : Joint) {c d : Text}
    {declared_first declared_second declared : RiskLevel}
    {first_text second_text composed_text : Option Text} {first second composed : RiskAnalysis}
    (hfirst : analyze_command c declared_first first_text = .ok first)
    (hsecond : analyze_command d declared_second second_text = .ok second)
    (hcomposed : analyze_command (j.join c d) declared composed_text = .ok composed) :
    max first.detected_risk second.detected_risk ≤ composed.detected_risk ↔
      JoinKeepsRisk j c d := by
  rw [analyze_command_detected hfirst, analyze_command_detected hsecond,
    analyze_command_detected hcomposed]
  exact detected_risk_join_iff j c d

/-- A semicolon with a blank on either side. -/
def spaced_semicolon : Joint where
  before := [' ']
  operator := [';']
  after := [' ']
  before_blank := Text.forall_mem_of_all (by decide)
  operator_listed := by decide
  after_blank := Text.forall_mem_of_all (by decide)

/-- A semicolon without blanks. -/
def semicolon : Joint where
  before := []
  operator := [';']
  after := []
  before_blank := List.forall_mem_nil _
  operator_listed := by decide
  after_blank := List.forall_mem_nil _

theorem composed_risk_reset :
    ∃ first second composed,
      analyze_command "git reset --hard".toList .L0 (some "host".toList) = .ok first ∧
      analyze_command "ls".toList .L0 none = .ok second ∧
      analyze_command (spaced_semicolon.join "git reset --hard".toList "ls".toList) .L0
        (some "host".toList) = .ok composed ∧
      max first.detected_risk second.detected_risk ≤ composed.detected_risk := by
  have hkeeps : JoinKeepsRisk spaced_semicolon "git reset --hard".toList "ls".toList :=
    joinKeepsRisk_of_apart _ _ _ (.inr ⟨by decide, by decide⟩) (by decide) (by decide)
  obtain ⟨first, hfirst⟩ : ∃ first,
      analyze_command "git reset --hard".toList .L0 (some "host".toList) = .ok first := ⟨_, rfl⟩
  obtain ⟨second, hsecond⟩ : ∃ second, analyze_command "ls".toList .L0 none = .ok second :=
    ⟨_, rfl⟩
  obtain ⟨composed, hcomposed⟩ : ∃ composed,
      analyze_command (spaced_semicolon.join "git reset --hard".toList "ls".toList) .L0
        (some "host".toList) = .ok composed := ⟨_, rfl⟩
  exact ⟨first, second, composed, hfirst, hsecond, hcomposed,
    (composed_risk_iff spaced_semicolon hfirst hsecond hcomposed).mpr hkeeps⟩

/-- What touches the operator is not seen as a word. -/
theorem reset_before_semicolon :
    ∃ first second composed,
      analyze_command "git reset --hard".toList .L0 (some "host".toList) = .ok first ∧
      analyze_command "ls".toList .L0 none = .ok second ∧
      analyze_command (semicolon.join "git reset --hard".toList "ls".toList) .L0
        (some "host".toList) = .ok composed ∧
      ¬ max first.detected_risk second.detected_risk ≤ composed.detected_risk := by
  refine ⟨_, _, _, rfl, rfl, rfl, ?_⟩
  decide +kernel

end Command
