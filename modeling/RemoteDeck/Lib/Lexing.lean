import RemoteDeck.Lib.Text

/-! # The lexing of a POSIX shell

    A POSIX shell reads a text character by character: quotes and backslashes
    make characters literal, operators end a command, blanks end a word.  This
    file defines:
    - `Role`: what a character is to the shell
    - `lex`: the roles of all characters of a text
    - `SimpleCommand`: what stands between two control operators
    - `SimpleCommand.runs`: the program that a simple command runs, behind
      reserved words, variable assignments, and the launchers `env`, `exec` and
      `command`

    No expansion is performed: a word is its literal characters, and `$` is
    one of them.  The bodies of here-documents are read as commands, the
    headers of `for`, `case` and functions as simple commands.
-/

namespace Posix

/-- What a character of a text is to the shell. -/
inductive Role where
  /-- Ends a word. -/
  | blank
  /-- A newline, or a character of an operator that ends a command. -/
  | control
  /-- Belongs to a redirection: its number, its operator, its target. -/
  | redirection
  /-- A character of a word, outside quotes. -/
  | plain
  /-- A character of a word, in quotes or after a backslash. -/
  | quoted
  /-- A quote or a backslash that makes characters literal. -/
  | mark
  /-- A comment, or a line continuation. -/
  | skipped
  deriving DecidableEq, Repr

/-- Where the shell is in a text. -/
inductive Place where
  | between
  | word
  | single
  | double
  | comment
  deriving DecidableEq, Repr

/-- The state of the reader: its place, what the next character is already
    known to be, and whether the next word is the target of a redirection. -/
structure Lexer where
  place : Place
  pending : Option (Role × Place)
  target : Bool
  deriving DecidableEq, Repr

def Lexer.start : Lexer := ⟨.between, none, false⟩

def is_blank (c : Char) : Bool := c = ' ' || c = '\t'

/-- The characters of the operators that end a command. -/
def is_control (c : Char) : Bool := ['\n', ';', '&', '|', '(', ')'].contains c

/-- A number that stands right before a redirection operator. -/
def is_io_number (t : Text) : Bool :=
  !(t.takeWhile Char.isDigit).isEmpty &&
    (t.dropWhile Char.isDigit).head?.any fun c => c = '<' || c = '>'

/-- The role of a character of a word. -/
def word_role (target : Bool) (role : Role) : Role := if target then .redirection else role

/-- A backslash outside single quotes. -/
def backslash (s : Lexer) (escapes : Char → Bool) (next : Option Char) : Role × Lexer :=
  match next with
  | some '\n' => (.skipped, { s with pending := some (.skipped, s.place) })
  | some c =>
      let place := if s.place = .double then .double else .word
      if escapes c then
        ( word_role s.target .mark,
          { s with place := place, pending := some (word_role s.target .quoted, place) })
      else ( word_role s.target .quoted, { s with place := place })
  | none => ( word_role s.target .quoted, s)

/-- A character outside quotes and comments. -/
def unquoted (s : Lexer) (c : Char) (rest : Text) : Role × Lexer :=
  if c = '\\' then backslash s (fun _ => true) rest.head?
  else if is_control c then (.control, .start)
  else if is_blank c then
    (.blank, { s with place := .between, target := s.target && s.place = .between })
  else if c = '<' || c = '>' then
    let joined := rest.head? = some '&' || (c = '>' && rest.head? = some '|')
    (.redirection,
      ⟨.between, if joined then some (.redirection, .between) else none, true⟩)
  else if s.place = .between && c = '#' then (.skipped, { s with place := .comment })
  else if s.place = .between && is_io_number (c :: rest) then (.redirection, s)
  else if c = '\'' then ( word_role s.target .mark, { s with place := .single })
  else if c = '"' then ( word_role s.target .mark, { s with place := .double })
  else ( word_role s.target .plain, { s with place := .word })

/-- The role of the next character, and the state after it. -/
def Lexer.next (s : Lexer) (c : Char) (rest : Text) : Role × Lexer :=
  match s.pending with
  | some (role, place) => (role, { s with place := place, pending := none })
  | none =>
      match s.place with
      | .comment => if c = '\n' then (.control, .start) else (.skipped, s)
      | .single =>
          if c = '\'' then ( word_role s.target .mark, { s with place := .word })
          else ( word_role s.target .quoted, s)
      | .double =>
          if c = '\\' then backslash s ("$\"\\".toList ++ [Char.ofNat 96]).contains rest.head?
          else if c = '"' then ( word_role s.target .mark, { s with place := .word })
          else ( word_role s.target .quoted, s)
      | .between | .word => unquoted s c rest

/-- The characters of a text with their roles. -/
def lex (s : Lexer) : Text → List (Char × Role)
  | [] => []
  | c :: rest => (c, (s.next c rest).1) :: lex (s.next c rest).2 rest

theorem lex_text (s : Lexer) (t : Text) : (lex s t).map Prod.fst = t := by
  induction t generalizing s with
  | nil => rfl
  | cons c rest ih => rw [lex, List.map_cons, ih]

/-! ### Simple commands -/

/-- What stands between two control operators, with the characters of these
    that it touches. -/
structure SimpleCommand where
  opener : Option Char
  body : List (Char × Role)
  closer : Option Char
  deriving DecidableEq, Repr

/-- Put a character in front of the first command. -/
def prepend (a : Char × Role) : List SimpleCommand → List SimpleCommand
  | [] => []
  | first :: others => { first with body := a :: first.body } :: others

/-- The commands of a text, the first of which follows `opener`. -/
def split_commands (opener : Option Char) : List (Char × Role) → List SimpleCommand
  | [] => [⟨opener, [], none⟩]
  | (c, role) :: rest =>
      if role = .control then ⟨opener, [], some c⟩ :: split_commands (some c) rest
      else prepend (c, role) (split_commands opener rest)

def simple_commands (t : Text) : List SimpleCommand := split_commands none (lex .start t)

/-- What follows a command: nothing, or the character that closes it. -/
def Closes (closer : Option Char) (back : List (Char × Role)) : Prop :=
  (back = [] ∧ closer = none) ∨ ∃ c more, back = (c, Role.control) :: more ∧ closer = some c

/-- The first command stands at the start of a text, the others behind the
    characters that open them. -/
theorem split_commands_spec (opener : Option Char) (roles : List (Char × Role)) :
    ∃ first others, split_commands opener roles = first :: others ∧
      (first.opener = opener ∧ ∃ back, roles = first.body ++ back ∧ Closes first.closer back) ∧
      ∀ command ∈ others, ∃ front c back,
        roles = front ++ (c, Role.control) :: command.body ++ back ∧
        command.opener = some c ∧ Closes command.closer back := by
  induction roles generalizing opener with
  | nil => exact ⟨_, [], rfl, ⟨rfl, [], rfl, .inl ⟨rfl, rfl⟩⟩, List.forall_mem_nil _⟩
  | cons a rest ih =>
    obtain ⟨c, role⟩ := a
    unfold split_commands
    by_cases hrole : role = .control
    · rw [if_pos hrole]
      subst hrole
      obtain ⟨first, others, hsplit, ⟨hopener, back, hrest, hcloses⟩, hothers⟩ := ih (some c)
      refine ⟨_, _, rfl, ⟨rfl, (c, .control) :: rest, rfl, .inr ⟨c, rest, rfl, rfl⟩⟩, ?_⟩
      rw [hsplit]
      intro command hmem
      rcases List.mem_cons.mp hmem with rfl | hmem
      · exact ⟨[], c, back, by rw [hrest]; rfl, hopener, hcloses⟩
      · obtain ⟨front, d, back, hrest, hopener, hcloses⟩ := hothers command hmem
        exact ⟨(c, .control) :: front, d, back, by rw [hrest]; rfl, hopener, hcloses⟩
    · rw [if_neg hrole]
      obtain ⟨first, others, hsplit, ⟨hopener, back, hrest, hcloses⟩, hothers⟩ := ih opener
      rw [hsplit]
      refine ⟨_, _, rfl, ⟨hopener, back, by rw [hrest]; rfl, hcloses⟩, ?_⟩
      intro command hmem
      obtain ⟨front, d, back, hrest, hopener, hcloses⟩ := hothers command hmem
      exact ⟨(c, role) :: front, d, back, by rw [hrest]; rfl, hopener, hcloses⟩

/-- A command of a text, where it stands in it. -/
theorem simple_commands_stand {command : SimpleCommand} {t : Text}
    (h : command ∈ simple_commands t) :
    ∃ front back : Text, t = front ++ command.body.map Prod.fst ++ back ∧
      ((front = [] ∧ command.opener = none) ∨
        ∃ start c, front = start ++ [c] ∧ command.opener = some c) ∧
      ((back = [] ∧ command.closer = none) ∨
        ∃ c more, back = c :: more ∧ command.closer = some c) := by
  obtain ⟨first, others, hsplit, ⟨hopener, back, hroles, hcloses⟩, hothers⟩ :=
    split_commands_spec none (lex .start t)
  have htext := lex_text .start t
  have hback : ∀ {closer : Option Char} {back : List (Char × Role)}, Closes closer back →
      (back.map Prod.fst = [] ∧ closer = none) ∨
        ∃ c more, back.map Prod.fst = c :: more ∧ closer = some c := by
    rintro closer back (⟨rfl, hclose⟩ | ⟨c, more, rfl, hclose⟩)
    · exact .inl ⟨rfl, hclose⟩
    · exact .inr ⟨c, more.map Prod.fst, rfl, hclose⟩
  unfold simple_commands at h
  rw [hsplit] at h
  rcases List.mem_cons.mp h with rfl | h
  · rw [hroles, List.map_append] at htext
    exact ⟨[], _, htext.symm, .inl ⟨rfl, hopener⟩, hback hcloses⟩
  · obtain ⟨front, c, back, hroles, hopener, hcloses⟩ := hothers command h
    rw [hroles, List.map_append, List.map_append, List.map_cons] at htext
    refine ⟨front.map Prod.fst ++ [c], back.map Prod.fst, ?_, .inr ⟨_, c, rfl, hopener⟩,
      hback hcloses⟩
    rw [← htext, List.append_assoc, List.append_assoc, List.append_assoc]
    rfl

/-! ### The words of a simple command -/

def ends_word (a : Char × Role) : Bool := a.2 = .blank || a.2 = .redirection

/-- The words of characters with their roles. -/
def role_words (roles : List (Char × Role)) : List (List (Char × Role)) :=
  (roles.splitOnP ends_word).filter fun word => !word.isEmpty

/-- The words of a command: comments and line continuations stand in none. -/
def SimpleCommand.words (command : SimpleCommand) : List (List (Char × Role)) :=
  role_words (command.body.filter fun a => a.2 ≠ .skipped)

theorem mem_role_words {roles word : List (Char × Role)} {a : Char × Role}
    (hword : word ∈ role_words roles) (ha : a ∈ word) : a ∈ roles ∧ ends_word a = false := by
  have hmem := (List.mem_filter.mp hword).1
  exact ⟨Text.splitOnP_subset hmem a ha, Text.splitOnP_no_separator hmem a ha⟩

/-- What follows a blank is read on its own. -/
theorem role_words_append_cons (front rest : List (Char × Role)) {a : Char × Role}
    (ha : ends_word a = true) :
    role_words (front ++ a :: rest) = role_words front ++ role_words rest := by
  unfold role_words
  rw [List.splitOnP_append_cons _ _ ha, List.filter_append]

/-- The characters that a word stands for. -/
def literal (word : List (Char × Role)) : Text := (word.filter fun a => a.2 ≠ .mark).map Prod.fst

/-- A name of a variable. -/
def is_name (t : Text) : Bool :=
  t.head?.any (fun c => c = '_' || c.isAlpha) && t.all fun c => c = '_' || c.isAlphanum

/-- A word that assigns a variable: a name and an equals sign outside quotes,
    and any value. -/
def is_assignment (word : List (Char × Role)) : Bool :=
  let name := word.takeWhile fun a => a ≠ ('=', Role.plain)
  word.contains ('=', Role.plain) && name.all (fun a => a.2 = .plain) && is_name (name.map Prod.fst)

/-- The reserved words that a command may follow. -/
def RESERVED : List Text :=
  ["!".toList, "\x7b".toList, "if".toList, "then".toList, "elif".toList, "else".toList,
    "while".toList, "until".toList, "do".toList]

/-- The reserved words that no command follows. -/
def CLOSING : List Text := ["\x7d".toList, "fi".toList, "done".toList, "esac".toList]

/-- A reserved word is written without quotes. -/
def is_reserved (reserved : List Text) (word : List (Char × Role)) : Bool :=
  word.all (fun a => a.2 = .plain) && reserved.contains (literal word)

/-! ### The program of a simple command -/

/-- The name of a program, without its directory. -/
def base_name (program : Text) : Text := program.rtakeWhile fun c => c ≠ '/'

inductive Launcher where
  | env
  | exec
  | command
  deriving DecidableEq, Repr

/-- The program that runs its arguments as a command, if a word is one.  It is
    known by its base name, the built-in commands by their names. -/
def launcher_of (word : Text) : Option Launcher :=
  if word = "exec".toList then some .exec
  else if word = "command".toList then some .command
  else if base_name word = "env".toList then some .env
  else none

/-- What a launcher passes over: its options, and for `env` assignments. -/
def passes_over (launcher : Launcher) (word : Text) : Bool :=
  word.head? = some '-' ||
    launcher = .env && word.contains '=' && is_name (word.takeWhile fun c => c ≠ '=')

/-- The program that words run, behind a launcher or at the start.  A launcher
    without a command behind it runs itself. -/
def launched : Option Launcher → List Text → Option Text
  | _, [] => none
  | behind, word :: rest =>
      if behind.any fun launcher => passes_over launcher word then launched behind rest
      else
        match launcher_of word with
        | some launcher => (launched (some launcher) rest).or (some word)
        | none => some word

/-- The program that a simple command runs, if it runs one. -/
def SimpleCommand.runs (command : SimpleCommand) : Option Text :=
  let words := command.words.dropWhile (is_reserved RESERVED)
  if words.head?.any (is_reserved CLOSING) then none
  else launched none ((words.dropWhile is_assignment).map literal)

example : (simple_commands "A=\"x ls\" python3 y; env -i B=1 exec ls".toList).map
    SimpleCommand.runs = [some "python3".toList, some "ls".toList] := by decide

end Posix
