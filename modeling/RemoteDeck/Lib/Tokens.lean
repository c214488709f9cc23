import RemoteDeck.Lib.Text

/-! # The tokens of a POSIX shell

    Token recognition reads a text once, character by character: a character
    belongs to the operator or the word before it, or begins a new one.  In a
    word, quotes and backslashes make characters literal, and in double
    quotes `$HOME` is replaced by the value of `HOME`.

    This file defines:
    - `Part`, `expand`: what a word is made of, and what it expands to
    - `Token`, `tokens`: the words, numbers and operators of a text
    - `Item`, `reading`: the tokens with what their words expand to
    - `IsWord`: a text that is a single word wherever it begins

    A text with any other expansion, with a here-document or with a line
    continuation has no reading here, nor has one that ends in quotes.
-/

namespace Tokens

/-- A character of a word, or `$HOME` in double quotes. -/
inductive Part where
  | literal (c : Char)
  | home
  deriving DecidableEq, Repr

def Part.expand (home : Text) : Part → Text
  | .literal c => [c]
  | .home => home

/-- What a word expands to. -/
def expand (home : Text) (parts : List Part) : Text := parts.flatMap (Part.expand home)

/-- The word that is a text. -/
def literals (t : Text) : List Part := t.map .literal

inductive Token where
  | word (parts : List Part)
  | io_number (digits : List Part)
  | operator (symbol : Text)
  deriving DecidableEq, Repr

/-! ### Recognition -/

/-- Where the reader is.  A bare word has no quotes so far. -/
inductive Place where
  | between
  | word (parts : List Part) (bare : Bool)
  | escaped (parts : List Part)
  | single (parts : List Part)
  | double (parts : List Part)
  | double_escaped (parts : List Part)
  | parameter (parts : List Part) (name : Text)
  | operator (symbol : Text)
  | comment
  deriving DecidableEq, Repr

structure Lexer where
  done : List Token
  place : Place
  deriving DecidableEq, Repr

def is_blank (c : Char) : Bool := c = ' ' || c = '\t'

def OPERATORS : List Text :=
  [['&'], ['|'], [';'], ['<'], ['>'], ['('], [')'], ['\n'], ['&', '&'], ['|', '|'], [';', ';'],
    ['>', '>'], ['<', '&'], ['>', '&'], ['<', '>'], ['>', '|']]

def begins_operator (c : Char) : Bool := OPERATORS.contains [c]

/-- Characters that begin an expansion outside quotes. -/
def expands (c : Char) : Bool := ['$', '\x60', '*', '?', '[', '~'].contains c

/-- A character of a word, outside quotes. -/
def extend (done : List Token) (parts : List Part) (bare : Bool) (c : Char) : Option Lexer :=
  if c = '\\' then some ⟨done, .escaped parts⟩
  else if c = '\'' then some ⟨done, .single parts⟩
  else if c = '"' then some ⟨done, .double parts⟩
  else if expands c then none
  else some ⟨done, .word (parts ++ [.literal c]) bare⟩

/-- A character that belongs to nothing before it. -/
def start_token (done : List Token) (c : Char) : Option Lexer :=
  if is_blank c then some ⟨done, .between⟩
  else if begins_operator c then some ⟨done, .operator [c]⟩
  else if c = '#' then some ⟨done, .comment⟩
  else extend done [] true c

/-- A word of digits right before a redirection is the number of a file. -/
def end_word (parts : List Part) (bare : Bool) (c : Char) : Token :=
  let is_digit : Part → Bool
    | .literal c => c.isDigit
    | .home => false
  if bare && parts.all is_digit && (c = '<' || c = '>') then .io_number parts else .word parts

/-- A character in double quotes. -/
def quote_double (done : List Token) (parts : List Part) (c : Char) : Option Lexer :=
  if c = '"' then some ⟨done, .word parts false⟩
  else if c = '\\' then some ⟨done, .double_escaped parts⟩
  else if c = '$' then some ⟨done, .parameter parts []⟩
  else if c = '\x60' then none
  else some ⟨done, .double (parts ++ [.literal c])⟩

def step (lexer : Lexer) (c : Char) : Option Lexer :=
  let done := lexer.done
  match lexer.place with
  | .between => start_token done c
  | .word parts bare =>
      if is_blank c || begins_operator c then start_token (done ++ [end_word parts bare c]) c
      else extend done parts bare c
  | .escaped parts =>
      if c = '\n' then none else some ⟨done, .word (parts ++ [.literal c]) false⟩
  | .single parts =>
      if c = '\'' then some ⟨done, .word parts false⟩
      else some ⟨done, .single (parts ++ [.literal c])⟩
  | .double parts => quote_double done parts c
  | .double_escaped parts =>
      if c = '\n' then none
      else if ['$', '\x60', '"', '\\'].contains c then some ⟨done, .double (parts ++ [.literal c])⟩
      else some ⟨done, .double (parts ++ [.literal '\\', .literal c])⟩
  | .parameter parts name =>
      if c.isAlphanum || c = '_' then some ⟨done, .parameter parts (name ++ [c])⟩
      else if name = ['H', 'O', 'M', 'E'] then quote_double done (parts ++ [.home]) c
      else none
  | .operator symbol =>
      if symbol ++ [c] = ['<', '<'] then none
      else if OPERATORS.contains (symbol ++ [c]) then some ⟨done, .operator (symbol ++ [c])⟩
      else start_token (done ++ [.operator symbol]) c
  | .comment => if c = '\n' then start_token done c else some lexer

def read (lexer : Lexer) (t : Text) : Option Lexer := t.foldlM step lexer

/-- The tokens at the end of a text. -/
def Lexer.finish (lexer : Lexer) : Option (List Token) :=
  match lexer.place with
  | .between | .comment => some lexer.done
  | .word parts _ => some (lexer.done ++ [.word parts])
  | .operator symbol => some (lexer.done ++ [.operator symbol])
  | .escaped _ | .single _ | .double _ | .double_escaped _ | .parameter _ _ => none

def tokens (t : Text) : Option (List Token) := do
  let lexer ← read ⟨[], .between⟩ t
  lexer.finish

/-! ### Readings -/

/-- What a token stands for, for each value of `HOME`. -/
inductive Item where
  | word (value : Text → Text)
  | number (digits : Text → Text)
  | operator (symbol : Text)

def Token.item : Token → Item
  | .word parts => .word fun home => expand home parts
  | .io_number digits => .number fun home => expand home digits
  | .operator symbol => .operator symbol

def reading (t : Text) : Option (List Item) := (tokens t).map (List.map Token.item)

@[simp] theorem expand_literals (home t : Text) : expand home (literals t) = t := by
  unfold expand literals
  rw [List.flatMap_map]
  exact List.flatMap_singleton' t

theorem item_literals (t : Text) : (Token.word (literals t)).item = .word fun _ => t := by
  unfold Token.item
  simp only [expand_literals]

/-! ### Reading on -/

theorem read_append (lexer : Lexer) (a b : Text) :
    read lexer (a ++ b) = (read lexer a).bind fun lexer => read lexer b := List.foldlM_append

theorem read_cons (lexer : Lexer) (c : Char) (t : Text) :
    read lexer (c :: t) = (step lexer c).bind fun lexer => read lexer t := List.foldlM_cons

/-- The same reader behind more tokens. -/
def Lexer.after (front : List Token) (lexer : Lexer) : Lexer := { lexer with done := front ++ lexer.done }

section
variable (front done : List Token) (parts : List Part) (bare : Bool) (c : Char)

theorem extend_after : extend (front ++ done) parts bare c =
    (extend done parts bare c).map (Lexer.after front) := by
  unfold extend
  split_ifs <;> rfl

theorem start_token_after : start_token (front ++ done) c =
    (start_token done c).map (Lexer.after front) := by
  unfold start_token
  split_ifs
  · rfl
  · rfl
  · rfl
  · exact extend_after front done [] true c

theorem quote_double_after : quote_double (front ++ done) parts c =
    (quote_double done parts c).map (Lexer.after front) := by
  unfold quote_double
  split_ifs <;> rfl

end

/-- What was recognized has no say in what follows. -/
theorem step_after (front : List Token) (lexer : Lexer) (c : Char) :
    step (lexer.after front) c = (step lexer c).map (Lexer.after front) := by
  obtain ⟨done, place⟩ := lexer
  unfold Lexer.after step
  dsimp only
  cases place with
  | between => exact start_token_after front done c
  | word parts bare =>
    dsimp only
    split_ifs
    · rw [List.append_assoc]
      exact start_token_after front _ c
    · exact extend_after front done parts bare c
  | double parts => exact quote_double_after front done parts c
  | parameter parts name =>
    dsimp only
    split_ifs
    · rfl
    · exact quote_double_after front done _ c
    · rfl
  | operator symbol =>
    dsimp only
    split_ifs
    · rfl
    · rfl
    · rw [List.append_assoc]
      exact start_token_after front _ c
  | comment =>
    dsimp only
    split_ifs
    · exact start_token_after front done c
    · rfl
  | escaped parts | single parts | double_escaped parts =>
    dsimp only
    split_ifs <;> rfl

theorem read_after (front : List Token) (lexer : Lexer) (t : Text) :
    read (lexer.after front) t = (read lexer t).map (Lexer.after front) := by
  induction t generalizing lexer with
  | nil => rfl
  | cons c t ih =>
    rw [read_cons, read_cons, step_after]
    cases step lexer c with
    | none => rfl
    | some next => exact ih next

theorem finish_after (front : List Token) (lexer : Lexer) :
    (lexer.after front).finish = lexer.finish.map (front ++ ·) := by
  obtain ⟨done, place⟩ := lexer
  cases place with
  | between | comment | escaped parts | single parts | double parts | double_escaped parts
  | parameter parts name => rfl
  | word parts bare | operator symbol => exact congrArg some (List.append_assoc ..)

/-- Behind tokens that are complete, a text is read on its own. -/
theorem tokens_append {a : Text} {front : List Token}
    (h : read ⟨[], .between⟩ a = some ⟨front, .between⟩) (b : Text) :
    tokens (a ++ b) = (tokens b).map (front ++ ·) := by
  have hstart : (⟨front, .between⟩ : Lexer) = Lexer.after front ⟨[], .between⟩ := by
    unfold Lexer.after
    rw [List.append_nil]
  unfold tokens
  rw [read_append, h, Option.bind_some, hstart, read_after]
  cases read ⟨[], .between⟩ b with
  | none => rfl
  | some lexer => exact finish_after front lexer

/-- Items before items. -/
theorem reading_append {a b : Text} {front : List Token} {items : List Item}
    (h : read ⟨[], .between⟩ a = some ⟨front, .between⟩) (hb : reading b = some items) :
    reading (a ++ b) = some (front.map Token.item ++ items) := by
  obtain ⟨more, hmore, rfl⟩ := Option.map_eq_some_iff.mp hb
  unfold reading
  rw [tokens_append h, hmore]
  exact congrArg some (List.map_append ..)

/-! ### Words -/

/-- A text that is one word wherever it begins. -/
def IsWord (t : Text) (parts : List Part) : Prop :=
  ∀ done, ∃ bare, read ⟨done, .between⟩ t = some ⟨done, .word parts bare⟩

variable {t b : Text} {parts : List Part} {items : List Item}

theorem IsWord.reading (h : IsWord t parts) :
    reading t = some [.word fun home => expand home parts] := by
  obtain ⟨bare, hread⟩ := h []
  unfold Tokens.reading tokens
  rw [hread]
  rfl

/-- A blank ends a word. -/
theorem IsWord.reading_blank (h : IsWord t parts) (hb : Tokens.reading b = some items) :
    Tokens.reading (t ++ ' ' :: b) = some (.word (fun home => expand home parts) :: items) := by
  obtain ⟨bare, hread⟩ := h []
  have hblank : read ⟨[], .between⟩ (t ++ [' ']) = some ⟨[.word parts], .between⟩ := by
    rw [read_append, hread]
    have hword : end_word parts bare ' ' = .word parts := by
      unfold end_word
      simp
    show some (⟨[] ++ [end_word parts bare ' '], .between⟩ : Lexer) = _
    rw [hword]
    rfl
  have hsplit := reading_append hblank hb
  rw [List.append_assoc] at hsplit
  exact hsplit

end Tokens
