import RemoteDeck.Command.Job
import RemoteDeck.Lib.Shell

/-! # The directory of a command

    A command that is confined to a directory is sent as `cd -- DIR && ` and
    the text of the command.  This file defines:
    - `Ssh.remote_line`: how `SshRuntime::run_command` composes the line
      (`in_directory` is that of the command jobs)
    - `ReadsChange`: what a shell makes of `cd -- DIR && ` before a text
    - `target`: where a line changes to

    The directory is one word, whatever characters it has.  The operator `&&`
    binds the change of directory to the first AND-OR list of the command
    only, and in it a `||` starts what follows when the change fails.
-/

namespace Ssh

def validate_remote_command (command : Text) : AppResult Unit :=
  if command.trim.isEmpty || 32768 < command.len || command.contains '\x00' then
    .error (.Validation "remote command is invalid".toList)
  else .ok ()

def validate_remote_path (path : Text) : AppResult Unit :=
  if path.trim.isEmpty || 4096 < path.len || path.contains '\x00' then
    .error (.Validation "remote path is invalid".toList)
  else .ok ()

def shell_path (value : Text) : Text :=
  if value = "~".toList || value = "~/".toList then "\"$HOME\"".toList
  else Command.shell_path value

/-- The line that `run_command` sends. -/
def remote_line (command : Text) (working_directory : Option Text) : AppResult Text := do
  validate_remote_command command
  match working_directory.filter fun directory => !directory.trim.isEmpty with
  | some directory =>
      validate_remote_path directory
      .ok ("cd -- ".toList ++ shell_path directory.trim ++ " && ".toList ++ command)
  | none => .ok command

end Ssh

namespace Command

/-! ### The directory is one word -/

theorem replace_char_absent {c : Char} {t : Text} (by_text : Text) (h : c ∉ t) :
    Text.replace_char c by_text t = t := by
  induction t with
  | nil => rfl
  | cons d t ih =>
    have hne : d ≠ c := by
      rintro rfl
      exact h List.mem_cons_self
    have hrest := ih fun hmem => h (List.mem_cons_of_mem _ hmem)
    unfold Text.replace_char at hrest ⊢
    rw [List.flatMap_cons, if_neg hne, hrest]
    rfl

theorem posix_quote_plain {value : Text} (h : '\'' ∉ value) :
    posix_quote value = '\'' :: (value ++ ['\'']) := by
  unfold posix_quote
  rw [replace_char_absent _ h]
  rfl

theorem posix_quote_quote {a : Text} (b : Text) (h : '\'' ∉ a) :
    posix_quote (a ++ '\'' :: b) = '\'' :: (a ++ '\'' :: '\\' :: '\'' :: posix_quote b) := by
  have hsplit : Text.replace_char '\'' "'\\''".toList (a ++ '\'' :: b) =
      a ++ ("'\\''".toList ++ Text.replace_char '\'' "'\\''".toList b) := by
    have ha := replace_char_absent "'\\''".toList h
    unfold Text.replace_char at ha ⊢
    rw [List.flatMap_append, ha, List.flatMap_cons, if_pos rfl]
  unfold posix_quote
  rw [hsplit, List.cons_append, List.append_assoc]
  rfl

/-- A quoted text is one word, and expands to the text. -/
theorem posix_quote_word (value : Text) : Shell.IsWord (posix_quote value) fun _ => value := by
  induction hlength : value.length using Nat.strong_induction_on generalizing value with
  | _ n ih =>
    by_cases hquote : '\'' ∈ value
    · obtain ⟨a, b, rfl, ha⟩ := List.eq_append_cons_of_mem hquote
      rw [List.length_append, List.length_cons] at hlength
      have hrest := ih b.length (by omega) b rfl
      rw [posix_quote_quote b ha]
      exact .quoted ha (.escaped (by decide) hrest)
    · rw [posix_quote_plain hquote]
      have hword := Shell.IsWord.quoted hquote .nil
      simp only [List.append_nil] at hword
      exact hword

/-- What a directory of a request stands for. -/
def directory_of (directory : Text) : Text → Text := fun home =>
  match Text.strip_leading directory "~/".toList with
  | some relative => home ++ '/' :: relative
  | none => directory

theorem shell_path_word (value : Text) : Shell.IsWord (shell_path value) (directory_of value) := by
  unfold shell_path directory_of
  cases Text.strip_leading value "~/".toList with
  | none => exact posix_quote_word value
  | some relative =>
    have hword := Shell.IsWord.home (.plain (c := '/') (.inr rfl) (posix_quote_word relative))
    exact hword

theorem posix_quote_length (value : Text) : (posix_quote value).length ≤ 4 * value.length + 2 := by
  have hinner : (Text.replace_char '\'' "'\\''".toList value).length ≤ 4 * value.length := by
    unfold Text.replace_char
    induction value with
    | nil => exact Nat.le_refl 0
    | cons c value ih =>
      rw [List.flatMap_cons, List.length_append, List.length_cons]
      have hc : (if c = '\'' then "'\\''".toList else [c]).length ≤ 4 := by
        split
        · decide
        · exact Nat.le_of_ble_eq_true rfl
      omega
  unfold posix_quote
  simp only [List.length_cons, List.length_append, List.length_nil]
  omega

/-- A quoted text has the characters of the text and what quotes them. -/
theorem mem_posix_quote {value : Text} {c : Char} (h : c ∈ posix_quote value) :
    c ∈ value ∨ c = '\'' ∨ c = '\\' := by
  unfold posix_quote Text.replace_char at h
  rw [List.cons_append, List.mem_cons, List.mem_append, List.mem_flatMap, List.mem_singleton] at h
  rcases h with h | ⟨d, hd, hc⟩ | h
  · exact .inr (.inl h)
  · split at hc
    · have hchars : ∀ c ∈ "'\\''".toList, c = '\'' ∨ c = '\\' := Text.forall_mem_of_all (by decide)
      exact .inr (hchars c hc)
    · exact .inl (List.mem_singleton.mp hc ▸ hd)
  · exact .inr (.inl h)

theorem posix_quote_ne_nil (value : Text) : posix_quote value ≠ [] := List.cons_ne_nil _ _

theorem shell_path_ne_nil (value : Text) : shell_path value ≠ [] := by
  unfold shell_path
  split
  · exact List.cons_ne_nil _ _
  · exact posix_quote_ne_nil value

end Command

theorem Ssh.shell_path_ne_nil (value : Text) : Ssh.shell_path value ≠ [] := by
  unfold Ssh.shell_path
  split
  · exact List.cons_ne_nil _ _
  · exact Command.shell_path_ne_nil value

/-- What `run_command` takes a directory for. -/
def Ssh.directory_of (directory : Text) : Text → Text :=
  if directory = "~".toList || directory = "~/".toList then fun home => home
  else Command.directory_of directory

theorem Ssh.shell_path_word (value : Text) :
    Shell.IsWord (Ssh.shell_path value) (Ssh.directory_of value) := by
  unfold Ssh.shell_path Ssh.directory_of
  split
  · have hword := Shell.IsWord.home .nil
    simp only [List.append_nil] at hword
    exact hword
  · exact Command.shell_path_word value

namespace Command

/-! ### Where a line changes to -/

/-- The directory that a line of a command job changes to; none if the command
    stays where the login starts. -/
def target (working_directory : Option Text) : Option (Text → Text) :=
  match working_directory.map Text.trim with
  | none => none
  | some directory =>
      if directory = [] || directory = "~".toList || directory = "~/".toList then none
      else some (directory_of directory)

end Command

def Ssh.target (working_directory : Option Text) : Option (Text → Text) :=
  (working_directory.filter fun directory => !directory.trim.isEmpty).map fun directory =>
    Ssh.directory_of directory.trim

namespace Command

section
variable {Pipeline : Type} (cd : (Text → Text) → Pipeline) (parse : Text → Shell.Script Pipeline)

/-- What a shell makes of `cd -- DIR && ` before a text, for each word `DIR`:
    the change of directory is joined to the first list of the text.  `parse`
    reads a text up to its end or its first error. -/
def ReadsChange : Prop :=
  ∀ (word : Text) (f : Text → Text) (command : Text), Shell.IsWord word f → word ≠ [] →
    parse ("cd -- ".toList ++ word ++ " && ".toList ++ command) = (parse command).prepend (cd f)

/-- A line starts nothing of the command when the change of directory fails,
    and what the command starts on its own when it succeeds. -/
def LineConfined (line command : Text) : Option (Text → Text) → Prop
  | none => line = command
  | some f => ∀ (σ : Type) (exec : Pipeline → σ → Option (σ × Bool)) (s : σ),
      Shell.Confined exec (cd f) (parse line) (parse command) s

variable {cd parse}

theorem line_confined_iff (hparse : ReadsChange cd parse) {word : Text} {f : Text → Text}
    (command : Text) (hword : Shell.IsWord word f) (hne : word ≠ []) :
    LineConfined cd parse ("cd -- ".toList ++ word ++ " && ".toList ++ command) command (some f) ↔
      (parse command).IsAndList := by
  show (∀ (σ : Type) (exec : Pipeline → σ → Option (σ × Bool)) (s : σ), Shell.Confined exec (cd f)
    (parse ("cd -- ".toList ++ word ++ " && ".toList ++ command)) (parse command) s) ↔ _
  rw [hparse word f command hword hne]
  exact Shell.confined_iff (cd f) (parse command)

theorem in_directory_confined (hparse : ReadsChange cd parse) (command : Text)
    (working_directory : Option Text) :
    LineConfined cd parse (in_directory command working_directory) command
        (target working_directory) ↔
      target working_directory = none ∨ (parse command).IsAndList := by
  unfold in_directory target
  cases working_directory.map Text.trim with
  | none => exact ⟨fun _ => .inl rfl, fun _ => rfl⟩
  | some directory =>
    dsimp only
    split
    · exact ⟨fun _ => .inl rfl, fun _ => rfl⟩
    · rw [line_confined_iff hparse command (shell_path_word directory) (shell_path_ne_nil directory)]
      exact ⟨.inr, fun h => h.resolve_left (Option.some_ne_none _)⟩

theorem remote_line_confined (hparse : ReadsChange cd parse) {command line : Text}
    {working_directory : Option Text} (h : Ssh.remote_line command working_directory = .ok line) :
    LineConfined cd parse line command (Ssh.target working_directory) ↔
      Ssh.target working_directory = none ∨ (parse command).IsAndList := by
  obtain ⟨_, _, h⟩ := Outcome.bind_eq_ok.mp h
  unfold Ssh.target
  cases hdirectory : working_directory.filter fun directory => !directory.trim.isEmpty with
  | none =>
    rw [hdirectory] at h
    obtain rfl := Except.ok.inj h
    exact ⟨fun _ => .inl rfl, fun _ => rfl⟩
  | some directory =>
    rw [hdirectory] at h
    obtain ⟨_, _, h⟩ := Outcome.bind_eq_ok.mp h
    obtain rfl := Except.ok.inj h
    show LineConfined cd parse _ command (some (Ssh.directory_of directory.trim)) ↔ _
    rw [line_confined_iff hparse command (Ssh.shell_path_word directory.trim)
      (Ssh.shell_path_ne_nil directory.trim)]
    exact ⟨.inr, fun h => h.resolve_left (Option.some_ne_none _)⟩

/-- A command stays in its directory, whatever its programs do, exactly when a
    shell reads its text as one AND-OR list that is joined by `&&` only. -/
theorem directory_confines (hparse : ReadsChange cd parse) (command : Text)
    (working_directory : Option Text) :
    (LineConfined cd parse (in_directory command working_directory) command
        (target working_directory) ↔
      target working_directory = none ∨ (parse command).IsAndList) ∧
    ∀ line, Ssh.remote_line command working_directory = .ok line →
      (LineConfined cd parse line command (Ssh.target working_directory) ↔
        Ssh.target working_directory = none ∨ (parse command).IsAndList) := by
  constructor
  · exact in_directory_confined hparse command working_directory
  · intro line hline
    exact remote_line_confined hparse hline

end

/-! ### A shell that reads texts without quotes -/

inductive SimpleCommand where
  | change (directory : Text → Text)
  | other (text : Text)

/-- The lists of a text whose only operator is `;`. -/
def plain_lists (text : Text) : Shell.Script SimpleCommand :=
  (text.splitOn ';').map fun part =>
    ({ first := .other (Text.trim part), rest := [] }, .sequential)

inductive Reading where
  | plain
  | quoted
  | escaped
  | skipping (left : Nat)

/-- The word at the start of a text, and what follows it. -/
def read_word : Reading → Text → (Text → Text) × Text
  | _, [] => (fun _ => [], [])
  | .quoted, c :: rest =>
      if c = '\'' then read_word .plain rest
      else (fun home => c :: (read_word .quoted rest).1 home, (read_word .quoted rest).2)
  | .escaped, c :: rest =>
      (fun home => c :: (read_word .plain rest).1 home, (read_word .plain rest).2)
  | .skipping left, _ :: rest => read_word (if left = 0 then .plain else .skipping (left - 1)) rest
  | .plain, c :: rest =>
      if c = ' ' then (fun _ => [], c :: rest)
      else if c = '\'' then read_word .quoted rest
      else if c = '\\' then read_word .escaped rest
      else if Text.starts_with (c :: rest) "\"$HOME\"".toList then
        (fun home => home ++ (read_word (.skipping 5) rest).1 home, (read_word (.skipping 5) rest).2)
      else (fun home => c :: (read_word .plain rest).1 home, (read_word .plain rest).2)

def read_lists : Nat → Text → Shell.Script SimpleCommand
  | 0, text => plain_lists text
  | fuel + 1, text =>
      match Text.strip_leading text "cd -- ".toList with
      | none => plain_lists text
      | some rest =>
          match Text.strip_leading (read_word .plain rest).2 " && ".toList with
          | none => plain_lists text
          | some command => (read_lists fuel command).prepend (.change (read_word .plain rest).1)

/-- The lists of a text of words and `;`, with changes of directory before it. -/
def read_script (text : Text) : Shell.Script SimpleCommand := read_lists text.length text

theorem read_quoted {t : Text} (left : Text) (h : '\'' ∉ t) :
    read_word .quoted (t ++ '\'' :: left) =
      (fun home => t ++ (read_word .plain left).1 home, (read_word .plain left).2) := by
  induction t with
  | nil => rfl
  | cons c t ih =>
    have hne : c ≠ '\'' := by
      rintro rfl
      exact h List.mem_cons_self
    have hrest := ih fun hmem => h (List.mem_cons_of_mem _ hmem)
    rw [List.cons_append, read_word, if_neg hne, hrest]
    rfl

theorem read_plain {c : Char} (hc : c.isAlphanum = true ∨ c = '/') (rest : Text) :
    read_word .plain (c :: rest) =
      (fun home => c :: (read_word .plain rest).1 home, (read_word .plain rest).2) := by
  have hall : ∀ d ∈ [' ', '\'', '\\', '"'], d.isAlphanum = false ∧ d ≠ '/' :=
    Text.forall_mem_of_all (by decide)
  have hne : ∀ d ∈ [' ', '\'', '\\', '"'], c ≠ d := by
    rintro d hd rfl
    obtain ⟨hword, hslash⟩ := hall c hd
    rcases hc with hc | hc
    · rw [hc] at hword
      cases hword
    · exact hslash hc
  have hstart : Text.starts_with (c :: rest) "\"$HOME\"".toList = false := by
    have hquote : ('"' == c) = false := by
      rw [beq_eq_false_iff_ne]
      exact (hne '"' (by decide)).symm
    show ('"' == c && _) = false
    rw [hquote, Bool.false_and]
  rw [read_word, if_neg (hne ' ' (by decide)), if_neg (hne '\'' (by decide)),
    if_neg (hne '\\' (by decide)), hstart, if_neg Bool.false_ne_true]

theorem read_word_eq {word : Text} {f : Text → Text} (h : Shell.IsWord word f) (rest : Text) :
    read_word .plain (word ++ ' ' :: rest) = (f, ' ' :: rest) := by
  induction h with
  | nil => rfl
  | @quoted t w f ht _ ih =>
    have hquoted := read_quoted (w ++ ' ' :: rest) ht
    rw [ih] at hquoted
    rw [List.cons_append, List.append_assoc]
    exact hquoted
  | @escaped c w f _ _ ih =>
    have hstep : read_word .plain ('\\' :: c :: w ++ ' ' :: rest) =
        (fun home => c :: (read_word .plain (w ++ ' ' :: rest)).1 home,
          (read_word .plain (w ++ ' ' :: rest)).2) := rfl
    rw [hstep, ih]
  | @home w f _ ih =>
    have hstep : read_word .plain ("\"$HOME\"".toList ++ w ++ ' ' :: rest) =
        (fun home => home ++ (read_word .plain (w ++ ' ' :: rest)).1 home,
          (read_word .plain (w ++ ' ' :: rest)).2) := rfl
    rw [hstep, ih]
  | plain hc _ ih => rw [List.cons_append, read_plain hc, ih]

theorem read_word_length (reading : Reading) (text : Text) :
    (read_word reading text).2.length ≤ text.length := by
  induction text generalizing reading with
  | nil => cases reading <;> exact Nat.le_refl 0
  | cons c rest ih =>
    rw [List.length_cons]
    cases reading with
    | plain =>
      rw [read_word]
      split
      · exact Nat.le_refl _
      split
      · exact Nat.le_succ_of_le (ih .quoted)
      split
      · exact Nat.le_succ_of_le (ih .escaped)
      split
      · exact Nat.le_succ_of_le (ih (.skipping 5))
      · exact Nat.le_succ_of_le (ih .plain)
    | quoted =>
      rw [read_word]
      split
      · exact Nat.le_succ_of_le (ih .plain)
      · exact Nat.le_succ_of_le (ih .quoted)
    | escaped => exact Nat.le_succ_of_le (ih .plain)
    | skipping left => exact Nat.le_succ_of_le (ih _)

theorem read_lists_fuel (n m : Nat) {text : Text} (hn : text.length ≤ n) (hm : text.length ≤ m) :
    read_lists n text = read_lists m text := by
  induction n generalizing m text with
  | zero =>
    obtain rfl := List.length_eq_zero_iff.mp (Nat.le_zero.mp hn)
    cases m <;> rfl
  | succ n ih =>
    cases m with
    | zero =>
      obtain rfl := List.length_eq_zero_iff.mp (Nat.le_zero.mp hm)
      rfl
    | succ m =>
      unfold read_lists
      cases hchange : Text.strip_leading text "cd -- ".toList with
      | none => rfl
      | some rest =>
        dsimp only
        cases hand : Text.strip_leading (read_word .plain rest).2 " && ".toList with
        | none => rfl
        | some command =>
          have htext := congrArg List.length (Text.strip_leading_eq_some hchange)
          have hrest := congrArg List.length (Text.strip_leading_eq_some hand)
          have hleft := read_word_length .plain rest
          have hcd : "cd -- ".toList.length = 6 := rfl
          rw [List.length_append] at htext hrest
          have hcommand := @ih m command (by omega) (by omega)
          dsimp only
          rw [hcommand]

theorem read_script_changes : ReadsChange .change read_script := by
  intro word f command hword _
  have hchange := Text.strip_leading_append "cd -- ".toList (word ++ (" && ".toList ++ command))
  have hread : read_word .plain (word ++ (" && ".toList ++ command)) =
      (f, " && ".toList ++ command) := read_word_eq hword ("&& ".toList ++ command)
  have hand := Text.strip_leading_append " && ".toList command
  rw [List.append_assoc, List.append_assoc]
  have hlength : ("cd -- ".toList ++ (word ++ (" && ".toList ++ command))).length =
      (word.length + command.length + 9) + 1 := by
    simp
    omega
  unfold read_script
  rw [hlength]
  conv_lhs => unfold read_lists
  rw [hchange]
  dsimp only
  rw [hread]
  dsimp only
  rw [hand]
  dsimp only
  rw [read_lists_fuel (word.length + command.length + 9) command.length (by omega) (Nat.le_refl _)]

/-- One simple command stays in its directory. -/
theorem directory_confines_make :
    LineConfined .change read_script (in_directory "make test".toList (some "/srv/app".toList))
      "make test".toList (target (some "/srv/app".toList)) := by
  have hlists : (read_script "make test".toList).IsAndList := by
    constructor
    · decide
    · intro list hlist
      obtain rfl := List.mem_singleton.mp hlist
      exact nofun
  exact ((directory_confines read_script_changes "make test".toList
    (some "/srv/app".toList)).1).mpr (.inr hlists)

/-- A change of directory that fails, and programs that succeed. -/
def change_fails : SimpleCommand → Unit → Option (Unit × Bool)
  | .change _, _ => some ((), false)
  | .other _, _ => some ((), true)

/-- What follows a `;` runs where the login starts. -/
theorem tail_runs_elsewhere :
    ¬ LineConfined .change read_script (in_directory "ls; rm x".toList (some "/srv/app".toList))
        "ls; rm x".toList (target (some "/srv/app".toList)) ∧
      (Shell.Script.trace change_fails (read_script (in_directory "ls; rm x".toList
        (some "/srv/app".toList))) ()).getLast? = some (.other "rm x".toList, ()) := by
  have hlast : (Shell.Script.trace change_fails (read_script (in_directory "ls; rm x".toList
      (some "/srv/app".toList))) ()).getLast? = some (.other "rm x".toList, ()) := rfl
  refine ⟨?_, hlast⟩
  intro hconfined
  have hnothing := (hconfined Unit change_fails ()).2
  cases hnothing

end Command
