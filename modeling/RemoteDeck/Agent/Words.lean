import RemoteDeck.Agent.Plan
import RemoteDeck.Command.Directory
import RemoteDeck.Lib.Tokens

/-! # The words of a plan

    What a POSIX shell reads in the commands of a plan: the words that are
    intended, whatever the workspace and the selector are, and no operator
    beside those of the templates.

    This file defines:
    - `directory_of`: what a workspace stands for
    - `intended_items`: the words and operators that each plan is made to run
    - `Denotes`: a text is one word
-/

namespace Agent

open Tokens

/-! ### What is intended -/

/-- What a workspace stands for, for a value of `HOME`. -/
def directory_of (workspace : Text) : Text → Text := fun home =>
  if workspace = "~".toList then home else Command.directory_of workspace home

/-- Words that are separated by single spaces. -/
def words (text : String) : List Item := (text.toList.splitOn ' ').map fun word => .word fun _ => word

def operator (symbol : String) : Item := .operator symbol.toList

/-- Errors are thrown away and a failure is none. -/
def quiet : List Item :=
  [.number fun _ => "2".toList, operator ">"] ++ words "/dev/null" ++ [operator "||"] ++ words "true"

def install_items : AgentProvider → List Item
  | .Codex => words "curl -fsSL https://chatgpt.com/codex/install.sh" ++ [operator "|"] ++ words "sh"
  | .ClaudeCode => words "npm install -g @anthropic-ai/claude-code"
  | .GeminiCli => words "npm install -g @google/gemini-cli"
  | .OpenCode => words "curl -fsSL https://opencode.ai/install" ++ [operator "|"] ++ words "bash"

def status_items : AgentProvider → List (List Item)
  | .Codex => [words "codex login status" ++ quiet]
  | .OpenCode => [words "opencode auth list" ++ quiet]
  | .ClaudeCode | .GeminiCli => []

/-- A command in the workspace. -/
def workspace_items (workspace : Text) (command : String) : List Item :=
  words "cd --" ++ [.word (directory_of workspace), operator "&&"] ++ words command

def session_items (library : Library) (request : AgentPlanRequest) (invocation : Text) : List Item :=
  match request.resume_session with
  | some selector => words "exec tmux attach-session -t" ++ [.word fun _ => selector]
  | none =>
      words "exec tmux new-session -A -s" ++
        [.word fun _ => session_name library request.provider request.host_id request.workspace] ++
        words "-c" ++ [.word (directory_of request.workspace), .word fun _ => invocation]

/-- The words and operators of the commands for a request. -/
def intended_items (library : Library) (request : AgentPlanRequest) : List (List Item) :=
  let provider := request.provider
  let executable : Item := .word fun _ => provider.executable
  match request.action with
  | .Probe =>
      [words "command -v" ++ [executable] ++ quiet, [executable] ++ words "--version" ++ quiet,
        [executable] ++ words "--help" ++ quiet] ++ status_items provider
  | .Install => [install_items provider]
  | .Login => [workspace_items request.workspace (login_command provider)]
  | .Update => [workspace_items request.workspace (update_command provider)]
  | .Start => [session_items library request provider.executable]
  | .Resume => [session_items library request (resume_invocation provider)]

/-- A text is one word, with this value. -/
def Denotes (t : Text) (value : Text → Text) : Prop := reading t = some [.word value]

/-! ### Quoted texts -/

/-- The inside of a quoted text, with the quote at its end. -/
theorem read_quoted (done : List Token) (value : Text) (parts : List Part) :
    read ⟨done, .single parts⟩ (Text.replace_char '\'' "'\\''".toList value ++ ['\'']) =
      some ⟨done, .word (parts ++ literals value) false⟩ := by
  induction value generalizing parts with
  | nil =>
    show some (⟨done, .word parts false⟩ : Lexer) = some ⟨done, .word (parts ++ []) false⟩
    rw [List.append_nil]
  | cons c value ih =>
    have hparts : parts ++ literals (c :: value) = (parts ++ [.literal c]) ++ literals value := by
      rw [List.append_assoc]
      rfl
    rw [hparts, ← ih]
    unfold Text.replace_char
    rw [List.flatMap_cons]
    split_ifs with hc
    · -- the quotes end, a quote is escaped, the quotes begin again
      subst hc
      rfl
    · show read _ (c :: _) = _
      rw [read_cons]
      show (if c = '\'' then _ else _ : Option Lexer).bind _ = _
      rw [if_neg hc]
      rfl

/-- **A quoted text is one word**, and is that text. -/
theorem posix_quote_word (value : Text) : IsWord (Command.posix_quote value) (literals value) :=
  fun done => ⟨false, read_quoted done value []⟩

theorem home_word : IsWord "\"$HOME\"".toList [.home] := fun _ => ⟨false, rfl⟩

theorem below_home_word (value : Text) :
    IsWord ("\"$HOME\"/".toList ++ Command.posix_quote value) (.home :: literals ('/' :: value)) :=
  fun done => ⟨false, read_quoted done value [.home, .literal '/']⟩

theorem denotes_of_word {t : Text} {parts : List Part} {value : Text → Text} (h : IsWord t parts)
    (hvalue : ∀ home, expand home parts = value home) : Denotes t value := by
  unfold Denotes
  rw [h.reading, funext hvalue]

theorem denotes_posix_quote (value : Text) : Denotes (Command.posix_quote value) fun _ => value :=
  denotes_of_word (posix_quote_word value) fun home => expand_literals home value

/-! ### Quoted paths -/

/-- The value of `HOME`, and a path below it. -/
theorem expand_below_home (home relative : Text) :
    expand home (.home :: literals ('/' :: relative)) = home ++ '/' :: relative := by
  show home ++ expand home (literals ('/' :: relative)) = _
  rw [expand_literals]

theorem command_shell_path_word (path : Text) : ∃ parts, IsWord (Command.shell_path path) parts ∧
    ∀ home, expand home parts = Command.directory_of path home := by
  unfold Command.shell_path Command.directory_of
  cases Text.strip_leading path "~/".toList with
  | none => exact ⟨_, posix_quote_word path, fun home => expand_literals home path⟩
  | some relative => exact ⟨_, below_home_word relative, fun home => expand_below_home home relative⟩

/-- A workspace is one word. -/
theorem shell_path_word (path : Text) : ∃ parts, IsWord (shell_path path) parts ∧
    ∀ home, expand home parts = directory_of path home := by
  unfold shell_path directory_of
  split_ifs with hhome
  · exact ⟨_, home_word, fun home => List.append_nil home⟩
  · exact command_shell_path_word path

theorem ssh_shell_path_word (path : Text) : ∃ parts, IsWord (Ssh.shell_path path) parts ∧
    ∀ home, expand home parts = Ssh.directory_of path home := by
  unfold Ssh.shell_path Ssh.directory_of
  split_ifs with hhome
  · exact ⟨_, home_word, fun home => List.append_nil home⟩
  · exact command_shell_path_word path

/-! ### Templates -/

/-- The tokens of words that are separated by single spaces. -/
def plain (text : String) : List Token := (text.toList.splitOn ' ').map fun word => .word (literals word)

theorem items_plain (text : String) : (plain text).map Token.item = words text := by
  unfold plain words
  rw [List.map_map]
  exact List.map_congr_left fun word _ => item_literals word

theorem reading_plain {text : String} (h : tokens text.toList = some (plain text)) :
    reading text.toList = some (words text) := by
  unfold reading
  rw [h, Option.map_some, items_plain]

/-- Words of a template before something else. -/
theorem reading_words {text : String} {front b : Text} {items : List Item}
    (hfront : read ⟨[], .between⟩ front = some ⟨plain text, .between⟩) (hb : reading b = some items) :
    reading (front ++ b) = some (words text ++ items) := by
  rw [reading_append hfront hb, items_plain]

def quiet_tokens : List Token :=
  [.io_number (literals "2".toList), .operator ">".toList] ++ plain "/dev/null" ++
    [.operator "||".toList] ++ plain "true"

theorem items_quiet : quiet_tokens.map Token.item = quiet := by
  have hnumber : (Token.io_number (literals "2".toList)).item = .number fun _ => "2".toList := by
    unfold Token.item
    simp only [expand_literals]
  unfold quiet_tokens quiet
  simp only [List.map_append, List.map_cons, List.map_nil, items_plain, hnumber]
  rfl

theorem reading_quieted {text : String}
    (h : tokens (text.toList ++ QUIET) = some (plain text ++ quiet_tokens)) :
    reading (text.toList ++ QUIET) = some (words text ++ quiet) := by
  unfold reading
  rw [h, Option.map_some, List.map_append, items_plain, items_quiet]

/-- What throws errors away, behind the blank. -/
theorem reading_quiet : ∃ rest, QUIET = ' ' :: rest ∧ reading rest = some quiet := by
  have htokens : tokens "2>/dev/null || true".toList = some quiet_tokens := by decide +kernel
  refine ⟨"2>/dev/null || true".toList, rfl, ?_⟩
  unfold reading
  rw [htokens, Option.map_some, items_quiet]

/-- A word whose errors are thrown away. -/
theorem reading_then_quiet {t : Text} (h : IsWord t (literals t)) :
    reading (t ++ QUIET) = some ((.word fun _ => t) :: quiet) := by
  obtain ⟨rest, hrest, hquiet⟩ := reading_quiet
  rw [hrest, h.reading_blank hquiet]
  simp only [expand_literals]

/-- A download that is piped into a shell. -/
theorem reading_piped {whole text last : String}
    (h : tokens whole.toList = some (plain text ++ [.operator "|".toList] ++ plain last)) :
    reading whole.toList = some (words text ++ [operator "|"] ++ words last) := by
  unfold reading
  rw [h, Option.map_some, List.map_append, List.map_append, items_plain, items_plain]
  rfl

theorem reading_install (provider : AgentProvider) :
    reading (install_command provider).toList = some (install_items provider) := by
  cases provider with
  | ClaudeCode | GeminiCli => exact reading_plain (by decide +kernel)
  | Codex | OpenCode => exact reading_piped (by decide +kernel)

theorem reading_login (provider : AgentProvider) :
    reading (login_command provider).toList = some (words (login_command provider)) := by
  cases provider <;> exact reading_plain (by decide +kernel)

theorem reading_update (provider : AgentProvider) :
    reading (update_command provider).toList = some (words (update_command provider)) := by
  cases provider <;> exact reading_plain (by decide +kernel)

theorem executable_word (provider : AgentProvider) :
    IsWord provider.executable (literals provider.executable) := by
  intro done
  cases provider <;> exact ⟨true, rfl⟩

theorem reading_status (provider : AgentProvider) :
    (status_commands provider).map (fun command => reading command.command) =
      (status_items provider).map some := by
  cases provider with
  | ClaudeCode | GeminiCli => rfl
  | Codex =>
    have hstatus : reading ("codex login status".toList ++ QUIET) =
        some (words "codex login status" ++ quiet) :=
      reading_quieted (by decide +kernel)
    exact congrArg (fun item => [item]) hstatus
  | OpenCode =>
    have hlist : reading ("opencode auth list".toList ++ QUIET) =
        some (words "opencode auth list" ++ quiet) :=
      reading_quieted (by decide +kernel)
    exact congrArg (fun item => [item]) hlist

/-- An option of a program, whose errors are thrown away. -/
theorem reading_option (provider : AgentProvider) {option : String}
    (h : IsWord option.toList (literals option.toList)) :
    reading (provider.executable ++ ' ' :: (option.toList ++ QUIET)) =
      some ((.word fun _ => provider.executable) :: (.word fun _ => option.toList) :: quiet) := by
  rw [(executable_word provider).reading_blank (reading_then_quiet h)]
  simp only [expand_literals]

theorem reading_probe (provider : AgentProvider) :
    (probe_plan provider).commands.map (fun command => reading command.command) =
      [some (words "command -v" ++ [.word fun _ => provider.executable] ++ quiet),
        some ([.word fun _ => provider.executable] ++ words "--version" ++ quiet),
        some ([.word fun _ => provider.executable] ++ words "--help" ++ quiet)] ++
      (status_items provider).map some := by
  have hfront : read ⟨[], .between⟩ "command -v ".toList = some ⟨plain "command -v", .between⟩ := by
    decide +kernel
  have hlocate : reading ("command -v ".toList ++ provider.executable ++ QUIET) =
      some (words "command -v" ++ [.word fun _ => provider.executable] ++ quiet) := by
    rw [List.append_assoc, reading_words hfront (reading_then_quiet (executable_word provider)),
      List.append_assoc]
    rfl
  have hversion : reading (provider.executable ++ " --version".toList ++ QUIET) =
      some ([.word fun _ => provider.executable] ++ words "--version" ++ quiet) := by
    have hblank : " --version".toList = ' ' :: "--version".toList := rfl
    have hword : IsWord "--version".toList (literals "--version".toList) := fun _ => ⟨true, rfl⟩
    rw [hblank, List.append_assoc, List.cons_append, reading_option provider hword]
    rfl
  have hhelp : reading (provider.executable ++ " --help".toList ++ QUIET) =
      some ([.word fun _ => provider.executable] ++ words "--help" ++ quiet) := by
    have hblank : " --help".toList = ' ' :: "--help".toList := rfl
    have hword : IsWord "--help".toList (literals "--help".toList) := fun _ => ⟨true, rfl⟩
    rw [hblank, List.append_assoc, List.cons_append, reading_option provider hword]
    rfl
  unfold probe_plan base_plan capture
  simp only [List.map_append, List.map_cons, List.map_nil, reading_status, hlocate, hversion, hhelp]

/-- A command in a workspace. -/
theorem reading_workspace (workspace : Text) {command : String}
    (h : reading command.toList = some (words command)) :
    reading (in_workspace command.toList workspace) = some (workspace_items workspace command) := by
  obtain ⟨parts, hword, hvalue⟩ := shell_path_word workspace
  have hand : read ⟨[], .between⟩ "&& ".toList = some ⟨[.operator "&&".toList], .between⟩ := by
    decide +kernel
  have hchange : read ⟨[], .between⟩ "cd -- ".toList = some ⟨plain "cd --", .between⟩ := by
    decide +kernel
  have hcommand := reading_words hchange (hword.reading_blank (reading_append hand h))
  have hblank : " && ".toList = ' ' :: "&& ".toList := rfl
  unfold in_workspace workspace_items
  rw [hblank, List.append_assoc, List.append_assoc, List.cons_append, hcommand, funext hvalue]
  rfl

/-- A session that is attached to, or made in the workspace. -/
theorem reading_session {library : Library} {request : AgentPlanRequest} {invocation : Text}
    {action : AgentAction} {plan : AgentCommandPlan}
    (h : provider_tmux_plan library request invocation action = .ok plan) :
    plan.commands.map (fun command => reading command.command) =
      [some (session_items library request invocation)] := by
  unfold provider_tmux_plan at h
  unfold session_items
  cases hselector : request.resume_session with
  | some selector =>
    rw [hselector] at h
    obtain rfl := Except.ok.inj h
    have hattach : read ⟨[], .between⟩ "exec tmux attach-session -t ".toList =
        some ⟨plain "exec tmux attach-session -t", .between⟩ := by
      decide +kernel
    have hcommand := reading_words hattach (posix_quote_word selector).reading
    simp only [expand_literals] at hcommand
    exact congrArg (fun item => [item]) hcommand
  | none =>
    rw [hselector] at h
    obtain ⟨session, hsession, h⟩ := Outcome.bind_eq_ok.mp h
    obtain rfl := Except.ok.inj h
    obtain rfl : session_name library request.provider request.host_id request.workspace = session := by
      obtain ⟨_, hsession⟩ := Outcome.ite_error_eq_ok.mp hsession
      obtain ⟨_, _, hsession⟩ := Outcome.bind_eq_ok.mp hsession
      exact Except.ok.inj hsession
    obtain ⟨parts, hword, hvalue⟩ := shell_path_word request.workspace
    have hnew : read ⟨[], .between⟩ "exec tmux new-session -A -s ".toList =
        some ⟨plain "exec tmux new-session -A -s", .between⟩ := by
      decide +kernel
    have hdirectory : read ⟨[], .between⟩ "-c ".toList = some ⟨plain "-c", .between⟩ := by
      decide +kernel
    have hcommand := reading_words hnew ((posix_quote_word
      (session_name library request.provider request.host_id request.workspace)).reading_blank
        (reading_words hdirectory (hword.reading_blank (posix_quote_word invocation).reading)))
    simp only [expand_literals] at hcommand
    rw [funext hvalue] at hcommand
    refine congrArg (fun item => [item]) (Eq.trans (congrArg reading ?_) (hcommand.trans ?_))
    · show "exec tmux new-session -A -s ".toList ++ Command.posix_quote _ ++ ' ' :: "-c ".toList ++
        shell_path request.workspace ++ [' '] ++ Command.posix_quote invocation = _
      simp only [List.append_assoc, List.cons_append, List.nil_append]
    · simp only [List.append_assoc, List.cons_append, List.nil_append]

/-! ### All plans -/

theorem commands_of_plan {library : Library} {request : AgentPlanRequest} {plan : AgentCommandPlan}
    (h : plan_agent_action library request = .ok plan) :
    plan.commands.map (fun command => reading command.command) =
      (intended_items library request).map some := by
  unfold plan_agent_action at h
  obtain ⟨_, _, h⟩ := Outcome.bind_eq_ok.mp h
  obtain ⟨made, hmade, h⟩ := Outcome.bind_eq_ok.mp h
  obtain ⟨_, _, h⟩ := Outcome.bind_eq_ok.mp h
  obtain rfl := Except.ok.inj h
  show made.commands.map _ = _
  unfold action_plan at hmade
  unfold intended_items
  dsimp only
  cases haction : request.action with
  | Probe =>
    rw [haction] at hmade
    obtain rfl := Except.ok.inj hmade
    rw [reading_probe, List.map_append]
    rfl
  | Install =>
    rw [haction] at hmade
    obtain rfl := Except.ok.inj hmade
    exact congrArg (fun item => [item]) (reading_install request.provider)
  | Login =>
    rw [haction] at hmade
    obtain rfl := Except.ok.inj hmade
    exact congrArg (fun item => [item]) (reading_workspace request.workspace (reading_login request.provider))
  | Update =>
    rw [haction] at hmade
    obtain rfl := Except.ok.inj hmade
    exact congrArg (fun item => [item]) (reading_workspace request.workspace (reading_update request.provider))
  | Start =>
    rw [haction] at hmade
    exact reading_session hmade
  | Resume =>
    rw [haction] at hmade
    exact reading_session hmade

/-- **Plans run the intended words**: the commands of every plan that is made
    have the words and operators of its template, with the workspace, the
    session and the invocation as one word each; and quoted texts and paths are
    one word, in which only a leading `~` is replaced. -/
theorem plans_run_intended_words :
    (∀ (library : Library) (request : AgentPlanRequest) (plan : AgentCommandPlan),
      plan_agent_action library request = .ok plan →
        plan.commands.map (fun command => reading command.command) =
          (intended_items library request).map some) ∧
    (∀ value, Denotes (shell_quote value) (fun _ => value) ∧
      Denotes (Command.posix_quote value) fun _ => value) ∧
    ∀ path, Denotes (shell_path path) (directory_of path) ∧
      Denotes (Ssh.shell_path path) (Ssh.directory_of path) := by
  refine ⟨fun _ _ _ h => commands_of_plan h, fun value => ?_, fun path => ?_⟩
  · exact ⟨denotes_posix_quote value, denotes_posix_quote value⟩
  · obtain ⟨parts, hword, hvalue⟩ := shell_path_word path
    obtain ⟨parts', hword', hvalue'⟩ := ssh_shell_path_word path
    exact ⟨denotes_of_word hword hvalue, denotes_of_word hword' hvalue'⟩

/-! ### A plan for a workspace with a quote -/

def lab_library : Library where
  parse_uuid _ := true
  sha256 := id

def lab_request : AgentPlanRequest where
  provider := .Codex
  action := .Login
  host_id := "host".toList
  workspace := "~/it's; rm".toList
  resume_session := none

theorem lab_planned :
    plan_agent_action lab_library lab_request = .ok (login_plan .Codex lab_request.workspace) := by
  decide +kernel

/-- The workspace is one word below `HOME`, and its semicolon no operator. -/
theorem lab_plan_words :
    (login_plan .Codex lab_request.workspace).commands.map (fun command => reading command.command) =
      [some [.word fun _ => "cd".toList, .word fun _ => "--".toList,
        .word fun home => home ++ "/it's; rm".toList, .operator "&&".toList,
        .word fun _ => "exec".toList, .word fun _ => "codex".toList, .word fun _ => "login".toList]] :=
  (plans_run_intended_words.1 lab_library lab_request _ lab_planned).trans rfl

end Agent
