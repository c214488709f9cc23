import RemoteDeck.Command.Job
import RemoteDeck.Lib.Utf8

/-! # Plans of agent actions

    `plan_agent_action` of `agent.rs`: the commands that open, install or
    update the command-line program of a coding agent.  `Uuid::parse_str` and
    the digest of SHA-256 are functions of libraries.

    This file defines:
    - `AgentPlanRequest`, `AgentCommandPlan`, and the checks on a request
    - one plan for each action, made by `base_plan`
    - `plan_agent_action`
-/

namespace Agent

def MAX_WORKSPACE_BYTES : Nat := 4096
def MAX_SESSION_SELECTOR_BYTES : Nat := 128

inductive AgentProvider where
  | Codex
  | ClaudeCode
  | GeminiCli
  | OpenCode
  deriving DecidableEq, Repr

namespace AgentProvider

def executable : AgentProvider → Text
  | .Codex => "codex".toList
  | .ClaudeCode => "claude".toList
  | .GeminiCli => "gemini".toList
  | .OpenCode => "opencode".toList

def display_name : AgentProvider → Text
  | .Codex => "OpenAI Codex CLI".toList
  | .ClaudeCode => "Claude Code".toList
  | .GeminiCli => "Gemini CLI".toList
  | .OpenCode => "OpenCode".toList

def tmux_session_prefix : AgentProvider → Text
  | .Codex => "remotedeck-codex-".toList
  | .ClaudeCode => "remotedeck-claude-".toList
  | .GeminiCli => "remotedeck-gemini-".toList
  | .OpenCode => "remotedeck-opencode-".toList

end AgentProvider

inductive AgentAction where
  | Probe
  | Install
  | Login
  | Update
  | Start
  | Resume
  deriving DecidableEq, Repr

inductive PlanMode where
  | Capture
  | InteractivePty
  deriving DecidableEq, Repr

structure AgentPlanRequest where
  provider : AgentProvider
  action : AgentAction
  host_id : Text
  workspace : Text
  resume_session : Option Text
  deriving DecidableEq, Repr

structure PlannedCommand where
  command : Text
  mode : PlanMode
  purpose : Text
  timeout_seconds : Option Nat
  deriving DecidableEq, Repr

structure AgentCommandPlan where
  provider : AgentProvider
  action : AgentAction
  display_name : Text
  commands : List PlannedCommand
  requires_confirmation : Bool
  source_url : Option Text
  tmux_session : Option Text
  notice : Text
  deriving DecidableEq, Repr

inductive AgentPlanError where
  | InvalidHostId
  | InvalidWorkspace
  | InvalidSessionSelector
  | UnownedSessionSelector
  | UnexpectedSessionSelector
  | UnsafeGeneratedPlan
  deriving DecidableEq, Repr

/-- What libraries compute. -/
structure Library where
  parse_uuid : Text → Bool
  sha256 : List UInt8 → List UInt8

/-! ### Checks -/

def validate_workspace (value : Text) : Except AgentPlanError Unit :=
  if value.trim.isEmpty || MAX_WORKSPACE_BYTES < value.len ||
      value.any fun c => c = '\x00' || c = '\r' || c = '\n' then
    .error .InvalidWorkspace
  else .ok ()

def selector_character (c : Char) : Bool := c.isAlphanum || ['.', '_', ':', '-'].contains c

def validate_session_selector (value : Text) : Except AgentPlanError Unit :=
  if value.isEmpty || MAX_SESSION_SELECTOR_BYTES < value.len || !value.all selector_character then
    .error .InvalidSessionSelector
  else .ok ()

def is_owned_tmux_session (provider : AgentProvider) (value : Text) : Bool :=
  (value.strip_leading provider.tmux_session_prefix).any (fun suffix => !suffix.isEmpty) &&
    (validate_session_selector value).toBool

def validate_request (library : Library) (request : AgentPlanRequest) : Except AgentPlanError Unit :=
  if library.parse_uuid request.host_id = false then .error .InvalidHostId
  else do
    validate_workspace request.workspace
    match request.resume_session with
    | none => .ok ()
    | some selector =>
        if request.action ≠ .Resume then .error .UnexpectedSessionSelector
        else do
          validate_session_selector selector
          if is_owned_tmux_session request.provider selector = false then
            .error .UnownedSessionSelector
          else .ok ()

/-! ### Sessions -/

/-- `{byte:02x}`. -/
def hex_byte (byte : UInt8) : Text := [Nat.digitChar (byte.toNat / 16), Nat.digitChar (byte.toNat % 16)]

def session_name (library : Library) (provider : AgentProvider) (host_id workspace : Text) : Text :=
  let digest := library.sha256 (host_id.utf8 ++ [0] ++ workspace.utf8)
  provider.tmux_session_prefix ++ ((digest.take 6).map hex_byte).flatten

def stable_agent_tmux_session (library : Library) (provider : AgentProvider) (host_id workspace : Text) :
    Except AgentPlanError Text :=
  if library.parse_uuid host_id = false then .error .InvalidHostId
  else do
    validate_workspace workspace
    .ok (session_name library provider host_id workspace)

/-! ### Commands -/

def shell_quote (value : Text) : Text := Command.posix_quote value

def shell_path (path : Text) : Text :=
  if path = "~".toList then "\"$HOME\"".toList
  else
    match path.strip_leading "~/".toList with
    | some remainder => "\"$HOME\"/".toList ++ shell_quote remainder
    | none => shell_quote path

def in_workspace (command workspace : Text) : Text :=
  "cd -- ".toList ++ shell_path workspace ++ " && ".toList ++ command

def capture (command : Text) (purpose : String) (timeout_seconds : Nat) : PlannedCommand where
  command := command
  mode := .Capture
  purpose := purpose.toList
  timeout_seconds := some timeout_seconds

def interactive (command : Text) (purpose : String) : PlannedCommand where
  command := command
  mode := .InteractivePty
  purpose := purpose.toList
  timeout_seconds := none

structure BasePlanOptions where
  commands : List PlannedCommand
  requires_confirmation : Bool
  source_url : Option String
  tmux_session : Option Text
  notice : String

def base_plan (provider : AgentProvider) (action : AgentAction) (options : BasePlanOptions) :
    AgentCommandPlan where
  provider := provider
  action := action
  display_name := provider.display_name
  commands := options.commands
  requires_confirmation := options.requires_confirmation
  source_url := options.source_url.map String.toList
  tmux_session := options.tmux_session
  notice := options.notice.toList

/-! ### Plans -/

/-- Behind a command whose errors do not matter. -/
def QUIET : Text := " 2>/dev/null || true".toList

/-- Only two of the programs can be asked about a login. -/
def status_commands : AgentProvider → List PlannedCommand
  | .Codex => [capture ("codex login status".toList ++ QUIET)
      "Read Codex login status through the CLI only" 10]
  | .OpenCode => [capture ("opencode auth list".toList ++ QUIET)
      "List configured OpenCode providers through the CLI only" 10]
  | .ClaudeCode | .GeminiCli => []

def probe_plan (provider : AgentProvider) : AgentCommandPlan :=
  let executable := provider.executable
  base_plan provider .Probe
    { commands :=
        [ capture ("command -v ".toList ++ executable ++ QUIET) "Locate the CLI without modifying the host" 5,
          capture (executable ++ " --version".toList ++ QUIET) "Read the installed version" 10,
          capture (executable ++ " --help".toList ++ QUIET)
            "Discover capabilities advertised by this installed version" 10 ] ++ status_commands provider
      requires_confirmation := false
      source_url := none
      tmux_session := none
      notice := "Probe output is bounded by the caller and must never include credential files." }

def install_command : AgentProvider → String
  | .Codex => "curl -fsSL https://chatgpt.com/codex/install.sh | sh"
  | .ClaudeCode => "npm install -g @anthropic-ai/claude-code"
  | .GeminiCli => "npm install -g @google/gemini-cli"
  | .OpenCode => "curl -fsSL https://opencode.ai/install | bash"

def install_source : AgentProvider → String
  | .Codex => "https://chatgpt.com/codex/install.sh"
  | .ClaudeCode => "https://docs.anthropic.com/en/docs/claude-code/getting-started"
  | .GeminiCli => "https://github.com/google-gemini/gemini-cli"
  | .OpenCode => "https://opencode.ai/install"

def install_notice : AgentProvider → String
  | .Codex => "Downloads and executes the official Codex installer as the current remote user."
  | .ClaudeCode =>
      "Installs the official Claude Code npm package globally; do not prefix it with sudo."
  | .GeminiCli =>
      "Installs the official Gemini CLI npm package globally as the current remote user."
  | .OpenCode => "Downloads and executes the official OpenCode installer as the current remote user."

def install_plan (provider : AgentProvider) : AgentCommandPlan :=
  base_plan provider .Install
    { commands := [interactive (install_command provider).toList "Run the reviewed installer"]
      requires_confirmation := true
      source_url := some (install_source provider)
      tmux_session := none
      notice := install_notice provider }

def login_command : AgentProvider → String
  | .Codex => "exec codex login"
  | .ClaudeCode => "exec claude"
  | .GeminiCli => "exec gemini"
  | .OpenCode => "exec opencode auth login"

def login_plan (provider : AgentProvider) (workspace : Text) : AgentCommandPlan :=
  base_plan provider .Login
    { commands := [interactive (in_workspace (login_command provider).toList workspace)
        "Open the provider-owned interactive authentication flow"]
      requires_confirmation := false
      source_url := none
      tmux_session := none
      notice := "Credentials remain inside the provider CLI and its external authorization flow." }

def update_command : AgentProvider → String
  | .Codex => "exec codex update"
  | .ClaudeCode => "exec claude update"
  | .GeminiCli => "exec gemini update"
  | .OpenCode => "exec opencode upgrade"

def update_plan (provider : AgentProvider) (workspace : Text) : AgentCommandPlan :=
  base_plan provider .Update
    { commands := [interactive (in_workspace (update_command provider).toList workspace)
        "Run the update command advertised by the installed CLI"]
      requires_confirmation := true
      source_url := none
      tmux_session := none
      notice :=
        "Review the installed version's help output and update impact before execution." }

/-- The plan of a session.  A name that cannot be made is an error here, where
    the source relies on the checks of the request. -/
def provider_tmux_plan (library : Library) (request : AgentPlanRequest)
    (new_session_invocation : Text) (action : AgentAction) : Except AgentPlanError AgentCommandPlan :=
  match request.resume_session with
  | some selector =>
      .ok (base_plan request.provider action
        { commands := [interactive ("exec tmux attach-session -t ".toList ++ shell_quote selector)
            "Attach to the selected RemoteDeck-owned tmux session"]
          requires_confirmation := false
          source_url := none
          tmux_session := some selector
          notice := "Attached to the selected provider-specific RemoteDeck tmux session." })
  | none => do
      let session ← stable_agent_tmux_session library request.provider request.host_id request.workspace
      .ok (base_plan request.provider action
        { commands := [interactive ("exec tmux new-session -A -s ".toList ++ shell_quote session ++
              " -c ".toList ++ shell_path request.workspace ++ [' '] ++ shell_quote new_session_invocation)
            "Attach to or create the stable provider-specific RemoteDeck tmux session"]
          requires_confirmation := false
          source_url := none
          tmux_session := some session
          notice := "The provider runs with its normal permission model inside a stable RemoteDeck tmux session." })

def start_plan (library : Library) (request : AgentPlanRequest) :
    Except AgentPlanError AgentCommandPlan :=
  provider_tmux_plan library request request.provider.executable .Start

def resume_invocation : AgentProvider → Text
  | .Codex => "codex resume --last".toList
  | .ClaudeCode => "claude --continue".toList
  | .GeminiCli => "gemini --resume latest".toList
  | .OpenCode => "opencode --continue".toList

def resume_plan (library : Library) (request : AgentPlanRequest) :
    Except AgentPlanError AgentCommandPlan :=
  provider_tmux_plan library request (resume_invocation request.provider) .Resume

def FORBIDDEN : List Text :=
  ["--dangerously-bypass-approvals-and-sandbox".toList, "--dangerously-skip-permissions".toList,
    "--yolo".toList, "--auto".toList, "--auto-approve".toList]

def ensure_plan_is_safe (plan : AgentCommandPlan) : Except AgentPlanError Unit :=
  if plan.commands.any fun command =>
      FORBIDDEN.any fun option => command.command.to_ascii_lowercase.contains_text option then
    .error .UnsafeGeneratedPlan
  else .ok ()

/-- The plan of the action. -/
def action_plan (library : Library) (request : AgentPlanRequest) :
    Except AgentPlanError AgentCommandPlan :=
  match request.action with
  | .Probe => .ok (probe_plan request.provider)
  | .Install => .ok (install_plan request.provider)
  | .Login => .ok (login_plan request.provider request.workspace)
  | .Update => .ok (update_plan request.provider request.workspace)
  | .Start => start_plan library request
  | .Resume => resume_plan library request

def plan_agent_action (library : Library) (request : AgentPlanRequest) :
    Except AgentPlanError AgentCommandPlan := do
  validate_request library request
  let plan ← action_plan library request
  ensure_plan_is_safe plan
  .ok { plan with display_name := request.provider.display_name }

end Agent
