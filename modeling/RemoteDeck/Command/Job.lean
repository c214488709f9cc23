import RemoteDeck.Command.Risk
import RemoteDeck.Store.Repository

/-! # Running a command

    `command_job.rs` from the request of a client to the start of a process
    or the hand-off to a terminal, and the entry points of `api.rs`.

    `Uuid::parse_str` is a function of a library: whether it accepts a text
    is a parameter, as is the outcome of everything that happens to a
    command after it was prepared (host leases, the job queue, the ssh
    command line, the terminal registry).
-/

namespace Command

open Store (Repository)

def MAX_WORKING_DIRECTORY_BYTES : Nat := 4096

structure CommandRunRequest where
  host_id : Text
  command_id : Option Text
  command : Option Text
  working_directory : Option Text
  confirmation : Option Text
  deriving DecidableEq, Repr

structure CommandAnalysis where
  target_alias : Text
  display_command : Text
  working_directory : Option Text
  declared_risk : CommandRisk
  effective_risk : CommandRisk
  reasons : List Text
  required_confirmation : Option Text
  deriving DecidableEq, Repr

/-- A fully resolved terminal hand-off. -/
structure PtyCommandPlan where
  host_id : Text
  command_id : Option Text
  name : Text
  command : Text
  working_directory : Option Text
  risk : CommandRisk
  deriving DecidableEq, Repr

inductive CommandJobError where
  | InvalidRequest (message : Text)
  | Repository (message : Text)
  | RiskAnalysis (message : Text)
  | ConfirmationRequired (risk : CommandRisk) (expected : Text)
  | ConfirmationMismatch (risk : CommandRisk) (expected : Text)
  | RequiresPty (plan : PtyCommandPlan)
  | RuntimeUnavailable
  | Process (message : Text)
  | UnknownJob (job_id : Text)
  deriving DecidableEq, Repr

abbrev CommandJobResult (α : Type) := Except CommandJobError α

def CommandJobError.to_string : CommandJobError → Text
  | .InvalidRequest message => "invalid command request: ".toList ++ message
  | .Repository message => "command repository error: ".toList ++ message
  | .RiskAnalysis message => "command risk analysis failed: ".toList ++ message
  | .ConfirmationRequired risk expected =>
      RiskLevel.debug risk ++ " command requires explicit confirmation using '".toList ++
        expected ++ "'".toList
  | .ConfirmationMismatch risk _ =>
      RiskLevel.debug risk ++ " command confirmation does not match".toList
  | .RequiresPty _ => "command requires a PTY and must be opened in a terminal".toList
  | .RuntimeUnavailable => "a Tokio runtime is required to start a command job".toList
  | .Process message => "command process failed: ".toList ++ message
  | .UnknownJob job_id => "unknown command job: ".toList ++ job_id

def invalid {α : Type} (message : String) : CommandJobResult α :=
  .error (.InvalidRequest message.toList)

/-- A resolved command; `command` is after the sudo wrapper and before the
    change of directory. -/
structure ResolvedCommand where
  host : HostProfile
  command_id : Option Text
  name : Text
  command : Text
  working_directory : Option Text
  declared_risk : CommandRisk
  requires_pty : Bool
  confirmation_text : Option Text
  deriving DecidableEq, Repr

structure PreparedCommand where
  host : HostProfile
  command_id : Option Text
  name : Text
  display_command : Text
  risk : CommandRisk
  deriving DecidableEq, Repr

/-! ### Texts -/

def BUILTIN : Text := "builtin:".toList

def validate_command_text (command : Text) : CommandJobResult Unit :=
  if command.trim.isEmpty || command.len > MAX_COMMAND_BYTES || command.contains '\x00' then
    invalid "command must contain 1-32768 bytes and no NUL"
  else .ok ()

def normalize_directory (value : Option Text) : CommandJobResult (Option Text) :=
  match Store.normalize_optional value with
  | none => .ok none
  | some value =>
      if value.len > MAX_WORKING_DIRECTORY_BYTES || value.contains '\x00' then
        invalid "workingDirectory is invalid"
      else .ok (some value)

def normalize_confirmation (value : Option Text) : CommandJobResult (Option Text) :=
  match Store.normalize_optional value with
  | none => .ok none
  | some value =>
      if value.length > MAX_CONFIRMATION_CHARS || value.any Text.is_control then
        invalid "preset confirmation text is invalid"
      else .ok (some value)

def posix_quote (value : Text) : Text :=
  '\'' :: Text.replace_char '\'' "'\\''".toList value ++ ['\'']

def shell_path (value : Text) : Text :=
  match Text.strip_leading value "~/".toList with
  | some relative => "\"$HOME\"/".toList ++ posix_quote relative
  | none => posix_quote value

def in_directory (command : Text) (working_directory : Option Text) : Text :=
  match working_directory.map Text.trim with
  | none => command
  | some directory =>
      if directory = [] || directory = "~".toList || directory = "~/".toList then command
      else "cd -- ".toList ++ shell_path directory ++ " && ".toList ++ command

def sudo_wrapped (command : Text) : Text := "sudo -- sh -lc ".toList ++ posix_quote command

/-! ### Resolution -/

def validate_request_shape (parse_uuid : Text → Bool) (request : CommandRunRequest) :
    CommandJobResult Unit :=
  if !parse_uuid request.host_id.trim then invalid "hostId must be a UUID"
  else if request.command_id.any fun command_id => !parse_uuid command_id.trim &&
      !(Text.strip_leading command_id.trim BUILTIN).any fun id => (builtin_preset id).isSome then
    invalid "commandId must be a UUID or a known built-in id"
  else if request.command_id.isSome && request.command.isSome then
    invalid "commandId and command are mutually exclusive"
  else if request.command_id.isNone && request.command.isNone then
    invalid "either commandId or command is required"
  else if request.confirmation.any fun confirmation =>
      confirmation.length > MAX_CONFIRMATION_CHARS || confirmation.any Text.is_control then
    invalid "confirmation is invalid"
  else .ok ()

def trusted_preset_risk (preset : CommandPreset) : CommandJobResult CommandRisk :=
  match Text.strip_leading preset.id BUILTIN with
  | none => .ok (max preset.risk .L1)
  | some id => do
      let builtin ← (builtin_preset id).ok_or
        (.InvalidRequest "unknown built-in command preset".toList)
      if preset.host_id.isSome || preset.command ≠ builtin.command ||
          preset.risk ≠ builtin.declared_risk || preset.requires_pty ≠ builtin.requires_pty ||
          preset.requires_sudo ≠ builtin.requires_sudo || preset.working_directory.isSome ||
          preset.confirmation_text.isSome then
        invalid "built-in command preset does not match its immutable definition"
      else .ok builtin.declared_risk

/-- What a request selects, before any text of it is checked. -/
structure Selection where
  command_id : Option Text
  name : Text
  raw_command : Text
  preset_directory : Option Text
  declared_risk : CommandRisk
  requires_pty : Bool
  requires_sudo : Bool
  confirmation_text : Option Text
  deriving DecidableEq, Repr

def select_preset (host : HostProfile) (preset : Option CommandPreset)
    (request : CommandRunRequest) (command_id : Text) : CommandJobResult Selection :=
  if request.command.isSome then invalid "command cannot override a selected commandId"
  else do
    let preset ← preset.ok_or
      (.InvalidRequest "commandId was not resolved from the repository".toList)
    if preset.id ≠ command_id then invalid "resolved preset does not match commandId"
    else if preset.host_id.any fun id => id ≠ host.id then
      invalid "selected command preset belongs to another host"
    else do
      let declared_risk ← trusted_preset_risk preset
      .ok
        { command_id := some preset.id
          name := preset.name
          raw_command := preset.command
          preset_directory := preset.working_directory
          declared_risk := declared_risk
          requires_pty := preset.requires_pty
          requires_sudo := preset.requires_sudo
          confirmation_text := preset.confirmation_text }

def select_ad_hoc (preset : Option CommandPreset) (request : CommandRunRequest) :
    CommandJobResult Selection :=
  if preset.isSome then invalid "a resolved preset requires commandId"
  else do
    let command ← request.command.ok_or
      (.InvalidRequest "either commandId or command is required".toList)
    .ok
      { command_id := none
        name := "Ad hoc command".toList
        raw_command := command
        preset_directory := none
        declared_risk := .L1
        requires_pty := false
        requires_sudo := false
        confirmation_text := none }

def select_command (host : HostProfile) (preset : Option CommandPreset)
    (request : CommandRunRequest) : CommandJobResult Selection :=
  match request.command_id with
  | some command_id => select_preset host preset request command_id
  | none => select_ad_hoc preset request

def resolve_command_request (parse_uuid : Text → Bool) (host : HostProfile)
    (preset : Option CommandPreset) (request : CommandRunRequest) :
    CommandJobResult ResolvedCommand := do
  validate_request_shape parse_uuid request
  if host.id ≠ request.host_id then invalid "resolved host does not match hostId"
  else do
    let selected ← select_command host preset request
    validate_command_text selected.raw_command
    let command :=
      if selected.requires_sudo then sudo_wrapped selected.raw_command.trim
      else selected.raw_command.trim
    validate_command_text command
    let working_directory ← normalize_directory
      ((request.working_directory.or selected.preset_directory).or (some host.default_workspace))
    validate_command_text (in_directory command working_directory)
    let confirmation_text ← normalize_confirmation selected.confirmation_text
    .ok
      { host := host
        command_id := selected.command_id
        name := selected.name
        command := command
        working_directory := working_directory
        declared_risk := selected.declared_risk
        requires_pty := selected.requires_pty
        confirmation_text := confirmation_text }

/-- A repository error, as the command jobs report it. -/
def repository_error (error : AppError) : CommandJobError := .Repository error.to_string

/-- Load the selected preset, if one is selected. -/
def load_preset (repository : Repository) : Option Text → CommandJobResult (Option CommandPreset)
  | none => .ok none
  | some command_id => do
      let preset ← (repository.command command_id).mapError repository_error
      .ok (some preset)

def resolve_repository_request (parse_uuid : Text → Bool) (repository : Repository)
    (request : CommandRunRequest) : CommandJobResult ResolvedCommand := do
  validate_request_shape parse_uuid request
  let host ← (repository.host request.host_id).mapError repository_error
  let preset ← load_preset repository request.command_id
  resolve_command_request parse_uuid host preset request

/-! ### Analysis and confirmation -/

def analyze_resolved_command (resolved : ResolvedCommand) : CommandJobResult CommandAnalysis := do
  let l2_confirmation := (resolved.confirmation_text.filter fun value => !value.isEmpty).getD
    resolved.host.alias.trim
  let checked ← (analyze_command resolved.command resolved.declared_risk
    (some l2_confirmation)).mapError fun error => .RiskAnalysis error.to_string
  let required_confirmation := match checked.confirmation with
    | .None => none
    | .Acknowledge => some resolved.host.alias
    | .TypeExact value => some value
  let display_command := in_directory resolved.command resolved.working_directory
  validate_command_text display_command
  .ok
    { target_alias := resolved.host.alias
      display_command := display_command
      working_directory := resolved.working_directory
      declared_risk := resolved.declared_risk
      effective_risk := checked.effective_risk
      reasons := checked.reasons
      required_confirmation := required_confirmation }

def enforce_command_confirmation (analysis : CommandAnalysis) (supplied : Option Text) :
    CommandJobResult Unit :=
  if analysis.effective_risk = .L0 then .ok ()
  else do
    let expected ← analysis.required_confirmation.ok_or
      (.RiskAnalysis "risk analysis did not provide required confirmation".toList)
    match Store.normalize_optional supplied with
    | none => .error (.ConfirmationRequired analysis.effective_risk expected)
    | some value =>
        if value ≠ expected then
          .error (.ConfirmationMismatch analysis.effective_risk expected)
        else .ok ()

def prepare_run (resolved : ResolvedCommand) (supplied_confirmation : Option Text) :
    CommandJobResult PreparedCommand := do
  let analysis ← analyze_resolved_command resolved
  enforce_command_confirmation analysis supplied_confirmation
  if resolved.requires_pty then
    .error (.RequiresPty
      { host_id := resolved.host.id
        command_id := resolved.command_id
        name := resolved.name
        command := analysis.display_command
        working_directory := resolved.working_directory
        risk := analysis.effective_risk })
  else
    .ok
      { host := resolved.host
        command_id := resolved.command_id
        name := resolved.name
        display_command := analysis.display_command
        risk := analysis.effective_risk }

/-! ### Entry points -/

/-- How starting a job fails for reasons other than its command. -/
inductive StartFailure where
  | RuntimeUnavailable
  | Process (message : Text)
  deriving DecidableEq, Repr

def StartFailure.to_error : StartFailure → CommandJobError
  | .RuntimeUnavailable => .RuntimeUnavailable
  | .Process message => .Process message

/-- What a run draws from outside the repository. -/
structure RunEnv where
  parse_uuid : Text → Bool
  now : Timestamp
  /-- The lease of the host and the runtime, before a command is prepared. -/
  begin_operation : Except StartFailure Unit
  /-- The ssh command line and the job queue, after it. -/
  start_process : Except StartFailure Unit
  start_terminal : AppResult Unit
  record_pty_handoff : Except StartFailure Unit

/-- What a run does to the world. -/
inductive Effect where
  /-- A remote process is started on a host. -/
  | process (host : HostProfile) (command : Text)
  /-- A plan for a terminal is produced. -/
  | plan (handoff : PtyCommandPlan)
  /-- A terminal is started on a host. -/
  | terminal (host : HostProfile) (command : Text)
  deriving DecidableEq, Repr

/-- The text that an effect runs. -/
def Effect.command : Effect → Text
  | .process _ command => command
  | .plan handoff => handoff.command
  | .terminal _ command => command

structure RunOutcome where
  effects : List Effect
  result : AppResult Unit

def command_error (error : CommandJobError) : AppError :=
  match error with
  | .InvalidRequest _ | .RiskAnalysis _ | .ConfirmationRequired _ _ | .ConfirmationMismatch _ _
  | .RequiresPty _ => .Validation error.to_string
  | .Repository _ | .UnknownJob _ => .NotFound error.to_string
  | .RuntimeUnavailable | .Process _ => .Process error.to_string

/-- The preset that stands for a built-in command. -/
def preset_of_builtin (now : Timestamp) (id : Text) (builtin : BuiltinPreset) : CommandPreset where
  schema_version := 2
  id := BUILTIN ++ id
  host_id := none
  name := builtin.name
  description := []
  group := builtin.group
  command := builtin.command
  working_directory := none
  risk := builtin.declared_risk
  requires_pty := builtin.requires_pty
  requires_sudo := builtin.requires_sudo
  confirmation_text := none
  sort_order := 0
  created_at := now
  updated_at := now

def resolve_command (env : RunEnv) (repository : Repository) (request : CommandRunRequest) :
    AppResult ResolvedCommand :=
  match request.command_id.bind fun id => Text.strip_leading id BUILTIN with
  | some id => do
      let builtin ← (builtin_preset id).ok_or (.NotFound ("built-in command ".toList ++ id))
      let host ← repository.host request.host_id
      (resolve_command_request env.parse_uuid host (some (preset_of_builtin env.now id builtin))
        request).mapError command_error
  | none => (resolve_repository_request env.parse_uuid repository request).mapError command_error

/-- Resolve a command and prepare it, under the leases of `run_resolved`. -/
def run_resolved (env : RunEnv) (resolved : ResolvedCommand) (confirmation : Option Text) :
    CommandJobResult PreparedCommand := do
  env.begin_operation.mapError StartFailure.to_error
  let prepared ← prepare_run resolved confirmation
  env.start_process.mapError StartFailure.to_error
  .ok prepared

/-- `run_command`.  The host of a terminal hand-off is read again, from the
    repository as it is `later`. -/
def run_command (env : RunEnv) (repository later : Repository) (request : CommandRunRequest) :
    RunOutcome :=
  match resolve_command env repository request with
  | .error e => { effects := [], result := .error e }
  | .ok resolved =>
      match run_resolved env resolved request.confirmation with
      | .ok prepared =>
          { effects := [.process prepared.host prepared.display_command], result := .ok () }
      | .error (.RequiresPty plan) =>
          match later.host plan.host_id, env.start_terminal with
          | .error e, _ => { effects := [.plan plan], result := .error e }
          | .ok _, .error e => { effects := [.plan plan], result := .error e }
          | .ok host, .ok () =>
              { effects := [.plan plan, .terminal host plan.command]
                result := env.record_pty_handoff.mapError fun e => command_error e.to_error }
      | .error e => { effects := [], result := .error (command_error e) }

end Command
