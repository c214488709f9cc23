import RemoteDeck.Migration.OpenSsh

/-! # LabPulse sources

    One host, known by its alias in the user's OpenSSH config, perhaps one
    remote forward, and command presets.
-/

namespace Migration

structure LabPulseBtop where
  enabled : Bool
  auto_restart : Bool
  command : Text
  restart_cycle_seconds : Nat
  deriving DecidableEq, Repr

structure LabPulseForward where
  auto_start : Bool
  auto_restart : Bool
  remote_bind_address : Text
  remote_port : UInt16
  local_target_address : Text
  local_target_port : UInt16
  watchdog_seconds : Nat
  release_command : Option Text
  deriving DecidableEq, Repr

structure LabPulsePreset where
  name : Text
  description : Text
  risk : Text
  confirm_token : Option Text
  command : Text
  deriving DecidableEq, Repr

structure LabPulseConfig where
  app_name : Text
  ssh_host : Text
  forward_host : Option Text
  telemetry_interval_seconds : Nat
  btop : LabPulseBtop
  forward : Option LabPulseForward
  dangerous_command_patterns : List Text
  presets : List LabPulsePreset
  deriving DecidableEq, Repr

def validate_labpulse_config (config : LabPulseConfig) : AppResult Unit :=
  if config.app_name.trim.isEmpty || config.app_name.len > 512 ||
      config.app_name.any Text.is_control ||
      !(1 ≤ config.telemetry_interval_seconds && config.telemetry_interval_seconds ≤ 60) ||
      config.btop.command.len > 32768 ||
      !(60 ≤ config.btop.restart_cycle_seconds && config.btop.restart_cycle_seconds ≤ 86400) ||
      config.dangerous_command_patterns.length > 128 ||
      (config.dangerous_command_patterns.any fun pattern =>
        pattern.isEmpty || pattern.len > 1024 || pattern.contains '\x00') ||
      config.presets.length > 256 then
    .error (.Validation "LabPulse configuration is invalid".toList)
  else if config.forward.any fun forward =>
      forward.watchdog_seconds = 0 || forward.watchdog_seconds > 3600 ||
        forward.release_command.any fun command =>
          command.trim.isEmpty || command.len > 16384 || command.contains '\x00' then
    .error (.Validation "LabPulse forward configuration is invalid".toList)
  else .ok ()

def fallback_username (env : Environment) : Text :=
  (((env.USERNAME.or env.USER).map Text.trim).filter fun value =>
    !value.isEmpty && value.len ≤ 128 && value.head? ≠ some '-' &&
      !value.any Text.is_whitespace && !value.any Text.is_control).getD "user".toList

/-- The host before the OpenSSH config is consulted. -/
def fallback_host (env : Environment) (host_alias : Text) : HostDraft where
  id := none
  «alias» := host_alias
  hostname := host_alias
  port := 22
  username := fallback_username env
  auth_method := some .Interactive
  identity_file := none
  proxy_jump := none
  default_workspace := some "~".toList
  groups := ["legacy-import".toList, "labpulse".toList]
  advanced := none
  monitor_enabled := some true

/-- The host as a candidate of the OpenSSH config describes it. -/
def host_of_candidate (host : HostDraft) (candidate : OpenSshHostCandidate) : HostDraft :=
  { host with
    hostname := candidate.hostname
    port := candidate.port
    username := candidate.username.getD host.username
    identity_file := candidate.identity_file
    auth_method := some (if candidate.identity_file.isSome then .PrivateKey else .Interactive)
    proxy_jump := candidate.proxy_jump
    advanced := some
      { connect_timeout_seconds := candidate.connect_timeout_seconds
        server_alive_interval_seconds := candidate.server_alive_interval_seconds
        server_alive_count_max := candidate.server_alive_count_max
        tcp_keep_alive := candidate.tcp_keep_alive
        compression := candidate.compression
        identities_only := candidate.identities_only } }

def candidate_warnings (host : HostDraft) (candidate : OpenSshHostCandidate) : List Text :=
  (if candidate.username.isSome then [] else
    ["OpenSSH Host ".toList ++ host.alias ++ " has no User directive; '".toList ++ host.username ++
      "' was used and must be reviewed.".toList]) ++
  if candidate.unsupported_count > 0 then
    ["OpenSSH Host ".toList ++ host.alias ++ " contains ".toList ++
      candidate.unsupported_count.text ++
      " unsupported directive(s); review the imported host.".toList]
  else []

def unresolved_warning (host : HostDraft) : Text :=
  "OpenSSH alias ".toList ++ host.alias ++ " could not be resolved; hostname '".toList ++
    host.alias ++ "', port 22, and user '".toList ++ host.username ++
    "' were used as safe reviewable fallbacks.".toList

/-- The host, and what the OpenSSH config warns of. -/
def resolve_labpulse_host (host : HostDraft) :
    Option Bytes → HostDraft × List Text
  | none => (host, [unresolved_warning host])
  | some bytes =>
      match parse_config_bytes bytes with
      | .error error =>
          (host, ["Could not parse the user OpenSSH config (".toList ++ error ++
            "); safe fallback values were used.".toList, unresolved_warning host])
      | .ok candidates =>
          match candidates.find? fun candidate => candidate.alias.eq_ignore_ascii_case host.alias with
          | some candidate => (host_of_candidate host candidate, candidate_warnings host candidate)
          | none => (host, [unresolved_warning host])

def labpulse_warnings (config : LabPulseConfig) : List Text :=
  "Legacy SSH host trust is never inherited; verify the server fingerprint on first connection.".toList ::
  ((if (config.forward.bind LabPulseForward.release_command).isSome then
    ["The LabPulse cleanup command was not imported and will never run automatically.".toList]
  else []) ++
  (if config.btop.command.trim ≠ "btop".toList then
    ["Custom LabPulse btop arguments were not imported; RemoteDeck uses its own fixed btop flow.".toList]
  else []) ++
  if config.dangerous_command_patterns.isEmpty then [] else
    ["Legacy regular-expression risk rules were not imported; every command is reclassified by the Rust risk engine.".toList])

def labpulse_tunnel (config : LabPulseConfig) (source_id : Text) (forward : LabPulseForward) :
    PlannedTunnel where
  source_host_id := source_id
  draft :=
    { id := none
      host_id := source_id
      name := "Legacy ".toList ++ config.forward_host.getD "RemoteForward".toList
      direction := .Remote
      bind_address := forward.remote_bind_address
      source_port := forward.remote_port
      target_host := forward.local_target_address
      target_port := forward.local_target_port
      auto_start := some forward.auto_start
      auto_reconnect := some forward.auto_restart
      health_check := some (tcp_health (max 2 (min forward.watchdog_seconds 3600)) 1) }

def labpulse_risk (risk : Text) : AppResult CommandRisk :=
  let risk := risk.to_ascii_lowercase
  if risk = "safe".toList then .ok .L0
  else if risk = "danger".toList then .ok .L2
  else .error (.Validation ("unknown LabPulse command risk '".toList ++ risk ++ "'".toList))

/-- The presets in order, the first as the `index`-th. -/
def labpulse_commands (host_alias source_id : Text) : Nat → List LabPulsePreset →
    AppResult (List PlannedCommand)
  | _, [] => .ok []
  | index, preset :: presets => do
      let risk ← labpulse_risk preset.risk
      let commands ← labpulse_commands host_alias source_id (index + 1) presets
      .ok
        ({ source_host_id := some source_id
           draft :=
             { id := none
               host_id := some source_id
               name := preset.name
               description := preset.description
               group := "Legacy migration".toList
               command := preset.command
               working_directory := none
               risk := risk
               requires_pty := risk = .L2
               requires_sudo := false
               confirmation_text :=
                 preset.confirm_token.or (if risk = .L2 then some host_alias else none)
               sort_order := min index 2147483647 } } :: commands)

def map_labpulse (env : Environment) (config : LabPulseConfig) (ssh_config : Option Bytes)
    (warnings : List Text) : AppResult MigrationPlan := do
  validate_labpulse_config config
  if !valid_alias config.ssh_host.trim then
    .error (.Validation "LabPulse sshHost alias is invalid".toList)
  else do
    let host_alias := config.ssh_host.trim
    let (host, host_warnings) := resolve_labpulse_host (fallback_host env host_alias) ssh_config
    let source_id := "labpulse:".toList ++ host_alias
    let commands ← labpulse_commands host_alias source_id 0 config.presets
    .ok
      { app_name := config.app_name
        hosts := [⟨source_id, host⟩]
        tunnels := (config.forward.map (labpulse_tunnel config source_id)).toList
        commands := commands
        settings := some
          { terminal_font_family := none
            terminal_font_size := none
            telemetry_interval_seconds := some config.telemetry_interval_seconds
            telemetry_retention_minutes := none
            download_directory := none
            auto_reconnect := none
            close_to_tray := none
            launch_at_login := none
            btop_watchdog_enabled := some (config.btop.enabled && config.btop.auto_restart)
            btop_rotation_minutes :=
              some (max 1 (min ((config.btop.restart_cycle_seconds + 59) / 60) 1440))
            log_level := none
            onboarding_completed := none
            default_agent := none }
        warnings := warnings ++ host_warnings ++ labpulse_warnings config }

end Migration
