import RemoteDeck.Migration.Source

/-! # RemoteDeck v1 sources

    A database of profiles and, beside it, settings.  The hosts are kept in
    a hash map by their ids and mapped in the order of their aliases.
-/

namespace Migration

open Store

/-! ### Records -/

structure V1Advanced where
  connect_timeout_seconds : Nat
  server_alive_interval_seconds : Nat
  server_alive_count_max : Nat
  tcp_keep_alive : Bool
  compression : Bool
  identities_only : Bool
  deriving DecidableEq, Repr

structure V1Host where
  id : Text
  «alias» : Text
  hostname : Text
  port : UInt16
  username : Text
  auth_profile_id : Text
  jump_host_id : Option Text
  default_workspace_id : Option Text
  groups : List Text
  advanced : V1Advanced
  monitor_enabled : Bool
  deriving DecidableEq, Repr

structure V1Auth where
  id : Text
  method : Text
  identity_file : Option Text
  agent : Option Text
  deriving DecidableEq, Repr

structure V1Workspace where
  id : Text
  host_id : Text
  remote_path : Text
  deriving DecidableEq, Repr

inductive V1HealthCheck where
  | Tcp (interval_seconds timeout_ms : Nat)
  | Http (interval_seconds timeout_ms : Nat) (path : Text) (expected_status : Nat)
  deriving DecidableEq, Repr

structure V1CleanupHook where
  command : Text
  authorized : Bool
  deriving DecidableEq, Repr

structure V1Tunnel where
  host_id : Text
  name : Text
  direction : Option TunnelDirection
  bind_address : Text
  source_port : UInt16
  target_host : Text
  target_port : UInt16
  auto_start : Bool
  health_check : Option V1HealthCheck
  legacy_cleanup_hook : Option V1CleanupHook
  deriving DecidableEq, Repr

structure V1Command where
  host_id : Option Text
  name : Text
  description : Text
  group : Text
  command : Text
  working_directory : Option Text
  risk : Option CommandRisk
  requires_pty : Bool
  requires_sudo : Bool
  confirmation_text : Option Text
  sort_order : Int
  deriving DecidableEq, Repr

/-- Of the host keys, private keys and imports only their number is read. -/
structure V1Database where
  schema_version : Nat
  hosts : List V1Host
  auth_profiles : List V1Auth
  workspaces : List V1Workspace
  host_keys : Nat
  tunnels : List V1Tunnel
  commands : List V1Command
  private_keys : Nat
  imports : Nat
  deriving DecidableEq, Repr

structure V1Settings where
  schema_version : Nat
  terminal_font_family : Option Text
  terminal_font_size : Option Nat
  telemetry_interval_seconds : Option Nat
  telemetry_retention_minutes : Option Nat
  ssh_config_path : Option Text
  download_directory : Option Text
  auto_reconnect : Option Bool
  close_to_tray : Option Bool
  launch_at_login : Option Bool
  btop_watchdog_enabled : Option Bool
  btop_rotation_minutes : Option Nat
  log_level : Option Text
  onboarding_completed : Option Bool
  deriving DecidableEq, Repr

/-! ### Hosts -/

/-- The values of a hash map with these keys, as a list. -/
def unique_by_id {α : Type} (id : α → Text) (label : String) (values : List α) :
    AppResult (List α) :=
  Outcome.check_each (fun earlier value =>
    if (id value).isEmpty || earlier.any fun other => id other = id value then
      .error (.Validation ("RemoteDeck v1 ".toList ++ label.toList ++
        " ids are missing or duplicated".toList))
    else .ok ()) [] values >>= fun _ => .ok values

def proxy_destination (host : V1Host) : Text :=
  let hostname :=
    if host.hostname.contains ':' &&
        !(host.hostname.head? = some '[' && host.hostname.getLast? = some ']') then
      '[' :: host.hostname ++ [']']
    else host.hostname
  host.username ++ '@' :: hostname ++ ':' :: host.port.toNat.text

def v1_host_error (host : V1Host) (problem : String) : AppError :=
  .Validation ("RemoteDeck v1 host '".toList ++ host.alias ++ "' ".toList ++ problem.toList)

/-- How a host authenticates, its identity file and a warning. -/
def map_v1_auth (host : V1Host) (auth : V1Auth) :
    AppResult (AuthMethod × Option Text × List Text) :=
  if auth.method = "password".toList ∨ auth.method = "keyboard_interactive".toList then
    .ok (.Interactive, none, ["Credentials for v1 host '".toList ++ host.alias ++
      "' are not imported; authenticate interactively after fingerprint verification.".toList])
  else if auth.method = "private_key".toList then .ok (.PrivateKey, auth.identity_file, [])
  else if auth.method = "agent".toList then
    if auth.agent = some "windows_openssh".toList then .ok (.Agent, none, [])
    else if auth.agent = some "pageant".toList then
      .ok (.Agent, none, ["v1 host '".toList ++ host.alias ++
        "' used Pageant; select a supported OpenSSH agent if the imported profile cannot authenticate.".toList])
    else .error (v1_host_error host "has invalid agent authentication metadata")
  else .error (.Validation ("RemoteDeck v1 host '".toList ++ host.alias ++
    "' uses unknown auth method '".toList ++ auth.method ++ "'".toList))

def map_v1_workspace (workspaces : List V1Workspace) (host : V1Host) :
    AppResult (Option V1Workspace) :=
  match host.default_workspace_id with
  | none => .ok none
  | some id => do
      let workspace ← (workspaces.find? fun workspace => workspace.id = id).ok_or
        (v1_host_error host "references a missing workspace")
      if workspace.host_id ≠ host.id then
        .error (.Validation
          ("RemoteDeck v1 workspace ownership is invalid for host '".toList ++ host.alias ++
            "'".toList))
      else .ok (some workspace)

def map_v1_jump (hosts : List V1Host) (host : V1Host) : AppResult (Option Text) :=
  match host.jump_host_id with
  | none => .ok none
  | some id => do
      let jump ← (hosts.find? fun jump => jump.id = id).ok_or
        (v1_host_error host "references a missing jump host")
      if jump.jump_host_id.isSome then
        .error (.Validation "nested ProxyJump chains are not supported".toList)
      else .ok (some (proxy_destination jump))

def map_v1_host (auth : List V1Auth) (workspaces : List V1Workspace) (hosts : List V1Host)
    (host : V1Host) : AppResult (PlannedHost × List Text) := do
  let auth ← (auth.find? fun auth => auth.id = host.auth_profile_id).ok_or
    (v1_host_error host "references a missing auth profile")
  let (auth_method, identity_file, warnings) ← map_v1_auth host auth
  let workspace ← map_v1_workspace workspaces host
  let proxy_jump ← map_v1_jump hosts host
  .ok
    ({ source_id := host.id
       draft :=
         { id := none
           «alias» := host.alias
           hostname := host.hostname
           port := host.port
           username := host.username
           auth_method := some auth_method
           identity_file := identity_file
           proxy_jump := proxy_jump
           default_workspace := some ((workspace.map V1Workspace.remote_path).getD "~".toList)
           groups := host.groups
           advanced := some
             { connect_timeout_seconds := some host.advanced.connect_timeout_seconds
               server_alive_interval_seconds := some host.advanced.server_alive_interval_seconds
               server_alive_count_max := some host.advanced.server_alive_count_max
               tcp_keep_alive := some host.advanced.tcp_keep_alive
               compression := some host.advanced.compression
               identities_only := some host.advanced.identities_only }
           monitor_enabled := some host.monitor_enabled } }, warnings)

/-- Map a list, and collect what each element is warned of. -/
def collect {α β : Type} (f : α → AppResult (β × List Text)) :
    List α → AppResult (List β × List Text)
  | [] => .ok ([], [])
  | value :: values => do
      let (mapped, warnings) ← f value
      let (rest, more) ← collect f values
      .ok (mapped :: rest, warnings ++ more)

/-- By alias, and by id where aliases agree. -/
def host_before (a b : V1Host) : Bool :=
  if a.alias = b.alias then a.id.le b.id else a.alias.le b.alias

/-- The order in which the hosts are mapped, from the order in which the hash
    map gives its keys. -/
def host_order (hash_order : List Text → List Text) (hosts : List V1Host) : List V1Host :=
  ((hash_order (hosts.map V1Host.id)).filterMap fun id => hosts.find? fun host => host.id = id)
    |>.insertionSort fun a b => host_before a b = true

/-! ### Tunnels and commands -/

def map_v1_health (tunnel : V1Tunnel) : AppResult (Option TunnelHealthCheck × List Text) :=
  match tunnel.health_check with
  | none => .ok (none, [])
  | some (.Tcp interval_seconds timeout_ms) =>
      if !(2 ≤ interval_seconds && interval_seconds ≤ 3600) ||
          !(100 ≤ timeout_ms && timeout_ms ≤ 60000) then
        .error (.Validation ("TCP health check on v1 tunnel '".toList ++ tunnel.name ++
          "' is invalid".toList))
      else .ok (some (tcp_health interval_seconds ((timeout_ms + 999) / 1000)), [])
  | some (.Http interval_seconds timeout_ms path expected_status) =>
      if !(2 ≤ interval_seconds && interval_seconds ≤ 3600) ||
          !(100 ≤ timeout_ms && timeout_ms ≤ 60000) || path.head? ≠ some '/' ||
          path.len > 2048 || !(100 ≤ expected_status && expected_status ≤ 599) then
        .error (.Validation ("HTTP health check on v1 tunnel '".toList ++ tunnel.name ++
          "' is invalid".toList))
      else
        .ok (none, ["HTTP health check on v1 tunnel '".toList ++ tunnel.name ++ "' (".toList ++
          path ++ ", expected ".toList ++ expected_status.text ++ ", ".toList ++
          interval_seconds.text ++ "s/".toList ++ timeout_ms.text ++
          "ms) is unsupported and was disabled.".toList])

def map_v1_cleanup (tunnel : V1Tunnel) : AppResult (List Text) :=
  match tunnel.legacy_cleanup_hook with
  | none => .ok []
  | some cleanup =>
      if cleanup.command.trim.isEmpty || cleanup.command.len > 16384 ||
          cleanup.command.contains '\x00' then
        .error (.Validation ("cleanup hook on v1 tunnel '".toList ++ tunnel.name ++
          "' is invalid".toList))
      else
        .ok ["Cleanup hook on v1 tunnel '".toList ++ tunnel.name ++ "' was not imported".toList ++
          (if cleanup.authorized then " (it was previously authorized)".toList else []) ++
          " and will never run automatically.".toList]

def map_v1_tunnel (auto_reconnect : Bool) (tunnel : V1Tunnel) :
    AppResult (PlannedTunnel × List Text) := do
  let (health_check, health_warnings) ← map_v1_health tunnel
  let cleanup_warnings ← map_v1_cleanup tunnel
  let direction ← tunnel.direction.ok_or
    (.Validation "RemoteDeck v1 tunnel direction is missing".toList)
  .ok
    ({ source_host_id := tunnel.host_id
       draft :=
         { id := none
           host_id := tunnel.host_id
           name := tunnel.name
           direction := direction
           bind_address := tunnel.bind_address
           source_port := tunnel.source_port
           target_host := tunnel.target_host
           target_port := tunnel.target_port
           auto_start := some tunnel.auto_start
           auto_reconnect := some auto_reconnect
           health_check := health_check } }, health_warnings ++ cleanup_warnings)

def map_v1_command (command : V1Command) : AppResult (PlannedCommand × List Text) := do
  let risk ← command.risk.ok_or (.Validation "RemoteDeck v1 command risk is missing".toList)
  .ok
    ({ source_host_id := command.host_id
       draft :=
         { id := none
           host_id := command.host_id
           name := command.name
           description := command.description
           group := command.group
           command := command.command
           working_directory := command.working_directory
           risk := risk
           requires_pty := command.requires_pty
           requires_sudo := command.requires_sudo
           confirmation_text := command.confirmation_text
           sort_order := command.sort_order } }, [])

/-! ### The plan -/

def map_v1_settings (settings : V1Settings) : SettingsPatch where
  terminal_font_family := settings.terminal_font_family
  terminal_font_size := settings.terminal_font_size
  telemetry_interval_seconds := settings.telemetry_interval_seconds
  telemetry_retention_minutes := settings.telemetry_retention_minutes
  download_directory := settings.download_directory
  auto_reconnect := settings.auto_reconnect
  close_to_tray := settings.close_to_tray
  launch_at_login := settings.launch_at_login
  btop_watchdog_enabled := settings.btop_watchdog_enabled
  btop_rotation_minutes := settings.btop_rotation_minutes
  log_level := settings.log_level
  onboarding_completed := settings.onboarding_completed
  default_agent := none

def v1_warnings (database : V1Database) (settings : Option V1Settings) : List Text :=
  ("RemoteDeck v1 host trust records are deliberately not imported (".toList ++
    database.host_keys.text ++
    " record(s)); verify every server fingerprint again.".toList) ::
  ((if database.private_keys = 0 then [] else
    ["RemoteDeck v1 private-key metadata was not copied (".toList ++ database.private_keys.text ++
      " record(s)); keys remain at their existing filesystem paths and can be rediscovered.".toList]) ++
  (if database.imports = 0 then [] else
    ["RemoteDeck v1 import history was not inherited; only this reviewed source bundle is recorded.".toList]) ++
  if (settings.bind V1Settings.ssh_config_path).any fun path => !path.trim.isEmpty then
    ["The v1 sshConfigPath setting is machine-specific and was not imported.".toList]
  else [])

def map_v1 (hash_order : List Text → List Text) (database : V1Database)
    (settings : Option V1Settings) : AppResult MigrationPlan :=
  if database.schema_version ≠ 1 then
    .error (.Validation ("unsupported RemoteDeck profiles schema version ".toList ++
      database.schema_version.text))
  else if settings.any fun settings => settings.schema_version ≠ 1 then
    .error (.Validation "unsupported RemoteDeck settings schema version".toList)
  else do
    let auth ← unique_by_id V1Auth.id "auth profile" database.auth_profiles
    let workspaces ← unique_by_id V1Workspace.id "workspace" database.workspaces
    let source_hosts ← unique_by_id V1Host.id "host" database.hosts
    let (hosts, host_warnings) ← collect (map_v1_host auth workspaces source_hosts)
      (host_order hash_order source_hosts)
    let auto_reconnect := (settings.bind V1Settings.auto_reconnect).getD false
    let (tunnels, tunnel_warnings) ← collect (map_v1_tunnel auto_reconnect) database.tunnels
    let (commands, _) ← collect map_v1_command database.commands
    .ok
      { app_name := "RemoteDeck v1".toList
        hosts := hosts
        tunnels := tunnels
        commands := commands
        settings := settings.map map_v1_settings
        warnings := v1_warnings database settings ++ host_warnings ++ tunnel_warnings ++
          if settings.isNone then
            ["No sibling settings.json was found; RemoteDeck v1 settings are not included.".toList]
          else [] }

end Migration
