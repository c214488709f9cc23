import RemoteDeck.Migration.LabPulse
import RemoteDeck.Migration.V1

/-! # Loading, preview and apply

    A source is loaded again for every request: its files are read, the plan
    is made of them, validated and hashed.  `preview` shows the plan and the
    hash; `apply` imports the plan of its own load, and only if that load has
    the hash of the request.
-/

namespace Migration

open Store

def MAX_HOSTS : Nat := 512
def MAX_TUNNELS : Nat := 1024
def MAX_COMMANDS : Nat := 1024

/-! ### Checks of a plan -/

def validate_ssh_atom (label value : Text) (max : Nat) : AppResult Unit :=
  let value := value.trim
  if value.isEmpty || value.len > max || value.head? = some '-' ||
      value.any Text.is_whitespace || value.any Text.is_control then
    .error (.Validation ("legacy ".toList ++ label ++ " is invalid".toList))
  else .ok ()

def validate_forward_atom (label value : Text) : AppResult Unit :=
  let value := value.trim
  if value.isEmpty || value.len > 512 || value.head? = some '-' || value.contains ',' ||
      value.any Text.is_whitespace || value.any Text.is_control then
    .error (.Validation ("legacy tunnel ".toList ++ label ++ " is invalid".toList))
  else .ok ()

def legacy_host_error (host_alias : Text) (problem : String) : AppError :=
  .Validation ("legacy host '".toList ++ host_alias ++ "' ".toList ++ problem.toList)

def validate_host (draft : HostDraft) : AppResult Unit :=
  if !valid_alias draft.alias then
    .error (.Validation ("legacy host alias '".toList ++ draft.alias ++ "' is invalid".toList))
  else do
    validate_ssh_atom "hostname".toList draft.hostname 512
    validate_ssh_atom "username".toList draft.username 128
    if draft.port = 0 then .error (.Validation "legacy host port is invalid".toList)
    else if draft.auth_method = some .PrivateKey &&
        draft.identity_file.all fun path => path.trim.isEmpty then
      .error (.Validation ("legacy private-key host '".toList ++ draft.alias ++
        "' has no identity file".toList))
    else if (draft.identity_file.any fun path => path.len > 32767 || path.contains '\x00') ||
        draft.default_workspace.any fun path => path.len > 4096 || path.contains '\x00' then
      .error (legacy_host_error draft.alias "contains an invalid path")
    else do
      (match draft.proxy_jump with
        | some proxy => validate_ssh_atom "ProxyJump".toList proxy 1024
        | none => .ok ())
      if draft.groups.length > 32 then
        .error (.Validation "legacy host has too many groups".toList)
      else if draft.advanced.any fun advanced =>
          (advanced.connect_timeout_seconds.any fun value => !(1 ≤ value && value ≤ 300)) ||
            (advanced.server_alive_interval_seconds.any fun value => value > 3600) ||
            advanced.server_alive_count_max.any fun value => !(1 ≤ value && value ≤ 100) then
        .error (legacy_host_error draft.alias "has invalid SSH options")
      else .ok ()

def validate_tunnel (draft : TunnelDraft) : AppResult Unit :=
  if draft.name.trim.isEmpty || draft.name.len > 128 || draft.name.any Text.is_control ||
      draft.source_port = 0 || draft.target_port = 0 then
    .error (.Validation "legacy tunnel metadata is invalid".toList)
  else do
    validate_forward_atom "bind address".toList draft.bind_address
    validate_forward_atom "target host".toList draft.target_host
    if draft.health_check.any fun health => health.kind = .Tcp &&
        (!(2 ≤ health.interval_seconds && health.interval_seconds ≤ 3600) ||
          !(1 ≤ health.timeout_seconds && health.timeout_seconds ≤ 60) ||
          health.timeout_seconds ≥ health.interval_seconds) then
      .error (.Validation "legacy tunnel health check is invalid".toList)
    else .ok ()

def validate_command (draft : CommandPresetDraft) : AppResult Unit :=
  if draft.name.trim.isEmpty || draft.name.len > 512 || draft.name.any Text.is_control ||
      draft.description.len > 2048 || draft.description.contains '\x00' ||
      draft.group.len > 128 || draft.group.any Text.is_control ||
      draft.command.trim.isEmpty || draft.command.len > 32768 || draft.command.contains '\x00' ||
      (draft.working_directory.any fun path => path.len > 4096 || path.contains '\x00') ||
      (draft.confirmation_text.any fun text => text.len > 256 || text.any Text.is_control) then
    .error (.Validation ("legacy command preset '".toList ++ draft.name ++ "' is invalid".toList))
  else .ok ()

def validate_settings (patch : SettingsPatch) : AppResult Unit :=
  if (patch.terminal_font_family.any fun value =>
        value.trim.isEmpty || value.len > 256 || value.any Text.is_control) ||
      (patch.terminal_font_size.any fun value => !(9 ≤ value && value ≤ 32)) ||
      (patch.telemetry_interval_seconds.any fun value => !(1 ≤ value && value ≤ 60)) ||
      (patch.telemetry_retention_minutes.any fun value => !(1 ≤ value && value ≤ 1440)) ||
      (patch.download_directory.any fun value => value.len > 32767 || value.contains '\x00') ||
      (patch.btop_rotation_minutes.any fun value => !(1 ≤ value && value ≤ 1440)) ||
      patch.log_level.any fun value =>
        ! ["debug", "info", "warn", "error"].any fun level =>
          value.to_ascii_lowercase = level.toList then
    .error (.Validation "legacy settings are invalid".toList)
  else .ok ()

/-- A host of the plan, after the ones before it. -/
def validate_planned_host (earlier : List PlannedHost) (host : PlannedHost) : AppResult Unit :=
  if host.source_id.isEmpty || earlier.any fun other => other.source_id = host.source_id then
    .error (.Validation "legacy hosts contain a missing or duplicate id".toList)
  else do
    validate_host host.draft
    if earlier.any fun other => other.draft.alias.eq_ignore_ascii_case host.draft.alias then
      .error (.Validation ("legacy host alias '".toList ++ host.draft.alias ++
        "' is duplicated".toList))
    else .ok ()

def validate_planned_tunnel (source_ids : List Text) (earlier : List PlannedTunnel)
    (tunnel : PlannedTunnel) : AppResult Unit :=
  if tunnel.source_host_id ∉ source_ids then
    .error (.Validation ("legacy tunnel '".toList ++ tunnel.draft.name ++
      "' references a missing host".toList))
  else do
    validate_tunnel tunnel.draft
    if earlier.any fun other => other.source_host_id = tunnel.source_host_id &&
        other.draft.name.eq_ignore_ascii_case tunnel.draft.name then
      .error (.Validation ("legacy tunnel '".toList ++ tunnel.draft.name ++
        "' is duplicated".toList))
    else .ok ()

def validate_planned_command (source_ids : List Text) (earlier : List PlannedCommand)
    (command : PlannedCommand) : AppResult Unit :=
  if command.source_host_id.any fun id => id ∉ source_ids then
    .error (.Validation ("legacy command '".toList ++ command.draft.name ++
      "' references a missing host".toList))
  else do
    validate_command command.draft
    if earlier.any fun other => other.source_host_id = command.source_host_id &&
        other.draft.name.eq_ignore_ascii_case command.draft.name then
      .error (.Validation ("legacy command '".toList ++ command.draft.name ++
        "' is duplicated in its scope".toList))
    else .ok ()

/-- `Vec::dedup`. -/
def dedup : List Text → List Text
  | [] => []
  | [value] => [value]
  | value :: next :: values =>
      if value = next then dedup (next :: values) else value :: dedup (next :: values)

/-- The plan with its warnings sorted, each once. -/
def validate_plan (plan : MigrationPlan) : AppResult MigrationPlan :=
  if plan.app_name.trim.isEmpty || plan.app_name.len > 512 ||
      plan.app_name.any Text.is_control then
    .error (.Validation "legacy application name is invalid".toList)
  else if plan.hosts.length > MAX_HOSTS || plan.tunnels.length > MAX_TUNNELS ||
      plan.commands.length > MAX_COMMANDS || plan.warnings.length > 128 then
    .error (.Validation "legacy source contains too many records".toList)
  else do
    let source_ids := plan.hosts.map PlannedHost.source_id
    Outcome.check_each validate_planned_host [] plan.hosts
    Outcome.check_each (validate_planned_tunnel source_ids) [] plan.tunnels
    Outcome.check_each (validate_planned_command source_ids) [] plan.commands
    (match plan.settings with
      | some settings => validate_settings settings
      | none => .ok ())
    .ok { plan with
          warnings := dedup (plan.warnings.insertionSort fun a b => a.le b = true) }

/-! ### Loading -/

/-- What is taken from other crates: `sha2`, and `serde_json` for each type. -/
structure Crates where
  sha256 : List UInt8 → Vector UInt8 32
  parse_config : Bytes → AppResult LabPulseConfig
  parse_database : Bytes → AppResult V1Database
  parse_settings : Bytes → AppResult V1Settings

inductive SourceKind where
  | LabPulse
  | RemoteDeckV1
  deriving DecidableEq, Repr

/-- The kind of the source, its first file, and its settings file. -/
def locate_source (fs : FileSystem) (input : Path) (metadata : Metadata) :
    AppResult (SourceKind × Path × Option Path) :=
  if metadata.is_dir then
    let profiles := input.join "profiles.json"
    let config := input.join "config.json"
    if fs.is_file profiles then
      .ok (.RemoteDeckV1, profiles, optional_file fs (input.join "settings.json"))
    else if fs.is_file config then .ok (.LabPulse, config, none)
    else
      .error (.Validation
        "migration directory must contain profiles.json or config.json".toList)
  else if metadata.is_file then
    let name := Text.to_ascii_lowercase input.file_name
    if name = "config.json".toList then .ok (.LabPulse, input, none)
    else if name = "profiles.json".toList then
      .ok (.RemoteDeckV1, input,
        input.parent.bind fun parent => optional_file fs (parent.join "settings.json"))
    else if name = "settings.json".toList then do
      let profiles ← ((input.parent.map fun parent => parent.join "profiles.json").filter
        fun path => fs.is_file path).ok_or
          (.Validation "settings.json must have a sibling profiles.json".toList)
      .ok (.RemoteDeckV1, profiles, some input)
    else
      .error (.Validation
        "migration source must be config.json, profiles.json, settings.json, or their directory".toList)
  else .error (.Validation "migration source must be a file or directory".toList)

def load_labpulse (crates : Crates) (env : Environment) (fs : FileSystem)
    (input config_path : Path) : AppResult LoadedMigration := do
  let (config_bytes, total) ← read_required_part fs config_path 0
  let config ← crates.parse_config config_bytes
  let (ssh_config, warnings) := discover_user_ssh_config env fs total
  let parts := ⟨.labpulse_config, config_bytes⟩ ::
    (ssh_config.map fun bytes => (⟨.user_openssh_config, bytes⟩ : SourcePart)).toList
  let plan ← map_labpulse env config ssh_config warnings
  let plan ← validate_plan plan
  .ok ⟨input, hash_parts crates.sha256 parts, parts, plan⟩

/-- Read and parse the settings, if there are any. -/
def load_settings (crates : Crates) (fs : FileSystem) (total : Nat) :
    Option Path → AppResult (Option (Bytes × V1Settings))
  | none => .ok none
  | some path => do
      let (bytes, _) ← read_required_part fs path total
      let parsed ← crates.parse_settings bytes
      .ok (some (bytes, parsed))

def load_v1 (crates : Crates) (hash_order : List Text → List Text) (fs : FileSystem)
    (input profiles_path : Path) (settings_path : Option Path) : AppResult LoadedMigration := do
  let (profiles_bytes, total) ← read_required_part fs profiles_path 0
  let database ← crates.parse_database profiles_bytes
  let settings ← load_settings crates fs total settings_path
  let parts := ⟨.remotedeck_v1_profiles, profiles_bytes⟩ ::
    (settings.map fun part => (⟨.remotedeck_v1_settings, part.1⟩ : SourcePart)).toList
  let plan ← map_v1 hash_order database (settings.map Prod.snd)
  let plan ← validate_plan plan
  .ok ⟨input, hash_parts crates.sha256 parts, parts, plan⟩

def load_migration (crates : Crates) (env : Environment) (hash_order : List Text → List Text)
    (fs : FileSystem) (source_path : Text) : AppResult LoadedMigration := do
  validate_source_path source_path
  let input ← fs.canonicalize source_path
  let metadata ← fs.metadata input
  let (kind, primary, settings) ← locate_source fs input metadata
  match kind with
  | .LabPulse => load_labpulse crates env fs input primary
  | .RemoteDeckV1 => load_v1 crates hash_order fs input primary settings

/-! ### Preview -/

structure LegacyHostPreview where
  «alias» : Text
  hostname : Text
  port : UInt16
  username : Text
  deriving DecidableEq, Repr

structure LegacyPreview where
  source_path : Text
  source_hash : Text
  app_name : Text
  duplicate : Bool
  hosts : List LegacyHostPreview
  tunnel_count : Nat
  command_count : Nat
  settings_included : Bool
  warnings : List Text
  deriving DecidableEq, Repr

def has_import (state : PersistedState) (source_hash : Text) : Bool :=
  state.imported_source_hashes.any fun hash => hash.eq_ignore_ascii_case source_hash

def preview_loaded (state : PersistedState) (loaded : LoadedMigration) : LegacyPreview where
  source_path := loaded.source_path
  source_hash := loaded.source_hash
  app_name := loaded.plan.app_name
  duplicate := has_import state loaded.source_hash
  hosts := loaded.plan.hosts.map fun host =>
    ⟨host.draft.alias, host.draft.hostname, host.draft.port, host.draft.username⟩
  tunnel_count := loaded.plan.tunnels.length
  command_count := loaded.plan.commands.length
  settings_included := loaded.plan.settings.isSome
  warnings := loaded.plan.warnings

def preview (crates : Crates) (env : Environment) (hash_order : List Text → List Text)
    (fs : FileSystem) (state : PersistedState) (source_path : Text) : AppResult LegacyPreview := do
  let loaded ← load_migration crates env hash_order fs source_path
  .ok (preview_loaded state loaded)

/-! ### Apply -/

structure LegacyApplyRequest where
  source_path : Text
  source_hash : Text
  include_hosts : Bool
  include_tunnels : Bool
  include_commands : Bool
  include_settings : Bool
  deriving DecidableEq, Repr

structure LegacyApplyResult where
  imported_hosts : Nat
  imported_tunnels : Nat
  imported_commands : Nat
  settings_imported : Bool
  message : Text
  deriving DecidableEq, Repr

def destination_host_reference (plan : MigrationPlan) (state : PersistedState) (source_id : Text)
    (importing_hosts : Bool) : AppResult ImportHostReference :=
  if importing_hosts then .ok (.Imported source_id)
  else do
    let source_host ← (plan.hosts.find? fun host => host.source_id = source_id).ok_or
      (.Validation ("source host ".toList ++ source_id ++ " is missing from import plan".toList))
    let host ← (state.hosts.find? fun host =>
        host.alias.eq_ignore_ascii_case source_host.draft.alias).ok_or
      (.Validation ("source host ".toList ++ source_id ++
        " is not being imported and has no matching destination alias".toList))
    .ok (.Existing host.id)

def batch_tunnel (plan : MigrationPlan) (state : PersistedState) (importing_hosts : Bool)
    (planned : PlannedTunnel) : AppResult ImportBatchTunnel := do
  let host ← destination_host_reference plan state planned.source_host_id importing_hosts
  .ok ⟨host, planned.draft⟩

def batch_command (plan : MigrationPlan) (state : PersistedState) (importing_hosts : Bool)
    (planned : PlannedCommand) : AppResult ImportBatchCommand :=
  match planned.source_host_id with
  | none => .ok ⟨none, planned.draft⟩
  | some source_id => do
      let host ← destination_host_reference plan state source_id importing_hosts
      .ok ⟨some host, planned.draft⟩

def build_import_batch (plan : MigrationPlan) (state : PersistedState)
    (request : LegacyApplyRequest) (source_hash : Text) : AppResult ImportBatch :=
  if !(request.include_hosts && !plan.hosts.isEmpty ||
      request.include_tunnels && !plan.tunnels.isEmpty ||
      request.include_commands && !plan.commands.isEmpty ||
      request.include_settings && plan.settings.isSome) then
    .error (.Validation "select at least one available migration category".toList)
  else do
    let tunnels ← (if request.include_tunnels then plan.tunnels else []).mapM
      (batch_tunnel plan state request.include_hosts)
    let commands ← (if request.include_commands then plan.commands else []).mapM
      (batch_command plan state request.include_hosts)
    .ok
      { source_hash := source_hash
        hosts := (if request.include_hosts then plan.hosts else []).map fun planned =>
          ⟨planned.source_id, planned.draft⟩
        tunnels := tunnels
        commands := commands
        settings := if request.include_settings then plan.settings else none }

def already_imported : LegacyApplyResult where
  imported_hosts := 0
  imported_tunnels := 0
  imported_commands := 0
  settings_imported := false
  message := "This source bundle was already imported; no duplicate items were created.".toList

def apply_result (imported : ImportBatchResult) : LegacyApplyResult :=
  if imported.duplicate then already_imported
  else
    { imported_hosts := imported.imported_hosts
      imported_tunnels := imported.imported_tunnels
      imported_commands := imported.imported_commands
      settings_imported := imported.settings_imported
      message := "Imported ".toList ++ imported.imported_hosts.text ++ " host(s), ".toList ++
        imported.imported_tunnels.text ++ " tunnel(s), and ".toList ++
        imported.imported_commands.text ++ " command preset(s).".toList }

/-- Import the plan of a load, after the check of its hash. -/
def apply_loaded (repo : Repository) (store : Store.Env) (request : LegacyApplyRequest)
    (loaded : LoadedMigration) : Repository × AppResult LegacyApplyResult :=
  if has_import repo.state loaded.source_hash then (repo, .ok already_imported)
  else
    match build_import_batch loaded.plan repo.state request loaded.source_hash with
    | .error e => (repo, .error e)
    | .ok batch => (repo.import_batch store batch).map id fun r => r.map apply_result

def apply (crates : Crates) (env : Environment) (hash_order : List Text → List Text)
    (fs : FileSystem) (repo : Repository) (store : Store.Env) (request : LegacyApplyRequest) :
    Repository × AppResult LegacyApplyResult :=
  match validate_hash request.source_hash with
  | .error e => (repo, .error e)
  | .ok () =>
      match load_migration crates env hash_order fs request.source_path with
      | .error e => (repo, .error e)
      | .ok loaded =>
          if loaded.source_hash ≠ request.source_hash.to_ascii_lowercase then
            (repo, .error (.State
              "legacy source changed after preview; preview it again before importing".toList))
          else apply_loaded repo store request loaded

end Migration
