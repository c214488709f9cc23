import Mathlib.Order.Lattice
import RemoteDeck.Error

/-! # Records

    The records of `model.rs` that the core keeps, receives and returns.
    Ports are 16-bit as in the source; the other integers are compared with
    constants only and are numbers.  A time stamp is the instant it denotes.
-/

abbrev Timestamp := Nat

/-! ### Hosts -/

structure SshAdvancedOptions where
  connect_timeout_seconds : Nat
  server_alive_interval_seconds : Nat
  server_alive_count_max : Nat
  tcp_keep_alive : Bool
  compression : Bool
  identities_only : Bool
  deriving DecidableEq, Repr

def SshAdvancedOptions.default : SshAdvancedOptions where
  connect_timeout_seconds := 15
  server_alive_interval_seconds := 30
  server_alive_count_max := 3
  tcp_keep_alive := true
  compression := false
  identities_only := false

structure SshAdvancedPatch where
  connect_timeout_seconds : Option Nat
  server_alive_interval_seconds : Option Nat
  server_alive_count_max : Option Nat
  tcp_keep_alive : Option Bool
  compression : Option Bool
  identities_only : Option Bool
  deriving DecidableEq, Repr

def SshAdvancedPatch.default : SshAdvancedPatch := ⟨none, none, none, none, none, none⟩

def SshAdvancedPatch.apply_to (patch : SshAdvancedPatch) (value : SshAdvancedOptions) :
    SshAdvancedOptions where
  connect_timeout_seconds := patch.connect_timeout_seconds.getD value.connect_timeout_seconds
  server_alive_interval_seconds :=
    patch.server_alive_interval_seconds.getD value.server_alive_interval_seconds
  server_alive_count_max := patch.server_alive_count_max.getD value.server_alive_count_max
  tcp_keep_alive := patch.tcp_keep_alive.getD value.tcp_keep_alive
  compression := patch.compression.getD value.compression
  identities_only := patch.identities_only.getD value.identities_only

inductive AuthMethod where
  | Interactive
  | PrivateKey
  | Agent
  deriving DecidableEq, Repr

structure HostProfile where
  schema_version : Nat
  id : Text
  «alias» : Text
  hostname : Text
  port : UInt16
  username : Text
  auth_method : AuthMethod
  identity_file : Option Text
  proxy_jump : Option Text
  default_workspace : Text
  groups : List Text
  advanced : SshAdvancedOptions
  monitor_enabled : Bool
  created_at : Timestamp
  updated_at : Timestamp
  deriving DecidableEq, Repr

structure HostDraft where
  id : Option Text
  «alias» : Text
  hostname : Text
  port : UInt16
  username : Text
  auth_method : Option AuthMethod
  identity_file : Option Text
  proxy_jump : Option Text
  default_workspace : Option Text
  groups : List Text
  advanced : Option SshAdvancedPatch
  monitor_enabled : Option Bool
  deriving DecidableEq, Repr

/-! ### Tunnels -/

inductive TunnelDirection where
  | Local
  | Remote
  deriving DecidableEq, Repr

inductive TunnelHealthCheckKind where
  | None
  | Tcp
  deriving DecidableEq, Repr

structure TunnelHealthCheck where
  kind : TunnelHealthCheckKind
  interval_seconds : Nat
  timeout_seconds : Nat
  deriving DecidableEq, Repr

structure TunnelProfile where
  schema_version : Nat
  id : Text
  host_id : Text
  name : Text
  direction : TunnelDirection
  bind_address : Text
  source_port : UInt16
  target_host : Text
  target_port : UInt16
  auto_start : Bool
  auto_reconnect : Bool
  health_check : Option TunnelHealthCheck
  created_at : Timestamp
  updated_at : Timestamp
  deriving DecidableEq, Repr

structure TunnelDraft where
  id : Option Text
  host_id : Text
  name : Text
  direction : TunnelDirection
  bind_address : Text
  source_port : UInt16
  target_host : Text
  target_port : UInt16
  auto_start : Option Bool
  auto_reconnect : Option Bool
  health_check : Option TunnelHealthCheck
  deriving DecidableEq, Repr

/-! ### Saved commands -/

inductive CommandRisk where
  | L0
  | L1
  | L2
  deriving DecidableEq, Repr

def CommandRisk.rank : CommandRisk → Nat
  | .L0 => 0
  | .L1 => 1
  | .L2 => 2

instance : LinearOrder CommandRisk :=
  LinearOrder.lift' CommandRisk.rank fun a b h => by cases a <;> cases b <;> simp_all [CommandRisk.rank]

structure CommandPreset where
  schema_version : Nat
  id : Text
  host_id : Option Text
  name : Text
  description : Text
  group : Text
  command : Text
  working_directory : Option Text
  risk : CommandRisk
  requires_pty : Bool
  requires_sudo : Bool
  confirmation_text : Option Text
  sort_order : Int
  created_at : Timestamp
  updated_at : Timestamp
  deriving DecidableEq, Repr

structure CommandPresetDraft where
  id : Option Text
  host_id : Option Text
  name : Text
  description : Text
  group : Text
  command : Text
  working_directory : Option Text
  risk : CommandRisk
  requires_pty : Bool
  requires_sudo : Bool
  confirmation_text : Option Text
  sort_order : Int
  deriving DecidableEq, Repr

/-! ### Settings -/

structure AppSettings where
  schema_version : Nat
  terminal_font_family : Text
  terminal_font_size : Nat
  telemetry_interval_seconds : Nat
  telemetry_retention_minutes : Nat
  download_directory : Text
  auto_reconnect : Bool
  close_to_tray : Bool
  launch_at_login : Bool
  btop_watchdog_enabled : Bool
  btop_rotation_minutes : Nat
  log_level : Text
  onboarding_completed : Bool
  default_agent : Text
  deriving DecidableEq, Repr

def AppSettings.default : AppSettings where
  schema_version := 2
  terminal_font_family := "Cascadia Mono, Consolas, monospace".toList
  terminal_font_size := 14
  telemetry_interval_seconds := 3
  telemetry_retention_minutes := 30
  download_directory := []
  auto_reconnect := true
  close_to_tray := true
  launch_at_login := false
  btop_watchdog_enabled := false
  btop_rotation_minutes := 15
  log_level := "info".toList
  onboarding_completed := false
  default_agent := "codex".toList

structure SettingsPatch where
  terminal_font_family : Option Text
  terminal_font_size : Option Nat
  telemetry_interval_seconds : Option Nat
  telemetry_retention_minutes : Option Nat
  download_directory : Option Text
  auto_reconnect : Option Bool
  close_to_tray : Option Bool
  launch_at_login : Option Bool
  btop_watchdog_enabled : Option Bool
  btop_rotation_minutes : Option Nat
  log_level : Option Text
  onboarding_completed : Option Bool
  default_agent : Option Text
  deriving DecidableEq, Repr

/-! ### The persisted state -/

structure PersistedState where
  schema_version : Nat
  settings : AppSettings
  hosts : List HostProfile
  tunnels : List TunnelProfile
  command_presets : List CommandPreset
  imported_source_hashes : List Text
  deriving DecidableEq, Repr

def PersistedState.default : PersistedState where
  schema_version := 2
  settings := .default
  hosts := []
  tunnels := []
  command_presets := []
  imported_source_hashes := []

/-! ### Identifiers -/

/-- A 128-bit identifier. -/
abbrev Uuid := BitVec 128

/-- The lowercase hexadecimal digits of a number, `width` of them. -/
def hex_digits : Nat → Nat → Text
  | 0, _ => []
  | width + 1, n => hex_digits width (n / 16) ++ [Nat.digitChar (n % 16)]

/-- `Uuid::to_string`: hexadecimal groups of 8, 4, 4, 4 and 12 digits. -/
def Uuid.to_string (uuid : Uuid) : Text :=
  let n := uuid.toNat
  hex_digits 8 (n >>> 96) ++ '-' :: hex_digits 4 (n >>> 80) ++
    '-' :: hex_digits 4 (n >>> 64) ++ '-' :: hex_digits 4 (n >>> 48) ++
    '-' :: hex_digits 12 n
