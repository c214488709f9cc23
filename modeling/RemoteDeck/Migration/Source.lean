import Mathlib.Data.List.Sort
import RemoteDeck.Lib.Framing
import RemoteDeck.Store.Repository

/-! # Legacy sources

    The files that `migration.rs` reads, the bundle hash over them, and the
    plan that is made of them.

    Parameters are what the crate takes from elsewhere: the file system and
    the environment, `serde_json` (functions of bytes), and the SHA-256 of a
    sequence of bytes.
-/

namespace Migration

open Store

def MAX_SOURCE_BYTES : Nat := 4 * 1024 * 1024

/-! ### Plans -/

structure PlannedHost where
  source_id : Text
  draft : HostDraft
  deriving DecidableEq, Repr

structure PlannedTunnel where
  source_host_id : Text
  draft : TunnelDraft
  deriving DecidableEq, Repr

structure PlannedCommand where
  source_host_id : Option Text
  draft : CommandPresetDraft
  deriving DecidableEq, Repr

structure MigrationPlan where
  app_name : Text
  hosts : List PlannedHost
  tunnels : List PlannedTunnel
  commands : List PlannedCommand
  settings : Option SettingsPatch
  warnings : List Text
  deriving DecidableEq, Repr

/-- Two plans import the same. -/
structure SamePlan (a b : MigrationPlan) : Prop where
  hosts : a.hosts = b.hosts
  tunnels : a.tunnels = b.tunnels
  commands : a.commands = b.commands
  settings : a.settings = b.settings

/-! ### Files -/

/-- A path, its components separated by slashes. -/
abbrev Path := Text

/-- `Path::join` of one component. -/
def Path.join (path : Path) (component : String) : Path := path ++ '/' :: component.toList

/-- `Path::file_name` and `Path::parent`. -/
def Path.file_name (path : Path) : Text := ((Text.rsplit_once path ['/']).map Prod.snd).getD []

def Path.parent (path : Path) : Option Path := (Text.rsplit_once path ['/']).map Prod.fst

/-- The contents of a file.  A vector has at most `isize::MAX` bytes. -/
abbrev Bytes := { bytes : List UInt8 // bytes.length < 9223372036854775808 }

structure Metadata where
  is_dir : Bool
  is_file : Bool
  len : Nat
  deriving DecidableEq, Repr

structure FileSystem where
  canonicalize : Text → AppResult Path
  metadata : Path → AppResult Metadata
  read : Path → AppResult Bytes

/-- `Path::is_file`. -/
def FileSystem.is_file (fs : FileSystem) (path : Path) : Bool :=
  match fs.metadata path with
  | .ok metadata => metadata.is_file
  | .error _ => false

/-- The variables that the crate reads; `None` stands for one that is not set
    or not Unicode. -/
structure Environment where
  USERPROFILE : Option Text
  HOME : Option Text
  USERNAME : Option Text
  USER : Option Text
  deriving DecidableEq, Repr

def optional_file (fs : FileSystem) (path : Path) : Option Path :=
  if fs.is_file path then some path else none

/-- Read a part of the bundle; `total` is the number of bytes read before. -/
def read_required_part (fs : FileSystem) (path : Path) (total : Nat) : AppResult (Bytes × Nat) := do
  let metadata ← fs.metadata path
  if !metadata.is_file || metadata.len > MAX_SOURCE_BYTES - total then
    .error (.Validation "legacy source bundle exceeds the 4 MiB limit".toList)
  else do
    let bytes ← fs.read path
    .ok (bytes, total + bytes.val.length)

/-- The user's OpenSSH config, and the warnings when it is not used. -/
def discover_user_ssh_config (env : Environment) (fs : FileSystem) (total : Nat) :
    Option Bytes × List Text :=
  match env.USERPROFILE.or env.HOME with
  | none =>
      (none, ["Could not locate the user OpenSSH config; the LabPulse alias was imported with safe fallback values.".toList])
  | some home =>
      let path := (Path.join home ".ssh").join "config"
      if !fs.is_file path then
        (none, ["User OpenSSH config '".toList ++ path ++
          "' was not found; the LabPulse alias was imported with safe fallback values.".toList])
      else
        match read_required_part fs path total with
        | .ok (bytes, _) => (some bytes, [])
        | .error error =>
            (none, ["Could not read user OpenSSH config '".toList ++ path ++
              "': ".toList ++ error.to_string ++ "; safe fallback values were used.".toList])

/-! ### The bundle hash -/

inductive PartRole where
  | labpulse_config
  | user_openssh_config
  | remotedeck_v1_profiles
  | remotedeck_v1_settings
  deriving DecidableEq, Repr

def PartRole.name : PartRole → String
  | .labpulse_config => "labpulse-config"
  | .user_openssh_config => "user-openssh-config"
  | .remotedeck_v1_profiles => "remotedeck-v1-profiles"
  | .remotedeck_v1_settings => "remotedeck-v1-settings"

/-- The bytes of a text. -/
def utf8 (text : Text) : List UInt8 := text.flatMap String.utf8EncodeChar

def PartRole.bytes (role : PartRole) : List UInt8 := utf8 role.name.toList

structure SourcePart where
  role : PartRole
  bytes : Bytes
  deriving DecidableEq

/-- `sort_by_key(|part| part.role)`. -/
def sort_parts (parts : List SourcePart) : List SourcePart :=
  parts.insertionSort fun a b => a.role.name.toList.le b.role.name.toList = true

/-- The bytes that are digested. -/
def bundle_bytes (parts : List SourcePart) : List UInt8 :=
  utf8 "RemoteDeck migration bundle v2\x00".toList ++
    Framing.frames 8 ((sort_parts parts).flatMap fun part => [part.role.bytes, part.bytes.val])

def hex_digit (n : Nat) : Char := "0123456789abcdef".toList.getD n '0'

/-- `format!("{:x}")` of bytes. -/
def hex (bytes : List UInt8) : Text :=
  bytes.flatMap fun byte => [hex_digit (byte.toNat / 16), hex_digit (byte.toNat % 16)]

def hash_parts (sha256 : List UInt8 → Vector UInt8 32) (parts : List SourcePart) : Text :=
  hex (sha256 (bundle_bytes parts)).toList

structure LoadedMigration where
  source_path : Text
  source_hash : Text
  /-- What the hash is made of. -/
  parts : List SourcePart
  plan : MigrationPlan

/-! ### Checks -/

def valid_alias (value : Text) : Bool :=
  !value.isEmpty && value.len ≤ 64 &&
    value.all fun character => character.isAlphanum || "_.-".toList.contains character

def validate_source_path (value : Text) : AppResult Unit :=
  if value.trim.isEmpty || value.len > 32767 || value.contains '\x00' then
    .error (.Validation "legacy source path is invalid".toList)
  else .ok ()

def validate_hash (value : Text) : AppResult Unit :=
  if value.len ≠ 64 || !value.all Text.is_ascii_hexdigit then
    .error (.Validation "sourceHash must be a 64-character SHA-256 value".toList)
  else .ok ()

def tcp_health (interval_seconds timeout_seconds : Nat) : TunnelHealthCheck :=
  let interval_seconds := max 2 (min interval_seconds 3600)
  { kind := .Tcp
    interval_seconds := interval_seconds
    timeout_seconds := min (max 1 (min timeout_seconds 60)) (interval_seconds - 1) }

end Migration
