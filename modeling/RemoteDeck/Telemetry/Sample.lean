import RemoteDeck.Error
import RemoteDeck.Lib.Json
import RemoteDeck.Telemetry.Lines
import RemoteDeck.Telemetry.Signals

/-! # Samples

    `parse_sample` of `telemetry.rs`: what a line of the collector must be,
    and the snapshot that is made of it.

    A double of Rust is a `Float`.  The decoder of JSON and the parser of
    times are parameters.
-/

namespace Telemetry

def MAX_DISKS : Nat := 128
def MAX_GPUS : Nat := 32
def MAX_PROCESSES : Nat := 256
def MAX_HOSTNAME_BYTES : Nat := 255
def MAX_MOUNT_BYTES : Nat := 1024
def MAX_GPU_NAME_BYTES : Nat := 256
def MAX_PROCESS_STATE_BYTES : Nat := 32
def MAX_CAPTURED_AT_BYTES : Nat := 64
def MAX_RATE : Float := 1.0e18
def MAX_LOAD : Float := 1.0e6
def MAX_PROCESS_CPU_PERCENT : Float := 1.0e6

/-! ### Snapshots -/

structure CpuSnapshot where
  percent : Float
  load1 : Float
  load5 : Float
  load15 : Float
  deriving DecidableEq

structure MemorySnapshot where
  used_bytes : UInt64
  total_bytes : UInt64
  swap_used_bytes : UInt64
  swap_total_bytes : UInt64
  deriving DecidableEq

structure NetworkSnapshot where
  receive_bytes_per_second : Float
  send_bytes_per_second : Float
  deriving DecidableEq

structure DiskSnapshot where
  mount : Text
  used_bytes : UInt64
  total_bytes : UInt64
  available_bytes : UInt64
  deriving DecidableEq

structure GpuSnapshot where
  index : UInt32
  name : Text
  utilization_percent : Float
  memory_used_mi_b : Float
  memory_total_mi_b : Float
  temperature_c : Option Float
  power_w : Option Float
  deriving DecidableEq

structure ProcessSnapshot where
  pid : UInt32
  start_ticks : UInt64
  user : Text
  cpu_percent : Float
  memory_percent : Float
  state : Text
  elapsed_seconds : UInt64
  command : Text
  deriving DecidableEq

structure TelemetrySnapshot where
  host_id : Text
  sampled_at : Text
  hostname : Text
  current_user : Text
  cpu : CpuSnapshot
  memory : MemorySnapshot
  network : NetworkSnapshot
  disks : List DiskSnapshot
  gpus : List GpuSnapshot
  processes : List ProcessSnapshot
  deriving DecidableEq

/-! ### Fields -/

def path_of (path : List String) : List Text := path.map String.toList

/-- `path.join(".")`. -/
def path_name (path : List String) : Text := Text.join '.' (path_of path)

def field_error (name : Text) (what : String) : AppError :=
  .Process ("telemetry field ".toList ++ name ++ what.toList)

/-- What a text of a sample has to be. -/
def bounded (max_bytes : Nat) (value : Text) : Bool :=
  !value.isEmpty && value.len ≤ max_bytes && !value.any Text.is_control

def bounded_text (value : Json) (path : List String) (max_bytes : Nat) : AppResult Text :=
  (((value.at_path (path_of path)).bind Json.as_str).filter (bounded max_bytes)).ok_or
    (field_error (path_name path) " is invalid")

/-- The checks of a number that a sample has or has not. -/
def check_number (number : Option Float) (name : Text) (min max : Float) : AppResult Float := do
  let number ← (number.filter Float.isFinite).ok_or (field_error name " is invalid")
  if ¬ (min ≤ number ∧ number ≤ max) then
    .error (field_error name " is outside the supported range")
  else .ok number

def bounded_number (value : Json) (path : List String) (min max : Float) : AppResult Float :=
  check_number ((value.at_path (path_of path)).bind Json.as_f64) (path_name path) min max

def bounded_value_number (value : Json) (name : Text) (min max : Float) : AppResult Float :=
  check_number value.as_f64 name min max

def optional_bounded_number (value : Json) (path : List String) (min max : Float) :
    AppResult (Option Float) :=
  match value.at_path (path_of path) with
  | none | some .null => .ok none
  | some value => (bounded_value_number value (path_name path) min max).map some

def unsigned (value : Json) (path : List String) : AppResult UInt64 :=
  ((value.at_path (path_of path)).bind Json.as_u64).ok_or (field_error (path_name path) " is invalid")

/-- `u32::try_from`. -/
def to_u32 (value : UInt64) : Option UInt32 :=
  if value.toNat < 4294967296 then some (UInt32.ofNat value.toNat) else none

def unsigned_u32 (value : Json) (path : List String) (invalid : String) : AppResult UInt32 := do
  let value ← unsigned value path
  (to_u32 value).ok_or (.Process invalid.toList)

def bounded_array (value : Json) (name : String) (max_items : Nat) : AppResult (List Json) := do
  let values ← ((value.get name.toList).bind Json.as_array).ok_or (field_error name.toList " is invalid")
  if values.length > max_items then
    .error (.Process ("telemetry field ".toList ++ name.toList ++ " exceeds ".toList ++
      max_items.text ++ " items".toList))
  else .ok values

/-! ### Parts of a sample -/

def parse_disk (disk : Json) : AppResult DiskSnapshot := do
  let used_bytes ← unsigned disk ["usedBytes"]
  let total_bytes ← unsigned disk ["totalBytes"]
  let available_bytes ← unsigned disk ["availableBytes"]
  if used_bytes > total_bytes ∨ available_bytes > total_bytes then
    .error (.Process "telemetry disk capacity values are inconsistent".toList)
  else do
    let mount ← bounded_text disk ["mount"] MAX_MOUNT_BYTES
    .ok
      { mount := mount
        used_bytes := used_bytes
        total_bytes := total_bytes
        available_bytes := available_bytes }

def parse_gpu (gpu : Json) : AppResult GpuSnapshot := do
  let memory_used_mi_b ← bounded_number gpu ["memoryUsedMiB"] 0.0 1.0e12
  let memory_total_mi_b ← bounded_number gpu ["memoryTotalMiB"] 0.0 1.0e12
  if memory_used_mi_b > memory_total_mi_b then
    .error (.Process "telemetry GPU memory values are inconsistent".toList)
  else do
    let index ← unsigned_u32 gpu ["index"] "GPU index is invalid"
    let name ← bounded_text gpu ["name"] MAX_GPU_NAME_BYTES
    let utilization_percent ← bounded_number gpu ["utilizationPercent"] 0.0 100.0
    let temperature_c ← optional_bounded_number gpu ["temperatureC"] (-273.15) 10000.0
    let power_w ← optional_bounded_number gpu ["powerW"] 0.0 1.0e9
    .ok
      { index := index
        name := name
        utilization_percent := utilization_percent
        memory_used_mi_b := memory_used_mi_b
        memory_total_mi_b := memory_total_mi_b
        temperature_c := temperature_c
        power_w := power_w }

def parse_digits (digits : Text) : Option UInt64 :=
  if !digits.isEmpty && digits.all Char.isDigit && Nat.ofDigitChars 10 digits 0 < 18446744073709551616 then
    some (UInt64.ofNat (Nat.ofDigitChars 10 digits 0))
  else none

/-- `str::parse::<u64>`. -/
def parse_elapsed : Text → Option UInt64
  | '+' :: digits => parse_digits digits
  | digits => parse_digits digits

def elapsed_seconds (process : Json) : AppResult UInt64 := do
  let elapsed ← bounded_text process ["elapsed"] 32
  (parse_elapsed elapsed).ok_or (.Process "process elapsed time is invalid".toList)

def parse_process (process : Json) : AppResult ProcessSnapshot := do
  let elapsed ← elapsed_seconds process
  let pid ← unsigned_u32 process ["pid"] "process PID is invalid"
  let start_ticks ← unsigned process ["startTicks"]
  let user ← bounded_text process ["user"] MAX_USERNAME_BYTES
  let cpu_percent ← bounded_number process ["cpuPercent"] 0.0 MAX_PROCESS_CPU_PERCENT
  let memory_percent ← bounded_number process ["memoryPercent"] 0.0 100.0
  let state ← bounded_text process ["state"] MAX_PROCESS_STATE_BYTES
  let command ← bounded_text process ["command"] MAX_PROCESS_COMMAND_BYTES
  .ok
    { pid := pid
      start_ticks := start_ticks
      user := user
      cpu_percent := cpu_percent
      memory_percent := memory_percent
      state := state
      elapsed_seconds := elapsed
      command := command }

def parse_memory (value : Json) : AppResult MemorySnapshot := do
  let used_bytes ← unsigned value ["memory", "usedBytes"]
  let total_bytes ← unsigned value ["memory", "totalBytes"]
  let swap_used_bytes ← unsigned value ["memory", "swapUsedBytes"]
  let swap_total_bytes ← unsigned value ["memory", "swapTotalBytes"]
  if used_bytes > total_bytes ∨ swap_used_bytes > swap_total_bytes then
    .error (.Process "telemetry memory capacity values are inconsistent".toList)
  else
    .ok
      { used_bytes := used_bytes
        total_bytes := total_bytes
        swap_used_bytes := swap_used_bytes
        swap_total_bytes := swap_total_bytes }

/-- The three values of the load, which are looked at after the rest. -/
def parse_load (value : Json) : AppResult (Json × Json × Json) := do
  let load ← ((value.at_path (path_of ["cpu", "loadAverage"])).bind Json.as_array).ok_or
    (.Process "telemetry loadAverage is invalid".toList)
  match load with
  | [load1, load5, load15] => .ok (load1, load5, load15)
  | _ => .error (.Process "telemetry loadAverage must contain exactly three values".toList)

def parse_cpu (value : Json) (load : Json × Json × Json) : AppResult CpuSnapshot := do
  let percent ← bounded_number value ["cpu", "totalPercent"] 0.0 100.0
  let load1 ← bounded_value_number load.1 "cpu.loadAverage[0]".toList 0.0 MAX_LOAD
  let load5 ← bounded_value_number load.2.1 "cpu.loadAverage[1]".toList 0.0 MAX_LOAD
  let load15 ← bounded_value_number load.2.2 "cpu.loadAverage[2]".toList 0.0 MAX_LOAD
  .ok { percent := percent, load1 := load1, load5 := load5, load15 := load15 }

def parse_network (value : Json) : AppResult NetworkSnapshot := do
  let receive ← bounded_number value ["network", "receiveBytesPerSecond"] 0.0 MAX_RATE
  let send ← bounded_number value ["network", "sendBytesPerSecond"] 0.0 MAX_RATE
  .ok { receive_bytes_per_second := receive, send_bytes_per_second := send }

/-- `serde_json::from_str`, and whether a text is a time of RFC 3339. -/
structure Decoders where
  from_str : Text → Except Text Json
  parse_from_rfc3339 : Text → Bool

/-- The checks of a decoded line. -/
def parse_value (decoders : Decoders) (host_id : Text) (value : Json) : AppResult TelemetrySnapshot := do
  let captured_at ← bounded_text value ["capturedAt"] MAX_CAPTURED_AT_BYTES
  if ¬ decoders.parse_from_rfc3339 captured_at then
    .error (.Process "telemetry capturedAt is invalid".toList)
  else do
    let load ← parse_load value
    let disks ← bounded_array value "disks" MAX_DISKS
    let disks ← disks.mapM parse_disk
    let gpus ← bounded_array value "gpus" MAX_GPUS
    let gpus ← gpus.mapM parse_gpu
    let processes ← bounded_array value "processes" MAX_PROCESSES
    let processes ← processes.mapM parse_process
    let memory ← parse_memory value
    let hostname ← bounded_text value ["hostname"] MAX_HOSTNAME_BYTES
    let current_user ← bounded_text value ["currentUser"] MAX_USERNAME_BYTES
    let cpu ← parse_cpu value load
    let network ← parse_network value
    .ok
      { host_id := host_id
        sampled_at := captured_at
        hostname := hostname
        current_user := current_user
        cpu := cpu
        memory := memory
        network := network
        disks := disks
        gpus := gpus
        processes := processes }

def parse_sample (decoders : Decoders) (host_id line : Text) : AppResult TelemetrySnapshot :=
  if host_id.isEmpty || 128 < host_id.len || host_id.any Text.is_control then
    .error (.State "telemetry host identity is invalid".toList)
  else do
    let value ← (decoders.from_str line).mapError .Json
    parse_value decoders host_id value

end Telemetry
