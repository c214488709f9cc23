import RemoteDeck.Lib.Json
import RemoteDeck.Lib.Python

/-! # The collector

    `collector.py`, which runs on the remote system and prints a line of JSON
    for every round.  A function that lets an exception through ends the
    collector; here it has no result then.

    This file defines:
    - `Remote`: what a round finds on the remote system
    - the readers of `/proc`, `ps` and `nvidia-smi`, under their names
    - `Sample`, what a round collects, and its `payload`
    - `emit`: the samples of a run
-/

namespace Collector

/-! ### The remote system -/

structure StatVfs where
  f_blocks : Nat
  f_frsize : Nat
  f_bfree : Nat
  f_bavail : Nat
  deriving DecidableEq

/-- A time of `datetime.now(timezone.utc)`. -/
structure UtcTime where
  year : Nat
  month : Nat
  day : Nat
  hour : Nat
  minute : Nat
  second : Nat
  microsecond : Nat
  year_lt : year < 10000
  month_lt : month < 100
  day_lt : day < 100
  hour_lt : hour < 100
  minute_lt : minute < 100
  second_lt : second < 100
  microsecond_lt : microsecond < 1000000

/-- What a round finds.  What cannot be read, or is the output of a program
    that fails, is none. -/
structure Remote where
  utc : UtcTime
  monotonic : Float
  hostname : Text
  user : Text
  /-- `/proc/stat`, `/proc/meminfo`, `/proc/net/dev` and `/proc/uptime`. -/
  stat : Text
  meminfo : Text
  net_dev : Text
  uptime : Text
  loadavg : Float × Float × Float
  /-- The files of the thermal zones. -/
  thermal_zones : List (Option Text)
  mounts : Option Text
  statvfs : Text → Option StatVfs
  st_dev : Text → Option Nat
  ps : Option Text
  process_stat : Int → Option Text
  gpus : Option Text
  compute_apps : Option Text

/-! ### Processors, memory, network -/

/-- The total and the idle time of the processors, up to the first other line. -/
def cpu_rows (python : Python) : List (List Text) → Option (List (Int × Int))
  | [] => some []
  | [] :: _ => some []
  | (name :: values) :: rows =>
      if !name.starts_with "cpu".toList then some []
      else do
        let numbers ← values.mapM python.int
        let idle ← numbers[3]?
        let more ← cpu_rows python rows
        some ((numbers.sum, idle + numbers[4]?.getD 0) :: more)

def cpu_times (python : Python) (stat : Text) : Option (List (Int × Int)) :=
  cpu_rows python ((Python.file_lines stat).map Python.split)

def busy_percent (python : Python) (before after : Int × Int) : Float :=
  let total := max 1 (after.1 - before.1)
  let idle := max 0 (after.2 - before.2)
  python.round
    (Python.max_float 0.0 (Python.min_float 100.0 ((1.0 - python.true_div idle total) * 100.0))) 1

def cpu_percent (python : Python) (previous current : List (Int × Int)) : List Float :=
  (previous.zip current).map fun times => busy_percent python times.1 times.2

def meminfo_line (python : Python) (line : Text) : Option (Text × Int) := do
  let (key, value) ← Text.split_once ':' line
  let first ← (Python.split (Python.strip value)).head?
  let number ← python.int first
  some (key, number * 1024)

/-- The last value of a key, as in a `dict` that is filled in this order. -/
def last_value {Value : Type} (entries : List (Text × Value)) (key : Text) : Option Value :=
  (entries.reverse.find? fun entry => entry.1 = key).map Prod.snd

structure Memory where
  total : Int
  available : Int
  swap_total : Int
  swap_free : Int
  deriving DecidableEq

def meminfo (python : Python) (contents : Text) : Option Memory := do
  let values ← (Python.file_lines contents).mapM (meminfo_line python)
  some
    { total := (last_value values "MemTotal".toList).getD 0
      available := ((last_value values "MemAvailable".toList).or
        (last_value values "MemFree".toList)).getD 0
      swap_total := (last_value values "SwapTotal".toList).getD 0
      swap_free := (last_value values "SwapFree".toList).getD 0 }

/-- The bytes that an interface has received and sent; the loopback counts for none. -/
def interface_totals (python : Python) (line : Text) : Option (Int × Int) := do
  let (interface, raw) ← Text.split_once ':' line
  if Python.strip interface = "lo".toList then some (0, 0)
  else do
    let fields := Python.split raw
    let received ← fields[0]? >>= python.int
    let sent ← fields[8]? >>= python.int
    some (received, sent)

def network_totals (python : Python) (net_dev : Text) : Option (Int × Int) := do
  let totals ← ((Python.file_lines net_dev).drop 2).mapM (interface_totals python)
  some ((totals.map Prod.fst).sum, (totals.map Prod.snd).sum)

/-- `max(0, (current - previous) / elapsed)`. -/
def rate (previous current : Int) (elapsed : Float) : Option Number :=
  let difference := Float.ofInt (current - previous)
  if !difference.isFinite then none
  else if 0.0 < difference / elapsed then some (.float (difference / elapsed)) else some (.int 0)

def temperature_of (python : Python) (contents : Option Text) : Option Float := do
  let value ← contents >>= fun contents => python.float (Python.strip contents)
  let value := if 1000.0 < value then value / 1000.0 else value
  if 0.0 < value ∧ value < 150.0 then some value else none

def temperatures (python : Python) (zones : List (Option Text)) : Option Float :=
  match zones.filterMap (temperature_of python) with
  | [] => none
  | value :: values => some (python.round (values.foldl Python.max_float value) 1)

def uptime (python : Python) (contents : Text) : Option Int := do
  let first ← (Python.split contents).head?
  let seconds ← python.float first
  let seconds ← python.trunc seconds
  some (max 0 seconds)

/-! ### Disks -/

def ignored : List Text :=
  ["proc", "sysfs", "devtmpfs", "devpts", "tmpfs", "cgroup", "cgroup2", "overlay", "squashfs",
    "tracefs", "securityfs", "pstore", "debugfs", "mqueue", "hugetlbfs", "fusectl", "configfs",
    "rpc_pipefs", "autofs", "binfmt_misc"].map String.toList

/-- The file system that is mounted somewhere, if it can be asked. -/
structure Mounted where
  mount : Text
  info : StatVfs
  device : Nat
  deriving DecidableEq

/-- The place and the file system of a line of the mounts. -/
def mounted_of (remote : Remote) (fields : List Text) : Option Mounted :=
  match fields with
  | _ :: mount :: kind :: _ =>
      if kind ∈ ignored then none
      else do
        let mount := Python.replace "\\040".toList " ".toList mount
        let info ← remote.statvfs mount
        let device ← remote.st_dev mount
        if info.f_blocks = 0 then none else some ⟨mount, info, device⟩
  | _ => none

/-- Every device is taken once. -/
def first_mounts : List Nat → List Mounted → List Mounted
  | _, [] => []
  | seen, mounted :: rest =>
      if mounted.device ∈ seen then first_mounts seen rest
      else mounted :: first_mounts (mounted.device :: seen) rest

structure Disk where
  mount : Text
  totalBytes : Nat
  usedBytes : Nat
  availableBytes : Nat

def Mounted.disk (mounted : Mounted) : Disk where
  mount := Python.up_to 1024 mounted.mount
  totalBytes := mounted.info.f_blocks * mounted.info.f_frsize
  usedBytes := mounted.info.f_blocks * mounted.info.f_frsize - mounted.info.f_bfree * mounted.info.f_frsize
  availableBytes := mounted.info.f_bavail * mounted.info.f_frsize

/-- The file systems that are reported. -/
def reported_mounts (remote : Remote) : List Mounted :=
  let rows := match remote.mounts with
    | some contents => (Python.file_lines contents).map Python.split
    | none => []
  (first_mounts [] (rows.filterMap (mounted_of remote))).take 128

def disks (remote : Remote) : List Disk := (reported_mounts remote).map Mounted.disk

/-! ### Processes -/

def process_start_ticks (python : Python) (remote : Remote) (pid : Int) : Int :=
  let ticks := do
    let contents ← remote.process_stat pid
    let stat := Python.up_to 8192 contents
    let fields_after_name := Python.split (Python.from_index (Python.rfind ')' stat + 2) stat)
    let field ← fields_after_name[19]?
    let ticks ← python.int field
    some (max 0 ticks)
  ticks.getD 0

/-- The columns of a line of `ps` that is complete and has numbers where they belong. -/
structure ProcessRow where
  pid : Int
  ppid : Int
  user : Text
  pcpu : Float
  pmem : Float
  stat : Text
  etimes : Text
  args : Text
  deriving DecidableEq

def process_row (python : Python) (line : Text) : Option ProcessRow :=
  match Python.split_max 7 (Python.strip line) with
  | [pid, ppid, user, pcpu, pmem, stat, etimes, args] => do
      let pid ← python.int pid
      let ppid ← python.int ppid
      let pcpu ← python.float pcpu
      let pmem ← python.float pmem
      some ⟨pid, ppid, user, pcpu, pmem, stat, etimes, args⟩
  | _ => none

structure Process where
  pid : Int
  startTicks : Int
  ppid : Int
  user : Text
  cpuPercent : Float
  memoryPercent : Float
  state : Text
  elapsed : Text
  command : Text

def ProcessRow.process (python : Python) (remote : Remote) (row : ProcessRow) : Process where
  pid := row.pid
  startTicks := process_start_ticks python remote row.pid
  ppid := row.ppid
  user := Python.up_to 256 row.user
  cpuPercent := Python.max_float 0.0 row.pcpu
  memoryPercent := Python.max_float 0.0 row.pmem
  state := Python.up_to 32 row.stat
  elapsed := Python.up_to 32 row.etimes
  command := Python.up_to 512 row.args

/-- The lines of `ps` that are reported. -/
def reported_rows (python : Python) (remote : Remote) : List ProcessRow :=
  match remote.ps with
  | some output =>
      ((Python.splitlines (Python.universal_newlines output)).take 256).filterMap (process_row python)
  | none => []

def processes (python : Python) (remote : Remote) : List Process :=
  (reported_rows python remote).map (ProcessRow.process python remote)

/-! ### GPUs -/

def number (python : Python) (value : Text) : Option Float :=
  let value := Python.strip value
  if value ∈ ["N/A".toList, "[N/A]".toList, "Not Supported".toList] then none
  else (python.float value).filter Float.isFinite

/-- `number(value) or 0`: both zeros of the doubles are false. -/
def or_zero : Option Float → Number
  | some value => if value == 0.0 then .int 0 else .float value
  | none => .int 0

structure Gpu where
  index : Int
  name : Text
  utilizationPercent : Number
  memoryUsedMiB : Number
  memoryTotalMiB : Number
  temperatureC : Option Float
  powerW : Option Float

/-- The columns of a row of `nvidia-smi` that is complete and begins with a number. -/
structure GpuRow where
  index : Int
  uuid : Text
  name : Text
  utilization : Text
  used : Text
  total : Text
  temperature : Text
  power : Text
  deriving DecidableEq

def gpu_row (python : Python) (raw_fields : List Text) : Option GpuRow :=
  match raw_fields.map Python.strip with
  | [index, uuid, name, utilization, used, total, temperature, power] => do
      let index ← python.int index
      some ⟨index, uuid, name, utilization, used, total, temperature, power⟩
  | _ => none

def GpuRow.gpu (python : Python) (row : GpuRow) : Gpu where
  index := row.index
  name := Python.up_to 256 row.name
  utilizationPercent := or_zero (number python row.utilization)
  memoryUsedMiB := or_zero (number python row.used)
  memoryTotalMiB := or_zero (number python row.total)
  temperatureC := number python row.temperature
  powerW := number python row.power

def csv_rows (output : Text) : List (List Text) :=
  Python.csv_reader (Python.splitlines (Python.universal_newlines output))

def gpu_rows (python : Python) (remote : Remote) : List GpuRow :=
  match remote.gpus with
  | some output => (csv_rows output).filterMap (gpu_row python)
  | none => []

structure GpuProcess where
  gpuIndex : Int
  pid : Int
  memoryUsedMiB : Number

def gpu_process (python : Python) (uuid_to_index : List (Text × Int)) (raw_fields : List Text) :
    Option GpuProcess :=
  match raw_fields.map Python.strip with
  | [uuid, pid, used] => do
      let index ← last_value uuid_to_index uuid
      let pid ← python.int pid
      some ⟨index, pid, or_zero (number python used)⟩
  | _ => none

/-- The GPUs that are reported. -/
def reported_gpus (python : Python) (remote : Remote) : List GpuRow := (gpu_rows python remote).take 32

/-- The second query is made if the first one succeeds. -/
def gpu_data (python : Python) (remote : Remote) : List Gpu × List GpuProcess :=
  let uuid_to_index := (gpu_rows python remote).map fun row => (row.uuid, row.index)
  let rows := match remote.gpus, remote.compute_apps with
    | some _, some output => csv_rows output
    | _, _ => []
  ((reported_gpus python remote).map (GpuRow.gpu python),
    (rows.filterMap (gpu_process python uuid_to_index)).take 256)

/-! ### Samples -/

/-- A number with leading zeros. -/
def pad (width n : Nat) : Text :=
  let digits := Nat.toDigits 10 n
  List.replicate (width - digits.length) '0' ++ digits

/-- `isoformat`, which leaves microseconds out when there are none. -/
def isoformat (utc : UtcTime) : Text :=
  pad 4 utc.year ++ '-' :: pad 2 utc.month ++ '-' :: pad 2 utc.day ++ 'T' :: pad 2 utc.hour ++
    ':' :: pad 2 utc.minute ++ ':' :: pad 2 utc.second ++
    (if utc.microsecond = 0 then [] else '.' :: pad 6 utc.microsecond) ++ "+00:00".toList

def captured_at (utc : UtcTime) : Text :=
  Python.replace "+00:00".toList "Z".toList (isoformat utc)

/-- What is kept for the next round. -/
structure Readings where
  cpu : List (Int × Int)
  network : Int × Int
  time : Float

structure Sample where
  capturedAt : Text
  hostname : Text
  currentUser : Text
  cpu : List Float
  loadAverage : Float × Float × Float
  temperatureC : Option Float
  memory : Memory
  network : Int × Int
  receiveBytesPerSecond : Number
  sendBytesPerSecond : Number
  disks : List Disk
  processes : List Process
  gpus : List Gpu
  gpuProcesses : List GpuProcess
  uptimeSeconds : Int

def first_readings (python : Python) (remote : Remote) : Option Readings := do
  let cpu ← cpu_times python remote.stat
  let network ← network_totals python remote.net_dev
  some ⟨cpu, network, remote.monotonic⟩

/-- The time since the last round, which is positive. -/
def elapsed (previous : Readings) (remote : Remote) : Float :=
  Python.max_float 0.001 (remote.monotonic - previous.time)

/-- One round of the loop. -/
def collect (python : Python) (previous : Readings) (remote : Remote) : Option (Sample × Readings) := do
  let cpu ← cpu_times python remote.stat
  let network ← network_totals python remote.net_dev
  let memory ← meminfo python remote.meminfo
  let receive ← rate previous.network.1 network.1 (elapsed previous remote)
  let send ← rate previous.network.2 network.2 (elapsed previous remote)
  let uptime ← uptime python remote.uptime
  some
    ({ capturedAt := captured_at remote.utc
       hostname := remote.hostname
       currentUser := remote.user
       cpu := cpu_percent python previous.cpu cpu
       loadAverage := (python.round remote.loadavg.1 2, python.round remote.loadavg.2.1 2,
         python.round remote.loadavg.2.2 2)
       temperatureC := temperatures python remote.thermal_zones
       memory := memory
       network := network
       receiveBytesPerSecond := receive
       sendBytesPerSecond := send
       disks := disks remote
       processes := processes python remote
       gpus := (gpu_data python remote).1
       gpuProcesses := (gpu_data python remote).2
       uptimeSeconds := uptime },
      ⟨cpu, network, remote.monotonic⟩)

/-- The samples of a run, up to the round that ends the collector. -/
def emit (python : Python) : Readings → List Remote → List Sample
  | _, [] => []
  | previous, remote :: rounds =>
      match collect python previous remote with
      | some (sample, readings) => sample :: emit python readings rounds
      | none => []

/-! ### Payloads -/

def int (value : Int) : Json := .number (.int value)

def float (value : Float) : Json := .number (.float value)

def optional_float : Option Float → Json
  | some value => float value
  | none => .null

def object (members : List (String × Json)) : Json :=
  .object (members.map fun member => (member.1.toList, member.2))

def Disk.payload (disk : Disk) : Json :=
  object [("mount", .string disk.mount), ("totalBytes", int disk.totalBytes),
    ("usedBytes", int disk.usedBytes), ("availableBytes", int disk.availableBytes)]

def Process.payload (process : Process) : Json :=
  object [("pid", int process.pid), ("startTicks", int process.startTicks), ("ppid", int process.ppid),
    ("user", .string process.user), ("cpuPercent", float process.cpuPercent),
    ("memoryPercent", float process.memoryPercent), ("state", .string process.state),
    ("elapsed", .string process.elapsed), ("command", .string process.command)]

def Gpu.payload (gpu : Gpu) : Json :=
  object [("index", int gpu.index), ("name", .string gpu.name),
    ("utilizationPercent", .number gpu.utilizationPercent),
    ("memoryUsedMiB", .number gpu.memoryUsedMiB), ("memoryTotalMiB", .number gpu.memoryTotalMiB),
    ("temperatureC", optional_float gpu.temperatureC), ("powerW", optional_float gpu.powerW)]

def GpuProcess.payload (process : GpuProcess) : Json :=
  object [("gpuIndex", int process.gpuIndex), ("pid", int process.pid),
    ("memoryUsedMiB", .number process.memoryUsedMiB)]

/-- `cpu_values[0] if cpu_values else 0`. -/
def Sample.totalPercent (sample : Sample) : Number :=
  match sample.cpu with
  | total :: _ => .float total
  | [] => .int 0

def Sample.payload (sample : Sample) : Json :=
  object [("schemaVersion", int 1), ("capturedAt", .string sample.capturedAt),
    ("hostname", .string sample.hostname), ("currentUser", .string sample.currentUser),
    ("cpu", object [("totalPercent", .number sample.totalPercent),
      ("perCorePercent", .array (sample.cpu.tail.map float)),
      ("loadAverage", .array [float sample.loadAverage.1, float sample.loadAverage.2.1,
        float sample.loadAverage.2.2]),
      ("temperatureC", optional_float sample.temperatureC)]),
    ("memory", object [("totalBytes", int sample.memory.total),
      ("usedBytes", int (max 0 (sample.memory.total - sample.memory.available))),
      ("swapTotalBytes", int sample.memory.swap_total),
      ("swapUsedBytes", int (max 0 (sample.memory.swap_total - sample.memory.swap_free)))]),
    ("network", object [("receivedBytes", int sample.network.1), ("sentBytes", int sample.network.2),
      ("receiveBytesPerSecond", .number sample.receiveBytesPerSecond),
      ("sendBytesPerSecond", .number sample.sendBytesPerSecond)]),
    ("disks", .array (sample.disks.map Disk.payload)),
    ("processes", .array (sample.processes.map Process.payload)),
    ("gpus", .array (sample.gpus.map Gpu.payload)),
    ("gpuProcesses", .array (sample.gpuProcesses.map GpuProcess.payload)),
    ("uptimeSeconds", int sample.uptimeSeconds)]

/-- The line that is printed for a sample. -/
def Sample.line (python : Python) (sample : Sample) : Text := Json.dumps python.repr sample.payload

end Collector
