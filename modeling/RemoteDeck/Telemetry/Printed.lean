import RemoteDeck.Telemetry.Accepted

/-! # What the collector prints

    Which states of a remote system lead to a line that the reader takes, with
    the values of the collector.

    The collector cuts texts after so many characters, the reader counts
    bytes, refuses control characters and compares values with each other; and
    the line as a whole may be too long.

    This file defines:
    - `Sample.size`: the bytes of a line, reading by reading
    - `Presentable`: what a round has to find
    - `Delivered`: the line is read, and accepted with its values
-/

namespace Collector

open Telemetry Outcome

/-! ### Lengths -/

section Sizes

variable (python : Python)

/-- The bytes of a text and its quotes. -/
def text_size (value : Text) : Nat := (Json.dumps_string value).len

def number_size (value : Number) : Nat := (Json.dumps_number python.repr value).len

def int_size (value : Int) : Nat := number_size python (.int value)

def float_size (value : Float) : Nat := number_size python (.float value)

def optional_size : Option Float → Nat
  | some value => float_size python value
  | none => 4

/-- Braces, the keys with their colons, the values, and commas. -/
def object_size (members : List (String × Nat)) : Nat :=
  2 + (members.map fun member => text_size member.1.toList + 1 + member.2).sum + (members.length - 1)

/-- Brackets, the items, and commas. -/
def list_size {α : Type} (size : α → Nat) (items : List α) : Nat :=
  2 + (items.map size).sum + (items.length - 1)

def Disk.size (disk : Disk) : Nat :=
  object_size [("mount", text_size disk.mount), ("totalBytes", int_size python disk.totalBytes),
    ("usedBytes", int_size python disk.usedBytes),
    ("availableBytes", int_size python disk.availableBytes)]

def Process.size (process : Process) : Nat :=
  object_size [("pid", int_size python process.pid), ("startTicks", int_size python process.startTicks),
    ("ppid", int_size python process.ppid), ("user", text_size process.user),
    ("cpuPercent", float_size python process.cpuPercent),
    ("memoryPercent", float_size python process.memoryPercent), ("state", text_size process.state),
    ("elapsed", text_size process.elapsed), ("command", text_size process.command)]

def Gpu.size (gpu : Gpu) : Nat :=
  object_size [("index", int_size python gpu.index), ("name", text_size gpu.name),
    ("utilizationPercent", number_size python gpu.utilizationPercent),
    ("memoryUsedMiB", number_size python gpu.memoryUsedMiB),
    ("memoryTotalMiB", number_size python gpu.memoryTotalMiB),
    ("temperatureC", optional_size python gpu.temperatureC), ("powerW", optional_size python gpu.powerW)]

def GpuProcess.size (process : GpuProcess) : Nat :=
  object_size [("gpuIndex", int_size python process.gpuIndex), ("pid", int_size python process.pid),
    ("memoryUsedMiB", number_size python process.memoryUsedMiB)]

/-- The bytes of a line, reading by reading. -/
def Sample.size (sample : Sample) : Nat :=
  object_size [("schemaVersion", 1), ("capturedAt", text_size sample.capturedAt),
    ("hostname", text_size sample.hostname), ("currentUser", text_size sample.currentUser),
    ("cpu", object_size [("totalPercent", number_size python sample.totalPercent),
      ("perCorePercent", list_size (float_size python) sample.cpu.tail),
      ("loadAverage", list_size (float_size python)
        [sample.loadAverage.1, sample.loadAverage.2.1, sample.loadAverage.2.2]),
      ("temperatureC", optional_size python sample.temperatureC)]),
    ("memory", object_size [("totalBytes", int_size python sample.memory.total),
      ("usedBytes", int_size python sample.memory.used),
      ("swapTotalBytes", int_size python sample.memory.swap_total),
      ("swapUsedBytes", int_size python sample.memory.swap_used)]),
    ("network", object_size [("receivedBytes", int_size python sample.network.1),
      ("sentBytes", int_size python sample.network.2),
      ("receiveBytesPerSecond", number_size python sample.receiveBytesPerSecond),
      ("sendBytesPerSecond", number_size python sample.sendBytesPerSecond)]),
    ("disks", list_size (Disk.size python) sample.disks),
    ("processes", list_size (Process.size python) sample.processes),
    ("gpus", list_size (Gpu.size python) sample.gpus),
    ("gpuProcesses", list_size (GpuProcess.size python) sample.gpuProcesses),
    ("uptimeSeconds", int_size python sample.uptimeSeconds)]

theorem dumps_object_len (members : List (String × Json)) :
    (Json.dumps python.repr (object members)).len =
      object_size (members.map fun member => (member.1, (Json.dumps python.repr member.2).len)) := by
  unfold object object_size
  rw [Json.len_dumps_object, List.map_map, List.map_map, List.length_map, List.length_map]
  simp only [Function.comp_def, Json.len_dumps_member]
  rfl

theorem dumps_array_len {α : Type} {payload : α → Json} {size : α → Nat}
    (h : ∀ item, (Json.dumps python.repr (payload item)).len = size item) (items : List α) :
    (Json.dumps python.repr (.array (items.map payload))).len = list_size size items := by
  unfold list_size
  rw [Json.len_dumps_array, List.map_map, List.length_map]
  simp only [Function.comp_def, h]

theorem dumps_int_len (value : Int) :
    (Json.dumps python.repr (int value)).len = int_size python value := by
  unfold int int_size number_size
  rw [Json.dumps]

theorem dumps_float_len (value : Float) :
    (Json.dumps python.repr (float value)).len = float_size python value := by
  unfold float float_size number_size
  rw [Json.dumps]

theorem dumps_number_len (value : Number) :
    (Json.dumps python.repr (.number value)).len = number_size python value := by
  unfold number_size
  rw [Json.dumps]

theorem dumps_text_len (value : Text) :
    (Json.dumps python.repr (.string value)).len = text_size value := by
  unfold text_size
  rw [Json.dumps]

theorem dumps_optional_len (value : Option Float) :
    (Json.dumps python.repr (optional_float value)).len = optional_size python value := by
  cases value with
  | none =>
    unfold optional_float
    rw [Json.dumps]
    rfl
  | some value => exact dumps_float_len python value

theorem Disk.payload_len (disk : Disk) :
    (Json.dumps python.repr disk.payload).len = disk.size python := by
  unfold Disk.payload Disk.size
  simp only [dumps_object_len, List.map_cons, List.map_nil, dumps_int_len, dumps_text_len]

theorem Process.payload_len (process : Process) :
    (Json.dumps python.repr process.payload).len = process.size python := by
  unfold Process.payload Process.size
  simp only [dumps_object_len, List.map_cons, List.map_nil, dumps_int_len, dumps_text_len, dumps_float_len]

theorem Gpu.payload_len (gpu : Gpu) : (Json.dumps python.repr gpu.payload).len = gpu.size python := by
  unfold Gpu.payload Gpu.size
  simp only [dumps_object_len, List.map_cons, List.map_nil, dumps_int_len, dumps_text_len, dumps_number_len,
    dumps_optional_len]

theorem GpuProcess.payload_len (process : GpuProcess) :
    (Json.dumps python.repr process.payload).len = process.size python := by
  unfold GpuProcess.payload GpuProcess.size
  simp only [dumps_object_len, List.map_cons, List.map_nil, dumps_int_len, dumps_number_len]

/-- The length of the line is the sum of the sizes. -/
theorem Sample.line_len (sample : Sample) : (sample.line python).len = sample.size python := by
  have hload : (Json.dumps python.repr (.array [float sample.loadAverage.1,
      float sample.loadAverage.2.1, float sample.loadAverage.2.2])).len = list_size (float_size python)
        [sample.loadAverage.1, sample.loadAverage.2.1, sample.loadAverage.2.2] :=
    dumps_array_len python (dumps_float_len python) [_, _, _]
  have hversion : int_size python 1 = 1 := rfl
  unfold Sample.line Sample.payload Sample.size Memory.used Memory.swap_used
  simp only [hload, dumps_object_len, List.map_cons, List.map_nil, dumps_int_len, dumps_text_len, dumps_number_len,
    dumps_optional_len, dumps_array_len python (dumps_float_len python),
    dumps_array_len python (Disk.payload_len python), dumps_array_len python (Process.payload_len python),
    dumps_array_len python (Gpu.payload_len python), dumps_array_len python (GpuProcess.payload_len python),
    hversion]

end Sizes

/-! ### Rounds -/

variable {python : Python} {previous readings : Readings} {remote : Remote} {sample : Sample}

/-- What a round puts in its sample. -/
structure Collected (python : Python) (previous : Readings) (remote : Remote) (sample : Sample) :
    Prop where
  capturedAt : sample.capturedAt = captured_at remote.utc
  hostname : sample.hostname = remote.hostname
  currentUser : sample.currentUser = remote.user
  cpu : ∃ times, sample.cpu = cpu_percent python previous.cpu times
  loadAverage : sample.loadAverage = (python.round remote.loadavg.1 2,
    python.round remote.loadavg.2.1 2, python.round remote.loadavg.2.2 2)
  temperatureC : sample.temperatureC = temperatures python remote.thermal_zones
  memory : meminfo python remote.meminfo = some sample.memory
  network : network_totals python remote.net_dev = some sample.network
  receive : rate previous.network.1 sample.network.1 (elapsed previous remote) =
    some sample.receiveBytesPerSecond
  send : rate previous.network.2 sample.network.2 (elapsed previous remote) =
    some sample.sendBytesPerSecond
  disks : sample.disks = disks remote
  processes : sample.processes = processes python remote
  gpus : sample.gpus = (gpu_data python remote).1
  gpuProcesses : sample.gpuProcesses = (gpu_data python remote).2

theorem collected (h : collect python previous remote = some (sample, readings)) :
    Collected python previous remote sample := by
  unfold collect at h
  simp only [Option.bind_eq_bind, Option.bind_eq_some_iff, Option.some.injEq, Prod.mk.injEq] at h
  obtain ⟨cpu, hcpu, network, hnetwork, memory, hmemory, receive, hreceive, send, hsend, uptime,
    huptime, hsample, -⟩ := h
  subst hsample
  exact
    { capturedAt := by dsimp only
      hostname := rfl
      currentUser := rfl
      cpu := ⟨cpu, rfl⟩
      loadAverage := rfl
      temperatureC := rfl
      memory := hmemory
      network := hnetwork
      receive := hreceive
      send := hsend
      disks := rfl
      processes := rfl
      gpus := rfl
      gpuProcesses := rfl }

/-! ### Numbers -/

theorem between_max {high x : Float} (hhigh : 0.0 ≤ high) :
    Between 0.0 high (Python.max_float 0.0 x) ↔ (0.0 < x → x ≤ high) := by
  obtain ⟨-, ⟨hzero, -⟩, -⟩ := limits
  unfold Python.max_float
  by_cases hx : 0.0 < x
  · rw [if_pos hx]
    exact ⟨fun h _ => h.2, fun h => ⟨Float.le_of_lt hx, h hx⟩⟩
  · rw [if_neg hx]
    exact ⟨fun _ hpos => absurd hpos hx, fun _ => ⟨hzero, hhigh⟩⟩

/-- The share of the time that processors are busy is a percentage. -/
theorem busy_percent_range (python : Python) (before after : Int × Int) :
    Between 0.0 100.0 (busy_percent python before after) := by
  obtain ⟨-, -, ⟨hhundred, hself⟩, -⟩ := limits
  have hclamped : ∀ x, Between 0.0 100.0 (Python.max_float 0.0 (Python.min_float 100.0 x)) := by
    intro x
    rw [between_max hhundred]
    intro _
    unfold Python.min_float
    by_cases hx : x < 100.0
    · rw [if_pos hx]
      exact Float.le_of_lt hx
    · rw [if_neg hx]
      exact hself
  have hrange := hclamped
    ((1.0 - python.true_div (max 0 (after.2 - before.2)) (max 1 (after.1 - before.1))) * 100.0)
  exact python.round_percent _ 1 hrange.1 hrange.2

theorem Collected.percent (h : Collected python previous remote sample) :
    ∀ value ∈ sample.cpu, Between 0.0 100.0 value := by
  obtain ⟨times, hcpu⟩ := h.cpu
  rw [hcpu]
  intro value hvalue
  obtain ⟨pair, -, rfl⟩ := List.mem_map.mp hvalue
  exact busy_percent_range python pair.1 pair.2

/-- The rate of a reading is small if it has grown. -/
def Slow (previous current : Int) (elapsed : Float) : Prop :=
  0.0 < Float.ofInt (current - previous) / elapsed → Float.ofInt (current - previous) / elapsed ≤ MAX_RATE

theorem rate_range {before current : Int} {elapsed : Float} {number : Number}
    (h : rate before current elapsed = some number) :
    Between 0.0 MAX_RATE (to_f64 number) ↔ Slow before current elapsed := by
  obtain ⟨-, -, -, -, -, hzero⟩ := limits
  unfold rate at h
  dsimp only at h
  unfold Slow
  split_ifs at h with hfinite hgrown
  · obtain rfl := Option.some.inj h
    exact ⟨fun hrange _ => hrange.2, fun hslow => ⟨Float.le_of_lt hgrown, hslow hgrown⟩⟩
  · obtain rfl := Option.some.inj h
    exact ⟨fun _ hpos => absurd hpos hgrown, fun _ => hzero⟩

/-! ### Texts -/

/-- A text of so many bytes without control characters. -/
def Plain (max_bytes : Nat) (t : Text) : Prop :=
  t.len ≤ max_bytes ∧ ∀ c ∈ t, Text.is_control c = false

theorem bounded_iff {max_bytes : Nat} {t : Text} :
    bounded max_bytes t = true ↔ t ≠ [] ∧ Plain max_bytes t := by
  unfold bounded Plain
  simp [and_assoc]

theorem bounded_up_to {max_bytes n : Nat} {t : Text} (hne : t ≠ []) (hn : 0 < n) :
    bounded max_bytes (Python.up_to n t) = true ↔ Plain max_bytes (Python.up_to n t) := by
  rw [bounded_iff, and_iff_right]
  unfold Python.up_to
  simp [hne]
  omega

theorem isDigit_bounds {c : Char} (h : c.isDigit = true) : 48 ≤ c.toNat ∧ c.toNat ≤ 57 := by
  have hdigit : c.val ≥ '0'.val ∧ c.val ≤ '9'.val := by simpa [Char.isDigit] using h
  exact ⟨UInt32.le_iff_toNat_le.mp hdigit.1, UInt32.le_iff_toNat_le.mp hdigit.2⟩

/-- Characters of ASCII that are printed. -/
def Printable (t : Text) : Prop := ∀ c ∈ t, 32 ≤ c.toNat ∧ c.toNat < 127

theorem Printable.append {a b : Text} (ha : Printable a) (hb : Printable b) : Printable (a ++ b) :=
  fun c hc => (List.mem_append.mp hc).elim (ha c) (hb c)

theorem Printable.cons {c : Char} {t : Text} (hc : 32 ≤ c.toNat ∧ c.toNat < 127) (ht : Printable t) :
    Printable (c :: t) := by
  intro d hd
  rcases List.mem_cons.mp hd with rfl | hd
  · exact hc
  · exact ht d hd

theorem plain_char {c : Char} (h : 32 ≤ c.toNat ∧ c.toNat < 127) : Text.is_control c = false := by
  unfold Text.is_control
  simp
  omega

theorem parse_digits_chars {t : Text} (h : (parse_digits t).isSome = true) :
    t ≠ [] ∧ Printable t := by
  unfold parse_digits at h
  split at h
  · next hnumber =>
    rw [Bool.and_eq_true, Bool.and_eq_true] at hnumber
    refine ⟨by simpa using hnumber.1.1, ?_⟩
    intro c hc
    have hbounds := isDigit_bounds (List.all_eq_true.mp hnumber.1.2 c hc)
    omega
  · cases h

/-- A text of a number has digits, and perhaps a sign. -/
theorem parse_elapsed_chars {t : Text} (h : (parse_elapsed t).isSome = true) :
    t ≠ [] ∧ Printable t := by
  unfold parse_elapsed at h
  split at h
  · next digits =>
    exact ⟨List.cons_ne_nil _ _, .cons (by decide) (parse_digits_chars h).2⟩
  · exact parse_digits_chars h

theorem bounded_of_elapsed {n : Nat} {t : Text} (h : (parse_elapsed (Python.up_to n t)).isSome = true) :
    bounded n (Python.up_to n t) = true := by
  obtain ⟨hne, hchars⟩ := parse_elapsed_chars h
  have hlen : Text.len (Python.up_to n t) = (Python.up_to n t).length :=
    Text.len_of_ascii fun c hc => (hchars c hc).2.trans (by decide)
  have hlength : (Python.up_to n t).length ≤ n := List.length_take_le n t
  rw [bounded_iff]
  exact ⟨hne, by omega, fun c hc => plain_char (hchars c hc)⟩

/-! ### The time -/

theorem pad_spec {width n : Nat} (h : n < 10 ^ width) (hwidth : 0 < width) :
    (pad width n).length = width ∧ Printable (pad width n) := by
  have hdigits : (Nat.toDigits 10 n).length ≤ width := Nat.length_toDigits_le_iff (by decide) hwidth |>.mpr h
  constructor
  · unfold pad
    rw [List.length_append, List.length_replicate]
    omega
  · intro c hc
    rcases List.mem_append.mp hc with hc | hc
    · rw [List.eq_of_mem_replicate hc]
      decide
    · have hbounds := isDigit_bounds (Nat.isDigit_of_mem_toDigits (by decide) (by decide) hc)
      omega

/-- A time has at most 32 characters, and they are printable. -/
theorem isoformat_spec (utc : UtcTime) : (isoformat utc).length ≤ 32 ∧ Printable (isoformat utc) := by
  obtain ⟨hyear, cyear⟩ := @pad_spec 4 utc.year utc.year_lt (by decide)
  obtain ⟨hmonth, cmonth⟩ := @pad_spec 2 utc.month utc.month_lt (by decide)
  obtain ⟨hday, cday⟩ := @pad_spec 2 utc.day utc.day_lt (by decide)
  obtain ⟨hhour, chour⟩ := @pad_spec 2 utc.hour utc.hour_lt (by decide)
  obtain ⟨hminute, cminute⟩ := @pad_spec 2 utc.minute utc.minute_lt (by decide)
  obtain ⟨hsecond, csecond⟩ := @pad_spec 2 utc.second utc.second_lt (by decide)
  obtain ⟨hmicro, cmicro⟩ := @pad_spec 6 utc.microsecond utc.microsecond_lt (by decide)
  have hfraction : (if utc.microsecond = 0 then [] else '.' :: pad 6 utc.microsecond).length ≤ 7 := by
    split <;> simp [hmicro]
  have cfraction : Printable (if utc.microsecond = 0 then [] else '.' :: pad 6 utc.microsecond) := by
    split
    · exact fun c hc => nomatch hc
    · exact .cons (by decide) cmicro
  have hzone : "+00:00".toList.length = 6 := by decide
  have czone : Printable "+00:00".toList := Text.forall_mem_of_all (by decide)
  unfold isoformat
  constructor
  · simp only [List.length_append, List.length_cons, hyear, hmonth, hday, hhour, hminute, hsecond, hzone]
    omega
  · have hdate : Printable (pad 4 utc.year ++ '-' :: pad 2 utc.month ++ '-' :: pad 2 utc.day) :=
      (cyear.append (.cons (by decide) cmonth)).append (.cons (by decide) cday)
    have hclock : Printable (pad 4 utc.year ++ '-' :: pad 2 utc.month ++ '-' :: pad 2 utc.day ++
        'T' :: pad 2 utc.hour ++ ':' :: pad 2 utc.minute ++ ':' :: pad 2 utc.second) :=
      ((hdate.append (.cons (by decide) chour)).append (.cons (by decide) cminute)).append
        (.cons (by decide) csecond)
    exact (hclock.append cfraction).append czone

theorem captured_at_bounded (utc : UtcTime) : bounded MAX_CAPTURED_AT_BYTES (captured_at utc) = true := by
  obtain ⟨hlength, hchars⟩ := isoformat_spec utc
  have hne : isoformat utc ≠ [] := by
    unfold isoformat
    exact List.append_ne_nil_of_right_ne_nil _ (by decide)
  have hnonempty : captured_at utc ≠ [] := by
    unfold captured_at
    exact Python.replace_ne_nil _ (by decide) hne
  have hprintable : Printable (captured_at utc) := by
    unfold captured_at
    intro c hc
    rcases Python.mem_replace hc with hc | hc
    · rw [List.mem_singleton.mp hc]
      decide
    · exact hchars c hc
  have hshort : (captured_at utc).length ≤ (isoformat utc).length := by
    unfold captured_at
    exact Python.length_replace_le (by decide) _
  have hlen := Text.len_of_ascii fun c hc => (hprintable c hc).2.trans (by decide)
  have hlimit : MAX_CAPTURED_AT_BYTES = 64 := rfl
  rw [bounded_iff]
  exact ⟨hnonempty, by omega, fun c hc => plain_char (hprintable c hc)⟩

/-! ### What a round has to find -/

structure Mounted.Presentable (mounted : Mounted) : Prop where
  mount : Plain MAX_MOUNT_BYTES (Python.up_to 1024 mounted.mount)
  total : mounted.info.f_blocks * mounted.info.f_frsize < 18446744073709551616
  available : mounted.info.f_bavail * mounted.info.f_frsize ≤
    mounted.info.f_blocks * mounted.info.f_frsize

structure ProcessRow.Presentable (python : Python) (remote : Remote) (row : ProcessRow) : Prop where
  pid : FitsU32 row.pid
  start : process_start_ticks python remote row.pid < 18446744073709551616
  user : Plain MAX_USERNAME_BYTES (Python.up_to 256 row.user)
  pcpu : 0.0 < row.pcpu → row.pcpu ≤ MAX_PROCESS_CPU_PERCENT
  pmem : 0.0 < row.pmem → row.pmem ≤ 100.0
  stat : Plain MAX_PROCESS_STATE_BYTES (Python.up_to 32 row.stat)
  etimes : (parse_elapsed (Python.up_to 32 row.etimes)).isSome = true
  args : Plain MAX_PROCESS_COMMAND_BYTES (Python.up_to 512 row.args)

/-- The number in a column, zero where there is none. -/
def column (python : Python) (value : Text) : Float := to_f64 (or_zero (number python value))

structure GpuRow.Presentable (python : Python) (row : GpuRow) : Prop where
  index : FitsU32 row.index
  name : row.name ≠ [] ∧ Plain MAX_GPU_NAME_BYTES (Python.up_to 256 row.name)
  utilization : Between 0.0 100.0 (column python row.utilization)
  used : Between 0.0 1.0e12 (column python row.used)
  total : Between 0.0 1.0e12 (column python row.total)
  consistent : ¬ column python row.used > column python row.total
  temperature : ∀ value, number python row.temperature = some value →
    Between (-273.15) 10000.0 value
  power : ∀ value, number python row.power = some value → Between 0.0 1.0e9 value

/-- Texts that the reader takes when they are cut, numbers in its ranges, and
    values that fit together. -/
structure Presentable (python : Python) (previous : Readings) (remote : Remote) : Prop where
  hostname : remote.hostname ≠ [] ∧ Plain MAX_HOSTNAME_BYTES remote.hostname
  user : remote.user ≠ [] ∧ Plain MAX_USERNAME_BYTES remote.user
  load1 : Between 0.0 MAX_LOAD (python.round remote.loadavg.1 2)
  load5 : Between 0.0 MAX_LOAD (python.round remote.loadavg.2.1 2)
  load15 : Between 0.0 MAX_LOAD (python.round remote.loadavg.2.2 2)
  memory : ∀ memory, meminfo python remote.meminfo = some memory → memory.Readable
  network : ∀ totals, network_totals python remote.net_dev = some totals →
    Slow previous.network.1 totals.1 (elapsed previous remote) ∧
      Slow previous.network.2 totals.2 (elapsed previous remote)
  mounts : ∀ mounted ∈ reported_mounts remote, mounted.Presentable
  rows : ∀ row ∈ reported_rows python remote, row.Presentable python remote
  gpus : ∀ row ∈ reported_gpus python remote, row.Presentable python

/-! ### What is reported is there -/

theorem first_mounts_subset {seen : List Nat} {all : List Mounted} {mounted : Mounted}
    (h : mounted ∈ first_mounts seen all) : mounted ∈ all := by
  induction all generalizing seen with
  | nil => exact h
  | cons first rest ih =>
    unfold first_mounts at h
    split at h
    · exact List.mem_cons_of_mem first (ih h)
    · rcases List.mem_cons.mp h with rfl | h
      · exact List.mem_cons_self
      · exact List.mem_cons_of_mem first (ih h)

theorem mounted_ne_nil {line : Text} {mounted : Mounted}
    (h : mounted_of remote (Python.split line) = some mounted) : mounted.mount ≠ [] := by
  unfold mounted_of at h
  split at h
  · next device mount kind more hfields =>
    have hmount : mount ∈ Python.split line := by
      rw [hfields]
      simp
    split at h
    · cases h
    · simp only [Option.bind_eq_bind, Option.bind_eq_some_iff] at h
      obtain ⟨info, -, device, -, h⟩ := h
      split at h
      · cases h
      · obtain rfl := Option.some.inj h
        exact Python.replace_ne_nil _ (by decide) (Python.mem_split hmount).1
  · cases h

theorem mount_ne_nil {mounted : Mounted} (h : mounted ∈ reported_mounts remote) : mounted.mount ≠ [] := by
  unfold reported_mounts at h
  have hall := first_mounts_subset (List.mem_of_mem_take h)
  obtain ⟨fields, hfields, hmounted⟩ := List.mem_filterMap.mp hall
  split at hfields
  · obtain ⟨line, -, rfl⟩ := List.mem_map.mp hfields
    exact mounted_ne_nil hmounted
  · cases hfields

theorem process_row_ne_nil {line : Text} {row : ProcessRow} (h : process_row python line = some row) :
    row.user ≠ [] ∧ row.stat ≠ [] ∧ row.args ≠ [] := by
  unfold process_row at h
  split at h
  · next pid ppid user pcpu pmem stat etimes args hfields =>
    simp only [Option.bind_eq_bind, Option.bind_eq_some_iff, Option.some.injEq] at h
    obtain ⟨pid, -, ppid, -, pcpu, -, pmem, -, rfl⟩ := h
    have hfield : ∀ field ∈ Python.split_max 7 (Python.strip line), field ≠ [] :=
      fun field hfield => Python.mem_split_max hfield
    rw [hfields] at hfield
    exact ⟨hfield user (by simp), hfield stat (by simp), hfield args (by simp)⟩
  · cases h

theorem row_ne_nil {row : ProcessRow} (h : row ∈ reported_rows python remote) :
    row.user ≠ [] ∧ row.stat ≠ [] ∧ row.args ≠ [] := by
  unfold reported_rows at h
  split at h
  · obtain ⟨line, -, hrow⟩ := List.mem_filterMap.mp h
    exact process_row_ne_nil hrow
  · cases h

/-- No more is reported than the reader takes. -/
theorem reported_counts (python : Python) (remote : Remote) : (disks remote).length ≤ MAX_DISKS ∧
    (processes python remote).length ≤ MAX_PROCESSES ∧ (gpu_data python remote).1.length ≤ MAX_GPUS := by
  refine ⟨?_, ?_, ?_⟩
  · unfold disks reported_mounts
    rw [List.length_map]
    exact List.length_take_le 128 _
  · unfold processes reported_rows
    rw [List.length_map]
    split
    · exact (List.length_filterMap_le _ _).trans (List.length_take_le 256 _)
    · exact Nat.zero_le _
  · unfold gpu_data reported_gpus
    rw [List.length_map]
    exact List.length_take_le 32 _

theorem disk_readable_iff {mounted : Mounted} (hne : mounted.mount ≠ []) :
    mounted.disk.Readable ↔ mounted.Presentable := by
  constructor
  · intro h
    exact ⟨(bounded_up_to hne (by decide)).mp h.mount, h.total, h.available⟩
  · intro h
    exact ⟨(bounded_up_to hne (by decide)).mpr h.mount, h.total, Nat.sub_le _ _, h.available⟩

theorem process_start_ticks_nonneg (python : Python) (remote : Remote) (pid : Int) :
    0 ≤ process_start_ticks python remote pid := by
  unfold process_start_ticks
  dsimp only
  cases hticks : (do
    let contents ← remote.process_stat pid
    let stat := Python.up_to 8192 contents
    let fields_after_name := Python.split (Python.from_index (Python.rfind ')' stat + 2) stat)
    let field ← fields_after_name[19]?
    let ticks ← python.int field
    some (max 0 ticks)) with
  | none => exact Int.le_refl 0
  | some ticks =>
    simp only [Option.bind_eq_bind, Option.bind_eq_some_iff, Option.some.injEq] at hticks
    obtain ⟨contents, -, field, -, number, -, rfl⟩ := hticks
    exact Int.le_max_left 0 number

theorem process_readable_iff {row : ProcessRow} (huser : row.user ≠ []) (hstat : row.stat ≠ [])
    (hargs : row.args ≠ []) :
    (row.process python remote).Readable ↔ row.Presentable python remote := by
  obtain ⟨-, ⟨-, hmemory⟩, -, ⟨-, hcpu⟩, -⟩ := limits
  constructor
  · intro h
    exact
      { pid := h.pid
        start := h.startTicks.2
        user := (bounded_up_to huser (by decide)).mp h.user
        pcpu := (between_max hcpu).mp h.cpuPercent
        pmem := (between_max hmemory).mp h.memoryPercent
        stat := (bounded_up_to hstat (by decide)).mp h.state
        etimes := h.elapsed.2
        args := (bounded_up_to hargs (by decide)).mp h.command }
  · intro h
    exact
      { elapsed := ⟨bounded_of_elapsed h.etimes, h.etimes⟩
        pid := h.pid
        startTicks := ⟨process_start_ticks_nonneg python remote row.pid, h.start⟩
        user := (bounded_up_to huser (by decide)).mpr h.user
        cpuPercent := (between_max hcpu).mpr h.pcpu
        memoryPercent := (between_max hmemory).mpr h.pmem
        state := (bounded_up_to hstat (by decide)).mpr h.stat
        command := (bounded_up_to hargs (by decide)).mpr h.args }

theorem gpu_readable_iff {row : GpuRow} : (row.gpu python).Readable ↔ row.Presentable python := by
  have hname : bounded MAX_GPU_NAME_BYTES (Python.up_to 256 row.name) = true ↔
      row.name ≠ [] ∧ Plain MAX_GPU_NAME_BYTES (Python.up_to 256 row.name) := by
    have hempty : Python.up_to 256 row.name ≠ [] ↔ row.name ≠ [] := by simp [Python.up_to]
    rw [bounded_iff, hempty]
  constructor
  · intro h
    exact ⟨h.index, hname.mp h.name, h.utilizationPercent, h.memoryUsedMiB, h.memoryTotalMiB, h.consistent,
      h.temperatureC, h.powerW⟩
  · intro h
    exact ⟨h.index, hname.mpr h.name, h.utilization, h.used, h.total, h.consistent, h.temperature, h.power⟩

theorem memory_iff (h : Collected python previous remote sample) : sample.memory.Readable ↔
    ∀ memory, meminfo python remote.meminfo = some memory → memory.Readable := by
  rw [h.memory]
  constructor
  · intro hreadable memory hmemory
    rwa [← Option.some.inj hmemory]
  · intro hall
    exact hall _ rfl

theorem network_iff (h : Collected python previous remote sample) :
    (Between 0.0 MAX_RATE (to_f64 sample.receiveBytesPerSecond) ∧
      Between 0.0 MAX_RATE (to_f64 sample.sendBytesPerSecond)) ↔
    ∀ totals, network_totals python remote.net_dev = some totals →
      Slow previous.network.1 totals.1 (elapsed previous remote) ∧
        Slow previous.network.2 totals.2 (elapsed previous remote) := by
  rw [rate_range h.receive, rate_range h.send, h.network]
  constructor
  · intro hslow totals htotals
    rwa [← Option.some.inj htotals]
  · intro hall
    exact hall _ rfl

theorem disks_iff (h : Collected python previous remote sample) :
    (∀ disk ∈ sample.disks, disk.Readable) ↔
      ∀ mounted ∈ reported_mounts remote, mounted.Presentable := by
  rw [h.disks]
  unfold disks
  rw [List.forall_mem_map]
  exact forall₂_congr fun mounted hmounted => disk_readable_iff (mount_ne_nil hmounted)

theorem processes_iff (h : Collected python previous remote sample) :
    (∀ process ∈ sample.processes, process.Readable) ↔
      ∀ row ∈ reported_rows python remote, row.Presentable python remote := by
  rw [h.processes]
  unfold processes
  rw [List.forall_mem_map]
  apply forall₂_congr
  intro row hrow
  obtain ⟨huser, hstat, hargs⟩ := row_ne_nil hrow
  exact process_readable_iff huser hstat hargs

theorem gpus_iff (h : Collected python previous remote sample) :
    (∀ gpu ∈ sample.gpus, gpu.Readable) ↔
      ∀ row ∈ reported_gpus python remote, row.Presentable python := by
  rw [h.gpus]
  unfold gpu_data
  rw [List.forall_mem_map]
  exact forall₂_congr fun row _ => gpu_readable_iff

theorem total_percent_range (h : Collected python previous remote sample) :
    Between 0.0 100.0 (to_f64 sample.totalPercent) := by
  have hpercent := h.percent
  unfold Sample.totalPercent
  cases hcpu : sample.cpu with
  | nil =>
    obtain ⟨-, -, -, -, hzero, -⟩ := limits
    exact hzero
  | cons total others =>
    rw [hcpu] at hpercent
    exact hpercent total List.mem_cons_self

/-- The reader takes the samples of the rounds that find what they have to. -/
theorem readable_iff {decoders : Decoders} (h : Collected python previous remote sample)
    (htime : ∀ utc, decoders.parse_from_rfc3339 (captured_at utc) = true) :
    sample.Readable decoders ↔ Presentable python previous remote := by
  obtain ⟨hdisks, hprocesses, hgpus⟩ := reported_counts python remote
  constructor
  · intro hreadable
    have hload := hreadable.cpu
    have hhostname := bounded_iff.mp hreadable.hostname
    have huser := bounded_iff.mp hreadable.currentUser
    have hload1 := hload.load1
    have hload5 := hload.load5
    have hload15 := hload.load15
    rw [h.loadAverage] at hload1 hload5 hload15
    rw [h.hostname] at hhostname
    rw [h.currentUser] at huser
    exact
      { hostname := hhostname
        user := huser
        load1 := hload1
        load5 := hload5
        load15 := hload15
        memory := (memory_iff h).mp hreadable.memory
        network := (network_iff h).mp hreadable.network
        mounts := (disks_iff h).mp hreadable.disks.2
        rows := (processes_iff h).mp hreadable.processes.2
        gpus := (gpus_iff h).mp hreadable.gpus.2 }
  · intro hpresentable
    have hload : sample.CpuReadable := by
      refine ⟨total_percent_range h, ?_, ?_, ?_⟩
      all_goals rw [h.loadAverage]
      · exact hpresentable.load1
      · exact hpresentable.load5
      · exact hpresentable.load15
    refine
      { capturedAt := ?_
        hostname := ?_
        currentUser := ?_
        cpu := hload
        memory := (memory_iff h).mpr hpresentable.memory
        network := (network_iff h).mpr hpresentable.network
        disks := ⟨?_, (disks_iff h).mpr hpresentable.mounts⟩
        gpus := ⟨?_, (gpus_iff h).mpr hpresentable.gpus⟩
        processes := ⟨?_, (processes_iff h).mpr hpresentable.rows⟩ }
    · rw [h.capturedAt]
      exact ⟨captured_at_bounded remote.utc, htime remote.utc⟩
    · rw [h.hostname]
      exact bounded_iff.mpr hpresentable.hostname
    · rw [h.currentUser]
      exact bounded_iff.mpr hpresentable.user
    · rw [h.disks]
      exact hdisks
    · rw [h.gpus]
      exact hgpus
    · rw [h.processes]
      exact hprocesses

/-! ### What is printed is JSON -/

theorem finite_object (members : List (String × Json)) :
    (object members).Finite ↔ ∀ member ∈ members, member.2.Finite := by
  unfold object
  rw [Json.finite_object_iff, List.forall_mem_map]

theorem finite_array {α : Type} (payload : α → Json) (items : List α) :
    (Json.array (items.map payload)).Finite ↔ ∀ item ∈ items, (payload item).Finite := by
  rw [Json.finite_array_iff, List.forall_mem_map]

theorem finite_int (value : Int) : (int value).Finite :=
  Json.finite_int value

theorem finite_float {value : Float} (h : value.isFinite = true) : (float value).Finite :=
  (Json.finite_float value).mpr h

theorem finite_optional {value : Option Float} (h : ∀ x, value = some x → x.isFinite = true) :
    (optional_float value).Finite := by
  cases value with
  | none => exact Json.finite_null
  | some x => exact finite_float (h x rfl)

theorem finite_number {value : Number} (h : (to_f64 value).isFinite = true) :
    (Json.number value).Finite := by
  cases value with
  | int value => exact finite_int value
  | float value => exact finite_float h

theorem Between.finite {low high x : Float} (h : Between low high x) (hlow : low.isFinite = true)
    (hhigh : high.isFinite = true) : x.isFinite = true :=
  Float.isFinite_of_between h.1 h.2 hlow hhigh

/-- What is not available is no number, and what is infinite is not available. -/
theorem finite_or_zero (python : Python) (value : Text) :
    (Json.number (or_zero (number python value))).Finite := by
  unfold or_zero
  split
  · next x hx =>
    split
    · exact finite_int 0
    · apply finite_float
      unfold number at hx
      dsimp only at hx
      split at hx
      · cases hx
      · exact (Option.filter_eq_some_iff.mp hx).2
  · exact finite_int 0

theorem temperatures_finite {zones : List (Option Text)} {value : Float}
    (h : temperatures python zones = some value) : value.isFinite = true := by
  have hzone : ∀ x ∈ zones.filterMap (temperature_of python), x.isFinite = true := by
    intro x hx
    obtain ⟨contents, -, hx⟩ := List.mem_filterMap.mp hx
    unfold temperature_of at hx
    simp only [Option.bind_eq_bind, Option.bind_eq_some_iff] at hx
    obtain ⟨read, -, hx⟩ := hx
    rw [Option.ite_none_right_eq_some] at hx
    obtain ⟨⟨hlow, hhigh⟩, hsame⟩ := hx
    rw [Option.some.inj hsame] at hlow hhigh
    obtain ⟨⟨hzero, -, -, -, -, -, -, -, -, hhot⟩, -⟩ := limits
    exact Float.isFinite_of_between (Float.le_of_lt hlow) (Float.le_of_lt hhigh) hzero hhot
  unfold temperatures at h
  split at h
  · cases h
  · next first more hvalues =>
    rw [hvalues] at hzone
    obtain rfl := Option.some.inj h
    apply python.round_finite
    obtain ⟨hfirst, hmore⟩ := List.forall_mem_cons.mp hzone
    clear hzone hvalues h
    -- the greatest of some values is one of them
    induction more generalizing first with
    | nil => exact hfirst
    | cons next more ih =>
      obtain ⟨hnext, hrest⟩ := List.forall_mem_cons.mp hmore
      apply ih
      · unfold Python.max_float
        split
        · exact hnext
        · exact hfirst
      · exact hrest

/-! ### Payloads -/

theorem Disk.payload_finite (disk : Disk) : disk.payload.Finite := by
  unfold Disk.payload
  simp only [finite_object, List.forall_mem_cons, finite_int, Json.finite_string, true_and]
  exact List.forall_mem_nil _

theorem Process.payload_finite {process : Process} (h : process.Readable) : process.payload.Finite := by
  obtain ⟨⟨hzero, hhundred, hlimit, -⟩, -⟩ := limits
  have hcpu := finite_float (h.cpuPercent.finite hzero hlimit)
  have hmemory := finite_float (h.memoryPercent.finite hzero hhundred)
  unfold Process.payload
  simp only [finite_object, List.forall_mem_cons, finite_int, Json.finite_string, hcpu, hmemory, true_and]
  exact List.forall_mem_nil _

theorem Gpu.payload_finite {gpu : Gpu} (h : gpu.Readable) : gpu.payload.Finite := by
  obtain ⟨⟨hzero, hhundred, -, -, -, hmemory, hcold, hhot, hpower, -⟩, -⟩ := limits
  have hutilization := finite_number (h.utilizationPercent.finite hzero hhundred)
  have hused := finite_number (h.memoryUsedMiB.finite hzero hmemory)
  have htotal := finite_number (h.memoryTotalMiB.finite hzero hmemory)
  have htemperature := finite_optional fun x hx => (h.temperatureC x hx).finite hcold hhot
  have hwatts := finite_optional fun x hx => (h.powerW x hx).finite hzero hpower
  unfold Gpu.payload
  simp only [finite_object, List.forall_mem_cons, finite_int, Json.finite_string, hutilization, hused, htotal,
    htemperature, hwatts, true_and]
  exact List.forall_mem_nil _

theorem gpu_process_finite {uuid_to_index : List (Text × Int)} {fields : List Text} {process : GpuProcess}
    (h : gpu_process python uuid_to_index fields = some process) : process.payload.Finite := by
  unfold gpu_process at h
  split at h
  · simp only [Option.bind_eq_bind, Option.bind_eq_some_iff, Option.some.injEq] at h
    obtain ⟨index, -, pid, -, rfl⟩ := h
    unfold GpuProcess.payload
    simp only [finite_object, List.forall_mem_cons, finite_int, finite_or_zero, true_and]
    exact List.forall_mem_nil _
  · cases h

theorem gpu_processes_finite (h : Collected python previous remote sample) :
    ∀ process ∈ sample.gpuProcesses, process.payload.Finite := by
  rw [h.gpuProcesses]
  intro process hprocess
  unfold gpu_data at hprocess
  obtain ⟨fields, -, hfields⟩ := List.mem_filterMap.mp (List.mem_of_mem_take hprocess)
  exact gpu_process_finite hfields

/-- What the reader takes is JSON. -/
theorem payload_finite {decoders : Decoders} (h : Collected python previous remote sample)
    (hreadable : sample.Readable decoders) : sample.payload.Finite := by
  obtain ⟨⟨hzero, hhundred, -, hload, hrate, -⟩, -⟩ := limits
  have htotal := finite_number ((total_percent_range h).finite hzero hhundred)
  have hcores : (Json.array (sample.cpu.tail.map float)).Finite :=
    (finite_array float _).mpr fun value hvalue =>
      finite_float ((h.percent value (List.mem_of_mem_tail hvalue)).finite hzero hhundred)
  have hload1 := finite_float (hreadable.cpu.load1.finite hzero hload)
  have hload5 := finite_float (hreadable.cpu.load5.finite hzero hload)
  have hload15 := finite_float (hreadable.cpu.load15.finite hzero hload)
  have hloads : (Json.array [float sample.loadAverage.1, float sample.loadAverage.2.1,
      float sample.loadAverage.2.2]).Finite := by
    rw [Json.finite_array_iff]
    simp only [List.forall_mem_cons, hload1, hload5, hload15, true_and]
    exact List.forall_mem_nil _
  have htemperature : (optional_float sample.temperatureC).Finite := by
    rw [h.temperatureC]
    exact finite_optional fun x hx => temperatures_finite hx
  have hreceive := finite_number (hreadable.network.1.finite hzero hrate)
  have hsend := finite_number (hreadable.network.2.finite hzero hrate)
  have hdisks : (Json.array (sample.disks.map Disk.payload)).Finite :=
    (finite_array Disk.payload _).mpr fun disk _ => disk.payload_finite
  have hprocesses : (Json.array (sample.processes.map Process.payload)).Finite :=
    (finite_array Process.payload _).mpr fun process hprocess =>
      Process.payload_finite (hreadable.processes.2 process hprocess)
  have hgpus : (Json.array (sample.gpus.map Gpu.payload)).Finite :=
    (finite_array Gpu.payload _).mpr fun gpu hgpu => Gpu.payload_finite (hreadable.gpus.2 gpu hgpu)
  have hgpu_processes : (Json.array (sample.gpuProcesses.map GpuProcess.payload)).Finite :=
    (finite_array GpuProcess.payload _).mpr (gpu_processes_finite h)
  unfold Sample.payload
  simp only [finite_object, List.forall_mem_cons, finite_int, Json.finite_string, htotal, hcores, hloads,
    htemperature, hreceive, hsend, hdisks, hprocesses, hgpus, hgpu_processes, true_and]
  simp

/-! ### Lines -/

theorem line_newline (python : Python) (sample : Sample) :
    NEWLINE ∉ (sample.line python).utf8 := by
  intro h
  have hbyte : UInt8.ofNat '\n'.toNat = NEWLINE := by decide
  rw [← hbyte] at h
  exact Json.dumps_newline python.repr_line sample.payload (Text.mem_of_mem_utf8 (by decide) h)

theorem line_last (python : Python) (sample : Sample) :
    (sample.line python).getLast? = some '\x7d' := by
  unfold Sample.line Sample.payload object
  rw [Json.dumps]
  exact List.getLast?_concat

/-- A line is read as it was printed if it is short enough, however the buffer
    is filled. -/
theorem read_line {reader : BufReader} {rest : List UInt8}
    (hstream : reader.stream = (sample.line python).utf8 ++ NEWLINE :: rest) :
    (read_bounded_line reader).1 = .ok (some (sample.line python)) ↔
      sample.size python ≤ MAX_SAMPLE_LINE_BYTES := by
  have hspec := read_bounded_line_spec reader
  have hne : reader.stream ≠ [] := by
    rw [hstream]
    simp
  rw [if_neg hne, hstream, (pieces_at_newline rest (line_newline python sample)).1] at hspec
  rw [hspec.1]
  unfold line_of
  rw [Text.length_utf8, Sample.line_len]
  by_cases hlong : MAX_SAMPLE_LINE_BYTES < sample.size python
  · rw [if_pos hlong]
    exact iff_of_false (fun h => nomatch h) (Nat.not_le.mpr hlong)
  · rw [if_neg hlong, Text.from_utf8_utf8]
    have hkept : Telemetry.strip_carriage_return (sample.line python) = sample.line python := by
      unfold Telemetry.strip_carriage_return
      rw [line_last]
      rfl
    dsimp only
    rw [hkept]
    exact iff_of_true rfl (Nat.not_lt.mp hlong)

/-! ### Delivery -/

/-- The line of a sample is read, and accepted with the values of the sample. -/
structure Delivered (python : Python) (decoders : Decoders) (host_id : Text) (sample : Sample) : Prop where
  read : ∀ reader rest, BufReader.stream reader = (sample.line python).utf8 ++ NEWLINE :: rest →
    (read_bounded_line reader).1 = .ok (some (sample.line python))
  accepted : parse_sample decoders host_id (sample.line python) = .ok (sample.snapshot host_id)

/-- The decoder reads what is JSON, and nothing else. -/
structure Decodes (python : Python) (decoders : Decoders) (sample : Sample) : Prop where
  json : sample.payload.Finite → decoders.from_str (sample.line python) = .ok sample.payload
  other : ¬ sample.payload.Finite → ∃ message, decoders.from_str (sample.line python) = .error message

/-- The identity of a host. -/
def IsHostId (host_id : Text) : Prop := host_id ≠ [] ∧ Plain 128 host_id

theorem parse_sample_eq {decoders : Decoders} {host_id : Text} (hid : IsHostId host_id) (line : Text) :
    parse_sample decoders host_id line =
      (decoders.from_str line).mapError .Json >>= parse_value decoders host_id := by
  obtain ⟨hne, hlen, hplain⟩ := hid
  have hvalid : ¬ (host_id.isEmpty || 128 < host_id.len || host_id.any Text.is_control) = true := by
    simp only [Bool.or_eq_true, List.isEmpty_iff, decide_eq_true_eq, List.any_eq_true, not_or, not_exists,
      not_and, Bool.not_eq_true]
    exact ⟨⟨hne, Nat.not_lt.mpr hlen⟩, hplain⟩
  unfold parse_sample
  rw [if_neg hvalid]

theorem accepted_iff {decoders : Decoders} {host_id : Text} (hid : IsHostId host_id)
    (h : Collected python previous remote sample) (hdecodes : Decodes python decoders sample) :
    parse_sample decoders host_id (sample.line python) = .ok (sample.snapshot host_id) ↔
      sample.Readable decoders := by
  rw [parse_sample_eq hid]
  constructor
  · intro haccepted
    obtain ⟨value, hvalue, hparsed⟩ := bind_eq_ok.mp haccepted
    rw [mapError_eq_ok] at hvalue
    by_cases hfinite : sample.payload.Finite
    · rw [hdecodes.json hfinite] at hvalue
      obtain rfl := Except.ok.inj hvalue
      exact ((parse_value_payload decoders host_id sample _).mp hparsed).1
    · obtain ⟨message, herror⟩ := hdecodes.other hfinite
      rw [herror] at hvalue
      cases hvalue
  · intro hreadable
    have hjson := hdecodes.json (payload_finite h hreadable)
    refine bind_eq_ok.mpr ⟨sample.payload, ?_, ?_⟩
    · rw [mapError_eq_ok, hjson]
    · exact (parse_value_payload decoders host_id sample _).mpr ⟨hreadable, rfl⟩

/-- **One round**: its line is delivered exactly if the round finds what it has
    to and the line is short enough. -/
theorem delivered_iff {decoders : Decoders} {host_id : Text} (hid : IsHostId host_id)
    (htime : ∀ utc, decoders.parse_from_rfc3339 (captured_at utc) = true)
    (h : Collected python previous remote sample) (hdecodes : Decodes python decoders sample) :
    Delivered python decoders host_id sample ↔
      Presentable python previous remote ∧ sample.size python ≤ MAX_SAMPLE_LINE_BYTES := by
  rw [← readable_iff h htime, ← accepted_iff hid h hdecodes]
  constructor
  · intro hdelivered
    refine ⟨hdelivered.accepted, ?_⟩
    have hstream : BufReader.stream ⟨(sample.line python).utf8 ++ NEWLINE :: [], [], fun _ h => nomatch h⟩ =
        (sample.line python).utf8 ++ NEWLINE :: [] := List.append_nil _
    exact (read_line hstream).mp (hdelivered.read _ [] hstream)
  · intro ⟨haccepted, hshort⟩
    exact ⟨fun reader rest hstream => (read_line hstream).mpr hshort, haccepted⟩

/-! ### Runs -/

/-- Every round of a run finds what it has to, and leaves a line that is short
    enough, up to the one that ends the collector. -/
def AllPresentable (python : Python) : Readings → List Remote → Prop
  | _, [] => True
  | previous, remote :: rounds =>
      ∀ sample readings, collect python previous remote = some (sample, readings) →
        (Presentable python previous remote ∧ sample.size python ≤ MAX_SAMPLE_LINE_BYTES) ∧
          AllPresentable python readings rounds

/-- A number of decimal digits. -/
def lab_int (t : Text) : Option Int :=
  if !t.isEmpty && t.all Char.isDigit then some (Nat.ofDigitChars 10 t 0) else none

/-- A number with one digit behind the point. -/
def lab_float (t : Text) : Option Float := do
  let (whole, tenths) ← Text.split_once '.' t
  let whole ← lab_int whole
  let tenths ← lab_int tenths
  some (Float.ofInt (10 * whole + tenths) / 10.0)

def lab_python : Python where
  int := lab_int
  float := lab_float
  trunc value := some value.toUInt64.toNat
  repr value :=
    if value == 0.0 then "0.0".toList else if value == 1.5 then "1.5".toList else "100.0".toList
  round value _ := value
  true_div a b := Float.ofInt a / Float.ofInt b
  repr_line := by
    intro value
    split_ifs <;> decide
  round_finite _ _ h := h
  round_percent _ _ hlow hhigh := ⟨hlow, hhigh⟩

/-- A system with one process, which is busy. -/
def lab_remote (args : Text) : Remote where
  utc := ⟨2026, 1, 2, 3, 4, 5, 0, by decide, by decide, by decide, by decide, by decide, by decide,
    by decide⟩
  monotonic := 3.0
  hostname := "lab".toList
  user := "alice".toList
  stat := "cpu 5 0 0 0 0\nintr 0\n".toList
  meminfo := "MemTotal: 8 kB\nMemAvailable: 4 kB\n".toList
  net_dev := "Inter-|\n face |\n lo: 1 0 0 0 0 0 0 0 1\n".toList
  uptime := "12.5 3.0\n".toList
  loadavg := (0.0, 0.0, 0.0)
  thermal_zones := []
  mounts := none
  statvfs _ := none
  st_dev _ := none
  ps := some ("7 1 alice 1.5 0.0 S 9 ".toList ++ args ++ ['\n'])
  process_stat _ := some "7 (sh) S 1 7 7 0 -1 0 0 0 0 0 0 0 0 0 20 0 1 0 1234 0".toList
  gpus := none
  compute_apps := none

def lab_readings : Readings := ⟨[(0, 0)], (0, 0), 0.0⟩

def lab_row (args : Text) : ProcessRow :=
  ⟨7, 1, "alice".toList, 1.5, 0.0, "S".toList, "9".toList, args⟩

/-- A decoder that knows the line of a round. -/
def lab_decoders (remote : Remote) : Decoders where
  from_str line :=
    match (collect lab_python lab_readings remote).map Prod.fst with
    | some sample =>
        if line = sample.line lab_python then .ok sample.payload else .error "expected value".toList
    | none => .error "expected value".toList
  parse_from_rfc3339 _ := true

theorem lab_decodes {remote : Remote}
    (h : collect lab_python lab_readings remote = some (sample, readings)) :
    (lab_decoders remote).from_str (sample.line lab_python) = .ok sample.payload := by
  simp only [lab_decoders, h, Option.map_some, if_true]

theorem lab_host_id : IsHostId "lab".toList := bounded_iff.mp (by decide)

def lab_command : Text := "python train.py".toList

/-- 512 characters of three bytes. -/
def wide_command : Text := List.replicate 512 '中'

/-- The round of the short command finds what it has to.  Either command is
    reported, the wide one with more bytes than are taken. -/
theorem lab_rounds : AllPresentable lab_python lab_readings [lab_remote lab_command] ∧
    (emit lab_python lab_readings [lab_remote lab_command]).length = 1 ∧
    (emit lab_python lab_readings [lab_remote wide_command]).length = 1 ∧
    lab_row wide_command ∈ reported_rows lab_python (lab_remote wide_command) ∧
    ¬ (Python.up_to 512 wide_command).len ≤ MAX_PROCESS_COMMAND_BYTES := by
  have hpresentable : Presentable lab_python lab_readings (lab_remote lab_command) :=
    { hostname := bounded_iff.mp (by decide +kernel)
      user := bounded_iff.mp (by decide +kernel)
      load1 := by
        unfold Between
        decide +kernel
      load5 := by
        unfold Between
        decide +kernel
      load15 := by
        unfold Between
        decide +kernel
      memory := by
        have hread : meminfo lab_python (lab_remote lab_command).meminfo = some ⟨8192, 4096, 0, 0⟩ := by
          decide +kernel
        intro memory hmemory
        rw [hread] at hmemory
        obtain rfl := Option.some.inj hmemory
        exact ⟨⟨by decide, by decide⟩, by decide, ⟨by decide, by decide⟩, by decide⟩
      network := by
        have hread : network_totals lab_python (lab_remote lab_command).net_dev = some (0, 0) := by
          decide +kernel
        intro totals htotals
        rw [hread] at htotals
        obtain rfl := Option.some.inj htotals
        unfold Slow
        decide +kernel
      mounts := by
        have hnone : reported_mounts (lab_remote lab_command) = [] := by decide +kernel
        rw [hnone]
        exact List.forall_mem_nil _
      rows := by
        have hone : reported_rows lab_python (lab_remote lab_command) = [lab_row lab_command] := by
          decide +kernel
        rw [hone, List.forall_mem_singleton]
        exact
          { pid := ⟨by decide, by decide⟩
            start := by decide +kernel
            user := (bounded_iff.mp (by decide +kernel)).2
            pcpu := by decide +kernel
            pmem := by decide +kernel
            stat := (bounded_iff.mp (by decide +kernel)).2
            etimes := by decide +kernel
            args := (bounded_iff.mp (by decide +kernel)).2 }
      gpus := by
        have hnone : reported_gpus lab_python (lab_remote lab_command) = [] := by decide +kernel
        rw [hnone]
        exact fun _ h => nomatch h }
  have hsize : ((collect lab_python lab_readings (lab_remote lab_command)).all fun result =>
      result.1.size lab_python ≤ MAX_SAMPLE_LINE_BYTES) = true := by
    decide +kernel
  refine ⟨?_, by decide +kernel⟩
  intro sample readings hround
  rw [hround, Option.all_some, decide_eq_true_eq] at hsize
  exact ⟨⟨hpresentable, hsize⟩, trivial⟩

theorem mem_emit_one {remote : Remote} (h : sample ∈ emit lab_python lab_readings [remote]) :
    ∃ readings, collect lab_python lab_readings remote = some (sample, readings) := by
  unfold emit at h
  split at h
  · next first readings hround =>
    obtain rfl := List.mem_singleton.mp h
    exact ⟨readings, hround⟩
  · cases h

end Collector
