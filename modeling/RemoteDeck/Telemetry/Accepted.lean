import RemoteDeck.Telemetry.Collector
import RemoteDeck.Telemetry.Sample

/-! # What the reader accepts

    A payload of the collector, read by `parse_sample`: the checks that it
    passes, field by field, and the snapshot with the values of the collector.
-/

namespace Collector

open Telemetry Outcome

/-! ### Fields of payloads -/

theorem get_object (members : List (String × Json)) (key : String) :
    (object members).get key.toList = (members.find? fun member => member.1 = key).map Prod.snd := by
  show ((members.map fun member => (member.1.toList, member.2)).find?
    fun member => member.1 = key.toList).map Prod.snd = _
  have hkeys : (fun member : Text × Json => decide (member.1 = key.toList)) ∘
      (fun member : String × Json => (member.1.toList, member.2)) = fun member => decide (member.1 = key) := by
    funext member
    simp [String.toList_inj]
  rw [List.find?_map, hkeys, Option.map_map]
  rfl

theorem at_path_member (members : List (String × Json)) (key : String) :
    (object members).at_path (path_of [key]) =
      (members.find? fun member => member.1 = key).map Prod.snd := by
  rw [← get_object]
  show ((object members).get key.toList).bind some = _
  simp

theorem at_path_inner (members : List (String × Json)) (key inner : String) :
    (object members).at_path (path_of [key, inner]) =
      ((members.find? fun member => member.1 = key).map Prod.snd).bind
        fun member => member.at_path (path_of [inner]) := by
  rw [← get_object]
  rfl

section Fields

variable {value : Json} {path : List String}

theorem bounded_text_eq_ok {max_bytes : Nat} {t s : Text}
    (h : value.at_path (path_of path) = some (.string t)) :
    bounded_text value path max_bytes = .ok s ↔ bounded max_bytes t = true ∧ s = t := by
  unfold bounded_text
  rw [h, Option.ok_or_eq_ok]
  show Option.filter _ (some t) = some s ↔ _
  rw [Option.filter_eq_some_iff, Option.some.injEq]
  constructor
  · intro ⟨hsame, hbounded⟩
    subst hsame
    exact ⟨hbounded, rfl⟩
  · intro ⟨hbounded, hsame⟩
    subst hsame
    exact ⟨rfl, hbounded⟩

/-- An integer that fits in 64 bits. -/
def Fits (z : Int) : Prop := 0 ≤ z ∧ z < 18446744073709551616

theorem unsigned_eq_ok {z : Int} {n : UInt64} (h : value.at_path (path_of path) = some (int z)) :
    unsigned value path = .ok n ↔ Fits z ∧ n = UInt64.ofNat z.toNat := by
  unfold unsigned
  rw [h, Option.ok_or_eq_ok]
  show (if 0 ≤ z ∧ z < 18446744073709551616 then some (UInt64.ofNat z.toNat) else none) = some n ↔ _
  rw [Option.ite_none_right_eq_some, Option.some.injEq]
  exact and_congr_right fun _ => eq_comm

theorem toNat_ofNat {z : Int} (h : Fits z) : (UInt64.ofNat z.toNat).toNat = z.toNat := by
  obtain ⟨hnonneg, hlt⟩ := h
  rw [UInt64.toNat_ofNat']
  omega

/-- An integer that fits in 32 bits. -/
def FitsU32 (z : Int) : Prop := 0 ≤ z ∧ z < 4294967296

theorem unsigned_u32_eq_ok {z : Int} {i : UInt32} {invalid : String}
    (h : value.at_path (path_of path) = some (int z)) :
    unsigned_u32 value path invalid = .ok i ↔ FitsU32 z ∧ i = UInt32.ofNat z.toNat := by
  unfold unsigned_u32
  rw [bind_checked fun _ => unsigned_eq_ok h, Option.ok_or_eq_ok]
  unfold to_u32 FitsU32
  rw [Option.ite_none_right_eq_some, Option.some.injEq]
  constructor
  · intro ⟨hfits, hlt, hsame⟩
    rw [toNat_ofNat hfits] at hlt hsame
    have hnonneg := hfits.1
    exact ⟨⟨hnonneg, by omega⟩, hsame.symm⟩
  · intro ⟨⟨hnonneg, hlt⟩, hsame⟩
    have hfits : Fits z := ⟨hnonneg, by omega⟩
    rw [toNat_ofNat hfits]
    exact ⟨hfits, by omega, hsame.symm⟩

/-- The double that the reader makes of a number. -/
def to_f64 : Number → Float
  | .int value => Float.ofInt value
  | .float value => value

/-- A double in a range. -/
def Between (low high value : Float) : Prop := low ≤ value ∧ value ≤ high

variable {low high : Float}

theorem check_number_eq_ok {x y : Float} {name : Text} (hlow : low.isFinite = true)
    (hhigh : high.isFinite = true) :
    check_number (some x) name low high = .ok y ↔ Between low high x ∧ y = x := by
  unfold check_number
  rw [bind_eq_ok]
  constructor
  · intro ⟨number, hnumber, hcheck⟩
    rw [Option.ok_or_eq_ok, Option.filter_eq_some_iff, Option.some.injEq] at hnumber
    obtain ⟨rfl, -⟩ := hnumber
    obtain ⟨hrange, hsame⟩ := ite_error_eq_ok.mp hcheck
    exact ⟨not_not.mp hrange, (Except.ok.inj hsame).symm⟩
  · intro ⟨hrange, hsame⟩
    have hfinite := Float.isFinite_of_between hrange.1 hrange.2 hlow hhigh
    refine ⟨x, ?_, ite_error_eq_ok.mpr ⟨not_not.mpr hrange, congrArg _ hsame.symm⟩⟩
    rw [Option.ok_or_eq_ok, Option.filter_eq_some_iff]
    exact ⟨rfl, hfinite⟩

theorem bounded_number_eq_ok {number : Number} {y : Float} (hlow : low.isFinite = true)
    (hhigh : high.isFinite = true) (h : value.at_path (path_of path) = some (.number number)) :
    bounded_number value path low high = .ok y ↔ Between low high (to_f64 number) ∧ y = to_f64 number := by
  unfold bounded_number
  rw [h]
  have hread : (some (Json.number number)).bind Json.as_f64 = some (to_f64 number) := by
    cases number <;> rfl
  rw [hread]
  exact check_number_eq_ok hlow hhigh

theorem bounded_value_number_eq_ok {x y : Float} {name : Text} (hlow : low.isFinite = true)
    (hhigh : high.isFinite = true) :
    bounded_value_number (float x) name low high = .ok y ↔ Between low high x ∧ y = x :=
  check_number_eq_ok hlow hhigh

theorem optional_bounded_number_eq_ok {number y : Option Float} (hlow : low.isFinite = true)
    (hhigh : high.isFinite = true) (h : value.at_path (path_of path) = some (optional_float number)) :
    optional_bounded_number value path low high = .ok y ↔
      (∀ x, number = some x → Between low high x) ∧ y = number := by
  unfold optional_bounded_number
  rw [h]
  cases number with
  | none =>
    show Except.ok none = .ok y ↔ _
    rw [Except.ok.injEq]
    simp [eq_comm]
  | some x =>
    show (bounded_value_number (float x) _ low high).map some = .ok y ↔ _
    cases hcheck : bounded_value_number (float x) (path_name path) low high with
    | error e =>
      constructor
      · intro hok
        cases hok
      · intro hboth
        rw [(bounded_value_number_eq_ok hlow hhigh).mpr ⟨hboth.1 x rfl, rfl⟩] at hcheck
        cases hcheck
    | ok z =>
      obtain ⟨hrange, rfl⟩ := (bounded_value_number_eq_ok hlow hhigh).mp hcheck
      show Except.ok (some z) = .ok y ↔ _
      rw [Except.ok.injEq]
      constructor
      · intro hsame
        refine ⟨?_, hsame.symm⟩
        intro x hx
        rw [← Option.some.inj hx]
        exact hrange
      · intro hboth
        exact hboth.2.symm

end Fields

/-! ### Disks -/

def Disk.snapshot (disk : Disk) : DiskSnapshot where
  mount := disk.mount
  used_bytes := UInt64.ofNat disk.usedBytes
  total_bytes := UInt64.ofNat disk.totalBytes
  available_bytes := UInt64.ofNat disk.availableBytes

structure Disk.Readable (disk : Disk) : Prop where
  mount : bounded MAX_MOUNT_BYTES disk.mount = true
  total : disk.totalBytes < 18446744073709551616
  used : disk.usedBytes ≤ disk.totalBytes
  available : disk.availableBytes ≤ disk.totalBytes

theorem not_ofNat_gt {y z : Int} (hy : Fits y) (hz : Fits z) :
    ¬ UInt64.ofNat y.toNat > UInt64.ofNat z.toNat ↔ y ≤ z := by
  have hy_nonneg := hy.1
  have hz_nonneg := hz.1
  rw [gt_iff_lt, UInt64.lt_iff_toNat_lt, toNat_ofNat hy, toNat_ofNat hz]
  omega

theorem parse_disk_payload (disk : Disk) (s : DiskSnapshot) :
    parse_disk disk.payload = .ok s ↔ disk.Readable ∧ s = disk.snapshot := by
  have hused : disk.payload.at_path (path_of ["usedBytes"]) = some (int disk.usedBytes) := by
    simp [Disk.payload, at_path_member]
  have htotal : disk.payload.at_path (path_of ["totalBytes"]) = some (int disk.totalBytes) := by
    simp [Disk.payload, at_path_member]
  have havailable : disk.payload.at_path (path_of ["availableBytes"]) = some (int disk.availableBytes) := by
    simp [Disk.payload, at_path_member]
  have hmount : disk.payload.at_path (path_of ["mount"]) = some (.string disk.mount) := by
    simp [Disk.payload, at_path_member]
  unfold parse_disk
  rw [bind_checked fun _ => unsigned_eq_ok hused, bind_checked fun _ => unsigned_eq_ok htotal,
    bind_checked fun _ => unsigned_eq_ok havailable, ite_error_eq_ok,
    bind_checked fun _ => bounded_text_eq_ok hmount, Except.ok.injEq, not_or]
  constructor
  · intro ⟨hfits_used, hfits_total, hfits_available, ⟨hused_le, havailable_le⟩, hmount, hsame⟩
    rw [not_ofNat_gt hfits_used hfits_total] at hused_le
    rw [not_ofNat_gt hfits_available hfits_total] at havailable_le
    have htotal := hfits_total.2
    exact ⟨⟨hmount, by omega, by omega, by omega⟩, hsame.symm⟩
  · intro ⟨h, hsame⟩
    have htotal := h.total
    have hused_le := h.used
    have havailable_le := h.available
    have hfits_used : Fits disk.usedBytes := ⟨by omega, by omega⟩
    have hfits_total : Fits disk.totalBytes := ⟨by omega, by omega⟩
    have hfits_available : Fits disk.availableBytes := ⟨by omega, by omega⟩
    rw [not_ofNat_gt hfits_used hfits_total, not_ofNat_gt hfits_available hfits_total]
    exact ⟨hfits_used, hfits_total, hfits_available, ⟨by omega, by omega⟩, h.mount, hsame.symm⟩

/-! ### Processes -/

def Process.snapshot (process : Process) : ProcessSnapshot where
  pid := UInt32.ofNat process.pid.toNat
  start_ticks := UInt64.ofNat process.startTicks.toNat
  user := process.user
  cpu_percent := process.cpuPercent
  memory_percent := process.memoryPercent
  state := process.state
  elapsed_seconds := (parse_elapsed process.elapsed).getD 0
  command := process.command

structure Process.Readable (process : Process) : Prop where
  elapsed : bounded 32 process.elapsed = true ∧ (parse_elapsed process.elapsed).isSome = true
  pid : FitsU32 process.pid
  startTicks : Fits process.startTicks
  user : bounded MAX_USERNAME_BYTES process.user = true
  cpuPercent : Between 0.0 MAX_PROCESS_CPU_PERCENT process.cpuPercent
  memoryPercent : Between 0.0 100.0 process.memoryPercent
  state : bounded MAX_PROCESS_STATE_BYTES process.state = true
  command : bounded MAX_PROCESS_COMMAND_BYTES process.command = true

/-- The limits are finite, and so is the highest temperature that is printed;
    zero is within the ranges. -/
theorem limits : ((0.0 : Float).isFinite = true ∧ (100.0 : Float).isFinite = true ∧
      MAX_PROCESS_CPU_PERCENT.isFinite = true ∧ MAX_LOAD.isFinite = true ∧ MAX_RATE.isFinite = true ∧
      (1.0e12 : Float).isFinite = true ∧ (-273.15 : Float).isFinite = true ∧
      (10000.0 : Float).isFinite = true ∧ (1.0e9 : Float).isFinite = true ∧
      (150.0 : Float).isFinite = true) ∧
    Between 0.0 100.0 0.0 ∧ Between 0.0 100.0 100.0 ∧ Between 0.0 MAX_PROCESS_CPU_PERCENT 0.0 ∧
      Between 0.0 100.0 (to_f64 (.int 0)) ∧ Between 0.0 MAX_RATE (to_f64 (.int 0)) := by
  unfold Between
  decide +kernel

theorem elapsed_seconds_payload (process : Process) (seconds : UInt64) :
    elapsed_seconds process.payload = .ok seconds ↔
      (bounded 32 process.elapsed = true ∧ (parse_elapsed process.elapsed).isSome = true) ∧
        seconds = (parse_elapsed process.elapsed).getD 0 := by
  have helapsed : process.payload.at_path (path_of ["elapsed"]) = some (.string process.elapsed) := by
    simp [Process.payload, at_path_member]
  unfold elapsed_seconds
  rw [bind_checked fun _ => bounded_text_eq_ok helapsed, Option.ok_or_eq_ok, and_assoc]
  apply and_congr_right
  intro _
  cases parse_elapsed process.elapsed with
  | none => simp
  | some value => simp [eq_comm]

theorem parse_process_payload (process : Process) (s : ProcessSnapshot) :
    parse_process process.payload = .ok s ↔ process.Readable ∧ s = process.snapshot := by
  obtain ⟨⟨hzero, hhundred, hlimit, -⟩, -⟩ := limits
  have hpid : process.payload.at_path (path_of ["pid"]) = some (int process.pid) := by
    simp [Process.payload, at_path_member]
  have hticks : process.payload.at_path (path_of ["startTicks"]) = some (int process.startTicks) := by
    simp [Process.payload, at_path_member]
  have huser : process.payload.at_path (path_of ["user"]) = some (.string process.user) := by
    simp [Process.payload, at_path_member]
  have hcpu : process.payload.at_path (path_of ["cpuPercent"]) =
      some (.number (.float process.cpuPercent)) := by
    simp [Process.payload, at_path_member, float]
  have hmemory : process.payload.at_path (path_of ["memoryPercent"]) =
      some (.number (.float process.memoryPercent)) := by
    simp [Process.payload, at_path_member, float]
  have hstate : process.payload.at_path (path_of ["state"]) = some (.string process.state) := by
    simp [Process.payload, at_path_member]
  have hcommand : process.payload.at_path (path_of ["command"]) = some (.string process.command) := by
    simp [Process.payload, at_path_member]
  unfold parse_process
  rw [bind_checked (elapsed_seconds_payload process), bind_checked fun _ => unsigned_u32_eq_ok hpid,
    bind_checked fun _ => unsigned_eq_ok hticks, bind_checked fun _ => bounded_text_eq_ok huser,
    bind_checked fun _ => bounded_number_eq_ok hzero hlimit hcpu,
    bind_checked fun _ => bounded_number_eq_ok hzero hhundred hmemory,
    bind_checked fun _ => bounded_text_eq_ok hstate, bind_checked fun _ => bounded_text_eq_ok hcommand,
    Except.ok.injEq]
  constructor
  · intro ⟨helapsed, hpid, hticks, huser, hcpu, hmemory, hstate, hcommand, hsame⟩
    exact ⟨⟨helapsed, hpid, hticks, huser, hcpu, hmemory, hstate, hcommand⟩, hsame.symm⟩
  · intro ⟨h, hsame⟩
    exact ⟨h.elapsed, h.pid, h.startTicks, h.user, h.cpuPercent, h.memoryPercent, h.state, h.command,
      hsame.symm⟩

/-! ### GPUs -/

def Gpu.snapshot (gpu : Gpu) : GpuSnapshot where
  index := UInt32.ofNat gpu.index.toNat
  name := gpu.name
  utilization_percent := to_f64 gpu.utilizationPercent
  memory_used_mi_b := to_f64 gpu.memoryUsedMiB
  memory_total_mi_b := to_f64 gpu.memoryTotalMiB
  temperature_c := gpu.temperatureC
  power_w := gpu.powerW

structure Gpu.Readable (gpu : Gpu) : Prop where
  index : FitsU32 gpu.index
  name : bounded MAX_GPU_NAME_BYTES gpu.name = true
  utilizationPercent : Between 0.0 100.0 (to_f64 gpu.utilizationPercent)
  memoryUsedMiB : Between 0.0 1.0e12 (to_f64 gpu.memoryUsedMiB)
  memoryTotalMiB : Between 0.0 1.0e12 (to_f64 gpu.memoryTotalMiB)
  consistent : ¬ to_f64 gpu.memoryUsedMiB > to_f64 gpu.memoryTotalMiB
  temperatureC : ∀ value, gpu.temperatureC = some value → Between (-273.15) 10000.0 value
  powerW : ∀ value, gpu.powerW = some value → Between 0.0 1.0e9 value

theorem parse_gpu_payload (gpu : Gpu) (s : GpuSnapshot) :
    parse_gpu gpu.payload = .ok s ↔ gpu.Readable ∧ s = gpu.snapshot := by
  obtain ⟨⟨hzero, hhundred, -, -, -, hmemory, hcold, hhot, hpower, -⟩, -⟩ := limits
  have hindex : gpu.payload.at_path (path_of ["index"]) = some (int gpu.index) := by
    simp [Gpu.payload, at_path_member]
  have hname : gpu.payload.at_path (path_of ["name"]) = some (.string gpu.name) := by
    simp [Gpu.payload, at_path_member]
  have hutilization : gpu.payload.at_path (path_of ["utilizationPercent"]) =
      some (.number gpu.utilizationPercent) := by
    simp [Gpu.payload, at_path_member]
  have hused : gpu.payload.at_path (path_of ["memoryUsedMiB"]) = some (.number gpu.memoryUsedMiB) := by
    simp [Gpu.payload, at_path_member]
  have htotal : gpu.payload.at_path (path_of ["memoryTotalMiB"]) = some (.number gpu.memoryTotalMiB) := by
    simp [Gpu.payload, at_path_member]
  have htemperature : gpu.payload.at_path (path_of ["temperatureC"]) =
      some (optional_float gpu.temperatureC) := by
    simp [Gpu.payload, at_path_member]
  have hwatts : gpu.payload.at_path (path_of ["powerW"]) = some (optional_float gpu.powerW) := by
    simp [Gpu.payload, at_path_member]
  unfold parse_gpu
  rw [bind_checked fun _ => bounded_number_eq_ok hzero hmemory hused,
    bind_checked fun _ => bounded_number_eq_ok hzero hmemory htotal, ite_error_eq_ok,
    bind_checked fun _ => unsigned_u32_eq_ok hindex, bind_checked fun _ => bounded_text_eq_ok hname,
    bind_checked fun _ => bounded_number_eq_ok hzero hhundred hutilization,
    bind_checked fun _ => optional_bounded_number_eq_ok hcold hhot htemperature,
    bind_checked fun _ => optional_bounded_number_eq_ok hzero hpower hwatts, Except.ok.injEq]
  constructor
  · intro ⟨hused, htotal, hconsistent, hindex, hname, hutilization, htemperature, hwatts, hsame⟩
    exact ⟨⟨hindex, hname, hutilization, hused, htotal, hconsistent, htemperature, hwatts⟩, hsame.symm⟩
  · intro ⟨h, hsame⟩
    exact ⟨h.memoryUsedMiB, h.memoryTotalMiB, h.consistent, h.index, h.name, h.utilizationPercent,
      h.temperatureC, h.powerW, hsame.symm⟩

/-! ### Memory, processors, network -/

def Memory.used (memory : Memory) : Int := max 0 (memory.total - memory.available)

def Memory.swap_used (memory : Memory) : Int := max 0 (memory.swap_total - memory.swap_free)

def Memory.snapshot (memory : Memory) : MemorySnapshot where
  used_bytes := UInt64.ofNat memory.used.toNat
  total_bytes := UInt64.ofNat memory.total.toNat
  swap_used_bytes := UInt64.ofNat memory.swap_used.toNat
  swap_total_bytes := UInt64.ofNat memory.swap_total.toNat

/-- What is free may exceed the total, but is not negative. -/
structure Memory.Readable (memory : Memory) : Prop where
  total : Fits memory.total
  available : 0 ≤ memory.available
  swap_total : Fits memory.swap_total
  swap_free : 0 ≤ memory.swap_free

theorem parse_memory_payload (sample : Sample) (s : MemorySnapshot) :
    parse_memory sample.payload = .ok s ↔ sample.memory.Readable ∧ s = sample.memory.snapshot := by
  have hused : sample.payload.at_path (path_of ["memory", "usedBytes"]) = some (int sample.memory.used) := by
    simp [Sample.payload, at_path_inner, at_path_member, Memory.used]
  have htotal : sample.payload.at_path (path_of ["memory", "totalBytes"]) =
      some (int sample.memory.total) := by
    simp [Sample.payload, at_path_inner, at_path_member]
  have hswap_used : sample.payload.at_path (path_of ["memory", "swapUsedBytes"]) =
      some (int sample.memory.swap_used) := by
    simp [Sample.payload, at_path_inner, at_path_member, Memory.swap_used]
  have hswap_total : sample.payload.at_path (path_of ["memory", "swapTotalBytes"]) =
      some (int sample.memory.swap_total) := by
    simp [Sample.payload, at_path_inner, at_path_member]
  unfold parse_memory
  rw [bind_checked fun _ => unsigned_eq_ok hused, bind_checked fun _ => unsigned_eq_ok htotal,
    bind_checked fun _ => unsigned_eq_ok hswap_used, bind_checked fun _ => unsigned_eq_ok hswap_total,
    ite_error_eq_ok, Except.ok.injEq, not_or]
  -- nothing used is more than the total exactly if what is free is not negative
  have hused_le : 0 ≤ sample.memory.total →
      (sample.memory.used ≤ sample.memory.total ↔ 0 ≤ sample.memory.available) := by
    intro hnonneg
    unfold Memory.used
    omega
  have hswap_le : 0 ≤ sample.memory.swap_total →
      (sample.memory.swap_used ≤ sample.memory.swap_total ↔ 0 ≤ sample.memory.swap_free) := by
    intro hnonneg
    unfold Memory.swap_used
    omega
  constructor
  · intro ⟨hfits_used, hfits_total, hfits_swap_used, hfits_swap_total, ⟨hle, hle_swap⟩, hsame⟩
    rw [not_ofNat_gt hfits_used hfits_total, hused_le hfits_total.1] at hle
    rw [not_ofNat_gt hfits_swap_used hfits_swap_total, hswap_le hfits_swap_total.1] at hle_swap
    exact ⟨⟨hfits_total, hle, hfits_swap_total, hle_swap⟩, hsame.symm⟩
  · intro ⟨h, hsame⟩
    have hle := (hused_le h.total.1).mpr h.available
    have hle_swap := (hswap_le h.swap_total.1).mpr h.swap_free
    have hfits_used : Fits sample.memory.used := ⟨Int.le_max_left 0 _, Int.lt_of_le_of_lt hle h.total.2⟩
    have hfits_swap_used : Fits sample.memory.swap_used :=
      ⟨Int.le_max_left 0 _, Int.lt_of_le_of_lt hle_swap h.swap_total.2⟩
    rw [not_ofNat_gt hfits_used h.total, not_ofNat_gt hfits_swap_used h.swap_total]
    exact ⟨hfits_used, h.total, hfits_swap_used, h.swap_total, ⟨hle, hle_swap⟩, hsame.symm⟩

def Sample.cpu_snapshot (sample : Sample) : CpuSnapshot where
  percent := to_f64 sample.totalPercent
  load1 := sample.loadAverage.1
  load5 := sample.loadAverage.2.1
  load15 := sample.loadAverage.2.2

structure Sample.CpuReadable (sample : Sample) : Prop where
  percent : Between 0.0 100.0 (to_f64 sample.totalPercent)
  load1 : Between 0.0 MAX_LOAD sample.loadAverage.1
  load5 : Between 0.0 MAX_LOAD sample.loadAverage.2.1
  load15 : Between 0.0 MAX_LOAD sample.loadAverage.2.2

/-- The load of a payload has three values. -/
theorem parse_load_payload (sample : Sample) : parse_load sample.payload =
    .ok (float sample.loadAverage.1, float sample.loadAverage.2.1, float sample.loadAverage.2.2) := by
  have hload : sample.payload.at_path (path_of ["cpu", "loadAverage"]) =
      some (.array [float sample.loadAverage.1, float sample.loadAverage.2.1,
        float sample.loadAverage.2.2]) := by
    simp [Sample.payload, at_path_inner, at_path_member]
  unfold parse_load
  rw [hload]
  rfl

theorem parse_cpu_payload (sample : Sample) (s : CpuSnapshot) :
    parse_cpu sample.payload (float sample.loadAverage.1, float sample.loadAverage.2.1,
      float sample.loadAverage.2.2) = .ok s ↔ sample.CpuReadable ∧ s = sample.cpu_snapshot := by
  obtain ⟨⟨hzero, hhundred, -, hlimit, -⟩, -⟩ := limits
  have hpercent : sample.payload.at_path (path_of ["cpu", "totalPercent"]) =
      some (.number sample.totalPercent) := by
    simp [Sample.payload, at_path_inner, at_path_member]
  unfold parse_cpu
  rw [bind_checked fun _ => bounded_number_eq_ok hzero hhundred hpercent,
    bind_checked fun _ => bounded_value_number_eq_ok hzero hlimit,
    bind_checked fun _ => bounded_value_number_eq_ok hzero hlimit,
    bind_checked fun _ => bounded_value_number_eq_ok hzero hlimit, Except.ok.injEq]
  constructor
  · intro ⟨hpercent, hload1, hload5, hload15, hsame⟩
    exact ⟨⟨hpercent, hload1, hload5, hload15⟩, hsame.symm⟩
  · intro ⟨h, hsame⟩
    exact ⟨h.percent, h.load1, h.load5, h.load15, hsame.symm⟩

def Sample.network_snapshot (sample : Sample) : NetworkSnapshot where
  receive_bytes_per_second := to_f64 sample.receiveBytesPerSecond
  send_bytes_per_second := to_f64 sample.sendBytesPerSecond

theorem parse_network_payload (sample : Sample) (s : NetworkSnapshot) :
    parse_network sample.payload = .ok s ↔
      (Between 0.0 MAX_RATE (to_f64 sample.receiveBytesPerSecond) ∧
        Between 0.0 MAX_RATE (to_f64 sample.sendBytesPerSecond)) ∧ s = sample.network_snapshot := by
  obtain ⟨⟨hzero, -, -, -, hlimit, -⟩, -⟩ := limits
  have hreceive : sample.payload.at_path (path_of ["network", "receiveBytesPerSecond"]) =
      some (.number sample.receiveBytesPerSecond) := by
    simp [Sample.payload, at_path_inner, at_path_member]
  have hsend : sample.payload.at_path (path_of ["network", "sendBytesPerSecond"]) =
      some (.number sample.sendBytesPerSecond) := by
    simp [Sample.payload, at_path_inner, at_path_member]
  unfold parse_network
  rw [bind_checked fun _ => bounded_number_eq_ok hzero hlimit hreceive,
    bind_checked fun _ => bounded_number_eq_ok hzero hlimit hsend, Except.ok.injEq, and_assoc]
  constructor
  · intro ⟨hreceive, hsend, hsame⟩
    exact ⟨hreceive, hsend, hsame.symm⟩
  · intro ⟨hreceive, hsend, hsame⟩
    exact ⟨hreceive, hsend, hsame.symm⟩

/-! ### Samples -/

def Sample.snapshot (sample : Sample) (host_id : Text) : TelemetrySnapshot where
  host_id := host_id
  sampled_at := sample.capturedAt
  hostname := sample.hostname
  current_user := sample.currentUser
  cpu := sample.cpu_snapshot
  memory := sample.memory.snapshot
  network := sample.network_snapshot
  disks := sample.disks.map Disk.snapshot
  gpus := sample.gpus.map Gpu.snapshot
  processes := sample.processes.map Process.snapshot

structure Sample.Readable (decoders : Decoders) (sample : Sample) : Prop where
  capturedAt : bounded MAX_CAPTURED_AT_BYTES sample.capturedAt = true ∧
    decoders.parse_from_rfc3339 sample.capturedAt = true
  hostname : bounded MAX_HOSTNAME_BYTES sample.hostname = true
  currentUser : bounded MAX_USERNAME_BYTES sample.currentUser = true
  cpu : sample.CpuReadable
  memory : sample.memory.Readable
  network : Between 0.0 MAX_RATE (to_f64 sample.receiveBytesPerSecond) ∧
    Between 0.0 MAX_RATE (to_f64 sample.sendBytesPerSecond)
  disks : sample.disks.length ≤ MAX_DISKS ∧ ∀ disk ∈ sample.disks, disk.Readable
  gpus : sample.gpus.length ≤ MAX_GPUS ∧ ∀ gpu ∈ sample.gpus, gpu.Readable
  processes : sample.processes.length ≤ MAX_PROCESSES ∧
    ∀ process ∈ sample.processes, process.Readable

theorem bounded_array_eq_ok {value : Json} {name : String} {max_items : Nat} {items ys : List Json}
    (h : value.at_path (path_of [name]) = some (.array items)) :
    bounded_array value name max_items = .ok ys ↔ items.length ≤ max_items ∧ ys = items := by
  have hget : value.get name.toList = some (.array items) := by
    have hpath : (value.get name.toList).bind some = some (.array items) := h
    simpa using hpath
  unfold bounded_array
  rw [hget]
  show (if items.length > max_items then Except.error _ else Except.ok items) = Except.ok ys ↔ _
  rw [ite_error_eq_ok, Nat.not_lt, Except.ok.injEq]
  exact and_congr_right fun _ => eq_comm

/-- **The checks of a payload**, and its snapshot. -/
theorem parse_value_payload (decoders : Decoders) (host_id : Text) (sample : Sample)
    (s : TelemetrySnapshot) :
    parse_value decoders host_id sample.payload = .ok s ↔
      sample.Readable decoders ∧ s = sample.snapshot host_id := by
  have hcaptured : sample.payload.at_path (path_of ["capturedAt"]) =
      some (.string sample.capturedAt) := by
    simp [Sample.payload, at_path_member]
  have hhostname : sample.payload.at_path (path_of ["hostname"]) = some (.string sample.hostname) := by
    simp [Sample.payload, at_path_member]
  have huser : sample.payload.at_path (path_of ["currentUser"]) = some (.string sample.currentUser) := by
    simp [Sample.payload, at_path_member]
  have hdisks : sample.payload.at_path (path_of ["disks"]) =
      some (.array (sample.disks.map Disk.payload)) := by
    simp [Sample.payload, at_path_member]
  have hgpus : sample.payload.at_path (path_of ["gpus"]) = some (.array (sample.gpus.map Gpu.payload)) := by
    simp [Sample.payload, at_path_member]
  have hprocesses : sample.payload.at_path (path_of ["processes"]) =
      some (.array (sample.processes.map Process.payload)) := by
    simp [Sample.payload, at_path_member]
  unfold parse_value
  rw [bind_checked fun _ => bounded_text_eq_ok hcaptured, ite_error_eq_ok, not_not,
    parse_load_payload, ok_bind, bind_checked fun _ => bounded_array_eq_ok hdisks,
    bind_checked fun _ => mapM_map_eq_ok parse_disk_payload _ _,
    bind_checked fun _ => bounded_array_eq_ok hgpus,
    bind_checked fun _ => mapM_map_eq_ok parse_gpu_payload _ _,
    bind_checked fun _ => bounded_array_eq_ok hprocesses,
    bind_checked fun _ => mapM_map_eq_ok parse_process_payload _ _,
    bind_checked (parse_memory_payload sample), bind_checked fun _ => bounded_text_eq_ok hhostname,
    bind_checked fun _ => bounded_text_eq_ok huser, bind_checked (parse_cpu_payload sample),
    bind_checked (parse_network_payload sample), Except.ok.injEq]
  simp only [List.length_map]
  constructor
  · intro ⟨hcaptured, htime, hdisks, hdisk, hgpus, hgpu, hprocesses, hprocess, hmemory, hhostname,
      huser, hcpu, hnetwork, hsame⟩
    exact ⟨⟨⟨hcaptured, htime⟩, hhostname, huser, hcpu, hmemory, hnetwork, ⟨hdisks, hdisk⟩,
      ⟨hgpus, hgpu⟩, ⟨hprocesses, hprocess⟩⟩, hsame.symm⟩
  · intro ⟨h, hsame⟩
    exact ⟨h.capturedAt.1, h.capturedAt.2, h.disks.1, h.disks.2, h.gpus.1, h.gpus.2, h.processes.1,
      h.processes.2, h.memory, h.hostname, h.currentUser, h.cpu, h.network, hsame.symm⟩

end Collector
