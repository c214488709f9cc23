import Mathlib.Logic.Function.Basic
import RemoteDeck.Lib.Erasure
import RemoteDeck.Lib.Machine
import RemoteDeck.Lib.Text

/-! # Telemetry history

    `HistoryStore` of `telemetry.rs`: the samples of the hosts, under a
    budget for each host and one for all of them, each of a number of samples
    and of accounted bytes.

    A loop gets a bound on its rounds, and has no result if it is not over by
    then.  A stored sample also knows how many were recorded before it; the
    sequence of the code is that number as a `u64`, which wraps.

    This file defines:
    - `sample_accounted_bytes`, over the allocations of a sample
    - `HistoryStore` with `record`, `remove_host` and `pop_front`
    - `history_machine`: runs of these, with what was recorded so far
-/

namespace Telemetry

def MAX_HISTORY_SAMPLES_PER_HOST : Nat := 3600
def MAX_HISTORY_SAMPLES_GLOBAL : Nat := 8192
def MAX_HISTORY_BYTES_PER_HOST : Nat := 16 * 1024 * 1024
def MAX_HISTORY_BYTES_GLOBAL : Nat := 64 * 1024 * 1024
def USIZE_MAX : Nat := 18446744073709551615
/-- A value in memory takes at most half of the address space. -/
def ISIZE_MAX : Nat := 9223372036854775807
/-- The sequences are counted modulo this number. -/
def SEQUENCES : Nat := 18446744073709551616

def saturating_add (a b : Nat) : Nat := min (a + b) USIZE_MAX

/-! ### Samples -/

/-- A `String` with its allocation. -/
structure HeapString where
  text : Text
  capacity : Nat
  deriving DecidableEq, Repr

/-- A `Vec` with its allocation. -/
structure HeapVec (α : Type) where
  items : List α
  capacity : Nat
  deriving DecidableEq, Repr

structure DiskNames where
  mount : HeapString
  deriving DecidableEq, Repr

structure GpuNames where
  name : HeapString
  deriving DecidableEq, Repr

structure ProcessNames where
  user : HeapString
  state : HeapString
  command : HeapString
  deriving DecidableEq, Repr

/-- A `TelemetrySnapshot` without its numbers. -/
structure SampleNames where
  host_id : HeapString
  sampled_at : HeapString
  hostname : HeapString
  current_user : HeapString
  disks : HeapVec DiskNames
  gpus : HeapVec GpuNames
  processes : HeapVec ProcessNames
  deriving DecidableEq, Repr

/-- `size_of` of the types in a sample. -/
structure SampleLayout where
  stored_sample : Nat
  disk : Nat
  gpu : Nat
  process : Nat

def ALLOCATION_OVERHEAD : Nat := 32

def string_bytes (value : HeapString) : Nat := saturating_add value.capacity ALLOCATION_OVERHEAD

def saturating_mul (a b : Nat) : Nat := min (a * b) USIZE_MAX

/-- The sum of some sizes, saturating. -/
def saturating_sum (start : Nat) (sizes : List Nat) : Nat := sizes.foldl saturating_add start

def sample_accounted_bytes (layout : SampleLayout) (sample : SampleNames) : Nat :=
  let fixed := saturating_sum layout.stored_sample
    [string_bytes sample.host_id, string_bytes sample.sampled_at, string_bytes sample.hostname,
      string_bytes sample.current_user, saturating_mul sample.disks.capacity layout.disk,
      saturating_mul sample.gpus.capacity layout.gpu,
      saturating_mul sample.processes.capacity layout.process,
      saturating_mul ALLOCATION_OVERHEAD 3]
  let disks := saturating_sum fixed (sample.disks.items.map fun disk => string_bytes disk.mount)
  let gpus := saturating_sum disks (sample.gpus.items.map fun gpu => string_bytes gpu.name)
  saturating_sum gpus (sample.processes.items.flatMap fun process =>
    [string_bytes process.user, string_bytes process.state, string_bytes process.command])

structure TelemetryOptions where
  interval_seconds : Nat
  retention_minutes : Nat
  auto_reconnect : Bool
  deriving DecidableEq, Repr

/-- How many samples `record_sample` lets a host keep. -/
def TelemetryOptions.max_samples (options : TelemetryOptions) : Nat :=
  max 1 (min (saturating_mul options.retention_minutes 60 / max options.interval_seconds 1)
    MAX_HISTORY_SAMPLES_PER_HOST)

/-! ### The store -/

structure StoredSample where
  sequence : Nat
  accounted_bytes : Nat
  sample : SampleNames
  /-- The number of samples recorded before it. -/
  recorded : Nat
  deriving DecidableEq, Repr

structure HostHistory where
  samples : List StoredSample
  accounted_bytes : Nat
  deriving DecidableEq, Repr

abbrev Hosts := AList fun _ : Text => HostHistory

structure HistoryStore where
  hosts : Hosts
  total_accounted_bytes : Nat
  total_samples : Nat
  next_sequence : Nat

def HistoryStore.default : HistoryStore where
  hosts := ∅
  total_accounted_bytes := 0
  total_samples := 0
  next_sequence := 0

namespace HistoryStore

variable (store : HistoryStore)

/-- The samples of a host, the oldest first. -/
def samples (host_id : Text) : List StoredSample :=
  ((store.hosts.lookup host_id).map HostHistory.samples).getD []

def pop_front (host_id : Text) : HistoryStore :=
  match store.hosts.lookup host_id with
  | none => store
  | some history =>
      match history.samples with
      | [] => { store with hosts := store.hosts.erase host_id }
      | removed :: rest =>
          let history :=
            { samples := rest, accounted_bytes := history.accounted_bytes - removed.accounted_bytes }
          { store with
            hosts :=
              if rest.isEmpty then store.hosts.erase host_id else store.hosts.insert host_id history
            total_accounted_bytes := store.total_accounted_bytes - removed.accounted_bytes
            total_samples := store.total_samples - 1 }

/-- The new sample behind those of its host. -/
def push (sample : StoredSample) : HistoryStore :=
  let host_id := sample.sample.host_id.text
  let history := (store.hosts.lookup host_id).getD ⟨[], 0⟩
  { hosts := store.hosts.insert host_id
      { samples := history.samples ++ [sample]
        accounted_bytes := saturating_add history.accounted_bytes sample.accounted_bytes }
    total_accounted_bytes := saturating_add store.total_accounted_bytes sample.accounted_bytes
    total_samples := saturating_add store.total_samples 1
    next_sequence := (store.next_sequence + 1) % SEQUENCES }

/-- A host is over its budget. -/
def host_over (host_id : Text) (max_samples : Nat) : Bool :=
  (store.hosts.lookup host_id).any fun history =>
    history.samples.length > max_samples || history.accounted_bytes > MAX_HISTORY_BYTES_PER_HOST

def global_over : Bool :=
  store.total_samples > MAX_HISTORY_SAMPLES_GLOBAL ||
    store.total_accounted_bytes > MAX_HISTORY_BYTES_GLOBAL

/-- The first of the loops of `record`. -/
def trim_host (host_id : Text) (max_samples : Nat) : Nat → HistoryStore → Option HistoryStore
  | 0, _ => none
  | rounds + 1, store =>
      if store.host_over host_id max_samples then
        trim_host host_id max_samples rounds (store.pop_front host_id)
      else some store

/-- The host and the front of a history that is not empty. -/
def front (item : Sigma fun _ : Text => HostHistory) : Option (Text × StoredSample) :=
  item.2.samples.head?.map fun sample => (item.1, sample)

/-- `min_by_key` on the sequences, which keeps the first of equals. -/
def older (oldest : Option (Text × StoredSample)) (item : Text × StoredSample) :
    Option (Text × StoredSample) :=
  match oldest with
  | none => some item
  | some other => if item.2.sequence < other.2.sequence then some item else some other

def oldest_host : Option (Text × StoredSample) :=
  (store.hosts.entries.filterMap front).foldl older none

/-- The second of the loops of `record`. -/
def evict_oldest : Nat → HistoryStore → Option HistoryStore
  | 0, _ => none
  | rounds + 1, store =>
      if store.global_over then
        match store.oldest_host with
        | none => some store
        | some (host_id, _) => evict_oldest rounds (store.pop_front host_id)
      else some store

/-- A bound on the rounds of the loops: one for each sample and each host. -/
def rounds : Nat :=
  store.hosts.total (fun history => history.samples.length + 1) + 1

/-- The sample that `record` stores. -/
def stored (layout : SampleLayout) (sample : SampleNames) (recorded : Nat) : StoredSample where
  sequence := store.next_sequence
  accounted_bytes := sample_accounted_bytes layout sample
  sample := sample
  recorded := recorded

/-- A sample is pushed and its host is trimmed. -/
def record_host (sample : StoredSample) (max_samples : Nat) : Option HistoryStore :=
  let pushed := store.push sample
  trim_host sample.sample.host_id.text max_samples pushed.rounds pushed

def record (sample : StoredSample) (max_samples : Nat) : Option HistoryStore :=
  (store.record_host sample max_samples).bind fun trimmed => evict_oldest trimmed.rounds trimmed

def remove_host (host_id : Text) : HistoryStore :=
  match store.hosts.lookup host_id with
  | none => store
  | some history =>
      { store with
        hosts := store.hosts.erase host_id
        total_samples := store.total_samples - history.samples.length
        total_accounted_bytes := store.total_accounted_bytes - history.accounted_bytes }

end HistoryStore

/-! ### Runs -/

/-- A store with what was recorded in it. -/
structure History where
  store : HistoryStore
  /-- What was recorded for the hosts since they were removed last. -/
  log : List StoredSample
  recorded : Nat
  /-- How many samples the last `record` of a host let it keep. -/
  limits : Text → Nat

def History.default : History where
  store := .default
  log := []
  recorded := 0
  limits := fun _ => 0

inductive HistoryLabel where
  | record (sample : SampleNames) (options : TelemetryOptions)
  | remove_host (host_id : Text)

/-- The sample that a step records. -/
def History.stored (history : History) (layout : SampleLayout) (sample : SampleNames) : StoredSample :=
  history.store.stored layout sample history.recorded

def History.next (layout : SampleLayout) (history : History) : HistoryLabel → Option History
  | .record sample options =>
      let stored := history.stored layout sample
      if stored.accounted_bytes > ISIZE_MAX then none
      else
        (history.store.record stored options.max_samples).map fun store =>
          { store := store
            log := history.log ++ [stored]
            recorded := history.recorded + 1
            limits := Function.update history.limits sample.host_id.text options.max_samples }
  | .remove_host host_id =>
      some
        { history with
          store := history.store.remove_host host_id
          log := history.log.filter fun stored => stored.sample.host_id.text ≠ host_id }

def history_machine (layout : SampleLayout) : Machine History HistoryLabel where
  init := fun history => history = .default
  next := History.next layout

end Telemetry
