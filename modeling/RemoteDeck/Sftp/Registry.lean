import Mathlib.Data.Finset.Basic
import Mathlib.Data.List.AList
import RemoteDeck.Lib.Machine
import RemoteDeck.Model

/-! # The transfer registry

    `TransferRegistry` of `sftp.rs`: the jobs, the attempts that execute
    them and the calls that cancel and retry them.

    Every locked section is one step.  What happens outside the registry is
    carried by the labels: the profile the repository has of a host, whether
    the paths of a request are valid, and the result of a transfer.
    `Uuid::new_v4` does not repeat an identifier.
-/

namespace Sftp

def MAX_ACTIVE_TRANSFERS : Nat := 8
def MAX_RETAINED_TRANSFERS : Nat := 512
def MAX_REVISION : Nat := 18446744073709551615
def MAX_ATTEMPTS : Nat := 4294967295
def ERROR_LIMIT : Nat := 16 * 1024

/-! ### Jobs -/

inductive ConflictPolicy where
  | Ask
  | Skip
  | Overwrite
  | Rename
  deriving DecidableEq, Repr

structure TransferRequest where
  local_path : Text
  remote_path : Text
  conflict_policy : ConflictPolicy
  recursive : Bool
  deriving DecidableEq, Repr

inductive TransferDirection where
  | Upload
  | Download
  deriving DecidableEq, Repr

inductive TransferOperation where
  | Upload (request : TransferRequest)
  | Download (request : TransferRequest)
  deriving DecidableEq, Repr

inductive TransferState where
  | Queued
  | Running
  | Cancelling
  | Completed
  | Cancelled
  | Failed
  deriving DecidableEq, Repr

structure TransferJob where
  id : Text
  revision : Nat
  host_id : Text
  direction : TransferDirection
  source : Text
  destination : Text
  conflict_policy : ConflictPolicy
  recursive : Bool
  state : TransferState
  attempts : Nat
  bytes_transferred : Nat
  total_bytes : Option Nat
  skipped : Bool
  created_at : Timestamp
  updated_at : Timestamp
  completed_at : Option Timestamp
  error : Option Text
  deriving DecidableEq, Repr

structure TransferOutcome where
  destination : Text
  total_bytes : Nat
  skipped : Bool
  deriving DecidableEq, Repr

/-- The `Debug` text of a state. -/
def TransferState.debug : TransferState → Text
  | .Queued => "Queued".toList
  | .Running => "Running".toList
  | .Cancelling => "Cancelling".toList
  | .Completed => "Completed".toList
  | .Cancelled => "Cancelled".toList
  | .Failed => "Failed".toList

/-- The declared transition relation. -/
def transition (current target : TransferState) : AppResult TransferState :=
  match current, target with
  | .Queued, .Running | .Queued, .Cancelling | .Running, .Cancelling | .Running, .Completed
  | .Running, .Failed | .Cancelling, .Cancelled | .Failed, .Queued | .Cancelled, .Queued =>
      .ok target
  | _, _ => .error (.State ("invalid transfer state transition: ".toList ++ current.debug ++
      " -> ".toList ++ target.debug))

def transfer_state_is_terminal (state : TransferState) : Bool :=
  state = .Completed || state = .Cancelled || state = .Failed

def revise_transfer_job (job : TransferJob) : TransferJob :=
  { job with revision := min (job.revision + 1) MAX_REVISION }

def limited_error (value : Text) : Text :=
  if value.len ≤ ERROR_LIMIT then value
  else Text.truncate_at ERROR_LIMIT value ++ "\n[RemoteDeck: error truncated]".toList

/-! ### The registry -/

/-- A job with the number of its control. -/
structure TransferEntry where
  job : TransferJob
  host : HostProfile
  operation : TransferOperation
  control : Nat
  deriving DecidableEq, Repr

inductive Stage where
  /-- The attempt was spawned and has not looked at its job. -/
  | spawned
  /-- It transfers, under the control it found. -/
  | running (control : Nat)
  deriving DecidableEq, Repr

/-- A task that executes a job. -/
structure Attempt where
  job_id : Text
  stage : Stage
  deriving DecidableEq, Repr

abbrev Entries := AList fun _ : Text => TransferEntry

structure TransferRegistry where
  entries : Entries
  retired_hosts : Finset Text
  attempts : List Attempt
  /-- The controls of the calls of `cancel` that have written a state and not
      signalled their control yet. -/
  unsignalled : List Nat
  /-- The controls that are cancelled. -/
  cancelled : Finset Nat
  /-- The number of controls made so far. -/
  controls : Nat
  /-- The identifiers made so far. -/
  used_ids : Finset Text

def TransferRegistry.empty : TransferRegistry where
  entries := ∅
  retired_hosts := ∅
  attempts := []
  unsignalled := []
  cancelled := ∅
  controls := 0
  used_ids := ∅

def TransferRegistry.entry (registry : TransferRegistry) (job_id : Text) : Option TransferEntry :=
  registry.entries.lookup job_id

/-- Write the entry of a job. -/
def TransferRegistry.set (registry : TransferRegistry) (job_id : Text) (entry : TransferEntry) :
    TransferRegistry :=
  { registry with entries := registry.entries.insert job_id entry }

def not_found {α : Type} (job_id : Text) : AppResult α :=
  .error (.NotFound ("transfer job ".toList ++ job_id))

def too_many_active {α : Type} : AppResult α :=
  .error (.Validation "at most 8 active transfers are allowed".toList)

/-! ### Starting -/

/-- The first terminal job of the least creation time. -/
def oldest_terminal (entries : Entries) : Option Text :=
  let older (oldest : Option TransferJob) (job : TransferJob) : Option TransferJob :=
    match oldest with
    | none => some job
    | some other => if job.created_at < other.created_at then some job else some other
  let terminal := (entries.entries.map fun item => item.2.job).filter fun job =>
    transfer_state_is_terminal job.state
  (terminal.foldl older none).map TransferJob.id

/-- `prune_terminal_transfers`, with a bound on the number of removals. -/
def prune_terminal_transfers (limit : Nat) : Nat → Entries → Entries
  | 0, entries => entries
  | bound + 1, entries =>
      if entries.entries.length < limit then entries
      else
        match oldest_terminal entries with
        | none => entries
        | some oldest => prune_terminal_transfers limit bound (entries.erase oldest)

/-- The jobs other than `job_id` that are not terminal. -/
def active_transfers (entries : Entries) (other_than : Option Text) : Nat :=
  (entries.entries.filter fun item =>
    other_than ≠ some item.1 && !transfer_state_is_terminal item.2.job.state).length

def new_job (id : Text) (now : Timestamp) (host : HostProfile) (operation : TransferOperation) :
    TransferJob :=
  let (direction, source, destination, request) := match operation with
    | .Upload request => (TransferDirection.Upload, request.local_path, request.remote_path, request)
    | .Download request => (TransferDirection.Download, request.remote_path, request.local_path, request)
  { id := id
    revision := 1
    host_id := host.id
    direction := direction
    source := source
    destination := destination
    conflict_policy := request.conflict_policy
    recursive := request.recursive
    state := .Queued
    attempts := 0
    bytes_transferred := 0
    total_bytes := none
    skipped := false
    created_at := now
    updated_at := now
    completed_at := none
    error := none }

def spawn_attempt (registry : TransferRegistry) (job_id : Text) : TransferRegistry :=
  { registry with attempts := registry.attempts ++ [{ job_id := job_id, stage := .spawned }] }

/-- `start`, with the identifier it makes. -/
def start (registry : TransferRegistry) (id : Text) (now : Timestamp) (host : HostProfile)
    (operation : TransferOperation) : TransferRegistry × AppResult TransferJob :=
  if host.id ∈ registry.retired_hosts then
    (registry, .error (.NotFound ("host ".toList ++ host.id)))
  else
    let entries := prune_terminal_transfers MAX_RETAINED_TRANSFERS registry.entries.entries.length
      registry.entries
    if active_transfers entries none ≥ MAX_ACTIVE_TRANSFERS then
      ({ registry with entries := entries, used_ids := insert id registry.used_ids }, too_many_active)
    else
      let job := new_job id now host operation
      let entry : TransferEntry :=
        { job := job, host := host, operation := operation, control := registry.controls }
      (spawn_attempt
        { registry with
          entries := entries.insert id entry
          controls := registry.controls + 1
          used_ids := insert id registry.used_ids } id, .ok job)

/-- `start_upload` and `start_download`: the profile that the repository has
    of the host, and the checks of the paths. -/
def start_transfer (registry : TransferRegistry) (id : Text) (now : Timestamp)
    (current_host : AppResult HostProfile) (valid_paths : AppResult Unit)
    (operation : TransferOperation) : TransferRegistry × AppResult TransferJob :=
  match current_host, valid_paths with
  | .error error, _ => (registry, .error error)
  | .ok _, .error error => (registry, .error error)
  | .ok host, .ok () => start registry id now host operation

/-! ### Cancelling and retrying -/

/-- The locked section of `cancel`. -/
def cancel (registry : TransferRegistry) (job_id : Text) (now : Timestamp) :
    TransferRegistry × AppResult TransferJob :=
  match registry.entry job_id with
  | none => (registry, not_found job_id)
  | some entry =>
      if entry.job.state = .Queued ∨ entry.job.state = .Running then
        match transition entry.job.state .Cancelling with
        | .error error => (registry, .error error)
        | .ok state =>
            let job := revise_transfer_job { entry.job with state := state, updated_at := now }
            let written := registry.set job_id { entry with job := job }
            ({ written with unsignalled := entry.control :: registry.unsignalled }, .ok job)
      else (registry, .ok entry.job)

/-- `control.cancel()`, the end of a `cancel` that wrote a state. -/
def signal (registry : TransferRegistry) (control : Nat) : TransferRegistry :=
  { registry with
    unsignalled := registry.unsignalled.erase control
    cancelled := insert control registry.cancelled }

/-- `prepare_transfer_retry`, with the control it makes. -/
def prepare_transfer_retry (entry : TransferEntry) (host : HostProfile) (valid_paths : AppResult Unit)
    (control : Nat) (now : Timestamp) : AppResult TransferEntry :=
  if entry.job.host_id ≠ host.id then
    .error (.Validation "transfer job does not belong to the selected host".toList)
  else do
    valid_paths
    let state ← transition entry.job.state .Queued
    .ok
      { entry with
        host := host
        control := control
        job := revise_transfer_job
          { entry.job with
            state := state
            updated_at := now
            completed_at := none
            error := none
            skipped := false
            bytes_transferred := 0 } }

def retry (registry : TransferRegistry) (job_id : Text) (current_host : AppResult HostProfile)
    (valid_paths : AppResult Unit) (now : Timestamp) : TransferRegistry × AppResult TransferJob :=
  match current_host with
  | .error error => (registry, .error error)
  | .ok host =>
      if host.id ∈ registry.retired_hosts then
        (registry, .error (.NotFound ("host ".toList ++ host.id)))
      else if active_transfers registry.entries (some job_id) ≥ MAX_ACTIVE_TRANSFERS then
        (registry, too_many_active)
      else
        match registry.entry job_id with
        | none => (registry, not_found job_id)
        | some entry =>
            match prepare_transfer_retry entry host valid_paths registry.controls now with
            | .error error => (registry, .error error)
            | .ok retried =>
                let written := registry.set job_id retried
                (spawn_attempt { written with controls := registry.controls + 1 } job_id,
                  .ok retried.job)

/-! ### Executing -/

/-- A job that has ended in a state. -/
def ended_job (job : TransferJob) (state : TransferState) (error : Option Text) (now : Timestamp) :
    TransferJob :=
  revise_transfer_job
    { job with state := state, error := error, updated_at := now, completed_at := some now }

/-- The attempt has ended. -/
def drop_attempt (registry : TransferRegistry) (attempt : Attempt) : TransferRegistry :=
  { registry with attempts := registry.attempts.erase attempt }

/-- The first locked section of `execute`. -/
def execute_begin (registry : TransferRegistry) (job_id : Text) (now : Timestamp) : TransferRegistry :=
  let rest := drop_attempt registry { job_id := job_id, stage := .spawned }
  match registry.entry job_id with
  | none => rest
  | some entry =>
      if entry.control ∈ registry.cancelled then
        rest.set job_id { entry with job := ended_job entry.job .Cancelled entry.job.error now }
      else
        match transition entry.job.state .Running with
        | .error error =>
            rest.set job_id
              { entry with job := ended_job entry.job .Failed (some error.to_string) now }
        | .ok state =>
            let job := revise_transfer_job
              { entry.job with
                state := state
                attempts := min (entry.job.attempts + 1) MAX_ATTEMPTS
                updated_at := now }
            let written := rest.set job_id { entry with job := job }
            { written with
              attempts := written.attempts ++ [{ job_id := job_id, stage := .running entry.control }] }

/-- The job after the result of its transfer. -/
def finished_job (job : TransferJob) (result : AppResult TransferOutcome) (now : Timestamp) :
    TransferJob :=
  match result with
  | .ok outcome =>
      ended_job
        { job with
          destination := outcome.destination
          total_bytes := some outcome.total_bytes
          bytes_transferred := outcome.total_bytes
          skipped := outcome.skipped } .Completed none now
  | .error .Cancelled => ended_job job .Cancelled none now
  | .error error => ended_job job .Failed (some (limited_error error.to_string)) now

/-- The last locked section of `execute`. -/
def execute_end (registry : TransferRegistry) (job_id : Text) (control : Nat)
    (result : AppResult TransferOutcome) (now : Timestamp) : TransferRegistry :=
  let rest := drop_attempt registry { job_id := job_id, stage := .running control }
  match registry.entry job_id with
  | none => rest
  | some entry => rest.set job_id { entry with job := finished_job entry.job result now }

/-! ### Hosts -/

/-- The last step of `remove_host`: forget the jobs of a host. -/
def purge_host (registry : TransferRegistry) (host_id : Text) : TransferRegistry :=
  let gone := (registry.entries.entries.filter fun item => item.2.job.host_id = host_id).map Sigma.fst
  { registry with entries := gone.foldl (fun entries id => entries.erase id) registry.entries }

/-! ### The machine -/

inductive Label where
  | start (id : Text) (now : Timestamp) (current_host : AppResult HostProfile)
      (valid_paths : AppResult Unit) (operation : TransferOperation)
  | cancel (job_id : Text) (now : Timestamp)
  | signal (control : Nat)
  | retry (job_id : Text) (current_host : AppResult HostProfile) (valid_paths : AppResult Unit)
      (now : Timestamp)
  | execute_begin (job_id : Text) (now : Timestamp)
  | execute_end (job_id : Text) (control : Nat) (result : AppResult TransferOutcome) (now : Timestamp)
  | retire_host (host_id : Text)
  | restore_host (host_id : Text)
  | purge_host (host_id : Text)
  deriving DecidableEq

def TransferRegistry.next (registry : TransferRegistry) : Label → Option TransferRegistry
  | .start id now current_host valid_paths operation =>
      if id ∈ registry.used_ids then none
      else some (start_transfer registry id now current_host valid_paths operation).1
  | .cancel job_id now => some (Sftp.cancel registry job_id now).1
  | .signal control =>
      if control ∈ registry.unsignalled then some (Sftp.signal registry control) else none
  | .retry job_id current_host valid_paths now =>
      some (Sftp.retry registry job_id current_host valid_paths now).1
  | .execute_begin job_id now =>
      if { job_id := job_id, stage := .spawned } ∈ registry.attempts then
        some (Sftp.execute_begin registry job_id now)
      else none
  | .execute_end job_id control result now =>
      -- a transfer reports that it was cancelled only under a cancelled control
      if { job_id := job_id, stage := .running control } ∈ registry.attempts ∧
          (result = .error .Cancelled → control ∈ registry.cancelled) then
        some (Sftp.execute_end registry job_id control result now)
      else none
  | .retire_host host_id =>
      some { registry with retired_hosts := insert host_id registry.retired_hosts }
  | .restore_host host_id =>
      some { registry with retired_hosts := registry.retired_hosts.erase host_id }
  | .purge_host host_id => some (Sftp.purge_host registry host_id)

def transfers : Machine TransferRegistry Label where
  init := fun registry => registry = .empty
  next := TransferRegistry.next

end Sftp
