import Mathlib.Data.List.Sort
import RemoteDeck.Command.Job
import RemoteDeck.Command.Output
import RemoteDeck.HostOperation
import RemoteDeck.Lib.Erasure

/-! # Command jobs

    `CommandJobRegistry` of `command_job.rs`: the entries, the tasks that
    execute them, the calls that cancel them and the retirement of a host.

    Every locked section is one step, and so is every await of a task.  What
    happens outside is carried by the labels: the output and the exit of a
    process, and whether it can be started and killed.  `Uuid::new_v4` does
    not repeat an identifier, and nothing closes the semaphore.

    This file defines:
    - `CommandJob` and `RegistryEntry`, with what one write does to them
    - `ExecuteStage`: where `execute_job` is, with its locals
    - `CommandJobRegistry`, which also keeps the last version of every job
      and the jobs whose process was started
    - `job_registry`: the machine
-/

namespace Command

open HostOperation (Barrier)

def MAX_CONCURRENT_JOBS : Nat := 16
def MAX_PENDING_JOBS : Nat := 128
def MAX_RETAINED_JOBS : Nat := 512
def MAX_RETAINED_OUTPUT_BYTES : Nat := 16 * 1024 * 1024
def MAX_REVISION : Nat := 18446744073709551615
def ERROR_LIMIT : Nat := 4096

/-! ### Jobs -/

inductive CommandJobState where
  | Queued
  | Running
  | Cancelling
  | Completed
  | Failed
  | Cancelled
  deriving DecidableEq, Repr

def CommandJobState.is_terminal (state : CommandJobState) : Bool :=
  state = .Completed || state = .Failed || state = .Cancelled

structure CommandJob where
  id : Text
  revision : Nat
  command_id : Option Text
  host_id : Text
  name : Text
  command : Text
  risk : CommandRisk
  state : CommandJobState
  stdout : Text
  stderr : Text
  exit_code : Option Int
  error : Option Text
  started_at : Option Timestamp
  finished_at : Option Timestamp
  deriving DecidableEq, Repr

structure RegistryEntry where
  job : CommandJob
  sequence : Nat
  stdout_truncated : Bool
  stderr_truncated : Bool
  deriving DecidableEq, Repr

inductive OutputStream where
  | Stdout
  | Stderr
  deriving DecidableEq, Repr

def stream_name : OutputStream → Text
  | .Stdout => "stdout".toList
  | .Stderr => "stderr".toList

def revise_command_job (job : CommandJob) : CommandJob :=
  { job with revision := min (job.revision + 1) MAX_REVISION }

def bounded_error (value : Text) : Text := truncate_utf8 value ERROR_LIMIT

/-- How an execution ends its job. -/
inductive Finish where
  | Completed (exit_code : Option Int)
  | Failed (error : Text) (exit_code : Option Int)
  | Cancelled
  deriving DecidableEq, Repr

/-- The job of a new command. -/
def queued_job (id : Text) (prepared : PreparedCommand) : CommandJob where
  id := id
  revision := 1
  command_id := prepared.command_id
  host_id := prepared.host.id
  name := prepared.name
  command := prepared.display_command
  risk := prepared.risk
  state := .Queued
  stdout := []
  stderr := []
  exit_code := none
  error := none
  started_at := none
  finished_at := none

/-- The job of a command that was handed to a terminal. -/
def handoff_job (id : Text) (plan : PtyCommandPlan) (session_id : Text) (now : Timestamp) :
    CommandJob where
  id := id
  revision := 1
  command_id := plan.command_id
  host_id := plan.host_id
  name := plan.name
  command := plan.command
  risk := plan.risk
  state := .Completed
  stdout := "Opened interactive terminal session ".toList ++ session_id ++ ".".toList
  stderr := []
  exit_code := some 0
  error := none
  started_at := some now
  finished_at := some now

/-- What `cancel` writes, if it writes. -/
def cancelled_job (job : CommandJob) (now : Timestamp) : Option CommandJob :=
  if job.state.is_terminal then none
  else if job.state = .Cancelling then none
  else if job.state = .Queued then
    some (revise_command_job { job with state := .Cancelled, finished_at := some now })
  else some (revise_command_job { job with state := .Cancelling })

/-- What `transition_running` writes, if it writes. -/
def running_job (job : CommandJob) (now : Timestamp) : Option CommandJob :=
  if job.state ≠ .Queued then none
  else some (revise_command_job { job with state := .Running, started_at := some now })

/-- What `append_job_output` writes, if it writes. -/
def appended_entry (entry : RegistryEntry) (stream : OutputStream) (data : List UInt8) :
    Option RegistryEntry :=
  if entry.job.state ≠ .Running ∧ entry.job.state ≠ .Cancelling then none
  else
    match stream with
    | .Stdout =>
        let (output, changed) := append_bounded ⟨entry.job.stdout, entry.stdout_truncated⟩ data
        if !changed then none
        else
          some
            { entry with
              job := revise_command_job { entry.job with stdout := output.target }
              stdout_truncated := output.truncated }
    | .Stderr =>
        let (output, changed) := append_bounded ⟨entry.job.stderr, entry.stderr_truncated⟩ data
        if !changed then none
        else
          some
            { entry with
              job := revise_command_job { entry.job with stderr := output.target }
              stderr_truncated := output.truncated }

/-- What `finish_cancelled` writes, if it writes. -/
def finish_cancelled_job (job : CommandJob) (now : Timestamp) : Option CommandJob :=
  if job.state = .Cancelled ∧ job.finished_at.isSome then none
  else
    some (revise_command_job
      { job with state := .Cancelled, finished_at := job.finished_at.or (some now) })

/-- What `finish_job` writes, if it writes. -/
def finish_job (job : CommandJob) (state : CommandJobState) (exit_code : Option Int)
    (error : Option Text) (now : Timestamp) : Option CommandJob :=
  if job.state ≠ .Running ∧ job.state ≠ .Cancelling then none
  else
    some (revise_command_job
      { job with state := state, exit_code := exit_code, error := error, finished_at := some now })

/-- `finish_completed`, `finish_failed` and `finish_cancelled`. -/
def finished_job (job : CommandJob) (finish : Finish) (now : Timestamp) : Option CommandJob :=
  match finish with
  | .Completed exit_code => finish_job job .Completed exit_code none now
  | .Failed error exit_code => finish_job job .Failed exit_code (some (bounded_error error)) now
  | .Cancelled => finish_cancelled_job job now

/-! ### Pruning -/

abbrev Entries := AList fun _ : Text => RegistryEntry

/-- The older of two entries, the first of them if they are of one age. -/
def older (oldest : Option (Sigma fun _ : Text => RegistryEntry))
    (item : Sigma fun _ : Text => RegistryEntry) : Option (Sigma fun _ : Text => RegistryEntry) :=
  match oldest with
  | none => some item
  | some other => if item.2.sequence < other.2.sequence then some item else some other

/-- The terminal entry of the least sequence. -/
def oldest_terminal (entries : Entries) : Option Text :=
  let terminal := entries.entries.filter fun item => item.2.job.state.is_terminal
  (terminal.foldl older none).map Sigma.fst

def retained_output_bytes (entries : Entries) : Nat :=
  let terminal := entries.entries.filter fun item => item.2.job.state.is_terminal
  terminal.foldl (fun total item =>
    total + item.2.job.stdout.len + item.2.job.stderr.len +
      (item.2.job.error.map Text.len).getD 0) 0

/-- `prune_terminal_jobs`, with a bound on the number of removals. -/
def prune_terminal_jobs (limit : Nat) : Nat → Entries → Entries
  | 0, entries => entries
  | bound + 1, entries =>
      if entries.entries.length < limit ∧
          retained_output_bytes entries ≤ MAX_RETAINED_OUTPUT_BYTES then entries
      else
        match oldest_terminal entries with
        | none => entries
        | some oldest => prune_terminal_jobs limit bound (entries.erase oldest)

def pruned (entries : Entries) : Entries :=
  prune_terminal_jobs MAX_RETAINED_JOBS entries.entries.length entries

/-- The entries whose job is not terminal. -/
def pending_jobs (entries : Entries) : Nat :=
  entries.entries.countP fun item => !item.2.job.state.is_terminal

/-! ### Executions -/

/-- A `watch::Receiver`, with whether there is a value it has not seen. -/
structure CancelReceiver where
  value : Bool
  unseen : Bool
  deriving DecidableEq, Repr

/-- How a process exits: its code, if it has one. -/
abbrev ExitStatus := Option Int

/-- The locals of the loop of `execute_job`. -/
structure ExecuteLoop where
  status : Option (Except Text ExitStatus)
  pipes_open : Bool
  cancellation_seen : Bool
  cancellation_deadline : Bool
  cancellation_failure : Option Text
  pipe_error : Option Text

def ExecuteLoop.entered : ExecuteLoop where
  status := none
  pipes_open := true
  cancellation_seen := false
  cancellation_deadline := false
  cancellation_failure := none
  pipe_error := none

def exit_code (status : Option (Except Text ExitStatus)) : Option Int :=
  match status with
  | some (.ok code) => code
  | _ => none

/-- How the job is finished after the loop. -/
def ExecuteLoop.finish (locals : ExecuteLoop) (cancellation_requested : Bool) : Finish :=
  if locals.cancellation_seen || cancellation_requested then
    match locals.cancellation_failure with
    | some error => .Failed error (exit_code locals.status)
    | none => .Cancelled
  else
    match locals.pipe_error with
    | some error => .Failed error (exit_code locals.status)
    | none =>
        match locals.status with
        | some (.ok code) =>
            if code = some 0 then .Completed code
            else
              .Failed ("remote command exited with code ".toList ++
                (code.map fun code => (toString code).toList).getD "unknown".toList) code
        | some (.error error) => .Failed error none
        | none => .Failed "command process ended without an exit status".toList none

def termination_failure (error : Text) : Text :=
  "failed to terminate the owned command process: ".toList ++ error

def pipe_termination_failure (error : Text) : Text :=
  "failed to terminate after a pipe error: ".toList ++ error

def pipe_failure (stream : OutputStream) (message : Text) : Text :=
  stream_name stream ++ " reader failed: ".toList ++ message

def cancellation_timeout : Text :=
  "owned command process or output pipes did not close within 5 seconds".toList

def pipe_timeout : Text :=
  "owned command process did not exit after an output-pipe failure".toList

/-- `changed()` of the first branch, with the error of `start_kill`. -/
def ExecuteLoop.cancel_changed (locals : ExecuteLoop) (sent : Bool) (value : Bool)
    (kill : Option Text) : ExecuteLoop :=
  if !sent then { locals with cancellation_seen := true, cancellation_deadline := true }
  else if value then
    { locals with
      cancellation_seen := true
      cancellation_deadline := true
      cancellation_failure := (kill.map termination_failure).or locals.cancellation_failure }
  else { locals with cancellation_deadline := true }

def ExecuteLoop.pipe_failed (locals : ExecuteLoop) (stream : OutputStream) (message : Text)
    (kill : Option Text) : ExecuteLoop :=
  { locals with
    pipe_error := locals.pipe_error.or (some (pipe_failure stream message))
    cancellation_failure := locals.cancellation_failure.or (kill.map pipe_termination_failure)
    cancellation_deadline := true }

def ExecuteLoop.deadline (locals : ExecuteLoop) : ExecuteLoop :=
  if locals.cancellation_seen then
    { locals with cancellation_failure := locals.cancellation_failure.or (some cancellation_timeout) }
  else { locals with pipe_error := locals.pipe_error.or (some pipe_timeout) }

inductive ExecuteStage where
  | entered
  /-- Waits for a permit or for a cancellation. -/
  | acquiring
  | acquired
  /-- The job is running; the process is spawned next. -/
  | starting
  | looping (locals : ExecuteLoop)
  /-- The permit is dropped. -/
  | left (locals : ExecuteLoop)
  /-- The job is finished next, with or without the permit. -/
  | finishing (finish : Finish) (permit : Bool)
  | ended

/-- A call of `execute_job`. -/
structure Execution where
  cancel_rx : CancelReceiver
  stage : ExecuteStage

/-! ### The registry -/

/-- What a call of `run_resolved` or `record_pty_handoff` is about. -/
inductive Operation where
  | run (resolved : ResolvedCommand) (confirmation : Option Text)
  | handoff (plan : PtyCommandPlan) (session_id : Text)
  deriving DecidableEq, Repr

def Operation.host_id : Operation → Text
  | .run resolved _ => resolved.host.id
  | .handoff plan _ => plan.host_id

/-- Where `retire_host` is. -/
inductive RetireStage where
  /-- Waits for the leases of the host. -/
  | waiting
  | listing
  /-- Cancels these jobs, then waits for all jobs of the host. -/
  | cancelling (ids : List Text)
  | purging
  deriving DecidableEq, Repr

structure CommandJobRegistry where
  entries : Entries
  next_sequence : Nat
  /-- The permits that the semaphore has left. -/
  permits : Nat
  executions : AList fun _ : Text => Execution
  /-- The jobs whose cancellation is written and not sent yet. -/
  unsent : List Text
  host_operations : Barrier Nat
  /-- The calls that hold a lease and have not registered their job. -/
  operations : AList fun _ : Nat => Operation
  next_call : Nat
  retirements : AList fun _ : Text => RetireStage
  /-- The last version of every job, whether it is kept or not. -/
  versions : AList fun _ : Text => CommandJob
  /-- The jobs whose process was started. -/
  started : List Text

def CommandJobRegistry.new (max_concurrency : Nat) : CommandJobResult CommandJobRegistry :=
  if max_concurrency = 0 ∨ max_concurrency > MAX_CONCURRENT_JOBS then
    invalid "max concurrency must be between 1 and 16"
  else
    .ok
      { entries := ∅
        next_sequence := 0
        permits := max_concurrency
        executions := ∅
        unsent := []
        host_operations := .empty
        operations := ∅
        next_call := 0
        retirements := ∅
        versions := ∅
        started := [] }

namespace CommandJobRegistry

variable (registry : CommandJobRegistry)

def entry (id : Text) : Option RegistryEntry := registry.entries.lookup id

def execution (id : Text) : Option Execution := registry.executions.lookup id

/-- The last version of a job. -/
def version (id : Text) : Option CommandJob := registry.versions.lookup id

/-- Write the entry of a job. -/
def write (id : Text) (entry : RegistryEntry) : CommandJobRegistry :=
  { registry with
    entries := registry.entries.insert id entry
    versions := registry.versions.insert id entry.job }

def prune : CommandJobRegistry := { registry with entries := pruned registry.entries }

/-- Write an entry under the job that it has next, if it changes. -/
def rewrite (id : Text) (change : RegistryEntry → Option RegistryEntry) : CommandJobRegistry :=
  match registry.entry id with
  | none => registry
  | some entry =>
      match change entry with
      | none => registry
      | some entry' => registry.write id entry'

/-- The change of an entry whose job changes. -/
def change_job (change : CommandJob → Option CommandJob) (entry : RegistryEntry) :
    Option RegistryEntry :=
  (change entry.job).map fun job => { entry with job := job }

def set_stage (id : Text) (cancel_rx : CancelReceiver) (stage : ExecuteStage) : CommandJobRegistry :=
  { registry with executions := registry.executions.insert id ⟨cancel_rx, stage⟩ }

def release_permit : CommandJobRegistry := { registry with permits := registry.permits + 1 }

/-! ### Starting -/

def begin_host_operation (operation : Operation) : CommandJobRegistry :=
  let (host_operations, admitted) :=
    registry.host_operations.begin registry.next_call operation.host_id
  { registry with
    host_operations := host_operations
    operations :=
      if admitted then registry.operations.insert registry.next_call operation
      else registry.operations
    next_call := registry.next_call + 1 }

/-- A new entry, under the next sequence. -/
def insert_job (id : Text) (job : CommandJob) : CommandJobRegistry :=
  let entry : RegistryEntry :=
    { job := job
      sequence := registry.next_sequence
      stdout_truncated := false
      stderr_truncated := false }
  { registry.write id entry with next_sequence := min (registry.next_sequence + 1) MAX_REVISION }

/-- `start_process`, to the task it spawns. -/
def start_process (id : Text) (prepared : PreparedCommand) : CommandJobRegistry :=
  let registry := registry.prune
  if pending_jobs registry.entries ≥ MAX_PENDING_JOBS then registry
  else
    (registry.insert_job id (queued_job id prepared)).set_stage id ⟨false, false⟩ .entered

def record_pty_handoff (id : Text) (plan : PtyCommandPlan) (session_id : Text) (now : Timestamp) :
    CommandJobRegistry :=
  registry.prune.insert_job id (handoff_job id plan session_id now)

/-! ### Cancelling -/

/-- The locked section of `cancel`. -/
def cancel (id : Text) (now : Timestamp) : CommandJobRegistry :=
  match registry.entry id with
  | none => registry
  | some entry =>
      match cancelled_job entry.job now with
      | none => registry
      | some job =>
          { registry.write id { entry with job := job } with unsent := id :: registry.unsent }

/-- `sender.send(true)`, the end of a `cancel` that wrote. -/
def send (id : Text) : CommandJobRegistry :=
  let sent := { registry with unsent := registry.unsent.erase id }
  match registry.execution id with
  | none => sent
  | some execution => sent.set_stage id ⟨true, true⟩ execution.stage

/-! ### Executing -/

/-- What `cancel_rx.changed()` returns, if it returns: whether a value was
    sent, and the receiver that has seen it. -/
def changed (id : Text) (cancel_rx : CancelReceiver) : Option (Bool × CancelReceiver) :=
  if cancel_rx.unseen then some (true, { cancel_rx with unseen := false })
  -- the senders are in the entry and in the calls that have not sent
  else if registry.entry id = none ∧ id ∉ registry.unsent then some (false, cancel_rx)
  else none

def job_cancellation_requested (id : Text) : Bool :=
  (registry.entry id).any fun entry =>
    entry.job.state = .Cancelling || entry.job.state = .Cancelled

/-- The entry that `transition_running` writes, if it writes. -/
def running_entry (id : Text) (now : Timestamp) : Option RegistryEntry :=
  (registry.entry id).bind (change_job fun job => running_job job now)

/-- `transition_running`, and the return if it refuses. -/
def transition_running (id : Text) (cancel_rx : CancelReceiver) (now : Timestamp) :
    CommandJobRegistry :=
  match registry.running_entry id now with
  | some entry => (registry.write id entry).set_stage id cancel_rx .starting
  | none => (registry.set_stage id cancel_rx .ended).release_permit

/-- The locked section of `finish_job` and `finish_cancelled`. -/
def finish (id : Text) (finish : Finish) (now : Timestamp) : CommandJobRegistry :=
  match registry.entry id with
  | none => registry
  | some entry =>
      match finished_job entry.job finish now with
      | none => registry
      | some job => (registry.write id { entry with job := job }).prune

/-- The end of `execute_job`. -/
def execute_end (id : Text) (cancel_rx : CancelReceiver) (permit : Bool) : CommandJobRegistry :=
  let ended := registry.set_stage id cancel_rx .ended
  if permit then ended.release_permit else ended

/-! ### Retiring a host -/

def set_retirement (host_id : Text) (stage : RetireStage) : CommandJobRegistry :=
  { registry with retirements := registry.retirements.insert host_id stage }

def end_retirement (host_id : Text) : CommandJobRegistry :=
  { registry with retirements := registry.retirements.erase host_id }

/-- `list` of a host, and the jobs of it that are not terminal. -/
def list_pending (host_id : Text) : List Text :=
  let listed := (registry.entries.entries.map fun item => item.2).filter fun entry =>
    entry.job.host_id = host_id
  let sorted := listed.insertionSort fun a b => a.sequence ≤ b.sequence
  (sorted.filter fun entry => !entry.job.state.is_terminal).map fun entry => entry.job.id

/-- All jobs of a host are terminal. -/
def all_terminal (host_id : Text) : Bool :=
  registry.entries.entries.all fun item =>
    item.2.job.host_id ≠ host_id || item.2.job.state.is_terminal

/-- The last locked section of `retire_host`. -/
def purge (host_id : Text) : CommandJobRegistry :=
  let gone := (registry.entries.entries.filter fun item => item.2.job.host_id = host_id).map Sigma.fst
  { registry with entries := registry.entries.eraseAll gone }

end CommandJobRegistry

/-! ### The machine -/

inductive Label where
  | begin_host_operation (operation : Operation)
  | start_process (call : Nat) (id : Text)
  | record_pty_handoff (call : Nat) (id : Text) (now : Timestamp)
  /-- The call returns, whether it registered a job or failed before. -/
  | end_host_operation (call : Nat) (host_id : Text)
  | cancel (id : Text) (now : Timestamp)
  | send (id : Text)
  | execute_job (id : Text)
  | cancelled_acquiring (id : Text)
  | acquire (id : Text)
  | transition_running (id : Text) (now : Timestamp)
  | spawn (id : Text) (result : Except Text Unit)
  | cancelled_looping (id : Text) (kill : Option Text)
  | wait (id : Text) (result : Except Text ExitStatus)
  | append_job_output (id : Text) (stream : OutputStream) (data : List UInt8)
  | pipe_error (id : Text) (stream : OutputStream) (message : Text) (kill : Option Text)
  | pipes_closed (id : Text)
  | cancel_deadline (id : Text)
  | leave_loop (id : Text)
  | choose_finish (id : Text)
  | finish (id : Text) (now : Timestamp)
  | retire_host (host_id : Text)
  | wait_idle (host_id : Text)
  | list (host_id : Text)
  | cancel_next (host_id : Text) (now : Timestamp)
  | wait_terminal (host_id : Text)
  | purge (host_id : Text)
  | retirement_timeout (host_id : Text)
  | restore_host (host_id : Text)

namespace CommandJobRegistry

variable (registry : CommandJobRegistry)

/-- A step of the loop of `execute_job`. -/
def loop_step (id : Text) (step : CancelReceiver → ExecuteLoop → Option CommandJobRegistry) :
    Option CommandJobRegistry :=
  match registry.execution id with
  | some ⟨cancel_rx, .looping locals⟩ =>
      if locals.status.isNone || locals.pipes_open then step cancel_rx locals else none
  | _ => none

def next_start : Label → Option CommandJobRegistry
  | .begin_host_operation operation => some (registry.begin_host_operation operation)
  | .start_process call id =>
      if (registry.version id).isSome then none
      else
        match registry.operations.lookup call with
        | some (.run resolved confirmation) =>
            match prepare_run resolved confirmation with
            | .ok prepared =>
                some { registry.start_process id prepared with
                  operations := registry.operations.erase call }
            | .error _ => none
        | _ => none
  | .record_pty_handoff call id now =>
      if (registry.version id).isSome then none
      else
        match registry.operations.lookup call with
        | some (.handoff plan session_id) =>
            some { registry.record_pty_handoff id plan session_id now with
              operations := registry.operations.erase call }
        | _ => none
  | .end_host_operation call host_id =>
      if (call, host_id) ∈ registry.host_operations.leases then
        some { registry with
          host_operations := registry.host_operations.drop call host_id
          operations := registry.operations.erase call }
      else none
  | .cancel id now => some (registry.cancel id now)
  | .send id => if id ∈ registry.unsent then some (registry.send id) else none
  | _ => none

def next_execute : Label → Option CommandJobRegistry
  | .execute_job id =>
      match registry.execution id with
      | some ⟨cancel_rx, .entered⟩ =>
          some (registry.set_stage id cancel_rx
            (if cancel_rx.value then .finishing .Cancelled false else .acquiring))
      | _ => none
  | .cancelled_acquiring id =>
      match registry.execution id with
      | some ⟨cancel_rx, .acquiring⟩ =>
          (registry.changed id cancel_rx).map fun (sent, cancel_rx) =>
            registry.set_stage id cancel_rx
              (if !sent || cancel_rx.value then .finishing .Cancelled false else .ended)
      | _ => none
  | .acquire id =>
      match registry.execution id with
      | some ⟨cancel_rx, .acquiring⟩ =>
          if registry.permits = 0 then none
          else some { registry.set_stage id cancel_rx .acquired with permits := registry.permits - 1 }
      | _ => none
  | .transition_running id now =>
      match registry.execution id with
      | some ⟨cancel_rx, .acquired⟩ => some (registry.transition_running id cancel_rx now)
      | _ => none
  | .spawn id result =>
      match registry.execution id with
      | some ⟨cancel_rx, .starting⟩ =>
          match result with
          | .ok () =>
              some { registry.set_stage id cancel_rx (.looping .entered) with
                started := id :: registry.started }
          | .error error => some (registry.set_stage id cancel_rx (.finishing (.Failed error none) true))
      | _ => none
  | .choose_finish id =>
      match registry.execution id with
      | some ⟨cancel_rx, .left locals⟩ =>
          some (registry.set_stage id cancel_rx
            (.finishing (locals.finish (registry.job_cancellation_requested id)) false))
      | _ => none
  | .finish id now =>
      match registry.execution id with
      | some ⟨cancel_rx, .finishing finish permit⟩ =>
          some ((registry.finish id finish now).execute_end id cancel_rx permit)
      | _ => none
  | _ => none

def next_loop : Label → Option CommandJobRegistry
  | .cancelled_looping id kill =>
      registry.loop_step id fun cancel_rx locals =>
        if locals.cancellation_seen then none
        else
          (registry.changed id cancel_rx).map fun (sent, cancel_rx) =>
            registry.set_stage id cancel_rx
              (.looping (locals.cancel_changed sent cancel_rx.value kill))
  | .wait id result =>
      registry.loop_step id fun cancel_rx locals =>
        if locals.status.isSome then none
        else some (registry.set_stage id cancel_rx (.looping { locals with status := some result }))
  | .append_job_output id stream data =>
      registry.loop_step id fun _ locals =>
        if !locals.pipes_open then none
        else some (registry.rewrite id fun entry => appended_entry entry stream data)
  | .pipe_error id stream message kill =>
      registry.loop_step id fun cancel_rx locals =>
        if !locals.pipes_open then none
        else some (registry.set_stage id cancel_rx (.looping (locals.pipe_failed stream message kill)))
  | .pipes_closed id =>
      registry.loop_step id fun cancel_rx locals =>
        if !locals.pipes_open then none
        else some (registry.set_stage id cancel_rx (.looping { locals with pipes_open := false }))
  | .cancel_deadline id =>
      registry.loop_step id fun cancel_rx locals =>
        if (locals.cancellation_seen || locals.pipe_error.isSome) && locals.cancellation_deadline then
          some (registry.set_stage id cancel_rx (.left locals.deadline)).release_permit
        else none
  | .leave_loop id =>
      match registry.execution id with
      | some ⟨cancel_rx, .looping locals⟩ =>
          if locals.status.isNone || locals.pipes_open then none
          else some (registry.set_stage id cancel_rx (.left locals)).release_permit
      | _ => none
  | _ => none

/-- `retire_host` and `restore_host`, for one caller at a time: a deletion
    restores the host after its retirement has returned. -/
def next_retire : Label → Option CommandJobRegistry
  | .retire_host host_id =>
      if (registry.retirements.lookup host_id).isSome then none
      else
        some { registry.set_retirement host_id .waiting with
          host_operations := registry.host_operations.retire host_id }
  | .wait_idle host_id =>
      if registry.retirements.lookup host_id = some .waiting ∧ registry.host_operations.idle host_id then
        some (registry.set_retirement host_id .listing)
      else none
  | .list host_id =>
      if registry.retirements.lookup host_id = some .listing then
        some (registry.set_retirement host_id (.cancelling (registry.list_pending host_id)))
      else none
  | .cancel_next host_id now =>
      match registry.retirements.lookup host_id with
      | some (.cancelling (id :: ids)) =>
          some ((registry.cancel id now).set_retirement host_id (.cancelling ids))
      | _ => none
  | .wait_terminal host_id =>
      if registry.retirements.lookup host_id = some (.cancelling []) ∧ registry.all_terminal host_id then
        some (registry.set_retirement host_id .purging)
      else none
  | .purge host_id =>
      if registry.retirements.lookup host_id = some .purging then
        some ((registry.purge host_id).end_retirement host_id)
      else none
  | .retirement_timeout host_id =>
      if registry.retirements.lookup host_id = some .waiting ∨
          registry.retirements.lookup host_id = some (.cancelling []) then
        some (registry.end_retirement host_id)
      else none
  | .restore_host host_id =>
      if (registry.retirements.lookup host_id).isSome then none
      else some { registry with host_operations := registry.host_operations.restore host_id }
  | _ => none

def next (label : Label) : Option CommandJobRegistry :=
  match label with
  | .begin_host_operation _ | .start_process _ _ | .record_pty_handoff _ _ _
  | .end_host_operation _ _ | .cancel _ _ | .send _ => registry.next_start label
  | .execute_job _ | .cancelled_acquiring _ | .acquire _ | .transition_running _ _ | .spawn _ _
  | .choose_finish _ | .finish _ _ => registry.next_execute label
  | .cancelled_looping _ _ | .wait _ _ | .append_job_output _ _ _ | .pipe_error _ _ _ _
  | .pipes_closed _ | .cancel_deadline _ | .leave_loop _ => registry.next_loop label
  | .retire_host _ | .wait_idle _ | .list _ | .cancel_next _ _ | .wait_terminal _ | .purge _
  | .retirement_timeout _ | .restore_host _ => registry.next_retire label

end CommandJobRegistry

def job_registry : Machine CommandJobRegistry Label where
  init := fun registry => ∃ max_concurrency, CommandJobRegistry.new max_concurrency = .ok registry
  next := CommandJobRegistry.next

end Command
