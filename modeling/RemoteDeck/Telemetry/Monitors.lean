import Mathlib.Data.List.AList
import RemoteDeck.Error
import RemoteDeck.Lib.Machine

/-! # Telemetry monitors

    `start`, `stop` and `remove_host` of `telemetry.rs`, and the worker
    thread of a monitor.  Each section under the lock of `monitors` is a step,
    and so is each change of a status, which has a lock of its own: calls and
    workers write statuses after they have released the monitors.

    A sample is recorded under the read lock, and the exit of a worker
    writes its status under the write lock; `readers` and `writer` say who
    holds it between two steps.  Generations are counted up and do not wrap.
-/

namespace Telemetry

def MAX_ACTIVE_MONITORS : Nat := 32
def U64_MAX : Nat := 18446744073709551615

/-! ### Statuses -/

inductive TelemetryRuntimeState where
  | Stopped | Starting | Online | Degraded | Failed
  deriving DecidableEq, Repr

structure TelemetryStatus where
  host_id : Text
  revision : Nat
  state : TelemetryRuntimeState
  last_sample_at : Option Text
  error : Option Text
  deriving DecidableEq, Repr

/-- What a writer puts into a status besides its state. -/
structure StatusDetail where
  last_sample_at : Option Text
  error : Option Text
  deriving DecidableEq, Repr

/-- `saturating_add(1)` on a revision. -/
def next_revision (previous : Option TelemetryStatus) : Nat :=
  match previous with
  | some previous => min (previous.revision + 1) U64_MAX
  | none => 1

/-! ### Workers and calls -/

inductive WorkerStage where
  /-- Registered; the thread is not spawned yet. -/
  | unspawned
  | running
  /-- The collector has returned. -/
  | collected
  /-- Holds the read lock, and is about to publish a sample. -/
  | sampling
  | reporting (state : TelemetryRuntimeState)
  | leaving
  /-- Holds the write lock, after it left the registry. -/
  | exiting
  | exited
  /-- Has marked its completion. -/
  | ended
  deriving DecidableEq, Repr

structure Worker where
  host_id : Text
  stop : Bool
  /-- The slot of the child holds one that was not reaped. -/
  child : Bool
  cleanup_error : Option Text
  stage : WorkerStage
  deriving DecidableEq, Repr

inductive CallStage where
  | starting
  | inserted (generation : Nat)
  | announced (generation : Nat)
  | spawn_failed (generation : Nat)
  | unregistered
  | stopping
  | absent
  | found (generation : Nat)
  | signalled (generation : Nat)
  | completed (generation : Nat)
  | cleaned (generation : Nat)
  | uncleaned (error : Text)
  | removed
  | stopped
  | returned
  deriving DecidableEq, Repr

/-- A call of `start`, of `stop`, or of `remove_host`, which begins as a stop. -/
structure Call where
  host_id : Text
  removes_host : Bool
  stage : CallStage
  deriving DecidableEq, Repr

structure Monitors where
  /-- The generation of the handle of a host. -/
  monitors : AList fun _ : Text => Nat
  next_monitor_generation : Nat
  workers : Nat → Option Worker
  statuses : Text → Option TelemetryStatus
  /-- The last status of a host that was published. -/
  published : Text → Option TelemetryStatus
  shutting_down : Bool
  calls : Nat → Option Call
  readers : Nat
  writer : Option Nat

def Monitors.default : Monitors where
  monitors := ∅
  next_monitor_generation := 0
  workers := fun _ => none
  statuses := fun _ => none
  published := fun _ => none
  shutting_down := false
  calls := fun _ => none
  readers := 0
  writer := none

def Monitors.set_call (registry : Monitors) (id : Nat) (call : Call) (stage : CallStage) : Monitors :=
  { registry with calls := Function.update registry.calls id (some { call with stage := stage }) }

def Monitors.set_worker (registry : Monitors) (generation : Nat) (worker : Worker) : Monitors :=
  { registry with workers := Function.update registry.workers generation (some worker) }

def Monitors.set_status (registry : Monitors) (host_id : Text) (state : TelemetryRuntimeState)
    (detail : StatusDetail) : Monitors :=
  let status := {
    host_id := host_id
    revision := next_revision (registry.statuses host_id)
    state := state
    last_sample_at := detail.last_sample_at
    error := detail.error }
  { registry with
    statuses := Function.update registry.statuses host_id (some status)
    published := Function.update registry.published host_id (some status) }

/-- Nobody holds the lock of the monitors. -/
def Monitors.unlocked (registry : Monitors) : Bool := registry.readers = 0 && registry.writer.isNone

/-! ### Start -/

/-- The section of `start` under the write lock; `host` is what the
    repository says about the host. -/
def Monitors.insert (registry : Monitors) (id : Nat) (call : Call) (host : AppResult Unit) :
    Monitors :=
  match host with
  | .error _ => registry.set_call id call .returned
  | .ok () =>
      if (registry.monitors.lookup call.host_id).isSome ∨
          MAX_ACTIVE_MONITORS ≤ registry.monitors.entries.length then
        registry.set_call id call .returned
      else
        let generation := registry.next_monitor_generation + 1
        let worker := {
          host_id := call.host_id
          stop := false
          child := false
          cleanup_error := none
          stage := .unspawned }
        Monitors.set_call
          { registry with
            monitors := registry.monitors.insert call.host_id generation
            next_monitor_generation := generation
            workers := Function.update registry.workers generation (some worker) }
          id call (.inserted generation)

/-! ### The worker -/

/-- Whether a worker may record its sample. -/
def Monitors.records (registry : Monitors) (generation : Nat) (worker : Worker) : Bool :=
  !worker.stop && registry.monitors.lookup worker.host_id = some generation

def Worker.cleanup_pending (worker : Worker) : Bool := worker.child || worker.cleanup_error.isSome

/-- The exit of a worker up to its status, under the write lock. -/
def Monitors.exit (registry : Monitors) (generation : Nat) (worker : Worker) : Monitors :=
  if registry.monitors.lookup worker.host_id = some generation then
    let monitors :=
      if worker.cleanup_pending then registry.monitors else registry.monitors.erase worker.host_id
    Monitors.set_worker { registry with monitors := monitors, writer := some generation } generation
      { worker with stage := .exiting }
  else registry.set_worker generation { worker with stage := .exited }

/-! ### The machine -/

inductive MonitorLabel where
  | begin_start (id : Nat) (host_id : Text)
  | insert (id : Nat) (host : AppResult Unit)
  | announce (id : Nat)
  | spawn (id : Nat) (spawned : Bool)
  | unregister (id : Nat)
  | publish_spawn_error (id : Nat) (detail : StatusDetail)
  | begin_stop (id : Nat) (host_id : Text) (removes_host : Bool)
  | find (id : Nat)
  | signal (id : Nat)
  | time_out (id : Nat)
  | await_completion (id : Nat)
  | cleanup (id : Nat) (reaped : Bool)
  | publish_cleanup_error (id : Nat) (detail : StatusDetail)
  | remove (id : Nat)
  | publish_stopped (id : Nat) (detail : StatusDetail)
  | give_up (id : Nat)
  | forget (id : Nat)
  | sample (generation : Nat)
  | publish_sample (generation : Nat) (detail : StatusDetail)
  | collect (generation : Nat) (child : Bool) (cleanup_error : Option Text)
  | judge (generation : Nat) (will_retry : Bool)
  | report (generation : Nat) (detail : StatusDetail)
  | leave (generation : Nat)
  | exit (generation : Nat)
  | publish_exit (generation : Nat) (detail : StatusDetail)
  | finish (generation : Nat)
  | shut_down

def Monitors.call_next (registry : Monitors) (id : Nat) (call : Call) : MonitorLabel → Option Monitors
  | .insert _ host =>
      match call.stage with
      | .starting => if registry.unlocked then some (registry.insert id call host) else none
      | _ => none
  | .announce _ =>
      match call.stage with
      | .inserted generation =>
          some ((registry.set_status call.host_id .Starting ⟨none, none⟩).set_call id call
            (.announced generation))
      | _ => none
  | .spawn _ spawned =>
      match call.stage with
      | .announced generation =>
          if spawned then do
            let worker ← registry.workers generation
            some ((registry.set_worker generation { worker with stage := .running }).set_call id call
              .returned)
          else some (registry.set_call id call (.spawn_failed generation))
      | _ => none
  | .unregister _ =>
      match call.stage with
      | .spawn_failed _ =>
          if registry.unlocked then
            some (Monitors.set_call { registry with monitors := registry.monitors.erase call.host_id }
              id call .unregistered)
          else none
      | _ => none
  | .publish_spawn_error _ detail =>
      match call.stage with
      | .unregistered =>
          some ((registry.set_status call.host_id .Failed detail).set_call id call .returned)
      | _ => none
  | .find _ =>
      match call.stage with
      | .stopping =>
          if registry.writer.isNone then
            match registry.monitors.lookup call.host_id with
            | none => some (registry.set_call id call .absent)
            | some generation => some (registry.set_call id call (.found generation))
          else none
      | _ => none
  | .signal _ =>
      match call.stage with
      | .found generation => do
          let worker ← registry.workers generation
          some ((registry.set_worker generation { worker with stop := true }).set_call id call
            (.signalled generation))
      | _ => none
  | .time_out _ =>
      match call.stage with
      | .signalled _ => some (registry.set_call id call .returned)
      | _ => none
  | .await_completion _ =>
      match call.stage with
      | .signalled generation => do
          let worker ← registry.workers generation
          if worker.stage = .ended then some (registry.set_call id call (.completed generation))
          else none
      | _ => none
  | .cleanup _ reaped =>
      match call.stage with
      | .completed generation => do
          let worker ← registry.workers generation
          if !reaped then some (registry.set_call id call .returned)
          else
            let registry := registry.set_worker generation { worker with child := false }
            match worker.cleanup_error with
            | some error => some (registry.set_call id call (.uncleaned error))
            | none => some (registry.set_call id call (.cleaned generation))
      | _ => none
  | .publish_cleanup_error _ detail =>
      match call.stage with
      | .uncleaned error =>
          some ((registry.set_status call.host_id .Failed { detail with error := some error }).set_call
            id call .returned)
      | _ => none
  | .remove _ =>
      match call.stage with
      | .cleaned generation =>
          if registry.unlocked then
            let monitors :=
              if registry.monitors.lookup call.host_id = some generation then
                registry.monitors.erase call.host_id
              else registry.monitors
            some (Monitors.set_call { registry with monitors := monitors } id call .removed)
          else none
      | _ => none
  | .publish_stopped _ detail =>
      match call.stage with
      | .absent | .removed =>
          some ((registry.set_status call.host_id .Stopped { detail with error := none }).set_call
            id call (if call.removes_host then .stopped else .returned))
      | _ => none
  | .give_up _ =>
      match call.stage with
      | .stopped => some (registry.set_call id call .returned)
      | _ => none
  | .forget _ =>
      match call.stage with
      | .stopped =>
          some (Monitors.set_call
            { registry with statuses := Function.update registry.statuses call.host_id none }
            id call .returned)
      | _ => none
  | _ => none

def Monitors.worker_next (registry : Monitors) (generation : Nat) (worker : Worker) :
    MonitorLabel → Option Monitors
  | .sample _ =>
      if worker.stage = .running ∧ registry.writer = none then
        if registry.records generation worker then
          some (Monitors.set_worker { registry with readers := registry.readers + 1 } generation
            { worker with stage := .sampling })
        else some registry
      else none
  | .publish_sample _ detail =>
      if worker.stage = .sampling then
        let registry := registry.set_status worker.host_id .Online { detail with error := none }
        some (Monitors.set_worker { registry with readers := registry.readers - 1 } generation
          { worker with stage := .running })
      else none
  | .collect _ child cleanup_error =>
      if worker.stage = .running then
        some (registry.set_worker generation
          { worker with
            stage := .collected
            child := child
            cleanup_error := cleanup_error.or worker.cleanup_error })
      else none
  | .judge _ will_retry =>
      if worker.stage = .collected then
        let stage :=
          if worker.child then .reporting .Failed
          else if worker.stop then .leaving
          else if will_retry then .reporting .Degraded
          else .reporting .Failed
        some (registry.set_worker generation { worker with stage := stage })
      else none
  | .report _ detail =>
      match worker.stage with
      | .reporting state =>
          some ((registry.set_status worker.host_id state detail).set_worker generation
            { worker with stage := if state = .Degraded then .running else .leaving })
      | _ => none
  | .leave _ =>
      if worker.stage = .running ∧ worker.stop then
        some (registry.set_worker generation { worker with stage := .leaving })
      else none
  | .exit _ =>
      if worker.stage = .leaving ∧ registry.unlocked then some (registry.exit generation worker)
      else none
  | .publish_exit _ detail =>
      if worker.stage = .exiting then
        let registry :=
          if worker.stop && !worker.cleanup_pending then
            registry.set_status worker.host_id .Stopped { detail with error := none }
          else registry
        some (Monitors.set_worker { registry with writer := none } generation
          { worker with stage := .exited })
      else none
  | .finish _ =>
      if worker.stage = .exited then
        some (registry.set_worker generation { worker with stage := .ended })
      else none
  | _ => none

/-- The call that a label is a step of. -/
def MonitorLabel.call : MonitorLabel → Option Nat
  | .insert id _ | .announce id | .spawn id _ | .unregister id | .publish_spawn_error id _
  | .find id | .signal id | .time_out id | .await_completion id | .cleanup id _
  | .publish_cleanup_error id _ | .remove id | .publish_stopped id _ | .give_up id | .forget id =>
      some id
  | _ => none

/-- The worker that a label is a step of. -/
def MonitorLabel.worker : MonitorLabel → Option Nat
  | .sample generation | .publish_sample generation _ | .collect generation _ _
  | .judge generation _ | .report generation _ | .leave generation | .exit generation
  | .publish_exit generation _ | .finish generation => some generation
  | _ => none

def Monitors.next (registry : Monitors) : MonitorLabel → Option Monitors
  | .begin_start id host_id =>
      if (registry.calls id).isSome then none
      else
        let stage := if registry.shutting_down then .returned else .starting
        some (registry.set_call id ⟨host_id, false, .starting⟩ stage)
  | .begin_stop id host_id removes_host =>
      if (registry.calls id).isSome then none
      else some (registry.set_call id ⟨host_id, removes_host, .stopping⟩ .stopping)
  | .shut_down => some { registry with shutting_down := true }
  | label =>
      match label.call, label.worker with
      | some id, _ => (registry.calls id).bind fun call => registry.call_next id call label
      | _, some generation =>
          (registry.workers generation).bind fun worker => registry.worker_next generation worker label
      | none, none => none

def monitor_machine : Machine Monitors MonitorLabel where
  init := fun registry => registry = .default
  next := Monitors.next

end Telemetry
