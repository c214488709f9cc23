import RemoteDeck.HostOperation
import RemoteDeck.Sftp.Registry

/-! # The transfer manager

    The registry of the transfers together with the host operations of the
    service it runs them on, the tasks that hold a lease while they transfer,
    and the calls of `remove_host`.

    A removal takes the lock of the retired hosts, then that of the service,
    then reads the jobs of the host; it cancels them one by one, waits for
    their tasks and for the leases of the host, and forgets the jobs.
-/

namespace Sftp

open HostOperation (Barrier)

/-- Who holds a lease: a file operation, or the task of a transfer. -/
inductive Holder where
  | operation (id : Nat)
  | task (id : Nat)
  deriving DecidableEq, Repr

inductive TaskStage where
  | running
  | leased
  /-- The host is being retired. -/
  | refused
  | performed
  /-- The job has its result. -/
  | ended
  /-- The control is marked as finished. -/
  | finished
  deriving DecidableEq, Repr

/-- A call of `execute`. -/
structure Task where
  job_id : Text
  /-- The host of the profile it captured. -/
  host_id : Text
  control : Nat
  stage : TaskStage
  deriving DecidableEq, Repr

inductive RemovalStage where
  | retired
  | closing
  /-- Waits for these controls, and cancels these jobs first. -/
  | cancelling (controls : List Nat) (job_ids : List Text)
  /-- Has written a job and signals its control next. -/
  | signalling (control : Nat) (controls : List Nat) (job_ids : List Text)
  | settled
  | idle
  | removed
  | timed_out
  deriving DecidableEq, Repr

/-- A call of `remove_host`. -/
structure Removal where
  host_id : Text
  stage : RemovalStage
  deriving DecidableEq, Repr

structure TransferManager where
  registry : TransferRegistry
  service : Barrier Holder
  tasks : Nat → Option Task
  removals : Nat → Option Removal
  /-- The controls that are marked as finished. -/
  finished : Finset Nat
  /-- The calls of `restore_host` between their two halves. -/
  restoring : List Text

def TransferManager.new : TransferManager where
  registry := .empty
  service := .empty
  tasks := fun _ => none
  removals := fun _ => none
  finished := ∅
  restoring := []

def TransferManager.set_task (manager : TransferManager) (id : Nat) (task : Task)
    (stage : TaskStage) : TransferManager :=
  { manager with tasks := Function.update manager.tasks id (some { task with stage := stage }) }

def TransferManager.set_removal (manager : TransferManager) (id : Nat) (removal : Removal)
    (stage : RemovalStage) : TransferManager :=
  { manager with
    removals := Function.update manager.removals id (some { removal with stage := stage }) }

/-- What `begin_host_operation` answers for a retired host. -/
def retired_error (host_id : Text) : AppError :=
  .State ("SFTP operations for host ".toList ++ host_id ++ " are being retired".toList)

/-- The jobs of a host with their controls. -/
def TransferManager.matching (manager : TransferManager) (host_id : Text) : List (Text × Nat) :=
  (manager.registry.entries.entries.filter fun item => item.2.job.host_id = host_id).map
    fun item => (item.1, item.2.control)

inductive ManagerLabel where
  /-- A step of `start`, `cancel` or `retry`. -/
  | transfer (label : Label)
  | execute_begin (task : Nat) (job_id : Text) (now : Timestamp)
  | begin_lease (task : Nat)
  | end_lease (task : Nat)
  | execute_end (task : Nat) (result : AppResult TransferOutcome) (now : Timestamp)
  | mark_finished (task : Nat)
  | begin_operation (id : Nat) (host_id : Text)
  | end_operation (id : Nat) (host_id : Text)
  | remove_host (id : Nat) (host_id : Text)
  | retire_service (id : Nat)
  | collect (id : Nat)
  | cancel_next (id : Nat) (now : Timestamp)
  | signal_next (id : Nat)
  | wait_finished (id : Nat)
  | wait_idle (id : Nat)
  | time_out (id : Nat)
  | purge (id : Nat)
  | restore_host (host_id : Text)
  | restore_service (host_id : Text)

/-- The labels of the registry that are calls of their own. -/
def Label.is_call : Label → Bool
  | .start .. | .cancel .. | .signal .. | .retry .. => true
  | _ => false

def TransferManager.task_next (manager : TransferManager) (id : Nat) (task : Task) :
    ManagerLabel → Option TransferManager
  | .begin_lease _ =>
      if task.stage = .running then
        let begun := manager.service.begin (.task id) task.host_id
        some (TransferManager.set_task { manager with service := begun.1 } id task
          (if begun.2 then .leased else .refused))
      else none
  | .end_lease _ =>
      if task.stage = .leased then
        (manager.service.next (.drop (.task id) task.host_id)).map fun service =>
          TransferManager.set_task { manager with service := service } id task .performed
      else none
  | .execute_end _ result now =>
      let result := if task.stage = .refused then .error (retired_error task.host_id) else result
      if task.stage = .performed ∨ task.stage = .refused then
        (manager.registry.next (.execute_end task.job_id task.control result now)).map
          fun registry => TransferManager.set_task { manager with registry := registry } id task .ended
      else none
  | .mark_finished _ =>
      if task.stage = .ended then
        some (TransferManager.set_task
          { manager with finished := insert task.control manager.finished } id task .finished)
      else none
  | _ => none

def TransferManager.removal_next (manager : TransferManager) (id : Nat) (removal : Removal) :
    ManagerLabel → Option TransferManager
  | .retire_service _ =>
      match removal.stage with
      | .retired =>
          some (TransferManager.set_removal
            { manager with service := manager.service.retire removal.host_id } id removal .closing)
      | _ => none
  | .collect _ =>
      match removal.stage with
      | .closing =>
          let matching := manager.matching removal.host_id
          some (manager.set_removal id removal
            (.cancelling (matching.map Prod.snd) (matching.map Prod.fst)))
      | _ => none
  | .cancel_next _ now =>
      match removal.stage with
      | .cancelling controls (job_id :: job_ids) =>
          -- a job that is not active is left as it is
          let stage :=
            match manager.registry.entry job_id with
            | some entry =>
                if entry.job.state = .Queued ∨ entry.job.state = .Running then
                  RemovalStage.signalling entry.control controls job_ids
                else .cancelling controls job_ids
            | none => .cancelling controls job_ids
          (manager.registry.next (.cancel job_id now)).map fun registry =>
            TransferManager.set_removal { manager with registry := registry } id removal stage
      | _ => none
  | .signal_next _ =>
      match removal.stage with
      | .signalling control controls job_ids =>
          (manager.registry.next (.signal control)).map fun registry =>
            TransferManager.set_removal { manager with registry := registry } id removal
              (.cancelling controls job_ids)
      | _ => none
  | .wait_finished _ =>
      match removal.stage with
      | .cancelling controls [] =>
          if controls.all fun control => control ∈ manager.finished then
            some (manager.set_removal id removal .settled)
          else none
      | _ => none
  | .wait_idle _ =>
      match removal.stage with
      | .settled =>
          if manager.service.idle removal.host_id then some (manager.set_removal id removal .idle)
          else none
      | _ => none
  | .time_out _ =>
      match removal.stage with
      | .cancelling _ [] | .settled => some (manager.set_removal id removal .timed_out)
      | _ => none
  | .purge _ =>
      match removal.stage with
      | .idle =>
          (manager.registry.next (.purge_host removal.host_id)).map fun registry =>
            TransferManager.set_removal { manager with registry := registry } id removal .removed
      | _ => none
  | _ => none

/-- The task that a label is a step of. -/
def ManagerLabel.task : ManagerLabel → Option Nat
  | .begin_lease id | .end_lease id | .execute_end id _ _ | .mark_finished id => some id
  | _ => none

/-- The removal that a label is a step of. -/
def ManagerLabel.removal : ManagerLabel → Option Nat
  | .retire_service id | .collect id | .cancel_next id _ | .signal_next id | .wait_finished id
  | .wait_idle id | .time_out id | .purge id => some id
  | _ => none

def TransferManager.next (manager : TransferManager) : ManagerLabel → Option TransferManager
  | .transfer label =>
      if label.is_call then
        (manager.registry.next label).map fun registry => { manager with registry := registry }
      else none
  | .execute_begin task job_id now =>
      if (manager.tasks task).isSome then none
      else
        (manager.registry.next (.execute_begin job_id now)).map fun registry =>
          match registry.entry job_id with
          | none => { manager with registry := registry }
          | some entry =>
              let stage := if entry.job.state = .Running then TaskStage.running else .ended
              TransferManager.set_task { manager with registry := registry } task
                ⟨job_id, entry.host.id, entry.control, .running⟩ stage
  | .begin_operation id host_id =>
      some { manager with service := (manager.service.begin (.operation id) host_id).1 }
  | .end_operation id host_id =>
      (manager.service.next (.drop (.operation id) host_id)).map fun service =>
        { manager with service := service }
  | .remove_host id host_id =>
      if (manager.removals id).isSome then none
      else
        (manager.registry.next (.retire_host host_id)).map fun registry =>
          TransferManager.set_removal { manager with registry := registry } id
            ⟨host_id, .retired⟩ .retired
  | .restore_host host_id =>
      (manager.registry.next (.restore_host host_id)).map fun registry =>
        { manager with registry := registry, restoring := host_id :: manager.restoring }
  | .restore_service host_id =>
      if host_id ∈ manager.restoring then
        some { manager with
          service := manager.service.restore host_id
          restoring := manager.restoring.erase host_id }
      else none
  | label =>
      match label.task, label.removal with
      | some id, _ => (manager.tasks id).bind fun task => manager.task_next id task label
      | _, some id => (manager.removals id).bind fun removal => manager.removal_next id removal label
      | none, none => none

def manager_machine : Machine TransferManager ManagerLabel where
  init := fun manager => manager = .new
  next := TransferManager.next

end Sftp
