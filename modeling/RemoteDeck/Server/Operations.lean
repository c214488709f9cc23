import Mathlib.Logic.Function.Basic
import RemoteDeck.Lib.Machine
import RemoteDeck.Model

/-! # Long-running operations

    `Operations` of `operations.rs`.  An accepted operation has a record, and
    a task that writes the record twice: when it begins to run, and when
    the command has returned.  A shutdown marks the records that are not
    finished from outside, and aborts their tasks.

    The awaits of a task are at the permit and in the dispatched command.
    An abort takes effect where a task would suspend, or where it is
    suspended; a task that is being polled goes on until then.

    JSON values are those of a library: `SerdeJson` has the functions that
    the code calls.  What a command returns is part of the label.
-/

namespace Server

/-! ### Values and errors -/

/-- The functions of `serde_json` that the server calls. -/
structure SerdeJson (Value : Type) where
  get : Value → Text → Option Value
  as_str : Value → Option Text
  /-- `none` if the value cannot be written. -/
  to_vec : Value → Option (List UInt8)

structure ApiError where
  status : Nat
  code : Text
  message : Text
  deriving DecidableEq, Repr

def api_error (status : Nat) (code message : String) : ApiError where
  status := status
  code := code.toList
  message := message.toList

def USIZE_MAX : Nat := 18446744073709551615

/-! ### Records -/

inductive OperationState where
  | queued | running | completed | failed
  deriving DecidableEq, Repr

structure OperationSummary where
  id : Text
  command : Text
  host_id : Option Text
  state : OperationState
  created_at : Timestamp
  completed_at : Option Timestamp
  error : Option ApiError
  deriving DecidableEq, Repr

structure Record (Value : Type) where
  summary : OperationSummary
  result : Option Value
  result_bytes : Nat
  /-- The operation whose task the handle is of. -/
  task : Option Text
  deriving DecidableEq, Repr

/-- Where the task of an operation is. -/
inductive Stage (Value : Type) where
  /-- Not polled yet, or suspended until there is a permit. -/
  | queued
  /-- Has a permit, and is about to write that it runs. -/
  | started
  /-- Polled, in the dispatched command. -/
  | dispatching
  /-- Suspended in the dispatched command. -/
  | waiting
  /-- About to write what the command returned. -/
  | returned (result : Except ApiError (Value × Nat))
  | ended
  | cancelled

structure Task (Value : Type) where
  stage : Stage Value
  aborted : Bool

/-- The records, the permits left, and the tasks of all operations. -/
structure Operations (Value : Type) where
  records : List (Record Value)
  permits : Nat
  tasks : Text → Option (Task Value)

variable {Value : Type}

def Operations.new : Operations Value where
  records := []
  permits := 8
  tasks := fun _ => none

def find_record (records : List (Record Value)) (id : Text) : Option (Record Value) :=
  records.find? fun record => record.summary.id = id

def Operations.record (ops : Operations Value) (id : Text) : Option (Record Value) :=
  find_record ops.records id

def Record.finished (record : Record Value) : Bool := record.summary.completed_at.isSome

/-! ### Starting -/

def result_bytes (records : List (Record Value)) : Nat :=
  records.foldl (fun bytes record => bytes + record.result_bytes) 0

/-- A record that was completed first; which one of several is the choice
    of the order in which a hash map is visited. -/
def is_oldest (records : List (Record Value)) (id : Text) : Bool :=
  (find_record records id).any fun oldest =>
    oldest.finished && records.all fun record =>
      !record.finished || oldest.summary.completed_at.getD 0 ≤ record.summary.completed_at.getD 0

/-- The loop that makes room, with the records that it removes. -/
def make_room : List Text → List (Record Value) → Option (List (Record Value))
  | removed, records =>
      if (256 ≤ records.length ∨ 32 * 1024 * 1024 < result_bytes records) ∧
          records.any Record.finished then
        match removed with
        | [] => none
        | oldest :: removed =>
            if is_oldest records oldest then
              make_room removed (records.filter fun record => record.summary.id ≠ oldest)
            else none
      else if removed.isEmpty then some records
      else none

def host_id_of (json : SerdeJson Value) (args : Value) : Option Text :=
  ((json.get args "hostId".toList).or
    ((json.get args "request".toList).bind fun request => json.get request "hostId".toList)).bind
      json.as_str

def queued_record (json : SerdeJson Value) (id command : Text) (args : Value) (now : Timestamp) :
    Record Value where
  summary := {
    id := id
    command := command
    host_id := host_id_of json args
    state := .queued
    created_at := now
    completed_at := none
    error := none }
  result := none
  result_bytes := 0
  task := some id

/-- A new operation has a random identifier.  A refused one leaves no trace. -/
def Operations.start (json : SerdeJson Value) (ops : Operations Value) (id command : Text)
    (args : Value) (now : Timestamp) (removed : List Text) : Option (Operations Value) :=
  if (ops.tasks id).isSome then none
  else if 32 ≤ ops.records.countP fun record => !record.finished then some ops
  else do
    let records ← make_room removed ops.records
    some { ops with
      records := records ++ [queued_record json id command args now]
      tasks := Function.update ops.tasks id (some { stage := .queued, aborted := false }) }

/-! ### The task -/

def Operations.set_stage (ops : Operations Value) (id : Text) (task : Task Value)
    (stage : Stage Value) : Operations Value :=
  { ops with tasks := Function.update ops.tasks id (some { task with stage := stage }) }

def Operations.release (ops : Operations Value) : Operations Value :=
  { ops with permits := ops.permits + 1 }

/-- Change the record of an operation, if it is still there. -/
def Operations.update (ops : Operations Value) (id : Text) (change : Record Value → Record Value) :
    Operations Value :=
  { ops with records := ops.records.map fun record =>
      if record.summary.id = id then change record else record }

def Record.run (record : Record Value) : Record Value :=
  { record with summary := { record.summary with state := .running } }

/-- What the dispatched command comes to. -/
inductive Dispatch (Value : Type) where
  | returned (value : Value)
  | failed (error : ApiError)
  | panicked

def operation_interrupted : ApiError :=
  api_error 500 "operation_interrupted"
    "The operation failed unexpectedly; verify its effects before retrying."

def result_limit : ApiError :=
  api_error 507 "result_limit"
    "Operation completed, but its response exceeded the 2 MiB in-memory result limit. Narrow the requested listing."

/-- The result of a command, with its size. -/
def Dispatch.result (json : SerdeJson Value) : Dispatch Value → Except ApiError (Value × Nat)
  | .panicked => .error operation_interrupted
  | .failed error => .error error
  | .returned value =>
      let size := ((json.to_vec value).map List.length).getD USIZE_MAX
      if 2 * 1024 * 1024 < size then .error result_limit else .ok (value, size)

def Record.finish (record : Record Value) (now : Timestamp)
    (result : Except ApiError (Value × Nat)) : Record Value :=
  match result with
  | .ok (value, size) =>
      { record with
        summary := { record.summary with completed_at := some now, state := .completed }
        task := none
        result := some value
        result_bytes := size }
  | .error error =>
      { record with
        summary := { record.summary with
          completed_at := some now
          state := .failed
          error := some error }
        task := none }

/-! ### Shutdown -/

def service_stopping : ApiError :=
  api_error 503 "service_stopping"
    "Service shutdown interrupted this operation; verify its result before retrying."

def Record.abort (record : Record Value) (now : Timestamp) : Record Value :=
  { record with
    summary := { record.summary with
      state := .failed
      completed_at := some now
      error := some service_stopping }
    task := none }

/-- The task of an unfinished record is aborted through its handle. -/
def Operations.aborts (ops : Operations Value) (id : Text) : Bool :=
  ops.records.any fun record => !record.finished && decide (record.task = some id)

/-- Its section under the lock; `now` is read for each record. -/
def Operations.abort_pending (ops : Operations Value) (now : Text → Timestamp) : Operations Value :=
  { ops with
    records := ops.records.map fun record =>
      if record.finished then record else record.abort (now record.summary.id)
    tasks := fun id => (ops.tasks id).map fun task =>
      if ops.aborts id then { task with aborted := true } else task }

/-! ### The machine -/

inductive Label (Value : Type) where
  | start (id command : Text) (args : Value) (now : Timestamp) (removed : List Text)
  | acquire (id : Text)
  | run (id : Text)
  | suspend (id : Text)
  | resume (id : Text)
  | dispatched (id : Text) (outcome : Dispatch Value)
  | finish (id : Text) (now : Timestamp)
  | abort_pending (now : Text → Timestamp)
  | cancel (id : Text)

def Operations.next (json : SerdeJson Value) (ops : Operations Value) :
    Label Value → Option (Operations Value)
  | .start id command args now removed => ops.start json id command args now removed
  | .acquire id =>
      match ops.tasks id with
      | some ⟨.queued, false⟩ =>
          if 0 < ops.permits then
            some ({ ops with permits := ops.permits - 1 }.set_stage id ⟨.queued, false⟩ .started)
          else none
      | _ => none
  | .run id =>
      match ops.tasks id with
      | some ⟨.started, aborted⟩ =>
          some ((ops.update id Record.run).set_stage id ⟨.started, aborted⟩ .dispatching)
      | _ => none
  | .suspend id =>
      match ops.tasks id with
      | some ⟨.dispatching, false⟩ => some (ops.set_stage id ⟨.dispatching, false⟩ .waiting)
      | some ⟨.dispatching, true⟩ =>
          some (ops.release.set_stage id ⟨.dispatching, true⟩ .cancelled)
      | _ => none
  | .resume id =>
      match ops.tasks id with
      | some ⟨.waiting, false⟩ => some (ops.set_stage id ⟨.waiting, false⟩ .dispatching)
      | _ => none
  | .dispatched id outcome =>
      match ops.tasks id with
      | some ⟨.dispatching, aborted⟩ =>
          some (ops.set_stage id ⟨.dispatching, aborted⟩ (.returned (outcome.result json)))
      | _ => none
  | .finish id now =>
      match ops.tasks id with
      | some ⟨.returned result, aborted⟩ =>
          some ((ops.update id fun record => record.finish now result).release.set_stage id
            ⟨.returned result, aborted⟩ .ended)
      | _ => none
  | .abort_pending now => some (ops.abort_pending now)
  | .cancel id =>
      match ops.tasks id with
      | some ⟨.queued, true⟩ => some (ops.set_stage id ⟨.queued, true⟩ .cancelled)
      | some ⟨.waiting, true⟩ => some (ops.release.set_stage id ⟨.waiting, true⟩ .cancelled)
      | _ => none

def operations (json : SerdeJson Value) : Machine (Operations Value) (Label Value) where
  init := fun ops => ops = .new
  next := Operations.next json

end Server
