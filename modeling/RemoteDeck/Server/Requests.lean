import RemoteDeck.Server.Operations

/-! # Requests with an idempotency key

    `Requests` and `Admission` of `operations.rs`, and the handler `business`
    of `transport.rs` that uses them.  A record is claimed for a key, the
    operation is admitted as a task, and every request of the key waits on
    the watch channel of the record.

    A call is one run of the handler; it passed the checks that depend on
    the request alone.  Its sections under the locks are steps of their own,
    as are those of the tasks and of a shutdown.  An aborted task goes on
    until it would suspend.
-/

namespace Server

def MAX_REQUESTS : Nat := 1024
def MAX_ADMITTED : Nat := 128

/-- `Duration::from_secs(30 * 60)` in nanoseconds. -/
def RETENTION : Nat := 30 * 60 * 1000000000

/-- What the code gets from libraries. -/
structure RequestEnv (Value Digest : Type) where
  json : SerdeJson Value
  /-- `Uuid::parse_str` accepts the text. -/
  is_uuid : Text → Bool
  sha256 : List UInt8 → Digest
  /-- `serde_json::to_value` of an error. -/
  error_value : ApiError → Value
  /-- The text of a failed `serde_json::to_vec`. -/
  to_vec_error : Value → Text

/-! ### Data -/

structure Outcome (Value : Type) where
  status : Nat
  body : Value
  deriving DecidableEq, Repr

structure Request (Value : Type) where
  session : Text
  /-- The header `Idempotency-Key`. -/
  key : Option Text
  command : Text
  args : Value
  deriving DecidableEq, Repr

/-- `channel` names the watch channel of the record; `call` made it. -/
structure RequestRecord (Digest : Type) where
  key : Text
  digest : Digest
  started : Nat
  channel : Nat
  call : Nat
  deriving DecidableEq, Repr

inductive CallStage (Value : Type) where
  | arrived
  /-- Has the sender of a new record, and is about to spawn. -/
  | claimed (channel : Nat)
  | waiting (channel : Nat)
  | answered (outcome : Outcome Value) (channel : Option Nat)
  | gone
  deriving DecidableEq, Repr

structure Call (Value : Type) where
  request : Request Value
  stage : CallStage Value
  deriving DecidableEq, Repr

structure ActiveRequest where
  id : Nat
  channel : Nat
  deriving DecidableEq, Repr

/-- Identifiers are counted up from one; 64 bits do not run out. -/
structure AdmissionState where
  closed : Bool
  next : Nat
  tasks : List ActiveRequest
  deriving DecidableEq, Repr

inductive WorkStage (Value : Type) where
  | spawned
  | polled
  | suspended
  /-- Has the outcome, and is about to send it. -/
  | completed (outcome : Outcome Value)
  /-- Has sent it, and is about to leave the table. -/
  | sent
  | ended
  | cancelled
  deriving DecidableEq, Repr

structure Work (Value : Type) where
  call : Nat
  key : Text
  channel : Nat
  stage : WorkStage Value
  aborted : Bool
  deriving DecidableEq, Repr

/-- An operation that began to execute. -/
structure Run where
  call : Nat
  key : Text
  channel : Nat
  deriving DecidableEq, Repr

structure Requests (Value Digest : Type) where
  clock : Nat
  stopping : Bool
  records : List (RequestRecord Digest)
  next_channel : Nat
  channels : Nat → Option (Outcome Value)
  admission : AdmissionState
  works : Nat → Option (Work Value)
  calls : Nat → Option (Call Value)
  runs : List Run

variable {Value Digest : Type} (env : RequestEnv Value Digest)

def Requests.default : Requests Value Digest where
  clock := 0
  stopping := false
  records := []
  next_channel := 0
  channels := fun _ => none
  admission := { closed := false, next := 0, tasks := [] }
  works := fun _ => none
  calls := fun _ => none
  runs := []

def ApiError.outcome (error : ApiError) : Outcome Value where
  status := error.status
  body := env.error_value error

def invalid_request (message : Text) : ApiError where
  status := 400
  code := "invalid_request".toList
  message := message

/-! ### Claiming -/

/-- A record is kept while it is young or has no outcome. -/
def Requests.kept (requests : Requests Value Digest) (record : RequestRecord Digest) : Bool :=
  requests.clock - record.started < RETENTION || (requests.channels record.channel).isNone

def Requests.retain (requests : Requests Value Digest) : List (RequestRecord Digest) :=
  requests.records.filter requests.kept

def record_key (session key : Text) : Text := session ++ ':' :: key

def request_digest (command : Text) (bytes : List UInt8) : Digest :=
  env.sha256 (command.flatMap String.utf8EncodeChar ++ 0 :: bytes)

inductive Claim where
  | Existing (channel : Nat)
  | New (channel : Nat)

def idempotency_conflict : ApiError :=
  api_error 409 "idempotency_conflict"
    "This request identifier was already used with different arguments."

def request_limit : ApiError :=
  api_error 429 "request_limit" "The request history is full; retry after older entries expire."

/-- The section of `claim` under the lock. -/
def Requests.claim_key [DecidableEq Digest] (requests : Requests Value Digest) (call : Nat)
    (key : Text) (digest : Digest) : Requests Value Digest × Except ApiError Claim :=
  let requests := { requests with records := requests.retain }
  match requests.records.find? fun record => record.key = key with
  | some record =>
      if record.digest ≠ digest then (requests, .error idempotency_conflict)
      else (requests, .ok (.Existing record.channel))
  | none =>
      if MAX_REQUESTS ≤ requests.records.length then (requests, .error request_limit)
      else
        let channel := requests.next_channel
        ({ requests with
            next_channel := channel + 1
            records := requests.records ++
              [{ key := key, digest := digest, started := requests.clock, channel := channel,
                 call := call }] },
          .ok (.New channel))

def Requests.claim [DecidableEq Digest] (requests : Requests Value Digest) (call : Nat)
    (session key command : Text) (args : Value) :
    Requests Value Digest × Except ApiError Claim :=
  if !env.is_uuid key then
    (requests, .error (invalid_request "Idempotency-Key must be a UUID.".toList))
  else
    match env.json.to_vec args with
    | none => (requests, .error (invalid_request (env.to_vec_error args)))
    | some bytes =>
        requests.claim_key call (record_key session key) (request_digest env command bytes)

/-! ### Calls -/

def Requests.set_call (requests : Requests Value Digest) (id : Nat) (call : Call Value)
    (stage : CallStage Value) : Requests Value Digest :=
  { requests with calls := Function.update requests.calls id (some { call with stage := stage }) }

def stopping_error : ApiError :=
  api_error 503 "service_stopping" "RemoteDeck is stopping; new operations are closed."

def Requests.arrive (requests : Requests Value Digest) (id : Nat) (request : Request Value) :
    Option (Requests Value Digest) :=
  if (requests.calls id).isSome then none
  else if requests.stopping then
    some (requests.set_call id ⟨request, .arrived⟩ (.answered (stopping_error.outcome env) none))
  else some (requests.set_call id ⟨request, .arrived⟩ .arrived)

def Requests.claim_call [DecidableEq Digest] (requests : Requests Value Digest) (id : Nat)
    (call : Call Value) : Requests Value Digest :=
  match call.request.key with
  | none =>
      let error := invalid_request "Idempotency-Key is required for this operation.".toList
      requests.set_call id call (.answered (error.outcome env) none)
  | some key =>
      let (requests, claim) :=
        requests.claim env id call.request.session key call.request.command call.request.args
      match claim with
      | .error error => requests.set_call id call (.answered (error.outcome env) none)
      | .ok (.Existing channel) => requests.set_call id call (.waiting channel)
      | .ok (.New channel) => requests.set_call id call (.claimed channel)

/-! ### Admission -/

def Requests.send (requests : Requests Value Digest) (channel : Nat) (outcome : Outcome Value) :
    Requests Value Digest :=
  { requests with channels := Function.update requests.channels channel (some outcome) }

def admission_closed : ApiError :=
  api_error 503 "admission_closed" "The service is stopping or its operation queue is full."

/-- The key under which a call made its record. -/
def Call.record_key (call : Call Value) : Text :=
  Server.record_key call.request.session (call.request.key.getD [])

/-- `Admission::spawn`, for a call with a new record. -/
def Requests.spawn (requests : Requests Value Digest) (id : Nat) (call : Call Value)
    (channel : Nat) : Requests Value Digest :=
  if requests.admission.closed ∨ MAX_ADMITTED ≤ requests.admission.tasks.length then
    let outcome := admission_closed.outcome env
    (requests.send channel outcome).set_call id call (.answered outcome (some channel))
  else
    let next := requests.admission.next + 1
    let admission := { requests.admission with
      next := next
      tasks := requests.admission.tasks ++ [{ id := next, channel := channel }] }
    let work := { call := id, key := call.record_key, channel := channel, stage := .spawned, aborted := false }
    Requests.set_call
      { requests with
        admission := admission
        works := Function.update requests.works next (some work) }
      id call (.waiting channel)

def Requests.set_work (requests : Requests Value Digest) (id : Nat) (work : Work Value)
    (stage : WorkStage Value) : Requests Value Digest :=
  { requests with works := Function.update requests.works id (some { work with stage := stage }) }

/-- The first poll begins to execute the operation. -/
def Requests.poll (requests : Requests Value Digest) (id : Nat) (work : Work Value) :
    Option (Requests Value Digest) :=
  match work.stage, work.aborted with
  | .spawned, false =>
      let run := { call := work.call, key := work.key, channel := work.channel }
      some (Requests.set_work { requests with runs := requests.runs ++ [run] } id work .polled)
  | .suspended, false => some (requests.set_work id work .polled)
  | _, _ => none

def cancelled_outcome : Outcome Value :=
  (api_error 503 "service_stopping"
    "Service shutdown interrupted the request; verify its result before retrying.").outcome env

/-- Its section under the lock: the table is emptied, and each of its tasks
    gets an outcome and is aborted. -/
def Requests.cancel_all (requests : Requests Value Digest) : Requests Value Digest :=
  { requests with
    admission := { requests.admission with closed := true, tasks := [] }
    channels := fun channel =>
      if requests.admission.tasks.any fun task => task.channel = channel then
        some (cancelled_outcome env)
      else requests.channels channel
    works := fun id => (requests.works id).map fun work =>
      if requests.admission.tasks.any fun task => task.id = id then { work with aborted := true }
      else work }

/-! ### The machine -/

inductive RequestLabel (Value : Type) where
  | arrive (call : Nat) (request : Request Value)
  | claim (call : Nat)
  | spawn (call : Nat)
  | observe (call : Nat)
  | disconnect (call : Nat)
  | poll (id : Nat)
  | suspend (id : Nat)
  | complete (id : Nat) (outcome : Outcome Value)
  | send (id : Nat)
  | remove (id : Nat)
  | drop (id : Nat)
  | close
  | stop
  | cancel_and_wait
  | elapse (duration : Nat)

def Requests.next [DecidableEq Digest] (requests : Requests Value Digest) :
    RequestLabel Value → Option (Requests Value Digest)
  | .arrive id request => requests.arrive env id request
  | .claim id => do
      let call ← requests.calls id
      match call.stage with
      | .arrived => some (requests.claim_call env id call)
      | _ => none
  | .spawn id => do
      let call ← requests.calls id
      match call.stage with
      | .claimed channel => some (requests.spawn env id call channel)
      | _ => none
  | .observe id => do
      let call ← requests.calls id
      match call.stage with
      | .waiting channel => do
          let outcome ← requests.channels channel
          some (requests.set_call id call (.answered outcome (some channel)))
      | _ => none
  | .disconnect id => do
      let call ← requests.calls id
      match call.stage with
      | .waiting _ => some (requests.set_call id call .gone)
      | _ => none
  | .poll id => do
      let work ← requests.works id
      requests.poll id work
  | .suspend id => do
      let work ← requests.works id
      match work.stage with
      | .polled => some (requests.set_work id work (if work.aborted then .cancelled else .suspended))
      | _ => none
  | .complete id outcome => do
      let work ← requests.works id
      match work.stage with
      | .polled => some (requests.set_work id work (.completed outcome))
      | _ => none
  | .send id => do
      let work ← requests.works id
      match work.stage with
      | .completed outcome => some ((requests.send work.channel outcome).set_work id work .sent)
      | _ => none
  | .remove id => do
      let work ← requests.works id
      match work.stage with
      | .sent =>
          let tasks := requests.admission.tasks.filter fun task => task.id ≠ id
          let admission := { requests.admission with tasks := tasks }
          some (Requests.set_work { requests with admission := admission } id work .ended)
      | _ => none
  | .drop id => do
      let work ← requests.works id
      match work.stage, work.aborted with
      | .spawned, true | .suspended, true => some (requests.set_work id work .cancelled)
      | _, _ => none
  | .close => some { requests with admission := { requests.admission with closed := true } }
  | .stop => some { requests with stopping := true }
  | .cancel_and_wait => some (requests.cancel_all env)
  | .elapse duration => some { requests with clock := requests.clock + duration }

def request_machine [DecidableEq Digest] :
    Machine (Requests Value Digest) (RequestLabel Value) where
  init := fun requests => requests = .default
  next := Requests.next env

end Server
