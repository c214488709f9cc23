import Mathlib.Logic.Function.Basic
import RemoteDeck.Tunnel.Entry

/-! # Tunnel workers

    `run_worker` of `tunnel.rs` as a program counter.  Every locked section
    and every operation on a process is one step; what the operating system
    answers is carried by the events.  A termination that succeeds has seen
    its child exit.  A handle that is dropped kills its child, which may take
    a while or fail.
-/

namespace Tunnel

/-- A child process, with the generation of the worker that spawned it. -/
structure Process where
  alive : Bool
  generation : Nat
  deriving DecidableEq, Repr

/-- The variables of a connection attempt. -/
structure Attempt where
  started : Timestamp
  announced_running : Bool
  consecutive_health_failures : Nat
  next_health_check : Timestamp
  next_uptime_event : Timestamp
  deriving DecidableEq, Repr

inductive WorkerStage where
  | starting
  /-- Between `mark_starting` and the lock on the lifecycle. -/
  | resolving
  | locking
  /-- It holds the lifecycle lock, up to `discarding`. -/
  | checking
  | spawning
  | publishing (child : Nat)
  | discarding (child : Nat)
  | polling (attempt : Attempt)
  | announcing (attempt : Attempt)
  | probing (attempt : Attempt)
  /-- In `terminate_generation_child`, up to `restoring`. -/
  | taking (attempt : Attempt) (message : Text)
  | terminating (attempt : Attempt) (message : Text) (child : Nat)
  | restoring (attempt : Attempt) (message : Text) (child : Nat) (error : Text)
  | reporting (attempt : Attempt)
  | describing (attempt : Attempt) (success : Bool) (status : Text)
  | finishing (attempt : Option Attempt) (message : Text) (clean : Bool)
  | waiting (deadline : Timestamp)
  /-- It has returned or panicked, and its guard is still to be dropped. -/
  | leaving
  deriving DecidableEq, Repr

structure Worker where
  generation : Nat
  tunnel : TunnelProfile
  failure_streak : Nat
  stage : WorkerStage
  deriving DecidableEq, Repr

/-- Who holds the lifecycle lock of an entry. -/
inductive Holder where
  | operation
  | worker (generation : Nat)
  deriving DecidableEq, Repr

structure TunnelEntry where
  inner : TunnelInner
  lifecycle : Option Holder
  workers : List Worker
  /-- The generations whose children are read by a `tunnel-stderr` thread. -/
  readers : List Nat
  processes : Nat → Option Process
  /-- The number of children spawned so far. -/
  spawned : Nat
  /-- The children whose handle has been dropped. -/
  dropped : List Nat

def TunnelEntry.new (profile : TunnelProfile) : TunnelEntry where
  inner := .new profile
  lifecycle := none
  workers := []
  readers := []
  processes := fun _ => none
  spawned := 0
  dropped := []

def TunnelEntry.alive (entry : TunnelEntry) (child : Nat) : Bool :=
  (entry.processes child).any Process.alive

/-- The stages in which a worker holds the lifecycle lock. -/
def WorkerStage.locked : WorkerStage → Bool
  | .checking | .spawning | .publishing _ | .discarding _ => true
  | _ => false

/-- The child whose handle a worker has in its hands. -/
def WorkerStage.held : WorkerStage → Option Nat
  | .publishing child | .discarding child => some child
  | .terminating _ _ child | .restoring _ _ child _ => some child
  | _ => none

/-- The worker goes on in a stage. -/
def TunnelEntry.advance (entry : TunnelEntry) (worker : Worker) (stage : WorkerStage) :
    TunnelEntry :=
  { entry with workers := entry.workers.erase worker ++ [{ worker with stage := stage }] }

def TunnelEntry.with_inner (entry : TunnelEntry) (inner : TunnelInner) : TunnelEntry :=
  { entry with inner := inner }

def TunnelEntry.unlock (entry : TunnelEntry) : TunnelEntry :=
  { entry with lifecycle := none }

def TunnelEntry.drop_child (entry : TunnelEntry) (child : Option Nat) : TunnelEntry :=
  { entry with dropped := entry.dropped ++ child.toList }

/-- What happens to a worker, or what its environment answers. -/
inductive Event where
  | go
  /-- The host profile and the command are there. -/
  | resolved
  | unresolved_host (error : AppError)
  | unresolved_command (error : AppError)
  | spawned (result : AppResult Unit)
  | polled (answer : TryWait)
  | probed (result : Except Text Unit)
  | terminated (result : Except Text Unit)
  | panicked
  deriving DecidableEq

/-- An event that reports whether a process has exited is true. -/
def Event.truthful (entry : TunnelEntry) (child : Nat) : Event → Bool
  | .polled .running => entry.alive child
  | .polled (.exited _ _) => !entry.alive child
  | .terminated (.ok ()) => !entry.alive child
  | _ => true

/-- Spawn a child for a worker. -/
def spawn (entry : TunnelEntry) (worker : Worker) : TunnelEntry :=
  let process : Process := { alive := true, generation := worker.generation }
  { entry with
    processes := Function.update entry.processes entry.spawned (some process)
    spawned := entry.spawned + 1 }

/-- Store the child in the entry, where it replaces the one that was there,
    and start to read its errors. -/
def publish (entry : TunnelEntry) (generation child : Nat) : TunnelEntry :=
  { entry with
    inner := { entry.inner with last_process_error := none, child := some child }
    lifecycle := none
    readers := entry.readers ++ [generation]
    dropped := entry.dropped ++ entry.inner.child.toList }

def Attempt.start (tunnel : TunnelProfile) (now : Timestamp) : Attempt where
  started := now
  announced_running := false
  consecutive_health_failures := 0
  next_health_check := now + health_interval tunnel
  next_uptime_event := now + UPTIME_EVENT_INTERVAL

/-- The health check of an attempt is due. -/
def Attempt.probes (attempt : Attempt) (tunnel : TunnelProfile) (now : Timestamp) : Bool :=
  attempt.announced_running && health_check_enabled tunnel && now ≥ attempt.next_health_check

/-- The outcome of a health check. -/
def check_health (entry : TunnelEntry) (worker : Worker) (attempt : Attempt)
    (result : Except Text Unit) (now : Timestamp) : TunnelEntry :=
  let next_health_check := now + health_interval worker.tunnel
  match result with
  | .ok () =>
      match set_health entry.inner worker.generation .Healthy none now with
      | none => entry.advance worker .leaving
      | some inner =>
          (entry.with_inner inner).advance worker (.reporting
            { attempt with consecutive_health_failures := 0, next_health_check := next_health_check })
  | .error error =>
      let failures := min (attempt.consecutive_health_failures + 1) 255
      let failed := failures ≥ MAX_HEALTH_FAILURES
      let message := "TCP health check failed (".toList ++ failures.text ++ "/".toList ++
        MAX_HEALTH_FAILURES.text ++ "): ".toList ++ error
      let health : TunnelHealthState := if failed then .Failed else .Degraded
      let checked : Attempt :=
        { attempt with
          consecutive_health_failures := failures
          next_health_check := next_health_check }
      match set_health entry.inner worker.generation health (some message) now with
      | none => entry.advance worker .leaving
      | some inner =>
          (entry.with_inner inner).advance worker
            (if failed then .taking checked message else .reporting checked)

/-- The end of an attempt. -/
def end_attempt (entry : TunnelEntry) (worker : Worker) (attempt : Option Attempt) (message : Text)
    (clean : Bool) (now : Timestamp) : TunnelEntry :=
  let stable := attempt.any fun attempt => now - attempt.started ≥ STABLE_CONNECTION
  let streak := if stable then 0 else worker.failure_streak
  match finish_attempt entry.inner worker.generation worker.tunnel message clean streak now with
  | none => entry.advance worker .leaving
  | some (inner, none, _) => (entry.with_inner inner).advance worker .leaving
  | some (inner, some delay, failure_streak) =>
      { entry with
        inner := inner
        workers := entry.workers.erase worker ++
          [{ worker with failure_streak := failure_streak, stage := .waiting (now + 1000 * delay) }] }

/-- The worker is gone. -/
def leave (entry : TunnelEntry) (worker : Worker) (now : Timestamp) : TunnelEntry :=
  let (inner, child) := drop_guard entry.inner worker.generation now
  { (entry.with_inner inner).drop_child child with workers := entry.workers.erase worker }

/-- A panic releases the lifecycle lock and drops the handle that the worker has. -/
def panic (entry : TunnelEntry) (worker : Worker) : TunnelEntry :=
  let unlocked := if worker.stage.locked then entry.unlock else entry
  (unlocked.drop_child worker.stage.held).advance worker .leaving

/-- `mark_running`, once the startup grace has passed. -/
def announce (entry : TunnelEntry) (worker : Worker) (attempt : Attempt) (now : Timestamp) :
    TunnelEntry :=
  if attempt.announced_running ∨ now - attempt.started < STARTUP_GRACE then
    entry.advance worker (.probing attempt)
  else
    match mark_running entry.inner worker.generation attempt.started worker.tunnel now with
    | none => entry.advance worker .leaving
    | some inner =>
        (entry.with_inner inner).advance worker (.probing { attempt with announced_running := true })

/-- The first locked section of `terminate_generation_child`. -/
def take_generation_child (entry : TunnelEntry) (worker : Worker) (attempt : Attempt)
    (message : Text) : TunnelEntry :=
  match if entry.inner.generation = worker.generation then entry.inner.child else none with
  | none => entry.advance worker (.finishing (some attempt) message false)
  | some child =>
      (entry.with_inner { entry.inner with child := none }).advance worker
        (.terminating attempt message child)

/-- The second one, after a failed termination. -/
def restore_child (entry : TunnelEntry) (worker : Worker) (attempt : Attempt) (message : Text)
    (child : Nat) (error : Text) : TunnelEntry :=
  let failed := message ++ "; failed to terminate unhealthy OpenSSH child: ".toList ++ error
  let restored :=
    if entry.inner.generation = worker.generation ∧ entry.inner.child = none then
      entry.with_inner { entry.inner with child := some child }
    else entry.drop_child (some child)
  restored.advance worker (.finishing (some attempt) failed false)

/-- The polling of the child. -/
def poll (entry : TunnelEntry) (worker : Worker) (attempt : Attempt) (answer : TryWait) :
    TunnelEntry :=
  let (inner, result, dropped) := poll_child entry.inner worker.generation answer
  let polled := (entry.with_inner inner).drop_child dropped
  match result with
  | .Cancelled => polled.advance worker .leaving
  | .Exited success status => polled.advance worker (.describing attempt success status)
  | .Failed error =>
      polled.advance worker
        (.finishing (some attempt) ("failed to poll OpenSSH tunnel: ".toList ++ error) false)
  | .Running => polled.advance worker (.announcing attempt)

/-- `emit_current` when it is due, and the sleep before the next round. -/
def report (entry : TunnelEntry) (worker : Worker) (attempt : Attempt) (now : Timestamp) :
    TunnelEntry :=
  if attempt.announced_running ∧ now ≥ attempt.next_uptime_event then
    if is_current_locked entry.inner worker.generation then
      entry.advance worker (.polling { attempt with next_uptime_event := now + UPTIME_EVENT_INTERVAL })
    else entry.advance worker .leaving
  else entry.advance worker (.polling attempt)

/-- A step of a worker. -/
def TunnelEntry.work (entry : TunnelEntry) (worker : Worker) (event : Event) (now : Timestamp) :
    Option TunnelEntry :=
  match worker.stage, event with
  | .leaving, .go => some (leave entry worker now)
  | .leaving, _ => none
  | _, .panicked => some (panic entry worker)
  | .starting, .go =>
      match mark_starting entry.inner worker.generation now with
      | none => some (entry.advance worker .leaving)
      | some inner => some ((entry.with_inner inner).advance worker .resolving)
  | .resolving, .resolved => some (entry.advance worker .locking)
  | .resolving, .unresolved_host error =>
      some (entry.advance worker (.finishing none
        ("could not resolve the current host profile: ".toList ++ error.to_string) false))
  | .resolving, .unresolved_command error =>
      some (entry.advance worker (.finishing none
        ("could not build OpenSSH tunnel command: ".toList ++ error.to_string) false))
  | .locking, .go =>
      if entry.lifecycle = none then
        let locked : TunnelEntry := { entry with lifecycle := some (.worker worker.generation) }
        some (locked.advance worker .checking)
      else none
  | .checking, .go =>
      if is_current_locked entry.inner worker.generation then some (entry.advance worker .spawning)
      else some (entry.unlock.advance worker .leaving)
  | .spawning, .spawned (.ok ()) =>
      some ((spawn entry worker).advance worker (.publishing entry.spawned))
  | .spawning, .spawned (.error error) =>
      some (entry.unlock.advance worker (.finishing none
        ("failed to spawn OpenSSH tunnel: ".toList ++ error.to_string) false))
  | .publishing child, .go =>
      if is_current_locked entry.inner worker.generation then
        some ((publish entry worker.generation child).advance worker
          (.polling (.start worker.tunnel now)))
      else some (entry.advance worker (.discarding child))
  | .discarding child, .terminated _ =>
      if event.truthful entry child then
        some ((entry.unlock.drop_child (some child)).advance worker .leaving)
      else none
  | .polling attempt, .polled answer =>
      if entry.inner.child.all fun child => event.truthful entry child then
        some (poll entry worker attempt answer)
      else none
  | .announcing attempt, .go => some (announce entry worker attempt now)
  | .probing attempt, .probed result =>
      if attempt.probes worker.tunnel now then some (check_health entry worker attempt result now)
      else none
  | .probing attempt, .go =>
      if attempt.probes worker.tunnel now then none else some (entry.advance worker (.reporting attempt))
  | .taking attempt message, .go => some (take_generation_child entry worker attempt message)
  | .terminating attempt message child, .terminated result =>
      if event.truthful entry child then
        match result with
        | .ok () =>
            some ((entry.drop_child (some child)).advance worker
              (.finishing (some attempt) message false))
        | .error error => some (entry.advance worker (.restoring attempt message child error))
      else none
  | .restoring attempt message child error, .go =>
      some (restore_child entry worker attempt message child error)
  | .reporting attempt, .go => some (report entry worker attempt now)
  | .describing attempt success status, .go =>
      some (entry.advance worker (.finishing (some attempt)
        (process_exit_message entry.inner worker.generation status) success))
  | .finishing attempt message clean, .go => some (end_attempt entry worker attempt message clean now)
  | .waiting deadline, .go =>
      if is_current_locked entry.inner worker.generation then
        if now < deadline then none else some (entry.advance worker .starting)
      else some (entry.advance worker .leaving)
  | _, _ => none

end Tunnel
