import Mathlib.Data.List.AList
import RemoteDeck.Lib.Machine
import RemoteDeck.Tunnel.Worker

/-! # The tunnel registry

    `TunnelRegistry` of `tunnel.rs`: the entries, and the operation that
    holds the lock on operations.  An entry is named by a number, since a
    worker may still refer to an entry that has been removed.  `stop_all`
    stops its tunnels side by side; the other operations run one task.
-/

namespace Tunnel

/-! ### Operations -/

/-- A call of `stop_inner`. -/
inductive StopStage where
  | looking
  | locking (entry : Nat)
  /-- It holds the lifecycle lock of the entry, up to `settling`. -/
  | taking (entry : Nat)
  | terminating (entry generation : Nat) (child : Nat) (already_stopped : Bool)
  | settling (entry generation : Nat) (child : Option Nat) (already_stopped : Bool)
      (termination : Except Text Unit)
  | returned (termination : Except Text Unit)
  deriving DecidableEq

structure StopTask where
  tunnel_id : Text
  retire : Bool
  stage : StopStage
  deriving DecidableEq

/-- What an operation does when its tunnels are stopped. -/
inductive After where
  | nothing
  | remove
  | restart (host : HostProfile) (tunnel : TunnelProfile)
  /-- `stop_for_host`, with the tunnels that it stops next. -/
  | remove_next (rest : List Text)
  deriving DecidableEq

inductive StartStage where
  | looking
  | locking (entry : Nat)
  /-- It holds the lifecycle lock of the entry from here on. -/
  | checking (entry : Nat)
  | bumping (entry : Nat)
  | terminating (entry : Nat) (child : Nat)
  | requesting (entry : Nat)
  | spawning (entry generation : Nat)
  deriving DecidableEq

inductive Operation where
  | start (host : HostProfile) (tunnel : TunnelProfile) (stage : StartStage)
  | stop (tasks : List StopTask) (after : After)
  deriving DecidableEq

abbrev Entries := AList fun _ : Text => Nat

structure TunnelRegistry where
  entries : Entries
  heap : Nat → Option TunnelEntry
  /-- The number of entries made so far. -/
  made : Nat
  operation : Option Operation

def TunnelRegistry.default : TunnelRegistry where
  entries := ∅
  heap := fun _ => none
  made := 0
  operation := none

def TunnelRegistry.set_entry (registry : TunnelRegistry) (name : Nat) (entry : TunnelEntry) :
    TunnelRegistry :=
  { registry with heap := Function.update registry.heap name (some entry) }

def TunnelRegistry.set_operation (registry : TunnelRegistry) (operation : Option Operation) :
    TunnelRegistry :=
  { registry with operation := operation }

def TunnelRegistry.inner (registry : TunnelRegistry) (name : Nat) : Option TunnelInner :=
  (registry.heap name).map TunnelEntry.inner

def stop_task (retire : Bool) (tunnel_id : Text) : StopTask where
  tunnel_id := tunnel_id
  retire := retire
  stage := .looking

/-! ### Starting -/

/-- Forget the retired entries. -/
def retain (registry : TunnelRegistry) : TunnelRegistry :=
  let gone := registry.entries.entries.filter fun item =>
    (registry.inner item.2).any TunnelInner.retired
  { registry with entries := gone.foldl (fun entries item => entries.erase item.1) registry.entries }

/-- The tunnels other than one that are active. -/
def other_active (registry : TunnelRegistry) (tunnel_id : Text) : Nat :=
  (registry.entries.entries.filter fun item =>
    item.1 ≠ tunnel_id && (registry.inner item.2).any TunnelInner.active).length

/-- A new entry for a tunnel. -/
def insert_entry (registry : TunnelRegistry) (tunnel : TunnelProfile) : TunnelRegistry :=
  { registry with
    entries := registry.entries.insert tunnel.id registry.made
    heap := Function.update registry.heap registry.made (some (.new tunnel))
    made := registry.made + 1 }

/-- The section of `start_inner` that holds the lock on the entries, with the
    entry of the tunnel. -/
def find_entry (registry : TunnelRegistry) (tunnel : TunnelProfile) :
    TunnelRegistry × AppResult Nat :=
  let retained := retain registry
  let found := retained.entries.lookup tunnel.id
  if found = none ∧ retained.entries.entries.length ≥ MAX_RUNTIME_ENTRIES then
    (retained, .error (.Validation "at most 256 tunnel runtime records are retained".toList))
  else if other_active retained tunnel.id ≥ MAX_ACTIVE_TUNNELS then
    (retained, .error (.Validation "at most 64 tunnels may run at once".toList))
  else
    match found with
    | some name => (retained, .ok name)
    | none => (insert_entry retained tunnel, .ok retained.made)

/-- What is outside the registry answers to a start: the host profile as it
    is now, whether there is a command, the termination of the stale child and
    the creation of the worker's thread. -/
inductive StartEvent where
  | go
  | found (current_host : AppResult HostProfile) (command : AppResult Unit)
  | terminated (result : Except Text Unit)
  | spawned (result : Except Text Unit)
  deriving DecidableEq

/-- A start that returns, with the lock on the lifecycle of an entry. -/
def finish_start (registry : TunnelRegistry) (name : Nat) (entry : TunnelEntry) : TunnelRegistry :=
  (registry.set_entry name entry.unlock).set_operation none

/-- A step of `start`. -/
def start_step (registry : TunnelRegistry) (host : HostProfile) (tunnel : TunnelProfile)
    (stage : StartStage) (event : StartEvent) (now : Timestamp) : Option TunnelRegistry :=
  match stage, event with
  | .looking, .found current_host command =>
      match current_host with
      | .error _ => some (registry.set_operation none)
      | .ok current =>
          if tunnel.host_id ≠ current.id then some (registry.set_operation none)
          else
            match command with
            | .error _ => some (registry.set_operation none)
            | .ok () =>
                match find_entry registry tunnel with
                | (looked, .error _) => some (looked.set_operation none)
                | (looked, .ok name) =>
                    some (looked.set_operation (some (.start current tunnel (.locking name))))
  | .locking name, .go => do
      let entry ← registry.heap name
      if entry.lifecycle = none then
        let locked : TunnelEntry := { entry with lifecycle := some .operation }
        some ((registry.set_entry name locked).set_operation
          (some (.start host tunnel (.checking name))))
      else none
  | .checking name, .go => do
      let entry ← registry.heap name
      if entry.inner.retired || already_running entry.inner tunnel then
        some (finish_start registry name entry)
      else some (registry.set_operation (some (.start host tunnel (.bumping name))))
  | .bumping name, .go => do
      let entry ← registry.heap name
      match take_stale_child entry.inner with
      | (inner, none) =>
          some ((registry.set_entry name (entry.with_inner inner)).set_operation
            (some (.start host tunnel (.requesting name))))
      | (inner, some child) =>
          some ((registry.set_entry name (entry.with_inner inner)).set_operation
            (some (.start host tunnel (.terminating name child))))
  | .terminating name child, .terminated result => do
      let entry ← registry.heap name
      if (Event.terminated result).truthful entry child then
        match result with
        | .ok () =>
            some ((registry.set_entry name (entry.drop_child (some child))).set_operation
              (some (.start host tunnel (.requesting name))))
        | .error _ => some (finish_start registry name (entry.drop_child (some child)))
      else none
  | .requesting name, .go => do
      let entry ← registry.heap name
      let inner := request_start entry.inner host tunnel now
      some ((registry.set_entry name (entry.with_inner inner)).set_operation
        (some (.start host tunnel (.spawning name inner.generation))))
  | .spawning name generation, .spawned result => do
      let entry ← registry.heap name
      match result with
      | .ok () =>
          let worker : Worker :=
            { generation := generation, tunnel := tunnel, failure_streak := 0, stage := .starting }
          let spawned : TunnelEntry := { entry with workers := entry.workers ++ [worker] }
          some (finish_start registry name spawned)
      | .error error =>
          some (finish_start registry name
            (entry.with_inner (fail_start entry.inner generation error now)))
  | _, _ => none

/-! ### Stopping -/

/-- The operating system answers to a stop. -/
inductive StopEvent where
  | go
  | terminated (result : Except Text Unit)
  deriving DecidableEq

/-- A step of `stop_inner`: the registry and the next stage. -/
def stop_step (registry : TunnelRegistry) (task : StopTask) (event : StopEvent) (now : Timestamp) :
    Option (TunnelRegistry × StopStage) :=
  match task.stage, event with
  | .looking, .go =>
      match registry.entries.lookup task.tunnel_id with
      | none => some (registry, .returned (.ok ()))
      | some name => some (registry, .locking name)
  | .locking name, .go => do
      let entry ← registry.heap name
      if entry.lifecycle = none then
        let locked : TunnelEntry := { entry with lifecycle := some .operation }
        some (registry.set_entry name locked, .taking name)
      else none
  | .taking name, .go => do
      let entry ← registry.heap name
      match begin_stop entry.inner task.retire with
      | (inner, some child, already_stopped) =>
          some (registry.set_entry name (entry.with_inner inner),
            .terminating name inner.generation child already_stopped)
      | (inner, none, already_stopped) =>
          some (registry.set_entry name (entry.with_inner inner),
            .settling name inner.generation none already_stopped (.ok ()))
  | .terminating name generation child already_stopped, .terminated result => do
      let entry ← registry.heap name
      if (Event.terminated result).truthful entry child then
        some (registry, .settling name generation (some child) already_stopped result)
      else none
  | .settling name generation child already_stopped termination, .go => do
      let entry ← registry.heap name
      let inner := settle_stop entry.inner generation child already_stopped termination now
      -- the handle is dropped unless it went back into the entry
      let kept := if inner.child = child then none else child
      some (registry.set_entry name ((entry.with_inner inner).drop_child kept).unlock,
        .returned termination)
  | _, _ => none

/-- The tunnels of a host. -/
def tunnels_of_host (registry : TunnelRegistry) (host_id : Text) : List Text :=
  (registry.entries.entries.filter fun item =>
    (registry.inner item.2).any fun inner => inner.host_id = host_id).map Sigma.fst

def StopStage.result : StopStage → Option (Except Text Unit)
  | .returned termination => some termination
  | _ => none

/-- Whether a task has stopped its tunnel. -/
def StopTask.succeeded (task : StopTask) : Bool :=
  task.stage.result.any fun result => match result with
    | .ok () => true
    | .error _ => false

def TunnelRegistry.remove_entry (registry : TunnelRegistry) (tunnel_id : Text) : TunnelRegistry :=
  { registry with entries := registry.entries.erase tunnel_id }

/-- Remove the tunnels that an operation has stopped. -/
def remove_stopped (registry : TunnelRegistry) (tasks : List StopTask) : TunnelRegistry :=
  (tasks.filter StopTask.succeeded).foldl (fun registry task => registry.remove_entry task.tunnel_id)
    registry

/-- The operation after its tasks have returned. -/
def finish_stop (registry : TunnelRegistry) (tasks : List StopTask) (after : After) :
    TunnelRegistry :=
  match after with
  | .nothing => registry.set_operation none
  | .remove => (remove_stopped registry tasks).set_operation none
  | .restart host tunnel =>
      if tasks.all StopTask.succeeded then
        registry.set_operation (some (.start host tunnel .looking))
      else registry.set_operation none
  | .remove_next rest =>
      match rest with
      | [] => (remove_stopped registry tasks).set_operation none
      | tunnel_id :: rest =>
          (remove_stopped registry tasks).set_operation
            (some (.stop [stop_task true tunnel_id] (.remove_next rest)))

/-! ### The machine -/

inductive Label where
  | start (host : HostProfile) (tunnel : TunnelProfile)
  | restart (host : HostProfile) (tunnel : TunnelProfile)
  | stop (tunnel_id : Text)
  | remove (tunnel_id : Text)
  | stop_for_host (host_id : Text)
  | stop_all
  | start_step (event : StartEvent) (now : Timestamp)
  | stop_step (task : StopTask) (event : StopEvent) (now : Timestamp)
  | finish
  | work (name : Nat) (worker : Worker) (event : Event) (now : Timestamp)
  | process_line (name generation : Nat) (line : Text) (truncated : Bool) (now : Timestamp)
  | child_exits (name child : Nat)
  deriving DecidableEq

/-- An operation that takes the lock on operations. -/
def begin_operation (registry : TunnelRegistry) (operation : Operation) : Option TunnelRegistry :=
  if registry.operation = none then some (registry.set_operation (some operation)) else none

/-- The exit of a child. -/
def TunnelEntry.child_exits (entry : TunnelEntry) (child : Nat) : TunnelEntry :=
  { entry with
    processes := Function.update entry.processes child
      ((entry.processes child).map fun process => { process with alive := false }) }

def TunnelRegistry.next (registry : TunnelRegistry) : Label → Option TunnelRegistry
  | .start host tunnel => begin_operation registry (.start host tunnel .looking)
  | .restart host tunnel =>
      begin_operation registry (.stop [stop_task false tunnel.id] (.restart host tunnel))
  | .stop tunnel_id => begin_operation registry (.stop [stop_task false tunnel_id] .nothing)
  | .remove tunnel_id => begin_operation registry (.stop [stop_task true tunnel_id] .remove)
  | .stop_for_host host_id =>
      begin_operation registry (.stop [] (.remove_next (tunnels_of_host registry host_id)))
  | .stop_all =>
      begin_operation registry (.stop (registry.entries.keys.map (stop_task false)) .nothing)
  | .start_step event now =>
      match registry.operation with
      | some (.start host tunnel stage) => Tunnel.start_step registry host tunnel stage event now
      | _ => none
  | .stop_step task event now =>
      match registry.operation with
      | some (.stop tasks after) =>
          if task ∈ tasks then do
            let (stepped, stage) ← Tunnel.stop_step registry task event now
            some (stepped.set_operation
              (some (.stop (tasks.erase task ++ [{ task with stage := stage }]) after)))
          else none
      | _ => none
  | .finish =>
      match registry.operation with
      | some (.stop tasks after) =>
          if tasks.all fun task => task.stage.result.isSome then
            some (finish_stop registry tasks after)
          else none
      | _ => none
  | .work name worker event now => do
      let entry ← registry.heap name
      if worker ∈ entry.workers then
        let worked ← entry.work worker event now
        some (registry.set_entry name worked)
      else none
  | .process_line name generation line truncated now => do
      let entry ← registry.heap name
      if generation ∈ entry.readers then
        some (registry.set_entry name
          (entry.with_inner (record_process_line entry.inner generation line truncated now)))
      else none
  | .child_exits name child => do
      let entry ← registry.heap name
      some (registry.set_entry name (entry.child_exits child))

def tunnels : Machine TunnelRegistry Label where
  init := fun registry => registry = .default
  next := TunnelRegistry.next

end Tunnel
