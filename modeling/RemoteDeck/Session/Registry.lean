import Mathlib.Data.List.AList
import Mathlib.Data.List.Sort
import RemoteDeck.Lib.Machine
import RemoteDeck.Model

/-! # The terminal registry

    `TerminalRegistry` of `session.rs`: the sessions with their slots, the
    calls that start and stop them, and the threads that wait for their
    children.

    Every locked section is one step, and so is every round of the loop that
    waits for a child to exit.  A spawn is named by the value of the counter
    it drew, and so is the child it makes; its generation is that value as a
    64-bit number.  A child may exit at any time; what the operating system
    answers is carried by the labels.
-/

namespace Session

def MAX_ACTIVE_TERMINALS : Nat := 32
def MAX_RETAINED_TERMINALS : Nat := 256
def GENERATIONS : Nat := 18446744073709551616
def MAX_REVISION : Nat := 18446744073709551615
def MAX_EXIT_CODE : Nat := 2147483647

/-! ### Sessions -/

inductive TerminalState where
  | Starting
  | Running
  | Offline
  | Closed
  | Failed
  deriving DecidableEq, Repr

structure TerminalSnapshot where
  session_id : Text
  generation : Nat
  revision : Nat
  host_id : Text
  «alias» : Text
  cwd : Text
  title : Text
  state : TerminalState
  exit_code : Option Nat
  error : Option Text
  deriving DecidableEq, Repr

structure TerminalRecord where
  generation : Nat
  snapshot : TerminalSnapshot
  deriving DecidableEq, Repr

/-- A running session, with the child that its cleanup is for. -/
structure TerminalSession where
  generation : Nat
  host_id : Text
  cleanup : Nat
  deriving DecidableEq, Repr

inductive TerminalSlot where
  | Starting (generation : Nat) (host_id : Text) (close_requested : Bool) (cleanup : Option Nat)
  | Running (session : TerminalSession)
  deriving DecidableEq, Repr

def TerminalSlot.generation : TerminalSlot → Nat
  | .Starting generation _ _ _ => generation
  | .Running session => session.generation

def TerminalSlot.host_id : TerminalSlot → Text
  | .Starting _ host_id _ _ => host_id
  | .Running session => session.host_id

def TerminalSlot.cleanup : TerminalSlot → Option Nat
  | .Starting _ _ _ cleanup => cleanup
  | .Running session => some session.cleanup

/-- The generation of the spawn that drew a value of the counter. -/
def generation_of (serial : Nat) : Nat := (serial + 1) % GENERATIONS

/-! ### Children -/

/-- A child process and what its cleanup holds of it. -/
structure Child where
  alive : Bool
  /-- The handle is in the cleanup. -/
  handle : Bool
  terminated : Bool
  deriving DecidableEq, Repr

inductive TryWait where
  | Status
  | WouldBlock
  | Failed (error : Text)
  deriving DecidableEq, Repr

inductive ChildPoll where
  | Exited
  | Pending
  | ReapError (error : Text)
  deriving DecidableEq, Repr

/-- The answers in one round of `wait_for_cleanup_exit`: to `try_wait`,
    whether the deadline has passed, and to the `kill` before the first round. -/
structure Round where
  try_wait : TryWait
  late : Bool
  kill_error : Option Text
  deriving DecidableEq, Repr

def poll_child (child : Child) (answer : TryWait) : Child × ChildPoll :=
  if child.handle then
    match answer with
    | .Status =>
        if child.alive then (child, .Pending) else ({ child with handle := false }, .Exited)
    | .WouldBlock => (child, .Pending)
    | .Failed error => (child, .ReapError error)
  else (child, .Pending)

/-- One round of `wait_for_cleanup_exit`. -/
def wait_for_cleanup_exit (child : Child) (round : Round) : Child × Option (AppResult Unit) :=
  if child.terminated then (child, some (.ok ()))
  else
    match poll_child child round.try_wait with
    | (polled, .Exited) => ({ polled with terminated := true }, some (.ok ()))
    | (polled, .ReapError error) =>
        (polled, some (.error (.Process
          ("failed to reap the owned terminal child: ".toList ++ error))))
    | (polled, .Pending) =>
        (polled, if round.late then
          some (.error (.Process "timed out waiting for the owned terminal child to exit".toList))
        else none)

/-- `terminate_cleanup`: kill the child and wait until it is seen to exit. -/
def terminate_cleanup (child : Child) (round : Round) : Child × Option (AppResult Unit) :=
  match wait_for_cleanup_exit child round, round.kill_error with
  | (waited, some (.error wait_error)), some kill_error =>
      (waited, some (.error (.Process ("failed to close terminal: ".toList ++ kill_error ++
        "; ".toList ++ wait_error.to_string))))
  | result, _ => result

/-! ### The registry -/

inductive SpawnStage where
  /-- The generation is drawn and no slot is reserved yet. -/
  | drawn (reconnects : Bool)
  | reserved
  /-- The child exists and its cleanup is not registered yet. -/
  | spawned
  | registered
  | committed
  /-- In `abort_spawn`, before it looks at the generation. -/
  | aborting (remove_snapshot : Bool)
  | terminating (remove_snapshot : Bool)
  | removing (remove_snapshot : Bool)
  | returned
  deriving DecidableEq, Repr

/-- A call of `start`, `start_command` or `reconnect`.  The revision and the
    title of a session that reconnects are known when its slot is reserved. -/
structure Spawn where
  session_id : Text
  host : HostProfile
  revision : Nat
  title : Option Text
  stage : SpawnStage
  deriving DecidableEq, Repr

inductive CloseStage where
  | entering (session_id : Text)
  | terminating (session_id : Text) (generation cleanup : Nat)
  | removing (session_id : Text) (generation cleanup : Nat)
  deriving DecidableEq, Repr

/-- A call of `close`, with the sessions that `stop_for_host` closes after it. -/
structure Call where
  stage : CloseStage
  rest : List Text
  deriving DecidableEq, Repr

/-- The thread that waits for a child, once it is told to start. -/
inductive Waiter where
  | started
  | waiting
  | exited
  | failed
  deriving DecidableEq, Repr

abbrev Slots := AList fun _ : Text => TerminalSlot

abbrev Records := AList fun _ : Text => TerminalRecord

structure TerminalRegistry where
  active : Slots
  snapshots : Records
  /-- The number of values drawn from the counter. -/
  next_generation : Nat
  spawns : Nat → Option Spawn
  children : Nat → Option Child
  waiters : Nat → Option Waiter
  calls : List Call
  /-- The children that each running `stop_all` still terminates. -/
  stops : List (List Nat)

def TerminalRegistry.default : TerminalRegistry where
  active := ∅
  snapshots := ∅
  next_generation := 0
  spawns := fun _ => none
  children := fun _ => none
  waiters := fun _ => none
  calls := []
  stops := []

def TerminalRegistry.slot (registry : TerminalRegistry) (session_id : Text) : Option TerminalSlot :=
  registry.active.lookup session_id

def TerminalRegistry.insert_slot (registry : TerminalRegistry) (session_id : Text)
    (slot : TerminalSlot) : TerminalRegistry :=
  { registry with active := registry.active.insert session_id slot }

def TerminalRegistry.remove_slot (registry : TerminalRegistry) (session_id : Text) :
    TerminalRegistry :=
  { registry with active := registry.active.erase session_id }

def TerminalRegistry.insert_snapshot (registry : TerminalRegistry) (session_id : Text)
    (record : TerminalRecord) : TerminalRegistry :=
  { registry with snapshots := registry.snapshots.insert session_id record }

def TerminalRegistry.remove_snapshot (registry : TerminalRegistry) (session_id : Text) :
    TerminalRegistry :=
  { registry with snapshots := registry.snapshots.erase session_id }

def TerminalRegistry.set_stage (registry : TerminalRegistry) (serial : Nat) (spawn : Spawn)
    (stage : SpawnStage) : TerminalRegistry :=
  { registry with
    spawns := Function.update registry.spawns serial (some { spawn with stage := stage }) }

def TerminalRegistry.set_child (registry : TerminalRegistry) (serial : Nat) (child : Child) :
    TerminalRegistry :=
  { registry with children := Function.update registry.children serial (some child) }

def TerminalRegistry.set_waiter (registry : TerminalRegistry) (serial : Nat)
    (waiter : Option Waiter) : TerminalRegistry :=
  { registry with waiters := Function.update registry.waiters serial waiter }

/-- A running call goes on as another one, or returns. -/
def TerminalRegistry.set_call (registry : TerminalRegistry) (call : Call) (next : Option Call) :
    TerminalRegistry :=
  { registry with calls := registry.calls.erase call ++ next.toList }

/-! ### Reserving -/

def reserve_slot (registry : TerminalRegistry) (session_id host_id : Text) (generation : Nat) :
    AppResult TerminalRegistry :=
  if registry.active.entries.length ≥ MAX_ACTIVE_TERMINALS then
    .error (.Validation "at most 32 active terminal sessions are allowed".toList)
  else .ok (registry.insert_slot session_id (.Starting generation host_id false none))

def reserve_new (registry : TerminalRegistry) (session_id host_id : Text) (generation : Nat) :
    AppResult TerminalRegistry :=
  if (registry.slot session_id).isSome ∨ (registry.snapshots.lookup session_id).isSome then
    .error (.State "terminal session identifier collision".toList)
  else reserve_slot registry session_id host_id generation

def reserve_reconnect (registry : TerminalRegistry) (session_id host_id : Text) (generation : Nat) :
    AppResult (TerminalSnapshot × TerminalRegistry) := do
  let record ← (registry.snapshots.lookup session_id).ok_or
    (.NotFound ("terminal session ".toList ++ session_id))
  let previous := record.snapshot
  if previous.host_id ≠ host_id then
    .error (.State "terminal session host no longer matches its profile".toList)
  else if (registry.slot session_id).isSome then
    .error (.Validation "terminal session is already running or starting".toList)
  else
    let reserved ← reserve_slot registry session_id host_id generation
    .ok (previous, reserved)

/-- `next_generation.fetch_add`, before the lock is taken. -/
def draw_generation (registry : TerminalRegistry) (spawn : Spawn) : TerminalRegistry :=
  { registry with
    next_generation := registry.next_generation + 1
    spawns := Function.update registry.spawns registry.next_generation (some spawn) }

/-- `start` and `start_command`, for a new session. -/
def start (registry : TerminalRegistry) (session_id : Text) (host : HostProfile)
    (title : Option Text) : TerminalRegistry :=
  draw_generation registry
    { session_id := session_id
      host := host
      revision := 1
      title := title
      stage := .drawn false }

def reconnect (registry : TerminalRegistry) (session_id : Text) (host : HostProfile) :
    TerminalRegistry :=
  draw_generation registry
    { session_id := session_id
      host := host
      revision := 0
      title := none
      stage := .drawn true }

def next_terminal_snapshot_revision (previous : TerminalSnapshot) : Nat :=
  max (min (previous.revision + 1) MAX_REVISION) 1

/-- The locked section in which a spawn reserves its slot. -/
def reserve (registry : TerminalRegistry) (serial : Nat) (spawn : Spawn) (reconnects : Bool) :
    TerminalRegistry :=
  if reconnects then
    match reserve_reconnect registry spawn.session_id spawn.host.id (generation_of serial) with
    | .error _ => registry.set_stage serial spawn .returned
    | .ok (previous, reserved) =>
        reserved.set_stage serial
          { spawn with
            revision := next_terminal_snapshot_revision previous
            title := some previous.title } .reserved
  else
    match reserve_new registry spawn.session_id spawn.host.id (generation_of serial) with
    | .error _ => registry.set_stage serial spawn .returned
    | .ok reserved => reserved.set_stage serial spawn .reserved

/-! ### Spawning -/

/-- `release_reservation`, when there is no child. -/
def release_reservation (registry : TerminalRegistry) (session_id : Text) (generation : Nat) :
    TerminalRegistry :=
  match registry.slot session_id with
  | some (.Starting current _ close_requested _) =>
      if current = generation then
        let removed := registry.remove_slot session_id
        if close_requested then removed.remove_snapshot session_id else removed
      else registry
  | _ => registry

def register_spawn_cleanup (registry : TerminalRegistry) (session_id : Text) (generation : Nat)
    (cleanup : Nat) : TerminalRegistry × Bool :=
  match registry.slot session_id with
  | some (.Starting current host_id close_requested _) =>
      if current = generation then
        (registry.insert_slot session_id (.Starting current host_id close_requested (some cleanup)),
          !close_requested)
      else (registry, false)
  | _ => (registry, false)

/-- The inactive record of the least generation. -/
def oldest_terminal (registry : TerminalRegistry) : Option Text :=
  let older (oldest : Option (Text × Nat)) (item : Text × Nat) : Option (Text × Nat) :=
    match oldest with
    | none => some item
    | some other => if item.2 < other.2 then some item else some other
  let inactive := (registry.snapshots.entries.map fun item => (item.1, item.2.generation)).filter
    fun item => (registry.slot item.1).isNone
  (inactive.foldl older none).map Prod.fst

/-- `prune_terminal_records`, with a bound on the number of removals. -/
def prune_terminal_records (limit : Nat) : Nat → TerminalRegistry → TerminalRegistry
  | 0, registry => registry
  | bound + 1, registry =>
      if registry.snapshots.entries.length ≤ limit then registry
      else
        match oldest_terminal registry with
        | none => registry
        | some oldest => prune_terminal_records limit bound (registry.remove_snapshot oldest)

/-- The snapshot of a session that has started. -/
def Spawn.snapshot (spawn : Spawn) (generation : Nat) : TerminalSnapshot where
  session_id := spawn.session_id
  generation := generation
  revision := spawn.revision
  host_id := spawn.host.id
  «alias» := spawn.host.«alias»
  cwd := spawn.host.default_workspace
  title := spawn.title.getD (spawn.host.«alias» ++ " · ".toList ++ spawn.host.default_workspace)
  state := .Running
  exit_code := none
  error := none

def commit_running (registry : TerminalRegistry) (session_id : Text) (generation : Nat)
    (session : TerminalSession) (snapshot : TerminalSnapshot) : TerminalRegistry × Bool :=
  match registry.slot session_id with
  | some (.Starting current _ false _) =>
      if current = generation then
        let committed := (registry.insert_slot session_id (.Running session)).insert_snapshot
          session_id { generation := generation, snapshot := snapshot }
        (prune_terminal_records MAX_RETAINED_TERMINALS committed.snapshots.entries.length committed,
          true)
      else (registry, false)
  | _ => (registry, false)

def is_current_generation (registry : TerminalRegistry) (session_id : Text) (generation : Nat) :
    Bool :=
  (registry.slot session_id).any fun slot => slot.generation = generation

/-- The last locked section of `abort_spawn`. -/
def remove_aborted (registry : TerminalRegistry) (session_id : Text) (generation : Nat)
    (remove_snapshot : Bool) : TerminalRegistry :=
  match registry.slot session_id with
  | some slot =>
      if slot.generation = generation then
        let close_requested := match slot with
          | .Starting _ _ close_requested _ => close_requested
          | .Running _ => false
        let removed := registry.remove_slot session_id
        if remove_snapshot || close_requested then removed.remove_snapshot session_id else removed
      else registry
  | none => registry

/-! ### Closing -/

/-- The first locked section of `close`: the generation and the cleanup that
    it found, if there is a child to terminate. -/
def request_close (registry : TerminalRegistry) (session_id : Text) :
    TerminalRegistry × AppResult (Option (Nat × Nat)) :=
  match registry.slot session_id with
  | some (.Starting generation host_id _ cleanup) =>
      (registry.insert_slot session_id (.Starting generation host_id true cleanup),
        .ok (cleanup.map fun cleanup => (generation, cleanup)))
  | some (.Running session) => (registry, .ok (some (session.generation, session.cleanup)))
  | none =>
      if (registry.snapshots.lookup session_id).isSome then
        (registry.remove_snapshot session_id, .ok none)
      else (registry, .error (.NotFound ("terminal session ".toList ++ session_id)))

/-- The last locked section of `close`. -/
def remove_closed (registry : TerminalRegistry) (session_id : Text) (generation : Nat) :
    TerminalRegistry :=
  if is_current_generation registry session_id generation then
    (registry.remove_slot session_id).remove_snapshot session_id
  else registry

/-- The next session of `stop_for_host`. -/
def Call.next (call : Call) : Option Call :=
  match call.rest with
  | [] => none
  | session_id :: rest => some { stage := .entering session_id, rest := rest }

/-- The sessions of a host that `stop_for_host` closes. -/
def sessions_of_host (registry : TerminalRegistry) (host_id : Text) : List Text :=
  let active := (registry.active.entries.filter fun item => item.2.host_id = host_id).map Sigma.fst
  let recorded :=
    (registry.snapshots.entries.filter fun item => item.2.snapshot.host_id = host_id).map Sigma.fst
  ((active ++ recorded).insertionSort fun a b => a.le b = true).dedup

/-- The children that `stop_all` finds. -/
def cleanups_of (registry : TerminalRegistry) : List Nat :=
  registry.active.entries.filterMap fun item => item.2.cleanup

/-- The locked section of `stop_all`. -/
def clear (registry : TerminalRegistry) : TerminalRegistry :=
  { registry with active := ∅, snapshots := ∅ }

/-- A `stop_all` has finished with a child. -/
def finish_stop (registry : TerminalRegistry) (cleanups : List Nat) (cleanup : Nat) :
    TerminalRegistry :=
  { registry with stops := registry.stops.erase cleanups ++ [cleanups.erase cleanup] }

/-! ### Exit -/

structure ExitStatus where
  exit_code : Nat
  signal : Option Text
  deriving DecidableEq, Repr

def revise_terminal_snapshot (snapshot : TerminalSnapshot) : TerminalSnapshot :=
  { snapshot with revision := min (snapshot.revision + 1) MAX_REVISION }

/-- The record of a session that runs in a generation. -/
def running_record (registry : TerminalRegistry) (session_id : Text) (generation : Nat) :
    Option TerminalRecord :=
  match registry.slot session_id with
  | some (.Running session) =>
      if session.generation = generation then
        (registry.snapshots.lookup session_id).filter fun record => record.generation = generation
      else none
  | _ => none

def finalize_exit (registry : TerminalRegistry) (session_id : Text) (generation : Nat)
    (status : ExitStatus) : TerminalRegistry :=
  match running_record registry session_id generation with
  | none => registry
  | some record =>
      let exit_code := if status.exit_code ≤ MAX_EXIT_CODE then some status.exit_code else none
      let state : TerminalState := if exit_code = some 0 then .Closed else .Offline
      let snapshot : TerminalSnapshot :=
        { record.snapshot with state := state, exit_code := exit_code, error := status.signal }
      let revised := if snapshot = record.snapshot then snapshot else revise_terminal_snapshot snapshot
      (registry.remove_slot session_id).insert_snapshot session_id
        { record with snapshot := revised }

def record_terminal_error (registry : TerminalRegistry) (session_id : Text) (generation : Nat)
    (message : Text) : TerminalRegistry :=
  match running_record registry session_id generation with
  | none => registry
  | some record =>
      if record.snapshot.state = .Failed ∧ record.snapshot.error = some message then registry
      else
        let snapshot : TerminalSnapshot :=
          { record.snapshot with state := .Failed, error := some message }
        registry.insert_snapshot session_id
          { record with snapshot := revise_terminal_snapshot snapshot }

def record_wait_error (registry : TerminalRegistry) (session_id : Text) (generation : Nat)
    (error : Text) : TerminalRegistry :=
  record_terminal_error registry session_id generation
    ("failed to wait for PTY child: ".toList ++ error)

/-- How the thread that reads a terminal ends with an error. -/
inductive ReadFailure where
  | read (error : Text)
  | cursor_response (error : Text)
  deriving DecidableEq, Repr

def ReadFailure.message : ReadFailure → Text
  | .read error => "PTY read failed: ".toList ++ error
  | .cursor_response error => "failed to answer initial ConPTY cursor query: ".toList ++ error

/-- The reader is told to start once its session is committed. -/
def SpawnStage.reads : SpawnStage → Bool
  | .drawn _ | .reserved | .spawned | .registered => false
  | _ => true

/-! ### The machine -/

inductive Label where
  | start (session_id : Text) (host : HostProfile) (title : Option Text)
  | reconnect (session_id : Text) (host : HostProfile)
  | reserve (serial : Nat)
  /-- There is no command, no terminal or no child. -/
  | spawn_fails (serial : Nat)
  | spawn_command (serial : Nat)
  | register (serial : Nat)
  /-- The terminal has no reader or writer, or a thread does not start. -/
  | setup_fails (serial : Nat)
  | commit (serial : Nat)
  /-- The reader and the waiter are told to start, or one is not there. -/
  | send (serial : Nat) (received : Bool)
  | abort_check (serial : Nat)
  | abort_round (serial : Nat) (round : Round)
  | abort_remove (serial : Nat)
  | close (session_id : Text)
  | stop_for_host (host_id : Text)
  | call_step (call : Call) (round : Round)
  | stop_all
  | stop_round (cleanups : List Nat) (cleanup : Nat) (round : Round)
  | wait_take (serial : Nat)
  | wait_exit (serial : Nat)
  | wait_fail (serial : Nat)
  | finalize (serial : Nat) (status : ExitStatus)
  | record (serial : Nat) (error : Text)
  | read_fails (serial : Nat) (failure : ReadFailure)
  | child_exits (serial : Nat)
  deriving DecidableEq

/-- The spawn of a value of the counter, if it is in a stage. -/
def TerminalRegistry.spawn_at (registry : TerminalRegistry) (serial : Nat) (stage : SpawnStage) :
    Option Spawn :=
  (registry.spawns serial).filter fun spawn => spawn.stage = stage

/-- A step of `close` or of the `stop_for_host` that calls it. -/
def call_step (registry : TerminalRegistry) (call : Call) (round : Round) :
    Option TerminalRegistry :=
  match call.stage with
  | .entering session_id =>
      match request_close registry session_id with
      | (requested, .ok (some (generation, cleanup))) =>
          some (requested.set_call call
            (some { call with stage := .terminating session_id generation cleanup }))
      | (requested, _) => some (requested.set_call call call.next)
  | .terminating session_id generation cleanup => do
      let child ← registry.children cleanup
      match terminate_cleanup child round with
      | (child', none) => some (registry.set_child cleanup child')
      | (child', some (.error _)) =>
          some ((registry.set_child cleanup child').set_call call call.next)
      | (child', some (.ok ())) =>
          some ((registry.set_child cleanup child').set_call call
            (some { call with stage := .removing session_id generation cleanup }))
  | .removing session_id generation _ =>
      some ((remove_closed registry session_id generation).set_call call call.next)

/-- Close the sessions one after the other. -/
def start_closing (registry : TerminalRegistry) : List Text → TerminalRegistry
  | [] => registry
  | session_id :: rest =>
      { registry with calls := registry.calls ++ [{ stage := .entering session_id, rest := rest }] }

/-- A round of the termination in `abort_spawn`. -/
def abort_round (registry : TerminalRegistry) (serial : Nat) (spawn : Spawn) (remove_snapshot : Bool)
    (round : Round) : Option TerminalRegistry := do
  let child ← registry.children serial
  match terminate_cleanup child round with
  | (child', none) => some (registry.set_child serial child')
  | (child', some (.error _)) => some ((registry.set_child serial child').set_stage serial spawn .returned)
  | (child', some (.ok ())) =>
      some ((registry.set_child serial child').set_stage serial spawn (.removing remove_snapshot))

/-- A round of one of the terminations of `stop_all`. -/
def stop_round (registry : TerminalRegistry) (cleanups : List Nat) (cleanup : Nat) (round : Round) :
    Option TerminalRegistry := do
  let child ← registry.children cleanup
  match terminate_cleanup child round with
  | (child', none) => some (registry.set_child cleanup child')
  | (child', some _) => some (finish_stop (registry.set_child cleanup child') cleanups cleanup)

def TerminalRegistry.next (registry : TerminalRegistry) : Label → Option TerminalRegistry
  | .start session_id host title => some (Session.start registry session_id host title)
  | .reconnect session_id host => some (Session.reconnect registry session_id host)
  | .reserve serial => do
      let spawn ← registry.spawns serial
      match spawn.stage with
      | .drawn reconnects => some (Session.reserve registry serial spawn reconnects)
      | _ => none
  | .spawn_fails serial => do
      let spawn ← registry.spawn_at serial .reserved
      some ((release_reservation registry spawn.session_id (generation_of serial)).set_stage serial
        spawn .returned)
  | .spawn_command serial => do
      let spawn ← registry.spawn_at serial .reserved
      let child : Child := { alive := true, handle := true, terminated := false }
      some ((registry.set_child serial child).set_stage serial spawn .spawned)
  | .register serial => do
      let spawn ← registry.spawn_at serial .spawned
      match register_spawn_cleanup registry spawn.session_id (generation_of serial) serial with
      | (registered, true) => some (registered.set_stage serial spawn .registered)
      | (registered, false) => some (registered.set_stage serial spawn (.aborting false))
  | .setup_fails serial => do
      let spawn ← registry.spawn_at serial .registered
      some (registry.set_stage serial spawn (.aborting false))
  | .commit serial => do
      let spawn ← registry.spawn_at serial .registered
      let generation := generation_of serial
      let session : TerminalSession :=
        { generation := generation, host_id := spawn.host.id, cleanup := serial }
      match commit_running registry spawn.session_id generation session (spawn.snapshot generation) with
      | (committed, true) => some (committed.set_stage serial spawn .committed)
      | (committed, false) => some (committed.set_stage serial spawn (.aborting false))
  | .send serial received => do
      let spawn ← registry.spawn_at serial .committed
      if received then some ((registry.set_waiter serial (some .started)).set_stage serial spawn .returned)
      else some (registry.set_stage serial spawn (.aborting true))
  | .abort_check serial => do
      let spawn ← registry.spawns serial
      match spawn.stage with
      | .aborting remove_snapshot =>
          if is_current_generation registry spawn.session_id (generation_of serial) then
            some (registry.set_stage serial spawn (.terminating remove_snapshot))
          else some (registry.set_stage serial spawn .returned)
      | _ => none
  | .abort_round serial round => do
      let spawn ← registry.spawns serial
      match spawn.stage with
      | .terminating remove_snapshot => Session.abort_round registry serial spawn remove_snapshot round
      | _ => none
  | .abort_remove serial => do
      let spawn ← registry.spawns serial
      match spawn.stage with
      | .removing remove_snapshot =>
          some ((remove_aborted registry spawn.session_id (generation_of serial)
            remove_snapshot).set_stage serial spawn .returned)
      | _ => none
  | .close session_id => some (start_closing registry [session_id])
  | .stop_for_host host_id => some (start_closing registry (sessions_of_host registry host_id))
  | .call_step call round =>
      if call ∈ registry.calls then Session.call_step registry call round else none
  | .stop_all =>
      let cleared := clear registry
      some { cleared with stops := registry.stops ++ [cleanups_of registry] }
  | .stop_round cleanups cleanup round =>
      if cleanups ∈ registry.stops ∧ cleanup ∈ cleanups then
        Session.stop_round registry cleanups cleanup round
      else none
  | .wait_take serial => do
      let child ← registry.children serial
      if registry.waiters serial = some .started then
        if child.handle then
          some ((registry.set_child serial { child with handle := false }).set_waiter serial
            (some .waiting))
        else some (registry.set_waiter serial none)
      else none
  | .wait_exit serial => do
      let child ← registry.children serial
      if registry.waiters serial = some .waiting ∧ ¬ child.alive then
        some ((registry.set_child serial { child with terminated := true }).set_waiter serial
          (some .exited))
      else none
  | .wait_fail serial => do
      let child ← registry.children serial
      if registry.waiters serial = some .waiting then
        some ((registry.set_child serial { child with handle := true }).set_waiter serial
          (some .failed))
      else none
  | .finalize serial status => do
      let spawn ← registry.spawns serial
      if registry.waiters serial = some .exited then
        some ((finalize_exit registry spawn.session_id (generation_of serial) status).set_waiter
          serial none)
      else none
  | .record serial error => do
      let spawn ← registry.spawns serial
      if registry.waiters serial = some .failed then
        some ((record_wait_error registry spawn.session_id (generation_of serial) error).set_waiter
          serial none)
      else none
  | .read_fails serial failure => do
      let spawn ← registry.spawns serial
      if spawn.stage.reads then
        some (record_terminal_error registry spawn.session_id (generation_of serial) failure.message)
      else none
  | .child_exits serial => do
      let child ← registry.children serial
      some (registry.set_child serial { child with alive := false })

def sessions : Machine TerminalRegistry Label where
  init := fun registry => registry = .default
  next := TerminalRegistry.next

end Session
