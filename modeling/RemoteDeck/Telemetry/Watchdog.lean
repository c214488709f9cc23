import Mathlib.Data.Finset.Basic
import Mathlib.Data.Finset.Dedup
import RemoteDeck.Lib.Erasure
import RemoteDeck.Lib.Machine
import RemoteDeck.Lib.Text

/-! # btop watchdogs

    A watchdog is a tmux session on the machine of a host, named after the
    host and marked with the nonce of the installation.  The registry tracks
    the sessions that it made or adopted, so that `stop_btop_watchdog` and
    `remove_host` terminate them.

    A call first reads the registry and then reserves its host; from there
    on it is the only operation on that host, and one step is what it does
    between two points at which others can act.  The remote commands are
    single steps: a label says how far the command gets, and whether the
    application learns its result.  The calls of one host all use one stored
    profile; `place` is the machine and the session name that it stands for.
-/

namespace Telemetry.Watchdog

/-! ### The remote side -/

/-- A tmux session with the name of a watchdog. -/
structure Session where
  /-- The value of `@remotedeck_owner`, empty where it is not set. -/
  owner : Text
  /-- The host for which this registry made it, if it did. -/
  creator : Option Text
  /-- Whether the registry gave it up while it ran. -/
  abandoned : Bool
  deriving DecidableEq, Repr

/-- How far a start command gets on a machine without the session. -/
inductive StartRun where
  /-- It stops before `tmux new-session`, or was not run: the codes 40, 41, 42, 44 and that of `ssh`. -/
  | missing_btop
  | missing_tmux
  | missing_timeout
  | not_created
  | unreachable
  /-- The session could not be marked, and was killed again. -/
  | not_marked
  /-- It ends between the creation of the session and its mark. -/
  | interrupted
  | completed
  deriving DecidableEq, Repr

/-- `build_btop_start_command`, run for a host: the session afterwards and
    the exit code. -/
def run_start (owner host_id : Text) : Option Session → StartRun → Option Session × Option Nat
  | session, .missing_btop => (session, some 40)
  | session, .missing_tmux => (session, some 41)
  | session, .missing_timeout => (session, some 42)
  | session, .unreachable => (session, some 255)
  | some session, _ => (some session, some (if session.owner = owner then 47 else 43))
  | none, .not_created => (none, some 44)
  | none, .not_marked => (none, some 45)
  | none, .interrupted => (some ⟨[], some host_id, false⟩, none)
  | none, .completed => (some ⟨owner, some host_id, false⟩, some 0)

/-- `build_btop_stop_command`; a command that is not performed has no exit code. -/
def run_stop (owner : Text) (performed : Bool) (session : Option Session) :
    Option Session × Option Nat :=
  match session with
  | none => (none, if performed then some 0 else none)
  | some session =>
      if !performed then (some session, none)
      else if session.owner ≠ owner then (some session, some 46)
      else (none, some 0)

/-- `watchdog_state` of the status is `running`. -/
def status_running (owner : Text) (session : Option Session) (dependencies_available : Bool) : Bool :=
  dependencies_available && session.any fun session => session.owner = owner

inductive WatchdogStartDisposition where
  | Created
  | Adopted
  | Conflict
  deriving DecidableEq, Repr

def watchdog_start_disposition (exit_code : Option Nat) : WatchdogStartDisposition :=
  if exit_code = some 0 then .Created
  else if exit_code = some 47 then .Adopted
  else .Conflict

/-! ### The registry -/

/-- A call that has not reserved its host yet. -/
inductive Call where
  | start (host_id : Text) (rotation_minutes : Nat)
  | stop (host_id : Text)
  /-- `remove_host`, between its check and its call of `stop_btop_watchdog`. -/
  | remove (host_id : Text)
  deriving DecidableEq, Repr

/-- Where the operation stands that has reserved a host. -/
inductive Operation where
  | start_reserved (rotation_minutes : Nat)
  | start_ran (rotation_minutes : Nat) (created : Bool)
  | start_inserted (rotation_minutes : Nat) (created : Bool)
  | start_inspecting (rotation_minutes : Nat) (created : Bool)
  | start_running (rotation_minutes : Nat)
  | start_ready (rotation_minutes : Nat)
  /-- A start that fails, before and after its stop of the session. -/
  | cleaning
  | cleaned
  | stop_reserved
  | stop_done
  | stop_inspecting
  deriving DecidableEq, Repr

/-- A `shutdown` on its way. -/
structure Shutdown where
  /-- How many of the two maps of `pending_watchdogs` were read. -/
  reads : Nat
  /-- The hosts whose watchdog is still to be stopped. -/
  pending : Finset Text
  /-- The hosts whose session outlived its stop. -/
  failed : Finset Text
  deriving DecidableEq

structure State (Place : Type) where
  watchdogs : AList fun _ : Text => Nat
  watchdog_operations : AList fun _ : Text => Operation
  shutting_down : Bool
  calls : List Call
  shutdown : Option Shutdown
  sessions : Place → Option Session

/-- What the operation on a host does next. -/
inductive Act where
  /-- The profile is not the saved one, or no permit was free in time. -/
  | give_up
  | start_command (run : StartRun) (reported : Bool)
  | start_insert
  /-- A look at `shutting_down`. -/
  | start_flag
  /-- `inspect_btop_status`; `none` where it fails. -/
  | start_inspect (dependencies_available : Option Bool)
  | start_done
  | cleanup_stop (performed : Bool)
  | cleanup_remove
  | stop_command (performed reported : Bool)
  | stop_remove
  | stop_inspect
  deriving DecidableEq, Repr

inductive Label (Place : Type) where
  | start (host_id : Text) (rotation_minutes : Nat)
  | stop (host_id : Text)
  | remove_host (host_id : Text)
  | remove_stop (host_id : Text)
  | reserve (call : Call)
  | operation (host_id : Text) (act : Act)
  | shutdown
  | shutdown_watchdogs
  | shutdown_operations
  | shutdown_stop (host_id : Text) (performed : Bool)
  | shutdown_finish (cut_off : Bool)
  /-- A session ends, or one appears that this registry did not make. -/
  | ended (place : Place)
  | appeared (place : Place) (owner : Text)

variable {Place : Type} [DecidableEq Place]

/-- The sessions after those of some hosts were given up. -/
def abandon (gone : Text → Bool) (sessions : Place → Option Session) : Place → Option Session :=
  fun place => (sessions place).map fun session =>
    if session.creator.any gone then { session with abandoned := true } else session

namespace State

def operate (s : State Place) (host_id : Text) (operation : Operation) : State Place :=
  { s with watchdog_operations := s.watchdog_operations.insert host_id operation }

/-- The guard of the operation is dropped. -/
def release (s : State Place) (host_id : Text) : State Place :=
  { s with watchdog_operations := s.watchdog_operations.erase host_id }

def put (s : State Place) (place : Place) (session : Option Session) : State Place :=
  { s with sessions := Function.update s.sessions place session }

section

variable (s : State Place) (host_id : Text) (operation : Operation) (at_place : Place)
  (session : Option Session)

omit [DecidableEq Place] in
@[simp] theorem operate_sessions : (s.operate host_id operation).sessions = s.sessions := rfl

omit [DecidableEq Place] in
@[simp] theorem operate_watchdogs : (s.operate host_id operation).watchdogs = s.watchdogs := rfl

omit [DecidableEq Place] in
@[simp] theorem operate_shutdown : (s.operate host_id operation).shutdown = s.shutdown := rfl

omit [DecidableEq Place] in
@[simp] theorem operate_shutting_down :
    (s.operate host_id operation).shutting_down = s.shutting_down := rfl

omit [DecidableEq Place] in
@[simp] theorem operate_self :
    (s.operate host_id operation).watchdog_operations.lookup host_id = some operation :=
  AList.lookup_insert _

omit [DecidableEq Place] in
theorem operate_of_ne {other : Text} (h : other ≠ host_id) :
    (s.operate host_id operation).watchdog_operations.lookup other =
      s.watchdog_operations.lookup other := AList.lookup_insert_ne h

omit [DecidableEq Place] in
@[simp] theorem release_sessions : (s.release host_id).sessions = s.sessions := rfl

omit [DecidableEq Place] in
@[simp] theorem release_watchdogs : (s.release host_id).watchdogs = s.watchdogs := rfl

omit [DecidableEq Place] in
@[simp] theorem release_shutdown : (s.release host_id).shutdown = s.shutdown := rfl

omit [DecidableEq Place] in
@[simp] theorem release_shutting_down :
    (s.release host_id).shutting_down = s.shutting_down := rfl

omit [DecidableEq Place] in
@[simp] theorem release_self : (s.release host_id).watchdog_operations.lookup host_id = none :=
  AList.lookup_erase _ _

omit [DecidableEq Place] in
theorem release_of_ne {other : Text} (h : other ≠ host_id) :
    (s.release host_id).watchdog_operations.lookup other =
      s.watchdog_operations.lookup other := AList.lookup_erase_ne h

@[simp] theorem put_watchdogs : (s.put at_place session).watchdogs = s.watchdogs := rfl

@[simp] theorem put_operations :
    (s.put at_place session).watchdog_operations = s.watchdog_operations := rfl

@[simp] theorem put_shutdown : (s.put at_place session).shutdown = s.shutdown := rfl

@[simp] theorem put_shutting_down :
    (s.put at_place session).shutting_down = s.shutting_down := rfl

@[simp] theorem put_self : (s.put at_place session).sessions at_place = session := by
  simp [put]

end

/-- The result of the start command: the session that it made is given up
    unless the command is known to have succeeded. -/
def start_command (s : State Place) (owner : Text) (place : Text → Place) (host_id : Text)
    (rotation_minutes : Nat) (run : StartRun) (reported : Bool) : State Place :=
  let before := s.sessions (place host_id)
  let (session, exit_code) := run_start owner host_id before run
  if reported then
    match watchdog_start_disposition exit_code with
    | .Created => (s.put (place host_id) session).operate host_id (.start_ran rotation_minutes true)
    | .Adopted => (s.put (place host_id) session).operate host_id (.start_ran rotation_minutes false)
    | .Conflict =>
        (s.put (place host_id)
          (if before.isNone then session.map fun session => { session with abandoned := true }
          else session)).release host_id
  else
    (s.put (place host_id)
      (if before.isNone then session.map fun session => { session with abandoned := true }
      else session)).release host_id

/-- A watchdog is tracked, and a session of it that had been given up is
    taken up again, unless the registry shuts down. -/
def track (s : State Place) (place : Text → Place) (host_id : Text) (rotation_minutes : Nat) :
    State Place :=
  { s with
    watchdogs := s.watchdogs.insert host_id rotation_minutes
    sessions := Function.update s.sessions (place host_id)
      ((s.sessions (place host_id)).map fun session =>
        { session with abandoned := session.abandoned &&
            (s.shutting_down || session.creator ≠ some host_id) }) }

/-- The next state of an operation on its host. -/
def advance (s : State Place) (owner : Text) (place : Text → Place) (host_id : Text) :
    Operation → Act → Option (State Place)
  | .start_reserved _, .give_up => some (s.release host_id)
  | .start_reserved rotation, .start_command run reported =>
      some (s.start_command owner place host_id rotation run reported)
  | .start_ran rotation created, .start_insert =>
      let s := s.operate host_id (.start_inserted rotation created)
      some (if created then { s with watchdogs := s.watchdogs.insert host_id rotation } else s)
  | .start_inserted rotation created, .start_flag =>
      some (s.operate host_id
        (if s.shutting_down then .cleaning else .start_inspecting rotation created))
  | .start_inspecting rotation created, .start_inspect reply =>
      match reply with
      | none => some (s.release host_id)
      | some dependencies_available =>
          if status_running owner (s.sessions (place host_id)) dependencies_available then
            some (s.operate host_id (.start_running rotation))
          else if created then some (s.operate host_id .cleaning)
          else some (s.release host_id)
  | .start_running rotation, .start_flag =>
      some (s.operate host_id (if s.shutting_down then .cleaning else .start_ready rotation))
  | .start_ready rotation, .start_done =>
      some ((s.track place host_id rotation).release host_id)
  | .cleaning, .cleanup_stop performed =>
      some ((s.put (place host_id)
        (run_stop owner performed (s.sessions (place host_id))).1).operate host_id .cleaned)
  | .cleaned, .cleanup_remove =>
      some (({ s with
        watchdogs := s.watchdogs.erase host_id
        sessions := abandon (fun creator => creator = host_id) s.sessions }).release host_id)
  | .stop_reserved, .give_up => some (s.release host_id)
  | .stop_reserved, .stop_command performed reported =>
      let (session, exit_code) := run_stop owner performed (s.sessions (place host_id))
      if reported ∧ exit_code = some 0 then
        some ((s.put (place host_id) session).operate host_id .stop_done)
      else some ((s.put (place host_id) session).release host_id)
  | .stop_done, .stop_remove =>
      some (({ s with watchdogs := s.watchdogs.erase host_id }).operate host_id .stop_inspecting)
  | .stop_inspecting, .stop_inspect => some (s.release host_id)
  | _, _ => none

/-- `stop_btop_watchdog` reads the entry of its host; without one it fails. -/
def stop_call (s : State Place) (host_id : Text) : State Place :=
  if (s.watchdogs.lookup host_id).isSome then { s with calls := .stop host_id :: s.calls } else s

/-- `reserve_watchdog_operation`, for a call that reached it. -/
def reserve (s : State Place) (host_id : Text) (operation : Operation) : State Place :=
  if (s.watchdog_operations.lookup host_id).isSome then s else s.operate host_id operation

/-- The end of a shutdown: the registry is cleared, whatever still runs. -/
def finish (s : State Place) (gone : Text → Bool) : State Place :=
  { s with watchdogs := ∅, shutdown := none, sessions := abandon gone s.sessions }

def next (s : State Place) (owner : Text) (place : Text → Place) :
    Label Place → Option (State Place)
  | .start host_id rotation =>
      if s.shutting_down || !(1 ≤ rotation && rotation ≤ 1440) then some s
      else some { s with calls := .start host_id rotation :: s.calls }
  | .stop host_id => some (s.stop_call host_id)
  | .remove_host host_id =>
      if (s.watchdog_operations.lookup host_id).isNone ∧ (s.watchdogs.lookup host_id).isSome then
        some { s with calls := .remove host_id :: s.calls }
      else some s
  | .remove_stop host_id =>
      if .remove host_id ∈ s.calls then
        some ({ s with calls := s.calls.erase (.remove host_id) }.stop_call host_id)
      else none
  | .reserve call =>
      if call ∈ s.calls then
        let s := { s with calls := s.calls.erase call }
        match call with
        | .start host_id rotation => some (s.reserve host_id (.start_reserved rotation))
        | .stop host_id => some (s.reserve host_id .stop_reserved)
        | .remove _ => none
      else none
  | .shutdown =>
      if s.shutdown.isSome then none
      else some { s with shutting_down := true, shutdown := some ⟨0, ∅, ∅⟩ }
  | .shutdown_watchdogs =>
      s.shutdown.bind fun task =>
        if task.reads = 0 then
          let pending := s.watchdogs.keys.toFinset
          some { s with shutdown := some { task with reads := 1, pending := pending } }
        else none
  | .shutdown_operations =>
      s.shutdown.bind fun task =>
        if task.reads = 1 then
          let pending := task.pending ∪ s.watchdog_operations.keys.toFinset
          some { s with shutdown := some { task with reads := 2, pending := pending } }
        else none
  | .shutdown_stop host_id performed =>
      s.shutdown.bind fun task =>
        if task.reads = 2 ∧ host_id ∈ task.pending then
          let session := (run_stop owner performed (s.sessions (place host_id))).1
          let failed := if session.isSome then insert host_id task.failed else task.failed
          some { s.put (place host_id) session with
                 shutdown := some ⟨2, task.pending.erase host_id, failed⟩ }
        else none
  | .shutdown_finish cut_off =>
      s.shutdown.bind fun task =>
        if cut_off then some (s.finish fun _ => true)
        else if task.reads = 2 ∧ task.pending = ∅ ∧ s.watchdog_operations.entries = [] then
          some (s.finish fun host_id => host_id ∈ task.failed)
        else none
  | .ended place => some (s.put place none)
  | .appeared place owner =>
      if (s.sessions place).isNone then some (s.put place (some ⟨owner, none, false⟩)) else none
  | .operation host_id act =>
      (s.watchdog_operations.lookup host_id).bind fun operation =>
        s.advance owner place host_id operation act

end State

/-- The registry of one installation, started among sessions of others and
    of earlier runs. -/
def watchdogs (owner : Text) (place : Text → Place) : Machine (State Place) (Label Place) where
  init := fun s => s.watchdogs = ∅ ∧ s.watchdog_operations = ∅ ∧ s.shutting_down = false ∧
    s.calls = [] ∧ s.shutdown = none ∧
    ∀ place session, s.sessions place = some session → session.creator = none
  next := fun s => s.next owner place

end Telemetry.Watchdog
