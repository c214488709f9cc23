import RemoteDeck.Model

/-! # Tunnel entries

    `TunnelInner` of `tunnel.rs` and the sections of code that run under its
    lock.  Times are in milliseconds.  A child process is named by a number.
    The snapshots that these sections hand to the event sink are left out,
    the revisions they draw are not.
-/

namespace Tunnel

def STARTUP_GRACE : Nat := 1000
def STABLE_CONNECTION : Nat := 30000
def UPTIME_EVENT_INTERVAL : Nat := 1000
def MAX_BACKOFF : Nat := 30
def MAX_LOG_ENTRIES : Nat := 50
def MAX_LOG_MESSAGE_BYTES : Nat := 2048
def MAX_RUNTIME_LOG_BYTES : Nat := 16777216
def MAX_HEALTH_FAILURES : Nat := 3
def MAX_ACTIVE_TUNNELS : Nat := 64
def MAX_RUNTIME_ENTRIES : Nat := 256
def MAX_LOG_BYTES_PER_TUNNEL : Nat := MAX_RUNTIME_LOG_BYTES / MAX_RUNTIME_ENTRIES
def LOG_ENTRY_OVERHEAD_BYTES : Nat := 64
def MAX_U64 : Nat := 18446744073709551615
def MAX_U32 : Nat := 4294967295

/-! ### Records -/

inductive TunnelRuntimeState where
  | Stopped
  | Starting
  | Running
  | Waiting
  | Failed
  deriving DecidableEq, Repr

inductive TunnelHealthState where
  | Unknown
  | Healthy
  | Degraded
  | Failed
  deriving DecidableEq, Repr

inductive TunnelLogLevel where
  | Info
  | Warn
  | Error
  deriving DecidableEq, Repr

structure TunnelLogEntry where
  time : Timestamp
  level : TunnelLogLevel
  message : Text
  deriving DecidableEq, Repr

structure TunnelInner where
  host_id : Text
  host_profile : Option HostProfile
  profile : TunnelProfile
  state : TunnelRuntimeState
  health : TunnelHealthState
  started_at : Option Timestamp
  reconnect_count : Nat
  message : Option Text
  logs : List TunnelLogEntry
  log_bytes : Nat
  last_process_error : Option Text
  desired_running : Bool
  worker_active : Bool
  retired : Bool
  generation : Nat
  revision : Nat
  child : Option Nat
  deriving DecidableEq, Repr

/-- The content of `TunnelEntry::new`. -/
def TunnelInner.new (profile : TunnelProfile) : TunnelInner where
  host_id := profile.host_id
  host_profile := none
  profile := profile
  state := .Stopped
  health := .Unknown
  started_at := none
  reconnect_count := 0
  message := none
  logs := []
  log_bytes := 0
  last_process_error := none
  desired_running := false
  worker_active := false
  retired := false
  generation := 0
  revision := 0
  child := none

def is_current_locked (inner : TunnelInner) (generation : Nat) : Bool :=
  inner.generation = generation && inner.desired_running

/-- Whether the entry counts as active. -/
def TunnelInner.active (inner : TunnelInner) : Bool :=
  inner.desired_running || inner.worker_active || inner.child.isSome

/-! ### Logs and revisions -/

def limit_message (message : Text) : Text :=
  if message.len ≤ MAX_LOG_MESSAGE_BYTES then message
  else Text.truncate_at MAX_LOG_MESSAGE_BYTES message ++ " [truncated]".toList

/-- Drop the oldest entries of a log that is too long or too large. -/
def drop_oldest : List TunnelLogEntry → Nat → List TunnelLogEntry × Nat
  | [], bytes => ([], if bytes > MAX_LOG_BYTES_PER_TUNNEL then 0 else bytes)
  | entry :: rest, bytes =>
      if rest.length + 1 > MAX_LOG_ENTRIES ∨ bytes > MAX_LOG_BYTES_PER_TUNNEL then
        drop_oldest rest (bytes - (entry.message.len + LOG_ENTRY_OVERHEAD_BYTES))
      else (entry :: rest, bytes)

def append_log_locked (inner : TunnelInner) (level : TunnelLogLevel) (message : Text)
    (now : Timestamp) : TunnelInner :=
  let limited := limit_message message
  if inner.logs.getLast?.any fun entry => entry.level = level && entry.message = limited then inner
  else
    let appended := drop_oldest (inner.logs ++ [{ time := now, level := level, message := limited }])
      (inner.log_bytes + (limited.len + LOG_ENTRY_OVERHEAD_BYTES))
    { inner with logs := appended.1, log_bytes := appended.2 }

/-- The revision that `pending_event_locked` draws. -/
def pending_event_locked (inner : TunnelInner) : TunnelInner :=
  { inner with revision := min (inner.revision + 1) MAX_U64 }

/-! ### Worker -/

def health_check_enabled (tunnel : TunnelProfile) : Bool :=
  tunnel.direction = .Local && tunnel.health_check.any fun check => check.kind = .Tcp

def clamp (low high value : Nat) : Nat := min (max value low) high

def health_interval (tunnel : TunnelProfile) : Nat :=
  match tunnel.health_check with
  | none => 3600000
  | some check => 1000 * clamp 1 3600 check.interval_seconds

/-- The seconds to wait before the next attempt. -/
def backoff_delay (failure_streak : Nat) : Nat :=
  min (1 <<< min failure_streak 5) MAX_BACKOFF

def mark_starting (inner : TunnelInner) (generation : Nat) (now : Timestamp) : Option TunnelInner :=
  if is_current_locked inner generation then
    let starting : TunnelInner :=
      { inner with state := .Starting, health := .Unknown, started_at := none, message := none }
    some (pending_event_locked
      (append_log_locked starting .Info "Starting OpenSSH tunnel process".toList now))
  else none

def mark_running (inner : TunnelInner) (generation : Nat) (started : Timestamp)
    (tunnel : TunnelProfile) (now : Timestamp) : Option TunnelInner :=
  if is_current_locked inner generation then
    let remote_health_unavailable :=
      tunnel.direction = .Remote && tunnel.health_check.any fun check => check.kind = .Tcp
    let running : TunnelInner :=
      { inner with
        state := .Running
        health :=
          if health_check_enabled tunnel || remote_health_unavailable then .Unknown else .Healthy
        started_at := some started
        message :=
          if remote_health_unavailable then
            some "remote-forward TCP health cannot be verified from the local endpoint".toList
          else none }
    let logged := append_log_locked running .Info "OpenSSH tunnel is running".toList now
    some (pending_event_locked
      (if remote_health_unavailable then
        append_log_locked logged .Warn ("Remote-forward TCP health check is unavailable locally; ".toList
          ++ "automatic health restarts are disabled".toList) now
      else logged))
  else none

def set_health (inner : TunnelInner) (generation : Nat) (health : TunnelHealthState)
    (message : Option Text) (now : Timestamp) : Option TunnelInner :=
  if is_current_locked inner generation then
    if inner.health = health ∧ inner.message = message then some inner
    else
      let changed : TunnelInner := { inner with health := health, message := message }
      some (pending_event_locked
        (match message with
        | some message => append_log_locked changed .Warn message now
        | none =>
            if health = .Healthy then
              append_log_locked changed .Info "TCP health check passed".toList now
            else changed))
  else none

/-- `finish_attempt`: the entry, the seconds to wait for a retry and the new
    failure streak, if the worker is current. -/
def finish_attempt (inner : TunnelInner) (generation : Nat) (tunnel : TunnelProfile) (message : Text)
    (clean : Bool) (failure_streak : Nat) (now : Timestamp) :
    Option (TunnelInner × Option Nat × Nat) :=
  if is_current_locked inner generation then
    let ended : TunnelInner :=
      { inner with started_at := none, health := if clean then .Unknown else .Failed }
    if inner.child.isSome then
      let failed : TunnelInner :=
        { ended with desired_running := false, state := .Failed, message := some message }
      some (pending_event_locked (append_log_locked failed .Error message now), none, failure_streak)
    else if tunnel.auto_reconnect then
      let delay := backoff_delay failure_streak
      let retry := message ++ "; reconnecting in ".toList ++ delay.text ++ " seconds".toList
      let waiting : TunnelInner :=
        { ended with
          reconnect_count := min (inner.reconnect_count + 1) MAX_U32
          state := .Waiting
          message := some retry }
      some (pending_event_locked (append_log_locked waiting .Warn retry now), some delay,
        min (failure_streak + 1) MAX_U32)
    else
      let stopped : TunnelInner :=
        { ended with
          desired_running := false
          state := if clean then .Stopped else .Failed
          message := some message }
      some (pending_event_locked
        (append_log_locked stopped (if clean then .Warn else .Error) message now), none,
        failure_streak)
  else none

/-- What `try_wait` answers. -/
inductive TryWait where
  | running
  | exited (success : Bool) (status : Text)
  | failed (error : Text)
  deriving DecidableEq, Repr

inductive ChildPoll where
  | Running
  | Exited (success : Bool) (status : Text)
  | Failed (error : Text)
  | Cancelled
  deriving DecidableEq, Repr

/-- `poll_child`, with the child whose handle it drops. -/
def poll_child (inner : TunnelInner) (generation : Nat) (answer : TryWait) :
    TunnelInner × ChildPoll × Option Nat :=
  if is_current_locked inner generation then
    match inner.child, answer with
    | none, _ => (inner, .Failed "owned OpenSSH child is unavailable".toList, none)
    | some _, .running => (inner, .Running, none)
    | some child, .exited success status =>
        ({ inner with child := none }, .Exited success status, some child)
    | some child, .failed error => ({ inner with child := none }, .Failed error, some child)
  else (inner, .Cancelled, none)

def process_exit_message (inner : TunnelInner) (generation : Nat) (status : Text) : Text :=
  let exited := "OpenSSH tunnel exited with ".toList ++ status
  match if inner.generation = generation then inner.last_process_error else none with
  | some detail => exited ++ ": ".toList ++ detail
  | none => exited

/-- The locked section of `WorkerGuard::drop`, with the child it drops. -/
def drop_guard (inner : TunnelInner) (generation : Nat) (now : Timestamp) :
    TunnelInner × Option Nat :=
  if inner.generation = generation then
    if inner.desired_running then
      let failed : TunnelInner :=
        { inner with
          worker_active := false
          desired_running := false
          state := .Failed
          health := .Failed
          started_at := none
          message := some "tunnel worker stopped unexpectedly".toList }
      let logged := append_log_locked failed .Error "Tunnel worker stopped unexpectedly".toList now
      (pending_event_locked { logged with child := none }, inner.child)
    else ({ inner with worker_active := false }, none)
  else (inner, none)

/-- The level that `record_process_line` gives a line. -/
def process_line_level (message : Text) : TunnelLogLevel :=
  let lower := message.to_ascii_lowercase
  let mentions (words : List String) : Bool := words.any fun word => lower.contains_text word.toList
  if mentions ["error", "failed", "denied", "timed out", "refused", "could not resolve", "host key",
      "connection closed"] then .Error
  else if mentions ["warning", "warn"] then .Warn
  else .Info

/-- `record_process_line`, for the text of a line. -/
def record_process_line (inner : TunnelInner) (generation : Nat) (line : Text) (truncated : Bool)
    (now : Timestamp) : TunnelInner :=
  let trimmed := Text.trim (line.rdropWhile fun c => c = '\r')
  if trimmed = [] ∨ inner.generation ≠ generation then inner
  else
    let message := if truncated then trimmed ++ " [truncated]".toList else trimmed
    let recorded : TunnelInner := { inner with last_process_error := some message }
    pending_event_locked (append_log_locked recorded (process_line_level message) message now)

/-! ### Start and stop -/

/-- The tunnel already runs as it is to be started. -/
def already_running (inner : TunnelInner) (tunnel : TunnelProfile) : Bool :=
  inner.desired_running && decide (inner.profile = tunnel) &&
    (inner.state = .Starting || inner.state = .Running || inner.state = .Waiting)

/-- The section of `start_inner` that takes the stale child. -/
def take_stale_child (inner : TunnelInner) : TunnelInner × Option Nat :=
  ({ inner with generation := min (inner.generation + 1) MAX_U64, child := none }, inner.child)

/-- The section of `start_inner` that asks for a worker. -/
def request_start (inner : TunnelInner) (host : HostProfile) (tunnel : TunnelProfile)
    (now : Timestamp) : TunnelInner :=
  let requested : TunnelInner :=
    { inner with
      host_id := host.id
      host_profile := some host
      profile := tunnel
      state := .Starting
      health := .Unknown
      started_at := none
      reconnect_count := 0
      message := none
      last_process_error := none
      desired_running := true
      worker_active := true }
  pending_event_locked (append_log_locked requested .Info "Tunnel start requested".toList now)

/-- The section of `start_inner` for a worker that cannot be spawned. -/
def fail_start (inner : TunnelInner) (generation : Nat) (error : Text) (now : Timestamp) :
    TunnelInner :=
  if inner.generation = generation then
    let failed : TunnelInner :=
      { inner with
        desired_running := false
        worker_active := false
        state := .Failed
        health := .Failed
        message := some ("failed to start tunnel worker: ".toList ++ error) }
    pending_event_locked (append_log_locked failed .Error
      ("Failed to start tunnel worker: ".toList ++ error) now)
  else pending_event_locked inner

/-- The first locked section of `stop_inner`: the entry, the child it takes
    and whether the tunnel was stopped already. -/
def begin_stop (inner : TunnelInner) (retire : Bool) : TunnelInner × Option Nat × Bool :=
  ({ inner with
      desired_running := false
      retired := inner.retired || retire
      generation := min (inner.generation + 1) MAX_U64
      worker_active := false
      child := none },
    inner.child,
    !inner.desired_running && inner.child.isNone && inner.state = .Stopped)

/-- The last locked section of `stop_inner`. -/
def settle_stop (inner : TunnelInner) (generation : Nat) (child : Option Nat)
    (already_stopped : Bool) (termination : Except Text Unit) (now : Timestamp) : TunnelInner :=
  if inner.generation = generation ∧ inner.desired_running = false then
    let ended : TunnelInner := { inner with started_at := none, health := .Unknown }
    pending_event_locked
      (match termination with
      | .error error =>
          let failed : TunnelInner :=
            { ended with
              child := child
              state := .Failed
              message := some ("failed to stop OpenSSH tunnel: ".toList ++ error) }
          append_log_locked failed .Error ("Failed to stop OpenSSH tunnel: ".toList ++ error) now
      | .ok () =>
          let stopped : TunnelInner := { ended with state := .Stopped, message := none }
          if already_stopped then stopped
          else append_log_locked stopped .Info "Tunnel stopped".toList now)
  else pending_event_locked inner

end Tunnel
