import Mathlib.Logic.Function.Basic
import RemoteDeck.Error
import RemoteDeck.Lib.Machine

/-! # Process signals

    `signal_process` of `telemetry.rs`.  A request for KILL is admitted when
    the table of attempts has a recent TERM of the same process; a signal
    that the remote host accepted is recorded after the remote call.  The
    reading of the clock, the sections under the lock and the remote call
    are steps of their own.

    The digest of a text is SHA-256 of its UTF-8 encoding, a parameter.
-/

namespace Telemetry

def MAX_USERNAME_BYTES : Nat := 256
def MAX_PROCESS_COMMAND_BYTES : Nat := 1024
def MAX_TERM_ATTEMPTS : Nat := 512

/-- `Duration::from_secs(5 * 60)` in nanoseconds. -/
def TERM_ATTEMPT_TTL : Nat := 5 * 60 * 1000000000

/-! ### Requests -/

/-- The process that a request names. -/
structure ProcessTarget where
  host_id : Text
  pid : UInt32
  expected_start_ticks : UInt64
  expected_user : Text
  expected_command : Text
  deriving DecidableEq, Repr

structure ProcessIdentity (Digest : Type) where
  host_id : Text
  pid : UInt32
  start_ticks : UInt64
  user_digest : Digest
  command_digest : Digest
  deriving DecidableEq, Repr

def process_identity {Digest : Type} (digest : Text → Digest) (target : ProcessTarget) :
    ProcessIdentity Digest where
  host_id := target.host_id
  pid := target.pid
  start_ticks := target.expected_start_ticks
  user_digest := digest target.expected_user
  command_digest := digest target.expected_command

def has_line_break (t : Text) : Bool := t.any fun c => c = '\x00' || c = '\r' || c = '\n'

def TERM : Text := "TERM".toList
def KILL : Text := "KILL".toList

def validate_process_signal (target : ProcessTarget) (signal : Text) : AppResult Unit :=
  if target.pid = 0 ∨ target.expected_start_ticks = 0 ∨ target.expected_user.isEmpty ∨
      MAX_USERNAME_BYTES < target.expected_user.len ∨ target.expected_command.isEmpty ∨
      MAX_PROCESS_COMMAND_BYTES < target.expected_command.len ∨
      has_line_break target.expected_user ∨ has_line_break target.expected_command ∨
      target.expected_user.trim ≠ target.expected_user ∨
      target.expected_command.trim ≠ target.expected_command then
    .error (.Validation "process identity is invalid".toList)
  else if signal ≠ TERM ∧ signal ≠ KILL then
    .error (.Validation "process signal must be TERM or KILL".toList)
  else .ok ()

/-! ### The remote command -/

def posix_quote (value : Text) : Text :=
  '\'' :: value.flatMap (fun c => if c = '\'' then "'\\''".toList else [c]) ++ ['\'']

def build_signal_command (target : ProcessTarget) (signal : Text) : Text :=
  "pid=".toList ++ target.pid.toNat.text ++ "\nexpected_start=".toList ++
    target.expected_start_ticks.toNat.text ++ "\nexpected_user=".toList ++
    posix_quote target.expected_user ++ "\nexpected_command=".toList ++
    posix_quote target.expected_command ++
    "\nactual_start=\"$(awk '\x7bprint $22\x7d' \"/proc/$pid/stat\" 2>/dev/null)\" || exit 44".toList ++
    "\nactual_user=\"$(ps -p \"$pid\" -o user= 2>/dev/null | awk '\x7b$1=$1;print\x7d')\"".toList ++
    "\nactual_command=\"$(ps -p \"$pid\" -o args= 2>/dev/null)\"".toList ++
    "\n[ -n \"$actual_start\" ] || exit 44".toList ++
    "\n[ \"$actual_start\" = \"$expected_start\" ] || exit 45".toList ++
    "\n[ \"$actual_user\" = \"$expected_user\" ] || exit 45".toList ++
    "\n[ \"$actual_command\" = \"$expected_command\" ] || exit 45".toList ++
    "\ncurrent_start=\"$(awk '\x7bprint $22\x7d' \"/proc/$pid/stat\" 2>/dev/null)\" || exit 44".toList ++
    "\n[ \"$current_start\" = \"$expected_start\" ] || exit 45".toList ++
    "\nkill -s ".toList ++ signal ++ " -- \"$pid\"".toList

structure CommandResult where
  exit_code : Option Int
  stderr : Text
  deriving DecidableEq, Repr

/-- What `signal_remote_process` makes of the outcome of the remote call. -/
def signal_outcome (response : AppResult CommandResult) : AppResult Unit := do
  let result ← response
  if result.exit_code = some 0 then .ok ()
  else if result.exit_code = some 44 then .error (.State "process no longer exists".toList)
  else if result.exit_code = some 45 then
    .error (.State "process identity changed; refresh telemetry before signaling".toList)
  else
    .error (.Process
      (if result.stderr.trim.isEmpty then "remote signal command failed".toList else result.stderr))

/-! ### State -/

inductive SignalStage where
  | validated
  /-- A request for KILL that has read the clock. -/
  | clocked (now : Nat)
  | admitted
  | sent
  /-- The remote host accepted the signal. -/
  | accepted
  | recording (now : Nat)
  | returned (result : AppResult Unit)
  | gone
  deriving DecidableEq

structure SignalRequest where
  target : ProcessTarget
  signal : Text
  stage : SignalStage
  deriving DecidableEq

/-- What happened, as far as it matters for the escalation. -/
inductive SignalEvent where
  | term_recorded (target : ProcessTarget) (now : Nat)
  | kill_recorded (target : ProcessTarget)
  | checked (request : Nat) (target : ProcessTarget) (now : Nat)
  | sent (request : Nat) (target : ProcessTarget) (signal command : Text)
  | host_removed (host_id : Text)
  | cleared
  deriving DecidableEq

abbrev Attempts (Digest : Type) := List (ProcessIdentity Digest × Nat)

structure Signals (Digest : Type) where
  clock : Nat
  term_attempts : Attempts Digest
  requests : Nat → Option SignalRequest
  log : List SignalEvent

def Signals.default {Digest : Type} : Signals Digest where
  clock := 0
  term_attempts := []
  requests := fun _ => none
  log := []

variable {Digest : Type} [DecidableEq Digest]

/-! ### The table of attempts -/

/-- Drop the attempts that are too old. -/
def retain_recent (now : Nat) (attempts : Attempts Digest) : Attempts Digest :=
  attempts.filter fun attempt => now - attempt.2 ≤ TERM_ATTEMPT_TTL

def contains_key (attempts : Attempts Digest) (identity : ProcessIdentity Digest) : Bool :=
  attempts.any fun attempt => attempt.1 = identity

def remove_attempt (attempts : Attempts Digest) (identity : ProcessIdentity Digest) :
    Attempts Digest :=
  attempts.filter fun attempt => attempt.1 ≠ identity

def is_oldest_attempt (attempts : Attempts Digest) (identity : ProcessIdentity Digest) : Bool :=
  attempts.any fun oldest =>
    oldest.1 = identity && attempts.all fun attempt => oldest.2 ≤ attempt.2

/-- Make room for an attempt; which of several oldest ones goes is the
    choice of the order in which a hash map is visited. -/
def evict_attempt (attempts : Attempts Digest) (oldest : ProcessIdentity Digest) :
    Option (Attempts Digest) :=
  if MAX_TERM_ATTEMPTS ≤ attempts.length then
    if is_oldest_attempt attempts oldest then some (remove_attempt attempts oldest) else none
  else some attempts

def insert_attempt (attempts : Attempts Digest) (identity : ProcessIdentity Digest) (now : Nat) :
    Attempts Digest :=
  remove_attempt attempts identity ++ [(identity, now)]

/-! ### The machine -/

inductive SignalLabel (Digest : Type) where
  | request (id : Nat) (target : ProcessTarget) (signal : Text)
  | read_clock (id : Nat)
  | check (id : Nat)
  | send (id : Nat)
  | respond (id : Nat) (response : AppResult CommandResult)
  /-- `oldest` is the choice of the eviction, if there is one. -/
  | record (id : Nat) (oldest : ProcessIdentity Digest)
  | drop (id : Nat)
  | remove_host (host_id : Text)
  | shutdown
  | elapse (duration : Nat)

def Signals.set_stage (signals : Signals Digest) (id : Nat) (request : SignalRequest)
    (stage : SignalStage) : Signals Digest :=
  { signals with
    requests := Function.update signals.requests id (some { request with stage := stage }) }

def Signals.append (signals : Signals Digest) (event : SignalEvent) : Signals Digest :=
  { signals with log := signals.log ++ [event] }

variable (digest : Text → Digest)

/-- The admission check of a KILL, under the lock. -/
def Signals.check (signals : Signals Digest) (id : Nat) (request : SignalRequest) (now : Nat) :
    Signals Digest :=
  let attempts := retain_recent now signals.term_attempts
  let signals := { signals with term_attempts := attempts }
  if contains_key attempts (process_identity digest request.target) then
    (signals.append (.checked id request.target now)).set_stage id request .admitted
  else
    signals.set_stage id request (.returned
      (.error (.State "send TERM to this exact process before escalating to KILL".toList)))

/-- Recording a signal that was accepted, under the lock. -/
def Signals.record (signals : Signals Digest) (id : Nat) (request : SignalRequest) (now : Nat)
    (oldest : ProcessIdentity Digest) : Option (Signals Digest) :=
  let identity := process_identity digest request.target
  if request.signal = TERM then do
    let attempts ← evict_attempt (retain_recent now signals.term_attempts) oldest
    let signals := { signals with term_attempts := insert_attempt attempts identity now }
    some ((signals.append (.term_recorded request.target now)).set_stage id request (.returned (.ok ())))
  else
    let signals := { signals with term_attempts := remove_attempt signals.term_attempts identity }
    some ((signals.append (.kill_recorded request.target)).set_stage id request (.returned (.ok ())))

def Signals.next (signals : Signals Digest) : SignalLabel Digest → Option (Signals Digest)
  | .request id target signal =>
      if (signals.requests id).isSome then none
      else
        let request := { target := target, signal := signal, stage := .validated }
        match validate_process_signal target signal with
        | .error e => some (signals.set_stage id request (.returned (.error e)))
        | .ok () => some (signals.set_stage id request .validated)
  | .read_clock id => do
      let request ← signals.requests id
      match request.stage with
      | .validated =>
          if request.signal = KILL then some (signals.set_stage id request (.clocked signals.clock))
          else none
      | .accepted => some (signals.set_stage id request (.recording signals.clock))
      | _ => none
  | .check id => do
      let request ← signals.requests id
      match request.stage with
      | .clocked now => some (signals.check digest id request now)
      | _ => none
  | .send id => do
      let request ← signals.requests id
      let event := .sent id request.target request.signal
        (build_signal_command request.target request.signal)
      match request.stage with
      | .validated =>
          if request.signal = KILL then none
          else some ((signals.append event).set_stage id request .sent)
      | .admitted => some ((signals.append event).set_stage id request .sent)
      | _ => none
  | .respond id response => do
      let request ← signals.requests id
      match request.stage with
      | .sent =>
          match signal_outcome response with
          | .error e => some (signals.set_stage id request (.returned (.error e)))
          | .ok () => some (signals.set_stage id request .accepted)
      | _ => none
  | .record id oldest => do
      let request ← signals.requests id
      match request.stage with
      | .recording now => signals.record digest id request now oldest
      | _ => none
  | .drop id => do
      let request ← signals.requests id
      match request.stage with
      | .sent => some (signals.set_stage id request .gone)
      | _ => none
  | .remove_host host_id =>
      let attempts := signals.term_attempts.filter fun attempt => attempt.1.host_id ≠ host_id
      some ({ signals with term_attempts := attempts }.append (.host_removed host_id))
  | .shutdown => some ({ signals with term_attempts := [] }.append .cleared)
  | .elapse duration => some { signals with clock := signals.clock + duration }

def signal_machine : Machine (Signals Digest) (SignalLabel Digest) where
  init := fun signals => signals = .default
  next := Signals.next digest

end Telemetry
