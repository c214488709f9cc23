import RemoteDeck.Lib.Broadcast
import RemoteDeck.Lib.Machine
import RemoteDeck.Lib.Text

/-! # Server events

    `EventHub` and the handler `events` of `transport.rs`, with one client
    that reads the stream.  The handler is a program counter: subscribing,
    reading the log, each round of its stream and reading the cursor after a
    lag are steps of their own, so that events are published in between.
    Keep-alive comments and the reasons for which a stream ends are left out:
    a stream that ends is one that yields nothing more.
-/

namespace Transport

def MAX_LOG_ENTRIES : Nat := 512
def MAX_LOG_BYTES : Nat := 8388608
def BROADCAST_CAPACITY : Nat := 256
def MAX_U64 : Nat := 18446744073709551615

/-! ### The hub -/

/-- The names of events; the core publishes `resync` too. -/
inductive EventName where
  | terminal_event
  | tunnel_event
  | transfer_event
  | telemetry_event
  | command_event
  | operation_event
  | resync
  deriving DecidableEq, Repr

/-- What the hub uses of JSON values: `Value::Null`, the text under `kind`
    and the length of an encoded envelope. -/
structure Json (Value : Type) where
  null : Value
  kind : Value → Option Text
  encoded_len : Nat → EventName → Value → Nat

variable {Value : Type}

structure Envelope (Value : Type) where
  sequence : Nat
  event : EventName
  payload : Value
  deriving DecidableEq, Repr

structure EventLog (Value : Type) where
  sequence : Nat
  entries : List (Envelope Value × Nat)
  bytes : Nat

def EventLog.default : EventLog Value where
  sequence := 0
  entries := []
  bytes := 0

/-- Drop the oldest entries of a log that is too long or too large. -/
def prune : List (Envelope Value × Nat) → Nat → List (Envelope Value × Nat) × Nat
  | [], bytes => ([], bytes)
  | entry :: rest, bytes =>
      if rest.length + 1 > MAX_LOG_ENTRIES ∨ bytes > MAX_LOG_BYTES then prune rest (bytes - entry.2)
      else (entry :: rest, bytes)

/-- Terminal bytes stay out of the hub. -/
def excluded (json : Json Value) (event : EventName) (payload : Value) : Bool :=
  event = .terminal_event &&
    (json.kind payload).any fun kind => kind = "output".toList || kind = "replayTruncated".toList

/-- `publish`: the log and the envelope that is sent. -/
def publish (json : Json Value) (log : EventLog Value) (event : EventName) (payload : Value) :
    Option (EventLog Value × Envelope Value) :=
  if excluded json event payload then none
  else
    let sequence := (log.sequence + 1) % (MAX_U64 + 1)
    let item : Envelope Value := { sequence := sequence, event := event, payload := payload }
    let bytes := json.encoded_len sequence event payload
    let pruned := prune (log.entries ++ [(item, bytes)]) (log.bytes + bytes)
    some ({ sequence := sequence, entries := pruned.1, bytes := pruned.2 }, item)

def resync (json : Json Value) (sequence : Nat) : Envelope Value where
  sequence := sequence
  event := .resync
  payload := json.null

/-- The oldest retained entry is not after the next event of a client. -/
def EventLog.retains (log : EventLog Value) (since : Nat) : Bool :=
  log.entries.head?.all fun entry => min (since + 1) MAX_U64 ≥ entry.1.sequence

def initial (json : Json Value) (log : EventLog Value) (since : Option Nat) : List (Envelope Value) :=
  match since with
  | some since =>
      if since ≤ log.sequence ∧ log.retains since then
        (log.entries.map Prod.fst).filter fun item => since < item.sequence
      else [resync json log.sequence]
  | none => [resync json log.sequence]

/-! ### The stream of a client -/

/-- Where the handler is. -/
inductive Stage (Value : Type) where
  /-- It has subscribed and not read the log. -/
  | subscribed
  | streaming (pending : List (Envelope Value))
  /-- The receiver has lagged; the cursor is still to be read. -/
  | lagged
  deriving DecidableEq

structure Connection (Value : Type) where
  since : Option Nat
  /-- What was sent since the subscription and not received. -/
  receiver : List (Envelope Value)
  last : Nat
  stage : Stage Value
  /-- What the stream has yielded and the client has not got. -/
  wire : List (Envelope Value)

structure State (Value : Type) where
  log : EventLog Value
  connection : Option (Connection Value)
  /-- The last event id of the client. -/
  cursor : Option Nat
  received : List (Envelope Value)
  /-- All events so far; no step reads it. -/
  published : List (Envelope Value)

def State.set_connection (state : State Value) (connection : Connection Value) : State Value :=
  { state with connection := some connection }

inductive Label (Value : Type) where
  | publish (event : EventName) (payload : Value)
  /-- With the last event id, or without one. -/
  | subscribe (resumes : Bool)
  | read_log
  | poll
  | read_cursor
  | receive
  | disconnect

/-- Send an item to the receiver of the client. -/
def Connection.send (connection : Connection Value) (item : Envelope Value) : Connection Value :=
  { connection with receiver := connection.receiver ++ [item] }

/-- The end of a round: an item that the client has is skipped. -/
def Connection.deliver (connection : Connection Value) (item : Envelope Value) : Connection Value :=
  if item.sequence ≤ connection.last ∧ item.event ≠ .resync then connection
  else { connection with last := item.sequence, wire := connection.wire ++ [item] }

/-- A round of the stream. -/
def poll (connection : Connection Value) : Option (Connection Value) :=
  match connection.stage with
  | .streaming (item :: pending) =>
      some ({ connection with stage := .streaming pending }.deliver item)
  | .streaming [] => do
      let (received, rest) ← Broadcast.recv BROADCAST_CAPACITY connection.receiver
      let taken : Connection Value := { connection with receiver := rest }
      match received with
      | .item item => some (taken.deliver item)
      | .lagged _ => some { taken with stage := .lagged }
  | _ => none

def State.next (json : Json Value) (state : State Value) : Label Value → Option (State Value)
  | .publish event payload =>
      match Transport.publish json state.log event payload with
      | none => some state
      | some (log, item) =>
          some { state with
            log := log
            connection := state.connection.map fun connection => connection.send item
            published := state.published ++ [item] }
  | .subscribe resumes =>
      if state.connection.isNone then
        let since := if resumes then state.cursor else none
        some (state.set_connection
          { since := since, receiver := [], last := since.getD 0, stage := .subscribed, wire := [] })
      else none
  | .read_log => do
      let connection ← state.connection
      match connection.stage with
      | .subscribed =>
          some (state.set_connection
            { connection with stage := .streaming (initial json state.log connection.since) })
      | _ => none
  | .poll => do
      let connection ← state.connection
      let polled ← Transport.poll connection
      some (state.set_connection polled)
  | .read_cursor => do
      let connection ← state.connection
      match connection.stage with
      | .lagged =>
          some (state.set_connection
            ({ connection with stage := .streaming [] }.deliver (resync json state.log.sequence)))
      | _ => none
  | .receive => do
      let connection ← state.connection
      match connection.wire with
      | [] => none
      | item :: wire =>
          some { state with
            connection := some { connection with wire := wire }
            cursor := some item.sequence
            received := state.received ++ [item] }
  | .disconnect => some { state with connection := none }

/-- The hub from its start, and a client that knows nothing or what another
    run has told it. -/
def hub (json : Json Value) : Machine (State Value) (Label Value) where
  init := fun state => state.log = .default ∧ state.connection = none ∧ state.received = [] ∧
    state.published = []
  next := State.next json

end Transport
