import RemoteDeck.Lib.Broadcast
import RemoteDeck.Lib.Machine
import RemoteDeck.Terminal.Stream

/-! # Terminal sockets

    `terminal_socket` of `transport.rs` and the message handler of
    `TerminalPanel.tsx`, for one generation of a terminal and one view of it.
    Each message that the server sends is a step, and so is each one that the
    view handles; events are published in between.  A socket may be lost at
    any point, with what is on its way, and a view attaches again with its
    cursor.  Input, heartbeats and the texts that the view shows are left out.
-/

namespace Terminal

def MAX_SAFE_INTEGER : Nat := 9007199254740991

inductive Message where
  | attached (session_id : Text) (generation lease : Nat)
  | event (event : SequencedTerminalEvent)
  | replay_complete
  | resync
  deriving DecidableEq

/-- Where the server is with a socket. -/
inductive Stage where
  | attaching (lease : Nat) (replay : List SequencedTerminalEvent)
  | replaying (pending : List SequencedTerminalEvent)
  | live
  | closed
  deriving DecidableEq

structure Socket where
  /-- What was published since the subscription and not received. -/
  receiver : List SequencedTerminalEvent
  sequence : Nat
  stage : Stage
  /-- What the server has sent and the view has not got. -/
  wire : List Message
  /-- Whether the view has seen `attached`. -/
  attached : Bool
  /-- Whether the view still handles messages. -/
  is_open : Bool

structure Cursor where
  generation : Option Nat
  sequence : Nat
  deriving DecidableEq

/-- The cursor of a view and the events of the generation that it has applied. -/
structure View where
  cursor : Cursor
  applied : List SequencedTerminalEvent

structure State where
  stream : TerminalEventStream
  socket : Option Socket
  view : View
  /-- All events so far; no step reads it. -/
  published : List SequencedTerminalEvent

inductive Label where
  | publish (kind : TerminalEventKind) (data : Option Text) (exit_code : Option Int)
      (message : Option Text)
  /-- The view attaches and is given a lease. -/
  | attach (lease : Nat)
  | send
  | receive
  | lose

/-! ### The server -/

def Socket.push (socket : Socket) (message : Message) : Socket :=
  { socket with wire := socket.wire ++ [message] }

/-- A socket with the lease and the replay of an attachment. -/
def Socket.opened (lease : Nat) (replay : List SequencedTerminalEvent) : Socket where
  receiver := []
  sequence := 0
  stage := .attaching lease replay
  wire := []
  attached := false
  is_open := true

/-- The next message of `terminal_socket`. -/
def Socket.send (session_id : Text) (generation : Nat) (socket : Socket) : Option Socket :=
  match socket.stage with
  | .attaching lease replay =>
      some ({ socket with stage := .replaying replay }.push (.attached session_id generation lease))
  | .replaying (event :: pending) =>
      some ({ socket with stage := .replaying pending, sequence := event.sequence }.push (.event event))
  | .replaying [] => some ({ socket with stage := .live }.push .replay_complete)
  | .live => do
      let (received, rest) ← Broadcast.recv TERMINAL_BROADCAST_BUFFER socket.receiver
      let taken : Socket := { socket with receiver := rest }
      match received with
      | .item event =>
          if event.sequence ≤ socket.sequence then some taken
          else some ({ taken with sequence := event.sequence }.push (.event event))
      | .lagged _ => some ({ taken with stage := .closed }.push .resync)
  | .closed => none

/-! ### The view -/

def Socket.close (socket : Socket) : Socket := { socket with is_open := false }

/-- The message handler. -/
def handle (session_id : Text) (view : View) (socket : Socket) : Message → View × Socket
  | .resync => (view, socket.close)
  | .attached id generation lease =>
      if some generation ≠ view.cursor.generation ∨ lease > MAX_SAFE_INTEGER ∨ id ≠ session_id ∨
          socket.attached then
        (view, socket.close)
      else (view, { socket with attached := true })
  | .replay_complete => if socket.attached then (view, socket) else (view, socket.close)
  | .event event =>
      if ¬ socket.attached ∨ event.sequence > MAX_SAFE_INTEGER ∨
          some event.generation ≠ view.cursor.generation then
        (view, socket.close)
      else if event.event.session_id ≠ session_id then (view, socket.close)
      else if event.sequence ≤ view.cursor.sequence then (view, socket)
      else if event.sequence ≠ view.cursor.sequence + 1 ∧ event.event.kind ≠ .replay_truncated then
        (view, socket.close)
      else
        ({ view with
            cursor := { view.cursor with sequence := event.sequence }
            applied := view.applied ++ [event] }, socket)

/-- The cursor with which a view opens a socket. -/
def View.for_generation (view : View) (generation : Nat) : View :=
  if view.cursor.generation = some generation then view
  else { view with cursor := { generation := some generation, sequence := 0 } }

def View.since (view : View) : Option Nat :=
  if view.cursor.sequence > 0 then some view.cursor.sequence else none

/-! ### Steps -/

def State.next (session_id : Text) (generation : Nat) (state : State) : Label → Option State
  | .publish kind data exit_code message =>
      -- only `attach` makes this kind of event
      if kind = .replay_truncated then none
      else
        let event : TerminalEvent :=
          { session_id := session_id, kind := kind, data := data, exit_code := exit_code, message := message }
        let (stream, sequenced) := state.stream.publish generation event
        some { state with
          stream := stream
          socket := state.socket.map fun socket =>
            { socket with receiver := socket.receiver ++ [sequenced] }
          published := state.published ++ [sequenced] }
  | .attach lease =>
      let view := state.view.for_generation generation
      some { state with
        view := view
        socket := some (.opened lease (state.stream.attach session_id generation view.since)) }
  | .send => do
      let socket ← state.socket
      let sent ← socket.send session_id generation
      some { state with socket := some sent }
  | .receive => do
      let socket ← state.socket
      match socket.wire with
      | [] => none
      | message :: wire =>
          if socket.is_open then
            let (view, handled) := handle session_id state.view { socket with wire := wire } message
            some { state with view := view, socket := some handled }
          else none
  | .lose => some { state with socket := none }

/-- A generation of a terminal from its start, with a view that has shown none of it. -/
def terminal (session_id : Text) (generation : Nat) : Machine State Label where
  init := fun state => state.stream = .new ∧ state.socket = none ∧ state.published = [] ∧
    state.view.cursor.generation ≠ some generation ∧ state.view.applied = []
  next := State.next session_id generation

end Terminal
