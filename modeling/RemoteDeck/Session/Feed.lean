import Mathlib.Data.Prod.Lex
import RemoteDeck.Lib.Newest
import RemoteDeck.Session.Stages
import RemoteDeck.Terminal.Stream

/-! # The feed of terminal snapshots

    What the locked sections of the registry return for publication, and
    what `terminal-events.ts` makes of it.  An event is published after the
    lock is released, so that events can wait while other sections run.  The
    client keeps one snapshot for each session.
-/

namespace Session

/-! ### Events -/

/-- A lifecycle event, which carries a snapshot. -/
structure LifecycleEvent where
  session_id : Text
  kind : Terminal.TerminalEventKind
  exit_code : Option Nat
  message : Option Text
  snapshot : TerminalSnapshot
  deriving DecidableEq, Repr

/-- The event of a spawn that has committed. -/
def Spawn.started (spawn : Spawn) (serial : Nat) : LifecycleEvent where
  session_id := spawn.session_id
  kind := .started
  exit_code := none
  message := none
  snapshot := spawn.snapshot (generation_of serial)

/-- What `finalize_exit` returns, with the snapshot that it leaves. -/
def exit_event (registry registry' : TerminalRegistry) (serial : Nat) : Option LifecycleEvent := do
  let spawn ← registry.spawns serial
  let _ ← running_record registry spawn.session_id (generation_of serial)
  let record ← registry'.snapshots.lookup spawn.session_id
  some {
    session_id := spawn.session_id
    kind := .exit
    exit_code := record.snapshot.exit_code
    message := record.snapshot.error
    snapshot := record.snapshot }

/-- What `record_terminal_error` returns, with the snapshot that it leaves. -/
def error_event (registry registry' : TerminalRegistry) (serial : Nat) (message : Text) :
    Option LifecycleEvent := do
  let spawn ← registry.spawns serial
  let previous ← running_record registry spawn.session_id (generation_of serial)
  if previous.snapshot.state = .Failed ∧ previous.snapshot.error = some message then none
  else do
    let record ← registry'.snapshots.lookup spawn.session_id
    some {
      session_id := spawn.session_id
      kind := .error
      exit_code := none
      message := some message
      snapshot := record.snapshot }

/-- The event that a locked section returns for publication. -/
def lifecycle_event (registry registry' : TerminalRegistry) : Label → Option LifecycleEvent
  | .commit serial => do
      let spawn ← registry'.spawns serial
      if spawn.stage = .committed then some (spawn.started serial) else none
  | .finalize serial _ => exit_event registry registry' serial
  | .record serial error =>
      error_event registry registry' serial ("failed to wait for PTY child: ".toList ++ error)
  | .read_fails serial failure => error_event registry registry' serial failure.message
  | _ => none

/-! ### The feed -/

/-- The registry and its events, those that wait to be published and those
    that are, with the snapshots of the sessions that were committed. -/
structure Feed where
  registry : TerminalRegistry
  pending : List LifecycleEvent
  published : List LifecycleEvent
  committed : List TerminalSnapshot

inductive FeedLabel where
  | step (label : Label)
  | publish (event : LifecycleEvent)
  deriving DecidableEq

/-- No call has named the session. -/
def TerminalRegistry.is_new (registry : TerminalRegistry) (session_id : Text) : Bool :=
  (List.range registry.next_generation).all fun serial =>
    (registry.spawns serial).all fun spawn => spawn.session_id ≠ session_id

/-- A spawn publishes its start before it tells its threads to go on. -/
def Feed.has_published_start (feed : Feed) (serial : Nat) : Bool :=
  (feed.registry.spawns serial).all fun spawn => spawn.started serial ∉ feed.pending

/-- A new session gets a random identifier. -/
def Feed.enabled (feed : Feed) : Label → Bool
  | .start session_id _ _ => feed.registry.is_new session_id
  | .send serial _ | .read_fails serial _ => feed.has_published_start serial
  | _ => true

/-- The snapshot that a step commits. -/
def committed_by (label : Label) (event : Option LifecycleEvent) : List TerminalSnapshot :=
  match label with
  | .commit _ => (event.map LifecycleEvent.snapshot).toList
  | _ => []

def Feed.next (feed : Feed) : FeedLabel → Option Feed
  | .step label =>
      if feed.enabled label then do
        let registry ← feed.registry.next label
        let event := lifecycle_event feed.registry registry label
        some { feed with
          registry := registry
          pending := feed.pending ++ event.toList
          committed := feed.committed ++ committed_by label event }
      else none
  | .publish event =>
      if event ∈ feed.pending then
        some { feed with
          pending := feed.pending.erase event
          published := feed.published ++ [event] }
      else none

def Feed.empty : Feed where
  registry := .default
  pending := []
  published := []
  committed := []

def feeds : Machine Feed FeedLabel where
  init := fun feed => feed = .empty
  next := Feed.next

/-! ### The client -/

structure TerminalEvent where
  session_id : Text
  kind : Terminal.TerminalEventKind
  exit_code : Option Nat
  message : Option Text
  snapshot : Option TerminalSnapshot

def LifecycleEvent.event (event : LifecycleEvent) : TerminalEvent where
  session_id := event.session_id
  kind := event.kind
  exit_code := event.exit_code
  message := event.message
  snapshot := some event.snapshot

def isNewer (previous incoming : TerminalSnapshot) : Bool :=
  incoming.generation > previous.generation ||
    (incoming.generation = previous.generation && incoming.revision > previous.revision)

/-- A snapshot is added, or replaces the older one of its session. -/
def merge_snapshot (current : List TerminalSnapshot) (session_id : Text) (incoming : TerminalSnapshot) :
    List TerminalSnapshot :=
  (Newest.change_first TerminalSnapshot.session_id session_id
    (fun previous => if isNewer previous incoming then incoming else previous) current).getD
      (current ++ [incoming])

def mergeTerminalListing (current listing : List TerminalSnapshot) : List TerminalSnapshot :=
  listing.foldl (fun merged incoming => merge_snapshot merged incoming.session_id incoming) current

/-- An event without a snapshot, on the snapshot of its session. -/
def TerminalEvent.revise (event : TerminalEvent) (snapshot : TerminalSnapshot) : TerminalSnapshot :=
  match event.kind with
  | .exit => { snapshot with state := .Closed, exit_code := event.exit_code }
  | .error => { snapshot with state := .Failed, error := event.message }
  | .started => { snapshot with state := .Running }
  | _ => snapshot

def mergeTerminalEvent (current : List TerminalSnapshot) (event : TerminalEvent) :
    List TerminalSnapshot :=
  match event.snapshot with
  | some incoming => merge_snapshot current event.session_id incoming
  | none =>
      (Newest.change_first TerminalSnapshot.session_id event.session_id event.revise current).getD current

/-- What a client gets: an answer to `list_terminals`, or an event. -/
inductive Update where
  | listing (sessions : List TerminalSnapshot)
  | event (incoming : TerminalEvent)

def Update.apply (current : List TerminalSnapshot) : Update → List TerminalSnapshot
  | .listing sessions => mergeTerminalListing current sessions
  | .event incoming => mergeTerminalEvent current incoming

/-- The sessions of a client. -/
def view (updates : List Update) : List TerminalSnapshot := updates.foldl Update.apply []

end Session
