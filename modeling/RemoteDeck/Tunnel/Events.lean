import RemoteDeck.Tunnel.Registry

/-! # Tunnel events

    What `tunnel.rs` hands to the event sink.  Every section that draws a
    revision makes a snapshot of the entry, and whoever ran the section
    emits it afterwards, unless the entry has a later revision by then.  A
    stop that finds its tunnel stopped draws a revision and emits nothing.

    The emission holds the event lock of the entry from its look at the
    revision on, so that it is one step.
-/

namespace Tunnel

/-! ### Snapshots -/

structure TunnelSnapshot where
  tunnel_id : Text
  revision : Nat
  profile : Option TunnelProfile
  state : TunnelRuntimeState
  health : Option TunnelHealthState
  uptime_seconds : Option Nat
  reconnect_count : Option Nat
  message : Option Text
  logs : Option (List TunnelLogEntry)
  deriving DecidableEq, Repr

/-- `current_event_locked`: a snapshot without the logs. -/
def current_event_locked (inner : TunnelInner) (now : Timestamp) : TunnelSnapshot where
  tunnel_id := inner.profile.id
  revision := inner.revision
  profile := some inner.profile
  state := inner.state
  health := some inner.health
  uptime_seconds := inner.started_at.map fun started => (now - started) / 1000
  reconnect_count := some inner.reconnect_count
  message := inner.message
  logs := none

def snapshot_locked (inner : TunnelInner) (now : Timestamp) : TunnelSnapshot :=
  { current_event_locked inner now with logs := some inner.logs }

def stopped_snapshot (profile : TunnelProfile) : TunnelSnapshot where
  tunnel_id := profile.id
  revision := 0
  profile := some profile
  state := .Stopped
  health := some .Unknown
  uptime_seconds := none
  reconnect_count := some 0
  message := none
  logs := some []

def changed_message : Text :=
  "saved tunnel configuration changed; restart to apply it".toList

/-- What the list of tunnels shows for a saved tunnel. -/
def TunnelRegistry.snapshot_for (registry : TunnelRegistry) (tunnel : TunnelProfile)
    (now : Timestamp) : TunnelSnapshot :=
  match (registry.entries.lookup tunnel.id).bind registry.inner with
  | none => stopped_snapshot tunnel
  | some inner =>
      if inner.retired then stopped_snapshot tunnel
      else if inner.profile = tunnel then snapshot_locked inner now
      else
        { snapshot_locked inner now with
          profile := some tunnel
          message := some (inner.message.getD changed_message) }

/-! ### Events -/

/-- Who ran the section that made an event. -/
inductive Emitter where
  | start
  | stop (tunnel_id : Text)
  | worker (name generation : Nat)
  | reader (name generation : Nat)
  deriving DecidableEq, Repr

structure PendingEvent where
  emitter : Emitter
  /-- The name of the entry. -/
  entry : Nat
  snapshot : TunnelSnapshot
  deriving DecidableEq, Repr

/-- The entry that a step may revise, and who runs the step. -/
def Label.section (operation : Option Operation) : Label → Option (Emitter × Nat × Timestamp)
  | .start_step _ now =>
      match operation with
      | some (.start _ _ (.requesting name)) | some (.start _ _ (.spawning name _)) =>
          some (.start, name, now)
      | _ => none
  | .stop_step task _ now =>
      match task.stage with
      | .settling name .. => some (.stop task.tunnel_id, name, now)
      | _ => none
  | .work name worker _ now => some (.worker name worker.generation, name, now)
  | .process_line name generation _ _ now => some (.reader name generation, name, now)
  | _ => none

/-- A stop that found its tunnel stopped settles. -/
def Label.silent : Label → Bool
  | .stop_step task _ _ =>
      match task.stage with
      | .settling _ _ _ already_stopped (.ok ()) => already_stopped
      | _ => false
  | _ => false

/-- The step is an `emit_current` that is due, and finds its worker current. -/
def Label.reports_uptime (inner : TunnelInner) : Label → Bool
  | .work _ worker .go now =>
      match worker.stage with
      | .reporting attempt =>
          attempt.announced_running && decide (now ≥ attempt.next_uptime_event) &&
            is_current_locked inner worker.generation
      | _ => false
  | _ => false

/-- The events that a step of the registry makes. -/
def made_events (registry : TunnelRegistry) (label : Label) (registry' : TunnelRegistry) :
    List PendingEvent :=
  match label.section registry.operation with
  | none => []
  | some (emitter, name, now) =>
      match registry.inner name, registry'.inner name with
      | some before, some after =>
          if before.revision < after.revision then
            if label.silent then [] else [⟨emitter, name, snapshot_locked after now⟩]
          else if label.reports_uptime before then [⟨emitter, name, current_event_locked after now⟩]
          else []
      | _, _ => []

/-- Whoever runs the step has to emit this event first. -/
def Label.awaits (label : Label) (emitter : Emitter) : Bool :=
  match label, emitter with
  | .stop_step task _ _, .stop tunnel_id => task.tunnel_id = tunnel_id
  | .stop_step .., _ => false
  | .work name worker _ _, .worker other generation => name = other && worker.generation = generation
  | .work .., _ => false
  | .process_line name generation _ _ _, .reader other generation' =>
      name = other && generation = generation'
  | .process_line .., _ => false
  | .child_exits .., _ => false
  | _, .start | _, .stop _ => true
  | _, _ => false

/-! ### The machine -/

structure EventRegistry where
  registry : TunnelRegistry
  pending : List PendingEvent
  /-- The emitted snapshots with the entries they are of, the last one last. -/
  published : List (Nat × TunnelSnapshot)

def EventRegistry.default : EventRegistry where
  registry := .default
  pending := []
  published := []

inductive EventLabel where
  | step (label : Label)
  | emit (event : PendingEvent)
  deriving DecidableEq

/-- `emit_pending`. -/
def EventRegistry.emit (events : EventRegistry) (event : PendingEvent) : EventRegistry :=
  let current := (events.registry.inner event.entry).any fun inner =>
    inner.revision = event.snapshot.revision
  { events with
    pending := events.pending.erase event
    published :=
      if current then events.published ++ [(event.entry, event.snapshot)] else events.published }

def EventRegistry.next (events : EventRegistry) : EventLabel → Option EventRegistry
  | .step label =>
      if events.pending.any fun event => label.awaits event.emitter then none
      else
        (events.registry.next label).map fun registry =>
          { events with
            registry := registry
            pending := events.pending ++ made_events events.registry label registry }
  | .emit event => if event ∈ events.pending then some (events.emit event) else none

def tunnel_events : Machine EventRegistry EventLabel where
  init := fun events => events = .default
  next := EventRegistry.next

end Tunnel
