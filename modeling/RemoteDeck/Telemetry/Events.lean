import RemoteDeck.Telemetry.Agreement

/-! # Telemetry events

    `set_status` of `telemetry.rs` draws the revision of a status under the
    lock of the statuses and emits the event after it has released it, so
    that the emission is a step of its own.  Until then the call or the
    worker that wrote the status goes no further.
-/

namespace Telemetry

variable {registry registry' : Monitors} {label : MonitorLabel} {id generation : Nat} {call : Call}
  {worker : Worker} {host_id : Text}

/-! ### The machine -/

inductive Emitter where
  | call (id : Nat)
  | worker (generation : Nat)
  deriving DecidableEq, Repr

structure StatusEvent where
  emitter : Emitter
  status : TelemetryStatus
  deriving DecidableEq, Repr

def MonitorLabel.emitter (label : MonitorLabel) : Option Emitter :=
  match label.call, label.worker with
  | some id, _ => some (.call id)
  | none, some generation => some (.worker generation)
  | none, none => none

/-- The host whose status a step writes. -/
def MonitorLabel.writes (registry : Monitors) : MonitorLabel → Option Text
  | .announce id | .publish_spawn_error id _ | .publish_cleanup_error id _ | .publish_stopped id _ =>
      (registry.calls id).map Call.host_id
  | .publish_sample generation _ | .report generation _ =>
      (registry.workers generation).map Worker.host_id
  | .publish_exit generation _ =>
      ((registry.workers generation).filter fun worker =>
        worker.stop && !worker.cleanup_pending).map Worker.host_id
  | _ => none

/-- The events that a step makes. -/
def made_statuses (registry : Monitors) (label : MonitorLabel) (registry' : Monitors) :
    List StatusEvent :=
  match label.emitter, label.writes registry with
  | some emitter, some host_id =>
      (registry'.statuses host_id).toList.map fun status => ⟨emitter, status⟩
  | _, _ => []

structure StatusEvents where
  registry : Monitors
  pending : List StatusEvent
  /-- The emitted statuses, the last one last. -/
  published : List TelemetryStatus

def StatusEvents.default : StatusEvents where
  registry := .default
  pending := []
  published := []

inductive StatusLabel where
  | step (label : MonitorLabel)
  | emit (event : StatusEvent)

def StatusEvents.emit (events : StatusEvents) (event : StatusEvent) : StatusEvents :=
  { events with
    pending := events.pending.erase event
    published := events.published ++ [event.status] }

def StatusEvents.next (events : StatusEvents) : StatusLabel → Option StatusEvents
  | .step label =>
      if events.pending.any fun event => label.emitter = some event.emitter then none
      else
        (events.registry.next label).map fun registry =>
          { registry := registry
            pending := events.pending ++ made_statuses events.registry label registry
            published := events.published }
  | .emit event => if event ∈ events.pending then some (events.emit event) else none

def status_events : Machine StatusEvents StatusLabel where
  init := fun events => events = .default
  next := StatusEvents.next

/-- The statuses that are pending or have been emitted. -/
def StatusEvents.known (events : StatusEvents) : List TelemetryStatus :=
  events.pending.map StatusEvent.status ++ events.published

/-- The revisions of a host that have been emitted, in order. -/
def StatusEvents.revisions_of (events : StatusEvents) (host_id : Text) : List Nat :=
  (events.published.filter fun status => status.host_id = host_id).map TelemetryStatus.revision

/-! ### What a step writes -/

/-- The statuses after a step that writes the status of a host, or of none. -/
inductive StatusEffect (registry registry' : Monitors) : Option Text → Prop where
  | same : registry'.statuses = registry.statuses → StatusEffect registry registry' none
  | forgets (host_id : Text) :
      registry'.statuses = Function.update registry.statuses host_id none →
      StatusEffect registry registry' none
  | writes (status : TelemetryStatus) :
      status.revision = next_revision (registry.statuses status.host_id) →
      registry'.statuses = Function.update registry.statuses status.host_id (some status) →
      StatusEffect registry registry' (some status.host_id)

/-- A status is written, and something that is no status changes. -/
theorem StatusEffect.of_set_status {state : TelemetryRuntimeState} {detail : StatusDetail}
    (h : registry'.statuses = (registry.set_status host_id state detail).statuses) :
    StatusEffect registry registry' (some host_id) :=
  .writes ⟨host_id, next_revision (registry.statuses host_id), state, detail.last_sample_at,
    detail.error⟩ rfl h

theorem call_next_statuses (hcall : registry.calls id = some call) (hlabel : label.call = some id)
    (hnext : registry.call_next id call label = some registry') :
    StatusEffect registry registry' (label.writes registry) := by
  have hwrites : (registry.calls id).map Call.host_id = some call.host_id := by rw [hcall]; rfl
  cases label <;> dsimp only [Monitors.call_next] at hnext
  case insert _ host =>
    split at hnext
    · split at hnext
      · obtain rfl := Option.some.inj hnext
        unfold Monitors.insert
        split
        · exact .same rfl
        · split <;> exact .same rfl
      · exact absurd hnext.symm (Option.some_ne_none _)
    · exact absurd hnext.symm (Option.some_ne_none _)
  case announce =>
    split at hnext
    · obtain rfl := Option.some.inj hnext
      obtain rfl := Option.some.inj hlabel
      show StatusEffect _ _ ((registry.calls _).map Call.host_id)
      rw [hwrites]
      exact .of_set_status rfl
    · exact absurd hnext.symm (Option.some_ne_none _)
  case spawn =>
    split at hnext
    · split at hnext
      · obtain ⟨worker, _, hnext⟩ := Option.bind_eq_some_iff.mp hnext
        obtain rfl := Option.some.inj hnext
        exact .same rfl
      · obtain rfl := Option.some.inj hnext
        exact .same rfl
    · exact absurd hnext.symm (Option.some_ne_none _)
  case unregister =>
    split at hnext
    · split at hnext
      · obtain rfl := Option.some.inj hnext
        exact .same rfl
      · exact absurd hnext.symm (Option.some_ne_none _)
    · exact absurd hnext.symm (Option.some_ne_none _)
  case publish_spawn_error =>
    split at hnext
    · obtain rfl := Option.some.inj hnext
      obtain rfl := Option.some.inj hlabel
      show StatusEffect _ _ ((registry.calls _).map Call.host_id)
      rw [hwrites]
      exact .of_set_status rfl
    · exact absurd hnext.symm (Option.some_ne_none _)
  case find =>
    split at hnext
    · split at hnext
      · split at hnext
        · obtain rfl := Option.some.inj hnext
          exact .same rfl
        · obtain rfl := Option.some.inj hnext
          exact .same rfl
      · exact absurd hnext.symm (Option.some_ne_none _)
    · exact absurd hnext.symm (Option.some_ne_none _)
  case signal =>
    split at hnext
    · obtain ⟨worker, _, hnext⟩ := Option.bind_eq_some_iff.mp hnext
      obtain rfl := Option.some.inj hnext
      exact .same rfl
    · exact absurd hnext.symm (Option.some_ne_none _)
  case time_out =>
    split at hnext
    · obtain rfl := Option.some.inj hnext
      exact .same rfl
    · exact absurd hnext.symm (Option.some_ne_none _)
  case await_completion =>
    split at hnext
    · obtain ⟨worker, _, hnext⟩ := Option.bind_eq_some_iff.mp hnext
      obtain ⟨_, hnext⟩ := Option.ite_none_right_eq_some.mp hnext
      obtain rfl := Option.some.inj hnext
      exact .same rfl
    · exact absurd hnext.symm (Option.some_ne_none _)
  case cleanup =>
    split at hnext
    · obtain ⟨worker, _, hnext⟩ := Option.bind_eq_some_iff.mp hnext
      split at hnext
      · obtain rfl := Option.some.inj hnext
        exact .same rfl
      · split at hnext
        · obtain rfl := Option.some.inj hnext
          exact .same rfl
        · obtain rfl := Option.some.inj hnext
          exact .same rfl
    · exact absurd hnext.symm (Option.some_ne_none _)
  case publish_cleanup_error =>
    split at hnext
    · obtain rfl := Option.some.inj hnext
      obtain rfl := Option.some.inj hlabel
      show StatusEffect _ _ ((registry.calls _).map Call.host_id)
      rw [hwrites]
      exact .of_set_status rfl
    · exact absurd hnext.symm (Option.some_ne_none _)
  case remove =>
    split at hnext
    · split at hnext
      · obtain rfl := Option.some.inj hnext
        exact .same rfl
      · exact absurd hnext.symm (Option.some_ne_none _)
    · exact absurd hnext.symm (Option.some_ne_none _)
  case publish_stopped =>
    have hpublish : ∀ {stage : CallStage} {detail : StatusDetail}, registry' =
        (registry.set_status call.host_id .Stopped detail).set_call id call stage →
        StatusEffect registry registry' (some call.host_id) := by
      rintro stage detail rfl
      exact .of_set_status rfl
    obtain rfl := Option.some.inj hlabel
    show StatusEffect _ _ ((registry.calls _).map Call.host_id)
    rw [hwrites]
    split at hnext
    · exact hpublish (Option.some.inj hnext).symm
    · exact hpublish (Option.some.inj hnext).symm
    · exact absurd hnext.symm (Option.some_ne_none _)
  case give_up =>
    split at hnext
    · obtain rfl := Option.some.inj hnext
      exact .same rfl
    · exact absurd hnext.symm (Option.some_ne_none _)
  case forget =>
    split at hnext
    · obtain rfl := Option.some.inj hnext
      exact .forgets call.host_id rfl
    · exact absurd hnext.symm (Option.some_ne_none _)
  all_goals exact absurd hlabel.symm (Option.some_ne_none _)

theorem worker_next_statuses (hworker : registry.workers generation = some worker)
    (hlabel : label.worker = some generation)
    (hnext : registry.worker_next generation worker label = some registry') :
    StatusEffect registry registry' (label.writes registry) := by
  have hwrites : (registry.workers generation).map Worker.host_id = some worker.host_id := by
    rw [hworker]
    rfl
  cases label <;> dsimp only [Monitors.worker_next] at hnext
  case sample =>
    split at hnext
    · split at hnext
      · obtain rfl := Option.some.inj hnext
        exact .same rfl
      · obtain rfl := Option.some.inj hnext
        exact .same rfl
    · exact absurd hnext.symm (Option.some_ne_none _)
  case publish_sample =>
    split at hnext
    · obtain rfl := Option.some.inj hnext
      obtain rfl := Option.some.inj hlabel
      show StatusEffect _ _ ((registry.workers _).map Worker.host_id)
      rw [hwrites]
      exact .of_set_status rfl
    · exact absurd hnext.symm (Option.some_ne_none _)
  case collect =>
    split at hnext
    · obtain rfl := Option.some.inj hnext
      exact .same rfl
    · exact absurd hnext.symm (Option.some_ne_none _)
  case judge =>
    split at hnext
    · obtain rfl := Option.some.inj hnext
      exact .same rfl
    · exact absurd hnext.symm (Option.some_ne_none _)
  case report =>
    split at hnext
    · obtain rfl := Option.some.inj hnext
      obtain rfl := Option.some.inj hlabel
      show StatusEffect _ _ ((registry.workers _).map Worker.host_id)
      rw [hwrites]
      exact .of_set_status rfl
    · exact absurd hnext.symm (Option.some_ne_none _)
  case leave =>
    split at hnext
    · obtain rfl := Option.some.inj hnext
      exact .same rfl
    · exact absurd hnext.symm (Option.some_ne_none _)
  case exit =>
    split at hnext
    · obtain rfl := Option.some.inj hnext
      unfold Monitors.exit
      split <;> exact .same rfl
    · exact absurd hnext.symm (Option.some_ne_none _)
  case publish_exit =>
    split at hnext
    · obtain rfl := Option.some.inj hnext
      obtain rfl := Option.some.inj hlabel
      show StatusEffect _ _ (((registry.workers _).filter _).map Worker.host_id)
      rw [hworker]
      -- only a worker that was stopped and is cleaned up says so
      cases hstopped : worker.stop && !worker.cleanup_pending with
      | false =>
        have hnone : ((some worker).filter fun worker =>
            worker.stop && !worker.cleanup_pending).map Worker.host_id = none := by
          rw [Option.filter_some, hstopped]
          rfl
        rw [hnone]
        exact .same rfl
      | true =>
        have hsome : ((some worker).filter fun worker =>
            worker.stop && !worker.cleanup_pending).map Worker.host_id = some worker.host_id := by
          rw [Option.filter_some, hstopped]
          rfl
        rw [hsome, if_pos rfl]
        exact .of_set_status rfl
    · exact absurd hnext.symm (Option.some_ne_none _)
  case finish =>
    split at hnext
    · obtain rfl := Option.some.inj hnext
      exact .same rfl
    · exact absurd hnext.symm (Option.some_ne_none _)
  all_goals exact absurd hlabel.symm (Option.some_ne_none _)

/-- **What a step writes**: the status of one host with its next revision. -/
theorem next_statuses (hnext : registry.next label = some registry') :
    StatusEffect registry registry' (label.writes registry) := by
  cases hcall : label.call with
  | some id =>
    obtain ⟨call, hfound, hnext⟩ := next_of_call hcall hnext
    exact call_next_statuses hfound hcall hnext
  | none =>
    cases hworker : label.worker with
    | some generation =>
      obtain ⟨worker, hfound, hnext⟩ := next_of_worker hworker hnext
      exact worker_next_statuses hfound hworker hnext
    | none =>
      cases label <;> dsimp only [Monitors.next] at hnext
      case begin_start =>
        split at hnext
        · exact absurd hnext.symm (Option.some_ne_none _)
        · exact Option.some.inj hnext ▸ .same rfl
      case begin_stop =>
        split at hnext
        · exact absurd hnext.symm (Option.some_ne_none _)
        · exact Option.some.inj hnext ▸ .same rfl
      case shut_down => exact Option.some.inj hnext ▸ .same rfl
      all_goals first | exact absurd hcall (Option.some_ne_none _) |
        exact absurd hworker (Option.some_ne_none _)

end Telemetry
