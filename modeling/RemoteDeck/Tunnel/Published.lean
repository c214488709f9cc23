import RemoteDeck.Tunnel.Events
import RemoteDeck.Tunnel.Workers

/-! # The last event of a tunnel

    A section shows what it found, or it draws the next revision and makes
    an event (`next_view`).  So the events of an entry that are pending or
    emitted have at most its revision, those with its revision show it, and
    unless a stop is silent there is one of them.  An emission moves the
    event on or drops one that is not current.
-/

namespace Tunnel

variable {inner inner' : TunnelInner} {entry entry' : TunnelEntry} {worker : Worker}
  {registry registry' : TunnelRegistry} {events events' : EventRegistry}
  {snapshot : TunnelSnapshot} {label : Label} {name generation : Nat} {now : Timestamp}

/-! ### What a section shows -/

/-- Two contents of an entry whose snapshots do not differ. -/
structure SameView (inner inner' : TunnelInner) : Prop where
  revision : inner'.revision = inner.revision
  profile : inner'.profile = inner.profile
  state : inner'.state = inner.state
  health : inner'.health = inner.health
  started_at : inner'.started_at = inner.started_at
  reconnect_count : inner'.reconnect_count = inner.reconnect_count
  message : inner'.message = inner.message
  logs : inner'.logs = inner.logs

/-- The next revision has been drawn. -/
def Draws (inner inner' : TunnelInner) : Prop :=
  inner'.revision = min (inner.revision + 1) MAX_U64

/-- The next revision of the same profile has been drawn. -/
structure Revised (inner inner' : TunnelInner) : Prop where
  draws : Draws inner inner'
  profile : inner'.profile = inner.profile

/-- What a section does to what is shown. -/
def Changes (inner inner' : TunnelInner) : Prop := SameView inner inner' ∨ Revised inner inner'

theorem SameView.refl (inner : TunnelInner) : SameView inner inner :=
  ⟨rfl, rfl, rfl, rfl, rfl, rfl, rfl, rfl⟩

theorem Changes.refl (inner : TunnelInner) : Changes inner inner := .inl (.refl inner)

theorem revision_grows (h : SameView inner inner' ∨ Draws inner inner')
    (hle : inner.revision ≤ MAX_U64) :
    inner.revision ≤ inner'.revision ∧ inner'.revision ≤ MAX_U64 := by
  rcases h with hsame | hdraws
  · have hrevision := hsame.revision
    omega
  · have hrevision : inner'.revision = min (inner.revision + 1) MAX_U64 := hdraws
    omega

/-- A line of the log is neither a revision nor a profile. -/
theorem append_log_keeps (inner : TunnelInner) (level : TunnelLogLevel) (message : Text)
    (now : Timestamp) : (append_log_locked inner level message now).revision = inner.revision ∧
      (append_log_locked inner level message now).profile = inner.profile := by
  unfold append_log_locked
  dsimp only
  split
  · exact ⟨rfl, rfl⟩
  · exact ⟨rfl, rfl⟩

/-- A change whose revision is drawn at its end. -/
theorem revised_pending
    (h : inner'.revision = inner.revision ∧ inner'.profile = inner.profile) :
    Revised inner (pending_event_locked inner') := by
  constructor
  · show min (inner'.revision + 1) MAX_U64 = min (inner.revision + 1) MAX_U64
    rw [h.1]
  · exact h.2

/-- A change that is logged before its revision is drawn. -/
theorem revised_logged {level : TunnelLogLevel} {message : Text}
    (h : inner'.revision = inner.revision ∧ inner'.profile = inner.profile) :
    Revised inner (pending_event_locked (append_log_locked inner' level message now)) := by
  have hkeeps := append_log_keeps inner' level message now
  exact revised_pending ⟨hkeeps.1.trans h.1, hkeeps.2.trans h.2⟩

theorem mark_starting_revises (h : mark_starting inner generation now = some inner') :
    Revised inner inner' := by
  obtain ⟨_, h⟩ := Option.ite_none_right_eq_some.mp h
  obtain rfl := Option.some.inj h
  exact revised_logged ⟨rfl, rfl⟩

theorem mark_running_revises {started : Timestamp} {tunnel : TunnelProfile}
    (h : mark_running inner generation started tunnel now = some inner') : Revised inner inner' := by
  obtain ⟨_, h⟩ := Option.ite_none_right_eq_some.mp h
  obtain rfl := Option.some.inj h
  split
  · exact revised_logged (append_log_keeps ..)
  · exact revised_logged ⟨rfl, rfl⟩

theorem set_health_view {health : TunnelHealthState} {message : Option Text}
    (h : set_health inner generation health message now = some inner') : Changes inner inner' := by
  obtain ⟨_, h⟩ := Option.ite_none_right_eq_some.mp h
  split at h
  · exact Option.some.inj h ▸ .refl inner
  · obtain rfl := Option.some.inj h
    right
    split
    · exact revised_logged ⟨rfl, rfl⟩
    · split
      · exact revised_logged ⟨rfl, rfl⟩
      · exact revised_pending ⟨rfl, rfl⟩

theorem finish_attempt_revises {tunnel : TunnelProfile} {message : Text} {clean : Bool}
    {streak streak' : Nat} {retry : Option Nat}
    (h : finish_attempt inner generation tunnel message clean streak now =
      some (inner', retry, streak')) : Revised inner inner' := by
  obtain ⟨_, h⟩ := Option.ite_none_right_eq_some.mp h
  dsimp only at h
  -- the child is still there, the attempt is retried, or it was the last one
  split at h
  · simp only [Option.some.injEq, Prod.mk.injEq] at h
    obtain ⟨rfl, -, -⟩ := h
    exact revised_logged ⟨rfl, rfl⟩
  · split at h
    · simp only [Option.some.injEq, Prod.mk.injEq] at h
      obtain ⟨rfl, -, -⟩ := h
      exact revised_logged ⟨rfl, rfl⟩
    · simp only [Option.some.injEq, Prod.mk.injEq] at h
      obtain ⟨rfl, -, -⟩ := h
      exact revised_logged ⟨rfl, rfl⟩

theorem drop_guard_view (inner : TunnelInner) (generation : Nat) (now : Timestamp) :
    Changes inner (drop_guard inner generation now).1 := by
  unfold drop_guard
  split
  · split
    · exact .inr (revised_pending (append_log_keeps ..))
    · exact .inl ⟨rfl, rfl, rfl, rfl, rfl, rfl, rfl, rfl⟩
  · exact .refl inner

theorem poll_child_view (inner : TunnelInner) (generation : Nat) (answer : TryWait) :
    SameView inner (poll_child inner generation answer).1 := by
  unfold poll_child
  split
  · split <;> exact ⟨rfl, rfl, rfl, rfl, rfl, rfl, rfl, rfl⟩
  · exact .refl inner

theorem record_process_line_view (inner : TunnelInner) (generation : Nat) (line : Text)
    (truncated : Bool) (now : Timestamp) :
    Changes inner (record_process_line inner generation line truncated now) := by
  unfold record_process_line
  dsimp only
  split
  · exact .refl inner
  · exact .inr (revised_logged ⟨rfl, rfl⟩)

/-- A start puts its tunnel into the entry. -/
theorem request_start_revises (inner : TunnelInner) (host : HostProfile) (tunnel : TunnelProfile)
    (now : Timestamp) :
    Revised { inner with profile := tunnel } (request_start inner host tunnel now) :=
  revised_logged ⟨rfl, rfl⟩

theorem fail_start_revises (inner : TunnelInner) (generation : Nat) (error : Text)
    (now : Timestamp) : Revised inner (fail_start inner generation error now) := by
  unfold fail_start
  split
  · exact revised_logged ⟨rfl, rfl⟩
  · exact revised_pending ⟨rfl, rfl⟩

theorem settle_stop_revises (inner : TunnelInner) (generation : Nat) (child : Option Nat)
    (already_stopped : Bool) (termination : Except Text Unit) (now : Timestamp) :
    Revised inner (settle_stop inner generation child already_stopped termination now) := by
  unfold settle_stop
  split
  · cases termination with
    | error error => exact revised_logged ⟨rfl, rfl⟩
    | ok =>
      dsimp only
      split
      · exact revised_pending ⟨rfl, rfl⟩
      · exact revised_logged ⟨rfl, rfl⟩
  · exact revised_pending ⟨rfl, rfl⟩

/-! ### What a worker shows -/

theorem check_health_view (attempt : Attempt) (result : Except Text Unit) :
    Changes entry.inner (check_health entry worker attempt result now).inner := by
  unfold check_health
  cases result with
  | ok =>
    dsimp only
    split
    · exact .refl entry.inner
    · next hset => exact set_health_view hset
  | error error =>
    dsimp only
    split
    · exact .refl entry.inner
    · next hset => exact set_health_view hset

theorem end_attempt_view (attempt : Option Attempt) (message : Text) (clean : Bool) :
    Changes entry.inner (end_attempt entry worker attempt message clean now).inner := by
  unfold end_attempt
  dsimp only
  split
  · exact .refl entry.inner
  · next hfinish => exact .inr (finish_attempt_revises hfinish)
  · next hfinish => exact .inr (finish_attempt_revises hfinish)

theorem announce_view (attempt : Attempt) :
    Changes entry.inner (announce entry worker attempt now).inner := by
  unfold announce
  split
  · exact .refl entry.inner
  · split
    · exact .refl entry.inner
    · next hmark => exact .inr (mark_running_revises hmark)

theorem report_view (attempt : Attempt) :
    Changes entry.inner (report entry worker attempt now).inner := by
  unfold report
  split
  · split <;> exact .refl entry.inner
  · exact .refl entry.inner

theorem take_generation_child_view (attempt : Attempt) (message : Text) :
    Changes entry.inner (take_generation_child entry worker attempt message).inner := by
  unfold take_generation_child
  split
  · exact .refl entry.inner
  · exact .inl ⟨rfl, rfl, rfl, rfl, rfl, rfl, rfl, rfl⟩

theorem restore_child_view (attempt : Attempt) (message : Text) (child : Nat) (error : Text) :
    Changes entry.inner (restore_child entry worker attempt message child error).inner := by
  unfold restore_child
  dsimp only
  split
  · exact .inl ⟨rfl, rfl, rfl, rfl, rfl, rfl, rfl, rfl⟩
  · exact .refl entry.inner

theorem poll_view (attempt : Attempt) (answer : TryWait) :
    Changes entry.inner (poll entry worker attempt answer).inner := by
  have hview := poll_child_view entry.inner worker.generation answer
  unfold poll
  dsimp only
  split <;> exact .inl hview

/-- A worker shows what it found or draws a revision. -/
theorem work_view {event : Event} (h : entry.work worker event now = some entry') :
    Changes entry.inner entry'.inner := by
  unfold TunnelEntry.work at h
  split at h
  case h_1 => exact Option.some.inj h ▸ drop_guard_view entry.inner worker.generation now
  case h_2 => simp at h
  case h_3 =>
    obtain rfl := Option.some.inj h
    unfold panic
    dsimp only
    split <;> exact .refl entry.inner
  case h_4 =>
    split at h
    · exact Option.some.inj h ▸ .refl entry.inner
    · next hmark => exact Option.some.inj h ▸ .inr (mark_starting_revises hmark)
  case h_5 => exact Option.some.inj h ▸ .refl entry.inner
  case h_6 => exact Option.some.inj h ▸ .refl entry.inner
  case h_7 => exact Option.some.inj h ▸ .refl entry.inner
  case h_8 =>
    obtain ⟨_, h⟩ := Option.ite_none_right_eq_some.mp h
    exact Option.some.inj h ▸ .refl entry.inner
  case h_9 => split at h <;> exact Option.some.inj h ▸ .refl entry.inner
  case h_10 => exact Option.some.inj h ▸ .refl entry.inner
  case h_11 => exact Option.some.inj h ▸ .refl entry.inner
  case h_12 =>
    split at h
    · exact Option.some.inj h ▸ .inl ⟨rfl, rfl, rfl, rfl, rfl, rfl, rfl, rfl⟩
    · exact Option.some.inj h ▸ .refl entry.inner
  case h_13 =>
    obtain ⟨_, h⟩ := Option.ite_none_right_eq_some.mp h
    exact Option.some.inj h ▸ .refl entry.inner
  case h_14 attempt answer _ =>
    obtain ⟨_, h⟩ := Option.ite_none_right_eq_some.mp h
    exact Option.some.inj h ▸ poll_view attempt answer
  case h_15 attempt _ => exact Option.some.inj h ▸ announce_view attempt
  case h_16 attempt result _ =>
    obtain ⟨_, h⟩ := Option.ite_none_right_eq_some.mp h
    exact Option.some.inj h ▸ check_health_view attempt result
  case h_17 =>
    split at h
    · simp at h
    · exact Option.some.inj h ▸ .refl entry.inner
  case h_18 attempt message _ => exact Option.some.inj h ▸ take_generation_child_view attempt message
  case h_19 attempt message child result _ =>
    obtain ⟨_, h⟩ := Option.ite_none_right_eq_some.mp h
    cases result with
    | ok => exact Option.some.inj h ▸ .refl entry.inner
    | error error => exact Option.some.inj h ▸ .refl entry.inner
  case h_20 attempt message child error _ =>
    exact Option.some.inj h ▸ restore_child_view attempt message child error
  case h_21 attempt _ => exact Option.some.inj h ▸ report_view attempt
  case h_22 => exact Option.some.inj h ▸ .refl entry.inner
  case h_23 attempt message clean _ =>
    exact Option.some.inj h ▸ end_attempt_view attempt message clean
  case h_24 =>
    split at h
    · split at h
      · simp at h
      · exact Option.some.inj h ▸ .refl entry.inner
    · exact Option.some.inj h ▸ .refl entry.inner
  case h_25 => simp at h

/-! ### What a step shows -/

/-- What a step of the registry does to the entries. -/
inductive ViewEffect (registry : TunnelRegistry) (label : Label) (registry' : TunnelRegistry) :
    Prop where
  | still : registry'.heap = registry.heap → registry'.made = registry.made →
      ViewEffect registry label registry'
  | makes (host : HostProfile) (tunnel : TunnelProfile) :
      registry.operation = some (.start host tunnel .looking) →
      registry'.heap = Function.update registry.heap registry.made (some (.new tunnel)) →
      registry'.made = registry.made + 1 → ViewEffect registry label registry'
  | shows {name : Nat} {entry entry' : TunnelEntry} : registry.heap name = some entry →
      registry'.heap = Function.update registry.heap name (some entry') →
      registry'.made = registry.made → SameView entry.inner entry'.inner →
      ViewEffect registry label registry'
  | revises {name : Nat} {entry entry' : TunnelEntry} {emitter : Emitter} {now : Timestamp} :
      registry.heap name = some entry →
      registry'.heap = Function.update registry.heap name (some entry') →
      registry'.made = registry.made → Draws entry.inner entry'.inner →
      (entry'.inner.profile = entry.inner.profile ∨
        ∃ host, registry.operation = some (.start host entry'.inner.profile (.requesting name))) →
      label.section registry.operation = some (emitter, name, now) →
      ViewEffect registry label registry'

/-- A section writes the entry that it found. -/
theorem Changes.effect {emitter : Emitter} (hentry : registry.heap name = some entry)
    (h : Changes entry.inner entry'.inner)
    (hsection : label.section registry.operation = some (emitter, name, now)) :
    ViewEffect registry label (registry.set_entry name entry') := by
  rcases h with hsame | hrevised
  · exact .shows hentry rfl rfl hsame
  · exact .revises hentry rfl rfl hrevised.draws (.inl hrevised.profile) hsection

theorem ViewEffect.of_same (hentry : registry.heap name = some entry)
    (h : SameView entry.inner entry'.inner) :
    ViewEffect registry label (registry.set_entry name entry') :=
  .shows hentry rfl rfl h

theorem ViewEffect.of_revised {emitter : Emitter} (hentry : registry.heap name = some entry)
    (h : Revised entry.inner entry'.inner)
    (hsection : label.section registry.operation = some (emitter, name, now)) :
    ViewEffect registry label (registry.set_entry name entry') :=
  .revises hentry rfl rfl h.draws (.inl h.profile) hsection

theorem ViewEffect.set_operation (h : ViewEffect registry label registry')
    (operation : Option Operation) : ViewEffect registry label (registry'.set_operation operation) := by
  cases h with
  | still hheap hmade => exact .still hheap hmade
  | makes host tunnel hop hheap hmade => exact .makes host tunnel hop hheap hmade
  | shows hentry hheap hmade hsame => exact .shows hentry hheap hmade hsame
  | revises hentry hheap hmade hdraws hprofile hsection =>
    exact .revises hentry hheap hmade hdraws hprofile hsection

theorem find_entry_view {host : HostProfile} {tunnel : TunnelProfile} {found : AppResult Nat}
    (hop : registry.operation = some (.start host tunnel .looking))
    (h : find_entry registry tunnel = (registry', found)) : ViewEffect registry label registry' := by
  unfold find_entry at h
  dsimp only at h
  split_ifs at h
  · obtain ⟨rfl, -⟩ := Prod.mk.inj h
    exact .still rfl rfl
  · obtain ⟨rfl, -⟩ := Prod.mk.inj h
    exact .still rfl rfl
  · split at h
    · obtain ⟨rfl, -⟩ := Prod.mk.inj h
      exact .still rfl rfl
    · obtain ⟨rfl, -⟩ := Prod.mk.inj h
      exact .makes host tunnel hop rfl rfl

/-- A start that returns shows what is in the entry. -/
theorem ViewEffect.finish_start
    (h : ViewEffect registry label (registry.set_entry name entry.unlock)) :
    ViewEffect registry label (finish_start registry name entry) :=
  h.set_operation none

theorem start_step_view {host : HostProfile} {tunnel : TunnelProfile} {stage : StartStage}
    {event : StartEvent} (hop : registry.operation = some (.start host tunnel stage))
    (h : start_step registry host tunnel stage event now = some registry') :
    ViewEffect registry (.start_step event now) registry' := by
  have hstill : ∀ operation, ViewEffect registry (.start_step event now)
      (registry.set_operation operation) := fun _ => .still rfl rfl
  unfold start_step at h
  split at h
  case h_1 current_host command =>
    split at h
    · exact Option.some.inj h ▸ hstill none
    · split at h
      · exact Option.some.inj h ▸ hstill none
      · split at h
        · exact Option.some.inj h ▸ hstill none
        · split at h
          · next hfound => exact Option.some.inj h ▸ (find_entry_view hop hfound).set_operation none
          · next hfound => exact Option.some.inj h ▸ (find_entry_view hop hfound).set_operation _
  case h_2 name =>
    obtain ⟨entry, hentry, h⟩ := Option.bind_eq_some_iff.mp h
    obtain ⟨_, h⟩ := Option.ite_none_right_eq_some.mp h
    obtain rfl := Option.some.inj h
    apply ViewEffect.set_operation
    exact .of_same hentry (.refl entry.inner)
  case h_3 name =>
    obtain ⟨entry, hentry, h⟩ := Option.bind_eq_some_iff.mp h
    split at h
    · obtain rfl := Option.some.inj h
      apply ViewEffect.finish_start
      exact .of_same hentry (.refl entry.inner)
    · exact Option.some.inj h ▸ hstill _
  case h_4 name =>
    obtain ⟨entry, hentry, h⟩ := Option.bind_eq_some_iff.mp h
    have htakes : SameView entry.inner (take_stale_child entry.inner).1 :=
      ⟨rfl, rfl, rfl, rfl, rfl, rfl, rfl, rfl⟩
    split at h
    · next htaken =>
      rw [htaken] at htakes
      obtain rfl := Option.some.inj h
      apply ViewEffect.set_operation
      exact .of_same hentry htakes
    · next htaken =>
      rw [htaken] at htakes
      obtain rfl := Option.some.inj h
      apply ViewEffect.set_operation
      exact .of_same hentry htakes
  case h_5 name child result =>
    obtain ⟨entry, hentry, h⟩ := Option.bind_eq_some_iff.mp h
    obtain ⟨_, h⟩ := Option.ite_none_right_eq_some.mp h
    cases result with
    | ok =>
      obtain rfl := Option.some.inj h
      apply ViewEffect.set_operation
      exact .of_same hentry (.refl entry.inner)
    | error error =>
      obtain rfl := Option.some.inj h
      apply ViewEffect.finish_start
      exact .of_same hentry (.refl entry.inner)
  case h_6 name =>
    obtain ⟨entry, hentry, h⟩ := Option.bind_eq_some_iff.mp h
    obtain rfl := Option.some.inj h
    have hsection : (Label.start_step .go now).section registry.operation =
        some (.start, name, now) := by rw [hop]; rfl
    apply ViewEffect.set_operation
    have hrevised := request_start_revises entry.inner host tunnel now
    exact .revises hentry rfl rfl hrevised.draws (.inr ⟨host, hrevised.profile ▸ hop⟩) hsection
  case h_7 name generation result =>
    obtain ⟨entry, hentry, h⟩ := Option.bind_eq_some_iff.mp h
    have hsection : (Label.start_step (.spawned result) now).section registry.operation =
        some (.start, name, now) := by rw [hop]; rfl
    cases result with
    | ok =>
      obtain rfl := Option.some.inj h
      apply ViewEffect.finish_start
      exact .of_same hentry (.refl entry.inner)
    | error error =>
      obtain rfl := Option.some.inj h
      apply ViewEffect.finish_start
      exact .of_revised hentry (fail_start_revises entry.inner generation error now) hsection
  case h_8 => simp at h

theorem stop_step_view {task : StopTask} {event : StopEvent} {stage : StopStage}
    (h : stop_step registry task event now = some (registry', stage)) :
    ViewEffect registry (.stop_step task event now) registry' := by
  unfold stop_step at h
  split at h
  case h_1 =>
    split at h
    · obtain ⟨rfl, -⟩ := Prod.mk.inj (Option.some.inj h)
      exact .still rfl rfl
    · obtain ⟨rfl, -⟩ := Prod.mk.inj (Option.some.inj h)
      exact .still rfl rfl
  case h_2 =>
    obtain ⟨entry, hentry, h⟩ := Option.bind_eq_some_iff.mp h
    obtain ⟨_, h⟩ := Option.ite_none_right_eq_some.mp h
    obtain ⟨rfl, -⟩ := Prod.mk.inj (Option.some.inj h)
    exact .of_same hentry (.refl entry.inner)
  case h_3 =>
    obtain ⟨entry, hentry, h⟩ := Option.bind_eq_some_iff.mp h
    have hbegins : SameView entry.inner (begin_stop entry.inner task.retire).1 :=
      ⟨rfl, rfl, rfl, rfl, rfl, rfl, rfl, rfl⟩
    split at h
    · next hbegin =>
      rw [hbegin] at hbegins
      obtain ⟨rfl, -⟩ := Prod.mk.inj (Option.some.inj h)
      exact .of_same hentry hbegins
    · next hbegin =>
      rw [hbegin] at hbegins
      obtain ⟨rfl, -⟩ := Prod.mk.inj (Option.some.inj h)
      exact .of_same hentry hbegins
  case h_4 =>
    obtain ⟨entry, hentry, h⟩ := Option.bind_eq_some_iff.mp h
    obtain ⟨_, h⟩ := Option.ite_none_right_eq_some.mp h
    obtain ⟨rfl, -⟩ := Prod.mk.inj (Option.some.inj h)
    exact .still rfl rfl
  case h_5 name generation child already_stopped termination hstage =>
    obtain ⟨entry, hentry, h⟩ := Option.bind_eq_some_iff.mp h
    obtain ⟨rfl, -⟩ := Prod.mk.inj (Option.some.inj h)
    have hsection : (Label.stop_step task .go now).section registry.operation =
        some (.stop task.tunnel_id, name, now) := by
      unfold Label.section
      simp only [hstage]
    exact .of_revised hentry (settle_stop_revises ..) hsection
  case h_6 => simp at h

theorem finish_stop_view (registry : TunnelRegistry) (tasks : List StopTask) (after : After) :
    (finish_stop registry tasks after).heap = registry.heap ∧
      (finish_stop registry tasks after).made = registry.made := by
  obtain ⟨hheap, hmade, -⟩ := remove_stopped_effect registry tasks
  unfold finish_stop
  split
  · exact ⟨rfl, rfl⟩
  · exact ⟨hheap, hmade⟩
  · split <;> exact ⟨rfl, rfl⟩
  · split <;> exact ⟨hheap, hmade⟩

theorem begin_operation_view {operation : Operation}
    (h : begin_operation registry operation = some registry') :
    ViewEffect registry label registry' := by
  obtain ⟨_, h⟩ := Option.ite_none_right_eq_some.mp h
  exact Option.some.inj h ▸ .still rfl rfl

/-- **What a step shows**: one entry at most, and if it changes then with the
    next revision and in a section that has someone to emit it. -/
theorem next_view (h : registry.next label = some registry') : ViewEffect registry label registry' := by
  cases label with
  | start host tunnel => exact begin_operation_view h
  | restart host tunnel => exact begin_operation_view h
  | stop tunnel_id => exact begin_operation_view h
  | remove tunnel_id => exact begin_operation_view h
  | stop_for_host host_id => exact begin_operation_view h
  | stop_all => exact begin_operation_view h
  | start_step event now =>
    unfold TunnelRegistry.next at h
    dsimp only at h
    split at h
    case h_1 hop => exact start_step_view hop h
    case h_2 => simp at h
  | stop_step task event now =>
    unfold TunnelRegistry.next at h
    dsimp only at h
    split at h
    case h_1 tasks after hop =>
      obtain ⟨_, h⟩ := Option.ite_none_right_eq_some.mp h
      obtain ⟨⟨stepped, stage⟩, hstep, h⟩ := Option.bind_eq_some_iff.mp h
      exact Option.some.inj h ▸ (stop_step_view hstep).set_operation _
    case h_2 => simp at h
  | finish =>
    unfold TunnelRegistry.next at h
    dsimp only at h
    split at h
    case h_1 tasks after hop =>
      obtain ⟨_, h⟩ := Option.ite_none_right_eq_some.mp h
      obtain ⟨hheap, hmade⟩ := finish_stop_view registry tasks after
      exact Option.some.inj h ▸ .still hheap hmade
    case h_2 => simp at h
  | work name worker event now =>
    obtain ⟨entry, hentry, h⟩ := Option.bind_eq_some_iff.mp h
    obtain ⟨_, h⟩ := Option.ite_none_right_eq_some.mp h
    obtain ⟨worked, hwork, h⟩ := Option.bind_eq_some_iff.mp h
    exact Option.some.inj h ▸ (work_view hwork).effect hentry rfl
  | process_line name generation line truncated now =>
    obtain ⟨entry, hentry, h⟩ := Option.bind_eq_some_iff.mp h
    obtain ⟨_, h⟩ := Option.ite_none_right_eq_some.mp h
    have hview := record_process_line_view entry.inner generation line truncated now
    obtain rfl := Option.some.inj h
    exact hview.effect hentry rfl
  | child_exits name child =>
    obtain ⟨entry, hentry, h⟩ := Option.bind_eq_some_iff.mp h
    exact Option.some.inj h ▸ .of_same hentry (.refl entry.inner)

/-! ### Events and entries -/

/-- A snapshot of the entry as it is. -/
def Shows (snapshot : TunnelSnapshot) (inner : TunnelInner) : Prop :=
  ∃ now, snapshot = snapshot_locked inner now ∨ snapshot = current_event_locked inner now

theorem SameView.current_event (h : SameView inner inner') (now : Timestamp) :
    current_event_locked inner' now = current_event_locked inner now := by
  unfold current_event_locked
  rw [h.revision, h.profile, h.state, h.health, h.started_at, h.reconnect_count, h.message]

theorem Shows.same_view (h : Shows snapshot inner) (hsame : SameView inner inner') :
    Shows snapshot inner' := by
  obtain ⟨now, hshows⟩ := h
  refine ⟨now, ?_⟩
  unfold snapshot_locked at hshows ⊢
  rw [hsame.current_event, hsame.logs]
  exact hshows

/-- The snapshots of an entry that have been emitted, in order. -/
def EventRegistry.published_of (events : EventRegistry) (name : Nat) : List TunnelSnapshot :=
  (events.published.filter fun item => item.1 = name).map Prod.snd

/-- The snapshots that are pending or have been emitted. -/
def EventRegistry.known (events : EventRegistry) : List (Nat × TunnelSnapshot) :=
  events.pending.map (fun event => (event.entry, event.snapshot)) ++ events.published

theorem mem_published_of :
    snapshot ∈ events.published_of name ↔ (name, snapshot) ∈ events.published := by
  simp [EventRegistry.published_of]

theorem mem_known {item : Nat × TunnelSnapshot} :
    item ∈ events.known ↔
      (∃ event ∈ events.pending, (event.entry, event.snapshot) = item) ∨ item ∈ events.published := by
  simp [EventRegistry.known]

theorem registry_inner_eq (hentry : registry.heap name = some entry) :
    registry.inner name = some entry.inner := by
  simp [TunnelRegistry.inner, hentry]

/-- An entry after a step is a new one, or it has changed in its section only. -/
theorem ViewEffect.before (h : ViewEffect registry label registry')
    (hinner : registry'.inner name = some inner') :
    name = registry.made ∧ inner'.revision = 0 ∨
      ∃ inner, registry.inner name = some inner ∧
        (SameView inner inner' ∨ Draws inner inner' ∧
          ∃ emitter now, label.section registry.operation = some (emitter, name, now)) := by
  obtain ⟨entry', hentry', rfl⟩ := Option.map_eq_some_iff.mp hinner
  cases h with
  | still hheap _ =>
    rw [hheap] at hentry'
    exact .inr ⟨entry'.inner, registry_inner_eq hentry', .inl (.refl entry'.inner)⟩
  | makes host tunnel _ hheap _ =>
    rw [hheap, Function.update_apply] at hentry'
    split at hentry'
    · next hname =>
      obtain rfl := Option.some.inj hentry'
      exact .inl ⟨hname, rfl⟩
    · exact .inr ⟨entry'.inner, registry_inner_eq hentry', .inl (.refl entry'.inner)⟩
  | @shows written entry written' hentry hheap _ hsame =>
    rw [hheap, Function.update_apply] at hentry'
    split at hentry'
    · next hname =>
      obtain rfl := Option.some.inj hentry'
      exact .inr ⟨entry.inner, hname ▸ registry_inner_eq hentry, .inl hsame⟩
    · exact .inr ⟨entry'.inner, registry_inner_eq hentry', .inl (.refl entry'.inner)⟩
  | @revises written entry written' emitter now hentry hheap _ hdraws _ hsection =>
    rw [hheap, Function.update_apply] at hentry'
    split at hentry'
    · next hname =>
      obtain rfl := Option.some.inj hentry'
      exact .inr ⟨entry.inner, hname ▸ registry_inner_eq hentry,
        .inr ⟨hdraws, emitter, now, hname ▸ hsection⟩⟩
    · exact .inr ⟨entry'.inner, registry_inner_eq hentry', .inl (.refl entry'.inner)⟩

/-- The profile of an entry is that of a start that is at work on it, or the
    one that it had. -/
def KeepsProfile (registry : TunnelRegistry) (name : Nat) (inner inner' : TunnelInner) : Prop :=
  inner'.profile = inner.profile ∨
    ∃ host, registry.operation = some (.start host inner'.profile (.requesting name))

/-- An entry stays. -/
theorem ViewEffect.after (h : ViewEffect registry label registry')
    (hfresh : registry.heap registry.made = none) (hinner : registry.inner name = some inner) :
    ∃ inner', registry'.inner name = some inner' ∧ (SameView inner inner' ∨ Draws inner inner') ∧
      KeepsProfile registry name inner inner' := by
  obtain ⟨entry, hentry, rfl⟩ := Option.map_eq_some_iff.mp hinner
  have hkept : registry'.heap name = some entry →
      ∃ inner', registry'.inner name = some inner' ∧
        (SameView entry.inner inner' ∨ Draws entry.inner inner') ∧
          KeepsProfile registry name entry.inner inner' :=
    fun hkept => ⟨entry.inner, registry_inner_eq hkept, .inl (.refl entry.inner), .inl rfl⟩
  cases h with
  | still hheap _ => exact hkept (hheap ▸ hentry)
  | makes host tunnel _ hheap _ =>
    have hother : name ≠ registry.made := by
      rintro rfl
      rw [hfresh] at hentry
      exact absurd hentry.symm (Option.some_ne_none entry)
    apply hkept
    rw [hheap, Function.update_of_ne hother]
    exact hentry
  | @shows written found written' hfound hheap _ hsame =>
    by_cases hname : name = written
    · subst hname
      obtain rfl := Option.some.inj (hfound.symm.trans hentry)
      have hwritten : registry'.heap name = some written' := by rw [hheap, Function.update_self]
      exact ⟨written'.inner, registry_inner_eq hwritten, .inl hsame, .inl hsame.profile⟩
    · apply hkept
      rw [hheap, Function.update_of_ne hname]
      exact hentry
  | @revises written found written' emitter now hfound hheap _ hdraws hprofile _ =>
    by_cases hname : name = written
    · subst hname
      obtain rfl := Option.some.inj (hfound.symm.trans hentry)
      have hwritten : registry'.heap name = some written' := by rw [hheap, Function.update_self]
      exact ⟨written'.inner, registry_inner_eq hwritten, .inr hdraws, hprofile⟩
    · apply hkept
      rw [hheap, Function.update_of_ne hname]
      exact hentry

/-- The names of later entries stay unused. -/
theorem ViewEffect.fresh (h : ViewEffect registry label registry')
    (hfresh : ∀ later, registry.made ≤ later → registry.heap later = none) :
    ∀ later, registry'.made ≤ later → registry'.heap later = none := by
  intro later hlater
  have hused : ∀ {used : Nat} {entry : TunnelEntry}, registry.heap used = some entry →
      registry.made ≤ later → later ≠ used := by
    rintro used entry hentry hle rfl
    rw [hfresh later hle] at hentry
    exact absurd hentry.symm (Option.some_ne_none entry)
  cases h with
  | still hheap hmade =>
    rw [hmade] at hlater
    exact hheap ▸ hfresh later hlater
  | makes host tunnel _ hheap hmade =>
    rw [hmade] at hlater
    rw [hheap, Function.update_of_ne (by omega)]
    exact hfresh later (by omega)
  | shows hentry hheap hmade _ =>
    rw [hmade] at hlater
    rw [hheap, Function.update_of_ne (hused hentry hlater)]
    exact hfresh later hlater
  | revises hentry hheap hmade _ _ _ =>
    rw [hmade] at hlater
    rw [hheap, Function.update_of_ne (hused hentry hlater)]
    exact hfresh later hlater

/-- An event that a step makes shows the entry after it. -/
theorem made_event_shows {event : PendingEvent}
    (h : event ∈ made_events registry label registry') :
    ∃ inner', registry'.inner event.entry = some inner' ∧
      event.snapshot.revision = inner'.revision ∧ Shows event.snapshot inner' := by
  unfold made_events at h
  split at h
  · simp at h
  · next emitter name now _ =>
    split at h
    · next before after hbefore hafter =>
      split at h
      · split at h
        · simp at h
        · obtain rfl := List.mem_singleton.mp h
          exact ⟨after, hafter, rfl, now, .inl rfl⟩
      · split at h
        · obtain rfl := List.mem_singleton.mp h
          exact ⟨after, hafter, rfl, now, .inr rfl⟩
        · simp at h
    · simp at h

/-- A revision that is drawn aloud makes an event. -/
theorem revised_event {emitter : Emitter}
    (hsection : label.section registry.operation = some (emitter, name, now))
    (hsilent : label.silent = false) (hinner : registry.inner name = some inner)
    (hinner' : registry'.inner name = some inner') (hlt : inner.revision < inner'.revision) :
    ⟨emitter, name, snapshot_locked inner' now⟩ ∈ made_events registry label registry' := by
  unfold made_events
  simp only [hsection, hinner, hinner', hlt, hsilent]
  exact List.mem_singleton_self _

/-! ### Revisions never decrease -/

/-- The revisions of the known snapshots are those of their entries or
    earlier ones, and were emitted in order. -/
structure EventInv (events : EventRegistry) : Prop where
  fresh : ∀ later, events.registry.made ≤ later → events.registry.heap later = none
  revision_le : ∀ name inner, events.registry.inner name = some inner → inner.revision ≤ MAX_U64
  known_le : ∀ item ∈ events.known, ∃ inner, events.registry.inner item.1 = some inner ∧
    item.2.revision ≤ inner.revision
  ordered : ∀ name, (events.published_of name).Pairwise fun a b => a.revision ≤ b.revision

theorem eventInv_default : EventInv .default where
  fresh _ _ := rfl
  revision_le name inner h := by simp [EventRegistry.default, TunnelRegistry.default,
    TunnelRegistry.inner] at h
  known_le item h := by simp [EventRegistry.default, EventRegistry.known] at h
  ordered _ := List.Pairwise.nil

/-- A step of the registry or an emission. -/
theorem next_events {label : EventLabel} (h : events.next label = some events') :
    (∃ step registry', label = .step step ∧ events.registry.next step = some registry' ∧
      events' =
        { events with
          registry := registry'
          pending := events.pending ++ made_events events.registry step registry' }) ∨
      ∃ event, label = .emit event ∧ event ∈ events.pending ∧ events' = events.emit event := by
  unfold EventRegistry.next at h
  split at h
  · split at h
    · simp at h
    · obtain ⟨registry', hnext, rfl⟩ := Option.map_eq_some_iff.mp h
      exact .inl ⟨_, registry', rfl, hnext, rfl⟩
  · obtain ⟨hpending, h⟩ := Option.ite_none_right_eq_some.mp h
    exact .inr ⟨_, rfl, hpending, (Option.some.inj h).symm⟩

theorem known_step {made : List PendingEvent} {item : Nat × TunnelSnapshot}
    (hevents' : events' = { events with registry := registry', pending := events.pending ++ made }) :
    item ∈ events'.known ↔ item ∈ events.known ∨
      ∃ event ∈ made, (event.entry, event.snapshot) = item := by
  subst hevents'
  rw [mem_known, mem_known]
  simp only [List.mem_append]
  constructor
  · rintro (⟨event, hevent | hevent, hitem⟩ | hitem)
    · exact .inl (.inl ⟨event, hevent, hitem⟩)
    · exact .inr ⟨event, hevent, hitem⟩
    · exact .inl (.inr hitem)
  · rintro ((⟨event, hevent, hitem⟩ | hitem) | ⟨event, hevent, hitem⟩)
    · exact .inl ⟨event, .inl hevent, hitem⟩
    · exact .inr hitem
    · exact .inl ⟨event, .inr hevent, hitem⟩

/-- The entry has the revision of the event. -/
def EventRegistry.is_current (events : EventRegistry) (event : PendingEvent) : Bool :=
  (events.registry.inner event.entry).any fun inner => inner.revision = event.snapshot.revision

theorem emit_published (events : EventRegistry) (event : PendingEvent) :
    (events.emit event).published =
      if events.is_current event then events.published ++ [(event.entry, event.snapshot)]
      else events.published :=
  rfl

theorem known_of_emit {event : PendingEvent} (hevent : event ∈ events.pending)
    {item : Nat × TunnelSnapshot} (h : item ∈ (events.emit event).known) : item ∈ events.known := by
  have hemitted : (event.entry, event.snapshot) ∈ events.known :=
    mem_known.mpr (.inl ⟨event, hevent, rfl⟩)
  rcases mem_known.mp h with ⟨other, hother, hitem⟩ | hitem
  · exact mem_known.mpr (.inl ⟨other, List.mem_of_mem_erase hother, hitem⟩)
  · rw [emit_published] at hitem
    split at hitem
    · rcases List.mem_append.mp hitem with hitem | hitem
      · exact mem_known.mpr (.inr hitem)
      · exact List.mem_singleton.mp hitem ▸ hemitted
    · exact mem_known.mpr (.inr hitem)

/-- An emission forgets an event only if its entry has another revision. -/
theorem known_emit (event : PendingEvent) {item : Nat × TunnelSnapshot} (h : item ∈ events.known) :
    item ∈ (events.emit event).known ∨
      item = (event.entry, event.snapshot) ∧ events.is_current event = false := by
  rcases mem_known.mp h with ⟨other, hother, hitem⟩ | hitem
  · by_cases hsame : other = event
    · subst hsame
      cases hcurrent : events.is_current other with
      | false => exact .inr ⟨hitem.symm, rfl⟩
      | true =>
        refine .inl (mem_known.mpr (.inr ?_))
        rw [emit_published, if_pos hcurrent]
        exact List.mem_append_right _ (List.mem_singleton.mpr hitem.symm)
    · exact .inl (mem_known.mpr (.inl ⟨other, (List.mem_erase_of_ne hsame).mpr hother, hitem⟩))
  · refine .inl (mem_known.mpr (.inr ?_))
    rw [emit_published]
    split
    · exact List.mem_append_left _ hitem
    · exact hitem

theorem is_current_iff {event : PendingEvent} :
    events.is_current event = true ↔
      ∃ inner, events.registry.inner event.entry = some inner ∧
        inner.revision = event.snapshot.revision := by
  unfold EventRegistry.is_current
  rw [Option.any_eq_true]
  simp only [decide_eq_true_eq]

theorem EventInv.emit (h : EventInv events) {event : PendingEvent} (hevent : event ∈ events.pending) :
    EventInv (events.emit event) := by
  refine ⟨h.fresh, h.revision_le, fun item hitem => h.known_le item (known_of_emit hevent hitem),
    fun name => ?_⟩
  unfold EventRegistry.published_of
  rw [emit_published]
  split
  · next hcurrent =>
    obtain ⟨inner, hinner, hrevision⟩ := is_current_iff.mp hcurrent
    rw [List.filter_append, List.map_append]
    by_cases hname : event.entry = name
    · -- what was emitted before has the revision of the entry or an earlier one
      have hlast : ∀ earlier ∈ events.published_of name, earlier.revision ≤ event.snapshot.revision := by
        intro earlier hearlier
        have hknown : (name, earlier) ∈ events.known :=
          mem_known.mpr (.inr (mem_published_of.mp hearlier))
        obtain ⟨found, hfound, hle⟩ := h.known_le _ hknown
        have hsame : found = inner := Option.some.inj (hfound.symm.trans (hname ▸ hinner))
        rw [hsame, hrevision] at hle
        exact hle
      simp only [hname, List.filter_cons_of_pos, List.filter_nil, List.map_cons, List.map_nil,
        decide_true]
      exact List.pairwise_append.mpr ⟨h.ordered name, List.pairwise_singleton _ _,
        fun earlier hearlier last hmem => List.mem_singleton.mp hmem ▸ hlast earlier hearlier⟩
    · simp only [hname, List.filter_cons_of_neg, List.filter_nil, List.map_nil, List.append_nil,
        decide_false, Bool.false_eq_true, not_false_eq_true]
      exact h.ordered name
  · exact h.ordered name

theorem EventInv.step (h : EventInv events) {step : Label}
    (hnext : events.registry.next step = some registry')
    (hevents' : events' =
      { events with
        registry := registry'
        pending := events.pending ++ made_events events.registry step registry' }) :
    EventInv events' := by
  have hview := next_view hnext
  have hregistry : events'.registry = registry' := by rw [hevents']
  have hpublished : events'.published = events.published := by rw [hevents']
  refine ⟨?_, fun name inner' hinner' => ?_, fun item hitem => ?_, fun name => ?_⟩
  · rw [hregistry]
    exact hview.fresh h.fresh
  · rw [hregistry] at hinner'
    rcases hview.before hinner' with ⟨_, hzero⟩ | ⟨inner, hinner, hsame | ⟨hdraws, _⟩⟩
    · omega
    · exact (revision_grows (.inl hsame) (h.revision_le name inner hinner)).2
    · exact (revision_grows (.inr hdraws) (h.revision_le name inner hinner)).2
  · rw [hregistry]
    rcases (known_step hevents').mp hitem with hknown | ⟨event, hevent, rfl⟩
    · obtain ⟨inner, hinner, hle⟩ := h.known_le item hknown
      obtain ⟨inner', hinner', hchanges, _⟩ := hview.after (h.fresh _ le_rfl) hinner
      have hgrows := (revision_grows hchanges (h.revision_le _ inner hinner)).1
      exact ⟨inner', hinner', hle.trans hgrows⟩
    · obtain ⟨inner', hinner', hrevision, _⟩ := made_event_shows hevent
      exact ⟨inner', hinner', hrevision.le⟩
  · show ((events'.published.filter fun item => item.1 = name).map Prod.snd).Pairwise _
    rw [hpublished]
    exact h.ordered name

theorem EventInv.next (h : EventInv events) {label : EventLabel}
    (hnext : events.next label = some events') : EventInv events' := by
  rcases next_events hnext with ⟨step, registry', _, hstep, hevents'⟩ | ⟨event, _, hevent, rfl⟩
  · exact h.step hstep hevents'
  · exact h.emit hevent

theorem reachable_eventInv (h : tunnel_events.Reachable events) : EventInv events := by
  refine h.invariant ?_ ?_
  · rintro events rfl
    exact eventInv_default
  · intro events label events' hinv _ hnext
    exact hinv.next hnext

/-! ### The last event shows the entry -/

/-- No stop is silent and no revision has run out. -/
def reported (events : EventRegistry) : EventLabel → Bool
  | .step label =>
      !label.silent &&
        match label.section events.registry.operation with
        | some (_, name, _) =>
            (events.registry.inner name).all fun inner => inner.revision < MAX_U64
        | none => true
  | .emit _ => true

/-- An entry with a revision has a snapshot that shows it. -/
structure ShownInv (events : EventRegistry) : Prop where
  shows : ∀ item ∈ events.known, ∀ inner, events.registry.inner item.1 = some inner →
    item.2.revision = inner.revision → Shows item.2 inner
  emitted : ∀ name inner, events.registry.inner name = some inner → inner.revision = 0 ∨
    ∃ snapshot, (name, snapshot) ∈ events.known ∧ snapshot.revision = inner.revision

theorem shownInv_default : ShownInv .default where
  shows item h := by simp [EventRegistry.default, EventRegistry.known] at h
  emitted name inner h := by simp [EventRegistry.default, TunnelRegistry.default,
    TunnelRegistry.inner] at h

theorem ShownInv.emit (h : ShownInv events) {event : PendingEvent} (hevent : event ∈ events.pending) :
    ShownInv (events.emit event) := by
  refine ⟨fun item hitem => h.shows item (known_of_emit hevent hitem), fun name inner hinner => ?_⟩
  have hinner : events.registry.inner name = some inner := hinner
  rcases h.emitted name inner hinner with hzero | ⟨snapshot, hknown, hrevision⟩
  · exact .inl hzero
  · rcases known_emit event hknown with hkept | ⟨hitem, hstale⟩
    · exact .inr ⟨snapshot, hkept, hrevision⟩
    · -- the event has the revision of the entry, so that it is not stale
      obtain ⟨rfl, rfl⟩ := Prod.mk.inj hitem
      have hcurrent := is_current_iff.mpr ⟨inner, hinner, hrevision.symm⟩
      exact absurd (hcurrent.symm.trans hstale) (by simp)

theorem ShownInv.step (h : ShownInv events) (hinv : EventInv events) {step : Label}
    (hreported : reported events (.step step) = true)
    (hnext : events.registry.next step = some registry')
    (hevents' : events' =
      { events with
        registry := registry'
        pending := events.pending ++ made_events events.registry step registry' }) :
    ShownInv events' := by
  have hview := next_view hnext
  have hregistry : events'.registry = registry' := by rw [hevents']
  obtain ⟨hsilent, hbounded⟩ := Bool.and_eq_true_iff.mp hreported
  have hsilent : step.silent = false := by simpa using hsilent
  -- a section that draws a revision draws a later one
  have hlater : ∀ {name : Nat} {emitter : Emitter} {now : Timestamp} {inner inner' : TunnelInner},
      step.section events.registry.operation = some (emitter, name, now) →
      events.registry.inner name = some inner → Draws inner inner' →
        inner.revision < inner'.revision := by
    intro name emitter now inner inner' hsection hinner hdraws
    have hrevision : inner'.revision = min (inner.revision + 1) MAX_U64 := hdraws
    simp only [hsection, hinner, Option.all_some, decide_eq_true_eq] at hbounded
    omega
  constructor
  · intro item hitem inner' hinner' hrevision
    rw [hregistry] at hinner'
    rcases (known_step hevents').mp hitem with hknown | ⟨event, hevent, rfl⟩
    · obtain ⟨before, hbefore, hle⟩ := hinv.known_le item hknown
      rcases hview.before hinner' with ⟨hname, _⟩ | ⟨inner, hinner, hsame | ⟨hdraws, _, _, hsection⟩⟩
      · obtain ⟨entry, hentry, _⟩ := Option.map_eq_some_iff.mp hbefore
        rw [hname, hinv.fresh _ le_rfl] at hentry
        exact absurd hentry.symm (Option.some_ne_none entry)
      · have hrevision := hrevision.trans hsame.revision
        exact (h.shows item hknown inner hinner hrevision).same_view hsame
      · obtain rfl := Option.some.inj (hbefore.symm.trans hinner)
        have hlt := hlater hsection hinner hdraws
        omega
    · obtain ⟨found, hfound, _, hshows⟩ := made_event_shows hevent
      obtain rfl := Option.some.inj (hfound.symm.trans hinner')
      exact hshows
  · intro name inner' hinner'
    rw [hregistry] at hinner'
    rcases hview.before hinner' with
      ⟨_, hzero⟩ | ⟨inner, hinner, hsame | ⟨hdraws, emitter, now, hsection⟩⟩
    · exact .inl hzero
    · rcases h.emitted name inner hinner with hzero | ⟨snapshot, hknown, hrevision⟩
      · exact .inl (hsame.revision.trans hzero)
      · exact .inr ⟨snapshot, (known_step hevents').mpr (.inl hknown),
          hrevision.trans hsame.revision.symm⟩
    · have hmade := revised_event hsection hsilent hinner hinner' (hlater hsection hinner hdraws)
      exact .inr ⟨_, (known_step hevents').mpr (.inr ⟨_, hmade, rfl⟩), rfl⟩

theorem reachable_shownInv
    (h : tunnel_events.ReachableWhen (fun events label => reported events label = true) events) :
    EventInv events ∧ ShownInv events := by
  induction h with
  | init hinit => exact hinit ▸ ⟨eventInv_default, shownInv_default⟩
  | @step events events' label hreach hreported hnext ih =>
    obtain ⟨hinv, hshown⟩ := ih
    refine ⟨hinv.next hnext, ?_⟩
    rcases next_events hnext with ⟨step, registry', rfl, hstep, hevents'⟩ | ⟨event, _, hevent, rfl⟩
    · exact hshown.step hinv hreported hstep hevents'
    · exact hshown.emit hevent

/-- An event says of its tunnel what the listing says, but that it may come
    without the logs and that the uptime goes on. -/
structure TunnelSnapshot.Tells (event listed : TunnelSnapshot) : Prop where
  tunnel_id : event.tunnel_id = listed.tunnel_id
  revision : event.revision = listed.revision
  profile : event.profile = listed.profile
  state : event.state = listed.state
  health : event.health = listed.health
  uptime_seconds : event.uptime_seconds.isSome = listed.uptime_seconds.isSome
  reconnect_count : event.reconnect_count = listed.reconnect_count
  message : event.message = listed.message
  logs : event.logs = listed.logs ∨ event.logs = none

theorem Shows.tells (h : Shows snapshot inner) (now : Timestamp) :
    snapshot.Tells (snapshot_locked inner now) := by
  obtain ⟨at_event, rfl | rfl⟩ := h
  · exact ⟨rfl, rfl, rfl, rfl, rfl, by simp [snapshot_locked, current_event_locked], rfl, rfl, .inl rfl⟩
  · exact ⟨rfl, rfl, rfl, rfl, rfl, by simp [snapshot_locked, current_event_locked], rfl, rfl, .inr rfl⟩

/-- The last of snapshots in order has the highest revision. -/
theorem revision_le_last {snapshots : List TunnelSnapshot} {last : TunnelSnapshot}
    (hordered : snapshots.Pairwise fun a b => a.revision ≤ b.revision)
    (hlast : snapshots.getLast? = some last) (hmem : snapshot ∈ snapshots) :
    snapshot.revision ≤ last.revision := by
  obtain ⟨front, rfl⟩ := List.getLast?_eq_some_iff.mp hlast
  rcases List.mem_append.mp hmem with hfront | hmem
  · exact (List.pairwise_append.mp hordered).2.2 snapshot hfront last (List.mem_singleton_self _)
  · rw [List.mem_singleton.mp hmem]

/-- An entry that has no pending event has been shown by its last one. -/
theorem last_event_shows (hinv : EventInv events) (hshown : ShownInv events)
    (hinner : events.registry.inner name = some inner)
    (hidle : ∀ event ∈ events.pending, event.entry ≠ name) :
    match (events.published_of name).getLast? with
    | some last => Shows last inner
    | none => inner.revision = 0 := by
  have hpublished : ∀ snapshot, (name, snapshot) ∈ events.known →
      snapshot ∈ events.published_of name := by
    intro snapshot hknown
    rcases mem_known.mp hknown with ⟨event, hevent, hitem⟩ | hitem
    · exact absurd (congrArg Prod.fst hitem) (hidle event hevent)
    · exact mem_published_of.mpr hitem
  cases hlast : (events.published_of name).getLast? with
  | none =>
    have hnil := List.getLast?_eq_none_iff.mp hlast
    rcases hshown.emitted name inner hinner with hzero | ⟨snapshot, hknown, _⟩
    · exact hzero
    · have hmem := hpublished snapshot hknown
      rw [hnil] at hmem
      exact absurd hmem List.not_mem_nil
  | some last =>
    have hmem := mem_published_of.mp (List.mem_of_getLast? hlast)
    have hknown : (name, last) ∈ events.known := mem_known.mpr (.inr hmem)
    obtain ⟨found, hfound, hle⟩ := hinv.known_le _ hknown
    obtain rfl := Option.some.inj (hfound.symm.trans hinner)
    refine hshown.shows _ hknown found hfound (le_antisymm hle ?_)
    rcases hshown.emitted name found hinner with hzero | ⟨snapshot, hlatest, hrevision⟩
    · omega
    · rw [← hrevision]
      exact revision_le_last (hinv.ordered name) hlast (hpublished snapshot hlatest)

/-- The listing of a tunnel that has not been saved anew since it was started. -/
theorem snapshot_for_entry {tunnel : TunnelProfile}
    (hlookup : registry.entries.lookup tunnel.id = some name)
    (hinner : registry.inner name = some inner) (hretired : inner.retired = false)
    (hprofile : inner.profile = tunnel) (now : Timestamp) :
    registry.snapshot_for tunnel now = snapshot_locked inner now := by
  unfold TunnelRegistry.snapshot_for
  simp [hlookup, hinner, hretired, hprofile]

/-- A run of the registry in which every event is emitted at once. -/
def prompt_labels (events : EventRegistry) : List Label → List EventLabel
  | [] => []
  | label :: labels =>
      match events.next (.step label) with
      | none => [.step label]
      | some stepped =>
          match stepped.pending with
          | [] => .step label :: prompt_labels stepped labels
          | event :: _ => .step label :: .emit event :: prompt_labels (stepped.emit event) labels

/-- A tunnel whose health is not checked. -/
def plain_tunnel (source_port : UInt16) (auto_reconnect : Bool) : TunnelProfile :=
  { web_tunnel source_port with auto_reconnect := auto_reconnect, health_check := none }

def plain_worker (auto_reconnect : Bool) (stage : WorkerStage) : Worker :=
  { first_worker stage with tunnel := plain_tunnel 8080 auto_reconnect }

def plain_attempt (announced_running : Bool) : Attempt :=
  { Attempt.start (plain_tunnel 8080 true) 0 with announced_running := announced_running }

/-- The tunnel is started and its worker stores the first child. -/
def plain_start (auto_reconnect : Bool) : List Label :=
  start_labels (plain_tunnel 8080 auto_reconnect) ++
    [.work 0 (plain_worker auto_reconnect .starting) .go 0,
      .work 0 (plain_worker auto_reconnect .resolving) .resolved 0,
      .work 0 (plain_worker auto_reconnect .locking) .go 0,
      .work 0 (plain_worker auto_reconnect .checking) .go 0,
      .work 0 (plain_worker auto_reconnect .spawning) (.spawned (.ok ())) 0,
      .work 0 (plain_worker auto_reconnect (.publishing 0)) .go 0]

/-- The worker announces that the tunnel runs, and how long it does. -/
def uptime_labels : List Label :=
  [.work 0 (plain_worker true (.polling (plain_attempt false))) (.polled .running) 1000,
    .work 0 (plain_worker true (.announcing (plain_attempt false))) .go 1000,
    .work 0 (plain_worker true (.probing (plain_attempt true))) .go 1000,
    .work 0 (plain_worker true (.reporting (plain_attempt true))) .go 1000]

/-- No operation and no worker is under way and no event is pending. -/
structure EventRegistry.Quiescent (events : EventRegistry) : Prop where
  pending : events.pending = []
  operation : events.registry.operation = none
  workers : ∀ name entry, events.registry.heap name = some entry → entry.workers = []

/-- Some run comes to rest with a last event of the tunnel that is not what
    the listing shows. -/
def EndsApart (tunnel : TunnelProfile) : Prop :=
  ∃ events last, tunnel_events.Reachable events ∧ events.Quiescent ∧
    events.registry.entries.lookup tunnel.id = some 0 ∧
      (events.published_of 0).getLast? = some last ∧
        ∀ now, last ≠ events.registry.snapshot_for tunnel now

/-- A snapshot without the time. -/
def TunnelSnapshot.untimed (snapshot : TunnelSnapshot) : TunnelSnapshot :=
  { snapshot with uptime_seconds := none }

theorem snapshot_for_untimed (registry : TunnelRegistry) (tunnel : TunnelProfile)
    (now now' : Timestamp) :
    (registry.snapshot_for tunnel now).untimed = (registry.snapshot_for tunnel now').untimed := by
  unfold TunnelRegistry.snapshot_for
  split
  · rfl
  · split
    · rfl
    · split <;> rfl

/-- What a replay of one entry has to come to. -/
def ends_apart (tunnel : TunnelProfile) (events : EventRegistry) : Bool :=
  events.pending.isEmpty && decide (events.registry.operation = none) &&
    decide (events.registry.made = 1) &&
    ((events.registry.heap 0).any fun entry => entry.workers.isEmpty) &&
    decide (events.registry.entries.lookup tunnel.id = some 0) &&
    (events.published_of 0).getLast?.any fun last =>
      decide (last.untimed ≠ (events.registry.snapshot_for tunnel 0).untimed)

theorem endsApart_of_replay {tunnel : TunnelProfile} {labels : List EventLabel}
    (h : (tunnel_events.replay (fun _ _ => true) .default labels).any (ends_apart tunnel) = true) :
    EndsApart tunnel := by
  obtain ⟨events, hreach, hp⟩ := Machine.reachable_of_replay (m := tunnel_events) (fun _ _ => true)
    (fun _ _ _ => trivial) rfl labels _ h
  simp only [ends_apart, Bool.and_eq_true, decide_eq_true_eq, Option.any_eq_true,
    List.isEmpty_iff] at hp
  obtain ⟨⟨⟨⟨⟨hidle, hop⟩, hmade⟩, entry, hentry, hworkers⟩, hlookup⟩, last, hlast, hapart⟩ := hp
  refine ⟨events, last, hreach, ⟨hidle, hop, fun name found hfound => ?_⟩, hlookup, hlast, ?_⟩
  · have hfresh := (reachable_eventInv hreach).fresh
    by_cases hname : name = 0
    · rw [hname, hentry] at hfound
      exact Option.some.inj hfound ▸ hworkers
    · rw [hfresh name (by omega)] at hfound
      exact absurd hfound.symm (Option.some_ne_none found)
  · rintro now rfl
    exact hapart (snapshot_for_untimed ..)

/-- The events of a tunnel, whatever its entry. -/
def EventRegistry.revisions_of (events : EventRegistry) (tunnel_id : Text) : List Nat :=
  (events.published.filter fun item => item.2.tunnel_id = tunnel_id).map fun item => item.2.revision

/-- A stop of a plain tunnel. -/
def plain_stop (retire : Bool) (stage : StopStage) : StopTask where
  tunnel_id := (plain_tunnel 8080 true).id
  retire := retire
  stage := stage

end Tunnel
