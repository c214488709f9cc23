import RemoteDeck.Tunnel.Registry

/-! # What the steps of a tunnel do

    The proofs about tunnels look at the part of an entry that decides which
    worker may spawn and where the handle of a child is (`SameControl`).
    What a step of a worker does to an entry is said once (`WorkEffect`,
    `work_effect`), by the lock, the handles and the flags that it changes.
-/

namespace Tunnel

variable {inner inner' : TunnelInner} {entry entry' : TunnelEntry} {worker next : Worker}
  {generation : Nat} {now : Timestamp}

/-! ### Control -/

/-- Two contents of an entry that differ in what is shown only. -/
structure SameControl (inner inner' : TunnelInner) : Prop where
  generation : inner'.generation = inner.generation
  desired_running : inner'.desired_running = inner.desired_running
  child : inner'.child = inner.child
  retired : inner'.retired = inner.retired
  tunnel : inner'.profile.id = inner.profile.id

/-- The worker has given up: the tunnel is no longer desired. -/
structure GivesUp (inner inner' : TunnelInner) : Prop where
  generation : inner'.generation = inner.generation
  desired_running : inner'.desired_running = false
  child : inner'.child = inner.child
  retired : inner'.retired = inner.retired
  tunnel : inner'.profile.id = inner.profile.id

theorem SameControl.refl (inner : TunnelInner) : SameControl inner inner := ⟨rfl, rfl, rfl, rfl, rfl⟩

theorem SameControl.trans {inner'' : TunnelInner} (h : SameControl inner inner')
    (h' : SameControl inner' inner'') : SameControl inner inner'' :=
  ⟨h'.generation.trans h.generation, h'.desired_running.trans h.desired_running,
    h'.child.trans h.child, h'.retired.trans h.retired, h'.tunnel.trans h.tunnel⟩

theorem GivesUp.trans {inner'' : TunnelInner} (h : GivesUp inner inner')
    (h' : SameControl inner' inner'') : GivesUp inner inner'' :=
  ⟨h'.generation.trans h.generation, h'.desired_running.trans h.desired_running,
    h'.child.trans h.child, h'.retired.trans h.retired, h'.tunnel.trans h.tunnel⟩

theorem append_log_control (inner : TunnelInner) (level : TunnelLogLevel) (message : Text)
    (now : Timestamp) : SameControl inner (append_log_locked inner level message now) := by
  unfold append_log_locked
  dsimp only
  split
  · exact .refl inner
  · exact ⟨rfl, rfl, rfl, rfl, rfl⟩

theorem pending_event_control (inner : TunnelInner) :
    SameControl inner (pending_event_locked inner) :=
  ⟨rfl, rfl, rfl, rfl, rfl⟩

theorem SameControl.logged (h : SameControl inner inner') (level : TunnelLogLevel) (message : Text)
    (now : Timestamp) : SameControl inner (append_log_locked inner' level message now) :=
  h.trans (append_log_control inner' level message now)

/-- A change followed by a log line and a new revision. -/
theorem SameControl.announce (h : SameControl inner inner') (level : TunnelLogLevel) (message : Text)
    (now : Timestamp) :
    SameControl inner (pending_event_locked (append_log_locked inner' level message now)) :=
  h.trans ((append_log_control inner' level message now).trans (pending_event_control _))

theorem GivesUp.announce (h : GivesUp inner inner') (level : TunnelLogLevel) (message : Text)
    (now : Timestamp) :
    GivesUp inner (pending_event_locked (append_log_locked inner' level message now)) :=
  h.trans ((append_log_control inner' level message now).trans (pending_event_control _))

theorem is_current_locked_iff :
    is_current_locked inner generation = true ↔
      inner.generation = generation ∧ inner.desired_running = true := by
  simp [is_current_locked]

theorem mark_starting_control (h : mark_starting inner generation now = some inner') :
    SameControl inner inner' := by
  unfold mark_starting at h
  split at h
  · obtain rfl := Option.some.inj h
    refine SameControl.announce ?_ ..
    exact ⟨rfl, rfl, rfl, rfl, rfl⟩
  · simp at h

theorem mark_running_control {started : Timestamp} {tunnel : TunnelProfile}
    (h : mark_running inner generation started tunnel now = some inner') :
    SameControl inner inner' := by
  unfold mark_running at h
  split at h
  · obtain rfl := Option.some.inj h
    refine SameControl.trans ?_ (pending_event_control _)
    split
    · refine SameControl.logged (SameControl.logged ?_ ..) ..
      exact ⟨rfl, rfl, rfl, rfl, rfl⟩
    · refine SameControl.logged ?_ ..
      exact ⟨rfl, rfl, rfl, rfl, rfl⟩
  · simp at h

theorem set_health_control {health : TunnelHealthState} {message : Option Text}
    (h : set_health inner generation health message now = some inner') : SameControl inner inner' := by
  unfold set_health at h
  split at h
  · split at h
    · exact Option.some.inj h ▸ .refl inner
    · obtain rfl := Option.some.inj h
      refine SameControl.trans ?_ (pending_event_control _)
      split
      · refine SameControl.logged ?_ ..
        exact ⟨rfl, rfl, rfl, rfl, rfl⟩
      · split
        · refine SameControl.logged ?_ ..
          exact ⟨rfl, rfl, rfl, rfl, rfl⟩
        · exact ⟨rfl, rfl, rfl, rfl, rfl⟩
  · simp at h

/-- An attempt that ends is retried, or the tunnel is no longer desired. -/
theorem finish_attempt_control {tunnel : TunnelProfile} {message : Text} {clean : Bool}
    {streak streak' : Nat} {retry : Option Nat}
    (h : finish_attempt inner generation tunnel message clean streak now =
      some (inner', retry, streak')) :
    is_current_locked inner generation = true ∧
      (SameControl inner inner' ∧ retry.isSome ∨ GivesUp inner inner' ∧ retry = none) := by
  unfold finish_attempt at h
  split at h
  case isFalse => simp at h
  case isTrue hcurrent =>
    refine ⟨hcurrent, ?_⟩
    dsimp only at h
    by_cases hchild : inner.child.isSome = true
    · rw [if_pos hchild] at h
      simp only [Option.some.injEq, Prod.mk.injEq] at h
      obtain ⟨rfl, rfl, _⟩ := h
      refine .inr ⟨GivesUp.announce ?_ .., rfl⟩
      exact ⟨rfl, rfl, rfl, rfl, rfl⟩
    · rw [if_neg hchild] at h
      by_cases hreconnect : tunnel.auto_reconnect = true
      · rw [if_pos hreconnect] at h
        simp only [Option.some.injEq, Prod.mk.injEq] at h
        obtain ⟨rfl, rfl, _⟩ := h
        refine .inl ⟨SameControl.announce ?_ .., rfl⟩
        exact ⟨rfl, rfl, rfl, rfl, rfl⟩
      · rw [if_neg hreconnect] at h
        simp only [Option.some.injEq, Prod.mk.injEq] at h
        obtain ⟨rfl, rfl, _⟩ := h
        refine .inr ⟨GivesUp.announce ?_ .., rfl⟩
        exact ⟨rfl, rfl, rfl, rfl, rfl⟩

theorem record_process_line_control (inner : TunnelInner) (generation : Nat) (line : Text)
    (truncated : Bool) (now : Timestamp) :
    SameControl inner (record_process_line inner generation line truncated now) := by
  unfold record_process_line
  dsimp only
  split
  · exact .refl inner
  · refine SameControl.announce ?_ ..
    exact ⟨rfl, rfl, rfl, rfl, rfl⟩

/-- The guard of a stale worker changes nothing; that of a current one gives
    up and drops the child. -/
theorem drop_guard_effect (inner : TunnelInner) (generation : Nat) (now : Timestamp) :
    is_current_locked inner generation = false ∧ SameControl inner (drop_guard inner generation now).1 ∧
        (drop_guard inner generation now).2 = none ∨
      is_current_locked inner generation = true ∧
        GivesUp { inner with child := none } (drop_guard inner generation now).1 ∧
          (drop_guard inner generation now).2 = inner.child := by
  unfold drop_guard
  split
  case isFalse hgeneration => exact .inl ⟨by simp [is_current_locked, hgeneration], .refl inner, rfl⟩
  case isTrue hgeneration =>
    split
    case isFalse hdesired =>
      exact .inl ⟨by simp [is_current_locked, hdesired], ⟨rfl, rfl, rfl, rfl, rfl⟩, rfl⟩
    case isTrue hdesired =>
      refine .inr ⟨is_current_locked_iff.mpr ⟨hgeneration, hdesired⟩, ?_, rfl⟩
      refine GivesUp.trans ?_ (pending_event_control _)
      have hlog := append_log_control
        { inner with
          worker_active := false
          desired_running := false
          state := .Failed
          health := .Failed
          started_at := none
          message := some "tunnel worker stopped unexpectedly".toList } .Error
        "Tunnel worker stopped unexpectedly".toList now
      exact ⟨hlog.generation, hlog.desired_running, rfl, hlog.retired, hlog.tunnel⟩

/-- A start has been requested. -/
structure Starts (tunnel_id : Text) (inner inner' : TunnelInner) : Prop where
  generation : inner'.generation = inner.generation
  desired_running : inner'.desired_running = true
  child : inner'.child = inner.child
  retired : inner'.retired = inner.retired
  tunnel : inner'.profile.id = tunnel_id

theorem request_start_control (inner : TunnelInner) (host : HostProfile) (tunnel : TunnelProfile)
    (now : Timestamp) : Starts tunnel.id inner (request_start inner host tunnel now) := by
  have hlog := (append_log_control
    { inner with
      host_id := host.id
      host_profile := some host
      profile := tunnel
      state := .Starting
      health := .Unknown
      started_at := none
      reconnect_count := 0
      message := none
      last_process_error := none
      desired_running := true
      worker_active := true } .Info "Tunnel start requested".toList now).trans
    (pending_event_control _)
  exact ⟨hlog.generation, hlog.desired_running, hlog.child, hlog.retired, hlog.tunnel⟩

theorem fail_start_control (hgeneration : inner.generation = generation) (error : Text)
    (now : Timestamp) : GivesUp inner (fail_start inner generation error now) := by
  unfold fail_start
  rw [if_pos hgeneration]
  refine GivesUp.announce ?_ ..
  exact ⟨rfl, rfl, rfl, rfl, rfl⟩

/-- The child that an entry has after a stop: one that was not terminated is back. -/
def settled_child (before child : Option Nat) : Except Text Unit → Option Nat
  | .ok () => before
  | .error _ => child

theorem settle_stop_control {child : Option Nat} {already_stopped : Bool}
    {termination : Except Text Unit} (hgeneration : inner.generation = generation)
    (hdesired : inner.desired_running = false) (now : Timestamp) :
    GivesUp { inner with child := settled_child inner.child child termination }
      (settle_stop inner generation child already_stopped termination now) := by
  unfold settle_stop
  rw [if_pos ⟨hgeneration, hdesired⟩]
  refine GivesUp.trans ?_ (pending_event_control _)
  cases termination with
  | ok =>
    cases already_stopped with
    | true => exact ⟨rfl, hdesired, rfl, rfl, rfl⟩
    | false =>
      refine GivesUp.trans ?_ (append_log_control ..)
      exact ⟨rfl, hdesired, rfl, rfl, rfl⟩
  | error error =>
    refine GivesUp.trans ?_ (append_log_control ..)
    exact ⟨rfl, hdesired, rfl, rfl, rfl⟩

/-! ### Workers -/

/-- The stages in which a worker has passed the check under the lifecycle lock. -/
def WorkerStage.passed : WorkerStage → Bool
  | .spawning | .publishing _ => true
  | _ => false

/-- The stages in which a worker has no lock and no handle. -/
def WorkerStage.idle (stage : WorkerStage) : Prop :=
  stage.locked = false ∧ stage.held = none

theorem WorkerStage.locked_of_passed {stage : WorkerStage} (h : stage.passed = true) :
    stage.locked = true := by
  cases stage <;> simp_all [WorkerStage.passed, WorkerStage.locked]

/-- A worker goes on as another one. -/
def TunnelEntry.replace (entry : TunnelEntry) (worker next : Worker) : TunnelEntry :=
  { entry with workers := entry.workers.erase worker ++ [next] }

/-- What a step of a worker does to its entry. -/
inductive WorkEffect (entry : TunnelEntry) (worker : Worker) : TunnelEntry → Prop where
  /-- It goes on without a lock and a handle; the lock it had is free and the
      handle it had is dropped. -/
  | lets_go (next : Worker) {inner : TunnelInner} :
      SameControl entry.inner inner → next.generation = worker.generation → next.stage.idle →
      WorkEffect entry worker
        ({ entry with
          inner := inner
          lifecycle := if worker.stage.locked then none else entry.lifecycle
          dropped := entry.dropped ++ worker.stage.held.toList }.replace worker next)
  | gives_up (next : Worker) {inner : TunnelInner} :
      worker.stage.idle → is_current_locked entry.inner worker.generation = true →
      GivesUp entry.inner inner → next.generation = worker.generation → next.stage.idle →
      WorkEffect entry worker ({ entry with inner := inner }.replace worker next)
  | locks (next : Worker) :
      entry.lifecycle = none → worker.stage.idle → next.generation = worker.generation →
      next.stage = .checking →
      WorkEffect entry worker
        ({ entry with lifecycle := some (.worker worker.generation) }.replace worker next)
  | passes (next : Worker) :
      worker.stage = .checking → is_current_locked entry.inner worker.generation = true →
      next.generation = worker.generation → next.stage = .spawning →
      WorkEffect entry worker (entry.replace worker next)
  | spawns (next : Worker) :
      worker.stage = .spawning → next.generation = worker.generation →
      next.stage = .publishing entry.spawned →
      WorkEffect entry worker ((spawn entry worker).replace worker next)
  | publishes (next : Worker) {child : Nat} :
      worker.stage = .publishing child → is_current_locked entry.inner worker.generation = true →
      next.generation = worker.generation → next.stage.idle →
      WorkEffect entry worker ((publish entry worker.generation child).replace worker next)
  /-- It keeps its lock and its handle. -/
  | keeps (next : Worker) :
      worker.stage.held.isSome → next.generation = worker.generation →
      next.stage.held = worker.stage.held → next.stage.locked = worker.stage.locked →
      next.stage.passed = false →
      WorkEffect entry worker (entry.replace worker next)
  /-- It drops the child of the entry. -/
  | drops (next : Worker) {child : Nat} :
      worker.stage.idle → is_current_locked entry.inner worker.generation = true →
      entry.inner.child = some child → next.generation = worker.generation → next.stage.idle →
      WorkEffect entry worker
        ({ entry with
          inner := { entry.inner with child := none }
          dropped := entry.dropped ++ [child] }.replace worker next)
  /-- It takes the child of the entry. -/
  | takes (next : Worker) {child : Nat} :
      worker.stage.idle → entry.inner.generation = worker.generation →
      entry.inner.child = some child → next.generation = worker.generation →
      next.stage.locked = false → next.stage.held = some child →
      WorkEffect entry worker
        ({ entry with inner := { entry.inner with child := none } }.replace worker next)
  /-- It gives a child back to the entry. -/
  | restores (next : Worker) {child : Nat} :
      worker.stage.locked = false → worker.stage.held = some child →
      entry.inner.generation = worker.generation → entry.inner.child = none →
      next.generation = worker.generation → next.stage.idle →
      WorkEffect entry worker
        ({ entry with inner := { entry.inner with child := some child } }.replace worker next)
  | leaves {inner : TunnelInner} {dropped : Option Nat} :
      worker.stage = .leaving →
      (is_current_locked entry.inner worker.generation = false ∧ SameControl entry.inner inner ∧
          dropped = none ∨
        is_current_locked entry.inner worker.generation = true ∧
          GivesUp { entry.inner with child := none } inner ∧ dropped = entry.inner.child) →
      WorkEffect entry worker
        { entry with
          inner := inner
          dropped := entry.dropped ++ dropped.toList
          workers := entry.workers.erase worker }

/-- An idle worker goes on. -/
theorem WorkEffect.goes_on (next : Worker) (hidle : worker.stage.idle) (hcontrol : SameControl entry.inner inner)
    (hgeneration : next.generation = worker.generation) (hnext : next.stage.idle) :
    WorkEffect entry worker ((entry.with_inner inner).replace worker next) := by
  have heffect : WorkEffect entry worker _ := .lets_go next hcontrol hgeneration hnext
  rw [hidle.1, hidle.2] at heffect
  simpa [TunnelEntry.with_inner, TunnelEntry.replace] using heffect

/-- An idle worker goes on in a stage. -/
theorem WorkEffect.advances (hidle : worker.stage.idle) {stage : WorkerStage} (hstage : stage.idle) :
    WorkEffect entry worker (entry.advance worker stage) :=
  .goes_on { worker with stage := stage } hidle (.refl entry.inner) rfl hstage

theorem WorkEffect.advances_with (hidle : worker.stage.idle) (hcontrol : SameControl entry.inner inner)
    {stage : WorkerStage} (hstage : stage.idle) :
    WorkEffect entry worker ((entry.with_inner inner).advance worker stage) :=
  .goes_on { worker with stage := stage } hidle hcontrol rfl hstage

/-- Without a lock and a handle to lose, letting go in a stage. -/
theorem WorkEffect.unlocks (hlocked : worker.stage.locked = true) (hheld : worker.stage.held = none)
    {stage : WorkerStage} (hstage : stage.idle) :
    WorkEffect entry worker (entry.unlock.advance worker stage) := by
  have heffect : WorkEffect entry worker _ :=
    .lets_go { worker with stage := stage } (.refl entry.inner) rfl hstage
  rw [if_pos hlocked, hheld] at heffect
  simpa [TunnelEntry.unlock, TunnelEntry.advance, TunnelEntry.replace] using heffect

theorem panic_effect (entry : TunnelEntry) (worker : Worker) :
    WorkEffect entry worker (panic entry worker) := by
  have heffect : WorkEffect entry worker _ :=
    .lets_go { worker with stage := .leaving } (.refl entry.inner) rfl ⟨rfl, rfl⟩
  unfold panic
  cases hlocked : worker.stage.locked with
  | false =>
    rw [hlocked] at heffect
    exact heffect
  | true =>
    rw [hlocked] at heffect
    exact heffect

theorem poll_effect {attempt : Attempt} {answer : TryWait} (hidle : worker.stage.idle) :
    WorkEffect entry worker (poll entry worker attempt answer) := by
  unfold poll poll_child
  by_cases hcurrent : is_current_locked entry.inner worker.generation = true
  · rw [if_pos hcurrent]
    cases hchild : entry.inner.child with
    | none =>
      have heffect : WorkEffect entry worker (entry.advance worker (.finishing (some attempt)
          ("failed to poll OpenSSH tunnel: ".toList ++ "owned OpenSSH child is unavailable".toList)
          false)) :=
        .advances hidle ⟨rfl, rfl⟩
      simpa [TunnelEntry.drop_child, TunnelEntry.with_inner] using heffect
    | some child =>
      cases answer with
      | running =>
        have heffect : WorkEffect entry worker (entry.advance worker (.announcing attempt)) :=
          .advances hidle ⟨rfl, rfl⟩
        simpa [TunnelEntry.drop_child, TunnelEntry.with_inner] using heffect
      | exited success status =>
        exact .drops { worker with stage := .describing attempt success status }
          hidle hcurrent hchild rfl ⟨rfl, rfl⟩
      | failed error =>
        exact .drops { worker with stage := .finishing (some attempt) _ false }
          hidle hcurrent hchild rfl ⟨rfl, rfl⟩
  · rw [if_neg hcurrent]
    have heffect : WorkEffect entry worker (entry.advance worker .leaving) :=
      .advances hidle ⟨rfl, rfl⟩
    simpa [TunnelEntry.drop_child, TunnelEntry.with_inner] using heffect

theorem check_health_effect {attempt : Attempt} {result : Except Text Unit} {now : Timestamp}
    (hidle : worker.stage.idle) :
    WorkEffect entry worker (check_health entry worker attempt result now) := by
  unfold check_health
  cases result with
  | ok =>
    dsimp only
    split
    · exact .advances hidle ⟨rfl, rfl⟩
    · rename_i inner hset
      exact .advances_with hidle (set_health_control hset) ⟨rfl, rfl⟩
  | error error =>
    dsimp only
    split
    · exact .advances hidle ⟨rfl, rfl⟩
    · rename_i inner hset
      refine .advances_with hidle (set_health_control hset) ?_
      split <;> exact ⟨rfl, rfl⟩

theorem announce_effect {attempt : Attempt} {now : Timestamp} (hidle : worker.stage.idle) :
    WorkEffect entry worker (announce entry worker attempt now) := by
  unfold announce
  split
  · exact .advances hidle ⟨rfl, rfl⟩
  · split
    · exact .advances hidle ⟨rfl, rfl⟩
    · rename_i inner hmark
      exact .advances_with hidle (mark_running_control hmark) ⟨rfl, rfl⟩

theorem report_effect {attempt : Attempt} {now : Timestamp} (hidle : worker.stage.idle) :
    WorkEffect entry worker (report entry worker attempt now) := by
  unfold report
  split
  · split
    · exact .advances hidle ⟨rfl, rfl⟩
    · exact .advances hidle ⟨rfl, rfl⟩
  · exact .advances hidle ⟨rfl, rfl⟩

theorem take_generation_child_effect {attempt : Attempt} {message : Text}
    (hidle : worker.stage.idle) :
    WorkEffect entry worker (take_generation_child entry worker attempt message) := by
  unfold take_generation_child
  split
  · exact .advances hidle ⟨rfl, rfl⟩
  · rename_i child htaken
    split at htaken
    · rename_i hgeneration
      exact .takes { worker with stage := .terminating attempt message child }
        hidle hgeneration htaken rfl rfl rfl
    · simp at htaken

theorem restore_child_effect {attempt : Attempt} {message error : Text} {child : Nat}
    (hstage : worker.stage = .restoring attempt message child error) :
    WorkEffect entry worker (restore_child entry worker attempt message child error) := by
  have hlocked : worker.stage.locked = false := by rw [hstage]; rfl
  have hheld : worker.stage.held = some child := by rw [hstage]; rfl
  unfold restore_child
  dsimp only
  split
  · rename_i hback
    exact .restores { worker with stage := .finishing (some attempt) _ false }
      hlocked hheld hback.1 hback.2 rfl ⟨rfl, rfl⟩
  · have heffect : WorkEffect entry worker _ :=
      .lets_go
        { worker with
          stage := .finishing (some attempt)
            (message ++ "; failed to terminate unhealthy OpenSSH child: ".toList ++ error) false }
        (.refl entry.inner) rfl ⟨rfl, rfl⟩
    rw [hlocked, hheld] at heffect
    exact heffect

theorem end_attempt_effect {attempt : Option Attempt} {message : Text} {clean : Bool}
    {now : Timestamp} (hidle : worker.stage.idle) :
    WorkEffect entry worker (end_attempt entry worker attempt message clean now) := by
  unfold end_attempt
  dsimp only
  split
  · exact .advances hidle ⟨rfl, rfl⟩
  · rename_i inner _ hfinish
    obtain ⟨hcurrent, ⟨_, hretry⟩ | ⟨hgives, _⟩⟩ := finish_attempt_control hfinish
    · simp at hretry
    · exact .gives_up { worker with stage := .leaving } hidle hcurrent hgives rfl ⟨rfl, rfl⟩
  · rename_i inner delay failure_streak hfinish
    obtain ⟨_, ⟨hcontrol, _⟩ | ⟨_, hretry⟩⟩ := finish_attempt_control hfinish
    · exact .goes_on
        { worker with
          failure_streak := failure_streak
          stage := .waiting (now + 1000 * delay) } hidle hcontrol rfl ⟨rfl, rfl⟩
    · simp at hretry

theorem leave_effect {now : Timestamp} (hstage : worker.stage = .leaving) :
    WorkEffect entry worker (leave entry worker now) :=
  .leaves hstage (drop_guard_effect entry.inner worker.generation now)

/-- **What a worker does**: one of the effects. -/
theorem work_effect {event : Event} (h : entry.work worker event now = some entry') :
    WorkEffect entry worker entry' := by
  have hidle : ∀ {stage : WorkerStage}, worker.stage = stage → stage.idle → worker.stage.idle :=
    fun hstage hidle => hstage ▸ hidle
  unfold TunnelEntry.work at h
  split at h
  case h_1 hstage => exact Option.some.inj h ▸ leave_effect hstage
  case h_2 => simp at h
  case h_3 => exact Option.some.inj h ▸ panic_effect entry worker
  case h_4 hstage =>
    split at h
    · exact Option.some.inj h ▸ .advances (hidle hstage ⟨rfl, rfl⟩) ⟨rfl, rfl⟩
    · rename_i inner hmark
      exact Option.some.inj h ▸
        .advances_with (hidle hstage ⟨rfl, rfl⟩) (mark_starting_control hmark) ⟨rfl, rfl⟩
  case h_5 hstage => exact Option.some.inj h ▸ .advances (hidle hstage ⟨rfl, rfl⟩) ⟨rfl, rfl⟩
  case h_6 hstage => exact Option.some.inj h ▸ .advances (hidle hstage ⟨rfl, rfl⟩) ⟨rfl, rfl⟩
  case h_7 hstage => exact Option.some.inj h ▸ .advances (hidle hstage ⟨rfl, rfl⟩) ⟨rfl, rfl⟩
  case h_8 hstage =>
    obtain ⟨hfree, h⟩ := Option.ite_none_right_eq_some.mp h
    exact Option.some.inj h ▸
      .locks { worker with stage := .checking } hfree (hidle hstage ⟨rfl, rfl⟩) rfl rfl
  case h_9 hstage =>
    split at h
    · rename_i hcurrent
      exact Option.some.inj h ▸
        .passes { worker with stage := .spawning } hstage hcurrent rfl rfl
    · exact Option.some.inj h ▸ .unlocks (by rw [hstage]; rfl) (by rw [hstage]; rfl) ⟨rfl, rfl⟩
  case h_10 hstage =>
    exact Option.some.inj h ▸
      .spawns { worker with stage := .publishing entry.spawned } hstage rfl rfl
  case h_11 hstage =>
    exact Option.some.inj h ▸ .unlocks (by rw [hstage]; rfl) (by rw [hstage]; rfl) ⟨rfl, rfl⟩
  case h_12 child hstage =>
    split at h
    · rename_i hcurrent
      exact Option.some.inj h ▸ .publishes
        { worker with stage := .polling (.start worker.tunnel now) }
        hstage hcurrent rfl ⟨rfl, rfl⟩
    · exact Option.some.inj h ▸ .keeps { worker with stage := .discarding child }
        (by rw [hstage]; rfl) rfl (by rw [hstage]; rfl) (by rw [hstage]; rfl) rfl
  case h_13 child _ hstage =>
    obtain ⟨_, h⟩ := Option.ite_none_right_eq_some.mp h
    have heffect : WorkEffect entry worker _ :=
      .lets_go { worker with stage := .leaving } (.refl entry.inner) rfl ⟨rfl, rfl⟩
    rw [hstage] at heffect
    exact Option.some.inj h ▸ heffect
  case h_14 attempt answer hstage =>
    obtain ⟨_, h⟩ := Option.ite_none_right_eq_some.mp h
    exact Option.some.inj h ▸ poll_effect (hidle hstage ⟨rfl, rfl⟩)
  case h_15 attempt hstage =>
    exact Option.some.inj h ▸ announce_effect (hidle hstage ⟨rfl, rfl⟩)
  case h_16 attempt result hstage =>
    obtain ⟨_, h⟩ := Option.ite_none_right_eq_some.mp h
    exact Option.some.inj h ▸ check_health_effect (hidle hstage ⟨rfl, rfl⟩)
  case h_17 attempt hstage =>
    split at h
    · simp at h
    · exact Option.some.inj h ▸ .advances (hidle hstage ⟨rfl, rfl⟩) ⟨rfl, rfl⟩
  case h_18 attempt message hstage =>
    exact Option.some.inj h ▸ take_generation_child_effect (hidle hstage ⟨rfl, rfl⟩)
  case h_19 attempt message child result hstage =>
    obtain ⟨_, h⟩ := Option.ite_none_right_eq_some.mp h
    cases result with
    | ok =>
      have heffect : WorkEffect entry worker _ :=
        .lets_go { worker with stage := .finishing (some attempt) message false }
          (.refl entry.inner) rfl ⟨rfl, rfl⟩
      rw [hstage] at heffect
      exact Option.some.inj h ▸ heffect
    | error error =>
      exact Option.some.inj h ▸
        .keeps { worker with stage := .restoring attempt message child error }
          (by rw [hstage]; rfl) rfl (by rw [hstage]; rfl) (by rw [hstage]; rfl) rfl
  case h_20 hstage => exact Option.some.inj h ▸ restore_child_effect hstage
  case h_21 attempt hstage =>
    exact Option.some.inj h ▸ report_effect (hidle hstage ⟨rfl, rfl⟩)
  case h_22 hstage => exact Option.some.inj h ▸ .advances (hidle hstage ⟨rfl, rfl⟩) ⟨rfl, rfl⟩
  case h_23 hstage =>
    exact Option.some.inj h ▸ end_attempt_effect (hidle hstage ⟨rfl, rfl⟩)
  case h_24 hstage =>
    split at h
    · split at h
      · simp at h
      · exact Option.some.inj h ▸ .advances (hidle hstage ⟨rfl, rfl⟩) ⟨rfl, rfl⟩
    · exact Option.some.inj h ▸ .advances (hidle hstage ⟨rfl, rfl⟩) ⟨rfl, rfl⟩
  case h_25 => simp at h

/-! ### One entry -/

/-- A worker that has the lifecycle lock is its holder; workers are of
    different generations up to the current one; one that has passed its
    check is current. -/
structure EntryInv (entry : TunnelEntry) : Prop where
  lock_holder : ∀ worker ∈ entry.workers, worker.stage.locked = true →
    entry.lifecycle = some (.worker worker.generation)
  generation_le : ∀ worker ∈ entry.workers, worker.generation ≤ entry.inner.generation
  generations : (entry.workers.map Worker.generation).Nodup
  passed_current : ∀ worker ∈ entry.workers, worker.stage.passed = true →
    is_current_locked entry.inner worker.generation = true

theorem entryInv_new (profile : TunnelProfile) : EntryInv (.new profile) := by
  constructor <;> simp [TunnelEntry.new]

/-- The other workers are of other generations. -/
theorem EntryInv.other (h : EntryInv entry) (hworker : worker ∈ entry.workers) {other : Worker}
    (hother : other ∈ entry.workers.erase worker) :
    other ∈ entry.workers ∧ other.generation ≠ worker.generation := by
  have hperm := (List.perm_cons_erase hworker).map Worker.generation
  have hnodup := hperm.nodup_iff.mp h.generations
  refine ⟨List.mem_of_mem_erase hother, fun hsame => ?_⟩
  exact (List.nodup_cons.mp hnodup).1 (hsame ▸ List.mem_map_of_mem hother)

/-- A worker of an entry goes on as one of the same generation. -/
theorem EntryInv.replaces (h : EntryInv entry) (hworker : worker ∈ entry.workers)
    (hworkers : entry'.workers = entry.workers.erase worker ++ [next])
    (hnext : next.generation = worker.generation)
    (hgeneration : entry'.inner.generation = entry.inner.generation)
    (hlocked : next.stage.locked = true → entry'.lifecycle = some (.worker next.generation))
    (hpassed : next.stage.passed = true → is_current_locked entry'.inner next.generation = true)
    (hlifecycle : ∀ other ∈ entry.workers, other.generation ≠ worker.generation →
      other.stage.locked = true → entry'.lifecycle = entry.lifecycle)
    (hdesired : ∀ other ∈ entry.workers, other.generation ≠ worker.generation →
      other.stage.passed = true → entry'.inner.desired_running = entry.inner.desired_running) :
    EntryInv entry' := by
  refine ⟨fun w hw hlock => ?_, fun w hw => ?_, ?_, fun w hw hpass => ?_⟩
  · rw [hworkers, List.mem_append, List.mem_singleton] at hw
    rcases hw with hw | rfl
    · obtain ⟨hmem, hother⟩ := h.other hworker hw
      exact (hlifecycle w hmem hother hlock).trans (h.lock_holder w hmem hlock)
    · exact hlocked hlock
  · rw [hworkers, List.mem_append, List.mem_singleton] at hw
    rw [hgeneration]
    rcases hw with hw | rfl
    · exact h.generation_le w (List.mem_of_mem_erase hw)
    · exact hnext ▸ h.generation_le worker hworker
  · have hperm := (List.perm_cons_erase hworker).map Worker.generation
    have hnodup := hperm.nodup_iff.mp h.generations
    rw [hworkers, List.map_append, List.map_singleton, hnext]
    exact (List.perm_append_singleton _ _).nodup_iff.mpr hnodup
  · rw [hworkers, List.mem_append, List.mem_singleton] at hw
    rcases hw with hw | rfl
    · obtain ⟨hmem, hother⟩ := h.other hworker hw
      obtain ⟨hcurrent, hrunning⟩ := is_current_locked_iff.mp (h.passed_current w hmem hpass)
      exact is_current_locked_iff.mpr
        ⟨hgeneration.trans hcurrent, (hdesired w hmem hother hpass).trans hrunning⟩
    · exact hpassed hpass

/-- A worker of a new generation that has not started. -/
theorem EntryInv.add_worker (h : EntryInv entry)
    (hstale : ∀ old ∈ entry.workers, old.generation < entry.inner.generation)
    (hgeneration : worker.generation = entry.inner.generation) (hstage : worker.stage = .starting) :
    EntryInv { entry with workers := entry.workers ++ [worker] } := by
  refine ⟨fun w hw hlock => ?_, fun w hw => ?_, ?_, fun w hw hpass => ?_⟩
  · rcases List.mem_append.mp hw with hw | hw
    · exact h.lock_holder w hw hlock
    · rw [List.mem_singleton.mp hw, hstage] at hlock
      exact absurd hlock Bool.false_ne_true
  · rcases List.mem_append.mp hw with hw | hw
    · exact h.generation_le w hw
    · exact List.mem_singleton.mp hw ▸ hgeneration.le
  · rw [List.map_append, List.map_singleton]
    refine (List.perm_append_singleton _ _).nodup_iff.mpr (List.nodup_cons.mpr ⟨?_, h.generations⟩)
    intro hmem
    obtain ⟨old, hold, hsame⟩ := List.mem_map.mp hmem
    have hless := hstale old hold
    omega
  · rcases List.mem_append.mp hw with hw | hw
    · exact h.passed_current w hw hpass
    · rw [List.mem_singleton.mp hw, hstage] at hpass
      exact absurd hpass Bool.false_ne_true

/-- Two workers that have the lifecycle lock are of one generation. -/
theorem EntryInv.locked_generation (h : EntryInv entry) {other : Worker}
    (hworker : worker ∈ entry.workers) (hother : other ∈ entry.workers)
    (hlocked : worker.stage.locked = true) (hlocked' : other.stage.locked = true) :
    other.generation = worker.generation := by
  have hholder := (h.lock_holder other hother hlocked').symm.trans (h.lock_holder worker hworker hlocked)
  simpa using hholder

/-- A worker that has passed its check is of the generation of a current one. -/
theorem EntryInv.passed_generation (h : EntryInv entry) {other : Worker}
    (hcurrent : is_current_locked entry.inner generation = true) (hother : other ∈ entry.workers)
    (hpassed : other.stage.passed = true) : other.generation = generation := by
  have hsame := is_current_locked_iff.mp (h.passed_current other hother hpassed)
  exact hsame.1.symm.trans (is_current_locked_iff.mp hcurrent).1

/-- A worker goes on without the lifecycle lock. -/
theorem EntryInv.replaces_unlocked (h : EntryInv entry) (hworker : worker ∈ entry.workers)
    (hworkers : entry'.workers = entry.workers.erase worker ++ [next])
    (hnext : next.generation = worker.generation) (hunlocked : next.stage.locked = false)
    (hgeneration : entry'.inner.generation = entry.inner.generation)
    (hlifecycle : ∀ other ∈ entry.workers, other.generation ≠ worker.generation →
      other.stage.locked = true → entry'.lifecycle = entry.lifecycle)
    (hdesired : ∀ other ∈ entry.workers, other.generation ≠ worker.generation →
      other.stage.passed = true → entry'.inner.desired_running = entry.inner.desired_running) :
    EntryInv entry' := by
  refine h.replaces hworker hworkers hnext hgeneration (fun hlock => ?_) (fun hpass => ?_)
    hlifecycle hdesired
  · simp [hunlocked] at hlock
  · simp [WorkerStage.locked_of_passed hpass] at hunlocked

/-- A step of a worker keeps the invariant of its entry. -/
theorem EntryInv.work (h : EntryInv entry) (hworker : worker ∈ entry.workers)
    (heffect : WorkEffect entry worker entry') : EntryInv entry' := by
  cases heffect with
  | @lets_go next inner hcontrol hnext hidle =>
    refine h.replaces_unlocked hworker rfl hnext hidle.1 hcontrol.generation
      (fun other hmem hother hlock => ?_) fun _ _ _ _ => hcontrol.desired_running
    by_cases hlocked : worker.stage.locked = true
    · exact absurd (h.locked_generation hworker hmem hlocked hlock) hother
    · exact if_neg hlocked
  | @gives_up next inner _ hcurrent hgives hnext hidle =>
    refine h.replaces_unlocked hworker rfl hnext hidle.1 hgives.generation (fun _ _ _ _ => rfl)
      fun other hmem hother hpass => ?_
    exact absurd (h.passed_generation hcurrent hmem hpass) hother
  | @locks next hfree _ hnext hstage =>
    refine h.replaces hworker rfl hnext rfl (fun _ => ?_) (fun hpass => ?_)
      (fun other hmem _ hlock => ?_) fun _ _ _ _ => rfl
    · rw [hnext]
      rfl
    · rw [hstage] at hpass
      exact absurd hpass Bool.false_ne_true
    · have hholder := (h.lock_holder other hmem hlock).symm.trans hfree
      simp at hholder
  | @passes next hstage hcurrent hnext hnext_stage =>
    refine h.replaces hworker rfl hnext rfl (fun _ => ?_) (fun _ => hnext ▸ hcurrent)
      (fun _ _ _ _ => rfl) fun _ _ _ _ => rfl
    rw [hnext]
    exact h.lock_holder worker hworker (by rw [hstage]; rfl)
  | @spawns next hstage hnext hnext_stage =>
    refine h.replaces hworker rfl hnext rfl (fun _ => ?_) (fun _ => ?_)
      (fun _ _ _ _ => rfl) fun _ _ _ _ => rfl
    · rw [hnext]
      exact h.lock_holder worker hworker (by rw [hstage]; rfl)
    · rw [hnext]
      exact h.passed_current worker hworker (by rw [hstage]; rfl)
  | @publishes next child hstage _ hnext hidle =>
    refine h.replaces_unlocked hworker rfl hnext hidle.1 rfl
      (fun other hmem hother hlock => ?_) fun _ _ _ _ => rfl
    exact absurd (h.locked_generation hworker hmem (by rw [hstage]; rfl) hlock) hother
  | @keeps next hheld hnext hnext_held hlocked hpassed =>
    refine h.replaces hworker rfl hnext rfl (fun hlock => ?_) (fun hpass => ?_)
      (fun _ _ _ _ => rfl) fun _ _ _ _ => rfl
    · rw [hnext]
      exact h.lock_holder worker hworker (hlocked ▸ hlock)
    · simp [hpassed] at hpass
  | @drops next child _ _ _ hnext hidle =>
    exact h.replaces_unlocked hworker rfl hnext hidle.1 rfl (fun _ _ _ _ => rfl) fun _ _ _ _ => rfl
  | @takes next child _ _ _ hnext hlocked _ =>
    exact h.replaces_unlocked hworker rfl hnext hlocked rfl (fun _ _ _ _ => rfl) fun _ _ _ _ => rfl
  | @restores next child _ _ _ _ hnext hidle =>
    exact h.replaces_unlocked hworker rfl hnext hidle.1 rfl (fun _ _ _ _ => rfl) fun _ _ _ _ => rfl
  | @leaves inner dropped hstage hinner =>
    have hgeneration : inner.generation = entry.inner.generation := by
      rcases hinner with ⟨_, hcontrol, _⟩ | ⟨_, hgives, _⟩
      · exact hcontrol.generation
      · exact hgives.generation
    have hperm := (List.perm_cons_erase hworker).map Worker.generation
    refine ⟨fun w hw hlock => h.lock_holder w (List.mem_of_mem_erase hw) hlock, fun w hw => ?_,
      (List.nodup_cons.mp (hperm.nodup_iff.mp h.generations)).2, fun w hw hpass => ?_⟩
    · exact hgeneration ▸ h.generation_le w (List.mem_of_mem_erase hw)
    · obtain ⟨hmem, hother⟩ := h.other hworker hw
      have hcurrent := is_current_locked_iff.mp (h.passed_current w hmem hpass)
      rcases hinner with ⟨_, hcontrol, _⟩ | ⟨hsame, _, _⟩
      · exact is_current_locked_iff.mpr
          ⟨hgeneration.trans hcurrent.1, hcontrol.desired_running.trans hcurrent.2⟩
      · exact absurd (h.passed_generation hsame hmem hpass) hother

/-! ### What workers cannot change -/

/-- An operation holds the lifecycle lock. -/
def Held (entry : TunnelEntry) : Prop := entry.lifecycle = some .operation

/-- All workers are of older generations. -/
def Stale (entry : TunnelEntry) : Prop :=
  ∀ worker ∈ entry.workers, worker.generation < entry.inner.generation

/-- An operation has taken the child, and no worker can store another one. -/
structure Taken (entry : TunnelEntry) : Prop where
  held : Held entry
  stale : Stale entry
  child : entry.inner.child = none

/-- An entry after steps of its workers and children. -/
structure Keeps (entry entry' : TunnelEntry) : Prop where
  generation : entry'.inner.generation = entry.inner.generation
  retired : entry'.inner.retired = entry.inner.retired
  tunnel : entry'.inner.profile.id = entry.inner.profile.id
  desired_running : entry'.inner.desired_running = true → entry.inner.desired_running = true
  lifecycle : Held entry → Held entry'
  child : Taken entry → entry'.inner.child = none
  workers : ∀ worker ∈ entry'.workers, ∃ old ∈ entry.workers, old.generation = worker.generation

theorem Keeps.of_control (hcontrol : SameControl entry.inner entry'.inner)
    (hlifecycle : entry'.lifecycle = entry.lifecycle) (hworkers : entry'.workers = entry.workers) :
    Keeps entry entry' :=
  ⟨hcontrol.generation, hcontrol.retired, hcontrol.tunnel, fun h => hcontrol.desired_running ▸ h,
    fun h => hlifecycle.trans h, fun h => hcontrol.child.trans h.child,
    fun worker hworker => ⟨worker, hworkers ▸ hworker, rfl⟩⟩

theorem replaced_generation (hworker : worker ∈ entry.workers)
    (hnext : next.generation = worker.generation) :
    ∀ w ∈ entry.workers.erase worker ++ [next],
      ∃ old ∈ entry.workers, old.generation = w.generation := by
  intro w hw
  rcases List.mem_append.mp hw with hw | hw
  · exact ⟨w, List.mem_of_mem_erase hw, rfl⟩
  · exact ⟨worker, hworker, List.mem_singleton.mp hw ▸ hnext.symm⟩

/-- A worker has not the lock that an operation has. -/
theorem EntryInv.unlocked (h : EntryInv entry) (hworker : worker ∈ entry.workers)
    (hlifecycle : entry.lifecycle = some .operation) : worker.stage.locked = false := by
  by_contra hlocked
  have hholder := h.lock_holder worker hworker (by simpa using hlocked)
  simp [hlifecycle] at hholder

theorem WorkEffect.keeps_entry (heffect : WorkEffect entry worker entry') (h : EntryInv entry)
    (hworker : worker ∈ entry.workers) : Keeps entry entry' := by
  cases heffect with
  | @lets_go next inner hcontrol hnext _ =>
    refine ⟨hcontrol.generation, hcontrol.retired, hcontrol.tunnel,
      fun hdesired => hcontrol.desired_running ▸ hdesired, fun hlifecycle => ?_,
      fun htaken => hcontrol.child.trans htaken.child, replaced_generation hworker hnext⟩
    show (if worker.stage.locked = true then none else entry.lifecycle) = some .operation
    rw [h.unlocked hworker hlifecycle]
    exact hlifecycle
  | @gives_up next inner _ _ hgives hnext _ =>
    exact ⟨hgives.generation, hgives.retired, hgives.tunnel,
      fun hdesired => absurd (hgives.desired_running.symm.trans hdesired) Bool.false_ne_true, id,
      fun htaken => hgives.child.trans htaken.child, replaced_generation hworker hnext⟩
  | @locks next hfree _ hnext _ =>
    exact ⟨rfl, rfl, rfl, id, fun hheld => absurd (hfree.symm.trans hheld) (by simp), Taken.child,
      replaced_generation hworker hnext⟩
  | @passes next _ _ hnext _ =>
    exact ⟨rfl, rfl, rfl, id, id, Taken.child, replaced_generation hworker hnext⟩
  | @spawns next _ hnext _ =>
    exact ⟨rfl, rfl, rfl, id, id, Taken.child, replaced_generation hworker hnext⟩
  | @publishes next child hstage _ hnext _ =>
    have hnot_held : ¬ Held entry := fun hheld => by
      have hunlocked := h.unlocked hworker hheld
      simp [hstage, WorkerStage.locked] at hunlocked
    exact ⟨rfl, rfl, rfl, id, fun hheld => absurd hheld hnot_held,
      fun htaken => absurd htaken.held hnot_held, replaced_generation hworker hnext⟩
  | @keeps next _ hnext _ _ _ =>
    exact ⟨rfl, rfl, rfl, id, id, Taken.child, replaced_generation hworker hnext⟩
  | @drops next child _ _ _ hnext _ =>
    exact ⟨rfl, rfl, rfl, id, id, fun _ => rfl, replaced_generation hworker hnext⟩
  | @takes next child _ _ _ hnext _ _ =>
    exact ⟨rfl, rfl, rfl, id, id, fun _ => rfl, replaced_generation hworker hnext⟩
  | @restores next child _ _ hsame _ hnext _ =>
    exact ⟨rfl, rfl, rfl, id, id, fun htaken => absurd hsame (htaken.stale worker hworker).ne',
      replaced_generation hworker hnext⟩
  | @leaves inner dropped _ hinner =>
    have hworkers : ∀ w ∈ entry.workers.erase worker,
        ∃ old ∈ entry.workers, old.generation = w.generation :=
      fun w hw => ⟨w, List.mem_of_mem_erase hw, rfl⟩
    rcases hinner with ⟨_, hcontrol, _⟩ | ⟨_, hgives, _⟩
    · exact ⟨hcontrol.generation, hcontrol.retired, hcontrol.tunnel,
        fun hdesired => hcontrol.desired_running ▸ hdesired, id,
        fun htaken => hcontrol.child.trans htaken.child, hworkers⟩
    · exact ⟨hgives.generation, hgives.retired, hgives.tunnel,
        fun hdesired => absurd (hgives.desired_running.symm.trans hdesired) Bool.false_ne_true, id,
        fun _ => hgives.child, hworkers⟩

/-! ### Operations -/

variable {registry registry' : TunnelRegistry} {name : Nat} {host : HostProfile}
  {tunnel : TunnelProfile}

theorem lookup_fold_erase {gone : List (Sigma fun _ : Text => Nat)} {entries : Entries} {id : Text}
    {e : Nat} (h : (gone.foldl (fun entries item => entries.erase item.1) entries).lookup id = some e) :
    entries.lookup id = some e := by
  induction gone generalizing entries with
  | nil => exact h
  | cons first gone ih =>
    have h := ih h
    by_cases hid : id = first.1
    · rw [hid, AList.lookup_erase] at h
      simp at h
    · rwa [AList.lookup_erase_ne hid] at h

/-- What a step of a start does. -/
inductive StartEffect (registry : TunnelRegistry) (host : HostProfile) (tunnel : TunnelProfile) :
    StartStage → StartEvent → TunnelRegistry → Prop where
  | refuses {event : StartEvent} :
      StartEffect registry host tunnel .looking event (registry.set_operation none)
  | limited {event : StartEvent} :
      StartEffect registry host tunnel .looking event ((retain registry).set_operation none)
  | finds {event : StartEvent} {current : HostProfile} {name : Nat} :
      (retain registry).entries.lookup tunnel.id = some name →
      StartEffect registry host tunnel .looking event
        ((retain registry).set_operation (some (.start current tunnel (.locking name))))
  | makes {event : StartEvent} {current : HostProfile} :
      (retain registry).entries.lookup tunnel.id = none →
      StartEffect registry host tunnel .looking event
        ((insert_entry (retain registry) tunnel).set_operation
          (some (.start current tunnel (.locking registry.made))))
  | locks {event : StartEvent} {name : Nat} {entry : TunnelEntry} :
      registry.heap name = some entry → entry.lifecycle = none →
      StartEffect registry host tunnel (.locking name) event
        ((registry.set_entry name { entry with lifecycle := some .operation }).set_operation
          (some (.start host tunnel (.checking name))))
  | returns {event : StartEvent} {name : Nat} {entry : TunnelEntry} :
      registry.heap name = some entry →
      StartEffect registry host tunnel (.checking name) event (finish_start registry name entry)
  | proceeds {event : StartEvent} {name : Nat} {entry : TunnelEntry} :
      registry.heap name = some entry → entry.inner.retired = false →
      StartEffect registry host tunnel (.checking name) event
        (registry.set_operation (some (.start host tunnel (.bumping name))))
  | bumps {event : StartEvent} {name : Nat} {entry : TunnelEntry} {stage : StartStage} :
      registry.heap name = some entry →
      (stage = .requesting name ∧ entry.inner.child = none ∨
        ∃ child, stage = .terminating name child ∧ entry.inner.child = some child) →
      StartEffect registry host tunnel (.bumping name) event
        ((registry.set_entry name (entry.with_inner (take_stale_child entry.inner).1)).set_operation
          (some (.start host tunnel stage)))
  | terminates {event : StartEvent} {name child : Nat} {entry : TunnelEntry} :
      registry.heap name = some entry → entry.alive child = false →
      StartEffect registry host tunnel (.terminating name child) event
        ((registry.set_entry name (entry.drop_child (some child))).set_operation
          (some (.start host tunnel (.requesting name))))
  | fails {name child : Nat} {error : Text} {entry : TunnelEntry} :
      registry.heap name = some entry →
      StartEffect registry host tunnel (.terminating name child) (.terminated (.error error))
        (finish_start registry name (entry.drop_child (some child)))
  | requests {event : StartEvent} {name : Nat} {entry : TunnelEntry} {inner : TunnelInner} :
      registry.heap name = some entry → Starts tunnel.id entry.inner inner →
      StartEffect registry host tunnel (.requesting name) event
        ((registry.set_entry name (entry.with_inner inner)).set_operation
          (some (.start host tunnel (.spawning name inner.generation))))
  | spawns {event : StartEvent} {name generation : Nat} {entry : TunnelEntry}
      (worker : Worker) :
      registry.heap name = some entry → worker.generation = generation → worker.stage = .starting →
      StartEffect registry host tunnel (.spawning name generation) event
        (finish_start registry name { entry with workers := entry.workers ++ [worker] })
  | spawn_fails {event : StartEvent} {name generation : Nat} {entry : TunnelEntry}
      {inner : TunnelInner} :
      registry.heap name = some entry →
      (entry.inner.generation = generation → GivesUp entry.inner inner) →
      StartEffect registry host tunnel (.spawning name generation) event
        (finish_start registry name (entry.with_inner inner))

theorem find_entry_effect (registry : TunnelRegistry) (host : HostProfile) (tunnel : TunnelProfile)
    (event : StartEvent) (current : HostProfile) :
    StartEffect registry host tunnel .looking event
      (match find_entry registry tunnel with
      | (looked, .error _) => looked.set_operation none
      | (looked, .ok name) => looked.set_operation (some (.start current tunnel (.locking name)))) := by
  unfold find_entry
  dsimp only
  split_ifs
  · exact .limited
  · exact .limited
  · cases hfound : (retain registry).entries.lookup tunnel.id with
    | none => exact .makes hfound
    | some name => exact .finds hfound

theorem start_step_effect {stage : StartStage} {event : StartEvent}
    (hnext : start_step registry host tunnel stage event now = some registry') :
    StartEffect registry host tunnel stage event registry' := by
  unfold start_step at hnext
  split at hnext
  case h_1 current_host command =>
    split at hnext
    case h_1 => exact Option.some.inj hnext ▸ .refuses
    case h_2 current =>
      split at hnext
      · exact Option.some.inj hnext ▸ .refuses
      · split at hnext
        case h_1 => exact Option.some.inj hnext ▸ .refuses
        case h_2 =>
          have heffect := find_entry_effect registry host tunnel (.found (.ok current) (.ok ())) current
          split at hnext
          case h_1 looked error hfound =>
            rw [hfound] at heffect
            exact Option.some.inj hnext ▸ heffect
          case h_2 looked found hfound =>
            rw [hfound] at heffect
            exact Option.some.inj hnext ▸ heffect
  case h_2 name =>
    obtain ⟨entry, hentry, hnext⟩ := Option.bind_eq_some_iff.mp hnext
    obtain ⟨hfree, hnext⟩ := Option.ite_none_right_eq_some.mp hnext
    exact Option.some.inj hnext ▸ .locks hentry hfree
  case h_3 name =>
    obtain ⟨entry, hentry, hnext⟩ := Option.bind_eq_some_iff.mp hnext
    split at hnext
    · exact Option.some.inj hnext ▸ .returns hentry
    · rename_i hproceeds
      simp only [Bool.or_eq_true, not_or, Bool.not_eq_true] at hproceeds
      exact Option.some.inj hnext ▸ .proceeds hentry hproceeds.1
  case h_4 name =>
    obtain ⟨entry, hentry, hnext⟩ := Option.bind_eq_some_iff.mp hnext
    split at hnext
    case h_1 inner htaken =>
      obtain ⟨rfl, hchild⟩ := Prod.mk.inj htaken
      exact Option.some.inj hnext ▸ .bumps hentry (.inl ⟨rfl, hchild⟩)
    case h_2 inner child htaken =>
      obtain ⟨rfl, hchild⟩ := Prod.mk.inj htaken
      exact Option.some.inj hnext ▸ .bumps hentry (.inr ⟨child, rfl, hchild⟩)
  case h_5 name child result =>
    obtain ⟨entry, hentry, hnext⟩ := Option.bind_eq_some_iff.mp hnext
    obtain ⟨htruthful, hnext⟩ := Option.ite_none_right_eq_some.mp hnext
    cases result with
    | ok => exact Option.some.inj hnext ▸ .terminates hentry (Bool.not_eq_true' _ ▸ htruthful)
    | error error => exact Option.some.inj hnext ▸ .fails hentry
  case h_6 name =>
    obtain ⟨entry, hentry, hnext⟩ := Option.bind_eq_some_iff.mp hnext
    exact Option.some.inj hnext ▸ .requests hentry (request_start_control ..)
  case h_7 name generation result =>
    obtain ⟨entry, hentry, hnext⟩ := Option.bind_eq_some_iff.mp hnext
    cases result with
    | ok =>
      exact Option.some.inj hnext ▸
        .spawns ⟨generation, tunnel, 0, .starting⟩ hentry rfl rfl
    | error error =>
      exact Option.some.inj hnext ▸
        .spawn_fails hentry fun hgeneration => fail_start_control hgeneration error now
  case h_8 => simp at hnext

/-- What a step of a stop does: the registry and the next stage. -/
inductive StopEffect (registry : TunnelRegistry) (task : StopTask) :
    TunnelRegistry → StopStage → Prop where
  | absent :
      task.stage = .looking → registry.entries.lookup task.tunnel_id = none →
      StopEffect registry task registry (.returned (.ok ()))
  | finds {name : Nat} :
      task.stage = .looking → registry.entries.lookup task.tunnel_id = some name →
      StopEffect registry task registry (.locking name)
  | locks {name : Nat} {entry : TunnelEntry} :
      task.stage = .locking name → registry.heap name = some entry → entry.lifecycle = none →
      StopEffect registry task
        (registry.set_entry name { entry with lifecycle := some .operation }) (.taking name)
  | takes {name : Nat} {entry : TunnelEntry} {stage : StopStage} {already_stopped : Bool} :
      task.stage = .taking name → registry.heap name = some entry →
      (stage = .settling name (begin_stop entry.inner task.retire).1.generation none
          already_stopped (.ok ()) ∧ entry.inner.child = none ∨
        ∃ child, stage = .terminating name (begin_stop entry.inner task.retire).1.generation child
          already_stopped ∧ entry.inner.child = some child) →
      StopEffect registry task
        (registry.set_entry name (entry.with_inner (begin_stop entry.inner task.retire).1)) stage
  | terminates {name generation child : Nat} {already_stopped : Bool} {entry : TunnelEntry}
      {result : Except Text Unit} :
      task.stage = .terminating name generation child already_stopped →
      registry.heap name = some entry → (result = .ok () → entry.alive child = false) →
      StopEffect registry task registry
        (.settling name generation (some child) already_stopped result)
  | settles {name generation : Nat} {child : Option Nat} {already_stopped : Bool}
      {entry : TunnelEntry} {termination : Except Text Unit} {inner : TunnelInner} :
      task.stage = .settling name generation child already_stopped termination →
      registry.heap name = some entry →
      (entry.inner.generation = generation → entry.inner.desired_running = false →
        GivesUp { entry.inner with child := settled_child entry.inner.child child termination }
          inner) →
      StopEffect registry task
        (registry.set_entry name
          ((entry.with_inner inner).drop_child (if inner.child = child then none else child)).unlock)
        (.returned termination)

theorem stop_step_effect {task : StopTask} {event : StopEvent} {stage : StopStage}
    (hnext : stop_step registry task event now = some (registry', stage)) :
    StopEffect registry task registry' stage := by
  unfold stop_step at hnext
  split at hnext
  case h_1 hstage =>
    split at hnext
    case h_1 hlookup =>
      simp only [Option.some.injEq, Prod.mk.injEq] at hnext
      obtain ⟨rfl, rfl⟩ := hnext
      exact .absent hstage hlookup
    case h_2 name hlookup =>
      simp only [Option.some.injEq, Prod.mk.injEq] at hnext
      obtain ⟨rfl, rfl⟩ := hnext
      exact .finds hstage hlookup
  case h_2 name hstage =>
    obtain ⟨entry, hentry, hnext⟩ := Option.bind_eq_some_iff.mp hnext
    obtain ⟨hfree, hnext⟩ := Option.ite_none_right_eq_some.mp hnext
    simp only [Option.some.injEq, Prod.mk.injEq] at hnext
    obtain ⟨rfl, rfl⟩ := hnext
    exact .locks hstage hentry hfree
  case h_3 name hstage =>
    obtain ⟨entry, hentry, hnext⟩ := Option.bind_eq_some_iff.mp hnext
    split at hnext
    case h_1 inner child already_stopped hbegin =>
      simp only [Option.some.injEq, Prod.mk.injEq] at hnext
      obtain ⟨rfl, rfl⟩ := hnext
      obtain ⟨rfl, hchild, _⟩ := Prod.mk.inj hbegin |>.imp id Prod.mk.inj
      exact .takes hstage hentry (.inr ⟨child, rfl, hchild⟩)
    case h_2 inner already_stopped hbegin =>
      simp only [Option.some.injEq, Prod.mk.injEq] at hnext
      obtain ⟨rfl, rfl⟩ := hnext
      obtain ⟨rfl, hchild, _⟩ := Prod.mk.inj hbegin |>.imp id Prod.mk.inj
      exact .takes hstage hentry (.inl ⟨rfl, hchild⟩)
  case h_4 name generation child already_stopped result hstage =>
    obtain ⟨entry, hentry, hnext⟩ := Option.bind_eq_some_iff.mp hnext
    obtain ⟨htruthful, hnext⟩ := Option.ite_none_right_eq_some.mp hnext
    simp only [Option.some.injEq, Prod.mk.injEq] at hnext
    obtain ⟨rfl, rfl⟩ := hnext
    refine .terminates hstage hentry fun hok => ?_
    rw [hok] at htruthful
    exact Bool.not_eq_true' _ ▸ htruthful
  case h_5 name generation child already_stopped termination hstage =>
    obtain ⟨entry, hentry, hnext⟩ := Option.bind_eq_some_iff.mp hnext
    simp only [Option.some.injEq, Prod.mk.injEq] at hnext
    obtain ⟨rfl, rfl⟩ := hnext
    exact .settles hstage hentry fun hgeneration hdesired =>
      settle_stop_control hgeneration hdesired now
  case h_6 => simp at hnext

end Tunnel
