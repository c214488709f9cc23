import RemoteDeck.Tunnel.Log

/-! # The logs of the registry

    Every section of code that runs under the lock of an entry pushes lines
    to its log or leaves the log alone.  So in every state of the registry
    the log of an entry is the ring of what was pushed since the entry was
    made (`reachable_logs`).
-/

namespace Tunnel

variable {inner inner' : TunnelInner} {entry entry' : TunnelEntry} {worker : Worker}
  {registry registry' : TunnelRegistry} {label : Label} {name generation : Nat} {now : Timestamp}

/-- Some lines have been pushed, or none. -/
def Logged (inner inner' : TunnelInner) : Prop := ∃ pushed, Logs inner pushed inner'

theorem Logged.refl (inner : TunnelInner) : Logged inner inner := ⟨[], .start⟩

theorem Logged.of_same (hlogs : inner'.logs = inner.logs) (hbytes : inner'.log_bytes = inner.log_bytes) :
    Logged inner inner' := ⟨[], .other .start hlogs hbytes⟩

theorem Logged.push (h : Logged inner inner') (level : TunnelLogLevel) (message : Text)
    (now : Timestamp) : Logged inner (append_log_locked inner' level message now) := by
  obtain ⟨pushed, hlogs⟩ := h
  exact ⟨_, hlogs.push { time := now, level := level, message := message }⟩

theorem Logged.pending (h : Logged inner inner') : Logged inner (pending_event_locked inner') := by
  obtain ⟨pushed, hlogs⟩ := h
  exact ⟨pushed, hlogs.other rfl rfl⟩

theorem Logged.with_child (h : Logged inner inner') (child : Option Nat) :
    Logged inner { inner' with child := child } := by
  obtain ⟨pushed, hlogs⟩ := h
  exact ⟨pushed, hlogs.other rfl rfl⟩

/-- A change that is logged before its revision is drawn. -/
theorem Logged.of_push {level : TunnelLogLevel} {message : Text}
    (hlogs : inner'.logs = inner.logs) (hbytes : inner'.log_bytes = inner.log_bytes) :
    Logged inner (pending_event_locked (append_log_locked inner' level message now)) :=
  ((of_same hlogs hbytes).push level message now).pending

/-! ### Sections -/

theorem mark_starting_logs (h : mark_starting inner generation now = some inner') :
    Logged inner inner' := by
  obtain ⟨_, h⟩ := Option.ite_none_right_eq_some.mp h
  obtain rfl := Option.some.inj h
  exact .of_push rfl rfl

theorem mark_running_logs {started : Timestamp} {tunnel : TunnelProfile}
    (h : mark_running inner generation started tunnel now = some inner') : Logged inner inner' := by
  obtain ⟨_, h⟩ := Option.ite_none_right_eq_some.mp h
  obtain rfl := Option.some.inj h
  split
  · -- the second line says that the health is not checked
    apply Logged.pending
    apply Logged.push
    apply Logged.push
    exact .of_same rfl rfl
  · exact .of_push rfl rfl

theorem set_health_logs {health : TunnelHealthState} {message : Option Text}
    (h : set_health inner generation health message now = some inner') : Logged inner inner' := by
  obtain ⟨_, h⟩ := Option.ite_none_right_eq_some.mp h
  split at h
  · exact Option.some.inj h ▸ .refl inner
  · obtain rfl := Option.some.inj h
    split
    · exact .of_push rfl rfl
    · split
      · exact .of_push rfl rfl
      · exact .of_same rfl rfl

theorem finish_attempt_logs {tunnel : TunnelProfile} {message : Text} {clean : Bool}
    {streak streak' : Nat} {retry : Option Nat}
    (h : finish_attempt inner generation tunnel message clean streak now =
      some (inner', retry, streak')) : Logged inner inner' := by
  obtain ⟨_, h⟩ := Option.ite_none_right_eq_some.mp h
  dsimp only at h
  split at h
  · simp only [Option.some.injEq, Prod.mk.injEq] at h
    obtain ⟨rfl, -, -⟩ := h
    exact .of_push rfl rfl
  · split at h
    · simp only [Option.some.injEq, Prod.mk.injEq] at h
      obtain ⟨rfl, -, -⟩ := h
      exact .of_push rfl rfl
    · simp only [Option.some.injEq, Prod.mk.injEq] at h
      obtain ⟨rfl, -, -⟩ := h
      exact .of_push rfl rfl

theorem drop_guard_logs (inner : TunnelInner) (generation : Nat) (now : Timestamp) :
    Logged inner (drop_guard inner generation now).1 := by
  unfold drop_guard
  split
  · split
    · apply Logged.pending
      apply Logged.with_child
      apply Logged.push
      exact .of_same rfl rfl
    · exact .of_same rfl rfl
  · exact .refl inner

theorem poll_child_logs (inner : TunnelInner) (generation : Nat) (answer : TryWait) :
    Logged inner (poll_child inner generation answer).1 := by
  unfold poll_child
  split
  · split <;> exact .of_same rfl rfl
  · exact .refl inner

theorem fail_start_logs (inner : TunnelInner) (generation : Nat) (error : Text) (now : Timestamp) :
    Logged inner (fail_start inner generation error now) := by
  unfold fail_start
  split
  · exact .of_push rfl rfl
  · exact .of_same rfl rfl

theorem settle_stop_logs (inner : TunnelInner) (generation : Nat) (child : Option Nat)
    (already_stopped : Bool) (termination : Except Text Unit) (now : Timestamp) :
    Logged inner (settle_stop inner generation child already_stopped termination now) := by
  unfold settle_stop
  split
  · cases termination with
    | error error => exact .of_push rfl rfl
    | ok =>
      dsimp only
      split
      · exact .of_same rfl rfl
      · exact .of_push rfl rfl
  · exact .of_same rfl rfl

/-! ### Workers -/

theorem check_health_logs (attempt : Attempt) (result : Except Text Unit) :
    Logged entry.inner (check_health entry worker attempt result now).inner := by
  unfold check_health
  cases result with
  | ok =>
    dsimp only
    split
    · exact .refl entry.inner
    · next hset => exact set_health_logs hset
  | error error =>
    dsimp only
    split
    · exact .refl entry.inner
    · next hset => exact set_health_logs hset

theorem end_attempt_logs (attempt : Option Attempt) (message : Text) (clean : Bool) :
    Logged entry.inner (end_attempt entry worker attempt message clean now).inner := by
  unfold end_attempt
  dsimp only
  split
  · exact .refl entry.inner
  · next hfinish => exact finish_attempt_logs hfinish
  · next hfinish => exact finish_attempt_logs hfinish

theorem announce_logs (attempt : Attempt) :
    Logged entry.inner (announce entry worker attempt now).inner := by
  unfold announce
  split
  · exact .refl entry.inner
  · split
    · exact .refl entry.inner
    · next hmark => exact mark_running_logs hmark

theorem poll_logs (attempt : Attempt) (answer : TryWait) :
    Logged entry.inner (poll entry worker attempt answer).inner := by
  have hpolled := poll_child_logs entry.inner worker.generation answer
  unfold poll
  dsimp only
  split <;> exact hpolled

theorem panic_logs (entry : TunnelEntry) (worker : Worker) :
    Logged entry.inner (panic entry worker).inner := by
  unfold panic
  dsimp only
  split <;> exact .refl entry.inner

theorem report_logs (attempt : Attempt) :
    Logged entry.inner (report entry worker attempt now).inner := by
  unfold report
  split
  · split <;> exact .refl entry.inner
  · exact .refl entry.inner

theorem take_generation_child_logs (attempt : Attempt) (message : Text) :
    Logged entry.inner (take_generation_child entry worker attempt message).inner := by
  unfold take_generation_child
  split
  · exact .refl entry.inner
  · exact .of_same rfl rfl

theorem restore_child_logs (attempt : Attempt) (message : Text) (child : Nat) (error : Text) :
    Logged entry.inner (restore_child entry worker attempt message child error).inner := by
  unfold restore_child
  dsimp only
  split
  · exact .of_same rfl rfl
  · exact .refl entry.inner

/-- A step of a worker. -/
theorem work_logs {event : Event} (h : entry.work worker event now = some entry') :
    Logged entry.inner entry'.inner := by
  unfold TunnelEntry.work at h
  split at h
  case h_1 => exact Option.some.inj h ▸ drop_guard_logs entry.inner worker.generation now
  case h_3 => exact Option.some.inj h ▸ panic_logs entry worker
  case h_4 =>
    split at h
    · exact Option.some.inj h ▸ .refl entry.inner
    · next hmark => exact Option.some.inj h ▸ mark_starting_logs hmark
  case h_12 =>
    split at h
    · exact Option.some.inj h ▸ .of_same rfl rfl
    · exact Option.some.inj h ▸ .refl entry.inner
  case h_14 attempt answer _ =>
    obtain ⟨_, h⟩ := Option.ite_none_right_eq_some.mp h
    exact Option.some.inj h ▸ poll_logs attempt answer
  case h_15 attempt _ => exact Option.some.inj h ▸ announce_logs attempt
  case h_16 attempt result _ =>
    obtain ⟨_, h⟩ := Option.ite_none_right_eq_some.mp h
    exact Option.some.inj h ▸ check_health_logs attempt result
  case h_18 attempt message _ =>
    exact Option.some.inj h ▸ take_generation_child_logs attempt message
  case h_19 attempt message child result _ =>
    obtain ⟨_, h⟩ := Option.ite_none_right_eq_some.mp h
    cases result with
    | ok => exact Option.some.inj h ▸ .refl entry.inner
    | error error => exact Option.some.inj h ▸ .refl entry.inner
  case h_20 attempt message child error _ =>
    exact Option.some.inj h ▸ restore_child_logs attempt message child error
  case h_21 attempt _ => exact Option.some.inj h ▸ report_logs attempt
  case h_23 attempt message clean _ =>
    exact Option.some.inj h ▸ end_attempt_logs attempt message clean
  -- the others advance the worker only, if they are enabled
  case h_8 | h_13 =>
    obtain ⟨_, h⟩ := Option.ite_none_right_eq_some.mp h
    exact Option.some.inj h ▸ .refl entry.inner
  case h_9 => split at h <;> exact Option.some.inj h ▸ .refl entry.inner
  case h_17 =>
    obtain ⟨_, h⟩ := Option.ite_none_left_eq_some.mp h
    exact Option.some.inj h ▸ .refl entry.inner
  case h_24 =>
    split at h
    · obtain ⟨_, h⟩ := Option.ite_none_left_eq_some.mp h
      exact Option.some.inj h ▸ .refl entry.inner
    · exact Option.some.inj h ▸ .refl entry.inner
  case h_2 | h_25 => simp at h
  all_goals exact Option.some.inj h ▸ .refl entry.inner

/-! ### The registry -/

/-- Every entry is a new one, or lines have been pushed to its log. -/
def EntriesLogged (registry registry' : TunnelRegistry) : Prop :=
  ∀ name entry', registry'.heap name = some entry' →
    (∃ tunnel, entry'.inner = .new tunnel) ∨
      ∃ entry, registry.heap name = some entry ∧ Logged entry.inner entry'.inner

theorem EntriesLogged.of_heap (h : registry'.heap = registry.heap) :
    EntriesLogged registry registry' := by
  intro name entry hentry
  rw [h] at hentry
  exact .inr ⟨entry, hentry, .refl entry.inner⟩

theorem EntriesLogged.set_entry (hentry : registry.heap name = some entry)
    (h : Logged entry.inner entry'.inner) :
    EntriesLogged registry (registry.set_entry name entry') := by
  intro other found hfound
  rw [heap_set_entry] at hfound
  split_ifs at hfound with hother
  · obtain rfl := Option.some.inj hfound
    exact .inr ⟨entry, hother ▸ hentry, h⟩
  · exact .inr ⟨found, hfound, .refl found.inner⟩

theorem EntriesLogged.set_operation (h : EntriesLogged registry registry')
    (operation : Option Operation) : EntriesLogged registry (registry'.set_operation operation) := h

theorem EntriesLogged.finish_start (hentry : registry.heap name = some entry)
    (h : Logged entry.inner entry'.inner) :
    EntriesLogged registry (finish_start registry name entry') := by
  have hset : EntriesLogged registry (registry.set_entry name entry'.unlock) := .set_entry hentry h
  exact hset.set_operation none

theorem find_entry_logs {tunnel : TunnelProfile} {found : AppResult Nat}
    (h : find_entry registry tunnel = (registry', found)) : EntriesLogged registry registry' := by
  unfold find_entry at h
  dsimp only at h
  split_ifs at h
  · obtain ⟨rfl, -⟩ := Prod.mk.inj h
    exact .of_heap rfl
  · obtain ⟨rfl, -⟩ := Prod.mk.inj h
    exact .of_heap rfl
  · split at h
    · obtain ⟨rfl, -⟩ := Prod.mk.inj h
      exact .of_heap rfl
    · obtain ⟨rfl, -⟩ := Prod.mk.inj h
      intro other entry hentry
      rw [heap_insert_entry] at hentry
      split_ifs at hentry
      · obtain rfl := Option.some.inj hentry
        exact .inl ⟨tunnel, rfl⟩
      · exact .inr ⟨entry, hentry, .refl entry.inner⟩

theorem start_step_logs {host : HostProfile} {tunnel : TunnelProfile} {stage : StartStage}
    {event : StartEvent} (h : start_step registry host tunnel stage event now = some registry') :
    EntriesLogged registry registry' := by
  have hstill : ∀ operation, EntriesLogged registry (registry.set_operation operation) :=
    fun _ => .of_heap rfl
  unfold start_step at h
  split at h
  case h_1 current_host command =>
    split at h
    · exact Option.some.inj h ▸ hstill none
    · split at h
      · exact Option.some.inj h ▸ hstill none
      · split at h
        · exact Option.some.inj h ▸ hstill none
        · split at h
          · next hfound => exact Option.some.inj h ▸ (find_entry_logs hfound).set_operation _
          · next hfound => exact Option.some.inj h ▸ (find_entry_logs hfound).set_operation _
  case h_2 name =>
    obtain ⟨entry, hentry, h⟩ := Option.bind_eq_some_iff.mp h
    obtain ⟨_, h⟩ := Option.ite_none_right_eq_some.mp h
    obtain rfl := Option.some.inj h
    apply EntriesLogged.set_operation
    exact .set_entry hentry (.refl entry.inner)
  case h_3 name =>
    obtain ⟨entry, hentry, h⟩ := Option.bind_eq_some_iff.mp h
    split at h
    · exact Option.some.inj h ▸ .finish_start hentry (.refl entry.inner)
    · exact Option.some.inj h ▸ hstill _
  case h_4 name =>
    obtain ⟨entry, hentry, h⟩ := Option.bind_eq_some_iff.mp h
    have htakes : Logged entry.inner (take_stale_child entry.inner).1 := .of_same rfl rfl
    split at h
    · next htaken =>
      rw [htaken] at htakes
      obtain rfl := Option.some.inj h
      apply EntriesLogged.set_operation
      exact .set_entry hentry htakes
    · next htaken =>
      rw [htaken] at htakes
      obtain rfl := Option.some.inj h
      apply EntriesLogged.set_operation
      exact .set_entry hentry htakes
  case h_5 name child result =>
    obtain ⟨entry, hentry, h⟩ := Option.bind_eq_some_iff.mp h
    obtain ⟨_, h⟩ := Option.ite_none_right_eq_some.mp h
    cases result with
    | ok =>
      obtain rfl := Option.some.inj h
      apply EntriesLogged.set_operation
      exact .set_entry hentry (.refl entry.inner)
    | error error => exact Option.some.inj h ▸ .finish_start hentry (.refl entry.inner)
  case h_6 name =>
    obtain ⟨entry, hentry, h⟩ := Option.bind_eq_some_iff.mp h
    have hrequests : Logged entry.inner (request_start entry.inner host tunnel now) := .of_push rfl rfl
    obtain rfl := Option.some.inj h
    apply EntriesLogged.set_operation
    exact .set_entry hentry hrequests
  case h_7 name generation result =>
    obtain ⟨entry, hentry, h⟩ := Option.bind_eq_some_iff.mp h
    cases result with
    | ok => exact Option.some.inj h ▸ .finish_start hentry (.refl entry.inner)
    | error error =>
      exact Option.some.inj h ▸
        .finish_start hentry (fail_start_logs entry.inner generation error now)
  case h_8 => simp at h

theorem stop_step_logs {task : StopTask} {event : StopEvent} {stage : StopStage}
    (h : stop_step registry task event now = some (registry', stage)) :
    EntriesLogged registry registry' := by
  unfold stop_step at h
  split at h
  case h_1 =>
    split at h
    · obtain ⟨rfl, -⟩ := Prod.mk.inj (Option.some.inj h)
      exact .of_heap rfl
    · obtain ⟨rfl, -⟩ := Prod.mk.inj (Option.some.inj h)
      exact .of_heap rfl
  case h_2 =>
    obtain ⟨entry, hentry, h⟩ := Option.bind_eq_some_iff.mp h
    obtain ⟨_, h⟩ := Option.ite_none_right_eq_some.mp h
    obtain ⟨rfl, -⟩ := Prod.mk.inj (Option.some.inj h)
    exact .set_entry hentry (.refl entry.inner)
  case h_3 =>
    obtain ⟨entry, hentry, h⟩ := Option.bind_eq_some_iff.mp h
    have hbegins : Logged entry.inner (begin_stop entry.inner task.retire).1 := .of_same rfl rfl
    split at h
    · next hbegin =>
      rw [hbegin] at hbegins
      obtain ⟨rfl, -⟩ := Prod.mk.inj (Option.some.inj h)
      exact .set_entry hentry hbegins
    · next hbegin =>
      rw [hbegin] at hbegins
      obtain ⟨rfl, -⟩ := Prod.mk.inj (Option.some.inj h)
      exact .set_entry hentry hbegins
  case h_4 =>
    obtain ⟨entry, hentry, h⟩ := Option.bind_eq_some_iff.mp h
    obtain ⟨_, h⟩ := Option.ite_none_right_eq_some.mp h
    obtain ⟨rfl, -⟩ := Prod.mk.inj (Option.some.inj h)
    exact .of_heap rfl
  case h_5 =>
    obtain ⟨entry, hentry, h⟩ := Option.bind_eq_some_iff.mp h
    obtain ⟨rfl, -⟩ := Prod.mk.inj (Option.some.inj h)
    exact .set_entry hentry (settle_stop_logs ..)
  case h_6 => simp at h

/-- A step pushes lines to the log of one entry, or makes an entry. -/
theorem next_logs (h : registry.next label = some registry') : EntriesLogged registry registry' := by
  have hbegins : ∀ operation, begin_operation registry operation = some registry' →
      EntriesLogged registry registry' := by
    intro operation hbegin
    obtain ⟨_, hbegin⟩ := Option.ite_none_right_eq_some.mp hbegin
    exact Option.some.inj hbegin ▸ .of_heap rfl
  unfold TunnelRegistry.next at h
  cases label with
  | start_step event now =>
    dsimp only at h
    split at h
    · exact start_step_logs h
    · simp at h
  | stop_step task event now =>
    dsimp only at h
    split at h
    · obtain ⟨_, h⟩ := Option.ite_none_right_eq_some.mp h
      obtain ⟨⟨stepped, stage⟩, hstep, h⟩ := Option.bind_eq_some_iff.mp h
      exact Option.some.inj h ▸ (stop_step_logs hstep).set_operation _
    · simp at h
  | finish =>
    dsimp only at h
    split at h
    · next tasks after hoperation =>
      obtain ⟨_, h⟩ := Option.ite_none_right_eq_some.mp h
      have hheap : (finish_stop registry tasks after).heap = registry.heap := by
        obtain ⟨hheap, -⟩ := remove_stopped_effect registry tasks
        unfold finish_stop
        split
        · rfl
        · exact hheap
        · split <;> rfl
        · split <;> exact hheap
      exact Option.some.inj h ▸ .of_heap hheap
    · simp at h
  | work name worker event now =>
    obtain ⟨entry, hentry, h⟩ := Option.bind_eq_some_iff.mp h
    obtain ⟨_, h⟩ := Option.ite_none_right_eq_some.mp h
    obtain ⟨worked, hwork, h⟩ := Option.bind_eq_some_iff.mp h
    exact Option.some.inj h ▸ .set_entry hentry (work_logs hwork)
  | process_line name generation line truncated now =>
    obtain ⟨entry, hentry, h⟩ := Option.bind_eq_some_iff.mp h
    obtain ⟨_, h⟩ := Option.ite_none_right_eq_some.mp h
    exact Option.some.inj h ▸ .set_entry hentry ⟨_, record_process_line_logs ..⟩
  | child_exits name child =>
    obtain ⟨entry, hentry, h⟩ := Option.bind_eq_some_iff.mp h
    exact Option.some.inj h ▸ .set_entry hentry (.refl entry.inner)
  | _ => exact hbegins _ h

/-- **The log of every entry is a ring**, whatever the operations, the workers
    and the readers of its children have done. -/
theorem reachable_logs (h : tunnels.Reachable registry) (hentry : registry.heap name = some entry) :
    ∃ tunnel pushed, Logs (.new tunnel) pushed entry.inner := by
  induction h generalizing name entry with
  | init hinit =>
    subst hinit
    simp [TunnelRegistry.default] at hentry
  | step _ _ hnext ih =>
    rcases next_logs hnext name entry hentry with ⟨tunnel, hnew⟩ | ⟨before, hbefore, pushed, hlogs⟩
    · exact ⟨tunnel, [], hnew ▸ .start⟩
    · obtain ⟨tunnel, earlier, hearlier⟩ := ih hbefore
      exact ⟨tunnel, earlier ++ pushed, hearlier.trans hlogs⟩

/-- No log outgrows its room, and no account drifts. -/
theorem reachable_log_bounded (h : tunnels.Reachable registry)
    (hentry : registry.heap name = some entry) :
    entry.inner.logs.length ≤ 50 ∧ entry.inner.log_bytes ≤ 65536 ∧
      entry.inner.log_bytes = log_budget.total entry.inner.logs := by
  obtain ⟨tunnel, pushed, hlogs⟩ := reachable_logs h hentry
  obtain ⟨hentries, hbytes⟩ := hlogs.holdsRing.bounded
  exact ⟨hentries, hbytes, hlogs.holdsRing.log_bytes⟩

/-- A tunnel that has been started has a log. -/
theorem started_tunnel_log : ∃ (registry : TunnelRegistry) (entry : TunnelEntry),
    registry.heap 0 = some entry ∧ entry.inner.desired_running = true ∧
      entry.inner.logs.length ≤ 50 ∧ entry.inner.log_bytes ≤ 65536 := by
  obtain ⟨registry, hreach, hp⟩ := Machine.reachable_of_replay (m := tunnels) (fun _ _ => true)
    (fun _ _ _ => trivial) rfl (start_labels (web_tunnel 8080) ++ connect_labels)
    (fun registry => (registry.heap 0).any fun entry => entry.inner.desired_running) (by decide +kernel)
  obtain ⟨entry, hentry, hdesired⟩ := (Option.any_eq_true _ _).mp hp
  obtain ⟨hentries, hbytes, -⟩ := reachable_log_bounded hreach hentry
  exact ⟨registry, entry, hentry, hdesired, hentries, hbytes⟩

end Tunnel
