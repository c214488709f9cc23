import RemoteDeck.Command.Steps

/-! # The life of a command job

    A job is queued, runs and ends, and is what it was from then on; a queued
    job that is cancelled ends at once.  The order in which the writers of an
    entry get its lock does not matter: each of them looks at the state of
    the job first.
-/

namespace Command

open HostOperation (Barrier BarrierInv)

variable {registry registry' : CommandJobRegistry} {id other : Text} {label : Label}
  {cancel_rx cancel_rx' : CancelReceiver} {now : Timestamp}

/-! ### Executions -/

theorem changed_cases {sent : Bool} (h : registry.changed id cancel_rx = some (sent, cancel_rx')) :
    cancel_rx'.value = cancel_rx.value ∧ (cancel_rx'.unseen = true → cancel_rx.unseen = true) ∧
      (sent = true ∧ cancel_rx.unseen = true ∨ sent = false ∧ registry.entry id = none) := by
  unfold CommandJobRegistry.changed at h
  split at h
  · next hunseen =>
    obtain ⟨rfl, rfl⟩ := Prod.mk.inj (Option.some.inj h)
    exact ⟨rfl, fun hfalse => absurd hfalse Bool.false_ne_true, .inl ⟨rfl, hunseen⟩⟩
  · obtain ⟨⟨hentry, _⟩, h⟩ := Option.ite_none_right_eq_some.mp h
    obtain ⟨rfl, rfl⟩ := Prod.mk.inj (Option.some.inj h)
    exact ⟨rfl, fun hsame => hsame, .inr ⟨rfl, hentry⟩⟩

/-- A receiver that has something to tell belongs to a job that is stopping. -/
theorem Fits.changed_stopping (h : Fits (registry.view id)) {stage : ExecuteStage}
    (hexecution : registry.execution id = some ⟨cancel_rx, stage⟩) {sent : Bool}
    (hchanged : registry.changed id cancel_rx = some (sent, cancel_rx')) {job : CommandJob}
    (hversion : registry.version id = some job) :
    Stopping job.state ∧ (sent = true → cancel_rx'.value = true) := by
  obtain ⟨hvalue, _, ⟨rfl, hunseen⟩ | ⟨rfl, hentry⟩⟩ := changed_cases hchanged
  · obtain ⟨other, hother, hstopping⟩ := h.stopped (.inr ⟨_, hexecution, .inr hunseen⟩)
    obtain rfl := Option.some.inj (hversion.symm.trans hother)
    exact ⟨hstopping, fun _ => hvalue.trans (h.unseen _ hexecution hunseen)⟩
  · constructor
    · right
      by_contra hpending
      rw [Bool.not_eq_true] at hpending
      have hsome := h.pending job hversion hpending
      rw [show (registry.view id).entry = none from hentry] at hsome
      exact Bool.false_ne_true hsome
    · intro hfalse
      exact absurd hfalse Bool.false_ne_true

theorem cancelled_of_stopping {state : CommandJobState} (h : Stopping state)
    (hwaiting : state = .Queued ∨ state = .Cancelled) : state = .Cancelled := by
  rcases hwaiting with rfl | rfl
  · rcases h with h | h
    · exact absurd h (by decide)
    · exact absurd h Bool.false_ne_true
  · rfl

theorem execute_job_effect (h : ∀ id, Fits (registry.view id))
    (hnext : registry.next_execute (.execute_job id) = some registry') :
    StepEffect registry registry' := by
  dsimp only [CommandJobRegistry.next_execute] at hnext
  split at hnext
  case h_2 => exact absurd hnext.symm (Option.some_ne_none _)
  case h_1 cancel_rx hexecution =>
    obtain rfl := Option.some.inj hnext
    refine StepEffect.move h hexecution rfl (fun h => h) ?_ ?_
    · intro job hversion hwaiting
      split
      · next hvalue =>
        obtain ⟨other, hother, hstopping⟩ := (h id).stopped (.inr ⟨_, hexecution, .inl hvalue⟩)
        obtain rfl := Option.some.inj (hversion.symm.trans hother)
        exact .inl ⟨rfl, .inr (cancelled_of_stopping hstopping hwaiting)⟩
      · exact hwaiting
    · intro hpast
      exact absurd hpast Bool.false_ne_true

theorem cancelled_acquiring_effect (h : ∀ id, Fits (registry.view id))
    (hnext : registry.next_execute (.cancelled_acquiring id) = some registry') :
    StepEffect registry registry' := by
  dsimp only [CommandJobRegistry.next_execute] at hnext
  split at hnext
  case h_2 => exact absurd hnext.symm (Option.some_ne_none _)
  case h_1 cancel_rx hexecution =>
    obtain ⟨⟨sent, cancel_rx'⟩, hchanged, rfl⟩ := Option.map_eq_some_iff.mp hnext
    obtain ⟨hvalue, hunseen, _⟩ := changed_cases hchanged
    refine StepEffect.move h hexecution hvalue hunseen ?_ ?_
    · intro job hversion hwaiting
      obtain ⟨hstopping, hsent⟩ := (h id).changed_stopping hexecution hchanged hversion
      have htold : (!sent || cancel_rx'.value) = true := by
        cases sent with
        | false => rfl
        | true => exact hsent rfl
      dsimp only
      rw [if_pos htold]
      exact .inl ⟨rfl, .inr (cancelled_of_stopping hstopping hwaiting)⟩
    · intro hpast
      exact absurd hpast Bool.false_ne_true

theorem acquire_effect (h : ∀ id, Fits (registry.view id))
    (hnext : registry.next_execute (.acquire id) = some registry') :
    StepEffect registry registry' := by
  dsimp only [CommandJobRegistry.next_execute] at hnext
  split at hnext
  case h_2 => exact absurd hnext.symm (Option.some_ne_none _)
  case h_1 cancel_rx hexecution =>
    obtain ⟨_, hnext⟩ := Option.ite_none_left_eq_some.mp hnext
    obtain rfl := Option.some.inj hnext
    apply StepEffect.permits
    refine StepEffect.move h hexecution rfl (fun h => h) ?_ ?_
    · intro job _ hwaiting
      exact hwaiting
    · intro hpast
      exact absurd hpast Bool.false_ne_true

theorem transition_running_effect (h : ∀ id, Fits (registry.view id))
    (hnext : registry.next_execute (.transition_running id now) = some registry') :
    StepEffect registry registry' := by
  dsimp only [CommandJobRegistry.next_execute] at hnext
  split at hnext
  case h_2 => exact absurd hnext.symm (Option.some_ne_none _)
  case h_1 cancel_rx hexecution =>
    obtain rfl := Option.some.inj hnext
    unfold CommandJobRegistry.transition_running
    split
    · next entry' hrunning =>
      obtain ⟨entry, hentry, hchange⟩ := Option.bind_eq_some_iff.mp hrunning
      obtain ⟨job, hjob, rfl⟩ := Option.map_eq_some_iff.mp hchange
      obtain ⟨hwrites, _, hstate⟩ := running_job_writes hjob
      apply StepEffect.write_stage h hentry hwrites hexecution
      · intro _
        exact .inl hstate
      · intro hpast
        exact absurd hpast Bool.false_ne_true
    · next hrefused =>
      apply StepEffect.permits
      refine StepEffect.move h hexecution rfl (fun h => h) ?_ ?_
      · intro job hversion hwaiting
        rcases hwaiting with hqueued | hcancelled
        · -- a queued job has its entry, and is not refused
          obtain ⟨entry, hentry, rfl⟩ := (h id).entry_of_pending hversion (by rw [hqueued]; rfl)
          unfold CommandJobRegistry.running_entry at hrefused
          rw [show registry.entry id = some entry from hentry, Option.bind_some] at hrefused
          have hwritten : running_job entry.job now = none := Option.map_eq_none_iff.mp hrefused
          unfold running_job at hwritten
          rw [if_neg (not_not.mpr hqueued)] at hwritten
          exact absurd hwritten (Option.some_ne_none _)
        · show job.state.is_terminal = true
          rw [hcancelled]
          rfl
      · intro _
        rfl

theorem spawn_effect (h : ∀ id, Fits (registry.view id)) {result : Except Text Unit}
    (hnext : registry.next_execute (.spawn id result) = some registry') :
    StepEffect registry registry' := by
  dsimp only [CommandJobRegistry.next_execute] at hnext
  split at hnext
  case h_2 => exact absurd hnext.symm (Option.some_ne_none _)
  case h_1 cancel_rx hexecution =>
    split at hnext
    · obtain rfl := Option.some.inj hnext
      have hself : ({ registry.set_stage id cancel_rx (.looping .entered) with
            started := id :: registry.started } : CommandJobRegistry).view id =
          { registry.view id with
            execution := some ⟨cancel_rx, .looping .entered⟩, started := true } := by
        apply JobView.ext
        case execution => exact AList.lookup_insert registry.executions
        case started => exact decide_eq_true List.mem_cons_self
        all_goals rfl
      refine StepEffect.of_view h id ⟨rfl, rfl, rfl⟩ ?_ ?_ ?_ (Nat.le_refl _) (Nat.le_refl _)
      · intro other hother
        apply JobView.ext
        case execution => exact AList.lookup_insert_ne hother
        case started =>
          show decide (other ∈ id :: registry.started) = decide (other ∈ registry.started)
          rw [decide_eq_decide, List.mem_cons]
          exact or_iff_right hother
        all_goals rfl
      · rw [hself]
        refine (h id).move hexecution rfl (fun h => h) ?_ (fun _ => rfl) (fun _ => .inr rfl)
        intro job _ hstarting
        rcases hstarting with hrunning | hcancelling
        · exact .inl ⟨hrunning, rfl⟩
        · exact .inr hcancelling
      · rw [hself]
        refine ⟨fun h => h, fun job h => ⟨job, h, .inl rfl⟩, ?_⟩
        intro _
        obtain ⟨job, hversion, hstarting⟩ := (h id).executed _ hexecution
        exact .inr ⟨job, hversion, hstarting⟩
    · obtain rfl := Option.some.inj hnext
      refine StepEffect.move h hexecution rfl (fun h => h) ?_ ?_
      · intro job _ hstarting
        exact .inr ⟨Finish.noConfusion, hstarting⟩
      · intro _
        rfl

/-- Without a cancellation no job ends as cancelled. -/
theorem finish_ne_cancelled {locals : ExecuteLoop} (h : locals.cancellation_seen = false) :
    locals.finish false ≠ .Cancelled := by
  unfold ExecuteLoop.finish
  rw [h, if_neg (by decide)]
  split
  · exact Finish.noConfusion
  · split
    · split <;> exact Finish.noConfusion
    · exact Finish.noConfusion
    · exact Finish.noConfusion

theorem choose_finish_effect (h : ∀ id, Fits (registry.view id))
    (hnext : registry.next_execute (.choose_finish id) = some registry') :
    StepEffect registry registry' := by
  dsimp only [CommandJobRegistry.next_execute] at hnext
  split at hnext
  case h_2 => exact absurd hnext.symm (Option.some_ne_none _)
  case h_1 cancel_rx locals hexecution =>
    obtain rfl := Option.some.inj hnext
    refine StepEffect.move h hexecution rfl (fun h => h) ?_ ?_
    · intro job hversion hleft
      rcases hleft with ⟨hrunning, hseen⟩ | hcancelling
      · obtain ⟨entry, hentry, rfl⟩ := (h id).entry_of_pending hversion (by rw [hrunning]; rfl)
        have hnone : registry.job_cancellation_requested id = false := by
          unfold CommandJobRegistry.job_cancellation_requested
          rw [show registry.entry id = some entry from hentry, Option.any_some, hrunning]
          rfl
        rw [hnone]
        exact .inr ⟨finish_ne_cancelled hseen, .inl hrunning⟩
      · by_cases hfinish :
            locals.finish (registry.job_cancellation_requested id) = .Cancelled
        · exact .inl ⟨hfinish, .inl hcancelling⟩
        · exact .inr ⟨hfinish, .inr hcancelling⟩
    · intro _
      rfl

/-- A finish that writes nothing finds the job terminal. -/
theorem finished_job_none {finish : Finish} {permit : Bool} {job : CommandJob}
    (h : finished_job job finish now = none)
    (hstage : StageFits (.finishing finish permit) job.state) : job.state.is_terminal = true := by
  rcases hstage with ⟨rfl, hstate⟩ | ⟨hfinish, hstate⟩
  · have hnone : finish_cancelled_job job now = none := h
    unfold finish_cancelled_job at hnone
    split at hnone
    · next hcancelled =>
      rw [hcancelled.1]
      rfl
    · exact absurd hnone (Option.some_ne_none _)
  · have hwritable : ¬(job.state ≠ .Running ∧ job.state ≠ .Cancelling) := by
      intro hneither
      rcases hstate with hstate | hstate
      · exact hneither.1 hstate
      · exact hneither.2 hstate
    cases finish with
    | Cancelled => exact absurd rfl hfinish
    | Completed exit_code => exact absurd ((if_neg hwritable).symm.trans h) (Option.some_ne_none _)
    | Failed error exit_code => exact absurd ((if_neg hwritable).symm.trans h) (Option.some_ne_none _)

theorem finish_effect (h : ∀ id, Fits (registry.view id))
    (hnext : registry.next_execute (.finish id now) = some registry') :
    StepEffect registry registry' := by
  dsimp only [CommandJobRegistry.next_execute] at hnext
  split at hnext
  case h_2 => exact absurd hnext.symm (Option.some_ne_none _)
  case h_1 cancel_rx finish permit hexecution =>
    obtain rfl := Option.some.inj hnext
    unfold CommandJobRegistry.finish
    have hidle : (∀ job, registry.version id = some job →
        StageFits (.finishing finish permit) job.state → job.state.is_terminal = true) →
        StepEffect registry (registry.execute_end id cancel_rx permit) := by
      intro hterminal
      have hended : StepEffect registry (registry.set_stage id cancel_rx .ended) :=
        StepEffect.move h hexecution rfl (fun h => h) hterminal (fun _ => rfl)
      cases permit with
      | true => exact hended.permits _
      | false => exact hended
    split
    · next hentry =>
      apply hidle
      intro job hversion _
      by_contra hpending
      rw [Bool.not_eq_true] at hpending
      obtain ⟨entry, hsome, _⟩ := (h id).entry_of_pending hversion hpending
      rw [show (registry.view id).entry = none from hentry] at hsome
      exact absurd hsome.symm (Option.some_ne_none entry)
    · next entry hentry =>
      split
      · next hfinished =>
        apply hidle
        intro job hversion hstage
        obtain rfl := Option.some.inj (((h id).kept entry hentry).1.symm.trans hversion)
        exact finished_job_none hfinished hstage
      · next job hfinished =>
        -- the pruning and the end of the task do not meet
        have hwritten : StepEffect registry
            ((registry.write id { entry with job := job }).set_stage id cancel_rx .ended) := by
          obtain ⟨other, hother, hstage⟩ := (h id).executed _ hexecution
          obtain rfl := Option.some.inj (((h id).kept entry hentry).1.symm.trans hother)
          have hcancelled : finish = .Cancelled → entry.job.state = .Cancelling ∨
              entry.job.state = .Cancelled ∧ entry.job.finished_at.isSome = true := by
            intro hfinish
            rcases hstage with ⟨_, hcancelling | hstate⟩ | ⟨hne, _⟩
            · exact .inl hcancelling
            · exact .inr ⟨hstate, (h id).finished _ hother (by rw [hstate]; rfl)⟩
            · exact absurd hfinish hne
          obtain ⟨hwrites, hterminal⟩ := finished_job_writes hfinished hcancelled
          exact StepEffect.write_stage h hentry hwrites hexecution (fun _ => hterminal) (fun _ => rfl)
        cases permit with
        | true => exact hwritten.prune.permits _
        | false => exact hwritten.prune

theorem next_execute_effect (h : ∀ id, Fits (registry.view id))
    (hnext : registry.next_execute label = some registry') : StepEffect registry registry' := by
  cases label
  case execute_job id => exact execute_job_effect h hnext
  case cancelled_acquiring id => exact cancelled_acquiring_effect h hnext
  case acquire id => exact acquire_effect h hnext
  case transition_running id now => exact transition_running_effect h hnext
  case spawn id result => exact spawn_effect h hnext
  case choose_finish id => exact choose_finish_effect h hnext
  case finish id now => exact finish_effect h hnext
  all_goals exact absurd hnext.symm (Option.some_ne_none _)

/-! ### The loop -/

theorem loop_step_cases {step : CancelReceiver → ExecuteLoop → Option CommandJobRegistry}
    (h : registry.loop_step id step = some registry') :
    ∃ cancel_rx locals, registry.execution id = some ⟨cancel_rx, .looping locals⟩ ∧
      step cancel_rx locals = some registry' := by
  unfold CommandJobRegistry.loop_step at h
  split at h
  · next cancel_rx locals hexecution =>
    obtain ⟨_, h⟩ := Option.ite_none_right_eq_some.mp h
    exact ⟨cancel_rx, locals, hexecution, h⟩
  · exact absurd h.symm (Option.some_ne_none _)

/-- The loop goes on, and has seen no more of a cancellation. -/
theorem loop_effect (h : ∀ id, Fits (registry.view id)) {locals locals' : ExecuteLoop}
    (hexecution : registry.execution id = some ⟨cancel_rx, .looping locals⟩)
    (hseen : locals'.cancellation_seen = locals.cancellation_seen) :
    StepEffect registry (registry.set_stage id cancel_rx (.looping locals')) := by
  refine StepEffect.move h hexecution rfl (fun h => h) ?_ (fun _ => rfl)
  intro job _ hlooping
  rcases hlooping with ⟨hrunning, hnone⟩ | hcancelling
  · exact .inl ⟨hrunning, hseen.trans hnone⟩
  · exact .inr hcancelling

/-- The loop is left. -/
theorem leave_effect (h : ∀ id, Fits (registry.view id)) {locals locals' : ExecuteLoop}
    (hexecution : registry.execution id = some ⟨cancel_rx, .looping locals⟩)
    (hseen : locals'.cancellation_seen = locals.cancellation_seen) :
    StepEffect registry (registry.set_stage id cancel_rx (.left locals')).release_permit := by
  apply StepEffect.permits
  refine StepEffect.move h hexecution rfl (fun h => h) ?_ (fun _ => rfl)
  intro job _ hlooping
  rcases hlooping with ⟨hrunning, hnone⟩ | hcancelling
  · exact .inl ⟨hrunning, hseen.trans hnone⟩
  · exact .inr hcancelling

theorem cancelled_looping_effect (h : ∀ id, Fits (registry.view id)) {kill : Option Text}
    (hnext : registry.next_loop (.cancelled_looping id kill) = some registry') :
    StepEffect registry registry' := by
  obtain ⟨cancel_rx, locals, hexecution, hnext⟩ := loop_step_cases hnext
  obtain ⟨_, hnext⟩ := Option.ite_none_left_eq_some.mp hnext
  obtain ⟨⟨sent, cancel_rx'⟩, hchanged, rfl⟩ := Option.map_eq_some_iff.mp hnext
  obtain ⟨hvalue, hunseen, _⟩ := changed_cases hchanged
  refine StepEffect.move h hexecution hvalue hunseen ?_ (fun _ => rfl)
  intro job hversion hlooping
  obtain ⟨hstopping, _⟩ := (h id).changed_stopping hexecution hchanged hversion
  right
  rcases hlooping with ⟨hrunning, _⟩ | hcancelling
  · -- a running job is not stopping
    rw [hrunning] at hstopping
    rcases hstopping with hstopping | hstopping
    · exact absurd hstopping (by decide)
    · exact absurd hstopping Bool.false_ne_true
  · exact hcancelling

theorem append_job_output_effect (h : ∀ id, Fits (registry.view id)) {stream : OutputStream}
    {data : List UInt8}
    (hnext : registry.next_loop (.append_job_output id stream data) = some registry') :
    StepEffect registry registry' := by
  obtain ⟨cancel_rx, locals, hexecution, hnext⟩ := loop_step_cases hnext
  obtain ⟨_, hnext⟩ := Option.ite_none_left_eq_some.mp hnext
  obtain rfl := Option.some.inj hnext
  unfold CommandJobRegistry.rewrite
  split
  · exact .refl h
  · next entry hentry =>
    split
    · exact .refl h
    · next entry' happended =>
      obtain ⟨hwrites, hstate⟩ := appended_entry_writes happended
      have hself := view_write_self registry id entry'
      refine StepEffect.write h hentry hwrites ⟨rfl, rfl, rfl⟩ rfl ?_ ?_ ?_ ?_
      · intro other hother
        exact view_write_of_ne registry entry' hother
      · rw [hself]
      · rw [hself]
      · rw [hself]
        have hfits := (h id).write hentry hwrites hexecution
          (fun hstage => hstate.symm ▸ hstage) (fun hpast => hpast) .inl
        rwa [← hexecution] at hfits

theorem cancel_deadline_seen (locals : ExecuteLoop) :
    locals.deadline.cancellation_seen = locals.cancellation_seen := by
  unfold ExecuteLoop.deadline
  split <;> rfl

theorem next_loop_effect (h : ∀ id, Fits (registry.view id))
    (hnext : registry.next_loop label = some registry') : StepEffect registry registry' := by
  cases label
  case cancelled_looping id kill => exact cancelled_looping_effect h hnext
  case append_job_output id stream data => exact append_job_output_effect h hnext
  case wait id result =>
    obtain ⟨cancel_rx, locals, hexecution, hnext⟩ := loop_step_cases hnext
    obtain ⟨_, hnext⟩ := Option.ite_none_left_eq_some.mp hnext
    obtain rfl := Option.some.inj hnext
    exact loop_effect h hexecution rfl
  case pipe_error id stream message kill =>
    obtain ⟨cancel_rx, locals, hexecution, hnext⟩ := loop_step_cases hnext
    obtain ⟨_, hnext⟩ := Option.ite_none_left_eq_some.mp hnext
    obtain rfl := Option.some.inj hnext
    exact loop_effect h hexecution rfl
  case pipes_closed id =>
    obtain ⟨cancel_rx, locals, hexecution, hnext⟩ := loop_step_cases hnext
    obtain ⟨_, hnext⟩ := Option.ite_none_left_eq_some.mp hnext
    obtain rfl := Option.some.inj hnext
    exact loop_effect h hexecution rfl
  case cancel_deadline id =>
    obtain ⟨cancel_rx, locals, hexecution, hnext⟩ := loop_step_cases hnext
    obtain ⟨_, hnext⟩ := Option.ite_none_right_eq_some.mp hnext
    obtain rfl := Option.some.inj hnext
    exact leave_effect h hexecution (cancel_deadline_seen locals)
  case leave_loop id =>
    dsimp only [CommandJobRegistry.next_loop] at hnext
    split at hnext
    · next cancel_rx locals hexecution =>
      obtain ⟨_, hnext⟩ := Option.ite_none_left_eq_some.mp hnext
      obtain rfl := Option.some.inj hnext
      exact leave_effect h hexecution rfl
    · exact absurd hnext.symm (Option.some_ne_none _)
  all_goals exact absurd hnext.symm (Option.some_ne_none _)

/-! ### Cancelling -/

theorem decide_mem_cons_of_ne {ids : List Text} (hother : other ≠ id) :
    decide (other ∈ id :: ids) = decide (other ∈ ids) := by
  rw [decide_eq_decide, List.mem_cons]
  exact or_iff_right hother

theorem stageFits_cancelled {stage : ExecuteStage} {state next : CommandJobState}
    (hstage : StageFits stage state)
    (hcancelled : state = .Queued ∧ next = .Cancelled ∨ state = .Running ∧ next = .Cancelling) :
    StageFits stage next := by
  rcases hcancelled with ⟨rfl, rfl⟩ | ⟨rfl, rfl⟩
  · cases stage with
    | entered => exact .inr rfl
    | acquiring => exact .inr rfl
    | acquired => exact .inr rfl
    | starting => exact absurd hstage (by simp [StageFits])
    | looping locals => exact absurd hstage (by simp [StageFits])
    | left locals => exact absurd hstage (by simp [StageFits])
    | finishing finish permit => exact absurd hstage (by simp [StageFits])
    | ended => rfl
  · cases stage with
    | entered => exact absurd hstage (by simp [StageFits])
    | acquiring => exact absurd hstage (by simp [StageFits])
    | acquired => exact absurd hstage (by simp [StageFits])
    | starting => exact .inr rfl
    | looping locals => exact .inr rfl
    | left locals => exact .inr rfl
    | finishing finish permit =>
      rcases hstage with ⟨_, hstate⟩ | ⟨hfinish, _⟩
      · exact absurd hstate (by simp)
      · exact .inr ⟨hfinish, .inr rfl⟩
    | ended => exact absurd hstage Bool.false_ne_true

theorem cancel_effect (h : ∀ id, Fits (registry.view id)) (id : Text) (now : Timestamp) :
    StepEffect registry (registry.cancel id now) := by
  unfold CommandJobRegistry.cancel
  split
  · exact .refl h
  · next entry hentry =>
    split
    · exact .refl h
    · next job hjob =>
      obtain ⟨hwrites, hcancelled⟩ := cancelled_job_writes hjob
      have hversion := ((h id).kept entry hentry).1
      have hstopping : Stopping job.state := by
        rcases hcancelled with ⟨_, hstate⟩ | ⟨_, hstate⟩
        · exact .inr (by rw [hstate]; rfl)
        · exact .inl hstate
      have hself : ({ registry.write id { entry with job := job } with
            unsent := id :: registry.unsent } : CommandJobRegistry).view id =
          { registry.view id with
            entry := some { entry with job := job }, version := some job, unsent := true } := by
        apply JobView.ext
        case entry => exact AList.lookup_insert registry.entries
        case version => exact AList.lookup_insert registry.versions
        case unsent => exact decide_eq_true List.mem_cons_self
        all_goals rfl
      refine StepEffect.write h hentry hwrites ⟨rfl, rfl, rfl⟩ rfl ?_ ?_ ?_ ?_
      · intro other hother
        apply JobView.ext
        case entry => exact AList.lookup_insert_ne hother
        case version => exact AList.lookup_insert_ne hother
        case unsent => exact decide_mem_cons_of_ne hother
        all_goals rfl
      · rw [hself]
      · rw [hself]
      · rw [hself]
        -- a job that is not terminal has an execution
        cases hexecution : registry.execution id with
        | none =>
          have hterminal := (h id).unexecuted _ hversion hexecution
          rw [hwrites.active] at hterminal
          exact absurd hterminal Bool.false_ne_true
        | some execution =>
          have hfits := (h id).write hentry hwrites hexecution
            (fun hstage => stageFits_cancelled hstage hcancelled) (fun hpast => hpast)
            (fun (_ : true = true) => .inr hstopping)
          rwa [← hexecution] at hfits

theorem send_effect (h : ∀ id, Fits (registry.view id)) (hunsent : id ∈ registry.unsent) :
    StepEffect registry (registry.send id) := by
  have hbefore : (registry.view id).unsent = true := decide_eq_true hunsent
  have herase : ∀ other, other ≠ id →
      decide (other ∈ registry.unsent.erase id) = decide (other ∈ registry.unsent) := by
    intro other hother
    rw [decide_eq_decide]
    exact List.mem_erase_of_ne hother
  unfold CommandJobRegistry.send
  dsimp only
  cases hexecution : registry.execution id with
  | none =>
    refine StepEffect.of_view h id ⟨rfl, rfl, rfl⟩ ?_ ?_ ?_ (Nat.le_refl _) (Nat.le_refl _)
    · intro other hother
      apply JobView.ext
      case unsent => exact herase other hother
      all_goals rfl
    · exact
        { h id with
          stopped := fun hsignal => (h id).stopped (hsignal.imp (fun _ => hbefore) fun h => h) }
    · exact .of_version rfl rfl
  | some execution =>
    refine StepEffect.of_view h id ⟨rfl, rfl, rfl⟩ ?_ ?_ ?_ (Nat.le_refl _) (Nat.le_refl _)
    · intro other hother
      apply JobView.ext
      case execution => exact AList.lookup_insert_ne hother
      case unsent => exact herase other hother
      all_goals rfl
    · rw [view_set_stage_self]
      have hold : (registry.view id).execution = some execution := hexecution
      refine { h id with executed := ?_, unexecuted := ?_, stopped := ?_, unseen := ?_, started := ?_ }
      · intro sent hsome
        obtain rfl := Option.some.inj hsome
        exact (h id).executed execution hold
      · intro _ _ hnone
        exact absurd hnone (Option.some_ne_none _)
      · intro _
        exact (h id).stopped (.inl hbefore)
      · intro sent hsome _
        obtain rfl := Option.some.inj hsome
        rfl
      · intro hstarted
        obtain ⟨other, hother, hpast⟩ := (h id).started hstarted
        obtain rfl := Option.some.inj (hold.symm.trans hother)
        exact ⟨_, rfl, hpast⟩
    · exact .of_version rfl rfl

/-! ### New jobs -/

/-- How a job appears. -/
inductive Appears (registry : CommandJobRegistry) (label : Label) (id : Text) (job : CommandJob) :
    Prop where
  | queued {call : Nat} {resolved : ResolvedCommand} {confirmation : Option Text} :
      label = .start_process call id →
      registry.operations.lookup call = some (.run resolved confirmation) →
      job.host_id = resolved.host.id → job.state = .Queued → job.revision = 1 →
      Appears registry label id job
  | handed {call : Nat} {now : Timestamp} {plan : PtyCommandPlan} {session_id : Text} :
      label = .record_pty_handoff call id now →
      registry.operations.lookup call = some (.handoff plan session_id) →
      job.host_id = plan.host_id → job.state = .Completed → job.revision = 1 →
      Appears registry label id job

/-- The bounds on the jobs. -/
structure Bounded (registry : CommandJobRegistry) : Prop where
  pending : pending_jobs registry.entries ≤ MAX_PENDING_JOBS
  length : registry.entries.entries.length ≤ MAX_RETAINED_JOBS

/-- What a step does to the jobs. -/
structure JobsStep (registry : CommandJobRegistry) (label : Label) (registry' : CommandJobRegistry) :
    Prop where
  fits : ∀ id, Fits (registry'.view id)
  changes : ∀ id, Evolves (registry.view id) (registry'.view id) ∨
    registry.version id = none ∧ (registry'.view id).started = false ∧
      ∃ job, registry'.version id = some job ∧ Appears registry label id job
  bounded : Bounded registry → Bounded registry'

theorem StepEffect.jobs (h : StepEffect registry registry') : JobsStep registry label registry' where
  fits := h.fits
  changes := fun id => .inl (h.evolves id)
  bounded := fun hbounded =>
    ⟨Nat.le_trans h.pending hbounded.pending, Nat.le_trans h.length hbounded.length⟩

/-- Nothing changes that is about jobs. -/
theorem JobsStep.of_same (h : ∀ id, Fits (registry.view id)) (hview : registry'.view = registry.view)
    (hentries : registry'.entries = registry.entries) : JobsStep registry label registry' where
  fits := hview.symm ▸ h
  changes := fun id => .inl (.of_version (by rw [hview]) (by rw [hview]))
  bounded := fun hbounded => ⟨hentries.symm ▸ hbounded.pending, hentries.symm ▸ hbounded.length⟩

/-- Nobody knows a job that was not made. -/
theorem Fits.unknown {view : JobView} (h : Fits view) (hversion : view.version = none) :
    view.execution = none ∧ view.unsent = false ∧ view.started = false := by
  have hexecution : view.execution = none := by
    cases hsome : view.execution with
    | none => rfl
    | some execution =>
      obtain ⟨job, hjob, _⟩ := h.executed execution hsome
      rw [hversion] at hjob
      exact absurd hjob.symm (Option.some_ne_none job)
  refine ⟨hexecution, ?_, ?_⟩
  · by_contra hunsent
    rw [Bool.not_eq_false] at hunsent
    obtain ⟨job, hjob, _⟩ := h.stopped (.inl hunsent)
    rw [hversion] at hjob
    exact absurd hjob.symm (Option.some_ne_none job)
  · by_contra hstarted
    rw [Bool.not_eq_false] at hstarted
    obtain ⟨execution, hsome, _⟩ := h.started hstarted
    rw [hexecution] at hsome
    exact absurd hsome.symm (Option.some_ne_none execution)

/-- The view of a job that was just made. -/
def new_view (entry : RegistryEntry) (execution : Option Execution) : JobView where
  entry := some entry
  version := some entry.job
  execution := execution
  unsent := false
  started := false

theorem new_view_counted {entry : RegistryEntry} (hrevision : entry.job.revision = 1) :
    Counted entry := by
  unfold Counted
  omega

theorem fits_queued {entry : RegistryEntry} (hrevision : entry.job.revision = 1)
    (hstate : entry.job.state = .Queued) :
    Fits (new_view entry (some ⟨⟨false, false⟩, .entered⟩)) where
  kept := by
    intro other hsome
    obtain rfl := Option.some.inj hsome
    exact ⟨rfl, new_view_counted hrevision⟩
  pending := fun _ _ _ => rfl
  finished := by
    intro job hsome hterminal
    obtain rfl := Option.some.inj hsome
    rw [hstate] at hterminal
    exact absurd hterminal Bool.false_ne_true
  executed := by
    intro execution hsome
    obtain rfl := Option.some.inj hsome
    exact ⟨_, rfl, .inl hstate⟩
  unexecuted := fun _ _ hnone => absurd hnone (Option.some_ne_none _)
  stopped := by
    rintro (hunsent | ⟨execution, hsome, hsignal⟩)
    · exact absurd hunsent Bool.false_ne_true
    · obtain rfl := Option.some.inj hsome
      exact hsignal.elim (fun h => absurd h Bool.false_ne_true) (fun h => absurd h Bool.false_ne_true)
  unseen := by
    intro execution hsome hsignal
    obtain rfl := Option.some.inj hsome
    exact hsignal
  started := fun h => absurd h Bool.false_ne_true

theorem fits_handed {entry : RegistryEntry} (hrevision : entry.job.revision = 1)
    (hstate : entry.job.state = .Completed) (hfinished : entry.job.finished_at.isSome = true) :
    Fits (new_view entry none) where
  kept := by
    intro other hsome
    obtain rfl := Option.some.inj hsome
    exact ⟨rfl, new_view_counted hrevision⟩
  pending := fun _ _ _ => rfl
  finished := by
    intro job hsome _
    obtain rfl := Option.some.inj hsome
    exact hfinished
  executed := fun _ hsome => absurd hsome.symm (Option.some_ne_none _)
  unexecuted := by
    intro job hsome _
    obtain rfl := Option.some.inj hsome
    rw [hstate]
    rfl
  stopped := by
    rintro (hunsent | ⟨execution, hsome, _⟩)
    · exact absurd hunsent Bool.false_ne_true
    · exact absurd hsome.symm (Option.some_ne_none execution)
  unseen := fun _ hsome => absurd hsome.symm (Option.some_ne_none _)
  started := fun h => absurd h Bool.false_ne_true

variable (registry id) in
/-- The entry that `insert_job` makes. -/
def inserted_entry (job : CommandJob) : RegistryEntry where
  job := job
  sequence := registry.next_sequence
  stdout_truncated := false
  stderr_truncated := false

variable (registry id) in
theorem view_insert_job_self (job : CommandJob) :
    (registry.insert_job id job).view id =
      { registry.view id with
        entry := some (inserted_entry registry job), version := some job } :=
  view_write_self registry id (inserted_entry registry job)

theorem view_insert_job_of_ne (job : CommandJob) (hother : other ≠ id) :
    (registry.insert_job id job).view other = registry.view other :=
  view_write_of_ne registry (inserted_entry registry job) hother

/-- There is room for one more after pruning. -/
theorem length_insert_job (hpending : pending_jobs registry.entries ≤ MAX_PENDING_JOBS)
    (job : CommandJob) :
    (registry.prune.insert_job id job).entries.entries.length ≤ MAX_RETAINED_JOBS := by
  show ((pruned registry.entries).insert id (inserted_entry registry job)).entries.length ≤ _
  have hroom : (pruned registry.entries).entries.length < MAX_RETAINED_JOBS := by
    have hcount : pending_jobs (pruned registry.entries) ≤ pending_jobs registry.entries :=
      pending_prune_le _ _ _
    have hpruned : (pruned registry.entries).entries.length < MAX_RETAINED_JOBS ∨
        (pruned registry.entries).entries.length = pending_jobs (pruned registry.entries) :=
      length_prune_lt (by decide) (Nat.le_refl _)
    have hlimits : MAX_PENDING_JOBS < MAX_RETAINED_JOBS := by decide
    omega
  rw [AList.entries_insert_erase, List.length_cons]
  have herase := AList.length_erase_le (pruned registry.entries) id
  omega

theorem pending_insert_job (job : CommandJob) :
    pending_jobs (registry.insert_job id job).entries ≤
      pending_jobs registry.entries + if job.state.is_terminal = true then 0 else 1 := by
  show pending_jobs (registry.entries.insert id (inserted_entry registry job)) ≤ _
  unfold pending_jobs
  rw [AList.entries_insert_erase, List.countP_cons]
  have herase := AList.countP_erase_le registry.entries id fun item => !item.2.job.state.is_terminal
  show _ + (if (!job.state.is_terminal) = true then 1 else 0) ≤ _
  cases job.state.is_terminal
  · exact Nat.add_le_add_right herase 1
  · exact herase

/-- A job is made after pruning. -/
theorem jobs_of_insert (h : ∀ id, Fits (registry.view id)) (habsent : registry.version id = none)
    {job : CommandJob} {execution : Option Execution} (happears : Appears registry label id job)
    (hothers : ∀ other, other ≠ id → registry'.view other = registry.prune.view other)
    (hself : registry'.view id = new_view (inserted_entry registry job) execution)
    (hfits : Fits (new_view (inserted_entry registry job) execution))
    (hbounded : Bounded registry → Bounded registry') : JobsStep registry label registry' := by
  have hpruned : StepEffect registry registry.prune := (StepEffect.refl h).prune
  refine ⟨?_, ?_, hbounded⟩
  · intro other
    by_cases hother : other = id
    · rw [hother, hself]
      exact hfits
    · rw [hothers other hother]
      exact hpruned.fits other
  · intro other
    by_cases hother : other = id
    · right
      rw [hother]
      refine ⟨habsent, by rw [hself]; rfl, job, ?_, happears⟩
      show (registry'.view id).version = some job
      rw [hself]
      rfl
    · left
      rw [hothers other hother]
      exact hpruned.evolves other

theorem start_process_jobs (h : ∀ id, Fits (registry.view id))
    (habsent : registry.version id = none) {prepared : PreparedCommand} {operations}
    (happears : Appears registry label id (queued_job id prepared)) :
    JobsStep registry label
      { registry.start_process id prepared with operations := operations } := by
  have hpruned : StepEffect registry registry.prune := (StepEffect.refl h).prune
  unfold CommandJobRegistry.start_process
  dsimp only
  split
  · have hfull : JobsStep registry label registry.prune := hpruned.jobs
    refine ⟨hfull.fits, hfull.changes, ?_⟩
    intro hbounded
    exact ⟨(hfull.bounded hbounded).pending, (hfull.bounded hbounded).length⟩
  · next hroom =>
    obtain ⟨_, hunsent, hstarted⟩ := (h id).unknown habsent
    refine jobs_of_insert h habsent happears ?_ ?_ (fits_queued rfl rfl) ?_
    · intro other hother
      exact (view_set_stage_of_ne (registry.prune.insert_job id (queued_job id prepared)) _ _
        hother).trans (view_insert_job_of_ne _ hother)
    · have hview := view_set_stage_self (registry.prune.insert_job id (queued_job id prepared)) id
        ⟨false, false⟩ .entered
      rw [view_insert_job_self] at hview
      exact hview.trans (JobView.ext rfl rfl rfl hunsent hstarted)
    · intro hbounded
      refine ⟨?_, length_insert_job hbounded.pending _⟩
      have hcount : pending_jobs (registry.prune.insert_job id (queued_job id prepared)).entries ≤
          pending_jobs registry.prune.entries + 1 := pending_insert_job _
      show pending_jobs (registry.prune.insert_job id (queued_job id prepared)).entries ≤ _
      omega

theorem record_pty_handoff_jobs (h : ∀ id, Fits (registry.view id))
    (habsent : registry.version id = none) {plan : PtyCommandPlan} {session_id : Text} {operations}
    (happears : Appears registry label id (handoff_job id plan session_id now)) :
    JobsStep registry label
      { registry.record_pty_handoff id plan session_id now with operations := operations } := by
  have hpruned : StepEffect registry registry.prune := (StepEffect.refl h).prune
  obtain ⟨hexecution, hunsent, hstarted⟩ := (h id).unknown habsent
  refine jobs_of_insert h habsent happears ?_ ?_ (fits_handed rfl rfl rfl) ?_
  · intro other hother
    exact view_insert_job_of_ne _ hother
  · have hview := view_insert_job_self registry.prune id (handoff_job id plan session_id now)
    exact hview.trans (JobView.ext rfl rfl hexecution hunsent hstarted)
  · intro hbounded
    refine ⟨?_, length_insert_job hbounded.pending _⟩
    have hcount : pending_jobs (registry.prune.insert_job id (handoff_job id plan session_id now)).entries ≤
        pending_jobs registry.prune.entries + 0 := pending_insert_job _
    have hfewer := Nat.le_trans hpruned.pending hbounded.pending
    exact Nat.le_trans hcount hfewer

theorem prepare_run_host {resolved : ResolvedCommand} {confirmation : Option Text}
    {prepared : PreparedCommand} (h : prepare_run resolved confirmation = .ok prepared) :
    prepared.host = resolved.host := by
  unfold prepare_run at h
  obtain ⟨analysis, _, h⟩ := Outcome.bind_eq_ok.mp h
  obtain ⟨_, _, h⟩ := Outcome.bind_eq_ok.mp h
  obtain ⟨_, h⟩ := Outcome.ite_error_eq_ok.mp h
  rw [← Except.ok.inj h]

/-! ### Hosts -/

/-- What holds of the leases and the retirements in every state. -/
structure HostInv (registry : CommandJobRegistry) : Prop where
  barrier : BarrierInv registry.host_operations
  /-- A call that has not registered its job holds a lease. -/
  leased : ∀ call operation, registry.operations.lookup call = some operation →
    (call, operation.host_id) ∈ registry.host_operations.leases
  retired : ∀ host_id stage, registry.retirements.lookup host_id = some stage →
    registry.host_operations.retired host_id = true
  unheld : ∀ host_id stage, registry.retirements.lookup host_id = some stage → stage ≠ .waiting →
    registry.host_operations.unheld host_id
  purging : ∀ host_id, registry.retirements.lookup host_id = some .purging →
    ∀ id entry, registry.entry id = some entry → entry.job.host_id = host_id →
      entry.job.state.is_terminal = true

/-- No job that is not terminal appears on a host that is being purged. -/
theorem HostInv.purging_step (h : HostInv registry) (hfits : ∀ id, Fits (registry.view id))
    (hjobs : JobsStep registry label registry') {host_id : Text}
    (hpurging : registry.retirements.lookup host_id = some .purging) {entry : RegistryEntry}
    (hentry : registry'.entry id = some entry) (hhost : entry.job.host_id = host_id) :
    entry.job.state.is_terminal = true := by
  have hkept := ((hjobs.fits id).kept entry hentry).1
  rcases hjobs.changes id with hevolves | ⟨_, _, job, hmade, happears⟩
  · cases hversion : (registry.view id).version with
    | none =>
      rw [hevolves.absent hversion] at hkept
      exact absurd hkept.symm (Option.some_ne_none _)
    | some job =>
      obtain ⟨job', hjob', hchange⟩ := hevolves.present job hversion
      obtain rfl := Option.some.inj (hkept.symm.trans hjob')
      by_contra hpending
      -- the job was there before, on the same host, and was not terminal
      have hbefore : job.state.is_terminal = false ∧ job.host_id = host_id := by
        rcases hchange with hsame | hadvances
        · rw [← hsame]
          exact ⟨Bool.eq_false_of_not_eq_true hpending, hhost⟩
        · exact ⟨hadvances.active, hadvances.host_id.symm.trans hhost⟩
      obtain ⟨old, hold, rfl⟩ := (hfits id).entry_of_pending hversion hbefore.1
      have hterminal := h.purging host_id hpurging id old hold hbefore.2
      rw [hbefore.1] at hterminal
      exact Bool.false_ne_true hterminal
  · -- a new job has a lease of its host
    obtain rfl := Option.some.inj (hkept.symm.trans hmade)
    have hunheld := h.unheld host_id .purging hpurging RetireStage.noConfusion
    cases happears with
    | queued _ hcall hsame _ _ => exact absurd (hsame.symm.trans hhost) (hunheld _ (h.leased _ _ hcall))
    | handed _ hcall hsame _ _ => exact absurd (hsame.symm.trans hhost) (hunheld _ (h.leased _ _ hcall))

/-- A step that changes neither the leases nor the retirements. -/
theorem HostInv.of_same (h : HostInv registry) (hfits : ∀ id, Fits (registry.view id))
    (hjobs : JobsStep registry label registry')
    (hbarrier : registry'.host_operations = registry.host_operations)
    (hretirements : registry'.retirements = registry.retirements)
    (hoperations : ∀ call operation, registry'.operations.lookup call = some operation →
      registry.operations.lookup call = some operation) : HostInv registry' where
  barrier := hbarrier.symm ▸ h.barrier
  leased := fun call operation hcall => hbarrier.symm ▸ h.leased call operation (hoperations _ _ hcall)
  retired := fun host_id stage hstage => hbarrier.symm ▸ h.retired host_id stage (hretirements ▸ hstage)
  unheld := fun host_id stage hstage => hbarrier.symm ▸ h.unheld host_id stage (hretirements ▸ hstage)
  purging := fun _ hpurging _ _ hentry hhost =>
    h.purging_step hfits hjobs (hretirements ▸ hpurging) hentry hhost

/-- A step of the barrier that restores no host whose retirement goes on. -/
theorem HostInv.of_barrier (h : HostInv registry) (hfits : ∀ id, Fits (registry.view id))
    (hjobs : JobsStep registry label registry') {step : HostOperation.Label Nat}
    (hstep : registry.host_operations.next step = some registry'.host_operations)
    (hretirements : registry'.retirements = registry.retirements)
    (hrestore : ∀ host_id, step = .restore host_id → registry.retirements.lookup host_id = none)
    (hleased : ∀ call operation, registry'.operations.lookup call = some operation →
      (call, operation.host_id) ∈ registry'.host_operations.leases) : HostInv registry' := by
  have hgoes_on : ∀ host_id stage, registry'.retirements.lookup host_id = some stage →
      registry.retirements.lookup host_id = some stage ∧ step ≠ .restore host_id := by
    intro host_id stage hstage
    rw [hretirements] at hstage
    refine ⟨hstage, ?_⟩
    intro hsame
    rw [hrestore host_id hsame] at hstage
    exact absurd hstage.symm (Option.some_ne_none stage)
  refine ⟨h.barrier.step hstep, hleased, ?_, ?_, ?_⟩
  · intro host_id stage hstage
    obtain ⟨hbefore, hrestored⟩ := hgoes_on host_id stage hstage
    exact HostOperation.retired_step hstep hrestored (h.retired host_id stage hbefore)
  · intro host_id stage hstage hwaiting
    obtain ⟨hbefore, _⟩ := hgoes_on host_id stage hstage
    exact HostOperation.unheld_step hstep (h.retired host_id stage hbefore)
      (h.unheld host_id stage hbefore hwaiting)
  · intro host_id hpurging id entry hentry hhost
    exact h.purging_step hfits hjobs (hgoes_on host_id _ hpurging).1 hentry hhost

/-- A retirement gets to a stage. -/
theorem HostInv.retirement (h : HostInv registry) {host_id : Text} {stage : RetireStage}
    (hretirements : registry'.retirements = registry.retirements.insert host_id stage)
    (hbarrier : registry'.host_operations = registry.host_operations)
    (hoperations : registry'.operations = registry.operations)
    (hentries : ∀ id entry, registry'.entry id = some entry → registry.entry id = some entry)
    (hretired : registry.host_operations.retired host_id = true)
    (hunheld : stage ≠ .waiting → registry.host_operations.unheld host_id)
    (hpurging : stage = .purging → ∀ id entry, registry.entry id = some entry →
      entry.job.host_id = host_id → entry.job.state.is_terminal = true) : HostInv registry' := by
  have hlookup : ∀ other, registry'.retirements.lookup other =
      if other = host_id then some stage else registry.retirements.lookup other := by
    intro other
    rw [hretirements]
    split
    · next hother => rw [hother, AList.lookup_insert]
    · next hother => rw [AList.lookup_insert_ne hother]
  refine ⟨hbarrier.symm ▸ h.barrier, ?_, ?_, ?_, ?_⟩
  · rw [hbarrier, hoperations]
    exact h.leased
  · intro other found hfound
    rw [hlookup] at hfound
    rw [hbarrier]
    split at hfound
    · next hother =>
      rw [hother]
      exact hretired
    · exact h.retired other found hfound
  · intro other found hfound hwaiting
    rw [hlookup] at hfound
    rw [hbarrier]
    split at hfound
    · next hother =>
      rw [hother]
      exact hunheld (Option.some.inj hfound ▸ hwaiting)
    · exact h.unheld other found hfound hwaiting
  · intro other hfound id entry hentry hhost
    rw [hlookup] at hfound
    split at hfound
    · next hother =>
      exact hpurging (Option.some.inj hfound) id entry (hentries id entry hentry) (hhost.trans hother)
    · exact h.purging other hfound id entry (hentries id entry hentry) hhost

/-- A retirement is over. -/
theorem HostInv.end_retirement (h : HostInv registry) {host_id : Text}
    (hretirements : registry'.retirements = registry.retirements.erase host_id)
    (hbarrier : registry'.host_operations = registry.host_operations)
    (hoperations : registry'.operations = registry.operations)
    (hentries : ∀ id entry, registry'.entry id = some entry → registry.entry id = some entry) :
    HostInv registry' := by
  have hlookup : ∀ other stage, registry'.retirements.lookup other = some stage →
      registry.retirements.lookup other = some stage := by
    intro other stage hstage
    rw [hretirements] at hstage
    exact AList.lookup_of_erase hstage
  refine ⟨hbarrier.symm ▸ h.barrier, ?_, ?_, ?_, ?_⟩
  · rw [hbarrier, hoperations]
    exact h.leased
  · intro other stage hstage
    rw [hbarrier]
    exact h.retired other stage (hlookup other stage hstage)
  · intro other stage hstage hwaiting
    rw [hbarrier]
    exact h.unheld other stage (hlookup other stage hstage) hwaiting
  · intro other hpurging id entry hentry hhost
    exact h.purging other (hlookup other _ hpurging) id entry (hentries id entry hentry) hhost

/-! ### The invariant -/

structure RegistryInv (registry : CommandJobRegistry) : Prop where
  fits : ∀ id, Fits (registry.view id)
  hosts : HostInv registry
  bounded : Bounded registry

theorem StepEffect.inv (h : RegistryInv registry) (heffect : StepEffect registry registry') :
    JobsStep registry label registry' ∧ HostInv registry' := by
  have hjobs : JobsStep registry label registry' := heffect.jobs
  refine ⟨hjobs, h.hosts.of_same h.fits hjobs heffect.hosts.host_operations
    heffect.hosts.retirements ?_⟩
  rw [heffect.hosts.operations]
  exact fun _ _ hcall => hcall

theorem begin_host_operation_inv (h : RegistryInv registry) (operation : Operation) :
    JobsStep registry label (registry.begin_host_operation operation) ∧
      HostInv (registry.begin_host_operation operation) := by
  have hjobs : JobsStep registry label (registry.begin_host_operation operation) :=
    .of_same h.fits rfl rfl
  refine ⟨hjobs, h.hosts.of_barrier h.fits hjobs
    (show registry.host_operations.next (.begin registry.next_call operation.host_id) = _ from rfl)
    rfl (fun _ hsame => nomatch hsame) ?_⟩
  intro call other hcall
  show (call, other.host_id) ∈
    (registry.host_operations.begin registry.next_call operation.host_id).1.leases
  change (if (registry.host_operations.begin registry.next_call operation.host_id).2 = true then
    registry.operations.insert registry.next_call operation else registry.operations).lookup call =
      some other at hcall
  rcases HostOperation.begin_cases registry.host_operations registry.next_call operation.host_id with
    ⟨_, hadmitted, hleases, _⟩ | ⟨_, hadmitted, hleases, _⟩
  · rw [hadmitted, if_neg Bool.false_ne_true] at hcall
    rw [hleases]
    exact h.hosts.leased call other hcall
  · rw [hadmitted, if_pos rfl] at hcall
    rw [hleases, List.mem_append, List.mem_singleton]
    by_cases hsame : call = registry.next_call
    · rw [hsame, AList.lookup_insert] at hcall
      obtain rfl := Option.some.inj hcall
      exact .inr (by rw [hsame])
    · rw [AList.lookup_insert_ne hsame] at hcall
      exact .inl (h.hosts.leased call other hcall)

theorem end_host_operation_inv (h : RegistryInv registry) {call : Nat} {host_id : Text}
    (hnext : registry.next_start (.end_host_operation call host_id) = some registry') :
    JobsStep registry label registry' ∧ HostInv registry' := by
  obtain ⟨hlease, hnext⟩ := Option.ite_none_right_eq_some.mp hnext
  obtain rfl := Option.some.inj hnext
  have hjobs : JobsStep registry label { registry with
      host_operations := registry.host_operations.drop call host_id
      operations := registry.operations.erase call } := .of_same h.fits rfl rfl
  have hdrop : registry.host_operations.next (.drop call host_id) =
      some (registry.host_operations.drop call host_id) := if_pos hlease
  refine ⟨hjobs, h.hosts.of_barrier h.fits hjobs hdrop rfl
    (fun _ hsame => nomatch hsame) ?_⟩
  intro other operation hcall
  show (other, operation.host_id) ∈ (registry.host_operations.drop call host_id).leases
  have hother : other ≠ call := by
    rintro rfl
    rw [AList.lookup_erase] at hcall
    exact absurd hcall.symm (Option.some_ne_none operation)
  rw [AList.lookup_erase_ne hother] at hcall
  rw [HostOperation.drop_leases, List.mem_erase_of_ne]
  · exact h.hosts.leased other operation hcall
  · intro hsame
    exact hother (congrArg Prod.fst hsame)

theorem next_start_inv (h : RegistryInv registry)
    (hnext : registry.next_start label = some registry') :
    JobsStep registry label registry' ∧ HostInv registry' := by
  cases label
  case begin_host_operation operation =>
    obtain rfl := Option.some.inj hnext
    exact begin_host_operation_inv h operation
  case end_host_operation call host_id => exact end_host_operation_inv h hnext
  case start_process call id =>
    obtain ⟨habsent, hnext⟩ := Option.ite_none_left_eq_some.mp hnext
    rw [Bool.not_eq_true, Option.isSome_eq_false_iff, Option.isNone_iff_eq_none] at habsent
    split at hnext
    · next resolved confirmation hcall =>
      split at hnext
      · next prepared hprepared =>
        obtain rfl := Option.some.inj hnext
        have hhost : (queued_job id prepared).host_id = resolved.host.id :=
          congrArg HostProfile.id (prepare_run_host hprepared)
        have hjobs : JobsStep registry (.start_process call id)
            { registry.start_process id prepared with operations := registry.operations.erase call } :=
          start_process_jobs h.fits habsent (.queued rfl hcall hhost rfl rfl)
        refine ⟨hjobs, h.hosts.of_same h.fits hjobs ?_ ?_ ?_⟩
        · unfold CommandJobRegistry.start_process
          dsimp only
          split <;> rfl
        · unfold CommandJobRegistry.start_process
          dsimp only
          split <;> rfl
        · intro _ _ hfound
          exact AList.lookup_of_erase hfound
      · exact absurd hnext.symm (Option.some_ne_none _)
    · exact absurd hnext.symm (Option.some_ne_none _)
  case record_pty_handoff call id now =>
    obtain ⟨habsent, hnext⟩ := Option.ite_none_left_eq_some.mp hnext
    rw [Bool.not_eq_true, Option.isSome_eq_false_iff, Option.isNone_iff_eq_none] at habsent
    split at hnext
    · next plan session_id hcall =>
      obtain rfl := Option.some.inj hnext
      have hjobs : JobsStep registry (.record_pty_handoff call id now)
          { registry.record_pty_handoff id plan session_id now with
            operations := registry.operations.erase call } :=
        record_pty_handoff_jobs h.fits habsent (.handed rfl hcall rfl rfl rfl)
      refine ⟨hjobs, h.hosts.of_same h.fits hjobs rfl rfl ?_⟩
      intro _ _ hfound
      exact AList.lookup_of_erase hfound
    · exact absurd hnext.symm (Option.some_ne_none _)
  case cancel id now =>
    obtain rfl := Option.some.inj hnext
    exact (cancel_effect h.fits id now).inv h
  case send id =>
    obtain ⟨hunsent, hnext⟩ := Option.ite_none_right_eq_some.mp hnext
    obtain rfl := Option.some.inj hnext
    exact (send_effect h.fits hunsent).inv h
  all_goals exact absurd hnext.symm (Option.some_ne_none _)

theorem all_terminal_iff {host_id : Text} (h : registry.all_terminal host_id = true)
    {entry : RegistryEntry} (hentry : registry.entry id = some entry)
    (hhost : entry.job.host_id = host_id) : entry.job.state.is_terminal = true := by
  have hitem := List.all_eq_true.mp h ⟨id, entry⟩ (List.of_mem_dlookup hentry)
  rw [Bool.or_eq_true] at hitem
  rcases hitem with hother | hterminal
  · exact absurd hhost (of_decide_eq_true hother)
  · exact hterminal

/-- A purge drops the entries of its host, all of them terminal. -/
theorem purge_jobs (h : RegistryInv registry) {host_id : Text}
    (hpurging : registry.retirements.lookup host_id = some .purging) :
    JobsStep registry label (registry.purge host_id) := by
  refine ⟨?_, fun _ => .inl (.of_version rfl rfl), ?_⟩
  · intro id
    cases hpurged : (registry.purge host_id).entry id with
    | some entry =>
      have hsame : (registry.purge host_id).view id = registry.view id := by
        apply JobView.ext
        case entry => exact hpurged.trans (AList.lookup_eraseAll_some hpurged).symm
        all_goals rfl
      rw [hsame]
      exact h.fits id
    | none =>
      have hdropped : (registry.purge host_id).view id = { registry.view id with entry := none } := by
        apply JobView.ext
        case entry => exact hpurged
        all_goals rfl
      rw [hdropped]
      apply (h.fits id).drop
      intro job hversion
      by_contra hpending
      rw [Bool.not_eq_true] at hpending
      obtain ⟨entry, hentry, rfl⟩ := (h.fits id).entry_of_pending hversion hpending
      have hkept : (registry.purge host_id).entry id = some entry := by
        refine (AList.lookup_eraseAll_of_notMem ?_).trans hentry
        intro hgone
        obtain ⟨⟨key, other⟩, hitem, rfl⟩ := List.mem_map.mp hgone
        obtain ⟨hmem, hhost⟩ := List.mem_filter.mp hitem
        have hfound : registry.entry key = some other := List.mem_dlookup registry.entries.nodupKeys hmem
        obtain rfl := Option.some.inj (hentry.symm.trans hfound)
        have hterminal := h.hosts.purging host_id hpurging key entry hentry (of_decide_eq_true hhost)
        rw [hpending] at hterminal
        exact Bool.false_ne_true hterminal
      rw [hpurged] at hkept
      exact absurd hkept.symm (Option.some_ne_none entry)
  · intro hbounded
    exact ⟨Nat.le_trans (AList.countP_eraseAll_le _ _ _) hbounded.pending,
      Nat.le_trans (AList.length_eraseAll_le _ _) hbounded.length⟩

theorem next_retire_inv (h : RegistryInv registry)
    (hnext : registry.next_retire label = some registry') :
    JobsStep registry label registry' ∧ HostInv registry' := by
  cases label
  case retire_host host_id =>
    obtain ⟨hidle, hnext⟩ := Option.ite_none_left_eq_some.mp hnext
    obtain rfl := Option.some.inj hnext
    have hjobs : JobsStep registry (.retire_host host_id) { registry with
        host_operations := registry.host_operations.retire host_id } := .of_same h.fits rfl rfl
    have hretiring : HostInv { registry with
        host_operations := registry.host_operations.retire host_id } :=
      h.hosts.of_barrier h.fits hjobs
        (show registry.host_operations.next (.retire host_id) = _ from rfl) rfl
        (fun _ hsame => nomatch hsame) h.hosts.leased
    refine ⟨.of_same h.fits rfl rfl, hretiring.retirement rfl rfl rfl (fun _ _ h => h) ?_
      (fun hwaiting => absurd rfl hwaiting) RetireStage.noConfusion⟩
    show ((registry.host_operations.retire host_id).state host_id).retired = true
    rw [HostOperation.retire_state, if_pos rfl]
  case wait_idle host_id =>
    obtain ⟨⟨hwaiting, hidle⟩, hnext⟩ := Option.ite_none_right_eq_some.mp hnext
    obtain rfl := Option.some.inj hnext
    refine ⟨.of_same h.fits rfl rfl, h.hosts.retirement rfl rfl rfl (fun _ _ h => h)
      (h.hosts.retired _ _ hwaiting) ?_ RetireStage.noConfusion⟩
    intro _
    exact h.hosts.barrier.unheld_of_idle hidle
  case list host_id =>
    obtain ⟨hlisting, hnext⟩ := Option.ite_none_right_eq_some.mp hnext
    obtain rfl := Option.some.inj hnext
    refine ⟨.of_same h.fits rfl rfl, h.hosts.retirement rfl rfl rfl (fun _ _ h => h)
      (h.hosts.retired _ _ hlisting) ?_ RetireStage.noConfusion⟩
    intro _
    exact h.hosts.unheld _ _ hlisting RetireStage.noConfusion
  case cancel_next host_id now =>
    dsimp only [CommandJobRegistry.next_retire] at hnext
    split at hnext
    · next id ids hcancelling =>
      obtain rfl := Option.some.inj hnext
      have heffect := cancel_effect h.fits id now
      obtain ⟨hjobs, hhosts⟩ : JobsStep registry (.cancel_next host_id now) (registry.cancel id now) ∧
        HostInv (registry.cancel id now) := heffect.inv h
      have hstage : (registry.cancel id now).retirements.lookup host_id =
          some (.cancelling (id :: ids)) := by
        rw [heffect.hosts.retirements]
        exact hcancelling
      refine ⟨⟨hjobs.fits, hjobs.changes, ?_⟩, hhosts.retirement rfl rfl rfl (fun _ _ h => h)
        (hhosts.retired _ _ hstage) ?_ RetireStage.noConfusion⟩
      · intro hbounded
        exact ⟨(hjobs.bounded hbounded).pending, (hjobs.bounded hbounded).length⟩
      · intro _
        exact hhosts.unheld _ _ hstage RetireStage.noConfusion
    · exact absurd hnext.symm (Option.some_ne_none _)
  case wait_terminal host_id =>
    obtain ⟨⟨hcancelling, hterminal⟩, hnext⟩ := Option.ite_none_right_eq_some.mp hnext
    obtain rfl := Option.some.inj hnext
    refine ⟨.of_same h.fits rfl rfl, h.hosts.retirement rfl rfl rfl (fun _ _ h => h)
      (h.hosts.retired _ _ hcancelling) ?_ ?_⟩
    · intro _
      exact h.hosts.unheld _ _ hcancelling RetireStage.noConfusion
    · intro _ id entry hentry hhost
      exact all_terminal_iff hterminal hentry hhost
  case purge host_id =>
    obtain ⟨hpurging, hnext⟩ := Option.ite_none_right_eq_some.mp hnext
    obtain rfl := Option.some.inj hnext
    have hjobs : JobsStep registry (.purge host_id) (registry.purge host_id) := purge_jobs h hpurging
    refine ⟨⟨hjobs.fits, hjobs.changes, ?_⟩, h.hosts.end_retirement rfl rfl rfl ?_⟩
    · intro hbounded
      exact ⟨(hjobs.bounded hbounded).pending, (hjobs.bounded hbounded).length⟩
    · intro _ _ hentry
      exact AList.lookup_eraseAll_some hentry
  case retirement_timeout host_id =>
    obtain ⟨_, hnext⟩ := Option.ite_none_right_eq_some.mp hnext
    obtain rfl := Option.some.inj hnext
    exact ⟨.of_same h.fits rfl rfl, h.hosts.end_retirement rfl rfl rfl fun _ _ h => h⟩
  case restore_host host_id =>
    obtain ⟨hidle, hnext⟩ := Option.ite_none_left_eq_some.mp hnext
    obtain rfl := Option.some.inj hnext
    rw [Bool.not_eq_true, Option.isSome_eq_false_iff, Option.isNone_iff_eq_none] at hidle
    have hjobs : JobsStep registry (.restore_host host_id) { registry with
        host_operations := registry.host_operations.restore host_id } := .of_same h.fits rfl rfl
    refine ⟨hjobs, h.hosts.of_barrier h.fits hjobs
      (show registry.host_operations.next (.restore host_id) = _ from rfl) rfl ?_ ?_⟩
    · intro other hsame
      rw [← HostOperation.Label.restore.inj hsame]
      exact hidle
    · intro call operation hcall
      show _ ∈ (registry.host_operations.restore host_id).leases
      rw [HostOperation.restore_leases]
      exact h.hosts.leased call operation hcall
  all_goals exact absurd hnext.symm (Option.some_ne_none _)

theorem next_inv (h : RegistryInv registry) (hnext : registry.next label = some registry') :
    JobsStep registry label registry' ∧ HostInv registry' := by
  unfold CommandJobRegistry.next at hnext
  split at hnext
  all_goals
    first
    | exact next_start_inv h hnext
    | exact (next_execute_effect h.fits hnext).inv h
    | exact (next_loop_effect h.fits hnext).inv h
    | exact next_retire_inv h hnext

theorem new_registryInv {max_concurrency : Nat}
    (h : CommandJobRegistry.new max_concurrency = .ok registry) : RegistryInv registry := by
  obtain ⟨_, h⟩ := Outcome.ite_error_eq_ok.mp h
  obtain rfl := Except.ok.inj h
  refine ⟨?_, ⟨HostOperation.barrierInv_empty, ?_, ?_, ?_, ?_⟩, ⟨Nat.zero_le _, Nat.zero_le _⟩⟩
  · intro id
    refine ⟨?_, ?_, ?_, ?_, ?_, ?_, ?_, ?_⟩
    · exact fun _ h => absurd h.symm (Option.some_ne_none _)
    · exact fun _ h => absurd h.symm (Option.some_ne_none _)
    · exact fun _ h => absurd h.symm (Option.some_ne_none _)
    · exact fun _ h => absurd h.symm (Option.some_ne_none _)
    · exact fun _ h => absurd h.symm (Option.some_ne_none _)
    · rintro (h | ⟨_, h, _⟩)
      · exact absurd h Bool.false_ne_true
      · exact absurd h.symm (Option.some_ne_none _)
    · exact fun _ h => absurd h.symm (Option.some_ne_none _)
    · exact fun h => absurd h Bool.false_ne_true
  · exact fun _ _ h => absurd h.symm (Option.some_ne_none _)
  · exact fun _ _ h => absurd h.symm (Option.some_ne_none _)
  · exact fun _ _ h => absurd h.symm (Option.some_ne_none _)
  · exact fun _ h => absurd h.symm (Option.some_ne_none _)

theorem reachable_registryInv {ok : CommandJobRegistry → Label → Prop}
    (h : job_registry.ReachableWhen ok registry) : RegistryInv registry := by
  apply h.invariant
  · rintro _ ⟨_, hnew⟩
    exact new_registryInv hnew
  · intro _ _ _ hinv _ hnext
    obtain ⟨hjobs, hhosts⟩ := next_inv hinv hnext
    exact ⟨hjobs.fits, hhosts, hjobs.bounded hinv.bounded⟩

/-! ### Runs -/

/-- A job after a run that started with it. -/
structure Lives (job job' : CommandJob) : Prop where
  follows : Relation.ReflTransGen (fun state next => follows state next = true) job.state job'.state
  revision : job' = job ∨ job.revision < job'.revision
  terminal : job.state.is_terminal = true → job' = job

theorem Lives.refl (job : CommandJob) : Lives job job := ⟨.refl, .inl rfl, fun _ => rfl⟩

theorem Lives.advance {job job' job'' : CommandJob} (h : Lives job job') (hadvances : Advances job' job'') :
    Lives job job'' where
  follows := by
    rcases hadvances.state with hsame | hfollows
    · exact hsame ▸ h.follows
    · exact h.follows.tail hfollows
  revision := by
    right
    have hlater := hadvances.revision
    rcases h.revision with rfl | hearlier
    · exact hlater
    · omega
  terminal := by
    intro hterminal
    have hactive := hadvances.active
    rw [h.terminal hterminal, hterminal] at hactive
    exact absurd hactive.symm Bool.false_ne_true

/-- A job is never forgotten, and lives on. -/
theorem run_lives (h : job_registry.Reachable registry)
    (hrun : job_registry.StepsWhen (fun _ _ => True) registry registry') {job : CommandJob}
    (hversion : registry.version id = some job) :
    ∃ job', registry'.version id = some job' ∧ Lives job job' := by
  apply hrun.preserves_reachable (fun _ _ h => h) _ h ⟨job, hversion, .refl job⟩
  rintro s label s' hs ⟨job', hjob', hlives⟩ _ hnext
  obtain ⟨hjobs, _⟩ := next_inv (reachable_registryInv hs) hnext
  rcases hjobs.changes id with hevolves | ⟨habsent, _⟩
  · obtain ⟨job'', hjob'', hchange⟩ := hevolves.present job' hjob'
    refine ⟨job'', hjob'', ?_⟩
    rcases hchange with rfl | hadvances
    · exact hlives
    · exact hlives.advance hadvances
  · rw [hjob'] at habsent
    exact absurd habsent (Option.some_ne_none job')

/-- A job that is over is not started any more. -/
theorem run_not_started (h : job_registry.Reachable registry)
    (hrun : job_registry.StepsWhen (fun _ _ => True) registry registry') {job : CommandJob}
    (hversion : registry.version id = some job) (hterminal : job.state.is_terminal = true)
    (hstarted : id ∉ registry.started) : id ∉ registry'.started := by
  have hboth : registry'.version id = some job ∧ id ∉ registry'.started := by
    apply hrun.preserves_reachable (fun _ _ h => h) _ h ⟨hversion, hstarted⟩
    rintro s label s' hs ⟨hjob, hnot⟩ _ hnext
    obtain ⟨hjobs, _⟩ := next_inv (reachable_registryInv hs) hnext
    rcases hjobs.changes id with hevolves | ⟨habsent, _⟩
    · obtain ⟨job', hjob', hchange⟩ := hevolves.present job hjob
      constructor
      · rcases hchange with rfl | hadvances
        · exact hjob'
        · have hactive := hadvances.active
          rw [hterminal] at hactive
          exact absurd hactive.symm Bool.false_ne_true
      · intro hmem
        rcases hevolves.started (decide_eq_true hmem) with hbefore | ⟨other, hother, hpending⟩
        · exact hnot (of_decide_eq_true hbefore)
        · obtain rfl := Option.some.inj (hjob.symm.trans hother)
          rcases hpending with hstate | hstate <;> rw [hstate] at hterminal <;>
            exact Bool.false_ne_true hterminal
    · rw [hjob] at habsent
      exact absurd habsent (Option.some_ne_none job)
  exact hboth.2

/-- A queued job has no process. -/
theorem queued_not_started (h : RegistryInv registry) {job : CommandJob}
    (hversion : registry.version id = some job) (hqueued : job.state = .Queued) :
    id ∉ registry.started := by
  intro hmem
  obtain ⟨execution, hexecution, hpast⟩ := (h.fits id).started (decide_eq_true hmem)
  obtain ⟨other, hother, hstage⟩ := (h.fits id).executed execution hexecution
  obtain rfl := Option.some.inj (hversion.symm.trans hother)
  rw [hqueued] at hstage
  cases hcase : execution.stage with
  | entered | acquiring | acquired | starting =>
    rw [hcase] at hpast
    exact Bool.false_ne_true hpast
  | looping locals | left locals =>
    rw [hcase] at hstage
    simp [StageFits] at hstage
  | finishing finish permit =>
    rw [hcase] at hstage
    simp [StageFits] at hstage
  | ended =>
    rw [hcase] at hstage
    exact Bool.false_ne_true hstage

/-- A job that is cancelled while it is queued never gets a process. -/
theorem cancelled_queued_job (h : job_registry.Reachable registry) {job job' : CommandJob}
    {cancelled : CommandJobRegistry} (hversion : registry.version id = some job)
    (hqueued : job.state = .Queued) (hnext : job_registry.next registry label = some cancelled)
    (hversion' : cancelled.version id = some job') (hcancelled : job'.state = .Cancelled)
    (hrun : job_registry.StepsWhen (fun _ _ => True) cancelled registry') :
    id ∉ registry'.started := by
  have hinv := reachable_registryInv h
  obtain ⟨hjobs, _⟩ := next_inv hinv hnext
  have hnot : id ∉ cancelled.started := by
    intro hmem
    rcases hjobs.changes id with hevolves | ⟨habsent, _⟩
    · rcases hevolves.started (decide_eq_true hmem) with hbefore | ⟨other, hother, hstate⟩
      · exact queued_not_started hinv hversion hqueued (of_decide_eq_true hbefore)
      · obtain rfl := Option.some.inj (hversion.symm.trans hother)
        rw [hqueued] at hstate
        exact absurd hstate (by decide)
    · rw [hversion] at habsent
      exact absurd habsent (Option.some_ne_none job)
  have hterminal : job'.state.is_terminal = true := by
    rw [hcancelled]
    rfl
  exact run_not_started (h.step trivial hnext) hrun hversion' hterminal hnot

/-- `cancel` of a queued job ends it. -/
theorem cancel_queued (h : RegistryInv registry) {job : CommandJob}
    (hversion : registry.version id = some job) (hqueued : job.state = .Queued) (now : Timestamp) :
    ∃ job', (registry.cancel id now).version id = some job' ∧ job'.state = .Cancelled := by
  obtain ⟨entry, hentry, rfl⟩ := (h.fits id).entry_of_pending hversion (by rw [hqueued]; rfl)
  have hjob : cancelled_job entry.job now = some (revise_command_job
      { entry.job with state := .Cancelled, finished_at := some now }) := by
    unfold cancelled_job
    rw [hqueued]
    rfl
  have hwritten : (registry.cancel id now).version id = some (revise_command_job
      { entry.job with state := .Cancelled, finished_at := some now }) := by
    unfold CommandJobRegistry.cancel
    rw [show registry.entry id = some entry from hentry]
    dsimp only
    rw [hjob]
    exact AList.lookup_insert registry.versions
  exact ⟨_, hwritten, rfl⟩

def worker_host : HostProfile where
  schema_version := 2
  id := "h".toList
  «alias» := "worker".toList
  hostname := "worker".toList
  port := 22
  username := "u".toList
  auth_method := .Agent
  identity_file := none
  proxy_jump := none
  default_workspace := []
  groups := []
  advanced := SshAdvancedOptions.default
  monitor_enabled := false
  created_at := 0
  updated_at := 0

def uptime_command : ResolvedCommand where
  host := worker_host
  command_id := none
  name := "Ad hoc command".toList
  command := "uptime".toList
  working_directory := none
  declared_risk := .L1
  requires_pty := false
  confirmation_text := none

def uptime_plan : PtyCommandPlan where
  host_id := "h".toList
  command_id := none
  name := "Ad hoc command".toList
  command := "top".toList
  working_directory := none
  risk := .L1

/-- A registry with four permits. -/
def empty_registry : CommandJobRegistry where
  entries := ∅
  next_sequence := 0
  permits := 4
  executions := ∅
  unsent := []
  host_operations := .empty
  operations := ∅
  next_call := 0
  retirements := ∅
  versions := ∅
  started := []

theorem empty_registry_init : job_registry.init empty_registry := ⟨4, rfl⟩

def queue_labels : List Label :=
  [.begin_host_operation (.run uptime_command (some "worker".toList)), .start_process 0 "j".toList]

/-- The task has a permit and has written that the job runs. -/
def running_labels : List Label :=
  queue_labels ++ [.execute_job "j".toList, .acquire "j".toList, .transition_running "j".toList 1]

def handoff_labels : List Label :=
  [.begin_host_operation (.handoff uptime_plan "s".toList)]

def state_of (registry : CommandJobRegistry) (id : Text) : Option CommandJobState :=
  (registry.version id).map CommandJob.state

theorem state_of_some {state : CommandJobState} (h : state_of registry id = some state) :
    ∃ job, registry.version id = some job ∧ job.state = state :=
  Option.map_eq_some_iff.mp h

end Command
