import RemoteDeck.Command.Jobs

/-! # Steps of the command jobs

    What a step does to one job is said about a view of the registry: the
    entry, the last version, the execution and the signals of that job.  A
    step changes the view of one job, and its pruning may drop the entries of
    terminal ones.

    This file defines:
    - what pruning keeps, and how many entries it leaves
    - `JobView` and `Fits`: what holds of a job in every reachable state
    - `Evolves`: what a step can do to a job
    - `StepEffect`: what a step that is not about hosts does to the registry
-/

namespace Command

/-! ### Pruning -/

theorem foldl_older_mem {items : List (Sigma fun _ : Text => RegistryEntry)}
    {start : Option (Sigma fun _ : Text => RegistryEntry)} {oldest : Sigma fun _ : Text => RegistryEntry}
    (h : items.foldl older start = some oldest) : oldest ∈ items ∨ start = some oldest := by
  induction items generalizing start with
  | nil => exact .inr h
  | cons item items ih =>
    rcases ih h with hmem | hstart
    · exact .inl (List.mem_cons_of_mem item hmem)
    · unfold older at hstart
      split at hstart
      · exact .inl (Option.some.inj hstart ▸ List.mem_cons_self)
      · split at hstart
        · exact .inl (Option.some.inj hstart ▸ List.mem_cons_self)
        · exact .inr hstart

theorem foldl_older_isSome {items : List (Sigma fun _ : Text => RegistryEntry)}
    {start : Option (Sigma fun _ : Text => RegistryEntry)} (h : start.isSome = true ∨ items ≠ []) :
    (items.foldl older start).isSome = true := by
  induction items generalizing start with
  | nil => exact h.resolve_right fun hne => hne rfl
  | cons item items ih =>
    apply ih
    left
    unfold older
    split
    · rfl
    · split <;> rfl

variable {entries entries' : Entries} {id gone : Text} {entry : RegistryEntry}

theorem oldest_terminal_some (h : oldest_terminal entries = some gone) :
    ∃ entry, entries.lookup gone = some entry ∧ entry.job.state.is_terminal = true := by
  obtain ⟨⟨key, entry⟩, hfold, hkey⟩ := Option.map_eq_some_iff.mp h
  obtain rfl : key = gone := hkey
  have hmem := (foldl_older_mem hfold).resolve_right (Option.some_ne_none _ ∘ Eq.symm)
  obtain ⟨hitem, hterminal⟩ := List.mem_filter.mp hmem
  exact ⟨entry, List.mem_dlookup entries.nodupKeys hitem, hterminal⟩

theorem oldest_terminal_none (h : oldest_terminal entries = none) :
    ∀ item ∈ entries.entries, item.2.job.state.is_terminal = false := by
  intro item hitem
  by_contra hterminal
  rw [Bool.not_eq_false] at hterminal
  have hne : (entries.entries.filter fun item => item.2.job.state.is_terminal) ≠ [] :=
    List.ne_nil_of_mem (List.mem_filter.mpr ⟨hitem, hterminal⟩)
  have hsome : (List.foldl older none _).isSome = true := foldl_older_isSome (.inr hne)
  rw [Option.map_eq_none_iff.mp h] at hsome
  exact Bool.false_ne_true hsome

theorem lookup_prune_some {limit bound : Nat}
    (h : (prune_terminal_jobs limit bound entries).lookup id = some entry) :
    entries.lookup id = some entry := by
  induction bound generalizing entries with
  | zero => exact h
  | succ bound ih =>
    unfold prune_terminal_jobs at h
    split at h
    · exact h
    · split at h
      · exact h
      · exact AList.lookup_of_erase (ih h)

/-- Pruning drops terminal jobs only. -/
theorem lookup_prune_pending {limit bound : Nat} (h : entries.lookup id = some entry)
    (hpending : entry.job.state.is_terminal = false) :
    (prune_terminal_jobs limit bound entries).lookup id = some entry := by
  induction bound generalizing entries with
  | zero => exact h
  | succ bound ih =>
    unfold prune_terminal_jobs
    split
    · exact h
    · split
      · exact h
      · next oldest holdest =>
        apply ih
        obtain ⟨other, hother, hterminal⟩ := oldest_terminal_some holdest
        have hne : id ≠ oldest := by
          rintro rfl
          obtain rfl := Option.some.inj (h.symm.trans hother)
          rw [hpending] at hterminal
          exact Bool.false_ne_true hterminal
        rw [AList.lookup_erase_ne hne]
        exact h

theorem pending_prune_le (limit bound : Nat) (entries : Entries) :
    pending_jobs (prune_terminal_jobs limit bound entries) ≤ pending_jobs entries := by
  induction bound generalizing entries with
  | zero => exact Nat.le_refl _
  | succ bound ih =>
    unfold prune_terminal_jobs
    split
    · exact Nat.le_refl _
    · split
      · exact Nat.le_refl _
      · next oldest _ =>
        exact Nat.le_trans (ih (entries.erase oldest)) (AList.countP_erase_le entries oldest _)

theorem length_prune_le (limit bound : Nat) (entries : Entries) :
    (prune_terminal_jobs limit bound entries).entries.length ≤ entries.entries.length := by
  induction bound generalizing entries with
  | zero => exact Nat.le_refl _
  | succ bound ih =>
    unfold prune_terminal_jobs
    split
    · exact Nat.le_refl _
    · split
      · exact Nat.le_refl _
      · next oldest _ =>
        exact Nat.le_trans (ih (entries.erase oldest)) (AList.length_erase_le entries oldest)

/-- Pruning gets below its limit, or only pending jobs are left. -/
theorem length_prune_lt {limit bound : Nat} (hlimit : 0 < limit)
    (hbound : entries.entries.length ≤ bound) :
    (prune_terminal_jobs limit bound entries).entries.length < limit ∨
      (prune_terminal_jobs limit bound entries).entries.length =
        pending_jobs (prune_terminal_jobs limit bound entries) := by
  induction bound generalizing entries with
  | zero =>
    left
    show entries.entries.length < limit
    omega
  | succ bound ih =>
    unfold prune_terminal_jobs
    split
    · next hstop => exact .inl hstop.1
    · split
      · next hnone =>
        right
        symm
        apply List.countP_eq_length.mpr
        intro item hitem
        rw [oldest_terminal_none hnone item hitem]
        rfl
      · next oldest holdest =>
        obtain ⟨entry, hentry, _⟩ := oldest_terminal_some holdest
        apply ih
        have hlength := AList.length_of_lookup hentry
        omega

/-! ### Writes -/

/-- Where the state of a job may go. -/
def follows (state next : CommandJobState) : Bool :=
  match state, next with
  | .Queued, .Running | .Queued, .Cancelled | .Running, .Cancelling | .Running, .Completed
  | .Running, .Failed | .Cancelling, .Completed | .Cancelling, .Failed | .Cancelling, .Cancelled =>
      true
  | _, _ => false

def rank : CommandJobState → Nat
  | .Queued => 0
  | .Running => 1
  | .Cancelling => 2
  | .Completed | .Failed | .Cancelled => 3

/-- How far a job is; every write makes it more. -/
def progress (entry : RegistryEntry) : Nat :=
  rank entry.job.state + output_units ⟨entry.job.stdout, entry.stdout_truncated⟩ +
    output_units ⟨entry.job.stderr, entry.stderr_truncated⟩

theorem follows_active {state next : CommandJobState} (h : follows state next = true) :
    state.is_terminal = false ∧ state ≠ next ∧ rank state < rank next := by
  cases state <;> cases next <;> first | exact absurd h Bool.false_ne_true | decide

theorem rank_le (state : CommandJobState) : rank state ≤ 3 := by
  cases state <;> decide

/-- What every locked section that writes an entry does to it. -/
structure Writes (entry entry' : RegistryEntry) : Prop where
  active : entry.job.state.is_terminal = false
  state : entry'.job.state = entry.job.state ∨ follows entry.job.state entry'.job.state = true
  revision : entry'.job.revision = min (entry.job.revision + 1) MAX_REVISION
  progresses : progress entry < progress entry'
  finished : entry'.job.state.is_terminal = true → entry'.job.finished_at.isSome = true
  host_id : entry'.job.host_id = entry.job.host_id

/-- A revision counts at most the progress of its job. -/
def Counted (entry : RegistryEntry) : Prop := entry.job.revision ≤ 1 + progress entry

variable {entry' : RegistryEntry}

theorem progress_le (entry : RegistryEntry) : progress entry ≤ 2097157 := by
  have hrank := rank_le entry.job.state
  have hout := output_units_le ⟨entry.job.stdout, entry.stdout_truncated⟩
  have herr := output_units_le ⟨entry.job.stderr, entry.stderr_truncated⟩
  have hlimit : COMMAND_OUTPUT_LIMIT = 1048576 := rfl
  unfold progress
  omega

/-- No revision saturates. -/
theorem Writes.revision_lt (h : Writes entry entry') (hcounted : Counted entry) :
    entry.job.revision < entry'.job.revision := by
  have hprogress := progress_le entry
  have hmax : MAX_REVISION = 18446744073709551615 := rfl
  have hrevision := h.revision
  unfold Counted at hcounted
  omega

theorem Writes.counted (h : Writes entry entry') (hcounted : Counted entry) : Counted entry' := by
  have hprogress := h.progresses
  have hrevision := h.revision
  unfold Counted at hcounted ⊢
  omega

/-- A write that leaves the output alone. -/
theorem Writes.of_state {job : CommandJob} (hfollows : follows entry.job.state job.state = true)
    (hrevision : job.revision = min (entry.job.revision + 1) MAX_REVISION)
    (hout : job.stdout = entry.job.stdout) (herr : job.stderr = entry.job.stderr)
    (hfinished : job.state.is_terminal = true → job.finished_at.isSome = true)
    (hhost : job.host_id = entry.job.host_id) : Writes entry { entry with job := job } := by
  obtain ⟨hactive, _, hrank⟩ := follows_active hfollows
  refine ⟨hactive, .inr hfollows, hrevision, ?_, hfinished, hhost⟩
  unfold progress
  dsimp only
  rw [hout, herr]
  omega

variable {job : CommandJob} {now : Timestamp}

theorem cancelled_job_writes (h : cancelled_job entry.job now = some job) :
    Writes entry { entry with job := job } ∧
      (entry.job.state = .Queued ∧ job.state = .Cancelled ∨
        entry.job.state = .Running ∧ job.state = .Cancelling) := by
  unfold cancelled_job at h
  obtain ⟨hactive, h⟩ := Option.ite_none_left_eq_some.mp h
  obtain ⟨hcancelling, h⟩ := Option.ite_none_left_eq_some.mp h
  split at h
  · next hqueued =>
    obtain rfl := Option.some.inj h
    constructor
    · refine Writes.of_state ?_ rfl rfl rfl (fun _ => rfl) rfl
      rw [hqueued]
      rfl
    · exact .inl ⟨hqueued, rfl⟩
  · next hqueued =>
    obtain rfl := Option.some.inj h
    have hrunning : entry.job.state = .Running := by
      cases hstate : entry.job.state
      case Running => rfl
      case Queued => exact absurd hstate hqueued
      case Cancelling => exact absurd hstate hcancelling
      all_goals
        rw [hstate] at hactive
        exact absurd rfl hactive
    constructor
    · refine Writes.of_state ?_ rfl rfl rfl ?_ rfl
      · rw [hrunning]
        rfl
      · intro hterminal
        exact absurd hterminal Bool.false_ne_true
    · exact .inr ⟨hrunning, rfl⟩

theorem running_job_writes (h : running_job entry.job now = some job) :
    Writes entry { entry with job := job } ∧ entry.job.state = .Queued ∧ job.state = .Running := by
  unfold running_job at h
  obtain ⟨hqueued, h⟩ := Option.ite_none_left_eq_some.mp h
  obtain rfl := Option.some.inj h
  rw [not_not] at hqueued
  refine ⟨?_, hqueued, rfl⟩
  refine Writes.of_state ?_ rfl rfl rfl ?_ rfl
  · rw [hqueued]
    rfl
  · intro hterminal
    exact absurd hterminal Bool.false_ne_true

/-- Which states can be written over by output and by a finish. -/
theorem running_or_cancelling {state : CommandJobState}
    (h : ¬(state ≠ .Running ∧ state ≠ .Cancelling)) : state = .Running ∨ state = .Cancelling := by
  by_contra hneither
  exact h (not_or.mp hneither)

theorem appended_entry_writes {stream : OutputStream} {data : List UInt8}
    (h : appended_entry entry stream data = some entry') :
    Writes entry entry' ∧ entry'.job.state = entry.job.state := by
  unfold appended_entry at h
  obtain ⟨hstate, h⟩ := Option.ite_none_left_eq_some.mp h
  have hactive : entry.job.state.is_terminal = false := by
    rcases running_or_cancelling hstate with hstate | hstate <;> rw [hstate] <;> rfl
  have hfinished : entry.job.state.is_terminal = true → entry.job.finished_at.isSome = true := by
    intro hterminal
    rw [hactive] at hterminal
    exact absurd hterminal Bool.false_ne_true
  cases stream with
  | Stdout =>
    dsimp only at h
    rcases append_bounded_cases ⟨entry.job.stdout, entry.stdout_truncated⟩ data with hsame | ⟨_, hmore⟩
    · rw [hsame] at h
      exact absurd h.symm (Option.some_ne_none entry')
    · obtain ⟨_, h⟩ := Option.ite_none_left_eq_some.mp h
      obtain rfl := Option.some.inj h
      refine ⟨⟨hactive, .inl rfl, rfl, ?_, hfinished, rfl⟩, rfl⟩
      unfold progress
      exact Nat.add_lt_add_right (Nat.add_lt_add_left hmore _) _
  | Stderr =>
    dsimp only at h
    rcases append_bounded_cases ⟨entry.job.stderr, entry.stderr_truncated⟩ data with hsame | ⟨_, hmore⟩
    · rw [hsame] at h
      exact absurd h.symm (Option.some_ne_none entry')
    · obtain ⟨_, h⟩ := Option.ite_none_left_eq_some.mp h
      obtain rfl := Option.some.inj h
      refine ⟨⟨hactive, .inl rfl, rfl, ?_, hfinished, rfl⟩, rfl⟩
      unfold progress
      exact Nat.add_lt_add_left hmore _

/-- A finish in the state that its execution found. -/
theorem finished_job_writes {finish : Finish} (h : finished_job entry.job finish now = some job)
    (hcancelled : finish = .Cancelled → entry.job.state = .Cancelling ∨
      entry.job.state = .Cancelled ∧ entry.job.finished_at.isSome = true) :
    Writes entry { entry with job := job } ∧ job.state.is_terminal = true := by
  cases finish with
  | Completed exit_code =>
    obtain ⟨hstate, h⟩ := Option.ite_none_left_eq_some.mp h
    obtain rfl := Option.some.inj h
    refine ⟨?_, rfl⟩
    refine Writes.of_state ?_ rfl rfl rfl (fun _ => rfl) rfl
    rcases running_or_cancelling hstate with hstate | hstate <;> rw [hstate] <;> rfl
  | Failed error exit_code =>
    obtain ⟨hstate, h⟩ := Option.ite_none_left_eq_some.mp h
    obtain rfl := Option.some.inj h
    refine ⟨?_, rfl⟩
    refine Writes.of_state ?_ rfl rfl rfl (fun _ => rfl) rfl
    rcases running_or_cancelling hstate with hstate | hstate <;> rw [hstate] <;> rfl
  | Cancelled =>
    obtain ⟨hsame, h⟩ := Option.ite_none_left_eq_some.mp h
    obtain rfl := Option.some.inj h
    refine ⟨?_, rfl⟩
    refine Writes.of_state ?_ rfl rfl rfl ?_ rfl
    · rw [(hcancelled rfl).resolve_right hsame]
      rfl
    · intro _
      show (entry.job.finished_at.or (some now)).isSome = true
      rw [Option.isSome_or]
      exact Bool.or_true _

/-! ### Views -/

/-- What the registry has of one job. -/
@[ext] structure JobView where
  entry : Option RegistryEntry
  version : Option CommandJob
  execution : Option Execution
  /-- A cancellation of the job is written and not sent yet. -/
  unsent : Bool
  started : Bool

def CommandJobRegistry.view (registry : CommandJobRegistry) (id : Text) : JobView where
  entry := registry.entry id
  version := registry.version id
  execution := registry.execution id
  unsent := decide (id ∈ registry.unsent)
  started := decide (id ∈ registry.started)

/-- The states of a job that an execution is at work on. -/
def StageFits (stage : ExecuteStage) (state : CommandJobState) : Prop :=
  match stage with
  | .entered | .acquiring | .acquired => state = .Queued ∨ state = .Cancelled
  | .starting => state = .Running ∨ state = .Cancelling
  | .looping locals | .left locals =>
      state = .Running ∧ locals.cancellation_seen = false ∨ state = .Cancelling
  | .finishing finish _ =>
      finish = .Cancelled ∧ (state = .Cancelling ∨ state = .Cancelled) ∨
        finish ≠ .Cancelled ∧ (state = .Running ∨ state = .Cancelling)
  | .ended => state.is_terminal = true

/-- The stages after the start of the process. -/
def ExecuteStage.past_start : ExecuteStage → Bool
  | .entered | .acquiring | .acquired | .starting => false
  | .looping _ | .left _ | .finishing _ _ | .ended => true

/-- A cancellation was written, or the job is over. -/
def Stopping (state : CommandJobState) : Prop := state = .Cancelling ∨ state.is_terminal = true

/-- What holds of a job in every state of the registry. -/
structure Fits (view : JobView) : Prop where
  kept : ∀ entry, view.entry = some entry → view.version = some entry.job ∧ Counted entry
  /-- Only terminal jobs are dropped. -/
  pending : ∀ job, view.version = some job → job.state.is_terminal = false → view.entry.isSome = true
  finished : ∀ job, view.version = some job → job.state.is_terminal = true →
    job.finished_at.isSome = true
  executed : ∀ execution, view.execution = some execution →
    ∃ job, view.version = some job ∧ StageFits execution.stage job.state
  unexecuted : ∀ job, view.version = some job → view.execution = none → job.state.is_terminal = true
  stopped : view.unsent = true ∨ (∃ execution, view.execution = some execution ∧
      (execution.cancel_rx.value = true ∨ execution.cancel_rx.unseen = true)) →
    ∃ job, view.version = some job ∧ Stopping job.state
  unseen : ∀ execution, view.execution = some execution →
    execution.cancel_rx.unseen = true → execution.cancel_rx.value = true
  started : view.started = true →
    ∃ execution, view.execution = some execution ∧ execution.stage.past_start = true

/-- What one version of a job has over the one before. -/
structure Advances (job job' : CommandJob) : Prop where
  active : job.state.is_terminal = false
  state : job'.state = job.state ∨ follows job.state job'.state = true
  revision : job.revision < job'.revision
  host_id : job'.host_id = job.host_id

/-- What a step does to a job that it does not make. -/
structure Evolves (view view' : JobView) : Prop where
  absent : view.version = none → view'.version = none
  present : ∀ job, view.version = some job →
    ∃ job', view'.version = some job' ∧ (job' = job ∨ Advances job job')
  /-- Only a job that runs is started, also if its cancellation is written. -/
  started : view'.started = true →
    view.started = true ∨
      ∃ job, view.version = some job ∧ (job.state = .Running ∨ job.state = .Cancelling)

variable {view view' : JobView}

theorem Evolves.of_version (hversion : view'.version = view.version)
    (hstarted : view'.started = view.started) : Evolves view view' where
  absent := fun h => hversion.trans h
  present := fun job h => ⟨job, hversion.trans h, .inl rfl⟩
  started := fun h => .inl (hstarted ▸ h)

/-- The job of an execution that is not over has its entry. -/
theorem Fits.entry_of_pending (h : Fits view) {job : CommandJob} (hversion : view.version = some job)
    (hpending : job.state.is_terminal = false) : ∃ entry, view.entry = some entry ∧ entry.job = job := by
  obtain ⟨entry, hentry⟩ := Option.isSome_iff_exists.mp (h.pending job hversion hpending)
  refine ⟨entry, hentry, ?_⟩
  exact Option.some.inj ((h.kept entry hentry).1.symm.trans hversion)

theorem stopping_write (hwrites : Writes entry entry') (h : Stopping entry.job.state) :
    Stopping entry'.job.state := by
  have hactive := hwrites.active
  rcases h with hcancelling | hterminal
  · rcases hwrites.state with hsame | hfollows
    · exact .inl (hsame.trans hcancelling)
    · rw [hcancelling] at hfollows
      right
      cases hstate : entry'.job.state <;> rw [hstate] at hfollows <;>
        first | rfl | exact absurd hfollows Bool.false_ne_true
  · rw [hactive] at hterminal
    exact absurd hterminal Bool.false_ne_true

/-- The entry is dropped after its job has ended. -/
theorem Fits.drop (h : Fits view)
    (hterminal : ∀ job, view.version = some job → job.state.is_terminal = true) :
    Fits { view with entry := none } where
  kept := fun _ hentry => absurd hentry.symm (Option.some_ne_none _)
  pending := by
    intro job hversion hpending
    rw [hterminal job hversion] at hpending
    exact absurd hpending.symm Bool.false_ne_true
  finished := h.finished
  executed := h.executed
  unexecuted := h.unexecuted
  stopped := h.stopped
  unseen := h.unseen
  started := h.started

variable {cancel_rx cancel_rx' : CancelReceiver} {stage stage' : ExecuteStage}

/-- The execution moves on. -/
theorem Fits.move (h : Fits view) (hexecution : view.execution = some ⟨cancel_rx, stage⟩)
    (hvalue : cancel_rx'.value = cancel_rx.value)
    (hunseen : cancel_rx'.unseen = true → cancel_rx.unseen = true)
    (hfits : ∀ job, view.version = some job → StageFits stage job.state →
      StageFits stage' job.state)
    (hpast : stage.past_start = true → stage'.past_start = true) {started : Bool}
    (hstarted : started = true → view.started = true ∨ stage'.past_start = true) :
    Fits { view with execution := some ⟨cancel_rx', stage'⟩, started := started } where
  kept := h.kept
  pending := h.pending
  finished := h.finished
  executed := by
    intro execution hsome
    obtain rfl := Option.some.inj hsome
    obtain ⟨job, hversion, hstage⟩ := h.executed _ hexecution
    exact ⟨job, hversion, hfits job hversion hstage⟩
  unexecuted := fun _ _ hnone => absurd hnone (Option.some_ne_none _)
  stopped := by
    rintro (hunsent | ⟨execution, hsome, hsignal⟩)
    · exact h.stopped (.inl hunsent)
    · obtain rfl := Option.some.inj hsome
      apply h.stopped
      right
      refine ⟨_, hexecution, ?_⟩
      rcases hsignal with hsignal | hsignal
      · exact .inl (hvalue ▸ hsignal)
      · exact .inr (hunseen hsignal)
  unseen := by
    intro execution hsome hsignal
    obtain rfl := Option.some.inj hsome
    exact hvalue.trans (h.unseen _ hexecution (hunseen hsignal))
  started := by
    intro hnow
    refine ⟨_, rfl, ?_⟩
    rcases hstarted hnow with hbefore | hpast'
    · obtain ⟨execution, hsome, hstage⟩ := h.started hbefore
      obtain rfl := Option.some.inj (hexecution.symm.trans hsome)
      exact hpast hstage
    · exact hpast'

/-- The entry is written, and the execution moves on with it. -/
theorem Fits.write (h : Fits view) (hentry : view.entry = some entry) (hwrites : Writes entry entry')
    (hexecution : view.execution = some ⟨cancel_rx, stage⟩)
    (hfits : StageFits stage entry.job.state → StageFits stage' entry'.job.state)
    (hpast : stage.past_start = true → stage'.past_start = true) {unsent : Bool}
    (hunsent : unsent = true → view.unsent = true ∨ Stopping entry'.job.state) :
    Fits
      { view with
        entry := some entry'
        version := some entry'.job
        execution := some ⟨cancel_rx, stage'⟩
        unsent := unsent } where
  kept := by
    intro other hsome
    obtain rfl := Option.some.inj hsome
    exact ⟨rfl, hwrites.counted (h.kept entry hentry).2⟩
  pending := fun _ _ _ => rfl
  finished := by
    intro job hsome hterminal
    obtain rfl := Option.some.inj hsome
    exact hwrites.finished hterminal
  executed := by
    intro execution hsome
    obtain rfl := Option.some.inj hsome
    obtain ⟨job, hversion, hstage⟩ := h.executed _ hexecution
    obtain rfl := Option.some.inj ((h.kept entry hentry).1.symm.trans hversion)
    exact ⟨_, rfl, hfits hstage⟩
  unexecuted := fun _ _ hnone => absurd hnone (Option.some_ne_none _)
  stopped := by
    intro hsignal
    refine ⟨_, rfl, ?_⟩
    have hbefore : view.unsent = true ∨ (∃ execution, view.execution = some execution ∧
        (execution.cancel_rx.value = true ∨ execution.cancel_rx.unseen = true)) →
        Stopping entry'.job.state := by
      intro hsignal
      obtain ⟨job, hversion, hstopping⟩ := h.stopped hsignal
      obtain rfl := Option.some.inj ((h.kept entry hentry).1.symm.trans hversion)
      exact stopping_write hwrites hstopping
    rcases hsignal with hnow | ⟨execution, hsome, hsignal⟩
    · exact (hunsent hnow).elim (fun h => hbefore (.inl h)) id
    · obtain rfl := Option.some.inj hsome
      exact hbefore (.inr ⟨_, hexecution, hsignal⟩)
  unseen := by
    intro execution hsome hsignal
    obtain rfl := Option.some.inj hsome
    exact h.unseen ⟨cancel_rx, stage⟩ hexecution hsignal
  started := by
    intro hnow
    obtain ⟨execution, hsome, hstage⟩ := h.started hnow
    obtain rfl := Option.some.inj (hexecution.symm.trans hsome)
    exact ⟨_, rfl, hpast hstage⟩

theorem Evolves.write (h : Fits view) (hentry : view.entry = some entry)
    (hwrites : Writes entry entry') (hversion : view'.version = some entry'.job)
    (hstarted : view'.started = view.started) : Evolves view view' where
  absent := by
    intro hnone
    rw [(h.kept entry hentry).1] at hnone
    exact absurd hnone (Option.some_ne_none _)
  present := by
    intro job hjob
    obtain ⟨hkept, hcounted⟩ := h.kept entry hentry
    obtain rfl := Option.some.inj (hkept.symm.trans hjob)
    exact ⟨_, hversion, .inr ⟨hwrites.active, hwrites.state, hwrites.revision_lt hcounted,
      hwrites.host_id⟩⟩
  started := fun hnow => .inl (hstarted ▸ hnow)

/-! ### Effects -/

/-- Nothing changes that is about hosts. -/
structure SameHosts (registry registry' : CommandJobRegistry) : Prop where
  host_operations : registry'.host_operations = registry.host_operations
  operations : registry'.operations = registry.operations
  retirements : registry'.retirements = registry.retirements

/-- What a step does that neither makes a job nor is about hosts. -/
structure StepEffect (registry registry' : CommandJobRegistry) : Prop where
  hosts : SameHosts registry registry'
  fits : ∀ id, Fits (registry'.view id)
  evolves : ∀ id, Evolves (registry.view id) (registry'.view id)
  pending : pending_jobs registry'.entries ≤ pending_jobs registry.entries
  length : registry'.entries.entries.length ≤ registry.entries.entries.length

variable {registry registry' : CommandJobRegistry} {other : Text}

theorem SameHosts.refl (registry : CommandJobRegistry) : SameHosts registry registry := ⟨rfl, rfl, rfl⟩

theorem StepEffect.refl (h : ∀ id, Fits (registry.view id)) : StepEffect registry registry where
  hosts := .refl registry
  fits := h
  evolves := fun _ => .of_version rfl rfl
  pending := Nat.le_refl _
  length := Nat.le_refl _

/-- A step that changes the view of one job. -/
theorem StepEffect.of_view (h : ∀ id, Fits (registry.view id)) (id : Text)
    (hosts : SameHosts registry registry')
    (hothers : ∀ other, other ≠ id → registry'.view other = registry.view other)
    (hfits : Fits (registry'.view id)) (hevolves : Evolves (registry.view id) (registry'.view id))
    (pending : pending_jobs registry'.entries ≤ pending_jobs registry.entries)
    (length : registry'.entries.entries.length ≤ registry.entries.entries.length) :
    StepEffect registry registry' where
  hosts := hosts
  fits := by
    intro other
    by_cases hother : other = id
    · rw [hother]
      exact hfits
    · rw [hothers other hother]
      exact h other
  evolves := by
    intro other
    by_cases hother : other = id
    · rw [hother]
      exact hevolves
    · rw [hothers other hother]
      exact .of_version rfl rfl
  pending := pending
  length := length

theorem view_set_stage_self (registry : CommandJobRegistry) (id : Text) (cancel_rx : CancelReceiver)
    (stage : ExecuteStage) :
    (registry.set_stage id cancel_rx stage).view id =
      { registry.view id with execution := some ⟨cancel_rx, stage⟩ } := by
  apply JobView.ext
  case execution => exact AList.lookup_insert registry.executions
  all_goals rfl

theorem view_set_stage_of_ne (registry : CommandJobRegistry) (cancel_rx : CancelReceiver)
    (stage : ExecuteStage) (hother : other ≠ id) :
    (registry.set_stage id cancel_rx stage).view other = registry.view other := by
  apply JobView.ext
  case execution => exact AList.lookup_insert_ne hother
  all_goals rfl

theorem view_write_self (registry : CommandJobRegistry) (id : Text) (entry : RegistryEntry) :
    (registry.write id entry).view id =
      { registry.view id with entry := some entry, version := some entry.job } := by
  apply JobView.ext
  case entry => exact AList.lookup_insert registry.entries
  case version => exact AList.lookup_insert registry.versions
  all_goals rfl

theorem view_write_of_ne (registry : CommandJobRegistry) (entry : RegistryEntry)
    (hother : other ≠ id) : (registry.write id entry).view other = registry.view other := by
  apply JobView.ext
  case entry => exact AList.lookup_insert_ne hother
  case version => exact AList.lookup_insert_ne hother
  all_goals rfl

/-- An execution moves on, and nothing else changes. -/
theorem StepEffect.move (h : ∀ id, Fits (registry.view id))
    (hexecution : registry.execution id = some ⟨cancel_rx, stage⟩)
    (hvalue : cancel_rx'.value = cancel_rx.value)
    (hunseen : cancel_rx'.unseen = true → cancel_rx.unseen = true)
    (hfits : ∀ job, registry.version id = some job →
      StageFits stage job.state → StageFits stage' job.state)
    (hpast : stage.past_start = true → stage'.past_start = true) :
    StepEffect registry (registry.set_stage id cancel_rx' stage') := by
  refine StepEffect.of_view h id ⟨rfl, rfl, rfl⟩ ?_ ?_ ?_ (Nat.le_refl _) (Nat.le_refl _)
  · intro other hother
    exact view_set_stage_of_ne registry cancel_rx' stage' hother
  · rw [view_set_stage_self]
    exact (h id).move hexecution hvalue hunseen hfits hpast .inl
  · rw [view_set_stage_self]
    exact .of_version rfl rfl

/-- The permits play no part. -/
theorem StepEffect.permits (h : StepEffect registry registry') (permits : Nat) :
    StepEffect registry { registry' with permits := permits } :=
  ⟨⟨h.hosts.host_operations, h.hosts.operations, h.hosts.retirements⟩, h.fits, h.evolves, h.pending,
    h.length⟩

/-- An entry is written, in a step that may also move its execution. -/
theorem StepEffect.write (h : ∀ id, Fits (registry.view id))
    (hentry : registry.entry id = some entry) (hwrites : Writes entry entry')
    (hosts : SameHosts registry registry')
    (hentries : registry'.entries = registry.entries.insert id entry')
    (hothers : ∀ other, other ≠ id → registry'.view other = registry.view other)
    (hversion : (registry'.view id).version = some entry'.job)
    (hstarted : (registry'.view id).started = (registry.view id).started)
    (hfits : Fits (registry'.view id)) : StepEffect registry registry' := by
  apply StepEffect.of_view h id hosts hothers hfits
  · exact .write (h id) hentry hwrites hversion hstarted
  · unfold pending_jobs
    have hactive : (!entry.job.state.is_terminal) = true := by
      rw [hwrites.active]
      rfl
    rw [AList.countP_of_lookup hentry, if_pos hactive, hentries, AList.entries_insert_erase,
      List.countP_cons]
    split <;> omega
  · rw [hentries, AList.length_insert_of_lookup hentry]

/-- A job is written and its execution moves on. -/
theorem StepEffect.write_stage (h : ∀ id, Fits (registry.view id))
    (hentry : registry.entry id = some entry) (hwrites : Writes entry entry')
    (hexecution : registry.execution id = some ⟨cancel_rx, stage⟩)
    (hfits : StageFits stage entry.job.state → StageFits stage' entry'.job.state)
    (hpast : stage.past_start = true → stage'.past_start = true) :
    StepEffect registry ((registry.write id entry').set_stage id cancel_rx stage') := by
  have hself : ((registry.write id entry').set_stage id cancel_rx stage').view id =
      { registry.view id with
        entry := some entry'
        version := some entry'.job
        execution := some ⟨cancel_rx, stage'⟩ } := by
    rw [view_set_stage_self, view_write_self]
  refine StepEffect.write h hentry hwrites ⟨rfl, rfl, rfl⟩ rfl ?_ ?_ ?_ ?_
  · intro other hother
    rw [view_set_stage_of_ne _ _ _ hother, view_write_of_ne _ _ hother]
  · rw [hself]
  · rw [hself]
  · rw [hself]
    exact (h id).write hentry hwrites hexecution hfits hpast .inl

/-- Pruning drops the entries of some terminal jobs. -/
theorem prune_view (h : Fits (registry.view id)) :
    registry.prune.view id = registry.view id ∨
      registry.prune.view id = { registry.view id with entry := none } ∧
        ∀ job, registry.version id = some job → job.state.is_terminal = true := by
  cases hpruned : registry.prune.entry id with
  | some entry =>
    left
    apply JobView.ext
    case entry =>
      show registry.prune.entry id = registry.entry id
      rw [hpruned]
      exact (lookup_prune_some hpruned).symm
    all_goals rfl
  | none =>
    right
    constructor
    · apply JobView.ext
      case entry => exact hpruned
      all_goals rfl
    · intro job hversion
      by_contra hpending
      rw [Bool.not_eq_true] at hpending
      obtain ⟨entry, hentry, rfl⟩ := h.entry_of_pending hversion hpending
      have hkept : registry.prune.entry id = some entry := lookup_prune_pending hentry hpending
      rw [hpruned] at hkept
      exact absurd hkept.symm (Option.some_ne_none entry)

theorem StepEffect.prune (h : StepEffect registry registry') : StepEffect registry registry'.prune where
  hosts := ⟨h.hosts.host_operations, h.hosts.operations, h.hosts.retirements⟩
  fits := by
    intro id
    have hafter := h.fits id
    rcases prune_view hafter with hsame | ⟨hdropped, hterminal⟩
    · rw [hsame]
      exact hafter
    · rw [hdropped]
      exact hafter.drop hterminal
  evolves := by
    intro id
    have hevolves := h.evolves id
    exact ⟨hevolves.absent, hevolves.present, hevolves.started⟩
  pending := Nat.le_trans (pending_prune_le _ _ _) h.pending
  length := Nat.le_trans (length_prune_le _ _ _) h.length

end Command
