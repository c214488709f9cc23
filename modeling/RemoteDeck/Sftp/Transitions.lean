import RemoteDeck.Sftp.Registry
import RemoteDeck.Store.Invariant

/-! # Transfers obey their transition relation

    What one step can do to the registry is said once (`Effect`,
    `next_effect`).  From it follow the invariant of the registry
    (`RegistryInv`) and, for runs whose steps are orderly (`Orderly`), that
    every job changes along the declared relation with a new revision
    (`transfers_follow_transition`).
-/

namespace Sftp

variable {registry registry' : TransferRegistry} {id job_id : Text} {entry : TransferEntry}

/-! ### Looking up entries -/

theorem entry_set (registry : TransferRegistry) (job_id id : Text) (entry : TransferEntry) :
    (registry.set job_id entry).entry id = if id = job_id then some entry else registry.entry id := by
  unfold TransferRegistry.set TransferRegistry.entry
  by_cases hid : id = job_id
  · subst hid
    rw [if_pos rfl]
    exact AList.lookup_insert _
  · rw [if_neg hid]
    exact AList.lookup_insert_ne hid

theorem lookup_erase_some {entries : Entries} {gone : Text}
    (h : (entries.erase gone).lookup id = some entry) : entries.lookup id = some entry := by
  by_cases hid : id = gone
  · rw [hid, AList.lookup_erase] at h
    simp at h
  · rwa [AList.lookup_erase_ne hid] at h

theorem lookup_prune_some {limit bound : Nat} {entries : Entries}
    (h : (prune_terminal_transfers limit bound entries).lookup id = some entry) :
    entries.lookup id = some entry := by
  induction bound generalizing entries with
  | zero => exact h
  | succ bound ih =>
    unfold prune_terminal_transfers at h
    split at h
    · exact h
    · split at h
      · exact h
      · exact lookup_erase_some (ih h)

theorem lookup_purge_some {gone : List Text} {entries : Entries}
    (h : (gone.foldl (fun entries id => entries.erase id) entries).lookup id = some entry) :
    entries.lookup id = some entry := by
  induction gone generalizing entries with
  | nil => exact h
  | cons first gone ih => exact lookup_erase_some (ih h)

/-! ### What a step does -/

/-- Entries are forgotten, or nothing but the retired hosts changes. -/
structure Shrinks (registry registry' : TransferRegistry) : Prop where
  entries : ∀ id entry, registry'.entry id = some entry → registry.entry id = some entry
  attempts : registry'.attempts = registry.attempts
  unsignalled : registry'.unsignalled = registry.unsignalled
  cancelled : registry'.cancelled = registry.cancelled
  controls : registry'.controls = registry.controls
  used_ids : registry.used_ids ⊆ registry'.used_ids

theorem Shrinks.refl (registry : TransferRegistry) : Shrinks registry registry :=
  ⟨fun _ _ h => h, rfl, rfl, rfl, rfl, fun _ h => h⟩

/-- The state that a result gives its job. -/
def result_state : AppResult TransferOutcome → TransferState
  | .ok _ => .Completed
  | .error .Cancelled => .Cancelled
  | .error _ => .Failed

/-- What ends an attempt, and in which state of its job. -/
inductive Ends (registry : TransferRegistry) (entry : TransferEntry) :
    Label → Attempt → TransferState → Prop where
  | cancelled {job_id : Text} {now : Timestamp} :
      entry.control ∈ registry.cancelled →
      Ends registry entry (.execute_begin job_id now) ⟨job_id, .spawned⟩ .Cancelled
  | refused {job_id : Text} {now : Timestamp} :
      entry.control ∉ registry.cancelled → entry.job.state ≠ .Queued →
      Ends registry entry (.execute_begin job_id now) ⟨job_id, .spawned⟩ .Failed
  | finished {job_id : Text} {control : Nat} {result : AppResult TransferOutcome} {now : Timestamp} :
      (result = .error .Cancelled → control ∈ registry.cancelled) →
      Ends registry entry (.execute_end job_id control result now) ⟨job_id, .running control⟩
        (result_state result)

/-- What a step does to the registry. -/
inductive Effect (registry : TransferRegistry) : Label → TransferRegistry → Prop where
  | shrinks {label : Label} {registry' : TransferRegistry} :
      Shrinks registry registry' → Effect registry label registry'
  | started {id : Text} {now : Timestamp} {current_host : AppResult HostProfile}
      {valid_paths : AppResult Unit} {operation : TransferOperation} {kept : TransferRegistry}
      {entry : TransferEntry} :
      id ∉ registry.used_ids → Shrinks registry kept → entry.job.state = .Queued →
      entry.control = registry.controls →
      Effect registry (.start id now current_host valid_paths operation)
        (spawn_attempt
          { kept.set id entry with
            controls := kept.controls + 1
            used_ids := insert id kept.used_ids } id)
  | cancelled {job_id : Text} {now : Timestamp} {entry : TransferEntry} {job : TransferJob} :
      registry.entry job_id = some entry →
      (entry.job.state = .Queued ∨ entry.job.state = .Running) → job.state = .Cancelling →
      job.revision = min (entry.job.revision + 1) MAX_REVISION →
      Effect registry (.cancel job_id now)
        { registry.set job_id { entry with job := job } with
          unsignalled := entry.control :: registry.unsignalled }
  | signalled {control : Nat} :
      control ∈ registry.unsignalled → Effect registry (.signal control) (signal registry control)
  | retried {job_id : Text} {current_host : AppResult HostProfile} {valid_paths : AppResult Unit}
      {now : Timestamp} {entry retried : TransferEntry} :
      registry.entry job_id = some entry →
      (entry.job.state = .Failed ∨ entry.job.state = .Cancelled) → retried.job.state = .Queued →
      retried.job.revision = min (entry.job.revision + 1) MAX_REVISION →
      retried.control = registry.controls →
      Effect registry (.retry job_id current_host valid_paths now)
        (spawn_attempt
          { registry.set job_id retried with controls := registry.controls + 1 } job_id)
  | dropped {label : Label} {attempt : Attempt} :
      attempt ∈ registry.attempts → registry.entry attempt.job_id = none →
      Effect registry label (drop_attempt registry attempt)
  | ended {label : Label} {attempt : Attempt} {entry : TransferEntry} {job : TransferJob} :
      attempt ∈ registry.attempts → registry.entry attempt.job_id = some entry →
      Ends registry entry label attempt job.state →
      job.revision = min (entry.job.revision + 1) MAX_REVISION →
      Effect registry label
        ((drop_attempt registry attempt).set attempt.job_id { entry with job := job })
  | began {job_id : Text} {now : Timestamp} {entry : TransferEntry} {job : TransferJob} :
      { job_id := job_id, stage := .spawned } ∈ registry.attempts →
      registry.entry job_id = some entry → entry.control ∉ registry.cancelled →
      entry.job.state = .Queued → job.state = .Running →
      job.revision = min (entry.job.revision + 1) MAX_REVISION →
      Effect registry (.execute_begin job_id now)
        (let rest := drop_attempt registry { job_id := job_id, stage := .spawned }
         { rest.set job_id { entry with job := job } with
           attempts := rest.attempts ++ [{ job_id := job_id, stage := .running entry.control }] })

theorem transition_queued {state target : TransferState} (h : transition state .Queued = .ok target) :
    target = .Queued ∧ (state = .Failed ∨ state = .Cancelled) := by
  cases state <;> simp_all [transition]

theorem transition_running {state target : TransferState}
    (h : transition state .Running = .ok target) : target = .Running ∧ state = .Queued := by
  cases state <;> simp_all [transition]

theorem transition_running_refused {state : TransferState} {error : AppError}
    (h : transition state .Running = .error error) : state ≠ .Queued := by
  rintro rfl
  simp [transition] at h

theorem start_effect {now : Timestamp} {current_host : AppResult HostProfile}
    {valid_paths : AppResult Unit} {operation : TransferOperation} (hid : id ∉ registry.used_ids) :
    Effect registry (.start id now current_host valid_paths operation)
      (start_transfer registry id now current_host valid_paths operation).1 := by
  unfold start_transfer
  split
  case h_1 => exact .shrinks (.refl registry)
  case h_2 => exact .shrinks (.refl registry)
  case h_3 host =>
    let pruned := prune_terminal_transfers MAX_RETAINED_TRANSFERS registry.entries.entries.length
      registry.entries
    have hpruned : Shrinks registry { registry with entries := pruned } :=
      ⟨fun _ _ h => lookup_prune_some h, rfl, rfl, rfl, rfl, fun _ h => h⟩
    unfold start
    split
    · exact .shrinks (.refl registry)
    · dsimp only
      split
      · exact .shrinks { hpruned with used_ids := Finset.subset_insert _ _ }
      · exact .started hid hpruned (by cases operation <;> rfl) rfl

theorem cancel_effect {now : Timestamp} :
    Effect registry (.cancel job_id now) (cancel registry job_id now).1 := by
  unfold cancel
  split
  case h_1 => exact .shrinks (.refl registry)
  case h_2 entry hentry =>
    split
    case isFalse => exact .shrinks (.refl registry)
    case isTrue hactive =>
      split
      case h_1 => exact .shrinks (.refl registry)
      case h_2 state hstate =>
        have hcancelling : state = .Cancelling := by
          rcases hactive with h | h <;> rw [h] at hstate <;> simpa [transition] using hstate.symm
        exact .cancelled hentry hactive hcancelling rfl

theorem retry_effect {current_host : AppResult HostProfile} {valid_paths : AppResult Unit}
    {now : Timestamp} : Effect registry (.retry job_id current_host valid_paths now)
      (retry registry job_id current_host valid_paths now).1 := by
  unfold retry
  split
  case h_1 => exact .shrinks (.refl registry)
  case h_2 host =>
    split
    · exact .shrinks (.refl registry)
    · split
      · exact .shrinks (.refl registry)
      · split
        case h_1 => exact .shrinks (.refl registry)
        case h_2 entry hentry =>
          split
          case h_1 => exact .shrinks (.refl registry)
          case h_2 retried hretried =>
            simp only [prepare_transfer_retry, Outcome.ite_error_eq_ok, Outcome.bind_eq_ok,
              Except.ok.injEq] at hretried
            obtain ⟨_, _, _, state, hstate, rfl⟩ := hretried
            obtain ⟨rfl, hended⟩ := transition_queued hstate
            exact .retried hentry hended rfl rfl rfl

theorem execute_begin_effect {now : Timestamp}
    (hattempt : { job_id := job_id, stage := .spawned } ∈ registry.attempts) :
    Effect registry (.execute_begin job_id now) (execute_begin registry job_id now) := by
  unfold execute_begin
  dsimp only
  split
  case h_1 hentry => exact .dropped hattempt hentry
  case h_2 entry hentry =>
    split
    case isTrue hcancelled => exact .ended hattempt hentry (.cancelled hcancelled) rfl
    case isFalse hcancelled =>
      split
      case h_1 error herror =>
        exact .ended hattempt hentry (.refused hcancelled (transition_running_refused herror)) rfl
      case h_2 state hstate =>
        obtain ⟨rfl, hqueued⟩ := transition_running hstate
        exact .began hattempt hentry hcancelled hqueued rfl rfl

theorem finished_job_state (job : TransferJob) (result : AppResult TransferOutcome) (now : Timestamp) :
    (finished_job job result now).state = result_state result ∧
      (finished_job job result now).revision = min (job.revision + 1) MAX_REVISION := by
  cases result with
  | ok outcome => exact ⟨rfl, rfl⟩
  | error error => cases error <;> exact ⟨rfl, rfl⟩

theorem execute_end_effect {control : Nat} {result : AppResult TransferOutcome} {now : Timestamp}
    (hattempt : { job_id := job_id, stage := .running control } ∈ registry.attempts)
    (hresult : result = .error .Cancelled → control ∈ registry.cancelled) :
    Effect registry (.execute_end job_id control result now)
      (execute_end registry job_id control result now) := by
  unfold execute_end
  dsimp only
  split
  case h_1 hentry => exact .dropped hattempt hentry
  case h_2 entry hentry =>
    obtain ⟨hstate, hrevision⟩ := finished_job_state entry.job result now
    exact .ended hattempt hentry (hstate ▸ .finished hresult) hrevision

/-- Every step has an effect. -/
theorem next_effect {label : Label} (h : registry.next label = some registry') :
    Effect registry label registry' := by
  cases label with
  | start id now current_host valid_paths operation =>
    simp only [TransferRegistry.next, Option.ite_none_left_eq_some, Option.some.injEq] at h
    exact h.2 ▸ start_effect h.1
  | cancel job_id now => exact Option.some.inj h ▸ cancel_effect
  | signal control =>
    simp only [TransferRegistry.next, Option.ite_none_right_eq_some, Option.some.injEq] at h
    exact h.2 ▸ .signalled h.1
  | retry job_id current_host valid_paths now => exact Option.some.inj h ▸ retry_effect
  | execute_begin job_id now =>
    simp only [TransferRegistry.next, Option.ite_none_right_eq_some, Option.some.injEq] at h
    exact h.2 ▸ execute_begin_effect h.1
  | execute_end job_id control result now =>
    simp only [TransferRegistry.next, Option.ite_none_right_eq_some, Option.some.injEq] at h
    exact h.2 ▸ execute_end_effect h.1.1 h.1.2
  | retire_host host_id =>
    obtain rfl := Option.some.inj h
    exact .shrinks ⟨fun _ _ h => h, rfl, rfl, rfl, rfl, fun _ h => h⟩
  | restore_host host_id =>
    obtain rfl := Option.some.inj h
    exact .shrinks ⟨fun _ _ h => h, rfl, rfl, rfl, rfl, fun _ h => h⟩
  | purge_host host_id =>
    obtain rfl := Option.some.inj h
    exact .shrinks ⟨fun _ _ h => lookup_purge_some h, rfl, rfl, rfl, rfl, fun _ h => h⟩

/-! ### The invariant -/

/-- The state of a job that an attempt is at work on. -/
def StageFits (stage : Stage) (entry : TransferEntry) : Prop :=
  match stage with
  | .spawned => entry.job.state = .Queued ∨ entry.job.state = .Cancelling
  | .running control => control = entry.control ∧
      (entry.job.state = .Running ∨ entry.job.state = .Cancelling)

/-- A job whose control is or will be cancelled. -/
def Stopping (state : TransferState) : Prop :=
  state = .Cancelling ∨ transfer_state_is_terminal state = true

structure RegistryInv (registry : TransferRegistry) : Prop where
  entry_used : ∀ id entry, registry.entry id = some entry → id ∈ registry.used_ids
  control_made : ∀ id entry, registry.entry id = some entry → entry.control < registry.controls
  control_owner : ∀ id id' entry entry', registry.entry id = some entry →
    registry.entry id' = some entry' → entry.control = entry'.control → id = id'
  signal_made : ∀ control, control ∈ registry.unsignalled ∨ control ∈ registry.cancelled →
    control < registry.controls
  signal_state : ∀ id entry, registry.entry id = some entry →
    entry.control ∈ registry.unsignalled ∨ entry.control ∈ registry.cancelled →
      Stopping entry.job.state
  attempt_used : ∀ attempt ∈ registry.attempts, attempt.job_id ∈ registry.used_ids
  /-- A job has one attempt at most. -/
  attempt_unique : (registry.attempts.map Attempt.job_id).Nodup
  attempt_stage : ∀ attempt ∈ registry.attempts, ∀ entry,
    registry.entry attempt.job_id = some entry → StageFits attempt.stage entry

theorem registryInv_empty : RegistryInv .empty where
  entry_used := by simp [TransferRegistry.entry, TransferRegistry.empty]
  control_made := by simp [TransferRegistry.entry, TransferRegistry.empty]
  control_owner := by simp [TransferRegistry.entry, TransferRegistry.empty]
  signal_made := by simp [TransferRegistry.empty]
  signal_state := by simp [TransferRegistry.entry, TransferRegistry.empty]
  attempt_used := by simp [TransferRegistry.empty]
  attempt_unique := by simp [TransferRegistry.empty]
  attempt_stage := by simp [TransferRegistry.empty]

theorem RegistryInv.shrinks (h : RegistryInv registry) (hs : Shrinks registry registry') :
    RegistryInv registry' where
  entry_used := fun id entry he => hs.used_ids (h.entry_used id entry (hs.entries id entry he))
  control_made := fun id entry he => hs.controls ▸ h.control_made id entry (hs.entries id entry he)
  control_owner := fun id id' entry entry' he he' =>
    h.control_owner id id' entry entry' (hs.entries id entry he) (hs.entries id' entry' he')
  signal_made := by
    rw [hs.unsignalled, hs.cancelled, hs.controls]
    exact h.signal_made
  signal_state := fun id entry he => by
    rw [hs.unsignalled, hs.cancelled]
    exact h.signal_state id entry (hs.entries id entry he)
  attempt_used := fun attempt hmem => hs.used_ids (h.attempt_used attempt (hs.attempts ▸ hmem))
  attempt_unique := by
    rw [hs.attempts]
    exact h.attempt_unique
  attempt_stage := fun attempt hmem entry he =>
    h.attempt_stage attempt (hs.attempts ▸ hmem) entry (hs.entries _ entry he)

/-- The attempts that remain are of other jobs. -/
theorem RegistryInv.erase_attempt (h : RegistryInv registry) {attempt : Attempt}
    (hmem : attempt ∈ registry.attempts) :
    (∀ other ∈ registry.attempts.erase attempt, other ∈ registry.attempts ∧
      other.job_id ≠ attempt.job_id) ∧
      ((registry.attempts.erase attempt).map Attempt.job_id).Nodup := by
  have hperm := (List.perm_cons_erase hmem).map Attempt.job_id
  have hnodup := hperm.nodup_iff.mp h.attempt_unique
  rw [List.map_cons, List.nodup_cons] at hnodup
  refine ⟨fun other hother => ⟨List.mem_of_mem_erase hother, fun hsame => ?_⟩, hnodup.2⟩
  exact hnodup.1 (hsame ▸ List.mem_map_of_mem hother)

/-- A job with an attempt has no other when it is written. -/
theorem RegistryInv.drop_attempt (h : RegistryInv registry) {attempt : Attempt}
    (hmem : attempt ∈ registry.attempts) : RegistryInv (drop_attempt registry attempt) where
  entry_used := h.entry_used
  control_made := h.control_made
  control_owner := h.control_owner
  signal_made := h.signal_made
  signal_state := h.signal_state
  attempt_used := fun other hother =>
    h.attempt_used other ((h.erase_attempt hmem).1 other hother).1
  attempt_unique := (h.erase_attempt hmem).2
  attempt_stage := fun other hother =>
    h.attempt_stage other ((h.erase_attempt hmem).1 other hother).1

/-- Writing a job keeps the invariant when the attempts and signals of the
    job fit its new state. -/
theorem RegistryInv.set_job (h : RegistryInv registry) (job : TransferJob)
    (hentry : registry.entry job_id = some entry)
    (hstage : ∀ attempt ∈ registry.attempts, attempt.job_id = job_id →
      StageFits attempt.stage { entry with job := job })
    (hsignal : entry.control ∈ registry.unsignalled ∨ entry.control ∈ registry.cancelled →
      Stopping job.state) :
    RegistryInv (registry.set job_id { entry with job := job }) := by
  -- an entry after the write has the control of one before it
  have hbefore : ∀ id entry', (registry.set job_id { entry with job := job }).entry id = some entry' →
      ∃ old, registry.entry id = some old ∧ entry'.control = old.control := by
    intro id entry' he
    rw [entry_set] at he
    split at he
    case isTrue hid =>
      obtain rfl := Option.some.inj he
      exact ⟨entry, hid ▸ hentry, rfl⟩
    case isFalse => exact ⟨entry', he, rfl⟩
  refine ⟨?_, ?_, ?_, h.signal_made, ?_, h.attempt_used, h.attempt_unique, ?_⟩
  · intro id entry' he
    obtain ⟨old, hold, _⟩ := hbefore id entry' he
    exact h.entry_used id old hold
  · intro id entry' he
    obtain ⟨old, hold, hcontrol⟩ := hbefore id entry' he
    exact hcontrol ▸ h.control_made id old hold
  · intro id id' entry₁ entry₂ he he' hsame
    obtain ⟨old, hold, hcontrol⟩ := hbefore id entry₁ he
    obtain ⟨old', hold', hcontrol'⟩ := hbefore id' entry₂ he'
    exact h.control_owner id id' old old' hold hold' (hcontrol ▸ hcontrol' ▸ hsame)
  · intro id entry' he hsig
    rw [entry_set] at he
    split at he
    case isTrue hid =>
      obtain rfl := Option.some.inj he
      exact hsignal hsig
    case isFalse => exact h.signal_state id entry' he hsig
  · intro attempt hmem entry' he
    rw [entry_set] at he
    split at he
    case isTrue hid =>
      obtain rfl := Option.some.inj he
      exact hstage attempt hmem hid
    case isFalse => exact h.attempt_stage attempt hmem entry' he

/-- An attempt is added for a job that has none. -/
theorem RegistryInv.add_attempt (h : RegistryInv registry) {stage : Stage}
    (hentry : registry.entry job_id = some entry)
    (hidle : ∀ attempt ∈ registry.attempts, attempt.job_id ≠ job_id)
    (hfits : StageFits stage entry) :
    RegistryInv { registry with
      attempts := registry.attempts ++ [{ job_id := job_id, stage := stage }] } := by
  refine ⟨h.entry_used, h.control_made, h.control_owner, h.signal_made, h.signal_state, ?_, ?_, ?_⟩
  · intro attempt hmem
    rcases List.mem_append.mp hmem with hmem | hmem
    · exact h.attempt_used attempt hmem
    · rw [List.mem_singleton.mp hmem]
      exact h.entry_used job_id entry hentry
  · show ((registry.attempts ++ [_]).map Attempt.job_id).Nodup
    rw [List.map_append, List.nodup_append]
    refine ⟨h.attempt_unique, by simp, ?_⟩
    intro id hmem id' hmem'
    obtain ⟨attempt, hattempt, rfl⟩ := List.mem_map.mp hmem
    obtain rfl : id' = job_id := by simpa using hmem'
    exact hidle attempt hattempt
  · intro attempt hmem entry' he
    rcases List.mem_append.mp hmem with hmem | hmem
    · exact h.attempt_stage attempt hmem entry' he
    · rw [List.mem_singleton.mp hmem] at he ⊢
      obtain rfl := Option.some.inj (hentry.symm.trans he)
      exact hfits

/-- A job without an attempt is written under a new control. -/
theorem RegistryInv.renew (h : RegistryInv registry) {used_ids : Finset Text}
    (hused : registry.used_ids ⊆ used_ids) (hid : job_id ∈ used_ids)
    (hidle : ∀ attempt ∈ registry.attempts, attempt.job_id ≠ job_id)
    (hcontrol : entry.control = registry.controls) :
    RegistryInv { registry.set job_id entry with
      controls := registry.controls + 1
      used_ids := used_ids } := by
  have hlookup : ∀ id, TransferRegistry.entry
      { registry.set job_id entry with
        controls := registry.controls + 1
        used_ids := used_ids } id =
      if id = job_id then some entry else registry.entry id :=
    fun id => entry_set registry job_id id entry
  refine ⟨?_, ?_, ?_, ?_, ?_, ?_, h.attempt_unique, ?_⟩
  · intro id entry' he
    rw [hlookup] at he
    split at he
    case isTrue h => exact h ▸ hid
    case isFalse => exact hused (h.entry_used id entry' he)
  · intro id entry' he
    rw [hlookup] at he
    show entry'.control < registry.controls + 1
    split at he
    case isTrue =>
      obtain rfl := Option.some.inj he
      omega
    case isFalse =>
      have := h.control_made id entry' he
      omega
  · intro id id' entry₁ entry₂ he he' hsame
    rw [hlookup] at he he'
    split at he
    case isTrue hfirst =>
      obtain rfl := Option.some.inj he
      split at he'
      case isTrue hsecond => exact hfirst.trans hsecond.symm
      case isFalse =>
        have := h.control_made id' entry₂ he'
        omega
    case isFalse =>
      split at he'
      case isTrue =>
        obtain rfl := Option.some.inj he'
        have := h.control_made id entry₁ he
        omega
      case isFalse => exact h.control_owner id id' entry₁ entry₂ he he' hsame
  · intro control hsig
    have := h.signal_made control hsig
    show control < registry.controls + 1
    omega
  · intro id entry' he hsig
    rw [hlookup] at he
    split at he
    case isTrue =>
      -- the new control is not signalled
      obtain rfl := Option.some.inj he
      have := h.signal_made _ hsig
      omega
    case isFalse => exact h.signal_state id entry' he hsig
  · exact fun attempt hmem => hused (h.attempt_used attempt hmem)
  · intro attempt hmem entry' he
    rw [hlookup, if_neg (hidle attempt hmem)] at he
    exact h.attempt_stage attempt hmem entry' he

/-- A job without an attempt is queued under a new control. -/
theorem RegistryInv.queue (h : RegistryInv registry) {used_ids : Finset Text}
    (hused : registry.used_ids ⊆ used_ids) (hid : job_id ∈ used_ids)
    (hidle : ∀ attempt ∈ registry.attempts, attempt.job_id ≠ job_id)
    (hqueued : entry.job.state = .Queued) (hcontrol : entry.control = registry.controls) :
    RegistryInv (spawn_attempt
      { registry.set job_id entry with
        controls := registry.controls + 1
        used_ids := used_ids } job_id) := by
  have hwritten := (entry_set registry job_id job_id entry).trans (if_pos rfl)
  exact (h.renew hused hid hidle hcontrol).add_attempt hwritten hidle (.inl hqueued)

/-- A terminal job has no attempt. -/
theorem RegistryInv.idle (h : RegistryInv registry) (hentry : registry.entry job_id = some entry)
    (hended : transfer_state_is_terminal entry.job.state = true) :
    ∀ attempt ∈ registry.attempts, attempt.job_id ≠ job_id := by
  rintro attempt hmem rfl
  have hfits := h.attempt_stage attempt hmem entry hentry
  revert hfits
  cases attempt.stage with
  | spawned => rintro (hstate | hstate) <;> simp [hstate, transfer_state_is_terminal] at hended
  | running control =>
    rintro ⟨_, hstate | hstate⟩ <;> simp [hstate, transfer_state_is_terminal] at hended

theorem RegistryInv.signal (h : RegistryInv registry) {control : Nat}
    (hmem : control ∈ registry.unsignalled) : RegistryInv (signal registry control) := by
  have hbefore : ∀ other, other ∈ registry.unsignalled.erase control ∨
      other ∈ insert control registry.cancelled →
      other ∈ registry.unsignalled ∨ other ∈ registry.cancelled := by
    rintro other (hother | hother)
    · exact .inl (List.mem_of_mem_erase hother)
    · rcases Finset.mem_insert.mp hother with rfl | hother
      · exact .inl hmem
      · exact .inr hother
  exact ⟨h.entry_used, h.control_made, h.control_owner,
    fun other hother => h.signal_made other (hbefore other hother),
    fun id entry he hother => h.signal_state id entry he (hbefore _ hother),
    h.attempt_used, h.attempt_unique, h.attempt_stage⟩

/-- The control of a stopping job will be signalled. -/
theorem RegistryInv.add_signal (h : RegistryInv registry)
    (hentry : registry.entry job_id = some entry) (hstopping : Stopping entry.job.state) :
    RegistryInv { registry with unsignalled := entry.control :: registry.unsignalled } := by
  refine ⟨h.entry_used, h.control_made, h.control_owner, ?_, ?_, h.attempt_used, h.attempt_unique,
    h.attempt_stage⟩
  · rintro control (hmem | hmem)
    · rcases List.mem_cons.mp hmem with rfl | hmem
      · exact h.control_made job_id entry hentry
      · exact h.signal_made control (.inl hmem)
    · exact h.signal_made control (.inr hmem)
  · rintro id entry' he (hmem | hmem)
    · rcases List.mem_cons.mp hmem with hsame | hmem
      · obtain rfl := h.control_owner id job_id entry' entry he hentry hsame
        obtain rfl := Option.some.inj (hentry.symm.trans he)
        exact hstopping
      · exact h.signal_state id entry' he (.inl hmem)
    · exact h.signal_state id entry' he (.inr hmem)

theorem Ends.terminal {label : Label} {attempt : Attempt} {state : TransferState}
    (h : Ends registry entry label attempt state) : transfer_state_is_terminal state = true := by
  cases h with
  | cancelled _ => rfl
  | refused _ _ => rfl
  | @finished _ _ result _ _ =>
    cases result with
    | ok outcome => rfl
    | error error => cases error <;> rfl

theorem RegistryInv.effect (h : RegistryInv registry) {label : Label}
    (heffect : Effect registry label registry') : RegistryInv registry' := by
  cases heffect with
  | shrinks hs => exact h.shrinks hs
  | @started id _ _ _ _ kept entry hid hs hqueued hcontrol =>
    refine (h.shrinks hs).queue (Finset.subset_insert _ _) (Finset.mem_insert_self _ _) ?_ hqueued
      (hcontrol.trans hs.controls.symm)
    intro attempt hmem hsame
    rw [hs.attempts] at hmem
    exact hid (hsame ▸ h.attempt_used attempt hmem)
  | @cancelled job_id _ entry job hentry hactive hstate hrevision =>
    have hwritten := h.set_job job hentry ?_ fun _ => .inl hstate
    · have hlookup := (entry_set registry job_id job_id { entry with job := job }).trans (if_pos rfl)
      have hsignalled := hwritten.add_signal hlookup (.inl hstate)
      exact hsignalled
    · rintro attempt hmem rfl
      have hfits := h.attempt_stage attempt hmem entry hentry
      revert hfits
      unfold StageFits
      cases attempt.stage with
      | spawned => exact fun _ => .inr hstate
      | running control => exact fun hfits => ⟨hfits.1, .inr hstate⟩
  | signalled hmem => exact h.signal hmem
  | @retried _ _ _ _ entry _ hentry hended hqueued hrevision hcontrol =>
    have hterminal : transfer_state_is_terminal entry.job.state = true := by
      rcases hended with hstate | hstate <;> rw [hstate] <;> rfl
    exact h.queue (Finset.Subset.refl _) (h.entry_used _ _ hentry) (h.idle hentry hterminal) hqueued
      hcontrol
  | dropped hmem hnone => exact h.drop_attempt hmem
  | ended hmem hentry hends hrevision =>
    refine (h.drop_attempt hmem).set_job _ hentry ?_ fun _ => .inr hends.terminal
    intro other hother hsame
    exact absurd hsame ((h.erase_attempt hmem).1 other hother).2
  | @began job_id _ entry job hmem hentry hcontrol hqueued hrunning hrevision =>
    have hothers := (h.erase_attempt hmem).1
    have hwritten := (h.drop_attempt hmem).set_job job hentry
      (fun other hother hsame => absurd hsame (hothers other hother).2) ?_
    · have hlookup := (entry_set
        (Sftp.drop_attempt registry { job_id := job_id, stage := .spawned }) job_id job_id
        { entry with job := job }).trans (if_pos rfl)
      exact hwritten.add_attempt hlookup (fun other hother => (hothers other hother).2)
        ⟨rfl, .inl hrunning⟩
    · intro hsig
      rcases h.signal_state job_id entry hentry hsig with hstate | hstate
      · simp [hqueued] at hstate
      · simp [hqueued, transfer_state_is_terminal] at hstate

theorem reachable_registryInv {ok : TransferRegistry → Label → Prop}
    (h : transfers.ReachableWhen ok registry) : RegistryInv registry := by
  refine h.invariant ?_ ?_
  · rintro registry rfl
    exact registryInv_empty
  · intro registry label registry' hinv _ hnext
    exact hinv.effect (next_effect hnext)

/-! ### Orderly runs -/

/-- The step retries the job. -/
def Label.retries (label : Label) (job_id : Text) : Prop :=
  match label with
  | .retry id _ _ _ => id = job_id
  | _ => False

/-- The job that a step writes, other than a new one. -/
def Label.writes (label : Label) (job_id : Text) : Prop :=
  match label with
  | .cancel id _ | .retry id _ _ _ | .execute_begin id _ | .execute_end id _ _ _ => id = job_id
  | _ => False

/-- A job that is being cancelled is looked at by its attempt only when its
    control is cancelled, and its transfer reports that; revisions have not
    run out. -/
def Orderly (registry : TransferRegistry) (label : Label) : Prop :=
  ∀ job_id entry, registry.entry job_id = some entry → label.writes job_id →
    entry.job.revision < MAX_REVISION ∧
      (entry.job.state = .Cancelling →
        match label with
        | .execute_begin _ _ => entry.control ∈ registry.cancelled
        | .execute_end _ _ result _ => result = .error .Cancelled
        | _ => True)

/-- A job changes along the declared relation, with a higher revision, and
    leaves a terminal state only when it is retried. -/
structure Follows (label : Label) (id : Text) (job job' : TransferJob) : Prop where
  declared : transition job.state job'.state = .ok job'.state
  revision : job.revision < job'.revision
  terminal : transfer_state_is_terminal job.state = true → label.retries id

theorem revision_advances {revision : Nat} (h : revision < MAX_REVISION) :
    revision < min (revision + 1) MAX_REVISION := by
  omega

/-- The state in which an orderly attempt ends its job. -/
theorem Ends.declared {label : Label} {attempt : Attempt} {state : TransferState}
    (h : Ends registry entry label attempt state) (hinv : RegistryInv registry)
    (hmem : attempt ∈ registry.attempts) (hentry : registry.entry attempt.job_id = some entry)
    (hord : Orderly registry label) :
    transition entry.job.state state = .ok state ∧
      transfer_state_is_terminal entry.job.state = false ∧ label.writes attempt.job_id := by
  have hfits := hinv.attempt_stage attempt hmem entry hentry
  cases h with
  | cancelled hcontrol =>
    rcases hfits with hstate | hstate
    · rcases hinv.signal_state _ entry hentry (.inr hcontrol) with hstop | hstop
      · simp [hstate] at hstop
      · simp [hstate, transfer_state_is_terminal] at hstop
    · rw [hstate]
      exact ⟨rfl, rfl, rfl⟩
  | refused hcontrol hqueued =>
    rcases hfits with hstate | hstate
    · exact absurd hstate hqueued
    · exact absurd ((hord _ entry hentry rfl).2 hstate) hcontrol
  | @finished job_id control result now hresult =>
    obtain ⟨rfl, hstate | hstate⟩ := hfits
    · rw [hstate]
      cases result with
      | ok outcome => exact ⟨rfl, rfl, rfl⟩
      | error error =>
        by_cases hcancelled : error = .Cancelled
        · -- a running job has no cancelled control
          subst hcancelled
          rcases hinv.signal_state _ entry hentry (.inr (hresult rfl)) with hstop | hstop
          · simp [hstate] at hstop
          · simp [hstate, transfer_state_is_terminal] at hstop
        · have hfailed : result_state (.error error) = .Failed := by
            cases error <;> first | rfl | exact absurd rfl hcancelled
          rw [hfailed]
          exact ⟨rfl, rfl, rfl⟩
    · have hreported : result = .error .Cancelled := (hord _ entry hentry rfl).2 hstate
      rw [hstate, hreported]
      exact ⟨rfl, rfl, rfl⟩

/-- An entry after an orderly step is a new job, unchanged, or follows. -/
theorem Effect.follows {label : Label} (heffect : Effect registry label registry')
    (hinv : RegistryInv registry) (hord : Orderly registry label) {entry' : TransferEntry}
    (hentry' : registry'.entry id = some entry') :
    id ∉ registry.used_ids ∨
      ∃ entry, registry.entry id = some entry ∧
        (entry.job = entry'.job ∨ Follows label id entry.job entry'.job) := by
  cases heffect with
  | shrinks hs => exact .inr ⟨entry', hs.entries id entry' hentry', .inl rfl⟩
  | @started new_id _ _ _ _ kept entry hnew hs hqueued hcontrol =>
    have hlookup : (kept.set new_id entry).entry id = some entry' := hentry'
    rw [entry_set] at hlookup
    split at hlookup
    case isTrue hid => exact .inl (hid ▸ hnew)
    case isFalse => exact .inr ⟨entry', hs.entries id entry' hlookup, .inl rfl⟩
  | @cancelled job_id _ entry job hentry hactive hstate hrevision =>
    have hlookup : (registry.set job_id { entry with job := job }).entry id = some entry' := hentry'
    rw [entry_set] at hlookup
    split at hlookup
    case isFalse => exact .inr ⟨entry', hlookup, .inl rfl⟩
    case isTrue hid =>
      obtain rfl := Option.some.inj hlookup
      refine .inr ⟨entry, hid ▸ hentry, .inr ⟨?_, ?_, fun hterminal => ?_⟩⟩
      · show transition entry.job.state job.state = .ok job.state
        rcases hactive with h | h <;> rw [h, hstate] <;> rfl
      · show entry.job.revision < job.revision
        rw [hrevision]
        exact revision_advances (hord job_id entry hentry rfl).1
      · rcases hactive with h | h <;> simp [h, transfer_state_is_terminal] at hterminal
  | signalled hmem => exact .inr ⟨entry', hentry', .inl rfl⟩
  | @retried job_id _ _ _ entry retried hentry hended hqueued hrevision hcontrol =>
    have hlookup : (registry.set job_id retried).entry id = some entry' := hentry'
    rw [entry_set] at hlookup
    split at hlookup
    case isFalse => exact .inr ⟨entry', hlookup, .inl rfl⟩
    case isTrue hid =>
      obtain rfl := Option.some.inj hlookup
      refine .inr ⟨entry, hid ▸ hentry, .inr ⟨?_, ?_, fun _ => hid.symm⟩⟩
      · rcases hended with h | h <;> rw [h, hqueued] <;> rfl
      · rw [hrevision]
        exact revision_advances (hord job_id entry hentry rfl).1
  | dropped hmem hnone => exact .inr ⟨entry', hentry', .inl rfl⟩
  | @ended _ attempt entry job hmem hentry hends hrevision =>
    rw [entry_set] at hentry'
    split at hentry'
    case isFalse => exact .inr ⟨entry', hentry', .inl rfl⟩
    case isTrue hid =>
      obtain rfl := Option.some.inj hentry'
      obtain ⟨hdeclared, hactive, hwrites⟩ := hends.declared hinv hmem hentry hord
      refine .inr ⟨entry, hid ▸ hentry, .inr ⟨hdeclared, ?_, fun hterminal => ?_⟩⟩
      · show entry.job.revision < job.revision
        rw [hrevision]
        exact revision_advances (hord _ entry hentry hwrites).1
      · simp [hactive] at hterminal
  | @began job_id _ entry job hmem hentry hcontrol hqueued hrunning hrevision =>
    have hlookup : ((drop_attempt registry { job_id := job_id, stage := .spawned }).set job_id
        { entry with job := job }).entry id = some entry' := hentry'
    rw [entry_set] at hlookup
    split at hlookup
    case isFalse => exact .inr ⟨entry', hlookup, .inl rfl⟩
    case isTrue hid =>
      obtain rfl := Option.some.inj hlookup
      refine .inr ⟨entry, hid ▸ hentry, .inr ⟨?_, ?_, fun hterminal => ?_⟩⟩
      · show transition entry.job.state job.state = .ok job.state
        rw [hqueued, hrunning]
        rfl
      · show entry.job.revision < job.revision
        rw [hrevision]
        exact revision_advances (hord job_id entry hentry rfl).1
      · simp [hqueued, transfer_state_is_terminal] at hterminal

theorem Effect.used_ids {label : Label} (heffect : Effect registry label registry') :
    registry.used_ids ⊆ registry'.used_ids := by
  cases heffect with
  | shrinks hs => exact hs.used_ids
  | started _ hs _ _ => exact hs.used_ids.trans (Finset.subset_insert _ _)
  | cancelled _ _ _ _ => exact Finset.Subset.refl _
  | signalled _ => exact Finset.Subset.refl _
  | retried _ _ _ _ _ => exact Finset.Subset.refl _
  | dropped _ _ => exact Finset.Subset.refl _
  | ended _ _ _ _ => exact Finset.Subset.refl _
  | began _ _ _ _ _ _ => exact Finset.Subset.refl _

/-- **Transfers follow the declared relation**: in every run whose steps are
    orderly a step that changes a job follows the relation, and a job that
    is being cancelled ends cancelled unless it is retried. -/
theorem transfers_follow_transition (h : transfers.ReachableWhen Orderly registry) :
    (∀ label registry', Orderly registry label → registry.next label = some registry' →
      ∀ id entry entry', registry.entry id = some entry → registry'.entry id = some entry' →
        entry.job ≠ entry'.job → Follows label id entry.job entry'.job) ∧
    ∀ id entry, registry.entry id = some entry → entry.job.state = .Cancelling →
      ∀ registry', transfers.StepsWhen
          (fun registry label => Orderly registry label ∧ ¬ label.retries id) registry registry' →
        ∀ entry', registry'.entry id = some entry' →
          entry'.job.state = .Cancelling ∨ entry'.job.state = .Cancelled := by
  have hinv := reachable_registryInv h
  constructor
  · intro label registry' hord hnext id entry entry' hentry hentry' hchanged
    rcases (next_effect hnext).follows hinv hord hentry' with hnew | ⟨old, hold, hjob⟩
    · exact absurd (hinv.entry_used id entry hentry) hnew
    · obtain rfl := Option.some.inj (hentry.symm.trans hold)
      exact hjob.resolve_left hchanged
  · intro id entry hentry hcancelling registry' hsteps
    have hkept := Machine.StepsWhen.preserves_reachable
      (P := fun registry => id ∈ registry.used_ids ∧ ∀ entry', registry.entry id = some entry' →
        entry'.job.state = .Cancelling ∨ entry'.job.state = .Cancelled)
      (fun _ _ hok => hok.1) ?_ h hsteps ?_
    · exact hkept.2
    · rintro registry label next hreach ⟨hused, hstates⟩ ⟨hord, hnot⟩ hnext
      have heffect := next_effect hnext
      refine ⟨heffect.used_ids hused, fun entry' hentry' => ?_⟩
      rcases heffect.follows (reachable_registryInv hreach) hord hentry' with
        hnew | ⟨old, hold, hsame | hfollows⟩
      · exact absurd hused hnew
      · exact hsame ▸ hstates old hold
      · rcases hstates old hold with hstate | hstate
        · have hdeclared := hfollows.declared
          rw [hstate] at hdeclared
          revert hdeclared
          cases entry'.job.state <;> simp [transition]
        · exact absurd (hfollows.terminal (by rw [hstate]; rfl)) hnot
    · refine ⟨hinv.entry_used id entry hentry, fun entry' hentry' => ?_⟩
      obtain rfl := Option.some.inj (hentry.symm.trans hentry')
      exact .inl hcancelling

/-! ### Cancelling a queued job -/

/-- `Orderly`, on a trace. -/
def orderly (registry : TransferRegistry) (label : Label) : Bool :=
  match label with
  | .cancel id _ | .retry id _ _ _ =>
      (registry.entry id).all fun entry => entry.job.revision < MAX_REVISION
  | .execute_begin id _ =>
      (registry.entry id).all fun entry => entry.job.revision < MAX_REVISION &&
        (entry.job.state ≠ .Cancelling || entry.control ∈ registry.cancelled)
  | .execute_end id _ result _ =>
      (registry.entry id).all fun entry => entry.job.revision < MAX_REVISION &&
        (entry.job.state ≠ .Cancelling || result = .error .Cancelled)
  | .start _ _ _ _ _ | .signal _ | .retire_host _ | .restore_host _ | .purge_host _ => true

theorem orderly_sound (registry : TransferRegistry) (label : Label)
    (h : orderly registry label = true) : Orderly registry label := by
  intro job_id entry hentry hwrites
  cases label with
  | cancel id now =>
    obtain rfl : id = job_id := hwrites
    simp only [orderly, hentry, Option.all_some, decide_eq_true_eq] at h
    exact ⟨h, fun _ => trivial⟩
  | retry id current_host valid_paths now =>
    obtain rfl : id = job_id := hwrites
    simp only [orderly, hentry, Option.all_some, decide_eq_true_eq] at h
    exact ⟨h, fun _ => trivial⟩
  | execute_begin id now =>
    obtain rfl : id = job_id := hwrites
    simp only [orderly, hentry, Option.all_some, Bool.and_eq_true, Bool.or_eq_true,
      decide_eq_true_eq] at h
    exact ⟨h.1, fun hstate => h.2.resolve_left (not_not.mpr hstate)⟩
  | execute_end id control result now =>
    obtain rfl : id = job_id := hwrites
    simp only [orderly, hentry, Option.all_some, Bool.and_eq_true, Bool.or_eq_true,
      decide_eq_true_eq] at h
    exact ⟨h.1, fun hstate => h.2.resolve_left (not_not.mpr hstate)⟩
  | start id now current_host valid_paths operation => exact hwrites.elim
  | signal control => exact hwrites.elim
  | retire_host host_id => exact hwrites.elim
  | restore_host host_id => exact hwrites.elim
  | purge_host host_id => exact hwrites.elim

def plain_host : HostProfile :=
  Store.profile_of_draft 0 0 (Store.HostDraft.plain none "lab".toList none) none

def upload_request : TransferOperation :=
  .Upload
    { local_path := "/tmp/report.txt".toList
      remote_path := "/srv/report.txt".toList
      conflict_policy := .Ask
      recursive := false }

def first_id : Text := "00000000-0000-0000-0000-000000000001".toList

/-- A queued upload is cancelled. -/
def cancel_queued : List Label :=
  [.start first_id 0 (.ok plain_host) (.ok ()) upload_request, .cancel first_id 1]

/-- The states of a job before and after its attempt looks at it. -/
def states_at_begin (registry : TransferRegistry) : Option (TransferState × TransferState) := do
  let entry ← registry.entry first_id
  let registry' ← registry.next (.execute_begin first_id 2)
  let entry' ← registry'.entry first_id
  some (entry.job.state, entry'.job.state)

theorem states_at_begin_eq_some {state state' : TransferState}
    (h : states_at_begin registry = some (state, state')) :
    ∃ (registry' : TransferRegistry) (entry entry' : TransferEntry),
      registry.next (.execute_begin first_id 2) = some registry' ∧ registry.entry first_id = some entry ∧ registry'.entry first_id = some entry' ∧
      entry.job.state = state ∧ entry'.job.state = state' := by
  simp only [states_at_begin, Option.bind_eq_bind, Option.bind_eq_some_iff, Option.some.injEq,
    Prod.mk.injEq] at h
  obtain ⟨entry, hentry, registry', hnext, entry', hentry', hstate, hstate'⟩ := h
  exact ⟨registry', entry, entry', hnext, hentry, hentry', hstate, hstate'⟩

/-- With its control cancelled the job ends cancelled. -/
theorem cancelled_queued_job_follows :
    ∃ (registry registry' : TransferRegistry) (entry entry' : TransferEntry),
      registry.next (.execute_begin first_id 2) = some registry' ∧
        entry.job.state = .Cancelling ∧ entry'.job.state = .Cancelled ∧
          Follows (.execute_begin first_id 2) first_id entry.job entry'.job := by
  obtain ⟨registry, hreach, hp⟩ := Machine.reachable_of_replay (m := transfers) orderly
    orderly_sound rfl (cancel_queued ++ [.signal 0])
    (fun registry => decide (states_at_begin registry = some (.Cancelling, .Cancelled)) &&
      orderly registry (.execute_begin first_id 2))
    (by decide +kernel)
  simp only [Bool.and_eq_true, decide_eq_true_eq] at hp
  obtain ⟨hstates, hord⟩ := hp
  obtain ⟨registry', entry, entry', hnext, hentry, hentry', hstate, hstate'⟩ :=
    states_at_begin_eq_some hstates
  refine ⟨registry, registry', entry, entry', hnext, hstate, hstate', ?_⟩
  refine (transfers_follow_transition hreach).1 _ registry' (orderly_sound _ _ hord) hnext first_id
    entry entry' hentry hentry' fun hsame => ?_
  rw [hsame, hstate'] at hstate
  simp at hstate

/-- Before its control is cancelled the job fails. -/
theorem cancelled_queued_job_fails :
    ∃ (registry registry' : TransferRegistry) (entry entry' : TransferEntry),
      transfers.Reachable registry ∧
      registry.next (.execute_begin first_id 2) = some registry' ∧
        registry.entry first_id = some entry ∧ registry'.entry first_id = some entry' ∧
          entry.job.state = .Cancelling ∧ entry'.job.state = .Failed ∧
            ∀ label, ¬ Follows label first_id entry.job entry'.job := by
  obtain ⟨registry, hreach, hp⟩ := Machine.reachable_of_replay (m := transfers)
    (fun _ _ => true) (fun _ _ _ => trivial) rfl cancel_queued
    (fun registry => decide (states_at_begin registry = some (.Cancelling, .Failed)))
    (by decide +kernel)
  obtain ⟨registry', entry, entry', hnext, hentry, hentry', hstate, hstate'⟩ :=
    states_at_begin_eq_some (of_decide_eq_true hp)
  refine ⟨registry, registry', entry, entry', hreach, hnext, hentry, hentry', hstate, hstate', ?_⟩
  intro label hfollows
  have hdeclared := hfollows.declared
  rw [hstate, hstate'] at hdeclared
  simp [transition] at hdeclared

end Sftp
