import RemoteDeck.Lib.Erasure
import RemoteDeck.Sftp.Manager
import RemoteDeck.Sftp.Transitions

/-! # Retirement of a host

    A removal closes the two doors of a host first: `start` and `retry` hold
    the lock of the retired hosts until their job is registered, and the
    service gives no lease for a retired host.  What was inside by then is
    waited for, and the jobs are forgotten.  Until the host is restored it
    keeps neither a job nor a lease.
-/

namespace Sftp

open HostOperation

variable {registry registry' : TransferRegistry} {manager manager' : TransferManager}
  {label : Label} {job_id host_id : Text} {entry : TransferEntry}

/-! ### The hosts of the jobs -/

/-- Where an entry comes from in a step of the registry. -/
def Origin (registry : TransferRegistry) (job_id : Text) (entry : TransferEntry) : Prop :=
  (∃ old, registry.entry job_id = some old ∧ entry.job.host_id = old.job.host_id ∧
      (entry.host = old.host ∨ entry.host.id = entry.job.host_id) ∧
      (entry.control = old.control ∨ entry.control = registry.controls)) ∨
    job_id ∉ registry.used_ids ∧ entry.control = registry.controls ∧
      entry.host.id = entry.job.host_id ∧ entry.job.host_id ∉ registry.retired_hosts

theorem origin_of_kept (h : registry.entry job_id = some entry) : Origin registry job_id entry :=
  .inl ⟨entry, h, rfl, .inl rfl, .inl rfl⟩

/-- The job of an entry is written, and its host and its control stay. -/
theorem origin_of_set {written : Text} {old : TransferEntry} {job : TransferJob}
    (hold : registry.entry written = some old) (hhost : job.host_id = old.job.host_id)
    {rest : TransferRegistry} (hrest : ∀ id, rest.entry id = registry.entry id)
    (h : (rest.set written { old with job := job }).entry job_id = some entry) :
    Origin registry job_id entry := by
  rw [entry_set] at h
  split at h
  · next hid =>
    obtain rfl := Option.some.inj h
    exact .inl ⟨old, hid ▸ hold, hhost, .inl rfl, .inl rfl⟩
  · rw [hrest] at h
    exact origin_of_kept h

theorem start_origin {id : Text} {now : Timestamp} {host : HostProfile} {operation : TransferOperation}
    (hid : id ∉ registry.used_ids)
    (h : (start registry id now host operation).1.entry job_id = some entry) :
    Origin registry job_id entry := by
  unfold start at h
  split at h
  · exact origin_of_kept h
  · next hretired =>
    dsimp only at h
    split at h
    · exact origin_of_kept (lookup_prune_some h)
    · change AList.lookup job_id (AList.insert id _ (prune_terminal_transfers _ _ _)) = some entry at h
      by_cases hjob : job_id = id
      · rw [hjob, AList.lookup_insert, Option.some.injEq] at h
        subst h
        right
        have hhost : (new_job id now host operation).host_id = host.id := by
          cases operation <;> rfl
        refine ⟨hjob ▸ hid, rfl, hhost.symm, ?_⟩
        rw [hhost]
        exact hretired
      · rw [AList.lookup_insert_ne hjob] at h
        exact origin_of_kept (lookup_prune_some h)

theorem finished_job_host (job : TransferJob) (result : AppResult TransferOutcome) (now : Timestamp) :
    (finished_job job result now).host_id = job.host_id := by
  cases result with
  | ok outcome => rfl
  | error error => cases error <;> rfl

/-- Every entry after a step was there before, or belongs to a new job of a
    host that is not retired. -/
theorem next_origin (hnext : registry.next label = some registry')
    (h : registry'.entry job_id = some entry) : Origin registry job_id entry := by
  cases label with
  | start id now current_host valid_paths operation =>
    obtain ⟨hid, hnext⟩ := Option.ite_none_left_eq_some.mp hnext
    obtain rfl := Option.some.inj hnext
    unfold start_transfer at h
    split at h
    · exact origin_of_kept h
    · exact origin_of_kept h
    · exact start_origin hid h
  | cancel id now =>
    obtain rfl := Option.some.inj hnext
    unfold cancel at h
    split at h
    · exact origin_of_kept h
    · next old hold =>
      split at h
      · split at h
        · exact origin_of_kept h
        · refine origin_of_set hold ?_ (fun _ => rfl) h
          rfl
      · exact origin_of_kept h
  | signal control =>
    obtain ⟨_, hnext⟩ := Option.ite_none_right_eq_some.mp hnext
    obtain rfl := Option.some.inj hnext
    exact origin_of_kept h
  | retry id current_host valid_paths now =>
    obtain rfl := Option.some.inj hnext
    unfold retry at h
    split at h
    · exact origin_of_kept h
    · split at h
      · exact origin_of_kept h
      · split at h
        · exact origin_of_kept h
        · split at h
          · exact origin_of_kept h
          · next old hold =>
            split at h
            · exact origin_of_kept h
            · next retried hretried =>
              simp only [prepare_transfer_retry, Outcome.ite_error_eq_ok, Outcome.bind_eq_ok,
                Except.ok.injEq] at hretried
              obtain ⟨hsame, _, _, state, _, rfl⟩ := hretried
              change (registry.set id _).entry job_id = some entry at h
              rw [entry_set] at h
              split at h
              · next hjob =>
                obtain rfl := Option.some.inj h
                left
                refine ⟨old, hjob ▸ hold, rfl, .inr ?_, .inr rfl⟩
                exact (not_not.mp hsame).symm
              · exact origin_of_kept h
  | execute_begin id now =>
    obtain ⟨_, hnext⟩ := Option.ite_none_right_eq_some.mp hnext
    obtain rfl := Option.some.inj hnext
    unfold execute_begin at h
    dsimp only at h
    split at h
    · exact origin_of_kept h
    · next old hold =>
      split at h
      · refine origin_of_set hold ?_ (fun _ => rfl) h
        rfl
      · split at h
        · refine origin_of_set hold ?_ (fun _ => rfl) h
          rfl
        · refine origin_of_set hold ?_ (fun _ => rfl) h
          rfl
  | execute_end id control result now =>
    obtain ⟨_, hnext⟩ := Option.ite_none_right_eq_some.mp hnext
    obtain rfl := Option.some.inj hnext
    unfold execute_end at h
    dsimp only at h
    split at h
    · exact origin_of_kept h
    · next old hold =>
      refine origin_of_set hold ?_ (fun _ => rfl) h
      exact finished_job_host old.job result now
  | retire_host host_id =>
    obtain rfl := Option.some.inj hnext
    exact origin_of_kept h
  | restore_host host_id =>
    obtain rfl := Option.some.inj hnext
    exact origin_of_kept h
  | purge_host host_id =>
    obtain rfl := Option.some.inj hnext
    exact origin_of_kept (lookup_purge_some h)

/-- Only a restoration takes a host out of the retired ones. -/
theorem next_retired (hnext : registry.next label = some registry')
    (hlabel : label ≠ .restore_host host_id) (h : host_id ∈ registry.retired_hosts) :
    host_id ∈ registry'.retired_hosts := by
  have hsame : ∀ {other : TransferRegistry}, other.retired_hosts = registry.retired_hosts →
      host_id ∈ other.retired_hosts := fun hother => hother ▸ h
  cases label with
  | start id now current_host valid_paths operation =>
    obtain ⟨hid, hnext⟩ := Option.ite_none_left_eq_some.mp hnext
    obtain rfl := Option.some.inj hnext
    apply hsame
    unfold start_transfer
    split
    · rfl
    · rfl
    · unfold start
      split
      · rfl
      · dsimp only
        split <;> rfl
  | cancel id now =>
    obtain rfl := Option.some.inj hnext
    apply hsame
    unfold cancel
    split
    · rfl
    · split
      · split <;> rfl
      · rfl
  | signal control =>
    obtain ⟨_, hnext⟩ := Option.ite_none_right_eq_some.mp hnext
    obtain rfl := Option.some.inj hnext
    exact h
  | retry id current_host valid_paths now =>
    obtain rfl := Option.some.inj hnext
    apply hsame
    unfold retry
    split
    · rfl
    · split
      · rfl
      · split
        · rfl
        · split
          · rfl
          · split <;> rfl
  | execute_begin id now =>
    obtain ⟨_, hnext⟩ := Option.ite_none_right_eq_some.mp hnext
    obtain rfl := Option.some.inj hnext
    apply hsame
    unfold execute_begin
    dsimp only
    split
    · rfl
    · split
      · rfl
      · split <;> rfl
  | execute_end id control result now =>
    obtain ⟨_, hnext⟩ := Option.ite_none_right_eq_some.mp hnext
    obtain rfl := Option.some.inj hnext
    apply hsame
    unfold execute_end
    dsimp only
    split <;> rfl
  | retire_host other =>
    obtain rfl := Option.some.inj hnext
    exact Finset.mem_insert_of_mem h
  | restore_host other =>
    obtain rfl := Option.some.inj hnext
    apply Finset.mem_erase.mpr ⟨_, h⟩
    intro hother
    exact hlabel (congrArg Label.restore_host hother.symm)
  | purge_host other =>
    obtain rfl := Option.some.inj hnext
    exact h

/-! ### Forgetting the jobs of a host -/

/-- The purge of a host leaves the jobs of the others. -/
theorem purge_entry (registry : TransferRegistry) (host_id job_id : Text) (entry : TransferEntry) :
    (purge_host registry host_id).entry job_id = some entry ↔
      registry.entry job_id = some entry ∧ entry.job.host_id ≠ host_id := by
  let gone := (registry.entries.entries.filter fun item => item.2.job.host_id = host_id).map Sigma.fst
  have hlookup : (purge_host registry host_id).entry job_id =
      (registry.entries.eraseAll gone).lookup job_id := rfl
  have hgone : ∀ found, registry.entry job_id = some found →
      (job_id ∈ gone ↔ found.job.host_id = host_id) := by
    intro found hfound
    constructor
    · intro hmem
      obtain ⟨item, hitem, hid⟩ := List.mem_map.mp hmem
      obtain ⟨hitem, hhost⟩ := List.mem_filter.mp hitem
      have hsame : registry.entry item.1 = some item.2 := AList.mem_lookup_iff.mpr hitem
      rw [hid, hfound, Option.some.injEq] at hsame
      rw [hsame]
      exact of_decide_eq_true hhost
    · intro hhost
      apply List.mem_map.mpr
      exact ⟨⟨job_id, found⟩, List.mem_filter.mpr
        ⟨AList.mem_lookup_iff.mp hfound, decide_eq_true hhost⟩, rfl⟩
  rw [hlookup]
  constructor
  · intro h
    have hkept : registry.entry job_id = some entry := AList.lookup_eraseAll_some h
    refine ⟨hkept, ?_⟩
    intro hhost
    rw [AList.lookup_eraseAll_of_mem ((hgone entry hkept).mpr hhost)] at h
    exact absurd h.symm (Option.some_ne_none entry)
  · intro ⟨hkept, hhost⟩
    rw [AList.lookup_eraseAll_of_notMem fun hmem => hhost ((hgone entry hkept).mp hmem)]
    exact hkept

theorem next_controls (hnext : registry.next label = some registry') :
    registry.controls ≤ registry'.controls := by
  have heffect := next_effect hnext
  cases heffect with
  | shrinks h => exact Nat.le_of_eq h.controls.symm
  | started _ h => exact Nat.le_succ_of_le (Nat.le_of_eq h.controls.symm)
  | retried => exact Nat.le_succ _
  | cancelled => exact Nat.le_refl _
  | signalled => exact Nat.le_refl _
  | dropped => exact Nat.le_refl _
  | ended => exact Nat.le_refl _
  | began => exact Nat.le_refl _

/-! ### Jobs and controls of a host -/

/-- A job that belongs to the host as long as it is known. -/
def JobOf (registry : TransferRegistry) (host_id job_id : Text) : Prop :=
  job_id ∈ registry.used_ids ∧
    ∀ entry, registry.entry job_id = some entry → entry.job.host_id = host_id

/-- A control that only a job of the host has. -/
def ControlOf (registry : TransferRegistry) (host_id : Text) (control : Nat) : Prop :=
  control < registry.controls ∧
    ∀ job_id entry, registry.entry job_id = some entry → entry.control = control →
      entry.job.host_id = host_id

theorem JobOf.step (h : JobOf registry host_id job_id) (hnext : registry.next label = some registry') :
    JobOf registry' host_id job_id := by
  refine ⟨(next_effect hnext).used_ids h.1, ?_⟩
  intro entry hentry
  rcases next_origin hnext hentry with ⟨old, hold, hhost, _⟩ | ⟨hnew, _⟩
  · exact hhost.trans (h.2 old hold)
  · exact absurd h.1 hnew

theorem ControlOf.step {control : Nat} (h : ControlOf registry host_id control)
    (hnext : registry.next label = some registry') : ControlOf registry' host_id control := by
  obtain ⟨hlt, hjobs⟩ := h
  refine ⟨Nat.lt_of_lt_of_le hlt (next_controls hnext), ?_⟩
  intro job_id entry hentry hcontrol
  rcases next_origin hnext hentry with ⟨old, hold, hhost, _, hkept | hnew⟩ | ⟨_, hnew, _⟩
  · exact hhost.trans (hjobs job_id old hold (hkept.symm.trans hcontrol))
  · omega
  · omega

/-! ### What a step does -/

/-- The two halves of a restoration of the host. -/
def Spares (host_id : Text) (_ : TransferManager) (label : ManagerLabel) : Prop :=
  label ≠ .restore_host host_id ∧ label ≠ .restore_service host_id

/-- The registry and the service take a step of their own, or none, and a
    restoration comes from a restoration. -/
structure Parts (manager : TransferManager) (label : ManagerLabel) (manager' : TransferManager) :
    Prop where
  registry : manager'.registry = manager.registry ∨
    ∃ step, manager.registry.next step = some manager'.registry ∧
      ∀ host_id, step = .restore_host host_id → label = .restore_host host_id
  service : manager'.service = manager.service ∨
    ∃ step, manager.service.next step = some manager'.service ∧
      ∀ host_id, step = .restore host_id → label = .restore_service host_id

/-- Which removal a step belongs to. -/
theorem manager_next_cases {label : ManagerLabel}
    (hnext : manager_machine.next manager label = some manager') :
    (label.removal = none ∧ (∀ id host_id, label ≠ .remove_host id host_id) ∧
        manager'.removals = manager.removals) ∨
      (∃ id host_id registry, label = .remove_host id host_id ∧ manager.removals id = none ∧
        manager.registry.next (.retire_host host_id) = some registry ∧
        manager' = TransferManager.set_removal { manager with registry := registry } id
          ⟨host_id, .retired⟩ .retired) ∨
      ∃ id removal, label.removal = some id ∧ manager.removals id = some removal ∧
        manager.removal_next id removal label = some manager' := by
  change manager.next label = some manager' at hnext
  cases label <;> dsimp only [TransferManager.next, ManagerLabel.task, ManagerLabel.removal] at hnext
  case transfer step =>
    obtain ⟨_, hnext⟩ := Option.ite_none_right_eq_some.mp hnext
    obtain ⟨registry, _, rfl⟩ := Option.map_eq_some_iff.mp hnext
    exact .inl ⟨rfl, nofun, rfl⟩
  case execute_begin task job_id now =>
    obtain ⟨_, hnext⟩ := Option.ite_none_left_eq_some.mp hnext
    obtain ⟨registry, _, rfl⟩ := Option.map_eq_some_iff.mp hnext
    refine .inl ⟨rfl, nofun, ?_⟩
    split <;> rfl
  case begin_operation id host_id =>
    obtain rfl := Option.some.inj hnext
    exact .inl ⟨rfl, nofun, rfl⟩
  case end_operation id host_id =>
    obtain ⟨service, _, rfl⟩ := Option.map_eq_some_iff.mp hnext
    exact .inl ⟨rfl, nofun, rfl⟩
  case remove_host id host_id =>
    obtain ⟨hfree, hnext⟩ := Option.ite_none_left_eq_some.mp hnext
    obtain ⟨registry, hregistry, rfl⟩ := Option.map_eq_some_iff.mp hnext
    exact .inr (.inl ⟨id, host_id, registry, rfl, Option.not_isSome_iff_eq_none.mp hfree, hregistry,
      rfl⟩)
  case restore_host host_id =>
    obtain ⟨registry, _, rfl⟩ := Option.map_eq_some_iff.mp hnext
    exact .inl ⟨rfl, nofun, rfl⟩
  case restore_service host_id =>
    obtain ⟨_, hnext⟩ := Option.ite_none_right_eq_some.mp hnext
    obtain rfl := Option.some.inj hnext
    exact .inl ⟨rfl, nofun, rfl⟩
  case begin_lease id =>
    obtain ⟨task, _, hnext⟩ := Option.bind_eq_some_iff.mp hnext
    obtain ⟨_, hnext⟩ := Option.ite_none_right_eq_some.mp hnext
    obtain rfl := Option.some.inj hnext
    exact .inl ⟨rfl, nofun, rfl⟩
  case end_lease id =>
    obtain ⟨task, _, hnext⟩ := Option.bind_eq_some_iff.mp hnext
    obtain ⟨_, hnext⟩ := Option.ite_none_right_eq_some.mp hnext
    obtain ⟨service, _, rfl⟩ := Option.map_eq_some_iff.mp hnext
    exact .inl ⟨rfl, nofun, rfl⟩
  case execute_end id result now =>
    obtain ⟨task, _, hnext⟩ := Option.bind_eq_some_iff.mp hnext
    obtain ⟨_, hnext⟩ := Option.ite_none_right_eq_some.mp hnext
    obtain ⟨registry, _, rfl⟩ := Option.map_eq_some_iff.mp hnext
    exact .inl ⟨rfl, nofun, rfl⟩
  case mark_finished id =>
    obtain ⟨task, _, hnext⟩ := Option.bind_eq_some_iff.mp hnext
    obtain ⟨_, hnext⟩ := Option.ite_none_right_eq_some.mp hnext
    obtain rfl := Option.some.inj hnext
    exact .inl ⟨rfl, nofun, rfl⟩
  all_goals
    right; right
    obtain ⟨removal, hremoval, hnext⟩ := Option.bind_eq_some_iff.mp hnext
    exact ⟨_, removal, rfl, hremoval, hnext⟩

/-- The step of a removal. -/
inductive RemovalEffect (manager : TransferManager) (id : Nat) (removal : Removal) :
    ManagerLabel → TransferManager → Prop where
  | retire_service : removal.stage = .retired →
      RemovalEffect manager id removal (.retire_service id)
        (TransferManager.set_removal
          { manager with service := manager.service.retire removal.host_id } id removal .closing)
  | collect : removal.stage = .closing →
      RemovalEffect manager id removal (.collect id)
        (manager.set_removal id removal
          (.cancelling ((manager.matching removal.host_id).map Prod.snd)
            ((manager.matching removal.host_id).map Prod.fst)))
  | cancel (job_id : Text) (controls : List Nat) (job_ids : List Text) (now : Timestamp)
      (stage : RemovalStage) (registry : TransferRegistry) :
      removal.stage = .cancelling controls (job_id :: job_ids) →
      (stage = .cancelling controls job_ids ∨ ∃ entry, manager.registry.entry job_id = some entry ∧
        stage = .signalling entry.control controls job_ids) →
      manager.registry.next (.cancel job_id now) = some registry →
      RemovalEffect manager id removal (.cancel_next id now)
        (TransferManager.set_removal { manager with registry := registry } id removal stage)
  | signal (control : Nat) (controls : List Nat) (job_ids : List Text) (registry : TransferRegistry) :
      removal.stage = .signalling control controls job_ids →
      manager.registry.next (.signal control) = some registry →
      RemovalEffect manager id removal (.signal_next id)
        (TransferManager.set_removal { manager with registry := registry } id removal
          (.cancelling controls job_ids))
  | waits (label : ManagerLabel) (stage : RemovalStage) :
      (∃ controls, removal.stage = .cancelling controls []) ∨ removal.stage = .settled →
      stage = .settled ∨ stage = .timed_out →
      RemovalEffect manager id removal label (manager.set_removal id removal stage)
  | wait_idle : removal.stage = .settled → manager.service.idle removal.host_id = true →
      RemovalEffect manager id removal (.wait_idle id) (manager.set_removal id removal .idle)
  | purge (registry : TransferRegistry) : removal.stage = .idle →
      manager.registry.next (.purge_host removal.host_id) = some registry →
      RemovalEffect manager id removal (.purge id)
        (TransferManager.set_removal { manager with registry := registry } id removal .removed)

theorem removal_effect {id : Nat} {removal : Removal} {label : ManagerLabel}
    (hlabel : label.removal = some id) (hnext : manager.removal_next id removal label = some manager') :
    RemovalEffect manager id removal label manager' := by
  cases label <;> dsimp only [TransferManager.removal_next] at hnext
  case retire_service other =>
    obtain rfl := Option.some.inj hlabel
    split at hnext
    · next hstage =>
      obtain rfl := Option.some.inj hnext
      exact .retire_service hstage
    · exact absurd hnext.symm (Option.some_ne_none _)
  case collect other =>
    obtain rfl := Option.some.inj hlabel
    split at hnext
    · next hstage =>
      obtain rfl := Option.some.inj hnext
      exact .collect hstage
    · exact absurd hnext.symm (Option.some_ne_none _)
  case cancel_next other now =>
    obtain rfl := Option.some.inj hlabel
    split at hnext
    · next controls job_id job_ids hstage =>
      obtain ⟨registry, hregistry, rfl⟩ := Option.map_eq_some_iff.mp hnext
      apply RemovalEffect.cancel job_id controls job_ids now _ registry hstage _ hregistry
      split
      · next entry hentry =>
        split
        · exact .inr ⟨entry, hentry, rfl⟩
        · exact .inl rfl
      · exact .inl rfl
    · exact absurd hnext.symm (Option.some_ne_none _)
  case signal_next other =>
    obtain rfl := Option.some.inj hlabel
    split at hnext
    · next control controls job_ids hstage =>
      obtain ⟨registry, hregistry, rfl⟩ := Option.map_eq_some_iff.mp hnext
      exact .signal control controls job_ids registry hstage hregistry
    · exact absurd hnext.symm (Option.some_ne_none _)
  case wait_finished other =>
    split at hnext
    · next controls hstage =>
      obtain ⟨_, hnext⟩ := Option.ite_none_right_eq_some.mp hnext
      obtain rfl := Option.some.inj hnext
      exact .waits _ _ (.inl ⟨controls, hstage⟩) (.inl rfl)
    · exact absurd hnext.symm (Option.some_ne_none _)
  case wait_idle other =>
    obtain rfl := Option.some.inj hlabel
    split at hnext
    · next hstage =>
      obtain ⟨hidle, hnext⟩ := Option.ite_none_right_eq_some.mp hnext
      obtain rfl := Option.some.inj hnext
      exact .wait_idle hstage hidle
    · exact absurd hnext.symm (Option.some_ne_none _)
  case time_out other =>
    split at hnext
    · next controls hstage =>
      obtain rfl := Option.some.inj hnext
      exact .waits _ _ (.inl ⟨controls, hstage⟩) (.inr rfl)
    · next hstage =>
      obtain rfl := Option.some.inj hnext
      exact .waits _ _ (.inr hstage) (.inr rfl)
    · exact absurd hnext.symm (Option.some_ne_none _)
  case purge other =>
    obtain rfl := Option.some.inj hlabel
    split at hnext
    · next hstage =>
      obtain ⟨registry, hregistry, rfl⟩ := Option.map_eq_some_iff.mp hnext
      exact .purge registry hstage hregistry
    · exact absurd hnext.symm (Option.some_ne_none _)
  all_goals exact absurd hlabel.symm (Option.some_ne_none _)

theorem RemovalEffect.parts {id : Nat} {removal : Removal} {label : ManagerLabel}
    (h : RemovalEffect manager id removal label manager') : Parts manager label manager' := by
  cases h with
  | retire_service => exact ⟨.inl rfl, .inr ⟨.retire removal.host_id, rfl, nofun⟩⟩
  | collect => exact ⟨.inl rfl, .inl rfl⟩
  | cancel job_id controls job_ids now stage registry _ _ hregistry =>
    exact ⟨.inr ⟨_, hregistry, nofun⟩, .inl rfl⟩
  | signal control controls job_ids registry _ hregistry =>
    exact ⟨.inr ⟨_, hregistry, nofun⟩, .inl rfl⟩
  | waits => exact ⟨.inl rfl, .inl rfl⟩
  | wait_idle => exact ⟨.inl rfl, .inl rfl⟩
  | purge registry _ hregistry => exact ⟨.inr ⟨_, hregistry, nofun⟩, .inl rfl⟩

theorem parts_of_next {label : ManagerLabel}
    (hnext : manager_machine.next manager label = some manager') : Parts manager label manager' := by
  rcases manager_next_cases hnext with ⟨hlabel, -, -⟩ | ⟨_, _, _, _, _, hregistry, rfl⟩ |
    ⟨id, removal, hlabel, _, hremoval⟩
  · change manager.next label = some manager' at hnext
    cases label <;> dsimp only [TransferManager.next, ManagerLabel.task, ManagerLabel.removal] at hnext
    case transfer step =>
      obtain ⟨hcall, hnext⟩ := Option.ite_none_right_eq_some.mp hnext
      obtain ⟨registry, hregistry, rfl⟩ := Option.map_eq_some_iff.mp hnext
      refine ⟨.inr ⟨step, hregistry, ?_⟩, .inl rfl⟩
      rintro host_id rfl
      exact absurd hcall Bool.false_ne_true
    case execute_begin task job_id now =>
      obtain ⟨_, hnext⟩ := Option.ite_none_left_eq_some.mp hnext
      obtain ⟨registry, hregistry, rfl⟩ := Option.map_eq_some_iff.mp hnext
      split
      · exact ⟨.inr ⟨_, hregistry, nofun⟩, .inl rfl⟩
      · exact ⟨.inr ⟨_, hregistry, nofun⟩, .inl rfl⟩
    case begin_operation id host_id =>
      obtain rfl := Option.some.inj hnext
      exact ⟨.inl rfl, .inr ⟨.begin (.operation id) host_id, rfl, nofun⟩⟩
    case end_operation id host_id =>
      obtain ⟨service, hservice, rfl⟩ := Option.map_eq_some_iff.mp hnext
      exact ⟨.inl rfl, .inr ⟨_, hservice, nofun⟩⟩
    case restore_host host_id =>
      obtain ⟨registry, hregistry, rfl⟩ := Option.map_eq_some_iff.mp hnext
      refine ⟨.inr ⟨_, hregistry, ?_⟩, .inl rfl⟩
      intro other hother
      exact congrArg ManagerLabel.restore_host (Label.restore_host.inj hother)
    case restore_service host_id =>
      obtain ⟨_, hnext⟩ := Option.ite_none_right_eq_some.mp hnext
      obtain rfl := Option.some.inj hnext
      refine ⟨.inl rfl, .inr ⟨.restore host_id, rfl, ?_⟩⟩
      intro other hother
      exact congrArg ManagerLabel.restore_service (HostOperation.Label.restore.inj hother)
    case begin_lease id =>
      obtain ⟨task, _, hnext⟩ := Option.bind_eq_some_iff.mp hnext
      obtain ⟨_, hnext⟩ := Option.ite_none_right_eq_some.mp hnext
      obtain rfl := Option.some.inj hnext
      exact ⟨.inl rfl, .inr ⟨.begin (.task id) task.host_id, rfl, nofun⟩⟩
    case end_lease id =>
      obtain ⟨task, _, hnext⟩ := Option.bind_eq_some_iff.mp hnext
      obtain ⟨_, hnext⟩ := Option.ite_none_right_eq_some.mp hnext
      obtain ⟨service, hservice, rfl⟩ := Option.map_eq_some_iff.mp hnext
      exact ⟨.inl rfl, .inr ⟨_, hservice, nofun⟩⟩
    case execute_end id result now =>
      obtain ⟨task, _, hnext⟩ := Option.bind_eq_some_iff.mp hnext
      obtain ⟨_, hnext⟩ := Option.ite_none_right_eq_some.mp hnext
      obtain ⟨registry, hregistry, rfl⟩ := Option.map_eq_some_iff.mp hnext
      exact ⟨.inr ⟨_, hregistry, nofun⟩, .inl rfl⟩
    case mark_finished id =>
      obtain ⟨task, _, hnext⟩ := Option.bind_eq_some_iff.mp hnext
      obtain ⟨_, hnext⟩ := Option.ite_none_right_eq_some.mp hnext
      obtain rfl := Option.some.inj hnext
      exact ⟨.inl rfl, .inl rfl⟩
    case remove_host id host_id =>
      obtain ⟨_, hnext⟩ := Option.ite_none_left_eq_some.mp hnext
      obtain ⟨registry, hregistry, rfl⟩ := Option.map_eq_some_iff.mp hnext
      exact ⟨.inr ⟨_, hregistry, nofun⟩, .inl rfl⟩
    all_goals exact absurd hlabel (Option.some_ne_none _)
  · exact ⟨.inr ⟨_, hregistry, nofun⟩, .inl rfl⟩
  · exact (removal_effect hlabel hremoval).parts

/-! ### The invariant -/

/-- The jobs that a removal still cancels. -/
def RemovalStage.job_ids : RemovalStage → List Text
  | .cancelling _ job_ids | .signalling _ _ job_ids => job_ids
  | _ => []

/-- The control that a removal signals next. -/
def RemovalStage.signals : RemovalStage → Option Nat
  | .signalling control _ _ => some control
  | _ => none

structure ManagerInv (manager : TransferManager) : Prop where
  reachable : transfers.Reachable manager.registry
  service : BarrierInv manager.service
  owner : ∀ job_id entry, manager.registry.entry job_id = some entry →
    entry.host.id = entry.job.host_id
  jobs : ∀ id removal, manager.removals id = some removal → ∀ job_id ∈ removal.stage.job_ids,
    JobOf manager.registry removal.host_id job_id
  control : ∀ id removal control, manager.removals id = some removal →
    removal.stage.signals = some control → ControlOf manager.registry removal.host_id control

theorem managerInv_new : ManagerInv .new where
  reachable := .init rfl
  service := barrierInv_empty
  owner _ _ h := absurd h.symm (Option.some_ne_none _)
  jobs _ _ h := absurd h.symm (Option.some_ne_none _)
  control _ _ _ h := absurd h.symm (Option.some_ne_none _)

theorem removals_set {id other : Nat} {removal found : Removal} {stage : RemovalStage}
    (h : (manager.set_removal id removal stage).removals other = some found) :
    other = id ∧ found = { removal with stage := stage } ∨
      other ≠ id ∧ manager.removals other = some found := by
  change Function.update manager.removals id _ other = _ at h
  by_cases hid : other = id
  · subst hid
    rw [Function.update_self, Option.some.injEq] at h
    exact .inl ⟨rfl, h.symm⟩
  · rw [Function.update_of_ne hid] at h
    exact .inr ⟨hid, h⟩

/-- The jobs and the controls of a stage are of the host. -/
structure StageOf (registry : TransferRegistry) (host_id : Text) (stage : RemovalStage) : Prop where
  jobs : ∀ job_id ∈ stage.job_ids, JobOf registry host_id job_id
  control : ∀ control, stage.signals = some control → ControlOf registry host_id control

theorem StageOf.step {stage : RemovalStage} (h : StageOf registry host_id stage)
    (hnext : registry.next label = some registry') : StageOf registry' host_id stage :=
  ⟨fun job_id hjob => (h.jobs job_id hjob).step hnext,
    fun control hcontrol => (h.control control hcontrol).step hnext⟩

theorem ManagerInv.stage_of {id : Nat} {removal : Removal} (h : ManagerInv manager)
    (hremoval : manager.removals id = some removal) :
    StageOf manager.registry removal.host_id removal.stage :=
  ⟨h.jobs id removal hremoval, fun control => h.control id removal control hremoval⟩

/-- What a removal goes on to is of its host. -/
theorem RemovalEffect.stage_of {id : Nat} {removal : Removal} {label : ManagerLabel}
    (heffect : RemovalEffect manager id removal label manager') (h : ManagerInv manager)
    (hremoval : manager.removals id = some removal) :
    ∃ stage, manager'.removals = Function.update manager.removals id
        (some { removal with stage := stage }) ∧
      StageOf manager'.registry removal.host_id stage := by
  have hof := h.stage_of hremoval
  cases heffect with
  | retire_service => exact ⟨_, rfl, nofun, nofun⟩
  | collect =>
    refine ⟨_, rfl, ?_, nofun⟩
    intro job_id hjob
    -- the identifiers are those of jobs that are registered now
    obtain ⟨pair, hpair, rfl⟩ := List.mem_map.mp hjob
    obtain ⟨item, hitem, rfl⟩ := List.mem_map.mp hpair
    obtain ⟨hitem, hhost⟩ := List.mem_filter.mp hitem
    have hentry : manager.registry.entry item.1 = some item.2 := AList.mem_lookup_iff.mpr hitem
    refine ⟨(reachable_registryInv h.reachable).entry_used item.1 item.2 hentry, ?_⟩
    intro entry hfound
    change manager.registry.entry item.1 = some entry at hfound
    rw [hentry, Option.some.injEq] at hfound
    rw [← hfound]
    exact of_decide_eq_true hhost
  | cancel job_id controls job_ids now stage registry hstage hgoes hregistry =>
    have hold : StageOf manager.registry removal.host_id (.cancelling controls job_ids) := by
      refine ⟨?_, nofun⟩
      intro other hother
      apply hof.jobs
      rw [hstage]
      exact List.mem_cons_of_mem _ hother
    rcases hgoes with rfl | ⟨entry, hentry, rfl⟩
    · exact ⟨_, rfl, hold.step hregistry⟩
    · have hjob : JobOf manager.registry removal.host_id job_id := by
        apply hof.jobs
        rw [hstage]
        exact List.mem_cons_self
      have hnew : StageOf manager.registry removal.host_id
          (.signalling entry.control controls job_ids) := by
        refine ⟨hold.jobs, ?_⟩
        intro control hcontrol
        obtain rfl := Option.some.inj hcontrol
        have hinv := reachable_registryInv h.reachable
        refine ⟨hinv.control_made job_id entry hentry, ?_⟩
        intro other found hfound hsame
        have hid := hinv.control_owner other job_id found entry hfound hentry hsame
        rw [hid, hentry, Option.some.injEq] at hfound
        rw [← hfound]
        exact hjob.2 entry hentry
      exact ⟨_, rfl, hnew.step hregistry⟩
  | signal control controls job_ids registry hstage hregistry =>
    have hold : StageOf manager.registry removal.host_id (.cancelling controls job_ids) := by
      refine ⟨?_, nofun⟩
      rw [hstage] at hof
      exact hof.jobs
    exact ⟨_, rfl, hold.step hregistry⟩
  | waits _ stage _ hstage =>
    refine ⟨stage, rfl, ?_⟩
    rcases hstage with rfl | rfl <;> exact ⟨nofun, nofun⟩
  | wait_idle => exact ⟨_, rfl, nofun, nofun⟩
  | purge => exact ⟨_, rfl, nofun, nofun⟩

theorem managerInv_step {label : ManagerLabel} (h : ManagerInv manager)
    (hnext : manager_machine.next manager label = some manager') : ManagerInv manager' := by
  obtain ⟨hregistry, hservice⟩ := parts_of_next hnext
  have hkept : ∀ {host_id stage}, StageOf manager.registry host_id stage →
      StageOf manager'.registry host_id stage := by
    intro host_id stage hof
    rcases hregistry with hsame | ⟨step, hstep, _⟩
    · rw [hsame]
      exact hof
    · exact hof.step hstep
  have hstages : ∀ id removal, manager'.removals id = some removal →
      StageOf manager'.registry removal.host_id removal.stage := by
    intro id removal hremoval
    rcases manager_next_cases hnext with ⟨_, _, hsame⟩ | ⟨other, host_id, registry, _, _, _, rfl⟩ |
      ⟨other, found, hlabel, hfound, heffect⟩
    · rw [hsame] at hremoval
      exact hkept (h.stage_of hremoval)
    · rcases removals_set hremoval with ⟨_, rfl⟩ | ⟨_, hold⟩
      · exact ⟨nofun, nofun⟩
      · exact hkept (h.stage_of hold)
    · obtain ⟨stage, hremovals, hof⟩ := (removal_effect hlabel heffect).stage_of h hfound
      rw [hremovals] at hremoval
      by_cases hid : id = other
      · rw [hid, Function.update_self, Option.some.injEq] at hremoval
        subst hremoval
        exact hof
      · rw [Function.update_of_ne hid] at hremoval
        exact hkept (h.stage_of hremoval)
  refine ⟨?_, ?_, ?_, fun id removal hremoval => (hstages id removal hremoval).jobs,
    fun id removal control hremoval => (hstages id removal hremoval).control control⟩
  · rcases hregistry with hsame | ⟨step, hstep, _⟩
    · rw [hsame]
      exact h.reachable
    · exact h.reachable.step trivial hstep
  · rcases hservice with hsame | ⟨step, hstep, _⟩
    · rw [hsame]
      exact h.service
    · exact h.service.step hstep
  · intro job_id entry hentry
    rcases hregistry with hsame | ⟨step, hstep, _⟩
    · rw [hsame] at hentry
      exact h.owner job_id entry hentry
    · rcases next_origin hstep hentry with ⟨old, hold, hhost, hprofile, _⟩ | ⟨_, _, howner, _⟩
      · rcases hprofile with hsame | howner
        · rw [hsame, hhost]
          exact h.owner job_id old hold
        · exact howner
      · exact howner

theorem reachable_managerInv {ok : TransferManager → ManagerLabel → Prop}
    (h : manager_machine.ReachableWhen ok manager) : ManagerInv manager := by
  apply h.invariant
  · intro _ hinit
    rw [hinit]
    exact managerInv_new
  · intro _ _ _ hinv _ hnext
    exact managerInv_step hinv hnext

/-! ### A host that is being removed -/

/-- What the stages of a removal guarantee. -/
structure StageKeeps (manager : TransferManager) (host_id : Text) (stage : RemovalStage) : Prop where
  retired : stage ≠ .retired → manager.service.retired host_id = true
  unheld : stage = .idle ∨ stage = .removed → manager.service.unheld host_id
  jobs : stage = .removed → ∀ job_id entry, manager.registry.entry job_id = some entry →
    entry.job.host_id ≠ host_id

structure Retiring (manager : TransferManager) (id : Nat) (host_id : Text) : Prop where
  refused : host_id ∈ manager.registry.retired_hosts
  removal : ∃ removal, manager.removals id = some removal ∧ removal.host_id = host_id ∧
    StageKeeps manager host_id removal.stage

theorem retired_of_parts {label : ManagerLabel} (hparts : Parts manager label manager')
    (hspares : Spares host_id manager label) (h : host_id ∈ manager.registry.retired_hosts) :
    host_id ∈ manager'.registry.retired_hosts := by
  rcases hparts.registry with hsame | ⟨step, hstep, hrestores⟩
  · rw [hsame]
    exact h
  · exact next_retired hstep (fun hrestore => hspares.1 (hrestores host_id hrestore)) h

/-- A step that is no restoration keeps what a stage guarantees. -/
theorem StageKeeps.step {label : ManagerLabel} {stage : RemovalStage}
    (h : StageKeeps manager host_id stage) (hparts : Parts manager label manager')
    (hspares : Spares host_id manager label)
    (hrefused : host_id ∈ manager.registry.retired_hosts) : StageKeeps manager' host_id stage := by
  refine ⟨?_, ?_, ?_⟩
  · intro hstage
    rcases hparts.service with hsame | ⟨step, hstep, hrestores⟩
    · rw [hsame]
      exact h.retired hstage
    · apply retired_step hstep _ (h.retired hstage)
      exact fun hrestore => hspares.2 (hrestores host_id hrestore)
  · intro hstage
    have hclosed : stage ≠ .retired := by
      rintro rfl
      rcases hstage with hstage | hstage <;> exact absurd hstage RemovalStage.noConfusion
    rcases hparts.service with hsame | ⟨step, hstep, _⟩
    · rw [hsame]
      exact h.unheld hstage
    · exact unheld_step hstep (h.retired hclosed) (h.unheld hstage)
  · intro hstage job_id entry hentry
    rcases hparts.registry with hsame | ⟨step, hstep, _⟩
    · rw [hsame] at hentry
      exact h.jobs hstage job_id entry hentry
    · rcases next_origin hstep hentry with ⟨old, hold, hhost, _⟩ | ⟨_, _, _, hadmitted⟩
      · rw [hhost]
        exact h.jobs hstage job_id old hold
      · intro hhost
        rw [hhost] at hadmitted
        exact hadmitted hrefused

/-- The step of a removal guarantees what its next stage says. -/
theorem RemovalEffect.keeps {id : Nat} {removal : Removal} {label : ManagerLabel}
    (heffect : RemovalEffect manager id removal label manager')
    (hkeeps : StageKeeps manager' removal.host_id removal.stage)
    (hservice : BarrierInv manager'.service) :
    ∃ stage, manager'.removals id = some { removal with stage := stage } ∧
      StageKeeps manager' removal.host_id stage := by
  cases heffect with
  | retire_service =>
    refine ⟨_, Function.update_self .., ?_, ?_, nofun⟩
    · intro _
      show ((manager.service.retire removal.host_id).state removal.host_id).retired = true
      rw [retire_state, if_pos rfl]
    · rintro (hstage | hstage) <;> exact absurd hstage RemovalStage.noConfusion
  | collect hstage =>
    refine ⟨_, Function.update_self .., ?_, ?_, nofun⟩
    · intro _
      apply hkeeps.retired
      rw [hstage]
      exact RemovalStage.noConfusion
    · rintro (hstage | hstage) <;> exact absurd hstage RemovalStage.noConfusion
  | cancel _ _ _ _ stage _ hstage hgoes =>
    refine ⟨_, Function.update_self .., ?_, ?_, ?_⟩
    · intro _
      apply hkeeps.retired
      rw [hstage]
      exact RemovalStage.noConfusion
    · rcases hgoes with rfl | ⟨_, _, rfl⟩ <;>
        rintro (hstage | hstage) <;> exact absurd hstage RemovalStage.noConfusion
    · rcases hgoes with rfl | ⟨_, _, rfl⟩ <;>
        intro hstage <;> exact absurd hstage RemovalStage.noConfusion
  | signal _ _ _ _ hstage =>
    refine ⟨_, Function.update_self .., ?_, ?_, nofun⟩
    · intro _
      apply hkeeps.retired
      rw [hstage]
      exact RemovalStage.noConfusion
    · rintro (hstage | hstage) <;> exact absurd hstage RemovalStage.noConfusion
  | waits _ stage hwaits hstage =>
    have hclosed : removal.stage ≠ .retired := by
      rcases hwaits with ⟨_, hwaits⟩ | hwaits <;> rw [hwaits] <;> exact RemovalStage.noConfusion
    refine ⟨stage, Function.update_self .., fun _ => hkeeps.retired hclosed, ?_, ?_⟩
    · rcases hstage with rfl | rfl <;>
        rintro (hstage | hstage) <;> exact absurd hstage RemovalStage.noConfusion
    · rcases hstage with rfl | rfl <;>
        intro hstage <;> exact absurd hstage RemovalStage.noConfusion
  | wait_idle hstage hidle =>
    refine ⟨_, Function.update_self .., ?_, fun _ => hservice.unheld_of_idle hidle, nofun⟩
    intro _
    apply hkeeps.retired
    rw [hstage]
    exact RemovalStage.noConfusion
  | purge registry hstage hregistry =>
    refine ⟨_, Function.update_self .., ?_, fun _ => hkeeps.unheld (.inl hstage), ?_⟩
    · intro _
      apply hkeeps.retired
      rw [hstage]
      exact RemovalStage.noConfusion
    · intro _ job_id entry hentry
      obtain rfl := Option.some.inj hregistry
      exact ((purge_entry manager.registry removal.host_id job_id entry).mp hentry).2

theorem Retiring.step {id : Nat} {label : ManagerLabel} (h : Retiring manager id host_id)
    (hinv : ManagerInv manager) (hspares : Spares host_id manager label)
    (hnext : manager_machine.next manager label = some manager') : Retiring manager' id host_id := by
  have hparts := parts_of_next hnext
  obtain ⟨removal, hremoval, hhost, hstage⟩ := h.removal
  have hkeeps := hstage.step hparts hspares h.refused
  refine ⟨retired_of_parts hparts hspares h.refused, ?_⟩
  rcases manager_next_cases hnext with ⟨_, _, hsame⟩ | ⟨other, _, registry, _, hfree, _, rfl⟩ |
    ⟨other, found, hlabel, hfound, heffect⟩
  · exact ⟨removal, hsame ▸ hremoval, hhost, hkeeps⟩
  · have hid : id ≠ other := by
      rintro rfl
      rw [hfree] at hremoval
      exact absurd hremoval.symm (Option.some_ne_none _)
    exact ⟨removal, (Function.update_of_ne hid ..).trans hremoval, hhost, hkeeps⟩
  · have heffect := removal_effect hlabel heffect
    by_cases hid : id = other
    · subst hid
      rw [hremoval, Option.some.injEq] at hfound
      subst hfound hhost
      obtain ⟨stage, hstage', hkeeps'⟩ :=
        heffect.keeps hkeeps (managerInv_step hinv hnext).service
      exact ⟨_, hstage', rfl, hkeeps'⟩
    · obtain ⟨stage, hremovals, _⟩ := heffect.stage_of hinv hfound
      refine ⟨removal, ?_, hhost, hkeeps⟩
      rw [hremovals, Function.update_of_ne hid]
      exact hremoval

/-! ### Other hosts -/

/-- The step belongs to the removal or to the restoration of the host. -/
def TransferManager.retires (manager : TransferManager) (host_id : Text) (label : ManagerLabel) : Prop :=
  (∃ id, label = .remove_host id host_id) ∨ label = .restore_host host_id ∨
    label = .restore_service host_id ∨
    ∃ id removal, label.removal = some id ∧ manager.removals id = some removal ∧
      removal.host_id = host_id

/-- A step leaves the jobs, the leases and the admission of a host alone. -/
structure Unaffected (manager manager' : TransferManager) (host_id : Text) : Prop where
  jobs : ∀ job_id entry, entry.job.host_id = host_id →
    (manager'.registry.entry job_id = some entry ↔ manager.registry.entry job_id = some entry)
  signals : ∀ job_id entry, manager.registry.entry job_id = some entry →
    entry.job.host_id = host_id →
    (entry.control ∈ manager'.registry.cancelled ↔ entry.control ∈ manager.registry.cancelled)
  admitted : host_id ∈ manager'.registry.retired_hosts ↔ host_id ∈ manager.registry.retired_hosts
  service : manager'.service.state host_id = manager.service.state host_id
  leases : ∀ lease, lease.2 = host_id →
    (lease ∈ manager'.service.leases ↔ lease ∈ manager.service.leases)
  tasks : manager'.tasks = manager.tasks

/-- The registry changes nothing but which hosts are retired. -/
theorem unaffected_of_admission {other : Text} (hentries : manager'.registry.entries = manager.registry.entries)
    (hcancelled : manager'.registry.cancelled = manager.registry.cancelled)
    (hadmitted : other ∈ manager'.registry.retired_hosts ↔ other ∈ manager.registry.retired_hosts)
    (hservice : manager'.service = manager.service) (htasks : manager'.tasks = manager.tasks) :
    Unaffected manager manager' other where
  jobs job_id entry _ := by
    unfold TransferRegistry.entry
    rw [hentries]
  signals job_id entry _ _ := by rw [hcancelled]
  admitted := hadmitted
  service := by rw [hservice]
  leases lease _ := by rw [hservice]
  tasks := htasks

/-- The service takes a step that names another host. -/
theorem unaffected_of_service {other : Text} (step : HostOperation.Label Holder)
    (hregistry : manager'.registry = manager.registry)
    (hservice : manager.service.next step = some manager'.service) (hother : other ≠ step.host)
    (htasks : manager'.tasks = manager.tasks) : Unaffected manager manager' other := by
  obtain ⟨hstate, hleases⟩ := others_step hservice hother
  refine ⟨?_, ?_, ?_, hstate, hleases, htasks⟩
  · intro job_id entry _
    rw [hregistry]
  · intro job_id entry _ _
    rw [hregistry]
  · rw [hregistry]

/-- The cancellation of a job writes that job only. -/
theorem cancel_entry {now : Timestamp} {other : Text} (hother : other ≠ job_id) :
    (cancel registry job_id now).1.entry other = registry.entry other := by
  unfold cancel
  split
  · rfl
  · split
    · split
      · rfl
      · exact (entry_set registry job_id other _).trans (if_neg hother)
    · rfl

theorem cancel_keeps (registry : TransferRegistry) (job_id : Text) (now : Timestamp) :
    (cancel registry job_id now).1.cancelled = registry.cancelled ∧
      (cancel registry job_id now).1.retired_hosts = registry.retired_hosts := by
  unfold cancel
  split
  · exact ⟨rfl, rfl⟩
  · split
    · split <;> exact ⟨rfl, rfl⟩
    · exact ⟨rfl, rfl⟩

theorem RemovalEffect.unaffected {id : Nat} {removal : Removal} {label : ManagerLabel}
    (heffect : RemovalEffect manager id removal label manager') (h : ManagerInv manager)
    (hremoval : manager.removals id = some removal) {other : Text} (hother : other ≠ removal.host_id) :
    Unaffected manager manager' other := by
  have hof := h.stage_of hremoval
  cases heffect with
  | retire_service =>
    exact unaffected_of_service (.retire removal.host_id) rfl rfl hother rfl
  | collect => exact unaffected_of_admission rfl rfl Iff.rfl rfl rfl
  | waits => exact unaffected_of_admission rfl rfl Iff.rfl rfl rfl
  | wait_idle => exact unaffected_of_admission rfl rfl Iff.rfl rfl rfl
  | cancel job_id controls job_ids now stage registry hstage _ hregistry =>
    have hjob : JobOf manager.registry removal.host_id job_id := by
      apply hof.jobs
      rw [hstage]
      exact List.mem_cons_self
    have hafter : JobOf registry removal.host_id job_id := hjob.step hregistry
    obtain rfl := Option.some.inj hregistry
    obtain ⟨hcancelled, hretired⟩ := cancel_keeps manager.registry job_id now
    refine ⟨?_, ?_, ?_, rfl, fun _ _ => Iff.rfl, rfl⟩
    · intro found entry hhost
      show (Sftp.cancel manager.registry job_id now).1.entry found = some entry ↔ _
      by_cases hfound : found = job_id
      · -- the job that is cancelled is of the other host, before and after
        subst hfound
        constructor
        · intro hentry
          exact absurd (hhost.symm.trans (hafter.2 entry hentry)) hother
        · intro hentry
          exact absurd (hhost.symm.trans (hjob.2 entry hentry)) hother
      · rw [cancel_entry hfound]
    · intro found entry _ _
      show _ ∈ (Sftp.cancel manager.registry job_id now).1.cancelled ↔ _
      rw [hcancelled]
    · show _ ∈ (Sftp.cancel manager.registry job_id now).1.retired_hosts ↔ _
      rw [hretired]
  | signal control controls job_ids registry hstage hregistry =>
    have hcontrol : ControlOf manager.registry removal.host_id control := by
      apply hof.control
      rw [hstage]
      rfl
    obtain ⟨_, hregistry⟩ := Option.ite_none_right_eq_some.mp hregistry
    obtain rfl := Option.some.inj hregistry
    refine ⟨fun _ _ _ => Iff.rfl, ?_, Iff.rfl, rfl, fun _ _ => Iff.rfl, rfl⟩
    intro job_id entry hentry hhost
    show _ ∈ insert control manager.registry.cancelled ↔ _
    rw [Finset.mem_insert]
    constructor
    · rintro (hsame | hcancelled)
      · exact absurd (hhost.symm.trans (hcontrol.2 job_id entry hentry hsame)) hother
      · exact hcancelled
    · exact .inr
  | purge registry hstage hregistry =>
    obtain rfl := Option.some.inj hregistry
    refine ⟨?_, fun _ _ _ _ => Iff.rfl, Iff.rfl, rfl, fun _ _ => Iff.rfl, rfl⟩
    intro job_id entry hhost
    have hkept : entry.job.host_id ≠ removal.host_id := hhost ▸ hother
    exact (purge_entry manager.registry removal.host_id job_id entry).trans
      ⟨fun hentry => hentry.1, fun hentry => ⟨hentry, hkept⟩⟩

/-- A removal and a restoration leave every other host alone. -/
theorem ManagerInv.unaffected {label : ManagerLabel} (h : ManagerInv manager)
    (hnext : manager_machine.next manager label = some manager')
    (hretires : manager.retires host_id label) {other : Text} (hother : other ≠ host_id) :
    Unaffected manager manager' other := by
  rcases hretires with ⟨id, rfl⟩ | rfl | rfl | ⟨id, removal, hlabel, hremoval, rfl⟩
  · obtain ⟨_, hnext⟩ := Option.ite_none_left_eq_some.mp hnext
    obtain ⟨registry, hregistry, rfl⟩ := Option.map_eq_some_iff.mp hnext
    obtain rfl := Option.some.inj hregistry
    refine unaffected_of_admission rfl rfl ?_ rfl rfl
    show other ∈ insert host_id manager.registry.retired_hosts ↔ _
    rw [Finset.mem_insert]
    exact or_iff_right hother
  · have hmap : (manager.registry.next (.restore_host host_id)).map (fun registry =>
        { manager with registry := registry, restoring := host_id :: manager.restoring }) =
        some manager' := hnext
    obtain ⟨registry, hregistry, rfl⟩ := Option.map_eq_some_iff.mp hmap
    obtain rfl := Option.some.inj hregistry
    refine unaffected_of_admission rfl rfl ?_ rfl rfl
    show other ∈ manager.registry.retired_hosts.erase host_id ↔ _
    rw [Finset.mem_erase]
    exact and_iff_right hother
  · obtain ⟨_, hnext⟩ := Option.ite_none_right_eq_some.mp hnext
    obtain rfl := Option.some.inj hnext
    exact unaffected_of_service (.restore host_id) rfl rfl hother rfl
  · rcases manager_next_cases hnext with ⟨hnone, _, _⟩ | ⟨_, _, _, rfl, _⟩ |
      ⟨found, removal', hfound, hremoval', heffect⟩
    · rw [hlabel] at hnone
      exact absurd hnone (Option.some_ne_none _)
    · exact absurd hlabel.symm (Option.some_ne_none _)
    · rw [hlabel, Option.some.injEq] at hfound
      subst hfound
      rw [hremoval, Option.some.injEq] at hremoval'
      subst hremoval'
      exact (removal_effect hlabel heffect).unaffected h hremoval hother

/-! ### The barrier -/

/-- The host has neither a job nor a lease. -/
structure TransferManager.Free (manager : TransferManager) (host_id : Text) : Prop where
  jobs : ∀ job_id entry, manager.registry.entry job_id = some entry →
    entry.job.host_id ≠ host_id ∧ entry.host.id ≠ host_id
  leases : manager.service.unheld host_id

theorem retiring_begins {id : Nat}
    (hnext : manager_machine.next manager (.remove_host id host_id) = some manager') :
    Retiring manager' id host_id := by
  obtain ⟨_, hnext⟩ := Option.ite_none_left_eq_some.mp hnext
  obtain ⟨registry, hregistry, rfl⟩ := Option.map_eq_some_iff.mp hnext
  obtain rfl := Option.some.inj hregistry
  refine ⟨Finset.mem_insert_self _ _, _, Function.update_self .., rfl, ?_, ?_, nofun⟩
  · intro hclosed
    exact absurd rfl hclosed
  · rintro (hstage | hstage) <;> exact absurd hstage RemovalStage.noConfusion

/-- A removal keeps what it guarantees until its host is restored. -/
theorem Retiring.run {id : Nat} (hreach : manager_machine.Reachable manager)
    (h : Retiring manager id host_id)
    (hrun : manager_machine.StepsWhen (Spares host_id) manager manager') :
    Retiring manager' id host_id := by
  apply hrun.preserves_reachable (fun _ _ _ => trivial) _ hreach h
  intro manager label manager' hreach h hspares hnext
  exact h.step (reachable_managerInv hreach) hspares hnext

/-- The removal has returned `Ok`. -/
def Removed (manager : TransferManager) (id : Nat) : Prop :=
  ∃ removal, manager.removals id = some removal ∧ removal.stage = .removed

theorem removed_by_purge {id : Nat} (hnext : manager_machine.next manager (.purge id) = some manager') :
    Removed manager' id := by
  obtain ⟨removal, hremoval, hnext⟩ := Option.bind_eq_some_iff.mp hnext
  have heffect := removal_effect rfl hnext
  cases heffect with
  | purge => exact ⟨_, Function.update_self .., rfl⟩
  | waits _ stage hwaits =>
    -- only the purge leaves a removal that is idle
    dsimp only [TransferManager.removal_next] at hnext
    rcases hwaits with ⟨_, hwaits⟩ | hwaits <;> rw [hwaits] at hnext <;>
      exact absurd hnext.symm (Option.some_ne_none _)

theorem Removed.step {id : Nat} {label : ManagerLabel} (h : Removed manager id)
    (hnext : manager_machine.next manager label = some manager') : Removed manager' id := by
  obtain ⟨removal, hremoval, hstage⟩ := h
  rcases manager_next_cases hnext with ⟨_, _, hsame⟩ | ⟨other, _, registry, _, hfree, _, rfl⟩ |
    ⟨other, found, hlabel, hfound, heffect⟩
  · exact ⟨removal, hsame ▸ hremoval, hstage⟩
  · have hid : id ≠ other := by
      rintro rfl
      rw [hfree] at hremoval
      exact absurd hremoval.symm (Option.some_ne_none _)
    exact ⟨removal, (Function.update_of_ne hid ..).trans hremoval, hstage⟩
  · by_cases hid : id = other
    · subst hid
      rw [hremoval, Option.some.injEq] at hfound
      subst hfound
      cases removal_effect hlabel heffect with
      | retire_service h => exact absurd (hstage.symm.trans h) RemovalStage.noConfusion
      | collect h => exact absurd (hstage.symm.trans h) RemovalStage.noConfusion
      | cancel _ _ _ _ _ _ h => exact absurd (hstage.symm.trans h) RemovalStage.noConfusion
      | signal _ _ _ _ h => exact absurd (hstage.symm.trans h) RemovalStage.noConfusion
      | waits _ _ h =>
        rcases h with ⟨_, h⟩ | h <;> exact absurd (hstage.symm.trans h) RemovalStage.noConfusion
      | wait_idle h => exact absurd (hstage.symm.trans h) RemovalStage.noConfusion
      | purge _ h => exact absurd (hstage.symm.trans h) RemovalStage.noConfusion
    · refine ⟨removal, ?_, hstage⟩
      have hkept : manager'.removals id = manager.removals id := by
        cases removal_effect hlabel heffect <;> exact Function.update_of_ne hid ..
      exact hkept.trans hremoval

theorem removed_is_free {id : Nat} (hinv : ManagerInv manager) (h : Retiring manager id host_id)
    (hremoved : Removed manager id) : manager.Free host_id := by
  obtain ⟨removal, hremoval, hstage⟩ := hremoved
  obtain ⟨found, hfound, _, hkeeps⟩ := h.removal
  rw [hremoval, Option.some.injEq] at hfound
  subst hfound
  refine ⟨?_, hkeeps.unheld (.inr hstage)⟩
  intro job_id entry hentry
  have hjob := hkeeps.jobs hstage job_id entry hentry
  rw [hinv.owner job_id entry hentry]
  exact ⟨hjob, hjob⟩

/-- **Retirement barrier**: once `remove_host` has returned `Ok`, its host
    has neither a job nor a lease until it is restored, and the same holds of
    the leases of a barrier that was retired and then waited for.  The steps
    of a removal and of a restoration leave every other host alone. -/
theorem retirement_barrier (h : manager_machine.Reachable manager) :
    (∀ id host_id begun waited removed after,
      manager_machine.next manager (.remove_host id host_id) = some begun →
      manager_machine.StepsWhen (Spares host_id) begun waited →
      manager_machine.next waited (.purge id) = some removed →
      manager_machine.StepsWhen (Spares host_id) removed after → after.Free host_id) ∧
      (∀ (Owner : Type) [DecidableEq Owner] (barrier retiring waiting idle after : Barrier Owner) host_id,
        (barrier_machine Owner).Reachable barrier →
        (barrier_machine Owner).next barrier (.retire host_id) = some retiring →
        (barrier_machine Owner).StepsWhen (fun _ label => label ≠ .restore host_id) retiring waiting →
        (barrier_machine Owner).next waiting (.wait_idle host_id) = some idle →
        (barrier_machine Owner).StepsWhen (fun _ label => label ≠ .restore host_id) idle after →
        after.unheld host_id) ∧
      ∀ label manager' host_id, manager_machine.next manager label = some manager' →
        manager.retires host_id label → ∀ other, other ≠ host_id → Unaffected manager manager' other := by
  refine ⟨?_, ?_, ?_⟩
  · intro id host_id begun waited removed after hbegin hrun hpurge hafter
    have hbegun : manager_machine.Reachable begun := h.step trivial hbegin
    have hwaited : Retiring waited id host_id := (retiring_begins hbegin).run hbegun hrun
    have hreach : manager_machine.Reachable waited :=
      (hrun.mono fun _ _ _ => trivial).reachable hbegun
    have hspares : Spares host_id waited (.purge id) :=
      ⟨ManagerLabel.noConfusion, ManagerLabel.noConfusion⟩
    have hremoved : manager_machine.Reachable removed := hreach.step trivial hpurge
    have hretiring : Retiring after id host_id :=
      (hwaited.step (reachable_managerInv hreach) hspares hpurge).run hremoved hafter
    have hstays : Removed after id := by
      apply hafter.preserves _ (removed_by_purge hpurge)
      intro _ _ _ h _ hnext
      exact h.step hnext
    have hreach' : manager_machine.Reachable after :=
      (hafter.mono fun _ _ _ => trivial).reachable hremoved
    exact removed_is_free (reachable_managerInv hreach') hretiring hstays
  · intro Owner _ barrier retiring waiting idle after host_id hreach hretire hrun hidle hafter
    exact retired_idle_unheld hreach hretire hrun hidle hafter
  · intro label manager' host_id hnext hretires other hother
    exact (reachable_managerInv h).unaffected hnext hretires hother

/-! ### A host that is removed while it transfers -/

def spares (host_id : Text) (_ : TransferManager) (label : ManagerLabel) : Bool :=
  match label with
  | .restore_host other | .restore_service other => other ≠ host_id
  | _ => true

theorem spares_sound (host_id : Text) (manager : TransferManager) (label : ManagerLabel)
    (h : spares host_id manager label = true) : Spares host_id manager label := by
  constructor
  · rintro rfl
    exact absurd rfl (of_decide_eq_true h)
  · rintro rfl
    exact absurd rfl (of_decide_eq_true h)

/-- An upload runs under its lease. -/
def uploading : List ManagerLabel :=
  [.transfer (.start first_id 0 (.ok plain_host) (.ok ()) upload_request),
    .execute_begin 1 first_id 1, .begin_lease 1]

/-- The removal cancels it and waits. -/
def removing : List ManagerLabel :=
  [.retire_service 1, .collect 1, .cancel_next 1 2, .signal_next 1, .end_lease 1,
    .execute_end 1 (.error .Cancelled) 3, .mark_finished 1, .wait_finished 1, .wait_idle 1]

/-- Later attempts to use the host. -/
def knocking : List ManagerLabel :=
  [.transfer (.start "next".toList 4 (.ok plain_host) (.ok ()) upload_request),
    .begin_operation 2 plain_host.id]

theorem removed_while_uploading :
    ∃ manager begun waited removed after, manager_machine.Reachable manager ∧
      manager.registry.attempts ≠ [] ∧ ¬ manager.service.unheld plain_host.id ∧
      manager_machine.next manager (.remove_host 1 plain_host.id) = some begun ∧
      manager_machine.StepsWhen (Spares plain_host.id) begun waited ∧
      manager_machine.next waited (.purge 1) = some removed ∧
      manager_machine.StepsWhen (Spares plain_host.id) removed after ∧ after.Free plain_host.id := by
  have hrun : ((manager_machine.replay (fun _ _ => true) .new uploading).bind fun manager =>
      if manager.registry.attempts ≠ [] ∧ manager.service.held plain_host.id ≠ 0 then
        (manager_machine.next manager (.remove_host 1 plain_host.id)).bind fun begun =>
          (manager_machine.replay (spares plain_host.id) begun removing).bind fun waited =>
            (manager_machine.next waited (.purge 1)).bind fun removed =>
              manager_machine.replay (spares plain_host.id) removed knocking
      else none).isSome = true := by decide +kernel
  obtain ⟨after, hrun⟩ := Option.isSome_iff_exists.mp hrun
  obtain ⟨manager, hreplay, hrun⟩ := Option.bind_eq_some_iff.mp hrun
  obtain ⟨⟨hattempts, hheld⟩, hrun⟩ := Option.ite_none_right_eq_some.mp hrun
  obtain ⟨begun, hbegin, hrun⟩ := Option.bind_eq_some_iff.mp hrun
  obtain ⟨waited, hwaited, hrun⟩ := Option.bind_eq_some_iff.mp hrun
  obtain ⟨removed, hpurge, hafter⟩ := Option.bind_eq_some_iff.mp hrun
  have hreach : manager_machine.Reachable manager :=
    (Machine.replay_steps (fun _ _ _ => trivial) hreplay).reachable (.init rfl)
  have hwaited := Machine.replay_steps (spares_sound plain_host.id) hwaited
  have hafter := Machine.replay_steps (spares_sound plain_host.id) hafter
  exact ⟨manager, begun, waited, removed, after, hreach, hattempts,
    fun hunheld => hheld (unheld_iff.mp hunheld), hbegin, hwaited, hpurge, hafter,
    (retirement_barrier hreach).1 1 plain_host.id begun waited removed after hbegin hwaited hpurge
      hafter⟩

end Sftp
