import RemoteDeck.Store.Invariant

/-! # Crash recovery of the repository file

    `write_state`, `atomic_replace` and `AppRepository::open` of `store.rs`
    over a disk with the primary file and its backup.  A write is a sequence
    of steps, each of which leaves the disk unchanged or changes it by one
    atomic rename; the process may stop between any two of them, and a step
    may fail.  On Windows `ReplaceFileW` is two renames: it may fail, and the
    process may stop, after the first one, when the primary has the backup's
    name and the replacement is not yet in place.

    Temporaries are never read back, so the disk does not hold them.

    Two ghost fields say what a reader may expect: the last committed state
    and the state being written.
-/

namespace Store

/-! ### Files -/

def MAX_STATE_BYTES : Nat := 16 * 1024 * 1024

/-- Serialization of the persisted state to the contents of a file, and the
    size of such contents. -/
structure Codec (Bytes : Type) where
  encode : PersistedState → Bytes
  decode : Bytes → AppResult PersistedState
  len : Bytes → Nat
  decode_encode : ∀ state, decode (encode state) = .ok state

/-- The two files that `open` reads. -/
structure Disk (Bytes : Type) where
  primary : Option Bytes
  backup : Option Bytes

def state_too_large : AppError :=
  .State ("persisted state exceeds the ".toList ++ MAX_STATE_BYTES.text ++
    "-byte safety limit".toList)

section Files

variable {Bytes : Type} (codec : Codec Bytes)

def read_valid_state (file : Option Bytes) : AppResult PersistedState := do
  let bytes ← file.ok_or (.Io "file not found".toList)
  if codec.len bytes > MAX_STATE_BYTES then .error state_too_large
  else do
    let parsed ← codec.decode bytes
    validate_persisted_state parsed
    .ok parsed

end Files

/-- The repaired hosts, and whether one of them changed. -/
def clear_inactive_identity_files (hosts : List HostProfile) : List HostProfile × Bool :=
  (hosts.map fun host =>
      if host.auth_method ≠ .PrivateKey then { host with identity_file := none } else host,
    hosts.any fun host => host.auth_method ≠ .PrivateKey && host.identity_file.isSome)

/-- A state that `open` takes as it is.  Every state that the repository
    writes is one (`clean_of_consistent`). -/
structure CleanState where
  state : PersistedState
  clean : (clear_inactive_identity_files state.hosts).2 = false

theorem clean_of_consistent {state : PersistedState} (h : Consistent state) :
    (clear_inactive_identity_files state.hosts).2 = false := by
  simp only [clear_inactive_identity_files, List.any_eq_false]
  intro host hmem
  have := h.identity_files host hmem
  cases hid : host.identity_file <;> simp_all

/-- The state of a reachable repository. -/
def Repository.clean_state {repo : Repository} (h : repository.Reachable repo) : CleanState where
  state := repo.state
  clean := clean_of_consistent (reachable_invariant h).consistent

/-! ### Processes -/

inductive Platform where
  | unix
  | windows
  deriving DecidableEq, Repr

/-- Where a `write_state` stands. -/
inductive WritePc where
  /-- Validated; the temporary is not yet complete. -/
  | begun
  /-- The temporary is written and synced. -/
  | synced
  /-- Unix: the primary is copied to a second temporary. -/
  | copied
  /-- Unix: the copy has the backup's name. -/
  | backed_up
  /-- Windows: the primary has the backup's name. -/
  | moved
  /-- The temporary has the primary's name. -/
  | replaced
  deriving DecidableEq, Repr

/-- Who called `write_state`. -/
inductive Caller where
  /-- `open`, with the initial or the recovered state. -/
  | opening
  /-- `open`, with the repaired state. -/
  | repairing
  /-- A mutation of the repository that holds `memory`. -/
  | mutation (memory : PersistedState)

inductive Process where
  | stopped
  | writing (target : PersistedState) (caller : Caller) (pc : WritePc)
  | running (memory : PersistedState)

structure FileState (Bytes : Type) where
  disk : Disk Bytes
  process : Process
  /-- The state of the last `write_state` that succeeded, or that `open`
      accepted. -/
  committed : Option PersistedState
  /-- The state being written, now or when the process stopped. -/
  pending : Option PersistedState

inductive FileLabel where
  /-- The process starts and opens the repository. -/
  | reopen
  /-- A mutation writes a new state. -/
  | write (target : CleanState)
  /-- The next step of the write succeeds. -/
  | advance
  /-- The next step of the write fails. -/
  | fail
  /-- The process stops. -/
  | stop

section Steps

variable {Bytes : Type} (platform : Platform) (codec : Codec Bytes)

/-- Enter `write_state`; an invalid state is refused at once. -/
def FileState.write_state (s : FileState Bytes) (target : PersistedState) (caller : Caller)
    (refused : Process) : FileState Bytes :=
  match validate_persisted_state target with
  | .ok () => { s with process := .writing target caller .begun, pending := some target }
  | .error _ => { s with process := refused }

/-- The end of `open`, once a state has been chosen and is on disk. -/
def FileState.accept (s : FileState Bytes) (chosen : PersistedState) : FileState Bytes :=
  let s := { s with committed := some chosen, pending := none }
  let (hosts, changed) := clear_inactive_identity_files chosen.hosts
  if changed then s.write_state { chosen with hosts := hosts } .repairing .stopped
  else { s with process := .running chosen }

/-- `AppRepository::open` up to its first write. -/
def FileState.open_repository (s : FileState Bytes) : FileState Bytes :=
  if s.disk.primary.isSome then
    match read_valid_state codec s.disk.primary with
    | .ok parsed => s.accept parsed
    | .error _ =>
        match read_valid_state codec s.disk.backup with
        | .ok recovered => s.write_state recovered .opening .stopped
        | .error _ => s
  else s.write_state .default .opening .stopped

/-- `write_state` returns `Ok`. -/
def FileState.succeed (s : FileState Bytes) (target : PersistedState) : Caller → FileState Bytes
  | .opening => s.accept target
  | .repairing | .mutation _ =>
      { s with process := .running target, committed := some target, pending := none }

/-- `write_state` returns `Err`. -/
def FileState.give_up (s : FileState Bytes) : Caller → FileState Bytes
  | .opening | .repairing => { s with process := .stopped, pending := none }
  | .mutation memory => { s with process := .running memory, pending := none }

/-- The temporary is renamed to the primary. -/
def FileState.replace (s : FileState Bytes) (target : PersistedState) (caller : Caller) :
    FileState Bytes :=
  { s with
    disk := { s.disk with primary := some (codec.encode target) }
    process := .writing target caller .replaced }

/-- The next step of a write, when it succeeds. -/
def FileState.advance (s : FileState Bytes) (target : PersistedState) (caller : Caller) :
    WritePc → Option (FileState Bytes)
  | .begun =>
      if codec.len (codec.encode target) ≤ MAX_STATE_BYTES then
        some { s with process := .writing target caller .synced }
      else none
  | .synced =>
      -- only a valid primary is worth a backup
      match platform, (read_valid_state codec s.disk.primary).isOk with
      | .unix, true => some { s with process := .writing target caller .copied }
      | .windows, true =>
          some { s with
                 disk := { primary := none, backup := s.disk.primary }
                 process := .writing target caller .moved }
      | _, false => some (s.replace codec target caller)
  | .copied =>
      some { s with
             disk := { s.disk with backup := s.disk.primary }
             process := .writing target caller .backed_up }
  | .backed_up | .moved => some (s.replace codec target caller)
  | .replaced => some (s.succeed target caller)

/-- One step.  After the last rename only Unix has a step left that can
    fail, the sync of the directory. -/
def FileState.next (s : FileState Bytes) : FileLabel → Option (FileState Bytes)
  | .reopen =>
      match s.process with
      | .stopped => some (s.open_repository codec)
      | _ => none
  | .write target =>
      match s.process with
      | .running memory => some (s.write_state target.state (.mutation memory) (.running memory))
      | _ => none
  | .advance =>
      match s.process with
      | .writing target caller pc => s.advance platform codec target caller pc
      | _ => none
  | .fail =>
      match s.process with
      | .writing _ caller pc =>
          if pc = .replaced ∧ platform = .windows then none else some (s.give_up caller)
      | _ => none
  | .stop => some { s with process := .stopped }

/-- The repository file, from an empty directory on. -/
def repository_file : Machine (FileState Bytes) FileLabel where
  init := fun s => s = { disk := ⟨none, none⟩, process := .stopped, committed := none, pending := none }
  next := fun s l => s.next platform codec l

end Steps

/-! ### What is on disk -/

variable {Bytes : Type} {platform : Platform} {codec : Codec Bytes}

/-- A state that can be written and that `open` takes as it is. -/
structure Storable (codec : Codec Bytes) (state : PersistedState) : Prop where
  valid : validate_persisted_state state = .ok ()
  small : codec.len (codec.encode state) ≤ MAX_STATE_BYTES
  clean : (clear_inactive_identity_files state.hosts).2 = false

theorem Storable.read {state : PersistedState} (h : Storable codec state) :
    read_valid_state codec (some (codec.encode state)) = .ok state := by
  simp [read_valid_state, Option.ok_or, h.small, codec.decode_encode, h.valid]

/-- The last committed state is the primary, or the primary is missing and
    it is the backup. -/
def DiskKeeps (codec : Codec Bytes) (disk : Disk Bytes) : Option PersistedState → Prop
  | none => disk.primary = none
  | some state => Storable codec state ∧
      (disk.primary = some (codec.encode state) ∨
        disk.primary = none ∧ disk.backup = some (codec.encode state))

/-- A file that can be read is there. -/
theorem readable_isSome {file : Option Bytes} (h : (read_valid_state codec file).isOk = true) :
    file.isSome := by
  cases file with
  | none => exact absurd h (by simp [read_valid_state, Option.ok_or, bind, Except.bind,
      Except.isOk, Except.toBool])
  | some _ => rfl

theorem DiskKeeps.moved {disk : Disk Bytes} {committed : Option PersistedState}
    (h : DiskKeeps codec disk committed) (hsome : disk.primary.isSome) :
    DiskKeeps codec ⟨none, disk.primary⟩ committed := by
  cases committed with
  | none => rfl
  | some state =>
    obtain ⟨hstorable, hprimary | ⟨hnone, _⟩⟩ := h
    · exact ⟨hstorable, .inr ⟨rfl, hprimary⟩⟩
    · simp [hnone] at hsome

theorem DiskKeeps.backed_up {disk : Disk Bytes} {committed : Option PersistedState}
    (h : DiskKeeps codec disk committed) (hsome : disk.primary.isSome) :
    DiskKeeps codec { disk with backup := disk.primary } committed := by
  cases committed with
  | none => exact h
  | some state =>
    obtain ⟨hstorable, hprimary | ⟨hnone, _⟩⟩ := h
    · exact ⟨hstorable, .inl hprimary⟩
    · simp [hnone] at hsome

/-- How the disk, the process and the ghost fields fit together. -/
def FileInv (codec : Codec Bytes) (s : FileState Bytes) : Prop :=
  match s.process with
  | .stopped => DiskKeeps codec s.disk s.committed ∨
      ∃ target, s.pending = some target ∧ Storable codec target ∧
        s.disk.primary = some (codec.encode target)
  | .running memory => s.committed = some memory ∧ DiskKeeps codec s.disk s.committed
  | .writing target caller pc =>
      s.pending = some target ∧
      validate_persisted_state target = .ok () ∧
      (clear_inactive_identity_files target.hosts).2 = false ∧
      (∀ memory, caller = .mutation memory → s.committed = some memory) ∧
      (pc ≠ .begun → Storable codec target) ∧
      (pc = .copied → s.disk.primary.isSome) ∧
      if pc = .replaced then s.disk.primary = some (codec.encode target)
      else DiskKeeps codec s.disk s.committed

/-- The repository is reopened with the primary on disk, or before anything
    was committed; and no write fails after it has replaced the primary. -/
def PrimaryPresent (s : FileState Bytes) : FileLabel → Prop
  | .reopen => s.disk.primary.isSome ∨ s.committed = none
  | .fail => ∀ target caller, s.process ≠ .writing target caller .replaced
  | .write _ | .advance | .stop => True

theorem default_storable_clean :
    validate_persisted_state .default = .ok () ∧
      (clear_inactive_identity_files PersistedState.default.hosts).2 = false := by
  decide

/-- A primary that is on disk is the committed or the pending state. -/
theorem FileInv.primary {s : FileState Bytes} (h : FileInv codec s) (hstopped : s.process = .stopped)
    (hsome : s.disk.primary.isSome) :
    ∃ state, Storable codec state ∧ s.disk.primary = some (codec.encode state) ∧
      (s.committed = some state ∨ s.pending = some state) := by
  simp only [FileInv, hstopped] at h
  rcases h with h | ⟨target, hpending, hstorable, hprimary⟩
  · cases hc : s.committed with
    | none => simp [DiskKeeps, hc] at h; simp [h] at hsome
    | some state =>
      rw [hc] at h
      obtain ⟨hstorable, hprimary | ⟨hnone, _⟩⟩ := h
      · exact ⟨state, hstorable, hprimary, .inl rfl⟩
      · simp [hnone] at hsome
  · exact ⟨target, hstorable, hprimary, .inr hpending⟩

/-- Accepting a clean state ends `open` with it. -/
theorem accept_clean {s : FileState Bytes} {state : PersistedState}
    (h : (clear_inactive_identity_files state.hosts).2 = false) :
    s.accept state =
      { s with process := .running state, committed := some state, pending := none } := by
  simp [FileState.accept, h]

/-- What `open` does with a primary on disk, and without one. -/
theorem open_repository_of_primary {s : FileState Bytes} {state : PersistedState}
    (hstorable : Storable codec state) (hprimary : s.disk.primary = some (codec.encode state)) :
    s.open_repository codec =
      { s with process := .running state, committed := some state, pending := none } := by
  simp [FileState.open_repository, hprimary, hstorable.read, accept_clean hstorable.clean]

theorem open_repository_of_missing {s : FileState Bytes} (hprimary : s.disk.primary = none) :
    s.open_repository codec =
      { s with process := .writing .default .opening .begun, pending := some .default } := by
  simp [FileState.open_repository, hprimary, FileState.write_state, default_storable_clean.1]

/-- The contents that the last rename leaves. -/
theorem fileInv_replace {s : FileState Bytes} {target : PersistedState} {caller : Caller}
    (hpending : s.pending = some target) (hstorable : Storable codec target)
    (hcaller : ∀ memory, caller = .mutation memory → s.committed = some memory) :
    FileInv codec (s.replace codec target caller) :=
  ⟨hpending, hstorable.valid, hstorable.clean, hcaller, fun _ => hstorable, by simp,
    by simp [FileState.replace]⟩

theorem fileInv_advance {s s' : FileState Bytes} {target : PersistedState} {caller : Caller}
    {pc : WritePc} (hprocess : s.process = .writing target caller pc) (h : FileInv codec s)
    (hstep : s.advance platform codec target caller pc = some s') : FileInv codec s' := by
  simp only [FileInv, hprocess] at h
  obtain ⟨hpending, hvalid, hclean, hcaller, hstorable, hcopied, hdisk⟩ := h
  cases pc with
  | begun =>
    simp only [FileState.advance, Option.ite_none_right_eq_some, Option.some.injEq] at hstep
    obtain ⟨hsmall, rfl⟩ := hstep
    exact ⟨hpending, hvalid, hclean, hcaller, fun _ => ⟨hvalid, hsmall, hclean⟩, by simp,
      by simpa using hdisk⟩
  | synced =>
    replace hstorable := hstorable (by simp)
    rw [if_neg (by simp)] at hdisk
    simp only [FileState.advance] at hstep
    split at hstep <;> obtain rfl := Option.some.inj hstep
    case h_1 hread =>
      exact ⟨hpending, hvalid, hclean, hcaller, fun _ => hstorable, fun _ => readable_isSome hread,
        by simpa using hdisk⟩
    case h_2 hread =>
      exact ⟨hpending, hvalid, hclean, hcaller, fun _ => hstorable, by simp,
        by simpa using hdisk.moved (readable_isSome hread)⟩
    case h_3 => exact fileInv_replace hpending hstorable hcaller
  | copied =>
    obtain rfl := Option.some.inj hstep
    rw [if_neg (by simp)] at hdisk
    exact ⟨hpending, hvalid, hclean, hcaller, fun _ => hstorable (by simp), by simp,
      by simpa using hdisk.backed_up (hcopied rfl)⟩
  | backed_up =>
    obtain rfl := Option.some.inj hstep
    exact fileInv_replace hpending (hstorable (by simp)) hcaller
  | moved =>
    obtain rfl := Option.some.inj hstep
    exact fileInv_replace hpending (hstorable (by simp)) hcaller
  | replaced =>
    obtain rfl := Option.some.inj hstep
    replace hstorable := hstorable (by simp)
    have hprimary : s.disk.primary = some (codec.encode target) := by simpa using hdisk
    cases caller with
    | opening =>
      rw [FileState.succeed, accept_clean hclean]
      exact ⟨rfl, hstorable, .inl hprimary⟩
    | repairing => exact ⟨rfl, hstorable, .inl hprimary⟩
    | mutation memory => exact ⟨rfl, hstorable, .inl hprimary⟩

theorem fileInv_step {s s' : FileState Bytes} {l : FileLabel} (h : FileInv codec s)
    (hok : PrimaryPresent s l) (hstep : s.next platform codec l = some s') : FileInv codec s' := by
  match l with
  | .reopen =>
    simp only [FileState.next] at hstep
    split at hstep
    case h_2 => simp at hstep
    case h_1 hstopped =>
      obtain rfl := Option.some.inj hstep
      by_cases hsome : s.disk.primary.isSome
      · obtain ⟨state, hstorable, hprimary, _⟩ := h.primary hstopped hsome
        rw [open_repository_of_primary hstorable hprimary]
        exact ⟨rfl, hstorable, .inl hprimary⟩
      · have hnone : s.disk.primary = none := by simpa using hsome
        have hc := Or.resolve_left hok hsome
        rw [open_repository_of_missing hnone]
        obtain ⟨hvalid, hclean⟩ := default_storable_clean
        exact ⟨rfl, hvalid, hclean, by simp, by simp, by simp,
          by simpa [hc, DiskKeeps] using hnone⟩
  | .write target =>
    simp only [FileState.next] at hstep
    split at hstep
    case h_2 => simp at hstep
    case h_1 memory hrunning =>
      obtain rfl := Option.some.inj hstep
      simp only [FileInv, hrunning] at h
      unfold FileState.write_state
      split
      case h_1 hvalid =>
        exact ⟨rfl, hvalid, target.clean, by simpa using h.1, by simp, by simp,
          by simpa using h.2⟩
      case h_2 => exact h
  | .advance =>
    simp only [FileState.next] at hstep
    split at hstep
    case h_1 hprocess => exact fileInv_advance hprocess h hstep
    case h_2 => simp at hstep
  | .fail =>
    simp only [FileState.next] at hstep
    split at hstep
    case h_2 => simp at hstep
    case h_1 target caller pc hprocess =>
      simp only [Option.ite_none_left_eq_some, Option.some.injEq] at hstep
      obtain ⟨_, rfl⟩ := hstep
      have hpc : pc ≠ .replaced := fun hpc => hok target caller (hpc ▸ hprocess)
      simp only [FileInv, hprocess, if_neg hpc] at h
      obtain ⟨_, _, _, hcaller, _, _, hdisk⟩ := h
      cases caller with
      | opening => exact .inl hdisk
      | repairing => exact .inl hdisk
      | mutation memory => exact ⟨hcaller memory rfl, hdisk⟩
  | .stop =>
    obtain rfl := Option.some.inj hstep
    cases hprocess : s.process with
    | stopped => simpa [FileInv, hprocess] using h
    | running memory =>
      simp only [FileInv, hprocess] at h
      exact .inl h.2
    | writing target caller pc =>
      simp only [FileInv, hprocess] at h
      obtain ⟨hpending, _, _, _, hstorable, _, hdisk⟩ := h
      by_cases hpc : pc = .replaced
      · rw [if_pos hpc] at hdisk
        exact .inr ⟨target, hpending, hstorable (by simp [hpc]), hdisk⟩
      · rw [if_neg hpc] at hdisk
        exact .inl hdisk

theorem fileInv_init : FileInv codec
    { disk := ⟨none, none⟩, process := .stopped, committed := none, pending := none } :=
  .inl rfl

theorem reachable_fileInv {s : FileState Bytes}
    (h : (repository_file platform codec).ReachableWhen PrimaryPresent s) : FileInv codec s := by
  refine h.invariant ?_ ?_
  · rintro s rfl
    exact fileInv_init
  · intro s l s' hinv hok hstep
    exact fileInv_step hinv hok hstep

/-! ### Recovery -/

/-- The state that `open` returns, or is writing before it returns it. -/
def FileState.opened (s : FileState Bytes) : Option PersistedState :=
  match s.process with
  | .stopped => none
  | .writing target _ _ => some target
  | .running memory => some memory

/-- **Crash recovery**: in every run that reopens the repository only with
    the primary on disk or before anything was committed, and in which no
    write fails after it replaced the primary, a running process holds the
    last committed state, and reopening yields the last committed state or
    the state that was being written; the initial state only if nothing was
    committed. -/
theorem reopen_recovers {s : FileState Bytes}
    (h : (repository_file platform codec).ReachableWhen PrimaryPresent s) :
    (∀ memory, s.process = .running memory → s.committed = some memory) ∧
      ∀ s', PrimaryPresent s .reopen → s.next platform codec .reopen = some s' →
        ∃ state, s'.opened = some state ∧
          (s.committed = some state ∨ s.pending = some state ∨
            s.committed = none ∧ state = .default) := by
  have hinv := reachable_fileInv h
  refine ⟨fun memory hrunning => ?_, fun s' hok hreopen => ?_⟩
  · simp only [FileInv, hrunning] at hinv
    exact hinv.1
  · simp only [FileState.next] at hreopen
    split at hreopen
    case h_2 => simp at hreopen
    case h_1 hstopped =>
      obtain rfl := Option.some.inj hreopen
      by_cases hsome : s.disk.primary.isSome
      · obtain ⟨state, hstorable, hprimary, hstate⟩ := hinv.primary hstopped hsome
        rw [open_repository_of_primary hstorable hprimary]
        exact ⟨state, rfl, hstate.imp_right .inl⟩
      · rw [open_repository_of_missing (by simpa using hsome)]
        exact ⟨.default, rfl, .inr (.inr ⟨Or.resolve_left hok hsome, rfl⟩)⟩

/-! ### Two crashes of one write -/

/-- File contents that are the serialization of a state, or of no state. -/
def transparent_codec : Codec (Option PersistedState) where
  encode := some
  decode := fun contents => contents.ok_or (.Json "expected value at line 1 column 1".toList)
  len := fun _ => 512
  decode_encode := fun _ => rfl

/-- The default state with another font size. -/
def with_font_size (size : Nat) : CleanState where
  state := { PersistedState.default with
             settings := { AppSettings.default with terminal_font_size := size } }
  clean := rfl

/-- Open an empty directory, commit one state and start to write another, up
    to the first rename of `ReplaceFileW`. -/
def second_commit_moved : List FileLabel :=
  [.reopen, .advance, .advance, .advance,
   .write (with_font_size 10), .advance, .advance, .advance, .advance,
   .write (with_font_size 20), .advance, .advance]

/-- `PrimaryPresent` for traces without failures. -/
def primary_present (s : FileState Bytes) : FileLabel → Bool
  | .reopen => s.disk.primary.isSome || s.committed.isNone
  | .fail => false
  | .write _ | .advance | .stop => true

theorem primary_present_sound (s : FileState Bytes) (l : FileLabel)
    (h : primary_present s l = true) : PrimaryPresent s l := by
  cases l with
  | reopen => simpa [primary_present, PrimaryPresent] using h
  | fail => simp [primary_present] at h
  | write target => trivial
  | advance => trivial
  | stop => trivial

/-- The process stops just after the second rename: the repository reopens
    with one of the two states. -/
theorem crash_after_replace_recovers :
    ∃ s s' : FileState (Option PersistedState),
      s.next .windows transparent_codec .reopen = some s' ∧
        s.committed = some (with_font_size 10).state ∧
        s.pending = some (with_font_size 20).state ∧
          ∃ state, s'.opened = some state ∧
            (state = (with_font_size 10).state ∨ state = (with_font_size 20).state) := by
  obtain ⟨s, hreach, hp⟩ := Machine.reachable_of_replay
    (m := repository_file .windows transparent_codec) primary_present primary_present_sound rfl
    (second_commit_moved ++ [.advance, .stop])
    (fun s => decide (s.committed = some (with_font_size 10).state ∧
      s.pending = some (with_font_size 20).state) && s.disk.primary.isSome &&
      (s.next .windows transparent_codec .reopen).isSome)
    (by decide)
  simp only [Bool.and_eq_true, decide_eq_true_eq] at hp
  obtain ⟨⟨⟨hcommitted, hpending⟩, hprimary⟩, hsome⟩ := hp
  obtain ⟨s', hreopen⟩ := Option.isSome_iff_exists.mp hsome
  obtain ⟨state, hopened, hstate⟩ := (reopen_recovers hreach).2 s' (.inl hprimary) hreopen
  refine ⟨s, s', hreopen, hcommitted, hpending, state, hopened, ?_⟩
  simpa [hcommitted, hpending, eq_comm] using hstate

/-- The second rename of `ReplaceFileW` fails: the last committed state is
    on disk as the backup, and the repository reopens with the initial
    state. -/
theorem reopen_ignores_backup :
    ∃ s s' : FileState (Option PersistedState),
      (repository_file .windows transparent_codec).Reachable s ∧
        s.next .windows transparent_codec .reopen = some s' ∧
        s.committed = some (with_font_size 10).state ∧ s.pending = none ∧
        read_valid_state transparent_codec s.disk.backup = .ok (with_font_size 10).state ∧
        s'.opened = some .default := by
  obtain ⟨s, hreach, hp⟩ := Machine.reachable_of_replay
    (m := repository_file .windows transparent_codec) (fun _ _ => true) (fun _ _ _ => trivial) rfl
    (second_commit_moved ++ [.fail, .stop])
    (fun s : FileState (Option PersistedState) =>
      decide (s.committed = some (with_font_size 10).state ∧ s.pending = none ∧
      read_valid_state transparent_codec s.disk.backup = .ok (with_font_size 10).state) &&
      (s.next .windows transparent_codec .reopen).any fun s' : FileState _ =>
        decide (s'.opened = some PersistedState.default))
    (by decide)
  simp only [Bool.and_eq_true, decide_eq_true_eq] at hp
  obtain ⟨⟨hcommitted, hpending, hbackup⟩, hany⟩ := hp
  obtain ⟨s', hreopen, hopened⟩ := (Option.any_eq_true _ _).mp hany
  exact ⟨s, s', hreach, hreopen, hcommitted, hpending, hbackup, of_decide_eq_true hopened⟩

end Store
