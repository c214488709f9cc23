import RemoteDeck.Store.JumpFrame
import RemoteDeck.Store.Recovery

/-! # What the repository loads

    `open` accepts what `validate_persisted_state` accepts, and clears
    identity files that no authentication method uses.  The validator repeats
    the checks of the drafts and those across records, but for two: it does
    not check the settings, and it does not look where a `proxy_jump` leads.
    Nor does it ask of an id that it be the text of an identifier.

    What `open` returns keeps the invariant of the repository exactly if the
    content of the file makes up for these (`Writable`).
-/

namespace Store

/-! ### Opening -/

/-- The host with the identity file that its authentication method uses. -/
def repair (host : HostProfile) : HostProfile :=
  if host.auth_method ≠ .PrivateKey then { host with identity_file := none } else host

/-- The state that `open` makes of a valid content. -/
def repaired (parsed : PersistedState) : PersistedState :=
  { parsed with hosts := (clear_inactive_identity_files parsed.hosts).1 }

theorem repaired_hosts (parsed : PersistedState) :
    (repaired parsed).hosts = parsed.hosts.map repair := rfl

@[simp] theorem repair_id (host : HostProfile) : (repair host).id = host.id := by
  unfold repair
  split <;> rfl

@[simp] theorem repair_proxy_jump (host : HostProfile) :
    (repair host).proxy_jump = host.proxy_jump := by
  unfold repair
  split <;> rfl

/-- Where nothing is cleared, nothing changes. -/
theorem repaired_eq {parsed : PersistedState}
    (h : (clear_inactive_identity_files parsed.hosts).2 = false) : repaired parsed = parsed := by
  have hsame : parsed.hosts.map repair = parsed.hosts := by
    refine List.map_congr_left (fun host hmem => ?_) |>.trans (List.map_id _)
    have hclean := List.any_eq_false.mp h host hmem
    show repair host = host
    unfold repair
    split
    case isTrue hauth =>
      have hnone : host.identity_file = none := by simpa [hauth] using hclean
      cases host
      simp_all
    case isFalse => rfl
  show { parsed with hosts := parsed.hosts.map repair } = parsed
  rw [hsame]

section Opening

variable {Bytes : Type} {platform : Platform} {codec : Codec Bytes}

/-- `open` accepts the content of the primary, or that of the backup when
    the primary is there and cannot be read. -/
def Accepts (codec : Codec Bytes) (disk : Disk Bytes) (parsed : PersistedState) : Prop :=
  read_valid_state codec disk.primary = .ok parsed ∨
    disk.primary.isSome ∧ (∃ error, read_valid_state codec disk.primary = .error error) ∧
      read_valid_state codec disk.backup = .ok parsed

theorem read_valid_state_valid {file : Option Bytes} {parsed : PersistedState}
    (h : read_valid_state codec file = .ok parsed) : validate_persisted_state parsed = .ok () := by
  simp only [read_valid_state, Outcome.bind_eq_ok, Outcome.ite_error_eq_ok, Except.ok.injEq] at h
  obtain ⟨_, _, _, decoded, _, _, hvalid, rfl⟩ := h
  exact hvalid

theorem Accepts.valid {disk : Disk Bytes} {parsed : PersistedState}
    (h : Accepts codec disk parsed) : validate_persisted_state parsed = .ok () := by
  rcases h with hprimary | ⟨_, _, hbackup⟩
  · exact read_valid_state_valid hprimary
  · exact read_valid_state_valid hbackup

/-- The steps that `open` takes before it returns. -/
def OpeningStep (_ : FileState Bytes) : FileLabel → Prop
  | .advance | .fail | .stop => True
  | .reopen | .write _ => False

/-- Where `open` stands that accepted `parsed`. -/
def Opening (parsed : PersistedState) (s : FileState Bytes) : Prop :=
  match s.process with
  | .stopped => True
  | .writing target .opening _ => target = parsed
  | .writing target .repairing _ =>
      target = repaired parsed ∧ validate_persisted_state target = .ok ()
  | .writing _ (.mutation _) _ => False
  | .running memory => memory = repaired parsed ∧ validate_persisted_state memory = .ok ()

theorem opening_accept {s : FileState Bytes} {parsed : PersistedState}
    (hvalid : validate_persisted_state parsed = .ok ()) : Opening parsed (s.accept parsed) := by
  by_cases hchanged : (clear_inactive_identity_files parsed.hosts).2 = true
  · have haccept : s.accept parsed = ({ s with committed := some parsed, pending := none } :
        FileState Bytes).write_state (repaired parsed) .repairing .stopped := by
      unfold FileState.accept
      simp only [hchanged, if_true]
      rfl
    rw [haccept, FileState.write_state]
    split
    case h_1 hrepaired => exact ⟨rfl, hrepaired⟩
    case h_2 => exact trivial
  · rw [Bool.not_eq_true] at hchanged
    rw [accept_clean hchanged]
    exact ⟨(repaired_eq hchanged).symm, hvalid⟩

theorem opening_open {s : FileState Bytes} {parsed : PersistedState} (h : Accepts codec s.disk parsed) :
    Opening parsed (s.open_repository codec) := by
  unfold FileState.open_repository
  rcases h with hprimary | ⟨hsome, ⟨error, hprimary⟩, hbackup⟩
  · have hok : (read_valid_state codec s.disk.primary).isOk = true := by
      rw [hprimary]
      rfl
    have hsome : s.disk.primary.isSome := readable_isSome hok
    rw [if_pos hsome, hprimary]
    exact opening_accept (read_valid_state_valid hprimary)
  · rw [if_pos hsome, hprimary, hbackup]
    show Opening parsed (s.write_state parsed .opening .stopped)
    rw [FileState.write_state, read_valid_state_valid hbackup]
    exact rfl

theorem opening_advance {s s' : FileState Bytes} {parsed target : PersistedState}
    {caller : Caller} {pc : WritePc} (hvalid : validate_persisted_state parsed = .ok ())
    (hprocess : s.process = .writing target caller pc) (h : Opening parsed s)
    (hstep : s.advance platform codec target caller pc = some s') : Opening parsed s' := by
  -- up to the last step the write goes on with the same target and caller
  have hwriting : ∀ next : FileState Bytes, (∃ pc', next.process = .writing target caller pc') →
      Opening parsed next := by
    intro next hnext
    obtain ⟨pc', hnext⟩ := hnext
    simp only [Opening, hprocess] at h
    simp only [Opening, hnext]
    cases caller <;> exact h
  cases pc with
  | begun =>
    obtain ⟨_, hstate⟩ := Option.ite_none_right_eq_some.mp hstep
    obtain rfl := Option.some.inj hstate
    exact hwriting _ ⟨.synced, rfl⟩
  | synced =>
    simp only [FileState.advance] at hstep
    split at hstep <;> obtain rfl := Option.some.inj hstep
    · exact hwriting _ ⟨.copied, rfl⟩
    · exact hwriting _ ⟨.moved, rfl⟩
    · exact hwriting _ ⟨.replaced, rfl⟩
  | copied =>
    obtain rfl := Option.some.inj hstep
    exact hwriting _ ⟨.backed_up, rfl⟩
  | backed_up =>
    obtain rfl := Option.some.inj hstep
    exact hwriting _ ⟨.replaced, rfl⟩
  | moved =>
    obtain rfl := Option.some.inj hstep
    exact hwriting _ ⟨.replaced, rfl⟩
  | replaced =>
    obtain rfl := Option.some.inj hstep
    simp only [Opening, hprocess] at h
    cases caller with
    | opening =>
      obtain rfl : target = parsed := h
      exact opening_accept hvalid
    | repairing => exact h
    | mutation memory => exact h.elim

theorem opening_step {s s' : FileState Bytes} {l : FileLabel} {parsed : PersistedState}
    (hvalid : validate_persisted_state parsed = .ok ()) (h : Opening parsed s)
    (hok : OpeningStep s l) (hstep : s.next platform codec l = some s') : Opening parsed s' := by
  cases l with
  | reopen => exact hok.elim
  | write target => exact hok.elim
  | advance =>
    simp only [FileState.next] at hstep
    split at hstep
    case h_1 hprocess => exact opening_advance hvalid hprocess h hstep
    case h_2 => cases hstep
  | fail =>
    simp only [FileState.next] at hstep
    split at hstep
    case h_2 => cases hstep
    case h_1 target caller pc hprocess =>
      obtain ⟨_, hstate⟩ := Option.ite_none_left_eq_some.mp hstep
      obtain rfl := Option.some.inj hstate
      simp only [Opening, hprocess] at h
      cases caller with
      | opening => exact trivial
      | repairing => exact trivial
      | mutation memory => exact h.elim
  | stop =>
    obtain rfl := Option.some.inj hstep
    exact trivial

/-- **Run lemma**: when `open` returns, it returns the repaired content, and
    that is valid. -/
theorem open_returns {s opening s' : FileState Bytes} {parsed memory : PersistedState}
    (hstopped : s.process = .stopped) (haccepts : Accepts codec s.disk parsed)
    (hopen : s.next platform codec .reopen = some opening)
    (hsteps : (repository_file platform codec).StepsWhen OpeningStep opening s')
    (hrunning : s'.process = .running memory) :
    memory = repaired parsed ∧ validate_persisted_state memory = .ok () := by
  have hfirst : Opening parsed opening := by
    simp only [FileState.next, hstopped] at hopen
    obtain rfl := Option.some.inj hopen
    exact opening_open haccepts
  have hlast : Opening parsed s' :=
    hsteps.preserves (fun _ _ _ h hok hstep => opening_step haccepts.valid h hok hstep) hfirst
  simpa only [Opening, hrunning] using hlast

end Opening

/-! ### What a file content may lack -/

/-- Every `proxy_jump` is the id of another host, which connects directly. -/
def JumpsDirect (hosts : List HostProfile) : Prop :=
  ∀ host ∈ hosts, ∀ r, host.proxy_jump = some r →
    ∃ jump ∈ hosts, jump.id = r ∧ jump.id ≠ host.id ∧ jump.proxy_jump = none

/-- Every id is the text of an identifier. -/
def IdsUuid (hosts : List HostProfile) : Prop :=
  ∀ host ∈ hosts, ∃ uuid : Uuid, host.id = uuid.to_string

theorem jumps_direct_repaired {parsed : PersistedState} :
    JumpsDirect (repaired parsed).hosts ↔ JumpsDirect parsed.hosts := by
  rw [repaired_hosts]
  unfold JumpsDirect
  simp only [List.mem_map, exists_exists_and_eq_and, forall_exists_index, and_imp,
    forall_apply_eq_imp_iff₂, repair_id, repair_proxy_jump]

theorem ids_uuid_repaired {parsed : PersistedState} :
    IdsUuid (repaired parsed).hosts ↔ IdsUuid parsed.hosts := by
  rw [repaired_hosts]
  unfold IdsUuid
  simp only [List.forall_mem_map, repair_id]

/-- A host with a private key has an identity file, and only such a host. -/
theorem repair_identity {host : HostProfile}
    (hdraft : validate_host_draft (HostDraft.of_profile (repair host)) = .ok ()) :
    (repair host).identity_file.isSome = true ↔ (repair host).auth_method = .PrivateKey := by
  by_cases hauth : host.auth_method = .PrivateKey
  · have hsame : repair host = host := if_neg (not_not_intro hauth)
    rw [hsame] at hdraft ⊢
    simp only [validate_host_draft, Outcome.bind_eq_ok, Outcome.ite_error_eq_ok] at hdraft
    obtain ⟨_, _, _, _, _, _, _, hkey, _⟩ := hdraft
    cases hidentity : host.identity_file with
    | some path => simp [hauth]
    | none => simp [HostDraft.of_profile, hauth, hidentity] at hkey
  · have hcleared : repair host = { host with identity_file := none } := if_pos hauth
    simp [hcleared, hauth]

/-- The invariant of a repository that was just opened. -/
theorem invariant_loaded_iff {parsed : PersistedState}
    (hvalid : validate_persisted_state (repaired parsed) = .ok ()) :
    Invariant ⟨repaired parsed, ∅⟩ ↔
      SettingsInBounds parsed.settings ∧ JumpsDirect parsed.hosts ∧ IdsUuid parsed.hosts := by
  have hvalidated := validate_persisted_state_ok hvalid
  constructor
  · intro h
    refine ⟨h.consistent.settings, jumps_direct_repaired.mp h.consistent.proxy_jumps, ?_⟩
    exact ids_uuid_repaired.mp fun host hmem => (h.sound.hosts host hmem).id_uuid
  · intro h
    obtain ⟨hsettings, hjumps, hids⟩ := h
    refine ⟨hvalidated, ?_, ?_, fun _ _ _ _ _ => Finset.notMem_empty _, hsettings⟩
    · intro host hmem
      refine ⟨ids_uuid_repaired.mpr hids host hmem, ?_⟩
      have hdraft := hvalidated.host_drafts host hmem
      obtain ⟨old, _, rfl⟩ := List.mem_map.mp hmem
      exact repair_identity hdraft
    · intro x host r hfind hjump
      obtain ⟨hmem, rfl⟩ := find_host_some hfind
      obtain ⟨jump, hjumpmem, rfl, hne, hdirect⟩ :=
        jumps_direct_repaired.mpr hjumps host hmem r hjump
      exact ⟨hne, jump, find_host_of_mem hvalidated.hosts_differ hjumpmem, hdirect⟩

theorem consistent_loaded_iff {parsed : PersistedState}
    (hvalid : validate_persisted_state (repaired parsed) = .ok ()) :
    Consistent (repaired parsed) ↔ SettingsInBounds parsed.settings ∧ JumpsDirect parsed.hosts := by
  have hvalidated := validate_persisted_state_ok hvalid
  constructor
  · intro h
    exact ⟨h.settings, jumps_direct_repaired.mp h.proxy_jumps⟩
  · intro h
    exact
      { host_ids := hvalidated.hosts_differ.imp And.left
        aliases := hvalidated.hosts_differ.imp And.right
        tunnel_hosts := hvalidated.tunnel_hosts
        command_hosts := hvalidated.command_hosts
        tunnel_names := hvalidated.tunnels_differ.imp And.right
        command_names := hvalidated.commands_differ.imp And.right
        proxy_jumps := jumps_direct_repaired.mpr h.2
        identity_files := fun host hmem => by
          have hdraft := hvalidated.host_drafts host hmem
          obtain ⟨old, _, rfl⟩ := List.mem_map.mp hmem
          exact repair_identity hdraft
        settings := h.1 }

/-! ### Runs after a reload -/

/-- The invariant holds in every state reached from one in which it holds. -/
theorem Invariant.steps {repo repo' : Repository} (h : Invariant repo)
    (hsteps : repository.StepsWhen (fun _ _ => True) repo repo') : Invariant repo' := by
  refine hsteps.preserves (fun s label s' hinv _ hstep => ?_) h
  obtain rfl := Option.some.inj hstep
  exact hinv.run label.1 label.2

/-- A stopped process, and a primary with the given content. -/
def with_primary (parsed : PersistedState) : FileState (Option PersistedState) where
  disk := ⟨some (some parsed), none⟩
  process := .stopped
  committed := none
  pending := none

/-- `open` accepts the content and returns it. -/
def Loads (content : PersistedState) : Prop :=
  Accepts transparent_codec (with_primary content).disk content ∧
    ∃ s, (with_primary content).next .unix transparent_codec .reopen = some s ∧
      s.process = .running content

theorem loads_of_storable {content : PersistedState} (h : Storable transparent_codec content) :
    Loads content := by
  have hopen := open_repository_of_primary (s := with_primary content) h rfl
  exact ⟨.inl h.read, _, congrArg some hopen, rfl⟩

/-- A host whose jump names no host. -/
def with_lost_jump : PersistedState :=
  { PersistedState.default with
    hosts :=
      [{ schema_version := 2
         id := uuid_text 1
         «alias» := "lab".toList
         hostname := "lab.example".toList
         port := 22
         username := "user".toList
         auth_method := .Interactive
         identity_file := none
         proxy_jump := some "gate".toList
         default_workspace := ['~']
         groups := []
         advanced := .default
         monitor_enabled := true
         created_at := 0
         updated_at := 0 }] }

end Store
