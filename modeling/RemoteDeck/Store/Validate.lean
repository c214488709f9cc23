import RemoteDeck.Model

/-! # Validation of drafts and of the persisted state

    The `validate_*` functions of `store.rs`.  Their order of checks and
    their messages are the source's.  `validate_persisted_state` runs before
    every write, so what it establishes (`Validated`) holds of every state
    that was ever committed.
-/

namespace Store

def MAX_HOSTS : Nat := 512
def MAX_TUNNELS : Nat := 2048
def MAX_COMMAND_PRESETS : Nat := 4096
def MAX_IMPORTED_SOURCE_HASHES : Nat := 4096

/-! ### Drafts -/

/-- The condition of `validate_ssh_atom`. -/
def SshAtom (value : Text) (max_len : Nat) : Prop :=
  value ≠ [] ∧ value.len ≤ max_len ∧ value.head? ≠ some '-' ∧
    ∀ c ∈ value, Text.is_whitespace c = false ∧ Text.is_control c = false

def validate_ssh_atom (label value : Text) (max_len : Nat) : AppResult Unit :=
  if value.isEmpty || value.len > max_len || value.head? = some '-' ||
      value.any Text.is_whitespace || value.any Text.is_control then
    .error (.Validation (label ++ " is invalid".toList))
  else .ok ()

def validate_forward_atom (label value : Text) : AppResult Unit :=
  if value.isEmpty || value.len > 512 || value.head? = some '-' || value.contains ',' ||
      value.any Text.is_whitespace || value.any Text.is_control then
    .error (.Validation (label ++ " is invalid".toList))
  else .ok ()

def validate_host_draft (draft : HostDraft) : AppResult Unit :=
  let host_alias := draft.alias.trim
  if host_alias.isEmpty || host_alias.len > 64 ||
      !host_alias.all (fun c => c.isAlphanum || "_.-".toList.contains c) then
    .error (.Validation
      "alias must use 1-64 ASCII letters, digits, dot, underscore or dash".toList)
  else do
    validate_ssh_atom "hostname".toList draft.hostname.trim 512
    validate_ssh_atom "username".toList draft.username.trim 128
    if draft.port = 0 then
      .error (.Validation "port must be between 1 and 65535".toList)
    else if draft.identity_file.any fun path => path.len > 32767 || path.contains '\x00' then
      .error (.Validation "identity file path is invalid".toList)
    else if draft.auth_method = some .PrivateKey &&
        draft.identity_file.all fun path => path.trim.isEmpty then
      .error (.Validation "private-key authentication requires an identity file".toList)
    else do
      (match draft.proxy_jump with
        | some proxy_jump =>
            if proxy_jump.trim.isEmpty then .ok ()
            else validate_ssh_atom "ProxyJump".toList proxy_jump.trim 1024
        | none => .ok ())
      if draft.default_workspace.any fun path => path.len > 4096 || path.contains '\x00' then
        .error (.Validation "default workspace path is invalid".toList)
      else if draft.groups.length > 32 then
        .error (.Validation "at most 32 groups are allowed".toList)
      else .ok ()

def validate_advanced (options : SshAdvancedOptions) : AppResult Unit :=
  if ¬ (1 ≤ options.connect_timeout_seconds ∧ options.connect_timeout_seconds ≤ 300) then
    .error (.Validation "connect timeout must be between 1 and 300 seconds".toList)
  else if options.server_alive_interval_seconds > 3600 then
    .error (.Validation "server alive interval must be at most 3600 seconds".toList)
  else if ¬ (1 ≤ options.server_alive_count_max ∧ options.server_alive_count_max ≤ 100) then
    .error (.Validation "server alive count must be between 1 and 100".toList)
  else .ok ()

def validate_tunnel_draft (draft : TunnelDraft) : AppResult Unit :=
  let name := draft.name.trim
  if name.isEmpty || name.len > 128 || name.any Text.is_control then
    .error (.Validation "tunnel name is invalid".toList)
  else if draft.source_port = 0 ∨ draft.target_port = 0 then
    .error (.Validation "tunnel ports must be between 1 and 65535".toList)
  else do
    validate_forward_atom "bind address".toList draft.bind_address.trim
    validate_forward_atom "target host".toList draft.target_host.trim
    if draft.health_check.any fun health => health.kind = .Tcp &&
        (!(2 ≤ health.interval_seconds && health.interval_seconds ≤ 3600) ||
          !(1 ≤ health.timeout_seconds && health.timeout_seconds ≤ 60) ||
          health.timeout_seconds ≥ health.interval_seconds) then
      .error (.Validation "tunnel health interval/timeout is invalid".toList)
    else .ok ()

def validate_command_draft (draft : CommandPresetDraft) : AppResult Unit :=
  let name := draft.name.trim
  if name.isEmpty || name.len > 512 || name.any Text.is_control then
    .error (.Validation "command preset name is invalid".toList)
  else if draft.description.len > 2048 || draft.description.contains '\x00' then
    .error (.Validation "command preset description is invalid".toList)
  else if draft.group.len > 128 || draft.group.any Text.is_control then
    .error (.Validation "command preset group is invalid".toList)
  else if draft.command.trim.isEmpty || draft.command.len > 32768 ||
      draft.command.contains '\x00' then
    .error (.Validation "command preset command is invalid".toList)
  else if draft.working_directory.any fun path => path.len > 4096 || path.contains '\x00' then
    .error (.Validation "command working directory is invalid".toList)
  else if draft.confirmation_text.any fun text =>
      text.len > 256 || text.any Text.is_control then
    .error (.Validation "command confirmation text is invalid".toList)
  else .ok ()

theorem validate_ssh_atom_eq_ok {label value : Text} {max_len : Nat} :
    validate_ssh_atom label value max_len = .ok () ↔ SshAtom value max_len := by
  simp only [validate_ssh_atom, Outcome.ite_error_eq_ok, SshAtom, and_true]
  simp only [Bool.or_eq_true, List.any_eq_true, decide_eq_true_eq, not_or, not_exists, not_and,
    List.isEmpty_iff, Bool.not_eq_true, forall_and, not_lt]
  tauto

/-- What a jump reference is checked for. -/
def JumpReadable (jump : Option Text) : Prop :=
  ∀ reference, jump = some reference → reference.trim = [] ∨ SshAtom reference.trim 1024

structure HostDraftValid (draft : HostDraft) : Prop where
  host_alias : ¬ (draft.alias.trim.isEmpty || draft.alias.trim.len > 64 ||
    !draft.alias.trim.all fun c => c.isAlphanum || "_.-".toList.contains c) = true
  hostname : SshAtom draft.hostname.trim 512
  username : SshAtom draft.username.trim 128
  port : draft.port ≠ 0
  identity_file : ∀ path, draft.identity_file = some path →
    path.len ≤ 32767 ∧ ∀ c ∈ path, c ≠ '\x00'
  private_key : draft.auth_method = some .PrivateKey →
    ∃ path, draft.identity_file = some path ∧ path.trim ≠ []
  proxy_jump : JumpReadable draft.proxy_jump
  default_workspace : ∀ path, draft.default_workspace = some path →
    path.len ≤ 4096 ∧ ∀ c ∈ path, c ≠ '\x00'
  groups : draft.groups.length ≤ 32

theorem nul_check_iff {t : Text} {limit : Nat} :
    ¬ (t.len > limit || t.contains '\x00') = true ↔ t.len ≤ limit ∧ ∀ c ∈ t, c ≠ '\x00' := by
  simp only [Bool.or_eq_true, not_or, decide_eq_true_eq, not_lt, gt_iff_lt, List.contains_eq_mem]
  exact and_congr_right fun _ => ⟨fun h c hc heq => h (heq ▸ hc), fun h hmem => h _ hmem rfl⟩

theorem control_check_iff {t : Text} {limit : Nat} :
    ¬ (t.len > limit || t.any Text.is_control) = true ↔
      t.len ≤ limit ∧ ∀ c ∈ t, Text.is_control c = false := by
  simp only [Bool.or_eq_true, not_or, decide_eq_true_eq, not_lt, gt_iff_lt, List.any_eq_true,
    not_exists, not_and, Bool.not_eq_true]

theorem any_check_iff {value : Option Text} {bad : Text → Bool} {P : Text → Prop}
    (h : ∀ t, ¬ bad t = true ↔ P t) : ¬ value.any bad = true ↔ ∀ t, value = some t → P t := by
  cases value with
  | none => simp
  | some t => simpa using h t

/-- A path of a draft that is not refused. -/
theorem path_check_iff {path : Option Text} {limit : Nat} :
    ¬ (path.any fun path => path.len > limit || path.contains '\x00') = true ↔
      ∀ p, path = some p → p.len ≤ limit ∧ ∀ c ∈ p, c ≠ '\x00' :=
  any_check_iff fun _ => nul_check_iff

theorem jump_check_iff (jump : Option Text) :
    (match jump with
      | some proxy_jump =>
          if proxy_jump.trim.isEmpty then .ok ()
          else validate_ssh_atom "ProxyJump".toList proxy_jump.trim 1024
      | none => .ok () : AppResult Unit) = .ok () ↔ JumpReadable jump := by
  unfold JumpReadable
  cases jump with
  | none => simp
  | some reference =>
    simp only [Option.some.injEq, forall_eq']
    by_cases hblank : reference.trim = []
    · simp [hblank]
    · have hempty : List.isEmpty reference.trim = false := by simpa using hblank
      rw [hempty, if_neg Bool.false_ne_true, validate_ssh_atom_eq_ok]
      exact ⟨.inr, fun h => h.resolve_left hblank⟩

theorem validate_host_draft_iff (draft : HostDraft) :
    validate_host_draft draft = .ok () ↔ HostDraftValid draft := by
  simp only [validate_host_draft, Outcome.ite_error_eq_ok, Outcome.bind_eq_ok]
  constructor
  · rintro ⟨halias, _, hhost, _, huser, hport, hidentity, hkey, _, hjump, hworkspace, hgroups, _⟩
    refine ⟨halias, validate_ssh_atom_eq_ok.mp hhost, validate_ssh_atom_eq_ok.mp huser, hport,
      path_check_iff.mp hidentity, ?_, (jump_check_iff _).mp hjump, path_check_iff.mp hworkspace,
      Nat.not_lt.mp hgroups⟩
    · intro hmethod
      cases hpath : draft.identity_file with
      | none => simp [hmethod, hpath] at hkey
      | some path => exact ⟨path, rfl, by simpa [hmethod, hpath] using hkey⟩
  · rintro ⟨halias, hhost, huser, hport, hidentity, hkey, hjump, hworkspace, hgroups⟩
    refine ⟨halias, (), validate_ssh_atom_eq_ok.mpr hhost, (), validate_ssh_atom_eq_ok.mpr huser,
      hport, path_check_iff.mpr hidentity, ?_, (), (jump_check_iff _).mpr hjump,
      path_check_iff.mpr hworkspace, Nat.not_lt.mpr hgroups, trivial⟩
    · cases hmethod : decide (draft.auth_method = some .PrivateKey) with
      | false => simp
      | true =>
        obtain ⟨path, hpath, hne⟩ := hkey (of_decide_eq_true hmethod)
        simp [hpath, hne]

/-- What an accepted host draft says about the endpoint. -/
theorem validate_host_draft_endpoint {draft : HostDraft} (h : validate_host_draft draft = .ok ()) :
    SshAtom draft.hostname.trim 512 ∧ draft.port ≠ 0 := by
  have hvalid := (validate_host_draft_iff draft).mp h
  exact ⟨hvalid.hostname, hvalid.port⟩

/-- What `validate_command_draft` checks, field by field. -/
structure CommandDraftValid (draft : CommandPresetDraft) : Prop where
  name : draft.name.trim ≠ [] ∧ draft.name.trim.len ≤ 512 ∧
    ∀ c ∈ draft.name.trim, Text.is_control c = false
  description : draft.description.len ≤ 2048 ∧ ∀ c ∈ draft.description, c ≠ '\x00'
  group : draft.group.len ≤ 128 ∧ ∀ c ∈ draft.group, Text.is_control c = false
  command_nonempty : draft.command.trim ≠ []
  command : draft.command.len ≤ 32768 ∧ ∀ c ∈ draft.command, c ≠ '\x00'
  working_directory : ∀ path, draft.working_directory = some path →
    path.len ≤ 4096 ∧ ∀ c ∈ path, c ≠ '\x00'
  confirmation_text : ∀ text, draft.confirmation_text = some text →
    text.len ≤ 256 ∧ ∀ c ∈ text, Text.is_control c = false

theorem validate_command_draft_iff (draft : CommandPresetDraft) :
    validate_command_draft draft = .ok () ↔ CommandDraftValid draft := by
  have hor : ∀ t : Text, ∀ b : Bool, ¬ (t.isEmpty || b) = true ↔ t ≠ [] ∧ ¬ b = true := by
    intro t b
    rw [Bool.or_eq_true, not_or, List.isEmpty_iff]
  unfold validate_command_draft
  simp only [Bool.or_assoc, Outcome.ite_error_eq_ok, and_true, hor, control_check_iff,
    nul_check_iff, path_check_iff]
  rw [any_check_iff fun _ => control_check_iff]
  constructor
  · rintro ⟨hname, hdescription, hgroup, hcommand, hdirectory, hconfirmation⟩
    exact ⟨hname, hdescription, hgroup, hcommand.1, hcommand.2, hdirectory, hconfirmation⟩
  · rintro ⟨hname, hdescription, hgroup, hnonempty, hcommand, hdirectory, hconfirmation⟩
    exact ⟨hname, hdescription, hgroup, ⟨hnonempty, hcommand⟩, hdirectory, hconfirmation⟩

/-! ### The persisted state -/

/-- The draft that `validate_persisted_state` rebuilds from a host. -/
def HostDraft.of_profile (host : HostProfile) : HostDraft where
  id := some host.id
  «alias» := host.alias
  hostname := host.hostname
  port := host.port
  username := host.username
  auth_method := some host.auth_method
  identity_file := host.identity_file
  proxy_jump := host.proxy_jump
  default_workspace := some host.default_workspace
  groups := host.groups
  advanced := none
  monitor_enabled := some host.monitor_enabled

def TunnelDraft.of_profile (tunnel : TunnelProfile) : TunnelDraft where
  id := some tunnel.id
  host_id := tunnel.host_id
  name := tunnel.name
  direction := tunnel.direction
  bind_address := tunnel.bind_address
  source_port := tunnel.source_port
  target_host := tunnel.target_host
  target_port := tunnel.target_port
  auto_start := some tunnel.auto_start
  auto_reconnect := some tunnel.auto_reconnect
  health_check := tunnel.health_check

def CommandPresetDraft.of_preset (command : CommandPreset) : CommandPresetDraft where
  id := some command.id
  host_id := command.host_id
  name := command.name
  description := command.description
  group := command.group
  command := command.command
  working_directory := command.working_directory
  risk := command.risk
  requires_pty := command.requires_pty
  requires_sudo := command.requires_sudo
  confirmation_text := command.confirmation_text
  sort_order := command.sort_order

/-- `persisted <kind> at index <index> is invalid: <error>`. -/
def invalid_record (kind : Text) (index : Nat) (error : AppError) : AppError :=
  .State ("persisted ".toList ++ kind ++ " at index ".toList ++ index.text ++
    " is invalid: ".toList ++ error.to_string)

/-- `persisted <kind> '<name>' <problem>`. -/
def inconsistent_record (kind name problem : Text) : AppError :=
  .State ("persisted ".toList ++ kind ++ " '".toList ++ name ++ "' ".toList ++ problem)

def validate_persisted_host (earlier : List HostProfile) (host : HostProfile) :
    AppResult Unit := do
  (validate_host_draft (HostDraft.of_profile host)).mapError
    (invalid_record "host".toList earlier.length)
  (validate_advanced host.advanced).mapError (invalid_record "host".toList earlier.length)
  if earlier.any fun other => other.id = host.id || other.alias.eq_ignore_ascii_case host.alias then
    .error (inconsistent_record "host".toList host.alias "duplicates an id or alias".toList)
  else .ok ()

def validate_persisted_tunnel (hosts : List HostProfile) (earlier : List TunnelProfile)
    (tunnel : TunnelProfile) : AppResult Unit := do
  (validate_tunnel_draft (TunnelDraft.of_profile tunnel)).mapError
    (invalid_record "tunnel".toList earlier.length)
  if !hosts.any fun host => host.id = tunnel.host_id then
    .error (inconsistent_record "tunnel".toList tunnel.name "refers to a missing host".toList)
  else if earlier.any fun other => other.id = tunnel.id ||
      (other.host_id = tunnel.host_id && other.name.eq_ignore_ascii_case tunnel.name) then
    .error (inconsistent_record "tunnel".toList tunnel.name "duplicates an id or name".toList)
  else .ok ()

def validate_persisted_command (hosts : List HostProfile) (earlier : List CommandPreset)
    (command : CommandPreset) : AppResult Unit := do
  (validate_command_draft (CommandPresetDraft.of_preset command)).mapError
    (invalid_record "command".toList earlier.length)
  if command.host_id.any fun host_id => !hosts.any fun host => host.id = host_id then
    .error (inconsistent_record "command".toList command.name "refers to a missing host".toList)
  else if earlier.any fun other => other.id = command.id ||
      (other.host_id = command.host_id && other.name.eq_ignore_ascii_case command.name) then
    .error (inconsistent_record "command".toList command.name "duplicates an id or name".toList)
  else .ok ()

def is_import_hash (hash : Text) : Bool :=
  hash.len = 64 && hash.all Text.is_ascii_hexdigit

def validate_persisted_state (state : PersistedState) : AppResult Unit :=
  if state.schema_version ≠ 2 then
    .error (.State ("unsupported state schema version ".toList ++ state.schema_version.text))
  else if state.hosts.length > MAX_HOSTS || state.tunnels.length > MAX_TUNNELS ||
      state.command_presets.length > MAX_COMMAND_PRESETS ||
      state.imported_source_hashes.length > MAX_IMPORTED_SOURCE_HASHES then
    .error (.State "persisted state exceeds an item-count safety limit".toList)
  else do
    Outcome.check_each validate_persisted_host [] state.hosts
    Outcome.check_each (validate_persisted_tunnel state.hosts) [] state.tunnels
    Outcome.check_each (validate_persisted_command state.hosts) [] state.command_presets
    if state.imported_source_hashes.any fun hash => !is_import_hash hash then
      .error (.State "persisted import history contains an invalid hash".toList)
    else .ok ()

/-- Two tunnels have different ids, and different names when they belong to
    one host. -/
def TunnelsDiffer (a b : TunnelProfile) : Prop :=
  a.id ≠ b.id ∧
    (a.host_id = b.host_id → a.name.to_ascii_lowercase ≠ b.name.to_ascii_lowercase)

/-- Two saved commands have different ids, and different names when they
    have one scope (a host, or no host). -/
def CommandsDiffer (a b : CommandPreset) : Prop :=
  a.id ≠ b.id ∧
    (a.host_id = b.host_id → a.name.to_ascii_lowercase ≠ b.name.to_ascii_lowercase)

/-- Two hosts have different ids and different aliases. -/
def HostsDiffer (a b : HostProfile) : Prop :=
  a.id ≠ b.id ∧ a.alias.to_ascii_lowercase ≠ b.alias.to_ascii_lowercase

/-- What `validate_persisted_state` establishes across the records. -/
structure Validated (state : PersistedState) : Prop where
  hosts_differ : state.hosts.Pairwise HostsDiffer
  host_drafts : ∀ host ∈ state.hosts, validate_host_draft (HostDraft.of_profile host) = .ok ()
  tunnels_differ : state.tunnels.Pairwise TunnelsDiffer
  tunnel_hosts : ∀ tunnel ∈ state.tunnels, ∃ host ∈ state.hosts, host.id = tunnel.host_id
  commands_differ : state.command_presets.Pairwise CommandsDiffer
  command_hosts : ∀ command ∈ state.command_presets, ∀ host_id, command.host_id = some host_id →
    ∃ host ∈ state.hosts, host.id = host_id

theorem validate_persisted_host_iff (earlier : List HostProfile) (host : HostProfile) :
    validate_persisted_host earlier host = .ok () ↔
      (HostDraftValid (HostDraft.of_profile host) ∧ validate_advanced host.advanced = .ok ()) ∧
        ∀ other ∈ earlier, HostsDiffer other host := by
  rw [← validate_host_draft_iff]
  simp only [validate_persisted_host, Outcome.bind_eq_ok, Outcome.mapError_eq_ok,
    Outcome.ite_error_eq_ok, List.any_eq_true, not_exists, not_and]
  constructor
  · rintro ⟨_, hdraft, _, hadvanced, hdup, _⟩
    refine ⟨⟨hdraft, hadvanced⟩, fun other hother => ?_⟩
    simpa [HostsDiffer] using hdup other hother
  · rintro ⟨⟨hdraft, hadvanced⟩, hdiffer⟩
    refine ⟨(), hdraft, (), hadvanced, fun other hother => ?_, trivial⟩
    simpa [HostsDiffer] using hdiffer other hother

theorem validate_persisted_tunnel_iff (hosts : List HostProfile) (earlier : List TunnelProfile)
    (tunnel : TunnelProfile) :
    validate_persisted_tunnel hosts earlier tunnel = .ok () ↔
      (validate_tunnel_draft (TunnelDraft.of_profile tunnel) = .ok () ∧
        ∃ host ∈ hosts, host.id = tunnel.host_id) ∧
        ∀ other ∈ earlier, TunnelsDiffer other tunnel := by
  simp only [validate_persisted_tunnel, Outcome.bind_eq_ok, Outcome.mapError_eq_ok,
    Outcome.ite_error_eq_ok, List.any_eq_true, not_exists, not_and]
  constructor
  · rintro ⟨_, hdraft, hhost, hdup, _⟩
    refine ⟨⟨hdraft, by simpa using hhost⟩, fun other hother => ?_⟩
    simpa [TunnelsDiffer] using hdup other hother
  · rintro ⟨⟨hdraft, hhost⟩, hdiffer⟩
    refine ⟨(), hdraft, by simpa using hhost, fun other hother => ?_, trivial⟩
    simpa [TunnelsDiffer] using hdiffer other hother

theorem validate_persisted_command_iff (hosts : List HostProfile) (earlier : List CommandPreset)
    (command : CommandPreset) :
    validate_persisted_command hosts earlier command = .ok () ↔
      (validate_command_draft (CommandPresetDraft.of_preset command) = .ok () ∧
        ∀ host_id, command.host_id = some host_id → ∃ host ∈ hosts, host.id = host_id) ∧
        ∀ other ∈ earlier, CommandsDiffer other command := by
  simp only [validate_persisted_command, Outcome.bind_eq_ok, Outcome.mapError_eq_ok,
    Outcome.ite_error_eq_ok, List.any_eq_true, not_exists, not_and]
  constructor
  · rintro ⟨_, hdraft, hhost, hdup, _⟩
    refine ⟨⟨hdraft, fun host_id hid => by simpa [hid] using hhost⟩, fun other hother => ?_⟩
    simpa [CommandsDiffer] using hdup other hother
  · rintro ⟨⟨hdraft, hhost⟩, hdiffer⟩
    refine ⟨(), hdraft, ?_, fun other hother => ?_, trivial⟩
    · cases hid : command.host_id with
      | none => simp
      | some host_id => simpa using hhost host_id hid
    · simpa [CommandsDiffer] using hdiffer other hother

/-- No limit on the number of records is exceeded. -/
structure WithinLimits (state : PersistedState) : Prop where
  hosts : state.hosts.length ≤ MAX_HOSTS
  tunnels : state.tunnels.length ≤ MAX_TUNNELS
  commands : state.command_presets.length ≤ MAX_COMMAND_PRESETS
  hashes : state.imported_source_hashes.length ≤ MAX_IMPORTED_SOURCE_HASHES

/-- What `validate_persisted_state` checks, field by field. -/
structure Readable (state : PersistedState) : Prop where
  schema_version : state.schema_version = 2
  limits : WithinLimits state
  hosts : ∀ host ∈ state.hosts,
    HostDraftValid (HostDraft.of_profile host) ∧ validate_advanced host.advanced = .ok ()
  hosts_differ : state.hosts.Pairwise HostsDiffer
  tunnels : ∀ tunnel ∈ state.tunnels,
    validate_tunnel_draft (TunnelDraft.of_profile tunnel) = .ok () ∧
      ∃ host ∈ state.hosts, host.id = tunnel.host_id
  tunnels_differ : state.tunnels.Pairwise TunnelsDiffer
  commands : ∀ command ∈ state.command_presets,
    validate_command_draft (CommandPresetDraft.of_preset command) = .ok () ∧
      ∀ host_id, command.host_id = some host_id → ∃ host ∈ state.hosts, host.id = host_id
  commands_differ : state.command_presets.Pairwise CommandsDiffer
  hashes : ∀ hash ∈ state.imported_source_hashes, is_import_hash hash = true

theorem validate_persisted_state_iff (state : PersistedState) :
    validate_persisted_state state = .ok () ↔ Readable state := by
  have hhosts := Outcome.check_each_iff validate_persisted_host_iff [] state.hosts
  have htunnels := Outcome.check_each_iff (validate_persisted_tunnel_iff state.hosts) []
    state.tunnels
  have hcommands := Outcome.check_each_iff (validate_persisted_command_iff state.hosts) []
    state.command_presets
  have hlimits : ¬ (state.hosts.length > MAX_HOSTS || state.tunnels.length > MAX_TUNNELS ||
      state.command_presets.length > MAX_COMMAND_PRESETS ||
      state.imported_source_hashes.length > MAX_IMPORTED_SOURCE_HASHES) = true ↔
      WithinLimits state := by
    simp only [Bool.or_eq_true, decide_eq_true_eq, not_or, Nat.not_lt]
    exact ⟨fun ⟨⟨⟨h1, h2⟩, h3⟩, h4⟩ => ⟨h1, h2, h3, h4⟩, fun h => ⟨⟨⟨h.1, h.2⟩, h.3⟩, h.4⟩⟩
  unfold validate_persisted_state
  simp only [Outcome.ite_error_eq_ok, Outcome.bind_eq_ok, hhosts, htunnels, hcommands, hlimits]
  constructor
  · rintro ⟨hschema, hwithin, _, ⟨h1, _, h2⟩, _, ⟨h3, _, h4⟩, _, ⟨h5, _, h6⟩, hhash, _⟩
    refine ⟨Decidable.not_not.mp hschema, hwithin, h1, h2, h3, h4, h5, h6, ?_⟩
    simpa using hhash
  · rintro ⟨hschema, hwithin, h1, h2, h3, h4, h5, h6, hhash⟩
    refine ⟨Decidable.not_not.mpr hschema, hwithin, (), ⟨h1, ?_, h2⟩, (), ⟨h3, ?_, h4⟩, (),
      ⟨h5, ?_, h6⟩, by simpa using hhash, trivial⟩
    all_goals
      intro earlier hearlier
      cases hearlier

theorem validate_persisted_state_ok {state : PersistedState}
    (h : validate_persisted_state state = .ok ()) : Validated state := by
  have hreadable := (validate_persisted_state_iff state).mp h
  exact
    { hosts_differ := hreadable.hosts_differ
      host_drafts := fun host hmem =>
        (validate_host_draft_iff _).mpr (hreadable.hosts host hmem).1
      tunnels_differ := hreadable.tunnels_differ
      tunnel_hosts := fun tunnel hmem => (hreadable.tunnels tunnel hmem).2
      commands_differ := hreadable.commands_differ
      command_hosts := fun command hmem => (hreadable.commands command hmem).2 }

end Store
