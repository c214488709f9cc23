import RemoteDeck.Store.Validate

/-! # Mutations of the persisted state

    The functions of `store.rs` that change a working copy of the persisted
    state, before it is written.  An identifier drawn from the system
    (`Uuid::new_v4`) and the current time are arguments.
-/

namespace Store

/-! ### Lists of records -/

section Records

variable {α : Type}

/-- Change the first record that `found` accepts. -/
def modify_first (found : α → Bool) (change : α → α) : List α → List α
  | [] => []
  | x :: xs => if found x then change x :: xs else x :: modify_first found change xs

/-- Replace the first record that `found` accepts, or append one. -/
def upsert (found : α → Bool) (record : α) (records : List α) : List α :=
  if records.any found then modify_first found (fun _ => record) records else records ++ [record]

end Records

/-- The host with a given id. -/
def find_host (hosts : List HostProfile) (id : Text) : Option HostProfile :=
  hosts.find? fun host => host.id = id

section FindHost

variable {hosts : List HostProfile} {host : HostProfile} {change : HostProfile → HostProfile}

theorem find_host_some {id : Text} (h : find_host hosts id = some host) :
    host ∈ hosts ∧ host.id = id :=
  ⟨List.mem_of_find?_eq_some h, by simpa using List.find?_some h⟩

theorem exists_find_host (h : host ∈ hosts) : ∃ found, find_host hosts host.id = some found :=
  Option.isSome_iff_exists.mp (List.find?_isSome.mpr ⟨host, h, by simp⟩)

/-- Where ids are unique, the first host with an id is the only one. -/
theorem find_host_of_mem (hdiffer : hosts.Pairwise HostsDiffer) (h : host ∈ hosts) :
    find_host hosts host.id = some host := by
  induction hosts with
  | nil => simp at h
  | cons first rest ih =>
    obtain ⟨hfirst, hrest⟩ := List.pairwise_cons.mp hdiffer
    rcases List.mem_cons.mp h with rfl | h
    · simp [find_host]
    · rw [find_host, List.find?_cons_of_neg (by simpa using (hfirst host h).1)]
      exact ih hrest h

theorem find_host_modify_first (host_id : Text)
    (hid : ∀ host, host.id = host_id → (change host).id = host_id) (x : Text) :
    find_host (modify_first (fun host => host.id = host_id) change hosts) x =
      if x = host_id then (find_host hosts x).map change else find_host hosts x := by
  induction hosts with
  | nil => simp [modify_first, find_host]
  | cons first rest ih =>
    simp only [find_host] at ih
    by_cases hfirst : first.id = host_id
    · simp only [modify_first, hfirst, decide_true, if_true, find_host, List.find?_cons,
        hid first hfirst]
      by_cases hx : x = host_id
      · simp [hx]
      · simp [hx, Ne.symm hx]
    · simp only [modify_first, hfirst, decide_false, find_host, List.find?_cons]
      by_cases hx : first.id = x
      · simp [hx, show x ≠ host_id from hx ▸ hfirst]
      · simpa [hx] using ih

theorem find_host_append (host : HostProfile) (x : Text) :
    find_host (hosts ++ [host]) x =
      (find_host hosts x).or (if host.id = x then some host else none) := by
  by_cases hx : host.id = x <;> simp [find_host, List.find?_append, hx]

theorem find_host_upsert (host : HostProfile) (x : Text) :
    find_host (upsert (fun other => other.id = host.id) host hosts) x =
      if x = host.id then some host else find_host hosts x := by
  unfold upsert
  split
  case isTrue hany =>
    rw [find_host_modify_first host.id fun _ _ => rfl]
    by_cases hx : x = host.id
    · subst hx
      obtain ⟨other, hother, hid⟩ := List.any_eq_true.mp hany
      obtain ⟨found, hfound⟩ := exists_find_host hother
      rw [of_decide_eq_true hid] at hfound
      simp [hfound]
    · simp [hx]
  case isFalse hnone =>
    rw [find_host_append]
    by_cases hx : x = host.id
    · subst hx
      have : find_host hosts host.id = none := by simpa [find_host] using hnone
      simp [this]
    · simp [hx, Ne.symm hx]

theorem find_host_map (hid : ∀ host, (change host).id = host.id) (x : Text) :
    find_host (hosts.map change) x = (find_host hosts x).map change := by
  have hsame : (fun host => decide (host.id = x)) ∘ change = fun host => decide (host.id = x) := by
    funext host
    rw [Function.comp_apply, hid]
  unfold find_host
  rw [List.find?_map, hsame]

theorem find_host_filter (host_id x : Text) :
    find_host (hosts.filter fun host => host.id ≠ host_id) x =
      if x = host_id then none else find_host hosts x := by
  rw [find_host, List.find?_filter]
  by_cases hx : x = host_id
  · simp [hx]
  · rw [if_neg hx, find_host]
    congr 1
    funext host
    by_cases hid : host.id = x <;> simp [hid, hx]

end FindHost

/-! ### Normalization -/

def normalize_optional (value : Option Text) : Option Text :=
  (value.map Text.trim).filter fun item => !item.isEmpty

def normalize_groups (groups : List Text) : List Text :=
  groups.foldl
    (fun normalized group =>
      let group := group.trim
      if group.isEmpty || group.len > 128 || group.any Text.is_control then normalized
      else if normalized.any fun existing => existing.eq_ignore_ascii_case group then normalized
      else normalized ++ [group])
    []

/-! ### Jump references -/

/-- The host name as it stands in `user@host`: an address with colons is
    bracketed. -/
def bracketed_hostname (host : HostProfile) : Text :=
  if host.hostname.contains ':' &&
      !(host.hostname.head? = some '[' && host.hostname.getLast? = some ']') then
    '[' :: host.hostname ++ [']']
  else host.hostname

def proxy_endpoint_with_port (host : HostProfile) : Text :=
  host.username ++ '@' :: bracketed_hostname host ++ ':' :: host.port.toNat.text

def proxy_endpoint (host : HostProfile) : Text :=
  if host.port = 22 then host.username ++ '@' :: bracketed_hostname host
  else proxy_endpoint_with_port host

def resolve_proxy_reference (hosts : List HostProfile) (reference : Option Text) :
    AppResult (Option HostProfile) :=
  match normalize_optional reference with
  | none => .ok none
  | some reference =>
      match find_host hosts reference with
      | some host => .ok (some host)
      | none =>
          match hosts.find? fun host => host.alias.eq_ignore_ascii_case reference with
          | some host => .ok (some host)
          | none =>
              match hosts.filter fun host =>
                proxy_endpoint host = reference || proxy_endpoint_with_port host = reference with
              | [] => .error (.Validation ("ProxyJump '".toList ++ reference ++
                  "' must match a saved host alias or exact user@host[:port]".toList))
              | [host] => .ok (some host)
              | _ => .error (.Validation ("ProxyJump '".toList ++ reference ++
                  "' is ambiguous; use the saved host alias".toList))

def proxy_reference_matches_host (reference : Option Text) (host : HostProfile) : Bool :=
  (reference.map Text.trim).any fun reference =>
    reference = host.id || reference.eq_ignore_ascii_case host.alias ||
      reference = proxy_endpoint host || reference = proxy_endpoint_with_port host

def self_jump_error : AppError :=
  .Validation "a host cannot use itself as ProxyJump".toList

def nested_jump_error (jump : HostProfile) : AppError :=
  .Validation ("nested ProxyJump chains are not supported; '".toList ++ jump.alias ++
    "' must connect directly".toList)

def missing_host (host_id : Text) : AppError := .NotFound ("host ".toList ++ host_id)

def resolve_proxy_jump (hosts : List HostProfile) (host : HostProfile) :
    AppResult (Option HostProfile) := do
  match ← resolve_proxy_reference hosts host.proxy_jump with
  | none => .ok none
  | some jump =>
      if jump.id = host.id then .error self_jump_error
      else if jump.proxy_jump.isSome then .error (nested_jump_error jump)
      else .ok (some jump)

/-- Replace the jump reference of one host by the id it resolves to. -/
def normalize_proxy_jump_for (hosts : List HostProfile) (host_id : Text) :
    AppResult (List HostProfile) := do
  let host ← (find_host hosts host_id).ok_or (missing_host host_id)
  match host.proxy_jump with
  | none => .ok hosts
  | some reference =>
      let resolved ← (← resolve_proxy_reference hosts (some reference)).ok_or
        (.Validation ("ProxyJump '".toList ++ reference ++
          "' must resolve to a saved host profile".toList))
      let jump_id := resolved.id
      if jump_id = host_id then .error self_jump_error
      else
        let jump := (find_host hosts jump_id).getD resolved
        if jump.proxy_jump.isSome then .error (nested_jump_error jump)
        else
          .ok (modify_first (fun host => host.id = host_id)
            (fun host => { host with proxy_jump := some jump_id }) hosts)

def validate_proxy_jump_role (hosts : List HostProfile) (host_id : Text) : AppResult Unit := do
  let host ← (find_host hosts host_id).ok_or (missing_host host_id)
  let _ ← resolve_proxy_jump hosts host
  if host.proxy_jump.isNone then .ok ()
  else if hosts.any fun dependent =>
      dependent.id ≠ host.id && proxy_reference_matches_host dependent.proxy_jump host then
    .error (.Validation ("host '".toList ++ host.alias ++
      "' is already used as a ProxyJump and must connect directly".toList))
  else .ok ()

/-! ### Hosts -/

def identity_file_required : AppError :=
  .Validation "private-key authentication requires an identity file".toList

/-- The authentication method of the profile that a draft makes. -/
def draft_auth_method (draft : HostDraft) (existing : Option HostProfile) : AuthMethod :=
  (draft.auth_method.or (existing.map HostProfile.auth_method)).getD
    (if (normalize_optional draft.identity_file).isSome then .PrivateKey else .Interactive)

/-- The profile that an accepted draft makes, replacing `existing`. -/
def profile_of_draft (new_uuid : Uuid) (now : Timestamp) (draft : HostDraft)
    (existing : Option HostProfile) : HostProfile :=
  let auth_method := draft_auth_method draft existing
  { schema_version := 2
    id := (existing.map HostProfile.id).getD new_uuid.to_string
    «alias» := draft.alias.trim
    hostname := draft.hostname.trim
    port := draft.port
    username := draft.username.trim
    auth_method := auth_method
    identity_file := match auth_method with
      | .PrivateKey => normalize_optional draft.identity_file
      | .Agent | .Interactive => none
    proxy_jump := normalize_optional draft.proxy_jump
    default_workspace := (normalize_optional draft.default_workspace).getD ['~']
    groups := normalize_groups draft.groups
    advanced := (draft.advanced.getD .default).apply_to
      ((existing.map HostProfile.advanced).getD .default)
    monitor_enabled := draft.monitor_enabled.getD true
    created_at := (existing.map HostProfile.created_at).getD now
    updated_at := now }

def apply_host_draft (new_uuid : Uuid) (now : Timestamp) (state : PersistedState)
    (draft : HostDraft) : AppResult (PersistedState × HostProfile) := do
  validate_host_draft draft
  if state.hosts.any fun host =>
      host.alias.eq_ignore_ascii_case draft.alias.trim && draft.id ≠ some host.id then
    .error (.Validation ("host alias '".toList ++ draft.alias.trim ++ "' already exists".toList))
  else
    let existing := draft.id.bind (find_host state.hosts)
    if draft.id.isSome && existing.isNone then
      .error (.NotFound "host being edited no longer exists".toList)
    else do
      let profile := profile_of_draft new_uuid now draft existing
      validate_advanced profile.advanced
      if profile.auth_method = .PrivateKey && (normalize_optional draft.identity_file).isNone then
        .error identity_file_required
      else
        .ok ({ state with hosts := upsert (fun host => host.id = profile.id) profile state.hosts },
          profile)

/-- The alias that a rename drops; a change of case drops none. -/
def dropped_alias (previous_alias : Option Text) (new_alias : Text) : Option Text :=
  previous_alias.filter fun previous => !previous.eq_ignore_ascii_case new_alias

/-- Point a jump reference to a dropped alias at the id of the renamed host. -/
def redirect (dropped : Option Text) (host_id : Text) (dependent : HostProfile) : HostProfile :=
  if dropped.any fun previous => dependent.proxy_jump.any fun reference =>
      reference.eq_ignore_ascii_case previous then
    { dependent with proxy_jump := some host_id }
  else dependent

def apply_host_update (new_uuid : Uuid) (now : Timestamp) (state : PersistedState)
    (draft : HostDraft) : AppResult (PersistedState × HostProfile) := do
  let previous_alias := (draft.id.bind (find_host state.hosts)).map HostProfile.alias
  let (state, profile) ← apply_host_draft new_uuid now state draft
  let hosts := state.hosts.map (redirect (dropped_alias previous_alias profile.alias) profile.id)
  let hosts ← normalize_proxy_jump_for hosts profile.id
  validate_proxy_jump_role hosts profile.id
  .ok ({ state with hosts := hosts }, (find_host hosts profile.id).getD profile)

def validate_host_deletion_state (state : PersistedState) (host_id : Text) : AppResult Unit := do
  let removed ← (find_host state.hosts host_id).ok_or (missing_host host_id)
  if state.hosts.any fun host =>
      host.id ≠ host_id && proxy_reference_matches_host host.proxy_jump removed then
    .error (.Validation ("host '".toList ++ removed.alias ++
      "' is used as a ProxyJump; remove those references first".toList))
  else .ok ()

/-! ### Tunnels and saved commands -/

def apply_tunnel_draft (new_uuid : Uuid) (now : Timestamp) (state : PersistedState)
    (draft : TunnelDraft) : AppResult (PersistedState × TunnelProfile) := do
  validate_tunnel_draft draft
  if !state.hosts.any fun host => host.id = draft.host_id then
    .error (missing_host draft.host_id)
  else if state.tunnels.any fun item => item.host_id = draft.host_id &&
      item.name.eq_ignore_ascii_case draft.name.trim && draft.id ≠ some item.id then
    .error (.Validation ("tunnel name '".toList ++ draft.name.trim ++
      "' already exists for this host".toList))
  else
    let existing := draft.id.bind fun id => state.tunnels.find? fun item => item.id = id
    if draft.id.isSome && existing.isNone then
      .error (.NotFound "tunnel being edited no longer exists".toList)
    else
      let profile : TunnelProfile :=
        { schema_version := 2
          id := (existing.map TunnelProfile.id).getD new_uuid.to_string
          host_id := draft.host_id
          name := draft.name.trim
          direction := draft.direction
          bind_address := draft.bind_address.trim
          source_port := draft.source_port
          target_host := draft.target_host.trim
          target_port := draft.target_port
          auto_start := draft.auto_start.getD false
          auto_reconnect := draft.auto_reconnect.getD false
          health_check := draft.health_check
          created_at := (existing.map TunnelProfile.created_at).getD now
          updated_at := now }
      .ok ({ state with
             tunnels := upsert (fun item => item.id = profile.id) profile state.tunnels }, profile)

def apply_command_draft (new_uuid : Uuid) (now : Timestamp) (state : PersistedState)
    (draft : CommandPresetDraft) : AppResult (PersistedState × CommandPreset) := do
  validate_command_draft draft
  if draft.host_id.any fun host_id => !state.hosts.any fun host => host.id = host_id then
    .error (missing_host (draft.host_id.getD []))
  else if state.command_presets.any fun command => command.host_id = draft.host_id &&
      command.name.eq_ignore_ascii_case draft.name.trim && draft.id ≠ some command.id then
    .error (.Validation ("command preset '".toList ++ draft.name.trim ++
      "' already exists in this scope".toList))
  else
    let existing := draft.id.bind fun id => state.command_presets.find? fun item => item.id = id
    if draft.id.isSome && existing.isNone then
      .error (.NotFound "command preset being edited no longer exists".toList)
    else
      let command : CommandPreset :=
        { schema_version := 2
          id := (existing.map CommandPreset.id).getD new_uuid.to_string
          host_id := draft.host_id
          name := draft.name.trim
          description := draft.description.trim
          group := draft.group.trim
          command := draft.command.trim
          working_directory := normalize_optional draft.working_directory
          risk := draft.risk
          requires_pty := draft.requires_pty
          requires_sudo := draft.requires_sudo
          confirmation_text := normalize_optional draft.confirmation_text
          sort_order := draft.sort_order
          created_at := (existing.map CommandPreset.created_at).getD now
          updated_at := now }
      .ok ({ state with
             command_presets :=
               upsert (fun item => item.id = command.id) command state.command_presets }, command)

/-! ### Settings -/

/-- Check and assign one field of a patch; an absent field changes nothing. -/
def patch_field {α : Type} (value : Option α) (invalid : α → Bool) (message : String)
    (assign : α → AppSettings → AppSettings) (settings : AppSettings) : AppResult AppSettings :=
  match value with
  | none => .ok settings
  | some value =>
      if invalid value then .error (.Validation message.toList) else .ok (assign value settings)

/-- A number outside `low..=high`. -/
def outside (low high value : Nat) : Bool := !(low ≤ value && value ≤ high)

def LOG_LEVELS : List Text := ["debug".toList, "info".toList, "warn".toList, "error".toList]

def DEFAULT_AGENTS : List Text :=
  ["codex".toList, "claude".toList, "gemini".toList, "opencode".toList]

def apply_settings_patch (settings : AppSettings) (patch : SettingsPatch) :
    AppResult AppSettings := do
  let settings ← patch_field (patch.terminal_font_family.map Text.trim)
    (fun value => value.isEmpty || value.len > 256 || value.any Text.is_control)
    "terminal font family is invalid"
    (fun value s => { s with terminal_font_family := value }) settings
  let settings ← patch_field patch.terminal_font_size (outside 9 32)
    "terminal font size must be between 9 and 32"
    (fun value s => { s with terminal_font_size := value }) settings
  let settings ← patch_field patch.telemetry_interval_seconds (outside 1 60)
    "telemetry interval must be between 1 and 60 seconds"
    (fun value s => { s with telemetry_interval_seconds := value }) settings
  let settings ← patch_field patch.telemetry_retention_minutes (outside 1 1440)
    "telemetry retention must be between 1 and 1440 minutes"
    (fun value s => { s with telemetry_retention_minutes := value }) settings
  let settings ← patch_field (patch.download_directory.map Text.trim)
    (fun value => value.len > 32767 || value.contains '\x00')
    "download directory is invalid"
    (fun value s => { s with download_directory := value }) settings
  let settings :=
    { settings with
      auto_reconnect := patch.auto_reconnect.getD settings.auto_reconnect
      close_to_tray := patch.close_to_tray.getD settings.close_to_tray
      launch_at_login := patch.launch_at_login.getD settings.launch_at_login
      btop_watchdog_enabled := patch.btop_watchdog_enabled.getD settings.btop_watchdog_enabled }
  let settings ← patch_field patch.btop_rotation_minutes (outside 1 1440)
    "btop rotation must be between 1 and 1440 minutes"
    (fun value s => { s with btop_rotation_minutes := value }) settings
  let settings ← patch_field (patch.log_level.map fun value => value.trim.to_ascii_lowercase)
    (fun value => !LOG_LEVELS.contains value)
    "log level is invalid"
    (fun value s => { s with log_level := value }) settings
  let settings :=
    { settings with
      onboarding_completed := patch.onboarding_completed.getD settings.onboarding_completed }
  patch_field (patch.default_agent.map fun value => value.trim.to_ascii_lowercase)
    (fun value => !DEFAULT_AGENTS.contains value)
    "default agent is invalid"
    (fun value s => { s with default_agent := value }) settings

end Store
