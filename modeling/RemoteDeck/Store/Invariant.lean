import RemoteDeck.Store.Jumps

/-! # The repository invariant

    `Consistent` is what the rest of the core relies on: ids and names do
    not clash, references between records resolve, jumps are one hop long,
    identity files go with the authentication method, settings are within
    their bounds.

    What spans several records is checked by `validate_persisted_state`
    before every write.  Jumps, identity files and settings are not checked
    there: each mutation has to keep them, and `StateSound` collects what
    they keep.  It also says that no host being deleted is in use as a jump.
-/

namespace Store

/-! ### Settings -/

structure SettingsInBounds (settings : AppSettings) : Prop where
  terminal_font_family : settings.terminal_font_family ≠ [] ∧
    settings.terminal_font_family.len ≤ 256 ∧
    ∀ c ∈ settings.terminal_font_family, Text.is_control c = false
  terminal_font_size : 9 ≤ settings.terminal_font_size ∧ settings.terminal_font_size ≤ 32
  telemetry_interval : 1 ≤ settings.telemetry_interval_seconds ∧
    settings.telemetry_interval_seconds ≤ 60
  telemetry_retention : 1 ≤ settings.telemetry_retention_minutes ∧
    settings.telemetry_retention_minutes ≤ 1440
  download_directory : settings.download_directory.len ≤ 32767 ∧
    '\x00' ∉ settings.download_directory
  btop_rotation : 1 ≤ settings.btop_rotation_minutes ∧ settings.btop_rotation_minutes ≤ 1440
  log_level : settings.log_level ∈ LOG_LEVELS
  default_agent : settings.default_agent ∈ DEFAULT_AGENTS

theorem default_settings_in_bounds : SettingsInBounds .default where
  terminal_font_family := by
    have hplain : AppSettings.default.terminal_font_family.all
        (fun c => !Text.is_control c) = true := by decide
    refine ⟨by decide, by decide, fun c hc => ?_⟩
    simpa using List.all_eq_true.mp hplain c hc
  terminal_font_size := by decide
  telemetry_interval := by decide
  telemetry_retention := by decide
  download_directory := ⟨Nat.zero_le _, List.not_mem_nil⟩
  btop_rotation := by decide
  log_level := by decide
  default_agent := by decide

/-- A field that passes its check keeps what its assignment keeps. -/
theorem patch_field_keeps {α : Type} {P : AppSettings → Prop} {value : Option α}
    {invalid : α → Bool} {message : String} {assign : α → AppSettings → AppSettings}
    {settings settings' : AppSettings}
    (h : patch_field value invalid message assign settings = .ok settings')
    (hP : P settings) (hassign : ∀ v, invalid v = false → P settings → P (assign v settings)) :
    P settings' := by
  cases value with
  | none =>
    rw [patch_field, Except.ok.injEq] at h
    exact h ▸ hP
  | some v =>
    simp only [patch_field, Outcome.ite_error_eq_ok, Except.ok.injEq] at h
    exact h.2 ▸ hassign v (by simpa using h.1) hP

theorem outside_eq_false {low high value : Nat} :
    outside low high value = false ↔ low ≤ value ∧ value ≤ high := by
  simp [outside]

/-- An accepted patch leaves the settings within their bounds. -/
theorem apply_settings_patch_in_bounds {settings settings' : AppSettings} {patch : SettingsPatch}
    (h : apply_settings_patch settings patch = .ok settings') (hs : SettingsInBounds settings) :
    SettingsInBounds settings' := by
  simp only [apply_settings_patch, Outcome.bind_eq_ok] at h
  obtain ⟨s1, h1, s2, h2, s3, h3, s4, h4, s5, h5, s6, h6, s7, h7, h8⟩ := h
  replace hs := patch_field_keeps h1 hs fun v hv hs => { hs with
    terminal_font_family := by
      simp only [Bool.or_eq_false_iff, List.isEmpty_eq_false_iff, decide_eq_false_iff_not,
        List.any_eq_false, not_lt] at hv
      exact ⟨hv.1.1, hv.1.2, fun c hc => by simpa using hv.2 c hc⟩ }
  replace hs := patch_field_keeps h2 hs fun v hv hs =>
    { hs with terminal_font_size := outside_eq_false.mp hv }
  replace hs := patch_field_keeps h3 hs fun v hv hs =>
    { hs with telemetry_interval := outside_eq_false.mp hv }
  replace hs := patch_field_keeps h4 hs fun v hv hs =>
    { hs with telemetry_retention := outside_eq_false.mp hv }
  replace hs := patch_field_keeps h5 hs fun v hv hs => { hs with
    download_directory := by simpa using hv }
  replace hs := patch_field_keeps (P := SettingsInBounds) h6 { hs with } fun v hv hs =>
    { hs with btop_rotation := outside_eq_false.mp hv }
  replace hs := patch_field_keeps h7 hs fun v hv hs => { hs with log_level := by simpa using hv }
  exact patch_field_keeps (P := SettingsInBounds) h8 { hs with } fun v hv hs =>
    { hs with default_agent := by simpa using hv }

/-! ### Host drafts -/

theorem profile_of_draft_identity {new_uuid : Uuid} {now : Timestamp} {draft : HostDraft}
    {existing : Option HostProfile}
    (h : draft_auth_method draft existing = .PrivateKey →
      (normalize_optional draft.identity_file).isSome = true) :
    (profile_of_draft new_uuid now draft existing).identity_file.isSome = true ↔
      (profile_of_draft new_uuid now draft existing).auth_method = .PrivateKey := by
  unfold profile_of_draft
  cases hauth : draft_auth_method draft existing with
  | Interactive => simp
  | Agent => simp
  | PrivateKey => simp [h hauth]

/-- What an accepted host draft does to the state. -/
structure DraftApplied (new_uuid : Uuid) (draft : HostDraft) (state state' : PersistedState)
    (profile : HostProfile) : Prop where
  state_eq : state' =
    { state with hosts := upsert (fun host => host.id = profile.id) profile state.hosts }
  id_new : draft.id = none → profile.id = new_uuid.to_string
  id_edited : ∀ id, draft.id = some id →
    profile.id = id ∧ ∃ existing, find_host state.hosts id = some existing
  alias_eq : profile.alias = draft.alias.trim
  sound : HostsSound state.hosts → HostSound profile

theorem apply_host_draft_ok {new_uuid : Uuid} {now : Timestamp} {state state' : PersistedState}
    {draft : HostDraft} {profile : HostProfile}
    (h : apply_host_draft new_uuid now state draft = .ok (state', profile)) :
    DraftApplied new_uuid draft state state' profile := by
  simp only [apply_host_draft, Outcome.bind_eq_ok, Outcome.ite_error_eq_ok,
    Except.ok.injEq, Prod.mk.injEq] at h
  obtain ⟨_, _, _, hexists, _, _, hidentity, hstate, hprofile⟩ := h
  have hprivate : draft_auth_method draft (draft.id.bind (find_host state.hosts)) = .PrivateKey →
      (normalize_optional draft.identity_file).isSome = true := fun hauth => by
    by_contra hnone
    refine hidentity ?_
    simpa [profile_of_draft, hauth] using hnone
  subst hprofile
  refine ⟨hstate.symm, fun hid => by simp [profile_of_draft, hid], fun id hid => ?_, rfl,
    fun hsound => ⟨?_, profile_of_draft_identity hprivate⟩⟩
  · simp only [hid, Option.isSome_some, Option.bind_some, Bool.true_and, Bool.not_eq_true,
      Option.isNone_eq_false_iff] at hexists
    obtain ⟨existing, hexisting⟩ := Option.isSome_iff_exists.mp hexists
    have hfound := (find_host_some hexisting).2
    exact ⟨by simp [profile_of_draft, hid, hexisting, hfound], existing, hexisting⟩
  · cases hexisting : draft.id.bind (find_host state.hosts) with
    | none => exact ⟨new_uuid, by simp [profile_of_draft]⟩
    | some existing =>
      obtain ⟨id, _, hfind⟩ := Option.bind_eq_some_iff.mp hexisting
      obtain ⟨uuid, huuid⟩ := (hsound existing (find_host_some hfind).1).id_uuid
      exact ⟨uuid, by simp [profile_of_draft, huuid]⟩

/-- Hosts with the ids `ids` were added or replaced, nothing else changed. -/
structure HostsAdded (ids : List Text) (state state' : PersistedState) : Prop where
  others : ∀ x ∉ ids, find_host state'.hosts x = find_host state.hosts x
  settings : state'.settings = state.settings
  sound : HostsSound state.hosts → HostsSound state'.hosts

theorem HostsAdded.nil (state : PersistedState) : HostsAdded [] state state :=
  ⟨fun _ _ => rfl, rfl, id⟩

theorem HostsAdded.append {ids ids' : List Text} {a b c : PersistedState}
    (hab : HostsAdded ids a b) (hbc : HostsAdded ids' b c) : HostsAdded (ids ++ ids') a c where
  others := fun x hx => by
    rw [List.mem_append, not_or] at hx
    rw [hbc.others x hx.2, hab.others x hx.1]
  settings := hbc.settings.trans hab.settings
  sound := fun h => hbc.sound (hab.sound h)

theorem HostsAdded.perm {ids ids' : List Text} {state state' : PersistedState}
    (h : HostsAdded ids state state') (hperm : ids'.Perm ids) : HostsAdded ids' state state' :=
  { h with others := fun x hx => h.others x fun hmem => hx (hperm.mem_iff.mpr hmem) }

theorem HostsAdded.touched {ids : List Text} {state state' : PersistedState}
    (h : HostsAdded ids state state') : Touched ids state.hosts state'.hosts where
  direct := fun x hx host hfind _ => by rw [h.others x hx, hfind]
  jumps := fun x hx host r hfind _ => by
    rw [h.others x hx] at hfind
    exact .inr hfind

theorem DraftApplied.added {new_uuid : Uuid} {draft : HostDraft} {state state' : PersistedState}
    {profile : HostProfile} (h : DraftApplied new_uuid draft state state' profile) :
    HostsAdded [profile.id] state state' where
  others := fun x hx => by
    rw [h.state_eq, find_host_upsert, if_neg (by simpa using hx)]
  settings := by rw [h.state_eq]
  sound := fun hsound => by
    rw [h.state_eq]
    exact hsound.upsert (h.sound hsound)

theorem apply_host_drafts_ok {env : Env} {k : Nat} {state state' : PersistedState}
    {drafts : List HostDraft} {ids : List Text}
    (h : apply_host_drafts env k state drafts = .ok (state', ids)) :
    HostsAdded ids state state' := by
  induction drafts generalizing k state ids with
  | nil =>
    simp only [apply_host_drafts, Except.ok.injEq, Prod.mk.injEq] at h
    obtain ⟨rfl, rfl⟩ := h
    exact .nil state
  | cons draft drafts ih =>
    simp only [apply_host_drafts, Outcome.ite_error_eq_ok, Outcome.bind_eq_ok,
      Except.ok.injEq, Prod.mk.injEq, Prod.exists] at h
    obtain ⟨_, next, profile, hdraft, rest, ids, hrest, rfl, rfl⟩ := h
    exact (apply_host_draft_ok hdraft).added.append (ih hrest)

theorem apply_batch_hosts_ok {env : Env} {k : Nat} {state state' : PersistedState}
    {hosts : List ImportBatchHost} {imported imported' : List (Text × Text)}
    (h : apply_batch_hosts env k state imported hosts = .ok (state', imported')) :
    ∃ added, imported'.Perm (added ++ imported) ∧ HostsAdded (added.map Prod.snd) state state' := by
  induction hosts generalizing k state imported with
  | nil =>
    simp only [apply_batch_hosts, Except.ok.injEq, Prod.mk.injEq] at h
    obtain ⟨rfl, rfl⟩ := h
    exact ⟨[], List.Perm.refl _, .nil state⟩
  | cons planned hosts ih =>
    simp only [apply_batch_hosts, Outcome.ite_error_eq_ok, Outcome.bind_eq_ok,
      Prod.exists] at h
    obtain ⟨_, _, _, _, next, profile, hdraft, hrest⟩ := h
    obtain ⟨added, hperm, hadded⟩ := ih hrest
    refine ⟨(planned.source_id, profile.id) :: added, hperm.trans List.perm_middle, ?_⟩
    exact (apply_host_draft_ok hdraft).added.append hadded

theorem settle_proxy_jumps_ok {ids : List Text} {state state' : PersistedState}
    (h : settle_proxy_jumps ids state = .ok state') (hsound : HostsSound state.hosts) :
    Normalized ids state.hosts state'.hosts ∧ (∀ x ∈ ids, RoleKept state'.hosts x) ∧
      state'.settings = state.settings := by
  simp only [settle_proxy_jumps, Outcome.bind_eq_ok, Except.ok.injEq] at h
  obtain ⟨hosts, hnorm, _, hroles, rfl⟩ := h
  have hn := normalize_proxy_jumps_ok hnorm
  exact ⟨hn, validate_proxy_jump_roles_ok (hn.sound hsound) hroles, rfl⟩

/-! ### What the mutations keep -/

/-- The part of the invariant that validation does not check. -/
structure StateSound (deleting_hosts : Finset Text) (state : PersistedState) : Prop where
  hosts : HostsSound state.hosts
  jumps : ∀ x, JumpResolved state.hosts x
  kept : ∀ x host r, find_host state.hosts x = some host → host.proxy_jump = some r →
    r ∉ deleting_hosts
  settings : SettingsInBounds state.settings

variable {deleting_hosts : Finset Text} {state state' : PersistedState}

/-- The invariant does not mention tunnels, commands or the import history. -/
theorem StateSound.of_hosts (h : StateSound deleting_hosts state)
    (hhosts : state'.hosts = state.hosts) (hsettings : state'.settings = state.settings) :
    StateSound deleting_hosts state' where
  hosts := hhosts ▸ h.hosts
  jumps := hhosts ▸ h.jumps
  kept := hhosts ▸ h.kept
  settings := hsettings ▸ h.settings

/-- Adding hosts while no host is being deleted. -/
theorem StateSound.add_hosts (h : StateSound ∅ state) {ids : List Text} {added : PersistedState}
    (hadded : HostsAdded ids state added) (hsettle : settle_proxy_jumps ids added = .ok state') :
    StateSound ∅ state' := by
  obtain ⟨hnorm, hroles, hsettings⟩ := settle_proxy_jumps_ok hsettle (hadded.sound h.hosts)
  refine ⟨hnorm.sound (hadded.sound h.hosts), ?_, by simp, ?_⟩
  · exact jumps_resolved_of_touched h.jumps hadded.touched hnorm hroles
  · rw [hsettings, hadded.settings]
    exact h.settings

theorem redirect_id (dropped : Option Text) (host_id : Text) (host : HostProfile) :
    (redirect dropped host_id host).id = host.id := by
  unfold redirect
  split <;> rfl

theorem redirect_sound {dropped : Option Text} {host_id : Text} {host : HostProfile}
    (h : HostSound host) : HostSound (redirect dropped host_id host) := by
  unfold redirect
  split
  · exact h.with_jump _
  · exact h

/-- A redirected host with a jump jumps to the renamed host, or is as before. -/
theorem redirect_jump {dropped : Option Text} {host_id r : Text} {host : HostProfile}
    (h : (redirect dropped host_id host).proxy_jump = some r) :
    (dropped.isSome ∧ r = host_id) ∨ redirect dropped host_id host = host := by
  unfold redirect at *
  split at h
  case isTrue hdropped =>
    rw [Option.any_eq_true] at hdropped
    obtain ⟨previous, hprevious, _⟩ := hdropped
    exact .inl ⟨by simp [hprevious], by simpa using h.symm⟩
  case isFalse hkeep => exact .inr (if_neg hkeep)

theorem redirect_direct {dropped : Option Text} {host_id : Text} {host : HostProfile}
    (h : host.proxy_jump = none) : redirect dropped host_id host = host := by
  simp [redirect, h]

/-- The alias that an update drops, from the draft and the hosts before. -/
def renamed_from (hosts : List HostProfile) (draft : HostDraft) : Option Text :=
  dropped_alias ((draft.id.bind (find_host hosts)).map HostProfile.alias) draft.alias.trim

/-- What an accepted update of one host does to the state. -/
structure HostUpdated (new_uuid : Uuid) (draft : HostDraft) (state state' : PersistedState)
    (profile : HostProfile) : Prop where
  settings : state'.settings = state.settings
  hosts : HostsSound state'.hosts
  found : find_host state'.hosts profile.id = some profile
  resolved : JumpResolved state'.hosts profile.id
  role : RoleKept state'.hosts profile.id
  id_new : draft.id = none → profile.id = new_uuid.to_string
  id_edited : ∀ id, draft.id = some id →
    profile.id = id ∧ ∃ existing, find_host state.hosts id = some existing
  others : ∀ x, x ≠ profile.id → find_host state'.hosts x =
    (find_host state.hosts x).map (redirect (renamed_from state.hosts draft) profile.id)

theorem apply_host_update_ok {new_uuid : Uuid} {now : Timestamp} {draft : HostDraft}
    {saved : HostProfile} (hsound : HostsSound state.hosts)
    (h : apply_host_update new_uuid now state draft = .ok (state', saved)) :
    HostUpdated new_uuid draft state state' saved := by
  simp only [apply_host_update, Outcome.bind_eq_ok, Except.ok.injEq, Prod.mk.injEq,
    Prod.exists] at h
  obtain ⟨applied, profile, hdraft, hosts, hnorm, _, hrole, rfl, rfl⟩ := h
  have hd := apply_host_draft_ok hdraft
  have hn := normalize_proxy_jump_for_ok hnorm
  have hhosts : HostsSound hosts :=
    hn.sound ((hd.added.sound hsound).map fun _ => redirect_sound)
  obtain ⟨found, hfound, hunused⟩ := validate_proxy_jump_role_ok hhosts hrole
  have hid : found.id = profile.id := (find_host_some hfound).2
  refine ⟨hd.added.settings, hhosts, ?_, ?_, ?_, ?_, ?_, ?_⟩
  all_goals simp only [hfound, Option.getD_some, hid]
  · exact hn.resolved _ (List.mem_singleton_self _)
  · exact ⟨found, hfound, hunused⟩
  · exact hd.id_new
  · exact hd.id_edited
  · intro x hx
    rw [hn.others x (by simpa using hx), find_host_map (redirect_id _ _),
      hd.added.others x (by simpa using hx), hd.alias_eq, renamed_from]

theorem HostUpdated.touched {new_uuid : Uuid} {draft : HostDraft} {profile : HostProfile}
    (h : HostUpdated new_uuid draft state state' profile) :
    Touched [profile.id] state.hosts state'.hosts where
  direct := fun x hx host hfind hdirect => by
    rw [h.others x (by simpa using hx), hfind, Option.map_some, redirect_direct hdirect]
  jumps := fun x hx host r hfind hjump => by
    rw [h.others x (by simpa using hx), Option.map_eq_some_iff] at hfind
    obtain ⟨old, hold, rfl⟩ := hfind
    rcases redirect_jump hjump with ⟨_, rfl⟩ | hsame
    · exact .inl (List.mem_singleton_self _)
    · exact .inr (by rw [hold, hsame])

/-- Updating a host that is not being deleted, with a jump that is not. -/
theorem StateSound.update_host (h : StateSound deleting_hosts state) {new_uuid : Uuid}
    {draft : HostDraft} {profile : HostProfile}
    (hupdated : HostUpdated new_uuid draft state state' profile)
    (hdraft : ∀ id, draft.id = some id → id ∉ deleting_hosts)
    (hkept : ensure_jump_kept deleting_hosts state'.hosts profile = .ok ()) :
    StateSound deleting_hosts state' := by
  have hresolved : ∀ x ∈ [profile.id], JumpResolved state'.hosts x := by
    simpa using hupdated.resolved
  have hjumps := jumps_resolved_of_touched h.jumps hupdated.touched (Normalized.self hresolved)
    (by simpa using hupdated.role)
  refine ⟨hupdated.hosts, hjumps, fun x host r hfind hjump => ?_, hupdated.settings ▸ h.settings⟩
  by_cases hx : x = profile.id
  · -- the saved host: its jump was looked up among the hosts being deleted
    subst hx
    obtain rfl : profile = host := Option.some.inj (hupdated.found ▸ hfind)
    obtain ⟨_, jump, htarget, _⟩ := hupdated.resolved profile r hfind hjump
    rw [ensure_jump_kept, resolve_proxy_jump_resolved hupdated.hosts hfind hupdated.resolved, hjump,
      Option.bind_some, htarget, Outcome.ok_bind, Outcome.ite_error_eq_ok] at hkept
    simpa [(find_host_some htarget).2] using hkept.1
  · rw [hupdated.others x hx, Option.map_eq_some_iff] at hfind
    obtain ⟨old, hold, rfl⟩ := hfind
    rcases redirect_jump hjump with ⟨hdropped, rfl⟩ | hsame
    · -- redirected to the saved host, which is being edited
      obtain ⟨id, hid⟩ : ∃ id, draft.id = some id := by
        cases hid : draft.id with
        | none => simp [renamed_from, dropped_alias, hid] at hdropped
        | some id => exact ⟨id, rfl⟩
      rw [(hupdated.id_edited id hid).1]
      exact hdraft id hid
    · exact h.kept x old r hold (hsame ▸ hjump)

/-- Removing a host that no other host jumps to. -/
theorem StateSound.remove_host (h : StateSound deleting_hosts state) {host_id : Text}
    (hremove : remove_host host_id state = .ok state') : StateSound deleting_hosts state' := by
  simp only [Store.remove_host, Outcome.bind_eq_ok, Outcome.ite_error_eq_ok,
    Except.ok.injEq] at hremove
  obtain ⟨_, hunused, _, rfl⟩ := hremove
  simp only [validate_host_deletion_state, Outcome.bind_eq_ok, Option.ok_or_eq_ok,
    Outcome.ite_error_eq_ok] at hunused
  obtain ⟨removed, hremoved, hunused, _⟩ := hunused
  have hfind : ∀ x, find_host (state.hosts.filter fun host => host.id ≠ host_id) x =
      if x = host_id then none else find_host state.hosts x := find_host_filter host_id
  refine ⟨fun host hmem => h.hosts host (List.mem_filter.mp hmem).1, ?_, ?_, h.settings⟩
  · intro x host r hx hjump
    rw [hfind] at hx
    by_cases hxid : x = host_id
    · simp [hxid] at hx
    rw [if_neg hxid] at hx
    obtain ⟨hne, jump, htarget, hdirect⟩ := h.jumps x host r hx hjump
    refine ⟨hne, jump, ?_, hdirect⟩
    rw [hfind, if_neg, htarget]
    rintro rfl
    obtain ⟨hmem, hid⟩ := find_host_some hx
    have hmatch := proxy_reference_matches_id (h.hosts.find hremoved) (find_host_some hremoved).2
    exact hunused (List.any_eq_true.mpr ⟨host, hmem, by simp [hid, hxid, hjump, hmatch]⟩)
  · intro x host r hx
    rw [hfind] at hx
    by_cases hxid : x = host_id
    · simp [hxid] at hx
    · exact h.kept x host r (by rwa [if_neg hxid] at hx)

theorem apply_tunnel_draft_frame {new_uuid : Uuid} {now : Timestamp} {draft : TunnelDraft}
    {profile : TunnelProfile}
    (h : apply_tunnel_draft new_uuid now state draft = .ok (state', profile)) :
    state'.hosts = state.hosts ∧ state'.settings = state.settings := by
  simp only [apply_tunnel_draft, Outcome.bind_eq_ok, Outcome.ite_error_eq_ok,
    Except.ok.injEq, Prod.mk.injEq] at h
  obtain ⟨_, _, _, _, _, rfl, _⟩ := h
  exact ⟨rfl, rfl⟩

theorem apply_command_draft_frame {new_uuid : Uuid} {now : Timestamp} {draft : CommandPresetDraft}
    {command : CommandPreset}
    (h : apply_command_draft new_uuid now state draft = .ok (state', command)) :
    state'.hosts = state.hosts ∧ state'.settings = state.settings := by
  simp only [apply_command_draft, Outcome.bind_eq_ok, Outcome.ite_error_eq_ok,
    Except.ok.injEq, Prod.mk.injEq] at h
  obtain ⟨_, _, _, _, _, rfl, _⟩ := h
  exact ⟨rfl, rfl⟩

theorem StateSound.add_tunnels (h : StateSound deleting_hosts state) {env : Env} {k : Nat}
    {resolve : ImportHostReference → AppResult Text} {tunnels : List ImportBatchTunnel}
    (happly : apply_batch_tunnels env resolve k state tunnels = .ok state') :
    StateSound deleting_hosts state' := by
  induction tunnels generalizing k state with
  | nil =>
    rw [apply_batch_tunnels, Except.ok.injEq] at happly
    exact happly ▸ h
  | cons planned tunnels ih =>
    simp only [apply_batch_tunnels, Outcome.ite_error_eq_ok, Outcome.bind_eq_ok,
      Prod.exists] at happly
    obtain ⟨_, _, _, next, _, hdraft, hrest⟩ := happly
    obtain ⟨hhosts, hsettings⟩ := apply_tunnel_draft_frame hdraft
    exact ih (h.of_hosts hhosts hsettings) hrest

theorem StateSound.add_commands (h : StateSound deleting_hosts state) {env : Env} {k : Nat}
    {resolve : ImportHostReference → AppResult Text} {commands : List ImportBatchCommand}
    (happly : apply_batch_commands env resolve k state commands = .ok state') :
    StateSound deleting_hosts state' := by
  induction commands generalizing k state with
  | nil =>
    rw [apply_batch_commands, Except.ok.injEq] at happly
    exact happly ▸ h
  | cons planned commands ih =>
    simp only [apply_batch_commands, Outcome.ite_error_eq_ok, Outcome.bind_eq_ok,
      Prod.exists] at happly
    obtain ⟨_, _, _, next, _, hdraft, hrest⟩ := happly
    obtain ⟨hhosts, hsettings⟩ := apply_command_draft_frame hdraft
    exact ih (h.of_hosts hhosts hsettings) hrest

theorem StateSound.apply_batch (h : StateSound ∅ state) {env : Env} {batch : ImportBatch}
    {result : ImportBatchResult} (happly : apply_batch env batch state = .ok (state', result)) :
    StateSound ∅ state' := by
  simp only [Store.apply_batch, Outcome.bind_eq_ok, Except.ok.injEq, Prod.mk.injEq,
    Prod.exists] at happly
  obtain ⟨added, imported, hhosts, settled, hsettle, tunneled, htunnels, commanded, hcommands,
    settings, hsettings, rfl, _⟩ := happly
  obtain ⟨new, hperm, hadded⟩ := apply_batch_hosts_ok hhosts
  rw [List.append_nil] at hperm
  have horder := (env.hash_order_perm _).trans (hperm.map Prod.snd)
  have h1 := h.add_hosts (hadded.perm horder) hsettle
  have h2 := (h1.add_tunnels htunnels).add_commands hcommands
  refine { h2 with settings := ?_ }
  cases hpatch : batch.settings with
  | none =>
    rw [hpatch, apply_batch_settings, Except.ok.injEq] at hsettings
    exact hsettings ▸ h2.settings
  | some patch =>
    rw [hpatch] at hsettings
    exact apply_settings_patch_in_bounds hsettings h2.settings

/-! ### Runs -/

/-- The invariant of the repository. -/
structure Invariant (repo : Repository) : Prop where
  validated : Validated repo.state
  sound : StateSound repo.deleting_hosts repo.state

theorem invariant_default : Invariant .default where
  validated := by constructor <;> simp [Repository.default, PersistedState.default]
  sound :=
    { hosts := by simp [HostsSound, Repository.default, PersistedState.default]
      jumps := by simp [JumpResolved, find_host, Repository.default, PersistedState.default]
      kept := by simp [Repository.default]
      settings := default_settings_in_bounds }

/-- A commit fails and changes nothing, or assigns the changed clone, which
    was validated. -/
theorem commit_cases {α : Type} (repo : Repository) (env : Env)
    (change : PersistedState → AppResult (PersistedState × α)) :
    (∃ e, repo.commit env change = (repo, .error e)) ∨
      ∃ state value, change repo.state = .ok (state, value) ∧ Validated state ∧
        repo.commit env change = ({ repo with state := state }, .ok value) := by
  unfold Repository.commit
  cases hchange : change repo.state with
  | error e => exact .inl ⟨e, rfl⟩
  | ok changed =>
    obtain ⟨state, value⟩ := changed
    cases hpersist : persist_locked env state with
    | error e => exact .inl ⟨e, by simp [hpersist]⟩
    | ok _ =>
      obtain ⟨_, hvalid, _⟩ := Outcome.bind_eq_ok.mp hpersist
      exact .inr ⟨state, value, rfl, validate_persisted_state_ok hvalid, by simp [hpersist]⟩

/-- A commit keeps the invariant if the change keeps what is not validated. -/
theorem Invariant.commit {α : Type} {repo : Repository} (h : Invariant repo) {env : Env}
    {change : PersistedState → AppResult (PersistedState × α)}
    (hchange : ∀ state value, change repo.state = .ok (state, value) →
      StateSound repo.deleting_hosts state) :
    Invariant (repo.commit env change).1 := by
  rcases commit_cases repo env change with ⟨e, hcommit⟩ | ⟨state, value, hok, hvalid, hcommit⟩
  · rw [hcommit]
    exact h
  · rw [hcommit]
    exact ⟨hvalid, hchange state value hok⟩

/-- Hosts that are no longer being deleted are no constraint. -/
theorem Invariant.release {repo : Repository} (h : Invariant repo) (host_id : Text) :
    Invariant (repo.abort_host_deletion host_id) where
  validated := h.validated
  sound := { h.sound with
    kept := fun x host r hx hjump hmem =>
      h.sound.kept x host r hx hjump (Finset.mem_of_mem_erase hmem) }

theorem Invariant.begin_host_deletion {repo : Repository} (h : Invariant repo) (host_id : Text) :
    Invariant (repo.begin_host_deletion host_id).1 := by
  unfold Repository.begin_host_deletion
  split
  · exact h
  cases hvalid : validate_host_deletion_state repo.state host_id with
  | error e => exact h
  | ok _ =>
    refine ⟨h.validated, { h.sound with kept := fun x host r hx hjump hmem => ?_ }⟩
    rcases Finset.mem_insert.mp hmem with rfl | hmem
    · simp only [validate_host_deletion_state, Outcome.bind_eq_ok, Option.ok_or_eq_ok,
        Outcome.ite_error_eq_ok] at hvalid
      obtain ⟨removed, hremoved, hunused, _⟩ := hvalid
      obtain ⟨hmem, hid⟩ := find_host_some hx
      have hne := (h.sound.jumps x host r hx hjump).1.symm
      have hmatch :=
        proxy_reference_matches_id (h.sound.hosts.find hremoved) (find_host_some hremoved).2
      exact hunused (List.any_eq_true.mpr ⟨host, hmem, by simp [hid, hne, hjump, hmatch]⟩)
    · exact h.sound.kept x host r hx hjump hmem

theorem Invariant.save_host {repo : Repository} (h : Invariant repo) (env : Env)
    (draft : HostDraft) : Invariant (repo.save_host env draft).1 := by
  unfold Repository.save_host
  split
  case isTrue => exact h
  case isFalse hdraft =>
    refine h.commit fun state value hok => ?_
    simp only [Outcome.bind_eq_ok, Except.ok.injEq, Prod.mk.injEq, Prod.exists] at hok
    obtain ⟨state, profile, hupdate, _, hkept, rfl, rfl⟩ := hok
    refine h.sound.update_host (apply_host_update_ok h.sound.hosts hupdate) (fun id hid => ?_) hkept
    simpa [hid] using hdraft

theorem Invariant.import_hosts {repo : Repository} (h : Invariant repo) (env : Env)
    (drafts : List HostDraft) : Invariant (repo.import_hosts env drafts).1 := by
  unfold Repository.import_hosts
  split
  · exact h
  split
  case isTrue => exact h
  case isFalse hempty =>
    refine h.commit fun state value hok => ?_
    rw [Finset.not_nonempty_iff_eq_empty] at hempty
    simp only [Outcome.bind_eq_ok, Except.ok.injEq, Prod.mk.injEq, Prod.exists] at hok
    obtain ⟨added, ids, hdrafts, settled, hsettle, rfl, _⟩ := hok
    have hsound := h.sound
    rw [hempty] at hsound ⊢
    exact hsound.add_hosts (apply_host_drafts_ok hdrafts) hsettle

theorem Invariant.import_batch {repo : Repository} (h : Invariant repo) (env : Env)
    (batch : ImportBatch) : Invariant (repo.import_batch env batch).1 := by
  unfold Repository.import_batch
  split
  · exact h
  split
  case isTrue => exact h
  case isFalse hempty =>
    split
    · exact h
    split
    · exact h
    refine h.commit fun state value hok => ?_
    rw [Finset.not_nonempty_iff_eq_empty] at hempty
    have hsound := h.sound
    rw [hempty] at hsound ⊢
    exact hsound.apply_batch hok

/-- **Step lemma**: every operation keeps the invariant. -/
theorem Invariant.run {repo : Repository} (h : Invariant repo) (env : Env) (op : Operation) :
    Invariant (repo.run env op).1 := by
  cases op with
  | save_host draft => exact h.save_host env draft
  | import_hosts drafts => exact h.import_hosts env drafts
  | import_batch batch => exact h.import_batch env batch
  | begin_host_deletion host_id => exact h.begin_host_deletion host_id
  | finish_host_deletion host_id =>
    simp only [Repository.run, Repository.finish_host_deletion]
    split
    · exact h
    · refine Invariant.release (h.commit fun state value hok => ?_) host_id
      simp only [Outcome.bind_eq_ok, Except.ok.injEq, Prod.mk.injEq] at hok
      obtain ⟨state, hremove, rfl, _⟩ := hok
      exact h.sound.remove_host hremove
  | abort_host_deletion host_id => exact h.release host_id
  | save_tunnel draft =>
    simp only [Repository.run, Repository.save_tunnel, Prod.map_fst, id_eq]
    split
    · exact h
    · refine h.commit fun state value hok => ?_
      obtain ⟨hhosts, hsettings⟩ := apply_tunnel_draft_frame hok
      exact h.sound.of_hosts hhosts hsettings
  | delete_tunnel tunnel_id =>
    refine h.commit fun state value hok => ?_
    simp only [Outcome.ite_error_eq_ok, Except.ok.injEq, Prod.mk.injEq] at hok
    obtain ⟨_, rfl, _⟩ := hok
    exact h.sound.of_hosts rfl rfl
  | save_command draft =>
    simp only [Repository.run, Repository.save_command, Prod.map_fst, id_eq]
    split
    · exact h
    · refine h.commit fun state value hok => ?_
      obtain ⟨hhosts, hsettings⟩ := apply_command_draft_frame hok
      exact h.sound.of_hosts hhosts hsettings
  | delete_command_for_host command_id host_id =>
    simp only [Repository.run, Repository.delete_command_for_host]
    split
    · exact h
    · refine h.commit fun state value hok => ?_
      simp only [Outcome.ite_error_eq_ok, Outcome.bind_eq_ok, Except.ok.injEq,
        Prod.mk.injEq] at hok
      obtain ⟨_, _, _, _, rfl, _⟩ := hok
      exact h.sound.of_hosts rfl rfl
  | update_settings patch =>
    simp only [Repository.run, Repository.update_settings, Prod.map_fst, id_eq]
    refine h.commit fun state value hok => ?_
    simp only [Outcome.bind_eq_ok, Except.ok.injEq, Prod.mk.injEq] at hok
    obtain ⟨settings, hpatch, rfl, _⟩ := hok
    exact { h.sound with settings := apply_settings_patch_in_bounds hpatch h.sound.settings }

/-- **Run lemma**: the invariant holds in every reachable repository. -/
theorem reachable_invariant {repo : Repository} (h : repository.Reachable repo) :
    Invariant repo := by
  refine h.invariant ?_ ?_
  · rintro repo rfl
    exact invariant_default
  · rintro repo ⟨env, op⟩ repo' hinv _ hstep
    obtain rfl := Option.some.inj hstep
    exact hinv.run env op

/-! ### Consistency and atomicity -/

/-- What holds of the records of every reachable repository. -/
structure Consistent (state : PersistedState) : Prop where
  host_ids : state.hosts.Pairwise fun a b => a.id ≠ b.id
  aliases : state.hosts.Pairwise fun a b =>
    a.alias.to_ascii_lowercase ≠ b.alias.to_ascii_lowercase
  tunnel_hosts : ∀ tunnel ∈ state.tunnels, ∃ host ∈ state.hosts, host.id = tunnel.host_id
  command_hosts : ∀ command ∈ state.command_presets, ∀ host_id, command.host_id = some host_id →
    ∃ host ∈ state.hosts, host.id = host_id
  tunnel_names : state.tunnels.Pairwise fun a b => a.host_id = b.host_id →
    a.name.to_ascii_lowercase ≠ b.name.to_ascii_lowercase
  command_names : state.command_presets.Pairwise fun a b => a.host_id = b.host_id →
    a.name.to_ascii_lowercase ≠ b.name.to_ascii_lowercase
  proxy_jumps : ∀ host ∈ state.hosts, ∀ r, host.proxy_jump = some r →
    ∃ jump ∈ state.hosts, jump.id = r ∧ jump.id ≠ host.id ∧ jump.proxy_jump = none
  identity_files : ∀ host ∈ state.hosts,
    host.identity_file.isSome = true ↔ host.auth_method = .PrivateKey
  settings : SettingsInBounds state.settings

theorem Invariant.consistent {repo : Repository} (h : Invariant repo) :
    Consistent repo.state where
  host_ids := h.validated.hosts_differ.imp And.left
  aliases := h.validated.hosts_differ.imp And.right
  tunnel_hosts := h.validated.tunnel_hosts
  command_hosts := h.validated.command_hosts
  tunnel_names := h.validated.tunnels_differ.imp And.right
  command_names := h.validated.commands_differ.imp And.right
  proxy_jumps := fun host hmem r hjump => by
    have hfind := find_host_of_mem h.validated.hosts_differ hmem
    obtain ⟨hne, jump, htarget, hdirect⟩ := h.sound.jumps host.id host r hfind hjump
    obtain ⟨hjumpmem, rfl⟩ := find_host_some htarget
    exact ⟨jump, hjumpmem, rfl, hne, hdirect⟩
  identity_files := fun host hmem => (h.sound.hosts host hmem).identity
  settings := h.sound.settings

/-- An operation that fails leaves the repository as it was. -/
def FailsClean {α : Type} (repo : Repository) (after : Repository × AppResult α) : Prop :=
  ∀ e, after.2 = .error e → after.1 = repo

theorem failsClean_same {α : Type} (repo : Repository) (result : AppResult α) :
    FailsClean repo (repo, result) :=
  fun _ _ => rfl

theorem failsClean_commit {α : Type} (repo : Repository) (env : Env)
    (change : PersistedState → AppResult (PersistedState × α)) :
    FailsClean repo (repo.commit env change) := by
  intro e h
  rcases commit_cases repo env change with ⟨_, hcommit⟩ | ⟨_, _, _, _, hcommit⟩
  · rw [hcommit]
  · simp [hcommit] at h

/-- Forgetting the value of a result forgets no failure. -/
theorem FailsClean.forget {α : Type} {repo : Repository} {after : Repository × AppResult α}
    (h : FailsClean repo after) : FailsClean repo (after.map id fun r => r.map fun _ => ()) := by
  obtain ⟨repo', result⟩ := after
  cases result with
  | error e => exact fun e' _ => h e rfl
  | ok value => exact fun e' h' => by simp [Except.map] at h'

theorem failsClean_guard {α : Type} {repo : Repository} {refuse : Prop} [Decidable refuse]
    {result : AppResult α} {after : Repository × AppResult α} (h : FailsClean repo after) :
    FailsClean repo (if refuse then (repo, result) else after) := by
  split
  · exact failsClean_same repo result
  · exact h

theorem begin_host_deletion_failsClean (repo : Repository) (host_id : Text) :
    FailsClean repo (repo.begin_host_deletion host_id) := by
  refine failsClean_guard ?_
  split
  · exact failsClean_same repo _
  · exact fun e h => by simp at h

theorem import_batch_failsClean (repo : Repository) (env : Env) (batch : ImportBatch) :
    FailsClean repo (repo.import_batch env batch) := by
  unfold Repository.import_batch
  split
  · exact failsClean_same repo _
  · refine failsClean_guard (failsClean_guard (failsClean_guard ?_))
    exact failsClean_commit repo env _

/-- Every operation but one fails clean; `finish_host_deletion` still
    releases its reservation. -/
theorem run_failsClean (repo : Repository) (env : Env) (op : Operation) :
    FailsClean repo (repo.run env op) ∨
      ∃ host_id, op = .finish_host_deletion host_id ∧
        (FailsClean repo (repo.run env op) ∨
          FailsClean (repo.abort_host_deletion host_id) (repo.run env op)) := by
  cases op with
  | save_host draft =>
    have hclean : FailsClean repo (repo.save_host env draft) :=
      failsClean_guard (failsClean_commit repo env _)
    exact .inl hclean.forget
  | import_hosts drafts =>
    have hclean : FailsClean repo (repo.import_hosts env drafts) :=
      failsClean_guard (failsClean_guard (failsClean_commit repo env _))
    exact .inl hclean.forget
  | import_batch batch => exact .inl (import_batch_failsClean repo env batch).forget
  | begin_host_deletion host_id => exact .inl (begin_host_deletion_failsClean repo host_id)
  | finish_host_deletion host_id =>
    refine .inr ⟨host_id, rfl, ?_⟩
    simp only [Repository.run, Repository.finish_host_deletion]
    split
    · exact .inl (failsClean_same repo _)
    · refine .inr fun e h => ?_
      simp only [failsClean_commit repo env _ e h, Repository.delete_host_locked,
        Repository.abort_host_deletion]
  | abort_host_deletion host_id => exact .inl fun e h => by simp [Repository.run] at h
  | save_tunnel draft =>
    have hclean : FailsClean repo (repo.save_tunnel env draft) :=
      failsClean_guard (failsClean_commit repo env _)
    exact .inl hclean.forget
  | delete_tunnel tunnel_id => exact .inl (failsClean_commit repo env _)
  | save_command draft =>
    have hclean : FailsClean repo (repo.save_command env draft) :=
      failsClean_guard (failsClean_commit repo env _)
    exact .inl hclean.forget
  | delete_command_for_host command_id host_id =>
    exact .inl (failsClean_guard (failsClean_commit repo env _))
  | update_settings patch => exact .inl (failsClean_commit repo env _).forget

/-- **Repository invariant**: in every reachable repository the records are
    consistent, and an operation that fails leaves the persisted state, and
    but for the reservation that `finish_host_deletion` releases also the
    hosts being deleted, exactly as they were. -/
theorem repository_consistent {repo : Repository} (h : repository.Reachable repo) :
    Consistent repo.state ∧
      ∀ env op e, (repo.run env op).2 = .error e →
        (repo.run env op).1.state = repo.state ∧
          ((∀ host_id, op ≠ .finish_host_deletion host_id) →
            (repo.run env op).1.deleting_hosts = repo.deleting_hosts) := by
  refine ⟨(reachable_invariant h).consistent, fun env op e he => ?_⟩
  rcases run_failsClean repo env op with hclean | ⟨host_id, rfl, hclean | hclean⟩
  · rw [hclean e he]
    exact ⟨rfl, fun _ => rfl⟩
  · rw [hclean e he]
    exact ⟨rfl, fun _ => rfl⟩
  · rw [hclean e he]
    exact ⟨rfl, fun hne => (hne host_id rfl).elim⟩

/-! ### A run -/

/-- Surroundings in which writes succeed and identifiers count up. -/
def Env.counting (first : Nat) : Env where
  new_uuid := fun k => BitVec.ofNat 128 (first + k)
  now := fun k => k
  write := .ok ()
  hash_order := id
  hash_order_perm := fun _ => .refl _

/-- A draft with an alias, perhaps an id and a jump, and otherwise defaults. -/
def HostDraft.plain (id : Option Text) (host_alias : Text) (proxy_jump : Option Text) : HostDraft where
  id := id
  «alias» := host_alias
  hostname := "host.example".toList
  port := 22
  username := "user".toList
  auth_method := none
  identity_file := none
  proxy_jump := proxy_jump
  default_workspace := none
  groups := []
  advanced := none
  monitor_enabled := none

/-- Two saved hosts, the second with a jump given by alias. -/
theorem repository_consistent_after_saves :
    ∃ repo : Repository, (repo.state.hosts.map HostProfile.alias = ["gate".toList, "lab".toList] ∧
      repo.state.hosts.map HostProfile.proxy_jump =
        [none, some "00000000-0000-0000-0000-000000000001".toList]) ∧ Consistent repo.state := by
  obtain ⟨repo, hreach, hp⟩ := Machine.reachable_of_replay (m := repository)
    (fun _ _ => true) (fun _ _ _ => trivial) rfl
    [(Env.counting 1, .save_host (HostDraft.plain none "gate".toList none)),
     (Env.counting 2, .save_host (HostDraft.plain none "lab".toList (some "Gate".toList)))]
    (fun repo => decide (repo.state.hosts.map HostProfile.alias = ["gate".toList, "lab".toList] ∧
      repo.state.hosts.map HostProfile.proxy_jump =
        [none, some "00000000-0000-0000-0000-000000000001".toList]))
    (by decide)
  exact ⟨repo, of_decide_eq_true hp, (repository_consistent hreach).1⟩

end Store
