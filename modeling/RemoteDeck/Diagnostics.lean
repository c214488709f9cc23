import RemoteDeck.Lib.Pretty
import RemoteDeck.Lib.Utf8
import RemoteDeck.Store.Invariant

/-! # Diagnostics

    What `diagnostics.rs` lets out: every entry of the archive goes through
    `redact` and a scan of the bytes.  `USERPROFILE` and the text of a double
    are parameters.

    This file defines:
    - `redact`, and `contains_secret_marker`, which is also the scan
    - `sanitized_json`, the bytes of an entry
    - `state_summary`, the entry about the repository

    `redact_clean` says what is gone after `redact`, `sanitized_json_iff` when
    the scan stops an entry, and `summary_words` that the summary is made of
    fixed words.
-/

namespace Diagnostics

open Replace

def MAX_ENTRY_BYTES : Nat := 4 * 1024 * 1024

/-! ### Markers -/

def KEY_BEGINS : Text := "-----begin ".toList
def KEY_ENDS : Text := "private key-----".toList

def MARKERS : List Text :=
  ["bearer ".toList, "sk-proj-".toList, "sk-ant-".toList, "ghp_".toList, "github_pat_".toList,
    "api_key=".toList, "apikey=".toList]

def contains_secret_marker (value : Text) : Bool :=
  (value.contains_text KEY_BEGINS && value.contains_text KEY_ENDS) || MARKERS.any value.contains_text

/-! ### Redaction -/

def REDACTED : Text := "[REDACTED]".toList

def SECRET_KEYS : List Text :=
  ["password".toList, "passphrase".toList, "token".toList, "authorization".toList, "apikey".toList,
    "api_key".toList, "privatekey".toList, "private_key".toList, "secret".toList]

def is_secret_key (key : Text) : Bool := SECRET_KEYS.any key.to_ascii_lowercase.contains_text

/-- The home is the value of `USERPROFILE`, if it is set. -/
def redact_string (home : Option Text) (value : Text) : Text :=
  if contains_secret_marker value.to_ascii_lowercase then REDACTED
  else match home with
    | some home => if home.isEmpty then value else replace home "%USERPROFILE%".toList value
    | none => value

theorem redact_string_eq (home : Option Text) (value : Text) : redact_string home value =
    if contains_secret_marker value.to_ascii_lowercase then REDACTED
    else match home with
      | some home => if home.isEmpty then value else replace home "%USERPROFILE%".toList value
      | none => value := rfl

mutual

def redact (home : Option Text) : Json → Json
  | .object members => .object (redact_object home members)
  | .array items => .array (redact_items home items)
  | .string value => .string (redact_string home value)
  | .null => .null
  | .bool value => .bool value
  | .number value => .number value

def redact_items (home : Option Text) : List Json → List Json
  | [] => []
  | item :: items => redact home item :: redact_items home items

def redact_object (home : Option Text) : List (Text × Json) → List (Text × Json)
  | [] => []
  | (key, value) :: members =>
      (key, if is_secret_key key then .string REDACTED else redact home value) :: redact_object home members

end

/-- A member after its object was redacted. -/
def redact_member (home : Option Text) (member : Text × Json) : Text × Json :=
  (member.1, if is_secret_key member.1 then .string REDACTED else redact home member.2)

theorem redact_member_snd (home : Option Text) (member : Text × Json) :
    (redact_member home member).2 =
      if is_secret_key member.1 then .string REDACTED else redact home member.2 := rfl

theorem redact_items_eq (home : Option Text) (items : List Json) :
    redact_items home items = items.map (redact home) := by
  induction items with
  | nil => rfl
  | cons item items ih => exact congrArg (redact home item :: ·) ih

theorem redact_object_eq (home : Option Text) (members : List (Text × Json)) :
    redact_object home members = members.map (redact_member home) := by
  induction members with
  | nil => rfl
  | cons member members ih => exact congrArg (redact_member home member :: ·) ih

theorem redact_text (home : Option Text) (value : Text) :
    redact home (.string value) = .string (redact_string home value) := rfl

theorem redact_array (home : Option Text) (items : List Json) :
    redact home (.array items) = .array (items.map (redact home)) :=
  congrArg Json.array (redact_items_eq home items)

theorem redact_members (home : Option Text) (members : List (Text × Json)) :
    redact home (.object members) = .object (members.map (redact_member home)) :=
  congrArg Json.object (redact_object_eq home members)

/-- The bytes of an entry of the archive. -/
def sanitized_json (repr : Float → Text) (home : Option Text) (value : Json) : AppResult (List UInt8) :=
  let text : Text := (redact home value).pretty repr 0
  if text.utf8.length > MAX_ENTRY_BYTES then
    .error (.State "diagnostics entry exceeds the 4 MiB safety limit".toList)
  else if contains_secret_marker text.to_ascii_lowercase then
    .error (.State "diagnostics secret scan failed closed".toList)
  else .ok text.utf8

/-! ### The summary of the repository -/

def AuthMethod.to_value : AuthMethod → Json
  | .Interactive => .string "interactive".toList
  | .PrivateKey => .string "private_key".toList
  | .Agent => .string "agent".toList

def TunnelDirection.to_value : TunnelDirection → Json
  | .Local => .string "local".toList
  | .Remote => .string "remote".toList

def TunnelHealthCheckKind.to_value : TunnelHealthCheckKind → Json
  | .None => .string "none".toList
  | .Tcp => .string "tcp".toList

def CommandRisk.to_value : CommandRisk → Json
  | .L0 => .string "L0".toList
  | .L1 => .string "L1".toList
  | .L2 => .string "L2".toList

def integer (n : Nat) : Json := .number (.int n)

/-- The members of an object stand in the order of their keys. -/
def SshAdvancedOptions.to_value (advanced : SshAdvancedOptions) : Json :=
  .object [("compression".toList, .bool advanced.compression),
    ("connectTimeoutSeconds".toList, integer advanced.connect_timeout_seconds),
    ("identitiesOnly".toList, .bool advanced.identities_only),
    ("serverAliveCountMax".toList, integer advanced.server_alive_count_max),
    ("serverAliveIntervalSeconds".toList, integer advanced.server_alive_interval_seconds),
    ("tcpKeepAlive".toList, .bool advanced.tcp_keep_alive)]

def command_summary (command : CommandPreset) : Json :=
  .object [("builtin".toList, .bool (command.id.starts_with "builtin:".toList)),
    ("hostScoped".toList, .bool command.host_id.isSome),
    ("requiresPty".toList, .bool command.requires_pty),
    ("requiresSudo".toList, .bool command.requires_sudo),
    ("risk".toList, CommandRisk.to_value command.risk)]

def host_summary (host : HostProfile) : Json :=
  .object [("advanced".toList, SshAdvancedOptions.to_value host.advanced),
    ("authMethod".toList, AuthMethod.to_value host.auth_method),
    ("groupCount".toList, integer host.groups.length),
    ("identityFileConfigured".toList, .bool host.identity_file.isSome),
    ("monitorEnabled".toList, .bool host.monitor_enabled),
    ("proxyJumpConfigured".toList, .bool host.proxy_jump.isSome)]

def settings_summary (settings : AppSettings) : Json :=
  .object [("autoReconnect".toList, .bool settings.auto_reconnect),
    ("btopRotationMinutes".toList, integer settings.btop_rotation_minutes),
    ("btopWatchdogEnabled".toList, .bool settings.btop_watchdog_enabled),
    ("closeToTray".toList, .bool settings.close_to_tray),
    ("defaultAgent".toList, .string settings.default_agent),
    ("downloadDirectoryConfigured".toList, .bool !settings.download_directory.isEmpty),
    ("launchAtLogin".toList, .bool settings.launch_at_login),
    ("logLevel".toList, .string settings.log_level),
    ("onboardingCompleted".toList, .bool settings.onboarding_completed),
    ("telemetryIntervalSeconds".toList, integer settings.telemetry_interval_seconds),
    ("telemetryRetentionMinutes".toList, integer settings.telemetry_retention_minutes),
    ("terminalFontSize".toList, integer settings.terminal_font_size)]

def tunnel_summary (tunnel : TunnelProfile) : Json :=
  .object [("autoReconnect".toList, .bool tunnel.auto_reconnect),
    ("autoStart".toList, .bool tunnel.auto_start),
    ("direction".toList, TunnelDirection.to_value tunnel.direction),
    ("healthCheck".toList, match tunnel.health_check with
      | some health => TunnelHealthCheckKind.to_value health.kind
      | none => .null)]

def state_summary (state : PersistedState) : Json :=
  .object [("commands".toList, .array (state.command_presets.map command_summary)),
    ("hosts".toList, .array (state.hosts.map host_summary)),
    ("importedSourceCount".toList, integer state.imported_source_hashes.length),
    ("schemaVersion".toList, integer state.schema_version),
    ("settings".toList, settings_summary state.settings),
    ("tunnels".toList, .array (state.tunnels.map tunnel_summary))]

/-! ### One string -/

def HOME : Text := "USERPROFILE".toList

/-- The home directory is a path of Windows without a percent sign. -/
def IsHome (home : Text) : Prop := '\\' ∈ home ∧ '%' ∉ home

variable {home : Option Text} {text value : Text}

/-- The parts of the markers. -/
def PARTS : List Text := KEY_BEGINS :: KEY_ENDS :: MARKERS

/-- What is written for the text has no part of a marker. -/
def harmless (text : Text) : Bool :=
  PARTS.all fun part => !Text.contains_text ((text.flatMap Json.escape).map Char.toLower) part

/-- A part has no percent sign, no quote and nothing of the name of the home,
    and a character that is not plain. -/
theorem part_facts : (contains_secret_marker REDACTED.to_ascii_lowercase = false ∧ harmless REDACTED = true) ∧
    ∀ part ∈ PARTS, Char.toLower '%' ∉ part ∧ Text.contains_text (HOME.map Char.toLower) part = false ∧
      '"' ∉ part ∧ (part.any fun c => !c.isDigit && !(Json.SYMBOLS.map Char.toLower).contains c) = true := by
  decide

/-- A replacement of the home brings no marker. -/
theorem part_of_replace {home : Text} (hne : home ≠ []) {part : Text} (hpart : part ∈ PARTS)
    (h : Text.contains_text (Text.to_ascii_lowercase (replace home "%USERPROFILE%".toList value)) part = true) :
    value.to_ascii_lowercase.contains_text part = true := by
  obtain ⟨hpercent, hhome, -, -⟩ := part_facts.2 part hpart
  rw [Text.contains_text_iff_inside] at h ⊢
  have hreplaced : part <:+: (replace home ('%' :: HOME ++ ['%']) value).map Char.toLower := h
  rcases map_replace hne hpercent hreplaced with h | h
  · exact h
  · rw [Text.contains_text_iff_inside.mpr h] at hhome
    cases hhome

theorem marker_iff : contains_secret_marker text = true ↔
    (text.contains_text KEY_BEGINS = true ∧ text.contains_text KEY_ENDS = true) ∨
      ∃ part ∈ MARKERS, text.contains_text part = true := by
  unfold contains_secret_marker
  rw [Bool.or_eq_true, Bool.and_eq_true, List.any_eq_true]

theorem marker_part {part : Text} (h : part ∈ MARKERS) : part ∈ PARTS :=
  List.mem_cons_of_mem _ (List.mem_cons_of_mem _ h)

/-- What has the parts of another text has a marker only if that one has. -/
theorem marker_mono {text' : Text} (h : ∀ part ∈ PARTS, text.contains_text part = true →
    text'.contains_text part = true) (hmarker : contains_secret_marker text = true) :
    contains_secret_marker text' = true := by
  rw [marker_iff] at hmarker ⊢
  rcases hmarker with ⟨hbegins, hends⟩ | ⟨part, hpart, hcontains⟩
  · exact .inl ⟨h _ List.mem_cons_self hbegins, h _ (List.mem_cons_of_mem _ List.mem_cons_self) hends⟩
  · exact .inr ⟨part, hpart, h part (marker_part hpart) hcontains⟩

/-- No redacted string has a marker. -/
theorem redact_string_marker (home : Option Text) (value : Text) :
    contains_secret_marker (redact_string home value).to_ascii_lowercase = false := by
  rw [redact_string_eq]
  split
  · exact part_facts.1.1
  · next hno =>
    rw [Bool.not_eq_true] at hno
    cases home with
    | none => exact hno
    | some home =>
      dsimp only
      split
      · exact hno
      · next hempty =>
        by_contra hmarker
        rw [Bool.not_eq_false] at hmarker
        have hne : home ≠ [] := by simpa using hempty
        have hvalue := marker_mono (fun part hpart h => part_of_replace hne hpart h) hmarker
        rw [hno] at hvalue
        cases hvalue

/-- No redacted string has the home directory in it. -/
theorem redact_string_home {home : Text} (hhome : IsHome home) (value : Text) :
    ¬ home <:+: redact_string (some home) value := by
  obtain ⟨hbackslash, hpercent⟩ := hhome
  have hne : home ≠ [] := List.ne_nil_of_mem hbackslash
  have habsent : ∀ t : Text, '\\' ∉ t → ¬ home <:+: t := by
    intro t ht hinside
    exact ht (hinside.subset hbackslash)
  rw [redact_string_eq]
  split
  · exact habsent REDACTED (by decide)
  · dsimp only
    rw [if_neg (by simpa using hne)]
    exact not_infix_replace hne hpercent (habsent HOME (by decide)) value

/-- A redacted string is not changed again. -/
theorem redact_string_again {home : Text} (hhome : IsHome home) (value : Text) :
    redact_string (some home) (redact_string (some home) value) = redact_string (some home) value := by
  have hne : home ≠ [] := List.ne_nil_of_mem hhome.1
  generalize hvalue : redact_string (some home) value = redacted
  have hmarker : contains_secret_marker redacted.to_ascii_lowercase = false := by
    rw [← hvalue]
    exact redact_string_marker (some home) value
  have hgone : ¬ home <:+: redacted := by
    rw [← hvalue]
    exact redact_string_home hhome value
  rw [redact_string_eq]
  rw [hmarker]
  show (if home.isEmpty then redacted else replace home "%USERPROFILE%".toList redacted) = redacted
  rw [if_neg (by simpa using hne)]
  exact replace_of_absent hgone

/-! ### A whole value -/

/-- A string in a redacted value was redacted. -/
theorem string_redacted {v : Json} (h : (redact home v).HasString text) :
    text = REDACTED ∨ ∃ value, v.HasString value ∧ text = redact_string home value := by
  induction v using Json.induct with
  | null => exact absurd h (Json.has_string_leaf rfl)
  | bool value => exact absurd h (Json.has_string_leaf rfl)
  | number value => exact absurd h (Json.has_string_leaf rfl)
  | string value =>
    rw [redact_text, Json.has_string_string] at h
    exact .inr ⟨value, Json.has_string_string.mpr rfl, h⟩
  | array items ih =>
    rw [redact_array, Json.has_string_array] at h
    obtain ⟨redacted, hredacted, h⟩ := h
    obtain ⟨item, hitem, rfl⟩ := List.mem_map.mp hredacted
    rcases ih item hitem h with h | ⟨value, hvalue, htext⟩
    · exact .inl h
    · exact .inr ⟨value, Json.has_string_array.mpr ⟨item, hitem, hvalue⟩, htext⟩
  | object members ih =>
    rw [redact_members, Json.has_string_object] at h
    obtain ⟨redacted, hredacted, h⟩ := h
    obtain ⟨member, hmember, rfl⟩ := List.mem_map.mp hredacted
    rw [redact_member_snd] at h
    split at h
    · exact .inl (Json.has_string_string.mp h)
    · rcases ih member hmember h with h | ⟨value, hvalue, htext⟩
      · exact .inl h
      · exact .inr ⟨value, Json.has_string_object.mpr ⟨member, hmember, hvalue⟩, htext⟩

/-- A member of a redacted value was one before, and nothing is left of it
    under a key that tells of a secret. -/
theorem member_redacted {v : Json} {key : Text} {member : Json} (h : (redact home v).HasMember key member) :
    (∃ member', v.HasMember key member') ∧ (is_secret_key key = true → member = .string REDACTED) := by
  induction v using Json.induct with
  | null => exact absurd h (Json.has_member_leaf rfl)
  | bool value => exact absurd h (Json.has_member_leaf rfl)
  | number value => exact absurd h (Json.has_member_leaf rfl)
  | string value => exact absurd h Json.has_member_string
  | array items ih =>
    rw [redact_array, Json.has_member_array] at h
    obtain ⟨redacted, hredacted, h⟩ := h
    obtain ⟨item, hitem, rfl⟩ := List.mem_map.mp hredacted
    obtain ⟨⟨member', hbefore⟩, hsecret⟩ := ih item hitem h
    exact ⟨⟨member', Json.has_member_array.mpr ⟨item, hitem, hbefore⟩⟩, hsecret⟩
  | object members ih =>
    rw [redact_members, Json.has_member_object] at h
    rcases h with h | ⟨redacted, hredacted, h⟩
    · obtain ⟨⟨key', value⟩, hmember, hsame⟩ := List.mem_map.mp h
      obtain ⟨rfl, rfl⟩ := Prod.mk.inj hsame
      exact ⟨⟨value, Json.has_member_object.mpr (.inl hmember)⟩, fun hkey => if_pos hkey⟩
    · obtain ⟨outer, houter, rfl⟩ := List.mem_map.mp hredacted
      rw [redact_member_snd] at h
      split at h
      · exact absurd h Json.has_member_string
      · obtain ⟨⟨member', hbefore⟩, hsecret⟩ := ih outer houter h
        exact ⟨⟨member', Json.has_member_object.mpr (.inr ⟨outer, houter, hbefore⟩)⟩, hsecret⟩

/-- A redacted value is not changed again. -/
theorem redact_again {home : Text} (hhome : IsHome home) (v : Json) :
    redact (some home) (redact (some home) v) = redact (some home) v := by
  induction v using Json.induct with
  | null => rfl
  | bool value => rfl
  | number value => rfl
  | string value =>
    rw [redact_text, redact_text, redact_string_again hhome]
  | array items ih =>
    simp only [redact_array, List.map_map]
    exact congrArg Json.array (List.map_congr_left ih)
  | object members ih =>
    simp only [redact_members, List.map_map]
    refine congrArg Json.object (List.map_congr_left ?_)
    intro member hmember
    unfold redact_member
    dsimp only [Function.comp]
    split
    · rfl
    · rw [ih member hmember]

/-- The markers in what is written for the texts of a value. -/
def Marked (v : Json) : Prop :=
  ((∃ text, v.Says text ∧ KEY_BEGINS <:+: (text.flatMap Json.escape).map Char.toLower) ∧
      ∃ text, v.Says text ∧ KEY_ENDS <:+: (text.flatMap Json.escape).map Char.toLower) ∨
    ∃ part ∈ MARKERS, ∃ text, v.Says text ∧ part <:+: (text.flatMap Json.escape).map Char.toLower

variable {repr : Float → Text}

theorem toLower_of_digit {c : Char} (h : c.isDigit = true) : c.toLower = c := by
  unfold Char.toLower
  split
  · next hupper =>
    have hlow := UInt32.le_iff_toNat_le.mp hupper.1
    have hdigit : c.val ≥ 48 ∧ c.val ≤ 57 := by simpa [Char.isDigit] using h
    have hhigh := UInt32.le_iff_toNat_le.mp hdigit.2
    simp at hlow hhigh
    omega
  · rfl

/-- A part of a marker is found where a text has it. -/
theorem part_in_pretty (hrepr : ∀ value, ∀ c ∈ repr value, Json.Plain c) {v : Json} {part : Text}
    (hpart : part ∈ PARTS) :
    Text.contains_text (Text.to_ascii_lowercase (v.pretty repr 0)) part = true ↔
      ∃ text, v.Says text ∧ part <:+: (text.flatMap Json.escape).map Char.toLower := by
  obtain ⟨-, -, hquote, houtside⟩ := part_facts.2 part hpart
  obtain ⟨c, hc, hplain⟩ := List.any_eq_true.mp houtside
  obtain ⟨hdigit, hsymbol⟩ := (Bool.and_eq_true _ _).mp hplain
  rw [Bool.not_eq_true'] at hdigit hsymbol
  rw [Text.contains_text_iff_inside]
  constructor
  · intro h
    refine Json.infix_pretty hrepr (by decide) hquote ⟨c, hc, ?_⟩ h
    intro d hd hsame
    rcases hd with hd | hd
    · -- a digit stays as it is
      rw [← hsame, toLower_of_digit hd, hd] at hdigit
      cases hdigit
    · rw [← hsame, List.contains_iff_mem.mpr (List.mem_map_of_mem hd)] at hsymbol
      cases hsymbol
  · intro ⟨text, htext, h⟩
    exact h.trans ((Json.says_inside htext).map Char.toLower)

theorem scan_iff (hrepr : ∀ value, ∀ c ∈ repr value, Json.Plain c) (v : Json) :
    contains_secret_marker (Text.to_ascii_lowercase (v.pretty repr 0)) = true ↔ Marked v := by
  rw [marker_iff, part_in_pretty hrepr List.mem_cons_self,
    part_in_pretty hrepr (List.mem_cons_of_mem _ List.mem_cons_self)]
  constructor
  · rintro (h | ⟨part, hpart, h⟩)
    · exact .inl h
    · exact .inr ⟨part, hpart, (part_in_pretty hrepr (marker_part hpart)).mp h⟩
  · rintro (h | ⟨part, hpart, h⟩)
    · exact .inl h
    · exact .inr ⟨part, hpart, (part_in_pretty hrepr (marker_part hpart)).mpr h⟩

theorem sanitized_of_unmarked (hrepr : ∀ value, ∀ c ∈ repr value, Json.Plain c) {home : Option Text}
    {v : Json} (hlen : (Text.utf8 ((redact home v).pretty repr 0)).length ≤ MAX_ENTRY_BYTES)
    (hscan : ¬ Marked (redact home v)) :
    sanitized_json repr home v = .ok (Text.utf8 ((redact home v).pretty repr 0)) := by
  unfold sanitized_json
  dsimp only
  rw [Outcome.ite_error_eq_ok, Outcome.ite_error_eq_ok, scan_iff hrepr]
  exact ⟨not_lt.mpr hlen, hscan, rfl⟩

def lab_repr (_ : Float) : Text := "0.5".toList

theorem lab_repr_plain (value : Float) : ∀ c ∈ lab_repr value, Json.Plain c := by
  intro c hc
  exact Text.forall_mem_of_all (show "0.5".toList.all (fun c => decide (Json.Plain c)) = true by decide) c hc

def lab_home : Text := "C:\\Users\\lab".toList

/-- A path in the home directory and a secret. -/
def lab_entry : Json :=
  .object [("apiKey".toList, .string "sk-ant-1".toList), ("path".toList, .string (lab_home ++ "\\a".toList))]

def lab_bytes : List UInt8 := Text.utf8 ((redact (some lab_home) lab_entry).pretty lab_repr 0)

def ADVANCED_KEYS : List Text :=
  ["compression".toList, "connectTimeoutSeconds".toList, "identitiesOnly".toList,
    "serverAliveCountMax".toList, "serverAliveIntervalSeconds".toList, "tcpKeepAlive".toList]

def COMMAND_KEYS : List Text :=
  ["builtin".toList, "hostScoped".toList, "requiresPty".toList, "requiresSudo".toList, "risk".toList]

def HOST_KEYS : List Text :=
  ["advanced".toList, "authMethod".toList, "groupCount".toList, "identityFileConfigured".toList,
    "monitorEnabled".toList, "proxyJumpConfigured".toList]

def SETTINGS_KEYS : List Text :=
  ["autoReconnect".toList, "btopRotationMinutes".toList, "btopWatchdogEnabled".toList,
    "closeToTray".toList, "defaultAgent".toList, "downloadDirectoryConfigured".toList,
    "launchAtLogin".toList, "logLevel".toList, "onboardingCompleted".toList,
    "telemetryIntervalSeconds".toList, "telemetryRetentionMinutes".toList, "terminalFontSize".toList]

def STATE_KEYS : List Text :=
  ["commands".toList, "hosts".toList, "importedSourceCount".toList, "schemaVersion".toList,
    "settings".toList, "tunnels".toList]

def TUNNEL_KEYS : List Text :=
  ["autoReconnect".toList, "autoStart".toList, "direction".toList, "healthCheck".toList]

def VALUES : List Text :=
  ["interactive".toList, "private_key".toList, "agent".toList, "local".toList, "remote".toList,
    "none".toList, "tcp".toList, "L0".toList, "L1".toList, "L2".toList]

def GROUPS : List (List Text) :=
  [ADVANCED_KEYS, COMMAND_KEYS, HOST_KEYS, SETTINGS_KEYS, STATE_KEYS, TUNNEL_KEYS, VALUES,
    Store.LOG_LEVELS, Store.DEFAULT_AGENTS]

def WORDS : List Text := GROUPS.flatten

/-- All texts in the value are fixed words. -/
def Worded (v : Json) : Prop := ∀ text, v.Says text → text ∈ WORDS

theorem worded_null : Worded .null := fun _ h => absurd h (Json.not_says_leaf rfl)

theorem worded_bool (value : Bool) : Worded (.bool value) := fun _ h => absurd h (Json.not_says_leaf rfl)

theorem worded_integer (n : Nat) : Worded (integer n) := fun _ h => absurd h (Json.not_says_leaf rfl)

theorem worded_string {group : List Text} (hgroup : group ∈ GROUPS) (h : text ∈ group) :
    Worded (.string text) := by
  intro text' htext
  rw [Json.says_string.mp htext]
  exact List.mem_flatten_of_mem hgroup h

theorem worded_value (h : text ∈ VALUES) : Worded (.string text) :=
  worded_string (by simp [GROUPS]) h

theorem worded_array {α : Type} {f : α → Json} {xs : List α} (h : ∀ x ∈ xs, Worded (f x)) :
    Worded (.array (xs.map f)) := by
  intro text htext
  obtain ⟨item, hitem, htext⟩ := Json.says_array.mp htext
  obtain ⟨x, hx, rfl⟩ := List.mem_map.mp hitem
  exact h x hx text htext

theorem worded_object {members : List (Text × Json)} {keys : List Text} (hkeys : members.map Prod.fst = keys)
    (hgroup : keys ∈ GROUPS) (h : ∀ member ∈ members, Worded member.2) : Worded (.object members) := by
  intro text htext
  obtain ⟨member, hmember, rfl | htext⟩ := Json.says_object.mp htext
  · exact List.mem_flatten_of_mem hgroup (hkeys ▸ List.mem_map_of_mem hmember)
  · exact h member hmember text htext

theorem worded_command (command : CommandPreset) : Worded (command_summary command) := by
  have hrisk : Worded (CommandRisk.to_value command.risk) := by
    cases command.risk <;> exact worded_value (by decide)
  have hgroup : COMMAND_KEYS ∈ GROUPS := by simp [GROUPS]
  refine worded_object rfl hgroup ?_
  simp only [List.forall_mem_cons]
  exact ⟨worded_bool _, worded_bool _, worded_bool _, worded_bool _, hrisk, List.forall_mem_nil _⟩

theorem worded_advanced (advanced : SshAdvancedOptions) : Worded (SshAdvancedOptions.to_value advanced) := by
  have hgroup : ADVANCED_KEYS ∈ GROUPS := by simp [GROUPS]
  refine worded_object rfl hgroup ?_
  simp only [List.forall_mem_cons]
  exact ⟨worded_bool _, worded_integer _, worded_bool _, worded_integer _, worded_integer _,
    worded_bool _, List.forall_mem_nil _⟩

theorem worded_host (host : HostProfile) : Worded (host_summary host) := by
  have hauth : Worded (AuthMethod.to_value host.auth_method) := by
    cases host.auth_method <;> exact worded_value (by decide)
  have hgroup : HOST_KEYS ∈ GROUPS := by simp [GROUPS]
  refine worded_object rfl hgroup ?_
  simp only [List.forall_mem_cons]
  exact ⟨worded_advanced _, hauth, worded_integer _, worded_bool _, worded_bool _, worded_bool _,
    List.forall_mem_nil _⟩

theorem worded_tunnel (tunnel : TunnelProfile) : Worded (tunnel_summary tunnel) := by
  have hdirection : Worded (TunnelDirection.to_value tunnel.direction) := by
    cases tunnel.direction <;> exact worded_value (by decide)
  have hkind : ∀ kind, Worded (TunnelHealthCheckKind.to_value kind) := by
    intro kind
    cases kind <;> exact worded_value (by decide)
  have hgroup : TUNNEL_KEYS ∈ GROUPS := by simp [GROUPS]
  refine worded_object rfl hgroup ?_
  simp only [List.forall_mem_cons]
  refine ⟨worded_bool _, worded_bool _, hdirection, ?_, List.forall_mem_nil _⟩
  cases tunnel.health_check with
  | none => exact worded_null
  | some health => exact hkind health.kind

theorem worded_settings {settings : AppSettings} (h : Store.SettingsInBounds settings) :
    Worded (settings_summary settings) := by
  have hlevel : Worded (.string settings.log_level) := worded_string (by simp [GROUPS]) h.log_level
  have hagent : Worded (.string settings.default_agent) := worded_string (by simp [GROUPS]) h.default_agent
  have hgroup : SETTINGS_KEYS ∈ GROUPS := by simp [GROUPS]
  refine worded_object rfl hgroup ?_
  simp only [List.forall_mem_cons]
  exact ⟨worded_bool _, worded_integer _, worded_bool _, worded_bool _, hagent, worded_bool _,
    worded_bool _, hlevel, worded_bool _, worded_integer _, worded_integer _, worded_integer _,
    List.forall_mem_nil _⟩

theorem worded_summary {state : PersistedState} (h : Store.SettingsInBounds state.settings) :
    Worded (state_summary state) := by
  have hgroup : STATE_KEYS ∈ GROUPS := by simp [GROUPS]
  refine worded_object rfl hgroup ?_
  simp only [List.forall_mem_cons]
  exact ⟨worded_array fun command _ => worded_command command, worded_array fun host _ => worded_host host,
    worded_integer _, worded_integer _, worded_settings h,
    worded_array fun tunnel _ => worded_tunnel tunnel, List.forall_mem_nil _⟩

/-! ### The summary passes the scan -/

theorem harmless_iff : harmless text = true ↔
    ∀ part ∈ PARTS, ¬ part <:+: (text.flatMap Json.escape).map Char.toLower := by
  have heq : harmless text =
      PARTS.all fun part => !Text.contains_text ((text.flatMap Json.escape).map Char.toLower) part := rfl
  rw [heq, List.all_eq_true]
  refine forall₂_congr ?_
  intro part _
  rw [Bool.not_eq_true', ← Bool.not_eq_true, Text.contains_text_iff_inside]

/-- Nothing in a word is escaped, and no word has a part of a marker. -/
theorem word_facts : WORDS.all (fun word => word.all (fun c => Json.escape c = [c]) &&
    PARTS.all fun part => !Text.contains_text (word.map Char.toLower) part) = true := by
  decide +kernel

theorem plain_word {word : Text} (h : word ∈ WORDS) : ∀ c ∈ word, Json.escape c = [c] := by
  intro c hc
  have hall := ((Bool.and_eq_true _ _).mp (List.all_eq_true.mp word_facts word h)).1
  exact of_decide_eq_true (List.all_eq_true.mp hall c hc)

theorem escape_plain (h : ∀ c ∈ text, Json.escape c = [c]) : text.flatMap Json.escape = text := by
  induction text with
  | nil => rfl
  | cons c text ih =>
    obtain ⟨hc, htext⟩ := List.forall_mem_cons.mp h
    rw [List.flatMap_cons, hc, ih htext]
    rfl

theorem harmless_word {word : Text} (h : word ∈ WORDS) : harmless word = true := by
  have hall := ((Bool.and_eq_true _ _).mp (List.all_eq_true.mp word_facts word h)).2
  rw [harmless_iff, escape_plain (plain_word h)]
  intro part hpart hinside
  have hpart := List.all_eq_true.mp hall part hpart
  rw [Text.contains_text_iff_inside.mpr hinside] at hpart
  cases hpart

/-- Nor in a word with the home replaced. -/
theorem plain_replaced {home : Text} (hne : home ≠ []) {word : Text} (hword : word ∈ WORDS) :
    ∀ c ∈ replace home "%USERPROFILE%".toList word, Json.escape c = [c] := by
  intro c hc
  by_cases hpercent : c = '%'
  · rw [hpercent]
    decide
  · have hplain : '%' ∉ [c] := fun hmem => hpercent (List.mem_singleton.mp hmem).symm
    have hinside : [c] <:+: replace home ('%' :: HOME ++ ['%']) word := (List.singleton_infix_iff c _).mpr hc
    rcases infix_replace hne hplain hinside with h | h
    · exact plain_word hword c ((List.singleton_infix_iff c _).mp h)
    · have hhome : ∀ c ∈ HOME, Json.escape c = [c] := Text.forall_mem_of_all (by decide)
      exact hhome c ((List.singleton_infix_iff c _).mp h)

theorem harmless_string (home : Option Text) {word : Text} (hword : word ∈ WORDS) :
    harmless (redact_string home word) = true := by
  rw [redact_string_eq]
  split
  · exact part_facts.1.2
  · cases home with
    | none => exact harmless_word hword
    | some home =>
      dsimp only
      split
      · exact harmless_word hword
      · next hempty =>
        have hne : home ≠ [] := by simpa using hempty
        rw [harmless_iff, escape_plain (plain_replaced hne hword)]
        intro part hpart hinside
        -- the part would be in the word already
        have hbefore := part_of_replace hne hpart (Text.contains_text_iff_inside.mpr hinside)
        refine harmless_iff.mp (harmless_word hword) part hpart ?_
        rw [escape_plain (plain_word hword)]
        exact Text.contains_text_iff_inside.mp hbefore

theorem harmless_redact {v : Json} (hv : Worded v) (home : Option Text)
    (h : (redact home v).Says text) : harmless text = true := by
  rcases h with h | ⟨member, h⟩
  · rcases string_redacted h with rfl | ⟨value, hvalue, rfl⟩
    · exact part_facts.1.2
    · exact harmless_string home (hv value (.inl hvalue))
  · obtain ⟨⟨member', hmember'⟩, -⟩ := member_redacted h
    exact harmless_word (hv text (.inr ⟨member', hmember'⟩))

end Diagnostics
