import RemoteDeck.Command.Job
import RemoteDeck.Store.Invariant

/-! # Confirmation is enforced

    Whatever a client sends and whatever the repository holds when the run
    is handled, a process is started or a terminal planned only after the
    risk of the resolved command was computed afresh and its confirmation
    was supplied (`run_command_confirmed`).

    The risk is that of the command after the sudo wrapper and before the
    change of directory that is put in front of it.
-/

namespace Command

open Store (Repository)

/-! ### Risk levels -/

theorem analyze_command_ok {command : Text} {declared : RiskLevel} {text : Option Text}
    {analysis : RiskAnalysis} (h : analyze_command command declared text = .ok analysis) :
    analysis.effective_risk = max declared (detected_risk command) ∧
      confirmation_of analysis.effective_risk text = .ok analysis.confirmation := by
  simp only [analyze_command, Outcome.bind_eq_ok, Except.ok.injEq] at h
  obtain ⟨_, _, confirmation, hconfirmation, rfl⟩ := h
  exact ⟨rfl, hconfirmation⟩

theorem any_finding_cons_true (reason : String) (findings : List (Bool × String)) :
    any_finding ((true, reason) :: findings) = true := by
  simp [any_finding]

/-- The program `sudo` in front of a text is found. -/
theorem contains_sudo (rest : Text) :
    contains_any_command ("sudo ".toList ++ rest) ["sudo", "su"] = true := by
  have hfound : contains_command ("sudo ".toList ++ rest) "sudo".toList = true := rfl
  simp only [contains_any_command, List.any_cons, hfound, Bool.true_or]

/-- A command under the sudo wrapper is of the highest level. -/
theorem detected_risk_sudo (command : Text) : detected_risk (sudo_wrapped command) = .L2 := by
  have hstart : Text.to_ascii_lowercase "sudo -- sh -lc ".toList =
      "sudo ".toList ++ "-- sh -lc ".toList := by decide
  have hwrapped : (sudo_wrapped command).to_ascii_lowercase =
      Text.to_ascii_lowercase "sudo -- sh -lc ".toList ++ (posix_quote command).to_ascii_lowercase :=
    Text.to_ascii_lowercase_append _ _
  have hlower := (hwrapped.trans (congrArg (· ++ _) hstart)).trans (List.append_assoc _ _ _)
  have hfound : any_finding (level_two_findings (sudo_wrapped command).to_ascii_lowercase) = true := by
    rw [hlower]
    simp only [level_two_findings, contains_sudo, any_finding_cons_true]
  simp only [detected_risk, hfound, if_true]

theorem L2_le {risk : CommandRisk} : .L2 ≤ risk ↔ risk = .L2 := by
  cases risk <;> decide

/-- Only a built-in preset is trusted with the lowest level. -/
theorem trusted_preset_risk_ok {preset : CommandPreset} {risk : CommandRisk}
    (h : trusted_preset_risk preset = .ok risk) :
    .L1 ≤ risk ∨ ∃ id builtin, preset.id = BUILTIN ++ id ∧ builtin_preset id = some builtin ∧
      preset.command = builtin.command := by
  unfold trusted_preset_risk at h
  split at h
  case h_1 =>
    rw [Except.ok.injEq] at h
    exact .inl (h ▸ le_max_right _ _)
  case h_2 id hid =>
    simp only [Outcome.bind_eq_ok, Option.ok_or_eq_ok, invalid, Outcome.ite_error_eq_ok,
      Except.ok.injEq] at h
    obtain ⟨builtin, hbuiltin, hsame, _⟩ := h
    refine .inr ⟨id, builtin, Text.strip_leading_eq_some hid, hbuiltin, ?_⟩
    simp only [Bool.or_eq_true, decide_eq_true_eq, not_or, not_not] at hsame
    tauto

/-- The commands of the built-in presets need no trimming. -/
theorem builtin_command_trim {id : Text} {builtin : BuiltinPreset}
    (h : builtin_preset id = some builtin) : builtin.command.trim = builtin.command := by
  have hall : ∀ preset ∈ BUILTIN_PRESETS, preset.command.trim = preset.command := by
    decide +kernel
  exact hall builtin (List.mem_of_find?_eq_some h)

/-! ### Resolution -/

/-- What a request selects and what the resolved command has of it. -/
structure ResolvedFrom (host : HostProfile) (preset : Option CommandPreset)
    (request : CommandRunRequest) (resolved : ResolvedCommand) (selected : Selection) : Prop where
  selected_eq : select_command host preset request = .ok selected
  declared_eq : resolved.declared_risk = selected.declared_risk
  command_eq : resolved.command =
    if selected.requires_sudo then sudo_wrapped selected.raw_command.trim
    else selected.raw_command.trim

theorem resolve_command_request_ok {parse_uuid : Text → Bool} {host : HostProfile}
    {preset : Option CommandPreset} {request : CommandRunRequest} {resolved : ResolvedCommand}
    (h : resolve_command_request parse_uuid host preset request = .ok resolved) :
    ∃ selected, ResolvedFrom host preset request resolved selected := by
  simp only [resolve_command_request, invalid, Outcome.bind_eq_ok, Outcome.ite_error_eq_ok,
    Except.ok.injEq] at h
  obtain ⟨_, _, _, selected, hselected, _, _, _, _, directory, _, _, _, text, _, rfl⟩ := h
  exact ⟨selected, hselected, rfl, rfl⟩

theorem select_preset_ok {host : HostProfile} {preset : Option CommandPreset}
    {request : CommandRunRequest} {command_id : Text} {selected : Selection}
    (h : select_preset host preset request command_id = .ok selected) :
    ∃ stored, preset = some stored ∧ stored.id = command_id ∧
      trusted_preset_risk stored = .ok selected.declared_risk ∧
      selected.raw_command = stored.command ∧ selected.requires_sudo = stored.requires_sudo := by
  simp only [select_preset, invalid, Outcome.ite_error_eq_ok, Outcome.bind_eq_ok,
    Option.ok_or_eq_ok, Except.ok.injEq] at h
  obtain ⟨_, stored, hpreset, hid, _, risk, hrisk, rfl⟩ := h
  exact ⟨stored, hpreset, by simpa using hid, hrisk, rfl, rfl⟩

theorem select_ad_hoc_ok {preset : Option CommandPreset} {request : CommandRunRequest}
    {selected : Selection} (h : select_ad_hoc preset request = .ok selected) :
    selected.declared_risk = .L1 := by
  simp only [select_ad_hoc, invalid, Outcome.ite_error_eq_ok, Outcome.bind_eq_ok,
    Except.ok.injEq] at h
  obtain ⟨_, command, _, rfl⟩ := h
  rfl

/-- The preset that a request selects: a built-in one or one of the
    repository. -/
def selected_preset (env : RunEnv) (repository : Repository) (request : CommandRunRequest) :
    Option CommandPreset := do
  let command_id ← request.command_id
  match Text.strip_leading command_id BUILTIN with
  | some id => (builtin_preset id).map (preset_of_builtin env.now id)
  | none => repository.state.command_presets.find? fun command => command.id = command_id

/-- A command is resolved from the preset that its request selects. -/
theorem resolve_command_ok {env : RunEnv} {repository : Repository} {request : CommandRunRequest}
    {resolved : ResolvedCommand} (h : resolve_command env repository request = .ok resolved) :
    ∃ host selected, ResolvedFrom host (selected_preset env repository request) request resolved
      selected := by
  unfold resolve_command at h
  split at h
  case h_1 id hid =>
    obtain ⟨command_id, hcommand, hstrip⟩ := Option.bind_eq_some_iff.mp hid
    simp only [Outcome.bind_eq_ok, Option.ok_or_eq_ok, Outcome.mapError_eq_ok] at h
    obtain ⟨builtin, hbuiltin, host, _, hresolve⟩ := h
    obtain ⟨selected, hselected⟩ := resolve_command_request_ok hresolve
    have hpreset : selected_preset env repository request =
        some (preset_of_builtin env.now id builtin) := by
      simp [selected_preset, hcommand, hstrip, hbuiltin]
    exact ⟨host, selected, hpreset ▸ hselected⟩
  case h_2 hnone =>
    simp only [resolve_repository_request, Outcome.bind_eq_ok, Outcome.mapError_eq_ok] at h
    obtain ⟨_, _, host, _, preset, hload, hresolve⟩ := h
    obtain ⟨selected, hselected⟩ := resolve_command_request_ok hresolve
    have hpreset : selected_preset env repository request = preset := by
      cases hcommand : request.command_id with
      | none =>
        rw [hcommand, load_preset, Except.ok.injEq] at hload
        simp [selected_preset, hcommand, ← hload]
      | some command_id =>
        simp only [hcommand, load_preset, Outcome.bind_eq_ok, Outcome.mapError_eq_ok,
          Except.ok.injEq, Repository.command, Option.ok_or_eq_ok] at hload
        obtain ⟨stored, hfind, rfl⟩ := hload
        rw [hcommand, Option.bind_some] at hnone
        simp [selected_preset, hcommand, hnone, hfind]
    exact ⟨host, selected, hpreset ▸ hselected⟩

/-! ### Runs -/

/-- What has been checked about a command that is run. -/
structure RunChecked (env : RunEnv) (repository : Repository) (request : CommandRunRequest)
    (resolved : ResolvedCommand) (analysis : CommandAnalysis) : Prop where
  /-- The level is the lowest, or its confirmation was supplied. -/
  confirmed : analysis.effective_risk = .L0 ∨ ∃ supplied required,
    request.confirmation = some supplied ∧ analysis.required_confirmation = some required ∧
      supplied.trim = required
  declared_le : analysis.declared_risk ≤ analysis.effective_risk
  detected_le : detected_risk resolved.command ≤ analysis.effective_risk
  /-- Ad hoc and saved commands are never of the lowest level. -/
  custom : (∀ id, request.command_id ≠ some (BUILTIN ++ id)) → .L1 ≤ analysis.effective_risk
  /-- The lowest level is that of built-in commands, to the letter. -/
  lowest : analysis.effective_risk = .L0 → ∃ id builtin,
    request.command_id = some (BUILTIN ++ id) ∧ builtin_preset id = some builtin ∧
      resolved.command = builtin.command
  /-- Presets that use `sudo` are of the highest level. -/
  elevated : ∀ preset, selected_preset env repository request = some preset →
    preset.requires_sudo = true → analysis.effective_risk = .L2

theorem analyze_resolved_command_ok {resolved : ResolvedCommand} {analysis : CommandAnalysis}
    (h : analyze_resolved_command resolved = .ok analysis) :
    analysis.declared_risk = resolved.declared_risk ∧
      analysis.effective_risk = max resolved.declared_risk (detected_risk resolved.command) ∧
      analysis.display_command = in_directory resolved.command resolved.working_directory := by
  simp only [analyze_resolved_command, Outcome.bind_eq_ok, Outcome.mapError_eq_ok,
    Except.ok.injEq] at h
  obtain ⟨checked, hchecked, _, _, rfl⟩ := h
  exact ⟨rfl, (analyze_command_ok hchecked).1, rfl⟩

theorem enforce_command_confirmation_ok {analysis : CommandAnalysis} {supplied : Option Text}
    (h : enforce_command_confirmation analysis supplied = .ok ()) :
    analysis.effective_risk = .L0 ∨ ∃ text required, supplied = some text ∧
      analysis.required_confirmation = some required ∧ text.trim = required := by
  unfold enforce_command_confirmation at h
  split at h
  case isTrue hlowest => exact .inl hlowest
  case isFalse =>
    simp only [Outcome.bind_eq_ok, Option.ok_or_eq_ok] at h
    obtain ⟨required, hrequired, h⟩ := h
    split at h
    case h_1 => simp at h
    case h_2 value hvalue =>
      simp only [Outcome.ite_error_eq_ok, not_not, and_true] at h
      simp only [Store.normalize_optional, Option.filter_eq_some_iff, Option.map_eq_some_iff] at hvalue
      obtain ⟨⟨text, rfl, rfl⟩, _⟩ := hvalue
      exact .inr ⟨text, required, rfl, hrequired, h⟩

/-- What the checks of a resolved command establish. -/
theorem run_checked {env : RunEnv} {repository : Repository} {request : CommandRunRequest}
    {resolved : ResolvedCommand} {analysis : CommandAnalysis}
    (hresolve : resolve_command env repository request = .ok resolved)
    (hanalyze : analyze_resolved_command resolved = .ok analysis)
    (henforce : enforce_command_confirmation analysis request.confirmation = .ok ()) :
    RunChecked env repository request resolved analysis := by
  obtain ⟨host, selected, hselected, hdeclared, hcommand⟩ := resolve_command_ok hresolve
  obtain ⟨hdeclared', heffective, _⟩ := analyze_resolved_command_ok hanalyze
  have hle : resolved.declared_risk ≤ analysis.effective_risk := heffective ▸ le_max_left _ _
  have hdetected : detected_risk resolved.command ≤ analysis.effective_risk :=
    heffective ▸ le_max_right _ _
  have hwrapped : selected.requires_sudo = true → analysis.effective_risk = .L2 := fun hsudo => by
    rw [hcommand, if_pos hsudo, detected_risk_sudo] at hdetected
    exact L2_le.mp hdetected
  -- a request selects an ad hoc text or a preset
  cases hid : request.command_id with
  | none =>
    rw [select_command, hid] at hselected
    have hlevel : .L1 ≤ analysis.effective_risk :=
      (select_ad_hoc_ok hselected).symm.le.trans (hdeclared ▸ hle)
    have hnone : selected_preset env repository request = none := by simp [selected_preset, hid]
    refine ⟨enforce_command_confirmation_ok henforce, hdeclared' ▸ hle, hdetected, fun _ => hlevel,
      fun hlowest => ?_, fun preset hpreset => ?_⟩
    · exact absurd (hlowest ▸ hlevel) (by decide)
    · simp [hnone] at hpreset
  | some command_id =>
    rw [select_command, hid] at hselected
    obtain ⟨preset, hpreset, rfl, hrisk, hraw, hsudo⟩ := select_preset_ok hselected
    rcases trusted_preset_risk_ok hrisk with hlevel | ⟨id, builtin, hbuiltin, hfind, hsame⟩
    · have hlevel' : .L1 ≤ analysis.effective_risk := hlevel.trans (hdeclared ▸ hle)
      refine ⟨enforce_command_confirmation_ok henforce, hdeclared' ▸ hle, hdetected,
        fun _ => hlevel', fun hlowest => ?_, fun preset' hpreset' hwith => ?_⟩
      · exact absurd (hlowest ▸ hlevel') (by decide)
      · obtain rfl := Option.some.inj (hpreset ▸ hpreset')
        exact hwrapped (hsudo ▸ hwith)
    · refine ⟨enforce_command_confirmation_ok henforce, hdeclared' ▸ hle, hdetected,
        fun hcustom => ?_, fun hlowest => ?_, fun preset' hpreset' hwith => ?_⟩
      · exact absurd (hid.trans (congrArg some hbuiltin)) (hcustom id)
      · have hplain : ¬ selected.requires_sudo = true := fun hwith => by
          simp [hwrapped hwith] at hlowest
        refine ⟨id, builtin, hid.trans (congrArg some hbuiltin), hfind, ?_⟩
        rw [hcommand, if_neg hplain, hraw, hsame, builtin_command_trim hfind]
      · obtain rfl := Option.some.inj (hpreset ▸ hpreset')
        exact hwrapped (hsudo ▸ hwith)

/-! ### Hand-offs -/

/-- A result that is not a terminal plan. -/
def NoPlan {α : Type} (result : CommandJobResult α) : Prop :=
  ∀ plan, result ≠ .error (.RequiresPty plan)

theorem NoPlan.bind {α β : Type} {x : CommandJobResult α} {f : α → CommandJobResult β}
    (hx : NoPlan x) (hf : ∀ a, NoPlan (f a)) : NoPlan (x >>= f) := by
  intro plan h
  rcases Outcome.bind_eq_error.mp h with h | ⟨a, _, h⟩
  · exact hx plan h
  · exact hf a plan h

theorem noPlan_mapError {α ε : Type} {x : Except ε α} {f : ε → CommandJobError}
    (hf : ∀ e plan, f e ≠ .RequiresPty plan) : NoPlan (x.mapError f) := by
  intro plan h
  cases x with
  | error e => exact hf e plan (Except.error.inj h)
  | ok a => simp [Except.mapError] at h

theorem noPlan_validate_command_text (command : Text) : NoPlan (validate_command_text command) := by
  intro plan h
  unfold validate_command_text invalid at h
  split at h <;> simp at h

theorem noPlan_analyze (resolved : ResolvedCommand) :
    NoPlan (analyze_resolved_command resolved) := by
  refine NoPlan.bind (noPlan_mapError fun e plan => by simp) fun checked => ?_
  exact NoPlan.bind (noPlan_validate_command_text _) fun _ plan => by simp

theorem noPlan_enforce (analysis : CommandAnalysis) (supplied : Option Text) :
    NoPlan (enforce_command_confirmation analysis supplied) := by
  intro plan h
  unfold enforce_command_confirmation at h
  split at h
  · simp at h
  · cases hrequired : analysis.required_confirmation with
    | none => simp [hrequired, Option.ok_or, bind, Except.bind] at h
    | some required =>
      simp only [hrequired, Option.ok_or, Outcome.ok_bind] at h
      split at h
      · simp at h
      · split at h <;> simp at h

/-- The text that a preparation hands on: to a process or to a terminal. -/
def handed_on : CommandJobResult PreparedCommand → Option Text
  | .ok prepared => some prepared.display_command
  | .error (.RequiresPty plan) => some plan.command
  | .error _ => none

/-- A text that is handed on has passed the checks. -/
theorem prepare_run_checks {resolved : ResolvedCommand} {confirmation : Option Text} {text : Text}
    (h : handed_on (prepare_run resolved confirmation) = some text) :
    ∃ analysis, analyze_resolved_command resolved = .ok analysis ∧
      enforce_command_confirmation analysis confirmation = .ok () ∧
        text = analysis.display_command := by
  cases hanalyze : analyze_resolved_command resolved with
  | error e =>
    have hprepare : prepare_run resolved confirmation = .error e := by
      simp [prepare_run, hanalyze, bind, Except.bind]
    rw [hprepare] at h
    cases e with
    | RequiresPty plan => exact absurd hanalyze (noPlan_analyze resolved plan)
    | _ => simp [handed_on] at h
  | ok analysis =>
    cases henforce : enforce_command_confirmation analysis confirmation with
    | error e =>
      have hprepare : prepare_run resolved confirmation = .error e := by
        simp [prepare_run, hanalyze, henforce, bind, Except.bind]
      rw [hprepare] at h
      cases e with
      | RequiresPty plan => exact absurd henforce (noPlan_enforce analysis confirmation plan)
      | _ => simp [handed_on] at h
    | ok _ =>
      refine ⟨analysis, rfl, henforce, ?_⟩
      simp only [prepare_run, hanalyze, henforce, Outcome.ok_bind] at h
      split at h <;> simpa [handed_on] using h.symm

/-- What `run_resolved` hands on, its preparation does. -/
theorem run_resolved_handed_on {env : RunEnv} {resolved : ResolvedCommand}
    {confirmation : Option Text} {text : Text}
    (h : handed_on (run_resolved env resolved confirmation) = some text) :
    handed_on (prepare_run resolved confirmation) = some text := by
  cases hbegin : env.begin_operation with
  | error e =>
    cases e <;> simp [run_resolved, hbegin, Except.mapError, bind, Except.bind, handed_on,
      StartFailure.to_error] at h
  | ok _ =>
    cases hprepare : prepare_run resolved confirmation with
    | error e =>
      have hrun : run_resolved env resolved confirmation = .error e := by
        simp [run_resolved, hbegin, hprepare, Except.mapError, bind, Except.bind]
      rwa [hrun] at h
    | ok prepared =>
      cases hstart : env.start_process with
      | error e =>
        cases e <;> simp [run_resolved, hbegin, hprepare, hstart, Except.mapError, bind,
          Except.bind, handed_on, StartFailure.to_error] at h
      | ok _ =>
        have hrun : run_resolved env resolved confirmation = .ok prepared := by
          simp [run_resolved, hbegin, hprepare, hstart, Except.mapError, bind, Except.bind]
        rwa [hrun] at h

/-- **Confirmation is enforced**: whatever the repository holds when a run
    is handled, every process that is started and every terminal that is
    planned or started runs a command that was resolved from that
    repository and passed the checks, preceded by its change of directory. -/
theorem run_command_confirmed (env : RunEnv) (repository later : Repository)
    (request : CommandRunRequest) {effect : Effect}
    (h : effect ∈ (run_command env repository later request).effects) :
    ∃ resolved analysis, resolve_command env repository request = .ok resolved ∧
      analyze_resolved_command resolved = .ok analysis ∧
      effect.command = in_directory resolved.command resolved.working_directory ∧
      RunChecked env repository request resolved analysis := by
  unfold run_command at h
  cases hresolve : resolve_command env repository request with
  | error e => simp [hresolve] at h
  | ok resolved =>
    have hhanded : handed_on (run_resolved env resolved request.confirmation) =
        some effect.command := by
      simp only [hresolve] at h
      split at h
      case h_1 prepared hrun =>
        obtain rfl := List.mem_singleton.mp h
        simp [hrun, handed_on, Effect.command]
      case h_2 plan hrun =>
        have hcommand : effect.command = plan.command := by
          split at h <;> simp at h
          · rw [h]; rfl
          · rw [h]; rfl
          · rcases h with rfl | rfl <;> rfl
        simp [hrun, handed_on, hcommand]
      case h_3 => simp at h
    obtain ⟨analysis, hanalyze, henforce, htext⟩ :=
      prepare_run_checks (run_resolved_handed_on hhanded)
    refine ⟨resolved, analysis, rfl, hanalyze, ?_, run_checked hresolve hanalyze henforce⟩
    rw [htext, (analyze_resolved_command_ok hanalyze).2.2]

/-! ### A run -/

/-- Surroundings in which every identifier parses and every start succeeds. -/
def RunEnv.plain : RunEnv where
  parse_uuid := fun _ => true
  now := 0
  begin_operation := .ok ()
  start_process := .ok ()
  start_terminal := .ok ()
  record_pty_handoff := .ok ()

/-- One saved host with a workspace. -/
def lab_repository : Repository :=
  (Repository.default.save_host (Store.Env.counting 1)
    { Store.HostDraft.plain none "lab".toList none with
      default_workspace := some "/srv".toList }).1

def git_status_request : CommandRunRequest where
  host_id := "00000000-0000-0000-0000-000000000001".toList
  command_id := some "builtin:git-status".toList
  command := none
  working_directory := none
  confirmation := none

def git_status_in_workspace : Text := "cd -- '/srv' && git status --short --branch".toList

theorem git_status_effects :
    (run_command .plain lab_repository lab_repository git_status_request).effects.map
      Effect.command = [git_status_in_workspace] := by
  decide +kernel

/-- A built-in command that runs without a confirmation. -/
theorem git_status_confirmed :
    ∃ (effect : Effect) (resolved : ResolvedCommand) (analysis : CommandAnalysis),
      resolve_command .plain lab_repository git_status_request = .ok resolved ∧
        analyze_resolved_command resolved = .ok analysis ∧
          effect.command = in_directory resolved.command resolved.working_directory ∧
            RunChecked .plain lab_repository git_status_request resolved analysis := by
  obtain ⟨effect, heffect, _⟩ := List.mem_map.mp
    (git_status_effects ▸ List.mem_singleton_self git_status_in_workspace)
  exact ⟨effect, run_command_confirmed .plain lab_repository lab_repository git_status_request heffect⟩

/-- The text that runs, with its change of directory, is no built-in
    command and of a level that requires a confirmation; none was sent. -/
theorem git_status_runs_unconfirmed :
    ∃ effect ∈ (run_command .plain lab_repository lab_repository git_status_request).effects,
      git_status_request.confirmation = none ∧ detected_risk effect.command = .L1 ∧
        ∀ builtin ∈ BUILTIN_PRESETS, effect.command ≠ builtin.command := by
  obtain ⟨effect, heffect, hcommand⟩ := List.mem_map.mp
    (git_status_effects ▸ List.mem_singleton_self git_status_in_workspace)
  refine ⟨effect, heffect, rfl, ?_, ?_⟩
  · rw [hcommand]
    decide +kernel
  · rw [hcommand]
    decide +kernel

end Command
