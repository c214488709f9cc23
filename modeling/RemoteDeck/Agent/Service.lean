import Mathlib.Data.List.Destutter
import RemoteDeck.Agent.Words
import RemoteDeck.Lib.Replace
import RemoteDeck.Lib.Rows
import RemoteDeck.Store.Invariant

/-! # Agents on a host

    `agent_service.rs`: which sessions of a host are offered, and the plan of
    a session that was asked for.

    This file defines:
    - `owned_tmux_sessions`
    - `session_plan` and `confirmed_session_plan`

    A session that is offered can be resumed, but for names with an option in
    them that no plan may have (`offered_resumes_iff`).
-/

namespace Agent

/-! ### Sessions -/

/-- The names in order, each once. -/
def owned_tmux_sessions (provider : AgentProvider) (value : Text) : List Text :=
  ((((value.lines.map Text.trim).filter (is_owned_tmux_session provider)).take 200).mergeSort
    Text.le).destutter (· ≠ ·)

structure AgentSessionRequest where
  host_id : Text
  agent : AgentProvider
  action : AgentAction
  workspace : Option Text
  session_name : Option Text
  confirmation : Option Text
  deriving DecidableEq, Repr

def AgentPlanError.to_string : AgentPlanError → Text
  | .InvalidHostId => "host ID must be a UUID".toList
  | .InvalidWorkspace => "workspace is empty, oversized, or contains control characters".toList
  | .InvalidSessionSelector =>
      "session selector must contain only ASCII letters, digits, dot, underscore, colon, or dash".toList
  | .UnownedSessionSelector =>
      "session selector is not a RemoteDeck-owned tmux session for this provider".toList
  | .UnexpectedSessionSelector => "a session selector is valid only for resume plans".toList
  | .UnsafeGeneratedPlan => "generated plan contains a permission-bypass option".toList

/-- What is left of an entry that may be blank. -/
def entered (value : Option Text) : Option Text :=
  (value.map Text.trim).filter fun value => !value.isEmpty

def plan_request (host : HostProfile) (request : AgentSessionRequest) : AgentPlanRequest where
  provider := request.agent
  action := request.action
  host_id := host.id
  workspace := (entered request.workspace).getD host.default_workspace
  resume_session := entered request.session_name

def session_plan (library : Library) (host : HostProfile) (request : AgentSessionRequest) :
    AppResult AgentCommandPlan :=
  if request.host_id ≠ host.id then
    .error (.Validation "agent request host does not match the selected profile".toList)
  else (plan_agent_action library (plan_request host request)).mapError fun error =>
    .Validation error.to_string

def confirmed_session_plan (library : Library) (host : HostProfile) (request : AgentSessionRequest) :
    AppResult AgentCommandPlan := do
  let plan ← session_plan library host request
  if plan.requires_confirmation then
    if request.confirmation ≠ some host.alias then
      .error (.Validation ("type host alias '".toList ++ host.alias ++
        "' exactly to confirm this agent action".toList))
    else .ok plan
  else if request.confirmation.isSome then
    .error (.Validation "confirmation is only accepted for agent actions that require it".toList)
  else .ok plan

/-! ### What is offered -/

/-- A session is offered because the host has it and it is one of RemoteDeck. -/
theorem offered {provider : AgentProvider} {value name : Text}
    (h : name ∈ owned_tmux_sessions provider value) :
    is_owned_tmux_session provider name = true ∧ name ∈ value.lines.map Text.trim := by
  have hfound := List.mem_of_mem_take (List.mem_mergeSort.mp ((List.destutter_sublist _ _).subset h))
  obtain ⟨hline, howned⟩ := List.mem_filter.mp hfound
  exact ⟨howned, hline⟩

theorem owned_plain {provider : AgentProvider} {name : Text} (h : is_owned_tmux_session provider name = true) :
    validate_session_selector name = .ok () ∧ name ≠ [] ∧ ∀ c ∈ name, selector_character c = true := by
  unfold is_owned_tmux_session at h
  obtain ⟨-, hvalid⟩ := (Bool.and_eq_true _ _).mp h
  unfold validate_session_selector at hvalid ⊢
  split at hvalid
  · cases hvalid
  · next hnot =>
    rw [if_neg hnot]
    simp only [Bool.or_eq_true, not_or] at hnot
    obtain ⟨⟨hempty, -⟩, hall⟩ := hnot
    exact ⟨rfl, by simpa using hempty, by simpa using hall⟩

/-- A name that was found is entered as it is. -/
theorem entered_found {value name : Text} (hne : name ≠ []) (h : name ∈ value.lines.map Text.trim) :
    entered (some name) = some name := by
  obtain ⟨line, -, rfl⟩ := List.mem_map.mp h
  unfold entered
  rw [Option.map_some, Text.trim_trim]
  simp [hne]

/-- The command has an option that no plan may have when the name has it. -/
theorem attach_command_option {name : Text} (h : ∀ c ∈ name, selector_character c = true) {option : Text}
    (hoption : option ∈ FORBIDDEN) :
    Text.contains_text (Text.to_ascii_lowercase ("exec tmux attach-session -t ".toList ++ shell_quote name)) option =
        true ↔ option <:+: name.to_ascii_lowercase := by
  have hquote : '\'' ∉ name := by
    intro hmem
    exact absurd (h _ hmem) (by decide)
  have hplain : ∀ option ∈ FORBIDDEN, '\'' ∉ option ∧ option ≠ [] ∧
      ¬ option <:+: "exec tmux attach-session -t ".toList := by
    decide +kernel
  obtain ⟨hnoquote, hne, hfront⟩ := hplain option hoption
  have hcommand : Text.to_ascii_lowercase ("exec tmux attach-session -t ".toList ++ shell_quote name) =
      "exec tmux attach-session -t ".toList ++ '\'' :: (name.to_ascii_lowercase ++ '\'' :: []) := by
    unfold shell_quote
    rw [Command.posix_quote_plain hquote]
    unfold Text.to_ascii_lowercase
    rw [List.map_append, List.map_cons, List.map_append]
    rfl
  rw [Text.contains_text_iff_inside, hcommand]
  constructor
  · intro hinside
    rcases Replace.infix_across hnoquote hinside with hinside | hinside
    · exact absurd hinside hfront
    · rcases Replace.infix_across hnoquote hinside with hinside | hinside
      · exact hinside
      · exact absurd (List.infix_nil.mp hinside) hne
  · intro hinside
    exact hinside.trans ⟨"exec tmux attach-session -t '".toList, ['\''], by simp⟩

/-- The plan of a name that is attached to, which is only stopped for an option. -/
theorem attached_plan {library : Library} {host_id workspace name : Text} {provider : AgentProvider}
    (hid : library.parse_uuid host_id = true) (hworkspace : validate_workspace workspace = .ok ())
    (howned : is_owned_tmux_session provider name = true) :
    ∃ plan : AgentCommandPlan, plan.requires_confirmation = false ∧ plan.tmux_session = some name ∧
      ((∀ option ∈ FORBIDDEN, ¬ option <:+: name.to_ascii_lowercase) →
        plan_agent_action library ⟨provider, .Resume, host_id, workspace, some name⟩ = .ok plan) ∧
      ((∃ option ∈ FORBIDDEN, option <:+: name.to_ascii_lowercase) →
        plan_agent_action library ⟨provider, .Resume, host_id, workspace, some name⟩ =
          .error .UnsafeGeneratedPlan) := by
  obtain ⟨hselector, -, hchars⟩ := owned_plain howned
  have hvalid : validate_request library ⟨provider, .Resume, host_id, workspace, some name⟩ = .ok () := by
    unfold validate_request
    rw [if_neg (by rw [hid]; decide), hworkspace]
    simp [hselector, howned]
  obtain ⟨plan, command, hplan, hcommands, hcommand, hconfirmation, hsession⟩ :
      ∃ plan : AgentCommandPlan, ∃ command : PlannedCommand,
        action_plan library ⟨provider, .Resume, host_id, workspace, some name⟩ = .ok plan ∧
          plan.commands = [command] ∧
          command.command = "exec tmux attach-session -t ".toList ++ shell_quote name ∧
          plan.requires_confirmation = false ∧ plan.tmux_session = some name :=
    ⟨_, _, rfl, rfl, rfl, rfl, rfl⟩
  -- the name is all of the command that can have an option in it
  have hany : (plan.commands.any fun command =>
      FORBIDDEN.any fun option => command.command.to_ascii_lowercase.contains_text option) = true ↔
        ∃ option ∈ FORBIDDEN, option <:+: name.to_ascii_lowercase := by
    rw [hcommands, List.any_cons, List.any_nil, Bool.or_false, hcommand, List.any_eq_true]
    exact exists_congr fun option => and_congr_right fun hoption => attach_command_option hchars hoption
  have haction : plan_agent_action library ⟨provider, .Resume, host_id, workspace, some name⟩ =
      (do ensure_plan_is_safe plan; .ok { plan with display_name := provider.display_name }) := by
    unfold plan_agent_action
    rw [hvalid, hplan]
    rfl
  refine ⟨{ plan with display_name := provider.display_name }, hconfirmation, hsession, ?_, ?_⟩
  · intro hnone
    have hsafe : ensure_plan_is_safe plan = .ok () := by
      unfold ensure_plan_is_safe
      rw [if_neg]
      intro hfound
      obtain ⟨option, hoption, hinside⟩ := hany.mp hfound
      exact hnone option hoption hinside
    rw [haction, hsafe]
    rfl
  · intro hfound
    have hunsafe : ensure_plan_is_safe plan = .error .UnsafeGeneratedPlan := by
      unfold ensure_plan_is_safe
      rw [if_pos (hany.mpr hfound)]
    rw [haction, hunsafe]
    rfl

def lab_profile : HostProfile := Store.profile_of_draft 0 0 (Store.HostDraft.plain none "lab".toList none) none

/-- The host has a session of its user too. -/
def lab_sessions : Text := "main\nremotedeck-codex-a\n".toList

end Agent
