import RemoteDeck.Session.Ownership

/-! # The stages of a spawn

    What a step can do to the stage of a spawn (`Moves`), and the invariant
    that ties every slot and every record to the spawn of its generation.
-/

namespace Session

variable {registry registry' : TerminalRegistry} {label : Label} {serial : Nat} {spawn : Spawn}
  {session_id id : Text} {generation : Nat} {before after : Option TerminalSlot}
  {stage stage' : SpawnStage}

/-- The slot has no such generation. -/
def Free (slot : Option TerminalSlot) (generation : Nat) : Prop :=
  ∀ found, slot = some found → found.generation ≠ generation

/-- The deadline passes before the child is seen to exit, or the wait fails. -/
def Round.fails (round : Round) (child : Child) : Bool :=
  !child.terminated &&
    if child.handle then
      match round.try_wait with
      | .Status => child.alive && round.late
      | .WouldBlock => round.late
      | .Failed _ => true
    else round.late

/-- How a spawn goes on, with the slot of its session before and after the step. -/
inductive Moves (registry : TerminalRegistry) (label : Label) (serial : Nat)
    (before after : Option TerminalSlot) : SpawnStage → SpawnStage → Prop where
  | refuse {reconnects : Bool} (hslot : after = before) :
      Moves registry label serial before after (.drawn reconnects) .returned
  | reserve {reconnects : Bool} :
      Moves registry label serial before after (.drawn reconnects) .reserved
  | release (hslot : ∀ host_id close_requested cleanup,
        after ≠ some (.Starting (generation_of serial) host_id close_requested cleanup)) :
      Moves registry label serial before after .reserved .returned
  | spawn : Moves registry label serial before after .reserved .spawned
  | register (stage : SpawnStage) (hstage : stage = .registered ∨ stage = .aborting false)
      (hslot : ∀ host_id close_requested cleanup,
        after = some (.Starting (generation_of serial) host_id close_requested cleanup) →
          cleanup.isSome) :
      Moves registry label serial before after .spawned stage
  | setup_fails (hslot : after = before) :
      Moves registry label serial before after .registered (.aborting false)
  | commit {session : TerminalSession} (hslot : after = some (.Running session)) :
      Moves registry label serial before after .registered .committed
  | send : Moves registry label serial before after .committed .returned
  | send_fails : Moves registry label serial before after .committed (.aborting true)
  | check {remove_snapshot : Bool} :
      Moves registry label serial before after (.aborting remove_snapshot) (.terminating remove_snapshot)
  | overtaken {remove_snapshot : Bool} (hslot : Free after (generation_of serial)) :
      Moves registry label serial before after (.aborting remove_snapshot) .returned
  | terminated {remove_snapshot : Bool} :
      Moves registry label serial before after (.terminating remove_snapshot) (.removing remove_snapshot)
  | fails {remove_snapshot : Bool} {round : Round} {child : Child}
      (hlabel : label = .abort_round serial round) (hchild : registry.children serial = some child)
      (hround : round.fails child = true) :
      Moves registry label serial before after (.terminating remove_snapshot) .returned
  | remove {remove_snapshot : Bool} (hslot : Free after (generation_of serial)) :
      Moves registry label serial before after (.removing remove_snapshot) .returned

/-- The number of values of the counter that a step draws. -/
def Label.draws : Label → Nat
  | .start _ _ _ | .reconnect _ _ => 1
  | _ => 0

/-- What a step can do to a spawn. -/
inductive Advances (registry registry' : TerminalRegistry) (label : Label) (serial : Nat) : Prop where
  | same (hspawn : registry'.spawns serial = registry.spawns serial)
      (hreserve : label ≠ .reserve serial) (hcommit : label ≠ .commit serial)
  | draw {spawn : Spawn} {reconnects : Bool} (hserial : serial = registry.next_generation)
      (hlabel : label.draws = 1)
      (hspawn : registry'.spawns serial = some spawn) (hstage : spawn.stage = .drawn reconnects)
  | move {spawn spawn' : Spawn} (hspawn : registry.spawns serial = some spawn)
      (hspawn' : registry'.spawns serial = some spawn') (hsession : spawn'.session_id = spawn.session_id)
      (hmoves : Moves registry label serial (registry.slot spawn.session_id)
        (registry'.slot spawn.session_id) spawn.stage spawn'.stage)

theorem terminate_fails {child child' : Child} {round : Round} {error : AppError}
    (h : terminate_cleanup child round = (child', some (.error error))) : round.fails child = true := by
  unfold terminate_cleanup wait_for_cleanup_exit poll_child at h
  unfold Round.fails
  cases hterminated : child.terminated <;> cases hhandle : child.handle <;>
    cases halive : child.alive <;> rcases hround : round.try_wait with _ | _ | _ <;>
      cases hlate : round.late <;> simp_all

/-! ### What the locked sections leave in a slot -/

theorem release_slot (registry : TerminalRegistry) (session_id : Text) (generation : Nat)
    (host_id : Text) (close_requested : Bool) (cleanup : Option Nat) :
    (release_reservation registry session_id generation).slot session_id ≠
      some (.Starting generation host_id close_requested cleanup) := by
  intro hslot
  unfold release_reservation at hslot
  split at hslot
  case h_1 current _ requested _ hfound =>
    by_cases hcurrent : current = generation
    · have hremoved : (registry.remove_slot session_id).slot session_id = none := by
        rw [slot_remove_slot, if_pos rfl]
      rw [if_pos hcurrent] at hslot
      cases requested
      · have hslot : (registry.remove_slot session_id).slot session_id = _ := hslot
        simp [hremoved] at hslot
      · have hslot : (registry.remove_slot session_id).slot session_id = _ := hslot
        simp [hremoved] at hslot
    · rw [if_neg hcurrent, hfound, Option.some.injEq] at hslot
      exact hcurrent (TerminalSlot.Starting.inj hslot).1
  case h_2 hfound => exact hfound _ _ _ _ hslot

theorem register_slot {host_id : Text} {close_requested : Bool} {cleanup : Option Nat}
    (hslot : (register_spawn_cleanup registry session_id generation serial).1.slot session_id =
      some (.Starting generation host_id close_requested cleanup)) : cleanup.isSome := by
  rcases register_effect registry session_id generation serial with
    ⟨_, _, _, snapshots, _, _, hreplaced⟩ | ⟨hsame, hother⟩
  · rw [hreplaced] at hslot
    have hslot : (registry.insert_slot session_id _).slot session_id = _ := hslot
    rw [slot_insert_slot, if_pos rfl, Option.some.injEq] at hslot
    rw [← (TerminalSlot.Starting.inj hslot).2.2.2]
    rfl
  · rw [hsame] at hslot
    exact absurd hslot (hother _ _ _)

theorem commit_slot {session : TerminalSession} {snapshot : TerminalSnapshot}
    {committed : TerminalRegistry} {done : Bool}
    (h : commit_running registry session_id generation session snapshot = (committed, done)) :
    committed.slot session_id = if done then some (.Running session) else registry.slot session_id := by
  unfold commit_running at h
  split at h
  case h_1 current _ _ _ =>
    by_cases hcurrent : current = generation
    · rw [if_pos hcurrent, Prod.mk.injEq] at h
      obtain ⟨rfl, rfl⟩ := h
      obtain ⟨snapshots, hpruned⟩ := prune_terminal_records_snapshots MAX_RETAINED_TERMINALS
        ((registry.insert_slot session_id (.Running session)).insert_snapshot session_id
          ⟨generation, snapshot⟩).snapshots.entries.length
        ((registry.insert_slot session_id (.Running session)).insert_snapshot session_id
          ⟨generation, snapshot⟩)
      rw [hpruned, if_pos rfl]
      show (registry.insert_slot session_id (.Running session)).slot session_id = _
      rw [slot_insert_slot, if_pos rfl]
    · rw [if_neg hcurrent, Prod.mk.injEq] at h
      rw [← h.1, ← h.2, if_neg Bool.false_ne_true]
  case h_2 =>
    rw [Prod.mk.injEq] at h
    rw [← h.1, ← h.2, if_neg Bool.false_ne_true]

theorem aborted_slot (registry : TerminalRegistry) (session_id : Text) (generation : Nat)
    (remove_snapshot : Bool) :
    Free ((remove_aborted registry session_id generation remove_snapshot).slot session_id)
      generation := by
  intro slot hslot hgeneration
  cases hfound : registry.slot session_id with
  | none =>
    unfold remove_aborted at hslot
    rw [hfound] at hslot
    simp [hfound] at hslot
  | some found =>
    rw [remove_aborted_eq remove_snapshot hfound] at hslot
    by_cases hcurrent : found.generation = generation
    · have hremoved : (registry.remove_slot session_id).slot session_id = none := by
        rw [slot_remove_slot, if_pos rfl]
      rw [if_pos hcurrent] at hslot
      split at hslot
      all_goals
        have hslot : (registry.remove_slot session_id).slot session_id = some slot := hslot
        simp [hremoved] at hslot
    · rw [if_neg hcurrent, hfound, Option.some.injEq] at hslot
      exact hcurrent (hslot ▸ hgeneration)

/-- The parts of the registry that are neither slots nor records nor children. -/
structure Keeps (registry registry' : TerminalRegistry) : Prop where
  spawns : registry'.spawns = registry.spawns
  counter : registry'.next_generation = registry.next_generation
  calls : registry'.calls = registry.calls

theorem Drops.keeps (h : Drops registry session_id generation registry') : Keeps registry registry' := by
  obtain ⟨snapshots, rfl | ⟨_, _, _, rfl⟩⟩ := h <;> exact ⟨rfl, rfl, rfl⟩

theorem register_keeps (registry : TerminalRegistry) (session_id : Text) (generation serial : Nat) :
    Keeps registry (register_spawn_cleanup registry session_id generation serial).1 := by
  rcases register_effect registry session_id generation serial with
    ⟨_, _, _, _, _, _, hreplaced⟩ | ⟨hsame, _⟩
  · rw [hreplaced]
    exact ⟨rfl, rfl, rfl⟩
  · rw [hsame]
    exact ⟨rfl, rfl, rfl⟩

theorem commit_keeps (registry : TerminalRegistry) (session_id : Text) (session : TerminalSession)
    (snapshot : TerminalSnapshot) :
    Keeps registry (commit_running registry session_id session.generation session snapshot).1 := by
  rcases commit_effect registry session_id session snapshot with ⟨_, _, _, _, hreplaced⟩ | hsame
  · rw [hreplaced]
    exact ⟨rfl, rfl, rfl⟩
  · rw [hsame]
    exact ⟨rfl, rfl, rfl⟩

theorem record_error_keeps (registry : TerminalRegistry) (session_id : Text) (generation : Nat)
    (message : Text) :
    Keeps registry (record_terminal_error registry session_id generation message) := by
  obtain ⟨snapshots, hsnapshots⟩ := record_terminal_error_snapshots registry session_id generation message
  rw [hsnapshots]
  exact ⟨rfl, rfl, rfl⟩

theorem request_close_keeps (registry : TerminalRegistry) (session_id : Text) :
    Keeps registry (request_close registry session_id).1 := by
  obtain ⟨⟨snapshots, hsame | ⟨_, _, _, _, _, hreplaced⟩⟩, _⟩ := request_close_effect registry session_id
  · rw [hsame]
    exact ⟨rfl, rfl, rfl⟩
  · rw [hreplaced]
    exact ⟨rfl, rfl, rfl⟩

theorem call_step_spawns {call : Call} {round : Round} (h : call_step registry call round = some registry') :
    registry'.spawns = registry.spawns ∧ registry'.next_generation = registry.next_generation := by
  unfold call_step at h
  split at h
  case h_1 session_id _ =>
    have hkeeps := request_close_keeps registry session_id
    split at h
    all_goals
      rename_i hresult
      rw [hresult] at hkeeps
      exact Option.some.inj h ▸ ⟨hkeeps.spawns, hkeeps.counter⟩
  case h_2 =>
    obtain ⟨child, hchild, h⟩ := Option.bind_eq_some_iff.mp h
    split at h <;> exact Option.some.inj h ▸ ⟨rfl, rfl⟩
  case h_3 session_id generation _ _ =>
    have hkeeps := (remove_closed_drops registry session_id generation).keeps
    exact Option.some.inj h ▸ ⟨hkeeps.spawns, hkeeps.counter⟩

/-- A spawn goes on, and the others stay. -/
theorem advances_set_stage {base : TerminalRegistry} {spawn' : Spawn}
    (hspawn : registry.spawns serial = some spawn) (hstage : spawn.stage = stage)
    (hsession : spawn'.session_id = spawn.session_id) (hbase : base.spawns = registry.spawns)
    (hlabel : ∀ n, label = .reserve n ∨ label = .commit n → n = serial)
    (hmoves : Moves registry label serial (registry.slot spawn.session_id)
      (base.slot spawn.session_id) stage stage') (n : Nat) :
    Advances registry (base.set_stage serial spawn' stage') label n := by
  subst hstage
  have hspawns := spawns_set_stage base serial n spawn' stage'
  by_cases hn : n = serial
  · subst hn
    rw [if_pos rfl] at hspawns
    exact .move hspawn hspawns hsession hmoves
  · rw [if_neg hn, hbase] at hspawns
    exact .same hspawns (fun h => hn (hlabel n (.inl h))) (fun h => hn (hlabel n (.inr h)))

/-- **Every step moves a spawn along its stages, or leaves it.** -/
theorem step_advances (hnext : registry.next label = some registry') (n : Nat) :
    Advances registry registry' label n := by
  unfold TerminalRegistry.next at hnext
  cases label with
  | start | reconnect =>
    cases hnext
    by_cases hn : n = registry.next_generation
    · subst hn
      exact .draw rfl rfl (Function.update_self ..) rfl
    · exact .same (Function.update_of_ne hn ..) nofun nofun
  | reserve serial =>
    obtain ⟨spawn, hspawn, hnext⟩ := Option.bind_eq_some_iff.mp hnext
    split at hnext
    case h_1 reconnects hstage =>
      obtain rfl := Option.some.inj hnext
      rcases reserve_effect registry serial spawn reconnects with
        hrefused | ⟨spawn', hsession, _, _, _, hreserved⟩
      · rw [hrefused]
        exact advances_set_stage hspawn hstage rfl (by rfl) (by simp) (.refuse rfl) n
      · rw [hreserved]
        exact advances_set_stage hspawn hstage hsession (by rfl) (by simp) (.reserve) n
    case h_2 => simp at hnext
  | spawn_fails serial =>
    obtain ⟨spawn, hspawn, hnext⟩ := Option.bind_eq_some_iff.mp hnext
    obtain ⟨hspawn, hstage⟩ := spawn_at_eq_some.mp hspawn
    obtain rfl := Option.some.inj hnext
    have hkeeps := (release_reservation_drops registry spawn.session_id (generation_of serial)).keeps
    exact advances_set_stage hspawn hstage rfl hkeeps.spawns (by simp)
      (.release (release_slot registry spawn.session_id (generation_of serial))) n
  | spawn_command serial =>
    obtain ⟨spawn, hspawn, hnext⟩ := Option.bind_eq_some_iff.mp hnext
    obtain ⟨hspawn, hstage⟩ := spawn_at_eq_some.mp hspawn
    obtain rfl := Option.some.inj hnext
    exact advances_set_stage hspawn hstage rfl (by rfl) (by simp) (.spawn) n
  | register serial =>
    obtain ⟨spawn, hspawn, hnext⟩ := Option.bind_eq_some_iff.mp hnext
    obtain ⟨hspawn, hstage⟩ := spawn_at_eq_some.mp hspawn
    have hkeeps := register_keeps registry spawn.session_id (generation_of serial) serial
    have hslot : ∀ host_id close_requested cleanup,
        (register_spawn_cleanup registry spawn.session_id (generation_of serial) serial).1.slot
          spawn.session_id = some (.Starting (generation_of serial) host_id close_requested cleanup) →
            cleanup.isSome := fun _ _ _ => register_slot
    split at hnext
    case h_1 hresult =>
      rw [hresult] at hkeeps hslot
      obtain rfl := Option.some.inj hnext
      exact advances_set_stage hspawn hstage rfl hkeeps.spawns (by simp)
        (.register _ (.inl rfl) hslot) n
    case h_2 hresult =>
      rw [hresult] at hkeeps hslot
      obtain rfl := Option.some.inj hnext
      exact advances_set_stage hspawn hstage rfl hkeeps.spawns (by simp)
        (.register _ (.inr rfl) hslot) n
  | setup_fails serial =>
    obtain ⟨spawn, hspawn, hnext⟩ := Option.bind_eq_some_iff.mp hnext
    obtain ⟨hspawn, hstage⟩ := spawn_at_eq_some.mp hspawn
    obtain rfl := Option.some.inj hnext
    exact advances_set_stage hspawn hstage rfl (by rfl) (by simp) (.setup_fails rfl) n
  | commit serial =>
    obtain ⟨spawn, hspawn, hnext⟩ := Option.bind_eq_some_iff.mp hnext
    obtain ⟨hspawn, hstage⟩ := spawn_at_eq_some.mp hspawn
    have hkeeps := commit_keeps registry spawn.session_id
      ⟨generation_of serial, spawn.host.id, serial⟩ (spawn.snapshot (generation_of serial))
    dsimp only at hnext hkeeps
    split at hnext
    case h_1 hresult =>
      rw [hresult] at hkeeps
      have hslot := commit_slot hresult
      obtain rfl := Option.some.inj hnext
      exact advances_set_stage hspawn hstage rfl hkeeps.spawns (by simp) (.commit hslot) n
    case h_2 hresult =>
      rw [hresult] at hkeeps
      have hslot := commit_slot hresult
      obtain rfl := Option.some.inj hnext
      exact advances_set_stage hspawn hstage rfl hkeeps.spawns (by simp) (.setup_fails hslot) n
  | send serial received =>
    obtain ⟨spawn, hspawn, hnext⟩ := Option.bind_eq_some_iff.mp hnext
    obtain ⟨hspawn, hstage⟩ := spawn_at_eq_some.mp hspawn
    split at hnext
    · obtain rfl := Option.some.inj hnext
      exact advances_set_stage hspawn hstage rfl (by rfl) (by simp) (.send) n
    · obtain rfl := Option.some.inj hnext
      exact advances_set_stage hspawn hstage rfl (by rfl) (by simp) (.send_fails) n
  | abort_check serial =>
    obtain ⟨spawn, hspawn, hnext⟩ := Option.bind_eq_some_iff.mp hnext
    split at hnext
    case h_1 remove_snapshot hstage =>
      split at hnext
      · obtain rfl := Option.some.inj hnext
        exact advances_set_stage hspawn hstage rfl (by rfl) (by simp) (.check) n
      case isFalse hother =>
        obtain rfl := Option.some.inj hnext
        have hfree : Free (registry.slot spawn.session_id) (generation_of serial) :=
          fun slot hslot hgeneration => hother (is_current_generation_iff.mpr ⟨slot, hslot, hgeneration⟩)
        exact advances_set_stage hspawn hstage rfl (by rfl) (by simp) (.overtaken hfree) n
    case h_2 => simp at hnext
  | abort_round serial round =>
    obtain ⟨spawn, hspawn, hnext⟩ := Option.bind_eq_some_iff.mp hnext
    split at hnext
    case h_1 remove_snapshot hstage =>
      obtain ⟨child, hchild, hnext⟩ := Option.bind_eq_some_iff.mp hnext
      split at hnext
      case h_1 =>
        obtain rfl := Option.some.inj hnext
        exact .same rfl nofun nofun
      case h_2 child' error hresult =>
        obtain rfl := Option.some.inj hnext
        exact advances_set_stage hspawn hstage rfl (by rfl) (by simp)
          (.fails rfl hchild (terminate_fails hresult)) n
      case h_3 =>
        obtain rfl := Option.some.inj hnext
        exact advances_set_stage hspawn hstage rfl (by rfl) (by simp) (.terminated) n
    case h_2 => simp at hnext
  | abort_remove serial =>
    obtain ⟨spawn, hspawn, hnext⟩ := Option.bind_eq_some_iff.mp hnext
    split at hnext
    case h_1 remove_snapshot hstage =>
      obtain rfl := Option.some.inj hnext
      have hkeeps := (remove_aborted_drops registry spawn.session_id (generation_of serial)
        remove_snapshot).keeps
      exact advances_set_stage hspawn hstage rfl hkeeps.spawns (by simp)
        (.remove (aborted_slot registry spawn.session_id (generation_of serial) _)) n
    case h_2 => simp at hnext
  | close | stop_all =>
    cases hnext
    exact .same rfl nofun nofun
  | stop_for_host host_id =>
    refine .same (Option.some.inj hnext ▸ ?_) nofun nofun
    cases sessions_of_host registry host_id <;> rfl
  | call_step call round =>
    rw [Option.ite_none_right_eq_some] at hnext
    exact .same (congrFun (call_step_spawns hnext.2).1 n) nofun nofun
  | stop_round cleanups cleanup round =>
    rw [Option.ite_none_right_eq_some] at hnext
    obtain ⟨child, hchild, hnext⟩ := Option.bind_eq_some_iff.mp hnext.2
    split at hnext <;> exact .same (Option.some.inj hnext ▸ rfl) nofun nofun
  | wait_take serial =>
    obtain ⟨child, hchild, hnext⟩ := Option.bind_eq_some_iff.mp hnext
    rw [Option.ite_none_right_eq_some] at hnext
    obtain ⟨_, hnext⟩ := hnext
    split at hnext <;> exact .same (Option.some.inj hnext ▸ rfl) nofun nofun
  | wait_exit | wait_fail =>
    obtain ⟨child, hchild, hnext⟩ := Option.bind_eq_some_iff.mp hnext
    rw [Option.ite_none_right_eq_some] at hnext
    exact .same (Option.some.inj hnext.2 ▸ rfl) nofun nofun
  | finalize serial status =>
    obtain ⟨spawn, hspawn, hnext⟩ := Option.bind_eq_some_iff.mp hnext
    rw [Option.ite_none_right_eq_some] at hnext
    have hkeeps := (finalize_exit_drops registry spawn.session_id (generation_of serial) status).keeps
    obtain rfl := Option.some.inj hnext.2
    exact .same (congrFun hkeeps.spawns n) nofun nofun
  | record serial error =>
    obtain ⟨spawn, hspawn, hnext⟩ := Option.bind_eq_some_iff.mp hnext
    rw [Option.ite_none_right_eq_some] at hnext
    have hkeeps := record_error_keeps registry spawn.session_id (generation_of serial)
      ("failed to wait for PTY child: ".toList ++ error)
    obtain rfl := Option.some.inj hnext.2
    exact .same (congrFun hkeeps.spawns n) nofun nofun
  | read_fails serial failure =>
    obtain ⟨spawn, hspawn, hnext⟩ := Option.bind_eq_some_iff.mp hnext
    rw [Option.ite_none_right_eq_some] at hnext
    have hkeeps := record_error_keeps registry spawn.session_id (generation_of serial) failure.message
    obtain rfl := Option.some.inj hnext.2
    exact .same (congrFun hkeeps.spawns n) nofun nofun
  | child_exits serial =>
    obtain ⟨child, hchild, hnext⟩ := Option.bind_eq_some_iff.mp hnext
    exact .same (Option.some.inj hnext ▸ rfl) nofun nofun

/-- A call of `close`, or of the `stop_for_host` that calls it. -/
def Label.closes : Label → Bool
  | .close _ | .stop_for_host _ | .call_step _ _ => true
  | _ => false

/-- What is left of a step beside slots, records, children and spawns. -/
structure Frame (registry : TerminalRegistry) (label : Label) (registry' : TerminalRegistry) : Prop where
  counter : registry'.next_generation = registry.next_generation + label.draws
  calls : label.closes = false → registry'.calls = registry.calls

theorem step_frame (hnext : registry.next label = some registry') : Frame registry label registry' := by
  unfold TerminalRegistry.next at hnext
  cases label with
  | start | reconnect | stop_all =>
    cases hnext
    exact ⟨rfl, fun _ => rfl⟩
  | close session_id =>
    cases hnext
    exact ⟨rfl, nofun⟩
  | reserve serial =>
    obtain ⟨spawn, hspawn, hnext⟩ := Option.bind_eq_some_iff.mp hnext
    split at hnext
    case h_1 reconnects _ =>
      obtain rfl := Option.some.inj hnext
      rcases reserve_effect registry serial spawn reconnects with hsame | ⟨_, _, _, _, _, hsame⟩
      all_goals
        rw [hsame]
        exact ⟨rfl, fun _ => rfl⟩
    case h_2 => simp at hnext
  | spawn_fails serial =>
    obtain ⟨spawn, _, hnext⟩ := Option.bind_eq_some_iff.mp hnext
    obtain rfl := Option.some.inj hnext
    have hkeeps := (release_reservation_drops registry spawn.session_id (generation_of serial)).keeps
    exact ⟨hkeeps.counter, fun _ => hkeeps.calls⟩
  | spawn_command | setup_fails | child_exits =>
    obtain ⟨_, _, hnext⟩ := Option.bind_eq_some_iff.mp hnext
    cases hnext
    exact ⟨rfl, fun _ => rfl⟩
  | register serial =>
    obtain ⟨spawn, _, hnext⟩ := Option.bind_eq_some_iff.mp hnext
    have hkeeps := register_keeps registry spawn.session_id (generation_of serial) serial
    split at hnext
    all_goals
      rename_i hresult
      rw [hresult] at hkeeps
      exact Option.some.inj hnext ▸ ⟨hkeeps.counter, fun _ => hkeeps.calls⟩
  | commit serial =>
    obtain ⟨spawn, _, hnext⟩ := Option.bind_eq_some_iff.mp hnext
    have hkeeps := commit_keeps registry spawn.session_id
      ⟨generation_of serial, spawn.host.id, serial⟩ (spawn.snapshot (generation_of serial))
    dsimp only at hnext hkeeps
    split at hnext
    all_goals
      rename_i hresult
      rw [hresult] at hkeeps
      exact Option.some.inj hnext ▸ ⟨hkeeps.counter, fun _ => hkeeps.calls⟩
  | send serial received =>
    obtain ⟨_, _, hnext⟩ := Option.bind_eq_some_iff.mp hnext
    split at hnext <;> exact Option.some.inj hnext ▸ ⟨rfl, fun _ => rfl⟩
  | abort_check serial =>
    obtain ⟨_, _, hnext⟩ := Option.bind_eq_some_iff.mp hnext
    split at hnext
    case h_1 => split at hnext <;> exact Option.some.inj hnext ▸ ⟨rfl, fun _ => rfl⟩
    case h_2 => simp at hnext
  | abort_round serial round =>
    obtain ⟨_, _, hnext⟩ := Option.bind_eq_some_iff.mp hnext
    split at hnext
    case h_1 =>
      obtain ⟨_, _, hnext⟩ := Option.bind_eq_some_iff.mp hnext
      split at hnext <;> exact Option.some.inj hnext ▸ ⟨rfl, fun _ => rfl⟩
    case h_2 => simp at hnext
  | abort_remove serial =>
    obtain ⟨spawn, _, hnext⟩ := Option.bind_eq_some_iff.mp hnext
    split at hnext
    case h_1 remove_snapshot _ =>
      obtain rfl := Option.some.inj hnext
      have hkeeps := (remove_aborted_drops registry spawn.session_id (generation_of serial)
        remove_snapshot).keeps
      exact ⟨hkeeps.counter, fun _ => hkeeps.calls⟩
    case h_2 => simp at hnext
  | stop_for_host host_id =>
    refine Option.some.inj hnext ▸ ⟨?_, nofun⟩
    cases sessions_of_host registry host_id <;> rfl
  | call_step call round =>
    rw [Option.ite_none_right_eq_some] at hnext
    exact ⟨(call_step_spawns hnext.2).2, nofun⟩
  | stop_round cleanups cleanup round =>
    rw [Option.ite_none_right_eq_some] at hnext
    obtain ⟨_, _, hnext⟩ := Option.bind_eq_some_iff.mp hnext.2
    split at hnext <;> exact Option.some.inj hnext ▸ ⟨rfl, fun _ => rfl⟩
  | wait_take serial =>
    obtain ⟨_, _, hnext⟩ := Option.bind_eq_some_iff.mp hnext
    rw [Option.ite_none_right_eq_some] at hnext
    obtain ⟨_, hnext⟩ := hnext
    split at hnext <;> exact Option.some.inj hnext ▸ ⟨rfl, fun _ => rfl⟩
  | wait_exit | wait_fail =>
    obtain ⟨_, _, hnext⟩ := Option.bind_eq_some_iff.mp hnext
    rw [Option.ite_none_right_eq_some] at hnext
    exact Option.some.inj hnext.2 ▸ ⟨rfl, fun _ => rfl⟩
  | finalize serial status =>
    obtain ⟨spawn, _, hnext⟩ := Option.bind_eq_some_iff.mp hnext
    rw [Option.ite_none_right_eq_some] at hnext
    obtain rfl := Option.some.inj hnext.2
    have hkeeps := (finalize_exit_drops registry spawn.session_id (generation_of serial) status).keeps
    exact ⟨hkeeps.counter, fun _ => hkeeps.calls⟩
  | record serial error =>
    obtain ⟨spawn, _, hnext⟩ := Option.bind_eq_some_iff.mp hnext
    rw [Option.ite_none_right_eq_some] at hnext
    obtain rfl := Option.some.inj hnext.2
    have hkeeps := record_error_keeps registry spawn.session_id (generation_of serial)
      ("failed to wait for PTY child: ".toList ++ error)
    exact ⟨hkeeps.counter, fun _ => hkeeps.calls⟩
  | read_fails serial failure =>
    obtain ⟨spawn, _, hnext⟩ := Option.bind_eq_some_iff.mp hnext
    rw [Option.ite_none_right_eq_some] at hnext
    obtain rfl := Option.some.inj hnext.2
    have hkeeps := record_error_keeps registry spawn.session_id (generation_of serial) failure.message
    exact ⟨hkeeps.counter, fun _ => hkeeps.calls⟩

/-! ### The invariant -/

def SpawnStage.is_drawn : SpawnStage → Bool
  | .drawn _ => true
  | _ => false

/-- The stages of a spawn whose generation a slot may have. -/
def SpawnStage.admits : SpawnStage → TerminalSlot → Bool
  | .reserved, .Starting _ _ _ _ | .spawned, .Starting _ _ _ _ => true
  | .registered, .Starting _ _ _ cleanup | .returned, .Starting _ _ _ cleanup => cleanup.isSome
  | .aborting remove_snapshot, .Starting _ _ _ cleanup
  | .terminating remove_snapshot, .Starting _ _ _ cleanup
  | .removing remove_snapshot, .Starting _ _ _ cleanup => !remove_snapshot && cleanup.isSome
  | .committed, .Running _ | .returned, .Running _ => true
  | .aborting remove_snapshot, .Running _ | .terminating remove_snapshot, .Running _
  | .removing remove_snapshot, .Running _ => remove_snapshot
  | _, _ => false

/-- The spawn of a generation of a session, which has reserved its slot. -/
def SpawnOf (registry : TerminalRegistry) (session_id : Text) (generation serial : Nat)
    (spawn : Spawn) : Prop :=
  registry.spawns serial = some spawn ∧ spawn.session_id = session_id ∧
    generation = generation_of serial ∧ spawn.stage.is_drawn = false

/-- Slots and records belong to spawns, and a session that starts in a
    generation has no record of it yet. -/
structure StageInv (registry : TerminalRegistry) : Prop where
  counter : registry.next_generation < GENERATIONS
  drawn : ∀ serial spawn, registry.spawns serial = some spawn → serial < registry.next_generation
  slot : ∀ id slot, registry.slot id = some slot → ∃ serial spawn,
    SpawnOf registry id slot.generation serial spawn ∧ spawn.stage.admits slot = true
  record : ∀ id record, registry.snapshots.lookup id = some record →
    (∃ serial spawn, SpawnOf registry id record.generation serial spawn) ∧
      ∀ host_id close_requested cleanup, registry.slot id ≠
        some (.Starting record.generation host_id close_requested cleanup)

/-- Each generation has one spawn. -/
theorem StageInv.serial_unique (h : StageInv registry) {n m : Nat} {found other : Spawn}
    (hn : registry.spawns n = some found) (hm : registry.spawns m = some other)
    (hgeneration : generation_of n = generation_of m) : n = m := by
  have hcounter := h.counter
  have hfound := h.drawn n found hn
  have hother := h.drawn m other hm
  exact generation_of_inj (by omega) (by omega) hgeneration

theorem Moves.not_drawn (h : Moves registry label serial before after stage stage') :
    stage'.is_drawn = false := by
  cases h with
  | register _ hstage => rcases hstage with rfl | rfl <;> rfl
  | _ => rfl

/-- The stages of a spawn fit the slot of its generation. -/
theorem Moves.admits {slot : TerminalSlot} (h : Moves registry label serial before (some slot) stage stage')
    (hadmits : stage.admits slot = true) (hgeneration : slot.generation = generation_of serial) :
    stage'.admits slot = true := by
  cases slot with
  | Starting current host_id close_requested cleanup =>
    have hgeneration : current = generation_of serial := hgeneration
    subst hgeneration
    cases h with
    | refuse | reserve => simp [SpawnStage.admits] at hadmits
    | release hslot => exact absurd rfl (hslot _ _ _)
    | spawn => rfl
    | register _ hstage hslot =>
      have hcleanup := hslot _ _ _ rfl
      rcases hstage with rfl | rfl
      · exact hcleanup
      · simpa [SpawnStage.admits] using hcleanup
    | setup_fails => simpa [SpawnStage.admits] using hadmits
    | commit hslot => simp at hslot
    | send | send_fails => simp [SpawnStage.admits] at hadmits
    | check | terminated => exact hadmits
    | overtaken hslot | remove hslot => exact absurd rfl (hslot _ rfl)
    | fails =>
      simp only [SpawnStage.admits, Bool.and_eq_true] at hadmits
      exact hadmits.2
  | Running session =>
    cases h with
    | refuse | reserve | release | spawn | register | setup_fails | commit =>
      simp [SpawnStage.admits] at hadmits
    | send | fails | overtaken | remove | send_fails => rfl
    | check | terminated => exact hadmits

theorem SpawnOf.step (h : SpawnOf registry id generation serial spawn)
    (hdrawn : serial < registry.next_generation) (hnext : registry.next label = some registry') :
    ∃ spawn', SpawnOf registry' id generation serial spawn' ∧
      (spawn' = spawn ∨
        Moves registry label serial (registry.slot id) (registry'.slot id) spawn.stage spawn'.stage) := by
  obtain ⟨hspawn, hsession, hgeneration, hstage⟩ := h
  subst hsession
  cases step_advances hnext serial with
  | same hsame => exact ⟨spawn, ⟨hsame.trans hspawn, rfl, hgeneration, hstage⟩, .inl rfl⟩
  | draw hserial => omega
  | @move old spawn' hold hspawn' hsession hmoves =>
    rw [hspawn, Option.some.injEq] at hold
    subst hold
    exact ⟨spawn', ⟨hspawn', hsession, hgeneration, hmoves.not_drawn⟩, .inr hmoves⟩

/-- A slot has a spawn whose stage admits it. -/
def Admitted (registry : TerminalRegistry) (id : Text) (slot : TerminalSlot) : Prop :=
  ∃ serial spawn, SpawnOf registry id slot.generation serial spawn ∧ spawn.stage.admits slot = true

theorem StageInv.admitted_step (h : StageInv registry) (hnext : registry.next label = some registry')
    {slot : TerminalSlot} (hadmitted : Admitted registry id slot)
    (hslot : registry'.slot id = some slot) : Admitted registry' id slot := by
  obtain ⟨serial, spawn, hspawn, hadmits⟩ := hadmitted
  obtain ⟨spawn', hspawn', rfl | hmoves⟩ := hspawn.step (h.drawn serial spawn hspawn.1) hnext
  · exact ⟨serial, spawn', hspawn', hadmits⟩
  · rw [hslot] at hmoves
    exact ⟨serial, spawn', hspawn', hmoves.admits hadmits hspawn.2.2.1⟩

/-- The spawn that a step is about has moved. -/
theorem StageInv.moved (h : StageInv registry) (hnext : registry.next label = some registry')
    (hspawn : registry.spawns serial = some spawn)
    (hlabel : label = .reserve serial ∨ label = .commit serial) :
    ∃ spawn', registry'.spawns serial = some spawn' ∧ spawn'.session_id = spawn.session_id ∧
      Moves registry label serial (registry.slot spawn.session_id) (registry'.slot spawn.session_id)
        spawn.stage spawn'.stage := by
  cases step_advances hnext serial with
  | same _ hreserve hcommit =>
    rcases hlabel with hlabel | hlabel
    · exact absurd hlabel hreserve
    · exact absurd hlabel hcommit
  | draw hserial =>
    have hdrawn := h.drawn serial spawn hspawn
    omega
  | @move old spawn' hold hspawn' hsession hmoves =>
    rw [hspawn, Option.some.injEq] at hold
    subst hold
    exact ⟨spawn', hspawn', hsession, hmoves⟩

theorem StageInv.slot_step (h : StageInv registry) (hnext : registry.next label = some registry')
    {slot : TerminalSlot} (hslot : registry'.slot id = some slot) : Admitted registry' id slot := by
  have hchange := step_change hnext id
  have hwas : ∀ old, registry.slot id = some old → Admitted registry id old := h.slot id
  have hslots : registry.slot id = (registry.entry id).slot ∧ registry'.slot id = (registry'.entry id).slot :=
    ⟨rfl, rfl⟩
  generalize hbefore : registry.entry id = before at hchange hslots
  generalize hafter : registry'.entry id = after at hchange hslots
  obtain ⟨hold, hnew⟩ := hslots
  have hafter : after.slot = some slot := hnew ▸ hslot
  cases hchange with
  | same => exact h.admitted_step hnext (hwas slot (hold.trans hafter)) hslot
  | @reserve serial spawn reconnects record hlabel hspawn hstage hsession =>
    obtain ⟨spawn', hspawn', hid, hmoves⟩ := h.moved hnext hspawn (.inl hlabel)
    rw [hsession, hold, hslot, hstage] at hmoves
    obtain rfl := Option.some.inj hafter
    generalize hnow : spawn'.stage = stage' at hmoves
    cases hmoves with
    | refuse hsame => simp at hsame
    | reserve =>
      refine ⟨serial, spawn', ⟨hspawn', hid.trans hsession, rfl, ?_⟩, ?_⟩
      · rw [hnow]
        rfl
      · rw [hnow]
        rfl
  | @register serial spawn host_id close_requested cleanup record =>
    obtain ⟨other, found, hfound, hadmits⟩ := hwas _ hold
    obtain rfl := Option.some.inj hafter
    refine h.admitted_step hnext ⟨other, found, hfound, ?_⟩ hslot
    generalize found.stage = stage at hadmits
    cases stage <;> simp_all [SpawnStage.admits]
  | mark =>
    obtain ⟨other, found, hfound, hadmits⟩ := hwas _ hold
    obtain rfl := Option.some.inj hafter
    refine h.admitted_step hnext ⟨other, found, hfound, ?_⟩ hslot
    generalize found.stage = stage at hadmits
    cases stage <;> exact hadmits
  | @commit serial spawn host_id cleanup record hlabel hspawn hstage hsession =>
    obtain ⟨spawn', hspawn', hid, hmoves⟩ := h.moved hnext hspawn (.inr hlabel)
    rw [hsession, hold, hslot, hstage] at hmoves
    obtain rfl := Option.some.inj hafter
    generalize hnow : spawn'.stage = stage' at hmoves
    cases hmoves with
    | setup_fails hsame => simp at hsame
    | commit =>
      refine ⟨serial, spawn', ⟨hspawn', hid.trans hsession, rfl, ?_⟩, ?_⟩
      · rw [hnow]
        rfl
      · rw [hnow]
        rfl
  | fail =>
    obtain rfl := Option.some.inj hafter
    exact h.admitted_step hnext (hwas _ hold) hslot
  | release | abort | close | forget | exit => simp at hafter

/-- A record belongs to a spawn, and its session does not start again in its generation. -/
def Recorded (registry : TerminalRegistry) (id : Text) (generation : Nat) : Prop :=
  (∃ serial spawn, SpawnOf registry id generation serial spawn) ∧
    ∀ host_id close_requested cleanup, registry.slot id ≠
      some (.Starting generation host_id close_requested cleanup)

theorem StageInv.recorded_step (h : StageInv registry) (hnext : registry.next label = some registry')
    (hrecorded : Recorded registry id generation) : Recorded registry' id generation := by
  obtain ⟨⟨serial, spawn, hspawn⟩, hstarting⟩ := hrecorded
  have hserial := h.drawn serial spawn hspawn.1
  obtain ⟨spawn', hspawn', _⟩ := hspawn.step hserial hnext
  refine ⟨⟨serial, spawn', hspawn'⟩, ?_⟩
  intro host_id close_requested cleanup hslot
  have hchange := step_change hnext id
  have hslots : registry.slot id = (registry.entry id).slot ∧ registry'.slot id = (registry'.entry id).slot :=
    ⟨rfl, rfl⟩
  generalize hbefore : registry.entry id = before at hchange hslots
  generalize hafter : registry'.entry id = after at hchange hslots
  obtain ⟨hold, hnew⟩ := hslots
  have hafter : after.slot = some (.Starting generation host_id close_requested cleanup) := hnew ▸ hslot
  cases hchange with
  | same => exact hstarting _ _ _ (hold.trans hafter)
  | @reserve other found _ _ _ hfound hstage =>
    -- the generation would have been drawn twice
    simp only [Option.some.injEq, TerminalSlot.Starting.injEq] at hafter
    have hsame : other = serial :=
      h.serial_unique hfound hspawn.1 (hafter.1.trans hspawn.2.2.1)
    rw [hsame, hspawn.1, Option.some.injEq] at hfound
    have hreserved := hspawn.2.2.2
    rw [hfound, hstage] at hreserved
    simp [SpawnStage.is_drawn] at hreserved
  | register | mark =>
    simp only [Option.some.injEq, TerminalSlot.Starting.injEq] at hafter
    obtain ⟨hgeneration, _⟩ := hafter
    rw [hgeneration] at hold
    exact hstarting _ _ _ hold
  | commit | fail => simp at hafter
  | release | abort | close | forget | exit => simp at hafter

theorem StageInv.record_step (h : StageInv registry) (hnext : registry.next label = some registry')
    {record : TerminalRecord} (hrecord : registry'.snapshots.lookup id = some record) :
    Recorded registry' id record.generation := by
  have hchange := step_change hnext id
  have hwas : ∀ old, (registry.entry id).record = some old → Recorded registry id old.generation :=
    h.record id
  generalize hbefore : registry.entry id = before at hchange hwas
  generalize hafter : registry'.entry id = after at hchange
  have hafter' : after.record = some record := hafter ▸ hrecord
  cases hchange with
  | same | reserve | register | mark => exact h.recorded_step hnext (hwas record hafter')
  | @commit serial spawn host_id cleanup old hlabel hspawn hstage hsession =>
    obtain rfl := Option.some.inj hafter'
    obtain ⟨spawn', hspawn', hid, hmoves⟩ := h.moved hnext hspawn (.inr hlabel)
    refine ⟨⟨serial, spawn', hspawn', hid.trans hsession, rfl, hmoves.not_drawn⟩, ?_⟩
    intro host_id close_requested cleanup hslot
    have hslot : (registry'.entry id).slot = _ := hslot
    simp [hafter] at hslot
  | release | abort =>
    dsimp only at hafter'
    split at hafter'
    · simp at hafter'
    · exact h.recorded_step hnext (hwas record hafter')
  | close | forget => simp at hafter'
  | @exit _ _ _ _ old | @fail _ _ _ old =>
    obtain rfl := Option.some.inj hafter'
    exact h.recorded_step hnext (hwas old rfl)

/-- The counter does not run out. -/
def Label.fits (registry : TerminalRegistry) (label : Label) : Prop :=
  registry.next_generation + label.draws < GENERATIONS

theorem StageInv.step (h : StageInv registry) (hfits : label.fits registry)
    (hnext : registry.next label = some registry') : StageInv registry' := by
  have hcounter := (step_frame hnext).counter
  refine ⟨?_, ?_, fun id slot => h.slot_step hnext, fun id record => h.record_step hnext⟩
  · rw [hcounter]
    exact hfits
  · intro serial spawn hspawn
    cases step_advances hnext serial with
    | same hsame =>
      have hdrawn := h.drawn serial spawn (hsame ▸ hspawn)
      omega
    | draw hserial hdraws =>
      omega
    | move hold =>
      have hdrawn := h.drawn serial _ hold
      omega

theorem stageInv_default : StageInv .default := by
  refine ⟨Nat.zero_lt_succ _, ?_, ?_, ?_⟩
  · intro serial spawn hspawn
    exact absurd hspawn (Option.some_ne_none spawn).symm
  · intro id slot hslot
    rw [TerminalRegistry.slot, TerminalRegistry.default, AList.lookup_empty] at hslot
    exact absurd hslot (Option.some_ne_none slot).symm
  · intro id record hrecord
    rw [TerminalRegistry.default, AList.lookup_empty] at hrecord
    exact absurd hrecord (Option.some_ne_none record).symm

theorem reachable_stageInv
    (h : sessions.ReachableWhen (fun registry label => label.fits registry) registry) :
    StageInv registry := by
  refine h.invariant ?_ ?_
  · rintro registry rfl
    exact stageInv_default
  · intro registry label registry' hinv hfits hnext
    exact hinv.step hfits hnext

end Session
