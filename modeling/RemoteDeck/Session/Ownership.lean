import RemoteDeck.Session.Entries
import RemoteDeck.Store.Invariant

/-! # Every terminal child has an owner

    A child is owned by the slot of its session and generation, held by a
    running `stop_all` that took it out of its slot, or not alive
    (`children_owned`).  Until its cleanup is registered it belongs to the
    call that spawned it.
-/

namespace Session

variable {registry registry' : TerminalRegistry} {serial : Nat} {child child' : Child} {spawn : Spawn}
  {session_id : Text} {generation : Nat}

/-! ### Owners -/

/-- The slot of its session and generation has the child. -/
def Owned (registry : TerminalRegistry) (serial : Nat) : Prop :=
  ∃ (spawn : Spawn) (slot : TerminalSlot), registry.spawns serial = some spawn ∧
    registry.slot spawn.session_id = some slot ∧ slot.generation = generation_of serial ∧
      slot.cleanup = some serial

/-- A running `stop_all` is about to terminate the child. -/
def Held (registry : TerminalRegistry) (serial : Nat) : Prop :=
  ∃ cleanups ∈ registry.stops, serial ∈ cleanups

/-- The child has exited. -/
def Dead (registry : TerminalRegistry) (serial : Nat) : Prop :=
  ∃ child, registry.children serial = some child ∧ child.alive = false

/-- A step of the child's own spawn is pending. -/
def Pending (registry : TerminalRegistry) (serial : Nat) : Prop :=
  ∃ spawn, registry.spawns serial = some spawn ∧ spawn.stage ≠ .returned

/-- The spawn has not made its child yet. -/
def SpawnStage.childless : SpawnStage → Bool
  | .drawn _ | .reserved => true
  | _ => false

/-- The child exists and its cleanup is not registered yet. -/
def Unregistered (registry : TerminalRegistry) (serial : Nat) : Prop :=
  ∃ spawn, registry.spawns serial = some spawn ∧ spawn.stage = .spawned

/-! ### Slots -/

theorem mem_cleanups_of {slot : TerminalSlot} (h : registry.slot session_id = some slot)
    (hcleanup : slot.cleanup = some serial) : serial ∈ cleanups_of registry := by
  refine List.mem_filterMap.mpr ⟨⟨session_id, slot⟩, ?_, hcleanup⟩
  exact AList.mem_lookup_iff.mp h

/-! ### What the locked sections do to the slots -/

def TerminalRegistry.with_snapshots (registry : TerminalRegistry) (snapshots : Records) :
    TerminalRegistry :=
  { registry with snapshots := snapshots }

/-- Nothing, or the slot of a session is removed if it has a generation. -/
def Drops (registry : TerminalRegistry) (session_id : Text) (generation : Nat)
    (registry' : TerminalRegistry) : Prop :=
  ∃ snapshots : Records, registry' = registry.with_snapshots snapshots ∨
    ∃ slot, registry.slot session_id = some slot ∧ slot.generation = generation ∧
      registry' = (registry.remove_slot session_id).with_snapshots snapshots

/-- The slot of a session is replaced by one of the same generation. -/
def Replaces (registry : TerminalRegistry) (session_id : Text) (slot : TerminalSlot)
    (registry' : TerminalRegistry) : Prop :=
  ∃ (old : TerminalSlot) (snapshots : Records), registry.slot session_id = some old ∧
    old.generation = slot.generation ∧
      registry' = (registry.insert_slot session_id slot).with_snapshots snapshots

theorem Drops.refl (registry : TerminalRegistry) (session_id : Text) (generation : Nat) :
    Drops registry session_id generation registry :=
  ⟨registry.snapshots, .inl rfl⟩

theorem release_reservation_drops (registry : TerminalRegistry) (session_id : Text)
    (generation : Nat) :
    Drops registry session_id generation
      (release_reservation registry session_id generation) := by
  unfold release_reservation
  split
  case h_2 => exact .refl ..
  case h_1 current _ close_requested _ hslot =>
    by_cases hcurrent : current = generation
    · rw [if_pos hcurrent]
      cases close_requested
      · exact ⟨registry.snapshots, .inr ⟨_, hslot, hcurrent, rfl⟩⟩
      · exact ⟨registry.snapshots.erase session_id, .inr ⟨_, hslot, hcurrent, rfl⟩⟩
    · rw [if_neg hcurrent]
      exact .refl ..

theorem remove_aborted_drops (registry : TerminalRegistry) (session_id : Text) (generation : Nat)
    (remove_snapshot : Bool) :
    Drops registry session_id generation
      (remove_aborted registry session_id generation remove_snapshot) := by
  unfold remove_aborted
  split
  case h_2 => exact .refl ..
  case h_1 slot hslot =>
    by_cases hcurrent : slot.generation = generation
    · rw [if_pos hcurrent]
      cases slot with
      | Starting _ _ close_requested _ =>
        dsimp only
        cases remove_snapshot || close_requested
        · exact ⟨registry.snapshots, .inr ⟨_, hslot, hcurrent, rfl⟩⟩
        · exact ⟨registry.snapshots.erase session_id, .inr ⟨_, hslot, hcurrent, rfl⟩⟩
      | Running session =>
        cases remove_snapshot
        · exact ⟨registry.snapshots, .inr ⟨_, hslot, hcurrent, rfl⟩⟩
        · exact ⟨registry.snapshots.erase session_id, .inr ⟨_, hslot, hcurrent, rfl⟩⟩
    · rw [if_neg hcurrent]
      exact .refl ..

theorem remove_closed_drops (registry : TerminalRegistry) (session_id : Text) (generation : Nat) :
    Drops registry session_id generation (remove_closed registry session_id generation) := by
  unfold remove_closed
  split
  case isFalse => exact .refl ..
  case isTrue hcurrent =>
    obtain ⟨slot, hslot, hgeneration⟩ := is_current_generation_iff.mp hcurrent
    exact ⟨registry.snapshots.erase session_id, .inr ⟨slot, hslot, hgeneration, rfl⟩⟩

theorem finalize_exit_drops (registry : TerminalRegistry) (session_id : Text) (generation : Nat)
    (status : ExitStatus) :
    Drops registry session_id generation (finalize_exit registry session_id generation status) := by
  unfold finalize_exit
  split
  case h_1 => exact .refl ..
  case h_2 record hrecord =>
    obtain ⟨session, hslot, hgeneration, _⟩ := running_record_eq_some hrecord
    exact ⟨_, .inr ⟨.Running session, hslot, hgeneration, rfl⟩⟩

theorem record_terminal_error_snapshots (registry : TerminalRegistry) (session_id : Text)
    (generation : Nat) (message : Text) :
    ∃ snapshots : Records, record_terminal_error registry session_id generation message =
      registry.with_snapshots snapshots := by
  unfold record_terminal_error
  split
  case h_1 => exact ⟨registry.snapshots, rfl⟩
  case h_2 record hrecord =>
    split
    · exact ⟨registry.snapshots, rfl⟩
    · exact ⟨_, rfl⟩

theorem register_effect (registry : TerminalRegistry) (session_id : Text) (generation serial : Nat) :
    (∃ host_id close_requested, Replaces registry session_id
        (.Starting generation host_id close_requested (some serial))
        (register_spawn_cleanup registry session_id generation serial).1) ∨
      (register_spawn_cleanup registry session_id generation serial = (registry, false) ∧
        ∀ host_id close_requested cleanup, registry.slot session_id ≠
          some (.Starting generation host_id close_requested cleanup)) := by
  unfold register_spawn_cleanup
  split
  case h_1 current host_id close_requested cleanup hslot =>
    by_cases hcurrent : current = generation
    · subst hcurrent
      rw [if_pos rfl]
      exact .inl ⟨host_id, close_requested, _, registry.snapshots, hslot, rfl, rfl⟩
    · rw [if_neg hcurrent]
      refine .inr ⟨rfl, fun _ _ _ h => ?_⟩
      rw [hslot] at h
      simp only [Option.some.injEq, TerminalSlot.Starting.injEq] at h
      exact hcurrent h.1
  case h_2 hslot => exact .inr ⟨rfl, fun _ _ _ h => hslot _ _ _ _ h⟩

theorem prune_terminal_records_snapshots (limit bound : Nat) (registry : TerminalRegistry) :
    ∃ snapshots : Records,
      prune_terminal_records limit bound registry = registry.with_snapshots snapshots := by
  induction bound generalizing registry with
  | zero => exact ⟨registry.snapshots, rfl⟩
  | succ bound ih =>
    unfold prune_terminal_records
    split
    · exact ⟨registry.snapshots, rfl⟩
    · split
      · exact ⟨registry.snapshots, rfl⟩
      · obtain ⟨snapshots, h⟩ := ih (registry.remove_snapshot _)
        exact ⟨snapshots, h⟩

theorem commit_effect (registry : TerminalRegistry) (session_id : Text)
    (session : TerminalSession) (snapshot : TerminalSnapshot) :
    Replaces registry session_id (.Running session)
        (commit_running registry session_id session.generation session snapshot).1 ∨
      commit_running registry session_id session.generation session snapshot = (registry, false) := by
  unfold commit_running
  split
  case h_2 => exact .inr rfl
  case h_1 current _ _ hslot =>
    by_cases hcurrent : current = session.generation
    · rw [if_pos hcurrent]
      obtain ⟨snapshots, h⟩ := prune_terminal_records_snapshots MAX_RETAINED_TERMINALS _ _
      exact .inl ⟨_, _, hslot, hcurrent, h⟩
    · rw [if_neg hcurrent]
      exact .inr rfl

/-- A request to close marks a starting slot, or changes no slot; what it
    returns is what the slot has. -/
theorem request_close_effect (registry : TerminalRegistry) (session_id : Text) :
    (∃ snapshots : Records,
        (request_close registry session_id).1 = registry.with_snapshots snapshots ∨
      ∃ old slot : TerminalSlot, registry.slot session_id = some old ∧
        old.generation = slot.generation ∧ old.cleanup = slot.cleanup ∧
          (request_close registry session_id).1 =
            (registry.insert_slot session_id slot).with_snapshots snapshots) ∧
    ∀ generation cleanup,
      (request_close registry session_id).2 = .ok (some (generation, cleanup)) →
        ∃ slot, registry.slot session_id = some slot ∧ slot.generation = generation ∧
          slot.cleanup = some cleanup := by
  unfold request_close
  split
  case h_1 current host_id _ cleanup hslot =>
    refine ⟨⟨registry.snapshots, .inr ⟨_, .Starting current host_id true cleanup, hslot, rfl, rfl, rfl⟩⟩,
      fun generation found h => ?_⟩
    simp only [Except.ok.injEq, Option.map_eq_some_iff, Prod.mk.injEq] at h
    obtain ⟨_, hcleanup, rfl, rfl⟩ := h
    exact ⟨_, hslot, rfl, hcleanup⟩
  case h_2 session hslot =>
    refine ⟨⟨registry.snapshots, .inl rfl⟩, fun generation found h => ?_⟩
    simp only [Except.ok.injEq, Option.some.injEq, Prod.mk.injEq] at h
    obtain ⟨rfl, rfl⟩ := h
    exact ⟨_, hslot, rfl, rfl⟩
  case h_3 =>
    split
    · exact ⟨⟨_, .inl rfl⟩, by simp⟩
    · exact ⟨⟨registry.snapshots, .inl rfl⟩, by simp⟩

/-! ### Termination -/

/-- What is observed of a child is true, and a round does not bring it back. -/
theorem terminate_cleanup_effect (round : Round) (h : child.terminated = true → child.alive = false) :
    (terminate_cleanup child round).1.alive = child.alive ∧
      ((terminate_cleanup child round).1.terminated = true → child.alive = false) ∧
      ((terminate_cleanup child round).2 = some (.ok ()) → child.alive = false) := by
  have hwait : (wait_for_cleanup_exit child round).1.alive = child.alive ∧
      ((wait_for_cleanup_exit child round).1.terminated = true → child.alive = false) ∧
      ((wait_for_cleanup_exit child round).2 = some (.ok ()) → child.alive = false) := by
    unfold wait_for_cleanup_exit poll_child
    by_cases hterminated : child.terminated = true
    · simp [hterminated, h hterminated]
    · cases hhandle : child.handle <;> cases halive : child.alive <;>
        rcases round.try_wait with _ | _ | _ <;> cases hlate : round.late <;> simp_all
  unfold terminate_cleanup
  split
  case h_1 waited wait_error kill_error hresult _ =>
    rw [hresult] at hwait
    exact ⟨hwait.1, hwait.2.1, by simp⟩
  case h_2 => exact hwait

/-- A round that is in time and does not fail to reap does not fail. -/
theorem terminate_cleanup_no_error {round : Round} {error : AppError} (hlate : round.late = false)
    (hreap : child.handle = true → ∀ message, round.try_wait ≠ .Failed message) :
    (terminate_cleanup child round).2 ≠ some (.error error) := by
  have hwait : ∀ error, (wait_for_cleanup_exit child round).2 ≠ some (.error error) := by
    intro error
    unfold wait_for_cleanup_exit poll_child
    by_cases hterminated : child.terminated = true
    · simp [hterminated]
    · cases hhandle : child.handle <;> cases halive : child.alive <;>
        rcases hanswer : round.try_wait with _ | _ | message <;> simp_all
  unfold terminate_cleanup
  split
  case h_1 waited wait_error kill_error hresult _ =>
    exact absurd (congrArg Prod.snd hresult) (hwait wait_error)
  case h_2 => exact hwait error

/-! ### The invariant -/

/-- What a step of `close` relies on. -/
def CallFits (registry : TerminalRegistry) : CloseStage → Prop
  | .entering _ => True
  | .terminating _ generation cleanup => generation = generation_of cleanup
  | .removing _ generation cleanup => generation = generation_of cleanup ∧ Dead registry cleanup

structure RegistryInv (registry : TerminalRegistry) : Prop where
  generations : registry.next_generation < GENERATIONS
  spawn_drawn : ∀ n spawn, registry.spawns n = some spawn → n < registry.next_generation
  child_spawn : ∀ n child, registry.children n = some child →
    ∃ spawn, registry.spawns n = some spawn ∧ spawn.stage.childless = false
  child_terminated : ∀ n child, registry.children n = some child → child.terminated = true →
    child.alive = false
  waiter_exited : ∀ n, registry.waiters n = some .exited → Dead registry n
  spawn_removing : ∀ n spawn remove_snapshot, registry.spawns n = some spawn →
    spawn.stage = .removing remove_snapshot → Dead registry n
  call_fits : ∀ call ∈ registry.calls, CallFits registry call.stage
  slot_cleanup : ∀ session_id slot n, registry.slot session_id = some slot →
    slot.cleanup = some n → slot.generation = generation_of n ∧ (registry.spawns n).isSome
  child_owned : ∀ n child, registry.children n = some child → child.alive = true →
    Unregistered registry n ∨ Owned registry n ∨ Held registry n

theorem registryInv_default : RegistryInv .default := by
  constructor <;> simp [TerminalRegistry.default, TerminalRegistry.slot, GENERATIONS]

theorem RegistryInv.generation_inj (h : RegistryInv registry) {n m : Nat} {spawn' : Spawn}
    (hn : registry.spawns n = some spawn) (hm : registry.spawns m = some spawn')
    (hgeneration : generation_of n = generation_of m) : n = m := by
  have hdrawn := h.spawn_drawn n spawn hn
  have hdrawn' := h.spawn_drawn m spawn' hm
  have hcounter := h.generations
  exact generation_of_inj (by omega) (by omega) hgeneration

theorem Dead.not_alive (h : Dead registry serial) (hchild : registry.children serial = some child) :
    child.alive = false := by
  obtain ⟨other, hother, hdead⟩ := h
  rw [hchild, Option.some.injEq] at hother
  exact hother ▸ hdead

/-! ### Updates that keep the invariant -/

theorem RegistryInv.with_snapshots (h : RegistryInv registry) (snapshots : Records) :
    RegistryInv (registry.with_snapshots snapshots) :=
  ⟨h.generations, h.spawn_drawn, h.child_spawn, h.child_terminated, h.waiter_exited,
    h.spawn_removing, h.call_fits, h.slot_cleanup, h.child_owned⟩

/-- A slot may be removed when no child of its generation is alive. -/
theorem RegistryInv.drops (h : RegistryInv registry)
    (hdrops : Drops registry session_id generation registry')
    (hdead : ∀ n child, registry.children n = some child → generation_of n = generation →
      child.alive = false) : RegistryInv registry' := by
  obtain ⟨snapshots, rfl | ⟨removed, hremoved, hgeneration, rfl⟩⟩ := hdrops
  · exact h.with_snapshots snapshots
  refine RegistryInv.with_snapshots ?_ snapshots
  refine ⟨h.generations, h.spawn_drawn, h.child_spawn, h.child_terminated, h.waiter_exited,
    h.spawn_removing, h.call_fits, fun id slot n hslot => ?_, fun n child hchild halive => ?_⟩
  · rw [slot_remove_slot] at hslot
    split at hslot
    case isTrue => simp at hslot
    case isFalse => exact h.slot_cleanup id slot n hslot
  · rcases h.child_owned n child hchild halive with hnew | howned | hheld
    · exact .inl hnew
    · obtain ⟨spawn, slot, hspawn, hslot, hcurrent, hcleanup⟩ := howned
      have hother : spawn.session_id ≠ session_id := by
        rintro rfl
        rw [hslot, Option.some.injEq] at hremoved
        subst hremoved
        have hdead := hdead n child hchild (hcurrent.symm.trans hgeneration)
        simp [halive] at hdead
      refine .inr (.inl ⟨spawn, slot, hspawn, ?_, hcurrent, hcleanup⟩)
      rw [slot_remove_slot, if_neg hother]
      exact hslot
    · exact .inr (.inr hheld)

/-- A slot may be written over one that has no other child. -/
theorem RegistryInv.insert_slot (h : RegistryInv registry) {slot : TerminalSlot}
    (hold : ∀ old, registry.slot session_id = some old → old.generation = slot.generation ∧
      ∀ n, old.cleanup = some n → slot.cleanup = some n)
    (hnew : ∀ n, slot.cleanup = some n →
      slot.generation = generation_of n ∧ (registry.spawns n).isSome) :
    RegistryInv (registry.insert_slot session_id slot) := by
  refine ⟨h.generations, h.spawn_drawn, h.child_spawn, h.child_terminated, h.waiter_exited,
    h.spawn_removing, h.call_fits, fun id other n hslot => ?_, fun n child hchild halive => ?_⟩
  · rw [slot_insert_slot] at hslot
    split at hslot
    case isTrue =>
      obtain rfl := Option.some.inj hslot
      exact hnew n
    case isFalse => exact h.slot_cleanup id other n hslot
  · rcases h.child_owned n child hchild halive with hunregistered | howned | hheld
    · exact .inl hunregistered
    · obtain ⟨spawn, other, hspawn, hslot, hcurrent, hcleanup⟩ := howned
      by_cases hsession : spawn.session_id = session_id
      · subst hsession
        obtain ⟨hgeneration, hkeeps⟩ := hold other hslot
        refine .inr (.inl ⟨spawn, slot, hspawn, ?_, hgeneration ▸ hcurrent, hkeeps n hcleanup⟩)
        rw [slot_insert_slot, if_pos rfl]
      · refine .inr (.inl ⟨spawn, other, hspawn, ?_, hcurrent, hcleanup⟩)
        rw [slot_insert_slot, if_neg hsession]
        exact hslot
    · exact .inr (.inr hheld)

/-- A stage of a spawn does not matter to the owner of its child. -/
theorem Owned.set_stage {n : Nat} {stage : SpawnStage} {old : Spawn} (h : Owned registry n)
    (hold : registry.spawns serial = some old) (hsession : spawn.session_id = old.session_id) :
    Owned (registry.set_stage serial spawn stage) n := by
  obtain ⟨other, slot, hother, hslot, hcurrent, hcleanup⟩ := h
  by_cases hn : n = serial
  · subst hn
    rw [hold, Option.some.injEq] at hother
    subst hother
    refine ⟨{ spawn with stage := stage }, slot, ?_, ?_, hcurrent, hcleanup⟩
    · rw [spawns_set_stage, if_pos rfl]
    · exact (congrArg registry.slot hsession).trans hslot
  · refine ⟨other, slot, ?_, hslot, hcurrent, hcleanup⟩
    rw [spawns_set_stage, if_neg hn]
    exact hother

/-- A spawn goes on when its child has an owner. -/
theorem RegistryInv.set_stage (h : RegistryInv registry) {stage : SpawnStage} {old : Spawn}
    (hold : registry.spawns serial = some old) (hsession : spawn.session_id = old.session_id)
    (hstage : stage.childless = false ∨ registry.children serial = none)
    (hremoving : ∀ remove_snapshot, stage = .removing remove_snapshot → Dead registry serial)
    (howned : ∀ child, registry.children serial = some child → child.alive = true →
      stage = .spawned ∨ Owned registry serial ∨ Held registry serial) :
    RegistryInv (registry.set_stage serial spawn stage) := by
  refine ⟨h.generations, fun n other hother => ?_, fun n child hchild => ?_, h.child_terminated,
    h.waiter_exited, fun n other remove_snapshot hother hother_stage => ?_, h.call_fits,
    fun id slot n hslot hcleanup => ?_, fun n child hchild halive => ?_⟩
  · rw [spawns_set_stage] at hother
    split at hother
    case isTrue hn => exact hn ▸ h.spawn_drawn serial old hold
    case isFalse => exact h.spawn_drawn n other hother
  · obtain ⟨other, hother, hother_stage⟩ := h.child_spawn n child hchild
    rw [spawns_set_stage]
    by_cases hn : n = serial
    · rw [if_pos hn]
      refine ⟨_, rfl, hstage.resolve_right fun hnone => ?_⟩
      exact absurd (hnone.symm.trans (hn ▸ hchild)) (by simp)
    · rw [if_neg hn]
      exact ⟨other, hother, hother_stage⟩
  · rw [spawns_set_stage] at hother
    split at hother
    case isTrue hn =>
      obtain rfl := Option.some.inj hother
      exact hn ▸ hremoving remove_snapshot hother_stage
    case isFalse => exact h.spawn_removing n other remove_snapshot hother hother_stage
  · obtain ⟨hgeneration, hsome⟩ := h.slot_cleanup id slot n hslot hcleanup
    refine ⟨hgeneration, ?_⟩
    rw [spawns_set_stage]
    split
    · rfl
    · exact hsome
  · by_cases hn : n = serial
    · subst hn
      rcases howned child hchild halive with hspawned | hown | hheld
      · refine .inl ⟨{ spawn with stage := stage }, ?_, hspawned⟩
        rw [spawns_set_stage, if_pos rfl]
      · exact .inr (.inl (hown.set_stage hold hsession))
      · exact .inr (.inr hheld)
    · rcases h.child_owned n child hchild halive with ⟨other, hother, hspawned⟩ | hown | hheld
      · refine .inl ⟨other, ?_, hspawned⟩
        rw [spawns_set_stage, if_neg hn]
        exact hother
      · exact .inr (.inl (hown.set_stage hold hsession))
      · exact .inr (.inr hheld)

/-- A registered child has an owner when it is alive. -/
theorem RegistryInv.owned_of_stage (h : RegistryInv registry)
    (hspawn : registry.spawns serial = some spawn) (hstage : spawn.stage ≠ .spawned)
    (hchild : registry.children serial = some child) (halive : child.alive = true) :
    Owned registry serial ∨ Held registry serial := by
  rcases h.child_owned serial child hchild halive with ⟨other, hother, hspawned⟩ | howner
  · rw [hspawn, Option.some.injEq] at hother
    exact absurd (hother ▸ hspawned) hstage
  · exact howner

theorem children_set_child (registry : TerminalRegistry) (serial n : Nat) (child : Child) :
    (registry.set_child serial child).children n =
      if n = serial then some child else registry.children n := by
  unfold TerminalRegistry.set_child
  exact Function.update_apply ..

theorem Dead.set_child {n : Nat} (h : Dead registry n)
    (hchild : registry.children serial = some child) (halive : child.alive = false → child'.alive = false) :
    Dead (registry.set_child serial child') n := by
  unfold Dead
  rw [children_set_child]
  by_cases hn : n = serial
  · rw [if_pos hn]
    exact ⟨child', rfl, halive ((hn ▸ h).not_alive hchild)⟩
  · rw [if_neg hn]
    exact h

theorem CallFits.set_child {stage : CloseStage} (h : CallFits registry stage)
    (hchild : registry.children serial = some child) (halive : child.alive = false → child'.alive = false) :
    CallFits (registry.set_child serial child') stage := by
  cases stage with
  | entering => trivial
  | terminating => exact h
  | removing => exact ⟨h.1, h.2.set_child hchild halive⟩

/-- A child changes, but does not come back. -/
theorem RegistryInv.set_child (h : RegistryInv registry)
    (hchild : registry.children serial = some child) (halive : child.alive = false → child'.alive = false)
    (hterminated : child'.terminated = true → child'.alive = false) :
    RegistryInv (registry.set_child serial child') := by
  refine ⟨h.generations, h.spawn_drawn, fun n other hother => ?_, fun n other hother => ?_,
    fun n hexited => (h.waiter_exited n hexited).set_child hchild halive,
    fun n spawn remove_snapshot hspawn hstage =>
      (h.spawn_removing n spawn remove_snapshot hspawn hstage).set_child hchild halive,
    fun call hcall => (h.call_fits call hcall).set_child hchild halive, h.slot_cleanup,
    fun n other hother hother_alive => ?_⟩
  · rw [children_set_child] at hother
    split at hother
    case isTrue hn => exact hn ▸ h.child_spawn serial child hchild
    case isFalse => exact h.child_spawn n other hother
  · rw [children_set_child] at hother
    split at hother
    case isTrue =>
      obtain rfl := Option.some.inj hother
      exact hterminated
    case isFalse => exact h.child_terminated n other hother
  · rw [children_set_child] at hother
    split at hother
    case isTrue hn =>
      obtain rfl := Option.some.inj hother
      have hwas : child.alive = true := by
        by_contra hdead
        have hstill := halive (Bool.not_eq_true _ ▸ hdead)
        simp [hother_alive] at hstill
      exact hn ▸ h.child_owned serial child hchild hwas
    case isFalse => exact h.child_owned n other hother hother_alive

theorem RegistryInv.set_waiter (h : RegistryInv registry) {waiter : Option Waiter}
    (hexited : waiter = some .exited → Dead registry serial) :
    RegistryInv (registry.set_waiter serial waiter) := by
  refine ⟨h.generations, h.spawn_drawn, h.child_spawn, h.child_terminated, fun n hwaiter => ?_,
    h.spawn_removing, h.call_fits, h.slot_cleanup, h.child_owned⟩
  have hwaiter : Function.update registry.waiters serial waiter n = some .exited := hwaiter
  rw [Function.update_apply] at hwaiter
  split at hwaiter
  case isTrue hn => exact hn ▸ hexited hwaiter
  case isFalse => exact h.waiter_exited n hwaiter

theorem RegistryInv.set_call (h : RegistryInv registry) {call : Call} {next : Option Call}
    (hfits : ∀ after, next = some after → CallFits registry after.stage) :
    RegistryInv (registry.set_call call next) := by
  refine ⟨h.generations, h.spawn_drawn, h.child_spawn, h.child_terminated, h.waiter_exited,
    h.spawn_removing, fun other hother => ?_, h.slot_cleanup, h.child_owned⟩
  have hother : other ∈ registry.calls.erase call ++ next.toList := hother
  rcases List.mem_append.mp hother with hrest | hnext
  · exact h.call_fits other (List.mem_of_mem_erase hrest)
  · exact hfits other (Option.mem_toList.mp hnext)

/-- The next session of a `stop_for_host` is entered. -/
theorem call_next_fits (registry : TerminalRegistry) (call after : Call)
    (h : call.next = some after) : CallFits registry after.stage := by
  unfold Call.next at h
  split at h
  · simp at h
  · obtain rfl := Option.some.inj h
    trivial

/-! ### Starting -/

theorem RegistryInv.no_child (h : RegistryInv registry) (hspawn : registry.spawns serial = some spawn)
    (hchildless : spawn.stage.childless = true) : registry.children serial = none := by
  rw [Option.eq_none_iff_forall_ne_some]
  intro child hchild
  obtain ⟨other, hother, hstage⟩ := h.child_spawn serial child hchild
  rw [hspawn, Option.some.injEq] at hother
  rw [← hother, hchildless] at hstage
  simp at hstage

/-- A drawn value of the counter is new. -/
theorem RegistryInv.draw_generation (h : RegistryInv registry)
    (hcounter : registry.next_generation + 1 < GENERATIONS)
    (hstage : spawn.stage.childless = true) : RegistryInv (draw_generation registry spawn) := by
  have hspawns : ∀ n, (Session.draw_generation registry spawn).spawns n =
      if n = registry.next_generation then some spawn else registry.spawns n :=
    fun n => Function.update_apply ..
  have hother : ∀ n child, registry.children n = some child → n ≠ registry.next_generation := by
    intro n child hchild
    obtain ⟨old, hold, _⟩ := h.child_spawn n child hchild
    exact (h.spawn_drawn n old hold).ne
  refine ⟨hcounter, fun n other hspawn => ?_, fun n child hchild => ?_, h.child_terminated,
    h.waiter_exited, fun n other remove_snapshot hspawn hremoving => ?_, h.call_fits,
    fun id slot n hslot hcleanup => ?_, fun n child hchild halive => ?_⟩
  · show n < registry.next_generation + 1
    rw [hspawns] at hspawn
    split at hspawn
    case isTrue hn => omega
    case isFalse => exact Nat.lt_succ_of_lt (h.spawn_drawn n other hspawn)
  · rw [hspawns, if_neg (hother n child hchild)]
    exact h.child_spawn n child hchild
  · rw [hspawns] at hspawn
    split at hspawn
    case isTrue =>
      obtain rfl := Option.some.inj hspawn
      rw [hremoving] at hstage
      exact absurd hstage Bool.false_ne_true
    case isFalse => exact h.spawn_removing n other remove_snapshot hspawn hremoving
  · obtain ⟨hgeneration, hsome⟩ := h.slot_cleanup id slot n hslot hcleanup
    refine ⟨hgeneration, ?_⟩
    rw [hspawns]
    split
    · rfl
    · exact hsome
  · have hsame := (hspawns n).trans (if_neg (hother n child hchild))
    rcases h.child_owned n child hchild halive with ⟨old, hold, hstage⟩ | howned | hheld
    · exact .inl ⟨old, hsame.trans hold, hstage⟩
    · obtain ⟨old, slot, hold, hslot⟩ := howned
      exact .inr (.inl ⟨old, slot, hsame.trans hold, hslot⟩)
    · exact .inr (.inr hheld)

theorem RegistryInv.reserve (h : RegistryInv registry) {reconnects : Bool}
    (hspawn : registry.spawns serial = some spawn) (hstage : spawn.stage = .drawn reconnects) :
    RegistryInv (reserve registry serial spawn reconnects) := by
  have hnone := h.no_child hspawn (hstage ▸ rfl)
  have hreturned : RegistryInv (registry.set_stage serial spawn .returned) :=
    h.set_stage hspawn rfl (.inr hnone) (by simp) fun child hchild _ => by simp [hnone] at hchild
  rcases reserve_effect registry serial spawn reconnects with
    hrefused | ⟨spawn', hsession, hslot, _, _, hreserved⟩
  · rw [hrefused]
    exact hreturned
  · -- a reserved slot belongs to no child
    rw [hreserved]
    have hinv : RegistryInv (registry.insert_slot spawn.session_id
        (.Starting (generation_of serial) spawn.host.id false none)) := by
      refine h.insert_slot (fun old hold => ?_) (fun n hcleanup => ?_)
      · simp [hslot] at hold
      · simp [TerminalSlot.cleanup] at hcleanup
    refine hinv.set_stage hspawn hsession (.inr hnone) (by simp) ?_
    intro child hchild _
    exact absurd hchild (hnone ▸ nofun)

/-- A new child belongs to its spawn. -/
theorem RegistryInv.add_child (h : RegistryInv registry) (hspawn : registry.spawns serial = some spawn)
    (hstage : spawn.stage = .spawned) (hnone : registry.children serial = none)
    (hterminated : child.terminated = false) : RegistryInv (registry.set_child serial child) := by
  have hkeeps : ∀ n other, registry.children n = some other →
      (registry.set_child serial child).children n = some other := by
    intro n other hother
    rw [children_set_child, if_neg]
    · exact hother
    · rintro rfl
      simp [hnone] at hother
  have hdead : ∀ n, Dead registry n → Dead (registry.set_child serial child) n :=
    fun n ⟨other, hother, hnot⟩ => ⟨other, hkeeps n other hother, hnot⟩
  refine ⟨h.generations, h.spawn_drawn, fun n other hother => ?_, fun n other hother hter => ?_,
    fun n hexited => hdead n (h.waiter_exited n hexited),
    fun n spawn remove_snapshot hspawn hstage =>
      hdead n (h.spawn_removing n spawn remove_snapshot hspawn hstage),
    fun call hcall => ?_, h.slot_cleanup, fun n other hother halive => ?_⟩
  · rw [children_set_child] at hother
    split at hother
    case isTrue hn => exact ⟨spawn, hn ▸ hspawn, hstage ▸ rfl⟩
    case isFalse => exact h.child_spawn n other hother
  · rw [children_set_child] at hother
    split at hother
    case isTrue =>
      obtain rfl := Option.some.inj hother
      simp [hterminated] at hter
    case isFalse => exact h.child_terminated n other hother hter
  · have hfits := h.call_fits call hcall
    revert hfits
    cases call.stage with
    | entering => exact fun h => h
    | terminating => exact fun h => h
    | removing => exact fun h => ⟨h.1, hdead _ h.2⟩
  · rw [children_set_child] at hother
    split at hother
    case isTrue hn => exact .inl ⟨spawn, hn ▸ hspawn, hstage⟩
    case isFalse => exact h.child_owned n other hother halive

/-! ### Steps -/

/-- Removing the slot of a dead child's generation removes no other child. -/
theorem RegistryInv.dead_generation (h : RegistryInv registry) (hdead : Dead registry serial) :
    ∀ n child, registry.children n = some child → generation_of n = generation_of serial →
      child.alive = false := by
  intro n child hchild hgeneration
  obtain ⟨other, hother, hnot⟩ := id hdead
  obtain ⟨spawn, hspawn, _⟩ := h.child_spawn n child hchild
  obtain ⟨spawn', hspawn', _⟩ := h.child_spawn serial other hother
  exact (h.generation_inj hspawn hspawn' hgeneration ▸ hdead).not_alive hchild

theorem RegistryInv.release (h : RegistryInv registry)
    (hspawn : registry.spawn_at serial .reserved = some spawn) :
    RegistryInv ((release_reservation registry spawn.session_id
      (generation_of serial)).set_stage serial spawn .returned) := by
  obtain ⟨hspawn, hstage⟩ := spawn_at_eq_some.mp hspawn
  have hnone := h.no_child hspawn (hstage ▸ rfl)
  have hdrops := release_reservation_drops registry spawn.session_id (generation_of serial)
  have hinv := h.drops hdrops fun n child hchild hgeneration => by
    obtain ⟨other, hother, _⟩ := h.child_spawn n child hchild
    obtain rfl := h.generation_inj hother hspawn hgeneration
    simp [hnone] at hchild
  obtain ⟨snapshots, hsame | ⟨_, _, _, hsame⟩⟩ := hdrops
  all_goals
    rw [hsame] at hinv ⊢
    refine hinv.set_stage hspawn rfl (.inl rfl) (by simp) fun child hchild _ => ?_
    exact absurd (hnone.symm.trans hchild) (by simp)

theorem RegistryInv.spawn_command (h : RegistryInv registry)
    (hspawn : registry.spawn_at serial .reserved = some spawn)
    (hterminated : child.terminated = false) :
    RegistryInv ((registry.set_child serial child).set_stage serial spawn .spawned) := by
  obtain ⟨hspawn, hstage⟩ := spawn_at_eq_some.mp hspawn
  have hnone := h.no_child hspawn (hstage ▸ rfl)
  have hinv : RegistryInv (registry.set_stage serial spawn .spawned) :=
    h.set_stage hspawn rfl (.inl rfl) (by simp) fun _ _ _ => .inl rfl
  have hspawned : (registry.set_stage serial spawn .spawned).spawns serial =
      some { spawn with stage := .spawned } := by rw [spawns_set_stage, if_pos rfl]
  exact hinv.add_child hspawned rfl hnone hterminated

/-- The slot of a child's generation may be written with that child. -/
theorem RegistryInv.replaces (h : RegistryInv registry) {slot : TerminalSlot}
    (hreplaces : Replaces registry spawn.session_id slot registry')
    (hspawn : registry.spawns serial = some spawn)
    (hgeneration : slot.generation = generation_of serial) (hcleanup : slot.cleanup = some serial) :
    RegistryInv registry' ∧ registry'.spawns serial = some spawn ∧
      registry'.children = registry.children ∧ Owned registry' serial := by
  obtain ⟨old, snapshots, hold, hsame, rfl⟩ := hreplaces
  have hinv : RegistryInv (registry.insert_slot spawn.session_id slot) := by
    refine h.insert_slot (fun other hother => ?_) fun n hn => ?_
    · rw [hold, Option.some.injEq] at hother
      subst hother
      refine ⟨hsame, fun n hn => ?_⟩
      obtain ⟨hold_generation, hold_spawn⟩ := h.slot_cleanup _ _ n hold hn
      obtain ⟨other, hother⟩ := Option.isSome_iff_exists.mp hold_spawn
      have hn : n = serial := h.generation_inj hother hspawn
        (hold_generation.symm.trans (hsame.trans hgeneration))
      exact hn ▸ hcleanup
    · rw [hcleanup, Option.some.injEq] at hn
      exact hn ▸ ⟨hgeneration, Option.isSome_of_mem hspawn⟩
  refine ⟨hinv.with_snapshots snapshots, hspawn, rfl, spawn, slot, hspawn, ?_, hgeneration, hcleanup⟩
  show (registry.insert_slot spawn.session_id slot).slot spawn.session_id = some slot
  rw [slot_insert_slot, if_pos rfl]

/-- The slot of a spawn that registers its child has not been cleared, and a
    `stop_all` terminates a live child in time. -/
def Orderly (registry : TerminalRegistry) (label : Label) : Prop :=
  match label with
  | .start _ _ _ | .reconnect _ _ => registry.next_generation + 1 < GENERATIONS
  | .register serial =>
      ∀ spawn child, registry.spawns serial = some spawn → registry.children serial = some child →
        child.alive = true →
          is_current_generation registry spawn.session_id (generation_of serial) = true
  | .stop_round _ cleanup round =>
      ∀ child, registry.children cleanup = some child → child.alive = true →
        round.late = false ∧ (child.handle = true → ∀ message, round.try_wait ≠ .Failed message)
  | _ => True

theorem RegistryInv.register (h : RegistryInv registry)
    (hspawn : registry.spawn_at serial .spawned = some spawn) {stage : SpawnStage}
    (hstage : stage = .registered ∨ stage = .aborting false)
    (hord : Orderly registry (.register serial)) :
    RegistryInv ((register_spawn_cleanup registry spawn.session_id (generation_of serial)
      serial).1.set_stage serial spawn stage) := by
  obtain ⟨hspawn, _⟩ := spawn_at_eq_some.mp hspawn
  have hchildless : stage.childless = false := by rcases hstage with rfl | rfl <;> rfl
  have hremoving : ∀ remove_snapshot, stage ≠ .removing remove_snapshot := by
    rcases hstage with rfl | rfl <;> simp
  rcases register_effect registry spawn.session_id (generation_of serial) serial with
    ⟨host_id, close_requested, hreplaces⟩ | ⟨hsame, hstarting⟩
  · obtain ⟨hinv, hspawn', _, howned⟩ := h.replaces hreplaces hspawn rfl rfl
    exact hinv.set_stage hspawn' rfl (.inl hchildless) (fun _ heq => absurd heq (hremoving _))
      fun _ _ _ => .inr (.inl howned)
  · rw [hsame]
    refine h.set_stage hspawn rfl (.inl hchildless) (fun _ heq => absurd heq (hremoving _))
      fun child hchild halive => .inr (.inl ?_)
    -- the slot is there, so it is a running one, and it has the child
    obtain ⟨slot, hslot, hgeneration⟩ :=
      is_current_generation_iff.mp (hord spawn child hspawn hchild halive)
    cases slot with
    | Starting current host_id close_requested cleanup =>
      have hcurrent : current = generation_of serial := hgeneration
      exact absurd (hcurrent ▸ hslot) (hstarting host_id close_requested cleanup)
    | Running session =>
      obtain ⟨hcleanup, hsome⟩ := h.slot_cleanup _ _ session.cleanup hslot rfl
      obtain ⟨other, hother⟩ := Option.isSome_iff_exists.mp hsome
      have hn : session.cleanup = serial :=
        h.generation_inj hother hspawn (hcleanup.symm.trans hgeneration)
      exact ⟨spawn, _, hspawn, hslot, hgeneration, congrArg some hn⟩

theorem RegistryInv.commit (h : RegistryInv registry)
    (hspawn : registry.spawn_at serial .registered = some spawn) {stage : SpawnStage}
    (hstage : stage = .committed ∨ stage = .aborting false) (host_id : Text)
    (snapshot : TerminalSnapshot) :
    RegistryInv ((commit_running registry spawn.session_id (generation_of serial)
      ⟨generation_of serial, host_id, serial⟩ snapshot).1.set_stage serial spawn stage) := by
  obtain ⟨hspawn, hregistered⟩ := spawn_at_eq_some.mp hspawn
  have hchildless : stage.childless = false := by rcases hstage with rfl | rfl <;> rfl
  have hremoving : ∀ remove_snapshot, stage ≠ .removing remove_snapshot := by
    rcases hstage with rfl | rfl <;> simp
  rcases commit_effect registry spawn.session_id ⟨generation_of serial, host_id, serial⟩ snapshot with
    hreplaces | hsame
  · obtain ⟨hinv, hspawn', _, howned⟩ := h.replaces hreplaces hspawn rfl rfl
    exact hinv.set_stage hspawn' rfl (.inl hchildless) (fun _ heq => absurd heq (hremoving _))
      fun _ _ _ => .inr (.inl howned)
  · rw [hsame]
    exact h.set_stage hspawn rfl (.inl hchildless) (fun _ heq => absurd heq (hremoving _))
      fun child hchild halive =>
        .inr (h.owned_of_stage hspawn (by simp [hregistered]) hchild halive)

/-- A spawn whose child is registered goes on. -/
theorem RegistryInv.advance (h : RegistryInv registry) (hspawn : registry.spawns serial = some spawn)
    (hspawned : spawn.stage ≠ .spawned) {stage : SpawnStage} (hchildless : stage.childless = false)
    (hremoving : ∀ remove_snapshot, stage ≠ .removing remove_snapshot) :
    RegistryInv (registry.set_stage serial spawn stage) :=
  h.set_stage hspawn rfl (.inl hchildless) (fun _ heq => absurd heq (hremoving _))
    fun _ hchild halive => .inr (h.owned_of_stage hspawn hspawned hchild halive)

theorem RegistryInv.terminate (h : RegistryInv registry) (hchild : registry.children serial = some child)
    (round : Round) :
    RegistryInv (registry.set_child serial (terminate_cleanup child round).1) ∧
      ((terminate_cleanup child round).2 = some (.ok ()) →
        Dead (registry.set_child serial (terminate_cleanup child round).1) serial) := by
  obtain ⟨halive, hterminated, hok⟩ :=
    terminate_cleanup_effect round (h.child_terminated serial child hchild)
  refine ⟨h.set_child hchild (fun hdead => halive.trans hdead) fun hter => halive.trans (hterminated hter),
    fun hresult => ⟨_, ?_, halive.trans (hok hresult)⟩⟩
  rw [children_set_child, if_pos rfl]

theorem RegistryInv.abort_round (h : RegistryInv registry) {remove_snapshot : Bool} {round : Round}
    (hspawn : registry.spawns serial = some spawn) (hstage : spawn.stage = .terminating remove_snapshot)
    (hnext : abort_round registry serial spawn remove_snapshot round = some registry') :
    RegistryInv registry' := by
  unfold Session.abort_round at hnext
  obtain ⟨child, hchild, hnext⟩ := Option.bind_eq_some_iff.mp hnext
  obtain ⟨hinv, hdead⟩ := h.terminate hchild round
  have hspawned : spawn.stage ≠ .spawned := by simp [hstage]
  split at hnext
  case h_1 child' hresult =>
    obtain rfl := Option.some.inj hnext
    rw [hresult] at hinv
    exact hinv
  case h_2 child' error hresult =>
    obtain rfl := Option.some.inj hnext
    rw [hresult] at hinv
    exact hinv.advance hspawn hspawned rfl (by simp)
  case h_3 child' hresult =>
    obtain rfl := Option.some.inj hnext
    rw [hresult] at hinv hdead
    exact hinv.set_stage hspawn rfl (.inl rfl) (fun _ _ => hdead rfl)
      fun _ hchild halive => .inr (hinv.owned_of_stage hspawn hspawned hchild halive)

theorem RegistryInv.abort_remove (h : RegistryInv registry) {remove_snapshot : Bool}
    (hspawn : registry.spawns serial = some spawn) (hstage : spawn.stage = .removing remove_snapshot) :
    RegistryInv ((remove_aborted registry spawn.session_id (generation_of serial)
      remove_snapshot).set_stage serial spawn .returned) := by
  have hdrops := remove_aborted_drops registry spawn.session_id (generation_of serial) remove_snapshot
  have hinv := h.drops hdrops (h.dead_generation (h.spawn_removing serial spawn _ hspawn hstage))
  obtain ⟨snapshots, hsame | ⟨_, _, _, hsame⟩⟩ := hdrops
  all_goals
    rw [hsame] at hinv ⊢
    exact hinv.advance hspawn (by simp [hstage]) rfl (by simp)

theorem RegistryInv.request_close (h : RegistryInv registry) (session_id : Text) :
    RegistryInv (request_close registry session_id).1 ∧
      ∀ generation cleanup,
        (request_close registry session_id).2 = .ok (some (generation, cleanup)) →
          generation = generation_of cleanup := by
  obtain ⟨⟨snapshots, hslots⟩, hfound⟩ := request_close_effect registry session_id
  constructor
  · rcases hslots with hsame | ⟨old, slot, hold, hgeneration, hcleanup, hsame⟩
    · exact hsame ▸ h.with_snapshots snapshots
    · rw [hsame]
      refine RegistryInv.with_snapshots ?_ snapshots
      refine h.insert_slot (fun other hother => ?_) fun n hn => ?_
      · rw [hold, Option.some.injEq] at hother
        exact hother ▸ ⟨hgeneration, fun n hn => hcleanup ▸ hn⟩
      · exact hgeneration ▸ h.slot_cleanup _ _ n hold (hcleanup ▸ hn)
  · intro generation cleanup hresult
    obtain ⟨slot, hslot, hgeneration, hcleanup⟩ := hfound generation cleanup hresult
    exact hgeneration ▸ (h.slot_cleanup _ _ cleanup hslot hcleanup).1

theorem RegistryInv.call_step (h : RegistryInv registry) {call : Call} {round : Round}
    (hcall : call ∈ registry.calls) (hnext : call_step registry call round = some registry') :
    RegistryInv registry' := by
  have hfits := h.call_fits call hcall
  unfold Session.call_step at hnext
  split at hnext
  case h_1 session_id hstage =>
    obtain ⟨hinv, hgeneration⟩ := h.request_close session_id
    split at hnext
    case h_1 requested generation cleanup hresult =>
      obtain rfl := Option.some.inj hnext
      rw [hresult] at hinv hgeneration
      refine hinv.set_call fun after hafter => ?_
      obtain rfl := Option.some.inj hafter
      exact hgeneration generation cleanup rfl
    case h_2 requested _ _ hresult =>
      obtain rfl := Option.some.inj hnext
      rw [hresult] at hinv
      exact hinv.set_call (call_next_fits _ call)
  case h_2 session_id generation cleanup hstage =>
    rw [hstage] at hfits
    obtain ⟨child, hchild, hnext⟩ := Option.bind_eq_some_iff.mp hnext
    obtain ⟨hinv, hdead⟩ := h.terminate hchild round
    split at hnext
    case h_1 child' hresult =>
      obtain rfl := Option.some.inj hnext
      rw [hresult] at hinv
      exact hinv
    case h_2 child' error hresult =>
      obtain rfl := Option.some.inj hnext
      rw [hresult] at hinv
      exact hinv.set_call (call_next_fits _ call)
    case h_3 child' hresult =>
      obtain rfl := Option.some.inj hnext
      rw [hresult] at hinv hdead
      refine hinv.set_call fun after hafter => ?_
      obtain rfl := Option.some.inj hafter
      exact ⟨hfits, hdead rfl⟩
  case h_3 session_id generation cleanup hstage =>
    rw [hstage] at hfits
    obtain rfl := Option.some.inj hnext
    have hinv := h.drops (remove_closed_drops registry session_id generation)
      (hfits.1 ▸ h.dead_generation hfits.2)
    exact hinv.set_call (call_next_fits _ call)

theorem RegistryInv.start_closing (h : RegistryInv registry) (sessions : List Text) :
    RegistryInv (start_closing registry sessions) := by
  cases sessions with
  | nil => exact h
  | cons session_id rest =>
    refine ⟨h.generations, h.spawn_drawn, h.child_spawn, h.child_terminated, h.waiter_exited,
      h.spawn_removing, fun call hcall => ?_, h.slot_cleanup, h.child_owned⟩
    rcases List.mem_append.mp hcall with hold | hnew
    · exact h.call_fits call hold
    · rw [List.mem_singleton.mp hnew]
      trivial

/-- What `stop_all` takes out of the slots it holds. -/
theorem RegistryInv.stop_all (h : RegistryInv registry) :
    RegistryInv { clear registry with stops := registry.stops ++ [cleanups_of registry] } := by
  refine ⟨h.generations, h.spawn_drawn, h.child_spawn, h.child_terminated, h.waiter_exited,
    h.spawn_removing, h.call_fits, fun id slot n hslot => ?_, fun n child hchild halive => ?_⟩
  · simp [TerminalRegistry.slot, clear] at hslot
  · rcases h.child_owned n child hchild halive with hunregistered | howned | hheld
    · exact .inl hunregistered
    · obtain ⟨spawn, slot, _, hslot, _, hcleanup⟩ := howned
      exact .inr (.inr ⟨_, List.mem_append.mpr (.inr (List.mem_singleton.mpr rfl)),
        mem_cleanups_of hslot hcleanup⟩)
    · obtain ⟨cleanups, hmem, hn⟩ := hheld
      exact .inr (.inr ⟨cleanups, List.mem_append.mpr (.inl hmem), hn⟩)

/-- A `stop_all` forgets a child that has exited. -/
theorem RegistryInv.finish_stop (h : RegistryInv registry) {cleanups : List Nat}
    (hdead : ∀ child, registry.children serial = some child → child.alive = false) :
    RegistryInv (finish_stop registry cleanups serial) := by
  refine ⟨h.generations, h.spawn_drawn, h.child_spawn, h.child_terminated, h.waiter_exited,
    h.spawn_removing, h.call_fits, h.slot_cleanup, fun n child hchild halive => ?_⟩
  rcases h.child_owned n child hchild halive with hunregistered | howned | ⟨held, hmem, hn⟩
  · exact .inl hunregistered
  · exact .inr (.inl howned)
  · have hother : n ≠ serial := by
      rintro rfl
      simp [hdead child hchild] at halive
    by_cases hsame : held = cleanups
    · subst hsame
      exact .inr (.inr ⟨_, List.mem_append.mpr (.inr (List.mem_singleton.mpr rfl)),
        (List.mem_erase_of_ne hother).mpr hn⟩)
    · exact .inr (.inr ⟨held, List.mem_append.mpr (.inl ((List.mem_erase_of_ne hsame).mpr hmem)), hn⟩)

theorem RegistryInv.stop_round (h : RegistryInv registry) {cleanups : List Nat} {round : Round}
    (hord : Orderly registry (.stop_round cleanups serial round))
    (hnext : stop_round registry cleanups serial round = some registry') : RegistryInv registry' := by
  unfold Session.stop_round at hnext
  obtain ⟨child, hchild, hnext⟩ := Option.bind_eq_some_iff.mp hnext
  obtain ⟨hinv, hdead⟩ := h.terminate hchild round
  have halive := (terminate_cleanup_effect round (h.child_terminated serial child hchild)).1
  split at hnext
  case h_1 child' hresult =>
    obtain rfl := Option.some.inj hnext
    rw [hresult] at hinv
    exact hinv
  case h_2 child' result hresult =>
    obtain rfl := Option.some.inj hnext
    rw [hresult] at hinv hdead halive
    refine hinv.finish_stop fun other hother => ?_
    rw [children_set_child, if_pos rfl, Option.some.injEq] at hother
    subst hother
    cases result with
    | ok => exact (hdead rfl).not_alive (by rw [children_set_child, if_pos rfl])
    | error error =>
      -- a live child is terminated in time
      by_contra hlive
      have hlive : child.alive = true := by simpa [← halive] using hlive
      obtain ⟨hlate, hreap⟩ := hord child hchild hlive
      exact terminate_cleanup_no_error hlate hreap (congrArg Prod.snd hresult)

/-- An orderly step keeps the invariant. -/
theorem RegistryInv.next (h : RegistryInv registry) {label : Label} (hord : Orderly registry label)
    (hnext : registry.next label = some registry') : RegistryInv registry' := by
  cases label with
  | start session_id host title => exact Option.some.inj hnext ▸ h.draw_generation hord rfl
  | reconnect session_id host => exact Option.some.inj hnext ▸ h.draw_generation hord rfl
  | reserve serial =>
    obtain ⟨spawn, hspawn, hnext⟩ := Option.bind_eq_some_iff.mp hnext
    split at hnext
    case h_2 => simp at hnext
    case h_1 reconnects hstage => exact Option.some.inj hnext ▸ h.reserve hspawn hstage
  | spawn_fails serial =>
    obtain ⟨spawn, hspawn, hnext⟩ := Option.bind_eq_some_iff.mp hnext
    exact Option.some.inj hnext ▸ h.release hspawn
  | spawn_command serial =>
    obtain ⟨spawn, hspawn, hnext⟩ := Option.bind_eq_some_iff.mp hnext
    exact Option.some.inj hnext ▸ h.spawn_command hspawn rfl
  | register serial =>
    obtain ⟨spawn, hspawn, hnext⟩ := Option.bind_eq_some_iff.mp hnext
    split at hnext
    case h_1 registered hresult =>
      have hinv := h.register hspawn (.inl rfl) hord
      rw [hresult] at hinv
      exact Option.some.inj hnext ▸ hinv
    case h_2 registered hresult =>
      have hinv := h.register hspawn (.inr rfl) hord
      rw [hresult] at hinv
      exact Option.some.inj hnext ▸ hinv
  | setup_fails serial =>
    obtain ⟨spawn, hspawn, hnext⟩ := Option.bind_eq_some_iff.mp hnext
    obtain ⟨hspawn, hstage⟩ := spawn_at_eq_some.mp hspawn
    exact Option.some.inj hnext ▸ h.advance hspawn (by simp [hstage]) rfl (by simp)
  | commit serial =>
    obtain ⟨spawn, hspawn, hnext⟩ := Option.bind_eq_some_iff.mp hnext
    dsimp only at hnext
    split at hnext
    case h_1 committed hresult =>
      have hinv := h.commit hspawn (.inl rfl) spawn.host.id (spawn.snapshot (generation_of serial))
      rw [hresult] at hinv
      exact Option.some.inj hnext ▸ hinv
    case h_2 committed hresult =>
      have hinv := h.commit hspawn (.inr rfl) spawn.host.id (spawn.snapshot (generation_of serial))
      rw [hresult] at hinv
      exact Option.some.inj hnext ▸ hinv
  | send serial received =>
    obtain ⟨spawn, hspawn, hnext⟩ := Option.bind_eq_some_iff.mp hnext
    obtain ⟨hspawn, hstage⟩ := spawn_at_eq_some.mp hspawn
    split at hnext
    · have hinv : RegistryInv (registry.set_waiter serial (some .started)) :=
        h.set_waiter (by simp)
      exact Option.some.inj hnext ▸ hinv.advance hspawn (by simp [hstage]) rfl (by simp)
    · exact Option.some.inj hnext ▸ h.advance hspawn (by simp [hstage]) rfl (by simp)
  | abort_check serial =>
    obtain ⟨spawn, hspawn, hnext⟩ := Option.bind_eq_some_iff.mp hnext
    split at hnext
    case h_2 => simp at hnext
    case h_1 remove_snapshot hstage =>
      split at hnext
      · exact Option.some.inj hnext ▸ h.advance hspawn (by simp [hstage]) rfl (by simp)
      · exact Option.some.inj hnext ▸ h.advance hspawn (by simp [hstage]) rfl (by simp)
  | abort_round serial round =>
    obtain ⟨spawn, hspawn, hnext⟩ := Option.bind_eq_some_iff.mp hnext
    split at hnext
    case h_2 => simp at hnext
    case h_1 remove_snapshot hstage => exact h.abort_round hspawn hstage hnext
  | abort_remove serial =>
    obtain ⟨spawn, hspawn, hnext⟩ := Option.bind_eq_some_iff.mp hnext
    split at hnext
    case h_2 => simp at hnext
    case h_1 remove_snapshot hstage => exact Option.some.inj hnext ▸ h.abort_remove hspawn hstage
  | close session_id => exact Option.some.inj hnext ▸ h.start_closing _
  | stop_for_host host_id => exact Option.some.inj hnext ▸ h.start_closing _
  | call_step call round =>
    obtain ⟨hcall, hnext⟩ := Option.ite_none_right_eq_some.mp hnext
    exact h.call_step hcall hnext
  | stop_all => exact Option.some.inj hnext ▸ h.stop_all
  | stop_round cleanups cleanup round =>
    obtain ⟨_, hnext⟩ := Option.ite_none_right_eq_some.mp hnext
    exact h.stop_round hord hnext
  | wait_take serial =>
    obtain ⟨child, hchild, hnext⟩ := Option.bind_eq_some_iff.mp hnext
    obtain ⟨_, hnext⟩ := Option.ite_none_right_eq_some.mp hnext
    split at hnext
    · have hinv : RegistryInv (registry.set_child serial { child with handle := false }) :=
        h.set_child hchild id (h.child_terminated serial child hchild)
      exact Option.some.inj hnext ▸ hinv.set_waiter (by simp)
    · exact Option.some.inj hnext ▸ h.set_waiter (by simp)
  | wait_exit serial =>
    obtain ⟨child, hchild, hnext⟩ := Option.bind_eq_some_iff.mp hnext
    obtain ⟨⟨_, hdead⟩, hnext⟩ := Option.ite_none_right_eq_some.mp hnext
    have hdead : child.alive = false := by simpa using hdead
    have hinv : RegistryInv (registry.set_child serial { child with terminated := true }) :=
      h.set_child hchild id fun _ => hdead
    refine Option.some.inj hnext ▸ hinv.set_waiter fun _ =>
      ⟨{ child with terminated := true }, ?_, hdead⟩
    rw [children_set_child, if_pos rfl]
  | wait_fail serial =>
    obtain ⟨child, hchild, hnext⟩ := Option.bind_eq_some_iff.mp hnext
    obtain ⟨_, hnext⟩ := Option.ite_none_right_eq_some.mp hnext
    have hinv : RegistryInv (registry.set_child serial { child with handle := true }) :=
      h.set_child hchild id (h.child_terminated serial child hchild)
    exact Option.some.inj hnext ▸ hinv.set_waiter (by simp)
  | finalize serial status =>
    obtain ⟨spawn, hspawn, hnext⟩ := Option.bind_eq_some_iff.mp hnext
    obtain ⟨hexited, hnext⟩ := Option.ite_none_right_eq_some.mp hnext
    have hinv := h.drops (finalize_exit_drops registry spawn.session_id (generation_of serial) status)
      (h.dead_generation (h.waiter_exited serial hexited))
    exact Option.some.inj hnext ▸ hinv.set_waiter (by simp)
  | record serial error =>
    obtain ⟨spawn, hspawn, hnext⟩ := Option.bind_eq_some_iff.mp hnext
    obtain ⟨_, hnext⟩ := Option.ite_none_right_eq_some.mp hnext
    obtain ⟨snapshots, hsame⟩ := record_terminal_error_snapshots registry spawn.session_id
      (generation_of serial) ("failed to wait for PTY child: ".toList ++ error)
    rw [record_wait_error, hsame] at hnext
    exact Option.some.inj hnext ▸ (h.with_snapshots snapshots).set_waiter (by simp)
  | read_fails serial failure =>
    obtain ⟨spawn, hspawn, hnext⟩ := Option.bind_eq_some_iff.mp hnext
    obtain ⟨_, hnext⟩ := Option.ite_none_right_eq_some.mp hnext
    obtain ⟨snapshots, hsame⟩ := record_terminal_error_snapshots registry spawn.session_id
      (generation_of serial) failure.message
    rw [hsame] at hnext
    exact Option.some.inj hnext ▸ h.with_snapshots snapshots
  | child_exits serial =>
    obtain ⟨child, hchild, hnext⟩ := Option.bind_eq_some_iff.mp hnext
    exact Option.some.inj hnext ▸ h.set_child hchild (fun _ => rfl) fun _ => rfl

theorem reachable_registryInv (h : sessions.ReachableWhen Orderly registry) : RegistryInv registry := by
  refine h.invariant ?_ ?_
  · rintro registry rfl
    exact registryInv_default
  · intro registry label registry' hinv hord hnext
    exact hinv.next hord hnext

/-- **Every child has an owner**: in every orderly run a live child whose
    spawn has returned is owned by the slot of its session and generation,
    or a running `stop_all` has taken it out of its slot to terminate it. -/
theorem children_owned (h : sessions.ReachableWhen Orderly registry) :
    ∀ serial child, registry.children serial = some child → ¬ Pending registry serial →
      child.alive = false ∨ Owned registry serial ∨ Held registry serial := by
  intro serial child hchild hreturned
  have hinv := reachable_registryInv h
  cases halive : child.alive with
  | false => exact .inl rfl
  | true =>
    refine .inr ?_
    obtain ⟨spawn, hspawn, _⟩ := hinv.child_spawn serial child hchild
    have hstage : spawn.stage = .returned := by
      by_contra hpending
      exact hreturned ⟨spawn, hspawn, hpending⟩
    exact hinv.owned_of_stage hspawn (by simp [hstage]) hchild halive

/-- A check of `Orderly` for runs in which no `stop_all` terminates a child. -/
def orderly (registry : TerminalRegistry) (label : Label) : Bool :=
  match label with
  | .start _ _ _ | .reconnect _ _ => registry.next_generation + 1 < GENERATIONS
  | .register serial =>
      (registry.spawns serial).all fun spawn =>
        is_current_generation registry spawn.session_id (generation_of serial)
  | .stop_round _ _ _ => false
  | _ => true

theorem orderly_sound (registry : TerminalRegistry) (label : Label)
    (h : orderly registry label = true) : Orderly registry label := by
  cases label with
  | start =>
    show registry.next_generation + 1 < GENERATIONS
    exact of_decide_eq_true h
  | reconnect =>
    show registry.next_generation + 1 < GENERATIONS
    exact of_decide_eq_true h
  | register serial =>
    intro spawn child hspawn _ _
    have h : (registry.spawns serial).all (fun spawn =>
      is_current_generation registry spawn.session_id (generation_of serial)) = true := h
    rw [hspawn] at h
    exact h
  | stop_round => simp [orderly] at h
  | _ => trivial

def lab_host : HostProfile :=
  Store.profile_of_draft 0 0 (Store.HostDraft.plain none "lab".toList none) none

def first_session : Text := "00000000-0000-0000-0000-000000000001".toList

/-- The first child is alive and its spawn has returned. -/
def first_survives (registry : TerminalRegistry) : Bool :=
  registry.children 0 = some ⟨true, true, false⟩ &&
    (registry.spawns 0).any fun spawn => spawn.stage = .returned

theorem first_survives_sound (h : first_survives registry = true) :
    registry.children 0 = some ⟨true, true, false⟩ ∧ ¬ Pending registry 0 := by
  simp only [first_survives, Bool.and_eq_true, decide_eq_true_eq, Option.any_eq_true] at h
  obtain ⟨hchild, spawn, hspawn, hstage⟩ := h
  refine ⟨hchild, ?_⟩
  rintro ⟨other, hother, hpending⟩
  rw [hspawn, Option.some.injEq] at hother
  exact hpending (hother ▸ hstage)

/-- A session that has started owns its child. -/
theorem started_child_owned :
    ∃ (registry : TerminalRegistry) (child : Child), registry.children 0 = some child ∧
      child.alive = true ∧ (Owned registry 0 ∨ Held registry 0) := by
  obtain ⟨registry, hreach, hp⟩ := Machine.reachable_of_replay (m := sessions) orderly orderly_sound
    rfl [.start first_session lab_host none, .reserve 0, .spawn_command 0, .register 0, .commit 0,
      .send 0 true]
    first_survives (by decide +kernel)
  obtain ⟨hchild, hreturned⟩ := first_survives_sound hp
  exact ⟨registry, _, hchild, rfl,
    (children_owned hreach 0 _ hchild hreturned).resolve_left (by simp)⟩

/-- A child that is spawned while `stop_all` clears the slots has no owner. -/
theorem cleared_child_survives :
    ∃ (registry : TerminalRegistry) (child : Child), sessions.Reachable registry ∧
      registry.children 0 = some child ∧ child.alive = true ∧ ¬ Pending registry 0 ∧
        ¬ Owned registry 0 ∧ ¬ Held registry 0 := by
  obtain ⟨registry, hreach, hp⟩ := Machine.reachable_of_replay (m := sessions)
    (fun _ _ => true) (fun _ _ _ => trivial) rfl
    [.start first_session lab_host none, .reserve 0, .spawn_command 0, .stop_all, .register 0,
      .abort_check 0]
    (fun registry => first_survives registry && registry.active.keys.isEmpty &&
      decide (registry.stops = [[]])) (by decide +kernel)
  simp only [Bool.and_eq_true, List.isEmpty_iff, decide_eq_true_eq] at hp
  obtain ⟨⟨hsurvives, hcleared⟩, hstops⟩ := hp
  obtain ⟨hchild, hreturned⟩ := first_survives_sound hsurvives
  refine ⟨registry, _, hreach, hchild, rfl, hreturned, ?_, ?_⟩
  · rintro ⟨spawn, slot, _, hslot, _⟩
    have hmem : spawn.session_id ∈ registry.active.keys :=
      AList.mem_keys.mpr (AList.lookup_isSome.mp (Option.isSome_of_mem hslot))
    simp [hcleared] at hmem
  · rintro ⟨cleanups, hmem, hn⟩
    rw [hstops] at hmem
    simp [List.mem_singleton.mp hmem] at hn

end Session
