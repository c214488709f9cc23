import RemoteDeck.Session.Stages

/-! # A close removes its session

    `close` finds a slot or a record of some generation.  Once it has
    returned with `Ok`, and the spawn of that generation has returned, the
    session has neither a slot nor a record of the generation
    (`close_removes`), unless its exit was recorded while the close was
    waiting for the child, between its two locked sections.
-/

namespace Session

variable {registry registry' : TerminalRegistry} {label : Label} {serial : Nat} {spawn : Spawn}
  {session_id id : Text} {generation : Nat} {call : Call} {round : Round}

/-! ### The calls between two locks -/

/-- What a call of `close` found in its first locked section, until the last one. -/
def CloseStage.window : CloseStage → Option (Text × Nat)
  | .entering _ => none
  | .terminating session_id generation _ | .removing session_id generation _ =>
      some (session_id, generation)

/-- No exit is recorded of a generation that a close is waiting for, and a
    spawn terminates its child if its slot is asked to go. -/
def Undisturbed (registry : TerminalRegistry) (label : Label) : Prop :=
  match label with
  | .start _ _ _ | .reconnect _ _ => registry.next_generation + 1 < GENERATIONS
  | .finalize serial _ => ∀ spawn, registry.spawns serial = some spawn →
      ∀ call ∈ registry.calls, call.stage.window ≠ some (spawn.session_id, generation_of serial)
  | .abort_round serial round => ∀ spawn child slot, registry.spawns serial = some spawn →
      registry.children serial = some child → registry.slot spawn.session_id = some slot →
        slot.generation = generation_of serial → slot.close_requested = true →
          round.fails child = false
  | _ => True

theorem Undisturbed.fits (h : Undisturbed registry label)
    (hcounter : registry.next_generation < GENERATIONS) : label.fits registry := by
  unfold Label.fits
  cases label with
  | start | reconnect => exact h
  | _ => simpa only [Label.draws, Nat.add_zero] using hcounter

/-- A record of a generation comes with its slot. -/
def Window (registry : TerminalRegistry) (id : Text) (generation : Nat) : Prop :=
  (∃ serial spawn, SpawnOf registry id generation serial spawn) ∧
    ∀ record, registry.snapshots.lookup id = some record → record.generation = generation →
      ∃ slot, registry.slot id = some slot ∧ slot.generation = generation

/-- Only its exit takes the slot of a generation and leaves its record. -/
theorem Window.step (h : Window registry id generation) (hstages : StageInv registry)
    (hnext : registry.next label = some registry')
    (hfinal : ∀ serial status spawn, label = .finalize serial status →
      registry.spawns serial = some spawn → (id, generation) ≠ (spawn.session_id, generation_of serial)) :
    Window registry' id generation := by
  obtain ⟨⟨serial, spawn, hspawn⟩, hslot⟩ := h
  obtain ⟨spawn', hspawn', _⟩ := hspawn.step (hstages.drawn serial spawn hspawn.1) hnext
  refine ⟨⟨serial, spawn', hspawn'⟩, ?_⟩
  have hstarting := fun record => (hstages.record id record · |>.2)
  have hadmitted := hstages.slot id
  have hchange := step_change hnext id
  show ∀ record, (registry'.entry id).record = some record → record.generation = generation →
    ∃ slot, (registry'.entry id).slot = some slot ∧ slot.generation = generation
  have hslots : registry.slot id = (registry.entry id).slot := rfl
  have hrecords : registry.snapshots.lookup id = (registry.entry id).record := rfl
  rw [hslots] at hslot hadmitted hstarting
  rw [hrecords] at hslot hstarting
  generalize registry.entry id = before at hchange hslot hadmitted hstarting
  generalize registry'.entry id = after at hchange
  intro record hrecord hgeneration
  cases hchange with
  | same => exact hslot record hrecord hgeneration
  | reserve =>
    obtain ⟨slot, hnone, _⟩ := hslot record hrecord hgeneration
    simp at hnone
  | register | mark =>
    obtain ⟨slot, hfound, hsame⟩ := hslot record hrecord hgeneration
    obtain rfl := Option.some.inj hfound
    exact ⟨_, rfl, hsame⟩
  | commit =>
    obtain rfl := Option.some.inj hrecord
    exact ⟨_, rfl, hgeneration⟩
  | @release other _ host_id close_requested cleanup old =>
    -- a session that starts in a generation has no record of it
    dsimp only at hrecord
    split at hrecord
    · simp at hrecord
    · obtain ⟨slot, hfound, hsame⟩ := hslot record hrecord hgeneration
      obtain rfl := Option.some.inj hfound
      have hother : generation_of other = record.generation := hsame.trans hgeneration.symm
      rw [hother] at hstarting
      exact absurd rfl (hstarting record hrecord _ _ _)
  | @abort other found remove_snapshot slot old hlabel hfound hstage hsession hcurrent =>
    dsimp only at hrecord
    split at hrecord
    · simp at hrecord
    case isFalse hkeep =>
      rw [Bool.or_eq_true, not_or, Bool.not_eq_true] at hkeep
      obtain ⟨current, hfound', hsame⟩ := hslot record hrecord hgeneration
      obtain rfl := Option.some.inj hfound'
      cases slot with
      | Starting current host_id close_requested cleanup =>
        have hsame : current = record.generation := hsame.trans hgeneration.symm
        rw [hsame] at hstarting
        exact absurd rfl (hstarting record hrecord _ _ _)
      | Running session =>
        obtain ⟨n, owner, howner, hadmits⟩ := hadmitted _ rfl
        have hn : n = other :=
          hstages.serial_unique howner.1 hfound (howner.2.2.1.symm.trans hcurrent)
        obtain ⟨howner, _⟩ := howner
        rw [hn, hfound] at howner
        obtain rfl := Option.some.inj howner
        rw [hstage] at hadmits
        exact absurd hadmits (Bool.not_eq_true _ ▸ hkeep.1)
  | close | forget => simp at hrecord
  | @exit other found status session old snapshot hlabel hfound hid hsession hold =>
    obtain rfl := Option.some.inj hrecord
    have hother : generation = generation_of other := hgeneration.symm.trans hold
    exact absurd (by rw [hid, hother]) (hfinal other status found hlabel hfound)
  | fail _ _ _ hold =>
    obtain rfl := Option.some.inj hrecord
    exact ⟨_, rfl, hold.symm.trans hgeneration⟩

theorem call_next_window {after : Call} (h : call.next = some after) :
    after.stage.window = none := by
  unfold Call.next at h
  split at h
  · simp at h
  · obtain rfl := Option.some.inj h
    rfl

theorem request_close_slot {cleanup : Nat}
    (h : (request_close registry session_id).2 = .ok (some (generation, cleanup))) :
    ∃ slot, (request_close registry session_id).1.slot session_id = some slot ∧
      slot.generation = generation := by
  unfold request_close at h ⊢
  split at h
  case h_1 current host_id _ found _ =>
    simp only [Except.ok.injEq, Option.map_eq_some_iff, Prod.mk.injEq] at h
    obtain ⟨_, _, rfl, _⟩ := h
    refine ⟨.Starting current host_id true found, ?_, rfl⟩
    dsimp only
    rw [slot_insert_slot, if_pos rfl]
  case h_2 session hslot =>
    simp only [Except.ok.injEq, Option.some.injEq, Prod.mk.injEq] at h
    exact ⟨_, hslot, h.1⟩
  case h_3 => split at h <;> simp at h

/-- The calls of a call step are those before it, or the next stage of its own. -/
theorem mem_set_call {next : Option Call} {after : Call}
    (h : after ∈ (registry.set_call call next).calls) : after ∈ registry.calls ∨ next = some after := by
  have h : after ∈ registry.calls.erase call ++ next.toList := h
  rcases List.mem_append.mp h with hrest | hnext
  · exact .inl (List.mem_of_mem_erase hrest)
  · exact .inr (Option.mem_toList.mp hnext)

/-- A call between its locks was there before, or has just found its slot. -/
theorem call_step_window {after : Call} (h : call_step registry call round = some registry')
    (hafter : after ∈ registry'.calls) (hwindow : after.stage.window = some (id, generation)) :
    after ∈ registry.calls ∨ call.stage.window = some (id, generation) ∨
      ∃ slot, registry'.slot id = some slot ∧ slot.generation = generation := by
  have hleft : call.next ≠ some after := by
    intro hnext
    simp [call_next_window hnext] at hwindow
  unfold call_step at h
  split at h
  case h_1 session_id _ =>
    have hkeeps := request_close_keeps registry session_id
    have hslot := fun generation cleanup =>
      @request_close_slot registry session_id generation cleanup
    split at h
    case h_1 requested found cleanup hresult =>
      rw [hresult] at hkeeps hslot
      obtain rfl := Option.some.inj h
      rcases mem_set_call hafter with hmem | hnext
      · exact .inl (hkeeps.calls ▸ hmem)
      · obtain rfl := Option.some.inj hnext
        simp only [CloseStage.window, Option.some.injEq, Prod.mk.injEq] at hwindow
        obtain ⟨rfl, rfl⟩ := hwindow
        exact .inr (.inr (hslot found cleanup rfl))
    case h_2 hresult =>
      rw [hresult] at hkeeps
      obtain rfl := Option.some.inj h
      rcases mem_set_call hafter with hmem | hnext
      · exact .inl (hkeeps.calls ▸ hmem)
      · exact absurd hnext hleft
  case h_2 session_id found cleanup hstage =>
    obtain ⟨child, hchild, h⟩ := Option.bind_eq_some_iff.mp h
    split at h
    case h_1 =>
      obtain rfl := Option.some.inj h
      exact .inl hafter
    case h_2 =>
      obtain rfl := Option.some.inj h
      rcases mem_set_call hafter with hmem | hnext
      · exact .inl hmem
      · exact absurd hnext hleft
    case h_3 =>
      obtain rfl := Option.some.inj h
      rcases mem_set_call hafter with hmem | hnext
      · exact .inl hmem
      · obtain rfl := Option.some.inj hnext
        rw [hstage]
        exact .inr (.inl hwindow)
  case h_3 session_id found _ _ =>
    obtain rfl := Option.some.inj h
    have hkeeps := (remove_closed_drops registry session_id found).keeps
    rcases mem_set_call hafter with hmem | hnext
    · exact .inl (hkeeps.calls ▸ hmem)
    · exact absurd hnext hleft

theorem start_closing_window {sessions : List Text} (h : call ∈ (start_closing registry sessions).calls) :
    call ∈ registry.calls ∨ call.stage.window = none := by
  cases sessions with
  | nil => exact .inl h
  | cons session_id rest =>
    rcases List.mem_append.mp h with hmem | hmem
    · exact .inl hmem
    · rw [List.mem_singleton.mp hmem]
      exact .inr rfl

/-- The calls of a state between their two locks are those of the state before,
    or one that has just found its slot. -/
theorem window_of_step (hnext : registry.next label = some registry') (hcall : call ∈ registry'.calls)
    (hwindow : call.stage.window = some (id, generation)) :
    (∃ other ∈ registry.calls, other.stage.window = some (id, generation)) ∨
      ∃ slot, registry'.slot id = some slot ∧ slot.generation = generation := by
  have hold : call ∈ registry.calls ∨ call.stage.window = none →
      ∃ other ∈ registry.calls, other.stage.window = some (id, generation) := by
    rintro (hmem | hnone)
    · exact ⟨call, hmem, hwindow⟩
    · simp [hnone] at hwindow
  cases hcloses : label.closes with
  | false => exact .inl (hold (.inl ((step_frame hnext).calls hcloses ▸ hcall)))
  | true =>
    cases label with
    | close | stop_for_host =>
      obtain rfl := Option.some.inj hnext
      exact .inl (hold (start_closing_window hcall))
    | call_step moving round =>
      have hnext : (if moving ∈ registry.calls then call_step registry moving round else none) =
        some registry' := hnext
      rw [Option.ite_none_right_eq_some] at hnext
      rcases call_step_window hnext.2 hcall hwindow with hmem | hmoving | hslot
      · exact .inl (hold (.inl hmem))
      · exact .inl ⟨moving, hnext.1, hmoving⟩
      · exact .inr hslot
    | _ => simp [Label.closes] at hcloses

/-- Every call between its two locks has its window. -/
structure CloseInv (registry : TerminalRegistry) : Prop where
  stages : StageInv registry
  window : ∀ call ∈ registry.calls, ∀ id generation, call.stage.window = some (id, generation) →
    Window registry id generation

theorem CloseInv.step (h : CloseInv registry) (hok : Undisturbed registry label)
    (hnext : registry.next label = some registry') : CloseInv registry' := by
  have hstages := h.stages.step (hok.fits h.stages.counter) hnext
  refine ⟨hstages, ?_⟩
  intro call hcall id generation hwindow
  rcases window_of_step hnext hcall hwindow with ⟨other, hother, hfound⟩ | ⟨slot, hslot, hgeneration⟩
  · refine (h.window other hother id generation hfound).step h.stages hnext ?_
    intro serial status spawn hlabel hspawn hsame
    subst hlabel
    exact hok spawn hspawn other hother (hsame ▸ hfound)
  · obtain ⟨serial, spawn, hspawn, _⟩ := hstages.slot id slot hslot
    exact ⟨⟨serial, spawn, hgeneration ▸ hspawn⟩, fun _ _ _ => ⟨slot, hslot, hgeneration⟩⟩

theorem reachable_closeInv (h : sessions.ReachableWhen Undisturbed registry) : CloseInv registry := by
  refine h.invariant ?_ ?_
  · rintro registry rfl
    exact ⟨stageInv_default, fun call hcall => absurd hcall List.not_mem_nil⟩
  · intro registry label registry' hinv hok hnext
    exact hinv.step hok hnext

/-! ### After a close -/

/-- The stages in which a spawn still removes a slot that is asked to go. -/
def SpawnStage.leaves : SpawnStage → Bool
  | .drawn _ | .committed | .returned => false
  | _ => true

/-- The session has no record of the generation, and a slot of it is asked to
    go while its spawn is still to remove it. -/
def Leaving (registry : TerminalRegistry) (id : Text) (generation : Nat) : Prop :=
  ∃ serial spawn, SpawnOf registry id generation serial spawn ∧
    (∀ record, registry.snapshots.lookup id = some record → record.generation ≠ generation) ∧
    ∀ slot, registry.slot id = some slot → slot.generation = generation →
      slot.close_requested = true ∧ spawn.stage.leaves = true

theorem Moves.leaves {slot : TerminalSlot}
    (h : Moves registry label serial before (some slot) stage stage')
    (hgeneration : slot.generation = generation_of serial) (hclose : slot.close_requested = true)
    (hround : ∀ round child, label = .abort_round serial round → registry.children serial = some child →
      round.fails child = false) (hleaves : stage.leaves = true) : stage'.leaves = true := by
  cases h with
  | refuse | reserve | send | send_fails => simp [SpawnStage.leaves] at hleaves
  | release hslot =>
    cases slot with
    | Starting current host_id close_requested cleanup =>
      have hcurrent : current = generation_of serial := hgeneration
      exact absurd (by rw [hcurrent]) (hslot host_id close_requested cleanup)
    | Running session => simp [TerminalSlot.close_requested] at hclose
  | commit hslot =>
    rw [Option.some.inj hslot] at hclose
    simp [TerminalSlot.close_requested] at hclose
  | overtaken hslot | remove hslot => exact absurd hgeneration (hslot slot rfl)
  | fails hlabel hchild hfails =>
    rw [hround _ _ hlabel hchild] at hfails
    simp at hfails
  | register _ hstage => rcases hstage with rfl | rfl <;> rfl
  | spawn | setup_fails | check | terminated => rfl

theorem Leaving.step (h : Leaving registry id generation) (hstages : StageInv registry)
    (hok : Undisturbed registry label) (hnext : registry.next label = some registry') :
    Leaving registry' id generation := by
  obtain ⟨serial, spawn, hspawn, hrecord, hslot⟩ := h
  have hgeneration := hspawn.2.2.1
  obtain ⟨spawn', hspawn', hmoves⟩ := hspawn.step (hstages.drawn serial spawn hspawn.1) hnext
  -- a slot that goes on with its generation keeps its spawn
  have hkeeps : ∀ old slot, registry.slot id = some old → registry'.slot id = some slot →
      old.generation = slot.generation → (old.close_requested = true → slot.close_requested = true) →
        slot.generation = generation → slot.close_requested = true ∧ spawn'.stage.leaves = true := by
    intro old slot hold hnew hsame hrequested hcurrent
    obtain ⟨hclose, hleaves⟩ := hslot old hold (hsame.trans hcurrent)
    refine ⟨hrequested hclose, ?_⟩
    rcases hmoves with rfl | hmoves
    · exact hleaves
    · rw [hnew] at hmoves
      refine hmoves.leaves (hcurrent.trans hgeneration) (hrequested hclose) ?_ hleaves
      intro round child hlabel hchild
      subst hlabel
      have hfound : registry.slot spawn.session_id = some old := hspawn.2.1.symm ▸ hold
      exact hok spawn child old hspawn.1 hchild hfound (hsame.trans (hcurrent.trans hgeneration)) hclose
  have hchange := step_change hnext id
  have hrecord : ∀ record, (registry.entry id).record = some record → record.generation ≠ generation :=
    hrecord
  have hslots : registry.slot id = (registry.entry id).slot ∧ registry'.slot id = (registry'.entry id).slot :=
    ⟨rfl, rfl⟩
  rw [hslots.1, hslots.2] at hkeeps
  rw [hslots.1] at hslot
  suffices hentry : (∀ record, (registry'.entry id).record = some record →
      record.generation ≠ generation) ∧ ∀ slot, (registry'.entry id).slot = some slot →
        slot.generation = generation → slot.close_requested = true ∧ spawn'.stage.leaves = true from
    ⟨serial, spawn', hspawn', hentry.1, hentry.2⟩
  clear hmoves hslots
  generalize registry.entry id = before at hchange hrecord hkeeps hslot
  generalize registry'.entry id = after at hchange hkeeps
  cases hchange with
  | same =>
    exact ⟨hrecord, fun slot hfound => hkeeps slot slot hfound hfound rfl fun hclose => hclose⟩
  | @reserve other found _ _ _ hfound hstage =>
    refine ⟨hrecord, ?_⟩
    intro slot hnew hcurrent
    obtain rfl := Option.some.inj hnew
    have hother : generation_of other = generation := hcurrent
    have hsame : other = serial :=
      hstages.serial_unique hfound hspawn.1 (hother.trans hgeneration)
    rw [hsame, hspawn.1, Option.some.injEq] at hfound
    have hreserved := hspawn.2.2.2
    rw [hfound, hstage] at hreserved
    simp [SpawnStage.is_drawn] at hreserved
  | register =>
    refine ⟨hrecord, ?_⟩
    intro slot hnew
    obtain rfl := Option.some.inj hnew
    exact hkeeps _ _ rfl rfl rfl fun hclose => hclose
  | mark =>
    refine ⟨hrecord, ?_⟩
    intro slot hnew
    obtain rfl := Option.some.inj hnew
    exact hkeeps _ _ rfl rfl rfl fun _ => rfl
  | @commit other =>
    -- the slot was not asked to go, so it has another generation
    have hother : generation_of other ≠ generation := by
      intro hsame
      have hclose := (hslot _ rfl hsame).1
      simp [TerminalSlot.close_requested] at hclose
    refine ⟨?_, ?_⟩
    · intro record hnew
      obtain rfl := Option.some.inj hnew
      exact hother
    · intro slot hnew hcurrent
      obtain rfl := Option.some.inj hnew
      exact absurd hcurrent hother
  | release | abort =>
    refine ⟨?_, by simp⟩
    intro record hnew
    dsimp only at hnew
    split at hnew
    · simp at hnew
    · exact hrecord record hnew
  | close | forget => simp
  | @exit _ _ _ _ old =>
    refine ⟨?_, by simp⟩
    intro record hnew
    obtain rfl := Option.some.inj hnew
    exact hrecord old rfl
  | @fail _ _ _ old =>
    refine ⟨?_, ?_⟩
    · intro record hnew
      obtain rfl := Option.some.inj hnew
      exact hrecord old rfl
    · intro slot hnew
      obtain rfl := Option.some.inj hnew
      exact hkeeps _ _ rfl rfl rfl fun hclose => hclose

/-- A call of `close` returns with `Ok`, having found a generation of the session. -/
def Returns (registry : TerminalRegistry) (call : Call) (session_id : Text) (generation : Nat) : Prop :=
  match call.stage with
  | .entering id => id = session_id ∧ (request_close registry id).2 = .ok none ∧
      ((∃ slot, registry.slot id = some slot ∧ slot.generation = generation) ∨
        registry.slot id = none ∧
          ∃ record, registry.snapshots.lookup id = some record ∧ record.generation = generation)
  | .terminating _ _ _ => False
  | .removing id found _ => id = session_id ∧ found = generation

theorem SpawnOf.keeps (h : SpawnOf registry id generation serial spawn)
    (hspawns : registry'.spawns = registry.spawns) : SpawnOf registry' id generation serial spawn :=
  ⟨(congrFun hspawns serial).trans h.1, h.2⟩

/-- A close that finds no child to terminate has asked for the slot to go, or
    has removed the record. -/
theorem StageInv.request_close_leaving (h : StageInv registry)
    (hok : (request_close registry id).2 = .ok none)
    (hfound : (∃ slot, registry.slot id = some slot ∧ slot.generation = generation) ∨
      registry.slot id = none ∧
        ∃ record, registry.snapshots.lookup id = some record ∧ record.generation = generation) :
    Leaving (request_close registry id).1 id generation := by
  have hspawns := (request_close_keeps registry id).spawns
  rcases hfound with ⟨slot, hslot, hgeneration⟩ | ⟨hslot, record, hrecord, hgeneration⟩
  · obtain ⟨serial, spawn, hspawn, hadmits⟩ := h.slot id slot hslot
    rw [hgeneration] at hspawn
    refine ⟨serial, spawn, hspawn.keeps hspawns, ?_⟩
    unfold request_close at hok ⊢
    rw [hslot] at hok ⊢
    cases slot with
    | Running session => simp at hok
    | Starting current host_id close_requested cleanup =>
      simp only [Except.ok.injEq, Option.map_eq_none_iff] at hok
      subst hok
      have hcurrent : current = generation := hgeneration
      subst hcurrent
      refine ⟨?_, ?_⟩
      · intro record hrecord hsame
        have hstarting := (h.record id record hrecord).2 host_id close_requested none
        rw [hsame] at hstarting
        exact hstarting hslot
      · intro marked hmarked _
        dsimp only at hmarked
        rw [slot_insert_slot, if_pos rfl, Option.some.injEq] at hmarked
        subst hmarked
        refine ⟨rfl, ?_⟩
        generalize spawn.stage = stage at hadmits
        cases stage <;> simp_all [SpawnStage.admits, SpawnStage.leaves]
  · obtain ⟨⟨serial, spawn, hspawn⟩, _⟩ := h.record id record hrecord
    rw [hgeneration] at hspawn
    refine ⟨serial, spawn, hspawn.keeps hspawns, ?_⟩
    have hremoved : (request_close registry id).1 = registry.remove_snapshot id := by
      unfold request_close
      rw [hslot, hrecord]
      rfl
    have hentry := entry_remove_snapshot registry id id
    rw [if_pos rfl, entry_eq_of_id rfl hslot rfl, ← hremoved] at hentry
    constructor
    · intro other hother
      exact absurd (hother.symm.trans (congrArg Entry.record hentry)) (Option.some_ne_none other)
    · intro other hother
      exact absurd (hother.symm.trans (congrArg Entry.slot hentry)) (Option.some_ne_none other)

/-- The last locked section of a close leaves nothing of the generation, since
    the record still had its slot. -/
theorem Window.remove_closed (h : Window registry id generation) :
    Leaving (remove_closed registry id generation) id generation := by
  obtain ⟨⟨serial, spawn, hspawn⟩, hslot⟩ := h
  have hspawns := (remove_closed_drops registry id generation).keeps.spawns
  refine ⟨serial, spawn, hspawn.keeps hspawns, ?_⟩
  unfold Session.remove_closed
  split
  case isTrue =>
    have hentry := entry_removed registry id id true
    rw [if_pos rfl, if_pos rfl, if_pos rfl] at hentry
    constructor
    · intro other hother
      exact absurd (hother.symm.trans (congrArg Entry.record hentry)) (Option.some_ne_none other)
    · intro other hother
      exact absurd (hother.symm.trans (congrArg Entry.slot hentry)) (Option.some_ne_none other)
  case isFalse hother =>
    rw [is_current_generation_iff] at hother
    constructor
    · intro record hrecord hgeneration
      exact hother (hslot record hrecord hgeneration)
    · intro slot hfound hgeneration
      exact absurd ⟨slot, hfound, hgeneration⟩ hother

theorem CloseInv.returns (h : CloseInv registry) (hnext : registry.next (.call_step call round) = some registry')
    (hreturns : Returns registry call session_id generation) :
    Leaving registry' session_id generation := by
  have hnext : (if call ∈ registry.calls then call_step registry call round else none) =
    some registry' := hnext
  rw [Option.ite_none_right_eq_some] at hnext
  obtain ⟨hmem, hnext⟩ := hnext
  unfold call_step at hnext
  unfold Returns at hreturns
  split at hreturns
  case h_1 id hstage =>
    obtain ⟨rfl, hok, hfound⟩ := hreturns
    have hleaving := h.stages.request_close_leaving hok hfound
    rw [hstage] at hnext
    dsimp only at hnext
    split at hnext
    case h_1 hresult => simp [hresult] at hok
    case h_2 requested _ _ hresult =>
      rw [hresult] at hleaving
      exact Option.some.inj hnext ▸ hleaving
  case h_2 => exact hreturns.elim
  case h_3 id found cleanup hstage =>
    obtain ⟨rfl, rfl⟩ := hreturns
    have hwindow := h.window call hmem id found (by rw [hstage]; rfl)
    rw [hstage] at hnext
    exact Option.some.inj hnext ▸ hwindow.remove_closed

/-- **Closing a session removes it**: in every undisturbed run, once a close
    has returned with `Ok` and the spawn of the generation that it found has
    returned, the session has no slot and no record of the generation. -/
theorem close_removes {after later : TerminalRegistry}
    (h : sessions.ReachableWhen Undisturbed registry)
    (hnext : registry.next (.call_step call round) = some after)
    (hreturns : Returns registry call session_id generation)
    (hrun : sessions.StepsWhen Undisturbed after later)
    (hsettled : ∀ serial spawn, later.spawns serial = some spawn → spawn.session_id = session_id →
      generation_of serial = generation → spawn.stage = .returned) :
    (∀ slot, later.slot session_id = some slot → slot.generation ≠ generation) ∧
      ∀ record, later.snapshots.lookup session_id = some record → record.generation ≠ generation := by
  have hinv := reachable_closeInv h
  have hok : Undisturbed registry (.call_step call round) := trivial
  have hafter : sessions.ReachableWhen Undisturbed after := .step h hok hnext
  have hleaving : Leaving later session_id generation := by
    have hreturned : Leaving after session_id generation := hinv.returns hnext hreturns
    refine Machine.StepsWhen.preserves_reachable (P := fun state => Leaving state session_id generation)
      (fun _ _ hok => hok) ?_ hafter hrun hreturned
    intro state label state' hreach hleaving hok hstep
    exact hleaving.step (reachable_closeInv hreach).stages hok hstep
  obtain ⟨serial, spawn, ⟨hspawn, hsession, hgeneration, _⟩, hrecord, hslot⟩ := hleaving
  refine ⟨?_, hrecord⟩
  intro slot hfound hcurrent
  obtain ⟨_, hleaves⟩ := hslot slot hfound hcurrent
  rw [hsettled serial spawn hspawn hsession hgeneration.symm] at hleaves
  simp [SpawnStage.leaves] at hleaves

/-! ### Two runs -/

/-- A check of `Undisturbed` for runs without the steps that it restricts. -/
def undisturbed (registry : TerminalRegistry) (label : Label) : Bool :=
  match label with
  | .start _ _ _ | .reconnect _ _ => registry.next_generation + 1 < GENERATIONS
  | .finalize _ _ | .abort_round _ _ => false
  | _ => true

theorem undisturbed_sound (registry : TerminalRegistry) (label : Label)
    (h : undisturbed registry label = true) : Undisturbed registry label := by
  cases label with
  | start | reconnect =>
    show registry.next_generation + 1 < GENERATIONS
    exact of_decide_eq_true h
  | finalize | abort_round => simp [undisturbed] at h
  | _ => trivial

/-- The first session is closed: the child exits, and the close sees it. -/
def close_first : List Label :=
  [.start first_session lab_host none, .reserve 0, .spawn_command 0, .register 0, .commit 0,
    .send 0 true, .close first_session, .call_step ⟨.entering first_session, []⟩ ⟨.WouldBlock, false, none⟩,
    .child_exits 0, .call_step ⟨.terminating first_session 1 0, []⟩ ⟨.Status, false, none⟩]

/-- The waiter sees the exit, and records it before the close goes on. -/
def exit_first : List Label :=
  [.start first_session lab_host none, .reserve 0, .spawn_command 0, .register 0, .commit 0,
    .send 0 true, .wait_take 0, .close first_session,
    .call_step ⟨.entering first_session, []⟩ ⟨.WouldBlock, false, none⟩, .child_exits 0, .wait_exit 0,
    .finalize 0 ⟨0, none⟩, .call_step ⟨.terminating first_session 1 0, []⟩ ⟨.WouldBlock, false, none⟩]

def last_lock : Label := .call_step ⟨.removing first_session 1 0, []⟩ ⟨.WouldBlock, false, none⟩

/-- The close of the first session is about to return, when its spawn has. -/
def closing_first (registry : TerminalRegistry) : Bool :=
  registry.next_generation = 1 &&
    ((registry.spawns 0).all fun spawn => spawn.stage = .returned) &&
      (registry.next last_lock).isSome

theorem closing_first_settled (hinv : StageInv registry) (h : closing_first registry = true) :
    ∃ after, registry.next last_lock = some after ∧ ∀ serial spawn, after.spawns serial = some spawn →
      spawn.session_id = first_session → generation_of serial = 1 → spawn.stage = .returned := by
  simp only [closing_first, Bool.and_eq_true, decide_eq_true_eq] at h
  obtain ⟨⟨hcounter, hreturned⟩, hnext⟩ := h
  obtain ⟨after, hafter⟩ := Option.isSome_iff_exists.mp hnext
  refine ⟨after, hafter, ?_⟩
  intro serial spawn hspawn _ _
  have hfits : last_lock.fits registry := hinv.counter
  have hdrawn := (hinv.step hfits hafter).drawn serial spawn hspawn
  have hframe : after.next_generation = registry.next_generation := (step_frame hafter).counter
  obtain rfl : serial = 0 := by omega
  cases step_advances hafter 0 with
  | same hsame =>
    rw [← hsame, hspawn] at hreturned
    exact of_decide_eq_true hreturned
  | draw hserial hlabel => exact absurd hlabel (by decide)
  | move hold hspawn' _ hmoves =>
    rw [hold] at hreturned
    rw [of_decide_eq_true hreturned] at hmoves
    exact nomatch hmoves

theorem closing_first_returns (registry : TerminalRegistry) :
    Returns registry ⟨.removing first_session 1 0, []⟩ first_session 1 := ⟨rfl, rfl⟩

/-- The close of a session whose child exits leaves nothing of its generation. -/
theorem closed_session_removed :
    ∃ (registry after : TerminalRegistry), sessions.ReachableWhen Undisturbed registry ∧
      registry.next last_lock = some after ∧
      (∀ slot, after.slot first_session = some slot → slot.generation ≠ 1) ∧
        ∀ record, after.snapshots.lookup first_session = some record → record.generation ≠ 1 := by
  have hstart : sessions.init .default := rfl
  have hreach : ∃ registry, sessions.ReachableWhen Undisturbed registry ∧ closing_first registry = true :=
    Machine.reachable_of_replay undisturbed undisturbed_sound hstart close_first closing_first
      (by decide +kernel)
  obtain ⟨registry, hreachable, hclosing⟩ := hreach
  obtain ⟨after, hafter, hsettled⟩ := closing_first_settled (reachable_closeInv hreachable).stages hclosing
  exact ⟨registry, after, hreachable, hafter, close_removes hreachable hafter
    (closing_first_returns registry) (.refl after) hsettled⟩

/-- The close of a session whose exit is recorded meanwhile returns with `Ok`
    and leaves the record of its generation. -/
theorem recorded_exit_survives :
    ∃ (registry after : TerminalRegistry) (record : TerminalRecord), sessions.Reachable registry ∧
      registry.next last_lock = some after ∧
      Returns registry ⟨.removing first_session 1 0, []⟩ first_session 1 ∧
      (∀ serial spawn, after.spawns serial = some spawn → spawn.session_id = first_session →
        generation_of serial = 1 → spawn.stage = .returned) ∧
      after.snapshots.lookup first_session = some record ∧ record.generation = 1 := by
  have hstart : sessions.init .default := rfl
  have hreach : ∃ registry, sessions.ReachableWhen (fun registry label => label.fits registry) registry ∧
      (closing_first registry && ((registry.next last_lock).any fun after =>
        (after.snapshots.lookup first_session).any fun record => record.generation = 1)) = true :=
    Machine.reachable_of_replay
      (fun registry label => decide (registry.next_generation + label.draws < GENERATIONS))
      (fun _ _ h => of_decide_eq_true h) hstart exit_first _ (by decide +kernel)
  obtain ⟨registry, hreachable, hlast⟩ := hreach
  rw [Bool.and_eq_true, Option.any_eq_true] at hlast
  obtain ⟨hclosing, last, hlast, hrecord⟩ := hlast
  obtain ⟨after, hafter, hsettled⟩ := closing_first_settled (reachable_stageInv hreachable) hclosing
  rw [hafter, Option.some.injEq] at hlast
  rw [← hlast, Option.any_eq_true] at hrecord
  obtain ⟨record, hfound, hgeneration⟩ := hrecord
  exact ⟨registry, after, record, hreachable.reachable, hafter, closing_first_returns registry, hsettled,
    hfound, of_decide_eq_true hgeneration⟩

end Session
