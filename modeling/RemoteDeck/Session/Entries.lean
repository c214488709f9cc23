import RemoteDeck.Session.Registry

/-! # The entry of a session

    The slot and the record of a session, and all that one step can do to
    them (`Change`).  The invariants of the registry are derived from this,
    and not from the step function.
-/

namespace Session

variable {registry registry' : TerminalRegistry} {label : Label} {serial : Nat} {spawn : Spawn}
  {session_id id : Text} {generation : Nat}

/-- The slot and the record of a session. -/
structure Entry where
  slot : Option TerminalSlot
  record : Option TerminalRecord

def TerminalRegistry.entry (registry : TerminalRegistry) (session_id : Text) : Entry where
  slot := registry.slot session_id
  record := registry.snapshots.lookup session_id

/-- Whether a close has asked for a starting slot to go. -/
def TerminalSlot.close_requested : TerminalSlot → Bool
  | .Starting _ _ close_requested _ => close_requested
  | .Running _ => false

/-! ### Slots and records -/

theorem slot_insert_slot (registry : TerminalRegistry) (session_id id : Text) (slot : TerminalSlot) :
    (registry.insert_slot session_id slot).slot id =
      if id = session_id then some slot else registry.slot id := by
  unfold TerminalRegistry.insert_slot TerminalRegistry.slot
  by_cases hid : id = session_id
  · subst hid
    rw [if_pos rfl]
    exact AList.lookup_insert _
  · rw [if_neg hid]
    exact AList.lookup_insert_ne hid

theorem slot_remove_slot (registry : TerminalRegistry) (session_id id : Text) :
    (registry.remove_slot session_id).slot id =
      if id = session_id then none else registry.slot id := by
  unfold TerminalRegistry.remove_slot TerminalRegistry.slot
  by_cases hid : id = session_id
  · rw [if_pos hid, hid, AList.lookup_erase]
  · rw [if_neg hid, AList.lookup_erase_ne hid]

theorem entry_insert_slot (registry : TerminalRegistry) (session_id id : Text) (slot : TerminalSlot) :
    (registry.insert_slot session_id slot).entry id =
      if id = session_id then { registry.entry id with slot := some slot } else registry.entry id := by
  unfold TerminalRegistry.entry
  rw [slot_insert_slot]
  split <;> rfl

theorem entry_remove_slot (registry : TerminalRegistry) (session_id id : Text) :
    (registry.remove_slot session_id).entry id =
      if id = session_id then { registry.entry id with slot := none } else registry.entry id := by
  unfold TerminalRegistry.entry
  rw [slot_remove_slot]
  split <;> rfl

theorem entry_insert_snapshot (registry : TerminalRegistry) (session_id id : Text)
    (record : TerminalRecord) :
    (registry.insert_snapshot session_id record).entry id =
      if id = session_id then { registry.entry id with record := some record } else registry.entry id := by
  unfold TerminalRegistry.entry TerminalRegistry.insert_snapshot
  by_cases hid : id = session_id
  · subst hid
    rw [if_pos rfl, AList.lookup_insert]
    rfl
  · rw [if_neg hid, AList.lookup_insert_ne hid]
    rfl

theorem entry_remove_snapshot (registry : TerminalRegistry) (session_id id : Text) :
    (registry.remove_snapshot session_id).entry id =
      if id = session_id then { registry.entry id with record := none } else registry.entry id := by
  unfold TerminalRegistry.entry TerminalRegistry.remove_snapshot
  by_cases hid : id = session_id
  · subst hid
    rw [if_pos rfl, AList.lookup_erase]
    rfl
  · rw [if_neg hid, AList.lookup_erase_ne hid]
    rfl

theorem is_current_generation_iff :
    is_current_generation registry session_id generation = true ↔
      ∃ slot, registry.slot session_id = some slot ∧ slot.generation = generation := by
  simp [is_current_generation, Option.any_eq_true]

theorem spawns_set_stage (registry : TerminalRegistry) (serial n : Nat) (spawn : Spawn)
    (stage : SpawnStage) :
    (registry.set_stage serial spawn stage).spawns n =
      if n = serial then some { spawn with stage := stage } else registry.spawns n := by
  unfold TerminalRegistry.set_stage
  exact Function.update_apply ..

theorem spawn_at_eq_some {stage : SpawnStage} :
    registry.spawn_at serial stage = some spawn ↔
      registry.spawns serial = some spawn ∧ spawn.stage = stage := by
  simp [TerminalRegistry.spawn_at, Option.filter_eq_some_iff]

/-- Generations do not repeat while the counter has not run out. -/
theorem generation_of_inj {n m : Nat} (hn : n + 1 < GENERATIONS) (hm : m + 1 < GENERATIONS)
    (h : generation_of n = generation_of m) : n = m := by
  unfold generation_of at h
  rw [Nat.mod_eq_of_lt hn, Nat.mod_eq_of_lt hm] at h
  omega

/-! ### Changes -/

/-- A snapshot after a change of its state. -/
structure Revises (old new : TerminalSnapshot) : Prop where
  session_id : new.session_id = old.session_id
  generation : new.generation = old.generation
  revision : new = old ∨ new.revision = min (old.revision + 1) MAX_REVISION

/-- The waiter or the reader of a spawn records an error. -/
def Label.reports (label : Label) (serial : Nat) : Prop :=
  (∃ error, label = .record serial error) ∨ ∃ failure, label = .read_fails serial failure

/-- What a step can do to the entry of a session. -/
inductive Change (registry : TerminalRegistry) (label : Label) (session_id : Text) : Entry → Entry → Prop where
  | same (entry : Entry) : Change registry label session_id entry entry
  | reserve {serial : Nat} {spawn : Spawn} {reconnects : Bool} {record : Option TerminalRecord}
      (hlabel : label = .reserve serial) (hspawn : registry.spawns serial = some spawn)
      (hstage : spawn.stage = .drawn reconnects) (hsession : spawn.session_id = session_id)
      (hrecord : reconnects = record.isSome) :
      Change registry label session_id ⟨none, record⟩
        ⟨some (.Starting (generation_of serial) spawn.host.id false none), record⟩
  | register {serial : Nat} {spawn : Spawn} {host_id : Text} {close_requested : Bool}
      {cleanup : Option Nat} {record : Option TerminalRecord} (hlabel : label = .register serial)
      (hspawn : registry.spawns serial = some spawn) (hstage : spawn.stage = .spawned)
      (hsession : spawn.session_id = session_id) :
      Change registry label session_id
        ⟨some (.Starting (generation_of serial) host_id close_requested cleanup), record⟩
        ⟨some (.Starting (generation_of serial) host_id close_requested (some serial)), record⟩
  | mark {generation : Nat} {host_id : Text} {close_requested : Bool} {cleanup : Option Nat}
      {record : Option TerminalRecord} :
      Change registry label session_id
        ⟨some (.Starting generation host_id close_requested cleanup), record⟩
        ⟨some (.Starting generation host_id true cleanup), record⟩
  | commit {serial : Nat} {spawn : Spawn} {host_id : Text} {cleanup : Option Nat}
      {record : Option TerminalRecord} (hlabel : label = .commit serial)
      (hspawn : registry.spawns serial = some spawn) (hstage : spawn.stage = .registered)
      (hsession : spawn.session_id = session_id) :
      Change registry label session_id
        ⟨some (.Starting (generation_of serial) host_id false cleanup), record⟩
        ⟨some (.Running ⟨generation_of serial, spawn.host.id, serial⟩),
          some ⟨generation_of serial, spawn.snapshot (generation_of serial)⟩⟩
  | release {serial : Nat} {spawn : Spawn} {host_id : Text} {close_requested : Bool}
      {cleanup : Option Nat} {record : Option TerminalRecord} (hlabel : label = .spawn_fails serial)
      (hspawn : registry.spawns serial = some spawn) (hstage : spawn.stage = .reserved)
      (hsession : spawn.session_id = session_id) :
      Change registry label session_id
        ⟨some (.Starting (generation_of serial) host_id close_requested cleanup), record⟩
        ⟨none, if close_requested then none else record⟩
  | abort {serial : Nat} {spawn : Spawn} {remove_snapshot : Bool} {slot : TerminalSlot}
      {record : Option TerminalRecord} (hlabel : label = .abort_remove serial)
      (hspawn : registry.spawns serial = some spawn) (hstage : spawn.stage = .removing remove_snapshot)
      (hsession : spawn.session_id = session_id) (hslot : slot.generation = generation_of serial) :
      Change registry label session_id ⟨some slot, record⟩
        ⟨none, if remove_snapshot || slot.close_requested then none else record⟩
  | close {slot : TerminalSlot} {record : Option TerminalRecord} :
      Change registry label session_id ⟨some slot, record⟩ ⟨none, none⟩
  | forget {record : Option TerminalRecord} :
      Change registry label session_id ⟨none, record⟩ ⟨none, none⟩
  | exit {serial : Nat} {spawn : Spawn} {status : ExitStatus} {session : TerminalSession}
      {record : TerminalRecord} {snapshot : TerminalSnapshot} (hlabel : label = .finalize serial status)
      (hspawn : registry.spawns serial = some spawn) (hid : spawn.session_id = session_id)
      (hsession : session.generation = generation_of serial)
      (hrecord : record.generation = generation_of serial) (hrevises : Revises record.snapshot snapshot)
      (hstate : snapshot.state = .Closed ∨ snapshot.state = .Offline) :
      Change registry label session_id ⟨some (.Running session), some record⟩
        ⟨none, some { record with snapshot := snapshot }⟩
  | fail {serial : Nat} {spawn : Spawn} {session : TerminalSession} {record : TerminalRecord}
      {snapshot : TerminalSnapshot} (hlabel : label.reports serial)
      (hspawn : registry.spawns serial = some spawn) (hid : spawn.session_id = session_id)
      (hrecord : record.generation = session.generation) (hrevises : Revises record.snapshot snapshot)
      (hstate : snapshot.state = .Failed) :
      Change registry label session_id ⟨some (.Running session), some record⟩
        ⟨some (.Running session), some { record with snapshot := snapshot }⟩

/-! ### What the locked sections do -/

theorem entry_eq_of_id (hid : id = session_id) (hslot : registry.slot session_id = slot)
    (hrecord : registry.snapshots.lookup session_id = record) :
    registry.entry id = ⟨slot, record⟩ := by
  subst hid hslot hrecord
  rfl

/-- A reservation is refused and only its call returns, or it fills the empty
    slot of its session while the registry is not full. -/
theorem reserve_effect (registry : TerminalRegistry) (serial : Nat) (spawn : Spawn) (reconnects : Bool) :
    reserve registry serial spawn reconnects = registry.set_stage serial spawn .returned ∨
      ∃ spawn' : Spawn, spawn'.session_id = spawn.session_id ∧ registry.slot spawn.session_id = none ∧
        reconnects = (registry.snapshots.lookup spawn.session_id).isSome ∧
        registry.active.entries.length < MAX_ACTIVE_TERMINALS ∧
        reserve registry serial spawn reconnects =
          (registry.insert_slot spawn.session_id
            (.Starting (generation_of serial) spawn.host.id false none)).set_stage serial spawn' .reserved := by
  have hslot : ∀ after, reserve_slot registry spawn.session_id spawn.host.id (generation_of serial) =
      .ok after → registry.active.entries.length < MAX_ACTIVE_TERMINALS ∧ after =
        registry.insert_slot spawn.session_id (.Starting (generation_of serial) spawn.host.id false none) := by
    intro after hafter
    unfold reserve_slot at hafter
    rw [Outcome.ite_error_eq_ok, Except.ok.injEq] at hafter
    exact ⟨Nat.lt_of_not_le hafter.1, hafter.2.symm⟩
  unfold reserve
  cases reconnects with
  | true =>
    rw [if_pos rfl]
    split
    case h_1 => exact .inl rfl
    case h_2 previous reserved hresult =>
      obtain ⟨record, hrecord, hresult⟩ := Outcome.bind_eq_ok.mp hresult
      rw [Option.ok_or_eq_ok] at hrecord
      simp only [Outcome.ite_error_eq_ok] at hresult
      obtain ⟨_, hfree, hresult⟩ := hresult
      obtain ⟨after, hafter, hresult⟩ := Outcome.bind_eq_ok.mp hresult
      simp only [Except.ok.injEq, Prod.mk.injEq] at hresult
      obtain ⟨rfl, rfl⟩ := hresult
      obtain ⟨hfits, rfl⟩ := hslot after hafter
      have hsome : true = (registry.snapshots.lookup spawn.session_id).isSome := by rw [hrecord]; rfl
      exact .inr ⟨{ spawn with
          revision := next_terminal_snapshot_revision record.snapshot
          title := some record.snapshot.title },
        rfl, Option.not_isSome_iff_eq_none.mp hfree, hsome, hfits, rfl⟩
  | false =>
    rw [if_neg Bool.false_ne_true]
    split
    case h_1 => exact .inl rfl
    case h_2 after hafter =>
      unfold reserve_new at hafter
      rw [Outcome.ite_error_eq_ok, not_or] at hafter
      obtain ⟨⟨hfree, hrecord⟩, hafter⟩ := hafter
      obtain ⟨hfits, rfl⟩ := hslot after hafter
      exact .inr ⟨spawn, rfl, Option.not_isSome_iff_eq_none.mp hfree,
        (Bool.not_eq_true _ ▸ hrecord).symm, hfits, rfl⟩

theorem reserve_entry (hspawn : registry.spawns serial = some spawn) {reconnects : Bool}
    (hstage : spawn.stage = .drawn reconnects) (id : Text) :
    Change registry (.reserve serial) id (registry.entry id)
      ((reserve registry serial spawn reconnects).entry id) := by
  rcases reserve_effect registry serial spawn reconnects with
    hrefused | ⟨spawn', _, hslot, hrecord, _, hreserved⟩
  · rw [hrefused]
    exact .same _
  · rw [hreserved]
    show Change registry _ id _ ((registry.insert_slot spawn.session_id _).entry id)
    rw [entry_insert_slot]
    split
    case isFalse => exact .same _
    case isTrue hid =>
      rw [entry_eq_of_id hid hslot rfl]
      exact .reserve rfl hspawn hstage hid.symm hrecord

theorem register_entry (hspawn : registry.spawns serial = some spawn) (hstage : spawn.stage = .spawned)
    (id : Text) :
    Change registry (.register serial) id (registry.entry id)
      ((register_spawn_cleanup registry spawn.session_id (generation_of serial) serial).1.entry id) := by
  unfold register_spawn_cleanup
  split
  case h_2 => exact .same _
  case h_1 current host_id close_requested cleanup hslot =>
    by_cases hcurrent : current = generation_of serial
    · subst hcurrent
      rw [if_pos rfl, entry_insert_slot]
      split
      case isFalse => exact .same _
      case isTrue hid =>
        rw [entry_eq_of_id hid hslot rfl]
        exact .register rfl hspawn hstage hid.symm
    · rw [if_neg hcurrent]
      exact .same _

/-- A slot is removed, and with it the record or not. -/
theorem entry_removed (registry : TerminalRegistry) (session_id id : Text) (both : Bool) :
    (if both then (registry.remove_slot session_id).remove_snapshot session_id
      else registry.remove_slot session_id).entry id =
      if id = session_id then ⟨none, if both then none else registry.snapshots.lookup session_id⟩
      else registry.entry id := by
  by_cases hid : id = session_id
  · subst hid
    cases both
    · simp only [Bool.false_eq_true, if_false, if_true, entry_remove_slot]
      rfl
    · simp only [if_true, entry_remove_snapshot, entry_remove_slot]
  · cases both <;> simp [entry_remove_slot, entry_remove_snapshot, hid]

theorem release_entry (hspawn : registry.spawns serial = some spawn) (hstage : spawn.stage = .reserved)
    (id : Text) :
    Change registry (.spawn_fails serial) id (registry.entry id)
      ((release_reservation registry spawn.session_id (generation_of serial)).entry id) := by
  unfold release_reservation
  split
  case h_2 => exact .same _
  case h_1 current host_id close_requested cleanup hslot =>
    by_cases hcurrent : current = generation_of serial
    · subst hcurrent
      rw [if_pos rfl]
      dsimp only
      rw [entry_removed]
      split
      case isFalse => exact .same _
      case isTrue hid =>
        rw [entry_eq_of_id hid hslot rfl]
        exact .release rfl hspawn hstage hid.symm
    · rw [if_neg hcurrent]
      exact .same _

theorem remove_aborted_eq {slot : TerminalSlot} (remove_snapshot : Bool)
    (hslot : registry.slot session_id = some slot) :
    remove_aborted registry session_id generation remove_snapshot =
      if slot.generation = generation then
        if remove_snapshot || slot.close_requested then
          (registry.remove_slot session_id).remove_snapshot session_id
        else registry.remove_slot session_id
      else registry := by
  unfold remove_aborted
  rw [hslot]
  cases slot <;> rfl

theorem remove_aborted_entry {remove_snapshot : Bool} (hspawn : registry.spawns serial = some spawn)
    (hstage : spawn.stage = .removing remove_snapshot) (id : Text) :
    Change registry (.abort_remove serial) id (registry.entry id)
      ((remove_aborted registry spawn.session_id (generation_of serial) remove_snapshot).entry id) := by
  cases hslot : registry.slot spawn.session_id with
  | none =>
    unfold remove_aborted
    rw [hslot]
    exact .same _
  | some slot =>
    rw [remove_aborted_eq remove_snapshot hslot]
    by_cases hcurrent : slot.generation = generation_of serial
    · rw [if_pos hcurrent, entry_removed]
      split
      case isFalse => exact .same _
      case isTrue hid =>
        rw [entry_eq_of_id hid hslot rfl]
        exact .abort rfl hspawn hstage hid.symm hcurrent
    · rw [if_neg hcurrent]
      exact .same _

theorem remove_closed_entry (registry : TerminalRegistry) (session_id : Text) (generation : Nat)
    (id : Text) :
    Change registry label id (registry.entry id)
      ((remove_closed registry session_id generation).entry id) := by
  unfold remove_closed
  split
  case isFalse => exact .same _
  case isTrue hcurrent =>
    obtain ⟨slot, hslot, _⟩ := is_current_generation_iff.mp hcurrent
    have hremoved := entry_removed registry session_id id true
    rw [if_pos rfl, if_pos rfl] at hremoved
    rw [hremoved]
    split
    case isFalse => exact .same _
    case isTrue hid =>
      rw [entry_eq_of_id hid hslot rfl]
      exact .close

theorem request_close_entry (label : Label) (registry : TerminalRegistry) (session_id id : Text) :
    Change registry label id (registry.entry id) ((request_close registry session_id).1.entry id) := by
  unfold request_close
  split
  case h_1 current host_id close_requested cleanup hslot =>
    dsimp only
    rw [entry_insert_slot]
    split
    case isFalse => exact .same _
    case isTrue hid =>
      rw [entry_eq_of_id hid hslot rfl]
      exact .mark
  case h_2 => exact .same _
  case h_3 hslot =>
    split
    case isFalse => exact .same _
    case isTrue =>
      dsimp only
      rw [entry_remove_snapshot]
      split
      case isFalse => exact .same _
      case isTrue hid =>
        rw [entry_eq_of_id hid hslot rfl]
        exact .forget

theorem clear_entry (registry : TerminalRegistry) (id : Text) :
    Change registry label id (registry.entry id) ((clear registry).entry id) := by
  have hcleared : (clear registry).entry id = ⟨none, none⟩ := rfl
  rw [hcleared]
  cases hslot : registry.slot id with
  | none =>
    rw [entry_eq_of_id rfl hslot rfl]
    exact .forget
  | some slot =>
    rw [entry_eq_of_id rfl hslot rfl]
    exact .close

theorem running_record_eq_some {record : TerminalRecord}
    (h : running_record registry session_id generation = some record) :
    ∃ session : TerminalSession, registry.slot session_id = some (.Running session) ∧
      session.generation = generation ∧ registry.snapshots.lookup session_id = some record ∧
        record.generation = generation := by
  unfold running_record at h
  split at h
  case h_2 => simp at h
  case h_1 session hslot =>
    rw [Option.ite_none_right_eq_some, Option.filter_eq_some_iff, decide_eq_true_eq] at h
    exact ⟨session, hslot, h.1, h.2.1, h.2.2⟩

/-- A snapshot is revised if its exit is new. -/
theorem revised_snapshot (old : TerminalSnapshot) (state : TerminalState) (exit_code : Option Nat)
    (error : Option Text) :
    Revises old (if { old with state := state, exit_code := exit_code, error := error } = old then
        { old with state := state, exit_code := exit_code, error := error }
      else revise_terminal_snapshot { old with state := state, exit_code := exit_code, error := error }) ∧
    (if { old with state := state, exit_code := exit_code, error := error } = old then
        { old with state := state, exit_code := exit_code, error := error }
      else revise_terminal_snapshot
        { old with state := state, exit_code := exit_code, error := error }).state = state := by
  split
  case isTrue hsame => exact ⟨⟨rfl, rfl, .inl hsame⟩, rfl⟩
  case isFalse => exact ⟨⟨rfl, rfl, .inr rfl⟩, rfl⟩

/-- A running session loses its slot and its record is revised, or nothing changes. -/
theorem finalize_exit_cases (registry : TerminalRegistry) (session_id : Text) (generation : Nat)
    (status : ExitStatus) :
    (running_record registry session_id generation = none ∧
      finalize_exit registry session_id generation status = registry) ∨
    ∃ (session : TerminalSession) (record : TerminalRecord) (snapshot : TerminalSnapshot),
      running_record registry session_id generation = some record ∧
      registry.entry session_id = ⟨some (.Running session), some record⟩ ∧
      session.generation = generation ∧ record.generation = generation ∧
      Revises record.snapshot snapshot ∧ (snapshot.state = .Closed ∨ snapshot.state = .Offline) ∧
      ∀ id, (finalize_exit registry session_id generation status).entry id =
        if id = session_id then ⟨none, some { record with snapshot := snapshot }⟩ else registry.entry id := by
  unfold finalize_exit
  cases hrecord : running_record registry session_id generation with
  | none => exact .inl ⟨rfl, rfl⟩
  | some record =>
    obtain ⟨session, hslot, hsession, hlookup, hgeneration⟩ := running_record_eq_some hrecord
    dsimp only
    generalize (if status.exit_code ≤ MAX_EXIT_CODE then some status.exit_code else none) = code
    obtain ⟨hrevises, hstate⟩ := revised_snapshot record.snapshot
      (if code = some 0 then .Closed else .Offline) code status.signal
    refine .inr ⟨session, record, _, rfl, entry_eq_of_id rfl hslot hlookup, hsession, hgeneration,
      hrevises, ?_, fun id => ?_⟩
    · rw [hstate]
      by_cases hcode : code = some 0
      · exact .inl (if_pos hcode)
      · exact .inr (if_neg hcode)
    · rw [entry_insert_snapshot, entry_remove_slot]
      split <;> rfl

theorem finalize_exit_entry (hspawn : registry.spawns serial = some spawn) (status : ExitStatus)
    (id : Text) :
    Change registry (.finalize serial status) id (registry.entry id)
      ((finalize_exit registry spawn.session_id (generation_of serial) status).entry id) := by
  rcases finalize_exit_cases registry spawn.session_id (generation_of serial) status with
    ⟨_, hsame⟩ | ⟨session, record, snapshot, _, hbefore, hsession, hrecord, hrevises, hstate, hentry⟩
  · rw [hsame]
    exact .same _
  · rw [hentry]
    split
    case isTrue hid =>
      rw [hid, hbefore]
      exact .exit rfl hspawn rfl hsession hrecord hrevises hstate
    case isFalse => exact .same _

/-- The record of a running session is revised, or nothing changes. -/
theorem record_terminal_error_cases (registry : TerminalRegistry) (session_id : Text)
    (generation : Nat) (message : Text) :
    (∀ record, running_record registry session_id generation = some record →
        record.snapshot.state = .Failed ∧ record.snapshot.error = some message) ∧
      record_terminal_error registry session_id generation message = registry ∨
    ∃ (session : TerminalSession) (record : TerminalRecord) (snapshot : TerminalSnapshot),
      running_record registry session_id generation = some record ∧
      ¬ (record.snapshot.state = .Failed ∧ record.snapshot.error = some message) ∧
      registry.entry session_id = ⟨some (.Running session), some record⟩ ∧
      session.generation = generation ∧ record.generation = generation ∧
      Revises record.snapshot snapshot ∧
      snapshot.revision = min (record.snapshot.revision + 1) MAX_REVISION ∧ snapshot.state = .Failed ∧
      ∀ id, (record_terminal_error registry session_id generation message).entry id =
        if id = session_id then ⟨some (.Running session), some { record with snapshot := snapshot }⟩
        else registry.entry id := by
  unfold record_terminal_error
  cases hrecord : running_record registry session_id generation with
  | none => exact .inl ⟨nofun, rfl⟩
  | some record =>
    obtain ⟨session, hslot, hsession, hlookup, hgeneration⟩ := running_record_eq_some hrecord
    dsimp only
    by_cases hfailed : record.snapshot.state = .Failed ∧ record.snapshot.error = some message
    · rw [if_pos hfailed]
      refine .inl ⟨?_, rfl⟩
      intro other hother
      exact Option.some.inj hother ▸ hfailed
    · rw [if_neg hfailed]
      refine .inr ⟨session, record, revise_terminal_snapshot
          { record.snapshot with state := .Failed, error := some message }, rfl, hfailed,
        entry_eq_of_id rfl hslot hlookup, hsession, hgeneration, ⟨rfl, rfl, .inr rfl⟩, rfl, rfl,
        fun id => ?_⟩
      rw [entry_insert_snapshot]
      split
      case isTrue hid =>
        rw [hid, entry_eq_of_id rfl hslot hlookup]
      case isFalse => rfl

theorem record_terminal_error_entry (hlabel : label.reports serial)
    (hspawn : registry.spawns serial = some spawn) (message id : Text) :
    Change registry label id (registry.entry id)
      ((record_terminal_error registry spawn.session_id (generation_of serial) message).entry id) := by
  rcases record_terminal_error_cases registry spawn.session_id (generation_of serial) message with
    ⟨_, hsame⟩ | ⟨session, record, snapshot, _, _, hbefore, hsession, hrecord, hrevises, _, hstate, hentry⟩
  · rw [hsame]
    exact .same _
  · rw [hentry]
    split
    case isTrue hid =>
      rw [hid, hbefore]
      exact .fail hlabel hspawn rfl (hrecord.trans hsession.symm) hrevises hstate
    case isFalse => exact .same _

/-! ### Pruning -/

/-- A fold that keeps one of two items ends with one that it was given. -/
theorem foldl_choice {α : Type} {choose : Option α → α → Option α} {items : List α}
    {start result : Option α} (hfold : items.foldl choose start = result)
    (hchoose : ∀ kept item, choose kept item = some item ∨ choose kept item = kept ∧ kept ≠ none) :
    (∀ item, result = some item → start = some item ∨ item ∈ items) ∧
      (result = none → start = none ∧ items = []) := by
  subst hfold
  induction items generalizing start with
  | nil => exact ⟨fun item h => .inl h, fun h => ⟨h, rfl⟩⟩
  | cons first rest ih =>
    rw [List.foldl_cons]
    obtain ⟨hsome, hnone⟩ := @ih (choose start first)
    constructor
    · intro item hitem
      rcases hsome item hitem with hkept | hmem
      · rcases hchoose start first with hfirst | ⟨hstart, _⟩
        · rw [hfirst, Option.some.injEq] at hkept
          exact .inr (hkept ▸ List.mem_cons_self)
        · exact .inl (hstart ▸ hkept)
      · exact .inr (List.mem_cons_of_mem _ hmem)
    · intro hend
      obtain ⟨hkept, _⟩ := hnone hend
      rcases hchoose start first with hfirst | ⟨hstart, hsome⟩
      · simp [hfirst] at hkept
      · exact absurd (hstart ▸ hkept) hsome

/-- The victim has a record and no slot, and there is one unless every record
    has a slot. -/
theorem oldest_terminal_spec (registry : TerminalRegistry) :
    (∀ session_id, oldest_terminal registry = some session_id →
      registry.slot session_id = none ∧ session_id ∈ registry.snapshots.keys) ∧
      (oldest_terminal registry = none →
        ∀ item ∈ registry.snapshots.entries, (registry.slot item.1).isSome) := by
  unfold oldest_terminal
  dsimp only
  generalize holdest : List.foldl _ none _ = oldest
  obtain ⟨hsome, hnone⟩ := foldl_choice holdest fun kept item => by
    rcases kept with _ | other
    · exact .inl rfl
    · dsimp only
      split
      · exact .inl rfl
      · exact .inr ⟨rfl, by simp⟩
  constructor
  · intro session_id hvictim
    obtain ⟨item, hitem, rfl⟩ := Option.map_eq_some_iff.mp hvictim
    rcases hsome item hitem with hstart | hmem
    · simp at hstart
    · obtain ⟨hrecord, hslot⟩ := List.mem_filter.mp hmem
      obtain ⟨found, hfound, rfl⟩ := List.mem_map.mp hrecord
      exact ⟨Option.isNone_iff_eq_none.mp hslot, List.mem_map_of_mem hfound⟩
  · intro hvictim item hmem
    obtain ⟨_, hempty⟩ := hnone (Option.map_eq_none_iff.mp hvictim)
    have hkept := List.filter_eq_nil_iff.mp hempty (item.1, item.2.generation)
      (List.mem_map_of_mem hmem)
    simpa [Option.isNone_iff_eq_none, Option.isSome_iff_ne_none] using hkept

/-- Pruning changes no slot, and removes records of sessions without one. -/
theorem prune_entry (limit bound : Nat) (registry : TerminalRegistry) (id : Text) :
    (prune_terminal_records limit bound registry).entry id = registry.entry id ∨
      registry.slot id = none ∧ (prune_terminal_records limit bound registry).entry id = ⟨none, none⟩ := by
  induction bound generalizing registry with
  | zero => exact .inl rfl
  | succ bound ih =>
    unfold prune_terminal_records
    split
    case isTrue => exact .inl rfl
    case isFalse =>
      split
      case h_1 => exact .inl rfl
      case h_2 oldest holdest =>
        have hremoved := entry_remove_snapshot registry oldest id
        by_cases hid : id = oldest
        · have hslot : registry.slot id = none :=
            hid ▸ ((oldest_terminal_spec registry).1 oldest holdest).1
          rw [if_pos hid] at hremoved
          refine .inr ⟨hslot, ?_⟩
          rcases ih (registry.remove_snapshot oldest) with hsame | ⟨_, hgone⟩
          · rw [hsame, hremoved]
            exact congrArg (Entry.mk · none) hslot
          · exact hgone
        · rw [if_neg hid] at hremoved
          rcases ih (registry.remove_snapshot oldest) with hsame | hgone
          · exact .inl (hsame.trans hremoved)
          · exact .inr hgone

/-- A starting session runs and has its record, and pruning removes records of
    sessions without a slot; or nothing changes. -/
theorem commit_running_cases (registry : TerminalRegistry) (session_id : Text)
    (session : TerminalSession) (snapshot : TerminalSnapshot) :
    commit_running registry session_id session.generation session snapshot = (registry, false) ∨
    ∃ (committed : TerminalRegistry) (host_id : Text) (cleanup : Option Nat),
      commit_running registry session_id session.generation session snapshot = (committed, true) ∧
      registry.slot session_id = some (.Starting session.generation host_id false cleanup) ∧
      committed.entry session_id = ⟨some (.Running session), some ⟨session.generation, snapshot⟩⟩ ∧
      ∀ id, id ≠ session_id → committed.entry id = registry.entry id ∨
        registry.slot id = none ∧ committed.entry id = ⟨none, none⟩ := by
  unfold commit_running
  split
  case h_2 => exact .inl rfl
  case h_1 current host_id cleanup hslot =>
    by_cases hcurrent : current = session.generation
    · subst hcurrent
      rw [if_pos rfl]
      dsimp only
      generalize hcommitted : (registry.insert_slot _ _).insert_snapshot _ _ = committed
      have hentry : ∀ id, committed.entry id = if id = session_id then
          ⟨some (.Running session), some ⟨session.generation, snapshot⟩⟩ else registry.entry id := by
        intro id
        rw [← hcommitted, entry_insert_snapshot, entry_insert_slot]
        split <;> rfl
      have hslots : ∀ id, committed.slot id = (committed.entry id).slot := fun _ => rfl
      refine .inr ⟨_, host_id, cleanup, rfl, hslot, ?_, fun id hid => ?_⟩
      · have hown := hentry session_id
        rw [if_pos rfl] at hown
        rcases prune_entry MAX_RETAINED_TERMINALS committed.snapshots.entries.length committed session_id
          with hsame | ⟨hnone, _⟩
        · exact hsame.trans hown
        · simp [hslots, hown] at hnone
      · have hother := hentry id
        rw [if_neg hid] at hother
        rcases prune_entry MAX_RETAINED_TERMINALS committed.snapshots.entries.length committed id with
          hsame | ⟨hnone, hgone⟩
        · exact .inl (hsame.trans hother)
        · rw [hslots, hother] at hnone
          exact .inr ⟨hnone, hgone⟩
    · rw [if_neg hcurrent]
      exact .inl rfl

theorem commit_entry (hspawn : registry.spawns serial = some spawn) (hstage : spawn.stage = .registered)
    (id : Text) :
    Change registry (.commit serial) id (registry.entry id)
      ((commit_running registry spawn.session_id (generation_of serial)
        ⟨generation_of serial, spawn.host.id, serial⟩
        (spawn.snapshot (generation_of serial))).1.entry id) := by
  rcases commit_running_cases registry spawn.session_id ⟨generation_of serial, spawn.host.id, serial⟩
      (spawn.snapshot (generation_of serial)) with
    hsame | ⟨committed, host_id, cleanup, hresult, hslot, hown, hothers⟩
  · rw [hsame]
    exact .same _
  · rw [hresult]
    by_cases hid : id = spawn.session_id
    · rw [hid, hown, entry_eq_of_id rfl hslot rfl]
      exact .commit rfl hspawn hstage rfl
    · rcases hothers id hid with hsame | ⟨hnone, hgone⟩
      · rw [hsame]
        exact .same _
      · rw [hgone, entry_eq_of_id rfl hnone rfl]
        exact .forget

/-! ### Steps -/

/-- **A step changes an entry in one of the ways of `Change`.** -/
theorem step_change (hnext : registry.next label = some registry') (id : Text) :
    Change registry label id (registry.entry id) (registry'.entry id) := by
  have hsame : registry'.entry id = registry.entry id →
      Change registry label id (registry.entry id) (registry'.entry id) := by
    intro hentry
    rw [hentry]
    exact .same _
  unfold TerminalRegistry.next at hnext
  cases label with
  | start | reconnect =>
    cases hnext
    exact hsame rfl
  | reserve serial =>
    obtain ⟨spawn, hspawn, hnext⟩ := Option.bind_eq_some_iff.mp hnext
    split at hnext
    case h_1 reconnects hstage => exact Option.some.inj hnext ▸ reserve_entry hspawn hstage id
    case h_2 => simp at hnext
  | spawn_fails serial =>
    obtain ⟨spawn, hspawn, hnext⟩ := Option.bind_eq_some_iff.mp hnext
    rw [spawn_at_eq_some] at hspawn
    exact Option.some.inj hnext ▸ release_entry hspawn.1 hspawn.2 id
  | spawn_command | setup_fails =>
    obtain ⟨spawn, hspawn, hnext⟩ := Option.bind_eq_some_iff.mp hnext
    cases hnext
    exact hsame rfl
  | register serial =>
    obtain ⟨spawn, hspawn, hnext⟩ := Option.bind_eq_some_iff.mp hnext
    rw [spawn_at_eq_some] at hspawn
    have hentry := register_entry hspawn.1 hspawn.2 id
    split at hnext
    all_goals
      rename_i hresult
      rw [hresult] at hentry
      exact Option.some.inj hnext ▸ hentry
  | commit serial =>
    obtain ⟨spawn, hspawn, hnext⟩ := Option.bind_eq_some_iff.mp hnext
    rw [spawn_at_eq_some] at hspawn
    have hentry := commit_entry hspawn.1 hspawn.2 id
    dsimp only at hnext
    split at hnext
    all_goals
      rename_i hresult
      rw [hresult] at hentry
      exact Option.some.inj hnext ▸ hentry
  | send serial received =>
    obtain ⟨spawn, hspawn, hnext⟩ := Option.bind_eq_some_iff.mp hnext
    split at hnext <;>
      exact hsame (Option.some.inj hnext ▸ rfl)
  | abort_check serial =>
    obtain ⟨spawn, hspawn, hnext⟩ := Option.bind_eq_some_iff.mp hnext
    split at hnext
    case h_1 => split at hnext <;> exact hsame (Option.some.inj hnext ▸ rfl)
    case h_2 => simp at hnext
  | abort_round serial round =>
    obtain ⟨spawn, hspawn, hnext⟩ := Option.bind_eq_some_iff.mp hnext
    split at hnext
    case h_1 =>
      obtain ⟨child, hchild, hnext⟩ := Option.bind_eq_some_iff.mp hnext
      split at hnext <;> exact hsame (Option.some.inj hnext ▸ rfl)
    case h_2 => simp at hnext
  | abort_remove serial =>
    obtain ⟨spawn, hspawn, hnext⟩ := Option.bind_eq_some_iff.mp hnext
    split at hnext
    case h_1 remove_snapshot hstage =>
      exact Option.some.inj hnext ▸ remove_aborted_entry hspawn hstage id
    case h_2 => simp at hnext
  | close session_id =>
    cases hnext
    exact hsame rfl
  | stop_for_host host_id =>
    refine hsame (Option.some.inj hnext ▸ ?_)
    cases sessions_of_host registry host_id <;> rfl
  | call_step call round =>
    rw [Option.ite_none_right_eq_some] at hnext
    obtain ⟨_, hnext⟩ := hnext
    unfold call_step at hnext
    split at hnext
    case h_1 session_id _ =>
      have hentry := request_close_entry (.call_step call round) registry session_id id
      split at hnext
      all_goals
        rename_i hresult
        rw [hresult] at hentry
        exact Option.some.inj hnext ▸ hentry
    case h_2 =>
      obtain ⟨child, hchild, hnext⟩ := Option.bind_eq_some_iff.mp hnext
      split at hnext <;> exact hsame (Option.some.inj hnext ▸ rfl)
    case h_3 session_id generation cleanup _ =>
      exact Option.some.inj hnext ▸ remove_closed_entry registry session_id generation id
  | stop_all =>
    cases hnext
    exact clear_entry registry id
  | stop_round cleanups cleanup round =>
    rw [Option.ite_none_right_eq_some] at hnext
    obtain ⟨child, hchild, hnext⟩ := Option.bind_eq_some_iff.mp hnext.2
    split at hnext <;> exact hsame (Option.some.inj hnext ▸ rfl)
  | wait_take serial =>
    obtain ⟨child, hchild, hnext⟩ := Option.bind_eq_some_iff.mp hnext
    rw [Option.ite_none_right_eq_some] at hnext
    obtain ⟨_, hnext⟩ := hnext
    split at hnext <;> exact hsame (Option.some.inj hnext ▸ rfl)
  | wait_exit | wait_fail =>
    obtain ⟨child, hchild, hnext⟩ := Option.bind_eq_some_iff.mp hnext
    rw [Option.ite_none_right_eq_some] at hnext
    exact hsame (Option.some.inj hnext.2 ▸ rfl)
  | finalize serial status =>
    obtain ⟨spawn, hspawn, hnext⟩ := Option.bind_eq_some_iff.mp hnext
    rw [Option.ite_none_right_eq_some] at hnext
    exact Option.some.inj hnext.2 ▸ finalize_exit_entry hspawn status id
  | record serial error =>
    obtain ⟨spawn, hspawn, hnext⟩ := Option.bind_eq_some_iff.mp hnext
    rw [Option.ite_none_right_eq_some] at hnext
    exact Option.some.inj hnext.2 ▸ record_terminal_error_entry (.inl ⟨error, rfl⟩) hspawn _ id
  | read_fails serial failure =>
    obtain ⟨spawn, hspawn, hnext⟩ := Option.bind_eq_some_iff.mp hnext
    rw [Option.ite_none_right_eq_some] at hnext
    exact Option.some.inj hnext.2 ▸ record_terminal_error_entry (.inr ⟨failure, rfl⟩) hspawn _ id
  | child_exits serial =>
    obtain ⟨child, hchild, hnext⟩ := Option.bind_eq_some_iff.mp hnext
    exact hsame (Option.some.inj hnext ▸ rfl)

end Session
