import RemoteDeck.Session.Ownership

/-! # Bounds of the terminal registry

    At most 32 slots and 256 records, and a record for every running slot.
    The bounds are about the keys of the two maps: only a reservation gives
    a slot to a session that has none, and only a commit gives a record.
-/

namespace Session

variable {registry registry' : TerminalRegistry} {label : Label} {serial : Nat} {spawn : Spawn}
  {session_id id : Text}

/-! ### Sizes of maps -/

/-- The size of a map whose keys are those of another one and a few more. -/
theorem length_le_of_keys {β γ : Text → Type} {few : AList β} {many : AList γ} {extra : List Text}
    (h : ∀ key ∈ few.keys, key ∈ extra ∨ key ∈ many.keys) :
    few.entries.length ≤ extra.length + many.entries.length := by
  have hkeys : few.keys ⊆ extra ++ many.keys := fun key hkey => List.mem_append.mpr (h key hkey)
  have hlength := (few.keys_nodup.subperm hkeys).length_le
  have hfew : few.keys.length = few.entries.length := List.length_map _
  have hmany : many.keys.length = many.entries.length := List.length_map _
  rw [List.length_append] at hlength
  omega

/-- A key has one entry. -/
theorem filter_key {β : Text → Type} {items : List (Sigma β)} {key : Text} {value : β key}
    (hnodup : items.NodupKeys) (hmem : ⟨key, value⟩ ∈ items) :
    items.filter (fun item => item.1 = key) = [⟨key, value⟩] := by
  induction items with
  | nil => simp at hmem
  | cons first rest ih =>
    obtain ⟨hfirst, hrest⟩ := List.nodupKeys_cons.mp hnodup
    rcases List.mem_cons.mp hmem with hhead | htail
    · subst hhead
      have hnone : rest.filter (fun item => item.1 = key) = [] := by
        rw [List.filter_eq_nil_iff]
        intro item hitem hkey
        have hmem : item.1 ∈ rest.keys := List.mem_map_of_mem hitem
        rw [of_decide_eq_true hkey] at hmem
        exact hfirst hmem
      rw [List.filter_cons, if_pos (decide_eq_true rfl), hnone]
    · have hkey : first.1 ≠ key := by
        intro hkey
        exact hfirst (hkey ▸ List.mem_map_of_mem htail)
      rw [List.filter_cons_of_neg (by simpa using hkey)]
      exact ih hrest htail

theorem mem_active_iff : id ∈ registry.active.keys ↔ (registry.slot id).isSome := by
  rw [← AList.mem_keys]
  exact AList.lookup_isSome.symm

theorem mem_snapshots_iff : id ∈ registry.snapshots.keys ↔ (registry.snapshots.lookup id).isSome := by
  rw [← AList.mem_keys]
  exact AList.lookup_isSome.symm

/-! ### Slots -/

/-- Only a reservation gives a slot to a session without one. -/
theorem slot_of_step (hnext : registry.next label = some registry')
    (hslot : (registry'.slot id).isSome) :
    (registry.slot id).isSome ∨ ∃ serial spawn, label = .reserve serial ∧
      registry.spawns serial = some spawn ∧ id = spawn.session_id := by
  have hchange := step_change hnext id
  generalize hbefore : registry.entry id = before at hchange
  generalize hafter : registry'.entry id = after at hchange
  have hslot : after.slot.isSome := hafter ▸ hslot
  have hwas : (registry.slot id).isSome = before.slot.isSome := hbefore ▸ rfl
  rw [hwas]
  cases hchange with
  | same => exact .inl hslot
  | @reserve serial spawn _ _ hlabel hspawn _ hsession =>
    exact .inr ⟨serial, spawn, hlabel, hspawn, hsession.symm⟩
  | register | mark | commit | fail => exact .inl rfl
  | release | abort | close | forget | exit => simp at hslot

/-- At the limit a reservation is refused, and only its call returns. -/
theorem refused_of_full (hfull : MAX_ACTIVE_TERMINALS ≤ registry.active.entries.length)
    (hnext : registry.next (.reserve serial) = some registry') :
    ∃ spawn, registry.spawns serial = some spawn ∧
      registry' = registry.set_stage serial spawn .returned := by
  obtain ⟨spawn, hspawn, hnext⟩ := Option.bind_eq_some_iff.mp hnext
  split at hnext
  case h_1 reconnects _ =>
    refine ⟨spawn, hspawn, ?_⟩
    obtain rfl := Option.some.inj hnext
    rcases reserve_effect registry serial spawn reconnects with hrefused | ⟨_, _, _, _, hfits, _⟩
    · exact hrefused
    · omega
  case h_2 => simp at hnext

theorem active_bounded (hnext : registry.next label = some registry')
    (h : registry.active.entries.length ≤ MAX_ACTIVE_TERMINALS) :
    registry'.active.entries.length ≤ MAX_ACTIVE_TERMINALS := by
  by_cases hreserve : ∃ serial, label = .reserve serial
  · obtain ⟨serial, rfl⟩ := hreserve
    by_cases hfull : MAX_ACTIVE_TERMINALS ≤ registry.active.entries.length
    · obtain ⟨spawn, _, rfl⟩ := refused_of_full hfull hnext
      exact h
    · obtain ⟨spawn, hspawn, _⟩ := Option.bind_eq_some_iff.mp hnext
      have hlength : registry'.active.entries.length ≤
          [spawn.session_id].length + registry.active.entries.length := by
        apply length_le_of_keys
        intro key hkey
        rcases slot_of_step hnext (mem_active_iff.mp hkey) with hslot | ⟨other, found, hlabel, hfound, hid⟩
        · exact .inr (mem_active_iff.mpr hslot)
        · cases hlabel
          rw [hspawn, Option.some.injEq] at hfound
          rw [hid, ← hfound]
          exact .inl List.mem_cons_self
      rw [List.length_singleton] at hlength
      omega
  · have hlength : registry'.active.entries.length ≤
        ([] : List Text).length + registry.active.entries.length := by
      apply length_le_of_keys
      intro key hkey
      rcases slot_of_step hnext (mem_active_iff.mp hkey) with hslot | ⟨serial, _, hlabel, _⟩
      · exact .inr (mem_active_iff.mpr hslot)
      · exact absurd ⟨serial, hlabel⟩ hreserve
    rw [List.length_nil] at hlength
    omega

/-! ### Records -/

/-- Only a commit gives a record to a session without one. -/
theorem record_of_step (hnext : registry.next label = some registry')
    (hlabel : ∀ serial, label ≠ .commit serial) (hrecord : (registry'.snapshots.lookup id).isSome) :
    (registry.snapshots.lookup id).isSome := by
  have hchange := step_change hnext id
  generalize hbefore : registry.entry id = before at hchange
  generalize hafter : registry'.entry id = after at hchange
  have hrecord : after.record.isSome := hafter ▸ hrecord
  have hwas : (registry.snapshots.lookup id).isSome = before.record.isSome := hbefore ▸ rfl
  rw [hwas]
  cases hchange with
  | commit h => exact absurd h (hlabel _)
  | same | reserve | register | mark => exact hrecord
  | release | abort =>
    dsimp only at hrecord
    split at hrecord
    · simp at hrecord
    · exact hrecord
  | close | forget => simp at hrecord
  | exit | fail => rfl

/-- A prune ends within the limit, or with records of active sessions only. -/
theorem prune_length (limit : Nat) {bound : Nat}
    (hbound : registry.snapshots.entries.length ≤ bound) :
    (prune_terminal_records limit bound registry).snapshots.entries.length ≤ limit ∨
      ∀ item ∈ (prune_terminal_records limit bound registry).snapshots.entries,
        ((prune_terminal_records limit bound registry).slot item.1).isSome := by
  induction bound generalizing registry with
  | zero =>
    left
    show registry.snapshots.entries.length ≤ limit
    omega
  | succ bound ih =>
    unfold prune_terminal_records
    split
    case isTrue hfits => exact .inl hfits
    case isFalse hmany =>
      split
      case h_1 holdest => exact .inr ((oldest_terminal_spec registry).2 holdest)
      case h_2 oldest holdest =>
        apply ih
        obtain ⟨_, hmem⟩ := (oldest_terminal_spec registry).1 oldest holdest
        have hlength : (registry.snapshots.erase oldest).keys.length =
            registry.snapshots.keys.length - 1 := by
          rw [AList.keys_erase]
          exact @List.length_erase_of_mem Text instBEqOfDecidableEq _ _ _ hmem
        have hbefore : registry.snapshots.keys.length = registry.snapshots.entries.length :=
          List.length_map _
        have hafter : (registry.snapshots.erase oldest).keys.length =
            (registry.snapshots.erase oldest).entries.length := List.length_map _
        show (registry.snapshots.erase oldest).entries.length ≤ bound
        omega

/-- Records of active sessions are as few as the slots. -/
theorem length_le_of_active
    (h : ∀ item ∈ registry.snapshots.entries, (registry.slot item.1).isSome) :
    registry.snapshots.entries.length ≤ registry.active.entries.length := by
  have hlength : registry.snapshots.entries.length ≤
      ([] : List Text).length + registry.active.entries.length := by
    apply length_le_of_keys
    intro key hkey
    obtain ⟨item, hitem, rfl⟩ := List.mem_map.mp hkey
    exact .inr (mem_active_iff.mpr (h item hitem))
  rwa [List.length_nil, Nat.zero_add] at hlength

theorem commit_length {session : TerminalSession} {snapshot : TerminalSnapshot} {generation : Nat}
    (hactive : (commit_running registry session_id generation session snapshot).1.active.entries.length ≤
      MAX_RETAINED_TERMINALS) (h : registry.snapshots.entries.length ≤ MAX_RETAINED_TERMINALS) :
    (commit_running registry session_id generation session snapshot).1.snapshots.entries.length ≤
      MAX_RETAINED_TERMINALS := by
  unfold commit_running at hactive ⊢
  split at hactive
  case h_2 => exact h
  case h_1 current _ _ hslot =>
    by_cases hcurrent : current = generation
    · rw [if_pos hcurrent] at hactive ⊢
      rcases prune_length MAX_RETAINED_TERMINALS (Nat.le_refl _) with hfits | hfits
      · exact hfits
      · exact (length_le_of_active hfits).trans hactive
    · rw [if_neg hcurrent]
      exact h

theorem snapshots_bounded (hnext : registry.next label = some registry')
    (hactive : registry'.active.entries.length ≤ MAX_ACTIVE_TERMINALS)
    (h : registry.snapshots.entries.length ≤ MAX_RETAINED_TERMINALS) :
    registry'.snapshots.entries.length ≤ MAX_RETAINED_TERMINALS := by
  have hlimits : MAX_ACTIVE_TERMINALS ≤ MAX_RETAINED_TERMINALS := by decide
  by_cases hcommit : ∃ serial, label = .commit serial
  · obtain ⟨serial, rfl⟩ := hcommit
    obtain ⟨spawn, hspawn, hnext⟩ := Option.bind_eq_some_iff.mp hnext
    dsimp only at hnext
    split at hnext
    all_goals
      rename_i committed hresult
      obtain rfl := Option.some.inj hnext
      have hlength := @commit_length registry spawn.session_id _ _ _ (by
        rw [hresult]
        exact hactive.trans hlimits) h
      rw [hresult] at hlength
      exact hlength
  · have hlength : registry'.snapshots.entries.length ≤
        ([] : List Text).length + registry.snapshots.entries.length := by
      apply length_le_of_keys
      intro key hkey
      have hlabel : ∀ serial, label ≠ .commit serial := fun serial hlabel => hcommit ⟨serial, hlabel⟩
      exact .inr (mem_snapshots_iff.mpr (record_of_step hnext hlabel (mem_snapshots_iff.mp hkey)))
    rw [List.length_nil] at hlength
    omega

/-! ### Every run -/

/-- The limits hold, and the record of a running slot has its generation. -/
structure Bounded (registry : TerminalRegistry) : Prop where
  active : registry.active.entries.length ≤ MAX_ACTIVE_TERMINALS
  snapshots : registry.snapshots.entries.length ≤ MAX_RETAINED_TERMINALS
  running : ∀ id session, registry.slot id = some (.Running session) →
    ∃ record, registry.snapshots.lookup id = some record ∧
      record.generation = session.generation ∧ record.snapshot.generation = session.generation

theorem Bounded.step (h : Bounded registry) (hnext : registry.next label = some registry') :
    Bounded registry' := by
  have hactive := active_bounded hnext h.active
  refine ⟨hactive, snapshots_bounded hnext hactive h.snapshots, ?_⟩
  intro id session hslot
  have hchange := step_change hnext id
  have hwas := h.running id
  generalize hbefore : registry.entry id = before at hchange
  generalize hafter : registry'.entry id = after at hchange
  have hrunning : ∀ session, before.slot = some (.Running session) →
      ∃ record, before.record = some record ∧
        record.generation = session.generation ∧ record.snapshot.generation = session.generation := by
    subst hbefore
    exact hwas
  have hslot : after.slot = some (.Running session) := hafter ▸ hslot
  show ∃ record, (registry'.entry id).record = some record ∧ _
  rw [hafter]
  cases hchange with
  | same => exact hrunning session hslot
  | reserve | register | mark | release | abort | close | forget | exit => simp at hslot
  | commit =>
    obtain rfl := TerminalSlot.Running.inj (Option.some.inj hslot)
    exact ⟨_, rfl, rfl, rfl⟩
  | fail _ _ _ hrecord hrevises _ =>
    obtain ⟨record, hfound, hgeneration, hsnapshot⟩ := hrunning session hslot
    obtain rfl := Option.some.inj hfound
    exact ⟨_, rfl, hgeneration, hrevises.generation.trans hsnapshot⟩

theorem reachable_bounded (h : sessions.Reachable registry) : Bounded registry := by
  refine h.invariant ?_ ?_
  · rintro registry rfl
    exact ⟨Nat.zero_le _, Nat.zero_le _, fun id session hslot => nomatch hslot⟩
  · intro registry label registry' hbounded _ hnext
    exact hbounded.step hnext

/-- **The registry keeps its bounds**: in every run there are at most 32 slots
    and 256 records; a running slot has exactly one record, of its own
    generation; pruning leaves the records of sessions with a slot; and a
    reservation that finds the registry full changes neither map. -/
theorem registry_bounds (h : sessions.Reachable registry) :
    registry.active.entries.length ≤ 32 ∧ registry.snapshots.entries.length ≤ 256 ∧
    (∀ id session, registry.slot id = some (.Running session) →
      ∃ record, registry.snapshots.entries.filter (fun item => item.1 = id) = [⟨id, record⟩] ∧
        record.generation = session.generation ∧ record.snapshot.generation = session.generation) ∧
    (∀ (limit bound : Nat) (pruned : TerminalRegistry) (id : Text), (pruned.slot id).isSome →
      (prune_terminal_records limit bound pruned).snapshots.lookup id = pruned.snapshots.lookup id) ∧
    (32 ≤ registry.active.entries.length → ∀ serial registry',
      registry.next (.reserve serial) = some registry' →
        registry'.active = registry.active ∧ registry'.snapshots = registry.snapshots) := by
  have hbounded := reachable_bounded h
  refine ⟨hbounded.active, hbounded.snapshots, ?_, ?_, ?_⟩
  · intro id session hslot
    obtain ⟨record, hrecord, hgeneration⟩ := hbounded.running id session hslot
    have hmem : ⟨id, record⟩ ∈ registry.snapshots.entries := AList.mem_lookup_iff.mp hrecord
    exact ⟨record, filter_key registry.snapshots.nodupKeys hmem, hgeneration⟩
  · intro limit bound pruned id hslot
    rcases prune_entry limit bound pruned id with hsame | ⟨hnone, _⟩
    · exact congrArg Entry.record hsame
    · simp [hnone] at hslot
  · intro hfull serial registry' hnext
    obtain ⟨spawn, _, rfl⟩ := refused_of_full hfull hnext
    exact ⟨rfl, rfl⟩

/-- The first session runs in its first generation, with its record. -/
theorem running_session_recorded :
    ∃ (registry : TerminalRegistry) (record : TerminalRecord),
      registry.slot first_session = some (.Running ⟨1, lab_host.id, 0⟩) ∧
        registry.snapshots.entries.filter (fun item => item.1 = first_session) =
          [⟨first_session, record⟩] ∧
        record.generation = 1 := by
  have hstart : sessions.init .default := rfl
  have hreach : ∃ registry, sessions.Reachable registry ∧
      decide (registry.slot first_session = some (.Running ⟨1, lab_host.id, 0⟩)) = true :=
    Machine.reachable_of_replay (fun _ _ => true) (fun _ _ _ => trivial) hstart
      [.start first_session lab_host none, .reserve 0, .spawn_command 0, .register 0, .commit 0]
      _ (by decide +kernel)
  obtain ⟨registry, hreachable, hslot⟩ := hreach
  have hslot := of_decide_eq_true hslot
  obtain ⟨_, _, hrunning, _⟩ := registry_bounds hreachable
  obtain ⟨record, hrecord, hgeneration, _⟩ := hrunning first_session _ hslot
  exact ⟨registry, record, hslot, hrecord, hgeneration⟩

end Session
