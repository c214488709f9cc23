import RemoteDeck.Store.JumpFrame

/-! # Deleting a host in two phases

    `begin_host_deletion` reserves a host: as long as it is reserved no
    operation makes a new reference to its id.  `finish_host_deletion` looks
    for references once more, removes the host and releases the reservation;
    `abort_host_deletion` only releases it.

    What `finish_host_deletion` looks for is more than the id.  A reference
    that spells the alias of the reserved host counts as one too, and an
    alias may be spelled like the id of another host.  Such a reference may
    be made during the reservation, and then the deletion fails.
-/

namespace Store

/-! ### Validation after a removal -/

/-- What no element satisfies, no element of a part satisfies. -/
theorem not_any_of_subset {α : Type} {p : α → Bool} {xs ys : List α} (hsub : xs ⊆ ys)
    (h : ¬ ys.any p = true) : ¬ xs.any p = true := by
  intro hany
  obtain ⟨x, hx, hp⟩ := List.any_eq_true.mp hany
  exact h (List.any_eq_true.mpr ⟨x, hsub hx, hp⟩)

theorem validate_persisted_host_subset {earlier earlier' : List HostProfile} {host : HostProfile}
    (hsub : earlier' ⊆ earlier) (h : validate_persisted_host earlier host = .ok ()) :
    validate_persisted_host earlier' host = .ok () := by
  simp only [validate_persisted_host, Outcome.bind_eq_ok, Outcome.mapError_eq_ok,
    Outcome.ite_error_eq_ok] at h ⊢
  obtain ⟨_, hdraft, _, hadvanced, hdup, _⟩ := h
  exact ⟨(), hdraft, (), hadvanced, not_any_of_subset hsub hdup, trivial⟩

theorem validate_persisted_tunnel_subset {hosts hosts' : List HostProfile}
    {earlier earlier' : List TunnelProfile} {tunnel : TunnelProfile}
    (hhost : ∃ host ∈ hosts', host.id = tunnel.host_id) (hsub : earlier' ⊆ earlier)
    (h : validate_persisted_tunnel hosts earlier tunnel = .ok ()) :
    validate_persisted_tunnel hosts' earlier' tunnel = .ok () := by
  simp only [validate_persisted_tunnel, Outcome.bind_eq_ok, Outcome.mapError_eq_ok,
    Outcome.ite_error_eq_ok] at h ⊢
  obtain ⟨_, hdraft, _, hdup, _⟩ := h
  exact ⟨(), hdraft, by simpa using hhost, not_any_of_subset hsub hdup, trivial⟩

theorem validate_persisted_command_subset {hosts hosts' : List HostProfile}
    {earlier earlier' : List CommandPreset} {command : CommandPreset}
    (hhost : ∀ host_id, command.host_id = some host_id → ∃ host ∈ hosts', host.id = host_id)
    (hsub : earlier' ⊆ earlier) (h : validate_persisted_command hosts earlier command = .ok ()) :
    validate_persisted_command hosts' earlier' command = .ok () := by
  simp only [validate_persisted_command, Outcome.bind_eq_ok, Outcome.mapError_eq_ok,
    Outcome.ite_error_eq_ok] at h ⊢
  obtain ⟨_, hdraft, _, hdup, _⟩ := h
  refine ⟨(), hdraft, ?_, not_any_of_subset hsub hdup, trivial⟩
  cases hid : command.host_id with
  | none => simp
  | some host_id => simpa using hhost host_id hid

/-- The state without a host, its tunnels and its commands. -/
def without_host (host_id : Text) (state : PersistedState) : PersistedState :=
  { state with
    hosts := state.hosts.filter fun host => host.id ≠ host_id
    tunnels := state.tunnels.filter fun tunnel => tunnel.host_id ≠ host_id
    command_presets := state.command_presets.filter fun command =>
      command.host_id ≠ some host_id }

/-- A valid state stays valid when a host is removed: what remains still has
    its host, and has fewer records to clash with. -/
theorem validate_without_host {state : PersistedState} (host_id : Text)
    (h : validate_persisted_state state = .ok ()) :
    validate_persisted_state (without_host host_id state) = .ok () := by
  have hvalid := validate_persisted_state_ok h
  unfold validate_persisted_state at h ⊢
  rw [Outcome.ite_error_eq_ok, Outcome.ite_error_eq_ok] at h ⊢
  obtain ⟨hversion, hcounts, h⟩ := h
  obtain ⟨_, hhosts, h⟩ := Outcome.bind_eq_ok.mp h
  obtain ⟨_, htunnels, h⟩ := Outcome.bind_eq_ok.mp h
  obtain ⟨_, hcommands, h⟩ := Outcome.bind_eq_ok.mp h
  -- a host with another id is still there
  have hkept : ∀ id, id ≠ host_id → (∃ host ∈ state.hosts, host.id = id) →
      ∃ host ∈ (without_host host_id state).hosts, host.id = id := by
    intro id hne hexists
    obtain ⟨host, hmem, rfl⟩ := hexists
    exact ⟨host, List.mem_filter.mpr ⟨hmem, by simpa using hne⟩, rfl⟩
  have hhosts' : Outcome.check_each validate_persisted_host []
      (state.hosts.filter fun host => host.id ≠ host_id) = .ok () := by
    refine Outcome.check_each_filter (fun _ _ _ hsub _ hcheck => ?_) (List.Subset.refl []) hhosts
    exact validate_persisted_host_subset hsub hcheck
  have htunnels' : Outcome.check_each
      (validate_persisted_tunnel (without_host host_id state).hosts) []
      (state.tunnels.filter fun tunnel => tunnel.host_id ≠ host_id) = .ok () := by
    refine Outcome.check_each_filter (fun _ _ tunnel hsub hkeep hcheck => ?_)
      (List.Subset.refl []) htunnels
    have hhost := ((validate_persisted_tunnel_iff _ _ _).mp hcheck).1.2
    exact validate_persisted_tunnel_subset (hkept _ (by simpa using hkeep) hhost) hsub hcheck
  have hcommands' : Outcome.check_each
      (validate_persisted_command (without_host host_id state).hosts) []
      (state.command_presets.filter fun command => command.host_id ≠ some host_id) = .ok () := by
    refine Outcome.check_each_filter (fun _ _ command hsub hkeep hcheck => ?_)
      (List.Subset.refl []) hcommands
    have hhost := ((validate_persisted_command_iff _ _ _).mp hcheck).1.2
    refine validate_persisted_command_subset (fun id hid => ?_) hsub hcheck
    have hne : id ≠ host_id := by
      intro heq
      simp [hid, heq] at hkeep
    exact hkept id hne (hhost id hid)
  refine ⟨hversion, ?_, Outcome.bind_eq_ok.mpr ⟨(), hhosts', Outcome.bind_eq_ok.mpr
    ⟨(), htunnels', Outcome.bind_eq_ok.mpr ⟨(), hcommands', h⟩⟩⟩⟩
  have h1 := List.length_filter_le (fun host : HostProfile => host.id ≠ host_id) state.hosts
  have h2 := List.length_filter_le (fun tunnel : TunnelProfile => tunnel.host_id ≠ host_id)
    state.tunnels
  have h3 := List.length_filter_le
    (fun command : CommandPreset => command.host_id ≠ some host_id) state.command_presets
  simp only [Bool.or_eq_true, decide_eq_true_eq, not_or, not_lt, gt_iff_lt] at hcounts ⊢
  obtain ⟨⟨⟨hosts, tunnels⟩, commands⟩, hashes⟩ := hcounts
  exact ⟨⟨⟨h1.trans hosts, h2.trans tunnels⟩, h3.trans commands⟩, hashes⟩

/-! ### References to a reserved host -/

/-- The text of an identifier has no `@`. -/
theorem uuid_no_at (uuid : Uuid) : '@' ∉ uuid.to_string := by
  intro hmem
  have hdigit : ∀ d < 16, Nat.digitChar d ≠ '@' := by decide
  exact uuid_forall (P := fun c => c ≠ '@') hdigit (by decide) uuid '@' hmem rfl

theorem at_mem_endpoint (host : HostProfile) :
    '@' ∈ proxy_endpoint host ∧ '@' ∈ proxy_endpoint_with_port host := by
  have hport : '@' ∈ proxy_endpoint_with_port host := by simp [proxy_endpoint_with_port]
  refine ⟨?_, hport⟩
  unfold proxy_endpoint
  split
  · simp
  · exact hport

/-- An identifier refers to a host by being its id or by spelling its alias. -/
theorem uuid_matches_host {uuid : Uuid} {host : HostProfile} :
    proxy_reference_matches_host (some uuid.to_string) host = true ↔
      uuid.to_string = host.id ∨
        uuid.to_string.to_ascii_lowercase = host.alias.to_ascii_lowercase := by
  have htrim := Text.trim_eq_self (uuid_word uuid)
  have hendpoint : uuid.to_string ≠ proxy_endpoint host := by
    intro h
    exact uuid_no_at uuid (h ▸ (at_mem_endpoint host).1)
  have hport : uuid.to_string ≠ proxy_endpoint_with_port host := by
    intro h
    exact uuid_no_at uuid (h ▸ (at_mem_endpoint host).2)
  simp [proxy_reference_matches_host, htrim, hendpoint, hport]

/-- No reference of another host spells the alias of the host. -/
def AliasUnreferenced (hosts : List HostProfile) (host_id : Text) : Prop :=
  ∀ removed ∈ find_host hosts host_id, ∀ host ∈ hosts, host.id ≠ host_id →
    ∀ reference ∈ host.proxy_jump,
      reference.to_ascii_lowercase ≠ removed.alias.to_ascii_lowercase

instance (hosts : List HostProfile) (host_id : Text) :
    Decidable (AliasUnreferenced hosts host_id) :=
  inferInstanceAs (Decidable (∀ removed ∈ find_host hosts host_id, _))

/-- Whether a host may be removed, as `finish_host_deletion` looks for it:
    the id of a reserved host is in no reference, so what may stop the
    removal is the alias. -/
theorem validate_host_deletion_state_iff {repo : Repository} (h : Invariant repo)
    {host_id : Text} (hdel : host_id ∈ repo.deleting_hosts) {removed : HostProfile}
    (hfind : find_host repo.state.hosts host_id = some removed) :
    validate_host_deletion_state repo.state host_id = .ok () ↔
      AliasUnreferenced repo.state.hosts host_id := by
  have hmatch : ∀ host ∈ repo.state.hosts, ∀ reference, host.proxy_jump = some reference →
      (proxy_reference_matches_host host.proxy_jump removed = true ↔
        reference.to_ascii_lowercase = removed.alias.to_ascii_lowercase) := by
    intro host hmem reference hjump
    have hhost := find_host_of_mem h.validated.hosts_differ hmem
    obtain ⟨_, jump, htarget, _⟩ := h.sound.jumps host.id host reference hhost hjump
    obtain ⟨hjumpmem, rfl⟩ := find_host_some htarget
    obtain ⟨uuid, huuid⟩ := (h.sound.hosts jump hjumpmem).id_uuid
    have hne : uuid.to_string ≠ removed.id := by
      intro heq
      rw [(find_host_some hfind).2, ← huuid] at heq
      exact h.sound.kept host.id host jump.id hhost hjump (heq ▸ hdel)
    rw [hjump, huuid, uuid_matches_host, or_iff_right hne]
  simp only [validate_host_deletion_state, hfind, Outcome.bind_eq_ok, Option.ok_or_eq_ok,
    Option.some.injEq, Outcome.ite_error_eq_ok, and_true, exists_eq_left']
  constructor
  · intro hunused other hother host hmem hne reference hreference hspelled
    obtain rfl : removed = other := Option.some.inj (hfind ▸ hother)
    rw [Option.mem_def] at hreference
    refine hunused (List.any_eq_true.mpr ⟨host, hmem, ?_⟩)
    have hmatches := (hmatch host hmem reference hreference).mpr hspelled
    simp [hne, hmatches]
  · intro hfree hused
    obtain ⟨host, hmem, hrefers⟩ := List.any_eq_true.mp hused
    rw [Bool.and_eq_true, decide_eq_true_eq] at hrefers
    cases hjump : host.proxy_jump with
    | none => simp [hjump, proxy_reference_matches_host] at hrefers
    | some reference =>
      have hspelled := (hmatch host hmem reference hjump).mp hrefers.2
      exact hfree removed hfind host hmem hrefers.1 reference hjump hspelled

/-! ### Removing the host -/

theorem remove_host_ok {state state' : PersistedState} {host_id : Text}
    (h : remove_host host_id state = .ok state') :
    validate_host_deletion_state state host_id = .ok () ∧ state' = without_host host_id state := by
  simp only [remove_host, Outcome.bind_eq_ok, Outcome.ite_error_eq_ok, Except.ok.injEq] at h
  obtain ⟨_, hvalid, _, hstate⟩ := h
  exact ⟨hvalid, hstate.symm⟩

theorem remove_host_of_valid {state : PersistedState} {host_id : Text}
    (h : validate_host_deletion_state state host_id = .ok ()) :
    remove_host host_id state = .ok (without_host host_id state) := by
  have hfound : ∃ removed, find_host state.hosts host_id = some removed := by
    simp only [validate_host_deletion_state, Outcome.bind_eq_ok, Option.ok_or_eq_ok] at h
    obtain ⟨removed, hfind, _⟩ := h
    exact ⟨removed, hfind⟩
  obtain ⟨removed, hfind⟩ := hfound
  obtain ⟨hmem, hid⟩ := find_host_some hfind
  have hshorter : (state.hosts.filter fun host => host.id ≠ host_id).length < state.hosts.length :=
    List.length_filter_lt_length_iff_exists.mpr ⟨removed, hmem, by simpa using hid⟩
  simp only [remove_host, h, Outcome.ok_bind]
  rw [if_neg (by omega)]
  rfl

/-- The state holds nothing of a removed host, and nothing that refers to it. -/
structure Forgotten (removed : HostProfile) (state : PersistedState) : Prop where
  hosts : ∀ host ∈ state.hosts, host.id ≠ removed.id
  tunnels : ∀ tunnel ∈ state.tunnels, tunnel.host_id ≠ removed.id
  commands : ∀ command ∈ state.command_presets, command.host_id ≠ some removed.id
  jump_ids : ∀ host ∈ state.hosts, host.proxy_jump ≠ some removed.id
  jumps : ∀ host ∈ state.hosts, proxy_reference_matches_host host.proxy_jump removed = false

theorem forgotten_of_remove {repo : Repository} (h : Invariant repo) {host_id : Text}
    {removed : HostProfile} (hfind : find_host repo.state.hosts host_id = some removed)
    (hvalid : validate_host_deletion_state repo.state host_id = .ok ()) :
    Forgotten removed (without_host host_id repo.state) := by
  obtain ⟨hremoved, rfl⟩ := find_host_some hfind
  simp only [validate_host_deletion_state, hfind, Outcome.bind_eq_ok, Option.ok_or_eq_ok,
    Option.some.injEq, Outcome.ite_error_eq_ok, and_true, exists_eq_left'] at hvalid
  have hother : ∀ host ∈ (without_host removed.id repo.state).hosts, host.id ≠ removed.id := by
    intro host hmem
    simpa using (List.mem_filter.mp hmem).2
  have hjumps : ∀ host ∈ (without_host removed.id repo.state).hosts,
      proxy_reference_matches_host host.proxy_jump removed = false := by
    intro host hmem
    by_contra hmatches
    rw [Bool.not_eq_false] at hmatches
    refine hvalid (List.any_eq_true.mpr ⟨host, (List.mem_filter.mp hmem).1, ?_⟩)
    simp [hother host hmem, hmatches]
  refine ⟨hother, fun tunnel hmem => by simpa using (List.mem_filter.mp hmem).2,
    fun command hmem => by simpa using (List.mem_filter.mp hmem).2, fun host hmem hjump => ?_, hjumps⟩
  have hmatches := proxy_reference_matches_id (h.sound.hosts.find hfind) rfl
  have hnone := hjumps host hmem
  rw [hjump, hmatches] at hnone
  exact absurd hnone.symm Bool.false_ne_true

/-! ### Operations on the reserved hosts -/

theorem commit_deleting_hosts {α : Type} (repo : Repository) (env : Env)
    (change : PersistedState → AppResult (PersistedState × α)) :
    (repo.commit env change).1.deleting_hosts = repo.deleting_hosts := by
  rcases commit_cases repo env change with ⟨_, hcommit⟩ | ⟨_, _, _, _, hcommit⟩
  · rw [hcommit]
  · rw [hcommit]

/-- A commit does not look at the reserved hosts. -/
theorem commit_with_deleting {α : Type} (repo : Repository) (env : Env)
    (change : PersistedState → AppResult (PersistedState × α)) (deleting_hosts : Finset Text) :
    ({ repo with deleting_hosts := deleting_hosts } : Repository).commit env change =
      ({ (repo.commit env change).1 with deleting_hosts := deleting_hosts },
        (repo.commit env change).2) := by
  unfold Repository.commit
  cases hchange : change repo.state with
  | error e => rfl
  | ok changed =>
    cases hpersist : persist_locked env changed.1 with
    | error e => simp [hpersist]
    | ok _ => simp [hpersist]

/-- Finishing a deletion is releasing the host and removing it. -/
theorem finish_eq {repo : Repository} {host_id : Text} (hdel : host_id ∈ repo.deleting_hosts)
    (env : Env) : repo.finish_host_deletion env host_id =
      (repo.abort_host_deletion host_id).delete_host_locked env host_id := by
  unfold Repository.finish_host_deletion
  rw [if_neg (not_not_intro hdel)]
  have hdeleting : (repo.delete_host_locked env host_id).1.deleting_hosts = repo.deleting_hosts :=
    commit_deleting_hosts repo env _
  show ({ (repo.delete_host_locked env host_id).1 with
      deleting_hosts := (repo.delete_host_locked env host_id).1.deleting_hosts.erase host_id },
    (repo.delete_host_locked env host_id).2) = _
  rw [hdeleting]
  exact (commit_with_deleting repo env _ _).symm

/-- How an operation may change the reserved hosts. -/
def ReservedAfter (before after : Finset Text) : Operation → Prop
  | .begin_host_deletion host_id => after = before ∨ after = insert host_id before
  | .finish_host_deletion host_id => after = before ∨ after = before.erase host_id
  | .abort_host_deletion host_id => after = before.erase host_id
  | _ => after = before

theorem run_reserved_after (repo : Repository) (env : Env) (op : Operation) :
    ReservedAfter repo.deleting_hosts (repo.run env op).1.deleting_hosts op := by
  cases op with
  | save_host draft =>
    show (repo.save_host env draft).1.deleting_hosts = _
    unfold Repository.save_host
    split
    · rfl
    · exact commit_deleting_hosts repo env _
  | import_hosts drafts =>
    show (repo.import_hosts env drafts).1.deleting_hosts = _
    unfold Repository.import_hosts
    split
    · rfl
    split
    · rfl
    · exact commit_deleting_hosts repo env _
  | import_batch batch =>
    show (repo.import_batch env batch).1.deleting_hosts = _
    unfold Repository.import_batch
    split
    · rfl
    split
    · rfl
    split
    · rfl
    split
    · rfl
    · exact commit_deleting_hosts repo env _
  | begin_host_deletion host_id =>
    show (repo.begin_host_deletion host_id).1.deleting_hosts = _ ∨
      (repo.begin_host_deletion host_id).1.deleting_hosts = _
    unfold Repository.begin_host_deletion
    split
    · exact .inl rfl
    split
    · exact .inl rfl
    · exact .inr rfl
  | finish_host_deletion host_id =>
    show (repo.finish_host_deletion env host_id).1.deleting_hosts = _ ∨
      (repo.finish_host_deletion env host_id).1.deleting_hosts = _
    by_cases hdel : host_id ∈ repo.deleting_hosts
    · rw [finish_eq hdel]
      exact .inr (commit_deleting_hosts _ env _)
    · rw [Repository.finish_host_deletion, if_pos hdel]
      exact .inl rfl
  | abort_host_deletion host_id => rfl
  | save_tunnel draft =>
    show (repo.save_tunnel env draft).1.deleting_hosts = _
    unfold Repository.save_tunnel
    split
    · rfl
    · exact commit_deleting_hosts repo env _
  | delete_tunnel tunnel_id => exact commit_deleting_hosts repo env _
  | save_command draft =>
    show (repo.save_command env draft).1.deleting_hosts = _
    unfold Repository.save_command
    split
    · rfl
    · exact commit_deleting_hosts repo env _
  | delete_command_for_host command_id host_id =>
    show (repo.delete_command_for_host env command_id host_id).1.deleting_hosts = _
    unfold Repository.delete_command_for_host
    split
    · rfl
    · exact commit_deleting_hosts repo env _
  | update_settings patch =>
    show (repo.update_settings env patch).1.deleting_hosts = _
    exact commit_deleting_hosts repo env _

variable {host_id : Text} {env : Env} {op : Operation} {repo : Repository}

/-- Only `finish_host_deletion` and `abort_host_deletion` release a host. -/
theorem run_stays_reserved (hdel : host_id ∈ repo.deleting_hosts)
    (hother : op ≠ .finish_host_deletion host_id ∧ op ≠ .abort_host_deletion host_id) :
    host_id ∈ (repo.run env op).1.deleting_hosts := by
  have hafter := run_reserved_after repo env op
  cases op with
  | begin_host_deletion other =>
    rcases hafter with hafter | hafter <;> simp [hafter, hdel]
  | finish_host_deletion other =>
    have hne : host_id ≠ other := fun heq => hother.1 (heq ▸ rfl)
    rcases hafter with hafter | hafter <;> simp [hafter, hdel, hne]
  | abort_host_deletion other =>
    have hne : host_id ≠ other := fun heq => hother.2 (heq ▸ rfl)
    have hafter : (repo.run env (.abort_host_deletion other)).1.deleting_hosts = _ := hafter
    simp [hafter, hdel, hne]
  | _ => exact hafter ▸ hdel

/-- Only `begin_host_deletion` reserves a host. -/
theorem run_stays_free (hfree : host_id ∉ repo.deleting_hosts)
    (hother : op ≠ .begin_host_deletion host_id) :
    host_id ∉ (repo.run env op).1.deleting_hosts := by
  have hafter := run_reserved_after repo env op
  cases op with
  | begin_host_deletion other =>
    have hne : host_id ≠ other := fun heq => hother (heq ▸ rfl)
    rcases hafter with hafter | hafter <;> simp [hafter, hfree, hne]
  | finish_host_deletion other =>
    rcases hafter with hafter | hafter <;> simp [hafter, hfree]
  | abort_host_deletion other =>
    have hafter : (repo.run env (.abort_host_deletion other)).1.deleting_hosts = _ := hafter
    simp [hafter, hfree]
  | _ => exact hafter ▸ hfree

/-! ### Runs with reserved hosts -/

/-- The reserved hosts are saved, and the state passes its validation. -/
structure Reserved (repo : Repository) : Prop where
  valid : validate_persisted_state repo.state = .ok ()
  saved : ∀ x ∈ repo.deleting_hosts, ∃ host, find_host repo.state.hosts x = some host

theorem reserved_default : Reserved .default where
  valid := by decide
  saved := by simp [Repository.default]

/-- A commit of a change that loses no reserved host. -/
theorem Reserved.commit {α : Type} (h : Reserved repo)
    {change : PersistedState → AppResult (PersistedState × α)}
    (hchange : ∀ state value, change repo.state = .ok (state, value) →
      ∀ x ∈ repo.deleting_hosts, ∀ host, find_host repo.state.hosts x = some host →
        ∃ host', find_host state.hosts x = some host') :
    Reserved (repo.commit env change).1 := by
  unfold Repository.commit
  cases hok : change repo.state with
  | error e => exact h
  | ok changed =>
    obtain ⟨state, value⟩ := changed
    cases hpersist : persist_locked env state with
    | error e => simpa [hpersist] using h
    | ok _ =>
      obtain ⟨_, hvalid, _⟩ := Outcome.bind_eq_ok.mp hpersist
      have hsaved : ∀ x ∈ repo.deleting_hosts, ∃ host, find_host state.hosts x = some host := by
        intro x hx
        obtain ⟨host, hfind⟩ := h.saved x hx
        exact hchange state value hok x hx host hfind
      simpa [hpersist] using Reserved.mk hvalid hsaved

/-- A commit of a change that leaves the hosts alone. -/
theorem Reserved.commit_same_hosts {α : Type} (h : Reserved repo)
    {change : PersistedState → AppResult (PersistedState × α)}
    (hchange : ∀ state value, change repo.state = .ok (state, value) →
      state.hosts = repo.state.hosts) :
    Reserved (repo.commit env change).1 :=
  h.commit fun state value hok _ _ host hfind => ⟨host, hchange state value hok ▸ hfind⟩

/-- With no host reserved there is none to lose. -/
theorem Reserved.commit_free {α : Type} (h : Reserved repo)
    (hfree : ¬ repo.deleting_hosts.Nonempty)
    {change : PersistedState → AppResult (PersistedState × α)} :
    Reserved (repo.commit env change).1 :=
  h.commit fun _ _ _ x hx => absurd ⟨x, hx⟩ hfree

theorem Reserved.release (h : Reserved repo) (host_id : Text) :
    Reserved (repo.abort_host_deletion host_id) where
  valid := h.valid
  saved := fun x hx => h.saved x (Finset.mem_of_mem_erase hx)

theorem Reserved.save_host (h : Reserved repo) (hinv : Invariant repo) (draft : HostDraft) :
    Reserved (repo.save_host env draft).1 := by
  unfold Repository.save_host
  split
  · exact h
  refine h.commit fun state value hok x _ host hfind => ?_
  simp only [Outcome.bind_eq_ok, Except.ok.injEq, Prod.mk.injEq, Prod.exists] at hok
  obtain ⟨state, profile, hupdate, _, _, rfl, rfl⟩ := hok
  have hupdated := apply_host_update_ok hinv.sound.hosts hupdate
  by_cases hx : x = profile.id
  · exact ⟨profile, hx ▸ hupdated.found⟩
  · rw [hupdated.others x hx, hfind]
    exact ⟨_, rfl⟩

/-- The host that a finished deletion removes is released. -/
theorem Reserved.finish (h : Reserved repo) (host_id : Text) :
    Reserved (repo.finish_host_deletion env host_id).1 := by
  by_cases hdel : host_id ∈ repo.deleting_hosts
  · rw [finish_eq hdel]
    refine (h.release host_id).commit fun state value hok x hx host hfind => ?_
    simp only [Outcome.bind_eq_ok, Except.ok.injEq, Prod.mk.injEq] at hok
    obtain ⟨_, hremove, rfl, _⟩ := hok
    obtain ⟨_, rfl⟩ := remove_host_ok hremove
    have hkept : find_host (without_host host_id repo.state).hosts x =
        if x = host_id then none else find_host repo.state.hosts x := find_host_filter host_id x
    rw [if_neg (Finset.ne_of_mem_erase hx)] at hkept
    exact ⟨host, hkept.trans hfind⟩
  · rw [Repository.finish_host_deletion, if_pos hdel]
    exact h

theorem Reserved.run (h : Reserved repo) (hinv : Invariant repo) (env : Env) (op : Operation) :
    Reserved (repo.run env op).1 := by
  cases op with
  | save_host draft => exact h.save_host hinv draft
  | import_hosts drafts =>
    show Reserved (repo.import_hosts env drafts).1
    unfold Repository.import_hosts
    split
    · exact h
    split
    · exact h
    case isFalse hfree => exact h.commit_free hfree
  | import_batch batch =>
    show Reserved (repo.import_batch env batch).1
    unfold Repository.import_batch
    split
    · exact h
    split
    · exact h
    case isFalse hfree =>
      split
      · exact h
      split
      · exact h
      · exact h.commit_free hfree
  | begin_host_deletion host_id =>
    show Reserved (repo.begin_host_deletion host_id).1
    unfold Repository.begin_host_deletion
    split
    · exact h
    cases hvalid : validate_host_deletion_state repo.state host_id with
    | error e => exact h
    | ok _ =>
      refine ⟨h.valid, fun x hx => ?_⟩
      rcases Finset.mem_insert.mp hx with rfl | hx
      · simp only [validate_host_deletion_state, Outcome.bind_eq_ok, Option.ok_or_eq_ok] at hvalid
        obtain ⟨removed, hfind, _⟩ := hvalid
        exact ⟨removed, hfind⟩
      · exact h.saved x hx
  | finish_host_deletion host_id => exact h.finish host_id
  | abort_host_deletion host_id => exact h.release host_id
  | save_tunnel draft =>
    show Reserved (repo.save_tunnel env draft).1
    unfold Repository.save_tunnel
    split
    · exact h
    · exact h.commit_same_hosts fun state value hok => (apply_tunnel_draft_frame hok).1
  | delete_tunnel tunnel_id =>
    refine h.commit_same_hosts fun state value hok => ?_
    simp only [Outcome.ite_error_eq_ok, Except.ok.injEq, Prod.mk.injEq] at hok
    obtain ⟨_, rfl, _⟩ := hok
    rfl
  | save_command draft =>
    show Reserved (repo.save_command env draft).1
    unfold Repository.save_command
    split
    · exact h
    · exact h.commit_same_hosts fun state value hok => (apply_command_draft_frame hok).1
  | delete_command_for_host command_id host_id =>
    show Reserved (repo.delete_command_for_host env command_id host_id).1
    unfold Repository.delete_command_for_host
    split
    · exact h
    · refine h.commit_same_hosts fun state value hok => ?_
      simp only [Outcome.ite_error_eq_ok, Outcome.bind_eq_ok, Except.ok.injEq,
        Prod.mk.injEq] at hok
      obtain ⟨_, _, _, _, rfl, _⟩ := hok
      rfl
  | update_settings patch =>
    show Reserved (repo.update_settings env patch).1
    refine h.commit_same_hosts fun state value hok => ?_
    simp only [Outcome.bind_eq_ok, Except.ok.injEq, Prod.mk.injEq] at hok
    obtain ⟨_, _, rfl, _⟩ := hok
    rfl

theorem reachable_reserved (h : repository.Reachable repo) : Reserved repo := by
  have hboth : Invariant repo ∧ Reserved repo := by
    refine @Machine.ReachableWhen.invariant _ _ _ _ (fun repo => Invariant repo ∧ Reserved repo)
      ?_ ?_ _ h
    · intro repo hinit
      obtain rfl : repo = .default := hinit
      exact ⟨invariant_default, reserved_default⟩
    · intro repo label repo' hinv _ hstep
      obtain rfl := Option.some.inj hstep
      exact ⟨hinv.1.run label.1 label.2, hinv.2.run hinv.1 label.1 label.2⟩
  exact hboth.2

/-! ### Finishing -/

/-- The deletion of a reserved host succeeds, if the write does, exactly if
    no reference spells its alias. -/
theorem finish_ok_iff (h : repository.Reachable repo) (hdel : host_id ∈ repo.deleting_hosts)
    (hwrite : env.write = .ok ()) :
    (repo.finish_host_deletion env host_id).2 = .ok () ↔
      AliasUnreferenced repo.state.hosts host_id := by
  have hreserved := reachable_reserved h
  obtain ⟨removed, hfind⟩ := hreserved.saved host_id hdel
  rw [← validate_host_deletion_state_iff (reachable_invariant h) hdel hfind, finish_eq hdel]
  constructor
  · intro hok
    rcases commit_cases (repo.abort_host_deletion host_id) env _ with
      ⟨error, hcommit⟩ | ⟨state, value, hchange, _, _⟩
    · have hfailed : (.error error : AppResult Unit) = .ok () :=
        (congrArg Prod.snd hcommit).symm.trans hok
      exact nomatch hfailed
    · simp only [Outcome.bind_eq_ok, Except.ok.injEq, Prod.mk.injEq] at hchange
      obtain ⟨_, hremove, _, _⟩ := hchange
      exact (remove_host_ok hremove).1
  · intro hvalid
    have hpersist : persist_locked env (without_host host_id repo.state) = .ok () :=
      Outcome.bind_eq_ok.mpr ⟨(), validate_without_host host_id hreserved.valid, hwrite⟩
    simp [Repository.delete_host_locked, Repository.commit, Repository.abort_host_deletion,
      remove_host_of_valid hvalid, hpersist]

/-- A deletion that succeeds leaves nothing of the host. -/
theorem finish_forgets (h : Invariant repo) (hdel : host_id ∈ repo.deleting_hosts)
    {removed : HostProfile} (hfind : find_host repo.state.hosts host_id = some removed)
    (hok : (repo.finish_host_deletion env host_id).2 = .ok ()) :
    Forgotten removed (repo.finish_host_deletion env host_id).1.state := by
  rw [finish_eq hdel] at hok ⊢
  unfold Repository.delete_host_locked at hok ⊢
  rcases commit_cases (repo.abort_host_deletion host_id) env _ with
    ⟨error, hcommit⟩ | ⟨state, value, hchange, _, hcommit⟩
  · rw [hcommit] at hok
    exact nomatch hok
  · rw [hcommit]
    simp only [Outcome.bind_eq_ok, Except.ok.injEq, Prod.mk.injEq] at hchange
    obtain ⟨_, hremove, rfl, _⟩ := hchange
    obtain ⟨hvalid, rfl⟩ := remove_host_ok hremove
    exact forgotten_of_remove h hfind hvalid

/-! ### Aborting -/

/-- The repository with one more host reserved. -/
def Repository.reserve (repo : Repository) (host_id : Text) : Repository :=
  { repo with deleting_hosts := insert host_id repo.deleting_hosts }

/-- What succeeds with the host reserved has the same outcome without. -/
def Follows {α : Type} (host_id : Text) (reserved free : Repository × AppResult α) : Prop :=
  reserved.2.isOk = true → reserved = (free.1.reserve host_id, free.2)

theorem Follows.failed {α : Type} {after : Repository} {error : AppError}
    {free : Repository × AppResult α} : Follows host_id (after, .error error) free := by
  intro hok
  exact nomatch hok

theorem Follows.same {α : Type} {result : AppResult α} :
    Follows host_id (repo.reserve host_id, result) (repo, result) :=
  fun _ => rfl

/-- A guard that is stricter with the host reserved. -/
theorem Follows.guard {α : Type} {strict loose : Prop} [Decidable strict] [Decidable loose]
    (hmono : loose → strict) {after after' : Repository} {error error' : AppError}
    {reserved free : Repository × AppResult α} (h : Follows host_id reserved free) :
    Follows host_id (if strict then (after, .error error) else reserved)
      (if loose then (after', .error error') else free) := by
  by_cases hstrict : strict
  · rw [if_pos hstrict]
    exact Follows.failed
  · rw [if_neg hstrict, if_neg fun hloose => hstrict (hmono hloose)]
    exact h

/-- A change that is stricter with the host reserved. -/
theorem Follows.commit {α : Type} {strict loose : PersistedState → AppResult (PersistedState × α)}
    (hmono : ∀ changed, strict repo.state = .ok changed → loose repo.state = .ok changed) :
    Follows host_id ((repo.reserve host_id).commit env strict) (repo.commit env loose) := by
  intro hok
  have hreserved : (repo.reserve host_id).commit env strict =
      ((repo.commit env strict).1.reserve host_id, (repo.commit env strict).2) := by
    have hdeleting := commit_deleting_hosts repo env strict
    unfold Repository.reserve
    rw [commit_with_deleting, hdeleting]
  rw [hreserved] at hok ⊢
  -- a strict change that is committed is the loose one
  cases hchange : strict repo.state with
  | error e => simp [Repository.commit, hchange, Except.isOk, Except.toBool] at hok
  | ok changed =>
    have hloose := hmono changed hchange
    simp only [Repository.commit, hchange, hloose]

theorem Follows.forget {α : Type} {reserved free : Repository × AppResult α}
    (h : Follows host_id reserved free) :
    Follows host_id (reserved.map id fun r => r.map fun _ => ())
      (free.map id fun r => r.map fun _ => ()) := by
  intro hok
  have hbefore : reserved.2.isOk = true := by
    obtain ⟨after, result⟩ := reserved
    cases result with
    | error e => exact nomatch hok
    | ok value => rfl
  rw [h hbefore]
  rfl

/-- A jump that is kept although the host is reserved. -/
theorem ensure_jump_kept_mono {deleting_hosts : Finset Text} {hosts : List HostProfile}
    {profile : HostProfile}
    (h : ensure_jump_kept (insert host_id deleting_hosts) hosts profile = .ok ()) :
    ensure_jump_kept deleting_hosts hosts profile = .ok () := by
  obtain ⟨jump, hresolve, hkept⟩ := Outcome.bind_eq_ok.mp h
  refine Outcome.bind_eq_ok.mpr ⟨jump, hresolve, ?_⟩
  rw [Outcome.ite_error_eq_ok] at hkept ⊢
  refine ⟨fun hany => hkept.1 ?_, rfl⟩
  cases jump with
  | none => exact hany
  | some jump => simp at hany ⊢; exact .inr hany

theorem save_host_follows (draft : HostDraft) :
    Follows host_id ((repo.reserve host_id).save_host env draft) (repo.save_host env draft) := by
  unfold Repository.save_host
  refine Follows.guard ?_ (Follows.commit fun changed hchange => ?_)
  · intro hdraft
    cases hid : draft.id with
    | none => simp [hid] at hdraft
    | some id =>
      simp only [hid, Option.any_some, decide_eq_true_eq] at hdraft ⊢
      exact Finset.mem_insert_of_mem hdraft
  · simp only [Outcome.bind_eq_ok, Prod.exists] at hchange ⊢
    obtain ⟨state, profile, hupdate, _, hkept, hchanged⟩ := hchange
    exact ⟨state, profile, hupdate, (), ensure_jump_kept_mono hkept, hchanged⟩

theorem reserve_nonempty : (repo.reserve host_id).deleting_hosts.Nonempty :=
  ⟨host_id, Finset.mem_insert_self _ _⟩

theorem import_batch_follows (batch : ImportBatch) :
    Follows host_id ((repo.reserve host_id).import_batch env batch)
      (repo.import_batch env batch) := by
  unfold Repository.import_batch
  split
  · exact Follows.failed
  · rw [if_pos reserve_nonempty]
    exact Follows.failed

theorem begin_follows (other : Text) :
    Follows host_id ((repo.reserve host_id).begin_host_deletion other)
      (repo.begin_host_deletion other) := by
  unfold Repository.begin_host_deletion
  refine Follows.guard Finset.mem_insert_of_mem ?_
  have hstate : (repo.reserve host_id).state = repo.state := rfl
  rw [hstate]
  cases validate_host_deletion_state repo.state other with
  | error e => exact Follows.failed
  | ok _ =>
    intro _
    show ((repo.reserve host_id).reserve other, _) = ((repo.reserve other).reserve host_id, _)
    unfold Repository.reserve
    rw [Finset.insert_comm]

/-- Releasing another host. -/
theorem reserve_abort {other : Text} (hne : other ≠ host_id) :
    (repo.reserve host_id).abort_host_deletion other =
      (repo.abort_host_deletion other).reserve host_id := by
  unfold Repository.abort_host_deletion Repository.reserve
  rw [Finset.erase_insert_of_ne hne.symm]

/-- Finishing another deletion has the same outcome, be it a failure. -/
theorem finish_reserve {other : Text} (hne : other ≠ host_id) :
    (repo.reserve host_id).finish_host_deletion env other =
      ((repo.finish_host_deletion env other).1.reserve host_id,
        (repo.finish_host_deletion env other).2) := by
  by_cases hdel : other ∈ repo.deleting_hosts
  · have hdel' : other ∈ (repo.reserve host_id).deleting_hosts := Finset.mem_insert_of_mem hdel
    rw [finish_eq hdel, finish_eq hdel', reserve_abort hne]
    unfold Repository.delete_host_locked
    rw [Repository.reserve, commit_with_deleting, Repository.reserve, commit_deleting_hosts]
  · have hdel' : other ∉ (repo.reserve host_id).deleting_hosts := by
      intro hmem
      exact (Finset.mem_insert.mp hmem).elim hne hdel
    rw [Repository.finish_host_deletion, if_pos hdel', Repository.finish_host_deletion, if_pos hdel]

def Operation.finishes : Operation → Bool
  | .finish_host_deletion _ => true
  | _ => false

/-- **Step lemma**: an operation on another host that succeeds with the host
    reserved, or that finishes a deletion, does the same without. -/
theorem run_follows
    (hother : op ≠ .finish_host_deletion host_id ∧ op ≠ .abort_host_deletion host_id)
    (htaken : (((repo.reserve host_id).run env op).2.isOk || op.finishes) = true) :
    (repo.reserve host_id).run env op =
      ((repo.run env op).1.reserve host_id, (repo.run env op).2) := by
  rw [Bool.or_eq_true] at htaken
  cases op with
  | save_host draft => exact (save_host_follows draft).forget (htaken.resolve_right nofun)
  | import_hosts drafts =>
    have hfollows : Follows host_id ((repo.reserve host_id).import_hosts env drafts)
        (repo.import_hosts env drafts) := by
      unfold Repository.import_hosts
      split
      · exact Follows.same
      · rw [if_pos reserve_nonempty]
        exact Follows.failed
    exact hfollows.forget (htaken.resolve_right nofun)
  | import_batch batch => exact (import_batch_follows batch).forget (htaken.resolve_right nofun)
  | begin_host_deletion other => exact begin_follows other (htaken.resolve_right nofun)
  | finish_host_deletion other => exact finish_reserve fun heq => hother.1 (heq ▸ rfl)
  | abort_host_deletion other =>
    have hne : other ≠ host_id := fun heq => hother.2 (heq ▸ rfl)
    show ((repo.reserve host_id).abort_host_deletion other, _) = _
    rw [reserve_abort hne]
    rfl
  | save_tunnel draft =>
    have hfollows : Follows host_id ((repo.reserve host_id).save_tunnel env draft)
        (repo.save_tunnel env draft) :=
      Follows.guard Finset.mem_insert_of_mem (Follows.commit fun _ h => h)
    exact hfollows.forget (htaken.resolve_right nofun)
  | delete_tunnel tunnel_id =>
    exact Follows.commit (fun _ h => h) (htaken.resolve_right nofun)
  | save_command draft =>
    have hfollows : Follows host_id ((repo.reserve host_id).save_command env draft)
        (repo.save_command env draft) := by
      refine Follows.guard (fun hdraft => ?_) (Follows.commit fun _ h => h)
      cases hid : draft.host_id with
      | none => simp [hid] at hdraft
      | some id =>
        simp only [hid, Option.any_some, decide_eq_true_eq] at hdraft ⊢
        exact Finset.mem_insert_of_mem hdraft
    exact hfollows.forget (htaken.resolve_right nofun)
  | delete_command_for_host command_id other =>
    exact Follows.guard Finset.mem_insert_of_mem (Follows.commit fun _ h => h)
      (htaken.resolve_right nofun)
  | update_settings patch =>
    have hfollows : Follows host_id ((repo.reserve host_id).update_settings env patch)
        (repo.update_settings env patch) := Follows.commit fun _ h => h
    exact hfollows.forget (htaken.resolve_right nofun)

/-! ### Runs between the two phases -/

def Repository.run_all (repo : Repository) : List (Env × Operation) → Repository
  | [] => repo
  | label :: labels => (repo.run label.1 label.2).1.run_all labels

/-- The results of the operations of a run. -/
def Repository.results (repo : Repository) : List (Env × Operation) → List (AppResult Unit)
  | [] => []
  | label :: labels =>
      (repo.run label.1 label.2).2 :: (repo.run label.1 label.2).1.results labels

/-- The operations of a run that take effect: those that succeed, and those
    that finish a deletion, which release the host also if they fail. -/
def Repository.taken (repo : Repository) : List (Env × Operation) → List (Env × Operation)
  | [] => []
  | label :: labels =>
      if (repo.run label.1 label.2).2.isOk || label.2.finishes then
        label :: (repo.run label.1 label.2).1.taken labels
      else (repo.run label.1 label.2).1.taken labels

/-- Of a run without failures every operation takes effect. -/
theorem taken_of_ok {labels : List (Env × Operation)}
    (h : ∀ result ∈ repo.results labels, result = .ok ()) : repo.taken labels = labels := by
  induction labels generalizing repo with
  | nil => rfl
  | cons label labels ih =>
    obtain ⟨hfirst, hrest⟩ := List.forall_mem_cons.mp h
    unfold Repository.taken
    rw [hfirst, ih hrest]
    rfl

theorem run_all_reachable (h : repository.Reachable repo) (labels : List (Env × Operation)) :
    repository.Reachable (repo.run_all labels) := by
  induction labels generalizing repo with
  | nil => exact h
  | cons label labels ih => exact ih (h.step trivial rfl)

theorem run_all_stays_reserved {labels : List (Env × Operation)}
    (hothers : ∀ label ∈ labels,
      label.2 ≠ .finish_host_deletion host_id ∧ label.2 ≠ .abort_host_deletion host_id)
    (hdel : host_id ∈ repo.deleting_hosts) : host_id ∈ (repo.run_all labels).deleting_hosts := by
  induction labels generalizing repo with
  | nil => exact hdel
  | cons label labels ih =>
    obtain ⟨hother, hothers⟩ := List.forall_mem_cons.mp hothers
    exact ih hothers (run_stays_reserved hdel hother)

/-- What does not take effect changes nothing. -/
theorem run_untaken (h : ((repo.run env op).2.isOk || op.finishes) = false) :
    (repo.run env op).1 = repo := by
  obtain ⟨hfailed, hfinishes⟩ := Bool.or_eq_false_iff.mp h
  have herror : ∃ e, (repo.run env op).2 = .error e := by
    cases hresult : (repo.run env op).2 with
    | error e => exact ⟨e, rfl⟩
    | ok value =>
      rw [hresult] at hfailed
      exact nomatch hfailed
  obtain ⟨e, he⟩ := herror
  rcases run_failsClean repo env op with hclean | ⟨other, hop, _⟩
  · rw [hclean e he]
  · rw [hop] at hfinishes
    exact nomatch hfinishes

/-- A host that is reserved cannot be reserved again. -/
theorem begin_of_reserved (hdel : host_id ∈ repo.deleting_hosts) :
    (repo.begin_host_deletion host_id).2.isOk = false := by
  rw [Repository.begin_host_deletion, if_pos hdel]
  rfl

/-- **Run lemma**: a run with the host reserved ends, but for the
    reservation, where the operations that took effect end without it. -/
theorem run_all_follows {labels : List (Env × Operation)}
    (hothers : ∀ label ∈ labels,
      label.2 ≠ .finish_host_deletion host_id ∧ label.2 ≠ .abort_host_deletion host_id)
    (hfree : host_id ∉ repo.deleting_hosts) :
    (repo.reserve host_id).run_all labels =
        (repo.run_all ((repo.reserve host_id).taken labels)).reserve host_id ∧
      host_id ∉ (repo.run_all ((repo.reserve host_id).taken labels)).deleting_hosts ∧
      repo.results ((repo.reserve host_id).taken labels) =
        (repo.reserve host_id).results ((repo.reserve host_id).taken labels) := by
  induction labels generalizing repo with
  | nil => exact ⟨rfl, hfree, rfl⟩
  | cons label labels ih =>
    obtain ⟨env, op⟩ := label
    obtain ⟨hother, hothers⟩ := List.forall_mem_cons.mp hothers
    have hunfold : (repo.reserve host_id).taken ((env, op) :: labels) =
        if ((repo.reserve host_id).run env op).2.isOk || op.finishes then
          (env, op) :: ((repo.reserve host_id).run env op).1.taken labels
        else ((repo.reserve host_id).run env op).1.taken labels := rfl
    rw [hunfold]
    show ((repo.reserve host_id).run env op).1.run_all labels = _ ∧ _
    by_cases htaken : (((repo.reserve host_id).run env op).2.isOk || op.finishes) = true
    · rw [if_pos htaken]
      have hstep := run_follows hother htaken
      have hbegin : op ≠ .begin_host_deletion host_id := by
        intro hop
        have hfailed : ((repo.reserve host_id).begin_host_deletion host_id).2.isOk = false :=
          begin_of_reserved (Finset.mem_insert_self _ _)
        subst hop
        have hnone : (((repo.reserve host_id).begin_host_deletion host_id).2.isOk || false) = true :=
          htaken
        rw [hfailed] at hnone
        exact nomatch hnone
      have hfree' : host_id ∉ (repo.run env op).1.deleting_hosts := run_stays_free hfree hbegin
      obtain ⟨hstate, hout, hresults⟩ := ih hothers hfree'
      rw [hstep]
      refine ⟨hstate, hout, ?_⟩
      show _ :: _ = ((repo.reserve host_id).run env op).2 ::
        ((repo.reserve host_id).run env op).1.results _
      rw [hstep]
      exact congrArg _ hresults
    · rw [if_neg htaken]
      rw [Bool.not_eq_true] at htaken
      rw [run_untaken htaken]
      exact ih hothers hfree

theorem begin_ok (h : (repo.begin_host_deletion host_id).2 = .ok ()) :
    host_id ∉ repo.deleting_hosts ∧
      (repo.begin_host_deletion host_id).1 = repo.reserve host_id := by
  unfold Repository.begin_host_deletion at h ⊢
  split at h
  · exact nomatch h
  case isFalse hfree =>
    rw [if_neg hfree]
    cases hvalid : validate_host_deletion_state repo.state host_id with
    | error e =>
      rw [hvalid] at h
      exact nomatch h
    | ok _ => exact ⟨hfree, rfl⟩

/-- A gate, and a host with the given alias. -/
def save_gate_and (second_alias : Text) : List (Env × Operation) :=
  [(Env.counting 1, .save_host (HostDraft.plain none "gate".toList none)),
   (Env.counting 2, .save_host (HostDraft.plain none second_alias none))]

/-- A host with a jump to the gate. -/
def save_lab : List (Env × Operation) :=
  [(Env.counting 3, .save_host (HostDraft.plain none "lab".toList (some "gate".toList)))]

theorem save_lab_other (host_id : Text) : ∀ label ∈ save_lab,
    label.2 ≠ .finish_host_deletion host_id ∧ label.2 ≠ .abort_host_deletion host_id := by
  intro label hlabel
  rw [List.mem_singleton.mp hlabel]
  exact ⟨nofun, nofun⟩

/-- The second host is reserved, and a third one is saved meanwhile. -/
def prepared_with (second_alias : Text) : Repository :=
  ((Repository.default.run_all (save_gate_and second_alias)).begin_host_deletion
    (uuid_text 2)).1.run_all save_lab

end Store
