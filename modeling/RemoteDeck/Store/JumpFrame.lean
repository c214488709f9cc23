import RemoteDeck.Store.Invariant

/-! # Saving one host and the jumps of the others

    In a reachable repository the jump reference of every host is the id it
    resolves to (`jump_id_eq`), so saving a host redirects another host
    exactly if it rewrites that host's reference.

    `apply_host_update` rewrites references that equal the dropped alias of
    a renamed host.  References are ids, but an alias may be spelled like an
    id: then the rewriting takes a reference to one host for a reference to
    another.
-/

namespace Store

/-- The id of the host through which a host connects. -/
def Repository.jump_id (repo : Repository) (host : HostProfile) : AppResult (Option Text) :=
  (repo.resolve_jump_host host).map fun jump => jump.map HostProfile.id

/-- Every host other than the saved one jumps through the same host before
    and after. -/
def JumpsFramed (before after : Repository) (saved : HostProfile) : Prop :=
  ∀ k ∈ before.state.hosts, k.id ≠ saved.id →
    ∃ k' ∈ after.state.hosts, k'.id = k.id ∧ after.jump_id k' = before.jump_id k

/-- The draft renames a host, and another host's jump is the id of a third
    host that the dropped alias spells. -/
def DropsAliasSpelledLikeId (hosts : List HostProfile) (draft : HostDraft) : Prop :=
  ∃ renamed ∈ hosts, draft.id = some renamed.id ∧
    renamed.alias.to_ascii_lowercase ≠ draft.alias.trim.to_ascii_lowercase ∧
      ∃ k ∈ hosts, k.id ≠ renamed.id ∧ ∃ r ∈ k.proxy_jump, r ≠ renamed.id ∧
        r.to_ascii_lowercase = renamed.alias.to_ascii_lowercase

instance (hosts : List HostProfile) (draft : HostDraft) :
    Decidable (DropsAliasSpelledLikeId hosts draft) :=
  inferInstanceAs (Decidable (∃ renamed ∈ hosts, _))

instance (before after : Repository) (saved : HostProfile) :
    Decidable (JumpsFramed before after saved) :=
  inferInstanceAs (Decidable (∀ k ∈ before.state.hosts, _))

/-- In a repository that keeps the invariant a jump reference is the id it
    resolves to. -/
theorem jump_id_eq {repo : Repository} (h : Invariant repo) {host : HostProfile}
    (hmem : host ∈ repo.state.hosts) : repo.jump_id host = .ok host.proxy_jump := by
  have hfind := find_host_of_mem h.validated.hosts_differ hmem
  rw [Repository.jump_id, Repository.resolve_jump_host,
    resolve_proxy_jump_resolved h.sound.hosts hfind (h.sound.jumps host.id), Outcome.ok_bind]
  cases hjump : host.proxy_jump with
  | none => simp [Except.map]
  | some r =>
    obtain ⟨_, jump, htarget, _⟩ := h.sound.jumps host.id host r hfind hjump
    have hid := (find_host_some htarget).2
    have hkept := h.sound.kept host.id host r hfind hjump
    simp [htarget, hid, hkept, Except.map]

/-- What a successful `save_host` does to the repository. -/
theorem save_host_ok {repo : Repository} (h : Invariant repo) {env : Env} {draft : HostDraft}
    {saved : HostProfile} (hsave : (repo.save_host env draft).2 = .ok saved) :
    ∃ state, HostUpdated (env.new_uuid 0) draft repo.state state saved ∧
      (repo.save_host env draft).1 = { repo with state := state } := by
  unfold Repository.save_host at *
  split at hsave
  · simp at hsave
  rename_i hdraft
  rw [if_neg hdraft]
  rcases commit_cases repo env _ with ⟨e, hcommit⟩ | ⟨state, value, hok, _, hcommit⟩
  · rw [hcommit] at hsave
    simp at hsave
  · rw [hcommit] at hsave ⊢
    obtain rfl : value = saved := by simpa using hsave
    simp only [Outcome.bind_eq_ok, Except.ok.injEq, Prod.mk.injEq, Prod.exists] at hok
    obtain ⟨state, profile, hupdate, _, _, rfl, rfl⟩ := hok
    exact ⟨state, apply_host_update_ok h.sound.hosts hupdate, rfl⟩

/-- The alias that an edit drops. -/
theorem renamed_from_eq_some {hosts : List HostProfile} {draft : HostDraft} {previous : Text} :
    renamed_from hosts draft = some previous ↔ ∃ id renamed, draft.id = some id ∧
      find_host hosts id = some renamed ∧ renamed.alias = previous ∧
        renamed.alias.to_ascii_lowercase ≠ draft.alias.trim.to_ascii_lowercase := by
  simp only [renamed_from, dropped_alias, Option.filter_eq_some_iff, Option.map_eq_some_iff,
    Option.bind_eq_some_iff]
  constructor
  · rintro ⟨⟨renamed, ⟨id, hid, hfind⟩, rfl⟩, hne⟩
    exact ⟨id, renamed, hid, hfind, rfl, by simpa using hne⟩
  · rintro ⟨id, renamed, hid, hfind, rfl, hne⟩
    exact ⟨⟨renamed, ⟨id, hid, hfind⟩, rfl⟩, by simpa using hne⟩

/-- Saving a host leaves the jump of every other host alone, unless it drops
    an alias that is spelled like the id that some jump refers to. -/
theorem save_host_frames_jumps_iff {repo : Repository} (hreach : repository.Reachable repo)
    {env : Env} {draft : HostDraft} {saved : HostProfile}
    (hsave : (repo.save_host env draft).2 = .ok saved) :
    JumpsFramed repo (repo.save_host env draft).1 saved ↔
      ¬ DropsAliasSpelledLikeId repo.state.hosts draft := by
  have hinv := reachable_invariant hreach
  have hafter := hinv.save_host env draft
  obtain ⟨state, hupdated, heq⟩ := save_host_ok hinv hsave
  rw [heq] at hafter ⊢
  have hdiffer := hinv.validated.hosts_differ
  have hother : ∀ k ∈ repo.state.hosts, k.id ≠ saved.id → find_host state.hosts k.id =
      some (redirect (renamed_from repo.state.hosts draft) saved.id k) := fun k hk hne => by
    rw [hupdated.others k.id hne, find_host_of_mem hdiffer hk, Option.map_some]
  constructor
  · rintro hframed ⟨renamed, hmem, hid, halias, k, hk, hkne, r, hr, hrne, hspelled⟩
    rw [Option.mem_def] at hr
    have hsaved : saved.id = renamed.id := (hupdated.id_edited _ hid).1
    obtain ⟨k', hk', hk'id, hjump⟩ := hframed k hk (hsaved ▸ hkne)
    have hdropped : renamed_from repo.state.hosts draft = some renamed.alias :=
      renamed_from_eq_some.mpr
        ⟨_, renamed, hid, find_host_of_mem hdiffer hmem, rfl, halias⟩
    -- the reference of `k` is rewritten to the renamed host
    have hk'redirect : k' = { k with proxy_jump := some saved.id } := by
      have hfind := find_host_of_mem hafter.validated.hosts_differ hk'
      rw [hk'id, hother k hk (hsaved ▸ hkne)] at hfind
      simpa [redirect, hdropped, hr, hspelled] using hfind.symm
    rw [jump_id_eq hafter hk', jump_id_eq hinv hk, hk'redirect, hr, hsaved] at hjump
    simp [hrne.symm] at hjump
  · intro hcond k hk hne
    have hfind := hother k hk hne
    obtain ⟨hk', hk'id⟩ := find_host_some hfind
    refine ⟨_, hk', hk'id, ?_⟩
    rw [jump_id_eq hafter hk', jump_id_eq hinv hk]
    congr 1
    cases hr : k.proxy_jump with
    | none => rw [redirect_direct hr, hr]
    | some r =>
      unfold redirect
      split
      case isFalse => exact hr
      case isTrue hdropped =>
        obtain ⟨previous, hprevious, hspelled⟩ := (Option.any_eq_true _ _).mp hdropped
        obtain ⟨id, renamed, hid, hrenamed, rfl, halias⟩ := renamed_from_eq_some.mp hprevious
        obtain ⟨hmem, rfl⟩ := find_host_some hrenamed
        have hsaved : saved.id = renamed.id := (hupdated.id_edited _ hid).1
        -- the only reference that is rewritten is the renamed host's own id
        by_contra hrne
        refine hcond ⟨renamed, hmem, hid, halias, k, hk, hsaved ▸ hne, r, hr, fun h => hrne ?_, ?_⟩
        · rw [hsaved, h]
        · simpa [hr] using hspelled

/-! ### Two renames -/

/-- The text of the `n`-th identifier of a counting surrounding. -/
def uuid_text (n : Nat) : Text := Uuid.to_string (BitVec.ofNat 128 n)

/-- Save `gate`, `lab` with a jump to it, and a third host. -/
def save_three_hosts (third_alias : Text) : List (Env × Operation) :=
  [(Env.counting 1, .save_host (HostDraft.plain none "gate".toList none)),
   (Env.counting 2, .save_host (HostDraft.plain none "lab".toList (some "gate".toList))),
   (Env.counting 3, .save_host (HostDraft.plain none third_alias none))]

/-- Rename the third host. -/
def rename_third : HostDraft := HostDraft.plain (some (uuid_text 3)) "renamed".toList none

/-- The outcome of renaming the third host, if it succeeds. -/
def renamed_third (repo : Repository) : Option (Repository × HostProfile) :=
  match repo.save_host (Env.counting 4) rename_third with
  | (after, .ok saved) => some (after, saved)
  | (_, .error _) => none

theorem renamed_third_eq_some {repo after : Repository} {saved : HostProfile}
    (h : renamed_third repo = some (after, saved)) :
    (repo.save_host (Env.counting 4) rename_third).1 = after ∧
      (repo.save_host (Env.counting 4) rename_third).2 = .ok saved := by
  unfold renamed_third at h
  split at h
  · rename_i hsave
    obtain ⟨rfl, rfl⟩ := by simpa using h
    rw [hsave]
    exact ⟨rfl, rfl⟩
  · simp at h

/-- Renaming a host with an ordinary alias. -/
theorem rename_frames_jumps :
    ∃ (repo : Repository) (saved : HostProfile),
      (repo.save_host (Env.counting 4) rename_third).2 = .ok saved ∧
        JumpsFramed repo (repo.save_host (Env.counting 4) rename_third).1 saved := by
  obtain ⟨repo, hreach, hp⟩ := Machine.reachable_of_replay (m := repository)
    (fun _ _ => true) (fun _ _ _ => trivial) rfl (save_three_hosts "spare".toList)
    (fun repo => (renamed_third repo).isSome &&
      decide (¬ DropsAliasSpelledLikeId repo.state.hosts rename_third))
    (by decide)
  obtain ⟨hsome, hcond⟩ := by simpa using hp
  obtain ⟨⟨after, saved⟩, hrename⟩ := Option.isSome_iff_exists.mp hsome
  have hsave := (renamed_third_eq_some hrename).2
  exact ⟨repo, saved, hsave, (save_host_frames_jumps_iff hreach hsave).mpr hcond⟩

/-- Renaming a host whose alias spells the id of `gate` takes over the jump
    of `lab`. -/
theorem rename_redirects_jump :
    ∃ (repo : Repository) (saved : HostProfile), repository.Reachable repo ∧
      (repo.save_host (Env.counting 4) rename_third).2 = .ok saved ∧
        ¬ JumpsFramed repo (repo.save_host (Env.counting 4) rename_third).1 saved := by
  obtain ⟨repo, hreach, hp⟩ := Machine.reachable_of_replay (m := repository)
    (fun _ _ => true) (fun _ _ _ => trivial) rfl (save_three_hosts (uuid_text 1))
    (fun repo => (renamed_third repo).any fun (after, saved) =>
      decide (¬ JumpsFramed repo after saved))
    (by decide)
  obtain ⟨⟨after, saved⟩, hrename, hframe⟩ := (Option.any_eq_true _ _).mp hp
  obtain ⟨hafter, hsave⟩ := renamed_third_eq_some hrename
  exact ⟨repo, saved, hreach, hsave, hafter ▸ of_decide_eq_true hframe⟩

end Store
