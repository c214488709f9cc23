import RemoteDeck.Lib.Rows
import RemoteDeck.Store.Batch
import RemoteDeck.Store.JumpFrame

/-! # What a mutation accepts, a restart accepts

    The functions that apply a draft check the draft;
    `validate_persisted_state` checks the records.  This file shows
    - that a record made from an accepted draft passes the checks of a record
    - that an accepted tunnel, command or settings change leaves a state that
      is valid again, up to the limits on the number of records
    - when an accepted host change does (`JumpsStayReadable`)

    A change of a host writes ids of hosts into `proxy_jump`, where they are
    checked as SSH names are.  The ids themselves are never checked, so an id
    that no SSH name can be is accepted until it is written there.
-/

namespace Store

/-! ### Trimmed fields -/

theorem JumpReadable.none : JumpReadable none := by
  intro reference hnone
  cases hnone

theorem normalize_optional_eq_some {value : Option Text} {p : Text}
    (h : normalize_optional value = some p) :
    p.trim = p ∧ p ≠ [] ∧ ∃ raw, value = some raw ∧ p = raw.trim := by
  simp only [normalize_optional, Option.filter_eq_some_iff, Option.map_eq_some_iff] at h
  obtain ⟨⟨raw, hraw, rfl⟩, hne⟩ := h
  exact ⟨Text.trim_trim raw, by simpa using hne, raw, hraw, rfl⟩

/-- Trimming keeps a limit on the length and on the characters of a text. -/
theorem limited_trim {t : Text} {limit : Nat} {P : Char → Prop}
    (h : t.len ≤ limit ∧ ∀ c ∈ t, P c) : t.trim.len ≤ limit ∧ ∀ c ∈ t.trim, P c := by
  have htrim := Text.len_trim_le t
  exact ⟨by omega, fun c hc => h.2 c (Text.trim_subset hc)⟩

theorem limited_optional {value : Option Text} {limit : Nat} {P : Char → Prop}
    (h : ∀ t, value = some t → t.len ≤ limit ∧ ∀ c ∈ t, P c) :
    ∀ t, normalize_optional value = some t → t.len ≤ limit ∧ ∀ c ∈ t, P c := by
  intro t ht
  obtain ⟨_, _, raw, hraw, rfl⟩ := normalize_optional_eq_some ht
  exact limited_trim (h raw hraw)

theorem normalize_groups_length_le (groups : List Text) :
    (normalize_groups groups).length ≤ groups.length := by
  unfold normalize_groups
  suffices h : ∀ normalized : List Text, (groups.foldl _ normalized).length ≤
      normalized.length + groups.length by simpa using h []
  induction groups with
  | nil => simp
  | cons group groups ih =>
    intro normalized
    rw [List.foldl_cons, List.length_cons]
    refine (ih _).trans ?_
    split
    · omega
    · split
      · omega
      · rw [List.length_append, List.length_singleton]
        omega

/-! ### Replacing a record -/

section Upsert
variable {α : Type} {found : α → Bool} {change : α → α} {record y : α} {records : List α}

theorem mem_modify_first (h : y ∈ modify_first found change records) :
    y ∈ records ∨ ∃ x ∈ records, found x = true ∧ y = change x := by
  induction records with
  | nil => exact .inl h
  | cons x xs ih =>
    unfold modify_first at h
    split at h
    · next hx =>
      rcases List.mem_cons.mp h with rfl | h
      · exact .inr ⟨x, List.mem_cons_self, hx, rfl⟩
      · exact .inl (List.mem_cons_of_mem _ h)
    · rcases List.mem_cons.mp h with rfl | h
      · exact .inl List.mem_cons_self
      · rcases ih h with h | ⟨z, hz, hfound, rfl⟩
        · exact .inl (List.mem_cons_of_mem _ h)
        · exact .inr ⟨z, List.mem_cons_of_mem _ hz, hfound, rfl⟩

theorem mem_upsert (h : y ∈ upsert found record records) : y ∈ records ∨ y = record := by
  unfold upsert at h
  split at h
  · rcases mem_modify_first h with h | ⟨_, _, _, rfl⟩
    · exact .inl h
    · exact .inr rfl
  · simpa using h

/-- Records stay related to each other when one is replaced or added that is
    related to the others. -/
theorem pairwise_upsert {R : α → α → Prop} (hsymm : ∀ a b, R a b → R b a)
    (hpair : records.Pairwise R)
    (hfound : records.Pairwise fun a b => found a = true → found b = false)
    (hnew : ∀ x ∈ records, found x = false → R x record) :
    (upsert found record records).Pairwise R := by
  unfold upsert
  split
  · induction records with
    | nil => exact .nil
    | cons x xs ih =>
      obtain ⟨hx, hxs⟩ := List.pairwise_cons.mp hpair
      obtain ⟨hfx, hfxs⟩ := List.pairwise_cons.mp hfound
      obtain ⟨hnx, hnxs⟩ := List.forall_mem_cons.mp hnew
      unfold modify_first
      split
      · next hfirst =>
        refine List.pairwise_cons.mpr ⟨fun y hy => ?_, hxs⟩
        exact hsymm _ _ (hnxs y hy (hfx y hy hfirst))
      · next hfirst =>
        refine List.pairwise_cons.mpr ⟨fun y hy => ?_, ih hxs hfxs hnxs (by simp_all)⟩
        rcases mem_modify_first hy with hy | ⟨_, _, _, rfl⟩
        · exact hx y hy
        · exact hnx (by simpa using hfirst)
  · next hnone =>
    simp only [List.any_eq_true, not_exists, not_and, Bool.not_eq_true] at hnone
    refine List.pairwise_append.mpr ⟨hpair, List.pairwise_singleton _ _, fun x hx y hy => ?_⟩
    obtain rfl := List.mem_singleton.mp hy
    exact hnew x hx (hnone x hx)

/-- At most one record has an id. -/
theorem pairwise_found {id : α → Text} (h : records.Pairwise fun a b => id a ≠ id b) (x : Text) :
    records.Pairwise fun a b => decide (id a = x) = true → decide (id b = x) = false := by
  refine h.imp fun {a b} hne ha => ?_
  rw [decide_eq_true_eq] at ha
  exact decide_eq_false fun hb => hne (ha.trans hb.symm)

end Upsert

/-! ### Tunnels, saved commands and settings -/

section Changes
variable {new_uuid : Uuid} {now : Timestamp} {state state' : PersistedState}

theorem HostsDiffer.symm {a b : HostProfile} (h : HostsDiffer a b) : HostsDiffer b a :=
  ⟨h.1.symm, h.2.symm⟩

theorem TunnelsDiffer.symm {a b : TunnelProfile} (h : TunnelsDiffer a b) : TunnelsDiffer b a :=
  ⟨h.1.symm, fun hhost => (h.2 hhost.symm).symm⟩

theorem CommandsDiffer.symm {a b : CommandPreset} (h : CommandsDiffer a b) : CommandsDiffer b a :=
  ⟨h.1.symm, fun hhost => (h.2 hhost.symm).symm⟩

/-- A record that is not the edited one has another id. -/
theorem edited_id {α : Type} (id : α → Text) {draft_id : Option Text} {records : List α} {x : α}
    (hexists : ¬ (draft_id.isSome && (draft_id.bind fun i =>
      records.find? fun item => id item = i).isNone) = true)
    (hne : id x ≠ (((draft_id.bind fun i => records.find? fun item => id item = i).map id).getD
      new_uuid.to_string)) : draft_id ≠ some (id x) := by
  rintro rfl
  cases hfind : records.find? fun item => id item = id x with
  | none => simp [hfind] at hexists
  | some existing =>
    have hid : id existing = id x := by simpa using List.find?_some hfind
    simp [hfind, hid] at hne

/-- What an accepted change of a tunnel does to the state. -/
structure TunnelApplied (state state' : PersistedState) (profile : TunnelProfile) : Prop where
  state_eq : state' =
    { state with tunnels := upsert (fun item => item.id = profile.id) profile state.tunnels }
  checked : validate_tunnel_draft (TunnelDraft.of_profile profile) = .ok ()
  host : ∃ host ∈ state.hosts, host.id = profile.host_id
  differs : ∀ other ∈ state.tunnels, other.id ≠ profile.id → TunnelsDiffer other profile

theorem apply_tunnel_draft_ok {draft : TunnelDraft} {profile : TunnelProfile}
    (h : apply_tunnel_draft new_uuid now state draft = .ok (state', profile)) :
    TunnelApplied state state' profile := by
  simp only [apply_tunnel_draft, Outcome.bind_eq_ok, Outcome.ite_error_eq_ok,
    Except.ok.injEq, Prod.mk.injEq] at h
  obtain ⟨_, hdraft, hhost, hnames, hexists, rfl, rfl⟩ := h
  refine ⟨rfl, ?_, by simpa using hhost, fun other hother hne => ⟨hne, fun hsame hspelled => ?_⟩⟩
  · -- the trims of a trim are the trims of the draft
    unfold validate_tunnel_draft TunnelDraft.of_profile at *
    simp only [Text.trim_trim]
    exact hdraft
  · have hedited := edited_id TunnelProfile.id hexists hne
    simp only [List.any_eq_true, not_exists, not_and] at hnames
    have hname := hnames other hother
    simp only [Bool.and_eq_true, decide_eq_true_eq, Text.eq_ignore_ascii_case_iff] at hname
    exact hname ⟨⟨hsame, hspelled⟩, hedited⟩

/-- An accepted tunnel leaves a state that is valid within the limits. -/
theorem apply_tunnel_draft_readable {draft : TunnelDraft} {profile : TunnelProfile}
    (hvalid : Readable state)
    (h : apply_tunnel_draft new_uuid now state draft = .ok (state', profile))
    (hlimits : WithinLimits state') : Readable state' := by
  obtain ⟨rfl, hchecked, hhost, hdiffers⟩ := apply_tunnel_draft_ok h
  refine { hvalid with limits := hlimits, tunnels := ?_, tunnels_differ := ?_ }
  · intro tunnel htunnel
    rcases mem_upsert htunnel with htunnel | rfl
    · exact hvalid.tunnels tunnel htunnel
    · exact ⟨hchecked, hhost⟩
  · refine pairwise_upsert (fun _ _ => TunnelsDiffer.symm) hvalid.tunnels_differ
      (pairwise_found (hvalid.tunnels_differ.imp fun hdiffer => hdiffer.1) _) ?_
    intro other hother hne
    exact hdiffers other hother (of_decide_eq_false hne)

/-- What an accepted change of a saved command does to the state. -/
structure CommandApplied (state state' : PersistedState) (command : CommandPreset) : Prop where
  state_eq : state' = { state with
    command_presets := upsert (fun item => item.id = command.id) command state.command_presets }
  checked : validate_command_draft (CommandPresetDraft.of_preset command) = .ok ()
  host : ∀ host_id, command.host_id = some host_id → ∃ host ∈ state.hosts, host.id = host_id
  differs : ∀ other ∈ state.command_presets, other.id ≠ command.id → CommandsDiffer other command

theorem apply_command_draft_ok {draft : CommandPresetDraft} {command : CommandPreset}
    (h : apply_command_draft new_uuid now state draft = .ok (state', command)) :
    CommandApplied state state' command := by
  simp only [apply_command_draft, Outcome.bind_eq_ok, Outcome.ite_error_eq_ok,
    Except.ok.injEq, Prod.mk.injEq] at h
  obtain ⟨_, hdraft, hhost, hnames, hexists, rfl, rfl⟩ := h
  refine ⟨rfl, ?_, ?_, fun other hother hne => ⟨hne, fun hsame hspelled => ?_⟩⟩
  · have hlimits := (validate_command_draft_iff draft).mp hdraft
    rw [validate_command_draft_iff]
    refine ⟨?_, limited_trim hlimits.description, limited_trim hlimits.group, ?_,
      limited_trim hlimits.command, limited_optional hlimits.working_directory,
      limited_optional hlimits.confirmation_text⟩
    · dsimp only [CommandPresetDraft.of_preset]
      rw [Text.trim_trim]
      exact hlimits.name
    · dsimp only [CommandPresetDraft.of_preset]
      rw [Text.trim_trim]
      exact hlimits.command_nonempty
  · intro host_id hid
    have hid : draft.host_id = some host_id := hid
    simpa [hid] using hhost
  · have hedited := edited_id CommandPreset.id hexists hne
    simp only [List.any_eq_true, not_exists, not_and] at hnames
    have hname := hnames other hother
    simp only [Bool.and_eq_true, decide_eq_true_eq, Text.eq_ignore_ascii_case_iff] at hname
    exact hname ⟨⟨hsame, hspelled⟩, hedited⟩

/-- An accepted saved command leaves a state that is valid within the limits. -/
theorem apply_command_draft_readable {draft : CommandPresetDraft} {command : CommandPreset}
    (hvalid : Readable state)
    (h : apply_command_draft new_uuid now state draft = .ok (state', command))
    (hlimits : WithinLimits state') : Readable state' := by
  obtain ⟨rfl, hchecked, hhost, hdiffers⟩ := apply_command_draft_ok h
  refine { hvalid with limits := hlimits, commands := ?_, commands_differ := ?_ }
  · intro other hother
    rcases mem_upsert hother with hother | rfl
    · exact hvalid.commands other hother
    · exact ⟨hchecked, hhost⟩
  · refine pairwise_upsert (fun _ _ => CommandsDiffer.symm) hvalid.commands_differ
      (pairwise_found (hvalid.commands_differ.imp fun hdiffer => hdiffer.1) _) ?_
    intro other hother hne
    exact hdiffers other hother (of_decide_eq_false hne)

/-! ### Hosts -/

/-- A host whose record passes its checks, whatever the jump. -/
def HostValidButJump (host : HostProfile) : Prop :=
  HostDraftValid { HostDraft.of_profile host with proxy_jump := none } ∧
    validate_advanced host.advanced = .ok ()

theorem host_valid_iff (host : HostProfile) :
    (HostDraftValid (HostDraft.of_profile host) ∧ validate_advanced host.advanced = .ok ()) ↔
      HostValidButJump host ∧ JumpReadable host.proxy_jump := by
  constructor
  · rintro ⟨hdraft, hadvanced⟩
    exact ⟨⟨{ hdraft with proxy_jump := JumpReadable.none }, hadvanced⟩, hdraft.proxy_jump⟩
  · rintro ⟨⟨hdraft, hadvanced⟩, hjump⟩
    exact ⟨{ hdraft with proxy_jump := hjump }, hadvanced⟩

theorem SameButJump.valid {host host' : HostProfile} (h : SameButJump host host')
    (hvalid : HostValidButJump host) : HostValidButJump host' := by
  rw [h.fields]
  exact hvalid

theorem SameButJump.differ {a b a' b' : HostProfile} (ha : SameButJump a a')
    (hb : SameButJump b b') (h : HostsDiffer a b) : HostsDiffer a' b' := by
  unfold HostsDiffer
  rw [ha.id_eq, hb.id_eq, ha.alias_eq, hb.alias_eq]
  exact h

/-- What an accepted draft says about the host it makes, beside `DraftApplied`. -/
structure HostApplied (draft : HostDraft) (state : PersistedState) (profile : HostProfile) :
    Prop where
  valid : HostValidButJump profile
  jump_eq : profile.proxy_jump = normalize_optional draft.proxy_jump
  differs : ∀ other ∈ state.hosts, other.id ≠ profile.id → HostsDiffer other profile

theorem profile_of_draft_valid {draft : HostDraft} {existing : Option HostProfile}
    (hdraft : HostDraftValid draft)
    (hadvanced : validate_advanced (profile_of_draft new_uuid now draft existing).advanced = .ok ())
    (hidentity : draft_auth_method draft existing = .PrivateKey →
      (normalize_optional draft.identity_file).isSome = true) :
    HostValidButJump (profile_of_draft new_uuid now draft existing) := by
  have hidentity_file : ∀ path, (profile_of_draft new_uuid now draft existing).identity_file =
      some path → normalize_optional draft.identity_file = some path := by
    intro path hpath
    unfold profile_of_draft at hpath
    cases hmethod : draft_auth_method draft existing with
    | Interactive => simp [hmethod] at hpath
    | Agent => simp [hmethod] at hpath
    | PrivateKey => simpa [hmethod] using hpath
  refine ⟨⟨?_, ?_, ?_, hdraft.port, ?_, ?_, JumpReadable.none, ?_, ?_⟩, hadvanced⟩
  · have halias := hdraft.host_alias
    rwa [← Text.trim_trim draft.alias] at halias
  · have hhost := hdraft.hostname
    rwa [← Text.trim_trim draft.hostname] at hhost
  · have huser := hdraft.username
    rwa [← Text.trim_trim draft.username] at huser
  · intro path hpath
    exact limited_optional hdraft.identity_file path (hidentity_file path hpath)
  · intro hmethod
    have hmethod : draft_auth_method draft existing = .PrivateKey := Option.some.inj hmethod
    obtain ⟨path, hpath⟩ := Option.isSome_iff_exists.mp (hidentity hmethod)
    obtain ⟨htrim, hne, _⟩ := normalize_optional_eq_some hpath
    refine ⟨path, ?_, by rwa [htrim]⟩
    simp [HostDraft.of_profile, profile_of_draft, hmethod, hpath]
  · intro path hpath
    obtain rfl := Option.some.inj hpath
    cases hworkspace : normalize_optional draft.default_workspace with
    | none =>
      have hhome : Text.len ['~'] ≤ 4096 ∧ ∀ c ∈ ['~'], c ≠ '\x00' := by
        have hlen : Text.len ['~'] = 1 := rfl
        refine ⟨by omega, fun c hc => ?_⟩
        obtain rfl := List.mem_singleton.mp hc
        decide
      simpa [HostDraft.of_profile, profile_of_draft, hworkspace] using hhome
    | some workspace =>
      have hlimits := limited_optional hdraft.default_workspace workspace hworkspace
      simpa [HostDraft.of_profile, profile_of_draft, hworkspace] using hlimits
  · exact (normalize_groups_length_le draft.groups).trans hdraft.groups

theorem apply_host_draft_applied {draft : HostDraft} {profile : HostProfile}
    (h : apply_host_draft new_uuid now state draft = .ok (state', profile)) :
    HostApplied draft state profile := by
  have happlied := apply_host_draft_ok h
  simp only [apply_host_draft, Outcome.bind_eq_ok, Outcome.ite_error_eq_ok,
    Except.ok.injEq, Prod.mk.injEq] at h
  obtain ⟨_, hdraft, hnames, hexists, _, hadvanced, hidentity, _, rfl⟩ := h
  refine ⟨profile_of_draft_valid ((validate_host_draft_iff draft).mp hdraft) hadvanced ?_, rfl, ?_⟩
  · intro hmethod
    by_contra hnone
    refine hidentity ?_
    simpa [profile_of_draft, hmethod] using hnone
  · intro other hother hne
    refine ⟨hne, fun hspelled => ?_⟩
    have hedited : draft.id ≠ some other.id := by
      intro hid
      exact hne (happlied.id_edited other.id hid).1.symm
    simp only [List.any_eq_true, not_exists, not_and] at hnames
    have hname := hnames other hother
    simp only [Bool.and_eq_true, decide_eq_true_eq, Text.eq_ignore_ascii_case_iff] at hname
    exact hname ⟨hspelled, hedited⟩

/-! ### What a host change writes as a jump -/

/-- A jump spells an alias that is dropped. -/
def spells_dropped (dropped jump : Option Text) : Bool :=
  dropped.any fun previous => jump.any fun reference => reference.eq_ignore_ascii_case previous

/-- The reference that the jump of the changed host is resolved from. -/
def settled_reference (hosts : List HostProfile) (draft : HostDraft) : Option Text :=
  if spells_dropped (renamed_from hosts draft) (normalize_optional draft.proxy_jump) then draft.id
  else normalize_optional draft.proxy_jump

/-- The hosts that a draft does not edit. -/
def other_hosts (hosts : List HostProfile) (draft : HostDraft) : List HostProfile :=
  hosts.filter fun host => draft.id ≠ some host.id

/-- The ids that a host change writes as jumps are readable as jumps. -/
structure JumpsStayReadable (hosts : List HostProfile) (draft : HostDraft) : Prop where
  own : ∀ jump, resolve_proxy_reference (other_hosts hosts draft) (settled_reference hosts draft) =
    .ok (some jump) → JumpReadable (some jump.id)
  redirected : ∀ dependent ∈ other_hosts hosts draft,
    spells_dropped (renamed_from hosts draft) dependent.proxy_jump = true → JumpReadable draft.id

theorem redirect_same (dropped : Option Text) (host_id : Text) (host : HostProfile) :
    SameButJump host (redirect dropped host_id host) := by
  unfold redirect
  split
  · next hspells =>
    obtain ⟨_, _, hspells⟩ := (Option.any_eq_true _ _).mp hspells
    obtain ⟨reference, hreference, _⟩ := (Option.any_eq_true _ _).mp hspells
    exact ⟨rfl, by rw [hreference]; rfl⟩
  · exact .refl host

theorem redirect_proxy_jump (dropped : Option Text) (host_id : Text) (host : HostProfile) :
    (redirect dropped host_id host).proxy_jump =
      if spells_dropped dropped host.proxy_jump then some host_id else host.proxy_jump := by
  unfold redirect spells_dropped
  split <;> rfl

theorem forall₂_pairwise {α : Type} {R S : α → α → Prop} {xs ys : List α}
    (h : List.Forall₂ R xs ys) (hS : ∀ a b a' b', R a a' → R b b' → S a b → S a' b')
    (hpair : xs.Pairwise S) : ys.Pairwise S := by
  induction h with
  | nil => exact .nil
  | @cons x y xs ys hxy hrest ih =>
    obtain ⟨hx, hxs⟩ := List.pairwise_cons.mp hpair
    refine List.pairwise_cons.mpr ⟨fun b' hb' => ?_, ih hxs⟩
    obtain ⟨b, hb, hbb'⟩ : ∃ b ∈ xs, R b b' := by
      clear ih hxs hx hpair hxy
      induction hrest with
      | nil => cases hb'
      | @cons a a' _ _ haa' _ ih =>
        rcases List.mem_cons.mp hb' with rfl | hb'
        · exact ⟨a, List.mem_cons_self, haa'⟩
        · obtain ⟨b, hb, hbb'⟩ := ih hb'
          exact ⟨b, List.mem_cons_of_mem _ hb, hbb'⟩
    exact hS _ _ _ _ hxy hbb' (hx b hb)

/-- What an accepted host change does to the hosts, found by their ids. -/
structure HostSettled (new_uuid : Uuid) (draft : HostDraft) (state state' : PersistedState)
    (profile : HostProfile) (jump : Option Text) : Prop where
  applied : HostApplied draft state profile
  id_new : draft.id = none → profile.id = new_uuid.to_string
  id_edited : ∀ id, draft.id = some id → profile.id = id
  state_eq : state' = { state with hosts := state'.hosts }
  differ : state'.hosts.Pairwise HostsDiffer
  find : ∀ x, find_host state'.hosts x =
    if x = profile.id then
      some { redirect (renamed_from state.hosts draft) profile.id profile with proxy_jump := jump }
    else (find_host state.hosts x).map (redirect (renamed_from state.hosts draft) profile.id)
  settles : SettlesTo ((upsert (fun host => host.id = profile.id) profile state.hosts).map
      (redirect (renamed_from state.hosts draft) profile.id)) profile.id
    (redirect (renamed_from state.hosts draft) profile.id profile) jump

theorem apply_host_update_settled {draft : HostDraft} {saved : HostProfile}
    (hdiffer : state.hosts.Pairwise HostsDiffer)
    (h : apply_host_update new_uuid now state draft = .ok (state', saved)) :
    ∃ profile jump, HostSettled new_uuid draft state state' profile jump := by
  simp only [apply_host_update, Outcome.bind_eq_ok, Except.ok.injEq, Prod.mk.injEq,
    Prod.exists] at h
  obtain ⟨applied, profile, hdraft, hosts, hnorm, _, _, rfl, _⟩ := h
  have hd := apply_host_draft_ok hdraft
  have ha := apply_host_draft_applied hdraft
  obtain ⟨host, jump, hsettles, rfl⟩ := normalize_proxy_jump_for_iff.mp hnorm
  obtain rfl := hd.state_eq
  rw [hd.alias_eq] at hsettles ⊢
  change SettlesTo (List.map (redirect (renamed_from state.hosts draft) profile.id) _) _ _ _
    at hsettles
  have hhost : host = redirect (renamed_from state.hosts draft) profile.id profile := by
    have hfind := hsettles.1
    rw [find_host_map (redirect_id _ _), find_host_upsert, if_pos rfl] at hfind
    exact (Option.some.inj hfind).symm
  subst hhost
  refine ⟨profile, jump, ha, hd.id_new, fun id hid => (hd.id_edited id hid).1, rfl, ?_, ?_,
    hsettles⟩
  · have hpair : (upsert (fun host => host.id = profile.id) profile state.hosts).Pairwise
        HostsDiffer := pairwise_upsert (fun _ _ => HostsDiffer.symm) hdiffer
      (pairwise_found (hdiffer.imp fun hdiffer => hdiffer.1) profile.id)
      fun other hother hne => ha.differs other hother (of_decide_eq_false hne)
    have hredirected := forall₂_pairwise (S := HostsDiffer) (List.forall₂_map_right_iff.mpr
      (List.forall₂_same.mpr fun host _ => redirect_same (renamed_from state.hosts draft)
        profile.id host)) (fun _ _ _ _ => SameButJump.differ) hpair
    exact forall₂_pairwise hsettles.same (fun _ _ _ _ => SameButJump.differ) hredirected
  · intro x
    have hset := @find_host_modify_first (List.map (redirect (renamed_from state.hosts draft)
      profile.id) (upsert (fun host => host.id = profile.id) profile state.hosts))
      (fun host => { host with proxy_jump := jump }) profile.id (fun _ h => h) x
    refine hset.trans ?_
    rw [find_host_map (redirect_id _ _), find_host_upsert]
    by_cases hx : x = profile.id
    · rw [if_pos hx, if_pos hx, if_pos hx]
      rfl
    · rw [if_neg hx, if_neg hx, if_neg hx]

theorem find_filter_of_some {α : Type} {p q : α → Bool} {xs : List α} {x : α}
    (h : xs.find? p = some x) (hq : q x = true) : (xs.filter q).find? p = some x := by
  rw [List.find?_filter]
  rw [List.find?_eq_some_iff_append] at h ⊢
  obtain ⟨hp, before, after, rfl, hbefore⟩ := h
  refine ⟨by simp [hp, hq], before, after, rfl, fun y hy => ?_⟩
  have hy := hbefore y hy
  rw [Bool.not_eq_true'] at hy ⊢
  simp [hy]

/-- A reference resolves to the same host where others are left out. -/
theorem resolve_filter {hosts : List HostProfile} {reference : Option Text} {jump : HostProfile}
    (keep : HostProfile → Bool) (hkeep : keep jump = true)
    (h : resolve_proxy_reference hosts reference = .ok (some jump)) :
    resolve_proxy_reference (hosts.filter keep) reference = .ok (some jump) := by
  have hnone : ∀ p : HostProfile → Bool, hosts.find? p = none →
      (hosts.filter keep).find? p = none := by
    intro p hp
    rw [List.find?_eq_none] at hp ⊢
    exact fun host hhost => hp host (List.mem_filter.mp hhost).1
  unfold resolve_proxy_reference find_host at h ⊢
  cases hreference : normalize_optional reference with
  | none =>
    rw [hreference] at h
    cases h
  | some text =>
    rw [hreference] at h
    dsimp only at h ⊢
    cases hid : hosts.find? fun host => host.id = text with
    | some found =>
      rw [hid] at h
      obtain rfl := Option.some.inj (Except.ok.inj h)
      rw [find_filter_of_some hid hkeep]
    | none =>
      rw [hid] at h
      rw [hnone _ hid]
      dsimp only at h ⊢
      cases hname : hosts.find? fun host => host.alias.eq_ignore_ascii_case text with
      | some found =>
        rw [hname] at h
        obtain rfl := Option.some.inj (Except.ok.inj h)
        rw [find_filter_of_some hname hkeep]
      | none =>
        rw [hname] at h
        rw [hnone _ hname]
        dsimp only at h ⊢
        rw [List.filter_comm]
        generalize hosts.filter _ = found at h ⊢
        cases found with
        | nil => cases h
        | cons host more =>
          cases more with
          | nil =>
            obtain rfl := Option.some.inj (Except.ok.inj h)
            rw [List.filter_cons_of_pos hkeep, List.filter_nil]
          | cons _ _ => cases h

theorem filter_upsert {α : Type} {found keep : α → Bool} {record : α} {records : List α}
    (hrecord : keep record = false) (hkeep : ∀ x ∈ records, found x = true → keep x = false) :
    (upsert found record records).filter keep = records.filter keep := by
  unfold upsert
  split
  · induction records with
    | nil => rfl
    | cons x xs ih =>
      obtain ⟨hx, hxs⟩ := List.forall_mem_cons.mp hkeep
      unfold modify_first
      split
      · next hfound =>
        have hdrop : ¬ keep x = true := by rw [hx hfound]; exact Bool.false_ne_true
        rw [List.filter_cons_of_neg (by rw [hrecord]; exact Bool.false_ne_true),
          List.filter_cons_of_neg hdrop]
      · next hfound =>
        have hrest := ih hxs (by simp_all)
        rw [List.filter_cons, List.filter_cons, hrest]
  · rw [List.filter_append, List.filter_cons_of_neg (by rw [hrecord]; exact Bool.false_ne_true),
      List.filter_nil, List.append_nil]

section Settled
variable {draft : HostDraft} {profile : HostProfile} {jump : Option Text}

theorem HostSettled.not_edited (h : HostSettled new_uuid draft state state' profile jump)
    (hfresh : draft.id = none → ∀ host ∈ state.hosts, host.id ≠ new_uuid.to_string)
    {host : HostProfile} (hmem : host ∈ state.hosts) :
    draft.id ≠ some host.id ↔ host.id ≠ profile.id := by
  cases hid : draft.id with
  | none =>
    rw [h.id_new hid]
    exact ⟨fun _ => hfresh hid host hmem, fun _ => by simp⟩
  | some id =>
    rw [h.id_edited id hid, ne_eq, Option.some.injEq, ne_comm]

/-- The reference that is resolved is the one of the draft, or the id that
    replaced it. -/
theorem HostSettled.reference (h : HostSettled new_uuid draft state state' profile jump) :
    (redirect (renamed_from state.hosts draft) profile.id profile).proxy_jump =
      settled_reference state.hosts draft := by
  rw [redirect_proxy_jump, h.applied.jump_eq]
  unfold settled_reference
  split
  · next hspells =>
    obtain ⟨previous, hprevious, _⟩ := (Option.any_eq_true _ _).mp hspells
    obtain ⟨id, _, hid, _⟩ := renamed_from_eq_some.mp hprevious
    rw [hid, h.id_edited id hid]
  · rfl

/-- The jump is the id of one of the hosts that the draft does not edit. -/
theorem HostSettled.jump_eq (h : HostSettled new_uuid draft state state' profile jump)
    (hfresh : draft.id = none → ∀ host ∈ state.hosts, host.id ≠ new_uuid.to_string) :
    (settled_reference state.hosts draft = none ∧ jump = none) ∨
      ∃ target, resolve_proxy_reference (other_hosts state.hosts draft)
        (settled_reference state.hosts draft) = .ok (some target) ∧ jump = some target.id := by
  have hsettles := h.settles.2
  rw [h.reference] at hsettles
  cases hreference : settled_reference state.hosts draft with
  | none =>
    rw [hreference] at hsettles
    exact .inl ⟨rfl, hsettles⟩
  | some reference =>
    rw [hreference] at hsettles
    obtain ⟨resolved, _, hresolve, _, hself, _, rfl⟩ := hsettles
    -- before the dependents were redirected, the same host is found
    have hredirected := List.forall₂_map_left_iff.mpr (List.forall₂_same.mpr fun host
      (_ : host ∈ upsert (fun host => host.id = profile.id) profile state.hosts) =>
        (redirect_same (renamed_from state.hosts draft) profile.id host).symm)
    obtain ⟨target, hsame, htarget⟩ := resolve_same hredirected hresolve
    have hfilter := resolve_filter (fun host => host.id ≠ profile.id)
      (by rw [hsame.id_eq]; exact decide_eq_true hself) htarget
    rw [filter_upsert (by simp) (by simp)] at hfilter
    have hothers : other_hosts state.hosts draft =
        state.hosts.filter fun host => host.id ≠ profile.id := by
      refine List.filter_congr fun host hmem => ?_
      rw [decide_eq_decide]
      exact h.not_edited hfresh hmem
    refine .inr ⟨target, ?_, by rw [hsame.id_eq]⟩
    rw [hothers]
    exact hfilter

theorem HostSettled.jumps_iff (h : HostSettled new_uuid draft state state' profile jump)
    (hvalid : Readable state)
    (hfresh : draft.id = none → ∀ host ∈ state.hosts, host.id ≠ new_uuid.to_string) :
    (∀ host ∈ state'.hosts, JumpReadable host.proxy_jump) ↔
      JumpsStayReadable state.hosts draft := by
  have hchanged := h.find profile.id
  rw [if_pos rfl] at hchanged
  have hold : ∀ host ∈ state.hosts, host.id ≠ profile.id → find_host state'.hosts host.id =
      some (redirect (renamed_from state.hosts draft) profile.id host) := by
    intro host hmem hne
    rw [h.find, if_neg hne, find_host_of_mem hvalid.hosts_differ hmem, Option.map_some]
  constructor
  · intro hreadable
    constructor
    · intro target htarget
      rcases h.jump_eq hfresh with ⟨hnone, _⟩ | ⟨found, hfound, rfl⟩
      · rw [hnone, resolve_proxy_reference_none] at htarget
        cases htarget
      · obtain rfl := Option.some.inj (Except.ok.inj (hfound.symm.trans htarget))
        exact hreadable _ (find_host_some hchanged).1
    · intro dependent hdependent hspells
      obtain ⟨hmem, hne⟩ := List.mem_filter.mp hdependent
      have hne := (h.not_edited hfresh hmem).mp (of_decide_eq_true hne)
      obtain ⟨previous, hprevious, _⟩ := (Option.any_eq_true _ _).mp hspells
      obtain ⟨id, _, hid, _⟩ := renamed_from_eq_some.mp hprevious
      have hjump := hreadable _ (find_host_some (hold dependent hmem hne)).1
      rw [redirect_proxy_jump, if_pos hspells, h.id_edited id hid, ← hid] at hjump
      exact hjump
  · intro hstay host' hmem'
    have hfind := h.find host'.id
    rw [find_host_of_mem h.differ hmem'] at hfind
    split at hfind
    · obtain rfl := Option.some.inj hfind
      rcases h.jump_eq hfresh with ⟨_, rfl⟩ | ⟨target, htarget, rfl⟩
      · exact JumpReadable.none
      · exact hstay.own target htarget
    · next hne =>
      obtain ⟨host, hfound, rfl⟩ := Option.map_eq_some_iff.mp hfind.symm
      have hmem := (find_host_some hfound).1
      rw [redirect_id] at hne
      rw [redirect_proxy_jump]
      split
      · next hspells =>
        obtain ⟨previous, hprevious, _⟩ := (Option.any_eq_true _ _).mp hspells
        obtain ⟨id, _, hid, _⟩ := renamed_from_eq_some.mp hprevious
        have hdependent : host ∈ other_hosts state.hosts draft :=
          List.mem_filter.mpr ⟨hmem, decide_eq_true ((h.not_edited hfresh hmem).mpr hne)⟩
        have hjump := hstay.redirected host hdependent hspells
        rwa [hid, ← h.id_edited id hid] at hjump
      · exact ((host_valid_iff host).mp (hvalid.hosts host hmem)).2

/-- An accepted host leaves a state that is valid within the limits, if the
    jumps that it writes are readable. -/
theorem HostSettled.readable_iff (h : HostSettled new_uuid draft state state' profile jump)
    (hvalid : Readable state)
    (hfresh : draft.id = none → ∀ host ∈ state.hosts, host.id ≠ new_uuid.to_string)
    (hlimits : WithinLimits state') :
    Readable state' ↔ JumpsStayReadable state.hosts draft := by
  rw [← h.jumps_iff hvalid hfresh]
  constructor
  · intro hreadable host hmem
    exact ((host_valid_iff host).mp (hreadable.hosts host hmem)).2
  · intro hjumps
    have hkept : ∀ host ∈ state.hosts, ∃ host' ∈ state'.hosts, host'.id = host.id := by
      intro host hmem
      have hfind := h.find host.id
      rw [find_host_of_mem hvalid.hosts_differ hmem] at hfind
      split at hfind
      · exact ⟨_, find_host_some hfind⟩
      · exact ⟨_, find_host_some hfind⟩
    have hexists : ∀ id : Text, (∃ host ∈ state.hosts, host.id = id) →
        ∃ host ∈ state'.hosts, host.id = id := by
      rintro id ⟨host, hmem, rfl⟩
      exact hkept host hmem
    rw [h.state_eq] at hlimits ⊢
    refine { hvalid with
      limits := hlimits, hosts := ?_, hosts_differ := h.differ, tunnels := ?_, commands := ?_ }
    · intro host' hmem'
      refine (host_valid_iff host').mpr ⟨?_, hjumps host' hmem'⟩
      have hfind := h.find host'.id
      rw [find_host_of_mem h.differ hmem'] at hfind
      split at hfind
      · obtain rfl := Option.some.inj hfind
        exact (redirect_same _ _ profile).valid h.applied.valid
      · obtain ⟨host, hfound, rfl⟩ := Option.map_eq_some_iff.mp hfind.symm
        have hhost := hvalid.hosts host (find_host_some hfound).1
        exact (redirect_same _ _ host).valid ((host_valid_iff host).mp hhost).1
    · intro tunnel htunnel
      obtain ⟨hdraft, hhost⟩ := hvalid.tunnels tunnel htunnel
      exact ⟨hdraft, hexists _ hhost⟩
    · intro command hcommand
      obtain ⟨hdraft, hhost⟩ := hvalid.commands command hcommand
      exact ⟨hdraft, fun host_id hid => hexists _ (hhost host_id hid)⟩

end Settled

/-- What a change accepts, a restart accepts, if the jumps that it writes are
    readable. -/
theorem accepted_is_readable (hvalid : validate_persisted_state state = .ok ()) :
    (∀ draft state' saved, apply_host_update new_uuid now state draft = .ok (state', saved) →
      (draft.id = none → ∀ host ∈ state.hosts, host.id ≠ new_uuid.to_string) →
      WithinLimits state' →
      (validate_persisted_state state' = .ok () ↔ JumpsStayReadable state.hosts draft)) ∧
    (∀ draft state' saved, apply_tunnel_draft new_uuid now state draft = .ok (state', saved) →
      WithinLimits state' → validate_persisted_state state' = .ok ()) ∧
    (∀ draft state' saved, apply_command_draft new_uuid now state draft = .ok (state', saved) →
      WithinLimits state' → validate_persisted_state state' = .ok ()) ∧
    ∀ patch settings, apply_settings_patch state.settings patch = .ok settings →
      validate_persisted_state { state with settings := settings } = .ok () := by
  have hreadable := (validate_persisted_state_iff state).mp hvalid
  refine ⟨?_, ?_, ?_, ?_⟩
  · intro draft state' saved h hfresh hlimits
    obtain ⟨profile, jump, hsettled⟩ := apply_host_update_settled hreadable.hosts_differ h
    rw [validate_persisted_state_iff]
    exact hsettled.readable_iff hreadable hfresh hlimits
  · intro draft state' saved h hlimits
    rw [validate_persisted_state_iff]
    exact apply_tunnel_draft_readable hreadable h hlimits
  · intro draft state' saved h hlimits
    rw [validate_persisted_state_iff]
    exact apply_command_draft_readable hreadable h hlimits
  · -- the settings are not read
    intro patch settings _
    exact hvalid

end Changes

/-! ### A host that is jumped through -/

/-- A state with one host. -/
def gate_state (host_id : Text) : PersistedState :=
  { PersistedState.default with
    hosts := [{ profile_of_draft 1 0 (HostDraft.plain none "gate".toList none) none with
      id := host_id }] }

def lab_draft : HostDraft := HostDraft.plain none "lab".toList (some "gate".toList)

/-- The state where the draft was applied. -/
def lab_state (host_id : Text) : PersistedState :=
  { gate_state host_id with
    hosts := (gate_state host_id).hosts ++
      [{ profile_of_draft 2 0 lab_draft none with proxy_jump := some host_id }] }

theorem accepted_is_readable_lab :
    validate_persisted_state (lab_state (Uuid.to_string 1)) = .ok () ↔
      JumpsStayReadable (gate_state (Uuid.to_string 1)).hosts lab_draft := by
  have happly : apply_host_update 2 0 (gate_state (Uuid.to_string 1)) lab_draft =
      .ok (lab_state (Uuid.to_string 1), { profile_of_draft 2 0 lab_draft none with
        proxy_jump := some (Uuid.to_string 1) }) := rfl
  refine (accepted_is_readable rfl).1 lab_draft _ _ happly (fun _ => by decide) ?_
  exact ⟨by decide, by decide, by decide, by decide⟩

/-- An id with a space is accepted as the id of a host, and as what a jump
    becomes, but not as the jump of a host. -/
theorem spaced_id_is_written :
    validate_persisted_state (gate_state "my host".toList) = .ok () ∧
      ∃ saved, apply_host_update 2 0 (gate_state "my host".toList) lab_draft =
          .ok (lab_state "my host".toList, saved) ∧
        WithinLimits (lab_state "my host".toList) ∧
        validate_persisted_state (lab_state "my host".toList) =
          .error (.State ("persisted host at index 1 is invalid: ".toList ++
            "invalid input: ProxyJump is invalid".toList)) := by
  refine ⟨rfl, _, rfl, ⟨by decide, by decide, by decide, by decide⟩, rfl⟩

end Store
