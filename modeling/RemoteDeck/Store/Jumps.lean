import RemoteDeck.Store.Repository

/-! # Jump references

    What the functions that resolve, normalize and check a `proxy_jump`
    establish.  Hosts are looked up by id throughout, so a list of hosts
    counts as the map `find_host hosts`.

    `JumpResolved` is the property of one host; a pass over imported hosts
    (`settle_proxy_jumps`) and the update of one host establish it for the
    hosts they touch and keep it for the others.
-/

namespace Store

/-! ### Identifiers -/

section Characters

variable {P : Char → Prop}

theorem hex_digits_forall (hdigit : ∀ d < 16, P (Nat.digitChar d)) (width n : Nat) :
    ∀ c ∈ hex_digits width n, P c := by
  induction width generalizing n with
  | zero => simp [hex_digits]
  | succ width ih =>
    intro c hc
    rcases List.mem_append.mp hc with hc | hc
    · exact ih _ c hc
    · rw [List.mem_singleton.mp hc]
      exact hdigit _ (Nat.mod_lt _ (by decide))

/-- The text of an identifier has hexadecimal digits and dashes only. -/
theorem uuid_forall (hdigit : ∀ d < 16, P (Nat.digitChar d)) (hdash : P '-') (uuid : Uuid) :
    ∀ c ∈ uuid.to_string, P c := by
  intro c hc
  simp only [Uuid.to_string, List.mem_append, List.mem_cons] at hc
  rcases hc with ((((hc | rfl | hc) | rfl | hc) | rfl | hc) | rfl | hc) <;>
    first
    | exact hdash
    | exact hex_digits_forall hdigit _ _ c hc

end Characters

theorem uuid_word (uuid : Uuid) : ∀ c ∈ uuid.to_string, Text.is_whitespace c = false :=
  uuid_forall (by decide) (by decide) uuid

theorem uuid_ne_nil (uuid : Uuid) : uuid.to_string ≠ [] := by
  simp [Uuid.to_string]

theorem normalize_optional_uuid (uuid : Uuid) :
    normalize_optional (some uuid.to_string) = some uuid.to_string := by
  simp [normalize_optional, Text.trim_eq_self (uuid_word uuid), uuid_ne_nil]

/-! ### Sound records -/

/-- A host record as the repository makes them: its id is the text of an
    identifier, and it has an identity file iff it authenticates with one. -/
structure HostSound (host : HostProfile) : Prop where
  id_uuid : ∃ uuid : Uuid, host.id = uuid.to_string
  identity : host.identity_file.isSome = true ↔ host.auth_method = .PrivateKey

def HostsSound (hosts : List HostProfile) : Prop := ∀ host ∈ hosts, HostSound host

/-- Changing the jump reference keeps a record sound. -/
theorem HostSound.with_jump {host : HostProfile} (h : HostSound host) (jump : Option Text) :
    HostSound { host with proxy_jump := jump } :=
  ⟨h.id_uuid, h.identity⟩

theorem HostsSound.find {hosts : List HostProfile} (h : HostsSound hosts) {id : Text}
    {host : HostProfile} (hfind : find_host hosts id = some host) :
    normalize_optional (some id) = some id := by
  obtain ⟨hmem, rfl⟩ := find_host_some hfind
  obtain ⟨uuid, huuid⟩ := (h host hmem).id_uuid
  rw [huuid]
  exact normalize_optional_uuid uuid

theorem HostsSound.map {hosts : List HostProfile} (h : HostsSound hosts)
    {change : HostProfile → HostProfile} (hchange : ∀ host, HostSound host → HostSound (change host)) :
    HostsSound (hosts.map change) := by
  intro host hmem
  obtain ⟨old, hold, rfl⟩ := List.mem_map.mp hmem
  exact hchange old (h old hold)

theorem HostsSound.modify_first {hosts : List HostProfile} (h : HostsSound hosts)
    {found : HostProfile → Bool} {change : HostProfile → HostProfile}
    (hchange : ∀ host, HostSound host → HostSound (change host)) :
    HostsSound (modify_first found change hosts) := by
  induction hosts with
  | nil => exact h
  | cons first rest ih =>
    obtain ⟨hfirst, hrest⟩ := List.forall_mem_cons.mp h
    unfold Store.modify_first
    split
    · exact List.forall_mem_cons.mpr ⟨hchange first hfirst, hrest⟩
    · exact List.forall_mem_cons.mpr ⟨hfirst, ih hrest⟩

theorem HostsSound.upsert {hosts : List HostProfile} (h : HostsSound hosts)
    {found : HostProfile → Bool} {host : HostProfile} (hhost : HostSound host) :
    HostsSound (upsert found host hosts) := by
  unfold Store.upsert
  split
  · exact h.modify_first fun _ _ => hhost
  · intro other hmem
    rcases List.mem_append.mp hmem with hmem | hmem
    · exact h other hmem
    · exact List.mem_singleton.mp hmem ▸ hhost

/-! ### Resolution -/

/-- `r` names a host other than `x` that connects directly. -/
def JumpTarget (hosts : List HostProfile) (x r : Text) : Prop :=
  r ≠ x ∧ ∃ jump, find_host hosts r = some jump ∧ jump.proxy_jump = none

/-- The jump of host `x`, if it has one, is the id of another host that
    connects directly. -/
def JumpResolved (hosts : List HostProfile) (x : Text) : Prop :=
  ∀ host r, find_host hosts x = some host → host.proxy_jump = some r → JumpTarget hosts x r

theorem resolve_proxy_reference_mem {hosts : List HostProfile} {reference : Option Text}
    {host : HostProfile} (h : resolve_proxy_reference hosts reference = .ok (some host)) :
    host ∈ hosts := by
  unfold resolve_proxy_reference at h
  split at h
  · simp at h
  · split at h
    case h_1 found hfound =>
      simp only [Except.ok.injEq, Option.some.injEq] at h
      exact h ▸ (find_host_some hfound).1
    case h_2 =>
      split at h
      case h_1 found hfound =>
        simp only [Except.ok.injEq, Option.some.injEq] at h
        exact h ▸ List.mem_of_find?_eq_some hfound
      case h_2 =>
        split at h
        · simp at h
        · rename_i found hfilter
          simp only [Except.ok.injEq, Option.some.injEq] at h
          subst h
          exact (List.mem_filter.mp (hfilter ▸ List.mem_singleton_self found)).1
        · simp at h

/-- An id resolves to the host that has it. -/
theorem resolve_proxy_reference_id {hosts : List HostProfile} {id : Text} {host : HostProfile}
    (hid : normalize_optional (some id) = some id) (hfind : find_host hosts id = some host) :
    resolve_proxy_reference hosts (some id) = .ok (some host) := by
  simp [resolve_proxy_reference, hid, hfind]

/-- A host without a jump resolves to no host. -/
theorem resolve_proxy_reference_none (hosts : List HostProfile) :
    resolve_proxy_reference hosts none = .ok none := by
  simp [resolve_proxy_reference, normalize_optional]

/-- A resolved jump resolves, to the host it names. -/
theorem resolve_proxy_jump_resolved {hosts : List HostProfile} (hsound : HostsSound hosts)
    {x : Text} {host : HostProfile} (hfind : find_host hosts x = some host)
    (hresolved : JumpResolved hosts x) :
    resolve_proxy_jump hosts host = .ok (host.proxy_jump.bind (find_host hosts)) := by
  cases hjump : host.proxy_jump with
  | none => simp [resolve_proxy_jump, hjump, resolve_proxy_reference_none]
  | some r =>
    obtain ⟨hne, jump, htarget, hdirect⟩ := hresolved host r hfind hjump
    have hr := resolve_proxy_reference_id (hsound.find htarget) htarget
    have hself : jump.id ≠ host.id := by
      rw [(find_host_some htarget).2, (find_host_some hfind).2]
      exact hne
    simp [resolve_proxy_jump, hjump, hr, hself, hdirect, htarget]

/-- The id of a host matches it. -/
theorem proxy_reference_matches_id {id : Text} {host : HostProfile}
    (hid : normalize_optional (some id) = some id) (h : host.id = id) :
    proxy_reference_matches_host (some id) host = true := by
  have htrim : id.trim = id := by
    simp only [normalize_optional, Option.map_some, Option.filter_eq_some_iff,
      Option.some.injEq] at hid
    exact hid.1
  simp [proxy_reference_matches_host, htrim, h]

/-! ### Normalization -/

/-- What normalizing the jumps of the hosts `ids` does to a list of hosts. -/
structure Normalized (ids : List Text) (hosts hosts' : List HostProfile) : Prop where
  others : ∀ x ∉ ids, find_host hosts' x = find_host hosts x
  direct : ∀ x host, find_host hosts x = some host → host.proxy_jump = none →
    find_host hosts' x = some host
  resolved : ∀ x ∈ ids, JumpResolved hosts' x
  sound : HostsSound hosts → HostsSound hosts'

/-- Hosts whose jumps are resolved need no normalization. -/
theorem Normalized.self {ids : List Text} {hosts : List HostProfile}
    (h : ∀ x ∈ ids, JumpResolved hosts x) : Normalized ids hosts hosts where
  others := fun _ _ => rfl
  direct := fun _ _ hfind _ => hfind
  resolved := h
  sound := id

/-- A jump target stays one. -/
theorem Normalized.target {ids : List Text} {hosts hosts' : List HostProfile}
    (h : Normalized ids hosts hosts') {x r : Text} (ht : JumpTarget hosts x r) :
    JumpTarget hosts' x r := by
  obtain ⟨hne, jump, hfind, hdirect⟩ := ht
  exact ⟨hne, jump, h.direct r jump hfind hdirect, hdirect⟩

theorem Normalized.append {ids ids' : List Text} {a b c : List HostProfile}
    (hab : Normalized ids a b) (hbc : Normalized ids' b c) : Normalized (ids ++ ids') a c where
  others := fun x hx => by
    rw [List.mem_append, not_or] at hx
    rw [hbc.others x hx.2, hab.others x hx.1]
  direct := fun x host hfind hdirect =>
    hbc.direct x host (hab.direct x host hfind hdirect) hdirect
  resolved := fun x hx => by
    by_cases hx' : x ∈ ids'
    · exact hbc.resolved x hx'
    · intro host r hfind hjump
      rw [hbc.others x hx'] at hfind
      have hmem : x ∈ ids := (List.mem_append.mp hx).resolve_right hx'
      exact hbc.target (hab.resolved x hmem host r hfind hjump)
  sound := fun h => hbc.sound (hab.sound h)

theorem normalize_proxy_jump_for_ok {hosts hosts' : List HostProfile} {x : Text}
    (h : normalize_proxy_jump_for hosts x = .ok hosts') : Normalized [x] hosts hosts' := by
  obtain ⟨host, hhost, h⟩ := Outcome.bind_eq_ok.mp h
  rw [Option.ok_or_eq_ok] at hhost
  cases hjump : host.proxy_jump with
  | none =>
    simp only [hjump, Except.ok.injEq] at h
    subst h
    refine Normalized.self fun y hy host' r hfind hsome => ?_
    rw [List.mem_singleton.mp hy, hhost, Option.some.injEq] at hfind
    rw [← hfind, hjump] at hsome
    simp at hsome
  | some reference =>
    simp only [hjump, Outcome.bind_eq_ok, Option.ok_or_eq_ok, Outcome.ite_error_eq_ok,
      Except.ok.injEq] at h
    obtain ⟨_, hresolve, resolved, rfl, hself, hnested, rfl⟩ := h
    obtain ⟨jump, hfound⟩ := exists_find_host (resolve_proxy_reference_mem hresolve)
    have hdirect : jump.proxy_jump = none := by simpa [hfound] using hnested
    let redirect : HostProfile → HostProfile :=
      fun host => { host with proxy_jump := some resolved.id }
    have hfind : ∀ y, find_host (modify_first (fun host => host.id = x) redirect hosts) y =
        if y = x then (find_host hosts y).map redirect else find_host hosts y :=
      find_host_modify_first x fun _ h => h
    refine ⟨fun y hy => ?_, fun y other hother hnone => ?_, ?_, fun hsound => ?_⟩
    · rw [hfind, if_neg (by simpa using hy)]
    · have hy : y ≠ x := by
        rintro rfl
        rw [hhost, Option.some.injEq] at hother
        rw [← hother, hjump] at hnone
        simp at hnone
      rw [hfind, if_neg hy, hother]
    · intro y hy host' r hhost' hr
      rw [List.mem_singleton.mp hy] at hhost' ⊢
      rw [hfind, if_pos rfl, hhost, Option.map_some, Option.some.injEq] at hhost'
      obtain rfl : resolved.id = r := by simpa [redirect, ← hhost'] using hr
      refine ⟨hself, jump, ?_, hdirect⟩
      rw [hfind, if_neg hself, hfound]
    · exact hsound.modify_first fun _ h => h.with_jump _

theorem normalize_proxy_jumps_ok {hosts hosts' : List HostProfile} {ids : List Text}
    (h : normalize_proxy_jumps hosts ids = .ok hosts') : Normalized ids hosts hosts' := by
  induction ids generalizing hosts with
  | nil =>
    rw [normalize_proxy_jumps, Except.ok.injEq] at h
    exact h ▸ Normalized.self (by simp)
  | cons x ids ih =>
    obtain ⟨next, hx, hids⟩ := Outcome.bind_eq_ok.mp h
    exact (normalize_proxy_jump_for_ok hx).append (ih hids)

/-! ### Roles -/

/-- Host `x` is there, and connects directly if another host jumps to it. -/
def RoleKept (hosts : List HostProfile) (x : Text) : Prop :=
  ∃ host, find_host hosts x = some host ∧
    ∀ y dependent, find_host hosts y = some dependent → y ≠ x → dependent.proxy_jump = some x →
      host.proxy_jump = none

theorem validate_proxy_jump_role_ok {hosts : List HostProfile} (hsound : HostsSound hosts)
    {x : Text} (h : validate_proxy_jump_role hosts x = .ok ()) : RoleKept hosts x := by
  obtain ⟨host, hhost, h⟩ := Outcome.bind_eq_ok.mp h
  rw [Option.ok_or_eq_ok] at hhost
  obtain ⟨_, _, h⟩ := Outcome.bind_eq_ok.mp h
  refine ⟨host, hhost, fun y dependent hdep hne hjump => ?_⟩
  by_contra hsome
  rw [if_neg (by simpa using hsome), Outcome.ite_error_eq_ok] at h
  obtain ⟨hmem, hid⟩ := find_host_some hdep
  refine h.1 (List.any_eq_true.mpr ⟨dependent, hmem, ?_⟩)
  have hx := (find_host_some hhost).2
  have hmatch := proxy_reference_matches_id (hsound.find hhost) hx
  simp [hid, hx, hne, hjump, hmatch]

theorem validate_proxy_jump_roles_ok {hosts : List HostProfile} (hsound : HostsSound hosts)
    {ids : List Text} (h : validate_proxy_jump_roles hosts ids = .ok ()) :
    ∀ x ∈ ids, RoleKept hosts x := by
  induction ids with
  | nil => simp
  | cons x ids ih =>
    obtain ⟨_, hx, hids⟩ := Outcome.bind_eq_ok.mp h
    exact List.forall_mem_cons.mpr ⟨validate_proxy_jump_role_ok hsound hx, ih hids⟩

/-! ### Updates of some hosts -/

/-- `hosts'` differs from `hosts` at the hosts `ids`, and in that other hosts
    may have been pointed to one of these. -/
structure Touched (ids : List Text) (hosts hosts' : List HostProfile) : Prop where
  direct : ∀ x ∉ ids, ∀ host, find_host hosts x = some host → host.proxy_jump = none →
    find_host hosts' x = some host
  jumps : ∀ x ∉ ids, ∀ host r, find_host hosts' x = some host → host.proxy_jump = some r →
    r ∈ ids ∨ find_host hosts x = some host

/-- After the hosts `ids` were touched, normalized and checked, the jump of
    every host is resolved. -/
theorem jumps_resolved_of_touched {ids : List Text} {hosts touched hosts' : List HostProfile}
    (hold : ∀ x, JumpResolved hosts x)
    (htouched : Touched ids hosts touched) (hnorm : Normalized ids touched hosts')
    (hroles : ∀ x ∈ ids, RoleKept hosts' x) : ∀ x, JumpResolved hosts' x := by
  intro x host r hfind hjump
  by_cases hx : x ∈ ids
  · exact hnorm.resolved x hx host r hfind hjump
  · -- the target is touched: its role was checked; else it is the old target
    have hrole : r ∈ ids → JumpTarget hosts' x r := fun hr => by
      obtain ⟨jump, hj, hdirect⟩ := hroles r hr
      have hne : x ≠ r := fun h => hx (h ▸ hr)
      exact ⟨hne.symm, jump, hj, hdirect x host hfind hne hjump⟩
    rw [hnorm.others x hx] at hfind
    rcases htouched.jumps x hx host r hfind hjump with hr | hfind'
    · exact hrole hr
    · by_cases hr : r ∈ ids
      · exact hrole hr
      · obtain ⟨hne, jump, hj, hdirect⟩ := hold x host r hfind' hjump
        refine ⟨hne, jump, ?_, hdirect⟩
        rw [hnorm.others r hr]
        exact htouched.direct r hr jump hj hdirect

end Store
