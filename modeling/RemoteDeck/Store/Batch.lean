import RemoteDeck.Store.Invariant

/-! # Batch import

    `import_batch` applies all of a batch or nothing of it.  This file shows
    - what a batch that is applied adds to the state (`Imported`)
    - that a source is imported once: its hash stays in the state
    - that the order in which a hash map visits the new hosts decides no
      more than which of several errors is reported

    Normalizing the jump of one host changes no other field that a jump
    reference is resolved by, so the hosts can be normalized in any order.
-/

namespace Store

/-! ### Hosts that differ in the jump -/

/-- The same host with another jump, where it had one. -/
structure SameButJump (host host' : HostProfile) : Prop where
  fields : host' = { host with proxy_jump := host'.proxy_jump }
  jumps : host'.proxy_jump.isSome = host.proxy_jump.isSome

namespace SameButJump

variable {host host' : HostProfile}

theorem refl (host : HostProfile) : SameButJump host host := ⟨rfl, rfl⟩

theorem symm (h : SameButJump host host') : SameButJump host' host where
  fields := by rw [h.fields]
  jumps := h.jumps.symm

theorem trans {host'' : HostProfile} (h : SameButJump host host') (h' : SameButJump host' host'') :
    SameButJump host host'' where
  fields := by
    rw [h'.fields, h.fields]
  jumps := h'.jumps.trans h.jumps

theorem id_eq (h : SameButJump host host') : host'.id = host.id := by rw [h.fields]

theorem alias_eq (h : SameButJump host host') : host'.alias = host.alias := by rw [h.fields]

theorem endpoint_eq (h : SameButJump host host') : proxy_endpoint host' = proxy_endpoint host := by
  rw [h.fields]
  rfl

theorem endpoint_with_port_eq (h : SameButJump host host') :
    proxy_endpoint_with_port host' = proxy_endpoint_with_port host := by
  rw [h.fields]
  rfl

end SameButJump

section Lists
variable {α : Type} {R : α → α → Prop} {xs ys : List α} {p : α → Bool}

/-- Searching related lists for what the relation respects. -/
theorem forall₂_find (h : List.Forall₂ R xs ys) (hp : ∀ x y, R x y → p y = p x) :
    (xs.find? p = none ∧ ys.find? p = none) ∨
      ∃ x y, R x y ∧ xs.find? p = some x ∧ ys.find? p = some y := by
  induction h with
  | nil => exact .inl ⟨rfl, rfl⟩
  | @cons x y xs ys hxy _ ih =>
    rw [List.find?_cons, List.find?_cons, hp x y hxy]
    cases p x with
    | true => exact .inr ⟨x, y, hxy, rfl, rfl⟩
    | false => exact ih

theorem forall₂_filter (h : List.Forall₂ R xs ys) (hp : ∀ x y, R x y → p y = p x) :
    List.Forall₂ R (xs.filter p) (ys.filter p) := by
  induction h with
  | nil => exact .nil
  | @cons x y xs ys hxy _ ih =>
    rw [List.filter_cons, List.filter_cons, hp x y hxy]
    split
    · exact .cons hxy ih
    · exact ih

theorem forall₂_modify_first {change : α → α} (xs : List α) (hrefl : ∀ x, R x x)
    (hchange : ∀ x, xs.find? p = some x → R x (change x)) :
    List.Forall₂ R xs (modify_first p change xs) := by
  induction xs with
  | nil => exact .nil
  | cons x xs ih =>
    unfold modify_first
    split
    · next hx =>
      have hfirst : (x :: xs).find? p = some x := List.find?_cons_of_pos hx
      exact .cons (hchange x hfirst) (List.forall₂_same.mpr fun y _ => hrefl y)
    · next hx =>
      refine .cons (hrefl x) (ih fun y hy => hchange y ?_)
      rw [List.find?_cons_of_neg hx]
      exact hy

theorem forall₂_trans {S T : α → α → Prop} {zs : List α} (h : List.Forall₂ R xs ys)
    (h' : List.Forall₂ S ys zs) (hT : ∀ x y z, R x y → S y z → T x z) : List.Forall₂ T xs zs := by
  induction h generalizing zs with
  | nil =>
    cases h'
    exact .nil
  | cons hxy _ ih =>
    cases h' with
    | cons hyz hrest => exact .cons (hT _ _ _ hxy hyz) (ih hrest)

theorem forall₂_append_split {a b c : List α} (h : List.Forall₂ R (a ++ b) c) :
    ∃ a' b', c = a' ++ b' ∧ List.Forall₂ R a a' ∧ List.Forall₂ R b b' := by
  induction a generalizing c with
  | nil => exact ⟨[], c, rfl, .nil, h⟩
  | cons x a ih =>
    cases h with
    | @cons _ y _ c hxy hrest =>
      obtain ⟨a', b', rfl, ha, hb⟩ := ih hrest
      exact ⟨y :: a', b', rfl, .cons hxy ha, hb⟩

end Lists

abbrev SameJumpHosts : List HostProfile → List HostProfile → Prop := List.Forall₂ SameButJump

/-- A reference resolves to the same host, whatever the hosts jump to. -/
theorem resolve_same {hosts hosts' : List HostProfile} (h : SameJumpHosts hosts hosts')
    {reference : Option Text} {jump : HostProfile}
    (hresolve : resolve_proxy_reference hosts reference = .ok (some jump)) :
    ∃ jump', SameButJump jump jump' ∧
      resolve_proxy_reference hosts' reference = .ok (some jump') := by
  unfold resolve_proxy_reference find_host at hresolve ⊢
  cases hreference : normalize_optional reference with
  | none =>
    rw [hreference] at hresolve
    cases hresolve
  | some text =>
    rw [hreference] at hresolve
    dsimp only at hresolve ⊢
    rcases forall₂_find (p := fun host => host.id = text) h
      (fun a b hab => by rw [hab.id_eq]) with ⟨hnone, hnone'⟩ | ⟨a, b, hab, ha, hb⟩
    · rw [hnone] at hresolve
      rw [hnone']
      dsimp only at hresolve ⊢
      rcases forall₂_find (p := fun host => host.alias.eq_ignore_ascii_case text) h
        (fun a b hab => by rw [hab.alias_eq]) with ⟨hnone, hnone'⟩ | ⟨a, b, hab, ha, hb⟩
      · rw [hnone] at hresolve
        rw [hnone']
        have hfilter := forall₂_filter (p := fun host => proxy_endpoint host = text ||
          proxy_endpoint_with_port host = text) h
          (fun a b hab => by rw [hab.endpoint_eq, hab.endpoint_with_port_eq])
        dsimp only at hresolve ⊢
        generalize hosts.filter _ = found at hresolve hfilter
        generalize hosts'.filter _ = found' at hfilter ⊢
        cases hfilter with
        | nil => cases hresolve
        | @cons a b _ _ hab hrest =>
          cases hrest with
          | nil =>
            obtain rfl := Option.some.inj (Except.ok.inj hresolve)
            exact ⟨b, hab, rfl⟩
          | cons _ _ => cases hresolve
      · rw [ha] at hresolve
        rw [hb]
        obtain rfl := Option.some.inj (Except.ok.inj hresolve)
        exact ⟨b, hab, rfl⟩
    · rw [ha] at hresolve
      rw [hb]
      obtain rfl := Option.some.inj (Except.ok.inj hresolve)
      exact ⟨b, hab, rfl⟩

/-! ### Normalizing one host -/

/-- Give the first host with an id a jump. -/
def set_jump (host_id : Text) (jump : Option Text) (hosts : List HostProfile) : List HostProfile :=
  modify_first (fun host => host.id = host_id) (fun host => { host with proxy_jump := jump }) hosts

/-- The jump that normalization gives a host. -/
def SettlesTo (hosts : List HostProfile) (host_id : Text) (host : HostProfile)
    (jump : Option Text) : Prop :=
  find_host hosts host_id = some host ∧
    match host.proxy_jump with
    | none => jump = none
    | some reference => ∃ resolved target,
        resolve_proxy_reference hosts (some reference) = .ok (some resolved) ∧
          find_host hosts resolved.id = some target ∧ resolved.id ≠ host_id ∧
          target.proxy_jump = none ∧ jump = some resolved.id

theorem set_jump_same {hosts : List HostProfile} {host_id : Text} {host : HostProfile}
    (hfind : find_host hosts host_id = some host) : set_jump host_id host.proxy_jump hosts = hosts := by
  induction hosts with
  | nil => rfl
  | cons first rest ih =>
    unfold set_jump modify_first
    unfold find_host at hfind
    by_cases hfirst : first.id = host_id
    · rw [List.find?_cons_of_pos (by simpa using hfirst)] at hfind
      obtain rfl := Option.some.inj hfind
      rw [if_pos (by simpa using hfirst)]
    · rw [List.find?_cons_of_neg (by simpa using hfirst)] at hfind
      rw [if_neg (by simpa using hfirst)]
      exact congrArg (first :: ·) (ih hfind)

theorem normalize_proxy_jump_for_iff {hosts hosts' : List HostProfile} {host_id : Text} :
    normalize_proxy_jump_for hosts host_id = .ok hosts' ↔
      ∃ host jump, SettlesTo hosts host_id host jump ∧ hosts' = set_jump host_id jump hosts := by
  unfold normalize_proxy_jump_for SettlesTo
  simp only [Outcome.bind_eq_ok, Option.ok_or_eq_ok]
  constructor
  · rintro ⟨host, hhost, h⟩
    cases hjump : host.proxy_jump with
    | none =>
      rw [hjump] at h
      obtain rfl := Except.ok.inj h
      refine ⟨host, none, ⟨hhost, by rw [hjump]⟩, ?_⟩
      rw [← hjump, set_jump_same hhost]
    | some reference =>
      simp only [hjump, Outcome.bind_eq_ok, Option.ok_or_eq_ok, Outcome.ite_error_eq_ok,
        Except.ok.injEq] at h
      obtain ⟨_, hresolve, resolved, rfl, hself, hnested, rfl⟩ := h
      obtain ⟨target, htarget⟩ := exists_find_host (resolve_proxy_reference_mem hresolve)
      have hdirect : target.proxy_jump = none := by simpa [htarget] using hnested
      refine ⟨host, some resolved.id, ⟨hhost, ?_⟩, rfl⟩
      rw [hjump]
      exact ⟨resolved, target, hresolve, htarget, hself, hdirect, rfl⟩
  · rintro ⟨host, jump, ⟨hhost, hsettles⟩, rfl⟩
    refine ⟨host, hhost, ?_⟩
    cases hjump : host.proxy_jump with
    | none =>
      rw [hjump] at hsettles
      subst hsettles
      have hsame := set_jump_same hhost
      rw [hjump] at hsame
      rw [hsame]
    | some reference =>
      rw [hjump] at hsettles
      obtain ⟨resolved, target, hresolve, htarget, hself, hdirect, rfl⟩ := hsettles
      simp only [Outcome.bind_eq_ok, Option.ok_or_eq_ok, Outcome.ite_error_eq_ok]
      refine ⟨some resolved, hresolve, resolved, rfl, hself, ?_, rfl⟩
      rw [htarget, Option.getD_some, hdirect]
      exact Bool.false_ne_true

theorem SettlesTo.change {hosts : List HostProfile} {host_id : Text} {host : HostProfile}
    {jump : Option Text} (h : SettlesTo hosts host_id host jump) :
    SameButJump host { host with proxy_jump := jump } := by
  refine ⟨rfl, ?_⟩
  have hjump := h.2
  cases hold : host.proxy_jump with
  | none =>
    rw [hold] at hjump
    subst hjump
    rfl
  | some reference =>
    rw [hold] at hjump
    obtain ⟨_, _, _, _, _, _, rfl⟩ := hjump
    rfl

/-- Normalizing a host leaves all hosts the same but for its jump. -/
theorem SettlesTo.same_others {hosts : List HostProfile} {host_id : Text} {host : HostProfile}
    {jump : Option Text} (h : SettlesTo hosts host_id host jump) :
    List.Forall₂ (fun host host' => SameButJump host host' ∧ (host.id ≠ host_id → host' = host))
      hosts (set_jump host_id jump hosts) := by
  apply forall₂_modify_first hosts
  · intro other
    exact ⟨.refl other, fun _ => rfl⟩
  · intro found hfound
    obtain rfl := Option.some.inj (hfound.symm.trans h.1)
    exact ⟨h.change, fun hne => absurd (find_host_some h.1).2 hne⟩

theorem SettlesTo.same {hosts : List HostProfile} {host_id : Text} {host : HostProfile}
    {jump : Option Text} (h : SettlesTo hosts host_id host jump) :
    SameJumpHosts hosts (set_jump host_id jump hosts) :=
  h.same_others.imp fun _ _ hsame => hsame.1

/-- What a host settles to depends on no jump but its own. -/
theorem SettlesTo.congr {hosts hosts' : List HostProfile} {host_id : Text} {host : HostProfile}
    {jump : Option Text} (hsame : SameJumpHosts hosts hosts')
    (hfind : find_host hosts' host_id = some host) (h : SettlesTo hosts host_id host jump) :
    SettlesTo hosts' host_id host jump := by
  refine ⟨hfind, ?_⟩
  have hjump := h.2
  cases hold : host.proxy_jump with
  | none =>
    rw [hold] at hjump
    exact hjump
  | some reference =>
    rw [hold] at hjump
    obtain ⟨resolved, target, hresolve, htarget, hself, hdirect, rfl⟩ := hjump
    obtain ⟨resolved', hresolved, hresolve'⟩ := resolve_same hsame hresolve
    rcases forall₂_find (p := fun host => host.id = resolved.id) hsame
      (fun a b hab => by rw [hab.id_eq]) with ⟨hnone, _⟩ | ⟨a, b, hab, ha, hb⟩
    · have hfound : hosts.find? (fun host => host.id = resolved.id) = some target := htarget
      exact absurd (hnone.symm.trans hfound) nofun
    · obtain rfl := Option.some.inj (ha.symm.trans htarget)
      have hjumps := hab.jumps
      rw [hdirect] at hjumps
      refine ⟨resolved', b, hresolve', ?_, ?_, Option.not_isSome_iff_eq_none.mp ?_, ?_⟩
      · rw [hresolved.id_eq]
        exact hb
      · rw [hresolved.id_eq]
        exact hself
      · rw [hjumps]
        exact Bool.false_ne_true
      · rw [hresolved.id_eq]

theorem find_set_jump {hosts : List HostProfile} {x y : Text} (jump : Option Text) (hne : y ≠ x) :
    find_host (set_jump x jump hosts) y = find_host hosts y := by
  have hfind := @find_host_modify_first hosts (fun host => { host with proxy_jump := jump }) x
    (fun _ h => h) y
  rw [if_neg hne] at hfind
  exact hfind

theorem set_jump_comm {x y : Text} (jx jy : Option Text) (hne : x ≠ y) (hosts : List HostProfile) :
    set_jump y jy (set_jump x jx hosts) = set_jump x jx (set_jump y jy hosts) := by
  unfold set_jump
  induction hosts with
  | nil => rfl
  | cons first rest ih =>
    by_cases hx : first.id = x
    · have hy : first.id ≠ y := by
        rw [hx]
        exact hne
      simp [modify_first, hx, hne]
    · by_cases hy : first.id = y
      · simp [modify_first, hy, hne.symm]
      · simp [modify_first, hx, hy, ih]

/-- Two hosts can be normalized in either order. -/
theorem normalize_swap {hosts next hosts' : List HostProfile} {x y : Text} (hne : x ≠ y)
    (hx : normalize_proxy_jump_for hosts x = .ok next)
    (hy : normalize_proxy_jump_for next y = .ok hosts') :
    ∃ next', normalize_proxy_jump_for hosts y = .ok next' ∧
      normalize_proxy_jump_for next' x = .ok hosts' := by
  obtain ⟨host, jump, hsettles, rfl⟩ := normalize_proxy_jump_for_iff.mp hx
  obtain ⟨host', jump', hsettles', rfl⟩ := normalize_proxy_jump_for_iff.mp hy
  have hback : SameJumpHosts (set_jump x jump hosts) hosts := by
    have hflip := hsettles.same.flip
    exact hflip.imp fun _ _ h => SameButJump.symm h
  have hfirst : SettlesTo hosts y host' jump' := by
    refine hsettles'.congr hback ?_
    have hfind := hsettles'.1
    rwa [find_set_jump jump hne.symm] at hfind
  have hsecond : SettlesTo (set_jump y jump' hosts) x host jump := by
    refine hsettles.congr hfirst.same ?_
    rw [find_set_jump jump' hne]
    exact hsettles.1
  refine ⟨set_jump y jump' hosts, normalize_proxy_jump_for_iff.mpr ⟨host', jump', hfirst, rfl⟩, ?_⟩
  exact normalize_proxy_jump_for_iff.mpr
    ⟨host, jump, hsecond, set_jump_comm jump jump' hne hosts⟩

/-- The hosts can be normalized in any order. -/
theorem normalize_proxy_jumps_perm {ids ids' : List Text} (hperm : ids.Perm ids')
    {hosts hosts' : List HostProfile} (h : normalize_proxy_jumps hosts ids = .ok hosts') :
    normalize_proxy_jumps hosts ids' = .ok hosts' := by
  induction hperm generalizing hosts with
  | nil => exact h
  | cons x _ ih =>
    obtain ⟨next, hx, hrest⟩ := Outcome.bind_eq_ok.mp h
    exact Outcome.bind_eq_ok.mpr ⟨next, hx, ih hrest⟩
  | swap x y ids =>
    obtain ⟨next, hy, hrest⟩ := Outcome.bind_eq_ok.mp h
    obtain ⟨both, hx, hrest⟩ := Outcome.bind_eq_ok.mp hrest
    by_cases hne : y = x
    · subst hne
      exact h
    · obtain ⟨next', hx', hy'⟩ := normalize_swap hne hy hx
      exact Outcome.bind_eq_ok.mpr ⟨next', hx', Outcome.bind_eq_ok.mpr ⟨both, hy', hrest⟩⟩
  | trans _ _ ih ih' => exact ih' (ih h)

theorem validate_proxy_jump_roles_iff {hosts : List HostProfile} {ids : List Text} :
    validate_proxy_jump_roles hosts ids = .ok () ↔
      ∀ x ∈ ids, validate_proxy_jump_role hosts x = .ok () := by
  induction ids with
  | nil => exact ⟨fun _ => nofun, fun _ => rfl⟩
  | cons x ids ih =>
    rw [List.forall_mem_cons, ← ih]
    constructor
    · intro h
      obtain ⟨_, hx, hrest⟩ := Outcome.bind_eq_ok.mp h
      exact ⟨hx, hrest⟩
    · rintro ⟨hx, hrest⟩
      exact Outcome.bind_eq_ok.mpr ⟨(), hx, hrest⟩

theorem settle_proxy_jumps_perm {ids ids' : List Text} (hperm : ids.Perm ids')
    {state state' : PersistedState} (h : settle_proxy_jumps ids state = .ok state') :
    settle_proxy_jumps ids' state = .ok state' := by
  simp only [settle_proxy_jumps, Outcome.bind_eq_ok, Except.ok.injEq] at h ⊢
  obtain ⟨hosts, hnormalize, _, hroles, rfl⟩ := h
  refine ⟨hosts, normalize_proxy_jumps_perm hperm hnormalize, (), ?_, rfl⟩
  rw [validate_proxy_jump_roles_iff] at hroles ⊢
  intro x hx
  exact hroles x (hperm.mem_iff.mpr hx)

/-! ### The order of a hash map -/

section
variable (env : Env) {order : List Text → List Text} (horder : ∀ ids, (order ids).Perm ids)

/-- The same draws, where a hash map is visited in another order. -/
def Env.reordered : Env := { env with hash_order := order, hash_order_perm := horder }

theorem apply_batch_hosts_reordered (k : Nat) (state : PersistedState)
    (imported : List (Text × Text)) (hosts : List ImportBatchHost) :
    apply_batch_hosts (env.reordered horder) k state imported hosts =
      apply_batch_hosts env k state imported hosts := by
  induction hosts generalizing k state imported with
  | nil => rfl
  | cons planned hosts ih =>
    simp only [apply_batch_hosts, ih]
    rfl

theorem apply_batch_tunnels_reordered (resolve : ImportHostReference → AppResult Text) (k : Nat)
    (state : PersistedState) (tunnels : List ImportBatchTunnel) :
    apply_batch_tunnels (env.reordered horder) resolve k state tunnels =
      apply_batch_tunnels env resolve k state tunnels := by
  induction tunnels generalizing k state with
  | nil => rfl
  | cons planned tunnels ih =>
    simp only [apply_batch_tunnels, ih]
    rfl

theorem apply_batch_commands_reordered (resolve : ImportHostReference → AppResult Text) (k : Nat)
    (state : PersistedState) (commands : List ImportBatchCommand) :
    apply_batch_commands (env.reordered horder) resolve k state commands =
      apply_batch_commands env resolve k state commands := by
  induction commands generalizing k state with
  | nil => rfl
  | cons planned commands ih =>
    simp only [apply_batch_commands, ih]
    rfl

theorem apply_batch_reordered {batch : ImportBatch} {state : PersistedState}
    {change : PersistedState × ImportBatchResult} (h : apply_batch env batch state = .ok change) :
    apply_batch (env.reordered horder) batch state = .ok change := by
  unfold apply_batch at h ⊢
  rw [apply_batch_hosts_reordered]
  simp only [apply_batch_tunnels_reordered, apply_batch_commands_reordered]
  obtain ⟨added, hhosts, h⟩ := Outcome.bind_eq_ok.mp h
  obtain ⟨settled, hsettle, h⟩ := Outcome.bind_eq_ok.mp h
  have hperm := (env.hash_order_perm (added.2.map Prod.snd)).trans (horder _).symm
  exact Outcome.bind_eq_ok.mpr
    ⟨added, hhosts, Outcome.bind_eq_ok.mpr ⟨settled, settle_proxy_jumps_perm hperm hsettle, h⟩⟩

theorem apply_batch_reordered_iff (batch : ImportBatch) (state : PersistedState)
    (change : PersistedState × ImportBatchResult) :
    apply_batch (env.reordered horder) batch state = .ok change ↔
      apply_batch env batch state = .ok change :=
  ⟨fun h => apply_batch_reordered (env.reordered horder) env.hash_order_perm h,
    apply_batch_reordered env horder⟩

/-- Changes that succeed alike are committed alike. -/
theorem commit_congr {α : Type} (repo : Repository)
    {change change' : PersistedState → AppResult (PersistedState × α)}
    (h : ∀ changed, change' repo.state = .ok changed ↔ change repo.state = .ok changed) :
    (repo.commit (env.reordered horder) change').1 = (repo.commit env change).1 ∧
      ∀ value, (repo.commit (env.reordered horder) change').2 = .ok value ↔
        (repo.commit env change).2 = .ok value := by
  unfold Repository.commit
  cases hchange : change repo.state with
  | ok changed =>
    rw [(h changed).mpr hchange]
    exact ⟨rfl, fun _ => Iff.rfl⟩
  | error e =>
    cases hchange' : change' repo.state with
    | ok changed =>
      rw [(h changed).mp hchange'] at hchange
      cases hchange
    | error e' => exact ⟨rfl, fun value => ⟨nofun, nofun⟩⟩

/-- The order decides neither the state after an import nor its result when it succeeds. -/
theorem import_batch_reordered (repo : Repository) (batch : ImportBatch) :
    (repo.import_batch (env.reordered horder) batch).1 = (repo.import_batch env batch).1 ∧
      ∀ result, (repo.import_batch (env.reordered horder) batch).2 = .ok result ↔
        (repo.import_batch env batch).2 = .ok result := by
  unfold Repository.import_batch
  split
  · exact ⟨rfl, fun _ => Iff.rfl⟩
  · split
    · exact ⟨rfl, fun _ => Iff.rfl⟩
    · split
      · exact ⟨rfl, fun _ => Iff.rfl⟩
      · split
        · exact ⟨rfl, fun _ => Iff.rfl⟩
        · exact commit_congr env horder repo (apply_batch_reordered_iff env horder batch repo.state)

end

/-! ### What a batch adds -/

/-- The first `draws` identifiers are not the same. -/
def Distinct (env : Env) (draws : Nat) : Prop :=
  ∀ i < draws, ∀ j < draws, (env.new_uuid i).to_string = (env.new_uuid j).to_string → i = j

/-- The first `draws` identifiers are new, and no two are the same. -/
structure Fresh (env : Env) (draws : Nat) (state : PersistedState) : Prop where
  distinct : Distinct env draws
  hosts : ∀ i < draws, ∀ host ∈ state.hosts, host.id ≠ (env.new_uuid i).to_string
  tunnels : ∀ i < draws, ∀ tunnel ∈ state.tunnels, tunnel.id ≠ (env.new_uuid i).to_string
  commands : ∀ i < draws, ∀ command ∈ state.command_presets,
    command.id ≠ (env.new_uuid i).to_string

/-- One identifier for each record of a batch. -/
def ImportBatch.draws (batch : ImportBatch) : Nat :=
  batch.hosts.length + batch.tunnels.length + batch.commands.length

section
variable {new_uuid : Uuid} {now : Timestamp} {state state' : PersistedState}

theorem upsert_new {α : Type} {found : α → Bool} {record : α} {records : List α}
    (h : ∀ x ∈ records, found x = false) : upsert found record records = records ++ [record] := by
  have hany : records.any found = false := by
    rw [List.any_eq_false]
    intro x hx
    rw [h x hx]
    exact Bool.false_ne_true
  unfold upsert
  rw [hany, if_neg Bool.false_ne_true]

theorem apply_host_draft_new {draft : HostDraft} {profile : HostProfile} (hid : draft.id = none)
    (hnew : ∀ host ∈ state.hosts, host.id ≠ new_uuid.to_string)
    (h : apply_host_draft new_uuid now state draft = .ok (state', profile)) :
    profile = profile_of_draft new_uuid now draft none ∧
      state' = { state with hosts := state.hosts ++ [profile] } := by
  have happlied := apply_host_draft_ok h
  have hprofile : profile = profile_of_draft new_uuid now draft none := by
    simp only [apply_host_draft, Outcome.bind_eq_ok, Outcome.ite_error_eq_ok,
      Except.ok.injEq, Prod.mk.injEq, hid, Option.bind_none] at h
    obtain ⟨_, _, _, _, _, _, _, _, hprofile⟩ := h
    exact hprofile.symm
  refine ⟨hprofile, ?_⟩
  rw [happlied.state_eq, upsert_new]
  intro host hhost
  rw [happlied.id_new hid]
  simpa using hnew host hhost

/-- The tunnel that an accepted draft without an id makes. -/
def tunnel_of_draft (new_uuid : Uuid) (now : Timestamp) (draft : TunnelDraft) : TunnelProfile where
  schema_version := 2
  id := new_uuid.to_string
  host_id := draft.host_id
  name := draft.name.trim
  direction := draft.direction
  bind_address := draft.bind_address.trim
  source_port := draft.source_port
  target_host := draft.target_host.trim
  target_port := draft.target_port
  auto_start := draft.auto_start.getD false
  auto_reconnect := draft.auto_reconnect.getD false
  health_check := draft.health_check
  created_at := now
  updated_at := now

theorem apply_tunnel_draft_new {draft : TunnelDraft} {profile : TunnelProfile}
    (hid : draft.id = none) (hnew : ∀ tunnel ∈ state.tunnels, tunnel.id ≠ new_uuid.to_string)
    (h : apply_tunnel_draft new_uuid now state draft = .ok (state', profile)) :
    profile = tunnel_of_draft new_uuid now draft ∧
      state' = { state with tunnels := state.tunnels ++ [profile] } := by
  simp only [apply_tunnel_draft, Outcome.bind_eq_ok, Outcome.ite_error_eq_ok,
    Except.ok.injEq, Prod.mk.injEq, hid, Option.bind_none] at h
  obtain ⟨_, _, _, _, _, rfl, rfl⟩ := h
  refine ⟨rfl, ?_⟩
  rw [upsert_new]
  intro tunnel htunnel
  simpa using hnew tunnel htunnel

/-- The saved command that an accepted draft without an id makes. -/
def command_of_draft (new_uuid : Uuid) (now : Timestamp) (draft : CommandPresetDraft) :
    CommandPreset where
  schema_version := 2
  id := new_uuid.to_string
  host_id := draft.host_id
  name := draft.name.trim
  description := draft.description.trim
  group := draft.group.trim
  command := draft.command.trim
  working_directory := normalize_optional draft.working_directory
  risk := draft.risk
  requires_pty := draft.requires_pty
  requires_sudo := draft.requires_sudo
  confirmation_text := normalize_optional draft.confirmation_text
  sort_order := draft.sort_order
  created_at := now
  updated_at := now

theorem apply_command_draft_new {draft : CommandPresetDraft} {command : CommandPreset}
    (hid : draft.id = none)
    (hnew : ∀ command ∈ state.command_presets, command.id ≠ new_uuid.to_string)
    (h : apply_command_draft new_uuid now state draft = .ok (state', command)) :
    command = command_of_draft new_uuid now draft ∧
      state' = { state with command_presets := state.command_presets ++ [command] } := by
  simp only [apply_command_draft, Outcome.bind_eq_ok, Outcome.ite_error_eq_ok,
    Except.ok.injEq, Prod.mk.injEq, hid, Option.bind_none] at h
  obtain ⟨_, _, _, _, _, rfl, rfl⟩ := h
  refine ⟨rfl, ?_⟩
  rw [upsert_new]
  intro other hother
  simpa using hnew other hother

end

/-- A planned record with the number of its draws. -/
def imported_host (env : Env) (item : ImportBatchHost × Nat) : HostProfile :=
  profile_of_draft (env.new_uuid item.2) (env.now item.2) item.1.draft none

/-- The ids that hosts of a batch get, by their source ids. -/
def imported_ids (env : Env) (items : List (ImportBatchHost × Nat)) : List (Text × Text) :=
  items.map fun item => (item.1.source_id, (env.new_uuid item.2).to_string)

def imported_tunnel (env : Env) (item : ImportBatchTunnel × Nat) (host_id : Text) : TunnelProfile :=
  tunnel_of_draft (env.new_uuid item.2) (env.now item.2) { item.1.draft with host_id := host_id }

def imported_command (env : Env) (item : ImportBatchCommand × Nat) (host_id : Option Text) :
    CommandPreset :=
  command_of_draft (env.new_uuid item.2) (env.now item.2) { item.1.draft with host_id := host_id }

section
variable {env : Env} {draws : Nat} {state state' : PersistedState}

theorem apply_batch_hosts_adds {k : Nat} {hosts : List ImportBatchHost}
    {imported imported' : List (Text × Text)}
    (hdistinct : Distinct env draws) (hdraws : k + hosts.length ≤ draws)
    (hnew : ∀ i, k ≤ i → i < draws → ∀ host ∈ state.hosts, host.id ≠ (env.new_uuid i).to_string)
    (h : apply_batch_hosts env k state imported hosts = .ok (state', imported')) :
    state' = { state with hosts := state.hosts ++ (hosts.zipIdx k).map (imported_host env) } ∧
      imported' = (imported_ids env (hosts.zipIdx k)).reverse ++ imported := by
  induction hosts generalizing k state imported with
  | nil =>
    obtain ⟨rfl, rfl⟩ := Prod.mk.inj (Except.ok.inj h)
    exact ⟨by simp, by simp [imported_ids]⟩
  | cons planned hosts ih =>
    rw [List.length_cons] at hdraws
    simp only [apply_batch_hosts, Outcome.ite_error_eq_ok, Outcome.bind_eq_ok,
      Prod.exists] at h
    obtain ⟨_, _, _, hid, next, profile, hdraft, hrest⟩ := h
    have hid : planned.draft.id = none := by simpa using hid
    obtain ⟨rfl, rfl⟩ := apply_host_draft_new hid (hnew k (Nat.le_refl k) (by omega)) hdraft
    have hlater : ∀ i, k + 1 ≤ i → i < draws → ∀ host ∈ state.hosts ++
        [profile_of_draft (env.new_uuid k) (env.now k) planned.draft none],
        host.id ≠ (env.new_uuid i).to_string := by
      intro i hi hlt host hhost heq
      rcases List.mem_append.mp hhost with hold | hadded
      · exact hnew i (by omega) hlt host hold heq
      · rw [List.mem_singleton.mp hadded] at heq
        have hsame := hdistinct k (by omega) i hlt heq
        omega
    obtain ⟨hstate, himported⟩ := ih (by omega) hlater hrest
    rw [hstate, himported, List.zipIdx_cons]
    constructor
    · simp [imported_host]
    · have hfirst : (profile_of_draft (env.new_uuid k) (env.now k) planned.draft none).id =
          (env.new_uuid k).to_string := rfl
      simp [hfirst, imported_ids]

theorem apply_batch_tunnels_adds {resolve : ImportHostReference → AppResult Text} {k : Nat}
    {tunnels : List ImportBatchTunnel}
    (hdistinct : Distinct env draws) (hdraws : k + tunnels.length ≤ draws)
    (hnew : ∀ i, k ≤ i → i < draws → ∀ tunnel ∈ state.tunnels, tunnel.id ≠ (env.new_uuid i).to_string)
    (h : apply_batch_tunnels env resolve k state tunnels = .ok state') :
    ∃ added, state' = { state with tunnels := state.tunnels ++ added } ∧
      List.Forall₂ (fun item tunnel => ∃ host_id, resolve item.1.host = .ok host_id ∧
        tunnel = imported_tunnel env item host_id) (tunnels.zipIdx k) added := by
  induction tunnels generalizing k state with
  | nil =>
    obtain rfl := Except.ok.inj h
    exact ⟨[], by simp, .nil⟩
  | cons planned tunnels ih =>
    rw [List.length_cons] at hdraws
    simp only [apply_batch_tunnels, Outcome.ite_error_eq_ok, Outcome.bind_eq_ok,
      Prod.exists] at h
    obtain ⟨hid, host_id, hresolve, next, profile, hdraft, hrest⟩ := h
    have hid : planned.draft.id = none := by simpa using hid
    have hdraft_id : ({ planned.draft with host_id := host_id } : TunnelDraft).id = none := hid
    obtain ⟨rfl, rfl⟩ := apply_tunnel_draft_new hdraft_id (hnew k (Nat.le_refl k) (by omega)) hdraft
    have hlater : ∀ i, k + 1 ≤ i → i < draws → ∀ tunnel ∈ state.tunnels ++
        [tunnel_of_draft (env.new_uuid k) (env.now k) { planned.draft with host_id := host_id }],
        tunnel.id ≠ (env.new_uuid i).to_string := by
      intro i hi hlt tunnel htunnel heq
      rcases List.mem_append.mp htunnel with hold | hadded
      · exact hnew i (by omega) hlt tunnel hold heq
      · rw [List.mem_singleton.mp hadded] at heq
        have hsame := hdistinct k (by omega) i hlt heq
        omega
    obtain ⟨added, hstate, hadded⟩ := ih (by omega) hlater hrest
    refine ⟨_ :: added, ?_, .cons ⟨host_id, hresolve, rfl⟩ hadded⟩
    rw [hstate]
    simp [imported_tunnel]

theorem apply_batch_commands_adds {resolve : ImportHostReference → AppResult Text} {k : Nat}
    {commands : List ImportBatchCommand}
    (hdistinct : Distinct env draws) (hdraws : k + commands.length ≤ draws)
    (hnew : ∀ i, k ≤ i → i < draws → ∀ command ∈ state.command_presets,
      command.id ≠ (env.new_uuid i).to_string)
    (h : apply_batch_commands env resolve k state commands = .ok state') :
    ∃ added, state' = { state with command_presets := state.command_presets ++ added } ∧
      List.Forall₂ (fun item command => ∃ host_id, resolve_owner resolve item.1.host = .ok host_id ∧
        command = imported_command env item host_id) (commands.zipIdx k) added := by
  induction commands generalizing k state with
  | nil =>
    obtain rfl := Except.ok.inj h
    exact ⟨[], by simp, .nil⟩
  | cons planned commands ih =>
    rw [List.length_cons] at hdraws
    simp only [apply_batch_commands, Outcome.ite_error_eq_ok, Outcome.bind_eq_ok,
      Prod.exists] at h
    obtain ⟨hid, host_id, hresolve, next, command, hdraft, hrest⟩ := h
    have hid : planned.draft.id = none := by simpa using hid
    have hdraft_id : ({ planned.draft with host_id := host_id } : CommandPresetDraft).id = none := hid
    obtain ⟨rfl, rfl⟩ := apply_command_draft_new hdraft_id (hnew k (Nat.le_refl k) (by omega)) hdraft
    have hlater : ∀ i, k + 1 ≤ i → i < draws → ∀ command ∈ state.command_presets ++
        [command_of_draft (env.new_uuid k) (env.now k) { planned.draft with host_id := host_id }],
        command.id ≠ (env.new_uuid i).to_string := by
      intro i hi hlt command hcommand heq
      rcases List.mem_append.mp hcommand with hold | hadded
      · exact hnew i (by omega) hlt command hold heq
      · rw [List.mem_singleton.mp hadded] at heq
        have hsame := hdistinct k (by omega) i hlt heq
        omega
    obtain ⟨added, hstate, hadded⟩ := ih (by omega) hlater hrest
    refine ⟨_ :: added, ?_, .cons ⟨host_id, hresolve, rfl⟩ hadded⟩
    rw [hstate]
    simp [imported_command]

end

/-! ### What settling leaves -/

/-- Hosts that were not normalized are left as they were. -/
theorem normalize_proxy_jumps_same {hosts hosts' : List HostProfile} {ids : List Text}
    (h : normalize_proxy_jumps hosts ids = .ok hosts') :
    List.Forall₂ (fun host host' => SameButJump host host' ∧ (host.id ∉ ids → host' = host))
      hosts hosts' := by
  induction ids generalizing hosts with
  | nil =>
    obtain rfl := Except.ok.inj h
    exact List.forall₂_same.mpr fun host _ => ⟨.refl host, fun _ => rfl⟩
  | cons x ids ih =>
    obtain ⟨next, hx, hrest⟩ := Outcome.bind_eq_ok.mp h
    obtain ⟨host, jump, hsettles, rfl⟩ := normalize_proxy_jump_for_iff.mp hx
    refine forall₂_trans hsettles.same_others (ih hrest) ?_
    rintro a b c ⟨hab, hkept⟩ ⟨hbc, hkept'⟩
    refine ⟨hab.trans hbc, fun hmem => ?_⟩
    rw [List.mem_cons, not_or] at hmem
    rw [hkept' (by rw [hab.id_eq]; exact hmem.2), hkept hmem.1]

/-- The hosts that were there, then the hosts that were added, with other jumps. -/
theorem settle_proxy_jumps_keeps {ids : List Text} {state state' : PersistedState}
    {old added : List HostProfile} (hhosts : state.hosts = old ++ added)
    (hold : ∀ host ∈ old, host.id ∉ ids) (h : settle_proxy_jumps ids state = .ok state') :
    ∃ settled, state' = { state with hosts := old ++ settled } ∧ SameJumpHosts added settled := by
  simp only [settle_proxy_jumps, Outcome.bind_eq_ok, Except.ok.injEq] at h
  obtain ⟨hosts, hnormalize, _, _, rfl⟩ := h
  have hsame := normalize_proxy_jumps_same hnormalize
  rw [hhosts] at hsame
  obtain ⟨kept, settled, hsplit, hkept, hsettled⟩ := forall₂_append_split hsame
  have hkept_eq : kept = old := by
    clear hsettled hsame hhosts hsplit
    induction hkept with
    | nil => rfl
    | cons hab _ ih =>
      obtain ⟨hfirst, hrest⟩ := List.forall_mem_cons.mp hold
      rw [hab.2 hfirst, ih hrest]
  rw [hsplit, hkept_eq]
  exact ⟨settled, rfl, hsettled.imp fun _ _ hab => hab.1⟩

/-! ### A batch that is applied -/

/-- The host that a reference of a batch names. -/
def Owner (env : Env) (batch : ImportBatch) (state : PersistedState) (host_id : Text) :
    ImportHostReference → Prop
  | .Imported source_id => ∃ item ∈ batch.hosts.zipIdx, item.1.source_id = source_id ∧
      host_id = (env.new_uuid item.2).to_string
  | .Existing existing => host_id = existing ∧ ∃ host ∈ state.hosts, host.id = existing

/-- All of a batch is in the state, after what was there: each host, but for
    the jump, each tunnel and each command as its draft makes it, with the
    host that the batch names, the settings and the hash of the source. -/
structure Imported (env : Env) (batch : ImportBatch) (state state' : PersistedState) : Prop where
  hosts : ∃ added, state'.hosts = state.hosts ++ added ∧
    List.Forall₂ (fun item host => SameButJump (imported_host env item) host)
      batch.hosts.zipIdx added
  tunnels : ∃ added, state'.tunnels = state.tunnels ++ added ∧
    List.Forall₂ (fun item tunnel => ∃ host_id, Owner env batch state host_id item.1.host ∧
      tunnel = imported_tunnel env item host_id)
      (batch.tunnels.zipIdx batch.hosts.length) added
  commands : ∃ added, state'.command_presets = state.command_presets ++ added ∧
    List.Forall₂ (fun item command => ∃ host_id : Option Text,
      Option.Rel (Owner env batch state) host_id item.1.host ∧
        command = imported_command env item host_id)
      (batch.commands.zipIdx (batch.hosts.length + batch.tunnels.length)) added
  settings : apply_batch_settings state.settings batch.settings = .ok state'.settings
  hashes : state'.imported_source_hashes =
    state.imported_source_hashes ++ [batch.source_hash.to_ascii_lowercase]

def full_result (batch : ImportBatch) : ImportBatchResult where
  duplicate := false
  imported_hosts := batch.hosts.length
  imported_tunnels := batch.tunnels.length
  imported_commands := batch.commands.length
  settings_imported := batch.settings.isSome

def duplicate_result : ImportBatchResult where
  duplicate := true
  imported_hosts := 0
  imported_tunnels := 0
  imported_commands := 0
  settings_imported := false

section
variable {env : Env} {batch : ImportBatch} {state state' : PersistedState}

theorem resolve_import_host_owner {host_id : Text} {reference : ImportHostReference}
    (h : resolve_import_host ((imported_ids env batch.hosts.zipIdx).reverse ++ [])
      (state.hosts.map HostProfile.id) reference = .ok host_id) :
    Owner env batch state host_id reference := by
  cases reference with
  | Imported source_id =>
    have hlookup := Option.ok_or_eq_ok.mp h
    rw [List.append_nil] at hlookup
    obtain ⟨before, after, hsplit, _⟩ := List.lookup_eq_some_iff.mp hlookup
    have hreversed : (source_id, host_id) ∈ (imported_ids env batch.hosts.zipIdx).reverse := by
      rw [hsplit]
      exact List.mem_append_right _ List.mem_cons_self
    have hmem := List.mem_reverse.mp hreversed
    obtain ⟨item, hitem, heq⟩ := List.mem_map.mp hmem
    obtain ⟨rfl, rfl⟩ := Prod.mk.inj heq
    exact ⟨item, hitem, rfl, rfl⟩
  | Existing existing =>
    have h : (if existing ∈ state.hosts.map HostProfile.id then .ok existing
        else .error (.Validation ("import references missing destination host ".toList ++ existing)) :
        AppResult Text) = .ok host_id := h
    split at h
    · next hmem =>
      obtain rfl := Except.ok.inj h
      exact ⟨rfl, List.mem_map.mp hmem⟩
    · cases h

theorem resolve_owner_rel {resolve : ImportHostReference → AppResult Text}
    {P : Text → ImportHostReference → Prop} (hP : ∀ host_id reference,
      resolve reference = .ok host_id → P host_id reference)
    {host_id : Option Text} {reference : Option ImportHostReference}
    (h : resolve_owner resolve reference = .ok host_id) : Option.Rel P host_id reference := by
  cases reference with
  | none =>
    obtain rfl := Except.ok.inj h
    exact .none
  | some reference =>
    obtain ⟨found, hfound, h⟩ := Outcome.bind_eq_ok.mp h
    obtain rfl := Except.ok.inj h
    exact .some (hP found reference hfound)

theorem apply_batch_imported {result : ImportBatchResult} (hfresh : Fresh env batch.draws state)
    (h : apply_batch env batch state = .ok (state', result)) :
    Imported env batch state state' ∧ result = full_result batch := by
  simp only [apply_batch, Outcome.bind_eq_ok, Except.ok.injEq, Prod.mk.injEq,
    Prod.exists] at h
  obtain ⟨added, imported, hhosts, settled, hsettle, tunneled, htunnels, commanded, hcommands,
    settings, hsettings, rfl, rfl⟩ := h
  have hdraws : batch.draws = batch.hosts.length + batch.tunnels.length + batch.commands.length :=
    rfl
  obtain ⟨rfl, rfl⟩ := apply_batch_hosts_adds hfresh.distinct (by omega)
    (fun i _ => hfresh.hosts i) hhosts
  -- the identifiers that are normalized are new
  have hids : ∀ host ∈ state.hosts, host.id ∉ env.hash_order
      (((imported_ids env batch.hosts.zipIdx).reverse ++ []).map Prod.snd) := by
    intro host hhost hmem
    have hmem := (env.hash_order_perm _).mem_iff.mp hmem
    rw [List.append_nil, List.mem_map] at hmem
    obtain ⟨pair, hpair, hid⟩ := hmem
    obtain ⟨item, hitem, rfl⟩ := List.mem_map.mp (List.mem_reverse.mp hpair)
    have hlt := List.snd_lt_of_mem_zipIdx hitem
    exact hfresh.hosts item.2 (by omega) host hhost hid.symm
  obtain ⟨jumps, rfl, hjumps⟩ := settle_proxy_jumps_keeps rfl hids hsettle
  obtain ⟨new_tunnels, rfl, hnew_tunnels⟩ :=
    apply_batch_tunnels_adds hfresh.distinct (by omega) (by intro i _; exact hfresh.tunnels i) htunnels
  obtain ⟨new_commands, rfl, hnew_commands⟩ :=
    apply_batch_commands_adds hfresh.distinct (by omega) (by intro i _; exact hfresh.commands i) hcommands
  refine ⟨⟨⟨jumps, rfl, ?_⟩, ⟨new_tunnels, rfl, ?_⟩, ⟨new_commands, rfl, ?_⟩, hsettings, rfl⟩, rfl⟩
  · exact List.forall₂_map_left_iff.mp hjumps
  · refine hnew_tunnels.imp ?_
    rintro item tunnel ⟨host_id, hresolve, heq⟩
    exact ⟨host_id, resolve_import_host_owner hresolve, heq⟩
  · refine hnew_commands.imp ?_
    rintro item command ⟨host_id, hresolve, heq⟩
    exact ⟨host_id, resolve_owner_rel (fun _ _ => resolve_import_host_owner) hresolve, heq⟩

/-- The state grows by what is reported. -/
theorem Imported.counts (h : Imported env batch state state') :
    state'.hosts.length = state.hosts.length + batch.hosts.length ∧
      state'.tunnels.length = state.tunnels.length + batch.tunnels.length ∧
      state'.command_presets.length = state.command_presets.length + batch.commands.length := by
  obtain ⟨hosts, hhosts, hadded⟩ := h.hosts
  obtain ⟨tunnels, htunnels, hadded'⟩ := h.tunnels
  obtain ⟨commands, hcommands, hadded''⟩ := h.commands
  rw [hhosts, htunnels, hcommands, List.length_append, List.length_append, List.length_append,
    ← hadded.length_eq, ← hadded'.length_eq, ← hadded''.length_eq, List.length_zipIdx,
    List.length_zipIdx, List.length_zipIdx]
  exact ⟨rfl, rfl, rfl⟩

end

/-! ### A source is imported once -/

/-- A source was imported, whatever the letter case of its hash. -/
def HasImport (state : PersistedState) (source_hash : Text) : Prop :=
  ∃ hash ∈ state.imported_source_hashes,
    hash.to_ascii_lowercase = source_hash.to_ascii_lowercase.to_ascii_lowercase

theorem hasImport_iff (state : PersistedState) (source_hash : Text) :
    (state.imported_source_hashes.any fun hash =>
      hash.eq_ignore_ascii_case source_hash.to_ascii_lowercase) = true ↔
      HasImport state source_hash := by
  unfold HasImport
  simp only [List.any_eq_true, Text.eq_ignore_ascii_case_iff]

section
variable {state state' : PersistedState}

theorem apply_host_drafts_imports {env : Env} {k : Nat} {drafts : List HostDraft} {ids : List Text}
    (h : apply_host_drafts env k state drafts = .ok (state', ids)) :
    state'.imported_source_hashes = state.imported_source_hashes := by
  induction drafts generalizing k state ids with
  | nil =>
    obtain ⟨rfl, _⟩ := Prod.mk.inj (Except.ok.inj h)
    rfl
  | cons draft drafts ih =>
    simp only [apply_host_drafts, Outcome.ite_error_eq_ok, Outcome.bind_eq_ok,
      Except.ok.injEq, Prod.mk.injEq, Prod.exists] at h
    obtain ⟨_, next, profile, hdraft, rest, ids, hrest, rfl, _⟩ := h
    rw [ih hrest, (apply_host_draft_ok hdraft).state_eq]

theorem settle_proxy_jumps_imports {ids : List Text}
    (h : settle_proxy_jumps ids state = .ok state') :
    state'.imported_source_hashes = state.imported_source_hashes := by
  simp only [settle_proxy_jumps, Outcome.bind_eq_ok, Except.ok.injEq] at h
  obtain ⟨_, _, _, _, rfl⟩ := h
  rfl

theorem apply_host_update_imports {new_uuid : Uuid} {now : Timestamp} {draft : HostDraft}
    {profile : HostProfile}
    (h : apply_host_update new_uuid now state draft = .ok (state', profile)) :
    state'.imported_source_hashes = state.imported_source_hashes := by
  simp only [apply_host_update, Outcome.bind_eq_ok, Except.ok.injEq, Prod.mk.injEq,
    Prod.exists] at h
  obtain ⟨next, _, hdraft, _, _, _, _, rfl, _⟩ := h
  rw [(apply_host_draft_ok hdraft).state_eq]

theorem apply_tunnel_draft_imports {new_uuid : Uuid} {now : Timestamp} {draft : TunnelDraft}
    {profile : TunnelProfile}
    (h : apply_tunnel_draft new_uuid now state draft = .ok (state', profile)) :
    state'.imported_source_hashes = state.imported_source_hashes := by
  simp only [apply_tunnel_draft, Outcome.bind_eq_ok, Outcome.ite_error_eq_ok,
    Except.ok.injEq, Prod.mk.injEq] at h
  obtain ⟨_, _, _, _, _, rfl, _⟩ := h
  rfl

theorem apply_command_draft_imports {new_uuid : Uuid} {now : Timestamp} {draft : CommandPresetDraft}
    {command : CommandPreset}
    (h : apply_command_draft new_uuid now state draft = .ok (state', command)) :
    state'.imported_source_hashes = state.imported_source_hashes := by
  simp only [apply_command_draft, Outcome.bind_eq_ok, Outcome.ite_error_eq_ok,
    Except.ok.injEq, Prod.mk.injEq] at h
  obtain ⟨_, _, _, _, _, rfl, _⟩ := h
  rfl

theorem apply_batch_hosts_imports {env : Env} {k : Nat} {imported imported' : List (Text × Text)}
    {hosts : List ImportBatchHost}
    (h : apply_batch_hosts env k state imported hosts = .ok (state', imported')) :
    state'.imported_source_hashes = state.imported_source_hashes := by
  induction hosts generalizing k state imported with
  | nil =>
    obtain ⟨rfl, _⟩ := Prod.mk.inj (Except.ok.inj h)
    rfl
  | cons planned hosts ih =>
    simp only [apply_batch_hosts, Outcome.ite_error_eq_ok, Outcome.bind_eq_ok,
      Prod.exists] at h
    obtain ⟨_, _, _, _, next, profile, hdraft, hrest⟩ := h
    rw [ih hrest, (apply_host_draft_ok hdraft).state_eq]

theorem apply_batch_tunnels_imports {env : Env} {resolve : ImportHostReference → AppResult Text}
    {k : Nat} {tunnels : List ImportBatchTunnel}
    (h : apply_batch_tunnels env resolve k state tunnels = .ok state') :
    state'.imported_source_hashes = state.imported_source_hashes := by
  induction tunnels generalizing k state with
  | nil =>
    obtain rfl := Except.ok.inj h
    rfl
  | cons planned tunnels ih =>
    simp only [apply_batch_tunnels, Outcome.ite_error_eq_ok, Outcome.bind_eq_ok,
      Prod.exists] at h
    obtain ⟨_, _, _, next, _, hdraft, hrest⟩ := h
    rw [ih hrest, apply_tunnel_draft_imports hdraft]

theorem apply_batch_commands_imports {env : Env} {resolve : ImportHostReference → AppResult Text}
    {k : Nat} {commands : List ImportBatchCommand}
    (h : apply_batch_commands env resolve k state commands = .ok state') :
    state'.imported_source_hashes = state.imported_source_hashes := by
  induction commands generalizing k state with
  | nil =>
    obtain rfl := Except.ok.inj h
    rfl
  | cons planned commands ih =>
    simp only [apply_batch_commands, Outcome.ite_error_eq_ok, Outcome.bind_eq_ok,
      Prod.exists] at h
    obtain ⟨_, _, _, next, _, hdraft, hrest⟩ := h
    rw [ih hrest, apply_command_draft_imports hdraft]

theorem apply_batch_imports {env : Env} {batch : ImportBatch} {result : ImportBatchResult}
    (h : apply_batch env batch state = .ok (state', result)) :
    state'.imported_source_hashes =
      state.imported_source_hashes ++ [batch.source_hash.to_ascii_lowercase] := by
  simp only [apply_batch, Outcome.bind_eq_ok, Except.ok.injEq, Prod.mk.injEq,
    Prod.exists] at h
  obtain ⟨added, imported, hhosts, settled, hsettle, tunneled, htunnels, commanded, hcommands,
    settings, _, rfl, _⟩ := h
  have hkept : commanded.imported_source_hashes = state.imported_source_hashes := by
    rw [apply_batch_commands_imports hcommands, apply_batch_tunnels_imports htunnels,
      settle_proxy_jumps_imports hsettle, apply_batch_hosts_imports hhosts]
  show commanded.imported_source_hashes ++ _ = _
  rw [hkept]

end

section
variable {repo : Repository}

theorem commit_imports {α : Type} {env : Env}
    {change : PersistedState → AppResult (PersistedState × α)}
    (h : ∀ state value, change repo.state = .ok (state, value) →
      repo.state.imported_source_hashes ⊆ state.imported_source_hashes) :
    repo.state.imported_source_hashes ⊆ (repo.commit env change).1.state.imported_source_hashes := by
  rcases commit_cases repo env change with ⟨e, hcommit⟩ | ⟨state, value, hchange, _, hcommit⟩
  · rw [hcommit]
    exact List.Subset.refl _
  · rw [hcommit]
    exact h state value hchange

/-- No operation forgets an import. -/
theorem run_imports (repo : Repository) (env : Env) (op : Operation) :
    repo.state.imported_source_hashes ⊆ (repo.run env op).1.state.imported_source_hashes := by
  have hsame : ∀ {state : PersistedState},
      state.imported_source_hashes = repo.state.imported_source_hashes →
        repo.state.imported_source_hashes ⊆ state.imported_source_hashes := by
    intro state heq
    rw [heq]
    exact List.Subset.refl _
  cases op with
  | save_host draft =>
    show _ ⊆ (repo.save_host env draft).1.state.imported_source_hashes
    unfold Repository.save_host
    split
    · exact List.Subset.refl _
    · refine commit_imports fun state value h => ?_
      simp only [Outcome.bind_eq_ok, Prod.exists, Except.ok.injEq, Prod.mk.injEq] at h
      obtain ⟨_, _, hupdate, _, _, rfl, _⟩ := h
      exact hsame (apply_host_update_imports hupdate)
  | import_hosts drafts =>
    show _ ⊆ (repo.import_hosts env drafts).1.state.imported_source_hashes
    unfold Repository.import_hosts
    split
    · exact List.Subset.refl _
    split
    · exact List.Subset.refl _
    · refine commit_imports fun state value h => ?_
      simp only [Outcome.bind_eq_ok, Prod.exists, Except.ok.injEq, Prod.mk.injEq] at h
      obtain ⟨_, _, hdrafts, _, hsettle, rfl, _⟩ := h
      apply hsame
      rw [settle_proxy_jumps_imports hsettle, apply_host_drafts_imports hdrafts]
  | import_batch batch =>
    show _ ⊆ (repo.import_batch env batch).1.state.imported_source_hashes
    unfold Repository.import_batch
    split
    · exact List.Subset.refl _
    split
    · exact List.Subset.refl _
    split
    · exact List.Subset.refl _
    split
    · exact List.Subset.refl _
    · refine commit_imports fun state value h => ?_
      rw [apply_batch_imports h]
      exact List.subset_append_left _ _
  | begin_host_deletion host_id =>
    show _ ⊆ (repo.begin_host_deletion host_id).1.state.imported_source_hashes
    unfold Repository.begin_host_deletion
    split
    · exact List.Subset.refl _
    split <;> exact List.Subset.refl _
  | finish_host_deletion host_id =>
    show _ ⊆ (repo.finish_host_deletion env host_id).1.state.imported_source_hashes
    unfold Repository.finish_host_deletion
    split
    · exact List.Subset.refl _
    · refine commit_imports fun state value h => ?_
      simp only [Outcome.bind_eq_ok, Except.ok.injEq, Prod.mk.injEq] at h
      obtain ⟨_, hremove, rfl, _⟩ := h
      simp only [remove_host, Outcome.bind_eq_ok, Outcome.ite_error_eq_ok,
        Except.ok.injEq] at hremove
      obtain ⟨_, _, _, rfl⟩ := hremove
      exact List.Subset.refl _
  | abort_host_deletion host_id => exact List.Subset.refl _
  | save_tunnel draft =>
    show _ ⊆ (repo.save_tunnel env draft).1.state.imported_source_hashes
    unfold Repository.save_tunnel
    split
    · exact List.Subset.refl _
    · exact commit_imports fun state value h => hsame (apply_tunnel_draft_imports h)
  | delete_tunnel tunnel_id =>
    show _ ⊆ (repo.delete_tunnel env tunnel_id).1.state.imported_source_hashes
    refine commit_imports fun state value h => ?_
    simp only [Outcome.ite_error_eq_ok, Except.ok.injEq, Prod.mk.injEq] at h
    obtain ⟨_, rfl, _⟩ := h
    exact List.Subset.refl _
  | save_command draft =>
    show _ ⊆ (repo.save_command env draft).1.state.imported_source_hashes
    unfold Repository.save_command
    split
    · exact List.Subset.refl _
    · exact commit_imports fun state value h => hsame (apply_command_draft_imports h)
  | delete_command_for_host command_id host_id =>
    show _ ⊆ (repo.delete_command_for_host env command_id host_id).1.state.imported_source_hashes
    unfold Repository.delete_command_for_host
    split
    · exact List.Subset.refl _
    · refine commit_imports fun state value h => ?_
      simp only [Outcome.ite_error_eq_ok, Outcome.bind_eq_ok, Except.ok.injEq,
        Prod.mk.injEq] at h
      obtain ⟨_, _, _, _, rfl, _⟩ := h
      exact List.Subset.refl _
  | update_settings patch =>
    show _ ⊆ (repo.update_settings env patch).1.state.imported_source_hashes
    refine commit_imports fun state value h => ?_
    simp only [Outcome.bind_eq_ok, Except.ok.injEq, Prod.mk.injEq] at h
    obtain ⟨_, _, rfl, _⟩ := h
    exact List.Subset.refl _

theorem HasImport.steps {later : Repository} {source_hash : Text}
    (h : HasImport repo.state source_hash)
    (hrun : repository.StepsWhen (fun _ _ => True) repo later) :
    HasImport later.state source_hash := by
  induction hrun with
  | refl => exact h
  | step _ _ hnext ih =>
    obtain rfl := Option.some.inj hnext
    obtain ⟨hash, hmem, heq⟩ := ih
    exact ⟨hash, run_imports _ _ _ hmem, heq⟩

end

/-! ### Importing again -/

theorem hexdigit_toLower (c : Char) :
    Text.is_ascii_hexdigit c.toLower = Text.is_ascii_hexdigit c := by
  by_cases hupper : 65 ≤ c.toNat ∧ c.toNat ≤ 90
  · have hall : ∀ n ∈ List.range 26, Text.is_ascii_hexdigit (Char.ofNat (n + 65)).toLower =
        Text.is_ascii_hexdigit (Char.ofNat (n + 65)) := by decide
    have hletter := hall (c.toNat - 65) (List.mem_range.mpr (by omega))
    rwa [Nat.sub_add_cancel hupper.1, Char.ofNat_toNat] at hletter
  · have hsame : c.toLower = c := by
      unfold Char.toLower
      split
      · next hrange =>
        exact absurd ⟨UInt32.le_iff_toNat_le.mp hrange.1, UInt32.le_iff_toNat_le.mp hrange.2⟩ hupper
      · rfl
    rw [hsame]

theorem ascii_of_hexdigit {c : Char} (h : Text.is_ascii_hexdigit c = true) : c.toNat < 128 := by
  show c.val.toNat < 128
  simp only [Text.is_ascii_hexdigit, Char.isDigit, Char.le_def, Bool.or_eq_true,
    Bool.and_eq_true, decide_eq_true_eq, UInt32.le_iff_toNat_le] at h
  simp at h ⊢
  omega

theorem len_of_hexdigits {t : Text} (h : t.all Text.is_ascii_hexdigit = true) :
    t.len = t.length := by
  apply Text.len_of_ascii
  intro c hc
  exact ascii_of_hexdigit (List.all_eq_true.mp h c hc)

/-- A hash stays one in another letter case. -/
theorem is_import_hash_congr {a b : Text} (h : a.eq_ignore_ascii_case b = true) :
    is_import_hash a = is_import_hash b := by
  rw [Text.eq_ignore_ascii_case_iff] at h
  have hlength : a.length = b.length := by
    have hmap := congrArg List.length h
    unfold Text.to_ascii_lowercase at hmap
    rwa [List.length_map, List.length_map] at hmap
  have hall : ∀ t : Text, t.all Text.is_ascii_hexdigit =
      t.to_ascii_lowercase.all Text.is_ascii_hexdigit := by
    intro t
    unfold Text.to_ascii_lowercase
    rw [List.all_map]
    congr 1
    funext c
    exact (hexdigit_toLower c).symm
  unfold is_import_hash
  rw [hall a, hall b, h]
  cases hb : b.to_ascii_lowercase.all Text.is_ascii_hexdigit with
  | false => rw [Bool.and_false, Bool.and_false]
  | true =>
    have hb' : b.all Text.is_ascii_hexdigit = true := (hall b).trans hb
    have ha' : a.all Text.is_ascii_hexdigit = true := (hall a).trans (by rw [h, hb])
    rw [len_of_hexdigits ha', len_of_hexdigits hb', hlength]

/-- What an import of a source answers that was imported before. -/
def answer_again (repo : Repository) : AppResult ImportBatchResult :=
  if repo.deleting_hosts.Nonempty then
    .error (.State "cannot import while a host is being deleted".toList)
  else .ok duplicate_result

theorem import_batch_again {repo : Repository} {batch : ImportBatch}
    (hhash : is_import_hash batch.source_hash = true) (h : HasImport repo.state batch.source_hash)
    (env : Env) : repo.import_batch env batch = (repo, answer_again repo) := by
  have hvalid : validate_import_hash batch.source_hash = .ok () := by
    unfold validate_import_hash
    rw [hhash]
    rfl
  unfold Repository.import_batch answer_again
  rw [hvalid, (hasImport_iff repo.state batch.source_hash).mpr h]
  dsimp only
  split
  · rfl
  · rfl

/-- What an import that succeeds found, and what it left. -/
theorem import_batch_ok {repo : Repository} {env : Env} {batch : ImportBatch}
    {result : ImportBatchResult} (h : (repo.import_batch env batch).2 = .ok result) :
    is_import_hash batch.source_hash = true ∧ repo.deleting_hosts = ∅ ∧
      HasImport (repo.import_batch env batch).1.state batch.source_hash ∧
      ((result = duplicate_result ∧ (repo.import_batch env batch).1 = repo) ∨
        ∃ state', apply_batch env batch repo.state = .ok (state', result) ∧
          (repo.import_batch env batch).1 = { repo with state := state' }) := by
  unfold Repository.import_batch at h ⊢
  cases hvalid : validate_import_hash batch.source_hash with
  | error e =>
    rw [hvalid] at h
    cases h
  | ok _ =>
    rw [hvalid] at h
    dsimp only at h ⊢
    have hhash : is_import_hash batch.source_hash = true := by
      unfold validate_import_hash at hvalid
      rw [Outcome.ite_error_eq_ok] at hvalid
      simpa using hvalid.1
    split at h
    · cases h
    next hdeleting =>
      rw [if_neg hdeleting]
      refine ⟨hhash, Finset.not_nonempty_iff_eq_empty.mp hdeleting, ?_⟩
      split at h
      · next hknown =>
        rw [if_pos hknown]
        obtain rfl := Except.ok.inj h
        exact ⟨(hasImport_iff _ _).mp hknown, .inl ⟨rfl, rfl⟩⟩
      next hknown =>
        rw [if_neg hknown]
        split at h
        · cases h
        next hempty =>
          rw [if_neg hempty]
          rcases commit_cases repo env (apply_batch env batch) with
            ⟨e, hcommit⟩ | ⟨state', value, hchange, _, hcommit⟩
          · rw [hcommit] at h
            cases h
          · rw [hcommit] at h ⊢
            obtain rfl := Except.ok.inj h
            refine ⟨?_, .inr ⟨state', hchange, rfl⟩⟩
            refine ⟨batch.source_hash.to_ascii_lowercase, ?_, rfl⟩
            rw [apply_batch_imports hchange]
            exact List.mem_append_right _ (List.mem_singleton_self _)

def lab_hash : Text := List.replicate 64 'a'

/-- A host, and a tunnel on it. -/
def lab_batch : ImportBatch where
  source_hash := lab_hash
  hosts := [⟨"1".toList, HostDraft.plain none "lab".toList none⟩]
  tunnels := [
    { host := .Imported "1".toList
      draft :=
        { id := none, host_id := [], name := "web".toList, direction := .Local
          bind_address := "localhost".toList, source_port := 8080
          target_host := "localhost".toList, target_port := 80
          auto_start := none, auto_reconnect := none, health_check := none } }]
  commands := []
  settings := none

theorem lab_batch_fresh : Fresh (Env.counting 1) lab_batch.draws Repository.default.state where
  distinct := by
    unfold Distinct
    decide
  hosts := fun _ _ _ hmem => absurd hmem List.not_mem_nil
  tunnels := fun _ _ _ hmem => absurd hmem List.not_mem_nil
  commands := fun _ _ _ hmem => absurd hmem List.not_mem_nil

/-- Two hosts that jump to nothing. -/
def lost_batch : ImportBatch where
  source_hash := lab_hash
  hosts := [⟨"1".toList, HostDraft.plain none "a".toList (some "x".toList)⟩,
    ⟨"2".toList, HostDraft.plain none "b".toList (some "y".toList)⟩]
  tunnels := []
  commands := []
  settings := none

/-- The host of a batch that was imported, while it is being deleted. -/
def deleting_lab : Repository :=
  ((Repository.default.import_batch (Env.counting 1) lab_batch).1.begin_host_deletion
    (Uuid.to_string 1)).1

end Store
