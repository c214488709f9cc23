import RemoteDeck.Migration.Plan
import RemoteDeck.Store.Invariant

/-! # A migration applies what was previewed

    The digest covers all that a plan is made of: the bundle determines its
    parts (`sort_parts_eq`), the parts determine the plan, whatever the order
    of the hash map (`Loads.same_plan`), and `apply` goes on only with a load
    of the previewed digest.
-/

namespace Migration

open Store

namespace SamePlan

variable {a b c : MigrationPlan}

theorem symm (h : SamePlan a b) : SamePlan b a :=
  ⟨h.hosts.symm, h.tunnels.symm, h.commands.symm, h.settings.symm⟩

theorem trans (h : SamePlan a b) (h' : SamePlan b c) : SamePlan a c :=
  ⟨h.hosts.trans h'.hosts, h.tunnels.trans h'.tunnels, h.commands.trans h'.commands,
    h.settings.trans h'.settings⟩

end SamePlan

/-! ### The bundle determines its parts -/

theorem PartRole.bytes_inj {a b : PartRole} (h : a.bytes = b.bytes) : a = b := by
  revert h
  cases a <;> cases b <;> decide

theorem PartRole.bytes_length (role : PartRole) : role.bytes.length < 256 ^ 8 := by
  cases role <;> decide

theorem part_blocks_inj {a b : List SourcePart}
    (h : (a.flatMap fun part => [part.role.bytes, part.bytes.val]) =
      b.flatMap fun part => [part.role.bytes, part.bytes.val]) : a = b := by
  induction a generalizing b with
  | nil =>
    cases b with
    | nil => rfl
    | cons q b => simp at h
  | cons p a ih =>
    cases b with
    | nil => simp at h
    | cons q b =>
      simp only [List.flatMap_cons, List.cons_append, List.nil_append, List.cons.injEq] at h
      obtain ⟨hrole, hbytes, hrest⟩ := h
      have hpart : p = q := by
        cases p
        cases q
        rw [SourcePart.mk.injEq]
        exact ⟨PartRole.bytes_inj hrole, Subtype.ext hbytes⟩
      rw [hpart, ih hrest]

theorem sort_parts_eq {a b : List SourcePart} (h : bundle_bytes a = bundle_bytes b) :
    sort_parts a = sort_parts b := by
  have hfit : ∀ parts : List SourcePart,
      ∀ block ∈ parts.flatMap fun part => [part.role.bytes, part.bytes.val],
        block.length < 256 ^ 8 := by
    intro parts block hblock
    obtain ⟨part, _, hpart⟩ := List.mem_flatMap.mp hblock
    rcases List.mem_pair.mp hpart with rfl | rfl
    · exact part.role.bytes_length
    · have hvec := part.bytes.property
      omega
  have hframes := List.append_cancel_left h
  exact part_blocks_inj (Framing.frames_inj (by omega) (hfit _) (hfit _) hframes)

theorem mem_of_bundle {a b : List SourcePart} (h : bundle_bytes a = bundle_bytes b)
    (part : SourcePart) : part ∈ a ↔ part ∈ b := by
  have hsorted := sort_parts_eq h
  have ha : part ∈ sort_parts a ↔ part ∈ a := List.mem_insertionSort _
  have hb : part ∈ sort_parts b ↔ part ∈ b := List.mem_insertionSort _
  rw [← ha, hsorted, hb]

/-! ### The text of a digest -/

theorem hex_digit_eq {n : Nat} (h : n < 16) :
    Text.is_ascii_hexdigit (hex_digit n) = true ∧ (hex_digit n).toLower = hex_digit n ∧
      (hex_digit n).utf8Size = 1 := by
  revert n
  decide

theorem hex_digit_inj {n m : Nat} (hn : n < 16) (hm : m < 16) (h : hex_digit n = hex_digit m) :
    n = m := by
  have hall : ∀ n < 16, ∀ m < 16, hex_digit n = hex_digit m → n = m := by decide
  exact hall n hn m hm h

theorem mem_hex {bytes : List UInt8} {c : Char} (h : c ∈ hex bytes) :
    ∃ n < 16, c = hex_digit n := by
  obtain ⟨byte, _, hc⟩ := List.mem_flatMap.mp h
  have hbyte := byte.toNat_lt
  rcases List.mem_pair.mp hc with rfl | rfl
  · exact ⟨byte.toNat / 16, by omega, rfl⟩
  · exact ⟨byte.toNat % 16, by omega, rfl⟩

theorem len_hex (bytes : List UInt8) : (hex bytes).len = 2 * bytes.length := by
  induction bytes with
  | nil => rfl
  | cons byte bytes ih =>
    have hbyte := byte.toNat_lt
    have hhigh := (hex_digit_eq (show byte.toNat / 16 < 16 by omega)).2.2
    have hlow := (hex_digit_eq (show byte.toNat % 16 < 16 by omega)).2.2
    show (hex_digit (byte.toNat / 16)).utf8Size +
      ((hex_digit (byte.toNat % 16)).utf8Size + (hex bytes).len) = 2 * (bytes.length + 1)
    omega

theorem hex_lowercase (bytes : List UInt8) : (hex bytes).to_ascii_lowercase = hex bytes := by
  refine List.map_congr_left ?_ |>.trans (List.map_id _)
  intro c hc
  obtain ⟨n, hn, rfl⟩ := mem_hex hc
  exact (hex_digit_eq hn).2.1

theorem hex_inj {a b : List UInt8} (h : hex a = hex b) : a = b := by
  induction a generalizing b with
  | nil =>
    cases b with
    | nil => rfl
    | cons y b => exact absurd h (List.cons_ne_nil _ _).symm
  | cons x a ih =>
    cases b with
    | nil => exact absurd h (List.cons_ne_nil _ _)
    | cons y b =>
      have hcons : hex_digit (x.toNat / 16) :: hex_digit (x.toNat % 16) :: hex a =
          hex_digit (y.toNat / 16) :: hex_digit (y.toNat % 16) :: hex b := h
      simp only [List.cons.injEq] at hcons
      obtain ⟨hhigh, hlow, hrest⟩ := hcons
      have hx := x.toNat_lt
      have hy := y.toNat_lt
      have hdiv := hex_digit_inj (by omega) (by omega) hhigh
      have hmod := hex_digit_inj (by omega) (by omega) hlow
      have hbyte : x = y := UInt8.toNat_inj.mp (by omega)
      rw [hbyte, ih hrest]

/-- A digest as `preview` returns it passes the check of `apply`. -/
theorem validate_hash_hash_parts (sha256 : List UInt8 → Vector UInt8 32)
    (parts : List SourcePart) : validate_hash (hash_parts sha256 parts) = .ok () := by
  have hlen : (hash_parts sha256 parts).len = 64 := by
    rw [hash_parts, len_hex, Vector.length_toList]
  have hdigits : (hash_parts sha256 parts).all Text.is_ascii_hexdigit = true := by
    rw [List.all_eq_true]
    intro c hc
    obtain ⟨n, hn, rfl⟩ := mem_hex hc
    exact (hex_digit_eq hn).1
  simp [validate_hash, hlen, hdigits]

/-! ### The order of a hash map does not show -/

theorem host_before_of_eq {a b : V1Host} (h : a.alias = b.alias) :
    host_before a b = a.id.le b.id := if_pos h

theorem host_before_of_ne {a b : V1Host} (h : a.alias ≠ b.alias) :
    host_before a b = a.alias.le b.alias := if_neg h

theorem host_before_total (a b : V1Host) :
    host_before a b = true ∨ host_before b a = true := by
  by_cases h : a.alias = b.alias
  · rw [host_before_of_eq h, host_before_of_eq h.symm]
    exact Text.le_total _ _
  · rw [host_before_of_ne h, host_before_of_ne (Ne.symm h)]
    exact Text.le_total _ _

theorem host_before_antisymm {a b : V1Host} (hab : host_before a b = true)
    (hba : host_before b a = true) : a.id = b.id := by
  by_cases h : a.alias = b.alias
  · rw [host_before_of_eq h] at hab
    rw [host_before_of_eq h.symm] at hba
    exact Text.le_antisymm hab hba
  · rw [host_before_of_ne h] at hab
    rw [host_before_of_ne (Ne.symm h)] at hba
    exact absurd (Text.le_antisymm hab hba) h

theorem host_before_trans {a b c : V1Host} (hab : host_before a b = true)
    (hbc : host_before b c = true) : host_before a c = true := by
  by_cases h : a.alias = b.alias
  · by_cases h' : b.alias = c.alias
    · rw [host_before_of_eq h] at hab
      rw [host_before_of_eq h'] at hbc
      rw [host_before_of_eq (h.trans h')]
      exact Text.le_trans hab hbc
    · rw [host_before_of_ne h'] at hbc
      rw [host_before_of_ne (h ▸ h'), h]
      exact hbc
  · rw [host_before_of_ne h] at hab
    by_cases h' : b.alias = c.alias
    · rw [host_before_of_ne (h' ▸ h), ← h']
      exact hab
    · rw [host_before_of_ne h'] at hbc
      -- between aliases that agree all aliases agree
      have hne : a.alias ≠ c.alias := by
        intro hac
        rw [hac] at hab
        exact h' (Text.le_antisymm hbc hab)
      rw [host_before_of_ne hne]
      exact Text.le_trans hab hbc

instance : Std.Total fun a b : V1Host => host_before a b = true := ⟨host_before_total⟩

instance : IsTrans V1Host fun a b => host_before a b = true :=
  ⟨fun _ _ _ hab hbc => host_before_trans hab hbc⟩

variable {order order' : List Text → List Text}

theorem mem_host_order {hosts : List V1Host} {host : V1Host}
    (h : host ∈ host_order order hosts) : (hosts.find? fun other => other.id = host.id) = some host := by
  rw [host_order, List.mem_insertionSort, List.mem_filterMap] at h
  obtain ⟨id, _, hfind⟩ := h
  have hid : host.id = id := by simpa using List.find?_some hfind
  rw [hid]
  exact hfind

theorem host_order_eq (horder : ∀ ids, (order ids).Perm ids)
    (horder' : ∀ ids, (order' ids).Perm ids) (hosts : List V1Host) :
    host_order order hosts = host_order order' hosts := by
  refine List.Perm.eq_of_pairwise ?_ (List.pairwise_insertionSort _ _)
    (List.pairwise_insertionSort _ _) ?_
  · intro a b ha hb hab hba
    have hid := host_before_antisymm hab hba
    have hfind := mem_host_order ha
    rw [hid, mem_host_order hb] at hfind
    exact (Option.some.inj hfind).symm
  · have hkeys := (horder (hosts.map V1Host.id)).trans (horder' (hosts.map V1Host.id)).symm
    exact (List.perm_insertionSort _ _).trans
      ((hkeys.filterMap _).trans (List.perm_insertionSort _ _).symm)

theorem map_v1_eq (horder : ∀ ids, (order ids).Perm ids)
    (horder' : ∀ ids, (order' ids).Perm ids) (database : V1Database)
    (settings : Option V1Settings) :
    map_v1 order database settings = map_v1 order' database settings := by
  unfold map_v1
  simp only [host_order_eq horder horder']

/-! ### What a plan is made of -/

variable {crates : Crates} {env : Environment} {fs : FileSystem} {loaded loaded' : LoadedMigration}

theorem validate_plan_same {plan plan' : MigrationPlan} (h : validate_plan plan = .ok plan') :
    SamePlan plan plan' := by
  simp only [validate_plan, Outcome.ite_error_eq_ok, Outcome.bind_eq_ok] at h
  obtain ⟨_, _, _, _, _, _, _, _, _, _, hplan⟩ := h
  obtain rfl := Except.ok.inj hplan
  exact ⟨rfl, rfl, rfl, rfl⟩

/-- The warnings that are passed on do not matter to what is imported. -/
theorem map_labpulse_same {config : LabPulseConfig} {ssh_config : Option Bytes}
    {warnings warnings' : List Text} {plan plan' : MigrationPlan}
    (h : map_labpulse env config ssh_config warnings = .ok plan)
    (h' : map_labpulse env config ssh_config warnings' = .ok plan') : SamePlan plan plan' := by
  simp only [map_labpulse, Outcome.ite_error_eq_ok, Outcome.bind_eq_ok] at h h'
  obtain ⟨_, _, _, commands, hcommands, hplan⟩ := h
  obtain ⟨_, _, _, commands', hcommands', hplan'⟩ := h'
  obtain rfl := Except.ok.inj (hcommands.symm.trans hcommands')
  obtain rfl := Except.ok.inj hplan
  obtain rfl := Except.ok.inj hplan'
  exact ⟨rfl, rfl, rfl, rfl⟩

/-- How a source was loaded: its parts, and the plan that they gave. -/
inductive Loads (crates : Crates) (env : Environment) (order : List Text → List Text) :
    List SourcePart → MigrationPlan → Prop where
  | labpulse (config_bytes : Bytes) (config : LabPulseConfig) (ssh_config : Option Bytes)
      (warnings : List Text) (plan plan' : MigrationPlan)
      (parsed : crates.parse_config config_bytes = .ok config)
      (mapped : map_labpulse env config ssh_config warnings = .ok plan)
      (validated : validate_plan plan = .ok plan') :
      Loads crates env order (⟨.labpulse_config, config_bytes⟩ ::
        (ssh_config.map fun bytes => (⟨.user_openssh_config, bytes⟩ : SourcePart)).toList) plan'
  | v1 (profiles_bytes : Bytes) (database : V1Database) (settings : Option (Bytes × V1Settings))
      (plan plan' : MigrationPlan)
      (parsed : crates.parse_database profiles_bytes = .ok database)
      (parsed_settings : ∀ part ∈ settings, crates.parse_settings part.1 = .ok part.2)
      (mapped : map_v1 order database (settings.map Prod.snd) = .ok plan)
      (validated : validate_plan plan = .ok plan') :
      Loads crates env order (⟨.remotedeck_v1_profiles, profiles_bytes⟩ ::
        (settings.map fun part => (⟨.remotedeck_v1_settings, part.1⟩ : SourcePart)).toList) plan'

theorem load_settings_parsed {total : Nat} {path : Option Path}
    {settings : Option (Bytes × V1Settings)}
    (h : load_settings crates fs total path = .ok settings) :
    ∀ part ∈ settings, crates.parse_settings part.1 = .ok part.2 := by
  cases path with
  | none =>
    obtain rfl := Except.ok.inj h
    exact fun part hpart => nomatch hpart
  | some path =>
    simp only [load_settings, Outcome.bind_eq_ok] at h
    obtain ⟨_, _, parsed, hparsed, hsettings⟩ := h
    obtain rfl := Except.ok.inj hsettings
    intro part hpart
    obtain rfl := Option.some.inj hpart
    exact hparsed

theorem load_migration_loads {source_path : Text}
    (h : load_migration crates env order fs source_path = .ok loaded) :
    Loads crates env order loaded.parts loaded.plan ∧
      loaded.source_hash = hash_parts crates.sha256 loaded.parts := by
  simp only [load_migration, Outcome.bind_eq_ok] at h
  obtain ⟨_, _, input, _, metadata, _, ⟨kind, primary, settings⟩, _, h⟩ := h
  cases kind with
  | LabPulse =>
    simp only [load_labpulse, Outcome.bind_eq_ok] at h
    obtain ⟨read, _, config, hparsed, plan, hmapped, plan', hvalid, hloaded⟩ := h
    obtain rfl := Except.ok.inj hloaded
    exact ⟨.labpulse _ _ _ _ _ _ hparsed hmapped hvalid, rfl⟩
  | RemoteDeckV1 =>
    simp only [load_v1, Outcome.bind_eq_ok] at h
    obtain ⟨read, _, database, hparsed, parts, hsettings, plan, hmapped, plan', hvalid, hloaded⟩ := h
    obtain rfl := Except.ok.inj hloaded
    exact ⟨.v1 _ _ _ _ _ hparsed (load_settings_parsed hsettings) hmapped hvalid, rfl⟩

/-- The part of a role, where the parts have one. -/
theorem optional_part_eq {α β : Type} {role : PartRole} {first first' : SourcePart}
    {a : Option α} {b : Option β} {f : α → Bytes} {g : β → Bytes}
    (hfirst : first.role ≠ role) (hfirst' : first'.role ≠ role)
    (h : ∀ part : SourcePart,
      part ∈ first :: (a.map fun x => (⟨role, f x⟩ : SourcePart)).toList ↔
        part ∈ first' :: (b.map fun x => (⟨role, g x⟩ : SourcePart)).toList) :
    a.map f = b.map g := by
  have hmem : ∀ bytes : Bytes, a.map f = some bytes ↔ b.map g = some bytes := by
    intro bytes
    have hpart := h ⟨role, bytes⟩
    have hne : (⟨role, bytes⟩ : SourcePart) ≠ first := fun heq => hfirst (heq ▸ rfl)
    have hne' : (⟨role, bytes⟩ : SourcePart) ≠ first' := fun heq => hfirst' (heq ▸ rfl)
    simp only [List.mem_cons, hne, hne', false_or, Option.mem_toList] at hpart
    cases a <;> cases b <;> simp_all
  exact Option.ext hmem

theorem Loads.same_plan {parts parts' : List SourcePart} {plan plan' : MigrationPlan}
    (horder : ∀ ids, (order ids).Perm ids) (horder' : ∀ ids, (order' ids).Perm ids)
    (h : Loads crates env order parts plan) (h' : Loads crates env order' parts' plan')
    (hparts : ∀ part, part ∈ parts ↔ part ∈ parts') : SamePlan plan plan' := by
  cases h with
  | labpulse bytes config ssh_config _ _ _ hparsed hmapped hvalid =>
    cases h' with
    | labpulse bytes' config' ssh_config' _ _ _ hparsed' hmapped' hvalid' =>
      have hbytes : bytes = bytes' := by
        have hmem := (hparts ⟨.labpulse_config, bytes⟩).mp (List.mem_cons_self ..)
        cases ssh_config' <;> simp_all
      subst hbytes
      obtain rfl := Except.ok.inj (hparsed.symm.trans hparsed')
      have hssh := optional_part_eq (f := id) (g := id) (by simp) (by simp) hparts
      simp only [Option.map_id, id] at hssh
      subst hssh
      exact (validate_plan_same hvalid).symm.trans
        ((map_labpulse_same hmapped hmapped').trans (validate_plan_same hvalid'))
    | v1 =>
      have hmem := (hparts ⟨.labpulse_config, bytes⟩).mp (List.mem_cons_self ..)
      simp at hmem
  | v1 bytes database settings _ _ hparsed hsettings hmapped hvalid =>
    cases h' with
    | labpulse =>
      have hmem := (hparts ⟨.remotedeck_v1_profiles, bytes⟩).mp (List.mem_cons_self ..)
      simp at hmem
    | v1 bytes' database' settings' _ _ hparsed' hsettings' hmapped' hvalid' =>
      have hbytes : bytes = bytes' := by
        have hmem := (hparts ⟨.remotedeck_v1_profiles, bytes⟩).mp (List.mem_cons_self ..)
        cases settings' <;> simp_all
      subst hbytes
      obtain rfl := Except.ok.inj (hparsed.symm.trans hparsed')
      have hpart := optional_part_eq (by simp) (by simp) hparts
      have hsame : settings = settings' := by
        cases settings with
        | none =>
          cases settings' with
          | none => rfl
          | some part' => nomatch hpart
        | some part =>
          cases settings' with
          | none => nomatch hpart
          | some part' =>
            -- the same bytes are parsed to the same settings
            have hfirst : part.1 = part'.1 := Option.some.inj hpart
            have hsecond := hsettings part rfl
            rw [hfirst, hsettings' part' rfl] at hsecond
            rw [Prod.ext hfirst (Except.ok.inj hsecond).symm]
      subst hsame
      rw [map_v1_eq horder horder', hmapped'] at hmapped
      obtain rfl := Except.ok.inj hmapped
      exact (validate_plan_same hvalid).symm.trans (validate_plan_same hvalid')

/-! ### Apply -/

theorem apply_of_load {store : Store.Env} {repo : Repository} {request : LegacyApplyRequest}
    (hrequest : validate_hash request.source_hash = .ok ())
    (hload : load_migration crates env order fs request.source_path = .ok loaded) :
    apply crates env order fs repo store request =
      if loaded.source_hash ≠ request.source_hash.to_ascii_lowercase then
        (repo, .error (.State
          "legacy source changed after preview; preview it again before importing".toList))
      else apply_loaded repo store request loaded := by
  unfold apply
  simp only [hrequest, hload]

/-- **A migration applies what was previewed.**  A source was previewed, and
    is applied with the hash that the preview returned: in another state of
    the files, of the repository and of the hash maps.  Where the load of
    `apply` has that hash, and the two bundles are no collision, its plan is
    the one previewed and is what is imported; where it has not, nothing is
    written. -/
theorem apply_previewed (fs' : FileSystem) (repo : Repository) (store : Store.Env)
    (request : LegacyApplyRequest) {source_path : Text} {state : PersistedState}
    {shown : LegacyPreview}
    (horder : ∀ ids, (order ids).Perm ids) (horder' : ∀ ids, (order' ids).Perm ids)
    (hload : load_migration crates env order fs source_path = .ok loaded)
    (hshown : preview crates env order fs state source_path = .ok shown)
    (hrequest : request.source_hash = shown.source_hash)
    (hcollision : ∀ loaded',
      load_migration crates env order' fs' request.source_path = .ok loaded' →
      crates.sha256 (bundle_bytes loaded'.parts) = crates.sha256 (bundle_bytes loaded.parts) →
      bundle_bytes loaded'.parts = bundle_bytes loaded.parts) :
    (∀ loaded', load_migration crates env order' fs' request.source_path = .ok loaded' →
      loaded'.source_hash = shown.source_hash →
        SamePlan loaded.plan loaded'.plan ∧
          apply crates env order' fs' repo store request =
            apply_loaded repo store request loaded') ∧
    ((∀ loaded', load_migration crates env order' fs' request.source_path = .ok loaded' →
      loaded'.source_hash ≠ shown.source_hash) →
        ∃ e, apply crates env order' fs' repo store request = (repo, .error e)) := by
  obtain ⟨hloads, hhash⟩ := load_migration_loads hload
  have hsource : request.source_hash = loaded.source_hash := by
    rw [preview, hload] at hshown
    obtain rfl := Except.ok.inj hshown
    exact hrequest
  have hvalid : validate_hash request.source_hash = .ok () := by
    rw [hsource, hhash]
    exact validate_hash_hash_parts _ _
  have hlower : request.source_hash.to_ascii_lowercase = request.source_hash := by
    rw [hsource, hhash]
    exact hex_lowercase _
  rw [← hrequest]
  constructor
  · intro loaded' hload' hsame
    obtain ⟨hloads', hhash'⟩ := load_migration_loads hload'
    -- equal texts are equal digests, equal digests equal bundles
    have hdigest : crates.sha256 (bundle_bytes loaded'.parts) =
        crates.sha256 (bundle_bytes loaded.parts) := by
      have htext : hash_parts crates.sha256 loaded'.parts =
          hash_parts crates.sha256 loaded.parts := by
        rw [← hhash', ← hhash, hsame, hsource]
      exact Vector.toList_inj.mp (hex_inj htext)
    have hparts := mem_of_bundle (hcollision loaded' hload' hdigest).symm
    refine ⟨hloads.same_plan horder horder' hloads' hparts, ?_⟩
    rw [apply_of_load hvalid hload', hlower, hsame]
    exact if_neg (not_not_intro rfl)
  · intro hother
    cases hload' : load_migration crates env order' fs' request.source_path with
    | error e =>
      refine ⟨e, ?_⟩
      unfold apply
      simp only [hvalid, hload']
    | ok loaded' =>
      have hne : loaded'.source_hash ≠ request.source_hash.to_ascii_lowercase := by
        rw [hlower]
        exact hother loaded' hload'
      exact ⟨_, (apply_of_load hvalid hload').trans (if_pos hne)⟩

/-! A source of two hosts, applied where the hash map gives them the other
    way round. -/

def two_hosts_json : Text :=
  ["\x7b\"schemaVersion\":1,\"authProfiles\":[",
    "\x7b\"id\":\"a\",\"method\":\"agent\",",
    "\"agent\":\"windows_openssh\"\x7d],\"hosts\":[",
    "\x7b\"id\":\"1\",\"alias\":\"lab\",",
    "\"hostname\":\"lab\",\"port\":22,",
    "\"username\":\"u\",\"authProfileId\":\"a\"\x7d,",
    "\x7b\"id\":\"2\",\"alias\":\"db\",",
    "\"hostname\":\"db\",\"port\":22,",
    "\"username\":\"u\",\"authProfileId\":\"a\"\x7d]\x7d"].flatMap
    String.toList

def v1_host (id name : String) : V1Host where
  id := id.toList
  «alias» := name.toList
  hostname := name.toList
  port := 22
  username := "u".toList
  auth_profile_id := "a".toList
  jump_host_id := none
  default_workspace_id := none
  groups := []
  advanced := ⟨15, 30, 3, true, false, false⟩
  monitor_enabled := false

def two_hosts : V1Database where
  schema_version := 1
  hosts := [v1_host "1" "lab", v1_host "2" "db"]
  auth_profiles := [⟨"a".toList, "agent".toList, none, some "windows_openssh".toList⟩]
  workspaces := []
  host_keys := 0
  tunnels := []
  commands := []
  private_keys := 0
  imports := 0

def two_hosts_bytes : Bytes := ⟨utf8 two_hosts_json, by decide +kernel⟩

def two_hosts_digest : Vector UInt8 32 :=
  ⟨#[58, 95, 252, 170, 203, 236, 92, 107, 11, 71, 127, 195, 87, 198, 44, 33, 156, 7, 124, 126, 35,
    87, 203, 231, 219, 131, 43, 150, 99, 162, 224, 4], rfl⟩

/-- The digest of the bundle, and another one of everything else. -/
def two_hosts_crates : Crates where
  sha256 bytes :=
    if bytes = bundle_bytes [⟨.remotedeck_v1_profiles, two_hosts_bytes⟩] then two_hosts_digest
    else Vector.replicate 32 0
  parse_config _ := .error (.Json "missing field".toList)
  parse_database bytes :=
    if bytes = two_hosts_bytes then .ok two_hosts else .error (.Json "expected value".toList)
  parse_settings _ := .error (.Json "missing field".toList)

def two_hosts_files : FileSystem where
  canonicalize path := .ok path
  metadata path :=
    if path = "/old".toList then .ok ⟨true, false, 0⟩
    else if path = "/old/profiles.json".toList then .ok ⟨false, true, 272⟩
    else .error (.Io "No such file or directory (os error 2)".toList)
  read path :=
    if path = "/old/profiles.json".toList then .ok two_hosts_bytes
    else .error (.Io "No such file or directory (os error 2)".toList)

def bare_environment : Environment := ⟨none, none, none, none⟩

def import_everything : LegacyApplyRequest where
  source_path := "/old".toList
  source_hash := hex two_hosts_digest.toList
  include_hosts := true
  include_tunnels := true
  include_commands := true
  include_settings := true

/-- The bundle that a load of the source has, whatever the order. -/
def loads_two_hosts (order : List Text → List Text) : Bool :=
  (load_migration two_hosts_crates bare_environment order two_hosts_files "/old".toList).toOption.any
    fun loaded => loaded.parts = [⟨.remotedeck_v1_profiles, two_hosts_bytes⟩] ∧
      loaded.source_hash = hex two_hosts_digest.toList

theorem two_hosts_applied : ∃ loaded loaded',
    load_migration two_hosts_crates bare_environment id two_hosts_files "/old".toList = .ok loaded ∧
    load_migration two_hosts_crates bare_environment List.reverse two_hosts_files "/old".toList =
      .ok loaded' ∧
    SamePlan loaded.plan loaded'.plan ∧
    apply two_hosts_crates bare_environment List.reverse two_hosts_files .default (.counting 0)
      import_everything = apply_loaded .default (.counting 0) import_everything loaded' := by
  have hloads : ∀ order, loads_two_hosts order = true → ∃ loaded,
      load_migration two_hosts_crates bare_environment order two_hosts_files "/old".toList =
        .ok loaded ∧ loaded.parts = [⟨.remotedeck_v1_profiles, two_hosts_bytes⟩] ∧
      loaded.source_hash = hex two_hosts_digest.toList := by
    intro order h
    unfold loads_two_hosts at h
    cases hload : load_migration two_hosts_crates bare_environment order two_hosts_files
        "/old".toList with
    | error e =>
      rw [hload] at h
      exact absurd h Bool.false_ne_true
    | ok loaded =>
      rw [hload] at h
      exact ⟨loaded, rfl, of_decide_eq_true h⟩
  obtain ⟨loaded, hload, hparts, hhash⟩ := hloads id (by decide +kernel)
  obtain ⟨loaded', hload', hparts', hhash'⟩ := hloads List.reverse (by decide +kernel)
  have hshown : preview two_hosts_crates bare_environment id two_hosts_files .default
      "/old".toList = .ok (preview_loaded .default loaded) := by
    rw [preview, hload]
    rfl
  have hcollision : ∀ other,
      load_migration two_hosts_crates bare_environment List.reverse two_hosts_files
        import_everything.source_path = .ok other →
      two_hosts_crates.sha256 (bundle_bytes other.parts) =
        two_hosts_crates.sha256 (bundle_bytes loaded.parts) →
      bundle_bytes other.parts = bundle_bytes loaded.parts := by
    intro other hother _
    obtain rfl := Except.ok.inj (hload'.symm.trans hother)
    rw [hparts, hparts']
  have happly := apply_previewed two_hosts_files .default (.counting 0) import_everything
    (fun ids => .refl _) (show ∀ ids : List Text, ids.reverse.Perm ids from List.reverse_perm)
    hload hshown hhash.symm hcollision
  obtain ⟨hsame, heq⟩ := happly.1 loaded' hload' (hhash'.trans hhash.symm)
  exact ⟨loaded, loaded', hload, hload', hsame, heq⟩

end Migration
