import RemoteDeck.Tunnel.Published

/-! # The records of a tunnel

    The name of an entry belongs to one tunnel for good: a start puts its
    profile into the entry that it found under the id of the tunnel.  Hence
    all snapshots of an entry are of one tunnel, and a tunnel with a single
    entry has its revisions in order.
-/

namespace Tunnel

variable {registry registry' : TunnelRegistry} {events events' : EventRegistry} {label : Label}
  {name : Nat} {tunnel_id : Text} {snapshot : TunnelSnapshot}

/-- The tunnel that an entry is of. -/
def TunnelRegistry.tunnel_of (registry : TunnelRegistry) (name : Nat) : Option Text :=
  (registry.inner name).map fun inner => inner.profile.id

theorem tunnel_of_eq_some :
    registry.tunnel_of name = some tunnel_id ↔
      ∃ inner, registry.inner name = some inner ∧ inner.profile.id = tunnel_id :=
  Option.map_eq_some_iff

/-- The operation is a start of this tunnel that is at work on this entry. -/
def Starting (registry : TunnelRegistry) (tunnel_id : Text) (name : Nat) : Prop :=
  ∃ host tunnel stage, registry.operation = some (.start host tunnel stage) ∧
    tunnel.id = tunnel_id ∧ stage.target = some name

/-- The registry and the operation name entries of the right tunnel. -/
structure RecordInv (registry : TunnelRegistry) : Prop where
  lookup : ∀ id name, registry.entries.lookup id = some name → registry.tunnel_of name = some id
  starting : ∀ id name, Starting registry id name → registry.tunnel_of name = some id

theorem recordInv_default : RecordInv .default where
  lookup id name h := by simp [TunnelRegistry.default] at h
  starting id name h := by
    obtain ⟨host, tunnel, stage, hop, _⟩ := h
    simp [TunnelRegistry.default] at hop

/-! ### Where a name comes from -/

/-- A name that the registry or the operation gives was given before, or it is
    that of a new entry. -/
structure NamesKept (registry registry' : TunnelRegistry) : Prop where
  lookup : ∀ id name, registry'.entries.lookup id = some name →
    registry.entries.lookup id = some name ∨ registry'.tunnel_of name = some id
  starting : ∀ id name, Starting registry' id name →
    Starting registry id name ∨ registry'.entries.lookup id = some name

theorem NamesKept.of_idle (hentries : ∀ id name, registry'.entries.lookup id = some name →
      registry.entries.lookup id = some name)
    (hidle : ∀ id name, ¬ Starting registry' id name) : NamesKept registry registry' :=
  ⟨fun id name h => .inl (hentries id name h), fun id name h => absurd h (hidle id name)⟩

theorem not_starting_none {operation : Option Operation} (hop : registry.operation = operation)
    (hnone : ∀ host tunnel stage, operation = some (.start host tunnel stage) → stage.target = none)
    (id : Text) (name : Nat) : ¬ Starting registry id name := by
  rintro ⟨host, tunnel, stage, hstart, _, htarget⟩
  rw [hop] at hstart
  rw [hnone host tunnel stage hstart] at htarget
  exact absurd htarget.symm (Option.some_ne_none name)

/-- The entries stay, and a start stays with its entry. -/
theorem NamesKept.of_same {host host' : HostProfile} {tunnel : TunnelProfile}
    {stage stage' : StartStage} (hentries : registry'.entries = registry.entries)
    (hop : registry.operation = some (.start host tunnel stage))
    (hop' : registry'.operation = some (.start host' tunnel stage'))
    (htarget : stage'.target = stage.target) : NamesKept registry registry' := by
  constructor
  · intro id name h
    exact .inl (hentries ▸ h)
  · rintro id name ⟨_, _, _, hstart, hid, hname⟩
    rw [hop'] at hstart
    cases hstart
    exact .inl ⟨host, tunnel, stage, hop, hid, htarget ▸ hname⟩

theorem StartEffect.names {host : HostProfile} {tunnel : TunnelProfile} {stage : StartStage}
    {event : StartEvent} (hop : registry.operation = some (.start host tunnel stage))
    (h : StartEffect registry host tunnel stage event registry') : NamesKept registry registry' := by
  have hidle : ∀ {ended : TunnelRegistry}, ended.operation = none →
      ∀ id name, ¬ Starting ended id name :=
    fun hended => not_starting_none hended fun _ _ _ h => absurd h.symm (Option.some_ne_none _)
  cases h with
  | refuses => exact .of_idle (fun _ _ h => h) (hidle rfl)
  | limited => exact .of_idle (fun _ _ h => lookup_fold_erase h) (hidle rfl)
  | @finds _ current name hlookup =>
    constructor
    · intro id found h
      exact .inl (lookup_fold_erase h)
    · rintro id found ⟨_, _, _, hstart, hid, hname⟩
      cases hstart
      obtain rfl := Option.some.inj hname
      exact .inr (hid ▸ hlookup)
  | @makes _ current hlookup =>
    constructor
    · intro id found h
      have h : ((retain registry).entries.insert tunnel.id registry.made).lookup id = some found := h
      by_cases hid : id = tunnel.id
      · subst hid
        rw [AList.lookup_insert, Option.some.injEq] at h
        subst h
        refine .inr (tunnel_of_eq_some.mpr ⟨.new tunnel, ?_, rfl⟩)
        show ((insert_entry (retain registry) tunnel).heap (retain registry).made).map _ = _
        rw [heap_insert_entry, if_pos rfl]
        rfl
      · rw [AList.lookup_insert_ne hid] at h
        exact .inl (lookup_fold_erase h)
    · rintro id found ⟨_, _, _, hstart, hid, hname⟩
      cases hstart
      obtain rfl := Option.some.inj hname
      right
      show ((retain registry).entries.insert tunnel.id registry.made).lookup id = _
      rw [← hid, AList.lookup_insert]
  | locks => exact .of_same rfl hop rfl rfl
  | returns => exact .of_idle (fun _ _ h => h) (hidle rfl)
  | proceeds => exact .of_same rfl hop rfl rfl
  | bumps _ hstage =>
    rcases hstage with ⟨rfl, _⟩ | ⟨child, rfl, _⟩
    · exact .of_same rfl hop rfl rfl
    · exact .of_same rfl hop rfl rfl
  | terminates => exact .of_same rfl hop rfl rfl
  | fails => exact .of_idle (fun _ _ h => h) (hidle rfl)
  | requests => exact .of_same rfl hop rfl rfl
  | spawns => exact .of_idle (fun _ _ h => h) (hidle rfl)
  | spawn_fails => exact .of_idle (fun _ _ h => h) (hidle rfl)

theorem StopEffect.entries {task : StopTask} {stage : StopStage}
    (h : StopEffect registry task registry' stage) : registry'.entries = registry.entries := by
  cases h <;> rfl

/-- A stop leaves names only, and at most a start that has not looked yet. -/
theorem finish_stop_names (registry : TunnelRegistry) (tasks : List StopTask) (after : After) :
    NamesKept registry (finish_stop registry tasks after) := by
  obtain ⟨-, -, hentries⟩ := remove_stopped_effect registry tasks
  have hentries := fun id name h => (hentries id name h).1
  unfold finish_stop
  split
  · refine .of_idle (fun _ _ h => h) (not_starting_none rfl ?_)
    exact fun _ _ _ h => absurd h.symm (Option.some_ne_none _)
  · refine .of_idle hentries (not_starting_none rfl ?_)
    exact fun _ _ _ h => absurd h.symm (Option.some_ne_none _)
  · split
    · refine .of_idle (fun _ _ h => h) (not_starting_none rfl ?_)
      rintro _ _ _ h
      cases h
      rfl
    · refine .of_idle (fun _ _ h => h) (not_starting_none rfl ?_)
      exact fun _ _ _ h => absurd h.symm (Option.some_ne_none _)
  · split
    · refine .of_idle hentries (not_starting_none rfl ?_)
      exact fun _ _ _ h => absurd h.symm (Option.some_ne_none _)
    · refine .of_idle hentries (not_starting_none rfl ?_)
      rintro _ _ _ h
      cases h

theorem Step.names (h : Step registry label registry') : NamesKept registry registry' := by
  cases h with
  | work => exact ⟨fun _ _ h => .inl h, fun _ _ h => .inl h⟩
  | process_line => exact ⟨fun _ _ h => .inl h, fun _ _ h => .inl h⟩
  | child_exits => exact ⟨fun _ _ h => .inl h, fun _ _ h => .inl h⟩
  | begins _ hfresh =>
    refine .of_idle (fun _ _ h => h) (not_starting_none rfl ?_)
    rintro host tunnel stage h
    obtain rfl := Option.some.inj h
    cases hfresh
    rfl
  | starts hop heffect => exact heffect.names hop
  | stops hop _ heffect =>
    refine .of_idle (fun _ _ h => heffect.entries ▸ h) (not_starting_none rfl ?_)
    rintro _ _ _ h
    cases h
  | finishes => exact finish_stop_names ..

/-! ### An entry stays with its tunnel -/

theorem RecordInv.keeps_tunnel (h : RecordInv registry)
    (hfresh : registry.heap registry.made = none) (hnext : registry.next label = some registry')
    (htunnel : registry.tunnel_of name = some tunnel_id) :
    registry'.tunnel_of name = some tunnel_id := by
  obtain ⟨inner, hinner, hid⟩ := tunnel_of_eq_some.mp htunnel
  obtain ⟨inner', hinner', _, hprofile⟩ := (next_view hnext).after hfresh hinner
  refine tunnel_of_eq_some.mpr ⟨inner', hinner', ?_⟩
  rcases hprofile with hprofile | ⟨host, hop⟩
  · rw [hprofile, hid]
  · -- a start that is at work on the entry is one of its tunnel
    have hstarting : Starting registry inner'.profile.id name := ⟨host, _, _, hop, rfl, rfl⟩
    have hsame := h.starting _ _ hstarting
    rw [htunnel, Option.some.injEq] at hsame
    exact hsame.symm

theorem RecordInv.next (h : RecordInv registry) (hfresh : registry.heap registry.made = none)
    (hnext : registry.next label = some registry') : RecordInv registry' := by
  have hnames := (next_step hnext).names
  have hlookup : ∀ id name, registry'.entries.lookup id = some name →
      registry'.tunnel_of name = some id := by
    intro id name hfound
    rcases hnames.lookup id name hfound with hbefore | hnew
    · exact h.keeps_tunnel hfresh hnext (h.lookup id name hbefore)
    · exact hnew
  refine ⟨hlookup, fun id name hstarting => ?_⟩
  rcases hnames.starting id name hstarting with hbefore | hfound
  · exact h.keeps_tunnel hfresh hnext (h.starting id name hbefore)
  · exact hlookup id name hfound

/-! ### The snapshots of an entry -/

/-- The known snapshots are of the tunnels of their entries. -/
structure NamedInv (events : EventRegistry) : Prop where
  records : RecordInv events.registry
  known : ∀ item ∈ events.known, events.registry.tunnel_of item.1 = some item.2.tunnel_id

theorem namedInv_default : NamedInv .default where
  records := recordInv_default
  known item h := by simp [EventRegistry.default, EventRegistry.known] at h

theorem Shows.of_tunnel {inner : TunnelInner} (h : Shows snapshot inner) :
    snapshot.tunnel_id = inner.profile.id := by
  obtain ⟨now, rfl | rfl⟩ := h
  · rfl
  · rfl

theorem NamedInv.next (h : NamedInv events) (hinv : EventInv events) {label : EventLabel}
    (hnext : events.next label = some events') : NamedInv events' := by
  rcases next_events hnext with ⟨step, registry', _, hstep, hevents'⟩ | ⟨event, _, hevent, rfl⟩
  · have hregistry : events'.registry = registry' := by rw [hevents']
    have hfresh := hinv.fresh _ le_rfl
    refine ⟨hregistry ▸ h.records.next hfresh hstep, fun item hitem => ?_⟩
    rw [hregistry]
    rcases (known_step hevents').mp hitem with hknown | ⟨event, hevent, rfl⟩
    · exact h.records.keeps_tunnel hfresh hstep (h.known item hknown)
    · obtain ⟨inner', hinner', _, hshows⟩ := made_event_shows hevent
      exact tunnel_of_eq_some.mpr ⟨inner', hinner', hshows.of_tunnel.symm⟩
  · exact ⟨h.records, fun item hitem => h.known item (known_of_emit hevent hitem)⟩

/-- A tunnel with a single entry has its revisions in order. -/
theorem revisions_of_single (h : NamedInv events) (hinv : EventInv events)
    (hsingle : ∀ name name', events.registry.tunnel_of name = some tunnel_id →
      events.registry.tunnel_of name' = some tunnel_id → name = name') :
    (events.revisions_of tunnel_id).Pairwise (· ≤ ·) := by
  have htunnel : ∀ item ∈ events.published,
      events.registry.tunnel_of item.1 = some item.2.tunnel_id :=
    fun item hitem => h.known item (mem_known.mpr (.inr hitem))
  by_cases hnone : ∃ item ∈ events.published, item.2.tunnel_id = tunnel_id
  · obtain ⟨first, hfirst, hid⟩ := hnone
    have hfilter : (events.published.filter fun item => item.2.tunnel_id = tunnel_id) =
        events.published.filter fun item => item.1 = first.1 := by
      refine List.filter_congr fun item hitem => decide_eq_decide.mpr ⟨fun hsame => ?_, fun hsame => ?_⟩
      · exact hsingle _ _ (hsame ▸ htunnel item hitem) (hid ▸ htunnel first hfirst)
      · have hboth := htunnel item hitem
        rw [hsame, htunnel first hfirst, Option.some.injEq] at hboth
        exact hboth.symm.trans hid
    have hordered := hinv.ordered first.1
    unfold EventRegistry.revisions_of
    rw [hfilter]
    unfold EventRegistry.published_of at hordered
    rw [List.pairwise_map] at hordered ⊢
    exact hordered
  · have hempty : (events.published.filter fun item => item.2.tunnel_id = tunnel_id) = [] := by
      rw [List.filter_eq_nil_iff]
      intro item hitem hsame
      exact hnone ⟨item, hitem, of_decide_eq_true hsame⟩
    unfold EventRegistry.revisions_of
    rw [hempty]
    exact List.Pairwise.nil

end Tunnel
