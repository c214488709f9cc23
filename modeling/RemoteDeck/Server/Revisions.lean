import RemoteDeck.Store.Invariant
import RemoteDeck.Telemetry.Events
import RemoteDeck.Tunnel.Records

/-! # The revisions of what survives

    The repository, the tunnels and the telemetry of one server.  Every step
    of one of them is a step here, in any order: `delete_tunnel` is a removal
    from the registry followed by one from the repository, `delete_host` a
    reservation, a stop of the tunnels and a removal of the telemetry of the
    host followed by a deletion or an abort, and either may end midway.

    Revisions are counted in the records of the registries.  They go on where
    a saved tunnel or host never gets a second record (`counted`).
-/

namespace Server

open Tunnel (TunnelRegistry EventRegistry EventLabel)
open Telemetry (Monitors StatusEvents StatusLabel TelemetryStatus)

/-! ### The machine -/

structure Runtime where
  repository : Store.Repository
  /-- The profiles that calls have read in order to start them. -/
  reads : List TunnelProfile
  tunnels : EventRegistry
  telemetry : StatusEvents

inductive RuntimeLabel where
  | store (env : Store.Env) (operation : Store.Operation)
  | read_tunnel (tunnel_id : Text)
  | tunnel (label : EventLabel)
  | telemetry (label : StatusLabel)

/-- A start comes with a profile that was read from the repository. -/
def Runtime.may_start (runtime : Runtime) : EventLabel → Bool
  | .step (.start _ tunnel) | .step (.restart _ tunnel) => tunnel ∈ runtime.reads
  | _ => true

def Runtime.saves_tunnel (runtime : Runtime) (tunnel_id : Text) : Bool :=
  runtime.repository.state.tunnels.any fun tunnel => tunnel.id = tunnel_id

def Runtime.saves_host (runtime : Runtime) (host_id : Text) : Bool :=
  runtime.repository.state.hosts.any fun host => host.id = host_id

/-- An entry was made for the tunnel. -/
def Runtime.had_record (runtime : Runtime) (tunnel_id : Text) : Bool :=
  (List.range runtime.tunnels.registry.made).any fun name =>
    runtime.tunnels.registry.tunnel_of name = some tunnel_id

/-- A status was written for the host. -/
def Runtime.had_status (runtime : Runtime) (host_id : Text) : Bool :=
  (runtime.telemetry.registry.statuses host_id).isSome ||
    runtime.telemetry.known.any fun status => status.host_id = host_id

/-- The identifiers that an operation has drawn are new to the registries. -/
def Runtime.draws_new (runtime : Runtime) (repository : Store.Repository) : Bool :=
  (repository.state.tunnels.all fun tunnel =>
    runtime.saves_tunnel tunnel.id || !runtime.had_record tunnel.id) &&
  repository.state.hosts.all fun host =>
    runtime.saves_host host.id || !runtime.had_status host.id

def Runtime.next (runtime : Runtime) : RuntimeLabel → Option Runtime
  | .store env operation =>
      let repository := (runtime.repository.run env operation).1
      if runtime.draws_new repository then some { runtime with repository := repository } else none
  | .read_tunnel tunnel_id =>
      match runtime.repository.tunnel tunnel_id with
      | .ok tunnel => some { runtime with reads := runtime.reads ++ [tunnel] }
      | .error _ => some runtime
  | .tunnel label =>
      if runtime.may_start label then
        (runtime.tunnels.next label).map fun tunnels => { runtime with tunnels := tunnels }
      else none
  | .telemetry label =>
      (runtime.telemetry.next label).map fun telemetry => { runtime with telemetry := telemetry }

/-- A server that has opened a repository. -/
def Runtime.opened (state : PersistedState) : Runtime where
  repository := { state := state, deleting_hosts := ∅ }
  reads := []
  tunnels := .default
  telemetry := .default

def server_runtime : Machine Runtime RuntimeLabel where
  init := fun runtime =>
    ∃ state, Store.validate_persisted_state state = .ok () ∧ runtime = .opened state
  next := Runtime.next

/-- The revisions that were published for what is in the repository never
    went back. -/
structure Runtime.InOrder (runtime : Runtime) : Prop where
  tunnels : ∀ tunnel ∈ runtime.repository.state.tunnels,
    (runtime.tunnels.revisions_of tunnel.id).Pairwise (· ≤ ·)
  telemetry : ∀ host ∈ runtime.repository.state.hosts,
    (runtime.telemetry.revisions_of host.id).Pairwise (· ≤ ·)

/-! ### The condition -/

/-- A start makes a second record for a saved tunnel. -/
def Runtime.remakes (runtime : Runtime) (label : Tunnel.Label) : Bool :=
  match runtime.tunnels.registry.operation, runtime.tunnels.registry.next label with
  | some (.start _ tunnel .looking), some registry =>
      runtime.saves_tunnel tunnel.id && runtime.had_record tunnel.id &&
        runtime.tunnels.registry.made < registry.made
  | _, _ => false

/-- A status is the first of a saved host that has had one. -/
def Runtime.recounts (runtime : Runtime) (label : Telemetry.MonitorLabel) : Bool :=
  (label.writes runtime.telemetry.registry).any fun host_id =>
    runtime.saves_host host_id && runtime.had_status host_id &&
      (runtime.telemetry.registry.statuses host_id).isNone

/-- A later status of a saved host overtakes an earlier one. -/
def Runtime.overtakes (runtime : Runtime) (event : Telemetry.StatusEvent) : Bool :=
  runtime.saves_host event.status.host_id &&
    runtime.telemetry.pending.any fun other =>
      other.status.host_id = event.status.host_id && other.status.revision < event.status.revision

/-- No count begins anew for what is saved, and no status overtakes another. -/
def counted (runtime : Runtime) : RuntimeLabel → Bool
  | .tunnel (.step label) => !runtime.remakes label
  | .telemetry (.step label) => !runtime.recounts label
  | .telemetry (.emit event) => !runtime.overtakes event
  | _ => true

variable {runtime runtime' : Runtime} {label : RuntimeLabel} {events events' : StatusEvents}
  {registry' : TunnelRegistry} {monitors' : Monitors} {tunnel_id host_id : Text}

/-! ### Tunnels -/

/-- A tunnel has one entry at most. -/
def Single (registry : TunnelRegistry) (tunnel_id : Text) : Prop :=
  ∀ name name', registry.tunnel_of name = some tunnel_id →
    registry.tunnel_of name' = some tunnel_id → name = name'

theorem had_record_of_tunnel (hinv : Tunnel.EventInv runtime.tunnels) {name : Nat}
    (h : runtime.tunnels.registry.tunnel_of name = some tunnel_id) :
    runtime.had_record tunnel_id = true := by
  obtain ⟨inner, hinner, _⟩ := Tunnel.tunnel_of_eq_some.mp h
  obtain ⟨entry, hentry, _⟩ := Option.map_eq_some_iff.mp hinner
  have hmade : name < runtime.tunnels.registry.made := by
    by_contra hle
    rw [hinv.fresh name (by omega)] at hentry
    exact absurd hentry.symm (Option.some_ne_none entry)
  refine List.any_eq_true.mpr ⟨name, List.mem_range.mpr hmade, ?_⟩
  exact decide_eq_true h

/-- An entry after a step was there for the same tunnel, or a start has just
    made it for its own. -/
theorem tunnel_of_before (hnamed : Tunnel.NamedInv runtime.tunnels)
    (hinv : Tunnel.EventInv runtime.tunnels) {step : Tunnel.Label} {name : Nat}
    (hnext : runtime.tunnels.registry.next step = some registry')
    (h : registry'.tunnel_of name = some tunnel_id) :
    runtime.tunnels.registry.tunnel_of name = some tunnel_id ∨
      name = runtime.tunnels.registry.made ∧ registry'.made = runtime.tunnels.registry.made + 1 ∧
        ∃ host tunnel, runtime.tunnels.registry.operation = some (.start host tunnel .looking) ∧
          tunnel.id = tunnel_id := by
  have hfresh := hinv.fresh _ le_rfl
  have hold : ∀ {entry : Tunnel.TunnelEntry}, runtime.tunnels.registry.heap name = some entry →
      runtime.tunnels.registry.tunnel_of name = some tunnel_id := by
    intro entry hentry
    have hbefore : runtime.tunnels.registry.tunnel_of name = some entry.inner.profile.id :=
      Tunnel.tunnel_of_eq_some.mpr ⟨entry.inner, Tunnel.registry_inner_eq hentry, rfl⟩
    have hafter := hnamed.records.keeps_tunnel hfresh hnext hbefore
    rw [h, Option.some.injEq] at hafter
    rw [hbefore, hafter]
  obtain ⟨inner', hinner', hid⟩ := Tunnel.tunnel_of_eq_some.mp h
  obtain ⟨entry', hentry', rfl⟩ := Option.map_eq_some_iff.mp hinner'
  cases Tunnel.next_view hnext with
  | still hheap _ => exact .inl (hold (hheap ▸ hentry'))
  | makes host tunnel hop hheap hmade =>
    rw [hheap, Function.update_apply] at hentry'
    split at hentry'
    · next hname =>
      obtain rfl := Option.some.inj hentry'
      exact .inr ⟨hname, hmade, host, tunnel, hop, hid⟩
    · exact .inl (hold hentry')
  | shows hentry hheap _ _ =>
    rw [hheap, Function.update_apply] at hentry'
    split at hentry'
    · next hname => exact .inl (hold (hname ▸ hentry))
    · exact .inl (hold hentry')
  | revises hentry hheap _ _ _ _ =>
    rw [hheap, Function.update_apply] at hentry'
    split at hentry'
    · next hname => exact .inl (hold (hname ▸ hentry))
    · exact .inl (hold hentry')

/-- A step that does not remake the record of a saved tunnel leaves it with one. -/
theorem Single.step (hnamed : Tunnel.NamedInv runtime.tunnels)
    (hinv : Tunnel.EventInv runtime.tunnels) {step : Tunnel.Label}
    (hnext : runtime.tunnels.registry.next step = some registry')
    (hcounted : runtime.remakes step = false) (hsaved : runtime.saves_tunnel tunnel_id = true)
    (h : Single runtime.tunnels.registry tunnel_id) : Single registry' tunnel_id := by
  -- a new entry is the first one
  have hfirst : ∀ {host : HostProfile} {tunnel : TunnelProfile} {name : Nat},
      registry'.made = runtime.tunnels.registry.made + 1 →
      runtime.tunnels.registry.operation = some (.start host tunnel .looking) →
      tunnel.id = tunnel_id → runtime.tunnels.registry.tunnel_of name ≠ some tunnel_id := by
    rintro host tunnel name hmade hop rfl hother
    have hremakes : runtime.remakes step = true := by
      have hlater : runtime.tunnels.registry.made < registry'.made := by omega
      unfold Runtime.remakes
      simp [hop, hnext, hsaved, had_record_of_tunnel hinv hother, hlater]
    exact absurd (hremakes.symm.trans hcounted) Bool.noConfusion
  intro name name' hname hname'
  rcases tunnel_of_before hnamed hinv hnext hname with hold | ⟨hnew, hmade, host, tunnel, hop, hid⟩
  · rcases tunnel_of_before hnamed hinv hnext hname' with
      hold' | ⟨_, hmade, host, tunnel, hop, hid⟩
    · exact h name name' hold hold'
    · exact absurd hold (hfirst hmade hop hid)
  · rcases tunnel_of_before hnamed hinv hnext hname' with hold' | ⟨hnew', _⟩
    · exact absurd hold' (hfirst hmade hop hid)
    · exact hnew.trans hnew'.symm

/-! ### Telemetry -/

/-- The known statuses of a host are not above its current one, and were
    emitted in order, before the pending ones. -/
structure HostInOrder (events : StatusEvents) (host_id : Text) : Prop where
  known_le : ∀ status, events.registry.statuses host_id = some status →
    ∀ known ∈ events.known, known.host_id = host_id → known.revision ≤ status.revision
  ordered : (events.revisions_of host_id).Pairwise (· ≤ ·)
  later : ∀ earlier ∈ events.published, earlier.host_id = host_id →
    ∀ event ∈ events.pending, event.status.host_id = host_id →
      earlier.revision ≤ event.status.revision

/-- The statuses are kept under their hosts and their revisions fit. -/
def StatusesFit (events : StatusEvents) : Prop :=
  ∀ host_id status, events.registry.statuses host_id = some status →
    status.host_id = host_id ∧ status.revision ≤ Telemetry.U64_MAX

theorem mem_known_status {status : TelemetryStatus} :
    status ∈ events.known ↔
      (∃ event ∈ events.pending, event.status = status) ∨ status ∈ events.published := by
  simp [StatusEvents.known]

/-- A host of which nothing is known is in order. -/
theorem hostInOrder_of_unknown (h : ∀ known ∈ events.known, known.host_id ≠ host_id) :
    HostInOrder events host_id := by
  refine ⟨fun _ _ known hknown hsame => absurd hsame (h known hknown), ?_, ?_⟩
  · have hempty : (events.published.filter fun status => status.host_id = host_id) = [] := by
      rw [List.filter_eq_nil_iff]
      intro status hstatus hsame
      exact h status (mem_known_status.mpr (.inr hstatus)) (of_decide_eq_true hsame)
    unfold StatusEvents.revisions_of
    rw [hempty]
    exact List.Pairwise.nil
  · intro earlier hearlier hsame
    exact absurd hsame (h earlier (mem_known_status.mpr (.inr hearlier)))

theorem next_revision_ge (status : TelemetryStatus) (h : status.revision ≤ Telemetry.U64_MAX) :
    status.revision ≤ Telemetry.next_revision (some status) := by
  show status.revision ≤ min (status.revision + 1) Telemetry.U64_MAX
  omega

theorem next_revision_le (previous : Option TelemetryStatus) :
    Telemetry.next_revision previous ≤ Telemetry.U64_MAX := by
  cases previous with
  | none => show 1 ≤ Telemetry.U64_MAX; decide
  | some previous => exact min_le_right _ _

theorem StatusesFit.step (h : StatusesFit events) {step : Telemetry.MonitorLabel}
    (hnext : events.registry.next step = some monitors') (hregistry : events'.registry = monitors') :
    StatusesFit events' := by
  intro host_id status hstatus
  rw [hregistry] at hstatus
  generalize hwrites : step.writes events.registry = writes at *
  cases hwrites ▸ Telemetry.next_statuses hnext with
  | same hsame => exact h host_id status (hsame ▸ hstatus)
  | forgets forgotten hforgets =>
    rw [hforgets, Function.update_apply] at hstatus
    split at hstatus
    · exact absurd hstatus.symm (Option.some_ne_none status)
    · exact h host_id status hstatus
  | writes written hrevision hupdates =>
    rw [hupdates, Function.update_apply] at hstatus
    split at hstatus
    · next hsame =>
      obtain rfl := Option.some.inj hstatus
      exact ⟨hsame.symm, hrevision ▸ next_revision_le _⟩
    · exact h host_id status hstatus

theorem made_status {registry : Monitors} {step : Telemetry.MonitorLabel}
    {event : Telemetry.StatusEvent} (h : event ∈ Telemetry.made_statuses registry step monitors') :
    ∃ written, step.writes registry = some written ∧
      monitors'.statuses written = some event.status := by
  unfold Telemetry.made_statuses at h
  split at h
  · next emitter written _ hwrites =>
    obtain ⟨status, hstatus, rfl⟩ := List.mem_map.mp h
    exact ⟨written, hwrites, Option.mem_toList.mp hstatus⟩
  · exact absurd h List.not_mem_nil

/-- What is known after a step was known before it, or the step wrote it. -/
theorem known_written {step : Telemetry.MonitorLabel} {status : TelemetryStatus}
    (hevents' : events' =
      { registry := monitors'
        pending := events.pending ++ Telemetry.made_statuses events.registry step monitors'
        published := events.published })
    (h : status ∈ events'.known) : status ∈ events.known ∨
      ∃ written, step.writes events.registry = some written ∧
        monitors'.statuses written = some status := by
  subst hevents'
  rcases mem_known_status.mp h with ⟨event, hevent, rfl⟩ | hpublished
  · rcases List.mem_append.mp hevent with hevent | hevent
    · exact .inl (mem_known_status.mpr (.inl ⟨event, hevent, rfl⟩))
    · exact .inr (made_status hevent)
  · exact .inl (mem_known_status.mpr (.inr hpublished))

/-- A step that writes a status of the host writes a later one, if what is
    known of the host has been counted so far. -/
theorem HostInOrder.step (h : HostInOrder events host_id) (hfit : StatusesFit events)
    {step : Telemetry.MonitorLabel} (hnext : events.registry.next step = some monitors')
    (hcounted : step.writes events.registry = some host_id →
      events.registry.statuses host_id = none → ∀ known ∈ events.known, known.host_id ≠ host_id)
    (hevents' : events' =
      { registry := monitors'
        pending := events.pending ++ Telemetry.made_statuses events.registry step monitors'
        published := events.published }) : HostInOrder events' host_id := by
  have hregistry : events'.registry = monitors' := by rw [hevents']
  have hpublished : events'.published = events.published := by rw [hevents']
  have heffect := Telemetry.next_statuses hnext
  -- the status of the host after the step is the one before, none, or a later one
  have hstatus : ∀ status, monitors'.statuses host_id = some status →
      (∀ known ∈ events.known, known.host_id = host_id → known.revision ≤ status.revision) := by
    intro status hstatus known hknown hhost
    generalize hwrites : step.writes events.registry = writes at heffect
    cases heffect with
    | same hsame => exact h.known_le status (hsame ▸ hstatus) known hknown hhost
    | forgets forgotten hforgets =>
      rw [hforgets, Function.update_apply] at hstatus
      split at hstatus
      · exact absurd hstatus.symm (Option.some_ne_none status)
      · exact h.known_le status hstatus known hknown hhost
    | writes written hrevision hupdates =>
      rw [hupdates, Function.update_apply] at hstatus
      split at hstatus
      · next hsame =>
        obtain rfl := Option.some.inj hstatus
        rw [← hsame] at hwrites
        cases hbefore : events.registry.statuses host_id with
        | none => exact absurd hhost (hcounted hwrites hbefore known hknown)
        | some before =>
          have hle := h.known_le before hbefore known hknown hhost
          rw [hrevision, ← hsame, hbefore]
          exact hle.trans (next_revision_ge before (hfit host_id before hbefore).2)
      · exact h.known_le status hstatus known hknown hhost
  -- what the step writes is the status of its host
  have hwritten : ∀ {status : TelemetryStatus} {written : Text}, status.host_id = host_id →
      monitors'.statuses written = some status → monitors'.statuses host_id = some status := by
    intro status written hhost hfound
    have hfits : StatusesFit events' := hfit.step hnext hregistry
    have hsame := (hfits written status (hregistry ▸ hfound)).1
    rw [← hhost, hsame]
    exact hfound
  refine ⟨fun status hfound known hknown hhost => ?_, ?_, fun earlier hearlier hhost event hevent
    hevent_host => ?_⟩
  · rw [hregistry] at hfound
    rcases known_written hevents' hknown with hold | ⟨written, _, hnew⟩
    · exact hstatus status hfound known hold hhost
    · rw [hwritten hhost hnew, Option.some.injEq] at hfound
      rw [hfound]
  · show ((events'.published.filter fun status => status.host_id = host_id).map
      TelemetryStatus.revision).Pairwise (· ≤ ·)
    rw [hpublished]
    exact h.ordered
  · rw [hpublished] at hearlier
    have hpending : event ∈ events.pending ++
        Telemetry.made_statuses events.registry step monitors' := by
      rw [hevents'] at hevent
      exact hevent
    rcases List.mem_append.mp hpending with hold | hnew
    · exact h.later earlier hearlier hhost event hold hevent_host
    · obtain ⟨written, _, hfound⟩ := made_status hnew
      exact hstatus _ (hwritten hevent_host hfound) earlier
        (mem_known_status.mpr (.inr hearlier)) hhost

/-- An emission that overtakes no other keeps the order. -/
theorem HostInOrder.emit (h : HostInOrder events host_id) {event : Telemetry.StatusEvent}
    (hevent : event ∈ events.pending)
    (hfirst : event.status.host_id = host_id → ∀ other ∈ events.pending,
      other.status.host_id = host_id → event.status.revision ≤ other.status.revision) :
    HostInOrder (events.emit event) host_id := by
  have hknown : ∀ status ∈ (events.emit event).known, status ∈ events.known := by
    intro status hstatus
    rcases mem_known_status.mp hstatus with ⟨other, hother, rfl⟩ | hpublished
    · exact mem_known_status.mpr (.inl ⟨other, List.mem_of_mem_erase hother, rfl⟩)
    · rcases List.mem_append.mp hpublished with hpublished | hemitted
      · exact mem_known_status.mpr (.inr hpublished)
      · rw [List.mem_singleton.mp hemitted]
        exact mem_known_status.mpr (.inl ⟨event, hevent, rfl⟩)
  refine ⟨fun status hstatus known hmem => h.known_le status hstatus known (hknown known hmem), ?_,
    fun earlier hearlier hhost other hother hother_host => ?_⟩
  · show (((events.published ++ [event.status]).filter fun status => status.host_id = host_id).map
      TelemetryStatus.revision).Pairwise (· ≤ ·)
    rw [List.filter_append, List.map_append]
    refine List.pairwise_append.mpr ⟨h.ordered, ?_, ?_⟩
    · by_cases hhost : event.status.host_id = host_id <;> simp [hhost]
    · intro earlier hearlier last hlast
      obtain ⟨status, hstatus, rfl⟩ := List.mem_map.mp hearlier
      obtain ⟨emitted, hemitted, rfl⟩ := List.mem_map.mp hlast
      obtain ⟨hpublished, hhost⟩ := List.mem_filter.mp hstatus
      obtain ⟨hsingle, hemitted_host⟩ := List.mem_filter.mp hemitted
      obtain rfl := List.mem_singleton.mp hsingle
      exact h.later status hpublished (of_decide_eq_true hhost) event hevent
        (of_decide_eq_true hemitted_host)
  · have hother := List.mem_of_mem_erase hother
    rcases List.mem_append.mp hearlier with hearlier | hemitted
    · exact h.later earlier hearlier hhost other hother hother_host
    · obtain rfl := List.mem_singleton.mp hemitted
      exact hfirst hhost other hother hother_host

/-! ### Every step -/

/-- What is saved has been counted from the first event on. -/
structure CountInv (runtime : Runtime) : Prop where
  events : Tunnel.EventInv runtime.tunnels
  named : Tunnel.NamedInv runtime.tunnels
  single : ∀ tunnel_id, runtime.saves_tunnel tunnel_id = true →
    Single runtime.tunnels.registry tunnel_id
  fit : StatusesFit runtime.telemetry
  hosts : ∀ host_id, runtime.saves_host host_id = true → HostInOrder runtime.telemetry host_id

theorem countInv_opened (state : PersistedState) : CountInv (.opened state) where
  events := Tunnel.eventInv_default
  named := Tunnel.namedInv_default
  single _ _ _ _ h _ := absurd h.symm (Option.some_ne_none _)
  fit _ status h := absurd h.symm (Option.some_ne_none status)
  hosts _ _ := hostInOrder_of_unknown fun _ h => absurd h List.not_mem_nil

theorem CountInv.store (h : CountInv runtime) {repository : Store.Repository}
    (hnew : runtime.draws_new repository = true) :
    CountInv { runtime with repository := repository } := by
  obtain ⟨htunnels, hhosts⟩ := Bool.and_eq_true_iff.mp hnew
  refine { h with single := fun tunnel_id hsaved => ?_, hosts := fun host_id hsaved => ?_ }
  · obtain ⟨tunnel, htunnel, hid⟩ := List.any_eq_true.mp hsaved
    obtain rfl := of_decide_eq_true hid
    rcases Bool.or_eq_true_iff.mp (List.all_eq_true.mp htunnels tunnel htunnel) with hold | hnone
    · exact h.single tunnel.id hold
    · intro name name' hname _
      rw [had_record_of_tunnel h.events hname] at hnone
      exact absurd hnone Bool.false_ne_true
  · obtain ⟨host, hhost, hid⟩ := List.any_eq_true.mp hsaved
    obtain rfl := of_decide_eq_true hid
    rcases Bool.or_eq_true_iff.mp (List.all_eq_true.mp hhosts host hhost) with hold | hnone
    · exact h.hosts host.id hold
    · have hunknown : runtime.had_status host.id = false := by simpa using hnone
      obtain ⟨_, hunknown⟩ := Bool.or_eq_false_iff.mp hunknown
      refine hostInOrder_of_unknown fun known hknown hsame => ?_
      have hany := List.any_eq_false.mp hunknown known hknown
      exact hany (decide_eq_true hsame)

theorem CountInv.tunnel (h : CountInv runtime) {label : EventLabel} {tunnels : EventRegistry}
    (hcounted : counted runtime (.tunnel label) = true)
    (hnext : runtime.tunnels.next label = some tunnels) :
    CountInv { runtime with tunnels := tunnels } := by
  refine { h with
    events := h.events.next hnext
    named := h.named.next h.events hnext
    single := fun tunnel_id hsaved => ?_ }
  have hsingle := h.single tunnel_id hsaved
  rcases Tunnel.next_events hnext with ⟨step, registry', rfl, hstep, rfl⟩ | ⟨event, rfl, _, rfl⟩
  · have hremakes : runtime.remakes step = false := by
      simpa [counted] using hcounted
    exact Single.step h.named h.events hstep hremakes hsaved hsingle
  · exact hsingle

/-- A step of the telemetry or an emission. -/
theorem next_status_events {label : StatusLabel} (h : events.next label = some events') :
    (∃ step monitors', label = .step step ∧ events.registry.next step = some monitors' ∧
      events' =
        { registry := monitors'
          pending := events.pending ++ Telemetry.made_statuses events.registry step monitors'
          published := events.published }) ∨
      ∃ event, label = .emit event ∧ event ∈ events.pending ∧ events' = events.emit event := by
  unfold StatusEvents.next at h
  split at h
  · split at h
    · exact absurd h.symm (Option.some_ne_none _)
    · obtain ⟨monitors', hnext, rfl⟩ := Option.map_eq_some_iff.mp h
      exact .inl ⟨_, monitors', rfl, hnext, rfl⟩
  · obtain ⟨hpending, h⟩ := Option.ite_none_right_eq_some.mp h
    exact .inr ⟨_, rfl, hpending, (Option.some.inj h).symm⟩

theorem CountInv.telemetry (h : CountInv runtime) {label : StatusLabel} {telemetry : StatusEvents}
    (hcounted : counted runtime (.telemetry label) = true)
    (hnext : runtime.telemetry.next label = some telemetry) :
    CountInv { runtime with telemetry := telemetry } := by
  rcases next_status_events hnext with ⟨step, monitors', rfl, hstep, hevents'⟩ | ⟨event, rfl, hevent, rfl⟩
  · have hregistry : telemetry.registry = monitors' := by rw [hevents']
    refine { h with fit := h.fit.step hstep hregistry, hosts := fun host_id hsaved => ?_ }
    apply (h.hosts host_id hsaved).step h.fit hstep _ hevents'
    -- the first status of a saved host finds nothing known of it
    intro hwrites hnone known hknown hhost
    have hstatus : runtime.had_status host_id = true := by
      refine Bool.or_eq_true_iff.mpr (.inr (List.any_eq_true.mpr ⟨known, hknown, ?_⟩))
      exact decide_eq_true hhost
    have hsaved : runtime.saves_host host_id = true := hsaved
    have hrecounts : runtime.recounts step = true := by
      unfold Runtime.recounts
      simp [hwrites, hsaved, hstatus, hnone]
    simp [counted, hrecounts] at hcounted
  · refine { h with fit := h.fit, hosts := fun host_id hsaved => ?_ }
    refine (h.hosts host_id hsaved).emit hevent fun hhost other hother hother_host => ?_
    by_contra hlt
    have hsaved : runtime.saves_host event.status.host_id = true := hhost ▸ hsaved
    have hovertakes : runtime.overtakes event = true := by
      refine Bool.and_eq_true_iff.mpr ⟨hsaved, List.any_eq_true.mpr ⟨other, hother, ?_⟩⟩
      simp only [Bool.and_eq_true, decide_eq_true_eq]
      exact ⟨hother_host.trans hhost.symm, by omega⟩
    simp [counted, hovertakes] at hcounted

theorem CountInv.next (h : CountInv runtime) (hcounted : counted runtime label = true)
    (hnext : runtime.next label = some runtime') : CountInv runtime' := by
  cases label with
  | store env operation =>
    obtain ⟨hnew, hnext⟩ := Option.ite_none_right_eq_some.mp hnext
    exact Option.some.inj hnext ▸ h.store hnew
  | read_tunnel tunnel_id =>
    unfold Runtime.next at hnext
    dsimp only at hnext
    split at hnext
    · obtain rfl := Option.some.inj hnext
      exact ⟨h.events, h.named, h.single, h.fit, h.hosts⟩
    · exact Option.some.inj hnext ▸ h
  | tunnel label =>
    obtain ⟨_, hnext⟩ := Option.ite_none_right_eq_some.mp hnext
    obtain ⟨tunnels, htunnels, rfl⟩ := Option.map_eq_some_iff.mp hnext
    exact h.tunnel hcounted htunnels
  | telemetry label =>
    obtain ⟨telemetry, htelemetry, rfl⟩ := Option.map_eq_some_iff.mp hnext
    exact h.telemetry hcounted htelemetry

theorem CountInv.in_order (h : CountInv runtime) : runtime.InOrder where
  tunnels tunnel htunnel := by
    have hsaved : runtime.saves_tunnel tunnel.id = true :=
      List.any_eq_true.mpr ⟨tunnel, htunnel, decide_eq_true rfl⟩
    exact Tunnel.revisions_of_single h.named h.events (h.single tunnel.id hsaved)
  telemetry host hhost := by
    have hsaved : runtime.saves_host host.id = true :=
      List.any_eq_true.mpr ⟨host, hhost, decide_eq_true rfl⟩
    exact (h.hosts host.id hsaved).ordered

/-- **Revisions go on.**  Where no count begins anew for what is saved and no
    status overtakes another, the revisions published for a saved tunnel or
    host never go back. -/
theorem revisions_in_order
    (h : server_runtime.ReachableWhen (fun runtime label => counted runtime label = true) runtime) :
    runtime.InOrder := by
  have hinv : CountInv runtime := by
    refine h.invariant ?_ ?_
    · rintro _ ⟨state, _, rfl⟩
      exact countInv_opened state
    · intro _ _ _ hinv hcounted hnext
      exact hinv.next hcounted hnext
  exact hinv.in_order

/-! ### A count that goes on and counts that do not -/

open Tunnel (lab_host plain_tunnel start_labels prompt_labels)

/-- The saved state of a host with a tunnel. -/
def lab_state : PersistedState :=
  { PersistedState.default with hosts := [lab_host], tunnels := [plain_tunnel 8080 true] }

theorem lab_state_opens : server_runtime.init (.opened lab_state) :=
  ⟨lab_state, by decide +kernel, rfl⟩

/-- A run of the telemetry in which every status is emitted at once. -/
def prompt_statuses (events : StatusEvents) : List Telemetry.MonitorLabel → List StatusLabel
  | [] => []
  | label :: labels =>
      match events.next (.step label) with
      | none => [.step label]
      | some stepped =>
          match stepped.pending with
          | [] => .step label :: prompt_statuses stepped labels
          | event :: _ => .step label :: .emit event :: prompt_statuses (stepped.emit event) labels

/-- The events of a tunnel in two starts with some steps between them. -/
def started_twice (between : List Tunnel.Label) : List RuntimeLabel :=
  (prompt_labels .default (start_labels (plain_tunnel 8080 true) ++ between ++
    start_labels (plain_tunnel 8080 true))).map .tunnel

/-- A stop or a removal of the tunnel that has no child. -/
def end_labels (retire : Bool) : List Tunnel.Label :=
  [if retire then .remove (plain_tunnel 8080 true).id else .stop (plain_tunnel 8080 true).id,
    .stop_step (Tunnel.plain_stop retire .looking) .go 0,
    .stop_step (Tunnel.plain_stop retire (.locking 0)) .go 0,
    .stop_step (Tunnel.plain_stop retire (.taking 0)) .go 0,
    .stop_step (Tunnel.plain_stop retire (.settling 0 2 none false (.ok ()))) .go 0, .finish]

/-- A monitor that cannot be spawned. -/
def failed_monitor (id : Nat) : List Telemetry.MonitorLabel :=
  [.begin_start id lab_host.id, .insert id (.ok ()), .announce id, .spawn id false, .unregister id,
    .publish_spawn_error id ⟨none, none⟩]

/-- The removal of the telemetry of a host that has no monitor. -/
def forget_labels (id : Nat) : List Telemetry.MonitorLabel :=
  [.begin_stop id lab_host.id true, .find id, .publish_stopped id ⟨none, none⟩, .forget id]

/-- The telemetry of a host that is removed in between. -/
def watched_twice : List RuntimeLabel :=
  (prompt_statuses .default (failed_monitor 0 ++ forget_labels 1 ++ failed_monitor 2)).map .telemetry

/-- A write that fails. -/
def failed_write : Store.Env :=
  { Store.Env.counting 0 with write := .error (.Io []) }

/-- A tunnel that is stopped and started again goes on counting. -/
theorem restarted_tunnel_goes_on :
    ∃ runtime, runtime.tunnels.revisions_of (plain_tunnel 8080 true).id = [1, 2, 3] ∧
      runtime.telemetry.revisions_of lab_host.id = [1, 2] ∧ Runtime.InOrder runtime := by
  obtain ⟨runtime, hreach, hp⟩ := Machine.reachable_of_replay (m := server_runtime) counted
    (fun _ _ => id) lab_state_opens
    (.read_tunnel (plain_tunnel 8080 true).id :: started_twice (end_labels false) ++
      (prompt_statuses .default (failed_monitor 0)).map .telemetry)
    (fun runtime : Runtime =>
      decide (runtime.tunnels.revisions_of (plain_tunnel 8080 true).id = [1, 2, 3]) &&
        decide (runtime.telemetry.revisions_of lab_host.id = [1, 2]))
    (by decide +kernel)
  simp only [Bool.and_eq_true, decide_eq_true_eq] at hp
  exact ⟨runtime, hp.1, hp.2, revisions_in_order hreach⟩

/-- A tunnel whose deletion is not written, and a host whose deletion is not,
    count from one again when they are started the next time. -/
theorem revisions_go_back :
    (∃ runtime, server_runtime.Reachable runtime ∧
      plain_tunnel 8080 true ∈ runtime.repository.state.tunnels ∧
        runtime.tunnels.revisions_of (plain_tunnel 8080 true).id = [1, 2, 1]) ∧
    ∃ runtime, server_runtime.Reachable runtime ∧ lab_host ∈ runtime.repository.state.hosts ∧
      runtime.telemetry.revisions_of lab_host.id = [1, 2, 3, 1, 2] := by
  constructor
  · obtain ⟨runtime, hreach, hp⟩ := Machine.reachable_of_replay (m := server_runtime)
      (fun _ _ => true) (fun _ _ _ => trivial) lab_state_opens
      (.read_tunnel (plain_tunnel 8080 true).id ::
        ((started_twice (end_labels true)).take 15 ++
          [.store failed_write (.delete_tunnel (plain_tunnel 8080 true).id),
            .read_tunnel (plain_tunnel 8080 true).id] ++
          (started_twice (end_labels true)).drop 15))
      (fun runtime : Runtime =>
        decide (plain_tunnel 8080 true ∈ runtime.repository.state.tunnels) &&
          decide (runtime.tunnels.revisions_of (plain_tunnel 8080 true).id = [1, 2, 1]))
      (by decide +kernel)
    simp only [Bool.and_eq_true, decide_eq_true_eq] at hp
    exact ⟨runtime, hreach, hp.1, hp.2⟩
  · -- the reservation, the tunnels, the telemetry, and a deletion that is not written
    obtain ⟨runtime, hreach, hp⟩ := Machine.reachable_of_replay (m := server_runtime)
      (fun _ _ => true) (fun _ _ _ => trivial) lab_state_opens
      (watched_twice.take 8 ++
        [.store (.counting 0) (.begin_host_deletion lab_host.id),
          .tunnel (.step (.stop_for_host lab_host.id)), .tunnel (.step .finish)] ++
        (watched_twice.drop 8).take 5 ++
        .store failed_write (.finish_host_deletion lab_host.id) :: watched_twice.drop 13)
      (fun runtime : Runtime =>
        decide (lab_host ∈ runtime.repository.state.hosts) &&
          decide (runtime.telemetry.revisions_of lab_host.id = [1, 2, 3, 1, 2]))
      (by decide +kernel)
    simp only [Bool.and_eq_true, decide_eq_true_eq] at hp
    exact ⟨runtime, hreach, hp.1, hp.2⟩

end Server
