import RemoteDeck.Client.Configuration

/-! # What the bootstrap fence keeps out

    A snapshot that lacks a mutation of the tab must not be applied after the
    success of that mutation.  The fence knows the epoch of the request and
    the revision that the tab had when it began its last mutation; it does
    not know which revision a mutation got.  So a snapshot that is younger
    than that revision by the change of someone else, and still lacks the
    mutation, passes (`Fenced` excludes it).

    A dropped bootstrap is made up for by the one that follows the success
    of a mutation; nothing follows a failure (`Followed`).
-/

namespace Client

variable {s s' : Session}

/-! ### The fence -/

theorem admits_iff {tab : Tab} {requestEpoch incoming : Nat} :
    tab.admits requestEpoch incoming = true ↔ tab.configEpoch = requestEpoch ∧
      tab.configRevision ≤ incoming ∧
        ∀ minimum, tab.minimumConfigRevision = some minimum → minimum ≤ incoming := by
  cases hminimum : tab.minimumConfigRevision with
  | none => simp [Tab.admits, shouldApplyConfigBootstrap, shouldApplyBootstrap, hminimum]
  | some minimum => simp [Tab.admits, shouldApplyConfigBootstrap, shouldApplyBootstrap, hminimum]

/-- A request of an earlier epoch is kept out. -/
theorem admits_earlier {tab : Tab} {requestEpoch incoming : Nat}
    (h : requestEpoch < tab.configEpoch) : tab.admits requestEpoch incoming = false := by
  by_contra hadmits
  rw [Bool.not_eq_false, admits_iff] at hadmits
  omega

/-- What the fence keeps out it still keeps out after it let a snapshot
    through. -/
theorem admits_after_apply {tab : Tab} {requestEpoch other incoming applied : Nat}
    {configuration : Configuration} (hadmits : tab.admits other applied = true)
    (h : tab.admits requestEpoch incoming = false) :
    Tab.admits ⟨applied, tab.configEpoch, none, configuration⟩ requestEpoch incoming = false := by
  by_contra hafter
  rw [Bool.not_eq_false, admits_iff] at hafter
  rw [admits_iff] at hadmits
  obtain ⟨hepoch, hrevision, _⟩ := hafter
  have hrevision : (applied : Int) ≤ incoming := hrevision
  obtain ⟨_, hknown, hminimum⟩ := hadmits
  have hnow : tab.admits requestEpoch incoming = true := by
    rw [admits_iff]
    refine ⟨hepoch, by omega, fun minimum hsome => ?_⟩
    have happlied := hminimum minimum hsome
    omega
  rw [hnow] at h
  exact absurd h.symm Bool.false_ne_true

/-! ### The effects of a step -/

/-- A step of the session, by what it does to it. -/
inductive Effect (s : Session) : SessionLabel → Session → Prop
  | request (label) : Effect s label s.request
  | resync : 0 < s.resyncs → Effect s .resync { s with resyncs := s.resyncs - 1 }.request
  | answer (serial) :
      Effect s (.answer serial) { s with awaited := answer serial s.server s.awaited }
  | receive (bootstrap payload) : bootstrap ∈ s.awaited → bootstrap.answer = some payload →
      Effect s (.receive bootstrap.serial) (s.receive bootstrap payload)
  | lose (serial) : Effect s (.lose serial)
      { s with awaited := s.awaited.filter fun bootstrap => bootstrap.serial ≠ serial }
  | begin_mutation : Effect s .begin_mutation s.begin_mutation
  | succeed (epoch reply after) : ⟨epoch, .pending⟩ ∈ s.mutations →
      Effect s (.succeed epoch reply after) { s.change after (.own epoch) with
        mutations := settle epoch (.succeeded reply) s.mutations }
  | refuse (epoch) : Effect s (.refuse epoch) { s with
      mutations := settle epoch .failed s.mutations }
  | change (after) : Effect s (.change after) (s.change after .other)
  | success (epoch reply) : ⟨epoch, .succeeded reply⟩ ∈ s.mutations →
      Effect s (.success epoch) { s with
        tab := { s.tab with configuration := s.tab.configuration.apply reply }
        mutations := s.mutations.filter fun other => other.epoch ≠ epoch
        applied := s.applied ++ [epoch] }.request
  | failure (epoch) : (∃ mutation ∈ s.mutations, mutation.epoch = epoch) →
      Effect s (.failure epoch) { s with
        tab := s.tab.clear_fence epoch
        mutations := s.mutations.filter fun other => other.epoch ≠ epoch }

theorem next_effect {label : SessionLabel} (h : s.next label = some s') : Effect s label s' := by
  cases label with
  | bootstrap =>
    obtain rfl := Option.some.inj h
    exact .request _
  | resync =>
    obtain ⟨hpositive, hstate⟩ := Option.ite_none_left_eq_some.mp h
    obtain rfl := Option.some.inj hstate
    exact .resync (Nat.pos_of_ne_zero hpositive)
  | answer serial =>
    obtain ⟨_, hstate⟩ := Option.ite_none_right_eq_some.mp h
    obtain rfl := Option.some.inj hstate
    exact .answer serial
  | receive serial =>
    obtain ⟨bootstrap, hfind, hrest⟩ := Option.bind_eq_some_iff.mp h
    obtain ⟨payload, hanswer, rfl⟩ := Option.map_eq_some_iff.mp hrest
    obtain rfl : bootstrap.serial = serial := by simpa using List.find?_some hfind
    exact .receive bootstrap payload (List.mem_of_find?_eq_some hfind) hanswer
  | lose serial =>
    obtain rfl := Option.some.inj h
    exact .lose serial
  | begin_mutation =>
    obtain rfl := Option.some.inj h
    exact .begin_mutation
  | succeed epoch reply after =>
    obtain ⟨hpending, hstate⟩ := Option.ite_none_right_eq_some.mp h
    obtain rfl := Option.some.inj hstate
    exact .succeed epoch reply after hpending
  | refuse epoch =>
    obtain ⟨_, hstate⟩ := Option.ite_none_right_eq_some.mp h
    obtain rfl := Option.some.inj hstate
    exact .refuse epoch
  | change after =>
    obtain rfl := Option.some.inj h
    exact .change after
  | success epoch =>
    obtain ⟨⟨found, outcome⟩, hfind, hrest⟩ := Option.bind_eq_some_iff.mp h
    obtain rfl : found = epoch := by simpa using List.find?_some hfind
    cases outcome with
    | succeeded reply =>
      obtain rfl := Option.some.inj hrest
      exact .success found reply (List.mem_of_find?_eq_some hfind)
    | pending => exact nomatch hrest
    | failed => exact nomatch hrest
  | failure epoch =>
    obtain ⟨hany, hstate⟩ := Option.ite_none_right_eq_some.mp h
    obtain rfl := Option.some.inj hstate
    obtain ⟨mutation, hmem, hepoch⟩ := List.any_eq_true.mp hany
    exact .failure epoch ⟨mutation, hmem, of_decide_eq_true hepoch⟩

/-- An awaited bootstrap after the server has answered one: it was awaited
    before, with the same answer or with none. -/
theorem mem_answer {serial : Nat} {payload : BootstrapPayload} {awaited : List Bootstrap}
    {bootstrap : Bootstrap} (h : bootstrap ∈ answer serial payload awaited) :
    bootstrap ∈ awaited ∨ bootstrap.serial = serial ∧ bootstrap.answer = some payload ∧
      ∃ before ∈ awaited, before.serial = serial ∧ before.requestEpoch = bootstrap.requestEpoch := by
  obtain ⟨before, hmem, hafter⟩ := List.mem_map.mp h
  by_cases hserial : before.serial = serial
  · rw [if_pos hserial] at hafter
    subst hafter
    exact .inr ⟨hserial, rfl, before, hmem, hserial, rfl⟩
  · rw [if_neg hserial] at hafter
    exact .inl (hafter ▸ hmem)

/-- A mutation after the server has settled one. -/
theorem mem_settle {epoch : Nat} {outcome : Outcome} {mutations : List Mutation}
    {mutation : Mutation} (h : mutation ∈ settle epoch outcome mutations) :
    mutation ∈ mutations ∨ mutation.epoch = epoch ∧ mutation.outcome = outcome ∧
      ∃ before ∈ mutations, before.epoch = epoch := by
  obtain ⟨before, hmem, hafter⟩ := List.mem_map.mp h
  by_cases hepoch : before.epoch = epoch
  · rw [if_pos hepoch] at hafter
    subst hafter
    exact .inr ⟨hepoch, rfl, before, hmem, hepoch⟩
  · rw [if_neg hepoch] at hafter
    exact .inl (hafter ▸ hmem)

/-- Settling leaves the epochs alone. -/
theorem exists_settle {epoch e : Nat} {outcome : Outcome} {mutations : List Mutation}
    (h : ∃ mutation ∈ mutations, mutation.epoch = e) :
    ∃ mutation ∈ settle epoch outcome mutations, mutation.epoch = e := by
  obtain ⟨mutation, hmem, hepoch⟩ := h
  refine ⟨_, List.mem_map.mpr ⟨mutation, hmem, rfl⟩, ?_⟩
  split
  · exact hepoch
  · exact hepoch

/-! ### Snapshots that lack a mutation -/

/-- The snapshot lacks a mutation of the tab whose success it has applied,
    or may still apply. -/
def Lacks (s : Session) (payload : BootstrapPayload) : Prop :=
  (∃ mutation ∈ s.mutations, mutation.outcome ≠ .failed ∧
    .own mutation.epoch ∉ payload.changes) ∨
  ∃ epoch ∈ s.applied, .own epoch ∉ payload.changes

/-- What the fence cannot tell does not happen: a bootstrap that is answered
    before a pending mutation is kept out at that moment, and a failure that
    lifts the fence lets no answer through that lacks another mutation. -/
def Fenced (s : Session) : SessionLabel → Prop
  | .answer serial => (∃ mutation ∈ s.mutations, mutation.outcome = .pending) →
      ∀ bootstrap ∈ s.awaited, bootstrap.serial = serial →
        s.tab.admits bootstrap.requestEpoch s.server.configRevision = false
  | .failure epoch => s.tab.configEpoch = epoch →
      ∀ bootstrap ∈ s.awaited, ∀ payload, bootstrap.answer = some payload →
        Lacks { s with mutations := s.mutations.filter fun other => other.epoch ≠ epoch } payload →
          (s.tab.clear_fence epoch).admits bootstrap.requestEpoch payload.configRevision = false
  | _ => True

/-- What keeps the mutations of the tab in view. -/
structure FenceInv (s : Session) : Prop where
  request_epochs : ∀ bootstrap ∈ s.awaited, bootstrap.requestEpoch ≤ s.tab.configEpoch
  applied : ∀ epoch ∈ s.applied, .own epoch ∈ s.server.changes
  succeeded : ∀ mutation ∈ s.mutations, ∀ reply, mutation.outcome = .succeeded reply →
    .own mutation.epoch ∈ s.server.changes
  kept_out : ∀ bootstrap ∈ s.awaited, ∀ payload, bootstrap.answer = some payload →
    Lacks s payload → s.tab.admits bootstrap.requestEpoch payload.configRevision = false

theorem fenceInv_request (h : FenceInv s) : FenceInv s.request where
  request_epochs := by
    intro bootstrap hmem
    rcases List.mem_append.mp hmem with hmem | hmem
    · exact h.request_epochs bootstrap hmem
    · rw [List.mem_singleton.mp hmem]
      exact Nat.le_refl _
  applied := h.applied
  succeeded := h.succeeded
  kept_out := by
    intro bootstrap hmem payload hanswer hlacks
    rcases List.mem_append.mp hmem with hmem | hmem
    · exact h.kept_out bootstrap hmem payload hanswer hlacks
    · rw [List.mem_singleton.mp hmem] at hanswer
      exact nomatch hanswer

/-- What the server adds to its changes takes nothing away from them. -/
theorem fenceInv_change (h : FenceInv s) (after : Configuration) (change : Change) :
    FenceInv (s.change after change) where
  request_epochs := h.request_epochs
  applied := fun epoch hmem => List.mem_append_left _ (h.applied epoch hmem)
  succeeded := fun mutation hmem reply hreply =>
    List.mem_append_left _ (h.succeeded mutation hmem reply hreply)
  kept_out := h.kept_out

theorem fenceInv_receive (h : FenceInv s) {bootstrap : Bootstrap} {payload : BootstrapPayload} :
    FenceInv (s.receive bootstrap payload) := by
  have hrest : ∀ other ∈ s.awaited.filter fun other => other.serial ≠ bootstrap.serial,
      other ∈ s.awaited := fun other hmem => (List.mem_filter.mp hmem).1
  unfold Session.receive
  dsimp only
  split
  case isTrue hadmits =>
    refine ⟨fun other hmem => h.request_epochs other (hrest other hmem), h.applied, h.succeeded, ?_⟩
    intro other hmem answered hanswer hlacks
    exact admits_after_apply hadmits (h.kept_out other (hrest other hmem) answered hanswer hlacks)
  case isFalse =>
    exact ⟨fun other hmem => h.request_epochs other (hrest other hmem), h.applied, h.succeeded,
      fun other hmem => h.kept_out other (hrest other hmem)⟩

theorem fenceInv_begin (h : FenceInv s) : FenceInv s.begin_mutation where
  request_epochs := fun bootstrap hmem => Nat.le_succ_of_le (h.request_epochs bootstrap hmem)
  applied := h.applied
  succeeded := by
    intro mutation hmem reply hreply
    rcases List.mem_append.mp hmem with hmem | hmem
    · exact h.succeeded mutation hmem reply hreply
    · rw [List.mem_singleton.mp hmem] at hreply
      exact nomatch hreply
  kept_out := by
    -- whatever is under way was requested in an earlier epoch
    intro bootstrap hmem payload _ _
    exact admits_earlier (Nat.lt_succ_of_le (h.request_epochs bootstrap hmem))

theorem fenceInv_step {label : SessionLabel} (h : FenceInv s) (hok : Fenced s label)
    (hstep : Effect s label s') : FenceInv s' := by
  cases hstep with
  | request => exact fenceInv_request h
  | resync =>
    have hresynced : FenceInv { s with resyncs := s.resyncs - 1 } :=
      ⟨h.request_epochs, h.applied, h.succeeded, h.kept_out⟩
    exact fenceInv_request hresynced
  | answer serial =>
    refine ⟨fun bootstrap hmem => ?_, h.applied, h.succeeded, ?_⟩
    · rcases mem_answer hmem with hmem | ⟨_, _, before, hbefore, _, hepoch⟩
      · exact h.request_epochs bootstrap hmem
      · exact hepoch ▸ h.request_epochs before hbefore
    · intro bootstrap hmem payload hanswer hlacks
      rcases mem_answer hmem with hmem | ⟨_, hserver, before, hbefore, hserial, hepoch⟩
      · exact h.kept_out bootstrap hmem payload hanswer hlacks
      · obtain rfl : s.server = payload := Option.some.inj (hserver.symm.trans hanswer)
        -- the server's own snapshot lacks pending mutations only
        rcases hlacks with ⟨mutation, hmutation, hlive, hlacks⟩ | ⟨epoch, happlied, hlacks⟩
        · cases houtcome : mutation.outcome with
          | pending => exact hepoch ▸ hok ⟨mutation, hmutation, houtcome⟩ before hbefore hserial
          | succeeded reply => exact absurd (h.succeeded mutation hmutation reply houtcome) hlacks
          | failed => exact absurd houtcome hlive
        · exact absurd (h.applied epoch happlied) hlacks
  | receive bootstrap payload => exact fenceInv_receive h
  | lose serial =>
    have hrest : ∀ other ∈ s.awaited.filter fun other => other.serial ≠ serial,
        other ∈ s.awaited := fun other hmem => (List.mem_filter.mp hmem).1
    exact ⟨fun other hmem => h.request_epochs other (hrest other hmem), h.applied, h.succeeded,
      fun other hmem => h.kept_out other (hrest other hmem)⟩
  | begin_mutation => exact fenceInv_begin h
  | succeed epoch reply after hpending =>
    have hchanged := fenceInv_change h after (.own epoch)
    refine ⟨hchanged.request_epochs, hchanged.applied, ?_, ?_⟩
    · intro mutation hmem found hfound
      rcases mem_settle hmem with hmem | ⟨rfl, _, _⟩
      · exact hchanged.succeeded mutation hmem found hfound
      · exact List.mem_append_right _ (List.mem_singleton_self _)
    · intro bootstrap hmem payload hanswer hlacks
      refine h.kept_out bootstrap hmem payload hanswer ?_
      rcases hlacks with ⟨mutation, hmutation, hlive, hlacks⟩ | happlied
      · rcases mem_settle hmutation with hmutation | ⟨rfl, _, _⟩
        · exact .inl ⟨mutation, hmutation, hlive, hlacks⟩
        · exact .inl ⟨_, hpending, nofun, hlacks⟩
      · exact .inr happlied
  | refuse epoch =>
    refine ⟨h.request_epochs, h.applied, ?_, ?_⟩
    · intro mutation hmem reply hreply
      rcases mem_settle hmem with hmem | ⟨_, hfailed, _⟩
      · exact h.succeeded mutation hmem reply hreply
      · exact nomatch hfailed.symm.trans hreply
    · intro bootstrap hmem payload hanswer hlacks
      refine h.kept_out bootstrap hmem payload hanswer ?_
      rcases hlacks with ⟨mutation, hmutation, hlive, hlacks⟩ | happlied
      · rcases mem_settle hmutation with hmutation | ⟨_, hfailed, _⟩
        · exact .inl ⟨mutation, hmutation, hlive, hlacks⟩
        · exact absurd hfailed hlive
      · exact .inr happlied
  | change after => exact fenceInv_change h after .other
  | success epoch reply hsucceeded =>
    have hfiltered : ∀ mutation ∈ s.mutations.filter fun other => other.epoch ≠ epoch,
        mutation ∈ s.mutations := fun mutation hmem => (List.mem_filter.mp hmem).1
    refine fenceInv_request ⟨h.request_epochs, ?_, ?_, ?_⟩
    · intro e hmem
      rcases List.mem_append.mp hmem with hmem | hmem
      · exact h.applied e hmem
      · rw [List.mem_singleton.mp hmem]
        exact h.succeeded _ hsucceeded reply rfl
    · exact fun mutation hmem => h.succeeded mutation (hfiltered mutation hmem)
    · intro bootstrap hmem payload hanswer hlacks
      refine h.kept_out bootstrap hmem payload hanswer ?_
      rcases hlacks with ⟨mutation, hmutation, hlive, hlacks⟩ | ⟨e, happlied, hlacks⟩
      · exact .inl ⟨mutation, hfiltered mutation hmutation, hlive, hlacks⟩
      · rcases List.mem_append.mp happlied with happlied | happlied
        · exact .inr ⟨e, happlied, hlacks⟩
        · rw [List.mem_singleton.mp happlied] at hlacks
          exact .inl ⟨_, hsucceeded, nofun, hlacks⟩
  | failure epoch =>
    have hfiltered : ∀ mutation ∈ s.mutations.filter fun other => other.epoch ≠ epoch,
        mutation ∈ s.mutations := fun mutation hmem => (List.mem_filter.mp hmem).1
    have hepoch : (s.tab.clear_fence epoch).configEpoch = s.tab.configEpoch := by
      unfold Tab.clear_fence
      split <;> rfl
    refine ⟨?_, h.applied, fun mutation hmem => h.succeeded mutation (hfiltered mutation hmem), ?_⟩
    · exact fun bootstrap hmem => hepoch ▸ h.request_epochs bootstrap hmem
    · intro bootstrap hmem payload hanswer hlacks
      by_cases hcurrent : s.tab.configEpoch = epoch
      · exact hok hcurrent bootstrap hmem payload hanswer hlacks
      · have hsame : s.tab.clear_fence epoch = s.tab := if_neg hcurrent
        show (s.tab.clear_fence epoch).admits _ _ = false
        rw [hsame]
        refine h.kept_out bootstrap hmem payload hanswer ?_
        rcases hlacks with ⟨mutation, hmutation, hlive, hlacks⟩ | happlied
        · exact .inl ⟨mutation, hfiltered mutation hmutation, hlive, hlacks⟩
        · exact .inr happlied

theorem reachable_fenceInv (h : session.ReachableWhen Fenced s) : FenceInv s := by
  refine h.invariant ?_ ?_
  · intro s hinit
    obtain ⟨configRevision, configuration, initial, rfl⟩ := hinit
    refine ⟨?_, nofun, nofun, ?_⟩
    · intro bootstrap hmem
      rw [List.mem_singleton.mp hmem]
      exact Nat.le_refl 0
    · intro bootstrap hmem payload hanswer
      rw [List.mem_singleton.mp hmem] at hanswer
      exact nomatch hanswer
  · intro s label s' hinv hok hnext
    exact fenceInv_step hinv hok (next_effect hnext)

end Client
