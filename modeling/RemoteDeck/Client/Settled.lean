import RemoteDeck.Client.Fence

/-! # What the tab has when nothing is under way

    The bootstrap that was requested last sees every change that the tab has
    heard of.  If it is applied, the tab has the configuration of the server
    until the next `resync`.  If it is dropped, something else is still under
    way: a mutation, whose success requests another one, or a `resync`.

    Only a failure ends a mutation without a request.
-/

namespace Client

variable {s s' : Session}

/-- The bootstrap that was requested last. -/
def Session.Latest (s : Session) (bootstrap : Bootstrap) : Prop :=
  bootstrap.serial + 1 = s.requested

instance (bootstrap : Bootstrap) : Decidable (s.Latest bootstrap) :=
  inferInstanceAs (Decidable (_ = _))

/-- No failure ends the last mutation of the tab while the bootstrap that was
    requested last is dropped, or is of an earlier epoch and will be; and no
    bootstrap fails. -/
def Followed (s : Session) : SessionLabel → Prop
  | .failure epoch => (∀ mutation ∈ s.mutations, mutation.epoch = epoch) →
      s.dropped = false ∧ ∀ bootstrap ∈ s.awaited, s.Latest bootstrap →
        bootstrap.requestEpoch = s.tab.configEpoch
  | .lose _ => False
  | _ => True

/-- The tab has what the server has. -/
def UpToDate (s : Session) : Prop :=
  s.tab.configuration = s.server.configuration ∧ s.tab.configRevision = s.server.configRevision

/-! ### Revisions of snapshots -/

/-- Snapshots are of the past of the server, and the last one that was
    requested is of the present unless a `resync` is coming. -/
structure SnapshotInv (s : Session) : Prop where
  known : s.tab.configRevision ≤ s.server.configRevision
  answered : ∀ bootstrap ∈ s.awaited, ∀ payload, bootstrap.answer = some payload →
    payload.configRevision ≤ s.server.configRevision ∧
      (payload.configRevision = s.server.configRevision →
        payload.configuration = s.server.configuration)
  serials : ∀ bootstrap ∈ s.awaited, bootstrap.serial < s.requested
  latest_answer : ∀ bootstrap ∈ s.awaited, s.Latest bootstrap →
    ∀ payload, bootstrap.answer = some payload →
      payload.configRevision = s.server.configRevision ∨ 0 < s.resyncs
  latest_kept : ∀ bootstrap ∈ s.awaited, s.Latest bootstrap → s.dropped = false

/-- After a request the bootstrap requested last is the new one. -/
theorem latest_request (h : SnapshotInv s) {bootstrap : Bootstrap}
    (hmem : bootstrap ∈ s.request.awaited) (hlatest : s.request.Latest bootstrap) :
    bootstrap = ⟨s.requested, s.tab.configEpoch, none⟩ := by
  rcases List.mem_append.mp hmem with hmem | hmem
  · have hserial := h.serials bootstrap hmem
    have hlast : bootstrap.serial + 1 = s.requested + 1 := hlatest
    omega
  · exact List.mem_singleton.mp hmem

theorem snapshotInv_request (h : SnapshotInv s) : SnapshotInv s.request where
  known := h.known
  answered := by
    intro bootstrap hmem payload hanswer
    rcases List.mem_append.mp hmem with hmem | hmem
    · exact h.answered bootstrap hmem payload hanswer
    · rw [List.mem_singleton.mp hmem] at hanswer
      exact nomatch hanswer
  serials := by
    intro bootstrap hmem
    show bootstrap.serial < s.requested + 1
    rcases List.mem_append.mp hmem with hmem | hmem
    · have hserial := h.serials bootstrap hmem
      omega
    · rw [List.mem_singleton.mp hmem]
      exact Nat.lt_succ_self _
  latest_answer := by
    intro bootstrap hmem hlatest payload hanswer
    rw [latest_request h hmem hlatest] at hanswer
    exact nomatch hanswer
  latest_kept := fun _ _ _ => rfl

theorem snapshotInv_change (h : SnapshotInv s) (after : Configuration) (change : Change) :
    SnapshotInv (s.change after change) where
  known := by
    have hknown := h.known
    show s.tab.configRevision ≤ ((s.server.configRevision + 1 : Nat) : Int)
    omega
  answered := by
    intro bootstrap hmem payload hanswer
    have hold := (h.answered bootstrap hmem payload hanswer).1
    show payload.configRevision ≤ s.server.configRevision + 1 ∧
      (payload.configRevision = s.server.configRevision + 1 → _)
    refine ⟨by omega, fun hnew => ?_⟩
    omega
  serials := h.serials
  latest_answer := fun _ _ _ _ _ => .inr (Nat.succ_pos _)
  latest_kept := h.latest_kept

theorem snapshotInv_receive (h : SnapshotInv s) {bootstrap : Bootstrap}
    {payload : BootstrapPayload} (hmem : bootstrap ∈ s.awaited)
    (hanswer : bootstrap.answer = some payload) : SnapshotInv (s.receive bootstrap payload) := by
  have hrest : ∀ other ∈ s.awaited.filter fun other => other.serial ≠ bootstrap.serial,
      other ∈ s.awaited := fun other hother => (List.mem_filter.mp hother).1
  have hrevision := (h.answered bootstrap hmem payload hanswer).1
  unfold Session.receive
  dsimp only
  split
  · exact
      { known := by
          show ((payload.configRevision : Nat) : Int) ≤ s.server.configRevision
          omega
        answered := fun other hother => h.answered other (hrest other hother)
        serials := fun other hother => h.serials other (hrest other hother)
        latest_answer := fun other hother => h.latest_answer other (hrest other hother)
        latest_kept := fun other hother => h.latest_kept other (hrest other hother) }
  · exact
      { known := h.known
        answered := fun other hother => h.answered other (hrest other hother)
        serials := fun other hother => h.serials other (hrest other hother)
        latest_answer := fun other hother => h.latest_answer other (hrest other hother)
        latest_kept := fun other hother hlatest => by
          -- the received one is not the latest, since another one is
          have hne : other.serial ≠ bootstrap.serial := by
            simpa using (List.mem_filter.mp hother).2
          have hlast : other.serial + 1 = s.requested := hlatest
          have hkept := h.latest_kept other (hrest other hother) hlatest
          show (s.dropped || decide (bootstrap.serial + 1 = s.requested)) = false
          rw [hkept, Bool.false_or, decide_eq_false_iff_not]
          omega }

theorem snapshotInv_answer (h : SnapshotInv s) (serial : Nat) :
    SnapshotInv { s with awaited := answer serial s.server s.awaited } where
  known := h.known
  answered := by
    intro bootstrap hmem payload hanswer
    rcases mem_answer hmem with hmem | ⟨_, hserver, _⟩
    · exact h.answered bootstrap hmem payload hanswer
    · obtain rfl : s.server = payload := Option.some.inj (hserver.symm.trans hanswer)
      exact ⟨Nat.le_refl _, fun _ => rfl⟩
  serials := by
    intro bootstrap hmem
    rcases mem_answer hmem with hmem | ⟨hserial, _, before, hbefore, hsame, _⟩
    · exact h.serials bootstrap hmem
    · have hless := h.serials before hbefore
      show bootstrap.serial < s.requested
      omega
  latest_answer := by
    intro bootstrap hmem hlatest payload hanswer
    rcases mem_answer hmem with hmem | ⟨_, hserver, _⟩
    · exact h.latest_answer bootstrap hmem hlatest payload hanswer
    · obtain rfl : s.server = payload := Option.some.inj (hserver.symm.trans hanswer)
      exact .inl rfl
  latest_kept := by
    intro bootstrap hmem hlatest
    rcases mem_answer hmem with hmem | ⟨hserial, _, before, hbefore, hsame, _⟩
    · exact h.latest_kept bootstrap hmem hlatest
    · have hlast : bootstrap.serial + 1 = s.requested := hlatest
      refine h.latest_kept before hbefore ?_
      show before.serial + 1 = s.requested
      omega

theorem clear_fence_fields (tab : Tab) (epoch : Nat) :
    (tab.clear_fence epoch).configRevision = tab.configRevision ∧
      (tab.clear_fence epoch).configEpoch = tab.configEpoch ∧
      (tab.clear_fence epoch).configuration = tab.configuration := by
  unfold Tab.clear_fence
  split
  · exact ⟨rfl, rfl, rfl⟩
  · exact ⟨rfl, rfl, rfl⟩

theorem snapshotInv_step {label : SessionLabel} (h : SnapshotInv s) (hok : Followed s label)
    (hstep : Effect s label s') : SnapshotInv s' := by
  cases hstep with
  | request => exact snapshotInv_request h
  | resync =>
    -- the answer to the new request makes up for the event
    exact
      { known := h.known
        answered := (snapshotInv_request h).answered
        serials := (snapshotInv_request h).serials
        latest_answer := fun bootstrap hmem hlatest payload hanswer => by
          rw [latest_request h hmem hlatest] at hanswer
          exact nomatch hanswer
        latest_kept := fun _ _ _ => rfl }
  | answer serial => exact snapshotInv_answer h serial
  | receive bootstrap payload hmem hanswer => exact snapshotInv_receive h hmem hanswer
  | lose serial => exact hok.elim
  | begin_mutation => exact ⟨h.known, h.answered, h.serials, h.latest_answer, h.latest_kept⟩
  | succeed epoch reply after =>
    have hchanged := snapshotInv_change h after (.own epoch)
    exact ⟨hchanged.known, hchanged.answered, hchanged.serials, hchanged.latest_answer,
      hchanged.latest_kept⟩
  | refuse epoch => exact ⟨h.known, h.answered, h.serials, h.latest_answer, h.latest_kept⟩
  | change after => exact snapshotInv_change h after .other
  | success epoch reply =>
    exact snapshotInv_request ⟨h.known, h.answered, h.serials, h.latest_answer, h.latest_kept⟩
  | failure epoch =>
    refine ⟨?_, h.answered, h.serials, h.latest_answer, h.latest_kept⟩
    show (s.tab.clear_fence epoch).configRevision ≤ _
    rw [(clear_fence_fields s.tab epoch).1]
    exact h.known

/-! ### The minimum of the fence -/

/-- A minimum is owed to the mutation of the current epoch, or the bootstrap
    that followed its success is above it. -/
structure MinimumInv (s : Session) : Prop where
  mutation_epochs : ∀ mutation ∈ s.mutations, mutation.epoch ≤ s.tab.configEpoch
  bounded : ∀ minimum, s.tab.minimumConfigRevision = some minimum →
    minimum ≤ s.server.configRevision + 1
  owed : ∀ minimum, s.tab.minimumConfigRevision = some minimum →
    (∃ mutation ∈ s.mutations, mutation.epoch = s.tab.configEpoch) ∨
      minimum ≤ s.server.configRevision ∧ ∀ bootstrap ∈ s.awaited, s.Latest bootstrap →
        ∀ payload, bootstrap.answer = some payload → minimum ≤ payload.configRevision
  settled : ∀ minimum, s.tab.minimumConfigRevision = some minimum →
    ∀ mutation ∈ s.mutations, mutation.epoch = s.tab.configEpoch →
      ∀ reply, mutation.outcome = .succeeded reply → minimum ≤ s.server.configRevision

theorem minimumInv_request (hsnapshot : SnapshotInv s) (h : MinimumInv s) :
    MinimumInv s.request where
  mutation_epochs := h.mutation_epochs
  bounded := h.bounded
  owed := by
    intro minimum hminimum
    rcases h.owed minimum hminimum with hmutation | ⟨hbelow, _⟩
    · exact .inl hmutation
    · refine .inr ⟨hbelow, fun bootstrap hmem hlatest payload hanswer => ?_⟩
      rw [latest_request hsnapshot hmem hlatest] at hanswer
      exact nomatch hanswer
  settled := h.settled

theorem minimumInv_change (h : MinimumInv s) (after : Configuration) (change : Change) :
    MinimumInv (s.change after change) where
  mutation_epochs := h.mutation_epochs
  bounded := by
    intro minimum hminimum
    have hbound := h.bounded minimum hminimum
    show minimum ≤ ((s.server.configRevision + 1 : Nat) : Int) + 1
    omega
  owed := by
    intro minimum hminimum
    rcases h.owed minimum hminimum with hmutation | ⟨hbelow, hanswers⟩
    · exact .inl hmutation
    · refine .inr ⟨?_, hanswers⟩
      show minimum ≤ ((s.server.configRevision + 1 : Nat) : Int)
      omega
  settled := by
    intro minimum hminimum mutation hmem hepoch reply hreply
    have hbelow := h.settled minimum hminimum mutation hmem hepoch reply hreply
    show minimum ≤ ((s.server.configRevision + 1 : Nat) : Int)
    omega

/-- With no minimum nothing is owed. -/
theorem minimumInv_of_none
    (hepochs : ∀ mutation ∈ s.mutations, mutation.epoch ≤ s.tab.configEpoch)
    (hnone : s.tab.minimumConfigRevision = none) : MinimumInv s where
  mutation_epochs := hepochs
  bounded := fun _ hminimum => nomatch hnone.symm.trans hminimum
  owed := fun _ hminimum => nomatch hnone.symm.trans hminimum
  settled := fun _ hminimum => nomatch hnone.symm.trans hminimum

theorem minimumInv_receive (h : MinimumInv s) {bootstrap : Bootstrap}
    {payload : BootstrapPayload} : MinimumInv (s.receive bootstrap payload) := by
  unfold Session.receive
  dsimp only
  split
  · exact minimumInv_of_none h.mutation_epochs rfl
  · refine ⟨h.mutation_epochs, h.bounded, fun minimum hminimum => ?_, h.settled⟩
    rcases h.owed minimum hminimum with hmutation | ⟨hbelow, hanswers⟩
    · exact .inl hmutation
    · exact .inr ⟨hbelow, fun other hother => hanswers other (List.mem_filter.mp hother).1⟩

theorem minimumInv_begin (hsnapshot : SnapshotInv s) (h : MinimumInv s) :
    MinimumInv s.begin_mutation where
  mutation_epochs := by
    intro mutation hmem
    show mutation.epoch ≤ s.tab.configEpoch + 1
    rcases List.mem_append.mp hmem with hmem | hmem
    · have hold := h.mutation_epochs mutation hmem
      omega
    · rw [List.mem_singleton.mp hmem]
      exact Nat.le_refl _
  bounded := by
    intro minimum hminimum
    obtain ⟨_, hvalue⟩ := Option.ite_none_right_eq_some.mp hminimum
    have hknown := hsnapshot.known
    have hnext : s.tab.configRevision + 1 = minimum := Option.some.inj hvalue
    show minimum ≤ s.server.configRevision + 1
    omega
  owed := fun _ _ => .inl ⟨_, List.mem_append_right _ (List.mem_singleton_self _), rfl⟩
  settled := by
    intro minimum _ mutation hmem hepoch reply hreply
    rcases List.mem_append.mp hmem with hmem | hmem
    · have hold := h.mutation_epochs mutation hmem
      have hnew : mutation.epoch = s.tab.configEpoch + 1 := hepoch
      omega
    · rw [List.mem_singleton.mp hmem] at hreply
      exact nomatch hreply

theorem minimumInv_answer (h : MinimumInv s) (serial : Nat) :
    MinimumInv { s with awaited := answer serial s.server s.awaited } := by
  refine ⟨h.mutation_epochs, h.bounded, fun minimum hminimum => ?_, h.settled⟩
  rcases h.owed minimum hminimum with hmutation | ⟨hbelow, hanswers⟩
  · exact .inl hmutation
  · refine .inr ⟨hbelow, fun bootstrap hmem hlatest payload hanswer => ?_⟩
    rcases mem_answer hmem with hmem | ⟨_, hserver, _⟩
    · exact hanswers bootstrap hmem hlatest payload hanswer
    · obtain rfl : s.server = payload := Option.some.inj (hserver.symm.trans hanswer)
      exact hbelow

theorem minimumInv_step {label : SessionLabel} (hsnapshot : SnapshotInv s) (h : MinimumInv s)
    (hok : Followed s label) (hstep : Effect s label s') : MinimumInv s' := by
  cases hstep with
  | request => exact minimumInv_request hsnapshot h
  | resync =>
    have hrequested := minimumInv_request hsnapshot h
    exact ⟨hrequested.mutation_epochs, hrequested.bounded, hrequested.owed, hrequested.settled⟩
  | answer serial => exact minimumInv_answer h serial
  | receive bootstrap payload => exact minimumInv_receive h
  | lose serial => exact hok.elim
  | begin_mutation => exact minimumInv_begin hsnapshot h
  | succeed epoch reply after hpending =>
    have hchanged := minimumInv_change h after (.own epoch)
    refine ⟨?_, hchanged.bounded, fun minimum hminimum => ?_, ?_⟩
    · intro mutation hmem
      rcases mem_settle hmem with hmem | ⟨hepoch, _⟩
      · exact h.mutation_epochs mutation hmem
      · have hold : epoch ≤ s.tab.configEpoch := h.mutation_epochs _ hpending
        exact hepoch ▸ hold
    · rcases hchanged.owed minimum hminimum with hmutation | hbelow
      · exact .inl (exists_settle hmutation)
      · exact .inr hbelow
    · intro minimum hminimum mutation hmem hepoch found hfound
      -- the mutation is carried out at a revision above that of the tab
      have hbound := h.bounded minimum hminimum
      show minimum ≤ ((s.server.configRevision + 1 : Nat) : Int)
      omega
  | refuse epoch =>
    refine ⟨?_, h.bounded, fun minimum hminimum => ?_, ?_⟩
    · intro mutation hmem
      rcases mem_settle hmem with hmem | ⟨hepoch, _, before, hbefore, hsame⟩
      · exact h.mutation_epochs mutation hmem
      · have hold := h.mutation_epochs before hbefore
        show mutation.epoch ≤ s.tab.configEpoch
        omega
    · rcases h.owed minimum hminimum with hmutation | hbelow
      · exact .inl (exists_settle hmutation)
      · exact .inr hbelow
    · intro minimum hminimum mutation hmem hepoch reply hreply
      rcases mem_settle hmem with hmem | ⟨_, hfailed, _⟩
      · exact h.settled minimum hminimum mutation hmem hepoch reply hreply
      · exact nomatch hfailed.symm.trans hreply
  | change after => exact minimumInv_change h after .other
  | success epoch reply hsucceeded =>
    have hfiltered : ∀ mutation ∈ s.mutations.filter fun other => other.epoch ≠ epoch,
        mutation ∈ s.mutations := fun mutation hmem => (List.mem_filter.mp hmem).1
    refine ⟨fun mutation hmem => h.mutation_epochs mutation (hfiltered mutation hmem), h.bounded,
      fun minimum hminimum => ?_, fun minimum hminimum mutation hmem =>
        h.settled minimum hminimum mutation (hfiltered mutation hmem)⟩
    have hanswers : ∀ bootstrap ∈ s.request.awaited, s.request.Latest bootstrap →
        ∀ payload, bootstrap.answer = some payload → minimum ≤ payload.configRevision := by
      intro bootstrap hmem hlatest payload hanswer
      rw [latest_request hsnapshot hmem hlatest] at hanswer
      exact nomatch hanswer
    by_cases hcurrent : epoch = s.tab.configEpoch
    · exact .inr ⟨h.settled minimum hminimum _ hsucceeded hcurrent reply rfl, hanswers⟩
    · rcases h.owed minimum hminimum with ⟨mutation, hmem, hepoch⟩ | ⟨hbelow, _⟩
      · refine .inl ⟨mutation, List.mem_filter.mpr ⟨hmem, ?_⟩, hepoch⟩
        rw [decide_eq_true_eq]
        omega
      · exact .inr ⟨hbelow, hanswers⟩
  | failure epoch =>
    have hfiltered : ∀ mutation ∈ s.mutations.filter fun other => other.epoch ≠ epoch,
        mutation ∈ s.mutations := fun mutation hmem => (List.mem_filter.mp hmem).1
    by_cases hcurrent : s.tab.configEpoch = epoch
    · have hcleared : s.tab.clear_fence epoch = { s.tab with minimumConfigRevision := none } :=
        if_pos hcurrent
      rw [hcleared]
      exact minimumInv_of_none
        (fun mutation hmem => h.mutation_epochs mutation (hfiltered mutation hmem)) rfl
    · have hsame : s.tab.clear_fence epoch = s.tab := if_neg hcurrent
      rw [hsame]
      refine ⟨fun mutation hmem => h.mutation_epochs mutation (hfiltered mutation hmem), h.bounded,
        fun minimum hminimum => ?_, fun minimum hminimum mutation hmem =>
          h.settled minimum hminimum mutation (hfiltered mutation hmem)⟩
      rcases h.owed minimum hminimum with ⟨mutation, hmem, hepoch⟩ | hbelow
      · refine .inl ⟨mutation, List.mem_filter.mpr ⟨hmem, ?_⟩, hepoch⟩
        rw [decide_eq_true_eq]
        omega
      · exact .inr hbelow

/-! ### The last bootstrap -/

/-- What is still under way for a tab that is not up to date. -/
structure SettledInv (s : Session) : Prop where
  seen : s.dropped = false → (∃ bootstrap ∈ s.awaited, s.Latest bootstrap) ∨ 0 < s.resyncs ∨
    UpToDate s
  behind : (s.dropped = true ∨ ∃ bootstrap ∈ s.awaited, s.Latest bootstrap ∧
      bootstrap.requestEpoch ≠ s.tab.configEpoch) →
    s.mutations ≠ [] ∨ 0 < s.resyncs ∨ UpToDate s

theorem settledInv_request (hsnapshot : SnapshotInv s) : SettledInv s.request where
  seen := fun _ => .inl ⟨_, List.mem_append_right _ (List.mem_singleton_self _), rfl⟩
  behind := by
    intro hbehind
    rcases hbehind with hdropped | ⟨bootstrap, hmem, hlatest, hepoch⟩
    · exact nomatch hdropped
    · rw [latest_request hsnapshot hmem hlatest] at hepoch
      exact absurd rfl hepoch

/-- A change of the server is announced. -/
theorem settledInv_of_resync (h : 0 < s.resyncs) : SettledInv s :=
  ⟨fun _ => .inr (.inl h), fun _ => .inr (.inl h)⟩

/-- A snapshot that the fence lets through is applied. -/
theorem settledInv_apply (hsnapshot : SnapshotInv s) (h : SettledInv s) {bootstrap : Bootstrap}
    {payload : BootstrapPayload} (hmem : bootstrap ∈ s.awaited)
    (hanswer : bootstrap.answer = some payload)
    (hadmits : s.tab.admits bootstrap.requestEpoch payload.configRevision = true) :
    SettledInv (s.receive bootstrap payload) := by
  obtain ⟨_, hknown, _⟩ := admits_iff.mp hadmits
  obtain ⟨hrevision, hcurrent⟩ := hsnapshot.answered bootstrap hmem payload hanswer
  unfold Session.receive
  rw [if_pos hadmits]
  -- a snapshot of the present leaves the tab up to date
  have hpresent : payload.configRevision = s.server.configRevision →
      payload.configuration = s.server.configuration ∧
        ((payload.configRevision : Nat) : Int) = s.server.configRevision := by
    intro hsame
    exact ⟨hcurrent hsame, by omega⟩
  have huptodate : UpToDate s → payload.configRevision = s.server.configRevision := by
    intro hnow
    have hsame := hnow.2
    omega
  refine ⟨fun hdropped => ?_, fun hbehind => ?_⟩
  · by_cases hlatest : s.Latest bootstrap
    · rcases hsnapshot.latest_answer bootstrap hmem hlatest payload hanswer with hsame | hresync
      · exact .inr (.inr (hpresent hsame))
      · exact .inr (.inl hresync)
    · rcases h.seen hdropped with ⟨last, hlast, hlatest'⟩ | hresync | hnow
      · refine .inl ⟨last, List.mem_filter.mpr ⟨hlast, ?_⟩, hlatest'⟩
        rw [decide_eq_true_eq]
        intro hserial
        exact hlatest ((congrArg (· + 1) hserial).symm.trans hlatest')
      · exact .inr (.inl hresync)
      · exact .inr (.inr (hpresent (huptodate hnow)))
  · have hbefore : s.dropped = true ∨ ∃ other ∈ s.awaited, s.Latest other ∧
        other.requestEpoch ≠ s.tab.configEpoch := by
      rcases hbehind with hdropped | ⟨other, hother, hlatest, hepoch⟩
      · exact .inl hdropped
      · exact .inr ⟨other, (List.mem_filter.mp hother).1, hlatest, hepoch⟩
    rcases h.behind hbefore with hmutations | hresync | hnow
    · exact .inl hmutations
    · exact .inr (.inl hresync)
    · exact .inr (.inr (hpresent (huptodate hnow)))

/-- A snapshot that the fence keeps out is dropped. -/
theorem settledInv_drop (hsnapshot : SnapshotInv s) (hminimum : MinimumInv s) (h : SettledInv s)
    {bootstrap : Bootstrap} {payload : BootstrapPayload} (hmem : bootstrap ∈ s.awaited)
    (hanswer : bootstrap.answer = some payload)
    (hadmits : ¬ s.tab.admits bootstrap.requestEpoch payload.configRevision = true) :
    SettledInv (s.receive bootstrap payload) := by
  unfold Session.receive
  rw [if_neg hadmits]
  refine ⟨fun hdropped => ?_, fun hbehind => ?_⟩
  · obtain ⟨hdropped, hnot⟩ := Bool.or_eq_false_iff.mp hdropped
    rw [decide_eq_false_iff_not] at hnot
    rcases h.seen hdropped with ⟨last, hlast, hlatest⟩ | hnow
    · refine .inl ⟨last, List.mem_filter.mpr ⟨hlast, ?_⟩, hlatest⟩
      rw [decide_eq_true_eq]
      intro hserial
      exact hnot ((congrArg (· + 1) hserial).symm.trans hlatest)
    · exact .inr hnow
  · show s.mutations ≠ [] ∨ 0 < s.resyncs ∨ UpToDate s
    rcases hbehind with hdropped | ⟨other, hother, hlatest, hepoch⟩
    · rcases (Bool.or_eq_true _ _).mp hdropped with hdropped | hlast
      · exact h.behind (.inl hdropped)
      · have hlatest : s.Latest bootstrap := of_decide_eq_true hlast
        by_cases hepoch : bootstrap.requestEpoch = s.tab.configEpoch
        · rcases hsnapshot.latest_answer bootstrap hmem hlatest payload hanswer with hsame | hresync
          · -- it is of the present, so only a minimum keeps it out
            by_contra hnothing
            obtain ⟨hnone, _⟩ := not_or.mp hnothing
            refine hadmits (admits_iff.mpr ⟨hepoch.symm, ?_, fun minimum hsome => ?_⟩)
            · have hknown := hsnapshot.known
              omega
            · rcases hminimum.owed minimum hsome with ⟨mutation, hmutation, _⟩ | ⟨_, hanswers⟩
              · exact absurd (List.ne_nil_of_mem hmutation) hnone
              · exact hanswers bootstrap hmem hlatest payload hanswer
          · exact .inr (.inl hresync)
        · exact h.behind (.inr ⟨bootstrap, hmem, hlatest, hepoch⟩)
    · exact h.behind (.inr ⟨other, (List.mem_filter.mp hother).1, hlatest, hepoch⟩)

theorem settledInv_answer (h : SettledInv s) (serial : Nat) :
    SettledInv { s with awaited := answer serial s.server s.awaited } := by
  refine ⟨fun hdropped => ?_, fun hbehind => h.behind ?_⟩
  · rcases h.seen hdropped with ⟨last, hlast, hlatest⟩ | hnow
    · refine .inl ⟨_, List.mem_map.mpr ⟨last, hlast, rfl⟩, ?_⟩
      split
      · exact hlatest
      · exact hlatest
    · exact .inr hnow
  · rcases hbehind with hdropped | ⟨bootstrap, hmem, hlatest, hepoch⟩
    · exact .inl hdropped
    · rcases mem_answer hmem with hmem | ⟨hserial, _, before, hbefore, hsame, hrequest⟩
      · exact .inr ⟨bootstrap, hmem, hlatest, hepoch⟩
      · refine .inr ⟨before, hbefore, ?_, hrequest ▸ hepoch⟩
        have hlast : bootstrap.serial + 1 = s.requested := hlatest
        show before.serial + 1 = s.requested
        omega

theorem settledInv_step {label : SessionLabel} (hsnapshot : SnapshotInv s)
    (hminimum : MinimumInv s) (h : SettledInv s) (hok : Followed s label)
    (hstep : Effect s label s') : SettledInv s' := by
  cases hstep with
  | request => exact settledInv_request hsnapshot
  | resync =>
    have hrequested := settledInv_request hsnapshot
    refine ⟨fun _ => .inl ⟨_, List.mem_append_right _ (List.mem_singleton_self _), rfl⟩,
      fun hbehind => ?_⟩
    rcases hbehind with hdropped | ⟨bootstrap, hmem, hlatest, hepoch⟩
    · exact nomatch hdropped
    · rw [latest_request hsnapshot hmem hlatest] at hepoch
      exact absurd rfl hepoch
  | answer serial => exact settledInv_answer h serial
  | receive bootstrap payload hmem hanswer =>
    by_cases hadmits : s.tab.admits bootstrap.requestEpoch payload.configRevision = true
    · exact settledInv_apply hsnapshot h hmem hanswer hadmits
    · exact settledInv_drop hsnapshot hminimum h hmem hanswer hadmits
  | lose serial => exact hok.elim
  | begin_mutation =>
    have hmutations : s.begin_mutation.mutations ≠ [] := List.append_ne_nil_of_right_ne_nil _ nofun
    exact ⟨h.seen, fun _ => .inl hmutations⟩
  | succeed epoch reply after =>
    exact settledInv_of_resync (Nat.succ_pos _)
  | refuse epoch =>
    refine ⟨h.seen, fun hbehind => ?_⟩
    rcases h.behind hbehind with hmutations | hnow
    · refine .inl fun hnil => hmutations ?_
      exact List.map_eq_nil_iff.mp hnil
    · exact .inr hnow
  | change after => exact settledInv_of_resync (Nat.succ_pos _)
  | success epoch reply =>
    exact settledInv_request
      (s := { s with
              tab := { s.tab with configuration := s.tab.configuration.apply reply }
              mutations := s.mutations.filter fun other => other.epoch ≠ epoch
              applied := s.applied ++ [epoch] })
      ⟨hsnapshot.known, hsnapshot.answered, hsnapshot.serials, hsnapshot.latest_answer,
        hsnapshot.latest_kept⟩
  | failure epoch =>
    obtain ⟨hrevision, hepochs, hconfiguration⟩ := clear_fence_fields s.tab epoch
    have hnow : UpToDate s → UpToDate { s with
        tab := s.tab.clear_fence epoch
        mutations := s.mutations.filter fun other => other.epoch ≠ epoch } := by
      intro hnow
      exact ⟨hconfiguration.trans hnow.1, hrevision.trans hnow.2⟩
    refine ⟨fun hdropped => (h.seen hdropped).imp_right (.imp_right hnow), fun hbehind => ?_⟩
    by_cases hlast : ∀ mutation ∈ s.mutations, mutation.epoch = epoch
    · -- the last mutation has failed: nothing was dropped
      obtain ⟨hkept, hcurrent⟩ := hok hlast
      rcases hbehind with hdropped | ⟨bootstrap, hmem, hlatest, hepoch⟩
      · exact nomatch hkept.symm.trans hdropped
      · exact absurd ((hcurrent bootstrap hmem hlatest).trans hepochs.symm) hepoch
    · obtain ⟨mutation, hother⟩ := not_forall.mp hlast
      obtain ⟨hmem, hne⟩ := Classical.not_imp.mp hother
      exact .inl (List.ne_nil_of_mem (List.mem_filter.mpr ⟨hmem, by simpa using hne⟩))

theorem reachable_settled (h : session.ReachableWhen Followed s) :
    SnapshotInv s ∧ MinimumInv s ∧ SettledInv s := by
  refine @Machine.ReachableWhen.invariant _ _ _ _
    (fun s => SnapshotInv s ∧ MinimumInv s ∧ SettledInv s) ?_ ?_ _ h
  · intro s hinit
    obtain ⟨configRevision, configuration, initial, rfl⟩ := hinit
    have hfirst : ∀ bootstrap ∈ (Session.start configRevision configuration initial).awaited,
        bootstrap = ⟨0, 0, none⟩ := fun bootstrap hmem => List.mem_singleton.mp hmem
    have hunanswered : ∀ bootstrap ∈ (Session.start configRevision configuration initial).awaited,
        ∀ payload, bootstrap.answer ≠ some payload := by
      intro bootstrap hmem payload hanswer
      rw [hfirst bootstrap hmem] at hanswer
      exact nomatch hanswer
    refine ⟨⟨?_, ?_, ?_, ?_, fun _ _ _ => rfl⟩, minimumInv_of_none nofun rfl, ?_, ?_⟩
    · show (-1 : Int) ≤ configRevision
      omega
    · exact fun bootstrap hmem payload hanswer => absurd hanswer (hunanswered bootstrap hmem payload)
    · intro bootstrap hmem
      rw [hfirst bootstrap hmem]
      exact Nat.zero_lt_one
    · exact fun bootstrap hmem _ payload hanswer =>
        absurd hanswer (hunanswered bootstrap hmem payload)
    · exact fun _ => .inl ⟨_, List.mem_singleton_self _, rfl⟩
    · intro hbehind
      rcases hbehind with hdropped | ⟨bootstrap, hmem, _, hepoch⟩
      · exact nomatch hdropped
      · rw [hfirst bootstrap hmem] at hepoch
        exact absurd rfl hepoch
  · intro s label s' hinv hok hnext
    obtain ⟨hsnapshot, hminimum, hsettled⟩ := hinv
    have heffect := next_effect hnext
    exact ⟨snapshotInv_step hsnapshot hok heffect, minimumInv_step hsnapshot hminimum hok heffect,
      settledInv_step hsnapshot hminimum hsettled hok heffect⟩

/-! ### The two promises -/

/-- The response of this bootstrap is applied when it arrives. -/
def Applies (s : Session) (serial : Nat) (payload : BootstrapPayload) : Prop :=
  ∃ bootstrap ∈ s.awaited, bootstrap.serial = serial ∧ bootstrap.answer = some payload ∧
    s.tab.admits bootstrap.requestEpoch payload.configRevision = true

instance (s : Session) (serial : Nat) (payload : BootstrapPayload) :
    Decidable (Applies s serial payload) :=
  inferInstanceAs (Decidable (∃ bootstrap ∈ s.awaited, _))

/-- **The fence**: a snapshot that is applied has every mutation whose
    success the tab has applied, and a tab for which nothing is under way has
    the configuration of the server. -/
theorem bootstrap_keeps_mutations
    (h : session.ReachableWhen (fun s label => Fenced s label ∧ Followed s label) s) :
    (∀ serial payload, Applies s serial payload →
      ∀ epoch ∈ s.applied, .own epoch ∈ payload.changes) ∧
    (s.awaited = [] → s.mutations = [] → s.resyncs = 0 →
      s.tab.configuration = s.server.configuration) := by
  constructor
  · intro serial payload happlies epoch happlied
    obtain ⟨bootstrap, hmem, _, hanswer, hadmits⟩ := happlies
    have hinv := reachable_fenceInv (h.mono fun _ _ hok => hok.1)
    by_contra hlacks
    have hout := hinv.kept_out bootstrap hmem payload hanswer (.inr ⟨epoch, happlied, hlacks⟩)
    rw [hadmits] at hout
    exact absurd hout.symm Bool.false_ne_true
  · intro hawaited hmutations hresyncs
    obtain ⟨_, _, hsettled⟩ := reachable_settled (h.mono fun _ _ hok => hok.2)
    have hnow : 0 < s.resyncs ∨ UpToDate s := by
      cases hdropped : s.dropped with
      | false =>
        rcases hsettled.seen hdropped with ⟨bootstrap, hmem, _⟩ | hnow
        · rw [hawaited] at hmem
          exact nomatch hmem
        · exact hnow
      | true => exact (hsettled.behind (.inl hdropped)).resolve_left (not_not_intro hmutations)
    rcases hnow with hresync | hnow
    · omega
    · exact hnow.1

/-! ### Three runs -/

def with_font (size : Nat) : Configuration :=
  ⟨{ AppSettings.default with terminal_font_size := size }, [], []⟩

/-- A tab that opens, and saves the font size 16. -/
def save_font : List SessionLabel :=
  [.answer 0, .receive 0, .begin_mutation,
   .succeed 1 (.updateSettings (with_font 16).settings) (with_font 16), .success 1]

/-- `Fenced` and `Followed` for runs without failures in which no mutation is
    pending when a bootstrap is answered. -/
def plain_step (s : Session) : SessionLabel → Bool
  | .answer _ => s.mutations.all fun mutation => mutation.outcome ≠ .pending
  | .failure _ | .lose _ => false
  | _ => true

theorem plain_step_sound (s : Session) (label : SessionLabel) (h : plain_step s label = true) :
    Fenced s label ∧ Followed s label := by
  cases label with
  | answer serial =>
    refine ⟨fun hpending => ?_, trivial⟩
    obtain ⟨mutation, hmem, houtcome⟩ := hpending
    exact absurd houtcome (by simpa using List.all_eq_true.mp h mutation hmem)
  | failure epoch => exact nomatch h
  | lose serial => exact nomatch h
  | _ => exact ⟨trivial, trivial⟩

/-- The saved font size is there in the end. -/
theorem saved_font_is_kept : ∃ s : Session, s.applied = [1] ∧
    s.tab.configuration = (with_font 16) := by
  obtain ⟨s, hreach, hp⟩ := Machine.reachable_of_replay (m := session) plain_step plain_step_sound
    ⟨0, with_font 14, with_font 14, rfl⟩
    (save_font ++ [.answer 1, .receive 1, .resync, .answer 2, .receive 2])
    (fun s : Session => decide (s.applied = [1] ∧ s.awaited = [] ∧ s.mutations = [] ∧
      s.resyncs = 0 ∧ s.server.configuration = with_font 16))
    (by decide +kernel)
  obtain ⟨happlied, hawaited, hmutations, hresyncs, hserver⟩ := of_decide_eq_true hp
  have hkept := (bootstrap_keeps_mutations hreach).2 hawaited hmutations hresyncs
  exact ⟨s, happlied, hkept.trans hserver⟩

/-- Another tab saves the font size 12 after this tab has begun to save 16;
    the snapshot that has only the former is applied last.  And a bootstrap
    that is overtaken by a mutation which fails is never made up for. -/
theorem fence_lets_through :
    (∃ s : Session, session.Reachable s ∧ s.applied = [1] ∧
      ∃ payload, Applies s 1 payload ∧ .own 1 ∉ payload.changes) ∧
    ∃ s : Session, session.Reachable s ∧ s.awaited = [] ∧ s.mutations = [] ∧ s.resyncs = 0 ∧
      s.tab.configuration ≠ s.server.configuration := by
  constructor
  · obtain ⟨s, hreach, hp⟩ := Machine.reachable_of_replay (m := session)
      (fun _ _ => true) (fun _ _ _ => trivial) ⟨0, with_font 14, with_font 14, rfl⟩
      [.answer 0, .receive 0, .begin_mutation, .change (with_font 12), .resync, .answer 1,
       .succeed 1 (.updateSettings (with_font 16).settings) (with_font 16), .success 1]
      (fun s : Session => decide (s.applied = [1] ∧ Applies s 1 ⟨1, with_font 12, [.other]⟩))
      (by decide +kernel)
    obtain ⟨happlied, happlies⟩ := of_decide_eq_true hp
    exact ⟨s, hreach, happlied, _, happlies, by decide⟩
  · obtain ⟨s, hreach, hp⟩ := Machine.reachable_of_replay (m := session)
      (fun _ _ => true) (fun _ _ _ => trivial) ⟨0, with_font 14, with_font 14, rfl⟩
      [.answer 0, .receive 0, .change (with_font 12), .resync, .answer 1, .begin_mutation,
       .receive 1, .refuse 1, .failure 1]
      (fun s : Session => decide (s.awaited = [] ∧ s.mutations = [] ∧ s.resyncs = 0 ∧
        s.tab.configuration ≠ s.server.configuration))
      (by decide +kernel)
    exact ⟨s, hreach, of_decide_eq_true hp⟩

end Client
