import RemoteDeck.Error
import RemoteDeck.Lib.Machine

/-! # Host operations

    `HostOperationBarrier` of `host_operation.rs`, which `sftp.rs` has a
    copy of: leases for the work on a host, a retirement that refuses new
    ones, and a wait for those that are held.

    Each locked section is a step.  A lease is held by somebody, and who
    holds it does not matter here.  A lease takes memory, so that the count
    of a host never reaches the point where it saturates.

    This file defines:
    - `Barrier`: the states of the hosts, with the leases in existence
    - `BarrierInv`: the count of a host is the number of its leases
    - what a host that was retired and found idle keeps until it is restored
-/

namespace HostOperation

structure HostOperationState where
  active : Nat
  retired : Bool
  deriving DecidableEq, Repr

def HostOperationState.default : HostOperationState := { active := 0, retired := false }

/-- The barrier, and the leases with their holders. -/
structure Barrier (Holder : Type) where
  hosts : Text → Option HostOperationState
  leases : List (Holder × Text)

variable {Holder : Type}

def Barrier.empty : Barrier Holder where
  hosts := fun _ => none
  leases := []

/-- `entry(host_id).or_default()`. -/
def Barrier.state (barrier : Barrier Holder) (host_id : Text) : HostOperationState :=
  (barrier.hosts host_id).getD .default

def Barrier.set (barrier : Barrier Holder) (host_id : Text) (state : Option HostOperationState) :
    Barrier Holder :=
  { barrier with hosts := Function.update barrier.hosts host_id state }

/-- `begin`, with whether a lease was given. -/
def Barrier.begin (barrier : Barrier Holder) (holder : Holder) (host_id : Text) :
    Barrier Holder × Bool :=
  let state := barrier.state host_id
  if state.retired then (barrier.set host_id (some state), false)
  else
    let counted := barrier.set host_id (some { state with active := state.active + 1 })
    ({ counted with leases := barrier.leases ++ [(holder, host_id)] }, true)

/-- The drop of a lease. -/
def Barrier.drop [DecidableEq Holder] (barrier : Barrier Holder) (holder : Holder) (host_id : Text) :
    Barrier Holder :=
  let dropped := { barrier with leases := barrier.leases.erase (holder, host_id) }
  match barrier.hosts host_id with
  | none => dropped
  | some state =>
      let state := { state with active := state.active - 1 }
      dropped.set host_id (if state.active = 0 ∧ !state.retired then none else some state)

def Barrier.retire (barrier : Barrier Holder) (host_id : Text) : Barrier Holder :=
  barrier.set host_id (some { barrier.state host_id with retired := true })

/-- What `wait_idle` waits for. -/
def Barrier.idle (barrier : Barrier Holder) (host_id : Text) : Bool :=
  (barrier.hosts host_id).all fun state => state.active = 0

def Barrier.restore (barrier : Barrier Holder) (host_id : Text) : Barrier Holder :=
  match barrier.hosts host_id with
  | none => barrier
  | some state =>
      barrier.set host_id (if state.active = 0 then none else some { state with retired := false })

/-! ### The machine -/

inductive Label (Holder : Type) where
  | begin (holder : Holder) (host_id : Text)
  | drop (holder : Holder) (host_id : Text)
  | retire (host_id : Text)
  /-- `wait_idle` returns. -/
  | wait_idle (host_id : Text)
  | restore (host_id : Text)

def Barrier.next [DecidableEq Holder] (barrier : Barrier Holder) :
    Label Holder → Option (Barrier Holder)
  | .begin holder host_id => some (barrier.begin holder host_id).1
  | .drop holder host_id =>
      if (holder, host_id) ∈ barrier.leases then some (barrier.drop holder host_id) else none
  | .retire host_id => some (barrier.retire host_id)
  | .wait_idle host_id => if barrier.idle host_id then some barrier else none
  | .restore host_id => some (barrier.restore host_id)

def barrier_machine (Holder : Type) [DecidableEq Holder] : Machine (Barrier Holder) (Label Holder) where
  init := fun barrier => barrier = .empty
  next := Barrier.next

/-! ### The invariant -/

variable {barrier barrier' : Barrier Holder} {holder : Holder} {host_id : Text}

def Barrier.held (barrier : Barrier Holder) (host_id : Text) : Nat :=
  barrier.leases.countP fun lease => lease.2 = host_id

/-- The leases of a host are counted. -/
def BarrierInv (barrier : Barrier Holder) : Prop :=
  ∀ host_id, (barrier.state host_id).active = barrier.held host_id

def Barrier.retired (barrier : Barrier Holder) (host_id : Text) : Bool :=
  (barrier.state host_id).retired

/-- Nobody holds a lease of the host. -/
def Barrier.unheld (barrier : Barrier Holder) (host_id : Text) : Prop :=
  ∀ lease ∈ barrier.leases, lease.2 ≠ host_id

theorem unheld_iff : barrier.unheld host_id ↔ barrier.held host_id = 0 := by
  unfold Barrier.held Barrier.unheld
  rw [List.countP_eq_zero]
  constructor
  · intro h lease hlease hhost
    exact h lease hlease (of_decide_eq_true hhost)
  · intro h lease hlease hhost
    exact h lease hlease (decide_eq_true hhost)

theorem barrierInv_empty : BarrierInv (Barrier.empty : Barrier Holder) := fun _ => rfl

theorem state_set (barrier : Barrier Holder) (host_id other : Text)
    (state : Option HostOperationState) :
    (barrier.set host_id state).state other =
      if other = host_id then state.getD .default else barrier.state other := by
  show (Function.update barrier.hosts host_id state other).getD _ = _
  by_cases hother : other = host_id
  · rw [hother, Function.update_self, if_pos rfl]
  · rw [Function.update_of_ne hother, if_neg hother]
    rfl

theorem state_of_none (h : barrier.hosts host_id = none) : barrier.state host_id = .default := by
  unfold Barrier.state
  rw [h]
  rfl

theorem state_of_some {state : HostOperationState} (h : barrier.hosts host_id = some state) :
    barrier.state host_id = state := by
  unfold Barrier.state
  rw [h]
  rfl

/-- A lease is given, and only for a host that is not retired. -/
theorem begin_cases (barrier : Barrier Holder) (holder : Holder) (host_id : Text) :
    barrier.retired host_id = true ∧ (barrier.begin holder host_id).2 = false ∧
        (barrier.begin holder host_id).1.leases = barrier.leases ∧
        (∀ other, (barrier.begin holder host_id).1.state other = barrier.state other) ∨
      barrier.retired host_id = false ∧ (barrier.begin holder host_id).2 = true ∧
        (barrier.begin holder host_id).1.leases = barrier.leases ++ [(holder, host_id)] ∧
        ∀ other, (barrier.begin holder host_id).1.state other =
          if other = host_id then ⟨(barrier.state host_id).active + 1, false⟩
          else barrier.state other := by
  unfold Barrier.begin Barrier.retired
  by_cases hretired : (barrier.state host_id).retired = true
  · left
    rw [if_pos hretired]
    refine ⟨hretired, rfl, rfl, ?_⟩
    intro other
    rw [state_set]
    by_cases hother : other = host_id
    · rw [if_pos hother, hother]
      rfl
    · rw [if_neg hother]
  · right
    rw [if_neg hretired]
    rw [Bool.not_eq_true] at hretired
    refine ⟨hretired, rfl, rfl, ?_⟩
    intro other
    show (barrier.set host_id _).state other = _
    rw [state_set, hretired]
    rfl

theorem drop_state [DecidableEq Holder] (barrier : Barrier Holder) (holder : Holder)
    (host_id other : Text) :
    (barrier.drop holder host_id).state other =
      if other = host_id then
        ⟨(barrier.state host_id).active - 1, (barrier.state host_id).retired⟩
      else barrier.state other := by
  unfold Barrier.drop
  cases hstate : barrier.hosts host_id with
  | none =>
    show barrier.state other = _
    split
    · next hother =>
      rw [hother, state_of_none hstate]
      rfl
    · rfl
  | some state =>
    show (Barrier.set _ host_id _).state other = _
    rw [state_set, state_of_some hstate]
    by_cases hother : other = host_id
    · rw [if_pos hother, if_pos hother]
      split
      · next hidle =>
        obtain ⟨hactive, hretired⟩ := hidle
        have hopen : state.retired = false := by simpa using hretired
        dsimp only at hactive
        rw [hactive, hopen]
        rfl
      · rfl
    · rw [if_neg hother, if_neg hother]
      rfl

theorem drop_leases [DecidableEq Holder] (barrier : Barrier Holder) (holder : Holder)
    (host_id : Text) :
    (barrier.drop holder host_id).leases = barrier.leases.erase (holder, host_id) := by
  unfold Barrier.drop
  cases barrier.hosts host_id <;> rfl

theorem retire_state (barrier : Barrier Holder) (host_id other : Text) :
    (barrier.retire host_id).state other =
      if other = host_id then ⟨(barrier.state host_id).active, true⟩ else barrier.state other := by
  unfold Barrier.retire
  rw [state_set]
  rfl

theorem restore_state (barrier : Barrier Holder) (host_id other : Text) :
    (barrier.restore host_id).state other =
      if other = host_id then ⟨(barrier.state host_id).active, false⟩ else barrier.state other := by
  unfold Barrier.restore
  cases hstate : barrier.hosts host_id with
  | none =>
    show barrier.state other = _
    split
    · next hother =>
      rw [hother, state_of_none hstate]
      rfl
    · rfl
  | some state =>
    dsimp only
    rw [state_set, state_of_some hstate]
    by_cases hother : other = host_id
    · rw [if_pos hother, if_pos hother]
      split
      · next hactive =>
        rw [hactive]
        rfl
      · rfl
    · rw [if_neg hother, if_neg hother]

theorem restore_leases (barrier : Barrier Holder) (host_id : Text) :
    (barrier.restore host_id).leases = barrier.leases := by
  unfold Barrier.restore
  cases barrier.hosts host_id <;> rfl

theorem held_of_leases (h : barrier'.leases = barrier.leases) (host_id : Text) :
    barrier'.held host_id = barrier.held host_id := by
  unfold Barrier.held
  rw [h]

theorem held_begin (h : barrier'.leases = barrier.leases ++ [(holder, host_id)]) (other : Text) :
    barrier'.held other = if other = host_id then barrier.held host_id + 1 else barrier.held other := by
  unfold Barrier.held
  rw [h, List.countP_append]
  by_cases hother : other = host_id
  · subst hother
    rw [if_pos rfl, List.countP_singleton, if_pos (decide_eq_true rfl)]
  · rw [if_neg hother, List.countP_singleton, if_neg]
    · rfl
    · intro hsame
      exact hother (of_decide_eq_true hsame).symm

theorem held_drop [DecidableEq Holder] (hmem : (holder, host_id) ∈ barrier.leases) (other : Text) :
    (barrier.drop holder host_id).held other =
      if other = host_id then barrier.held host_id - 1 else barrier.held other := by
  have hperm : barrier.held other = List.countP (fun lease => lease.2 = other)
      ((holder, host_id) :: barrier.leases.erase (holder, host_id)) :=
    (List.perm_cons_erase hmem).countP_eq _
  unfold Barrier.held at hperm ⊢
  rw [List.countP_cons] at hperm
  rw [drop_leases]
  by_cases hother : other = host_id
  · subst hother
    rw [if_pos (decide_eq_true rfl)] at hperm
    rw [if_pos rfl, hperm]
    rfl
  · rw [if_neg fun hsame => hother (of_decide_eq_true hsame).symm] at hperm
    rw [if_neg hother, hperm]
    rfl

theorem BarrierInv.step [DecidableEq Holder] (h : BarrierInv barrier) {label : Label Holder}
    (hnext : barrier.next label = some barrier') : BarrierInv barrier' := by
  intro other
  cases label with
  | begin holder host_id =>
    obtain rfl := Option.some.inj hnext
    rcases begin_cases barrier holder host_id with ⟨_, _, hleases, hstate⟩ | ⟨_, _, hleases, hstate⟩
    · rw [hstate, held_of_leases hleases]
      exact h other
    · rw [hstate, held_begin hleases]
      split
      · exact congrArg (· + 1) (h host_id)
      · exact h other
  | drop holder host_id =>
    obtain ⟨hmem, hnext⟩ := Option.ite_none_right_eq_some.mp hnext
    obtain rfl := Option.some.inj hnext
    rw [drop_state, held_drop hmem]
    split
    · exact congrArg (· - 1) (h host_id)
    · exact h other
  | retire host_id =>
    obtain rfl := Option.some.inj hnext
    rw [retire_state]
    split
    · next hother =>
      rw [hother]
      exact h host_id
    · exact h other
  | wait_idle host_id =>
    obtain ⟨_, hnext⟩ := Option.ite_none_right_eq_some.mp hnext
    obtain rfl := Option.some.inj hnext
    exact h other
  | restore host_id =>
    obtain rfl := Option.some.inj hnext
    rw [restore_state, held_of_leases (restore_leases barrier host_id)]
    split
    · next hother =>
      rw [hother]
      exact h host_id
    · exact h other

/-- A host that is idle has no lease. -/
theorem BarrierInv.unheld_of_idle (h : BarrierInv barrier) (hidle : barrier.idle host_id = true) :
    barrier.unheld host_id := by
  rw [unheld_iff, ← h host_id]
  unfold Barrier.idle at hidle
  cases hstate : barrier.hosts host_id with
  | none =>
    rw [state_of_none hstate]
    rfl
  | some state =>
    rw [hstate, Option.all_some] at hidle
    rw [state_of_some hstate]
    exact of_decide_eq_true hidle

/-! ### Retired hosts -/

/-- Every step but a restoration keeps a host retired. -/
theorem retired_step [DecidableEq Holder] {label : Label Holder}
    (hnext : barrier.next label = some barrier') (hlabel : label ≠ .restore host_id)
    (hretired : barrier.retired host_id = true) : barrier'.retired host_id = true := by
  unfold Barrier.retired at hretired ⊢
  cases label with
  | begin holder other =>
    obtain rfl := Option.some.inj hnext
    rcases begin_cases barrier holder other with ⟨_, _, _, hstate⟩ | ⟨hother, _, _, hstate⟩
    · rw [hstate]
      exact hretired
    · rw [hstate, if_neg]
      · exact hretired
      · intro hsame
        unfold Barrier.retired at hother
        rw [← hsame, hretired] at hother
        exact absurd hother.symm Bool.false_ne_true
  | drop holder other =>
    obtain ⟨_, hnext⟩ := Option.ite_none_right_eq_some.mp hnext
    obtain rfl := Option.some.inj hnext
    rw [drop_state]
    split
    · next hother => exact hother ▸ hretired
    · exact hretired
  | retire other =>
    obtain rfl := Option.some.inj hnext
    rw [retire_state]
    split
    · rfl
    · exact hretired
  | wait_idle other =>
    obtain ⟨_, hnext⟩ := Option.ite_none_right_eq_some.mp hnext
    obtain rfl := Option.some.inj hnext
    exact hretired
  | restore other =>
    obtain rfl := Option.some.inj hnext
    rw [restore_state, if_neg]
    · exact hretired
    · intro hsame
      exact hlabel (congrArg Label.restore hsame.symm)

/-- Nobody takes a lease of a retired host. -/
theorem unheld_step [DecidableEq Holder] {label : Label Holder}
    (hnext : barrier.next label = some barrier') (hretired : barrier.retired host_id = true)
    (hunheld : barrier.unheld host_id) : barrier'.unheld host_id := by
  intro lease hlease
  cases label with
  | begin holder other =>
    obtain rfl := Option.some.inj hnext
    rcases begin_cases barrier holder other with ⟨_, _, hleases, _⟩ | ⟨hother, _, hleases, _⟩
    · exact hunheld lease (hleases ▸ hlease)
    · rw [hleases] at hlease
      rcases List.mem_append.mp hlease with hold | hlast
      · exact hunheld lease hold
      · rw [List.mem_singleton.mp hlast]
        intro hsame
        change other = host_id at hsame
        rw [hsame, hretired] at hother
        exact absurd hother.symm Bool.false_ne_true
  | drop holder other =>
    obtain ⟨_, hnext⟩ := Option.ite_none_right_eq_some.mp hnext
    obtain rfl := Option.some.inj hnext
    rw [drop_leases] at hlease
    exact hunheld lease (List.mem_of_mem_erase hlease)
  | retire other =>
    obtain rfl := Option.some.inj hnext
    exact hunheld lease hlease
  | wait_idle other =>
    obtain ⟨_, hnext⟩ := Option.ite_none_right_eq_some.mp hnext
    obtain rfl := Option.some.inj hnext
    exact hunheld lease hlease
  | restore other =>
    obtain rfl := Option.some.inj hnext
    rw [restore_leases] at hlease
    exact hunheld lease hlease

/-- A step that names one host leaves the leases and the states of the others alone. -/
def Label.host : Label Holder → Text
  | .begin _ host_id | .drop _ host_id | .retire host_id | .wait_idle host_id | .restore host_id =>
      host_id

theorem others_step [DecidableEq Holder] {label : Label Holder}
    (hnext : barrier.next label = some barrier') {other : Text} (hother : other ≠ label.host) :
    barrier'.state other = barrier.state other ∧
      ∀ lease, lease.2 = other → (lease ∈ barrier'.leases ↔ lease ∈ barrier.leases) := by
  cases label with
  | begin holder host_id =>
    obtain rfl := Option.some.inj hnext
    rcases begin_cases barrier holder host_id with ⟨_, _, hleases, hstate⟩ | ⟨_, _, hleases, hstate⟩
    · rw [hstate, hleases]
      exact ⟨rfl, fun _ _ => Iff.rfl⟩
    · rw [hstate, hleases, if_neg (show other ≠ host_id from hother)]
      refine ⟨rfl, ?_⟩
      intro lease hlease
      rw [List.mem_append, List.mem_singleton]
      constructor
      · rintro (hold | hlast)
        · exact hold
        · rw [hlast] at hlease
          exact absurd hlease.symm hother
      · exact .inl
  | drop holder host_id =>
    obtain ⟨_, hnext⟩ := Option.ite_none_right_eq_some.mp hnext
    obtain rfl := Option.some.inj hnext
    rw [drop_state, drop_leases, if_neg (show other ≠ host_id from hother)]
    refine ⟨rfl, ?_⟩
    intro lease hlease
    have hne : lease ≠ (holder, host_id) := by
      intro hsame
      rw [hsame] at hlease
      exact hother hlease.symm
    exact List.mem_erase_of_ne hne
  | retire host_id =>
    obtain rfl := Option.some.inj hnext
    rw [retire_state, if_neg (show other ≠ host_id from hother)]
    exact ⟨rfl, fun _ _ => Iff.rfl⟩
  | wait_idle host_id =>
    obtain ⟨_, hnext⟩ := Option.ite_none_right_eq_some.mp hnext
    obtain rfl := Option.some.inj hnext
    exact ⟨rfl, fun _ _ => Iff.rfl⟩
  | restore host_id =>
    obtain rfl := Option.some.inj hnext
    rw [restore_state, restore_leases, if_neg (show other ≠ host_id from hother)]
    exact ⟨rfl, fun _ _ => Iff.rfl⟩

theorem reachable_barrierInv [DecidableEq Holder] {ok : Barrier Holder → Label Holder → Prop}
    (h : (barrier_machine Holder).ReachableWhen ok barrier) : BarrierInv barrier := by
  apply h.invariant
  · intro _ hinit
    rw [hinit]
    exact barrierInv_empty
  · intro _ _ _ hinv _ hnext
    exact hinv.step hnext

/-- A host that was retired and then found idle has no lease until it is restored. -/
theorem retired_idle_unheld [DecidableEq Holder] {retiring waiting idle after : Barrier Holder}
    (h : (barrier_machine Holder).Reachable barrier)
    (hretire : (barrier_machine Holder).next barrier (.retire host_id) = some retiring)
    (hrun : (barrier_machine Holder).StepsWhen (fun _ label => label ≠ .restore host_id) retiring waiting)
    (hidle : (barrier_machine Holder).next waiting (.wait_idle host_id) = some idle)
    (hafter : (barrier_machine Holder).StepsWhen (fun _ label => label ≠ .restore host_id) idle after) :
    after.unheld host_id := by
  have hretired : retiring.retired host_id = true := by
    obtain rfl := Option.some.inj hretire
    show ((barrier.retire host_id).state host_id).retired = true
    rw [retire_state, if_pos rfl]
  have hwaiting : waiting.retired host_id = true := by
    apply hrun.preserves _ hretired
    intro _ _ _ hretired hlabel hnext
    exact retired_step hnext hlabel hretired
  have hreach : (barrier_machine Holder).Reachable waiting :=
    (hrun.mono fun _ _ _ => trivial).reachable (h.step trivial hretire)
  obtain ⟨hunheld, hidle⟩ := Option.ite_none_right_eq_some.mp hidle
  obtain rfl := Option.some.inj hidle
  have hboth : after.retired host_id = true ∧ after.unheld host_id := by
    apply hafter.preserves _ ⟨hwaiting, (reachable_barrierInv hreach).unheld_of_idle hunheld⟩
    intro _ _ _ ⟨hretired, hunheld⟩ hlabel hnext
    exact ⟨retired_step hnext hlabel hretired, unheld_step hnext hretired hunheld⟩
  exact hboth.2

end HostOperation
