import Mathlib.Logic.Function.Basic

/-! # Labelled machines

    A labelled machine is a set of initial states together with a partial
    step function.  The label of a step carries every choice the system
    does not make itself (which party moves, what the environment answers),
    so that one label determines one successor and a concrete trace can be
    replayed by evaluation.

    This file defines:
    - `Machine`: initial states and a partial step function
    - `Machine.ReachableWhen`: the states of the runs whose steps all meet
      a side condition; `Machine.Reachable` is the case of no condition
    - `Machine.StepsWhen`: finite runs between two states
    - the invariant rule, its relative form, and the run rule
    - `Machine.replay`: execution of a list of labels, each checked before it runs
-/

/-- A labelled machine with a partial, deterministic step function. -/
structure Machine (State : Type*) (Label : Type*) where
  init : State → Prop
  next : State → Label → Option State

namespace Machine

variable {State : Type*} {Label : Type*} (m : Machine State Label)

/-! ### Reachability -/

/-- The states of the runs whose steps all meet `ok`. -/
inductive ReachableWhen (ok : State → Label → Prop) : State → Prop where
  | init {s : State} : m.init s → ReachableWhen ok s
  | step {s s' : State} {l : Label} :
      ReachableWhen ok s → ok s l → m.next s l = some s' → ReachableWhen ok s'

/-- The states of all runs. -/
abbrev Reachable : State → Prop := m.ReachableWhen fun _ _ => True

variable {m} {ok ok' : State → Label → Prop}

/-- A run that meets a condition meets every weaker one. -/
theorem ReachableWhen.mono (h : ∀ s l, ok s l → ok' s l) {s : State}
    (hs : m.ReachableWhen ok s) : m.ReachableWhen ok' s := by
  induction hs with
  | init hi => exact .init hi
  | step _ hok hnext ih => exact .step ih (h _ _ hok) hnext

theorem ReachableWhen.reachable {s : State} (hs : m.ReachableWhen ok s) : m.Reachable s :=
  hs.mono fun _ _ _ => trivial

/-- **Invariant rule**: what holds initially and is preserved by every
    step that meets `ok` holds in every state of such a run. -/
theorem ReachableWhen.invariant {Inv : State → Prop}
    (hinit : ∀ s, m.init s → Inv s)
    (hstep : ∀ s l s', Inv s → ok s l → m.next s l = some s' → Inv s')
    {s : State} (hs : m.ReachableWhen ok s) : Inv s := by
  induction hs with
  | init hi => exact hinit _ hi
  | step _ hok hnext ih => exact hstep _ _ _ ih hok hnext

/-! ### Finite runs -/

variable (m) in
/-- A finite run from one state to another, all of whose steps meet `ok`. -/
inductive StepsWhen (ok : State → Label → Prop) : State → State → Prop where
  | refl (s : State) : StepsWhen ok s s
  | step {s s' s'' : State} {l : Label} :
      StepsWhen ok s s' → ok s' l → m.next s' l = some s'' → StepsWhen ok s s''

theorem StepsWhen.reachable {s s' : State} (hs : m.ReachableWhen ok s)
    (hrun : m.StepsWhen ok s s') : m.ReachableWhen ok s' := by
  induction hrun with
  | refl => exact hs
  | step _ hok hnext ih => exact .step ih hok hnext

theorem StepsWhen.mono (h : ∀ s l, ok s l → ok' s l) {s s' : State}
    (hrun : m.StepsWhen ok s s') : m.StepsWhen ok' s s' := by
  induction hrun with
  | refl => exact .refl s
  | step _ hok hnext ih => exact .step ih (h _ _ hok) hnext

/-- **Run rule**: a property preserved by every step that meets `ok` holds
    at the end of a run that starts in it. -/
theorem StepsWhen.preserves {P : State → Prop}
    (hstep : ∀ s l s', P s → ok s l → m.next s l = some s' → P s')
    {s s' : State} (hrun : m.StepsWhen ok s s') (hP : P s) : P s' := by
  induction hrun with
  | refl => exact hP
  | step _ hok hnext ih => exact hstep _ _ _ ih hok hnext

/-- **Relative run rule**: the step lemma may use that the states of the run
    are reachable, under a condition that the run's own condition implies. -/
theorem StepsWhen.preserves_reachable {P : State → Prop} {okRun : State → Label → Prop}
    (himp : ∀ s l, okRun s l → ok s l)
    (hstep : ∀ s l s', m.ReachableWhen ok s → P s → okRun s l → m.next s l = some s' → P s')
    {s s' : State} (hs : m.ReachableWhen ok s) (hrun : m.StepsWhen okRun s s') (hP : P s) :
    P s' := by
  induction hrun with
  | refl => exact hP
  | step hpre hok hnext ih =>
    exact hstep _ _ _ ((hpre.mono himp).reachable hs) ih hok hnext

/-- A run after another one. -/
theorem StepsWhen.trans {s s' s'' : State} (hrun : m.StepsWhen ok s s')
    (hmore : m.StepsWhen ok s' s'') : m.StepsWhen ok s s'' := by
  induction hmore with
  | refl => exact hrun
  | step _ hok hnext ih => exact .step ih hok hnext

/-! ### Replay -/

variable (m) in
/-- Execute a list of labels in order; `none` if one of them is disabled or
    fails `check`. -/
def replay (check : State → Label → Bool) : State → List Label → Option State
  | s, [] => some s
  | s, l :: ls => if check s l then (m.next s l).bind fun s' => replay check s' ls else none

/-- A replayed trace is a run, with a condition that its checks imply. -/
theorem replay_steps {check : State → Label → Bool}
    (hcheck : ∀ s l, check s l = true → ok s l) {s s' : State} {ls : List Label}
    (h : m.replay check s ls = some s') : m.StepsWhen ok s s' := by
  induction ls generalizing s with
  | nil =>
    rw [replay, Option.some.injEq] at h
    exact h ▸ .refl s
  | cons l ls ih =>
    rw [replay, Option.ite_none_right_eq_some] at h
    obtain ⟨t, ht, hrest⟩ := Option.bind_eq_some_iff.mp h.2
    exact (StepsWhen.step (.refl s) (hcheck _ _ h.1) ht).trans (ih hrest)

/-- A boolean observation of the end of a replayed trace holds at the end of some run. -/
theorem steps_of_replay (check : State → Label → Bool)
    (hcheck : ∀ s l, check s l = true → ok s l) (s : State) (ls : List Label)
    (p : State → Bool) (h : (m.replay check s ls).any p = true) :
    ∃ s', m.StepsWhen ok s s' ∧ p s' = true := by
  obtain ⟨s', hs', hp⟩ := (Option.any_eq_true _ _).mp h
  exact ⟨s', replay_steps hcheck hs', hp⟩

/-- A boolean observation of the end of a replayed trace holds in some
    reachable state. -/
theorem reachable_of_replay (check : State → Label → Bool)
    (hcheck : ∀ s l, check s l = true → ok s l) {s : State} (hs : m.init s) (ls : List Label)
    (p : State → Bool) (h : (m.replay check s ls).any p = true) :
    ∃ s', m.ReachableWhen ok s' ∧ p s' = true := by
  have hrun : ∃ s', m.StepsWhen ok s s' ∧ p s' = true := steps_of_replay check hcheck s ls p h
  obtain ⟨s', hs', hp⟩ := hrun
  exact ⟨s', hs'.reachable (.init hs), hp⟩

end Machine
