import Mathlib.Data.Fintype.Basic
import RemoteDeck.Lib.Machine
import RemoteDeck.Lib.Notify

/-! # One-shot completion latches

    Three places of the core announce one event to any number of tasks with
    an atomic flag and a `Notify`:

    - `TransferControl` (`mark_finished`, `wait_finished`) in `sftp.rs`,
    - `MonitorCompletion` (`mark_finished`, `wait`) in `telemetry.rs`,
    - `ChildCancellation` (`cancel`, `wait`) in `ssh.rs`.

    The announcing side sets the flag, then calls `notify_waiters`, then
    `notify_one`.  A waiter of the first two reads the flag, creates the
    wait future and polls it; a waiter of the third reads the flag a second
    time between creating the future and polling it.

    Every atomic step is a label, so a run is an interleaving of one
    announcing task with the waiters `W`.
-/

namespace Latch

/-! ### The three latches -/

inductive Kind where
  | transfer_control
  | monitor_completion
  | child_cancellation
  deriving DecidableEq, Repr

/-- The announcing task: the next call it makes. -/
inductive FinisherPc where
  | before
  | flagged
  | waiters_notified
  | done
  deriving DecidableEq, Repr

/-- A waiting task: the next thing it does.  `parked` is a task suspended on
    a registered future. -/
inductive WaiterPc where
  | test
  | create
  | recheck
  | poll
  | parked
  | returned
  deriving DecidableEq, Repr

structure State (W : Type*) where
  flag : Bool
  notify : Notify W
  finisher : FinisherPc
  waiter : W → WaiterPc

inductive Label (W : Type*) where
  /-- The announcing task stores (or swaps in) the flag. -/
  | mark
  | notify_waiters
  | notify_one
  /-- The waiter reads the flag in its loop condition. -/
  | test (w : W)
  /-- The waiter creates its wait future. -/
  | create (w : W)
  /-- The waiter reads the flag again after creating the future. -/
  | recheck (w : W)
  /-- The waiter polls its future, for the first time or after a wake-up. -/
  | poll (w : W)
  deriving DecidableEq, Repr

/-- What follows setting the flag: `TransferControl` swaps and leaves the
    notification to whoever set it first, the others store and notify. -/
def Kind.after_mark : Kind → Bool → FinisherPc
  | .transfer_control, true => .done
  | .transfer_control, false => .flagged
  | .monitor_completion, _ => .flagged
  | .child_cancellation, _ => .flagged

/-- What a waiter does once its future exists. -/
def Kind.after_create : Kind → WaiterPc
  | .transfer_control => .poll
  | .monitor_completion => .poll
  | .child_cancellation => .recheck

def State.set_waiter {W : Type*} [DecidableEq W] (s : State W) (w : W) (pc : WaiterPc) :
    State W :=
  { s with waiter := Function.update s.waiter w pc }

/-- One atomic step of the announcing task or of a waiter. -/
def next {W : Type*} [DecidableEq W] (kind : Kind) (s : State W) : Label W → Option (State W)
  | .mark =>
      if s.finisher = .before then
        some { s with flag := true, finisher := kind.after_mark s.flag }
      else none
  | .notify_waiters =>
      if s.finisher = .flagged then
        some { s with notify := s.notify.notify_waiters, finisher := .waiters_notified }
      else none
  | .notify_one =>
      if s.finisher = .waiters_notified then
        some { s with notify := s.notify.notify_one, finisher := .done }
      else none
  | .test w =>
      if s.waiter w = .test then
        some (s.set_waiter w (if s.flag then .returned else .create))
      else none
  | .create w =>
      if s.waiter w = .create then
        some ({ s with notify := s.notify.notified w }.set_waiter w kind.after_create)
      else none
  | .recheck w =>
      if s.waiter w = .recheck then
        -- returning drops the future that was created and not polled
        if s.flag then some ({ s with notify := s.notify.discard w }.set_waiter w .returned)
        else some (s.set_waiter w .poll)
      else none
  | .poll w =>
      if s.waiter w = .poll ∨ (s.waiter w = .parked ∧ s.notify.future w = .woken) then
        let polled := s.notify.poll w
        some ({ s with notify := polled.1 }.set_waiter w (if polled.2 then .test else .parked))
      else none

/-- The latch before its event: nobody has started to wait. -/
def initialState (W : Type*) : State W where
  flag := false
  notify := .empty
  finisher := .before
  waiter := fun _ => .test

/-- The latch as a machine. -/
def latch (kind : Kind) (W : Type*) [DecidableEq W] : Machine (State W) (Label W) where
  init := fun s => s = initialState W
  next := next kind

/-- The flag is set, the announcing task is through, and some waiter is
    suspended with nothing left that would wake it. -/
def LostWakeup {W : Type*} (s : State W) : Prop :=
  s.flag = true ∧ s.finisher = .done ∧
    ∃ w, s.waiter w = .parked ∧ s.notify.future w ≠ .woken

/-- When `notify_waiters` runs, at most one waiter is between its test of the
    flag and the creation of its future. -/
def AtMostOneInGap {W : Type*} (s : State W) (l : Label W) : Prop :=
  l = .notify_waiters → ∀ w w', s.waiter w = .create → s.waiter w' = .create → w = w'

instance {W : Type*} [DecidableEq W] [Fintype W] (s : State W) (l : Label W) :
    Decidable (AtMostOneInGap s l) :=
  inferInstanceAs (Decidable (_ → _))

variable {W : Type*} [DecidableEq W]

@[simp] theorem set_waiter_waiter (s : State W) (w v : W) (pc : WaiterPc) :
    (s.set_waiter w pc).waiter v = if v = w then pc else s.waiter v := by
  simp [State.set_waiter, Function.update_apply]

@[simp] theorem set_waiter_notify (s : State W) (w : W) (pc : WaiterPc) :
    (s.set_waiter w pc).notify = s.notify := rfl

@[simp] theorem set_waiter_finisher (s : State W) (w : W) (pc : WaiterPc) :
    (s.set_waiter w pc).finisher = s.finisher := rfl

/-! ### Bookkeeping shared by the three latches -/

/-- How the program counters and the notification cell fit together. -/
structure Bookkeeping (s : State W) : Prop where
  wellFormed : s.notify.WellFormed
  flag_iff : s.flag = true ↔ s.finisher ≠ .before
  waiting_parked : ∀ w, s.notify.future w = .waiting → s.waiter w = .parked
  parked_future : ∀ w, s.waiter w = .parked →
    s.notify.future w = .waiting ∨ s.notify.future w = .woken
  poll_future : ∀ w, s.waiter w = .poll →
    s.notify.future w = .created ∨ s.notify.future w = .woken
  recheck_future : ∀ w, s.waiter w = .recheck →
    s.notify.future w = .created ∨ s.notify.future w = .woken

omit [DecidableEq W] in
theorem bookkeeping_init : Bookkeeping (initialState W) where
  wellFormed := Notify.empty_wellFormed
  flag_iff := by simp [initialState]
  waiting_parked := fun w h => by simp [initialState, Notify.empty] at h
  parked_future := fun w h => by simp [initialState] at h
  poll_future := fun w h => by simp [initialState] at h
  recheck_future := fun w h => by simp [initialState] at h

theorem after_mark_ne_before (kind : Kind) (flag : Bool) : kind.after_mark flag ≠ .before := by
  cases kind <;> cases flag <;> decide

theorem bookkeeping_step {kind : Kind} {s s' : State W} {l : Label W} (hs : Bookkeeping s)
    (hstep : next kind s l = some s') : Bookkeeping s' := by
  obtain ⟨hwf, hflag, hwait, hpark, hpoll, hre⟩ := hs
  match l with
  | .mark =>
    simp only [next, Option.ite_none_right_eq_some, Option.some.injEq] at hstep
    obtain ⟨_, rfl⟩ := hstep
    exact ⟨hwf, by simp [after_mark_ne_before], hwait, hpark, hpoll, hre⟩
  | .notify_waiters =>
    simp only [next, Option.ite_none_right_eq_some, Option.some.injEq] at hstep
    obtain ⟨hpc, rfl⟩ := hstep
    refine ⟨Notify.notify_waiters_wellFormed _, by simp_all, ?_, ?_, ?_, ?_⟩
    all_goals
      intro w h
      simp only [Notify.notify_waiters_future] at *
      grind
  | .notify_one =>
    simp only [next, Option.ite_none_right_eq_some, Option.some.injEq] at hstep
    obtain ⟨hpc, rfl⟩ := hstep
    have hwf' := Notify.notify_one_wellFormed hwf
    cases hq : s.notify.queue with
    | nil =>
      rw [Notify.notify_one_nil hq] at *
      exact ⟨hwf', by simp_all, hwait, hpark, hpoll, hre⟩
    | cons v rest =>
      have hv : s.notify.future v = .waiting := (hwf.queued v).mp (by simp [hq])
      rw [Notify.notify_one_cons hq] at *
      refine ⟨hwf', by simp_all, ?_, ?_, ?_, ?_⟩
      all_goals
        intro w h
        simp only [Function.update_apply] at *
        grind
  | .test w =>
    simp only [next, Option.ite_none_right_eq_some, Option.some.injEq] at hstep
    obtain ⟨hpc, rfl⟩ := hstep
    refine ⟨hwf, hflag, ?_, ?_, ?_, ?_⟩
    all_goals
      intro v h
      simp only [set_waiter_waiter, set_waiter_notify] at *
      grind
  | .create w =>
    simp only [next, Option.ite_none_right_eq_some, Option.some.injEq] at hstep
    obtain ⟨hpc, rfl⟩ := hstep
    have hw : s.notify.future w ≠ .waiting := fun h => by simp [hwait w h] at hpc
    refine ⟨Notify.notified_wellFormed hwf hw, hflag, ?_, ?_, ?_, ?_⟩
    all_goals
      intro v h
      simp only [set_waiter_waiter, set_waiter_notify, Notify.notified_future] at *
      cases kind <;> grind [Kind.after_create]
  | .recheck w =>
    simp only [next, Option.ite_none_right_eq_some] at hstep
    obtain ⟨hpc, hstep⟩ := hstep
    have hw : s.notify.future w ≠ .waiting := fun h => by simp [hwait w h] at hpc
    split at hstep <;> cases hstep
    · refine ⟨Notify.discard_wellFormed hwf hw, hflag, ?_, ?_, ?_, ?_⟩
      all_goals
        intro v h
        simp only [set_waiter_waiter, set_waiter_notify, Notify.discard_future] at *
        grind
    · refine ⟨hwf, hflag, ?_, ?_, ?_, ?_⟩
      all_goals
        intro v h
        simp only [set_waiter_waiter, set_waiter_notify] at *
        grind
  | .poll w =>
    simp only [next, Option.ite_none_right_eq_some, Option.some.injEq] at hstep
    obtain ⟨hpc, rfl⟩ := hstep
    have hwf' := Notify.poll_wellFormed hwf w
    have hw : s.notify.future w = .created ∨ s.notify.future w = .woken := by grind
    rcases hw with hw | hw
    · cases hp : s.notify.permit with
      | true =>
        rw [Notify.poll_created_permit hw hp] at *
        refine ⟨hwf', hflag, ?_, ?_, ?_, ?_⟩
        all_goals
          intro v h
          simp only [set_waiter_waiter, set_waiter_notify, Function.update_apply] at *
          grind
      | false =>
        rw [Notify.poll_created_register hw hp] at *
        refine ⟨hwf', hflag, ?_, ?_, ?_, ?_⟩
        all_goals
          intro v h
          simp only [set_waiter_waiter, set_waiter_notify, Function.update_apply] at *
          grind
    · rw [Notify.poll_woken hw] at *
      refine ⟨hwf', hflag, ?_, ?_, ?_, ?_⟩
      all_goals
        intro v h
        simp only [set_waiter_waiter, set_waiter_notify, Function.update_apply] at *
        grind

/-! ### At most one waiter in the gap: no wake-up is lost -/

/-- A waiter that has not been woken and still counts on a notification. -/
def Late (s : State W) (w : W) : Prop :=
  s.waiter w = .create ∨ s.notify.future w = .created ∨ s.notify.future w = .waiting

/-- Once `notify_waiters` has run at most one waiter is late, and the permit
    that `notify_one` leaves behind is there for exactly that one. -/
structure OneShotInv (s : State W) : Prop where
  book : Bookkeeping s
  permit_done : s.notify.permit = true → s.finisher = .done
  late_unique : s.finisher = .waiters_notified ∨ s.finisher = .done →
    ∀ w w', Late s w → Late s w' → w = w'
  permit_unclaimed : s.notify.permit = true → ∀ w, s.notify.future w ≠ .waiting
  settled : s.finisher = .done → s.notify.permit = false → ∀ w, ¬ Late s w

omit [DecidableEq W] in
theorem oneShotInv_init : OneShotInv (initialState W) where
  book := bookkeeping_init
  permit_done := by simp [initialState, Notify.empty]
  late_unique := by simp [initialState]
  permit_unclaimed := by simp [initialState, Notify.empty]
  settled := by simp [initialState]

theorem oneShotInv_step {kind : Kind} {s s' : State W} {l : Label W} (hs : OneShotInv s)
    (hgap : AtMostOneInGap s l) (hstep : next kind s l = some s') : OneShotInv s' := by
  have hbook := bookkeeping_step hs.book hstep
  obtain ⟨⟨hwf, hflag, hwait, hpark, hpoll, hre⟩, hperm, hlate, hunclaimed, hsettled⟩ := hs
  match l with
  | .mark =>
    simp only [next, Option.ite_none_right_eq_some, Option.some.injEq] at hstep
    obtain ⟨hpc, rfl⟩ := hstep
    have hf : s.flag = false := by simpa [hpc] using hflag
    have hnew : kind.after_mark s.flag = .flagged := by rw [hf]; cases kind <;> rfl
    refine ⟨hbook, fun h => ?_, ?_, hunclaimed, ?_⟩
    · simp [hpc] at hperm
      simp [hperm] at h
    · simp [hnew]
    · simp [hnew]
  | .notify_waiters =>
    simp only [next, Option.ite_none_right_eq_some, Option.some.injEq] at hstep
    obtain ⟨hpc, rfl⟩ := hstep
    -- created and registered futures are woken, so only the gap is late now
    have honly : ∀ w,
        Late { s with notify := s.notify.notify_waiters, finisher := .waiters_notified } w →
          s.waiter w = .create := by
      intro w h
      simp only [Late, Notify.notify_waiters_future] at h
      grind
    refine ⟨hbook, fun h => ?_, ?_, fun h => ?_, by simp⟩
    · have := hperm h
      simp [hpc] at this
    · intro _ w w' h h'
      exact hgap rfl w w' (honly w h) (honly w' h')
    · have := hperm h
      simp [hpc] at this
  | .notify_one =>
    simp only [next, Option.ite_none_right_eq_some, Option.some.injEq] at hstep
    obtain ⟨hpc, rfl⟩ := hstep
    have hold := hlate (.inl hpc)
    cases hq : s.notify.queue with
    | nil =>
      rw [Notify.notify_one_nil hq] at *
      refine ⟨hbook, by simp, fun _ => hold, fun _ w h => ?_, by simp⟩
      simpa [hq] using (hwf.queued w).mpr h
    | cons v rest =>
      have hv : s.notify.future v = .waiting := (hwf.queued v).mp (by simp [hq])
      have hnp : s.notify.permit = false := by
        by_contra h
        simpa [hpc] using hperm (by simpa using h)
      -- the late waiter was registered: it is the one that `notify_one` wakes
      let woken : Notify W :=
        { s.notify with queue := rest, future := Function.update s.notify.future v .woken }
      have hnone : ∀ w, ¬ Late { s with notify := woken, finisher := .done } w := by
        intro w h
        have hwv : w = v := by
          refine hold w v ?_ (.inr (.inr hv))
          simp only [Late, woken, Function.update_apply] at h ⊢
          grind
        have hcreate := hwait v hv
        simp only [Late, woken, Function.update_apply] at h
        grind
      rw [Notify.notify_one_cons hq] at *
      refine ⟨hbook, fun h => by simp, fun _ w _ h => (hnone w h).elim, ?_, ?_⟩
      · simp [hnp]
      · exact fun _ _ => hnone
  | .test w =>
    simp only [next, Option.ite_none_right_eq_some, Option.some.injEq] at hstep
    obtain ⟨hpc, rfl⟩ := hstep
    have hf : s.finisher ≠ .before → s.flag = true := hflag.mpr
    refine ⟨hbook, hperm, fun h v v' hv hv' => hlate h v v' ?_ ?_, hunclaimed,
      fun h hp v hv => hsettled h hp v ?_⟩
    all_goals
      simp only [Late, set_waiter_waiter, set_waiter_notify, set_waiter_finisher] at *
      grind
  | .create w =>
    simp only [next, Option.ite_none_right_eq_some, Option.some.injEq] at hstep
    obtain ⟨hpc, rfl⟩ := hstep
    refine ⟨hbook, hperm, fun h v v' hv hv' => hlate h v v' ?_ ?_, fun h v hv => ?_,
      fun h hp v hv => hsettled h hp v ?_⟩
    all_goals
      simp only [Late, set_waiter_waiter, set_waiter_notify, set_waiter_finisher,
        Notify.notified_future] at *
      cases kind <;> grind [Kind.after_create, Notify.notified]
  | .recheck w =>
    simp only [next, Option.ite_none_right_eq_some] at hstep
    obtain ⟨hpc, hstep⟩ := hstep
    split at hstep <;> cases hstep
    all_goals
      refine ⟨hbook, hperm, fun h v v' hv hv' => hlate h v v' ?_ ?_, fun h v hv => ?_,
        fun h hp v hv => hsettled h hp v ?_⟩
      all_goals
        simp only [Late, set_waiter_waiter, set_waiter_notify, set_waiter_finisher,
          Notify.discard_future] at *
        grind [Notify.discard]
  | .poll w =>
    simp only [next, Option.ite_none_right_eq_some, Option.some.injEq] at hstep
    obtain ⟨hpc, rfl⟩ := hstep
    have hw : s.notify.future w = .created ∨ s.notify.future w = .woken := by grind
    rcases hw with hw | hw
    · cases hp : s.notify.permit with
      | true =>
        -- the stored permit goes to `w`, which was the only late waiter
        have hdone := hperm hp
        have honly := fun v hv => hlate (.inr hdone) v w hv (.inr (.inl hw))
        rw [Notify.poll_created_permit hw hp] at *
        let taken : Notify W :=
          { s.notify with permit := false, future := Function.update s.notify.future w .absent }
        have hnone : ∀ v, ¬ Late (({ s with notify := taken } : State W).set_waiter w .test) v := by
          intro v hv
          have hvw := honly v
          simp only [Late, taken, set_waiter_waiter, set_waiter_notify,
            Function.update_apply] at *
          grind
        exact ⟨hbook, by simp, fun _ v _ hv => (hnone v hv).elim, by simp,
          fun _ _ => hnone⟩
      | false =>
        rw [Notify.poll_created_register hw hp] at *
        refine ⟨hbook, hperm, fun h v v' hv hv' => hlate h v v' ?_ ?_, by simp [hp],
          fun h _ v _ => hsettled h hp w (.inr (.inl hw))⟩
        all_goals
          simp only [Late, set_waiter_waiter, set_waiter_notify, Function.update_apply] at *
          grind
    · rw [Notify.poll_woken hw] at *
      refine ⟨hbook, hperm, fun h v v' hv hv' => hlate h v v' ?_ ?_, fun h v hv => ?_,
        fun h hp v hv => hsettled h hp v ?_⟩
      all_goals
        simp only [Late, set_waiter_waiter, set_waiter_notify, set_waiter_finisher,
          Function.update_apply] at *
        grind

omit [DecidableEq W] in
/-- In a state that satisfies the invariant nobody is parked for good. -/
theorem OneShotInv.no_lost_wakeup {s : State W} (hs : OneShotInv s) : ¬ LostWakeup s := by
  rintro ⟨_, hdone, w, hparked, hnot⟩
  have hwaiting : s.notify.future w = .waiting := (hs.book.parked_future w hparked).resolve_right hnot
  cases hp : s.notify.permit with
  | true => exact hs.permit_unclaimed hp w hwaiting
  | false => exact hs.settled hdone hp w (.inr (.inr hwaiting))

/-- Once `notify_waiters` has run, a `ChildCancellation` waiter that goes to
    sleep or is asleep holds a woken future. -/
structure RecheckInv (s : State W) : Prop where
  book : Bookkeeping s
  woken : s.finisher = .waiters_notified ∨ s.finisher = .done →
    ∀ w, s.waiter w = .poll ∨ s.waiter w = .parked → s.notify.future w = .woken

theorem recheckInv_step {s s' : State W} {l : Label W} (hs : RecheckInv s)
    (hstep : next .child_cancellation s l = some s') : RecheckInv s' := by
  have hbook := bookkeeping_step hs.book hstep
  obtain ⟨⟨hwf, hflag, hwait, hpark, hpoll, hre⟩, hwoken⟩ := hs
  match l with
  | .mark =>
    simp only [next, Option.ite_none_right_eq_some, Option.some.injEq] at hstep
    obtain ⟨hpc, rfl⟩ := hstep
    exact ⟨hbook, by simp [Kind.after_mark]⟩
  | .notify_waiters =>
    simp only [next, Option.ite_none_right_eq_some, Option.some.injEq] at hstep
    obtain ⟨hpc, rfl⟩ := hstep
    refine ⟨hbook, fun _ w hw => ?_⟩
    simp only [Notify.notify_waiters_future]
    grind
  | .notify_one =>
    simp only [next, Option.ite_none_right_eq_some, Option.some.injEq] at hstep
    obtain ⟨hpc, rfl⟩ := hstep
    have hall := hwoken (.inl hpc)
    cases hq : s.notify.queue with
    | nil =>
      rw [Notify.notify_one_nil hq] at *
      exact ⟨hbook, fun _ => hall⟩
    | cons v rest =>
      rw [Notify.notify_one_cons hq] at *
      refine ⟨hbook, fun _ w hw => ?_⟩
      simp only [Function.update_apply]
      grind
  | .test w =>
    simp only [next, Option.ite_none_right_eq_some, Option.some.injEq] at hstep
    obtain ⟨hpc, rfl⟩ := hstep
    refine ⟨hbook, fun h v hv => ?_⟩
    simp only [set_waiter_waiter, set_waiter_notify, set_waiter_finisher] at *
    grind
  | .create w =>
    simp only [next, Option.ite_none_right_eq_some, Option.some.injEq] at hstep
    obtain ⟨hpc, rfl⟩ := hstep
    refine ⟨hbook, fun h v hv => ?_⟩
    simp only [set_waiter_waiter, set_waiter_notify, set_waiter_finisher,
      Notify.notified_future] at *
    grind [Kind.after_create]
  | .recheck w =>
    simp only [next, Option.ite_none_right_eq_some] at hstep
    obtain ⟨hpc, hstep⟩ := hstep
    split at hstep <;> cases hstep
    all_goals
      refine ⟨hbook, fun h v hv => ?_⟩
      simp only [set_waiter_waiter, set_waiter_notify, set_waiter_finisher,
        Notify.discard_future] at *
      grind
  | .poll w =>
    simp only [next, Option.ite_none_right_eq_some, Option.some.injEq] at hstep
    obtain ⟨hpc, rfl⟩ := hstep
    have hw : s.notify.future w = .created ∨ s.notify.future w = .woken := by grind
    rcases hw with hw | hw
    · have hearly : s.finisher ≠ .waiters_notified ∧ s.finisher ≠ .done := by grind
      exact ⟨hbook, fun h => by simp_all⟩
    · rw [Notify.poll_woken hw] at *
      refine ⟨hbook, fun h v hv => ?_⟩
      simp only [set_waiter_waiter, set_waiter_notify, set_waiter_finisher,
        Function.update_apply] at *
      grind

/-- `ChildCancellation` loses no wake-up in any run: reading the flag again
    after creating the future closes the gap. -/
theorem child_cancellation_no_lost_wakeup {s : State W}
    (hs : (latch .child_cancellation W).Reachable s) : ¬ LostWakeup s := by
  have hinv : RecheckInv s := by
    refine hs.invariant ?_ ?_
    · rintro s rfl
      exact ⟨bookkeeping_init, by simp [initialState]⟩
    · intro s l s' hinv _ hstep
      exact recheckInv_step hinv hstep
  rintro ⟨_, hdone, w, hparked, hnot⟩
  exact hnot (hinv.woken (.inr hdone) w (.inr hparked))

/-- The event announced while a task is between the two tests of the flag. -/
theorem cancelled_child_is_told :
    ∃ s : State (Fin 2), (s.finisher = .done ∧ s.waiter 0 = .returned ∧ s.waiter 1 = .parked) ∧
      ¬ LostWakeup s := by
  obtain ⟨s, hs, hp⟩ := Machine.reachable_of_replay
    (m := latch .child_cancellation (Fin 2)) (fun _ _ => true) (fun _ _ _ => trivial) rfl
    [.test 1, .create 1, .recheck 1, .poll 1, .test 0, .create 0, .mark, .notify_waiters, .notify_one,
      .recheck 0]
    (fun s => decide (s.finisher = .done ∧ s.waiter 0 = .returned ∧ s.waiter 1 = .parked))
    (by decide)
  exact ⟨s, of_decide_eq_true hp, child_cancellation_no_lost_wakeup hs⟩

end Latch
