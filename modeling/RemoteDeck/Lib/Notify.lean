import Mathlib.Data.List.Nodup
import Mathlib.Logic.Function.Basic

/-! # One-permit notification

    A shared notification cell with at most one stored permit, a first-in
    first-out queue of registered waiters, and one wait future for each
    waiter:

    - `notified` creates the wait future.  From then on `notify_waiters`
      wakes it, even before it has been polled.
    - `poll` completes a woken future, else consumes a stored permit, else
      registers the future in the queue.
    - `notify_waiters` wakes every created or registered future and stores
      nothing.
    - `notify_one` wakes the oldest registered future; without one it stores
      the permit, of which there is at most one.
-/

/-- Where the wait future of one waiter stands. -/
inductive Future where
  /-- There is no wait future. -/
  | absent
  /-- Created and not yet polled. -/
  | created
  /-- Polled once and registered in the queue. -/
  | waiting
  /-- Woken: the next poll completes it. -/
  | woken
  deriving DecidableEq, Repr

/-- A notification cell for the waiters `W`. -/
structure Notify (W : Type*) where
  permit : Bool
  queue : List W
  future : W → Future

namespace Notify

variable {W : Type*}

/-- The cell before anyone used it. -/
def empty : Notify W where
  permit := false
  queue := []
  future := fun _ => .absent

/-- `notify_waiters`: wake every future that exists. -/
def notify_waiters (n : Notify W) : Notify W :=
  { n with
    queue := []
    future := fun w =>
      match n.future w with
      | .created | .waiting => .woken
      | f => f }

variable [DecidableEq W]

/-- `notified`: create the wait future of `w`. -/
def notified (n : Notify W) (w : W) : Notify W :=
  { n with future := Function.update n.future w .created }

/-- Drop the wait future of `w`, which was never polled. -/
def discard (n : Notify W) (w : W) : Notify W :=
  { n with future := Function.update n.future w .absent }

/-- Poll the wait future of `w`; the flag says that it completed. -/
def poll (n : Notify W) (w : W) : Notify W × Bool :=
  match n.future w with
  | .woken => ({ n with future := Function.update n.future w .absent }, true)
  | .created =>
      if n.permit then
        ({ n with permit := false, future := Function.update n.future w .absent }, true)
      else
        ({ n with
           queue := n.queue ++ [w]
           future := Function.update n.future w .waiting }, false)
  | .waiting | .absent => (n, false)

/-- `notify_one`: wake the oldest registered future or store the permit. -/
def notify_one (n : Notify W) : Notify W :=
  match n.queue with
  | [] => { n with permit := true }
  | w :: rest => { n with queue := rest, future := Function.update n.future w .woken }

@[simp] theorem notified_future (n : Notify W) (w v : W) :
    (n.notified w).future v = if v = w then .created else n.future v := by
  simp [notified, Function.update_apply]

@[simp] theorem discard_future (n : Notify W) (w v : W) :
    (n.discard w).future v = if v = w then .absent else n.future v := by
  simp [discard, Function.update_apply]

omit [DecidableEq W] in
@[simp] theorem notify_waiters_future (n : Notify W) (w : W) :
    n.notify_waiters.future w =
      if n.future w = .created ∨ n.future w = .waiting then .woken else n.future w := by
  cases h : n.future w <;> simp [notify_waiters, h]

theorem poll_woken {n : Notify W} {w : W} (h : n.future w = .woken) :
    n.poll w = ({ n with future := Function.update n.future w .absent }, true) := by
  simp [poll, h]

theorem poll_created_permit {n : Notify W} {w : W} (h : n.future w = .created)
    (hp : n.permit = true) :
    n.poll w = ({ n with permit := false, future := Function.update n.future w .absent }, true) := by
  simp [poll, h, hp]

theorem poll_created_register {n : Notify W} {w : W} (h : n.future w = .created)
    (hp : n.permit = false) :
    n.poll w = ({ n with queue := n.queue ++ [w],
                         future := Function.update n.future w .waiting }, false) := by
  simp [poll, h, hp]

theorem notify_one_nil {n : Notify W} (h : n.queue = []) :
    n.notify_one = { n with permit := true } := by
  simp [notify_one, h]

theorem notify_one_cons {n : Notify W} {w : W} {rest : List W} (h : n.queue = w :: rest) :
    n.notify_one = { n with queue := rest, future := Function.update n.future w .woken } := by
  simp [notify_one, h]

/-- The queue holds exactly the registered futures, each once. -/
structure WellFormed (n : Notify W) : Prop where
  nodup : n.queue.Nodup
  queued : ∀ w, w ∈ n.queue ↔ n.future w = .waiting

omit [DecidableEq W] in
theorem empty_wellFormed : (empty : Notify W).WellFormed where
  nodup := List.nodup_nil
  queued := fun w => by simp [empty]

omit [DecidableEq W] in
theorem notify_waiters_wellFormed (n : Notify W) : n.notify_waiters.WellFormed where
  nodup := List.nodup_nil
  queued := fun w => by cases h : n.future w <;> simp [notify_waiters, h]

theorem notified_wellFormed {n : Notify W} (hn : n.WellFormed) {w : W}
    (hw : n.future w ≠ .waiting) : (n.notified w).WellFormed where
  nodup := hn.nodup
  queued := fun v => by
    by_cases hv : v = w
    · subst hv
      simp [notified, hn.queued, hw]
    · simp [notified, hn.queued, hv]

theorem discard_wellFormed {n : Notify W} (hn : n.WellFormed) {w : W}
    (hw : n.future w ≠ .waiting) : (n.discard w).WellFormed where
  nodup := hn.nodup
  queued := fun v => by
    by_cases hv : v = w
    · subst hv
      simp [discard, hn.queued, hw]
    · simp [discard, hn.queued, hv]

theorem poll_wellFormed {n : Notify W} (hn : n.WellFormed) (w : W) :
    (n.poll w).1.WellFormed := by
  cases h : n.future w with
  | absent => simpa [poll, h] using hn
  | waiting => simpa [poll, h] using hn
  | woken =>
    simp only [poll, h]
    refine ⟨hn.nodup, fun v => ?_⟩
    by_cases hv : v = w
    · subst hv; simp [hn.queued, h]
    · simp [hn.queued, hv]
  | created =>
    have hw : w ∉ n.queue := fun hmem => by simp [(hn.queued w).mp hmem] at h
    simp only [poll, h]
    split
    · refine ⟨hn.nodup, fun v => ?_⟩
      by_cases hv : v = w
      · subst hv; simp [hw]
      · simp [hn.queued, hv]
    · have hnd : (n.queue ++ [w]).Nodup := List.nodup_append.mpr
        ⟨hn.nodup, by simp, fun a ha b hb hab => hw (by simp_all)⟩
      refine ⟨hnd, fun v => ?_⟩
      by_cases hv : v = w
      · subst hv; simp
      · simp [hn.queued, hv]

theorem notify_one_wellFormed {n : Notify W} (hn : n.WellFormed) :
    n.notify_one.WellFormed := by
  cases hq : n.queue with
  | nil =>
    simp only [notify_one, hq]
    exact ⟨hq ▸ hn.nodup, fun v => hq ▸ hn.queued v⟩
  | cons w rest =>
    have hnd := hq ▸ hn.nodup
    simp only [notify_one, hq]
    refine ⟨(List.nodup_cons.mp hnd).2, fun v => ?_⟩
    by_cases hv : v = w
    · subst hv; simp [(List.nodup_cons.mp hnd).1]
    · have := hn.queued v
      simp only [hq, List.mem_cons, hv, false_or] at this
      simp [hv, this]

end Notify
