import Mathlib.Data.List.Basic

/-! # Broadcast channels

    A bounded broadcast channel, as one of its receivers sees it.  The state
    of a receiver is the list of the values sent since it subscribed that it
    has not taken; the channel retains the last `capacity` of them.  A
    receiver that has fallen further behind is told how many values it has
    missed and goes on with the oldest retained one.
-/

namespace Broadcast

variable {α : Type*} {capacity : Nat}

/-- What a receiver gets. -/
inductive Received (α : Type*) where
  | item (value : α)
  | lagged (missed : Nat)
  deriving DecidableEq

/-- Receive a value: the answer and the values that are left, or `none` where
    a receiver would wait. -/
def recv (capacity : Nat) (queue : List α) : Option (Received α × List α) :=
  if queue.length > capacity then
    some (.lagged (queue.length - capacity), queue.drop (queue.length - capacity))
  else
    match queue with
    | [] => none
    | value :: rest => some (.item value, rest)

/-- What receiving does to the queue. -/
theorem recv_cases {queue rest : List α} {received : Received α}
    (h : recv capacity queue = some (received, rest)) :
    (∃ value, received = .item value ∧ queue = value :: rest) ∨
      (∃ missed, received = .lagged missed ∧ rest <:+ queue) := by
  unfold recv at h
  split at h
  case isTrue =>
    simp only [Option.some.injEq, Prod.mk.injEq] at h
    obtain ⟨rfl, rfl⟩ := h
    exact .inr ⟨_, rfl, List.drop_suffix _ _⟩
  case isFalse =>
    cases queue with
    | nil => simp at h
    | cons value tail =>
      simp only [Option.some.injEq, Prod.mk.injEq] at h
      obtain ⟨rfl, rfl⟩ := h
      exact .inl ⟨value, rfl, rfl⟩

end Broadcast
