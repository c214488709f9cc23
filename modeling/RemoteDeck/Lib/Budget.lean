import Mathlib.Algebra.GroupWithZero.Nat
import Mathlib.Data.List.Destutter

/-! # Rings with a budget

    A ring keeps the last values of a history: not more than so many of
    them, and not more than so much weight.

    This file defines:
    - `Budget`, and `Budget.Fits`: the histories that need not be cut
    - `Budget.recent`: the longest end of a history that fits

    What a ring has dropped would not fit again (`recent_concat`), so the
    ring after a run is computed from the whole history.  The file also says
    what one more value does to a history without repetitions.
-/

/-- How many values may be kept, and how much they may weigh together. -/
structure Budget (α : Type*) where
  entries : Nat
  weight : α → Nat
  capacity : Nat

namespace Budget

variable {α : Type*} (budget : Budget α) {value : α} {history later : List α}

/-- The weight of a history. -/
def total (history : List α) : Nat := (history.map budget.weight).sum

@[simp] theorem total_nil : budget.total [] = 0 := rfl

@[simp] theorem total_cons (value : α) (history : List α) :
    budget.total (value :: history) = budget.weight value + budget.total history := by
  simp [total]

@[simp] theorem total_append (history later : List α) :
    budget.total (history ++ later) = budget.total history + budget.total later := by
  simp [total]

def Fits (history : List α) : Prop :=
  history.length ≤ budget.entries ∧ budget.total history ≤ budget.capacity

instance : DecidablePred budget.Fits := fun _ => inferInstanceAs (Decidable (_ ∧ _))

variable {budget}

theorem fits_nil : budget.Fits [] := ⟨Nat.zero_le _, Nat.zero_le _⟩

/-- A part of a history that fits does. -/
theorem Fits.left (h : budget.Fits (history ++ later)) : budget.Fits history := by
  obtain ⟨hentries, hcapacity⟩ := h
  rw [List.length_append] at hentries
  rw [total_append] at hcapacity
  constructor <;> omega

theorem Fits.right (h : budget.Fits (history ++ later)) : budget.Fits later := by
  obtain ⟨hentries, hcapacity⟩ := h
  rw [List.length_append] at hentries
  rw [total_append] at hcapacity
  constructor <;> omega

/-! ### The end that fits -/

variable (budget) in
/-- The longest end of a history that fits. -/
def recent : List α → List α
  | [] => []
  | value :: history => if budget.Fits (value :: history) then value :: history else recent history

theorem recent_of_fits (h : budget.Fits history) : budget.recent history = history := by
  cases history with
  | nil => rfl
  | cons value history => exact if_pos h

theorem recent_cons_of_not_fits (h : ¬ budget.Fits (value :: history)) :
    budget.recent (value :: history) = budget.recent history := if_neg h

theorem recent_fits (history : List α) : budget.Fits (budget.recent history) := by
  induction history with
  | nil => exact fits_nil
  | cons value history ih =>
    by_cases hfits : budget.Fits (value :: history)
    · rw [recent_of_fits hfits]
      exact hfits
    · rw [recent_cons_of_not_fits hfits]
      exact ih

theorem recent_suffix (history : List α) : budget.recent history <:+ history := by
  induction history with
  | nil => exact List.suffix_rfl
  | cons value history ih =>
    by_cases hfits : budget.Fits (value :: history)
    · exact (recent_of_fits hfits).symm ▸ List.suffix_rfl
    · rw [recent_cons_of_not_fits hfits]
      exact ih.trans (List.suffix_cons value history)

/-- No longer end of the history fits. -/
theorem suffix_recent {kept : List α} (h : kept <:+ history) (hfits : budget.Fits kept) :
    kept <:+ budget.recent history := by
  induction history with
  | nil => exact h
  | cons value history ih =>
    by_cases hall : budget.Fits (value :: history)
    · rw [recent_of_fits hall]
      exact h
    · rw [recent_cons_of_not_fits hall]
      rcases List.suffix_cons_iff.mp h with rfl | hrest
      · exact absurd hfits hall
      · exact ih hrest

/-- **A ring forgets for good**: what was cut from a history is not missed when
    values are added to it. -/
theorem recent_append (history later : List α) :
    budget.recent (budget.recent history ++ later) = budget.recent (history ++ later) := by
  induction history with
  | nil => rfl
  | cons value history ih =>
    by_cases hfits : budget.Fits (value :: history)
    · rw [recent_of_fits hfits]
    · have hlonger : ¬ budget.Fits (value :: (history ++ later)) := by
        intro h
        rw [← List.cons_append] at h
        exact hfits h.left
      rw [recent_cons_of_not_fits hfits, ih, List.cons_append, recent_cons_of_not_fits hlonger]

/-- The last value is kept if it fits alone. -/
theorem getLast?_recent (h : ∀ value ∈ history, budget.Fits [value]) :
    (budget.recent history).getLast? = history.getLast? := by
  induction history with
  | nil => rfl
  | cons value history ih =>
    by_cases hfits : budget.Fits (value :: history)
    · rw [recent_of_fits hfits]
    · rw [recent_cons_of_not_fits hfits, ih fun later hlater => h later (List.mem_cons_of_mem _ hlater)]
      cases history with
      | nil => exact absurd (h value List.mem_cons_self) hfits
      | cons next history => rw [List.getLast?_cons_cons]

end Budget

/-! ### Repetitions -/

namespace List

variable {α : Type*} {R : α → α → Prop} [DecidableRel R]

theorem destutter'_concat (history : List α) (first value : α) :
    (history ++ [value]).destutter' R first =
      if (history.destutter' R first).getLast?.any fun last => ¬ R last value then
        history.destutter' R first
      else history.destutter' R first ++ [value] := by
  induction history generalizing first with
  | nil =>
    by_cases h : R first value
    · simp [h]
    · simp [h]
  | cons next history ih =>
    rw [List.cons_append]
    by_cases h : R first next
    · have hne : history.destutter' R next ≠ [] := destutter'_ne_nil history R
      rw [destutter'_cons_pos _ h, destutter'_cons_pos _ h, ih, getLast?_cons_of_ne_nil hne]
      split
      · rfl
      · rfl
    · rw [destutter'_cons_neg _ h, destutter'_cons_neg _ h, ih]

/-- One more value is left out if it repeats the last one. -/
theorem destutter_concat (history : List α) (value : α) :
    (history ++ [value]).destutter R =
      if (history.destutter R).getLast?.any fun last => ¬ R last value then history.destutter R
      else history.destutter R ++ [value] := by
  cases history with
  | nil => simp
  | cons first history => exact destutter'_concat history first value

end List
