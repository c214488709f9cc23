import RemoteDeck.Lib.Text

/-! # Cutting texts

    Where a text is cut by `split_once`, `rsplit_once`, `strip_prefix` and
    `strip_suffix`: each cut is characterised by the pieces it leaves.
-/

namespace Text

/-! ### At the first separator -/

theorem split_once_append {c : Char} {front : Text} (rest : Text) (h : c ∉ front) :
    split_once c (front ++ c :: rest) = some (front, rest) := by
  induction front with
  | nil => simp [split_once]
  | cons d front ih =>
    simp only [List.mem_cons, not_or] at h
    simp [split_once, Ne.symm h.1, ih h.2]

theorem split_once_none {c : Char} {t : Text} : split_once c t = none ↔ c ∉ t := by
  induction t with
  | nil => simp [split_once]
  | cons d t ih =>
    by_cases hd : d = c
    · simp [split_once, hd]
    · simp [split_once, hd, ih, Ne.symm hd]

theorem split_once_eq_some {c : Char} {t front rest : Text} :
    split_once c t = some (front, rest) ↔ t = front ++ c :: rest ∧ c ∉ front := by
  constructor
  · intro h
    induction t generalizing front with
    | nil => simp [split_once] at h
    | cons d t ih =>
      by_cases hd : d = c
      · simp only [split_once, hd, if_true, Option.some.injEq, Prod.mk.injEq] at h
        obtain ⟨rfl, rfl⟩ := h
        simp [hd]
      · simp only [split_once, hd, if_false, Option.map_eq_some_iff, Prod.mk.injEq] at h
        obtain ⟨⟨more, rest'⟩, hsplit, rfl, rfl⟩ := h
        obtain ⟨rfl, hmore⟩ := ih hsplit
        simp [hmore, Ne.symm hd]
  · intro ⟨ht, hfront⟩
    rw [ht]
    exact split_once_append rest hfront

/-! ### At the ends -/

theorem strip_leading_iff {t pattern rest : Text} :
    strip_leading t pattern = some rest ↔ t = pattern ++ rest := by
  constructor
  · exact strip_leading_eq_some
  · intro h
    rw [h, strip_leading_append]

theorem strip_trailing_iff {t pattern rest : Text} :
    strip_trailing t pattern = some rest ↔ t = rest ++ pattern := by
  unfold strip_trailing
  rw [Option.map_eq_some_iff]
  constructor
  · rintro ⟨back, hback, rfl⟩
    rw [strip_leading_iff] at hback
    rw [← List.reverse_reverse t, hback, List.reverse_append, List.reverse_reverse]
  · intro h
    refine ⟨rest.reverse, ?_, List.reverse_reverse rest⟩
    rw [strip_leading_iff, h, List.reverse_append]

end Text
