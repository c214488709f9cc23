import Mathlib.Data.List.Infix
import RemoteDeck.Lib.Text

/-! # Replacing a pattern

    The occurrences of a pattern in a list are found from left to right and
    do not overlap, and what lies between them are the pieces.  A replacement
    joins the pieces with another list in the place of the pattern.

    This file defines:
    - `pieces` and `replace`
    - `Quoted`: plain elements, and bodies between quotes

    The main results are `infix_replace`, which says where a list without the
    delimiter can stand in a result, `not_infix_piece` for the pattern itself,
    and `Quoted.inside`: what is not plain stands in a body.
-/

/-- `str::contains` of a text. -/
theorem Text.contains_text_iff_inside {t pattern : Text} : t.contains_text pattern = true ↔ pattern <:+: t := by
  unfold Text.contains_text
  rw [List.any_eq_true, List.infix_iff_prefix_suffix]
  constructor
  · intro ⟨tail, htail, hstarts⟩
    exact ⟨tail, List.isPrefixOf_iff_prefix.mp hstarts, (List.mem_tails _ _).mp htail⟩
  · intro ⟨tail, hstarts, htail⟩
    exact ⟨tail, (List.mem_tails _ _).mpr htail, List.isPrefixOf_iff_prefix.mpr hstarts⟩

namespace Replace

variable {α : Type*}

theorem prefix_delimited {c : α} {w b : List α} (hc : c ∉ w) (h : w <+: c :: b) : w = [] := by
  rcases List.prefix_cons_iff.mp h with h | ⟨rest, rfl, -⟩
  · exact h
  · exact absurd List.mem_cons_self hc

/-- What has no delimiter in it stands on one side of it. -/
theorem infix_across {c : α} {w a b : List α} (hc : c ∉ w) (h : w <:+: a ++ c :: b) :
    w <:+: a ∨ w <:+: b := by
  rcases List.infix_append_iff.mp h with h | h | ⟨front, back, rfl, hfront, hback⟩
  · exact .inl h
  · rcases List.infix_cons_iff.mp h with h | h
    · rw [prefix_delimited hc h]
      exact .inl List.nil_infix
    · exact .inr h
  · -- the part behind the cut would begin with the delimiter
    obtain rfl := prefix_delimited (fun hmem => hc (List.mem_append_right _ hmem)) hback
    rw [List.append_nil]
    exact .inl hfront.isInfix

theorem infix_of_mem {separator : List α} {parts : List (List α)} {part : List α} (h : part ∈ parts) :
    part <:+: separator.intercalate parts := by
  induction parts with
  | nil => cases h
  | cons first parts ih =>
    cases parts with
    | nil =>
      obtain rfl := List.mem_singleton.mp h
      rw [List.intercalate_singleton]
    | cons second parts =>
      rw [List.intercalate_cons_cons]
      rcases List.mem_cons.mp h with rfl | h
      · rw [List.append_assoc]
        exact (List.prefix_append _ _).isInfix
      · exact (ih h).trans (List.suffix_append _ _).isInfix

/-- What has no delimiter in it stands in a part or in what separates them. -/
theorem infix_delimited {c : α} {w middle : List α} (hc : c ∉ w) {parts : List (List α)}
    (h : w <:+: (c :: middle ++ [c]).intercalate parts) :
    w = [] ∨ w <:+: middle ∨ ∃ part ∈ parts, w <:+: part := by
  induction parts with
  | nil => exact .inl (List.infix_nil.mp h)
  | cons part parts ih =>
    cases parts with
    | nil =>
      rw [List.intercalate_singleton] at h
      exact .inr (.inr ⟨part, List.mem_singleton_self _, h⟩)
    | cons second parts =>
      rw [List.intercalate_cons_cons, List.append_assoc, List.cons_append, List.cons_append,
        List.append_assoc] at h
      rcases infix_across hc h with h | h
      · exact .inr (.inr ⟨part, List.mem_cons_self, h⟩)
      · rcases infix_across hc h with h | h
        · exact .inr (.inl h)
        · rcases ih h with h | h | ⟨other, hother, h⟩
          · exact .inl h
          · exact .inr (.inl h)
          · exact .inr (.inr ⟨other, List.mem_cons_of_mem _ hother, h⟩)

/-- **Search rule**: the list is at its end, or the pattern is there, or it
    begins later. -/
theorem search {pattern : List α} {P : List α → Prop} (hne : pattern ≠ []) (nil : P [])
    (found : ∀ rest, P rest → P (pattern ++ rest))
    (skip : ∀ c t, ¬ pattern <+: c :: t → P t → P (c :: t)) (t : List α) : P t := by
  induction hlen : t.length using Nat.strongRecOn generalizing t with
  | ind n ih =>
    cases t with
    | nil => exact nil
    | cons c t =>
      by_cases hfound : pattern <+: c :: t
      · obtain ⟨rest, hrest⟩ := hfound
        have hpos : 0 < pattern.length := List.length_pos_iff.mpr hne
        have hlength := congrArg List.length hrest
        rw [List.length_append, hlen] at hlength
        rw [← hrest]
        exact found rest (ih rest.length (by omega) rest rfl)
      · rw [List.length_cons] at hlen
        exact skip c t hfound (ih t.length (by omega) t rfl)

/-! ### Pieces -/

section
variable [DecidableEq α]

/-- The pieces of a list after some elements that belong to an occurrence. -/
def pieces_from (pattern : List α) : Nat → List α → List (List α)
  | _, [] => [[]]
  | 0, c :: t =>
      if pattern.isPrefixOf (c :: t) then [] :: pieces_from pattern (pattern.length - 1) t
      else (pieces_from pattern 0 t).modifyHead (c :: ·)
  | skip + 1, _ :: t => pieces_from pattern skip t

def pieces (pattern t : List α) : List (List α) := pieces_from pattern 0 t

/-- `str::replace` of a pattern that is not empty. -/
def replace (pattern by_list t : List α) : List α := by_list.intercalate (pieces pattern t)

variable {pattern : List α}

theorem pieces_from_append (front rest : List α) :
    pieces_from pattern front.length (front ++ rest) = pieces pattern rest := by
  induction front with
  | nil => rfl
  | cons c front ih => exact ih

@[simp] theorem pieces_nil : pieces pattern [] = [[]] := rfl

theorem pieces_found (hne : pattern ≠ []) (rest : List α) :
    pieces pattern (pattern ++ rest) = [] :: pieces pattern rest := by
  cases pattern with
  | nil => exact absurd rfl hne
  | cons c pattern =>
    have hfound : (c :: pattern).isPrefixOf (c :: (pattern ++ rest)) = true := by
      rw [List.isPrefixOf_iff_prefix]
      exact List.prefix_append (c :: pattern) rest
    show pieces_from (c :: pattern) 0 (c :: (pattern ++ rest)) = _
    rw [pieces_from, if_pos hfound]
    exact congrArg ([] :: ·) (pieces_from_append pattern rest)

theorem pieces_cons {c : α} {t : List α} (h : ¬ pattern <+: c :: t) :
    pieces pattern (c :: t) = (pieces pattern t).modifyHead (c :: ·) := by
  have hnot : ¬ pattern.isPrefixOf (c :: t) = true := by
    rwa [List.isPrefixOf_iff_prefix]
  show pieces_from pattern 0 (c :: t) = _
  rw [pieces_from, if_neg hnot]
  rfl

theorem pieces_ne_nil (hne : pattern ≠ []) (t : List α) : pieces pattern t ≠ [] := by
  refine search (P := fun t => pieces pattern t ≠ []) hne ?_ ?_ ?_ t
  · simp
  · intro rest _
    simp [pieces_found hne]
  · intro c t hnot ih
    rw [pieces_cons hnot]
    cases hpieces : pieces pattern t with
    | nil => exact absurd hpieces ih
    | cons piece rest => simp

/-- The pieces make up the list again. -/
theorem join_pieces (hne : pattern ≠ []) (t : List α) : pattern.intercalate (pieces pattern t) = t := by
  refine search (P := fun t => pattern.intercalate (pieces pattern t) = t) hne ?_ ?_ ?_ t
  · simp
  · intro rest ih
    rw [pieces_found hne, List.intercalate_cons_of_ne_nil (pieces_ne_nil hne rest), ih]
    rfl
  · intro c t hnot ih
    rw [pieces_cons hnot]
    cases hpieces : pieces pattern t with
    | nil => exact absurd hpieces (pieces_ne_nil hne t)
    | cons piece rest =>
      rw [hpieces] at ih
      rw [List.modifyHead_cons, List.intercalate_cons_cons_left, ih]

theorem piece_inside (hne : pattern ≠ []) {t piece : List α} (h : piece ∈ pieces pattern t) :
    piece <:+: t := by
  have hjoin : piece <:+: pattern.intercalate (pieces pattern t) := infix_of_mem h
  rwa [join_pieces hne] at hjoin

/-- The first piece stands at the front. -/
theorem head_piece (hne : pattern ≠ []) (t : List α) : ∀ piece ∈ (pieces pattern t).head?, piece <+: t := by
  refine search (P := fun t => ∀ piece ∈ (pieces pattern t).head?, piece <+: t) hne ?_ ?_ ?_ t
  · simp
  · intro rest _ piece hpiece
    rw [pieces_found hne] at hpiece
    obtain rfl := Option.some.inj hpiece
    exact List.nil_prefix
  · intro c t hnot ih piece hpiece
    rw [pieces_cons hnot] at hpiece
    cases hpieces : pieces pattern t with
    | nil =>
      rw [hpieces] at hpiece
      cases hpiece
    | cons first rest =>
      rw [hpieces] at hpiece ih
      obtain rfl := Option.some.inj hpiece
      exact List.cons_prefix_cons.mpr ⟨rfl, ih first rfl⟩

/-- No piece has the pattern in it. -/
theorem not_infix_piece (hne : pattern ≠ []) (t : List α) : ∀ piece ∈ pieces pattern t, ¬ pattern <:+: piece := by
  refine search (P := fun t => ∀ piece ∈ pieces pattern t, ¬ pattern <:+: piece) hne ?_ ?_ ?_ t
  · intro piece hpiece hinfix
    obtain rfl := List.mem_singleton.mp hpiece
    exact hne (List.infix_nil.mp hinfix)
  · intro rest ih piece hpiece
    rw [pieces_found hne] at hpiece
    rcases List.mem_cons.mp hpiece with rfl | hpiece
    · intro hinfix
      exact hne (List.infix_nil.mp hinfix)
    · exact ih piece hpiece
  · intro c t hnot ih piece hpiece
    rw [pieces_cons hnot] at hpiece
    cases hpieces : pieces pattern t with
    | nil =>
      rw [hpieces] at hpiece
      cases hpiece
    | cons first rest =>
      rw [hpieces, List.modifyHead_cons] at hpiece
      rw [hpieces] at ih
      rcases List.mem_cons.mp hpiece with rfl | hpiece
      · intro hinfix
        rcases List.infix_cons_iff.mp hinfix with hfront | hlater
        · -- the pattern would stand at the front of the list
          have hfirst : first <+: t := head_piece hne t first (by rw [hpieces]; rfl)
          exact hnot (hfront.trans (List.cons_prefix_cons.mpr ⟨rfl, hfirst⟩))
        · exact ih first List.mem_cons_self hlater
      · exact ih piece (List.mem_cons_of_mem _ hpiece)

theorem pieces_of_absent {t : List α} (h : ¬ pattern <:+: t) : pieces pattern t = [t] := by
  induction t with
  | nil => rfl
  | cons c t ih =>
    have hfront : ¬ pattern <+: c :: t := fun hfront => h hfront.isInfix
    have hlater : ¬ pattern <:+: t := fun hlater => h (List.infix_cons hlater)
    rw [pieces_cons hfront, ih hlater]
    rfl

/-! ### Replacement -/

/-- A list without the pattern stays as it is. -/
theorem replace_of_absent {by_list t : List α} (h : ¬ pattern <:+: t) : replace pattern by_list t = t := by
  rw [replace, pieces_of_absent h, List.intercalate_singleton]

/-- What has no delimiter in it stands in the list before the replacement,
    or in the replacement. -/
theorem infix_replace (hne : pattern ≠ []) {c : α} {w middle t : List α} (hc : c ∉ w)
    (h : w <:+: replace pattern (c :: middle ++ [c]) t) : w <:+: t ∨ w <:+: middle := by
  rcases infix_delimited hc h with rfl | h | ⟨piece, hpiece, h⟩
  · exact .inl List.nil_infix
  · exact .inr h
  · exact .inl (h.trans (piece_inside hne hpiece))

/-- The same where the elements are changed one by one afterwards. -/
theorem map_replace {β : Type*} (hne : pattern ≠ []) {f : α → β} {c : α} {middle t : List α} {w : List β}
    (hc : f c ∉ w) (h : w <:+: (replace pattern (c :: middle ++ [c]) t).map f) :
    w <:+: t.map f ∨ w <:+: middle.map f := by
  obtain ⟨u, hu, rfl⟩ := List.infix_map_iff.mp h
  have hplain : c ∉ u := fun hmem => hc (List.mem_map_of_mem hmem)
  rcases infix_replace hne hplain hu with h | h
  · exact .inl (h.map f)
  · exact .inr (h.map f)

/-- After a replacement that does not bring it back, the pattern is gone. -/
theorem not_infix_replace (hne : pattern ≠ []) {c : α} {middle : List α} (hc : c ∉ pattern)
    (hmiddle : ¬ pattern <:+: middle) (t : List α) :
    ¬ pattern <:+: replace pattern (c :: middle ++ [c]) t := by
  intro h
  rcases infix_delimited hc h with h | h | ⟨piece, hpiece, h⟩
  · exact hne h
  · exact hmiddle h
  · exact not_infix_piece hne t piece hpiece h

end

/-! ### Quotes -/

/-- Plain elements, and bodies between quotes. -/
inductive Quoted (quote : α) (plain : α → Prop) (body : List α → Prop) : List α → Prop where
  | nil : Quoted quote plain body []
  | plain {c : α} {t : List α} : plain c → Quoted quote plain body t → Quoted quote plain body (c :: t)
  | body {b t : List α} : body b → Quoted quote plain body t →
      Quoted quote plain body (quote :: (b ++ quote :: t))

namespace Quoted

variable {quote : α} {plain : α → Prop} {body body' : List α → Prop} {a b t w : List α}

theorem append (ha : Quoted quote plain body a) (hb : Quoted quote plain body b) :
    Quoted quote plain body (a ++ b) := by
  induction ha with
  | nil => exact hb
  | plain hc _ ih => exact .plain hc ih
  | @body b t hbody _ ih =>
    rw [List.cons_append, List.append_assoc, List.cons_append]
    exact .body hbody ih

theorem of_plain (h : ∀ c ∈ t, plain c) : Quoted quote plain body t := by
  induction t with
  | nil => exact .nil
  | cons c t ih => exact .plain (h c List.mem_cons_self) (ih fun d hd => h d (List.mem_cons_of_mem _ hd))

/-- The quote and the plain elements may be changed one by one. -/
theorem map {f : α → α} {plain' : α → Prop} (h : Quoted quote plain body t) (hquote : f quote = quote)
    (hplain : ∀ c, plain c → plain' (f c)) (hbody : ∀ b, body b → body' (b.map f)) :
    Quoted quote plain' body' (t.map f) := by
  induction h with
  | nil => exact .nil
  | plain hc _ ih => exact .plain (hplain _ hc) ih
  | body hb _ ih =>
    rw [List.map_cons, List.map_append, List.map_cons, hquote]
    exact .body (hbody _ hb) ih

/-- Before the first quote everything is plain. -/
theorem front (h : Quoted quote plain body t) (hquote : quote ∉ w) (hw : w <+: t) : ∀ c ∈ w, plain c := by
  induction h generalizing w with
  | nil =>
    obtain rfl := List.prefix_nil.mp hw
    exact List.forall_mem_nil _
  | @plain c t hc _ ih =>
    rcases List.prefix_cons_iff.mp hw with rfl | ⟨rest, rfl, hrest⟩
    · exact List.forall_mem_nil _
    · rw [List.mem_cons, not_or] at hquote
      exact List.forall_mem_cons.mpr ⟨hc, ih hquote.2 hrest⟩
  | body _ _ _ =>
    rw [prefix_delimited hquote hw]
    exact List.forall_mem_nil _

/-- **What is not plain stands in a body.** -/
theorem inside (h : Quoted quote plain body t) (hquote : quote ∉ w) (hplain : ∃ c ∈ w, ¬ plain c)
    (hw : w <:+: t) : ∃ b, body b ∧ w <:+: b := by
  have hfront : ∀ {u : List α}, Quoted quote plain body u → ¬ w <+: u := by
    intro u hu hstart
    obtain ⟨c, hc, hnot⟩ := hplain
    exact hnot (hu.front hquote hstart c hc)
  induction h with
  | nil =>
    obtain rfl := List.infix_nil.mp hw
    exact absurd List.nil_prefix (hfront .nil)
  | plain hc ht ih =>
    rcases List.infix_cons_iff.mp hw with hw | hw
    · exact absurd hw (hfront (.plain hc ht))
    · exact ih hw
  | body hb ht ih =>
    rcases List.infix_cons_iff.mp hw with hw | hw
    · exact absurd hw (hfront (.body hb ht))
    · rcases infix_across hquote hw with hw | hw
      · exact ⟨_, hb, hw⟩
      · exact ih hw

end Quoted

end Replace
