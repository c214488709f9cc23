import Mathlib.Data.List.Chain
import Mathlib.Data.List.Range

/-! # Numbered streams

    Items of a stream carry sequence numbers.  A producer numbers its items
    without gaps (`Consecutive`); what a consumer sees may also hold markers,
    each of which stands for everything up to its number (`Flow`).  A flow
    leaves no number out silently: each one up to the number it has reached
    is delivered once or covered by a marker.
-/

namespace Stream

variable {α : Type*} (seq : α → Nat) (marker : α → Bool)

/-! ### Numbered without gaps -/

/-- The items after a number, numbered without gaps. -/
def Consecutive : Nat → List α → Prop
  | _, [] => True
  | last, item :: items => seq item = last + 1 ∧ Consecutive (last + 1) items

variable {seq} {last since n : Nat} {items more : List α} {item : α}

theorem consecutive_append :
    Consecutive seq last (items ++ more) ↔
      Consecutive seq last items ∧ Consecutive seq (last + items.length) more := by
  induction items generalizing last with
  | nil => simp [Consecutive]
  | cons item items ih =>
    rw [List.cons_append, Consecutive, Consecutive, ih, and_assoc, List.length_cons]
    have hlast : last + 1 + items.length = last + (items.length + 1) := by omega
    rw [hlast]

/-- The next item. -/
theorem Consecutive.push (h : Consecutive seq last items) (hitem : seq item = last + items.length + 1) :
    Consecutive seq last (items ++ [item]) :=
  consecutive_append.mpr ⟨h, hitem, trivial⟩

/-- What is left of the items after some of them are gone. -/
theorem Consecutive.suffix (h : Consecutive seq last items) (hsuffix : more <:+ items) :
    Consecutive seq (last + items.length - more.length) more := by
  obtain ⟨gone, rfl⟩ := hsuffix
  have hmore := (consecutive_append.mp h).2
  have hlast : last + (gone ++ more).length - more.length = last + gone.length := by
    rw [List.length_append]
    omega
  exact hlast ▸ hmore

theorem Consecutive.lt (h : Consecutive seq last items) (hitem : item ∈ items) : last < seq item := by
  induction items generalizing last with
  | nil => simp at hitem
  | cons first items ih =>
    rcases List.mem_cons.mp hitem with rfl | hitem
    · have hseq := h.1
      omega
    · have hlt := ih h.2 hitem
      omega

theorem Consecutive.le (h : Consecutive seq last items) (hitem : item ∈ items) :
    seq item ≤ last + items.length := by
  induction items generalizing last with
  | nil => simp at hitem
  | cons first items ih =>
    rw [List.length_cons]
    rcases List.mem_cons.mp hitem with rfl | hitem
    · have hseq := h.1
      omega
    · have hle := ih h.2 hitem
      omega

/-- Every number in the range of the items is that of one of them. -/
theorem Consecutive.exists (h : Consecutive seq last items) (hlt : last < n)
    (hle : n ≤ last + items.length) : ∃ item ∈ items, seq item = n := by
  induction items generalizing last with
  | nil =>
    rw [List.length_nil] at hle
    omega
  | cons first items ih =>
    rw [List.length_cons] at hle
    by_cases hfirst : n = last + 1
    · exact ⟨first, List.mem_cons_self, h.1.trans hfirst.symm⟩
    · obtain ⟨item, hitem, hseq⟩ := ih h.2 (by omega) (by omega)
      exact ⟨item, List.mem_cons_of_mem _ hitem, hseq⟩

/-- The number tells which item it is. -/
theorem Consecutive.inj {other : α} (h : Consecutive seq last items) (hitem : item ∈ items)
    (hother : other ∈ items) (hsame : seq item = seq other) : item = other := by
  induction items generalizing last with
  | nil => simp at hitem
  | cons first items ih =>
    have hfirst := h.1
    rcases List.mem_cons.mp hitem with rfl | hleft
    · rcases List.mem_cons.mp hother with rfl | hright
      · rfl
      · have hlt := h.2.lt hright
        omega
    · rcases List.mem_cons.mp hother with rfl | hright
      · have hlt := h.2.lt hleft
        omega
      · exact ih h.2 hleft hright

/-- The items after a number in their range. -/
theorem Consecutive.filter (h : Consecutive seq last items) (hlast : last ≤ since)
    (hsince : since ≤ last + items.length) :
    Consecutive seq since (items.filter fun item => since < seq item) ∧
      since + (items.filter fun item => since < seq item).length = last + items.length := by
  induction items generalizing last with
  | nil =>
    rw [List.length_nil] at hsince
    refine ⟨trivial, ?_⟩
    show since + 0 = last + 0
    omega
  | cons first items ih =>
    rw [List.length_cons] at hsince ⊢
    by_cases hfirst : since = last
    · -- all items are after the number
      subst hfirst
      have hall : (first :: items).filter (fun item => since < seq item) = first :: items := by
        apply List.filter_eq_self.mpr
        intro item hitem
        exact decide_eq_true (h.lt hitem)
      rw [hall]
      exact ⟨h, by rw [List.length_cons]⟩
    · have hgone : ¬ since < seq first := by
        have hseq := h.1
        omega
      rw [List.filter_cons_of_neg (by simpa using hgone)]
      obtain ⟨hrest, hlen⟩ := ih h.2 (by omega) (by omega)
      exact ⟨hrest, by omega⟩

/-! ### Flows -/

variable (seq)

/-- An item that comes after a number: the next one, or a marker, which goes back behind
    another marker only. -/
def Next (free : Bool) (last : Nat) (item : α) : Prop :=
  marker item = true ∧ (free = true ∨ last ≤ seq item) ∨ marker item = false ∧ seq item = last + 1

/-- Each item comes after the one before it. -/
def Flow : Bool → Nat → List α → Prop
  | _, _, [] => True
  | free, last, item :: items => Next seq marker free last item ∧ Flow (marker item) (seq item) items

/-- The number that items have reached. -/
def reach : Nat → List α → Nat
  | last, [] => last
  | _, item :: items => reach (seq item) items

/-- Whether the last item is a marker. -/
def behind : Bool → List α → Bool
  | free, [] => free
  | _, item :: items => behind (marker item) items

variable {seq} {marker} {free : Bool}

theorem reach_append : reach seq last (items ++ more) = reach seq (reach seq last items) more := by
  induction items generalizing last with
  | nil => rfl
  | cons item items ih => exact ih

theorem behind_getLast :
    behind marker (items.getLast?.all marker) more = (items ++ more).getLast?.all marker := by
  induction more generalizing items with
  | nil => simp [behind]
  | cons item more ih =>
    have hlast : (items ++ [item]).getLast?.all marker = marker item := by simp
    rw [behind, ← hlast, ih, List.append_assoc, List.singleton_append]

theorem flow_append :
    Flow seq marker free last (items ++ more) ↔
      Flow seq marker free last items ∧
        Flow seq marker (behind marker free items) (reach seq last items) more := by
  induction items generalizing free last with
  | nil => simp [Flow, reach, behind]
  | cons item items ih => rw [List.cons_append, Flow, Flow, ih, and_assoc, reach, behind]

theorem Flow.push (h : Flow seq marker free last items)
    (hitem : Next seq marker (behind marker free items) (reach seq last items) item) :
    Flow seq marker free last (items ++ [item]) :=
  flow_append.mpr ⟨h, hitem, trivial⟩

/-- An item inside comes after those before it. -/
theorem Flow.next (h : Flow seq marker free last (items ++ item :: more)) :
    Next seq marker (behind marker free items) (reach seq last items) item :=
  (flow_append.mp h).2.1

theorem Consecutive.flow (h : Consecutive seq last items) : Flow seq marker free last items := by
  induction items generalizing free last with
  | nil => trivial
  | cons item items ih =>
    have hitem := h.1
    refine ⟨?_, ?_⟩
    · cases hmarker : marker item with
      | true => exact .inl ⟨hmarker, .inr (by omega)⟩
      | false => exact .inr ⟨hmarker, hitem⟩
    · rw [hitem]
      exact ih h.2

theorem Consecutive.reach (h : Consecutive seq last items) :
    reach seq last items = last + items.length := by
  induction items generalizing last with
  | nil => rfl
  | cons item items ih =>
    show Stream.reach seq (seq item) items = _
    rw [h.1, ih h.2, List.length_cons]
    omega

/-- Between markers the numbers increase. -/
theorem Flow.increasing (h : Flow seq marker free last items) :
    items.IsChain fun a b => marker b = true ∨ seq a < seq b := by
  induction items generalizing free last with
  | nil => exact .nil
  | cons first items ih =>
    cases items with
    | nil => exact .singleton first
    | cons second items =>
      refine .cons_cons ?_ (ih h.2)
      rcases h.2.1 with ⟨hmarker, _⟩ | ⟨_, hseq⟩
      · exact .inl hmarker
      · exact .inr (by omega)

/-- A number that the flow has passed with an item comes again only behind a marker that
    covers it. -/
theorem Flow.passed (h : Flow seq marker false last items) (hle : n ≤ last) :
    (items.countP fun item => marker item = false ∧ seq item = n) = 0 ∨
      ∃ item ∈ items, marker item = true ∧ n ≤ seq item := by
  induction items generalizing last with
  | nil => exact .inl rfl
  | cons first items ih =>
    rcases h.1 with ⟨hmarker, hfree | hforward⟩ | ⟨hmarker, hseq⟩
    · exact absurd hfree Bool.false_ne_true
    · exact .inr ⟨first, List.mem_cons_self, hmarker, hle.trans hforward⟩
    · have hrest : Flow seq marker false (seq first) items := hmarker ▸ h.2
      rcases ih hrest (by omega) with hcount | ⟨item, hitem, hcovers⟩
      · refine .inl ?_
        rw [List.countP_cons_of_neg]
        · exact hcount
        · simp only [decide_eq_true_eq, not_and]
          omega
      · exact .inr ⟨item, List.mem_cons_of_mem _ hitem, hcovers⟩

/-- **No silent gap**: a number that a flow has reached is delivered once, or a marker covers it. -/
theorem Flow.delivered (h : Flow seq marker free last items) (hlt : last < n)
    (hle : n ≤ Stream.reach seq last items) :
    (items.countP fun item => marker item = false ∧ seq item = n) = 1 ∨
      ∃ item ∈ items, marker item = true ∧ n ≤ seq item := by
  induction items generalizing free last with
  | nil => exact absurd hle (not_le.mpr hlt)
  | cons first items ih =>
    rcases h.1 with ⟨hmarker, _⟩ | ⟨hmarker, hseq⟩
    · by_cases hcovered : n ≤ seq first
      · exact .inr ⟨first, List.mem_cons_self, hmarker, hcovered⟩
      · rcases ih h.2 (not_le.mp hcovered) hle with hcount | ⟨item, hitem, hcovers⟩
        · exact .inl (by rw [List.countP_cons_of_neg (by simp [hmarker])]; exact hcount)
        · exact .inr ⟨item, List.mem_cons_of_mem _ hitem, hcovers⟩
    · by_cases hfirst : n = last + 1
      · -- this is the item, and a later one with its number is behind a marker that covers it
        have hrest : Flow seq marker false (seq first) items := hmarker ▸ h.2
        rcases hrest.passed (hfirst.trans hseq.symm).le with hnone | ⟨item, hitem, hcovers⟩
        · refine .inl ?_
          rw [List.countP_cons_of_pos (by simp [hmarker, hseq, hfirst]), hnone]
        · exact .inr ⟨item, List.mem_cons_of_mem _ hitem, hcovers⟩
      · rcases ih h.2 (by omega) hle with hcount | ⟨item, hitem, hcovers⟩
        · refine .inl ?_
          rw [List.countP_cons_of_neg]
          · exact hcount
          · simp only [decide_eq_true_eq, not_and]
            omega
        · exact .inr ⟨item, List.mem_cons_of_mem _ hitem, hcovers⟩

/-! ### Flows that never go back -/

variable (seq) (marker)

/-- Each item is the next one, or a marker further on. -/
def Forward : Nat → List α → Prop
  | _, [] => True
  | last, item :: items =>
      (marker item = true ∧ last < seq item ∨ marker item = false ∧ seq item = last + 1) ∧
        Forward (seq item) items

variable {seq} {marker}

theorem forward_append :
    Forward seq marker last (items ++ more) ↔
      Forward seq marker last items ∧ Forward seq marker (Stream.reach seq last items) more := by
  induction items generalizing last with
  | nil => simp [Forward, Stream.reach]
  | cons item items ih => rw [List.cons_append, Forward, Forward, ih, and_assoc, Stream.reach]

theorem Consecutive.forward (h : Consecutive seq last items) : Forward seq marker last items := by
  induction items generalizing last with
  | nil => trivial
  | cons item items ih =>
    have hitem := h.1
    refine ⟨?_, hitem ▸ ih h.2⟩
    cases hmarker : marker item with
    | true => exact .inl ⟨rfl, by omega⟩
    | false => exact .inr ⟨rfl, hitem⟩

theorem Forward.lt (h : Forward seq marker last items) (hitem : item ∈ items) : last < seq item := by
  induction items generalizing last with
  | nil => simp at hitem
  | cons first items ih =>
    have hfirst : last < seq first := by
      rcases h.1 with ⟨_, hlt⟩ | ⟨_, hseq⟩
      · exact hlt
      · omega
    rcases List.mem_cons.mp hitem with rfl | hrest
    · exact hfirst
    · exact hfirst.trans (ih h.2 hrest)

theorem Forward.le_reach (h : Forward seq marker last items) : last ≤ Stream.reach seq last items := by
  induction items generalizing last with
  | nil => exact le_rfl
  | cons first items ih => exact (h.lt List.mem_cons_self).le.trans (ih h.2)

/-- An item is not ahead of the number reached. -/
theorem Forward.mem_le_reach (h : Forward seq marker last items) (hitem : item ∈ items) :
    seq item ≤ Stream.reach seq last items := by
  induction items generalizing last with
  | nil => simp at hitem
  | cons first items ih =>
    rcases List.mem_cons.mp hitem with rfl | hrest
    · exact h.2.le_reach
    · exact ih h.2 hrest

/-- The numbers increase. -/
theorem Forward.increasing (h : Forward seq marker last items) :
    items.Pairwise fun a b => seq a < seq b := by
  induction items generalizing last with
  | nil => exact .nil
  | cons first items ih => exact .cons (fun _ hitem => h.2.lt hitem) (ih h.2)

/-- A number up to the one reached is that of an item, or the first item past it is a marker. -/
theorem Forward.covered (h : Forward seq marker last items) (hlt : last < n)
    (hle : n ≤ Stream.reach seq last items) :
    (∃ item ∈ items, marker item = false ∧ seq item = n) ∨
      ∃ mark ∈ items, marker mark = true ∧ n ≤ seq mark ∧
        ∀ item ∈ items, n ≤ seq item → seq mark ≤ seq item := by
  induction items generalizing last with
  | nil => exact absurd hle (not_le.mpr hlt)
  | cons first items ih =>
    by_cases hpast : n ≤ seq first
    · rcases h.1 with ⟨hmarker, _⟩ | ⟨hmarker, hseq⟩
      · refine .inr ⟨first, List.mem_cons_self, hmarker, hpast, fun item hitem _ => ?_⟩
        rcases List.mem_cons.mp hitem with rfl | hrest
        · exact le_rfl
        · exact (h.2.lt hrest).le
      · exact .inl ⟨first, List.mem_cons_self, hmarker, by omega⟩
    · rcases ih h.2 (not_le.mp hpast) hle with ⟨item, hitem, hfound⟩ | ⟨mark, hmark, hmarker, hle, hleast⟩
      · exact .inl ⟨item, List.mem_cons_of_mem _ hitem, hfound⟩
      · refine .inr ⟨mark, List.mem_cons_of_mem _ hmark, hmarker, hle, fun item hitem hitemPast => ?_⟩
        rcases List.mem_cons.mp hitem with rfl | hrest
        · exact absurd hitemPast hpast
        · exact hleast item hrest hitemPast

end Stream
