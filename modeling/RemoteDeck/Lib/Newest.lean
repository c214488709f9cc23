import Mathlib.Data.List.Basic
import Mathlib.Data.List.Nodup
import Mathlib.Data.List.Pairwise
import Mathlib.Data.List.Perm.Subperm
import Mathlib.Order.Lattice

/-! # Keeping the newest item of a key

    Items have a key and a rank.  A sequence is increasing if the items of
    each key come in the order of their ranks.  A reader that keeps one item
    for each key, and replaces it by those of a greater rank, ends with the
    greatest, in whatever order and however often they arrive.

    This file defines:
    - `Increasing`: the items of each key in order, with append and move rules
    - `change_first`: a list with its first item of a key changed
    - `keep`: the list of a reader after one more item
    - `keep_all_newest`: what the reader has in the end
    - `HoldsNewest`: a list that holds the newest of what was received, with
      rules for one more item
-/

namespace Newest

variable {α κ ι : Type*} [LinearOrder ι] {key : α → κ} {rank : α → ι}

/-! ### Increasing sequences -/

variable (key rank) in
/-- The items of a key come in the order of their ranks. -/
def Increasing (items : List α) : Prop :=
  items.Pairwise fun item next => key item = key next → rank item < rank next

theorem Increasing.append {items : List α} {last : α} (h : Increasing key rank items)
    (hlast : ∀ item ∈ items, key item = key last → rank item < rank last) :
    Increasing key rank (items ++ [last]) := by
  refine List.pairwise_append.mpr ⟨h, List.pairwise_singleton _ _, ?_⟩
  intro item hitem next hnext
  rw [List.mem_singleton.mp hnext]
  exact hlast item hitem

theorem Increasing.front {front rest : List α} (h : Increasing key rank (front ++ rest)) :
    Increasing key rank front :=
  (List.pairwise_append.mp h).1

/-- An item that none of its key comes before goes to the end of the front. -/
theorem Increasing.move [DecidableEq α] {front rest : List α} {item : α}
    (h : Increasing key rank (front ++ rest)) (hmem : item ∈ rest)
    (hfirst : ∀ other ∈ rest, key other = key item → ¬ rank other < rank item) :
    Increasing key rank ((front ++ [item]) ++ rest.erase item) := by
  obtain ⟨hfront, hrest, hacross⟩ := List.pairwise_append.mp h
  obtain ⟨before, after, _, hsplit, herase⟩ := List.exists_erase_eq hmem
  rw [herase]
  have happend : Increasing key rank (front ++ [item]) :=
    Increasing.append hfront fun other hother => hacross other hother item hmem
  have hkept : Increasing key rank (before ++ after) := herase ▸ hrest.sublist List.erase_sublist
  rw [hsplit] at hrest
  obtain ⟨_, hafter, hbefore⟩ := List.pairwise_append.mp hrest
  refine List.pairwise_append.mpr ⟨happend, hkept, ?_⟩
  intro other hother next hnext hkey
  have hnext : next ∈ before ∨ next ∈ after := List.mem_append.mp hnext
  rcases List.mem_append.mp hother with hold | hnew
  · refine hacross other hold next ?_ hkey
    rw [hsplit]
    rcases hnext with hnext | hnext
    · exact List.mem_append_left _ hnext
    · exact List.mem_append_right _ (List.mem_cons_of_mem _ hnext)
  · obtain rfl := List.mem_singleton.mp hnew
    rcases hnext with hnext | hnext
    · -- an item of the key that comes before has a smaller rank
      have hlt := hbefore next hnext other List.mem_cons_self hkey.symm
      have hin : next ∈ rest := hsplit ▸ List.mem_append_left _ hnext
      exact absurd hlt (hfirst next hin hkey.symm)
    · exact List.rel_of_pairwise_cons hafter hnext hkey

/-! ### Keeping one item for each key -/

variable [DecidableEq κ]

/-- The list with its first item of a key changed, if there is one. -/
def change_first (key : α → κ) (k : κ) (f : α → α) : List α → Option (List α)
  | [] => none
  | item :: items =>
      if key item = k then some (f item :: items) else (change_first key k f items).map (item :: ·)

/-- The greater of two items, the first one if they are equal. -/
def newer (rank : α → ι) (held item : α) : α := if rank held < rank item then item else held

/-- The items of a reader after one more. -/
def keep (key : α → κ) (rank : α → ι) (items : List α) (item : α) : List α :=
  (change_first key (key item) (fun held => newer rank held item) items).getD (items ++ [item])

/-- The item of a key. -/
def held (key : α → κ) (items : List α) (k : κ) : Option α := items.find? fun item => key item = k

theorem held_change_first {f : α → α} {k : κ} (hf : ∀ item, key item = k → key (f item) = k)
    (items : List α) :
    (held key items k = none ∧ change_first key k f items = none) ∨
      ∃ item changed, held key items k = some item ∧ change_first key k f items = some changed ∧
        ∀ other, held key changed other = if other = k then some (f item) else held key items other := by
  induction items with
  | nil => exact .inl ⟨rfl, rfl⟩
  | cons first rest ih =>
    unfold held change_first
    by_cases hfirst : key first = k
    · refine .inr ⟨first, f first :: rest, ?_, if_pos hfirst, fun other => ?_⟩
      · rw [List.find?_cons, decide_eq_true hfirst]
      · rw [List.find?_cons, List.find?_cons, hf first hfirst, hfirst]
        by_cases hother : other = k
        · simp [hother]
        · simp [hother, Ne.symm hother]
    · rw [if_neg hfirst, List.find?_cons, decide_eq_false hfirst]
      rcases ih with ⟨hnone, hchange⟩ | ⟨item, changed, hitem, hchange, hothers⟩
      · exact .inl ⟨hnone, by rw [hchange]; rfl⟩
      · refine .inr ⟨item, first :: changed, hitem, by rw [hchange]; rfl, fun other => ?_⟩
        have hrest := hothers other
        unfold held at hrest
        rw [List.find?_cons, List.find?_cons, hrest]
        by_cases hother : key first = other
        · have hk : other ≠ k := fun h => hfirst (hother.trans h)
          rw [decide_eq_true hother]
          exact (if_neg hk).symm
        · rw [decide_eq_false hother]

theorem change_first_self (key : α → κ) (k : κ) {f : α → α} (hf : ∀ item, f item = item)
    (items : List α) : (change_first key k f items).getD items = items := by
  induction items with
  | nil => rfl
  | cons first rest ih =>
    unfold change_first
    split
    · rw [Option.getD_some, hf]
    · cases hrest : change_first key k f rest with
      | none => rfl
      | some changed =>
        rw [hrest, Option.getD_some] at ih
        rw [Option.map_some, Option.getD_some, ih]

variable (key rank) in
/-- A reader keeps the newer of the items of a key. -/
theorem held_keep (items : List α) (item : α) (k : κ) :
    held key (keep key rank items item) k =
      if key item = k then some ((held key items k).elim item fun old => newer rank old item)
      else held key items k := by
  have hkey : ∀ old, key old = key item → key (newer rank old item) = key item := by
    intro old hold
    unfold newer
    split
    · rfl
    · exact hold
  unfold keep
  rcases held_change_first hkey items with ⟨hnone, hchange⟩ | ⟨old, changed, hold, hchange, hothers⟩
  · rw [hchange, Option.getD_none]
    unfold held at hnone ⊢
    rw [List.find?_append, List.find?_singleton]
    by_cases hk : key item = k
    · subst hk
      rw [hnone, if_pos rfl, decide_eq_true rfl]
      rfl
    · rw [if_neg hk, decide_eq_false hk]
      exact Option.or_none
  · rw [hchange, Option.getD_some, hothers]
    by_cases hk : key item = k
    · rw [if_pos hk, if_pos hk.symm, ← hk, hold]
      rfl
    · rw [if_neg hk, if_neg (Ne.symm hk)]

/-- **A reader ends with the newest item of a key**, in whatever order the
    items arrive. -/
theorem keep_all_newest {received items : List α} {last : α}
    (hlast : last ∈ received ∨ held key items (key last) = some last)
    (hreceived : ∀ item ∈ received, key item = key last → item = last ∨ rank item < rank last)
    (hheld : ∀ item, held key items (key last) = some item → item = last ∨ rank item < rank last) :
    held key (received.foldl (keep key rank) items) (key last) = some last := by
  induction received generalizing items with
  | nil => exact hlast.resolve_left List.not_mem_nil
  | cons first rest ih =>
    rw [List.foldl_cons]
    have hrest : ∀ item ∈ rest, key item = key last → item = last ∨ rank item < rank last :=
      fun item hitem => hreceived item (List.mem_cons_of_mem _ hitem)
    have hkept := held_keep key rank items first (key last)
    by_cases hkey : key first = key last
    · rw [if_pos hkey] at hkept
      -- the reader keeps the first item or the one it had
      have hchoice : ∀ old, newer rank old first = old ∨ newer rank old first = first := by
        intro old
        unfold newer
        split
        · exact .inr rfl
        · exact .inl rfl
      have hfirst := hreceived first List.mem_cons_self hkey
      refine ih ?_ hrest ?_
      · by_cases hsame : first = last
        · right
          rw [hkept, hsame]
          cases hold : held key items (key last) with
          | none => rfl
          | some old =>
            rcases hheld old hold with rfl | hlt
            · simp [newer]
            · simp [newer, hlt]
        · rcases hlast with hmem | hold
          · exact .inl ((List.mem_cons.mp hmem).resolve_left fun h => hsame h.symm)
          · right
            have hlt := hfirst.resolve_left hsame
            rw [hkept, hold]
            simp [newer, not_lt_of_gt hlt]
      · intro item hitem
        rw [hkept, Option.some.injEq] at hitem
        cases hold : held key items (key last) with
        | none =>
          rw [hold] at hitem
          exact hitem ▸ hfirst
        | some old =>
          rw [hold, Option.elim_some] at hitem
          subst hitem
          rcases hchoice old with hkeeps | htakes
          · rw [hkeeps]
            exact hheld old hold
          · rw [htakes]
            exact hfirst
    · rw [if_neg hkey] at hkept
      refine ih ?_ hrest fun item hitem => hheld item (hkept ▸ hitem)
      rcases hlast with hmem | hold
      · exact .inl ((List.mem_cons.mp hmem).resolve_left fun h => hkey (h ▸ rfl))
      · exact .inr (hkept.trans hold)

/-! ### Holding the newest -/

omit [DecidableEq κ]

variable (key rank) in
/-- No received item of its key is newer. -/
structure IsNewest (received : List α) (item : α) : Prop where
  mem : item ∈ received
  newest : ∀ other ∈ received, key other = key item → rank other ≤ rank item

variable (key rank) in
/-- The newest of the received items, one for each key. -/
structure HoldsNewest (received kept : List α) : Prop where
  distinct : (kept.map key).Nodup
  mem_iff : ∀ item, item ∈ kept ↔ IsNewest key rank received item

variable (key rank) in
/-- The key and the rank of a received item determine it. -/
def Determined (received : List α) : Prop :=
  ∀ item ∈ received, ∀ other ∈ received, key item = key other → rank item = rank other → item = other

theorem exists_newest {received : List α} {item : α} (h : item ∈ received) :
    ∃ newest, IsNewest key rank received newest ∧ key newest = key item := by
  induction received generalizing item with
  | nil => exact absurd h List.not_mem_nil
  | cons first rest ih =>
    by_cases hrest : ∃ other ∈ rest, key other = key item
    · obtain ⟨other, hother, hkey⟩ := hrest
      obtain ⟨newest, hnewest, hnewest_key⟩ := ih hother
      by_cases hfirst : key first = key item ∧ rank newest < rank first
      · refine ⟨first, ⟨List.mem_cons_self, fun next hnext hnextkey => ?_⟩, hfirst.1⟩
        rcases List.mem_cons.mp hnext with rfl | hin
        · exact le_refl _
        · apply le_trans (hnewest.newest next hin _) (le_of_lt hfirst.2)
          rw [hnextkey, hfirst.1, hnewest_key, hkey]
      · refine ⟨newest, ⟨List.mem_cons_of_mem _ hnewest.mem, fun next hnext hnextkey => ?_⟩,
          hnewest_key.trans hkey⟩
        rcases List.mem_cons.mp hnext with rfl | hin
        · exact le_of_not_gt fun hlt =>
            hfirst ⟨hnextkey.trans (hnewest_key.trans hkey), hlt⟩
        · exact hnewest.newest next hin hnextkey
    · have hitem : first = item := by
        rcases List.mem_cons.mp h with rfl | hin
        · rfl
        · exact absurd ⟨item, hin, rfl⟩ hrest
      refine ⟨first, ⟨List.mem_cons_self, fun next hnext hkey => ?_⟩, congrArg key hitem⟩
      rcases List.mem_cons.mp hnext with rfl | hin
      · exact le_refl _
      · exact absurd ⟨next, hin, hitem ▸ hkey⟩ hrest

theorem HoldsNewest.nil : HoldsNewest key rank [] [] where
  distinct := List.nodup_nil
  mem_iff _ := ⟨fun h => absurd h List.not_mem_nil, fun h => absurd h.mem List.not_mem_nil⟩

theorem HoldsNewest.mem_received {received kept : List α} (h : HoldsNewest key rank received kept)
    {item : α} (hitem : item ∈ kept) : item ∈ received :=
  ((h.mem_iff item).mp hitem).mem

/-- Every key that was received is held. -/
theorem HoldsNewest.holds_key {received kept : List α} (h : HoldsNewest key rank received kept)
    {item : α} (hitem : item ∈ received) : ∃ held ∈ kept, key held = key item := by
  have hexists : ∃ newest, IsNewest key rank received newest ∧ key newest = key item :=
    exists_newest hitem
  obtain ⟨newest, hnewest, hkey⟩ := hexists
  exact ⟨newest, (h.mem_iff newest).mpr hnewest, hkey⟩

theorem IsNewest.congr {received received' : List α} (h : ∀ item, item ∈ received ↔ item ∈ received')
    {item : α} (hnewest : IsNewest key rank received item) : IsNewest key rank received' item where
  mem := (h item).mp hnewest.mem
  newest other hother := hnewest.newest other ((h other).mpr hother)

theorem HoldsNewest.congr {received received' kept : List α}
    (h : ∀ item, item ∈ received ↔ item ∈ received') (hkept : HoldsNewest key rank received kept) :
    HoldsNewest key rank received' kept where
  distinct := hkept.distinct
  mem_iff item := by
    rw [hkept.mem_iff]
    exact ⟨IsNewest.congr h, IsNewest.congr fun other => (h other).symm⟩

/-- What holds the newest is determined up to the order. -/
theorem HoldsNewest.perm {received kept kept' : List α} (h : HoldsNewest key rank received kept)
    (h' : HoldsNewest key rank received kept') : kept.Perm kept' := by
  apply (List.perm_ext_iff_of_nodup (List.Nodup.of_map _ h.distinct)
    (List.Nodup.of_map _ h'.distinct)).mpr
  intro item
  rw [h.mem_iff, h'.mem_iff]

theorem HoldsNewest.length_le {received kept : List α} (h : HoldsNewest key rank received kept) :
    kept.length ≤ received.length := by
  have hsub : kept ⊆ received := fun item hitem => h.mem_received hitem
  exact ((List.Nodup.of_map _ h.distinct).subperm hsub).length_le

/-- An item that is not newer than the one held for its key changes nothing. -/
theorem HoldsNewest.ignore {received kept : List α} {held item : α}
    (h : HoldsNewest key rank received kept) (hheld : held ∈ kept) (hkey : key held = key item)
    (hold : item = held ∨ rank item < rank held) : HoldsNewest key rank (received ++ [item]) kept where
  distinct := h.distinct
  mem_iff other := by
    rw [h.mem_iff]
    have hnewest := (h.mem_iff held).mp hheld
    have hle : rank item ≤ rank held := by
      rcases hold with rfl | hlt
      · exact le_refl _
      · exact le_of_lt hlt
    constructor
    · intro hother
      refine ⟨List.mem_append_left _ hother.mem, fun next hnext hnextkey => ?_⟩
      rcases List.mem_append.mp hnext with hin | hlast
      · exact hother.newest next hin hnextkey
      · obtain rfl := List.mem_singleton.mp hlast
        exact le_trans hle (hother.newest held hnewest.mem (hkey.trans hnextkey))
    · intro hother
      have hin : other ∈ received := by
        rcases List.mem_append.mp hother.mem with hin | hlast
        · exact hin
        · obtain rfl := List.mem_singleton.mp hlast
          rcases hold with rfl | hlt
          · exact hnewest.mem
          · have hge := hother.newest held (List.mem_append_left _ hnewest.mem) hkey
            exact absurd hlt (not_lt_of_ge hge)
      exact ⟨hin, fun next hnext => hother.newest next (List.mem_append_left _ hnext)⟩

/-- An item that no other of its key is newer than takes their place. -/
theorem HoldsNewest.replace {received kept kept' : List α} {item : α}
    (h : HoldsNewest key rank received kept) (hdistinct : (kept'.map key).Nodup)
    (hmem : ∀ other, other ∈ kept' ↔ other = item ∨ other ∈ kept ∧ key other ≠ key item)
    (hnew : ∀ other ∈ received, key other = key item → other = item ∨ rank other < rank item) :
    HoldsNewest key rank (received ++ [item]) kept' where
  distinct := hdistinct
  mem_iff other := by
    rw [hmem, h.mem_iff]
    constructor
    · rintro (rfl | ⟨hother, hne⟩)
      · refine ⟨List.mem_append_right _ List.mem_cons_self, fun next hnext hkey => ?_⟩
        rcases List.mem_append.mp hnext with hin | hlast
        · rcases hnew next hin hkey with rfl | hlt
          · exact le_refl _
          · exact le_of_lt hlt
        · exact le_of_eq (congrArg rank (List.mem_singleton.mp hlast))
      · refine ⟨List.mem_append_left _ hother.mem, fun next hnext hkey => ?_⟩
        rcases List.mem_append.mp hnext with hin | hlast
        · exact hother.newest next hin hkey
        · obtain rfl := List.mem_singleton.mp hlast
          exact absurd hkey.symm hne
    · intro hother
      rcases List.mem_append.mp hother.mem with hin | hlast
      · by_cases hkey : key other = key item
        · left
          have hge := hother.newest item (List.mem_append_right _ List.mem_cons_self) hkey.symm
          exact (hnew other hin hkey).resolve_right (not_lt_of_ge hge)
        · right
          refine ⟨⟨hin, fun next hnext => ?_⟩, hkey⟩
          exact hother.newest next (List.mem_append_left _ hnext)
      · exact .inl (List.mem_singleton.mp hlast)

end Newest
