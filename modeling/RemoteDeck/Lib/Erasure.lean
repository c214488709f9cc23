import Mathlib.Data.List.AList
import Mathlib.Data.List.Perm.Basic

/-! # Erasure from association lists

    What `lookup` finds after one key or a list of keys was erased, and how
    many entries are left, for association lists whose values all have one
    type.
-/

namespace AList

variable {κ β : Type*} [DecidableEq κ] {entries : AList fun _ : κ => β} {key gone : κ} {value : β}

/-- What is found after an erasure was there before. -/
theorem lookup_of_erase (h : (entries.erase gone).lookup key = some value) :
    entries.lookup key = some value := by
  by_cases hkey : key = gone
  · rw [hkey, lookup_erase] at h
    exact absurd h.symm (Option.some_ne_none value)
  · rwa [lookup_erase_ne hkey] at h

variable (entries) in
/-- Erase the keys of a list one after the other. -/
def eraseAll (keys : List κ) : AList fun _ : κ => β :=
  keys.foldl (fun entries gone => entries.erase gone) entries

theorem lookup_eraseAll_some {keys : List κ} (h : (entries.eraseAll keys).lookup key = some value) :
    entries.lookup key = some value := by
  induction keys generalizing entries with
  | nil => exact h
  | cons first keys ih => exact lookup_of_erase (ih h)

theorem lookup_eraseAll_of_mem {keys : List κ} (h : key ∈ keys) :
    (entries.eraseAll keys).lookup key = none := by
  induction keys generalizing entries with
  | nil => exact absurd h List.not_mem_nil
  | cons first keys ih =>
    show ((entries.erase first).eraseAll keys).lookup key = none
    rcases List.mem_cons.mp h with hfirst | hrest
    · -- It is gone after the first step, and later steps do not bring it back.
      cases hfound : ((entries.erase first).eraseAll keys).lookup key with
      | none => rfl
      | some value =>
        have hback := lookup_eraseAll_some hfound
        rw [hfirst, lookup_erase] at hback
        exact absurd hback.symm (Option.some_ne_none value)
    · exact ih hrest

theorem lookup_eraseAll_of_notMem {keys : List κ} (h : key ∉ keys) :
    (entries.eraseAll keys).lookup key = entries.lookup key := by
  induction keys generalizing entries with
  | nil => rfl
  | cons first keys ih =>
    rw [List.mem_cons, not_or] at h
    show ((entries.erase first).eraseAll keys).lookup key = _
    rw [ih h.2, lookup_erase_ne h.1]

/-- `HashMap::retain`: the entries that meet a condition. -/
def retain (entries : AList fun _ : κ => β) (keep : κ → β → Bool) : AList fun _ : κ => β where
  entries := entries.entries.filter fun item => keep item.1 item.2
  nodupKeys := entries.nodupKeys.sublist List.filter_sublist

theorem lookup_retain_some {keep : κ → β → Bool} :
    (entries.retain keep).lookup key = some value ↔
      entries.lookup key = some value ∧ keep key value = true := by
  rw [← Option.mem_def, ← Option.mem_def, mem_lookup_iff, mem_lookup_iff]
  show ⟨key, value⟩ ∈ entries.entries.filter (fun item => keep item.1 item.2) ↔ _
  rw [List.mem_filter]

omit [DecidableEq κ] in
variable (entries) in
theorem length_retain_le (keep : κ → β → Bool) :
    (entries.retain keep).entries.length ≤ entries.entries.length :=
  List.length_filter_le _ _

/-! ### Counting -/

/-- The entry of a key, and the others. -/
theorem perm_of_lookup (h : entries.lookup key = some value) :
    entries.entries.Perm (⟨key, value⟩ :: (entries.erase key).entries) := by
  have hmem : (⟨key, value⟩ : Sigma fun _ : κ => β) ∈ entries.entries := List.of_mem_dlookup h
  have hkey : key ∈ entries.entries.keys := List.mem_keys_of_mem hmem
  obtain ⟨other, before, after, _, hentries, herase⟩ := List.exists_of_kerase hkey
  have hother : other = value := by
    have hfound : entries.lookup key = some other := by
      apply List.mem_dlookup entries.nodupKeys
      rw [hentries]
      exact List.mem_append_right before List.mem_cons_self
    rw [h] at hfound
    exact (Option.some.inj hfound).symm
  show entries.entries.Perm (⟨key, value⟩ :: List.kerase key entries.entries)
  rw [herase, hentries, hother]
  exact List.perm_middle

theorem length_of_lookup (h : entries.lookup key = some value) :
    entries.entries.length = (entries.erase key).entries.length + 1 :=
  (perm_of_lookup h).length_eq

theorem countP_of_lookup (h : entries.lookup key = some value)
    (p : (Sigma fun _ : κ => β) → Bool) :
    entries.entries.countP p =
      (entries.erase key).entries.countP p + if p ⟨key, value⟩ = true then 1 else 0 := by
  rw [(perm_of_lookup h).countP_eq, List.countP_cons]

variable (entries key value) in
theorem entries_insert_erase :
    (entries.insert key value).entries = ⟨key, value⟩ :: (entries.erase key).entries := rfl

/-- An entry that is written again. -/
theorem length_insert_of_lookup {old : β} (h : entries.lookup key = some old) :
    (entries.insert key value).entries.length = entries.entries.length := by
  rw [entries_insert_erase, List.length_cons, length_of_lookup h]

variable (entries) in
theorem countP_erase_le (gone : κ) (p : (Sigma fun _ : κ => β) → Bool) :
    (entries.erase gone).entries.countP p ≤ entries.entries.countP p :=
  (List.kerase_sublist gone entries.entries).countP_le

variable (entries) in
theorem length_erase_le (gone : κ) : (entries.erase gone).entries.length ≤ entries.entries.length :=
  (List.kerase_sublist gone entries.entries).length_le

variable (entries) in
theorem length_insert_le (key : κ) (value : β) :
    (entries.insert key value).entries.length ≤ entries.entries.length + 1 := by
  rw [entries_insert_erase, List.length_cons]
  exact Nat.succ_le_succ (length_erase_le entries key)

variable (entries) in
theorem countP_eraseAll_le (keys : List κ) (p : (Sigma fun _ : κ => β) → Bool) :
    (entries.eraseAll keys).entries.countP p ≤ entries.entries.countP p := by
  induction keys generalizing entries with
  | nil => exact Nat.le_refl _
  | cons first keys ih => exact Nat.le_trans (ih (entries.erase first)) (countP_erase_le entries first p)

variable (entries) in
theorem length_eraseAll_le (keys : List κ) :
    (entries.eraseAll keys).entries.length ≤ entries.entries.length := by
  induction keys generalizing entries with
  | nil => exact Nat.le_refl _
  | cons first keys ih => exact Nat.le_trans (ih (entries.erase first)) (length_erase_le entries first)

/-! ### Sums -/

/-- The sum of a measure over the values. -/
def total (measure : β → Nat) (entries : AList fun _ : κ => β) : Nat :=
  (entries.entries.map fun item => measure item.2).foldr (· + ·) 0

theorem total_insert (measure : β → Nat) (entries : AList fun _ : κ => β) (key : κ) (value : β) :
    (entries.insert key value).total measure = measure value + (entries.erase key).total measure := rfl

theorem total_of_lookup (measure : β → Nat) (h : entries.lookup key = some value) :
    entries.total measure = measure value + (entries.erase key).total measure := by
  have hperm : (entries.entries.map fun item => measure item.2).Perm
      (measure value :: (entries.erase key).entries.map fun item => measure item.2) :=
    (perm_of_lookup h).map fun item => measure item.2
  unfold total
  rw [hperm.foldr_eq, List.foldr_cons]

theorem total_erase_of_none (measure : β → Nat) (h : entries.lookup key = none) :
    (entries.erase key).total measure = entries.total measure := by
  have hkey : key ∉ entries.entries.keys := lookup_eq_none.mp h
  show ((List.kerase key entries.entries).map fun item => measure item.2).foldr (· + ·) 0 = _
  rw [List.kerase_of_notMem_keys hkey]
  rfl

end AList
