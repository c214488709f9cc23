import RemoteDeck.Lib.Erasure

/-! # Single-use tickets

    A table of tickets, each with an owner and an instant at which it
    expires, beside the records of what was issued and what was used.  A
    ticket leaves the table when it is used, so no ticket is used twice, and
    none after its lifetime.

    This file defines:
    - `TicketInv`: the invariant between the table and the two records
    - the rules for the operations: to let time pass, to keep only some
      tickets, to drop one, to issue one and to use one
-/

variable {κ β δ : Type*} [DecidableEq κ]

/-- The table holds what was issued under a key of its own and not used. -/
structure TicketInv (expires : β → Nat) (owner : β → δ) (ttl now : Nat) (keys : List κ)
    (table : AList fun _ : κ => β) (issued used : List (κ × δ × Nat)) : Prop where
  key_known : ∀ key value, table.lookup key = some value → key ∈ keys
  was_issued : ∀ key value, table.lookup key = some value → ∃ instant,
    (key, owner value, instant) ∈ issued ∧ expires value = instant + ttl ∧ instant ≤ now
  unused : ∀ key value, table.lookup key = some value → ∀ use ∈ used, use.1 ≠ key
  used_known : ∀ use ∈ used, use.1 ∈ keys
  lifetime : ∀ use ∈ used, ∃ instant, (use.1, use.2.1, instant) ∈ issued ∧ instant ≤ use.2.2 ∧
    use.2.2 < instant + ttl
  once : (used.map Prod.fst).Nodup

namespace TicketInv

variable {expires : β → Nat} {owner : β → δ} {ttl now now' : Nat} {keys keys' : List κ}
variable {table table' : AList fun _ : κ => β} {issued used : List (κ × δ × Nat)} {key : κ} {value : β}

theorem empty : TicketInv expires owner ttl now keys ∅ [] [] where
  key_known := fun _ _ h => absurd h.symm (Option.some_ne_none _)
  was_issued := fun _ _ h => absurd h.symm (Option.some_ne_none _)
  unused := fun _ _ _ _ hmem => absurd hmem List.not_mem_nil
  used_known := fun _ hmem => absurd hmem List.not_mem_nil
  lifetime := fun _ hmem => absurd hmem List.not_mem_nil
  once := List.nodup_nil

/-- Time passes, and more keys become known. -/
theorem pass (h : TicketInv expires owner ttl now keys table issued used) (hnow : now ≤ now')
    (hknown : keys ⊆ keys') : TicketInv expires owner ttl now' keys' table issued used where
  key_known := fun key value hlookup => hknown (h.key_known key value hlookup)
  was_issued := by
    intro key value hlookup
    obtain ⟨instant, hmem, hexpires, hle⟩ := h.was_issued key value hlookup
    exact ⟨instant, hmem, hexpires, Nat.le_trans hle hnow⟩
  unused := h.unused
  used_known := fun use hmem => hknown (h.used_known use hmem)
  lifetime := h.lifetime
  once := h.once

/-- A table with fewer tickets. -/
theorem fewer (h : TicketInv expires owner ttl now keys table issued used)
    (hfewer : ∀ key value, table'.lookup key = some value → table.lookup key = some value) :
    TicketInv expires owner ttl now keys table' issued used where
  key_known := fun key value hlookup => h.key_known key value (hfewer key value hlookup)
  was_issued := fun key value hlookup => h.was_issued key value (hfewer key value hlookup)
  unused := fun key value hlookup => h.unused key value (hfewer key value hlookup)
  used_known := h.used_known
  lifetime := h.lifetime
  once := h.once

theorem retain (h : TicketInv expires owner ttl now keys table issued used) (keep : κ → β → Bool) :
    TicketInv expires owner ttl now keys (table.retain keep) issued used :=
  h.fewer fun _ _ hlookup => (AList.lookup_retain_some.mp hlookup).1

theorem drop (h : TicketInv expires owner ttl now keys table issued used) (key : κ) :
    TicketInv expires owner ttl now keys (table.erase key) issued used :=
  h.fewer fun _ _ hlookup => AList.lookup_of_erase hlookup

/-- A ticket of a new key. -/
theorem issue (h : TicketInv expires owner ttl now keys table issued used) (hfresh : key ∉ keys)
    (hexpires : expires value = now + ttl) :
    TicketInv expires owner ttl now (key :: keys) (table.insert key value)
      (issued ++ [(key, owner value, now)]) used where
  key_known := by
    intro other found hlookup
    by_cases hother : other = key
    · rw [hother]
      exact List.mem_cons_self
    · rw [AList.lookup_insert_ne hother] at hlookup
      exact List.mem_cons_of_mem key (h.key_known other found hlookup)
  was_issued := by
    intro other found hlookup
    by_cases hother : other = key
    · rw [hother, AList.lookup_insert] at hlookup
      obtain rfl := Option.some.inj hlookup
      rw [hother]
      exact ⟨now, List.mem_append_right issued List.mem_cons_self, hexpires, Nat.le_refl now⟩
    · rw [AList.lookup_insert_ne hother] at hlookup
      obtain ⟨instant, hmem, hrest⟩ := h.was_issued other found hlookup
      exact ⟨instant, List.mem_append_left _ hmem, hrest⟩
  unused := by
    intro other found hlookup use hmem
    by_cases hother : other = key
    · -- a used key is known
      intro hsame
      apply hfresh
      rw [← hother, ← hsame]
      exact h.used_known use hmem
    · rw [AList.lookup_insert_ne hother] at hlookup
      exact h.unused other found hlookup use hmem
  used_known := fun use hmem => List.mem_cons_of_mem key (h.used_known use hmem)
  lifetime := by
    intro use hmem
    obtain ⟨instant, hissued, hrest⟩ := h.lifetime use hmem
    exact ⟨instant, List.mem_append_left _ hissued, hrest⟩
  once := h.once

/-- A ticket of the table is used before it expires. -/
theorem use (h : TicketInv expires owner ttl now keys table issued used)
    (hlookup : table.lookup key = some value) (hlive : now < expires value) :
    TicketInv expires owner ttl now keys (table.erase key) issued
      (used ++ [(key, owner value, now)]) where
  key_known := (h.drop key).key_known
  was_issued := (h.drop key).was_issued
  unused := by
    intro other found hfound use hmem
    rcases List.mem_append.mp hmem with hold | hnew
    · exact (h.drop key).unused other found hfound use hold
    · rw [List.mem_singleton.mp hnew]
      intro hsame
      rw [← hsame, AList.lookup_erase] at hfound
      exact absurd hfound.symm (Option.some_ne_none found)
  used_known := by
    intro use hmem
    rcases List.mem_append.mp hmem with hold | hnew
    · exact h.used_known use hold
    · rw [List.mem_singleton.mp hnew]
      exact h.key_known key value hlookup
  lifetime := by
    intro use hmem
    rcases List.mem_append.mp hmem with hold | hnew
    · exact h.lifetime use hold
    · obtain ⟨instant, hissued, hexpires, hle⟩ := h.was_issued key value hlookup
      rw [List.mem_singleton.mp hnew]
      rw [hexpires] at hlive
      exact ⟨instant, hissued, hle, hlive⟩
  once := by
    rw [List.map_append, List.nodup_append]
    refine ⟨h.once, List.nodup_singleton _, ?_⟩
    intro earlier hearlier last hlast
    obtain ⟨use, hmem, rfl⟩ := List.mem_map.mp hearlier
    rw [List.mem_singleton.mp hlast]
    exact h.unused key value hlookup use hmem

end TicketInv
