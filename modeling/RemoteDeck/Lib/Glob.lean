import Mathlib.Data.List.Basic
import Mathlib.Data.List.Infix

/-! # Glob patterns

    A pattern is a list of symbols: `star` stands for any part of the value,
    `any` for one element, every other symbol for the elements it is the same
    as.

    This file defines:
    - `Stands may pattern value`: the value is what the symbols of the pattern
      stand for, one after the other; `may` says what a star may stand for in
      front of the rest of the value
    - `Matches`: a star may stand for anything
    - `Plainly`: a star that stands where the value has a star stands for this
      one element only

    A search that tries an equal element before a star finds the plain matches.
    It may remember the last star only: a later one overtakes nothing
    (`Stands.overtake`).
-/

namespace Glob

variable {α : Type} (star any : α) (same : α → α → Prop) (may : List α → List α → Prop)

inductive Stands : List α → List α → Prop
  | done : Stands [] []
  | star (part : List α) {pattern rest : List α} (hmay : may part rest)
      (h : Stands pattern rest) : Stands (star :: pattern) (part ++ rest)
  | one {symbol element : α} {pattern rest : List α} (hsymbol : symbol ≠ star)
      (hsame : symbol = any ∨ same symbol element) (h : Stands pattern rest) :
      Stands (symbol :: pattern) (element :: rest)

/-- The value matches the pattern. -/
def Matches : List α → List α → Prop := Stands star any same fun _ _ => True

/-- A star in front of a star of the value stands for that element only. -/
def Tame (part rest : List α) : Prop := (part ++ rest).head? = some star → part = [star]

/-- The value matches the pattern, and no star takes more or less than the star
    of the value that it meets. -/
def Plainly : List α → List α → Prop := Stands star any same (Tame star)

variable {star any same may}

theorem Stands.mono {may' : List α → List α → Prop} (hmay : ∀ part rest, may part rest → may' part rest)
    {pattern value : List α} (h : Stands star any same may pattern value) :
    Stands star any same may' pattern value := by
  induction h with
  | done => exact .done
  | star part hpart _ ih => exact .star part (hmay _ _ hpart) ih
  | one hsymbol hsame _ ih => exact .one hsymbol hsame ih

theorem Plainly.matches {pattern value : List α} (h : Plainly star any same pattern value) :
    Matches star any same pattern value :=
  h.mono fun _ _ _ => trivial

/-! ### One symbol -/

theorem not_nil_cons {element : α} {value : List α} :
    ¬ Stands star any same may [] (element :: value) := by
  intro h
  cases h

theorem one_iff {symbol element : α} {pattern value : List α} (hsymbol : symbol ≠ star) :
    Stands star any same may (symbol :: pattern) (element :: value) ↔
      (symbol = any ∨ same symbol element) ∧ Stands star any same may pattern value := by
  constructor
  · generalize hvalue : element :: value = whole
    intro h
    cases h with
    | star part hmay h => exact absurd rfl hsymbol
    | one _ hsame h =>
      obtain ⟨rfl, rfl⟩ := List.cons.inj hvalue
      exact ⟨hsame, h⟩
  · rintro ⟨hsame, h⟩
    exact .one hsymbol hsame h

/-- What a star and the rest of the pattern stand for. -/
theorem star_iff {pattern value : List α} :
    Stands star any same may (star :: pattern) value ↔
      ∃ part rest, value = part ++ rest ∧ may part rest ∧
        Stands star any same may pattern rest := by
  constructor
  · intro h
    cases h with
    | star part hmay h => exact ⟨part, _, rfl, hmay, h⟩
    | one hsymbol => exact absurd rfl hsymbol
  · rintro ⟨part, rest, rfl, hmay, h⟩
    exact .star part hmay h

/-- A star that meets a star. -/
theorem plainly_star_star {pattern value : List α} :
    Plainly star any same (star :: pattern) (star :: value) ↔ Plainly star any same pattern value := by
  unfold Plainly
  rw [star_iff]
  constructor
  · rintro ⟨part, rest, hvalue, htame, h⟩
    have hpart := htame (by rw [← hvalue]; rfl)
    subst hpart
    obtain ⟨-, rfl⟩ := List.cons.inj hvalue
    exact h
  · intro h
    exact ⟨[star], value, rfl, fun _ => rfl, h⟩

/-- A star that meets anything else stands for any part. -/
theorem plainly_star {pattern value : List α} (hvalue : value.head? ≠ some star) :
    Plainly star any same (star :: pattern) value ↔
      ∃ rest, rest <:+ value ∧ Plainly star any same pattern rest := by
  unfold Plainly
  rw [star_iff]
  constructor
  · rintro ⟨part, rest, rfl, -, h⟩
    exact ⟨rest, List.suffix_append _ _, h⟩
  · rintro ⟨rest, ⟨part, rfl⟩, h⟩
    exact ⟨part, rest, rfl, fun hhead => absurd hhead hvalue, h⟩

theorem plainly_nil {pattern : List α} :
    Plainly star any same pattern [] ↔ ∀ symbol ∈ pattern, symbol = star := by
  induction pattern with
  | nil => exact ⟨fun _ => List.forall_mem_nil _, fun _ => .done⟩
  | cons symbol pattern ih =>
    by_cases hsymbol : symbol = star
    · subst hsymbol
      rw [plainly_star (by simp), List.forall_mem_cons]
      simp [ih]
    · constructor
      · intro h
        generalize hvalue : ([] : List α) = value at h
        cases h with
        | star part hmay h => exact absurd rfl hsymbol
        | one => cases hvalue
      · intro h
        exact absurd (h symbol List.mem_cons_self) hsymbol

/-! ### Overtaking -/

variable (star any same) in
/-- Each symbol stands for one element, a star for a star. -/
def Equals : List α → List α → Prop :=
  List.Forall₂ fun symbol element =>
    (symbol = star → element = star) ∧ (symbol ≠ star → symbol = any ∨ same symbol element)

/-- Symbols that stand for one element each at the start of a value are not
    overtaken: from any later start, they take at least as much. -/
theorem Plainly.overtake {front part rest later pattern : List α}
    (hfront : Equals star any same front part) (hlater : later <:+ part ++ rest)
    (h : Plainly star any same (front ++ pattern) later) :
    ∃ last, last <:+ rest ∧ Plainly star any same pattern last := by
  induction hfront generalizing later with
  | nil => exact ⟨later, hlater, h⟩
  | @cons symbol element front part hsame hfront ih =>
    rw [List.cons_append, List.suffix_cons_iff] at hlater
    by_cases hsymbol : symbol = star
    · subst hsymbol
      rcases hlater with rfl | hlater
      · rw [hsame.1 rfl, List.cons_append, plainly_star_star] at h
        exact ih List.suffix_rfl h
      · obtain ⟨skipped, left, rfl, -, h⟩ := star_iff.mp h
        exact ih ((List.suffix_append _ _).trans hlater) h
    · cases later with
      | nil => exact absurd (plainly_nil.mp h symbol List.mem_cons_self) hsymbol
      | cons first later =>
        obtain ⟨-, h⟩ := (one_iff hsymbol).mp h
        refine ih ?_ h
        rcases hlater with hlater | hlater
        · rw [(List.cons.inj hlater).2]
        · exact (List.suffix_cons first later).trans hlater

end Glob
