import Mathlib.Data.List.Infix

/-! # Lexical resolution of paths

    A path is resolved from left to right, component by component, without
    looking at any file: a component stays where the path is, goes up, or goes
    down to a name.

    This file defines:
    - `Move`: what a component does
    - `resolve`: the place below the start that moves lead to, or none when
      they lead above it
    - `walk`: the same moves in a tree, from any directory of it
    - `depth`: a counter in place of the names

    Where `resolve` has a result, the walk never leaves the directory that it
    starts from (`walk_suffix`, `walk_resolve`), and the counter is the number
    of names (`depth_resolve`).
-/

namespace Lexical

variable {Name : Type}

inductive Move (Name : Type) where
  | stay
  | up
  | down (name : Name)
  deriving DecidableEq

/-! ### Resolution -/

/-- The names below the start, the last one first. -/
def resolve : List Name → List (Move Name) → Option (List Name)
  | place, [] => some place
  | place, .stay :: moves => resolve place moves
  | [], .up :: _ => none
  | _ :: place, .up :: moves => resolve place moves
  | place, .down name :: moves => resolve (name :: place) moves

/-- Nothing is above the root of a tree. -/
def walk : List Name → List (Move Name) → List Name
  | here, [] => here
  | here, .stay :: moves => walk here moves
  | here, .up :: moves => walk here.tail moves
  | here, .down name :: moves => walk (name :: here) moves

def depth : Nat → List (Move Name) → Option Nat
  | depth, [] => some depth
  | level, .stay :: moves => depth level moves
  | 0, .up :: _ => none
  | level + 1, .up :: moves => depth level moves
  | level, .down _ :: moves => depth (level + 1) moves

variable {place place' : List Name} {moves moves' : List (Move Name)}

theorem resolve_append (place : List Name) (moves moves' : List (Move Name)) :
    resolve place (moves ++ moves') = (resolve place moves).bind fun place => resolve place moves' := by
  induction moves generalizing place with
  | nil => rfl
  | cons move moves ih =>
    cases move with
    | stay => exact ih place
    | down name => exact ih (name :: place)
    | up =>
      cases place with
      | nil => rfl
      | cons name place => exact ih place

/-- Where the moves have a place, every part of them has one. -/
theorem resolve_front {front : List (Move Name)} (hfront : front <+: moves)
    (h : resolve place moves = some place') : ∃ middle, resolve place front = some middle := by
  obtain ⟨rest, rfl⟩ := hfront
  rw [resolve_append] at h
  obtain ⟨middle, hmiddle, -⟩ := Option.bind_eq_some_iff.mp h
  exact ⟨middle, hmiddle⟩

/-- The names of a place are names that the path goes down to. -/
theorem mem_of_resolve (h : resolve place moves = some place') {name : Name} (hname : name ∈ place') :
    name ∈ place ∨ .down name ∈ moves := by
  induction moves generalizing place with
  | nil =>
    obtain rfl := Option.some.inj h
    exact .inl hname
  | cons move moves ih =>
    cases move with
    | stay => exact (ih h).imp id (List.mem_cons_of_mem _)
    | down below =>
      rcases ih h with hmem | hmem
      · rcases List.mem_cons.mp hmem with rfl | hmem
        · exact .inr List.mem_cons_self
        · exact .inl hmem
      · exact .inr (List.mem_cons_of_mem _ hmem)
    | up =>
      cases place with
      | nil => cases h
      | cons above place => exact (ih h).imp (List.mem_cons_of_mem _) (List.mem_cons_of_mem _)

/-- A path of names leads to its names. -/
theorem resolve_names (place names : List Name) :
    resolve place (names.map .down) = some (names.reverse ++ place) := by
  induction names generalizing place with
  | nil => rfl
  | cons name names ih =>
    rw [List.map_cons, resolve, ih, List.reverse_cons, List.append_assoc, List.singleton_append]

/-! ### Counting -/

/-- The counter is the number of names. -/
theorem depth_resolve (place : List Name) (moves : List (Move Name)) :
    depth place.length moves = (resolve place moves).map List.length := by
  induction moves generalizing place with
  | nil => rfl
  | cons move moves ih =>
    cases move with
    | stay => exact ih place
    | down name => exact ih (name :: place)
    | up =>
      cases place with
      | nil => rfl
      | cons name place => exact ih place

/-! ### Walks -/

/-- From any directory the walk ends where the path is resolved to. -/
theorem walk_resolve (base : List Name) (h : resolve place moves = some place') :
    walk (place ++ base) moves = place' ++ base := by
  induction moves generalizing place with
  | nil =>
    obtain rfl := Option.some.inj h
    rfl
  | cons move moves ih =>
    cases move with
    | stay => exact ih h
    | down name => exact ih h
    | up =>
      cases place with
      | nil => cases h
      | cons name place => exact ih h

/-- On the way it never leaves the directory. -/
theorem walk_suffix (base : List Name) {front : List (Move Name)} (hfront : front <+: moves)
    (h : resolve [] moves = some place') : base <:+ walk base front := by
  obtain ⟨middle, hmiddle⟩ := resolve_front hfront h
  exact ⟨middle, (walk_resolve base hmiddle).symm⟩

end Lexical
