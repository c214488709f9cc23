import RemoteDeck.Lib.Text

/-! # Lists of a POSIX shell

    A script is a sequence of AND-OR lists.  The pipelines of an AND-OR list
    are joined by `&&` and `||`, which have equal precedence and associate to
    the left; each list ends in a separator, and one that ends in `&` runs in
    an environment of its own.

    This file defines:
    - `Script`, and `Script.trace`: the pipelines that a script starts, each
      with the environment it starts in
    - `Script.prepend`: a pipeline joined by `&&` to the start of a script
    - `Confined`: a script runs only when the pipeline before it succeeds, and
      then as it runs on its own
    - `IsWord`: the quoting of a word

    A pipeline is what the environment makes of it: it succeeds, it fails, or
    the shell ends there.  The results are about every such behaviour.
-/

namespace Shell

inductive Connective where
  | and_if
  | or_if
  deriving DecidableEq, Repr

/-- What a connective asks of the status of what precedes it. -/
def Connective.runs_after : Connective → Bool → Bool
  | .and_if, success => success
  | .or_if, success => !success

inductive Separator where
  | sequential
  | asynchronous
  deriving DecidableEq, Repr

/-- An AND-OR list: its first pipeline, and the others with what joins each to
    those before it. -/
structure AndOrList (π : Type) where
  first : π
  rest : List (Connective × π)

/-- An AND-OR list that is joined by `&&` only. -/
def AndOrList.IsAndList {π : Type} (list : AndOrList π) : Prop :=
  ∀ step ∈ list.rest, step.1 = .and_if

def AndOrList.prepend {π : Type} (p : π) (list : AndOrList π) : AndOrList π :=
  { first := p, rest := (.and_if, list.first) :: list.rest }

abbrev Script (π : Type) := List (AndOrList π × Separator)

/-- `p && ` before a script.  There is none before an empty one. -/
def Script.prepend {π : Type} (p : π) : Script π → Script π
  | [] => []
  | (list, separator) :: rest => (list.prepend p, separator) :: rest

/-- One AND-OR list at most, joined by `&&` only. -/
def Script.IsAndList {π : Type} (script : Script π) : Prop :=
  script.length ≤ 1 ∧ ∀ list ∈ script, list.1.IsAndList

/-! ### What runs -/

section
variable {π σ : Type} (exec : π → σ → Option (σ × Bool))

/-- The pipelines that start, and the environment and status at the end if
    the shell did not end before. -/
def run_steps : List (Connective × π) → σ → Bool → List (π × σ) × Option (σ × Bool)
  | [], s, success => ([], some (s, success))
  | (connective, p) :: rest, s, success =>
      if connective.runs_after success then
        match exec p s with
        | none => ([(p, s)], none)
        | some (s', success') =>
            ((p, s) :: (run_steps rest s' success').1, (run_steps rest s' success').2)
      else run_steps rest s success

def AndOrList.run (list : AndOrList π) (s : σ) : List (π × σ) × Option (σ × Bool) :=
  run_steps exec ((.and_if, list.first) :: list.rest) s true

def Script.trace : Script π → σ → List (π × σ)
  | [], _ => []
  | (list, .sequential) :: rest, s =>
      match (list.run exec s).2 with
      | none => (list.run exec s).1
      | some (s', _) => (list.run exec s).1 ++ Script.trace rest s'
  | (list, .asynchronous) :: rest, s => (list.run exec s).1 ++ Script.trace rest s

/-- After a pipeline, a script starts nothing unless the pipeline succeeded,
    and then what it starts on its own in the environment that the pipeline left. -/
def Confined (p : π) (composed script : Script π) (s : σ) : Prop :=
  (∀ started, (composed.trace exec s).head? = some started → started = (p, s)) ∧
    (composed.trace exec s).tail =
      match exec p s with
      | some (s', true) => script.trace exec s'
      | _ => []

/-! ### A pipeline before a script -/

variable {exec} {p : π} {s s' : σ}

theorem run_steps_failed {rest : List (Connective × π)} (h : ∀ step ∈ rest, step.1 = .and_if) :
    run_steps exec rest s false = ([], some (s, false)) := by
  induction rest with
  | nil => rfl
  | cons step rest ih =>
    obtain ⟨connective, q⟩ := step
    have hand : connective = .and_if := h (connective, q) List.mem_cons_self
    subst hand
    show run_steps exec rest s false = ([], some (s, false))
    exact ih fun step hstep => h step (List.mem_cons_of_mem _ hstep)

/-- Where the pipeline ends the shell, nothing follows. -/
theorem run_prepend_ended (list : AndOrList π) (h : exec p s = none) :
    (list.prepend p).run exec s = ([(p, s)], none) := by
  unfold AndOrList.run AndOrList.prepend
  simp only [run_steps, Connective.runs_after, if_true, h]

theorem run_prepend_failed (list : AndOrList π) (h : exec p s = some (s', false)) :
    (list.prepend p).run exec s =
      ((p, s) :: (run_steps exec list.rest s' false).1, (run_steps exec list.rest s' false).2) := by
  unfold AndOrList.run AndOrList.prepend
  simp only [run_steps, Connective.runs_after, if_true, h]
  rfl

theorem run_prepend_succeeded (list : AndOrList π) (h : exec p s = some (s', true)) :
    (list.prepend p).run exec s = ((p, s) :: (list.run exec s').1, (list.run exec s').2) := by
  unfold AndOrList.run AndOrList.prepend
  rw [run_steps]
  simp only [Connective.runs_after, if_true, h]

theorem trace_singleton (list : AndOrList π) (separator : Separator) :
    Script.trace exec [(list, separator)] s = (list.run exec s).1 := by
  cases separator with
  | sequential =>
    unfold Script.trace
    cases (list.run exec s).2 with
    | none => rfl
    | some result => exact List.append_nil _
  | asynchronous => exact List.append_nil _

/-- One list joined by `&&` is confined. -/
theorem confined_of_and_list {script : Script π} (h : script.IsAndList) :
    Confined exec p (script.prepend p) script s := by
  match script, h with
  | [], _ =>
    constructor
    · exact nofun
    · show [] = _
      split <;> rfl
  | [(list, separator)], ⟨_, hand⟩ =>
    have hlist : list.IsAndList := hand (list, separator) List.mem_cons_self
    have htrace : Script.trace exec (Script.prepend p [(list, separator)]) s =
        ((list.prepend p).run exec s).1 := trace_singleton (list.prepend p) separator
    unfold Confined
    rw [htrace]
    cases hexec : exec p s with
    | none =>
      rw [run_prepend_ended list hexec]
      exact ⟨fun started h => (Option.some.inj h).symm, rfl⟩
    | some result =>
      obtain ⟨s', success⟩ := result
      cases success with
      | false =>
        rw [run_prepend_failed list hexec, run_steps_failed hlist]
        exact ⟨fun started h => (Option.some.inj h).symm, rfl⟩
      | true =>
        rw [run_prepend_succeeded list hexec]
        exact ⟨fun started h => (Option.some.inj h).symm, (trace_singleton list separator).symm⟩

end

/-! ### Other scripts are not confined -/

section
variable {π : Type}

/-- Only the first pipeline fails. -/
def first_fails (_ : π) (n : Nat) : Option (Nat × Bool) := some (n + 1, n ≠ 0)

/-- What follows a failed pipeline by `||` starts. -/
theorem run_steps_or {rest : List (Connective × π)} {s : Nat}
    (h : (run_steps first_fails rest s false).1 = []) : ∀ step ∈ rest, step.1 = .and_if := by
  induction rest with
  | nil => exact nofun
  | cons step rest ih =>
    obtain ⟨connective, p⟩ := step
    cases connective with
    | and_if =>
      have hrest : (run_steps first_fails rest s false).1 = [] := h
      intro step hstep
      rcases List.mem_cons.mp hstep with rfl | hstep
      · rfl
      · exact ih hrest step hstep
    | or_if => cases h

theorem run_steps_goes_on (rest : List (Connective × π)) (s : Nat) (success : Bool) :
    ∃ result, (run_steps first_fails rest s success).2 = some result := by
  induction rest generalizing s success with
  | nil => exact ⟨(s, success), rfl⟩
  | cons step rest ih =>
    obtain ⟨connective, p⟩ := step
    unfold run_steps
    split
    · exact ih (s + 1) (s ≠ 0)
    · exact ih s success

theorem trace_cons_ne_nil (list : AndOrList π) (separator : Separator) (rest : Script π) (s : Nat) :
    Script.trace first_fails ((list, separator) :: rest) s ≠ [] := by
  have hrun : (list.run first_fails s).1 ≠ [] := by
    unfold AndOrList.run run_steps
    exact List.cons_ne_nil _ _
  cases separator with
  | sequential =>
    unfold Script.trace
    split
    · exact hrun
    · intro h
      exact hrun (List.append_eq_nil_iff.mp h).1
  | asynchronous =>
    intro h
    exact hrun (List.append_eq_nil_iff.mp h).1

theorem and_list_of_confined {p : π} {script : Script π}
    (h : Confined first_fails p (script.prepend p) script 0) : script.IsAndList := by
  cases script with
  | nil => exact ⟨Nat.zero_le 1, nofun⟩
  | cons head rest =>
    obtain ⟨list, separator⟩ := head
    have hfails : first_fails p 0 = some (1, false) := rfl
    have hrun := run_prepend_failed list hfails
    have htail : (Script.trace first_fails ((list.prepend p, separator) :: rest) 0).tail = [] := h.2
    -- the list that the pipeline joins, and the lists after it, start nothing
    have hparts : (run_steps first_fails list.rest 1 false).1 = [] ∧
        ∃ s, Script.trace first_fails rest s = [] := by
      cases separator with
      | sequential =>
        obtain ⟨result, hresult⟩ := run_steps_goes_on list.rest 1 false
        unfold Script.trace at htail
        rw [hrun, hresult] at htail
        have hboth := List.append_eq_nil_iff.mp htail
        exact ⟨hboth.1, result.1, hboth.2⟩
      | asynchronous =>
        unfold Script.trace at htail
        rw [hrun] at htail
        have hboth := List.append_eq_nil_iff.mp htail
        exact ⟨hboth.1, 0, hboth.2⟩
    obtain ⟨hsteps, s, hrest⟩ := hparts
    cases rest with
    | nil =>
      constructor
      · exact Nat.le_refl 1
      · intro item hitem
        obtain rfl := List.mem_singleton.mp hitem
        exact run_steps_or hsteps
    | cons next others => exact absurd hrest (trace_cons_ne_nil next.1 next.2 others s)

/-- A script is confined, whatever its pipelines do, exactly when it is one
    list joined by `&&`. -/
theorem confined_iff (p : π) (script : Script π) :
    (∀ (σ : Type) (exec : π → σ → Option (σ × Bool)) (s : σ),
      Confined exec p (script.prepend p) script s) ↔ script.IsAndList := by
  constructor
  · intro h
    exact and_list_of_confined (h Nat first_fails 0)
  · intro h σ exec s
    exact confined_of_and_list h

end

/-! ### Quoting -/

/-- A word, and what it expands to for each value of `HOME`: of text in single
    quotes, characters after a backslash, `"$HOME"`, letters, digits and slashes. -/
inductive IsWord : Text → (Text → Text) → Prop where
  | nil : IsWord [] (fun _ => [])
  | quoted {t w : Text} {f : Text → Text} (ht : '\'' ∉ t) (hw : IsWord w f) :
      IsWord ('\'' :: (t ++ '\'' :: w)) (fun home => t ++ f home)
  | escaped {c : Char} {w : Text} {f : Text → Text} (hc : c ≠ '\n') (hw : IsWord w f) :
      IsWord ('\\' :: c :: w) (fun home => c :: f home)
  | home {w : Text} {f : Text → Text} (hw : IsWord w f) :
      IsWord ("\"$HOME\"".toList ++ w) (fun home => home ++ f home)
  | plain {c : Char} {w : Text} {f : Text → Text} (hc : c.isAlphanum = true ∨ c = '/')
      (hw : IsWord w f) : IsWord (c :: w) (fun home => c :: f home)

end Shell
