import RemoteDeck.Lib.Text

/-! # Errors

    `AppError` and `AppResult` of `error.rs`.  Errors that wrap one of a
    library (`Io`, `Json`, `Archive`) carry that error's display text.
-/

inductive AppError where
  | Io (message : Text)
  | State (message : Text)
  | Validation (message : Text)
  | NotFound (message : Text)
  | MissingExecutable (message : Text)
  | Process (message : Text)
  | ProcessCleanup (message : Text)
  | Cancelled
  | Timeout (message : Text)
  | Json (message : Text)
  | Archive (message : Text)
  deriving DecidableEq, Repr

/-- The `Display` text of an error. -/
def AppError.to_string : AppError → Text
  | .Io message => "I/O error: ".toList ++ message
  | .State message => "state error: ".toList ++ message
  | .Validation message => "invalid input: ".toList ++ message
  | .NotFound message => "not found: ".toList ++ message
  | .MissingExecutable message => "required executable is unavailable: ".toList ++ message
  | .Process message => "process failed: ".toList ++ message
  | .ProcessCleanup message => "process cleanup failed: ".toList ++ message
  | .Cancelled => "operation cancelled".toList
  | .Timeout message => "operation timed out: ".toList ++ message
  | .Json message => "serialization error: ".toList ++ message
  | .Archive message => "archive error: ".toList ++ message

abbrev AppResult (α : Type) := Except AppError α

namespace Outcome

variable {ε α β : Type}

/-! ### Sequencing -/

/-- A sequence of two fallible steps succeeds when both do. -/
theorem bind_eq_ok {x : Except ε α} {f : α → Except ε β} {b : β} :
    (x >>= f) = .ok b ↔ ∃ a, x = .ok a ∧ f a = .ok b := by
  cases x with
  | error e => simp [bind, Except.bind]
  | ok a => simp [bind, Except.bind]

/-- It fails when the first does, or the second after the first succeeded. -/
theorem bind_eq_error {x : Except ε α} {f : α → Except ε β} {e : ε} :
    (x >>= f) = .error e ↔ x = .error e ∨ ∃ a, x = .ok a ∧ f a = .error e := by
  cases x with
  | error e' => simp [bind, Except.bind]
  | ok a => simp [bind, Except.bind]

@[simp] theorem ok_bind (a : α) (f : α → Except ε β) : ((.ok a : Except ε α) >>= f) = f a := rfl

/-- A first step that succeeds with one value, under a condition, leaves the
    condition and the second step. -/
theorem bind_checked {x : Except ε α} {f : α → Except ε β} {P : Prop} {a : α} {b : β}
    (hx : ∀ a', x = .ok a' ↔ P ∧ a' = a) : (x >>= f) = .ok b ↔ P ∧ f a = .ok b := by
  rw [bind_eq_ok]
  constructor
  · intro ⟨a', ha', hb⟩
    obtain ⟨hP, rfl⟩ := (hx a').mp ha'
    exact ⟨hP, hb⟩
  · intro ⟨hP, hb⟩
    exact ⟨a, (hx a).mpr ⟨hP, rfl⟩, hb⟩

/-- A guard that fails with an error lets the success through. -/
@[simp] theorem ite_error_eq_ok {c : Prop} [Decidable c] {e : ε} {x : Except ε α} {a : α} :
    (if c then .error e else x) = .ok a ↔ ¬ c ∧ x = .ok a := by
  by_cases hc : c <;> simp [hc]

@[simp] theorem mapError_eq_ok {ε' : Type} {x : Except ε α} {f : ε → ε'} {a : α} :
    x.mapError f = .ok a ↔ x = .ok a := by
  cases x <;> simp [Except.mapError]

/-- Where a step succeeds exactly on the elements with a property, it succeeds
    on a list exactly if all its elements have it. -/
theorem mapM_map_eq_ok {γ : Type} {f : α → β} {g : β → Except ε γ} {P : α → Prop} {h : α → γ}
    (hstep : ∀ x y, g (f x) = .ok y ↔ P x ∧ y = h x) (xs : List α) (ys : List γ) :
    (xs.map f).mapM g = .ok ys ↔ (∀ x ∈ xs, P x) ∧ ys = xs.map h := by
  induction xs generalizing ys with
  | nil =>
    show (Except.ok [] : Except ε (List γ)) = .ok ys ↔ _
    simp [eq_comm]
  | cons x xs ih =>
    rw [List.map_cons, List.mapM_cons, bind_eq_ok, List.forall_mem_cons, List.map_cons]
    constructor
    · intro ⟨y, hy, hrest⟩
      obtain ⟨more, hmore, hys⟩ := bind_eq_ok.mp hrest
      obtain ⟨hx, rfl⟩ := (hstep x y).mp hy
      obtain ⟨hxs, rfl⟩ := (ih more).mp hmore
      exact ⟨⟨hx, hxs⟩, (Except.ok.inj hys).symm⟩
    · intro ⟨⟨hx, hxs⟩, hys⟩
      have hmore := (ih (xs.map h)).mpr ⟨hxs, rfl⟩
      exact ⟨h x, (hstep x (h x)).mpr ⟨hx, rfl⟩, bind_eq_ok.mpr ⟨_, hmore, congrArg _ hys.symm⟩⟩

/-! ### Checking the elements of a list against the ones before them -/

/-- Check every element of a list, given the elements before it. -/
def check_each (check : List α → α → Except ε Unit) (earlier : List α) :
    List α → Except ε Unit
  | [] => .ok ()
  | x :: xs => do
      check earlier x
      check_each check (earlier ++ [x]) xs

variable {check : List α → α → Except ε Unit} {earlier xs : List α}

/-- Elements that are left out fail no check, if a check that succeeds also
    succeeds with fewer elements before. -/
theorem check_each_filter {check' : List α → α → Except ε Unit} {keep : α → Bool}
    (hcheck : ∀ earlier earlier' x, earlier' ⊆ earlier → keep x = true →
      check earlier x = .ok () → check' earlier' x = .ok ())
    {earlier' : List α} (hsub : earlier' ⊆ earlier) (h : check_each check earlier xs = .ok ()) :
    check_each check' earlier' (xs.filter keep) = .ok () := by
  induction xs generalizing earlier earlier' with
  | nil => rfl
  | cons x xs ih =>
    obtain ⟨_, hx, hxs⟩ := bind_eq_ok.mp h
    by_cases hkeep : keep x = true
    · rw [List.filter_cons_of_pos hkeep]
      have hrest : earlier' ++ [x] ⊆ earlier ++ [x] :=
        List.append_subset.mpr ⟨List.subset_append_of_subset_left [x] hsub,
        List.subset_append_right earlier [x]⟩
      exact bind_eq_ok.mpr ⟨(), hcheck _ _ x hsub hkeep hx, ih hrest hxs⟩
    · rw [List.filter_cons_of_neg hkeep]
      exact ih (List.subset_append_of_subset_left [x] hsub) hxs

/-- Where a check is about an element and its relation to those before it,
    checking all of a list is about each element and each pair. -/
theorem check_each_iff {P : α → Prop} {R : α → α → Prop}
    (hcheck : ∀ earlier x, check earlier x = .ok () ↔ P x ∧ ∀ y ∈ earlier, R y x)
    (earlier xs : List α) :
    check_each check earlier xs = .ok () ↔
      (∀ x ∈ xs, P x) ∧ (∀ y ∈ earlier, ∀ x ∈ xs, R y x) ∧ xs.Pairwise R := by
  induction xs generalizing earlier with
  | nil => simp [check_each]
  | cons x xs ih =>
    have hstep : check_each check earlier (x :: xs) = .ok () ↔
        check earlier x = .ok () ∧ check_each check (earlier ++ [x]) xs = .ok () := by
      show (check earlier x >>= fun _ => check_each check (earlier ++ [x]) xs) = .ok () ↔ _
      rw [bind_eq_ok]
      exact ⟨fun ⟨_, hx, hxs⟩ => ⟨hx, hxs⟩, fun ⟨hx, hxs⟩ => ⟨(), hx, hxs⟩⟩
    have hbefore : (∀ y ∈ earlier, ∀ z ∈ x :: xs, R y z) ↔
        (∀ y ∈ earlier, R y x) ∧ ∀ y ∈ earlier, ∀ z ∈ xs, R y z := by
      simp only [List.forall_mem_cons, forall_and]
    rw [hstep, hcheck, ih, List.forall_mem_cons, List.pairwise_cons, hbefore,
      List.forall_mem_append, List.forall_mem_singleton]
    tauto

end Outcome

/-- `Option::ok_or_else`. -/
def Option.ok_or {ε α : Type} (o : Option α) (e : ε) : Except ε α :=
  match o with
  | some a => .ok a
  | none => .error e

@[simp] theorem Option.ok_or_eq_ok {ε α : Type} {o : Option α} {e : ε} {a : α} :
    o.ok_or e = .ok a ↔ o = some a := by
  cases o <;> simp [Option.ok_or]

/-- The decimal text of a number. -/
def Nat.text (n : Nat) : Text := Nat.toDigits 10 n

theorem Nat.isDigit_of_mem_text {n : Nat} {c : Char} (h : c ∈ n.text) : c.isDigit = true :=
  Nat.isDigit_of_mem_toDigits (by decide) (by decide) h

theorem Nat.text_inj {m n : Nat} (h : m.text = n.text) : m = n := by
  unfold Nat.text at h
  rw [← Nat.ofDigitChars_ten_toDigits (n := m), h, Nat.ofDigitChars_ten_toDigits]
