/-! # Traced computations

    A computation that asks an environment for answers, records every answer,
    and fails at the first error.  The environment may know everything that
    was recorded before.

    This file defines:
    - `Traced`: a trace goes in, a longer trace and an outcome come out
    - `Traced.lift`, `Traced.ask`: the primitive computations
    - `Traced.Ensures`: what holds of the trace at the end, however it ends,
      and what holds of it after a success

    The rules follow the shape of a computation; `bind_ok` runs one forward.
-/

/-- A computation over a trace of `ω`. -/
structure Traced (ω ε α : Type) where
  run : List ω → List ω × Except ε α

namespace Traced

variable {ω ε α β : Type}

def bind (x : Traced ω ε α) (f : α → Traced ω ε β) : Traced ω ε β where
  run trace :=
    match x.run trace with
    | (trace, .ok a) => (f a).run trace
    | (trace, .error e) => (trace, .error e)

/-- An outcome that needs no answer. -/
def lift (x : Except ε α) : Traced ω ε α where
  run trace := (trace, x)

/-- Ask for an answer and record it. -/
def ask (answer : List ω → Except ε α) (record : Except ε α → ω) : Traced ω ε α where
  run trace := (trace ++ [record (answer trace)], answer trace)

instance : Monad (Traced ω ε) where
  pure a := lift (.ok a)
  bind := Traced.bind

/-! ### Running forward -/

theorem bind_ok {x : Traced ω ε α} {f : α → Traced ω ε β} {trace trace' : List ω} {a : α}
    (h : x.run trace = (trace', .ok a)) : (x >>= f).run trace = (f a).run trace' := by
  show (x.bind f).run trace = (f a).run trace'
  unfold bind
  dsimp only
  rw [h]

theorem lift_ok {x : Except ε α} {a : α} (h : x = .ok a) (trace : List ω) :
    (lift x : Traced ω ε α).run trace = (trace, .ok a) := by
  rw [h]
  rfl

/-! ### What is ensured -/

/-- From a trace with `before`, every end has `always`, and a success has `after`. -/
def Ensures (before : List ω → Prop) (x : Traced ω ε α) (always : List ω → Prop)
    (after : α → List ω → Prop) : Prop :=
  ∀ trace, before trace →
    always (x.run trace).1 ∧ ∀ a, (x.run trace).2 = .ok a → after a (x.run trace).1

variable {before always : List ω → Prop} {mid : α → List ω → Prop} {after : β → List ω → Prop}

theorem Ensures.bind {x : Traced ω ε α} {f : α → Traced ω ε β}
    (hx : Ensures before x always mid) (hf : ∀ a, Ensures (mid a) (f a) always after) :
    Ensures before (x >>= f) always after := by
  intro trace hbefore
  obtain ⟨halways, hmid⟩ := hx trace hbefore
  show always ((x.bind f).run trace).1 ∧
    ∀ b, ((x.bind f).run trace).2 = .ok b → after b ((x.bind f).run trace).1
  unfold Traced.bind
  dsimp only
  generalize x.run trace = outcome at halways hmid
  obtain ⟨trace', _ | a⟩ := outcome
  · exact ⟨halways, fun b hb => nomatch hb⟩
  · exact hf a trace' (hmid a rfl)

theorem Ensures.lift {x : Except ε α} (halways : ∀ trace, before trace → always trace)
    (hmid : ∀ trace a, before trace → x = .ok a → mid a trace) :
    Ensures before (Traced.lift x) always mid :=
  fun trace hbefore => ⟨halways trace hbefore, fun a ha => hmid trace a hbefore ha⟩

theorem Ensures.ask {answer : List ω → Except ε α} {record : Except ε α → ω}
    (halways : ∀ trace, before trace → always (trace ++ [record (answer trace)]))
    (hmid : ∀ trace a, before trace → answer trace = .ok a → mid a (trace ++ [record (.ok a)])) :
    Ensures before (Traced.ask answer record) always mid := by
  intro trace hbefore
  refine ⟨halways trace hbefore, fun a ha => ?_⟩
  have hanswer : answer trace = .ok a := ha
  show mid a (trace ++ [record (answer trace)])
  rw [hanswer]
  exact hmid trace a hbefore hanswer

/-- What comes out of an outcome is known to what follows. -/
theorem Ensures.lift_bind {x : Except ε α} {f : α → Traced ω ε β}
    (halways : ∀ trace, before trace → always trace)
    (hf : ∀ a, x = .ok a → Ensures before (f a) always after) :
    Ensures before (Traced.lift x >>= f) always after := by
  intro trace hbefore
  cases x with
  | error e => exact ⟨halways trace hbefore, fun b hb => nomatch hb⟩
  | ok a => exact hf a rfl trace hbefore

theorem Ensures.mono {before' always' : List ω → Prop} {mid' : α → List ω → Prop}
    {x : Traced ω ε α} (h : Ensures before x always mid)
    (hbefore : ∀ trace, before' trace → before trace) (halways : ∀ trace, always trace → always' trace)
    (hmid : ∀ a trace, mid a trace → mid' a trace) : Ensures before' x always' mid' := by
  intro trace htrace
  obtain ⟨hx, ha⟩ := h trace (hbefore trace htrace)
  exact ⟨halways _ hx, fun a hok => hmid a _ (ha a hok)⟩

end Traced
