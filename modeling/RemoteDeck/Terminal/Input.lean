import Mathlib.Data.Finset.Card
import Mathlib.Data.Finset.Filter
import RemoteDeck.Error
import RemoteDeck.Lib.Machine
import RemoteDeck.Terminal.Stream

/-! # Terminal input

    `TerminalInputState` of `session.rs`: who may write to a terminal.  Each
    call runs under the lock of the writer, so that the calls of all browsers
    are a sequence.  What the writer answers is an argument.

    A grant outdates all leases before it, so that there is at most one
    issued lease, the last one granted (`InputInv`).
-/

namespace Terminal

def MAX_CHUNK : Nat := 65536
def MAX_INPUT_LEASES : Nat := 64

@[ext]
structure TerminalInputState where
  active_lease : Option Nat
  issued_leases : Finset Nat
  next_lease : Nat

/-! ### Leases -/

def lease_after (lease : Nat) : Nat := max ((lease + 1) % (MAX_U64 + 1)) 1

/-- The first lease after one that is not issued.  Behind as many issued ones
    as there are, the next one is not issued. -/
def free_lease (issued : Finset Nat) : Nat → Nat → Nat
  | 0, lease => lease_after lease
  | left + 1, lease =>
      if lease_after lease ∈ issued then free_lease issued left (lease_after lease)
      else lease_after lease

def TerminalInputState.issue_lease (input : TerminalInputState) :
    AppResult Nat × TerminalInputState :=
  if input.issued_leases.card ≥ MAX_INPUT_LEASES then
    (.error (.Validation "at most 64 terminal input attachments are allowed".toList), input)
  else
    let lease := free_lease input.issued_leases input.issued_leases.card input.next_lease
    (.ok lease,
      { input with issued_leases := insert lease input.issued_leases, next_lease := lease })

def TerminalInputState.activate (input : TerminalInputState) (lease : Nat) :
    AppResult Unit × TerminalInputState :=
  if lease ∉ input.issued_leases then
    (.error (.Validation "terminal input lease is unknown or has been released".toList), input)
  else
    (.ok (),
      { input with
        active_lease := some lease
        issued_leases := input.issued_leases.filter fun candidate => candidate ≥ lease })

/-- Issue a lease and activate it. -/
def TerminalInputState.take (input : TerminalInputState) : AppResult Nat × TerminalInputState :=
  match input.issue_lease with
  | (.error error, input) => (.error error, input)
  | (.ok lease, input) =>
      match input.activate lease with
      | (.error error, input) => (.error error, input)
      | (.ok (), input) => (.ok lease, input)

def TerminalInputState.resume_lease (input : TerminalInputState) (previous_lease : Nat) :
    AppResult Nat × TerminalInputState :=
  if previous_lease = 0 ∨ input.next_lease ≠ previous_lease then
    (.error (.State "terminal input control moved".toList), input)
  else input.take

/-- The lease of an attachment. -/
def TerminalInputState.attach (input : TerminalInputState) (resume_from_lease : Option Nat) :
    AppResult Nat × TerminalInputState :=
  match resume_from_lease with
  | some previous_lease => input.resume_lease previous_lease
  | none => input.take

/-- `write`, with what the writer answers. -/
def TerminalInputState.write (input : TerminalInputState) (lease : Nat) (bytes : List UInt8)
    (answer : AppResult Unit) : AppResult Unit × TerminalInputState :=
  if bytes.length > MAX_CHUNK then
    (.error (.Validation "terminal input exceeds the 65536-byte limit".toList), input)
  else if input.active_lease ≠ some lease ∨ lease ∉ input.issued_leases then
    (.error (.Validation "terminal input lease has been superseded or released".toList), input)
  else (answer, input)

def TerminalInputState.release (input : TerminalInputState) (lease : Nat) : TerminalInputState :=
  { input with
    active_lease := if input.active_lease = some lease then none else input.active_lease
    issued_leases := input.issued_leases.erase lease }

/-! ### The calls of all browsers -/

/-- The input of a terminal, with the leases granted so far in their order and those of them
    that were released; no call reads these two. -/
structure InputHistory where
  input : TerminalInputState
  granted : List Nat
  released : List Nat

inductive InputCall where
  | attach (resume_from_lease : Option Nat)
  | write (lease : Nat) (bytes : List UInt8) (answer : AppResult Unit)
  | release (lease : Nat)

def InputHistory.next (history : InputHistory) : InputCall → Option InputHistory
  | .attach resume_from_lease =>
      let (result, input) := history.input.attach resume_from_lease
      some { history with input := input, granted := history.granted ++ result.toOption.toList }
  | .write lease bytes answer =>
      some { history with input := (history.input.write lease bytes answer).2 }
  | .release lease =>
      some { history with
        input := history.input.release lease
        released := if lease ∈ history.granted then lease :: history.released else history.released }

def terminal_input : Machine InputHistory InputCall where
  init := fun history => history = ⟨⟨none, ∅, 0⟩, [], []⟩
  next := InputHistory.next

/-! ### One lease at a time -/

variable {input : TerminalInputState} {history history' : InputHistory} {call : InputCall} {lease : Nat}

/-- The last lease granted is the active one and the only one issued, unless it was released. -/
structure InputInv (history : InputHistory) : Prop where
  granted : history.granted = List.range' 1 history.input.next_lease
  released_le : ∀ lease ∈ history.released, lease ≤ history.input.next_lease
  current : history.input.next_lease ∉ history.released → 0 < history.input.next_lease →
    history.input.active_lease = some history.input.next_lease ∧
      history.input.issued_leases = {history.input.next_lease}
  none_current : history.input.next_lease ∈ history.released ∨ history.input.next_lease = 0 →
    history.input.active_lease = none ∧ history.input.issued_leases = ∅

/-- No issued lease is ahead of the last one granted. -/
theorem InputInv.issued_le (h : InputInv history) (hlease : lease ∈ history.input.issued_leases) :
    lease = history.input.next_lease := by
  by_cases hcurrent : history.input.next_lease ∈ history.released ∨ history.input.next_lease = 0
  · rw [(h.none_current hcurrent).2] at hlease
    simp at hlease
  · rw [not_or] at hcurrent
    rw [(h.current hcurrent.1 (Nat.pos_of_ne_zero hcurrent.2)).2] at hlease
    exact Finset.mem_singleton.mp hlease

theorem InputInv.card_le (h : InputInv history) : history.input.issued_leases.card ≤ 1 := by
  have hsub : history.input.issued_leases ⊆ {history.input.next_lease} := by
    intro lease hlease
    exact Finset.mem_singleton.mpr (h.issued_le hlease)
  exact Finset.card_le_card hsub

/-- A grant is always possible, and outdates all other leases. -/
theorem InputInv.take (h : InputInv history) (hbound : history.input.next_lease < MAX_U64) :
    history.input.take = (.ok (history.input.next_lease + 1),
      ⟨some (history.input.next_lease + 1), {history.input.next_lease + 1},
        history.input.next_lease + 1⟩) := by
  have hafter : lease_after history.input.next_lease = history.input.next_lease + 1 := by
    have hwrap : (history.input.next_lease + 1) % (MAX_U64 + 1) = history.input.next_lease + 1 :=
      Nat.mod_eq_of_lt (by omega)
    rw [lease_after, hwrap]
    exact Nat.max_eq_left (Nat.le_add_left 1 _)
  have hfree : history.input.next_lease + 1 ∉ history.input.issued_leases := by
    intro hissued
    have hsame := h.issued_le hissued
    omega
  have hnext : free_lease history.input.issued_leases history.input.issued_leases.card
      history.input.next_lease = history.input.next_lease + 1 := by
    cases history.input.issued_leases.card with
    | zero => exact hafter
    | succ left => rw [free_lease, hafter, if_neg hfree]
  have hroom : ¬ history.input.issued_leases.card ≥ MAX_INPUT_LEASES := by
    have hcard := h.card_le
    have hlimit : 1 < MAX_INPUT_LEASES := by decide
    omega
  have hissue : history.input.issue_lease = (.ok (history.input.next_lease + 1),
      { history.input with
        issued_leases := insert (history.input.next_lease + 1) history.input.issued_leases
        next_lease := history.input.next_lease + 1 }) := by
    rw [TerminalInputState.issue_lease, if_neg hroom, hnext]
  have honly : (insert (history.input.next_lease + 1) history.input.issued_leases).filter
      (fun candidate => candidate ≥ history.input.next_lease + 1) = {history.input.next_lease + 1} := by
    ext candidate
    rw [Finset.mem_filter, Finset.mem_insert, Finset.mem_singleton]
    constructor
    · rintro ⟨rfl | hissued, hlast⟩
      · rfl
      · have hsame := h.issued_le hissued
        omega
    · rintro rfl
      exact ⟨.inl rfl, le_rfl⟩
  rw [TerminalInputState.take, hissue]
  simp only [TerminalInputState.activate, Finset.mem_insert_self, not_true_eq_false, if_false, honly]

/-- A failed grant changes nothing. -/
theorem take_error {error : AppError} {after : TerminalInputState}
    (h : input.take = (.error error, after)) : after = input := by
  unfold TerminalInputState.take TerminalInputState.issue_lease at h
  by_cases hfull : input.issued_leases.card ≥ MAX_INPUT_LEASES
  · rw [if_pos hfull] at h
    exact (Prod.mk.inj h).2.symm
  · rw [if_neg hfull] at h
    simp only [TerminalInputState.activate, Finset.mem_insert_self, not_true_eq_false, if_false] at h
    cases (Prod.mk.inj h).1

/-! ### Calls -/

/-- The grants stay 64-bit numbers. -/
def few_grants (history : InputHistory) : InputCall → Bool
  | .attach _ => history.input.next_lease < MAX_U64
  | _ => true

theorem InputInv.granted_last (h : InputInv history) (hpos : 0 < history.input.next_lease) :
    history.granted.getLast? = some history.input.next_lease := by
  obtain ⟨before, hbefore⟩ : ∃ before, history.input.next_lease = before + 1 :=
    ⟨history.input.next_lease - 1, by omega⟩
  rw [h.granted, hbefore, List.range'_concat]
  simp [Nat.add_comm]

theorem InputInv.last_iff (h : InputInv history) :
    history.granted.getLast? = some lease ↔
      0 < history.input.next_lease ∧ lease = history.input.next_lease := by
  by_cases hpos : 0 < history.input.next_lease
  · rw [h.granted_last hpos, Option.some.injEq]
    exact ⟨fun hsame => ⟨hpos, hsame.symm⟩, fun hsame => hsame.2.symm⟩
  · have hzero : history.input.next_lease = 0 := by omega
    rw [h.granted, hzero]
    simp

theorem InputInv.grant (h : InputInv history) :
    InputInv ⟨⟨some (history.input.next_lease + 1), {history.input.next_lease + 1},
      history.input.next_lease + 1⟩, history.granted ++ [history.input.next_lease + 1],
      history.released⟩ := by
  refine ⟨?_, fun lease hlease => ?_, fun _ _ => ⟨rfl, rfl⟩, ?_⟩
  · show history.granted ++ [history.input.next_lease + 1] = List.range' 1 (history.input.next_lease + 1)
    rw [h.granted, List.range'_concat]
    simp [Nat.add_comm]
  · exact (h.released_le lease hlease).trans (Nat.le_succ _)
  · rintro (hreleased | hzero)
    · have hle : history.input.next_lease + 1 ≤ history.input.next_lease := h.released_le _ hreleased
      omega
    · simp at hzero

/-- Releasing a lease that does not own the input changes nothing. -/
theorem InputInv.release_other (h : InputInv history)
    (hother : ¬ (history.granted.getLast? = some lease ∧ lease ∉ history.released)) :
    history.input.release lease = history.input := by
  by_cases hcurrent : history.input.next_lease ∈ history.released ∨ history.input.next_lease = 0
  · obtain ⟨hactive, hissued⟩ := h.none_current hcurrent
    simp [TerminalInputState.release, hactive, hissued, TerminalInputState.ext_iff]
  · rw [not_or] at hcurrent
    have hpos := Nat.pos_of_ne_zero hcurrent.2
    obtain ⟨hactive, hissued⟩ := h.current hcurrent.1 hpos
    have hne : lease ≠ history.input.next_lease := by
      rintro rfl
      exact hother ⟨h.granted_last hpos, hcurrent.1⟩
    have hne' : history.input.next_lease ≠ lease := hne.symm
    simp [TerminalInputState.release, hactive, hissued, TerminalInputState.ext_iff, hne, hne']

theorem InputInv.release (h : InputInv history) (lease : Nat) :
    InputInv { history with
      input := history.input.release lease
      released := if lease ∈ history.granted then lease :: history.released else history.released } := by
  have hle : ∀ other ∈ (if lease ∈ history.granted then lease :: history.released else history.released),
      other ≤ history.input.next_lease := by
    split
    case isTrue hgranted =>
      rw [h.granted, List.mem_range'_1] at hgranted
      exact List.forall_mem_cons.mpr ⟨by omega, h.released_le⟩
    case isFalse => exact h.released_le
  by_cases hlast : history.granted.getLast? = some lease ∧ lease ∉ history.released
  · -- the input has no owner any more
    obtain ⟨hpos, rfl⟩ := h.last_iff.mp hlast.1
    have hgranted : history.input.next_lease ∈ history.granted := List.mem_of_getLast? hlast.1
    obtain ⟨hactive, hissued⟩ := h.current hlast.2 hpos
    rw [if_pos hgranted] at hle ⊢
    refine ⟨h.granted, hle, fun hno => absurd List.mem_cons_self hno, fun _ => ?_⟩
    simp [TerminalInputState.release, hactive, hissued]
  · rw [h.release_other hlast]
    have hsame : history.input.next_lease ∈
        (if lease ∈ history.granted then lease :: history.released else history.released) ↔
          history.input.next_lease ∈ history.released := by
      split
      case isTrue hgranted =>
        rw [List.mem_cons, or_iff_right_iff_imp]
        rintro rfl
        rw [h.granted, List.mem_range'_1] at hgranted
        by_contra hheld
        exact hlast ⟨h.granted_last (by omega), hheld⟩
      case isFalse => exact Iff.rfl
    exact ⟨h.granted, hle, fun hno => h.current (mt hsame.mpr hno),
      fun hyes => h.none_current (hyes.imp_left hsame.mp)⟩

theorem inputInv_init (h : terminal_input.init history) : InputInv history := by
  obtain rfl := h
  exact ⟨rfl, by simp, fun _ hpos => absurd hpos (Nat.lt_irrefl 0), fun _ => ⟨rfl, rfl⟩⟩

theorem InputInv.step (h : InputInv history) (hok : few_grants history call = true)
    (hnext : terminal_input.next history call = some history') : InputInv history' := by
  cases call with
  | attach resume_from_lease =>
    have hgrant := h.take (of_decide_eq_true hok)
    have hsame : _ = history' := Option.some.inj hnext
    subst hsame
    cases resume_from_lease with
    | none =>
      simp only [hgrant]
      exact h.grant
    | some previous_lease =>
      simp only [TerminalInputState.resume_lease]
      split
      · simpa [Except.toOption] using h
      · rw [hgrant]
        exact h.grant
  | write lease bytes answer =>
    have hsame : _ = history' := Option.some.inj hnext
    subst hsame
    have hwrite : (history.input.write lease bytes answer).2 = history.input := by
      unfold TerminalInputState.write
      split
      · rfl
      · split <;> rfl
    rw [hwrite]
    exact h
  | release lease =>
    have hsame : _ = history' := Option.some.inj hnext
    subst hsame
    exact h.release lease

/-! ### The law -/

/-- Who may write, who may resume, and that nothing else changes anything. -/
structure LeaseLaw (history : InputHistory) : Prop where
  write : ∀ lease bytes, bytes.length ≤ MAX_CHUNK →
    ((history.input.write lease bytes (.ok ())).1 = .ok () ↔
      history.granted.getLast? = some lease ∧ lease ∉ history.released)
  resume : history.granted.length < MAX_U64 → ∀ lease ∈ history.granted,
    ((∃ new, (history.input.attach (some lease)).1 = .ok new) ↔ history.granted.getLast? = some lease)
  attach : history.granted.length < MAX_U64 → ∃ new, (history.input.attach none).1 = .ok new
  failed_attach : ∀ previous error after, history.input.attach previous = (.error error, after) →
    after = history.input
  failed_write : ∀ lease bytes answer error after,
    history.input.write lease bytes answer = (.error error, after) → after = history.input
  other_release : ∀ lease, ¬ (history.granted.getLast? = some lease ∧ lease ∉ history.released) →
    history.input.release lease = history.input

theorem InputInv.write_iff (h : InputInv history) {bytes : List UInt8} (hbytes : bytes.length ≤ MAX_CHUNK) :
    (history.input.write lease bytes (.ok ())).1 = .ok () ↔
      history.granted.getLast? = some lease ∧ lease ∉ history.released := by
  have hsize : ¬ bytes.length > MAX_CHUNK := not_lt.mpr hbytes
  have hwrite : (history.input.write lease bytes (.ok ())).1 = .ok () ↔
      history.input.active_lease = some lease ∧ lease ∈ history.input.issued_leases := by
    rw [TerminalInputState.write, if_neg hsize]
    by_cases hrefused : history.input.active_lease ≠ some lease ∨ lease ∉ history.input.issued_leases
    · rw [if_pos hrefused]
      refine iff_of_false (by simp) ?_
      rintro ⟨hactive, hissued⟩
      exact hrefused.elim (fun hno => hno hactive) fun hno => hno hissued
    · rw [if_neg hrefused]
      rw [not_or, not_not, not_not] at hrefused
      exact iff_of_true rfl hrefused
  rw [hwrite]
  by_cases hcurrent : history.input.next_lease ∈ history.released ∨ history.input.next_lease = 0
  · obtain ⟨hactive, _⟩ := h.none_current hcurrent
    refine iff_of_false (fun hno => by simp [hactive] at hno) ?_
    rintro ⟨hlast, hheld⟩
    obtain ⟨hpos, rfl⟩ := h.last_iff.mp hlast
    exact hcurrent.elim hheld (Nat.pos_iff_ne_zero.mp hpos)
  · rw [not_or] at hcurrent
    obtain ⟨hactive, hissued⟩ := h.current hcurrent.1 (Nat.pos_of_ne_zero hcurrent.2)
    rw [hactive, hissued, Option.some.injEq, Finset.mem_singleton]
    constructor
    · rintro ⟨rfl, _⟩
      exact ⟨h.granted_last (Nat.pos_of_ne_zero hcurrent.2), hcurrent.1⟩
    · rintro ⟨hlast, _⟩
      have hsame := (h.last_iff.mp hlast).2
      exact ⟨hsame.symm, hsame⟩

/-- **One writer**: the law of the leases holds after every sequence of calls. -/
theorem input_lease_law (hs : terminal_input.ReachableWhen (fun s l => few_grants s l = true) history) :
    LeaseLaw history := by
  have h : InputInv history :=
    hs.invariant (fun _ => inputInv_init) fun _ _ _ hinv hok hnext => hinv.step hok hnext
  have hlength : history.granted.length = history.input.next_lease := by
    rw [h.granted, List.length_range']
  refine ⟨fun lease bytes hbytes => h.write_iff hbytes, fun hfew lease hgranted => ?_, fun hfew => ?_, ?_,
    ?_, fun lease hother => h.release_other hother⟩
  · have hgrant := h.take (hlength ▸ hfew)
    rw [h.granted, List.mem_range'_1] at hgranted
    rw [h.last_iff, TerminalInputState.attach, TerminalInputState.resume_lease]
    split
    case isTrue hmoved => exact iff_of_false (by simp) (by omega)
    case isFalse hlast =>
      rw [hgrant]
      exact iff_of_true ⟨_, rfl⟩ (by omega)
  · exact ⟨_, congrArg Prod.fst (h.take (hlength ▸ hfew))⟩
  · intro previous error after hfail
    cases previous with
    | none => exact take_error hfail
    | some lease =>
      rw [TerminalInputState.attach, TerminalInputState.resume_lease] at hfail
      split at hfail
      · exact (Prod.mk.inj hfail).2.symm
      · exact take_error hfail
  · intro lease bytes answer error after hfail
    unfold TerminalInputState.write at hfail
    split at hfail
    · exact (Prod.mk.inj hfail).2.symm
    · split at hfail <;> exact (Prod.mk.inj hfail).2.symm

/-- A second browser takes over, and the first one cannot resume. -/
theorem takeover_lease_law :
    ∃ history, LeaseLaw history ∧ history.granted = [1, 2, 3] ∧ history.released = [1] := by
  have hreach : ∃ history,
      terminal_input.ReachableWhen (fun s l => few_grants s l = true) history ∧
        decide (history.granted = [1, 2, 3] ∧ history.released = [1]) = true :=
    Machine.reachable_of_replay few_grants (fun _ _ => id) rfl
      [.attach none, .release 1, .attach (some 1), .attach none, .attach (some 2), .write 3 [0x6c] (.ok ())]
      _ (by decide +kernel)
  obtain ⟨history, hs, hcalls⟩ := hreach
  exact ⟨history, input_lease_law hs, of_decide_eq_true hcalls⟩

end Terminal
