import RemoteDeck.Command.Output

/-! # UTF-8 in pieces

    What `std::str::from_utf8` says of bytes that are not UTF-8, and what a
    lossy decoding of two pieces has to do with the decoding of both at once.

    This file defines:
    - `sequence`: how some bytes begin
    - `from_utf8`, with `valid_up_to` and `error_len` of its error
    - `Closed`: bytes that no later byte can be added to
-/

namespace Command

/-- How some bytes begin: with a character, with bytes that no character begins
    with, or with a character whose last bytes are missing. -/
inductive Sequence where
  | character (c : Char) (width : Nat)
  | broken (len : Nat)
  | unfinished
  deriving DecidableEq, Repr

def sequence (first : UInt8) (rest : List UInt8) : Sequence :=
  if first < 0x80 then .character (Char.ofNat first.toNat) 1
  else if 0xC2 ≤ first && first ≤ 0xDF then
    match rest with
    | [] => .unfinished
    | second :: _ =>
        if is_continuation second then .character (decode_two first second) 2 else .broken 1
  else if 0xE0 ≤ first && first ≤ 0xEF then
    match rest with
    | [] => .unfinished
    | second :: rest =>
        if second_of_three first second then
          match rest with
          | [] => .unfinished
          | third :: _ =>
              if is_continuation third then .character (decode_three first second third) 3
              else .broken 2
        else .broken 1
  else if 0xF0 ≤ first && first ≤ 0xF4 then
    match rest with
    | [] => .unfinished
    | second :: rest =>
        if second_of_four first second then
          match rest with
          | [] => .unfinished
          | third :: rest =>
              if is_continuation third then
                match rest with
                | [] => .unfinished
                | fourth :: _ =>
                    if is_continuation fourth then
                      .character (decode_four first second third fourth) 4
                    else .broken 3
              else .broken 2
        else .broken 1
  else .broken 1

/-- What a sequence says of the first character and of the bytes it takes. -/
def Sequence.Reads (result : Sequence) (first : UInt8) (rest : List UInt8) : Prop :=
  match result with
  | .character c width =>
      decode_first first rest = (c, width) ∧ 0 < width ∧ width ≤ rest.length + 1
  | .broken len =>
      decode_first first rest = (REPLACEMENT_CHARACTER, len) ∧ 0 < len ∧ len ≤ rest.length + 1
  | .unfinished =>
      decode_first first rest = (REPLACEMENT_CHARACTER, rest.length + 1) ∧ rest.length ≤ 2

theorem sequence_reads (first : UInt8) (rest : List UInt8) :
    (sequence first rest).Reads first rest := by
  unfold sequence
  split
  · next h => simp [Sequence.Reads, decode_first, h]
  split
  · -- two bytes
    next h0 h1 =>
    rcases rest with _ | ⟨second, rest⟩
    · simp only [Sequence.Reads, decode_first, h0, h1]
      simp
    · by_cases h2 : is_continuation second = true <;>
        simp only [Sequence.Reads, decode_first, h0, h1, h2] <;> simp
  split
  · -- three bytes
    next h0 h1 h2 =>
    rcases rest with _ | ⟨second, rest⟩
    · simp only [Sequence.Reads, decode_first, h0, h1, h2]
      simp
    by_cases hsecond : second_of_three first second = true
    · rcases rest with _ | ⟨third, rest⟩
      · simp only [Sequence.Reads, decode_first, h0, h1, h2, hsecond]
        simp
      · by_cases hthird : is_continuation third = true <;>
          simp only [Sequence.Reads, decode_first, h0, h1, h2, hsecond, hthird] <;> simp
    · simp only [Sequence.Reads, decode_first, h0, h1, h2, hsecond]
      simp
  split
  · -- four bytes
    next h0 h1 h2 h3 =>
    rcases rest with _ | ⟨second, rest⟩
    · simp only [Sequence.Reads, decode_first, h0, h1, h2, h3]
      simp
    by_cases hsecond : second_of_four first second = true
    · rcases rest with _ | ⟨third, rest⟩
      · simp only [Sequence.Reads, decode_first, h0, h1, h2, h3, hsecond]
        simp
      by_cases hthird : is_continuation third = true
      · rcases rest with _ | ⟨fourth, rest⟩
        · simp only [Sequence.Reads, decode_first, h0, h1, h2, h3, hsecond, hthird]
          simp
        · by_cases hfourth : is_continuation fourth = true <;>
            simp only [Sequence.Reads, decode_first, h0, h1, h2, h3, hsecond, hthird, hfourth] <;>
            simp
      · simp only [Sequence.Reads, decode_first, h0, h1, h2, h3, hsecond, hthird]
        simp
    · simp only [Sequence.Reads, decode_first, h0, h1, h2, h3, hsecond]
      simp
  · -- a byte that begins nothing
    next h0 h1 h2 h3 =>
    simp only [Sequence.Reads, decode_first, h0, h1, h2, h3]
    simp

/-- Bytes that come later change nothing but an unfinished character. -/
theorem sequence_append {first : UInt8} {rest : List UInt8} (tail : List UInt8)
    (h : sequence first rest ≠ .unfinished) :
    sequence first (rest ++ tail) = sequence first rest := by
  unfold sequence at h ⊢
  split
  · rfl
  split
  · next h0 h1 =>
    rw [if_neg h0, if_pos h1] at h
    rcases rest with _ | ⟨second, rest⟩
    · exact absurd rfl h
    · rfl
  split
  · next h0 h1 h2 =>
    rw [if_neg h0, if_neg h1, if_pos h2] at h
    rcases rest with _ | ⟨second, _ | ⟨third, rest⟩⟩
    · exact absurd rfl h
    · by_cases hsecond : second_of_three first second = true
      · exact absurd (if_pos hsecond) h
      · simp only [List.cons_append, List.nil_append, if_neg hsecond]
    · rfl
  split
  · next h0 h1 h2 h3 =>
    rw [if_neg h0, if_neg h1, if_neg h2, if_pos h3] at h
    rcases rest with _ | ⟨second, _ | ⟨third, _ | ⟨fourth, rest⟩⟩⟩
    · exact absurd rfl h
    · by_cases hsecond : second_of_four first second = true
      · exact absurd (if_pos hsecond) h
      · simp only [List.cons_append, List.nil_append, if_neg hsecond]
    · by_cases hsecond : second_of_four first second = true
      · by_cases hthird : is_continuation third = true
        · simp only [if_pos hsecond, if_pos hthird] at h
          exact absurd rfl h
        · simp only [List.cons_append, List.nil_append, if_neg hthird]
      · simp only [List.cons_append, List.nil_append, if_neg hsecond]
    · rfl
  · rfl

/-- The bytes of a character are enough to read it. -/
theorem sequence_take {first : UInt8} {rest : List UInt8} {c : Char} {width : Nat}
    (h : sequence first rest = .character c width) :
    sequence first (rest.take (width - 1)) = .character c width := by
  by_cases hunfinished : sequence first (rest.take (width - 1)) = .unfinished
  · -- the bytes are as many as the character takes, so none is missing
    unfold sequence at h hunfinished
    split at h
    · next h0 => rw [if_pos h0] at hunfinished; cases hunfinished
    next h0 =>
    rw [if_neg h0] at hunfinished
    split at h
    · next h1 =>
      rw [if_pos h1] at hunfinished
      rcases rest with _ | ⟨second, rest⟩
      · cases h
      · by_cases hsecond : is_continuation second = true <;> simp [hsecond] at h
        obtain ⟨_, rfl⟩ := h
        simp [hsecond] at hunfinished
    next h1 =>
    rw [if_neg h1] at hunfinished
    split at h
    · next h2 =>
      rw [if_pos h2] at hunfinished
      rcases rest with _ | ⟨second, _ | ⟨third, rest⟩⟩
      · cases h
      · by_cases hsecond : second_of_three first second = true <;> simp [hsecond] at h
      · by_cases hsecond : second_of_three first second = true <;>
          by_cases hthird : is_continuation third = true <;> simp [hsecond, hthird] at h
        obtain ⟨_, rfl⟩ := h
        simp [hsecond, hthird] at hunfinished
    next h2 =>
    rw [if_neg h2] at hunfinished
    split at h
    · next h3 =>
      rw [if_pos h3] at hunfinished
      rcases rest with _ | ⟨second, _ | ⟨third, _ | ⟨fourth, rest⟩⟩⟩
      · cases h
      · by_cases hsecond : second_of_four first second = true <;> simp [hsecond] at h
      · by_cases hsecond : second_of_four first second = true <;>
          by_cases hthird : is_continuation third = true <;> simp [hsecond, hthird] at h
      · by_cases hsecond : second_of_four first second = true <;>
          by_cases hthird : is_continuation third = true <;>
            by_cases hfourth : is_continuation fourth = true <;>
              simp [hsecond, hthird, hfourth] at h
        obtain ⟨_, rfl⟩ := h
        simp [hsecond, hthird, hfourth] at hunfinished
    · cases h
  · have happend := sequence_append (rest.drop (width - 1)) hunfinished
    rw [List.take_append_drop] at happend
    rw [← happend]
    exact h

/-- The bytes of an ill-formed start, on their own, are an ill-formed start. -/
theorem decode_first_take {first : UInt8} {rest : List UInt8} {len : Nat}
    (h : sequence first rest = .broken len) :
    decode_first first (rest.take (len - 1)) = (REPLACEMENT_CHARACTER, len) := by
  have hreads := sequence_reads first rest
  have hown := sequence_reads first (rest.take (len - 1))
  by_cases hunfinished : sequence first (rest.take (len - 1)) = .unfinished
  · rw [h] at hreads
    rw [hunfinished] at hown
    rw [hown.1, List.length_take]
    have hroom := hreads.2.2
    have hpos := hreads.2.1
    congr 1
    omega
  · have happend := sequence_append (rest.drop (len - 1)) hunfinished
    rw [List.take_append_drop] at happend
    rw [← happend, h] at hown
    exact hown.1

/-- What later bytes make of an unfinished character: it takes no fewer bytes
    than there were, and it is replaced if it takes no more. -/
def Resumed (present : Nat) (decoded : Char × Nat) : Prop :=
  present < decoded.2 ∨ decoded = (REPLACEMENT_CHARACTER, present)

theorem resumed_two {first : UInt8} (tail : List UInt8) (h0 : ¬first < 0x80)
    (h1 : (0xC2 ≤ first && first ≤ 0xDF) = true) : Resumed 1 (decode_first first tail) := by
  unfold decode_first Resumed
  rw [if_neg h0, if_pos h1]
  rcases tail with _ | ⟨second, tail⟩
  · simp
  · by_cases hsecond : is_continuation second = true <;> simp [hsecond]

theorem resumed_three {first : UInt8} (rest tail : List UInt8) (h0 : ¬first < 0x80)
    (h1 : ¬(0xC2 ≤ first && first ≤ 0xDF) = true) (h2 : (0xE0 ≤ first && first ≤ 0xEF) = true)
    (h : sequence first rest = .unfinished) :
    Resumed (rest.length + 1) (decode_first first (rest ++ tail)) := by
  unfold sequence at h
  unfold decode_first Resumed
  rw [if_neg h0, if_neg h1, if_pos h2] at h ⊢
  rcases rest with _ | ⟨second, _ | ⟨third, rest⟩⟩
  · rcases tail with _ | ⟨second, _ | ⟨third, tail⟩⟩
    · simp
    · by_cases hsecond : second_of_three first second = true <;> simp [hsecond]
    · by_cases hsecond : second_of_three first second = true <;>
        by_cases hthird : is_continuation third = true <;> simp [hsecond, hthird]
  · by_cases hsecond : second_of_three first second = true
    · rcases tail with _ | ⟨third, tail⟩
      · simp [hsecond]
      · by_cases hthird : is_continuation third = true <;> simp [hsecond, hthird]
    · simp [hsecond] at h
  · by_cases hsecond : second_of_three first second = true <;>
      by_cases hthird : is_continuation third = true <;> simp [hsecond, hthird] at h

theorem resumed_four {first : UInt8} (rest tail : List UInt8) (h0 : ¬first < 0x80)
    (h1 : ¬(0xC2 ≤ first && first ≤ 0xDF) = true) (h2 : ¬(0xE0 ≤ first && first ≤ 0xEF) = true)
    (h3 : (0xF0 ≤ first && first ≤ 0xF4) = true) (h : sequence first rest = .unfinished) :
    Resumed (rest.length + 1) (decode_first first (rest ++ tail)) := by
  unfold sequence at h
  unfold decode_first Resumed
  rw [if_neg h0, if_neg h1, if_neg h2, if_pos h3] at h ⊢
  rcases rest with _ | ⟨second, _ | ⟨third, _ | ⟨fourth, rest⟩⟩⟩
  · rcases tail with _ | ⟨second, _ | ⟨third, _ | ⟨fourth, tail⟩⟩⟩
    · simp
    · by_cases hsecond : second_of_four first second = true <;> simp [hsecond]
    · by_cases hsecond : second_of_four first second = true <;>
        by_cases hthird : is_continuation third = true <;> simp [hsecond, hthird]
    · by_cases hsecond : second_of_four first second = true <;>
        by_cases hthird : is_continuation third = true <;>
          by_cases hfourth : is_continuation fourth = true <;> simp [hsecond, hthird, hfourth]
  · by_cases hsecond : second_of_four first second = true
    · rcases tail with _ | ⟨third, _ | ⟨fourth, tail⟩⟩
      · simp [hsecond]
      · by_cases hthird : is_continuation third = true <;> simp [hsecond, hthird]
      · by_cases hthird : is_continuation third = true <;>
          by_cases hfourth : is_continuation fourth = true <;> simp [hsecond, hthird, hfourth]
    · simp [hsecond] at h
  · by_cases hsecond : second_of_four first second = true
    · by_cases hthird : is_continuation third = true
      · rcases tail with _ | ⟨fourth, tail⟩
        · simp [hsecond, hthird]
        · by_cases hfourth : is_continuation fourth = true <;> simp [hsecond, hthird, hfourth]
      · simp [hsecond, hthird] at h
    · simp [hsecond] at h
  · by_cases hsecond : second_of_four first second = true <;>
      by_cases hthird : is_continuation third = true <;>
        by_cases hfourth : is_continuation fourth = true <;>
          simp [hsecond, hthird, hfourth] at h

theorem unfinished_append {first : UInt8} {rest : List UInt8} (tail : List UInt8)
    (h : sequence first rest = .unfinished) :
    Resumed (rest.length + 1) (decode_first first (rest ++ tail)) := by
  by_cases h0 : first < 0x80
  · unfold sequence at h
    rw [if_pos h0] at h
    cases h
  by_cases h1 : (0xC2 ≤ first && first ≤ 0xDF) = true
  · have hnil : rest = [] := by
      unfold sequence at h
      rw [if_neg h0, if_pos h1] at h
      rcases rest with _ | ⟨second, rest⟩
      · rfl
      · by_cases hsecond : is_continuation second = true <;> simp [hsecond] at h
    subst hnil
    exact resumed_two tail h0 h1
  by_cases h2 : (0xE0 ≤ first && first ≤ 0xEF) = true
  · exact resumed_three rest tail h0 h1 h2 h
  by_cases h3 : (0xF0 ≤ first && first ≤ 0xF4) = true
  · exact resumed_four rest tail h0 h1 h2 h3 h
  · unfold sequence at h
    rw [if_neg h0, if_neg h1, if_neg h2, if_neg h3] at h
    cases h

theorem decode_first_le (first : UInt8) (rest : List UInt8) :
    (decode_first first rest).2 ≤ rest.length + 1 := by
  have hreads := sequence_reads first rest
  rcases hsequence : sequence first rest with ⟨c, width⟩ | ⟨len⟩ | _
  · rw [hsequence] at hreads
    rw [hreads.1]
    exact hreads.2.2
  · rw [hsequence] at hreads
    rw [hreads.1]
    exact hreads.2.2
  · rw [hsequence] at hreads
    rw [hreads.1]

/-- A character that ends before the later bytes does not depend on them. -/
theorem decode_first_append {first : UInt8} {rest : List UInt8} (tail : List UInt8)
    (h : (decode_first first (rest ++ tail)).2 ≤ rest.length + 1) :
    decode_first first (rest ++ tail) = decode_first first rest := by
  have hreads := sequence_reads first rest
  have hmore := sequence_reads first (rest ++ tail)
  rcases hsequence : sequence first rest with ⟨c, width⟩ | ⟨len⟩ | _
  · rw [sequence_append tail (by simp [hsequence]), hsequence] at hmore
    rw [hsequence] at hreads
    exact hmore.1.trans hreads.1.symm
  · rw [sequence_append tail (by simp [hsequence]), hsequence] at hmore
    rw [hsequence] at hreads
    exact hmore.1.trans hreads.1.symm
  · rw [hsequence] at hreads
    rcases unfinished_append tail hsequence with hlonger | hsame
    · omega
    · exact hsame.trans hreads.1.symm

theorem second_of_three_continuation {first second : UInt8}
    (h : second_of_three first second = true) : is_continuation second = true := by
  unfold second_of_three at h
  unfold is_continuation at h ⊢
  split at h
  · simp only [Bool.and_eq_true, decide_eq_true_eq] at h ⊢
    exact ⟨UInt8.le_trans (by decide) h.1, h.2⟩
  split at h
  · simp only [Bool.and_eq_true, decide_eq_true_eq] at h ⊢
    exact ⟨h.1, UInt8.le_trans h.2 (by decide)⟩
  · exact h

theorem second_of_four_continuation {first second : UInt8}
    (h : second_of_four first second = true) : is_continuation second = true := by
  unfold second_of_four at h
  unfold is_continuation at h ⊢
  split at h
  · simp only [Bool.and_eq_true, decide_eq_true_eq] at h ⊢
    exact ⟨UInt8.le_trans (by decide) h.1, h.2⟩
  split at h
  · simp only [Bool.and_eq_true, decide_eq_true_eq] at h ⊢
    exact ⟨h.1, UInt8.le_trans h.2 (by decide)⟩
  · exact h

/-- The bytes of a character after its first. -/
theorem decode_first_continuation (first : UInt8) (rest : List UInt8) :
    ∀ byte ∈ rest.take ((decode_first first rest).2 - 1), is_continuation byte = true := by
  unfold decode_first
  split
  · simp
  split
  · rcases rest with _ | ⟨second, rest⟩
    · simp
    · by_cases hsecond : is_continuation second = true <;> simp [hsecond]
  split
  · rcases rest with _ | ⟨second, _ | ⟨third, rest⟩⟩
    · simp
    · by_cases hsecond : second_of_three first second = true
      · simp [hsecond, second_of_three_continuation hsecond]
      · simp [hsecond]
    · by_cases hsecond : second_of_three first second = true
      · by_cases hthird : is_continuation third = true <;>
          simp [hsecond, hthird, second_of_three_continuation hsecond]
      · simp [hsecond]
  split
  · rcases rest with _ | ⟨second, _ | ⟨third, _ | ⟨fourth, rest⟩⟩⟩
    · simp
    · by_cases hsecond : second_of_four first second = true
      · simp [hsecond, second_of_four_continuation hsecond]
      · simp [hsecond]
    · by_cases hsecond : second_of_four first second = true
      · by_cases hthird : is_continuation third = true <;>
          simp [hsecond, hthird, second_of_four_continuation hsecond]
      · simp [hsecond]
    · by_cases hsecond : second_of_four first second = true
      · by_cases hthird : is_continuation third = true <;>
          by_cases hfourth : is_continuation fourth = true <;>
            simp [hsecond, hthird, hfourth, second_of_four_continuation hsecond]
      · simp [hsecond]
  · simp

/-- A continuation byte begins nothing. -/
theorem decode_first_of_continuation {byte : UInt8} (rest : List UInt8)
    (h : is_continuation byte = true) : decode_first byte rest = (REPLACEMENT_CHARACTER, 1) := by
  unfold is_continuation at h
  simp only [Bool.and_eq_true, decide_eq_true_eq] at h
  have h0 : ¬byte < 0x80 := UInt8.not_lt.mpr h.1
  have h1 : ¬(0xC2 ≤ byte && byte ≤ 0xDF) = true := by
    simp only [Bool.and_eq_true, decide_eq_true_eq]
    intro hin
    exact absurd (UInt8.le_trans hin.1 h.2) (by decide)
  have h2 : ¬(0xE0 ≤ byte && byte ≤ 0xEF) = true := by
    simp only [Bool.and_eq_true, decide_eq_true_eq]
    intro hin
    exact absurd (UInt8.le_trans hin.1 h.2) (by decide)
  have h3 : ¬(0xF0 ≤ byte && byte ≤ 0xF4) = true := by
    simp only [Bool.and_eq_true, decide_eq_true_eq]
    intro hin
    exact absurd (UInt8.le_trans hin.1 h.2) (by decide)
  unfold decode_first
  rw [if_neg h0, if_neg h1, if_neg h2, if_neg h3]

/-! ### Lossy decoding, character by character -/

theorem from_utf8_lossy_after_eq (data : List UInt8) (taken : Nat) :
    from_utf8_lossy_after taken data = from_utf8_lossy (data.drop taken) := by
  induction data generalizing taken with
  | nil => cases taken <;> rfl
  | cons first rest ih =>
    cases taken with
    | zero => rfl
    | succ taken => exact ih taken

@[simp] theorem from_utf8_lossy_nil : from_utf8_lossy [] = [] := rfl

theorem from_utf8_lossy_cons (first : UInt8) (rest : List UInt8) :
    from_utf8_lossy (first :: rest) =
      (decode_first first rest).1 ::
        from_utf8_lossy (rest.drop ((decode_first first rest).2 - 1)) := by
  rw [← from_utf8_lossy_after_eq]
  rfl

theorem lossy_of_character {first : UInt8} {rest : List UInt8} {c : Char} {width : Nat}
    (h : sequence first rest = .character c width) (tail : List UInt8) :
    from_utf8_lossy (first :: (rest ++ tail)) =
      c :: from_utf8_lossy (rest.drop (width - 1) ++ tail) := by
  have hreads := sequence_reads first rest
  have hmore := sequence_reads first (rest ++ tail)
  rw [sequence_append tail (by simp [h])] at hmore
  rw [h] at hreads hmore
  have hroom : width - 1 ≤ rest.length := by have := hreads.2.2; omega
  rw [from_utf8_lossy_cons, hmore.1, List.drop_append_of_le_length hroom]

theorem lossy_of_broken {first : UInt8} {rest : List UInt8} {len : Nat}
    (h : sequence first rest = .broken len) (tail : List UInt8) :
    from_utf8_lossy (first :: (rest ++ tail)) =
      REPLACEMENT_CHARACTER :: from_utf8_lossy (rest.drop (len - 1) ++ tail) := by
  have hreads := sequence_reads first rest
  have hmore := sequence_reads first (rest ++ tail)
  rw [sequence_append tail (by simp [h])] at hmore
  rw [h] at hreads hmore
  have hroom : len - 1 ≤ rest.length := by have := hreads.2.2; omega
  rw [from_utf8_lossy_cons, hmore.1, List.drop_append_of_le_length hroom]

theorem lossy_of_unfinished {first : UInt8} {rest : List UInt8}
    (h : sequence first rest = .unfinished) :
    from_utf8_lossy (first :: rest) = [REPLACEMENT_CHARACTER] := by
  have hreads := sequence_reads first rest
  rw [h] at hreads
  rw [from_utf8_lossy_cons, hreads.1, Nat.add_sub_cancel, List.drop_length]
  rfl

/-- The bytes of an ill-formed start, on their own. -/
theorem lossy_broken_take {first : UInt8} {rest : List UInt8} {len : Nat}
    (h : sequence first rest = .broken len) :
    from_utf8_lossy (first :: rest.take (len - 1)) = [REPLACEMENT_CHARACTER] := by
  have hlen : (rest.take (len - 1)).length ≤ len - 1 := List.length_take_le _ _
  rw [from_utf8_lossy_cons, decode_first_take h, List.drop_eq_nil_of_le hlen]
  rfl

/-! ### Bytes that no later byte can be added to -/

/-- What follows these bytes is decoded as if they were not there. -/
def Closed (data : List UInt8) : Prop :=
  ∀ tail, from_utf8_lossy (data ++ tail) = from_utf8_lossy data ++ from_utf8_lossy tail

theorem closed_nil : Closed [] := fun _ => rfl

theorem closed_append {a b : List UInt8} (ha : Closed a) (hb : Closed b) : Closed (a ++ b) := by
  intro tail
  rw [List.append_assoc, ha (b ++ tail), hb tail, ha b, List.append_assoc]

theorem closed_of_character {first : UInt8} {rest : List UInt8} {c : Char} {width : Nat}
    (h : sequence first rest = .character c width) :
    Closed (first :: rest.take (width - 1)) := by
  have hown := sequence_take h
  have hdrop : (rest.take (width - 1)).drop (width - 1) = [] :=
    List.drop_eq_nil_of_le (List.length_take_le _ _)
  intro tail
  have hmore := lossy_of_character hown tail
  have hnone := lossy_of_character hown []
  rw [hdrop] at hmore hnone
  rw [List.append_nil] at hnone
  rw [List.cons_append, hmore, hnone]
  rfl

/-! ### Cuts -/

/-- How many of the later bytes belong to a character that begins before them,
    after bytes that belong to the character before. -/
def carried_after : Nat → List UInt8 → List UInt8 → Nat
  | taken, [], _ => taken
  | 0, first :: rest, later =>
      carried_after ((decode_first first (rest ++ later)).2 - 1) rest later
  | taken + 1, _ :: rest, later => carried_after taken rest later

/-- How many of the later bytes belong to a character that begins in these: a
    cut between them tears a character unless there is none. -/
def carried (data later : List UInt8) : Nat := carried_after 0 data later

theorem carried_after_eq (data later : List UInt8) (taken : Nat) :
    carried_after taken data later =
      if taken ≤ data.length then carried (data.drop taken) later else taken - data.length := by
  induction data generalizing taken with
  | nil =>
    cases taken with
    | zero => rfl
    | succ taken => rfl
  | cons first rest ih =>
    cases taken with
    | zero => rfl
    | succ taken =>
      have hrest := ih taken
      rw [List.length_cons, List.drop_succ_cons, Nat.add_sub_add_right]
      simp only [Nat.add_le_add_iff_right]
      exact hrest

/-- Continuation bytes are replaced one by one. -/
theorem lossy_continuations (bytes tail : List UInt8)
    (h : ∀ byte ∈ bytes, is_continuation byte = true) :
    from_utf8_lossy (bytes ++ tail) =
      List.replicate bytes.length REPLACEMENT_CHARACTER ++ from_utf8_lossy tail := by
  induction bytes with
  | nil => rfl
  | cons byte bytes ih =>
    have hbyte := decode_first_of_continuation (bytes ++ tail) (h byte List.mem_cons_self)
    have hrest := ih (fun other hother => h other (List.mem_cons_of_mem _ hother))
    rw [List.cons_append, from_utf8_lossy_cons, hbyte]
    dsimp only
    rw [List.drop_zero, hrest]
    rfl

/-- What a cut does to a text: nothing, or one character becomes a replacement
    for its first bytes and one for each of its other bytes. -/
inductive CutText (data later : List UInt8) : Prop where
  | clean (hcarried : carried data later = 0)
      (hwhole : from_utf8_lossy (data ++ later) = from_utf8_lossy data ++ from_utf8_lossy later) :
      CutText data later
  | torn (before after : Text) (c : Char) (hcarried : 0 < carried data later)
      (hwhole : from_utf8_lossy (data ++ later) = before ++ c :: after)
      (hdata : from_utf8_lossy data = before ++ [REPLACEMENT_CHARACTER])
      (hlater : from_utf8_lossy later =
        List.replicate (carried data later) REPLACEMENT_CHARACTER ++ after) :
      CutText data later

theorem cut_text (data later : List UInt8) : CutText data later := by
  -- by the characters of the first part
  induction hlen : data.length using Nat.strong_induction_on generalizing data with
  | _ length ih =>
    rcases data with _ | ⟨first, rest⟩
    · exact .clean rfl rfl
    have hcarried : carried (first :: rest) later =
        carried_after ((decode_first first (rest ++ later)).2 - 1) rest later := rfl
    rw [carried_after_eq] at hcarried
    have hwhole := from_utf8_lossy_cons first (rest ++ later)
    by_cases hfits : (decode_first first (rest ++ later)).2 - 1 ≤ rest.length
    · -- the first character is not torn
      rw [if_pos hfits] at hcarried
      have hown := decode_first_append later (by omega : (decode_first first (rest ++ later)).2 ≤ _)
      have hdata := from_utf8_lossy_cons first rest
      rw [List.drop_append_of_le_length hfits, hown] at hwhole
      rw [hown] at hcarried
      have hshorter : (rest.drop ((decode_first first rest).2 - 1)).length < length := by
        rw [← hlen, List.length_drop, List.length_cons]
        omega
      cases ih _ hshorter _ rfl with
      | clean hrest hsame =>
        refine .clean (hcarried.trans hrest) ?_
        rw [List.cons_append, hwhole, hsame, hdata]
        rfl
      | torn before after c hrest hsame hfirst hlater =>
        rw [← hcarried] at hrest hlater
        refine .torn ((decode_first first rest).1 :: before) after c hrest ?_ ?_ hlater
        · rw [List.cons_append, hwhole, hsame]
          rfl
        · rw [hdata, hfirst]
          rfl
    · -- it is, and nothing else is left before the cut
      rw [if_neg hfits] at hcarried
      have hunfinished : sequence first rest = .unfinished := by
        by_contra hnot
        have hreads := sequence_reads first rest
        have hmore := sequence_reads first (rest ++ later)
        rw [sequence_append later hnot] at hmore
        rcases hsequence : sequence first rest with ⟨c, width⟩ | ⟨len⟩ | _
        · rw [hsequence] at hreads hmore
          have := hreads.2.2
          rw [hmore.1] at hfits
          dsimp only at hfits
          omega
        · rw [hsequence] at hreads hmore
          have := hreads.2.2
          rw [hmore.1] at hfits
          dsimp only at hfits
          omega
        · exact hnot hsequence
      have hdata := lossy_of_unfinished hunfinished
      have hcontinuation := decode_first_continuation first (rest ++ later)
      have hwidth := decode_first_le first (rest ++ later)
      rw [List.length_append] at hwidth
      generalize hn : (decode_first first (rest ++ later)).2 - 1 = n at *
      have htorn : (later.take (n - rest.length)).length = n - rest.length := by
        rw [List.length_take]
        omega
      have hlater := lossy_continuations (later.take (n - rest.length))
        (later.drop (n - rest.length)) (by
          intro byte hbyte
          apply hcontinuation byte
          rw [List.take_append]
          exact List.mem_append_right _ hbyte)
      rw [List.take_append_drop, htorn, ← hcarried] at hlater
      refine .torn [] (from_utf8_lossy (later.drop (carried (first :: rest) later)))
        (decode_first first (rest ++ later)).1 ?_ ?_ hdata hlater
      · omega
      · rw [List.cons_append, hwhole, List.drop_append, List.drop_eq_nil_of_le (by omega), hcarried]
        rfl

/-! ### `std::str::from_utf8` -/

/-- `Utf8Error`: how much is well formed, and how much after it is not.  There
    is no length when a character is unfinished. -/
structure Utf8Error where
  valid_up_to : Nat
  error_len : Option Nat
  deriving DecidableEq, Repr

/-- `from_utf8`, at an offset and after bytes of the character before. -/
def from_utf8_after : Nat → Nat → List UInt8 → Except Utf8Error Text
  | _, _, [] => .ok []
  | 0, offset, first :: rest =>
      match sequence first rest with
      | .character c width => (from_utf8_after (width - 1) (offset + 1) rest).map (c :: ·)
      | .broken len => .error ⟨offset, some len⟩
      | .unfinished => .error ⟨offset, none⟩
  | taken + 1, offset, _ :: rest => from_utf8_after taken (offset + 1) rest

def from_utf8 (data : List UInt8) : Except Utf8Error Text := from_utf8_after 0 0 data

theorem from_utf8_after_eq (data : List UInt8) (taken offset : Nat) (h : taken ≤ data.length) :
    from_utf8_after taken offset data = from_utf8_after 0 (offset + taken) (data.drop taken) := by
  induction data generalizing taken offset with
  | nil =>
    have hzero : taken = 0 := by simpa using h
    rw [hzero]
    rfl
  | cons first rest ih =>
    cases taken with
    | zero => rfl
    | succ taken =>
      have hrest := ih taken (offset + 1) (by simpa using h)
      rw [show offset + 1 + taken = offset + (taken + 1) by omega] at hrest
      exact hrest

/-- What `from_utf8` answers, and what it says of the bytes. -/
inductive Validated (data : List UInt8) (offset : Nat) : Except Utf8Error Text → Prop where
  | ok {value : Text} (hclosed : Closed data) (hvalue : from_utf8_lossy data = value) :
      Validated data offset (.ok value)
  | broken {valid rest : List UInt8} {first : UInt8} {len : Nat} (hclosed : Closed valid)
      (hdata : data = valid ++ first :: rest) (hbroken : sequence first rest = .broken len) :
      Validated data offset (.error ⟨offset + valid.length, some len⟩)
  | unfinished {valid rest : List UInt8} {first : UInt8} (hclosed : Closed valid)
      (hdata : data = valid ++ first :: rest) (hunfinished : sequence first rest = .unfinished) :
      Validated data offset (.error ⟨offset + valid.length, none⟩)

theorem from_utf8_validated (data : List UInt8) (offset : Nat) :
    Validated data offset (from_utf8_after 0 offset data) := by
  -- by the length of what is left, one character at a time
  induction hlen : data.length using Nat.strong_induction_on generalizing data offset with
  | _ length ih =>
    rcases data with _ | ⟨first, rest⟩
    · exact .ok closed_nil rfl
    unfold from_utf8_after
    rcases hsequence : sequence first rest with ⟨c, width⟩ | ⟨len⟩ | _
    · have hreads := sequence_reads first rest
      rw [hsequence] at hreads
      obtain ⟨_, hpos, hroom⟩ := hreads
      have hclosed := closed_of_character hsequence
      have hsplit : first :: rest = (first :: rest.take (width - 1)) ++ rest.drop (width - 1) := by
        rw [List.cons_append, List.take_append_drop]
      have hwidth : (first :: rest.take (width - 1)).length = width := by
        rw [List.length_cons, List.length_take]
        omega
      have hrest := ih _ (by rw [← hlen, List.length_drop, List.length_cons]; omega)
        (rest.drop (width - 1)) (offset + width) rfl
      dsimp only
      rw [from_utf8_after_eq rest (width - 1) (offset + 1) (by omega),
        show offset + 1 + (width - 1) = offset + width by omega]
      generalize from_utf8_after 0 (offset + width) (rest.drop (width - 1)) = answer at hrest ⊢
      cases hrest with
      | ok hrest hvalue =>
        have hall : Closed (first :: rest) := by
          rw [hsplit]
          exact closed_append hclosed hrest
        refine .ok hall ?_
        have hchar := lossy_of_character hsequence []
        rw [List.append_nil, List.append_nil, hvalue] at hchar
        exact hchar
      | @broken valid _ _ _ hvalid hdata hbroken =>
        have hlength : offset + width + valid.length =
            offset + (first :: rest.take (width - 1) ++ valid).length := by
          rw [List.length_append, hwidth, Nat.add_assoc]
        rw [hlength]
        refine .broken (closed_append hclosed hvalid) ?_ hbroken
        rw [hsplit, hdata, List.append_assoc]
      | @unfinished valid _ _ hvalid hdata hunfinished =>
        have hlength : offset + width + valid.length =
            offset + (first :: rest.take (width - 1) ++ valid).length := by
          rw [List.length_append, hwidth, Nat.add_assoc]
        rw [hlength]
        refine .unfinished (closed_append hclosed hvalid) ?_ hunfinished
        rw [hsplit, hdata, List.append_assoc]
    · exact @Validated.broken _ _ [] _ _ _ closed_nil rfl hsequence
    · exact @Validated.unfinished _ _ [] _ _ closed_nil rfl hsequence

end Command
