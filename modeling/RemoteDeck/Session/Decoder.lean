import RemoteDeck.Command.Utf8

/-! # The decoder of a terminal's output

    `Utf8StreamDecoder` of `session.rs`.  The bytes of a terminal arrive in
    reads of any size.  The decoder passes on what it can decode and keeps
    the bytes of an unfinished character for the next read.

    This file defines:
    - `Utf8StreamDecoder` with `push` and `finish`
    - `decode_reads`: a decoder over all reads of a terminal

    The main result is `decoded_as_one`: where the reads are cut does not
    matter.
-/

namespace Session

open Command

structure Utf8StreamDecoder where
  pending : List UInt8
  deriving DecidableEq, Repr

/-- `Utf8StreamDecoder::default`. -/
def Utf8StreamDecoder.default : Utf8StreamDecoder := { pending := [] }

/-- What an ill-formed sequence takes is not empty, so the loop of `push` ends. -/
theorem broken_shortens {pending : List UInt8} {error : Utf8Error} {invalid : Nat}
    (herror : from_utf8 pending = .error error) (hinvalid : error.error_len = some invalid) :
    ((pending.drop error.valid_up_to).drop invalid).length < pending.length := by
  have hvalidated := from_utf8_validated pending 0
  unfold from_utf8 at herror
  rw [herror] at hvalidated
  cases hvalidated with
  | @broken valid rest first len hclosed hdata hbroken =>
    have hreads := sequence_reads first rest
    rw [hbroken] at hreads
    have hlen : len = invalid := Option.some.inj hinvalid
    have hpos : 0 < len := hreads.2.1
    subst hlen
    rw [List.length_drop, List.length_drop, hdata, List.length_append, List.length_cons]
    omega
  | unfinished => cases hinvalid

/-- The loop of `push`, over the bytes that are pending: the pieces of output,
    and the bytes that stay. -/
def Utf8StreamDecoder.drain (pending : List UInt8) : List Text × List UInt8 :=
  match _ : from_utf8 pending with
  | .ok value => (if value.isEmpty then [] else [value], [])
  | .error error =>
      let output :=
        if 0 < error.valid_up_to then [from_utf8_lossy (pending.take error.valid_up_to)] else []
      let pending := pending.drop error.valid_up_to
      match _ : error.error_len with
      | some invalid =>
          let (more, left) := drain (pending.drop invalid)
          (output ++ from_utf8_lossy (pending.take invalid) :: more, left)
      | none => (output, pending)
termination_by pending.length
decreasing_by exact broken_shortens ‹from_utf8 _ = _› ‹error.error_len = _›

def Utf8StreamDecoder.push (decoder : Utf8StreamDecoder) (bytes : List UInt8) :
    Utf8StreamDecoder × List Text :=
  let (output, pending) := drain (decoder.pending ++ bytes)
  ({ decoder with pending := pending }, output)

def Utf8StreamDecoder.finish (decoder : Utf8StreamDecoder) : Utf8StreamDecoder × Option Text :=
  if decoder.pending.isEmpty then (decoder, none)
  else ({ decoder with pending := [] }, some (from_utf8_lossy decoder.pending))

/-- The decoder after some reads, with the pieces of output of all of them. -/
def Utf8StreamDecoder.pushes (decoder : Utf8StreamDecoder) :
    List (List UInt8) → Utf8StreamDecoder × List Text
  | [] => (decoder, [])
  | bytes :: reads =>
      let (decoder, output) := decoder.push bytes
      let (decoder, more) := decoder.pushes reads
      (decoder, output ++ more)

/-- The output of a terminal, from its first read to its last. -/
def decode_reads (reads : List (List UInt8)) : Text :=
  let (decoder, output) := Utf8StreamDecoder.default.pushes reads
  (output ++ decoder.finish.2.toList).flatten

/-! ### One push -/

/-- The bytes that may be held back: none, or those of one unfinished character. -/
inductive HeldBack : List UInt8 → Prop where
  | nothing : HeldBack []
  | unfinished {first : UInt8} {rest : List UInt8} (h : sequence first rest = .unfinished) :
      HeldBack (first :: rest)

theorem HeldBack.length_le {pending : List UInt8} (h : HeldBack pending) : pending.length ≤ 3 := by
  cases h with
  | nothing => exact Nat.zero_le 3
  | @unfinished first rest hunfinished =>
    have hreads := sequence_reads first rest
    rw [hunfinished] at hreads
    rw [List.length_cons]
    have := hreads.2
    omega

/-- What a decoder has passed on and what it holds back are together what it
    was given, whatever comes later. -/
structure Decoded (given : List UInt8) (output : List Text) (pending : List UInt8) : Prop where
  held : HeldBack pending
  same : ∀ tail, from_utf8_lossy (given ++ tail) = output.flatten ++ from_utf8_lossy (pending ++ tail)

theorem Decoded.append {given more pending pending' : List UInt8} {output output' : List Text}
    (h : Decoded given output pending) (h' : Decoded (pending ++ more) output' pending') :
    Decoded (given ++ more) (output ++ output') pending' where
  held := h'.held
  same := by
    intro tail
    rw [List.append_assoc, h.same (more ++ tail), ← List.append_assoc pending, h'.same tail,
      List.flatten_append, List.append_assoc]

/-- The part before an error is passed on as one piece, if there is any. -/
theorem valid_part_flatten (valid rest : List UInt8) :
    (if 0 < valid.length then [from_utf8_lossy ((valid ++ rest).take valid.length)] else []).flatten =
      from_utf8_lossy valid := by
  rw [List.take_left]
  cases valid with
  | nil => rfl
  | cons byte valid =>
    rw [if_pos (by rw [List.length_cons]; omega)]
    exact List.flatten_singleton

/-- A value of `from_utf8` is passed on as one piece, if there is any. -/
theorem value_flatten (value : Text) : (if value.isEmpty then [] else [value]).flatten = value := by
  cases value with
  | nil => rfl
  | cons c value => exact List.flatten_singleton

theorem drain_decoded (pending : List UInt8) :
    Decoded pending (Utf8StreamDecoder.drain pending).1 (Utf8StreamDecoder.drain pending).2 := by
  -- by the iterations of the loop
  fun_induction Utf8StreamDecoder.drain pending with
  | case1 pending value hvalue =>
    have hvalidated := from_utf8_validated pending 0
    unfold from_utf8 at hvalue
    rw [hvalue] at hvalidated
    cases hvalidated with
    | ok hclosed hlossy =>
      refine ⟨.nothing, ?_⟩
      intro tail
      rw [hclosed tail, value_flatten, hlossy]
      rfl
  | case2 pending error herror output dropped invalid hinvalid more left hrest ih =>
    have hvalidated := from_utf8_validated pending 0
    unfold from_utf8 at herror
    rw [herror] at hvalidated
    cases hvalidated with
    | @broken valid rest first len hclosed hdata hbroken =>
      have hreads := sequence_reads first rest
      rw [hbroken] at hreads
      obtain ⟨_, hpos, _⟩ := hreads
      obtain ⟨len, rfl⟩ : ∃ n, len = n + 1 := ⟨len - 1, by omega⟩
      have hlen : len + 1 = invalid := Option.some.inj hinvalid
      have hdropped : dropped = first :: rest := by
        have hdrop : dropped = pending.drop (0 + valid.length) := rfl
        rw [hdrop, hdata, Nat.zero_add, List.drop_left]
      have houtput : output.flatten = from_utf8_lossy valid := by
        have hpart := valid_part_flatten valid (first :: rest)
        rw [← hdata, ← Nat.zero_add valid.length] at hpart
        exact hpart
      rw [hrest] at ih
      rw [hdropped, ← hlen] at ih ⊢
      refine ⟨ih.held, ?_⟩
      intro tail
      have hpiece : from_utf8_lossy ((first :: rest).take (len + 1)) = [REPLACEMENT_CHARACTER] :=
        lossy_broken_take hbroken
      have hnext := lossy_of_broken hbroken tail
      have hleft := ih.same tail
      rw [List.drop_succ_cons] at hleft
      rw [Nat.add_sub_cancel, hleft] at hnext
      rw [hdata, List.append_assoc, hclosed, List.cons_append, hnext, List.flatten_append, houtput,
        List.flatten_cons, hpiece, List.append_assoc, List.append_assoc]
      rfl
    | unfinished => cases hinvalid
  | case3 pending error herror output dropped hinvalid =>
    have hvalidated := from_utf8_validated pending 0
    unfold from_utf8 at herror
    rw [herror] at hvalidated
    cases hvalidated with
    | broken => cases hinvalid
    | @unfinished valid rest first hclosed hdata hunfinished =>
      have hdropped : dropped = first :: rest := by
        have hdrop : dropped = pending.drop (0 + valid.length) := rfl
        rw [hdrop, hdata, Nat.zero_add, List.drop_left]
      have houtput : output.flatten = from_utf8_lossy valid := by
        have hpart := valid_part_flatten valid (first :: rest)
        rw [← hdata, ← Nat.zero_add valid.length] at hpart
        exact hpart
      rw [hdropped]
      refine ⟨.unfinished hunfinished, ?_⟩
      intro tail
      rw [hdata, List.append_assoc, hclosed, houtput]

/-! ### All reads -/

/-- A decoder that holds back no more than one unfinished character, after
    some reads. -/
theorem pushes_decoded (decoder : Utf8StreamDecoder) (reads : List (List UInt8))
    (h : HeldBack decoder.pending) :
    Decoded (decoder.pending ++ reads.flatten) (decoder.pushes reads).2
      (decoder.pushes reads).1.pending := by
  induction reads generalizing decoder with
  | nil =>
    refine ⟨h, ?_⟩
    intro tail
    rw [List.flatten_nil, List.append_nil]
    rfl
  | cons bytes reads ih =>
    have hpush : Decoded (decoder.pending ++ bytes) (decoder.push bytes).2
        (decoder.push bytes).1.pending := drain_decoded (decoder.pending ++ bytes)
    have hreads := ih (decoder.push bytes).1 hpush.held
    have hall := hpush.append hreads
    rw [List.append_assoc, ← List.flatten_cons] at hall
    exact hall

theorem finish_toList (decoder : Utf8StreamDecoder) :
    decoder.finish.2.toList.flatten = from_utf8_lossy decoder.pending := by
  unfold Utf8StreamDecoder.finish
  cases hpending : decoder.pending with
  | nil => rfl
  | cons byte pending => exact List.flatten_singleton

/-- The text of a terminal is that of its bytes, wherever the reads are cut, and
    no more than three bytes wait for the next read. -/
theorem decoded_as_one (reads : List (List UInt8)) :
    decode_reads reads = from_utf8_lossy reads.flatten ∧
      ∀ n, (Utf8StreamDecoder.default.pushes (reads.take n)).1.pending.length ≤ 3 := by
  constructor
  · have hdecoded := pushes_decoded Utf8StreamDecoder.default reads .nothing
    have hsame := hdecoded.same []
    rw [List.append_nil, List.append_nil] at hsame
    have hfinish := finish_toList (Utf8StreamDecoder.default.pushes reads).1
    have hreads : decode_reads reads = ((Utf8StreamDecoder.default.pushes reads).2 ++
        (Utf8StreamDecoder.default.pushes reads).1.finish.2.toList).flatten := rfl
    rw [hreads, List.flatten_append, hfinish, ← hsame]
    rfl
  · intro n
    exact (pushes_decoded Utf8StreamDecoder.default (reads.take n) .nothing).held.length_le

end Session
