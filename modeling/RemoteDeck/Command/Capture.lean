import RemoteDeck.Command.Utf8

/-! # What is kept of the output of a command

    `append_job_output` adds the reads of a pipe to the stream of a job, one
    by one.  Each read is decoded on its own, and a stream is cut at the
    first read that it has no room for.

    This file defines:
    - `capture`: the stream of a job after some reads
    - `AsDecoded`: a stream that is the text of the bytes that were read
    - `Clean`, `CleanWithin`, `Spills`: where the reads are cut

    Where a read ends inside a character, the parts of the character are
    replaced.  Where the text before the last read is longer than what is
    kept beside the marker, the start of that read can fill the place of a
    character that did not fit.  The main result is `captured_when`.
-/

namespace Command

/-- What is kept of a stream beside the marker. -/
def CONTENT_LIMIT : Nat := COMMAND_OUTPUT_LIMIT - OUTPUT_TRUNCATED_MARKER.len

/-- The stream of a job after some reads of its pipe. -/
def capture (reads : List (List UInt8)) : BoundedOutput :=
  reads.foldl (fun output data => (append_bounded output data).1) ⟨[], false⟩

/-- A stream that is the text of the bytes that were read, or a start of that
    text with the marker. -/
def AsDecoded (data : List UInt8) (output : BoundedOutput) : Prop :=
  if (from_utf8_lossy data).len ≤ COMMAND_OUTPUT_LIMIT then
    output = ⟨from_utf8_lossy data, false⟩
  else
    output.truncated = true ∧ output.target.len ≤ COMMAND_OUTPUT_LIMIT ∧
      ∃ kept, kept <+: from_utf8_lossy data ∧ output.target = kept ++ OUTPUT_TRUNCATED_MARKER

/-! ### Where reads are cut -/

/-- The text of some reads, each decoded on its own. -/
def pieces (reads : List (List UInt8)) : Text := (reads.map from_utf8_lossy).flatten

/-- No read ends inside a character. -/
def Clean : List (List UInt8) → Prop
  | [] => True
  | data :: later => carried data later.flatten = 0 ∧ Clean later

/-- No read that ends within so many bytes of text ends inside a character. -/
def CleanWithin : Nat → List (List UInt8) → Prop
  | _, [] => True
  | limit, data :: later =>
      (from_utf8_lossy data).len ≤ limit →
        carried data later.flatten = 0 ∧ CleanWithin (limit - (from_utf8_lossy data).len) later

/-- The read that a stream has no room for begins after the part that is kept,
    with a character for which there is still a place. -/
def Spills (reads : List (List UInt8)) : Prop :=
  ∃ done data later, reads = done ++ data :: later ∧
    CONTENT_LIMIT < (pieces done).len ∧ (pieces done).len ≤ COMMAND_OUTPUT_LIMIT ∧
    COMMAND_OUTPUT_LIMIT < (pieces done).len + (from_utf8_lossy data).len ∧
    Text.truncate_at (CONTENT_LIMIT - (truncate_utf8 (pieces done) CONTENT_LIMIT).len)
      (from_utf8_lossy data) ≠ []

@[simp] theorem pieces_nil : pieces [] = [] := rfl

theorem pieces_cons (data : List UInt8) (later : List (List UInt8)) :
    pieces (data :: later) = from_utf8_lossy data ++ pieces later := rfl

theorem pieces_append (done later : List (List UInt8)) :
    pieces (done ++ later) = pieces done ++ pieces later := by
  unfold pieces
  rw [List.map_append, List.flatten_append]

/-! ### The steps of the capture -/

/-- While there is room, a stream is the text of its reads. -/
theorem foldl_room (reads : List (List UInt8)) (before : Text)
    (h : (before ++ pieces reads).len ≤ COMMAND_OUTPUT_LIMIT) :
    reads.foldl (fun output data => (append_bounded output data).1) ⟨before, false⟩ =
      ⟨before ++ pieces reads, false⟩ := by
  induction reads generalizing before with
  | nil => rw [pieces_nil, List.append_nil]; rfl
  | cons data later ih =>
    rw [pieces_cons, ← List.append_assoc] at h
    have hroom : before.len + (from_utf8_lossy data).len ≤ COMMAND_OUTPUT_LIMIT := by
      rw [Text.len_append, Text.len_append] at h
      omega
    have hstep : (append_bounded ⟨before, false⟩ data).1 = ⟨before ++ from_utf8_lossy data, false⟩ := by
      unfold append_bounded
      cases data with
      | nil =>
        rw [if_pos (by simp), from_utf8_lossy_nil, List.append_nil]
      | cons first rest =>
        rw [if_neg (by simp)]
        dsimp only
        rw [if_pos hroom]
    rw [List.foldl_cons, hstep, ih _ h, pieces_cons, List.append_assoc]

/-- After it was cut, a stream is left alone. -/
theorem foldl_truncated (reads : List (List UInt8)) (target : Text) :
    reads.foldl (fun output data => (append_bounded output data).1) ⟨target, true⟩ =
      ⟨target, true⟩ := by
  induction reads with
  | nil => rfl
  | cons data later ih =>
    have hstep : (append_bounded ⟨target, true⟩ data).1 = ⟨target, true⟩ := by
      unfold append_bounded
      rw [if_pos (by simp)]
    rw [List.foldl_cons, hstep, ih]

theorem capture_room {reads : List (List UInt8)} (h : (pieces reads).len ≤ COMMAND_OUTPUT_LIMIT) :
    capture reads = ⟨pieces reads, false⟩ := foldl_room reads [] h

theorem capture_overflow {done : List (List UInt8)} {data : List UInt8}
    (later : List (List UInt8))
    (hroom : (pieces done).len ≤ COMMAND_OUTPUT_LIMIT)
    (hover : COMMAND_OUTPUT_LIMIT < (pieces done).len + (from_utf8_lossy data).len) :
    capture (done ++ data :: later) = ⟨append_cut (pieces done) (from_utf8_lossy data), true⟩ := by
  have hdone : capture done = ⟨pieces done, false⟩ := capture_room hroom
  have hstep : (append_bounded ⟨pieces done, false⟩ data).1 =
      ⟨append_cut (pieces done) (from_utf8_lossy data), true⟩ := by
    unfold append_bounded
    cases data with
    | nil =>
      rw [from_utf8_lossy_nil, Text.len_nil] at hover
      omega
    | cons first rest =>
      rw [if_neg (by simp)]
      dsimp only
      rw [if_neg (by omega)]
  unfold capture at hdone ⊢
  rw [List.foldl_append, hdone, List.foldl_cons, hstep, foldl_truncated]

/-- Where a stream has no room for all reads, there is a first read that it has
    no room for. -/
theorem first_over (reads : List (List UInt8)) (limit : Nat) (h : limit < (pieces reads).len) :
    ∃ done data later, reads = done ++ data :: later ∧ (pieces done).len ≤ limit ∧
      limit < (pieces done).len + (from_utf8_lossy data).len := by
  induction reads generalizing limit with
  | nil => exact absurd h (Nat.not_lt_zero _)
  | cons data later ih =>
    rw [pieces_cons, Text.len_append] at h
    by_cases hroom : limit < (from_utf8_lossy data).len
    · refine ⟨[], data, later, rfl, Nat.zero_le _, ?_⟩
      rw [pieces_nil, Text.len_nil]
      omega
    · obtain ⟨done, next, rest, hreads, hdone, hover⟩ :=
        ih (limit - (from_utf8_lossy data).len) (by omega)
      refine ⟨data :: done, next, rest, by rw [hreads]; rfl, ?_, ?_⟩
      · rw [pieces_cons, Text.len_append]
        omega
      · rw [pieces_cons, Text.len_append]
        omega

/-! ### The text of the pieces, and the text of the stream -/

theorem utf8Size_replacement : REPLACEMENT_CHARACTER.utf8Size = 3 := by decide

theorem len_replicate (n : Nat) (c : Char) : Text.len (List.replicate n c) = n * c.utf8Size := by
  induction n with
  | zero => rw [Nat.zero_mul]; rfl
  | succ n ih =>
    rw [List.replicate_succ, Text.len_cons, ih, Nat.succ_mul, Nat.add_comm]

/-- A torn character makes the text longer. -/
theorem pieces_len (reads : List (List UInt8)) :
    (from_utf8_lossy reads.flatten).len ≤ (pieces reads).len := by
  induction reads with
  | nil => exact Nat.le_refl _
  | cons data later ih =>
    rw [List.flatten_cons, pieces_cons, Text.len_append]
    cases cut_text data later.flatten with
    | clean _ hwhole =>
      rw [hwhole, Text.len_append]
      omega
    | torn before after c hcarried hwhole hdata hlater =>
      have hc : c.utf8Size ≤ 4 := Char.utf8Size_le_four c
      rw [hlater, Text.len_append, len_replicate, utf8Size_replacement] at ih
      rw [hwhole, hdata, Text.len_append, Text.len_append, Text.len_cons, Text.len_cons,
        Text.len_nil, utf8Size_replacement]
      omega

/-- Where no character is torn, the pieces are the text. -/
theorem pieces_of_clean {reads : List (List UInt8)} (h : Clean reads) :
    pieces reads = from_utf8_lossy reads.flatten := by
  induction reads with
  | nil => rfl
  | cons data later ih =>
    rw [pieces_cons, List.flatten_cons, ih h.2]
    cases cut_text data later.flatten with
    | clean _ hwhole => exact hwhole.symm
    | torn _ _ _ hcarried => exact absurd h.1 (Nat.pos_iff_ne_zero.mp hcarried)

/-- The pieces have one character more for each byte that is carried over a cut. -/
theorem clean_of_length {reads : List (List UInt8)} :
    (from_utf8_lossy reads.flatten).length ≤ (pieces reads).length ∧
      ((pieces reads).length ≤ (from_utf8_lossy reads.flatten).length → Clean reads) := by
  induction reads with
  | nil => exact ⟨Nat.le_refl _, fun _ => trivial⟩
  | cons data later ih =>
    rw [pieces_cons, List.flatten_cons, List.length_append]
    cases cut_text data later.flatten with
    | clean hcarried hwhole =>
      rw [hwhole, List.length_append]
      refine ⟨by omega, ?_⟩
      intro hle
      exact ⟨hcarried, ih.2 (by omega)⟩
    | torn before after c hcarried hwhole hdata hlater =>
      have hmore := ih.1
      rw [hlater, List.length_append, List.length_replicate] at hmore
      rw [hwhole, hdata, List.length_append, List.length_append, List.length_cons,
        List.length_cons, List.length_nil]
      exact ⟨by omega, fun hle => by omega⟩

/-- Where no character within a limit is torn, what the limit keeps of the
    pieces is a start of the text. -/
theorem truncate_pieces_prefix {limit : Nat} {reads : List (List UInt8)}
    (h : CleanWithin limit reads) :
    Text.truncate_at limit (pieces reads) <+: from_utf8_lossy reads.flatten := by
  induction reads generalizing limit with
  | nil => exact List.prefix_rfl
  | cons data later ih =>
    rw [pieces_cons, List.flatten_cons]
    by_cases hfits : (from_utf8_lossy data).len ≤ limit
    · obtain ⟨hcarried, hrest⟩ := h hfits
      rw [Text.truncate_at_append _ hfits]
      cases cut_text data later.flatten with
      | clean _ hwhole =>
        rw [hwhole]
        exact (List.prefix_append_right_inj _).mpr (ih hrest)
      | torn _ _ _ htorn => exact absurd hcarried (Nat.pos_iff_ne_zero.mp htorn)
    · rw [Text.truncate_at_append_of_lt _ (by omega)]
      cases cut_text data later.flatten with
      | clean _ hwhole =>
        rw [hwhole]
        exact (Text.truncate_at_prefix _ _).trans (List.prefix_append _ _)
      | torn before after c _ hwhole hdata =>
        -- the replacement for the torn character is beyond the limit
        rw [hwhole, hdata]
        rw [hdata] at hfits
        exact (Text.truncate_at_snoc (by omega)).trans (List.prefix_append _ _)

theorem CleanWithin.mono {limit limit' : Nat} {reads : List (List UInt8)} (hle : limit' ≤ limit)
    (h : CleanWithin limit reads) : CleanWithin limit' reads := by
  induction reads generalizing limit limit' with
  | nil => trivial
  | cons data later ih =>
    intro hfits
    obtain ⟨hcarried, hrest⟩ := h (by omega)
    exact ⟨hcarried, ih (by omega) hrest⟩

/-- A limit that keeps no replacement keeps no part of a torn character. -/
theorem clean_of_no_replacement {limit : Nat} {reads : List (List UInt8)}
    (h : REPLACEMENT_CHARACTER ∉ Text.truncate_at limit (pieces reads)) :
    CleanWithin limit reads := by
  induction reads generalizing limit with
  | nil => trivial
  | cons data later ih =>
    intro hfits
    rw [pieces_cons, Text.truncate_at_append _ hfits, List.mem_append, not_or] at h
    cases cut_text data later.flatten with
    | clean hcarried _ => exact ⟨hcarried, ih h.2⟩
    | torn before after c _ _ hdata =>
      rw [hdata] at h
      exact absurd (List.mem_append_right before List.mem_cons_self) h.1

/-! ### The captured text -/

/-- The reads are cut where it does not matter. -/
def Undisturbed (reads : List (List UInt8)) : Prop :=
  if (from_utf8_lossy reads.flatten).len ≤ COMMAND_OUTPUT_LIMIT then Clean reads
  else CleanWithin CONTENT_LIMIT reads ∧ ¬Spills reads

theorem content_limit_add : CONTENT_LIMIT + OUTPUT_TRUNCATED_MARKER.len = COMMAND_OUTPUT_LIMIT := by
  decide

/-- What a stream is cut to. -/
def kept_of (before value : Text) : Text :=
  truncate_utf8 before CONTENT_LIMIT ++
    Text.truncate_at (CONTENT_LIMIT - (truncate_utf8 before CONTENT_LIMIT).len) value

theorem append_cut_eq (before value : Text) :
    append_cut before value = kept_of before value ++ OUTPUT_TRUNCATED_MARKER := rfl

theorem kept_of_len (before value : Text) : (kept_of before value).len ≤ CONTENT_LIMIT := by
  have hbefore : (truncate_utf8 before CONTENT_LIMIT).len ≤ CONTENT_LIMIT :=
    Text.truncate_at_len CONTENT_LIMIT before
  have hvalue := Text.truncate_at_len
    (CONTENT_LIMIT - (truncate_utf8 before CONTENT_LIMIT).len) value
  unfold kept_of
  rw [Text.len_append]
  omega

/-- Without a spill, a stream is cut to what the limit keeps of the pieces. -/
theorem kept_of_eq {done later : List (List UInt8)} {data : List UInt8}
    (hroom : (pieces done).len ≤ COMMAND_OUTPUT_LIMIT)
    (hover : COMMAND_OUTPUT_LIMIT < (pieces done).len + (from_utf8_lossy data).len)
    (hspills : ¬Spills (done ++ data :: later)) :
    kept_of (pieces done) (from_utf8_lossy data) =
      Text.truncate_at CONTENT_LIMIT (pieces (done ++ data :: later)) := by
  have hlimit := content_limit_add
  rw [pieces_append, pieces_cons]
  unfold kept_of truncate_utf8
  by_cases hdone : (pieces done).len ≤ CONTENT_LIMIT
  · have hall : Text.truncate_at CONTENT_LIMIT (pieces done) = pieces done := by
      have happend := Text.truncate_at_append [] hdone
      rw [List.append_nil] at happend
      rw [happend]
      exact List.append_nil _
    rw [hall, Text.truncate_at_append _ hdone, Text.truncate_at_append_of_lt _ (by omega)]
  · have hnone : Text.truncate_at
        (CONTENT_LIMIT - (truncate_utf8 (pieces done) CONTENT_LIMIT).len) (from_utf8_lossy data) =
          [] := by
      by_contra hsome
      exact hspills ⟨done, data, later, rfl, by omega, hroom, hover, hsome⟩
    unfold truncate_utf8 at hnone
    rw [hnone, List.append_nil, Text.truncate_at_append_of_lt _ (by omega)]

/-- A text that does not fit is cut. -/
theorem asDecoded_over {data : List UInt8} {kept : Text}
    (hover : ¬(from_utf8_lossy data).len ≤ COMMAND_OUTPUT_LIMIT) (hlen : kept.len ≤ CONTENT_LIMIT) :
    AsDecoded data ⟨kept ++ OUTPUT_TRUNCATED_MARKER, true⟩ ↔ kept <+: from_utf8_lossy data := by
  have hlimit := content_limit_add
  unfold AsDecoded
  rw [if_neg hover]
  constructor
  · rintro ⟨_, _, kept', hkept, htarget⟩
    rw [List.append_cancel_right htarget]
    exact hkept
  · intro hkept
    refine ⟨rfl, ?_, kept, hkept, rfl⟩
    dsimp only
    rw [Text.len_append]
    omega

/-- Two starts of one text continue in the same way. -/
theorem prefix_next {a x y whole : Text} {c d : Char} (hc : a ++ c :: x <+: whole)
    (hd : a ++ d :: y <+: whole) : c = d := by
  obtain ⟨x', rfl⟩ := hc
  rw [List.append_assoc, List.prefix_append_right_inj, List.cons_append, List.cons_prefix_cons] at hd
  exact hd.1.symm

/-- A spill puts a character in the place of another one. -/
theorem spill_differs {reads : List (List UInt8)} (hclean : CleanWithin COMMAND_OUTPUT_LIMIT reads)
    (hspills : Spills reads) (hfits : ¬(from_utf8_lossy reads.flatten).len ≤ COMMAND_OUTPUT_LIMIT) :
    ¬AsDecoded reads.flatten (capture reads) := by
  obtain ⟨done, data, later, rfl, hcontent, hroom, hover, hsome⟩ := hspills
  rw [capture_overflow later hroom hover, append_cut_eq, asDecoded_over hfits (kept_of_len _ _)]
  intro hkept
  have hdone : pieces done <+: from_utf8_lossy (done ++ data :: later).flatten := by
    have htruncated := truncate_pieces_prefix hclean
    rw [pieces_append, Text.truncate_at_append _ hroom] at htruncated
    exact (List.prefix_append _ _).trans htruncated
  obtain ⟨d, rest, hnext, hlarge⟩ := Text.truncate_at_next hcontent
  obtain ⟨c, spilled, hfirst, hsmall⟩ := Text.truncate_at_first hsome
  unfold kept_of at hkept
  rw [hfirst] at hkept
  rw [hnext] at hdone
  have hsame : c = d := prefix_next hkept hdone
  unfold truncate_utf8 at hsmall
  rw [hsame] at hsmall
  omega

/-- Reads that are cut where it does not matter are captured as they are
    decoded.  For a text that fits, and for reads that tear nothing before the
    limit, no other cuts are; nor are they for a text without a replacement,
    unless the next read spills over. -/
theorem captured_when (reads : List (List UInt8)) :
    (Undisturbed reads → AsDecoded reads.flatten (capture reads)) ∧
      ((from_utf8_lossy reads.flatten).len ≤ COMMAND_OUTPUT_LIMIT ∨
          CleanWithin COMMAND_OUTPUT_LIMIT reads ∨
          REPLACEMENT_CHARACTER ∉ from_utf8_lossy reads.flatten ∧ ¬Spills reads →
        AsDecoded reads.flatten (capture reads) → Undisturbed reads) := by
  have hlimit := content_limit_add
  unfold Undisturbed
  by_cases hfits : (from_utf8_lossy reads.flatten).len ≤ COMMAND_OUTPUT_LIMIT
  · -- a text that fits: the pieces have the length of the text only if none is torn
    rw [if_pos hfits]
    unfold AsDecoded
    rw [if_pos hfits]
    constructor
    · intro hclean
      have hpieces := pieces_of_clean hclean
      rw [← hpieces] at hfits ⊢
      exact capture_room hfits
    · intro _ hcapture
      apply clean_of_length.2
      by_cases hroom : (pieces reads).len ≤ COMMAND_OUTPUT_LIMIT
      · rw [capture_room hroom] at hcapture
        have htext : pieces reads = from_utf8_lossy reads.flatten :=
          congrArg BoundedOutput.target hcapture
        rw [htext]
      · obtain ⟨done, data, later, hreads, hdone, hover⟩ := first_over reads COMMAND_OUTPUT_LIMIT (by omega)
        rw [hreads, capture_overflow _ hdone hover] at hcapture
        exact absurd (congrArg BoundedOutput.truncated hcapture) Bool.false_ne_true.symm
  · rw [if_neg hfits]
    have hlong := pieces_len reads
    obtain ⟨done, data, later, hreads, hroom, hover⟩ :=
      first_over reads COMMAND_OUTPUT_LIMIT (by omega)
    have hcapture := capture_overflow later hroom hover
    rw [← hreads, append_cut_eq] at hcapture
    have hdecoded : AsDecoded reads.flatten (capture reads) ↔
        kept_of (pieces done) (from_utf8_lossy data) <+: from_utf8_lossy reads.flatten := by
      rw [hcapture]
      exact asDecoded_over hfits (kept_of_len _ _)
    have hkept : ¬Spills reads → kept_of (pieces done) (from_utf8_lossy data) =
        Text.truncate_at CONTENT_LIMIT (pieces reads) := by
      intro hspills
      rw [hreads] at hspills ⊢
      exact kept_of_eq hroom hover hspills
    constructor
    · rintro ⟨hclean, hspills⟩
      rw [hdecoded, hkept hspills]
      exact truncate_pieces_prefix hclean
    · rintro (hcase | hclean | ⟨hplain, hspills⟩) hsame
      · exact absurd hcase hfits
      · refine ⟨hclean.mono (by omega), ?_⟩
        intro hspills
        exact spill_differs hclean hspills hfits hsame
      · refine ⟨clean_of_no_replacement ?_, hspills⟩
        intro hreplacement
        rw [hdecoded, hkept hspills] at hsame
        exact hplain (hsame.subset hreplacement)

/-- A character that two reads share is replaced three times. -/
theorem torn_character_is_replaced :
    ¬∀ reads : List (List UInt8), AsDecoded reads.flatten (capture reads) := by
  intro h
  have hdecoded := h [[0xE2], [0x82, 0xAC]]
  unfold AsDecoded at hdecoded
  rw [if_pos (by decide)] at hdecoded
  exact absurd hdecoded (by decide)

end Command
