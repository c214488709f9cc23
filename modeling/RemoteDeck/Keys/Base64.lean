import Mathlib.Data.Nat.Bitwise
import RemoteDeck.Error
import RemoteDeck.Lib.Base64
import RemoteDeck.Lib.Utf8

/-! # The base64 of public keys

    `decode_base64`, `base64_value` and `encode_base64_no_padding` of
    `keys.rs`, against the encoding of `Lib/Base64`.

    The decoder collects six bits a character in an accumulator and takes
    eight of them out as a byte (`Collected` is the invariant).  What it
    accepts are the encodings without padding.  A padded text it rejects: the
    lengths that its last check lets pass are those that no padded text has,
    so only a text that needs no padding has both its encodings decoded.
-/

namespace Keys

def MAX_PUBLIC_KEY_BYTES : Nat := 16 * 1024

inductive KeyUtilityError where
  | InvalidPublicKey
  | InvalidEd25519Blob
  | InvalidBase64
  deriving DecidableEq, Repr

/-! ### Decoding -/

def base64_value (value : UInt8) : Option Nat :=
  if 65 ≤ value ∧ value ≤ 90 then some (value - 65).toNat
  else if 97 ≤ value ∧ value ≤ 122 then some (value - 97 + 26).toNat
  else if 48 ≤ value ∧ value ≤ 57 then some (value - 48 + 52).toNat
  else if value = 43 then some 62
  else if value = 47 then some 63
  else none

/-- The bits that `decode_base64` has collected, how many they are, and the
    bytes it has put out. -/
structure Accumulated where
  accumulator : Nat
  bits : Nat
  output : List UInt8
  deriving DecidableEq, Repr

/-- The inner loop: take out a byte as long as there are eight bits. -/
def Accumulated.take_bytes (state : Accumulated) : Accumulated :=
  if _h : 8 ≤ state.bits then
    let bits := state.bits - 8
    take_bytes
      { accumulator := state.accumulator &&& if bits = 0 then 0 else (1 <<< bits) - 1
        bits := bits
        output := state.output ++ [UInt8.ofNat (state.accumulator >>> bits)] }
  else state
termination_by state.bits
decreasing_by
  show state.bits - 8 < state.bits
  omega

/-- One character's value.  The accumulator has fewer than eight bits before,
    so the shift keeps it within a `u32`. -/
def Accumulated.push (state : Accumulated) (value : Nat) : Accumulated :=
  take_bytes
    { state with accumulator := (state.accumulator <<< 6) ||| value, bits := state.bits + 6 }

/-- The outer loop. -/
def decode_bytes (state : Accumulated) : List UInt8 → Except KeyUtilityError Accumulated
  | [] => .ok state
  | byte :: bytes =>
      match base64_value byte with
      | some value => decode_bytes (state.push value) bytes
      | none => .error .InvalidBase64

def decode_base64 (input : Text) : Except KeyUtilityError (List UInt8) :=
  let bytes := input.utf8
  if bytes.isEmpty ∨ MAX_PUBLIC_KEY_BYTES < bytes.length then .error .InvalidBase64
  else
    let padding := (bytes.reverse.takeWhile (· = 61)).length
    let body := bytes.take (bytes.length - padding)
    if 2 < padding ∨ 61 ∈ body ∨ (0 < padding ∧ bytes.length &&& 3 ≠ 0) ∨
        (bytes.length - padding) % 4 = 1 then
      .error .InvalidBase64
    else do
      let state ← decode_bytes ⟨0, 0, []⟩ body
      if state.accumulator ≠ 0 then .error .InvalidBase64
      else
        let expected_remainder := (bytes.length - padding) % 4
        if (expected_remainder, padding) ∈ [(0, 1), (0, 2), (2, 0), (2, 1), (3, 0), (3, 2)] then
          .ok state.output
        else if expected_remainder ≠ 0 ∨ padding ≠ 0 then .error .InvalidBase64
        else .ok state.output

/-! ### Encoding -/

def TABLE : List Char := Base64.alphabet

/-- The characters of a chunk of one to three bytes. -/
def encode_chunk (chunk : List UInt8) : Text :=
  let first := chunk.getD 0 0
  let second := chunk.getD 1 0
  let third := chunk.getD 2 0
  [TABLE.getD (first >>> 2).toNat '=', TABLE.getD ((first &&& 0x03) <<< 4 ||| second >>> 4).toNat '=']
    ++ (if 1 < chunk.length then [TABLE.getD ((second &&& 0x0f) <<< 2 ||| third >>> 6).toNat '=']
      else [])
    ++ if 2 < chunk.length then [TABLE.getD (third &&& 0x3f).toNat '='] else []

def encode_base64_no_padding : List UInt8 → Text
  | [] => []
  | first :: second :: third :: rest =>
      encode_chunk [first, second, third] ++ encode_base64_no_padding rest
  | chunk => encode_chunk chunk

/-! ### Characters -/

/-- The byte of a character of the alphabet. -/
def byte_of (value : Nat) : UInt8 := UInt8.ofNat (Base64.character value).toNat

theorem base64_value_byte_of {value : Nat} (h : value < 64) :
    base64_value (byte_of value) = some value := by
  have hall : ∀ value < 64, base64_value (byte_of value) = some value := by decide +kernel
  exact hall value h

theorem byte_of_base64_value {byte : UInt8} {value : Nat} (h : base64_value byte = some value) :
    value < 64 ∧ byte_of value = byte := by
  have hall : ∀ n < 256, (base64_value (UInt8.ofNat n)).all
      (fun value => value < 64 ∧ byte_of value = UInt8.ofNat n) = true := by decide +kernel
  have hbyte := hall byte.toNat byte.toNat_lt
  rw [UInt8.ofNat_toNat, h] at hbyte
  simpa using hbyte

theorem character_ascii (value : Nat) : (Base64.character value).toNat < 128 := by
  have hall : ∀ c ∈ '=' :: Base64.alphabet, c.toNat < 128 := Text.forall_mem_of_all (by decide)
  refine hall _ ?_
  unfold Base64.character
  rw [List.getD_eq_getElem?_getD]
  cases hget : Base64.alphabet[value]? with
  | none => exact List.mem_cons_self
  | some c => exact List.mem_cons_of_mem _ (List.mem_of_getElem? hget)

theorem utf8_characters (values : List Nat) :
    Text.utf8 (values.map Base64.character) = values.map byte_of := by
  induction values with
  | nil => rfl
  | cons value values ih =>
    rw [List.map_cons, Text.utf8_cons, Text.encode_ascii (character_ascii value), ih]
    rfl

/-! ### The accumulator -/

/-- The bytes put out and the bits that are left are the digits consumed so far. -/
structure Collected (state : Accumulated) (digits : List Bool) : Prop where
  few : state.bits < 8
  fits : state.accumulator < 2 ^ state.bits
  same : Base64.digits state.output ++ Base64.bits state.bits state.accumulator = digits

theorem collected_start : Collected ⟨0, 0, []⟩ [] where
  few := by decide
  fits := by decide
  same := rfl

theorem digits_concat (bytes : List UInt8) (byte : UInt8) :
    Base64.digits (bytes ++ [byte]) = Base64.digits bytes ++ Base64.bits 8 byte.toNat := by
  simp [Base64.digits]

/-- With eight bits or more, and fewer than sixteen, one byte is taken out. -/
theorem take_bytes_collected {accumulator bits : Nat} {output : List UInt8} {digits : List Bool}
    (hbits : bits < 16) (hfits : accumulator < 2 ^ bits)
    (hsame : Base64.digits output ++ Base64.bits bits accumulator = digits) :
    Collected (Accumulated.take_bytes ⟨accumulator, bits, output⟩) digits := by
  by_cases hmany : 8 ≤ bits
  · have hmask : (if bits - 8 = 0 then 0 else (1 <<< (bits - 8)) - 1) = 2 ^ (bits - 8) - 1 := by
      split
      · rename_i hzero
        simp [hzero]
      · rw [Nat.one_shiftLeft]
    have hpow : 2 ^ bits = 2 ^ 8 * 2 ^ (bits - 8) := by
      rw [← Nat.pow_add]
      congr 1
      omega
    have hbyte : accumulator / 2 ^ (bits - 8) < 256 := by
      rw [Nat.div_lt_iff_lt_mul (Nat.two_pow_pos _)]
      omega
    -- what is left has fewer than eight bits, so the loop ends
    have hstep : Accumulated.take_bytes ⟨accumulator, bits, output⟩ =
        ⟨accumulator % 2 ^ (bits - 8), bits - 8,
          output ++ [UInt8.ofNat (accumulator / 2 ^ (bits - 8))]⟩ := by
      rw [Accumulated.take_bytes, dif_pos hmany, Accumulated.take_bytes, dif_neg]
      · dsimp only
        rw [hmask, Nat.and_two_pow_sub_one_eq_mod, Nat.shiftRight_eq_div_pow]
      · show ¬ 8 ≤ bits - 8
        omega
    rw [hstep]
    refine ⟨by show bits - 8 < 8; omega, Nat.mod_lt _ (Nat.two_pow_pos _), ?_⟩
    have hsplit : Base64.bits bits accumulator =
        Base64.bits 8 (accumulator / 2 ^ (bits - 8)) ++ Base64.bits (bits - 8) accumulator := by
      rw [← Base64.bits_add]
      congr 1
      omega
    have hmod : (UInt8.ofNat (accumulator / 2 ^ (bits - 8))).toNat =
        accumulator / 2 ^ (bits - 8) := by
      rw [UInt8.toNat_ofNat']
      exact Nat.mod_eq_of_lt hbyte
    show Base64.digits (output ++ [_]) ++ Base64.bits (bits - 8) (accumulator % _) = digits
    rw [digits_concat, hmod, Base64.bits_mod, List.append_assoc, ← hsplit, hsame]
  · rw [Accumulated.take_bytes, dif_neg hmany]
    exact ⟨by show bits < 8; omega, hfits, hsame⟩

theorem push_collected {state : Accumulated} {digits : List Bool} {value : Nat}
    (h : Collected state digits) (hvalue : value < 64) :
    Collected (state.push value) (digits ++ Base64.bits 6 value) := by
  have hor : (state.accumulator <<< 6) ||| value = state.accumulator * 2 ^ 6 + value := by
    rw [← Nat.shiftLeft_add_eq_or_of_lt (by omega : value < 2 ^ 6), Nat.shiftLeft_eq]
  have hfits := h.fits
  have hfew := h.few
  refine take_bytes_collected (by omega) ?_ ?_
  · rw [hor, Nat.pow_add]
    omega
  · have hdiv : (state.accumulator * 2 ^ 6 + value) / 2 ^ 6 = state.accumulator := by omega
    have hmod : Base64.bits 6 (state.accumulator * 2 ^ 6 + value) = Base64.bits 6 value := by
      rw [← Base64.bits_mod]
      congr 1
      omega
    rw [hor, Base64.bits_add, hdiv, hmod, ← List.append_assoc, h.same]

/-- The loop runs through the values of characters, and stops at any other byte. -/
theorem decode_bytes_eq_ok {state state' : Accumulated} {body : List UInt8} :
    decode_bytes state body = .ok state' ↔
      ∃ values : List Nat, (∀ value ∈ values, value < 64) ∧ body = values.map byte_of ∧
        state' = values.foldl Accumulated.push state := by
  induction body generalizing state with
  | nil =>
    constructor
    · intro h
      cases h
      exact ⟨[], List.forall_mem_nil _, rfl, rfl⟩
    · rintro ⟨values, -, hbody, rfl⟩
      rw [List.map_eq_nil_iff.mp hbody.symm]
      rfl
  | cons byte body ih =>
    unfold decode_bytes
    constructor
    · intro h
      cases hbyte : base64_value byte with
      | none => simp [hbyte] at h
      | some value =>
        rw [hbyte] at h
        obtain ⟨values, hsmall, rfl, rfl⟩ := ih.mp h
        obtain ⟨hvalue, rfl⟩ := byte_of_base64_value hbyte
        exact ⟨value :: values, List.forall_mem_cons.mpr ⟨hvalue, hsmall⟩, rfl, rfl⟩
    · rintro ⟨values, hsmall, hbody, rfl⟩
      cases values with
      | nil => simp at hbody
      | cons value values =>
        obtain ⟨hvalue, hsmall⟩ := List.forall_mem_cons.mp hsmall
        obtain ⟨rfl, rfl⟩ := List.cons.inj hbody
        rw [base64_value_byte_of hvalue]
        exact ih.mpr ⟨values, hsmall, rfl, rfl⟩

theorem push_all_collected {state : Accumulated} {digits : List Bool} {values : List Nat}
    (h : Collected state digits) (hvalues : ∀ value ∈ values, value < 64) :
    Collected (values.foldl Accumulated.push state)
      (digits ++ values.flatMap (Base64.bits 6)) := by
  induction values generalizing state digits with
  | nil => simpa using h
  | cons value values ih =>
    obtain ⟨hvalue, hothers⟩ := List.forall_mem_cons.mp hvalues
    have hrest := ih (push_collected h hvalue) hothers
    rwa [List.append_assoc] at hrest

/-! ### Texts -/

/-- A text of the alphabet, without padding. -/
theorem utf8_eq_bytes {text : Text} {values : List Nat} (h : text.utf8 = values.map byte_of) :
    text = values.map Base64.character := by
  have htext := Text.from_utf8_utf8 text
  rw [h, ← utf8_characters, Text.from_utf8_utf8] at htext
  exact (Option.some.inj htext).symm

theorem byte_of_ne_padding {value : Nat} (h : value < 64) : byte_of value ≠ 61 := by
  intro heq
  have hvalue := base64_value_byte_of h
  have hnone : base64_value 61 = none := by decide
  rw [heq, hnone] at hvalue
  cases hvalue

/-- No text with padding has a length that the last check lets pass. -/
theorem padding_rejected {length padding : Nat} (hle : padding ≤ length) (hfew : ¬ 2 < padding)
    (hwhole : ¬ (0 < padding ∧ length &&& 3 ≠ 0))
    (hcheck : ((length - padding) % 4, padding) ∈
        [(0, 1), (0, 2), (2, 0), (2, 1), (3, 0), (3, 2)] ∨
      ¬ ((length - padding) % 4 ≠ 0 ∨ padding ≠ 0)) : padding = 0 := by
  have hand : length &&& 3 = length % 4 := Nat.and_two_pow_sub_one_eq_mod length 2
  rw [hand] at hwhole
  simp only [List.mem_cons, Prod.mk.injEq, List.not_mem_nil, or_false] at hcheck
  omega

/-- What the decoder accepts has no padding, and is made of the characters of
    the values that its loop ran through. -/
theorem decode_base64_eq_ok {input : Text} {output : List UInt8}
    (h : decode_base64 input = .ok output) :
    ∃ values : List Nat, (∀ value ∈ values, value < 64) ∧ input.utf8 = values.map byte_of ∧
      values.length % 4 ≠ 1 ∧ (values.foldl Accumulated.push ⟨0, 0, []⟩).accumulator = 0 ∧
      (values.foldl Accumulated.push ⟨0, 0, []⟩).output = output := by
  unfold decode_base64 at h
  dsimp only at h
  split at h
  · cases h
  split at h
  · cases h
  rename_i hchecks
  have hle : (input.utf8.reverse.takeWhile (· = 61)).length ≤ input.utf8.length := by
    have hprefix := (List.takeWhile_prefix (fun byte => decide (byte = 61))
      (l := input.utf8.reverse)).length_le
    rwa [List.length_reverse] at hprefix
  generalize (input.utf8.reverse.takeWhile (· = 61)).length = padding at h hchecks hle
  simp only [not_or] at hchecks
  obtain ⟨hfew, -, hwhole, hremainder⟩ := hchecks
  obtain ⟨state, hstate, h⟩ := Outcome.bind_eq_ok.mp h
  split at h
  · cases h
  rename_i hzero
  have hnone : padding = 0 := by
    refine padding_rejected hle hfew hwhole ?_
    split at h
    · exact .inl ‹_›
    · split at h
      · cases h
      · exact .inr ‹_›
  subst hnone
  rw [Nat.sub_zero, List.take_length] at hstate
  rw [Nat.sub_zero] at hremainder
  obtain ⟨values, hsmall, hbody, rfl⟩ := decode_bytes_eq_ok.mp hstate
  have hlength := congrArg List.length hbody
  rw [List.length_map] at hlength
  refine ⟨values, hsmall, hbody, by rwa [← hlength], by simpa using hzero, ?_⟩
  split at h
  · cases h
    rfl
  · split at h
    · cases h
    · cases h
      rfl

/-- What the checks of the decoder let pass: the unpadded encoding of what it
    returns. -/
theorem accepted_encoding {input : Text} {output : List UInt8}
    (h : decode_base64 input = .ok output) : input = Base64.encode_no_pad output := by
  obtain ⟨values, hsmall, hinput, hlength, hzero, houtput⟩ := decode_base64_eq_ok h
  obtain ⟨hfew, -, hsame⟩ := push_all_collected collected_start hsmall
  rw [hzero, houtput, Base64.bits_zero, List.nil_append] at hsame
  -- the bits that are left are fewer than six
  have hcount := congrArg List.length hsame
  rw [List.length_append, Base64.length_digits, List.length_replicate,
    Base64.length_groups] at hcount
  have hgroups := Base64.sextets_eq (by omega) hsmall hsame
  rw [utf8_eq_bytes hinput, ← hgroups]
  rfl

/-- The decoder undoes the unpadded encoding. -/
theorem decode_encode_no_pad {bytes : List UInt8} (hne : bytes ≠ [])
    (hsize : (Base64.encode_no_pad bytes).length ≤ MAX_PUBLIC_KEY_BYTES) :
    decode_base64 (Base64.encode_no_pad bytes) = .ok bytes := by
  obtain ⟨⟨fill, hfill, hdigits⟩, hsmall⟩ := Base64.sextets_bits (Base64.digits bytes)
  have hlength := Base64.length_encode_no_pad bytes
  have hutf8 := utf8_characters (Base64.sextets (Base64.digits bytes))
  have hchars : Base64.encode_no_pad bytes =
    (Base64.sextets (Base64.digits bytes)).map Base64.character := rfl
  rw [← hchars] at hutf8
  rw [hchars, List.length_map] at hlength hsize
  generalize Base64.sextets (Base64.digits bytes) = values at hdigits hsmall hlength hsize hutf8
  have hpos := List.length_pos_of_ne_nil hne
  have hbody : ∀ byte ∈ values.map byte_of, byte ≠ 61 := by
    intro byte hmem
    obtain ⟨value, hvalue, rfl⟩ := List.mem_map.mp hmem
    exact byte_of_ne_padding (hsmall value hvalue)
  -- the loop puts out the bytes, and nothing but what fills up the last group is left
  obtain ⟨hfew, hfits, hsame⟩ := push_all_collected collected_start hsmall
  rw [List.nil_append, hdigits] at hsame
  have hcount := congrArg List.length hsame
  rw [List.length_append, List.length_append, Base64.length_digits, Base64.length_digits,
    Base64.length_bits, List.length_replicate] at hcount
  obtain ⟨houtput, hleft⟩ := List.append_inj hsame (by
    rw [Base64.length_digits, Base64.length_digits]
    omega)
  have hzero : (values.foldl Accumulated.push ⟨0, 0, []⟩).accumulator = 0 := by
    refine Base64.bits_inj hfits (Nat.two_pow_pos _) ?_
    rw [hleft, Base64.bits_zero]
    congr 1
    omega
  have hloop : decode_bytes ⟨0, 0, []⟩ (values.map byte_of) =
      .ok (values.foldl Accumulated.push ⟨0, 0, []⟩) :=
    decode_bytes_eq_ok.mpr ⟨values, hsmall, rfl, rfl⟩
  have hpadding : ((values.map byte_of).reverse.takeWhile (· = 61)).length = 0 := by
    rw [List.length_eq_zero_iff, List.takeWhile_eq_nil_iff]
    intro hlt
    simpa using hbody _ (List.mem_reverse.mp (List.getElem_mem hlt))
  have hbody61 : (61 : UInt8) ∉ values.map byte_of := fun hmem => hbody 61 hmem rfl
  unfold decode_base64
  dsimp only
  rw [hutf8, hpadding, Nat.sub_zero, List.take_length, if_neg, if_neg, hloop, Outcome.ok_bind,
    if_neg (by simpa using hzero), Base64.digits_inj houtput]
  · rw [List.length_map, hlength]
    split
    · rfl
    · rename_i hcheck
      have hremainder : (4 * bytes.length + 2) / 3 % 4 = 0 := by
        simp at hcheck
        omega
      rw [hremainder]
      rfl
  · rw [List.length_map, hlength]
    rintro (hmany | hmem | ⟨hsome, -⟩ | hone)
    · omega
    · exact hbody61 hmem
    · omega
    · omega
  · simp only [List.isEmpty_iff, List.map_eq_nil_iff, List.length_map, not_or]
    refine ⟨?_, by omega⟩
    rintro rfl
    simp at hlength
    omega

/-! ### The encoder -/

/-- The groups of a chunk, as the encoder computes them. -/
theorem second_group (first second : UInt8) :
    ((first &&& 0x03) <<< 4 ||| second >>> 4).toNat = first.toNat % 4 * 16 + second.toNat / 16 := by
  have hand : first.toNat &&& 3 = first.toNat % 4 := Nat.and_two_pow_sub_one_eq_mod _ 2
  have hsecond := second.toNat_lt
  rw [UInt8.toNat_or, UInt8.toNat_shiftLeft, UInt8.toNat_shiftRight, UInt8.toNat_and]
  show (first.toNat &&& 3) <<< 4 % 256 ||| second.toNat >>> 4 = _
  rw [hand, Nat.shiftRight_eq_div_pow, Nat.mod_eq_of_lt (by rw [Nat.shiftLeft_eq]; omega),
    ← Nat.shiftLeft_add_eq_or_of_lt (by omega), Nat.shiftLeft_eq]

theorem third_group (second third : UInt8) :
    ((second &&& 0x0f) <<< 2 ||| third >>> 6).toNat = second.toNat % 16 * 4 + third.toNat / 64 := by
  have hand : second.toNat &&& 15 = second.toNat % 16 := Nat.and_two_pow_sub_one_eq_mod _ 4
  have hthird := third.toNat_lt
  rw [UInt8.toNat_or, UInt8.toNat_shiftLeft, UInt8.toNat_shiftRight, UInt8.toNat_and]
  show (second.toNat &&& 15) <<< 2 % 256 ||| third.toNat >>> 6 = _
  rw [hand, Nat.shiftRight_eq_div_pow, Nat.mod_eq_of_lt (by rw [Nat.shiftLeft_eq]; omega),
    ← Nat.shiftLeft_add_eq_or_of_lt (by omega), Nat.shiftLeft_eq]

theorem first_group (first : UInt8) : (first >>> 2).toNat = first.toNat / 4 := by
  rw [UInt8.toNat_shiftRight]
  show first.toNat >>> 2 = _
  rw [Nat.shiftRight_eq_div_pow]

theorem fourth_group (third : UInt8) : (third &&& 0x3f).toNat = third.toNat % 64 := by
  rw [UInt8.toNat_and]
  exact Nat.and_two_pow_sub_one_eq_mod _ 6

/-- The digits of a byte, cut where the groups of a chunk are cut. -/
theorem first_digits (first : UInt8) :
    Base64.bits 8 first.toNat = Base64.bits 6 (first.toNat / 4) ++ Base64.bits 2 (first.toNat % 4) := by
  rw [show Base64.bits 2 (first.toNat % 4) = Base64.bits 2 first.toNat from Base64.bits_mod 2 _]
  exact Base64.bits_add 6 2 _

theorem second_digits (second : UInt8) :
    Base64.bits 8 second.toNat =
      Base64.bits 4 (second.toNat / 16) ++ Base64.bits 4 (second.toNat % 16) := by
  rw [show Base64.bits 4 (second.toNat % 16) = Base64.bits 4 second.toNat from Base64.bits_mod 4 _]
  exact Base64.bits_add 4 4 _

theorem third_digits (third : UInt8) :
    Base64.bits 8 third.toNat = Base64.bits 2 (third.toNat / 64) ++ Base64.bits 6 (third.toNat % 64) := by
  rw [show Base64.bits 6 (third.toNat % 64) = Base64.bits 6 third.toNat from Base64.bits_mod 6 _]
  exact Base64.bits_add 2 6 _

/-- The group across the first two bytes of a chunk, and that across the last two. -/
theorem second_joined (first second : UInt8) (tail : List Bool) :
    Base64.bits 2 (first.toNat % 4) ++ (Base64.bits 4 (second.toNat / 16) ++ tail) =
      Base64.bits 6 (first.toNat % 4 * 16 + second.toNat / 16) ++ tail := by
  have hsecond := second.toNat_lt
  rw [← List.append_assoc, Base64.bits_join _ _ (by omega)]
  rfl

theorem third_joined (second third : UInt8) (tail : List Bool) :
    Base64.bits 4 (second.toNat % 16) ++ (Base64.bits 2 (third.toNat / 64) ++ tail) =
      Base64.bits 6 (second.toNat % 16 * 4 + third.toNat / 64) ++ tail := by
  have hthird := third.toNat_lt
  rw [← List.append_assoc, Base64.bits_join _ _ (by omega)]
  rfl

theorem sextets_three (first second third : UInt8) (rest : List Bool) :
    Base64.sextets (Base64.bits 8 first.toNat ++ (Base64.bits 8 second.toNat ++
        (Base64.bits 8 third.toNat ++ rest))) =
      first.toNat / 4 :: (first.toNat % 4 * 16 + second.toNat / 16) ::
        (second.toNat % 16 * 4 + third.toNat / 64) :: third.toNat % 64 :: Base64.sextets rest := by
  have hfirst := first.toNat_lt
  have hsecond := second.toNat_lt
  have hthird := third.toNat_lt
  rw [first_digits, second_digits, third_digits, List.append_assoc, List.append_assoc,
    List.append_assoc, second_joined, third_joined, Base64.sextets_group (by omega),
    Base64.sextets_group (by omega), Base64.sextets_group (by omega),
    Base64.sextets_group (by omega)]

theorem sextets_two (first second : UInt8) :
    Base64.sextets (Base64.bits 8 first.toNat ++ Base64.bits 8 second.toNat) =
      [first.toNat / 4, first.toNat % 4 * 16 + second.toNat / 16, second.toNat % 16 * 4] := by
  have hfirst := first.toNat_lt
  have hsecond := second.toNat_lt
  have hlast := Base64.sextets_last (by decide : 0 < 4) (by decide) (second.toNat % 16)
  rw [first_digits, second_digits, List.append_assoc, second_joined, Base64.sextets_group (by omega),
    Base64.sextets_group (by omega), hlast]
  simp

theorem sextets_one (first : UInt8) :
    Base64.sextets (Base64.bits 8 first.toNat) = [first.toNat / 4, first.toNat % 4 * 16] := by
  have hfirst := first.toNat_lt
  have hlast := Base64.sextets_last (by decide : 0 < 2) (by decide) (first.toNat % 4)
  rw [first_digits, Base64.sextets_group (by omega), hlast]
  simp

theorem encode_base64_no_padding_eq (bytes : List UInt8) :
    encode_base64_no_padding bytes = Base64.encode_no_pad bytes := by
  unfold Base64.encode_no_pad
  induction bytes using encode_base64_no_padding.induct with
  | case1 => rfl
  | case2 first second third rest ih =>
    have hdigits : Base64.digits (first :: second :: third :: rest) =
        Base64.bits 8 first.toNat ++ (Base64.bits 8 second.toNat ++
          (Base64.bits 8 third.toNat ++ Base64.digits rest)) := rfl
    rw [hdigits, sextets_three, encode_base64_no_padding, ih, ← first_group, ← second_group,
      ← third_group, ← fourth_group]
    rfl
  | case3 chunk hne hshort =>
    rcases chunk with _ | ⟨first, _ | ⟨second, _ | ⟨third, rest⟩⟩⟩
    · exact absurd rfl hne
    · have hdigits : Base64.digits [first] = Base64.bits 8 first.toNat := by simp [Base64.digits]
      have hsecond := second_group first 0
      simp only [UInt8.toNat_zero, Nat.zero_div, Nat.add_zero] at hsecond
      rw [hdigits, sextets_one, ← first_group, ← hsecond]
      rfl
    · have hdigits : Base64.digits [first, second] =
          Base64.bits 8 first.toNat ++ Base64.bits 8 second.toNat := by simp [Base64.digits]
      have hthird := third_group second 0
      simp only [UInt8.toNat_zero, Nat.zero_div, Nat.add_zero] at hthird
      rw [hdigits, sextets_two, ← first_group, ← second_group, ← hthird]
      rfl
    · exact absurd rfl (hshort first second third rest)

/-! ### Both encodings -/

/-- What the decoder does right for a byte string. -/
structure RoundTrips (bytes : List UInt8) : Prop where
  padded : decode_base64 (Base64.encode bytes) = .ok bytes
  unpadded : decode_base64 (Base64.encode_no_pad bytes) = .ok bytes
  accepted : ∀ input output, decode_base64 input = .ok output →
    input = Base64.encode output ∨ input = Base64.encode_no_pad output
  encoder : encode_base64_no_padding bytes = Base64.encode_no_pad bytes

/-- Both encodings of a byte string are decoded when they are the same: its
    length is a multiple of three.  The last check rejects all padding. -/
theorem round_trips_iff {bytes : List UInt8} (hne : bytes ≠ [])
    (hsize : (Base64.encode bytes).length ≤ MAX_PUBLIC_KEY_BYTES) :
    RoundTrips bytes ↔ 3 ∣ bytes.length := by
  have hlength := Base64.length_encode_no_pad bytes
  have hencode : Base64.encode bytes = Base64.encode_no_pad bytes ++
      List.replicate ((4 - (Base64.encode_no_pad bytes).length % 4) % 4) '=' := rfl
  constructor
  · intro h
    -- a padded text is not the unpadded encoding of anything
    have hsame := congrArg List.length (accepted_encoding h.padded)
    rw [hencode, List.length_append, List.length_replicate, hlength] at hsame
    omega
  · intro hthree
    have hnone : (4 - (Base64.encode_no_pad bytes).length % 4) % 4 = 0 := by omega
    rw [hnone, List.replicate_zero, List.append_nil] at hencode
    have hdecode := decode_encode_no_pad hne (hencode ▸ hsize)
    exact
      { padded := hencode ▸ hdecode
        unpadded := hdecode
        accepted := fun input output h => .inr (accepted_encoding h)
        encoder := encode_base64_no_padding_eq bytes }

theorem round_trips_three : RoundTrips [1, 2, 3] :=
  (round_trips_iff (by decide) (by decide)).mpr (by decide)

/-- The padding that a byte needs is not accepted. -/
theorem padded_byte_rejected :
    Base64.encode [65] = "QQ==".toList ∧ decode_base64 "QQ==".toList = .error .InvalidBase64 := by
  refine ⟨by decide, ?_⟩
  decide +kernel

end Keys
