import RemoteDeck.Keys.Base64
import RemoteDeck.Lib.Rows

/-! # Lines of authorized_keys

    `parse_authorized_key` and `canonical_ed25519_public_key` of `keys.rs`.

    This file defines:
    - `parse_authorized_key`, with the checks on its fields
    - `canonical_ed25519_public_key`
    - `CanonicalKey`: a payload and a comment that make a canonical line

    A canonical line is made of a payload that was checked and of a comment
    without control characters (`canonical_eq_ok`), so it is one line, and
    it is read as the material that it was made of (`parse_canonical`).
-/

namespace Keys

def MAX_COMMENT_CHARS : Nat := 256

structure AuthorizedKey where
  algorithm : Text
  public_key_base64 : Text
  comment : Text
  material : Text
  deriving DecidableEq, Repr

/-! ### Fields -/

def is_key_algorithm (value : Text) : Bool :=
  value.starts_with "ssh-".toList || value.starts_with "ecdsa-".toList ||
    value.starts_with "sk-".toList || value.starts_with "rsa-sha2-".toList

/-- `u32::from_be_bytes`. -/
def from_be_bytes (bytes : List UInt8) : Nat := bytes.foldl (fun n byte => 256 * n + byte.toNat) 0

/-- `read_ssh_string`, with the cursor behind the string. -/
def read_ssh_string (input : List UInt8) (cursor : Nat) :
    Except KeyUtilityError (List UInt8 × Nat) :=
  if input.length < cursor + 4 then .error .InvalidEd25519Blob
  else
    let length := from_be_bytes ((input.drop cursor).take 4)
    let cursor := cursor + 4
    if input.length < cursor + length then .error .InvalidEd25519Blob
    else .ok ((input.drop cursor).take length, cursor + length)

def SSH_ED25519 : Text := "ssh-ed25519".toList

def validate_ed25519_payload (payload : Text) : Except KeyUtilityError (List UInt8) := do
  let blob ← decode_base64 payload
  let (algorithm, cursor) ← read_ssh_string blob 0
  let (key, cursor) ← read_ssh_string blob cursor
  if algorithm ≠ SSH_ED25519.utf8 ∨ key.length ≠ 32 ∨ cursor ≠ blob.length then
    .error .InvalidEd25519Blob
  else .ok blob

def clean_key_comment (value : Text) : Text :=
  let without_controls : Text := value.map fun c => if Text.is_control c then ' ' else c
  (Text.join ' ' without_controls.split_whitespace).take MAX_COMMENT_CHARS

/-! ### Lines -/

def material_of (algorithm payload : Text) : Text := algorithm ++ ' ' :: payload

/-- The key that the tokens of a line show. -/
def key_of_tokens (tokens : List Text) : Option AuthorizedKey := do
  let algorithm_index ← tokens.findIdx? is_key_algorithm
  let algorithm ← tokens[algorithm_index]?
  let payload ← tokens[algorithm_index + 1]?
  if (decode_base64 payload).toBool = false then none
  else if algorithm = SSH_ED25519 ∧ (validate_ed25519_payload payload).toBool = false then none
  else
    some
      { algorithm := algorithm
        public_key_base64 := payload
        comment := clean_key_comment (Text.join ' ' (tokens.drop (algorithm_index + 2)))
        material := material_of algorithm payload }

def parse_authorized_key (line : Text) : Option AuthorizedKey :=
  let trimmed := line.trim
  if trimmed.isEmpty || trimmed.starts_with ['#'] || MAX_PUBLIC_KEY_BYTES < trimmed.len then none
  else key_of_tokens trimmed.split_whitespace

def canonical_ed25519_public_key (line : Text) : Except KeyUtilityError Text := do
  let parsed ← (parse_authorized_key line).elim (.error .InvalidPublicKey) .ok
  if parsed.algorithm ≠ SSH_ED25519 then .error .InvalidEd25519Blob
  else
    let _ ← validate_ed25519_payload parsed.public_key_base64
    .ok (if parsed.comment.isEmpty then parsed.material
      else parsed.material ++ ' ' :: parsed.comment)

/-! ### What was parsed -/

/-- A line that parses shows its key in its tokens. -/
theorem parse_eq_some {line : Text} {key : AuthorizedKey} (h : parse_authorized_key line = some key) :
    line.trim.len ≤ MAX_PUBLIC_KEY_BYTES ∧ key_of_tokens line.split_whitespace = some key := by
  unfold parse_authorized_key at h
  dsimp only at h
  obtain ⟨hchecks, h⟩ := Option.ite_none_left_eq_some.mp h
  rw [Text.split_whitespace_trim] at h
  simp only [Bool.or_eq_true, decide_eq_true_eq, not_or, Nat.not_lt] at hchecks
  exact ⟨hchecks.2, h⟩

theorem key_of_tokens_eq_some {tokens : List Text} {key : AuthorizedKey}
    (h : key_of_tokens tokens = some key) :
    key.public_key_base64 ∈ tokens ∧ (∃ value, key.comment = clean_key_comment value) ∧
      key.material = material_of key.algorithm key.public_key_base64 := by
  unfold key_of_tokens at h
  obtain ⟨index, hindex, h⟩ := Option.bind_eq_some_iff.mp h
  obtain ⟨algorithm, halgorithm, h⟩ := Option.bind_eq_some_iff.mp h
  obtain ⟨payload, hpayload, h⟩ := Option.bind_eq_some_iff.mp h
  obtain ⟨_, h⟩ := Option.ite_none_left_eq_some.mp h
  obtain ⟨_, h⟩ := Option.ite_none_left_eq_some.mp h
  obtain rfl := Option.some.inj h
  exact ⟨List.mem_of_getElem? hpayload, ⟨_, rfl⟩, rfl⟩

/-- The first token that names an algorithm shows the key, with the token behind it. -/
theorem key_of_tokens_append {front : List Text} {algorithm payload : Text} (rest : List Text)
    (hfront : ∀ token ∈ front, is_key_algorithm token = false)
    (halgorithm : is_key_algorithm algorithm = true) (hdecodes : (decode_base64 payload).toBool = true)
    (hvalid : algorithm = SSH_ED25519 → (validate_ed25519_payload payload).toBool = true) :
    key_of_tokens (front ++ algorithm :: payload :: rest) =
      some
        { algorithm := algorithm
          public_key_base64 := payload
          comment := clean_key_comment (Text.join ' ' rest)
          material := material_of algorithm payload } := by
  have hnone : front.findIdx? is_key_algorithm = none := List.findIdx?_eq_none_iff.mpr hfront
  have hindex : (front ++ algorithm :: payload :: rest).findIdx? is_key_algorithm =
      some front.length := by
    simp [List.findIdx?_append, hnone, List.findIdx?_cons, halgorithm]
  have hfirst : (front ++ algorithm :: payload :: rest)[front.length]? = some algorithm := by
    simp
  have hsecond : (front ++ algorithm :: payload :: rest)[front.length + 1]? = some payload := by
    simp
  have hrest : (front ++ algorithm :: payload :: rest).drop (front.length + 2) = rest := by
    simp
  have hchecked : ¬ (algorithm = SSH_ED25519 ∧ (validate_ed25519_payload payload).toBool = false) := by
    rintro ⟨heq, hinvalid⟩
    rw [hvalid heq] at hinvalid
    cases hinvalid
  unfold key_of_tokens
  rw [hindex, Option.bind_eq_bind, Option.bind_some]
  simp only [hfirst, hsecond, hrest, Option.bind_eq_bind, Option.bind_some, hdecodes,
    Bool.true_eq_false, if_false, if_neg hchecked]

/-- A comment is short and has no control character. -/
theorem clean_key_comment_spec (value : Text) :
    (clean_key_comment value).length ≤ MAX_COMMENT_CHARS ∧
      ∀ c ∈ clean_key_comment value, Text.is_control c = false := by
  refine ⟨List.length_take_le _ _, fun c hc => ?_⟩
  rcases Text.mem_join (List.mem_of_mem_take hc) with rfl | ⟨word, hword, hmem⟩
  · decide
  · obtain ⟨d, _, rfl⟩ := List.mem_map.mp (Text.splitOnP_subset (List.mem_filter.mp hword).1 c hmem)
    by_cases hd : Text.is_control d = true
    · rw [if_pos hd]
      decide
    · rw [if_neg hd]
      exact Bool.not_eq_true _ ▸ hd

/-! ### Payloads -/

theorem read_ssh_string_eq_ok {input value : List UInt8} {cursor next : Nat}
    (h : read_ssh_string input cursor = .ok (value, next)) :
    next = cursor + 4 + value.length ∧ next ≤ input.length := by
  unfold read_ssh_string at h
  dsimp only at h
  obtain ⟨_, h⟩ := Outcome.ite_error_eq_ok.mp h
  obtain ⟨hfits, h⟩ := Outcome.ite_error_eq_ok.mp h
  simp only [Except.ok.injEq, Prod.mk.injEq] at h
  obtain ⟨rfl, rfl⟩ := h
  rw [List.length_take, List.length_drop]
  omega

/-- A valid payload encodes a blob of two strings, of 11 and of 32 bytes. -/
theorem validate_eq_ok {payload : Text} {blob : List UInt8}
    (h : validate_ed25519_payload payload = .ok blob) :
    decode_base64 payload = .ok blob ∧ blob.length = 51 := by
  unfold validate_ed25519_payload at h
  obtain ⟨decoded, hdecode, h⟩ := Outcome.bind_eq_ok.mp h
  obtain ⟨⟨algorithm, first⟩, hfirst, h⟩ := Outcome.bind_eq_ok.mp h
  obtain ⟨⟨key, second⟩, hsecond, h⟩ := Outcome.bind_eq_ok.mp h
  dsimp only at h
  obtain ⟨hchecks, h⟩ := Outcome.ite_error_eq_ok.mp h
  obtain rfl := Except.ok.inj h
  simp only [not_or, not_not] at hchecks
  obtain ⟨halgorithm, hkey, hend⟩ := hchecks
  have hname : SSH_ED25519.utf8.length = 11 := by decide
  obtain ⟨hcursor, -⟩ := read_ssh_string_eq_ok hfirst
  obtain ⟨hcursor', -⟩ := read_ssh_string_eq_ok hsecond
  rw [← halgorithm] at hname
  exact ⟨hdecode, by omega⟩

theorem toBool_eq_true {ε α : Type} {result : Except ε α} (h : result.toBool = true) :
    ∃ value, result = .ok value := by
  cases result with
  | ok value => exact ⟨value, rfl⟩
  | error e => cases h

/-- The blob of a public key. -/
def ed25519_blob (bytes : List UInt8) : List UInt8 :=
  [0, 0, 0, 11] ++ SSH_ED25519.utf8 ++ [0, 0, 0, 32] ++ bytes

theorem read_ssh_string_at (front header rest : List UInt8) {value : List UInt8}
    (hheader : header.length = 4) (hvalue : from_be_bytes header = value.length) :
    read_ssh_string (front ++ header ++ value ++ rest) front.length =
      .ok (value, front.length + 4 + value.length) := by
  have hlength : ((front ++ header ++ value ++ rest).drop front.length).take 4 = header := by
    rw [List.append_assoc, List.append_assoc, List.drop_left, ← hheader, List.take_left]
  have hbody : ((front ++ header ++ value ++ rest).drop (front.length + 4)).take value.length =
      value := by
    rw [← hheader, ← List.length_append, List.append_assoc _ value, List.drop_left, List.take_left]
  unfold read_ssh_string
  dsimp only
  rw [hlength, hvalue, hbody, if_neg, if_neg]
  · simp only [List.length_append]
    omega
  · simp only [List.length_append]
    omega

/-- Every key of 32 bytes has a valid payload. -/
theorem ed25519_blob_valid {bytes : List UInt8} (h : bytes.length = 32) :
    (validate_ed25519_payload (Base64.encode_no_pad (ed25519_blob bytes))).toBool = true := by
  have hname : SSH_ED25519.utf8.length = 11 := by decide
  have hsize : (ed25519_blob bytes).length = 51 := by
    unfold ed25519_blob
    simp only [List.length_append, List.length_cons, List.length_nil]
    omega
  have hdecode : decode_base64 (Base64.encode_no_pad (ed25519_blob bytes)) = .ok (ed25519_blob bytes) := by
    refine decode_encode_no_pad (List.ne_nil_of_length_pos (by omega)) ?_
    rw [Base64.length_encode_no_pad, hsize]
    unfold MAX_PUBLIC_KEY_BYTES
    omega
  have hfirst : read_ssh_string (ed25519_blob bytes) 0 = .ok (SSH_ED25519.utf8, 15) := by
    have hread := read_ssh_string_at [] [0, 0, 0, 11] ([0, 0, 0, 32] ++ bytes) rfl hname.symm
    rw [List.nil_append, List.length_nil, hname, ← List.append_assoc] at hread
    exact hread
  have hsecond : read_ssh_string (ed25519_blob bytes) 15 = .ok (bytes, 51) := by
    have hread := read_ssh_string_at ([0, 0, 0, 11] ++ SSH_ED25519.utf8) [0, 0, 0, 32] [] rfl
      h.symm
    rw [List.append_nil, List.length_append, hname, h] at hread
    exact hread
  unfold validate_ed25519_payload
  rw [hdecode, Outcome.ok_bind, hfirst, Outcome.ok_bind]
  dsimp only
  rw [hsecond, Outcome.ok_bind]
  dsimp only
  rw [if_neg (by simp [h, hsize])]
  rfl

/-- The base64 alphabet has neither blanks nor control characters. -/
theorem encode_no_pad_plain (bytes : List UInt8) :
    ∀ c ∈ Base64.encode_no_pad bytes, Text.is_whitespace c = false ∧ Text.is_control c = false := by
  have hall : ∀ c ∈ '=' :: Base64.alphabet, Text.is_whitespace c = false ∧ Text.is_control c = false :=
    Text.forall_mem_of_all (by decide)
  intro c hc
  obtain ⟨value, _, rfl⟩ := List.mem_map.mp hc
  refine hall _ ?_
  unfold Base64.character
  rw [List.getD_eq_getElem?_getD]
  cases hget : Base64.alphabet[value]? with
  | none => exact List.mem_cons_self
  | some c => exact List.mem_cons_of_mem _ (List.mem_of_getElem? hget)

/-- A valid payload is one short word. -/
theorem valid_payload {payload : Text} (h : (validate_ed25519_payload payload).toBool = true) :
    (decode_base64 payload).toBool = true ∧ payload.length = 68 ∧
      ∀ c ∈ payload, Text.is_whitespace c = false ∧ Text.is_control c = false := by
  obtain ⟨blob, hblob⟩ := toBool_eq_true h
  obtain ⟨hdecode, hlength⟩ := validate_eq_ok hblob
  refine ⟨by rw [hdecode]; rfl, ?_, ?_⟩
  · rw [accepted_encoding hdecode, Base64.length_encode_no_pad, hlength]
  · rw [accepted_encoding hdecode]
    exact encode_no_pad_plain blob

/-! ### Canonical lines -/

/-- A payload and a comment of a canonical line. -/
structure CanonicalKey where
  payload : Text
  comment : Text
  valid : (validate_ed25519_payload payload).toBool = true
  short : comment.length ≤ MAX_COMMENT_CHARS
  clean : ∀ c ∈ comment, Text.is_control c = false

namespace CanonicalKey

variable (key : CanonicalKey)

def material : Text := material_of SSH_ED25519 key.payload

def line : Text := if key.comment.isEmpty then key.material else key.material ++ ' ' :: key.comment

/-- What is canonical is made of a payload and a comment. -/
theorem of_canonical {input line : Text} (h : canonical_ed25519_public_key input = .ok line) :
    ∃ key : CanonicalKey, key.line = line := by
  unfold canonical_ed25519_public_key at h
  obtain ⟨parsed, hparsed, h⟩ := Outcome.bind_eq_ok.mp h
  cases hline : parse_authorized_key input with
  | none => simp [hline] at hparsed
  | some found =>
    rw [hline] at hparsed
    obtain rfl := Except.ok.inj hparsed
    obtain ⟨-, ⟨value, hcomment⟩, hmaterial⟩ := key_of_tokens_eq_some (parse_eq_some hline).2
    obtain ⟨hshort, hclean⟩ := clean_key_comment_spec value
    obtain ⟨halgorithm, h⟩ := Outcome.ite_error_eq_ok.mp h
    obtain ⟨blob, hblob, h⟩ := Outcome.bind_eq_ok.mp h
    rw [not_not.mp halgorithm] at hmaterial
    rw [hmaterial] at h
    exact ⟨⟨found.public_key_base64, found.comment, by rw [hblob]; rfl, hcomment ▸ hshort,
      hcomment ▸ hclean⟩, Except.ok.inj h⟩

theorem payload_word : Text.IsWord key.payload := by
  obtain ⟨-, hlength, hplain⟩ := valid_payload key.valid
  refine ⟨?_, fun c hc => (hplain c hc).1⟩
  rintro hnil
  rw [hnil] at hlength
  cases hlength

theorem algorithm_word : Text.IsWord SSH_ED25519 :=
  ⟨by decide, Text.forall_mem_of_all (by decide)⟩

theorem line_cases : key.line = key.material ∨ key.line = key.material ++ ' ' :: key.comment := by
  unfold line
  split
  · exact .inl rfl
  · exact .inr rfl

theorem material_fields : key.material.split_whitespace = [SSH_ED25519, key.payload] := by
  unfold material material_of
  rw [Text.split_whitespace_append_cons _ _ (by decide), algorithm_word.fields, key.payload_word.fields]
  rfl

/-- The tokens of a canonical line begin with its material. -/
theorem line_fields : ∃ rest, key.line.split_whitespace = SSH_ED25519 :: key.payload :: rest := by
  rcases key.line_cases with hline | hline
  · exact ⟨[], by rw [hline, material_fields]⟩
  · refine ⟨key.comment.split_whitespace, ?_⟩
    rw [hline, Text.split_whitespace_append_cons _ _ (by decide), material_fields]
    rfl

theorem line_control : ∀ c ∈ key.line, Text.is_control c = false := by
  have hname : ∀ c ∈ SSH_ED25519, Text.is_control c = false := Text.forall_mem_of_all (by decide)
  have hspace : Text.is_control ' ' = false := by decide
  have hmaterial : ∀ c ∈ key.material, Text.is_control c = false := by
    intro c hc
    rcases List.mem_append.mp hc with hc | hc
    · exact hname c hc
    · rcases List.mem_cons.mp hc with rfl | hc
      · exact hspace
      · exact ((valid_payload key.valid).2.2 c hc).2
  intro c hc
  rcases key.line_cases with hline | hline
  · exact hmaterial c (hline ▸ hc)
  · rw [hline] at hc
    rcases List.mem_append.mp hc with hc | hc
    · exact hmaterial c hc
    · rcases List.mem_cons.mp hc with rfl | hc
      · exact hspace
      · exact key.clean c hc

theorem line_length : key.line.length ≤ 337 := by
  have hname : SSH_ED25519.length = 11 := by decide
  have hpayload := (valid_payload key.valid).2.1
  have hcomment : key.comment.length ≤ 256 := key.short
  have hmaterial : key.material.length = 80 := by
    unfold material material_of
    rw [List.length_append, List.length_cons]
    omega
  rcases key.line_cases with hline | hline
  · rw [hline]
    omega
  · rw [hline, List.length_append, List.length_cons]
    omega

/-- A short line with the tokens of the key, behind options or not, is read as
    the material. -/
theorem parse_of_fields {line : Text} {front rest : List Text} {c : Char} (hc : c ≠ '#')
    (hhead : line.trim.head? = some c) (hlen : line.len ≤ MAX_PUBLIC_KEY_BYTES)
    (hfields : line.split_whitespace = front ++ SSH_ED25519 :: key.payload :: rest)
    (hfront : ∀ token ∈ front, is_key_algorithm token = false) :
    ∃ parsed, parse_authorized_key line = some parsed ∧ parsed.algorithm = SSH_ED25519 ∧
      parsed.public_key_base64 = key.payload ∧ parsed.material = key.material := by
  obtain ⟨tail, htrim⟩ := List.head?_eq_some_iff.mp hhead
  have htrimmed := Text.len_trim_le line
  have hchecks : ¬ (line.trim.isEmpty || line.trim.starts_with ['#'] ||
      decide (MAX_PUBLIC_KEY_BYTES < line.trim.len)) = true := by
    rw [decide_eq_false (by omega), htrim]
    simp [Text.starts_with, List.isPrefixOf, hc.symm]
  have halgorithm : is_key_algorithm SSH_ED25519 = true := by decide
  have hkey := key_of_tokens_append rest hfront halgorithm (valid_payload key.valid).1
    fun _ => key.valid
  unfold parse_authorized_key
  dsimp only
  rw [if_neg hchecks, Text.split_whitespace_trim, hfields]
  exact ⟨_, hkey, rfl, rfl, rfl⟩

theorem line_len : key.line.len ≤ 1348 := by
  have hbytes := Text.len_le key.line
  have hlength := key.line_length
  omega

/-- A canonical line is read as its material. -/
theorem parse_line : ∃ parsed, parse_authorized_key key.line = some parsed ∧
    parsed.algorithm = SSH_ED25519 ∧ parsed.public_key_base64 = key.payload ∧
    parsed.material = key.material := by
  obtain ⟨rest, hfields⟩ := key.line_fields
  have hhead : key.line.trim.head? = some 's' := by
    rw [Text.trim_head, hfields]
    rfl
  have htokens : key.line.split_whitespace = [] ++ SSH_ED25519 :: key.payload :: rest := hfields
  have hlen := key.line_len
  refine key.parse_of_fields (by decide) hhead ?_ htokens (List.forall_mem_nil _)
  unfold MAX_PUBLIC_KEY_BYTES
  omega

/-- Options in front do not hide it. -/
theorem parse_options {options : Text} {c : Char} (hword : Text.IsWord options)
    (hhead : options.head? = some c) (hc : c ≠ '#') (halgorithm : is_key_algorithm options = false)
    (hlen : options.len ≤ 1024) :
    ∃ parsed, parse_authorized_key (options ++ ' ' :: key.line) = some parsed ∧
      parsed.algorithm = SSH_ED25519 ∧ parsed.public_key_base64 = key.payload ∧
      parsed.material = key.material := by
  obtain ⟨rest, hfields⟩ := key.line_fields
  have htokens : (options ++ ' ' :: key.line).split_whitespace =
      [options] ++ SSH_ED25519 :: key.payload :: rest := by
    rw [Text.split_whitespace_append_cons _ _ (by decide), hword.fields, hfields]
  have hfirst : (options ++ ' ' :: key.line).trim.head? = some c := by
    rw [Text.trim_head, htokens]
    exact hhead
  have hspace : ' '.utf8Size = 1 := by decide
  have hline := key.line_len
  refine key.parse_of_fields hc hfirst ?_ htokens fun token htoken => ?_
  · rw [Text.len_append, Text.len_cons]
    unfold MAX_PUBLIC_KEY_BYTES
    omega
  · rwa [List.mem_singleton.mp htoken]

end CanonicalKey

end Keys
