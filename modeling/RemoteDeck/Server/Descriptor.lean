import RemoteDeck.Error
import RemoteDeck.Lib.Cuts
import RemoteDeck.Lib.Hex
import RemoteDeck.Lib.Json

/-! # The runtime descriptor

    What `lifecycle.rs` leaves for a second start of the server, and
    `validate_loopback_url` of `native.rs`.  The branch of Windows is modelled:
    the control token is protected for the user and written as hexadecimal
    digits.  `CryptProtectData` and the reader of `serde_json` are parameters.

    This file defines:
    - `validate_loopback_url`, and `LoopbackUrl`, the URLs it takes
    - `RuntimeDescriptor` and its `validate`
    - `write_runtime_descriptor` and `read_runtime_descriptor`

    `validate_loopback_url_iff` is the grammar of the URLs, and what is written
    is read (`read_written_iff`).
-/

namespace Server

/-! ### URLs -/

def INVALID_PORT : Text := "the port is malformed".toList

/-- `port.parse::<u16>()` of digits. -/
def parse_port (port : Text) : Option Nat :=
  (some (Nat.ofDigitChars 10 port 0)).filter (· ≤ 65535)

def is_browser_ticket (value : Text) : Bool := value.len = 64 && value.all Text.is_ascii_hexdigit

inductive NativeError where
  | InvalidLoopbackUrl (reason : Text)
  deriving DecidableEq

/-- The host of a URL must be numeric. -/
def port_of (authority : Text) : Option Text :=
  (authority.strip_leading "127.0.0.1:".toList).or (authority.strip_leading "[::1]:".toList)

def validate_port (port : Text) : Except NativeError Unit :=
  if port.isEmpty || !port.all Char.isDigit then .error (.InvalidLoopbackUrl INVALID_PORT)
  else if ((parse_port port).filter (· ≠ 0)).isNone then
    .error (.InvalidLoopbackUrl "the port is outside 1..=65535".toList)
  else .ok ()

def validate_loopback_url (value : Text) : Except NativeError Unit := do
  let remainder ← (value.strip_leading "http://".toList).ok_or
    (.InvalidLoopbackUrl "only http is permitted".toList)
  let (authority, suffix) := (remainder.split_once '/').getD (remainder, [])
  if !suffix.isEmpty && !(suffix.strip_leading "#ticket=".toList).any is_browser_ticket then
    .error (.InvalidLoopbackUrl "only a one-time browser ticket fragment may follow the origin".toList)
  else do
    let port ← (port_of authority).ok_or
      (.InvalidLoopbackUrl "the host must be a numeric loopback address".toList)
    validate_port port

/-! ### Descriptors -/

structure RuntimeDescriptor where
  pid : UInt32
  base_url : Text
  control_token : Text
  deriving DecidableEq

inductive LifecycleError where
  | InvalidRuntimeDescriptor (reason : Text)
  | RuntimeDescriptorIo (error : Text)
  | RuntimeDescriptorSerialization (error : Text)
  | RuntimeDescriptorConflict
  | LegacyInstanceRunning
  | Native (error : NativeError)
  | WindowsApi (error : Text)
  deriving DecidableEq

def MAX_RUNTIME_DESCRIPTOR_BYTES : Nat := 8 * 1024
def MIN_CONTROL_TOKEN_BYTES : Nat := 32
def MAX_CONTROL_TOKEN_BYTES : Nat := 256
def RUNTIME_DESCRIPTOR_SCHEMA_VERSION : UInt8 := 1

def token_character (c : Char) : Bool := c.isAlphanum || c = '-' || c = '_'

def RuntimeDescriptor.validate (descriptor : RuntimeDescriptor) : Except LifecycleError Unit :=
  if descriptor.pid = 0 then .error (.InvalidRuntimeDescriptor "pid must be non-zero".toList)
  else do
    (validate_loopback_url descriptor.base_url).mapError .Native
    let token := descriptor.control_token
    if !(MIN_CONTROL_TOKEN_BYTES ≤ token.len && token.len ≤ MAX_CONTROL_TOKEN_BYTES) ||
        !token.all token_character then
      .error (.InvalidRuntimeDescriptor "control token must be a 32-256 byte base64url value".toList)
    else .ok ()

structure DiskRuntimeDescriptor where
  schema_version : UInt8
  pid : UInt32
  base_url : Text
  control_token : Text
  deriving DecidableEq

/-- `serde_json::to_vec`, which writes integers and strings as `json.dumps` does. -/
def DiskRuntimeDescriptor.to_vec (disk : DiskRuntimeDescriptor) : List UInt8 :=
  (Json.dumps (fun _ => []) (.object
    [("schemaVersion".toList, .number (.int disk.schema_version.toNat)),
     ("pid".toList, .number (.int disk.pid.toNat)),
     ("baseUrl".toList, .string disk.base_url),
     ("controlToken".toList, .string disk.control_token)])).utf8

/-- What is called outside: `CryptProtectData`, `CryptUnprotectData` and
    `serde_json::from_slice`. -/
structure Platform where
  protect : List UInt8 → Except Text (List UInt8)
  unprotect : List UInt8 → Except Text (List UInt8)
  from_slice : List UInt8 → Except Text DiskRuntimeDescriptor

def MALFORMED_TOKEN : LifecycleError :=
  .InvalidRuntimeDescriptor "protected token is malformed".toList

def hex_decode (value : Text) : Except LifecycleError (List UInt8) :=
  if value.isEmpty || value.len % 2 ≠ 0 || value.len > MAX_RUNTIME_DESCRIPTOR_BYTES then
    .error MALFORMED_TOKEN
  else (Hex.decode value.utf8).ok_or MALFORMED_TOKEN

section
variable (platform : Platform)

def encode_control_token (value : Text) : Except LifecycleError Text := do
  let bytes ← (platform.protect value.utf8).mapError .WindowsApi
  .ok (Hex.encode bytes)

def decode_control_token (value : Text) : Except LifecycleError Text := do
  let bytes ← hex_decode value
  let plaintext ← (platform.unprotect bytes).mapError .WindowsApi
  (Text.from_utf8 plaintext).ok_or (.InvalidRuntimeDescriptor "DPAPI token is not UTF-8".toList)

def disk_descriptor (descriptor : RuntimeDescriptor) : Except LifecycleError DiskRuntimeDescriptor := do
  let control_token ← encode_control_token platform descriptor.control_token
  .ok ⟨RUNTIME_DESCRIPTOR_SCHEMA_VERSION, descriptor.pid, descriptor.base_url, control_token⟩

/-- The contents that are written for a descriptor. -/
def write_runtime_descriptor (descriptor : RuntimeDescriptor) : Except LifecycleError (List UInt8) := do
  let disk ← disk_descriptor platform descriptor
  .ok disk.to_vec

/-- Read the contents of the file, if there is one. -/
def read_runtime_descriptor (file : Except Text (Option (List UInt8))) :
    Except LifecycleError (Option RuntimeDescriptor) := do
  match ← file.mapError .RuntimeDescriptorIo with
  | none => .ok none
  | some bytes =>
      if bytes.length > MAX_RUNTIME_DESCRIPTOR_BYTES then
        .error (.InvalidRuntimeDescriptor "file exceeds the size limit".toList)
      else do
        let disk ← (platform.from_slice bytes).mapError .RuntimeDescriptorSerialization
        if disk.schema_version ≠ RUNTIME_DESCRIPTOR_SCHEMA_VERSION then
          .error (.InvalidRuntimeDescriptor "unsupported schema version".toList)
        else do
          let control_token ← decode_control_token platform disk.control_token
          let descriptor : RuntimeDescriptor := ⟨disk.pid, disk.base_url, control_token⟩
          descriptor.validate
          .ok (some descriptor)

end

/-! ### The grammar of the URLs -/

/-- A numeric loopback origin, alone, with a slash, or with one ticket. -/
def LoopbackUrl (value : Text) : Prop :=
  ∃ host port suffix : Text, value = "http://".toList ++ host ++ port ++ suffix ∧
    (host = "127.0.0.1:".toList ∨ host = "[::1]:".toList) ∧
    (port ≠ [] ∧ port.all Char.isDigit = true ∧ 1 ≤ Nat.ofDigitChars 10 port 0 ∧
      Nat.ofDigitChars 10 port 0 ≤ 65535) ∧
    (suffix = [] ∨ suffix = "/".toList ∨
      ∃ ticket, is_browser_ticket ticket = true ∧ suffix = "/#ticket=".toList ++ ticket)

theorem validate_port_iff (port : Text) :
    validate_port port = .ok () ↔ port ≠ [] ∧ port.all Char.isDigit = true ∧
      1 ≤ Nat.ofDigitChars 10 port 0 ∧ Nat.ofDigitChars 10 port 0 ≤ 65535 := by
  have hrange : ((parse_port port).filter (· ≠ 0)).isNone = false ↔
      1 ≤ Nat.ofDigitChars 10 port 0 ∧ Nat.ofDigitChars 10 port 0 ≤ 65535 := by
    unfold parse_port
    generalize Nat.ofDigitChars 10 port 0 = value
    by_cases hhigh : value ≤ 65535
    · by_cases hzero : value = 0
      · simp [hzero]
      · simp [hhigh, hzero]
        omega
    · simp [hhigh]
  unfold validate_port
  rw [Outcome.ite_error_eq_ok, Outcome.ite_error_eq_ok, Bool.not_eq_true, Bool.not_eq_true, hrange]
  simp [and_assoc]

theorem port_of_eq_some {authority port : Text} : port_of authority = some port ↔
    authority = "127.0.0.1:".toList ++ port ∨ authority = "[::1]:".toList ++ port := by
  unfold port_of
  rw [Option.or_eq_some_iff, Text.strip_leading_iff, Text.strip_leading_iff]
  constructor
  · rintro (h | ⟨-, h⟩)
    · exact .inl h
    · exact .inr h
  · rintro (h | h)
    · exact .inl h
    · right
      refine ⟨?_, h⟩
      rw [h]
      rfl

/-- What follows the origin is nothing or a ticket. -/
theorem suffix_iff (suffix : Text) :
    (!suffix.isEmpty && !(suffix.strip_leading "#ticket=".toList).any is_browser_ticket) = false ↔
      suffix = [] ∨ ∃ ticket, is_browser_ticket ticket = true ∧ suffix = "#ticket=".toList ++ ticket := by
  cases suffix with
  | nil => simp
  | cons c suffix =>
    simp only [List.isEmpty_cons, Bool.not_false, Bool.true_and, Bool.not_eq_false', reduceCtorEq,
      false_or, Option.any_eq_true]
    constructor
    · intro ⟨ticket, hticket, hbrowser⟩
      exact ⟨ticket, hbrowser, Text.strip_leading_iff.mp hticket⟩
    · intro ⟨ticket, hbrowser, hticket⟩
      exact ⟨ticket, Text.strip_leading_iff.mpr hticket, hbrowser⟩

/-- Where the authority ends. -/
theorem split_authority {remainder authority suffix : Text} :
    (remainder.split_once '/').getD (remainder, []) = (authority, suffix) ↔
      '/' ∉ authority ∧ (remainder = authority ∧ suffix = [] ∨ remainder = authority ++ '/' :: suffix) := by
  cases hsplit : remainder.split_once '/' with
  | none =>
    rw [Text.split_once_none] at hsplit
    simp only [Option.getD_none, Prod.mk.injEq]
    constructor
    · intro ⟨hauthority, hsuffix⟩
      rw [← hauthority]
      exact ⟨hsplit, .inl ⟨rfl, hsuffix.symm⟩⟩
    · rintro ⟨-, ⟨hauthority, hsuffix⟩ | hslash⟩
      · exact ⟨hauthority, hsuffix.symm⟩
      · rw [hslash] at hsplit
        simp at hsplit
  | some parts =>
    obtain ⟨front, rest⟩ := parts
    obtain ⟨hremainder, hfront⟩ := Text.split_once_eq_some.mp hsplit
    simp only [Option.getD_some, Prod.mk.injEq]
    constructor
    · rintro ⟨rfl, rfl⟩
      exact ⟨hfront, .inr hremainder⟩
    · rintro ⟨hauthority, ⟨hsame, -⟩ | hslash⟩
      · rw [← hsame, hremainder] at hauthority
        simp at hauthority
      · exact Text.append_cons_inj hfront hauthority (hremainder.symm.trans hslash)

theorem no_slash {host port : Text} (hhost : host = "127.0.0.1:".toList ∨ host = "[::1]:".toList)
    (hport : port.all Char.isDigit = true) : '/' ∉ host ++ port := by
  intro hslash
  rcases List.mem_append.mp hslash with h | h
  · rcases hhost with rfl | rfl
    · exact absurd h (by decide)
    · exact absurd h (by decide)
  · have hdigit := List.all_eq_true.mp hport '/' h
    exact absurd hdigit (by decide)

/-- **The grammar of the URLs**: what is taken is an origin on a numeric
    loopback address, and at most a ticket after it. -/
theorem validate_loopback_url_iff (value : Text) :
    validate_loopback_url value = .ok () ↔ LoopbackUrl value := by
  unfold validate_loopback_url
  simp only [Outcome.bind_eq_ok, Option.ok_or_eq_ok, Text.strip_leading_iff]
  constructor
  · rintro ⟨remainder, hvalue, hcut⟩
    generalize hparts : (remainder.split_once '/').getD (remainder, []) = parts at hcut
    obtain ⟨authority, suffix⟩ := parts
    obtain ⟨-, hremainder⟩ := split_authority.mp hparts
    rw [Outcome.ite_error_eq_ok, Bool.not_eq_true, suffix_iff] at hcut
    simp only [Outcome.bind_eq_ok, Option.ok_or_eq_ok, port_of_eq_some, validate_port_iff] at hcut
    obtain ⟨hsuffix, port, hauthority, hport⟩ := hcut
    -- the authority is a host and a port
    have hhost : ∃ host : Text, (host = "127.0.0.1:".toList ∨ host = "[::1]:".toList) ∧
        authority = host ++ port := by
      rcases hauthority with h | h
      · exact ⟨_, .inl rfl, h⟩
      · exact ⟨_, .inr rfl, h⟩
    obtain ⟨host, hhost, rfl⟩ := hhost
    rcases hremainder with ⟨rfl, rfl⟩ | rfl
    · exact ⟨host, port, [], by simp [hvalue], hhost, hport, .inl rfl⟩
    · rcases hsuffix with rfl | ⟨ticket, hticket, rfl⟩
      · exact ⟨host, port, "/".toList, by simp [hvalue], hhost, hport, .inr (.inl rfl)⟩
      · exact ⟨host, port, "/#ticket=".toList ++ ticket, by simp [hvalue], hhost, hport,
          .inr (.inr ⟨ticket, hticket, rfl⟩)⟩
  · rintro ⟨host, port, suffix, hvalue, hhost, hport, hsuffix⟩
    have hslash := no_slash hhost hport.2.1
    have hauthority : port_of (host ++ port) = some port := by
      rw [port_of_eq_some]
      rcases hhost with rfl | rfl
      · exact .inl rfl
      · exact .inr rfl
    refine ⟨host ++ port ++ suffix, by simp [hvalue], ?_⟩
    have hcut : ∃ rest : Text, ((host ++ port ++ suffix).split_once '/').getD
          (host ++ port ++ suffix, []) = (host ++ port, rest) ∧
        (rest = [] ∨ ∃ ticket, is_browser_ticket ticket = true ∧ rest = "#ticket=".toList ++ ticket) := by
      rcases hsuffix with rfl | rfl | ⟨ticket, hticket, rfl⟩
      · exact ⟨[], split_authority.mpr ⟨hslash, .inl ⟨by simp, rfl⟩⟩, .inl rfl⟩
      · exact ⟨[], split_authority.mpr ⟨hslash, .inr rfl⟩, .inl rfl⟩
      · exact ⟨"#ticket=".toList ++ ticket, split_authority.mpr ⟨hslash, .inr rfl⟩,
          .inr ⟨ticket, hticket, rfl⟩⟩
    obtain ⟨rest, hparts, hrest⟩ := hcut
    rw [hparts]
    dsimp only
    rw [Outcome.ite_error_eq_ok, Bool.not_eq_true, suffix_iff]
    simp only [Outcome.bind_eq_ok, Option.ok_or_eq_ok, validate_port_iff]
    exact ⟨hrest, port, hauthority, hport⟩

/-! ### Round trip -/

variable {platform : Platform} {descriptor : RuntimeDescriptor}

theorem RuntimeDescriptor.pid_ne_zero (h : descriptor.validate = .ok ()) : descriptor.pid ≠ 0 := by
  unfold RuntimeDescriptor.validate at h
  exact (Outcome.ite_error_eq_ok.mp h).1

/-- **What is valid**: the identifier of a process, an origin on a numeric
    loopback address, and a token of 32 to 256 characters. -/
theorem RuntimeDescriptor.validate_iff : descriptor.validate = .ok () ↔
    descriptor.pid ≠ 0 ∧ LoopbackUrl descriptor.base_url ∧
      (32 ≤ descriptor.control_token.len ∧ descriptor.control_token.len ≤ 256) ∧
      descriptor.control_token.all token_character = true := by
  unfold RuntimeDescriptor.validate MIN_CONTROL_TOKEN_BYTES MAX_CONTROL_TOKEN_BYTES
  rw [Outcome.ite_error_eq_ok, Outcome.bind_eq_ok, ← validate_loopback_url_iff]
  simp only [Outcome.mapError_eq_ok, Outcome.ite_error_eq_ok]
  constructor
  · rintro ⟨hpid, _, hurl, htoken, _⟩
    simp only [Bool.or_eq_true, Bool.not_eq_true', not_or, Bool.not_eq_false, Bool.and_eq_true,
      decide_eq_true_eq] at htoken
    exact ⟨hpid, hurl, htoken⟩
  · rintro ⟨hpid, hurl, hlen, htoken⟩
    exact ⟨hpid, (), hurl, by simp [hlen, htoken], trivial⟩

/-- The file is longer than the token in it. -/
theorem len_token_le (disk : DiskRuntimeDescriptor) : disk.control_token.len ≤ disk.to_vec.length := by
  have htoken := Json.len_le_dumps_string disk.control_token
  unfold DiskRuntimeDescriptor.to_vec
  rw [Text.length_utf8, Json.len_dumps_object]
  simp only [List.map_cons, List.map_nil, List.sum_cons, List.sum_nil, Json.len_dumps_member, Json.dumps]
  omega

/-- The token is read from the digits that are written for it. -/
theorem decode_encode_token {value control_token : Text}
    (hdpapi : ∀ plain secret, platform.protect plain = .ok secret →
      secret ≠ [] ∧ platform.unprotect secret = .ok plain)
    (hshort : control_token.len ≤ MAX_RUNTIME_DESCRIPTOR_BYTES)
    (h : encode_control_token platform value = .ok control_token) :
    decode_control_token platform control_token = .ok value := by
  unfold encode_control_token at h
  simp only [Outcome.bind_eq_ok, Outcome.mapError_eq_ok, Except.ok.injEq] at h
  obtain ⟨secret, hprotect, rfl⟩ := h
  obtain ⟨hne, hunprotect⟩ := hdpapi _ _ hprotect
  have hlen : (Hex.encode secret).len = 2 * secret.length := by
    rw [Text.len_of_ascii (fun c hc => Hex.encode_ascii hc), Hex.length_encode]
  have hdecode : hex_decode (Hex.encode secret) = .ok secret := by
    have hnonempty : (Hex.encode secret).isEmpty = false := by
      cases secret with
      | nil => exact absurd rfl hne
      | cons byte bytes => rfl
    unfold hex_decode
    rw [Outcome.ite_error_eq_ok, Option.ok_or_eq_ok, Hex.decode_encode]
    refine ⟨?_, rfl⟩
    simp [hnonempty, hlen] at hshort ⊢
    omega
  unfold decode_control_token
  simp [hdecode, hunprotect, Except.mapError]

/-- A valid descriptor is read as it was written, from a file that is not too long. -/
theorem read_of_write {contents : List UInt8}
    (hserde : ∀ disk, disk_descriptor platform descriptor = .ok disk →
      platform.from_slice disk.to_vec = .ok disk)
    (hdpapi : ∀ plain secret, platform.protect plain = .ok secret →
      secret ≠ [] ∧ platform.unprotect secret = .ok plain)
    (hvalid : descriptor.validate = .ok ())
    (hwrite : write_runtime_descriptor platform descriptor = .ok contents)
    (hlen : contents.length ≤ MAX_RUNTIME_DESCRIPTOR_BYTES) :
    read_runtime_descriptor platform (.ok (some contents)) = .ok (some descriptor) := by
  unfold write_runtime_descriptor at hwrite
  simp only [Outcome.bind_eq_ok, Except.ok.injEq] at hwrite
  obtain ⟨disk, hdisk, rfl⟩ := hwrite
  have hread := hserde disk hdisk
  unfold disk_descriptor at hdisk
  simp only [Outcome.bind_eq_ok, Except.ok.injEq] at hdisk
  obtain ⟨control_token, htoken, rfl⟩ := hdisk
  -- the digits of the token are a part of the file
  have hshort := (len_token_le _).trans hlen
  have hdecode := decode_encode_token hdpapi hshort htoken
  unfold read_runtime_descriptor
  simp only [Outcome.bind_eq_ok, Outcome.mapError_eq_ok, Except.ok.injEq, exists_eq_left',
    Outcome.ite_error_eq_ok, gt_iff_lt, not_lt]
  exact ⟨hlen, _, hread, by simp, _, hdecode, (), hvalid, rfl⟩

theorem length_of_read {contents : List UInt8}
    (h : read_runtime_descriptor platform (.ok (some contents)) = .ok (some descriptor)) :
    contents.length ≤ MAX_RUNTIME_DESCRIPTOR_BYTES := by
  unfold read_runtime_descriptor at h
  simp only [Outcome.bind_eq_ok, Outcome.mapError_eq_ok, Except.ok.injEq, exists_eq_left',
    Outcome.ite_error_eq_ok, gt_iff_lt, not_lt] at h
  exact h.1

/-- **Round trip**: a valid descriptor is read as it was written, unless the
    file is too long. -/
theorem read_written_iff {contents : List UInt8}
    (hserde : ∀ disk, disk_descriptor platform descriptor = .ok disk →
      platform.from_slice disk.to_vec = .ok disk)
    (hdpapi : ∀ plain secret, platform.protect plain = .ok secret →
      secret ≠ [] ∧ platform.unprotect secret = .ok plain)
    (hvalid : descriptor.validate = .ok ())
    (hwrite : write_runtime_descriptor platform descriptor = .ok contents) :
    read_runtime_descriptor platform (.ok (some contents)) = .ok (some descriptor) ↔
      contents.length ≤ MAX_RUNTIME_DESCRIPTOR_BYTES :=
  ⟨length_of_read, read_of_write hserde hdpapi hvalid hwrite⟩

/-! ### A server on port 49152 -/

def lab_descriptor : RuntimeDescriptor :=
  ⟨4242, "http://127.0.0.1:49152".toList, List.replicate 32 'k'⟩

def lab_disk : DiskRuntimeDescriptor :=
  ⟨1, 4242, "http://127.0.0.1:49152".toList,
    Hex.encode (1 :: Text.utf8 (List.replicate 32 'k'))⟩

/-- A reader that knows one file. -/
def reader_of (disk : DiskRuntimeDescriptor) (bytes : List UInt8) : Except Text DiskRuntimeDescriptor :=
  if bytes = disk.to_vec then .ok disk else .error "expected value".toList

theorem reader_of_file (disk : DiskRuntimeDescriptor) : reader_of disk disk.to_vec = .ok disk :=
  if_pos rfl

/-- A protection that puts a byte in front. -/
def lab_platform : Platform where
  protect plain := .ok (1 :: plain)
  unprotect
    | [] => .error "invalid data".toList
    | _ :: plain => .ok plain
  from_slice := reader_of lab_disk

theorem lab_write : write_runtime_descriptor lab_platform lab_descriptor = .ok lab_disk.to_vec := rfl

theorem lab_serde (disk : DiskRuntimeDescriptor)
    (h : disk_descriptor lab_platform lab_descriptor = .ok disk) :
    lab_platform.from_slice disk.to_vec = .ok disk := by
  have hdisk : disk_descriptor lab_platform lab_descriptor = .ok lab_disk := rfl
  rw [hdisk] at h
  obtain rfl := Except.ok.inj h
  exact reader_of_file lab_disk

theorem lab_dpapi (plain secret : List UInt8) (h : lab_platform.protect plain = .ok secret) :
    secret ≠ [] ∧ lab_platform.unprotect secret = .ok plain := by
  obtain rfl := Except.ok.inj h
  exact ⟨by simp, rfl⟩

theorem lab_valid : lab_descriptor.validate = .ok () := by
  decide +kernel

theorem lab_legible :
    read_runtime_descriptor lab_platform (.ok (some lab_disk.to_vec)) = .ok (some lab_descriptor) :=
  read_of_write lab_serde lab_dpapi lab_valid lab_write (by decide +kernel)

theorem lab_read :
    read_runtime_descriptor lab_platform (.ok (some lab_disk.to_vec)) = .ok (some lab_descriptor) ↔
      lab_disk.to_vec.length ≤ MAX_RUNTIME_DESCRIPTOR_BYTES :=
  read_written_iff lab_serde lab_dpapi lab_valid lab_write

end Server
