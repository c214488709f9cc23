import RemoteDeck.Migration.Source

/-! # OpenSSH configs

    `parse_open_ssh_config` of `keys.rs`: the concrete `Host` blocks of a
    config, in what the migration reads of them.  Wildcards, negated patterns,
    global options and includes are not followed.
-/

namespace Migration

def MAX_CONFIG_BYTES : Nat := 4 * 1024 * 1024
def MAX_CONFIG_LINE_BYTES : Nat := 16 * 1024
def MAX_HOST_CANDIDATES : Nat := 512

inductive KeyUtilityError where
  | ConfigTooLarge
  | ConfigLineTooLong
  | TooManyHostCandidates
  deriving DecidableEq, Repr

def KeyUtilityError.to_string : KeyUtilityError → Text
  | .ConfigTooLarge => "OpenSSH config exceeds 4 MiB".toList
  | .ConfigLineTooLong => "OpenSSH config line exceeds 16 KiB".toList
  | .TooManyHostCandidates => "OpenSSH config contains too many concrete hosts".toList

structure OpenSshHostCandidate where
  «alias» : Text
  hostname : Text
  username : Option Text
  port : UInt16
  identity_file : Option Text
  identities_only : Option Bool
  proxy_jump : Option Text
  server_alive_interval_seconds : Option Nat
  server_alive_count_max : Option Nat
  tcp_keep_alive : Option Bool
  connect_timeout_seconds : Option Nat
  compression : Option Bool
  unsupported_count : Nat
  deriving DecidableEq, Repr

def OpenSshHostCandidate.new (host_alias : Text) : OpenSshHostCandidate where
  «alias» := host_alias
  hostname := host_alias
  username := none
  port := 22
  identity_file := none
  identities_only := none
  proxy_jump := none
  server_alive_interval_seconds := none
  server_alive_count_max := none
  tcp_keep_alive := none
  connect_timeout_seconds := none
  compression := none
  unsupported_count := 0

/-! ### Lines and words -/

/-- `replace("\r\n", "\n")`, then `replace('\r', "\n")`. -/
def normalize_line_ends : Text → Text
  | [] => []
  | '\r' :: '\n' :: t => '\n' :: normalize_line_ends t
  | '\r' :: t => '\n' :: normalize_line_ends t
  | c :: t => c :: normalize_line_ends t

/-- A quote opens, closes or is inside the other kind of quotes. -/
def next_quote (quote : Option Char) (c : Char) : Option Char :=
  if quote = some c then none else if quote = none then some c else quote

def strip_comment : Option Char → Text → Text
  | _, [] => []
  -- what follows a backslash is kept, whatever it is
  | _, ['\\'] => ['\\']
  | quote, '\\' :: c :: t => '\\' :: c :: strip_comment quote t
  | quote, c :: t =>
      if c = '\'' ∨ c = '"' then c :: strip_comment (next_quote quote c) t
      else if c = '#' ∧ quote = none then []
      else c :: strip_comment quote t

def is_boundary (c : Char) : Bool := Text.is_whitespace c || c = '='

def split_directive (value : Text) : Option (Text × Text) :=
  let keyword := value.takeWhile fun c => !is_boundary c
  let remainder := Text.trim ((value.dropWhile fun c => !is_boundary c).dropWhile is_boundary)
  if value.any is_boundary && !keyword.isEmpty && !remainder.isEmpty then some (keyword, remainder)
  else none

/-- The words, the first one after `current`. -/
def split_words : Option Char → Text → Text → List Text
  | _, current, [] => if current.isEmpty then [] else [current]
  | _, current, ['\\'] => [current ++ ['\\']]
  | quote, current, '\\' :: c :: t => split_words quote (current ++ [c]) t
  | quote, current, c :: t =>
      if c = '\'' ∨ c = '"' then
        if quote = some c then split_words none current t
        else if quote = none then split_words (some c) current t
        else split_words quote (current ++ [c]) t
      else if Text.is_whitespace c && quote.isNone then
        if current.isEmpty then split_words quote [] t else current :: split_words quote [] t
      else split_words quote (current ++ [c]) t

def unquote (value : Text) : Text :=
  let trimmed := value.trim
  if trimmed.len ≥ 2 &&
      ((trimmed.head? = some '"' && trimmed.getLast? = some '"') ||
        (trimmed.head? = some '\'' && trimmed.getLast? = some '\'')) then
    (trimmed.drop 1).dropLast
  else trimmed

def valid_config_value (value : Text) (maximum : Nat) : Bool :=
  !value.isEmpty && value.len ≤ maximum && !value.any fun c => c = '\x00' || Text.is_control c

def is_concrete_alias (value : Text) : Bool :=
  !value.isEmpty && value.len ≤ 64 && value.head? ≠ some '!' &&
    !value.contains '*' && !value.contains '?' &&
    value.all fun c => c.isAlphanum || c = '.' || c = '_' || c = '-'

/-! ### Values -/

def parse_boolean (value : Text) : Option Bool :=
  let value := value.to_ascii_lowercase
  if ["yes", "true", "on", "1"].any fun word => value = word.toList then some true
  else if ["no", "false", "off", "0"].any fun word => value = word.toList then some false
  else none

/-- `str::parse` of an unsigned integer, at most `maximum`. -/
def parse_unsigned (value : Text) (maximum : Nat) : Option Nat :=
  let digits := if value.head? = some '+' then value.drop 1 else value
  if digits.isEmpty || !digits.all Char.isDigit then none
  else
    let parsed := digits.foldl (fun parsed digit => 10 * parsed + (digit.toNat - '0'.toNat)) 0
    if parsed ≤ maximum then some parsed else none

def record_unsupported (candidate : OpenSshHostCandidate) : OpenSshHostCandidate :=
  { candidate with unsupported_count := candidate.unsupported_count + 1 }

/-- Record what a value is parsed to, or that it is not supported. -/
def record {α : Type} (candidate : OpenSshHostCandidate)
    (update : α → OpenSshHostCandidate) : Option α → OpenSshHostCandidate
  | some parsed => update parsed
  | none => record_unsupported candidate

def apply_directive (candidate : OpenSshHostCandidate) (keyword value : Text) :
    OpenSshHostCandidate :=
  let key := keyword.to_ascii_lowercase
  let value := unquote value.trim
  if key = "hostname".toList ∧ valid_config_value value 512 = true then
    { candidate with hostname := value }
  else if key = "user".toList ∧ valid_config_value value 256 = true then
    { candidate with username := some value }
  else if key = "port".toList then
    record candidate (fun port => { candidate with port := UInt16.ofNat port })
      ((parse_unsigned value 65535).filter fun port => port > 0)
  else if key = "identityfile".toList ∧ valid_config_value value 32767 = true then
    if candidate.identity_file.isNone then { candidate with identity_file := some value }
    else record_unsupported candidate
  else if key = "identitiesonly".toList then
    record candidate (fun parsed => { candidate with identities_only := some parsed })
      (parse_boolean value)
  else if key = "proxyjump".toList ∧ valid_config_value value 1024 = true then
    { candidate with proxy_jump := some value }
  else if key = "serveraliveinterval".toList then
    record candidate (fun parsed => { candidate with server_alive_interval_seconds := some parsed })
      (parse_unsigned value 3600)
  else if key = "serveralivecountmax".toList then
    record candidate (fun parsed => { candidate with server_alive_count_max := some parsed })
      (parse_unsigned value 100)
  else if key = "tcpkeepalive".toList then
    record candidate (fun parsed => { candidate with tcp_keep_alive := some parsed })
      (parse_boolean value)
  else if key = "connecttimeout".toList then
    record candidate (fun parsed => { candidate with connect_timeout_seconds := some parsed })
      (parse_unsigned value 300)
  else if key = "compression".toList then
    record candidate (fun parsed => { candidate with compression := some parsed })
      (parse_boolean value)
  -- forwards are counted, and not imported
  else if (key = "localforward".toList ∨ key = "remoteforward".toList) ∧
      valid_config_value value 4096 = true then
    candidate
  else record_unsupported candidate

/-! ### Blocks -/

/-- The candidates of one `Host` line after those before. -/
def push_candidates (candidates : List OpenSshHostCandidate) (current : List Nat) :
    List Text → Except KeyUtilityError (List OpenSshHostCandidate × List Nat)
  | [] => .ok (candidates, current)
  | word :: words =>
      if !is_concrete_alias word then push_candidates candidates current words
      else if candidates.length ≥ MAX_HOST_CANDIDATES then .error .TooManyHostCandidates
      else
        push_candidates (candidates ++ [.new word]) (current ++ [candidates.length]) words

/-- Change the candidates of the current block. -/
def change_current (candidates : List OpenSshHostCandidate) (current : List Nat)
    (change : OpenSshHostCandidate → OpenSshHostCandidate) : List OpenSshHostCandidate :=
  current.foldl (fun candidates index => candidates.modify index change) candidates

def parse_lines (candidates : List OpenSshHostCandidate) (current : List Nat) :
    List Text → Except KeyUtilityError (List OpenSshHostCandidate)
  | [] => .ok candidates
  | raw_line :: raw_lines =>
      if raw_line.len > MAX_CONFIG_LINE_BYTES then .error .ConfigLineTooLong
      else
        let content := Text.trim (strip_comment none raw_line)
        if content.isEmpty then parse_lines candidates current raw_lines
        else
          match split_directive content with
          | none =>
              parse_lines (change_current candidates current record_unsupported) current raw_lines
          | some (keyword, value) =>
              if keyword.eq_ignore_ascii_case "host".toList then do
                let (candidates, current) ← push_candidates candidates [] (split_words none [] value)
                parse_lines candidates current raw_lines
              else
                parse_lines
                  (change_current candidates current fun candidate =>
                    apply_directive candidate keyword value)
                  current raw_lines

def parse_open_ssh_config (text : Text) : Except KeyUtilityError (List OpenSshHostCandidate) :=
  if text.len > MAX_CONFIG_BYTES then .error .ConfigTooLarge
  else parse_lines [] [] (Text.split '\n' (normalize_line_ends text))

/-- Parse the bytes of a config; an error is its display text. -/
def parse_config_bytes (bytes : Bytes) : Except Text (List OpenSshHostCandidate) :=
  match String.fromUTF8? (ByteArray.mk bytes.val.toArray) with
  | none => .error "OpenSSH config is not valid UTF-8".toList
  | some text => (parse_open_ssh_config text.toList).mapError KeyUtilityError.to_string

end Migration
