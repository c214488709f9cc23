import Mathlib.Algebra.GroupWithZero.Nat
import RemoteDeck.Migration.OpenSsh

/-! # Importing OpenSSH configs

    `parse_open_ssh_config` of `keys.rs` with everything a candidate keeps:
    its values, its forwards and the lines that it does not support.  The
    readers of lines and words are those of `Migration/OpenSsh`.

    This file defines:
    - `OpenSshHostCandidate`, `apply_directive`, `parse_open_ssh_config`
    - `given`, `unsupported`: what a line says
    - `candidate_of`: what some lines say about an alias, as the first or as
      the last of several values counts
    - `Entry`: an alias of a `Host` line with the lines behind that line
    - `OpenSshHostCandidate.summary`: what a migration keeps of a candidate

    The parser takes the last value that it supports, and a block ends for it
    at the next `Host` line only (`parsed_entries`).  A migration reads the
    same candidates (`summary_parse_open_ssh_config`).
-/

namespace Keys

open Migration (strip_comment split_directive split_words unquote valid_config_value
  is_concrete_alias parse_boolean parse_unsigned normalize_line_ends)

def MAX_RETAINED_LINES_PER_KIND : Nat := 8
def MAX_RETAINED_BYTES_PER_KIND : Nat := 8 * 1024

structure OpenSshHostCandidate where
  «alias» : Text
  hostname : Text
  username : Option Text
  port : UInt16
  identity_file : Option Text
  identities_only : Option Bool
  proxy_jump : Option Text
  server_alive_interval_seconds : Option Nat
  server_alive_count_max : Option Nat
  tcp_keep_alive : Option Bool
  connect_timeout_seconds : Option Nat
  compression : Option Bool
  local_forwards : List Text
  remote_forwards : List Text
  unsupported_lines : List Text
  local_forward_count : Nat
  remote_forward_count : Nat
  unsupported_count : Nat
  deriving DecidableEq, Repr

def OpenSshHostCandidate.new (host_alias : Text) : OpenSshHostCandidate where
  «alias» := host_alias
  hostname := host_alias
  username := none
  port := 22
  identity_file := none
  identities_only := none
  proxy_jump := none
  server_alive_interval_seconds := none
  server_alive_count_max := none
  tcp_keep_alive := none
  connect_timeout_seconds := none
  compression := none
  local_forwards := []
  remote_forwards := []
  unsupported_lines := []
  local_forward_count := 0
  remote_forward_count := 0
  unsupported_count := 0

/-! ### Directives -/

def retain_bounded_line (lines : List Text) (line : Text) : List Text :=
  if MAX_RETAINED_LINES_PER_KIND ≤ lines.length ∨
      MAX_RETAINED_BYTES_PER_KIND < (lines.map Text.len).sum + line.len then lines
  else lines ++ [line]

def record_unsupported (candidate : OpenSshHostCandidate) (raw_line : Text) : OpenSshHostCandidate :=
  { candidate with
    unsupported_count := candidate.unsupported_count + 1
    unsupported_lines := retain_bounded_line candidate.unsupported_lines raw_line }

/-- Record what a value is parsed to, or that the line is not supported. -/
def record {α : Type} (candidate : OpenSshHostCandidate) (raw_line : Text)
    (update : α → OpenSshHostCandidate) : Option α → OpenSshHostCandidate
  | some parsed => update parsed
  | none => record_unsupported candidate raw_line

def parse_port (value : Text) : Option UInt16 :=
  ((parse_unsigned value 65535).filter fun port => port > 0).map UInt16.ofNat

/-- What a directive does, by its keyword in lower case. -/
def apply_key (candidate : OpenSshHostCandidate) (key value raw_line : Text) : OpenSshHostCandidate :=
  if key = "hostname".toList ∧ valid_config_value value 512 = true then
    { candidate with hostname := value }
  else if key = "user".toList ∧ valid_config_value value 256 = true then
    { candidate with username := some value }
  else if key = "port".toList then
    record candidate raw_line (fun port => { candidate with port := port }) (parse_port value)
  else if key = "identityfile".toList ∧ valid_config_value value 32767 = true then
    if candidate.identity_file.isNone then { candidate with identity_file := some value }
    else record_unsupported candidate raw_line
  else if key = "identitiesonly".toList then
    record candidate raw_line (fun parsed => { candidate with identities_only := some parsed })
      (parse_boolean value)
  else if key = "proxyjump".toList ∧ valid_config_value value 1024 = true then
    { candidate with proxy_jump := some value }
  else if key = "serveraliveinterval".toList then
    record candidate raw_line
      (fun parsed => { candidate with server_alive_interval_seconds := some parsed })
      (parse_unsigned value 3600)
  else if key = "serveralivecountmax".toList then
    record candidate raw_line (fun parsed => { candidate with server_alive_count_max := some parsed })
      (parse_unsigned value 100)
  else if key = "tcpkeepalive".toList then
    record candidate raw_line (fun parsed => { candidate with tcp_keep_alive := some parsed })
      (parse_boolean value)
  else if key = "connecttimeout".toList then
    record candidate raw_line (fun parsed => { candidate with connect_timeout_seconds := some parsed })
      (parse_unsigned value 300)
  else if key = "compression".toList then
    record candidate raw_line (fun parsed => { candidate with compression := some parsed })
      (parse_boolean value)
  else if key = "localforward".toList ∧ valid_config_value value 4096 = true then
    { candidate with
      local_forward_count := candidate.local_forward_count + 1
      local_forwards := retain_bounded_line candidate.local_forwards value }
  else if key = "remoteforward".toList ∧ valid_config_value value 4096 = true then
    { candidate with
      remote_forward_count := candidate.remote_forward_count + 1
      remote_forwards := retain_bounded_line candidate.remote_forwards value }
  else record_unsupported candidate raw_line

def apply_directive (candidate : OpenSshHostCandidate) (keyword value raw_line : Text) :
    OpenSshHostCandidate :=
  apply_key candidate keyword.to_ascii_lowercase (unquote value.trim) raw_line

/-! ### Blocks -/

/-- What the parser reads of a line. -/
def content_of (raw_line : Text) : Text := Text.trim (strip_comment none raw_line)

/-- What a line that is no `Host` line does to a candidate of its block. -/
def apply_line (candidate : OpenSshHostCandidate) (raw_line : Text) : OpenSshHostCandidate :=
  if (content_of raw_line).isEmpty then candidate
  else
    match split_directive (content_of raw_line) with
    | none => record_unsupported candidate raw_line
    | some (keyword, value) => apply_directive candidate keyword value raw_line

/-- The patterns of a `Host` line. -/
def host_patterns (raw_line : Text) : Option (List Text) :=
  match split_directive (content_of raw_line) with
  | none => none
  | some (keyword, value) =>
      if keyword.eq_ignore_ascii_case "host".toList then some (split_words none [] value) else none

/-- The candidates of one `Host` line after those before. -/
def push_candidates (candidates : List OpenSshHostCandidate) (current : List Nat) :
    List Text → Except Migration.KeyUtilityError (List OpenSshHostCandidate × List Nat)
  | [] => .ok (candidates, current)
  | word :: words =>
      if !is_concrete_alias word then push_candidates candidates current words
      else if candidates.length ≥ Migration.MAX_HOST_CANDIDATES then .error .TooManyHostCandidates
      else push_candidates (candidates ++ [.new word]) (current ++ [candidates.length]) words

/-- Change the candidates of the current block. -/
def change_current (candidates : List OpenSshHostCandidate) (current : List Nat)
    (change : OpenSshHostCandidate → OpenSshHostCandidate) : List OpenSshHostCandidate :=
  current.foldl (fun candidates index => candidates.modify index change) candidates

def parse_lines (candidates : List OpenSshHostCandidate) (current : List Nat) :
    List Text → Except Migration.KeyUtilityError (List OpenSshHostCandidate)
  | [] => .ok candidates
  | raw_line :: raw_lines =>
      if raw_line.len > Migration.MAX_CONFIG_LINE_BYTES then .error .ConfigLineTooLong
      else
        match host_patterns raw_line with
        | some words => do
            let (candidates, current) ← push_candidates candidates [] words
            parse_lines candidates current raw_lines
        | none =>
            parse_lines (change_current candidates current fun candidate => apply_line candidate raw_line)
              current raw_lines

def config_lines (text : Text) : List Text := Text.split '\n' (normalize_line_ends text)

def parse_open_ssh_config (text : Text) :
    Except Migration.KeyUtilityError (List OpenSshHostCandidate) :=
  if text.len > Migration.MAX_CONFIG_BYTES then .error .ConfigTooLarge
  else parse_lines [] [] (config_lines text)

/-! ### What lines say -/

def checked (maximum : Nat) (value : Text) : Option Text :=
  if valid_config_value value maximum then some value else none

/-- The value that a directive gives for a keyword. -/
def gives {α : Type} (key value : Text) (name : String) (parse : Text → Option α) : Option α :=
  if key = name.toList then parse value else none

/-- The value that a line gives for a keyword. -/
def given {α : Type} (name : String) (parse : Text → Option α) (raw_line : Text) : Option α :=
  match split_directive (content_of raw_line) with
  | none => none
  | some (keyword, value) => gives keyword.to_ascii_lowercase (unquote value.trim) name parse

/-- The values that some lines give for a keyword. -/
def values {α : Type} (name : String) (parse : Text → Option α) (lines : List Text) : List α :=
  lines.filterMap (given name parse)

def names_identity (raw_line : Text) : Bool := (given "identityfile" (checked 32767) raw_line).isSome

/-- A line that gives a value other than an identity file. -/
def gives_value (raw_line : Text) : Bool :=
  (given "hostname" (checked 512) raw_line).isSome || (given "user" (checked 256) raw_line).isSome ||
  (given "port" parse_port raw_line).isSome || (given "identitiesonly" parse_boolean raw_line).isSome ||
  (given "proxyjump" (checked 1024) raw_line).isSome ||
  (given "serveraliveinterval" (parse_unsigned · 3600) raw_line).isSome ||
  (given "serveralivecountmax" (parse_unsigned · 100) raw_line).isSome ||
  (given "tcpkeepalive" parse_boolean raw_line).isSome ||
  (given "connecttimeout" (parse_unsigned · 300) raw_line).isSome ||
  (given "compression" parse_boolean raw_line).isSome ||
  (given "localforward" (checked 4096) raw_line).isSome ||
  (given "remoteforward" (checked 4096) raw_line).isSome

/-- A line that is kept for review: no comment, no value, or an identity file
    where one was named before. -/
def unsupported (named : Bool) (raw_line : Text) : Bool :=
  !(content_of raw_line).isEmpty && !gives_value raw_line && (named || !names_identity raw_line)

/-- The lines that are kept for review. -/
def unsupported_lines : Bool → List Text → List Text
  | _, [] => []
  | named, line :: lines =>
      (if unsupported named line then [line] else []) ++
        unsupported_lines (named || names_identity line) lines

/-- What some lines say about an alias.  `pick` is the value that counts where
    a keyword has several. -/
def candidate_of (pick : {α : Type} → List α → Option α) (host_alias : Text) (lines : List Text) :
    OpenSshHostCandidate where
  «alias» := host_alias
  hostname := (pick (values "hostname" (checked 512) lines)).getD host_alias
  username := pick (values "user" (checked 256) lines)
  port := (pick (values "port" parse_port lines)).getD 22
  identity_file := (values "identityfile" (checked 32767) lines).head?
  identities_only := pick (values "identitiesonly" parse_boolean lines)
  proxy_jump := pick (values "proxyjump" (checked 1024) lines)
  server_alive_interval_seconds :=
    pick (values "serveraliveinterval" (parse_unsigned · 3600) lines)
  server_alive_count_max := pick (values "serveralivecountmax" (parse_unsigned · 100) lines)
  tcp_keep_alive := pick (values "tcpkeepalive" parse_boolean lines)
  connect_timeout_seconds := pick (values "connecttimeout" (parse_unsigned · 300) lines)
  compression := pick (values "compression" parse_boolean lines)
  local_forwards := (values "localforward" (checked 4096) lines).foldl retain_bounded_line []
  remote_forwards := (values "remoteforward" (checked 4096) lines).foldl retain_bounded_line []
  unsupported_lines := (unsupported_lines false lines).foldl retain_bounded_line []
  local_forward_count := (values "localforward" (checked 4096) lines).length
  remote_forward_count := (values "remoteforward" (checked 4096) lines).length
  unsupported_count := (unsupported_lines false lines).length

/-! ### Entries -/

/-- An alias of a `Host` line, and the lines behind that line. -/
structure Entry where
  «alias» : Text
  rest : List Text

/-- The aliases of a config, with the lines behind each. -/
def entries : List Text → List Entry
  | [] => []
  | line :: rest =>
      ((host_patterns line).getD []).filterMap
          (fun word => if is_concrete_alias word then some ⟨word, rest⟩ else none) ++
        entries rest

/-- The lines up to the next `Host` line with patterns. -/
def Entry.block (entry : Entry) : List Text :=
  entry.rest.takeWhile fun line => (host_patterns line).isNone

/-- No kind of line is retained without bound. -/
def Bounded (candidate : OpenSshHostCandidate) : Prop :=
  ∀ lines ∈ [candidate.local_forwards, candidate.remote_forwards, candidate.unsupported_lines],
    lines.length ≤ MAX_RETAINED_LINES_PER_KIND ∧ (lines.map Text.len).sum ≤ MAX_RETAINED_BYTES_PER_KIND

/-! ### One line -/

/-- A candidate with the values of a directive.  The directive is kept for
    review if it is `odd`. -/
def updated (candidate : OpenSshHostCandidate) (line : Text) (odd : Bool)
    (value : {α : Type} → String → (Text → Option α) → Option α) : OpenSshHostCandidate :=
  { candidate with
    hostname := (value "hostname" (checked 512)).getD candidate.hostname
    username := (value "user" (checked 256)).or candidate.username
    port := (value "port" parse_port).getD candidate.port
    identity_file := candidate.identity_file.or (value "identityfile" (checked 32767))
    identities_only := (value "identitiesonly" parse_boolean).or candidate.identities_only
    proxy_jump := (value "proxyjump" (checked 1024)).or candidate.proxy_jump
    server_alive_interval_seconds := (value "serveraliveinterval" (parse_unsigned · 3600)).or
      candidate.server_alive_interval_seconds
    server_alive_count_max :=
      (value "serveralivecountmax" (parse_unsigned · 100)).or candidate.server_alive_count_max
    tcp_keep_alive := (value "tcpkeepalive" parse_boolean).or candidate.tcp_keep_alive
    connect_timeout_seconds :=
      (value "connecttimeout" (parse_unsigned · 300)).or candidate.connect_timeout_seconds
    compression := (value "compression" parse_boolean).or candidate.compression
    local_forwards := (value "localforward" (checked 4096)).toList.foldl
      retain_bounded_line candidate.local_forwards
    remote_forwards := (value "remoteforward" (checked 4096)).toList.foldl
      retain_bounded_line candidate.remote_forwards
    unsupported_lines :=
      (if odd then [line] else []).foldl retain_bounded_line candidate.unsupported_lines
    local_forward_count :=
      candidate.local_forward_count + (value "localforward" (checked 4096)).toList.length
    remote_forward_count :=
      candidate.remote_forward_count + (value "remoteforward" (checked 4096)).toList.length
    unsupported_count := candidate.unsupported_count + (if odd then [line] else []).length }

/-- A directive that gives no value is kept for review. -/
def odd_key (named : Bool) (key value : Text) : Bool :=
  !((gives key value "hostname" (checked 512)).isSome || (gives key value "user" (checked 256)).isSome ||
    (gives key value "port" parse_port).isSome || (gives key value "identitiesonly" parse_boolean).isSome ||
    (gives key value "proxyjump" (checked 1024)).isSome ||
    (gives key value "serveraliveinterval" (parse_unsigned · 3600)).isSome ||
    (gives key value "serveralivecountmax" (parse_unsigned · 100)).isSome ||
    (gives key value "tcpkeepalive" parse_boolean).isSome ||
    (gives key value "connecttimeout" (parse_unsigned · 300)).isSome ||
    (gives key value "compression" parse_boolean).isSome ||
    (gives key value "localforward" (checked 4096)).isSome ||
    (gives key value "remoteforward" (checked 4096)).isSome) &&
  (named || !(gives key value "identityfile" (checked 32767)).isSome)

theorem apply_key_eq (candidate : OpenSshHostCandidate) (key value line : Text) :
    apply_key candidate key value line =
      updated candidate line (odd_key candidate.identity_file.isSome key value)
        fun name parse => gives key value name parse := by
  unfold apply_key updated odd_key gives
  by_cases h_hostname : key = "hostname".toList
  · subst h_hostname
    cases hvalid : valid_config_value value 512 with
    | true => simp [checked, hvalid]
    | false => simp [checked, hvalid, record_unsupported]
  by_cases h_user : key = "user".toList
  · subst h_user
    cases hvalid : valid_config_value value 256 with
    | true => simp [checked, hvalid]
    | false => simp [checked, hvalid, record_unsupported]
  by_cases h_port : key = "port".toList
  · subst h_port
    cases hparsed : parse_port value with
    | some parsed => simp [record, hparsed]
    | none => simp [record, hparsed, record_unsupported]
  by_cases h_identityfile : key = "identityfile".toList
  · subst h_identityfile
    cases hvalid : valid_config_value value 32767 with
    | true =>
      cases hnamed : candidate.identity_file with
      | none => simp [checked, hvalid]
      | some named => simp [checked, hvalid, hnamed, record_unsupported]
    | false => simp [checked, hvalid, record_unsupported]
  by_cases h_identitiesonly : key = "identitiesonly".toList
  · subst h_identitiesonly
    cases hparsed : parse_boolean value with
    | some parsed => simp [record, hparsed]
    | none => simp [record, hparsed, record_unsupported]
  by_cases h_proxyjump : key = "proxyjump".toList
  · subst h_proxyjump
    cases hvalid : valid_config_value value 1024 with
    | true => simp [checked, hvalid]
    | false => simp [checked, hvalid, record_unsupported]
  by_cases h_serveraliveinterval : key = "serveraliveinterval".toList
  · subst h_serveraliveinterval
    cases hparsed : parse_unsigned value 3600 with
    | some parsed => simp [record, hparsed]
    | none => simp [record, hparsed, record_unsupported]
  by_cases h_serveralivecountmax : key = "serveralivecountmax".toList
  · subst h_serveralivecountmax
    cases hparsed : parse_unsigned value 100 with
    | some parsed => simp [record, hparsed]
    | none => simp [record, hparsed, record_unsupported]
  by_cases h_tcpkeepalive : key = "tcpkeepalive".toList
  · subst h_tcpkeepalive
    cases hparsed : parse_boolean value with
    | some parsed => simp [record, hparsed]
    | none => simp [record, hparsed, record_unsupported]
  by_cases h_connecttimeout : key = "connecttimeout".toList
  · subst h_connecttimeout
    cases hparsed : parse_unsigned value 300 with
    | some parsed => simp [record, hparsed]
    | none => simp [record, hparsed, record_unsupported]
  by_cases h_compression : key = "compression".toList
  · subst h_compression
    cases hparsed : parse_boolean value with
    | some parsed => simp [record, hparsed]
    | none => simp [record, hparsed, record_unsupported]
  by_cases h_localforward : key = "localforward".toList
  · subst h_localforward
    cases hvalid : valid_config_value value 4096 with
    | true => simp [checked, hvalid]
    | false => simp [checked, hvalid, record_unsupported]
  by_cases h_remoteforward : key = "remoteforward".toList
  · subst h_remoteforward
    cases hvalid : valid_config_value value 4096 with
    | true => simp [checked, hvalid]
    | false => simp [checked, hvalid, record_unsupported]
  -- no keyword that is known
  simp only [h_hostname, h_user, h_port, h_identityfile, h_identitiesonly, h_proxyjump, h_serveraliveinterval, h_serveralivecountmax, h_tcpkeepalive, h_connecttimeout, h_compression, h_localforward, h_remoteforward, false_and, if_false]
  simp [record_unsupported]

/-- What a line does, value by value. -/
theorem apply_line_eq (candidate : OpenSshHostCandidate) (line : Text) :
    apply_line candidate line =
      updated candidate line (unsupported candidate.identity_file.isSome line)
        fun name parse => given name parse line := by
  unfold apply_line unsupported names_identity gives_value given
  cases hcontent : (content_of line).isEmpty with
  | true =>
    have hnone : split_directive (content_of line) = none := by
      rw [List.isEmpty_iff.mp hcontent]
      rfl
    rw [hnone]
    simp [updated]
  | false =>
    cases split_directive (content_of line) with
    | none => simp [record_unsupported, updated]
    | some directive => exact apply_key_eq candidate _ _ line

/-! ### Many lines -/

theorem values_cons {α : Type} (name : String) (parse : Text → Option α) (line : Text)
    (lines : List Text) :
    values name parse (line :: lines) = (given name parse line).toList ++ values name parse lines := by
  unfold values
  rw [List.filterMap_cons]
  cases given name parse line with
  | none => rfl
  | some value => rfl

/-- The last value of some lines, behind what was there before. -/
theorem last_value {α : Type} (before : Option α) (first : Option α) (others : List α) :
    (others.getLast?).or (first.or before) = ((first.toList ++ others).getLast?).or before := by
  cases first with
  | none => rfl
  | some value =>
    rw [Option.some_or, Option.toList_some, List.getLast?_append]
    cases others.getLast? with
    | none => rfl
    | some last => rfl

theorem last_value_getD {α : Type} (before : α) (first : Option α) (others : List α) :
    (others.getLast?).getD (first.getD before) = ((first.toList ++ others).getLast?).getD before := by
  cases first with
  | none => rfl
  | some value =>
    rw [Option.toList_some, List.getLast?_append]
    cases others.getLast? with
    | none => rfl
    | some last => rfl

/-- The first value of some lines, if none was there before. -/
theorem first_value {α : Type} (before : Option α) (first : Option α) (others : List α) :
    (before.or first).or others.head? = before.or (first.toList ++ others).head? := by
  cases before with
  | none => cases first <;> rfl
  | some value => rfl

/-- A candidate with the values of some lines, the last of which count. -/
def with_values (candidate : OpenSshHostCandidate) (lines : List Text) : OpenSshHostCandidate :=
  { candidate with
    hostname := ((values "hostname" (checked 512) lines).getLast?).getD candidate.hostname
    username := ((values "user" (checked 256) lines).getLast?).or candidate.username
    port := ((values "port" parse_port lines).getLast?).getD candidate.port
    identity_file := candidate.identity_file.or (values "identityfile" (checked 32767) lines).head?
    identities_only :=
      ((values "identitiesonly" parse_boolean lines).getLast?).or candidate.identities_only
    proxy_jump := ((values "proxyjump" (checked 1024) lines).getLast?).or candidate.proxy_jump
    server_alive_interval_seconds :=
      ((values "serveraliveinterval" (parse_unsigned · 3600) lines).getLast?).or
        candidate.server_alive_interval_seconds
    server_alive_count_max :=
      ((values "serveralivecountmax" (parse_unsigned · 100) lines).getLast?).or
        candidate.server_alive_count_max
    tcp_keep_alive := ((values "tcpkeepalive" parse_boolean lines).getLast?).or candidate.tcp_keep_alive
    connect_timeout_seconds :=
      ((values "connecttimeout" (parse_unsigned · 300) lines).getLast?).or
        candidate.connect_timeout_seconds
    compression := ((values "compression" parse_boolean lines).getLast?).or candidate.compression
    local_forwards := (values "localforward" (checked 4096) lines).foldl retain_bounded_line
      candidate.local_forwards
    remote_forwards := (values "remoteforward" (checked 4096) lines).foldl retain_bounded_line
      candidate.remote_forwards
    unsupported_lines := (unsupported_lines candidate.identity_file.isSome lines).foldl
      retain_bounded_line candidate.unsupported_lines
    local_forward_count :=
      candidate.local_forward_count + (values "localforward" (checked 4096) lines).length
    remote_forward_count :=
      candidate.remote_forward_count + (values "remoteforward" (checked 4096) lines).length
    unsupported_count :=
      candidate.unsupported_count + (unsupported_lines candidate.identity_file.isSome lines).length }

theorem unsupported_lines_cons (named : Bool) (line : Text) (lines : List Text) :
    unsupported_lines named (line :: lines) = (if unsupported named line then [line] else []) ++
      unsupported_lines (named || names_identity line) lines := rfl

/-- The lines of a block, one after the other. -/
theorem foldl_apply_line (candidate : OpenSshHostCandidate) (lines : List Text) :
    lines.foldl apply_line candidate = with_values candidate lines := by
  induction lines generalizing candidate with
  | nil =>
    unfold with_values values
    simp [unsupported_lines]
  | cons line lines ih =>
    have hnamed : (candidate.identity_file.or (given "identityfile" (checked 32767) line)).isSome =
        (candidate.identity_file.isSome || names_identity line) := Option.isSome_or
    rw [List.foldl_cons, ih, apply_line_eq]
    unfold with_values updated
    simp only [values_cons, unsupported_lines_cons, last_value, last_value_getD, first_value, hnamed,
      List.foldl_append, List.length_append, Nat.add_assoc]

theorem foldl_new (host_alias : Text) (lines : List Text) :
    lines.foldl apply_line (.new host_alias) = candidate_of List.getLast? host_alias lines := by
  rw [foldl_apply_line]
  unfold with_values candidate_of OpenSshHostCandidate.new
  simp

/-! ### Blocks of candidates -/

theorem modify_behind {α : Type} (front back : List α) (a : α) (change : α → α) :
    (front ++ a :: back).modify front.length change = front ++ change a :: back := by
  induction front with
  | nil => exact List.modify_zero_cons change a back
  | cons b front ih =>
    rw [List.cons_append, List.length_cons, List.modify_succ_cons, ih]
    rfl

/-- The last candidates are changed. -/
theorem change_current_eq (front block : List OpenSshHostCandidate)
    (change : OpenSshHostCandidate → OpenSshHostCandidate) :
    change_current (front ++ block) (List.range' front.length block.length) change =
      front ++ block.map change := by
  induction block generalizing front with
  | nil => rfl
  | cons candidate block ih =>
    have hmodify : (front ++ candidate :: block).modify front.length change =
        (front ++ [change candidate]) ++ block := by
      rw [modify_behind, List.append_assoc]
      rfl
    have hrest := ih (front ++ [change candidate])
    unfold change_current at hrest ⊢
    rw [List.length_cons, List.range'_succ, List.foldl_cons, hmodify]
    rw [List.length_append, List.length_singleton] at hrest
    rw [hrest, List.append_assoc]
    rfl

/-- The aliases of some patterns. -/
def concrete_aliases (words : List Text) : List Text := words.filter is_concrete_alias

theorem push_candidates_ok {candidates result : List OpenSshHostCandidate} {current now : List Nat}
    {words : List Text} (h : push_candidates candidates current words = .ok (result, now)) :
    result = candidates ++ (concrete_aliases words).map .new ∧
      now = current ++ List.range' candidates.length (concrete_aliases words).length ∧
      (candidates.length ≤ Migration.MAX_HOST_CANDIDATES →
        result.length ≤ Migration.MAX_HOST_CANDIDATES) := by
  induction words generalizing candidates current with
  | nil =>
    obtain ⟨rfl, rfl⟩ := Prod.mk.inj (Except.ok.inj h)
    exact ⟨(List.append_nil _).symm, (List.append_nil _).symm, id⟩
  | cons word words ih =>
    unfold push_candidates at h
    cases hconcrete : is_concrete_alias word with
    | false =>
      rw [hconcrete] at h
      have haliases : concrete_aliases (word :: words) = concrete_aliases words :=
        List.filter_cons_of_neg (by rw [hconcrete]; exact Bool.false_ne_true)
      rw [haliases]
      exact ih h
    | true =>
      rw [hconcrete] at h
      obtain ⟨hfew, h⟩ := Outcome.ite_error_eq_ok.mp h
      have haliases : concrete_aliases (word :: words) = word :: concrete_aliases words :=
        List.filter_cons_of_pos hconcrete
      obtain ⟨hresult, hnow, hbound⟩ := ih h
      rw [List.length_append, List.length_singleton] at hnow hbound
      rw [haliases, List.length_cons, List.range'_succ]
      refine ⟨?_, ?_, fun _ => hbound (by omega)⟩
      · rw [hresult, List.append_assoc]
        rfl
      · rw [hnow, List.append_assoc]
        rfl

/-- The aliases of a line are the entries it begins. -/
theorem entries_cons (line : Text) (rest : List Text) : entries (line :: rest) =
    (concrete_aliases ((host_patterns line).getD [])).map (fun word => ⟨word, rest⟩) ++
      entries rest := by
  have hfilter : ∀ words : List Text,
      words.filterMap (fun word => if is_concrete_alias word then some (⟨word, rest⟩ : Entry) else none) =
        (concrete_aliases words).map fun word => ⟨word, rest⟩ := by
    intro words
    unfold concrete_aliases
    induction words with
    | nil => rfl
    | cons word words ih =>
      rw [List.filterMap_cons, List.filter_cons, ih]
      cases is_concrete_alias word <;> rfl
  rw [entries, hfilter]

/-- The lines of a block, up to the next `Host` line with patterns. -/
def block_of (lines : List Text) : List Text := lines.takeWhile fun line => (host_patterns line).isNone

/-- What the parser makes of an entry. -/
def Entry.parsed (entry : Entry) : OpenSshHostCandidate :=
  entry.block.foldl apply_line (.new entry.alias)

/-- The candidates of the current block get the lines up to the next, and the
    others those of their own blocks. -/
theorem parse_lines_ok {front block result : List OpenSshHostCandidate} {lines : List Text}
    (h : parse_lines (front ++ block) (List.range' front.length block.length) lines = .ok result) :
    result = front ++ block.map (fun candidate => (block_of lines).foldl apply_line candidate) ++
      (entries lines).map Entry.parsed ∧
    ((front ++ block).length ≤ Migration.MAX_HOST_CANDIDATES →
      result.length ≤ Migration.MAX_HOST_CANDIDATES) := by
  induction lines generalizing front block with
  | nil =>
    obtain rfl := Except.ok.inj h
    have hblock : block.map (fun candidate => (block_of []).foldl apply_line candidate) = block :=
      List.map_id' block
    rw [hblock]
    exact ⟨(List.append_nil _).symm, id⟩
  | cons line lines ih =>
    unfold parse_lines at h
    obtain ⟨_, h⟩ := Outcome.ite_error_eq_ok.mp h
    cases hhost : host_patterns line with
    | none =>
      rw [hhost] at h
      dsimp only at h
      rw [change_current_eq] at h
      have hlines : block_of (line :: lines) = line :: block_of lines :=
        List.takeWhile_cons_of_pos (by rw [hhost]; rfl)
      have hentries : entries (line :: lines) = entries lines := by
        rw [entries_cons, hhost]
        rfl
      have hlength : block.length = (block.map fun candidate => apply_line candidate line).length :=
        (List.length_map _).symm
      rw [hlength] at h
      obtain ⟨hresult, hfew⟩ := ih h
      rw [hentries, hlines]
      constructor
      · rw [hresult, List.map_map]
        rfl
      · rw [List.length_append, List.length_map] at hfew
        rw [List.length_append]
        exact hfew
    | some words =>
      rw [hhost] at h
      obtain ⟨⟨candidates, current⟩, hpush, h⟩ := Outcome.bind_eq_ok.mp h
      obtain ⟨rfl, rfl, hfew⟩ := push_candidates_ok hpush
      have hlines : block_of (line :: lines) = [] :=
        List.takeWhile_cons_of_neg (by rw [hhost]; exact Bool.false_ne_true)
      have hblock : block.map (fun candidate => ([] : List Text).foldl apply_line candidate) = block :=
        List.map_id' block
      have hlength : (concrete_aliases words).length =
          ((concrete_aliases words).map OpenSshHostCandidate.new).length := (List.length_map _).symm
      rw [List.nil_append, hlength] at h
      obtain ⟨hresult, hbound⟩ := ih h
      rw [entries_cons, hhost, hlines, hblock, List.map_append, ← List.append_assoc, hresult]
      constructor
      · rw [List.map_map, List.map_map]
        rfl
      · exact fun hbefore => hresult ▸ hbound (hfew hbefore)

/-- **What the parser makes of a config**: each alias gets the last values up to
    the next `Host` line. -/
theorem parsed_entries {text : Text} {candidates : List OpenSshHostCandidate}
    (h : parse_open_ssh_config text = .ok candidates) :
    candidates = (entries (config_lines text)).map (fun entry =>
      candidate_of List.getLast? entry.alias entry.block) ∧
    candidates.length ≤ Migration.MAX_HOST_CANDIDATES := by
  obtain ⟨_, h⟩ := Outcome.ite_error_eq_ok.mp h
  have hstart : parse_lines (([] : List OpenSshHostCandidate) ++ [])
      (List.range' (List.length ([] : List OpenSshHostCandidate)) (List.length ([] : List OpenSshHostCandidate)))
      (config_lines text) = .ok candidates := h
  obtain ⟨hresult, hfew⟩ := parse_lines_ok hstart
  refine ⟨?_, hfew (Nat.zero_le _)⟩
  rw [hresult]
  exact List.map_congr_left fun entry _ => foldl_new entry.alias entry.block

/-! ### Bounds -/

def Retained (lines : List Text) : Prop :=
  lines.length ≤ MAX_RETAINED_LINES_PER_KIND ∧ (lines.map Text.len).sum ≤ MAX_RETAINED_BYTES_PER_KIND

theorem retain_bounded_line_retained {lines : List Text} (h : Retained lines) (line : Text) :
    Retained (retain_bounded_line lines line) := by
  unfold retain_bounded_line
  split_ifs with hfull
  · exact h
  · obtain ⟨hlines, hbytes⟩ := not_or.mp hfull
    constructor
    · rw [List.length_append, List.length_singleton]
      omega
    · rw [List.map_append, List.sum_append, List.map_singleton, List.sum_singleton]
      omega

theorem foldl_retained (more : List Text) {lines : List Text} (h : Retained lines) :
    Retained (more.foldl retain_bounded_line lines) := by
  induction more generalizing lines with
  | nil => exact h
  | cons line more ih => exact ih (retain_bounded_line_retained h line)

theorem candidate_bounded (pick : {α : Type} → List α → Option α) (host_alias : Text)
    (lines : List Text) : Bounded (candidate_of pick host_alias lines) := by
  have hnone : Retained [] := ⟨Nat.zero_le _, Nat.zero_le _⟩
  unfold Bounded
  rw [List.forall_mem_cons, List.forall_mem_cons, List.forall_mem_singleton]
  exact ⟨foldl_retained _ hnone, foldl_retained _ hnone, foldl_retained _ hnone⟩

/-! ### What the migration reads -/

/-- A candidate as the migration reads it. -/
def OpenSshHostCandidate.summary (candidate : OpenSshHostCandidate) : Migration.OpenSshHostCandidate where
  «alias» := candidate.alias
  hostname := candidate.hostname
  username := candidate.username
  port := candidate.port
  identity_file := candidate.identity_file
  identities_only := candidate.identities_only
  proxy_jump := candidate.proxy_jump
  server_alive_interval_seconds := candidate.server_alive_interval_seconds
  server_alive_count_max := candidate.server_alive_count_max
  tcp_keep_alive := candidate.tcp_keep_alive
  connect_timeout_seconds := candidate.connect_timeout_seconds
  compression := candidate.compression
  unsupported_count := candidate.unsupported_count

theorem summary_record {α : Type} (candidate : OpenSshHostCandidate) (line : Text)
    (update : α → OpenSshHostCandidate) (parsed : Option α) :
    (record candidate line update parsed).summary =
      Migration.record candidate.summary (fun value => (update value).summary) parsed := by
  cases parsed <;> rfl

theorem summary_ite {p : Prop} [Decidable p] {a b : OpenSshHostCandidate}
    {a' b' : Migration.OpenSshHostCandidate} (ha : a.summary = a') (hb : b.summary = b') :
    (if p then a else b).summary = if p then a' else b' := by
  by_cases hp : p
  · rw [if_pos hp, if_pos hp, ha]
  · rw [if_neg hp, if_neg hp, hb]

/-- A port is a number that is no port when it is zero. -/
theorem summary_port (candidate : OpenSshHostCandidate) (line value : Text)
    (update : UInt16 → OpenSshHostCandidate) :
    (record candidate line update (parse_port value)).summary =
      Migration.record candidate.summary (fun port => (update (UInt16.ofNat port)).summary)
        ((parse_unsigned value 65535).filter fun port => port > 0) := by
  rw [summary_record]
  unfold parse_port
  cases (parse_unsigned value 65535).filter fun port => port > 0 <;> rfl

/-- Forwards are counted here only. -/
theorem summary_forwards {l r v : Prop} [Decidable l] [Decidable r] [Decidable v]
    {a b c : OpenSshHostCandidate} {a' c' : Migration.OpenSshHostCandidate}
    (ha : a.summary = a') (hb : b.summary = a') (hc : c.summary = c') :
    (if l ∧ v then a else if r ∧ v then b else c).summary = if (l ∨ r) ∧ v then a' else c' := by
  by_cases hv : v
  · by_cases hl : l
    · rw [if_pos ⟨hl, hv⟩, if_pos ⟨.inl hl, hv⟩, ha]
    · by_cases hr : r
      · rw [if_neg fun h => hl h.1, if_pos ⟨hr, hv⟩, if_pos ⟨.inr hr, hv⟩, hb]
      · rw [if_neg fun h => hl h.1, if_neg fun h => hr h.1, if_neg fun h => h.1.elim hl hr, hc]
  · rw [if_neg fun h => hv h.2, if_neg fun h => hv h.2, if_neg fun h => hv h.2, hc]

theorem summary_apply (candidate : OpenSshHostCandidate) (keyword value line : Text) :
    (apply_directive candidate keyword value line).summary =
      Migration.apply_directive candidate.summary keyword value := by
  unfold apply_directive apply_key Migration.apply_directive
  dsimp only
  refine summary_ite rfl (summary_ite rfl (summary_ite (summary_port _ _ _ _) ?_))
  refine summary_ite (summary_ite rfl rfl) (summary_ite (summary_record _ _ _ _) ?_)
  refine summary_ite rfl (summary_ite (summary_record _ _ _ _) ?_)
  refine summary_ite (summary_record _ _ _ _) (summary_ite (summary_record _ _ _ _) ?_)
  refine summary_ite (summary_record _ _ _ _) (summary_ite (summary_record _ _ _ _) ?_)
  exact summary_forwards rfl rfl rfl

/-- A change of one element can be made after a map. -/
theorem map_modify {α β : Type} {f : α → β} {change : α → α} {change' : β → β}
    (h : ∀ a, f (change a) = change' (f a)) (l : List α) (index : Nat) :
    (l.modify index change).map f = (l.map f).modify index change' := by
  induction l generalizing index with
  | nil => rw [List.modify_nil, List.map_nil, List.modify_nil]
  | cons a l ih =>
    cases index with
    | zero => rw [List.modify_zero_cons, List.map_cons, List.map_cons, List.modify_zero_cons, h]
    | succ index => rw [List.modify_succ_cons, List.map_cons, List.map_cons, List.modify_succ_cons, ih]

theorem summary_change (candidates : List OpenSshHostCandidate) (current : List Nat)
    {change : OpenSshHostCandidate → OpenSshHostCandidate}
    {change' : Migration.OpenSshHostCandidate → Migration.OpenSshHostCandidate}
    (h : ∀ candidate, (change candidate).summary = change' candidate.summary) :
    (change_current candidates current change).map OpenSshHostCandidate.summary =
      Migration.change_current (candidates.map OpenSshHostCandidate.summary) current change' := by
  induction current generalizing candidates with
  | nil => rfl
  | cons index current ih =>
    have hmodify := map_modify h candidates index
    have hrest := ih (candidates.modify index change)
    rw [hmodify] at hrest
    exact hrest

theorem summary_unsupported (candidates : List OpenSshHostCandidate) (current : List Nat) (line : Text) :
    (change_current candidates current fun candidate => record_unsupported candidate line).map
        OpenSshHostCandidate.summary =
      Migration.change_current (candidates.map OpenSshHostCandidate.summary) current
        Migration.record_unsupported :=
  summary_change candidates current fun _ => rfl

theorem summary_directive (candidates : List OpenSshHostCandidate) (current : List Nat)
    (keyword value line : Text) :
    (change_current candidates current fun candidate =>
        apply_directive candidate keyword value line).map OpenSshHostCandidate.summary =
      Migration.change_current (candidates.map OpenSshHostCandidate.summary) current
        fun candidate => Migration.apply_directive candidate keyword value :=
  summary_change candidates current fun candidate => summary_apply candidate keyword value line

theorem summary_push (candidates : List OpenSshHostCandidate) (current : List Nat) (words : List Text) :
    Migration.push_candidates (candidates.map OpenSshHostCandidate.summary) current words =
      (push_candidates candidates current words).map fun result =>
        (result.1.map OpenSshHostCandidate.summary, result.2) := by
  induction words generalizing candidates current with
  | nil => rfl
  | cons word words ih =>
    unfold Migration.push_candidates push_candidates
    rw [List.length_map]
    split_ifs
    · exact ih candidates current
    · rfl
    · have hrest := ih (candidates ++ [.new word]) (current ++ [candidates.length])
      rw [List.map_append] at hrest
      exact hrest

/-- A change that no candidate notices is none. -/
theorem change_current_id (candidates : List OpenSshHostCandidate) (current : List Nat) :
    change_current candidates current (fun candidate => candidate) = candidates := by
  induction current generalizing candidates with
  | nil => rfl
  | cons index current ih =>
    have hsame : candidates.modify index (fun candidate => candidate) = candidates :=
      List.modify_id index candidates
    show change_current (candidates.modify index fun candidate => candidate) current
      (fun candidate => candidate) = candidates
    rw [hsame, ih]

theorem summary_parse_lines (candidates : List OpenSshHostCandidate) (current : List Nat)
    (lines : List Text) :
    Migration.parse_lines (candidates.map OpenSshHostCandidate.summary) current lines =
      (parse_lines candidates current lines).map (List.map OpenSshHostCandidate.summary) := by
  induction lines generalizing candidates current with
  | nil => rfl
  | cons line lines ih =>
    unfold Migration.parse_lines parse_lines host_patterns apply_line content_of
    dsimp only
    split_ifs with hlong hempty
    · rfl
    · -- a line without content is no directive
      have hnone : split_directive (Text.trim (strip_comment none line)) = none := by
        rw [List.isEmpty_iff.mp hempty]
        rfl
      rw [hnone]
      dsimp only
      rw [change_current_id]
      exact ih candidates current
    · cases hsplit : split_directive (Text.trim (strip_comment none line)) with
      | none =>
        dsimp only
        rw [← summary_unsupported]
        exact ih _ current
      | some directive =>
        obtain ⟨keyword, value⟩ := directive
        dsimp only
        by_cases hhost : keyword.eq_ignore_ascii_case "host".toList = true
        · rw [if_pos hhost, if_pos hhost, summary_push]
          dsimp only
          cases push_candidates candidates [] (split_words none [] value) with
          | error e => rfl
          | ok result => exact ih result.1 result.2
        · rw [if_neg hhost, if_neg hhost]
          rw [← summary_directive candidates current keyword value line]
          exact ih _ current

/-- **One parser for both readers**: a migration reads the candidates that are
    imported otherwise, and keeps less of them. -/
theorem summary_parse_open_ssh_config (text : Text) :
    Migration.parse_open_ssh_config text =
      (parse_open_ssh_config text).map (List.map OpenSshHostCandidate.summary) := by
  unfold Migration.parse_open_ssh_config parse_open_ssh_config
  split_ifs
  · rfl
  · exact summary_parse_lines [] [] _

end Keys
