import RemoteDeck.Lib.Rows
import RemoteDeck.Store.Validate

/-! # The known_hosts store

    The functions of `ssh.rs` that read, extend and prune the application's
    own `known_hosts` file.

    The base64 and SHA-256 libraries are parameters (`KeyCodec`), and so are
    what `ssh-keyscan` and `ssh-keygen` report and how replacing the file
    ends.
-/

namespace Ssh

def MAX_KNOWN_HOSTS_BYTES : Nat := 8 * 1024 * 1024
def MAX_KNOWN_HOST_RECORDS : Nat := 4096

structure TrustedHostKey where
  host_token : Text
  algorithm : Text
  public_key_base64 : Text
  sha256_fingerprint : Text
  deriving DecidableEq, Repr

structure HostKeyCandidate where
  host_token : Text
  algorithm : Text
  public_key_base64 : Text
  sha256_fingerprint : Text
  deriving DecidableEq, Repr

/-! ### Fields -/

/-- The library functions behind a fingerprint. -/
structure KeyCodec where
  /-- `STANDARD.decode`, with its error's text. -/
  decode : Text → Except Text (List UInt8)
  /-- `Sha256::digest`. -/
  digest : List UInt8 → List UInt8
  /-- `STANDARD_NO_PAD.encode`. -/
  encode_no_pad : List UInt8 → Text

def fingerprint_public_key (codec : KeyCodec) (public_key_base64 : Text) : AppResult Text :=
  match codec.decode public_key_base64 with
  | .error error => .error (.Process ("host key contains invalid base64: ".toList ++ error))
  | .ok decoded => .ok ("SHA256:".toList ++ codec.encode_no_pad (codec.digest decoded))

/-- A field with white space or a control character. -/
def unprintable (field : Text) : Bool :=
  field.any fun c => Text.is_whitespace c || Text.is_control c

def validate_host_key_fields (algorithm key : Text) : AppResult Unit :=
  if algorithm.isEmpty || algorithm.len > 128 || unprintable algorithm || key.len < 16 ||
      key.len > 16384 || unprintable key then
    .error (.Validation "host-key candidate contains invalid fields".toList)
  else .ok ()

def validate_host_token (token : Text) : AppResult Unit :=
  if token.isEmpty || token.len > 1024 || unprintable token then
    .error (.Validation "known-hosts host token is invalid".toList)
  else .ok ()

def known_hosts_host_token (host : Text) (port : UInt16) : Text :=
  if port = 22 then host else '[' :: host ++ ']' :: ':' :: port.toNat.text

def line_matches_host_algorithm (line token algorithm : Text) : Bool :=
  match line.split_whitespace with
  | hosts :: record_algorithm :: _ =>
      record_algorithm = algorithm && (hosts.split ',').any fun host => host = token
  | _ => false

/-! ### Reading -/

def unsupported_record {α : Type} : AppResult α :=
  .error (.State "app-owned known_hosts contains an unsupported record".toList)

def too_many_records {α : Type} : AppResult α :=
  .error (.State "app-owned known_hosts exceeds 4096 records".toList)

/-- Append the record of one host of a line. -/
def push_record (algorithm public_key_base64 fingerprint : Text)
    (trusted : List TrustedHostKey) (host_token : Text) : AppResult (List TrustedHostKey) :=
  if trusted.length ≥ MAX_KNOWN_HOST_RECORDS then too_many_records
  else do
    validate_host_token host_token
    .ok (trusted ++
      [{ host_token := host_token
         algorithm := algorithm
         public_key_base64 := public_key_base64
         sha256_fingerprint := fingerprint }])

/-- Append the records of one line. -/
def push_line (codec : KeyCodec) (trusted : List TrustedHostKey) (line : Text) :
    AppResult (List TrustedHostKey) :=
  let line := line.trim
  if line.isEmpty || line.head? = some '#' then .ok trusted
  else
    match line.split_whitespace with
    | hosts :: algorithm :: public_key_base64 :: _ =>
        if hosts.head? = some '@' then unsupported_record
        else do
          validate_host_key_fields algorithm public_key_base64
          let fingerprint ← fingerprint_public_key codec public_key_base64
          (hosts.split ',').foldlM (push_record algorithm public_key_base64 fingerprint) trusted
    | _ => unsupported_record

def parse_trusted_keys (codec : KeyCodec) (content : Text) : AppResult (List TrustedHostKey) :=
  content.lines.foldlM (push_line codec) []

inductive TrustDecision where
  | FirstUse
  | AlreadyTrusted
  | Changed
  deriving DecidableEq, Repr

def trust_decision (trusted : List TrustedHostKey) (host_token : Text)
    (candidate : HostKeyCandidate) : TrustDecision :=
  let records := trusted.filter fun record =>
    record.host_token = host_token && record.algorithm = candidate.algorithm
  if records.isEmpty then .FirstUse
  else if records.any fun record => record.algorithm = candidate.algorithm &&
      record.public_key_base64 = candidate.public_key_base64 &&
        record.sha256_fingerprint = candidate.sha256_fingerprint then
    .AlreadyTrusted
  else .Changed

/-! ### The file -/

/-- The file with its text, or none when it is missing. -/
abbrev KnownHostsFile := Option Text

def byte_limit_error : AppError :=
  .State "known_hosts exceeds the 8388608-byte safety limit".toList

def read_known_hosts : KnownHostsFile → AppResult Text
  | none => .error (.Io "No such file or directory".toList)
  | some content => if content.len > MAX_KNOWN_HOSTS_BYTES then .error byte_limit_error else .ok content

/-- How writing a temporary and replacing the file with it ends. -/
inductive Replacement where
  | replaced
  /-- The file was replaced; that its directory could not be synced is an
      error. -/
  | unsynced (error : AppError)
  /-- Nothing was replaced. -/
  | kept (error : AppError)
  /-- The file was removed and the temporary did not take its place. -/
  | lost (error : AppError)
  deriving DecidableEq, Repr

def atomic_write_text (replacement : Replacement) (file : KnownHostsFile) (content : Text) :
    KnownHostsFile × AppResult Unit :=
  if content.len > MAX_KNOWN_HOSTS_BYTES then (file, .error byte_limit_error)
  else
    match replacement with
    | .replaced => (some content, .ok ())
    | .unsynced error => (some content, .error error)
    | .kept error => (file, .error error)
    | .lost error => (none, .error error)

/-! ### Accepting a scanned key -/

def changed_host_key_error : AppError :=
  .Process "SSH host key changed; remove the existing trusted key explicitly before accepting a replacement".toList

/-- The checks of `accept_host_key` before it looks at the file; the token of
    the host. -/
def check_candidate (codec : KeyCodec) (host : HostProfile) (candidate : HostKeyCandidate) :
    AppResult Text := do
  validate_host_key_fields candidate.algorithm candidate.public_key_base64
  let fingerprint ← fingerprint_public_key codec candidate.public_key_base64
  if fingerprint ≠ candidate.sha256_fingerprint then
    .error (.Validation "host-key candidate fingerprint does not match its public key".toList)
  else
    let token := known_hosts_host_token host.hostname host.port
    if candidate.host_token ≠ token then
      .error (.Validation "host-key candidate does not belong to the selected host".toList)
    else .ok token

/-- Whether a candidate is trusted already; a changed key is an error. -/
def look_up_candidate (codec : KeyCodec) (file : KnownHostsFile) (token : Text)
    (candidate : HostKeyCandidate) : AppResult (Option Text) := do
  let existing ← read_known_hosts file
  let trusted ← parse_trusted_keys codec existing
  match trust_decision trusted token candidate with
  | .AlreadyTrusted => .ok none
  | .Changed => .error changed_host_key_error
  | .FirstUse => .ok (some existing)

/-- `accept_host_key` until it releases the lock for the scan: true when the
    call has returned. -/
def accept_host_key_look (codec : KeyCodec) (file : KnownHostsFile) (host : HostProfile)
    (candidate : HostKeyCandidate) : AppResult Bool := do
  let token ← check_candidate codec host candidate
  let first_use ← look_up_candidate codec file token candidate
  .ok first_use.isNone

/-- The text with the candidate's record in place of those of its token and
    algorithm. -/
def with_candidate (existing token : Text) (candidate : HostKeyCandidate) : Text :=
  let kept := existing.lines.filter fun line =>
    !line_matches_host_algorithm line token candidate.algorithm
  let record := token ++ ' ' :: candidate.algorithm ++ ' ' :: candidate.public_key_base64
  Text.join '\n' (kept ++ [record]) ++ ['\n']

/-- `accept_host_key` from the scan on. -/
def accept_host_key_commit (codec : KeyCodec) (file : KnownHostsFile) (host : HostProfile)
    (candidate : HostKeyCandidate) (current : AppResult (List HostKeyCandidate))
    (replacement : Replacement) : KnownHostsFile × AppResult Unit :=
  let prepared : AppResult (Option Text × Text) := do
    let token ← check_candidate codec host candidate
    let current ← current
    if !current.any fun item => item.algorithm = candidate.algorithm &&
        item.public_key_base64 = candidate.public_key_base64 &&
          item.sha256_fingerprint = candidate.sha256_fingerprint then
      .error (.Process "host key changed between scan and acceptance; scan again and verify the new fingerprint".toList)
    else do
      let first_use ← look_up_candidate codec file token candidate
      .ok (first_use, token)
  match prepared with
  | .error error => (file, .error error)
  | .ok (none, _) => (file, .ok ())
  | .ok (some existing, token) =>
      atomic_write_text replacement file (with_candidate existing token candidate)

/-! ### Seeding from a local known_hosts -/

inductive LocalKnownHostsLookup where
  | Records (records : List TrustedHostKey) (warnings : List Text)
  | Revoked (warning : Text)
  | Unsupported (warning : Text)
  | Unavailable (warning : Text)
  deriving DecidableEq, Repr

/-- What a record of the endpoint with a marker makes of a lookup. -/
def marked_lookup (marker token : Text) : LocalKnownHostsLookup :=
  if marker = "@revoked".toList then
    .Revoked ("local known_hosts marks ".toList ++ token ++
      " as @revoked; RemoteDeck did not import trust".toList)
  else if marker = "@cert-authority".toList then
    .Unsupported ("local known_hosts uses @cert-authority for ".toList ++ token ++
      "; RemoteDeck did not import unsupported certificate-authority trust".toList)
  else
    .Unsupported ("local known_hosts uses unsupported marker ".toList ++ marker ++ " for ".toList ++
      token ++ "; RemoteDeck did not import trust".toList)

def is_hashed_known_hosts_host_token (host : Text) : Bool :=
  match Text.strip_leading host "|1|".toList with
  | none => false
  | some parts =>
      match parts.split '|' with
      | [salt, digest] => !salt.isEmpty && !digest.isEmpty
      | _ => false

def source_hosts_match_exact_endpoint (hosts token : Text) : Bool :=
  (hosts.split ',').any fun host =>
    host = token || host.eq_ignore_ascii_case token || is_hashed_known_hosts_host_token host

/-- What a line that `ssh-keygen -F` printed adds to a lookup. -/
def lookup_line (codec : KeyCodec) (token : Text) (records : List TrustedHostKey)
    (warnings : List Text) (line : Text) : AppResult LocalKnownHostsLookup :=
  let line := line.trim
  if line.isEmpty || line.head? = some '#' then .ok (.Records records warnings)
  else
    match line.split_whitespace with
    | [] => .error (.Process "ssh-keygen returned an incomplete known_hosts record".toList)
    | first :: fields =>
        if first.head? = some '@' then
          if fields.length < 3 then
            .error (.Process "ssh-keygen returned an incomplete marked known_hosts record".toList)
          else .ok (marked_lookup first token)
        else
          match fields with
          | algorithm :: public_key_base64 :: _ =>
              if !source_hosts_match_exact_endpoint first token then
                .ok (.Records records (warnings ++
                  ["ignored a local known_hosts record for ".toList ++ token ++
                    " because it is not an exact endpoint record".toList]))
              else do
                validate_host_key_fields algorithm public_key_base64
                let fingerprint ← fingerprint_public_key codec public_key_base64
                .ok (.Records (records ++
                  [{ host_token := token
                     algorithm := algorithm
                     public_key_base64 := public_key_base64
                     sha256_fingerprint := fingerprint }]) warnings)
          | _ => .error (.Process "ssh-keygen returned an incomplete known_hosts record".toList)

/-- The lines of a lookup; the first that is marked ends it. -/
def lookup_lines (codec : KeyCodec) (token : Text) (records : List TrustedHostKey)
    (warnings : List Text) : List Text → AppResult LocalKnownHostsLookup
  | [] => .ok (.Records records warnings)
  | line :: lines => do
      let found ← lookup_line codec token records warnings line
      match found with
      | .Records records warnings => lookup_lines codec token records warnings lines
      | marked => .ok marked

def parse_local_known_hosts_lookup (codec : KeyCodec) (output token : Text) :
    AppResult LocalKnownHostsLookup :=
  lookup_lines codec token [] [] output.lines

/-- What looking at one source file showed: a record marked for the endpoint,
    no match, or the records that `ssh-keygen` printed. -/
inductive SourceReport where
  | marked (marker : Text)
  | no_match
  | printed (output : Text)
  deriving DecidableEq, Repr

def lookup_local_known_hosts_source (codec : KeyCodec) (token : Text) :
    SourceReport → AppResult LocalKnownHostsLookup
  | .marked marker => .ok (marked_lookup marker token)
  | .no_match => .ok (.Records [] [])
  | .printed output => parse_local_known_hosts_lookup codec output token

/-- Append the records that were not found before; none when there are too
    many. -/
def merge_records (records : List TrustedHostKey) :
    List TrustedHostKey → Option (List TrustedHostKey)
  | [] => some records
  | record :: found =>
      if records.any fun seen => seen.algorithm = record.algorithm &&
          seen.public_key_base64 = record.public_key_base64 then
        merge_records records found
      else if records.length ≥ MAX_KNOWN_HOST_RECORDS then none
      else merge_records (records ++ [record]) found

/-- The records of the sources, each once.  A source is its path and what
    looking at it showed. -/
def lookup_local_known_hosts_records (codec : KeyCodec) (token : Text)
    (records : List TrustedHostKey) (warnings : List Text) :
    List (Text × AppResult SourceReport) → LocalKnownHostsLookup
  | [] => .Records records warnings
  | (path, report) :: sources =>
      match report >>= lookup_local_known_hosts_source codec token with
      | .ok (.Records found source_warnings) =>
          match merge_records records found with
          | none => .Records [] (warnings ++ source_warnings ++
              ["local known_hosts matches for ".toList ++ token ++
                " exceed 4096 records; no records were imported".toList])
          | some records =>
              lookup_local_known_hosts_records codec token records (warnings ++ source_warnings)
                sources
      | .ok marked => marked
      | .error error => .Unavailable ("could not read local known_hosts source ".toList ++ path ++
          " for ".toList ++ token ++ ": ".toList ++ error.to_string)

inductive LocalKnownHostsSeedSkipReason where
  | ExistingAppTrust
  | NoLocalMatch
  | RevokedLocalRecord
  | UnsupportedLocalRecord
  | NoUsableSource
  deriving DecidableEq, Repr

structure EndpointSeedOutcome where
  imported_records : Nat
  skipped_reason : Option LocalKnownHostsSeedSkipReason
  warnings : List Text
  deriving DecidableEq, Repr

def EndpointSeedOutcome.skipped (reason : LocalKnownHostsSeedSkipReason) (warnings : List Text) :
    EndpointSeedOutcome where
  imported_records := 0
  skipped_reason := some reason
  warnings := warnings

def seed_line (token : Text) (record : TrustedHostKey) : Text :=
  token ++ ' ' :: record.algorithm ++ ' ' :: record.public_key_base64

/-- The text with the records at its end. -/
def with_records (existing token : Text) (records : List TrustedHostKey) : Text :=
  let updated := if existing ≠ [] && existing.getLast? ≠ some '\n' then existing ++ ['\n'] else existing
  records.foldl (fun updated record => updated ++ seed_line token record ++ ['\n']) updated

def validate_seed_records : List TrustedHostKey → AppResult Unit
  | [] => .ok ()
  | record :: records => do
      validate_host_key_fields record.algorithm record.public_key_base64
      validate_seed_records records

def commit_local_known_hosts_records (codec : KeyCodec) (file : KnownHostsFile) (token : Text)
    (records : List TrustedHostKey) (warnings : List Text) (replacement : Replacement) :
    KnownHostsFile × AppResult EndpointSeedOutcome :=
  let prepared : AppResult (Option Text) := do
    let existing ← read_known_hosts file
    let trusted ← parse_trusted_keys codec existing
    if trusted.any fun record => record.host_token = token then .ok none
    else if trusted.length + records.length > MAX_KNOWN_HOST_RECORDS then too_many_records
    else do
      validate_seed_records records
      .ok (some (with_records existing token records))
  match prepared with
  | .error error => (file, .error error)
  | .ok none => (file, .ok (.skipped .ExistingAppTrust warnings))
  | .ok (some updated) =>
      match atomic_write_text replacement file updated with
      | (file, .error error) => (file, .error error)
      | (file, .ok ()) =>
          (file, .ok
            { imported_records := records.length
              skipped_reason := none
              warnings := warnings })

/-- Seeding of one endpoint, from the lookup of its token on. -/
def seed_trusted_keys (codec : KeyCodec) (file : KnownHostsFile) (host : HostProfile)
    (sources : List (Text × AppResult SourceReport)) (replacement : Replacement) :
    KnownHostsFile × AppResult EndpointSeedOutcome :=
  let token := known_hosts_host_token host.hostname host.port
  match validate_host_token token with
  | .error error => (file, .error error)
  | .ok () =>
      match lookup_local_known_hosts_records codec token [] [] sources with
      | .Records [] warnings => (file, .ok (.skipped .NoLocalMatch warnings))
      | .Records records warnings =>
          commit_local_known_hosts_records codec file token records warnings replacement
      | .Revoked warning => (file, .ok (.skipped .RevokedLocalRecord [warning]))
      | .Unsupported warning => (file, .ok (.skipped .UnsupportedLocalRecord [warning]))
      | .Unavailable warning => (file, .ok (.skipped .NoUsableSource [warning]))

/-! ### Removing -/

/-- What `remove_trusted_record` leaves of a line, and whether it removed
    anything from it. -/
def remove_from_line (host_token algorithm public_key_base64 line : Text) : List Text × Bool :=
  match line.split_whitespace with
  | hosts :: line_algorithm :: line_key :: rest =>
      if line_algorithm ≠ algorithm || line_key ≠ public_key_base64 ||
          !(hosts.split ',').any fun host => host = host_token then
        ([line], false)
      else
        let remaining_hosts := (hosts.split ',').filter fun host => host ≠ host_token
        if remaining_hosts.isEmpty then ([], true)
        else
          ([Text.join ',' remaining_hosts ++ ' ' ::
              Text.join ' ' (line_algorithm :: line_key :: rest)], true)
  | _ => ([line], false)

def remove_trusted_record (codec : KeyCodec) (content host_token algorithm public_key_base64 : Text) :
    AppResult (Text × Bool) := do
  let _ ← parse_trusted_keys codec content
  let edited := content.lines.map (remove_from_line host_token algorithm public_key_base64)
  let updated := Text.join '\n' (edited.flatMap Prod.fst)
  .ok (if updated.isEmpty then updated else updated ++ ['\n'], edited.any Prod.snd)

def remove_trusted_key_record (codec : KeyCodec) (file : KnownHostsFile)
    (host_token algorithm public_key_base64 : Text) (replacement : Replacement) :
    KnownHostsFile × AppResult Bool :=
  let prepared : AppResult (Text × Bool) := do
    validate_host_token host_token
    validate_host_key_fields algorithm public_key_base64
    let existing ← read_known_hosts file
    remove_trusted_record codec existing host_token algorithm public_key_base64
  match prepared with
  | .error error => (file, .error error)
  | .ok (_, false) => (file, .ok false)
  | .ok (content, true) =>
      match atomic_write_text replacement file content with
      | (file, .error error) => (file, .error error)
      | (file, .ok ()) => (file, .ok true)

end Ssh
