import RemoteDeck.Sftp.Commit

/-! # Batch lines and listings

    What `sftp.rs` writes to the `sftp` program and what it reads of its
    answers: a path is quoted as one argument of a batch line, and the name of
    an entry is what follows eight columns of a long listing.

    This file defines:
    - `batch_command`, with `batch_quote`
    - `parse_long_listing`, with `take_fields` and `listing_file_name`
    - `list_entries`: the entries of `SftpService::list`
-/

namespace Sftp

def MAX_BATCH_BYTES : Nat := 1048576
def MAX_REMOTE_ENTRIES : Nat := 10000
def MAX_TREE_PATH_BYTES : Nat := 8 * 1024 * 1024

/-! ### Batch lines -/

/-- The characters that `batch_quote` escapes. -/
def is_escaped (c : Char) : Bool := ['\\', '"', '*', '?', '[', ']'].contains c

/-- The characters that no path may contain. -/
def is_line_break (c : Char) : Bool := [Char.ofNat 0, '\r', '\n'].contains c

def batch_quote (value : Text) : AppResult Text :=
  if value.isEmpty || value.any is_line_break || 32767 < value.len then
    .error (.Validation "SFTP batch path is invalid".toList)
  else
    .ok ('"' :: value.flatMap (fun c => if is_escaped c then ['\\', c] else [c]) ++ ['"'])

/-- The arguments of a batch line, each after a blank. -/
def batch_arguments : List Text → AppResult Text
  | [] => .ok []
  | argument :: rest => do
      let quoted ← batch_quote argument
      let more ← batch_arguments rest
      .ok (' ' :: quoted ++ more)

def batch_command (command : Text) (arguments : List Text) : AppResult Text :=
  if command.isEmpty || command.any fun c => Text.is_control c || c = ';' then
    .error (.Validation "SFTP batch command is invalid".toList)
  else do
    let quoted ← batch_arguments arguments
    .ok (command ++ quoted ++ ['\n'])

/-! ### Listings -/

/-- An entry of a listing, with the rest of what the listing says of it. -/
structure ListedEntry extends SftpEntry where
  path : Text
  name : Text
  size : Nat
  permissions : Text
  deriving DecidableEq, Repr

/-- `take_fields`, after the white space before a field. -/
def take_fields_after : Nat → Text → Option (List Text × Text)
  | 0, remaining => if remaining.isEmpty then none else some ([], remaining)
  | count + 1, remaining =>
      if remaining.isEmpty then none
      else do
        let field := remaining.takeWhile fun c => !Text.is_whitespace c
        let rest := remaining.dropWhile fun c => !Text.is_whitespace c
        let (fields, remainder) ← take_fields_after count (rest.dropWhile Text.is_whitespace)
        some (field :: fields, remainder)

/-- The first fields of a line, and what follows them without the white space
    in between. -/
def take_fields (value : Text) (count : Nat) : Option (List Text × Text) :=
  take_fields_after count (value.dropWhile Text.is_whitespace)

/-- `str::parse::<u64>`. -/
def parse_u64 (value : Text) : Option Nat :=
  let digits := match value with
    | '+' :: rest => rest
    | _ => value
  if digits.isEmpty || !digits.all Char.isDigit then none
  else
    let number := digits.foldl (fun n c => n * 10 + (c.toNat - '0'.toNat)) 0
    if number < 18446744073709551616 then some number else none

def entry_kind (permissions : Text) : SftpEntryKind :=
  match permissions.head? with
  | some '-' => .File
  | some 'd' => .Directory
  | some 'l' => .Symlink
  | _ => .Other

/-- A line of a listing without the white space around its columns. -/
def listing_line (raw_line : Text) : Text :=
  (raw_line.rdropWhile (· = '\r')).dropWhile Text.is_whitespace

/-- The lines that are no entries. -/
def is_skipped (line : Text) : Bool :=
  match line.head? with
  | none => true
  | some first =>
      line.starts_with "sftp>".toList || ! ['-', 'd', 'l', 'b', 'c', 'p', 's'].contains first

def listing_file_name (displayed parent : Text) : Text :=
  let leading := if parent.getLast? = some '/' then parent else parent ++ ['/']
  ((displayed.strip_leading leading).getD displayed).rtakeWhile (· ≠ '/')

/-- What a line shows after its columns, without the target of a symbolic link. -/
def shown_name (kind : SftpEntryKind) (remainder : Text) : Text :=
  if kind = .Symlink then
    match remainder.rsplit_once " -> ".toList with
    | some (name, _) => name
    | none => remainder
  else remainder

/-- What the columns of a line say. -/
structure ListingRow where
  permissions : Text
  kind : SftpEntryKind
  size : Nat
  displayed_name : Text
  deriving DecidableEq, Repr

/-- The columns of a line, and the checks of them. -/
def parse_row (line : Text) : AppResult ListingRow :=
  match take_fields line 8 with
  | none => .error (.Process ("could not parse SFTP listing line: ".toList ++ line))
  | some (fields, remainder) => do
      let permissions : Text := fields[0]?.getD []
      if permissions.len < 10 then
        .error (.Process ("invalid SFTP permissions field: ".toList ++ permissions))
      else
        let kind := entry_kind permissions
        let column : Text := fields[4]?.getD []
        let size ← (parse_u64 column).ok_or (.Process ("invalid SFTP size: ".toList ++ column))
        let displayed_name := shown_name kind remainder
        if displayed_name.isEmpty || displayed_name.any is_line_break then
          .error (.Process "SFTP returned an invalid file name".toList)
        else .ok { permissions, kind, size, displayed_name }

/-- `parse_long_listing`, over the lines that are left, with how many entries
    and bytes there are already. -/
def parse_lines (parent : Text) : List Text → Nat → Nat → AppResult (List ListedEntry)
  | [], _, _ => .ok []
  | raw_line :: lines, count, retained_bytes =>
      let line := listing_line raw_line
      if is_skipped line then parse_lines parent lines count retained_bytes
      else do
        let row ← parse_row line
        if MAX_REMOTE_ENTRIES ≤ count then
          .error (.Validation ("SFTP listing exceeds ".toList ++ MAX_REMOTE_ENTRIES.text ++
            " entries".toList))
        else
          let name := listing_file_name row.displayed_name parent
          let path := remote_join parent name
          let retained_bytes := retained_bytes + name.len + path.len + row.permissions.len
          if MAX_TREE_PATH_BYTES < retained_bytes then
            .error (.Validation "SFTP listing exceeds the retained path budget".toList)
          else
            let rest ← parse_lines parent lines (count + 1) retained_bytes
            let entry : ListedEntry :=
              { kind := row.kind, path, name, size := row.size, permissions := row.permissions }
            .ok (entry :: rest)

def parse_long_listing (output parent : Text) : AppResult (List ListedEntry) :=
  parse_lines parent output.lines 0 0

/-! ### `SftpService::list` -/

def validate_remote_path (path : Text) : AppResult Unit :=
  if path.isEmpty || 4096 < path.len || path.head? = some '-' || path.any is_line_break then
    .error (.Validation "remote path is invalid".toList)
  else .ok ()

def entry_kind_order : SftpEntryKind → Nat
  | .Directory => 0
  | .File => 1
  | .Symlink => 2
  | .Other => 3

structure SftpListRequest where
  path : Text
  show_hidden : Bool
  deriving DecidableEq, Repr

section
variable (to_lowercase : Text → Text)

/-- The order of a listing: by kind, then by name in lower case, then by name. -/
def entry_le (left right : ListedEntry) : Bool :=
  let left_kind := entry_kind_order left.kind
  let right_kind := entry_kind_order right.kind
  let left_name := to_lowercase left.name
  let right_name := to_lowercase right.name
  left_kind < right_kind || left_kind = right_kind &&
    (!right_name.le left_name || left_name = right_name && left.name.le right.name)

/-- The entries that `list` returns, given what the program answers. -/
def list_entries (request : SftpListRequest) (answer : AppResult Text) :
    AppResult (List ListedEntry) := do
  validate_remote_path request.path
  let _script ← batch_command "ls -lan".toList [request.path]
  let output ← answer
  let entries ← parse_long_listing output request.path
  let entries := entries.filter fun entry => entry.name ≠ ".".toList && entry.name ≠ "..".toList
  let entries :=
    if request.show_hidden then entries
    else entries.filter fun entry => !entry.name.starts_with ".".toList
  .ok (entries.mergeSort (entry_le to_lowercase))

end

-- A directory, a symbolic link and a line that is no entry.
example : (parse_long_listing
    ("sftp> ls\ndrwxr-xr-x 2 0 0 4096 Aug 1 12:34 a b\n".toList ++
      "lrwxrwxrwx 1 0 0 6 Jul 30 2026 now -> to\n".toList) "/t".toList).map
    (List.map fun entry => (entry.name, entry.kind, entry.size)) =
    .ok [("a b".toList, .Directory, 4096), ("now".toList, .Symlink, 6)] := by decide +kernel

end Sftp
