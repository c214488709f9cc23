import RemoteDeck.Keys.Verify
import RemoteDeck.Lib.Files
import RemoteDeck.Lib.Machine

/-! # Generating a key pair

    `generate_key` of `key_service.rs`: `ssh-keygen` writes a pair in a
    workspace, the pair is read back, and its two files are moved to their
    destinations, the public key first.

    This file defines:
    - `System`: the paths of the system and the programs that are run
    - `Phase`, `Point`, `Keygen`: where a call and its `ssh-keygen` are
    - `advance`: the next operation of a call, one access to the files at a time
    - `machine`: any number of calls that take turns, with other processes
      that make files

    An operation may fail at every point, and a call may stop for good.  A
    call that has stopped waiting for its `ssh-keygen` may have failed to kill
    it, and then it goes on writing.
-/

namespace Keys

open Files (Path Node)

abbrev Bytes := List UInt8

abbrev Tree := Files.Tree Text Bytes

/-! ### The system -/

def MAX_KEYGEN_OUTPUT_BYTES : Nat := 64 * 1024
def WORKSPACE_ATTEMPTS : Nat := 16

inductive KeyFile where
  | private_key
  | public_key
  deriving DecidableEq

/-- What a child answers when it ends. -/
structure ChildAnswer where
  success : Bool
  stdout : Bytes
  stderr : Bytes

structure OwnedProcessOutput where
  success : Bool
  stdout : Bytes
  truncated : Bool

/-- `is_absolute`, `file_name` and `parent` are those of `std::path`, and
    `resolve` is where the system finds a path. -/
structure System where
  windows : Bool
  is_absolute : Text → Bool
  file_name : Text → Option Text
  parent : Text → Option Text
  resolve : Text → Path Text
  display : Path Text → Text
  /-- The names of `Uuid::new_v4`, in the order in which they are drawn. -/
  uuid : Nat → Text
  /-- `ssh-keygen -y` on a private key. -/
  derive_public_key : Bytes → ChildAnswer
  /-- The hash, among what else a call finds. -/
  world : World

/-- The comment has no part in what is modelled. -/
structure KeyGenerateRequest where
  private_key_path : Text

def drain_output (answer : ChildAnswer) : OwnedProcessOutput where
  success := answer.success
  stdout := answer.stdout.take MAX_KEYGEN_OUTPUT_BYTES
  truncated := MAX_KEYGEN_OUTPUT_BYTES < answer.stdout.length ||
    MAX_KEYGEN_OUTPUT_BYTES < answer.stderr.length

def same_public_key (left right : Text) : Bool :=
  match parse_authorized_key left, parse_authorized_key right with
  | some left, some right =>
      left.algorithm = right.algorithm && left.public_key_base64 = right.public_key_base64
  | _, _ => false

structure KeyGenerationWorkspace where
  directory : Path Text
  deriving DecidableEq

def KeyGenerationWorkspace.file (workspace : KeyGenerationWorkspace) : KeyFile → Path Text
  | .private_key => workspace.directory.join "key".toList
  | .public_key => workspace.directory.join "key.pub".toList

namespace System

variable (system : System) (request : KeyGenerateRequest)

def validate_key_destination (value : Text) : AppResult Unit := do
  validate_local_path value
  if !system.is_absolute value || (system.file_name value).isNone ||
      (system.parent value).elim true List.isEmpty then
    .error (.Validation "private key destination must be an absolute file path".toList)
  else .ok ()

/-- The workspace that is tried with a name. -/
def workspace (parent : Text) (drawn : Nat) : KeyGenerationWorkspace :=
  ⟨(system.resolve parent).join (".remotedeck-keygen-".toList ++ system.uuid drawn)⟩

def destination_path : KeyFile → Text
  | .private_key => request.private_key_path
  | .public_key => public_key_path request.private_key_path

def destination (file : KeyFile) : Path Text := system.resolve (destination_path request file)

/-- What is read of the public key. -/
def read_public_key (workspace : KeyGenerationWorkspace) (bytes : Bytes) : AppResult Text := do
  let content ← { system.world with read := fun _ => .ok bytes }.read_bounded_utf8
    (system.display (workspace.file .public_key)) MAX_PUBLIC_KEY_FILE_BYTES
  (canonical_ed25519_public_key content).mapError fun e => .Process e.to_string

/-- The comparison of the public key with the one that is derived from the
    private key; it ends with the fingerprint. -/
def compare_derived (canonical : Text) (derived : OwnedProcessOutput) : AppResult Text := do
  if derived.truncated then
    .error (.Process "ssh-keygen verification output exceeded 64 KiB".toList)
  else if !derived.success then
    .error (.Process "ssh-keygen could not verify the generated private key".toList)
  else do
    let derived ← (Text.from_utf8 derived.stdout).ok_or
      (.Process "ssh-keygen returned non-UTF-8 output".toList)
    let derived ← (canonical_ed25519_public_key derived).mapError fun e => .Process e.to_string
    if !same_public_key canonical derived then
      .error (.Process "generated private and public keys do not match".toList)
    else (system.world.ed25519_sha256_fingerprint canonical).mapError fun e => .Process e.to_string

def generation_result (fingerprint : Text) : KeyOperationResult where
  success := true
  message := ("已生成 Ed25519 密钥。该自动化流程不会接收或保存口令；" ++
    "如需加密，请在终端中运行 ssh-keygen -p。").toList
  private_key_path := some request.private_key_path
  public_key_path := some (public_key_path request.private_key_path)
  fingerprint := some fingerprint

end System

/-! ### Calls -/

abbrev Written := KeyFile → Option Bytes

/-- The `ssh-keygen` of a call, with what it has written last. -/
inductive Keygen where
  | absent
  | running (workspace : KeyGenerationWorkspace) (written : Written)
  /-- The text of a failed status. -/
  | ended (failure : Option Text) (written : Written)

/-- The next operation of a call that has a workspace. -/
inductive Point where
  | find_keygen
  | spawn
  | generate
  | read_public
  | verify (canonical : Text)
  | require_regular_file (file : KeyFile) (fingerprint : Text)
  | check_destination (file : KeyFile) (fingerprint : Text)
  | move (file : KeyFile) (fingerprint : Text)
  | inspect_failure (file : KeyFile) (error : AppError)

/-- What is removed when a workspace is dropped. -/
inductive Removal where
  | file (file : KeyFile)
  | directory

inductive Phase where
  | requested
  | check_private
  | check_public
  | create_parent (parent : Text)
  | reserve (parent : Text) (attempt : Nat)
  | holding (workspace : KeyGenerationWorkspace) (point : Point)
  | dropping (workspace : KeyGenerationWorkspace) (removal : Removal)
      (result : AppResult KeyOperationResult)
  | returned (result : AppResult KeyOperationResult)

/-- A call, with the files that it has moved to their destinations. -/
structure Call where
  phase : Phase
  keygen : Keygen
  published : KeyFile → Bool

namespace Call

def initial : Call where
  phase := .requested
  keygen := .absent
  published := fun _ => false

def written (call : Call) : Written :=
  match call.keygen with
  | .absent => fun _ => none
  | .running _ written => written
  | .ended _ written => written

/-- The pair of an `ssh-keygen` that has succeeded. -/
def generated (call : Call) : Written :=
  match call.keygen with
  | .ended none written => written
  | _ => fun _ => none

def goto (call : Call) (phase : Phase) : Call := { call with phase := phase }

def publish (call : Call) (file : KeyFile) : Call :=
  { call with published := Function.update call.published file true }

/-- Return once the workspace is dropped. -/
def finish (call : Call) (workspace : KeyGenerationWorkspace)
    (result : AppResult KeyOperationResult) : Call :=
  call.goto (.dropping workspace (.file .private_key) result)

end Call

/-! ### Operations -/

section Operations

variable (system : System) (request : KeyGenerateRequest)

/-- `path_occupied`; a node that cannot be inspected counts as none. -/
def path_occupied (tree : Tree) (path : Path Text) (fault : Option AppError) : Bool :=
  fault.isNone && (tree.lookup path).isSome

/-- The error of `commit_key_pair` for an error of one of its moves. -/
def commit_error (file : KeyFile) (error : AppError) : AppError :=
  match file with
  | .public_key => error
  | .private_key =>
      .Process ("private-key commit failed after the public key was safely committed at ".toList ++
        public_key_path request.private_key_path ++
        "; the public key was retained to avoid deleting a path another process could have replaced: ".toList ++
        error.to_string)

def refusal (file : KeyFile) : AppError :=
  commit_error request file (.Validation
    ("refusing to overwrite existing path ".toList ++ System.destination_path request file))

/-- Where a call goes when a file is at its destination. -/
def after_move (call : Call) (workspace : KeyGenerationWorkspace) (fingerprint : Text) :
    KeyFile → Call
  | .public_key => call.goto (.holding workspace (.check_destination .private_key fingerprint))
  | .private_key => call.finish workspace (.ok (System.generation_result request fingerprint))

/-- The next operation of a call that has no workspace yet. -/
def enter (drawn : Nat) (tree : Tree) (call : Call) (fault : Option AppError) :
    Option (Nat × Tree × Call) :=
  match call.phase, fault with
  | .requested, none =>
      match system.validate_key_destination request.private_key_path with
      | .error e => some (drawn, tree, call.goto (.returned (.error e)))
      | .ok _ => some (drawn, tree, call.goto .check_private)
  | .check_private, fault =>
      if path_occupied tree (system.destination request .private_key) fault then
        some (drawn, tree, call.goto (.returned (.error
          (.Validation "refusing to overwrite an existing key file".toList))))
      else some (drawn, tree, call.goto .check_public)
  | .check_public, fault =>
      if path_occupied tree (system.destination request .public_key) fault then
        some (drawn, tree, call.goto (.returned (.error
          (.Validation "refusing to overwrite an existing key file".toList))))
      else
        match system.parent request.private_key_path with
        | none =>
            some (drawn, tree, call.goto (.returned (.error
              (.Validation "private key path must have an absolute parent".toList))))
        | some parent => some (drawn, tree, call.goto (.create_parent parent))
  | .create_parent _, some e => some (drawn, tree, call.goto (.returned (.error e)))
  | .create_parent parent, none =>
      -- one of the missing directories at a time
      if tree.lookup (system.resolve parent) = some .directory then
        some (drawn, tree, call.goto (.reserve parent 0))
      else
        (Files.missing_directory tree (system.resolve parent)).bind fun path =>
          (Files.place tree path .directory).map fun tree => (drawn, tree, call)
  | .reserve _ _, some e => some (drawn, tree, call.goto (.returned (.error e)))
  | .reserve parent attempt, none =>
      if attempt = WORKSPACE_ATTEMPTS then
        some (drawn, tree, call.goto (.returned (.error
          (.State "could not reserve an app-owned key generation workspace".toList))))
      else if (tree.lookup (system.workspace parent drawn).directory).isSome then
        some (drawn + 1, tree, call.goto (.reserve parent (attempt + 1)))
      else
        (Files.place tree (system.workspace parent drawn).directory .directory).map fun tree =>
          (drawn + 1, tree, call.goto (.holding (system.workspace parent drawn) .find_keygen))
  | _, _ => none

/-- The next operation of a call in its workspace. -/
def hold (tree : Tree) (call : Call) (workspace : KeyGenerationWorkspace) :
    Point → Option AppError → Option (Tree × Call)
  | .find_keygen, none => some (tree, call.goto (.holding workspace .spawn))
  | .find_keygen, some _ =>
      some (tree, call.finish workspace (.error (.MissingExecutable "OpenSSH ssh-keygen.exe".toList)))
  | .spawn, none =>
      some (tree, { call with
        phase := .holding workspace .generate
        keygen := .running workspace fun _ => none })
  | .generate, none =>
      match call.keygen with
      | .ended none _ => some (tree, call.goto (.holding workspace .read_public))
      | .ended (some status) _ =>
          some (tree, call.finish workspace (.error
            (.Process ("ssh-keygen failed with ".toList ++ status))))
      | _ => none
  | .read_public, none =>
      match tree.lookup (workspace.file .public_key) with
      | some (.file bytes) =>
          match system.read_public_key workspace bytes with
          | .error e => some (tree, call.finish workspace (.error e))
          | .ok canonical => some (tree, call.goto (.holding workspace (.verify canonical)))
      | _ => none
  | .verify canonical, none =>
      match tree.lookup (workspace.file .private_key) with
      | some (.file bytes) =>
          match system.compare_derived canonical (drain_output (system.derive_public_key bytes)) with
          | .error e => some (tree, call.finish workspace (.error e))
          | .ok fingerprint =>
              some (tree, call.goto (.holding workspace (.require_regular_file .private_key fingerprint)))
      | _ => none
  | .require_regular_file file fingerprint, none =>
      match tree.lookup (workspace.file file), file with
      | some (.file _), .private_key =>
          some (tree, call.goto (.holding workspace (.require_regular_file .public_key fingerprint)))
      | some (.file _), .public_key =>
          some (tree, call.goto (.holding workspace (.check_destination .public_key fingerprint)))
      | some _, file =>
          some (tree, call.finish workspace (.error (.Validation
            ("generated key path is not a regular file: ".toList ++
              system.display (workspace.file file)))))
      | none, _ => none
  | .check_destination file fingerprint, fault =>
      if path_occupied tree (system.destination request file) fault then
        some (tree, call.finish workspace (.error (refusal request file)))
      else some (tree, call.goto (.holding workspace (.move file fingerprint)))
  | .move file fingerprint, none =>
      -- a link, or a move that does not replace
      (tree.lookup (workspace.file file)).bind fun node =>
        (Files.place tree (system.destination request file) node).map fun moved =>
          (if system.windows then Files.unlink moved (workspace.file file) else moved,
            after_move request (call.publish file) workspace fingerprint file)
  | .move file _, some e => some (tree, call.goto (.holding workspace (.inspect_failure file e)))
  | .inspect_failure file e, fault =>
      if path_occupied tree (system.destination request file) fault then
        some (tree, call.finish workspace (.error (refusal request file)))
      else some (tree, call.finish workspace (.error (commit_error request file e)))
  | _, some e => some (tree, call.finish workspace (.error e))

/-- A removal that fails is skipped. -/
def drop_workspace (tree : Tree) (call : Call) (workspace : KeyGenerationWorkspace)
    (result : AppResult KeyOperationResult) (fault : Option AppError) : Removal → Tree × Call
  | .file file =>
      (if fault.isSome then tree else Files.unlink tree (workspace.file file),
        call.goto (.dropping workspace
          (match file with
            | .private_key => .file .public_key
            | .public_key => .directory)
          result))
  | .directory =>
      (if fault.isSome then tree else Files.remove_directory tree workspace.directory,
        call.goto (.returned result))

/-- The next operation of a call, which may fail with an error. -/
def advance (drawn : Nat) (tree : Tree) (call : Call) (fault : Option AppError) :
    Option (Nat × Tree × Call) :=
  match call.phase with
  | .holding workspace point =>
      (hold system request tree call workspace point fault).map fun next => (drawn, next)
  | .dropping workspace removal result =>
      some (drawn, drop_workspace tree call workspace result fault removal)
  | .returned _ => none
  | _ => enter system request drawn tree call fault

end Operations

/-- What `ssh-keygen` does: it writes in its workspace, and a success has
    written both files. -/
inductive Action where
  | writes (file : KeyFile) (contents : Bytes)
  | ends (failure : Option Text)

def Keygen.act (tree : Tree) : Keygen → Action → Option (Tree × Keygen)
  | .running workspace written, .writes file contents =>
      (Files.write tree (workspace.file file) contents).map fun tree =>
        (tree, .running workspace (Function.update written file (some contents)))
  | .running _ written, .ends failure =>
      if failure.isSome ∨ (written .private_key).isSome ∧ (written .public_key).isSome then
        some (tree, .ended failure written)
      else none
  | _, _ => none

/-! ### Many calls -/

section Machine

variable {ι : Type} [DecidableEq ι]

structure State (ι : Type) where
  tree : Tree
  drawn : Nat
  calls : ι → Call

inductive Label (ι : Type) where
  | call (i : ι) (fault : Option AppError)
  | keygen (i : ι) (action : Action)
  /-- Another process makes a file, a directory or another node. -/
  | creates (path : Path Text) (node : Node Bytes)

def next (system : System) (request : ι → KeyGenerateRequest) (s : State ι) :
    Label ι → Option (State ι)
  | .call i fault =>
      (advance system (request i) s.drawn s.tree (s.calls i) fault).map fun (drawn, tree, call) =>
        { tree := tree, drawn := drawn, calls := Function.update s.calls i call }
  | .keygen i action =>
      ((s.calls i).keygen.act s.tree action).map fun (tree, keygen) =>
        { s with
          tree := tree
          calls := Function.update s.calls i { s.calls i with keygen := keygen } }
  | .creates path node => (Files.place s.tree path node).map fun tree => { s with tree := tree }

/-- Calls on the files that are there. -/
def machine (system : System) (request : ι → KeyGenerateRequest) : Machine (State ι) (Label ι) where
  init s := Files.Rooted s.tree ∧ ∀ i, s.calls i = .initial
  next := next system request

end Machine

end Keys
