import RemoteDeck.Sftp.Listing

/-! # Recursive deletion

    `SftpService::delete_tree`.  The tree is walked with a stack: a directory
    is pushed a second time, as visited, below its children, so that it comes
    after them in the list of directories.  Only when the whole tree is known
    are the files removed, and then the directories, in batches of lines.

    What the server answers to a listing or a batch is an input.

    This file defines:
    - `Walk` with `turn`, one iteration of the loop, and `walk_tree`
    - `run_path_commands`
    - `delete_tree`
-/

namespace Sftp

def MAX_RECURSION_DEPTH : Nat := 64

/-! ### The paths that may be deleted -/

/-- How deep some components lead, or none when they lead above their start. -/
def component_depth : List Text → Nat → Option Nat
  | [], depth => some depth
  | component :: rest, depth =>
      if component.isEmpty || component = ".".toList then component_depth rest depth
      else if component = "..".toList then
        if depth = 0 then none else component_depth rest (depth - 1)
      else component_depth rest (depth + 1)

def remote_path_is_dangerous (path : Text) : Bool :=
  if path ≠ path.trim then true
  else if path.isEmpty ||
      ["/", "//", ".", "..", "~", "~/"].any (fun value => path = value.toList) then true
  else if path.head? ≠ some '/' && !path.starts_with "~/".toList then true
  else
    let suffix := (path.strip_leading "~/".toList).getD (path.dropWhile (· = '/'))
    match component_depth (suffix.split '/') 0 with
    | none => true
    | some depth => depth = 0

def validate_destructive_remote_path (path : Text) : AppResult Unit := do
  validate_remote_path path
  if remote_path_is_dangerous path then
    .error (.Validation
      "refusing a destructive operation on a remote root or ambiguous path".toList)
  else .ok ()

/-- The answers of a server: the output of each listing, and the outcome of
    each batch. -/
structure Server where
  to_lowercase : Text → Text
  listing : Nat → AppResult Text
  batch : Nat → AppResult Unit

/-! ### The walk -/

structure Pending where
  path : Text
  depth : Nat
  visited : Bool
  deriving DecidableEq, Repr

/-- What a listing of a directory has shown. -/
structure Listed where
  path : Text
  entries : List ListedEntry

/-- The variables of the loop, with the listings that were made. -/
structure Walk where
  stack : List Pending
  files : List Text
  directories : List Text
  discovered : Nat
  path_bytes : Nat
  listed : List Listed

def Walk.start (root : Text) : Walk where
  stack := [⟨root, 0, false⟩]
  files := []
  directories := []
  discovered := 1
  path_bytes := root.len
  listed := []

def Walk.exceeds (walk : Walk) : Bool :=
  MAX_REMOTE_ENTRIES < walk.discovered || MAX_TREE_PATH_BYTES < walk.path_bytes

/-- The children of a directory, each a file or one more directory to walk. -/
def add_children (depth : Nat) : List ListedEntry → Walk → AppResult Walk
  | [], walk => .ok walk
  | child :: children, walk =>
      let walk := { walk with
        discovered := walk.discovered + 1
        path_bytes := walk.path_bytes + child.path.len }
      if walk.exceeds then
        .error (.Validation "remote tree exceeds deletion safety limits".toList)
      else if child.kind = .Directory then
        add_children depth children
          { walk with stack := ⟨child.path, depth + 1, false⟩ :: walk.stack }
      else add_children depth children { walk with files := walk.files ++ [child.path] }

/-- One iteration of the loop, or none when the stack is empty. -/
def turn (server : Server) (walk : Walk) : AppResult (Option Walk) :=
  match walk.stack with
  | [] => .ok none
  | top :: stack =>
      if MAX_RECURSION_DEPTH < top.depth then
        .error (.Validation ("remote tree exceeds ".toList ++ MAX_RECURSION_DEPTH.text ++
          " levels".toList))
      else if walk.exceeds then
        .error (.Validation ("remote tree exceeds the ".toList ++ MAX_REMOTE_ENTRIES.text ++
          "-entry or ".toList ++ MAX_TREE_PATH_BYTES.text ++ "-byte path budget".toList))
      else if top.visited then
        .ok (some { walk with stack, directories := walk.directories ++ [top.path] })
      else do
        let entries ← list_entries server.to_lowercase ⟨top.path, true⟩
          (server.listing walk.listed.length)
        let walk := { walk with
          stack := { top with visited := true } :: stack
          listed := walk.listed ++ [⟨top.path, entries⟩] }
        let walk ← add_children top.depth entries.reverse walk
        .ok (some walk)

/-! ### The walk ends -/

/-- How many iterations an entry of the stack still needs, without its children. -/
def Pending.weight (pending : Pending) : Nat := if pending.visited then 1 else 2

def stack_weight : List Pending → Nat
  | [] => 0
  | top :: stack => top.weight + stack_weight stack

/-- Each entry that may still be found counts for more than two iterations. -/
def Walk.fuel (walk : Walk) : Nat :=
  3 * (MAX_REMOTE_ENTRIES + 1 - walk.discovered) + stack_weight walk.stack

theorem fuel_eq (walk : Walk) :
    walk.fuel = 3 * (MAX_REMOTE_ENTRIES + 1 - walk.discovered) + stack_weight walk.stack := rfl

theorem stack_weight_cons (top : Pending) (stack : List Pending) :
    stack_weight (top :: stack) = top.weight + stack_weight stack := rfl

theorem Pending.weight_pos (pending : Pending) : 0 < pending.weight := by
  unfold Pending.weight
  split <;> omega

theorem not_exceeds {walk : Walk} (h : ¬walk.exceeds = true) :
    walk.discovered ≤ MAX_REMOTE_ENTRIES := by
  unfold Walk.exceeds at h
  rw [Bool.or_eq_true, not_or, decide_eq_true_eq, decide_eq_true_eq] at h
  exact Nat.le_of_not_lt h.1

theorem add_children_fuel {depth : Nat} {children : List ListedEntry} {walk walk' : Walk}
    (h : add_children depth children walk = .ok walk') : walk'.fuel ≤ walk.fuel := by
  induction children generalizing walk with
  | nil => rw [← Except.ok.inj h]
  | cons child children ih =>
    unfold add_children at h
    dsimp only at h
    rw [Outcome.ite_error_eq_ok] at h
    obtain ⟨hroom, h⟩ := h
    have hbound : walk.discovered + 1 ≤ MAX_REMOTE_ENTRIES := not_exceeds hroom
    have hwalk := fuel_eq walk
    split at h
    · have hrest := ih h
      rw [fuel_eq, fuel_eq, stack_weight_cons] at hrest
      have hweight : Pending.weight ⟨child.path, depth + 1, false⟩ = 2 := rfl
      rw [hweight] at hrest
      dsimp only at hrest
      rw [fuel_eq]
      omega
    · have hrest := ih h
      rw [fuel_eq, fuel_eq] at hrest
      dsimp only at hrest
      rw [fuel_eq]
      omega

/-- What an iteration does: it moves a visited directory to the list, or it
    lists a directory and adds its children. -/
inductive TurnCase (server : Server) (walk : Walk) : Option Walk → Prop where
  | finished (hstack : walk.stack = []) : TurnCase server walk none
  | leave (path : Text) (depth : Nat) (stack : List Pending)
      (hstack : walk.stack = ⟨path, depth, true⟩ :: stack) :
      TurnCase server walk
        (some { walk with stack, directories := walk.directories ++ [path] })
  | visit (path : Text) (depth : Nat) (stack : List Pending) (entries : List ListedEntry)
      (walk' : Walk) (hstack : walk.stack = ⟨path, depth, false⟩ :: stack)
      (hroom : walk.discovered ≤ MAX_REMOTE_ENTRIES)
      (hentries : list_entries server.to_lowercase ⟨path, true⟩
        (server.listing walk.listed.length) = .ok entries)
      (hchildren : add_children depth entries.reverse { walk with
        stack := ⟨path, depth, true⟩ :: stack
        listed := walk.listed ++ [⟨path, entries⟩] } = .ok walk') :
      TurnCase server walk (some walk')

theorem turn_cases {server : Server} {walk : Walk} {next : Option Walk}
    (h : turn server walk = .ok next) : TurnCase server walk next := by
  unfold turn at h
  split at h
  · next hstack =>
    rw [← Except.ok.inj h]
    exact .finished hstack
  · next top stack hstack =>
    obtain ⟨path, depth, visited⟩ := top
    rw [Outcome.ite_error_eq_ok, Outcome.ite_error_eq_ok] at h
    obtain ⟨_, hroom, h⟩ := h
    split at h
    · next hvisited =>
      dsimp only at hvisited
      subst hvisited
      rw [← Except.ok.inj h]
      exact .leave path depth stack hstack
    · next hvisited =>
      dsimp only at hvisited
      rw [Bool.not_eq_true] at hvisited
      subst hvisited
      obtain ⟨entries, hentries, h⟩ := Outcome.bind_eq_ok.mp h
      obtain ⟨walk', hchildren, h⟩ := Outcome.bind_eq_ok.mp h
      rw [← Except.ok.inj h]
      exact .visit path depth stack entries walk' hstack (not_exceeds hroom) hentries hchildren

theorem turn_fuel {server : Server} {walk walk' : Walk} (h : turn server walk = .ok (some walk')) :
    walk'.fuel < walk.fuel := by
  have hwalk := fuel_eq walk
  cases turn_cases h with
  | leave path depth stack hstack =>
    rw [hstack, stack_weight_cons] at hwalk
    have hpos := Pending.weight_pos ⟨path, depth, true⟩
    rw [hwalk, fuel_eq]
    dsimp only
    omega
  | visit path depth stack entries walk' hstack hroom hentries hchildren =>
    have hgrown := add_children_fuel hchildren
    rw [fuel_eq { walk with
      stack := ⟨path, depth, true⟩ :: stack
      listed := walk.listed ++ [⟨path, entries⟩] }, stack_weight_cons] at hgrown
    rw [hstack, stack_weight_cons] at hwalk
    have hvisited : Pending.weight ⟨path, depth, true⟩ = 1 := rfl
    have hunvisited : Pending.weight ⟨path, depth, false⟩ = 2 := rfl
    rw [hvisited] at hgrown
    rw [hunvisited] at hwalk
    dsimp only at hgrown
    omega

/-- The loop: what it leaves, and its error if it fails. -/
def walk_tree (server : Server) (walk : Walk) : Walk × AppResult Unit :=
  match _ : turn server walk with
  | .error error => (walk, .error error)
  | .ok none => (walk, .ok ())
  | .ok (some walk') => walk_tree server walk'
termination_by walk.fuel
decreasing_by exact turn_fuel ‹_›

/-! ### The commands -/

/-- `run_batch`: the scripts that were sent, and the outcome. -/
def run_batch (server : Server) (script : Text) (sent : List Text) : List Text × AppResult Unit :=
  if script.isEmpty || MAX_BATCH_BYTES < script.len || script.contains (Char.ofNat 0) then
    (sent, .error (.Validation "SFTP batch payload is invalid or too large".toList))
  else
    let script := if script.getLast? = some '\n' then script else script ++ ['\n']
    (sent ++ [script], server.batch sent.length)

/-- `run_path_commands`, with the script that is being filled and the scripts
    that were sent. -/
def run_path_commands (server : Server) (command : Text) :
    List Text → Text → List Text → List Text × AppResult Unit
  | [], script, sent => if script.isEmpty then (sent, .ok ()) else run_batch server script sent
  | path :: paths, script, sent =>
      match batch_command command [path] with
      | .error error => (sent, .error error)
      | .ok line =>
          if MAX_BATCH_BYTES < line.len then
            (sent, .error (.Validation
              "one SFTP batch command exceeds the safety limit".toList))
          else if !script.isEmpty && MAX_BATCH_BYTES < script.len + line.len then
            match run_batch server script sent with
            | (sent, .error error) => (sent, .error error)
            | (sent, .ok ()) => run_path_commands server command paths line sent
          else run_path_commands server command paths (script ++ line) sent

/-- A run of `delete_tree`: what its walk found, the scripts it sent, and its
    result. -/
structure DeleteRun where
  walk : Walk
  scripts : List Text
  result : AppResult (List Text)

def delete_tree (server : Server) (root : Text) : DeleteRun :=
  match walk_tree server (.start root) with
  | (walk, .error error) => { walk, scripts := [], result := .error error }
  | (walk, .ok ()) =>
      match run_path_commands server "rm".toList walk.files [] [] with
      | (scripts, .error error) => { walk, scripts, result := .error error }
      | (scripts, .ok ()) =>
          match run_path_commands server "rmdir".toList walk.directories [] scripts with
          | (scripts, .error error) => { walk, scripts, result := .error error }
          | (scripts, .ok ()) => { walk, scripts, result := .ok (walk.files ++ walk.directories) }

end Sftp
