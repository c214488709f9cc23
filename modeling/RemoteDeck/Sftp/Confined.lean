import RemoteDeck.Sftp.DeleteTree

/-! # A recursive deletion stays inside its root

    What the names of a listing can be, which paths they make, and in which
    order the walk of `delete_tree` leaves them.

    This file defines:
    - `Inside` and `Below`: a path and some components after it
    - `Writes`: a script with one line and one argument for each removal
    - `Named`, `Once`: listings without names that are cut to nothing, and
      without a directory that is listed again after it was left
    - `Confined`: what a deletion may remove, and in which order

    The main result is `delete_tree_confined`.
-/

namespace Sftp

/-! ### One argument on one line -/

/-- A quoted argument up to its closing quote, and what follows it.  After a
    backslash a character stands for itself; a wildcard never does without. -/
def read_quoted : Text → Option (Text × Text)
  | [] => none
  | '"' :: rest => some ([], rest)
  | '\\' :: c :: rest => (read_quoted rest).map fun result => (c :: result.1, result.2)
  | c :: rest =>
      if is_escaped c || is_line_break c then none
      else (read_quoted rest).map fun result => (c :: result.1, result.2)

/-- A line with a command and one argument. -/
def SendsOne (command path line : Text) : Prop :=
  ∃ quoted, line = command ++ ' ' :: '"' :: quoted ∧ read_quoted quoted = some (path, ['\n'])

theorem read_quoted_plain {c : Char} {rest : Text} (h : is_escaped c = false)
    (hbreak : is_line_break c = false) :
    read_quoted (c :: rest) = (read_quoted rest).map fun result => (c :: result.1, result.2) := by
  have hquote : c ≠ '"' := by
    intro hc
    rw [hc] at h
    exact absurd h (by decide)
  have hslash : c ≠ '\\' := by
    intro hc
    rw [hc] at h
    exact absurd h (by decide)
  conv_lhs => unfold read_quoted
  split
  · next heq => exact absurd heq (List.cons_ne_nil _ _)
  · next heq => exact absurd (List.cons.inj heq).1 hquote
  · next heq => exact absurd (List.cons.inj heq).1 hslash
  · next heq =>
    obtain ⟨rfl, rfl⟩ := List.cons.inj heq
    rw [h, hbreak]
    rfl

theorem read_quoted_escaped (c : Char) (rest : Text) :
    read_quoted ('\\' :: c :: rest) = (read_quoted rest).map fun result => (c :: result.1, result.2) :=
  rfl

theorem read_quoted_quote {path : Text} (rest : Text) (h : path.any is_line_break = false) :
    read_quoted (path.flatMap (fun c => if is_escaped c then ['\\', c] else [c]) ++ '"' :: rest) =
      some (path, rest) := by
  induction path with
  | nil => rfl
  | cons c path ih =>
    rw [List.any_cons, Bool.or_eq_false_iff] at h
    rw [List.flatMap_cons]
    by_cases hescaped : is_escaped c = true
    · rw [if_pos hescaped, List.append_assoc, List.cons_append, List.cons_append, List.nil_append,
        read_quoted_escaped, ih h.2]
      rfl
    · rw [if_neg hescaped, List.append_assoc, List.cons_append, List.nil_append,
        read_quoted_plain (Bool.not_eq_true _ ▸ hescaped) h.1, ih h.2]
      rfl

theorem batch_command_sends {command path line : Text}
    (h : batch_command command [path] = .ok line) : SendsOne command path line := by
  unfold batch_command at h
  rw [Outcome.ite_error_eq_ok] at h
  obtain ⟨arguments, harguments, hline⟩ := Outcome.bind_eq_ok.mp h.2
  unfold batch_arguments at harguments
  obtain ⟨quoted, hquoted, harguments⟩ := Outcome.bind_eq_ok.mp harguments
  obtain ⟨more, hmore, harguments⟩ := Outcome.bind_eq_ok.mp harguments
  have hnone : more = [] := (Except.ok.inj hmore).symm
  unfold batch_quote at hquoted
  rw [Outcome.ite_error_eq_ok, Bool.or_eq_true, Bool.or_eq_true, not_or, not_or,
    Bool.not_eq_true, Bool.not_eq_true] at hquoted
  obtain ⟨⟨⟨_, hbreaks⟩, _⟩, hquoted⟩ := hquoted
  refine ⟨path.flatMap (fun c => if is_escaped c then ['\\', c] else [c]) ++ '"' :: ['\n'], ?_,
    read_quoted_quote ['\n'] hbreaks⟩
  rw [← Except.ok.inj hline, ← Except.ok.inj harguments, ← Except.ok.inj hquoted, hnone]
  simp

/-! ### Paths -/

/-- A name that is one component of a path. -/
structure IsComponent (name : Text) : Prop where
  ne_nil : name ≠ []
  ne_dot : name ≠ ".".toList
  ne_dots : name ≠ "..".toList
  no_slash : '/' ∉ name

/-- A path, and some components after it. -/
def path_of (root : Text) (names : List Text) : Text := names.foldl remote_join root

def Inside (root path : Text) : Prop :=
  ∃ names, (∀ name ∈ names, IsComponent name) ∧ path = path_of root names

/-- Inside, and not the directory itself. -/
def Below (directory path : Text) : Prop :=
  ∃ names, names ≠ [] ∧ (∀ name ∈ names, IsComponent name) ∧ path = path_of directory names

theorem path_of_snoc (root : Text) (names : List Text) (name : Text) :
    path_of root (names ++ [name]) = remote_join (path_of root names) name := by
  unfold path_of
  rw [List.foldl_append]
  rfl

theorem path_of_append (root : Text) (names more : List Text) :
    path_of root (names ++ more) = path_of (path_of root names) more := by
  unfold path_of
  rw [List.foldl_append]

/-- A joined path is its parent, a slash unless there is one, and the name. -/
theorem remote_join_eq (parent name : Text) :
    remote_join parent name =
      (if parent.getLast? = some '/' then parent else parent ++ ['/']) ++ name := by
  unfold remote_join
  split
  · next hroot =>
    rw [hroot, if_pos (by decide)]
    rfl
  · split
    · rfl
    · rw [List.append_assoc]
      rfl

theorem remote_join_start (parent name : Text) : parent <+: remote_join parent name := by
  rw [remote_join_eq]
  split
  · exact List.prefix_append _ _
  · rw [List.append_assoc]
    exact List.prefix_append _ _

theorem remote_join_length (parent : Text) {name : Text} (h : name ≠ []) :
    parent.length < (remote_join parent name).length := by
  have hname : 0 < name.length := List.length_pos_iff.mpr h
  rw [remote_join_eq, List.length_append]
  split
  · omega
  · rw [List.length_append]
    omega

theorem path_of_start (root : Text) (names : List Text) : root <+: path_of root names := by
  induction names generalizing root with
  | nil => exact List.prefix_rfl
  | cons name names ih => exact (remote_join_start root name).trans (ih _)

theorem path_of_length {root : Text} {names : List Text} (hne : names ≠ [])
    (h : ∀ name ∈ names, IsComponent name) : root.length < (path_of root names).length := by
  obtain ⟨name, more, rfl⟩ := List.exists_cons_of_ne_nil hne
  have hjoin := remote_join_length root (h name List.mem_cons_self).ne_nil
  exact Nat.lt_of_lt_of_le hjoin (path_of_start _ more).length_le

theorem Inside.refl (root : Text) : Inside root root := ⟨[], by simp, rfl⟩

theorem Inside.join {root path name : Text} (h : Inside root path) (hname : IsComponent name) :
    Inside root (remote_join path name) := by
  obtain ⟨names, hnames, rfl⟩ := h
  refine ⟨names ++ [name], ?_, (path_of_snoc root names name).symm⟩
  intro other hother
  rcases List.mem_append.mp hother with hmem | hlast
  · exact hnames other hmem
  · rw [List.mem_singleton.mp hlast]
    exact hname

theorem Below.join (path : Text) {name : Text} (hname : IsComponent name) :
    Below path (remote_join path name) :=
  ⟨[name], List.cons_ne_nil _ _, List.forall_mem_singleton.mpr hname, rfl⟩

theorem Below.length_lt {directory path : Text} (h : Below directory path) :
    directory.length < path.length := by
  obtain ⟨names, hne, hnames, rfl⟩ := h
  exact path_of_length hne hnames

theorem Below.trans {a b c : Text} (hab : Below a b) (hbc : Below b c) : Below a c := by
  obtain ⟨names, hne, hnames, rfl⟩ := hab
  obtain ⟨more, _, hmore, rfl⟩ := hbc
  refine ⟨names ++ more, ?_, ?_, (path_of_append a names more).symm⟩
  · intro hnil
    exact hne (List.append_eq_nil_iff.mp hnil).1
  · intro name hname
    rcases List.mem_append.mp hname with hmem | hmem
    · exact hnames name hmem
    · exact hmore name hmem

/-- A path that ends with a component does not end with a slash. -/
theorem remote_join_getLast {parent name : Text} (h : IsComponent name) :
    (remote_join parent name).getLast? ≠ some '/' := by
  intro hlast
  rw [remote_join_eq, List.getLast?_append] at hlast
  cases hname : name.getLast? with
  | none => exact h.ne_nil (List.getLast?_eq_none_iff.mp hname)
  | some c =>
    rw [hname] at hlast
    have hslash : c = '/' := Option.some.inj hlast
    rw [hslash] at hname
    exact h.no_slash (List.mem_of_getLast? hname)

theorem Inside.getLast {root path : Text} (h : Inside root path) :
    path = root ∨ path.getLast? ≠ some '/' := by
  obtain ⟨names, hnames, rfl⟩ := h
  rcases List.eq_nil_or_concat' names with rfl | ⟨front, name, rfl⟩
  · exact Or.inl rfl
  · right
    rw [path_of_snoc]
    exact remote_join_getLast (hnames name (by simp))

theorem Inside.prefix {root path : Text} (h : Inside root path) : root <+: path := by
  obtain ⟨names, _, rfl⟩ := h
  exact path_of_start root names

/-- What stands before the name in a joined path ends with a slash. -/
theorem remote_join_split (parent name : Text) :
    ∃ front, remote_join parent name = front ++ '/' :: name ∧
      (parent = front ++ ['/'] ∨ parent = front ∧ parent.getLast? ≠ some '/') := by
  rw [remote_join_eq]
  split
  · next hlast =>
    obtain ⟨front, hfront⟩ := List.getLast?_eq_some_iff.mp hlast
    refine ⟨front, ?_, Or.inl hfront⟩
    rw [hfront, List.append_assoc]
    rfl
  · next hlast =>
    refine ⟨parent, ?_, Or.inr ⟨rfl, hlast⟩⟩
    rw [List.append_assoc]
    rfl

/-- A path inside a root is not another one followed by a slash. -/
theorem Inside.not_slash {root path other : Text} (h : Inside root path) (hother : Inside root other)
    (heq : path = other ++ ['/']) : False := by
  have hlast : path.getLast? = some '/' := by
    rw [heq, List.getLast?_append]
    rfl
  rcases h.getLast with hroot | hnone
  · have hle := hother.prefix.length_le
    rw [← hroot, heq, List.length_append, List.length_singleton] at hle
    omega
  · exact hnone hlast

/-- Paths inside a root that have a common child are the same. -/
theorem remote_join_inj {root path path' name name' : Text} (hpath : Inside root path)
    (hpath' : Inside root path') (hname : '/' ∉ name) (hname' : '/' ∉ name')
    (h : remote_join path name = remote_join path' name') : path = path' := by
  obtain ⟨front, hjoin, hfront⟩ := remote_join_split path name
  obtain ⟨front', hjoin', hfront'⟩ := remote_join_split path' name'
  rw [hjoin, hjoin'] at h
  -- the last slash of both is the one before the name
  have hreverse := congrArg List.reverse h
  rw [List.reverse_append, List.reverse_append, List.reverse_cons, List.reverse_cons,
    List.append_assoc, List.append_assoc] at hreverse
  have hfronts : front.reverse = front'.reverse :=
    (Text.append_cons_inj (by simpa using hname) (by simpa using hname') hreverse).2
  rw [List.reverse_inj] at hfronts
  rcases hfront with hslash | ⟨hsame, _⟩
  · rcases hfront' with hslash' | ⟨hsame', _⟩
    · rw [hslash, hslash', hfronts]
    · rw [hfronts, ← hsame'] at hslash
      exact (hpath.not_slash hpath' hslash).elim
  · rcases hfront' with hslash' | ⟨hsame', _⟩
    · rw [← hfronts, ← hsame] at hslash'
      exact (hpath'.not_slash hpath hslash').elim
    · rw [hsame, hsame', hfronts]

/-- What is below a directory is one of its children or below its parent. -/
theorem Below.of_join {root directory path name : Text} (hdirectory : Inside root directory)
    (hpath : Inside root path) (hname : IsComponent name)
    (h : Below directory (remote_join path name)) : directory = path ∨ Below directory path := by
  obtain ⟨names, hne, hnames, heq⟩ := h
  rcases List.eq_nil_or_concat' names with rfl | ⟨front, last, rfl⟩
  · exact absurd rfl hne
  rw [path_of_snoc] at heq
  have hfront : ∀ n ∈ front, IsComponent n := fun n hn => hnames n (List.mem_append_left _ hn)
  have hlast := hnames last (by simp)
  have hinside : Inside root (path_of directory front) := by
    obtain ⟨above, habove, rfl⟩ := hdirectory
    refine ⟨above ++ front, ?_, (path_of_append root above front).symm⟩
    intro n hn
    rcases List.mem_append.mp hn with hmem | hmem
    · exact habove n hmem
    · exact hfront n hmem
  have hparent := remote_join_inj hpath hinside hname.no_slash hlast.no_slash heq
  by_cases hnil : front = []
  · left
    rw [hparent, hnil]
    rfl
  · right
    exact ⟨front, hnil, hfront, hparent⟩

/-! ### The entries of a listing -/

/-- An entry as `list` returns it: its name has no slash and is no dot name. -/
structure EntryOf (path : Text) (entry : ListedEntry) : Prop where
  path : entry.path = remote_join path entry.name
  no_slash : '/' ∉ entry.name
  ne_dot : entry.name ≠ ".".toList
  ne_dots : entry.name ≠ "..".toList

theorem EntryOf.component {path : Text} {entry : ListedEntry} (h : EntryOf path entry)
    (hne : entry.name ≠ []) : IsComponent entry.name where
  ne_nil := hne
  ne_dot := h.ne_dot
  ne_dots := h.ne_dots
  no_slash := h.no_slash

theorem listing_file_name_no_slash (displayed parent : Text) :
    '/' ∉ listing_file_name displayed parent := by
  intro hmem
  have hall := List.mem_rtakeWhile_imp hmem
  exact absurd hall (by decide)

theorem parse_lines_entries {parent : Text} {lines : List Text} {count retained : Nat}
    {entries : List ListedEntry} (h : parse_lines parent lines count retained = .ok entries) :
    ∀ entry ∈ entries, entry.path = remote_join parent entry.name ∧ '/' ∉ entry.name := by
  induction lines generalizing count retained entries with
  | nil =>
    rw [← Except.ok.inj h]
    exact fun _ hmem => absurd hmem List.not_mem_nil
  | cons raw_line lines ih =>
    unfold parse_lines at h
    dsimp only at h
    split at h
    · exact ih h
    · obtain ⟨row, _, h⟩ := Outcome.bind_eq_ok.mp h
      rw [Outcome.ite_error_eq_ok, Outcome.ite_error_eq_ok] at h
      obtain ⟨_, _, h⟩ := h
      obtain ⟨rest, hrest, h⟩ := Outcome.bind_eq_ok.mp h
      rw [← Except.ok.inj h]
      intro entry hentry
      rcases List.mem_cons.mp hentry with rfl | hmem
      · exact ⟨rfl, listing_file_name_no_slash _ _⟩
      · exact ih hrest entry hmem

theorem list_entries_entries {to_lowercase : Text → Text} {path : Text} {answer : AppResult Text}
    {entries : List ListedEntry} (h : list_entries to_lowercase ⟨path, true⟩ answer = .ok entries) :
    ∀ entry ∈ entries, EntryOf path entry := by
  unfold list_entries at h
  obtain ⟨_, _, h⟩ := Outcome.bind_eq_ok.mp h
  obtain ⟨_, _, h⟩ := Outcome.bind_eq_ok.mp h
  obtain ⟨output, _, h⟩ := Outcome.bind_eq_ok.mp h
  obtain ⟨parsed, hparsed, h⟩ := Outcome.bind_eq_ok.mp h
  intro entry hentry
  rw [← Except.ok.inj h, if_pos rfl, List.mem_mergeSort, List.mem_filter, Bool.and_eq_true,
    decide_eq_true_eq, decide_eq_true_eq] at hentry
  obtain ⟨hmem, hdot, hdots⟩ := hentry
  obtain ⟨hpath, hslash⟩ := parse_lines_entries hparsed entry hmem
  exact ⟨hpath, hslash, hdot, hdots⟩

/-! ### The children of a directory -/

/-- What the children of a directory change of a walk. -/
structure ChildrenAdded (depth : Nat) (children : List ListedEntry) (walk walk' : Walk) : Prop where
  stack : ∃ added, walk'.stack = added ++ walk.stack ∧
    (∀ pending ∈ added, ∃ child ∈ children, child.kind = .Directory ∧
      pending = ⟨child.path, depth + 1, false⟩) ∧
    (∀ child ∈ children, child.kind = .Directory → ⟨child.path, depth + 1, false⟩ ∈ added)
  files : ∃ added, walk'.files = walk.files ++ added ∧
    (∀ path ∈ added, ∃ child ∈ children, path = child.path) ∧
    (∀ child ∈ children, child.kind ≠ .Directory → child.path ∈ added)
  directories : walk'.directories = walk.directories
  listed : walk'.listed = walk.listed
  count : walk'.files.length + walk'.stack.length + walk.discovered =
    walk.files.length + walk.stack.length + walk'.discovered
  room : walk'.discovered ≤ MAX_REMOTE_ENTRIES ∨ walk'.discovered = walk.discovered

theorem add_children_added {depth : Nat} {children : List ListedEntry} {walk walk' : Walk}
    (h : add_children depth children walk = .ok walk') :
    ChildrenAdded depth children walk walk' := by
  induction children generalizing walk with
  | nil =>
    rw [← Except.ok.inj h]
    exact {
      stack := ⟨[], rfl, by simp, by simp⟩
      files := ⟨[], (List.append_nil _).symm, by simp, by simp⟩
      directories := rfl
      listed := rfl
      count := rfl
      room := Or.inr rfl }
  | cons child children ih =>
    unfold add_children at h
    dsimp only at h
    rw [Outcome.ite_error_eq_ok] at h
    obtain ⟨hroom, h⟩ := h
    have hbound : walk.discovered + 1 ≤ MAX_REMOTE_ENTRIES := not_exceeds hroom
    split at h
    · next hkind =>
      have hrest := ih h
      obtain ⟨added, hstack, hfrom, hall⟩ := hrest.stack
      obtain ⟨more, hfiles, hmore, hothers⟩ := hrest.files
      exact {
        stack := by
          refine ⟨added ++ [⟨child.path, depth + 1, false⟩], ?_, ?_, ?_⟩
          · rw [hstack, List.append_assoc]
            rfl
          · intro pending hmem
            rcases List.mem_append.mp hmem with hold | hnew
            · obtain ⟨other, hother, hdirectory, heq⟩ := hfrom pending hold
              exact ⟨other, List.mem_cons_of_mem _ hother, hdirectory, heq⟩
            · exact ⟨child, List.mem_cons_self, hkind, List.mem_singleton.mp hnew⟩
          · intro other hother hdirectory
            rcases List.mem_cons.mp hother with rfl | hmem
            · exact List.mem_append_right _ List.mem_cons_self
            · exact List.mem_append_left _ (hall other hmem hdirectory)
        files := by
          refine ⟨more, hfiles, ?_, ?_⟩
          · intro path hpath
            obtain ⟨other, hother, heq⟩ := hmore path hpath
            exact ⟨other, List.mem_cons_of_mem _ hother, heq⟩
          · intro other hother hfile
            rcases List.mem_cons.mp hother with rfl | hmem
            · exact absurd hkind hfile
            · exact hothers other hmem hfile
        directories := hrest.directories
        listed := hrest.listed
        count := by
          have hcount := hrest.count
          dsimp only [List.length_cons] at hcount
          omega
        room := by
          have hroom := hrest.room
          dsimp only at hroom
          omega }
    · next hkind =>
      have hrest := ih h
      obtain ⟨added, hstack, hfrom, hall⟩ := hrest.stack
      obtain ⟨more, hfiles, hmore, hothers⟩ := hrest.files
      exact {
        stack := by
          refine ⟨added, hstack, ?_, ?_⟩
          · intro pending hmem
            obtain ⟨other, hother, hdirectory, heq⟩ := hfrom pending hmem
            exact ⟨other, List.mem_cons_of_mem _ hother, hdirectory, heq⟩
          · intro other hother hdirectory
            rcases List.mem_cons.mp hother with rfl | hmem
            · exact absurd hdirectory hkind
            · exact hall other hmem hdirectory
        files := by
          refine ⟨child.path :: more, ?_, ?_, ?_⟩
          · rw [hfiles, List.append_assoc]
            rfl
          · intro path hpath
            rcases List.mem_cons.mp hpath with rfl | hmem
            · exact ⟨child, List.mem_cons_self, rfl⟩
            · obtain ⟨other, hother, heq⟩ := hmore path hmem
              exact ⟨other, List.mem_cons_of_mem _ hother, heq⟩
          · intro other hother hfile
            rcases List.mem_cons.mp hother with rfl | hmem
            · exact List.mem_cons_self
            · exact List.mem_cons_of_mem _ (hothers other hmem hfile)
        directories := hrest.directories
        listed := hrest.listed
        count := by
          have hcount := hrest.count
          dsimp only at hcount
          rw [List.length_append, List.length_singleton] at hcount
          omega
        room := by
          have hroom := hrest.room
          dsimp only at hroom
          omega }

/-! ### Reachable walks -/

/-- The walks that the loop of a deletion goes through. -/
inductive Reached (server : Server) (root : Text) : Walk → Prop where
  | start : Reached server root (.start root)
  | turn {walk walk' : Walk} (h : Reached server root walk)
      (hturn : turn server walk = .ok (some walk')) : Reached server root walk'

section
variable {server : Server} {root : Text} {walk walk' : Walk}

theorem walk_tree_reached (h : Reached server root walk) :
    Reached server root (walk_tree server walk).1 ∧
      ((walk_tree server walk).2 = .ok () → (walk_tree server walk).1.stack = []) := by
  fun_induction walk_tree server walk with
  | case1 walk error herror => exact ⟨h, nofun⟩
  | case2 walk hnone =>
    refine ⟨h, fun _ => ?_⟩
    cases turn_cases hnone with
    | finished hstack => exact hstack
  | case3 walk next hnext ih => exact ih (h.turn hnext)

/-- The listings that were made are not forgotten. -/
theorem turn_listed (h : turn server walk = .ok (some walk')) : walk.listed <+: walk'.listed := by
  cases turn_cases h with
  | leave => exact List.prefix_rfl
  | visit path depth stack entries walk' _ _ _ hchildren =>
    rw [(add_children_added hchildren).listed]
    exact List.prefix_append _ _

/-- What is known of a walk whatever the listings show: nothing that was found
    is lost, and the entries that were found are counted. -/
structure Tracked (walk : Walk) : Prop where
  listed : ∀ listing ∈ walk.listed, listing.path ∈ walk.directories ∨
    ∃ pending ∈ walk.stack, pending.visited = true ∧ pending.path = listing.path
  entries : ∀ listing ∈ walk.listed, ∀ entry ∈ listing.entries, EntryOf listing.path entry ∧
    (entry.path ∈ walk.files ∨ entry.path ∈ walk.directories ∨
      ∃ pending ∈ walk.stack, pending.path = entry.path)
  left : ∀ path ∈ walk.directories, ∃ listing ∈ walk.listed, listing.path = path
  open_listed : ∀ pending ∈ walk.stack, pending.visited = true →
    ∃ listing ∈ walk.listed, listing.path = pending.path
  count : walk.files.length + walk.directories.length + walk.stack.length = walk.discovered
  listings : walk.listed.length =
    walk.directories.length + (walk.stack.filter Pending.visited).length
  room : walk.discovered ≤ MAX_REMOTE_ENTRIES

theorem reached_tracked (h : Reached server root walk) : Tracked walk := by
  induction h with
  | start =>
    exact {
      listed := by simp [Walk.start]
      entries := by simp [Walk.start]
      left := by simp [Walk.start]
      open_listed := by simp [Walk.start]
      count := rfl
      listings := rfl
      room := by
        have hroot : 1 ≤ MAX_REMOTE_ENTRIES := by decide
        exact hroot }
  | @turn walk walk' _ hturn ih =>
    cases turn_cases hturn with
    | leave path depth stack hstack =>
      exact {
        listed := by
          intro listing hlisting
          rcases ih.listed listing hlisting with hdone | ⟨pending, hmem, hvisited, hpath⟩
          · exact Or.inl (List.mem_append_left _ hdone)
          · rw [hstack] at hmem
            rcases List.mem_cons.mp hmem with rfl | hrest
            · left
              rw [← hpath]
              exact List.mem_append_right _ List.mem_cons_self
            · exact Or.inr ⟨pending, hrest, hvisited, hpath⟩
        entries := by
          intro listing hlisting entry hentry
          obtain ⟨hof, hkept⟩ := ih.entries listing hlisting entry hentry
          refine ⟨hof, ?_⟩
          rcases hkept with hfile | hdone | ⟨pending, hmem, hpath⟩
          · exact Or.inl hfile
          · exact Or.inr (Or.inl (List.mem_append_left _ hdone))
          · rw [hstack] at hmem
            rcases List.mem_cons.mp hmem with rfl | hrest
            · right; left
              rw [← hpath]
              exact List.mem_append_right _ List.mem_cons_self
            · exact Or.inr (Or.inr ⟨pending, hrest, hpath⟩)
        left := by
          intro other hother
          rcases List.mem_append.mp hother with hdone | hnew
          · exact ih.left other hdone
          · rw [List.mem_singleton.mp hnew]
            exact ih.open_listed ⟨path, depth, true⟩ (by rw [hstack]; exact List.mem_cons_self) rfl
        open_listed := by
          intro pending hmem hvisited
          exact ih.open_listed pending (by rw [hstack]; exact List.mem_cons_of_mem _ hmem) hvisited
        count := by
          have hcount := ih.count
          rw [hstack, List.length_cons] at hcount
          dsimp only
          rw [List.length_append, List.length_singleton]
          omega
        listings := by
          have hlistings := ih.listings
          rw [hstack, List.filter_cons_of_pos rfl, List.length_cons] at hlistings
          dsimp only
          rw [List.length_append, List.length_singleton]
          omega
        room := ih.room }
    | visit path depth stack entries walk' hstack hroom hentries hchildren =>
      have hadded := add_children_added hchildren
      obtain ⟨added, hstack', hfrom, hall⟩ := hadded.stack
      obtain ⟨more, hfiles', hmore, hothers⟩ := hadded.files
      have hdirectories := hadded.directories
      have hlisted := hadded.listed
      dsimp only at hstack' hfiles' hdirectories hlisted
      have hunvisited : added.filter Pending.visited = [] := by
        rw [List.filter_eq_nil_iff]
        intro pending hmem
        obtain ⟨child, _, _, rfl⟩ := hfrom pending hmem
        exact Bool.false_ne_true
      exact {
        listed := by
          intro listing hlisting
          rw [hlisted] at hlisting
          rw [hdirectories, hstack']
          rcases List.mem_append.mp hlisting with hold | hnew
          · rcases ih.listed listing hold with hdone | ⟨pending, hmem, hvisited, hpath⟩
            · exact Or.inl hdone
            · rw [hstack] at hmem
              rcases List.mem_cons.mp hmem with rfl | hrest
              · exact absurd hvisited Bool.false_ne_true
              · exact Or.inr ⟨pending, by simp [hrest], hvisited, hpath⟩
          · rw [List.mem_singleton.mp hnew]
            exact Or.inr ⟨⟨path, depth, true⟩, by simp, rfl, rfl⟩
        entries := by
          intro listing hlisting entry hentry
          rw [hlisted] at hlisting
          rw [hdirectories, hstack', hfiles']
          rcases List.mem_append.mp hlisting with hold | hnew
          · obtain ⟨hof, hkept⟩ := ih.entries listing hold entry hentry
            refine ⟨hof, ?_⟩
            rcases hkept with hfile | hdone | ⟨pending, hmem, hpath⟩
            · exact Or.inl (List.mem_append_left _ hfile)
            · exact Or.inr (Or.inl hdone)
            · rw [hstack] at hmem
              rcases List.mem_cons.mp hmem with rfl | hrest
              · exact Or.inr (Or.inr ⟨⟨path, depth, true⟩, by simp, hpath⟩)
              · exact Or.inr (Or.inr ⟨pending, by simp [hrest], hpath⟩)
          · rw [List.mem_singleton.mp hnew] at hentry ⊢
            refine ⟨list_entries_entries hentries entry hentry, ?_⟩
            by_cases hkind : entry.kind = .Directory
            · have hmem := hall entry (List.mem_reverse.mpr hentry) hkind
              exact Or.inr (Or.inr ⟨_, List.mem_append_left _ hmem, rfl⟩)
            · have hmem := hothers entry (List.mem_reverse.mpr hentry) hkind
              exact Or.inl (List.mem_append_right _ hmem)
        left := by
          intro other hother
          rw [hdirectories] at hother
          rw [hlisted]
          obtain ⟨listing, hlisting, hpath⟩ := ih.left other hother
          exact ⟨listing, List.mem_append_left _ hlisting, hpath⟩
        open_listed := by
          intro pending hmem hvisited
          rw [hlisted]
          rw [hstack'] at hmem
          rcases List.mem_append.mp hmem with hnew | hold
          · obtain ⟨child, _, _, rfl⟩ := hfrom pending hnew
            exact absurd hvisited Bool.false_ne_true
          · rcases List.mem_cons.mp hold with rfl | hrest
            · exact ⟨⟨path, entries⟩, List.mem_append_right _ List.mem_cons_self, rfl⟩
            · obtain ⟨listing, hlisting, hpath⟩ := ih.open_listed pending
                (by rw [hstack]; exact List.mem_cons_of_mem _ hrest) hvisited
              exact ⟨listing, List.mem_append_left _ hlisting, hpath⟩
        count := by
          have hold := ih.count
          have hnew := hadded.count
          rw [hstack] at hold
          rw [hdirectories]
          dsimp only [List.length_cons] at hold hnew
          omega
        listings := by
          have hold := ih.listings
          rw [hstack, List.filter_cons_of_neg Bool.false_ne_true] at hold
          rw [hlisted, hdirectories, hstack', List.filter_append, hunvisited, List.nil_append,
            List.filter_cons_of_pos rfl, List.length_append, List.length_singleton,
            List.length_cons]
          omega
        room := by
          rcases hadded.room with hbound | hsame
          · exact hbound
          · rw [hsame]
            exact hroom }

/-- No listing shows a name that is cut to nothing. -/
def Named (walk : Walk) : Prop :=
  ∀ listing ∈ walk.listed, ∀ entry ∈ listing.entries, entry.name ≠ []

/-- A directory that is listed again shows no directory then. -/
def Once (walk : Walk) : Prop :=
  walk.listed.Pairwise fun earlier later =>
    earlier.path = later.path → ∀ entry ∈ later.entries, entry.kind ≠ .Directory

theorem Named.of_start (h : walk.listed <+: walk'.listed) (hnamed : Named walk') : Named walk :=
  fun listing hlisting => hnamed listing (h.subset hlisting)

theorem Once.of_start (h : walk.listed <+: walk'.listed) (honce : Once walk') : Once walk :=
  honce.sublist h.sublist

/-- What is known of a walk whose listings show proper names: its paths are
    inside the root, and above an open directory on the stack are only paths
    below it. -/
structure Nested (root : Text) (walk : Walk) : Prop where
  stack : ∀ pending ∈ walk.stack, Inside root pending.path
  files : ∀ path ∈ walk.files, Inside root path
  directories : ∀ path ∈ walk.directories, Inside root path
  below_open : walk.stack.Pairwise fun top lower =>
    lower.visited = true → Below lower.path top.path
  not_above : walk.stack.Pairwise fun top lower => ¬Below top.path lower.path

theorem Below.irrefl (path : Text) : ¬Below path path := fun h => Nat.lt_irrefl _ h.length_lt

/-- The children of a directory, as paths. -/
theorem child_path {path : Text} {entries : List ListedEntry}
    (hentries : list_entries server.to_lowercase ⟨path, true⟩
      (server.listing walk.listed.length) = .ok entries)
    (hnamed : ∀ entry ∈ entries, entry.name ≠ []) {child : ListedEntry}
    (hchild : child ∈ entries.reverse) :
    ∃ name, IsComponent name ∧ child.path = remote_join path name := by
  have hmem := List.mem_reverse.mp hchild
  have hof := list_entries_entries hentries child hmem
  exact ⟨child.name, hof.component (hnamed child hmem), hof.path⟩

theorem reached_nested (h : Reached server root walk) (hnamed : Named walk) : Nested root walk := by
  induction h with
  | start =>
    exact {
      stack := by
        intro pending hmem
        rw [List.mem_singleton.mp hmem]
        exact .refl root
      files := by simp [Walk.start]
      directories := by simp [Walk.start]
      below_open := List.pairwise_singleton _ _
      not_above := List.pairwise_singleton _ _ }
  | @turn walk walk' _ hturn ih =>
    have hold := ih (hnamed.of_start (turn_listed hturn))
    cases turn_cases hturn with
    | leave path depth stack hstack =>
      have hpairs := hold.below_open
      have hpairs' := hold.not_above
      rw [hstack] at hpairs hpairs'
      exact {
        stack := fun pending hmem =>
          hold.stack pending (by rw [hstack]; exact List.mem_cons_of_mem _ hmem)
        files := hold.files
        directories := by
          intro other hother
          rcases List.mem_append.mp hother with hdone | hnew
          · exact hold.directories other hdone
          · rw [List.mem_singleton.mp hnew]
            exact hold.stack ⟨path, depth, true⟩ (by rw [hstack]; exact List.mem_cons_self)
        below_open := hpairs.tail
        not_above := hpairs'.tail }
    | visit path depth stack entries walk' hstack hroom hentries hchildren =>
      have hadded := add_children_added hchildren
      obtain ⟨added, hstack', hfrom, hall⟩ := hadded.stack
      obtain ⟨more, hfiles', hmore, hothers⟩ := hadded.files
      dsimp only at hstack' hfiles'
      have hnames : ∀ entry ∈ entries, entry.name ≠ [] := by
        apply hnamed ⟨path, entries⟩
        rw [hadded.listed]
        exact List.mem_append_right _ List.mem_cons_self
      have hpath : Inside root path :=
        hold.stack ⟨path, depth, false⟩ (by rw [hstack]; exact List.mem_cons_self)
      have hchild : ∀ pending ∈ added, ∃ name, IsComponent name ∧
          pending.path = remote_join path name ∧ pending.visited = false := by
        intro pending hmem
        obtain ⟨child, hmem', _, rfl⟩ := hfrom pending hmem
        obtain ⟨name, hname, heq⟩ := child_path hentries hnames hmem'
        exact ⟨name, hname, heq, rfl⟩
      have hpairs := hold.below_open
      have hpairs' := hold.not_above
      rw [hstack] at hpairs hpairs'
      have hlower : ∀ lower ∈ stack, lower.visited = true → Below lower.path path :=
        (List.pairwise_cons.mp hpairs).1
      have hlower' : ∀ lower ∈ stack, ¬Below path lower.path := (List.pairwise_cons.mp hpairs').1
      exact {
        stack := by
          intro pending hmem
          rw [hstack'] at hmem
          rcases List.mem_append.mp hmem with hnew | hrest
          · obtain ⟨name, hname, heq, _⟩ := hchild pending hnew
            rw [heq]
            exact hpath.join hname
          · rcases List.mem_cons.mp hrest with rfl | hmem'
            · exact hpath
            · exact hold.stack pending (by rw [hstack]; exact List.mem_cons_of_mem _ hmem')
        files := by
          intro other hother
          rw [hfiles'] at hother
          rcases List.mem_append.mp hother with hfile | hnew
          · exact hold.files other hfile
          · obtain ⟨child, hmem, rfl⟩ := hmore other hnew
            obtain ⟨name, hname, heq⟩ := child_path hentries hnames hmem
            rw [heq]
            exact hpath.join hname
        directories := by
          rw [hadded.directories]
          exact hold.directories
        below_open := by
          rw [hstack', List.pairwise_append]
          refine ⟨?_, List.pairwise_cons.mpr ⟨?_, hpairs.tail⟩, ?_⟩
          · refine List.pairwise_of_forall_mem_list ?_
            intro a _ b hb hvisited
            obtain ⟨_, _, _, hnot⟩ := hchild b hb
            rw [hnot] at hvisited
            exact absurd hvisited Bool.false_ne_true
          · exact hlower
          · intro top htop lower hmem hvisited
            obtain ⟨name, hname, heq, _⟩ := hchild top htop
            rw [heq]
            rcases List.mem_cons.mp hmem with rfl | hrest
            · exact Below.join path hname
            · exact (hlower lower hrest hvisited).trans (Below.join path hname)
        not_above := by
          rw [hstack', List.pairwise_append]
          refine ⟨?_, List.pairwise_cons.mpr ⟨?_, hpairs'.tail⟩, ?_⟩
          · -- a child is not below another one
            refine List.pairwise_of_forall_mem_list ?_
            intro a ha b hb hbelow
            obtain ⟨name, hname, heq, _⟩ := hchild a ha
            obtain ⟨name', hname', heq', _⟩ := hchild b hb
            rw [heq, heq'] at hbelow
            have hlonger := remote_join_length path hname.ne_nil
            rcases hbelow.of_join (hpath.join hname) hpath hname' with hsame | hup
            · rw [hsame] at hlonger
              exact Nat.lt_irrefl _ hlonger
            · exact Nat.lt_irrefl _ (Nat.lt_trans hlonger hup.length_lt)
          · exact hlower'
          · intro top htop lower hmem hbelow
            obtain ⟨name, hname, heq, _⟩ := hchild top htop
            rw [heq] at hbelow
            rcases List.mem_cons.mp hmem with rfl | hrest
            · have hlonger := remote_join_length path hname.ne_nil
              exact Nat.lt_irrefl _ (Nat.lt_trans hlonger hbelow.length_lt)
            · exact hlower' lower hrest ((Below.join path hname).trans hbelow) }

/-! ### The order of the directories -/

/-- No directory is left before one below it. -/
structure Ordered (walk : Walk) : Prop where
  left : ∀ directory ∈ walk.directories, ∀ pending ∈ walk.stack, ¬Below directory pending.path
  sorted : walk.directories.Pairwise fun earlier later => ¬Below earlier later

theorem reached_ordered (h : Reached server root walk) (hnamed : Named walk) (honce : Once walk) :
    Ordered walk := by
  induction h with
  | start => exact ⟨by simp [Walk.start], List.Pairwise.nil⟩
  | @turn walk walk' hwalk hturn ih =>
    have hlisted := turn_listed hturn
    have hold := ih (hnamed.of_start hlisted) (honce.of_start hlisted)
    have hnested := reached_nested hwalk (hnamed.of_start hlisted)
    cases turn_cases hturn with
    | leave path depth stack hstack =>
      have hpairs := hnested.not_above
      rw [hstack] at hpairs
      have htop : (⟨path, depth, true⟩ : Pending) ∈ walk.stack := by
        rw [hstack]
        exact List.mem_cons_self
      refine ⟨?_, ?_⟩
      · intro directory hmem pending hpending
        rcases List.mem_append.mp hmem with hdone | hnew
        · exact hold.left directory hdone pending
            (by rw [hstack]; exact List.mem_cons_of_mem _ hpending)
        · rw [List.mem_singleton.mp hnew]
          exact (List.pairwise_cons.mp hpairs).1 pending hpending
      · refine List.pairwise_append.mpr ⟨hold.sorted, List.pairwise_singleton _ _, ?_⟩
        intro earlier hearlier later hlater
        rw [List.mem_singleton.mp hlater]
        exact hold.left earlier hearlier _ htop
    | visit path depth stack entries walk' hstack hroom hentries hchildren =>
      have hadded := add_children_added hchildren
      obtain ⟨added, hstack', hfrom, hall⟩ := hadded.stack
      have hnewest := hadded.listed
      dsimp only at hstack' hnewest
      have hnames : ∀ entry ∈ entries, entry.name ≠ [] := by
        apply hnamed ⟨path, entries⟩
        rw [hnewest]
        exact List.mem_append_right _ List.mem_cons_self
      have htop : (⟨path, depth, false⟩ : Pending) ∈ walk.stack := by
        rw [hstack]
        exact List.mem_cons_self
      refine ⟨?_, by rw [hadded.directories]; exact hold.sorted⟩
      intro directory hdirectory pending hpending hbelow
      rw [hadded.directories] at hdirectory
      rw [hstack'] at hpending
      rcases List.mem_append.mp hpending with hnew | hrest
      · obtain ⟨child, hchild, hkind, rfl⟩ := hfrom pending hnew
        obtain ⟨name, hname, heq⟩ := child_path hentries hnames hchild
        rw [heq] at hbelow
        rcases hbelow.of_join (hnested.directories directory hdirectory) (hnested.stack _ htop) hname
          with hsame | hup
        · -- the directory was left and is listed again
          obtain ⟨listing, hlisting, hpath⟩ := (reached_tracked hwalk).left directory hdirectory
          unfold Once at honce
          rw [hnewest] at honce
          have hnone := (List.pairwise_append.mp honce).2.2 listing hlisting ⟨path, entries⟩
            List.mem_cons_self (hpath.trans hsame)
          exact hnone child (List.mem_reverse.mp hchild) hkind
        · exact hold.left directory hdirectory _ htop hup
      · rcases List.mem_cons.mp hrest with rfl | hmem
        · exact hold.left directory hdirectory _ htop hbelow
        · exact hold.left directory hdirectory pending
            (by rw [hstack]; exact List.mem_cons_of_mem _ hmem) hbelow

/-- A directory comes, or will come, after one that it is below. -/
def Broken (walk : Walk) : Prop :=
  (∃ directory ∈ walk.directories, ∃ pending ∈ walk.stack, Below directory pending.path) ∨
    ¬walk.directories.Pairwise fun earlier later => ¬Below earlier later

theorem reached_broken (h : Reached server root walk) (hnamed : Named walk) :
    Once walk ∨ Broken walk := by
  induction h with
  | start => exact Or.inl List.Pairwise.nil
  | @turn walk walk' hwalk hturn ih =>
    have hnamed' := hnamed.of_start (turn_listed hturn)
    cases turn_cases hturn with
    | leave path depth stack hstack =>
      rcases ih hnamed' with honce | ⟨directory, hdirectory, pending, hpending, hbelow⟩ | hunsorted
      · exact Or.inl honce
      · right
        rw [hstack] at hpending
        rcases List.mem_cons.mp hpending with rfl | hrest
        · right
          intro hsorted
          exact (List.pairwise_append.mp hsorted).2.2 directory hdirectory path List.mem_cons_self hbelow
        · exact Or.inl ⟨directory, List.mem_append_left _ hdirectory, pending, hrest, hbelow⟩
      · right; right
        intro hsorted
        exact hunsorted (List.pairwise_append.mp hsorted).1
    | visit path depth stack entries walk' hstack hroom hentries hchildren =>
      have hadded := add_children_added hchildren
      obtain ⟨added, hstack', hfrom, hall⟩ := hadded.stack
      have hnewest := hadded.listed
      have hdirectories := hadded.directories
      dsimp only at hstack' hnewest hdirectories
      rcases ih hnamed' with honce | ⟨directory, hdirectory, pending, hpending, hbelow⟩ | hunsorted
      · by_cases hagain : ∃ listing ∈ walk.listed, listing.path = path ∧
            ∃ entry ∈ entries, entry.kind = .Directory
        · -- the directory was left before, and shows a directory now
          right; left
          obtain ⟨listing, hlisting, hpath, entry, hentry, hkind⟩ := hagain
          have hnames : ∀ entry ∈ entries, entry.name ≠ [] := by
            apply hnamed ⟨path, entries⟩
            rw [hnewest]
            exact List.mem_append_right _ List.mem_cons_self
          have hleft : path ∈ walk.directories := by
            rw [← hpath]
            rcases (reached_tracked hwalk).listed listing hlisting with
              hdone | ⟨pending, hmem, hvisited, hsame⟩
            · exact hdone
            · have hpairs := (reached_nested hwalk hnamed').below_open
              rw [hstack] at hmem hpairs
              rcases List.mem_cons.mp hmem with rfl | hrest
              · exact absurd hvisited Bool.false_ne_true
              · have hbelow := (List.pairwise_cons.mp hpairs).1 pending hrest hvisited
                rw [hsame, hpath] at hbelow
                exact absurd hbelow (Below.irrefl path)
          obtain ⟨name, hname, heq⟩ := child_path hentries hnames (List.mem_reverse.mpr hentry)
          refine ⟨path, by rw [hdirectories]; exact hleft, ⟨entry.path, depth + 1, false⟩, ?_, ?_⟩
          · rw [hstack']
            exact List.mem_append_left _ (hall entry (List.mem_reverse.mpr hentry) hkind)
          · dsimp only
            rw [heq]
            exact Below.join path hname
        · left
          unfold Once
          rw [hnewest]
          refine List.pairwise_append.mpr ⟨honce, List.pairwise_singleton _ _, ?_⟩
          intro earlier hearlier later hlater hsame entry hentry hkind
          rw [List.mem_singleton.mp hlater] at hsame hentry
          exact hagain ⟨earlier, hearlier, hsame, entry, hentry, hkind⟩
      · right; left
        refine ⟨directory, by rw [hdirectories]; exact hdirectory, ?_⟩
        rw [hstack] at hpending
        rw [hstack']
        rcases List.mem_cons.mp hpending with rfl | hrest
        · exact ⟨⟨path, depth, true⟩, by simp, hbelow⟩
        · exact ⟨pending, by simp [hrest], hbelow⟩
      · right; right
        rw [hdirectories]
        exact hunsorted

end

/-! ### The scripts -/

/-- A line that a deletion sends. -/
inductive RemovalLine where
  | rm (path : Text)
  | rmdir (path : Text)

def RemovalLine.command : RemovalLine → Text
  | .rm _ => "rm".toList
  | .rmdir _ => "rmdir".toList

def RemovalLine.path : RemovalLine → Text
  | .rm path => path
  | .rmdir path => path

/-- What a walk has planned: the files, then the directories. -/
def Walk.plan (walk : Walk) : List RemovalLine :=
  walk.files.map .rm ++ walk.directories.map .rmdir

/-- A script has one line, with one argument, for each of some removals. -/
inductive Writes : List RemovalLine → Text → Prop where
  | none : Writes [] []
  | line {removals : List RemovalLine} {script line : Text} {removal : RemovalLine}
      (h : Writes removals script) (hline : SendsOne removal.command removal.path line) :
      Writes (removals ++ [removal]) (script ++ line)

/-- Some scripts were sent for a first part of some removals. -/
structure Sends (removals : List RemovalLine) (sent sent' : List Text) (complete : Prop) : Prop where
  scripts : ∃ batches scripts, sent' = sent ++ scripts ∧ List.Forall₂ Writes batches scripts ∧
    batches.flatten <+: removals ∧ (complete → batches.flatten = removals)

theorem read_quoted_suffix {quoted path rest : Text} (h : read_quoted quoted = some (path, rest)) :
    rest <:+ quoted := by
  fun_induction read_quoted quoted generalizing path with
  | case1 => cases h
  | case2 tail =>
    rw [← (Prod.mk.inj (Option.some.inj h)).2]
    exact List.suffix_cons _ _
  | case3 c tail ih =>
    obtain ⟨result, hresult, heq⟩ := Option.map_eq_some_iff.mp h
    obtain ⟨_, rfl⟩ := Prod.mk.inj heq
    exact (ih hresult).trans ((List.suffix_cons _ _).trans (List.suffix_cons _ _))
  | case4 => cases h
  | case5 c tail _ _ _ ih =>
    obtain ⟨result, hresult, heq⟩ := Option.map_eq_some_iff.mp h
    obtain ⟨_, rfl⟩ := Prod.mk.inj heq
    exact (ih hresult).trans (List.suffix_cons _ _)

theorem Writes.getLast {removals : List RemovalLine} {script : Text} (h : Writes removals script)
    (hne : script ≠ []) : script.getLast? = some '\n' := by
  cases h with
  | none => exact absurd rfl hne
  | line h hline =>
    obtain ⟨quoted, rfl, hread⟩ := hline
    obtain ⟨front, hfront⟩ := read_quoted_suffix hread
    rw [← hfront, List.getLast?_append, List.getLast?_append, List.getLast?_cons,
      List.getLast?_cons, List.getLast?_append]
    rfl

section
variable (server : Server)

theorem run_batch_sends {removals : List RemovalLine} {script : Text} (sent : List Text)
    (h : Writes removals script) :
    (run_batch server script sent).1 = sent ∧ (run_batch server script sent).2 ≠ .ok () ∨
      (run_batch server script sent).1 = sent ++ [script] := by
  unfold run_batch
  split
  · exact Or.inl ⟨rfl, nofun⟩
  · next hcheck =>
    right
    rw [Bool.or_eq_true, Bool.or_eq_true, not_or, not_or] at hcheck
    have hne : script ≠ [] := by
      intro hnil
      rw [hnil] at hcheck
      exact hcheck.1.1 rfl
    dsimp only
    rw [if_pos (h.getLast hne)]

theorem Sends.nothing (removals : List RemovalLine) (sent : List Text) {complete : Prop}
    (h : ¬complete) : Sends removals sent sent complete :=
  ⟨[], [], (List.append_nil sent).symm, .nil, List.nil_prefix, fun hcomplete => absurd hcomplete h⟩

/-- A script, and then others. -/
theorem Sends.cons {removals more : List RemovalLine} {script : Text} {sent sent' : List Text}
    {complete : Prop} (h : Writes removals script)
    (hmore : Sends more (sent ++ [script]) sent' complete) :
    Sends (removals ++ more) sent sent' complete := by
  obtain ⟨batches, scripts, hsent, hwrites, hstart, hall⟩ := hmore.scripts
  refine ⟨removals :: batches, script :: scripts, ?_, .cons h hwrites, ?_, ?_⟩
  · rw [hsent, List.append_assoc]
    rfl
  · rw [List.flatten_cons]
    exact (List.prefix_append_right_inj _).mpr hstart
  · intro hcomplete
    rw [List.flatten_cons, hall hcomplete]

theorem Writes.eq_nil {removals : List RemovalLine} (h : Writes removals []) : removals = [] := by
  generalize hscript : ([] : Text) = script at h
  cases h with
  | none => rfl
  | line h hline =>
    obtain ⟨quoted, rfl, _⟩ := hline
    have hempty := (List.append_eq_nil_iff.mp hscript.symm).2
    exact absurd (List.append_eq_nil_iff.mp hempty).2 (List.cons_ne_nil _ _)

theorem run_path_commands_sends (remove : Text → RemovalLine)
    (hpath : ∀ path, (remove path).path = path) {command : Text}
    (hcommand : ∀ path, (remove path).command = command) (paths : List Text)
    {removals : List RemovalLine} {script : Text} (sent : List Text) (h : Writes removals script) :
    Sends (removals ++ paths.map remove) sent (run_path_commands server command paths script sent).1
      ((run_path_commands server command paths script sent).2 = .ok ()) := by
  induction paths generalizing removals script sent with
  | nil =>
    unfold run_path_commands
    split
    · next hempty =>
      rw [List.isEmpty_iff] at hempty
      rw [hempty] at h
      rw [h.eq_nil]
      exact ⟨[], [], (List.append_nil sent).symm, .nil, List.nil_prefix, fun _ => rfl⟩
    · rcases run_batch_sends server sent h with ⟨hsame, hfailed⟩ | hsent
      · rw [hsame]
        exact .nothing _ sent hfailed
      · rw [hsent]
        exact .cons h ⟨[], [], (List.append_nil _).symm, .nil, List.nil_prefix, fun _ => rfl⟩
  | cons path paths ih =>
    unfold run_path_commands
    cases hline : batch_command command [path] with
    | error error => exact .nothing _ sent nofun
    | ok line =>
      dsimp only
      have hsends : SendsOne (remove path).command (remove path).path line := by
        rw [hpath, hcommand]
        exact batch_command_sends hline
      have hassoc : removals ++ (path :: paths).map remove =
          removals ++ [remove path] ++ paths.map remove := by
        rw [List.map_cons, List.append_assoc]
        rfl
      split
      · exact .nothing _ sent nofun
      split
      · -- the script is full
        rcases run_batch_sends server sent h with ⟨hsame, hfailed⟩ | hsent
        · cases hbatch : run_batch server script sent with
          | mk sent' result =>
            rw [hbatch] at hsame hfailed
            dsimp only at hsame hfailed
            cases result with
            | error error =>
              dsimp only
              rw [hsame]
              exact .nothing _ sent nofun
            | ok result => exact absurd rfl hfailed
        · cases hbatch : run_batch server script sent with
          | mk sent' result =>
            rw [hbatch] at hsent
            dsimp only at hsent
            cases result with
            | error error =>
              dsimp only
              rw [hsent]
              exact .cons h (.nothing _ _ nofun)
            | ok result =>
              dsimp only
              rw [hsent]
              exact .cons h (ih (sent ++ [script]) (Writes.none.line hsends))
      · rw [hassoc]
        exact ih sent (h.line hsends)

end

/-! ### Deletions -/

/-- What a deletion may remove, and in which order: paths inside its root, and
    no directory before a path below it. -/
def Confined (root : Text) (removals : List RemovalLine) : Prop :=
  (∀ removal ∈ removals, Inside root removal.path) ∧
    removals.Pairwise fun earlier later => ∀ path, earlier = .rmdir path → ¬Below path later.path

theorem Confined.of_start {root : Text} {removals sent : List RemovalLine} (h : sent <+: removals)
    (hconfined : Confined root removals) : Confined root sent :=
  ⟨fun removal hmem => hconfined.1 removal (h.subset hmem), hconfined.2.sublist h.sublist⟩

section
variable {server : Server} {root : Text}

/-- All scripts for some removals, and then those for others. -/
theorem Sends.append {removals more : List RemovalLine} {sent sent' sent'' : List Text}
    {complete complete' : Prop} (h : Sends removals sent sent' complete) (hcomplete : complete)
    (hmore : Sends more sent' sent'' complete') : Sends (removals ++ more) sent sent'' complete' := by
  obtain ⟨batches, scripts, hsent, hwrites, _, hall⟩ := h.scripts
  obtain ⟨batches', scripts', hsent', hwrites', hstart', hall'⟩ := hmore.scripts
  refine ⟨batches ++ batches', scripts ++ scripts', ?_, List.rel_append hwrites hwrites', ?_, ?_⟩
  · rw [hsent', hsent, List.append_assoc]
  · rw [List.flatten_append, hall hcomplete]
    exact (List.prefix_append_right_inj _).mpr hstart'
  · intro hcomplete'
    rw [List.flatten_append, hall hcomplete, hall' hcomplete']

/-- Some scripts for removals that others would have followed. -/
theorem Sends.stop {removals : List RemovalLine} (more : List RemovalLine) {sent sent' : List Text}
    {complete complete' : Prop} (h : Sends removals sent sent' complete) (hnot : ¬complete') :
    Sends (removals ++ more) sent sent' complete' := by
  obtain ⟨batches, scripts, hsent, hwrites, hstart, _⟩ := h.scripts
  exact ⟨batches, scripts, hsent, hwrites, hstart.trans (List.prefix_append _ _),
    fun hcomplete => absurd hcomplete hnot⟩

/-- The scripts of a deletion are written for what its walk has planned, if it
    is complete. -/
theorem delete_tree_sends (server : Server) (root : Text) :
    (delete_tree server root).walk = (walk_tree server (.start root)).1 ∧
      Sends (delete_tree server root).walk.plan [] (delete_tree server root).scripts
        (∃ paths, (delete_tree server root).result = .ok paths) ∧
      ((delete_tree server root).scripts ≠ [] ∨
          (∃ paths, (delete_tree server root).result = .ok paths) →
        (walk_tree server (.start root)).2 = .ok ()) := by
  unfold delete_tree
  cases hwalk : walk_tree server (.start root) with
  | mk walk outcome =>
    cases outcome with
    | error error =>
      refine ⟨rfl, .nothing _ [] nofun, ?_⟩
      rintro (hsome | ⟨paths, hresult⟩)
      · exact absurd rfl hsome
      · cases hresult
    | ok outcome =>
      dsimp only
      have hfiles : Sends (walk.files.map .rm) []
          (run_path_commands server "rm".toList walk.files [] []).1
          ((run_path_commands server "rm".toList walk.files [] []).2 = .ok ()) :=
        run_path_commands_sends server .rm (fun _ => rfl) (fun _ => rfl) walk.files [] .none
      cases hrm : run_path_commands server "rm".toList walk.files [] [] with
      | mk scripts result =>
        rw [hrm] at hfiles
        cases result with
        | error error => exact ⟨rfl, hfiles.stop _ nofun, fun _ => rfl⟩
        | ok result =>
          dsimp only
          have hdirectories : Sends (walk.directories.map .rmdir) scripts
              (run_path_commands server "rmdir".toList walk.directories [] scripts).1
              ((run_path_commands server "rmdir".toList walk.directories [] scripts).2 = .ok ()) :=
            run_path_commands_sends server .rmdir (fun _ => rfl) (fun _ => rfl) walk.directories
              scripts .none
          cases hrmdir : run_path_commands server "rmdir".toList walk.directories [] scripts with
          | mk scripts' result' =>
            rw [hrmdir] at hdirectories
            have hall := hfiles.append rfl hdirectories
            cases result' with
            | error error =>
              obtain ⟨batches, sent, hsent, hwrites, hstart, hcomplete⟩ := hall.scripts
              exact ⟨rfl, ⟨batches, sent, hsent, hwrites, hstart, nofun⟩, fun _ => rfl⟩
            | ok result' =>
              obtain ⟨batches, sent, hsent, hwrites, hstart, hcomplete⟩ := hall.scripts
              exact ⟨rfl, ⟨batches, sent, hsent, hwrites, hstart, fun _ => hcomplete rfl⟩,
                fun _ => rfl⟩

/-- What a complete walk has planned is confined when its listings show no name
    that is cut to nothing, and no directory in one that was left before. -/
theorem plan_confined {walk : Walk} (h : Reached server root walk) (hnamed : Named walk)
    (honce : Once walk) : Confined root walk.plan := by
  have hnested := reached_nested h hnamed
  have hordered := reached_ordered h hnamed honce
  constructor
  · intro removal hmem
    rcases List.mem_append.mp hmem with hfile | hdirectory
    · obtain ⟨path, hpath, rfl⟩ := List.mem_map.mp hfile
      exact hnested.files path hpath
    · obtain ⟨path, hpath, rfl⟩ := List.mem_map.mp hdirectory
      exact hnested.directories path hpath
  · refine List.pairwise_append.mpr ⟨?_, ?_, ?_⟩
    · refine List.pairwise_map.mpr (List.pairwise_of_forall_mem_list ?_)
      intro a _ b _ path heq
      cases heq
    · refine List.pairwise_map.mpr (hordered.sorted.imp ?_)
      intro a b hbelow path heq
      rw [← RemovalLine.rmdir.inj heq]
      exact hbelow
    · intro a ha b _ path heq
      obtain ⟨file, _, rfl⟩ := List.mem_map.mp ha
      cases heq

/-- Where the root has no slash at its end, nothing else makes a complete plan
    confined. -/
theorem of_plan_confined {walk : Walk} (h : Reached server root walk) (hstack : walk.stack = [])
    (hroot : root.getLast? ≠ some '/') (hconfined : Confined root walk.plan) :
    Named walk ∧ Once walk := by
  have htracked := reached_tracked h
  have hplanned : ∀ path, path ∈ walk.files ∨ path ∈ walk.directories → Inside root path := by
    rintro path (hfile | hdirectory)
    · exact hconfined.1 (.rm path) (List.mem_append_left _ (List.mem_map_of_mem hfile))
    · exact hconfined.1 (.rmdir path) (List.mem_append_right _ (List.mem_map_of_mem hdirectory))
  have hslash : ∀ path, Inside root path → path.getLast? ≠ some '/' := by
    intro path hinside
    rcases hinside.getLast with rfl | hnone
    · exact hroot
    · exact hnone
  have hnamed : Named walk := by
    intro listing hlisting entry hentry hnil
    obtain ⟨hof, hkept⟩ := htracked.entries listing hlisting entry hentry
    -- the path of such an entry is that of the directory and a slash
    have hinside : Inside root entry.path := by
      apply hplanned
      rcases hkept with hfile | hdirectory | ⟨pending, hmem, _⟩
      · exact Or.inl hfile
      · exact Or.inr hdirectory
      · rw [hstack] at hmem
        exact absurd hmem List.not_mem_nil
    apply hslash entry.path hinside
    rw [hof.path, hnil, remote_join_eq, List.append_nil]
    split
    · next hlast => exact hlast
    · rw [List.getLast?_append]
      rfl
  refine ⟨hnamed, ?_⟩
  rcases reached_broken h hnamed with honce | ⟨_, _, pending, hmem, _⟩ | hunsorted
  · exact honce
  · rw [hstack] at hmem
    exact absurd hmem List.not_mem_nil
  · exfalso
    apply hunsorted
    have hpairs := List.pairwise_map.mp (List.pairwise_append.mp hconfined.2).2.1
    exact hpairs.imp fun hbelow => hbelow _ rfl

end

/-! ### A name with a slash at its end -/

theorem walk_tree_next {server : Server} {walk walk' : Walk}
    (h : turn server walk = .ok (some walk')) : walk_tree server walk = walk_tree server walk' := by
  conv_lhs => unfold walk_tree
  split
  · next herror =>
    have hfalse := herror.symm.trans h
    cases hfalse
  · next hnone =>
    have hfalse := hnone.symm.trans h
    cases hfalse
  · next hnext => rw [Option.some.inj (Except.ok.inj (hnext.symm.trans h))]

theorem walk_tree_done {server : Server} {walk : Walk} (h : turn server walk = .ok none) :
    walk_tree server walk = (walk, .ok ()) := by
  unfold walk_tree
  split
  · next herror =>
    have hfalse := herror.symm.trans h
    cases hfalse
  · rfl
  · next hnext =>
    have hfalse := hnext.symm.trans h
    cases hfalse

/-- A server whose listings show one file, with a slash after its name. -/
def slash_server : Server where
  to_lowercase := id
  listing := fun _ => .ok "-rw-r--r-- 1 0 0 1 Aug 1 12:34 y/\n".toList
  batch := fun _ => .ok ()

/-- What its listing of a directory shows. -/
def slash_entry : ListedEntry :=
  { kind := .File, path := "/t/x/".toList, name := [], size := 1, permissions := "-rw-r--r--".toList }

theorem slash_server_walk :
    ∃ listed, walk_tree slash_server (.start "/t/x".toList) =
      (⟨[], ["/t/x/".toList], ["/t/x".toList], 2, 9, listed⟩, .ok ()) := by
  have hparsed : parse_long_listing "-rw-r--r-- 1 0 0 1 Aug 1 12:34 y/\n".toList "/t/x".toList =
      .ok [slash_entry] := by decide +kernel
  have hentries : list_entries id ⟨"/t/x".toList, true⟩ (slash_server.listing 0) =
      .ok [slash_entry] := by
    have hvalid : validate_remote_path "/t/x".toList = .ok () := by decide
    have hscript : batch_command "ls -lan".toList ["/t/x".toList] =
        .ok "ls -lan \"/t/x\"\n".toList := by decide +kernel
    unfold list_entries slash_server
    rw [hvalid, hscript]
    dsimp only [bind, Except.bind]
    rw [hparsed]
    dsimp only
    have hfilter : ([slash_entry].filter fun entry =>
        entry.name ≠ ".".toList && entry.name ≠ "..".toList) = [slash_entry] := by decide
    rw [hfilter, if_pos rfl, List.mergeSort_singleton]
  refine ⟨[⟨"/t/x".toList, [slash_entry]⟩], ?_⟩
  have hvisit : turn slash_server (.start "/t/x".toList) =
      .ok (some ⟨[⟨"/t/x".toList, 0, true⟩], ["/t/x/".toList], [], 2, 9,
        [⟨"/t/x".toList, [slash_entry]⟩]⟩) := by
    have hturn : turn slash_server (.start "/t/x".toList) =
        (list_entries id ⟨"/t/x".toList, true⟩ (slash_server.listing 0)).bind fun entries =>
          (add_children 0 entries.reverse { Walk.start "/t/x".toList with
            stack := [⟨"/t/x".toList, 0, true⟩]
            listed := [⟨"/t/x".toList, entries⟩] }).bind fun walk => .ok (some walk) := rfl
    rw [hturn, hentries]
    rfl
  have hleave : turn slash_server ⟨[⟨"/t/x".toList, 0, true⟩], ["/t/x/".toList], [], 2, 9,
        [⟨"/t/x".toList, [slash_entry]⟩]⟩ =
      .ok (some ⟨[], ["/t/x/".toList], ["/t/x".toList], 2, 9,
        [⟨"/t/x".toList, [slash_entry]⟩]⟩) := rfl
  rw [walk_tree_next hvisit, walk_tree_next hleave]
  exact walk_tree_done rfl

end Sftp
