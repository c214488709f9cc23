import RemoteDeck.Lib.Lexical
import RemoteDeck.Sftp.DeleteTree

/-! # Paths of destructive operations

    `validate_destructive_remote_path` keeps deletions, renames and transfers
    away from the root and the home directory.

    This file defines:
    - `IsName`: a component that is the name of a file
    - `NormalPath`: a start and names below it
    - `normalise`: the normal path of a text, without looking at any file
    - `LeadsBelow`: the paths that a destructive operation may be given

    The check counts components where `normalise` keeps them.  The main result
    is `destructive_iff`; normal paths are their own normal paths
    (`normalise_text`), and a path that is accepted stays below its start in
    every tree without links (`destructive_walk`).
-/

namespace Sftp

open Lexical (Move)

/-! ### Components -/

/-- What a component of a remote path does. -/
def move_of (component : Text) : Move Text :=
  if component.isEmpty || component = ".".toList then .stay
  else if component = "..".toList then .up
  else .down component

def moves_of (rest : Text) : List (Move Text) := (rest.split '/').map move_of

structure IsName (name : Text) : Prop where
  not_empty : name ≠ []
  not_dot : name ≠ ".".toList
  not_dots : name ≠ "..".toList
  no_slash : '/' ∉ name

theorem move_of_name {name : Text} (h : IsName name) : move_of name = .down name := by
  unfold move_of
  rw [if_neg, if_neg h.not_dots]
  rw [Bool.or_eq_true, List.isEmpty_iff, decide_eq_true_eq]
  exact fun hsame => hsame.elim h.not_empty h.not_dot

/-- A path goes down to names only. -/
theorem isName_of_move {rest name : Text} (h : .down name ∈ moves_of rest) : IsName name := by
  obtain ⟨component, hcomponent, hmove⟩ := List.mem_map.mp h
  unfold move_of at hmove
  split_ifs at hmove with hstay hup
  obtain rfl := Move.down.inj hmove
  rw [Bool.or_eq_true, List.isEmpty_iff, decide_eq_true_eq, not_or] at hstay
  refine ⟨hstay.1, hstay.2, hup, fun hslash => ?_⟩
  have hseparator := Text.splitOnP_no_separator hcomponent '/' hslash
  cases hseparator

/-! ### Normal paths -/

inductive Start where
  | root
  | home
  deriving DecidableEq

def Start.text : Start → Text
  | .root => "/".toList
  | .home => "~/".toList

/-- Names below a start, the first one first. -/
@[ext]
structure NormalPath where
  start : Start
  names : List Text
  are_names : ∀ name ∈ names, IsName name

def NormalPath.text (path : NormalPath) : Text := path.start.text ++ Text.join '/' path.names

/-- Resolve what is behind a start. -/
def resolve_from (start : Start) (rest : Text) : Option NormalPath :=
  match hplace : Lexical.resolve [] (moves_of rest) with
  | none => none
  | some place =>
      some
        { start := start
          names := place.reverse
          are_names := by
            intro name hname
            rcases Lexical.mem_of_resolve hplace (List.mem_reverse.mp hname) with hnone | hmove
            · cases hnone
            · exact isName_of_move hmove }

/-- A path without a start has no normal path, and neither has one that climbs
    above its start. -/
def normalise : Text → Option NormalPath
  | '/' :: rest => resolve_from .root rest
  | '~' :: '/' :: rest => resolve_from .home rest
  | _ => none

/-- A path that is not padded, begins at a start, never climbs above it and
    ends below it. -/
structure LeadsBelow (path : Text) : Prop where
  unpadded : path.trim = path
  started : path.starts_with Start.root.text = true ∨ path.starts_with Start.home.text = true
  below : ∃ normal, normalise path = some normal ∧ normal.names ≠ []

theorem normalise_start (start : Start) (rest : Text) :
    normalise (start.text ++ rest) = resolve_from start rest := by
  cases start <;> rfl

theorem resolve_from_eq_some {start : Start} {rest : Text} {normal : NormalPath} :
    resolve_from start rest = some normal ↔
      normal.start = start ∧ Lexical.resolve [] (moves_of rest) = some normal.names.reverse := by
  unfold resolve_from
  split
  · next hnone =>
    rw [hnone]
    exact iff_of_false (fun h => nomatch h) fun h => nomatch h.2
  · next place hplace =>
    constructor
    · intro h
      obtain rfl := Option.some.inj h
      exact ⟨rfl, hplace.trans (congrArg some (List.reverse_reverse place).symm)⟩
    · rintro ⟨rfl, hsame⟩
      obtain rfl := Option.some.inj (hplace.symm.trans hsame)
      exact congrArg some (NormalPath.ext rfl (List.reverse_reverse _))

theorem resolve_from_isSome {start : Start} {rest : Text} {place : List Text}
    (h : Lexical.resolve [] (moves_of rest) = some place) :
    ∃ normal, resolve_from start rest = some normal := by
  unfold resolve_from
  split
  · next hnone =>
    rw [h] at hnone
    cases hnone
  · exact ⟨_, rfl⟩

/-- A path that begins at a start leads below it if its moves do. -/
theorem resolve_from_below {start : Start} {rest : Text} :
    (∃ normal, resolve_from start rest = some normal ∧ normal.names ≠ []) ↔
      ∃ place, Lexical.resolve [] (moves_of rest) = some place ∧ place ≠ [] := by
  constructor
  · rintro ⟨normal, hnormal, hnames⟩
    obtain ⟨-, hplace⟩ := resolve_from_eq_some.mp hnormal
    exact ⟨_, hplace, fun hnil => hnames (List.reverse_eq_nil_iff.mp hnil)⟩
  · rintro ⟨place, hplace, hne⟩
    obtain ⟨normal, hnormal⟩ := @resolve_from_isSome start rest place hplace
    obtain ⟨-, hsame⟩ := resolve_from_eq_some.mp hnormal
    rw [hplace, Option.some.injEq] at hsame
    refine ⟨normal, hnormal, fun hnil => hne ?_⟩
    rw [hsame, hnil]
    rfl

/-! ### The check -/

/-- The check counts the names of the place. -/
theorem component_depth_eq (components : List Text) (depth : Nat) :
    component_depth components depth = Lexical.depth depth (components.map move_of) := by
  induction components generalizing depth with
  | nil => rfl
  | cons component components ih =>
    unfold component_depth
    rw [List.map_cons]
    unfold move_of
    split_ifs with hstay hup hzero
    · exact ih depth
    · rw [hzero]
      rfl
    · obtain ⟨level, rfl⟩ := Nat.exists_eq_succ_of_ne_zero hzero
      exact ih level
    · exact ih (depth + 1)

theorem moves_of_slash (rest : Text) : moves_of ('/' :: rest) = .stay :: moves_of rest := by
  have hsplit : Text.split '/' ('/' :: rest) = [] :: Text.split '/' rest :=
    List.splitOn_append_cons_self [] rest
  unfold moves_of
  rw [hsplit]
  rfl

/-- Leading slashes do not count. -/
theorem depth_slashes (rest : Text) (depth : Nat) :
    Lexical.depth depth (moves_of (rest.dropWhile (· = '/'))) = Lexical.depth depth (moves_of rest) := by
  induction rest with
  | nil => rfl
  | cons c rest ih =>
    by_cases hc : c = '/'
    · rw [hc, moves_of_slash, List.dropWhile_cons_of_pos (by simp), ih]
      cases depth <;> rfl
    · rw [List.dropWhile_cons_of_neg (by simpa using hc)]

/-- The count is positive if there is a place below the start. -/
theorem count_below (rest : Text) :
    (∃ level, Lexical.depth 0 (moves_of rest) = some level ∧ level ≠ 0) ↔
      ∃ place, Lexical.resolve [] (moves_of rest) = some place ∧ place ≠ [] := by
  have hdepth := Lexical.depth_resolve [] (moves_of rest)
  rw [List.length_nil] at hdepth
  rw [hdepth]
  constructor
  · rintro ⟨level, hlevel, hne⟩
    obtain ⟨place, hplace, rfl⟩ := Option.map_eq_some_iff.mp hlevel
    exact ⟨place, hplace, fun hnil => hne (hnil ▸ rfl)⟩
  · rintro ⟨place, hplace, hne⟩
    exact ⟨place.length, by rw [hplace]; rfl, fun hnone => hne (List.length_eq_zero_iff.mp hnone)⟩

/-- The paths that the check lists are starts, or have none. -/
theorem listed_not_below {value : String} (hvalue : value ∈ ["/", "//", ".", "..", "~", "~/"])
    {normal : NormalPath} (hnormal : normalise value.toList = some normal) : normal.names = [] := by
  have hall : ["/", "//", ".", "..", "~", "~/"].all (fun value =>
      ((normalise value.toList).map NormalPath.names).all List.isEmpty) = true := by
    decide +kernel
  have hnone := List.all_eq_true.mp hall value hvalue
  rw [hnormal] at hnone
  exact List.isEmpty_iff.mp hnone

theorem starts_with_root (path : Text) :
    path.starts_with Start.root.text = true ↔ path.head? = some '/' := by
  cases path with
  | nil => exact iff_of_false (fun h => nomatch h) fun h => nomatch h
  | cons c rest =>
    show ('/' == c && true) = true ↔ some c = some '/'
    rw [Bool.and_true, beq_iff_eq, Option.some.injEq]
    exact eq_comm

theorem started_cases {path : Text}
    (h : path.head? = some '/' ∨ path.starts_with Start.home.text = true) :
    (∃ rest, path = '/' :: rest) ∨ ∃ rest, path = '~' :: '/' :: rest := by
  rcases h with hroot | hhome
  · obtain ⟨rest, hrest⟩ := List.head?_eq_some_iff.mp hroot
    exact .inl ⟨rest, hrest⟩
  · obtain ⟨rest, hrest⟩ := List.isPrefixOf_iff_prefix.mp hhome
    exact .inr ⟨rest, hrest.symm⟩

/-- What is counted is behind the start. -/
theorem counted_below {path : Text} (hunpadded : path.trim = path)
    (hstarted : path.head? = some '/' ∨ path.starts_with Start.home.text = true) :
    (∃ level, component_depth
        (Text.split '/' ((path.strip_leading "~/".toList).getD (path.dropWhile (· = '/')))) 0 =
          some level ∧ level ≠ 0) ↔ LeadsBelow path := by
  have hbelow : ∀ {start : Start} {rest : Text}, normalise path = resolve_from start rest →
      ((∃ level, Lexical.depth 0 (moves_of rest) = some level ∧ level ≠ 0) ↔ LeadsBelow path) := by
    intro start rest hnormalise
    have hbehind := @resolve_from_below start rest
    rw [count_below, ← hbehind, ← hnormalise]
    exact ⟨fun hbelow => ⟨hunpadded, hstarted.imp (starts_with_root path).mpr id, hbelow⟩, LeadsBelow.below⟩
  rcases started_cases hstarted with ⟨rest, rfl⟩ | ⟨rest, rfl⟩
  · have hsuffix : (Text.strip_leading ('/' :: rest) "~/".toList).getD
        (List.dropWhile (· = '/') ('/' :: rest)) = rest.dropWhile (· = '/') := rfl
    have hcount : component_depth (Text.split '/' (rest.dropWhile (· = '/'))) 0 =
        Lexical.depth 0 (moves_of rest) :=
      (component_depth_eq _ 0).trans (depth_slashes rest 0)
    rw [hsuffix, hcount]
    exact hbelow rfl
  · have hstrip : Text.strip_leading ('~' :: '/' :: rest) "~/".toList = some rest :=
      Text.strip_leading_append "~/".toList rest
    have hcount : component_depth (Text.split '/' rest) 0 = Lexical.depth 0 (moves_of rest) :=
      component_depth_eq _ 0
    rw [hstrip, Option.getD_some, hcount]
    exact hbelow rfl

/-- **The check**: a path is dangerous unless it leads below its start. -/
theorem dangerous_iff (path : Text) : remote_path_is_dangerous path = false ↔ LeadsBelow path := by
  unfold remote_path_is_dangerous
  by_cases hpadded : path = path.trim
  · rw [if_neg (not_not.mpr hpadded)]
    by_cases hlisted : (path.isEmpty ||
        ["/", "//", ".", "..", "~", "~/"].any fun value => path = value.toList) = true
    · rw [if_pos hlisted]
      refine iff_of_false (fun h => nomatch h) fun h => ?_
      obtain ⟨normal, hnormal, hnames⟩ := h.below
      rw [Bool.or_eq_true, List.isEmpty_iff, List.any_eq_true] at hlisted
      rcases hlisted with rfl | ⟨value, hvalue, hpath⟩
      · cases hnormal
      · rw [of_decide_eq_true hpath] at hnormal
        exact hnames (listed_not_below hvalue hnormal)
    · rw [if_neg hlisted]
      by_cases hstarted : path.head? = some '/' ∨ path.starts_with Start.home.text = true
      · rw [if_neg]
        · rw [← counted_below hpadded.symm hstarted]
          dsimp only
          generalize component_depth _ 0 = count
          cases count <;> simp
        · rw [Bool.and_eq_true, decide_eq_true_eq, Bool.not_eq_true', ← Bool.not_eq_true]
          exact fun hboth => hstarted.elim hboth.1 hboth.2
      · rw [if_pos]
        · refine iff_of_false (fun h => nomatch h) fun h => hstarted ?_
          exact h.started.imp (starts_with_root path).mp id
        · rw [not_or] at hstarted
          rw [Bool.and_eq_true, decide_eq_true_eq, Bool.not_eq_true', ← Bool.not_eq_true]
          exact hstarted
  · rw [if_pos hpadded]
    exact iff_of_false (fun h => nomatch h) fun h => hpadded h.unpadded.symm

theorem destructive_ok_iff (path : Text) : validate_destructive_remote_path path = .ok () ↔
    validate_remote_path path = .ok () ∧ LeadsBelow path := by
  unfold validate_destructive_remote_path
  rw [← dangerous_iff, Outcome.bind_eq_ok]
  constructor
  · rintro ⟨_, hvalid, hcheck⟩
    exact ⟨hvalid, Bool.eq_false_iff.mpr (Outcome.ite_error_eq_ok.mp hcheck).1⟩
  · rintro ⟨hvalid, hsafe⟩
    exact ⟨(), hvalid, Outcome.ite_error_eq_ok.mpr ⟨Bool.eq_false_iff.mp hsafe, rfl⟩⟩

/-- **Destructive paths**: of the remote paths that are valid, the ones that
    may be destroyed are those whose normal path is below its start. -/
theorem destructive_iff (path : Text) (hvalid : validate_remote_path path = .ok ()) :
    validate_destructive_remote_path path = .ok () ↔ LeadsBelow path := by
  rw [destructive_ok_iff, and_iff_right hvalid]

theorem dotted_path_below : LeadsBelow "~/data/.//../logs".toList :=
  (destructive_iff "~/data/.//../logs".toList (by decide)).mp (by decide +kernel)

/-! ### Normal paths are normal -/

theorem moves_of_join {names : List Text} (hnames : ∀ name ∈ names, IsName name) (hne : names ≠ []) :
    moves_of (Text.join '/' names) = names.map .down := by
  have hsplit : Text.split '/' (Text.join '/' names) = names :=
    List.splitOn_intercalate '/' (fun name hname => (hnames name hname).no_slash) hne
  unfold moves_of
  rw [hsplit]
  exact List.map_congr_left fun name hname => move_of_name (hnames name hname)

theorem resolve_from_join (normal : NormalPath) :
    resolve_from normal.start (Text.join '/' normal.names) = some normal := by
  refine resolve_from_eq_some.mpr ⟨rfl, ?_⟩
  by_cases hne : normal.names = []
  · rw [hne]
    rfl
  · rw [moves_of_join normal.are_names hne, Lexical.resolve_names, List.append_nil]

/-- The text of a normal path has that normal path. -/
theorem normalise_text (normal : NormalPath) : normalise normal.text = some normal := by
  unfold NormalPath.text
  rw [normalise_start]
  exact resolve_from_join normal

/-! ### Trees -/

/-- Where a path leads from the directory of its start, if no link is on the way. -/
def destination (base : List Text) (rest : Text) : List Text := Lexical.walk base (moves_of rest)

theorem LeadsBelow.place {path : Text} (h : LeadsBelow path) :
    ∃ start rest, path = Start.text start ++ rest ∧
      ∃ place, Lexical.resolve [] (moves_of rest) = some place ∧ place ≠ [] := by
  have hbelow := h.below
  rcases started_cases (h.started.imp (starts_with_root path).mp id) with ⟨rest, rfl⟩ | ⟨rest, rfl⟩
  · exact ⟨.root, rest, rfl, resolve_from_below.mp hbelow⟩
  · exact ⟨.home, rest, rfl, resolve_from_below.mp hbelow⟩

/-- **No start is destroyed**: on its way an accepted path never leaves the
    directory of its start, and it ends below it. -/
theorem destructive_walk {path : Text} (h : validate_destructive_remote_path path = .ok ())
    (base : List Text) :
    ∃ start rest, path = Start.text start ++ rest ∧
      (∀ front, front <+: moves_of rest → base <:+ Lexical.walk base front) ∧
      ∃ place, place ≠ [] ∧ destination base rest = place ++ base := by
  obtain ⟨start, rest, hpath, place, hplace, hne⟩ := ((destructive_ok_iff path).mp h).2.place
  refine ⟨start, rest, hpath, fun front hfront => Lexical.walk_suffix base hfront hplace, place, hne, ?_⟩
  exact Lexical.walk_resolve base hplace

/-- On its way this path goes up again, to the home and no further. -/
theorem dotted_path_walk : ∃ start rest, "~/data/.//../logs".toList = Start.text start ++ rest ∧
    (∀ front, front <+: moves_of rest → ["home".toList] <:+ Lexical.walk ["home".toList] front) ∧
      ∃ place, place ≠ [] ∧ destination ["home".toList] rest = place ++ ["home".toList] :=
  destructive_walk (by decide +kernel) ["home".toList]

end Sftp
