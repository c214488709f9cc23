import Mathlib.Data.List.AList

/-! # File trees

    Files and directories under their paths, and the calls that make and
    remove them one at a time.

    This file defines:
    - `Path`, `Node` and `Tree`: the nodes that exist, with their paths
    - `place`: a call that makes a node and replaces none
    - `write`, `unlink`, `remove_directory`
    - `Rooted`: every node is in a directory
    - `Within`: from one tree to another no file outside of some paths has
      changed

    A call is `Within` the path that it is made for, and `place` is within no
    path at all.
-/

namespace Files

variable {Name Contents : Type}

inductive Path (Name : Type) where
  | root
  | join (directory : Path Name) (name : Name)
  deriving DecidableEq

def Path.parent : Path Name → Option (Path Name)
  | .root => none
  | .join directory _ => some directory

/-- Links and devices are `other` nodes. -/
inductive Node (Contents : Type) where
  | directory
  | file (contents : Contents)
  | other
  deriving DecidableEq

abbrev Tree (Name Contents : Type) := AList fun _ : Path Name => Node Contents

variable [DecidableEq Name] {tree tree' tree'' : Tree Name Contents} {path : Path Name}

/-! ### Trees and their changes -/

/-- Every node but the root is in a directory. -/
def Rooted (tree : Tree Name Contents) : Prop :=
  ∀ directory name node, tree.lookup (.join directory name) = some node →
    tree.lookup directory = some .directory

/-- No file outside of some paths has changed. -/
structure Within (paths : Path Name → Prop) (tree tree' : Tree Name Contents) : Prop where
  kept : ∀ path node, node ≠ .directory → tree.lookup path = some node → ¬ paths path →
    tree'.lookup path = some node
  rooted : Rooted tree → Rooted tree'

namespace Within

variable {paths paths' : Path Name → Prop}

theorem refl (tree : Tree Name Contents) : Within paths tree tree :=
  ⟨fun _ _ _ hlookup _ => hlookup, id⟩

theorem trans (h : Within paths tree tree') (h' : Within paths tree' tree'') :
    Within paths tree tree'' := by
  constructor
  · intro path node hnode hlookup hout
    exact h'.kept path node hnode (h.kept path node hnode hlookup hout) hout
  · exact fun hrooted => h'.rooted (h.rooted hrooted)

theorem mono (hle : ∀ path, paths path → paths' path) (h : Within paths tree tree') :
    Within paths' tree tree' :=
  ⟨fun path node hnode hlookup hout => h.kept path node hnode hlookup fun hin => hout (hle path hin),
    h.rooted⟩

end Within

/-- What is below a path that is not there is not there. -/
theorem lookup_below (hrooted : Rooted tree) (hnone : tree.lookup path = none) (name : Name) :
    tree.lookup (.join path name) = none := by
  cases hfound : tree.lookup (.join path name) with
  | none => rfl
  | some node =>
    have hdirectory := hrooted path name node hfound
    rw [hnone] at hdirectory
    cases hdirectory

/-- Nodes are removed from a rooted tree from below. -/
theorem erase_within (hbelow : ∀ name node, tree.lookup (.join path name) ≠ some node) :
    Within (fun other => other = path) tree (tree.erase path) := by
  constructor
  · intro other node _ hlookup hout
    rw [AList.lookup_erase_ne hout]
    exact hlookup
  · intro hrooted directory name node hlookup
    have hother : Path.join directory name ≠ path := by
      intro hsame
      rw [hsame, AList.lookup_erase] at hlookup
      cases hlookup
    rw [AList.lookup_erase_ne hother] at hlookup
    have hne : directory ≠ path := by
      rintro rfl
      exact hbelow name node hlookup
    rw [AList.lookup_erase_ne hne]
    exact hrooted directory name node hlookup

/-! ### Calls -/

variable [DecidableEq Contents]

/-- The directory of a path is there. -/
def in_directory (tree : Tree Name Contents) : Path Name → Bool
  | .root => false
  | .join directory _ => tree.lookup directory = some .directory

/-- Make a node that was not there. -/
def place (tree : Tree Name Contents) (path : Path Name) (node : Node Contents) :
    Option (Tree Name Contents) :=
  if tree.lookup path = none ∧ in_directory tree path = true then some (tree.insert path node) else none

/-- Make or overwrite a file. -/
def write (tree : Tree Name Contents) (path : Path Name) (contents : Contents) :
    Option (Tree Name Contents) :=
  match tree.lookup path with
  | none => place tree path (.file contents)
  | some (.file _) => some (tree.insert path (.file contents))
  | some _ => none

/-- Remove what is no directory. -/
def unlink (tree : Tree Name Contents) (path : Path Name) : Tree Name Contents :=
  if tree.lookup path = some .directory then tree else tree.erase path

/-- Remove an empty directory. -/
def remove_directory (tree : Tree Name Contents) (path : Path Name) : Tree Name Contents :=
  if tree.lookup path = some .directory ∧ ∀ below ∈ tree.keys, below.parent ≠ some path then
    tree.erase path
  else tree

/-- The first directory on the way to a path that is missing, if what is there
    are directories. -/
def missing_directory (tree : Tree Name Contents) : Path Name → Option (Path Name)
  | .root => none
  | .join directory name =>
      if tree.lookup directory = some .directory then some (.join directory name)
      else missing_directory tree directory

/-! ### What the calls do -/

theorem place_eq_some {node : Node Contents} :
    place tree path node = some tree' ↔
      (tree.lookup path = none ∧ in_directory tree path = true) ∧ tree.insert path node = tree' := by
  unfold place
  rw [Option.ite_none_right_eq_some, Option.some.injEq]

/-- The node is there, and no node was there before. -/
theorem lookup_place {node : Node Contents} (h : place tree path node = some tree') :
    tree.lookup path = none ∧ tree'.lookup path = some node := by
  obtain ⟨⟨hnone, -⟩, rfl⟩ := place_eq_some.mp h
  exact ⟨hnone, AList.lookup_insert tree⟩

theorem place_within {node : Node Contents} (h : place tree path node = some tree') :
    Within (fun _ => False) tree tree' := by
  obtain ⟨⟨hnone, hparent⟩, rfl⟩ := place_eq_some.mp h
  have hne : ∀ other found, tree.lookup other = some found → other ≠ path := by
    rintro other found hfound rfl
    rw [hnone] at hfound
    cases hfound
  constructor
  · intro other found _ hfound _
    rw [AList.lookup_insert_ne (hne other found hfound)]
    exact hfound
  · intro hrooted directory name found hfound
    have hdirectory : tree.lookup directory = some .directory := by
      by_cases hsame : Path.join directory name = path
      · rw [← hsame] at hparent
        exact of_decide_eq_true hparent
      · rw [AList.lookup_insert_ne hsame] at hfound
        exact hrooted directory name found hfound
    rw [AList.lookup_insert_ne (hne directory _ hdirectory)]
    exact hdirectory

/-- The contents are there. -/
theorem lookup_write {contents : Contents} (h : write tree path contents = some tree') :
    tree'.lookup path = some (.file contents) := by
  unfold write at h
  cases hfound : tree.lookup path with
  | none =>
    rw [hfound] at h
    exact (lookup_place h).2
  | some node =>
    rw [hfound] at h
    cases node with
    | file before =>
      obtain rfl := Option.some.inj h
      exact AList.lookup_insert tree
    | directory => cases h
    | other => cases h

theorem write_within {contents : Contents} (h : write tree path contents = some tree') :
    Within (fun other => other = path) tree tree' := by
  unfold write at h
  cases hfound : tree.lookup path with
  | none =>
    rw [hfound] at h
    exact (place_within h).mono fun _ hfalse => hfalse.elim
  | some node =>
    rw [hfound] at h
    cases node with
    | directory => cases h
    | other => cases h
    | file before =>
      obtain rfl := Option.some.inj h
      constructor
      · intro other node _ hlookup hout
        rw [AList.lookup_insert_ne hout]
        exact hlookup
      · intro hrooted directory name node hlookup
        have hdirectory : tree.lookup directory = some .directory := by
          by_cases hsame : Path.join directory name = path
          · exact hrooted directory name (.file before) (hsame ▸ hfound)
          · rw [AList.lookup_insert_ne hsame] at hlookup
            exact hrooted directory name node hlookup
        -- the file that is overwritten is no directory
        have hne : directory ≠ path := by
          rintro rfl
          rw [hfound] at hdirectory
          cases hdirectory
        rw [AList.lookup_insert_ne hne]
        exact hdirectory

theorem unlink_within (hrooted : Rooted tree) :
    Within (fun other => other = path) tree (unlink tree path) := by
  unfold unlink
  split_ifs with hdirectory
  · exact .refl tree
  · exact erase_within fun name node hlookup => hdirectory (hrooted path name node hlookup)

theorem remove_directory_within : Within (fun _ => False) tree (remove_directory tree path) := by
  unfold remove_directory
  split_ifs with hempty
  · obtain ⟨hdirectory, hbelow⟩ := hempty
    have herase : Within (fun other => other = path) tree (tree.erase path) := by
      refine erase_within fun name node hlookup => ?_
      have hmem : Path.join path name ∈ tree.keys :=
        AList.mem_keys.mp (AList.lookup_isSome.mp (hlookup ▸ rfl))
      exact hbelow _ hmem rfl
    refine ⟨fun other node hnode hlookup _ => ?_, herase.rooted⟩
    -- only a directory is removed
    refine herase.kept other node hnode hlookup ?_
    rintro rfl
    rw [hdirectory, Option.some.injEq] at hlookup
    exact hnode hlookup.symm
  · exact .refl tree

end Files
