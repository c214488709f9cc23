import RemoteDeck.Keys.Progress

/-! # Publishing key pairs

    Calls of `generate_key` that take turns publish pairs that belong
    together and replace no file.

    This file defines:
    - `Publishes`: what holds of the files in every run
    - `Apart`: no destination is a key file of a workspace
    - `Inv`: the invariant of the runs

    Files are made where nothing was, so a file is safe unless it is in a
    workspace that is in use, and two calls never use one workspace.  The main
    result is `publishes_apart`.
-/

namespace Keys

open Files (Path Node Within Rooted)

variable {ι : Type} {system : System} {request : ι → KeyGenerateRequest}

/-! ### What publication is for -/

/-- A key file of a workspace that a call uses.  The directory of a workspace
    is new, so none of these was there before the call. -/
def State.InUse (s : State ι) (path : Path Text) : Prop :=
  ∃ i workspace file, (s.calls i).Uses workspace ∧ path = workspace.file file

structure Publishes [DecidableEq ι] (system : System) (request : ι → KeyGenerateRequest) : Prop where
  /-- No file is changed or removed, but in a workspace that is in use. -/
  files_kept : ∀ s s', (machine system request).Reachable s →
    (machine system request).StepsWhen (fun _ _ => True) s s' →
    ∀ path node, node ≠ .directory → s.tree.lookup path = some node → ¬ s.InUse path →
      s'.tree.lookup path = some node
  /-- After a success both files are the ones that were verified. -/
  own_pair : ∀ s, (machine system request).Reachable s → ∀ i result,
    (s.calls i).phase = .returned (.ok result) →
    ∃ fingerprint, result = System.generation_result (request i) fingerprint ∧
      (s.calls i).Verified system fingerprint ∧
      ∀ file, Shows system (request i) s.tree (s.calls i) file
  /-- A private key is at its destination with its public key. -/
  private_last : ∀ s, (machine system request).Reachable s → ∀ i,
    (s.calls i).published .private_key = true →
    ∀ file, Shows system (request i) s.tree (s.calls i) file
  one_owner : ∀ s, (machine system request).Reachable s → ∀ i j result result',
    (s.calls i).phase = .returned (.ok result) → (s.calls j).phase = .returned (.ok result') →
    system.destination (request i) .private_key = system.destination (request j) .private_key → i = j

/-- No destination is a key file of a workspace. -/
def Apart (system : System) (request : ι → KeyGenerateRequest) : Prop :=
  ∀ i j parent drawn file file', system.parent (request j).private_key_path = some parent →
    system.destination (request i) file ≠ (system.workspace parent drawn).file file'

/-! ### Invariant -/

structure Inv (system : System) (request : ι → KeyGenerateRequest) (s : State ι) : Prop where
  rooted : Rooted s.tree
  sound : ∀ i, Sound system (request i) s.tree (s.calls i)
  /-- The workspaces of a call have names that were drawn for it. -/
  named : ∀ i workspace, (s.calls i).Uses workspace → ∃ parent drawn,
    system.parent (request i).private_key_path = some parent ∧ drawn < s.drawn ∧
      workspace = system.workspace parent drawn
  apart : ∀ i j workspace workspace', i ≠ j → (s.calls i).Uses workspace →
    (s.calls j).Uses workspace' → workspace.directory ≠ workspace'.directory
  owner : ∀ i j file file', (s.calls i).published file = true → (s.calls j).published file' = true →
    system.destination (request i) file = system.destination (request j) file' → i = j ∧ file = file'

/-- What other calls and processes do leaves a call where it is. -/
theorem Sound.frame {request : KeyGenerateRequest} {tree tree' : Tree} {call : Call}
    {paths : Path Text → Prop} (hsound : Sound system request tree call)
    (hwithin : Within paths tree tree')
    (hheld : ∀ workspace file, call.phase.held = some workspace → ¬ paths (workspace.file file))
    (hdestination : ∀ file, ¬ paths (system.destination request file)) :
    Sound system request tree' call where
  phase := hsound.phase
  complete := hsound.complete
  held := by
    intro workspace file contents hw hwritten hunpublished
    have hlookup := hsound.held workspace file contents hw hwritten hunpublished
    exact hwithin.kept _ _ (by simp) hlookup (hheld workspace file hw)
  shown := by
    intro file hpublished
    obtain ⟨contents, hgenerated, hlookup⟩ := hsound.shown file hpublished
    exact ⟨contents, hgenerated, hwithin.kept _ _ (by simp) hlookup (hdestination file)⟩

theorem uses_of_held {call : Call} {workspace : KeyGenerationWorkspace}
    (h : call.phase.held = some workspace) : call.Uses workspace := by
  left
  cases hcase : call.phase with
  | holding other point =>
    rw [hcase] at h
    exact h
  | _ =>
    rw [hcase] at h
    cases h

/-- No destination is in a workspace that is in use. -/
theorem Inv.outside {s : State ι} (h : Inv system request s) (hapart : Apart system request)
    (i j : ι) {workspace : KeyGenerationWorkspace} (huses : (s.calls j).Uses workspace)
    (file file' : KeyFile) : system.destination (request i) file ≠ workspace.file file' := by
  obtain ⟨parent, drawn, hparent, -, rfl⟩ := h.named j workspace huses
  exact hapart i j parent drawn file file' hparent

/-- What one call touches is out of the way of the others. -/
theorem Inv.frame {s : State ι} {i j : ι} {tree' : Tree} (hapart : Apart system request)
    (h : Inv system request s) (hne : i ≠ j) (hwithin : Within (s.calls i).Touches s.tree tree') :
    Sound system (request j) tree' (s.calls j) := by
  refine (h.sound j).frame hwithin ?_ ?_
  · rintro workspace file hheld ⟨workspace', file', huses, hpath⟩
    exact h.apart i j workspace' workspace hne huses (uses_of_held hheld) (file_inj hpath).1.symm
  · rintro file ⟨workspace', file', huses, hpath⟩
    exact h.outside hapart j i huses file file' hpath

/-- A name that is drawn is not the name of a workspace in use. -/
theorem Inv.fresh {s : State ι} (huuid : Function.Injective system.uuid) (h : Inv system request s)
    (j : ι) {workspace : KeyGenerationWorkspace} (huses : (s.calls j).Uses workspace) (parent : Text) :
    (system.workspace parent s.drawn).directory ≠ workspace.directory := by
  obtain ⟨parent', drawn, -, hlt, rfl⟩ := h.named j workspace huses
  intro hsame
  exact absurd (workspace_inj huuid hsame) (Nat.ne_of_gt hlt)

/-- **Step of another process.** -/
theorem Inv.creates {s : State ι} {path : Path Text} {node : Node Bytes} {tree' : Tree}
    (h : Inv system request s) (hplace : Files.place s.tree path node = some tree') :
    Inv system request { s with tree := tree' } := by
  have hwithin := Files.place_within hplace
  exact ⟨hwithin.rooted h.rooted, fun i => (h.sound i).frame hwithin (fun _ _ _ => id) fun _ => id,
    h.named, h.apart, h.owner⟩

variable [DecidableEq ι]

/-- **Step of a call**, or of its child. -/
theorem Inv.advance {s : State ι} {i : ι} {drawn' : Nat} {tree' : Tree} {call' : Call}
    (huuid : Function.Injective system.uuid) (hapart : Apart system request)
    (h : Inv system request s)
    (hstep : Advances system (request i) s.drawn s.tree (s.calls i) drawn' tree' call') :
    Inv system request ⟨tree', drawn', Function.update s.calls i call'⟩ := by
  have hself : Function.update s.calls i call' i = call' := Function.update_self ..
  have hother : ∀ {j}, j ≠ i → Function.update s.calls i call' j = s.calls j :=
    fun hne => Function.update_of_ne hne ..
  constructor
  · exact hstep.within.rooted h.rooted
  · intro j
    by_cases hj : j = i
    · subst hj
      show Sound system (request j) tree' (Function.update s.calls j call' j)
      rw [hself]
      exact hstep.sound
    · show Sound system (request j) tree' (Function.update s.calls i call' j)
      rw [hother hj]
      exact h.frame hapart (Ne.symm hj) hstep.within
  · intro j workspace huses
    dsimp only at huses ⊢
    have hold : (s.calls j).Uses workspace → ∃ parent drawn,
        system.parent (request j).private_key_path = some parent ∧ drawn < drawn' ∧
          workspace = system.workspace parent drawn := by
      intro huses
      obtain ⟨parent, drawn, hparent, hlt, hnamed⟩ := h.named j workspace huses
      exact ⟨parent, drawn, hparent, Nat.lt_of_lt_of_le hlt hstep.drawn_le, hnamed⟩
    by_cases hj : j = i
    · subst hj
      rw [hself] at huses
      rcases hstep.uses workspace huses with huses | ⟨parent, hparent, hdrawn, hnamed, -⟩
      · exact hold huses
      · exact ⟨parent, s.drawn, hparent, by omega, hnamed⟩
    · rw [hother hj] at huses
      exact hold huses
  · -- a new workspace has a new name
    have hnew : ∀ j workspace workspace', j ≠ i → call'.Uses workspace →
        (s.calls j).Uses workspace' → workspace.directory ≠ workspace'.directory := by
      intro j workspace workspace' hj huses huses'
      rcases hstep.uses workspace huses with huses | ⟨parent, -, -, rfl, -⟩
      · exact h.apart i j workspace workspace' (Ne.symm hj) huses huses'
      · exact h.fresh huuid j huses' parent
    intro j k workspace workspace' hne huses huses'
    dsimp only at huses huses'
    by_cases hj : j = i
    · subst hj
      rw [hself] at huses
      rw [hother (Ne.symm hne)] at huses'
      exact hnew k workspace workspace' (Ne.symm hne) huses huses'
    · rw [hother hj] at huses
      by_cases hk : k = i
      · subst hk
        rw [hself] at huses'
        exact (hnew j workspace' workspace hj huses' huses).symm
      · rw [hother hk] at huses'
        exact h.apart j k workspace workspace' hne huses huses'
  · -- a file is published where nothing was, so not where a file was published
    have hnew : ∀ j file file', (s.calls j).published file' = true →
        s.tree.lookup (system.destination (request i) file) = none →
        system.destination (request i) file ≠ system.destination (request j) file' := by
      intro j file file' hpublished hnone hsame
      obtain ⟨contents, -, hlookup⟩ := (h.sound j).shown file' hpublished
      rw [← hsame, hnone] at hlookup
      cases hlookup
    have hcases : ∀ j file, (Function.update s.calls i call' j).published file = true →
        (s.calls j).published file = true ∨
          j = i ∧ s.tree.lookup (system.destination (request i) file) = none ∧
            ∀ other, call'.published other = true →
              (s.calls i).published other = true ∨ other = file := by
      intro j file hpublished
      by_cases hj : j = i
      · subst hj
        rw [hself] at hpublished
        exact (hstep.publishes file hpublished).imp id fun hnone => ⟨rfl, hnone⟩
      · rw [hother hj] at hpublished
        exact .inl hpublished
    intro j k file file' hpublished hpublished' hsame
    rcases hcases j file hpublished with hold | ⟨rfl, hnone, honly⟩
    · rcases hcases k file' hpublished' with hold' | ⟨rfl, hnone', -⟩
      · exact h.owner j k file file' hold hold' hsame
      · exact absurd hsame.symm (hnew j file' file hold hnone')
    · rcases hcases k file' hpublished' with hold' | ⟨rfl, -, -⟩
      · exact absurd hsame (hnew k file file' hold' hnone)
      · dsimp only at hpublished'
        rw [hself] at hpublished'
        rcases honly file' hpublished' with hold' | rfl
        · exact absurd hsame (hnew k file file' hold' hnone)
        · exact ⟨rfl, rfl⟩

/-! ### Runs -/

/-- What a step is: an operation of a call or of its child, or a node that
    another process makes. -/
theorem next_cases {s s' : State ι} {l : Label ι} (hapart : Apart system request)
    (h : Inv system request s) (hstep : (machine system request).next s l = some s') :
    (∃ i drawn' tree' call',
      Advances system (request i) s.drawn s.tree (s.calls i) drawn' tree' call' ∧
        s' = ⟨tree', drawn', Function.update s.calls i call'⟩) ∨
      ∃ path node tree', Files.place s.tree path node = some tree' ∧ s' = { s with tree := tree' } := by
  cases l with
  | call i fault =>
    obtain ⟨⟨drawn', tree', call'⟩, hadvance, rfl⟩ := Option.map_eq_some_iff.mp hstep
    have hout : ∀ workspace, (s.calls i).Uses workspace → ∀ file file',
        system.destination (request i) file ≠ workspace.file file' :=
      fun workspace huses => h.outside hapart i i huses
    exact .inl ⟨i, drawn', tree', call', advance_advances h.rooted (h.sound i) hout hadvance, rfl⟩
  | keygen i action =>
    obtain ⟨⟨tree', keygen⟩, hact, rfl⟩ := Option.map_eq_some_iff.mp hstep
    exact .inl ⟨i, s.drawn, tree', _, act_advances (h.sound i) hact, rfl⟩
  | creates path node =>
    obtain ⟨tree', hplace, rfl⟩ := Option.map_eq_some_iff.mp hstep
    exact .inr ⟨path, node, tree', hplace, rfl⟩

theorem step_inv (huuid : Function.Injective system.uuid) (hapart : Apart system request)
    {s s' : State ι} {l : Label ι} (h : Inv system request s)
    (hstep : (machine system request).next s l = some s') : Inv system request s' := by
  rcases next_cases hapart h hstep with ⟨i, drawn', tree', call', hadvances, rfl⟩ |
    ⟨path, node, tree', hplace, rfl⟩
  · exact h.advance huuid hapart hadvances
  · exact h.creates hplace

theorem initial_inv {s : State ι} (h : (machine system request).init s) : Inv system request s := by
  obtain ⟨hrooted, hinitial⟩ := h
  have hnever : ∀ i workspace, ¬ (s.calls i).Uses workspace := by
    intro i workspace huses
    rw [hinitial] at huses
    rcases huses with huses | huses <;> cases huses
  have hnothing : ∀ i file, ¬ (s.calls i).published file = true := by
    intro i file hpublished
    rw [hinitial] at hpublished
    cases hpublished
  refine ⟨hrooted, fun i => ?_, ?_, ?_, ?_⟩
  · rw [hinitial]
    refine ⟨⟨rfl, fun _ => rfl⟩, fun _ hended => ?_, fun _ _ _ hheld => ?_, fun _ hpublished => ?_⟩
    · cases hended
    · cases hheld
    · cases hpublished
  · exact fun i workspace huses => absurd huses (hnever i workspace)
  · exact fun i _ workspace _ _ huses => absurd huses (hnever i workspace)
  · exact fun i _ file _ hpublished => absurd hpublished (hnothing i file)

theorem reachable_inv (huuid : Function.Injective system.uuid) (hapart : Apart system request)
    {s : State ι} (hs : (machine system request).Reachable s) : Inv system request s :=
  hs.invariant (fun _ => initial_inv) fun _ _ _ h _ => step_inv huuid hapart h

/-! ### Files -/

/-- A file that is in no workspace in use stays, and stays in none. -/
theorem step_keeps {s s' : State ι} {l : Label ι} (hapart : Apart system request)
    (h : Inv system request s) (hstep : (machine system request).next s l = some s')
    {path : Path Text} {node : Node Bytes} (hnode : node ≠ .directory)
    (hkept : s.tree.lookup path = some node ∧ ¬ s.InUse path) :
    s'.tree.lookup path = some node ∧ ¬ s'.InUse path := by
  obtain ⟨hlookup, hfree⟩ := hkept
  rcases next_cases hapart h hstep with ⟨i, drawn', tree', call', hadvances, rfl⟩ |
    ⟨other, made, tree', hplace, rfl⟩
  · constructor
    · refine hadvances.within.kept path node hnode hlookup ?_
      rintro ⟨workspace, file, huses, hpath⟩
      exact hfree ⟨i, workspace, file, huses, hpath⟩
    · rintro ⟨j, workspace, file, huses, rfl⟩
      dsimp only at huses
      by_cases hj : j = i
      · subst hj
        rw [Function.update_self] at huses
        rcases hadvances.uses workspace huses with huses | ⟨parent, -, -, -, hnone⟩
        · exact hfree ⟨j, workspace, file, huses, rfl⟩
        · -- a directory that is new has no files
          have hbelow : s.tree.lookup (workspace.file file) = none := by
            cases file <;> exact Files.lookup_below h.rooted hnone _
          rw [hlookup] at hbelow
          cases hbelow
      · rw [Function.update_of_ne hj] at huses
        exact hfree ⟨j, workspace, file, huses, rfl⟩
  · exact ⟨(Files.place_within hplace).kept path node hnode hlookup id, hfree⟩

/-! ### Pairs -/

theorem Sound.result {request : KeyGenerateRequest} {tree : Tree} {call : Call}
    {result : AppResult KeyOperationResult} (h : Sound system request tree call)
    (hcase : call.phase = .returned result) : ResultInv system request call result := by
  have hphase := h.phase
  rw [hcase] at hphase
  exact hphase

/-- **Publication**: calls whose destinations are no key files of workspaces
    publish the pairs that they have verified, replace and remove no file of
    others, and at most one of them succeeds for a path. -/
theorem publishes_apart (system : System) (request : ι → KeyGenerateRequest)
    (huuid : Function.Injective system.uuid) (hapart : Apart system request) :
    Publishes system request where
  files_kept := by
    intro s s' hs hrun path node hnode hlookup hfree
    have hkept : s'.tree.lookup path = some node ∧ ¬ s'.InUse path := by
      refine hrun.preserves_reachable (P := fun t => t.tree.lookup path = some node ∧ ¬ t.InUse path)
        (fun _ _ => id) ?_ hs ⟨hlookup, hfree⟩
      exact fun t l t' ht hkept _ hstep =>
        step_keeps hapart (reachable_inv huuid hapart ht) hstep hnode hkept
    exact hkept.1
  own_pair := by
    intro s hs i result hreturned
    have hsound := (reachable_inv huuid hapart hs).sound i
    obtain ⟨fingerprint, hverified, hresult, hpublished⟩ :=
      (hsound.result hreturned).success result rfl
    exact ⟨fingerprint, hresult, hverified, fun file => hsound.shown file (hpublished file)⟩
  private_last := by
    intro s hs i hpublished file
    have hsound := (reachable_inv huuid hapart hs).sound i
    cases file with
    | private_key => exact hsound.shown .private_key hpublished
    | public_key => exact hsound.shown .public_key (hsound.phase.ordered hpublished)
  one_owner := by
    intro s hs i j result result' hi hj hsame
    have hinv := reachable_inv huuid hapart hs
    obtain ⟨_, -, -, hpublished⟩ := ((hinv.sound i).result hi).success result rfl
    obtain ⟨_, -, -, hpublished'⟩ := ((hinv.sound j).result hj).success result' rfl
    exact (hinv.owner i j _ _ (hpublished _) (hpublished' _) hsame).1

/-! ### A destination in a workspace -/

def lab_display : Path Text → Text
  | .root => []
  | .join directory name => lab_display directory ++ '/' :: name

def lab_name (drawn : Nat) : Text := "4f6c7c6e-52d8-4b5c-9f0a-00000000000".toList ++ drawn.text

/-- A system whose `ssh-keygen` derives one key. -/
def lab_system : System where
  windows := false
  is_absolute path := path.head? = some '/'
  file_name path := (Text.rsplit_once path "/".toList).map Prod.snd
  parent path := (Text.rsplit_once path "/".toList).map Prod.fst
  resolve path := ((Text.split '/' path).filter fun name => !name.isEmpty).foldl .join .root
  display := lab_display
  uuid := lab_name
  derive_public_key _ := { success := true, stdout := plain_key.line.utf8, stderr := [] }
  world := agent_world

theorem lab_name_inj : Function.Injective lab_system.uuid := by
  intro m n h
  have htext : m.text = n.text := List.append_cancel_left h
  exact Nat.text_inj htext

/-- Two calls, and the private key of one is the public key of the other. -/
def lab_requests (i : Fin 2) : KeyGenerateRequest :=
  if i = 0 then ⟨"/lab/id".toList⟩ else ⟨"/lab/id.pub".toList⟩

def lab_directory : Path Text := .join .root "lab".toList

theorem lab_apart : Apart lab_system lab_requests := by
  have hlab : ∀ i file, ∃ name, lab_system.destination (lab_requests i) file = .join lab_directory name := by
    intro i file
    match i, file with
    | 0, .private_key => exact ⟨_, rfl⟩
    | 0, .public_key => exact ⟨_, rfl⟩
    | 1, .private_key => exact ⟨_, rfl⟩
    | 1, .public_key => exact ⟨_, rfl⟩
  intro i j parent drawn file file' _ hsame
  obtain ⟨name, hname⟩ := hlab i file
  have hdirectory : lab_directory = (lab_system.workspace parent drawn).directory := by
    rw [hname] at hsame
    cases file' <;> exact (Path.join.inj hsame).1
  have hnames : some 'l' = some '.' := congrArg List.head? (Path.join.inj hdirectory).2
  exact absurd hnames (by decide)

theorem lab_publishes : Publishes lab_system lab_requests :=
  publishes_apart lab_system lab_requests lab_name_inj lab_apart

/-- The second call is for a path in the workspace of the first. -/
def nested_requests (i : Fin 2) : KeyGenerateRequest :=
  if i = 0 then ⟨"/lab/id".toList⟩
  else ⟨"/lab/.remotedeck-keygen-4f6c7c6e-52d8-4b5c-9f0a-000000000000/key".toList⟩

def lab_state : State (Fin 2) where
  tree := (AList.insert .root .directory ∅).insert lab_directory .directory
  drawn := 0
  calls _ := .initial

theorem lab_rooted : Rooted lab_state.tree := by
  have hroot : Rooted (AList.insert Path.root Node.directory (∅ : Tree)) := by
    intro directory name node hlookup
    have hne : Path.join directory name ≠ .root := fun hsame => nomatch hsame
    rw [AList.lookup_insert_ne hne] at hlookup
    cases hlookup
  have hplace : Files.place (AList.insert Path.root Node.directory (∅ : Tree)) lab_directory .directory =
      some lab_state.tree := rfl
  exact (Files.place_within hplace).rooted hroot

def operations (i : Fin 2) (count : Nat) : List (Label (Fin 2)) := List.replicate count (.call i none)

/-- The first call fails and cleans up between the two moves of the second. -/
def nested_trace : List (Label (Fin 2)) :=
  operations 0 5 ++ operations 1 7 ++
    [.keygen 1 (.writes .private_key [1]), .keygen 1 (.writes .public_key plain_key.line.utf8),
      .keygen 1 (.ends none)] ++
    operations 1 7 ++ .call 0 (some .Cancelled) :: operations 0 3 ++ operations 1 5

/-- The second call has returned, and its public key is gone. -/
def public_key_lost (s : State (Fin 2)) : Bool :=
  (match (s.calls 1).phase with
    | .returned (.ok _) => true
    | _ => false) &&
  (s.tree.lookup (lab_system.destination (nested_requests 1) .public_key)).isNone

/-- **A destination in a workspace**: another call removes the public key of a
    call that succeeds. -/
theorem nested_pair_lost :
    Function.Injective lab_system.uuid ∧
      (∃ s result, (machine lab_system nested_requests).Reachable s ∧
        (s.calls 1).phase = .returned (.ok result) ∧
        s.tree.lookup (lab_system.destination (nested_requests 1) .public_key) = none) ∧
      ¬ Publishes lab_system nested_requests := by
  have hinit : (machine lab_system nested_requests).init lab_state := ⟨lab_rooted, fun _ => rfl⟩
  have hrun : ((machine lab_system nested_requests).replay (fun _ _ => true) lab_state
      nested_trace).any public_key_lost = true := by
    decide +kernel
  have hreachable : ∃ s, (machine lab_system nested_requests).Reachable s ∧ public_key_lost s = true :=
    Machine.reachable_of_replay _ (fun _ _ _ => trivial) hinit _ _ hrun
  obtain ⟨s, hs, hlost⟩ := hreachable
  obtain ⟨hreturned, hgone⟩ := (Bool.and_eq_true _ _).mp hlost
  rw [Option.isNone_iff_eq_none] at hgone
  have hresult : ∃ result, (s.calls 1).phase = .returned (.ok result) := by
    split at hreturned
    · next result hphase => exact ⟨result, hphase⟩
    · cases hreturned
  obtain ⟨result, hphase⟩ := hresult
  refine ⟨lab_name_inj, ⟨s, result, hs, hphase, hgone⟩, fun hpublishes => ?_⟩
  obtain ⟨fingerprint, -, -, hshows⟩ := hpublishes.own_pair s hs 1 result hphase
  obtain ⟨contents, -, hlookup⟩ := hshows .public_key
  rw [hgone] at hlookup
  cases hlookup

end Keys
