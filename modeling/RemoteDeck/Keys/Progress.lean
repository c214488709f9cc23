import RemoteDeck.Keys.Generate

/-! # One call for a key pair

    What one operation of `generate_key` does, wherever the call is and
    whatever fails.

    This file defines:
    - `Call.Uses`: the workspaces that a call may still write or clean up
    - `Shows`, `Call.Verified`: the pair of a call
    - `Sound`: what a call has achieved where it is
    - `Advances`: what an operation does to the files and to its call

    An operation changes files of its own workspace only and makes others
    where nothing was.  The main results are `advance_advances`, for the call,
    and `act_advances`, for its `ssh-keygen`.
-/

namespace Keys

open Files (Path Node Within Rooted)

variable {system : System}

/-! ### What a call uses and what it has -/

/-- The workspace that a call still has to drop. -/
def Phase.workspace : Phase → Option KeyGenerationWorkspace
  | .holding workspace _ => some workspace
  | .dropping workspace _ _ => some workspace
  | _ => none

/-- The workspace that a running `ssh-keygen` writes in. -/
def Keygen.workspace : Keygen → Option KeyGenerationWorkspace
  | .running workspace _ => some workspace
  | _ => none

def Call.Uses (call : Call) (workspace : KeyGenerationWorkspace) : Prop :=
  call.phase.workspace = some workspace ∨ call.keygen.workspace = some workspace

/-- The public key is the one that is derived from the private key. -/
def Matches (system : System) (private_bytes public_bytes : Bytes) (fingerprint : Text) : Prop :=
  ∃ workspace canonical, system.read_public_key workspace public_bytes = .ok canonical ∧
    system.compare_derived canonical (drain_output (system.derive_public_key private_bytes)) =
      .ok fingerprint

/-- A file that a call has generated is at its destination. -/
def Shows (system : System) (request : KeyGenerateRequest) (tree : Tree) (call : Call)
    (file : KeyFile) : Prop :=
  ∃ contents, call.generated file = some contents ∧
    tree.lookup (system.destination request file) = some (.file contents)

/-- What a call has generated and verified. -/
def Call.Verified (system : System) (call : Call) (fingerprint : Text) : Prop :=
  ∃ private_bytes public_bytes, call.generated .private_key = some private_bytes ∧
    call.generated .public_key = some public_bytes ∧
    Matches system private_bytes public_bytes fingerprint

/-! ### Paths of workspaces -/

theorem file_inj {w w' : KeyGenerationWorkspace} {file file' : KeyFile}
    (h : w.file file = w'.file file') : w.directory = w'.directory ∧ file = file' := by
  cases file <;> cases file' <;> simp_all [KeyGenerationWorkspace.file]

/-- Names that were drawn at different times are different. -/
theorem workspace_inj (huuid : Function.Injective system.uuid) {parent parent' : Text} {n n' : Nat}
    (h : (system.workspace parent n).directory = (system.workspace parent' n').directory) : n = n' := by
  unfold System.workspace at h
  exact huuid (List.append_cancel_left (Path.join.inj h).2)

/-! ### One call -/

variable {request : KeyGenerateRequest} {drawn drawn' : Nat} {tree tree' : Tree} {call call' : Call}

/-- The workspace whose files a call still reads. -/
def Phase.held : Phase → Option KeyGenerationWorkspace
  | .holding workspace _ => some workspace
  | _ => none

def Unpublished (call : Call) : Prop := ∀ file, call.published file = false

/-- The public key is moved before the private key. -/
def MovedBefore (call : Call) : KeyFile → Prop
  | .public_key => Unpublished call
  | .private_key => ∀ file, call.published file = true ↔ file = .public_key

/-- Where a call that has a workspace is, it has achieved what comes before. -/
def PointInv (system : System) (call : Call) : Point → Prop
  | .find_keygen | .spawn => call.keygen = .absent ∧ Unpublished call
  | .generate => Unpublished call
  | .read_public => (∃ written, call.keygen = .ended none written) ∧ Unpublished call
  | .verify canonical =>
      (∃ written, call.keygen = .ended none written) ∧ Unpublished call ∧
        ∃ workspace public_bytes, call.generated .public_key = some public_bytes ∧
          system.read_public_key workspace public_bytes = .ok canonical
  | .require_regular_file _ fingerprint => call.Verified system fingerprint ∧ Unpublished call
  | .check_destination file fingerprint | .move file fingerprint =>
      call.Verified system fingerprint ∧ MovedBefore call file
  | .inspect_failure file _ => MovedBefore call file

/-- A result that is a success comes after both moves. -/
structure ResultInv (system : System) (request : KeyGenerateRequest) (call : Call)
    (result : AppResult KeyOperationResult) : Prop where
  ordered : call.published .private_key = true → call.published .public_key = true
  success : ∀ value, result = .ok value → ∃ fingerprint, call.Verified system fingerprint ∧
    value = System.generation_result request fingerprint ∧ ∀ file, call.published file = true

def PhaseInv (system : System) (request : KeyGenerateRequest) (call : Call) : Phase → Prop
  | .requested | .check_private | .check_public => call.keygen = .absent ∧ Unpublished call
  | .create_parent parent | .reserve parent _ =>
      (call.keygen = .absent ∧ Unpublished call) ∧
        system.parent request.private_key_path = some parent
  | .holding workspace point =>
      (∀ other, call.keygen.workspace = some other → other = workspace) ∧ PointInv system call point
  | .dropping _ _ result | .returned result => ResultInv system request call result

structure Sound (system : System) (request : KeyGenerateRequest) (tree : Tree) (call : Call) :
    Prop where
  phase : PhaseInv system request call call.phase
  complete : ∀ written, call.keygen = .ended none written → ∀ file, (written file).isSome = true
  /-- What was written is there until it is published. -/
  held : ∀ workspace file contents, call.phase.held = some workspace →
    call.written file = some contents → call.published file = false →
    tree.lookup (workspace.file file) = some (.file contents)
  shown : ∀ file, call.published file = true → Shows system request tree call file

/-- The paths that a call may change. -/
def Call.Touches (call : Call) (path : Path Text) : Prop :=
  ∃ workspace file, call.Uses workspace ∧ path = workspace.file file

/-- What an operation of a call does. -/
structure Advances (system : System) (request : KeyGenerateRequest) (drawn : Nat) (tree : Tree)
    (call : Call) (drawn' : Nat) (tree' : Tree) (call' : Call) : Prop where
  within : Within call.Touches tree tree'
  drawn_le : drawn ≤ drawn'
  /-- A workspace is new when it is first used. -/
  uses : ∀ workspace, call'.Uses workspace → call.Uses workspace ∨
    ∃ parent, system.parent request.private_key_path = some parent ∧ drawn' = drawn + 1 ∧
      workspace = system.workspace parent drawn ∧ tree.lookup workspace.directory = none
  /-- A file is published where nothing was. -/
  publishes : ∀ file, call'.published file = true → call.published file = true ∨
    (tree.lookup (system.destination request file) = none ∧
      ∀ other, call'.published other = true → call.published other = true ∨ other = file)
  sound : Sound system request tree' call'

theorem phaseInv_goto (phase : Phase) {phase' : Phase} (h : PhaseInv system request call phase') :
    PhaseInv system request (call.goto phase) phase' := by
  cases phase' with
  | dropping workspace removal result => exact ⟨h.ordered, h.success⟩
  | returned result => exact ⟨h.ordered, h.success⟩
  | holding workspace point => exact ⟨h.1, by cases point <;> exact h.2⟩
  | requested => exact h
  | check_private => exact h
  | check_public => exact h
  | create_parent parent => exact h
  | reserve parent attempt => exact h

/-- A failure promises nothing. -/
theorem ResultInv.of_error {error : AppError}
    (h : call.published .private_key = true → call.published .public_key = true) :
    ResultInv system request call (.error error) :=
  ⟨h, fun _ hvalue => absurd hvalue (fun hsame => nomatch hsame)⟩

/-- A call that only goes on changes nothing. -/
theorem Advances.goto {phase : Phase} (hsound : Sound system request tree call) (hle : drawn ≤ drawn')
    (hheld : ∀ w, phase.held = some w → call.phase.held = some w)
    (hworkspace : ∀ w, phase.workspace = some w → call.phase.workspace = some w)
    (hphase : PhaseInv system request call phase) :
    Advances system request drawn tree call drawn' tree (call.goto phase) where
  within := .refl tree
  drawn_le := hle
  uses := by
    rintro w (hphase | hkeygen)
    · exact .inl (.inl (hworkspace w hphase))
    · exact .inl (.inr hkeygen)
  publishes := fun _ hpublished => .inl hpublished
  sound := by
    constructor
    · exact phaseInv_goto phase hphase
    · exact hsound.complete
    · exact fun w file contents hw => hsound.held w file contents (hheld w hw)
    · exact hsound.shown

/-- Neither does a call that has no workspace. -/
theorem Advances.outside {phase : Phase} (hsound : Sound system request tree call) (hle : drawn ≤ drawn')
    (hnone : phase.workspace = none) (hphase : PhaseInv system request call phase) :
    Advances system request drawn tree call drawn' tree (call.goto phase) := by
  refine .goto hsound hle (fun w hw => ?_) (fun w hw => ?_) hphase
  · cases phase <;> cases hw
    cases hnone
  · rw [hnone] at hw
    cases hw

theorem Advances.refuses {error : AppError} (hsound : Sound system request tree call)
    (hphase : call.keygen = .absent ∧ Unpublished call) :
    Advances system request drawn tree call drawn tree (call.goto (.returned (.error error))) :=
  .outside hsound (Nat.le_refl _) rfl <| ResultInv.of_error fun hpublished => by
    rw [hphase.2] at hpublished
    cases hpublished

/-! ### Operations without a workspace -/

/-- A call that makes a directory of its own or for it. -/
theorem Advances.places {path : Path Text} {phase : Phase}
    (hplace : Files.place tree path .directory = some tree') (hle : drawn ≤ drawn')
    (hunpublished : Unpublished call) (hkeygen : call.keygen = .absent)
    (huses : ∀ w, phase.workspace = some w → ∃ parent,
      system.parent request.private_key_path = some parent ∧ drawn' = drawn + 1 ∧
        w = system.workspace parent drawn ∧ tree.lookup w.directory = none)
    (hphase : PhaseInv system request call phase) :
    Advances system request drawn tree call drawn' tree' (call.goto phase) where
  within := (Files.place_within hplace).mono fun _ hfalse => hfalse.elim
  drawn_le := hle
  uses := by
    rintro w (hw | hw)
    · exact .inr (huses w hw)
    · exact .inl (.inr hw)
  publishes := fun _ hpublished => .inl hpublished
  sound := by
    constructor
    · exact phaseInv_goto phase hphase
    · intro written hended
      rw [show (call.goto phase).keygen = call.keygen from rfl, hkeygen] at hended
      cases hended
    · intro w file contents _ hwritten
      have hnothing : (call.goto phase).written file = none := by
        unfold Call.written
        rw [show (call.goto phase).keygen = call.keygen from rfl, hkeygen]
      rw [hnothing] at hwritten
      cases hwritten
    · intro file hpublished
      rw [show (call.goto phase).published file = false from hunpublished file] at hpublished
      cases hpublished

theorem enter_advances (hsound : Sound system request tree call) {fault : Option AppError}
    (h : enter system request drawn tree call fault = some (drawn', tree', call')) :
    Advances system request drawn tree call drawn' tree' call' := by
  have hphase := hsound.phase
  unfold enter at h
  cases hcase : call.phase with
  | requested =>
    rw [hcase] at h hphase
    cases fault with
    | some error => cases h
    | none =>
      dsimp only at h
      split at h
      · cases h
        exact .refuses hsound hphase
      · cases h
        exact .outside hsound (Nat.le_refl _) rfl hphase
  | check_private =>
    rw [hcase] at h hphase
    dsimp only at h
    split_ifs at h
    · cases h
      exact .refuses hsound hphase
    · cases h
      exact .outside hsound (Nat.le_refl _) rfl hphase
  | check_public =>
    rw [hcase] at h hphase
    dsimp only at h
    split_ifs at h
    · cases h
      exact .refuses hsound hphase
    · split at h
      · cases h
        exact .refuses hsound hphase
      · next parent hparent =>
        cases h
        exact .outside hsound (Nat.le_refl _) rfl ⟨hphase, hparent⟩
  | create_parent parent =>
    rw [hcase] at h hphase
    cases fault with
    | some error =>
      cases h
      exact .refuses hsound hphase.1
    | none =>
      dsimp only at h
      split_ifs at h
      · cases h
        exact .outside hsound (Nat.le_refl _) rfl hphase
      · obtain ⟨path, _, h⟩ := Option.bind_eq_some_iff.mp h
        obtain ⟨made, hplace, h⟩ := Option.map_eq_some_iff.mp h
        cases h
        have hstays : call.goto call.phase = call := rfl
        rw [← hstays]
        refine .places hplace (Nat.le_refl _) hphase.1.2 hphase.1.1 (fun w hw => ?_) ?_
        · rw [hcase] at hw
          cases hw
        · rw [hcase]
          exact hphase
  | reserve parent attempt =>
    rw [hcase] at h hphase
    cases fault with
    | some error =>
      cases h
      exact .refuses hsound hphase.1
    | none =>
      dsimp only at h
      split_ifs at h with hlast htaken
      · cases h
        exact .refuses hsound hphase.1
      · cases h
        exact .outside hsound (Nat.le_succ _) rfl hphase
      · obtain ⟨made, hplace, h⟩ := Option.map_eq_some_iff.mp h
        cases h
        refine .places hplace (Nat.le_succ _) hphase.1.2 hphase.1.1 (fun w hw => ?_) ?_
        · obtain rfl := Option.some.inj hw
          exact ⟨parent, hphase.2, rfl, rfl, (Files.lookup_place hplace).1⟩
        · refine ⟨fun other hother => ?_, hphase.1⟩
          rw [hphase.1.1] at hother
          cases hother
  | holding workspace point =>
    rw [hcase] at h
    cases fault <;> cases h
  | dropping workspace removal result =>
    rw [hcase] at h
    cases fault <;> cases h
  | returned result =>
    rw [hcase] at h
    cases fault <;> cases h

/-! ### Operations in a workspace -/

section Holding

variable {workspace : KeyGenerationWorkspace} {point : Point}

theorem Unpublished.ordered (h : Unpublished call)
    (hpublished : call.published .private_key = true) : call.published .public_key = true := by
  rw [h] at hpublished
  cases hpublished

theorem MovedBefore.ordered {file : KeyFile} (h : MovedBefore call file)
    (hpublished : call.published .private_key = true) : call.published .public_key = true := by
  cases file with
  | public_key => exact Unpublished.ordered h hpublished
  | private_key => cases (h _).mp hpublished

theorem PointInv.ordered (h : PointInv system call point)
    (hpublished : call.published .private_key = true) : call.published .public_key = true := by
  cases point with
  | find_keygen => exact h.2.ordered hpublished
  | spawn => exact h.2.ordered hpublished
  | generate => exact Unpublished.ordered h hpublished
  | read_public => exact h.2.ordered hpublished
  | verify canonical => exact h.2.1.ordered hpublished
  | require_regular_file file fingerprint => exact h.2.ordered hpublished
  | check_destination file fingerprint => exact h.2.ordered hpublished
  | move file fingerprint => exact h.2.ordered hpublished
  | inspect_failure file error => exact MovedBefore.ordered h hpublished

/-- In every phase the public key is published first. -/
theorem PhaseInv.ordered {phase : Phase} (h : PhaseInv system request call phase)
    (hpublished : call.published .private_key = true) : call.published .public_key = true := by
  cases phase with
  | requested => exact h.2.ordered hpublished
  | check_private => exact h.2.ordered hpublished
  | check_public => exact h.2.ordered hpublished
  | create_parent parent => exact h.1.2.ordered hpublished
  | reserve parent attempt => exact h.1.2.ordered hpublished
  | holding workspace point => exact h.2.ordered hpublished
  | dropping workspace removal result => exact ResultInv.ordered h hpublished
  | returned result => exact ResultInv.ordered h hpublished

theorem Sound.at_point (hsound : Sound system request tree call)
    (hcase : call.phase = .holding workspace point) :
    (∀ other, call.keygen.workspace = some other → other = workspace) ∧ PointInv system call point := by
  have hphase := hsound.phase
  rw [hcase] at hphase
  exact hphase

theorem Advances.continues {point' : Point} (hsound : Sound system request tree call)
    (hcase : call.phase = .holding workspace point) (hpoint : PointInv system call point') :
    Advances system request drawn tree call drawn tree (call.goto (.holding workspace point')) := by
  refine .goto hsound (Nat.le_refl _) ?_ ?_ ⟨(hsound.at_point hcase).1, hpoint⟩
  · intro w hw
    rw [hcase]
    exact hw
  · intro w hw
    rw [hcase]
    exact hw

theorem Advances.finishes {result : AppResult KeyOperationResult}
    (hsound : Sound system request tree call) (hcase : call.phase = .holding workspace point)
    (hresult : ResultInv system request call result) :
    Advances system request drawn tree call drawn tree (call.finish workspace result) := by
  refine .goto hsound (Nat.le_refl _) (fun w hw => ?_) (fun w hw => ?_) hresult
  · cases hw
  · rw [hcase]
    exact hw

theorem Advances.fails {error : AppError} (hsound : Sound system request tree call)
    (hcase : call.phase = .holding workspace point) :
    Advances system request drawn tree call drawn tree (call.finish workspace (.error error)) :=
  .finishes hsound hcase (.of_error (hsound.at_point hcase).2.ordered)

theorem Advances.spawns (hsound : Sound system request tree call)
    (hcase : call.phase = .holding workspace .spawn) :
    Advances system request drawn tree call drawn tree
      { call with
        phase := .holding workspace .generate
        keygen := .running workspace fun _ => none } := by
  obtain ⟨-, hkeygen, hunpublished⟩ := hsound.at_point hcase
  constructor
  · exact .refl tree
  · exact Nat.le_refl _
  · have hused : call.phase.workspace = some workspace := by rw [hcase]; rfl
    rintro w (hw | hw)
    · obtain rfl := Option.some.inj hw
      exact .inl (.inl hused)
    · obtain rfl := Option.some.inj hw
      exact .inl (.inl hused)
  · exact fun _ hpublished => .inl hpublished
  · constructor
    · exact ⟨fun other hother => (Option.some.inj hother).symm, hunpublished⟩
    · intro written hended
      cases hended
    · intro w file contents _ hwritten
      cases hwritten
    · intro file hpublished
      rw [show call.published file = false from hunpublished file] at hpublished
      cases hpublished

theorem written_congr (h : call'.keygen = call.keygen) :
    call'.generated = call.generated ∧ call'.written = call.written := by
  unfold Call.generated Call.written
  rw [h]
  exact ⟨rfl, rfl⟩

/-- What was generated was written. -/
theorem written_of_generated {file : KeyFile} {contents : Bytes}
    (h : call.generated file = some contents) : call.written file = some contents := by
  unfold Call.generated at h
  unfold Call.written
  cases hkeygen : call.keygen with
  | absent =>
    rw [hkeygen] at h
    cases h
  | running other written =>
    rw [hkeygen] at h
    cases h
  | ended failure written =>
    rw [hkeygen] at h
    cases failure with
    | none => exact h
    | some status => cases h

/-- A file that is read back is the one that was generated. -/
theorem generated_of_lookup {written : Written} {file : KeyFile} {bytes : Bytes}
    (hsound : Sound system request tree call) (hcase : call.phase = .holding workspace point)
    (hended : call.keygen = .ended none written) (hunpublished : call.published file = false)
    (hlookup : tree.lookup (workspace.file file) = some (.file bytes)) :
    call.generated file = some bytes := by
  have hgenerated : call.generated = written := by
    unfold Call.generated
    rw [hended]
  obtain ⟨contents, hcontents⟩ := Option.isSome_iff_exists.mp (hsound.complete written hended file)
  rw [← hgenerated] at hcontents
  have hheld : call.phase.held = some workspace := by rw [hcase]; rfl
  have hthere := hsound.held workspace file contents hheld (written_of_generated hcontents) hunpublished
  rw [hlookup] at hthere
  cases hthere
  exact hcontents

theorem Call.Verified.generates {fingerprint : Text} (h : call.Verified system fingerprint)
    (file : KeyFile) : ∃ contents, call.generated file = some contents := by
  obtain ⟨private_bytes, public_bytes, hprivate, hpublic, -⟩ := h
  cases file with
  | private_key => exact ⟨private_bytes, hprivate⟩
  | public_key => exact ⟨public_bytes, hpublic⟩

theorem MovedBefore.unpublished {file : KeyFile} (h : MovedBefore call file) :
    call.published file = false := by
  cases file with
  | public_key => exact h .public_key
  | private_key =>
    rw [← Bool.not_eq_true, h]
    exact fun hsame => nomatch hsame

theorem published_publish {file other : KeyFile} :
    (call.publish file).published other = true ↔ call.published other = true ∨ other = file := by
  show Function.update call.published file true other = true ↔ _
  by_cases hsame : other = file
  · rw [hsame, Function.update_self]
    exact iff_of_true rfl (.inr rfl)
  · rw [Function.update_of_ne hsame]
    exact ⟨.inl, fun hpublished => hpublished.resolve_right hsame⟩

theorem after_move_eq (request : KeyGenerateRequest) (call : Call) (workspace : KeyGenerationWorkspace)
    (fingerprint : Text) (file : KeyFile) :
    (after_move request call workspace fingerprint file).keygen = call.keygen ∧
      (after_move request call workspace fingerprint file).published = call.published ∧
      (after_move request call workspace fingerprint file).phase.workspace = some workspace := by
  cases file <;> exact ⟨rfl, rfl, rfl⟩

/-- The promises of a call behind a move. -/
theorem after_move_phase {file : KeyFile} {fingerprint : Text}
    (hkeygen : ∀ other, call.keygen.workspace = some other → other = workspace)
    (hverified : call.Verified system fingerprint) (hbefore : MovedBefore call file) :
    PhaseInv system request (after_move request (call.publish file) workspace fingerprint file)
      (after_move request (call.publish file) workspace fingerprint file).phase := by
  cases file with
  | public_key =>
    refine ⟨hkeygen, hverified, fun other => published_publish.trans ?_⟩
    exact or_iff_right fun hpublished => by
      rw [hbefore other] at hpublished
      cases hpublished
  | private_key =>
    have hboth : ∀ other, (call.publish .private_key).published other = true := by
      intro other
      rw [published_publish, hbefore]
      cases other <;> simp
    constructor
    · exact fun _ => hboth .public_key
    · intro value hvalue
      cases hvalue
      exact ⟨fingerprint, hverified, rfl, hboth⟩

theorem Advances.moves {file : KeyFile} {fingerprint : Text} {node : Node Bytes} {moved left : Tree}
    (hsound : Sound system request tree call)
    (hcase : call.phase = .holding workspace (.move file fingerprint))
    (hapart : ∀ file file', system.destination request file ≠ workspace.file file')
    (hnode : tree.lookup (workspace.file file) = some node)
    (hplace : Files.place tree (system.destination request file) node = some moved)
    (hleft : Within (fun path => path = workspace.file file) moved left) :
    Advances system request drawn tree call drawn left
      (after_move request (call.publish file) workspace fingerprint file) := by
  obtain ⟨hkeygen, hverified, hbefore⟩ := hsound.at_point hcase
  have hheld : call.phase.held = some workspace := by rw [hcase]; rfl
  have hused : call.phase.workspace = some workspace := by rw [hcase]; rfl
  obtain ⟨hfree, hthere⟩ := Files.lookup_place hplace
  have hwithin : Within (fun path => path = workspace.file file) tree left :=
    ((Files.place_within hplace).mono fun _ hfalse => hfalse.elim).trans hleft
  -- the file that is moved is the one that was generated
  obtain ⟨contents, hgenerated⟩ := hverified.generates file
  have hcontents := hsound.held workspace file contents hheld (written_of_generated hgenerated)
    hbefore.unpublished
  rw [hnode, Option.some.injEq] at hcontents
  subst hcontents
  obtain ⟨hsame, hpublished, hworkspace⟩ := after_move_eq request (call.publish file) workspace fingerprint file
  have hwritten := written_congr hsame
  constructor
  · exact hwithin.mono fun path hpath => ⟨workspace, file, .inl hused, hpath⟩
  · exact Nat.le_refl _
  · rintro w (hw | hw)
    · rw [hworkspace] at hw
      exact .inl (.inl (hused.trans hw))
    · rw [hsame] at hw
      exact .inl (.inr hw)
  · intro other hother
    rw [hpublished] at hother ⊢
    rcases published_publish.mp hother with hold | rfl
    · exact .inl hold
    · exact .inr ⟨hfree, fun _ => published_publish.mp⟩
  · constructor
    · exact after_move_phase hkeygen hverified hbefore
    · intro written hended
      rw [hsame] at hended
      exact hsound.complete written hended
    · -- the other file is still in the workspace
      intro w other old hw hold hunpublished
      obtain rfl : workspace = w := by
        cases file with
        | public_key => exact Option.some.inj hw
        | private_key => cases hw
      rw [hwritten.2] at hold
      rw [hpublished, ← Bool.not_eq_true, published_publish, not_or] at hunpublished
      have hlookup := hsound.held workspace other old hheld hold (Bool.not_eq_true _ ▸ hunpublished.1)
      exact hwithin.kept _ _ (by simp) hlookup fun hpath => hunpublished.2 (file_inj hpath).2
    · intro other hother
      unfold Shows
      rw [hwritten.1]
      rw [hpublished] at hother
      rcases published_publish.mp hother with hold | rfl
      · obtain ⟨old, hgenerated, hlookup⟩ := hsound.shown other hold
        exact ⟨old, hgenerated, hwithin.kept _ _ (by simp) hlookup (hapart other file)⟩
      · exact ⟨contents, hgenerated, hleft.kept _ _ (by simp) hthere (hapart other other)⟩

/-- The tree when a file was moved. -/
theorem move_within {file : KeyFile} {node : Node Bytes} {moved : Tree} (hrooted : Rooted tree)
    (hplace : Files.place tree (system.destination request file) node = some moved) :
    Within (fun path => path = workspace.file file) moved
      (if system.windows then Files.unlink moved (workspace.file file) else moved) := by
  split_ifs
  · exact Files.unlink_within ((Files.place_within hplace).rooted hrooted)
  · exact .refl moved

theorem hold_advances (hrooted : Rooted tree) (hsound : Sound system request tree call)
    (hcase : call.phase = .holding workspace point)
    (hapart : ∀ file file', system.destination request file ≠ workspace.file file')
    {fault : Option AppError}
    (h : hold system request tree call workspace point fault = some (tree', call')) :
    Advances system request drawn tree call drawn tree' call' := by
  have hpoint := (hsound.at_point hcase).2
  cases point with
  | find_keygen =>
    cases fault with
    | some error =>
      cases h
      exact .fails hsound hcase
    | none =>
      cases h
      exact .continues hsound hcase hpoint
  | spawn =>
    cases fault with
    | some error =>
      cases h
      exact .fails hsound hcase
    | none =>
      cases h
      exact .spawns hsound hcase
  | generate =>
    cases fault with
    | some error =>
      cases h
      exact .fails hsound hcase
    | none =>
      unfold hold at h
      dsimp only at h
      split at h
      · next written hended =>
        cases h
        exact .continues hsound hcase ⟨⟨written, hended⟩, hpoint⟩
      · cases h
        exact .fails hsound hcase
      · cases h
  | read_public =>
    cases fault with
    | some error =>
      cases h
      exact .fails hsound hcase
    | none =>
      obtain ⟨⟨written, hended⟩, hunpublished⟩ := hpoint
      unfold hold at h
      dsimp only at h
      split at h
      · next bytes hlookup =>
        split at h
        · cases h
          exact .fails hsound hcase
        · next canonical hread =>
          cases h
          have hgenerated := generated_of_lookup hsound hcase hended (hunpublished _) hlookup
          exact .continues hsound hcase
            ⟨⟨written, hended⟩, hunpublished, workspace, bytes, hgenerated, hread⟩
      · cases h
  | verify canonical =>
    cases fault with
    | some error =>
      cases h
      exact .fails hsound hcase
    | none =>
      obtain ⟨⟨written, hended⟩, hunpublished, read, public_bytes, hpublic, hread⟩ := hpoint
      unfold hold at h
      dsimp only at h
      split at h
      · next bytes hlookup =>
        split at h
        · cases h
          exact .fails hsound hcase
        · next fingerprint hcompare =>
          cases h
          have hgenerated := generated_of_lookup hsound hcase hended (hunpublished _) hlookup
          exact .continues hsound hcase
            ⟨⟨bytes, public_bytes, hgenerated, hpublic, read, canonical, hread, hcompare⟩, hunpublished⟩
      · cases h
  | require_regular_file file fingerprint =>
    cases fault with
    | some error =>
      cases h
      exact .fails hsound hcase
    | none =>
      unfold hold at h
      dsimp only at h
      split at h
      · cases h
        exact .continues hsound hcase hpoint
      · cases h
        exact .continues hsound hcase hpoint
      · cases h
        exact .fails hsound hcase
      · cases h
  | check_destination file fingerprint =>
    unfold hold at h
    dsimp only at h
    split_ifs at h
    · cases h
      exact .fails hsound hcase
    · cases h
      exact .continues hsound hcase hpoint
  | move file fingerprint =>
    cases fault with
    | some error =>
      cases h
      exact .continues hsound hcase hpoint.2
    | none =>
      unfold hold at h
      dsimp only at h
      obtain ⟨node, hnode, h⟩ := Option.bind_eq_some_iff.mp h
      obtain ⟨moved, hplace, h⟩ := Option.map_eq_some_iff.mp h
      cases h
      exact .moves hsound hcase hapart hnode hplace (move_within hrooted hplace)
  | inspect_failure file error =>
    unfold hold at h
    dsimp only at h
    split_ifs at h
    · cases h
      exact .fails hsound hcase
    · cases h
      exact .fails hsound hcase

end Holding

/-! ### The end of a call -/

theorem Advances.removes {workspace : KeyGenerationWorkspace} {removal : Removal}
    {result : AppResult KeyOperationResult} {phase : Phase} (hsound : Sound system request tree call)
    (hcase : call.phase = .dropping workspace removal result)
    (hapart : ∀ file file', system.destination request file ≠ workspace.file file')
    (hwithin : Within (fun path => ∃ file, path = workspace.file file) tree tree')
    (hphase : phase = .returned result ∨ ∃ removal, phase = .dropping workspace removal result) :
    Advances system request drawn tree call drawn tree' (call.goto phase) := by
  have hused : call.phase.workspace = some workspace := by rw [hcase]; rfl
  have hresult := hsound.phase
  rw [hcase] at hresult
  constructor
  · exact hwithin.mono fun path ⟨file, hpath⟩ => ⟨workspace, file, .inl hused, hpath⟩
  · exact Nat.le_refl _
  · rintro w (hw | hw)
    · rcases hphase with rfl | ⟨removal, rfl⟩
      · cases hw
      · exact .inl (.inl (hused.trans hw))
    · exact .inl (.inr hw)
  · exact fun _ hpublished => .inl hpublished
  · constructor
    · rcases hphase with rfl | ⟨removal, rfl⟩
      · exact ⟨hresult.ordered, hresult.success⟩
      · exact ⟨hresult.ordered, hresult.success⟩
    · exact hsound.complete
    · intro w file contents hw
      rcases hphase with rfl | ⟨removal, rfl⟩ <;> cases hw
    · intro file hpublished
      obtain ⟨contents, hgenerated, hlookup⟩ := hsound.shown file hpublished
      exact ⟨contents, hgenerated, hwithin.kept _ _ (by simp) hlookup
        fun ⟨file', hpath⟩ => hapart file file' hpath⟩

theorem drop_advances {workspace : KeyGenerationWorkspace} {removal : Removal}
    {result : AppResult KeyOperationResult} {fault : Option AppError} (hrooted : Rooted tree)
    (hsound : Sound system request tree call)
    (hcase : call.phase = .dropping workspace removal result)
    (hapart : ∀ file file', system.destination request file ≠ workspace.file file')
    (h : drop_workspace tree call workspace result fault removal = (tree', call')) :
    Advances system request drawn tree call drawn tree' call' := by
  cases removal with
  | file file =>
    obtain ⟨rfl, rfl⟩ := Prod.mk.inj h
    refine .removes hsound hcase hapart ?_ (.inr ⟨_, rfl⟩)
    split_ifs
    · exact .refl tree
    · exact (Files.unlink_within hrooted).mono fun path hpath => ⟨file, hpath⟩
  | directory =>
    obtain ⟨rfl, rfl⟩ := Prod.mk.inj h
    refine .removes hsound hcase hapart ?_ (.inl rfl)
    split_ifs
    · exact .refl tree
    · exact Files.remove_directory_within.mono fun _ hfalse => hfalse.elim

/-- **Operation**: what a call does with one operation, whatever fails. -/
theorem advance_advances {fault : Option AppError} (hrooted : Rooted tree)
    (hsound : Sound system request tree call)
    (hapart : ∀ workspace, call.Uses workspace → ∀ file file',
      system.destination request file ≠ workspace.file file')
    (h : advance system request drawn tree call fault = some (drawn', tree', call')) :
    Advances system request drawn tree call drawn' tree' call' := by
  unfold advance at h
  cases hcase : call.phase with
  | holding workspace point =>
    rw [hcase] at h
    obtain ⟨⟨left, moved⟩, hhold, h⟩ := Option.map_eq_some_iff.mp h
    cases h
    have hused : call.Uses workspace := .inl (by rw [hcase]; rfl)
    exact hold_advances hrooted hsound hcase (hapart workspace hused) hhold
  | dropping workspace removal result =>
    rw [hcase] at h
    obtain ⟨rfl, hdrop⟩ := Prod.mk.inj (Option.some.inj h)
    have hused : call.Uses workspace := .inl (by rw [hcase]; rfl)
    exact drop_advances hrooted hsound hcase (hapart workspace hused) hdrop
  | returned result =>
    rw [hcase] at h
    cases h
  | requested =>
    rw [hcase] at h
    exact enter_advances hsound h
  | check_private =>
    rw [hcase] at h
    exact enter_advances hsound h
  | check_public =>
    rw [hcase] at h
    exact enter_advances hsound h
  | create_parent parent =>
    rw [hcase] at h
    exact enter_advances hsound h
  | reserve parent attempt =>
    rw [hcase] at h
    exact enter_advances hsound h

/-! ### The child of a call -/

section Child

variable {workspace : KeyGenerationWorkspace} {written : Written}

theorem not_generated (hrunning : call.keygen = .running workspace written) (file : KeyFile) :
    call.generated file = none := by
  unfold Call.generated
  rw [hrunning]

theorem not_verified (hrunning : call.keygen = .running workspace written) (fingerprint : Text) :
    ¬ call.Verified system fingerprint := by
  intro hverified
  obtain ⟨contents, hgenerated⟩ := hverified.generates .private_key
  rw [not_generated hrunning] at hgenerated
  cases hgenerated

/-- Nothing is published while `ssh-keygen` runs. -/
theorem unpublished_running (hsound : Sound system request tree call)
    (hrunning : call.keygen = .running workspace written) : Unpublished call := by
  intro file
  rw [← Bool.not_eq_true]
  intro hpublished
  obtain ⟨contents, hgenerated, -⟩ := hsound.shown file hpublished
  rw [not_generated hrunning] at hgenerated
  cases hgenerated

/-- A call waits for its `ssh-keygen`, or has given it up. -/
theorem phaseInv_running {phase : Phase} {keygen : Keygen}
    (hrunning : call.keygen = .running workspace written)
    (hkeygen : ∀ other, keygen.workspace = some other → other = workspace)
    (h : PhaseInv system request call phase) :
    PhaseInv system request { call with keygen := keygen } phase := by
  have habsent : call.keygen ≠ .absent := by
    rw [hrunning]
    exact fun hsame => nomatch hsame
  have hended : ∀ left, call.keygen ≠ .ended none left := by
    intro left
    rw [hrunning]
    exact fun hsame => nomatch hsame
  have hresult : ∀ {result}, ResultInv system request call result →
      ResultInv system request { call with keygen := keygen } result := by
    intro result h
    refine ⟨h.ordered, fun value hvalue => ?_⟩
    obtain ⟨fingerprint, hverified, -⟩ := h.success value hvalue
    exact absurd hverified (not_verified hrunning fingerprint)
  cases phase with
  | requested => exact absurd h.1 habsent
  | check_private => exact absurd h.1 habsent
  | check_public => exact absurd h.1 habsent
  | create_parent parent => exact absurd h.1.1 habsent
  | reserve parent attempt => exact absurd h.1.1 habsent
  | dropping workspace removal result => exact hresult h
  | returned result => exact hresult h
  | holding held point =>
    obtain ⟨hsame, hpoint⟩ := h
    have hheld : workspace = held := hsame workspace (by rw [hrunning]; rfl)
    refine ⟨fun other hother => (hkeygen other hother).trans hheld, ?_⟩
    cases point with
    | generate => exact hpoint
    | inspect_failure file error => cases file <;> exact hpoint
    | find_keygen => exact absurd hpoint.1 habsent
    | spawn => exact absurd hpoint.1 habsent
    | read_public =>
      obtain ⟨⟨left, hleft⟩, -⟩ := hpoint
      exact absurd hleft (hended left)
    | verify canonical =>
      obtain ⟨⟨left, hleft⟩, -⟩ := hpoint
      exact absurd hleft (hended left)
    | require_regular_file file fingerprint => exact absurd hpoint.1 (not_verified hrunning _)
    | check_destination file fingerprint => exact absurd hpoint.1 (not_verified hrunning _)
    | move file fingerprint => exact absurd hpoint.1 (not_verified hrunning _)

theorem held_running (hsound : Sound system request tree call)
    (hrunning : call.keygen = .running workspace written) {held : KeyGenerationWorkspace}
    (hheld : call.phase.held = some held) : workspace = held := by
  have hphase := hsound.phase
  cases hcase : call.phase with
  | holding other point =>
    rw [hcase] at hheld hphase
    obtain rfl := Option.some.inj hheld
    exact hphase.1 workspace (by rw [hrunning]; rfl)
  | _ =>
    rw [hcase] at hheld
    cases hheld

theorem written_running (hrunning : call.keygen = .running workspace written) :
    call.written = written := by
  unfold Call.written
  rw [hrunning]

/-- A step of the child, which has published nothing. -/
theorem Advances.child {keygen : Keygen} (hsound : Sound system request tree call)
    (hrunning : call.keygen = .running workspace written)
    (hwithin : Within (fun path => ∃ file, path = workspace.file file) tree tree')
    (hkeygen : ∀ other, keygen.workspace = some other → other = workspace)
    (hcomplete : ∀ left, keygen = .ended none left → ∀ file, (left file).isSome = true)
    (hheld : call.phase.held = some workspace → ∀ file contents,
      ({ call with keygen := keygen } : Call).written file = some contents →
        tree'.lookup (workspace.file file) = some (.file contents)) :
    Advances system request drawn tree call drawn tree' { call with keygen := keygen } := by
  have hused : call.keygen.workspace = some workspace := by rw [hrunning]; rfl
  have hunpublished := unpublished_running hsound hrunning
  constructor
  · exact hwithin.mono fun path ⟨file, hpath⟩ => ⟨workspace, file, .inr hused, hpath⟩
  · exact Nat.le_refl _
  · rintro w (hw | hw)
    · exact .inl (.inl hw)
    · exact .inl (.inr (hkeygen w hw ▸ hused))
  · exact fun _ hpublished => .inl hpublished
  · constructor
    · exact phaseInv_running hrunning hkeygen hsound.phase
    · exact hcomplete
    · intro w file contents hw hwritten _
      obtain rfl := held_running hsound hrunning hw
      exact hheld hw file contents hwritten
    · intro file hpublished
      rw [show call.published file = false from hunpublished file] at hpublished
      cases hpublished

/-- **Child**: what `ssh-keygen` does for its call. -/
theorem act_advances {action : Action} {keygen : Keygen} (hsound : Sound system request tree call)
    (h : call.keygen.act tree action = some (tree', keygen)) :
    Advances system request drawn tree call drawn tree' { call with keygen := keygen } := by
  cases hrunning : call.keygen with
  | absent =>
    rw [hrunning] at h
    cases action <;> cases h
  | ended failure written =>
    rw [hrunning] at h
    cases action <;> cases h
  | running workspace written =>
    rw [hrunning] at h
    have hunpublished := unpublished_running hsound hrunning
    cases action with
    | writes file contents =>
      obtain ⟨left, hwrite, h⟩ := Option.map_eq_some_iff.mp h
      cases h
      have hwithin := Files.write_within hwrite
      refine .child hsound hrunning (hwithin.mono fun path hpath => ⟨file, hpath⟩) ?_ ?_ ?_
      · exact fun other hother => (Option.some.inj hother).symm
      · exact fun left hended => nomatch hended
      · intro hheld other old hold
        rw [written_running rfl] at hold
        by_cases hsame : other = file
        · subst hsame
          rw [Function.update_self] at hold
          cases hold
          exact Files.lookup_write hwrite
        · rw [Function.update_of_ne hsame] at hold
          have hlookup := hsound.held workspace other old hheld
            ((congrFun (written_running hrunning) other).trans hold) (hunpublished other)
          exact hwithin.kept _ _ (by simp) hlookup fun hpath => hsame (file_inj hpath).2
    | ends failure =>
      obtain ⟨hends, h⟩ := Option.ite_none_right_eq_some.mp h
      cases h
      refine .child hsound hrunning (.refl tree) (fun other hother => nomatch hother) ?_ ?_
      · intro left hended file
        cases hended
        have hboth := hends.resolve_left (by decide)
        cases file with
        | private_key => exact hboth.1
        | public_key => exact hboth.2
      · intro hheld other old hold
        exact hsound.held workspace other old hheld
          ((congrFun (written_running hrunning) other).trans hold) (hunpublished other)

end Child

end Keys
