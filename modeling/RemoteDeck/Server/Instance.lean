import Mathlib.Data.Finset.Basic
import RemoteDeck.Lib.Machine
import RemoteDeck.Server.Descriptor

/-! # One instance

    `RuntimeGuard` of `lifecycle.rs` on Windows: `acquire`, `publish` and
    `drop`, for any number of processes on one data directory.  A process may
    end or crash at any point, and the system then closes its handles; a
    process identifier may be given to another process after that.  The
    released desktop application takes the same mutex and knows no descriptor.

    This file defines:
    - `Stage`: how far a process is in `acquire` or `drop`
    - `act`: what one process does next
    - `instances`: the machine of all processes, the mutex and the file
-/

namespace Server

namespace Instance

inductive Stage where
  | absent
  | starting
  | legacy
  /-- The mutex existed, and a handle to it is open. -/
  | visiting
  | reading
  | judging (descriptor : RuntimeDescriptor)
  | existing (descriptor : RuntimeDescriptor)
  | refused (error : LifecycleError)
  /-- The mutex is new: `cleanup_stale_descriptor` is next. -/
  | cleaning
  | checking (descriptor : RuntimeDescriptor)
  | unlinking
  | windowing
  | primary (published_token : Option Text)
  | dropping (published_token : Option Text)
  | removing
  | releasing
  | finished
  deriving DecidableEq

/-- The process has created the mutex and holds it. -/
def Stage.holds : Stage → Bool
  | .legacy | .cleaning | .checking _ | .unlinking | .windowing | .primary _ | .dropping _ | .removing
  | .releasing => true
  | _ => false

/-- The process has a handle to the mutex. -/
def Stage.opened : Stage → Bool
  | .visiting => true
  | stage => stage.holds

/-- The process runs. -/
def Stage.runs : Stage → Bool
  | .absent => false
  | _ => true

/-- A failure is one of the file system or of the window. -/
inductive Action where
  | create
  | launch_legacy
  | close
  | read (failure : Option Text)
  | judge
  | clean (failure : Option Text)
  | check
  | unlink (failure : Option Text)
  | window (failure : Option Text)
  | publish (descriptor : RuntimeDescriptor) (failure : Option Text)
  | drop
  | drop_read (failure : Option Text)
  | remove (failed : Bool)
  | release
  | leave

/-- What a process sees of the others. -/
structure View where
  pid : UInt32
  mutex_exists : Bool
  file : Option (List UInt8)
  live : UInt32 → Bool

def View.is_process_alive (view : View) (pid : UInt32) : Bool := pid ≠ 0 && view.live pid

structure Effect where
  stage : Stage
  file : Option (List UInt8)
  /-- The descriptor that was written, if one was. -/
  written : Option RuntimeDescriptor

section
variable (platform : Platform)

def View.read (view : View) (failure : Option Text) : Except LifecycleError (Option RuntimeDescriptor) :=
  read_runtime_descriptor platform (match failure with
    | some error => .error error
    | none => .ok view.file)

def View.move (view : View) (stage : Stage) : Option Effect := some ⟨stage, view.file, none⟩

/-- `publish`: the file is replaced by one rename. -/
def View.publish (view : View) (descriptor : RuntimeDescriptor) (failure : Option Text) :
    Except LifecycleError (List UInt8) :=
  if descriptor.pid ≠ view.pid then
    .error (.InvalidRuntimeDescriptor "descriptor pid does not identify this process".toList)
  else do
    descriptor.validate
    let contents ← write_runtime_descriptor platform descriptor
    match failure with
    | some error => .error (.RuntimeDescriptorIo error)
    | none => .ok contents

/-- What one process does next. -/
def act (view : View) : Stage → Action → Option Effect
  | .absent, _ => none
  | _, .leave => view.move .absent
  | .starting, .create => view.move (if view.mutex_exists then .visiting else .cleaning)
  | .starting, .launch_legacy => view.move (if view.mutex_exists then .finished else .legacy)
  | .visiting, .close => view.move .reading
  | .reading, .read failure =>
      match view.read platform failure with
      | .ok (some descriptor) => view.move (.judging descriptor)
      | _ => view.move (.refused .LegacyInstanceRunning)
  | .judging descriptor, .judge =>
      view.move (if view.is_process_alive descriptor.pid then .existing descriptor
        else .refused .LegacyInstanceRunning)
  | .cleaning, .clean failure =>
      match view.read platform failure with
      | .ok (some descriptor) => view.move (.checking descriptor)
      | .ok none => view.move .windowing
      | .error error => view.move (.refused error)
  | .checking descriptor, .check =>
      view.move (if view.is_process_alive descriptor.pid then .refused .RuntimeDescriptorConflict
        else .unlinking)
  | .unlinking, .unlink failure =>
      match failure with
      | some error => view.move (.refused (.RuntimeDescriptorIo error))
      | none => some ⟨.windowing, none, none⟩
  | .windowing, .window failure =>
      match failure with
      | some error => view.move (.refused (.WindowsApi error))
      | none => view.move (.primary none)
  | .primary published_token, .publish descriptor failure =>
      match view.publish platform descriptor failure with
      | .ok contents => some ⟨.primary (some descriptor.control_token), some contents, some descriptor⟩
      | .error _ => view.move (.primary published_token)
  | .primary published_token, .drop => view.move (.dropping published_token)
  | .dropping none, .drop_read _ => view.move .releasing
  | .dropping (some token), .drop_read failure =>
      match view.read platform failure with
      | .ok (some descriptor) =>
          view.move (if descriptor.pid = view.pid ∧ descriptor.control_token = token then .removing
            else .releasing)
      | _ => view.move .releasing
  | .removing, .remove failed => some ⟨.releasing, if failed then view.file else none, none⟩
  | .releasing, .release => view.move .finished
  | _, _ => none

end

/-! ### All processes -/

/-- A process is named apart from its identifier, which may be used again. -/
structure State where
  stages : Nat → Stage
  pids : Nat → UInt32
  /-- The processes that run, and the identifiers of other programs. -/
  running : Finset Nat
  others : UInt32 → Bool
  handles : Finset Nat
  file : Option (List UInt8)
  /-- What each process has written, the newest first, for reference. -/
  written : List (Nat × RuntimeDescriptor)

inductive Label where
  | spawn (p : Nat) (pid : UInt32)
  | others (pid : UInt32) (runs : Bool)
  | act (p : Nat) (action : Action)

def State.live (s : State) (pid : UInt32) : Bool :=
  s.others pid || decide (∃ p ∈ s.running, s.pids p = pid)

def State.view (s : State) (p : Nat) : View :=
  ⟨s.pids p, !decide (s.handles = ∅), s.file, s.live⟩

/-- The system closes the handle of a process that has no use for it. -/
def State.after (s : State) (p : Nat) (effect : Effect) : State where
  stages := Function.update s.stages p effect.stage
  pids := s.pids
  running := if effect.stage.runs then insert p s.running else s.running.erase p
  others := s.others
  handles := if effect.stage.opened then insert p s.handles else s.handles.erase p
  file := effect.file
  written := effect.written.toList.map (p, ·) ++ s.written

def State.spawn (s : State) (p : Nat) (pid : UInt32) : State :=
  { s with
    stages := Function.update s.stages p .starting
    pids := Function.update s.pids p pid
    running := insert p s.running }

/-- The system gives out identifiers that are not in use. -/
def State.next (platform : Platform) (s : State) : Label → Option State
  | .spawn p pid =>
      if s.stages p = .absent ∧ s.written.all (·.1 ≠ p) ∧ pid ≠ 0 ∧ s.live pid = false then
        some (s.spawn p pid)
      else none
  | .others pid runs =>
      if runs && s.live pid then none
      else some { s with others := Function.update s.others pid runs }
  | .act p action => (act platform (s.view p) (s.stages p) action).map (s.after p)

/-- Any processes on a data directory that has this file in it at first. -/
def instances (platform : Platform) (file : Option (List UInt8)) : Machine State Label where
  init s := (∀ p, s.stages p = .absent) ∧ s.running = ∅ ∧ s.handles = ∅ ∧ s.file = file ∧ s.written = []
  next := State.next platform

/-! ### One process -/

variable {platform : Platform} {view : View} {stage : Stage} {action : Action} {effect : Effect}

/-- The descriptor of a process is in place. -/
def Published (platform : Platform) (pid : UInt32) (file : Option (List UInt8))
    (descriptor : RuntimeDescriptor) : Prop :=
  descriptor.pid = pid ∧ descriptor.validate = .ok () ∧
    ∃ contents, write_runtime_descriptor platform descriptor = .ok contents ∧ file = some contents

/-- What the holder of the mutex knows about the file. -/
def Stage.Knows (platform : Platform) (p : Nat) (pid : UInt32) (file : Option (List UInt8))
    (written : List (Nat × RuntimeDescriptor)) : Stage → Prop
  | .windowing | .primary none | .dropping none => file = none
  | .primary (some token) | .dropping (some token) =>
      ∃ descriptor, (p, descriptor) ∈ written ∧ descriptor.control_token = token ∧
        Published platform pid file descriptor
  | _ => True

theorem read_none {file : Except Text (Option (List UInt8))}
    (h : read_runtime_descriptor platform file = .ok none) : file = .ok none := by
  unfold read_runtime_descriptor at h
  rw [Outcome.bind_eq_ok] at h
  obtain ⟨found, hfound, h⟩ := h
  cases found with
  | none =>
    cases file with
    | error error => cases hfound
    | ok file => exact congrArg Except.ok (Except.ok.inj hfound)
  | some bytes =>
    simp only [Outcome.ite_error_eq_ok, Outcome.bind_eq_ok, Except.ok.injEq, reduceCtorEq, and_false,
      exists_false] at h

theorem View.read_none {failure : Option Text} (h : view.read platform failure = .ok none) :
    view.file = none := by
  have hfile := Instance.read_none h
  cases failure with
  | none => exact Except.ok.inj hfile
  | some error => cases hfile

theorem View.publish_ok {descriptor : RuntimeDescriptor} {failure : Option Text} {contents : List UInt8}
    (h : view.publish platform descriptor failure = .ok contents) :
    Published platform view.pid (some contents) descriptor := by
  unfold View.publish at h
  rw [Outcome.ite_error_eq_ok, not_not, Outcome.bind_eq_ok] at h
  obtain ⟨hpid, _, hvalid, h⟩ := h
  rw [Outcome.bind_eq_ok] at h
  obtain ⟨written, hwritten, h⟩ := h
  cases failure with
  | some error => cases h
  | none =>
    obtain rfl := Except.ok.inj h
    exact ⟨hpid, hvalid, written, hwritten, rfl⟩

/-- **What a process can do**, with what it has found out. -/
inductive Moves (platform : Platform) (view : View) : Stage → Effect → Prop where
  | leave {stage : Stage} : stage ≠ .absent → Moves platform view stage ⟨.absent, view.file, none⟩
  | visit : view.mutex_exists = true → Moves platform view .starting ⟨.visiting, view.file, none⟩
  | take : view.mutex_exists = false → Moves platform view .starting ⟨.cleaning, view.file, none⟩
  | legacy_yields : view.mutex_exists = true → Moves platform view .starting ⟨.finished, view.file, none⟩
  | legacy_takes : view.mutex_exists = false → Moves platform view .starting ⟨.legacy, view.file, none⟩
  | close : Moves platform view .visiting ⟨.reading, view.file, none⟩
  | found {failure : Option Text} {descriptor : RuntimeDescriptor} :
      view.read platform failure = .ok (some descriptor) →
      Moves platform view .reading ⟨.judging descriptor, view.file, none⟩
  | not_found : Moves platform view .reading ⟨.refused .LegacyInstanceRunning, view.file, none⟩
  | alive {descriptor : RuntimeDescriptor} : view.is_process_alive descriptor.pid = true →
      Moves platform view (.judging descriptor) ⟨.existing descriptor, view.file, none⟩
  | gone {descriptor : RuntimeDescriptor} :
      Moves platform view (.judging descriptor) ⟨.refused .LegacyInstanceRunning, view.file, none⟩
  | stale {failure : Option Text} {descriptor : RuntimeDescriptor} :
      view.read platform failure = .ok (some descriptor) →
      Moves platform view .cleaning ⟨.checking descriptor, view.file, none⟩
  | clean : view.file = none → Moves platform view .cleaning ⟨.windowing, none, none⟩
  | unreadable {error : LifecycleError} : Moves platform view .cleaning ⟨.refused error, view.file, none⟩
  | conflict {descriptor : RuntimeDescriptor} :
      Moves platform view (.checking descriptor) ⟨.refused .RuntimeDescriptorConflict, view.file, none⟩
  | dead {descriptor : RuntimeDescriptor} :
      Moves platform view (.checking descriptor) ⟨.unlinking, view.file, none⟩
  | unlinked : Moves platform view .unlinking ⟨.windowing, none, none⟩
  | guarded : Moves platform view .windowing ⟨.primary none, view.file, none⟩
  | failed {error : LifecycleError} {stage : Stage} : stage = .unlinking ∨ stage = .windowing →
      Moves platform view stage ⟨.refused error, view.file, none⟩
  | publish {token : Option Text} {descriptor : RuntimeDescriptor} {contents : List UInt8} :
      Published platform view.pid (some contents) descriptor → Moves platform view (.primary token)
        ⟨.primary (some descriptor.control_token), some contents, some descriptor⟩
  | not_published {token : Option Text} :
      Moves platform view (.primary token) ⟨.primary token, view.file, none⟩
  | drop {token : Option Text} : Moves platform view (.primary token) ⟨.dropping token, view.file, none⟩
  | keep {token : Option Text} : Moves platform view (.dropping token) ⟨.releasing, view.file, none⟩
  | recognise {token : Text} :
      Moves platform view (.dropping (some token)) ⟨.removing, view.file, none⟩
  | remove {failed : Bool} :
      Moves platform view .removing ⟨.releasing, if failed then view.file else none, none⟩
  | release : Moves platform view .releasing ⟨.finished, view.file, none⟩

theorem act_moves (h : act platform view stage action = some effect) :
    Moves platform view stage effect := by
  unfold act View.move at h
  split at h
  · cases h
  · next hrunning =>
    obtain rfl := Option.some.inj h
    exact .leave hrunning
  · obtain rfl := Option.some.inj h
    cases hexists : view.mutex_exists with
    | true => exact .visit hexists
    | false => exact .take hexists
  · obtain rfl := Option.some.inj h
    cases hexists : view.mutex_exists with
    | true => exact .legacy_yields hexists
    | false => exact .legacy_takes hexists
  · obtain rfl := Option.some.inj h
    exact .close
  · split at h
    · next hread =>
      obtain rfl := Option.some.inj h
      exact .found hread
    · obtain rfl := Option.some.inj h
      exact .not_found
  · obtain rfl := Option.some.inj h
    split
    · next halive => exact .alive halive
    · exact .gone
  · split at h
    · next hread =>
      obtain rfl := Option.some.inj h
      exact .stale hread
    · next hread =>
      obtain rfl := Option.some.inj h
      have hfile := View.read_none hread
      rw [hfile]
      exact .clean hfile
    · obtain rfl := Option.some.inj h
      exact .unreadable
  · obtain rfl := Option.some.inj h
    split
    · exact .conflict
    · exact .dead
  · split at h
    · obtain rfl := Option.some.inj h
      exact .failed (.inl rfl)
    · obtain rfl := Option.some.inj h
      exact .unlinked
  · split at h
    · obtain rfl := Option.some.inj h
      exact .failed (.inr rfl)
    · obtain rfl := Option.some.inj h
      exact .guarded
  · split at h
    · next hpublish =>
      obtain rfl := Option.some.inj h
      exact .publish (View.publish_ok hpublish)
    · obtain rfl := Option.some.inj h
      exact .not_published
  · obtain rfl := Option.some.inj h
    exact .drop
  · obtain rfl := Option.some.inj h
    exact .keep
  · split at h
    · obtain rfl := Option.some.inj h
      split
      · exact .recognise
      · exact .keep
    · obtain rfl := Option.some.inj h
      exact .keep
  · obtain rfl := Option.some.inj h
    exact .remove
  · obtain rfl := Option.some.inj h
    exact .release
  · cases h

/-- Only the holder of the mutex touches the file. -/
theorem Moves.file_eq (h : Moves platform view stage effect) (hholds : stage.holds = false) :
    effect.file = view.file ∧ effect.written = none := by
  cases h <;> simp_all [Stage.holds]

/-- The mutex is taken where there is none. -/
theorem Moves.holds (h : Moves platform view stage effect) (hholds : effect.stage.holds = true) :
    stage.holds = true ∨ view.mutex_exists = false := by
  cases h <;> simp_all [Stage.holds]

theorem Moves.knows {p : Nat} {written : List (Nat × RuntimeDescriptor)}
    (h : Moves platform view stage effect) (hknows : stage.Knows platform p view.pid view.file written) :
    effect.stage.Knows platform p view.pid effect.file
      (effect.written.toList.map (p, ·) ++ written) := by
  cases h with
  | publish hpublished => exact ⟨_, List.mem_cons_self, rfl, hpublished⟩
  | @drop token =>
    cases token with
    | none => exact hknows
    | some token => exact hknows
  | _ => simp_all [Stage.Knows]

/-- A handle is opened at the start. -/
theorem Moves.runs (h : Moves platform view stage effect) : stage.runs = true := by
  cases h with
  | leave hrunning => cases stage <;> simp_all [Stage.runs]
  | failed hstage => rcases hstage with rfl | rfl <;> rfl
  | _ => rfl

/-! ### All processes -/

/-- What holds of the mutex and of the file in every state. -/
structure Sound (platform : Platform) (s : State) : Prop where
  opened : ∀ p, p ∈ s.handles ↔ (s.stages p).opened = true
  running : ∀ p, p ∈ s.running ↔ (s.stages p).runs = true
  one : ∀ p q, (s.stages p).holds = true → (s.stages q).holds = true → p = q
  knows : ∀ p, (s.stages p).Knows platform p (s.pids p) s.file s.written

theorem Stage.opened_of_holds {stage : Stage} (h : stage.holds = true) : stage.opened = true := by
  cases stage <;> simp_all [Stage.holds, Stage.opened]

theorem Stage.knows_of_not_holds {p : Nat} {pid : UInt32} {file : Option (List UInt8)}
    {written : List (Nat × RuntimeDescriptor)} {stage : Stage} (h : stage.holds = false) :
    stage.Knows platform p pid file written := by
  cases stage <;> simp_all [Stage.holds, Stage.Knows]

variable {s s' : State}

theorem Sound.after (h : Sound platform s) {p : Nat}
    (hmoves : Moves platform (s.view p) (s.stages p) effect) : Sound platform (s.after p effect) := by
  have hfree : (s.view p).mutex_exists = false → ∀ q, (s.stages q).holds = false := by
    intro hexists q
    have hempty : s.handles = ∅ := by simpa [State.view] using hexists
    by_contra hholds
    have hq := (h.opened q).mpr (Stage.opened_of_holds (by simpa using hholds))
    rw [hempty] at hq
    exact absurd hq (Finset.notMem_empty q)
  constructor
  · intro q
    by_cases hq : q = p
    · subst hq
      cases hopened : effect.stage.opened <;> simp [State.after, hopened]
    · cases hopened : effect.stage.opened <;> simp [State.after, hopened, hq, h.opened q]
  · intro q
    by_cases hq : q = p
    · subst hq
      cases hruns : effect.stage.runs <;> simp [State.after, hruns]
    · cases hruns : effect.stage.runs <;> simp [State.after, hruns, hq, h.running q]
  · -- a new holder has found the mutex free
    have hone : ∀ q, q ≠ p → effect.stage.holds = true → (s.stages q).holds = false := by
      intro q hq hholds
      rcases hmoves.holds hholds with hp | hexists
      · by_contra hother
        exact hq (h.one q p (by simpa using hother) hp)
      · exact hfree hexists q
    intro q r hq hr
    by_cases hqp : q = p
    · by_cases hrp : r = p
      · rw [hqp, hrp]
      · simp only [State.after, hqp, Function.update_self, Function.update_of_ne hrp] at hq hr
        rw [hone r hrp hq] at hr
        cases hr
    · by_cases hrp : r = p
      · simp only [State.after, hrp, Function.update_self, Function.update_of_ne hqp] at hq hr
        rw [hone q hqp hr] at hq
        cases hq
      · simp only [State.after, Function.update_of_ne hqp, Function.update_of_ne hrp] at hq hr
        exact h.one q r hq hr
  · intro q
    by_cases hq : q = p
    · subst hq
      simp only [State.after, Function.update_self]
      exact hmoves.knows (h.knows q)
    · simp only [State.after, Function.update_of_ne hq]
      cases hholds : (s.stages q).holds with
      | false => exact Stage.knows_of_not_holds hholds
      | true =>
        -- the other process does not hold the mutex
        have hp : (s.stages p).holds = false := by
          by_contra hp
          exact hq (h.one q p hholds (by simpa using hp))
        obtain ⟨hfile, hwritten⟩ := hmoves.file_eq hp
        rw [hfile, hwritten]
        exact h.knows q

theorem State.next_spawn {p : Nat} {pid : UInt32} (h : s.next platform (.spawn p pid) = some s') :
    s.stages p = .absent ∧ (∀ e ∈ s.written, e.1 ≠ p) ∧ s.live pid = false ∧ s' = s.spawn p pid := by
  rw [State.next, Option.ite_none_right_eq_some] at h
  obtain ⟨⟨habsent, hwritten, -, hlive⟩, h⟩ := h
  exact ⟨habsent, by simpa using hwritten, hlive, (Option.some.inj h).symm⟩

theorem State.next_others {pid : UInt32} {runs : Bool} (h : s.next platform (.others pid runs) = some s') :
    (runs = true → s.live pid = false) ∧ s' = { s with others := Function.update s.others pid runs } := by
  simp only [State.next, Option.ite_none_left_eq_some] at h
  exact ⟨fun hruns => by simpa [hruns] using h.1, (Option.some.inj h.2).symm⟩

theorem State.next_act {p : Nat} (h : s.next platform (.act p action) = some s') :
    ∃ effect, act platform (s.view p) (s.stages p) action = some effect ∧ s' = s.after p effect := by
  obtain ⟨effect, hact, rfl⟩ := Option.map_eq_some_iff.mp h
  exact ⟨effect, hact, rfl⟩

theorem Sound.next {l : Label} (h : Sound platform s) (hnext : s.next platform l = some s') :
    Sound platform s' := by
  cases l with
  | spawn p pid =>
    obtain ⟨habsent, -, -, rfl⟩ := State.next_spawn hnext
    constructor
    · intro q
      by_cases hq : q = p
      · subst hq
        have hnone := h.opened q
        rw [habsent] at hnone
        simpa [State.spawn, Stage.opened, Stage.holds] using hnone
      · simp [State.spawn, hq, h.opened q]
    · intro q
      by_cases hq : q = p
      · simp [State.spawn, hq, Stage.runs]
      · simp [State.spawn, hq, h.running q]
    · intro q r hq hr
      by_cases hqp : q = p
      · simp [State.spawn, hqp, Stage.holds] at hq
      · by_cases hrp : r = p
        · simp [State.spawn, hrp, Stage.holds] at hr
        · simp only [State.spawn, Function.update_of_ne hqp, Function.update_of_ne hrp] at hq hr
          exact h.one q r hq hr
    · intro q
      by_cases hq : q = p
      · simp [State.spawn, hq, Stage.Knows]
      · simp only [State.spawn, Function.update_of_ne hq]
        exact h.knows q
  | others pid runs =>
    obtain ⟨-, rfl⟩ := State.next_others hnext
    exact ⟨h.opened, h.running, h.one, h.knows⟩
  | act p action =>
    obtain ⟨effect, hact, rfl⟩ := State.next_act hnext
    exact h.after (act_moves hact)

theorem sound {file : Option (List UInt8)} (hs : (instances platform file).Reachable s) :
    Sound platform s := by
  refine hs.invariant ?_ ?_
  · intro s ⟨hstages, hrunning, hhandles, _, _⟩
    constructor
    · intro p
      simp [hstages p, hhandles, Stage.opened, Stage.holds]
    · intro p
      simp [hstages p, hrunning, Stage.runs]
    · intro p q hp
      simp [hstages p, Stage.holds] at hp
    · intro p
      simp [hstages p, Stage.Knows]
  · intro s l s' h _ hnext
    exact h.next hnext

/-- The process has the guard, with what it has published. -/
def State.Guards (s : State) (p : Nat) (published_token : Option Text) : Prop :=
  s.stages p = .primary published_token ∨ s.stages p = .dropping published_token

/-- What holds at both stages of a guard. -/
theorem State.Guards.elim {p : Nat} {token : Option Text} {P : Stage → Prop} (h : s.Guards p token)
    (primary : P (.primary token)) (dropping : P (.dropping token)) : P (s.stages p) := by
  rcases h with h | h
  · rw [h]
    exact primary
  · rw [h]
    exact dropping

theorem State.Guards.published {p : Nat} {token : Text} (h : s.Guards p (some token))
    (hsound : Sound platform s) : ∃ descriptor, (p, descriptor) ∈ s.written ∧
      descriptor.control_token = token ∧ Published platform (s.pids p) s.file descriptor :=
  h.elim (P := fun stage => stage.Knows platform p (s.pids p) s.file s.written → _) id id (hsound.knows p)

/-- **One instance**: at most one process has the guard.  Before it publishes
    there is no descriptor, and from then on its own descriptor is in place. -/
theorem one_instance {file : Option (List UInt8)} (hs : (instances platform file).Reachable s) :
    (∀ p q token token', s.Guards p token → s.Guards q token' → p = q) ∧
      (∀ p, s.Guards p none → s.file = none) ∧
      ∀ p token, s.Guards p (some token) → ∃ descriptor, (p, descriptor) ∈ s.written ∧
        descriptor.control_token = token ∧ Published platform (s.pids p) s.file descriptor := by
  have hsound := sound hs
  refine ⟨?_, ?_, ?_⟩
  · intro p q token token' hp hq
    exact hsound.one p q (hp.elim (P := fun stage => stage.holds = true) rfl rfl)
      (hq.elim (P := fun stage => stage.holds = true) rfl rfl)
  · intro p hp
    exact hp.elim (P := fun stage => stage.Knows platform p (s.pids p) s.file s.written → _) id id
      (hsound.knows p)
  · intro p token hp
    exact hp.published hsound

/-! ### A server that publishes its descriptor -/

/-- No process has started. -/
def lab_state (file : Option (List UInt8)) : State where
  stages _ := .absent
  pids _ := 0
  running := ∅
  others _ := false
  handles := ∅
  file := file
  written := []

theorem lab_state_init (file : Option (List UInt8)) : (instances platform file).init (lab_state file) :=
  ⟨fun _ => rfl, rfl, rfl, rfl, rfl⟩

def lab_labels : List Label :=
  [.spawn 0 4242, .act 0 .create, .act 0 (.clean none), .act 0 (.window none),
    .act 0 (.publish lab_descriptor none)]

theorem lab_instance : ∃ s : State, s.stages 0 = .primary (some lab_descriptor.control_token) ∧
    ∃ descriptor, (0, descriptor) ∈ s.written ∧
      descriptor.control_token = lab_descriptor.control_token ∧
      Published lab_platform (s.pids 0) s.file descriptor := by
  have hrun : ∃ s, (instances lab_platform none).Reachable s ∧
      decide (s.stages 0 = .primary (some lab_descriptor.control_token)) = true :=
    Machine.reachable_of_replay (fun _ _ => true) (fun _ _ _ => trivial) (lab_state_init none) lab_labels
      (fun s => decide (s.stages 0 = .primary (some lab_descriptor.control_token))) (by decide +kernel)
  obtain ⟨s, hs, hstage⟩ := hrun
  have hstage : s.stages 0 = .primary (some lab_descriptor.control_token) := of_decide_eq_true hstage
  exact ⟨s, hstage, (one_instance hs).2.2 0 _ (.inl hstage)⟩

end Instance

end Server
