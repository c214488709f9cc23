import RemoteDeck.Server.Instance

/-! # A second start

    What a process that finds the mutex learns from the descriptor.  A process
    identifier stands for a process only while the system does not give it to
    another one, so the runs that are `Orderly` are those in which the
    identifier of a descriptor is not used again.

    This file proves:
    - `second_start`: while a server is up, a second start is led to it
    - `existing_runs`: a second start is led to nothing but a server that runs
    - `unreadable_kept`: a descriptor that cannot be read keeps every server
      from starting, and no process removes it
-/

namespace Server

namespace Instance

variable {platform : Platform} {view : View} {stage : Stage} {action : Action} {effect : Effect}
variable {s s' : State} {descriptor : RuntimeDescriptor}

/-- What is written for the descriptor is read as the descriptor. -/
def Legible (platform : Platform) (descriptor : RuntimeDescriptor) : Prop :=
  ∀ contents, write_runtime_descriptor platform descriptor = .ok contents →
    read_runtime_descriptor platform (.ok (some contents)) = .ok (some descriptor)

/-- The identifier is that of no descriptor. -/
def State.Unpublished (s : State) (pid : UInt32) : Prop := ∀ e ∈ s.written, e.2.pid ≠ pid

/-- The identifier of a descriptor is not used again, and the descriptors can
    be read. -/
def Orderly (platform : Platform) (s : State) : Label → Prop
  | .spawn _ pid => s.Unpublished pid
  | .others pid runs => runs = true → s.Unpublished pid
  | .act _ (.publish descriptor _) => Legible platform descriptor
  | .act _ _ => True

/-! ### One step -/

theorem View.read_some {failure : Option Text} (h : view.read platform failure = .ok (some descriptor)) :
    read_runtime_descriptor platform (.ok view.file) = .ok (some descriptor) := by
  cases failure with
  | none => exact h
  | some error => cases h

theorem act_read {failure : Option Text} (h : view.read platform failure = .ok (some descriptor)) :
    act platform view .reading (.read failure) = view.move (.judging descriptor) := by
  simp only [act, h]

/-- A descriptor is judged after it has been read, or was judged before. -/
theorem Moves.judging (h : Moves platform view stage effect) (hstage : effect.stage = .judging descriptor) :
    read_runtime_descriptor platform (.ok view.file) = .ok (some descriptor) := by
  cases h with
  | found hread =>
    obtain rfl := Stage.judging.inj hstage
    exact View.read_some hread
  | _ => simp at hstage

theorem Moves.existing (h : Moves platform view stage effect) (hstage : effect.stage = .existing descriptor) :
    stage = .judging descriptor ∧ view.is_process_alive descriptor.pid = true := by
  cases h with
  | alive halive =>
    obtain rfl := Stage.existing.inj hstage
    exact ⟨rfl, halive⟩
  | _ => simp at hstage

/-- What a step leaves in the file. -/
theorem Moves.file (h : Moves platform view stage effect) :
    effect.written = none ∧ (effect.file = view.file ∨ effect.file = none) ∨
      ∃ descriptor contents, effect.written = some descriptor ∧ effect.file = some contents ∧
        Published platform view.pid (some contents) descriptor := by
  cases h with
  | publish hpublished => exact .inr ⟨_, _, rfl, rfl, hpublished⟩
  | @remove failed =>
    left
    cases failed with
    | true => exact ⟨rfl, .inl rfl⟩
    | false => exact ⟨rfl, .inr rfl⟩
  | unlinked => exact .inl ⟨rfl, .inr rfl⟩
  | clean hfile => exact .inl ⟨rfl, .inr rfl⟩
  | _ => exact .inl ⟨rfl, .inl rfl⟩

/-- A descriptor is written by `publish` alone. -/
theorem act_written (h : act platform view stage action = some effect)
    (hwritten : effect.written = some descriptor) : ∃ failure, action = .publish descriptor failure := by
  unfold act View.move at h
  split at h <;> (try split at h) <;> cases h <;> cases hwritten
  exact ⟨_, rfl⟩

/-! ### All processes -/

/-- Where the contents of the file come from: they were there at first, or a
    process has written them. -/
def State.From (platform : Platform) (file : Option (List UInt8)) (s : State)
    (descriptor : RuntimeDescriptor) : Prop :=
  read_runtime_descriptor platform (.ok file) = .ok (some descriptor) ∨ ∃ q, (q, descriptor) ∈ s.written

/-- What holds of identifiers and descriptors in an orderly run. -/
structure Known (platform : Platform) (file : Option (List UInt8)) (s : State) : Prop where
  sound : Sound platform s
  own : ∀ e ∈ s.written, e.2.pid = s.pids e.1
  apart : ∀ p ∈ s.running, ∀ q ∈ s.running, s.pids p = s.pids q → p = q
  system : ∀ p ∈ s.running, s.others (s.pids p) = false
  kept : ∀ e ∈ s.written, s.others e.2.pid = false ∧ ∀ q ∈ s.running, s.pids q = e.2.pid → q = e.1
  found : ∀ descriptor, read_runtime_descriptor platform (.ok s.file) = .ok (some descriptor) →
    s.From platform file descriptor
  judged : ∀ p descriptor, s.stages p = .judging descriptor → s.From platform file descriptor

theorem read_absent : read_runtime_descriptor platform (.ok none) = .ok none := rfl

theorem State.From.mono {file : Option (List UInt8)} (h : s.From platform file descriptor)
    (hwritten : ∀ e ∈ s.written, e ∈ s'.written) : s'.From platform file descriptor := by
  rcases h with h | ⟨q, hq⟩
  · exact .inl h
  · exact .inr ⟨q, hwritten _ hq⟩

theorem State.mem_after {p : Nat} {e : Nat × RuntimeDescriptor} : e ∈ (s.after p effect).written ↔
    (p = e.1 ∧ effect.written = some e.2) ∨ e ∈ s.written := by
  obtain ⟨q, d⟩ := e
  cases h : effect.written with
  | none => simp [State.after, h]
  | some descriptor =>
    simp only [State.after, h, Option.toList_some, List.map_cons, List.map_nil, List.cons_append,
      List.nil_append, List.mem_cons, Prod.mk.injEq, Option.some.injEq]
    tauto

theorem State.running_after {p q : Nat} (hp : p ∈ s.running) (hq : q ∈ (s.after p effect).running) :
    q ∈ s.running := by
  unfold State.after at hq
  dsimp only at hq
  split at hq
  · rcases Finset.mem_insert.mp hq with rfl | hq
    · exact hp
    · exact hq
  · exact Finset.mem_of_mem_erase hq

theorem Known.after {file : Option (List UInt8)} (h : Known platform file s) {p : Nat}
    (hmoves : Moves platform (s.view p) (s.stages p) effect)
    (hlegible : ∀ descriptor, effect.written = some descriptor → Legible platform descriptor) :
    Known platform file (s.after p effect) := by
  have hp : p ∈ s.running := (h.sound.running p).mpr hmoves.runs
  have hmono : ∀ e ∈ s.written, e ∈ (s.after p effect).written := by
    intro e he
    exact State.mem_after.mpr (.inr he)
  constructor
  · exact h.sound.after hmoves
  · intro e he
    show e.2.pid = s.pids e.1
    rcases State.mem_after.mp he with ⟨rfl, hwritten⟩ | he
    · rcases hmoves.file with ⟨hnone, -⟩ | ⟨descriptor, contents, hsome, -, hpublished⟩
      · rw [hnone] at hwritten
        cases hwritten
      · rw [hsome] at hwritten
        obtain rfl := Option.some.inj hwritten
        exact hpublished.1
    · exact h.own e he
  · intro q hq r hr
    exact h.apart q (State.running_after hp hq) r (State.running_after hp hr)
  · intro q hq
    exact h.system q (State.running_after hp hq)
  · intro e he
    rcases State.mem_after.mp he with ⟨rfl, hwritten⟩ | he
    · rcases hmoves.file with ⟨hnone, -⟩ | ⟨descriptor, contents, hsome, -, hpublished⟩
      · rw [hnone] at hwritten
        cases hwritten
      · -- the process that writes runs, and no other one has its identifier
        rw [hsome] at hwritten
        obtain rfl := Option.some.inj hwritten
        have hpid : e.2.pid = s.pids e.1 := hpublished.1
        refine ⟨?_, ?_⟩
        · rw [hpid]
          exact h.system e.1 hp
        · intro q hq hsame
          rw [hpid] at hsame
          exact h.apart q (State.running_after hp hq) e.1 hp hsame
    · obtain ⟨hothers, hrunning⟩ := h.kept e he
      refine ⟨hothers, ?_⟩
      intro q hq hsame
      exact hrunning q (State.running_after hp hq) hsame
  · intro d hread
    rcases hmoves.file with ⟨-, hsame | hnone⟩ | ⟨descriptor, contents, hsome, hfile, hpublished⟩
    · rw [show (s.after p effect).file = s.file from hsame] at hread
      exact (h.found d hread).mono hmono
    · rw [show (s.after p effect).file = none from hnone, read_absent] at hread
      cases hread
    · -- the file holds what has just been written
      rw [show (s.after p effect).file = some contents from hfile] at hread
      obtain ⟨-, -, written, hwrite, hcontents⟩ := hpublished
      obtain rfl := Option.some.inj hcontents
      rw [hlegible descriptor hsome _ hwrite] at hread
      obtain rfl := Option.some.inj (Except.ok.inj hread)
      exact .inr ⟨p, State.mem_after.mpr (.inl ⟨rfl, hsome⟩)⟩
  · intro q d hstage
    by_cases hq : q = p
    · subst hq
      rw [show (s.after q effect).stages q = effect.stage from Function.update_self ..] at hstage
      exact (h.found d (hmoves.judging hstage)).mono hmono
    · rw [show (s.after p effect).stages q = s.stages q from Function.update_of_ne hq ..] at hstage
      exact (h.judged q d hstage).mono hmono

theorem live_iff {pid : UInt32} :
    s.live pid = true ↔ s.others pid = true ∨ ∃ p ∈ s.running, s.pids p = pid := by
  simp [State.live]

theorem Known.spawn {file : Option (List UInt8)} (h : Known platform file s) {p : Nat} {pid : UInt32}
    (hwritten : ∀ e ∈ s.written, e.1 ≠ p) (hlive : s.live pid = false) (hpid : s.Unpublished pid)
    (hsound : Sound platform (s.spawn p pid)) : Known platform file (s.spawn p pid) := by
  have hothers : s.others pid = false := by
    by_contra hothers
    rw [live_iff.mpr (.inl (by simpa using hothers))] at hlive
    cases hlive
  have hfresh : ∀ q ∈ s.running, s.pids q ≠ pid := by
    intro q hq hsame
    rw [live_iff.mpr (.inr ⟨q, hq, hsame⟩)] at hlive
    cases hlive
  have hself : (s.spawn p pid).pids p = pid := Function.update_self ..
  have hother : ∀ q, q ≠ p → (s.spawn p pid).pids q = s.pids q := fun q hq => Function.update_of_ne hq ..
  have hrunning : ∀ q, q ∈ (s.spawn p pid).running → q = p ∨ q ∈ s.running :=
    fun q hq => Finset.mem_insert.mp hq
  constructor
  · exact hsound
  · intro e he
    rw [hother e.1 (hwritten e he)]
    exact h.own e he
  · intro q hq r hr hsame
    by_cases hqp : q = p
    · by_cases hrp : r = p
      · rw [hqp, hrp]
      · rw [hqp, hself, hother r hrp] at hsame
        exact absurd hsame.symm (hfresh r ((hrunning r hr).resolve_left hrp))
    · by_cases hrp : r = p
      · rw [hrp, hself, hother q hqp] at hsame
        exact absurd hsame (hfresh q ((hrunning q hq).resolve_left hqp))
      · rw [hother q hqp, hother r hrp] at hsame
        exact h.apart q ((hrunning q hq).resolve_left hqp) r ((hrunning r hr).resolve_left hrp) hsame
  · intro q hq
    by_cases hqp : q = p
    · rw [hqp, hself]
      exact hothers
    · rw [hother q hqp]
      exact h.system q ((hrunning q hq).resolve_left hqp)
  · intro e he
    refine ⟨(h.kept e he).1, ?_⟩
    intro q hq hsame
    by_cases hqp : q = p
    · rw [hqp, hself] at hsame
      exact absurd hsame.symm (hpid e he)
    · rw [hother q hqp] at hsame
      exact (h.kept e he).2 q ((hrunning q hq).resolve_left hqp) hsame
  · intro d hread
    exact h.found d hread
  · intro q d hstage
    by_cases hqp : q = p
    · rw [hqp, show (s.spawn p pid).stages p = .starting from Function.update_self ..] at hstage
      cases hstage
    · rw [show (s.spawn p pid).stages q = s.stages q from Function.update_of_ne hqp ..] at hstage
      exact h.judged q d hstage

theorem Known.next {file : Option (List UInt8)} {l : Label} (h : Known platform file s)
    (hok : Orderly platform s l) (hnext : s.next platform l = some s') : Known platform file s' := by
  have hsound : Sound platform s' := h.sound.next hnext
  cases l with
  | spawn p pid =>
    obtain ⟨-, hwritten, hlive, rfl⟩ := State.next_spawn hnext
    exact h.spawn hwritten hlive hok hsound
  | others pid runs =>
    obtain ⟨hlive, rfl⟩ := State.next_others hnext
    -- an identifier that has come to be in use is not that of a process or of a descriptor
    have hupdate : ∀ pid', (runs = true → pid' ≠ pid) → s.others pid' = false →
        Function.update s.others pid runs pid' = false := by
      intro pid' hne hothers
      by_cases hpid : pid' = pid
      · rw [hpid, Function.update_self]
        by_contra hruns
        exact hne (by simpa using hruns) hpid
      · rw [Function.update_of_ne hpid]
        exact hothers
    constructor
    · exact hsound
    · exact h.own
    · exact h.apart
    · intro q hq
      refine hupdate _ ?_ (h.system q hq)
      intro hruns hsame
      have hbusy : s.live pid = true := live_iff.mpr (.inr ⟨q, hq, hsame⟩)
      rw [hlive hruns] at hbusy
      cases hbusy
    · intro e he
      exact ⟨hupdate _ (fun hruns => hok hruns e he) (h.kept e he).1, (h.kept e he).2⟩
    · exact h.found
    · exact h.judged
  | act p action =>
    obtain ⟨effect, hact, rfl⟩ := State.next_act hnext
    refine h.after (act_moves hact) ?_
    intro d hwritten
    obtain ⟨failure, rfl⟩ := act_written hact hwritten
    exact hok

theorem known {file : Option (List UInt8)}
    (hs : (instances platform file).ReachableWhen (Orderly platform) s) : Known platform file s := by
  refine hs.invariant ?_ ?_
  · intro s hinit
    have hsound : Sound platform s := sound (.init hinit)
    obtain ⟨hstages, hrunning, -, hfile, hwritten⟩ := hinit
    constructor
    · exact hsound
    · simp [hwritten]
    · simp [hrunning]
    · simp [hrunning]
    · simp [hwritten]
    · intro d hread
      rw [hfile] at hread
      exact .inl hread
    · intro p d hstage
      rw [hstages p] at hstage
      cases hstage
  · intro s l s' h hok hnext
    exact h.next hok hnext

/-- **A second start is led to a server that runs**, in an orderly run: what
    `acquire` returns as the existing instance has been published by a process
    that runs, or was in the file before all of them. -/
theorem existing_runs {file : Option (List UInt8)}
    (hs : (instances platform file).ReachableWhen (Orderly platform) s) {p : Nat}
    (hnext : s.next platform (.act p .judge) = some s') (hstage : s'.stages p = .existing descriptor) :
    (∃ q ∈ s.running, (q, descriptor) ∈ s.written) ∨
      read_runtime_descriptor platform (.ok file) = .ok (some descriptor) := by
  have hknown := known hs
  obtain ⟨effect, hact, rfl⟩ := State.next_act hnext
  rw [show (s.after p effect).stages p = effect.stage from Function.update_self ..] at hstage
  obtain ⟨hjudging, halive⟩ := (act_moves hact).existing hstage
  rcases hknown.judged p descriptor hjudging with hfile | ⟨q, hq⟩
  · exact .inr hfile
  · obtain ⟨hothers, hsame⟩ := hknown.kept _ hq
    have hlive : s.live descriptor.pid = true := (Bool.and_eq_true _ _ ▸ halive).2
    rcases live_iff.mp hlive with hprogram | ⟨r, hr, hpid⟩
    · rw [hothers] at hprogram
      cases hprogram
    · obtain rfl := hsame r hr hpid
      exact .inl ⟨r, hr, hq⟩

/-! ### While a server is up -/

/-- The step is not one of the second process, and the first does not end. -/
def Spares (p q : Nat) : Label → Prop
  | .act r action => r ≠ q ∧ (r = p → action ≠ .leave)
  | _ => True

theorem act_runs (h : act platform view stage action = some effect) (hleave : action ≠ .leave) :
    effect.stage.runs = true := by
  unfold act View.move at h
  split at h <;> (try split at h) <;> cases h
  case h_2 => exact absurd rfl hleave
  all_goals first | rfl | (split <;> rfl)

/-- The descriptor stays judged, and the process that has published it stays. -/
def Waits (p q : Nat) (pid : UInt32) (descriptor : RuntimeDescriptor) (s : State) : Prop :=
  s.stages q = .judging descriptor ∧ p ∈ s.running ∧ s.pids p = pid

theorem Waits.next {p q : Nat} {pid : UInt32} {l : Label} (h : Waits p q pid descriptor s)
    (hsound : Sound platform s) (hspares : Spares p q l) (hnext : s.next platform l = some s') :
    Waits p q pid descriptor s' := by
  obtain ⟨hstage, hrunning, hpid⟩ := h
  cases l with
  | spawn r pid' =>
    obtain ⟨habsent, -, -, rfl⟩ := State.next_spawn hnext
    have hq : q ≠ r := by
      rintro rfl
      rw [habsent] at hstage
      cases hstage
    have hp : p ≠ r := by
      rintro rfl
      have hruns := (hsound.running p).mp hrunning
      rw [habsent] at hruns
      cases hruns
    exact ⟨(Function.update_of_ne hq ..).trans hstage, Finset.mem_insert_of_mem hrunning,
      (Function.update_of_ne hp ..).trans hpid⟩
  | others pid' runs =>
    obtain ⟨-, rfl⟩ := State.next_others hnext
    exact ⟨hstage, hrunning, hpid⟩
  | act r action =>
    obtain ⟨hr, hleave⟩ := hspares
    obtain ⟨effect, hact, rfl⟩ := State.next_act hnext
    refine ⟨(Function.update_of_ne (Ne.symm hr) ..).trans hstage, ?_, hpid⟩
    show p ∈ if effect.stage.runs then insert r s.running else s.running.erase r
    by_cases hp : r = p
    · subst hp
      rw [act_runs hact (hleave rfl), if_pos rfl]
      exact Finset.mem_insert_self ..
    · split
      · exact Finset.mem_insert_of_mem hrunning
      · exact Finset.mem_erase_of_ne_of_mem (Ne.symm hp) hrunning

/-- **While a server is up, a second start is led to it**: it reads the
    descriptor of the guard, and returns this one whatever happens until then,
    unless the server ends. -/
theorem second_start {file : Option (List UInt8)} (hs : (instances platform file).Reachable s)
    {p q : Nat} {token : Text} (hguard : s.Guards p (some token))
    (hlegible : ∀ e ∈ s.written, Legible platform e.2) (hq : s.stages q = .reading)
    (hread : s.next platform (.act q (.read none)) = some s') :
    ∃ descriptor, (p, descriptor) ∈ s.written ∧ descriptor.control_token = token ∧
      ∀ t, (instances platform file).StepsWhen (fun _ => Spares p q) s' t →
        ∃ t', t.next platform (.act q .judge) = some t' ∧ t'.stages q = .existing descriptor := by
  have hsound := sound hs
  obtain ⟨descriptor, hmem, htoken, hpid, hvalid, contents, hwrite, hfile⟩ := hguard.published hsound
  refine ⟨descriptor, hmem, htoken, ?_⟩
  intro t hrun
  have hpq : p ≠ q := by
    rintro rfl
    exact hguard.elim (P := fun stage => stage ≠ .reading) (by simp) (by simp) hq
  have hp : p ∈ s.running :=
    (hsound.running p).mpr (hguard.elim (P := fun stage => stage.runs = true) rfl rfl)
  -- the read gives the descriptor of the guard
  have hact : act platform (s.view q) (s.stages q) (.read none) =
      some ⟨.judging descriptor, s.file, none⟩ := by
    have hcontents : (s.view q).read platform none = .ok (some descriptor) := by
      show read_runtime_descriptor platform (.ok s.file) = .ok (some descriptor)
      rw [hfile]
      exact hlegible _ hmem contents hwrite
    rw [hq]
    exact act_read hcontents
  have hs' : s' = s.after q ⟨.judging descriptor, s.file, none⟩ := by
    have hsome : s.next platform (.act q (.read none)) =
        some (s.after q ⟨.judging descriptor, s.file, none⟩) := by
      show (act platform (s.view q) (s.stages q) (.read none)).map (s.after q) = _
      rw [hact]
      rfl
    exact Option.some.inj (hread.symm.trans hsome)
  have hwaits : Waits p q (s.pids p) descriptor s' := by
    rw [hs']
    exact ⟨Function.update_self .., Finset.mem_insert_of_mem hp, rfl⟩
  have hend : Waits p q (s.pids p) descriptor t := by
    have hstep : (instances platform file).next s (.act q (.read none)) = some s' := hread
    refine hrun.preserves_reachable (fun _ _ _ => trivial) ?_ (.step hs trivial hstep) hwaits
    intro u l u' hu hw hspares hnext
    exact hw.next (sound hu) hspares hnext
  obtain ⟨hstage, hrunning, hsame⟩ := hend
  have hlive : (t.view q).is_process_alive descriptor.pid = true := by
    have hzero := RuntimeDescriptor.pid_ne_zero hvalid
    have hlive : t.live descriptor.pid = true :=
      live_iff.mpr (.inr ⟨p, hrunning, hsame.trans hpid.symm⟩)
    show (decide (descriptor.pid ≠ 0) && t.live descriptor.pid) = true
    rw [hlive, decide_eq_true hzero]
    rfl
  refine ⟨t.after q ⟨.existing descriptor, t.file, none⟩, ?_, Function.update_self ..⟩
  show (act platform (t.view q) (t.stages q) .judge).map (t.after q) = _
  rw [hstage]
  show some (t.after q ⟨if (t.view q).is_process_alive descriptor.pid then .existing descriptor
    else .refused .LegacyInstanceRunning, t.file, none⟩) = _
  rw [hlive]
  rfl

/-! ### A descriptor that cannot be read -/

/-- The process has not found out anything from the file. -/
def Stage.early : Stage → Bool
  | .absent | .starting | .legacy | .visiting | .reading | .refused _ | .cleaning | .finished => true
  | _ => false

theorem Moves.early {error : LifecycleError} (h : Moves platform view stage effect)
    (hbad : read_runtime_descriptor platform (.ok view.file) = .error error) (hearly : stage.early = true) :
    effect.stage.early = true ∧ effect.file = view.file := by
  have hnothing : ∀ failure descriptor, view.read platform failure ≠ .ok (some descriptor) := by
    intro failure descriptor hread
    rw [View.read_some hread] at hbad
    cases hbad
  cases h with
  | found hread => exact absurd hread (hnothing _ _)
  | stale hread => exact absurd hread (hnothing _ _)
  | clean hfile =>
    rw [hfile, read_absent] at hbad
    cases hbad
  | failed hstage =>
    rcases hstage with rfl | rfl
    · cases hearly
    · cases hearly
  | leave _ => exact ⟨rfl, rfl⟩
  | _ => simp_all [Stage.early]

/-- The file is as it was at first, and nothing has been found out. -/
def State.Kept (file : Option (List UInt8)) (s : State) : Prop :=
  s.file = file ∧ ∀ p, (s.stages p).early = true

/-- **A descriptor that cannot be read is never replaced**: it stays as it is,
    no process gets the guard, and none is led to another one. -/
theorem unreadable_kept {file : Option (List UInt8)} {error : LifecycleError}
    (hbad : read_runtime_descriptor platform (.ok file) = .error error)
    (hs : (instances platform file).Reachable s) :
    s.file = file ∧ (∀ p token, ¬ s.Guards p token) ∧ ∀ p descriptor, s.stages p ≠ .existing descriptor := by
  have hinv : s.Kept file := by
    refine hs.invariant ?_ ?_
    · intro s ⟨hstages, _, _, hfile, _⟩
      refine ⟨hfile, ?_⟩
      intro p
      rw [hstages p]
      rfl
    · intro s l s' ⟨hfile, hearly⟩ _ hnext
      have hnext : s.next platform l = some s' := hnext
      cases l with
      | spawn p pid =>
        obtain ⟨-, -, -, rfl⟩ := State.next_spawn hnext
        refine ⟨hfile, ?_⟩
        intro q
        by_cases hq : q = p
        · simp [State.spawn, hq, Stage.early]
        · simp [State.spawn, hq, hearly q]
      | others pid runs =>
        obtain ⟨-, rfl⟩ := State.next_others hnext
        exact ⟨hfile, hearly⟩
      | act p action =>
        obtain ⟨effect, hact, rfl⟩ := State.next_act hnext
        rw [← hfile] at hbad
        obtain ⟨hstage, hkept⟩ := (act_moves hact).early hbad (hearly p)
        refine ⟨hkept.trans hfile, ?_⟩
        intro q
        by_cases hq : q = p
        · simp [State.after, hq, hstage]
        · simp [State.after, hq, hearly q]
  refine ⟨hinv.1, ?_, ?_⟩
  · intro p token hguard
    exact hguard.elim (P := fun stage => ¬ stage.early = true) (by simp [Stage.early]) (by simp [Stage.early])
      (hinv.2 p)
  · intro p descriptor hstage
    have hearly := hinv.2 p
    rw [hstage] at hearly
    cases hearly

/-! ### Two starts -/

/-- A server publishes its descriptor, and a second one finds the mutex. -/
def lab_second : List Label :=
  lab_labels ++ [.spawn 1 4243, .act 1 .create, .act 1 .close]

def lab_check (s : State) : Label → Bool
  | .spawn _ pid => s.written.all (·.2.pid ≠ pid)
  | .others _ _ => false
  | .act _ (.publish descriptor _) => descriptor = lab_descriptor
  | .act _ _ => true

theorem lab_descriptor_legible : Legible lab_platform lab_descriptor := by
  intro contents hwrite
  obtain rfl := Except.ok.inj (lab_write.symm.trans hwrite)
  exact lab_legible

theorem lab_check_orderly (s : State) (l : Label) (h : lab_check s l = true) :
    Orderly lab_platform s l := by
  unfold lab_check at h
  split at h
  · intro e he
    exact of_decide_eq_true (List.all_eq_true.mp h e he)
  · cases h
  · rw [of_decide_eq_true h]
    exact lab_descriptor_legible
  · next p action hpublish =>
    cases action with
    | publish descriptor failure => exact absurd rfl (hpublish descriptor failure)
    | _ => trivial

theorem lab_existing : ∃ s : State, ∃ q ∈ s.running, (q, lab_descriptor) ∈ s.written := by
  have hrun : ∃ s, (instances lab_platform none).ReachableWhen (Orderly lab_platform) s ∧
      (s.next lab_platform (.act 1 .judge)).any
        (fun s' => decide (s'.stages 1 = .existing lab_descriptor)) = true :=
    Machine.reachable_of_replay lab_check lab_check_orderly (lab_state_init none)
      (lab_second ++ [.act 1 (.read none)])
      (fun s => (s.next lab_platform (.act 1 .judge)).any
        fun s' => decide (s'.stages 1 = .existing lab_descriptor)) (by decide +kernel)
  obtain ⟨s, hs, hjudge⟩ := hrun
  obtain ⟨s', hnext, hstage⟩ := (Option.any_eq_true _ _).mp hjudge
  rcases existing_runs hs hnext (of_decide_eq_true hstage) with h | h
  · exact ⟨s, h⟩
  · cases h

theorem lab_second_start : ∃ (t t' : State) (descriptor : RuntimeDescriptor),
    descriptor.control_token = lab_descriptor.control_token ∧
      t.next lab_platform (.act 1 .judge) = some t' ∧ t'.stages 1 = .existing descriptor := by
  have hrun : ∃ s, (instances lab_platform none).Reachable s ∧
      (decide (s.stages 0 = .primary (some lab_descriptor.control_token)) &&
        decide (s.stages 1 = .reading) && s.written.all (fun e => decide (e.2 = lab_descriptor)) &&
        (s.next lab_platform (.act 1 (.read none))).isSome) = true :=
    Machine.reachable_of_replay (fun _ _ => true) (fun _ _ _ => trivial) (lab_state_init none) lab_second
      (fun s => decide (s.stages 0 = .primary (some lab_descriptor.control_token)) &&
        decide (s.stages 1 = .reading) && s.written.all (fun e => decide (e.2 = lab_descriptor)) &&
        (s.next lab_platform (.act 1 (.read none))).isSome) (by decide +kernel)
  obtain ⟨s, hs, hs'⟩ := hrun
  simp only [Bool.and_eq_true, decide_eq_true_eq, List.all_eq_true, Option.isSome_iff_exists] at hs'
  obtain ⟨⟨⟨hguard, hreading⟩, hwritten⟩, s', hread⟩ := hs'
  have hlegible : ∀ e ∈ s.written, Legible lab_platform e.2 := by
    intro e he
    rw [hwritten e he]
    exact lab_descriptor_legible
  obtain ⟨descriptor, -, htoken, hrun⟩ := second_start hs (.inl hguard) hlegible hreading hread
  obtain ⟨t', hjudge, hexisting⟩ := hrun s' (.refl s')
  exact ⟨s', t', descriptor, htoken, hjudge, hexisting⟩

/-- An empty file is no descriptor. -/
theorem lab_unreadable : ∃ s : State, s.stages 0 =
      .refused (.RuntimeDescriptorSerialization "expected value".toList) ∧
    s.file = some [] ∧ (∀ p token, ¬ s.Guards p token) ∧
      ∀ p descriptor, s.stages p ≠ .existing descriptor := by
  have hbad : read_runtime_descriptor lab_platform (.ok (some [])) =
      .error (.RuntimeDescriptorSerialization "expected value".toList) := by
    decide +kernel
  have hrun : ∃ s, (instances lab_platform (some [])).Reachable s ∧
      decide (s.stages 0 = .refused (.RuntimeDescriptorSerialization "expected value".toList)) = true :=
    Machine.reachable_of_replay (fun _ _ => true) (fun _ _ _ => trivial) (lab_state_init (some []))
      [.spawn 0 4242, .act 0 .create, .act 0 (.clean none)]
      (fun s => decide (s.stages 0 =
        .refused (.RuntimeDescriptorSerialization "expected value".toList))) (by decide +kernel)
  obtain ⟨s, hs, hstage⟩ := hrun
  exact ⟨s, of_decide_eq_true hstage, unreadable_kept hbad hs⟩

end Instance

end Server
