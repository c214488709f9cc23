import RemoteDeck.Tunnel.Steps

/-! # The invariant of the tunnel registry

    The lifecycle lock keeps the operation and the workers of an entry
    apart, and generations tell a worker of the last start from the older
    ones, as long as the generations of 64 bits do not run out (`bounded`).
-/

namespace Tunnel

variable {registry registry' : TunnelRegistry} {name : Nat} {tunnel_id : Text}
  {entry entry' : TunnelEntry}

/-! ### Entries of the heap -/

theorem heap_set_entry (registry : TunnelRegistry) (name e : Nat) (entry : TunnelEntry) :
    (registry.set_entry name entry).heap e = if e = name then some entry else registry.heap e := by
  unfold TunnelRegistry.set_entry
  exact Function.update_apply ..

@[simp] theorem heap_set_operation (registry : TunnelRegistry) (operation : Option Operation) :
    (registry.set_operation operation).heap = registry.heap := rfl

@[simp] theorem operation_set_operation (registry : TunnelRegistry) (operation : Option Operation) :
    (registry.set_operation operation).operation = operation := rfl

/-- The name is that of an entry of a tunnel, with a property. -/
def Names (registry : TunnelRegistry) (name : Nat) (tunnel_id : Text) (P : TunnelEntry → Prop) :
    Prop :=
  ∃ entry, registry.heap name = some entry ∧ entry.inner.profile.id = tunnel_id ∧ P entry

/-- The property of an entry that is at hand. -/
theorem Names.found {P : TunnelEntry → Prop} (h : Names registry name tunnel_id P)
    (hentry : registry.heap name = some entry) : entry.inner.profile.id = tunnel_id ∧ P entry := by
  obtain ⟨found, hfound, hid, hP⟩ := h
  rw [hentry, Option.some.injEq] at hfound
  exact hfound ▸ ⟨hid, hP⟩

theorem Names.imp {P Q : TunnelEntry → Prop} (h : Names registry name tunnel_id P)
    (himp : ∀ entry, P entry → Q entry) : Names registry name tunnel_id Q := by
  obtain ⟨entry, hentry, hid, hP⟩ := h
  exact ⟨entry, hentry, hid, himp entry hP⟩

/-- A property that an entry keeps. -/
theorem Names.set_entry {P : TunnelEntry → Prop} {e : Nat} (h : Names registry e tunnel_id P)
    (hentry : registry.heap name = some entry)
    (hid : entry'.inner.profile.id = entry.inner.profile.id) (hP : P entry → P entry') :
    Names (registry.set_entry name entry') e tunnel_id P := by
  obtain ⟨found, hfound, hfound_id, hfound_P⟩ := h
  by_cases he : e = name
  · subst he
    rw [hentry, Option.some.injEq] at hfound
    subst hfound
    exact ⟨entry', by rw [heap_set_entry, if_pos rfl], hid.trans hfound_id, hP hfound_P⟩
  · exact ⟨found, by rw [heap_set_entry, if_neg he]; exact hfound, hfound_id, hfound_P⟩

/-- An entry of another tunnel stays as it is. -/
theorem Names.set_other {P : TunnelEntry → Prop} {e : Nat} (h : Names registry e tunnel_id P)
    (hentry : registry.heap name = some entry) (hother : entry.inner.profile.id ≠ tunnel_id) :
    Names (registry.set_entry name entry') e tunnel_id P := by
  obtain ⟨found, hfound, hfound_id, hP⟩ := h
  have he : e ≠ name := by
    rintro rfl
    rw [hentry, Option.some.injEq] at hfound
    exact hother (hfound ▸ hfound_id)
  exact ⟨found, by rw [heap_set_entry, if_neg he]; exact hfound, hfound_id, hP⟩

theorem Names.written {P : TunnelEntry → Prop} (hid : entry'.inner.profile.id = tunnel_id)
    (hP : P entry') : Names (registry.set_entry name entry') name tunnel_id P :=
  ⟨entry', by rw [heap_set_entry, if_pos rfl], hid, hP⟩

/-! ### Operations -/

/-- What a start relies on. -/
def StartFits (registry : TunnelRegistry) (tunnel_id : Text) : StartStage → Prop
  | .looking => True
  | .locking name => Names registry name tunnel_id fun _ => True
  | .checking name => Names registry name tunnel_id Held
  | .bumping name =>
      Names registry name tunnel_id fun entry => Held entry ∧ entry.inner.retired = false
  | .terminating name _ | .requesting name =>
      Names registry name tunnel_id fun entry => Taken entry ∧ entry.inner.retired = false
  | .spawning name generation =>
      Names registry name tunnel_id fun entry =>
        Taken entry ∧ entry.inner.retired = false ∧ entry.inner.generation = generation

/-- The stop has taken the child and marked the entry. -/
def Stopping (generation : Nat) (entry : TunnelEntry) : Prop :=
  Taken entry ∧ entry.inner.desired_running = false ∧ entry.inner.generation = generation

/-- What a stop relies on. -/
def StopFits (registry : TunnelRegistry) (tunnel_id : Text) : StopStage → Prop
  | .looking | .returned _ => True
  | .locking name => Names registry name tunnel_id fun _ => True
  | .taking name => Names registry name tunnel_id Held
  | .terminating name generation _ _ | .settling name generation _ _ _ =>
      Names registry name tunnel_id (Stopping generation)

/-- What the operation relies on; the tasks of one operation stop different
    tunnels. -/
def OperationFits (registry : TunnelRegistry) : Option Operation → Prop
  | none => True
  | some (.start _ tunnel stage) => StartFits registry tunnel.id stage
  | some (.stop tasks _) =>
      (tasks.map StopTask.tunnel_id).Nodup ∧
        ∀ task ∈ tasks, StopFits registry task.tunnel_id task.stage

structure RegistryInv (registry : TunnelRegistry) : Prop where
  entry_inv : ∀ e entry, registry.heap e = some entry → EntryInv entry
  made : ∀ e entry, registry.heap e = some entry → e < registry.made
  lookup : ∀ id e, registry.entries.lookup id = some e → Names registry e id fun _ => True
  operation : OperationFits registry registry.operation

theorem registryInv_default : RegistryInv .default := by
  refine ⟨?_, ?_, ?_, trivial⟩ <;> simp [TunnelRegistry.default]

/-- An entry is written and the operation goes on. -/
theorem RegistryInv.update (h : RegistryInv registry) (hentry : registry.heap name = some entry)
    (hinv : EntryInv entry') (hid : entry'.inner.profile.id = entry.inner.profile.id)
    {operation : Option Operation}
    (hfits : OperationFits (registry.set_entry name entry') operation) :
    RegistryInv ((registry.set_entry name entry').set_operation operation) := by
  refine ⟨fun e found hfound => ?_, fun e found hfound => ?_, fun id e hlookup => ?_, ?_⟩
  · rw [heap_set_operation, heap_set_entry] at hfound
    split at hfound
    · exact Option.some.inj hfound ▸ hinv
    · exact h.entry_inv e found hfound
  · rw [heap_set_operation, heap_set_entry] at hfound
    split at hfound
    case isTrue he => exact he ▸ h.made name entry hentry
    case isFalse => exact h.made e found hfound
  · exact (h.lookup id e hlookup).set_entry hentry hid fun _ => trivial
  · cases operation with
    | none => trivial
    | some operation => cases operation <;> exact hfits

/-- The operation goes on and nothing else changes. -/
theorem RegistryInv.set_operation (h : RegistryInv registry) (operation : Option Operation)
    (hfits : OperationFits registry operation) : RegistryInv (registry.set_operation operation) := by
  refine ⟨h.entry_inv, h.made, h.lookup, ?_⟩
  cases operation with
  | none => trivial
  | some operation => cases operation <;> exact hfits

/-! ### Steps of workers and children -/

theorem Keeps.held (h : Keeps entry entry') (hheld : Held entry) : Held entry' := h.lifecycle hheld

theorem Keeps.stale (h : Keeps entry entry') (hstale : Stale entry) : Stale entry' := by
  intro worker hworker
  obtain ⟨old, hold, hgeneration⟩ := h.workers worker hworker
  rw [← hgeneration, h.generation]
  exact hstale old hold

theorem Keeps.taken (h : Keeps entry entry') (htaken : Taken entry) : Taken entry' :=
  ⟨h.held htaken.held, h.stale htaken.stale, h.child htaken⟩

theorem Keeps.stopping {generation : Nat} (h : Keeps entry entry')
    (hstopping : Stopping generation entry) : Stopping generation entry' := by
  obtain ⟨htaken, hdesired, hgeneration⟩ := hstopping
  refine ⟨h.taken htaken, ?_, h.generation.trans hgeneration⟩
  by_contra hrunning
  exact absurd (h.desired_running (by simpa using hrunning)) (by simp [hdesired])

/-- What an operation relies on stays while workers and children step. -/
theorem OperationFits.keeps {operation : Option Operation} (h : OperationFits registry operation)
    (hentry : registry.heap name = some entry) (hkeeps : Keeps entry entry') :
    OperationFits (registry.set_entry name entry') operation := by
  match operation with
  | none => trivial
  | some (.start host tunnel stage) =>
    have h : StartFits registry tunnel.id stage := h
    show StartFits (registry.set_entry name entry') tunnel.id stage
    cases stage with
    | looking => trivial
    | locking e => exact h.set_entry hentry hkeeps.tunnel id
    | checking e => exact h.set_entry hentry hkeeps.tunnel hkeeps.held
    | bumping e =>
      exact h.set_entry hentry hkeeps.tunnel fun h => ⟨hkeeps.held h.1, hkeeps.retired.trans h.2⟩
    | terminating e child =>
      exact h.set_entry hentry hkeeps.tunnel fun h => ⟨hkeeps.taken h.1, hkeeps.retired.trans h.2⟩
    | requesting e =>
      exact h.set_entry hentry hkeeps.tunnel fun h => ⟨hkeeps.taken h.1, hkeeps.retired.trans h.2⟩
    | spawning e generation =>
      exact h.set_entry hentry hkeeps.tunnel fun h =>
        ⟨hkeeps.taken h.1, hkeeps.retired.trans h.2.1, hkeeps.generation.trans h.2.2⟩
  | some (.stop tasks after) =>
    refine ⟨h.1, fun task htask => ?_⟩
    have hfits := h.2 task htask
    cases hstage : task.stage with
    | looking => trivial
    | returned => trivial
    | locking e =>
      rw [hstage] at hfits
      exact Names.set_entry hfits hentry hkeeps.tunnel id
    | taking e =>
      rw [hstage] at hfits
      exact Names.set_entry hfits hentry hkeeps.tunnel hkeeps.held
    | terminating e generation child already_stopped =>
      rw [hstage] at hfits
      exact Names.set_entry hfits hentry hkeeps.tunnel hkeeps.stopping
    | settling e generation child already_stopped termination =>
      rw [hstage] at hfits
      exact Names.set_entry hfits hentry hkeeps.tunnel hkeeps.stopping

theorem RegistryInv.keeps (h : RegistryInv registry) (hentry : registry.heap name = some entry)
    (hinv : EntryInv entry') (hkeeps : Keeps entry entry') :
    RegistryInv (registry.set_entry name entry') :=
  h.update hentry hinv hkeeps.tunnel (h.operation.keeps hentry hkeeps)

/-! ### Steps of the operation -/

/-- No worker has the lock on the lifecycle, so an operation may change the
    entry and the lock. -/
theorem EntryInv.operated (h : EntryInv entry)
    (hlifecycle : entry.lifecycle = some .operation ∨ entry.lifecycle = none)
    (hworkers : entry'.workers = entry.workers)
    (hgeneration : entry.inner.generation ≤ entry'.inner.generation) : EntryInv entry' := by
  have hunlocked : ∀ worker ∈ entry.workers, worker.stage.locked = false := by
    intro worker hworker
    by_contra hlocked
    have hholder := h.lock_holder worker hworker (by simpa using hlocked)
    rcases hlifecycle with hheld | hfree
    · simp [hheld] at hholder
    · simp [hfree] at hholder
  refine ⟨fun worker hworker hlocked => ?_, fun worker hworker => ?_, hworkers ▸ h.generations,
    fun worker hworker hpassed => ?_⟩
  · simp [hunlocked worker (hworkers ▸ hworker)] at hlocked
  · exact (h.generation_le worker (hworkers ▸ hworker)).trans hgeneration
  · have hlocked := WorkerStage.locked_of_passed hpassed
    simp [hunlocked worker (hworkers ▸ hworker)] at hlocked

/-- The generation of an entry can still be counted up. -/
def TunnelRegistry.countable (registry : TunnelRegistry) (name : Nat) : Bool :=
  (registry.inner name).all fun inner => inner.generation < MAX_U64

/-- The generations of 64 bits have not run out where a step draws one. -/
def bounded (registry : TunnelRegistry) : Label → Bool
  | .start_step _ _ =>
      match registry.operation with
      | some (.start _ _ (.bumping name)) => registry.countable name
      | _ => true
  | .stop_step task _ _ =>
      match task.stage with
      | .taking name => registry.countable name
      | _ => true
  | _ => true

theorem TunnelRegistry.countable_generation (h : registry.countable name = true)
    (hentry : registry.heap name = some entry) : entry.inner.generation < MAX_U64 := by
  simpa [TunnelRegistry.countable, TunnelRegistry.inner, hentry] using h

/-- Forgetting entries changes no entry of the heap. -/
theorem OperationFits.retain {operation : Option Operation} (h : OperationFits registry operation) :
    OperationFits (retain registry) operation := by
  match operation with
  | none => trivial
  | some (.start host tunnel stage) => cases stage <;> exact h
  | some (.stop tasks after) =>
    refine ⟨h.1, fun task htask => ?_⟩
    have hfits := h.2 task htask
    cases hstage : task.stage <;> rw [hstage] at hfits <;> exact hfits

theorem RegistryInv.retain (h : RegistryInv registry) : RegistryInv (retain registry) :=
  ⟨h.entry_inv, h.made, fun id e hlookup => h.lookup id e (lookup_fold_erase hlookup),
    h.operation.retain⟩

theorem heap_insert_entry (registry : TunnelRegistry) (tunnel : TunnelProfile) (e : Nat) :
    (insert_entry registry tunnel).heap e =
      if e = registry.made then some (.new tunnel) else registry.heap e :=
  Function.update_apply ..

/-- A new entry is stopped and has no worker. -/
theorem RegistryInv.insert_entry (h : RegistryInv registry) (tunnel : TunnelProfile)
    {operation : Option Operation} (hfits : OperationFits (insert_entry registry tunnel) operation) :
    RegistryInv ((insert_entry registry tunnel).set_operation operation) := by
  refine ⟨fun e found hfound => ?_, fun e found hfound => ?_, fun id e hlookup => ?_, ?_⟩
  · rw [heap_set_operation, heap_insert_entry] at hfound
    split at hfound
    · exact Option.some.inj hfound ▸ entryInv_new tunnel
    · exact h.entry_inv e found hfound
  · show e < registry.made + 1
    rw [heap_set_operation, heap_insert_entry] at hfound
    split at hfound
    case isTrue he => omega
    case isFalse => exact Nat.lt_succ_of_lt (h.made e found hfound)
  · have hlookup : (registry.entries.insert tunnel.id registry.made).lookup id = some e := hlookup
    by_cases hid : id = tunnel.id
    · subst hid
      rw [AList.lookup_insert, Option.some.injEq] at hlookup
      subst hlookup
      refine ⟨.new tunnel, ?_, rfl, trivial⟩
      rw [heap_set_operation, heap_insert_entry, if_pos rfl]
    · rw [AList.lookup_insert_ne hid] at hlookup
      obtain ⟨found, hfound, hfound_id, _⟩ := h.lookup id e hlookup
      refine ⟨found, ?_, hfound_id, trivial⟩
      rw [heap_set_operation, heap_insert_entry, if_neg (h.made e found hfound).ne]
      exact hfound
  · cases operation with
    | none => trivial
    | some operation => cases operation <;> exact hfits

/-- The lock is released and the operation returns. -/
theorem RegistryInv.finish_start (h : RegistryInv registry) (hentry : registry.heap name = some entry)
    (hinv : EntryInv entry'.unlock) (hid : entry'.inner.profile.id = entry.inner.profile.id) :
    RegistryInv (finish_start registry name entry') :=
  RegistryInv.update h hentry hinv hid trivial

/-- A step of a start keeps the invariant. -/
theorem RegistryInv.start_step (h : RegistryInv registry) {host : HostProfile}
    {tunnel : TunnelProfile} {stage : StartStage} {event : StartEvent}
    (hfits : StartFits registry tunnel.id stage)
    (hbounded : ∀ name, stage = .bumping name → registry.countable name = true)
    (heffect : StartEffect registry host tunnel stage event registry') : RegistryInv registry' := by
  cases heffect with
  | refuses => exact h.set_operation none trivial
  | limited => exact h.retain.set_operation none trivial
  | @finds _ current name hlookup =>
    exact h.retain.set_operation (some (.start current tunnel (.locking name)))
      (h.retain.lookup tunnel.id name hlookup)
  | makes hlookup =>
    refine h.retain.insert_entry tunnel ⟨.new tunnel, ?_, rfl, trivial⟩
    exact (heap_insert_entry (Tunnel.retain registry) tunnel _).trans (if_pos rfl)
  | @locks _ name entry hentry hfree =>
    obtain ⟨hid, _⟩ := hfits.found hentry
    have hinv : EntryInv { entry with lifecycle := some .operation } :=
      (h.entry_inv name entry hentry).operated (.inr hfree) rfl le_rfl
    exact h.update hentry hinv rfl (Names.written hid rfl)
  | @returns _ name entry hentry =>
    obtain ⟨_, hheld⟩ := hfits.found hentry
    exact h.finish_start hentry ((h.entry_inv name entry hentry).operated (.inl hheld) rfl le_rfl) rfl
  | @proceeds _ name entry hentry hretired =>
    obtain ⟨hid, hheld⟩ := hfits.found hentry
    exact h.set_operation (some (.start host tunnel (.bumping name)))
      ⟨entry, hentry, hid, hheld, hretired⟩
  | @bumps _ name entry stage hentry hstage =>
    obtain ⟨hid, hheld, hretired⟩ := hfits.found hentry
    have hgeneration : (take_stale_child entry.inner).1.generation = entry.inner.generation + 1 :=
      min_eq_left (TunnelRegistry.countable_generation (hbounded name rfl) hentry)
    have hinv : EntryInv (entry.with_inner (take_stale_child entry.inner).1) :=
      (h.entry_inv name entry hentry).operated (.inl hheld) rfl
        (by show _ ≤ (take_stale_child entry.inner).1.generation; omega)
    have hstale : Stale (entry.with_inner (take_stale_child entry.inner).1) := by
      intro worker hworker
      have hle := (h.entry_inv name entry hentry).generation_le worker hworker
      show worker.generation < (take_stale_child entry.inner).1.generation
      omega
    refine h.update hentry hinv rfl ?_
    rcases hstage with ⟨rfl, _⟩ | ⟨child, rfl, _⟩
    · exact Names.written hid ⟨⟨hheld, hstale, rfl⟩, hretired⟩
    · exact Names.written hid ⟨⟨hheld, hstale, rfl⟩, hretired⟩
  | @terminates _ name child entry hentry _ =>
    obtain ⟨hid, htaken, hretired⟩ := hfits.found hentry
    have hinv : EntryInv (entry.drop_child (some child)) :=
      (h.entry_inv name entry hentry).operated (.inl htaken.held) rfl le_rfl
    exact h.update hentry hinv rfl
      (Names.written hid ⟨⟨htaken.held, htaken.stale, htaken.child⟩, hretired⟩)
  | @fails name child error entry hentry =>
    obtain ⟨_, htaken, _⟩ := hfits.found hentry
    exact h.finish_start hentry
      ((h.entry_inv name entry hentry).operated (.inl htaken.held) rfl le_rfl) rfl
  | @requests _ name entry inner hentry hstarts =>
    obtain ⟨hid, htaken, hretired⟩ := hfits.found hentry
    have hinv : EntryInv (entry.with_inner inner) :=
      (h.entry_inv name entry hentry).operated (.inl htaken.held) rfl hstarts.generation.ge
    have hstale : Stale (entry.with_inner inner) := fun worker hworker =>
      (htaken.stale worker hworker).trans_eq hstarts.generation.symm
    exact h.update hentry hinv (hstarts.tunnel.trans hid.symm) (Names.written hstarts.tunnel
      ⟨⟨htaken.held, hstale, hstarts.child.trans htaken.child⟩, hstarts.retired.trans hretired, rfl⟩)
  | @spawns _ name generation entry worker hentry hworker hstage =>
    obtain ⟨_, htaken, _, hgeneration⟩ := hfits.found hentry
    have hadded := (h.entry_inv name entry hentry).add_worker htaken.stale
      (hworker.trans hgeneration.symm) hstage
    have hinv : EntryInv (TunnelEntry.unlock { entry with workers := entry.workers ++ [worker] }) :=
      hadded.operated (.inl htaken.held) rfl le_rfl
    exact h.finish_start hentry hinv rfl
  | @spawn_fails _ name generation entry inner hentry hfails =>
    obtain ⟨_, htaken, _, hgeneration⟩ := hfits.found hentry
    have hgives := hfails hgeneration
    exact h.finish_start hentry
      ((h.entry_inv name entry hentry).operated (.inl htaken.held) rfl hgives.generation.ge)
      hgives.tunnel

/-- A task of another tunnel does not see a change of an entry. -/
theorem StopFits.set_other {stage : StopStage} (h : StopFits registry tunnel_id stage)
    (hentry : registry.heap name = some entry) (hother : entry.inner.profile.id ≠ tunnel_id) :
    StopFits (registry.set_entry name entry') tunnel_id stage := by
  cases stage with
  | looking => trivial
  | returned => trivial
  | locking e => exact Names.set_other h hentry hother
  | taking e => exact Names.set_other h hentry hother
  | terminating e generation child already_stopped => exact Names.set_other h hentry hother
  | settling e generation child already_stopped termination =>
    exact Names.set_other h hentry hother

/-- One task goes on, and the others are not disturbed. -/
theorem OperationFits.step_task {tasks : List StopTask} {after : After} {task : StopTask}
    {stage : StopStage} (h : OperationFits registry (some (.stop tasks after))) (htask : task ∈ tasks)
    (hothers : ∀ other ∈ tasks, other.tunnel_id ≠ task.tunnel_id →
      StopFits registry' other.tunnel_id other.stage)
    (hstage : StopFits registry' task.tunnel_id stage) :
    OperationFits registry'
      (some (.stop (tasks.erase task ++ [{ task with stage := stage }]) after)) := by
  have hperm := (List.perm_cons_erase htask).map StopTask.tunnel_id
  have hnodup := hperm.nodup_iff.mp h.1
  constructor
  · rw [List.map_append, List.map_singleton]
    exact (List.perm_append_singleton _ _).nodup_iff.mpr hnodup
  · intro other hother
    rcases List.mem_append.mp hother with hother | hother
    · refine hothers other (List.mem_of_mem_erase hother) fun hsame => ?_
      exact (List.nodup_cons.mp hnodup).1 (hsame ▸ List.mem_map_of_mem hother)
    · exact List.mem_singleton.mp hother ▸ hstage

/-- A task changes the entry of its tunnel and goes on. -/
theorem RegistryInv.step_task (h : RegistryInv registry) {tasks : List StopTask} {after : After}
    {task : StopTask} {stage : StopStage} (hop : registry.operation = some (.stop tasks after))
    (htask : task ∈ tasks) (hentry : registry.heap name = some entry)
    (hid : entry.inner.profile.id = task.tunnel_id) (hinv : EntryInv entry')
    (hid' : entry'.inner.profile.id = entry.inner.profile.id)
    (hstage : StopFits (registry.set_entry name entry') task.tunnel_id stage) :
    RegistryInv ((registry.set_entry name entry').set_operation
      (some (.stop (tasks.erase task ++ [{ task with stage := stage }]) after))) := by
  have hfits : OperationFits registry (some (.stop tasks after)) := hop ▸ h.operation
  refine h.update hentry hinv hid' (hfits.step_task htask (fun other hother hne => ?_) hstage)
  exact (hfits.2 other hother).set_other hentry fun hsame => hne (hsame.symm.trans hid)

/-- A step of a task keeps the invariant. -/
theorem RegistryInv.stop_step (h : RegistryInv registry) {tasks : List StopTask} {after : After}
    {task : StopTask} {stage : StopStage} {stepped : TunnelRegistry}
    (hop : registry.operation = some (.stop tasks after)) (htask : task ∈ tasks)
    (hbounded : ∀ name, task.stage = .taking name → registry.countable name = true)
    (heffect : StopEffect registry task stepped stage) :
    RegistryInv (stepped.set_operation
      (some (.stop (tasks.erase task ++ [{ task with stage := stage }]) after))) := by
  have hfits : OperationFits registry (some (.stop tasks after)) := hop ▸ h.operation
  have htask_fits := hfits.2 task htask
  have hothers : ∀ other ∈ tasks, other.tunnel_id ≠ task.tunnel_id →
      StopFits registry other.tunnel_id other.stage := fun other hother _ => hfits.2 other hother
  cases heffect with
  | absent => exact h.set_operation _ (hfits.step_task htask hothers trivial)
  | @finds name _ hlookup =>
    exact h.set_operation _ (hfits.step_task htask hothers (h.lookup _ name hlookup))
  | @locks name entry hstage hentry hfree =>
    rw [hstage] at htask_fits
    obtain ⟨hid, _⟩ := Names.found htask_fits hentry
    have hinv : EntryInv { entry with lifecycle := some .operation } :=
      (h.entry_inv name entry hentry).operated (.inr hfree) rfl le_rfl
    exact h.step_task hop htask hentry hid hinv rfl (Names.written hid rfl)
  | @takes name entry stage already_stopped hstage hentry hnext =>
    rw [hstage] at htask_fits
    obtain ⟨hid, hheld⟩ := Names.found htask_fits hentry
    have hgeneration : (begin_stop entry.inner task.retire).1.generation =
        entry.inner.generation + 1 :=
      min_eq_left (TunnelRegistry.countable_generation (hbounded name hstage) hentry)
    have hinv : EntryInv (entry.with_inner (begin_stop entry.inner task.retire).1) :=
      (h.entry_inv name entry hentry).operated (.inl hheld) rfl
        (by show _ ≤ (begin_stop entry.inner task.retire).1.generation; omega)
    have hstale : Stale (entry.with_inner (begin_stop entry.inner task.retire).1) := by
      intro worker hworker
      have hle := (h.entry_inv name entry hentry).generation_le worker hworker
      show worker.generation < (begin_stop entry.inner task.retire).1.generation
      omega
    refine h.step_task hop htask hentry hid hinv rfl ?_
    rcases hnext with ⟨rfl, _⟩ | ⟨child, rfl, _⟩
    · exact Names.written hid ⟨⟨hheld, hstale, rfl⟩, rfl, rfl⟩
    · exact Names.written hid ⟨⟨hheld, hstale, rfl⟩, rfl, rfl⟩
  | @terminates name generation child already_stopped entry result hstage hentry _ =>
    rw [hstage] at htask_fits
    exact h.set_operation _ (hfits.step_task htask hothers htask_fits)
  | @settles name generation child already_stopped entry termination inner hstage hentry hsettles =>
    rw [hstage] at htask_fits
    obtain ⟨hid, htaken, hdesired, hgeneration⟩ := Names.found htask_fits hentry
    have hgives := hsettles hgeneration hdesired
    refine h.step_task hop htask hentry hid ?_ hgives.tunnel trivial
    exact (h.entry_inv name entry hentry).operated (.inl htaken.held) rfl hgives.generation.ge

/-! ### Reachable registries -/

theorem remove_stopped_effect (registry : TunnelRegistry) (tasks : List StopTask) :
    (remove_stopped registry tasks).heap = registry.heap ∧
      (remove_stopped registry tasks).made = registry.made ∧
        ∀ id e, (remove_stopped registry tasks).entries.lookup id = some e →
          registry.entries.lookup id = some e ∧
            ∀ task ∈ tasks, task.succeeded = true → task.tunnel_id ≠ id := by
  have hfold : ∀ (gone : List StopTask) (registry : TunnelRegistry),
      (gone.foldl (fun registry task => registry.remove_entry task.tunnel_id) registry).heap =
          registry.heap ∧
        (gone.foldl (fun registry task => registry.remove_entry task.tunnel_id) registry).made =
          registry.made ∧
        ∀ id e, (gone.foldl (fun registry task => registry.remove_entry task.tunnel_id)
            registry).entries.lookup id = some e →
          registry.entries.lookup id = some e ∧ ∀ task ∈ gone, task.tunnel_id ≠ id := by
    intro gone
    induction gone with
    | nil => exact fun registry => ⟨rfl, rfl, fun id e h => ⟨h, by simp⟩⟩
    | cons first gone ih =>
      intro registry
      obtain ⟨hheap, hmade, hlookup⟩ := ih (registry.remove_entry first.tunnel_id)
      refine ⟨hheap, hmade, fun id e h => ?_⟩
      obtain ⟨h, hgone⟩ := hlookup id e h
      have h : (registry.entries.erase first.tunnel_id).lookup id = some e := h
      have hfirst : first.tunnel_id ≠ id := by
        rintro rfl
        rw [AList.lookup_erase] at h
        simp at h
      rw [AList.lookup_erase_ne hfirst.symm] at h
      exact ⟨h, List.forall_mem_cons.mpr ⟨hfirst, hgone⟩⟩
  obtain ⟨hheap, hmade, hlookup⟩ := hfold (tasks.filter StopTask.succeeded) registry
  refine ⟨hheap, hmade, fun id e h => ?_⟩
  obtain ⟨h, hgone⟩ := hlookup id e h
  exact ⟨h, fun task htask hsucceeded =>
    hgone task (List.mem_filter.mpr ⟨htask, hsucceeded⟩)⟩

/-- Some entries are forgotten and the operation goes on. -/
theorem RegistryInv.forget (h : RegistryInv registry) (hheap : registry'.heap = registry.heap)
    (hmade : registry'.made = registry.made)
    (hlookup : ∀ id e, registry'.entries.lookup id = some e → registry.entries.lookup id = some e)
    (hfits : OperationFits registry' registry'.operation) : RegistryInv registry' := by
  refine ⟨hheap ▸ h.entry_inv, hheap ▸ hmade ▸ h.made, fun id e he => ?_, hfits⟩
  obtain ⟨entry, hentry, hid, _⟩ := h.lookup id e (hlookup id e he)
  exact ⟨entry, hheap ▸ hentry, hid, trivial⟩

theorem RegistryInv.finish_stop (h : RegistryInv registry) (tasks : List StopTask) (after : After) :
    RegistryInv (finish_stop registry tasks after) := by
  obtain ⟨hheap, hmade, hlookup⟩ := remove_stopped_effect registry tasks
  have hlookup := fun id e he => (hlookup id e he).1
  unfold Tunnel.finish_stop
  split
  · exact h.set_operation none trivial
  · exact h.forget hheap hmade hlookup trivial
  · split
    · exact h.set_operation (some (.start _ _ .looking)) trivial
    · exact h.set_operation none trivial
  · split
    · exact h.forget hheap hmade hlookup trivial
    · refine h.forget hheap hmade hlookup ⟨by simp, fun task htask => ?_⟩
      rw [List.mem_singleton.mp htask]
      trivial

/-- An operation that has not done anything. -/
inductive Fresh : Operation → Prop where
  | start (host : HostProfile) (tunnel : TunnelProfile) : Fresh (.start host tunnel .looking)
  | stop (retire : Bool) (ids : List Text) (after : After) :
      ids.Nodup → Fresh (.stop (ids.map (stop_task retire)) after)

theorem Fresh.fits {operation : Operation} (h : Fresh operation) (registry : TunnelRegistry) :
    OperationFits registry (some operation) := by
  cases h with
  | start host tunnel => trivial
  | stop retire ids after hnodup =>
    constructor
    · rw [List.map_map]
      simpa [Function.comp_def, stop_task] using hnodup
    · intro task htask
      obtain ⟨id, _, rfl⟩ := List.mem_map.mp htask
      trivial

/-- What a step is: one of a worker, a reader or a child, or of the operation. -/
inductive Step (registry : TunnelRegistry) : Label → TunnelRegistry → Prop where
  | work {name : Nat} {worker : Worker} {event : Event} {now : Timestamp}
      {entry entry' : TunnelEntry} :
      registry.heap name = some entry → worker ∈ entry.workers → WorkEffect entry worker entry' →
      Step registry (.work name worker event now) (registry.set_entry name entry')
  | process_line {name generation : Nat} {line : Text} {truncated : Bool} {now : Timestamp}
      {entry : TunnelEntry} {inner : TunnelInner} :
      registry.heap name = some entry → SameControl entry.inner inner →
      Step registry (.process_line name generation line truncated now)
        (registry.set_entry name (entry.with_inner inner))
  | child_exits {name child : Nat} {entry : TunnelEntry} :
      registry.heap name = some entry →
      Step registry (.child_exits name child) (registry.set_entry name (entry.child_exits child))
  | begins {label : Label} {operation : Operation} :
      registry.operation = none → Fresh operation →
      Step registry label (registry.set_operation (some operation))
  | starts {event : StartEvent} {now : Timestamp} {host : HostProfile} {tunnel : TunnelProfile}
      {stage : StartStage} {registry' : TunnelRegistry} :
      registry.operation = some (.start host tunnel stage) →
      StartEffect registry host tunnel stage event registry' →
      Step registry (.start_step event now) registry'
  | stops {task : StopTask} {event : StopEvent} {now : Timestamp} {tasks : List StopTask}
      {after : After} {stepped : TunnelRegistry} {stage : StopStage} :
      registry.operation = some (.stop tasks after) → task ∈ tasks →
      StopEffect registry task stepped stage →
      Step registry (.stop_step task event now) (stepped.set_operation
        (some (.stop (tasks.erase task ++ [{ task with stage := stage }]) after)))
  | finishes {tasks : List StopTask} {after : After} :
      registry.operation = some (.stop tasks after) →
      (∀ task ∈ tasks, task.stage.result.isSome = true) →
      Step registry .finish (finish_stop registry tasks after)

theorem begin_operation_step {label : Label} {operation : Operation} (hfresh : Fresh operation)
    (hnext : begin_operation registry operation = some registry') : Step registry label registry' := by
  obtain ⟨hfree, hnext⟩ := Option.ite_none_right_eq_some.mp hnext
  exact Option.some.inj hnext ▸ .begins hfree hfresh

theorem next_step {label : Label} (hnext : registry.next label = some registry') :
    Step registry label registry' := by
  cases label with
  | start host tunnel => exact begin_operation_step (.start host tunnel) hnext
  | restart host tunnel =>
    exact begin_operation_step (.stop false [tunnel.id] _ (by simp)) hnext
  | stop tunnel_id => exact begin_operation_step (.stop false [tunnel_id] _ (by simp)) hnext
  | remove tunnel_id => exact begin_operation_step (.stop true [tunnel_id] _ (by simp)) hnext
  | stop_for_host host_id =>
    exact begin_operation_step (.stop true [] _ List.nodup_nil) hnext
  | stop_all => exact begin_operation_step (.stop false _ _ registry.entries.nodupKeys) hnext
  | start_step event now =>
    unfold TunnelRegistry.next at hnext
    dsimp only at hnext
    split at hnext
    case h_1 hop => exact .starts hop (start_step_effect hnext)
    case h_2 => simp at hnext
  | stop_step task event now =>
    unfold TunnelRegistry.next at hnext
    dsimp only at hnext
    split at hnext
    case h_1 tasks after hop =>
      obtain ⟨htask, hnext⟩ := Option.ite_none_right_eq_some.mp hnext
      obtain ⟨⟨stepped, stage⟩, hstep, hnext⟩ := Option.bind_eq_some_iff.mp hnext
      exact Option.some.inj hnext ▸ .stops hop htask (stop_step_effect hstep)
    case h_2 => simp at hnext
  | finish =>
    unfold TunnelRegistry.next at hnext
    dsimp only at hnext
    split at hnext
    case h_1 tasks after hop =>
      obtain ⟨hreturned, hnext⟩ := Option.ite_none_right_eq_some.mp hnext
      exact Option.some.inj hnext ▸ .finishes hop (List.all_eq_true.mp hreturned)
    case h_2 => simp at hnext
  | work name worker event now =>
    obtain ⟨entry, hentry, hnext⟩ := Option.bind_eq_some_iff.mp hnext
    obtain ⟨hworker, hnext⟩ := Option.ite_none_right_eq_some.mp hnext
    obtain ⟨worked, hwork, hnext⟩ := Option.bind_eq_some_iff.mp hnext
    exact Option.some.inj hnext ▸ .work hentry hworker (work_effect hwork)
  | process_line name generation line truncated now =>
    obtain ⟨entry, hentry, hnext⟩ := Option.bind_eq_some_iff.mp hnext
    obtain ⟨_, hnext⟩ := Option.ite_none_right_eq_some.mp hnext
    exact Option.some.inj hnext ▸ .process_line hentry (record_process_line_control ..)
  | child_exits name child =>
    obtain ⟨entry, hentry, hnext⟩ := Option.bind_eq_some_iff.mp hnext
    exact Option.some.inj hnext ▸ .child_exits hentry

/-- Readers and children do not touch the workers. -/
theorem EntryInv.with_inner (h : EntryInv entry) {inner : TunnelInner}
    (hcontrol : SameControl entry.inner inner) : EntryInv (entry.with_inner inner) := by
  refine ⟨h.lock_holder, fun worker hworker => ?_, h.generations, fun worker hworker hpassed => ?_⟩
  · exact (h.generation_le worker hworker).trans_eq hcontrol.generation.symm
  · obtain ⟨hcurrent, hrunning⟩ := is_current_locked_iff.mp (h.passed_current worker hworker hpassed)
    exact is_current_locked_iff.mpr
      ⟨hcontrol.generation.trans hcurrent, hcontrol.desired_running.trans hrunning⟩

/-- A step whose generations have not run out keeps the invariant. -/
theorem RegistryInv.step (h : RegistryInv registry) {label : Label}
    (hbounded : bounded registry label = true) (hstep : Step registry label registry') :
    RegistryInv registry' := by
  cases hstep with
  | @work name worker _ _ entry entry' hentry hworker heffect =>
    have hinv := h.entry_inv name entry hentry
    exact h.keeps hentry (hinv.work hworker heffect) (heffect.keeps_entry hinv hworker)
  | @process_line name _ _ _ _ entry inner hentry hcontrol =>
    have hinv := h.entry_inv name entry hentry
    exact h.keeps hentry (hinv.with_inner hcontrol) (.of_control hcontrol rfl rfl)
  | @child_exits name child entry hentry =>
    have hinv := h.entry_inv name entry hentry
    exact h.keeps hentry
      ⟨hinv.lock_holder, hinv.generation_le, hinv.generations, hinv.passed_current⟩
      (.of_control (.refl entry.inner) rfl rfl)
  | begins _ hfresh => exact h.set_operation _ (hfresh.fits registry)
  | starts hop heffect =>
    have hfits : OperationFits registry _ := hop ▸ h.operation
    refine h.start_step hfits (fun name hstage => ?_) heffect
    subst hstage
    simpa [bounded, hop] using hbounded
  | stops hop htask heffect =>
    refine h.stop_step hop htask (fun name hstage => ?_) heffect
    simpa [bounded, hstage] using hbounded
  | finishes hop _ => exact h.finish_stop _ _

theorem reachable_registryInv {ok : TunnelRegistry → Label → Prop}
    (hok : ∀ registry label, ok registry label → bounded registry label = true)
    (h : tunnels.ReachableWhen ok registry) : RegistryInv registry := by
  refine h.invariant ?_ ?_
  · rintro registry rfl
    exact registryInv_default
  · intro registry label registry' hinv hstep hnext
    exact hinv.step (hok registry label hstep) (next_step hnext)

end Tunnel
