import RemoteDeck.Tunnel.Invariant

/-! # The workers of a tunnel

    Between the section of a start that takes the stale child and the one
    that spawns the worker the flags of an entry and its workers may
    disagree; elsewhere a desired tunnel has one worker of its current
    generation (`HasWorker`).  A start that cannot terminate the stale child
    returns in between, which is harmless only for a tunnel that is not
    desired (`orderly`).
-/

namespace Tunnel

variable {registry registry' : TunnelRegistry} {name e : Nat} {entry entry' : TunnelEntry}
  {worker : Worker} {label : Label}

/-! ### Pending steps -/

/-- The entry that a start is at work on. -/
def StartStage.target : StartStage → Option Nat
  | .looking => none
  | .locking name | .checking name | .bumping name | .terminating name _ | .requesting name
  | .spawning name _ => some name

/-- The entry that a stop is at work on. -/
def StopStage.target : StopStage → Option Nat
  | .looking | .returned _ => none
  | .locking name | .taking name | .terminating name _ _ _ | .settling name _ _ _ _ => some name

/-- A start or a stop is at work on an entry. -/
def Pending (operation : Option Operation) (e : Nat) : Prop :=
  match operation with
  | none => False
  | some (.start _ _ stage) => stage.target = some e
  | some (.stop tasks _) => ∃ task ∈ tasks, task.stage.target = some e

/-- The entry whose generation a start has drawn, without a worker yet. -/
def StartStage.drawn : StartStage → Option Nat
  | .terminating name _ | .requesting name | .spawning name _ => some name
  | _ => none

def Drawn (operation : Option Operation) (e : Nat) : Prop :=
  match operation with
  | some (.start _ _ stage) => stage.drawn = some e
  | _ => False

theorem StartStage.target_of_drawn {stage : StartStage} (h : stage.drawn = some e) :
    stage.target = some e := by
  cases stage <;> simp_all [StartStage.drawn, StartStage.target]

theorem pending_of_drawn {operation : Option Operation} (h : Drawn operation e) :
    Pending operation e := by
  cases operation with
  | none => exact h.elim
  | some operation =>
    cases operation with
    | start host tunnel stage => exact StartStage.target_of_drawn h
    | stop tasks after => exact h.elim

/-- A start does not fail to terminate the stale child of a desired tunnel. -/
def orderly (registry : TunnelRegistry) (label : Label) : Bool :=
  bounded registry label &&
    match label, registry.operation with
    | .start_step (.terminated (.error _)) _, some (.start _ _ (.terminating name _)) =>
        (registry.inner name).all fun inner => !inner.desired_running
    | _, _ => true

theorem bounded_of_orderly (h : orderly registry label = true) : bounded registry label = true :=
  (Bool.and_eq_true_iff.mp h).1

/-! ### One entry over one step -/

/-- A process was there before, or it is a new one of a current worker. -/
def Descends (entry entry' : TunnelEntry) : Prop :=
  ∀ p process, entry'.processes p = some process →
    (∃ old, entry.processes p = some old ∧ old.generation = process.generation ∧
        (process.alive = true → old.alive = true)) ∨
      is_current_locked entry.inner process.generation = true

theorem Descends.of_same (h : entry'.processes = entry.processes) : Descends entry entry' :=
  fun _ process hprocess => .inl ⟨process, h ▸ hprocess, rfl, id⟩

theorem WorkEffect.descends (heffect : WorkEffect entry worker entry') (h : EntryInv entry)
    (hworker : worker ∈ entry.workers) : Descends entry entry' := by
  cases heffect with
  | spawns next hstage hnext _ =>
    intro p process hprocess
    have hprocess : Function.update entry.processes entry.spawned
        (some ⟨true, worker.generation⟩) p = some process := hprocess
    rw [Function.update_apply] at hprocess
    split at hprocess
    · have hcurrent := h.passed_current worker hworker (by rw [hstage]; rfl)
      exact .inr (Option.some.inj hprocess ▸ hcurrent)
    · exact .inl ⟨process, hprocess, rfl, id⟩
  | lets_go => exact .of_same rfl
  | gives_up => exact .of_same rfl
  | locks => exact .of_same rfl
  | passes => exact .of_same rfl
  | publishes => exact .of_same rfl
  | keeps => exact .of_same rfl
  | drops => exact .of_same rfl
  | takes => exact .of_same rfl
  | restores => exact .of_same rfl
  | leaves => exact .of_same rfl

theorem child_exits_process {exited p : Nat} {process : Process}
    (hprocess : (entry.child_exits exited).processes p = some process) :
    ∃ old, entry.processes p = some old ∧ old.generation = process.generation ∧
      (process.alive = true → old.alive = true) := by
  have hprocess : Function.update entry.processes exited
      ((entry.processes exited).map fun process => { process with alive := false }) p =
        some process := hprocess
  rw [Function.update_apply] at hprocess
  split at hprocess
  case isTrue hp =>
    subst hp
    obtain ⟨old, hold, rfl⟩ := Option.map_eq_some_iff.mp hprocess
    exact ⟨old, hold, rfl, fun halive => absurd halive Bool.false_ne_true⟩
  case isFalse => exact ⟨process, hprocess, rfl, id⟩

/-- What a step leaves of an entry.  Only a start that has drawn a
    generation makes a tunnel desired. -/
structure Follows (operation operation' : Option Operation) (e : Nat) (entry entry' : TunnelEntry) :
    Prop where
  generation : entry.inner.generation ≤ entry'.inner.generation
  tunnel : entry'.inner.profile.id = entry.inner.profile.id
  drawn : entry'.inner.generation = entry.inner.generation → ¬ Drawn operation e →
    ¬ Drawn operation' e
  desired : ¬ Drawn operation e → entry'.inner.desired_running = true →
    entry.inner.desired_running = true
  retired : entry'.inner.retired = true →
    entry.inner.retired = true ∨ entry'.inner.desired_running = false
  processes : Descends entry entry'

theorem Follows.not_desired {operation operation' : Option Operation}
    (h : Follows operation operation' e entry entry') (hidle : ¬ Drawn operation e)
    (hdesired : entry.inner.desired_running = false) : entry'.inner.desired_running = false := by
  by_contra hrunning
  simp [h.desired hidle (by simpa using hrunning)] at hdesired

theorem Follows.refl {operation operation' : Option Operation} (entry : TunnelEntry)
    (hdrawn : ¬ Drawn operation e → ¬ Drawn operation' e) :
    Follows operation operation' e entry entry :=
  ⟨le_rfl, rfl, fun _ => hdrawn, fun _ => id, .inl, .of_same rfl⟩

/-- A step of a worker, a reader or a child. -/
theorem Follows.of_keeps (operation : Option Operation) (hkeeps : Keeps entry entry')
    (hdescends : Descends entry entry') : Follows operation operation e entry entry' :=
  ⟨hkeeps.generation.ge, hkeeps.tunnel, fun _ => id, fun _ => hkeeps.desired_running,
    fun h => .inl (hkeeps.retired.symm.trans h), hdescends⟩

/-- Every entry of the heap is followed by one. -/
def AllFollow (registry registry' : TunnelRegistry) : Prop :=
  ∀ e entry, registry.heap e = some entry →
    ∃ entry', registry'.heap e = some entry' ∧
      Follows registry.operation registry'.operation e entry entry'

/-- A step that writes one entry. -/
theorem AllFollow.update {operation : Option Operation} (hentry : registry.heap name = some entry)
    (hfollows : Follows registry.operation operation name entry entry')
    (hdrawn : ∀ e, e ≠ name → ¬ Drawn registry.operation e → ¬ Drawn operation e) :
    AllFollow registry ((registry.set_entry name entry').set_operation operation) := by
  intro e found hfound
  rw [heap_set_operation, heap_set_entry]
  by_cases he : e = name
  · subst he
    rw [hentry, Option.some.injEq] at hfound
    subst hfound
    exact ⟨entry', if_pos rfl, hfollows⟩
  · exact ⟨found, by rw [if_neg he]; exact hfound, .refl found (hdrawn e he)⟩

/-- A step that leaves the heap as it is. -/
theorem AllFollow.of_heap (hheap : registry'.heap = registry.heap)
    (hdrawn : ∀ e, ¬ Drawn registry.operation e → ¬ Drawn registry'.operation e) :
    AllFollow registry registry' :=
  fun e entry hentry => ⟨entry, hheap ▸ hentry, .refl entry (hdrawn e)⟩

theorem finish_stop_drawn (registry : TunnelRegistry) (tasks : List StopTask) (after : After)
    (e : Nat) : ¬ Drawn (finish_stop registry tasks after).operation e := by
  unfold finish_stop
  split
  · exact id
  · exact id
  · split
    · simp [Drawn, StartStage.drawn]
    · exact id
  · split <;> exact id

theorem finish_stop_heap (registry : TunnelRegistry) (tasks : List StopTask) (after : After) :
    (finish_stop registry tasks after).heap = registry.heap := by
  have hheap := (remove_stopped_effect registry tasks).1
  unfold finish_stop
  split
  · rfl
  · exact hheap
  · split <;> rfl
  · split <;> exact hheap

theorem StartEffect.follows {host : HostProfile} {tunnel : TunnelProfile} {stage : StartStage}
    {event : StartEvent} (heffect : StartEffect registry host tunnel stage event registry')
    (h : RegistryInv registry) (hop : registry.operation = some (.start host tunnel stage))
    (hbounded : ∀ name, stage = .bumping name → registry.countable name = true) :
    AllFollow registry registry' := by
  have hfits : OperationFits registry (some (.start host tunnel stage)) := hop ▸ h.operation
  have hfits : StartFits registry tunnel.id stage := hfits
  have hdrawn : ∀ e, ¬ Drawn registry.operation e → stage.drawn ≠ some e := by
    intro e hidle hstage
    exact hidle (hop ▸ hstage)
  cases heffect with
  | refuses => exact .of_heap rfl fun _ _ => id
  | limited => exact .of_heap rfl fun _ _ => id
  | finds => exact .of_heap rfl fun _ _ => by simp [Drawn, StartStage.drawn]
  | makes _ =>
    intro e found hfound
    refine ⟨found, ?_, .refl found fun _ => by simp [Drawn, StartStage.drawn]⟩
    exact (heap_insert_entry (retain registry) tunnel e).trans
      ((if_neg (h.made e found hfound).ne).trans hfound)
  | @locks _ name entry hentry _ =>
    exact .update hentry
      ⟨le_rfl, rfl, fun _ _ => by simp [Drawn, StartStage.drawn], fun _ => id, .inl, .of_same rfl⟩
      fun _ _ _ => by simp [Drawn, StartStage.drawn]
  | @returns _ name entry hentry =>
    exact .update hentry ⟨le_rfl, rfl, fun _ _ => id, fun _ => id, .inl, .of_same rfl⟩ fun _ _ _ => id
  | proceeds => exact .of_heap rfl fun _ _ => by simp [Drawn, StartStage.drawn]
  | @bumps _ name entry stage hentry hstage =>
    have hgeneration : (take_stale_child entry.inner).1.generation = entry.inner.generation + 1 :=
      min_eq_left (TunnelRegistry.countable_generation (hbounded name rfl) hentry)
    refine .update hentry ⟨?_, rfl, fun hsame _ => ?_, fun _ => id, .inl, .of_same rfl⟩
      fun e he _ => ?_
    · show _ ≤ (take_stale_child entry.inner).1.generation
      omega
    · have hsame : (take_stale_child entry.inner).1.generation = entry.inner.generation := hsame
      omega
    · rcases hstage with ⟨rfl, _⟩ | ⟨child, rfl, _⟩
      · exact fun h => he (Option.some.inj h).symm
      · exact fun h => he (Option.some.inj h).symm
  | @terminates _ name child entry hentry _ =>
    refine .update hentry ⟨le_rfl, rfl, fun _ hidle => absurd rfl (hdrawn name hidle),
      fun hidle => absurd rfl (hdrawn name hidle), .inl, .of_same rfl⟩ fun e he _ => ?_
    exact fun h => he (Option.some.inj h).symm
  | @fails name child error entry hentry =>
    exact .update hentry ⟨le_rfl, rfl, fun _ _ => id, fun _ => id, .inl, .of_same rfl⟩ fun _ _ _ => id
  | @requests _ name entry inner hentry hstarts =>
    obtain ⟨hid, _⟩ := hfits.found hentry
    refine .update hentry ⟨hstarts.generation.ge, hstarts.tunnel.trans hid.symm,
      fun _ hidle => absurd rfl (hdrawn name hidle), fun hidle => absurd rfl (hdrawn name hidle),
      fun h => .inl (hstarts.retired.symm.trans h), .of_same rfl⟩ fun e he _ => ?_
    exact fun h => he (Option.some.inj h).symm
  | @spawns _ name generation entry worker hentry _ _ =>
    exact .update hentry ⟨le_rfl, rfl, fun _ _ => id, fun _ => id, .inl, .of_same rfl⟩ fun _ _ _ => id
  | @spawn_fails _ name generation entry inner hentry hfails =>
    obtain ⟨_, _, _, hgeneration⟩ := hfits.found hentry
    have hgives := hfails hgeneration
    refine .update hentry ⟨hgives.generation.ge, hgives.tunnel, fun _ _ => id,
      fun _ hdesired => ?_, fun h => .inl (hgives.retired.symm.trans h), .of_same rfl⟩ fun _ _ _ => id
    exact absurd (hgives.desired_running.symm.trans hdesired) Bool.false_ne_true

theorem StopEffect.follows {tasks : List StopTask} {after : After} {task : StopTask}
    {stage : StopStage} {stepped : TunnelRegistry}
    (heffect : StopEffect registry task stepped stage) (h : RegistryInv registry)
    (hop : registry.operation = some (.stop tasks after)) (htask : task ∈ tasks)
    (hbounded : ∀ name, task.stage = .taking name → registry.countable name = true) :
    AllFollow registry (stepped.set_operation
      (some (.stop (tasks.erase task ++ [{ task with stage := stage }]) after))) := by
  have hfits : OperationFits registry (some (.stop tasks after)) := hop ▸ h.operation
  have htask_fits := hfits.2 task htask
  cases heffect with
  | absent => exact .of_heap rfl fun _ _ => id
  | finds => exact .of_heap rfl fun _ _ => id
  | @locks name entry _ hentry _ =>
    exact .update hentry ⟨le_rfl, rfl, fun _ _ => id, fun _ => id, .inl, .of_same rfl⟩ fun _ _ _ => id
  | @takes name entry stage already_stopped hstage hentry _ =>
    refine .update hentry ⟨?_, rfl, fun _ _ => id, fun _ hdesired => ?_, fun _ => .inr rfl,
      .of_same rfl⟩ fun _ _ _ => id
    · exact le_min (Nat.le_succ _)
        (TunnelRegistry.countable_generation (hbounded name hstage) hentry).le
    · exact absurd hdesired Bool.false_ne_true
  | terminates => exact .of_heap rfl fun _ _ => id
  | @settles name generation child already_stopped entry termination inner hstage hentry hsettles =>
    rw [hstage] at htask_fits
    obtain ⟨_, _, hdesired, hgeneration⟩ := Names.found htask_fits hentry
    have hgives := hsettles hgeneration hdesired
    refine .update hentry ⟨hgives.generation.ge, hgives.tunnel, fun _ _ => id,
      fun _ hrunning => ?_, fun h => .inl (hgives.retired.symm.trans h), .of_same rfl⟩ fun _ _ _ => id
    exact absurd (hgives.desired_running.symm.trans hrunning) Bool.false_ne_true

/-- **What a step leaves of the entries.** -/
theorem Step.follows (hstep : Step registry label registry') (h : RegistryInv registry)
    (hbounded : bounded registry label = true) : AllFollow registry registry' := by
  cases hstep with
  | @work name worker _ _ entry entry' hentry hworker heffect =>
    have hinv := h.entry_inv name entry hentry
    exact .update hentry (.of_keeps registry.operation (heffect.keeps_entry hinv hworker)
      (heffect.descends hinv hworker)) fun _ _ => id
  | @process_line name _ _ _ _ entry inner hentry hcontrol =>
    exact .update hentry (.of_keeps registry.operation (.of_control hcontrol rfl rfl) (.of_same rfl))
      fun _ _ => id
  | @child_exits name child entry hentry =>
    exact .update hentry (.of_keeps registry.operation (.of_control (.refl entry.inner) rfl rfl)
      fun _ _ hprocess => .inl (child_exits_process hprocess)) fun _ _ => id
  | begins hop hfresh =>
    refine .of_heap rfl fun e _ => ?_
    cases hfresh with
    | start => simp [Drawn, StartStage.drawn]
    | stop => simp [Drawn]
  | starts hop heffect =>
    refine heffect.follows h hop fun name hstage => ?_
    subst hstage
    simpa [bounded, hop] using hbounded
  | stops hop htask heffect =>
    refine heffect.follows h hop htask fun name hstage => ?_
    simpa [bounded, hstage] using hbounded
  | @finishes tasks after hop _ =>
    exact .of_heap (finish_stop_heap registry tasks after) fun e _ =>
      finish_stop_drawn registry tasks after e

/-! ### Tunnels that are not desired -/

/-- The processes that are new since an entry are of later generations. -/
def LaterProcesses (start entry : TunnelEntry) : Prop :=
  ∀ p process, entry.processes p = some process →
    (∃ old, start.processes p = some old ∧ old.generation = process.generation ∧
        (process.alive = true → old.alive = true)) ∨
      start.inner.generation < process.generation

/-- An entry ever after it was not desired: it has a later generation, or
    it is not desired still. -/
structure Since (start : TunnelEntry) (operation : Option Operation) (e : Nat)
    (entry : TunnelEntry) : Prop where
  quiet : start.inner.generation < entry.inner.generation ∨
    entry.inner.generation = start.inner.generation ∧ entry.inner.desired_running = false ∧
      ¬ Drawn operation e
  later : LaterProcesses start entry

theorem Since.follows {start : TunnelEntry} {operation operation' : Option Operation}
    (h : Since start operation e entry) (hfollows : Follows operation operation' e entry entry') :
    Since start operation' e entry' := by
  constructor
  · rcases h.quiet with hlater | ⟨hsame, hdesired, hidle⟩
    · exact .inl (hlater.trans_le hfollows.generation)
    · rcases hfollows.generation.lt_or_eq with hless | heq
      · exact .inl (hsame ▸ hless)
      · exact .inr ⟨heq.symm.trans hsame, hfollows.not_desired hidle hdesired,
          hfollows.drawn heq.symm hidle⟩
  · intro p process hprocess
    rcases hfollows.processes p process hprocess with ⟨old, hold, hgeneration, halive⟩ | hcurrent
    · rcases h.later p old hold with ⟨first, hfirst, hsame, hfirst_alive⟩ | hlater
      · exact .inl ⟨first, hfirst, hsame.trans hgeneration, fun hp => hfirst_alive (halive hp)⟩
      · exact .inr (hgeneration ▸ hlater)
    · obtain ⟨hcurrent, hrunning⟩ := is_current_locked_iff.mp hcurrent
      rcases h.quiet with hlater | ⟨_, hdesired, _⟩
      · exact .inr (hcurrent ▸ hlater)
      · simp [hdesired] at hrunning

/-- **Tunnels that are not desired**: whatever happens, a process that is
    new since then is of a later generation. -/
theorem not_desired_run (h : RegistryInv registry) (hentry : registry.heap e = some entry)
    (hdesired : entry.inner.desired_running = false) (hidle : ¬ Drawn registry.operation e)
    (hrun : tunnels.StepsWhen (fun registry label => bounded registry label = true) registry registry')
    (hentry' : registry'.heap e = some entry') : LaterProcesses entry entry' := by
  have hsince : RegistryInv registry' ∧
      ∃ found, registry'.heap e = some found ∧ Since entry registry'.operation e found := by
    refine hrun.preserves (P := fun registry' => RegistryInv registry' ∧
      ∃ found, registry'.heap e = some found ∧ Since entry registry'.operation e found) ?_ ?_
    · rintro before label after ⟨hinv, found, hfound, hsince⟩ hbounded hnext
      have hstep := next_step hnext
      obtain ⟨next, hnext, hfollows⟩ := hstep.follows hinv hbounded e found hfound
      exact ⟨hinv.step hbounded hstep, next, hnext, hsince.follows hfollows⟩
    · exact ⟨h, entry, hentry, .inr ⟨rfl, hdesired, hidle⟩,
        fun p process hprocess => .inl ⟨process, hprocess, rfl, id⟩⟩
  obtain ⟨_, found, hfound, hsince⟩ := hsince
  rw [hentry', Option.some.injEq] at hfound
  exact hfound ▸ hsince.later

/-! ### Tunnels that are desired -/

/-- A desired tunnel has a worker of its current generation. -/
def HasWorker (entry : TunnelEntry) : Prop :=
  entry.inner.desired_running = true →
    ∃ worker ∈ entry.workers, worker.generation = entry.inner.generation

theorem hasWorker_of_not_desired (h : entry.inner.desired_running = false) : HasWorker entry :=
  fun hdesired => absurd (h.symm.trans hdesired) Bool.false_ne_true

/-- Another content and other workers, of the same generations. -/
theorem HasWorker.same (h : HasWorker entry)
    (hgeneration : entry'.inner.generation = entry.inner.generation)
    (hdesired : entry'.inner.desired_running = true → entry.inner.desired_running = true)
    (hworkers : entry'.workers = entry.workers) : HasWorker entry' := by
  intro hrunning
  obtain ⟨worker, hworker, hsame⟩ := h (hdesired hrunning)
  exact ⟨worker, hworkers ▸ hworker, hsame.trans hgeneration.symm⟩

/-- A worker goes on as one of its generation. -/
theorem HasWorker.replaces (h : HasWorker entry) {next : Worker}
    (hnext : next.generation = worker.generation)
    (hgeneration : entry'.inner.generation = entry.inner.generation)
    (hdesired : entry'.inner.desired_running = true → entry.inner.desired_running = true)
    (hworkers : entry'.workers = entry.workers.erase worker ++ [next]) : HasWorker entry' := by
  intro hrunning
  obtain ⟨current, hcurrent, hsame⟩ := h (hdesired hrunning)
  rw [hworkers, hgeneration]
  by_cases hworker : current = worker
  · exact ⟨next, by simp, hnext.trans (hworker ▸ hsame)⟩
  · exact ⟨current, List.mem_append_left _ ((List.mem_erase_of_ne hworker).mpr hcurrent), hsame⟩

theorem WorkEffect.has_worker (heffect : WorkEffect entry worker entry') (h : HasWorker entry) :
    HasWorker entry' := by
  cases heffect with
  | lets_go next hcontrol hnext _ =>
    exact h.replaces hnext hcontrol.generation (fun hd => hcontrol.desired_running ▸ hd) rfl
  | gives_up next _ _ hgives _ _ => exact hasWorker_of_not_desired hgives.desired_running
  | locks next _ _ hnext _ => exact h.replaces hnext rfl id rfl
  | passes next _ _ hnext _ => exact h.replaces hnext rfl id rfl
  | spawns next _ hnext _ => exact h.replaces hnext rfl id rfl
  | publishes next _ _ hnext _ => exact h.replaces hnext rfl id rfl
  | keeps next _ hnext _ _ _ => exact h.replaces hnext rfl id rfl
  | drops next _ _ _ hnext _ => exact h.replaces hnext rfl id rfl
  | takes next _ _ _ hnext _ _ => exact h.replaces hnext rfl id rfl
  | restores next _ _ _ _ hnext _ => exact h.replaces hnext rfl id rfl
  | leaves hstage hinner =>
    rcases hinner with ⟨hstale, hcontrol, _⟩ | ⟨_, hgives, _⟩
    · intro hrunning
      have hdesired := hcontrol.desired_running.symm.trans hrunning
      obtain ⟨current, hcurrent, hsame⟩ := h hdesired
      -- the one that leaves is not of the current generation
      have hother : current ≠ worker := by
        rintro rfl
        simp [is_current_locked_iff.mpr ⟨hsame.symm, hdesired⟩] at hstale
      exact ⟨current, (List.mem_erase_of_ne hother).mpr hcurrent,
        hsame.trans hcontrol.generation.symm⟩
    · exact hasWorker_of_not_desired hgives.desired_running

/-- Every entry without a drawn generation has its worker. -/
def WorkersInv (registry : TunnelRegistry) : Prop :=
  ∀ e entry, registry.heap e = some entry → ¬ Drawn registry.operation e → HasWorker entry

/-- A step that writes one entry. -/
theorem WorkersInv.update (h : WorkersInv registry) {operation : Option Operation}
    (hworker : ¬ Drawn operation name → HasWorker entry')
    (hdrawn : ∀ e, e ≠ name → ¬ Drawn operation e → ¬ Drawn registry.operation e) :
    WorkersInv ((registry.set_entry name entry').set_operation operation) := by
  intro e found hfound hidle
  rw [heap_set_operation, heap_set_entry] at hfound
  split at hfound
  case isTrue he =>
    subst he
    exact Option.some.inj hfound ▸ hworker hidle
  case isFalse he => exact h e found hfound (hdrawn e he hidle)

/-- A step that leaves the heap as it is. -/
theorem WorkersInv.of_heap (h : WorkersInv registry) (hheap : registry'.heap = registry.heap)
    (hdrawn : ∀ e, ¬ Drawn registry'.operation e → ¬ Drawn registry.operation e) :
    WorkersInv registry' :=
  fun e entry hentry hidle => h e entry (hheap ▸ hentry) (hdrawn e hidle)

theorem StartEffect.workers {host : HostProfile} {tunnel : TunnelProfile} {stage : StartStage}
    {event : StartEvent} (heffect : StartEffect registry host tunnel stage event registry')
    (h : WorkersInv registry) (hinv : RegistryInv registry)
    (hop : registry.operation = some (.start host tunnel stage))
    (hfails : ∀ name child error, stage = .terminating name child →
      event = .terminated (.error error) →
        ∀ entry, registry.heap name = some entry → entry.inner.desired_running = false) :
    WorkersInv registry' := by
  have hfits : OperationFits registry (some (.start host tunnel stage)) := hop ▸ hinv.operation
  have hfits : StartFits registry tunnel.id stage := hfits
  have hidle : ∀ e, stage.drawn ≠ some e → ¬ Drawn registry.operation e := by
    intro e hstage hdrawn
    exact hstage (by rw [hop] at hdrawn; exact hdrawn)
  -- another entry than that of the start
  have hother : ∀ {name}, stage.drawn = some name → ∀ e, e ≠ name → ¬ Drawn registry.operation e :=
    fun hstage e he => hidle e fun h => he (Option.some.inj (h.symm.trans hstage))
  cases heffect with
  | refuses => exact h.of_heap rfl fun e _ => hidle e nofun
  | limited => exact h.of_heap rfl fun e _ => hidle e nofun
  | finds => exact h.of_heap rfl fun e _ => hidle e nofun
  | makes _ =>
    intro e found hfound _
    have hfound := (heap_insert_entry (retain registry) tunnel e).symm.trans hfound
    split at hfound
    · exact Option.some.inj hfound ▸ hasWorker_of_not_desired rfl
    · exact h e found hfound (hidle e nofun)
  | @locks _ name entry hentry _ =>
    exact h.update (fun _ => (h name entry hentry (hidle name nofun)).same rfl id rfl)
      fun e _ _ => hidle e nofun
  | @returns _ name entry hentry =>
    exact h.update (fun _ => (h name entry hentry (hidle name nofun)).same rfl id rfl)
      fun e _ _ => hidle e nofun
  | proceeds => exact h.of_heap rfl fun e _ => hidle e nofun
  | @bumps _ name entry stage _ hstage =>
    refine h.update (fun hdrawn => absurd ?_ hdrawn) fun e _ _ => hidle e nofun
    rcases hstage with ⟨rfl, _⟩ | ⟨child, rfl, _⟩ <;> exact rfl
  | @terminates _ name child entry _ _ =>
    exact h.update (fun hdrawn => absurd rfl hdrawn) fun e he _ => hother rfl e he
  | @fails name child error entry hentry =>
    have hdesired := hfails name child error rfl rfl entry hentry
    exact h.update (fun _ => hasWorker_of_not_desired hdesired) fun e he _ => hother rfl e he
  | @requests _ name entry inner _ _ =>
    exact h.update (fun hdrawn => absurd rfl hdrawn) fun e he _ => hother rfl e he
  | @spawns _ name generation entry worker hentry hworker _ =>
    obtain ⟨_, _, _, hgeneration⟩ := hfits.found hentry
    refine h.update (fun _ _ => ⟨worker, ?_, hworker.trans hgeneration.symm⟩)
      fun e he _ => hother rfl e he
    exact List.mem_append_right _ (List.mem_singleton_self worker)
  | @spawn_fails _ name generation entry inner hentry hfailed =>
    obtain ⟨_, _, _, hgeneration⟩ := hfits.found hentry
    exact h.update (fun _ => hasWorker_of_not_desired (hfailed hgeneration).desired_running)
      fun e he _ => hother rfl e he

theorem StopEffect.workers {tasks : List StopTask} {after : After} {task : StopTask}
    {stage : StopStage} {stepped : TunnelRegistry}
    (heffect : StopEffect registry task stepped stage) (h : WorkersInv registry)
    (hinv : RegistryInv registry) (hop : registry.operation = some (.stop tasks after))
    (htask : task ∈ tasks) :
    WorkersInv (stepped.set_operation
      (some (.stop (tasks.erase task ++ [{ task with stage := stage }]) after))) := by
  have hfits : OperationFits registry (some (.stop tasks after)) := hop ▸ hinv.operation
  have htask_fits := hfits.2 task htask
  have hidle : ∀ e, ¬ Drawn registry.operation e := fun e => by rw [hop]; exact id
  cases heffect with
  | absent => exact h.of_heap rfl fun e _ => hidle e
  | finds => exact h.of_heap rfl fun e _ => hidle e
  | @locks name entry _ hentry _ =>
    exact h.update (fun _ => (h name entry hentry (hidle name)).same rfl id rfl) fun e _ _ => hidle e
  | takes => exact h.update (fun _ => hasWorker_of_not_desired rfl) fun e _ _ => hidle e
  | terminates => exact h.of_heap rfl fun e _ => hidle e
  | @settles name generation child already_stopped entry termination inner hstage hentry hsettles =>
    rw [hstage] at htask_fits
    obtain ⟨_, _, hdesired, hgeneration⟩ := Names.found htask_fits hentry
    exact h.update (fun _ => hasWorker_of_not_desired (hsettles hgeneration hdesired).desired_running)
      fun e _ _ => hidle e

theorem Step.workers (hstep : Step registry label registry') (h : WorkersInv registry)
    (hinv : RegistryInv registry) (horderly : orderly registry label = true) :
    WorkersInv registry' := by
  cases hstep with
  | @work name worker _ _ entry entry' hentry _ heffect =>
    exact h.update (fun hidle => heffect.has_worker (h name entry hentry hidle)) fun _ _ => id
  | @process_line name _ _ _ _ entry inner hentry hcontrol =>
    exact h.update (fun hidle => (h name entry hentry hidle).same hcontrol.generation
      (fun hd => hcontrol.desired_running ▸ hd) rfl) fun _ _ => id
  | @child_exits name child entry hentry =>
    exact h.update (fun hidle => (h name entry hentry hidle).same rfl id rfl) fun _ _ => id
  | begins hop _ => exact h.of_heap rfl fun _ _ => by rw [hop]; exact id
  | starts hop heffect =>
    refine heffect.workers h hinv hop fun name child error hstage hevent entry hentry => ?_
    subst hstage hevent
    simpa [orderly, hop, TunnelRegistry.inner, hentry] using (Bool.and_eq_true_iff.mp horderly).2
  | stops hop htask heffect => exact heffect.workers h hinv hop htask
  | @finishes tasks after hop _ =>
    exact h.of_heap (finish_stop_heap registry tasks after) fun _ _ => by rw [hop]; exact id

theorem reachable_workersInv
    (h : tunnels.ReachableWhen (fun registry label => orderly registry label = true) registry) :
    WorkersInv registry ∧ RegistryInv registry := by
  induction h with
  | init hinit =>
    obtain rfl := hinit
    exact ⟨by simp [WorkersInv, TunnelRegistry.default], registryInv_default⟩
  | step _ horderly hnext ih =>
    have hstep := next_step hnext
    exact ⟨hstep.workers ih.1 ih.2 horderly, ih.2.step (bounded_of_orderly horderly) hstep⟩

/-- The flags of an entry and its workers agree. -/
structure Agrees (registry : TunnelRegistry) (e : Nat) (entry : TunnelEntry) : Prop where
  generation_le : ∀ worker ∈ entry.workers, worker.generation ≤ entry.inner.generation
  desired : entry.inner.desired_running = true →
    (entry.workers.filter fun worker => worker.generation = entry.inner.generation).length = 1
  not_desired : entry.inner.desired_running = false → ∀ registry' entry',
    tunnels.StepsWhen (fun registry label => bounded registry label = true) registry registry' →
      registry'.heap e = some entry' → LaterProcesses entry entry'

/-- Generations tell workers apart. -/
theorem EntryInv.one_worker (h : EntryInv entry) (hworker : worker ∈ entry.workers) :
    (entry.workers.filter fun other => other.generation = worker.generation).length = 1 := by
  have hcount : (entry.workers.map Worker.generation).count worker.generation =
      (entry.workers.filter fun other => other.generation = worker.generation).length := by
    rw [List.count_eq_countP, List.countP_map, List.countP_eq_length_filter]
    rfl
  rw [← hcount]
  exact List.count_eq_one_of_mem h.generations (List.mem_map_of_mem hworker)

/-- **Flags and workers agree** wherever no start or stop is at work on an entry. -/
theorem workers_agree
    (h : tunnels.ReachableWhen (fun registry label => orderly registry label = true) registry)
    (hentry : registry.heap e = some entry) (hidle : ¬ Pending registry.operation e) :
    Agrees registry e entry := by
  obtain ⟨hworkers, hinv⟩ := reachable_workersInv h
  have hidle : ¬ Drawn registry.operation e := fun hdrawn => hidle (pending_of_drawn hdrawn)
  have hentry_inv := hinv.entry_inv e entry hentry
  refine ⟨hentry_inv.generation_le, fun hdesired => ?_, fun hdesired registry' entry' hrun hentry' =>
    not_desired_run hinv hentry hdesired hidle hrun hentry'⟩
  obtain ⟨worker, hworker, hsame⟩ := hworkers e entry hentry hidle hdesired
  exact hsame ▸ hentry_inv.one_worker hworker

/-! ### A desired tunnel and one without its worker -/

def lab_host : HostProfile where
  schema_version := 1
  id := "host".toList
  «alias» := "lab".toList
  hostname := "lab".toList
  port := 22
  username := "user".toList
  auth_method := .Agent
  identity_file := none
  proxy_jump := none
  default_workspace := []
  groups := []
  advanced := .default
  monitor_enabled := false
  created_at := 0
  updated_at := 0

/-- A tunnel of the host whose health is checked every second. -/
def web_tunnel (source_port : UInt16) : TunnelProfile where
  schema_version := 1
  id := "web".toList
  host_id := lab_host.id
  name := "web".toList
  direction := .Local
  bind_address := "127.0.0.1".toList
  source_port := source_port
  target_host := "127.0.0.1".toList
  target_port := 80
  auto_start := false
  auto_reconnect := true
  health_check := some { kind := .Tcp, interval_seconds := 1, timeout_seconds := 1 }
  created_at := 0
  updated_at := 0

/-- A start of the tunnel that finds no stale child. -/
def start_labels (tunnel : TunnelProfile) : List Label :=
  [.start lab_host tunnel, .start_step (.found (.ok lab_host) (.ok ())) 0, .start_step .go 0,
    .start_step .go 0, .start_step .go 0, .start_step .go 0, .start_step (.spawned (.ok ())) 0]

/-- The worker of a first start. -/
def first_worker (stage : WorkerStage) : Worker where
  generation := 1
  tunnel := web_tunnel 8080
  failure_streak := 0
  stage := stage

/-- The worker gets to its first child and stores it. -/
def connect_labels : List Label :=
  [.work 0 (first_worker .starting) .go 0, .work 0 (first_worker .resolving) .resolved 0,
    .work 0 (first_worker .locking) .go 0, .work 0 (first_worker .checking) .go 0,
    .work 0 (first_worker .spawning) (.spawned (.ok ())) 0,
    .work 0 (first_worker (.publishing 0)) .go 0]

/-- A tunnel that has been started agrees with its worker. -/
theorem started_tunnel_agrees :
    ∃ (registry : TunnelRegistry) (entry : TunnelEntry), registry.heap 0 = some entry ∧
      entry.inner.desired_running = true ∧ Agrees registry 0 entry := by
  obtain ⟨registry, hreach, hp⟩ := Machine.reachable_of_replay (m := tunnels) orderly
    (fun _ _ => id) rfl (start_labels (web_tunnel 8080) ++ connect_labels)
    (fun registry => (registry.inner 0).any TunnelInner.desired_running &&
      decide (registry.operation = none)) (by decide +kernel)
  simp only [Bool.and_eq_true, decide_eq_true_eq, TunnelRegistry.inner, Option.any_map,
    Option.any_eq_true] at hp
  obtain ⟨⟨entry, hentry, hdesired⟩, hidle⟩ := hp
  exact ⟨registry, entry, hentry, hdesired, workers_agree hreach hentry (by rw [hidle]; exact id)⟩

/-- A changed tunnel is started again, its child cannot be terminated, and
    the tunnel stays desired without any worker. -/
theorem desired_without_worker :
    ∃ (registry : TunnelRegistry) (entry : TunnelEntry), tunnels.Reachable registry ∧
      registry.heap 0 = some entry ∧ registry.operation = none ∧
        entry.inner.desired_running = true ∧ entry.workers = [] := by
  obtain ⟨registry, hreach, hp⟩ := Machine.reachable_of_replay (m := tunnels) (fun _ _ => true)
    (fun _ _ _ => trivial) rfl
    (start_labels (web_tunnel 8080) ++ connect_labels ++
      [.start lab_host (web_tunnel 8081), .start_step (.found (.ok lab_host) (.ok ())) 0,
        .start_step .go 0, .start_step .go 0, .start_step .go 0,
        .start_step (.terminated (.error [])) 0,
        .work 0 (first_worker (.polling (.start (web_tunnel 8080) 0))) (.polled .running) 0,
        .work 0 (first_worker .leaving) .go 0])
    (fun registry => (registry.heap 0).any (fun entry =>
      entry.inner.desired_running && entry.workers.isEmpty) && decide (registry.operation = none))
    (by decide +kernel)
  simp only [Bool.and_eq_true, decide_eq_true_eq, Option.any_eq_true, List.isEmpty_iff] at hp
  obtain ⟨⟨entry, hentry, hdesired, hworkers⟩, hidle⟩ := hp
  exact ⟨registry, entry, hreach, hentry, hidle, hdesired, hworkers⟩

end Tunnel
