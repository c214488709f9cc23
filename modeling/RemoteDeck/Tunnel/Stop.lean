import RemoteDeck.Tunnel.Workers

/-! # What a stop leaves behind

    An entry that left the map is never desired again (`IdleInv`), and every
    live child can be traced to the one who has its handle (`Traced`).  A
    stop looks for the child in the entry only, so it misses one that a
    worker took for a termination of its own, one whose dropped handle did
    not kill it, and one of an entry that left the map (`attended`).
-/

namespace Tunnel

variable {registry registry' : TunnelRegistry} {name e child : Nat} {entry entry' : TunnelEntry}
  {worker : Worker} {label : Label} {tunnel_id : Text} {task : StopTask}

/-! ### Entries that are not desired -/

/-- No entry of the tunnel is desired. -/
def Idle (registry : TunnelRegistry) (tunnel_id : Text) : Prop :=
  ∀ e entry, registry.heap e = some entry → entry.inner.profile.id = tunnel_id →
    entry.inner.desired_running = false

/-- The stages of a stop that has marked the entry, if there is one. -/
def StopStage.marked : StopStage → Bool
  | .looking | .locking _ | .taking _ => false
  | .terminating _ _ _ _ | .settling _ _ _ _ _ | .returned _ => true

/-- What an operation knows about the map. -/
def Mapped (registry : TunnelRegistry) : Option Operation → Prop
  | none => True
  | some (.start _ tunnel stage) =>
      ∀ name, stage.target = some name → registry.entries.lookup tunnel.id = some name
  | some (.stop tasks _) =>
      ∀ task ∈ tasks,
        (∀ name, task.stage.target = some name →
          registry.entries.lookup task.tunnel_id = some name) ∧
        (task.stage.marked = true → Idle registry task.tunnel_id)

structure IdleInv (registry : TunnelRegistry) : Prop where
  retired : ∀ e entry, registry.heap e = some entry → entry.inner.retired = true →
    entry.inner.desired_running = false
  unmapped : ∀ e entry, registry.heap e = some entry →
    registry.entries.lookup entry.inner.profile.id ≠ some e → entry.inner.desired_running = false
  mapped : Mapped registry registry.operation

/-- An entry that a step makes is not desired. -/
theorem Step.heap_new (hstep : Step registry label registry') (hnew : registry.heap e = none)
    (hentry : registry'.heap e = some entry') :
    entry'.inner.desired_running = false ∧ ∀ p, entry'.alive p = false := by
  have hset : ∀ {name entry written}, registry.heap name = some entry →
      (registry.set_entry name written).heap e ≠ some entry' := by
    intro name entry written hname hwritten
    rw [heap_set_entry] at hwritten
    split at hwritten
    case isTrue he => simp [he, hname] at hnew
    case isFalse => simp [hnew] at hwritten
  have hkept : registry.heap e ≠ some entry' := by simp [hnew]
  cases hstep with
  | work h _ _ => exact absurd hentry (hset h)
  | process_line h _ => exact absurd hentry (hset h)
  | child_exits h => exact absurd hentry (hset h)
  | begins => exact absurd hentry hkept
  | @starts event now host tunnel stage registry' hop heffect =>
    cases heffect with
    | makes _ =>
      have hentry := (heap_insert_entry (retain registry) tunnel e).symm.trans hentry
      split at hentry
      · exact Option.some.inj hentry ▸ ⟨rfl, fun _ => rfl⟩
      · exact absurd hentry hkept
    | refuses => exact absurd hentry hkept
    | limited => exact absurd hentry hkept
    | finds => exact absurd hentry hkept
    | locks h _ => exact absurd hentry (hset h)
    | returns h => exact absurd hentry (hset h)
    | proceeds => exact absurd hentry hkept
    | bumps h _ => exact absurd hentry (hset h)
    | terminates h _ => exact absurd hentry (hset h)
    | fails h => exact absurd hentry (hset h)
    | requests h _ => exact absurd hentry (hset h)
    | spawns _ h _ _ => exact absurd hentry (hset h)
    | spawn_fails h _ => exact absurd hentry (hset h)
  | stops _ _ heffect =>
    cases heffect with
    | absent => exact absurd hentry hkept
    | finds => exact absurd hentry hkept
    | locks _ h _ => exact absurd hentry (hset h)
    | takes _ h _ => exact absurd hentry (hset h)
    | terminates => exact absurd hentry hkept
    | settles _ h _ => exact absurd hentry (hset h)
  | @finishes tasks after _ _ =>
    rw [finish_stop_heap] at hentry
    exact absurd hentry hkept

/-- Forgetting the retired entries keeps the others. -/
theorem lookup_retain (hlookup : registry.entries.lookup tunnel_id = some e)
    (hentry : registry.heap e = some entry) (hretired : entry.inner.retired = false) :
    (retain registry).entries.lookup tunnel_id = some e := by
  have hfold : ∀ (gone : List (Sigma fun _ : Text => Nat)) (entries : Entries),
      (∀ item ∈ gone, item.1 ≠ tunnel_id) →
        (gone.foldl (fun entries item => entries.erase item.1) entries).lookup tunnel_id =
          entries.lookup tunnel_id := by
    intro gone
    induction gone with
    | nil => exact fun _ _ => rfl
    | cons first gone ih =>
      intro entries hgone
      have hfirst := hgone first List.mem_cons_self
      refine (ih _ fun item hitem => hgone item (List.mem_cons_of_mem _ hitem)).trans ?_
      exact AList.lookup_erase_ne hfirst.symm
  refine (hfold _ _ fun item hitem hid => ?_).trans hlookup
  obtain ⟨hmem, hgone⟩ := List.mem_filter.mp hitem
  have hitem_lookup : registry.entries.lookup item.1 = some item.2 :=
    AList.mem_lookup_iff.mpr (by exact hmem)
  rw [hid, hlookup, Option.some.injEq] at hitem_lookup
  simp [TunnelRegistry.inner, ← hitem_lookup, hentry, hretired] at hgone

/-- Removing stopped tunnels keeps the others. -/
theorem lookup_remove_stopped {tasks : List StopTask}
    (hother : ∀ task ∈ tasks, task.succeeded = true → task.tunnel_id ≠ tunnel_id) :
    (remove_stopped registry tasks).entries.lookup tunnel_id = registry.entries.lookup tunnel_id := by
  have hfold : ∀ (gone : List StopTask) (registry : TunnelRegistry),
      (∀ task ∈ gone, task.tunnel_id ≠ tunnel_id) →
        (gone.foldl (fun registry task => registry.remove_entry task.tunnel_id)
          registry).entries.lookup tunnel_id = registry.entries.lookup tunnel_id := by
    intro gone
    induction gone with
    | nil => exact fun _ _ => rfl
    | cons first gone ih =>
      intro registry hgone
      have hfirst := hgone first List.mem_cons_self
      refine (ih _ fun task htask => hgone task (List.mem_cons_of_mem _ htask)).trans ?_
      exact AList.lookup_erase_ne hfirst.symm
  refine hfold _ registry fun task htask => ?_
  obtain ⟨hmem, hsucceeded⟩ := List.mem_filter.mp htask
  exact hother task hmem hsucceeded

theorem marked_of_succeeded (h : task.succeeded = true) : task.stage.marked = true := by
  unfold StopTask.succeeded at h
  cases hstage : task.stage with
  | returned => rfl
  | _ => simp [hstage, StopStage.result] at h

/-- A stop that ends forgets tunnels that are not desired only. -/
theorem lookup_finish_stop {tasks : List StopTask} {after : After}
    (hlookup : registry.entries.lookup tunnel_id = some e)
    (hgone : (finish_stop registry tasks after).entries.lookup tunnel_id ≠ some e) :
    ∃ task ∈ tasks, task.succeeded = true ∧ task.tunnel_id = tunnel_id := by
  by_contra hnone
  push Not at hnone
  have hkept : (remove_stopped registry tasks).entries.lookup tunnel_id = some e :=
    (lookup_remove_stopped hnone).trans hlookup
  apply hgone
  unfold finish_stop
  split
  · exact hlookup
  · exact hkept
  · split
    · exact hlookup
    · exact hlookup
  · split
    · exact hkept
    · exact hkept

/-- An entry that leaves the map is not desired, and no start is at work on it. -/
theorem Step.unmaps (hstep : Step registry label registry') (h : IdleInv registry)
    (hentry : registry.heap e = some entry) (hid : entry.inner.profile.id = tunnel_id)
    (hlookup : registry.entries.lookup tunnel_id = some e)
    (hgone : registry'.entries.lookup tunnel_id ≠ some e) :
    entry.inner.desired_running = false ∧ ¬ Drawn registry.operation e := by
  have hretained : (retain registry).entries.lookup tunnel_id ≠ some e →
      entry.inner.desired_running = false := by
    intro hretain
    by_cases hretired : entry.inner.retired = true
    · exact h.retired e entry hentry hretired
    · exact absurd (lookup_retain hlookup hentry (by simpa using hretired)) hretain
  cases hstep with
  | work => exact absurd hlookup hgone
  | process_line => exact absurd hlookup hgone
  | child_exits => exact absurd hlookup hgone
  | begins => exact absurd hlookup hgone
  | @starts event now host tunnel stage registry' hop heffect =>
    cases heffect with
    | limited => exact ⟨hretained hgone, by rw [hop]; exact nofun⟩
    | finds => exact ⟨hretained hgone, by rw [hop]; exact nofun⟩
    | makes hnone =>
      refine ⟨hretained fun hkept => ?_, by rw [hop]; exact nofun⟩
      have hne : tunnel_id ≠ tunnel.id := by
        rintro rfl
        simp [hnone] at hkept
      exact hgone ((AList.lookup_insert_ne hne).trans hkept)
    | refuses => exact absurd hlookup hgone
    | locks => exact absurd hlookup hgone
    | returns => exact absurd hlookup hgone
    | proceeds => exact absurd hlookup hgone
    | bumps => exact absurd hlookup hgone
    | terminates => exact absurd hlookup hgone
    | fails => exact absurd hlookup hgone
    | requests => exact absurd hlookup hgone
    | spawns => exact absurd hlookup hgone
    | spawn_fails => exact absurd hlookup hgone
  | stops _ _ heffect =>
    cases heffect <;> exact absurd hlookup hgone
  | @finishes tasks after hop _ =>
    obtain ⟨task, htask, hsucceeded, hsame⟩ := lookup_finish_stop hlookup hgone
    have hmapped : Mapped registry (some (.stop tasks after)) := hop ▸ h.mapped
    refine ⟨?_, by rw [hop]; exact id⟩
    exact (hmapped task htask).2 (marked_of_succeeded hsucceeded) e entry hentry (hid.trans hsame.symm)

/-- While no start has drawn a generation, tunnels stay as they are. -/
theorem Idle.step (h : Idle registry tunnel_id) (hstep : Step registry label registry')
    (hfollow : AllFollow registry registry') (hidle : ∀ e, ¬ Drawn registry.operation e) :
    Idle registry' tunnel_id := by
  intro e entry' hentry' hid
  cases hentry : registry.heap e with
  | none => exact (hstep.heap_new hentry hentry').1
  | some entry =>
    obtain ⟨found, hfound, hfollows⟩ := hfollow e entry hentry
    rw [hentry', Option.some.injEq] at hfound
    subst hfound
    exact hfollows.not_desired (hidle e) (h e entry hentry (hfollows.tunnel.symm.trans hid))

theorem StartEffect.mapped {host : HostProfile} {tunnel : TunnelProfile} {stage : StartStage}
    {event : StartEvent} (heffect : StartEffect registry host tunnel stage event registry')
    (h : Mapped registry (some (.start host tunnel stage))) : Mapped registry' registry'.operation := by
  cases heffect with
  | refuses => trivial
  | limited => trivial
  | finds hlookup => exact fun name hname => Option.some.inj hname ▸ hlookup
  | makes _ =>
    intro name hname
    obtain rfl := Option.some.inj hname
    exact AList.lookup_insert _
  | locks => exact h
  | returns => trivial
  | proceeds => exact h
  | @bumps _ _ _ stage _ hstage =>
    rcases hstage with ⟨rfl, _⟩ | ⟨child, rfl, _⟩
    · exact h
    · exact h
  | terminates => exact h
  | fails => trivial
  | requests => exact h
  | spawns => trivial
  | spawn_fails => trivial

/-- The entries of a tunnel that is mapped to another one are not desired. -/
theorem IdleInv.others (h : IdleInv registry) (hlookup : registry.entries.lookup tunnel_id = some name)
    (hentry : registry.heap e = some entry) (hid : entry.inner.profile.id = tunnel_id) (he : e ≠ name) :
    entry.inner.desired_running = false := by
  refine h.unmapped e entry hentry ?_
  rw [hid, hlookup]
  exact fun hsame => he (Option.some.inj hsame).symm

/-- A task that has marked its entry leaves no entry of the tunnel desired. -/
theorem StopEffect.idle {stage : StopStage} {stepped : TunnelRegistry} {tasks : List StopTask}
    {after : After} (heffect : StopEffect registry task stepped stage) (h : IdleInv registry)
    (hop : registry.operation = some (.stop tasks after)) (htask : task ∈ tasks)
    (hmarked : stage.marked = true)
    (hkept : Idle registry task.tunnel_id → Idle stepped task.tunnel_id) :
    Idle stepped task.tunnel_id := by
  have hmapped : Mapped registry (some (.stop tasks after)) := hop ▸ h.mapped
  obtain ⟨htarget, hidle⟩ := hmapped task htask
  cases heffect with
  | absent _ hlookup =>
    intro e entry hentry hid
    exact h.unmapped e entry hentry (by rw [hid, hlookup]; simp)
  | finds => exact absurd hmarked Bool.false_ne_true
  | locks => exact absurd hmarked Bool.false_ne_true
  | @takes name entry _ _ hstage hentry _ =>
    have hlookup := htarget name (by rw [hstage]; rfl)
    intro e found hfound hid
    rw [heap_set_entry] at hfound
    split at hfound
    case isTrue => exact Option.some.inj hfound ▸ rfl
    case isFalse he => exact h.others hlookup hfound hid he
  | terminates hstage _ _ => exact hkept (hidle (by rw [hstage]; rfl))
  | settles hstage _ _ => exact hkept (hidle (by rw [hstage]; rfl))

/-- The map and the target of a task that goes on. -/
theorem StopEffect.target {stage : StopStage} {stepped : TunnelRegistry}
    (heffect : StopEffect registry task stepped stage)
    (htarget : ∀ name, task.stage.target = some name →
      registry.entries.lookup task.tunnel_id = some name) :
    stepped.entries = registry.entries ∧
      ∀ name, stage.target = some name → registry.entries.lookup task.tunnel_id = some name := by
  cases heffect with
  | absent => exact ⟨rfl, nofun⟩
  | finds _ hlookup => exact ⟨rfl, fun name hname => Option.some.inj hname ▸ hlookup⟩
  | locks hstage _ _ => exact ⟨rfl, fun name hname => htarget name (by rw [hstage]; exact hname)⟩
  | @takes _ _ stage _ hstage _ hnext =>
    refine ⟨rfl, fun name hname => htarget name (Eq.trans ?_ hname)⟩
    rcases hnext with ⟨rfl, _⟩ | ⟨child, rfl, _⟩ <;> rw [hstage] <;> rfl
  | terminates hstage _ _ => exact ⟨rfl, fun name hname => htarget name (by rw [hstage]; exact hname)⟩
  | settles => exact ⟨rfl, nofun⟩

theorem finish_stop_mapped (registry : TunnelRegistry) (tasks : List StopTask) (after : After) :
    Mapped (finish_stop registry tasks after) (finish_stop registry tasks after).operation := by
  unfold finish_stop
  split
  · trivial
  · trivial
  · split
    · exact nofun
    · trivial
  · split
    · trivial
    · intro task htask
      rw [List.mem_singleton.mp htask]
      exact ⟨nofun, nofun⟩

theorem Fresh.mapped {operation : Operation} (h : Fresh operation) (registry : TunnelRegistry) :
    Mapped registry (some operation) := by
  cases h with
  | start host tunnel => exact nofun
  | stop retire ids after hnodup =>
    intro task htask
    obtain ⟨id, _, rfl⟩ := List.mem_map.mp htask
    exact ⟨nofun, nofun⟩

/-- What an operation knows of the map stays in steps that leave both. -/
theorem IdleInv.mapped_step (h : IdleInv registry) (hstep : Step registry label registry')
    (hfollow : AllFollow registry registry') (hentries : registry'.entries = registry.entries)
    (hop : registry'.operation = registry.operation) : Mapped registry' registry'.operation := by
  have hmapped := h.mapped
  rw [hop]
  cases hoperation : registry.operation with
  | none => trivial
  | some operation =>
    rw [hoperation] at hmapped
    cases operation with
    | start host tunnel stage => exact fun name hname => hentries ▸ hmapped name hname
    | stop tasks after =>
      refine fun task htask => ⟨fun name hname => hentries ▸ (hmapped task htask).1 name hname,
        fun hmarked => ((hmapped task htask).2 hmarked).step hstep hfollow fun e => ?_⟩
      rw [hoperation]
      exact id

theorem IdleInv.step (h : IdleInv registry) (hinv : RegistryInv registry)
    (hstep : Step registry label registry') (hfollow : AllFollow registry registry') :
    IdleInv registry' := by
  have hretired_start : ∀ e entry, registry.heap e = some entry → Drawn registry.operation e →
      entry.inner.retired = false ∧ registry.entries.lookup entry.inner.profile.id = some e := by
    intro e entry hentry hdrawn
    have hfits := hinv.operation
    have hmapped := h.mapped
    cases hoperation : registry.operation with
    | none => exact absurd hdrawn (by rw [hoperation]; exact id)
    | some operation =>
      rw [hoperation] at hfits hmapped hdrawn
      cases operation with
      | stop tasks after => exact hdrawn.elim
      | start host tunnel stage =>
        have hlookup := hmapped e (StartStage.target_of_drawn hdrawn)
        have hfits : StartFits registry tunnel.id stage := hfits
        cases stage with
        | terminating name child =>
          obtain rfl := Option.some.inj hdrawn
          obtain ⟨hid, _, hretired⟩ := hfits.found hentry
          exact ⟨hretired, hid ▸ hlookup⟩
        | requesting name =>
          obtain rfl := Option.some.inj hdrawn
          obtain ⟨hid, _, hretired⟩ := hfits.found hentry
          exact ⟨hretired, hid ▸ hlookup⟩
        | spawning name generation =>
          obtain rfl := Option.some.inj hdrawn
          obtain ⟨hid, _, hretired, _⟩ := hfits.found hentry
          exact ⟨hretired, hid ▸ hlookup⟩
        | _ => simp [Drawn, StartStage.drawn] at hdrawn
  refine ⟨fun e entry' hentry' hretired => ?_, fun e entry' hentry' hgone => ?_, ?_⟩
  · cases hentry : registry.heap e with
    | none => exact (hstep.heap_new hentry hentry').1
    | some entry =>
      obtain ⟨found, hfound, hfollows⟩ := hfollow e entry hentry
      rw [hentry', Option.some.injEq] at hfound
      subst hfound
      rcases hfollows.retired hretired with hretired | hdesired
      · have hidle : ¬ Drawn registry.operation e := fun hdrawn => by
          simp [(hretired_start e entry hentry hdrawn).1] at hretired
        exact hfollows.not_desired hidle (h.retired e entry hentry hretired)
      · exact hdesired
  · cases hentry : registry.heap e with
    | none => exact (hstep.heap_new hentry hentry').1
    | some entry =>
      obtain ⟨found, hfound, hfollows⟩ := hfollow e entry hentry
      rw [hentry', Option.some.injEq] at hfound
      subst hfound
      rw [hfollows.tunnel] at hgone
      by_cases hlookup : registry.entries.lookup entry.inner.profile.id = some e
      · obtain ⟨hdesired, hidle⟩ := hstep.unmaps h hentry rfl hlookup hgone
        exact hfollows.not_desired hidle hdesired
      · have hidle : ¬ Drawn registry.operation e := fun hdrawn =>
          hlookup (hretired_start e entry hentry hdrawn).2
        exact hfollows.not_desired hidle (h.unmapped e entry hentry hlookup)
  · have hkeep := h.mapped_step hstep hfollow
    have hidle_step := fun {id} (hid : Idle registry id) => hid.step hstep hfollow
    cases hstep with
    | work => exact hkeep rfl rfl
    | process_line => exact hkeep rfl rfl
    | child_exits => exact hkeep rfl rfl
    | begins _ hfresh => exact hfresh.mapped registry
    | starts hop heffect => exact heffect.mapped (hop ▸ h.mapped)
    | @stops task event now tasks after stepped stage hop htask heffect =>
      have hmapped : Mapped registry (some (.stop tasks after)) := hop ▸ h.mapped
      have hidle : ∀ e, ¬ Drawn registry.operation e := fun e => by rw [hop]; exact id
      have hkept : ∀ {id}, Idle registry id → Idle stepped id := fun hid => hidle_step hid hidle
      obtain ⟨hentries, htarget⟩ := heffect.target (hmapped task htask).1
      intro other hother
      rcases List.mem_append.mp hother with hother | hother
      · obtain ⟨hother_target, hother_idle⟩ := hmapped other (List.mem_of_mem_erase hother)
        exact ⟨fun name hname => hentries ▸ hother_target name hname,
          fun hmarked => hkept (hother_idle hmarked)⟩
      · rw [List.mem_singleton.mp hother]
        exact ⟨fun name hname => hentries ▸ htarget name hname,
          fun hmarked => heffect.idle h hop htask hmarked hkept⟩
    | finishes _ _ => exact finish_stop_mapped registry _ _

/-! ### The handles of live children -/

/-- The handle of a child is in the entry or with a worker, or it has been dropped. -/
def TunnelEntry.traces (entry : TunnelEntry) (child : Nat) : Prop :=
  entry.inner.child = some child ∨ (∃ worker ∈ entry.workers, worker.stage.held = some child) ∨
    child ∈ entry.dropped

/-- The child that a start has taken from an entry. -/
def StartStage.held : StartStage → Option (Nat × Nat)
  | .terminating name child => some (name, child)
  | _ => none

/-- The child that a stop has taken from an entry. -/
def StopStage.held : StopStage → Option (Nat × Nat)
  | .terminating name _ child _ | .settling name _ (some child) _ _ => some (name, child)
  | _ => none

/-- The operation has the handle of a child of an entry. -/
def OperationHolds (operation : Option Operation) (e child : Nat) : Prop :=
  match operation with
  | none => False
  | some (.start _ _ stage) => stage.held = some (e, child)
  | some (.stop tasks _) => ∃ task ∈ tasks, task.stage.held = some (e, child)

/-- Every live child can be traced. -/
def Traced (registry : TunnelRegistry) : Prop :=
  ∀ e entry child, registry.heap e = some entry → entry.alive child = true →
    entry.traces child ∨ OperationHolds registry.operation e child

/-- What a step of a worker does with handles: it keeps those that it does
    not move, and a child that comes to life is with the worker. -/
structure KeepsTraces (entry entry' : TunnelEntry) : Prop where
  traces : ∀ child, entry.traces child → entry'.traces child
  alive : ∀ child, entry'.alive child = true → entry.alive child = true ∨ entry'.traces child

/-- A step that does not touch the processes. -/
theorem KeepsTraces.of_traces (hprocesses : entry'.processes = entry.processes)
    (htraces : ∀ child, entry.traces child → entry'.traces child) : KeepsTraces entry entry' := by
  refine ⟨htraces, fun child halive => .inl ?_⟩
  unfold TunnelEntry.alive at halive ⊢
  rwa [hprocesses] at halive

/-- A worker goes on with the handle it has. -/
theorem traces_replaced {next : Worker}
    (hchild : ∀ c, entry.inner.child = some c → entry'.traces c)
    (hheld : ∀ c, worker.stage.held = some c → entry'.traces c)
    (hdropped : ∀ c ∈ entry.dropped, c ∈ entry'.dropped)
    (hworkers : entry'.workers = entry.workers.erase worker ++ [next]) (htraces : entry.traces child) :
    entry'.traces child := by
  rcases htraces with hin | ⟨other, hother, hother_held⟩ | hdrop
  · exact hchild child hin
  · by_cases hsame : other = worker
    · exact hheld child (hsame ▸ hother_held)
    · refine .inr (.inl ⟨other, ?_, hother_held⟩)
      rw [hworkers]
      exact List.mem_append_left _ ((List.mem_erase_of_ne hsame).mpr hother)
  · exact .inr (.inr (hdropped child hdrop))

theorem WorkEffect.keeps_traces (heffect : WorkEffect entry worker entry') :
    KeepsTraces entry entry' := by
  have hidle : worker.stage.idle → ∀ c, worker.stage.held = some c → entry'.traces c :=
    fun hidle c hheld => absurd (hidle.2.symm.trans hheld) (by simp)
  cases heffect with
  | lets_go next hcontrol _ _ =>
    refine .of_traces rfl fun c => traces_replaced (fun c hc => .inl (hcontrol.child.trans hc))
      (fun c hc => .inr (.inr ?_)) (fun c hc => List.mem_append_left _ hc) rfl
    show c ∈ entry.dropped ++ worker.stage.held.toList
    simp [hc]
  | gives_up next hworker _ hgives _ _ =>
    exact .of_traces rfl fun c => traces_replaced (fun c hc => .inl (hgives.child.trans hc))
      (hidle hworker) (fun c hc => hc) rfl
  | locks next _ hworker _ _ =>
    exact .of_traces rfl fun c => traces_replaced (fun c hc => .inl hc) (hidle hworker)
      (fun c hc => hc) rfl
  | passes next hstage _ _ _ =>
    exact .of_traces rfl fun c => traces_replaced (fun c hc => .inl hc)
      (fun c hc => by simp [hstage, WorkerStage.held] at hc) (fun c hc => hc) rfl
  | spawns next hstage _ hnext =>
    refine ⟨fun c => traces_replaced (fun c hc => .inl hc)
      (fun c hc => by simp [hstage, WorkerStage.held] at hc) (fun c hc => hc) rfl, fun c halive => ?_⟩
    have halive : (Function.update entry.processes entry.spawned
        (some ⟨true, worker.generation⟩) c).any Process.alive = true := halive
    rw [Function.update_apply] at halive
    split at halive
    case isTrue hspawned =>
      have hmem : next ∈ entry.workers.erase worker ++ [next] := by simp
      exact .inr (.inr (.inl ⟨next, hmem, by rw [hnext, hspawned]; rfl⟩))
    case isFalse => exact .inl halive
  | @publishes next child hstage _ _ _ =>
    refine .of_traces rfl fun c => traces_replaced (fun c hc => .inr (.inr ?_)) (fun c hc => .inl ?_)
      (fun c hc => List.mem_append_left _ hc) rfl
    · show c ∈ entry.dropped ++ entry.inner.child.toList
      simp [hc]
    · show some child = some c
      simpa [hstage, WorkerStage.held] using hc
  | @keeps next _ _ hheld _ _ =>
    refine .of_traces rfl fun c => traces_replaced (fun c hc => .inl hc)
      (fun c hc => .inr (.inl ⟨next, ?_, hheld.trans hc⟩)) (fun c hc => hc) rfl
    show next ∈ entry.workers.erase worker ++ [next]
    simp
  | @drops next child hworker _ hchild _ _ =>
    refine .of_traces rfl fun c => traces_replaced (fun c hc => .inr (.inr ?_)) (hidle hworker)
      (fun c hc => List.mem_append_left _ hc) rfl
    obtain rfl := Option.some.inj (hchild.symm.trans hc)
    exact List.mem_append_right _ (List.mem_singleton_self _)
  | @takes next child hworker _ hchild _ _ hheld =>
    refine .of_traces rfl fun c => traces_replaced (fun c hc => .inr (.inl ⟨next, ?_, ?_⟩))
      (hidle hworker) (fun c hc => hc) rfl
    · show next ∈ entry.workers.erase worker ++ [next]
      simp
    · exact hheld.trans (hchild.symm.trans hc)
  | @restores next child _ hheld _ hnone _ _ =>
    exact .of_traces rfl fun c => traces_replaced
      (fun c hc => absurd (hnone.symm.trans hc) (by simp))
      (fun c hc => .inl (hheld.symm.trans hc)) (fun c hc => hc) rfl
  | @leaves inner dropped hstage hinner =>
    refine .of_traces rfl fun c htraces => ?_
    rcases htraces with hin | ⟨other, hother, hheld⟩ | hdrop
    · rcases hinner with ⟨_, hcontrol, _⟩ | ⟨_, _, hdropped⟩
      · exact .inl (hcontrol.child.trans hin)
      · refine .inr (.inr (List.mem_append_right _ ?_))
        simp [hdropped, hin]
    · have hne : other ≠ worker := by
        rintro rfl
        simp [hstage, WorkerStage.held] at hheld
      exact .inr (.inl ⟨other, (List.mem_erase_of_ne hne).mpr hother, hheld⟩)
    · exact .inr (.inr (List.mem_append_left _ hdrop))

/-- A step that writes one entry. -/
theorem Traced.update (h : Traced registry) {operation : Option Operation}
    (hname : ∀ child, entry'.alive child = true →
      entry'.traces child ∨ OperationHolds operation name child)
    (hother : ∀ e child, e ≠ name → OperationHolds registry.operation e child →
      OperationHolds operation e child) :
    Traced ((registry.set_entry name entry').set_operation operation) := by
  intro e found child hfound halive
  rw [heap_set_operation, heap_set_entry] at hfound
  split at hfound
  case isTrue he =>
    subst he
    obtain rfl := Option.some.inj hfound
    exact hname child halive
  case isFalse he => exact (h e found child hfound halive).imp_right (hother e child he)

/-- A step that leaves the heap as it is. -/
theorem Traced.of_heap (h : Traced registry) (hheap : registry'.heap = registry.heap)
    (hholds : ∀ e child, OperationHolds registry.operation e child →
      OperationHolds registry'.operation e child) : Traced registry' :=
  fun e entry child hentry halive =>
    (h e entry child (hheap ▸ hentry) halive).imp_right (hholds e child)

theorem traces_of_child (htraces : entry.traces child) (hchild : entry'.inner.child = entry.inner.child)
    (hworkers : ∀ worker ∈ entry.workers, worker ∈ entry'.workers)
    (hdropped : ∀ c ∈ entry.dropped, c ∈ entry'.dropped) : entry'.traces child := by
  rcases htraces with hin | ⟨worker, hworker, hheld⟩ | hdrop
  · exact .inl (hchild.trans hin)
  · exact .inr (.inl ⟨worker, hworkers worker hworker, hheld⟩)
  · exact .inr (.inr (hdropped child hdrop))

/-- The operation takes the child of an entry. -/
theorem traces_taken {inner : TunnelInner} (htraces : entry.traces child) :
    (entry.with_inner inner).traces child ∨ entry.inner.child = some child := by
  rcases htraces with hin | hworker | hdrop
  · exact .inr hin
  · exact .inl (.inr (.inl hworker))
  · exact .inl (.inr (.inr hdrop))

theorem StartEffect.traced {host : HostProfile} {tunnel : TunnelProfile} {stage : StartStage}
    {event : StartEvent} (heffect : StartEffect registry host tunnel stage event registry')
    (h : Traced registry) (hinv : RegistryInv registry)
    (hop : registry.operation = some (.start host tunnel stage)) : Traced registry' := by
  have hfits : OperationFits registry (some (.start host tunnel stage)) := hop ▸ hinv.operation
  have hfits : StartFits registry tunnel.id stage := hfits
  have hholds : ∀ {e child}, OperationHolds registry.operation e child → stage.held = some (e, child) := by
    intro e child hholds
    rw [hop] at hholds
    exact hholds
  -- a start that holds nothing
  have hnone : stage.held = none → ∀ {e child} {P : Prop}, OperationHolds registry.operation e child → P :=
    fun hstage {_ _ _} h => absurd (hstage.symm.trans (hholds h)) (by simp)
  have htraces : stage.held = none → ∀ {e entry child}, registry.heap e = some entry →
      entry.alive child = true → entry.traces child :=
    fun hstage {e entry child} hentry halive =>
      (h e entry child hentry halive).resolve_right fun h => hnone hstage h
  cases heffect with
  | refuses => exact h.of_heap rfl fun _ _ => hnone rfl
  | limited => exact h.of_heap rfl fun _ _ => hnone rfl
  | finds => exact h.of_heap rfl fun _ _ => hnone rfl
  | makes _ =>
    intro e found child hfound halive
    have hfound := (heap_insert_entry (retain registry) tunnel e).symm.trans hfound
    split at hfound
    · obtain rfl := Option.some.inj hfound
      exact absurd halive Bool.false_ne_true
    · exact .inl (htraces rfl hfound halive)
  | @locks _ name entry hentry _ =>
    exact h.update (fun child halive => .inl (traces_of_child (htraces rfl hentry halive) rfl
      (fun _ => id) fun _ => id)) fun _ _ _ => hnone rfl
  | @returns _ name entry hentry =>
    exact h.update (fun child halive => .inl (traces_of_child (htraces rfl hentry halive) rfl
      (fun _ => id) fun _ => id)) fun _ _ _ => hnone rfl
  | proceeds => exact h.of_heap rfl fun _ _ => hnone rfl
  | @bumps _ name entry stage hentry hstage =>
    refine h.update (fun child halive => ?_) fun _ _ _ => hnone rfl
    refine (traces_taken (htraces rfl hentry halive)).imp_right fun hchild => ?_
    rcases hstage with ⟨_, hempty⟩ | ⟨taken, rfl, htaken⟩
    · simp [hempty] at hchild
    · obtain rfl := Option.some.inj (htaken.symm.trans hchild)
      exact rfl
  | @terminates _ name taken entry hentry hdead =>
    refine h.update (fun child halive => .inl ?_) fun e child he hchild => ?_
    · rcases h name entry child hentry halive with htraces | hchild
      · exact traces_of_child htraces rfl (fun _ => id) fun c => List.mem_append_left _
      · obtain ⟨_, rfl⟩ := Prod.mk.inj (Option.some.inj (hholds hchild))
        exact absurd (halive.symm.trans hdead) (by simp)
    · exact absurd (Prod.mk.inj (Option.some.inj (hholds hchild))).1.symm he
  | @fails name taken error entry hentry =>
    refine h.update (fun child halive => .inl ?_) fun e child he hchild => ?_
    · rcases h name entry child hentry halive with htraces | hchild
      · exact traces_of_child htraces rfl (fun _ => id) fun c => List.mem_append_left _
      · obtain ⟨_, rfl⟩ := Prod.mk.inj (Option.some.inj (hholds hchild))
        exact .inr (.inr (List.mem_append_right _ (List.mem_singleton_self taken)))
    · exact absurd (Prod.mk.inj (Option.some.inj (hholds hchild))).1.symm he
  | @requests _ name entry inner hentry hstarts =>
    exact h.update (fun child halive => .inl (traces_of_child (htraces rfl hentry halive)
      hstarts.child (fun _ => id) fun _ => id)) fun _ _ _ => hnone rfl
  | @spawns _ name generation entry worker hentry _ _ =>
    exact h.update (fun child halive => .inl (traces_of_child (htraces rfl hentry halive) rfl
      (fun _ => List.mem_append_left _) fun _ => id)) fun _ _ _ => hnone rfl
  | @spawn_fails _ name generation entry inner hentry hfails =>
    obtain ⟨_, _, _, hgeneration⟩ := hfits.found hentry
    exact h.update (fun child halive => .inl (traces_of_child (htraces rfl hentry halive)
      (hfails hgeneration).child (fun _ => id) fun _ => id)) fun _ _ _ => hnone rfl

theorem StopEffect.traced {tasks : List StopTask} {after : After} {stage : StopStage}
    {stepped : TunnelRegistry} (heffect : StopEffect registry task stepped stage)
    (h : Traced registry) (hinv : RegistryInv registry)
    (hop : registry.operation = some (.stop tasks after)) (htask : task ∈ tasks) :
    Traced (stepped.set_operation
      (some (.stop (tasks.erase task ++ [{ task with stage := stage }]) after))) := by
  have hfits : OperationFits registry (some (.stop tasks after)) := hop ▸ hinv.operation
  have htask_fits := hfits.2 task htask
  have hnew : ∀ {e child}, stage.held = some (e, child) →
      ∃ other ∈ tasks.erase task ++ [{ task with stage := stage }], other.stage.held = some (e, child) :=
    fun hheld => ⟨{ task with stage := stage }, by simp, hheld⟩
  -- the other tasks keep what they have
  have hkeeps : ∀ {e child}, OperationHolds registry.operation e child →
      task.stage.held = some (e, child) ∨ OperationHolds
        (some (.stop (tasks.erase task ++ [{ task with stage := stage }]) after)) e child := by
    intro e child hholds
    rw [hop] at hholds
    obtain ⟨other, hother, hheld⟩ := hholds
    by_cases hsame : other = task
    · exact .inl (hsame ▸ hheld)
    · exact .inr ⟨other, List.mem_append_left _ ((List.mem_erase_of_ne hsame).mpr hother), hheld⟩
  have hothers : task.stage.held = none → ∀ {e child}, OperationHolds registry.operation e child →
      OperationHolds (some (.stop (tasks.erase task ++ [{ task with stage := stage }]) after)) e child :=
    fun hstage {_ _} hholds => (hkeeps hholds).resolve_left (by simp [hstage])
  cases heffect with
  | absent hstage _ => exact h.of_heap rfl fun _ _ => hothers (by rw [hstage]; rfl)
  | finds hstage _ => exact h.of_heap rfl fun _ _ => hothers (by rw [hstage]; rfl)
  | @locks name entry hstage hentry _ =>
    have hothers := @hothers (by rw [hstage]; rfl)
    refine h.update (fun child halive => (h name entry child hentry halive).imp ?_ hothers)
      fun _ _ _ => hothers
    exact fun htraces => traces_of_child htraces rfl (fun _ => id) fun _ => id
  | @takes name entry stage already_stopped hstage hentry hnext =>
    have hothers := @hothers (by rw [hstage]; rfl)
    refine h.update (fun child halive => ?_) fun _ _ _ => hothers
    rcases h name entry child hentry halive with htraces | hholds
    · refine (traces_taken htraces).imp_right fun hchild => ?_
      rcases hnext with ⟨_, hempty⟩ | ⟨taken, rfl, htaken⟩
      · simp [hempty] at hchild
      · obtain rfl := Option.some.inj (htaken.symm.trans hchild)
        exact hnew rfl
    · exact .inr (hothers hholds)
  | @terminates name generation taken already_stopped entry result hstage _ _ =>
    refine h.of_heap rfl fun e child hholds => ?_
    rcases hkeeps hholds with hheld | hother
    · rw [hstage] at hheld
      exact hnew hheld
    · exact hother
  | @settles name generation held already_stopped entry termination inner hstage hentry hsettles =>
    rw [hstage] at htask_fits
    obtain ⟨_, htaken, hdesired, hgeneration⟩ := Names.found htask_fits hentry
    have hgives := hsettles hgeneration hdesired
    have htask_held : ∀ {e child}, task.stage.held = some (e, child) → e = name ∧ held = some child := by
      intro e child hheld
      rw [hstage] at hheld
      cases held with
      | none => simp [StopStage.held] at hheld
      | some taken =>
        obtain ⟨rfl, rfl⟩ := Prod.mk.inj (Option.some.inj hheld)
        exact ⟨rfl, rfl⟩
    refine h.update (fun child halive => ?_) fun e child he hholds =>
      (hkeeps hholds).resolve_left fun hheld => he (htask_held hheld).1
    rcases h name entry child hentry halive with htraces | hholds
    · rcases htraces with hin | hworker | hdrop
      · exact absurd (htaken.child.symm.trans hin) (by simp)
      · exact .inl (.inr (.inl hworker))
      · exact .inl (.inr (.inr (List.mem_append_left _ hdrop)))
    · refine (hkeeps hholds).imp_left fun hheld => ?_
      obtain ⟨_, hheld⟩ := htask_held hheld
      by_cases hkept : inner.child = held
      · exact .inl (hkept.trans hheld)
      · refine .inr (.inr (List.mem_append_right _ ?_))
        rw [if_neg hkept, hheld]
        exact List.mem_singleton_self child

theorem Traced.step (h : Traced registry) (hinv : RegistryInv registry)
    (hstep : Step registry label registry') : Traced registry' := by
  cases hstep with
  | @work name worker _ _ entry entry' hentry hworker heffect =>
    have hkeeps := heffect.keeps_traces
    refine h.update (fun child halive => ?_) fun _ _ _ => id
    rcases hkeeps.alive child halive with hold | htraces
    · exact (h name entry child hentry hold).imp_left (hkeeps.traces child)
    · exact .inl htraces
  | @process_line name _ _ _ _ entry inner hentry hcontrol =>
    exact h.update (fun child halive => (h name entry child hentry halive).imp_left fun htraces =>
      traces_of_child htraces hcontrol.child (fun _ => id) fun _ => id) fun _ _ _ => id
  | @child_exits name exited entry hentry =>
    refine h.update (fun child halive => ?_) fun _ _ _ => id
    obtain ⟨process, hprocess, hlive⟩ := (Option.any_eq_true _ _).mp halive
    obtain ⟨old, hold, _, hold_alive⟩ := child_exits_process hprocess
    have halive : entry.alive child = true := (Option.any_eq_true _ _).mpr ⟨old, hold, hold_alive hlive⟩
    exact (h name entry child hentry halive).imp_left fun htraces =>
      traces_of_child htraces rfl (fun _ => id) fun _ => id
  | begins hop _ => exact h.of_heap rfl fun e child hholds => by rw [hop] at hholds; exact hholds.elim
  | starts hop heffect => exact heffect.traced h hinv hop
  | stops hop htask heffect => exact heffect.traced h hinv hop htask
  | @finishes tasks after hop hreturned =>
    refine h.of_heap (finish_stop_heap registry tasks after) fun e child hholds => ?_
    rw [hop] at hholds
    obtain ⟨task, htask, hheld⟩ := hholds
    have hresult := hreturned task htask
    cases hstage : task.stage <;> simp_all [StopStage.held, StopStage.result]

/-! ### Children that outlive a stop -/

/-- No child of the entry is alive with a worker or after its handle was dropped. -/
def TunnelEntry.attended (entry : TunnelEntry) : Bool :=
  entry.workers.all (fun worker => worker.stage.held.all fun child => !entry.alive child) &&
    entry.dropped.all fun child => !entry.alive child

/-- No child of the tunnel is alive but one in the entry that is mapped. -/
def attended (registry : TunnelRegistry) (tunnel_id : Text) : Bool :=
  (List.range registry.made).all fun e =>
    (registry.heap e).all fun entry =>
      entry.inner.profile.id ≠ tunnel_id ||
        entry.attended &&
          (registry.entries.lookup tunnel_id = some e ||
            entry.inner.child.all fun child => !entry.alive child)

/-- A stop finds the tunnel attended where it looks for the child. -/
def stops_attended (registry : TunnelRegistry) (label : Label) : Bool :=
  bounded registry label &&
    match label with
    | .stop_step task _ _ =>
        match task.stage with
        | .looking =>
            (registry.entries.lookup task.tunnel_id).isSome || attended registry task.tunnel_id
        | .taking _ => attended registry task.tunnel_id
        | _ => true
    | _ => true

/-- What `attended` says of an entry. -/
theorem attended_child (h : attended registry tunnel_id = true) (hinv : RegistryInv registry)
    (hentry : registry.heap e = some entry) (hid : entry.inner.profile.id = tunnel_id)
    (halive : entry.alive child = true) (htraces : entry.traces child) :
    registry.entries.lookup tunnel_id = some e ∧ entry.inner.child = some child := by
  have hmade := List.all_eq_true.mp h e (List.mem_range.mpr (hinv.made e entry hentry))
  simp only [hentry, Option.all_some, hid, ne_eq, not_true_eq_false, decide_false, Bool.false_or,
    Bool.and_eq_true, Bool.or_eq_true, decide_eq_true_eq] at hmade
  obtain ⟨hattended, hmapped⟩ := hmade
  obtain ⟨hworkers, hdropped⟩ := Bool.and_eq_true_iff.mp hattended
  rcases htraces with hin | ⟨worker, hworker, hheld⟩ | hdrop
  · exact ⟨hmapped.resolve_right (by simp [hin, halive]), hin⟩
  · have hdead := List.all_eq_true.mp hworkers worker hworker
    simp [hheld, halive] at hdead
  · have hdead := List.all_eq_true.mp hdropped child hdrop
    simp [halive] at hdead

/-- The children of its tunnel that may be alive at a stage of a stop. -/
def StopStage.spares (stage : StopStage) (e child : Nat) : Prop :=
  match stage with
  | .terminating name _ taken _ => e = name ∧ child = taken
  | .settling _ _ _ _ (.ok ()) | .returned (.ok ()) => False
  | _ => True

/-- A stop that has taken the child leaves no other one of the tunnel alive. -/
def Spared (registry : TunnelRegistry) : Prop :=
  ∀ tasks after task, registry.operation = some (.stop tasks after) → task ∈ tasks →
    ∀ e entry child, registry.heap e = some entry → entry.inner.profile.id = task.tunnel_id →
      entry.alive child = true → task.stage.spares e child

/-- A child that is alive after a step of an idle tunnel was alive before it. -/
theorem alive_before (hidle : Idle registry tunnel_id) (hstep : Step registry label registry')
    (hfollow : AllFollow registry registry') (hentry' : registry'.heap e = some entry')
    (hid : entry'.inner.profile.id = tunnel_id) (halive : entry'.alive child = true) :
    ∃ entry, registry.heap e = some entry ∧ entry.inner.profile.id = tunnel_id ∧
      entry.alive child = true := by
  cases hentry : registry.heap e with
  | none => exact absurd ((hstep.heap_new hentry hentry').2 child) (by simp [halive])
  | some entry =>
    obtain ⟨found, hfound, hfollows⟩ := hfollow e entry hentry
    rw [hentry', Option.some.injEq] at hfound
    subst hfound
    have hid := hfollows.tunnel.symm.trans hid
    obtain ⟨process, hprocess, hlive⟩ := (Option.any_eq_true _ _).mp halive
    rcases hfollows.processes child process hprocess with ⟨old, hold, _, hold_alive⟩ | hcurrent
    · exact ⟨entry, rfl, hid, (Option.any_eq_true _ _).mpr ⟨old, hold, hold_alive hlive⟩⟩
    · have hrunning := (is_current_locked_iff.mp hcurrent).2
      simp [hidle e entry hentry hid] at hrunning

/-- Only tasks that have marked their entries say what may be alive. -/
theorem StopStage.spares_of_not_marked {stage : StopStage} (h : stage.marked = false) :
    stage.spares e child := by
  cases stage with
  | looking => trivial
  | locking => trivial
  | taking => trivial
  | terminating => exact absurd h (by simp [StopStage.marked])
  | settling => exact absurd h (by simp [StopStage.marked])
  | returned => exact absurd h (by simp [StopStage.marked])

/-- Tasks of one operation stop different tunnels, so a child of an entry is
    held by the task of its tunnel. -/
theorem held_by_task (hinv : RegistryInv registry) {tasks : List StopTask} {after : After}
    (hop : registry.operation = some (.stop tasks after)) (htask : task ∈ tasks)
    (hentry : registry.heap e = some entry) (hid : entry.inner.profile.id = task.tunnel_id)
    (hholds : OperationHolds registry.operation e child) : task.stage.held = some (e, child) := by
  have hfits : OperationFits registry (some (.stop tasks after)) := hop ▸ hinv.operation
  rw [hop] at hholds
  obtain ⟨other, hother, hheld⟩ := hholds
  have hother_id : entry.inner.profile.id = other.tunnel_id := by
    have hother_fits := hfits.2 other hother
    cases hstage : other.stage with
    | terminating name generation taken already_stopped =>
      rw [hstage] at hheld hother_fits
      obtain ⟨rfl, _⟩ := Prod.mk.inj (Option.some.inj hheld)
      exact (Names.found hother_fits hentry).1
    | settling name generation taken already_stopped termination =>
      rw [hstage] at hheld hother_fits
      cases taken with
      | none => simp [StopStage.held] at hheld
      | some taken =>
        obtain ⟨rfl, _⟩ := Prod.mk.inj (Option.some.inj hheld)
        exact (Names.found hother_fits hentry).1
    | _ => simp [hstage, StopStage.held] at hheld
  have hsame := List.inj_on_of_nodup_map hfits.1 hother htask (hother_id.symm.trans hid)
  exact hsame ▸ hheld

/-- What a step of a task leaves alive. -/
theorem StopEffect.spares {stage : StopStage} {stepped : TunnelRegistry} {tasks : List StopTask}
    {after : After} (heffect : StopEffect registry task stepped stage) (h : Spared registry)
    (hinv : RegistryInv registry) (hidle : IdleInv registry) (htraced : Traced registry)
    (hop : registry.operation = some (.stop tasks after)) (htask : task ∈ tasks)
    (hlooking : task.stage = .looking → registry.entries.lookup task.tunnel_id = none →
      attended registry task.tunnel_id = true)
    (htaking : ∀ name, task.stage = .taking name → attended registry task.tunnel_id = true)
    (hentry : registry.heap e = some entry) (hid : entry.inner.profile.id = task.tunnel_id)
    (halive : entry.alive child = true) : stage.spares e child := by
  have hmapped : Mapped registry (some (.stop tasks after)) := hop ▸ hidle.mapped
  have hspared := h tasks after task hop htask e entry child hentry hid halive
  -- nothing is with the task before it takes the child
  have hin : task.stage.held = none → attended registry task.tunnel_id = true →
      registry.entries.lookup task.tunnel_id = some e ∧ entry.inner.child = some child := by
    intro hnone hattended
    have htraces := (htraced e entry child hentry halive).resolve_right fun hholds =>
      absurd (held_by_task hinv hop htask hentry hid hholds) (by simp [hnone])
    exact attended_child hattended hinv hentry hid halive htraces
  cases heffect with
  | absent hstage hlookup =>
    have hchild := hin (by rw [hstage]; rfl) (hlooking hstage hlookup)
    simp [hlookup] at hchild
  | finds => trivial
  | locks => trivial
  | @takes name found stage already_stopped hstage hfound hnext =>
    obtain ⟨hlookup, hchild⟩ := hin (by rw [hstage]; rfl) (htaking name hstage)
    have hname := (hmapped task htask).1 name (by rw [hstage]; rfl)
    obtain rfl := Option.some.inj (hname.symm.trans hlookup)
    rw [hentry, Option.some.injEq] at hfound
    subst hfound
    rcases hnext with ⟨_, hempty⟩ | ⟨taken, rfl, htaken⟩
    · simp [hempty] at hchild
    · exact ⟨rfl, Option.some.inj (hchild.symm.trans htaken)⟩
  | @terminates name generation taken already_stopped found result hstage hfound hdead =>
    rw [hstage] at hspared
    obtain ⟨rfl, rfl⟩ := hspared
    rw [hentry, Option.some.injEq] at hfound
    subst hfound
    cases result with
    | error => trivial
    | ok => exact absurd (halive.symm.trans (hdead rfl)) (by simp)
  | @settles name generation taken already_stopped found termination inner hstage _ _ =>
    rw [hstage] at hspared
    cases termination with
    | error => trivial
    | ok => exact hspared

/-- A step of a task does not touch processes. -/
theorem StopEffect.alive {stage : StopStage} {stepped : TunnelRegistry} {tasks : List StopTask}
    {after : After} (heffect : StopEffect registry task stepped stage) (hinv : RegistryInv registry)
    (hop : registry.operation = some (.stop tasks after)) (htask : task ∈ tasks)
    (hentry' : stepped.heap e = some entry') (halive : entry'.alive child = true) :
    ∃ entry, registry.heap e = some entry ∧ entry'.inner.profile.id = entry.inner.profile.id ∧
      entry.alive child = true := by
  have hfits : OperationFits registry (some (.stop tasks after)) := hop ▸ hinv.operation
  have htask_fits := hfits.2 task htask
  have hset : ∀ {name entry written}, registry.heap name = some entry →
      (registry.set_entry name written).heap e = some entry' → written.processes = entry.processes →
        written.inner.profile.id = entry.inner.profile.id →
          ∃ entry, registry.heap e = some entry ∧
            entry'.inner.profile.id = entry.inner.profile.id ∧ entry.alive child = true := by
    intro name entry written hentry hwritten hprocesses hid
    rw [heap_set_entry] at hwritten
    split at hwritten
    case isTrue he =>
      obtain rfl := Option.some.inj hwritten
      refine ⟨entry, he ▸ hentry, hid, ?_⟩
      unfold TunnelEntry.alive at halive ⊢
      rwa [hprocesses] at halive
    case isFalse => exact ⟨entry', hwritten, rfl, halive⟩
  cases heffect with
  | absent => exact ⟨entry', hentry', rfl, halive⟩
  | finds => exact ⟨entry', hentry', rfl, halive⟩
  | locks _ hentry _ => exact hset hentry hentry' rfl rfl
  | takes _ hentry _ => exact hset hentry hentry' rfl rfl
  | terminates => exact ⟨entry', hentry', rfl, halive⟩
  | settles hstage hentry hsettles =>
    rw [hstage] at htask_fits
    obtain ⟨_, _, hdesired, hgeneration⟩ := Names.found htask_fits hentry
    exact hset hentry hentry' rfl (hsettles hgeneration hdesired).tunnel

theorem spared_of_fresh {operation : Option Operation}
    (hfresh : ∀ tasks after, operation = some (.stop tasks after) →
      ∀ task ∈ tasks, task.stage.marked = false) :
    Spared (registry.set_operation operation) := by
  intro tasks after task hop htask e entry child _ _ _
  exact StopStage.spares_of_not_marked (hfresh tasks after hop task htask)

theorem spared_none (registry : TunnelRegistry) : Spared (registry.set_operation none) :=
  spared_of_fresh (by simp)

theorem spared_start (registry : TunnelRegistry) (host : HostProfile) (tunnel : TunnelProfile)
    (stage : StartStage) : Spared (registry.set_operation (some (.start host tunnel stage))) :=
  spared_of_fresh (by simp)

theorem finish_stop_spared (registry : TunnelRegistry) (tasks : List StopTask) (after : After) :
    Spared (finish_stop registry tasks after) := by
  unfold finish_stop
  split
  · exact spared_none registry
  · exact spared_none _
  · split
    · exact spared_start _ _ _ _
    · exact spared_none registry
  · split
    · exact spared_none _
    · refine spared_of_fresh fun tasks after hop task htask => ?_
      simp only [Option.some.injEq, Operation.stop.injEq] at hop
      rw [← hop.1] at htask
      rw [List.mem_singleton.mp htask]
      rfl

theorem StartEffect.spared {host : HostProfile} {tunnel : TunnelProfile} {stage : StartStage}
    {event : StartEvent} (heffect : StartEffect registry host tunnel stage event registry') :
    Spared registry' := by
  cases heffect with
  | refuses => exact spared_none _
  | limited => exact spared_none _
  | returns => exact spared_none _
  | fails => exact spared_none _
  | spawns => exact spared_none _
  | spawn_fails => exact spared_none _
  | finds => exact spared_start _ _ _ _
  | makes => exact spared_start _ _ _ _
  | locks => exact spared_start _ _ _ _
  | proceeds => exact spared_start _ _ _ _
  | bumps => exact spared_start _ _ _ _
  | terminates => exact spared_start _ _ _ _
  | requests => exact spared_start _ _ _ _

/-- A step of another one than the tasks of a stop. -/
theorem Spared.keeps (h : Spared registry) (hidle : IdleInv registry)
    (hstep : Step registry label registry') (hfollow : AllFollow registry registry')
    (hop : registry'.operation = registry.operation) : Spared registry' := by
  intro tasks after task hop' htask e entry' child hentry' hid halive
  rw [hop] at hop'
  have hmapped : Mapped registry (some (.stop tasks after)) := hop' ▸ hidle.mapped
  cases hmarked : task.stage.marked with
  | false => exact StopStage.spares_of_not_marked hmarked
  | true =>
    obtain ⟨entry, hentry, hid, halive⟩ :=
      alive_before ((hmapped task htask).2 hmarked) hstep hfollow hentry' hid halive
    exact h tasks after task hop' htask e entry child hentry hid halive

theorem Spared.step (h : Spared registry) (hinv : RegistryInv registry) (hidle : IdleInv registry)
    (htraced : Traced registry) (hstep : Step registry label registry')
    (hattended : stops_attended registry label = true) : Spared registry' := by
  obtain ⟨hbounded, hattended⟩ := Bool.and_eq_true_iff.mp hattended
  have hkeeps := h.keeps hidle hstep (hstep.follows hinv hbounded)
  cases hstep with
  | work => exact hkeeps rfl
  | process_line => exact hkeeps rfl
  | child_exits => exact hkeeps rfl
  | begins _ hfresh =>
    refine spared_of_fresh fun tasks after hop task htask => ?_
    cases hfresh with
    | start => simp at hop
    | stop retire ids _ _ =>
      simp only [Option.some.injEq, Operation.stop.injEq] at hop
      rw [← hop.1] at htask
      obtain ⟨id, _, rfl⟩ := List.mem_map.mp htask
      rfl
  | starts _ heffect => exact heffect.spared
  | @stops task event now tasks after stepped stage hop htask heffect =>
    have hlooking : task.stage = .looking → registry.entries.lookup task.tunnel_id = none →
        attended registry task.tunnel_id = true := by
      intro hstage hlookup
      simpa [hstage, hlookup] using hattended
    have htaking : ∀ name, task.stage = .taking name → attended registry task.tunnel_id = true := by
      intro name hstage
      simpa [hstage] using hattended
    intro tasks' after' other hop' hother e entry' child hentry' hid halive
    obtain ⟨entry, hentry, hid', halive⟩ := heffect.alive hinv hop htask hentry' halive
    rw [hid'] at hid
    simp only [operation_set_operation, Option.some.injEq, Operation.stop.injEq] at hop'
    rw [← hop'.1] at hother
    rcases List.mem_append.mp hother with hother | hother
    · exact h tasks after other hop (List.mem_of_mem_erase hother) e entry child hentry hid halive
    · rw [List.mem_singleton.mp hother] at hid ⊢
      exact heffect.spares h hinv hidle htraced hop htask hlooking htaking hentry hid halive
  | finishes => exact finish_stop_spared registry _ _

/-- All that is known of a registry whose stops find their tunnels attended. -/
structure StopInv (registry : TunnelRegistry) : Prop where
  registry_inv : RegistryInv registry
  idle : IdleInv registry
  traced : Traced registry
  spared : Spared registry

theorem reachable_stopInv
    (h : tunnels.ReachableWhen (fun registry label => stops_attended registry label = true) registry) :
    StopInv registry := by
  induction h with
  | init hinit =>
    obtain rfl := hinit
    refine ⟨registryInv_default, ⟨?_, ?_, trivial⟩, ?_, ?_⟩
    · simp [TunnelRegistry.default]
    · simp [TunnelRegistry.default]
    · simp [Traced, TunnelRegistry.default]
    · simp [Spared, TunnelRegistry.default]
  | step _ hattended hnext ih =>
    have hstep := next_step hnext
    have hbounded := (Bool.and_eq_true_iff.mp hattended).1
    exact ⟨ih.registry_inv.step hbounded hstep,
      ih.idle.step ih.registry_inv hstep (hstep.follows ih.registry_inv hbounded),
      ih.traced.step ih.registry_inv hstep,
      ih.spared.step ih.registry_inv ih.idle ih.traced hstep hattended⟩

/-- **Stopping**: when a stop returns without an error, no child of the tunnel
    is alive, and in every later run the live ones are of later generations. -/
theorem stop_stops
    (h : tunnels.ReachableWhen (fun registry label => stops_attended registry label = true) registry)
    {tasks : List StopTask} {after : After} (hop : registry.operation = some (.stop tasks after))
    (htask : task ∈ tasks) (hreturned : task.stage = .returned (.ok ()))
    (hentry : registry.heap e = some entry) (hid : entry.inner.profile.id = task.tunnel_id) :
    (∀ child, entry.alive child = false) ∧
      (∀ worker ∈ entry.workers, worker.generation ≤ entry.inner.generation) ∧
      ∀ registry' entry',
        tunnels.StepsWhen (fun registry label => bounded registry label = true) registry registry' →
          registry'.heap e = some entry' → ∀ child process, entry'.processes child = some process →
            process.alive = true → entry.inner.generation < process.generation := by
  have hinv := reachable_stopInv h
  have hmapped : Mapped registry (some (.stop tasks after)) := hop ▸ hinv.idle.mapped
  have hdead : ∀ child, entry.alive child = false := by
    intro child
    by_contra halive
    have hspared := hinv.spared tasks after task hop htask e entry child hentry hid (by simpa using halive)
    rw [hreturned] at hspared
    exact hspared
  have hdesired := (hmapped task htask).2 (by rw [hreturned]; rfl) e entry hentry hid
  have hidle : ¬ Drawn registry.operation e := by rw [hop]; exact id
  refine ⟨hdead, (hinv.registry_inv.entry_inv e entry hentry).generation_le,
    fun registry' entry' hrun hentry' child process hprocess halive => ?_⟩
  rcases not_desired_run hinv.registry_inv hentry hdesired hidle hrun hentry' child process hprocess
    with ⟨old, hold, _, hold_alive⟩ | hlater
  · have hlive : entry.alive child = true := (Option.any_eq_true _ _).mpr ⟨old, hold, hold_alive halive⟩
    exact absurd (hlive.symm.trans (hdead child)) (by simp)
  · exact hlater

/-! ### A stop that stops and one that does not -/

/-- A stop of the tunnel that finds the child in the entry. -/
def web_stop (stage : StopStage) : StopTask where
  tunnel_id := (web_tunnel 8080).id
  retire := false
  stage := stage

/-- The stop of a connected tunnel. -/
theorem connected_tunnel_stops :
    ∃ (registry : TunnelRegistry) (entry : TunnelEntry), registry.heap 0 = some entry ∧
      entry.spawned = 1 ∧ ∀ child, entry.alive child = false := by
  obtain ⟨registry, hreach, hp⟩ := Machine.reachable_of_replay (m := tunnels) stops_attended
    (fun _ _ => id) rfl
    (start_labels (web_tunnel 8080) ++ connect_labels ++
      [.stop (web_tunnel 8080).id, .stop_step (web_stop .looking) .go 0,
        .stop_step (web_stop (.locking 0)) .go 0, .stop_step (web_stop (.taking 0)) .go 0,
        .child_exits 0 0, .stop_step (web_stop (.terminating 0 2 0 false)) (.terminated (.ok ())) 0,
        .stop_step (web_stop (.settling 0 2 (some 0) false (.ok ()))) .go 0])
    (fun registry : TunnelRegistry => decide (registry.operation =
        some (.stop [web_stop (.returned (.ok ()))] .nothing)) &&
      (registry.heap 0).any fun entry : TunnelEntry =>
        decide (entry.spawned = 1) && decide (entry.inner.profile.id = (web_tunnel 8080).id))
    (by decide +kernel)
  simp only [Bool.and_eq_true, decide_eq_true_eq, Option.any_eq_true] at hp
  obtain ⟨hop, entry, hentry, hspawned, hid⟩ := hp
  exact ⟨registry, entry, hentry, hspawned,
    (stop_stops hreach hop (List.mem_singleton_self _) rfl hentry hid).1⟩

/-- The attempt of a connection whose health checks fail each second. -/
def unhealthy (failures second : Nat) : Attempt where
  started := 0
  announced_running := true
  consecutive_health_failures := failures
  next_health_check := 1000 * (failures + 1)
  next_uptime_event := 1000 * second

def unhealthy_message : Text := "TCP health check failed (3/3): ".toList

/-- The worker gives up on its connection and takes the child. -/
def unhealthy_labels : List Label :=
  [.work 0 (first_worker (.polling (.start (web_tunnel 8080) 0))) (.polled .running) 1000,
    .work 0 (first_worker (.announcing (.start (web_tunnel 8080) 0))) .go 1000,
    .work 0 (first_worker (.probing (unhealthy 0 1))) (.probed (.error [])) 1000,
    .work 0 (first_worker (.reporting (unhealthy 1 1))) .go 1000,
    .work 0 (first_worker (.polling (unhealthy 1 2))) (.polled .running) 2000,
    .work 0 (first_worker (.announcing (unhealthy 1 2))) .go 2000,
    .work 0 (first_worker (.probing (unhealthy 1 2))) (.probed (.error [])) 2000,
    .work 0 (first_worker (.reporting (unhealthy 2 2))) .go 2000,
    .work 0 (first_worker (.polling (unhealthy 2 3))) (.polled .running) 3000,
    .work 0 (first_worker (.announcing (unhealthy 2 3))) .go 3000,
    .work 0 (first_worker (.probing (unhealthy 2 3))) (.probed (.error [])) 3000,
    .work 0 (first_worker (.taking (unhealthy 3 3) unhealthy_message)) .go 3000]

/-- A stop that comes while the worker terminates an unhealthy child finds no
    child in the entry and returns, with the child alive. -/
theorem stop_misses_child :
    ∃ (registry : TunnelRegistry) (entry : TunnelEntry), tunnels.Reachable registry ∧
      registry.operation = some (.stop [web_stop (.returned (.ok ()))] .nothing) ∧
        registry.heap 0 = some entry ∧ entry.inner.profile.id = (web_tunnel 8080).id ∧
          entry.alive 0 = true := by
  obtain ⟨registry, hreach, hp⟩ := Machine.reachable_of_replay (m := tunnels) (fun _ _ => true)
    (fun _ _ _ => trivial) rfl
    (start_labels (web_tunnel 8080) ++ connect_labels ++ unhealthy_labels ++
      [.stop (web_tunnel 8080).id, .stop_step (web_stop .looking) .go 0,
        .stop_step (web_stop (.locking 0)) .go 0, .stop_step (web_stop (.taking 0)) .go 0,
        .stop_step (web_stop (.settling 0 2 none false (.ok ()))) .go 0])
    (fun registry : TunnelRegistry => decide (registry.operation =
        some (.stop [web_stop (.returned (.ok ()))] .nothing)) &&
      (registry.heap 0).any fun entry : TunnelEntry =>
        entry.alive 0 && decide (entry.inner.profile.id = (web_tunnel 8080).id))
    (by decide +kernel)
  simp only [Bool.and_eq_true, decide_eq_true_eq, Option.any_eq_true] at hp
  obtain ⟨hop, entry, hentry, halive, hid⟩ := hp
  exact ⟨registry, entry, hreach, hop, hentry, hid, halive⟩

end Tunnel
