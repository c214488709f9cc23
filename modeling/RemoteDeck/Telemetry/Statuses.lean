import RemoteDeck.Telemetry.Monitors

/-! # Statuses agree with the monitors

    A worker that can still write has its handle registered, and so has a
    call of `start` until its thread runs.  What is published for a host
    then agrees with its registration whenever nobody is about to write, as
    long as a stop writes its status only when no monitor is registered.
-/

namespace Telemetry

variable {registry registry' : Monitors} {label : MonitorLabel} {id generation : Nat} {call : Call}
  {worker : Worker} {host_id : Text}

/-! ### The invariant -/

/-- The state says that a monitor runs. -/
def TelemetryRuntimeState.active : TelemetryRuntimeState → Bool
  | .Starting | .Online | .Degraded => true
  | .Stopped | .Failed => false

/-- The thread runs and has not left the registry. -/
def WorkerStage.live : WorkerStage → Bool
  | .running | .collected | .sampling | .reporting _ | .leaving => true
  | .unspawned | .exiting | .exited | .ended => false

/-- The call registered a generation whose thread does not run yet. -/
def CallStage.registers : CallStage → Option Nat
  | .inserted generation | .announced generation | .spawn_failed generation => some generation
  | _ => none

/-- The call stops a generation. -/
def CallStage.stops : CallStage → Option Nat
  | .found generation | .signalled generation => some generation
  | _ => none

/-- The call stopped a generation whose thread has ended. -/
def CallStage.outlived : CallStage → Option Nat
  | .completed generation | .cleaned generation => some generation
  | _ => none

/-- The call took a registration away and is about to publish this. -/
def CallStage.takes_away : CallStage → Bool
  | .unregistered | .removed => true
  | _ => false

/-- A worker that left the registry and is about to publish this. -/
def Worker.retires (worker : Worker) : Prop :=
  worker.stage = .exiting ∧ worker.stop = true ∧ worker.cleanup_pending = false

/-- The last published state of a host. -/
def Monitors.latest (registry : Monitors) (host_id : Text) : Option TelemetryRuntimeState :=
  (registry.published host_id).map TelemetryStatus.state

/-- A registered generation of a call of `start`. -/
structure Registered (registry : Monitors) (call : Call) (generation : Nat) : Prop where
  lookup : registry.monitors.lookup call.host_id = some generation
  worker : ∃ worker, registry.workers generation = some worker ∧ worker.host_id = call.host_id ∧
    worker.stage = .unspawned

structure MonitorInv (registry : Monitors) : Prop where
  bound : ∀ generation worker, registry.workers generation = some worker →
    generation ≤ registry.next_monitor_generation
  known : ∀ host_id generation, registry.monitors.lookup host_id = some generation →
    ∃ worker, registry.workers generation = some worker ∧ worker.host_id = host_id
  newest : ∀ host_id generation, registry.monitors.lookup host_id = some generation →
    ∀ other worker, registry.workers other = some worker → worker.host_id = host_id →
      other ≤ generation
  live : ∀ generation worker, registry.workers generation = some worker →
    worker.stage.live = true → registry.monitors.lookup worker.host_id = some generation
  exiting : ∀ generation worker, registry.workers generation = some worker →
    worker.stage = .exiting → registry.writer = some generation ∧
      (registry.monitors.lookup worker.host_id = none ∨
        registry.monitors.lookup worker.host_id = some generation ∧ worker.cleanup_pending = true)
  last : ∀ generation worker, registry.workers generation = some worker →
    worker.stage = .exiting → ∀ other found, registry.workers other = some found →
      found.host_id = worker.host_id → other ≤ generation
  leaving : ∀ generation worker, registry.workers generation = some worker →
    worker.stage = .leaving ∨ worker.stage = .exiting →
    worker.stop = true ∨ ∀ state, registry.latest worker.host_id = some state → state.active = false
  reports : ∀ generation worker state, registry.workers generation = some worker →
    worker.stage = .reporting state → state = .Failed ∨ state = .Degraded
  registers : ∀ id call generation, registry.calls id = some call →
    call.stage.registers = some generation → Registered registry call generation
  distinct : ∀ id id' call call' generation, registry.calls id = some call →
    registry.calls id' = some call' → call.stage.registers = some generation →
    call'.stage.registers = some generation → id = id'
  stops : ∀ id call generation, registry.calls id = some call →
    call.stage.stops = some generation →
    ∃ worker, registry.workers generation = some worker ∧ worker.host_id = call.host_id
  outlived : ∀ id call generation, registry.calls id = some call →
    call.stage.outlived = some generation →
    ∃ worker, registry.workers generation = some worker ∧ worker.host_id = call.host_id ∧
      worker.stage = .ended
  stopped : ∀ host_id, registry.latest host_id = some .Stopped →
    registry.monitors.lookup host_id = none ∨
      ∃ id call generation, registry.calls id = some call ∧ call.host_id = host_id ∧
        call.stage = .inserted generation
  active : ∀ host_id state, registry.latest host_id = some state → state.active = true →
    (registry.monitors.lookup host_id).isSome ∨
      (∃ id call, registry.calls id = some call ∧ call.host_id = host_id ∧
        call.stage.takes_away = true) ∨
      ∃ generation worker, registry.workers generation = some worker ∧ worker.host_id = host_id ∧
        worker.retires

theorem monitorInv_init : MonitorInv .default where
  bound _ _ h := absurd h.symm (Option.some_ne_none _)
  known _ _ h := absurd h.symm (Option.some_ne_none _)
  newest _ _ h := absurd h.symm (Option.some_ne_none _)
  live _ _ h := absurd h.symm (Option.some_ne_none _)
  last _ _ h := absurd h.symm (Option.some_ne_none _)
  exiting _ _ h := absurd h.symm (Option.some_ne_none _)
  leaving _ _ h := absurd h.symm (Option.some_ne_none _)
  reports _ _ _ h := absurd h.symm (Option.some_ne_none _)
  registers _ _ _ h := absurd h.symm (Option.some_ne_none _)
  distinct _ _ _ _ _ h := absurd h.symm (Option.some_ne_none _)
  stops _ _ _ h := absurd h.symm (Option.some_ne_none _)
  outlived _ _ _ h := absurd h.symm (Option.some_ne_none _)
  stopped _ h := absurd h.symm (Option.some_ne_none _)
  active _ _ h := absurd h.symm (Option.some_ne_none _)

/-! ### A call goes on -/

theorem calls_of_set_call {stage : CallStage} {other : Nat} {found : Call}
    (h : (registry.set_call id call stage).calls other = some found) :
    other = id ∧ found = { call with stage := stage } ∨
      other ≠ id ∧ registry.calls other = some found := by
  change Function.update registry.calls id _ other = _ at h
  by_cases hid : other = id
  · subst hid
    rw [Function.update_self, Option.some.injEq] at h
    exact .inl ⟨rfl, h.symm⟩
  · rw [Function.update_of_ne hid] at h
    exact .inr ⟨hid, h⟩

/-- What the new stage of a call has to bring along. -/
structure StageOk (registry : Monitors) (id : Nat) (call : Call) (stage : CallStage) : Prop where
  registers : ∀ generation, stage.registers = some generation →
    Registered registry call generation ∧
      ∀ other found, registry.calls other = some found → found.stage.registers = some generation →
        other = id
  stops : ∀ generation, stage.stops = some generation →
    ∃ worker, registry.workers generation = some worker ∧ worker.host_id = call.host_id
  outlived : ∀ generation, stage.outlived = some generation →
    ∃ worker, registry.workers generation = some worker ∧ worker.host_id = call.host_id ∧
      worker.stage = .ended

/-- A stage that has no generation in hand. -/
def CallStage.plain (stage : CallStage) : Bool :=
  stage.registers.isNone && stage.stops.isNone && stage.outlived.isNone

theorem stageOk_of_plain {stage : CallStage} (hplain : stage.plain = true) :
    StageOk registry id call stage := by
  obtain ⟨⟨hregisters, hstops⟩, houtlived⟩ :
      (stage.registers = none ∧ stage.stops = none) ∧ stage.outlived = none := by
    simpa [CallStage.plain] using hplain
  refine ⟨?_, ?_, ?_⟩
  · intro generation hgeneration
    rw [hregisters] at hgeneration
    exact absurd hgeneration.symm (Option.some_ne_none _)
  · intro generation hgeneration
    rw [hstops] at hgeneration
    exact absurd hgeneration.symm (Option.some_ne_none _)
  · intro generation hgeneration
    rw [houtlived] at hgeneration
    exact absurd hgeneration.symm (Option.some_ne_none _)

/-- Nobody relies on the stage that a call leaves. -/
def Leaves (registry : Monitors) (old : Call) : Prop :=
  ∀ state, registry.latest old.host_id = some state →
    ((∃ generation, old.stage = .inserted generation) → state ≠ .Stopped) ∧
      (old.stage.takes_away = true → state.active = false)

theorem MonitorInv.set_call (h : MonitorInv registry) {stage : CallStage}
    (hcall : registry.calls id = none ∨ ∃ old, registry.calls id = some old ∧ Leaves registry old)
    (hok : StageOk registry id call stage) : MonitorInv (registry.set_call id call stage) := by
  refine { h with
    registers := ?_, distinct := ?_, stops := ?_, outlived := ?_, stopped := ?_, active := ?_ }
  · intro other found generation hfound hregisters
    rcases calls_of_set_call hfound with ⟨rfl, rfl⟩ | ⟨_, hold⟩
    · obtain ⟨hlookup, hworker⟩ := (hok.registers generation hregisters).1
      exact ⟨hlookup, hworker⟩
    · obtain ⟨hlookup, hworker⟩ := h.registers other found generation hold hregisters
      exact ⟨hlookup, hworker⟩
  · intro one two left right generation hleft hright hleft_registers hright_registers
    rcases calls_of_set_call hleft with ⟨hone, rfl⟩ | ⟨_, hleft_old⟩
    · rcases calls_of_set_call hright with ⟨htwo, _⟩ | ⟨_, hright_old⟩
      · exact hone.trans htwo.symm
      · exact hone.trans
          ((hok.registers generation hleft_registers).2 two right hright_old hright_registers).symm
    · rcases calls_of_set_call hright with ⟨htwo, rfl⟩ | ⟨_, hright_old⟩
      · exact ((hok.registers generation hright_registers).2 one left hleft_old
          hleft_registers).trans htwo.symm
      · exact h.distinct one two left right generation hleft_old hright_old hleft_registers
          hright_registers
  · intro other found generation hfound hstops
    rcases calls_of_set_call hfound with ⟨rfl, rfl⟩ | ⟨_, hold⟩
    · exact hok.stops generation hstops
    · exact h.stops other found generation hold hstops
  · intro other found generation hfound houtlived
    rcases calls_of_set_call hfound with ⟨rfl, rfl⟩ | ⟨_, hold⟩
    · exact hok.outlived generation houtlived
    · exact h.outlived other found generation hold houtlived
  · intro host_id hlatest
    rcases h.stopped host_id hlatest with hnone | ⟨other, found, generation, hfound, hhost, hinserted⟩
    · exact .inl hnone
    · right
      refine ⟨other, found, generation, ?_, hhost, hinserted⟩
      by_cases hid : other = id
      · subst hid
        rcases hcall with hnone | ⟨old, hold, hleaves⟩
        · rw [hnone] at hfound
          exact absurd hfound.symm (Option.some_ne_none _)
        · rw [hold, Option.some.injEq] at hfound
          subst hfound hhost
          exact absurd rfl ((hleaves _ hlatest).1 ⟨generation, hinserted⟩)
      · exact (Function.update_of_ne hid ..).trans hfound
  · intro host_id state hlatest hactive
    rcases h.active host_id state hlatest hactive with
      hsome | ⟨other, found, hfound, hhost, htakes⟩ | hretires
    · exact .inl hsome
    · right; left
      refine ⟨other, found, ?_, hhost, htakes⟩
      by_cases hid : other = id
      · subst hid
        rcases hcall with hnone | ⟨old, hold, hleaves⟩
        · rw [hnone] at hfound
          exact absurd hfound.symm (Option.some_ne_none _)
        · rw [hold, Option.some.injEq] at hfound
          subst hfound hhost
          rw [(hleaves _ hlatest).2 htakes] at hactive
          exact absurd hactive Bool.false_ne_true
      · exact (Function.update_of_ne hid ..).trans hfound
    · exact .inr (.inr hretires)

/-- A stage that nobody relies on. -/
def CallStage.quiet : CallStage → Bool
  | .inserted _ | .unregistered | .removed => false
  | _ => true

theorem leaves_of_quiet {old : Call} (hquiet : old.stage.quiet = true) : Leaves registry old := by
  intro state _
  constructor
  · intro ⟨generation, hstage⟩
    rw [hstage] at hquiet
    exact absurd hquiet Bool.false_ne_true
  · intro htakes
    cases hstage : old.stage <;> rw [hstage] at hquiet htakes <;>
      first | exact absurd hquiet Bool.false_ne_true | exact absurd htakes Bool.false_ne_true

/-- A call goes from one stage on to another, and neither is of interest. -/
theorem MonitorInv.go_on (h : MonitorInv registry) {stage : CallStage}
    (hcall : registry.calls id = some call) (hquiet : call.stage.quiet = true)
    (hplain : stage.plain = true) : MonitorInv (registry.set_call id call stage) :=
  h.set_call (.inr ⟨call, hcall, leaves_of_quiet hquiet⟩) (stageOk_of_plain hplain)

/-! ### A worker goes on -/

theorem workers_of_set_worker {other : Nat} {found new : Worker}
    (h : (registry.set_worker generation new).workers other = some found) :
    other = generation ∧ found = new ∨ other ≠ generation ∧ registry.workers other = some found := by
  change Function.update registry.workers generation _ other = _ at h
  by_cases hid : other = generation
  · subst hid
    rw [Function.update_self, Option.some.injEq] at h
    exact .inl ⟨rfl, h.symm⟩
  · rw [Function.update_of_ne hid] at h
    exact .inr ⟨hid, h⟩

/-- What a change of a worker keeps. -/
structure WorkerOk (registry : Monitors) (generation : Nat) (old new : Worker) : Prop where
  host : new.host_id = old.host_id
  unspawned : old.stage = .unspawned → new.stage = .unspawned ∨
    ∀ id call, registry.calls id = some call → call.stage.registers ≠ some generation
  ended : old.stage = .ended → new.stage = .ended
  live : new.stage.live = true → registry.monitors.lookup old.host_id = some generation
  exiting : new.stage = .exiting → old.stage = .exiting ∧ new.cleanup_pending = old.cleanup_pending
  leaving : new.stage = .leaving ∨ new.stage = .exiting → new.stop = true ∨
    ∀ state, registry.latest old.host_id = some state → state.active = false
  reports : ∀ state, new.stage = .reporting state → state = .Failed ∨ state = .Degraded
  retires : old.retires → new.retires ∨
    ∀ state, registry.latest old.host_id = some state → state.active = false

theorem MonitorInv.set_worker (h : MonitorInv registry) {new : Worker}
    (hworker : registry.workers generation = some worker) (hok : WorkerOk registry generation worker new) :
    MonitorInv (registry.set_worker generation new) := by
  have hsome : ∀ other found, registry.workers other = some found → ∃ found',
      (registry.set_worker generation new).workers other = some found' ∧
        found'.host_id = found.host_id ∧ (found.stage = .unspawned → found'.stage = .unspawned ∨
          ∀ id call, registry.calls id = some call → call.stage.registers ≠ some other) ∧
        (found.stage = .ended → found'.stage = .ended) ∧ (found.retires → found'.retires ∨
          ∀ state, registry.latest found.host_id = some state → state.active = false) := by
    intro other found hfound
    by_cases hid : other = generation
    · subst hid
      rw [hworker, Option.some.injEq] at hfound
      subst hfound
      exact ⟨new, Function.update_self .., hok.host, hok.unspawned, hok.ended, hok.retires⟩
    · exact ⟨found, (Function.update_of_ne hid ..).trans hfound, rfl, .inl, fun h => h, .inl⟩
  have hback : ∀ other found, (registry.set_worker generation new).workers other = some found →
      ∃ old, registry.workers other = some old ∧ old.host_id = found.host_id := by
    intro other found hfound
    rcases workers_of_set_worker hfound with ⟨rfl, rfl⟩ | ⟨_, hold⟩
    · exact ⟨worker, hworker, hok.host.symm⟩
    · exact ⟨found, hold, rfl⟩
  refine { h with
    bound := ?_, known := ?_, newest := ?_, live := ?_, exiting := ?_, last := ?_, leaving := ?_,
    reports := ?_, registers := ?_, stops := ?_, outlived := ?_, active := ?_ }
  · intro other found hfound
    rcases workers_of_set_worker hfound with ⟨rfl, _⟩ | ⟨_, hold⟩
    · exact h.bound other worker hworker
    · exact h.bound other found hold
  · intro host_id other hlookup
    obtain ⟨found, hfound, hhost⟩ := h.known host_id other hlookup
    obtain ⟨found', hfound', hhost', _⟩ := hsome other found hfound
    exact ⟨found', hfound', hhost'.trans hhost⟩
  · intro host_id registered hlookup other found hfound hhost
    obtain ⟨old, hold, hsame⟩ := hback other found hfound
    exact h.newest host_id registered hlookup other old hold (hsame.trans hhost)
  · intro other found hfound hlive
    rcases workers_of_set_worker hfound with ⟨rfl, rfl⟩ | ⟨_, hold⟩
    · rw [hok.host]
      exact hok.live hlive
    · exact h.live other found hold hlive
  · intro other found hfound hexiting
    rcases workers_of_set_worker hfound with ⟨rfl, rfl⟩ | ⟨_, hold⟩
    · obtain ⟨hwas, hpending⟩ := hok.exiting hexiting
      rw [hok.host, hpending]
      exact h.exiting other worker hworker hwas
    · exact h.exiting other found hold hexiting
  · intro one found hfound hexiting other found' hfound' hhost
    obtain ⟨old', hold', hsame⟩ := hback other found' hfound'
    rcases workers_of_set_worker hfound with ⟨rfl, rfl⟩ | ⟨_, hold⟩
    · exact h.last one worker hworker (hok.exiting hexiting).1 other old' hold'
        (hsame.trans (hhost.trans hok.host))
    · exact h.last one found hold hexiting other old' hold' (hsame.trans hhost)
  · intro other found hfound hleaving
    rcases workers_of_set_worker hfound with ⟨rfl, rfl⟩ | ⟨_, hold⟩
    · rw [hok.host]
      exact hok.leaving hleaving
    · exact h.leaving other found hold hleaving
  · intro other found state hfound hreporting
    rcases workers_of_set_worker hfound with ⟨_, rfl⟩ | ⟨_, hold⟩
    · exact hok.reports state hreporting
    · exact h.reports other found state hold hreporting
  · intro other found registered hfound hregisters
    obtain ⟨hlookup, held, hheld, hhost, hunspawned⟩ :=
      h.registers other found registered hfound hregisters
    obtain ⟨held', hheld', hhost', hstays, _⟩ := hsome registered held hheld
    rcases hstays hunspawned with hunspawned' | hnobody
    · exact ⟨hlookup, held', hheld', hhost'.trans hhost, hunspawned'⟩
    · exact absurd hregisters (hnobody other found hfound)
  · intro other found stopped hfound hstops
    obtain ⟨held, hheld, hhost⟩ := h.stops other found stopped hfound hstops
    obtain ⟨held', hheld', hhost', _⟩ := hsome stopped held hheld
    exact ⟨held', hheld', hhost'.trans hhost⟩
  · intro other found stopped hfound houtlived
    obtain ⟨held, hheld, hhost, hended⟩ := h.outlived other found stopped hfound houtlived
    obtain ⟨held', hheld', hhost', _, hstays, _⟩ := hsome stopped held hheld
    exact ⟨held', hheld', hhost'.trans hhost, hstays hended⟩
  · intro host_id state hlatest hactive
    rcases h.active host_id state hlatest hactive with
      hlookup | hcall | ⟨other, found, hfound, hhost, hretires⟩
    · exact .inl hlookup
    · exact .inr (.inl hcall)
    · obtain ⟨found', hfound', hhost', _, _, hstays⟩ := hsome other found hfound
      rcases hstays hretires with hretires' | hinactive
      · exact .inr (.inr ⟨other, found', hfound', hhost'.trans hhost, hretires'⟩)
      · rw [hhost] at hinactive
        rw [hinactive state hlatest] at hactive
        exact absurd hactive Bool.false_ne_true

/-- A worker that is not gone goes on. -/
theorem MonitorInv.worker_goes_on (h : MonitorInv registry) (new : Worker)
    (hworker : registry.workers generation = some worker) (hlive : worker.stage.live = true)
    (hhost : new.host_id = worker.host_id) (hexiting : new.stage ≠ .exiting)
    (hleaving : new.stage = .leaving → new.stop = true ∨
      ∀ state, registry.latest worker.host_id = some state → state.active = false)
    (hreports : ∀ state, new.stage = .reporting state → state = .Failed ∨ state = .Degraded) :
    MonitorInv (registry.set_worker generation new) := by
  have hstage : ∀ {stage : WorkerStage}, stage.live = false → worker.stage ≠ stage := by
    intro stage hstage hsame
    rw [hsame, hstage] at hlive
    exact absurd hlive Bool.false_ne_true
  apply h.set_worker hworker
  exact {
    host := hhost
    unspawned := fun hunspawned => absurd hunspawned (hstage rfl)
    ended := fun hended => absurd hended (hstage rfl)
    live := fun _ => h.live generation worker hworker hlive
    exiting := fun hnew => absurd hnew hexiting
    leaving := fun hnew => hnew.elim hleaving fun hnew => absurd hnew hexiting
    reports := hreports
    retires := fun hretires => absurd hretires.1 (hstage rfl) }

/-- A worker that is gone goes on. -/
theorem MonitorInv.worker_ends (h : MonitorInv registry) (new : Worker)
    (hworker : registry.workers generation = some worker)
    (hold : worker.stage = .exiting ∨ worker.stage = .exited ∨ worker.stage = .ended)
    (hnew : new.stage = .exited ∨ new.stage = .ended)
    (hended : worker.stage = .ended → new.stage = .ended) (hhost : new.host_id = worker.host_id)
    (hretires : worker.retires →
      ∀ state, registry.latest worker.host_id = some state → state.active = false) :
    MonitorInv (registry.set_worker generation new) := by
  have hstage : ∀ {stage : WorkerStage}, stage ≠ .exited → stage ≠ .ended → new.stage ≠ stage := by
    intro stage hexited hended hsame
    rcases hnew with hnew | hnew
    · exact hexited (hsame.symm.trans hnew)
    · exact hended (hsame.symm.trans hnew)
  apply h.set_worker hworker
  refine {
    host := hhost, unspawned := ?_, ended := hended, live := ?_, exiting := ?_, leaving := ?_,
    reports := ?_, retires := fun h => .inr (hretires h) }
  · intro hunspawned
    rw [hunspawned] at hold
    rcases hold with hold | hold | hold <;> exact absurd hold WorkerStage.noConfusion
  · intro hlive
    rcases hnew with hnew | hnew <;> rw [hnew] at hlive <;> exact absurd hlive Bool.false_ne_true
  · intro hexiting
    exact absurd hexiting (hstage WorkerStage.noConfusion WorkerStage.noConfusion)
  · intro hleaving
    rcases hleaving with hleaving | hexiting
    · exact absurd hleaving (hstage WorkerStage.noConfusion WorkerStage.noConfusion)
    · exact absurd hexiting (hstage WorkerStage.noConfusion WorkerStage.noConfusion)
  · intro state hreporting
    exact absurd hreporting (hstage WorkerStage.noConfusion WorkerStage.noConfusion)

/-! ### A status is published -/

theorem latest_of_set_status (registry : Monitors) (host_id other : Text)
    (state : TelemetryRuntimeState) (detail : StatusDetail) :
    (registry.set_status host_id state detail).latest other =
      if other = host_id then some state else registry.latest other := by
  unfold Monitors.latest
  show (Function.update registry.published host_id _ other).map _ = _
  by_cases hid : other = host_id
  · subst hid
    rw [Function.update_self, if_pos rfl]
    rfl
  · rw [Function.update_of_ne hid, if_neg hid]

theorem MonitorInv.set_status (h : MonitorInv registry) {state : TelemetryRuntimeState}
    (detail : StatusDetail)
    (hstopped : state = .Stopped → registry.monitors.lookup host_id = none ∨
      ∃ id call generation, registry.calls id = some call ∧ call.host_id = host_id ∧
        call.stage = .inserted generation)
    (hactive : state.active = true → (registry.monitors.lookup host_id).isSome ∧
      ∀ generation worker, registry.workers generation = some worker → worker.host_id = host_id →
        worker.stage ≠ .leaving ∧ worker.stage ≠ .exiting) :
    MonitorInv (registry.set_status host_id state detail) := by
  refine { h with leaving := ?_, registers := ?_, stopped := ?_, active := ?_ }
  · intro generation worker hworker hleaving
    rcases h.leaving generation worker hworker hleaving with hstop | hinactive
    · exact .inl hstop
    · right
      intro other hlatest
      rw [latest_of_set_status] at hlatest
      split at hlatest
      · next hhost =>
        obtain rfl := Option.some.inj hlatest
        cases hstate : state.active with
        | false => rfl
        | true =>
          obtain ⟨hnot_leaving, hnot_exiting⟩ := (hactive hstate).2 generation worker hworker hhost
          rcases hleaving with hleaving | hexiting
          · exact absurd hleaving hnot_leaving
          · exact absurd hexiting hnot_exiting
      · exact hinactive other hlatest
  · intro other found generation hfound hregisters
    obtain ⟨hlookup, hworker⟩ := h.registers other found generation hfound hregisters
    exact ⟨hlookup, hworker⟩
  · intro other hlatest
    rw [latest_of_set_status] at hlatest
    split at hlatest
    · next hhost =>
      rw [hhost]
      exact hstopped (Option.some.inj hlatest)
    · exact h.stopped other hlatest
  · intro other found hlatest hfound
    rw [latest_of_set_status] at hlatest
    split at hlatest
    · next hhost =>
      obtain rfl := Option.some.inj hlatest
      left
      rw [hhost]
      exact (hactive hfound).1
    · exact h.active other found hlatest hfound

/-! ### The registry changes -/

/-- The handle of a host leaves the registry, for a call that publishes this. -/
theorem MonitorInv.erase (h : MonitorInv registry)
    (hquiet : ∀ generation worker, registry.workers generation = some worker →
      worker.host_id = host_id → worker.stage.live = false)
    (hcalls : ∀ id call generation, registry.calls id = some call →
      call.stage.registers = some generation → call.host_id ≠ host_id)
    (htakes : ∃ id call, registry.calls id = some call ∧ call.host_id = host_id ∧
      call.stage.takes_away = true) :
    MonitorInv { registry with monitors := registry.monitors.erase host_id } := by
  have hkept : ∀ {other found}, (registry.monitors.erase host_id).lookup other = some found →
      registry.monitors.lookup other = some found := by
    intro other found hlookup
    by_cases hid : other = host_id
    · rw [hid, AList.lookup_erase] at hlookup
      exact absurd hlookup.symm (Option.some_ne_none _)
    · rwa [AList.lookup_erase_ne hid] at hlookup
  have hgone : ∀ {other}, registry.monitors.lookup other = none →
      (registry.monitors.erase host_id).lookup other = none := by
    intro other hlookup
    by_cases hid : other = host_id
    · rw [hid, AList.lookup_erase]
    · rwa [AList.lookup_erase_ne hid]
  refine { h with
    known := ?_, newest := ?_, live := ?_, exiting := ?_, registers := ?_, stopped := ?_, active := ?_ }
  · intro other generation hlookup
    exact h.known other generation (hkept hlookup)
  · intro other generation hlookup
    exact h.newest other generation (hkept hlookup)
  · intro generation worker hworker hlive
    have hother : worker.host_id ≠ host_id := by
      intro hhost
      rw [hquiet generation worker hworker hhost] at hlive
      exact absurd hlive Bool.false_ne_true
    exact (AList.lookup_erase_ne hother).trans (h.live generation worker hworker hlive)
  · intro generation worker hworker hexiting
    obtain ⟨hwriter, hlookup⟩ := h.exiting generation worker hworker hexiting
    refine ⟨hwriter, ?_⟩
    rcases hlookup with hnone | ⟨hlookup, hpending⟩
    · exact .inl (hgone hnone)
    · by_cases hid : worker.host_id = host_id
      · left
        show (registry.monitors.erase host_id).lookup worker.host_id = none
        rw [hid, AList.lookup_erase]
      · exact .inr ⟨(AList.lookup_erase_ne hid).trans hlookup, hpending⟩
  · intro id call generation hcall hregisters
    obtain ⟨hlookup, hworker⟩ := h.registers id call generation hcall hregisters
    have hother := hcalls id call generation hcall hregisters
    exact ⟨(AList.lookup_erase_ne hother).trans hlookup, hworker⟩
  · intro other hlatest
    rcases h.stopped other hlatest with hnone | hinserted
    · exact .inl (hgone hnone)
    · exact .inr hinserted
  · intro other state hlatest hactive
    by_cases hid : other = host_id
    · subst hid
      exact .inr (.inl htakes)
    · rcases h.active other state hlatest hactive with hsome | hleft
      · left
        show ((registry.monitors.erase host_id).lookup other).isSome = true
        rwa [AList.lookup_erase_ne hid]
      · exact .inr hleft

/-- A worker takes the lock, and leaves the registry unless its child is still there. -/
theorem MonitorInv.leave (h : MonitorInv registry) {monitors : AList fun _ : Text => Nat}
    (hworker : registry.workers generation = some worker) (hleaving : worker.stage = .leaving)
    (hwriter : registry.writer = none)
    (hothers : ∀ other, other ≠ worker.host_id →
      monitors.lookup other = registry.monitors.lookup other)
    (hhost : if worker.cleanup_pending then monitors.lookup worker.host_id = some generation
      else monitors.lookup worker.host_id = none) :
    MonitorInv (Monitors.set_worker { registry with monitors := monitors, writer := some generation }
      generation { worker with stage := .exiting }) := by
  have hregistered : registry.monitors.lookup worker.host_id = some generation := by
    apply h.live generation worker hworker
    rw [hleaving]
    rfl
  have hkept : ∀ {other found}, monitors.lookup other = some found →
      registry.monitors.lookup other = some found := by
    intro other found hlookup
    by_cases hid : other = worker.host_id
    · subst hid
      split at hhost
      · rw [hregistered, ← hhost, hlookup]
      · rw [hhost] at hlookup
        exact absurd hlookup.symm (Option.some_ne_none _)
    · rwa [hothers other hid] at hlookup
  -- The workers are those of before, and one of them changed its stage only.
  have hback : ∀ {other found}, (Monitors.set_worker registry generation
      { worker with stage := .exiting }).workers other = some found →
      other = generation ∧ found = { worker with stage := .exiting } ∨
        other ≠ generation ∧ registry.workers other = some found :=
    fun hfound => workers_of_set_worker hfound
  have hold : ∀ {other found}, (Monitors.set_worker registry generation
      { worker with stage := .exiting }).workers other = some found →
      ∃ old, registry.workers other = some old ∧ old.host_id = found.host_id := by
    intro other found hfound
    rcases hback hfound with ⟨rfl, rfl⟩ | ⟨_, hold⟩
    · exact ⟨worker, hworker, rfl⟩
    · exact ⟨found, hold, rfl⟩
  have hsome : ∀ {other found}, registry.workers other = some found → other ≠ generation →
      (Monitors.set_worker registry generation { worker with stage := .exiting }).workers other =
        some found :=
    fun hfound hid => (Function.update_of_ne hid ..).trans hfound
  have hself : (Monitors.set_worker registry generation
      { worker with stage := .exiting }).workers generation =
      some { worker with stage := .exiting } := Function.update_self ..
  have hnone : ∀ {other found}, registry.workers other = some found → found.stage ≠ .exiting := by
    intro other found hfound hexiting
    rw [(h.exiting other found hfound hexiting).1] at hwriter
    exact absurd hwriter (Option.some_ne_none _)
  refine {
    bound := ?_, known := ?_, newest := ?_, live := ?_, exiting := ?_, last := ?_, leaving := ?_,
    reports := ?_, registers := ?_, distinct := h.distinct, stops := ?_, outlived := ?_, stopped := ?_, active := ?_ }
  · intro other found hfound
    obtain ⟨old, hold, _⟩ := hold hfound
    exact h.bound other old hold
  · intro host_id other hlookup
    obtain ⟨found, hfound, hsame⟩ := h.known host_id other (hkept hlookup)
    by_cases hid : other = generation
    · subst hid
      rw [hworker, Option.some.injEq] at hfound
      subst hfound
      exact ⟨_, hself, hsame⟩
    · exact ⟨found, hsome hfound hid, hsame⟩
  · intro host_id registered hlookup other found hfound hsame
    obtain ⟨old, hold, hold_host⟩ := hold hfound
    exact h.newest host_id registered (hkept hlookup) other old hold (hold_host.trans hsame)
  · intro other found hfound hlive
    rcases hback hfound with ⟨_, rfl⟩ | ⟨hid, hold⟩
    · exact absurd hlive Bool.false_ne_true
    · have hlookup := h.live other found hold hlive
      have hother : found.host_id ≠ worker.host_id := by
        intro hsame
        rw [hsame, hregistered, Option.some.injEq] at hlookup
        exact hid hlookup.symm
      exact (hothers found.host_id hother).trans hlookup
  · intro other found hfound hexiting
    rcases hback hfound with ⟨rfl, rfl⟩ | ⟨_, hold⟩
    · refine ⟨rfl, ?_⟩
      split at hhost
      · next hpending => exact .inr ⟨hhost, hpending⟩
      · exact .inl hhost
    · exact absurd hexiting (hnone hold)
  · intro one found hfound hexiting other found' hfound' hsame
    rcases hback hfound with ⟨rfl, rfl⟩ | ⟨_, hwas⟩
    · obtain ⟨old', hold', hold_host⟩ := hold hfound'
      exact h.newest worker.host_id one hregistered other old' hold' (hold_host.trans hsame)
    · exact absurd hexiting (hnone hwas)
  · intro other found hfound hstage
    rcases hback hfound with ⟨_, rfl⟩ | ⟨_, hwas⟩
    · exact h.leaving generation worker hworker (.inl hleaving)
    · exact h.leaving other found hwas hstage
  · intro other found state hfound hreporting
    rcases hback hfound with ⟨_, rfl⟩ | ⟨_, hwas⟩
    · exact absurd hreporting WorkerStage.noConfusion
    · exact h.reports other found state hwas hreporting
  · intro id call registered hcall hregisters
    obtain ⟨hlookup, held, hheld, hsame, hunspawned⟩ :=
      h.registers id call registered hcall hregisters
    have hid : registered ≠ generation := by
      intro hid
      rw [hid, hworker, Option.some.injEq] at hheld
      rw [← hheld, hleaving] at hunspawned
      exact absurd hunspawned WorkerStage.noConfusion
    have hother : call.host_id ≠ worker.host_id := by
      intro hsame
      rw [hsame, hregistered, Option.some.injEq] at hlookup
      exact hid hlookup.symm
    exact ⟨(hothers call.host_id hother).trans hlookup, held, hsome hheld hid, hsame, hunspawned⟩
  · intro id call stopped hcall hstops
    obtain ⟨held, hheld, hsame⟩ := h.stops id call stopped hcall hstops
    by_cases hid : stopped = generation
    · subst hid
      rw [hworker, Option.some.injEq] at hheld
      subst hheld
      exact ⟨_, hself, hsame⟩
    · exact ⟨held, hsome hheld hid, hsame⟩
  · intro id call stopped hcall houtlived
    obtain ⟨held, hheld, hsame, hended⟩ := h.outlived id call stopped hcall houtlived
    by_cases hid : stopped = generation
    · subst hid
      rw [hworker, Option.some.injEq] at hheld
      rw [← hheld, hleaving] at hended
      exact absurd hended WorkerStage.noConfusion
    · exact ⟨held, hsome hheld hid, hsame, hended⟩
  · intro host_id hlatest
    rcases h.stopped host_id hlatest with hlookup | hinserted
    · left
      by_cases hid : host_id = worker.host_id
      · rw [hid, hregistered] at hlookup
        exact absurd hlookup (Option.some_ne_none _)
      · exact (hothers host_id hid).trans hlookup
    · exact .inr hinserted
  · intro host_id state hlatest hactive
    by_cases hid : host_id = worker.host_id
    · subst hid
      split at hhost
      · left
        show (monitors.lookup worker.host_id).isSome = true
        rw [hhost]
        rfl
      · next hpending =>
        -- It was told to stop, so that it publishes its end.
        rcases h.leaving generation worker hworker (.inl hleaving) with hstop | hinactive
        · exact .inr (.inr ⟨generation, _, hself, rfl, rfl, hstop, Bool.eq_false_iff.mpr hpending⟩)
        · rw [hinactive state hlatest] at hactive
          exact absurd hactive Bool.false_ne_true
    · rcases h.active host_id state hlatest hactive with
        hlookup | hcall | ⟨other, found, hfound, _, hretires⟩
      · left
        show (monitors.lookup host_id).isSome = true
        rwa [hothers host_id hid]
      · exact .inr (.inl hcall)
      · exact absurd hretires.1 (hnone hfound)

/-- A call registers a new generation for a host that has none. -/
theorem MonitorInv.insert (h : MonitorInv registry) (hcall : registry.calls id = some call)
    (hstarting : call.stage = .starting)
    (hfree : registry.monitors.lookup call.host_id = none) (hwriter : registry.writer = none) :
    MonitorInv (Monitors.set_call
      { registry with
        monitors := registry.monitors.insert call.host_id (registry.next_monitor_generation + 1)
        next_monitor_generation := registry.next_monitor_generation + 1
        workers := Function.update registry.workers (registry.next_monitor_generation + 1)
          (some ⟨call.host_id, false, false, none, .unspawned⟩) }
      id call (.inserted (registry.next_monitor_generation + 1))) := by
  have hfresh : ∀ {other found}, registry.workers other = some found →
      other ≠ registry.next_monitor_generation + 1 := by
    intro other found hfound hother
    have := h.bound other found hfound
    omega
  have hkept : ∀ {other found}, registry.workers other = some found →
      Function.update registry.workers (registry.next_monitor_generation + 1)
        (some ⟨call.host_id, false, false, none, .unspawned⟩) other = some found :=
    fun hfound => (Function.update_of_ne (hfresh hfound) ..).trans hfound
  have hback : ∀ {other found}, Function.update registry.workers
      (registry.next_monitor_generation + 1)
        (some ⟨call.host_id, false, false, none, .unspawned⟩) other = some found →
      other = registry.next_monitor_generation + 1 ∧
          found = ⟨call.host_id, false, false, none, .unspawned⟩ ∨
        registry.workers other = some found := by
    intro other found hfound
    by_cases hother : other = registry.next_monitor_generation + 1
    · rw [hother, Function.update_self, Option.some.injEq] at hfound
      exact .inl ⟨hother, hfound.symm⟩
    · rw [Function.update_of_ne hother] at hfound
      exact .inr hfound
  have hself : Function.update registry.workers (registry.next_monitor_generation + 1)
      (some (⟨call.host_id, false, false, none, .unspawned⟩ : Worker))
      (registry.next_monitor_generation + 1) = some ⟨call.host_id, false, false, none, .unspawned⟩ :=
    Function.update_self ..
  have hnone : ∀ {other found}, registry.workers other = some found → found.stage ≠ .exiting := by
    intro other found hfound hexiting
    rw [(h.exiting other found hfound hexiting).1] at hwriter
    exact absurd hwriter (Option.some_ne_none _)
  have hlookup_ne : ∀ {other}, other ≠ call.host_id →
      (registry.monitors.insert call.host_id (registry.next_monitor_generation + 1)).lookup other =
        registry.monitors.lookup other := fun hother => AList.lookup_insert_ne hother
  have hcall_ne : ∀ {other found}, registry.calls other = some found →
      found.stage ≠ .starting → other ≠ id := by
    intro other found hfound hstage hother
    rw [hother, hcall, Option.some.injEq] at hfound
    rw [← hfound] at hstage
    exact hstage hstarting
  refine {
    bound := ?_, known := ?_, newest := ?_, live := ?_, exiting := ?_, last := ?_, leaving := ?_,
    reports := ?_, registers := ?_, distinct := ?_, stops := ?_, outlived := ?_, stopped := ?_, active := ?_ }
  · intro other found hfound
    show other ≤ registry.next_monitor_generation + 1
    rcases hback hfound with ⟨rfl, _⟩ | hold
    · exact Nat.le_refl _
    · exact Nat.le_succ_of_le (h.bound other found hold)
  · intro host_id other hlookup
    change (registry.monitors.insert ..).lookup host_id = _ at hlookup
    by_cases hid : host_id = call.host_id
    · rw [hid, AList.lookup_insert, Option.some.injEq] at hlookup
      subst hlookup
      exact ⟨_, hself, hid.symm⟩
    · rw [hlookup_ne hid] at hlookup
      obtain ⟨found, hfound, hhost⟩ := h.known host_id other hlookup
      exact ⟨found, hkept hfound, hhost⟩
  · intro host_id registered hlookup other found hfound hhost
    change (registry.monitors.insert ..).lookup host_id = _ at hlookup
    by_cases hid : host_id = call.host_id
    · rw [hid, AList.lookup_insert, Option.some.injEq] at hlookup
      rw [← hlookup]
      rcases hback hfound with ⟨rfl, _⟩ | hold
      · exact Nat.le_refl _
      · exact Nat.le_succ_of_le (h.bound other found hold)
    · rw [hlookup_ne hid] at hlookup
      rcases hback hfound with ⟨_, rfl⟩ | hold
      · exact absurd hhost.symm hid
      · exact h.newest host_id registered hlookup other found hold hhost
  · intro other found hfound hlive
    rcases hback hfound with ⟨_, rfl⟩ | hold
    · exact absurd hlive Bool.false_ne_true
    · have hlookup := h.live other found hold hlive
      have hid : found.host_id ≠ call.host_id := by
        intro hid
        rw [hid, hfree] at hlookup
        exact absurd hlookup.symm (Option.some_ne_none _)
      exact (hlookup_ne hid).trans hlookup
  · intro other found hfound hexiting
    rcases hback hfound with ⟨_, rfl⟩ | hold
    · exact absurd hexiting WorkerStage.noConfusion
    · exact absurd hexiting (hnone hold)
  · intro other found hfound hexiting
    rcases hback hfound with ⟨_, rfl⟩ | hold
    · exact absurd hexiting WorkerStage.noConfusion
    · exact absurd hexiting (hnone hold)
  · intro other found hfound hleaving
    rcases hback hfound with ⟨_, rfl⟩ | hold
    · rcases hleaving with hleaving | hexiting
      · exact absurd hleaving WorkerStage.noConfusion
      · exact absurd hexiting WorkerStage.noConfusion
    · exact h.leaving other found hold hleaving
  · intro other found state hfound hreporting
    rcases hback hfound with ⟨_, rfl⟩ | hold
    · exact absurd hreporting WorkerStage.noConfusion
    · exact h.reports other found state hold hreporting
  · intro other found generation hfound hregisters
    rcases calls_of_set_call hfound with ⟨rfl, rfl⟩ | ⟨_, hold⟩
    · obtain rfl := Option.some.inj hregisters
      exact ⟨AList.lookup_insert _, _, hself, rfl, rfl⟩
    · obtain ⟨hlookup, held, hheld, hhost, hstage⟩ :=
        h.registers other found generation hold hregisters
      have hid : found.host_id ≠ call.host_id := by
        intro hid
        rw [hid, hfree] at hlookup
        exact absurd hlookup.symm (Option.some_ne_none _)
      exact ⟨(hlookup_ne hid).trans hlookup, held, hkept hheld, hhost, hstage⟩
  · intro one two left right generation hleft hright hleft_registers hright_registers
    -- Nobody else registers the generation that is new.
    have hunknown : ∀ {other found}, registry.calls other = some found →
        found.stage.registers ≠ some (registry.next_monitor_generation + 1) := by
      intro other found hfound hregisters
      obtain ⟨_, held, hheld, _⟩ := h.registers other found _ hfound hregisters
      exact hfresh hheld rfl
    rcases calls_of_set_call hleft with ⟨hone, rfl⟩ | ⟨_, hleft_old⟩
    · obtain rfl := Option.some.inj hleft_registers
      rcases calls_of_set_call hright with ⟨htwo, _⟩ | ⟨_, hright_old⟩
      · exact hone.trans htwo.symm
      · exact absurd hright_registers (hunknown hright_old)
    · rcases calls_of_set_call hright with ⟨_, rfl⟩ | ⟨_, hright_old⟩
      · obtain rfl := Option.some.inj hright_registers
        exact absurd hleft_registers (hunknown hleft_old)
      · exact h.distinct one two left right generation hleft_old hright_old hleft_registers
          hright_registers
  · intro other found stopped hfound hstops
    rcases calls_of_set_call hfound with ⟨_, rfl⟩ | ⟨_, hold⟩
    · exact absurd hstops.symm (Option.some_ne_none _)
    · obtain ⟨held, hheld, hhost⟩ := h.stops other found stopped hold hstops
      exact ⟨held, hkept hheld, hhost⟩
  · intro other found stopped hfound houtlived
    rcases calls_of_set_call hfound with ⟨_, rfl⟩ | ⟨_, hold⟩
    · exact absurd houtlived.symm (Option.some_ne_none _)
    · obtain ⟨held, hheld, hhost⟩ := h.outlived other found stopped hold houtlived
      exact ⟨held, hkept hheld, hhost⟩
  · intro host_id hlatest
    by_cases hid : host_id = call.host_id
    · right
      exact ⟨id, _, _, Function.update_self .., hid.symm, rfl⟩
    · rcases h.stopped host_id hlatest with hnone | ⟨other, found, generation, hfound, hhost, hstage⟩
      · exact .inl ((hlookup_ne hid).trans hnone)
      · right
        have hother : other ≠ id := hcall_ne hfound (by rw [hstage]; exact CallStage.noConfusion)
        exact ⟨other, found, generation, (Function.update_of_ne hother ..).trans hfound, hhost, hstage⟩
  · intro host_id state hlatest hactive
    by_cases hid : host_id = call.host_id
    · left
      show ((registry.monitors.insert ..).lookup host_id).isSome = true
      rw [hid, AList.lookup_insert]
      rfl
    · rcases h.active host_id state hlatest hactive with
        hlookup | ⟨other, found, hfound, hhost, htakes⟩ | ⟨other, found, hfound, hhost, hretires⟩
      · left
        show ((registry.monitors.insert ..).lookup host_id).isSome = true
        rwa [hlookup_ne hid]
      · right; left
        have hother : other ≠ id := by
          apply hcall_ne hfound
          intro hstage
          rw [hstage] at htakes
          exact absurd htakes Bool.false_ne_true
        exact ⟨other, found, (Function.update_of_ne hother ..).trans hfound, hhost, htakes⟩
      · exact .inr (.inr ⟨other, found, hkept hfound, hhost, hretires⟩)

/-- The invariant says nothing about the statuses and the readers. -/
theorem MonitorInv.of_same (h : MonitorInv registry) (hmonitors : registry'.monitors = registry.monitors)
    (hnext : registry'.next_monitor_generation = registry.next_monitor_generation)
    (hworkers : registry'.workers = registry.workers)
    (hpublished : registry'.published = registry.published) (hcalls : registry'.calls = registry.calls)
    (hwriter : registry'.writer = registry.writer ∨
      ∀ generation worker, registry.workers generation = some worker → worker.stage ≠ .exiting) :
    MonitorInv registry' := by
  cases registry
  cases registry'
  dsimp only at hmonitors hnext hworkers hpublished hcalls hwriter
  subst hmonitors hnext hworkers hpublished hcalls
  refine { h with exiting := ?_, registers := ?_ }
  · intro generation worker hworker hexiting
    rcases hwriter with hsame | hnone
    · obtain ⟨hwriter, hlookup⟩ := h.exiting generation worker hworker hexiting
      exact ⟨hsame.trans hwriter, hlookup⟩
    · exact absurd hexiting (hnone generation worker hworker)
  · intro id call generation hcall hregisters
    obtain ⟨hlookup, hworker⟩ := h.registers id call generation hcall hregisters
    exact ⟨hlookup, hworker⟩

end Telemetry
