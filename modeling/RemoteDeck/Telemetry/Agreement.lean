import RemoteDeck.Telemetry.Statuses

/-! # Every step keeps the agreement

    Each writer of a status speaks for the registration of its host: a
    start registered the host before it writes, a worker that runs is still
    registered, and a worker that leaves writes under the lock.  A stop
    writes after it has released the lock, and this is the one write that
    has to find no newer monitor.
-/

namespace Telemetry

variable {registry registry' : Monitors} {label : MonitorLabel} {id generation : Nat} {call : Call}
  {worker : Worker} {host_id : Text}

/-! ### Who a running worker excludes -/

/-- While a generation is registered and has not left, no other worker of its host leaves. -/
theorem MonitorInv.nobody_leaves (h : MonitorInv registry)
    (hlookup : registry.monitors.lookup host_id = some generation)
    (hworker : registry.workers generation = some worker)
    (hstage : worker.stage ≠ .leaving ∧ worker.stage ≠ .exiting) (other : Nat) (found : Worker)
    (hfound : registry.workers other = some found) (hhost : found.host_id = host_id) :
    found.stage ≠ .leaving ∧ found.stage ≠ .exiting := by
  -- Another one would be registered too.
  have hother : registry.monitors.lookup found.host_id = some other → found = worker := by
    intro hregistered
    rw [hhost, hlookup, Option.some.injEq] at hregistered
    rw [← hregistered, hworker, Option.some.injEq] at hfound
    exact hfound.symm
  constructor
  · intro hleaving
    have hsame := hother (h.live other found hfound (by rw [hleaving]; rfl))
    exact hstage.1 (hsame ▸ hleaving)
  · intro hexiting
    rcases (h.exiting other found hfound hexiting).2 with hnone | ⟨hregistered, _⟩
    · rw [hhost, hlookup] at hnone
      exact absurd hnone (Option.some_ne_none _)
    · have hsame := hother hregistered
      exact hstage.2 (hsame ▸ hexiting)

/-- A running worker publishes a state of its monitor. -/
theorem MonitorInv.worker_reports (h : MonitorInv registry)
    (hworker : registry.workers generation = some worker) (hlive : worker.stage.live = true)
    (hleaving : worker.stage ≠ .leaving) {state : TelemetryRuntimeState} (detail : StatusDetail)
    (hstate : state ≠ .Stopped) : MonitorInv (registry.set_status worker.host_id state detail) := by
  have hlookup := h.live generation worker hworker hlive
  apply h.set_status detail
  · intro hstopped
    exact absurd hstopped hstate
  · intro _
    constructor
    · rw [hlookup]
      rfl
    · apply h.nobody_leaves hlookup hworker
      refine ⟨hleaving, ?_⟩
      intro hexiting
      rw [hexiting] at hlive
      exact absurd hlive Bool.false_ne_true

/-! ### Steps of a call -/

/-- What a stop finds when it publishes its status: no monitor of its host,
    or one whose start has not published anything yet. -/
def StopIsCurrent (registry : Monitors) (call : Call) : Prop :=
  ∀ generation, registry.monitors.lookup call.host_id = some generation →
    ∃ id starting, registry.calls id = some starting ∧ starting.host_id = call.host_id ∧
      starting.stage = .inserted generation

/-- The generation of a call whose thread does not run yet is still registered by it alone. -/
theorem MonitorInv.stageOk_of_registers (h : MonitorInv registry) {stage : CallStage}
    (hcall : registry.calls id = some call) (hstage : call.stage.registers = some generation)
    (hnew : stage.registers = some generation) (hstops : stage.stops = none)
    (houtlived : stage.outlived = none) : StageOk registry id call stage where
  registers other hregisters := by
    rw [hnew, Option.some.injEq] at hregisters
    subst hregisters
    refine ⟨h.registers id call generation hcall hstage, ?_⟩
    intro one found hfound hregisters
    exact h.distinct one id found call generation hfound hcall hregisters hstage
  stops other hother := by
    rw [hstops] at hother
    exact absurd hother.symm (Option.some_ne_none _)
  outlived other hother := by
    rw [houtlived] at hother
    exact absurd hother.symm (Option.some_ne_none _)

theorem MonitorInv.announce (h : MonitorInv registry) (hcall : registry.calls id = some call)
    (hstage : call.stage = .inserted generation) :
    MonitorInv ((registry.set_status call.host_id .Starting ⟨none, none⟩).set_call id call
      (.announced generation)) := by
  obtain ⟨hlookup, held, hheld, _, hunspawned⟩ :=
    h.registers id call generation hcall (by rw [hstage]; rfl)
  have hpublished : MonitorInv (registry.set_status call.host_id .Starting ⟨none, none⟩) := by
    apply h.set_status
    · intro hstopped
      exact absurd hstopped TelemetryRuntimeState.noConfusion
    · intro _
      constructor
      · rw [hlookup]
        rfl
      · apply h.nobody_leaves hlookup hheld
        rw [hunspawned]
        exact ⟨WorkerStage.noConfusion, WorkerStage.noConfusion⟩
  apply hpublished.set_call
  · right
    refine ⟨call, hcall, ?_⟩
    intro state hlatest
    rw [latest_of_set_status, if_pos rfl, Option.some.injEq] at hlatest
    subst hlatest
    constructor
    · intro _
      exact TelemetryRuntimeState.noConfusion
    · intro htakes
      rw [hstage] at htakes
      exact absurd htakes Bool.false_ne_true
  · exact hpublished.stageOk_of_registers hcall (by rw [hstage]; rfl) rfl rfl rfl

/-- The thread of a monitor starts, and its call returns. -/
theorem MonitorInv.spawn (h : MonitorInv registry) (hcall : registry.calls id = some call)
    (hstage : call.stage = .announced generation) (hworker : registry.workers generation = some worker) :
    MonitorInv ((registry.set_worker generation { worker with stage := .running }).set_call id call
      .returned) := by
  have hregisters : call.stage.registers = some generation := by rw [hstage]; rfl
  obtain ⟨hlookup, held, hheld, hhost, hunspawned⟩ := h.registers id call generation hcall hregisters
  rw [hworker, Option.some.injEq] at hheld
  subst hheld
  have hreturned := h.go_on hcall (by rw [hstage]; rfl) (rfl : CallStage.returned.plain = true)
  show MonitorInv ((registry.set_call id call .returned).set_worker generation _)
  apply hreturned.set_worker hworker
  refine {
    host := rfl, unspawned := ?_, ended := ?_, live := ?_, exiting := ?_, leaving := ?_, reports := ?_,
    retires := ?_ }
  · intro _
    right
    intro other found hfound hother
    rcases calls_of_set_call hfound with ⟨_, rfl⟩ | ⟨hid, hold⟩
    · exact absurd hother.symm (Option.some_ne_none _)
    · exact hid (h.distinct other id found call generation hold hcall hother hregisters)
  · intro hended
    rw [hunspawned] at hended
    exact absurd hended WorkerStage.noConfusion
  · intro _
    rw [hhost]
    exact hlookup
  · intro hexiting
    exact absurd hexiting WorkerStage.noConfusion
  · intro hleaving
    rcases hleaving with hleaving | hexiting
    · exact absurd hleaving WorkerStage.noConfusion
    · exact absurd hexiting WorkerStage.noConfusion
  · intro state hreporting
    exact absurd hreporting WorkerStage.noConfusion
  · intro hretires
    exact absurd (hunspawned.symm.trans hretires.1) WorkerStage.noConfusion

/-- A call takes the handle of a generation away that no thread runs for. -/
theorem MonitorInv.take_away (h : MonitorInv registry) {stage : CallStage}
    (hcall : registry.calls id = some call) (hquiet : call.stage.quiet = true)
    (hplain : stage.plain = true) (htakes : stage.takes_away = true)
    (hlookup : registry.monitors.lookup call.host_id = some generation)
    (hworker : registry.workers generation = some worker) (hlive : worker.stage.live = false)
    (hothers : ∀ other found, registry.calls other = some found →
      found.stage.registers = some generation → other = id) :
    MonitorInv (Monitors.set_call { registry with monitors := registry.monitors.erase call.host_id } id
      call stage) := by
  have hgone := h.go_on hcall hquiet hplain
  apply hgone.erase
  · intro other found hfound hhost
    cases hfound_live : found.stage.live with
    | false => rfl
    | true =>
      have hregistered := h.live other found hfound hfound_live
      rw [hhost, hlookup, Option.some.injEq] at hregistered
      rw [← hregistered] at hfound
      have hsame := Option.some.inj (hworker.symm.trans hfound)
      rw [← hsame, hlive] at hfound_live
      exact absurd hfound_live Bool.false_ne_true
  · intro other found registered hfound hregisters hhost
    rcases calls_of_set_call hfound with ⟨_, rfl⟩ | ⟨hid, hold⟩
    · have hnone : stage.registers = none := by
        simp only [CallStage.plain, Bool.and_eq_true, Option.isNone_iff_eq_none] at hplain
        exact hplain.1.1
      change stage.registers = _ at hregisters
      rw [hnone] at hregisters
      exact absurd hregisters.symm (Option.some_ne_none _)
    · obtain ⟨hregistered, _⟩ := h.registers other found registered hold hregisters
      rw [hhost, hlookup, Option.some.injEq] at hregistered
      rw [← hregistered] at hregisters
      exact hid (hothers other found hold hregisters)
  · exact ⟨id, _, Function.update_self .., rfl, htakes⟩

theorem MonitorInv.publish_failure (h : MonitorInv registry) (hcall : registry.calls id = some call)
    (hstage : ∀ generation, call.stage ≠ .inserted generation) (detail : StatusDetail) :
    MonitorInv ((registry.set_status call.host_id .Failed detail).set_call id call .returned) := by
  have hpublished : MonitorInv (registry.set_status call.host_id .Failed detail) := by
    apply h.set_status
    · intro hstopped
      exact absurd hstopped TelemetryRuntimeState.noConfusion
    · intro hactive
      exact absurd hactive Bool.false_ne_true
  apply hpublished.set_call _ (stageOk_of_plain rfl)
  right
  refine ⟨call, hcall, ?_⟩
  intro state hlatest
  rw [latest_of_set_status, if_pos rfl, Option.some.injEq] at hlatest
  subst hlatest
  constructor
  · intro ⟨generation, hinserted⟩
    exact absurd hinserted (hstage generation)
  · intro _
    rfl

theorem MonitorInv.publish_stop (h : MonitorInv registry) (hcall : registry.calls id = some call)
    (hstage : call.stage = .absent ∨ call.stage = .removed) (hcurrent : StopIsCurrent registry call)
    (detail : StatusDetail) {stage : CallStage} (hplain : stage.plain = true) :
    MonitorInv ((registry.set_status call.host_id .Stopped detail).set_call id call stage) := by
  have hpublished : MonitorInv (registry.set_status call.host_id .Stopped detail) := by
    apply h.set_status
    · intro _
      cases hlookup : registry.monitors.lookup call.host_id with
      | none => exact .inl rfl
      | some generation =>
        obtain ⟨other, starting, hstarting, hhost, hinserted⟩ := hcurrent generation hlookup
        exact .inr ⟨other, starting, generation, hstarting, hhost, hinserted⟩
    · intro hactive
      exact absurd hactive Bool.false_ne_true
  apply hpublished.set_call _ (stageOk_of_plain hplain)
  right
  refine ⟨call, hcall, ?_⟩
  intro state hlatest
  rw [latest_of_set_status, if_pos rfl, Option.some.injEq] at hlatest
  subst hlatest
  constructor
  · intro ⟨generation, hinserted⟩
    rw [hinserted] at hstage
    rcases hstage with hstage | hstage <;> exact absurd hstage CallStage.noConfusion
  · intro _
    rfl

/-- A `publish_stopped` step finds no monitor that a newer start announced. -/
def StopsCurrent (registry : Monitors) : MonitorLabel → Prop
  | .publish_stopped id _ => ∀ call, registry.calls id = some call → StopIsCurrent registry call
  | _ => True

theorem MonitorInv.insert_call (h : MonitorInv registry) (hcall : registry.calls id = some call)
    (hstarting : call.stage = .starting) (hwriter : registry.writer = none) (host : AppResult Unit) :
    MonitorInv (registry.insert id call host) := by
  have hreturned := h.go_on hcall (by rw [hstarting]; rfl) (rfl : CallStage.returned.plain = true)
  unfold Monitors.insert
  split
  · exact hreturned
  · split
    · exact hreturned
    · next hfree =>
      rw [not_or] at hfree
      exact h.insert hcall hstarting (Option.not_isSome_iff_eq_none.mp hfree.1) hwriter

theorem unlocked_writer (h : registry.unlocked = true) : registry.writer = none := by
  simp only [Monitors.unlocked, Bool.and_eq_true, decide_eq_true_eq] at h
  exact Option.isNone_iff_eq_none.mp h.2

/-- **Step lemma of the calls.** -/
theorem MonitorInv.call_next (h : MonitorInv registry) (hcall : registry.calls id = some call)
    (hlabel : label.call = some id) (hok : StopsCurrent registry label)
    (hnext : registry.call_next id call label = some registry') : MonitorInv registry' := by
  cases label <;> dsimp only [Monitors.call_next] at hnext
  case insert other host =>
    split at hnext
    · next hstage =>
      split at hnext
      · next hunlocked =>
        obtain rfl := Option.some.inj hnext
        exact h.insert_call hcall hstage (unlocked_writer hunlocked) host
      · exact absurd hnext.symm (Option.some_ne_none _)
    · exact absurd hnext.symm (Option.some_ne_none _)
  case announce other =>
    split at hnext
    · next generation hstage =>
      obtain rfl := Option.some.inj hnext
      exact h.announce hcall hstage
    · exact absurd hnext.symm (Option.some_ne_none _)
  case spawn other spawned =>
    split at hnext
    · next generation hstage =>
      split at hnext
      · obtain ⟨worker, hworker, hnext⟩ := Option.bind_eq_some_iff.mp hnext
        obtain rfl := Option.some.inj hnext
        exact h.spawn hcall hstage hworker
      · obtain rfl := Option.some.inj hnext
        apply h.set_call (.inr ⟨call, hcall, leaves_of_quiet (by rw [hstage]; rfl)⟩)
        exact h.stageOk_of_registers hcall (by rw [hstage]; rfl) rfl rfl rfl
    · exact absurd hnext.symm (Option.some_ne_none _)
  case unregister other =>
    split at hnext
    · next generation hstage =>
      split at hnext
      · obtain rfl := Option.some.inj hnext
        have hregisters : call.stage.registers = some generation := by rw [hstage]; rfl
        obtain ⟨hlookup, held, hheld, _, hunspawned⟩ := h.registers id call generation hcall hregisters
        apply h.take_away hcall (by rw [hstage]; rfl) rfl rfl hlookup hheld (by rw [hunspawned]; rfl)
        intro one found hfound hone
        exact h.distinct one id found call generation hfound hcall hone hregisters
      · exact absurd hnext.symm (Option.some_ne_none _)
    · exact absurd hnext.symm (Option.some_ne_none _)
  case publish_spawn_error other detail =>
    split at hnext
    · next hstage =>
      obtain rfl := Option.some.inj hnext
      apply h.publish_failure hcall
      intro generation hinserted
      exact absurd (hstage.symm.trans hinserted) CallStage.noConfusion
    · exact absurd hnext.symm (Option.some_ne_none _)
  case find other =>
    split at hnext
    · next hstage =>
      have hquiet : call.stage.quiet = true := by rw [hstage]; rfl
      split at hnext
      · split at hnext
        · obtain rfl := Option.some.inj hnext
          exact h.go_on hcall hquiet rfl
        · next generation hlookup =>
          obtain rfl := Option.some.inj hnext
          apply h.set_call (.inr ⟨call, hcall, leaves_of_quiet hquiet⟩)
          refine ⟨fun _ hnone => absurd hnone.symm (Option.some_ne_none _), ?_,
            fun _ hnone => absurd hnone.symm (Option.some_ne_none _)⟩
          intro stopped hstops
          obtain rfl := Option.some.inj hstops
          exact h.known call.host_id generation hlookup
      · exact absurd hnext.symm (Option.some_ne_none _)
    · exact absurd hnext.symm (Option.some_ne_none _)
  case signal other =>
    split at hnext
    · next generation hstage =>
      obtain ⟨worker, hworker, hnext⟩ := Option.bind_eq_some_iff.mp hnext
      obtain rfl := Option.some.inj hnext
      have hsignalled : MonitorInv (registry.set_worker generation { worker with stop := true }) := by
        apply h.set_worker hworker
        exact {
          host := rfl
          unspawned := .inl
          ended := fun hended => hended
          live := h.live generation worker hworker
          exiting := fun hexiting => ⟨hexiting, rfl⟩
          leaving := fun _ => .inl rfl
          reports := fun state => h.reports generation worker state hworker
          retires := fun ⟨hexiting, _, hpending⟩ => .inl ⟨hexiting, rfl, hpending⟩ }
      apply hsignalled.set_call (.inr ⟨call, hcall, leaves_of_quiet (by rw [hstage]; rfl)⟩)
      refine ⟨fun _ hnone => absurd hnone.symm (Option.some_ne_none _), ?_,
        fun _ hnone => absurd hnone.symm (Option.some_ne_none _)⟩
      intro stopped hstops
      obtain rfl := Option.some.inj hstops
      exact hsignalled.stops id call generation hcall (by rw [hstage]; rfl)
    · exact absurd hnext.symm (Option.some_ne_none _)
  case time_out other =>
    split at hnext
    · next hstage =>
      obtain rfl := Option.some.inj hnext
      exact h.go_on hcall (by rw [hstage]; rfl) rfl
    · exact absurd hnext.symm (Option.some_ne_none _)
  case await_completion other =>
    split at hnext
    · next generation hstage =>
      obtain ⟨worker, hworker, hnext⟩ := Option.bind_eq_some_iff.mp hnext
      split at hnext
      · next hended =>
        obtain rfl := Option.some.inj hnext
        obtain ⟨held, hheld, hhost⟩ := h.stops id call generation hcall (by rw [hstage]; rfl)
        rw [hworker, Option.some.injEq] at hheld
        subst hheld
        apply h.set_call (.inr ⟨call, hcall, leaves_of_quiet (by rw [hstage]; rfl)⟩)
        refine ⟨fun _ hnone => absurd hnone.symm (Option.some_ne_none _),
          fun _ hnone => absurd hnone.symm (Option.some_ne_none _), ?_⟩
        intro stopped houtlived
        obtain rfl := Option.some.inj houtlived
        exact ⟨worker, hworker, hhost, hended⟩
      · exact absurd hnext.symm (Option.some_ne_none _)
    · exact absurd hnext.symm (Option.some_ne_none _)
  case cleanup other reaped =>
    split at hnext
    · next generation hstage =>
      have hquiet : call.stage.quiet = true := by rw [hstage]; rfl
      obtain ⟨worker, hworker, hnext⟩ := Option.bind_eq_some_iff.mp hnext
      split at hnext
      · obtain rfl := Option.some.inj hnext
        exact h.go_on hcall hquiet rfl
      · obtain ⟨held, hheld, hhost, hended⟩ :=
          h.outlived id call generation hcall (by rw [hstage]; rfl)
        rw [hworker, Option.some.injEq] at hheld
        subst hheld
        have hreaped : MonitorInv (registry.set_worker generation { worker with child := false }) := by
          apply h.worker_ends { worker with child := false } hworker (.inr (.inr hended)) (.inr hended)
            (fun _ => hended) rfl
          intro hretires
          exact absurd (hended.symm.trans hretires.1) WorkerStage.noConfusion
        split at hnext
        · obtain rfl := Option.some.inj hnext
          exact hreaped.go_on hcall hquiet rfl
        · obtain rfl := Option.some.inj hnext
          apply hreaped.set_call (.inr ⟨call, hcall, leaves_of_quiet hquiet⟩)
          refine ⟨fun _ hnone => absurd hnone.symm (Option.some_ne_none _),
            fun _ hnone => absurd hnone.symm (Option.some_ne_none _), ?_⟩
          intro stopped houtlived
          obtain rfl := Option.some.inj houtlived
          exact ⟨_, Function.update_self .., hhost, hended⟩
    · exact absurd hnext.symm (Option.some_ne_none _)
  case publish_cleanup_error other detail =>
    split at hnext
    · next hstage =>
      obtain rfl := Option.some.inj hnext
      apply h.publish_failure hcall
      intro generation hinserted
      exact absurd (hstage.symm.trans hinserted) CallStage.noConfusion
    · exact absurd hnext.symm (Option.some_ne_none _)
  case remove other =>
    split at hnext
    · next generation hstage =>
      have hquiet : call.stage.quiet = true := by rw [hstage]; rfl
      obtain ⟨held, hheld, hhost, hended⟩ := h.outlived id call generation hcall (by rw [hstage]; rfl)
      split at hnext
      · obtain rfl := Option.some.inj hnext
        split
        · next hlookup =>
          apply h.take_away hcall hquiet rfl rfl hlookup hheld (by rw [hended]; rfl)
          intro one found hfound hregisters
          obtain ⟨_, worker, hworker, _, hunspawned⟩ := h.registers one found generation hfound hregisters
          rw [hheld, Option.some.injEq] at hworker
          rw [← hworker, hended] at hunspawned
          exact absurd hunspawned WorkerStage.noConfusion
        · exact h.go_on hcall hquiet rfl
      · exact absurd hnext.symm (Option.some_ne_none _)
    · exact absurd hnext.symm (Option.some_ne_none _)
  case publish_stopped other detail =>
    obtain rfl := Option.some.inj hlabel
    have hplain : (if call.removes_host then CallStage.stopped else .returned).plain = true := by
      split <;> rfl
    split at hnext
    · next hstage =>
      obtain rfl := Option.some.inj hnext
      exact h.publish_stop hcall (.inl hstage) (hok call hcall) _ hplain
    · next hstage =>
      obtain rfl := Option.some.inj hnext
      exact h.publish_stop hcall (.inr hstage) (hok call hcall) _ hplain
    · exact absurd hnext.symm (Option.some_ne_none _)
  case give_up other =>
    split at hnext
    · next hstage =>
      obtain rfl := Option.some.inj hnext
      exact h.go_on hcall (by rw [hstage]; rfl) rfl
    · exact absurd hnext.symm (Option.some_ne_none _)
  case forget other =>
    split at hnext
    · next hstage =>
      obtain rfl := Option.some.inj hnext
      have hreturned := h.go_on hcall (by rw [hstage]; rfl) (rfl : CallStage.returned.plain = true)
      exact hreturned.of_same rfl rfl rfl rfl rfl (.inl rfl)
    · exact absurd hnext.symm (Option.some_ne_none _)
  all_goals exact absurd hlabel.symm (Option.some_ne_none _)

/-! ### Steps of a worker -/

/-- **Step lemma of the workers.** -/
theorem MonitorInv.worker_next (h : MonitorInv registry)
    (hworker : registry.workers generation = some worker) (hlabel : label.worker = some generation)
    (hnext : registry.worker_next generation worker label = some registry') : MonitorInv registry' := by
  cases label <;> dsimp only [Monitors.worker_next] at hnext
  case sample other =>
    split at hnext
    · next hready =>
      split at hnext
      · obtain rfl := Option.some.inj hnext
        have hsampling : MonitorInv
            (registry.set_worker generation { worker with stage := .sampling }) := by
          refine h.worker_goes_on _ hworker (by rw [hready.1]; rfl) rfl WorkerStage.noConfusion ?_ ?_
          · intro hleaving
            exact absurd hleaving WorkerStage.noConfusion
          · intro state hreporting
            exact absurd hreporting WorkerStage.noConfusion
        exact hsampling.of_same rfl rfl rfl rfl rfl (.inl rfl)
      · obtain rfl := Option.some.inj hnext
        exact h
    · exact absurd hnext.symm (Option.some_ne_none _)
  case publish_sample other detail =>
    split at hnext
    · next hstage =>
      obtain rfl := Option.some.inj hnext
      have hlive : worker.stage.live = true := by rw [hstage]; rfl
      have hpublished : MonitorInv
          (registry.set_status worker.host_id .Online { detail with error := none }) := by
        apply h.worker_reports hworker hlive
        · rw [hstage]
          exact WorkerStage.noConfusion
        · exact TelemetryRuntimeState.noConfusion
      have hrunning := hpublished.worker_goes_on { worker with stage := .running } hworker hlive
        rfl WorkerStage.noConfusion (fun hleaving => absurd hleaving WorkerStage.noConfusion)
        fun _ hreporting => absurd hreporting WorkerStage.noConfusion
      exact hrunning.of_same rfl rfl rfl rfl rfl (.inl rfl)
    · exact absurd hnext.symm (Option.some_ne_none _)
  case collect other child cleanup_error =>
    split at hnext
    · next hstage =>
      obtain rfl := Option.some.inj hnext
      refine h.worker_goes_on _ hworker (by rw [hstage]; rfl) rfl WorkerStage.noConfusion ?_ ?_
      · intro hleaving
        exact absurd hleaving WorkerStage.noConfusion
      · intro state hreporting
        exact absurd hreporting WorkerStage.noConfusion
    · exact absurd hnext.symm (Option.some_ne_none _)
  case judge other will_retry =>
    split at hnext
    · next hstage =>
      obtain rfl := Option.some.inj hnext
      refine h.worker_goes_on _ hworker (by rw [hstage]; rfl) rfl ?_ ?_ ?_
      · show (if worker.child then _ else _ : WorkerStage) ≠ _
        split_ifs <;> exact WorkerStage.noConfusion
      · show (if worker.child then _ else _ : WorkerStage) = _ → worker.stop = true ∨ _
        split_ifs with hchild hstop <;> intro hleaving
        · cases hleaving
        · exact .inl hstop
        · cases hleaving
        · cases hleaving
      · intro state
        show (if worker.child then _ else _ : WorkerStage) = _ → _
        split_ifs <;> intro hreporting
        · exact .inl (WorkerStage.reporting.inj hreporting).symm
        · cases hreporting
        · exact .inr (WorkerStage.reporting.inj hreporting).symm
        · exact .inl (WorkerStage.reporting.inj hreporting).symm
    · exact absurd hnext.symm (Option.some_ne_none _)
  case report other detail =>
    split at hnext
    · next state hstage =>
      obtain rfl := Option.some.inj hnext
      have hlive : worker.stage.live = true := by rw [hstage]; rfl
      have hstate := h.reports generation worker state hworker hstage
      have hpublished : MonitorInv (registry.set_status worker.host_id state detail) := by
        apply h.worker_reports hworker hlive
        · rw [hstage]
          exact WorkerStage.noConfusion
        · intro hstopped
          rw [hstopped] at hstate
          rcases hstate with hstate | hstate <;> exact absurd hstate TelemetryRuntimeState.noConfusion
      refine hpublished.worker_goes_on _ hworker hlive rfl ?_ ?_ ?_
      · show (if state = _ then _ else _ : WorkerStage) ≠ _
        split_ifs <;> exact WorkerStage.noConfusion
      · intro hleaving
        right
        intro latest hlatest
        rw [latest_of_set_status, if_pos rfl, Option.some.injEq] at hlatest
        rcases hstate with hfailed | hdegraded
        · rw [← hlatest, hfailed]
          rfl
        · change (if state = _ then _ else _ : WorkerStage) = _ at hleaving
          rw [if_pos hdegraded] at hleaving
          exact absurd hleaving WorkerStage.noConfusion
      · intro other
        show (if state = _ then _ else _ : WorkerStage) = _ → _
        split_ifs <;> intro hreporting <;> cases hreporting
    · exact absurd hnext.symm (Option.some_ne_none _)
  case leave other =>
    split at hnext
    · next hready =>
      obtain rfl := Option.some.inj hnext
      refine h.worker_goes_on _ hworker (by rw [hready.1]; rfl) rfl WorkerStage.noConfusion ?_ ?_
      · intro _
        exact .inl hready.2
      · intro state hreporting
        exact absurd hreporting WorkerStage.noConfusion
    · exact absurd hnext.symm (Option.some_ne_none _)
  case exit other =>
    split at hnext
    · next hready =>
      obtain rfl := Option.some.inj hnext
      have hlookup := h.live generation worker hworker (by rw [hready.1]; rfl)
      unfold Monitors.exit
      rw [if_pos hlookup]
      apply h.leave hworker hready.1 (unlocked_writer hready.2)
      · intro other hother
        split
        · rfl
        · exact AList.lookup_erase_ne hother
      · split
        · exact hlookup
        · exact AList.lookup_erase _ _
    · exact absurd hnext.symm (Option.some_ne_none _)
  case publish_exit other detail =>
    split at hnext
    · next hstage =>
      obtain rfl := Option.some.inj hnext
      obtain ⟨hwriter, hlookup⟩ := h.exiting generation worker hworker hstage
      have hexited : MonitorInv (Monitors.set_worker
          (if worker.stop && !worker.cleanup_pending then
            registry.set_status worker.host_id .Stopped { detail with error := none }
          else registry) generation { worker with stage := .exited }) := by
        split
        · next hstopped =>
          obtain ⟨hstop, hpending⟩ : worker.stop = true ∧ worker.cleanup_pending = false := by
            simpa using hstopped
          have hpublished : MonitorInv
              (registry.set_status worker.host_id .Stopped { detail with error := none }) := by
            apply h.set_status
            · intro _
              rcases hlookup with hnone | ⟨_, hpending'⟩
              · exact .inl hnone
              · rw [hpending] at hpending'
                exact absurd hpending' Bool.false_ne_true
            · intro hactive
              exact absurd hactive Bool.false_ne_true
          refine hpublished.worker_ends _ hworker (.inl hstage) (.inl rfl) ?_ rfl ?_
          · intro hended
            exact absurd (hstage.symm.trans hended) WorkerStage.noConfusion
          · intro _ state hlatest
            rw [latest_of_set_status, if_pos rfl, Option.some.injEq] at hlatest
            rw [← hlatest]
            rfl
        · next hstopped =>
          refine h.worker_ends _ hworker (.inl hstage) (.inl rfl) ?_ rfl ?_
          · intro hended
            exact absurd (hstage.symm.trans hended) WorkerStage.noConfusion
          · intro ⟨_, hstop, hpending⟩
            rw [hstop, hpending] at hstopped
            exact absurd rfl hstopped
      refine hexited.of_same rfl rfl rfl rfl rfl (.inr ?_)
      intro other found hfound hexiting
      rcases workers_of_set_worker hfound with ⟨_, rfl⟩ | ⟨hid, hold⟩
      · exact absurd hexiting WorkerStage.noConfusion
      · have hheld : registry.workers other = some found := by
          split at hold <;> exact hold
        -- The lock had one holder only.
        rw [(h.exiting other found hheld hexiting).1, Option.some.injEq] at hwriter
        exact hid hwriter
    · exact absurd hnext.symm (Option.some_ne_none _)
  case finish other =>
    split at hnext
    · next hstage =>
      obtain rfl := Option.some.inj hnext
      refine h.worker_ends _ hworker (.inr (.inl hstage)) (.inr rfl) (fun _ => rfl) rfl ?_
      intro hretires
      exact absurd (hstage.symm.trans hretires.1) WorkerStage.noConfusion
    · exact absurd hnext.symm (Option.some_ne_none _)
  all_goals exact absurd hlabel.symm (Option.some_ne_none _)

/-! ### Every step -/

theorem next_of_call (hlabel : label.call = some id)
    (hnext : registry.next label = some registry') :
    ∃ call, registry.calls id = some call ∧ registry.call_next id call label = some registry' := by
  have hbind : ((registry.calls id).bind fun call => registry.call_next id call label) =
      some registry' := by
    cases label <;> first | exact absurd hlabel.symm (Option.some_ne_none _) |
      (obtain rfl := Option.some.inj hlabel; exact hnext)
  exact Option.bind_eq_some_iff.mp hbind

theorem next_of_worker (hlabel : label.worker = some generation)
    (hnext : registry.next label = some registry') :
    ∃ worker, registry.workers generation = some worker ∧
      registry.worker_next generation worker label = some registry' := by
  have hbind : ((registry.workers generation).bind fun worker =>
      registry.worker_next generation worker label) = some registry' := by
    cases label <;> first | exact absurd hlabel.symm (Option.some_ne_none _) |
      (obtain rfl := Option.some.inj hlabel; exact hnext)
  exact Option.bind_eq_some_iff.mp hbind

/-- What a step of the machine is: the begin of a call, the shutdown, or a
    step of one call or of one worker. -/
theorem monitor_next_cases (hnext : monitor_machine.next registry label = some registry') :
    (∃ id call stage, registry.calls id = none ∧ stage.plain = true ∧
        registry' = registry.set_call id call stage) ∨
      registry' = { registry with shutting_down := true } ∨
      (∃ id call, label.call = some id ∧ registry.calls id = some call ∧
        registry.call_next id call label = some registry') ∨
      ∃ generation worker, label.worker = some generation ∧
        registry.workers generation = some worker ∧
        registry.worker_next generation worker label = some registry' := by
  change Monitors.next registry label = some registry' at hnext
  cases hcall : label.call with
  | some id =>
    obtain ⟨call, hfound, hnext⟩ := next_of_call hcall hnext
    exact .inr (.inr (.inl ⟨id, call, rfl, hfound, hnext⟩))
  | none =>
    cases hworker : label.worker with
    | some generation =>
      obtain ⟨worker, hfound, hnext⟩ := next_of_worker hworker hnext
      exact .inr (.inr (.inr ⟨generation, worker, rfl, hfound, hnext⟩))
    | none =>
      cases label <;> dsimp only [Monitors.next] at hnext
      case begin_start id host_id =>
        split at hnext
        · exact absurd hnext.symm (Option.some_ne_none _)
        · next hfree =>
          left
          refine ⟨id, _, _, Option.not_isSome_iff_eq_none.mp hfree, ?_, (Option.some.inj hnext).symm⟩
          split <;> rfl
      case begin_stop id host_id removes_host =>
        split at hnext
        · exact absurd hnext.symm (Option.some_ne_none _)
        · next hfree =>
          left
          exact ⟨id, _, _, Option.not_isSome_iff_eq_none.mp hfree, rfl, (Option.some.inj hnext).symm⟩
      case shut_down => exact .inr (.inl (Option.some.inj hnext).symm)
      all_goals first | exact absurd hcall (Option.some_ne_none _) |
        exact absurd hworker (Option.some_ne_none _)

theorem monitorInv_step (h : MonitorInv registry) (hok : StopsCurrent registry label)
    (hnext : monitor_machine.next registry label = some registry') : MonitorInv registry' := by
  rcases monitor_next_cases hnext with ⟨id, call, stage, hfree, hplain, rfl⟩ | rfl |
    ⟨id, call, hlabel, hcall, hnext⟩ | ⟨generation, worker, hlabel, hworker, hnext⟩
  · exact h.set_call (.inl hfree) (stageOk_of_plain hplain)
  · exact h.of_same rfl rfl rfl rfl rfl (.inl rfl)
  · exact h.call_next hcall hlabel hok hnext
  · exact h.worker_next hworker hlabel hnext

theorem monitorInv_reachable (h : monitor_machine.ReachableWhen StopsCurrent registry) :
    MonitorInv registry := by
  apply h.invariant
  · intro _ hinit
    rw [hinit]
    exact monitorInv_init
  · intro _ _ _ hinv hok hnext
    exact monitorInv_step hinv hok hnext

/-! ### Older workers -/

/-- A step left the registration and the status of a host alone. -/
structure Untouched (registry registry' : Monitors) (host_id : Text) : Prop where
  lookup : registry'.monitors.lookup host_id = registry.monitors.lookup host_id
  statuses : registry'.statuses host_id = registry.statuses host_id
  published : registry'.published host_id = registry.published host_id

theorem Untouched.refl (registry : Monitors) (host_id : Text) : Untouched registry registry host_id :=
  ⟨rfl, rfl, rfl⟩

theorem untouched_set_status {other : Text} (hother : other ≠ host_id) (registry : Monitors)
    (state : TelemetryRuntimeState) (detail : StatusDetail) :
    Untouched registry (registry.set_status host_id state detail) other :=
  ⟨rfl, Function.update_of_ne hother .., Function.update_of_ne hother ..⟩

/-- A worker leaves every other host alone. -/
theorem worker_next_others {other : Text} (hother : other ≠ worker.host_id)
    (hnext : registry.worker_next generation worker label = some registry') :
    Untouched registry registry' other := by
  cases label <;> dsimp only [Monitors.worker_next] at hnext
  case sample =>
    split at hnext
    · split at hnext <;> obtain rfl := Option.some.inj hnext <;> exact ⟨rfl, rfl, rfl⟩
    · exact absurd hnext.symm (Option.some_ne_none _)
  case publish_sample =>
    split at hnext
    · obtain rfl := Option.some.inj hnext
      obtain ⟨hlookup, hstatuses, hpublished⟩ := untouched_set_status hother registry .Online _
      exact ⟨hlookup, hstatuses, hpublished⟩
    · exact absurd hnext.symm (Option.some_ne_none _)
  case report detail =>
    split at hnext
    · next state _ =>
      obtain rfl := Option.some.inj hnext
      obtain ⟨hlookup, hstatuses, hpublished⟩ := untouched_set_status hother registry state detail
      exact ⟨hlookup, hstatuses, hpublished⟩
    · exact absurd hnext.symm (Option.some_ne_none _)
  case exit =>
    split at hnext
    · obtain rfl := Option.some.inj hnext
      unfold Monitors.exit
      split
      · refine ⟨?_, rfl, rfl⟩
        show (if worker.cleanup_pending then _ else _ : AList _).lookup other = _
        split
        · rfl
        · exact AList.lookup_erase_ne hother
      · exact ⟨rfl, rfl, rfl⟩
    · exact absurd hnext.symm (Option.some_ne_none _)
  case publish_exit =>
    split at hnext
    · obtain rfl := Option.some.inj hnext
      by_cases hstopped : (worker.stop && !worker.cleanup_pending) = true
      · rw [if_pos hstopped]
        obtain ⟨hlookup, hstatuses, hpublished⟩ := untouched_set_status hother registry .Stopped _
        exact ⟨hlookup, hstatuses, hpublished⟩
      · rw [if_neg hstopped]
        exact ⟨rfl, rfl, rfl⟩
    · exact absurd hnext.symm (Option.some_ne_none _)
  all_goals first
    | exact absurd hnext.symm (Option.some_ne_none _)
    | (split at hnext
       · obtain rfl := Option.some.inj hnext
         exact ⟨rfl, rfl, rfl⟩
       · exact absurd hnext.symm (Option.some_ne_none _))

/-- A worker that has left the registry leaves every host alone. -/
theorem worker_next_gone (hlive : worker.stage.live = false) (hexiting : worker.stage ≠ .exiting)
    (hnext : registry.worker_next generation worker label = some registry') :
    Untouched registry registry' host_id := by
  have hstage : ∀ {stage : WorkerStage}, stage.live = true → worker.stage ≠ stage := by
    intro stage hstage hsame
    rw [hsame, hstage] at hlive
    exact absurd hlive.symm Bool.false_ne_true
  cases label <;> dsimp only [Monitors.worker_next] at hnext
  case sample =>
    rw [if_neg fun hready => hstage rfl hready.1] at hnext
    exact absurd hnext.symm (Option.some_ne_none _)
  case publish_sample =>
    rw [if_neg (hstage rfl)] at hnext
    exact absurd hnext.symm (Option.some_ne_none _)
  case collect =>
    rw [if_neg (hstage rfl)] at hnext
    exact absurd hnext.symm (Option.some_ne_none _)
  case judge =>
    rw [if_neg (hstage rfl)] at hnext
    exact absurd hnext.symm (Option.some_ne_none _)
  case report =>
    split at hnext
    · next hreporting => exact absurd hreporting (hstage rfl)
    · exact absurd hnext.symm (Option.some_ne_none _)
  case leave =>
    rw [if_neg fun hready => hstage rfl hready.1] at hnext
    exact absurd hnext.symm (Option.some_ne_none _)
  case exit =>
    rw [if_neg fun hready => hstage rfl hready.1] at hnext
    exact absurd hnext.symm (Option.some_ne_none _)
  case publish_exit =>
    rw [if_neg hexiting] at hnext
    exact absurd hnext.symm (Option.some_ne_none _)
  case finish =>
    split at hnext
    · obtain rfl := Option.some.inj hnext
      exact ⟨rfl, rfl, rfl⟩
    · exact absurd hnext.symm (Option.some_ne_none _)
  all_goals exact absurd hnext.symm (Option.some_ne_none _)

theorem MonitorInv.older_worker (h : MonitorInv registry)
    (hworker : registry.workers generation = some worker)
    (hnext : registry.worker_next generation worker label = some registry') {newer : Nat}
    {found : Worker} (hfound : registry.workers newer = some found) (hlt : generation < newer) :
    Untouched registry registry' found.host_id := by
  by_cases hhost : found.host_id = worker.host_id
  · apply worker_next_gone _ _ hnext
    · cases hlive : worker.stage.live with
      | false => rfl
      | true =>
        have hlookup := h.live generation worker hworker hlive
        have hle := h.newest worker.host_id generation hlookup newer found hfound hhost
        omega
    · intro hexiting
      have hle := h.last generation worker hworker hexiting newer found hfound hhost
      omega
  · exact worker_next_others hhost hnext

/-! ### The agreement -/

/-- No call on the host is under way, and no worker of it is in its exit. -/
structure Monitors.Settled (registry : Monitors) (host_id : Text) : Prop where
  calls : ∀ id call, registry.calls id = some call → call.host_id = host_id → call.stage = .returned
  workers : ∀ generation worker, registry.workers generation = some worker →
    worker.host_id = host_id → worker.stage ≠ .exiting

/-- **Statuses agree with the monitors** in every run whose stops find no
    newer monitor when they write: on a settled host a published `Stopped`
    means that no monitor is registered, and a state of a running monitor
    that one is.  A thread that runs is the one registered for its host, and
    no worker touches the status or the registration of a host that has a
    newer one. -/
theorem statuses_agree (h : monitor_machine.ReachableWhen StopsCurrent registry) :
    (∀ host_id, registry.Settled host_id →
      (registry.latest host_id = some .Stopped → registry.monitors.lookup host_id = none) ∧
        ∀ state, registry.latest host_id = some state → state.active = true →
          (registry.monitors.lookup host_id).isSome) ∧
      (∀ generation worker, registry.workers generation = some worker →
        worker.stage.live = true → registry.monitors.lookup worker.host_id = some generation) ∧
      ∀ label registry' generation worker, label.worker = some generation →
        registry.workers generation = some worker →
        monitor_machine.next registry label = some registry' →
        ∀ newer found, registry.workers newer = some found → generation < newer →
          Untouched registry registry' found.host_id := by
  have hinv := monitorInv_reachable h
  refine ⟨?_, hinv.live, ?_⟩
  · intro host_id hsettled
    constructor
    · intro hlatest
      rcases hinv.stopped host_id hlatest with hnone | ⟨id, call, generation, hcall, hhost, hstage⟩
      · exact hnone
      · rw [hsettled.calls id call hcall hhost] at hstage
        exact absurd hstage CallStage.noConfusion
    · intro state hlatest hactive
      rcases hinv.active host_id state hlatest hactive with
        hsome | ⟨id, call, hcall, hhost, htakes⟩ | ⟨generation, worker, hworker, hhost, hretires⟩
      · exact hsome
      · rw [hsettled.calls id call hcall hhost] at htakes
        exact absurd htakes Bool.false_ne_true
      · exact absurd hretires.1 (hsettled.workers generation worker hworker hhost)
  · intro label registry' generation worker hlabel hworker hnext newer found hfound hlt
    rcases monitor_next_cases hnext with ⟨_, _, _, _, _, rfl⟩ | rfl | ⟨id, call, hcall, _⟩ |
      ⟨other, found', hother, hfound', hnext⟩
    · exact ⟨rfl, rfl, rfl⟩
    · exact ⟨rfl, rfl, rfl⟩
    · cases label <;> first | exact absurd hcall.symm (Option.some_ne_none _) |
        exact absurd hlabel.symm (Option.some_ne_none _)
    · rw [hlabel, Option.some.injEq] at hother
      subst hother
      rw [hworker, Option.some.injEq] at hfound'
      subst hfound'
      exact hinv.older_worker hworker hnext hfound hlt

/-! ### A restart while a stop is under way -/

def stops_current (registry : Monitors) : MonitorLabel → Bool
  | .publish_stopped id _ =>
      (registry.calls id).all fun call => (registry.monitors.lookup call.host_id).isNone
  | _ => true

theorem stops_current_sound (registry : Monitors) (label : MonitorLabel)
    (h : stops_current registry label = true) : StopsCurrent registry label := by
  cases label with
  | publish_stopped id detail =>
    intro call hcall generation hlookup
    have hnone : (registry.monitors.lookup call.host_id).isNone = true := by
      change (registry.calls id).all _ = true at h
      rw [hcall] at h
      exact h
    rw [hlookup] at hnone
    exact absurd hnone Bool.false_ne_true
  | _ => trivial

/-- A monitor runs, a stop waits for its end, and a new start comes in
    before the stop writes or after it. -/
def restart_run (overtaken : Bool) : List MonitorLabel :=
  let host_id := "h".toList
  let restart := [.begin_start 3 host_id, .insert 3 (.ok ()), .announce 3, .spawn 3 true]
  let stopped := [.publish_stopped 2 ⟨none, none⟩]
  [.begin_start 1 host_id, .insert 1 (.ok ()), .announce 1, .spawn 1 true, .begin_stop 2 host_id false,
    .find 2, .signal 2, .leave 1, .exit 1, .publish_exit 1 ⟨none, none⟩, .finish 1, .await_completion 2,
    .cleanup 2 true, .remove 2] ++ if overtaken then restart ++ stopped else stopped ++ restart

/-- The run that is overtaken breaks the condition. -/
def restart_check (overtaken : Bool) : Monitors → MonitorLabel → Bool :=
  if overtaken then fun _ _ => true else stops_current

/-- Every call has returned at its end, and no worker is in its exit. -/
theorem restart_run_settled {overtaken : Bool}
    (hrun : monitor_machine.replay (restart_check overtaken) .default (restart_run overtaken) =
      some registry) (host_id : Text) : registry.Settled host_id := by
  constructor
  · intro id call hcall _
    have hidle : ((monitor_machine.replay (restart_check overtaken) .default
        (restart_run overtaken)).all fun registry =>
          (registry.calls id).all fun call => call.stage = .returned) = true := by
      cases overtaken <;> rcases id with _ | _ | _ | _ | id <;> rfl
    rw [hrun, Option.all_some, hcall, Option.all_some] at hidle
    exact of_decide_eq_true hidle
  · intro generation worker hworker _
    have hidle : ((monitor_machine.replay (restart_check overtaken) .default
        (restart_run overtaken)).all fun registry =>
          (registry.workers generation).all fun worker => worker.stage ≠ .exiting) = true := by
      cases overtaken <;> rcases generation with _ | _ | _ | generation <;> rfl
    rw [hrun, Option.all_some, hworker, Option.all_some] at hidle
    exact of_decide_eq_true hidle

/-- The start comes after the stop has written. -/
theorem restarted_monitor_agrees :
    ∃ registry, monitor_machine.ReachableWhen StopsCurrent registry ∧
      registry.Settled "h".toList ∧ registry.latest "h".toList = some .Starting ∧
      (registry.monitors.lookup "h".toList).isSome := by
  have hrun : ((monitor_machine.replay (restart_check false) .default (restart_run false)).any
      fun registry => registry.latest "h".toList = some .Starting) = true := by decide +kernel
  obtain ⟨registry, hreplay, hlatest⟩ := (Option.any_eq_true _ _).mp hrun
  have hlatest : registry.latest "h".toList = some .Starting := of_decide_eq_true hlatest
  have hreach : monitor_machine.ReachableWhen StopsCurrent registry :=
    (Machine.replay_steps stops_current_sound hreplay).reachable (.init rfl)
  have hsettled := restart_run_settled hreplay "h".toList
  exact ⟨registry, hreach, hsettled, hlatest,
    ((statuses_agree hreach).1 "h".toList hsettled).2 .Starting hlatest rfl⟩

/-- The start comes between the two halves of the stop: the last status says
    that the monitor is stopped while the new one is registered and runs. -/
theorem stop_overwrites_newer :
    ∃ registry, monitor_machine.Reachable registry ∧ registry.Settled "h".toList ∧
      registry.latest "h".toList = some .Stopped ∧
      registry.monitors.lookup "h".toList = some 2 := by
  have hrun : ((monitor_machine.replay (restart_check true) .default (restart_run true)).any
      fun registry => registry.latest "h".toList = some .Stopped ∧
        registry.monitors.lookup "h".toList = some 2) = true := by decide +kernel
  obtain ⟨registry, hreplay, hstate⟩ := (Option.any_eq_true _ _).mp hrun
  obtain ⟨hlatest, hlookup⟩ := of_decide_eq_true hstate
  exact ⟨registry, (Machine.replay_steps (fun _ _ _ => trivial) hreplay).reachable (.init rfl),
    restart_run_settled hreplay "h".toList, hlatest, hlookup⟩

end Telemetry
