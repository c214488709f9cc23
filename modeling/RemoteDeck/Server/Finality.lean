import RemoteDeck.Server.Operations

/-! # Finished operations are final

    A record that has a completion time does not change any more, and the
    state of a record agrees with its result and its error, as long as no
    aborted task writes its record.  An abort that finds a task between two
    awaits does not keep it from writing.
-/

namespace Server

variable {Value : Type} {json : SerdeJson Value} {ops ops' : Operations Value} {label : Label Value}
  {id other : Text} {record : Record Value} {records : List (Record Value)}

/-! ### Records by id -/

@[simp] theorem Record.run_id (record : Record Value) : record.run.summary.id = record.summary.id :=
  rfl

@[simp] theorem Record.finish_id (record : Record Value) (now : Timestamp)
    (result : Except ApiError (Value × Nat)) :
    (record.finish now result).summary.id = record.summary.id := by
  cases result <;> rfl

theorem find_record_map {f : Record Value → Record Value}
    (hf : ∀ record, (f record).summary.id = record.summary.id) (records : List (Record Value))
    (id : Text) : find_record (records.map f) id = (find_record records id).map f := by
  unfold find_record
  rw [List.find?_map]
  congr 2
  funext record
  show decide ((f record).summary.id = id) = decide (record.summary.id = id)
  rw [hf]

theorem find_record_id (h : find_record records id = some record) : record.summary.id = id :=
  of_decide_eq_true (p := record.summary.id = id) (by simpa using List.find?_some h)

theorem update_record {change : Record Value → Record Value}
    (hchange : ∀ record, (change record).summary.id = record.summary.id) (ops : Operations Value)
    (id other : Text) :
    (ops.update id change).record other =
      if other = id then (ops.record other).map change else ops.record other := by
  have hid : ∀ record : Record Value,
      (if record.summary.id = id then change record else record).summary.id = record.summary.id := by
    intro record
    split
    · exact hchange record
    · rfl
  show find_record (ops.records.map _) other = _
  rw [find_record_map hid]
  cases hfind : find_record ops.records other with
  | none =>
    have hnone : ops.record other = none := hfind
    simp [hnone]
  | some record =>
    have hsome : ops.record other = some record := hfind
    have hrecord := find_record_id hfind
    rw [hsome, Option.map_some, Option.map_some, hrecord]
    split <;> rfl

theorem find_record_filter (records : List (Record Value)) (oldest id : Text) :
    find_record (records.filter fun record => record.summary.id ≠ oldest) id =
      if id = oldest then none else find_record records id := by
  unfold find_record
  rw [List.find?_filter]
  split
  · next h =>
    subst h
    apply List.find?_eq_none.mpr
    intro record _
    simp
  · next h =>
    congr 1
    funext record
    by_cases hid : record.summary.id = id
    · simp [hid, h]
    · simp [hid]

/-- Making room removes finished records only. -/
theorem make_room_record {removed : List Text} {records records' : List (Record Value)}
    (h : make_room removed records = some records') (id : Text) :
    find_record records' id = find_record records id ∨
      find_record records' id = none ∧
        ∃ record, find_record records id = some record ∧ record.finished = true := by
  induction removed generalizing records with
  | nil =>
    unfold make_room at h
    split at h
    · exact absurd h.symm (Option.some_ne_none _)
    · obtain rfl := Option.some.inj h
      exact .inl rfl
  | cons oldest removed ih =>
    unfold make_room at h
    split at h
    · dsimp only at h
      obtain ⟨holdest, h⟩ := Option.ite_none_right_eq_some.mp h
      obtain ⟨record, hrecord, hfinished⟩ := (Option.any_eq_true _ _).mp holdest
      have hrest := ih h
      rw [find_record_filter] at hrest
      by_cases hid : id = oldest
      · subst hid
        rw [if_pos rfl] at hrest
        right
        refine ⟨?_, record, hrecord, (Bool.and_eq_true_iff.mp hfinished).1⟩
        rcases hrest with hnone | ⟨hnone, _⟩
        · exact hnone
        · exact hnone
      · rw [if_neg hid] at hrest
        exact hrest
    · simp at h

/-! ### What a step does to an operation -/

/-- The task can still write. -/
def Stage.live : Stage Value → Bool
  | .ended | .cancelled => false
  | _ => true

/-- The record and the task of an operation after a step. -/
inductive Effect (json : SerdeJson Value) (ops : Operations Value) (label : Label Value) (id : Text) :
    Option (Record Value) → Option (Task Value) → Prop where
  | same : Effect json ops label id (ops.record id) (ops.tasks id)
  | removed (record : Record Value) : ops.record id = some record → record.finished = true →
      Effect json ops label id none (ops.tasks id)
  | queued (command : Text) (args : Value) (now : Timestamp) : ops.tasks id = none →
      Effect json ops label id (some (queued_record json id command args now)) (some ⟨.queued, false⟩)
  | moves (task : Task Value) (stage : Stage Value) : ops.tasks id = some task →
      (stage.live = true → task.stage.live = true) →
      Effect json ops label id (ops.record id) (some { task with stage := stage })
  | run (task : Task Value) : label = .run id → ops.tasks id = some task →
      task.stage.live = true →
      Effect json ops label id ((ops.record id).map Record.run) (some { task with stage := .dispatching })
  | finish (task : Task Value) (now : Timestamp) (result : Except ApiError (Value × Nat)) :
      label = .finish id now → ops.tasks id = some task → task.stage.live = true →
      Effect json ops label id ((ops.record id).map fun record => record.finish now result)
        (some { task with stage := .ended })
  | abort (now : Text → Timestamp) :
      Effect json ops label id
        ((ops.record id).map fun record =>
          if record.finished then record else record.abort (now record.summary.id))
        ((ops.tasks id).map fun task => if ops.aborts id then { task with aborted := true } else task)

theorem set_stage_effect {task : Task Value} {stage : Stage Value} (ops : Operations Value)
    (htask : ops.tasks other = some task) (hlive : stage.live = true → task.stage.live = true)
    {base : Operations Value} (hrecords : base.records = ops.records) (htasks : base.tasks = ops.tasks) :
    Effect json ops label id ((base.set_stage other task stage).record id)
      ((base.set_stage other task stage).tasks id) := by
  have hrecord : (base.set_stage other task stage).record id = ops.record id :=
    congrArg (find_record · id) hrecords
  rw [hrecord]
  show Effect json ops label id (ops.record id) (Function.update base.tasks other _ id)
  rw [htasks]
  by_cases hid : id = other
  · subst hid
    rw [Function.update_self]
    exact .moves task stage htask hlive
  · rw [Function.update_of_ne hid]
    exact .same

theorem start_effect {command : Text} {args : Value} {now : Timestamp} {removed : List Text}
    (hknown : ∀ id, ops.tasks id = none → ops.record id = none)
    (h : ops.start json other command args now removed = some ops') (id : Text) :
    Effect json ops label id (ops'.record id) (ops'.tasks id) := by
  unfold Operations.start at h
  split at h
  · simp at h
  · next hnew =>
    split at h
    · obtain rfl := Option.some.inj h
      exact .same
    · obtain ⟨records, hroom, h⟩ := Option.bind_eq_some_iff.mp h
      obtain rfl := Option.some.inj h
      have hfind : find_record (records ++ [queued_record json other command args now]) id =
          (find_record records id).or
            (if other = id then some (queued_record json other command args now) else none) := by
        unfold find_record
        rw [List.find?_append, List.find?_singleton]
        by_cases hid : other = id
        · simp [queued_record, hid]
        · simp [queued_record, hid]
      show Effect json ops label id (find_record _ id) (Function.update ops.tasks other _ id)
      rw [hfind]
      by_cases hid : id = other
      · subst hid
        have htask : ops.tasks id = none := Option.not_isSome_iff_eq_none.mp hnew
        have hrecord : find_record ops.records id = none := hknown id htask
        have hkept : find_record records id = none := by
          rcases make_room_record hroom id with hsame | ⟨hnone, _⟩
          · rw [hsame]
            exact hrecord
          · exact hnone
        rw [hkept, if_pos rfl, Option.none_or, Function.update_self]
        exact .queued command args now htask
      · rw [Function.update_of_ne hid, if_neg (Ne.symm hid), Option.or_none]
        rcases make_room_record hroom id with hsame | ⟨hnone, record, hrecord, hfinished⟩
        · rw [hsame]
          exact .same
        · rw [hnone]
          exact .removed record hrecord hfinished

theorem step_effect (hknown : ∀ id, ops.tasks id = none → ops.record id = none)
    (hnext : (operations json).next ops label = some ops') (id : Text) :
    Effect json ops label id (ops'.record id) (ops'.tasks id) := by
  cases label with
  | start other command args now removed => exact start_effect hknown hnext id
  | acquire other =>
    dsimp only [operations, Operations.next] at hnext
    split at hnext
    · next htask =>
      obtain ⟨_, hnext⟩ := Option.ite_none_right_eq_some.mp hnext
      obtain rfl := Option.some.inj hnext
      exact set_stage_effect ops htask (fun _ => rfl) rfl rfl
    · simp at hnext
  | run other =>
    dsimp only [operations, Operations.next] at hnext
    split at hnext
    · next aborted htask =>
      obtain rfl := Option.some.inj hnext
      show Effect json ops _ id ((ops.update other Record.run).record id)
        (Function.update ops.tasks other _ id)
      rw [update_record Record.run_id]
      by_cases hid : id = other
      · subst hid
        rw [Function.update_self, if_pos rfl]
        exact .run _ rfl htask rfl
      · rw [Function.update_of_ne hid, if_neg hid]
        exact .same
    · simp at hnext
  | suspend other =>
    dsimp only [operations, Operations.next] at hnext
    split at hnext
    · next htask =>
      obtain rfl := Option.some.inj hnext
      exact set_stage_effect ops htask (fun _ => rfl) rfl rfl
    · next htask =>
      obtain rfl := Option.some.inj hnext
      exact set_stage_effect ops htask (fun _ => rfl) rfl rfl
    · simp at hnext
  | resume other =>
    dsimp only [operations, Operations.next] at hnext
    split at hnext
    · next htask =>
      obtain rfl := Option.some.inj hnext
      exact set_stage_effect ops htask (fun _ => rfl) rfl rfl
    · simp at hnext
  | dispatched other outcome =>
    dsimp only [operations, Operations.next] at hnext
    split at hnext
    · next htask =>
      obtain rfl := Option.some.inj hnext
      exact set_stage_effect ops htask (fun _ => rfl) rfl rfl
    · simp at hnext
  | finish other now =>
    dsimp only [operations, Operations.next] at hnext
    split at hnext
    · next result aborted htask =>
      obtain rfl := Option.some.inj hnext
      show Effect json ops _ id ((ops.update other fun record => record.finish now result).record id)
        (Function.update ops.tasks other _ id)
      rw [update_record fun record => Record.finish_id record now result]
      by_cases hid : id = other
      · subst hid
        rw [Function.update_self, if_pos rfl]
        exact .finish _ now result rfl htask rfl
      · rw [Function.update_of_ne hid, if_neg hid]
        exact .same
    · simp at hnext
  | abort_pending now =>
    obtain rfl := Option.some.inj hnext
    have hid : ∀ record : Record Value,
        (if record.finished then record else record.abort (now record.summary.id)).summary.id =
          record.summary.id := by
      intro record
      split <;> rfl
    show Effect json ops _ id (find_record (ops.records.map _) id) _
    rw [find_record_map hid]
    exact .abort now
  | cancel other =>
    dsimp only [operations, Operations.next] at hnext
    split at hnext
    · next htask =>
      obtain rfl := Option.some.inj hnext
      exact set_stage_effect ops htask (fun _ => rfl) rfl rfl
    · next htask =>
      obtain rfl := Option.some.inj hnext
      exact set_stage_effect ops htask (fun _ => rfl) rfl rfl
    · simp at hnext

/-! ### The invariant -/

/-- The state of a record says what it carries. -/
structure Record.Agrees (record : Record Value) : Prop where
  completed : record.summary.state = .completed ↔
    record.result.isSome ∧ record.summary.error = none
  failed : record.summary.state = .failed ↔ record.summary.error.isSome ∧ record.result = none
  pending : record.summary.state = .queued ∨ record.summary.state = .running ↔
    record.result = none ∧ record.summary.error = none

/-- The operation whose record a step of its task writes. -/
def Label.writes : Label Value → Option Text
  | .run id | .finish id _ => some id
  | _ => none

/-- The step is no write of an aborted task to a record that is still there. -/
def SparesAborted (ops : Operations Value) (label : Label Value) : Prop :=
  ∀ id task, label.writes = some id → ops.tasks id = some task → task.aborted = true →
    ops.record id = none

/-- An unfinished record carries nothing, and the handle of its task. -/
structure Record.Pending (record : Record Value) (id : Text) : Prop where
  task : record.task = some id
  result : record.result = none
  error : record.summary.error = none

structure FinalityInv (ops : Operations Value) : Prop where
  known : ∀ id, ops.tasks id = none → ops.record id = none
  agrees : ∀ id record, ops.record id = some record → record.Agrees
  pending : ∀ id record, ops.record id = some record → record.finished = false → record.Pending id
  live : ∀ id task, ops.tasks id = some task → task.aborted = false → task.stage.live = true →
    ∃ record, ops.record id = some record ∧ record.finished = false

theorem finalityInv_init : FinalityInv (.new : Operations Value) where
  known _ _ := rfl
  agrees _ _ h := absurd h.symm (Option.some_ne_none _)
  pending _ _ h := absurd h.symm (Option.some_ne_none _)
  live _ _ h := absurd h.symm (Option.some_ne_none _)

theorem queued_agrees (json : SerdeJson Value) (id command : Text) (args : Value) (now : Timestamp) :
    (queued_record json id command args now).Agrees where
  completed := ⟨nofun, fun h => absurd h.1 Bool.false_ne_true⟩
  failed := ⟨nofun, fun h => absurd h.1 Bool.false_ne_true⟩
  pending := ⟨fun _ => ⟨rfl, rfl⟩, fun _ => .inl rfl⟩

theorem Record.Pending.run {record : Record Value} (h : record.Pending id) : record.run.Agrees := by
  have hresult : record.run.result = none := h.result
  have herror : record.run.summary.error = none := h.error
  refine ⟨⟨nofun, fun hsome => ?_⟩, ⟨nofun, fun hsome => ?_⟩, ⟨fun _ => ⟨hresult, herror⟩, fun _ => .inr rfl⟩⟩
  · rw [hresult] at hsome
    exact absurd hsome.1 Bool.false_ne_true
  · rw [herror] at hsome
    exact absurd hsome.1 Bool.false_ne_true

theorem Record.Pending.finish {record : Record Value} (h : record.Pending id) (now : Timestamp)
    (result : Except ApiError (Value × Nat)) : (record.finish now result).Agrees := by
  cases result with
  | ok value =>
    refine ⟨⟨fun _ => ⟨rfl, h.error⟩, fun _ => rfl⟩, ⟨nofun, fun hsome => ?_⟩, ⟨nofun, fun hnone => ?_⟩⟩
    · exact absurd hsome.2 (Option.some_ne_none _)
    · exact absurd hnone.1 (Option.some_ne_none _)
  | error error =>
    refine ⟨⟨nofun, fun hsome => ?_⟩, ⟨fun _ => ⟨rfl, h.result⟩, fun _ => rfl⟩, ⟨nofun, fun hnone => ?_⟩⟩
    · exact absurd hsome.2 (Option.some_ne_none _)
    · exact absurd hnone.2 (Option.some_ne_none _)

theorem Record.Pending.abort {record : Record Value} (h : record.Pending id) (now : Timestamp) :
    (record.abort now).Agrees where
  completed := ⟨nofun, fun hsome => absurd hsome.2 (Option.some_ne_none _)⟩
  failed := ⟨fun _ => ⟨rfl, h.result⟩, fun _ => rfl⟩
  pending := ⟨nofun, fun hnone => absurd hnone.2 (Option.some_ne_none _)⟩

theorem finish_finished (record : Record Value) (now : Timestamp)
    (result : Except ApiError (Value × Nat)) : (record.finish now result).finished = true := by
  cases result <;> rfl

/-- What a task that can write finds, unless an abort came first. -/
theorem FinalityInv.unfinished (h : FinalityInv ops) (hok : SparesAborted ops label)
    {task : Task Value} (hwrites : label.writes = some id) (htask : ops.tasks id = some task)
    (hlive : task.stage.live = true) (hrecord : ops.record id = some record) :
    record.finished = false := by
  cases haborted : task.aborted with
  | true =>
    have hnone := hok id task hwrites htask haborted
    rw [hnone] at hrecord
    exact absurd hrecord.symm (Option.some_ne_none _)
  | false =>
    obtain ⟨found, hfound, hunfinished⟩ := h.live id task htask haborted hlive
    rw [hfound, Option.some.injEq] at hrecord
    exact hrecord ▸ hunfinished

/-- An unfinished record that is found gives its task up to an abort. -/
theorem FinalityInv.aborts (h : FinalityInv ops) (hrecord : ops.record id = some record)
    (hunfinished : record.finished = false) : ops.aborts id = true := by
  have hmem : record ∈ ops.records := List.mem_of_find?_eq_some hrecord
  have hpending := h.pending id record hrecord hunfinished
  refine List.any_eq_true.mpr ⟨record, hmem, ?_⟩
  rw [hunfinished, decide_eq_true hpending.task]
  rfl

theorem finalityInv_step (h : FinalityInv ops) (hok : SparesAborted ops label)
    (hnext : (operations json).next ops label = some ops') : FinalityInv ops' := by
  have heffect := step_effect h.known hnext
  have hid : ∀ id, (ops'.tasks id = none → ops'.record id = none) ∧
      (∀ record, ops'.record id = some record → record.Agrees) ∧
      (∀ record, ops'.record id = some record → record.finished = false → record.Pending id) ∧
      (∀ task, ops'.tasks id = some task → task.aborted = false → task.stage.live = true →
        ∃ record, ops'.record id = some record ∧ record.finished = false) := by
    intro id
    have heffect := heffect id
    generalize ops'.record id = record' at heffect
    generalize ops'.tasks id = task' at heffect
    cases heffect with
    | same => exact ⟨h.known id, h.agrees id, h.pending id, h.live id⟩
    | removed record hrecord hfinished =>
      refine ⟨fun _ => rfl, fun _ hnone => ?_, fun _ hnone => ?_, fun task htask haborted hlive => ?_⟩
      · exact absurd hnone.symm (Option.some_ne_none _)
      · exact absurd hnone.symm (Option.some_ne_none _)
      · obtain ⟨found, hfound, hunfinished⟩ := h.live id task htask haborted hlive
        rw [hrecord, Option.some.injEq] at hfound
        rw [hfound, hunfinished] at hfinished
        exact absurd hfinished Bool.false_ne_true
    | queued command args now htask =>
      refine ⟨fun hnone => absurd hnone (Option.some_ne_none _), fun record hrecord => ?_,
        fun record hrecord _ => ?_, fun _ _ _ _ => ⟨_, rfl, rfl⟩⟩
      · exact Option.some.inj hrecord ▸ queued_agrees json id command args now
      · exact Option.some.inj hrecord ▸ ⟨rfl, rfl, rfl⟩
    | moves task stage htask hlive =>
      refine ⟨fun hnone => absurd hnone (Option.some_ne_none _), h.agrees id, h.pending id,
        fun moved hmoved haborted hmoved_live => ?_⟩
      obtain rfl := Option.some.inj hmoved
      exact h.live id task htask haborted (hlive hmoved_live)
    | run task hlabel htask hlive =>
      have hunfinished : ∀ record, ops.record id = some record → record.finished = false :=
        fun record hrecord => h.unfinished hok (hlabel ▸ rfl) htask hlive hrecord
      refine ⟨fun hnone => absurd hnone (Option.some_ne_none _), fun record' hrecord' => ?_,
        fun record' hrecord' _ => ?_, fun moved hmoved haborted _ => ?_⟩
      · obtain ⟨record, hrecord, rfl⟩ := Option.map_eq_some_iff.mp hrecord'
        exact (h.pending id record hrecord (hunfinished record hrecord)).run
      · obtain ⟨record, hrecord, rfl⟩ := Option.map_eq_some_iff.mp hrecord'
        have hpending := h.pending id record hrecord (hunfinished record hrecord)
        exact ⟨hpending.task, hpending.result, hpending.error⟩
      · obtain rfl := Option.some.inj hmoved
        obtain ⟨record, hrecord, hunfinished⟩ := h.live id task htask haborted hlive
        exact ⟨record.run, by rw [hrecord]; rfl, hunfinished⟩
    | finish task now result hlabel htask hlive =>
      have hunfinished : ∀ record, ops.record id = some record → record.finished = false :=
        fun record hrecord => h.unfinished hok (hlabel ▸ rfl) htask hlive hrecord
      refine ⟨fun hnone => absurd hnone (Option.some_ne_none _), fun record' hrecord' => ?_,
        fun record' hrecord' hpending => ?_, fun moved hmoved _ hmoved_live => ?_⟩
      · obtain ⟨record, hrecord, rfl⟩ := Option.map_eq_some_iff.mp hrecord'
        exact (h.pending id record hrecord (hunfinished record hrecord)).finish now result
      · obtain ⟨record, hrecord, rfl⟩ := Option.map_eq_some_iff.mp hrecord'
        rw [finish_finished] at hpending
        exact absurd hpending.symm Bool.false_ne_true
      · obtain rfl := Option.some.inj hmoved
        exact absurd hmoved_live Bool.false_ne_true
    | abort now =>
      refine ⟨fun hnone => ?_, fun record' hrecord' => ?_, fun record' hrecord' hunfinished => ?_,
        fun task' htask' haborted hlive => ?_⟩
      · rw [h.known id (Option.map_eq_none_iff.mp hnone)]
        rfl
      · obtain ⟨record, hrecord, rfl⟩ := Option.map_eq_some_iff.mp hrecord'
        cases hfinished : record.finished with
        | true => exact h.agrees id record hrecord
        | false => exact (h.pending id record hrecord hfinished).abort _
      · obtain ⟨record, hrecord, rfl⟩ := Option.map_eq_some_iff.mp hrecord'
        cases hfinished : record.finished with
        | true => simp [hfinished] at hunfinished
        | false =>
          rw [hfinished] at hunfinished
          exact absurd hunfinished.symm Bool.false_ne_true
      · -- a task that can still write lost its handle to the abort
        obtain ⟨task, htask, rfl⟩ := Option.map_eq_some_iff.mp htask'
        cases haborts : ops.aborts id with
        | true => simp [haborts] at haborted
        | false =>
          rw [haborts, if_neg Bool.false_ne_true] at haborted hlive
          obtain ⟨record, hrecord, hunfinished⟩ := h.live id task htask haborted hlive
          rw [h.aborts hrecord hunfinished] at haborts
          exact absurd haborts.symm Bool.false_ne_true
  exact ⟨fun id => (hid id).1, fun id => (hid id).2.1, fun id => (hid id).2.2.1,
    fun id => (hid id).2.2.2⟩

theorem reachable_finalityInv (h : (operations json).ReachableWhen SparesAborted ops) :
    FinalityInv ops :=
  h.invariant (fun _ hinit => hinit ▸ finalityInv_init) fun _ _ _ => finalityInv_step

/-! ### Finality -/

/-- A finished record is kept as it is, or removed for good. -/
def Settled (id : Text) (record : Record Value) (ops : Operations Value) : Prop :=
  (ops.tasks id).isSome ∧ (ops.record id = some record ∨ ops.record id = none)

theorem settled_step (h : FinalityInv ops) (hok : SparesAborted ops label)
    (hfinished : record.finished = true) (hsettled : Settled id record ops)
    (hnext : (operations json).next ops label = some ops') : Settled id record ops' := by
  obtain ⟨htask, hrecord⟩ := hsettled
  have heffect := step_effect h.known hnext id
  unfold Settled
  generalize ops'.record id = record' at heffect ⊢
  generalize ops'.tasks id = task' at heffect ⊢
  have hwrite : ∀ task, label.writes = some id → ops.tasks id = some task →
      task.stage.live = true → ops.record id = none := by
    intro task hwrites htask hlive
    rcases hrecord with hsome | hnone
    · rw [h.unfinished hok hwrites htask hlive hsome] at hfinished
      exact absurd hfinished Bool.false_ne_true
    · exact hnone
  cases heffect with
  | same => exact ⟨htask, hrecord⟩
  | removed => exact ⟨htask, .inr rfl⟩
  | queued _ _ _ hnew =>
    rw [hnew] at htask
    exact absurd htask Bool.false_ne_true
  | moves => exact ⟨rfl, hrecord⟩
  | run task hlabel hsome hlive =>
    refine ⟨rfl, .inr ?_⟩
    rw [hwrite task (hlabel ▸ rfl) hsome hlive]
    rfl
  | finish task now result hlabel hsome hlive =>
    refine ⟨rfl, .inr ?_⟩
    rw [hwrite task (hlabel ▸ rfl) hsome hlive]
    rfl
  | abort now =>
    refine ⟨by rw [Option.isSome_map]; exact htask, ?_⟩
    rcases hrecord with hsome | hnone
    · left
      rw [hsome, Option.map_some, if_pos hfinished]
    · right
      rw [hnone]
      rfl

/-- **A finished operation record is final.**  In every run in which no
    aborted task writes its record, the state of each record agrees with what
    it carries, and a record with a completion time stays as it is for as
    long as it is kept. -/
theorem finished_records_final (json : SerdeJson Value) {ops : Operations Value}
    (h : (operations json).ReachableWhen SparesAborted ops) :
    (∀ id record, ops.record id = some record → record.Agrees) ∧
      ∀ id record, ops.record id = some record → record.summary.completed_at.isSome →
        ∀ ops', (operations json).StepsWhen SparesAborted ops ops' →
          ∀ record', ops'.record id = some record' → record' = record := by
  refine ⟨(reachable_finalityInv h).agrees, fun id record hrecord hfinished ops' hrun => ?_⟩
  have hknown : (ops.tasks id).isSome := by
    cases htask : ops.tasks id with
    | none =>
      rw [(reachable_finalityInv h).known id htask] at hrecord
      exact absurd hrecord.symm (Option.some_ne_none _)
    | some task => rfl
  have hsettled : Settled id record ops' := by
    apply hrun.preserves_reachable (fun _ _ hok => hok) _ h ⟨hknown, .inl hrecord⟩
    intro s label s' hs hsettled hok hnext
    exact settled_step (reachable_finalityInv hs) hok hfinished hsettled hnext
  intro record' hrecord'
  rcases hsettled.2 with hsame | hnone
  · rw [hrecord', Option.some.injEq] at hsame
    exact hsame
  · rw [hrecord'] at hnone
    exact absurd hnone (Option.some_ne_none _)

/-! ### Runs -/

/-- Values without content. -/
def unit_json : SerdeJson Unit where
  get _ _ := none
  as_str _ := none
  to_vec _ := some []

def spares_aborted (ops : Operations Value) (label : Label Value) : Bool :=
  label.writes.all fun id => (ops.tasks id).all fun task =>
    !task.aborted || (ops.record id).isNone

theorem spares_aborted_sound (ops : Operations Value) (label : Label Value)
    (h : spares_aborted ops label = true) : SparesAborted ops label := by
  intro id task hwrites htask haborted
  unfold spares_aborted at h
  rw [hwrites, Option.all_some, htask, Option.all_some, haborted] at h
  exact Option.isNone_iff_eq_none.mp h

/-- An operation that completes and lives through a shutdown. -/
def completed_run : List (Label Unit) :=
  let id := "o".toList
  [.start id "delete_host".toList () 0 [], .acquire id, .run id, .dispatched id (.returned ()),
    .finish id 7, .abort_pending fun _ => 9]

theorem completed_operation_agrees :
    ∃ ops record, (operations unit_json).ReachableWhen SparesAborted ops ∧
      ops.record "o".toList = some record ∧ record.summary.state = .completed ∧ record.Agrees := by
  have hreach : ∃ ops, (operations unit_json).ReachableWhen SparesAborted ops ∧
      ((ops.record "o".toList).any fun record => record.summary.state = .completed) = true :=
    Machine.reachable_of_replay spares_aborted spares_aborted_sound rfl completed_run _
      (by decide +kernel)
  obtain ⟨ops, hops, hstate⟩ := hreach
  obtain ⟨record, hrecord, hcompleted⟩ := (Option.any_eq_true _ _).mp hstate
  exact ⟨ops, record, hops, hrecord, of_decide_eq_true hcompleted,
    (finished_records_final unit_json hops).1 _ record hrecord⟩

/-- The shutdown comes after the task got its permit and before it writes
    that it runs: the finished record changes, and says that it runs while it
    carries the error of the shutdown. -/
theorem aborted_task_writes :
    ∃ ops ops' record record', (operations unit_json).Reachable ops ∧
      (operations unit_json).next ops (.run "o".toList) = some ops' ∧
      ops.record "o".toList = some record ∧ record.summary.completed_at.isSome ∧
      ops'.record "o".toList = some record' ∧ record' ≠ record ∧ ¬ record'.Agrees := by
  have hreach : ∃ ops, (operations unit_json).Reachable ops ∧
      (((operations unit_json).next ops (.run "o".toList)).any fun ops' =>
        (ops.record "o".toList).any fun record => (ops'.record "o".toList).any fun record' =>
          record.finished && record.summary.state = .failed &&
            record'.summary.state = .running && record'.summary.error.isSome) = true :=
    Machine.reachable_of_replay (fun _ _ => true) (fun _ _ _ => trivial) rfl
      [.start "o".toList "delete_host".toList () 0 [], .acquire "o".toList, .abort_pending fun _ => 9]
      _ (by decide +kernel)
  obtain ⟨ops, hops, hrun⟩ := hreach
  obtain ⟨ops', hnext, hrun⟩ := (Option.any_eq_true _ _).mp hrun
  obtain ⟨record, hrecord, hrun⟩ := (Option.any_eq_true _ _).mp hrun
  obtain ⟨record', hrecord', hrun⟩ := (Option.any_eq_true _ _).mp hrun
  simp only [Bool.and_eq_true, decide_eq_true_eq] at hrun
  obtain ⟨⟨⟨hfinished, hfailed⟩, hrunning⟩, herror⟩ := hrun
  refine ⟨ops, ops', record, record', hops, hnext, hrecord, hfinished, hrecord', ?_, ?_⟩
  · intro hsame
    rw [hsame, hfailed] at hrunning
    exact absurd hrunning (by decide)
  · intro hagrees
    have hnone := (hagrees.pending.mp (.inr hrunning)).2
    rw [hnone] at herror
    exact absurd herror Bool.false_ne_true

end Server
