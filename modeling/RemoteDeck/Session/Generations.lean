import RemoteDeck.Session.Feed

/-! # Generations move forward

    The generation of a reconnect is drawn before the lock under which it is
    reserved, and an event is published after the lock under which it was
    made.  If reconnects reserve in the order of their generations and
    events are published in the order of their snapshots, generations and
    revisions only move forward, and a client that keeps the newest snapshot
    ends with that of the registry (`generations_advance`).
-/

namespace Session

variable {registry registry' : TerminalRegistry} {label : Label} {serial : Nat} {spawn : Spawn}
  {id : Text} {feed feed' : Feed} {event : LifecycleEvent}

open Newest (Increasing)

/-! ### What a step installs -/

/-- The sections that install a snapshot. -/
def Label.installs : Label → Bool
  | .commit _ | .finalize _ _ | .record _ _ | .read_fails _ _ => true
  | _ => false

/-- How the snapshot of an event gets into the registry. -/
inductive Installs (registry : TerminalRegistry) (label : Label) (event : LifecycleEvent) :
    Entry → Entry → Prop where
  | commit {serial : Nat} {spawn : Spawn} {host_id : Text} {cleanup : Option Nat}
      {record : Option TerminalRecord} (hlabel : label = .commit serial)
      (hspawn : registry.spawns serial = some spawn) (hsession : spawn.session_id = event.session_id)
      (hsnapshot : event.snapshot = spawn.snapshot (generation_of serial)) :
      Installs registry label event ⟨some (.Starting (generation_of serial) host_id false cleanup), record⟩
        ⟨some (.Running ⟨generation_of serial, spawn.host.id, serial⟩),
          some ⟨generation_of serial, event.snapshot⟩⟩
  | exit {serial : Nat} {status : ExitStatus} {spawn : Spawn} {session : TerminalSession}
      {record : TerminalRecord} (hlabel : label = .finalize serial status)
      (hspawn : registry.spawns serial = some spawn) (hsession : spawn.session_id = event.session_id)
      (hrevises : Revises record.snapshot event.snapshot)
      (hstate : event.snapshot.state = .Closed ∨ event.snapshot.state = .Offline) :
      Installs registry label event ⟨some (.Running session), some record⟩
        ⟨none, some { record with snapshot := event.snapshot }⟩
  | fail {serial : Nat} {spawn : Spawn} {session : TerminalSession} {record : TerminalRecord}
      (hlabel : label.reports serial) (hspawn : registry.spawns serial = some spawn)
      (hsession : spawn.session_id = event.session_id)
      (hgeneration : record.generation = session.generation)
      (hrevises : Revises record.snapshot event.snapshot)
      (hrevision : event.snapshot.revision = min (record.snapshot.revision + 1) MAX_REVISION)
      (hstate : event.snapshot.state = .Failed) :
      Installs registry label event ⟨some (.Running session), some record⟩
        ⟨some (.Running session), some { record with snapshot := event.snapshot }⟩

/-- What a step that can install a snapshot does: nothing, or it installs the
    snapshot of its event and removes records of sessions without a slot. -/
inductive EventOf (registry registry' : TerminalRegistry) (label : Label) : Option LifecycleEvent → Prop where
  | nothing (hentry : ∀ id, registry'.entry id = registry.entry id) :
      EventOf registry registry' label none
  | event {event : LifecycleEvent}
      (hothers : ∀ id, id ≠ event.session_id → registry'.entry id = registry.entry id ∨
        registry.slot id = none ∧ registry'.entry id = ⟨none, none⟩)
      (hinstalls : Installs registry label event (registry.entry event.session_id)
        (registry'.entry event.session_id)) :
      EventOf registry registry' label (some event)

theorem commit_event (hnext : registry.next (.commit serial) = some registry') :
    EventOf registry registry' (.commit serial) (lifecycle_event registry registry' (.commit serial)) := by
  obtain ⟨spawn, hspawn, hnext⟩ := Option.bind_eq_some_iff.mp hnext
  rw [spawn_at_eq_some] at hspawn
  -- the stage of the spawn tells whether there is an event
  have hevent : ∀ (base : TerminalRegistry) (stage : SpawnStage),
      lifecycle_event registry (base.set_stage serial spawn stage) (.commit serial) =
        if stage = .committed then some ({ spawn with stage := stage }.started serial) else none := by
    intro base stage
    have hspawns := spawns_set_stage base serial serial spawn stage
    rw [if_pos rfl] at hspawns
    simp only [lifecycle_event, hspawns, Option.bind_eq_bind, Option.bind_some]
  dsimp only at hnext
  rcases commit_running_cases registry spawn.session_id ⟨generation_of serial, spawn.host.id, serial⟩
      (spawn.snapshot (generation_of serial)) with
    hsame | ⟨committed, host_id, cleanup, hresult, hslot, hown, hothers⟩
  · dsimp only at hsame
    rw [hsame] at hnext
    obtain rfl := Option.some.inj hnext
    rw [hevent]
    exact .nothing fun id => rfl
  · dsimp only at hresult hslot
    rw [hresult] at hnext
    obtain rfl := Option.some.inj hnext
    rw [hevent, if_pos rfl]
    refine .event hothers ?_
    have hbefore : registry.entry spawn.session_id = ⟨some (.Starting (generation_of serial) host_id false
      cleanup), (registry.entry spawn.session_id).record⟩ := entry_eq_of_id rfl hslot rfl
    show Installs registry _ _ (registry.entry spawn.session_id) (committed.entry spawn.session_id)
    rw [hbefore, hown]
    exact .commit rfl hspawn.1 rfl rfl

theorem finalize_event {status : ExitStatus}
    (hnext : registry.next (.finalize serial status) = some registry') :
    EventOf registry registry' (.finalize serial status)
      (lifecycle_event registry registry' (.finalize serial status)) := by
  obtain ⟨spawn, hspawn, hnext⟩ := Option.bind_eq_some_iff.mp hnext
  rw [Option.ite_none_right_eq_some] at hnext
  obtain rfl := Option.some.inj hnext.2
  rcases finalize_exit_cases registry spawn.session_id (generation_of serial) status with
    ⟨hnone, hsame⟩ | ⟨session, record, snapshot, hrecord, hbefore, _, _, hrevises, hstate, hentry⟩
  · simp only [lifecycle_event, exit_event, hspawn, hnone, Option.bind_eq_bind, Option.bind_some,
      Option.bind_none, hsame]
    exact .nothing fun id => rfl
  · have hown := hentry spawn.session_id
    rw [if_pos rfl] at hown
    have hlookup : (finalize_exit registry spawn.session_id (generation_of serial) status).snapshots.lookup
      spawn.session_id = some { record with snapshot := snapshot } := congrArg Entry.record hown
    simp only [lifecycle_event, exit_event, hspawn, hrecord, Option.bind_eq_bind, Option.bind_some]
    rw [TerminalRegistry.set_waiter, hlookup]
    refine .event (fun id hid => .inl ((hentry id).trans (if_neg hid))) ?_
    show Installs registry _ _ (registry.entry spawn.session_id)
      ((finalize_exit registry spawn.session_id (generation_of serial) status).entry spawn.session_id)
    rw [hbefore, hown]
    exact .exit rfl hspawn rfl hrevises hstate

/-- The event of an error that the reader or the waiter records. -/
theorem error_event_of {message : Text} (hlabel : label.reports serial)
    (hspawn : registry.spawns serial = some spawn)
    (hentries : ∀ id, registry'.entry id =
      (record_terminal_error registry spawn.session_id (generation_of serial) message).entry id) :
    EventOf registry registry' label (error_event registry registry' serial message) := by
  rcases record_terminal_error_cases registry spawn.session_id (generation_of serial) message with
    ⟨hfailed, hsame⟩ | ⟨session, record, snapshot, hrecord, hfailed, hbefore, hsession, hgeneration,
      hrevises, hrevision, hstate, hentry⟩
  · have hnone : error_event registry registry' serial message = none := by
      cases hrecord : running_record registry spawn.session_id (generation_of serial) with
      | none => simp only [error_event, hspawn, hrecord, Option.bind_eq_bind, Option.bind_some, Option.bind_none]
      | some record =>
        simp only [error_event, hspawn, hrecord, Option.bind_eq_bind, Option.bind_some, hfailed record hrecord,
          and_self, if_true]
    rw [hnone]
    exact .nothing fun id => (hentries id).trans (by rw [hsame])
  · have hown := (hentries spawn.session_id).trans (hentry spawn.session_id)
    rw [if_pos rfl] at hown
    have hlookup : registry'.snapshots.lookup spawn.session_id = some { record with snapshot := snapshot } :=
      congrArg Entry.record hown
    simp only [error_event, hspawn, hrecord, Option.bind_eq_bind, Option.bind_some, if_neg hfailed, hlookup]
    refine .event (fun id hid => .inl ((hentries id).trans ((hentry id).trans (if_neg hid)))) ?_
    show Installs registry _ _ (registry.entry spawn.session_id) (registry'.entry spawn.session_id)
    rw [hbefore, hown]
    exact .fail hlabel hspawn rfl (hgeneration.trans hsession.symm) hrevises hrevision hstate

/-- **A step installs the snapshot of the event that it returns**, and no other. -/
theorem event_of_step (hnext : registry.next label = some registry') (hinstalls : label.installs = true) :
    EventOf registry registry' label (lifecycle_event registry registry' label) := by
  cases label with
  | commit serial => exact commit_event hnext
  | finalize serial status => exact finalize_event hnext
  | record serial error =>
    obtain ⟨spawn, hspawn, hnext⟩ := Option.bind_eq_some_iff.mp hnext
    rw [Option.ite_none_right_eq_some] at hnext
    obtain rfl := Option.some.inj hnext.2
    exact error_event_of (.inl ⟨error, rfl⟩) hspawn fun id => rfl
  | read_fails serial failure =>
    obtain ⟨spawn, hspawn, hnext⟩ := Option.bind_eq_some_iff.mp hnext
    rw [Option.ite_none_right_eq_some] at hnext
    obtain rfl := Option.some.inj hnext.2
    exact error_event_of (.inr ⟨failure, rfl⟩) hspawn fun id => rfl
  | _ => simp [Label.installs] at hinstalls

/-- A change of an entry that installs nothing. -/
structure Quiet (registry : TerminalRegistry) (label : Label) (id : Text) (before after : Entry) : Prop where
  record : ∀ record, after.record = some record → before.record = some record
  running : ∀ session, after.slot = some (.Running session) →
    before.slot = some (.Running session) ∧ after.record = before.record
  starting : ∀ generation host_id close_requested cleanup,
    after.slot = some (.Starting generation host_id close_requested cleanup) →
      (∃ host_id close_requested cleanup,
        before.slot = some (.Starting generation host_id close_requested cleanup)) ∨
      ∃ serial spawn, label = .reserve serial ∧ registry.spawns serial = some spawn ∧
        spawn.stage = .drawn before.record.isSome ∧ spawn.session_id = id ∧
          generation = generation_of serial

theorem Quiet.same (registry : TerminalRegistry) (label : Label) (id : Text) (entry : Entry) :
    Quiet registry label id entry entry :=
  ⟨fun _ h => h, fun _ h => ⟨h, rfl⟩, fun _ _ _ _ h => .inl ⟨_, _, _, h⟩⟩

theorem Quiet.gone (registry : TerminalRegistry) (label : Label) (id : Text) (before : Entry) :
    Quiet registry label id before ⟨none, none⟩ :=
  ⟨nofun, nofun, nofun⟩

theorem Change.quiet {before after : Entry} (h : Change registry label id before after)
    (hinstalls : label.installs = false) : Quiet registry label id before after := by
  cases h with
  | same => exact .same ..
  | close | forget => exact .gone ..
  | reserve hlabel hspawn hstage hsession hrecord =>
    refine ⟨fun _ h => h, nofun, ?_⟩
    intro generation host_id close_requested cleanup hslot
    simp only [Option.some.injEq, TerminalSlot.Starting.injEq] at hslot
    exact .inr ⟨_, _, hlabel, hspawn, hrecord ▸ hstage, hsession, hslot.1.symm⟩
  | register | mark =>
    refine ⟨fun _ h => h, nofun, ?_⟩
    intro generation host_id close_requested cleanup hslot
    simp only [Option.some.injEq, TerminalSlot.Starting.injEq] at hslot
    exact .inl ⟨_, _, _, by rw [hslot.1]⟩
  | release | abort =>
    refine ⟨?_, nofun, nofun⟩
    intro record hrecord
    dsimp only at hrecord
    split at hrecord
    · simp at hrecord
    · exact hrecord
  | commit hlabel | exit hlabel =>
    rw [hlabel] at hinstalls
    simp [Label.installs] at hinstalls
  | fail hlabel =>
    rcases hlabel with ⟨_, rfl⟩ | ⟨_, rfl⟩ <;> simp [Label.installs] at hinstalls

/-- Where a step installs nothing, it is quiet. -/
theorem quiet_of_step (hnext : registry.next label = some registry')
    (hid : ∀ event, lifecycle_event registry registry' label = some event → id ≠ event.session_id) :
    Quiet registry label id (registry.entry id) (registry'.entry id) := by
  cases hinstalls : label.installs with
  | false => exact (step_change hnext id).quiet hinstalls
  | true =>
    have hevent := event_of_step hnext hinstalls
    generalize lifecycle_event registry registry' label = returned at hevent hid
    cases hevent with
    | nothing hentry =>
      rw [hentry]
      exact .same ..
    | event hothers _ =>
      rcases hothers id (hid _ rfl) with hsame | ⟨_, hgone⟩
      · rw [hsame]
        exact .same ..
      · rw [hgone]
        exact .gone ..

theorem installs_of_step (hnext : registry.next label = some registry')
    (hevent : lifecycle_event registry registry' label = some event) :
    Installs registry label event (registry.entry event.session_id)
      (registry'.entry event.session_id) := by
  cases hinstalls : label.installs with
  | false => cases label <;> simp_all [Label.installs, lifecycle_event]
  | true =>
    have hof := event_of_step hnext hinstalls
    rw [hevent] at hof
    cases hof with
    | event _ hinstalls => exact hinstalls

/-! ### The order of reservations and of publications -/

def TerminalSnapshot.rank (snapshot : TerminalSnapshot) : ℕ ×ₗ ℕ :=
  toLex (snapshot.generation, snapshot.revision)

def LifecycleEvent.rank (event : LifecycleEvent) : ℕ ×ₗ ℕ := event.snapshot.rank

theorem isNewer_iff (previous incoming : TerminalSnapshot) :
    isNewer previous incoming = true ↔ previous.rank < incoming.rank := by
  unfold isNewer TerminalSnapshot.rank
  rw [Prod.Lex.toLex_lt_toLex, Bool.or_eq_true, Bool.and_eq_true, decide_eq_true_eq, decide_eq_true_eq,
    decide_eq_true_eq, eq_comm]

/-- Every event that was returned, those that wait at the end. -/
def Feed.history (feed : Feed) : List LifecycleEvent := feed.published ++ feed.pending

/-- A reconnect reserves with a generation after that of the record, and an
    event is published after the older events of its session.  The counters
    do not run out. -/
def InOrder (feed : Feed) (label : FeedLabel) : Prop :=
  match label with
  | .step (.start _ _ _) | .step (.reconnect _ _) => feed.registry.next_generation + 1 < GENERATIONS
  | .step (.reserve serial) => ∀ spawn record, feed.registry.spawns serial = some spawn →
      feed.registry.snapshots.lookup spawn.session_id = some record →
        record.generation < generation_of serial
  | .step (.finalize serial _) | .step (.record serial _) | .step (.read_fails serial _) =>
      ∀ spawn record, feed.registry.spawns serial = some spawn →
        feed.registry.snapshots.lookup spawn.session_id = some record →
          record.snapshot.revision < MAX_REVISION
  | .step _ => True
  | .publish event => ∀ other ∈ feed.pending, other.session_id = event.session_id →
      isNewer other.snapshot event.snapshot = false

theorem InOrder.fits (h : InOrder feed (.step label))
    (hcounter : feed.registry.next_generation < GENERATIONS) : label.fits feed.registry := by
  unfold Label.fits
  cases label with
  | start | reconnect => exact h
  | _ => simpa only [Label.draws, Nat.add_zero] using hcounter

/-! ### The invariant -/

/-- The record of a session is the newest snapshot of its events. -/
def Latest (feed : Feed) (id : Text) (record : TerminalRecord) : Prop :=
  record.snapshot.generation = record.generation ∧
    ∃ last ∈ feed.history, last.session_id = id ∧ last.snapshot = record.snapshot ∧
      ∀ event ∈ feed.history, event.session_id = id → event = last ∨ event.rank < last.rank

/-- Nothing is known of a session. -/
structure Unknown (feed : Feed) (id : Text) : Prop where
  slot : feed.registry.slot id = none
  record : feed.registry.snapshots.lookup id = none
  history : ∀ event ∈ feed.history, event.session_id ≠ id

structure FeedInv (feed : Feed) : Prop where
  stages : StageInv feed.registry
  history : Increasing LifecycleEvent.session_id LifecycleEvent.rank feed.history
  named : ∀ event ∈ feed.history, event.snapshot.session_id = event.session_id ∧
    ∃ serial spawn, SpawnOf feed.registry event.session_id event.snapshot.generation serial spawn
  record : ∀ id record, feed.registry.snapshots.lookup id = some record → Latest feed id record
  running : ∀ id session, feed.registry.slot id = some (.Running session) →
    ∃ record, feed.registry.snapshots.lookup id = some record ∧
      (record.snapshot.state = .Running ∨ record.snapshot.state = .Failed)
  starting : ∀ id generation host_id close_requested cleanup,
    feed.registry.slot id = some (.Starting generation host_id close_requested cleanup) →
      ∀ event ∈ feed.history, event.session_id = id → event.snapshot.generation < generation
  unknown : ∀ serial spawn, feed.registry.spawns serial = some spawn → spawn.stage = .drawn false →
    Unknown feed spawn.session_id ∧ ∀ other found, feed.registry.spawns other = some found →
      found.session_id = spawn.session_id → found.stage = .drawn false → other = serial
  committed : feed.committed.Pairwise fun snapshot next =>
    snapshot.session_id = next.session_id → snapshot.generation < next.generation
  committed_event : ∀ snapshot ∈ feed.committed, ∃ event ∈ feed.history, event.snapshot = snapshot

/-- What a step of the registry leaves of a feed. -/
def Feed.after (feed : Feed) (label : Label) (registry : TerminalRegistry) : Feed :=
  let event := lifecycle_event feed.registry registry label
  { feed with
    registry := registry
    pending := feed.pending ++ event.toList
    committed := feed.committed ++ committed_by label event }

theorem history_after (feed : Feed) (label : Label) (registry : TerminalRegistry) :
    (feed.after label registry).history =
      feed.history ++ (lifecycle_event feed.registry registry label).toList := by
  unfold Feed.after Feed.history
  exact (List.append_assoc ..).symm

theorem mem_history_after {registry' : TerminalRegistry} (h : event ∈ (feed.after label registry').history) :
    event ∈ feed.history ∨ lifecycle_event feed.registry registry' label = some event := by
  rw [history_after] at h
  exact (List.mem_append.mp h).imp_right Option.mem_toList.mp

theorem rank_lt_of_generation {old new : LifecycleEvent}
    (h : old.snapshot.generation < new.snapshot.generation) : old.rank < new.rank :=
  Prod.Lex.toLex_lt_toLex.mpr (.inl h)

theorem generation_le_of_rank {old new : LifecycleEvent} (h : old.rank < new.rank) :
    old.snapshot.generation ≤ new.snapshot.generation := by
  rcases Prod.Lex.toLex_lt_toLex.mp h with hlt | ⟨heq, _⟩
  · exact Nat.le_of_lt hlt
  · exact Nat.le_of_eq heq

/-- A revised snapshot is newer than those of its session. -/
theorem Latest.newer {record : TerminalRecord} (h : Latest feed event.session_id record)
    (hrevises : Revises record.snapshot event.snapshot)
    (hrevision : event.snapshot.revision = min (record.snapshot.revision + 1) MAX_REVISION)
    (hroom : record.snapshot.revision < MAX_REVISION) :
    ∀ old ∈ feed.history, old.session_id = event.session_id → old.rank < event.rank := by
  obtain ⟨_, last, _, _, hsnapshot, hlast⟩ := h
  have hlt : last.rank < event.rank := by
    refine Prod.Lex.toLex_lt_toLex.mpr (.inr ⟨?_, ?_⟩)
    · show last.snapshot.generation = event.snapshot.generation
      rw [hsnapshot, hrevises.generation]
    · show last.snapshot.revision < event.snapshot.revision
      rw [hsnapshot, hrevision]
      omega
  intro old hold hsession
  rcases hlast old hold hsession with rfl | hless
  · exact hlt
  · exact hless.trans hlt

/-- The snapshot that is installed is newer than those of its session, and a
    commit installs one of a later generation. -/
theorem FeedInv.newer (h : FeedInv feed) (hok : InOrder feed (.step label))
    (hnext : feed.registry.next label = some registry')
    (hevent : lifecycle_event feed.registry registry' label = some event) :
    (∀ old ∈ feed.history, old.session_id = event.session_id → old.rank < event.rank) ∧
      ∀ serial, label = .commit serial → ∀ old ∈ feed.history, old.session_id = event.session_id →
        old.snapshot.generation < event.snapshot.generation := by
  have hinstalls := installs_of_step hnext hevent
  have hstarting : ∀ generation host_id close_requested cleanup,
      (feed.registry.entry event.session_id).slot =
        some (.Starting generation host_id close_requested cleanup) →
      ∀ old ∈ feed.history, old.session_id = event.session_id → old.snapshot.generation < generation :=
    h.starting event.session_id
  have hlatest : ∀ record, (feed.registry.entry event.session_id).record = some record →
      Latest feed event.session_id record := h.record event.session_id
  have hrunning : ∀ session, (feed.registry.entry event.session_id).slot = some (.Running session) →
      ∃ record, (feed.registry.entry event.session_id).record = some record ∧
        (record.snapshot.state = .Running ∨ record.snapshot.state = .Failed) := h.running event.session_id
  have hroom : ∀ record, (feed.registry.entry event.session_id).record = some record →
      ∀ serial spawn, feed.registry.spawns serial = some spawn → spawn.session_id = event.session_id →
        (label.reports serial ∨ ∃ status, label = .finalize serial status) →
          record.snapshot.revision < MAX_REVISION := by
    intro record hrecord serial spawn hspawn hsession hlabel
    rw [← hsession] at hrecord
    rcases hlabel with (⟨_, rfl⟩ | ⟨_, rfl⟩) | ⟨_, rfl⟩ <;> exact hok spawn record hspawn hrecord
  generalize feed.registry.entry event.session_id = before at hinstalls hstarting hlatest hrunning hroom
  generalize registry'.entry event.session_id = after at hinstalls
  cases hinstalls with
  | commit _ _ _ hsnapshot =>
    have hgeneration : ∀ old ∈ feed.history, old.session_id = event.session_id →
        old.snapshot.generation < event.snapshot.generation := by
      intro old hold hsession
      rw [hsnapshot]
      exact hstarting _ _ _ _ rfl old hold hsession
    exact ⟨fun old hold hsession => rank_lt_of_generation (hgeneration old hold hsession),
      fun _ _ => hgeneration⟩
  | @exit serial status spawn session record hlabel hspawn hsession hrevises hstate =>
    refine ⟨(hlatest record rfl).newer hrevises ?_
      (hroom record rfl serial spawn hspawn hsession (.inr ⟨status, hlabel⟩)), ?_⟩
    · rcases hrevises.revision with hsame | hrevision
      · obtain ⟨found, hfound, hwas⟩ := hrunning session rfl
        obtain rfl := Option.some.inj hfound
        rw [hsame] at hstate
        rcases hwas with hwas | hwas <;> simp [hwas] at hstate
      · exact hrevision
    · intro other hother
      rw [hlabel] at hother
      exact nomatch hother
  | @fail serial spawn session record hlabel hspawn hsession _ hrevises hrevision =>
    refine ⟨(hlatest record rfl).newer hrevises hrevision
      (hroom record rfl serial spawn hspawn hsession (.inl hlabel)), ?_⟩
    intro other hother
    rcases hlabel with ⟨_, hlabel⟩ | ⟨_, hlabel⟩
    · rw [hlabel] at hother
      exact nomatch hother
    · rw [hlabel] at hother
      exact nomatch hother

theorem history_of_other (hother : ∀ returned, lifecycle_event feed.registry registry' label = some returned →
      id ≠ returned.session_id) (hevent : event ∈ (feed.after label registry').history)
    (hsession : event.session_id = id) : event ∈ feed.history := by
  rcases mem_history_after hevent with hold | hnew
  · exact hold
  · exact absurd hsession.symm (hother event hnew)

theorem FeedInv.record_step (h : FeedInv feed) (hok : InOrder feed (.step label))
    (hnext : feed.registry.next label = some registry') {record : TerminalRecord}
    (hrecord : registry'.snapshots.lookup id = some record) :
    Latest (feed.after label registry') id record := by
  by_cases hid : ∃ event, lifecycle_event feed.registry registry' label = some event ∧ id = event.session_id
  · obtain ⟨event, hevent, rfl⟩ := hid
    have hinstalls := installs_of_step hnext hevent
    have hnewer := (h.newer hok hnext hevent).1
    have hmem : event ∈ (feed.after label registry').history := by
      rw [history_after, hevent]
      exact List.mem_append_right _ List.mem_cons_self
    have hlast : ∀ other ∈ (feed.after label registry').history,
        other.session_id = event.session_id → other = event ∨ other.rank < event.rank := by
      intro other hother hsession
      rcases mem_history_after hother with hold | hnew
      · exact .inr (hnewer other hold hsession)
      · rw [hevent, Option.some.injEq] at hnew
        exact .inl hnew.symm
    have hlatest : ∀ found, (feed.registry.entry event.session_id).record = some found →
        found.snapshot.generation = found.generation := fun found hfound =>
      (h.record event.session_id found hfound).1
    have hrecord : (registry'.entry event.session_id).record = some record := hrecord
    generalize feed.registry.entry event.session_id = before at hinstalls hlatest
    generalize registry'.entry event.session_id = after at hinstalls hrecord
    cases hinstalls with
    | commit _ _ _ hsnapshot =>
      obtain rfl := Option.some.inj hrecord
      exact ⟨by rw [hsnapshot]; rfl, event, hmem, rfl, rfl, hlast⟩
    | @exit _ _ _ _ old _ _ _ hrevises | @fail _ _ _ old _ _ _ _ hrevises =>
      obtain rfl := Option.some.inj hrecord
      exact ⟨hrevises.generation.trans (hlatest old rfl), event, hmem, rfl, rfl, hlast⟩
  · have hother : ∀ returned, lifecycle_event feed.registry registry' label = some returned →
        id ≠ returned.session_id := fun returned hreturned hsame => hid ⟨returned, hreturned, hsame⟩
    have hquiet := quiet_of_step hnext hother
    obtain ⟨hgeneration, last, hmem, hsession, hsnapshot, hlast⟩ :=
      h.record id record (hquiet.record record hrecord)
    refine ⟨hgeneration, last, ?_, hsession, hsnapshot, ?_⟩
    · rw [history_after]
      exact List.mem_append_left _ hmem
    · intro event hevent hid
      exact hlast event (history_of_other hother hevent hid) hid

theorem FeedInv.running_step (h : FeedInv feed) (hnext : feed.registry.next label = some registry')
    {session : TerminalSession} (hslot : registry'.slot id = some (.Running session)) :
    ∃ record, registry'.snapshots.lookup id = some record ∧
      (record.snapshot.state = .Running ∨ record.snapshot.state = .Failed) := by
  by_cases hid : ∃ event, lifecycle_event feed.registry registry' label = some event ∧ id = event.session_id
  · obtain ⟨event, hevent, rfl⟩ := hid
    have hinstalls := installs_of_step hnext hevent
    have hslot : (registry'.entry event.session_id).slot = some (.Running session) := hslot
    show ∃ record, (registry'.entry event.session_id).record = some record ∧ _
    generalize feed.registry.entry event.session_id = before at hinstalls
    generalize registry'.entry event.session_id = after at hinstalls hslot
    cases hinstalls with
    | commit _ _ _ hsnapshot =>
      refine ⟨_, rfl, .inl ?_⟩
      rw [hsnapshot]
      rfl
    | exit => simp at hslot
    | fail _ _ _ _ _ _ hstate => exact ⟨_, rfl, .inr hstate⟩
  · have hquiet := quiet_of_step hnext fun returned hreturned hsame => hid ⟨returned, hreturned, hsame⟩
    obtain ⟨hwas, hsame⟩ := hquiet.running session hslot
    have hrecord : registry'.snapshots.lookup id = feed.registry.snapshots.lookup id := hsame
    rw [hrecord]
    exact h.running id session hwas

theorem FeedInv.starting_step (h : FeedInv feed) (hok : InOrder feed (.step label))
    (hnext : feed.registry.next label = some registry') {generation : Nat} {host_id : Text}
    {close_requested : Bool} {cleanup : Option Nat}
    (hslot : registry'.slot id = some (.Starting generation host_id close_requested cleanup)) :
    ∀ event ∈ (feed.after label registry').history, event.session_id = id →
      event.snapshot.generation < generation := by
  have hslot : (registry'.entry id).slot = some (.Starting generation host_id close_requested cleanup) :=
    hslot
  by_cases hid : ∃ event, lifecycle_event feed.registry registry' label = some event ∧ id = event.session_id
  · obtain ⟨event, hevent, rfl⟩ := hid
    have hinstalls := installs_of_step hnext hevent
    generalize registry'.entry event.session_id = after at hinstalls hslot
    generalize feed.registry.entry event.session_id = before at hinstalls
    cases hinstalls with
    | commit | exit | fail => simp at hslot
  · have hother : ∀ returned, lifecycle_event feed.registry registry' label = some returned →
        id ≠ returned.session_id := fun returned hreturned hsame => hid ⟨returned, hreturned, hsame⟩
    have hquiet := quiet_of_step hnext hother
    intro event hevent hsession
    have hold := history_of_other hother hevent hsession
    rcases hquiet.starting _ _ _ _ hslot with ⟨_, _, _, hwas⟩ | ⟨serial, spawn, hlabel, hspawn, hstage, hname, rfl⟩
    · exact h.starting id _ _ _ _ hwas event hold hsession
    · subst hlabel
      cases hrecord : feed.registry.snapshots.lookup id with
      | none =>
        have hnone : (feed.registry.entry id).record = none := hrecord
        rw [hnone] at hstage
        exact absurd (hsession.trans hname.symm) ((h.unknown serial spawn hspawn hstage).1.history event hold)
      | some record =>
        have hlt : record.generation < generation_of serial := hok spawn record hspawn (hname ▸ hrecord)
        obtain ⟨hgeneration, last, _, _, hsnapshot, hlast⟩ := h.record id record hrecord
        have hle : event.snapshot.generation ≤ last.snapshot.generation := by
          rcases hlast event hold hsession with rfl | hrank
          · exact Nat.le_refl _
          · exact generation_le_of_rank hrank
        rw [hsnapshot, hgeneration] at hle
        omega

/-- A session of which nothing is known stays so, until its start reserves a slot. -/
theorem Unknown.step (h : Unknown feed id) (hnext : feed.registry.next label = some registry')
    (hreserve : ∀ serial spawn, label = .reserve serial → feed.registry.spawns serial = some spawn →
      spawn.stage = .drawn false → spawn.session_id ≠ id) :
    Unknown (feed.after label registry') id := by
  have hbefore : feed.registry.entry id = ⟨none, none⟩ := entry_eq_of_id rfl h.slot h.record
  have hother : ∀ returned, lifecycle_event feed.registry registry' label = some returned →
      id ≠ returned.session_id := by
    rintro returned hreturned rfl
    have hinstalls := installs_of_step hnext hreturned
    rw [hbefore] at hinstalls
    exact nomatch hinstalls
  have hquiet := quiet_of_step hnext hother
  rw [hbefore] at hquiet
  refine ⟨?_, ?_, ?_⟩
  · rw [Option.eq_none_iff_forall_ne_some]
    intro slot hslot
    cases slot with
    | Running session => exact absurd (hquiet.running session hslot).1 (Option.some_ne_none _).symm
    | Starting generation host_id close_requested cleanup =>
      rcases hquiet.starting _ _ _ _ hslot with ⟨_, _, _, hwas⟩ | ⟨serial, spawn, hlabel, hspawn, hstage, hname, _⟩
      · exact absurd hwas (Option.some_ne_none _).symm
      · exact hreserve serial spawn hlabel hspawn hstage hname
  · rw [Option.eq_none_iff_forall_ne_some]
    intro record hrecord
    exact absurd (hquiet.record record hrecord) (Option.some_ne_none _).symm
  · intro event hevent hsession
    exact h.history event (history_of_other hother hevent hsession) hsession

/-- Nothing is known of a session that no call has named. -/
theorem FeedInv.unknown_of_new (h : FeedInv feed) (hnew : feed.registry.is_new id = true) :
    Unknown feed id ∧ ∀ serial spawn, feed.registry.spawns serial = some spawn → spawn.session_id ≠ id := by
  have hnamed : ∀ serial spawn, feed.registry.spawns serial = some spawn → spawn.session_id ≠ id := by
    intro serial spawn hspawn
    have hrange := List.all_eq_true.mp hnew serial (List.mem_range.mpr (h.stages.drawn serial spawn hspawn))
    rw [hspawn] at hrange
    exact of_decide_eq_true hrange
  have hspawn : ∀ generation serial spawn, ¬ SpawnOf feed.registry id generation serial spawn :=
    fun generation serial spawn hof => hnamed serial spawn hof.1 hof.2.1
  refine ⟨⟨?_, ?_, ?_⟩, hnamed⟩
  · rw [Option.eq_none_iff_forall_ne_some]
    intro slot hslot
    obtain ⟨serial, spawn, hof, _⟩ := h.stages.slot id slot hslot
    exact hspawn _ serial spawn hof
  · rw [Option.eq_none_iff_forall_ne_some]
    intro record hrecord
    obtain ⟨⟨serial, spawn, hof⟩, _⟩ := h.stages.record id record hrecord
    exact hspawn _ serial spawn hof
  · rintro event hevent rfl
    obtain ⟨_, serial, spawn, hof⟩ := h.named event hevent
    exact hspawn _ serial spawn hof

/-- A start that has not reserved was there before, or has just been called. -/
theorem drawn_of_step (hnext : registry.next label = some registry')
    (hspawn : registry'.spawns serial = some spawn) (hstage : spawn.stage = .drawn false) :
    (registry.spawns serial = some spawn ∧ label ≠ .reserve serial) ∨
      (serial = registry.next_generation ∧ ∃ host title, label = .start spawn.session_id host title) := by
  cases step_advances hnext serial with
  | same hsame hreserve => exact .inl ⟨hsame ▸ hspawn, hreserve⟩
  | @draw drawn _ hserial hdraws hdrawn =>
    subst hserial
    refine .inr ⟨rfl, ?_⟩
    cases label with
    | start session_id host title =>
      obtain rfl := Option.some.inj hnext
      have hself : (Session.start registry session_id host title).spawns registry.next_generation =
        some _ := Function.update_self ..
      rw [hself, Option.some.injEq] at hspawn
      subst hspawn
      exact ⟨host, title, rfl⟩
    | reconnect session_id host =>
      obtain rfl := Option.some.inj hnext
      have hself : (Session.reconnect registry session_id host).spawns registry.next_generation =
        some _ := Function.update_self ..
      rw [hself, Option.some.injEq] at hspawn
      subst hspawn
      simp at hstage
    | _ => simp [Label.draws] at hdraws
  | move _ hspawn' _ hmoves =>
    rw [hspawn, Option.some.injEq] at hspawn'
    have hnot := hmoves.not_drawn
    rw [← hspawn', hstage] at hnot
    simp [SpawnStage.is_drawn] at hnot

theorem FeedInv.unknown_step (h : FeedInv feed) (henabled : feed.enabled label = true)
    (hnext : feed.registry.next label = some registry') (hspawn : registry'.spawns serial = some spawn)
    (hstage : spawn.stage = .drawn false) :
    Unknown (feed.after label registry') spawn.session_id ∧
      ∀ other found, registry'.spawns other = some found → found.session_id = spawn.session_id →
        found.stage = .drawn false → other = serial := by
  rcases drawn_of_step hnext hspawn hstage with ⟨hold, hlabel⟩ | ⟨hserial, host, title, rfl⟩
  · obtain ⟨hunknown, hunique⟩ := h.unknown serial spawn hold hstage
    refine ⟨hunknown.step hnext ?_, ?_⟩
    · intro other found hreserve hfound hdrawn hsession
      exact hlabel (hunique other found hfound hsession hdrawn ▸ hreserve)
    · intro other found hfound hsession hdrawn
      rcases drawn_of_step hnext hfound hdrawn with ⟨hwas, _⟩ | ⟨_, host, title, rfl⟩
      · exact hunique other found hwas hsession hdrawn
      · have hnew := (h.unknown_of_new henabled).2 serial spawn hold
        exact absurd hsession.symm hnew
  · obtain ⟨hunknown, hnamed⟩ := h.unknown_of_new henabled
    refine ⟨hunknown.step hnext ?_, ?_⟩
    · intro other found hreserve
      simp at hreserve
    · intro other found hfound hsession hdrawn
      rcases drawn_of_step hnext hfound hdrawn with ⟨hwas, _⟩ | ⟨hother, _⟩
      · exact absurd hsession (hnamed other found hwas)
      · exact hother.trans hserial.symm

theorem FeedInv.named_step (h : FeedInv feed) (hok : InOrder feed (.step label))
    (hnext : feed.registry.next label = some registry') :
    ∀ event ∈ (feed.after label registry').history, event.snapshot.session_id = event.session_id ∧
      ∃ serial spawn, SpawnOf registry' event.session_id event.snapshot.generation serial spawn := by
  intro event hevent
  rcases mem_history_after hevent with hold | hnew
  · obtain ⟨hsession, serial, spawn, hspawn⟩ := h.named event hold
    obtain ⟨spawn', hspawn', _⟩ := hspawn.step (h.stages.drawn serial spawn hspawn.1) hnext
    exact ⟨hsession, serial, spawn', hspawn'⟩
  · have hinstalls := installs_of_step hnext hnew
    have hrecorded : ∀ record, (registry'.entry event.session_id).record = some record →
        ∃ serial spawn, SpawnOf registry' event.session_id record.generation serial spawn :=
      fun record hrecord => (h.stages.record_step hnext hrecord).1
    have hlatest : ∀ record, (registry'.entry event.session_id).record = some record →
        record.snapshot.generation = record.generation := fun record hrecord =>
      (h.record_step hok hnext hrecord).1
    have hnamed : ∀ record, (feed.registry.entry event.session_id).record = some record →
        record.snapshot.session_id = event.session_id := by
      intro record hrecord
      obtain ⟨_, last, hmem, hsession, hsnapshot, _⟩ := h.record event.session_id record hrecord
      rw [← hsnapshot, (h.named last hmem).1, hsession]
    generalize feed.registry.entry event.session_id = before at hinstalls hnamed
    generalize registry'.entry event.session_id = after at hinstalls hrecorded hlatest
    cases hinstalls with
    | commit _ _ hsession hsnapshot =>
      refine ⟨by rw [hsnapshot]; exact hsession, ?_⟩
      have hgeneration := hlatest _ rfl
      exact hgeneration ▸ hrecorded _ rfl
    | @exit _ _ _ _ record _ _ _ hrevises | @fail _ _ _ record _ _ _ _ hrevises =>
      refine ⟨hrevises.session_id.trans (hnamed record rfl), ?_⟩
      have hgeneration := hlatest _ rfl
      exact hgeneration ▸ hrecorded _ rfl

theorem FeedInv.committed_step (h : FeedInv feed) (hok : InOrder feed (.step label))
    (hnext : feed.registry.next label = some registry') :
    ((feed.after label registry').committed.Pairwise fun snapshot next =>
        snapshot.session_id = next.session_id → snapshot.generation < next.generation) ∧
      ∀ snapshot ∈ (feed.after label registry').committed,
        ∃ event ∈ (feed.after label registry').history, event.snapshot = snapshot := by
  have hkept : ∀ snapshot ∈ feed.committed,
      ∃ event ∈ (feed.after label registry').history, event.snapshot = snapshot := by
    intro snapshot hsnapshot
    obtain ⟨event, hevent, hsame⟩ := h.committed_event snapshot hsnapshot
    refine ⟨event, ?_, hsame⟩
    rw [history_after]
    exact List.mem_append_left _ hevent
  by_cases hcommit : ∃ serial event, label = .commit serial ∧
      lifecycle_event feed.registry registry' label = some event
  · obtain ⟨serial, event, hlabel, hevent⟩ := hcommit
    have hafter : (feed.after label registry').committed = feed.committed ++ [event.snapshot] := by
      unfold Feed.after committed_by
      rw [hevent, hlabel]
      rfl
    have hmem : event ∈ (feed.after label registry').history := by
      rw [history_after, hevent]
      exact List.mem_append_right _ List.mem_cons_self
    have hnamed := (h.named_step hok hnext event hmem).1
    rw [hafter]
    constructor
    · refine List.pairwise_append.mpr ⟨h.committed, List.pairwise_singleton _ _, ?_⟩
      intro snapshot hsnapshot next hnew hsession
      obtain rfl := List.mem_singleton.mp hnew
      obtain ⟨old, hold, rfl⟩ := h.committed_event snapshot hsnapshot
      refine (h.newer hok hnext hevent).2 serial hlabel old hold ?_
      rw [← (h.named old hold).1, hsession, hnamed]
    · intro snapshot hsnapshot
      rcases List.mem_append.mp hsnapshot with hold | hnew
      · exact hkept snapshot hold
      · exact ⟨event, hmem, (List.mem_singleton.mp hnew).symm⟩
  · have hafter : (feed.after label registry').committed = feed.committed := by
      have hnone : committed_by label (lifecycle_event feed.registry registry' label) = [] := by
        cases label with
        | commit serial =>
          cases hevent : lifecycle_event feed.registry registry' (.commit serial) with
          | none => rfl
          | some event => exact absurd ⟨serial, event, rfl, hevent⟩ hcommit
        | _ => rfl
      unfold Feed.after
      dsimp only
      rw [hnone, List.append_nil]
    rw [hafter]
    exact ⟨h.committed, hkept⟩

theorem FeedInv.step (h : FeedInv feed) (henabled : feed.enabled label = true)
    (hok : InOrder feed (.step label)) (hnext : feed.registry.next label = some registry') :
    FeedInv (feed.after label registry') := by
  obtain ⟨hcommitted, hcommitted_event⟩ := h.committed_step hok hnext
  refine ⟨h.stages.step (hok.fits h.stages.counter) hnext, ?_, h.named_step hok hnext,
    fun id record => h.record_step hok hnext, fun id session => h.running_step hnext,
    fun id generation host_id close_requested cleanup => h.starting_step hok hnext,
    fun serial spawn => h.unknown_step henabled hnext, hcommitted, hcommitted_event⟩
  rw [history_after]
  cases hevent : lifecycle_event feed.registry registry' label with
  | none =>
    rw [Option.toList_none, List.append_nil]
    exact h.history
  | some event => exact h.history.append (h.newer hok hnext hevent).1

/-- Publishing moves an event, and nothing else. -/
theorem FeedInv.publish (h : FeedInv feed) (hok : InOrder feed (.publish event))
    (hmem : event ∈ feed.pending) :
    FeedInv { feed with
      pending := feed.pending.erase event
      published := feed.published ++ [event] } := by
  have hhistory : ∀ other, other ∈ (feed.published ++ [event]) ++ feed.pending.erase event ↔
      other ∈ feed.history := by
    intro other
    have hperm := (List.perm_cons_erase hmem).symm
    rw [List.append_assoc, List.singleton_append]
    exact (hperm.append_left feed.published).mem_iff
  have hlatest : ∀ id record, Latest feed id record → Latest { feed with
      pending := feed.pending.erase event
      published := feed.published ++ [event] } id record := by
    rintro id record ⟨hgeneration, last, hlast, hsession, hsnapshot, hnewest⟩
    exact ⟨hgeneration, last, (hhistory last).mpr hlast, hsession, hsnapshot,
      fun other hother => hnewest other ((hhistory other).mp hother)⟩
  refine ⟨h.stages, ?_, fun other hother => h.named other ((hhistory other).mp hother),
    fun id record hrecord => hlatest id record (h.record id record hrecord), h.running, ?_, ?_,
    h.committed, ?_⟩
  · refine h.history.move hmem ?_
    intro other hother hsession hlt
    have hnewer := hok other hother hsession
    rw [(isNewer_iff other.snapshot event.snapshot).mpr hlt] at hnewer
    simp at hnewer
  · intro id generation host_id close_requested cleanup hslot other hother
    exact h.starting id generation host_id close_requested cleanup hslot other ((hhistory other).mp hother)
  · intro serial spawn hspawn hstage
    obtain ⟨hunknown, hunique⟩ := h.unknown serial spawn hspawn hstage
    exact ⟨⟨hunknown.slot, hunknown.record,
      fun other hother => hunknown.history other ((hhistory other).mp hother)⟩, hunique⟩
  · intro snapshot hsnapshot
    obtain ⟨other, hother, hsame⟩ := h.committed_event snapshot hsnapshot
    exact ⟨other, (hhistory other).mpr hother, hsame⟩

theorem reachable_feedInv (h : feeds.ReachableWhen InOrder feed) : FeedInv feed := by
  refine h.invariant ?_ ?_
  · rintro feed rfl
    have hslot : ∀ id slot, Feed.empty.registry.slot id ≠ some slot := fun id slot =>
      (Option.some_ne_none slot).symm
    exact ⟨stageInv_default, List.Pairwise.nil, fun _ h => absurd h List.not_mem_nil,
      fun _ record h => absurd h (Option.some_ne_none record).symm,
      fun id session h => absurd h (hslot id (.Running session)),
      fun id _ _ _ _ h => absurd h (hslot id _),
      fun _ spawn h => absurd h (Option.some_ne_none spawn).symm, List.Pairwise.nil,
      fun _ h => absurd h List.not_mem_nil⟩
  · intro feed label feed' hinv hok hnext
    cases label with
    | step label =>
      have hnext : (if feed.enabled label then _ else none) = some feed' := hnext
      rw [Option.ite_none_right_eq_some] at hnext
      obtain ⟨henabled, hnext⟩ := hnext
      obtain ⟨registry', hstep, hafter⟩ := Option.bind_eq_some_iff.mp hnext
      obtain rfl := Option.some.inj hafter
      exact hinv.step henabled hok hstep
    | publish event =>
      have hnext : (if event ∈ feed.pending then _ else none) = some feed' := hnext
      rw [Option.ite_none_right_eq_some] at hnext
      obtain rfl := Option.some.inj hnext.2
      exact hinv.publish hok hnext.1

/-! ### The client -/

/-- The snapshots that an update brings. -/
def Update.snapshots : Update → List TerminalSnapshot
  | .listing sessions => sessions
  | .event incoming => incoming.snapshot.toList

/-- An update that a server with this feed sends: snapshots that it has had, or output. -/
def Feed.sends (feed : Feed) : Update → Prop
  | .listing sessions => ∀ snapshot ∈ sessions, ∃ event ∈ feed.history, event.snapshot = snapshot
  | .event incoming => (∃ event ∈ feed.history, incoming = event.event) ∨
      incoming.snapshot = none ∧ incoming.kind = .output

/-- A client gets the published events of a session, and other updates of the
    server, in any order. -/
structure Receives (feed : Feed) (id : Text) (updates : List Update) : Prop where
  published : ∀ event ∈ feed.published, event.session_id = id → .event event.event ∈ updates
  sent : ∀ update ∈ updates, feed.sends update

theorem merge_snapshot_keep (current : List TerminalSnapshot) (incoming : TerminalSnapshot) :
    merge_snapshot current incoming.session_id incoming =
      Newest.keep TerminalSnapshot.session_id TerminalSnapshot.rank current incoming := by
  have hnewer : (fun previous => if isNewer previous incoming then incoming else previous) =
      fun previous => Newest.newer TerminalSnapshot.rank previous incoming := by
    funext previous
    unfold Newest.newer
    by_cases hlt : previous.rank < incoming.rank
    · rw [if_pos hlt, if_pos ((isNewer_iff previous incoming).mpr hlt)]
    · rw [if_neg hlt, if_neg fun h => hlt ((isNewer_iff previous incoming).mp h)]
  unfold merge_snapshot Newest.keep
  rw [hnewer]

/-- A client keeps the newest snapshot of each session. -/
theorem FeedInv.apply_keep (h : FeedInv feed) (current : List TerminalSnapshot) {update : Update}
    (hsent : feed.sends update) :
    update.apply current =
      update.snapshots.foldl (Newest.keep TerminalSnapshot.session_id TerminalSnapshot.rank) current := by
  cases update with
  | listing sessions =>
    show mergeTerminalListing current sessions = sessions.foldl _ current
    unfold mergeTerminalListing
    congr 1
    funext merged incoming
    exact merge_snapshot_keep merged incoming
  | event incoming =>
    rcases hsent with ⟨event, hevent, rfl⟩ | ⟨hnone, hkind⟩
    · show merge_snapshot current event.session_id event.snapshot = _
      rw [← (h.named event hevent).1]
      exact merge_snapshot_keep current event.snapshot
    · show mergeTerminalEvent current incoming = incoming.snapshot.toList.foldl _ current
      unfold mergeTerminalEvent
      rw [hnone]
      refine Newest.change_first_self _ _ ?_ current
      intro snapshot
      unfold TerminalEvent.revise
      rw [hkind]

theorem FeedInv.view_keep (h : FeedInv feed) {updates : List Update}
    (hsent : ∀ update ∈ updates, feed.sends update) (current : List TerminalSnapshot) :
    updates.foldl Update.apply current = (updates.flatMap Update.snapshots).foldl
      (Newest.keep TerminalSnapshot.session_id TerminalSnapshot.rank) current := by
  induction updates generalizing current with
  | nil => rfl
  | cons update rest ih =>
    rw [List.foldl_cons, List.flatMap_cons, List.foldl_append,
      h.apply_keep current (hsent update List.mem_cons_self)]
    exact ih (fun other hother => hsent other (List.mem_cons_of_mem _ hother)) _

/-- The snapshots that a server sends are those of its events. -/
theorem sent_snapshot {update : Update} {snapshot : TerminalSnapshot} (hsent : feed.sends update)
    (hmem : snapshot ∈ update.snapshots) : ∃ event ∈ feed.history, event.snapshot = snapshot := by
  cases update with
  | listing sessions => exact hsent snapshot hmem
  | event incoming =>
    rcases hsent with ⟨event, hevent, rfl⟩ | ⟨hnone, _⟩
    · exact ⟨event, hevent, (List.mem_singleton.mp hmem).symm⟩
    · simp [Update.snapshots, hnone] at hmem

/-- **Generations move forward**: in every run in which reconnects reserve and
    events are published in order, the generations of the incarnations of a
    session increase, its published snapshots increase by generation and
    revision, and a client that has got what was published of a session with
    nothing left to publish has the snapshot of the registry. -/
theorem generations_advance (h : feeds.ReachableWhen InOrder feed) :
    (feed.committed.Pairwise fun snapshot next =>
      snapshot.session_id = next.session_id → snapshot.generation < next.generation) ∧
    (feed.published.Pairwise fun event next =>
      event.session_id = next.session_id → isNewer event.snapshot next.snapshot = true) ∧
    ∀ id record updates, feed.registry.snapshots.lookup id = some record →
      (∀ event ∈ feed.pending, event.session_id ≠ id) → Receives feed id updates →
        ((view updates).find? fun snapshot => snapshot.session_id = id) = some record.snapshot := by
  have hinv := reachable_feedInv h
  refine ⟨hinv.committed, ?_, ?_⟩
  · refine hinv.history.front.imp ?_
    intro event next hlt hsession
    exact (isNewer_iff event.snapshot next.snapshot).mpr (hlt hsession)
  · intro id record updates hrecord hsettled hreceives
    obtain ⟨_, last, hlast, hsession, hsnapshot, hnewest⟩ := hinv.record id record hrecord
    have hpublished : last ∈ feed.published := by
      rcases List.mem_append.mp hlast with hpublished | hpending
      · exact hpublished
      · exact absurd hsession (hsettled last hpending)
    have hkey : record.snapshot.session_id = id := by
      rw [← hsnapshot, (hinv.named last hlast).1, hsession]
    have hmem : record.snapshot ∈ updates.flatMap Update.snapshots := by
      refine List.mem_flatMap.mpr ⟨_, hreceives.published last hpublished hsession, ?_⟩
      rw [← hsnapshot]
      exact List.mem_singleton.mpr rfl
    unfold view
    rw [hinv.view_keep hreceives.sent, ← hkey]
    refine Newest.keep_all_newest (.inl hmem) ?_ nofun
    intro snapshot hsnapshots hid
    obtain ⟨update, hupdate, hin⟩ := List.mem_flatMap.mp hsnapshots
    obtain ⟨event, hevent, rfl⟩ := sent_snapshot (hreceives.sent update hupdate) hin
    have hown : event.session_id = id := by
      rw [← (hinv.named event hevent).1, hid, hkey]
    rcases hnewest event hevent hown with rfl | hlt
    · exact .inl hsnapshot
    · exact .inr (hsnapshot ▸ hlt)

/-! ### Two runs -/

/-- A check of `InOrder`. -/
def in_order (feed : Feed) : FeedLabel → Bool
  | .step (.start _ _ _) | .step (.reconnect _ _) => feed.registry.next_generation + 1 < GENERATIONS
  | .step (.reserve serial) => (feed.registry.spawns serial).all fun spawn =>
      (feed.registry.snapshots.lookup spawn.session_id).all fun record =>
        record.generation < generation_of serial
  | .step (.finalize serial _) | .step (.record serial _) | .step (.read_fails serial _) =>
      (feed.registry.spawns serial).all fun spawn =>
        (feed.registry.snapshots.lookup spawn.session_id).all fun record =>
          record.snapshot.revision < MAX_REVISION
  | .step _ => true
  | .publish event => feed.pending.all fun other =>
      other.session_id ≠ event.session_id || !isNewer other.snapshot event.snapshot

theorem in_order_sound (feed : Feed) (label : FeedLabel) (h : in_order feed label = true) :
    InOrder feed label := by
  cases label with
  | publish event =>
    intro other hother hsession
    have hall := List.all_eq_true.mp h other hother
    simpa [hsession] using hall
  | step label =>
    cases label with
    | start | reconnect =>
      show feed.registry.next_generation + 1 < GENERATIONS
      exact of_decide_eq_true h
    | reserve | finalize | record | read_fails =>
      intro spawn record hspawn hrecord
      simp only [in_order, hspawn, hrecord, Option.all_some] at h
      exact of_decide_eq_true h
    | _ => trivial

/-- A spawn of the first session that has committed. -/
def first_spawn (revision : Nat) : Spawn where
  session_id := first_session
  host := lab_host
  revision := revision
  title := if revision = 1 then none else some (lab_host.alias ++ " · ".toList ++ lab_host.default_workspace)
  stage := .committed

/-- The exit of a spawn of the first session. -/
def first_exit (serial revision : Nat) : LifecycleEvent where
  session_id := first_session
  kind := .exit
  exit_code := some 0
  message := none
  snapshot := { (first_spawn revision).snapshot (generation_of serial) with
    title := ((first_spawn 1).snapshot 0).title
    revision := revision + 1
    state := .Closed
    exit_code := some 0 }

/-- A spawn of the first session runs, and its start is published. -/
def run_spawn (serial revision : Nat) : List FeedLabel :=
  [.step (.reserve serial), .step (.spawn_command serial), .step (.register serial), .step (.commit serial),
    .publish ((first_spawn revision).started serial), .step (.send serial true)]

/-- The child of a spawn exits, and its exit is published. -/
def exit_spawn (serial revision : Nat) : List FeedLabel :=
  [.step (.wait_take serial), .step (.child_exits serial), .step (.wait_exit serial),
    .step (.finalize serial ⟨0, none⟩), .publish (first_exit serial revision)]

/-- The first session exits and is reconnected once. -/
def reconnect_once : List FeedLabel :=
  .step (.start first_session lab_host none) :: run_spawn 0 1 ++ exit_spawn 0 1 ++
    .step (.reconnect first_session lab_host) :: run_spawn 1 3

/-- Two reconnects draw their generations, and the second one reserves first.
    It exits before the first one reserves. -/
def reconnect_overtaken : List FeedLabel :=
  .step (.start first_session lab_host none) :: run_spawn 0 1 ++ exit_spawn 0 1 ++
    [.step (.reconnect first_session lab_host), .step (.reconnect first_session lab_host)] ++
    run_spawn 2 3 ++ exit_spawn 2 3 ++ run_spawn 1 5

/-- What a client gets that gets the events as they are published. -/
def Feed.stream (feed : Feed) : List Update := feed.published.map fun event => .event event.event

theorem receives_stream (feed : Feed) (id : Text) : Receives feed id feed.stream := by
  refine ⟨fun event hevent _ => List.mem_map.mpr ⟨event, hevent, rfl⟩, ?_⟩
  intro update hupdate
  obtain ⟨event, hevent, rfl⟩ := List.mem_map.mp hupdate
  exact .inl ⟨event, List.mem_append_left _ hevent, rfl⟩

/-- The client of a session that is reconnected once shows its second incarnation. -/
theorem reconnected_session_shown :
    ∃ (feed : Feed) (record : TerminalRecord),
      feed.registry.snapshots.lookup first_session = some record ∧ record.generation = 2 ∧
      ((view feed.stream).find? fun snapshot => snapshot.session_id = first_session) =
        some record.snapshot := by
  have hstart : feeds.init .empty := rfl
  have hreach : ∃ feed, feeds.ReachableWhen InOrder feed ∧
      (feed.pending.isEmpty && (feed.registry.snapshots.lookup first_session).any fun record =>
        record.generation = 2) = true :=
    Machine.reachable_of_replay in_order in_order_sound hstart reconnect_once _ (by decide +kernel)
  obtain ⟨feed, hreachable, hend⟩ := hreach
  rw [Bool.and_eq_true, List.isEmpty_iff, Option.any_eq_true] at hend
  obtain ⟨hpending, record, hrecord, hgeneration⟩ := hend
  refine ⟨feed, record, hrecord, of_decide_eq_true hgeneration, ?_⟩
  refine (generations_advance hreachable).2.2 first_session record feed.stream hrecord ?_
    (receives_stream feed first_session)
  rw [hpending]
  exact fun event hevent => absurd hevent List.not_mem_nil

/-- A reconnect that is overtaken commits an earlier generation after a later
    one, and the client goes on showing the incarnation that has exited. -/
theorem overtaken_reconnect_hidden :
    ∃ (feed : Feed) (record : TerminalRecord) (shown : TerminalSnapshot), feeds.Reachable feed ∧
      feed.committed.map TerminalSnapshot.generation = [1, 3, 2] ∧ feed.pending = [] ∧
      feed.registry.snapshots.lookup first_session = some record ∧
      record.generation = 2 ∧ record.snapshot.state = .Running ∧
      ((view feed.stream).find? fun snapshot => snapshot.session_id = first_session) = some shown ∧
      shown.generation = 3 ∧ shown.state = .Closed := by
  have hstart : feeds.init .empty := rfl
  have hreach : ∃ feed, feeds.Reachable feed ∧
      (decide (feed.committed.map TerminalSnapshot.generation = [1, 3, 2]) && feed.pending.isEmpty &&
        ((feed.registry.snapshots.lookup first_session).any fun record =>
          record.generation = 2 && decide (record.snapshot.state = .Running)) &&
        (((view feed.stream).find? fun snapshot => snapshot.session_id = first_session).any fun shown =>
          shown.generation = 3 && decide (shown.state = .Closed))) = true :=
    Machine.reachable_of_replay (fun _ _ => true) (fun _ _ _ => trivial) hstart reconnect_overtaken _
      (by decide +kernel)
  obtain ⟨feed, hreachable, hend⟩ := hreach
  simp only [Bool.and_eq_true, decide_eq_true_eq, List.isEmpty_iff, Option.any_eq_true] at hend
  obtain ⟨⟨⟨hcommitted, hpending⟩, record, hrecord, hgeneration, hstate⟩, shown, hshown, hnewer, hclosed⟩ := hend
  exact ⟨feed, record, shown, hreachable, hcommitted, hpending, hrecord, hgeneration, hstate, hshown,
    hnewer, hclosed⟩

end Session
