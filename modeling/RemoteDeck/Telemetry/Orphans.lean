import RemoteDeck.Telemetry.Watchdog

/-! # Which watchdogs are left behind

    A session that the registry made is tracked as soon as no operation holds
    its host, unless it was given up (`GivesUp`): the command that made it was
    not known to succeed, the clean-up of a failed start did not reach it, or
    a shutdown ended before its stop took effect.  Sessions of others are
    neither killed nor adopted, and one that was given up is adopted by the
    next start.
-/

namespace Telemetry.Watchdog

variable {Place : Type} [DecidableEq Place] {owner : Text} {place : Text → Place}
  {s s' : State Place}

/-! ### Remote commands -/

/-- A start command leaves a session that is there as it is. -/
theorem run_start_some (owner host_id : Text) (session : Session) (run : StartRun) :
    (run_start owner host_id (some session) run).1 = some session := by
  cases run <;> rfl

/-- On a session of another owner it does not succeed. -/
theorem run_start_foreign {session : Session} (h : session.owner ≠ owner) (host_id : Text)
    (run : StartRun) :
    watchdog_start_disposition (run_start owner host_id (some session) run).2 = .Conflict := by
  cases run <;> simp [run_start, watchdog_start_disposition, h]

theorem run_start_some_not_created (owner host_id : Text) (session : Session) (run : StartRun) :
    watchdog_start_disposition (run_start owner host_id (some session) run).2 ≠ .Created := by
  by_cases h : session.owner = owner
  · cases run <;> simp [run_start, watchdog_start_disposition, h]
  · rw [run_start_foreign h]
    exact nofun

/-- On a machine without the session it makes one that is marked, makes one
    and does not mark it, or makes none. -/
theorem run_start_none (owner host_id : Text) (run : StartRun) :
    (run_start owner host_id none run = (some ⟨owner, some host_id, false⟩, some 0)) ∨
    (run = .interrupted ∧
      run_start owner host_id none run = (some ⟨[], some host_id, false⟩, none)) ∨
    ((run_start owner host_id none run).1 = none ∧
      watchdog_start_disposition (run_start owner host_id none run).2 = .Conflict) := by
  cases run with
  | completed => exact .inl rfl
  | interrupted => exact .inr (.inl ⟨rfl, rfl⟩)
  | _ => exact .inr (.inr ⟨rfl, rfl⟩)

/-- After a stop command the session is gone, or as it was. -/
theorem run_stop_session (owner : Text) (performed : Bool) (before : Option Session) :
    (run_stop owner performed before).1 = none ∨ (run_stop owner performed before).1 = before := by
  cases before with
  | none => exact .inl rfl
  | some session =>
    by_cases howner : session.owner = owner
    · cases performed with
      | false => exact .inr rfl
      | true => exact .inl (by simp [run_stop, howner])
    · cases performed with
      | false => exact .inr rfl
      | true => exact .inr (by simp [run_stop, howner])

theorem run_stop_foreign {session : Session} (h : session.owner ≠ owner) (performed : Bool) :
    (run_stop owner performed (some session)).1 = some session := by
  cases performed <;> simp [run_stop, h]

/-- A stop command succeeds only if the session is gone. -/
theorem run_stop_success {performed : Bool} {before : Option Session}
    (h : (run_stop owner performed before).2 = some 0) : (run_stop owner performed before).1 = none := by
  cases before with
  | none => rfl
  | some session =>
    unfold run_stop at h ⊢
    cases performed with
    | false => exact nomatch h
    | true =>
      by_cases howner : session.owner = owner
      · simp [howner]
      · simp [howner] at h

/-! ### The invariant -/

/-- The session of a host runs, was made for it here, and was not given up. -/
def Live (place : Text → Place) (s : State Place) (host_id : Text) : Prop :=
  ∃ session, s.sessions (place host_id) = some session ∧ session.creator = some host_id ∧
    session.abandoned = false

/-- A start that made the session and has not looked at `shutting_down` yet,
    or one that cleans up. -/
def Operation.Answerable : Operation → Prop
  | .start_ran _ true | .start_inserted _ true | .cleaning | .cleaned => True
  | _ => False

/-- What holds of one host. -/
structure HostInv (place : Text → Place) (s : State Place) (host_id : Text) : Prop where
  covered : Live place s host_id → (s.watchdogs.lookup host_id).isSome ∨
    ∃ rotation, s.watchdog_operations.lookup host_id = some (.start_ran rotation true)
  stopped : s.watchdog_operations.lookup host_id = some .stop_done → ¬ Live place s host_id
  awaited : ∀ task, s.shutdown = some task → task.reads ≠ 0 → Live place s host_id →
    host_id ∈ task.pending ∨ host_id ∈ task.failed ∨
      ∃ operation, s.watchdog_operations.lookup host_id = some operation ∧ operation.Answerable

structure Inv (place : Text → Place) (s : State Place) : Prop where
  flagged : s.shutdown.isSome → s.shutting_down = true
  host : ∀ host_id, HostInv place s host_id

omit [DecidableEq Place] in
/-- A host about which a step changes nothing but that its session may end. -/
theorem HostInv.frame {host_id : Text} (h : HostInv place s host_id)
    (hlive : Live place s' host_id → Live place s host_id)
    (htracked : (s.watchdogs.lookup host_id).isSome → (s'.watchdogs.lookup host_id).isSome)
    (hoperation : s'.watchdog_operations.lookup host_id = s.watchdog_operations.lookup host_id)
    (hshutdown : s'.shutdown = s.shutdown) : HostInv place s' host_id where
  covered := by
    intro hnow
    rw [hoperation]
    exact (h.covered (hlive hnow)).imp htracked id
  stopped := by
    intro hdone hnow
    rw [hoperation] at hdone
    exact h.stopped hdone (hlive hnow)
  awaited := by
    intro task htask hreads hnow
    rw [hshutdown] at htask
    rw [hoperation]
    exact h.awaited task htask hreads (hlive hnow)

omit [DecidableEq Place] in
theorem live_of_sessions (h : s'.sessions = s.sessions) (host_id : Text) :
    Live place s' host_id → Live place s host_id := by
  intro hlive
  unfold Live at hlive
  rwa [h] at hlive

/-- A step that ends the session of a place, leaves it, or puts one there that
    is given up or another host's. -/
theorem live_of_put {session : Option Session} {at_place : Place} {host_id : Text}
    (h : session = none ∨ session = s.sessions at_place ∨
      ∃ made, session = some made ∧ (made.abandoned = true ∨ made.creator ≠ some host_id))
    (hlive : Live place (s.put at_place session) host_id) : Live place s host_id := by
  obtain ⟨found, hfound, hcreator, habandoned⟩ := hlive
  by_cases hplace : place host_id = at_place
  · have hsession : session = some found := by
      rw [← hfound]
      show session = Function.update s.sessions at_place session (place host_id)
      rw [hplace, Function.update_self]
    rcases h with hnone | hsame | ⟨made, hmade, hother⟩
    · rw [hnone] at hsession
      exact nomatch hsession
    · refine ⟨found, ?_, hcreator, habandoned⟩
      rw [hplace, ← hsame]
      exact hsession
    · obtain rfl := Option.some.inj (hmade.symm.trans hsession)
      rcases hother with hgone | hne
      · exact absurd (hgone.symm.trans habandoned) Bool.true_eq_false.mp
      · exact absurd hcreator hne
  · refine ⟨found, ?_, hcreator, habandoned⟩
    rw [← hfound]
    exact (Function.update_of_ne hplace session s.sessions).symm

omit [DecidableEq Place] in
theorem live_of_abandon {gone : Text → Bool} {host_id : Text}
    (h : s'.sessions = abandon gone s.sessions) (hlive : Live place s' host_id) :
    Live place s host_id ∧ gone host_id = false := by
  obtain ⟨found, hfound, hcreator, habandoned⟩ := hlive
  rw [h] at hfound
  obtain ⟨before, hbefore, hmap⟩ := Option.map_eq_some_iff.mp hfound
  by_cases hgone : before.creator.any gone = true
  · rw [if_pos hgone] at hmap
    rw [← hmap] at habandoned
    exact nomatch habandoned
  · rw [if_neg hgone] at hmap
    subst hmap
    refine ⟨⟨before, hbefore, hcreator, habandoned⟩, ?_⟩
    rw [hcreator] at hgone
    exact Bool.not_eq_true _ ▸ hgone

omit [DecidableEq Place] in
theorem HostInv.of_not_live {host_id : Text} (h : ¬ Live place s host_id) :
    HostInv place s host_id :=
  ⟨fun hlive => absurd hlive h, fun _ => h, fun _ _ _ hlive => absurd hlive h⟩

omit [DecidableEq Place] in
/-- The host of an operation that moves on, where its session is not made by
    the step and not left unanswered in a shutdown. -/
theorem HostInv.move {host_id : Text} (h : HostInv place s host_id)
    (hlive : Live place s' host_id → Live place s host_id)
    (htracked : (s.watchdogs.lookup host_id).isSome → (s'.watchdogs.lookup host_id).isSome)
    (hshutdown : s'.shutdown = s.shutdown)
    (hran : ∀ rotation, s.watchdog_operations.lookup host_id ≠ some (.start_ran rotation true))
    (hdone : s'.watchdog_operations.lookup host_id ≠ some .stop_done)
    (hanswer : (∃ operation, s'.watchdog_operations.lookup host_id = some operation ∧
        operation.Answerable) ∨
      (∀ operation, s.watchdog_operations.lookup host_id = some operation →
        ¬ operation.Answerable) ∨ s.shutdown = none) : HostInv place s' host_id where
  covered := by
    intro hnow
    rcases h.covered (hlive hnow) with hbefore | ⟨rotation, hoperation⟩
    · exact .inl (htracked hbefore)
    · exact absurd hoperation (hran rotation)
  stopped := fun hnow => absurd hnow hdone
  awaited := by
    intro task htask hreads hnow
    rw [hshutdown] at htask
    rcases hanswer with hanswer | hbefore | hnone
    · exact .inr (.inr hanswer)
    · rcases h.awaited task htask hreads (hlive hnow) with hpending | hfailed | ⟨operation, hop, hans⟩
      · exact .inl hpending
      · exact .inr (.inl hfailed)
      · exact absurd hans (hbefore operation hop)
    · exact nomatch hnone.symm.trans htask

/-! ### Steps -/

variable {host_id : Text} {operation : Operation}

variable (s owner place host_id) in
/-- What a start command can do: adopt a session that is there, make one, or
    fail, and then a session that it made is given up. -/
theorem start_command_cases (rotation : Nat) (run : StartRun) (reported : Bool) :
    (∃ session, s.sessions (place host_id) = some session ∧ session.owner = owner ∧
      s.start_command owner place host_id rotation run reported =
        (s.put (place host_id) (some session)).operate host_id (.start_ran rotation false)) ∨
    (s.sessions (place host_id) = none ∧
      s.start_command owner place host_id rotation run reported =
        (s.put (place host_id) (some ⟨owner, some host_id, false⟩)).operate host_id
          (.start_ran rotation true)) ∨
    (∃ after, (after = s.sessions (place host_id) ∨ s.sessions (place host_id) = none ∧
        (reported = false ∨ run = .interrupted) ∧
        ∃ made, after = some made ∧ made.abandoned = true ∧ made.creator = some host_id) ∧
      s.start_command owner place host_id rotation run reported =
        (s.put (place host_id) after).release host_id) := by
  unfold State.start_command
  cases hbefore : s.sessions (place host_id) with
  | some session =>
    have hsame := run_start_some owner host_id session run
    have hcreated := run_start_some_not_created owner host_id session run
    cases reported with
    | false =>
      exact .inr (.inr ⟨some session, .inl rfl, by simp [hsame]⟩)
    | true =>
      cases hcode : watchdog_start_disposition (run_start owner host_id (some session) run).2 with
      | Created => exact absurd hcode hcreated
      | Adopted =>
        by_cases howner : session.owner = owner
        · exact .inl ⟨session, rfl, howner, by simp [hsame, hcode]⟩
        · rw [run_start_foreign howner] at hcode
          exact nomatch hcode
      | Conflict => exact .inr (.inr ⟨some session, .inl rfl, by simp [hsame, hcode]⟩)
  | none =>
    rcases run_start_none owner host_id run with hmade | ⟨hrun, hmade⟩ | ⟨hnone, hcode⟩
    · cases reported with
      | false =>
        refine .inr (.inr ⟨_, .inr ⟨rfl, .inl rfl, ⟨owner, some host_id, true⟩, rfl, rfl, rfl⟩, ?_⟩)
        simp [hmade]
      | true => exact .inr (.inl ⟨rfl, by simp [hmade, watchdog_start_disposition]⟩)
    · refine .inr (.inr ⟨_, .inr ⟨rfl, .inr hrun, ⟨[], some host_id, true⟩, rfl, rfl, rfl⟩, ?_⟩)
      cases reported <;> simp [hmade, watchdog_start_disposition]
    · refine .inr (.inr ⟨none, .inl rfl, ?_⟩)
      cases reported <;> simp [hnone, hcode]

omit [DecidableEq Place] in
/-- A step of the operation on a host that makes no session and loses no entry. -/
theorem Inv.move (h : Inv place s) (hop : s.watchdog_operations.lookup host_id = some operation)
    (hlive : ∀ other, Live place s' other → Live place s other)
    (htracked : s'.watchdogs = s.watchdogs)
    (hothers : ∀ other, other ≠ host_id →
      s'.watchdog_operations.lookup other = s.watchdog_operations.lookup other)
    (hshutdown : s'.shutdown = s.shutdown) (hflag : s'.shutting_down = s.shutting_down)
    (hran : ∀ rotation, operation ≠ .start_ran rotation true)
    (hdone : s'.watchdog_operations.lookup host_id ≠ some .stop_done)
    (hanswer : (∃ after, s'.watchdog_operations.lookup host_id = some after ∧ after.Answerable) ∨
      ¬ operation.Answerable ∨ s.shutdown = none) : Inv place s' where
  flagged := by
    rw [hshutdown, hflag]
    exact h.flagged
  host := by
    intro other
    by_cases hother : other = host_id
    · subst hother
      refine (h.host other).move (hlive other) (by rw [htracked]; exact id) hshutdown ?_ hdone ?_
      · intro rotation hlookup
        exact hran rotation (Option.some.inj (hop.symm.trans hlookup))
      · refine hanswer.imp_right (Or.imp_left ?_)
        intro hnot found hfound
        obtain rfl := Option.some.inj (hop.symm.trans hfound)
        exact hnot
    · exact (h.host other).frame (hlive other) (by rw [htracked]; exact id) (hothers other hother)
        hshutdown

/-- The session that an operation puts in its place concerns no other host. -/
theorem live_put_of_ne {session : Option Session} {other : Text} (hne : other ≠ host_id)
    (h : session = none ∨ session = s.sessions (place host_id) ∨
      ∃ made, session = some made ∧ made.creator = some host_id)
    (hlive : Live place (s.put (place host_id) session) other) : Live place s other := by
  refine live_of_put (h.imp_right (Or.imp_right ?_)) hlive
  rintro ⟨made, hmade, hcreator⟩
  refine ⟨made, hmade, .inr ?_⟩
  rw [hcreator]
  exact fun heq => hne (Option.some.inj heq).symm

theorem inv_start_command (h : Inv place s) {rotation : Nat}
    (hop : s.watchdog_operations.lookup host_id = some (.start_reserved rotation))
    (run : StartRun) (reported : Bool) :
    Inv place (s.start_command owner place host_id rotation run reported) := by
  rcases start_command_cases owner place s host_id rotation run reported with
    ⟨session, hsession, _, heq⟩ | ⟨hnone, heq⟩ | ⟨after, hafter, heq⟩
  · rw [heq]
    refine h.move hop (fun other hlive => ?_) rfl (fun other hne => ?_) rfl rfl nofun ?_
      (.inr (.inl id))
    · exact live_of_put (.inr (.inl hsession.symm)) hlive
    · exact State.operate_of_ne _ _ _ hne
    · rw [State.operate_self]
      exact nofun
  · -- the session is made: it is the operation's to answer for
    rw [heq]
    refine ⟨h.flagged, fun other => ?_⟩
    by_cases hother : other = host_id
    · subst hother
      refine ⟨fun _ => .inr ⟨rotation, State.operate_self _ _ _⟩, fun hdone => ?_,
        fun task _ _ _ => .inr (.inr ⟨_, State.operate_self _ _ _, trivial⟩)⟩
      rw [State.operate_self] at hdone
      exact nomatch hdone
    · refine (h.host other).frame (fun hlive => ?_) id (State.operate_of_ne _ _ _ hother) rfl
      exact live_put_of_ne hother (.inr (.inr ⟨_, rfl, rfl⟩)) hlive
  · rw [heq]
    refine h.move hop (fun other hlive => ?_) rfl (fun other hne => ?_) rfl rfl nofun ?_
      (.inr (.inl id))
    · refine live_of_put ?_ hlive
      rcases hafter with hsame | ⟨_, _, made, hmade, hgone, _⟩
      · exact .inr (.inl hsame)
      · exact .inr (.inr ⟨made, hmade, .inl hgone⟩)
    · exact State.release_of_ne _ _ hne
    · rw [State.release_self]
      exact nofun

theorem inv_release (h : Inv place s)
    (hop : s.watchdog_operations.lookup host_id = some operation)
    (hran : ∀ rotation, operation ≠ .start_ran rotation true) (hanswer : ¬ operation.Answerable)
    {session : Option Session} (hsession : session = none ∨ session = s.sessions (place host_id)) :
    Inv place ((s.put (place host_id) session).release host_id) := by
  refine h.move hop (fun other hlive => ?_) rfl (fun other hne => ?_) rfl rfl hran ?_
    (.inr (.inl hanswer))
  · exact live_of_put (hsession.imp_right .inl) hlive
  · exact State.release_of_ne _ _ hne
  · rw [State.release_self]
    exact nofun

omit [DecidableEq Place] in
theorem inv_release_only (h : Inv place s)
    (hop : s.watchdog_operations.lookup host_id = some operation)
    (hran : ∀ rotation, operation ≠ .start_ran rotation true) (hanswer : ¬ operation.Answerable) :
    Inv place (s.release host_id) := by
  refine h.move hop (fun _ => id) rfl (fun other hne => ?_) rfl rfl hran ?_ (.inr (.inl hanswer))
  · exact State.release_of_ne _ _ hne
  · rw [State.release_self]
    exact nofun

omit [DecidableEq Place] in
theorem inv_operate (h : Inv place s) (hop : s.watchdog_operations.lookup host_id = some operation)
    (hran : ∀ rotation, operation ≠ .start_ran rotation true) {after : Operation}
    (hdone : after ≠ .stop_done)
    (hanswer : after.Answerable ∨ ¬ operation.Answerable ∨ s.shutdown = none) :
    Inv place (s.operate host_id after) := by
  refine h.move hop (fun _ => id) rfl (fun other hne => ?_) rfl rfl hran ?_
    (hanswer.imp_left fun hafter => ⟨after, State.operate_self _ _ _, hafter⟩)
  · exact State.operate_of_ne _ _ _ hne
  · rw [State.operate_self]
    exact fun heq => hdone (Option.some.inj heq)

omit [DecidableEq Place] in
/-- No shutdown has begun where its flag is not set. -/
theorem Inv.no_shutdown (h : Inv place s) (hflag : s.shutting_down = false) : s.shutdown = none := by
  cases hshutdown : s.shutdown with
  | none => rfl
  | some task =>
    have hset := h.flagged (by rw [hshutdown]; rfl)
    rw [hflag] at hset
    exact nomatch hset

omit [DecidableEq Place] in
/-- A start looks at the flag: it cleans up, or no shutdown has begun. -/
theorem inv_start_flag (h : Inv place s)
    (hop : s.watchdog_operations.lookup host_id = some operation)
    (hran : ∀ rotation, operation ≠ .start_ran rotation true) {after : Operation}
    (hdone : after ≠ .stop_done) :
    Inv place (s.operate host_id (if s.shutting_down then .cleaning else after)) := by
  cases hflag : s.shutting_down with
  | true => exact inv_operate h hop hran nofun (.inl trivial)
  | false => exact inv_operate h hop hran hdone (.inr (.inr (h.no_shutdown hflag)))

omit [DecidableEq Place] in
theorem inv_start_insert (h : Inv place s) {rotation : Nat} {created : Bool}
    (hop : s.watchdog_operations.lookup host_id = some (.start_ran rotation created)) :
    Inv place
      (if created then
        { s.operate host_id (.start_inserted rotation created) with
          watchdogs := s.watchdogs.insert host_id rotation }
      else s.operate host_id (.start_inserted rotation created)) := by
  cases created with
  | false => exact inv_operate h hop nofun nofun (.inr (.inl id))
  | true =>
    refine ⟨h.flagged, fun other => ?_⟩
    by_cases hother : other = host_id
    · subst hother
      refine ⟨fun _ => .inl ?_, fun hdone => ?_, fun task htask hreads hlive => ?_⟩
      · show ((s.watchdogs.insert other rotation).lookup other).isSome
        rw [AList.lookup_insert]
        rfl
      · exact nomatch (State.operate_self s other _).symm.trans hdone
      · exact .inr (.inr ⟨_, State.operate_self s other _, trivial⟩)
    · refine (h.host other).frame id (fun hsome => ?_) (State.operate_of_ne s _ _ hother) rfl
      show ((s.watchdogs.insert host_id rotation).lookup other).isSome
      rwa [AList.lookup_insert_ne hother]

theorem inv_start_done (h : Inv place s) {rotation : Nat}
    (hop : s.watchdog_operations.lookup host_id = some (.start_ready rotation)) :
    Inv place ((s.track place host_id rotation).release host_id) := by
  -- an entry of another host is not taken up, nor one in a shutdown
  have hlive : ∀ other, other ≠ host_id ∨ s.shutting_down = true →
      Live place ((s.track place host_id rotation).release host_id) other → Live place s other := by
    rintro other hkept ⟨found, hfound, hcreator, habandoned⟩
    by_cases hplace : place other = place host_id
    · have hmap : ((s.sessions (place host_id)).map fun session : Session =>
          { session with abandoned := session.abandoned &&
              (s.shutting_down || session.creator ≠ some host_id) }) = some found := by
        rw [← hfound, hplace]
        exact (Function.update_self (place host_id) _ s.sessions).symm
      obtain ⟨before, hbefore, heq⟩ := Option.map_eq_some_iff.mp hmap
      have hsame : before.creator = some other := by
        rw [← hcreator, ← heq]
      refine ⟨before, hplace ▸ hbefore, hsame, ?_⟩
      rw [← heq] at habandoned
      rcases hkept with hne | hflag
      · simpa [hsame, hne] using habandoned
      · simpa [hflag] using habandoned
    · refine ⟨found, ?_, hcreator, habandoned⟩
      rw [← hfound]
      exact (Function.update_of_ne hplace _ _).symm
  refine ⟨h.flagged, fun other => ?_⟩
  by_cases hother : other = host_id
  · subst hother
    refine ⟨fun _ => .inl ?_, fun hdone => ?_, fun task htask hreads hnow => ?_⟩
    · show ((s.watchdogs.insert other rotation).lookup other).isSome
      rw [AList.lookup_insert]
      rfl
    · exact nomatch (State.release_self _ _).symm.trans hdone
    · have hflag := h.flagged (Option.isSome_of_eq_some htask)
      have hbefore := (h.host other).awaited task htask hreads (hlive other (.inr hflag) hnow)
      rcases hbefore with hpending | hfailed | ⟨found, hfound, hanswer⟩
      · exact .inl hpending
      · exact .inr (.inl hfailed)
      · obtain rfl := Option.some.inj (hop.symm.trans hfound)
        exact hanswer.elim
  · refine (h.host other).frame (hlive other (.inl hother)) (fun hsome => ?_)
      (State.release_of_ne _ _ hother) rfl
    show ((s.watchdogs.insert host_id rotation).lookup other).isSome
    rwa [AList.lookup_insert_ne hother]

omit [DecidableEq Place] in
theorem inv_cleanup_remove (h : Inv place s) :
    Inv place (({ s with
        watchdogs := s.watchdogs.erase host_id
        sessions := abandon (fun creator => creator = host_id) s.sessions }).release host_id) := by
  refine ⟨h.flagged, fun other => ?_⟩
  have hlive : Live place (({ s with
        watchdogs := s.watchdogs.erase host_id
        sessions := abandon (fun creator => creator = host_id) s.sessions }).release host_id) other →
      Live place s other ∧ decide (other = host_id) = false :=
    live_of_abandon (show _ = abandon (fun creator => decide (creator = host_id)) s.sessions from rfl)
  by_cases hother : other = host_id
  · exact .of_not_live fun hnow => of_decide_eq_false (hlive hnow).2 hother
  · refine (h.host other).frame (fun hnow => (hlive hnow).1) (fun hsome => ?_)
      (State.release_of_ne _ _ hother) rfl
    show ((s.watchdogs.erase host_id).lookup other).isSome
    rwa [AList.lookup_erase_ne hother]

theorem inv_stop_success (h : Inv place s) :
    Inv place ((s.put (place host_id) none).operate host_id .stop_done) := by
  refine ⟨h.flagged, fun other => ?_⟩
  by_cases hother : other = host_id
  · subst hother
    refine .of_not_live ?_
    rintro ⟨found, hfound, -⟩
    rw [State.operate_sessions, State.put_self] at hfound
    exact nomatch hfound
  · exact (h.host other).frame (live_of_put (.inl rfl)) id (State.operate_of_ne _ _ _ hother) rfl

omit [DecidableEq Place] in
theorem inv_stop_remove (h : Inv place s)
    (hop : s.watchdog_operations.lookup host_id = some .stop_done) :
    Inv place (({ s with watchdogs := s.watchdogs.erase host_id }).operate host_id
      .stop_inspecting) := by
  refine ⟨h.flagged, fun other => ?_⟩
  by_cases hother : other = host_id
  · subst hother
    exact .of_not_live ((h.host other).stopped hop)
  · refine (h.host other).frame id (fun hsome => ?_) (State.operate_of_ne _ _ _ hother) rfl
    show ((s.watchdogs.erase host_id).lookup other).isSome
    rwa [AList.lookup_erase_ne hother]

theorem inv_advance (h : Inv place s) (hop : s.watchdog_operations.lookup host_id = some operation)
    {act : Act} (hstep : s.advance owner place host_id operation act = some s') : Inv place s' := by
  unfold State.advance at hstep
  split at hstep
  case h_1 => exact Option.some.inj hstep ▸ inv_release_only h hop nofun id
  case h_2 => exact Option.some.inj hstep ▸ inv_start_command h hop _ _
  case h_3 => exact Option.some.inj hstep ▸ inv_start_insert h hop
  case h_4 => exact Option.some.inj hstep ▸ inv_start_flag h hop nofun nofun
  case h_5 rotation created reply =>
    split at hstep
    · exact Option.some.inj hstep ▸ inv_release_only h hop nofun id
    · split at hstep
      · exact Option.some.inj hstep ▸ inv_operate h hop nofun nofun (.inr (.inl id))
      · split at hstep
        · exact Option.some.inj hstep ▸ inv_operate h hop nofun nofun (.inl trivial)
        · exact Option.some.inj hstep ▸ inv_release_only h hop nofun id
  case h_6 => exact Option.some.inj hstep ▸ inv_start_flag h hop nofun nofun
  case h_7 => exact Option.some.inj hstep ▸ inv_start_done h hop
  case h_8 performed =>
    obtain rfl := Option.some.inj hstep
    refine h.move hop (fun other hlive => ?_) rfl (fun other hne => ?_) rfl rfl nofun ?_
      (.inl ⟨_, State.operate_self _ _ _, trivial⟩)
    · exact live_of_put ((run_stop_session owner performed _).imp_right .inl) hlive
    · exact State.operate_of_ne _ _ _ hne
    · rw [State.operate_self]
      exact nofun
  case h_9 => exact Option.some.inj hstep ▸ inv_cleanup_remove h
  case h_10 => exact Option.some.inj hstep ▸ inv_release_only h hop nofun id
  case h_11 performed reported =>
    split at hstep
    case h_1 session exit_code hrun =>
      split at hstep
      case isTrue hsuccess =>
        have hgone := run_stop_success ((congrArg Prod.snd hrun).trans hsuccess.2)
        rw [hrun] at hgone
        subst hgone
        exact Option.some.inj hstep ▸ inv_stop_success h
      case isFalse =>
        have hsession := run_stop_session owner performed (s.sessions (place host_id))
        rw [hrun] at hsession
        exact Option.some.inj hstep ▸ inv_release h hop nofun id hsession
  case h_12 => exact Option.some.inj hstep ▸ inv_stop_remove h hop
  case h_13 => exact Option.some.inj hstep ▸ inv_release_only h hop nofun id
  case h_14 => exact nomatch hstep

omit [DecidableEq Place] in
/-- A step that touches neither the maps nor the sessions. -/
theorem inv_of_same (h : Inv place s) (hsessions : s'.sessions = s.sessions)
    (htracked : s'.watchdogs = s.watchdogs)
    (hoperations : s'.watchdog_operations = s.watchdog_operations)
    (hshutdown : s'.shutdown = s.shutdown) (hflag : s'.shutting_down = s.shutting_down) :
    Inv place s' where
  flagged := by
    rw [hshutdown, hflag]
    exact h.flagged
  host := fun other => (h.host other).frame (live_of_sessions hsessions other)
    (by rw [htracked]; exact id) (by rw [hoperations]) hshutdown

omit [DecidableEq Place] in
theorem inv_stop_call (h : Inv place s) : Inv place (s.stop_call host_id) := by
  unfold State.stop_call
  split
  · exact inv_of_same h rfl rfl rfl rfl rfl
  · exact h

omit [DecidableEq Place] in
theorem inv_reserve (h : Inv place s) {after : Operation} (hdone : after ≠ .stop_done) :
    Inv place (s.reserve host_id after) := by
  unfold State.reserve
  split
  · exact h
  · rename_i hfree
    have hnone : s.watchdog_operations.lookup host_id = none := by simpa using hfree
    refine ⟨h.flagged, fun other => ?_⟩
    by_cases hother : other = host_id
    · subst hother
      refine (h.host other).move id id rfl (fun rotation hran => ?_) (fun hstop => ?_)
        (.inr (.inl fun found hfound => ?_))
      · exact nomatch hnone.symm.trans hran
      · exact hdone (Option.some.inj ((State.operate_self s other after).symm.trans hstop))
      · exact nomatch hnone.symm.trans hfound
    · exact (h.host other).frame id id (State.operate_of_ne _ _ _ hother) rfl

/-! ### Shutdown -/

omit [DecidableEq Place] in
/-- A shutdown that goes on, where the hosts that it awaits are still awaited. -/
theorem inv_shutdown_task (h : Inv place s) {task : Shutdown} (hflag : s'.shutting_down = true)
    (hsessions : ∀ other, Live place s' other → Live place s other)
    (htracked : s'.watchdogs = s.watchdogs)
    (hoperations : s'.watchdog_operations = s.watchdog_operations)
    (hshutdown : s'.shutdown = some task)
    (hawaited : task.reads ≠ 0 → ∀ other, Live place s' other →
      other ∈ task.pending ∨ other ∈ task.failed ∨
        ∃ found, s.watchdog_operations.lookup other = some found ∧ found.Answerable) :
    Inv place s' where
  flagged := fun _ => hflag
  host := by
    intro other
    refine ⟨fun hlive => ?_, fun hdone hlive => ?_, fun found hfound hreads hlive => ?_⟩
    · rw [htracked, hoperations]
      exact (h.host other).covered (hsessions other hlive)
    · rw [hoperations] at hdone
      exact (h.host other).stopped hdone (hsessions other hlive)
    · obtain rfl := Option.some.inj (hshutdown.symm.trans hfound)
      rw [hoperations]
      exact hawaited hreads other hlive

omit [DecidableEq Place] in
theorem inv_shutdown_watchdogs (h : Inv place s) {task : Shutdown} (htask : s.shutdown = some task) :
    Inv place { s with shutdown := some { task with reads := 1, pending := s.watchdogs.keys.toFinset } } := by
  refine inv_shutdown_task h (h.flagged (Option.isSome_of_eq_some htask)) (fun _ => id) rfl rfl rfl ?_
  intro _ other hlive
  rcases (h.host other).covered hlive with htracked | ⟨rotation, hran⟩
  · exact .inl (List.mem_toFinset.mpr (AList.lookup_isSome.mp htracked))
  · exact .inr (.inr ⟨_, hran, trivial⟩)

omit [DecidableEq Place] in
theorem inv_shutdown_operations (h : Inv place s) {task : Shutdown}
    (htask : s.shutdown = some task) (hreads : task.reads = 1) {operations : Finset Text} :
    Inv place { s with shutdown := some { task with
      reads := 2, pending := task.pending ∪ operations } } := by
  refine inv_shutdown_task h (h.flagged (Option.isSome_of_eq_some htask)) (fun _ => id) rfl rfl rfl ?_
  intro _ other hlive
  have hnonzero : task.reads ≠ 0 := by omega
  exact ((h.host other).awaited task htask hnonzero hlive).imp_left (Finset.mem_union_left _)

theorem inv_shutdown_stop (h : Inv place s) {task : Shutdown} (htask : s.shutdown = some task)
    (hreads : task.reads = 2) {session : Option Session}
    (hsession : session = none ∨ session = s.sessions (place host_id)) :
    Inv place { s.put (place host_id) session with
      shutdown := some ⟨2, task.pending.erase host_id,
        if session.isSome then insert host_id task.failed else task.failed⟩ } := by
  have hlive : ∀ other, Live place (s.put (place host_id) session) other → Live place s other :=
    fun other => live_of_put (hsession.imp_right .inl)
  refine inv_shutdown_task h (h.flagged (Option.isSome_of_eq_some htask)) hlive rfl rfl rfl ?_
  intro _ other hnow
  have hnonzero : task.reads ≠ 0 := by omega
  have hfailed : other ∈ task.failed →
      other ∈ if session.isSome then insert host_id task.failed else task.failed := by
    intro hmem
    split
    · exact Finset.mem_insert_of_mem hmem
    · exact hmem
  rcases (h.host other).awaited task htask hnonzero (hlive other hnow) with
    hpending | hmem | hanswer
  · by_cases hother : other = host_id
    · -- its own stop left it
      subst hother
      obtain ⟨found, hfound, -⟩ := hnow
      have hsome : session = some found := (State.put_self s _ _).symm.trans hfound
      rw [hsome]
      exact .inr (.inl (Finset.mem_insert_self _ _))
    · exact .inl (Finset.mem_erase.mpr ⟨hother, hpending⟩)
  · exact .inr (.inl (hfailed hmem))
  · exact .inr (.inr hanswer)

omit [DecidableEq Place] in
theorem inv_finish {gone : Text → Bool} (hgone : ∀ other, Live place s other → gone other = true) :
    Inv place (s.finish gone) := by
  refine ⟨nofun, fun other => .of_not_live fun hlive => ?_⟩
  have hbefore : Live place s other ∧ gone other = false :=
    live_of_abandon (show _ = abandon gone s.sessions from rfl) hlive
  exact absurd (hgone other hbefore.1) (by rw [hbefore.2]; exact Bool.false_ne_true)

theorem inv_next {label : Label Place} (h : Inv place s) (hnext : s.next owner place label = some s') :
    Inv place s' := by
  cases label with
  | start host_id rotation =>
    simp only [State.next] at hnext
    split at hnext
    · exact Option.some.inj hnext ▸ h
    · exact Option.some.inj hnext ▸ inv_of_same h rfl rfl rfl rfl rfl
  | stop host_id => exact Option.some.inj hnext ▸ inv_stop_call h
  | remove_host host_id =>
    simp only [State.next] at hnext
    split at hnext
    · exact Option.some.inj hnext ▸ inv_of_same h rfl rfl rfl rfl rfl
    · exact Option.some.inj hnext ▸ h
  | remove_stop host_id =>
    obtain ⟨_, hstate⟩ := Option.ite_none_right_eq_some.mp hnext
    have hcalls : Inv place { s with calls := s.calls.erase (.remove host_id) } :=
      inv_of_same h rfl rfl rfl rfl rfl
    exact Option.some.inj hstate ▸ inv_stop_call hcalls
  | reserve call =>
    obtain ⟨_, hstate⟩ := Option.ite_none_right_eq_some.mp hnext
    have hcalls : Inv place { s with calls := s.calls.erase call } :=
      inv_of_same h rfl rfl rfl rfl rfl
    cases call with
    | start host_id rotation => exact Option.some.inj hstate ▸ inv_reserve hcalls nofun
    | stop host_id => exact Option.some.inj hstate ▸ inv_reserve hcalls nofun
    | remove host_id => exact nomatch hstate
  | operation host_id act =>
    obtain ⟨operation, hop, hstep⟩ := Option.bind_eq_some_iff.mp hnext
    exact inv_advance h hop hstep
  | shutdown =>
    obtain ⟨_, hstate⟩ := Option.ite_none_left_eq_some.mp hnext
    obtain rfl := Option.some.inj hstate
    exact inv_shutdown_task h rfl (fun _ => id) rfl rfl rfl fun hreads => absurd rfl hreads
  | shutdown_watchdogs =>
    obtain ⟨task, htask, hrest⟩ := Option.bind_eq_some_iff.mp hnext
    obtain ⟨_, hstate⟩ := Option.ite_none_right_eq_some.mp hrest
    exact Option.some.inj hstate ▸ inv_shutdown_watchdogs h htask
  | shutdown_operations =>
    obtain ⟨task, htask, hrest⟩ := Option.bind_eq_some_iff.mp hnext
    obtain ⟨hreads, hstate⟩ := Option.ite_none_right_eq_some.mp hrest
    exact Option.some.inj hstate ▸ inv_shutdown_operations h htask hreads
  | shutdown_stop host_id performed =>
    obtain ⟨task, htask, hrest⟩ := Option.bind_eq_some_iff.mp hnext
    obtain ⟨⟨hreads, _⟩, hstate⟩ := Option.ite_none_right_eq_some.mp hrest
    exact Option.some.inj hstate ▸ inv_shutdown_stop h htask hreads
      (run_stop_session owner performed _)
  | shutdown_finish cut_off =>
    obtain ⟨task, htask, hrest⟩ := Option.bind_eq_some_iff.mp hnext
    cases cut_off with
    | true => exact Option.some.inj hrest ▸ inv_finish fun _ _ => rfl
    | false =>
      obtain ⟨⟨hreads, hpending, hnone⟩, hstate⟩ := Option.ite_none_right_eq_some.mp hrest
      have hempty : s.watchdog_operations = ∅ := AList.ext hnone
      refine Option.some.inj hstate ▸ inv_finish fun other hlive => ?_
      have hnonzero : task.reads ≠ 0 := by omega
      rcases (h.host other).awaited task htask hnonzero hlive with hmem | hfailed | ⟨_, hfound, _⟩
      · rw [hpending] at hmem
        exact absurd hmem (Finset.notMem_empty other)
      · exact decide_eq_true hfailed
      · rw [hempty] at hfound
        exact nomatch hfound
  | ended at_place =>
    obtain rfl := Option.some.inj hnext
    refine ⟨h.flagged, fun other => ?_⟩
    exact (h.host other).frame (live_of_put (.inl rfl)) id rfl rfl
  | appeared at_place other_owner =>
    obtain ⟨_, hstate⟩ := Option.ite_none_right_eq_some.mp hnext
    obtain rfl := Option.some.inj hstate
    refine ⟨h.flagged, fun other => ?_⟩
    refine (h.host other).frame (live_of_put (.inr (.inr ⟨_, rfl, .inr ?_⟩))) id rfl rfl
    exact nofun

theorem reachable_inv (h : (watchdogs owner place).Reachable s) : Inv place s := by
  have hinit : ∀ s, (watchdogs owner place).init s → Inv place s := by
    rintro s ⟨_, _, _, _, hshutdown, hsessions⟩
    refine ⟨fun hsome => ?_, fun other => .of_not_live ?_⟩
    · rw [hshutdown] at hsome
      exact nomatch hsome
    · rintro ⟨found, hfound, hcreator, _⟩
      rw [hsessions _ found hfound] at hcreator
      exact nomatch hcreator
  have hstep : ∀ s label s', Inv place s → True →
      (watchdogs owner place).next s label = some s' → Inv place s' :=
    fun _ _ _ hs _ hnext => inv_next hs hnext
  exact h.invariant hinit hstep

/-! ### What becomes of a session -/

/-- The steps that give up a session made for a host: a start command that is
    not known to have succeeded, a clean-up that did not remove it, and the
    end of a shutdown that was cut off or whose stop did not remove it. -/
def GivesUp (s : State Place) (creator : Text) : Label Place → Prop
  | .operation host_id (.start_command run reported) =>
      host_id = creator ∧ (reported = false ∨ run = .interrupted)
  | .operation host_id .cleanup_remove => host_id = creator
  | .shutdown_finish cut_off =>
      cut_off = true ∨ ∃ task, s.shutdown = some task ∧ creator ∈ task.failed
  | _ => False

/-- What a step of the application does to the sessions. -/
structure SessionsStep (owner : Text) (label : Label Place) (s s' : State Place) : Prop where
  spared : ∀ at_place session, s.sessions at_place = some session → session.owner ≠ owner →
    ∃ after, s'.sessions at_place = some after ∧ after.owner = session.owner
  given_up : ∀ at_place after creator, s'.sessions at_place = some after →
    after.abandoned = true → after.creator = some creator →
      (∃ before, s.sessions at_place = some before ∧ before.abandoned = true) ∨
        GivesUp s creator label

variable {label : Label Place}

omit [DecidableEq Place] in
theorem SessionsStep.of_same (h : s'.sessions = s.sessions) : SessionsStep owner label s s' where
  spared := by
    intro at_place session hsession _
    exact ⟨session, by rw [h, hsession], rfl⟩
  given_up := by
    intro at_place after _ hafter hgone _
    exact .inl ⟨after, by rw [← h, hafter], hgone⟩

theorem SessionsStep.of_put {at_place : Place} {session : Option Session}
    (h : s'.sessions = Function.update s.sessions at_place session)
    (hspared : ∀ before, s.sessions at_place = some before → before.owner ≠ owner →
      ∃ after, session = some after ∧ after.owner = before.owner)
    (hgiven : ∀ after creator, session = some after → after.abandoned = true →
      after.creator = some creator →
        (∃ before, s.sessions at_place = some before ∧ before.abandoned = true) ∨
          GivesUp s creator label) : SessionsStep owner label s s' where
  spared := by
    intro other before hbefore howner
    rw [h]
    by_cases hother : other = at_place
    · subst hother
      rw [Function.update_self]
      exact hspared before hbefore howner
    · rw [Function.update_of_ne hother]
      exact ⟨before, hbefore, rfl⟩
  given_up := by
    intro other after creator hafter hgone hcreator
    rw [h] at hafter
    by_cases hother : other = at_place
    · subst hother
      rw [Function.update_self] at hafter
      exact hgiven after creator hafter hgone hcreator
    · rw [Function.update_of_ne hother] at hafter
      exact .inl ⟨after, hafter, hgone⟩

theorem SessionsStep.of_stop {at_place : Place} {performed : Bool}
    (h : s'.sessions = Function.update s.sessions at_place
      (run_stop owner performed (s.sessions at_place)).1) : SessionsStep owner label s s' := by
  refine .of_put h (fun before hbefore howner => ?_) fun after creator hafter hgone _ => ?_
  · rw [hbefore, run_stop_foreign howner]
    exact ⟨before, rfl, rfl⟩
  · rcases run_stop_session owner performed (s.sessions at_place) with hnone | hsame
    · exact nomatch hnone.symm.trans hafter
    · exact .inl ⟨after, hsame.symm.trans hafter, hgone⟩

omit [DecidableEq Place] in
theorem SessionsStep.of_abandon {gone : Text → Bool} (h : s'.sessions = abandon gone s.sessions)
    (hgone : ∀ creator, gone creator = true → GivesUp s creator label) :
    SessionsStep owner label s s' where
  spared := by
    intro at_place before hbefore _
    rw [h]
    refine ⟨_, congrArg _ hbefore, ?_⟩
    show (if before.creator.any gone then { before with abandoned := true } else before).owner =
      before.owner
    split <;> rfl
  given_up := by
    intro at_place after creator hafter habandoned hcreator
    rw [h] at hafter
    obtain ⟨before, hbefore, hmap⟩ := Option.map_eq_some_iff.mp hafter
    by_cases hmatch : before.creator.any gone = true
    · rw [if_pos hmatch] at hmap
      rw [← hmap] at hcreator
      rw [show before.creator = some creator from hcreator] at hmatch
      exact .inr (hgone creator hmatch)
    · rw [if_neg hmatch] at hmap
      exact .inl ⟨before, hbefore, hmap ▸ habandoned⟩

theorem sessions_start_command (rotation : Nat) (run : StartRun) (reported : Bool) :
    SessionsStep owner (.operation host_id (.start_command run reported)) s
      (s.start_command owner place host_id rotation run reported) := by
  rcases start_command_cases owner place s host_id rotation run reported with
    ⟨session, hsession, howner, heq⟩ | ⟨hnone, heq⟩ | ⟨after, hafter, heq⟩
  · rw [heq]
    refine .of_put rfl (fun before hbefore hforeign => ?_) fun found creator hfound hgone _ => ?_
    · obtain rfl := Option.some.inj (hsession.symm.trans hbefore)
      exact absurd howner hforeign
    · exact .inl ⟨found, hsession.trans hfound, hgone⟩
  · rw [heq]
    refine .of_put rfl (fun before hbefore _ => ?_) fun found creator hfound hgone _ => ?_
    · exact nomatch hnone.symm.trans hbefore
    · obtain rfl := Option.some.inj hfound
      exact nomatch hgone
  · rw [heq]
    refine .of_put rfl (fun before hbefore _ => ?_) fun found creator hfound hgone hcreator => ?_
    · rcases hafter with hsame | ⟨hnone, _⟩
      · exact ⟨before, hsame.trans hbefore, rfl⟩
      · exact nomatch hnone.symm.trans hbefore
    · rcases hafter with hsame | ⟨_, hcause, made, hmade, _, hmaker⟩
      · exact .inl ⟨found, hsame.symm.trans hfound, hgone⟩
      · obtain rfl := Option.some.inj (hmade.symm.trans hfound)
        exact .inr ⟨Option.some.inj (hmaker.symm.trans hcreator), hcause⟩

theorem sessions_track (rotation : Nat) :
    SessionsStep owner label s ((s.track place host_id rotation).release host_id) := by
  refine .of_put rfl (fun before hbefore _ => ?_) fun after creator hafter hgone _ => ?_
  · exact ⟨_, congrArg _ hbefore, rfl⟩
  · obtain ⟨before, hbefore, hmap⟩ := Option.map_eq_some_iff.mp hafter
    rw [← hmap] at hgone
    exact .inl ⟨before, hbefore, (Bool.and_eq_true_iff.mp hgone).1⟩

theorem sessions_advance {act : Act}
    (hstep : s.advance owner place host_id operation act = some s') :
    SessionsStep owner (.operation host_id act) s s' := by
  unfold State.advance at hstep
  split at hstep
  case h_2 => exact Option.some.inj hstep ▸ sessions_start_command _ _ _
  case h_3 =>
    obtain rfl := Option.some.inj hstep
    split <;> exact .of_same rfl
  case h_5 =>
    split at hstep
    · exact Option.some.inj hstep ▸ .of_same rfl
    · split at hstep
      · exact Option.some.inj hstep ▸ .of_same rfl
      · split at hstep <;> exact Option.some.inj hstep ▸ .of_same rfl
  case h_7 => exact Option.some.inj hstep ▸ sessions_track _
  case h_8 => exact Option.some.inj hstep ▸ .of_stop rfl
  case h_9 =>
    refine Option.some.inj hstep ▸ .of_abandon rfl fun creator hgone => ?_
    exact (of_decide_eq_true hgone).symm
  case h_11 performed reported =>
    split at hstep
    case h_1 session exit_code hrun =>
      have hsession : session = (run_stop owner performed (s.sessions (place host_id))).1 := by
        rw [hrun]
      subst hsession
      split at hstep <;> exact Option.some.inj hstep ▸ .of_stop rfl
  case h_14 => exact nomatch hstep
  all_goals exact Option.some.inj hstep ▸ .of_same rfl

/-- Whether a step is the application's own. -/
def Label.IsOurs : Label Place → Prop
  | .ended _ | .appeared _ _ => False
  | _ => True

theorem sessions_next (hours : label.IsOurs) (hnext : s.next owner place label = some s') :
    SessionsStep owner label s s' := by
  cases label with
  | start host_id rotation =>
    simp only [State.next] at hnext
    split at hnext <;> exact Option.some.inj hnext ▸ .of_same rfl
  | stop host_id =>
    obtain rfl := Option.some.inj hnext
    unfold State.stop_call
    split <;> exact .of_same rfl
  | remove_host host_id =>
    simp only [State.next] at hnext
    split at hnext <;> exact Option.some.inj hnext ▸ .of_same rfl
  | remove_stop host_id =>
    obtain ⟨_, hstate⟩ := Option.ite_none_right_eq_some.mp hnext
    obtain rfl := Option.some.inj hstate
    unfold State.stop_call
    split <;> exact .of_same rfl
  | reserve call =>
    obtain ⟨_, hstate⟩ := Option.ite_none_right_eq_some.mp hnext
    cases call with
    | remove host_id => exact nomatch hstate
    | start host_id rotation =>
      obtain rfl := Option.some.inj hstate
      unfold State.reserve
      split <;> exact .of_same rfl
    | stop host_id =>
      obtain rfl := Option.some.inj hstate
      unfold State.reserve
      split <;> exact .of_same rfl
  | operation host_id act =>
    obtain ⟨_, _, hstep⟩ := Option.bind_eq_some_iff.mp hnext
    exact sessions_advance hstep
  | shutdown =>
    obtain ⟨_, hstate⟩ := Option.ite_none_left_eq_some.mp hnext
    exact Option.some.inj hstate ▸ .of_same rfl
  | shutdown_watchdogs =>
    obtain ⟨_, _, hrest⟩ := Option.bind_eq_some_iff.mp hnext
    obtain ⟨_, hstate⟩ := Option.ite_none_right_eq_some.mp hrest
    exact Option.some.inj hstate ▸ .of_same rfl
  | shutdown_operations =>
    obtain ⟨_, _, hrest⟩ := Option.bind_eq_some_iff.mp hnext
    obtain ⟨_, hstate⟩ := Option.ite_none_right_eq_some.mp hrest
    exact Option.some.inj hstate ▸ .of_same rfl
  | shutdown_stop host_id performed =>
    obtain ⟨_, _, hrest⟩ := Option.bind_eq_some_iff.mp hnext
    obtain ⟨_, hstate⟩ := Option.ite_none_right_eq_some.mp hrest
    exact Option.some.inj hstate ▸ .of_stop rfl
  | shutdown_finish cut_off =>
    obtain ⟨task, htask, hrest⟩ := Option.bind_eq_some_iff.mp hnext
    cases cut_off with
    | true => exact Option.some.inj hrest ▸ .of_abandon rfl fun _ _ => .inl rfl
    | false =>
      obtain ⟨_, hstate⟩ := Option.ite_none_right_eq_some.mp hrest
      refine Option.some.inj hstate ▸ .of_abandon rfl fun creator hgone => ?_
      exact .inr ⟨task, htask, of_decide_eq_true hgone⟩
  | ended at_place => exact hours.elim
  | appeared at_place other => exact hours.elim

/-! ### Adoption -/

/-- The start command does not go on with the session of another owner. -/
theorem start_command_foreign {session : Session} {run : StartRun} {reported : Bool}
    (hsession : s.sessions (place host_id) = some session) (howner : session.owner ≠ owner)
    (hnext : s.next owner place (.operation host_id (.start_command run reported)) = some s') :
    s'.watchdog_operations.lookup host_id = none ∧ s'.watchdogs = s.watchdogs := by
  obtain ⟨operation, _, hstep⟩ := Option.bind_eq_some_iff.mp hnext
  cases operation with
  | start_reserved rotation =>
    obtain rfl := Option.some.inj hstep
    rcases start_command_cases owner place s host_id rotation run reported with
      ⟨found, hfound, hours, _⟩ | ⟨hnone, _⟩ | ⟨after, _, heq⟩
    · obtain rfl := Option.some.inj (hsession.symm.trans hfound)
      exact absurd hours howner
    · exact nomatch hsession.symm.trans hnone
    · rw [heq]
      exact ⟨State.release_self _ _, rfl⟩
  | _ => exact nomatch hstep

theorem next_operation (t : State Place) (operation : Operation) (act : Act) :
    (t.operate host_id operation).next owner place (.operation host_id act) =
      (t.operate host_id operation).advance owner place host_id operation act := by
  show ((t.operate host_id operation).watchdog_operations.lookup host_id).bind _ = _
  rw [State.operate_self]
  rfl

theorem steps_next {t : State Place}
    (hrun : (watchdogs owner place).StepsWhen (fun _ _ => True) s s')
    (h : s'.next owner place label = some t) :
    (watchdogs owner place).StepsWhen (fun _ _ => True) s t :=
  Machine.StepsWhen.step (l := label) hrun trivial h

/-- A start that reaches a host with a session of this installation adopts it. -/
theorem start_adopts {session : Session} {rotation : Nat}
    (hfree : s.watchdog_operations.lookup host_id = none) (hflag : s.shutting_down = false)
    (hsession : s.sessions (place host_id) = some session) (howner : session.owner = owner)
    (hrotation : 1 ≤ rotation ∧ rotation ≤ 1440) :
    ∃ s', (watchdogs owner place).StepsWhen (fun _ _ => True) s s' ∧
      (s'.watchdogs.lookup host_id).isSome := by
  have hcall : s.next owner place (.start host_id rotation) =
      some { s with calls := .start host_id rotation :: s.calls } := by
    simp [State.next, hflag, hrotation]
  have hreserve : State.next { s with calls := .start host_id rotation :: s.calls } owner place
      (.reserve (.start host_id rotation)) = some (s.operate host_id (.start_reserved rotation)) := by
    simp [State.next, State.reserve, hfree, State.operate]
  -- the session as the command leaves it
  let t := (s.operate host_id (.start_reserved rotation)).put (place host_id) (some session)
  have hthere : t.sessions (place host_id) = some session := State.put_self _ _ _
  have hcommand : (s.operate host_id (.start_reserved rotation)).next owner place
      (.operation host_id (.start_command .completed true)) =
        some (t.operate host_id (.start_ran rotation false)) := by
    rw [next_operation]
    simp [State.advance, State.start_command, hsession, run_start, howner,
      watchdog_start_disposition, t]
  have hinsert : (t.operate host_id (.start_ran rotation false)).next owner place
      (.operation host_id .start_insert) =
        some ((t.operate host_id (.start_ran rotation false)).operate host_id
          (.start_inserted rotation false)) := next_operation _ _ _
  let u := t.operate host_id (.start_ran rotation false)
  have hno : u.shutting_down = false := hflag
  have hstill : u.sessions (place host_id) = some session := hthere
  have hlook : (u.operate host_id (.start_inserted rotation false)).next owner place
      (.operation host_id .start_flag) =
        some ((u.operate host_id (.start_inserted rotation false)).operate host_id
          (.start_inspecting rotation false)) := by
    rw [next_operation]
    simp [State.advance, hno]
  let v := u.operate host_id (.start_inserted rotation false)
  have hinspect : (v.operate host_id (.start_inspecting rotation false)).next owner place
      (.operation host_id (.start_inspect (some true))) =
        some ((v.operate host_id (.start_inspecting rotation false)).operate host_id
          (.start_running rotation)) := by
    rw [next_operation]
    simp [State.advance, v, hstill, status_running, howner]
  let w := v.operate host_id (.start_inspecting rotation false)
  have hagain : (w.operate host_id (.start_running rotation)).next owner place
      (.operation host_id .start_flag) =
        some ((w.operate host_id (.start_running rotation)).operate host_id
          (.start_ready rotation)) := by
    rw [next_operation]
    simp [State.advance, w, v, hno]
  let x := (w.operate host_id (.start_running rotation)).operate host_id (.start_ready rotation)
  have hdone : x.next owner place (.operation host_id .start_done) =
      some ((x.track place host_id rotation).release host_id) := next_operation _ _ _
  refine ⟨(x.track place host_id rotation).release host_id, ?_, ?_⟩
  · have hbegun := steps_next (steps_next (.refl s) hcall) hreserve
    have hadopted := steps_next (steps_next hbegun hcommand) hinsert
    exact steps_next (steps_next (steps_next (steps_next hadopted hlook) hinspect) hagain) hdone
  · show ((x.watchdogs.insert host_id rotation).lookup host_id).isSome
    rw [AList.lookup_insert]
    rfl

def lab : Text := "11111111-2222-4333-8444-555555555555".toList

def nonce : Text := "0123456789abcdef0123456789abcdef".toList

def idle : State Text where
  watchdogs := ∅
  watchdog_operations := ∅
  shutting_down := false
  calls := []
  shutdown := none
  sessions := fun _ => none

theorem idle_init : (watchdogs nonce id).init idle := ⟨rfl, rfl, rfl, rfl, rfl, nofun⟩

/-- The session runs, made for the host, and no operation holds the host. -/
def runs_idle (s : State Text) : Bool :=
  (s.watchdog_operations.lookup lab).isNone &&
    (s.sessions lab).any fun session => session.owner = nonce ∧ session.creator = some lab

end Telemetry.Watchdog
