import RemoteDeck.Telemetry.Signals

/-! # KILL only after TERM

    Every attempt of the table stands for a TERM that was recorded and that
    neither a KILL of the same process nor a removal of its host came after.
    An admission check that finds an attempt therefore finds the TERM in the
    history, and what is sent after it keeps the history as it was.
-/

namespace Telemetry

variable {Digest : Type} {digest : Text → Digest}
  {signals signals' : Signals Digest} {label : SignalLabel Digest} {log : List SignalEvent}
  {target : ProcessTarget} {id time now : Nat}

/-! ### Histories -/

/-- The event does not use up a TERM of the process. -/
def Spares (target : ProcessTarget) : SignalEvent → Prop
  | .kill_recorded other => other ≠ target
  | .host_removed host_id => host_id ≠ target.host_id
  | _ => True

/-- A TERM was recorded at a time, and nothing used it up since. -/
def Standing (log : List SignalEvent) (target : ProcessTarget) (time : Nat) : Prop :=
  ∃ before after, log = before ++ .term_recorded target time :: after ∧
    ∀ event ∈ after, Spares target event

/-- A request was checked when a TERM of its process stood that was recent. -/
def Admitted (log : List SignalEvent) (id : Nat) (target : ProcessTarget) : Prop :=
  ∃ before now after time, log = before ++ .checked id target now :: after ∧
    Standing before target time ∧ now - time ≤ TERM_ATTEMPT_TTL

/-- Every KILL was sent after such a check of its request. -/
def KillsEscalate (log : List SignalEvent) : Prop :=
  ∀ before id target command after, log = before ++ .sent id target KILL command :: after →
    Admitted before id target

theorem Standing.append {event : SignalEvent} (h : Standing log target time)
    (hspares : Spares target event) : Standing (log ++ [event]) target time := by
  obtain ⟨before, after, rfl, hafter⟩ := h
  refine ⟨before, after ++ [event], by rw [List.append_assoc]; rfl, fun other hother => ?_⟩
  rcases List.mem_append.mp hother with hold | hlast
  · exact hafter other hold
  · exact List.mem_singleton.mp hlast ▸ hspares

theorem Admitted.append (h : Admitted log id target) (event : SignalEvent) :
    Admitted (log ++ [event]) id target := by
  obtain ⟨before, now, after, time, rfl, hstanding, hrecent⟩ := h
  exact ⟨before, now, after ++ [event], time, by rw [List.append_assoc]; rfl, hstanding, hrecent⟩

/-- An event of an extended history is the last one or was there before. -/
theorem snoc_eq_append_cons {α : Type} {items before after : List α} {last item : α}
    (h : items ++ [last] = before ++ item :: after) :
    before = items ∧ item = last ∨ ∃ rest, items = before ++ item :: rest := by
  rcases List.eq_nil_or_concat after with rfl | ⟨rest, end', rfl⟩
  · obtain ⟨hitems, hlast⟩ := List.append_inj' h rfl
    exact .inl ⟨hitems.symm, (List.singleton_inj.mp hlast).symm⟩
  · rw [List.concat_eq_append, ← List.cons_append, ← List.append_assoc] at h
    exact .inr ⟨rest, (List.append_inj' h rfl).1⟩

theorem KillsEscalate.append {event : SignalEvent} (h : KillsEscalate log)
    (hsent : ∀ id target command, event = .sent id target KILL command → Admitted log id target) :
    KillsEscalate (log ++ [event]) := by
  intro before id target command after hlog
  rcases snoc_eq_append_cons hlog with ⟨rfl, hevent⟩ | ⟨rest, hold⟩
  · exact hsent id target command hevent.symm
  · exact h before id target command rest hold

/-! ### The invariant -/

structure EscalationInv (digest : Text → Digest) (signals : Signals Digest) : Prop where
  attempts : ∀ attempt ∈ signals.term_attempts, ∃ target,
    process_identity digest target = attempt.1 ∧ Standing signals.log target attempt.2
  bounded : signals.term_attempts.length ≤ MAX_TERM_ATTEMPTS
  admitted : ∀ id request, signals.requests id = some request → request.stage = .admitted →
    Admitted signals.log id request.target
  kills : KillsEscalate signals.log

theorem escalationInv_init : EscalationInv digest (.default : Signals Digest) where
  attempts _ h := absurd h List.not_mem_nil
  bounded := Nat.zero_le _
  admitted _ _ h := absurd h.symm (Option.some_ne_none _)
  kills before _ _ _ _ h := by simp [Signals.default] at h

theorem process_identity_injective (hdigest : Function.Injective digest) :
    Function.Injective (process_identity digest) := by
  intro left right h
  obtain ⟨hhost, hpid, hstart, huser, hcommand⟩ := ProcessIdentity.mk.inj h
  have huser := hdigest huser
  have hcommand := hdigest hcommand
  cases left
  cases right
  congr

/-! ### Parts of a step -/

/-- A request goes on; if it is admitted, it was checked. -/
theorem EscalationInv.set_stage (h : EscalationInv digest signals) (request : SignalRequest)
    {stage : SignalStage} (hstage : stage = .admitted → Admitted signals.log id request.target) :
    EscalationInv digest (signals.set_stage id request stage) := by
  refine { h with admitted := ?_ }
  intro other found hfound hadmitted
  change Function.update signals.requests id _ other = _ at hfound
  by_cases hid : other = id
  · subst hid
    rw [Function.update_self, Option.some.injEq] at hfound
    subst hfound
    exact hstage hadmitted
  · rw [Function.update_of_ne hid] at hfound
    exact h.admitted other found hfound hadmitted

/-- The table loses attempts. -/
theorem EscalationInv.restrict (h : EscalationInv digest signals) (attempts : Attempts Digest)
    (hsub : attempts.Sublist signals.term_attempts) :
    EscalationInv digest { signals with term_attempts := attempts } :=
  { h with
    attempts := fun attempt hattempt => h.attempts attempt (hsub.subset hattempt)
    bounded := hsub.length_le.trans h.bounded }

/-- An event is added that the attempts of the table survive. -/
theorem EscalationInv.append (h : EscalationInv digest signals) (event : SignalEvent)
    (hspares : ∀ attempt ∈ signals.term_attempts, ∀ target,
      process_identity digest target = attempt.1 → Spares target event)
    (hsent : ∀ id target command, event = .sent id target KILL command →
      Admitted signals.log id target) :
    EscalationInv digest (signals.append event) where
  attempts attempt hattempt := by
    obtain ⟨target, hidentity, hstanding⟩ := h.attempts attempt hattempt
    exact ⟨target, hidentity, hstanding.append (hspares attempt hattempt target hidentity)⟩
  bounded := h.bounded
  admitted id request hrequest hstage := (h.admitted id request hrequest hstage).append event
  kills := h.kills.append hsent

/-! ### Checking and recording -/

variable [DecidableEq Digest]

theorem evict_attempt_sublist {attempts kept : Attempts Digest} {oldest : ProcessIdentity Digest}
    (h : evict_attempt attempts oldest = some kept) (hbound : attempts.length ≤ MAX_TERM_ATTEMPTS) :
    kept.Sublist attempts ∧ kept.length < MAX_TERM_ATTEMPTS := by
  unfold evict_attempt at h
  split at h
  · obtain ⟨holdest, h⟩ := Option.ite_none_right_eq_some.mp h
    obtain rfl := Option.some.inj h
    refine ⟨List.filter_sublist, Nat.lt_of_lt_of_le ?_ hbound⟩
    -- the oldest attempt is in the table
    obtain ⟨attempt, hattempt, hfirst⟩ := List.any_eq_true.mp holdest
    have hidentity : attempt.1 = oldest := of_decide_eq_true (Bool.and_eq_true_iff.mp hfirst).1
    apply List.length_filter_lt_length_iff_exists.mpr
    exact ⟨attempt, hattempt, by simp [hidentity]⟩
  · next hroom =>
    obtain rfl := Option.some.inj h
    exact ⟨List.Sublist.refl _, Nat.lt_of_not_le hroom⟩

theorem EscalationInv.record_term (h : EscalationInv digest signals) {attempts : Attempts Digest}
    (hsub : attempts.Sublist signals.term_attempts) (hroom : attempts.length < MAX_TERM_ATTEMPTS)
    (target : ProcessTarget) (now : Nat) :
    EscalationInv digest
      ({ signals with
          term_attempts := insert_attempt attempts (process_identity digest target) now }.append
        (.term_recorded target now)) where
  attempts attempt hattempt := by
    rcases List.mem_append.mp hattempt with hold | hlast
    · obtain ⟨other, hidentity, hstanding⟩ :=
        h.attempts attempt (hsub.subset (List.mem_of_mem_filter hold))
      exact ⟨other, hidentity, hstanding.append trivial⟩
    · obtain rfl := List.mem_singleton.mp hlast
      exact ⟨target, rfl, signals.log, [], rfl, fun _ hnone => absurd hnone List.not_mem_nil⟩
  bounded := by
    show (remove_attempt attempts (process_identity digest target) ++ [_]).length ≤ _
    rw [List.length_append, List.length_singleton]
    have hle : (remove_attempt attempts (process_identity digest target)).length ≤ attempts.length :=
      List.length_filter_le _ _
    omega
  admitted id request hrequest hstage := (h.admitted id request hrequest hstage).append _
  kills := h.kills.append nofun

theorem EscalationInv.check (hdigest : Function.Injective digest) (h : EscalationInv digest signals)
    (request : SignalRequest) : EscalationInv digest (signals.check digest id request now) := by
  unfold Signals.check
  dsimp only
  have hrecent := h.restrict (retain_recent now signals.term_attempts) List.filter_sublist
  split
  · next hcontains =>
    have hchecked := hrecent.append (.checked id request.target now)
      (fun _ _ _ _ => trivial) nofun
    apply hchecked.set_stage request
    intro _
    obtain ⟨attempt, hattempt, hidentity⟩ := List.any_eq_true.mp hcontains
    obtain ⟨target, htarget, hstanding⟩ := hrecent.attempts attempt hattempt
    have hsame : target = request.target :=
      process_identity_injective hdigest (htarget.trans (of_decide_eq_true hidentity))
    have hage := of_decide_eq_true (List.mem_filter.mp hattempt).2
    exact ⟨signals.log, now, [], attempt.2, rfl, hsame ▸ hstanding, hage⟩
  · exact hrecent.set_stage request nofun

theorem EscalationInv.record (h : EscalationInv digest signals) (request : SignalRequest)
    {oldest : ProcessIdentity Digest}
    (hrecord : signals.record digest id request now oldest = some signals') :
    EscalationInv digest signals' := by
  unfold Signals.record at hrecord
  dsimp only at hrecord
  split at hrecord
  · obtain ⟨attempts, hevict, hrecord⟩ := Option.bind_eq_some_iff.mp hrecord
    obtain rfl := Option.some.inj hrecord
    have hrecent : (retain_recent now signals.term_attempts).Sublist signals.term_attempts :=
      List.filter_sublist
    obtain ⟨hsub, hroom⟩ := evict_attempt_sublist hevict (hrecent.length_le.trans h.bounded)
    exact (h.record_term (hsub.trans hrecent) hroom request.target now).set_stage request nofun
  · obtain rfl := Option.some.inj hrecord
    have hremoved := h.restrict
      (remove_attempt signals.term_attempts (process_identity digest request.target))
      List.filter_sublist
    have hkilled := hremoved.append (.kill_recorded request.target)
      (by
        intro attempt hattempt target hidentity heq
        have hne := of_decide_eq_true (List.mem_filter.mp hattempt).2
        exact hne (heq ▸ hidentity).symm) nofun
    exact hkilled.set_stage request nofun

/-! ### Steps -/

theorem escalationInv_step (hdigest : Function.Injective digest) (h : EscalationInv digest signals)
    (hnext : (signal_machine digest).next signals label = some signals') :
    EscalationInv digest signals' := by
  dsimp only [signal_machine] at hnext
  cases label with
  | request id target signal =>
    dsimp only [Signals.next] at hnext
    split at hnext
    · simp at hnext
    · split at hnext
      · obtain rfl := Option.some.inj hnext
        exact h.set_stage _ nofun
      · obtain rfl := Option.some.inj hnext
        exact h.set_stage _ nofun
  | read_clock id =>
    obtain ⟨request, hrequest, hnext⟩ := Option.bind_eq_some_iff.mp hnext
    split at hnext
    · obtain ⟨_, hnext⟩ := Option.ite_none_right_eq_some.mp hnext
      obtain rfl := Option.some.inj hnext
      exact h.set_stage request nofun
    · obtain rfl := Option.some.inj hnext
      exact h.set_stage request nofun
    · simp at hnext
  | check id =>
    obtain ⟨request, hrequest, hnext⟩ := Option.bind_eq_some_iff.mp hnext
    split at hnext
    · obtain rfl := Option.some.inj hnext
      exact h.check hdigest request
    · simp at hnext
  | send id =>
    obtain ⟨request, hrequest, hnext⟩ := Option.bind_eq_some_iff.mp hnext
    dsimp only at hnext
    split at hnext
    · split at hnext
      · simp at hnext
      · next hterm =>
        obtain rfl := Option.some.inj hnext
        have hlogged := h.append (.sent id request.target request.signal
          (build_signal_command request.target request.signal)) (fun _ _ _ _ => trivial) (by
            intro _ _ _ hsent
            injection hsent with _ _ hsignal _
            exact absurd hsignal hterm)
        exact hlogged.set_stage request nofun
    · next hadmitted =>
      obtain rfl := Option.some.inj hnext
      have hlogged := h.append (.sent id request.target request.signal
        (build_signal_command request.target request.signal)) (fun _ _ _ _ => trivial) (by
          intro other target _ hsent
          injection hsent with hid htarget _ _
          rw [← hid, ← htarget]
          exact h.admitted id request hrequest hadmitted)
      exact hlogged.set_stage request nofun
    · simp at hnext
  | respond id response =>
    obtain ⟨request, hrequest, hnext⟩ := Option.bind_eq_some_iff.mp hnext
    split at hnext
    · split at hnext
      · obtain rfl := Option.some.inj hnext
        exact h.set_stage request nofun
      · obtain rfl := Option.some.inj hnext
        exact h.set_stage request nofun
    · simp at hnext
  | record id oldest =>
    obtain ⟨request, hrequest, hnext⟩ := Option.bind_eq_some_iff.mp hnext
    split at hnext
    · exact h.record request hnext
    · simp at hnext
  | drop id =>
    obtain ⟨request, hrequest, hnext⟩ := Option.bind_eq_some_iff.mp hnext
    split at hnext
    · obtain rfl := Option.some.inj hnext
      exact h.set_stage request nofun
    · simp at hnext
  | remove_host host_id =>
    obtain rfl := Option.some.inj hnext
    have hkept := h.restrict
      (signals.term_attempts.filter fun attempt => attempt.1.host_id ≠ host_id)
      List.filter_sublist
    refine hkept.append (.host_removed host_id)
      (fun attempt hattempt target hidentity heq => ?_) nofun
    have hne := of_decide_eq_true (List.mem_filter.mp hattempt).2
    have hhost : target.host_id = attempt.1.host_id := congrArg ProcessIdentity.host_id hidentity
    exact hne (hhost.symm.trans heq.symm)
  | shutdown =>
    obtain rfl := Option.some.inj hnext
    exact (h.restrict _ (List.nil_sublist _)).append _ (fun _ _ _ _ => trivial) nofun
  | elapse duration =>
    obtain rfl := Option.some.inj hnext
    exact { h with }

/-- **KILL only after TERM.**  In every run, each KILL that is sent was
    checked after a TERM of the same process was recorded, at most the time
    limit before, and neither a KILL of it was recorded nor its host removed
    in between; and the table of attempts keeps its bound. -/
theorem kill_only_after_term (hdigest : Function.Injective digest)
    (h : (signal_machine digest).Reachable signals) :
    KillsEscalate signals.log ∧ signals.term_attempts.length ≤ MAX_TERM_ATTEMPTS := by
  have hinv : EscalationInv digest signals :=
    h.invariant (fun _ hinit => hinit ▸ escalationInv_init) fun _ _ _ hinv _ hnext =>
      escalationInv_step hdigest hinv hnext
  exact ⟨hinv.kills, hinv.bounded⟩

/-- A process of a host. -/
def sample_target : ProcessTarget where
  host_id := "h".toList
  pid := 7
  expected_start_ticks := 100
  expected_user := "u".toList
  expected_command := "sleep 60".toList

/-- TERM is sent and recorded, and a second later KILL is sent. -/
def escalating_run : List (SignalLabel Text) :=
  let success := .ok { exit_code := some 0, stderr := [] }
  let identity := process_identity (fun text => text) sample_target
  [.request 0 sample_target TERM, .send 0, .respond 0 success, .read_clock 0, .record 0 identity,
    .elapse 1000000000, .request 1 sample_target KILL, .read_clock 1, .check 1, .send 1]

theorem sent_kill_escalates :
    ∃ signals, (signal_machine fun text : Text => text).Reachable signals ∧
      (signals.log.any fun event =>
        match event with
        | .sent _ _ signal _ => signal = KILL
        | _ => false) = true ∧
      KillsEscalate signals.log ∧ signals.term_attempts.length ≤ MAX_TERM_ATTEMPTS := by
  have hreach : ∃ signals, (signal_machine fun text : Text => text).Reachable signals ∧
      (signals.log.any fun event =>
        match event with
        | .sent _ _ signal _ => signal = KILL
        | _ => false) = true :=
    Machine.reachable_of_replay (fun _ _ => true) (fun _ _ _ => trivial) rfl escalating_run _
      (by decide +kernel)
  obtain ⟨signals, hsignals, hsent⟩ := hreach
  exact ⟨signals, hsignals, hsent, kill_only_after_term Function.injective_id hsignals⟩

end Telemetry
