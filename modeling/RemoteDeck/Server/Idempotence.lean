import Mathlib.Data.List.Nodup
import RemoteDeck.Server.Requests

/-! # Idempotent operations

    The channels are numbered in the order in which their records are made.
    `made` is this history: the call and the key of each record, retained or
    not.  A claimed call, a task and a run each belong to one entry of it,
    and a retained record is the last one of its key.

    An outcome that is recorded is final as long as nothing is sent on a
    channel that has one.
-/

namespace Server

variable {Value Digest : Type} {env : RequestEnv Value Digest}
  {requests requests' : Requests Value Digest} {label : RequestLabel Value}
  {made : List (Nat × Text)} {id channel : Nat} {call : Call Value} {work : Work Value}

/-! ### The invariant -/

/-- The digest of the operation that a call asks for. -/
def Call.digest_is (env : RequestEnv Value Digest) (call : Call Value) (digest : Digest) : Prop :=
  ∃ bytes, env.json.to_vec call.request.args = some bytes ∧
    digest = request_digest env call.request.command bytes

/-- Nothing was made of the channel of a claimed call yet. -/
structure Unused (channels : Nat → Option (Outcome Value)) (works : Nat → Option (Work Value))
    (runs : List Run) (channel : Nat) : Prop where
  silent : channels channel = none
  work : ∀ id work, works id = some work → work.channel ≠ channel
  run : ∀ run ∈ runs, run.channel ≠ channel

structure RequestInv (env : RequestEnv Value Digest) (made : List (Nat × Text))
    (requests : Requests Value Digest) : Prop where
  next : requests.next_channel = made.length
  fresh : ∀ channel, made.length ≤ channel → requests.channels channel = none
  bounded : requests.records.length ≤ MAX_REQUESTS
  distinct : (requests.records.map RequestRecord.key).Nodup
  recorded : ∀ record ∈ requests.records, made[record.channel]? = some (record.call, record.key)
  latest : ∀ record ∈ requests.records, ∀ channel call, made[channel]? = some (call, record.key) →
    channel ≤ record.channel
  digests : ∀ record ∈ requests.records, ∃ call, requests.calls record.call = some call ∧
    call.record_key = record.key ∧ call.digest_is env record.digest
  claimed : ∀ id call channel, requests.calls id = some call → call.stage = .claimed channel →
    made[channel]? = some (id, call.record_key) ∧
      Unused requests.channels requests.works requests.runs channel
  worked : ∀ id work, requests.works id = some work →
    made[work.channel]? = some (work.call, work.key) ∧ id ≤ requests.admission.next ∧
      (work.stage = .spawned → ∀ run ∈ requests.runs, run.channel ≠ work.channel)
  works_distinct : ∀ id id' work work', requests.works id = some work →
    requests.works id' = some work' → work.channel = work'.channel → id = id'
  tasks : ∀ task ∈ requests.admission.tasks, ∃ work, requests.works task.id = some work ∧
    work.channel = task.channel
  ran : ∀ run ∈ requests.runs, made[run.channel]? = some (run.call, run.key)
  runs_distinct : (requests.runs.map Run.channel).Nodup
  answered : ∀ id call outcome channel, requests.calls id = some call →
    call.stage = .answered outcome (some channel) → requests.channels channel = some outcome

theorem requestInv_init : RequestInv env [] (.default : Requests Value Digest) where
  next := rfl
  fresh _ _ := rfl
  bounded := Nat.zero_le _
  distinct := List.nodup_nil
  recorded _ h := absurd h List.not_mem_nil
  latest _ h := absurd h List.not_mem_nil
  digests _ h := absurd h List.not_mem_nil
  claimed _ _ _ h := absurd h.symm (Option.some_ne_none _)
  worked _ _ h := absurd h.symm (Option.some_ne_none _)
  works_distinct _ _ _ _ h := absurd h.symm (Option.some_ne_none _)
  tasks _ h := absurd h List.not_mem_nil
  ran _ h := absurd h List.not_mem_nil
  runs_distinct := List.nodup_nil
  answered _ _ _ _ h := absurd h.symm (Option.some_ne_none _)

theorem lt_of_made {entry : Nat × Text} (h : made[channel]? = some entry) : channel < made.length :=
  (List.getElem?_eq_some_iff.mp h).1

/-! ### Parts of a step -/

/-- A call goes on without a claim. -/
theorem RequestInv.set_call (h : RequestInv env made requests) {stage : CallStage Value}
    (hcall : requests.calls id = none ∨
      ∃ old, requests.calls id = some old ∧ old.request = call.request)
    (hstage : ∀ channel, stage ≠ .claimed channel)
    (hanswer : ∀ outcome channel, stage = .answered outcome (some channel) →
      requests.channels channel = some outcome) :
    RequestInv env made (requests.set_call id call stage) := by
  have hcalls : ∀ other found, (requests.set_call id call stage).calls other = some found →
      other = id ∧ found = { call with stage := stage } ∨ requests.calls other = some found := by
    intro other found hfound
    change Function.update requests.calls id _ other = _ at hfound
    by_cases hid : other = id
    · subst hid
      rw [Function.update_self, Option.some.injEq] at hfound
      exact .inl ⟨rfl, hfound.symm⟩
    · rw [Function.update_of_ne hid] at hfound
      exact .inr hfound
  refine { h with digests := ?_, claimed := ?_, answered := ?_ }
  · intro record hrecord
    obtain ⟨maker, hmaker, hkey, hdigest⟩ := h.digests record hrecord
    by_cases hid : record.call = id
    · refine ⟨{ call with stage := stage }, ?_, ?_⟩
      · show Function.update requests.calls id _ record.call = _
        rw [hid, Function.update_self]
      · rw [hid] at hmaker
        rcases hcall with hnone | ⟨old, hold, hrequest⟩
        · rw [hnone] at hmaker
          exact absurd hmaker.symm (Option.some_ne_none _)
        · rw [hold, Option.some.injEq] at hmaker
          subst hmaker
          unfold Call.record_key Call.digest_is at *
          exact ⟨hrequest ▸ hkey, hrequest ▸ hdigest⟩
    · refine ⟨maker, ?_, hkey, hdigest⟩
      show Function.update requests.calls id _ record.call = _
      rw [Function.update_of_ne hid, hmaker]
  · intro other found channel hfound hclaimed
    rcases hcalls other found hfound with ⟨rfl, rfl⟩ | hold
    · exact absurd hclaimed (hstage channel)
    · exact h.claimed other found channel hold hclaimed
  · intro other found outcome channel hfound hanswered
    rcases hcalls other found hfound with ⟨rfl, rfl⟩ | hold
    · exact hanswer outcome channel hanswered
    · exact h.answered other found outcome channel hold hanswered

/-- A task goes on. -/
theorem RequestInv.set_work (h : RequestInv env made requests) {stage : WorkStage Value}
    (hwork : requests.works id = some work) (hstage : stage ≠ .spawned) :
    RequestInv env made (requests.set_work id work stage) := by
  have hworks : ∀ other found, (requests.set_work id work stage).works other = some found →
      ∃ old, requests.works other = some old ∧ found.channel = old.channel ∧
        found.call = old.call ∧ found.key = old.key ∧ (found.stage = .spawned → found = old) := by
    intro other found hfound
    change Function.update requests.works id _ other = _ at hfound
    by_cases hid : other = id
    · subst hid
      rw [Function.update_self, Option.some.injEq] at hfound
      subst hfound
      exact ⟨work, hwork, rfl, rfl, rfl, fun hspawned => absurd hspawned hstage⟩
    · rw [Function.update_of_ne hid] at hfound
      exact ⟨found, hfound, rfl, rfl, rfl, fun _ => rfl⟩
  refine { h with claimed := ?_, worked := ?_, works_distinct := ?_, tasks := ?_ }
  · intro other found channel hfound hclaimed
    obtain ⟨hmade, hunused⟩ := h.claimed other found channel hfound hclaimed
    refine ⟨hmade, hunused.silent, fun key value hvalue => ?_, hunused.run⟩
    obtain ⟨old, hold, hchannel, _⟩ := hworks key value hvalue
    exact hchannel ▸ hunused.work key old hold
  · intro other found hfound
    obtain ⟨old, hold, hchannel, hcall, hkey, hsame⟩ := hworks other found hfound
    obtain ⟨hmade, hle, hspawned⟩ := h.worked other old hold
    refine ⟨by rw [hchannel, hcall, hkey]; exact hmade, hle, fun hstage => ?_⟩
    obtain rfl := hsame hstage
    exact hspawned hstage
  · intro one two left right hleft hright hchannel
    obtain ⟨left', hleft', hlc, _⟩ := hworks one left hleft
    obtain ⟨right', hright', hrc, _⟩ := hworks two right hright
    exact h.works_distinct one two left' right' hleft' hright' (hlc ▸ hrc ▸ hchannel)
  · intro task htask
    obtain ⟨found, hfound, hchannel⟩ := h.tasks task htask
    by_cases hid : task.id = id
    · refine ⟨{ work with stage := stage }, ?_, ?_⟩
      · show Function.update requests.works id _ task.id = _
        rw [hid, Function.update_self]
      · rw [hid, hwork, Option.some.injEq] at hfound
        exact hfound ▸ hchannel
    · refine ⟨found, ?_, hchannel⟩
      show Function.update requests.works id _ task.id = _
      rw [Function.update_of_ne hid, hfound]

/-- Outcomes are sent on channels of admitted requests that have none. -/
theorem RequestInv.send_all (h : RequestInv env made requests)
    {channels : Nat → Option (Outcome Value)}
    (hchannels : ∀ channel, channels channel = requests.channels channel ∨
      requests.channels channel = none ∧ channel < made.length ∧
        ∀ id call, requests.calls id = some call → call.stage ≠ .claimed channel) :
    RequestInv env made { requests with channels := channels } := by
  refine { h with fresh := ?_, claimed := ?_, answered := ?_ }
  · intro channel hle
    rcases hchannels channel with hsame | ⟨_, hlt, _⟩
    · exact hsame.trans (h.fresh channel hle)
    · omega
  · intro id call channel hcall hclaimed
    obtain ⟨hmade, hunused⟩ := h.claimed id call channel hcall hclaimed
    rcases hchannels channel with hsame | ⟨_, _, hnot⟩
    · exact ⟨hmade, hsame.trans hunused.silent, hunused.work, hunused.run⟩
    · exact absurd hclaimed (hnot id call hcall)
  · intro id call outcome channel hcall hanswered
    have hsome := h.answered id call outcome channel hcall hanswered
    rcases hchannels channel with hsame | ⟨hnone, _, _⟩
    · exact hsame.trans hsome
    · rw [hnone] at hsome
      exact absurd hsome.symm (Option.some_ne_none _)

/-- Old records are dropped. -/
theorem RequestInv.retain (h : RequestInv env made requests) :
    RequestInv env made { requests with records := requests.retain } := by
  have hsub : requests.retain.Sublist requests.records := List.filter_sublist
  exact { h with
    bounded := hsub.length_le.trans h.bounded
    distinct := h.distinct.sublist (hsub.map _)
    recorded := fun record hrecord => h.recorded record (hsub.subset hrecord)
    latest := fun record hrecord => h.latest record (hsub.subset hrecord)
    digests := fun record hrecord => h.digests record (hsub.subset hrecord) }

/-- A work that is channel of a task is no claimed one. -/
theorem RequestInv.not_claimed (h : RequestInv env made requests) {id : Nat}
    (hwork : requests.works id = some work) (other : Nat) (call : Call Value)
    (hcall : requests.calls other = some call) : call.stage ≠ .claimed work.channel := by
  intro hclaimed
  exact (h.claimed other call _ hcall hclaimed).2.work id work hwork rfl

/-! ### Claims -/

theorem getElem?_snoc {entry found : Nat × Text} (h : (made ++ [entry])[channel]? = some found) :
    made[channel]? = some found ∨ channel = made.length ∧ found = entry := by
  rcases Nat.lt_trichotomy channel made.length with hlt | heq | hgt
  · rw [List.getElem?_append_left hlt] at h
    exact .inl h
  · subst heq
    rw [List.getElem?_concat_length, Option.some.injEq] at h
    exact .inr ⟨rfl, h.symm⟩
  · rw [List.getElem?_eq_none (by rw [List.length_append, List.length_singleton]; omega)] at h
    exact absurd h.symm (Option.some_ne_none _)

theorem getElem?_snoc_of {entry found : Nat × Text} (h : made[channel]? = some found) :
    (made ++ [entry])[channel]? = some found := by
  rw [List.getElem?_append_left (lt_of_made h), h]

/-- A call makes a record for a key that has none. -/
theorem RequestInv.claim_new (h : RequestInv env made requests) {key : Text} {digest : Digest}
    (hcall : requests.calls id = some call)
    (hkey : call.record_key = key) (hdigest : call.digest_is env digest)
    (hnew : ∀ record ∈ requests.records, record.key ≠ key)
    (hroom : requests.records.length < MAX_REQUESTS) :
    RequestInv env (made ++ [(id, key)])
      (Requests.set_call
        { requests with
          next_channel := requests.next_channel + 1
          records := requests.records ++ [{
            key := key
            digest := digest
            started := requests.clock
            channel := requests.next_channel
            call := id }] }
        id call (.claimed requests.next_channel)) := by
  have hnext := h.next
  have hcalls : ∀ other found,
      Function.update requests.calls id (some { call with stage := .claimed requests.next_channel })
        other = some found →
      other = id ∧ found = { call with stage := .claimed requests.next_channel } ∨
        requests.calls other = some found ∧ other ≠ id := by
    intro other found hfound
    by_cases hid : other = id
    · subst hid
      rw [Function.update_self, Option.some.injEq] at hfound
      exact .inl ⟨rfl, hfound.symm⟩
    · rw [Function.update_of_ne hid] at hfound
      exact .inr ⟨hfound, hid⟩
  refine
    { next := ?_, fresh := ?_, bounded := ?_, distinct := ?_, recorded := ?_, latest := ?_,
      digests := ?_, claimed := ?_, worked := ?_, works_distinct := h.works_distinct,
      tasks := h.tasks, ran := ?_, runs_distinct := h.runs_distinct, answered := ?_ }
  · rw [List.length_append]
    exact congrArg (· + 1) hnext
  · intro channel hle
    rw [List.length_append] at hle
    exact h.fresh channel (Nat.le_of_succ_le hle)
  · show (requests.records ++ [_]).length ≤ _
    rw [List.length_append]
    exact hroom
  · show ((requests.records ++ [_]).map RequestRecord.key).Nodup
    rw [List.map_append]
    apply List.nodup_append.mpr ⟨h.distinct, List.nodup_singleton _, _⟩
    intro old hold other hother heq
    obtain ⟨record, hrecord, rfl⟩ := List.mem_map.mp hold
    rw [List.mem_singleton.mp hother] at heq
    exact hnew record hrecord heq
  · intro record hrecord
    rcases List.mem_append.mp hrecord with hold | hlast
    · exact getElem?_snoc_of (h.recorded record hold)
    · rw [List.mem_singleton.mp hlast, hnext]
      exact List.getElem?_concat_length
  · intro record hrecord channel other hmade
    rcases List.mem_append.mp hrecord with hold | hlast
    · rcases getElem?_snoc hmade with hmade | ⟨_, heq⟩
      · exact h.latest record hold channel other hmade
      · exact absurd (congrArg Prod.snd heq) (hnew record hold)
    · rw [List.mem_singleton.mp hlast, hnext]
      have hlt := lt_of_made hmade
      rw [List.length_append, List.length_singleton] at hlt
      exact Nat.le_of_lt_succ hlt
  · intro record hrecord
    rcases List.mem_append.mp hrecord with hold | hlast
    · obtain ⟨maker, hmaker, hmaker_key, hmaker_digest⟩ := h.digests record hold
      by_cases hid : record.call = id
      · refine ⟨{ call with stage := .claimed requests.next_channel }, ?_, ?_⟩
        · show Function.update requests.calls id _ record.call = _
          rw [hid, Function.update_self]
        · rw [hid, hcall, Option.some.injEq] at hmaker
          subst hmaker
          exact ⟨hmaker_key, hmaker_digest⟩
      · refine ⟨maker, ?_, hmaker_key, hmaker_digest⟩
        show Function.update requests.calls id _ record.call = _
        rw [Function.update_of_ne hid, hmaker]
    · rw [List.mem_singleton.mp hlast]
      exact ⟨_, Function.update_self .., hkey, hdigest⟩
  · intro other found channel hfound hclaimed
    rcases hcalls other found hfound with ⟨rfl, rfl⟩ | ⟨hold, _⟩
    · obtain rfl := CallStage.claimed.inj hclaimed
      rw [hnext]
      refine ⟨?_, h.fresh _ (Nat.le_refl _), fun id work hwork heq => ?_, fun run hrun heq => ?_⟩
      · show _ = some (other, call.record_key)
        rw [hkey]
        exact List.getElem?_concat_length
      · have hlt := lt_of_made (h.worked id work hwork).1
        omega
      · have hlt := lt_of_made (h.ran run hrun)
        omega
    · obtain ⟨hmade, hunused⟩ := h.claimed other found channel hold hclaimed
      exact ⟨getElem?_snoc_of hmade, hunused.silent, hunused.work, hunused.run⟩
  · intro other found hfound
    obtain ⟨hmade, hle, hspawned⟩ := h.worked other found hfound
    exact ⟨getElem?_snoc_of hmade, hle, hspawned⟩
  · intro run hrun
    exact getElem?_snoc_of (h.ran run hrun)
  · intro other found outcome channel hfound hanswered
    rcases hcalls other found hfound with ⟨rfl, rfl⟩ | ⟨hold, _⟩
    · exact absurd hanswered nofun
    · exact h.answered other found outcome channel hold hanswered

/-- Where a claim with a retained record of its key comes to. -/
def joined_stage [DecidableEq Digest] (env : RequestEnv Value Digest) (digest : Digest)
    (record : RequestRecord Digest) : CallStage Value :=
  if record.digest = digest then .waiting record.channel
  else .answered (idempotency_conflict.outcome env) none

/-- What the claim of a call does. -/
inductive ClaimEffect [DecidableEq Digest] (env : RequestEnv Value Digest)
    (requests : Requests Value Digest) (id : Nat) (call : Call Value) :
    Requests Value Digest → Prop where
  | invalid (error : ApiError) :
      (∀ key bytes, call.request.key = some key → env.is_uuid key = true →
        env.json.to_vec call.request.args ≠ some bytes) →
      ClaimEffect env requests id call
        (requests.set_call id call (.answered (error.outcome env) none))
  | existing (key : Text) (bytes : List UInt8) (record : RequestRecord Digest) :
      call.request.key = some key → env.json.to_vec call.request.args = some bytes →
      record ∈ requests.retain → record.key = record_key call.request.session key →
      ClaimEffect env requests id call
        (Requests.set_call { requests with records := requests.retain } id call
          (joined_stage env (request_digest env call.request.command bytes) record))
  | full (key : Text) : call.request.key = some key →
      (∀ record ∈ requests.retain, record.key ≠ record_key call.request.session key) →
      ClaimEffect env requests id call
        (Requests.set_call { requests with records := requests.retain } id call
          (.answered (request_limit.outcome env) none))
  | new (key : Text) (bytes : List UInt8) : call.request.key = some key →
      env.json.to_vec call.request.args = some bytes →
      (∀ record ∈ requests.retain, record.key ≠ record_key call.request.session key) →
      requests.retain.length < MAX_REQUESTS →
      ClaimEffect env requests id call
        (Requests.set_call
          { requests with
            next_channel := requests.next_channel + 1
            records := requests.retain ++ [{
              key := record_key call.request.session key
              digest := request_digest env call.request.command bytes
              started := requests.clock
              channel := requests.next_channel
              call := id }] }
          id call (.claimed requests.next_channel))

theorem claim_effect [DecidableEq Digest] (requests : Requests Value Digest) (id : Nat)
    (call : Call Value) : ClaimEffect env requests id call (requests.claim_call env id call) := by
  unfold Requests.claim_call
  cases hkey : call.request.key with
  | none =>
    refine .invalid _ fun key bytes hsome => ?_
    rw [hkey] at hsome
    exact absurd hsome.symm (Option.some_ne_none _)
  | some key =>
    unfold Requests.claim
    by_cases huuid : env.is_uuid key = true
    · simp only [huuid]
      cases hbytes : env.json.to_vec call.request.args with
      | none =>
        refine .invalid _ fun _ bytes _ _ hsome => ?_
        rw [hbytes] at hsome
        exact absurd hsome.symm (Option.some_ne_none _)
      | some bytes =>
        simp only [Requests.claim_key]
        cases hfind : requests.retain.find? fun record =>
            record.key = record_key call.request.session key with
        | some record =>
          have hrecord := List.mem_of_find?_eq_some hfind
          have hsame : record.key = record_key call.request.session key := by
            simpa using List.find?_some hfind
          have hjoined : ClaimEffect env requests id call _ :=
            .existing key bytes record hkey hbytes hrecord hsame
          unfold joined_stage at hjoined
          by_cases hdigest : record.digest = request_digest env call.request.command bytes
          · rw [if_pos hdigest] at hjoined
            simp only [if_neg (not_not.mpr hdigest)]
            exact hjoined
          · rw [if_neg hdigest] at hjoined
            simp only [if_pos hdigest]
            exact hjoined
        | none =>
          have hnew : ∀ record ∈ requests.retain,
              record.key ≠ record_key call.request.session key := by
            intro record hrecord heq
            exact absurd (decide_eq_true heq) (List.find?_eq_none.mp hfind record hrecord)
          by_cases hfull : MAX_REQUESTS ≤ requests.retain.length
          · simp only [if_pos hfull]
            exact .full key hkey hnew
          · simp only [if_neg hfull]
            exact .new key bytes hkey hbytes hnew (Nat.lt_of_not_le hfull)
    · simp only [(Bool.not_eq_true _).mp huuid]
      refine .invalid _ fun other bytes hsome haccepted => ?_
      rw [hkey, Option.some.injEq] at hsome
      exact absurd (hsome ▸ haccepted) huuid

theorem RequestInv.claim_call [DecidableEq Digest] (h : RequestInv env made requests)
    (hcall : requests.calls id = some call) :
    ∃ made', RequestInv env made' (requests.claim_call env id call) := by
  have heffect : ClaimEffect env requests id call _ := claim_effect requests id call
  generalize requests.claim_call env id call = requests' at heffect
  cases heffect with
  | invalid => exact ⟨made, h.set_call (.inr ⟨call, hcall, rfl⟩) nofun nofun⟩
  | existing key bytes record =>
    refine ⟨made, h.retain.set_call (.inr ⟨call, hcall, rfl⟩) ?_ ?_⟩
    · intro channel
      unfold joined_stage
      split <;> nofun
    · intro outcome channel
      unfold joined_stage
      split <;> nofun
  | full => exact ⟨made, h.retain.set_call (.inr ⟨call, hcall, rfl⟩) nofun nofun⟩
  | new key bytes hkey hbytes hnew hroom =>
    refine ⟨_, h.retain.claim_new hcall ?_ ⟨bytes, hbytes, rfl⟩ hnew hroom⟩
    unfold Call.record_key
    rw [hkey]
    rfl

/-! ### Admission -/

theorem set_call_twice (requests : Requests Value Digest) (id : Nat) (call : Call Value)
    (stage stage' : CallStage Value) :
    (requests.set_call id call stage).set_call id call stage' = requests.set_call id call stage' := by
  unfold Requests.set_call
  rw [Function.update_idem]

/-- A call that left its claim has a channel that no other call claims. -/
theorem RequestInv.unclaimed (h : RequestInv env made requests) (stage : CallStage Value)
    (hcall : requests.calls id = some call) (hclaimed : call.stage = .claimed channel)
    (hstage : stage ≠ .claimed channel) (other : Nat) (found : Call Value)
    (hfound : (requests.set_call id call stage).calls other = some found) :
    found.stage ≠ .claimed channel := by
  change Function.update requests.calls id _ other = _ at hfound
  by_cases hid : other = id
  · rw [hid, Function.update_self, Option.some.injEq] at hfound
    exact hfound ▸ hstage
  · rw [Function.update_of_ne hid] at hfound
    intro hother
    have hmade := (h.claimed id call channel hcall hclaimed).1
    rw [(h.claimed other found channel hfound hother).1, Option.some.injEq] at hmade
    exact hid (congrArg Prod.fst hmade)

/-- A task is admitted for a channel that nothing was made of. -/
theorem RequestInv.admit (h : RequestInv env made requests) (work : Work Value)
    (hmade : made[work.channel]? = some (work.call, work.key))
    (hunused : Unused requests.channels requests.works requests.runs work.channel)
    (hunclaimed : ∀ id call, requests.calls id = some call → call.stage ≠ .claimed work.channel) :
    RequestInv env made
      { requests with
        admission := { requests.admission with
          next := requests.admission.next + 1
          tasks := requests.admission.tasks ++
            [{ id := requests.admission.next + 1, channel := work.channel }] }
        works := Function.update requests.works (requests.admission.next + 1) (some work) } := by
  have hworks : ∀ id found,
      Function.update requests.works (requests.admission.next + 1) (some work) id = some found →
      id = requests.admission.next + 1 ∧ found = work ∨
        requests.works id = some found ∧ id ≤ requests.admission.next := by
    intro id found hfound
    by_cases hid : id = requests.admission.next + 1
    · rw [hid, Function.update_self, Option.some.injEq] at hfound
      exact .inl ⟨hid, hfound.symm⟩
    · rw [Function.update_of_ne hid] at hfound
      exact .inr ⟨hfound, (h.worked id found hfound).2.1⟩
  refine { h with claimed := ?_, worked := ?_, works_distinct := ?_, tasks := ?_ }
  · intro id call channel hcall hclaimed
    obtain ⟨hentry, hfree⟩ := h.claimed id call channel hcall hclaimed
    refine ⟨hentry, hfree.silent, fun key found hfound => ?_, hfree.run⟩
    rcases hworks key found hfound with ⟨_, rfl⟩ | ⟨hold, _⟩
    · intro heq
      exact hunclaimed id call hcall (heq ▸ hclaimed)
    · exact hfree.work key found hold
  · intro id found hfound
    rcases hworks id found hfound with ⟨rfl, rfl⟩ | ⟨hold, hle⟩
    · exact ⟨hmade, Nat.le_refl _, fun _ => hunused.run⟩
    · obtain ⟨hentry, _, hspawned⟩ := h.worked id found hold
      exact ⟨hentry, Nat.le_succ_of_le hle, hspawned⟩
  · intro one two left right hleft hright hchannel
    rcases hworks one left hleft with ⟨hone, hnew⟩ | ⟨hold, _⟩
    · rcases hworks two right hright with ⟨htwo, _⟩ | ⟨hold', _⟩
      · rw [hone, htwo]
      · exact absurd (hchannel ▸ congrArg Work.channel hnew) (hunused.work two right hold')
    · rcases hworks two right hright with ⟨_, hnew⟩ | ⟨hold', _⟩
      · exact absurd (hchannel.trans (congrArg Work.channel hnew)) (hunused.work one left hold)
      · exact h.works_distinct one two left right hold hold' hchannel
  · intro task htask
    rcases List.mem_append.mp htask with hold | hlast
    · obtain ⟨found, hfound, hchannel⟩ := h.tasks task hold
      have hle := (h.worked task.id found hfound).2.1
      refine ⟨found, ?_, hchannel⟩
      rw [← hfound]
      exact Function.update_of_ne (by omega) ..
    · obtain rfl := List.mem_singleton.mp hlast
      exact ⟨work, Function.update_self .., rfl⟩

theorem RequestInv.spawn (h : RequestInv env made requests)
    (hcall : requests.calls id = some call) (hclaimed : call.stage = .claimed channel) :
    RequestInv env made (requests.spawn env id call channel) := by
  obtain ⟨hmade, hunused⟩ := h.claimed id call channel hcall hclaimed
  -- the call leaves its claim first, and then the channel is used
  have hwaiting : RequestInv env made (requests.set_call id call (.waiting channel)) :=
    h.set_call (.inr ⟨call, hcall, rfl⟩) nofun nofun
  have hunclaimed := h.unclaimed (.waiting channel) hcall hclaimed nofun
  unfold Requests.spawn
  split
  · have hsent : RequestInv env made
        ((requests.set_call id call (.waiting channel)).send channel (admission_closed.outcome env)) := by
      apply hwaiting.send_all
      intro other
      by_cases hother : other = channel
      · subst hother
        exact .inr ⟨hunused.silent, lt_of_made hmade, hunclaimed⟩
      · exact .inl (Function.update_of_ne hother ..)
    have hanswered : RequestInv env made (Requests.set_call
        ((requests.set_call id call (.waiting channel)).send channel (admission_closed.outcome env)) id
        call (.answered (admission_closed.outcome env) (some channel))) := hsent.set_call
      (.inr ⟨_, Function.update_self .., rfl⟩) nofun (by
        intro outcome other hstage
        injection hstage with houtcome hother
        injection hother with hother
        subst houtcome hother
        exact Function.update_self ..)
    have hsame := set_call_twice (requests.send channel (admission_closed.outcome env)) id call
      (.waiting channel) (.answered (admission_closed.outcome env) (some channel))
    exact hsame ▸ hanswered
  · exact hwaiting.admit {
      call := id
      key := call.record_key
      channel := channel
      stage := .spawned
      aborted := false } hmade hunused hunclaimed

/-! ### Tasks -/

/-- The first poll of a task begins its run. -/
theorem RequestInv.begin_run (h : RequestInv env made requests)
    (hwork : requests.works id = some work) (hspawned : work.stage = .spawned) :
    RequestInv env made (Requests.set_work
      { requests with
        runs := requests.runs ++ [{ call := work.call, key := work.key, channel := work.channel }] }
      id work .polled) := by
  obtain ⟨hmade, _, hfirst⟩ := h.worked id work hwork
  have hpolled : RequestInv env made (requests.set_work id work .polled) := h.set_work hwork nofun
  have hruns : ∀ run, run ∈ requests.runs ++
      [{ call := work.call, key := work.key, channel := work.channel }] →
      run ∈ requests.runs ∨ run = { call := work.call, key := work.key, channel := work.channel } := by
    intro run hrun
    rcases List.mem_append.mp hrun with hold | hlast
    · exact .inl hold
    · exact .inr (List.mem_singleton.mp hlast)
  refine { hpolled with claimed := ?_, worked := ?_, ran := ?_, runs_distinct := ?_ }
  · intro other call channel hcall hclaimed
    obtain ⟨hentry, hunused⟩ := hpolled.claimed other call channel hcall hclaimed
    refine ⟨hentry, hunused.silent, hunused.work, fun run hrun => ?_⟩
    rcases hruns run hrun with hold | rfl
    · exact hunused.run run hold
    · intro heq
      have hsame : work.channel = channel := heq
      exact h.not_claimed hwork other call hcall (hsame ▸ hclaimed)
  · intro other found hfound
    obtain ⟨hentry, hle, hnone⟩ := hpolled.worked other found hfound
    refine ⟨hentry, hle, fun hstage run hrun => ?_⟩
    rcases hruns run hrun with hold | rfl
    · exact hnone hstage run hold
    · intro heq
      -- another task does not have this channel, and this one is polled now
      have hid : id = other := hpolled.works_distinct id other _ found (Function.update_self ..) hfound heq
      subst hid
      change Function.update requests.works id _ id = _ at hfound
      rw [Function.update_self, Option.some.injEq] at hfound
      rw [← hfound] at hstage
      exact absurd hstage nofun
  · intro run hrun
    rcases hruns run hrun with hold | rfl
    · exact h.ran run hold
    · exact hmade
  · show ((requests.runs ++ [_]).map Run.channel).Nodup
    rw [List.map_append]
    apply List.nodup_append.mpr ⟨h.runs_distinct, List.nodup_singleton _, _⟩
    intro old hold other hother heq
    obtain ⟨run, hrun, rfl⟩ := List.mem_map.mp hold
    rw [List.mem_singleton.mp hother] at heq
    exact hfirst hspawned run hrun heq

/-- The shutdown sends to the channels of the table, and aborts its tasks. -/
theorem RequestInv.cancel_all (h : RequestInv env made requests)
    (hsilent : ∀ task ∈ requests.admission.tasks, requests.channels task.channel = none) :
    RequestInv env made (requests.cancel_all env) := by
  have hsent : RequestInv env made
      { requests with channels := (requests.cancel_all env).channels } := by
    apply h.send_all
    intro channel
    by_cases htask : (requests.admission.tasks.any fun task => task.channel = channel) = true
    · right
      obtain ⟨task, hmem, hchannel⟩ := List.any_eq_true.mp htask
      obtain rfl := of_decide_eq_true hchannel
      obtain ⟨work, hwork, hsame⟩ := h.tasks task hmem
      have hmade := (h.worked task.id work hwork).1
      rw [hsame] at hmade
      exact ⟨hsilent task hmem, lt_of_made hmade, hsame ▸ h.not_claimed hwork⟩
    · exact .inl (if_neg htask)
  have hworks : ∀ id found, (requests.cancel_all env).works id = some found →
      ∃ work, requests.works id = some work ∧ found.channel = work.channel ∧
        found.call = work.call ∧ found.key = work.key ∧ found.stage = work.stage := by
    intro id found hfound
    obtain ⟨work, hwork, rfl⟩ := Option.map_eq_some_iff.mp hfound
    refine ⟨work, hwork, ?_⟩
    split
    · exact ⟨rfl, rfl, rfl, rfl⟩
    · exact ⟨rfl, rfl, rfl, rfl⟩
  refine { hsent with claimed := ?_, worked := ?_, works_distinct := ?_, tasks := ?_ }
  · intro id call channel hcall hclaimed
    obtain ⟨hentry, hunused⟩ := hsent.claimed id call channel hcall hclaimed
    refine ⟨hentry, hunused.silent, fun key found hfound => ?_, hunused.run⟩
    obtain ⟨work, hwork, hchannel, _⟩ := hworks key found hfound
    exact hchannel ▸ hunused.work key work hwork
  · intro id found hfound
    obtain ⟨work, hwork, hchannel, hcall, hkey, hstage⟩ := hworks id found hfound
    obtain ⟨hentry, hle, hspawned⟩ := h.worked id work hwork
    rw [hchannel, hcall, hkey, hstage]
    exact ⟨hentry, hle, hspawned⟩
  · intro one two left right hleft hright hchannel
    obtain ⟨left', hleft', hlc, _⟩ := hworks one left hleft
    obtain ⟨right', hright', hrc, _⟩ := hworks two right hright
    exact h.works_distinct one two left' right' hleft' hright' (hlc ▸ hrc ▸ hchannel)
  · intro task htask
    exact absurd htask List.not_mem_nil

/-! ### Steps -/

/-- An outcome is sent only on channels that have none: a task sends no
    outcome after the shutdown sent one, and the shutdown comes to no task
    between its outcome and its leave. -/
def SendsOnce (requests : Requests Value Digest) : RequestLabel Value → Prop
  | .send id => ∀ work, requests.works id = some work → requests.channels work.channel = none
  | .cancel_and_wait =>
      ∀ task ∈ requests.admission.tasks, requests.channels task.channel = none
  | _ => True

theorem requestInv_step [DecidableEq Digest] (h : RequestInv env made requests)
    (hok : SendsOnce requests label)
    (hnext : (request_machine env).next requests label = some requests') :
    ∃ made', RequestInv env made' requests' := by
  dsimp only [request_machine] at hnext
  cases label with
  | arrive id request =>
    dsimp only [Requests.next, Requests.arrive] at hnext
    split at hnext
    · simp at hnext
    · next hnew =>
      have hnone : requests.calls id = none := Option.not_isSome_iff_eq_none.mp hnew
      split at hnext
      · obtain rfl := Option.some.inj hnext
        exact ⟨made, h.set_call (.inl hnone) nofun nofun⟩
      · obtain rfl := Option.some.inj hnext
        exact ⟨made, h.set_call (.inl hnone) nofun nofun⟩
  | claim id =>
    obtain ⟨call, hcall, hnext⟩ := Option.bind_eq_some_iff.mp hnext
    split at hnext
    · obtain rfl := Option.some.inj hnext
      exact h.claim_call hcall
    · simp at hnext
  | spawn id =>
    obtain ⟨call, hcall, hnext⟩ := Option.bind_eq_some_iff.mp hnext
    split at hnext
    · next channel hclaimed =>
      obtain rfl := Option.some.inj hnext
      exact ⟨made, h.spawn hcall hclaimed⟩
    · simp at hnext
  | observe id =>
    obtain ⟨call, hcall, hnext⟩ := Option.bind_eq_some_iff.mp hnext
    split at hnext
    · next channel hwaiting =>
      obtain ⟨outcome, houtcome, hnext⟩ := Option.bind_eq_some_iff.mp hnext
      obtain rfl := Option.some.inj hnext
      refine ⟨made, h.set_call (.inr ⟨call, hcall, rfl⟩) nofun fun seen other hstage => ?_⟩
      injection hstage with hseen hother
      injection hother with hother
      rw [← hseen, ← hother]
      exact houtcome
    · simp at hnext
  | disconnect id =>
    obtain ⟨call, hcall, hnext⟩ := Option.bind_eq_some_iff.mp hnext
    split at hnext
    · obtain rfl := Option.some.inj hnext
      exact ⟨made, h.set_call (.inr ⟨call, hcall, rfl⟩) nofun nofun⟩
    · simp at hnext
  | poll id =>
    obtain ⟨work, hwork, hnext⟩ := Option.bind_eq_some_iff.mp hnext
    dsimp only [Requests.poll] at hnext
    split at hnext
    · next hspawned _ =>
      obtain rfl := Option.some.inj hnext
      exact ⟨made, h.begin_run hwork hspawned⟩
    · obtain rfl := Option.some.inj hnext
      exact ⟨made, h.set_work hwork nofun⟩
    · simp at hnext
  | suspend id =>
    obtain ⟨work, hwork, hnext⟩ := Option.bind_eq_some_iff.mp hnext
    split at hnext
    · obtain rfl := Option.some.inj hnext
      refine ⟨made, h.set_work hwork ?_⟩
      split <;> nofun
    · simp at hnext
  | complete id outcome =>
    obtain ⟨work, hwork, hnext⟩ := Option.bind_eq_some_iff.mp hnext
    split at hnext
    · obtain rfl := Option.some.inj hnext
      exact ⟨made, h.set_work hwork nofun⟩
    · simp at hnext
  | send id =>
    obtain ⟨work, hwork, hnext⟩ := Option.bind_eq_some_iff.mp hnext
    split at hnext
    · next outcome _ =>
      obtain rfl := Option.some.inj hnext
      have hsent : RequestInv env made (requests.send work.channel outcome) := by
        apply h.send_all
        intro channel
        by_cases hchannel : channel = work.channel
        · subst hchannel
          exact .inr ⟨hok work hwork, lt_of_made (h.worked id work hwork).1, h.not_claimed hwork⟩
        · exact .inl (Function.update_of_ne hchannel ..)
      exact ⟨made, hsent.set_work hwork nofun⟩
    · simp at hnext
  | remove id =>
    obtain ⟨work, hwork, hnext⟩ := Option.bind_eq_some_iff.mp hnext
    split at hnext
    · obtain rfl := Option.some.inj hnext
      have hended : RequestInv env made (requests.set_work id work .ended) := h.set_work hwork nofun
      exact ⟨made, { hended with
        tasks := fun task htask => hended.tasks task (List.mem_of_mem_filter htask) }⟩
    · simp at hnext
  | drop id =>
    obtain ⟨work, hwork, hnext⟩ := Option.bind_eq_some_iff.mp hnext
    split at hnext
    · obtain rfl := Option.some.inj hnext
      exact ⟨made, h.set_work hwork nofun⟩
    · obtain rfl := Option.some.inj hnext
      exact ⟨made, h.set_work hwork nofun⟩
    · simp at hnext
  | close =>
    obtain rfl := Option.some.inj hnext
    exact ⟨made, { h with }⟩
  | stop =>
    obtain rfl := Option.some.inj hnext
    exact ⟨made, { h with }⟩
  | cancel_and_wait =>
    obtain rfl := Option.some.inj hnext
    exact ⟨made, h.cancel_all hok⟩
  | elapse duration =>
    obtain rfl := Option.some.inj hnext
    exact ⟨made, { h with }⟩

theorem reachable_requestInv [DecidableEq Digest]
    (h : (request_machine env).ReachableWhen SendsOnce requests) :
    ∃ made, RequestInv env made requests := by
  apply h.invariant (fun _ hinit => ⟨[], hinit ▸ requestInv_init⟩)
  intro s label s' hinv hok hnext
  obtain ⟨made, hinv⟩ := hinv
  exact requestInv_step hinv hok hnext

/-! ### Idempotence -/

/-- The runs of a key since a retained record of it was made. -/
def Requests.runs_of (requests : Requests Value Digest) (record : RequestRecord Digest) : List Run :=
  requests.runs.filter fun run => run.key = record.key ∧ record.channel ≤ run.channel

/-- What holds in a state. -/
structure Requests.Idempotent (env : RequestEnv Value Digest) (requests : Requests Value Digest) :
    Prop where
  bounded : requests.records.length ≤ MAX_REQUESTS
  /-- A key runs at most once while its record is retained. -/
  runs_once : ∀ record ∈ requests.records, (requests.runs_of record).length ≤ 1
  /-- It runs for the call that made the record. -/
  runs_own : ∀ record ∈ requests.records, ∀ run ∈ requests.runs_of record, run.call = record.call
  /-- This call has the key of the record, and the operation of its digest. -/
  made_by : ∀ record ∈ requests.records, ∃ call, requests.calls record.call = some call ∧
    call.record_key = record.key ∧ call.digest_is env record.digest
  /-- An answer through a record is the outcome that it has. -/
  same_outcome : ∀ id call outcome channel, requests.calls id = some call →
    call.stage = .answered outcome (some channel) → requests.channels channel = some outcome

/-- What a step leaves and does. -/
structure Requests.Keeps [DecidableEq Digest] (env : RequestEnv Value Digest) (requests : Requests Value Digest)
    (label : RequestLabel Value) (requests' : Requests Value Digest) : Prop where
  /-- The record of an unfinished operation is not evicted. -/
  unfinished : ∀ record ∈ requests.records, requests.channels record.channel = none →
    record ∈ requests'.records
  /-- A recorded outcome is final. -/
  final : ∀ channel outcome, requests.channels channel = some outcome →
    requests'.channels channel = some outcome
  /-- A refused admission is recorded. -/
  refused : ∀ id call channel, label = .spawn id → requests.calls id = some call →
    call.stage = .claimed channel →
    requests.admission.closed = true ∨ MAX_ADMITTED ≤ requests.admission.tasks.length →
    requests'.channels channel = some (admission_closed.outcome env)
  /-- A claim of a retained key joins its record, or is refused if it is for
      another operation or for other arguments. -/
  joins : ∀ id call key bytes, label = .claim id → requests.calls id = some call →
    call.request.key = some key → env.is_uuid key = true →
    env.json.to_vec call.request.args = some bytes →
    ∀ record ∈ requests.retain, record.key = record_key call.request.session key →
    requests'.calls id = some
      { call with stage := joined_stage env (request_digest env call.request.command bytes) record }

theorem length_le_one {runs : List Run} (hnodup : (runs.map Run.channel).Nodup)
    (hsame : ∀ run ∈ runs, run.channel = channel) : runs.length ≤ 1 := by
  rcases runs with _ | ⟨first, _ | ⟨second, rest⟩⟩
  · exact Nat.zero_le 1
  · exact Nat.le_refl 1
  · have hne := (List.nodup_cons.mp hnodup).1
    have hfirst := hsame first List.mem_cons_self
    have hsecond := hsame second (List.mem_cons_of_mem _ List.mem_cons_self)
    rw [hfirst, ← hsecond] at hne
    exact absurd List.mem_cons_self hne

theorem RequestInv.runs_of (h : RequestInv env made requests) {record : RequestRecord Digest}
    (hrecord : record ∈ requests.records) {run : Run} (hrun : run ∈ requests.runs_of record) :
    run.channel = record.channel ∧ run.call = record.call := by
  obtain ⟨hmem, hof⟩ := List.mem_filter.mp hrun
  obtain ⟨hkey, hle⟩ := of_decide_eq_true hof
  have hmade := h.ran run hmem
  have hlatest := h.latest record hrecord run.channel run.call (hkey ▸ hmade)
  have hsame : run.channel = record.channel := Nat.le_antisymm hlatest hle
  rw [hsame, h.recorded record hrecord, Option.some.injEq] at hmade
  exact ⟨hsame, (congrArg Prod.fst hmade).symm⟩

theorem RequestInv.idempotent (h : RequestInv env made requests) : requests.Idempotent env where
  bounded := h.bounded
  runs_once record hrecord := by
    have hnodup : ((requests.runs_of record).map Run.channel).Nodup :=
      h.runs_distinct.sublist (List.filter_sublist.map _)
    exact length_le_one hnodup fun run hrun => (h.runs_of hrecord hrun).1
  runs_own record hrecord run hrun := (h.runs_of hrecord hrun).2
  made_by := h.digests
  same_outcome := h.answered

/-! What a step leaves of the records and the channels. -/

theorem mem_retain {record : RequestRecord Digest} (hrecord : record ∈ requests.records)
    (hunfinished : requests.channels record.channel = none) : record ∈ requests.retain := by
  apply List.mem_filter.mpr ⟨hrecord, _⟩
  unfold Requests.kept
  rw [hunfinished]
  exact Bool.or_true _

theorem claim_call_keeps [DecidableEq Digest] (requests : Requests Value Digest) (id : Nat)
    (call : Call Value) :
    (requests.claim_call env id call).channels = requests.channels ∧
      ∀ record ∈ requests.retain, record ∈ (requests.claim_call env id call).records := by
  have heffect : ClaimEffect env requests id call _ := claim_effect requests id call
  generalize requests.claim_call env id call = requests' at heffect ⊢
  cases heffect with
  | invalid => exact ⟨rfl, fun record hrecord => List.mem_of_mem_filter hrecord⟩
  | existing => exact ⟨rfl, fun _ hrecord => hrecord⟩
  | full => exact ⟨rfl, fun _ hrecord => hrecord⟩
  | new => exact ⟨rfl, fun _ hrecord => List.mem_append_left _ hrecord⟩

theorem claim_call_joins [DecidableEq Digest] (h : RequestInv env made requests) {key : Text}
    {bytes : List UInt8} (hkey : call.request.key = some key) (huuid : env.is_uuid key = true)
    (hbytes : env.json.to_vec call.request.args = some bytes) {record : RequestRecord Digest}
    (hrecord : record ∈ requests.retain)
    (hsame : record.key = record_key call.request.session key) :
    (requests.claim_call env id call).calls id = some
      { call with stage := joined_stage env (request_digest env call.request.command bytes) record } := by
  have heffect : ClaimEffect env requests id call _ := claim_effect requests id call
  generalize requests.claim_call env id call = requests' at heffect ⊢
  have hother : ∀ other, call.request.key = some other → other = key := by
    intro other hsome
    rw [hkey, Option.some.injEq] at hsome
    exact hsome.symm
  cases heffect with
  | invalid _ hinvalid => exact absurd hbytes (hinvalid key bytes hkey huuid)
  | existing other bytes' found hkey' hbytes' hfound hfound_key =>
    obtain rfl := hother other hkey'
    rw [hbytes, Option.some.injEq] at hbytes'
    have heq := List.inj_on_of_nodup_map h.retain.distinct hfound hrecord (hfound_key.trans hsame.symm)
    rw [hbytes', ← heq]
    exact Function.update_self ..
  | full other hkey' hnew =>
    obtain rfl := hother other hkey'
    exact absurd hsame (hnew record hrecord)
  | new other _ hkey' _ hnew =>
    obtain rfl := hother other hkey'
    exact absurd hsame (hnew record hrecord)

theorem send_final {channel : Nat} {outcome : Outcome Value}
    (hnone : requests.channels channel = none) (other : Nat) (recorded : Outcome Value)
    (hsome : requests.channels other = some recorded) :
    (requests.send channel outcome).channels other = some recorded := by
  have hne : other ≠ channel := by
    intro heq
    rw [heq, hnone] at hsome
    exact absurd hsome.symm (Option.some_ne_none _)
  rw [← hsome]
  exact Function.update_of_ne hne ..

theorem keeps_of_same [DecidableEq Digest] (hrecords : requests'.records = requests.records)
    (hchannels : ∀ channel outcome, requests.channels channel = some outcome →
      requests'.channels channel = some outcome)
    (hclaim : ∀ id, label ≠ .claim id) (hspawn : ∀ id, label ≠ .spawn id) :
    requests.Keeps env label requests' where
  unfinished _ hrecord _ := hrecords ▸ hrecord
  final := hchannels
  refused id _ _ hlabel := absurd hlabel (hspawn id)
  joins id _ _ _ hlabel := absurd hlabel (hclaim id)

theorem keeps_step [DecidableEq Digest] (h : RequestInv env made requests)
    (hok : SendsOnce requests label)
    (hnext : (request_machine env).next requests label = some requests') :
    requests.Keeps env label requests' := by
  dsimp only [request_machine] at hnext
  cases label with
  | claim id =>
    obtain ⟨call, hcall, hnext⟩ := Option.bind_eq_some_iff.mp hnext
    split at hnext
    · obtain rfl := Option.some.inj hnext
      obtain ⟨hchannels, hrecords⟩ : (requests.claim_call env id call).channels = requests.channels ∧
          ∀ record ∈ requests.retain, record ∈ (requests.claim_call env id call).records :=
        claim_call_keeps requests id call
      refine ⟨fun record hrecord hunfinished => hrecords record (mem_retain hrecord hunfinished),
        fun channel outcome hsome => ?_, nofun, ?_⟩
      · rw [hchannels]
        exact hsome
      · intro other found key bytes hlabel hfound hkey huuid hbytes record hrecord hsame
        obtain rfl := RequestLabel.claim.inj hlabel
        rw [hcall, Option.some.injEq] at hfound
        subst hfound
        exact claim_call_joins h hkey huuid hbytes hrecord hsame
    · simp at hnext
  | spawn id =>
    obtain ⟨call, hcall, hnext⟩ := Option.bind_eq_some_iff.mp hnext
    split at hnext
    · next channel hclaimed =>
      obtain rfl := Option.some.inj hnext
      have hsilent := (h.claimed id call channel hcall hclaimed).2.silent
      unfold Requests.spawn
      split
      · refine ⟨fun _ hrecord _ => hrecord, send_final hsilent, ?_, nofun⟩
        intro other found used hlabel hfound hused _
        obtain rfl := RequestLabel.spawn.inj hlabel
        rw [hcall, Option.some.injEq] at hfound
        rw [← hfound, hclaimed] at hused
        obtain rfl := CallStage.claimed.inj hused
        exact Function.update_self ..
      · next hopen =>
        exact ⟨fun _ hrecord _ => hrecord, fun _ _ hsome => hsome,
          fun _ _ _ _ _ _ hrefused => absurd hrefused hopen, nofun⟩
    · simp at hnext
  | send id =>
    obtain ⟨work, hwork, hnext⟩ := Option.bind_eq_some_iff.mp hnext
    split at hnext
    · obtain rfl := Option.some.inj hnext
      exact keeps_of_same rfl (send_final (hok work hwork)) nofun nofun
    · simp at hnext
  | cancel_and_wait =>
    obtain rfl := Option.some.inj hnext
    refine keeps_of_same rfl (fun channel outcome hsome => ?_) nofun nofun
    show (if _ then _ else _) = some outcome
    rw [if_neg, hsome]
    intro hany
    obtain ⟨task, htask, hchannel⟩ := List.any_eq_true.mp hany
    rw [← of_decide_eq_true hchannel, hok task htask] at hsome
    exact absurd hsome.symm (Option.some_ne_none _)
  | arrive id request =>
    dsimp only [Requests.next, Requests.arrive] at hnext
    split at hnext
    · simp at hnext
    · split at hnext
      · obtain rfl := Option.some.inj hnext
        exact keeps_of_same rfl (fun _ _ hsome => hsome) nofun nofun
      · obtain rfl := Option.some.inj hnext
        exact keeps_of_same rfl (fun _ _ hsome => hsome) nofun nofun
  | observe id =>
    obtain ⟨call, hcall, hnext⟩ := Option.bind_eq_some_iff.mp hnext
    split at hnext
    · obtain ⟨outcome, _, hnext⟩ := Option.bind_eq_some_iff.mp hnext
      obtain rfl := Option.some.inj hnext
      exact keeps_of_same rfl (fun _ _ hsome => hsome) nofun nofun
    · simp at hnext
  | disconnect id =>
    obtain ⟨call, hcall, hnext⟩ := Option.bind_eq_some_iff.mp hnext
    split at hnext
    · obtain rfl := Option.some.inj hnext
      exact keeps_of_same rfl (fun _ _ hsome => hsome) nofun nofun
    · simp at hnext
  | poll id =>
    obtain ⟨work, hwork, hnext⟩ := Option.bind_eq_some_iff.mp hnext
    dsimp only [Requests.poll] at hnext
    split at hnext
    · obtain rfl := Option.some.inj hnext
      exact keeps_of_same rfl (fun _ _ hsome => hsome) nofun nofun
    · obtain rfl := Option.some.inj hnext
      exact keeps_of_same rfl (fun _ _ hsome => hsome) nofun nofun
    · simp at hnext
  | suspend id | complete id outcome | remove id =>
    obtain ⟨work, hwork, hnext⟩ := Option.bind_eq_some_iff.mp hnext
    split at hnext
    · obtain rfl := Option.some.inj hnext
      exact keeps_of_same rfl (fun _ _ hsome => hsome) nofun nofun
    · simp at hnext
  | drop id =>
    obtain ⟨work, hwork, hnext⟩ := Option.bind_eq_some_iff.mp hnext
    split at hnext
    · obtain rfl := Option.some.inj hnext
      exact keeps_of_same rfl (fun _ _ hsome => hsome) nofun nofun
    · obtain rfl := Option.some.inj hnext
      exact keeps_of_same rfl (fun _ _ hsome => hsome) nofun nofun
    · simp at hnext
  | close | stop | elapse duration =>
    obtain rfl := Option.some.inj hnext
    exact keeps_of_same rfl (fun _ _ hsome => hsome) nofun nofun

/-- **Idempotent operations.**  In every run in which an outcome is sent only
    on channels that have none, a key runs its operation at most once while
    its record is retained, for the call that made the record; the requests
    that join the record get its outcome, which is final, and those for
    another operation are refused. -/
theorem requests_idempotent [DecidableEq Digest] (env : RequestEnv Value Digest)
    {requests : Requests Value Digest} (h : (request_machine env).ReachableWhen SendsOnce requests) :
    requests.Idempotent env ∧
      ∀ label requests', SendsOnce requests label →
        (request_machine env).next requests label = some requests' →
        requests.Keeps env label requests' := by
  obtain ⟨made, hinv⟩ := reachable_requestInv h
  exact ⟨hinv.idempotent, fun label requests' hok hnext => keeps_step hinv hok hnext⟩

/-! ### Runs -/

/-- Values without content, and digests that are the bytes. -/
def unit_env : RequestEnv Unit (List UInt8) where
  json := { get := fun _ _ => none, as_str := fun _ => none, to_vec := fun _ => some [] }
  is_uuid _ := true
  sha256 bytes := bytes
  error_value _ := ()
  to_vec_error _ := []

def delete_request : Request Unit where
  session := "s".toList
  key := some "6f9619ff-8b86-d011-b42d-00c04fc964ff".toList
  command := "delete_host".toList
  args := ()

/-- Two requests of one key, of which the first one has its answer. -/
def shared_run : List (RequestLabel Unit) :=
  [.arrive 0 delete_request, .claim 0, .spawn 0, .arrive 1 delete_request, .claim 1, .poll 1,
    .complete 1 ⟨202, ()⟩, .send 1, .observe 0]

def sends_once (requests : Requests Value Digest) : RequestLabel Value → Bool
  | .send id => (requests.works id).all fun work => (requests.channels work.channel).isNone
  | .cancel_and_wait =>
      requests.admission.tasks.all fun task => (requests.channels task.channel).isNone
  | _ => true

theorem sends_once_sound (requests : Requests Value Digest) (label : RequestLabel Value)
    (h : sends_once requests label = true) : SendsOnce requests label := by
  cases label with
  | send id =>
    intro work hwork
    have h : (requests.works id).all (fun work => (requests.channels work.channel).isNone) = true := h
    rw [hwork] at h
    exact Option.isNone_iff_eq_none.mp h
  | cancel_and_wait =>
    intro task htask
    exact Option.isNone_iff_eq_none.mp (List.all_eq_true.mp h task htask)
  | _ => trivial

theorem shared_run_idempotent :
    ∃ requests, (request_machine unit_env).ReachableWhen SendsOnce requests ∧
      requests.runs.length = 1 ∧ requests.Idempotent unit_env := by
  have hreach : ∃ requests, (request_machine unit_env).ReachableWhen SendsOnce requests ∧
      decide (requests.runs.length = 1) = true :=
    Machine.reachable_of_replay sends_once sends_once_sound rfl shared_run _ (by decide +kernel)
  obtain ⟨requests, hrequests, hruns⟩ := hreach
  exact ⟨requests, hrequests, of_decide_eq_true hruns, (requests_idempotent unit_env hrequests).1⟩

/-- The shutdown finds the task between its outcome and its leave, and
    replaces the outcome: the second request of the key gets another one. -/
theorem shutdown_replaces_outcome :
    ∃ requests first second outcome outcome', (request_machine unit_env).Reachable requests ∧
      requests.calls 0 = some first ∧ requests.calls 1 = some second ∧
      first.request = second.request ∧ first.stage = .answered outcome (some 0) ∧
      second.stage = .answered outcome' (some 0) ∧ outcome ≠ outcome' := by
  have hreach : ∃ requests, (request_machine unit_env).Reachable requests ∧
      decide (requests.calls 0 = some ⟨delete_request, .answered ⟨202, ()⟩ (some 0)⟩ ∧
        requests.calls 1 = some ⟨delete_request, .answered ⟨503, ()⟩ (some 0)⟩) = true :=
    Machine.reachable_of_replay (fun _ _ => true) (fun _ _ _ => trivial) rfl
      (shared_run ++ [.cancel_and_wait, .observe 1]) _ (by decide +kernel)
  obtain ⟨requests, hrequests, hcalls⟩ := hreach
  obtain ⟨hfirst, hsecond⟩ := of_decide_eq_true hcalls
  exact ⟨requests, _, _, _, _, hrequests, hfirst, hsecond, rfl, rfl, rfl, by decide⟩

end Server
