import RemoteDeck.Client.Jobs

/-! # Merging is independent of the order

    While the jobs fit into the limits of the client, one replacement and a
    merge of a list do the same for each snapshot: `absorb` keeps the newest
    snapshot of each job.  What the client has is then determined by the set
    of the snapshots that it received.
-/

namespace Client

open Newest

section Jobs

variable {Job : Type} (id : Job → Text) (revision : Job → Nat) (isNewer : Job → Job → Bool)
  (retain : List Job → List Job)

/-! ### Maps of jobs -/

/-- The entry of a job in a map. -/
def entry (job : Job) : Text × Job := (id job, job)

/-- Take one snapshot without trimming. -/
def absorb : List Job → Job → List Job := replaceJob id isNewer fun items => items

theorem lookup_entries (items : List Job) (key : Text) :
    (items.map (entry id)).lookup key = items.find? fun item => id item = key := by
  induction items with
  | nil => rfl
  | cons first rest ih =>
    rw [List.map_cons, entry, List.lookup_cons, List.find?_cons, ih]
    by_cases hkey : id first = key
    · rw [decide_eq_true hkey, beq_iff_eq.mpr hkey.symm]
    · rw [decide_eq_false hkey, beq_eq_false_iff_ne.mpr (Ne.symm hkey)]

theorem map_set_entries (items : List Job) (job : Job) :
    map_set (items.map (entry id)) (id job) job = (replaceById id items job).map (entry id) := by
  unfold map_set replaceById
  rw [List.any_map]
  show (if (items.any fun item => id item = id job) = true then _ else _) = _
  split
  · rw [List.map_map, List.map_map]
    apply List.map_congr_left
    intro item _
    show (if id item = id job then _ else _) = entry id (if id item = id job then _ else _)
    split
    · rfl
    · rfl
  · rw [List.map_append]
    rfl

theorem replaceById_new {items : List Job} {job : Job} (h : id job ∉ items.map id) :
    replaceById id items job = items ++ [job] := by
  unfold replaceById
  rw [if_neg]
  intro hany
  obtain ⟨item, hitem, hid⟩ := List.any_eq_true.mp hany
  exact h (List.mem_map.mpr ⟨item, hitem, of_decide_eq_true hid⟩)

/-- A map of jobs with distinct ids keeps their order. -/
theorem new_map_entries {items : List Job} (h : (items.map id).Nodup) :
    new_map (items.map (entry id)) = items.map (entry id) := by
  have hadd : ∀ rest front : List Job, ((front ++ rest).map id).Nodup →
      (rest.map (entry id)).foldl (fun merged entry => map_set merged entry.1 entry.2)
        (front.map (entry id)) = (front ++ rest).map (entry id) := by
    intro rest
    induction rest with
    | nil => intro front _; rw [List.append_nil]; rfl
    | cons first rest ih =>
      intro front hnodup
      rw [List.append_cons] at hnodup ⊢
      have hnew : id first ∉ front.map id := by
        rw [List.map_append, List.map_append] at hnodup
        have hfront := (List.nodup_append.mp (List.nodup_append.mp hnodup).1).2.2
        intro hmem
        exact hfront _ hmem _ List.mem_cons_self rfl
      rw [← ih (front ++ [first]) hnodup, ← replaceById_new id hnew, ← map_set_entries]
      rfl
  exact hadd items [] h

theorem merge_job_entries (items : List Job) (job : Job) :
    merge_job id isNewer (items.map (entry id)) job =
      (absorb id isNewer items job).map (entry id) := by
  unfold merge_job absorb replaceJob
  rw [lookup_entries]
  cases items.find? fun item => id item = id job with
  | none => exact map_set_entries id items job
  | some previous =>
    cases hnewer : isNewer previous job with
    | false => simp [hnewer]
    | true => simpa [hnewer] using map_set_entries id items job

theorem mergeJobs_eq {current : List Job} (h : (current.map id).Nodup) (incoming : List Job) :
    mergeJobs id isNewer retain current incoming =
      retain (incoming.foldl (absorb id isNewer) current) := by
  have hmerge : ∀ items : List Job,
      incoming.foldl (merge_job id isNewer) (items.map (entry id)) =
        (incoming.foldl (absorb id isNewer) items).map (entry id) := by
    intro items
    induction incoming generalizing items with
    | nil => rfl
    | cons first rest ih => rw [List.foldl_cons, List.foldl_cons, merge_job_entries, ih]
  have hmap : new_map (current.map fun job => (id job, job)) = current.map (entry id) :=
    new_map_entries id h
  show retain ((incoming.foldl (merge_job id isNewer) (new_map (current.map fun job =>
    (id job, job)))).map Prod.snd) = _
  rw [hmap, hmerge, List.map_map]
  show retain ((incoming.foldl (absorb id isNewer) current).map fun job => job) = _
  rw [List.map_id']

/-! ### One snapshot -/

/-- A greater revision is newer and a smaller one is not. -/
def Follows : Prop :=
  ∀ previous incoming, (revision incoming < revision previous → isNewer previous incoming = false) ∧
    (revision previous < revision incoming → isNewer previous incoming = true)

variable {id revision isNewer retain}

theorem mem_replaceById {items : List Job} {job other : Job} :
    other ∈ replaceById id items job ↔ other = job ∨ other ∈ items ∧ id other ≠ id job := by
  unfold replaceById
  split
  · next hany =>
    obtain ⟨held, hheld, hid⟩ := List.any_eq_true.mp hany
    rw [List.mem_map]
    constructor
    · rintro ⟨item, hitem, rfl⟩
      split
      · exact .inl rfl
      · next hne => exact .inr ⟨hitem, hne⟩
    · rintro (rfl | ⟨hother, hne⟩)
      · exact ⟨held, hheld, if_pos (of_decide_eq_true hid)⟩
      · exact ⟨other, hother, if_neg hne⟩
  · next hany =>
    rw [List.mem_append, List.mem_singleton, or_comm]
    refine or_congr_right ⟨fun hother => ⟨hother, fun hid => hany ?_⟩, fun hother => hother.1⟩
    exact List.any_eq_true.mpr ⟨other, hother, decide_eq_true hid⟩

theorem replaceById_distinct {items : List Job} (job : Job) (h : (items.map id).Nodup) :
    ((replaceById id items job).map id).Nodup := by
  by_cases hmem : id job ∈ items.map id
  · have hids : (replaceById id items job).map id = items.map id := by
      have hany : (items.any fun item => id item = id job) = true := by
        obtain ⟨item, hitem, hid⟩ := List.mem_map.mp hmem
        exact List.any_eq_true.mpr ⟨item, hitem, decide_eq_true hid⟩
      unfold replaceById
      rw [if_pos hany, List.map_map]
      apply List.map_congr_left
      intro item _
      show id (if id item = id job then job else item) = id item
      split
      · next hid => exact hid.symm
      · rfl
    rw [hids]
    exact h
  · rw [replaceById_new id hmem, List.map_append]
    exact List.nodup_append.mpr ⟨h, List.nodup_singleton _, fun key hkey other hother => by
      rw [List.mem_singleton.mp hother]
      exact fun heq => hmem (heq ▸ hkey)⟩

theorem Determined.mono {front rest : List Job} (h : Determined id revision (front ++ rest)) :
    Determined id revision front :=
  fun item hitem other hother =>
    h item (List.mem_append_left _ hitem) other (List.mem_append_left _ hother)

theorem replace_holdsNewest {jobs items : List Job} {job : Job}
    (h : HoldsNewest id revision jobs items) (hdetermined : Determined id revision (jobs ++ [job]))
    (hle : ∀ other ∈ jobs, id other = id job → revision other ≤ revision job) :
    HoldsNewest id revision (jobs ++ [job]) (replaceById id items job) := by
  apply h.replace (replaceById_distinct job h.distinct) fun other => mem_replaceById
  intro other hother hid
  rcases Nat.lt_or_eq_of_le (hle other hother hid) with hlt | heq
  · exact .inr hlt
  · left
    exact hdetermined other (List.mem_append_left _ hother) job
      (List.mem_append_right _ List.mem_cons_self) hid heq

theorem absorb_holdsNewest (hfollows : Follows revision isNewer) {jobs items : List Job} {job : Job}
    (h : HoldsNewest id revision jobs items) (hdetermined : Determined id revision (jobs ++ [job])) :
    HoldsNewest id revision (jobs ++ [job]) (absorb id isNewer items job) := by
  unfold absorb replaceJob
  cases hfind : items.find? fun item => id item = id job with
  | none =>
    apply replace_holdsNewest h hdetermined
    intro other hother hid
    -- an item of the key would be held
    obtain ⟨held, hheld, hheld_id⟩ := h.holds_key hother
    exact absurd (decide_eq_true (hheld_id.trans hid)) (List.find?_eq_none.mp hfind held hheld)
  | some previous =>
    have hprevious := List.mem_of_find?_eq_some hfind
    have hid : id previous = id job := by simpa using List.find?_some hfind
    have hnewest := (h.mem_iff previous).mp hprevious
    obtain ⟨hsmaller, hgreater⟩ := hfollows previous job
    rcases Nat.lt_trichotomy (revision job) (revision previous) with hlt | heq | hgt
    · simp only [hsmaller hlt]
      exact h.ignore hprevious hid (.inr hlt)
    · have hsame : job = previous :=
        (hdetermined previous (List.mem_append_left _ hnewest.mem) job
          (List.mem_append_right _ List.mem_cons_self) hid heq.symm).symm
      cases hnewer : isNewer previous job with
      | false =>
        simp only [hnewer]
        exact h.ignore hprevious hid (.inl hsame)
      | true =>
        simp only [hnewer]
        apply replace_holdsNewest h hdetermined
        intro other hother hother_id
        exact heq ▸ hnewest.newest other hother (hother_id.trans hid.symm)
    · simp only [hgreater hgt]
      apply replace_holdsNewest h hdetermined
      intro other hother hother_id
      exact Nat.le_of_lt (Nat.lt_of_le_of_lt
        (hnewest.newest other hother (hother_id.trans hid.symm)) hgt)

theorem foldl_absorb_holdsNewest (hfollows : Follows revision isNewer) {jobs items incoming : List Job}
    (h : HoldsNewest id revision jobs items)
    (hdetermined : Determined id revision (jobs ++ incoming)) :
    HoldsNewest id revision (jobs ++ incoming) (incoming.foldl (absorb id isNewer) items) := by
  induction incoming generalizing jobs items with
  | nil => rw [List.append_nil]; exact h
  | cons first rest ih =>
    rw [List.append_cons] at hdetermined ⊢
    exact ih (absorb_holdsNewest hfollows h (Determined.mono hdetermined)) hdetermined

/-! ### Updates -/

variable (id revision) in
/-- At no point do the newest of the snapshots received so far exceed the
    limits. -/
def StaysWithin (fits : List Job → Prop) (updates : List (Update Job)) : Prop :=
  ∀ front, front <+: updates → ∀ kept, HoldsNewest id revision (received front) kept → fits kept

theorem apply_update_holdsNewest {fits : List Job → Prop} (hfollows : Follows revision isNewer)
    (hretain : ∀ items, fits items → retain items = items) {jobs items : List Job}
    {update : Update Job} (h : HoldsNewest id revision jobs items)
    (hdetermined : Determined id revision (jobs ++ update.jobs))
    (hfits : ∀ kept, HoldsNewest id revision (jobs ++ update.jobs) kept → fits kept) :
    HoldsNewest id revision (jobs ++ update.jobs) (apply_update id isNewer retain items update) := by
  cases update with
  | one job =>
    have habsorb := absorb_holdsNewest hfollows h hdetermined
    have hkept := hretain _ (hfits _ habsorb)
    have hsame : replaceJob id isNewer retain items job = absorb id isNewer items job := by
      unfold absorb replaceJob at hkept ⊢
      revert hkept
      cases items.find? fun item => id item = id job with
      | none => exact fun hkept => hkept
      | some previous =>
        intro hkept
        cases hnewer : isNewer previous job with
        | false => simp [hnewer]
        | true => simpa [hnewer] using hkept
    show HoldsNewest _ _ _ (replaceJob id isNewer retain items job)
    rw [hsame]
    exact habsorb
  | list incoming =>
    have habsorb := foldl_absorb_holdsNewest hfollows h hdetermined
    have hsame : mergeJobs id isNewer retain items incoming =
        incoming.foldl (absorb id isNewer) items := by
      rw [mergeJobs_eq id isNewer retain h.distinct]
      exact hretain _ (hfits _ habsorb)
    show HoldsNewest _ _ _ (mergeJobs id isNewer retain items incoming)
    rw [hsame]
    exact habsorb

/-- **The client holds the newest snapshot of each job.** -/
theorem foldl_holdsNewest {fits : List Job → Prop} (hfollows : Follows revision isNewer)
    (hretain : ∀ items, fits items → retain items = items) (updates : List (Update Job))
    (hdetermined : Determined id revision (received updates))
    (hstays : StaysWithin id revision fits updates) :
    HoldsNewest id revision (received updates)
      (updates.foldl (apply_update id isNewer retain) []) := by
  induction updates using List.reverseRecOn with
  | nil => exact HoldsNewest.nil
  | append_singleton front last ih =>
    have hreceived : received (front ++ [last]) = received front ++ last.jobs := by
      unfold received
      rw [List.flatMap_append, List.flatMap_singleton]
    rw [hreceived] at hdetermined ⊢
    rw [List.foldl_append]
    have hfront := ih (Determined.mono hdetermined) fun part hpart =>
      hstays part (hpart.trans (List.prefix_append front [last]))
    apply apply_update_holdsNewest hfollows hretain hfront hdetermined
    intro kept hkept
    exact hstays _ (List.prefix_refl _) kept (hreceived ▸ hkept)

/-! ### The join of what was received -/

/-- A fold of updates depends on the set of their snapshots only: it holds
    the newest snapshot of each job. -/
structure Joins (id : Job → Text) (revision : Job → Nat) (fits : List Job → Prop)
    (fold : List (Update Job) → List Job) : Prop where
  newest : ∀ (snapshots : List Job) (updates : List (Update Job)),
    Determined id revision snapshots → (∀ job, job ∈ received updates ↔ job ∈ snapshots) →
    StaysWithin id revision fits updates → HoldsNewest id revision snapshots (fold updates)
  same : ∀ updates updates' : List (Update Job),
    Determined id revision (received updates) →
    (∀ job, job ∈ received updates ↔ job ∈ received updates') →
    StaysWithin id revision fits updates → StaysWithin id revision fits updates' →
    (fold updates).Perm (fold updates')

theorem foldl_joins {fits : List Job → Prop} (hfollows : Follows revision isNewer)
    (hretain : ∀ items, fits items → retain items = items) :
    Joins id revision fits fun updates => updates.foldl (apply_update id isNewer retain) [] := by
  have hnewest : ∀ (snapshots : List Job) (updates : List (Update Job)),
      Determined id revision snapshots → (∀ job, job ∈ received updates ↔ job ∈ snapshots) →
      StaysWithin id revision fits updates →
      HoldsNewest id revision snapshots (updates.foldl (apply_update id isNewer retain) []) := by
    intro snapshots updates hdetermined hsame hstays
    apply HoldsNewest.congr hsame
    apply foldl_holdsNewest hfollows hretain updates _ hstays
    intro item hitem other hother
    exact hdetermined item ((hsame item).mp hitem) other ((hsame other).mp hother)
  refine ⟨hnewest, fun updates updates' hdetermined hsame hstays hstays' => ?_⟩
  have hleft := hnewest (received updates) updates hdetermined (fun _ => Iff.rfl) hstays
  exact hleft.perm (hnewest (received updates) updates' hdetermined (fun job => (hsame job).symm) hstays')

end Jobs

/-! ### The limits of the client -/

theorem retainBoundedTasks_of_le {Job : Type} {isTerminal : Job → Bool} {items : List Job}
    (h : items.length ≤ MAX_RETAINED_TASKS) : retainBoundedTasks isTerminal items = items := by
  unfold retainBoundedTasks
  cases items.length with
  | zero => rfl
  | succ rounds => exact if_neg fun hover => absurd hover.1 (Nat.not_lt_of_le h)

theorem retainCommandOutputBudget_of_le {items : List CommandJob}
    (h : total_output items ≤ MAX_RETAINED_COMMAND_OUTPUT_BYTES) :
    retainCommandOutputBudget items = items := by
  unfold retainCommandOutputBudget
  cases items.length with
  | zero => rfl
  | succ rounds => exact if_neg (Nat.not_lt_of_le h)

def transfers_fit (transfers : List TransferJob) : Prop := transfers.length ≤ MAX_RETAINED_TASKS

structure CommandsFit (jobs : List CommandJob) : Prop where
  length_le : jobs.length ≤ MAX_RETAINED_TASKS
  output_le : total_output jobs ≤ MAX_RETAINED_COMMAND_OUTPUT_BYTES

theorem CommandsFit.retain {jobs : List CommandJob} (h : CommandsFit jobs) :
    retain_commands jobs = jobs := by
  unfold retain_commands
  rw [retainBoundedTasks_of_le h.length_le, retainCommandOutputBudget_of_le h.output_le]

theorem isNewerTransfer_follows (parse : Text → Option Int) :
    Follows TransferJob.revision (isNewerTransfer parse) := by
  intro previous incoming
  unfold isNewerTransfer
  constructor
  · intro hlt
    rw [if_pos (Nat.ne_of_lt hlt)]
    exact decide_eq_false (Nat.lt_asymm hlt)
  · intro hlt
    rw [if_pos (Nat.ne_of_gt hlt)]
    exact decide_eq_true hlt

theorem isNewerCommand_follows : Follows CommandJob.revision isNewerCommand := by
  intro previous incoming
  unfold isNewerCommand
  constructor
  · intro hlt
    rw [if_pos (Nat.ne_of_lt hlt)]
    exact decide_eq_false (Nat.lt_asymm hlt)
  · intro hlt
    rw [if_pos (Nat.ne_of_gt hlt)]
    exact decide_eq_true hlt

/-- **Merging jobs is independent of the order.**  Transfers and command
    jobs that stay within the limits are folded, in any order, with any
    repetition and any split into single snapshots and lists, into the newest
    snapshot of each job. -/
theorem jobs_join (parse : Text → Option Int) :
    Joins TransferJob.id TransferJob.revision transfers_fit (transfers_after parse) ∧
      Joins CommandJob.id CommandJob.revision CommandsFit commands_after := by
  constructor
  · have happly : apply_transfers parse =
        apply_update TransferJob.id (isNewerTransfer parse) retain_transfers := by
      funext transfers update
      cases update <;> rfl
    unfold transfers_after
    rw [happly]
    exact foldl_joins (isNewerTransfer_follows parse) fun _ h => retainBoundedTasks_of_le h
  · have happly : apply_commands = apply_update CommandJob.id isNewerCommand retain_commands := by
      funext jobs update
      cases update <;> rfl
    unfold commands_after
    rw [happly]
    exact foldl_joins isNewerCommand_follows fun _ h => h.retain

/-- A snapshot of an upload. -/
def upload (revision : Nat) (state : JobState) : TransferJob where
  id := "t".toList
  revision := revision
  hostId := "h".toList
  direction := .upload
  source := "a".toList
  destination := "b".toList
  state := state
  bytesTransferred := 0
  totalBytes := none
  error := none
  createdAt := []
  updatedAt := []

/-- A list that arrives after a newer event, and the other way round. -/
theorem late_list_joins :
    (transfers_after (fun _ => none) [.one (upload 2 .running), .list [upload 1 .queued]]).Perm
      (transfers_after (fun _ => none) [.list [upload 1 .queued], .one (upload 2 .running)]) := by
  have hstays : ∀ updates : List (Update TransferJob), (received updates).length ≤ 512 →
      StaysWithin TransferJob.id TransferJob.revision transfers_fit updates := by
    intro updates hlength front hfront kept hkept
    obtain ⟨rest, rfl⟩ := hfront
    have hreceived : received (front ++ rest) = received front ++ received rest :=
      List.flatMap_append
    rw [hreceived, List.length_append] at hlength
    have hkept := hkept.length_le
    show kept.length ≤ 512
    omega
  apply (jobs_join fun _ => none).1.same
  · unfold Determined
    decide
  · intro job
    show job ∈ [upload 2 .running, upload 1 .queued] ↔ job ∈ [upload 1 .queued, upload 2 .running]
    exact (List.Perm.swap _ _ []).mem_iff
  · exact hstays _ (by decide)
  · exact hstays _ (by decide)

end Client
