import RemoteDeck.Telemetry.History

/-! # The budgets of the telemetry history

    The totals of the store are sums over what it retains, so the loops of
    `record` end when the budgets hold.  What a host retains is always the
    end of what was recorded for it, and the loop over all hosts takes
    samples away in the order in which they were recorded, as long as their
    sequences did not wrap.
-/

namespace Telemetry

namespace HistoryStore

variable {store store' : HistoryStore} {host_id other : Text} {history : HostHistory}

/-! ### The sums -/

def sum_bytes (samples : List StoredSample) : Nat :=
  (samples.map StoredSample.accounted_bytes).foldr (· + ·) 0

theorem sum_bytes_cons (sample : StoredSample) (samples : List StoredSample) :
    sum_bytes (sample :: samples) = sample.accounted_bytes + sum_bytes samples := rfl

theorem sum_bytes_append (samples : List StoredSample) (sample : StoredSample) :
    sum_bytes (samples ++ [sample]) = sum_bytes samples + sample.accounted_bytes := by
  induction samples with
  | nil =>
    show sample.accounted_bytes + 0 = 0 + sample.accounted_bytes
    omega
  | cons first rest ih =>
    rw [List.cons_append, sum_bytes_cons, sum_bytes_cons, ih]
    omega

theorem sum_bytes_suffix {samples samples' : List StoredSample} (h : samples' <:+ samples) :
    sum_bytes samples' ≤ sum_bytes samples := by
  obtain ⟨front, rfl⟩ := h
  induction front with
  | nil => exact Nat.le_refl _
  | cons first front ih =>
    rw [List.cons_append, sum_bytes_cons]
    omega

/-- The counters are the sums of what is retained. -/
structure StoreInv (store : HistoryStore) : Prop where
  nonempty : ∀ host_id history, store.hosts.lookup host_id = some history → history.samples ≠ []
  bytes : ∀ host_id history, store.hosts.lookup host_id = some history →
    history.accounted_bytes = sum_bytes history.samples
  total_samples : store.total_samples = store.hosts.total fun history => history.samples.length
  total_bytes : store.total_accounted_bytes =
    store.hosts.total fun history => sum_bytes history.samples

theorem samples_of_lookup (h : store.hosts.lookup host_id = some history) :
    store.samples host_id = history.samples := by
  unfold samples
  rw [h]
  rfl

theorem samples_of_none (h : store.hosts.lookup host_id = none) : store.samples host_id = [] := by
  unfold samples
  rw [h]
  rfl

theorem samples_insert (hosts : Hosts) (history : HostHistory)
    (hstore : store.hosts = hosts.insert host_id history) :
    store.samples other =
      if other = host_id then history.samples
      else ((hosts.lookup other).map HostHistory.samples).getD [] := by
  unfold samples
  rw [hstore]
  split
  · next hother =>
    rw [hother, AList.lookup_insert]
    rfl
  · next hother => rw [AList.lookup_insert_ne hother]

theorem samples_erase (hosts : Hosts) (hstore : store.hosts = hosts.erase host_id) :
    store.samples other =
      if other = host_id then [] else ((hosts.lookup other).map HostHistory.samples).getD [] := by
  unfold samples
  rw [hstore]
  split
  · next hother =>
    rw [hother, AList.lookup_erase]
    rfl
  · next hother => rw [AList.lookup_erase_ne hother]

/-! ### Taking the oldest sample of a host -/

theorem pop_front_samples (store : HistoryStore) (host_id other : Text) :
    (store.pop_front host_id).samples other =
      if other = host_id then (store.samples host_id).tail else store.samples other := by
  unfold pop_front
  split
  · next hnone =>
    split
    · next hother =>
      rw [hother, samples_of_none hnone]
      rfl
    · rfl
  · next history hlookup =>
    split
    · next hempty =>
      rw [samples_erase store.hosts rfl]
      split
      · rw [samples_of_lookup hlookup, hempty]
        rfl
      · rfl
    · next removed rest hsamples =>
      rw [samples_of_lookup hlookup, hsamples]
      dsimp only
      by_cases hrest : rest.isEmpty = true
      · rw [samples_erase store.hosts (if_pos hrest), List.isEmpty_iff.mp hrest]
        rfl
      · rw [samples_insert store.hosts _ (if_neg hrest)]
        rfl

theorem StoreInv.pop_front (h : StoreInv store) (host_id : Text) :
    StoreInv (store.pop_front host_id) := by
  unfold HistoryStore.pop_front
  split
  · exact h
  · next history hlookup =>
    split
    · next hempty => exact absurd hempty (h.nonempty host_id history hlookup)
    · next removed rest hsamples =>
      have hbytes := h.bytes host_id history hlookup
      have hsum := h.total_bytes
      have hcount := h.total_samples
      rw [AList.total_of_lookup _ hlookup, hsamples] at hsum hcount
      rw [hsamples, sum_bytes_cons] at hbytes
      rw [sum_bytes_cons] at hsum
      rw [List.length_cons] at hcount
      dsimp only
      by_cases hrest : rest.isEmpty = true
      · have hnil := List.isEmpty_iff.mp hrest
        rw [if_pos hrest]
        subst hnil
        refine ⟨?_, ?_, ?_, ?_⟩
        · intro other found hfound
          exact h.nonempty other found (AList.lookup_of_erase hfound)
        · intro other found hfound
          exact h.bytes other found (AList.lookup_of_erase hfound)
        · show store.total_samples - 1 =
            (store.hosts.erase host_id).total fun history => history.samples.length
          rw [List.length_nil] at hcount
          omega
        · show store.total_accounted_bytes - removed.accounted_bytes =
            (store.hosts.erase host_id).total fun history => sum_bytes history.samples
          rw [show sum_bytes [] = 0 from rfl] at hsum
          omega
      · rw [if_neg hrest]
        have hne : rest ≠ [] := fun hnil => hrest (List.isEmpty_iff.mpr hnil)
        refine ⟨?_, ?_, ?_, ?_⟩
        · intro other found hfound
          by_cases hother : other = host_id
          · rw [hother, AList.lookup_insert] at hfound
            obtain rfl := Option.some.inj hfound
            exact hne
          · rw [AList.lookup_insert_ne hother] at hfound
            exact h.nonempty other found hfound
        · intro other found hfound
          by_cases hother : other = host_id
          · rw [hother, AList.lookup_insert] at hfound
            obtain rfl := Option.some.inj hfound
            show history.accounted_bytes - removed.accounted_bytes = sum_bytes rest
            omega
          · rw [AList.lookup_insert_ne hother] at hfound
            exact h.bytes other found hfound
        · rw [AList.total_insert]
          show store.total_samples - 1 = rest.length + _
          omega
        · rw [AList.total_insert]
          show store.total_accounted_bytes - removed.accounted_bytes = sum_bytes rest + _
          omega

/-- The rounds that are left get fewer. -/
theorem pop_front_rounds (hlookup : store.hosts.lookup host_id = some history) :
    (store.pop_front host_id).rounds < store.rounds := by
  unfold rounds
  rw [AList.total_of_lookup _ hlookup]
  unfold HistoryStore.pop_front
  rw [hlookup]
  dsimp only
  split
  · show (store.hosts.erase host_id).total (fun history => history.samples.length + 1) + 1 < _
    omega
  · next removed rest hsamples =>
    rw [hsamples, List.length_cons]
    by_cases hrest : rest.isEmpty = true
    · rw [if_pos hrest]
      show (store.hosts.erase host_id).total (fun history => history.samples.length + 1) + 1 < _
      omega
    · rw [if_neg hrest, AList.total_insert]
      dsimp only
      omega

/-! ### Adding and removing -/

theorem push_samples (store : HistoryStore) (sample : StoredSample) (other : Text) :
    (store.push sample).samples other =
      if other = sample.sample.host_id.text then store.samples other ++ [sample]
      else store.samples other := by
  unfold push
  rw [samples_insert store.hosts _ rfl]
  split
  · next hother =>
    rw [hother]
    unfold samples
    cases store.hosts.lookup sample.sample.host_id.text <;> rfl
  · rfl

theorem remove_host_samples (store : HistoryStore) (host_id other : Text) :
    (store.remove_host host_id).samples other =
      if other = host_id then [] else store.samples other := by
  unfold remove_host
  split
  · next hnone =>
    split
    · next hother =>
      rw [hother]
      exact samples_of_none hnone
    · rfl
  · next history hlookup => exact samples_erase store.hosts rfl

theorem StoreInv.remove_host (h : StoreInv store) (host_id : Text) :
    StoreInv (store.remove_host host_id) := by
  unfold HistoryStore.remove_host
  split
  · exact h
  · next history hlookup =>
    have hbytes := h.bytes host_id history hlookup
    have hsum := h.total_bytes
    have hcount := h.total_samples
    rw [AList.total_of_lookup _ hlookup] at hsum hcount
    refine ⟨?_, ?_, ?_, ?_⟩
    · intro other found hfound
      exact h.nonempty other found (AList.lookup_of_erase hfound)
    · intro other found hfound
      exact h.bytes other found (AList.lookup_of_erase hfound)
    · show store.total_samples - history.samples.length =
        (store.hosts.erase host_id).total fun history => history.samples.length
      omega
    · show store.total_accounted_bytes - history.accounted_bytes =
        (store.hosts.erase host_id).total fun history => sum_bytes history.samples
      omega

/-- The history that `push` gives the host of its sample. -/
def pushed_history (store : HistoryStore) (sample : StoredSample) : HostHistory :=
  let history := (store.hosts.lookup sample.sample.host_id.text).getD ⟨[], 0⟩
  { samples := history.samples ++ [sample]
    accounted_bytes := saturating_add history.accounted_bytes sample.accounted_bytes }

theorem push_hosts (store : HistoryStore) (sample : StoredSample) :
    (store.push sample).hosts =
      store.hosts.insert sample.sample.host_id.text (pushed_history store sample) := rfl

theorem saturating_add_eq {a b : Nat} (h : a + b ≤ USIZE_MAX) : saturating_add a b = a + b :=
  Nat.min_eq_left h

/-- What a measure sums to without the host of a sample, and for that host. -/
theorem total_split (store : HistoryStore) (measure : HostHistory → Nat) (hzero : measure ⟨[], 0⟩ = 0)
    (host_id : Text) : store.hosts.total measure =
      measure ((store.hosts.lookup host_id).getD ⟨[], 0⟩) + (store.hosts.erase host_id).total measure := by
  cases hlookup : store.hosts.lookup host_id with
  | none =>
    rw [AList.total_erase_of_none measure hlookup]
    show _ = measure ⟨[], 0⟩ + _
    omega
  | some history => exact AList.total_of_lookup measure hlookup

/-- No counter saturates when the budgets held before and the sample is one
    that exists. -/
theorem StoreInv.push (h : StoreInv store) {sample : StoredSample}
    (hover : store.global_over = false) (hsize : sample.accounted_bytes ≤ ISIZE_MAX) :
    StoreInv (store.push sample) := by
  have hlimits : MAX_HISTORY_SAMPLES_GLOBAL + 1 ≤ USIZE_MAX ∧
      MAX_HISTORY_BYTES_GLOBAL + ISIZE_MAX ≤ USIZE_MAX := by decide
  unfold global_over at hover
  rw [Bool.or_eq_false_iff, decide_eq_false_iff_not, decide_eq_false_iff_not] at hover
  have hsamples := h.total_samples
  have hbytes := h.total_bytes
  rw [total_split store _ rfl sample.sample.host_id.text] at hsamples hbytes
  -- the history of the host, empty if it has none
  have hold : ((store.hosts.lookup sample.sample.host_id.text).getD ⟨[], 0⟩).accounted_bytes =
      sum_bytes ((store.hosts.lookup sample.sample.host_id.text).getD ⟨[], 0⟩).samples := by
    cases hlookup : store.hosts.lookup sample.sample.host_id.text with
    | none => rfl
    | some history => exact h.bytes _ history hlookup
  have haccounted : (pushed_history store sample).accounted_bytes =
      sum_bytes (pushed_history store sample).samples := by
    show saturating_add _ sample.accounted_bytes = sum_bytes (_ ++ [sample])
    rw [sum_bytes_append, ← hold]
    apply saturating_add_eq
    omega
  refine ⟨?_, ?_, ?_, ?_⟩
  · intro other found hfound
    rw [push_hosts] at hfound
    by_cases hother : other = sample.sample.host_id.text
    · rw [hother, AList.lookup_insert] at hfound
      rw [← Option.some.inj hfound]
      exact List.append_ne_nil_of_right_ne_nil _ (List.cons_ne_nil sample [])
    · rw [AList.lookup_insert_ne hother] at hfound
      exact h.nonempty other found hfound
  · intro other found hfound
    rw [push_hosts] at hfound
    by_cases hother : other = sample.sample.host_id.text
    · rw [hother, AList.lookup_insert] at hfound
      rw [← Option.some.inj hfound]
      exact haccounted
    · rw [AList.lookup_insert_ne hother] at hfound
      exact h.bytes other found hfound
  · have hpushed : (store.push sample).total_samples = store.total_samples + 1 :=
      saturating_add_eq (by omega)
    have hlength : (pushed_history store sample).samples.length =
        ((store.hosts.lookup sample.sample.host_id.text).getD ⟨[], 0⟩).samples.length + 1 :=
      List.length_append
    rw [hpushed, push_hosts, AList.total_insert, hlength]
    omega
  · have hpushed : (store.push sample).total_accounted_bytes =
        store.total_accounted_bytes + sample.accounted_bytes := saturating_add_eq (by omega)
    have hsum : sum_bytes (pushed_history store sample).samples =
        sum_bytes ((store.hosts.lookup sample.sample.host_id.text).getD ⟨[], 0⟩).samples +
          sample.accounted_bytes := sum_bytes_append _ _
    rw [hpushed, push_hosts, AList.total_insert, hsum]
    omega

/-! ### The loops -/

theorem host_over_lookup {max_samples : Nat} (h : store.host_over host_id max_samples = true) :
    ∃ history, store.hosts.lookup host_id = some history := by
  obtain ⟨history, hlookup, _⟩ := (Option.any_eq_true _ _).mp h
  exact ⟨history, hlookup⟩

/-- The first loop is over after as many rounds as the store has samples and hosts. -/
theorem trim_host_isSome {max_samples rounds : Nat} (h : store.rounds ≤ rounds) :
    (trim_host host_id max_samples rounds store).isSome = true := by
  induction rounds generalizing store with
  | zero =>
    unfold HistoryStore.rounds at h
    omega
  | succ rounds ih =>
    unfold trim_host
    split
    · next hover =>
      obtain ⟨history, hlookup⟩ := host_over_lookup hover
      have hfewer := pop_front_rounds hlookup
      apply ih
      omega
    · rfl

/-- The first loop takes samples from the front of one host, to its budget. -/
theorem trim_host_cases {max_samples rounds : Nat} (h : StoreInv store)
    (htrim : trim_host host_id max_samples rounds store = some store') :
    StoreInv store' ∧ store'.host_over host_id max_samples = false ∧
      store'.samples host_id <:+ store.samples host_id ∧
      (∀ other, other ≠ host_id → store'.samples other = store.samples other) ∧
      store'.next_sequence = store.next_sequence := by
  induction rounds generalizing store with
  | zero => exact absurd htrim.symm (Option.some_ne_none store')
  | succ rounds ih =>
    unfold trim_host at htrim
    split at htrim
    · obtain ⟨hinv, hover, hsuffix, hothers, hnext⟩ := ih (h.pop_front host_id) htrim
      refine ⟨hinv, hover, ?_, ?_, ?_⟩
      · rw [pop_front_samples, if_pos rfl] at hsuffix
        exact hsuffix.trans (List.tail_suffix _)
      · intro other hother
        rw [hothers other hother, pop_front_samples, if_neg hother]
      · rw [hnext]
        unfold HistoryStore.pop_front
        split
        · rfl
        · split <;> rfl
    · next hover =>
      obtain rfl := Option.some.inj htrim
      exact ⟨h, eq_false_of_ne_true hover, List.suffix_refl _, fun _ _ => rfl, rfl⟩

theorem foldl_older {items : List (Text × StoredSample)} {start : Option (Text × StoredSample)}
    {oldest : Text × StoredSample} (h : items.foldl older start = some oldest) :
    (oldest ∈ items ∨ start = some oldest) ∧
      (∀ item ∈ items, oldest.2.sequence ≤ item.2.sequence) ∧
      ∀ item, start = some item → oldest.2.sequence ≤ item.2.sequence := by
  induction items generalizing start with
  | nil =>
    refine ⟨.inr h, fun _ hmem => absurd hmem List.not_mem_nil, ?_⟩
    intro item hstart
    obtain rfl := Option.some.inj (hstart.symm.trans h)
    exact Nat.le_refl _
  | cons first items ih =>
    obtain ⟨hmem, hitems, hstart⟩ := ih h
    unfold older at hmem hstart
    split at hmem
    · -- nothing was found before
      have hfirst := hstart first rfl
      refine ⟨?_, ?_, fun _ hnone => absurd hnone.symm (Option.some_ne_none _)⟩
      · left
        rcases hmem with hrest | hsame
        · exact List.mem_cons_of_mem first hrest
        · exact Option.some.inj hsame ▸ List.mem_cons_self
      · intro item hitem
        rcases List.mem_cons.mp hitem with hsame | hrest
        · exact hsame ▸ hfirst
        · exact hitems item hrest
    · next other =>
      by_cases hlt : first.2.sequence < other.2.sequence
      · rw [if_pos hlt] at hmem
        have hfirst := hstart first (by dsimp only; rw [if_pos hlt])
        refine ⟨?_, ?_, ?_⟩
        · left
          rcases hmem with hrest | hsame
          · exact List.mem_cons_of_mem first hrest
          · exact Option.some.inj hsame ▸ List.mem_cons_self
        · intro item hitem
          rcases List.mem_cons.mp hitem with hsame | hrest
          · exact hsame ▸ hfirst
          · exact hitems item hrest
        · intro item hitem
          obtain rfl := Option.some.inj hitem
          omega
      · rw [if_neg hlt] at hmem
        have hother := hstart other (by dsimp only; rw [if_neg hlt])
        refine ⟨hmem.imp_left (List.mem_cons_of_mem first), ?_, ?_⟩
        · intro item hitem
          rcases List.mem_cons.mp hitem with hsame | hrest
          · rw [hsame]
            omega
          · exact hitems item hrest
        · intro item hitem
          obtain rfl := Option.some.inj hitem
          exact hother

theorem oldest_host_some {sample : StoredSample} (h : store.oldest_host = some (host_id, sample)) :
    (∃ rest, store.samples host_id = sample :: rest) ∧
      ∀ other first rest, store.samples other = first :: rest → sample.sequence ≤ first.sequence := by
  obtain ⟨hmem, hleast, _⟩ := foldl_older h
  constructor
  · have hfront := hmem.resolve_right (Option.some_ne_none _ ∘ Eq.symm)
    obtain ⟨item, hitem, hitem_front⟩ := List.mem_filterMap.mp hfront
    obtain ⟨head, hhead, hpair⟩ := Option.map_eq_some_iff.mp hitem_front
    obtain ⟨rfl, rfl⟩ := Prod.mk.inj hpair
    have hlookup : store.hosts.lookup item.1 = some item.2 :=
      List.mem_dlookup store.hosts.nodupKeys hitem
    rw [samples_of_lookup hlookup]
    exact List.head?_eq_some_iff.mp hhead
  · intro other first rest hsamples
    cases hlookup : store.hosts.lookup other with
    | none =>
      rw [samples_of_none hlookup] at hsamples
      exact absurd hsamples.symm (List.cons_ne_nil first rest)
    | some history =>
      rw [samples_of_lookup hlookup] at hsamples
      apply hleast (other, first)
      apply List.mem_filterMap.mpr
      refine ⟨⟨other, history⟩, List.of_mem_dlookup hlookup, ?_⟩
      unfold front
      dsimp only
      rw [hsamples]
      rfl

theorem foldl_older_isSome {items : List (Text × StoredSample)} {start : Option (Text × StoredSample)}
    (h : start.isSome = true ∨ items ≠ []) : (items.foldl older start).isSome = true := by
  induction items generalizing start with
  | nil => exact h.resolve_right fun hne => hne rfl
  | cons first items ih =>
    apply ih
    left
    unfold older
    split
    · rfl
    · split <;> rfl

/-- Without an oldest sample there is no sample. -/
theorem oldest_host_none (h : store.oldest_host = none) (host_id : Text) : store.samples host_id = [] := by
  cases hsamples : store.samples host_id with
  | nil => rfl
  | cons first rest =>
    cases hlookup : store.hosts.lookup host_id with
    | none =>
      rw [samples_of_none hlookup] at hsamples
      exact absurd hsamples.symm (List.cons_ne_nil first rest)
    | some history =>
      rw [samples_of_lookup hlookup] at hsamples
      have hmem : (host_id, first) ∈ store.hosts.entries.filterMap front := by
        apply List.mem_filterMap.mpr
        refine ⟨⟨host_id, history⟩, List.of_mem_dlookup hlookup, ?_⟩
        unfold front
        dsimp only
        rw [hsamples]
        rfl
      have hsome : (List.foldl older none (store.hosts.entries.filterMap front)).isSome = true :=
        foldl_older_isSome (.inr (List.ne_nil_of_mem hmem))
      rw [show List.foldl older none (store.hosts.entries.filterMap front) = none from h] at hsome
      exact absurd hsome Bool.false_ne_true

/-- A store with no samples is within its budgets. -/
theorem StoreInv.empty_within (h : StoreInv store) (hempty : ∀ host_id, store.samples host_id = []) :
    store.global_over = false := by
  have hentries : store.hosts.entries = [] := by
    apply List.eq_nil_iff_forall_not_mem.mpr
    intro item hitem
    have hlookup : store.hosts.lookup item.1 = some item.2 :=
      List.mem_dlookup store.hosts.nodupKeys hitem
    apply h.nonempty item.1 item.2 hlookup
    rw [← samples_of_lookup hlookup]
    exact hempty item.1
  unfold global_over
  rw [h.total_samples, h.total_bytes]
  unfold AList.total
  rw [hentries]
  rfl

/-- The second loop is over after as many rounds as the store has samples and hosts. -/
theorem evict_oldest_isSome {rounds : Nat} (h : store.rounds ≤ rounds) :
    (evict_oldest rounds store).isSome = true := by
  induction rounds generalizing store with
  | zero =>
    unfold HistoryStore.rounds at h
    omega
  | succ rounds ih =>
    unfold evict_oldest
    split
    · split
      · rfl
      · next host_id sample holdest =>
        obtain ⟨⟨rest, hsamples⟩, _⟩ := oldest_host_some holdest
        have hlookup : ∃ history, store.hosts.lookup host_id = some history := by
          cases hnone : store.hosts.lookup host_id with
          | none =>
            rw [samples_of_none hnone] at hsamples
            exact absurd hsamples.symm (List.cons_ne_nil sample rest)
          | some history => exact ⟨history, rfl⟩
        obtain ⟨history, hlookup⟩ := hlookup
        have hfewer := pop_front_rounds hlookup
        apply ih
        omega
    · rfl

theorem pop_front_suffix (store : HistoryStore) (host_id other : Text) :
    (store.pop_front host_id).samples other <:+ store.samples other := by
  rw [pop_front_samples]
  split
  · next hother =>
    rw [hother]
    exact List.tail_suffix _
  · exact List.suffix_refl _

theorem pop_front_next_sequence (store : HistoryStore) (host_id : Text) :
    (store.pop_front host_id).next_sequence = store.next_sequence := by
  unfold HistoryStore.pop_front
  split
  · rfl
  · split <;> rfl

/-- The second loop takes samples from the fronts, to the budgets of the store. -/
theorem evict_oldest_cases {rounds : Nat} (h : StoreInv store)
    (hevict : evict_oldest rounds store = some store') :
    StoreInv store' ∧ store'.global_over = false ∧
      (∀ host_id, store'.samples host_id <:+ store.samples host_id) ∧
      store'.next_sequence = store.next_sequence := by
  induction rounds generalizing store with
  | zero => exact absurd hevict.symm (Option.some_ne_none store')
  | succ rounds ih =>
    unfold evict_oldest at hevict
    split at hevict
    · split at hevict
      · next holdest =>
        obtain rfl := Option.some.inj hevict
        exact ⟨h, h.empty_within (oldest_host_none holdest), fun _ => List.suffix_refl _, rfl⟩
      · next host_id _ _ =>
        obtain ⟨hinv, hover, hsuffix, hnext⟩ := ih (h.pop_front host_id) hevict
        refine ⟨hinv, hover, ?_, hnext.trans (pop_front_next_sequence store host_id)⟩
        intro other
        exact (hsuffix other).trans (pop_front_suffix store host_id other)
    · next hover =>
      obtain rfl := Option.some.inj hevict
      exact ⟨h, eq_false_of_ne_true hover, fun _ => List.suffix_refl _, rfl⟩

/-! ### The order of the evictions -/

/-- The sequences tell in which order the samples were recorded. -/
structure Ordered (store : HistoryStore) : Prop where
  sequence : ∀ host_id, ∀ sample ∈ store.samples host_id, sample.sequence = sample.recorded
  increasing : ∀ host_id, (store.samples host_id).Pairwise fun a b => a.recorded < b.recorded
  distinct : ∀ host_id other, ∀ a ∈ store.samples host_id, ∀ b ∈ store.samples other,
    a.recorded = b.recorded → host_id = other

theorem Ordered.suffix (h : Ordered store)
    (hsuffix : ∀ host_id, store'.samples host_id <:+ store.samples host_id) : Ordered store' where
  sequence := fun host_id sample hmem => h.sequence host_id sample ((hsuffix host_id).subset hmem)
  increasing := fun host_id => (h.increasing host_id).sublist (hsuffix host_id).sublist
  distinct := fun host_id other a ha b hb =>
    h.distinct host_id other a ((hsuffix host_id).subset ha) b ((hsuffix other).subset hb)

/-- The oldest sample was recorded before all others. -/
theorem Ordered.oldest (h : Ordered store) {sample : StoredSample} {rest : List StoredSample}
    (hsamples : store.samples host_id = sample :: rest)
    (hleast : ∀ other first rest, store.samples other = first :: rest →
      sample.sequence ≤ first.sequence) (x : StoredSample) :
    x ∈ (store.pop_front host_id).samples other ↔
      x ∈ store.samples other ∧ sample.recorded < x.recorded := by
  have hfirst : ∀ y ∈ rest, sample.recorded < y.recorded := by
    have hpairwise := h.increasing host_id
    rw [hsamples] at hpairwise
    exact (List.pairwise_cons.mp hpairwise).1
  rw [pop_front_samples]
  by_cases hother : other = host_id
  · rw [if_pos hother, hother, hsamples, List.tail_cons, List.mem_cons]
    constructor
    · intro hmem
      exact ⟨.inr hmem, hfirst x hmem⟩
    · rintro ⟨rfl | hmem, hlater⟩
      · exact absurd hlater (Nat.lt_irrefl _)
      · exact hmem
  · rw [if_neg hother]
    refine ⟨fun hmem => ⟨hmem, ?_⟩, And.left⟩
    have hsample : sample ∈ store.samples host_id := by
      rw [hsamples]
      exact List.mem_cons_self
    -- the front of the other host is not older, and is another sample
    cases hfront : store.samples other with
    | nil =>
      rw [hfront] at hmem
      exact absurd hmem List.not_mem_nil
    | cons first others =>
      have hle := hleast other first others hfront
      have hfirst_mem : first ∈ store.samples other := by
        rw [hfront]
        exact List.mem_cons_self
      rw [h.sequence host_id sample hsample, h.sequence other first hfirst_mem] at hle
      have hne : sample.recorded ≠ x.recorded := fun hsame =>
        hother (h.distinct host_id other sample hsample x hmem hsame).symm
      have hfirst_le : first.recorded ≤ x.recorded := by
        rw [hfront] at hmem
        rcases List.mem_cons.mp hmem with rfl | hlater
        · exact Nat.le_refl _
        · have hpairwise := h.increasing other
          rw [hfront] at hpairwise
          exact Nat.le_of_lt ((List.pairwise_cons.mp hpairwise).1 x hlater)
      omega

/-- The second loop takes away what was recorded before some point. -/
theorem evict_oldest_order {rounds : Nat} (h : Ordered store)
    (hevict : evict_oldest rounds store = some store') :
    ∃ threshold, ∀ host_id x, x ∈ store'.samples host_id ↔
      x ∈ store.samples host_id ∧ threshold ≤ x.recorded := by
  induction rounds generalizing store with
  | zero => exact absurd hevict.symm (Option.some_ne_none store')
  | succ rounds ih =>
    unfold evict_oldest at hevict
    split at hevict
    · split at hevict
      · obtain rfl := Option.some.inj hevict
        exact ⟨0, fun _ _ => ⟨fun hmem => ⟨hmem, Nat.zero_le _⟩, And.left⟩⟩
      · next host_id sample holdest =>
        obtain ⟨⟨rest, hsamples⟩, hleast⟩ := oldest_host_some holdest
        obtain ⟨threshold, hthreshold⟩ := ih (h.suffix (pop_front_suffix store host_id)) hevict
        refine ⟨max threshold (sample.recorded + 1), ?_⟩
        intro other x
        rw [hthreshold, h.oldest hsamples hleast, and_assoc]
        apply and_congr_right
        intro _
        omega
    · obtain rfl := Option.some.inj hevict
      exact ⟨0, fun _ _ => ⟨fun hmem => ⟨hmem, Nat.zero_le _⟩, And.left⟩⟩

/-- Both loops of `record` end. -/
theorem record_isSome (store : HistoryStore) (sample : StoredSample) (max_samples : Nat) :
    (store.record sample max_samples).isSome = true := by
  unfold record record_host
  have htrim : (trim_host sample.sample.host_id.text max_samples (store.push sample).rounds
      (store.push sample)).isSome = true := trim_host_isSome (Nat.le_refl _)
  obtain ⟨trimmed, htrimmed⟩ := Option.isSome_iff_exists.mp htrim
  dsimp only
  rw [htrimmed, Option.bind_some]
  exact evict_oldest_isSome (Nat.le_refl _)

end HistoryStore

/-! ### Runs -/

open HistoryStore (StoreInv Ordered sum_bytes)

variable {layout : SampleLayout} {history history' : History} {label : HistoryLabel} {host_id : Text}

/-- What was recorded for a host since it was removed last. -/
def History.log_of (history : History) (host_id : Text) : List StoredSample :=
  history.log.filter fun stored => stored.sample.host_id.text = host_id

structure HistoryInv (layout : SampleLayout) (history : History) : Prop where
  store : StoreInv history.store
  /-- A host retains the end of what was recorded for it. -/
  suffix : ∀ host_id, history.store.samples host_id <:+ history.log_of host_id
  limit : ∀ host_id, (history.store.samples host_id).length ≤ history.limits host_id
  limits : ∀ host_id, history.limits host_id ≤ MAX_HISTORY_SAMPLES_PER_HOST
  bytes : ∀ host_id, sum_bytes (history.store.samples host_id) ≤ MAX_HISTORY_BYTES_PER_HOST
  within : history.store.global_over = false
  increasing : history.log.Pairwise fun a b => a.recorded < b.recorded
  recorded : ∀ stored ∈ history.log, stored.recorded < history.recorded
  sequence : ∀ stored ∈ history.log, stored.sequence = stored.recorded % SEQUENCES
  accounted : ∀ stored ∈ history.log, stored.accounted_bytes = sample_accounted_bytes layout stored.sample
  next_sequence : history.store.next_sequence = history.recorded % SEQUENCES

theorem historyInv_default : HistoryInv layout .default where
  store := ⟨fun _ _ h => absurd h.symm (Option.some_ne_none _),
    fun _ _ h => absurd h.symm (Option.some_ne_none _), rfl, rfl⟩
  suffix := fun _ => List.suffix_refl _
  limit := fun _ => Nat.le_refl _
  limits := fun _ => Nat.zero_le _
  bytes := fun _ => Nat.zero_le _
  within := rfl
  increasing := List.Pairwise.nil
  recorded := fun _ h => absurd h List.not_mem_nil
  sequence := fun _ h => absurd h List.not_mem_nil
  accounted := fun _ h => absurd h List.not_mem_nil
  next_sequence := rfl

theorem max_samples_le (options : TelemetryOptions) :
    options.max_samples ≤ MAX_HISTORY_SAMPLES_PER_HOST := by
  have hlimit : MAX_HISTORY_SAMPLES_PER_HOST = 3600 := rfl
  unfold TelemetryOptions.max_samples
  omega

/-- The store between the two loops of a step that records. -/
def History.recorded_host (history : History) (layout : SampleLayout) (sample : SampleNames)
    (options : TelemetryOptions) : Option HistoryStore :=
  history.store.record_host (history.stored layout sample) options.max_samples

theorem record_cases {sample : SampleNames} {options : TelemetryOptions}
    (hnext : history.next layout (.record sample options) = some history') :
    sample_accounted_bytes layout sample ≤ ISIZE_MAX ∧
      ∃ trimmed, history.recorded_host layout sample options = some trimmed ∧
        HistoryStore.evict_oldest trimmed.rounds trimmed = some history'.store ∧
          history'.log = history.log ++ [history.stored layout sample] ∧
            history'.recorded = history.recorded + 1 ∧
              history'.limits =
                Function.update history.limits sample.host_id.text options.max_samples := by
  obtain ⟨hsize, hnext⟩ := Option.ite_none_left_eq_some.mp hnext
  obtain ⟨store, hrecord, rfl⟩ := Option.map_eq_some_iff.mp hnext
  obtain ⟨trimmed, htrim, hevict⟩ := Option.bind_eq_some_iff.mp hrecord
  exact ⟨Nat.le_of_not_lt hsize, trimmed, htrim, hevict, rfl, rfl, rfl⟩

theorem host_over_bounds {store : HistoryStore} (h : StoreInv store) {max_samples : Nat}
    (hover : store.host_over host_id max_samples = false) :
    (store.samples host_id).length ≤ max_samples ∧
      sum_bytes (store.samples host_id) ≤ MAX_HISTORY_BYTES_PER_HOST := by
  cases hlookup : store.hosts.lookup host_id with
  | none =>
    rw [HistoryStore.samples_of_none hlookup]
    exact ⟨Nat.zero_le _, Nat.zero_le _⟩
  | some found =>
    rw [HistoryStore.samples_of_lookup hlookup, ← h.bytes host_id found hlookup]
    unfold HistoryStore.host_over at hover
    rw [hlookup, Option.any_some, Bool.or_eq_false_iff, decide_eq_false_iff_not,
      decide_eq_false_iff_not] at hover
    exact ⟨Nat.le_of_not_lt hover.1, Nat.le_of_not_lt hover.2⟩

/-- What the first loop leaves. -/
theorem HistoryInv.trimmed (h : HistoryInv layout history) {sample : SampleNames}
    {options : TelemetryOptions} (hsize : sample_accounted_bytes layout sample ≤ ISIZE_MAX)
    {trimmed : HistoryStore} (htrim : history.recorded_host layout sample options = some trimmed) :
    StoreInv trimmed ∧
      (trimmed.samples sample.host_id.text).length ≤ options.max_samples ∧
      sum_bytes (trimmed.samples sample.host_id.text) ≤ MAX_HISTORY_BYTES_PER_HOST ∧
      trimmed.samples sample.host_id.text <:+
        history.store.samples sample.host_id.text ++ [history.stored layout sample] ∧
      (∀ other, other ≠ sample.host_id.text → trimmed.samples other = history.store.samples other) ∧
      trimmed.next_sequence = (history.store.next_sequence + 1) % SEQUENCES := by
  have hpush : StoreInv (history.store.push (history.stored layout sample)) :=
    h.store.push h.within hsize
  obtain ⟨hinv, hover, hsuffix, hothers, hnext⟩ := HistoryStore.trim_host_cases hpush htrim
  have hself : (history.stored layout sample).sample.host_id.text = sample.host_id.text := rfl
  obtain ⟨hlength, hbytes⟩ := host_over_bounds hinv hover
  refine ⟨hinv, hlength, hbytes, ?_, ?_, hnext⟩
  · rw [HistoryStore.push_samples, if_pos rfl] at hsuffix
    exact hsuffix
  · intro other hother
    rw [hothers other hother, HistoryStore.push_samples, hself, if_neg hother]

theorem log_of_append (log : List StoredSample) (stored : StoredSample) (host_id : Text) :
    (log ++ [stored]).filter (fun stored => stored.sample.host_id.text = host_id) =
      log.filter (fun stored => stored.sample.host_id.text = host_id) ++
        if stored.sample.host_id.text = host_id then [stored] else [] := by
  rw [List.filter_append]
  by_cases hhost : stored.sample.host_id.text = host_id
  · rw [if_pos hhost]
    simp [hhost]
  · rw [if_neg hhost]
    simp [hhost]

/-- What a recording step leaves between its loops, on the record of the log. -/
theorem HistoryInv.trimmed_suffix (h : HistoryInv layout history) {sample : SampleNames}
    {options : TelemetryOptions} (hsize : sample_accounted_bytes layout sample ≤ ISIZE_MAX)
    {trimmed : HistoryStore} (htrim : history.recorded_host layout sample options = some trimmed)
    (host_id : Text) : trimmed.samples host_id <:+
      (history.log ++ [history.stored layout sample]).filter fun stored =>
        stored.sample.host_id.text = host_id := by
  obtain ⟨_, _, _, hown, hothers, _⟩ := h.trimmed hsize htrim
  rw [log_of_append,
    show (history.stored layout sample).sample.host_id.text = sample.host_id.text from rfl]
  by_cases hhost : sample.host_id.text = host_id
  · rw [if_pos hhost]
    rw [hhost] at hown
    obtain ⟨front, hfront⟩ := h.suffix host_id
    refine hown.trans ⟨front, ?_⟩
    rw [← List.append_assoc, hfront]
    rfl
  · rw [if_neg hhost, List.append_nil, hothers host_id fun hsame => hhost hsame.symm]
    exact h.suffix host_id

theorem HistoryInv.record (h : HistoryInv layout history) {sample : SampleNames}
    {options : TelemetryOptions}
    (hnext : history.next layout (.record sample options) = some history') :
    HistoryInv layout history' := by
  obtain ⟨hsize, trimmed, htrim, hevict, hlog, hrecorded, hlimits⟩ := record_cases hnext
  obtain ⟨hinv, hlength, hbytes, hown, hothers, hsequence⟩ := h.trimmed hsize htrim
  obtain ⟨hinv', hwithin, hsuffix, hsequence'⟩ := HistoryStore.evict_oldest_cases hinv hevict
  have hstored : (history.stored layout sample).sequence =
      (history.stored layout sample).recorded % SEQUENCES := h.next_sequence
  refine ⟨hinv', ?_, ?_, ?_, ?_, hwithin, ?_, ?_, ?_, ?_, ?_⟩
  · intro host_id
    unfold History.log_of
    rw [hlog]
    exact (hsuffix host_id).trans (h.trimmed_suffix hsize htrim host_id)
  · intro host_id
    have hle := (hsuffix host_id).length_le
    rw [hlimits]
    by_cases hhost : host_id = sample.host_id.text
    · rw [hhost, Function.update_self]
      rw [hhost] at hle
      omega
    · rw [Function.update_of_ne hhost]
      rw [hothers host_id hhost] at hle
      exact Nat.le_trans hle (h.limit host_id)
  · intro host_id
    rw [hlimits]
    by_cases hhost : host_id = sample.host_id.text
    · rw [hhost, Function.update_self]
      exact max_samples_le options
    · rw [Function.update_of_ne hhost]
      exact h.limits host_id
  · intro host_id
    have hle := HistoryStore.sum_bytes_suffix (hsuffix host_id)
    by_cases hhost : host_id = sample.host_id.text
    · rw [hhost] at hle ⊢
      omega
    · rw [hothers host_id hhost] at hle
      exact Nat.le_trans hle (h.bytes host_id)
  · rw [hlog, List.pairwise_append]
    refine ⟨h.increasing, List.pairwise_singleton _ _, ?_⟩
    intro earlier hearlier last hlast
    rw [List.mem_singleton.mp hlast]
    exact h.recorded earlier hearlier
  · intro stored hmem
    rw [hlog] at hmem
    rw [hrecorded]
    rcases List.mem_append.mp hmem with hold | hlast
    · exact Nat.lt_succ_of_lt (h.recorded stored hold)
    · rw [List.mem_singleton.mp hlast]
      exact Nat.lt_succ_self history.recorded
  · intro stored hmem
    rw [hlog] at hmem
    rcases List.mem_append.mp hmem with hold | hlast
    · exact h.sequence stored hold
    · rw [List.mem_singleton.mp hlast]
      exact hstored
  · intro stored hmem
    rw [hlog] at hmem
    rcases List.mem_append.mp hmem with hold | hlast
    · exact h.accounted stored hold
    · rw [List.mem_singleton.mp hlast]
      rfl
  · rw [hsequence', hsequence, h.next_sequence, hrecorded, Nat.mod_add_mod]

theorem HistoryInv.remove_host (h : HistoryInv layout history) (host_id : Text) :
    HistoryInv layout
      { history with
        store := history.store.remove_host host_id
        log := history.log.filter fun stored => stored.sample.host_id.text ≠ host_id } := by
  have hsamples := HistoryStore.remove_host_samples history.store host_id
  have hmem : ∀ stored ∈ history.log.filter fun stored => stored.sample.host_id.text ≠ host_id,
      stored ∈ history.log := fun _ hstored => (List.mem_filter.mp hstored).1
  have hfewer : ∀ other, (history.store.remove_host host_id).samples other <:+
      history.store.samples other := by
    intro other
    rw [hsamples]
    split
    · exact List.nil_suffix
    · exact List.suffix_refl _
  refine ⟨h.store.remove_host host_id, ?_, ?_, h.limits, ?_, ?_, ?_, ?_, ?_, ?_, ?_⟩
  · intro other
    show (history.store.remove_host host_id).samples other <:+ _
    rw [hsamples]
    split
    · exact List.nil_suffix
    · next hother =>
      have hsame : ((history.log.filter fun stored => stored.sample.host_id.text ≠ host_id).filter
          fun stored => stored.sample.host_id.text = other) = history.log_of other := by
        rw [List.filter_filter]
        apply List.filter_congr
        intro stored _
        by_cases hhost : stored.sample.host_id.text = other
        · rw [decide_eq_true hhost, Bool.true_and]
          exact decide_eq_true fun hgone => hother (hhost.symm.trans hgone)
        · rw [decide_eq_false hhost, Bool.false_and]
      unfold History.log_of
      dsimp only
      rw [hsame]
      exact h.suffix other
  · intro other
    exact Nat.le_trans (hfewer other).length_le (h.limit other)
  · intro other
    exact Nat.le_trans (HistoryStore.sum_bytes_suffix (hfewer other)) (h.bytes other)
  · -- the totals only get less
    have hwithin := h.within
    unfold HistoryStore.global_over at hwithin ⊢
    rw [Bool.or_eq_false_iff, decide_eq_false_iff_not, decide_eq_false_iff_not] at hwithin ⊢
    have hless : (history.store.remove_host host_id).total_samples ≤ history.store.total_samples ∧
        (history.store.remove_host host_id).total_accounted_bytes ≤
          history.store.total_accounted_bytes := by
      unfold HistoryStore.remove_host
      split
      · exact ⟨Nat.le_refl _, Nat.le_refl _⟩
      · exact ⟨Nat.sub_le _ _, Nat.sub_le _ _⟩
    dsimp only
    omega
  · exact h.increasing.sublist List.filter_sublist
  · exact fun stored hstored => h.recorded stored (hmem stored hstored)
  · exact fun stored hstored => h.sequence stored (hmem stored hstored)
  · exact fun stored hstored => h.accounted stored (hmem stored hstored)
  · show (history.store.remove_host host_id).next_sequence = _
    unfold HistoryStore.remove_host
    split <;> exact h.next_sequence

theorem reachable_historyInv {ok : History → HistoryLabel → Prop}
    (h : (history_machine layout).ReachableWhen ok history) : HistoryInv layout history := by
  apply h.invariant
  · intro _ hinit
    rw [hinit]
    exact historyInv_default
  · intro _ label _ hinv _ hnext
    cases label with
    | record sample options => exact hinv.record hnext
    | remove_host host_id =>
      rw [← Option.some.inj hnext]
      exact hinv.remove_host host_id

/-- No sequence has wrapped before a step that records fewer than `SEQUENCES`
    samples after the first. -/
theorem HistoryInv.ordered (h : HistoryInv layout history) {sample : SampleNames}
    {options : TelemetryOptions} (hsize : sample_accounted_bytes layout sample ≤ ISIZE_MAX)
    {trimmed : HistoryStore} (htrim : history.recorded_host layout sample options = some trimmed)
    (hunwrapped : history.recorded < SEQUENCES) : Ordered trimmed := by
  have hlog : ∀ stored ∈ history.log ++ [history.stored layout sample],
      stored.sequence = stored.recorded := by
    intro stored hmem
    rcases List.mem_append.mp hmem with hold | hlast
    · rw [h.sequence stored hold]
      exact Nat.mod_eq_of_lt (Nat.lt_trans (h.recorded stored hold) hunwrapped)
    · rw [List.mem_singleton.mp hlast]
      exact h.next_sequence.trans (Nat.mod_eq_of_lt hunwrapped)
  have hincreasing : (history.log ++ [history.stored layout sample]).Pairwise
      fun a b => a.recorded < b.recorded := by
    rw [List.pairwise_append]
    refine ⟨h.increasing, List.pairwise_singleton _ _, ?_⟩
    intro earlier hearlier last hlast
    rw [List.mem_singleton.mp hlast]
    exact h.recorded earlier hearlier
  have hsuffix := h.trimmed_suffix hsize htrim
  have hmem : ∀ host_id, ∀ stored ∈ trimmed.samples host_id,
      stored ∈ history.log ++ [history.stored layout sample] ∧
        stored.sample.host_id.text = host_id := by
    intro host_id stored hstored
    obtain ⟨hin, hhost⟩ := List.mem_filter.mp ((hsuffix host_id).subset hstored)
    exact ⟨hin, of_decide_eq_true hhost⟩
  refine ⟨?_, ?_, ?_⟩
  · intro host_id stored hstored
    exact hlog stored (hmem host_id stored hstored).1
  · intro host_id
    exact (hincreasing.sublist List.filter_sublist).sublist (hsuffix host_id).sublist
  · intro host_id other a ha b hb hsame
    obtain ⟨ha, hhost⟩ := hmem host_id a ha
    obtain ⟨hb, hother⟩ := hmem other b hb
    -- two entries of the log with one number are one entry
    have hdiffer : (history.log ++ [history.stored layout sample]).Pairwise
        fun a b => a.recorded ≠ b.recorded := hincreasing.imp Nat.ne_of_lt
    have hsymm : Std.Symm fun a b : StoredSample => a.recorded ≠ b.recorded := ⟨fun _ _ h => h.symm⟩
    have heq : a = b := by
      by_contra hne
      exact hdiffer.forall ha hb hne hsame
    rw [← hhost, ← hother, heq]

/-- A step that records a sample that exists has a result. -/
theorem record_next_isSome (history : History) {sample : SampleNames} (options : TelemetryOptions)
    (hsize : sample_accounted_bytes layout sample ≤ ISIZE_MAX) :
    (history.next layout (.record sample options)).isSome = true := by
  have hexists : ¬(history.stored layout sample).accounted_bytes > ISIZE_MAX := Nat.not_lt.mpr hsize
  unfold History.next
  dsimp only
  rw [if_neg hexists, Option.isSome_map]
  exact HistoryStore.record_isSome history.store (history.stored layout sample) options.max_samples

def no_layout : SampleLayout := ⟨0, 0, 0, 0⟩

/-- A sample of a host, with an allocation of so many bytes. -/
def named_sample (host_id : Text) (capacity : Nat) : SampleNames where
  host_id := ⟨host_id, 0⟩
  sampled_at := ⟨[], 0⟩
  hostname := ⟨[], capacity⟩
  current_user := ⟨[], 0⟩
  disks := ⟨[], 0⟩
  gpus := ⟨[], 0⟩
  processes := ⟨[], 0⟩

def three_seconds : TelemetryOptions := ⟨3, 30, true⟩

/-- Nothing is retained after so many samples. -/
def emptied (recorded : Nat) (limits : Text → Nat) : History where
  store := { HistoryStore.default with next_sequence := recorded % SEQUENCES }
  log := []
  recorded := recorded
  limits := limits

theorem StoreInv_eq_default {store : HistoryStore} (h : StoreInv store)
    (hempty : ∀ host_id, store.samples host_id = []) :
    store = { HistoryStore.default with next_sequence := store.next_sequence } := by
  have hentries : store.hosts.entries = [] := by
    apply List.eq_nil_iff_forall_not_mem.mpr
    intro item hitem
    have hlookup : store.hosts.lookup item.1 = some item.2 :=
      List.mem_dlookup store.hosts.nodupKeys hitem
    apply h.nonempty item.1 item.2 hlookup
    rw [← HistoryStore.samples_of_lookup hlookup]
    exact hempty item.1
  have hhosts : store.hosts = ∅ := AList.ext hentries
  have hsamples := h.total_samples
  have hbytes := h.total_bytes
  rw [hhosts] at hsamples hbytes
  cases store
  dsimp only at hhosts hsamples hbytes
  rw [hhosts, hsamples, hbytes]
  rfl

theorem named_sample_bytes (host_id : Text) :
    sample_accounted_bytes no_layout (named_sample host_id 0) = 224 := by
  simp [sample_accounted_bytes, saturating_sum, saturating_add, saturating_mul, string_bytes,
    named_sample, no_layout, ALLOCATION_OVERHEAD, USIZE_MAX]

theorem named_sample_exists (host_id : Text) :
    sample_accounted_bytes no_layout (named_sample host_id 0) ≤ ISIZE_MAX := by
  have hlimit : 224 ≤ ISIZE_MAX := by decide
  rw [named_sample_bytes]
  exact hlimit

theorem reachable_next (h : (history_machine layout).Reachable history)
    (hnext : history.next layout label = some history') :
    (history_machine layout).Reachable history' := h.step trivial hnext

/-- Nothing is retained after a sample was recorded and its host removed. -/
theorem removed_step (h : (history_machine no_layout).Reachable history) (hlog : history.log = [])
    (host_id : Text) : (history_machine no_layout).Reachable
      (emptied (history.recorded + 1)
        (Function.update history.limits host_id three_seconds.max_samples)) := by
  have hends : (history.next no_layout (.record (named_sample host_id 0) three_seconds)).isSome =
      true := record_next_isSome history three_seconds (named_sample_exists host_id)
  obtain ⟨history', hrecord⟩ := Option.isSome_iff_exists.mp hends
  obtain ⟨_, _, _, _, hlog', hrecorded, hlimits⟩ := record_cases hrecord
  have hreach : (history_machine no_layout).Reachable history' := reachable_next h hrecord
  have hremove := hreach.step trivial
    (show (history_machine no_layout).next history' (.remove_host host_id) = _ from rfl)
  have hinv := reachable_historyInv hremove
  have hempty : (history'.log.filter fun stored => stored.sample.host_id.text ≠ host_id) = [] := by
    have hself : (history.stored no_layout (named_sample host_id 0)).sample.host_id.text = host_id :=
      rfl
    rw [hlog', hlog]
    simp [hself]
  have hsamples : ∀ other, (history'.store.remove_host host_id).samples other = [] := by
    intro other
    have hsuffix := hinv.suffix other
    unfold History.log_of at hsuffix
    dsimp only at hsuffix
    rw [hempty, List.filter_nil] at hsuffix
    exact List.suffix_nil.mp hsuffix
  have hstore := StoreInv_eq_default hinv.store hsamples
  have hsequence := hinv.next_sequence
  dsimp only at hsequence hstore
  rw [hsequence, hrecorded] at hstore
  rw [hempty, hstore, hlimits, hrecorded] at hremove
  exact hremove

theorem emptied_reachable (host_id : Text) (recorded : Nat) :
    (history_machine no_layout).Reachable (emptied (recorded + 1)
      (Function.update (fun _ => 0) host_id three_seconds.max_samples)) := by
  induction recorded with
  | zero =>
    have hinit : (history_machine no_layout).Reachable .default := .init rfl
    exact removed_step hinit rfl host_id
  | succ recorded ih =>
    have hstep := removed_step ih rfl host_id
    rw [show (emptied (recorded + 1) (Function.update (fun _ => 0) host_id
      three_seconds.max_samples)).limits = Function.update (fun _ => 0) host_id
        three_seconds.max_samples from rfl, Function.update_idem] at hstep
    exact hstep

/-- A sample of 14 MiB: there is room for four of them. -/
def large_sample (host_id : Text) : SampleNames := named_sample host_id 14680064

/-- The next step takes away the sample of `c`, which was recorded after that of `b`. -/
def evicts_later (history : History) : Bool :=
  let last := large_sample "f".toList
  match history.next no_layout (.record last three_seconds),
    history.recorded_host no_layout last three_seconds with
  | some history', some trimmed =>
      (trimmed.samples "c".toList).any fun later =>
        later ∉ history'.store.samples "c".toList ∧
          (history'.store.samples "b".toList).any fun earlier => earlier.recorded < later.recorded
  | _, _ => false

theorem evicts_later_run : ∃ history, (history_machine no_layout).Reachable history ∧
    evicts_later history = true := by
  have hstart := emptied_reachable "a".toList 18446744073709551614
  have hreplay := Machine.steps_of_replay (m := history_machine no_layout) (fun _ _ => true)
    (fun _ _ _ => trivial)
    (emptied 18446744073709551615
      (Function.update (fun _ => 0) "a".toList three_seconds.max_samples))
    [.record (large_sample "b".toList) three_seconds,
      .record (large_sample "c".toList) three_seconds,
      .record (large_sample "d".toList) three_seconds,
      .record (large_sample "e".toList) three_seconds] evicts_later (by decide +kernel)
  obtain ⟨history, hrun, hlater⟩ := hreplay
  exact ⟨history, hrun.reachable hstart, hlater⟩

end Telemetry
