import RemoteDeck.Lib.Stream
import RemoteDeck.Transport.Events

/-! # What the stream of events delivers

    The log and the receiver of a connection hold events numbered without
    gaps up to the last one published.  What the client still gets is a flow
    from its cursor, in which a number is skipped, or comes again, behind a
    resync only (`Streaming`).  This fails where a log that has just dropped
    all its entries is asked for an older event, and where an event named
    `resync` that the log has replayed comes again from the receiver and
    takes the stream back with it (`orderly`).
-/

namespace Transport

open Stream (Consecutive Flow Next behind reach)

variable {Value : Type} {json : Json Value} {log log' : EventLog Value}
  {state state' : State Value} {connection connection' : Connection Value} {label : Label Value}
  {item : Envelope Value}

def Envelope.is_resync (item : Envelope Value) : Bool := item.event = .resync

/-- A log without entries is not asked for events that it has dropped, unless
    the receiver has them; the stream does not go back behind an item that is
    not a resync; and no sequence number wraps. -/
def orderly (state : State Value) : Label Value → Bool
  | .publish _ _ => state.log.sequence < MAX_U64
  | .read_log =>
      state.connection.all fun connection =>
        connection.since.all fun since =>
          !state.log.entries.isEmpty || state.log.sequence ≤ since + connection.receiver.length
  | .poll =>
      state.connection.all fun connection =>
        match connection.stage, Broadcast.recv BROADCAST_CAPACITY connection.receiver with
        | .streaming [], some (.item item, _) =>
            item.event ≠ .resync || connection.last ≤ item.sequence ||
              (state.received ++ connection.wire).getLast?.all Envelope.is_resync
        | _, _ => true
  | _ => true

/-! ### The log -/

/-- Events numbered without gaps up to the last one published. -/
structure Recent (sequence : Nat) (items : List (Envelope Value)) : Prop where
  length_le : items.length ≤ sequence
  consecutive : Consecutive Envelope.sequence (sequence - items.length) items

theorem recent_nil (sequence : Nat) : Recent sequence ([] : List (Envelope Value)) :=
  ⟨Nat.zero_le _, trivial⟩

theorem Recent.push {sequence : Nat} {items : List (Envelope Value)} (h : Recent sequence items)
    (hsequence : item.sequence = sequence + 1) : Recent (sequence + 1) (items ++ [item]) := by
  have hlen : (items ++ [item]).length = items.length + 1 := by simp
  have hle := h.length_le
  refine ⟨by omega, ?_⟩
  have hbase : sequence + 1 - (items ++ [item]).length = sequence - items.length := by omega
  rw [hbase]
  exact h.consecutive.push (by omega)

theorem Recent.suffix {sequence : Nat} {items rest : List (Envelope Value)}
    (h : Recent sequence items) (hrest : rest <:+ items) : Recent sequence rest := by
  have hle := h.length_le
  have hlen := hrest.length_le
  refine ⟨by omega, ?_⟩
  have hbase : sequence - items.length + items.length - rest.length = sequence - rest.length := by omega
  exact hbase ▸ h.consecutive.suffix hrest

/-- The events are not ahead of the last one. -/
theorem Recent.le {sequence : Nat} {items : List (Envelope Value)} (h : Recent sequence items)
    (hitem : item ∈ items) : item.sequence ≤ sequence := by
  have hle := h.consecutive.le hitem
  have hlen := h.length_le
  omega

theorem prune_suffix (entries : List (Envelope Value × Nat)) (bytes : Nat) :
    (prune entries bytes).1 <:+ entries := by
  induction entries generalizing bytes with
  | nil => exact List.suffix_rfl
  | cons entry rest ih =>
    unfold prune
    split
    · exact (ih _).trans (List.suffix_cons entry rest)
    · exact List.suffix_rfl

/-- The entries of a log. -/
def EventLog.items (log : EventLog Value) : List (Envelope Value) := log.entries.map Prod.fst

/-- What publishing does. -/
theorem publish_effect {event : EventName} {payload : Value}
    (h : publish json log event payload = some (log', item)) (hlog : Recent log.sequence log.items)
    (hbound : log.sequence < MAX_U64) :
    log'.sequence = log.sequence + 1 ∧ item.sequence = log.sequence + 1 ∧
      Recent log'.sequence log'.items := by
  have hwrap : (log.sequence + 1) % (MAX_U64 + 1) = log.sequence + 1 := Nat.mod_eq_of_lt (by omega)
  unfold publish at h
  split at h
  · simp at h
  · rw [hwrap, Option.some.injEq, Prod.mk.injEq] at h
    obtain ⟨rfl, rfl⟩ := h
    have hkept := (prune_suffix (log.entries ++ [(⟨log.sequence + 1, event, payload⟩,
      json.encoded_len (log.sequence + 1) event payload)])
      (log.bytes + json.encoded_len (log.sequence + 1) event payload)).map Prod.fst
    rw [List.map_append, List.map_singleton] at hkept
    have hpushed : Recent (log.sequence + 1) (log.items ++ [⟨log.sequence + 1, event, payload⟩]) :=
      hlog.push rfl
    exact ⟨rfl, rfl, hpushed.suffix hkept⟩

/-- A log that retains the next event of a client replays all that it has not got. -/
theorem replay_consecutive {since : Nat} (hlog : Recent log.sequence log.items)
    (hsince : since ≤ log.sequence) (hretains : log.retains since = true)
    (hentries : log.entries ≠ []) :
    Consecutive Envelope.sequence since (log.items.filter fun item => since < item.sequence) ∧
      since + (log.items.filter fun item => since < item.sequence).length = log.sequence := by
  have hle := hlog.length_le
  have hbase : log.sequence - log.items.length ≤ since := by
    obtain ⟨entry, rest, hentries⟩ := List.exists_cons_of_ne_nil hentries
    have hitems : log.items = entry.1 :: rest.map Prod.fst := by simp [EventLog.items, hentries]
    have hconsecutive := hlog.consecutive
    rw [hitems] at hconsecutive ⊢
    have hfirst := hconsecutive.1
    have hnext : entry.1.sequence ≤ min (since + 1) MAX_U64 := by
      simpa [EventLog.retains, hentries] using hretains
    have hmin : min (since + 1) MAX_U64 ≤ since + 1 := min_le_left _ _
    omega
  obtain ⟨hreplay, hlen⟩ := hlog.consecutive.filter hbase (by omega)
  exact ⟨hreplay, by omega⟩

/-! ### The stream -/

/-- The number from which the client goes on. -/
def State.position (state : State Value) : Nat := state.cursor.getD 0

/-- The client has nothing, or a resync last. -/
def State.free (state : State Value) : Bool := state.received.getLast?.all Envelope.is_resync

/-- What the client gets from some point on. -/
abbrev Follows (state : State Value) (items : List (Envelope Value)) : Prop :=
  Flow Envelope.sequence Envelope.is_resync state.free state.position items

/-- What the client is still to get, from its position on. -/
structure Streaming (state : State Value) (connection : Connection Value)
    (pending : List (Envelope Value)) : Prop where
  follows : Follows state (connection.wire ++ pending)
  reach_le : reach Envelope.sequence state.position (connection.wire ++ pending) ≤ state.log.sequence
  items_le : ∀ item ∈ connection.wire ++ pending, item.sequence ≤ state.log.sequence
  last : reach Envelope.sequence state.position connection.wire = connection.last ∨
    connection.wire = [] ∧ ∃ first rest, pending = first :: rest ∧ first.is_resync = true

/-- What is known of a connection at its stage. -/
structure ConnectionInv (state : State Value) (connection : Connection Value) : Prop where
  receiver : Recent state.log.sequence connection.receiver
  subscribed : connection.stage = .subscribed → connection.wire = [] ∧
    connection.last = connection.since.getD 0 ∧
      (connection.since = none ∨ connection.since = state.cursor)
  streaming : ∀ pending, connection.stage = .streaming pending → Streaming state connection pending ∧
    state.log.sequence - connection.receiver.length ≤
      reach Envelope.sequence state.position (connection.wire ++ pending)
  lagged : connection.stage = .lagged → Streaming state connection []

structure StateInv (state : State Value) : Prop where
  log : Recent state.log.sequence state.log.items
  known : state.free = true ∨ state.position ≤ state.log.sequence
  connection : ∀ connection, state.connection = some connection → ConnectionInv state connection

/-- Nothing is pending: the number of the last item is that of what is on the wire. -/
theorem Streaming.last_eq (h : Streaming state connection []) :
    reach Envelope.sequence state.position connection.wire = connection.last := by
  rcases h.last with hlast | ⟨_, first, rest, hnone, _⟩
  · exact hlast
  · simp at hnone

/-- One more item to yield. -/
theorem Streaming.push (h : Streaming state connection [])
    (hnext : Next Envelope.sequence Envelope.is_resync
      ((state.received ++ connection.wire).getLast?.all Envelope.is_resync) connection.last item)
    (hle : item.sequence ≤ state.log.sequence) : Streaming state connection [item] := by
  have hlast := h.last_eq
  obtain ⟨hfollows, _, hitems, _⟩ := h
  rw [List.append_nil] at hfollows hitems
  refine ⟨?_, ?_, ?_, .inl hlast⟩
  · refine hfollows.push ?_
    rw [hlast, State.free, Stream.behind_getLast]
    exact hnext
  · rw [Stream.reach_append]
    exact hle
  · intro other hother
    rcases List.mem_append.mp hother with hother | hother
    · exact hitems other hother
    · exact List.mem_singleton.mp hother ▸ hle

/-- The item that a round takes is yielded, and the rest stays as it is. -/
theorem Streaming.deliver {pending : List (Envelope Value)}
    (h : Streaming state connection (item :: pending)) :
    connection.deliver item =
      { connection with last := item.sequence, wire := connection.wire ++ [item] } ∧
    Streaming state (connection.deliver item) pending := by
  have hyield : connection.deliver item =
      { connection with last := item.sequence, wire := connection.wire ++ [item] } := by
    apply if_neg
    rintro ⟨hle, hevent⟩
    have hmarker : item.is_resync = false := decide_eq_false hevent
    rcases h.last with hlast | ⟨_, first, rest, hsame, hfirst⟩
    · rcases h.follows.next with ⟨hfirst, _⟩ | ⟨_, hseq⟩
      · simp [hmarker] at hfirst
      · omega
    · obtain ⟨rfl, rfl⟩ := List.cons.inj hsame
      simp [hmarker] at hfirst
  have hwire : connection.wire ++ [item] ++ pending = connection.wire ++ item :: pending := by simp
  refine ⟨hyield, ?_⟩
  rw [hyield]
  refine ⟨?_, ?_, ?_, .inl ?_⟩
  · show Follows state (connection.wire ++ [item] ++ pending)
    exact hwire ▸ h.follows
  · show reach _ _ (connection.wire ++ [item] ++ pending) ≤ _
    exact hwire ▸ h.reach_le
  · show ∀ other ∈ connection.wire ++ [item] ++ pending, _
    exact hwire ▸ h.items_le
  · show reach _ _ (connection.wire ++ [item]) = _
    rw [Stream.reach_append]
    rfl

/-- The client is told how far it is behind. -/
theorem streaming_of_marker (hwire : connection.wire = [])
    (hknown : state.free = true ∨ state.position ≤ state.log.sequence) :
    Streaming state connection [resync json state.log.sequence] where
  follows := by
    rw [hwire]
    exact ⟨.inl ⟨rfl, hknown⟩, trivial⟩
  reach_le := by
    rw [hwire]
    exact le_rfl
  items_le := by
    rw [hwire]
    intro item hitem
    exact (List.mem_singleton.mp hitem) ▸ le_rfl
  last := .inr ⟨hwire, _, [], rfl, rfl⟩

/-- What the log yields takes the client to the events that the receiver has. -/
theorem initial_streaming (h : StateInv state) (hconnection : state.connection = some connection)
    (hstage : connection.stage = .subscribed) (hok : orderly state .read_log = true) :
    Streaming state connection (initial json state.log connection.since) ∧
      state.log.sequence - connection.receiver.length ≤
        reach Envelope.sequence state.position
          (connection.wire ++ initial json state.log connection.since) := by
  obtain ⟨hwire, hlast, hsince⟩ := (h.connection connection hconnection).subscribed hstage
  have hmarker : Streaming state connection [resync json state.log.sequence] ∧
      state.log.sequence - connection.receiver.length ≤
        reach Envelope.sequence state.position
          (connection.wire ++ [resync json state.log.sequence]) := by
    refine ⟨streaming_of_marker hwire h.known, ?_⟩
    rw [hwire]
    exact Nat.sub_le _ _
  cases hresume : connection.since with
  | none => exact hmarker
  | some since =>
    show Streaming state connection (if _ then _ else _) ∧ _ ≤ reach _ _ (_ ++ if _ then _ else _)
    split
    case isFalse => exact hmarker
    case isTrue hreplay =>
      have hposition : state.position = since := by
        rcases hsince with hnone | hsame
        · simp [hresume] at hnone
        · rw [State.position, ← hsame, hresume]
          rfl
      have hitems : Consecutive Envelope.sequence since
          (state.log.items.filter fun item => since < item.sequence) ∧
          state.log.sequence - connection.receiver.length ≤
            since + (state.log.items.filter fun item => since < item.sequence).length ∧
          since + (state.log.items.filter fun item => since < item.sequence).length ≤
            state.log.sequence := by
        by_cases hentries : state.log.entries = []
        · have hreceiver : state.log.sequence ≤ since + connection.receiver.length := by
            simpa [orderly, hconnection, hresume, hentries] using hok
          have hnone : state.log.items = [] := by simp [EventLog.items, hentries]
          rw [hnone]
          exact ⟨trivial, Nat.sub_le_iff_le_add.mpr hreceiver, hreplay.1⟩
        · obtain ⟨hreplayed, hlen⟩ := replay_consecutive h.log hreplay.1 hreplay.2 hentries
          exact ⟨hreplayed, hlen ▸ Nat.sub_le _ _, hlen.le⟩
      obtain ⟨hitems, hbase, hle⟩ := hitems
      have hreach := hitems.reach
      rw [hwire, hposition]
      refine ⟨⟨?_, ?_, ?_, .inl ?_⟩, hbase.trans hreach.ge⟩
      · rw [hwire, Follows, hposition]
        exact hitems.flow
      · rw [hwire, hposition]
        exact hreach.le.trans hle
      · rw [hwire]
        intro item hitem
        exact h.log.le (List.mem_of_mem_filter hitem)
      · rw [hwire, hposition, hlast, hresume]
        rfl

/-! ### Steps -/

theorem ConnectionInv.publish {log' : EventLog Value} {item : Envelope Value}
    (h : ConnectionInv state connection) (hstep : log'.sequence = state.log.sequence + 1)
    (hsequence : item.sequence = state.log.sequence + 1) :
    ConnectionInv
      { state with
        log := log'
        connection := some (connection.send item)
        published := state.published ++ [item] }
      (connection.send item) := by
  have hgrow : ∀ {pending}, Streaming state connection pending →
      Streaming
        { state with
          log := log'
          connection := some (connection.send item)
          published := state.published ++ [item] }
        (connection.send item) pending := by
    intro pending hstream
    have hle : state.log.sequence ≤ log'.sequence := by omega
    exact ⟨hstream.follows, hstream.reach_le.trans hle,
      fun other hother => (hstream.items_le other hother).trans hle, hstream.last⟩
  refine ⟨?_, h.subscribed, fun pending hstage => ?_, fun hstage => hgrow (h.lagged hstage)⟩
  · show Recent log'.sequence (connection.receiver ++ [item])
    rw [hstep]
    exact h.receiver.push hsequence
  · obtain ⟨hstream, hbase⟩ := h.streaming pending hstage
    refine ⟨hgrow hstream, ?_⟩
    show log'.sequence - (connection.receiver ++ [item]).length ≤
      reach _ state.position (connection.wire ++ pending)
    rw [hstep, List.length_append, List.length_singleton]
    omega

/-- A round that takes an event from the receiver. -/
theorem ConnectionInv.take {rest : List (Envelope Value)} (h : ConnectionInv state connection)
    (hstage : connection.stage = .streaming []) (hqueue : connection.receiver = item :: rest)
    (hback : item.event ≠ .resync ∨ connection.last ≤ item.sequence ∨
      (state.received ++ connection.wire).getLast?.all Envelope.is_resync = true) :
    ConnectionInv state ({ connection with receiver := rest }.deliver item) := by
  obtain ⟨hstream, hbase⟩ := h.streaming _ hstage
  have hreceiver : Recent state.log.sequence (item :: rest) := hqueue ▸ h.receiver
  have hrest := hreceiver.suffix (List.suffix_cons item rest)
  obtain ⟨hlen, hconsecutive⟩ := hreceiver
  rw [List.length_cons] at hlen hconsecutive
  have hseq := hconsecutive.1
  have hlast := hstream.last_eq
  rw [List.append_nil, hlast, hqueue, List.length_cons] at hbase
  have htaken : Streaming state { connection with receiver := rest } [] :=
    ⟨hstream.follows, hstream.reach_le, hstream.items_le, hstream.last⟩
  by_cases hgot : item.sequence ≤ connection.last ∧ item.event ≠ .resync
  · -- the replay has already yielded this event
    have hskip : { connection with receiver := rest }.deliver item = { connection with receiver := rest } :=
      if_pos hgot
    rw [hskip]
    refine ⟨hrest, by simp [hstage], fun pending hpending => ?_, by simp [hstage]⟩
    have hsame : pending = [] := (Stage.streaming.inj (hstage.symm.trans hpending)).symm
    subst hsame
    refine ⟨htaken, ?_⟩
    rw [List.append_nil, htaken.last_eq]
    show state.log.sequence - rest.length ≤ connection.last
    omega
  · -- the event is the next one, since the receiver holds all that came after the last one
    have hnext : Next Envelope.sequence Envelope.is_resync
        ((state.received ++ connection.wire).getLast?.all Envelope.is_resync) connection.last item := by
      by_cases hmarker : item.event = .resync
      · refine .inl ⟨decide_eq_true hmarker, ?_⟩
        rcases hback with hevent | hforward | hfree
        · exact absurd hmarker hevent
        · exact .inr hforward
        · exact .inl hfree
      · have hnew : ¬ item.sequence ≤ connection.last := fun hle => hgot ⟨hle, hmarker⟩
        exact .inr ⟨decide_eq_false hmarker, by omega⟩
    obtain ⟨hyield, hnew⟩ := (htaken.push hnext (by omega)).deliver
    rw [hyield] at hnew ⊢
    refine ⟨hrest, by simp [hstage], fun pending hpending => ?_, by simp [hstage]⟩
    have hsame : pending = [] := (Stage.streaming.inj (hstage.symm.trans hpending)).symm
    subst hsame
    refine ⟨hnew, ?_⟩
    rw [List.append_nil, hnew.last_eq]
    show state.log.sequence - rest.length ≤ item.sequence
    omega

theorem ConnectionInv.poll (h : ConnectionInv state connection)
    (hconnection : state.connection = some connection) (hok : orderly state .poll = true)
    (hpoll : Transport.poll connection = some connection') : ConnectionInv state connection' := by
  unfold Transport.poll at hpoll
  split at hpoll
  case h_1 item pending hstage =>
    obtain ⟨hstream, hbase⟩ := h.streaming _ hstage
    rw [Option.some.injEq] at hpoll
    subst hpoll
    have hnow : Streaming state { connection with stage := .streaming pending } (item :: pending) :=
      ⟨hstream.follows, hstream.reach_le, hstream.items_le, hstream.last⟩
    obtain ⟨hyield, hrest⟩ := hnow.deliver
    rw [hyield] at hrest ⊢
    refine ⟨h.receiver, nofun, fun other hother => ?_, nofun⟩
    have hsame : other = pending := (Stage.streaming.inj hother).symm
    subst hsame
    refine ⟨hrest, ?_⟩
    show _ ≤ reach _ _ (connection.wire ++ [item] ++ other)
    rw [List.append_assoc, List.singleton_append]
    exact hbase
  case h_2 hstage =>
    obtain ⟨⟨received, rest⟩, hrecv, hpoll⟩ := Option.bind_eq_some_iff.mp hpoll
    rcases Broadcast.recv_cases hrecv with ⟨item, rfl, hqueue⟩ | ⟨missed, rfl, hsuffix⟩
    · rw [Option.some.injEq] at hpoll
      subst hpoll
      simp only [orderly, hconnection, Option.all_some, hstage, hrecv, Bool.or_eq_true,
        decide_eq_true_eq, or_assoc] at hok
      exact h.take hstage hqueue hok
    · rw [Option.some.injEq] at hpoll
      subst hpoll
      have hstream := (h.streaming _ hstage).1
      refine ⟨h.receiver.suffix hsuffix, nofun, nofun, fun _ => ?_⟩
      exact ⟨hstream.follows, hstream.reach_le, hstream.items_le, hstream.last⟩
  case h_3 => simp at hpoll

/-- The marker after a lag. -/
theorem ConnectionInv.read_cursor (h : ConnectionInv state connection)
    (hstage : connection.stage = .lagged) :
    ConnectionInv state
      ({ connection with stage := .streaming [] }.deliver (resync json state.log.sequence)) := by
  have hstream := h.lagged hstage
  have hle := hstream.reach_le
  rw [List.append_nil, hstream.last_eq] at hle
  have hnow : Streaming state { connection with stage := .streaming [] } [] :=
    ⟨hstream.follows, hstream.reach_le, hstream.items_le, hstream.last⟩
  have hnext : Next Envelope.sequence Envelope.is_resync
      ((state.received ++ connection.wire).getLast?.all Envelope.is_resync) connection.last
      (resync json state.log.sequence) := .inl ⟨rfl, .inr hle⟩
  obtain ⟨hyield, hnew⟩ := (hnow.push hnext le_rfl).deliver
  rw [hyield] at hnew ⊢
  refine ⟨h.receiver, nofun, fun pending hpending => ?_, nofun⟩
  have hsame : pending = [] := (Stage.streaming.inj hpending).symm
  subst hsame
  refine ⟨hnew, ?_⟩
  rw [List.append_nil, hnew.last_eq]
  show state.log.sequence - _ ≤ state.log.sequence
  omega

/-- The client gets the first item on the wire. -/
theorem ConnectionInv.receive {wire : List (Envelope Value)} (h : ConnectionInv state connection)
    (hwire : connection.wire = item :: wire) :
    ConnectionInv
      { state with
        connection := some { connection with wire := wire }
        cursor := some item.sequence
        received := state.received ++ [item] }
      { connection with wire := wire } := by
  have hrest : ∀ {pending}, Streaming state connection pending →
      Streaming
        { state with
          connection := some { connection with wire := wire }
          cursor := some item.sequence
          received := state.received ++ [item] }
        { connection with wire := wire } pending := by
    intro pending hstream
    obtain ⟨hfollows, hle, hitems, hlast⟩ := hstream
    rw [hwire] at hfollows hle hitems hlast
    refine ⟨?_, hle, fun other hother => hitems other (List.mem_cons_of_mem _ hother), ?_⟩
    · have hfree : (state.received ++ [item]).getLast?.all Envelope.is_resync = item.is_resync := by simp
      show Flow _ _ ((state.received ++ [item]).getLast?.all Envelope.is_resync) item.sequence _
      rw [hfree]
      exact hfollows.2
    · rcases hlast with hlast | ⟨hnone, _⟩
      · exact .inl hlast
      · simp at hnone
  refine ⟨h.receiver, fun hstage => ?_, fun pending hstage => ?_, fun hstage => hrest (h.lagged hstage)⟩
  · have hnone := (h.subscribed hstage).1
    simp [hwire] at hnone
  · obtain ⟨hstream, hbase⟩ := h.streaming pending hstage
    rw [hwire] at hbase
    exact ⟨hrest hstream, hbase⟩

/-- Where a wire has items, the client is to get them. -/
theorem ConnectionInv.wire_streaming (h : ConnectionInv state connection)
    (hwire : connection.wire ≠ []) : ∃ pending, Streaming state connection pending := by
  cases hstage : connection.stage with
  | subscribed => exact absurd (h.subscribed hstage).1 hwire
  | streaming pending => exact ⟨pending, (h.streaming pending hstage).1⟩
  | lagged => exact ⟨[], h.lagged hstage⟩

/-! ### The invariant -/

theorem stateInv_init (h : (hub json).init state) : StateInv state := by
  obtain ⟨hlog, hconnection, hreceived, _⟩ := h
  refine ⟨?_, .inl ?_, fun connection hsome => ?_⟩
  · rw [hlog]
    exact recent_nil 0
  · rw [State.free, hreceived]
    rfl
  · simp [hconnection] at hsome

/-- A step that changes the connection alone. -/
theorem StateInv.set_connection (h : StateInv state) (hconnection : ConnectionInv state connection) :
    StateInv (state.set_connection connection) := by
  refine ⟨h.log, h.known, fun other hother => ?_⟩
  have hsame : connection = other := Option.some.inj hother
  subst hsame
  have hstream : ∀ {pending}, Streaming state connection pending →
      Streaming (state.set_connection connection) connection pending :=
    fun hbefore => ⟨hbefore.follows, hbefore.reach_le, hbefore.items_le, hbefore.last⟩
  exact ⟨hconnection.receiver, hconnection.subscribed,
    fun pending hstage => (hconnection.streaming pending hstage).imp hstream id,
    fun hstage => hstream (hconnection.lagged hstage)⟩

theorem StateInv.step (h : StateInv state) (hok : orderly state label = true)
    (hnext : (hub json).next state label = some state') : StateInv state' := by
  cases label with
  | publish event payload =>
    simp only [hub, State.next] at hnext
    split at hnext
    case h_1 => exact Option.some.inj hnext ▸ h
    case h_2 log' item hpublish =>
      have hbound : state.log.sequence < MAX_U64 := by simpa [orderly] using hok
      obtain ⟨hsequence, hitem, hlog⟩ := publish_effect hpublish h.log hbound
      rw [Option.some.injEq] at hnext
      subst hnext
      refine ⟨hlog, ?_, fun connection hsome => ?_⟩
      · have hle : state.log.sequence ≤ log'.sequence := by omega
        exact h.known.imp_right fun hknown => hknown.trans hle
      · obtain ⟨before, hbefore, rfl⟩ := Option.map_eq_some_iff.mp hsome
        have hinv := (h.connection before hbefore).publish hsequence hitem
        simp only [hbefore, Option.map_some]
        exact hinv
  | subscribe resumes =>
    simp only [hub, State.next, Option.ite_none_right_eq_some, Option.some.injEq] at hnext
    obtain ⟨_, rfl⟩ := hnext
    refine h.set_connection ⟨recent_nil _, fun _ => ⟨rfl, rfl, ?_⟩, nofun, nofun⟩
    cases resumes with
    | true => exact .inr rfl
    | false => exact .inl rfl
  | read_log =>
    obtain ⟨connection, hconnection, hnext⟩ := Option.bind_eq_some_iff.mp hnext
    split at hnext
    case h_2 => simp at hnext
    case h_1 hstage =>
      rw [Option.some.injEq] at hnext
      subst hnext
      have hinv := h.connection connection hconnection
      have hyields : Streaming state connection (initial json state.log connection.since) ∧ _ :=
        initial_streaming h hconnection hstage hok
      obtain ⟨hstream, hbase⟩ := hyields
      refine h.set_connection ⟨hinv.receiver, nofun, fun pending hpending => ?_, nofun⟩
      have hsame := (Stage.streaming.inj hpending).symm
      subst hsame
      exact ⟨⟨hstream.follows, hstream.reach_le, hstream.items_le, hstream.last⟩, hbase⟩
  | poll =>
    obtain ⟨connection, hconnection, hnext⟩ := Option.bind_eq_some_iff.mp hnext
    obtain ⟨polled, hpolled, hnext⟩ := Option.bind_eq_some_iff.mp hnext
    rw [Option.some.injEq] at hnext
    have hinv := (h.connection connection hconnection).poll hconnection hok hpolled
    exact hnext ▸ h.set_connection hinv
  | read_cursor =>
    obtain ⟨connection, hconnection, hnext⟩ := Option.bind_eq_some_iff.mp hnext
    split at hnext
    case h_2 => simp at hnext
    case h_1 hstage =>
      rw [Option.some.injEq] at hnext
      exact hnext ▸ h.set_connection ((h.connection connection hconnection).read_cursor hstage)
  | receive =>
    obtain ⟨connection, hconnection, hnext⟩ := Option.bind_eq_some_iff.mp hnext
    split at hnext
    case h_1 => simp at hnext
    case h_2 item wire hwire =>
      rw [Option.some.injEq] at hnext
      subst hnext
      have hinv := h.connection connection hconnection
      have hsome : connection.wire ≠ [] := by simp [hwire]
      obtain ⟨pending, hstream⟩ := hinv.wire_streaming hsome
      refine ⟨h.log, .inr (hstream.items_le item ?_), fun other hother => ?_⟩
      · rw [hwire]
        exact List.mem_cons_self
      · exact Option.some.inj hother ▸ hinv.receive hwire
  | disconnect =>
    have hsame : { state with connection := none } = state' := Option.some.inj hnext
    subst hsame
    exact ⟨h.log, h.known, nofun⟩

/-! ### What is delivered was published -/

def Stage.pending : Stage Value → List (Envelope Value)
  | .streaming pending => pending
  | _ => []

def Connection.items (connection : Connection Value) : List (Envelope Value) :=
  connection.receiver ++ connection.wire ++ connection.stage.pending

/-- All that the log, the connection and the client hold. -/
def State.items (state : State Value) : List (Envelope Value) :=
  state.log.items ++ state.received ++ state.connection.elim [] Connection.items

structure Genuine (state : State Value) : Prop where
  consecutive : Consecutive Envelope.sequence 0 state.published
  length_eq : state.published.length = state.log.sequence
  items : ∀ item ∈ state.items, item.is_resync = true ∨ item ∈ state.published

theorem deliver_items : (connection.deliver item).items ⊆ item :: connection.items := by
  intro other hother
  unfold Connection.deliver at hother
  split at hother
  · exact List.mem_cons_of_mem _ hother
  · simp only [Connection.items, List.mem_append, List.mem_singleton] at hother
    simp only [Connection.items, List.mem_cons, List.mem_append]
    tauto

theorem connection_items (hconnection : state.connection = some connection) :
    connection.items ⊆ state.items := by
  intro item hitem
  rw [State.items, hconnection]
  exact List.mem_append_right _ hitem

theorem poll_items (h : poll connection = some connection') : connection'.items ⊆ connection.items := by
  unfold poll at h
  split at h
  case h_1 item pending hstage =>
    rw [Option.some.injEq] at h
    subst h
    refine List.Subset.trans deliver_items fun other hother => ?_
    simp only [Connection.items, Stage.pending, hstage, List.mem_cons, List.mem_append] at hother ⊢
    tauto
  case h_2 hstage =>
    obtain ⟨⟨received, rest⟩, hrecv, h⟩ := Option.bind_eq_some_iff.mp h
    rcases Broadcast.recv_cases hrecv with ⟨item, rfl, hqueue⟩ | ⟨missed, rfl, hsuffix⟩
    · rw [Option.some.injEq] at h
      subst h
      refine List.Subset.trans deliver_items fun other hother => ?_
      simp only [Connection.items, hqueue, List.mem_cons, List.mem_append] at hother ⊢
      tauto
    · rw [Option.some.injEq] at h
      subst h
      intro other hother
      have hmem : other ∈ rest → other ∈ connection.receiver := fun hin => hsuffix.subset hin
      simp only [Connection.items, Stage.pending, hstage, List.mem_append] at hother ⊢
      tauto
  case h_3 => simp at h

theorem initial_items {since : Option Nat} (hitem : item ∈ initial json log since) :
    item.is_resync = true ∨ item ∈ log.items := by
  have hmarker : item ∈ [resync json log.sequence] → item.is_resync = true := by
    intro hmem
    exact List.mem_singleton.mp hmem ▸ rfl
  unfold initial at hitem
  split at hitem
  case h_1 =>
    split at hitem
    · exact .inr (List.mem_of_mem_filter hitem)
    · exact .inl (hmarker hitem)
  case h_2 => exact .inl (hmarker hitem)

theorem publish_items {event : EventName} {payload : Value}
    (h : publish json log event payload = some (log', item)) : log'.items ⊆ log.items ++ [item] := by
  unfold publish at h
  split at h
  · simp at h
  · rw [Option.some.injEq, Prod.mk.injEq] at h
    obtain ⟨rfl, rfl⟩ := h
    intro other hother
    have hmem := ((prune_suffix _ _).map Prod.fst).subset hother
    rw [List.map_append, List.map_singleton] at hmem
    exact hmem

theorem genuine_init (h : (hub json).init state) : Genuine state := by
  obtain ⟨hlog, hconnection, hreceived, hpublished⟩ := h
  refine ⟨?_, ?_, fun item hitem => ?_⟩
  · rw [hpublished]
    trivial
  · rw [hpublished, hlog]
    rfl
  · simp [State.items, hlog, hreceived, hconnection, EventLog.items, EventLog.default] at hitem

/-- A step that publishes nothing brings in nothing but markers. -/
theorem Genuine.of_items (h : Genuine state) (hlog : state'.log = state.log)
    (hpublished : state'.published = state.published)
    (hitems : ∀ item ∈ state'.items, item.is_resync = true ∨ item ∈ state.items) : Genuine state' := by
  refine ⟨hpublished ▸ h.consecutive, hpublished ▸ hlog ▸ h.length_eq, fun item hitem => ?_⟩
  rw [hpublished]
  rcases hitems item hitem with hmarker | hbefore
  · exact .inl hmarker
  · exact h.items item hbefore

theorem set_connection_items
    (hitems : ∀ item ∈ connection'.items, item.is_resync = true ∨ item ∈ state.items) :
    ∀ item ∈ (state.set_connection connection').items, item.is_resync = true ∨ item ∈ state.items := by
  intro item hitem
  rcases List.mem_append.mp hitem with hitem | hitem
  · exact .inr (List.mem_append_left _ hitem)
  · exact hitems item hitem

theorem Genuine.step (h : Genuine state) (hinv : StateInv state) (hok : orderly state label = true)
    (hnext : (hub json).next state label = some state') : Genuine state' := by
  cases label with
  | publish event payload =>
    simp only [hub, State.next] at hnext
    split at hnext
    case h_1 => exact Option.some.inj hnext ▸ h
    case h_2 log' item hpublish =>
      have hbound : state.log.sequence < MAX_U64 := by simpa [orderly] using hok
      obtain ⟨hsequence, hitem, _⟩ := publish_effect hpublish hinv.log hbound
      rw [Option.some.injEq] at hnext
      subst hnext
      have hlen := h.length_eq
      refine ⟨h.consecutive.push (by omega), ?_, fun other hother => ?_⟩
      · rw [List.length_append, List.length_singleton, hlen, hsequence]
      · have hmem : other ∈ state.items ∨ other = item := by
          have hlog := @publish_items _ _ _ _ _ _ _ hpublish other
          cases hconnection : state.connection <;>
            simp only [State.items, hconnection, Option.map_none, Option.map_some, Option.elim_none,
              Option.elim_some, Connection.items, Connection.send, List.mem_append,
              List.mem_singleton] at hother hlog ⊢ <;>
            tauto
        rcases hmem with hmem | rfl
        · exact (h.items other hmem).imp_right (List.mem_append_left _)
        · exact .inr (List.mem_append_right _ (List.mem_singleton_self _))
  | subscribe resumes =>
    simp only [hub, State.next, Option.ite_none_right_eq_some, Option.some.injEq] at hnext
    obtain ⟨_, rfl⟩ := hnext
    exact h.of_items rfl rfl (set_connection_items nofun)
  | read_log =>
    obtain ⟨connection, hconnection, hnext⟩ := Option.bind_eq_some_iff.mp hnext
    split at hnext
    case h_2 => simp at hnext
    case h_1 hstage =>
      rw [Option.some.injEq] at hnext
      subst hnext
      refine h.of_items rfl rfl (set_connection_items fun item hitem => ?_)
      rcases List.mem_append.mp hitem with hitem | hitem
      · refine .inr (connection_items hconnection ?_)
        exact List.mem_append_left _ hitem
      · exact (initial_items hitem).imp_right fun hlog => by simp [State.items, hlog]
  | poll =>
    obtain ⟨connection, hconnection, hnext⟩ := Option.bind_eq_some_iff.mp hnext
    obtain ⟨polled, hpolled, hnext⟩ := Option.bind_eq_some_iff.mp hnext
    rw [Option.some.injEq] at hnext
    subst hnext
    refine h.of_items rfl rfl (set_connection_items fun item hitem => ?_)
    exact .inr (connection_items hconnection (poll_items hpolled hitem))
  | read_cursor =>
    obtain ⟨connection, hconnection, hnext⟩ := Option.bind_eq_some_iff.mp hnext
    split at hnext
    case h_2 => simp at hnext
    case h_1 hstage =>
      rw [Option.some.injEq] at hnext
      subst hnext
      refine h.of_items rfl rfl (set_connection_items fun item hitem => ?_)
      rcases List.mem_cons.mp (deliver_items hitem) with rfl | hbefore
      · exact .inl rfl
      · refine .inr (connection_items hconnection ?_)
        simpa [Connection.items, Stage.pending, hstage] using hbefore
  | receive =>
    obtain ⟨connection, hconnection, hnext⟩ := Option.bind_eq_some_iff.mp hnext
    split at hnext
    case h_1 => simp at hnext
    case h_2 item wire hwire =>
      rw [Option.some.injEq] at hnext
      subst hnext
      refine h.of_items rfl rfl fun other hother => .inr ?_
      simp only [State.items, hconnection, hwire, Option.elim_some, Connection.items, List.mem_append,
        List.mem_cons] at hother ⊢
      tauto
  | disconnect =>
    have hsame : { state with connection := none } = state' := Option.some.inj hnext
    subst hsame
    refine h.of_items rfl rfl fun other hother => .inr ?_
    exact List.mem_append_left _ (by simpa [State.items] using hother)

/-! ### Runs -/

theorem reachable_inv (hs : (hub json).ReachableWhen (fun s l => orderly s l = true) state) :
    StateInv state ∧ Genuine state := by
  induction hs with
  | init hinit => exact ⟨stateInv_init hinit, genuine_init hinit⟩
  | step _ hok hnext ih => exact ⟨ih.1.step hok hnext, ih.2.step ih.1 hok hnext⟩

/-- What a client has got from one state to another. -/
structure Got (state state' : State Value) (items : List (Envelope Value)) : Prop where
  received : state'.received = state.received ++ items
  follows : Follows state items
  reach : reach Envelope.sequence state.position items = state'.position

/-- What a step does to the client. -/
theorem step_client (hnext : (hub json).next state label = some state') :
    state'.received = state.received ∧ state'.cursor = state.cursor ∨
      ∃ connection item wire, state.connection = some connection ∧ connection.wire = item :: wire ∧
        state'.received = state.received ++ [item] ∧ state'.cursor = some item.sequence := by
  cases label with
  | publish event payload =>
    simp only [hub, State.next] at hnext
    split at hnext <;> exact .inl (Option.some.inj hnext ▸ ⟨rfl, rfl⟩)
  | subscribe resumes =>
    simp only [hub, State.next, Option.ite_none_right_eq_some, Option.some.injEq] at hnext
    exact .inl (hnext.2 ▸ ⟨rfl, rfl⟩)
  | read_log =>
    obtain ⟨connection, _, hnext⟩ := Option.bind_eq_some_iff.mp hnext
    split at hnext
    case h_1 => exact .inl (Option.some.inj hnext ▸ ⟨rfl, rfl⟩)
    case h_2 => simp at hnext
  | poll =>
    obtain ⟨connection, _, hnext⟩ := Option.bind_eq_some_iff.mp hnext
    obtain ⟨polled, _, hnext⟩ := Option.bind_eq_some_iff.mp hnext
    exact .inl (Option.some.inj hnext ▸ ⟨rfl, rfl⟩)
  | read_cursor =>
    obtain ⟨connection, _, hnext⟩ := Option.bind_eq_some_iff.mp hnext
    split at hnext
    case h_1 => exact .inl (Option.some.inj hnext ▸ ⟨rfl, rfl⟩)
    case h_2 => simp at hnext
  | receive =>
    obtain ⟨connection, hconnection, hnext⟩ := Option.bind_eq_some_iff.mp hnext
    split at hnext
    case h_1 => simp at hnext
    case h_2 item wire hwire =>
      exact .inr ⟨connection, item, wire, hconnection, hwire, Option.some.inj hnext ▸ ⟨rfl, rfl⟩⟩
  | disconnect => exact .inl (Option.some.inj hnext ▸ ⟨rfl, rfl⟩)

theorem Got.step {items : List (Envelope Value)} {state'' : State Value} (h : Got state state' items)
    (hinv : StateInv state') (hnext : (hub json).next state' label = some state'') :
    ∃ items, Got state state'' items := by
  rcases step_client hnext with ⟨hreceived, hcursor⟩ |
    ⟨connection, item, wire, hconnection, hwire, hreceived, hcursor⟩
  · refine ⟨items, hreceived.trans h.received, h.follows, ?_⟩
    rw [h.reach, State.position, State.position, hcursor]
  · have hsome : connection.wire ≠ [] := by simp [hwire]
    obtain ⟨pending, hstream⟩ := (hinv.connection connection hconnection).wire_streaming hsome
    have hfollows := hstream.follows
    rw [hwire] at hfollows
    have hitem := hfollows.1
    rw [State.free, h.received, ← Stream.behind_getLast, ← h.reach] at hitem
    refine ⟨items ++ [item], ?_, h.follows.push hitem, ?_⟩
    · rw [hreceived, h.received, List.append_assoc]
    · have hposition : state''.position = item.sequence := by rw [State.position, hcursor]; rfl
      rw [Stream.reach_append, hposition]
      rfl

theorem run_got (hs : (hub json).ReachableWhen (fun s l => orderly s l = true) state)
    (hrun : (hub json).StepsWhen (fun s l => orderly s l = true) state state') :
    ∃ items, Got state state' items := by
  induction hrun with
  | refl => exact ⟨[], by simp, trivial, rfl⟩
  | step hpre _ hnext ih =>
    obtain ⟨items, hgot⟩ := ih
    exact hgot.step (reachable_inv (hpre.reachable hs)).1 hnext

/-- The stream has yielded all that there is, and the client has got it. -/
def State.drained (state : State Value) : Bool :=
  state.connection.any fun connection =>
    connection.receiver.isEmpty && connection.wire.isEmpty &&
      match connection.stage with
      | .streaming pending => pending.isEmpty
      | _ => false

theorem StateInv.drained (h : StateInv state) (hdrained : state.drained = true) :
    state.position = state.log.sequence := by
  obtain ⟨connection, hconnection, hdone⟩ := (Option.any_eq_true _ _).mp hdrained
  have hinv := h.connection connection hconnection
  cases hstage : connection.stage with
  | subscribed => simp [hstage] at hdone
  | lagged => simp [hstage] at hdone
  | streaming pending =>
    simp only [hstage, Bool.and_eq_true, List.isEmpty_iff] at hdone
    obtain ⟨⟨hreceiver, hwire⟩, hpending⟩ := hdone
    obtain ⟨hstream, hbase⟩ := hinv.streaming pending hstage
    have hle := hstream.reach_le
    rw [hwire, hpending] at hbase hle
    rw [hreceiver] at hbase
    exact le_antisymm hle hbase

/-- An event whose number is delivered is the event that is delivered. -/
theorem Genuine.count_eq [DecidableEq Value] {items : List (Envelope Value)} {event : Envelope Value}
    (h : Genuine state) (hitems : ∀ item ∈ items, item.is_resync = true ∨ item ∈ state.published)
    (hevent : event ∈ state.published)
    (hcount : (items.countP fun item => item.is_resync = false ∧ item.sequence = event.sequence) = 1) :
    items.count event = 1 := by
  have hsame : ∀ item ∈ items, item.is_resync = false → item.sequence = event.sequence → item = event := by
    intro item hitem hmarker hsequence
    rcases hitems item hitem with hresync | hpublished
    · simp [hmarker] at hresync
    · exact h.consecutive.inj hpublished hevent hsequence
  have hdelivered : event.is_resync = false := by
    obtain ⟨item, hitem, hmatch⟩ := List.countP_pos_iff.mp (hcount ▸ Nat.zero_lt_one)
    obtain ⟨hmarker, hsequence⟩ := of_decide_eq_true hmatch
    exact hsame item hitem hmarker hsequence ▸ hmarker
  rw [← hcount]
  apply List.countP_congr
  intro item hitem
  rw [beq_iff_eq, decide_eq_true_eq]
  constructor
  · rintro rfl
    exact ⟨hdelivered, rfl⟩
  · rintro ⟨hmarker, hsequence⟩
    exact hsame item hitem hmarker hsequence

/-- What the client gets from one state to another increases between resync markers, and every
    event after the one that it had is got once or covered by a marker, up to the last one that
    was published when the stream has nothing left. -/
def NoSilentGap [DecidableEq Value] (state state' : State Value) : Prop :=
  ∃ items, state'.received = state.received ++ items ∧
    items.IsChain (fun a b => b.is_resync = true ∨ a.sequence < b.sequence) ∧
    (∀ event ∈ state'.published, state.position < event.sequence → event.sequence ≤ state'.position →
      items.count event = 1 ∨ ∃ item ∈ items, item.is_resync = true ∧ event.sequence ≤ item.sequence) ∧
    (state'.drained = true → state'.position = state'.log.sequence)

/-- **No silent gap** in any part of a run in which a log without entries is not asked for events
    that it has dropped and the stream does not go back. -/
theorem no_silent_gap [DecidableEq Value]
    (hs : (hub json).ReachableWhen (fun s l => orderly s l = true) state)
    (hrun : (hub json).StepsWhen (fun s l => orderly s l = true) state state') :
    NoSilentGap state state' := by
  obtain ⟨hinv, hgenuine⟩ := reachable_inv (hrun.reachable hs)
  obtain ⟨items, hgot⟩ := run_got hs hrun
  refine ⟨items, hgot.received, hgot.follows.increasing, fun event hevent hafter hbefore => ?_, hinv.drained⟩
  have hitems : ∀ item ∈ items, item.is_resync = true ∨ item ∈ state'.published := by
    intro item hitem
    have hmem : item ∈ state'.items := by simp [State.items, hgot.received, hitem]
    exact hgenuine.items item hmem
  refine (hgot.follows.delivered hafter (hgot.reach ▸ hbefore)).imp_left fun hcount => ?_
  exact hgenuine.count_eq hitems hevent hcount

/-! ### A client that comes back -/

def EventName.text : EventName → Text
  | .terminal_event => "terminal-event".toList
  | .tunnel_event => "tunnel-event".toList
  | .transfer_event => "transfer-event".toList
  | .telemetry_event => "telemetry-event".toList
  | .command_event => "command-event".toList
  | .operation_event => "operation-event".toList
  | .resync => "resync".toList

/-- Payloads that are null or strings of so many letters. -/
def letters : Json (Option Nat) where
  null := none
  kind := fun _ => none
  encoded_len := fun sequence event payload =>
    35 + (Nat.toDigits 10 sequence).length + event.text.length + payload.elim 4 (· + 2)

/-- The server has started, and the client knows nothing. -/
def started : State (Option Nat) where
  log := .default
  connection := none
  cursor := none
  received := []
  published := []

/-- The client connects and learns that nothing has been published; two events are published
    while it is away, and a third one when it is back. -/
def comes_back (second : Nat) : List (Label (Option Nat)) :=
  [.subscribe false, .read_log, .poll, .receive, .disconnect, .publish .transfer_event (some 7),
    .publish .operation_event (some second), .subscribe true, .read_log,
    .publish .transfer_event (some 9)]

/-- The client gets all three events. -/
theorem small_events_replayed :
    ∃ state : State (Option Nat), NoSilentGap started state ∧
      state.received.map Envelope.sequence = [0, 1, 2, 3] := by
  have hrun : ∃ state, (hub letters).StepsWhen (fun s l => orderly s l = true) started state ∧
      decide (state.received.map Envelope.sequence = [0, 1, 2, 3]) = true :=
    Machine.steps_of_replay orderly (fun _ _ => id) started
      (comes_back 8 ++ [.poll, .receive, .poll, .receive, .poll, .receive]) _ (by decide +kernel)
  obtain ⟨state, hsteps, hreceived⟩ := hrun
  have hstart : (hub letters).ReachableWhen (fun s l => orderly s l = true) started :=
    .init ⟨rfl, rfl, rfl, rfl⟩
  exact ⟨state, no_silent_gap hstart hsteps, of_decide_eq_true hreceived⟩

/-- An event larger than the log leaves it without entries: the client gets the third event
    and nothing that stands for the first two. -/
theorem large_event_leaves_gap :
    ∃ state : State (Option Nat), (hub letters).Reachable started ∧
      (hub letters).StepsWhen (fun _ _ => True) started state ∧ ¬ NoSilentGap started state := by
  have hrun : ∃ state, (hub letters).StepsWhen (fun _ _ => True) started state ∧
      decide (state.received.map (fun item => (item.sequence, item.is_resync)) =
          [(0, true), (3, false)] ∧ state.cursor = some 3 ∧
        ⟨1, .transfer_event, some 7⟩ ∈ state.published) = true :=
    Machine.steps_of_replay (fun _ _ => true) (fun _ _ _ => trivial) started
      (comes_back 9000000 ++ [.poll, .receive]) _ (by decide +kernel)
  obtain ⟨state, hsteps, hend⟩ := hrun
  obtain ⟨hreceived, hcursor, hpublished⟩ := of_decide_eq_true hend
  refine ⟨state, .init ⟨rfl, rfl, rfl, rfl⟩, hsteps, ?_⟩
  rintro ⟨items, hitems, _, hcovered, _⟩
  have hgot : ∀ item ∈ items, (item.sequence, item.is_resync) ∈ [(0, true), (3, false)] := by
    intro item hitem
    have hmem : item ∈ state.received := hitems ▸ List.mem_append_right _ hitem
    exact hreceived ▸ List.mem_map_of_mem hmem
  have hbefore : 1 ≤ state.position := by
    rw [State.position, hcursor]
    decide
  rcases hcovered _ hpublished Nat.zero_lt_one hbefore with hcount | ⟨item, hitem, hmarker, hle⟩
  · have hmem := hgot _ (List.count_pos_iff.mp (hcount ▸ Nat.zero_lt_one))
    simp [Envelope.is_resync] at hmem
  · have hmem := hgot item hitem
    simp only [hmarker, List.mem_cons, Prod.mk.injEq] at hmem
    simp only [and_true, Bool.true_eq_false, and_false, List.not_mem_nil, or_self, or_false] at hmem
    have hone : 1 ≤ item.sequence := hle
    omega

/-- A replayed resync that comes again takes the stream back, and the event behind it comes twice. -/
example : ((hub letters).replay (fun _ _ => true) started
    [.subscribe false, .read_log, .poll, .receive, .disconnect, .subscribe true,
      .publish .resync none, .publish .transfer_event (some 7), .read_log, .poll, .receive, .poll,
      .receive, .poll, .receive, .poll, .receive]).map (fun state : State (Option Nat) =>
        state.received.map Envelope.sequence) = some [0, 1, 2, 1, 2] := by
  decide +kernel

end Transport
