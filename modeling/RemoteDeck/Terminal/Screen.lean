import RemoteDeck.Terminal.Socket

/-! # What a view of a terminal shows

    What is still to come over a socket goes on from the cursor of the view
    to the events that the receiver holds (`SocketInv`), so that the view
    refuses nothing and skips nothing but what a marker stands for.
-/

namespace Terminal

open Stream (Consecutive Forward reach)

variable {session_id : Text} {generation : Nat} {state state' : State} {socket socket' : Socket}
  {view : View} {label : Label} {event : SequencedTerminalEvent} {message : Message}

/-! ### What is on its way -/

def Message.sequenced : Message → Option SequencedTerminalEvent
  | .event event => some event
  | _ => none

def Message.is_attached : Message → Bool
  | .attached _ _ _ => true
  | _ => false

/-- The messages that the server sends before it turns to its receiver. -/
def Stage.messages (session_id : Text) (generation : Nat) : Stage → List Message
  | .attaching lease replay =>
      .attached session_id generation lease :: (replay.map .event ++ [.replay_complete])
  | .replaying pending => pending.map .event ++ [.replay_complete]
  | .live | .closed => []

def Socket.messages (session_id : Text) (generation : Nat) (socket : Socket) : List Message :=
  socket.wire ++ socket.stage.messages session_id generation

def Socket.events (session_id : Text) (generation : Nat) (socket : Socket) :
    List SequencedTerminalEvent :=
  (socket.messages session_id generation).filterMap Message.sequenced

theorem sequenced_events (events : List SequencedTerminalEvent) :
    (events.map Message.event).filterMap Message.sequenced = events := by
  rw [List.filterMap_map]
  exact List.filterMap_some

/-- An event of the terminal, or a marker for events that are gone. -/
structure Known (session_id : Text) (generation : Nat) (state : State)
    (event : SequencedTerminalEvent) : Prop where
  generation_eq : event.generation = generation
  session_eq : event.event.session_id = session_id
  sequence_le : event.sequence ≤ state.stream.next_sequence
  source : event.is_truncation = false ∧ event ∈ state.published ∨
    event.is_truncation = true ∧ event.sequence ≤ state.stream.dropped_through.getD 0

/-- `attached` comes once, before all else. -/
def Opens (attached : Bool) (messages : List Message) : Prop :=
  if attached then ∀ message ∈ messages, message.is_attached = false
  else ∃ first rest, messages = first :: rest ∧ first.is_attached = true ∧
    ∀ message ∈ rest, message.is_attached = false

/-- What is known of a socket. -/
structure SocketInv (session_id : Text) (generation : Nat) (state : State) (socket : Socket) : Prop where
  generation_eq : state.view.cursor.generation = some generation
  receiver : socket.receiver <:+ state.published
  forward : Forward SequencedTerminalEvent.sequence SequencedTerminalEvent.is_truncation
    state.view.cursor.sequence (socket.events session_id generation)
  reach_eq : socket.stage ≠ .closed →
    reach SequencedTerminalEvent.sequence state.view.cursor.sequence
      (socket.events session_id generation) + socket.receiver.length = state.stream.next_sequence
  sequence_le : socket.sequence ≤ reach SequencedTerminalEvent.sequence state.view.cursor.sequence
    (socket.events session_id generation)
  known : ∀ event ∈ socket.events session_id generation, Known session_id generation state event
  opens : socket.is_open = true → Opens socket.attached (socket.messages session_id generation)

structure ScreenInv (session_id : Text) (generation : Nat) (state : State) : Prop where
  retains : Retains state.stream state.published
  bound : state.stream.next_sequence ≤ MAX_SAFE_INTEGER
  published : ∀ event ∈ state.published, event.generation = generation ∧
    event.event.session_id = session_id ∧ event.is_truncation = false
  fresh : state.view.cursor.generation ≠ some generation → state.view.applied = [] ∧ state.socket = none
  shown : state.view.cursor.generation = some generation →
    Forward SequencedTerminalEvent.sequence SequencedTerminalEvent.is_truncation 0 state.view.applied ∧
      reach SequencedTerminalEvent.sequence 0 state.view.applied = state.view.cursor.sequence ∧
      state.view.cursor.sequence ≤ state.stream.next_sequence
  known : ∀ event ∈ state.view.applied, Known session_id generation state event
  socket : ∀ socket, state.socket = some socket → SocketInv session_id generation state socket

theorem ScreenInv.published_le (h : ScreenInv session_id generation state)
    (hevent : event ∈ state.published) : event.sequence ≤ state.stream.next_sequence := by
  have hle := h.retains.consecutive.le hevent
  have hlen := h.retains.length_eq
  omega

theorem ScreenInv.published_known (h : ScreenInv session_id generation state)
    (hevent : event ∈ state.published) : Known session_id generation state event := by
  obtain ⟨hgeneration, hsession, hkind⟩ := h.published event hevent
  exact ⟨hgeneration, hsession, h.published_le hevent, .inl ⟨hkind, hevent⟩⟩

/-! ### The server -/

/-- A message that is sent before the server turns to its receiver was to be sent. -/
theorem push_messages {stage : Stage} {sequence : Nat}
    (hstage : socket.stage.messages session_id generation =
      message :: stage.messages session_id generation) :
    Socket.messages session_id generation
      ({ socket with stage := stage, sequence := sequence }.push message) =
        socket.messages session_id generation := by
  show socket.wire ++ [message] ++ stage.messages session_id generation = _
  rw [Socket.messages, hstage, List.append_assoc, List.singleton_append]

/-- Sending what was to be sent changes nothing for the view. -/
theorem SocketInv.sent {stage : Stage} {sequence : Nat}
    (h : SocketInv session_id generation state socket)
    (hstage : socket.stage.messages session_id generation =
      message :: stage.messages session_id generation)
    (hopen : socket.stage ≠ .closed)
    (hsequence : sequence ≤ reach SequencedTerminalEvent.sequence state.view.cursor.sequence
      (socket.events session_id generation)) :
    SocketInv session_id generation state
      ({ socket with stage := stage, sequence := sequence }.push message) := by
  have hmessages : Socket.messages session_id generation
      ({ socket with stage := stage, sequence := sequence }.push message) =
        socket.messages session_id generation := push_messages hstage
  have hevents : Socket.events session_id generation
      ({ socket with stage := stage, sequence := sequence }.push message) =
        socket.events session_id generation := by
    rw [Socket.events, hmessages, Socket.events]
  refine ⟨h.generation_eq, h.receiver, ?_, fun _ => ?_, ?_, ?_, fun hopened => ?_⟩
  · rw [hevents]
    exact h.forward
  · rw [hevents]
    exact h.reach_eq hopen
  · rw [hevents]
    exact hsequence
  · rw [hevents]
    exact h.known
  · rw [hmessages]
    exact h.opens hopened

/-- Live messages come behind all others. -/
theorem push_live {stage : Stage} {sequence : Nat} {receiver : List SequencedTerminalEvent}
    (hstage : socket.stage = .live) (hlast : stage = .live ∨ stage = .closed) :
    Socket.messages session_id generation
      ({ socket with receiver := receiver, sequence := sequence, stage := stage }.push message) =
        socket.messages session_id generation ++ [message] := by
  have hnone : stage.messages session_id generation = [] := by
    rcases hlast with rfl | rfl <;> rfl
  show socket.wire ++ [message] ++ stage.messages session_id generation = _
  rw [hnone, Socket.messages, hstage, List.append_nil]
  exact (congrArg (· ++ [message]) (List.append_nil socket.wire)).symm

theorem Opens.push {attached : Bool} {messages : List Message} (h : Opens attached messages)
    (hmessage : message.is_attached = false) : Opens attached (messages ++ [message]) := by
  cases attached with
  | true =>
    intro other hother
    rcases List.mem_append.mp hother with hbefore | hlast
    · exact h other hbefore
    · exact List.mem_singleton.mp hlast ▸ hmessage
  | false =>
    obtain ⟨first, rest, rfl, hfirst, hrest⟩ := h
    refine ⟨first, rest ++ [message], rfl, hfirst, fun other hother => ?_⟩
    rcases List.mem_append.mp hother with hbefore | hlast
    · exact hrest other hbefore
    · exact List.mem_singleton.mp hlast ▸ hmessage

/-- What is left to come when the first message has been handled. -/
theorem Opens.tail {attached : Bool} {rest : List Message} (h : Opens attached (message :: rest)) :
    Opens (attached || message.is_attached) rest := by
  cases attached with
  | true =>
    intro other hother
    exact h other (List.mem_cons_of_mem _ hother)
  | false =>
    obtain ⟨first, others, hsame, hfirst, hothers⟩ := h
    obtain ⟨rfl, rfl⟩ := List.cons.inj hsame
    rw [hfirst]
    exact hothers

/-- The next event that a receiver holds is the one behind all that is to come. -/
theorem SocketInv.next_event {rest : List SequencedTerminalEvent}
    (h : SocketInv session_id generation state socket) (hinv : ScreenInv session_id generation state)
    (hopen : socket.stage ≠ .closed) (hqueue : socket.receiver = event :: rest) :
    event.sequence = reach SequencedTerminalEvent.sequence state.view.cursor.sequence
      (socket.events session_id generation) + 1 ∧
      event.sequence + rest.length = state.stream.next_sequence := by
  have hreach := h.reach_eq hopen
  have hsuffix := h.receiver
  rw [hqueue] at hreach hsuffix
  rw [List.length_cons] at hreach
  have hseq := (hinv.retains.consecutive.suffix hsuffix).1
  rw [List.length_cons, hinv.retains.length_eq] at hseq
  omega

theorem SocketInv.send (h : SocketInv session_id generation state socket)
    (hinv : ScreenInv session_id generation state)
    (hsend : socket.send session_id generation = some socket') :
    SocketInv session_id generation state socket' := by
  unfold Socket.send at hsend
  split at hsend
  case h_1 lease replay hstage =>
    rw [Option.some.injEq] at hsend
    subst hsend
    exact h.sent (by rw [hstage]; rfl) (by simp [hstage]) h.sequence_le
  case h_2 event pending hstage =>
    rw [Option.some.injEq] at hsend
    subst hsend
    have hevent : event ∈ socket.events session_id generation := by
      rw [Socket.events, Socket.messages, hstage]
      simp [Stage.messages, Message.sequenced]
    exact h.sent (by rw [hstage]; rfl) (by simp [hstage]) (h.forward.mem_le_reach hevent)
  case h_3 hstage =>
    rw [Option.some.injEq] at hsend
    subst hsend
    exact h.sent (by rw [hstage]; rfl) (by simp [hstage]) h.sequence_le
  case h_4 hstage =>
    obtain ⟨⟨received, rest⟩, hrecv, hsend⟩ := Option.bind_eq_some_iff.mp hsend
    have hopen : socket.stage ≠ .closed := by simp [hstage]
    rcases Broadcast.recv_cases hrecv with ⟨event, rfl, hqueue⟩ | ⟨missed, rfl, hsuffix⟩
    · obtain ⟨hsequence, hlast⟩ := h.next_event hinv hopen hqueue
      have hnew : ¬ event.sequence ≤ socket.sequence := by
        have hle := h.sequence_le
        omega
      simp only [if_neg hnew, Option.some.injEq] at hsend
      subst hsend
      have hmessages := @push_live session_id generation socket (.event event) .live event.sequence rest
        hstage (.inl rfl)
      rw [← hstage] at hmessages
      have hevents : Socket.events session_id generation
          ({ socket with receiver := rest, sequence := event.sequence }.push (.event event)) =
            socket.events session_id generation ++ [event] := by
        rw [Socket.events, hmessages, List.filterMap_append]
        rfl
      have hmem : event ∈ state.published := h.receiver.subset (hqueue ▸ List.mem_cons_self)
      have hkind := (hinv.published event hmem).2.2
      refine ⟨h.generation_eq, ?_, ?_, fun _ => ?_, ?_, ?_, fun hopened => ?_⟩
      · exact (List.suffix_cons event rest).trans (hqueue ▸ h.receiver)
      · rw [hevents]
        exact Stream.forward_append.mpr ⟨h.forward, .inr ⟨hkind, hsequence⟩, trivial⟩
      · rw [hevents, Stream.reach_append]
        exact hlast
      · rw [hevents, Stream.reach_append]
        exact le_rfl
      · rw [hevents]
        intro other hother
        rcases List.mem_append.mp hother with hbefore | hthis
        · exact h.known other hbefore
        · exact List.mem_singleton.mp hthis ▸ hinv.published_known hmem
      · rw [hmessages]
        exact (h.opens hopened).push rfl
    · simp only [Option.some.injEq] at hsend
      subst hsend
      have hmessages := @push_live session_id generation socket .resync .closed socket.sequence rest
        hstage (.inr rfl)
      have hevents : Socket.events session_id generation
          ({ socket with receiver := rest, stage := .closed }.push .resync) =
            socket.events session_id generation := by
        rw [Socket.events, hmessages, List.filterMap_append]
        exact List.append_nil _
      refine ⟨h.generation_eq, hsuffix.trans h.receiver, ?_, fun hno => absurd rfl hno, ?_, ?_,
        fun hopened => ?_⟩
      · rw [hevents]
        exact h.forward
      · rw [hevents]
        exact h.sequence_le
      · rw [hevents]
        exact h.known
      · rw [hmessages]
        exact (h.opens hopened).push rfl
  case h_5 => simp at hsend

/-! ### The view -/

/-- What handling a message does: the view stays as it is, or it applies the event. -/
theorem handle_effect (h : SocketInv session_id generation state socket)
    (hinv : ScreenInv session_id generation state) {wire : List Message}
    (hwire : socket.wire = message :: wire) (hopen : socket.is_open = true) :
    (∃ event, message = .event event ∧ handle session_id state.view { socket with wire := wire } message =
      ({ cursor := { state.view.cursor with sequence := event.sequence }
         applied := state.view.applied ++ [event] }, { socket with wire := wire })) ∨
    message.sequenced = none ∧
      (handle session_id state.view { socket with wire := wire } message).1 = state.view ∧
      ∃ attached is_open, (handle session_id state.view { socket with wire := wire } message).2 =
        { socket with wire := wire, attached := attached, is_open := is_open } ∧
          (is_open = true → attached = (socket.attached || message.is_attached)) := by
  have hopens := h.opens hopen
  rw [Socket.messages, hwire, List.cons_append] at hopens
  cases message with
  | attached id other lease =>
    refine .inr ⟨rfl, ?_⟩
    simp only [handle]
    split
    · exact ⟨rfl, socket.attached, false, rfl, by simp⟩
    · exact ⟨rfl, true, socket.is_open, rfl, fun _ => by simp [Message.is_attached]⟩
  | replay_complete =>
    refine .inr ⟨rfl, ?_⟩
    simp only [handle]
    split
    · exact ⟨rfl, socket.attached, socket.is_open, rfl, fun _ => by simp [Message.is_attached]⟩
    · exact ⟨rfl, socket.attached, false, rfl, by simp⟩
  | resync => exact .inr ⟨rfl, rfl, socket.attached, false, rfl, by simp⟩
  | event event =>
    refine .inl ⟨event, rfl, ?_⟩
    have hattached : socket.attached = true := by
      cases hattached : socket.attached with
      | true => rfl
      | false =>
        rw [hattached] at hopens
        obtain ⟨first, rest, hsame, hfirst, _⟩ := hopens
        obtain ⟨rfl, _⟩ := List.cons.inj hsame
        simp [Message.is_attached] at hfirst
    have hevents : socket.events session_id generation = event ::
        (wire ++ socket.stage.messages session_id generation).filterMap Message.sequenced := by
      rw [Socket.events, Socket.messages, hwire]
      rfl
    have hknown := h.known event (hevents ▸ List.mem_cons_self)
    have hforward := h.forward
    rw [hevents] at hforward
    have hsafe := hknown.sequence_le.trans hinv.bound
    have hsame : some event.generation = state.view.cursor.generation := by
      rw [h.generation_eq, hknown.generation_eq]
    have hnew : ¬ event.sequence ≤ state.view.cursor.sequence := by
      have hlt := hforward.lt List.mem_cons_self
      omega
    have hnext : ¬ (event.sequence ≠ state.view.cursor.sequence + 1 ∧
        event.event.kind ≠ .replay_truncated) := by
      rintro ⟨hgap, hkind⟩
      rcases hforward.1 with ⟨hmarker, _⟩ | ⟨_, hsequence⟩
      · exact hkind (of_decide_eq_true hmarker)
      · exact hgap hsequence
    simp only [handle]
    rw [if_neg, if_neg, if_neg hnew, if_neg hnext]
    · exact fun hno => hno hknown.session_eq
    · rintro (hno | hno | hno)
      · exact hno hattached
      · omega
      · exact hno hsame

/-! ### Steps -/

/-- The numbers stay safe integers. -/
def bounded (state : State) : Label → Bool
  | .publish _ _ _ _ => state.stream.next_sequence < MAX_SAFE_INTEGER
  | _ => true

theorem screenInv_init (h : (terminal session_id generation).init state) :
    ScreenInv session_id generation state := by
  obtain ⟨hstream, hsocket, hpublished, hcursor, happlied⟩ := h
  refine ⟨?_, ?_, ?_, fun _ => ⟨happlied, hsocket⟩, fun hsame => absurd hsame hcursor, ?_, ?_⟩
  · rw [hstream, hpublished]
    exact retains_new
  · rw [hstream]
    exact Nat.zero_le _
  · simp [hpublished]
  · simp [happlied]
  · simp [hsocket]

theorem Known.mono (h : Known session_id generation state event)
    (hsequence : state.stream.next_sequence ≤ state'.stream.next_sequence)
    (hpublished : state.published ⊆ state'.published)
    (hdropped : state.stream.dropped_through.getD 0 ≤ state'.stream.dropped_through.getD 0) :
    Known session_id generation state' event where
  generation_eq := h.generation_eq
  session_eq := h.session_eq
  sequence_le := h.sequence_le.trans hsequence
  source := h.source.imp (fun hevent => ⟨hevent.1, hpublished hevent.2⟩)
    fun hmarker => ⟨hmarker.1, hmarker.2.trans hdropped⟩

theorem ScreenInv.publish {kind : TerminalEventKind} {data : Option Text} {exit_code : Option Int}
    {text : Option Text} (h : ScreenInv session_id generation state)
    (hok : bounded state (.publish kind data exit_code text) = true)
    (hnext : (terminal session_id generation).next state (.publish kind data exit_code text) = some state') :
    ScreenInv session_id generation state' := by
  simp only [terminal, State.next, Option.ite_none_left_eq_some, Option.some.injEq] at hnext
  obtain ⟨hkind, rfl⟩ := hnext
  have hbound : state.stream.next_sequence < MAX_SAFE_INTEGER := of_decide_eq_true hok
  have hroom : MAX_SAFE_INTEGER < MAX_U64 := by decide
  obtain ⟨hretains, hsequence, hsequenced, hdropped⟩ :=
    h.retains.publish generation ⟨session_id, kind, data, exit_code, text⟩ (hbound.trans hroom)
  generalize state.stream.publish generation ⟨session_id, kind, data, exit_code, text⟩ = after at *
  obtain ⟨stream, sequenced⟩ := after
  simp only at hretains hsequence hsequenced hdropped ⊢
  have hgrow : state.published ⊆ state.published ++ [sequenced] := List.subset_append_left _ _
  have hle : state.stream.next_sequence ≤ stream.next_sequence := by omega
  refine ⟨hretains, hsequence.trans_le hbound, ?_, ?_, ?_, ?_, ?_⟩
  · intro event hevent
    rcases List.mem_append.mp hevent with hbefore | hthis
    · exact h.published event hbefore
    · rw [List.mem_singleton.mp hthis, hsequenced]
      exact ⟨rfl, rfl, decide_eq_false hkind⟩
  · intro hother
    obtain ⟨happlied, hsocket⟩ := h.fresh hother
    exact ⟨happlied, by rw [hsocket]; rfl⟩
  · intro hsame
    obtain ⟨hforward, hreach, hcursor⟩ := h.shown hsame
    exact ⟨hforward, hreach, hcursor.trans hle⟩
  · intro event hevent
    exact (h.known event hevent).mono hle hgrow hdropped
  · intro socket hsocket
    obtain ⟨before, hbefore, rfl⟩ := Option.map_eq_some_iff.mp hsocket
    have hinv := h.socket before hbefore
    refine ⟨hinv.generation_eq, ?_, hinv.forward, fun hopen => ?_, hinv.sequence_le, ?_, hinv.opens⟩
    · obtain ⟨gone, hgone⟩ := hinv.receiver
      exact ⟨gone, by rw [← List.append_assoc, hgone]⟩
    · have hreach := hinv.reach_eq hopen
      show reach _ state.view.cursor.sequence (before.events session_id generation) +
        (before.receiver ++ [sequenced]).length = stream.next_sequence
      rw [List.length_append, List.length_singleton]
      omega
    · intro event hevent
      exact (hinv.known event hevent).mono hle hgrow hdropped

theorem since_getD (view : View) : view.since.getD 0 = view.cursor.sequence := by
  unfold View.since
  split
  · rfl
  · show 0 = view.cursor.sequence
    omega

/-- What is sent first are events of the terminal and a marker. -/
theorem ScreenInv.attach_known {since : Option Nat} (h : ScreenInv session_id generation state)
    (hevent : event ∈ state.stream.attach session_id generation since) :
    Known session_id generation state event := by
  have hretained : ∀ other ∈ state.stream.replay, Known session_id generation state other :=
    fun other hother => h.published_known (h.retains.suffix.subset hother)
  rcases attach_cases h.retains with ⟨_, hattach⟩ | ⟨_, hattach⟩
  · rw [hattach] at hevent
    rcases List.mem_cons.mp hevent with rfl | hreplay
    · have hlen := h.retains.dropped_through
      refine ⟨rfl, rfl, ?_, .inr ⟨rfl, le_rfl⟩⟩
      show state.stream.dropped_through.getD 0 ≤ _
      omega
    · exact hretained event hreplay
  · rw [hattach] at hevent
    exact hretained event (List.mem_of_mem_filter hevent)

theorem opened_events (lease : Nat) (replay : List SequencedTerminalEvent) :
    (Socket.opened lease replay).events session_id generation = replay := by
  show List.filterMap Message.sequenced (_ :: (replay.map Message.event ++ [.replay_complete])) = _
  rw [List.filterMap_cons, List.filterMap_append, sequenced_events]
  exact List.append_nil _

/-- The socket that a view opens. -/
theorem ScreenInv.attach {lease : Nat} (h : ScreenInv session_id generation state)
    (hnext : (terminal session_id generation).next state (.attach lease) = some state') :
    ScreenInv session_id generation state' := by
  have hsame : _ = state' := Option.some.inj hnext
  subst hsame
  have hview : (state.view.for_generation generation).cursor.generation = some generation ∧
      (state.view.for_generation generation).applied = state.view.applied ∧
      Forward SequencedTerminalEvent.sequence SequencedTerminalEvent.is_truncation 0 state.view.applied ∧
      reach SequencedTerminalEvent.sequence 0 state.view.applied =
        (state.view.for_generation generation).cursor.sequence ∧
      (state.view.for_generation generation).cursor.sequence ≤ state.stream.next_sequence := by
    unfold View.for_generation
    split
    case isTrue hcurrent => exact ⟨hcurrent, rfl, h.shown hcurrent⟩
    case isFalse hother =>
      have hnone := (h.fresh hother).1
      refine ⟨rfl, rfl, ?_, ?_, Nat.zero_le _⟩
      · rw [hnone]
        trivial
      · rw [hnone]
        rfl
  generalize state.view.for_generation generation = view at hview ⊢
  obtain ⟨hgeneration, happlied, hforward, hreach, hcursor⟩ := hview
  refine ⟨h.retains, h.bound, h.published, fun hother => absurd hgeneration hother, fun _ => ?_, ?_,
    fun socket hsocket => ?_⟩
  · rw [happlied]
    exact ⟨hforward, hreach, hcursor⟩
  · intro event hevent
    have hknown := h.known event (happlied ▸ hevent)
    exact ⟨hknown.generation_eq, hknown.session_eq, hknown.sequence_le, hknown.source⟩
  · have hsame := Option.some.inj hsocket
    subst hsame
    have hevents : (Socket.opened lease (state.stream.attach session_id generation view.since)).events
        session_id generation = state.stream.attach session_id generation view.since :=
      opened_events _ _
    have hsince := since_getD view
    have hsent : Forward SequencedTerminalEvent.sequence SequencedTerminalEvent.is_truncation
          view.cursor.sequence (state.stream.attach session_id generation view.since) ∧
        reach SequencedTerminalEvent.sequence view.cursor.sequence
          (state.stream.attach session_id generation view.since) = state.stream.next_sequence := by
      rw [← hsince]
      exact attach_forward h.retains (hsince.trans_le hcursor)
    refine ⟨hgeneration, List.nil_suffix, ?_, fun _ => ?_, Nat.zero_le _, ?_, fun _ => ?_⟩
    · rw [hevents]
      exact hsent.1
    · rw [hevents]
      exact hsent.2
    · rw [hevents]
      intro event hevent
      have hknown := h.attach_known hevent
      exact ⟨hknown.generation_eq, hknown.session_eq, hknown.sequence_le, hknown.source⟩
    · refine ⟨_, _, rfl, rfl, fun message hmessage => ?_⟩
      rcases List.mem_append.mp hmessage with hreplay | hlast
      · obtain ⟨event, _, rfl⟩ := List.mem_map.mp hreplay
        rfl
      · exact List.mem_singleton.mp hlast ▸ rfl

/-- The view handles a message. -/
theorem ScreenInv.receive (h : ScreenInv session_id generation state)
    (hnext : (terminal session_id generation).next state .receive = some state') :
    ScreenInv session_id generation state' := by
  obtain ⟨socket, hsocket, hnext⟩ := Option.bind_eq_some_iff.mp hnext
  split at hnext
  case h_1 => simp at hnext
  case h_2 message wire hwire =>
    rw [Option.ite_none_right_eq_some, Option.some.injEq] at hnext
    obtain ⟨hopen, rfl⟩ := hnext
    have hinv := h.socket socket hsocket
    have hopens := hinv.opens hopen
    have hmessages : socket.messages session_id generation =
        message :: (wire ++ socket.stage.messages session_id generation) := by
      rw [Socket.messages, hwire, List.cons_append]
    rw [hmessages] at hopens
    rcases handle_effect hinv h hwire hopen with ⟨event, rfl, heffect⟩ |
      ⟨hnone, hview, attached, is_open, hhandled, hattached⟩
    · have hevents : socket.events session_id generation =
          event :: Socket.events session_id generation { socket with wire := wire } := by
        rw [Socket.events, hmessages]
        rfl
      obtain ⟨hgeneration, hreceiver, hforward, hreach, hsequence, hknown, _⟩ := hinv
      rw [hevents] at hforward hreach hsequence hknown
      obtain ⟨hshown, hreached, _⟩ := h.shown hgeneration
      rw [heffect]
      refine ⟨h.retains, h.bound, h.published, fun hother => absurd hgeneration hother,
        fun _ => ⟨?_, ?_, ?_⟩, ?_, fun other hother => ?_⟩
      · exact Stream.forward_append.mpr ⟨hshown, hreached ▸ hforward.1, trivial⟩
      · exact Stream.reach_append
      · exact (hknown event List.mem_cons_self).sequence_le
      · intro other hother
        rcases List.mem_append.mp hother with hbefore | hthis
        · exact (h.known other hbefore).mono le_rfl (List.Subset.refl _) le_rfl
        · rw [List.mem_singleton.mp hthis]
          exact (hknown event List.mem_cons_self).mono le_rfl (List.Subset.refl _) le_rfl
      · have hsame := Option.some.inj hother
        subst hsame
        refine ⟨hgeneration, hreceiver, hforward.2, hreach, hsequence, fun other hother => ?_, fun _ => ?_⟩
        · have hbefore := hknown other (List.mem_cons_of_mem _ hother)
          exact hbefore.mono le_rfl (List.Subset.refl _) le_rfl
        · have htail := hopens.tail
          have hplain : (Message.event event).is_attached = false := rfl
          rw [hplain, Bool.or_false] at htail
          exact htail
    · have hevents : Socket.events session_id generation
          { socket with wire := wire, attached := attached, is_open := is_open } =
            socket.events session_id generation := by
        rw [Socket.events, Socket.events, hmessages, List.filterMap_cons, hnone]
        rfl
      rw [hhandled, hview]
      refine ⟨h.retains, h.bound, h.published, fun hother => absurd hinv.generation_eq hother, h.shown,
        ?_, fun other hother => ?_⟩
      · intro event hevent
        exact (h.known event hevent).mono le_rfl (List.Subset.refl _) le_rfl
      · have hsame := Option.some.inj hother
        subst hsame
        refine ⟨hinv.generation_eq, hinv.receiver, ?_, ?_, ?_, ?_, fun hstill => ?_⟩
        · rw [hevents]
          exact hinv.forward
        · rw [hevents]
          exact hinv.reach_eq
        · rw [hevents]
          exact hinv.sequence_le
        · rw [hevents]
          intro event hevent
          exact (hinv.known event hevent).mono le_rfl (List.Subset.refl _) le_rfl
        · show Opens attached _
          rw [hattached hstill]
          exact hopens.tail

theorem ScreenInv.step (h : ScreenInv session_id generation state) (hok : bounded state label = true)
    (hnext : (terminal session_id generation).next state label = some state') :
    ScreenInv session_id generation state' := by
  cases label with
  | publish kind data exit_code text => exact h.publish hok hnext
  | attach lease => exact h.attach hnext
  | receive => exact h.receive hnext
  | send =>
    obtain ⟨socket, hsocket, hnext⟩ := Option.bind_eq_some_iff.mp hnext
    obtain ⟨sent, hsend, hnext⟩ := Option.bind_eq_some_iff.mp hnext
    rw [Option.some.injEq] at hnext
    subst hnext
    have hinv := (h.socket socket hsocket).send h hsend
    refine ⟨h.retains, h.bound, h.published, fun hother => absurd hinv.generation_eq hother, h.shown,
      ?_, fun other hother => ?_⟩
    · intro event hevent
      exact (h.known event hevent).mono le_rfl (List.Subset.refl _) le_rfl
    · have hsame := Option.some.inj hother
      subst hsame
      refine ⟨hinv.generation_eq, hinv.receiver, hinv.forward, hinv.reach_eq, hinv.sequence_le, ?_,
        hinv.opens⟩
      intro event hevent
      exact (hinv.known event hevent).mono le_rfl (List.Subset.refl _) le_rfl
  | lose =>
    have hsame : { state with socket := none } = state' := Option.some.inj hnext
    subst hsame
    refine ⟨h.retains, h.bound, h.published, fun hother => ⟨(h.fresh hother).1, rfl⟩, h.shown, ?_, nofun⟩
    intro event hevent
    exact (h.known event hevent).mono le_rfl (List.Subset.refl _) le_rfl

/-! ### Runs -/

/-- Nothing is left to come to a view that is attached. -/
def State.drained (state : State) : Bool :=
  state.socket.any fun socket =>
    socket.stage = .live && socket.wire.isEmpty && socket.receiver.isEmpty

/-- What holds of the output of a terminal and of what a view of it has applied. -/
structure OutputOnce (session_id : Text) (generation : Nat) (state : State) : Prop where
  increasing : state.view.applied.Pairwise fun a b => a.sequence < b.sequence
  genuine : ∀ event ∈ state.view.applied, event.is_truncation = false → event ∈ state.published
  /-- An event that is not applied although a later one is has been evicted, and a marker in
      between stands for it. -/
  announced : ∀ event ∈ state.published, event ∉ state.view.applied →
    ∀ later ∈ state.view.applied, event.sequence ≤ later.sequence →
      event ∉ state.stream.replay ∧ ∃ marker ∈ state.view.applied, marker.is_truncation = true ∧
        event.sequence ≤ marker.sequence ∧ marker.sequence ≤ later.sequence
  /-- An attachment is sent a marker iff an event behind its `since` has been evicted. -/
  truncated : ∀ since, (∃ marker ∈ state.stream.attach session_id generation since,
      marker.is_truncation = true) ↔
    ∃ event ∈ state.published, since.getD 0 < event.sequence ∧ event ∉ state.stream.replay
  bytes_eq : state.stream.replay_bytes = replay_size state.stream.replay
  bytes_le : state.stream.replay_bytes ≤ MAX_TERMINAL_REPLAY_BYTES
  drained : state.drained = true → state.view.cursor.sequence = state.stream.next_sequence

theorem ScreenInv.announced (h : ScreenInv session_id generation state) {later : SequencedTerminalEvent}
    (hevent : event ∈ state.published) (hmissing : event ∉ state.view.applied)
    (hlater : later ∈ state.view.applied) (hle : event.sequence ≤ later.sequence) :
    event ∉ state.stream.replay ∧ ∃ marker ∈ state.view.applied, marker.is_truncation = true ∧
      event.sequence ≤ marker.sequence ∧ marker.sequence ≤ later.sequence := by
  have hcurrent : state.view.cursor.generation = some generation := by
    by_contra hother
    rw [(h.fresh hother).1] at hlater
    simp at hlater
  obtain ⟨hshown, _, _⟩ := h.shown hcurrent
  have hreached := hle.trans (hshown.mem_le_reach hlater)
  have hpos := h.retains.consecutive.lt hevent
  rcases hshown.covered hpos hreached with ⟨item, hitem, hkind, hsequence⟩ |
    ⟨marker, hmarker, hkind, hcovers, hleast⟩
  · -- the item with the number of the event is the event
    have hknown := h.known item hitem
    rcases hknown.source with ⟨_, hpublished⟩ | ⟨hmark, _⟩
    · have hsame := h.retains.consecutive.inj hpublished hevent hsequence
      exact absurd (hsame ▸ hitem) hmissing
    · simp [hkind] at hmark
  · refine ⟨?_, marker, hmarker, hkind, hcovers, hleast later hlater hle⟩
    rcases (h.known marker hmarker).source with ⟨hplain, _⟩ | ⟨_, hdropped⟩
    · simp [hkind] at hplain
    · exact (h.retains.evicted_iff hevent).mpr (hcovers.trans hdropped)

theorem ScreenInv.drained (h : ScreenInv session_id generation state) (hdrained : state.drained = true) :
    state.view.cursor.sequence = state.stream.next_sequence := by
  obtain ⟨socket, hsocket, hdone⟩ := (Option.any_eq_true _ _).mp hdrained
  simp only [Bool.and_eq_true, decide_eq_true_eq, List.isEmpty_iff] at hdone
  obtain ⟨⟨hstage, hwire⟩, hreceiver⟩ := hdone
  have hreach := (h.socket socket hsocket).reach_eq (by simp [hstage])
  rw [Socket.events, Socket.messages, hwire, hstage, hreceiver] at hreach
  exact hreach

/-- **Output reaches the screen once.** -/
theorem output_once
    (hs : (terminal session_id generation).ReachableWhen (fun s l => bounded s l = true) state) :
    OutputOnce session_id generation state := by
  have hinv : ScreenInv session_id generation state :=
    hs.invariant (fun _ => screenInv_init) fun _ _ _ h hok hnext => h.step hok hnext
  refine ⟨?_, ?_, fun event hevent hmissing later hlater hle => hinv.announced hevent hmissing hlater hle,
    fun since => ?_, hinv.retains.bytes_eq, hinv.retains.bytes_le, hinv.drained⟩
  · by_cases hcurrent : state.view.cursor.generation = some generation
    · exact (hinv.shown hcurrent).1.increasing
    · rw [(hinv.fresh hcurrent).1]
      exact .nil
  · intro event hevent hkind
    rcases (hinv.known event hevent).source with ⟨_, hpublished⟩ | ⟨hmark, _⟩
    · exact hpublished
    · simp [hkind] at hmark
  · exact attach_truncated hinv.retains fun event hevent => (hinv.published event hevent).2.2

/-- The terminal of a session before its first output. -/
def started : State where
  stream := .new
  socket := none
  view := { cursor := { generation := none, sequence := 0 }, applied := [] }
  published := []

def output (text : String) : Label := .publish .output (some text.toList) none none

/-- A view that loses its socket after the first of three events and attaches again. -/
theorem reattached_output_once :
    ∃ state : State, OutputOnce "tab".toList 7 state ∧
      state.view.applied.map SequencedTerminalEvent.sequence = [1, 2, 3] := by
  have hstart : (terminal "tab".toList 7).init started := ⟨rfl, rfl, rfl, by decide, rfl⟩
  have hreach : ∃ state, (terminal "tab".toList 7).ReachableWhen (fun s l => bounded s l = true) state ∧
      decide (state.view.applied.map SequencedTerminalEvent.sequence = [1, 2, 3]) = true :=
    Machine.reachable_of_replay bounded (fun _ _ => id) hstart
      [output "one", .attach 1, .send, .send, .receive, .receive, output "two", .lose, output "three",
        .attach 2, .send, .send, .send, .send, .receive, .receive, .receive, .receive] _
      (by decide +kernel)
  obtain ⟨state, hstate, happlied⟩ := hreach
  exact ⟨state, output_once hstate, of_decide_eq_true happlied⟩

end Terminal
